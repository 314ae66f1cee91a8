import BoostChat.Api.Deletion
import BoostChat.Joint.Binding

/-!
# Admissions after a deletion

`DeleteUser` does not touch Redis, and `VerifyUser` looks at neither the flag of the
account nor the time of the login. A session id that was issued before the deletion
admits its bearer afterwards, as long as its key lives.

* `RespectsDeletions` — the condition on a step: when a deletion succeeds, no session id
  of the account is stored any more, and no request that was in flight then stores one or
  reaches the save of an update of the account later;
* `Barred` — what then holds in every later state: the account is dead and no session key
  holds its id;
* `deleted_not_admitted` — nobody is admitted for the account any more;
* `annLeaves_returns` — a client that logged in before the deletion is admitted after it.
-/

namespace BoostChat.Joint

open Lib Api.CacheRepository

/-- A deletion succeeds only when no session id of the account is stored any more; afterwards
no session is stored and no update is saved for the account. (Only requests that were in
flight at the deletion could: see `Closed.refuses`.) -/
def RespectsDeletions (s : Sys) : Action → Prop
  | .service a =>
    (∀ id ∈ s.service.deletes a, ∀ p ∈ s.issued, p.2 = id →
      s.redis (sessionKey p.1) ≠ some (decimal id)) ∧
    (∀ p ∈ s.service.stores a, p.2 ∉ s.deleted) ∧ ∀ id ∈ s.service.updates a, id ∉ s.deleted
  | _ => True

instance (s : Sys) : (a : Action) → Decidable (RespectsDeletions s a)
  | .service _ => inferInstanceAs (Decidable (_ ∧ _ ∧ _))
  | .server _ | .examine _ | .expire _ => .isTrue trivial

/-- The account is dead and no session key holds its id. -/
structure Barred (id : Nat) (s : Sys) : Prop where
  dead : s.service.api.context.Dead id
  sessions : ∀ sessionId, s.redis (sessionKey sessionId) ≠ some (decimal id)

variable {parse : Bytes → Option Server.ChatMessage} {pbkdf2 : Api.Pbkdf2} {s t : Sys} {id : Nat}

/-- A step that deletes stores nothing. -/
theorem stores_of_deletes {s : Api.Sys} {a : Api.Action} (h : s.deletes a = some id) :
    s.stores a = none := by
  cases a with
  | begin => rfl
  | proceed k =>
    simp only [Api.Sys.deletes] at h
    split at h
    · rename_i hk
      simp [Api.Sys.stores, hk]
    · cases h

/-- **Step lemma.** -/
theorem barred_step (hflight : Api.InFlight s.service) (h : Barred id s) (hid : id ∈ s.deleted)
    {a : Action} (hok : RespectsDeletions s a) (heffect : Effect parse pbkdf2 s a t) :
    Barred id t := by
  cases heffect with
  | server | examine => exact ⟨h.dead, h.sessions⟩
  | @service a service hstep =>
    obtain ⟨-, hstores, hupdates⟩ := hok
    refine ⟨Api.dead_step h.dead hflight (fun heq => hupdates id heq hid) hstep,
      fun sessionId hv => ?_⟩
    rcases service_sessionKey hstep hv with hold | ⟨n, hstored, hn⟩
    · exact h.sessions sessionId hold
    · obtain rfl := decimal_injective hn
      exact hstores _ hstored hid
  | expire =>
    exact ⟨h.dead, fun sessionId hv => h.sessions sessionId (get_of_expire hv)⟩

/-- A deletion bars the account when no session id of it is stored. -/
theorem barred_of_deletes (hbound : Bound s) (hflight : Api.InFlight s.service) {a : Api.Action}
    (hok : RespectsDeletions s (.service a)) (hdeletes : s.service.deletes a = some id)
    (heffect : Effect parse pbkdf2 s (.service a) t) : Barred id t := by
  cases heffect with
  | @service _ service hstep =>
    refine ⟨Api.dead_of_deletes hflight hstep hdeletes, fun sessionId hv => ?_⟩
    rcases service_sessionKey hstep hv with hold | ⟨n, hstores, -⟩
    · obtain ⟨n, hmem, hn⟩ := hbound.stored sessionId _ hold
      exact hok.1 id hdeletes _ hmem (decimal_injective hn).symm hold
    · rw [stores_of_deletes hdeletes] at hstores
      cases hstores

/-! ## Runs -/

structure Closed (s : Sys) : Prop where
  admission : Server.Admission s.server
  bound : Bound s
  flight : Api.InFlight s.service
  barred : ∀ id ∈ s.deleted, Barred id s

theorem Closed.start (maxUser : UInt32) {table : List UserRow} (hids : (table.map (·.id)).Nodup) :
    Closed (Sys.start maxUser table) where
  admission := .start maxUser
  bound := .start maxUser table
  flight := ⟨.fresh hids, fun _ h => absurd h List.not_mem_nil⟩
  barred _ h := absurd h List.not_mem_nil

/-- **Step lemma.** -/
theorem closed_step (h : Closed s) {a : Action} (hok : RespectsDeletions s a)
    (hstep : step parse pbkdf2 s a = some t) : Closed t := by
  have heffect := step_effect hstep
  have hadm := step_admission hstep h.admission
  have hbound := bound_step h.admission h.bound heffect
  have hbarred := fun id hid => barred_step h.flight (h.barred id hid) hid hok heffect
  cases heffect with
  | server | examine | expire => exact ⟨hadm, hbound, ⟨h.flight.coherent, h.flight.keyed⟩, hbarred⟩
  | @service a service hservice =>
    refine ⟨hadm, hbound, Api.inFlight_step h.flight hservice, fun id hid => ?_⟩
    -- deleted by this step, or before
    rcases List.mem_append.mp hid with hid | hid
    · rw [Option.mem_toList] at hid
      exact barred_of_deletes h.bound h.flight hok hid (step_effect hstep)
    · exact hbarred id hid

/-- A request that begins after the deletion is no login or update that goes on. -/
theorem Closed.refuses (h : Closed s) (hdeleted : id ∈ s.deleted) {w : Api.World}
    {request : Api.Request} {task : Api.Task}
    (hmore : (Api.begin pbkdf2 w s.service.api request).2 = .more task) : ¬ task.Concerns id :=
  (h.barred id hdeleted).dead.refuses h.flight.coherent hmore

/-- Deletions are never forgotten. -/
theorem step_deleted {a : Action} (hstep : step parse pbkdf2 s a = some t) (h : id ∈ s.deleted) :
    id ∈ t.deleted := by
  cases step_effect hstep with
  | service => exact List.mem_append_right _ h
  | _ => exact h

/-- A step admits nobody for a barred account. -/
theorem Barred.not_admitted (h : Barred id s) (hclosed : Closed s) {a : Action}
    (hstep : step parse pbkdf2 s a = some t) :
    ∃ new, t.server.admitted = new ++ s.server.admitted ∧ ∀ l ∈ new, l.id.toNat ≠ id := by
  cases step_effect hstep with
  | service | expire => exact ⟨[], rfl, fun _ hl => absurd hl List.not_mem_nil⟩
  | server hno hserver =>
    rcases Server.step_containers hclosed.admission (Server.step_effect hserver) with
      ⟨hadmitted, -⟩ | ⟨env, l, ha, -⟩
    · exact ⟨[], hadmitted, fun _ hl => absurd hl List.not_mem_nil⟩
    · exact absurd ha (hno env)
  | examine hserver =>
    rcases Server.step_containers hclosed.admission (Server.step_effect hserver) with
      ⟨hadmitted, -⟩ | ⟨env, login, ha, hnext, hadmitted, -⟩
    · exact ⟨[], hadmitted, fun _ hl => absurd hl List.not_mem_nil⟩
    · refine ⟨[login], hadmitted, fun l hl heq => ?_⟩
      obtain rfl := List.mem_singleton.mp hl
      obtain rfl := Server.Action.examine.inj ha
      obtain ⟨msg, n, -, -, hredis, -, hid, -⟩ := hclosed.bound.login hnext
      exact h.sessions msg.content (by rw [hredis, ← heq, hid])

/-- **Deleted accounts stay out.** Once a deletion has succeeded, in a run of both servers
that respects its deletions, every later admission is for another account. -/
theorem deleted_not_admitted {maxUser : UInt32} {table : List UserRow}
    (hids : (table.map (·.id)).Nodup) {as bs : List Action}
    (hrun : Run (step parse pbkdf2) RespectsDeletions (.start maxUser table) as s)
    (hdeleted : id ∈ s.deleted) (hmore : Run (step parse pbkdf2) RespectsDeletions s bs t) :
    ∃ new, t.server.admitted = new ++ s.server.admitted ∧ ∀ l ∈ new, l.id.toNat ≠ id := by
  have hclosed : Closed s :=
    hrun.invariant (fun _ _ _ h hok hstep => closed_step h hok hstep) (.start maxUser hids)
  refine (hmore.invariant (I := fun t => (Closed t ∧ id ∈ t.deleted) ∧
    ∃ new, t.server.admitted = new ++ s.server.admitted ∧ ∀ l ∈ new, l.id.toNat ≠ id) ?_
    ⟨⟨hclosed, hdeleted⟩, [], rfl, fun _ hl => absurd hl List.not_mem_nil⟩).2
  rintro s' a t' ⟨⟨hclosed, hdeleted⟩, new, hnew, hids⟩ hok hstep
  obtain ⟨newer, hnewer, hids'⟩ := (hclosed.barred id hdeleted).not_admitted hclosed hstep
  refine ⟨⟨closed_step hclosed hok hstep, step_deleted hstep hdeleted⟩, newer ++ new, ?_, ?_⟩
  · rw [hnewer, hnew, List.append_assoc]
  · exact List.forall_mem_append.mpr ⟨hids', hids⟩

/-- `ann` deletes her account. -/
def annLeaves : List Action :=
  [.service (.begin {} (.delete { userId := ascii "ann", password := ascii "secret" })),
    .service (.proceed 0)]

/-- The session key expires before the deletion; the client that presents the session id
afterwards keeps waiting. -/
theorem deleted_not_admitted_ann :
    ∃ s t : Sys, 1 ∈ s.deleted ∧ t.server.srv.newUsers = [0] ∧
      ∃ new, t.server.admitted = new ++ s.server.admitted ∧ ∀ l ∈ new, l.id.toNat ≠ 1 := by
  let joint := step (Server.parseSerialized [Server.login "a"]) Api.secretPbkdf2
  obtain ⟨s, hrun, hs⟩ := exists_run_of_exec joint RespectsDeletions (.start 5 [Api.ann])
    (annLogsIn ++ [.expire (ascii "Session:a")] ++ annLeaves)
    (fun s => decide (1 ∈ s.deleted ∧ (exec joint RespectsDeletions s annConnects).map
      (fun t => decide (t.server.srv.newUsers = [0])) = some true)) (by decide)
  obtain ⟨hdeleted, hexec⟩ := of_decide_eq_true hs
  obtain ⟨t, hmore, ht⟩ := exists_run_of_exec joint RespectsDeletions s annConnects _ hexec
  exact ⟨s, t, hdeleted, of_decide_eq_true ht,
    deleted_not_admitted (by decide) hrun hdeleted hmore⟩

/-- A client logs in, the account is deleted, and then the client connects and is admitted
for the deleted account. -/
theorem annLeaves_returns :
    ∃ s t : Sys,
      Run (step (Server.parseSerialized [Server.login "a"]) Api.secretPbkdf2) anyStep
        (.start 5 [Api.ann]) (annLogsIn ++ annLeaves) s ∧
      1 ∈ s.deleted ∧ s.server.admitted = [] ∧
      Run (step (Server.parseSerialized [Server.login "a"]) Api.secretPbkdf2) anyStep
        s annConnects t ∧
      t.server.srv.users = [0] ∧ (t.server.srv.sessions 0).id = 1 := by
  let joint := step (Server.parseSerialized [Server.login "a"]) Api.secretPbkdf2
  obtain ⟨s, hrun, hs⟩ := exists_run_of_exec joint anyStep (.start 5 [Api.ann])
    (annLogsIn ++ annLeaves)
    (fun s => decide (1 ∈ s.deleted ∧ s.server.admitted = [] ∧
      (exec joint anyStep s annConnects).map (fun t => decide (t.server.srv.users = [0] ∧
        (t.server.srv.sessions 0).id = 1)) = some true)) (by decide)
  obtain ⟨hdeleted, hadmitted, hexec⟩ := of_decide_eq_true hs
  obtain ⟨t, hmore, ht⟩ := exists_run_of_exec joint anyStep s annConnects _ hexec
  exact ⟨s, t, hrun, hdeleted, hadmitted, hmore, of_decide_eq_true ht⟩

end BoostChat.Joint
