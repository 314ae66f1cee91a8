import BoostChat.Server.PartySessions
import BoostChat.Server.Parties

/-!
# Party message delivery

A party message goes to the accounts in the party's list. It reaches exactly the users
whose party id is that of the sender when the list agrees with the party ids
(`Consistent`), and three steps can break the agreement: an account logs in again
while a party still lists it, a user leaves by the name of another party, and the
counter of party ids wraps around to the id of a live party.

* `PartiesKept` — the condition on a step: it is none of these;
* `PartyRecords` — the invariant of the runs whose steps all meet it;
* `party_delivery` — party messages are then delivered to each member once, and to
  nobody else.
-/

namespace BoostChat.Server

open Lib

variable {parse : Bytes → Option ChatMessage} {s t : Sys} {a : Action}

/-- No party lists an account that logs in; a party that a message creates has a fresh
id; a user leaves the party it is in. -/
def PartiesKept (s : Sys) : Action → Prop
  | .examine env => ∀ l ∈ s.srv.nextLogin env,
      ∀ entry ∈ s.srv.partyManager.mapParties.entries, entry.1 ≠ 0 → l.id ∉ entry.2.members
  | .dispatch o => ∀ user ∈ s.current, ∀ msg ∈ (s.srv.sessions user).pending.head?,
      (TcpServer.Creates o s.srv user msg →
        s.srv.partyManager.partyIdCounter ∉ s.srv.partyManager.mapParties) ∧
      ∀ party ∈ s.srv.partyManager.findPartyByName o.iterOrder msg.content,
        TcpServer.Leaves o s.srv user msg party → party.partyId = s.srv.partyIds user
  | _ => True

instance (s : Sys) : (a : Action) → Decidable (PartiesKept s a)
  | .examine env => inferInstanceAs (Decidable (∀ l ∈ s.srv.nextLogin env, _))
  | .dispatch _ => inferInstanceAs (Decidable (∀ user ∈ s.current, _))
  | .accept | .receive _ _ | .disconnect _ | .sweep | .visit _ | .finish => isTrue trivial

structure PartyRecords (s : Sys) : Prop where
  consistent : Consistent s.srv.partyManager.mapParties s.srv.users
    (fun u => (s.srv.sessions u).id) s.srv.partyIds
  outside : ∀ u, (∀ l ∈ s.admitted, l.session ≠ u) → s.srv.partyIds u = 0
  /-- A session that stopped being a user while it is served shares its account with nobody. -/
  apart : ∀ u, s.current = some u → u ∉ s.srv.users →
    ∀ v ∈ s.srv.users, (s.srv.sessions v).id ≠ (s.srv.sessions u).id

theorem PartyRecords.start (maxUser : UInt32) : PartyRecords (Sys.start maxUser) where
  consistent := ⟨fun _ _ h => (nomatch h), fun _ h => absurd h List.not_mem_nil⟩
  outside _ _ := rfl
  apart _ h := by cases h

theorem PartyRecords.sessions (h : PartyRecords s) : PartySessions s := ⟨h.outside, h.apart⟩

/-- **Step lemma for the lists**, for a step that is no dispatch. -/
theorem consistent_step (hadm : Admission s) (hid : Identified s) (h : PartyRecords s)
    (hok : PartiesKept s a) (heffect : Effect parse s a t) (hno : ∀ o, a ≠ .dispatch o) :
    Consistent t.srv.partyManager.mapParties t.srv.users (fun u => (t.srv.sessions u).id)
      t.srv.partyIds := by
  rw [(step_partyIds heffect hno).1]
  refine ⟨h.consistent.keyed, fun u hu k hk => ?_⟩
  rcases step_user hadm hid h.sessions heffect hno hu with
    ⟨hold, hid', hparty⟩ | ⟨env, l, rfl, hlogin, -, hid', hparty⟩
  · rw [hid', hparty]
    exact h.consistent.count u hold k hk
  · -- no list has the account that logs in
    rw [hid', hparty, if_neg hk.symm]
    refine List.count_eq_zero.mpr ?_
    rw [roster]
    cases hlookup : s.srv.partyManager.mapParties.lookup k with
    | none => exact List.not_mem_nil
    | some party => exact hok l hlogin ⟨k, party⟩ (AList.mem_lookup_iff.mp hlookup) hk

/-- **Step lemma for the lists**, for a dispatch. The state is the one `OnMessage` left,
but with the users of before. -/
theorem consistent_dispatch (hadm : Admission s) (h : PartyRecords s) {o : Oracle}
    {user : SessionRef} {msg : ChatMessage} {input output : List ChatMessage} {srv : TcpServer}
    (hok : PartiesKept s (.dispatch o)) (hcurrent : s.current = some user)
    (hpending : (s.srv.sessions user).pending = msg :: (output ++ input))
    (hmessage : (s.srv.setSession user ((s.srv.sessions user).withQueues input output)).onMessage
      o user msg = .ok srv) :
    Consistent srv.partyManager.mapParties s.srv.users (fun u => (s.srv.sessions u).id)
      srv.partyIds := by
  obtain ⟨hids, hid⟩ := setSession_withQueues_partyIds s.srv user input output
  obtain ⟨hcreate, hleave⟩ := hok user hcurrent msg (by rw [hpending]; rfl)
  have hconsistent := TcpServer.party_effect_consistent (TcpServer.onMessage_party hmessage)
  simp only [hid, hids, TcpServer.setSession_users] at hconsistent
  refine hconsistent h.consistent (fun u hu => h.sessions.alone hadm hcurrent hu)
    (fun hcreates => ?_) fun party hleaves => ?_
  · refine hcreate ?_
    unfold TcpServer.Creates at hcreates ⊢
    rw [hids] at hcreates
    exact hcreates
  · unfold TcpServer.Leaves at hleaves hleave
    rw [hids, hid] at hleaves
    exact hleave party hleaves.2.2.2.1 hleaves

/-- **Step lemma.** -/
theorem records_step (hadm : Admission s) (hid : Identified s) (h : PartyRecords s)
    (hok : PartiesKept s a) (heffect : Effect parse s a t) : PartyRecords t := by
  have hsessions := partySessions_step hadm hid h.sessions heffect
  refine ⟨?_, hsessions.outside, hsessions.apart⟩
  by_cases hdispatch : ∃ o, a = .dispatch o
  · obtain ⟨o, rfl⟩ := hdispatch
    have hids := fun u hu => step_id hadm heffect (u := u) hu
    cases heffect with
    | @dispatch _ user msg input output srv hcurrent hpending hmessage =>
      have husers : srv.users ⊆ s.srv.users :=
        (TcpServer.onMessage_frame hmessage).users_sublist.subset
      exact (consistent_dispatch hadm h hok hcurrent hpending hmessage).congr husers
        (fun u hu => hids u (husers hu)) fun _ _ => rfl
  · exact consistent_step hadm hid h hok heffect fun o ho => hdispatch ⟨o, ho⟩

/-! ## Delivery -/

/-- The party of a user exists, because it lists the account. -/
theorem PartyRecords.exists_party (h : PartyRecords s) {user : SessionRef}
    (huser : user ∈ s.srv.users) (hparty : s.srv.partyIds user ≠ 0) :
    ∃ party, s.srv.partyManager.mapParties.lookup (s.srv.partyIds user) = some party := by
  have hone := h.consistent.count user huser _ hparty
  rw [if_pos rfl, roster] at hone
  cases hlookup : s.srv.partyManager.mapParties.lookup (s.srv.partyIds user) with
  | none =>
    rw [hlookup] at hone
    cases hone
  | some party => exact ⟨party, rfl⟩

/-- A party's list names each user at most once, so a user is looked up at most once. -/
theorem targets_count {srv : TcpServer}
    (hdistinct : ∀ u ∈ srv.users, ∀ v ∈ srv.users,
      (srv.sessions u).id = (srv.sessions v).id → u = v)
    (ids : List UInt32) {v : SessionRef} (hv : v ∈ srv.users) :
    (ids.filterMap srv.getUserById).count v = ids.count (srv.sessions v).id := by
  have hfind : ∀ id, srv.getUserById id = some v ↔ id = (srv.sessions v).id := by
    intro id
    constructor
    · intro h
      have hid : (srv.sessions v).id = id := by simpa using List.find?_some h
      exact hid.symm
    · rintro rfl
      cases h : srv.getUserById (srv.sessions v).id with
      | none =>
        have hno := List.find?_eq_none.mp h v hv
        simp at hno
      | some u =>
        have hid : (srv.sessions u).id = (srv.sessions v).id := by simpa using List.find?_some h
        rw [hdistinct u (List.mem_of_find?_eq_some h) v hv hid]
  induction ids with
  | nil => rfl
  | cons id ids ih =>
    rw [List.count_cons, ← ih]
    cases h : srv.getUserById id with
    | none =>
      have hne : id ≠ (srv.sessions v).id := fun heq => by
        rw [(hfind id).mpr heq] at h
        cases h
      rw [List.filterMap_cons_none h, if_neg (by simpa using hne), Nat.add_zero]
    | some u =>
      -- one more of `v` exactly when this is the account of `v`
      rw [List.filterMap_cons_some h, List.count_cons]
      have hiff : u = v ↔ id = (srv.sessions v).id := by rw [← hfind, h, Option.some.injEq]
      simp only [beq_iff_eq, hiff]

/-- **Party message delivery.** In a run whose steps keep the parties, a party message of
a user in a party is sent exactly once to each user of the same party id, and to no
other session. -/
theorem party_delivery {maxUser : UInt32} {as : List Action}
    (hrun : Run (step parse) PartiesKept (Sys.start maxUser) as s) {user : SessionRef}
    (huser : user ∈ s.srv.users) (hparty : s.srv.partyIds user ≠ 0) {msg : ChatMessage}
    (hcontent : msg.content ≠ []) :
    ∃ targets : List SessionRef,
      (s.srv.handlePartyMessage user msg).posted =
        s.srv.posted ++ targets.map (fun target => (target, msg)) ∧
      targets.Nodup ∧
      ∀ v, v ∈ targets ↔ v ∈ s.srv.users ∧ s.srv.partyIds v = s.srv.partyIds user := by
  obtain ⟨hadm, -, h⟩ := invariant_of_run (P := PartyRecords) (.start maxUser)
    (fun _ _ _ hadm hid h hok heffect => records_step hadm hid h hok heffect) hrun
  obtain ⟨party, hfound⟩ := h.exists_party huser hparty
  -- the list has the account of a user once if the user is in the party, and else not
  have hcount : ∀ v ∈ s.srv.users, (party.members.filterMap s.srv.getUserById).count v =
      if s.srv.partyIds v = s.srv.partyIds user then 1 else 0 := by
    intro v hv
    rw [targets_count (fun u hu v hv => hadm.distinct hu hv) _ hv, ← roster_of_lookup hfound]
    exact h.consistent.count v hv _ hparty
  have husers : ∀ v ∈ party.members.filterMap s.srv.getUserById, v ∈ s.srv.users := by
    intro v hv
    obtain ⟨id, -, hid⟩ := List.mem_filterMap.mp hv
    exact List.mem_of_find?_eq_some hid
  refine ⟨party.members.filterMap s.srv.getUserById, ?_, ?_, fun v => ⟨fun hv => ?_, fun hv => ?_⟩⟩
  · have hfind : s.srv.partyManager.findPartyById (s.srv.sessions user).partyId = some party :=
      hfound
    rw [TcpServer.handlePartyMessage, if_neg hcontent, hfind]
    rfl
  · refine List.nodup_iff_count_le_one.mpr fun v => ?_
    by_cases hv : v ∈ party.members.filterMap s.srv.getUserById
    · rw [hcount v (husers v hv)]
      split <;> decide
    · rw [List.count_eq_zero.mpr hv]
      decide
  · have hpos := List.count_pos_iff.mpr hv
    rw [hcount v (husers v hv)] at hpos
    refine ⟨husers v hv, ?_⟩
    by_contra hne
    rw [if_neg hne] at hpos
    exact Nat.lt_irrefl _ hpos
  · refine List.count_pos_iff.mp ?_
    rw [hcount v hv.1, if_pos hv.2]
    decide

/-- What `ann` says to the party then goes to both users, once to each. -/
theorem party_delivery_partyOfTwo :
    ∃ (s : Sys) (targets : List SessionRef), s.srv.users = [0, 1] ∧
      (s.srv.handlePartyMessage 0 (partyRequest .partyMessage)).posted =
        s.srv.posted ++ targets.map (fun target => (target, partyRequest .partyMessage)) ∧
      targets.Nodup ∧
      ∀ v, v ∈ targets ↔ v ∈ s.srv.users ∧ s.srv.partyIds v = s.srv.partyIds 0 := by
  obtain ⟨s, hrun, hs⟩ := exists_run_of_exec (step parseParty) PartiesKept (Sys.start 5) partyOfTwo
    (fun s => decide (s.srv.users = [0, 1] ∧ s.srv.partyIds 0 ≠ 0)) (by decide)
  obtain ⟨husers, hparty⟩ := of_decide_eq_true hs
  obtain ⟨targets, hdelivered⟩ :=
    party_delivery hrun (by simp [husers]) hparty
      (show (partyRequest .partyMessage).content ≠ [] by decide)
  exact ⟨s, targets, husers, hdelivered⟩

/-- After that `bob` logs in again on another connection. -/
def bobReturns : List Action :=
  partyOfTwo ++ [.accept, .receive 2 (login "b").serialize, .sweep, .examine annAndBob]

/-- His new session is in no party, and what `ann` says to the party is sent to it. -/
theorem bobReturns_overhears :
    ∃ s : Sys, Run (step parseParty) anyStep (Sys.start 5) bobReturns s ∧
      s.srv.users = [0, 2] ∧ s.srv.partyIds 0 ≠ 0 ∧ s.srv.partyIds 2 = 0 ∧
      (s.srv.handlePartyMessage 0 (partyRequest .partyMessage)).posted =
        s.srv.posted ++ [(0, partyRequest .partyMessage), (2, partyRequest .partyMessage)] := by
  obtain ⟨s, hrun, hs⟩ := exists_run_of_exec (step parseParty) anyStep (Sys.start 5) bobReturns
    (fun s => decide (s.srv.users = [0, 2] ∧ s.srv.partyIds 0 ≠ 0 ∧ s.srv.partyIds 2 = 0 ∧
      (s.srv.handlePartyMessage 0 (partyRequest .partyMessage)).posted =
        s.srv.posted ++ [(0, partyRequest .partyMessage), (2, partyRequest .partyMessage)]))
    (by decide)
  exact ⟨s, hrun, of_decide_eq_true hs⟩

end BoostChat.Server
