import BoostChat.Server.Admission

/-!
# Who a session is

What the runs of the server do to the identity of a session object:

* `step_session` — what one effect does to one session. Its id, flag and entity are
  written only while it waits, and its queue only loses messages from the front or
  gains one that is stamped with the entity of that moment;
* `Identified` — the invariant: whoever is or has been a user was admitted once, and
  still has the identity of that admission; whoever waits has the empty entity.
-/

namespace BoostChat.Server

open Lib

variable {parse : Bytes → Option ChatMessage} {s t : Sys} {a : Action}

/-- A message pushed for a session: stamped with the user id that the session has,
and otherwise as the client sent it. -/
def Stamped (s t : Sys) (v : SessionRef) (msg : ChatMessage) : Prop :=
  msg.sender = (s.srv.sessions v).userEntity.userId ∧
    ∃ sent, (v, sent) ∈ t.received ∧ msg = { sent with sender := msg.sender }

/-- What a step does to the session object `v`. -/
inductive SessionEffect (s : Sys) (a : Action) (t : Sys) (v : SessionRef) : Prop
  | kept (hid : (t.srv.sessions v).id = (s.srv.sessions v).id)
      (hentity : (t.srv.sessions v).userEntity = (s.srv.sessions v).userEntity)
      (hverified : (t.srv.sessions v).verified = (s.srv.sessions v).verified)
      (hpending : ∀ m ∈ (t.srv.sessions v).pending,
        m ∈ (s.srv.sessions v).pending ∨ Stamped s t v m)
  | fresh (hv : v = s.srv.nextSession) (hsession : t.srv.sessions v = {})
  | rejected (hv : v ∈ s.srv.newUsers)
      (hentity : (t.srv.sessions v).userEntity = (s.srv.sessions v).userEntity)
      (hpending : (t.srv.sessions v).pending = (s.srv.sessions v).pending.tail)
  | admitted {env : Env} {login : Login} (ha : a = .examine env)
      (hlogin : s.srv.nextLogin env = some login) (hadmitted : t.admitted = login :: s.admitted)
      (hv : v = login.session)
      (hid : (t.srv.sessions v).id = login.id)
      (hentity : (t.srv.sessions v).userEntity = login.userEntity)
      (hverified : (t.srv.sessions v).verified = true)
      (hpending : (t.srv.sessions v).pending = (s.srv.sessions v).pending.tail)

/-- A session whose object is as it was. -/
theorem SessionEffect.of_eq {v : SessionRef} (h : t.srv.sessions v = s.srv.sessions v) :
    SessionEffect s a t v :=
  .kept (by rw [h]) (by rw [h]) (by rw [h]) fun m hm => Or.inl (h ▸ hm)

/-- A session that is as it was, but may have been closed. -/
theorem SessionEffect.of_close {v : SessionRef} (h : t.srv.sessions v = (s.srv.sessions v).close) :
    SessionEffect s a t v :=
  .kept (by rw [h, UserSession.close_id]) (by rw [h, UserSession.close_userEntity])
    (by rw [h, UserSession.close_verified]) fun m hm => Or.inl (by
      rwa [h, UserSession.close_pending] at hm)

/-- **Step lemma for one session.** -/
theorem step_session (h : Admission s) (heffect : Effect parse s a t) (v : SessionRef) :
    SessionEffect s a t v := by
  cases heffect with
  | accept =>
    by_cases hv : v = s.srv.nextSession
    · refine .fresh hv ?_
      subst hv
      exact TcpServer.setSession_sessions_self _ _ _
    · exact .of_eq (TcpServer.setSession_sessions_of_ne _ _ hv)
  | @receive user body =>
    by_cases hv : v = user
    · subst hv
      have hsession := (TcpServer.setSession_sessions_self s.srv v
        ((s.srv.sessions v).readBody parse body)).trans (UserSession.readBody_eq ..)
      refine .kept (by rw [hsession]; rfl) (by rw [hsession]; rfl) (by rw [hsession]; rfl)
        fun m hm => ?_
      rw [hsession, UserSession.withQueues_pending, ← List.append_assoc, List.mem_append,
        List.mem_map] at hm
      rcases hm with hm | ⟨sent, hsent, rfl⟩
      · exact Or.inl hm
      · exact Or.inr ⟨rfl, sent, List.mem_append_left _ (List.mem_map_of_mem hsent), rfl⟩
    · exact .of_eq (TcpServer.setSession_sessions_of_ne _ _ hv)
  | @disconnect user =>
    by_cases hv : v = user
    · subst hv
      exact .of_close (TcpServer.setSession_sessions_self _ _ _)
    · exact .of_eq (TcpServer.setSession_sessions_of_ne _ _ hv)
  | sweep =>
    rcases s.srv.removeDisconnected_sessions v with heq | heq
    · exact .of_eq heq
    · exact .of_close heq
  | @rejected env user rest session _ _ hnew _ _ _ hentity hpending =>
    by_cases hv : v = user
    · subst hv
      have hsession := s.srv.requeue_sessions_self v rest session
      exact .rejected (by simp [hnew]) (by rw [hsession, hentity]) (by rw [hsession, hpending])
    · exact .of_eq (TcpServer.requeue_sessions_of_ne _ _ _ hv)
  | @admitted env user rest session _ _ hnew hlogin hverified _ _ hpending =>
    by_cases hv : v = user
    · subst hv
      have hsession := TcpServer.taken_admitUser_sessions_self rest session
        (h.not_user (u := v) (by simp [hnew]))
      have hnext : s.srv.nextLogin env = some ⟨v, session.id, session.userEntity⟩ := by
        simp [TcpServer.nextLogin, hnew, hlogin]
      exact .admitted rfl hnext rfl rfl (by rw [hsession]) (by rw [hsession])
        (by rw [hsession, hverified]) (by rw [hsession, hpending])
    · have hsession := s.srv.taken_admitUser_sessions_of_ne rest session hv
      split at hsession
      · exact .of_close hsession
      · exact .of_eq hsession
  | visit => exact .of_eq rfl
  | @dispatch o user msg input output srv _ hpending hmessage =>
    -- the queue of the served session loses its head, and the handler sets party ids only
    have hframe := (TcpServer.onMessage_frame hmessage).session v
    refine .kept ?_ ?_ ?_ fun m hm => Or.inl ?_
    · rw [hframe]
      exact TcpServer.setSession_congr (·.id) (UserSession.withQueues_id _ input output) v
    · rw [hframe]
      exact TcpServer.setSession_congr (·.userEntity)
        (UserSession.withQueues_userEntity _ input output) v
    · rw [hframe]
      exact TcpServer.setSession_congr (·.verified)
        (UserSession.withQueues_verified _ input output) v
    · rw [hframe] at hm
      by_cases hv : v = user
      · subst hv
        rw [TcpServer.setSession_sessions_self] at hm
        rw [hpending]
        exact List.mem_cons_of_mem _ hm
      · rw [TcpServer.setSession_sessions_of_ne _ _ hv] at hm
        exact hm
  | finish => exact .of_eq rfl

/-! ## The containers -/

/-- The containers and the admissions after a step: nobody becomes a user without an
admission, and nobody who was admitted waits again. -/
theorem step_containers (h : Admission s) (heffect : Effect parse s a t) :
    (t.admitted = s.admitted ∧ t.srv.users.Sublist s.srv.users ∧
      s.srv.nextSession ≤ t.srv.nextSession ∧
      ∀ u ∈ t.srv.newUsers, u ∈ s.srv.newUsers ∨ u = s.srv.nextSession) ∨
    ∃ env l, a = .examine env ∧ s.srv.nextLogin env = some l ∧
      t.admitted = l :: s.admitted ∧ s.srv.newUsers = l.session :: t.srv.newUsers ∧
      t.srv.nextSession = s.srv.nextSession ∧
      (∀ u ∈ t.srv.users, u ∈ s.srv.users ∨ u = l.session) ∧
      (t.srv.sessions l.session).id = l.id ∧
      (t.srv.sessions l.session).userEntity = l.userEntity ∧
      (t.srv.sessions l.session).verified = true := by
  cases heffect with
  | accept =>
    refine Or.inl ⟨rfl, List.Sublist.refl _, Nat.le_succ _, fun u hu => ?_⟩
    simpa [TcpServer.onAccept] using hu
  | receive | disconnect | visit | finish =>
    exact Or.inl ⟨rfl, List.Sublist.refl _, Nat.le_refl _, fun u hu => Or.inl hu⟩
  | sweep => exact Or.inl ⟨rfl, List.filter_sublist, Nat.le_refl _, fun u hu => Or.inl hu⟩
  | @rejected env user rest session _ _ hnew =>
    refine Or.inl ⟨rfl, List.Sublist.refl _, Nat.le_refl _, fun u hu => Or.inl ?_⟩
    -- the session is put back at the other end of the queue
    rw [hnew, ← (List.perm_append_singleton user rest).mem_iff]
    exact hu
  | @admitted env user rest session _ _ hnew hlogin hverified =>
    have hsession := TcpServer.taken_admitUser_sessions_self rest session
      (h.not_user (u := user) (by simp [hnew]))
    refine Or.inr ⟨env, ⟨user, session.id, session.userEntity⟩, rfl, ?_, rfl, ?_, ?_,
      fun u hu => ?_, by rw [hsession], by rw [hsession], by rw [hsession, hverified]⟩
    · simp [TcpServer.nextLogin, hnew, hlogin]
    · rw [TcpServer.admitUser_newUsers, hnew, TcpServer.taken_newUsers]
    · rw [TcpServer.admitUser_nextSession]
      rfl
    · rw [TcpServer.admitUser_users, List.mem_append, List.mem_singleton] at hu
      exact hu.imp_left fun hu => ((s.srv.taken user rest session).remaining_sublist user).subset hu
  | dispatch _ _ hmessage =>
    have hframe := TcpServer.onMessage_frame hmessage
    refine Or.inl ⟨rfl, ?_, Nat.le_of_eq hframe.nextSession.symm, fun u hu => Or.inl ?_⟩
    · exact hframe.users_sublist
    · rw [hframe.newUsers] at hu
      exact hu

/-- Admissions are never forgotten. -/
theorem step_admitted_subset (hadm : Admission s) (heffect : Effect parse s a t) {l : Login}
    (hl : l ∈ s.admitted) : l ∈ t.admitted := by
  rcases step_containers hadm heffect with ⟨hadmitted, -⟩ | ⟨-, l', -, -, hadmitted, -⟩ <;>
    rw [hadmitted]
  · exact hl
  · exact List.mem_cons_of_mem _ hl

/-- The user that `Update` is with was a user when it was visited. -/
theorem step_current (heffect : Effect parse s a t) {u : SessionRef} (h : t.current = some u) :
    s.current = some u ∨ u ∈ s.srv.users := by
  cases heffect with
  | visit _ huser => exact Or.inr (Option.some.inj h ▸ huser)
  | finish => cases h
  | _ => exact Or.inl h

/-! ## The identity of users -/

structure Identified (s : Sys) : Prop where
  once : (s.admitted.map (·.session)).Nodup
  known : ∀ l ∈ s.admitted, l.session < s.srv.nextSession ∧ l.session ∉ s.srv.newUsers
  identity : ∀ l ∈ s.admitted, (s.srv.sessions l.session).id = l.id ∧
    (s.srv.sessions l.session).userEntity = l.userEntity ∧
    (s.srv.sessions l.session).verified = true
  empty : ∀ u, (∀ l ∈ s.admitted, l.session ≠ u) → (s.srv.sessions u).userEntity = {}
  users : ∀ u ∈ s.srv.users, ∃ l ∈ s.admitted, l.session = u
  serving : ∀ u, s.current = some u → ∃ l ∈ s.admitted, l.session = u

theorem Identified.start (maxUser : UInt32) : Identified (Sys.start maxUser) where
  once := List.nodup_nil
  known _ h := absurd h List.not_mem_nil
  identity _ h := absurd h List.not_mem_nil
  empty _ _ := rfl
  users _ h := absurd h List.not_mem_nil
  serving _ h := by cases h

/-- Whoever was admitted keeps the identity. -/
theorem Identified.kept (h : Identified s) (hadm : Admission s) (heffect : Effect parse s a t)
    {l : Login} (hl : l ∈ s.admitted) :
    (t.srv.sessions l.session).id = l.id ∧ (t.srv.sessions l.session).userEntity = l.userEntity ∧
      (t.srv.sessions l.session).verified = true := by
  obtain ⟨hid, hentity, hverified⟩ := h.identity l hl
  obtain ⟨hlt, hout⟩ := h.known l hl
  cases step_session hadm heffect l.session with
  | kept hid' hentity' hverified' =>
    exact ⟨hid'.trans hid, hentity'.trans hentity, hverified'.trans hverified⟩
  -- the session exists already, and it does not wait
  | fresh hv => exact absurd hv (Nat.ne_of_lt hlt)
  | rejected hv => exact absurd hv hout
  | admitted _ hlogin _ hv =>
    obtain ⟨⟨rest, hnew⟩, -⟩ := TcpServer.nextLogin_eq_some hlogin
    exact absurd (by simp [hnew, hv]) hout

/-- Whoever was never admitted has the entity that the constructor made. -/
theorem Identified.still_empty (h : Identified s) (hadm : Admission s)
    (heffect : Effect parse s a t) {u : SessionRef}
    (hu : ∀ l ∈ t.admitted, l.session ≠ u) : (t.srv.sessions u).userEntity = {} := by
  have hold : ∀ l ∈ s.admitted, l.session ≠ u := fun l hl =>
    hu l (step_admitted_subset hadm heffect hl)
  cases step_session hadm heffect u with
  | kept _ hentity => exact hentity.trans (h.empty u hold)
  | fresh _ hfresh => rw [hfresh]
  | rejected _ hentity => exact hentity.trans (h.empty u hold)
  | @admitted env login _ _ hadmitted hv =>
    exact absurd hv.symm (hu login (by rw [hadmitted]; exact List.mem_cons_self))

/-- **Step lemma.** -/
theorem identified_step (hadm : Admission s) (h : Identified s) (heffect : Effect parse s a t) :
    Identified t := by
  have hkept := fun l hl => h.kept hadm heffect (l := l) hl
  have hempty := fun u hu => h.still_empty hadm heffect (u := u) hu
  have hcurrent := fun u => step_current heffect (u := u)
  rcases step_containers hadm heffect with
    ⟨hadmitted, husers, hnext, hnew⟩ |
    ⟨-, l, -, -, hadmitted, hnew, hnext, husers, hidentity⟩
  · -- nobody is admitted
    refine ⟨hadmitted ▸ h.once, ?_, fun l hl => hkept l (hadmitted ▸ hl), hempty, ?_, ?_⟩
    · intro l hl
      obtain ⟨hlt, hout⟩ := h.known l (hadmitted ▸ hl)
      refine ⟨Nat.lt_of_lt_of_le hlt hnext, fun hmem => ?_⟩
      exact (hnew l.session hmem).elim hout (Nat.ne_of_lt hlt)
    · intro u hu
      rw [hadmitted]
      exact h.users u (husers.subset hu)
    · intro u hu
      rw [hadmitted]
      exact (hcurrent u hu).elim (h.serving u) (h.users u)
  · -- the head of the queue is admitted, for the first time since it waited
    have hnodup := (List.nodup_append.mp hadm.nodup).2.1
    rw [hnew] at hnodup
    have hwaits : l.session ∈ s.srv.newUsers := by simp [hnew]
    have hmore : ∀ u, (∃ l' ∈ s.admitted, l'.session = u) → ∃ l' ∈ t.admitted, l'.session = u := by
      rintro u ⟨l', hl', rfl⟩
      exact ⟨l', step_admitted_subset hadm heffect hl', rfl⟩
    refine ⟨?_, ?_, ?_, hempty, ?_,
      fun u hu => hmore u ((hcurrent u hu).elim (h.serving u) (h.users u))⟩
    · rw [hadmitted, List.map_cons, List.nodup_cons]
      refine ⟨fun hmem => ?_, h.once⟩
      obtain ⟨l', hl', heq⟩ := List.mem_map.mp hmem
      exact (h.known l' hl').2 (heq ▸ hwaits)
    · intro l' hl'
      rw [hadmitted, List.mem_cons] at hl'
      rw [hnext]
      rcases hl' with rfl | hl'
      · exact ⟨hadm.known _ (List.mem_append_right _ hwaits), (List.nodup_cons.mp hnodup).1⟩
      · obtain ⟨hlt, hout⟩ := h.known l' hl'
        exact ⟨hlt, fun hmem => hout (by rw [hnew]; exact List.mem_cons_of_mem _ hmem)⟩
    · intro l' hl'
      rw [hadmitted, List.mem_cons] at hl'
      rcases hl' with rfl | hl'
      · exact hidentity
      · exact hkept l' hl'
    · intro u hu
      rcases husers u hu with hu | rfl
      · exact hmore u (h.users u hu)
      · exact ⟨l, by rw [hadmitted]; exact List.mem_cons_self, rfl⟩

section Runs

variable {ok : Sys → Action → Prop} {maxUser : UInt32} {as : List Action}

/-- **Run rule.** Both invariants hold after every run, and with them everything that the
permitted steps keep under them. -/
theorem invariant_of_run {P : Sys → Prop} (hstart : P (Sys.start maxUser))
    (hP : ∀ s a t, Admission s → Identified s → P s → ok s a → Effect parse s a t → P t)
    (hrun : Run (step parse) ok (Sys.start maxUser) as s) :
    Admission s ∧ Identified s ∧ P s := by
  refine hrun.invariant (I := fun s => Admission s ∧ Identified s ∧ P s) ?_
    ⟨.start maxUser, .start maxUser, hstart⟩
  rintro s a t ⟨hadm, hid, h⟩ hok hstep
  have heffect := step_effect hstep
  exact ⟨admission_step hadm heffect, identified_step hadm hid heffect,
    hP s a t hadm hid h hok heffect⟩

theorem identified_of_run (hrun : Run (step parse) ok (Sys.start maxUser) as s) :
    Admission s ∧ Identified s := by
  obtain ⟨hadm, hid, -⟩ :=
    invariant_of_run (P := fun _ => True) trivial (fun _ _ _ _ _ _ _ _ => trivial) hrun
  exact ⟨hadm, hid⟩

end Runs

end BoostChat.Server
