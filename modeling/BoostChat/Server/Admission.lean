import BoostChat.Server.System
import Mathlib.Data.List.Nodup

/-!
# The admission invariant

What every run keeps of the two containers of sessions:

* `Admission` — the invariant. Its last field says that the user of an account is
  the session admitted last for it, so two users never share an account;
* `admission_step` — every effect keeps it. All effects but two only shrink the list
  of users and leave the users' ids alone (`Admission.frame`); the two are `accept`
  and an admission;
* `users_admission` — the invariant after any run.
-/

namespace BoostChat.Server

open Lib

/-- The session that was admitted last for an account. -/
def Sys.lastAdmitted (s : Sys) (id : UInt32) : Option SessionRef :=
  (s.admitted.find? fun login => login.id == id).map (·.session)

structure Admission (s : Sys) : Prop where
  room : s.srv.users.length ≤ s.srv.maxUser.toNat
  nodup : (s.srv.users ++ s.srv.newUsers).Nodup
  known : ∀ u ∈ s.srv.users ++ s.srv.newUsers, u < s.srv.nextSession
  closed : ∀ u < s.srv.nextSession, u ∉ s.srv.users ++ s.srv.newUsers →
    s.srv.isConnected u = false
  latest : ∀ u ∈ s.srv.users, s.lastAdmitted (s.srv.sessions u).id = some u

variable {parse : Bytes → Option ChatMessage} {s t : Sys} {a : Action}

theorem Admission.start (maxUser : UInt32) : Admission (Sys.start maxUser) where
  room := Nat.zero_le _
  nodup := List.nodup_nil
  known _ h := by simp [Sys.start] at h
  closed _ h := absurd h (Nat.not_lt_zero _)
  latest _ h := by simp [Sys.start] at h

/-- No two users have the same account. -/
theorem Admission.distinct (h : Admission s) {u v : SessionRef} (hu : u ∈ s.srv.users)
    (hv : v ∈ s.srv.users) (hid : (s.srv.sessions u).id = (s.srv.sessions v).id) : u = v := by
  have hlast := h.latest u hu
  rw [hid, h.latest v hv] at hlast
  exact (Option.some.inj hlast).symm

/-- A session that waits is not a user. -/
theorem Admission.not_user (h : Admission s) {u : SessionRef} (hu : u ∈ s.srv.newUsers) :
    u ∉ s.srv.users := fun hmem => (List.nodup_append.mp h.nodup).2.2 u hmem u hu rfl

/-- **Frame rule.** The invariant survives every change that only removes users,
closes those it removes, connects nobody and leaves the ids of users alone. -/
theorem Admission.frame (h : Admission s) (hmax : t.srv.maxUser = s.srv.maxUser)
    (hnext : t.srv.nextSession = s.srv.nextSession) (hadmitted : t.admitted = s.admitted)
    (husers : t.srv.users.Sublist s.srv.users) (hnew : t.srv.newUsers.Perm s.srv.newUsers)
    (hid : ∀ u ∈ s.srv.users, (t.srv.sessions u).id = (s.srv.sessions u).id)
    (hconnected : ∀ u, s.srv.isConnected u = false → t.srv.isConnected u = false)
    (hremoved : ∀ u ∈ s.srv.users, u ∉ t.srv.users → t.srv.isConnected u = false) :
    Admission t where
  room := by
    rw [hmax]
    exact husers.length_le.trans h.room
  nodup := by
    rw [(hnew.append_left _).nodup_iff]
    exact h.nodup.sublist (husers.append_right _)
  known u hu := by
    rw [hnext]
    refine h.known u (List.mem_append.mpr ?_)
    exact (List.mem_append.mp hu).imp (fun hu => husers.subset hu) hnew.mem_iff.mp
  -- a session outside both containers was outside before, or has just been removed
  closed u hlt hout := by
    rw [List.mem_append, not_or, hnew.mem_iff] at hout
    by_cases hu : u ∈ s.srv.users
    · exact hremoved u hu hout.1
    · refine hconnected u (h.closed u (hnext ▸ hlt) ?_)
      rw [List.mem_append, not_or]
      exact ⟨hu, hout.2⟩
  latest u hu := by
    have hmem := husers.subset hu
    rw [Sys.lastAdmitted, hadmitted, hid u hmem]
    exact h.latest u hmem

/-- One session changes, keeps its id and does not connect again. -/
theorem Admission.setSession (h : Admission s) {user : SessionRef} {session : UserSession}
    (hsrv : t.srv = s.srv.setSession user session) (hadmitted : t.admitted = s.admitted)
    (hid : session.id = (s.srv.sessions user).id)
    (hclosed : s.srv.isConnected user = false → session.isConnected = false) : Admission t := by
  refine h.frame ?_ ?_ hadmitted ?_ ?_ ?_ ?_ ?_ <;> rw [hsrv]
  · rfl
  · rfl
  · exact List.Sublist.refl _
  · exact List.Perm.refl _
  · exact fun u _ => TcpServer.setSession_congr (·.id) hid u
  · intro u hu
    by_cases heq : u = user
    · subst heq
      rw [TcpServer.isConnected, TcpServer.setSession_sessions_self]
      exact hclosed hu
    · rwa [TcpServer.isConnected, TcpServer.setSession_sessions_of_ne _ _ heq]
  · exact fun u hu hout => absurd hu hout

/-- Nobody but the admitted session has its account among the users that stay. -/
theorem Admission.remaining_id (h : Admission s) {user v : SessionRef} {rest : List SessionRef}
    {session : UserSession} (hnot : user ∉ s.srv.users)
    (hv : v ∈ (s.srv.taken user rest session).remaining user) :
    (s.srv.sessions v).id ≠ session.id := by
  have hmem : v ∈ s.srv.users :=
    ((s.srv.taken user rest session).remaining_sublist user).subset hv
  have hsession : ∀ u ∈ s.srv.users,
      ((s.srv.taken user rest session).sessions u) = s.srv.sessions u := fun u hu =>
    TcpServer.setSession_sessions_of_ne _ _ (ne_of_mem_of_not_mem hu hnot)
  unfold TcpServer.remaining at hv
  split at hv
  · rename_i old hev
    obtain ⟨hold, hid⟩ := TcpServer.evicted_mem hev
    rw [hsession old hold, TcpServer.taken_sessions_self] at hid
    rw [← hid]
    -- the evicted session is the only one with this id, and it is gone
    intro heq
    have hnodup := (List.nodup_append.mp h.nodup).1
    exact (hnodup.mem_erase_iff.mp hv).1 (h.distinct hmem hold heq)
  · rename_i hev
    have hne := TcpServer.evicted_eq_none hev hv
    rwa [hsession v hmem, TcpServer.taken_sessions_self] at hne

/-- An admission keeps the invariant. -/
theorem Admission.admitUser (h : Admission s) {user : SessionRef} {rest : List SessionRef}
    {session : UserSession} (hroom : s.srv.users.length < s.srv.maxUser.toNat)
    (hnew : s.srv.newUsers = user :: rest) :
    Admission { s with
      srv := (s.srv.taken user rest session).admitUser user
      admitted := ⟨user, session.id, session.userEntity⟩ :: s.admitted } := by
  have hnot : user ∉ s.srv.users := h.not_user (by simp [hnew])
  have hsub := (s.srv.taken user rest session).remaining_sublist user
  have hnodup := h.nodup
  rw [hnew] at hnodup
  refine ⟨?_, ?_, ?_, ?_, ?_⟩
  · -- at most one user more, and there was room for one
    rw [TcpServer.admitUser_users, TcpServer.admitUser_maxUser, List.length_append]
    exact (Nat.succ_le_succ hsub.length_le).trans hroom
  · -- the session moves from the head of the queue to the end of the users
    rw [TcpServer.admitUser_users, TcpServer.admitUser_newUsers, List.append_assoc]
    exact hnodup.sublist (hsub.append_right _)
  · intro u hu
    rw [TcpServer.admitUser_users, TcpServer.admitUser_newUsers, List.append_assoc] at hu
    rw [TcpServer.admitUser_nextSession]
    refine h.known u ?_
    rw [hnew]
    exact (hsub.append_right _).subset hu
  · intro u hlt hout
    rw [TcpServer.admitUser_nextSession] at hlt
    rw [TcpServer.admitUser_users, TcpServer.admitUser_newUsers, List.append_assoc, List.mem_append,
      List.singleton_append, List.mem_cons, not_or, not_or] at hout
    obtain ⟨hremaining, huser, hrest⟩ := hout
    rw [TcpServer.isConnected, TcpServer.taken_admitUser_sessions_of_ne _ _ _ huser]
    split
    · rfl
    · -- not evicted, so it was in neither container before
      rename_i hev
      refine h.closed u hlt ?_
      rw [hnew, List.mem_append, List.mem_cons]
      rintro (hu | hu | hu)
      · -- a user that is neither evicted nor among those that stay
        exact hremaining (TcpServer.mem_remaining hu hev)
      · exact huser hu
      · exact hrest hu
  · intro u hu
    rw [TcpServer.admitUser_users, List.mem_append, List.mem_singleton] at hu
    rcases hu with hu | rfl
    · -- a user that stays has another account, whose last admission is an older one
      have hmem : u ∈ s.srv.users := hsub.subset hu
      have hne : u ≠ user := ne_of_mem_of_not_mem hmem hnot
      have hid : (((s.srv.taken user rest session).admitUser user).sessions u).id =
          (s.srv.sessions u).id := by
        rw [TcpServer.taken_admitUser_sessions_of_ne _ _ _ hne]
        split <;> rfl
      have hother : (session.id == (s.srv.sessions u).id) = false := by
        rw [beq_eq_false_iff_ne]
        exact (h.remaining_id hnot hu).symm
      rw [Sys.lastAdmitted, hid, List.find?_cons_of_neg (by simp [hother])]
      exact h.latest u hmem
    · rw [Sys.lastAdmitted, TcpServer.taken_admitUser_sessions_self _ _ hnot,
        List.find?_cons_of_pos (by simp)]
      rfl

/-- An accepted connection joins the queue under a fresh reference. -/
theorem Admission.accept (h : Admission s) : Admission { s with srv := s.srv.onAccept } := by
  have hfresh : s.srv.nextSession ∉ s.srv.users ++ s.srv.newUsers := fun hmem =>
    absurd (h.known _ hmem) (Nat.lt_irrefl _)
  have hold : ∀ u < s.srv.nextSession,
      s.srv.onAccept.sessions u = s.srv.sessions u := fun u hu =>
    TcpServer.setSession_sessions_of_ne _ _ (Nat.ne_of_lt hu)
  refine ⟨h.room, ?_, ?_, ?_, ?_⟩
  · -- the new reference occurs in neither container
    have hperm : (s.srv.users ++ (s.srv.newUsers ++ [s.srv.nextSession])).Perm
        (s.srv.nextSession :: (s.srv.users ++ s.srv.newUsers)) := by
      rw [← List.append_assoc]
      exact List.perm_append_singleton _ _
    exact hperm.nodup_iff.mpr (List.nodup_cons.mpr ⟨hfresh, h.nodup⟩)
  · intro u hu
    simp only [TcpServer.onAccept, List.mem_append, List.mem_singleton,
      TcpServer.setSession_users] at hu ⊢
    rcases hu with hu | hu | rfl
    · exact Nat.lt_succ_of_lt (h.known u (List.mem_append_left _ hu))
    · exact Nat.lt_succ_of_lt (h.known u (List.mem_append_right _ hu))
    · exact Nat.lt_succ_self _
  · intro u hlt hout
    simp only [TcpServer.onAccept, List.mem_append, List.mem_singleton, not_or,
      TcpServer.setSession_users] at hlt hout
    have hu : u < s.srv.nextSession := lt_of_le_of_ne (Nat.lt_succ_iff.mp hlt) hout.2.2
    rw [TcpServer.isConnected, hold u hu]
    refine h.closed u hu ?_
    rw [List.mem_append, not_or]
    exact ⟨hout.1, hout.2.1⟩
  · intro u hu
    rw [hold u (h.known u (List.mem_append_left _ hu))]
    exact h.latest u hu

/-- **Step lemma.** Every effect keeps the invariant. -/
theorem admission_step (h : Admission s) (heffect : Effect parse s a t) : Admission t := by
  cases heffect with
  | accept => exact h.accept
  | @receive user body =>
    refine h.setSession rfl rfl ?_ fun hclosed => ?_
    · rw [UserSession.readBody_eq, UserSession.withQueues_id]
    · rw [UserSession.readBody_eq]
      exact hclosed
  | disconnect => exact h.setSession rfl rfl (UserSession.close_id _) fun _ => rfl
  | sweep =>
    refine h.frame rfl rfl rfl List.filter_sublist (List.Perm.refl _) ?_
      (fun u => TcpServer.removeDisconnected_closed) ?_
    · intro u _
      rcases s.srv.removeDisconnected_sessions u with heq | heq <;> rw [heq]
      rw [UserSession.close_id]
    · intro u hu hout
      refine TcpServer.removeDisconnected_closed ?_
      simp only [TcpServer.removeDisconnected, List.mem_filter, not_and, Bool.not_eq_true] at hout
      exact hout hu
  | @rejected env user rest session _ _ hnew _ hactive =>
    -- `VerifyUser` may have changed the id of the session, but it is no user
    have hnot : user ∉ s.srv.users := h.not_user (by simp [hnew])
    refine h.frame rfl rfl rfl (List.Sublist.refl _) ?_ ?_ ?_ ?_
    · rw [hnew]
      exact List.perm_append_singleton _ _
    · intro u hu
      rw [TcpServer.requeue_sessions_of_ne _ _ _ (ne_of_mem_of_not_mem hu hnot)]
    · exact fun u hclosed => (TcpServer.setSession_congr (·.isActive) hactive u).trans hclosed
    · exact fun u hu hout => absurd hu hout
  | admitted _ hroom hnew => exact h.admitUser hroom hnew
  | visit => exact ⟨h.room, h.nodup, h.known, h.closed, h.latest⟩
  | @dispatch o user msg input output srv _ _ hmessage =>
    have hframe := TcpServer.onMessage_frame hmessage
    have hsession : ∀ u, (srv.sessions u).id = (s.srv.sessions u).id ∧
        srv.isConnected u = s.srv.isConnected u := by
      intro u
      rw [TcpServer.isConnected, hframe.session u]
      exact ⟨TcpServer.setSession_congr (·.id) (UserSession.withQueues_id _ input output) u,
        TcpServer.setSession_congr (·.isActive) (UserSession.withQueues_isActive _ input output) u⟩
    refine h.frame hframe.maxUser hframe.nextSession rfl hframe.users_sublist
      (hframe.newUsers ▸ List.Perm.refl _) (fun u _ => (hsession u).1)
      (fun u hclosed => (hsession u).2.trans hclosed) fun u hu hout => ?_
    rcases hframe.users with husers | husers
    · exact absurd hu (husers ▸ hout)
    · rw [husers, List.mem_filter, not_and, Bool.not_eq_true] at hout
      rw [← hframe.isConnected] at hout
      exact hout hu
  | finish => exact ⟨h.room, h.nodup, h.known, h.closed, h.latest⟩

/-- The invariant after every run. -/
theorem admission_of_run {maxUser : UInt32} {as : List Action}
    (hrun : Run (step parse) anyStep (Sys.start maxUser) as s) : Admission s :=
  hrun.invariant (fun _ _ _ h _ hstep => admission_step h (step_effect hstep)) (.start maxUser)

/-- **Admission.** After any run there are at most `m_MaxUser` users, no two of them
share an account, no session object occurs twice in the two containers, a session that
is in neither is closed, and the user of an account is the one admitted last. -/
theorem users_admission {maxUser : UInt32} {as : List Action}
    (hrun : Run (step parse) anyStep (Sys.start maxUser) as s) :
    s.srv.users.length ≤ s.srv.maxUser.toNat ∧
      (∀ u ∈ s.srv.users, ∀ v ∈ s.srv.users,
        (s.srv.sessions u).id = (s.srv.sessions v).id → u = v) ∧
      (s.srv.users ++ s.srv.newUsers).Nodup ∧
      (∀ u < s.srv.nextSession, u ∉ s.srv.users ++ s.srv.newUsers →
        s.srv.isConnected u = false) ∧
      ∀ u ∈ s.srv.users, s.lastAdmitted (s.srv.sessions u).id = some u := by
  have h := admission_of_run hrun
  exact ⟨h.room, fun u hu v hv => h.distinct hu hv, h.nodup, h.closed, h.latest⟩

/-- Two sessions log in to the account of `ann` one after the other. -/
def annTwice : List Action :=
  [.accept, .accept, .receive 0 (login "a").serialize, .receive 1 (login "a").serialize,
    .sweep, .examine annAndBob, .examine annAndBob]

/-- The first of them has left and is closed; the second is the user of the account. -/
theorem users_admission_annTwice : ∃ s : Sys,
    s.srv.users = [1] ∧ s.srv.nextSession = 2 ∧ s.srv.isConnected 0 = false ∧
      s.lastAdmitted (s.srv.sessions 1).id = some 1 := by
  obtain ⟨s, hrun, hs⟩ := exists_run_of_exec (step (parseSerialized [login "a"])) anyStep
    (Sys.start 5) annTwice
    (fun s => decide (s.srv.users = [1] ∧ s.srv.newUsers = [] ∧ s.srv.nextSession = 2)) (by decide)
  obtain ⟨husers, hnew, hnext⟩ := of_decide_eq_true hs
  obtain ⟨-, -, -, hclosed, hlatest⟩ := users_admission hrun
  exact ⟨s, husers, hnext, hclosed 0 (by rw [hnext]; decide) (by simp [husers, hnew]),
    hlatest 1 (by simp [husers])⟩

end BoostChat.Server
