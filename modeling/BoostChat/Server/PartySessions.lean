import BoostChat.Server.Identity
import BoostChat.Server.Membership

/-!
# Sessions and their party ids

What the steps of the server do to the accounts and the party ids of the sessions, as far
as the invariants about parties need it.

* `step_partyIds`, `step_id`, `step_user` — a step that handles no message changes neither
  the account nor the party id of a user, and a new user is in no party;
* `PartySessions` — what holds of the sessions whatever the requests are: nobody is in a
  party before a login, and the account of the served session is no other user's.
-/

namespace BoostChat.Server

open Lib

variable {parse : Bytes → Option ChatMessage} {s t : Sys} {a : Action}

/-- Taking a message from a queue leaves the records alone. -/
theorem setSession_withQueues_partyIds (s : TcpServer) (user : SessionRef)
    (input output : List ChatMessage) :
    (s.setSession user ((s.sessions user).withQueues input output)).partyIds = s.partyIds ∧
      ∀ u, ((s.setSession user ((s.sessions user).withQueues input output)).sessions u).id =
        (s.sessions u).id :=
  ⟨funext fun u =>
      TcpServer.setSession_congr (·.partyId) (UserSession.withQueues_partyId _ input output) u,
    fun u => TcpServer.setSession_congr (·.id) (UserSession.withQueues_id _ input output) u⟩

/-- A step that is no dispatch leaves the parties alone, and every party id but that of a
new session. -/
theorem step_partyIds (heffect : Effect parse s a t) (hno : ∀ o, a ≠ .dispatch o) :
    t.srv.partyManager = s.srv.partyManager ∧
      ∀ v, t.srv.partyIds v = s.srv.partyIds v ∨
        (v = s.srv.nextSession ∧ t.srv.partyIds v = 0) := by
  cases heffect with
  | accept =>
    refine ⟨rfl, fun v => ?_⟩
    by_cases hv : v = s.srv.nextSession
    · subst hv
      refine Or.inr ⟨rfl, ?_⟩
      rw [TcpServer.partyIds, TcpServer.onAccept, TcpServer.setSession_sessions_self]
      rfl
    · refine Or.inl ?_
      rw [TcpServer.partyIds, TcpServer.onAccept, TcpServer.setSession_sessions_of_ne _ _ hv]
      rfl
  | receive =>
    refine ⟨rfl, fun v => Or.inl ?_⟩
    rw [UserSession.readBody_eq]
    exact congrFun (setSession_withQueues_partyIds ..).1 v
  | disconnect =>
    exact ⟨rfl, fun v => Or.inl (TcpServer.setSession_congr (·.partyId)
      (UserSession.close_partyId _) v)⟩
  | sweep =>
    refine ⟨rfl, fun v => Or.inl ?_⟩
    rw [TcpServer.partyIds, TcpServer.partyIds]
    rcases s.srv.removeDisconnected_sessions v with heq | heq <;> rw [heq]
    rw [UserSession.close_partyId]
  | @rejected env user rest session _ _ _ _ _ hparty =>
    exact ⟨rfl, fun v => Or.inl (TcpServer.setSession_congr (·.partyId) hparty v)⟩
  | @admitted env user rest session _ _ _ _ _ _ hparty =>
    refine ⟨TcpServer.admitUser_partyManager _ _, fun v => Or.inl ?_⟩
    rw [TcpServer.partyIds, TcpServer.partyIds, TcpServer.admitUser_sessions]
    have hsession : ((s.srv.taken user rest session).sessions v).partyId =
        (s.srv.sessions v).partyId := TcpServer.setSession_congr (·.partyId) hparty v
    split
    · rw [UserSession.close_partyId, hsession]
    · exact hsession
  | visit | finish => exact ⟨rfl, fun _ => Or.inl rfl⟩
  | dispatch => exact absurd rfl (hno _)

/-- A step changes the account of a waiting session only. -/
theorem step_id (hadm : Admission s) (heffect : Effect parse s a t) {u : SessionRef}
    (hu : u ∈ s.srv.users) : (t.srv.sessions u).id = (s.srv.sessions u).id := by
  cases step_session hadm heffect u with
  | kept hid => exact hid
  | fresh hv => exact absurd hv (Nat.ne_of_lt (hadm.known u (List.mem_append_left _ hu)))
  | rejected hv => exact absurd hu (hadm.not_user hv)
  | admitted _ hlogin _ hv =>
    obtain ⟨⟨rest, hnew⟩, -⟩ := TcpServer.nextLogin_eq_some hlogin
    exact absurd hu (hadm.not_user (by simp [hnew, hv]))

/-- Only the party ids of users and of the user being served change. -/
theorem dispatch_partyIds {o : Oracle} {srv srv' : TcpServer} {user : SessionRef}
    {msg : ChatMessage} (heffect : TcpServer.PartyEffect o srv user msg srv') {u : SessionRef}
    (hne : u ≠ user) (hu : u ∉ srv.users) : srv'.partyIds u = srv.partyIds u := by
  cases heffect with
  | same _ hids => rw [hids]
  | created _ _ _ _ hids | joined _ _ _ hids | left _ _ hids => rw [hids, Function.update_of_ne hne]
  | deleted _ hids =>
    rw [hids]
    exact if_neg fun hmem => hu hmem.1

structure PartySessions (s : Sys) : Prop where
  outside : ∀ u, (∀ l ∈ s.admitted, l.session ≠ u) → s.srv.partyIds u = 0
  /-- A session that stopped being a user while it is served shares its account with nobody. -/
  apart : ∀ u, s.current = some u → u ∉ s.srv.users →
    ∀ v ∈ s.srv.users, (s.srv.sessions v).id ≠ (s.srv.sessions u).id

theorem PartySessions.start (maxUser : UInt32) : PartySessions (Sys.start maxUser) where
  outside _ _ := rfl
  apart _ h := by cases h

/-- The account of the session being served is no other user's. -/
theorem PartySessions.alone (hadm : Admission s) (h : PartySessions s) {user : SessionRef}
    (hcurrent : s.current = some user) {u : SessionRef} (hu : u ∈ s.srv.users)
    (hid : (s.srv.sessions u).id = (s.srv.sessions user).id) : u = user := by
  by_cases huser : user ∈ s.srv.users
  · exact hadm.distinct hu huser hid
  · exact absurd hid (h.apart user hcurrent huser u hu)

/-- The users after a step that handles no message. -/
theorem step_user (hadm : Admission s) (hid : Identified s) (h : PartySessions s)
    (heffect : Effect parse s a t) (hno : ∀ o, a ≠ .dispatch o) {u : SessionRef}
    (hu : u ∈ t.srv.users) :
    (u ∈ s.srv.users ∧ (t.srv.sessions u).id = (s.srv.sessions u).id ∧
      t.srv.partyIds u = s.srv.partyIds u) ∨
    ∃ env l, a = .examine env ∧ s.srv.nextLogin env = some l ∧ u = l.session ∧
      (t.srv.sessions u).id = l.id ∧ t.srv.partyIds u = 0 := by
  obtain ⟨-, hids⟩ := step_partyIds heffect hno
  have hkept : u ∈ s.srv.users → (t.srv.sessions u).id = (s.srv.sessions u).id ∧
      t.srv.partyIds u = s.srv.partyIds u := fun hmem =>
    ⟨step_id hadm heffect hmem, (hids u).resolve_right fun hfresh =>
      Nat.ne_of_lt (hadm.known u (List.mem_append_left _ hmem)) hfresh.1⟩
  rcases step_containers hadm heffect with
    ⟨-, husers, -⟩ | ⟨env, l, ha, hlogin, -, hnew, -, husers, hlid, -⟩
  · exact Or.inl ⟨husers.subset hu, hkept (husers.subset hu)⟩
  · rcases husers u hu with hmem | rfl
    · exact Or.inl ⟨hmem, hkept hmem⟩
    · -- the newcomer waited, so it was never admitted before
      have hwaits : ∀ l' ∈ s.admitted, l'.session ≠ l.session := fun l' hl' heq =>
        (hid.known l' hl').2 (by simp [hnew, heq])
      refine Or.inr ⟨env, l, ha, hlogin, rfl, hlid, ?_⟩
      exact (hids l.session).elim (fun hsame => hsame.trans (h.outside _ hwaits)) (·.2)

/-- **Step lemma**, for a dispatch. -/
theorem partySessions_dispatch (hadm : Admission s) (hid : Identified s) (h : PartySessions s)
    {o : Oracle} (heffect : Effect parse s (.dispatch o) t) : PartySessions t := by
  have hids := fun u hu => step_id hadm heffect (u := u) hu
  have hforgotten := fun l hl => step_admitted_subset hadm heffect (l := l) hl
  cases heffect with
  | @dispatch _ user msg input output srv hcurrent hpending hmessage =>
    have hframe := TcpServer.onMessage_frame hmessage
    have husers : srv.users ⊆ s.srv.users := hframe.users_sublist.subset
    refine ⟨fun u hu => ?_, fun u hu hout v hv hsame => ?_⟩
    · -- the served session and all users were admitted, so `u` is none of them
      have hne : u ≠ user := by
        rintro rfl
        obtain ⟨l, hl, hsession⟩ := hid.serving u hcurrent
        exact hu l (hforgotten l hl) hsession
      have hnot : u ∉ s.srv.users := fun hmem => by
        obtain ⟨l, hl, hsession⟩ := hid.users u hmem
        exact hu l (hforgotten l hl) hsession
      rw [dispatch_partyIds (TcpServer.onMessage_party hmessage) hne hnot,
        (setSession_withQueues_partyIds s.srv user input output).1]
      exact h.outside u fun l hl => hu l (hforgotten l hl)
    · -- a user that has the account of the served session is the served session
      have hcur : u = user :=
        Option.some.inj ((show s.current = some u from hu).symm.trans hcurrent)
      subst hcur
      have hu' : (srv.sessions u).id = (s.srv.sessions u).id := by
        rw [hframe.session u]
        exact (setSession_withQueues_partyIds s.srv u input output).2 u
      rw [hids v (husers hv), hu'] at hsame
      exact hout (h.alone hadm hcurrent (husers hv) hsame ▸ hv)

/-- **Step lemma.** -/
theorem partySessions_step (hadm : Admission s) (hid : Identified s) (h : PartySessions s)
    (heffect : Effect parse s a t) : PartySessions t := by
  by_cases hdispatch : ∃ o, a = .dispatch o
  · obtain ⟨o, rfl⟩ := hdispatch
    exact partySessions_dispatch hadm hid h heffect
  have hno : ∀ o, a ≠ .dispatch o := fun o ho => hdispatch ⟨o, ho⟩
  have hids := fun u hu => step_id hadm heffect (u := u) hu
  have hkept : ∀ l ∈ s.admitted, (t.srv.sessions l.session).id = (s.srv.sessions l.session).id :=
    fun l hl => ((hid.kept hadm heffect hl).1).trans (hid.identity l hl).1.symm
  refine ⟨fun u hu => ?_, fun u hu hout v hv hsame => ?_⟩
  · rcases (step_partyIds heffect hno).2 u with hsame | hfresh
    · rw [hsame]
      exact h.outside u fun l hl => hu l (step_admitted_subset hadm heffect hl)
    · exact hfresh.2
  · cases heffect with
    | visit _ huser => exact hout (Option.some.inj hu ▸ huser)
    | sweep hidle | rejected hidle | admitted hidle =>
      -- `UpdateUsers` runs when no session is served
      rw [hidle] at hu
      cases hu
    | finish => cases hu
    | dispatch => exact hno _ rfl
    | accept | receive | disconnect =>
      obtain ⟨l, hl, rfl⟩ := hid.serving u hu
      rw [hids v hv, hkept l hl] at hsame
      exact h.apart l.session hu hout v hv hsame

theorem partySessions_of_run {ok : Sys → Action → Prop} {maxUser : UInt32} {as : List Action}
    (hrun : Run (step parse) ok (Sys.start maxUser) as s) : PartySessions s :=
  (invariant_of_run (P := PartySessions) (.start maxUser)
    (fun _ _ _ hadm hid h _ heffect => partySessions_step hadm hid h heffect) hrun).2.2

end BoostChat.Server
