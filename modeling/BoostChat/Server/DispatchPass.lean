import BoostChat.Server.System

/-!
# One pass over the users

`TcpServer::Update` goes through `m_Users` with a range-for, whose end is fixed when the
loop starts, and empties the queue of every connected session. The handler of a public
message erases the disconnected users from the same vector (`SendAllUsers`).

* `Pass` — the loop with its position and its fixed end; `Pass.step` interleaves it with
  the io thread. `pass_is_run` shows that a pass is a part of a run of the server.
* `Pass.Safe` — no message erases a user while the loop is before its last position.
* `pass_iff` — a pass that has ended never read past the end of the vector, and emptied
  every queue it should exactly once, if and only if all its steps were safe.
-/

namespace BoostChat.Server

open Lib

/-! ## What a message does to the users -/

/-- `SendAllUsers` runs for this message. -/
def ChatMessage.IsPublic (msg : ChatMessage) : Prop :=
  msg.messageType = .allMessage ∧ msg.content ≠ []

instance (msg : ChatMessage) : Decidable msg.IsPublic := inferInstanceAs (Decidable (_ ∧ _))

namespace TcpServer

variable {o : Oracle} {s s' : TcpServer} {user : SessionRef} {msg : ChatMessage}

/-- Only a public message changes the list of users. -/
theorem onMessage_users (h : s.onMessage o user msg = .ok s') :
    s'.users = if msg.IsPublic then s.users.filter s.isConnected else s.users := by
  cases onMessage_handled h with
  | sent hquiet =>
    rw [if_neg fun hpublic => hpublic.2 (hquiet hpublic.1)]
    rfl
  | relayed htype hcontent =>
    rw [if_pos ⟨htype, hcontent⟩]
    rfl
  | befriended hfriend =>
    have hprivate : ¬ msg.IsPublic := by
      rintro ⟨htype, -⟩
      rw [htype] at hfriend
      cases hfriend
    rw [if_neg hprivate]
    rfl
  | request hrequest houtcome =>
    have hprivate : ¬ msg.IsPublic := by
      rintro ⟨htype, -⟩
      rw [htype] at hrequest
      cases hrequest
    rw [if_neg hprivate]
    exact houtcome.users

end TcpServer

/-! ## The loop -/

structure Pass where
  srv : TcpServer
  /-- `__begin`, as an index. -/
  position : Nat := 0
  /-- `__end`, as it was when the loop started. -/
  bound : Nat
  /-- The copy `u`, while its queue is being emptied. -/
  current : Option SessionRef := none
  /-- The sessions whose `GetMessageInUserQueue` has returned null, in order. -/
  drained : List SessionRef := []
  /-- The loop has read a position that the vector no longer has. -/
  overrun : Bool := false

/-- The loop starts, after `UpdateUsers`. -/
def Pass.start (s : TcpServer) : Pass := { srv := s, bound := s.users.length }

inductive PassAction
  | accept
  | receive (user : SessionRef) (body : Bytes)
  | disconnect (user : SessionRef)
  /-- The loop compares its position with its end and reads the element there. -/
  | read
  | dispatch (o : Oracle)
  /-- `GetMessageInUserQueue` returns null, and the loop goes on. -/
  | finish

/-- The steps of the io thread. -/
def PassAction.IsIo : PassAction → Prop
  | .accept | .receive _ _ | .disconnect _ => True
  | .read | .dispatch _ | .finish => False

namespace Pass

def step (parse : Bytes → Option ChatMessage) (p : Pass) : PassAction → Option Pass
  | .accept => some { p with srv := p.srv.onAccept }
  | .receive user body =>
    if user < p.srv.nextSession then
      some { p with srv := p.srv.setSession user ((p.srv.sessions user).readBody parse body) }
    else none
  | .disconnect user =>
    if user < p.srv.nextSession then
      some { p with srv := p.srv.setSession user (p.srv.sessions user).close }
    else none
  | .read =>
    if p.overrun = false ∧ p.current = none ∧ p.position < p.bound then
      match p.srv.users[p.position]? with
      -- whatever follows is undefined
      | none => some { p with overrun := true }
      | some user =>
        if p.srv.isConnected user then some { p with current := some user }
        else some { p with position := p.position + 1 }
    else none
  | .dispatch o =>
    match p.current with
    | none => none
    | some user =>
      match (p.srv.sessions user).getMessageInUserQueue with
      | (_, none) => none
      | (session, some msg) =>
        match (p.srv.setSession user session).onMessage o user msg with
        -- nobody catches it
        | .error _ => none
        | .ok srv => some { p with srv }
  | .finish =>
    match p.current with
    | none => none
    | some user =>
      if (p.srv.sessions user).getMessageInUserQueue.2.isNone then
        some { p with
          position := p.position + 1
          current := none
          drained := p.drained ++ [user] }
      else none

/-- The pass is over: the loop has met its end, or read what is not there. -/
def Ended (p : Pass) : Prop := p.overrun = true ∨ (p.current = none ∧ p.bound ≤ p.position)

/-- The next message is public, and some user is not connected. -/
def Erases (p : Pass) : Prop :=
  ∃ user ∈ p.current, ∃ msg ∈ (p.srv.sessions user).pending.head?,
    msg.IsPublic ∧ ∃ v ∈ p.srv.users, p.srv.isConnected v = false

/-- Users are erased only at the last position of the loop. -/
def Safe (p : Pass) : PassAction → Prop
  | .dispatch _ => p.Erases → p.bound ≤ p.position + 1
  | _ => True

instance (p : Pass) : Decidable p.Erases :=
  inferInstanceAs (Decidable (∃ user ∈ p.current, ∃ msg ∈ (p.srv.sessions user).pending.head?,
    msg.IsPublic ∧ ∃ v ∈ p.srv.users, p.srv.isConnected v = false))

instance (p : Pass) (a : PassAction) : Decidable (p.Safe a) := by
  cases a <;> unfold Safe <;> infer_instance

/-! ## What each step does -/

variable {parse : Bytes → Option ChatMessage} {us : List SessionRef} {p p' : Pass}
  {a : PassAction}

/-- How many positions the loop has begun with. -/
def begun (p : Pass) : Nat := p.position + p.current.isSome.toNat

/-- What the io thread's steps do: nothing to the list, and nobody in it connects again. -/
structure IoFrame (p : Pass) (srv : TcpServer) : Prop where
  users : srv.users = p.srv.users
  nextSession : p.srv.nextSession ≤ srv.nextSession
  connected : ∀ u < p.srv.nextSession, srv.isConnected u = true → p.srv.isConnected u = true

/-- The effect of each action, one constructor for each outcome. -/
inductive Effect (p : Pass) : PassAction → Pass → Prop
  | io {a : PassAction} {srv : TcpServer} (ha : a.IsIo) (hframe : IoFrame p srv) :
    Effect p a { p with srv }
  | overrun (hrunning : p.overrun = false) (hidle : p.current = none)
    (hbound : p.position < p.bound) (hnone : p.srv.users.length ≤ p.position) :
    Effect p .read { p with overrun := true }
  | visit {user : SessionRef} (hidle : p.current = none) (hbound : p.position < p.bound)
    (huser : p.srv.users[p.position]? = some user) (hconnected : p.srv.isConnected user = true) :
    Effect p .read { p with current := some user }
  | skip {user : SessionRef} (hidle : p.current = none) (hbound : p.position < p.bound)
    (huser : p.srv.users[p.position]? = some user) (hconnected : p.srv.isConnected user = false) :
    Effect p .read { p with position := p.position + 1 }
  | dispatch {o : Oracle} {user : SessionRef} {msg : ChatMessage} {srv : TcpServer}
    (hcurrent : p.current = some user)
    (hpending : (p.srv.sessions user).pending.head? = some msg)
    (husers : srv.users =
      if msg.IsPublic then p.srv.users.filter p.srv.isConnected else p.srv.users)
    (hconnected : srv.isConnected = p.srv.isConnected)
    (hnext : srv.nextSession = p.srv.nextSession) : Effect p (.dispatch o) { p with srv }
  | finish {user : SessionRef} (hcurrent : p.current = some user) :
    Effect p .finish { p with
      position := p.position + 1, current := none, drained := p.drained ++ [user] }

/-- A change of one session object that does not connect it. -/
theorem ioFrame_setSession (p : Pass) {user : SessionRef} {session : UserSession}
    (h : session.isConnected = true → p.srv.isConnected user = true) :
    IoFrame p (p.srv.setSession user session) where
  users := rfl
  nextSession := Nat.le_refl _
  connected u _ hu := by
    by_cases heq : u = user
    · subst heq
      rw [TcpServer.isConnected, TcpServer.setSession_sessions_self] at hu
      exact h hu
    · rwa [TcpServer.isConnected, TcpServer.setSession_sessions_of_ne _ _ heq] at hu

/-- A new session object is none of those that exist. -/
theorem ioFrame_onAccept (p : Pass) : IoFrame p p.srv.onAccept where
  users := rfl
  nextSession := Nat.le_succ _
  connected u hlt hu := by
    have hsame : p.srv.onAccept.sessions u = p.srv.sessions u :=
      TcpServer.setSession_sessions_of_ne _ _ (Nat.ne_of_lt hlt)
    rwa [TcpServer.isConnected, hsame] at hu

/-- Taking a message connects nobody and leaves the list as it is. -/
theorem taken_isConnected (s : TcpServer) (user : SessionRef) (input output : List ChatMessage) :
    (s.setSession user ((s.sessions user).withQueues input output)).isConnected =
      s.isConnected := by
  have hactive : ((s.sessions user).withQueues input output).isActive =
      (s.sessions user).isActive := rfl
  exact funext fun u => TcpServer.setSession_congr (·.isActive) hactive u

/-- **Inversion.** -/
theorem step_effect (h : p.step parse a = some p') : Effect p a p' := by
  cases a with
  | accept => exact Option.some.inj h ▸ .io trivial (ioFrame_onAccept p)
  | receive user body =>
    obtain ⟨-, rfl⟩ := guarded_step h
    refine .io trivial (ioFrame_setSession p fun hconnected => ?_)
    rwa [UserSession.readBody_eq] at hconnected
  | disconnect user =>
    obtain ⟨-, rfl⟩ := guarded_step h
    exact .io trivial (ioFrame_setSession p fun hconnected => nomatch hconnected)
  | read =>
    -- the range-for reads its next position, or stands at the fixed end
    simp only [step] at h
    split at h
    · rename_i hguard
      obtain ⟨hrunning, hidle, hbound⟩ := hguard
      cases huser : p.srv.users[p.position]? with
      | none =>
        rw [huser] at h
        have hnone := List.getElem?_eq_none_iff.mp huser
        exact Option.some.inj h ▸ .overrun hrunning hidle hbound hnone
      | some user =>
        simp only [huser] at h
        split at h
        · rename_i hconnected
          exact Option.some.inj h ▸ .visit hidle hbound huser hconnected
        · rename_i hconnected
          exact Option.some.inj h ▸ .skip hidle hbound huser (Bool.not_eq_true _ ▸ hconnected)
    · cases h
  | dispatch o =>
    simp only [step] at h
    cases hcurrent : p.current with
    | none => simp [hcurrent] at h
    | some user =>
      simp only [hcurrent] at h
      rcases (p.srv.sessions user).getMessageInUserQueue_spec with
        ⟨-, hget⟩ | ⟨msg, rest, input, output, hpending, rfl, hget⟩
      · simp [hget] at h
      · simp only [hget] at h
        split at h
        · cases h
        · rename_i srv hmessage
          have husers := TcpServer.onMessage_users hmessage
          have hframe := TcpServer.onMessage_frame hmessage
          rw [taken_isConnected] at husers
          rw [← hcurrent] at h
          refine Option.some.inj h ▸ .dispatch hcurrent (by rw [hpending]; rfl) husers ?_
            hframe.nextSession
          rw [hframe.isConnected, taken_isConnected]
  | finish =>
    simp only [step] at h
    cases hcurrent : p.current with
    | none => simp [hcurrent] at h
    | some user =>
      simp only [hcurrent] at h
      obtain ⟨-, rfl⟩ := guarded_step h
      exact .finish hcurrent

/-! ## The two kinds of pass -/

/-- A pass over the users `us` whose steps were safe: the list has changed at the last
position at most, and what is drained is what has been passed. -/
structure Inv (us : List SessionRef) (p : Pass) : Prop where
  bound : p.bound = us.length
  begun_le : p.begun ≤ p.bound
  users : p.srv.users = us ∨ p.bound ≤ p.begun
  known : ∀ u ∈ us, u < p.srv.nextSession
  current : ∀ u, p.current = some u → us[p.position]? = some u
  drained : ∀ u ∈ us, p.srv.isConnected u = true →
    p.drained.count u = (us.take p.position).count u
  overrun : p.overrun = false

/-- A pass that will read past the end of the vector, or has done so. -/
def Doomed (p : Pass) : Prop :=
  p.srv.users.length < p.bound ∧ (p.overrun = true ∨ p.begun < p.bound)

theorem begun_idle (h : p.current = none) : p.begun = p.position := by
  rw [begun, h]
  rfl

theorem begun_busy {u : SessionRef} (h : p.current = some u) : p.begun = p.position + 1 := by
  rw [begun, h]
  rfl

theorem count_take_succ {l : List SessionRef} {i : Nat} {v : SessionRef} (h : l[i]? = some v)
    (u : SessionRef) : (l.take (i + 1)).count u = (l.take i).count u + [v].count u := by
  rw [List.take_add_one, h, Option.toList_some, List.count_append]

theorem inv_start {s : TcpServer} (hknown : ∀ u ∈ s.users, u < s.nextSession) :
    Inv s.users (Pass.start s) where
  bound := rfl
  begun_le := Nat.zero_le _
  users := Or.inl rfl
  known := hknown
  current := fun _ hu => nomatch hu
  drained := fun _ _ _ => rfl
  overrun := rfl

theorem safe_of_io (ha : a.IsIo) : p.Safe a := by
  cases a with
  | dispatch o => exact absurd ha id
  | accept | receive | disconnect | read | finish => trivial

/-- Between two sessions, before the last position, the list is whole. -/
theorem Inv.users_idle (h : Inv us p) (hidle : p.current = none) (hbound : p.position < p.bound) :
    p.srv.users = us := by
  have hus := h.users
  rw [begun_idle hidle, or_iff_left (Nat.not_le.mpr hbound)] at hus
  exact hus

/-- What a message that is handled safely leaves of the list. -/
theorem Inv.users_dispatched (h : Inv us p) {o : Oracle} {user : SessionRef} {msg : ChatMessage}
    (hsafe : p.Safe (.dispatch o)) (hcurrent : p.current = some user)
    (hpending : (p.srv.sessions user).pending.head? = some msg) :
    (if msg.IsPublic then p.srv.users.filter p.srv.isConnected else p.srv.users) = us ∨
      p.bound ≤ p.begun := by
  -- a message erases users when it is public and somebody is not connected
  rcases h.users with hus | hlast
  · by_cases herases : p.Erases
    · rw [begun_busy hcurrent]
      exact Or.inr (hsafe herases)
    · refine Or.inl ?_
      split
      · -- a public message, but everybody is connected
        rename_i hpublic
        rw [← hus, List.filter_eq_self]
        intro v hv
        by_contra hgone
        rw [Bool.not_eq_true] at hgone
        exact herases ⟨user, hcurrent, msg, hpending, hpublic, v, hv, hgone⟩
      · exact hus
  · exact Or.inr hlast

/-- The loop passes over a session that is not connected. -/
theorem Inv.skip (h : Inv us p) {user : SessionRef} (hidle : p.current = none)
    (hbound : p.position < p.bound) (huser : p.srv.users[p.position]? = some user)
    (hconnected : p.srv.isConnected user = false) :
    Inv us { p with position := p.position + 1 } := by
  have hus := h.users_idle hidle hbound
  rw [hus] at huser
  have hbegun : begun { p with position := p.position + 1 } = p.position + 1 := begun_idle hidle
  exact {
    bound := h.bound
    begun_le := by
      rw [hbegun]
      exact hbound
    users := Or.inl hus
    known := h.known
    current := fun u hu => absurd (hidle.symm.trans hu) (Option.some_ne_none u).symm
    drained := fun u hu hu' => by
      -- a connected session is not the one that is passed over
      have hne : user ≠ u := by
        rintro rfl
        exact absurd (hconnected.symm.trans hu') (by decide)
      show p.drained.count u = (us.take (p.position + 1)).count u
      rw [count_take_succ huser, List.count_singleton, beq_false_of_ne hne]
      exact h.drained u hu hu'
    overrun := h.overrun }

/-- The queue of the session at the position is empty. -/
theorem Inv.finish (h : Inv us p) {user : SessionRef} (hcurrent : p.current = some user) :
    Inv us { p with
      position := p.position + 1, current := none, drained := p.drained ++ [user] } := by
  have hle := h.begun_le
  have husers := h.users
  rw [begun_busy hcurrent] at hle husers
  exact {
    bound := h.bound
    begun_le := hle
    users := husers
    known := h.known
    current := fun u hu => absurd hu (Option.some_ne_none u).symm
    drained := fun u hu hu' => by
      show (p.drained ++ [user]).count u = (us.take (p.position + 1)).count u
      rw [count_take_succ (h.current user hcurrent), List.count_append, h.drained u hu hu']
    overrun := h.overrun }

/-- A safe step keeps the invariant. -/
theorem Inv.step (h : Inv us p) (hsafe : p.Safe a) (heffect : Effect p a p') : Inv us p' := by
  cases heffect with
  | io _ hframe =>
    exact {
      bound := h.bound
      begun_le := h.begun_le
      users := by
        rw [hframe.users]
        exact h.users
      known := fun u hu => Nat.lt_of_lt_of_le (h.known u hu) hframe.nextSession
      current := h.current
      drained := fun u hu hconnected =>
        h.drained u hu (hframe.connected u (h.known u hu) hconnected)
      overrun := h.overrun }
  | overrun _ hidle hbound hnone =>
    -- there is a session at every position of the whole list
    rw [h.users_idle hidle hbound, ← h.bound] at hnone
    exact absurd hnone (Nat.not_le.mpr hbound)
  | @visit user hidle hbound huser hconnected =>
    have hus := h.users_idle hidle hbound
    rw [hus] at huser
    exact {
      bound := h.bound
      begun_le := hbound
      users := Or.inl hus
      known := h.known
      current := fun u hu => (Option.some.inj hu) ▸ huser
      drained := h.drained
      overrun := h.overrun }
  | skip hidle hbound huser hconnected => exact h.skip hidle hbound huser hconnected
  | @dispatch o user msg srv hcurrent hpending husers hconnected hnext =>
    exact {
      bound := h.bound
      begun_le := h.begun_le
      users := by
        show srv.users = us ∨ p.bound ≤ p.begun
        rw [husers]
        exact h.users_dispatched hsafe hcurrent hpending
      known := fun u hu => by
        rw [hnext]
        exact h.known u hu
      current := h.current
      drained := fun u hu hu' => by
        rw [hconnected] at hu'
        exact h.drained u hu hu'
      overrun := h.overrun }
  | finish hcurrent => exact h.finish hcurrent

/-- A step that is not safe dooms the pass. -/
theorem Inv.doomed (h : Inv us p) (hlost : ¬ p.Safe a) (heffect : Effect p a p') :
    Doomed p' := by
  cases heffect with
  | @dispatch o user msg srv hcurrent hpending husers hconnected =>
    rw [Safe, Classical.not_imp, not_le] at hlost
    obtain ⟨⟨user', huser', msg', hmsg', hpublic, v, hv, hgone⟩, hbefore⟩ := hlost
    obtain rfl := Option.some.inj (hcurrent.symm.trans huser')
    obtain rfl := Option.some.inj (hpending.symm.trans hmsg')
    have hbegun := begun_busy hcurrent
    have hus : p.srv.users = us :=
      h.users.resolve_right (by rw [hbegun]; exact Nat.not_le.mpr hbefore)
    -- the vector has lost an element, and a position behind this one is still to be read
    refine ⟨?_, Or.inr ?_⟩
    · show srv.users.length < p.bound
      rw [husers, if_pos hpublic, h.bound, ← hus]
      exact List.length_filter_lt_length_iff_exists.mpr ⟨v, hv, by simp [hgone]⟩
    · show p.begun < p.bound
      rwa [hbegun]
  | io ha => exact absurd (safe_of_io ha) hlost
  | overrun | visit | skip | finish => exact absurd trivial hlost

/-- A doomed pass stays doomed: it cannot get to its end. -/
theorem Doomed.step (h : Doomed p) (heffect : Effect p a p') : Doomed p' := by
  obtain ⟨hshort, hbefore⟩ := h
  cases heffect with
  | io _ hframe =>
    refine ⟨?_, hbefore⟩
    rw [hframe.users]
    exact hshort
  | overrun => exact ⟨hshort, Or.inl rfl⟩
  | visit hidle _ huser =>
    -- what was read is there, so the position is not the last one
    have hlt := (List.getElem?_eq_some_iff.mp huser).1
    exact ⟨hshort, Or.inr (Nat.lt_of_le_of_lt hlt hshort)⟩
  | skip hidle _ huser =>
    have hlt := (List.getElem?_eq_some_iff.mp huser).1
    have hbegun : begun { p with position := p.position + 1 } = p.position + 1 := begun_idle hidle
    refine ⟨hshort, Or.inr ?_⟩
    rw [hbegun]
    exact Nat.lt_of_le_of_lt hlt hshort
  | dispatch hcurrent _ husers =>
    refine ⟨Nat.lt_of_le_of_lt ?_ hshort, hbefore⟩
    rw [husers]
    split
    · exact List.length_filter_le ..
    · exact Nat.le_refl _
  | finish hcurrent =>
    rw [begun_busy hcurrent] at hbefore
    exact ⟨hshort, hbefore⟩

/-- **Run lemma.** Either all steps were safe, or the pass is doomed. -/
theorem safe_or_doomed {as : List PassAction} {s : TcpServer}
    (hknown : ∀ u ∈ s.users, u < s.nextSession)
    (hrun : Run (Pass.step parse) anyStep (Pass.start s) as p) :
    (Run (Pass.step parse) Pass.Safe (Pass.start s) as p ∧ Inv s.users p) ∨ Doomed p := by
  have hfirst : (Run (Pass.step parse) Pass.Safe (Pass.start s) [] (Pass.start s) ∧
      Inv s.users (Pass.start s)) ∨ Doomed (Pass.start s) := Or.inl ⟨Run.nil _, inv_start hknown⟩
  refine hrun.history (I := fun as p =>
    (Run (Pass.step parse) Pass.Safe (Pass.start s) as p ∧ Inv s.users p) ∨ Doomed p) ?_ hfirst
  rintro before q a r (⟨hq, hinv⟩ | hdoomed) - hstep
  · by_cases hsafe : q.Safe a
    · exact Or.inl ⟨hq.concat hsafe hstep, hinv.step hsafe (step_effect hstep)⟩
    · exact Or.inr (hinv.doomed hsafe (step_effect hstep))
  · exact Or.inr (hdoomed.step (step_effect hstep))

/-- A doomed pass ends past the end of the vector. -/
theorem Doomed.overrun (h : Doomed p) (hended : p.Ended) : p.overrun = true := by
  rcases hended with hover | ⟨hidle, hbound⟩
  · exact hover
  · have hbefore := h.2
    rw [begun_idle hidle] at hbefore
    exact hbefore.resolve_right (Nat.not_lt.mpr hbound)

/-- After the last position all queues have been emptied. -/
theorem Inv.complete (h : Inv us p) (hended : p.Ended) {u : SessionRef} (hu : u ∈ us)
    (hconnected : p.srv.isConnected u = true) : p.drained.count u = us.count u := by
  rcases hended with hover | ⟨-, hbound⟩
  · exact absurd (h.overrun.symm.trans hover) (by decide)
  · rw [h.drained u hu hconnected]
    rw [h.bound] at hbound
    rw [List.take_of_length_le hbound]

/-- **A pass over the users.** While all steps are safe, no position is read that the vector
does not have. A pass that has ended read none, and emptied the queue of every session that
was in the vector at the start and is still connected as often as it was there (once, when
no session is there twice), if and only if all its steps were safe.

A pass in which `OnMessage` throws does not end: its exception ends the process. -/
theorem pass_iff {as : List PassAction} {s : TcpServer} (hknown : ∀ u ∈ s.users, u < s.nextSession)
    (hrun : Run (Pass.step parse) anyStep (Pass.start s) as p) :
    (Run (Pass.step parse) Pass.Safe (Pass.start s) as p → p.overrun = false) ∧
    (p.Ended → (p.overrun = false ∧
      (∀ u ∈ s.users, p.srv.isConnected u = true →
        p.drained.count u = s.users.count u ∧ (s.users.Nodup → p.drained.count u = 1)) ↔
      Run (Pass.step parse) Pass.Safe (Pass.start s) as p)) := by
  have hgood (hsafe : Run (Pass.step parse) Pass.Safe (Pass.start s) as p) : Inv s.users p := by
    refine hsafe.invariant (I := Inv s.users) (fun q a r hinv hok hstep => ?_) (inv_start hknown)
    exact hinv.step hok (step_effect hstep)
  refine ⟨fun hsafe => (hgood hsafe).overrun, fun hended => ⟨?_, fun hsafe => ?_⟩⟩
  · rintro ⟨hover, -⟩
    -- a doomed pass does not end without reading past the end
    rcases safe_or_doomed hknown hrun with ⟨hsafe, -⟩ | hdoomed
    · exact hsafe
    · exact absurd (hover.symm.trans (hdoomed.overrun hended)) (by decide)
  · refine ⟨(hgood hsafe).overrun, fun u hu hconnected => ?_⟩
    have hcount := (hgood hsafe).complete hended hu hconnected
    refine ⟨hcount, fun hnodup => ?_⟩
    rw [hcount, List.count_eq_one_of_mem hnodup hu]

/-- Two users; the first one has sent a public message. -/
def greeting : TcpServer where
  sessions user :=
    if user = 0 then { inputQueue := [{ messageType := .allMessage, content := ascii "hi" }] }
    else {}
  nextSession := 2
  users := [0, 1]

theorem pass_iff_greeting :
    ∃ p, Run (Pass.step fun _ => none) anyStep (Pass.start greeting)
        [.read, .dispatch {}, .finish, .read, .finish] p ∧
      p.overrun = false ∧ ∀ u ∈ greeting.users, p.srv.isConnected u = true →
        p.drained.count u = greeting.users.count u ∧
          (greeting.users.Nodup → p.drained.count u = 1) := by
  obtain ⟨p, hsafe, hend⟩ := exists_run_of_exec (Pass.step fun _ => none) Pass.Safe
    (Pass.start greeting) [.read, .dispatch {}, .finish, .read, .finish]
    (fun p => decide (p.current = none ∧ p.bound ≤ p.position)) (by decide)
  have hrun : Run (Pass.step fun _ => none) anyStep (Pass.start greeting) _ p :=
    hsafe.weaken fun _ _ _ => trivial
  exact ⟨p, hrun, ((pass_iff (by decide) hrun).2 (Or.inr (of_decide_eq_true hend))).mpr hsafe⟩

/-- The second user disconnects while the first one's message waits: the message erases it,
and the loop reads the position where it was. -/
theorem greeting_overruns :
    ∃ p, Run (Pass.step fun _ => none) anyStep (Pass.start greeting)
        [.read, .disconnect 1, .dispatch {}, .finish, .read] p ∧
      p.srv.users = [0] ∧ p.position = 1 ∧ p.overrun = true := by
  obtain ⟨p, hrun, hend⟩ := exists_run_of_exec (Pass.step fun _ => none) anyStep
    (Pass.start greeting) [.read, .disconnect 1, .dispatch {}, .finish, .read]
    (fun p => decide (p.srv.users = [0] ∧ p.position = 1 ∧ p.overrun = true)) (by decide)
  exact ⟨p, hrun, of_decide_eq_true hend⟩

/-! ## Passes as runs of the server -/

/-- A step of the pass is a step of the server, or one that only moves the loop. -/
theorem step_is_step {t : Sys} (hsrv : t.srv = p.srv) (hcurrent : t.current = p.current)
    (h : p.step parse a = some p') :
    (p'.srv = p.srv ∧ p'.current = p.current) ∨
    ∃ b t', Server.step parse t b = some t' ∧ t'.srv = p'.srv ∧ t'.current = p'.current := by
  cases a with
  | accept =>
    obtain rfl := Option.some.inj h
    exact Or.inr ⟨.accept, _, rfl, congrArg TcpServer.onAccept hsrv, hcurrent⟩
  | receive user body =>
    obtain ⟨hknown, rfl⟩ := guarded_step h
    rw [← hsrv] at hknown ⊢
    exact Or.inr ⟨.receive user body, _, if_pos hknown, rfl, hcurrent⟩
  | disconnect user =>
    obtain ⟨hknown, rfl⟩ := guarded_step h
    rw [← hsrv] at hknown ⊢
    exact Or.inr ⟨.disconnect user, _, if_pos hknown, rfl, hcurrent⟩
  | read =>
    -- a position that is skipped or past the end is no step of the server
    cases step_effect h with
    | io ha => exact absurd ha id
    | overrun => exact Or.inl ⟨rfl, rfl⟩
    | skip => exact Or.inl ⟨rfl, rfl⟩
    | @visit user hidle _ huser hconnected =>
      rw [← hsrv] at huser hconnected
      have hmem : user ∈ t.srv.users := List.mem_of_getElem? huser
      have hguard := And.intro (hcurrent.trans hidle) (And.intro hmem hconnected)
      exact Or.inr ⟨.visit user, _, if_pos hguard, hsrv, rfl⟩
  | dispatch o =>
    simp only [Pass.step] at h
    cases hbusy : p.current with
    | none => simp [hbusy] at h
    | some user =>
      simp only [hbusy, ← hsrv] at h
      rw [hbusy] at hcurrent
      refine Or.inr ⟨.dispatch o, ?_⟩
      rcases hget : (t.srv.sessions user).getMessageInUserQueue with ⟨session, _ | msg⟩
      · simp [hget] at h
      · cases hmessage : TcpServer.onMessage o (t.srv.setSession user session) user msg with
        | error e => simp [hget, hmessage] at h
        | ok srv =>
          simp only [hget, hmessage] at h
          obtain rfl := Option.some.inj h
          simp only [Server.step, hcurrent, hget, hmessage]
          exact ⟨_, rfl, rfl, rfl⟩
  | finish =>
    simp only [Pass.step] at h
    cases hbusy : p.current with
    | none => simp [hbusy] at h
    | some user =>
      simp only [hbusy, ← hsrv] at h
      obtain ⟨hnone, rfl⟩ := guarded_step h
      rw [hbusy] at hcurrent
      refine Or.inr ⟨.finish, { t with current := none }, ?_, rfl, rfl⟩
      simp only [Server.step, hcurrent, if_pos hnone]

/-- **A pass is a part of a run.** What a pass does to the server, a run of the server does. -/
theorem pass_is_run {as : List PassAction} (hrun : Run (Pass.step parse) anyStep p as p') :
    ∀ {t : Sys}, t.srv = p.srv → t.current = p.current →
      ∃ bs t', Run (Server.step parse) anyStep t bs t' ∧ t'.srv = p'.srv ∧
        t'.current = p'.current := by
  induction hrun with
  | nil p => exact fun {t} hsrv hcurrent => ⟨[], t, Run.nil t, hsrv, hcurrent⟩
  | cons _ hstep _ ih =>
    intro t hsrv hcurrent
    rcases step_is_step hsrv hcurrent hstep with ⟨hsrv', hcurrent'⟩ | ⟨b, t', hb, hsrv', hcurrent'⟩
    · exact ih (hsrv.trans hsrv'.symm) (hcurrent.trans hcurrent'.symm)
    · obtain ⟨bs, t'', hbs, hend⟩ := ih hsrv' hcurrent'
      exact ⟨b :: bs, t'', Run.cons trivial hb hbs, hend⟩

end Pass

end BoostChat.Server
