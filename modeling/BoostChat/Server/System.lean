import BoostChat.Lib.Transition
import BoostChat.Server.Environment
import BoostChat.Server.Frames

/-!
# Runs of the socket server

The server as a transition system (`step`). `TcpServer::Update` calls `UpdateUsers`
and then empties the message queue of each connected user; meanwhile the io thread
accepts, receives and notices disconnections. The actions are

* `accept`, `receive`, `disconnect` — the io thread, at any time;
* `sweep`, `examine` — the two parts of `UpdateUsers`: the removal of disconnected
  users and one iteration of the loop. `updateUsers_run` shows that a call that
  returns is a run of these;
* `visit`, `dispatch`, `finish` — `Update` begins with a user, hands its next message
  to `OnMessage`, and leaves it when no message is pending.

An exception that leaves `OnMessage` ends the process, so the step is not enabled.
`received`, `admitted` and `dispatched` record what has happened, newest first; no
step reads them. Invariants are proved over `Effect`, which lists what each action does.
-/

namespace BoostChat.Server

open Lib

/-- An admission: the session and the account it was admitted for. -/
structure Login where
  session : SessionRef
  id : UInt32
  userEntity : UserEntity
deriving DecidableEq

structure Sys where
  srv : TcpServer := {}
  /-- The user whose messages `Update` is handling. -/
  current : Option SessionRef := none
  /-- What each session has read from its socket, as the client sent it. -/
  received : List (SessionRef × ChatMessage) := []
  admitted : List Login := []
  /-- The calls of `OnMessage` that returned. -/
  dispatched : List (SessionRef × ChatMessage) := []

/-- The server before the first connection. -/
def Sys.start (maxUser : UInt32) : Sys := { srv := { maxUser } }

inductive Action
  | accept
  | receive (user : SessionRef) (body : Bytes)
  | disconnect (user : SessionRef)
  | sweep
  | examine (env : Env)
  | visit (user : SessionRef)
  | dispatch (o : Oracle)
  | finish

/-- The admission that the next iteration of the loop performs, if any. -/
def TcpServer.nextLogin (env : Env) (s : TcpServer) : Option Login :=
  match s.newUsers with
  | [] => none
  | user :: _ =>
    (loginOf env (s.sessions user)).map fun account => ⟨user, account.1, account.2⟩

/-- The next admission is of the session at the head of the queue. -/
theorem TcpServer.nextLogin_eq_some {env : Env} {s : TcpServer} {l : Login}
    (h : s.nextLogin env = some l) :
    (∃ rest, s.newUsers = l.session :: rest) ∧
      loginOf env (s.sessions l.session) = some (l.id, l.userEntity) := by
  unfold TcpServer.nextLogin at h
  split at h
  · cases h
  · rename_i user rest hnew
    obtain ⟨account, hlogin, rfl⟩ := Option.map_eq_some_iff.mp h
    exact ⟨⟨rest, hnew⟩, hlogin⟩

def step (parse : Bytes → Option ChatMessage) (s : Sys) : Action → Option Sys
  | .accept => some { s with srv := s.srv.onAccept }
  | .receive user body =>
    if user < s.srv.nextSession then
      some { s with
        srv := s.srv.setSession user ((s.srv.sessions user).readBody parse body)
        received := ((parse body).toList.map fun msg => (user, msg)) ++ s.received }
    else none
  | .disconnect user =>
    if user < s.srv.nextSession then
      some { s with srv := s.srv.setSession user (s.srv.sessions user).close }
    else none
  | .sweep => if s.current = none then some { s with srv := s.srv.removeDisconnected } else none
  | .examine env =>
    if s.current = none ∧ s.srv.hasRoom then
      some { s with
        srv := s.srv.examine env
        admitted := (s.srv.nextLogin env).toList ++ s.admitted }
    else none
  | .visit user =>
    if s.current = none ∧ user ∈ s.srv.users ∧ s.srv.isConnected user then
      some { s with current := some user }
    else none
  | .dispatch o =>
    match s.current with
    | none => none
    | some user =>
      match (s.srv.sessions user).getMessageInUserQueue with
      | (_, none) => none
      | (session, some msg) =>
        match (s.srv.setSession user session).onMessage o user msg with
        -- nobody catches it
        | .error _ => none
        | .ok srv => some { s with srv, dispatched := (user, msg) :: s.dispatched }
  | .finish =>
    match s.current with
    | none => none
    | some user =>
      if (s.srv.sessions user).getMessageInUserQueue.2.isNone then some { s with current := none }
      else none

/-! ## What each action does -/

/-- The effect of each action, one constructor for each outcome. -/
inductive Effect (parse : Bytes → Option ChatMessage) (s : Sys) : Action → Sys → Prop
  | accept : Effect parse s .accept { s with srv := s.srv.onAccept }
  | receive {user : SessionRef} {body : Bytes} (hknown : user < s.srv.nextSession) :
      Effect parse s (.receive user body) { s with
        srv := s.srv.setSession user ((s.srv.sessions user).readBody parse body)
        received := ((parse body).toList.map fun msg => (user, msg)) ++ s.received }
  | disconnect {user : SessionRef} (hknown : user < s.srv.nextSession) :
      Effect parse s (.disconnect user)
        { s with srv := s.srv.setSession user (s.srv.sessions user).close }
  | sweep (hidle : s.current = none) :
      Effect parse s .sweep { s with srv := s.srv.removeDisconnected }
  | rejected {env : Env} {user : SessionRef} {rest : List SessionRef} {session : UserSession}
      (hidle : s.current = none) (hroom : s.srv.users.length < s.srv.maxUser.toNat)
      (hnew : s.srv.newUsers = user :: rest)
      (hlogin : loginOf env (s.srv.sessions user) = none)
      (hactive : session.isActive = (s.srv.sessions user).isActive)
      (hparty : session.partyId = (s.srv.sessions user).partyId)
      (hentity : session.userEntity = (s.srv.sessions user).userEntity)
      (hpending : session.pending = (s.srv.sessions user).pending.tail) :
      Effect parse s (.examine env) { s with srv := s.srv.requeue user rest session }
  | admitted {env : Env} {user : SessionRef} {rest : List SessionRef} {session : UserSession}
      (hidle : s.current = none) (hroom : s.srv.users.length < s.srv.maxUser.toNat)
      (hnew : s.srv.newUsers = user :: rest)
      (hlogin : loginOf env (s.srv.sessions user) = some (session.id, session.userEntity))
      (hverified : session.verified = true)
      (hactive : session.isActive = (s.srv.sessions user).isActive)
      (hparty : session.partyId = (s.srv.sessions user).partyId)
      (hpending : session.pending = (s.srv.sessions user).pending.tail) :
      Effect parse s (.examine env) { s with
        srv := (s.srv.taken user rest session).admitUser user
        admitted := ⟨user, session.id, session.userEntity⟩ :: s.admitted }
  | visit {user : SessionRef} (hidle : s.current = none) (huser : user ∈ s.srv.users)
      (hconnected : s.srv.isConnected user = true) :
      Effect parse s (.visit user) { s with current := some user }
  | dispatch {o : Oracle} {user : SessionRef} {msg : ChatMessage} {input output : List ChatMessage}
      {srv : TcpServer} (hcurrent : s.current = some user)
      (hpending : (s.srv.sessions user).pending = msg :: (output ++ input))
      (hmessage : (s.srv.setSession user ((s.srv.sessions user).withQueues input output)).onMessage
        o user msg = .ok srv) :
      Effect parse s (.dispatch o) { s with srv, dispatched := (user, msg) :: s.dispatched }
  | finish {user : SessionRef} (hcurrent : s.current = some user) :
      Effect parse s .finish { s with current := none }

/-- The guard of the loop: somebody waits and there is room. -/
theorem TcpServer.hasRoom_iff (s : TcpServer) :
    s.hasRoom = true ↔ s.newUsers ≠ [] ∧ s.users.length < s.maxUser.toNat := by
  simp [TcpServer.hasRoom]

/-- **Inversion.** Whatever a step does is one of the effects. -/
theorem step_effect {parse : Bytes → Option ChatMessage} {s t : Sys} {a : Action}
    (h : step parse s a = some t) : Effect parse s a t := by
  cases a with
  | accept => exact Option.some.inj h ▸ .accept
  | receive user body =>
    obtain ⟨hknown, rfl⟩ := guarded_step h
    exact .receive hknown
  | disconnect user =>
    obtain ⟨hknown, rfl⟩ := guarded_step h
    exact .disconnect hknown
  | sweep =>
    obtain ⟨hidle, rfl⟩ := guarded_step h
    exact .sweep hidle
  | examine env =>
    obtain ⟨⟨hidle, hguard⟩, rfl⟩ := guarded_step h
    obtain ⟨hne, hroom⟩ := s.srv.hasRoom_iff.mp hguard
    obtain ⟨user, rest, hnew⟩ := List.exists_cons_of_ne_nil hne
    -- the head of the list of new users is turned away or admitted
    rcases s.srv.examine_cases env hnew with
      ⟨hlogin, session, hexamine, hactive, hparty, hentity, hpending⟩ |
      ⟨id, userEntity, hlogin, session, hexamine, rfl, rfl, hverified, hactive, hparty, hpending⟩
    · have hnone : s.srv.nextLogin env = none := by simp [TcpServer.nextLogin, hnew, hlogin]
      rw [hexamine, hnone]
      exact .rejected hidle hroom hnew hlogin hactive hparty hentity hpending
    · have hsome : s.srv.nextLogin env = some ⟨user, session.id, session.userEntity⟩ := by
        simp [TcpServer.nextLogin, hnew, hlogin]
      rw [hexamine, hsome]
      exact .admitted hidle hroom hnew hlogin hverified hactive hparty hpending
  | visit user =>
    obtain ⟨⟨hidle, huser, hconnected⟩, rfl⟩ := guarded_step h
    exact .visit hidle huser hconnected
  | dispatch o =>
    simp only [step] at h
    cases hcurrent : s.current with
    | none => simp [hcurrent] at h
    | some user =>
      simp only [hcurrent] at h
      rcases (s.srv.sessions user).getMessageInUserQueue_spec with
        ⟨-, hget⟩ | ⟨msg, rest, input, output, hpending, rfl, hget⟩
      · simp [hget] at h
      · simp only [hget] at h
        split at h
        · cases h
        · rename_i srv hmessage
          rw [← hcurrent] at h
          exact Option.some.inj h ▸ .dispatch hcurrent hpending hmessage
  | finish =>
    simp only [step] at h
    cases hcurrent : s.current with
    | none => simp [hcurrent] at h
    | some user =>
      simp only [hcurrent] at h
      obtain ⟨-, rfl⟩ := guarded_step h
      exact .finish hcurrent

/-! ## Calls of `UpdateUsers` as runs -/

/-- **A call of `UpdateUsers` that returns is a run.** It is the sweep followed by one
`examine` for each iteration of the loop, without anything in between. -/
theorem updateUsers_run (parse : Bytes → Option ChatMessage) (env : Env) {fuel : Nat} {s : Sys}
    {srv : TcpServer} (hidle : s.current = none) (h : s.srv.updateUsers env fuel = some srv) :
    ∃ n t, Run (step parse) anyStep s (.sweep :: List.replicate n (.examine env)) t ∧
      t.srv = srv ∧ t.current = none := by
  have hloop : ∀ (fuel : Nat) (s : Sys), s.current = none →
      whileLoop TcpServer.hasRoom (TcpServer.examine env) fuel s.srv = some srv →
      ∃ n t, Run (step parse) anyStep s (List.replicate n (.examine env)) t ∧
        t.srv = srv ∧ t.current = none := by
    intro fuel
    -- one `examine` for each unfolding of the loop, from any idle state
    induction fuel with
    | zero =>
      intro s hidle h
      cases hroom : s.srv.hasRoom with
      | true => rw [whileLoop_zero hroom] at h; cases h
      | false =>
        rw [whileLoop_exit hroom] at h
        exact ⟨0, s, Run.nil s, Option.some.inj h, hidle⟩
    | succ fuel ih =>
      intro s hidle h
      cases hroom : s.srv.hasRoom with
      | false =>
        rw [whileLoop_exit hroom] at h
        exact ⟨0, s, Run.nil s, Option.some.inj h, hidle⟩
      | true =>
        rw [whileLoop_succ hroom] at h
        obtain ⟨n, t, hrun, hsrv, hcurrent⟩ := ih
          { s with
            srv := s.srv.examine env
            admitted := (s.srv.nextLogin env).toList ++ s.admitted } hidle h
        exact ⟨n + 1, t, Run.cons trivial (by simp [step, hidle, hroom]) hrun, hsrv, hcurrent⟩
  obtain ⟨n, t, hrun, hsrv, hcurrent⟩ :=
    hloop fuel { s with srv := s.srv.removeDisconnected } hidle h
  exact ⟨n, t, Run.cons trivial (by simp [step, hidle]) hrun, hsrv, hcurrent⟩

end BoostChat.Server
