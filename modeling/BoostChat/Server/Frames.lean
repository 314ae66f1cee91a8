import BoostChat.Server.Handlers

/-!
# What each operation of the server can change

One statement for each operation, so that the invariants never look inside one:

* `verifyUser_spec` — a login succeeds exactly when `identify` finds the account,
  and then all three identity fields are set from it;
* `examine_cases` — the body of the admission loop either puts the session back or
  admits it (`admitUser`);
* `HandlerFrame` — what handling a client message leaves alone: the waiting queue,
  the session objects up to their party ids, and the users up to the removal of
  disconnected ones. `onMessage_frame` shows it for every message.
-/

namespace BoostChat.Server

open Lib

/-! ## Logins -/

/-- The account that a session id resolves to, when both look-ups succeed. -/
def identify (env : Env) (sessionId : Bytes) : Option (UInt32 × UserEntity) :=
  let reply := env.get (ascii "Session:" ++ sessionId)
  if reply.code ≠ RC_SUCCESS then none
  else
    match stringToUint32 env.ulongMax reply.value, env.getUserById reply.value with
    | .ok id, .ok userEntity => some (id, userEntity)
    | _, _ => none

/-- The account that the oldest pending message of a session logs in to. -/
def loginOf (env : Env) (u : UserSession) : Option (UInt32 × UserEntity) :=
  match u.pending with
  | [] => none
  | msg :: _ => identify env msg.content

/-- **`VerifyUser`.** A successful verification sets id, flag and entity from one
account; a failed one changes the id and the flag at most. -/
theorem verifyUser_spec (env : Env) (u : UserSession) (sessionId : Bytes) :
    (∃ id userEntity, identify env sessionId = some (id, userEntity) ∧
      verifyUser env u sessionId =
        ({ u with id := id, verified := true, userEntity := userEntity }, true)) ∨
    (identify env sessionId = none ∧ ∃ id verified,
      verifyUser env u sessionId = ({ u with id := id, verified := verified }, false)) := by
  unfold verifyUser identify
  by_cases hcode : (env.get (ascii "Session:" ++ sessionId)).code ≠ RC_SUCCESS
  · exact Or.inr ⟨by simp [hcode], u.id, u.verified, by simp [hcode]⟩
  · simp only [hcode, if_false]
    cases hid : stringToUint32 env.ulongMax (env.get (ascii "Session:" ++ sessionId)).value with
    | error e => exact Or.inr ⟨rfl, u.id, u.verified, rfl⟩
    | ok id =>
      -- without a row the id and the flag are set, and nothing else
      cases hent : env.getUserById (env.get (ascii "Session:" ++ sessionId)).value with
      | error e => exact Or.inr ⟨rfl, id, true, rfl⟩
      | ok userEntity => exact Or.inl ⟨id, userEntity, rfl, rfl⟩

namespace TcpServer

@[simp] theorem setSession_sessions_self (s : TcpServer) (u : SessionRef) (x : UserSession) :
    (s.setSession u x).sessions u = x := Function.update_self ..

theorem setSession_sessions_of_ne (s : TcpServer) {u v : SessionRef} (x : UserSession)
    (h : v ≠ u) : (s.setSession u x).sessions v = s.sessions v := Function.update_of_ne h ..

/-- What the new session object has in common with the old one, all objects keep. -/
theorem setSession_congr {α : Type} (f : UserSession → α) {s : TcpServer} {user : SessionRef}
    {session : UserSession} (h : f session = f (s.sessions user)) (v : SessionRef) :
    f ((s.setSession user session).sessions v) = f (s.sessions v) := by
  by_cases hv : v = user
  · subst hv
    rw [setSession_sessions_self, h]
  · rw [setSession_sessions_of_ne _ _ hv]

@[simp] theorem setSession_users (s : TcpServer) (u : SessionRef) (x : UserSession) :
    (s.setSession u x).users = s.users := rfl

@[simp] theorem sendTo_sessions (s : TcpServer) (ts : List SessionRef) (m : ChatMessage) :
    (s.sendTo ts m).sessions = s.sessions := rfl

@[simp] theorem sendTo_users (s : TcpServer) (ts : List SessionRef) (m : ChatMessage) :
    (s.sendTo ts m).users = s.users := rfl

@[simp] theorem sendTo_newUsers (s : TcpServer) (ts : List SessionRef) (m : ChatMessage) :
    (s.sendTo ts m).newUsers = s.newUsers := rfl

@[simp] theorem sendTo_partyManager (s : TcpServer) (ts : List SessionRef) (m : ChatMessage) :
    (s.sendTo ts m).partyManager = s.partyManager := rfl

/-! ## Admission -/

/-- The sweep changes no session but for closing some that are not connected. -/
theorem removeDisconnected_sessions (s : TcpServer) (u : SessionRef) :
    s.removeDisconnected.sessions u = s.sessions u ∨
      s.removeDisconnected.sessions u = (s.sessions u).close := by
  unfold removeDisconnected
  dsimp only
  split
  · exact Or.inr rfl
  · exact Or.inl rfl

theorem removeDisconnected_closed {s : TcpServer} {u : SessionRef}
    (h : s.isConnected u = false) : s.removeDisconnected.isConnected u = false := by
  rw [isConnected]
  rcases s.removeDisconnected_sessions u with heq | heq <;> rw [heq]
  · exact h
  · rfl

/-- The session that admitting `user` logs out. -/
def evicted (s : TcpServer) (user : SessionRef) : Option SessionRef :=
  s.getUserById (s.sessions user).id

theorem evicted_mem {s : TcpServer} {user old : SessionRef} (h : s.evicted user = some old) :
    old ∈ s.users ∧ (s.sessions old).id = (s.sessions user).id :=
  ⟨List.mem_of_find?_eq_some h, by simpa using List.find?_some h⟩

/-- Without an eviction no user has the account of the admitted session. -/
theorem evicted_eq_none {s : TcpServer} {user : SessionRef} (h : s.evicted user = none)
    {v : SessionRef} (hv : v ∈ s.users) : (s.sessions v).id ≠ (s.sessions user).id := by
  have := List.find?_eq_none.mp h v hv
  simpa using this

/-- The users that stay when `user` is admitted. -/
def remaining (s : TcpServer) (user : SessionRef) : List SessionRef :=
  match s.evicted user with
  | some old => s.users.erase old
  | none => s.users

theorem remaining_sublist (s : TcpServer) (user : SessionRef) :
    (s.remaining user).Sublist s.users := by
  unfold remaining
  split
  · exact List.erase_sublist
  · exact List.Sublist.refl _

/-- Nobody leaves but the evicted session. -/
theorem mem_remaining {s : TcpServer} {user v : SessionRef} (hv : v ∈ s.users)
    (hev : s.evicted user ≠ some v) : v ∈ s.remaining user := by
  unfold remaining
  split
  · rename_i old hold
    have hne : v ≠ old := by
      rintro rfl
      exact hev hold
    exact (List.mem_erase_of_ne hne).mpr hv
  · exact hv

@[simp] theorem admitUser_users (s : TcpServer) (user : SessionRef) :
    (s.admitUser user).users = s.remaining user ++ [user] := by
  unfold admitUser remaining evicted
  cases s.getUserById (s.sessions user).id <;> rfl

@[simp] theorem admitUser_newUsers (s : TcpServer) (user : SessionRef) :
    (s.admitUser user).newUsers = s.newUsers := by
  unfold admitUser
  cases s.getUserById (s.sessions user).id <;> rfl

@[simp] theorem admitUser_nextSession (s : TcpServer) (user : SessionRef) :
    (s.admitUser user).nextSession = s.nextSession := by
  unfold admitUser
  cases s.getUserById (s.sessions user).id <;> rfl

@[simp] theorem admitUser_partyManager (s : TcpServer) (user : SessionRef) :
    (s.admitUser user).partyManager = s.partyManager := by
  unfold admitUser
  cases s.getUserById (s.sessions user).id <;> rfl

@[simp] theorem admitUser_maxUser (s : TcpServer) (user : SessionRef) :
    (s.admitUser user).maxUser = s.maxUser := by
  unfold admitUser
  cases s.getUserById (s.sessions user).id <;> rfl

/-- Admission closes the evicted session and touches no other object. -/
theorem admitUser_sessions (s : TcpServer) (user v : SessionRef) :
    (s.admitUser user).sessions v =
      if s.evicted user = some v then (s.sessions v).close else s.sessions v := by
  unfold admitUser evicted
  cases h : s.getUserById (s.sessions user).id with
  | none => simp [sendLoginMessage, send]
  | some old =>
    by_cases hv : v = old
    · subst hv
      simp [sendLoginMessage, sendServerMessage, send, setSession]
    · have hne : ¬ old = v := fun heq => hv heq.symm
      simp [sendLoginMessage, sendServerMessage, send, setSession, Function.update_of_ne hv, hne]

/-- The examined session goes back to the end of the queue, with new contents. -/
def requeue (s : TcpServer) (user : SessionRef) (rest : List SessionRef)
    (session : UserSession) : TcpServer :=
  { s.setSession user session with newUsers := rest ++ [user] }

/-- The server just before `admitUser`: the session is in neither container. -/
def taken (s : TcpServer) (user : SessionRef) (rest : List SessionRef)
    (session : UserSession) : TcpServer :=
  { s.setSession user session with newUsers := rest }

@[simp] theorem requeue_newUsers (s : TcpServer) (user : SessionRef) (rest : List SessionRef)
    (session : UserSession) : (s.requeue user rest session).newUsers = rest ++ [user] := rfl

@[simp] theorem requeue_users (s : TcpServer) (user : SessionRef) (rest : List SessionRef)
    (session : UserSession) : (s.requeue user rest session).users = s.users := rfl

@[simp] theorem requeue_sessions_self (s : TcpServer) (user : SessionRef) (rest : List SessionRef)
    (session : UserSession) : (s.requeue user rest session).sessions user = session :=
  setSession_sessions_self s user session

theorem requeue_sessions_of_ne (s : TcpServer) {user v : SessionRef} (rest : List SessionRef)
    (session : UserSession) (h : v ≠ user) :
    (s.requeue user rest session).sessions v = s.sessions v := setSession_sessions_of_ne s session h

@[simp] theorem taken_users (s : TcpServer) (user : SessionRef) (rest : List SessionRef)
    (session : UserSession) : (s.taken user rest session).users = s.users := rfl

@[simp] theorem taken_newUsers (s : TcpServer) (user : SessionRef) (rest : List SessionRef)
    (session : UserSession) : (s.taken user rest session).newUsers = rest := rfl

@[simp] theorem taken_sessions_self (s : TcpServer) (user : SessionRef) (rest : List SessionRef)
    (session : UserSession) : (s.taken user rest session).sessions user = session :=
  setSession_sessions_self s user session

/-- The admitted session is as `VerifyUser` left it. -/
theorem taken_admitUser_sessions_self {s : TcpServer} {user : SessionRef} (rest : List SessionRef)
    (session : UserSession) (h : user ∉ s.users) :
    ((s.taken user rest session).admitUser user).sessions user = session := by
  have hev : (s.taken user rest session).evicted user ≠ some user := fun hev =>
    h (evicted_mem hev).1
  rw [admitUser_sessions, if_neg hev, taken_sessions_self]

/-- Every other session is as before, but for the closing of the evicted one. -/
theorem taken_admitUser_sessions_of_ne (s : TcpServer) {user v : SessionRef}
    (rest : List SessionRef) (session : UserSession) (h : v ≠ user) :
    ((s.taken user rest session).admitUser user).sessions v =
      if (s.taken user rest session).evicted user = some v then (s.sessions v).close
      else s.sessions v := by
  rw [admitUser_sessions, taken, setSession_sessions_of_ne _ _ h]

/-- A session that waits is not evicted. -/
theorem taken_admitUser_sessions_of_not_mem (s : TcpServer) {user v : SessionRef}
    (rest : List SessionRef) (session : UserSession) (h : v ≠ user) (hv : v ∉ s.users) :
    ((s.taken user rest session).admitUser user).sessions v = s.sessions v := by
  have hev : (s.taken user rest session).evicted user ≠ some v := fun hev =>
    hv (evicted_mem hev).1
  rw [taken_admitUser_sessions_of_ne _ _ _ h, if_neg hev]

/-- **One iteration of the admission loop.** The oldest waiting session loses its
oldest message and is then put back, or is admitted with the identity that this
message logs in to. -/
theorem examine_cases (env : Env) {s : TcpServer} {user : SessionRef} {rest : List SessionRef}
    (h : s.newUsers = user :: rest) :
    (loginOf env (s.sessions user) = none ∧ ∃ session,
      examine env s = s.requeue user rest session ∧
      session.isActive = (s.sessions user).isActive ∧
      session.partyId = (s.sessions user).partyId ∧
      session.userEntity = (s.sessions user).userEntity ∧
      session.pending = (s.sessions user).pending.tail) ∨
    (∃ id userEntity, loginOf env (s.sessions user) = some (id, userEntity) ∧ ∃ session,
      examine env s = (s.taken user rest session).admitUser user ∧
      session.id = id ∧ session.userEntity = userEntity ∧ session.verified = true ∧
      session.isActive = (s.sessions user).isActive ∧
      session.partyId = (s.sessions user).partyId ∧
      session.pending = (s.sessions user).pending.tail) := by
  unfold examine
  rw [h]
  rcases (s.sessions user).getMessageInUserQueue_spec with
    ⟨hnil, hget⟩ | ⟨msg, queue, input, output, hpending, hqueue, hget⟩
  · -- nothing is pending
    left
    refine ⟨by simp [loginOf, hnil], s.sessions user, ?_, rfl, rfl, rfl, by simp [hnil]⟩
    simp only [hget]
    rfl
  · have hlogin : loginOf env (s.sessions user) = identify env msg.content := by
      simp [loginOf, hpending]
    simp only [hget, hlogin, hpending, List.tail_cons]
    -- the message logs in, or it does not
    rcases verifyUser_spec env ((s.sessions user).withQueues input output) msg.content with
      ⟨id, userEntity, hid, hverify⟩ | ⟨hid, id, verified, hverify⟩
    · right
      refine ⟨id, userEntity, hid, { (s.sessions user).withQueues input output with
        id := id, verified := true, userEntity := userEntity }, ?_, rfl, rfl, rfl, rfl, rfl,
        hqueue⟩
      rw [hverify]
      rfl
    · left
      refine ⟨hid, { (s.sessions user).withQueues input output with
        id := id, verified := verified }, ?_, rfl, rfl, rfl, hqueue⟩
      rw [hverify]
      rfl

/-! ## Client messages -/

/-- What handling `msg` leaves alone. Only notices and copies of `msg` are sent. -/
structure HandlerFrame (msg : ChatMessage) (s s' : TcpServer) : Prop where
  nextSession : s'.nextSession = s.nextSession
  newUsers : s'.newUsers = s.newUsers
  maxUser : s'.maxUser = s.maxUser
  users : s'.users = s.users ∨ s'.users = s.users.filter s.isConnected
  session : ∀ u, s'.sessions u = (s.sessions u).setPartyId (s'.sessions u).partyId
  posted : ∃ new, s'.posted = s.posted ++ new ∧
    ∀ p ∈ new, IsNotice p.2 ∨ (p.2.sender = msg.sender ∧ p.2.content = msg.content)

variable {msg : ChatMessage} {s s' s'' : TcpServer}

theorem HandlerFrame.refl (msg : ChatMessage) (s : TcpServer) : HandlerFrame msg s s where
  nextSession := rfl
  newUsers := rfl
  maxUser := rfl
  users := Or.inl rfl
  session _ := rfl
  posted := ⟨[], by simp, by simp⟩

theorem HandlerFrame.users_sublist (h : HandlerFrame msg s s') : s'.users.Sublist s.users := by
  rcases h.users with husers | husers
  · exact husers ▸ List.Sublist.refl _
  · exact husers ▸ List.filter_sublist

theorem HandlerFrame.isConnected (h : HandlerFrame msg s s') : s'.isConnected = s.isConnected := by
  funext u
  rw [TcpServer.isConnected, TcpServer.isConnected, h.session u]
  rfl

theorem HandlerFrame.trans (h : HandlerFrame msg s s') (h' : HandlerFrame msg s' s'') :
    HandlerFrame msg s s'' where
  nextSession := h'.nextSession.trans h.nextSession
  newUsers := h'.newUsers.trans h.newUsers
  maxUser := h'.maxUser.trans h.maxUser
  users := by
    -- the same sessions are connected before and after, so filtering twice is filtering once
    rcases h.users with hu | hu <;> rcases h'.users with hu' | hu'
    · exact Or.inl (hu'.trans hu)
    · exact Or.inr (by rw [hu', h.isConnected, hu])
    · exact Or.inr (hu'.trans hu)
    · exact Or.inr (by rw [hu', h.isConnected, hu, List.filter_filter]; simp)
  session u := by
    rw [h'.session u, h.session u]
    rfl
  posted := by
    obtain ⟨new, hnew, hall⟩ := h.posted
    obtain ⟨new', hnew', hall'⟩ := h'.posted
    refine ⟨new ++ new', by rw [hnew', hnew, List.append_assoc], ?_⟩
    intro p hp
    rcases List.mem_append.mp hp with hp | hp
    · exact hall p hp
    · exact hall' p hp

/-- Sending copies of the message, or notices. -/
theorem HandlerFrame.posting (s : TcpServer) (new : List (SessionRef × ChatMessage))
    (hnew : ∀ p ∈ new, IsNotice p.2 ∨ (p.2.sender = msg.sender ∧ p.2.content = msg.content)) :
    HandlerFrame msg s (s.posting new) :=
  { HandlerFrame.refl msg s with posted := ⟨new, rfl, hnew⟩ }

theorem HandlerFrame.sendTo (s : TcpServer) (targets : List SessionRef) {m : ChatMessage}
    (hm : IsNotice m ∨ (m.sender = msg.sender ∧ m.content = msg.content)) :
    HandlerFrame msg s (s.sendTo targets m) := by
  refine .posting s (targets.map fun t => (t, m)) fun p hp => ?_
  obtain ⟨t, _, rfl⟩ := List.mem_map.mp hp
  exact hm

theorem HandlerFrame.sendErrorMessage (s : TcpServer) (user : SessionRef) (text : Bytes) :
    HandlerFrame msg s (s.sendErrorMessage user text) :=
  HandlerFrame.sendTo s [user] (Or.inl (Or.inl rfl))

theorem HandlerFrame.sendServerMessage (s : TcpServer) (user : SessionRef) (text : Bytes) :
    HandlerFrame msg s (s.sendServerMessage user text) :=
  HandlerFrame.sendTo s [user] (Or.inl (Or.inr rfl))

theorem HandlerFrame.setPartyManager (s : TcpServer) (pm : PartyManager) :
    HandlerFrame msg s { s with partyManager := pm } :=
  { HandlerFrame.refl msg s with }

theorem HandlerFrame.setMySQL (s : TcpServer) (db : MySQLManager) :
    HandlerFrame msg s { s with mySQLConnector := db } :=
  { HandlerFrame.refl msg s with }

theorem HandlerFrame.setPartyId (s : TcpServer) (user : SessionRef) (partyId : UInt32) :
    HandlerFrame msg s (s.setPartyId user partyId) :=
  { HandlerFrame.refl msg s with
    session := fun u => by
      by_cases hu : u = user
      · subst hu
        simp [TcpServer.setPartyId, UserSession.setPartyId]
      · rw [TcpServer.setPartyId, setSession_sessions_of_ne _ _ hu]
        rfl }

theorem HandlerFrame.resetPartyIds (s : TcpServer) (partyId : UInt32) :
    HandlerFrame msg s (s.resetPartyIds partyId) :=
  { HandlerFrame.refl msg s with
    session := fun u => by
      unfold TcpServer.resetPartyIds
      dsimp only
      split <;> rfl }

theorem HandlerFrame.sendAllUsers (s : TcpServer) {m : ChatMessage}
    (hm : m.sender = msg.sender ∧ m.content = msg.content) :
    HandlerFrame msg s (s.sendAllUsers m) :=
  { HandlerFrame.sendTo s (s.users.filter s.isConnected) (Or.inr hm) with
    users := Or.inr rfl }

theorem HandlerFrame.storing (s : TcpServer) (party : Party) :
    HandlerFrame msg s (s.storing party) :=
  { HandlerFrame.refl msg s with }

theorem HandlerFrame.withoutParty (s : TcpServer) (partyId : UInt32) :
    HandlerFrame msg s (s.withoutParty partyId) :=
  { HandlerFrame.refl msg s with }

theorem RequestOutcome.frame (h : RequestOutcome o s user msg s') : HandlerFrame msg s s' := by
  cases h with
  | refused _ text => exact .sendErrorMessage ..
  | created =>
    exact (((HandlerFrame.setPartyManager ..).trans (.storing ..)).trans (.setPartyId ..)).trans
      (.sendServerMessage ..)
  | joined => exact ((HandlerFrame.storing ..).trans (.setPartyId ..)).trans (.sendServerMessage ..)
  | deleted =>
    exact ((HandlerFrame.withoutParty ..).trans (.resetPartyIds ..)).trans (.sendServerMessage ..)
  | deletedZero => exact (HandlerFrame.withoutParty ..).trans (.sendErrorMessage ..)
  | left => exact ((HandlerFrame.storing ..).trans (.setPartyId ..)).trans (.sendServerMessage ..)

/-- **What a client message can do.** Whatever the message, a handler that returns
keeps the waiting queue, every session up to its party id, and every connected user. -/
theorem onMessage_frame (h : s.onMessage o user msg = .ok s') : HandlerFrame msg s s' := by
  cases onMessage_handled h with
  | sent _ _ new hnew => exact .posting s new hnew
  | relayed => exact .sendAllUsers s ⟨rfl, rfl⟩
  | befriended _ db new hnew =>
    exact (HandlerFrame.setMySQL s db).trans (.posting _ new fun p hp => Or.inl (hnew p hp))
  | request _ houtcome => exact houtcome.frame

end TcpServer

end BoostChat.Server
