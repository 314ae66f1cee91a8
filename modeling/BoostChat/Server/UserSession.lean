import BoostChat.Server.ChatMessage

/-!
# User sessions

`UserSession` and `UserEntity` of the socket server, as far as the server's own
thread and the reading side of the socket use them. The two message queues and the
swap between them are modelled as they stand; `pending` is the one FIFO queue they
implement, and `getMessageInUserQueue_spec` is what callers use of them.

`m_UserEntity` points to a `UserEntity` from the constructor on, and every later
assignment is of a freshly made one, so the pointer is modelled by its value.
-/

namespace BoostChat.Server

structure UserEntity where
  id : UInt32 := 0
  userId : Bytes := []
  password : Bytes := []
  username : Bytes := []
  email : Bytes := []
  isAlive : UInt8 := 0
deriving DecidableEq

structure UserSession where
  id : UInt32 := 0
  userEntity : UserEntity := {}
  partyId : UInt32 := 0
  isActive : Bool := true
  verified : Bool := false
  inputQueue : List ChatMessage := []
  outputQueue : List ChatMessage := []
deriving DecidableEq

namespace UserSession

def start (u : UserSession) : UserSession := { u with isActive := true }

def close (u : UserSession) : UserSession := { u with isActive := false }

def isConnected (u : UserSession) : Bool := u.isActive

def setID (u : UserSession) (id : UInt32) : UserSession := { u with id := id }

def setPartyId (u : UserSession) (partyId : UInt32) : UserSession := { u with partyId := partyId }

def setVerified (u : UserSession) (isVerified : Bool) : UserSession :=
  { u with verified := isVerified }

def setUserEntity (u : UserSession) (userEntity : UserEntity) : UserSession :=
  { u with userEntity := userEntity }

/-- `UserSession::SwapQueues`. -/
def swapQueues (u : UserSession) : UserSession × Bool :=
  if u.outputQueue.isEmpty && !u.inputQueue.isEmpty then
    ({ u with inputQueue := u.outputQueue, outputQueue := u.inputQueue }, true)
  else (u, false)

/-- `UserSession::GetMessageInUserQueue`: the session afterwards and the message,
`none` standing for `nullptr`. -/
def getMessageInUserQueue (u : UserSession) : UserSession × Option ChatMessage :=
  let (u, ready) := if u.outputQueue.isEmpty then u.swapQueues else (u, true)
  if ready then
    match u.outputQueue with
    | [] => (u, none)
    | msg :: rest => ({ u with outputQueue := rest }, some msg)
  else (u, none)

/-- `UserSession::ReadBody`, when a whole body has arrived: a body that parses is
stamped with the sender's user id and pushed; any other body is dropped. -/
def readBody (parse : Bytes → Option ChatMessage) (u : UserSession) (body : Bytes) :
    UserSession :=
  match parse body with
  | some chatMessage =>
    { u with inputQueue := u.inputQueue ++ [{ chatMessage with sender := u.userEntity.userId }] }
  | none => u

/-- The messages that are still to be handed out, oldest first. -/
def pending (u : UserSession) : List ChatMessage := u.outputQueue ++ u.inputQueue

/-- A session that differs from `u` in its queues only. -/
def withQueues (u : UserSession) (input output : List ChatMessage) : UserSession :=
  { u with inputQueue := input, outputQueue := output }

section Projections

variable (u : UserSession) (input output : List ChatMessage)

@[simp] theorem withQueues_id : (u.withQueues input output).id = u.id := rfl
@[simp] theorem withQueues_userEntity :
    (u.withQueues input output).userEntity = u.userEntity := rfl
@[simp] theorem withQueues_partyId : (u.withQueues input output).partyId = u.partyId := rfl
@[simp] theorem withQueues_isActive : (u.withQueues input output).isActive = u.isActive := rfl
@[simp] theorem withQueues_verified : (u.withQueues input output).verified = u.verified := rfl
@[simp] theorem withQueues_pending : (u.withQueues input output).pending = output ++ input := rfl

@[simp] theorem close_id : u.close.id = u.id := rfl
@[simp] theorem close_userEntity : u.close.userEntity = u.userEntity := rfl
@[simp] theorem close_partyId : u.close.partyId = u.partyId := rfl
@[simp] theorem close_isActive : u.close.isActive = false := rfl
@[simp] theorem close_verified : u.close.verified = u.verified := rfl
@[simp] theorem close_pending : u.close.pending = u.pending := rfl

end Projections

/-- **The two queues are one FIFO queue.** Taking a message touches nothing but the
queues; it returns `none` exactly when nothing is pending, and the oldest pending
message otherwise. -/
theorem getMessageInUserQueue_spec (u : UserSession) :
    (u.pending = [] ∧ u.getMessageInUserQueue = (u, none)) ∨
    ∃ msg rest input output, u.pending = msg :: rest ∧ output ++ input = rest ∧
      u.getMessageInUserQueue = (u.withQueues input output, some msg) := by
  obtain ⟨id, entity, partyId, active, verified, input, output⟩ := u
  cases output with
  | nil =>
    cases input with
    | nil => exact Or.inl ⟨rfl, rfl⟩
    | cons msg rest => exact Or.inr ⟨msg, rest, [], rest, rfl, by simp, rfl⟩
  | cons msg rest => exact Or.inr ⟨msg, rest ++ input, input, rest, rfl, rfl, rfl⟩

/-- Reading a body changes the input queue at most. -/
theorem readBody_eq (parse : Bytes → Option ChatMessage) (u : UserSession) (body : Bytes) :
    u.readBody parse body = u.withQueues
      (u.inputQueue ++ (parse body).toList.map fun m => { m with sender := u.userEntity.userId })
      u.outputQueue := by
  unfold readBody withQueues
  cases parse body <;> simp

end UserSession

end BoostChat.Server
