import BoostChat.CxxString
import BoostChat.Lib.WhileLoop
import BoostChat.Server.Party
import BoostChat.Server.MySQLManager
import Mathlib.Logic.Function.Basic

/-!
# The socket server

`TcpServer`: accepting, admitting and dropping sessions, and the handlers of the
client messages. Sessions are shared objects, so the containers hold references
(`SessionRef`) and `sessions` maps a reference to the object. `posted` records
every call of `Send`, in order: the session it was made on and the message.

What the outside answers is passed in: `Env` for the look-ups of a login (Redis and
`GetUserById`), `Oracle` for one client message (iteration order of the party map,
the table `user`, failures of MySQL calls, the state of the thread pool).

No handler reads the log back, but a line that is too long ends the handler (`logged`).
-/

namespace BoostChat.Server

open Lib

abbrev SessionRef := Nat

structure TcpServer where
  sessions : SessionRef → UserSession := fun _ => {}
  nextSession : SessionRef := 0
  users : List SessionRef := []
  newUsers : List SessionRef := []
  partyManager : PartyManager := {}
  mySQLConnector : MySQLManager := {}
  maxUser : UInt32 := 5
  posted : List (SessionRef × ChatMessage) := []

def RC_SUCCESS : Int := 0

/-- What `CRedisClient::Get` returns and stores. -/
structure RedisReply where
  code : Int
  value : Bytes

/-- The answers that a login depends on. -/
structure Env where
  get : Bytes → RedisReply
  getUserById : Bytes → Except StdException UserEntity
  /-- The greatest `unsigned long`. -/
  ulongMax : Nat
  uint32_le : 2 ^ 32 - 1 ≤ ulongMax

/-- The answers that the handling of one client message depends on. -/
structure Oracle where
  iterOrder : IterOrder := .entries
  users : List UserRow := []
  sqlFaults : List (Option Bytes) := []
  stopAll : Bool := false
  unspecified : Bool := true

/-- `TcpServer::StringToUint32`. -/
def stringToUint32 (ulongMax : Nat) (str : Bytes) : Except StdException UInt32 := do
  let result ← stoul ulongMax str
  if 2 ^ 32 - 1 < result then
    throw (.outOfRange (ascii "Converted number is out of range for uint32_t"))
  return result.toUInt32

/-- `TcpServer::VerifyUser`: the session afterwards and the result. -/
def verifyUser (env : Env) (user : UserSession) (sessionId : Bytes) : UserSession × Bool :=
  let reply := env.get (ascii "Session:" ++ sessionId)
  if reply.code ≠ RC_SUCCESS then (user, false)
  else
    match stringToUint32 env.ulongMax reply.value with
    | .error _ => (user, false)
    | .ok id =>
      -- both are set before the row is read, and stay when that throws
      let user := (user.setID id).setVerified true
      match env.getUserById reply.value with
      | .error _ => (user, false)
      | .ok userEntity => (user.setUserEntity userEntity, true)

namespace TcpServer

def setSession (s : TcpServer) (user : SessionRef) (session : UserSession) : TcpServer :=
  { s with sessions := Function.update s.sessions user session }

/-- `Send(msg)` on each of the sessions in turn. -/
def sendTo (s : TcpServer) (targets : List SessionRef) (msg : ChatMessage) : TcpServer :=
  { s with posted := s.posted ++ targets.map fun target => (target, msg) }

def send (s : TcpServer) (user : SessionRef) (msg : ChatMessage) : TcpServer := s.sendTo [user] msg

def sendErrorMessage (s : TcpServer) (user : SessionRef) (errorMessage : Bytes) : TcpServer :=
  s.send user { messageType := .errorMessage, content := errorMessage }

def sendServerMessage (s : TcpServer) (user : SessionRef) (serverMessage : Bytes) : TcpServer :=
  s.send user { messageType := .serverMessage, content := serverMessage }

def sendLoginMessage (s : TcpServer) (user : SessionRef) : TcpServer :=
  s.send user { messageType := .loginMessage, content := ascii "Login Success!!" }

/-- `OnAccept` without an error: a new session object joins the waiting queue and starts. -/
def onAccept (s : TcpServer) : TcpServer :=
  { s.setSession s.nextSession ({} : UserSession).start with
    nextSession := s.nextSession + 1
    newUsers := s.newUsers ++ [s.nextSession] }

def isConnected (s : TcpServer) (user : SessionRef) : Bool := (s.sessions user).isConnected

/-- `TcpServer::GetUserById`. -/
def getUserById (s : TcpServer) (userId : UInt32) : Option SessionRef :=
  s.users.find? fun user => (s.sessions user).id == userId

/-- `TcpServer::GetUserByUserId`. -/
def getUserByUserId (s : TcpServer) (userId : Bytes) : Option SessionRef :=
  s.users.find? fun user => (s.sessions user).userEntity.userId == userId

/-! ## Admission: `UpdateUsers` -/

/-- The sweep at the start of `UpdateUsers`: disconnected users are closed and removed. -/
def removeDisconnected (s : TcpServer) : TcpServer :=
  { s with
    sessions := fun user =>
      if user ∈ s.users ∧ !s.isConnected user then (s.sessions user).close else s.sessions user
    users := s.users.filter s.isConnected }

/-- The guard of the admission loop. -/
def hasRoom (s : TcpServer) : Bool :=
  !s.newUsers.isEmpty && decide (s.users.length < s.maxUser.toNat)

/-- A verified session: a session of the same account is logged out, the session
becomes a user and gets the login message. -/
def admitUser (s : TcpServer) (user : SessionRef) : TcpServer :=
  let s := match s.getUserById (s.sessions user).id with
    | some old =>
      let s := s.sendServerMessage old (ascii "Logged out due to duplicate login.")
      let s := s.setSession old (s.sessions old).close
      { s with users := s.users.erase old }
    | none => s
  ({ s with users := s.users ++ [user] }).sendLoginMessage user

/-- The body of the admission loop: the oldest waiting session is examined. -/
def examine (env : Env) (s : TcpServer) : TcpServer :=
  match s.newUsers with
  | [] => s
  | user :: rest =>
    let s := { s with newUsers := rest }
    match (s.sessions user).getMessageInUserQueue with
    -- nothing has arrived yet: back to the end of the queue
    | (session, none) => { s.setSession user session with newUsers := rest ++ [user] }
    | (session, some msg) =>
      -- the message is consumed, whether it logs in or not
      match verifyUser env session msg.content with
      | (session, true) => (s.setSession user session).admitUser user
      | (session, false) => { s.setSession user session with newUsers := rest ++ [user] }

/-- `TcpServer::UpdateUsers`, with the number of sessions the loop may examine as fuel. -/
def updateUsers (env : Env) (fuel : Nat) (s : TcpServer) : Option TcpServer :=
  whileLoop hasRoom (examine env) fuel s.removeDisconnected

/-! ## Relaying -/

/-- `TcpServer::SendAllUsers`: disconnected users are skipped, then removed. -/
def sendAllUsers (s : TcpServer) (msg : ChatMessage) : TcpServer :=
  { s.sendTo (s.users.filter s.isConnected) msg with users := s.users.filter s.isConnected }

def sendWhisperMessage (s : TcpServer) (sender : SessionRef) (receiver : Bytes)
    (msg : ChatMessage) : TcpServer :=
  if (s.sessions sender).userEntity.userId = receiver then
    s.sendErrorMessage sender (ascii "You cannot whisper to yourself.")
  else
    match s.users.find? fun user =>
        (s.sessions user).userEntity.userId == receiver && s.isConnected user with
    | some user => s.send user { msg with receiver := receiver }
    | none => s.sendErrorMessage sender (ascii "Receiver not found.")

def sendPartyMessage (s : TcpServer) (party : Party) (msg : ChatMessage) : TcpServer :=
  s.sendTo (party.members.filterMap s.getUserById) msg

/-! ## Ping, public and private messages -/

/-- The elapsed time that `HandleServerPing` computes is not used; its conversion may throw. -/
def handleServerPing (s : TcpServer) (msg : ChatMessage) : Except StdException TcpServer :=
  (stoll msg.content).map fun _ => s

def handleAllMessage (s : TcpServer) (msg : ChatMessage) : TcpServer :=
  if msg.content = [] then s else s.sendAllUsers { msg with messageType := .allMessage }

def handleWhisperMessage (s : TcpServer) (user : SessionRef) (msg : ChatMessage) : TcpServer :=
  if msg.receiver = [] ∨ msg.content = [] then
    s.sendErrorMessage user (ascii "Recipient or content is empty.")
  else s.sendWhisperMessage user msg.receiver msg

/-! ## Parties -/

/-- A handler that has logged the lines and leaves the state `s`, unless one of them
throws. -/
def logged (lines : List Bytes) (s : TcpServer) : Except StdException TcpServer :=
  (Logger.logAll lines).map fun _ => s

def setPartyId (s : TcpServer) (user : SessionRef) (partyId : UInt32) : TcpServer :=
  s.setSession user ((s.sessions user).setPartyId partyId)

def handlePartyCreate (o : Oracle) (s : TcpServer) (user : SessionRef) (msg : ChatMessage) :
    TcpServer :=
  if msg.content = [] then s.sendErrorMessage user (ascii "The party name is empty.")
  else if (s.sessions user).partyId ≠ 0 then s.sendErrorMessage user (ascii "Already in a party.")
  else if s.partyManager.isPartyNameTaken o.iterOrder msg.content then
    s.sendErrorMessage user (ascii "The party name already exists.")
  else
    match s.partyManager.createParty (s.sessions user).id msg.content with
    -- `CreateParty` refuses an empty name only, which was refused above
    | (pm, none) =>
      ({ s with partyManager := pm }).sendErrorMessage user (ascii "The party creation failed!")
    | (pm, some party) =>
      (({ s with partyManager := pm }).setPartyId user party.partyId).sendServerMessage user
        (ascii "Party creation successful")

def handlePartyCreateLines (o : Oracle) (s : TcpServer) (user : SessionRef) (msg : ChatMessage) :
    List Bytes :=
  if msg.content = [] ∨ (s.sessions user).partyId ≠ 0 ∨
      s.partyManager.isPartyNameTaken o.iterOrder msg.content then []
  else s.partyManager.createPartyLines (s.sessions user).id msg.content

def handlePartyJoin (o : Oracle) (s : TcpServer) (user : SessionRef) (msg : ChatMessage) :
    TcpServer :=
  if msg.content = [] then s.sendErrorMessage user (ascii "The party name is empty.")
  else if (s.sessions user).partyId ≠ 0 then s.sendErrorMessage user (ascii "Already in a party.")
  else
    match s.partyManager.joinParty o.iterOrder (s.sessions user).id msg.content with
    | (pm, none) =>
      ({ s with partyManager := pm }).sendErrorMessage user (ascii "Party join Failed")
    | (pm, some party) =>
      (({ s with partyManager := pm }).setPartyId user party.partyId).sendServerMessage user
        (ascii "Party join successful")

def handlePartyJoinLines (o : Oracle) (s : TcpServer) (user : SessionRef) (msg : ChatMessage) :
    List Bytes :=
  if msg.content = [] ∨ (s.sessions user).partyId ≠ 0 then []
  else s.partyManager.joinPartyLines o.iterOrder (s.sessions user).id msg.content

/-- The loop of `HandlePartyDelete` over the users: nobody points to the deleted party. -/
def resetPartyIds (s : TcpServer) (partyId : UInt32) : TcpServer :=
  { s with sessions := fun u =>
      if u ∈ s.users ∧ (s.sessions u).partyId = partyId then (s.sessions u).setPartyId 0
      else s.sessions u }

def handlePartyDelete (o : Oracle) (s : TcpServer) (user : SessionRef) (msg : ChatMessage) :
    TcpServer :=
  if msg.content = [] then s.sendErrorMessage user (ascii "The party name is empty.")
  else
    let (pm, partyId) :=
      s.partyManager.deleteParty o.iterOrder (s.sessions user).id msg.content
    let s := { s with partyManager := pm }
    -- zero is a refusal; a party whose id is zero is deleted and reported as refused
    if partyId = 0 then s.sendErrorMessage user (ascii "Party delete Failed")
    else (s.resetPartyIds partyId).sendServerMessage user (ascii "Party delete successful")

def handlePartyDeleteLines (o : Oracle) (s : TcpServer) (user : SessionRef) (msg : ChatMessage) :
    List Bytes :=
  if msg.content = [] then []
  else s.partyManager.deletePartyLines o.iterOrder (s.sessions user).id msg.content

def handlePartyLeave (o : Oracle) (s : TcpServer) (user : SessionRef) (msg : ChatMessage) :
    TcpServer :=
  if msg.content = [] then s.sendErrorMessage user (ascii "The party name is empty.")
  else if (s.sessions user).partyId = 0 then s.sendErrorMessage user (ascii "Not in a party.")
  else
    match s.partyManager.leaveParty o.iterOrder (s.sessions user).id msg.content with
    -- also the answer when no party has the name
    | (pm, false) => ({ s with partyManager := pm }).sendErrorMessage user (ascii
        "Sorry, as the party leader, you cannot leave the party. Deletion is the only option.")
    | (pm, true) =>
      (({ s with partyManager := pm }).setPartyId user 0).sendServerMessage user
        (ascii "Party leave successful")

def handlePartyLeaveLines (o : Oracle) (s : TcpServer) (user : SessionRef) (msg : ChatMessage) :
    List Bytes :=
  if msg.content = [] ∨ (s.sessions user).partyId = 0 then []
  else s.partyManager.leavePartyLines o.iterOrder (s.sessions user).id msg.content

def handlePartyMessage (s : TcpServer) (user : SessionRef) (msg : ChatMessage) : TcpServer :=
  if msg.content = [] then
    s.sendErrorMessage user (ascii "The content of the party message is empty.")
  else
    match s.partyManager.findPartyById (s.sessions user).partyId with
    | none => s.sendErrorMessage user (ascii "It's a party not joined.")
    -- its members are found by account id, whatever party their sessions are in
    | some party => s.sendPartyMessage party msg

/-! ## Friends -/

/-- `std::to_string` of an account id. -/
def toString (id : UInt32) : Bytes := decimal id.toNat

/-- `HSThreadPool::EnqueueJob` and the `get` on its future: the caller waits for the
job and gets its value or its exception. -/
def enqueueJob {α : Type} (o : Oracle) (job : Sql α) : Sql α :=
  if o.stopAll then throw (.runtimeError (ascii "ThreadPool is Stoped")) else job

def validateRequest (o : Oracle) (user : UserSession) (msg : ChatMessage) : Sql Unit :=
  enqueueJob o do
    if msg.content = [] then throw (.runtimeError (ascii "The content of is empty."))
    if user.userEntity.userId = msg.content then
      throw (.runtimeError (ascii "You cannot send request to yourself."))

/-- `GetUserByConditions` never returns a null pointer, so `"User not found."` is unreachable. -/
def checkUserExistence (o : Oracle) (userId : Bytes) : Sql UserEntity :=
  enqueueJob o (MySQLManager.getUserByConditions o.users [⟨UserRow.userId, userId⟩])

def checkFriendRequestStatus (o : Oracle) (user : UserSession) (receiveUser : UserEntity) :
    Sql Unit :=
  enqueueJob o do
    if ← MySQLManager.hasFriendRequest (toString user.id) (toString receiveUser.id) then
      throw (.runtimeError (ascii "You have already sent a friend request to this user."))
    if ← MySQLManager.hasFriendRequest (toString receiveUser.id) (toString user.id) then
      throw (.runtimeError (ascii "This user has already sent you a friend request."))

def addFriendRequest (o : Oracle) (user : UserSession) (receiveUser : UserEntity) : Sql Unit :=
  enqueueJob o do
    if !(← MySQLManager.addFriendRequest o.unspecified (toString user.id)
        (toString receiveUser.id)) then
      throw (.runtimeError (ascii "Failed to create friend request."))

def processFriendAccept (o : Oracle) (user : UserSession) (sender : UserEntity) : Sql Unit :=
  enqueueJob o <|
    tryCatch
      (do
        MySQLManager.beginTransaction
        MySQLManager.updateFriend (toString sender.id) (toString user.id) (ascii "A")
        MySQLManager.addFriendship (toString sender.id) (toString user.id)
        MySQLManager.commitTransaction)
      fun _ => do
        -- a rollback that throws does so instead of what follows
        MySQLManager.rollbackTransaction
        throw (.runtimeError (ascii "Failed to process friend accept."))

def processFriendReject (o : Oracle) (user : UserSession) (sender : UserEntity) : Sql Unit :=
  enqueueJob o <|
    tryCatch
      (do
        MySQLManager.beginTransaction
        MySQLManager.deleteFriendRequest (toString sender.id) (toString user.id)
        MySQLManager.commitTransaction)
      fun _ => do
        MySQLManager.rollbackTransaction
        throw (.runtimeError (ascii "Failed to process friend reject."))

/-- Tells the other user, when one of the sessions is theirs, and then the requester. -/
def notifyBoth (s : TcpServer) (other : Bytes) (toOther : Bytes) (user : SessionRef)
    (toUser : Bytes) : TcpServer :=
  let s := match s.getUserByUserId other with
    | some session => s.sendServerMessage session toOther
    | none => s
  s.sendServerMessage user toUser

def notifyUsers (s : TcpServer) (user : SessionRef) (receiveUser : UserEntity) : TcpServer :=
  let requestUserId := (s.sessions user).userEntity.userId
  s.notifyBoth receiveUser.userId
    (ascii "Friend Request Received From [" ++ requestUserId ++ ascii "]. To accept, /fa " ++
      requestUserId)
    user (ascii "Success friend request message!")

def notifyAcceptUsers (s : TcpServer) (user : SessionRef) (sender : UserEntity) : TcpServer :=
  s.notifyBoth sender.userId
    (ascii "Your friend request to [" ++ (s.sessions user).userEntity.userId ++
      ascii "] has been accepted.")
    user (ascii "You have accepted the friend request from [" ++ sender.userId ++ ascii "].")

def notifyRejectUsers (s : TcpServer) (user : SessionRef) (sender : UserEntity) : TcpServer :=
  s.notifyBoth sender.userId
    (ascii "Your friend request to [" ++ (s.sessions user).userEntity.userId ++
      ascii "] has been rejected.")
    user (ascii "You have rejected the friend request from [" ++ sender.userId ++ ascii "].")

/-- `try { … } catch (const std::exception& e) { SendErrorMessage(user, e.what()); }`
around database work and the notification that follows it. -/
def tryOrReport {α : Type} (o : Oracle) (s : TcpServer) (user : SessionRef) (work : Sql α)
    (notify : TcpServer → α → TcpServer) : Except StdException TcpServer :=
  match Id.run (work.run.run { s.mySQLConnector with faults := o.sqlFaults }) with
  | (.ok value, db) => .ok (notify { s with mySQLConnector := db } value)
  | (.error e, db) => .ok (({ s with mySQLConnector := db }).sendErrorMessage user e.what)

def handleFriendRequest (o : Oracle) (s : TcpServer) (user : SessionRef) (msg : ChatMessage) :
    Except StdException TcpServer :=
  tryOrReport o s user
    (do
      validateRequest o (s.sessions user) msg
      let receiveUser ← checkUserExistence o msg.content
      checkFriendRequestStatus o (s.sessions user) receiveUser
      addFriendRequest o (s.sessions user) receiveUser
      return receiveUser)
    fun s receiveUser => s.notifyUsers user receiveUser

def handleFriendAccept (o : Oracle) (s : TcpServer) (user : SessionRef) (msg : ChatMessage) :
    Except StdException TcpServer :=
  tryOrReport o s user
    (do
      validateRequest o (s.sessions user) msg
      let sender ← checkUserExistence o msg.content
      processFriendAccept o (s.sessions user) sender
      return sender)
    fun s sender => s.notifyAcceptUsers user sender

def handleFriendReject (o : Oracle) (s : TcpServer) (user : SessionRef) (msg : ChatMessage) :
    Except StdException TcpServer :=
  tryOrReport o s user
    (do
      validateRequest o (s.sessions user) msg
      let sender ← checkUserExistence o msg.content
      processFriendReject o (s.sessions user) sender
      return sender)
    fun s sender => s.notifyRejectUsers user sender

/-! ## Dispatch -/

/-- `TcpServer::OnMessage`: the state after the handler returned, or the exception it let out. -/
def onMessage (o : Oracle) (s : TcpServer) (user : SessionRef) (msg : ChatMessage) :
    Except StdException TcpServer :=
  match msg.messageType with
  | .serverPing => s.handleServerPing msg
  | .allMessage => .ok (s.handleAllMessage msg)
  | .partyCreate => logged (s.handlePartyCreateLines o user msg) (s.handlePartyCreate o user msg)
  | .partyDelete => logged (s.handlePartyDeleteLines o user msg) (s.handlePartyDelete o user msg)
  | .partyJoin => logged (s.handlePartyJoinLines o user msg) (s.handlePartyJoin o user msg)
  | .partyLeave => logged (s.handlePartyLeaveLines o user msg) (s.handlePartyLeave o user msg)
  | .partyMessage => .ok (s.handlePartyMessage user msg)
  | .whisperMessage => .ok (s.handleWhisperMessage user msg)
  | .friendRequest => s.handleFriendRequest o user msg
  | .friendAccept => s.handleFriendAccept o user msg
  | .friendReject => s.handleFriendReject o user msg
  | _ => .ok (s.sendErrorMessage user (ascii "Unknown message type received."))

end TcpServer

end BoostChat.Server
