import BoostChat.Server.UserSession
import BoostChat.Lib.Decimal

/-!
# The MySQL connection

`MySQLManager`: the friend tables behind one shared connection, with the
connection's autocommit mode. `committed` is what the database holds durably,
`working` what this connection sees. The environment decides the result of every
call of the C API: `faults` lists them in order, `some message` for a failure, and
calls beyond the end of the list succeed.

An SQL statement is the function on the tables that it computes, with the number
of affected rows; an `UPDATE` counts the rows it changes.
-/

namespace BoostChat.Server

open Lib

structure FriendRequestRow where
  senderId : Bytes
  receiverId : Bytes
  status : Bytes
deriving DecidableEq

structure FriendshipRow where
  userId1 : Bytes
  userId2 : Bytes
deriving DecidableEq

structure Tables where
  friendRequests : List FriendRequestRow := []
  friendships : List FriendshipRow := []
deriving DecidableEq

structure MySQLManager where
  committed : Tables := {}
  working : Tables := {}
  autocommit : Bool := true
  faults : List (Option Bytes) := []
deriving DecidableEq

/-- Code that uses the connection and may throw; what it did before a throw stays done. -/
abbrev Sql := ExceptT StdException (StateM MySQLManager)

namespace MySQLManager

/-- One call of the C API: `some message` when it fails. -/
def call : Sql (Option Bytes) := do
  let db ← get
  match db.faults with
  | [] => return none
  | outcome :: faults =>
    set { db with faults := faults }
    return outcome

/-- A call whose failure is thrown with the connection's error message. -/
def callOrThrow : Sql Unit := do
  if let some error ← call then throw (.runtimeError error)

/-- Executes a statement; in autocommit mode its effect is durable at once. -/
def runStatement (query : Tables → Tables × Nat) : Sql Nat := do
  let db ← get
  let (tables, numRowsAffected) := query db.working
  set { db with
    working := tables
    committed := if db.autocommit then tables else db.committed }
  return numRowsAffected

/-- `mysql_stmt_init`, `mysql_stmt_prepare`, `mysql_stmt_bind_param` and the
acknowledgement of `mysql_stmt_execute`, each of which may fail. -/
def openStatement : Sql Unit := do
  if (← call).isSome then throw (.runtimeError (ascii "Failed to initialize statement"))
  callOrThrow
  callOrThrow
  callOrThrow

def executePreparedStatement (query : Tables → Tables × Nat) : Sql Unit := do
  openStatement
  let numRowsAffected ← runStatement query
  -- `mysql_stmt_store_result`: the statement has already taken effect here
  callOrThrow
  if numRowsAffected < 1 then
    throw (.runtimeError (ascii "Failed to get number of rows affected"))

/-- Runs a statement and rethrows a failure behind a text of its own. -/
def executeOr (failure : String) (query : Tables → Tables × Nat) : Sql Unit :=
  tryCatch (executePreparedStatement query) fun e =>
    throw (.runtimeError (ascii failure ++ e.what))

/-- `AddFriendRequest` ends without a `return`: on success its value is `unspecified`. -/
def addFriendRequest (unspecified : Bool) (senderId receiverId : Bytes) : Sql Bool := do
  executeOr "Failed to add user: " fun t =>
    ({ t with friendRequests := t.friendRequests ++ [⟨senderId, receiverId, ascii "P"⟩] }, 1)
  return unspecified

/-- `UPDATE friend_requests SET status = ? WHERE sender_id = ? AND receiver_id = ?`. -/
def updateFriend (senderId receiverId status : Bytes) : Sql Unit :=
  executeOr "Failed to update user: " fun t =>
    let hit (row : FriendRequestRow) : Bool :=
      row.senderId == senderId && row.receiverId == receiverId
    ({ t with friendRequests := t.friendRequests.map fun row =>
        if hit row then { row with status := status } else row },
      t.friendRequests.countP fun row => hit row && row.status != status)

/-- `DELETE FROM friend_requests WHERE sender_id = ? AND receiver_id = ?`. -/
def deleteFriendRequest (senderId receiverId : Bytes) : Sql Unit :=
  executeOr "Failed to update user: " fun t =>
    let hit (row : FriendRequestRow) : Bool :=
      row.senderId == senderId && row.receiverId == receiverId
    ({ t with friendRequests := t.friendRequests.filter fun row => !hit row },
      t.friendRequests.countP hit)

/-- `AddFriendship`; nothing looks at the value it fails to return. -/
def addFriendship (userId1 userId2 : Bytes) : Sql Unit :=
  executeOr "Failed to add user: " fun t =>
    ({ t with friendships := t.friendships ++ [⟨userId1, userId2⟩] }, 1)

/-- The requests from one user to another that are pending or accepted. -/
def countFriendRequests (t : Tables) (senderId receiverId : Bytes) : Nat :=
  t.friendRequests.countP fun row =>
    row.senderId == senderId && row.receiverId == receiverId &&
      (row.status == ascii "P" || row.status == ascii "A")

/-- `HasFriendRequest`: every failure is caught here and answered with `false`. -/
def hasFriendRequest (senderId receiverId : Bytes) : Sql Bool :=
  tryCatch
    (do
      openStatement
      -- `mysql_stmt_bind_result`, `mysql_stmt_fetch`
      callOrThrow
      callOrThrow
      return decide (0 < countFriendRequests (← get).working senderId receiverId))
    fun _ => return false

/-- The buffers of `GetUserById` hold the row, and the columns that are read as strings a
terminator; a longer column is reported by `mysql_stmt_fetch` as truncated. -/
def fitsBuffers (row : UserRow) : Bool :=
  row.userId.length < 100 && row.password.length ≤ 255 && row.username.length < 100 &&
    row.email.length < 255 && row.isAlive.length ≤ 1

/-- The entity filled from a fetched row, whose texts are read out of `char` buffers; the
password is not copied. -/
def entityOfRow (row : UserRow) : UserEntity where
  id := row.id.toUInt32
  userId := cString row.userId
  username := cString row.username
  email := cString row.email
  isAlive := row.isAlive.headD 0

/-- The part `GetUserById` and `GetUserByConditions` share: select, fetch the first
row and fill an entity, or throw `notFound`. -/
def fetchUser (users : List UserRow) (selects : UserRow → Bool) (notFound : Bytes) :
    Sql UserEntity := do
  openStatement
  -- `mysql_stmt_bind_result`, then `mysql_stmt_fetch`
  callOrThrow
  let fetched ← call
  match fetched, users.find? selects with
  | none, some row =>
    if fitsBuffers row then return entityOfRow row
    else throw (.runtimeError notFound)
  | _, _ => throw (.runtimeError notFound)

/-- `GetUserById`: the account whose key has this decimal text. -/
def getUserById (users : List UserRow) (requestId : Bytes) : Sql UserEntity :=
  fetchUser users (fun row => decimal row.id == requestId)
    (ascii "User with id " ++ requestId ++ ascii " not found")

/-- A computation that returned ran all of its parts to their ends. -/
theorem bind_ok {α β : Type} {x : Sql α} {f : α → Sql β} {db : MySQLManager} {b : β}
    (h : (Id.run ((x >>= f).run.run db)).1 = .ok b) :
    ∃ a db', (Id.run ((f a).run.run db')).1 = .ok b := by
  rw [ExceptT.run_bind, StateT.run_bind, Id.run_bind] at h
  rcases hx : Id.run (x.run.run db) with ⟨e | a, db'⟩
  · rw [hx] at h
    cases h
  · rw [hx] at h
    exact ⟨a, db', h⟩

/-- An entity that `fetchUser` returns is filled from the first row that is selected. -/
theorem fetchUser_ok {users : List UserRow} {selects : UserRow → Bool} {notFound : Bytes}
    {db : MySQLManager} {userEntity : UserEntity}
    (h : (Id.run ((fetchUser users selects notFound).run.run db)).1 = .ok userEntity) :
    ∃ row, users.find? selects = some row ∧ userEntity = entityOfRow row := by
  obtain ⟨-, db₁, h⟩ := bind_ok h
  obtain ⟨-, db₂, h⟩ := bind_ok h
  obtain ⟨fetched, db₃, h⟩ := bind_ok h
  split at h
  · rename_i row hfind
    split at h
    · exact ⟨row, hfind, (Except.ok.inj h).symm⟩
    · cases h
  · cases h

structure Condition where
  column : UserRow → Bytes
  value : Bytes

/-- `GetUserByConditions`: the first row that meets all conditions. -/
def getUserByConditions (users : List UserRow) (conditions : List Condition) : Sql UserEntity :=
  fetchUser users (fun row => conditions.all fun c => c.column row == c.value)
    (ascii "User not found with given conditions")

def beginTransaction : Sql Unit := do
  if let some error ← call then
    throw (.runtimeError (ascii "Failed to start transaction: " ++ error))
  -- the call was `mysql_autocommit(false)`
  modify fun db => { db with autocommit := false }

/-- `mysql_autocommit(true)`, whose result is ignored; switching it on commits. -/
def restoreAutocommit : Sql Unit := do
  if (← call).isNone then
    modify fun db => { db with autocommit := true, committed := db.working }

def commitTransaction : Sql Unit := do
  if let some error ← call then
    throw (.runtimeError (ascii "Failed to commit transaction: " ++ error))
  modify fun db => { db with committed := db.working }
  restoreAutocommit

def rollbackTransaction : Sql Unit := do
  if let some error ← call then
    throw (.runtimeError (ascii "Failed to rollback transaction: " ++ error))
  modify fun db => { db with working := db.committed }
  restoreAutocommit

end MySQLManager

end BoostChat.Server
