import BoostChat.Api.HStarContext
import BoostChat.Api.PasswordHelper
import BoostChat.Lib.Decimal

/-!
# The repositories

`UserRepositoryFromMysql` and `CacheRepositoryFromRedis`. What the outside answers to a
request comes in its `World`. A method that awaits twice is cut in two where other
requests may run in between: `CreateUser` after its look-up, `CreateSession` after
its `StringGet`.
-/

namespace BoostChat.Api

open Lib

inductive UserStatusCode
  | success
  | userIdAlreadyExists
  | userNotExists
  | differentPassword
  | failure
  | none
  | serverError
deriving DecidableEq

/-- `UserDto`; what is not set is `null`. -/
structure UserDto where
  id : Nat := 0
  userId : Bytes
  password : Option Bytes := none
  username : Option Bytes := none
  email : Option Bytes := none
  isAlive : Option Bytes := none
deriving DecidableEq

/-- The outcome of the Redis transaction of a request. -/
inductive Exec
  | ok
  /-- The call throws and the transaction was not executed. -/
  | lost
  /-- The call throws although the transaction was executed. -/
  | unconfirmed
deriving DecidableEq

/-- What the outside answers to one request. -/
structure World extends SaveWorld where
  /-- The query of `ValidateUserCredentials`, or the only query of the request. -/
  readOk : Bool := true
  /-- The query of `UpdateUser` or `DeleteUser`. -/
  queryOk : Bool := true
  salt : Bytes := []
  /-- The text of the new GUID. -/
  sessionId : Bytes := []
  getOk : Bool := true
  exec : Exec := .ok
deriving DecidableEq

/-- An exception of a query. -/
def queryFailed : ApiException := .unknown (ascii "The query failed.")

namespace UserRepository

/-- `CreateUser` up to the look-up; a status ends it. -/
def createUserLookup (w : World) (ctx : HStarContext) (userDto : UserDto) :
    HStarContext × Except ApiException (Option UserStatusCode) :=
  match ctx.single w.readOk userDto.userId with
  | (ctx, none) => (ctx, .error queryFailed)
  | (ctx, some (some _)) => (ctx, .ok (some .userIdAlreadyExists))
  | (ctx, some none) => (ctx, .ok none)

/-- The entity that `CreateUser` adds. -/
def newEntity (userDto : UserDto) : UserEntity where
  userId := userDto.userId
  password := userDto.password
  username := userDto.username
  email := userDto.email
  isAlive := userDto.isAlive

/-- `SaveChangesAsync` inside a `try`. -/
def save (w : World) (ctx : HStarContext) : HStarContext × UserStatusCode :=
  match ctx.saveChanges w.toSaveWorld with
  | (ctx, true) => (ctx, .success)
  | (ctx, false) => (ctx, .failure)

/-- `CreateUser` from the insertion on. -/
def createUserInsert (w : World) (ctx : HStarContext) (userDto : UserDto) :
    HStarContext × UserStatusCode :=
  save w (ctx.add (newEntity userDto))

def getUserFromUserid (w : World) (ctx : HStarContext) (id : Bytes) :
    Except ApiException (UserStatusCode × Option UserRow) :=
  match ctx.singleNoTracking w.readOk id with
  | none => .error queryFailed
  | some none => .ok (.userNotExists, none)
  | some (some storedUser) =>
    if storedUser.isAlive = ascii "N" then .ok (.userNotExists, none)
    else .ok (.success, some storedUser)

/-- The user that `ValidateUserCredentials` returns: the password is left out. -/
def userInfoOf (storedUser : UserRow) : UserDto where
  id := storedUser.id
  userId := storedUser.userId
  username := storedUser.username
  email := storedUser.email
  isAlive := storedUser.isAlive

def validateUserCredentials (pbkdf2 : Pbkdf2) (w : World) (ctx : HStarContext)
    (userId password : Bytes) : Except ApiException (UserStatusCode × Option UserDto) :=
  match ctx.singleNoTracking w.readOk userId with
  | none => .error queryFailed
  | some none => .ok (.userNotExists, none)
  | some (some storedUser) =>
    if storedUser.isAlive = ascii "N" then .ok (.userNotExists, none)
    else
      match PasswordHelper.verifyPassword pbkdf2 storedUser.password password with
      | .error e => .error e
      | .ok false => .ok (.differentPassword, none)
      | .ok true => .ok (.success, some (userInfoOf storedUser))

/-- The assignments of `UpdateUser`. -/
def assignUpdate (userDto : UserDto) (e : UserEntity) : UserEntity :=
  { e with
    password := userDto.password
    username := userDto.username
    email := userDto.email
    isAlive := userDto.isAlive }

/-- The assignment of `DeleteUser`. -/
def assignDelete (userDto : UserDto) (e : UserEntity) : UserEntity :=
  { e with isAlive := userDto.isAlive }

/-- What `UpdateUser` and `DeleteUser` do up to `SaveChangesAsync`: the context that is about
to be saved, or, as an error, the one that they leave without getting there. -/
def stage (assign : UserDto → UserEntity → UserEntity) (w : World) (ctx : HStarContext)
    (userDto : UserDto) : Except HStarContext HStarContext :=
  match ctx.single w.queryOk userDto.userId with
  | (ctx, some (some id)) => .ok (ctx.update id (assign userDto))
  | (ctx, _) => .error ctx

/-- `UpdateUser` and `DeleteUser`, which differ in their assignments. -/
def change (assign : UserDto → UserEntity → UserEntity) (w : World) (ctx : HStarContext)
    (userDto : UserDto) : HStarContext × UserStatusCode :=
  match stage assign w ctx userDto with
  | .ok ctx => save w ctx
  | .error ctx => (ctx, .failure)

def updateUser : World → HStarContext → UserDto → HStarContext × UserStatusCode :=
  change assignUpdate

def deleteUser : World → HStarContext → UserDto → HStarContext × UserStatusCode :=
  change assignDelete

end UserRepository

/-- The string keys that exist in Redis. -/
abbrev Redis := Bytes → Option Bytes

namespace CacheRepository

def accountKey (accountId : Nat) : Bytes := ascii "Account:" ++ decimal accountId

def sessionKey (sessionId : Bytes) : Bytes := ascii "Session:" ++ sessionId

theorem sessionKey_inj {sessionId sessionId' : Bytes} :
    sessionKey sessionId = sessionKey sessionId' ↔ sessionId = sessionId' :=
  List.append_right_inj _

theorem sessionKey_ne_accountKey (sessionId : Bytes) (accountId : Nat) :
    sessionKey sessionId ≠ accountKey accountId := by
  have hsession : (sessionKey sessionId).head? = some 83 := rfl
  have haccount : (accountKey accountId).head? = some 65 := rfl
  intro h
  rw [h, haccount] at hsession
  exact absurd hsession (by decide)

theorem accountKey_inj {accountId accountId' : Nat} :
    accountKey accountId = accountKey accountId' ↔ accountId = accountId' := by
  rw [accountKey, accountKey, List.append_right_inj]
  exact ⟨fun h => decimal_injective h, congrArg decimal⟩

/-- The two `StringSet`s that both transactions end with. -/
def storeSession (redis : Redis) (sessionId : Bytes) (accountId : Nat) : Redis :=
  Function.update (Function.update redis (sessionKey sessionId) (some (decimal accountId)))
    (accountKey accountId) (some sessionId)

/-- The transaction of `CreateSession`: the keys afterwards, or `none` when its conditions
fail. The account's key held `existing` when it was read. -/
def transaction (redis : Redis) (sessionId : Bytes) (accountId : Nat) :
    Option Bytes → Option Redis
  -- no condition: whatever the keys hold by now is overwritten
  | some existingSessionId =>
    some (storeSession (Function.update redis (sessionKey existingSessionId) none) sessionId
      accountId)
  | none =>
    if redis (sessionKey sessionId) = none ∧ redis (accountKey accountId) = none then
      some (storeSession redis sessionId accountId)
    else none

/-- `CreateSession` from its transaction on. -/
def executeTransaction (w : World) (redis : Redis) (sessionId : Bytes) (accountId : Nat)
    (existing : Option Bytes) : Redis × UserStatusCode :=
  match transaction redis sessionId accountId existing with
  -- awaiting the commands throws, so `Failure` is never returned
  | none => (redis, .serverError)
  | some after =>
    match w.exec with
    | .ok => (after, .success)
    | .lost => (redis, .serverError)
    | .unconfirmed => (after, .serverError)

end CacheRepository

end BoostChat.Api
