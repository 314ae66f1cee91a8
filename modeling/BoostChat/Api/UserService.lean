import BoostChat.Api.Repository

/-!
# The requests of the API server

`UserController` with `UserWriteService` and `UserReadService`. A request runs from one
`await` to the next: `begin` takes it to its first one that other requests' writes may
overtake, `proceed` takes a waiting request, a `Task`, to its next. `handle` serves a
request without interruption.
-/

namespace BoostChat.Api

open UserRepository

structure CreateUserRequest where
  userId : Bytes
  password : Bytes
  username : Bytes
  email : Bytes
deriving DecidableEq

structure UpdateUserRequest where
  userId : Bytes
  password : Bytes
  toBePassword : Bytes := []
  toBeUsername : Bytes := []
  toBeEmail : Bytes := []
deriving DecidableEq

structure DeleteUserRequest where
  userId : Bytes
  password : Bytes
deriving DecidableEq

structure LoginRequest where
  userId : Bytes
  password : Bytes
deriving DecidableEq

inductive Request
  | create (request : CreateUserRequest)
  | update (request : UpdateUserRequest)
  | delete (request : DeleteUserRequest)
  | login (request : LoginRequest)
  | getUser (userId : Bytes)
deriving DecidableEq

/-- The message that a response packs. -/
inductive Content
  | createUserRequest (request : CreateUserRequest)
  | loginResponse (serverIp serverPort sessionId : Bytes)
  | getUserResponse (userId username email : Bytes)
deriving DecidableEq

structure UserResponse where
  status : UserStatusCode
  message : Bytes
  content : Option Content := none
deriving DecidableEq

abbrev Outcome := Except ApiException UserResponse

instance : DecidableEq Outcome := inferInstanceAs (DecidableEq (Except _ _))

/-- The response to a call that succeeded, or the exception that is thrown. -/
def answer (status : UserStatusCode) (refusal : ApiException) (response : UserResponse) :
    Outcome :=
  if status = .success then .ok response else .error refusal

/-- A request that waits, with its local variables. -/
inductive Task
  | insert (request : CreateUserRequest) (userDto : UserDto)
  | update (userInfo : UserDto)
  | delete (userInfo : UserDto)
  | getAccount (sessionId : Bytes) (accountId : Nat)
  | transact (sessionId : Bytes) (accountId : Nat) (existing : Option Bytes)
deriving DecidableEq

inductive Progress
  | done (outcome : Outcome)
  | more (task : Task)
deriving DecidableEq

/-- What the API server and its stores hold. -/
structure ApiServer where
  context : HStarContext
  redis : Redis

variable (pbkdf2 : Pbkdf2)

/-- The user that `CreateUser` hands to the repository. -/
def newUser (w : World) (request : CreateUserRequest) : UserDto where
  userId := request.userId
  password := PasswordHelper.hashPassword pbkdf2 w.salt request.password
  username := request.username
  email := request.email
  isAlive := ascii "Y"

/-- Only the fields that the request sets are changed. -/
def changedUser (w : World) (request : UpdateUserRequest) (userInfo : UserDto) : UserDto :=
  { userInfo with
    password :=
      if request.toBePassword ≠ [] then
        some (PasswordHelper.hashPassword pbkdf2 w.salt request.toBePassword)
      else userInfo.password
    username := if request.toBeUsername ≠ [] then request.toBeUsername else userInfo.username
    email := if request.toBeEmail ≠ [] then request.toBeEmail else userInfo.email }

/-- The soft deletion. -/
def deletedUser (userInfo : UserDto) : UserDto := { userInfo with isAlive := ascii "N" }

/-- `ValidateUserCredentials` at the start of a request, which throws `refusal` unless it
succeeds. -/
def validated (w : World) (api : ApiServer) (userId password : Bytes) (refusal : ApiException)
    (next : UserDto → Task) : Progress :=
  match validateUserCredentials pbkdf2 w api.context userId password with
  | .error e => .done (.error e)
  | .ok (.success, some userInfo) => .more (next userInfo)
  | .ok _ => .done (.error refusal)

def loginFailed : ApiException :=
  .userValidation (ascii "An error occurred while logging in the User")

/-- The beginning of a request. -/
def begin (w : World) (api : ApiServer) : Request → ApiServer × Progress
  | .create request =>
    match createUserLookup w api.context (newUser pbkdf2 w request) with
    | (ctx, .error e) => ({ api with context := ctx }, .done (.error e))
    -- the status of the look-up is not passed on
    | (ctx, .ok (some _)) =>
      ({ api with context := ctx }, .done (.error (.userValidation (ascii "User creation failed"))))
    | (ctx, .ok none) =>
      ({ api with context := ctx }, .more (.insert request (newUser pbkdf2 w request)))
  | .update request =>
    (api, validated pbkdf2 w api request.userId request.password
      (.userValidation (ascii "User not found or invalid credentials"))
      fun userInfo => .update (changedUser pbkdf2 w request userInfo))
  | .delete request =>
    (api, validated pbkdf2 w api request.userId request.password
      (.userNotFound (ascii "User not found or invalid credentials"))
      fun userInfo => .delete (deletedUser userInfo))
  | .login request =>
    (api, validated pbkdf2 w api request.userId request.password
      (.userValidation (ascii "User validation failed"))
      fun userInfo => .getAccount w.sessionId userInfo.id)
  | .getUser userId =>
    (api, .done <|
      match getUserFromUserid w api.context userId with
      | .error e => .error e
      | .ok (.success, some storedUser) => .ok {
          status := .success
          message := ascii "User retrieved successfully"
          content := some (.getUserResponse storedUser.userId storedUser.username
            storedUser.email) }
      | .ok _ => .error (.userNotFound (ascii "An error occurred while getting the User")))

/-- The answer to a request by the status of its last call. -/
def respond (status : UserStatusCode) : Task → Outcome
  | .insert request _ => answer status (.userValidation (ascii "User creation failed")) {
      status := status
      message := ascii "User created successfully"
      content := some (.createUserRequest request) }
  | .update _ => answer status (.userValidation (ascii "Failed to update user")) {
      status := status
      message := ascii "User updated successfully" }
  | .delete _ => answer status (.userValidation (ascii "Failed to delete user")) {
      status := status
      message := ascii "User deleted successfully" }
  | .getAccount sessionId _ | .transact sessionId _ _ => answer status loginFailed {
      status := .success
      message := ascii "User login successfully"
      content := some (.loginResponse (ascii "127.0.0.1") (ascii "4242") sessionId) }

/-- A waiting request goes on. -/
def proceed (w : World) (api : ApiServer) (task : Task) : ApiServer × Progress :=
  match task with
  | .insert _ userDto =>
    let (ctx, status) := createUserInsert w api.context userDto
    ({ api with context := ctx }, .done (respond status task))
  | .update userInfo =>
    let (ctx, status) := updateUser w api.context userInfo
    ({ api with context := ctx }, .done (respond status task))
  | .delete userInfo =>
    let (ctx, status) := deleteUser w api.context userInfo
    ({ api with context := ctx }, .done (respond status task))
  | .getAccount sessionId accountId =>
    if w.getOk then
      -- `HasValue` is false for an empty text as well
      (api, .more (.transact sessionId accountId
        ((api.redis (CacheRepository.accountKey accountId)).filter fun id => !id.isEmpty)))
    -- `CreateSession` catches everything
    else (api, .done (respond .serverError task))
  | .transact sessionId accountId existing =>
    let (redis, status) :=
      CacheRepository.executeTransaction w api.redis sessionId accountId existing
    ({ api with redis := redis }, .done (respond status task))

/-- Nothing happens to a request that is done. -/
def next (w : World) : ApiServer × Progress → ApiServer × Progress
  | (api, .more task) => proceed w api task
  | (api, .done outcome) => (api, .done outcome)

/-- A request that nothing interrupts. -/
def handle (w : World) (api : ApiServer) (request : Request) : ApiServer × Progress :=
  next w (next w (begin pbkdf2 w api request))

/-! ## An account -/

/-- A salt: the bytes 1 to 16. -/
def salt : Bytes := (List.range' 1 16).map (·.toUInt8)

/-- The keys that PBKDF2 derives from that salt and the passwords of the examples. -/
def derivedKeys : List (Bytes × Bytes) :=
  [(ascii "secret", [83, 69, 149, 69, 58, 124, 13, 250, 200, 112, 171, 230, 134, 19, 100, 113,
      74, 221, 252, 245, 247, 58, 131, 237, 42, 76, 19, 102, 75, 12, 126, 159]),
    (ascii "other", [46, 50, 46, 222, 139, 167, 29, 215, 221, 156, 17, 154, 91, 210, 140, 171,
      35, 156, 147, 66, 189, 85, 216, 76, 34, 235, 56, 70, 134, 117, 126, 254]),
    (ascii "new", [192, 237, 252, 169, 2, 43, 227, 153, 80, 198, 209, 62, 4, 168, 43, 176,
      200, 242, 140, 114, 174, 253, 106, 149, 106, 255, 102, 201, 175, 101, 89, 32]),
    (ascii "guess", [205, 197, 53, 84, 27, 80, 35, 0, 26, 69, 102, 103, 21, 63, 208, 159,
      79, 186, 151, 112, 104, 73, 157, 63, 214, 15, 67, 36, 175, 21, 245, 251])]

/-- The key derivation on the passwords and the one salt that the examples use. -/
def secretPbkdf2 : Pbkdf2 := fun password s =>
  if s = salt then (derivedKeys.lookup password).getD [] else []

def ann : UserRow where
  id := 1
  userId := ascii "ann"
  password := PasswordHelper.hashPassword secretPbkdf2 salt (ascii "secret")
  username := ascii "Ann"
  email := ascii "ann@chat"
  isAlive := ascii "Y"

example : ann.password =
    ascii "AQIDBAUGBwgJCgsMDQ4PEA==:U0WVRTp8DfrIcKvmhhNkcUrd/PX3OoPtKkwTZksMfp8=" := by decide

end BoostChat.Api
