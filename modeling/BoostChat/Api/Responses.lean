import BoostChat.Api.UserService
import BoostChat.Lib.Wire

/-!
# What the API server sends back

A request ends with a `UserResponse` or an exception. `GlobalExceptionFilter` turns the
exception into a `UserErrorResponse`, and `ProtobufOutputFormatter` writes the one or
the other into the body of the HTTP response.

Texts are the bytes of their UTF-8 encodings. The messages are written by the code that
`protoc` generates from `UserMessage.proto`: the fields in the order of their numbers,
those with default values left out.
-/

namespace BoostChat.Api

open Lib.Wire

def UserStatusCode.number : UserStatusCode → Nat
  | .success => 0
  | .userIdAlreadyExists => 1
  | .userNotExists => 2
  | .differentPassword => 3
  | .failure => 4
  | .none => 90
  | .serverError => 99

/-! ## Messages -/

/-- The name of the message type. -/
def Content.fullName : Content → Bytes
  | .createUserRequest _ => ascii "CreateUserRequest"
  | .loginResponse .. => ascii "LoginResponse"
  | .getUserResponse .. => ascii "GetUserResponse"

def Content.typeUrl (content : Content) : Bytes :=
  ascii "type.googleapis.com/" ++ content.fullName

theorem Content.typeUrl_spec (content : Content) : content.typeUrl.all (· < 0x80) = true ∧
    content.typeUrl.length ≤ 64 ∧ content.typeUrl ≠ [] := by
  have hname : content.fullName = ascii "CreateUserRequest" ∨
      content.fullName = ascii "LoginResponse" ∨ content.fullName = ascii "GetUserResponse" := by
    cases content with
    | createUserRequest => exact Or.inl rfl
    | loginResponse => exact Or.inr (Or.inl rfl)
    | getUserResponse => exact Or.inr (Or.inr rfl)
  rw [Content.typeUrl]
  rcases hname with h | h | h <;> rw [h] <;> decide

def Content.fields : Content → List Field
  | .createUserRequest request =>
    bytesField 1 request.userId ++ bytesField 2 request.password ++
      bytesField 3 request.username ++ bytesField 4 request.email
  | .loginResponse serverIp serverPort sessionId =>
    bytesField 1 serverIp ++ bytesField 2 serverPort ++ bytesField 3 sessionId
  | .getUserResponse userId username email =>
    bytesField 1 userId ++ bytesField 2 username ++ bytesField 3 email

/-- `Any.Pack`: the type URL and the encoded message. -/
def Content.pack (content : Content) : List Field :=
  bytesField 1 content.typeUrl ++ bytesField 2 (encode content.fields)

def UserResponse.fields (response : UserResponse) : List Field :=
  enumField 1 response.status.number ++ bytesField 2 response.message ++
    match response.content with
    | none => []
    | some content => [⟨3, .bytes (encode content.pack)⟩]

structure UserErrorResponse where
  message : Bytes
deriving DecidableEq

def UserErrorResponse.fields (response : UserErrorResponse) : List Field :=
  bytesField 1 response.message

/-! ## Exceptions -/

/-- The type of an exception, as far as the filter distinguishes it. -/
inductive ExceptionType
  | userNotFoundException
  | userValidationException
  | serverException
  | other
deriving DecidableEq

structure ThrownException where
  exceptionType : ExceptionType
  message : Bytes
deriving DecidableEq

def ApiException.thrown : ApiException → ThrownException
  | .userNotFound message => ⟨.userNotFoundException, message⟩
  | .userValidation message => ⟨.userValidationException, message⟩
  | .unknown message => ⟨.other, message⟩

namespace GlobalExceptionFilter

/-- `OnException`: the status code and the message of the response. -/
def onException (exception : ThrownException) : Nat × UserErrorResponse :=
  match exception.exceptionType with
  | .userNotFoundException => (404, ⟨exception.message⟩)
  | .userValidationException => (400, ⟨exception.message⟩)
  | .serverException => (500, ⟨exception.message⟩)
  | .other => (500, ⟨ascii "An unexpected error occurred."⟩)

end GlobalExceptionFilter

/-! ## Responses -/

structure HttpResponse where
  statusCode : Nat
  body : Bytes
deriving DecidableEq

/-- `Array.MaxLength`. -/
def arrayMaxLength : Nat := 0x7FFFFFC7

/-- `ProtobufOutputFormatter::WriteResponseBodyAsync`: the `MemoryStream` that the message
is first written to is backed by an array. -/
def writeResponseBody (message : List Field) : Option Bytes :=
  if (encode message).length ≤ arrayMaxLength then some (encode message) else none

/-- The response to a request that ended in this way. -/
def httpResponse : Except ThrownException UserResponse → Option HttpResponse
  | .ok response => (writeResponseBody response.fields).map (⟨200, ·⟩)
  | .error exception =>
    let (statusCode, response) := GlobalExceptionFilter.onException exception
    (writeResponseBody response.fields).map (⟨statusCode, ·⟩)

/-- The message in the response. -/
def sentMessage : Except ThrownException UserResponse → List Field
  | .ok response => response.fields
  | .error exception => (GlobalExceptionFilter.onException exception).2.fields

theorem sentMessage_written (outcome : Except ThrownException UserResponse) :
    ∀ f ∈ sentMessage outcome, Written f := by
  intro f hf
  cases outcome with
  | error exception => exact written_bytesField (by omega) (by omega) _ f hf
  | ok response =>
    rcases List.mem_append.mp hf with hf | hf
    · have hstatus : response.status.number < 2 ^ 64 := by
        cases response.status <;> decide
      rcases List.mem_append.mp hf with hf | hf
      · exact written_enumField (by omega) (by omega) hstatus f hf
      · exact written_bytesField (by omega) (by omega) _ f hf
    · cases hcontent : response.content with
      | none => simp [hcontent] at hf
      | some content =>
        rw [hcontent] at hf
        exact List.mem_singleton.mp hf ▸ .bytes (by omega) (by omega)

theorem pack_written (content : Content) : ∀ f ∈ content.pack, Written f := by
  intro f hf
  rcases List.mem_append.mp hf with hf | hf <;>
    exact written_bytesField (by omega) (by omega) _ f hf

/-- A packed message is smaller than the `Any`. -/
theorem fields_le_pack (content : Content) :
    (encode content.fields).length ≤ (encode content.pack).length := by
  by_cases hnil : encode content.fields = []
  · rw [hnil]
    exact Nat.zero_le _
  · refine bytes_le_encode 2 ?_
    rw [Content.pack, bytesField, bytesField, if_neg hnil]
    exact List.mem_append_right _ List.mem_cons_self

theorem loginResponse_written (serverIp serverPort sessionId : Bytes) :
    ∀ f ∈ (Content.loginResponse serverIp serverPort sessionId).fields, Written f := by
  intro f hf
  rcases List.mem_append.mp hf with hf | hf
  · rcases List.mem_append.mp hf with hf | hf <;>
      exact written_bytesField (by omega) (by omega) _ f hf
  · exact written_bytesField (by omega) (by omega) _ f hf

/-- Every response is an encoded message that fits an array. -/
theorem httpResponse_eq_some {outcome : Except ThrownException UserResponse} {res : HttpResponse}
    (h : httpResponse outcome = some res) :
    res.body = encode (sentMessage outcome) ∧
      (encode (sentMessage outcome)).length ≤ arrayMaxLength := by
  have hwritten : ∀ {message : List Field} {statusCode : Nat},
      (writeResponseBody message).map (⟨statusCode, ·⟩) = some res →
        res.body = encode message ∧ (encode message).length ≤ arrayMaxLength := by
    intro message statusCode h
    obtain ⟨body, hbody, rfl⟩ := Option.map_eq_some_iff.mp h
    obtain ⟨hlen, hbody⟩ := Option.ite_none_right_eq_some.mp hbody
    exact ⟨(Option.some.inj hbody).symm, hlen⟩
  cases outcome with
  | ok response => exact hwritten h
  | error exception => exact hwritten h

def sentStatusCode : Except ThrownException UserResponse → Nat
  | .ok _ => 200
  | .error exception => (GlobalExceptionFilter.onException exception).1

/-- A message that fits an array is sent. -/
theorem httpResponse_of_le {outcome : Except ThrownException UserResponse}
    (h : (encode (sentMessage outcome)).length ≤ arrayMaxLength) :
    httpResponse outcome = some ⟨sentStatusCode outcome, encode (sentMessage outcome)⟩ := by
  cases outcome with
  | ok response =>
    have hbody : writeResponseBody response.fields = some (encode response.fields) := if_pos h
    rw [httpResponse, hbody]
    rfl
  | error exception =>
    have hbody : writeResponseBody (GlobalExceptionFilter.onException exception).2.fields =
      some (encode (GlobalExceptionFilter.onException exception).2.fields) := if_pos h
    simp only [httpResponse, hbody, Option.map_some, sentMessage, sentStatusCode]

/-! ## What the service answers -/

variable (pbkdf2 : Pbkdf2)

/-- A request ends with this outcome, at its beginning or after it has waited. -/
def Answers (outcome : Outcome) : Prop :=
  ∃ w api, (∃ request, (begin pbkdf2 w api request).2 = .done outcome) ∨
    ∃ task, (proceed w api task).2 = .done outcome

/-- A response that reports a success, with an ASCII text. -/
def UserResponse.Reports (response : UserResponse) : Prop :=
  response.status = .success ∧ response.message.all (· < 0x80) = true

variable {pbkdf2}

theorem answer_reports {status : UserStatusCode} {refusal : ApiException}
    {response response' : UserResponse} (h : answer status refusal response = .ok response')
    (hreports : status = .success → response.Reports) : response'.Reports := by
  unfold answer at h
  split at h
  · rename_i hstatus
    exact Except.ok.inj h ▸ hreports hstatus
  · cases h

theorem respond_reports {status : UserStatusCode} {task : Task} {response : UserResponse}
    (h : respond status task = .ok response) : response.Reports := by
  cases task with
  | insert | update | delete =>
    exact answer_reports h fun hstatus => ⟨hstatus, by dsimp only; decide⟩
  | getAccount | transact => exact answer_reports h fun _ => ⟨rfl, by dsimp only; decide⟩

/-- A check of the credentials lets the request go on or refuses it. -/
theorem validated_not_ok {w : World} {api : ApiServer} {userId password : Bytes}
    {refusal : ApiException} {next : UserDto → Task} {response : UserResponse} :
    validated pbkdf2 w api userId password refusal next ≠ .done (.ok response) := by
  unfold validated
  split <;> simp

/-- **What the service returns** is always a success: refusals are thrown. -/
theorem answers_reports {response : UserResponse} (h : Answers pbkdf2 (.ok response)) :
    response.Reports := by
  obtain ⟨w, api, ⟨request, hbegin⟩ | ⟨task, hproceed⟩⟩ := h
  · cases request with
    | create request =>
      unfold begin at hbegin
      dsimp only at hbegin
      split at hbegin <;> simp at hbegin
    | update | delete | login => exact absurd hbegin validated_not_ok
    | getUser userId =>
      simp only [begin, Progress.done.injEq] at hbegin
      split at hbegin
      · cases hbegin
      · exact Except.ok.inj hbegin ▸ ⟨rfl, by dsimp only; decide⟩
      · cases hbegin
  · cases task with
    | insert | update | delete | transact => exact respond_reports (Progress.done.inj hproceed)
    | getAccount =>
      unfold proceed at hproceed
      dsimp only at hproceed
      split at hproceed
      · cases hproceed
      · exact respond_reports (Progress.done.inj hproceed)

end BoostChat.Api
