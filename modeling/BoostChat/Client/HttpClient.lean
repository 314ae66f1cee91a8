import BoostChat.Api.Responses

/-!
# The API server's answers in the client

`HttpClient::ParseResponse` and the reaction to a login in `Client::HandleMenuChoice`.
The client reads every body as a `UserResponse` and does not look at the status code.

* `parseResponse_ok` — the response of a call that returned is read back as it was;
* `parseResponse_error` — the text of an exception has the number of the status and
  another wire type, so it is kept as an unknown field and the status stays 0;
* `decoded_success_iff` — which responses the client reads right.
-/

namespace BoostChat.Client

open Api (HttpResponse httpResponse httpResponse_eq_some httpResponse_of_le sentMessage)
open Api (Content ThrownException loginResponse_written)
open Api (GlobalExceptionFilter.onException)
open Lib.Wire

/-! ## The generated parsers -/

structure Any where
  typeUrl : Bytes := []
  value : Bytes := []
deriving DecidableEq

structure UserResponse where
  status : Int32 := 0
  message : Bytes := []
  content : Option Any := none
  unknownFields : List Field := []
deriving DecidableEq

structure LoginResponse where
  serverIp : Bytes := []
  serverPort : Bytes := []
  sessionId : Bytes := []
deriving DecidableEq

/-- The result of setting a `string` field, which has to be UTF-8. -/
def verified {σ : Type} (text : Bytes) (message : σ) : Option σ :=
  if validUtf8 text then some message else none

def anyField : Field → Option (Any → Option Any)
  | ⟨1, .bytes text⟩ => some fun any => verified text { any with typeUrl := text }
  | ⟨2, .bytes value⟩ => some fun any => some { any with value }
  | _ => none

/-- `UserResponse::_InternalParse`: the fields that the parser knows. -/
def userResponseField : Field → Option (UserResponse → Option UserResponse)
  | ⟨1, .varint n⟩ => some fun response => some { response with status := n.toUInt32.toInt32 }
  | ⟨2, .bytes text⟩ => some fun response => verified text { response with message := text }
  | ⟨3, .bytes body⟩ => some fun response =>
    (parseMessage 99 anyField (response.content.getD {}) body).map fun any =>
      { response with content := some any.1 }
  | _ => none

def loginResponseField : Field → Option (LoginResponse → Option LoginResponse)
  | ⟨1, .bytes text⟩ => some fun response => verified text { response with serverIp := text }
  | ⟨2, .bytes text⟩ => some fun response => verified text { response with serverPort := text }
  | ⟨3, .bytes text⟩ => some fun response => verified text { response with sessionId := text }
  | _ => none

def UserResponse.parseFromString (body : Bytes) : Option UserResponse :=
  (parseMessage 100 userResponseField {} body).map fun (response, unknownFields) =>
    { response with unknownFields }

/-- `Any::UnpackTo` for a `LoginResponse`. -/
def Any.unpackTo (any : Any) : Option LoginResponse :=
  if (ascii "/LoginResponse").isSuffixOf any.typeUrl then
    (parseMessage 100 loginResponseField {} any.value).map (·.1)
  else none

/-! ## The client -/

def parseResponse (res : HttpResponse) : Except StdException UserResponse :=
  match UserResponse.parseFromString res.body with
  | some response => .ok response
  | none => .error (.runtimeError (ascii "Failed to parse response message."))

inductive LoginReaction
  /-- `"Login Failed!!"` is logged. -/
  | failed
  | startChatClient (response : LoginResponse)
  | nothing
deriving DecidableEq

/-- The menu choice "login", once there is a response. -/
def handleLogin (response : UserResponse) : LoginReaction :=
  if response.status ≠ 0 then .failed
  else
    match response.content.bind Any.unpackTo with
    | some loginResponse => .startChatClient loginResponse
    | none => .nothing

/-! ## Reading the server's messages -/

/-- The message that the server packs, as the client finds it. -/
def packed (content : Content) : Any where
  typeUrl := content.typeUrl
  value := encode content.fields

theorem verified_of_valid {σ : Type} {text : Bytes} (h : validUtf8 text = true) (message : σ) :
    verified text message = some message := if_pos h

/-- What the server can send is short enough to be read. -/
theorem arrayMaxLength_lt : Api.arrayMaxLength < 2 ^ 31 - 16 := by decide

/-- The `Any` in a response is read back. -/
theorem parse_pack {content : Content} (hlen : (encode content.pack).length < 2 ^ 31 - 16) :
    parseMessage 99 anyField {} (encode content.pack) = some (packed content, []) := by
  obtain ⟨hascii, -, hne⟩ := content.typeUrl_spec
  have hurl : anyField ⟨1, .bytes content.typeUrl⟩ =
      some fun any => verified content.typeUrl { any with typeUrl := content.typeUrl } := rfl
  have hverified : verified content.typeUrl { ({} : Any) with typeUrl := content.typeUrl } =
      some { typeUrl := content.typeUrl } := verified_of_valid (validUtf8_ascii hascii) _
  have hvalue : anyField ⟨2, .bytes (encode content.fields)⟩ =
      some fun any => some { any with value := encode content.fields } := rfl
  rw [parseMessage_encode _ (valid_of_written (Api.pack_written content) hlen), Content.pack,
    mergeFields_bytesField hurl hverified (fun h => absurd h hne),
    ← List.append_nil (bytesField 2 _), mergeFields_bytesField hvalue rfl]
  · exact mergeFields_nil _
  · intro h
    rw [h]

/-- What a response parses to is decided by its fields. -/
theorem parseResponse_eq {outcome : Except ThrownException Api.UserResponse} {res : HttpResponse}
    (hres : httpResponse outcome = some res) (response : UserResponse) (unknownFields : List Field)
    (h : mergeFields 100 userResponseField [] ({}, []) (sentMessage outcome) =
      some (response, unknownFields)) :
    parseResponse res = .ok { response with unknownFields } := by
  obtain ⟨hbody, hlen⟩ := httpResponse_eq_some hres
  have hlen := Nat.lt_of_le_of_lt hlen arrayMaxLength_lt
  have hparse : parseMessage 100 userResponseField {} (encode (sentMessage outcome)) =
      some (response, unknownFields) :=
    (parseMessage_encode _ (valid_of_written (Api.sentMessage_written outcome) hlen)).trans h
  rw [parseResponse, UserResponse.parseFromString, hbody, hparse]
  rfl

/-! ## Responses -/

/-- **A call that returned.** The client finds the status, the message and the content
that the service returned. -/
theorem parseResponse_ok {response : Api.UserResponse} {res : HttpResponse}
    (hres : httpResponse (.ok response) = some res) (htext : validUtf8 response.message = true) :
    parseResponse res = .ok {
      status := response.status.number.toUInt32.toInt32
      message := response.message
      content := response.content.map packed } := by
  obtain ⟨status, message, content⟩ := response
  obtain ⟨-, hlen⟩ := httpResponse_eq_some hres
  have hlen := Nat.lt_of_le_of_lt hlen arrayMaxLength_lt
  have hstatus : userResponseField ⟨1, .varint status.number⟩ =
      some fun r => some { r with status := status.number.toUInt32.toInt32 } := rfl
  have hmessage : userResponseField ⟨2, .bytes message⟩ =
      some fun r => verified message { r with message } := rfl
  refine parseResponse_eq hres
    { status := status.number.toUInt32.toInt32, message, content := content.map packed } [] ?_
  rw [sentMessage, Api.UserResponse.fields, List.append_assoc, mergeFields_enumField hstatus rfl,
    mergeFields_bytesField hmessage (verified_of_valid htext _)]
  · cases content with
    | none => exact mergeFields_nil _
    | some content =>
      -- the content is a message of its own
      have hpack : (encode content.pack).length < 2 ^ 31 - 16 :=
        Nat.lt_of_le_of_lt (bytes_le_encode 3
          (List.mem_append_right _ List.mem_cons_self)) hlen
      have hcontent : userResponseField ⟨3, .bytes (encode content.pack)⟩ = some fun r =>
          (parseMessage 99 anyField (r.content.getD {}) (encode content.pack)).map fun any =>
            { r with content := some any.1 } := rfl
      rw [mergeFields_known hcontent]
      simp only [Option.getD_none, parse_pack hpack, Option.map_some, Option.bind_some,
        mergeFields_nil]
  · rintro rfl
    rfl
  · intro h
    rw [h]
    rfl

/-- **A call that threw.** The text has the number of the status but not its type: the
client keeps it as an unknown field, and everything else has its default value. -/
theorem parseResponse_error {exception : ThrownException} {res : HttpResponse}
    (hres : httpResponse (.error exception) = some res) :
    parseResponse res = .ok {
      unknownFields := (GlobalExceptionFilter.onException exception).2.fields } := by
  refine parseResponse_eq hres {} _ ?_
  rw [sentMessage, Api.UserErrorResponse.fields]
  unfold bytesField
  split
  · exact mergeFields_nil _
  · rw [mergeFields_unknown rfl]
    exact mergeFields_nil _

/-- The client finds the status `Success` in the response. -/
def DecodedSuccess (res : HttpResponse) : Prop :=
  ∃ response, parseResponse res = .ok response ∧ response.status = 0

/-- The service call succeeded. -/
def Succeeded (outcome : Except ThrownException Api.UserResponse) : Prop :=
  ∃ response, outcome = .ok response ∧ response.status = .success

theorem number_eq_zero (status : Api.UserStatusCode) :
    status.number.toUInt32.toInt32 = 0 ↔ status = .success := by
  cases status <;> decide

theorem decodedSuccess_ok {response : Api.UserResponse} {res : HttpResponse}
    (hres : httpResponse (.ok response) = some res) (htext : validUtf8 response.message = true) :
    DecodedSuccess res ↔ response.status = .success := by
  have hparse := parseResponse_ok hres htext
  constructor
  · rintro ⟨decoded, hdecoded, hstatus⟩
    obtain rfl := Except.ok.inj (hparse.symm.trans hdecoded)
    exact (number_eq_zero _).mp hstatus
  · intro h
    exact ⟨_, hparse, (number_eq_zero _).mpr h⟩

/-- Every exception reads as a success. -/
theorem decodedSuccess_error {exception : ThrownException} {res : HttpResponse}
    (hres : httpResponse (.error exception) = some res) : DecodedSuccess res :=
  ⟨_, parseResponse_error hres, rfl⟩

/-- **Outcome and decoded status.** The status that the client decodes tells whether the
service call succeeded if and only if the call threw no exception. -/
theorem decoded_success_iff {outcome : Except ThrownException Api.UserResponse}
    {res : HttpResponse} (hres : httpResponse outcome = some res)
    (htext : ∀ response, outcome = .ok response → validUtf8 response.message = true) :
    (DecodedSuccess res ↔ Succeeded outcome) ↔ ∃ response, outcome = .ok response := by
  cases outcome with
  | error exception =>
    have hdecoded := decodedSuccess_error hres
    refine ⟨fun h => ?_, fun ⟨_, h⟩ => by cases h⟩
    obtain ⟨response, h, -⟩ := h.mp hdecoded
    cases h
  | ok response =>
    refine ⟨fun _ => ⟨response, rfl⟩, fun _ => ?_⟩
    rw [decodedSuccess_ok hres (htext response rfl)]
    constructor
    · exact fun h => ⟨response, rfl, h⟩
    · rintro ⟨_, ⟨⟩, h⟩
      exact h

/-- **Requests.** Whatever the service makes of a request, the client decodes `Success`. -/
theorem answer_decodedSuccess {pbkdf2 : Api.Pbkdf2} {outcome : Api.Outcome} {res : HttpResponse}
    (h : Api.Answers pbkdf2 outcome)
    (hres : httpResponse (outcome.mapError Api.ApiException.thrown) = some res) :
    DecodedSuccess res := by
  cases outcome with
  | error exception => exact decodedSuccess_error hres
  | ok response =>
    obtain ⟨hstatus, htext⟩ := Api.answers_reports h
    exact (decodedSuccess_ok hres (validUtf8_ascii htext)).mpr hstatus

/-- The answer to a login with the right password. -/
def loggedIn (sessionId : Bytes) : Api.UserResponse where
  status := .success
  message := ascii "User login successfully"
  content := some (.loginResponse (ascii "127.0.0.1") (ascii "4242") sessionId)

theorem decoded_success_iff_loggedIn :
    ∃ res, httpResponse (.ok (loggedIn (ascii "a"))) = some res ∧
      ((DecodedSuccess res ↔ Succeeded (.ok (loggedIn (ascii "a")))) ↔
        ∃ response, (.ok (loggedIn (ascii "a")) : Except ThrownException _) = .ok response) := by
  have hlen : (encode (sentMessage (.ok (loggedIn (ascii "a"))))).length ≤ 200 := by decide
  have hres := httpResponse_of_le (Nat.le_trans hlen (by decide))
  refine ⟨_, hres, decoded_success_iff hres ?_⟩
  rintro response ⟨⟩
  exact validUtf8_ascii (by decide)

def wrongPassword : Api.Request :=
  .login { userId := ascii "ann", password := ascii "guess" }

/-- A login with a wrong password is refused with status code 400, and the client decodes
`Success`. -/
theorem wrongPassword_decoded_success :
    ∃ exception res,
      (Api.begin Api.secretPbkdf2 {} ⟨{ table := [Api.ann] }, fun _ => none⟩ wrongPassword).2 =
        .done (.error exception) ∧
      httpResponse (.error exception.thrown) = some res ∧ res.statusCode = 400 ∧
      DecodedSuccess res ∧ ¬ Succeeded (.error exception.thrown) := by
  let exception : Api.ApiException := .userValidation (ascii "User validation failed")
  have hrefused :
      (Api.begin Api.secretPbkdf2 {} ⟨{ table := [Api.ann] }, fun _ => none⟩ wrongPassword).2 =
        .done (.error exception) := by decide
  have hlen : (encode (sentMessage (.error exception.thrown))).length ≤ 200 := by decide
  have hres := httpResponse_of_le (Nat.le_trans hlen (by decide))
  refine ⟨exception, _, hrefused, hres, rfl, decodedSuccess_error hres, ?_⟩
  rintro ⟨_, ⟨⟩, -⟩

/-! ## A login -/

/-- What the service packed is unpacked. -/
theorem unpackTo_packed {serverIp serverPort sessionId : Bytes}
    (hlen :
      (encode (Content.loginResponse serverIp serverPort sessionId).pack).length < 2 ^ 31 - 16)
    (hip : validUtf8 serverIp = true) (hport : validUtf8 serverPort = true)
    (hsession : validUtf8 sessionId = true) :
    (packed (.loginResponse serverIp serverPort sessionId)).unpackTo =
      some { serverIp, serverPort, sessionId } := by
  have htype : (ascii "/LoginResponse").isSuffixOf
      (packed (.loginResponse serverIp serverPort sessionId)).typeUrl = true := by
    show (ascii "/LoginResponse").isSuffixOf
      (ascii "type.googleapis.com/" ++ ascii "LoginResponse") = true
    decide
  have hvalue : (encode (Content.loginResponse serverIp serverPort sessionId).fields).length <
      2 ^ 31 - 16 := Nat.lt_of_le_of_lt (Api.fields_le_pack _) hlen
  have hwritten := loginResponse_written serverIp serverPort sessionId
  have hipField : loginResponseField ⟨1, .bytes serverIp⟩ =
      some fun r => verified serverIp { r with serverIp } := rfl
  have hportField : loginResponseField ⟨2, .bytes serverPort⟩ =
      some fun r => verified serverPort { r with serverPort } := rfl
  have hsessionField : loginResponseField ⟨3, .bytes sessionId⟩ =
      some fun r => verified sessionId { r with sessionId } := rfl
  rw [Any.unpackTo, if_pos htype]
  show (parseMessage 100 loginResponseField {}
    (encode (Content.loginResponse serverIp serverPort sessionId).fields)).map (·.1) = _
  rw [parseMessage_encode _ (valid_of_written hwritten hvalue), Content.fields,
    List.append_assoc, mergeFields_bytesField hipField (verified_of_valid hip _),
    mergeFields_bytesField hportField (verified_of_valid hport _),
    ← List.append_nil (bytesField 3 _),
    mergeFields_bytesField hsessionField (verified_of_valid hsession _), mergeFields_nil]
  · rfl
  all_goals
    intro h
    rw [h]

/-- **A login.** The client starts the chat client with what the service answered. -/
theorem handleLogin_ok {message serverIp serverPort sessionId : Bytes} {res : HttpResponse}
    (hres : httpResponse (.ok {
      status := .success
      message
      content := some (.loginResponse serverIp serverPort sessionId) }) = some res)
    (hmessage : validUtf8 message = true) (hip : validUtf8 serverIp = true)
    (hport : validUtf8 serverPort = true) (hsession : validUtf8 sessionId = true) :
    (parseResponse res).map handleLogin =
      .ok (.startChatClient { serverIp, serverPort, sessionId }) := by
  obtain ⟨-, hlen⟩ := httpResponse_eq_some hres
  have hlen := Nat.lt_of_le_of_lt hlen arrayMaxLength_lt
  have hpack : (encode (Content.loginResponse serverIp serverPort sessionId).pack).length <
      2 ^ 31 - 16 := Nat.lt_of_le_of_lt (bytes_le_encode 3
        (List.mem_append_right _ List.mem_cons_self)) hlen
  have hunpack := unpackTo_packed hpack hip hport hsession
  rw [parseResponse_ok hres hmessage]
  show Except.ok (handleLogin _) = _
  rw [handleLogin, if_neg (not_not.mpr ((number_eq_zero _).mpr rfl))]
  simp only [Option.map_some, Option.bind_some, hunpack]

/-- After an exception it neither starts nor reports a failure. -/
theorem handleLogin_error {exception : ThrownException} {res : HttpResponse}
    (hres : httpResponse (.error exception) = some res) :
    (parseResponse res).map handleLogin = .ok .nothing := by
  rw [parseResponse_error hres]
  rfl

end BoostChat.Client
