import BoostChat.CxxString
import BoostChat.Server.Reader

/-!
# The chat client's side of the socket

`ChatClient::ReadHeader` and `ReadBody`. The client computes the length of a body with
unsigned arithmetic, where the server adds up signed numbers; and its handlers have
branches that start no further read.

* `header_decoding` — the lengths that both sides compute agree with the header exactly
  when its first byte is below `0x80`.
* `ChatClient` — the read cycle, and `ChatClient.step` the actions of the network and of the
  io thread; `Decoded` is what the state is in terms of the bytes that have arrived.
* `round_trip` — a list of messages reaches `OnMessage` and the client then waits for the
  next header exactly when no message is empty on the wire or a ping that `OnMessage`
  throws on.

The parser is a parameter.
-/

namespace BoostChat.Client

open Lib
open Server (ChatMessage Reading HEADER_SIZE writeFrame writeFrame_eq_frame frame frame_append_inj)

/-! ## The length of a body -/

/-- The loop in the handler of `ChatClient::ReadHeader`. -/
def bodySize (readbuf : Bytes) : UInt64 :=
  readbuf.foldl (fun bodySize byte => bodySize <<< 8 ||| byte.toUInt64) 0

/-- One more byte is a digit to the base 256, as long as nothing is shifted out. -/
theorem shift_or_toNat (size : UInt64) (byte : UInt8) (hsize : size.toNat < 2 ^ 56) :
    (size <<< 8 ||| byte.toUInt64).toNat = size.toNat * 2 ^ 8 + byte.toNat := by
  have hbyte := byte.toNat_lt
  have hamount : (8 : UInt64).toNat % 64 = 8 := rfl
  have hshift : (size <<< 8).toNat = 2 ^ 8 * size.toNat := by
    rw [UInt64.toNat_shiftLeft, hamount, Nat.shiftLeft_eq, Nat.mod_eq_of_lt (by omega),
      Nat.mul_comm]
  -- the byte fills the eight bits that the shift left empty
  rw [UInt64.toNat_or, hshift, UInt8.toNat_toUInt64, ← Nat.two_pow_add_eq_or_of_lt hbyte,
    Nat.mul_comm]

/-- The computed length is the number in the header. -/
theorem bodySize_toNat : ∀ {header : Bytes}, header.length = HEADER_SIZE →
    (bodySize header).toNat = ofBe32 header
  | [b₀, b₁, b₂, b₃], _ => by
    have h₀ := b₀.toNat_lt
    have h₁ := b₁.toNat_lt
    have h₂ := b₂.toNat_lt
    have h₃ := b₃.toNat_lt
    have hfold : bodySize [b₀, b₁, b₂, b₃] =
        (((((0 : UInt64) <<< 8 ||| b₀.toUInt64) <<< 8 ||| b₁.toUInt64) <<< 8 ||| b₂.toUInt64) <<< 8
          ||| b₃.toUInt64) := rfl
    have hs₀ := shift_or_toNat 0 b₀ (by decide)
    rw [UInt64.toNat_zero] at hs₀
    have hs₁ := shift_or_toNat _ b₁ (by rw [hs₀]; omega)
    have hs₂ := shift_or_toNat _ b₂ (by rw [hs₁, hs₀]; omega)
    have hs₃ := shift_or_toNat _ b₃ (by rw [hs₂, hs₁, hs₀]; omega)
    rw [hfold, hs₃, hs₂, hs₁, hs₀, ofBe32]
    omega

/-- A header of four bytes holds less than `2 ^ 32`. -/
theorem ofBe32_lt : ∀ {header : Bytes}, header.length = HEADER_SIZE → ofBe32 header < 2 ^ 32
  | [b₀, b₁, b₂, b₃], _ => by
    have h₀ := b₀.toNat_lt
    have h₁ := b₁.toNat_lt
    have h₂ := b₂.toNat_lt
    have h₃ := b₃.toNat_lt
    rw [ofBe32]
    omega

/-- The first byte of a header tells whether the number is below `2 ^ 31`. -/
theorem ofBe32_lt_iff (b₀ b₁ b₂ b₃ : UInt8) : ofBe32 [b₀, b₁, b₂, b₃] < 2 ^ 31 ↔ b₀ < 0x80 := by
  have h₁ := b₁.toNat_lt
  have h₂ := b₂.toNat_lt
  have h₃ := b₃.toNat_lt
  have hbound : (0x80 : UInt8).toNat = 128 := rfl
  rw [ofBe32, UInt8.lt_iff_toNat_lt, hbound]
  omega

/-- The server computes the number of a header when it is below `2 ^ 31`. -/
theorem server_bodySize_eq_iff {header : Bytes} (hlength : header.length = HEADER_SIZE) :
    (Server.bodySize header).toNat = ofBe32 header ↔ ofBe32 header < 2 ^ 31 := by
  rw [Server.bodySize_toNat hlength]
  split <;> omega

/-- The header that `SetSizeToBufferHeader` writes for a payload. -/
theorem writtenHeader_eq (payload : Bytes) :
    (writeFrame payload).take HEADER_SIZE = be32 payload.length := by
  rw [writeFrame_eq_frame, frame]
  exact List.take_left' rfl

/-- **Decoding of a header.** The client computes the number of every header. The server
computes it, and so agrees with the client, exactly when the first byte is below `0x80`;
and both find the size of the payload exactly when it is below `2 ^ 31`. -/
theorem header_decoding (b₀ b₁ b₂ b₃ : UInt8) (payload : Bytes) :
    let header := [b₀, b₁, b₂, b₃]
    let number := b₀.toNat * 2 ^ 24 + b₁.toNat * 2 ^ 16 + b₂.toNat * 2 ^ 8 + b₃.toNat
    let written := (writeFrame payload).take HEADER_SIZE
    (((Server.bodySize header).toNat = number ∧ (bodySize header).toNat = number) ↔ b₀ < 0x80) ∧
    (bodySize header).toNat = number ∧
    (Server.bodySize header = bodySize header ↔ b₀ < 0x80) ∧
    (((Server.bodySize written).toNat = payload.length ∧
      (bodySize written).toNat = payload.length) ↔ payload.length < 2 ^ 31) := by
  intro header number written
  have hlength : header.length = HEADER_SIZE := rfl
  have hnumber : ofBe32 header = number := rfl
  have hclient : (bodySize header).toNat = number := bodySize_toNat hlength
  have hserver : (Server.bodySize header).toNat = number ↔ b₀ < 0x80 := by
    rw [← hnumber, server_bodySize_eq_iff hlength, ofBe32_lt_iff]
  refine ⟨?_, hclient, ?_, ?_⟩
  · rw [and_iff_left hclient]
    exact hserver
  · rw [← UInt64.toNat_inj, hclient]
    exact hserver
  · have hwritten : written = be32 payload.length := writtenHeader_eq payload
    have hsize : written.length = HEADER_SIZE := by
      rw [hwritten]
      rfl
    -- a size beyond the header's range is not read back at all
    have hlt := ofBe32_lt hsize
    rw [bodySize_toNat hsize]
    constructor
    · rintro ⟨hserver, hclient⟩
      rw [← hclient] at hserver ⊢
      exact (server_bodySize_eq_iff hsize).mp hserver
    · intro hsmall
      have hread : ofBe32 written = payload.length := by
        rw [hwritten]
        exact ofBe32_be32 (by omega)
      refine ⟨?_, hread⟩
      rw [← hread] at hsmall ⊢
      exact (server_bodySize_eq_iff hsize).mpr hsmall

/-- The server takes the header of `2 ^ 31` bytes for that of `2 ^ 64 - 2 ^ 31`. -/
theorem header_misread :
    (Server.bodySize [0x80, 0, 0, 0]).toNat = 2 ^ 64 - 2 ^ 31 ∧
      (bodySize [0x80, 0, 0, 0]).toNat = 0x80 * 2 ^ 24 := by
  decide

/-! ## The read cycle -/

/-- What `OnMessage` does with a message. -/
inductive Reaction
  | print (line : Bytes)
  | printError (line : Bytes)
  | sendPong
  /-- `SetVerified(true)` and `ClearScreen` before the line is printed. -/
  | verified (line : Bytes)
deriving DecidableEq

/-- `ChatClient::HandleServerPing`; the elapsed time that it computes is not used. -/
def handleServerPing (message : ChatMessage) : Except StdException Reaction :=
  (stoll message.content).map fun _ => .sendPong

/-- `ChatClient::OnMessage`. -/
def onMessage (message : ChatMessage) : Except StdException Reaction :=
  match message.messageType with
  | .allMessage => .ok (.print (message.sender ++ ascii " >> " ++ message.content))
  | .serverPing => handleServerPing message
  | .loginMessage => .ok (.verified (ascii "[SERVER] Connect Success!!!!"))
  | .serverMessage | .errorMessage => .ok (.print (ascii "[SERVER] " ++ message.content))
  | .whisperMessage =>
    .ok (.print (ascii "[WHISPER MESSAGE] " ++ message.sender ++ ascii " >> " ++ message.content))
  | .partyMessage =>
    .ok (.print (ascii "[PARTY MESSAGE] " ++ message.sender ++ ascii " >> " ++ message.content))
  | .friendRequest =>
    .ok (.print (ascii "[FRIEND REQUEST] " ++ message.sender ++
      ascii " has sent you a friend request."))
  | .friendAccept =>
    .ok (.print (ascii "[FRIEND ACCEPT] " ++ message.sender ++
      ascii " has accepted your friend request."))
  | _ => .ok (.printError (ascii "[CLIENT] Unknown message type received"))

theorem onMessage_ok_iff (message : ChatMessage) :
    (∃ reaction, onMessage message = .ok reaction) ↔
      (message.messageType = .serverPing → IsLongLong message.content) := by
  cases htype : message.messageType with
  | serverPing =>
    rw [onMessage, htype, handleServerPing, ← stoll_ok_iff]
    cases stoll message.content with
    | error e => simp [Except.map]
    | ok n => simp [Except.map]
  | _ =>
    refine iff_of_true ?_ (by rintro ⟨⟩)
    rw [onMessage, htype]
    exact ⟨_, rfl⟩

/-- `std::vector::resize`: a longer buffer keeps its first bytes. -/
def resize (buffer : Bytes) (size : Nat) : Bytes :=
  buffer.take size ++ List.replicate (size - buffer.length) 0

@[simp] theorem resize_length (buffer : Bytes) (size : Nat) :
    (resize buffer size).length = size := by
  rw [resize, List.length_append, List.length_take, List.length_replicate]
  omega

structure ChatClient where
  /-- The `async_read` that is outstanding. It is `stopped` after an error, after an
  exception, and after a handler that starts none. -/
  reading : Reading
  readbuf : AsyncRead
  /-- The bytes that have arrived and that no read has taken. -/
  socket : Bytes := []
  /-- The messages that `OnMessage` was called with, in order. -/
  messages : List ChatMessage := []

inductive ClientAction
  /-- A chunk arrives on the socket. -/
  | arrive (chunk : Bytes)
  /-- The outstanding read takes some bytes that have arrived. -/
  | transfer (count : Nat)
  /-- The handler of a read whose buffer is full runs. -/
  | complete
  /-- The handler of a read that ended in an error runs. -/
  | fail
deriving DecidableEq

/-- The bytes that an action adds to the stream. -/
def ClientAction.bytes : ClientAction → Bytes
  | .arrive chunk => chunk
  | _ => []

/-- The io thread's own work. -/
def ClientAction.reads : ClientAction → Bool
  | .transfer _ | .complete => true
  | _ => false

namespace ChatClient

/-- `ChatClient::ReadHeader`. -/
def readHeader (c : ChatClient) : ChatClient :=
  { c with reading := .header, readbuf := AsyncRead.into (resize c.readbuf.buffer HEADER_SIZE) }

/-- `ChatClient::ReadBody`; a length of four bytes never exceeds `max_size()`. -/
def readBody (c : ChatClient) (bodySize : UInt64) : ChatClient :=
  { c with reading := .body, readbuf := AsyncRead.into (resize c.readbuf.buffer bodySize.toNat) }

/-- A handler that returns, or throws, without starting a read. -/
def stop (c : ChatClient) : ChatClient := { c with reading := .stopped }

/-- `ChatClient::OnConnect` without an error. -/
def start : ChatClient := readHeader { reading := .stopped, readbuf := AsyncRead.into [] }

def transfer (c : ChatClient) (count : Nat) : Option ChatClient :=
  if h : c.reading ≠ .stopped ∧ 0 < count ∧ count ≤ c.socket.length ∧ count ≤ c.readbuf.missing then
    some { c with
      socket := c.socket.drop count
      readbuf := c.readbuf.transfer (c.socket.take count)
        (Nat.le_trans (List.length_take_le ..) h.2.2.2) }
  else none

/-- The handler of `ReadHeader`: a body of no bytes is not read. -/
def onHeader (c : ChatClient) : ChatClient :=
  if 0 < bodySize c.readbuf.buffer then c.readBody (bodySize c.readbuf.buffer) else c.stop

/-- The handler of `ReadBody`. -/
def onBody (parse : Bytes → Option ChatMessage) (c : ChatClient) : ChatClient :=
  match parse c.readbuf.buffer with
  | none => c.stop
  | some chatMessage =>
    let called := { c with messages := c.messages ++ [chatMessage] }
    match onMessage chatMessage with
    -- the exception leaves the handler before `ReadHeader`
    | .error _ => called.stop
    | .ok _ => called.readHeader

def complete (parse : Bytes → Option ChatMessage) (c : ChatClient) : Option ChatClient :=
  if c.readbuf.Full then
    match c.reading with
    | .header => some c.onHeader
    | .body => some (c.onBody parse)
    | .stopped => none
  else none

def step (parse : Bytes → Option ChatMessage) (c : ChatClient) : ClientAction → Option ChatClient
  | .arrive chunk => some { c with socket := c.socket ++ chunk }
  | .transfer count => c.transfer count
  | .complete => c.complete parse
  | .fail => if c.reading ≠ .stopped ∧ ¬ c.readbuf.Full then some c.stop else none

/-- The io thread has nothing to do before more bytes arrive. -/
def Idle (parse : Bytes → Option ChatMessage) (c : ChatClient) : Prop :=
  (∀ count, c.step parse (.transfer count) = none) ∧ c.step parse .complete = none

/-- A read of a header is outstanding and has read nothing yet. -/
def AwaitsHeader (c : ChatClient) : Prop :=
  c.reading = .header ∧ c.readbuf.received = [] ∧ c.readbuf.buffer.length = HEADER_SIZE

end ChatClient

/-- The stream that has arrived. -/
def arrived (as : List ClientAction) : Bytes := as.flatMap ClientAction.bytes

theorem arrived_concat (as : List ClientAction) (a : ClientAction) :
    arrived (as ++ [a]) = arrived as ++ a.bytes := by
  rw [arrived, List.flatMap_append, List.flatMap_singleton, arrived]

/-! ## What has been read -/

/-- A body whose length a header can hold. -/
def Announced (body : Bytes) : Prop := body.length < 2 ^ 32

/-- The handlers read this body and start the read of the next header. -/
def Accepted (parse : Bytes → Option ChatMessage) (body : Bytes) : Prop :=
  body ≠ [] ∧ ∃ msg reaction, parse body = some msg ∧ onMessage msg = .ok reaction

/-- The bytes of the frame that the reader is in the middle of, or has stopped at. -/
inductive Part (parse : Bytes → Option ChatMessage) (as : List ClientAction) (c : ChatClient) :
    Bytes → Prop
  | header (hreading : c.reading = .header) (hsize : c.readbuf.buffer.length = HEADER_SIZE) :
    Part parse as c c.readbuf.received
  | body (hreading : c.reading = .body) (hne : c.readbuf.buffer ≠ [])
    (hsize : Announced c.readbuf.buffer) :
    Part parse as c (be32 c.readbuf.buffer.length ++ c.readbuf.received)
  | failed (hreading : c.reading = .stopped) (hfail : ClientAction.fail ∈ as) (part : Bytes) :
    Part parse as c part
  | refused (hreading : c.reading = .stopped) {body : Bytes} (hsize : Announced body)
    (hbody : ¬ Accepted parse body) : Part parse as c (frame body)

/-- The state after the actions `as`: the bodies `done` have been accepted, and the rest of
the stream is in the read buffer and on the socket. -/
structure Decoded (parse : Bytes → Option ChatMessage) (as : List ClientAction) (c : ChatClient)
    (done : List Bytes) (part : Bytes) : Prop where
  bodies : ∀ body ∈ done, Announced body ∧ Accepted parse body
  inFrame : Part parse as c part
  stream : arrived as = done.flatMap frame ++ (part ++ c.socket)
  messages : c.reading ≠ .stopped → c.messages.map some = done.map parse

section Step

variable {parse : Bytes → Option ChatMessage} {as : List ClientAction} {c c' : ChatClient}
  {done : List Bytes} {part : Bytes} {a : ClientAction}

/-- What a transfer does. -/
theorem transfer_cases {count : Nat} (h : c.transfer count = some c') :
    c.reading ≠ .stopped ∧ 0 < count ∧ count ≤ c.socket.length ∧
      ∃ hroom : (c.socket.take count).length ≤ c.readbuf.missing,
        c' = { c with socket := c.socket.drop count
                      readbuf := c.readbuf.transfer (c.socket.take count) hroom } := by
  unfold ChatClient.transfer at h
  split at h
  · rename_i hguard
    exact ⟨hguard.1, hguard.2.1, hguard.2.2.1, _, (Option.some.inj h).symm⟩
  · cases h

/-- What the handler of a full read does. -/
theorem complete_cases (h : c.complete parse = some c') : c.readbuf.Full ∧
    ((c.reading = .header ∧ c' = c.onHeader) ∨ (c.reading = .body ∧ c' = c.onBody parse)) := by
  unfold ChatClient.complete at h
  split at h
  · rename_i hfull
    refine ⟨hfull, ?_⟩
    cases hreading : c.reading with
    | header =>
      rw [hreading] at h
      exact Or.inl ⟨rfl, (Option.some.inj h).symm⟩
    | body =>
      rw [hreading] at h
      exact Or.inr ⟨rfl, (Option.some.inj h).symm⟩
    | stopped =>
      rw [hreading] at h
      cases h
  · cases h

/-- The handler of `ReadHeader` starts the read of a body, unless it is empty. -/
theorem onHeader_cases (hlength : c.readbuf.buffer.length = HEADER_SIZE) :
    (0 < ofBe32 c.readbuf.buffer ∧
      c.onHeader = { c with
        reading := .body
        readbuf := AsyncRead.into (resize c.readbuf.buffer (ofBe32 c.readbuf.buffer)) }) ∨
    (ofBe32 c.readbuf.buffer = 0 ∧ c.onHeader = c.stop) := by
  have hsize := bodySize_toNat hlength
  have hpos : 0 < bodySize c.readbuf.buffer ↔ 0 < ofBe32 c.readbuf.buffer := by
    rw [UInt64.lt_iff_toNat_lt, hsize, UInt64.toNat_zero]
  unfold ChatClient.onHeader
  by_cases hempty : 0 < ofBe32 c.readbuf.buffer
  · rw [if_pos (hpos.mpr hempty), ChatClient.readBody, hsize]
    exact Or.inl ⟨hempty, rfl⟩
  · rw [if_neg (mt hpos.mp hempty)]
    exact Or.inr ⟨Nat.eq_zero_of_not_pos hempty, rfl⟩

/-- The handler of `ReadBody` starts the read of the next header exactly after a body that
is accepted. -/
theorem onBody_cases (hne : c.readbuf.buffer ≠ []) :
    (Accepted parse c.readbuf.buffer ∧ ∃ msg, parse c.readbuf.buffer = some msg ∧
      c.onBody parse = { c with messages := c.messages ++ [msg] }.readHeader) ∨
    (¬ Accepted parse c.readbuf.buffer ∧ (c.onBody parse).reading = .stopped ∧
      (c.onBody parse).socket = c.socket) := by
  unfold ChatClient.onBody Accepted
  cases hparse : parse c.readbuf.buffer with
  | none =>
    refine Or.inr ⟨?_, rfl, rfl⟩
    rintro ⟨-, msg, reaction, hmsg, -⟩
    cases hmsg
  | some msg =>
    cases hmessage : onMessage msg with
    | ok reaction =>
      exact Or.inl ⟨⟨hne, msg, reaction, rfl, hmessage⟩, msg, rfl, by simp [hmessage]⟩
    | error e =>
      refine Or.inr ⟨?_, by simp [hmessage, ChatClient.stop], by simp [hmessage, ChatClient.stop]⟩
      rintro ⟨-, msg', reaction, hmsg, hok⟩
      obtain rfl := Option.some.inj hmsg
      rw [hmessage] at hok
      cases hok

/-- An action that touches neither the read buffer nor the io thread's state. -/
theorem Part.later (h : Part parse as c part) (a : ClientAction)
    (hreading : c'.reading = c.reading) (hreadbuf : c'.readbuf = c.readbuf) :
    Part parse (as ++ [a]) c' part := by
  cases h with
  | header hheader hsize =>
    rw [← hreadbuf] at hsize ⊢
    exact .header (hreading.trans hheader) hsize
  | body hbody hne hsize =>
    rw [← hreadbuf] at hne hsize ⊢
    exact .body (hreading.trans hbody) hne hsize
  | failed hstopped hfail =>
    exact .failed (hreading.trans hstopped) (List.mem_append_left _ hfail) _
  | refused hstopped hsize hbody => exact .refused (hreading.trans hstopped) hsize hbody

/-- The bytes that a read takes join the frame it is in. -/
theorem Part.transfer (h : Part parse as c part) {count : Nat}
    (htransfer : c.transfer count = some c') :
    Part parse (as ++ [.transfer count]) c' (part ++ c.socket.take count) := by
  obtain ⟨hreading, -, -, hroom, rfl⟩ := transfer_cases htransfer
  have hlength := AsyncRead.transfer_length c.readbuf (c.socket.take count) hroom
  have hreceived := AsyncRead.transfer_received c.readbuf (c.socket.take count) hroom
  cases h with
  | header hheader hsize =>
    rw [← hreceived]
    exact .header hheader (hlength.trans hsize)
  | body hbody hne hsize =>
    rw [List.append_assoc, ← hreceived, ← hlength]
    refine .body hbody ?_ (Nat.lt_of_le_of_lt (Nat.le_of_eq hlength) hsize)
    rw [← List.length_pos_iff] at hne ⊢
    exact Nat.lt_of_lt_of_eq hne hlength.symm
  | failed hstopped => exact absurd hstopped hreading
  | refused hstopped => exact absurd hstopped hreading

/-- A header that was read begins the frame whose body is read next; with an empty body it
is the whole frame, and no read follows. -/
theorem decoded_onHeader (hbodies : ∀ body ∈ done, Announced body ∧ Accepted parse body)
    (hsize : c.readbuf.buffer.length = HEADER_SIZE)
    (hstream : arrived as = done.flatMap frame ++ (c.readbuf.buffer ++ c.socket))
    (hmessages : c.messages.map some = done.map parse) :
    ∃ part', Decoded parse as c.onHeader done part' := by
  rw [← be32_ofBe32 hsize] at hstream
  rcases onHeader_cases hsize with ⟨hpos, heq⟩ | ⟨hempty, heq⟩
  -- the buffer is resized to the announced length, and nothing of the body is there yet
  · have hbound := ofBe32_lt hsize
    have hlength := resize_length c.readbuf.buffer (ofBe32 c.readbuf.buffer)
    have hpart' : Part parse as { c with
        reading := .body
        readbuf := AsyncRead.into (resize c.readbuf.buffer (ofBe32 c.readbuf.buffer)) } _ :=
      .body rfl (List.ne_nil_of_length_pos (Nat.lt_of_lt_of_eq hpos hlength.symm))
        (Nat.lt_of_le_of_lt (Nat.le_of_eq hlength) hbound)
    rw [heq]
    refine ⟨_, hbodies, hpart', ?_, fun _ => hmessages⟩
    rw [hstream, AsyncRead.into_received, List.append_nil]
    exact congrArg (fun n => done.flatMap frame ++ (be32 n ++ c.socket)) hlength.symm
  -- the size 0 has no branch: the io thread holds a frame that it never completes
  · have hpart' : Part parse as c.stop (frame []) :=
      .refused rfl (Nat.two_pow_pos 32) fun haccepted => haccepted.1 rfl
    rw [heq]
    refine ⟨_, hbodies, hpart', ?_, fun h => absurd rfl h⟩
    rw [hstream, hempty, frame, List.append_nil]
    rfl

/-- A body that was read completes its frame: it is accepted, or the io thread stops. -/
theorem decoded_onBody (hbodies : ∀ body ∈ done, Announced body ∧ Accepted parse body)
    (hne : c.readbuf.buffer ≠ []) (hsize : Announced c.readbuf.buffer)
    (hstream : arrived as = done.flatMap frame ++ (frame c.readbuf.buffer ++ c.socket))
    (hmessages : c.messages.map some = done.map parse) :
    ∃ done' part', Decoded parse as (c.onBody parse) done' part' := by
  rcases @onBody_cases parse c hne with
    ⟨haccepted, msg, hmsg, heq⟩ | ⟨hrefused, hstopped, hsocket⟩
  · -- nothing of the next frame has been read
    rw [heq]
    refine ⟨done ++ [c.readbuf.buffer], [], ?_, .header rfl (resize_length _ _), ?_, fun _ => ?_⟩
    · intro body hbody
      rcases List.mem_append.mp hbody with hold | hnew
      · exact hbodies body hold
      · rw [List.mem_singleton.mp hnew]
        exact ⟨hsize, haccepted⟩
    · rw [hstream, List.flatMap_append, List.flatMap_singleton]
      exact (List.append_assoc ..).symm
    · show (c.messages ++ [msg]).map some = (done ++ [c.readbuf.buffer]).map parse
      rw [List.map_append, List.map_append, hmessages, List.map_singleton, List.map_singleton,
        hmsg]
  · refine ⟨done, _, hbodies, .refused hstopped hsize hrefused, ?_, ?_⟩
    · rw [hstream, hsocket]
    · rw [hstopped]
      exact fun h => absurd rfl h

/-- The handler of a full read. -/
theorem Decoded.complete (h : Decoded parse as c done part)
    (hcomplete : c.complete parse = some c') :
    ∃ done' part', Decoded parse (as ++ [.complete]) c' done' part' := by
  obtain ⟨hbodies, hpart, hstream, hmessages⟩ := h
  obtain ⟨hfull, hcases⟩ := complete_cases hcomplete
  have hstream' : arrived (as ++ [.complete]) = done.flatMap frame ++ (part ++ c.socket) := by
    rw [arrived_concat, hstream]
    exact List.append_nil _
  cases hpart with
  | header hreading hsize =>
    obtain ⟨-, rfl⟩ | ⟨hbody, -⟩ := hcases
    · rw [AsyncRead.received_of_full hfull] at hstream'
      have hread := hmessages (by rw [hreading]; decide)
      exact ⟨done, decoded_onHeader hbodies hsize hstream' hread⟩
    · rw [hreading] at hbody
      cases hbody
  | body hreading hne hsize =>
    obtain ⟨hheader, -⟩ | ⟨-, rfl⟩ := hcases
    · rw [hreading] at hheader
      cases hheader
    · rw [AsyncRead.received_of_full hfull] at hstream'
      have hread := hmessages (by rw [hreading]; decide)
      exact decoded_onBody hbodies hne hsize hstream' hread
  | failed hreading =>
    rw [hreading] at hcases
    obtain ⟨h, -⟩ | ⟨h, -⟩ := hcases <;> cases h
  | refused hreading =>
    rw [hreading] at hcases
    obtain ⟨h, -⟩ | ⟨h, -⟩ := hcases <;> cases h

/-- **Step lemma.** -/
theorem decoded_step (h : Decoded parse as c done part) (hstep : c.step parse a = some c') :
    ∃ done' part', Decoded parse (as ++ [a]) c' done' part' := by
  obtain ⟨hbodies, hpart, hstream, hmessages⟩ := h
  have hstream' : arrived (as ++ [a]) = done.flatMap frame ++ (part ++ (c.socket ++ a.bytes)) := by
    rw [arrived_concat, hstream, List.append_assoc, List.append_assoc]
  have hquiet (ha : a.bytes = []) :
      arrived (as ++ [a]) = done.flatMap frame ++ (part ++ c.socket) := by
    rw [hstream', ha, List.append_nil]
  cases a with
  | arrive chunk =>
    obtain rfl := Option.some.inj hstep
    exact ⟨done, part, hbodies, hpart.later _ rfl rfl, hstream', hmessages⟩
  | transfer count =>
    obtain ⟨hreading, -, -, hroom, hc⟩ := transfer_cases hstep
    refine ⟨done, _, hbodies, hpart.transfer hstep, ?_, fun _ => ?_⟩
    · rw [hquiet rfl, hc, List.append_assoc part, List.take_append_drop]
    · rw [hc]
      exact hmessages hreading
  | complete => exact Decoded.complete ⟨hbodies, hpart, hstream, hmessages⟩ hstep
  | fail =>
    obtain ⟨-, rfl⟩ := guarded_step hstep
    have hfail : ClientAction.fail ∈ as ++ [.fail] := by simp
    exact ⟨done, part, hbodies, .failed rfl hfail part, hquiet rfl, fun h => absurd rfl h⟩

/-- **Run lemma.** -/
theorem decoded_of_run (hrun : Run (ChatClient.step parse) anyStep ChatClient.start as c) :
    ∃ done part, Decoded parse as c done part := by
  have hstart : ∃ done part, Decoded parse [] ChatClient.start done part :=
    ⟨[], [], by simp, .header rfl (resize_length _ _), rfl, fun _ => rfl⟩
  refine hrun.history (I := fun as c => ∃ done part, Decoded parse as c done part) ?_ hstart
  rintro before s a t ⟨done, part, h⟩ - hstep
  exact decoded_step h hstep

/-! ## The end of the work -/

/-- A bound of the number of steps that the io thread can take. -/
def ChatClient.work (c : ChatClient) : Nat :=
  3 * c.socket.length +
    match c.reading with
    | .header => if c.readbuf.Full then 2 else 0
    | .body => 1
    | .stopped => 0

theorem ChatClient.work_bounds (c : ChatClient) :
    3 * c.socket.length ≤ c.work ∧ c.work ≤ 3 * c.socket.length + 2 := by
  unfold ChatClient.work
  split
  · split <;> omega
  · omega
  · omega

/-- Each step of the io thread uses some of the work up, and only arriving bytes add to it. -/
theorem work_step (hstep : c.step parse a = some c') :
    c'.work + a.reads.toNat ≤ c.work + 3 * a.bytes.length := by
  have hbefore := c.work_bounds
  have hafter := c'.work_bounds
  cases a with
  | arrive chunk =>
    obtain rfl := Option.some.inj hstep
    have hlength : (c.socket ++ chunk).length = c.socket.length + chunk.length :=
      List.length_append
    simp only [ChatClient.work, hlength, ClientAction.reads, ClientAction.bytes, Bool.toNat_false]
    omega
  | transfer count =>
    obtain ⟨-, hpos, hcount, hroom, hc⟩ := transfer_cases hstep
    have hlength : c'.socket.length = c.socket.length - count := by
      rw [hc, List.length_drop]
    -- the bytes taken weigh three each, and the rest of the state at most two
    simp only [ClientAction.reads, ClientAction.bytes, Bool.toNat_true]
    omega
  | complete =>
    obtain ⟨hfull, ⟨hreading, hc⟩ | ⟨hreading, hc⟩⟩ := complete_cases hstep
    · -- from a full header the weight falls to that of a body, or to none
      have hwork : c.work = 3 * c.socket.length + 2 := by
        rw [ChatClient.work, hreading]
        exact congrArg _ (if_pos hfull)
      have hwork' : c'.work ≤ 3 * c.socket.length + 1 := by
        rw [hc, ChatClient.onHeader]
        split
        · exact Nat.le_refl _
        · exact Nat.le_succ _
      simp only [ClientAction.reads, ClientAction.bytes, Bool.toNat_true]
      omega
    · have hwork : c.work = 3 * c.socket.length + 1 := by
        rw [ChatClient.work, hreading]
      have hwork' : c'.work = 3 * c.socket.length := by
        rw [hc, ChatClient.onBody]
        split
        · rfl
        · split
          · rfl
          · -- the buffer of a header is not full before a byte has been read
            have hempty : ¬ (c.readHeader).readbuf.Full := by
              rw [AsyncRead.Full, ChatClient.readHeader, AsyncRead.into, resize_length]
              show ¬ 0 = HEADER_SIZE
              decide
            exact congrArg _ (if_neg hempty)
      simp only [ClientAction.reads, ClientAction.bytes, Bool.toNat_true]
      omega
  | fail =>
    obtain ⟨-, rfl⟩ := guarded_step hstep
    exact hbefore.1

/-- The io thread's steps are bounded by the bytes that have arrived. -/
theorem reads_bounded (hrun : Run (ChatClient.step parse) anyStep ChatClient.start as c) :
    as.countP ClientAction.reads ≤ 3 * (arrived as).length := by
  have hwork : c.work + as.countP ClientAction.reads ≤ 3 * (arrived as).length := by
    have hstart : ChatClient.start.work + [].countP ClientAction.reads ≤ 3 * (arrived []).length :=
      Nat.le_refl 0
    refine hrun.history (I := fun as c =>
      c.work + as.countP ClientAction.reads ≤ 3 * (arrived as).length) ?_ hstart
    intro before s a t h _ hstep
    have hused := work_step hstep
    have hcount : (before ++ [a]).countP ClientAction.reads =
        before.countP ClientAction.reads + a.reads.toNat := by
      rw [List.countP_append, List.countP_singleton]
      cases a.reads <;> rfl
    rw [hcount, arrived_concat, List.length_append]
    omega
  omega

/-- An idle client that has not stopped waits for bytes. -/
theorem ChatClient.Idle.waits (hidle : c.Idle parse) (hreading : c.reading ≠ .stopped) :
    c.socket = [] ∧ ¬ c.readbuf.Full := by
  obtain ⟨htransfer, hcomplete⟩ := hidle
  have hfull : ¬ c.readbuf.Full := by
    intro hfull
    simp only [ChatClient.step, ChatClient.complete, if_pos hfull] at hcomplete
    cases hkind : c.reading <;> simp_all
  have hroom : 1 ≤ c.readbuf.missing := by
    have hle := c.readbuf.le
    simp only [AsyncRead.Full, AsyncRead.missing] at hfull ⊢
    omega
  refine ⟨List.length_eq_zero_iff.mp (Nat.eq_zero_of_not_pos fun hpos => ?_), hfull⟩
  have hone := htransfer 1
  rw [ChatClient.step, ChatClient.transfer, dif_pos ⟨hreading, Nat.one_pos, hpos, hroom⟩] at hone
  cases hone

end Step

/-! ## From the server to the client -/

section RoundTrip

variable {parse : Bytes → Option ChatMessage} {as : List ClientAction} {c : ChatClient}
  {done bodies : List Bytes} {part : Bytes}

theorem announced_prefixCode : PrefixCode Announced frame := frame_append_inj

/-- What an idle client holds is less than a frame. -/
theorem Part.no_frame (h : Part parse as c part) (hreading : c.reading ≠ .stopped)
    (hfull : ¬ c.readbuf.Full) {body : Bytes} (hbody : Announced body) (x : Bytes) :
    part ≠ frame body ++ x := by
  have hpart := c.readbuf.received_length
  have hfilled : c.readbuf.filled < c.readbuf.buffer.length :=
    Nat.lt_of_le_of_ne c.readbuf.le hfull
  cases h with
  | header _ hsize =>
    intro heq
    -- less than a header has been read, and every frame has a whole one
    have hlength := congrArg List.length heq
    rw [List.length_append, Server.frame_length, hpart] at hlength
    rw [HEADER_SIZE] at hsize
    omega
  | body _ _ hsize =>
    -- the header announces more bytes than have come
    have hincomplete : Incomplete Announced frame
        (be32 c.readbuf.buffer.length ++ c.readbuf.received) := by
      refine ⟨c.readbuf.buffer, c.readbuf.buffer.drop c.readbuf.filled, hsize, ?_, ?_⟩
      · exact List.ne_nil_of_length_pos (by rw [List.length_drop]; omega)
      · rw [List.append_assoc, AsyncRead.received, List.take_append_drop, frame]
    exact hincomplete.no_record announced_prefixCode hbody x
  | failed hstopped => exact absurd hstopped hreading
  | refused hstopped => exact absurd hstopped hreading

/-- Of a stream of frames, an idle client without an error has read all bodies, or has
stopped at one that it does not accept. -/
theorem Decoded.all_or_refused (h : Decoded parse as c done part)
    (hbodies : ∀ body ∈ bodies, Announced body) (harrived : arrived as = bodies.flatMap frame)
    (hfail : ClientAction.fail ∉ as) (hidle : c.Idle parse) :
    (c.reading ≠ .stopped ∧ bodies = done ∧ part = []) ∨
      (c.reading = .stopped ∧ ∃ body ∈ bodies, ¬ Accepted parse body) := by
  have hnone : Incomplete Announced frame [] :=
    ⟨[], frame [], Nat.two_pow_pos 32, by decide, rfl⟩
  -- what was accepted is a prefix of what was sent, for frames can be cut in one way only
  have hcut : done.flatMap frame ++ (part ++ c.socket) = bodies.flatMap frame ++ [] := by
    rw [List.append_nil, ← harrived, h.stream]
  obtain ⟨later, rfl, htail⟩ :=
    announced_prefixCode.split hnone (fun body hbody => (h.bodies body hbody).1) hbodies hcut
  rw [List.append_nil] at htail
  have hlater : ∀ body ∈ later, Announced body := fun body hbody =>
    hbodies body (List.mem_append_right done hbody)
  by_cases hreading : c.reading = .stopped
  · -- the frame at which it stopped is the first of those that are left
    refine Or.inr ⟨hreading, ?_⟩
    cases h.inFrame with
    | header hheader => exact absurd (hheader.symm.trans hreading) (by decide)
    | body hbody => exact absurd (hbody.symm.trans hreading) (by decide)
    | failed _ hmem => exact absurd hmem hfail
    | @refused _ body hsize hrefused =>
      cases later with
      | nil =>
        have hempty := congrArg List.length htail
        rw [List.length_append, Server.frame_length, List.flatMap_nil, List.length_nil] at hempty
        omega
      | cons next later =>
        rw [List.flatMap_cons] at htail
        obtain ⟨rfl, -⟩ := frame_append_inj hsize (hlater next List.mem_cons_self) htail
        exact ⟨body, List.mem_append_right done List.mem_cons_self, hrefused⟩
  · obtain ⟨hsocket, hfull⟩ := hidle.waits hreading
    rw [hsocket, List.append_nil] at htail
    refine Or.inl ⟨hreading, ?_⟩
    cases later with
    | nil => exact ⟨List.append_nil done, htail⟩
    | cons next later =>
      rw [List.flatMap_cons] at htail
      exact absurd htail (h.inFrame.no_frame hreading hfull (hlater next List.mem_cons_self) _)

/-- A client that holds nothing of a frame awaits a header. -/
theorem Part.awaitsHeader (h : Part parse as c part) (hreading : c.reading ≠ .stopped)
    (hnil : part = []) : c.AwaitsHeader := by
  cases h with
  | header hheader hsize => exact ⟨hheader, hnil, hsize⟩
  | body => exact absurd (List.append_eq_nil_iff.mp hnil).1 (by simp [be32])
  | failed hstopped => exact absurd hstopped hreading
  | refused hstopped => exact absurd hstopped hreading

/-- **Round trip.** Let the frames of some messages arrive in any chunks. The client takes at
most three steps for each byte; and once it is idle, `OnMessage` has been called with
exactly these messages and the client awaits the next header, if and only if each of them
has a byte on the wire and none is a ping on which `OnMessage` throws. -/
theorem round_trip {msgs : List ChatMessage} (hparse : ∀ msg ∈ msgs, parse msg.serialize = some msg)
    (hsize : ∀ msg ∈ msgs, msg.serialize.length < 2 ^ 31)
    (hrun : Run (ChatClient.step parse) anyStep ChatClient.start as c)
    (harrived : arrived as = msgs.flatMap fun msg => writeFrame msg.serialize) :
    as.countP ClientAction.reads ≤ 3 * (arrived as).length ∧
    (c.Idle parse → ClientAction.fail ∉ as →
      (c.messages = msgs ∧ c.AwaitsHeader ↔ ∀ msg ∈ msgs,
        msg.serialize ≠ [] ∧ (msg.messageType = .serverPing → IsLongLong msg.content))) := by
  refine ⟨reads_bounded hrun, fun hidle hfail => ?_⟩
  have haccepted : ∀ msg ∈ msgs, (Accepted parse msg.serialize ↔
      msg.serialize ≠ [] ∧ (msg.messageType = .serverPing → IsLongLong msg.content)) := by
    intro msg hmsg
    rw [Accepted, hparse msg hmsg, ← onMessage_ok_iff]
    simp
  have hframes : arrived as = (msgs.map ChatMessage.serialize).flatMap frame := by
    rw [harrived, List.flatMap_map]
    simp only [writeFrame_eq_frame]
  have hannounced : ∀ body ∈ msgs.map ChatMessage.serialize, Announced body := by
    intro body hbody
    obtain ⟨msg, hmsg, rfl⟩ := List.mem_map.mp hbody
    exact Nat.lt_trans (hsize msg hmsg) (by decide)
  obtain ⟨done, part, hdecoded⟩ := decoded_of_run hrun
  rcases hdecoded.all_or_refused hannounced hframes hfail hidle with
    ⟨hreading, hdone, hpart⟩ | ⟨hreading, body, hbody, hrefused⟩
  · refine iff_of_true ⟨?_, hdecoded.inFrame.awaitsHeader hreading hpart⟩ fun msg hmsg => ?_
    -- each accepted body parses to the message it was written from
    · have hsome : c.messages.map some = msgs.map some := by
        rw [hdecoded.messages hreading, ← hdone, List.map_map]
        exact List.map_congr_left hparse
      exact List.map_injective_iff.mpr (fun _ _ h => Option.some.inj h) hsome
    · refine (haccepted msg hmsg).mp (hdecoded.bodies _ ?_).2
      rw [← hdone]
      exact List.mem_map_of_mem hmsg
  · obtain ⟨msg, hmsg, rfl⟩ := List.mem_map.mp hbody
    refine iff_of_false ?_ fun hall => hrefused ((haccepted msg hmsg).mpr (hall msg hmsg))
    rintro ⟨-, hawaits, -⟩
    exact absurd (hawaits.symm.trans hreading) (by decide)

/-- A public message and a ping. -/
def welcome : List ChatMessage :=
  [{ messageType := .allMessage, content := ascii "hi" }, { content := ascii "7" }]

/-- Their frames, in chunks that cut a header and a body. -/
def welcomeStream : List ClientAction :=
  let stream := welcome.flatMap fun msg => writeFrame msg.serialize
  [.arrive (stream.take 3), .transfer 3, .arrive ((stream.drop 3).take 4), .transfer 1, .complete,
    .transfer 2, .arrive (stream.drop 7), .transfer 4, .complete, .transfer 4, .complete,
    .transfer 3, .complete]

theorem round_trip_welcome :
    ∃ c, Run (ChatClient.step (Server.parseSerialized welcome)) anyStep ChatClient.start
      welcomeStream c ∧ c.messages = welcome ∧ c.AwaitsHeader := by
  obtain ⟨c, hrun, hend⟩ := exists_run_of_exec (ChatClient.step (Server.parseSerialized welcome))
    anyStep ChatClient.start welcomeStream
    (fun c => decide (c.socket = [] ∧ ¬ c.readbuf.Full)) (by decide)
  obtain ⟨hsocket, hfull⟩ := of_decide_eq_true hend
  have hidle : c.Idle (Server.parseSerialized welcome) := by
    refine ⟨fun count => dif_neg fun h => ?_, if_neg hfull⟩
    have hcount := h.2.2.1
    rw [hsocket] at hcount
    exact absurd h.2.1 (Nat.not_lt.mpr hcount)
  have hparse : ∀ msg ∈ welcome, Server.parseSerialized welcome msg.serialize = some msg := by
    decide
  have hsize : ∀ msg ∈ welcome, msg.serialize.length < 2 ^ 31 := by decide
  obtain ⟨-, hiff⟩ := round_trip hparse hsize hrun (by decide)
  exact ⟨c, hrun, (hiff hidle (by decide)).mpr (by decide)⟩

/-- The frame of the default message arrives: four bytes of zeros. -/
def defaultStream : List ClientAction :=
  [.arrive (writeFrame ({} : ChatMessage).serialize), .transfer 4, .complete]

/-- The client stops at the frame of the default message without a call of `OnMessage`. -/
theorem default_stops :
    ∃ c, Run (ChatClient.step (Server.parseSerialized [{}])) anyStep ChatClient.start
      defaultStream c ∧ c.Idle (Server.parseSerialized [{}]) ∧ c.messages = [] ∧
      ¬ c.AwaitsHeader := by
  obtain ⟨c, hrun, hend⟩ := exists_run_of_exec (ChatClient.step (Server.parseSerialized [{}]))
    anyStep ChatClient.start defaultStream
    (fun c => decide (c.reading = .stopped ∧ c.messages = [])) (by decide)
  obtain ⟨hstopped, hmessages⟩ := of_decide_eq_true hend
  refine ⟨c, hrun, ⟨fun count => dif_neg fun h => h.1 hstopped, ?_⟩, hmessages, ?_⟩
  · rw [ChatClient.step, ChatClient.complete, hstopped]
    exact ite_self none
  · rintro ⟨hheader, -⟩
    exact absurd (hheader.symm.trans hstopped) (by decide)

end RoundTrip

end BoostChat.Client
