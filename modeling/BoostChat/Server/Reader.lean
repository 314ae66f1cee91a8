import BoostChat.Lib.Framing
import BoostChat.Lib.Transition
import BoostChat.Server.PacketConverter
import BoostChat.Server.UserSession

/-!
# Reading from the socket

The receiving side of a `UserSession`. `ReadHeader` and `ReadBody` each start an
`async_read` into the one read buffer of the session, resized for the purpose; the read
completes when the buffer is full, and its handler starts the other one.

* `bodySize` — the body length that the handler of `ReadHeader` computes;
  `bodySize_toNat` says what it is for every header, and
  `getMessageBodySize_eq_bodySize_iff` for which headers `MessageConverter` agrees.
* `Reader` — the state, and `Reader.step` the actions of the network, of the io thread
  and of the server's own thread (which takes messages and replaces the user entity).
* `Decoded` — what the state is after a run, in terms of the bytes that have arrived.
* `stream_decoded` — the messages of a stream of frames reach the session's queues, all of
  them once the reader is idle, whatever the chunks and the order of the actions.

The parser is a parameter.
-/

namespace BoostChat.Server

open Lib

/-! ## The length of a body -/

/-- `m_Readbuf[3 - i] << (8 * i)` as it is added to `bodySize`: the byte is promoted to
`int`, and the sum converts the shifted `int` to `size_t`. -/
def shifted (byte : UInt8) (i : Nat) : UInt64 :=
  (byte.toUInt32 <<< (8 * i).toUInt32).toInt32.toInt64.toUInt64

/-- The loop in the handler of `UserSession::ReadHeader`. -/
def bodySize (readbuf : Bytes) : UInt64 :=
  (List.range 4).foldl (fun bodySize i => bodySize + shifted (readbuf.getD (3 - i) 0) i) 0

theorem signExtend_toNat (x : UInt32) : x.toInt32.toInt64.toUInt64.toNat =
    if x.toNat < 2 ^ 31 then x.toNat else x.toNat + (2 ^ 64 - 2 ^ 32) := by
  have hbits : x.toInt32.toInt64.toUInt64.toBitVec = x.toBitVec.signExtend 64 := rfl
  have hlt := x.toNat_lt
  have hmsb : x.toBitVec.msb = decide (2 ^ 31 ≤ x.toNat) := BitVec.msb_eq_decide _
  -- the bits above the 32 copy the sign bit
  rw [← UInt64.toNat_toBitVec, hbits, BitVec.toNat_signExtend, hmsb, BitVec.toNat_setWidth,
    UInt32.toNat_toBitVec, Nat.mod_eq_of_lt (by omega)]
  by_cases hneg : x.toNat < 2 ^ 31
  · rw [if_pos hneg, decide_eq_false (by omega)]
    rfl
  · rw [if_neg hneg, decide_eq_true (by omega)]
    rfl

theorem shifted_toNat (byte : UInt8) {i : Nat} (hi : i < 4) : (shifted byte i).toNat =
    if byte.toNat * 2 ^ (8 * i) < 2 ^ 31 then byte.toNat * 2 ^ (8 * i)
    else byte.toNat * 2 ^ (8 * i) + (2 ^ 64 - 2 ^ 32) := by
  have hamount : (8 * i).toUInt32.toNat % 32 = 8 * i := by
    rw [UInt32.toNat_ofNat']
    omega
  -- a shifted byte stays within 32 bits
  have hfits : byte.toNat * 2 ^ (8 * i) < 2 ^ 32 := by
    have hbyte := byte.toNat_lt
    have hpow : 2 ^ (8 * i) ≤ 2 ^ 24 := Nat.pow_le_pow_right (by omega) (by omega)
    calc byte.toNat * 2 ^ (8 * i) ≤ byte.toNat * 2 ^ 24 := Nat.mul_le_mul_left _ hpow
      _ < 2 ^ 32 := by omega
  have hshift : (byte.toUInt32 <<< (8 * i).toUInt32).toNat = byte.toNat * 2 ^ (8 * i) := by
    rw [UInt32.toNat_shiftLeft, UInt8.toNat_toUInt32, Nat.shiftLeft_eq, hamount]
    exact Nat.mod_eq_of_lt hfits
  rw [shifted, signExtend_toNat, hshift]

/-- The computed length is the number in the header, sign-extended to 64 bits. -/
theorem bodySize_toNat : ∀ {header : Bytes}, header.length = HEADER_SIZE →
    (bodySize header).toNat =
      if ofBe32 header < 2 ^ 31 then ofBe32 header else ofBe32 header + (2 ^ 64 - 2 ^ 32)
  | [b₀, b₁, b₂, b₃], _ => by
    have h₀ := b₀.toNat_lt
    have h₁ := b₁.toNat_lt
    have h₂ := b₂.toNat_lt
    have h₃ := b₃.toNat_lt
    have hsum : bodySize [b₀, b₁, b₂, b₃] =
        0 + shifted b₃ 0 + shifted b₂ 1 + shifted b₁ 2 + shifted b₀ 3 := rfl
    have hs₃ := shifted_toNat b₃ (show 0 < 4 by decide)
    have hs₂ := shifted_toNat b₂ (show 1 < 4 by decide)
    have hs₁ := shifted_toNat b₁ (show 2 < 4 by decide)
    have hs₀ := shifted_toNat b₀ (show 3 < 4 by decide)
    -- only the first byte reaches the sign bit
    rw [if_pos (by omega)] at hs₃ hs₂ hs₁
    rw [hsum, UInt64.toNat_add, UInt64.toNat_add, UInt64.toNat_add, UInt64.toNat_add, hs₃, hs₂,
      hs₁, hs₀, ofBe32, UInt64.toNat_zero]
    split <;> split <;> omega

/-- The loop of `ReadHeader` accumulates what the loop of `GetMessageBodySize` overwrites:
the two compute the same length only for a header whose first three bytes are zero. -/
theorem getMessageBodySize_eq_bodySize_iff {header : Bytes} (hlength : header.length = HEADER_SIZE)
    (payload : Bytes) :
    getMessageBodySize (header ++ payload) = bodySize header ↔ ofBe32 header < 256 := by
  rw [← UInt64.toNat_inj, getMessageBodySize_toNat payload hlength, bodySize_toNat hlength]
  split <;> omega

/-! ## The read cycle -/

/-- `std::vector<uint8_t>::max_size()`; a `resize` beyond it throws `std::length_error`. -/
def maxSize : Nat := 2 ^ 63 - 1

/-- The `async_read` that is outstanding. -/
inductive Reading
  | header
  | body
  /-- None: it ended in an error, or `resize` threw. -/
  | stopped
deriving DecidableEq

structure Reader where
  session : UserSession
  reading : Reading
  readbuf : AsyncRead
  /-- The bytes that have arrived and that no read has taken. -/
  socket : Bytes := []
  /-- The messages that `GetMessageInUserQueue` has returned, in order. -/
  taken : List ChatMessage := []

inductive ReaderAction
  /-- A chunk arrives on the socket. -/
  | arrive (chunk : Bytes)
  /-- The outstanding read takes some bytes that have arrived. -/
  | transfer (count : Nat)
  /-- The handler of a read whose buffer is full runs. -/
  | complete
  /-- The handler of a read that ended in an error runs. -/
  | fail
  /-- The server's thread calls `SetUserEntity`. -/
  | setUserEntity (userEntity : UserEntity)
  /-- The server's thread calls `GetMessageInUserQueue`. -/
  | getMessage
deriving DecidableEq

/-- The bytes that an action adds to the stream. -/
def ReaderAction.bytes : ReaderAction → Bytes
  | .arrive chunk => chunk
  | _ => []

/-- The io thread's own work. -/
def ReaderAction.reads : ReaderAction → Bool
  | .transfer _ | .complete => true
  | _ => false

namespace Reader

/-- `UserSession::ReadHeader`. -/
def readHeader (r : Reader) : Reader :=
  { r with reading := .header, readbuf := AsyncRead.start HEADER_SIZE }

/-- `UserSession::ReadBody`. -/
def readBody (r : Reader) (bodySize : UInt64) : Reader :=
  -- the exception of `resize` leaves the handler, so no read follows
  if bodySize.toNat ≤ maxSize then
    { r with reading := .body, readbuf := AsyncRead.start bodySize.toNat }
  else { r with reading := .stopped }

/-- `UserSession::HandleError`. -/
def handleError (r : Reader) : Reader := { r with session := r.session.close, reading := .stopped }

/-- `UserSession::Start`. -/
def start (u : UserSession) : Reader where
  session := u.start
  reading := .header
  readbuf := AsyncRead.start HEADER_SIZE

def transfer (r : Reader) (count : Nat) : Option Reader :=
  if h : r.reading ≠ .stopped ∧ 0 < count ∧ count ≤ r.socket.length ∧ count ≤ r.readbuf.missing then
    some { r with
      socket := r.socket.drop count
      readbuf := r.readbuf.transfer (r.socket.take count)
        (Nat.le_trans (List.length_take_le ..) h.2.2.2) }
  else none

/-- The handlers of the two reads, when they get no error. -/
def complete (parse : Bytes → Option ChatMessage) (r : Reader) : Option Reader :=
  if r.readbuf.Full then
    match r.reading with
    | .header => some (r.readBody (bodySize r.readbuf.buffer))
    | .body =>
      some { r with session := r.session.readBody parse r.readbuf.buffer }.readHeader
    | .stopped => none
  else none

def step (parse : Bytes → Option ChatMessage) (r : Reader) : ReaderAction → Option Reader
  | .arrive chunk => some { r with socket := r.socket ++ chunk }
  | .transfer count => r.transfer count
  | .complete => r.complete parse
  | .fail => if r.reading ≠ .stopped ∧ ¬ r.readbuf.Full then some r.handleError else none
  | .setUserEntity userEntity => some { r with session := r.session.setUserEntity userEntity }
  | .getMessage =>
    let (session, msg) := r.session.getMessageInUserQueue
    some { r with session, taken := r.taken ++ msg.toList }

/-- The io thread has nothing to do before more bytes arrive. -/
def Idle (parse : Bytes → Option ChatMessage) (r : Reader) : Prop :=
  (∀ count, r.step parse (.transfer count) = none) ∧ r.step parse .complete = none

/-- Every message that ever was in the session's queues, oldest first. -/
def messages (r : Reader) : List ChatMessage := r.taken ++ r.session.pending

end Reader

/-- The stream that has arrived. -/
def arrived (as : List ReaderAction) : Bytes := as.flatMap ReaderAction.bytes

/-- A body that a frame can carry. -/
def FrameBody (body : Bytes) : Prop := body.length < 2 ^ 31

theorem arrived_concat (as : List ReaderAction) (a : ReaderAction) :
    arrived (as ++ [a]) = arrived as ++ a.bytes := by
  rw [arrived, List.flatMap_append, List.flatMap_singleton, arrived]

theorem ofBe32_header {body : Bytes} (hbody : body.length < 2 ^ 32) :
    ofBe32 (be32 body.length) = body.length :=
  ofBe32_be32 hbody

theorem FrameBody.lt {body : Bytes} (hbody : FrameBody body) : body.length < 2 ^ 32 :=
  Nat.lt_trans hbody (by decide)

/-- Frames can be told apart by their lengths. -/
theorem frame_append_inj {body body' x y : Bytes} (hbody : body.length < 2 ^ 32)
    (hbody' : body'.length < 2 ^ 32) (h : frame body ++ x = frame body' ++ y) :
    body = body' ∧ x = y := by
  rw [frame, frame, List.append_assoc, List.append_assoc] at h
  obtain ⟨hheader, htail⟩ := List.append_inj h rfl
  have hlength : body.length = body'.length := by
    rw [← ofBe32_header hbody, hheader, ofBe32_header hbody']
  exact List.append_inj htail hlength

theorem frame_prefixCode : PrefixCode FrameBody frame :=
  fun hbody hbody' h => frame_append_inj hbody.lt hbody'.lt h

/-! ## What has been decoded -/

/-- The bytes of the frame that the outstanding read is in the middle of. A read has
stopped because it failed, or because the header announces too much. -/
inductive Part (as : List ReaderAction) (r : Reader) : Bytes → Prop
  | header (hreading : r.reading = .header) (hsize : r.readbuf.buffer.length = HEADER_SIZE) :
    Part as r r.readbuf.received
  | body (hreading : r.reading = .body) (hsize : FrameBody r.readbuf.buffer) :
    Part as r (be32 r.readbuf.buffer.length ++ r.readbuf.received)
  | failed (hreading : r.reading = .stopped) (hfail : ReaderAction.fail ∈ as) (part : Bytes) :
    Part as r part
  | thrown (hreading : r.reading = .stopped) {header : Bytes}
    (hlength : header.length = HEADER_SIZE) (hsize : 2 ^ 31 ≤ ofBe32 header) : Part as r header

def ChatMessage.withoutSender (msg : ChatMessage) : ChatMessage := { msg with sender := [] }

/-- The state after the actions `as`: the bodies `done` have been handed over, and the
rest of the stream is in the read buffer and on the socket. -/
structure Decoded (parse : Bytes → Option ChatMessage) (u : UserSession) (as : List ReaderAction)
    (r : Reader) (done : List Bytes) (part : Bytes) : Prop where
  bodies : ∀ body ∈ done, FrameBody body
  inFrame : Part as r part
  stream : arrived as = done.flatMap frame ++ (part ++ r.socket)
  messages : r.messages.map ChatMessage.withoutSender =
    (u.pending ++ done.filterMap parse).map ChatMessage.withoutSender

section Step

variable {parse : Bytes → Option ChatMessage} {u : UserSession} {as : List ReaderAction}
  {r r' : Reader} {done : List Bytes} {part : Bytes} {a : ReaderAction}

/-- An action that touches neither the read buffer nor the io thread's state. -/
theorem Part.later (h : Part as r part) (a : ReaderAction) (hreading : r'.reading = r.reading)
    (hreadbuf : r'.readbuf = r.readbuf) : Part (as ++ [a]) r' part := by
  cases h with
  | header hheader hsize =>
    rw [← hreadbuf] at hsize ⊢
    exact .header (hreading.trans hheader) hsize
  | body hbody hsize =>
    rw [← hreadbuf] at hsize ⊢
    exact .body (hreading.trans hbody) hsize
  | failed hstopped hfail =>
    exact .failed (hreading.trans hstopped) (List.mem_append_left _ hfail) _
  | thrown hstopped hlength hsize => exact .thrown (hreading.trans hstopped) hlength hsize

/-- What a transfer does. -/
theorem transfer_cases {count : Nat} (h : r.transfer count = some r') :
    r.reading ≠ .stopped ∧ 0 < count ∧ count ≤ r.socket.length ∧
      ∃ hroom : (r.socket.take count).length ≤ r.readbuf.missing,
        r' = { r with socket := r.socket.drop count
                      readbuf := r.readbuf.transfer (r.socket.take count) hroom } := by
  unfold Reader.transfer at h
  split at h
  · rename_i hguard
    exact ⟨hguard.1, hguard.2.1, hguard.2.2.1, _, (Option.some.inj h).symm⟩
  · cases h

/-- What the handler of a full read does. -/
theorem complete_cases (h : r.complete parse = some r') : r.readbuf.Full ∧
    ((r.reading = .header ∧ r' = r.readBody (bodySize r.readbuf.buffer)) ∨
      (r.reading = .body ∧
        r' = { r with session := r.session.readBody parse r.readbuf.buffer }.readHeader)) := by
  unfold Reader.complete at h
  split at h
  · rename_i hfull
    refine ⟨hfull, ?_⟩
    cases hreading : r.reading with
    | header =>
      rw [hreading] at h
      exact Or.inl ⟨rfl, (Option.some.inj h).symm⟩
    | body =>
      rw [hreading] at h
      exact Or.inr ⟨rfl, (Option.some.inj h).symm⟩
    | stopped =>
      rw [hreading] at h
      cases h
  · cases h

/-- The body that `readBody` begins, or the end of the cycle. -/
theorem readBody_cases (hlength : r.readbuf.buffer.length = HEADER_SIZE) :
    (ofBe32 r.readbuf.buffer < 2 ^ 31 ∧
      r.readBody (bodySize r.readbuf.buffer) =
        { r with reading := .body, readbuf := AsyncRead.start (ofBe32 r.readbuf.buffer) }) ∨
    (2 ^ 31 ≤ ofBe32 r.readbuf.buffer ∧
      r.readBody (bodySize r.readbuf.buffer) = { r with reading := .stopped }) := by
  have hsize := bodySize_toNat hlength
  unfold Reader.readBody
  by_cases hsmall : ofBe32 r.readbuf.buffer < 2 ^ 31
  · rw [if_pos hsmall] at hsize
    rw [hsize, if_pos (by rw [maxSize]; omega)]
    exact Or.inl ⟨hsmall, rfl⟩
  · rw [if_neg hsmall] at hsize
    rw [hsize, if_neg (by rw [maxSize]; omega)]
    exact Or.inr ⟨Nat.le_of_not_lt hsmall, rfl⟩

/-- The bytes that a read takes join the frame it is in. -/
theorem Part.transfer (h : Part as r part) {count : Nat} (htransfer : r.transfer count = some r') :
    Part (as ++ [.transfer count]) r' (part ++ r.socket.take count) := by
  obtain ⟨hreading, -, -, hroom, rfl⟩ := transfer_cases htransfer
  have hlength := AsyncRead.transfer_length r.readbuf (r.socket.take count) hroom
  have hreceived := AsyncRead.transfer_received r.readbuf (r.socket.take count) hroom
  cases h with
  | header hheader hsize =>
    rw [← hreceived]
    exact .header hheader (hlength.trans hsize)
  | body hbody hsize =>
    rw [List.append_assoc, ← hreceived, ← hlength]
    exact .body hbody (Nat.lt_of_le_of_lt (Nat.le_of_eq hlength) hsize)
  | failed hstopped => exact absurd hstopped hreading
  | thrown hstopped => exact absurd hstopped hreading

/-- Handing over a body adds its message, if it has one. -/
theorem messages_readBody (body : Bytes) :
    ({ r with session := r.session.readBody parse body }.readHeader.messages).map
        ChatMessage.withoutSender =
      r.messages.map ChatMessage.withoutSender ++
        ([body].filterMap parse).map ChatMessage.withoutSender := by
  have hpending : (r.session.readBody parse body).pending = r.session.pending ++
      (parse body).toList.map fun m => { m with sender := r.session.userEntity.userId } := by
    rw [UserSession.readBody_eq, UserSession.withQueues_pending, UserSession.pending,
      List.append_assoc]
  show (r.taken ++ (r.session.readBody parse body).pending).map _ =
    (r.taken ++ r.session.pending).map _ ++ _
  rw [hpending]
  cases hparse : parse body with
  | none => simp [hparse]
  | some msg => simp [hparse, ChatMessage.withoutSender]

/-- The handler of a full read: either the header begins a frame, or the frame is complete
and its body handed over. -/
theorem Decoded.complete (h : Decoded parse u as r done part)
    (hcomplete : r.complete parse = some r') :
    ∃ done' part', Decoded parse u (as ++ [.complete]) r' done' part' := by
  obtain ⟨hbodies, hpart, hstream, hmessages⟩ := h
  obtain ⟨hfull, hcases⟩ := complete_cases hcomplete
  have hstream' : arrived (as ++ [.complete]) = done.flatMap frame ++ (part ++ r.socket) := by
    rw [arrived_concat, hstream]
    exact List.append_nil _
  cases hpart with
  | header hreading hsize =>
    obtain ⟨-, hr⟩ | ⟨hbody, -⟩ := hcases
    · rw [AsyncRead.received_of_full hfull] at hstream'
      -- the header was read: its four bytes begin the frame whose body is read next
      rcases readBody_cases hsize with ⟨hsmall, heq⟩ | ⟨hlarge, heq⟩
      · have hlength : (AsyncRead.start (ofBe32 r.readbuf.buffer)).buffer.length =
            ofBe32 r.readbuf.buffer := AsyncRead.start_length _
        have hframe : FrameBody (AsyncRead.start (ofBe32 r.readbuf.buffer)).buffer := by
          rwa [FrameBody, hlength]
        have hheader : be32 (AsyncRead.start (ofBe32 r.readbuf.buffer)).buffer.length ++
            (AsyncRead.start (ofBe32 r.readbuf.buffer)).received = r.readbuf.buffer := by
          rw [hlength, be32_ofBe32 hsize, AsyncRead.start_received, List.append_nil]
        have hpart' : Part (as ++ [.complete]) { r with
            reading := .body, readbuf := AsyncRead.start (ofBe32 r.readbuf.buffer) } _ :=
          .body rfl hframe
        rw [hheader] at hpart'
        rw [hr, heq]
        exact ⟨done, _, hbodies, hpart', hstream', hmessages⟩
      · rw [hr, heq]
        exact ⟨done, _, hbodies, .thrown rfl hsize hlarge, hstream', hmessages⟩
    · rw [hreading] at hbody
      cases hbody
  | body hreading hsize =>
    obtain ⟨hheader, -⟩ | ⟨-, hr⟩ := hcases
    · rw [hreading] at hheader
      cases hheader
    · rw [hr]
      rw [AsyncRead.received_of_full hfull] at hstream'
      -- the body was read: the frame is complete and nothing of the next one has been read
      refine ⟨done ++ [r.readbuf.buffer], [], ?_, .header rfl (AsyncRead.start_length _), ?_, ?_⟩
      · intro body hbody
        rcases List.mem_append.mp hbody with hold | hnew
        · exact hbodies body hold
        · rwa [List.mem_singleton.mp hnew]
      · rw [hstream', List.flatMap_append, List.flatMap_singleton]
        exact (List.append_assoc ..).symm
      · rw [messages_readBody, hmessages, ← List.map_append, List.filterMap_append,
          ← List.append_assoc]
  | failed hreading =>
    rw [hreading] at hcases
    obtain ⟨h, -⟩ | ⟨h, -⟩ := hcases <;> cases h
  | thrown hreading =>
    rw [hreading] at hcases
    obtain ⟨h, -⟩ | ⟨h, -⟩ := hcases <;> cases h

/-- **Step lemma.** -/
theorem decoded_step (h : Decoded parse u as r done part) (hstep : r.step parse a = some r') :
    ∃ done' part', Decoded parse u (as ++ [a]) r' done' part' := by
  obtain ⟨hbodies, hpart, hstream, hmessages⟩ := h
  have hstream' : arrived (as ++ [a]) = done.flatMap frame ++ (part ++ (r.socket ++ a.bytes)) := by
    rw [arrived_concat, hstream, List.append_assoc, List.append_assoc]
  have hquiet (ha : a.bytes = []) :
      arrived (as ++ [a]) = done.flatMap frame ++ (part ++ r.socket) := by
    rw [hstream', ha, List.append_nil]
  cases a with
  | arrive chunk =>
    obtain rfl := Option.some.inj hstep
    exact ⟨done, part, hbodies, hpart.later _ rfl rfl, hstream', hmessages⟩
  | transfer count =>
    obtain ⟨-, -, -, hroom, hr⟩ := transfer_cases hstep
    refine ⟨done, _, hbodies, hpart.transfer hstep, ?_, ?_⟩
    · rw [hquiet rfl, hr, List.append_assoc part, List.take_append_drop]
    · rw [hr]
      exact hmessages
  | complete => exact Decoded.complete ⟨hbodies, hpart, hstream, hmessages⟩ hstep
  | fail =>
    obtain ⟨-, rfl⟩ := guarded_step hstep
    have hfail : ReaderAction.fail ∈ as ++ [.fail] := by simp
    exact ⟨done, part, hbodies, .failed rfl hfail part, hquiet rfl, hmessages⟩
  | setUserEntity userEntity =>
    obtain rfl := Option.some.inj hstep
    exact ⟨done, part, hbodies, hpart.later _ rfl rfl, hquiet rfl, hmessages⟩
  | getMessage =>
    -- what is returned comes from the front of what is pending
    have hsame : r'.reading = r.reading ∧ r'.readbuf = r.readbuf ∧ r'.socket = r.socket ∧
        r'.messages = r.messages := by
      rcases r.session.getMessageInUserQueue_spec with ⟨-, heq⟩ |
        ⟨msg, rest, input, output, hpending, hrest, heq⟩
      · simp only [Reader.step, heq, Option.some.injEq] at hstep
        subst hstep
        simp [Reader.messages]
      · simp only [Reader.step, heq, Option.some.injEq] at hstep
        subst hstep
        simp [Reader.messages, hpending, hrest]
    obtain ⟨hreading, hreadbuf, hsocket, hsame⟩ := hsame
    refine ⟨done, part, hbodies, hpart.later _ hreading hreadbuf, ?_, ?_⟩
    · rw [hquiet rfl, hsocket]
    · rw [hsame, hmessages]

/-- **Run lemma.** -/
theorem decoded_of_run (hrun : Run (Reader.step parse) anyStep (Reader.start u) as r) :
    ∃ done part, Decoded parse u as r done part := by
  have hstart : ∃ done part, Decoded parse u [] (Reader.start u) done part :=
    ⟨[], [], by simp, .header rfl (AsyncRead.start_length _), rfl, by simp [Reader.messages,
      Reader.start, UserSession.start, UserSession.pending]⟩
  refine hrun.history (I := fun as r => ∃ done part, Decoded parse u as r done part) ?_ hstart
  rintro before s a t ⟨done, part, h⟩ - hstep
  exact decoded_step h hstep

/-! ## The end of the work -/

/-- A bound of the number of steps that the io thread can take. -/
def Reader.work (r : Reader) : Nat :=
  3 * r.socket.length +
    match r.reading with
    | .header => if r.readbuf.Full then 2 else 0
    | .body => 1
    | .stopped => 0

theorem Reader.work_bounds (r : Reader) :
    3 * r.socket.length ≤ r.work ∧ r.work ≤ 3 * r.socket.length + 2 := by
  unfold Reader.work
  split
  · split <;> omega
  · omega
  · omega

/-- Each step of the io thread uses some of the work up, and only arriving bytes add to it. -/
theorem work_step (hstep : r.step parse a = some r') :
    r'.work + a.reads.toNat ≤ r.work + 3 * a.bytes.length := by
  cases a with
  | arrive chunk =>
    obtain rfl := Option.some.inj hstep
    have hlength : (r.socket ++ chunk).length = r.socket.length + chunk.length :=
      List.length_append
    simp only [Reader.work, hlength, ReaderAction.reads, ReaderAction.bytes, Bool.toNat_false]
    omega
  | transfer count =>
    obtain ⟨-, hpos, hcount, hroom, hr⟩ := transfer_cases hstep
    have hlength : r'.socket.length = r.socket.length - count := by
      rw [hr, List.length_drop]
    -- the bytes taken weigh three each, and the rest of the state at most two
    have hbefore := r.work_bounds
    have hafter := r'.work_bounds
    simp only [ReaderAction.reads, ReaderAction.bytes, Bool.toNat_true]
    omega
  | complete =>
    obtain ⟨hfull, ⟨hreading, hr⟩ | ⟨hreading, hr⟩⟩ := complete_cases hstep
    · -- from a full header the weight falls to that of a body, or to none
      have hwork : r.work = 3 * r.socket.length + 2 := by
        rw [Reader.work, hreading]
        exact congrArg _ (if_pos hfull)
      have hwork' : r'.work ≤ 3 * r.socket.length + 1 := by
        rw [hr, Reader.readBody]
        split
        · exact Nat.le_refl _
        · exact Nat.le_succ _
      simp only [ReaderAction.reads, ReaderAction.bytes, Bool.toNat_true]
      omega
    · have hwork : r.work = 3 * r.socket.length + 1 := by
        rw [Reader.work, hreading]
      have hwork' : r'.work = 3 * r.socket.length := by
        rw [hr]
        rfl
      simp only [ReaderAction.reads, ReaderAction.bytes, Bool.toNat_true]
      omega
  | fail =>
    obtain ⟨-, rfl⟩ := guarded_step hstep
    exact r.work_bounds.1
  | setUserEntity userEntity =>
    obtain rfl := Option.some.inj hstep
    exact Nat.le_refl _
  | getMessage =>
    obtain rfl := Option.some.inj hstep
    exact Nat.le_refl _

/-- The io thread's steps are bounded by the bytes that have arrived. -/
theorem reads_bounded (hrun : Run (Reader.step parse) anyStep (Reader.start u) as r) :
    as.countP ReaderAction.reads ≤ 3 * (arrived as).length := by
  have hwork : r.work + as.countP ReaderAction.reads ≤ 3 * (arrived as).length := by
    have hstart : (Reader.start u).work + [].countP ReaderAction.reads ≤ 3 * (arrived []).length :=
      Nat.le_refl 0
    refine hrun.history (I := fun as r =>
      r.work + as.countP ReaderAction.reads ≤ 3 * (arrived as).length) ?_ hstart
    intro before s a t h _ hstep
    have hused := work_step hstep
    have hcount : (before ++ [a]).countP ReaderAction.reads =
        before.countP ReaderAction.reads + a.reads.toNat := by
      rw [List.countP_append, List.countP_singleton]
      cases a.reads <;> rfl
    rw [hcount, arrived_concat, List.length_append]
    omega
  omega

/-- A reader that has not stopped is idle when its read waits for bytes. -/
theorem idle_iff (hreading : r.reading ≠ .stopped) :
    r.Idle parse ↔ r.socket = [] ∧ ¬ r.readbuf.Full := by
  constructor
  · rintro ⟨htransfer, hcomplete⟩
    have hfull : ¬ r.readbuf.Full := by
      intro hfull
      simp only [Reader.step, Reader.complete, if_pos hfull] at hcomplete
      cases hkind : r.reading <;> simp_all
    have hroom : 1 ≤ r.readbuf.missing := by
      have hle := r.readbuf.le
      simp only [AsyncRead.Full, AsyncRead.missing] at hfull ⊢
      omega
    refine ⟨List.length_eq_zero_iff.mp (Nat.eq_zero_of_not_pos fun hpos => ?_), hfull⟩
    have hone := htransfer 1
    rw [Reader.step, Reader.transfer, dif_pos ⟨hreading, Nat.one_pos, hpos, hroom⟩] at hone
    cases hone
  · rintro ⟨hsocket, hfull⟩
    refine ⟨fun count => ?_, if_neg hfull⟩
    refine dif_neg fun h => ?_
    have hcount := h.2.2.1
    rw [hsocket] at hcount
    exact absurd h.2.1 (Nat.not_lt.mpr hcount)

end Step

/-! ## Streams of frames -/

section Stream

variable {parse : Bytes → Option ChatMessage} {u : UserSession} {as : List ReaderAction}
  {r : Reader} {part rest : Bytes} {later : List Bytes}

/-- A header that is found in a stream of frames announces the body of one of them. -/
theorem header_of_stream (hlater : ∀ body ∈ later, FrameBody body)
    (hrest : Incomplete FrameBody frame rest) {header x : Bytes}
    (hlength : header.length = HEADER_SIZE) (h : header ++ x = later.flatMap frame ++ rest) :
    ofBe32 header < 2 ^ 31 := by
  -- complete the last frame, so that the stream begins with one
  obtain ⟨last, y, hlast, -, hframe⟩ := hrest
  have hbegins : ∃ body z, FrameBody body ∧ header ++ (x ++ y) = frame body ++ z := by
    cases later with
    | nil => exact ⟨last, [], hlast, by rw [← List.append_assoc, h, List.append_nil, hframe]; rfl⟩
    | cons body later =>
      refine ⟨body, later.flatMap frame ++ rest ++ y, hlater body List.mem_cons_self, ?_⟩
      rw [← List.append_assoc, h, List.flatMap_cons, List.append_assoc, List.append_assoc,
        List.append_assoc]
  obtain ⟨body, z, hbody, hcut⟩ := hbegins
  rw [frame, List.append_assoc] at hcut
  obtain ⟨rfl, -⟩ := List.append_inj hcut hlength
  rw [ofBe32_header hbody.lt]
  exact hbody

/-- What an idle reader holds is less than a frame. -/
theorem Part.no_frame (h : Part as r part) (hreading : r.reading ≠ .stopped)
    (hfull : ¬ r.readbuf.Full) {body : Bytes} (hbody : FrameBody body) (x : Bytes) :
    part ≠ frame body ++ x := by
  have hpart := r.readbuf.received_length
  have hfilled : r.readbuf.filled < r.readbuf.buffer.length :=
    Nat.lt_of_le_of_ne r.readbuf.le hfull
  cases h with
  | header _ hsize =>
    intro heq
    have hlength := congrArg List.length heq
    rw [List.length_append, frame_length, hpart] at hlength
    rw [HEADER_SIZE] at hsize
    omega
  | body _ hsize =>
    have hincomplete : Incomplete FrameBody frame
        (be32 r.readbuf.buffer.length ++ r.readbuf.received) := by
      refine ⟨r.readbuf.buffer, r.readbuf.buffer.drop r.readbuf.filled, hsize, ?_, ?_⟩
      · exact List.ne_nil_of_length_pos (by rw [List.length_drop]; omega)
      · rw [List.append_assoc, AsyncRead.received, List.take_append_drop, frame]
    exact hincomplete.no_record frame_prefixCode hbody x
  | failed hstopped => exact absurd hstopped hreading
  | thrown hstopped => exact absurd hstopped hreading

/-- **Stream decoding.** Let the bytes that have arrived be some frames and a part of one
more, in any chunks. Then the messages that have reached the session's queues are those of
the first `k` frames whose bodies parse, in order, as parsed but for the sender; `k` counts
all the frames once the io thread is idle and no read has failed, and it is idle after at
most three steps for each byte. -/
theorem stream_decoded {frames : List Bytes} (hframes : ∀ body ∈ frames, FrameBody body)
    (hrest : Incomplete FrameBody frame rest)
    (hrun : Run (Reader.step parse) anyStep (Reader.start u) as r)
    (harrived : arrived as = frames.flatMap frame ++ rest) :
    (∃ k ≤ frames.length,
      r.messages.map ChatMessage.withoutSender =
        (u.pending ++ (frames.take k).filterMap parse).map ChatMessage.withoutSender ∧
      (r.Idle parse → ReaderAction.fail ∉ as → k = frames.length)) ∧
    as.countP ReaderAction.reads ≤ 3 * (arrived as).length := by
  obtain ⟨done, part, hdone, hpart, hstream, hmessages⟩ := decoded_of_run hrun
  rw [hstream] at harrived
  obtain ⟨later, rfl, htail⟩ := frame_prefixCode.split hrest hdone hframes harrived
  have hlater : ∀ body ∈ later, FrameBody body := fun body hbody =>
    hframes body (List.mem_append_right done hbody)
  refine ⟨⟨done.length, ?_, ?_, fun hidle hfail => ?_⟩, reads_bounded hrun⟩
  · rw [List.length_append]
    exact Nat.le_add_right _ _
  · rw [List.take_left, hmessages]
  · have hreading : r.reading ≠ .stopped := by
      intro hstopped
      cases hpart with
      | header hreading => exact absurd (hreading.symm.trans hstopped) (by decide)
      | body hreading => exact absurd (hreading.symm.trans hstopped) (by decide)
      | failed _ hmem => exact hfail hmem
      | thrown _ hlength hsize =>
        exact absurd (header_of_stream hlater hrest hlength htail) (Nat.not_lt.mpr hsize)
    obtain ⟨hsocket, hfull⟩ := (idle_iff hreading).mp hidle
    -- the socket is empty, so what is left of the stream is the part, which is no frame
    rw [hsocket, List.append_nil] at htail
    cases later with
    | nil => rw [List.append_nil]
    | cons body later =>
      rw [List.flatMap_cons, List.append_assoc] at htail
      exact absurd htail
        (hpart.no_frame hreading hfull (hlater body List.mem_cons_self) _)

def hello : ChatMessage := { messageType := .allMessage, content := ascii "hello" }

/-- A body that does not parse, a message and an empty body. -/
def helloFrames : List Bytes := [[0xFF], hello.serialize, []]

/-- The frames and the beginning of a header, in chunks that cut a header and a body, with
a login in between. -/
def helloStream : List ReaderAction :=
  let stream := helloFrames.flatMap frame ++ [0, 0]
  [.arrive (stream.take 2), .transfer 2, .arrive ((stream.drop 2).take 10), .transfer 2, .complete,
    .transfer 1, .complete, .transfer 4, .complete, .transfer 3, .arrive (stream.drop 12),
    .setUserEntity { userId := ascii "ann" }, .transfer 6, .complete, .getMessage, .transfer 4,
    .complete, .complete, .transfer 2]

theorem stream_decoded_hello :
    ∃ r, Run (Reader.step (parseSerialized [hello, {}])) anyStep (Reader.start {}) helloStream r ∧
      r.messages.map ChatMessage.withoutSender = [hello, {}] := by
  obtain ⟨r, hrun, hend⟩ := exists_run_of_exec (Reader.step (parseSerialized [hello, {}])) anyStep
    (Reader.start {}) helloStream
    (fun r => decide (r.reading ≠ .stopped ∧ r.socket = [] ∧ ¬ r.readbuf.Full)) (by decide)
  obtain ⟨hreading, hidle⟩ := of_decide_eq_true hend
  have hframes : ∀ body ∈ helloFrames, FrameBody body := by
    intro body hbody
    have hshort : ∀ body ∈ helloFrames, body.length ≤ 9 := by decide
    exact Nat.lt_of_le_of_lt (hshort body hbody) (by decide)
  have hrest : Incomplete FrameBody frame [0, 0] :=
    ⟨[], [0, 0], Nat.two_pow_pos 31, by decide, by decide⟩
  obtain ⟨⟨k, -, hmessages, hall⟩, -⟩ :=
    stream_decoded hframes hrest hrun (show arrived helloStream = _ by decide)
  obtain rfl : k = 3 := hall ((idle_iff hreading).mpr hidle) (by decide)
  exact ⟨r, hrun, hmessages.trans (by decide)⟩

end Stream

end BoostChat.Server
