import BoostChat.Server.ChatMessage
import BoostChat.Lib.BigEndian

/-!
# Frames on the socket

`MessageConverter` of `PacketConverter.hpp`: a frame is the serialised message
behind a header of four bytes that holds its length. `frame` states what a frame
is.

* `setSizeToBufferHeader_eq` — `SetSizeToBufferHeader` writes the length of the
  payload and leaves the payload alone; so `SerializeMessage` followed by it builds
  the frame (`writeFrame_eq_frame`).
* `getMessageBodySize_toNat` — `GetMessageBodySize` keeps the last byte of the
  header only.
* `headerReadsBack_iff` — hence it reads back the written length exactly when that
  length fits in one byte.
-/

namespace BoostChat.Server

open Lib

def HEADER_SIZE : Nat := 4

/-- `MessageConverter::SerializeMessage`: the buffer is cleared, resized to the
header and the payload, and the payload written behind the header. -/
def serializeMessage (payload : Bytes) : Bytes := List.replicate HEADER_SIZE 0 ++ payload

/-- `MessageConverter::SetSizeToBufferHeader`: the buffer afterwards and the result. -/
def setSizeToBufferHeader (buffer : Bytes) : Bytes × Bool :=
  if buffer.length < HEADER_SIZE then (buffer, false)
  else
    let size := buffer.length - HEADER_SIZE
    ((((buffer.set 0 (size >>> 24 &&& 0xFF).toUInt8).set 1 (size >>> 16 &&& 0xFF).toUInt8).set 2
      (size >>> 8 &&& 0xFF).toUInt8).set 3 (size &&& 0xFF).toUInt8, true)

/-- `MessageConverter::GetMessageBodySize`. The loop assigns each byte of the header to
`size`; what `size` was before is lost. -/
def getMessageBodySize (buffer : Bytes) : UInt64 :=
  (List.range HEADER_SIZE).foldl (fun _ i => (buffer.getD i 0).toUInt64) 0

/-- The frame of a payload: its length in four big-endian bytes, then the payload. -/
def frame (payload : Bytes) : Bytes := be32 payload.length ++ payload

/-- What `AsyncWrite` leaves in the write buffer for a payload. -/
def writeFrame (payload : Bytes) : Bytes := (setSizeToBufferHeader (serializeMessage payload)).1

/-! ## The header writer -/

/-- In a buffer with room for the header, the header becomes the length of the payload,
and the payload stays. -/
theorem setSizeToBufferHeader_eq : ∀ {buffer : Bytes}, HEADER_SIZE ≤ buffer.length →
    setSizeToBufferHeader buffer =
      (be32 (buffer.length - HEADER_SIZE) ++ buffer.drop HEADER_SIZE, true)
  | b₀ :: b₁ :: b₂ :: b₃ :: payload, hroom => by
    have hsize : (b₀ :: b₁ :: b₂ :: b₃ :: payload).length - HEADER_SIZE = payload.length := rfl
    have hlow : payload.length &&& 0xFF = payload.length % 256 := by
      simpa using shift_mask payload.length 0
    -- the four masked shifts are the four digits
    rw [setSizeToBufferHeader, if_neg (Nat.not_lt.mpr hroom), hsize]
    simp only [shift_mask, hlow]
    rfl

theorem serializeMessage_length (payload : Bytes) :
    (serializeMessage payload).length = HEADER_SIZE + payload.length := by
  rw [serializeMessage, List.length_append, List.length_replicate]

/-- The two converter functions together build the frame. -/
theorem writeFrame_eq_frame (payload : Bytes) : writeFrame payload = frame payload := by
  have hlen := serializeMessage_length payload
  have hdrop : (serializeMessage payload).drop HEADER_SIZE = payload := List.drop_left' rfl
  rw [writeFrame, setSizeToBufferHeader_eq (by omega), hlen, Nat.add_sub_cancel_left, hdrop, frame]

theorem frame_length (payload : Bytes) : (frame payload).length = payload.length + 4 := by
  rw [frame, List.length_append, be32_length, Nat.add_comm]

/-! ## The header reader -/

/-- The loop keeps the last byte of the header: the number in it modulo 256. -/
theorem getMessageBodySize_toNat : ∀ {header : Bytes} (payload : Bytes),
    header.length = HEADER_SIZE →
      (getMessageBodySize (header ++ payload)).toNat = ofBe32 header % 256
  | [b₀, b₁, b₂, b₃], payload, _ => by
    have hloop : getMessageBodySize ([b₀, b₁, b₂, b₃] ++ payload) = b₃.toUInt64 := rfl
    have h₃ := b₃.toNat_lt
    rw [hloop, UInt8.toNat_toUInt64, ofBe32]
    omega

/-- What `GetMessageBodySize` finds in a buffer that `SetSizeToBufferHeader` has filled. -/
theorem getMessageBodySize_written {buffer : Bytes} (hroom : HEADER_SIZE ≤ buffer.length)
    (hsize : buffer.length - HEADER_SIZE < 2 ^ 32) :
    (getMessageBodySize (setSizeToBufferHeader buffer).1).toNat =
      (buffer.length - HEADER_SIZE) % 256 := by
  rw [setSizeToBufferHeader_eq hroom, getMessageBodySize_toNat _ (be32_length _), ofBe32_be32 hsize]

/-- The header of a buffer is written, the length is read back from it, and the payload
is as it was. -/
def HeaderReadsBack (buffer : Bytes) : Prop :=
  (setSizeToBufferHeader buffer).2 = true ∧
  (getMessageBodySize (setSizeToBufferHeader buffer).1).toNat = buffer.length - HEADER_SIZE ∧
  (setSizeToBufferHeader buffer).1.drop HEADER_SIZE = buffer.drop HEADER_SIZE

/-- **The reader undoes the writer for short payloads only.** For every buffer with room
for the header and a payload below `2 ^ 32` bytes, the length is read back exactly when the
payload has fewer than 256 bytes. -/
theorem headerReadsBack_iff {buffer : Bytes} (hroom : HEADER_SIZE ≤ buffer.length)
    (hsize : buffer.length - HEADER_SIZE < 2 ^ 32) :
    HeaderReadsBack buffer ↔ buffer.length - HEADER_SIZE < 256 := by
  have hread := getMessageBodySize_written hroom hsize
  constructor
  · rintro ⟨-, hback, -⟩
    rw [hread] at hback
    omega
  · intro hshort
    have hwritten := setSizeToBufferHeader_eq hroom
    refine ⟨?_, ?_, ?_⟩
    · rw [hwritten]
    · rw [hread, Nat.mod_eq_of_lt hshort]
    · rw [hwritten]
      exact List.drop_left' (be32_length _)

/-- Three bytes of payload. -/
theorem headerReadsBack_short : HeaderReadsBack [0, 0, 0, 0, 7, 8, 9] :=
  (headerReadsBack_iff (by decide) (by decide)).mpr (by decide)

/-- A payload of 256 bytes has the length 0 for `GetMessageBodySize`. -/
theorem headerReadsBack_fails :
    let buffer := List.replicate (HEADER_SIZE + 256) 0
    HEADER_SIZE ≤ buffer.length ∧ buffer.length - HEADER_SIZE < 2 ^ 32 ∧
      (setSizeToBufferHeader buffer).2 = true ∧
      getMessageBodySize (setSizeToBufferHeader buffer).1 = 0 ∧ ¬ HeaderReadsBack buffer := by
  intro buffer
  have hlength : buffer.length = HEADER_SIZE + 256 := List.length_replicate
  have hroom : HEADER_SIZE ≤ buffer.length := by rw [hlength]; decide
  have hsize : buffer.length - HEADER_SIZE < 2 ^ 32 := by rw [hlength]; decide
  have hzero : (getMessageBodySize (setSizeToBufferHeader buffer).1).toNat = 0 := by
    rw [getMessageBodySize_written hroom hsize, hlength]
    rfl
  refine ⟨hroom, hsize, ?_, UInt64.toNat_inj.mp hzero, ?_⟩
  · rw [setSizeToBufferHeader_eq hroom]
  · rintro ⟨-, hback, -⟩
    rw [hzero, hlength, Nat.add_sub_cancel_left] at hback
    omega

end BoostChat.Server
