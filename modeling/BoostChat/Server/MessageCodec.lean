import BoostChat.Lib.WireParsing
import BoostChat.Server.ChatMessage

/-!
# Reading a `ChatMessage`

`ChatMessage::_InternalParse` and `MergeFrom` of the generated code, against
`_InternalSerialize`. Both programs link the same generated file.

* `ChatMessage.parseFromArray` — the parser; fields that it does not know are kept, and
  written back behind the others;
* `Canonical` — what the parser can have read, which the server's changes keep;
* `parse_serialize` — what the parser has read is written and read back as it was, unknown
  fields included, and writing it adds at most nine bytes;
* `parse_concat` — encodings one behind another are read as `MergeFrom` merges the messages.
-/

namespace BoostChat.Server

open Lib Lib.Wire

/-! ## The parser -/

/-- The types that the enumeration names. -/
def ChatMessageType.named : List ChatMessageType :=
  [.serverPing, .serverMessage, .allMessage, .whisperMessage, .partyMessage, .partyCreate,
    .partyDelete, .partyJoin, .partyLeave, .friendRequest, .friendAccept, .friendReject,
    .loginMessage, .errorMessage]

/-- `static_cast<ChatMessageType>`. -/
def ChatMessageType.ofNumber (n : Int32) : ChatMessageType :=
  (named.find? fun type => type.number == n).getD (.other n)

/-- `ChatMessage::_InternalParse`: the fields that the parser knows. A number is cut to the
32 bits of the enumeration; nothing is asked of the `bytes` fields. -/
def chatMessageField : Field → Option (ChatMessage → Option ChatMessage)
  | ⟨1, .varint n⟩ => some fun msg =>
    some { msg with messageType := .ofNumber n.toUInt32.toInt32 }
  | ⟨2, .bytes sender⟩ => some fun msg => some { msg with sender }
  | ⟨3, .bytes receiver⟩ => some fun msg => some { msg with receiver }
  | ⟨4, .bytes content⟩ => some fun msg => some { msg with content }
  | _ => none

/-- `ChatMessage::ParseFromArray`. -/
def ChatMessage.parseFromArray (data : Bytes) : Option ChatMessage :=
  (parseMessage 100 chatMessageField {} data).map fun (msg, unknown) =>
    { msg with unknownFields := encode unknown }

/-- `ChatMessage::MergeFrom`: the fields of the source that do not have their default value. -/
def ChatMessage.mergeFrom (msg source : ChatMessage) : ChatMessage where
  messageType := if source.messageType.number = 0 then msg.messageType else source.messageType
  sender := if source.sender = [] then msg.sender else source.sender
  receiver := if source.receiver = [] then msg.receiver else source.receiver
  content := if source.content = [] then msg.content else source.content
  unknownFields := msg.unknownFields ++ source.unknownFields

/-! ## The number of a type -/

theorem number_ofNumber (n : Int32) : (ChatMessageType.ofNumber n).number = n := by
  unfold ChatMessageType.ofNumber
  cases h : ChatMessageType.named.find? fun type => type.number == n with
  | none => rfl
  | some type =>
    have hfound := List.find?_some h
    exact eq_of_beq hfound

/-- The 64 bits that are written for a number, cut to 32 bits again. -/
theorem number_readBack (n : Int32) : n.toInt64.toUInt64.toNat.toUInt32.toInt32 = n := by
  apply Int32.toBitVec_inj.mp
  show BitVec.ofNat 32 (n.toBitVec.signExtend 64).toNat = n.toBitVec
  rw [BitVec.ofNat_toNat]
  ext i hi
  simp only [BitVec.getElem_setWidth, BitVec.getLsbD_signExtend, hi, if_true,
    Nat.lt_trans hi (show 32 < 64 by decide), decide_true, Bool.true_and,
    BitVec.getLsbD_eq_getElem hi]

theorem number_written (n : Int32) : n.toInt64.toUInt64.toNat = 0 ↔ n = 0 := by
  constructor
  · intro h
    have hback := number_readBack n
    rw [h] at hback
    exact hback.symm
  · rintro rfl
    rfl

/-! ## The fields of a message -/

namespace ChatMessage

/-- The fields that are written, but for those that the parser did not know. -/
def fields (msg : ChatMessage) : List Field :=
  enumField 1 msg.messageType.number.toInt64.toUInt64.toNat ++
    (Wire.bytesField 2 msg.sender ++ (Wire.bytesField 3 msg.receiver ++
      Wire.bytesField 4 msg.content))

theorem encode_bytesField {number : Nat} {tag : UInt8} (htag : varint (8 * number + 2) = [tag])
    (value : Bytes) : encode (Wire.bytesField number value) = Server.bytesField tag value := by
  unfold Wire.bytesField Server.bytesField
  split
  · rfl
  · rw [encode_cons, encode_nil, List.append_nil, Field.encode]
    show varint (8 * number + 2) ++ (varint value.length ++ value) = _
    rw [htag]
    rfl

/-- `_InternalSerialize` writes the fields, and then the bytes of the unknown ones. -/
theorem serialize_eq (msg : ChatMessage) :
    msg.serialize = encode msg.fields ++ msg.unknownFields := by
  have htype : (if msg.messageType.number = 0 then []
      else 0x08 :: varint msg.messageType.number.toInt64.toUInt64.toNat) =
      encode (enumField 1 msg.messageType.number.toInt64.toUInt64.toNat) := by
    unfold enumField
    by_cases hzero : msg.messageType.number = 0
    · rw [if_pos hzero, if_pos ((number_written _).mpr hzero), encode_nil]
    · rw [if_neg hzero, if_neg (mt (number_written _).mp hzero), encode_cons, encode_nil,
        List.append_nil]
      rfl
  have hsender : encode (Wire.bytesField 2 msg.sender) = Server.bytesField 0x12 msg.sender :=
    encode_bytesField (by decide) _
  have hreceiver : encode (Wire.bytesField 3 msg.receiver) = Server.bytesField 0x1A msg.receiver :=
    encode_bytesField (by decide) _
  have hcontent : encode (Wire.bytesField 4 msg.content) = Server.bytesField 0x22 msg.content :=
    encode_bytesField (by decide) _
  rw [serialize, fields, encode_append, encode_append, encode_append, hsender, hreceiver, hcontent,
    htype]
  simp only [List.append_assoc]

theorem fields_written (msg : ChatMessage) : ∀ f ∈ msg.fields, Written f := by
  intro f hf
  have hnumber : msg.messageType.number.toInt64.toUInt64.toNat < 2 ^ 64 := UInt64.toNat_lt _
  rcases List.mem_append.mp hf with hf | hf
  · exact written_enumField (by decide) (by decide) hnumber f hf
  · rcases List.mem_append.mp hf with hf | hf
    · exact written_bytesField (by decide) (by decide) _ f hf
    · rcases List.mem_append.mp hf with hf | hf
      · exact written_bytesField (by decide) (by decide) _ f hf
      · exact written_bytesField (by decide) (by decide) _ f hf

/-- Reading the fields of a message merges it into the message read so far. -/
theorem mergeFields_fields {source : ChatMessage}
    (htype : .ofNumber source.messageType.number = source.messageType) (msg : ChatMessage)
    (unknown fs : List Field) :
    mergeFields 100 chatMessageField [] (msg, unknown) (source.fields ++ fs) =
      mergeFields 100 chatMessageField []
        ({ msg.mergeFrom source with unknownFields := msg.unknownFields }, unknown) fs := by
  have hnumber : chatMessageField ⟨1, .varint source.messageType.number.toInt64.toUInt64.toNat⟩ =
      some fun msg => some { msg with messageType := source.messageType } := by
    rw [← htype]
    simp only [chatMessageField, number_readBack, number_ofNumber]
  have hsender : chatMessageField ⟨2, .bytes source.sender⟩ =
      some fun msg => some { msg with sender := source.sender } := rfl
  have hreceiver : chatMessageField ⟨3, .bytes source.receiver⟩ =
      some fun msg => some { msg with receiver := source.receiver } := rfl
  have hcontent : chatMessageField ⟨4, .bytes source.content⟩ =
      some fun msg => some { msg with content := source.content } := rfl
  rw [fields, List.append_assoc, List.append_assoc, List.append_assoc, enumField,
    mergeFields_unlessDefault hnumber rfl, Wire.bytesField, mergeFields_unlessDefault hsender rfl,
    Wire.bytesField, mergeFields_unlessDefault hreceiver rfl, Wire.bytesField,
    mergeFields_unlessDefault hcontent rfl]
  congr 2
  simp only [mergeFrom, number_written]
  split <;> split <;> split <;> split <;> rfl

/-! ## What the parser can have read -/

/-- The type has its name, and the unknown fields are fields that a parser keeps. -/
structure Canonical (msg : ChatMessage) : Prop where
  type : .ofNumber msg.messageType.number = msg.messageType
  unknown : ∃ fs, msg.unknownFields = encode fs ∧ (∀ f ∈ fs, f.Valid) ∧ ∀ t more,
    mergeFields 100 chatMessageField [] (t, more) fs = some (t, more ++ fs)

/-- A message that a program has made itself has no unknown fields. -/
theorem canonical_of_named {msg : ChatMessage}
    (htype : .ofNumber msg.messageType.number = msg.messageType)
    (hunknown : msg.unknownFields = []) : msg.Canonical where
  type := htype
  unknown := ⟨[], hunknown, fun _ hf => absurd hf List.not_mem_nil, fun t more => by
    rw [mergeFields_nil, List.append_nil]⟩

/-- The addressing fields and the content may be anything. -/
theorem Canonical.readdressed {msg : ChatMessage} (h : msg.Canonical) (sender receiver : Bytes) :
    ({ msg with sender, receiver } : ChatMessage).Canonical := ⟨h.type, h.unknown⟩

/-- A field that the parser knows sets one of the four fields of a message. -/
theorem known_cases {f : Field} {update : ChatMessage → Option ChatMessage}
    {msg msg' : ChatMessage} (hknown : chatMessageField f = some update)
    (hupdate : update msg = some msg') :
    (∃ n, f = ⟨1, .varint n⟩ ∧
      msg' = { msg with messageType := .ofNumber n.toUInt32.toInt32 }) ∨
    ∃ value, (f = ⟨2, .bytes value⟩ ∧ msg' = { msg with sender := value }) ∨
      (f = ⟨3, .bytes value⟩ ∧ msg' = { msg with receiver := value }) ∨
      (f = ⟨4, .bytes value⟩ ∧ msg' = { msg with content := value }) := by
  unfold chatMessageField at hknown
  split at hknown
  · obtain rfl := Option.some.inj hknown
    exact Or.inl ⟨_, rfl, (Option.some.inj hupdate).symm⟩
  · obtain rfl := Option.some.inj hknown
    exact Or.inr ⟨_, Or.inl ⟨rfl, (Option.some.inj hupdate).symm⟩⟩
  · obtain rfl := Option.some.inj hknown
    exact Or.inr ⟨_, Or.inr (Or.inl ⟨rfl, (Option.some.inj hupdate).symm⟩)⟩
  · obtain rfl := Option.some.inj hknown
    exact Or.inr ⟨_, Or.inr (Or.inr ⟨rfl, (Option.some.inj hupdate).symm⟩)⟩
  · cases hknown

/-- **What the parser has read is canonical.** -/
theorem canonical_of_parse {body : Bytes} {msg : ChatMessage}
    (h : parseFromArray body = some msg) : msg.Canonical := by
  obtain ⟨⟨msg', unknown⟩, hparse, rfl⟩ := Option.map_eq_some_iff.mp h
  obtain ⟨hvalid, hkept⟩ := parseMessage_kept hparse
  refine ⟨?_, unknown, rfl, hvalid, hkept⟩
  have hnamed : ∀ f update s s', chatMessageField f = some update → update s = some s' →
      .ofNumber s.messageType.number = s.messageType →
      .ofNumber s'.messageType.number = s'.messageType := by
    intro f update s s' hknown hupdate hs
    rcases known_cases hknown hupdate with ⟨n, -, rfl⟩ | ⟨_, ⟨-, rfl⟩ | ⟨-, rfl⟩ | ⟨-, rfl⟩⟩
    · exact congrArg _ (number_ofNumber _)
    · exact hs
    · exact hs
    · exact hs
  have hdefault : ChatMessageType.ofNumber ({} : ChatMessage).messageType.number =
      ({} : ChatMessage).messageType := rfl
  show ChatMessageType.ofNumber msg'.messageType.number = msg'.messageType
  exact parseMessage_invariant hnamed hparse hdefault

/-- **An encoding behind another one.** What the parser has read from the first is merged
with the second as `MergeFrom` merges the two messages. -/
theorem parseFromArray_append {body : Bytes} {msg source : ChatMessage}
    (h : parseFromArray body = some msg) (hsource : source.Canonical)
    (hlength : source.serialize.length < 2 ^ 31 - 16) :
    parseFromArray (body ++ source.serialize) = some (msg.mergeFrom source) := by
  obtain ⟨⟨msg', unknown⟩, hparse, rfl⟩ := Option.map_eq_some_iff.mp h
  obtain ⟨fs, hunknown, hvalid, hkept⟩ := hsource.unknown
  have hfields : ∀ f ∈ source.fields ++ fs, f.Valid := by
    have hshort : (encode source.fields).length < 2 ^ 31 - 16 := by
      rw [serialize_eq, List.length_append] at hlength
      omega
    intro f hf
    rcases List.mem_append.mp hf with hf | hf
    · exact valid_of_written (fields_written source) hshort f hf
    · exact hvalid f hf
  have hread :
      readFields source.serialize.length source.serialize = some (source.fields ++ fs) := by
    rw [serialize_eq, hunknown, ← encode_append]
    exact readFields_encode hfields (length_le_encode _)
  rw [parseFromArray, parseMessage_append hparse hread, mergeFields_fields hsource.type, hkept]
  simp only [Option.map_some, encode_append, mergeFrom, ← hunknown]

/-- What is read from `[0x08, 0x82, 0x00, 0x28, 0x05, 0x22, 0x01, 0x68]`: a type that is written
longer than need be, a field that the parser does not know, and a content. -/
def padded : ChatMessage where
  messageType := .allMessage
  content := ascii "h"
  unknownFields := [0x28, 0x05]

/-- **Encodings one behind another.** What the parser has read is merged with the encoding of
each of the messages behind it, in their order, as `MergeFrom` does: the last type, sender,
receiver and content that are set win, and the unknown fields of all are kept. -/
theorem parse_concat {body : Bytes} {msg : ChatMessage} (h : parseFromArray body = some msg)
    {sources : List ChatMessage} (hsources : ∀ source ∈ sources, source.Canonical)
    (hlength : ∀ source ∈ sources, source.serialize.length < 2 ^ 31 - 16) :
    parseFromArray (body ++ sources.flatMap serialize) = some (sources.foldl mergeFrom msg) := by
  induction sources generalizing body msg with
  | nil => rw [List.flatMap_nil, List.append_nil, List.foldl_nil, h]
  | cons source sources ih =>
    rw [List.forall_mem_cons] at hsources hlength
    have hfirst := parseFromArray_append h hsources.1 hlength.1
    rw [List.flatMap_cons, ← List.append_assoc, List.foldl_cons]
    exact ih hfirst hsources.2 hlength.2

/-- A second message sets the sender and the content anew, a third one the content again. -/
theorem parse_concat_padded :
    parseFromArray ([0x08, 0x82, 0x00, 0x28, 0x05, 0x22, 0x01, 0x68] ++
        ([{ sender := ascii "ann", content := ascii "hi" }, { content := ascii "ho" }] :
          List ChatMessage).flatMap serialize) =
      some { padded with sender := ascii "ann", content := ascii "ho" } := by
  have hparse : parseFromArray [0x08, 0x82, 0x00, 0x28, 0x05, 0x22, 0x01, 0x68] = some padded := by
    decide
  rw [parse_concat hparse]
  · rfl
  · rintro source hsource
    simp only [List.mem_cons, List.not_mem_nil, or_false] at hsource
    rcases hsource with rfl | rfl <;> exact canonical_of_named rfl rfl
  · decide

/-- **Round trip.** A canonical message is read back as it was written. -/
theorem Canonical.readBack {msg : ChatMessage} (h : msg.Canonical)
    (hlength : msg.serialize.length < 2 ^ 31 - 16) : parseFromArray msg.serialize = some msg := by
  have hempty : parseFromArray [] = some {} := rfl
  have hmerge : ({} : ChatMessage).mergeFrom msg = msg := by
    have htype : (if msg.messageType.number = 0 then ({} : ChatMessage).messageType
        else msg.messageType) = msg.messageType := by
      split
      · rename_i hzero
        rw [← h.type, hzero]
        rfl
      · rfl
    have hbytes : ∀ value : Bytes, (if value = [] then [] else value) = value := by
      intro value
      split
      · rename_i hnil
        exact hnil.symm
      · rfl
    simp only [mergeFrom, htype, hbytes, List.nil_append]
  rw [← List.nil_append msg.serialize, parseFromArray_append hempty h hlength, hmerge]

/-! ## The size of what is written back -/

/-- The bytes that are written, with two for a type. -/
def weight (msg : ChatMessage) : Nat :=
  (if msg.messageType.number = 0 then 0 else 2) +
    ((encode (Wire.bytesField 2 msg.sender)).length +
      ((encode (Wire.bytesField 3 msg.receiver)).length +
        (encode (Wire.bytesField 4 msg.content)).length))

theorem length_bytesField_le (number : Nat) (value : Bytes) :
    (encode (Wire.bytesField number value)).length ≤
      (Field.encode ⟨number, .bytes value⟩).length := by
  unfold Wire.bytesField
  split
  · exact Nat.zero_le _
  · refine Nat.le_of_eq ?_
    rw [encode_cons, encode_nil, List.append_nil]

/-- No field raises the weight by more than it has bytes. -/
theorem weight_le {f : Field} {update : ChatMessage → Option ChatMessage} {msg msg' : ChatMessage}
    (hknown : chatMessageField f = some update) (hupdate : update msg = some msg') :
    msg'.weight ≤ msg.weight + f.encode.length := by
  rcases known_cases hknown hupdate with ⟨n, rfl, rfl⟩ |
    ⟨value, ⟨rfl, rfl⟩ | ⟨rfl, rfl⟩ | ⟨rfl, rfl⟩⟩
  · have htwo : 2 ≤ (Field.encode ⟨1, .varint n⟩).length := by
      have htag := List.length_pos_iff.mpr (varint_ne_nil (Field.tag ⟨1, .varint n⟩))
      have hvalue := List.length_pos_iff.mpr (varint_ne_nil n)
      rw [Field.encode, List.length_append]
      exact Nat.add_le_add htag hvalue
    have htype :
        (if (ChatMessageType.ofNumber n.toUInt32.toInt32).number = 0 then 0 else 2) ≤ 2 := by
      split <;> omega
    simp only [weight]
    omega
  · have hle := length_bytesField_le 2 value
    simp only [weight]
    omega
  · have hle := length_bytesField_le 3 value
    simp only [weight]
    omega
  · have hle := length_bytesField_le 4 value
    simp only [weight]
    omega

/-- Only the type may take more than its weight: its number is written with its sign. -/
theorem length_serialize_le (msg : ChatMessage) :
    msg.serialize.length ≤ msg.weight + 9 + msg.unknownFields.length := by
  have htype : (encode (enumField 1 msg.messageType.number.toInt64.toUInt64.toNat)).length ≤
      (if msg.messageType.number = 0 then 0 else 2) + 9 := by
    unfold enumField
    by_cases hzero : msg.messageType.number = 0
    · rw [if_pos ((number_written _).mpr hzero)]
      exact Nat.zero_le _
    · have hten : (varint msg.messageType.number.toInt64.toUInt64.toNat).length ≤ 10 :=
        length_varintFuel_le (k := 9) (Nat.lt_trans (UInt64.toNat_lt _) (by decide))
      rw [if_neg (mt (number_written _).mp hzero), if_neg hzero, encode_cons, encode_nil,
        List.append_nil, Field.encode, List.length_append]
      show 1 + (varint msg.messageType.number.toInt64.toUInt64.toNat).length ≤ 11
      omega
  rw [serialize_eq, fields, encode_append, encode_append, encode_append, List.length_append,
    List.length_append, List.length_append, List.length_append, weight]
  omega

/-- **What has been read can be written and read again.** The message comes back with its
unknown fields, and its encoding is at most nine bytes longer than the one it came in. -/
theorem parse_serialize {body : Bytes} {msg : ChatMessage} (h : parseFromArray body = some msg) :
    msg.serialize.length ≤ body.length + 9 ∧
      (body.length + 9 < 2 ^ 31 - 16 → parseFromArray msg.serialize = some msg) := by
  have hlength : msg.serialize.length ≤ body.length + 9 := by
    obtain ⟨⟨msg', unknown⟩, hparse, rfl⟩ := Option.map_eq_some_iff.mp h
    have hbound := parseMessage_bound (fun _ _ _ _ => weight_le) hparse
    have hserialize := length_serialize_le { msg' with unknownFields := encode unknown }
    have hweight : ({ msg' with unknownFields := encode unknown } : ChatMessage).weight =
        msg'.weight := rfl
    have hdefault : ({} : ChatMessage).weight = 0 := rfl
    rw [hdefault, Nat.zero_add] at hbound
    rw [hweight] at hserialize
    exact Nat.le_trans hserialize (by dsimp only; omega)
  exact ⟨hlength, fun hshort =>
    (canonical_of_parse h).readBack (Nat.lt_of_le_of_lt hlength hshort)⟩

/-- The type is written in its short form, and the unknown field behind the others. -/
theorem parse_serialize_padded :
    padded.serialize = [0x08, 0x02, 0x22, 0x01, 0x68, 0x28, 0x05] ∧
      parseFromArray padded.serialize = some padded := by
  have hparse : parseFromArray [0x08, 0x82, 0x00, 0x28, 0x05, 0x22, 0x01, 0x68] = some padded := by
    decide
  exact ⟨by decide, (parse_serialize hparse).2 (by decide)⟩

end ChatMessage

end BoostChat.Server
