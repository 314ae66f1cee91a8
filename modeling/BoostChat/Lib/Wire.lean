import Mathlib.Algebra.Group.Nat.Defs
import Mathlib.Tactic.Cases

/-!
# The proto3 wire format

A message on the wire is a sequence of fields, each a number and a value of one of the
wire types.

* `encode` writes a sequence of fields, `readFields` reads one back, and
  `readFields_encode` says that nothing is lost;
* `mergeFields` is the loop of a message parser: a field that the message type knows
  updates the message, everything else is kept as unknown, groups included.

Tags have at most five bytes, varints ten, and a length is below `2^31`.
-/

namespace BoostChat.Lib.Wire

/-! ## Varints -/

/-- Base-128 varint of a number below `2^(7 * fuel)`, least significant group first. -/
def varintFuel : Nat → Nat → List UInt8
  | 0, _ => []
  | fuel + 1, n =>
    if n < 128 then [n.toUInt8] else (n % 128 + 128).toUInt8 :: varintFuel fuel (n / 128)

/-- The varint of a 64-bit number: at most ten bytes. -/
def varint (n : Nat) : List UInt8 := varintFuel 10 n

/-- Reads a varint of at most so many bytes: the number and what follows it. -/
def readVarint : Nat → List UInt8 → Option (Nat × List UInt8)
  | 0, _ => none
  | _ + 1, [] => none
  | limit + 1, b :: rest =>
    if b.toNat < 128 then some (b.toNat, rest)
    else (readVarint limit rest).map fun (n, rest) => (b.toNat - 128 + 128 * n, rest)

theorem toNat_toUInt8 {n : Nat} (h : n < 256) : n.toUInt8.toNat = n := by
  simp [Nat.mod_eq_of_lt h]

/-- A reader that allows enough bytes reads the number that was written. -/
theorem readVarint_varintFuel (rest : List UInt8) : ∀ {limit fuel n : Nat},
    n < 128 ^ (limit + 1) → limit ≤ fuel →
      readVarint (limit + 1) (varintFuel (fuel + 1) n ++ rest) = some (n, rest) := by
  intro limit
  -- one byte of the number for each byte of the limit
  induction limit with
  | zero =>
    intro fuel n hn _
    have hsmall : n < 128 := by omega
    rw [varintFuel, if_pos hsmall, List.singleton_append, readVarint, toNat_toUInt8 (by omega),
      if_pos hsmall]
  | succ limit ih =>
    intro fuel n hn hle
    rw [varintFuel]
    by_cases hsmall : n < 128
    · rw [if_pos hsmall, List.singleton_append, readVarint, toNat_toUInt8 (by omega),
        if_pos hsmall]
    · have hhead : (n % 128 + 128).toUInt8.toNat = n % 128 + 128 := toNat_toUInt8 (by omega)
      have htail : n / 128 < 128 ^ (limit + 1) := by
        rw [Nat.div_lt_iff_lt_mul (by omega)]
        rwa [← Nat.pow_succ]
      obtain ⟨fuel, rfl⟩ := Nat.exists_eq_add_of_le' (Nat.le_trans (Nat.le_add_left 1 limit) hle)
      have hread := ih htail (show limit ≤ fuel by omega)
      rw [if_neg hsmall, List.cons_append, readVarint, hhead, if_neg (by omega), hread]
      simp only [Option.map_some, Option.some.injEq, Prod.mk.injEq, and_true]
      omega

theorem readVarint_varint (limit n : Nat) (rest : List UInt8) (hn : n < 128 ^ (limit + 1))
    (hlimit : limit ≤ 9) : readVarint (limit + 1) (varint n ++ rest) = some (n, rest) :=
  readVarint_varintFuel rest hn hlimit

theorem varint_ne_nil (n : Nat) : varint n ≠ [] := by
  unfold varint varintFuel
  split <;> simp

/-! ## Fields -/

inductive WireValue
  | varint (n : Nat)
  | fixed64 (payload : List UInt8)
  | bytes (payload : List UInt8)
  | startGroup
  | endGroup
  | fixed32 (payload : List UInt8)
deriving DecidableEq

structure Field where
  number : Nat
  value : WireValue
deriving DecidableEq

def WireValue.wireType : WireValue → Nat
  | .varint _ => 0
  | .fixed64 _ => 1
  | .bytes _ => 2
  | .startGroup => 3
  | .endGroup => 4
  | .fixed32 _ => 5

def WireValue.encode : WireValue → List UInt8
  | .varint n => Wire.varint n
  | .bytes payload => Wire.varint payload.length ++ payload
  | .fixed64 payload | .fixed32 payload => payload
  | .startGroup | .endGroup => []

def Field.tag (f : Field) : Nat := 8 * f.number + f.value.wireType

def Field.encode (f : Field) : List UInt8 := varint f.tag ++ f.value.encode

/-- A sequence of fields on the wire. -/
def encode (fs : List Field) : List UInt8 := fs.flatMap Field.encode

/-- A `string` or `bytes` field; an empty one is not written. -/
def bytesField (number : Nat) (value : List UInt8) : List Field :=
  if value = [] then [] else [⟨number, .bytes value⟩]

/-- An enumeration field; zero is not written. -/
def enumField (number value : Nat) : List Field :=
  if value = 0 then [] else [⟨number, .varint value⟩]

def WireValue.Valid : WireValue → Prop
  | .varint n => n < 2 ^ 64
  | .fixed64 payload => payload.length = 8
  | .bytes payload => payload.length < 2 ^ 31 - 16
  | .startGroup | .endGroup => True
  | .fixed32 payload => payload.length = 4

/-- The fields that the format has an encoding for. -/
structure Field.Valid (f : Field) : Prop where
  pos : 0 < f.number
  lt : f.number < 2 ^ 29
  value : f.value.Valid

/-! ## Reading -/

/-- So many bytes, and what follows them. -/
def readBytes (n : Nat) (input : List UInt8) : Option (List UInt8 × List UInt8) :=
  if n ≤ input.length then some (input.take n, input.drop n) else none

/-- A value of a wire type. -/
def readValue (wireType : Nat) (input : List UInt8) : Option (WireValue × List UInt8) :=
  match wireType with
  | 0 => (readVarint 10 input).map fun (n, rest) => (.varint (n % 2 ^ 64), rest)
  | 1 => (readBytes 8 input).map fun (bytes, rest) => (.fixed64 bytes, rest)
  | 2 => do
    let (size, rest) ← readVarint 5 input
    -- a size may be `INT_MAX - 16` at most
    if size < 2 ^ 31 - 16 then
      let (bytes, rest) ← readBytes size rest
      return (.bytes bytes, rest)
    else none
  | 3 => some (.startGroup, input)
  | 4 => some (.endGroup, input)
  | 5 => (readBytes 4 input).map fun (bytes, rest) => (.fixed32 bytes, rest)
  | _ => none

def readField (input : List UInt8) : Option (Field × List UInt8) := do
  let (tag, rest) ← readVarint 5 input
  let tag := tag % 2 ^ 32
  -- no field has the number zero
  if tag / 8 = 0 then none
  else
    let (value, rest) ← readValue (tag % 8) rest
    return (⟨tag / 8, value⟩, rest)

/-- All fields of the input, with the number of fields as fuel. -/
def readFields : Nat → List UInt8 → Option (List Field)
  | _, [] => some []
  | 0, _ :: _ => none
  | fuel + 1, b :: input => do
    let (f, rest) ← readField (b :: input)
    let fs ← readFields fuel rest
    return f :: fs

theorem readBytes_append (bytes rest : List UInt8) :
    readBytes bytes.length (bytes ++ rest) = some (bytes, rest) := by
  unfold readBytes
  rw [if_pos (by simp), List.take_left, List.drop_left]

theorem readValue_encode {value : WireValue} (h : value.Valid) (rest : List UInt8) :
    readValue value.wireType (value.encode ++ rest) = some (value, rest) := by
  cases value with
  | varint n =>
    have hn : n < 2 ^ 64 := h
    have hread := readVarint_varint 9 n rest (by omega) (by omega)
    simp only [readValue, WireValue.wireType, WireValue.encode, hread, Option.map_some,
      Nat.mod_eq_of_lt hn]
  | fixed64 bytes =>
    have hlen : bytes.length = 8 := h
    have hread := readBytes_append bytes rest
    rw [hlen] at hread
    simp only [readValue, WireValue.wireType, WireValue.encode, hread, Option.map_some]
  | bytes bytes =>
    have hlen : bytes.length < 2 ^ 31 - 16 := h
    have hread := readVarint_varint 4 bytes.length (bytes ++ rest) (by omega) (by omega)
    simp only [readValue, WireValue.wireType, WireValue.encode, List.append_assoc, hread, hlen,
      Option.bind_eq_bind, Option.bind_some, if_true, readBytes_append, Option.pure_def]
  | startGroup | endGroup => rfl
  | fixed32 bytes =>
    have hlen : bytes.length = 4 := h
    have hread := readBytes_append bytes rest
    rw [hlen] at hread
    simp only [readValue, WireValue.wireType, WireValue.encode, hread, Option.map_some]

theorem readField_encode {f : Field} (h : f.Valid) (rest : List UInt8) :
    readField (f.encode ++ rest) = some (f, rest) := by
  have htype : f.value.wireType < 8 := by cases f.value <;> simp [WireValue.wireType]
  have hlt : f.tag < 2 ^ 32 := by
    have := h.lt
    unfold Field.tag
    omega
  have hnumber : f.tag / 8 = f.number := by
    unfold Field.tag
    omega
  have hwire : f.tag % 8 = f.value.wireType := by
    unfold Field.tag
    omega
  have hread := readVarint_varint 4 f.tag (f.value.encode ++ rest) (by omega) (by omega)
  have hpos : f.number ≠ 0 := Nat.ne_of_gt h.pos
  simp only [readField, Field.encode, List.append_assoc, hread, Option.bind_eq_bind,
    Option.bind_some, Nat.mod_eq_of_lt hlt, hnumber, hwire, if_neg hpos,
    readValue_encode h.value, Option.pure_def]

theorem Field.encode_ne_nil (f : Field) : f.encode ≠ [] := by
  unfold Field.encode
  simp [varint_ne_nil]

@[simp] theorem encode_nil : encode [] = [] := rfl

@[simp] theorem encode_cons (f : Field) (fs : List Field) :
    encode (f :: fs) = f.encode ++ encode fs := rfl

/-- **Round trip.** What was written is read back. -/
theorem readFields_encode : ∀ {fs : List Field} {fuel : Nat}, (∀ f ∈ fs, f.Valid) →
    fs.length ≤ fuel → readFields fuel (encode fs) = some fs := by
  intro fs
  induction fs with
  | nil =>
    intro fuel _ _
    cases fuel <;> rfl
  | cons f fs ih =>
    intro fuel hvalid hfuel
    obtain ⟨fuel, rfl⟩ := Nat.exists_eq_add_of_le' (Nat.le_trans (Nat.le_add_left 1 _) hfuel)
    obtain ⟨b, input, hinput⟩ := List.exists_cons_of_ne_nil (Field.encode_ne_nil f)
    have hread := readField_encode (hvalid f List.mem_cons_self) (encode fs)
    have hle : fs.length ≤ fuel := by
      rw [List.length_cons] at hfuel
      omega
    have hrest := ih (fun g hg => hvalid g (List.mem_cons_of_mem _ hg)) hle
    rw [hinput, List.cons_append] at hread
    rw [encode_cons, hinput, List.cons_append, readFields, hread]
    simp [hrest]

theorem length_le_encode (fs : List Field) : fs.length ≤ (encode fs).length := by
  induction fs with
  | nil => exact Nat.le_refl _
  | cons f fs ih =>
    have hpos := List.length_pos_iff.mpr (Field.encode_ne_nil f)
    rw [encode_cons, List.length_append, List.length_cons]
    omega

/-- A field's bytes are among those of the message. -/
theorem bytes_le_encode {fs : List Field} (number : Nat) {bytes : List UInt8}
    (h : ⟨number, .bytes bytes⟩ ∈ fs) : bytes.length ≤ (encode fs).length := by
  have hfield : bytes.length ≤ (Field.encode ⟨number, .bytes bytes⟩).length := by
    simp only [Field.encode, WireValue.encode, List.length_append]
    omega
  induction fs with
  | nil => cases h
  | cons f fs ih =>
    rw [encode_cons, List.length_append]
    rcases List.mem_cons.mp h with rfl | h
    · omega
    · have := ih h
      omega

/-- The fields that the two writers of fields write. -/
inductive Written : Field → Prop
  | bytes {number : Nat} {payload : List UInt8} (hpos : 0 < number) (hlt : number < 2 ^ 29) :
      Written ⟨number, .bytes payload⟩
  | varint {number n : Nat} (hpos : 0 < number) (hlt : number < 2 ^ 29) (hn : n < 2 ^ 64) :
      Written ⟨number, .varint n⟩

theorem written_bytesField {number : Nat} (hpos : 0 < number) (hlt : number < 2 ^ 29)
    (value : List UInt8) : ∀ f ∈ bytesField number value, Written f := by
  intro f hf
  unfold bytesField at hf
  split at hf
  · cases hf
  · exact List.mem_singleton.mp hf ▸ .bytes hpos hlt

theorem written_enumField {number value : Nat} (hpos : 0 < number) (hlt : number < 2 ^ 29)
    (hvalue : value < 2 ^ 64) : ∀ f ∈ enumField number value, Written f := by
  intro f hf
  unfold enumField at hf
  split at hf
  · cases hf
  · exact List.mem_singleton.mp hf ▸ .varint hpos hlt hvalue

/-- In a message that is short enough all of them have an encoding. -/
theorem valid_of_written {fs : List Field} (hwritten : ∀ f ∈ fs, Written f)
    (hlen : (encode fs).length < 2 ^ 31 - 16) : ∀ f ∈ fs, f.Valid := by
  intro f hf
  cases hwritten f hf with
  | bytes hpos hlt => exact ⟨hpos, hlt, Nat.lt_of_le_of_lt (bytes_le_encode _ hf) hlen⟩
  | varint hpos hlt hn => exact ⟨hpos, hlt, hn⟩

/-! ## Message parsers -/

variable {σ : Type} (depth : Nat) (known : Field → Option (σ → Option σ))

/-- The loop of a message parser, given the numbers of the groups that are open: the
message and the fields it does not know. A known field may be refused, and groups nest
up to a depth. -/
def mergeFields : List Nat → σ × List Field → List Field → Option (σ × List Field)
  | [], acc, [] => some acc
  | _ :: _, _, [] => none
  | [], (s, unknown), f :: fs =>
    match known f with
    | some update => (update s).bind fun s => mergeFields [] (s, unknown) fs
    | none =>
      match f.value with
      | .startGroup =>
        if 0 < depth then mergeFields [f.number] (s, unknown ++ [f]) fs else none
      | .endGroup => none
      | _ => mergeFields [] (s, unknown ++ [f]) fs
  | n :: groups, (s, unknown), f :: fs =>
    match f.value with
    | .startGroup =>
      if groups.length + 1 < depth then mergeFields (f.number :: n :: groups) (s, unknown ++ [f]) fs
      else none
    | .endGroup => if f.number = n then mergeFields groups (s, unknown ++ [f]) fs else none
    | _ => mergeFields (n :: groups) (s, unknown ++ [f]) fs

/-- A message parser: from the default message, over all fields of the input. -/
def parseMessage (init : σ) (input : List UInt8) : Option (σ × List Field) := do
  let fs ← readFields input.length input
  mergeFields depth known [] (init, []) fs

variable {depth known}

@[simp] theorem mergeFields_nil (acc : σ × List Field) :
    mergeFields depth known [] acc [] = some acc := by
  rw [mergeFields]

/-- A field that the message knows. -/
theorem mergeFields_known {f : Field} {update : σ → Option σ} (h : known f = some update)
    (s : σ) (unknown fs : List Field) :
    mergeFields depth known [] (s, unknown) (f :: fs) =
      (update s).bind fun s => mergeFields depth known [] (s, unknown) fs := by
  rw [mergeFields, h]

/-- A known field that is left out when it has its default value. -/
theorem mergeFields_optional {f : Field} {update : σ → Option σ} {s s' : σ} {p : Prop}
    [Decidable p] (hknown : known f = some update) (hupdate : update s = some s')
    (hdefault : p → s' = s) (unknown fs : List Field) :
    mergeFields depth known [] (s, unknown) ((if p then [] else [f]) ++ fs) =
      mergeFields depth known [] (s', unknown) fs := by
  split
  · rename_i hp
    rw [hdefault hp, List.nil_append]
  · rw [List.singleton_append, mergeFields_known hknown, hupdate, Option.bind_some]

theorem mergeFields_bytesField {number : Nat} {value : List UInt8} {update : σ → Option σ}
    {s s' : σ} (hknown : known ⟨number, .bytes value⟩ = some update) (hupdate : update s = some s')
    (hdefault : value = [] → s' = s) (unknown fs : List Field) :
    mergeFields depth known [] (s, unknown) (bytesField number value ++ fs) =
      mergeFields depth known [] (s', unknown) fs :=
  mergeFields_optional hknown hupdate hdefault unknown fs

theorem mergeFields_enumField {number value : Nat} {update : σ → Option σ}
    {s s' : σ} (hknown : known ⟨number, .varint value⟩ = some update) (hupdate : update s = some s')
    (hdefault : value = 0 → s' = s) (unknown fs : List Field) :
    mergeFields depth known [] (s, unknown) (enumField number value ++ fs) =
      mergeFields depth known [] (s', unknown) fs :=
  mergeFields_optional hknown hupdate hdefault unknown fs

/-- A field of an unexpected number or type does not touch the message. -/
theorem mergeFields_unknown {number : Nat} {bytes : List UInt8}
    (h : known ⟨number, .bytes bytes⟩ = none) (s : σ) (unknown fs : List Field) :
    mergeFields depth known [] (s, unknown) (⟨number, .bytes bytes⟩ :: fs) =
      mergeFields depth known [] (s, unknown ++ [⟨number, .bytes bytes⟩]) fs := by
  rw [mergeFields, h]

/-- What a parser makes of an encoded message is decided by the fields alone. -/
theorem parseMessage_encode (init : σ) {fs : List Field} (h : ∀ f ∈ fs, f.Valid) :
    parseMessage depth known init (encode fs) = mergeFields depth known [] (init, []) fs := by
  rw [parseMessage, readFields_encode h (length_le_encode fs)]
  rfl

/-! ## UTF-8 -/

def isContinuation (b : UInt8) : Bool := 0x80 ≤ b && b ≤ 0xBF

/-- The bytes are well-formed UTF-8: no overlong form, no surrogate, nothing above U+10FFFF. -/
def validUtf8 : List UInt8 → Bool
  | [] => true
  | b :: rest =>
    if b < 0x80 then validUtf8 rest
    else
      match rest with
      | [] => false
      | c :: rest =>
        if 0xC2 ≤ b && b ≤ 0xDF then isContinuation c && validUtf8 rest
        else
          match rest with
          | [] => false
          | d :: rest =>
            if 0xE0 ≤ b && b ≤ 0xEF then
              isContinuation c && (b != 0xE0 || 0xA0 ≤ c) && (b != 0xED || c ≤ 0x9F) &&
                isContinuation d && validUtf8 rest
            else
              match rest with
              | [] => false
              | e :: rest =>
                0xF0 ≤ b && b ≤ 0xF4 && isContinuation c && (b != 0xF0 || 0x90 ≤ c) &&
                  (b != 0xF4 || c ≤ 0x8F) && isContinuation d && isContinuation e &&
                  validUtf8 rest

/-- ASCII is valid UTF-8. -/
theorem validUtf8_ascii {text : List UInt8} (h : text.all (· < 0x80) = true) :
    validUtf8 text = true := by
  induction text with
  | nil => rfl
  | cons b rest ih =>
    rw [List.all_cons, Bool.and_eq_true, decide_eq_true_eq] at h
    unfold validUtf8
    rw [if_pos h.1]
    exact ih h.2

example : validUtf8 [0x41, 0xC3, 0xA9, 0xE2, 0x82, 0xAC] = true := by decide

example : validUtf8 [0xC0, 0xAF] = false := by decide

end BoostChat.Lib.Wire
