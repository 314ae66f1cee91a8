import Mathlib.Logic.Basic

/-!
# Reading records from a byte stream

* `PrefixCode` — an encoding of records in which no encoding begins another one, so that
  a stream of them can be cut into its records in one way only (`PrefixCode.split`). A
  stream may end in a record of which only a part has arrived (`Incomplete`).
* `AsyncRead` — a read into a buffer of fixed size that is filled by parts; what is
  outside the filled part is whatever the buffer held before.
-/

namespace BoostChat.Lib

/-! ## Streams of records -/

section PrefixCode

variable {α β : Type*} {valid : β → Prop} {code : β → List α}

/-- The encoding of a valid record is the beginning of a stream in one way only. -/
def PrefixCode (valid : β → Prop) (code : β → List α) : Prop :=
  ∀ {b b' : β} {x y : List α}, valid b → valid b' → code b ++ x = code b' ++ y → b = b' ∧ x = y

/-- A part of a record's encoding: not all of it. -/
def Incomplete (valid : β → Prop) (code : β → List α) (rest : List α) : Prop :=
  ∃ b x, valid b ∧ x ≠ [] ∧ code b = rest ++ x

/-- An incomplete record does not begin with a record. -/
theorem Incomplete.no_record {rest : List α} (h : Incomplete valid code rest)
    (hcode : PrefixCode valid code) {b : β} (hb : valid b) (x : List α) : rest ≠ code b ++ x := by
  rintro rfl
  obtain ⟨b', y, hb', hy, heq⟩ := h
  have hcut : code b' ++ [] = code b ++ (x ++ y) := by
    rw [List.append_nil, heq, List.append_assoc]
  obtain ⟨-, hnil⟩ := hcode hb' hb hcut
  exact hy (List.append_eq_nil_iff.mp hnil.symm).2

/-- **Unique cuts.** The records read off the front of a stream are the first ones that
were written, and what follows them is the stream of the others. -/
theorem PrefixCode.split (hcode : PrefixCode valid code) {rest : List α}
    (hrest : Incomplete valid code rest) :
    ∀ {done bs : List β} {x : List α}, (∀ b ∈ done, valid b) → (∀ b ∈ bs, valid b) →
      done.flatMap code ++ x = bs.flatMap code ++ rest →
      ∃ later, bs = done ++ later ∧ x = later.flatMap code ++ rest
  | [], bs, x, _, _, h => ⟨bs, rfl, h⟩
  | d :: done, [], x, hdone, _, h => by
    rw [List.flatMap_cons, List.append_assoc] at h
    exact absurd h.symm (hrest.no_record hcode (hdone d List.mem_cons_self) _)
  | d :: done, b :: bs, x, hdone, hbs, h => by
    rw [List.flatMap_cons, List.flatMap_cons, List.append_assoc, List.append_assoc] at h
    obtain ⟨rfl, htail⟩ := hcode (hdone d List.mem_cons_self) (hbs b List.mem_cons_self) h
    obtain ⟨later, rfl, hx⟩ := PrefixCode.split hcode hrest
      (fun c hc => hdone c (List.mem_cons_of_mem _ hc))
      (fun c hc => hbs c (List.mem_cons_of_mem _ hc)) htail
    exact ⟨later, rfl, hx⟩

end PrefixCode

/-! ## Reads by parts -/

/-- A read that has filled the first bytes of its buffer. -/
structure AsyncRead where
  buffer : List UInt8
  filled : Nat
  le : filled ≤ buffer.length

namespace AsyncRead

/-- A read into a fresh buffer. -/
def start (size : Nat) : AsyncRead := ⟨List.replicate size 0, 0, Nat.zero_le _⟩

/-- A read into a buffer that keeps its contents until they are overwritten. -/
def into (buffer : List UInt8) : AsyncRead := ⟨buffer, 0, Nat.zero_le _⟩

/-- The room that is left. -/
def missing (r : AsyncRead) : Nat := r.buffer.length - r.filled

def Full (r : AsyncRead) : Prop := r.filled = r.buffer.length

instance (r : AsyncRead) : Decidable r.Full :=
  inferInstanceAs (Decidable (r.filled = r.buffer.length))

/-- The next bytes are written behind the filled part. -/
def transfer (r : AsyncRead) (chunk : List UInt8) (h : chunk.length ≤ r.missing) : AsyncRead where
  buffer := r.buffer.take r.filled ++ chunk ++ r.buffer.drop (r.filled + chunk.length)
  filled := r.filled + chunk.length
  le := by
    have hroom : r.filled + chunk.length ≤ r.buffer.length := Nat.add_le_of_le_sub' r.le h
    simp only [List.length_append, List.length_take, List.length_drop]
    omega

/-- The bytes read so far. -/
def received (r : AsyncRead) : List UInt8 := r.buffer.take r.filled

variable (r : AsyncRead) (chunk : List UInt8) (h : chunk.length ≤ r.missing)

@[simp] theorem start_received (size : Nat) : (start size).received = [] := rfl

@[simp] theorem into_received (buffer : List UInt8) : (into buffer).received = [] := rfl

@[simp] theorem start_length (size : Nat) : (start size).buffer.length = size :=
  List.length_replicate

theorem received_length : r.received.length = r.filled := by
  rw [received, List.length_take, Nat.min_eq_left r.le]

theorem received_of_full {r : AsyncRead} (hfull : r.Full) : r.received = r.buffer := by
  rw [received, hfull, List.take_length]

@[simp] theorem transfer_length : (r.transfer chunk h).buffer.length = r.buffer.length := by
  have hroom : r.filled + chunk.length ≤ r.buffer.length := Nat.add_le_of_le_sub' r.le h
  simp only [transfer, List.length_append, List.length_take, List.length_drop]
  omega

/-- A transfer appends to what was read. -/
@[simp] theorem transfer_received : (r.transfer chunk h).received = r.received ++ chunk := by
  have htake : (r.received ++ chunk).length = r.filled + chunk.length := by
    rw [List.length_append, received_length]
  show (r.received ++ chunk ++ r.buffer.drop (r.filled + chunk.length)).take
    (r.filled + chunk.length) = r.received ++ chunk
  rw [← htake, List.take_left]

end AsyncRead

end BoostChat.Lib
