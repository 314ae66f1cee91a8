import Mathlib.Logic.Basic

/-!
# Base64 text

The standard alphabet with padding: `encode` writes three bytes as four characters,
`decode` reads them back. White space is skipped; the bits of the last character that
no byte needs are not looked at.

* `decode_encode` — what is written is read back;
* `mem_encode` — the text consists of the alphabet and padding.
-/

namespace BoostChat.Lib.Base64

/-- The padding character `=`. -/
def pad : UInt8 := 61

/-- The character for a number below 64. -/
def char (n : Nat) : UInt8 :=
  if n < 26 then (65 + n).toUInt8
  else if n < 52 then (71 + n).toUInt8
  else if n < 62 then (n - 4).toUInt8
  else if n = 62 then 43 else 47

/-- The number that a character of the alphabet stands for. -/
def value (c : UInt8) : Option Nat :=
  if 65 ≤ c ∧ c ≤ 90 then some (c.toNat - 65)
  else if 97 ≤ c ∧ c ≤ 122 then some (c.toNat - 71)
  else if 48 ≤ c ∧ c ≤ 57 then some (c.toNat + 4)
  else if c = 43 then some 62
  else if c = 47 then some 63
  else none

def encode : List UInt8 → List UInt8
  | [] => []
  | [a] => [char (a.toNat / 4), char (a.toNat % 4 * 16), pad, pad]
  | [a, b] =>
    [char (a.toNat / 4), char (a.toNat % 4 * 16 + b.toNat / 16), char (b.toNat % 16 * 4), pad]
  | a :: b :: c :: rest =>
    char (a.toNat / 4) :: char (a.toNat % 4 * 16 + b.toNat / 16) ::
      char (b.toNat % 16 * 4 + c.toNat / 64) :: char (c.toNat % 64) :: encode rest

def decodeGroups : List UInt8 → Option (List UInt8)
  | [] => some []
  | [a, b, 61, 61] => do
    let a ← value a
    let b ← value b
    return [(a * 4 + b / 16).toUInt8]
  | [a, b, c, 61] => do
    let a ← value a
    let b ← value b
    let c ← value c
    return [(a * 4 + b / 16).toUInt8, (b % 16 * 16 + c / 4).toUInt8]
  | a :: b :: c :: d :: rest => do
    let a ← value a
    let b ← value b
    let c ← value c
    let d ← value d
    let bytes ← decodeGroups rest
    return (a * 4 + b / 16).toUInt8 :: (b % 16 * 16 + c / 4).toUInt8 ::
      (c % 4 * 64 + d).toUInt8 :: bytes
  | _ => none

/-- Space, tabulator, line feed and carriage return. -/
def isWhite (c : UInt8) : Bool := c == 32 || c == 9 || c == 10 || c == 13

def decode (text : List UInt8) : Option (List UInt8) :=
  decodeGroups (text.filter fun c => !isWhite c)

example : encode [77, 97] = [84, 87, 69, 61] := by decide

/-! ## Round trip -/

theorem value_char : ∀ n < 64, value (char n) = some n := by decide

/-- A text is made of padding and of characters with a value. -/
theorem mem_encode {bytes : List UInt8} {c : UInt8} (h : c ∈ encode bytes) :
    c = pad ∨ value c ≠ none := by
  have hchar : ∀ n < 64, value (char n) ≠ none := fun n hn => by simp [value_char n hn]
  fun_induction encode bytes with
  | case1 => cases h
  | case2 a =>
    have ha := a.toNat_lt
    simp only [List.mem_cons, List.not_mem_nil, or_false] at h
    rcases h with rfl | rfl | rfl | rfl
    · exact Or.inr (hchar _ (by omega))
    · exact Or.inr (hchar _ (by omega))
    · exact Or.inl rfl
    · exact Or.inl rfl
  | case3 a b =>
    have ha := a.toNat_lt
    have hb := b.toNat_lt
    simp only [List.mem_cons, List.not_mem_nil, or_false] at h
    rcases h with rfl | rfl | rfl | rfl
    · exact Or.inr (hchar _ (by omega))
    · exact Or.inr (hchar _ (by omega))
    · exact Or.inr (hchar _ (by omega))
    · exact Or.inl rfl
  | case4 a b c rest ih =>
    have ha := a.toNat_lt
    have hb := b.toNat_lt
    have hc := c.toNat_lt
    simp only [List.mem_cons] at h
    rcases h with rfl | rfl | rfl | rfl | h
    · exact Or.inr (hchar _ (by omega))
    · exact Or.inr (hchar _ (by omega))
    · exact Or.inr (hchar _ (by omega))
    · exact Or.inr (hchar _ (by omega))
    · exact ih h

/-- A number that is a byte's is that byte. -/
theorem toUInt8_eq {n : Nat} {a : UInt8} (h : n = a.toNat) : n.toUInt8 = a := by
  rw [h]
  exact UInt8.ofNat_toNat

theorem decodeGroups_encode (bytes : List UInt8) :
    decodeGroups (encode bytes) = some bytes := by
  have hpad : ∀ n < 64, char n ≠ pad := by decide
  fun_induction encode bytes with
  | case1 => rfl
  | case2 a =>
    have ha := a.toNat_lt
    have hfirst : (a.toNat / 4 * 4 + a.toNat % 4 * 16 / 16).toUInt8 = a := toUInt8_eq (by omega)
    rw [pad, decodeGroups, value_char (a.toNat / 4) (by omega),
      value_char (a.toNat % 4 * 16) (by omega)]
    show some [_] = some [_]
    rw [hfirst]
  | case3 a b =>
    have ha := a.toNat_lt
    have hb := b.toNat_lt
    have hfirst : (a.toNat / 4 * 4 + (a.toNat % 4 * 16 + b.toNat / 16) / 16).toUInt8 = a :=
      toUInt8_eq (by omega)
    have hsecond : ((a.toNat % 4 * 16 + b.toNat / 16) % 16 * 16 +
        b.toNat % 16 * 4 / 4).toUInt8 = b := toUInt8_eq (by omega)
    have hthird := hpad (b.toNat % 16 * 4) (by omega)
    rw [pad, decodeGroups, value_char (a.toNat / 4) (by omega),
      value_char (a.toNat % 4 * 16 + b.toNat / 16) (by omega),
      value_char (b.toNat % 16 * 4) (by omega)]
    · show some [_, _] = some [_, _]
      rw [hfirst, hsecond]
    · exact hthird
  | case4 a b c rest ih =>
    have ha := a.toNat_lt
    have hb := b.toNat_lt
    have hc := c.toNat_lt
    -- the last character is not the padding, so this is the case of a whole group
    have hlast := hpad (c.toNat % 64) (by omega)
    rw [decodeGroups, value_char (a.toNat / 4) (by omega),
      value_char (a.toNat % 4 * 16 + b.toNat / 16) (by omega),
      value_char (b.toNat % 16 * 4 + c.toNat / 64) (by omega),
      value_char (c.toNat % 64) (by omega), ih]
    · show some (_ :: _ :: _ :: rest) = some (_ :: _ :: _ :: rest)
      rw [toUInt8_eq (a := a) (by omega), toUInt8_eq (a := b) (by omega),
        toUInt8_eq (a := c) (by omega)]
    · exact fun _ h _ => hlast h
    · exact fun h _ => hlast h

/-- **Round trip.** -/
theorem decode_encode (bytes : List UInt8) : decode (encode bytes) = some bytes := by
  have hwhite : (encode bytes).filter (fun c => !isWhite c) = encode bytes := by
    rw [List.filter_eq_self]
    intro c hc
    rcases mem_encode hc with rfl | hvalue
    · decide
    · rw [Bool.not_eq_true', ← Bool.not_eq_true]
      intro hwhite
      -- no white character has a value
      simp only [isWhite, Bool.or_eq_true, beq_iff_eq] at hwhite
      rcases hwhite with ((rfl | rfl) | rfl) | rfl <;> exact hvalue (by decide)
  rw [decode, hwhite, decodeGroups_encode]

theorem encode_injective {a b : List UInt8} (h : encode a = encode b) : a = b := by
  have hdecode := congrArg decode h
  rw [decode_encode, decode_encode] at hdecode
  exact Option.some.inj hdecode

end BoostChat.Lib.Base64
