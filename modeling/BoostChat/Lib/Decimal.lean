import Mathlib.Logic.Basic
import Mathlib.Data.List.Basic

/-!
# Decimal text

Decimal numerals as byte strings: `decimal` writes a number, `digitsValue` reads
the digits of one. Reading undoes writing (`digitsValue_decimal`), so a number can
be passed between two programs as text.
-/

namespace BoostChat.Lib

/-- An ASCII decimal digit. -/
def isDigit (b : UInt8) : Bool := 48 ≤ b && b ≤ 57

/-- The ASCII decimal text of a number, without sign or leading zeros. -/
def decimal (n : Nat) : List UInt8 := (Nat.toDigits 10 n).map fun c => c.toNat.toUInt8

/-- The number that a string of digits denotes. -/
def digitsValue (bs : List UInt8) : Nat := bs.foldl (fun acc b => 10 * acc + (b.toNat - 48)) 0

/-- A decimal digit character is one byte, with the same code. -/
private theorem toUInt8_digit {c : Char} (hc : c.isDigit = true) :
    48 ≤ c.toNat ∧ c.toNat ≤ 57 ∧ (c.toNat.toUInt8).toNat = c.toNat := by
  have hlo : 48 ≤ c.toNat ∧ c.toNat ≤ 57 := by
    simp only [Char.isDigit, Bool.and_eq_true, decide_eq_true_eq, ge_iff_le,
      UInt32.le_iff_toNat_le] at hc
    exact hc
  refine ⟨hlo.1, hlo.2, ?_⟩
  rw [Nat.toUInt8, UInt8.toNat_ofNat']
  omega

theorem decimal_isDigit {n : Nat} {b : UInt8} (hb : b ∈ decimal n) : isDigit b = true := by
  obtain ⟨c, hc, rfl⟩ := List.mem_map.mp hb
  have hdigit := toUInt8_digit (Nat.isDigit_of_mem_toDigits (by decide) (by decide) hc)
  simp only [isDigit, Bool.and_eq_true, decide_eq_true_eq, UInt8.le_iff_toNat_le, hdigit.2.2]
  exact ⟨hdigit.1, hdigit.2.1⟩

theorem decimal_ne_nil (n : Nat) : decimal n ≠ [] := by
  simp [decimal]

/-- **Round trip.** Reading a decimal numeral gives back the number it was written from. -/
theorem digitsValue_decimal (n : Nat) : digitsValue (decimal n) = n := by
  have hfold : ∀ (cs : List Char) (acc : Nat), (∀ c ∈ cs, c.isDigit = true) →
      (cs.map fun c => c.toNat.toUInt8).foldl (fun acc b => 10 * acc + (b.toNat - 48)) acc =
        Nat.ofDigitChars 10 cs acc := by
    intro cs
    -- the accumulator is general, for it grows with every digit
    induction cs with
    | nil => intro acc _; simp
    | cons c rest ih =>
      intro acc hall
      rw [List.map_cons, List.foldl_cons, Nat.ofDigitChars_cons,
        (toUInt8_digit (hall c (List.mem_cons_self ..))).2.2]
      exact ih _ fun x hx => hall x (List.mem_cons_of_mem _ hx)
  rw [digitsValue, decimal, hfold _ _ fun c hc =>
    Nat.isDigit_of_mem_toDigits (by decide) (by decide) hc]
  exact Nat.ofDigitChars_ten_toDigits

theorem decimal_injective : Function.Injective decimal := by
  intro m n h
  rw [← digitsValue_decimal m, h, digitsValue_decimal]

end BoostChat.Lib
