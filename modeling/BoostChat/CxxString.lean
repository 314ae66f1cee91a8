import BoostChat.Basic
import BoostChat.Lib.Decimal
import Mathlib.Algebra.Group.Nat.Defs
import Mathlib.Data.List.TakeWhile

/-!
# String-to-number conversions of the C++ library

`std::stoul` and `std::stoll` with base 10: leading white space and one sign are
skipped, the longest run of digits is converted and whatever follows it is
ignored. No digit at all is `std::invalid_argument`; a magnitude that does not fit
is `std::out_of_range`. `std::stoul` applies a minus sign in the unsigned type, and
the width of `unsigned long` (32 bits on Windows, 64 bits on Linux) is a parameter.
-/

namespace BoostChat

open Lib

theorem cString_of_no_zero {text : Bytes} (h : 0 ∉ text) : cString text = text :=
  List.takeWhile_eq_self_iff.mpr fun _ hb => bne_iff_ne.mpr fun hzero => h (hzero ▸ hb)

/-- `isspace` in the "C" locale. -/
def isSpace (b : UInt8) : Bool := b == 32 || (9 ≤ b && b ≤ 13)

/-- The sign and the digits that a numeric conversion reads from a text. -/
def numeral (str : Bytes) : Bool × Bytes :=
  match str.dropWhile isSpace with
  | 45 :: rest => (true, rest.takeWhile isDigit)
  | 43 :: rest => (false, rest.takeWhile isDigit)
  | rest => (false, rest.takeWhile isDigit)

/-- `std::stoul(str)`, for an `unsigned long` with greatest value `ulongMax`. -/
def stoul (ulongMax : Nat) (str : Bytes) : Except StdException Nat :=
  let (negative, digits) := numeral str
  if digits = [] then .error (.invalidArgument (ascii "stoul"))
  else if ulongMax < digitsValue digits then .error (.outOfRange (ascii "stoul"))
  else if negative then .ok ((ulongMax + 1 - digitsValue digits) % (ulongMax + 1))
  else .ok (digitsValue digits)

/-- The greatest magnitude a `long long` holds, for either sign. -/
def llongBound (negative : Bool) : Nat := if negative then 2 ^ 63 else 2 ^ 63 - 1

/-- `std::stoll(str)`. -/
def stoll (str : Bytes) : Except StdException Int :=
  let (negative, digits) := numeral str
  if digits = [] then .error (.invalidArgument (ascii "stoll"))
  else if llongBound negative < digitsValue digits then .error (.outOfRange (ascii "stoll"))
  else .ok (if negative then -(digitsValue digits) else digitsValue digits)

/-- A text that begins with an integer in the range of `long long`. -/
def IsLongLong (str : Bytes) : Prop :=
  (numeral str).2 ≠ [] ∧ digitsValue (numeral str).2 ≤ llongBound (numeral str).1

instance (str : Bytes) : Decidable (IsLongLong str) := inferInstanceAs (Decidable (_ ∧ _))

/-- `std::stoll` throws on exactly the texts that do not begin with such an integer. -/
theorem stoll_ok_iff (str : Bytes) : (∃ n, stoll str = .ok n) ↔ IsLongLong str := by
  unfold stoll IsLongLong
  by_cases hdigits : (numeral str).2 = []
  · simp [hdigits]
  · by_cases hrange : llongBound (numeral str).1 < digitsValue (numeral str).2
    · simp [hdigits, hrange]
    · simp [hdigits, hrange, Nat.le_of_not_lt hrange]

/-- A decimal numeral is read as it stands: no space, no sign, nothing left over. -/
theorem numeral_decimal (n : Nat) : numeral (decimal n) = (false, decimal n) := by
  have hall : ∀ b ∈ decimal n, isDigit b = true := fun b hb => decimal_isDigit hb
  cases hd : decimal n with
  | nil => exact absurd hd (decimal_ne_nil n)
  | cons b rest =>
    rw [hd] at hall
    have hb : isDigit b = true := hall b (List.mem_cons_self ..)
    simp only [isDigit, Bool.and_eq_true, decide_eq_true_eq, UInt8.le_iff_toNat_le] at hb
    have hlo : 48 ≤ b.toNat := hb.1
    -- a digit is neither a space nor a sign
    have hspace : isSpace b = false := by
      rw [isSpace, Bool.or_eq_false_iff, Bool.and_eq_false_iff]
      refine ⟨?_, Or.inr ?_⟩
      · rw [beq_eq_false_iff_ne]
        rintro rfl
        exact absurd hlo (by decide)
      · rw [decide_eq_false_iff_not, UInt8.le_iff_toNat_le]
        have : (13 : UInt8).toNat = 13 := rfl
        omega
    have h45 : b ≠ 45 := by
      rintro rfl
      exact absurd hlo (by decide)
    have h43 : b ≠ 43 := by
      rintro rfl
      exact absurd hlo (by decide)
    have htake : (b :: rest).takeWhile isDigit = b :: rest :=
      List.takeWhile_eq_self_iff.mpr hall
    rw [numeral, List.dropWhile_cons_of_neg (by simp [hspace])]
    split
    · rename_i heq
      exact absurd (List.cons.inj heq).1 h45
    · rename_i heq
      exact absurd (List.cons.inj heq).1 h43
    · rw [htake]

/-- `std::stoul` of a decimal numeral: the number, or `std::out_of_range`. -/
theorem stoul_decimal (ulongMax n : Nat) :
    stoul ulongMax (decimal n) =
      if ulongMax < n then .error (.outOfRange (ascii "stoul")) else .ok n := by
  rw [stoul, numeral_decimal]
  simp only [decimal_ne_nil, digitsValue_decimal, if_false, Bool.false_eq_true]

end BoostChat
