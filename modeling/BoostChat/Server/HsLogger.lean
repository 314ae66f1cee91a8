import BoostChat.Basic
import BoostChat.Lib.Decimal
import Mathlib.Algebra.Group.Nat.Defs

/-!
# The logger

`Logger::format` measures a line with `snprintf`, which counts in an `int`. It looks neither
for the failure of a line that is too long for that nor for the overflow of the length
plus one, and what it throws then comes out of the function that logs.

The lines that are modelled are those that can be so long: the ones with the name or the
member list of a party. The others are fixed texts with numbers, columns of the table
`user` or texts of MySQL, or are formatted under a catch (`VerifyUser`).
-/

namespace BoostChat.Server

open Lib

namespace Logger

/-- `INT_MAX`. -/
def intMax : Nat := 2 ^ 31 - 1

/-- `Logger::format`, given the text that the format and its arguments make. -/
def format (text : Bytes) : Except StdException Bytes :=
  if text.length < intMax then .ok text
  -- the sum wraps around and becomes the size of an array that no allocator has
  else if text.length = intMax then .error .badAlloc
  -- `snprintf` returns -1: the range that the string is built of ends before it begins
  else .error (.lengthError (ascii "basic_string::_M_create"))

/-- `%d` of a `uint32_t`. -/
def signed (n : UInt32) : Bytes :=
  if n.toNat < 2 ^ 31 then decimal n.toNat else ascii "-" ++ decimal (2 ^ 32 - n.toNat)

theorem length_signed_le (n : UInt32) : (signed n).length ≤ 11 := by
  have hdecimal {k : Nat} (hk : k < 10 ^ 10) : (decimal k).length ≤ 10 := by
    rw [decimal, List.length_map]
    exact (Nat.length_toDigits_le_iff (by decide) (by decide)).mpr hk
  have hn := n.toNat_lt
  unfold signed
  split
  · exact Nat.le_succ_of_le (hdecimal (by omega))
  · rw [List.length_append, Nat.add_comm]
    exact Nat.succ_le_succ (hdecimal (by omega))

/-- Logs the lines one after the other. -/
def logAll (lines : List Bytes) : Except StdException Unit :=
  lines.forM fun line => (format line).map fun _ => ()

/-- An `int` holds the length of each line and one more. -/
def Fits (lines : List Bytes) : Prop := ∀ line ∈ lines, line.length < intMax

instance (lines : List Bytes) : Decidable (Fits lines) :=
  inferInstanceAs (Decidable (∀ line ∈ lines, _))

theorem fits_nil : Fits [] := fun _ hline => absurd hline List.not_mem_nil

theorem fits_cons {line : Bytes} {lines : List Bytes} :
    Fits (line :: lines) ↔ line.length < intMax ∧ Fits lines := List.forall_mem_cons

theorem logAll_ok_iff (lines : List Bytes) : logAll lines = .ok () ↔ Fits lines := by
  induction lines with
  | nil => exact iff_of_true rfl fits_nil
  | cons line rest ih =>
    have hcons : logAll (line :: rest) =
        ((format line).map fun _ => ()).bind fun _ => logAll rest := rfl
    rw [fits_cons, ← ih, hcons, format]
    by_cases hline : line.length < intMax
    · rw [if_pos hline, and_iff_right hline]
      rfl
    · rw [if_neg hline]
      refine iff_of_false (fun h => ?_) fun h => hline h.1
      split at h <;> cases h

end Logger

end BoostChat.Server
