import Mathlib.Algebra.Group.Nat.Defs
import Mathlib.Logic.Basic

/-!
# Big-endian 32-bit numbers

`be32 n` is the four-byte big-endian representation of `n` modulo `2^32`, the
form in which a length prefix travels on a byte stream; `ofBe32` reads it back.
-/

namespace BoostChat.Lib

/-- The four bytes of `n` modulo `2^32`, most significant first. -/
def be32 (n : Nat) : List UInt8 :=
  [(n / 2 ^ 24 % 256).toUInt8, (n / 2 ^ 16 % 256).toUInt8, (n / 2 ^ 8 % 256).toUInt8,
    (n % 256).toUInt8]

@[simp] theorem be32_length (n : Nat) : (be32 n).length = 4 := rfl

/-- A byte of a number, cut out by a shift and a mask. -/
theorem shift_mask (n k : Nat) : n >>> k &&& 0xFF = n / 2 ^ k % 256 := by
  rw [Nat.shiftRight_eq_div_pow]
  exact Nat.and_two_pow_sub_one_eq_mod (n / 2 ^ k) 8

/-- The number that four bytes represent. -/
def ofBe32 : List UInt8 → Nat
  | [b₀, b₁, b₂, b₃] => b₀.toNat * 2 ^ 24 + b₁.toNat * 2 ^ 16 + b₂.toNat * 2 ^ 8 + b₃.toNat
  | _ => 0

theorem ofBe32_be32 {n : Nat} (hn : n < 2 ^ 32) : ofBe32 (be32 n) = n := by
  simp only [be32, ofBe32, UInt8.toNat_ofNat']
  omega

theorem be32_ofBe32 : ∀ {bytes : List UInt8}, bytes.length = 4 → be32 (ofBe32 bytes) = bytes
  | [b₀, b₁, b₂, b₃], _ => by
    have h₀ := b₀.toNat_lt
    have h₁ := b₁.toNat_lt
    have h₂ := b₂.toNat_lt
    have h₃ := b₃.toNat_lt
    rw [be32, List.cons.injEq, List.cons.injEq, List.cons.injEq, List.cons.injEq]
    refine ⟨UInt8.toNat_inj.mp ?_, UInt8.toNat_inj.mp ?_, UInt8.toNat_inj.mp ?_,
      UInt8.toNat_inj.mp ?_, rfl⟩
    all_goals
      simp only [ofBe32, UInt8.toNat_ofNat']
      omega

end BoostChat.Lib
