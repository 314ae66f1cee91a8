import Mathlib

/-!
# Cyclic redundancy checks

A register of `w` bits is a polynomial over the field with two elements, of degree less than
`w`. A check divides by a monic `generator` of degree `w`, which is given by its lower bits.

* `advance` — one step of the shift register, a multiplication by `X`;
* `ofTable` — the check of a byte string, a byte at a time with a table of 256 registers;
* `toPoly_ofTable` — it is the remainder of the string, with `w` zero bits behind it.
-/

namespace BoostChat.Lib.Crc

open Polynomial

variable {w : Nat}

/-! ## Registers as polynomials -/

/-- A bit as a coefficient. -/
def bit (b : Bool) : ZMod 2 := if b then 1 else 0

theorem bit_xor (a b : Bool) : bit (a ^^ b) = bit a + bit b := by
  cases a <;> cases b <;> decide

/-- The polynomial whose coefficients are the bits of a register. -/
noncomputable def toPoly (v : BitVec w) : (ZMod 2)[X] :=
  ∑ i ∈ Finset.range w, monomial i (bit (v.getLsbD i))

@[simp] theorem coeff_toPoly (v : BitVec w) (n : Nat) :
    (toPoly v).coeff n = bit (v.getLsbD n) := by
  simp only [toPoly, finsetSum_coeff, coeff_monomial, Finset.sum_ite_eq', Finset.mem_range]
  split
  · rfl
  · rename_i hn
    rw [BitVec.getLsbD_of_ge v n (Nat.not_lt.mp hn)]
    rfl

theorem degree_toPoly_lt (v : BitVec w) : (toPoly v).degree < w := by
  rw [degree_lt_iff_coeff_zero]
  intro n hn
  rw [coeff_toPoly, BitVec.getLsbD_of_ge v n hn]
  rfl

theorem toPoly_zero : toPoly (0#w) = 0 := by
  ext n
  rw [coeff_toPoly, BitVec.getLsbD_zero, coeff_zero]
  rfl

theorem toPoly_xor (u v : BitVec w) : toPoly (u ^^^ v) = toPoly u + toPoly v := by
  ext n
  rw [coeff_add, coeff_toPoly, coeff_toPoly, coeff_toPoly, BitVec.getLsbD_xor, bit_xor]

/-- A shift to the left multiplies, but for the bits that it drops. -/
theorem toPoly_shiftLeft (v : BitVec w) {n : Nat} (hn : n ≤ w) :
    X ^ n * toPoly v = toPoly (v <<< n) + X ^ w * toPoly (v >>> (w - n)) := by
  ext i
  rw [coeff_add, coeff_X_pow_mul', coeff_X_pow_mul', coeff_toPoly, coeff_toPoly, coeff_toPoly,
    BitVec.getLsbD_shiftLeft, BitVec.getLsbD_ushiftRight]
  by_cases hlow : i < w
  · -- no bit has been dropped here
    rw [if_neg (Nat.not_le.mpr hlow), add_zero]
    by_cases hni : n ≤ i
    · rw [if_pos hni]
      simp [hlow, Nat.not_lt.mpr hni]
    · rw [if_neg hni]
      simp [Nat.not_le.mp hni, bit]
  · have hle : w ≤ i := Nat.not_lt.mp hlow
    have hindex : w - n + (i - w) = i - n := by omega
    rw [if_pos (hn.trans hle), if_pos hle, hindex]
    simp [hlow, bit]

/-- A wider register with the bits further to the left. -/
theorem toPoly_setWidth_shiftLeft {k n : Nat} (v : BitVec n) :
    toPoly (v.setWidth (k + n) <<< k) = X ^ k * toPoly v := by
  ext i
  rw [coeff_X_pow_mul', coeff_toPoly, coeff_toPoly, BitVec.getLsbD_shiftLeft,
    BitVec.getLsbD_setWidth]
  by_cases hki : k ≤ i
  · rw [if_pos hki]
    by_cases hin : i - k < n
    · have hi : i < k + n := by omega
      simp [hi, Nat.not_lt.mpr hki, show i - k < k + n by omega]
    · rw [BitVec.getLsbD_of_ge v (i - k) (Nat.not_lt.mp hin)]
      simp
  · rw [if_neg hki]
    simp [Nat.not_le.mp hki, bit]

/-! ## Division -/

/-- The polynomial that a check divides by: `X ^ w` and the lower coefficients `g`. -/
noncomputable def generator (g : BitVec w) : (ZMod 2)[X] := X ^ w + toPoly g

theorem generator_monic (g : BitVec w) : (generator g).Monic :=
  monic_X_pow_add (degree_toPoly_lt g)

theorem degree_generator (g : BitVec w) : (generator g).degree = w := by
  rw [generator, degree_add_eq_left_of_degree_lt, degree_X_pow]
  rw [degree_X_pow]
  exact degree_toPoly_lt g

/-- A register that is a polynomial up to a multiple of the generator is its remainder. -/
theorem toPoly_eq_mod {g v : BitVec w} {p q : (ZMod 2)[X]} (h : p = toPoly v + generator g * q) :
    toPoly v = p %ₘ generator g :=
  (div_modByMonic_unique q (toPoly v) (generator_monic g)
    ⟨h.symm, by rw [degree_generator]; exact degree_toPoly_lt v⟩).2.symm

theorem toPoly_mod (g v : BitVec w) : toPoly v %ₘ generator g = toPoly v :=
  (toPoly_eq_mod (by rw [mul_zero, add_zero])).symm

/-- A factor may be reduced before the product is. -/
theorem mul_mod (g : BitVec w) (p q : (ZMod 2)[X]) :
    (p * (q %ₘ generator g)) %ₘ generator g = (p * q) %ₘ generator g := by
  refine modByMonic_eq_of_dvd_sub (generator_monic g) ⟨-(p * (q /ₘ generator g)), ?_⟩
  have hdivision := modByMonic_add_div q (generator g)
  calc p * (q %ₘ generator g) - p * q
      = p * (q %ₘ generator g) - p * (q %ₘ generator g + generator g * (q /ₘ generator g)) := by
        rw [hdivision]
    _ = generator g * -(p * (q /ₘ generator g)) := by ring

/-- One step of the shift register: the bit that is dropped stands for the generator. -/
def advance (g v : BitVec w) : BitVec w := if v.msb then (v <<< 1) ^^^ g else v <<< 1

theorem toPoly_advance (g v : BitVec w) (hw : 0 < w) :
    toPoly (advance g v) = (X * toPoly v) %ₘ generator g := by
  have hdropped : toPoly (v >>> (w - 1)) = C (bit v.msb) := by
    ext i
    rw [coeff_toPoly, coeff_C, BitVec.getLsbD_ushiftRight]
    by_cases hi : i = 0
    · rw [if_pos hi, hi, Nat.add_zero, BitVec.msb_eq_getLsbD_last]
    · rw [if_neg hi, BitVec.getLsbD_of_ge v _ (by omega)]
      rfl
  have hshift := toPoly_shiftLeft v (n := 1) hw
  rw [pow_one, hdropped] at hshift
  rw [advance]
  cases hmsb : v.msb with
  | false =>
    refine toPoly_eq_mod (q := 0) ?_
    rw [hshift, hmsb]
    simp [bit]
  | true =>
    -- the dropped bit is the leading term of the generator, whose other terms are added
    refine toPoly_eq_mod (q := 1) ?_
    rw [hshift, hmsb, if_pos rfl, toPoly_xor, generator, mul_one]
    have htwice : toPoly g + toPoly g = 0 := CharTwo.add_self_eq_zero _
    have hone : (C (bit true) : (ZMod 2)[X]) = 1 := rfl
    rw [hone, mul_one, add_assoc, add_comm (X ^ w), ← add_assoc (toPoly g), htwice, zero_add]

theorem toPoly_iterate_advance (g v : BitVec w) (hw : 0 < w) (n : Nat) :
    toPoly ((advance g)^[n] v) = (X ^ n * toPoly v) %ₘ generator g := by
  induction n with
  | zero => rw [Function.iterate_zero_apply, pow_zero, one_mul, toPoly_mod]
  | succ n ih =>
    rw [Function.iterate_succ_apply', toPoly_advance g _ hw, ih, mul_mod, pow_succ', mul_assoc]

/-! ## A byte at a time -/

/-- The polynomial of a byte string: the first byte has the highest coefficients. -/
noncomputable def message (bytes : List UInt8) : (ZMod 2)[X] :=
  bytes.foldl (fun p b => X ^ 8 * p + toPoly b.toBitVec) 0

variable {k : Nat}

/-- The register after a byte, whose sum with the upper bits is looked up in a table. -/
def step (table : UInt8 → BitVec (k + 8)) (v : BitVec (k + 8)) (b : UInt8) : BitVec (k + 8) :=
  (v <<< 8) ^^^ table (⟨(v >>> k).setWidth 8⟩ ^^^ b)

/-- The check of a byte string. -/
def ofTable (table : UInt8 → BitVec (k + 8)) (bytes : List UInt8) : BitVec (k + 8) :=
  bytes.foldl (step table) 0#(k + 8)

/-- The table holds what eight steps of the shift register make of each byte. -/
def IsTable (g : BitVec (k + 8)) (table : UInt8 → BitVec (k + 8)) : Prop :=
  ∀ b : UInt8, table b = (advance g)^[8] (b.toBitVec.setWidth (k + 8) <<< k)

section Table

variable {g : BitVec (k + 8)} {table : UInt8 → BitVec (k + 8)}

theorem IsTable.toPoly_eq (h : IsTable g table) (b : UInt8) :
    toPoly (table b) = (X ^ (k + 8) * toPoly b.toBitVec) %ₘ generator g := by
  rw [h b, toPoly_iterate_advance g _ (Nat.succ_pos _), toPoly_setWidth_shiftLeft, ← mul_assoc,
    ← pow_add, Nat.add_comm]

/-- **Step lemma.** A byte multiplies by `X ^ 8` and adds its own polynomial at the top. -/
theorem IsTable.toPoly_step (h : IsTable g table) (v : BitVec (k + 8)) (b : UInt8) :
    toPoly (step table v b) =
      (X ^ 8 * toPoly v + X ^ (k + 8) * toPoly b.toBitVec) %ₘ generator g := by
  have hupper : toPoly (v >>> k) = toPoly ((v >>> k).setWidth 8) := by
    ext i
    rw [coeff_toPoly, coeff_toPoly, BitVec.getLsbD_setWidth, BitVec.getLsbD_ushiftRight]
    by_cases hi : i < 8
    · rw [decide_eq_true hi, Bool.true_and]
    · rw [BitVec.getLsbD_of_ge v _ (by omega), Bool.and_false]
  have hshift := toPoly_shiftLeft v (n := 8) (Nat.le_add_left 8 k)
  rw [Nat.add_sub_cancel, hupper] at hshift
  rw [step, toPoly_xor, h.toPoly_eq, hshift]
  show _ + (X ^ (k + 8) * toPoly ((v >>> k).setWidth 8 ^^^ b.toBitVec)) %ₘ generator g = _
  rw [add_assoc, ← mul_add, ← toPoly_xor, add_modByMonic, toPoly_mod]

/-- **The check is a remainder.** A table of what eight steps make of each byte computes, for
every byte string, the remainder of its polynomial times `X ^ w`. -/
theorem toPoly_ofTable (h : IsTable g table) (bytes : List UInt8) :
    toPoly (ofTable table bytes) = (X ^ (k + 8) * message bytes) %ₘ generator g := by
  have hfold : ∀ (v : BitVec (k + 8)) (p : (ZMod 2)[X]),
      toPoly v = (X ^ (k + 8) * p) %ₘ generator g →
      toPoly (bytes.foldl (step table) v) = (X ^ (k + 8) *
        bytes.foldl (fun p b => X ^ 8 * p + toPoly b.toBitVec) p) %ₘ generator g := by
    induction bytes with
    | nil => exact fun _ _ heq => heq
    | cons b bytes ih =>
      intro v p heq
      refine ih _ _ ?_
      rw [h.toPoly_step, heq, add_modByMonic, mul_mod, ← add_modByMonic, mul_add,
        mul_left_comm (X ^ 8)]
  have hstart : toPoly 0#(k + 8) = (X ^ (k + 8) * 0) %ₘ generator g := by
    rw [mul_zero, zero_modByMonic, toPoly_zero]
  exact hfold _ _ hstart

end Table

end BoostChat.Lib.Crc
