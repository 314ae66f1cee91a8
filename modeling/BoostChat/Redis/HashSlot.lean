import BoostChat.Basic
import BoostChat.Lib.Crc

/-!
# Hash slots

`CRC16` and `HASH_SLOT` of the Redis client, which assign a key to one of the 16384 slots of
a cluster.

* `toPoly_crc16` — the table computes the check with the polynomial
  `X ^ 16 + X ^ 12 + X ^ 5 + 1`;
* `HasTag` — the part of a key that is enclosed in braces;
* `hashSlot_coeff` — the slot is made of the lower coefficients of the check of this part,
  or of the key when it has none.
-/

namespace BoostChat.Redis

open Lib Polynomial

/-- crc16 for computing redis cluster slot -/
def crc16Table : List UInt16 := [
    0x0000, 0x1021, 0x2042, 0x3063, 0x4084, 0x50a5, 0x60c6, 0x70e7,
    0x8108, 0x9129, 0xa14a, 0xb16b, 0xc18c, 0xd1ad, 0xe1ce, 0xf1ef,
    0x1231, 0x0210, 0x3273, 0x2252, 0x52b5, 0x4294, 0x72f7, 0x62d6,
    0x9339, 0x8318, 0xb37b, 0xa35a, 0xd3bd, 0xc39c, 0xf3ff, 0xe3de,
    0x2462, 0x3443, 0x0420, 0x1401, 0x64e6, 0x74c7, 0x44a4, 0x5485,
    0xa56a, 0xb54b, 0x8528, 0x9509, 0xe5ee, 0xf5cf, 0xc5ac, 0xd58d,
    0x3653, 0x2672, 0x1611, 0x0630, 0x76d7, 0x66f6, 0x5695, 0x46b4,
    0xb75b, 0xa77a, 0x9719, 0x8738, 0xf7df, 0xe7fe, 0xd79d, 0xc7bc,
    0x48c4, 0x58e5, 0x6886, 0x78a7, 0x0840, 0x1861, 0x2802, 0x3823,
    0xc9cc, 0xd9ed, 0xe98e, 0xf9af, 0x8948, 0x9969, 0xa90a, 0xb92b,
    0x5af5, 0x4ad4, 0x7ab7, 0x6a96, 0x1a71, 0x0a50, 0x3a33, 0x2a12,
    0xdbfd, 0xcbdc, 0xfbbf, 0xeb9e, 0x9b79, 0x8b58, 0xbb3b, 0xab1a,
    0x6ca6, 0x7c87, 0x4ce4, 0x5cc5, 0x2c22, 0x3c03, 0x0c60, 0x1c41,
    0xedae, 0xfd8f, 0xcdec, 0xddcd, 0xad2a, 0xbd0b, 0x8d68, 0x9d49,
    0x7e97, 0x6eb6, 0x5ed5, 0x4ef4, 0x3e13, 0x2e32, 0x1e51, 0x0e70,
    0xff9f, 0xefbe, 0xdfdd, 0xcffc, 0xbf1b, 0xaf3a, 0x9f59, 0x8f78,
    0x9188, 0x81a9, 0xb1ca, 0xa1eb, 0xd10c, 0xc12d, 0xf14e, 0xe16f,
    0x1080, 0x00a1, 0x30c2, 0x20e3, 0x5004, 0x4025, 0x7046, 0x6067,
    0x83b9, 0x9398, 0xa3fb, 0xb3da, 0xc33d, 0xd31c, 0xe37f, 0xf35e,
    0x02b1, 0x1290, 0x22f3, 0x32d2, 0x4235, 0x5214, 0x6277, 0x7256,
    0xb5ea, 0xa5cb, 0x95a8, 0x8589, 0xf56e, 0xe54f, 0xd52c, 0xc50d,
    0x34e2, 0x24c3, 0x14a0, 0x0481, 0x7466, 0x6447, 0x5424, 0x4405,
    0xa7db, 0xb7fa, 0x8799, 0x97b8, 0xe75f, 0xf77e, 0xc71d, 0xd73c,
    0x26d3, 0x36f2, 0x0691, 0x16b0, 0x6657, 0x7676, 0x4615, 0x5634,
    0xd94c, 0xc96d, 0xf90e, 0xe92f, 0x99c8, 0x89e9, 0xb98a, 0xa9ab,
    0x5844, 0x4865, 0x7806, 0x6827, 0x18c0, 0x08e1, 0x3882, 0x28a3,
    0xcb7d, 0xdb5c, 0xeb3f, 0xfb1e, 0x8bf9, 0x9bd8, 0xabbb, 0xbb9a,
    0x4a75, 0x5a54, 0x6a37, 0x7a16, 0x0af1, 0x1ad0, 0x2ab3, 0x3a92,
    0xfd2e, 0xed0f, 0xdd6c, 0xcd4d, 0xbdaa, 0xad8b, 0x9de8, 0x8dc9,
    0x7c26, 0x6c07, 0x5c64, 0x4c45, 0x3ca2, 0x2c83, 0x1ce0, 0x0cc1,
    0xef1f, 0xff3e, 0xcf5d, 0xdf7c, 0xaf9b, 0xbfba, 0x8fd9, 0x9ff8,
    0x6e17, 0x7e36, 0x4e55, 0x5e74, 0x2e93, 0x3eb2, 0x0ed1, 0x1ef0]

/-- One pass of the loop. Whether `char` has a sign makes no difference: only the lower byte
of the index is kept. -/
def crc16Step (nCrc : UInt16) (c : UInt8) : UInt16 :=
  (nCrc <<< 8) ^^^ crc16Table.getD (((nCrc >>> 8) ^^^ c.toUInt16) &&& 0x00FF).toNat 0

/-- `CRC16`: the length is an `int`. -/
def crc16 (pszData : Bytes) (nLen : Int32) : UInt16 :=
  (pszData.take nLen.toInt.toNat).foldl crc16Step 0

/-- `HASH_SLOT`. Each of the two loops ends at the brace that it looks for, or at the end of
the key. -/
def hashSlot (strKey : Bytes) : UInt32 :=
  let nKeyLen := strKey.length
  let nStart := strKey.findIdx (· == 123)
  if nStart = nKeyLen then (crc16 strKey nKeyLen.toInt32).toUInt32 &&& 16383
  else
    let nEnd := nStart + 1 + (strKey.drop (nStart + 1)).findIdx (· == 125)
    -- no closing brace, or nothing between the two
    if nEnd = nKeyLen ∨ nEnd = nStart + 1 then (crc16 strKey nKeyLen.toInt32).toUInt32 &&& 16383
    else
      (crc16 (strKey.drop (nStart + 1)) (nEnd - nStart - 1).toInt32).toUInt32 &&& 16383

example : crc16 (ascii "123456789") 9 = 0x31C3 := by decide

/-! ## The check -/

/-- The lower coefficients of `X ^ 16 + X ^ 12 + X ^ 5 + 1`. -/
def lowerTerms : BitVec 16 := 0x1021#16

theorem generator_lowerTerms :
    Crc.generator lowerTerms = X ^ 16 + X ^ 12 + X ^ 5 + 1 := by
  have hbits : Crc.toPoly lowerTerms = X ^ 12 + X ^ 5 + 1 := by
    have hsum : Crc.toPoly lowerTerms = 1 + monomial 5 1 + monomial 12 1 := by
      simp [Crc.toPoly, Finset.sum_range_succ, lowerTerms, Crc.bit]
    rw [hsum, X_pow_eq_monomial, X_pow_eq_monomial]
    ring
  rw [Crc.generator, hbits, ← add_assoc, ← add_assoc]

/-- The table as the registers of the check. -/
def registers (b : UInt8) : BitVec 16 := (crc16Table.getD b.toNat 0).toBitVec

theorem isTable_registers : Crc.IsTable (k := 8) lowerTerms registers := by
  have hall : ∀ n < 256, registers n.toUInt8 =
      (Crc.advance lowerTerms)^[8] ((n.toUInt8.toBitVec.setWidth 16 : BitVec 16) <<< 8) := by
    decide +kernel
  intro b
  have hb := hall b.toNat b.toNat_lt
  rwa [show b.toNat.toUInt8 = b from UInt8.ofNat_toNat] at hb

/-- The code's step is that of the check. -/
theorem crc16Step_toBitVec (nCrc : UInt16) (c : UInt8) :
    (crc16Step nCrc c).toBitVec = Crc.step (k := 8) registers nCrc.toBitVec c := by
  have hindex : (((nCrc >>> 8) ^^^ c.toUInt16) &&& 0x00FF).toNat =
      ((⟨(nCrc.toBitVec >>> 8).setWidth 8⟩ : UInt8) ^^^ c).toNat := by
    have hmask : ∀ x : UInt16, (x &&& 0x00FF).toNat = x.toNat % 2 ^ 8 := fun x => by
      rw [UInt16.toNat_and]
      exact Nat.and_two_pow_sub_one_eq_mod x.toNat 8
    rw [hmask, UInt16.toNat_xor, UInt8.toNat_xor, Nat.xor_mod_two_pow, UInt8.toNat_toUInt16,
      Nat.mod_eq_of_lt c.toNat_lt]
    rfl
  rw [crc16Step, hindex]
  rfl

theorem toNat_toInt32 {n : Nat} (h : n < 2 ^ 31) : n.toInt32.toInt.toNat = n := by
  rw [show n.toInt32 = Int32.ofNat n from rfl, Int32.toInt_ofNat_of_lt h]
  exact Int.toNat_natCast _

/-- `CRC16` on a whole text. -/
theorem crc16_toBitVec {text : Bytes} (h : text.length < 2 ^ 31) :
    (crc16 text text.length.toInt32).toBitVec = Crc.ofTable (k := 8) registers text := by
  have hfold : ∀ (nCrc : UInt16) (text : Bytes), (text.foldl crc16Step nCrc).toBitVec =
      text.foldl (Crc.step (k := 8) registers) nCrc.toBitVec := by
    intro nCrc text
    induction text generalizing nCrc with
    | nil => rfl
    | cons c text ih => rw [List.foldl_cons, ih, crc16Step_toBitVec, List.foldl_cons]
  rw [crc16, toNat_toInt32 h, List.take_length, hfold]
  rfl

/-- For every text whose length is an `int`, `CRC16` computes the remainder of its
polynomial, times `X ^ 16`, by the generator. -/
theorem toPoly_crc16 {text : Bytes} (h : text.length < 2 ^ 31) :
    Crc.toPoly (crc16 text text.length.toInt32).toBitVec =
      (X ^ 16 * Crc.message text) %ₘ (X ^ 16 + X ^ 12 + X ^ 5 + 1) := by
  rw [crc16_toBitVec h, Crc.toPoly_ofTable isTable_registers, generator_lowerTerms]

/-! ## The part of a key that is hashed -/

/-- The part between the first opening brace and the first closing one behind it, when this
is not empty. -/
structure HasTag (key tag : Bytes) : Prop where
  nonempty : tag ≠ []
  closes : 125 ∉ tag
  split : ∃ before after, 123 ∉ before ∧ key = before ++ 123 :: (tag ++ 125 :: after)

/-- The slot of a text that is hashed as a whole. -/
def slotOf (text : Bytes) : UInt32 := (crc16 text text.length.toInt32).toUInt32 &&& 16383

/-- The mask keeps 14 bits. -/
theorem slotOf_getLsbD (text : Bytes) (i : Nat) : (slotOf text).toBitVec.getLsbD i =
    (decide (i < 14) && (crc16 text text.length.toInt32).toBitVec.getLsbD i) := by
  have hmask : (16383#32).getLsbD i = decide (i < 14) := by
    rw [BitVec.getLsbD_ofNat, show (16383 : Nat) = 2 ^ 14 - 1 from rfl,
      Nat.testBit_two_pow_sub_one]
    by_cases hi : i < 14
    · rw [decide_eq_true hi, decide_eq_true (by omega : i < 32)]
      rfl
    · rw [decide_eq_false hi, Bool.and_false]
  rw [slotOf, UInt32.toBitVec_and, UInt16.toBitVec_toUInt32, BitVec.getLsbD_and,
    BitVec.getLsbD_setWidth]
  show (_ && (16383#32).getLsbD i) = _
  rw [hmask]
  by_cases hi : i < 14
  · rw [decide_eq_true hi, decide_eq_true (by omega : i < 32), Bool.true_and, Bool.and_true]
  · rw [decide_eq_false hi, Bool.and_false, Bool.false_and]

theorem findIdx_append_cons {c : UInt8} {before after : Bytes} (h : c ∉ before) :
    (before ++ c :: after).findIdx (· == c) = before.length := by
  induction before with
  | nil =>
    rw [List.nil_append, List.findIdx_cons, beq_self_eq_true]
    rfl
  | cons b before ih =>
    rw [List.mem_cons, not_or] at h
    rw [List.cons_append, List.findIdx_cons, beq_eq_false_iff_ne.mpr (Ne.symm h.1), ih h.2]
    rfl

/-- A byte that a search finds splits the text. -/
theorem split_of_findIdx {c : UInt8} {text : Bytes} (h : text.findIdx (· == c) ≠ text.length) :
    ∃ before after, c ∉ before ∧ text = before ++ c :: after := by
  induction text with
  | nil => exact absurd rfl h
  | cons b text ih =>
    by_cases hb : b = c
    · exact ⟨[], text, List.not_mem_nil, by rw [hb, List.nil_append]⟩
    · rw [List.findIdx_cons, beq_eq_false_iff_ne.mpr hb] at h
      obtain ⟨before, after, hbefore, rfl⟩ := ih fun heq => h (congrArg (· + 1) heq)
      refine ⟨b :: before, after, ?_, rfl⟩
      rw [List.mem_cons, not_or]
      exact ⟨Ne.symm hb, hbefore⟩

/-- `CRC16` reads no more than its length. -/
theorem crc16_append {text : Bytes} (h : text.length < 2 ^ 31) (rest : Bytes) :
    crc16 (text ++ rest) text.length.toInt32 = crc16 text text.length.toInt32 := by
  rw [crc16, crc16, toNat_toInt32 h, List.take_left, List.take_length]

theorem hashSlot_of_tag {key tag : Bytes} (h : HasTag key tag) (hlength : key.length < 2 ^ 31) :
    hashSlot key = slotOf tag := by
  obtain ⟨before, after, hbefore, rfl⟩ := h.split
  have hstart : (before ++ 123 :: (tag ++ 125 :: after)).findIdx (· == 123) = before.length :=
    findIdx_append_cons hbefore
  have hend : (tag ++ 125 :: after).findIdx (· == 125) = tag.length :=
    findIdx_append_cons h.closes
  have hpos := List.length_pos_iff.mpr h.nonempty
  have hdrop : (before ++ 123 :: (tag ++ 125 :: after)).drop (before.length + 1) =
      tag ++ 125 :: after := by
    rw [← List.drop_drop, List.drop_left]
    rfl
  simp only [List.length_append, List.length_cons] at hlength
  have hsize : before.length + 1 + tag.length - before.length - 1 = tag.length := by omega
  simp only [hashSlot, hstart, hdrop, hend, List.length_append, List.length_cons]
  rw [if_neg (by omega), if_neg (by omega), hsize, crc16_append (by omega), slotOf]

theorem hashSlot_of_not_tag {key : Bytes} (h : ∀ tag, ¬ HasTag key tag) :
    hashSlot key = slotOf key := by
  by_cases hstart : key.findIdx (· == 123) = key.length
  · simp only [hashSlot, hstart, if_true, slotOf]
  · obtain ⟨before, rest, hbefore, rfl⟩ := split_of_findIdx hstart
    have hdrop : (before ++ 123 :: rest).drop (before.length + 1) = rest := by
      rw [← List.drop_drop, List.drop_left]
      rfl
    have hwhole : before.length + 1 + rest.findIdx (· == 125) = (before ++ 123 :: rest).length ∨
        before.length + 1 + rest.findIdx (· == 125) = before.length + 1 := by
      by_cases hend : rest.findIdx (· == 125) = rest.length
      · left
        rw [hend, List.length_append, List.length_cons]
        omega
      · right
        obtain ⟨tag, after, hcloses, rfl⟩ := split_of_findIdx hend
        by_contra hne
        rw [findIdx_append_cons hcloses] at hne
        refine h tag ⟨?_, hcloses, before, after, hbefore, rfl⟩
        rintro rfl
        exact hne rfl
    rw [findIdx_append_cons hbefore] at hstart
    simp only [hashSlot, findIdx_append_cons hbefore, hdrop]
    rw [if_neg hstart, if_pos hwhole, slotOf]

/-- **Hash slots.** The slot of a key consists of the lower 14 coefficients of the remainder
of a text by the generator: of the part that is enclosed in braces, so that keys with one such
part have one slot, or of the whole key when there is none. -/
theorem hashSlot_coeff {key text : Bytes} (hlength : key.length < 2 ^ 31)
    (htext : HasTag key text ∨ (∀ tag, ¬ HasTag key tag) ∧ text = key) (i : Nat) :
    Crc.bit ((hashSlot key).toBitVec.getLsbD i) =
      if i < 14 then ((X ^ 16 * Crc.message text) %ₘ (X ^ 16 + X ^ 12 + X ^ 5 + 1)).coeff i
      else 0 := by
  have hslot : hashSlot key = slotOf text := by
    rcases htext with htag | ⟨hnone, rfl⟩
    · exact hashSlot_of_tag htag hlength
    · exact hashSlot_of_not_tag hnone
  have hshort : text.length < 2 ^ 31 := by
    rcases htext with htag | ⟨-, rfl⟩
    · obtain ⟨before, after, -, rfl⟩ := htag.split
      simp only [List.length_append, List.length_cons] at hlength
      omega
    · exact hlength
  rw [hslot, ← toPoly_crc16 hshort, Crc.coeff_toPoly, slotOf_getLsbD]
  split
  · rename_i hi
    rw [decide_eq_true hi, Bool.true_and]
  · rename_i hi
    rw [decide_eq_false hi, Bool.false_and]
    rfl

/-- Of this key only the name in braces is hashed. -/
theorem hashSlot_coeff_ann :
    Crc.bit ((hashSlot (ascii "Session:{ann}")).toBitVec.getLsbD 3) =
      ((X ^ 16 * Crc.message (ascii "ann")) %ₘ (X ^ 16 + X ^ 12 + X ^ 5 + 1)).coeff 3 := by
  have htag : HasTag (ascii "Session:{ann}") (ascii "ann") :=
    ⟨by decide, by decide, ascii "Session:", [], by decide, by decide⟩
  exact hashSlot_coeff (by decide) (Or.inl htag) 3

end BoostChat.Redis
