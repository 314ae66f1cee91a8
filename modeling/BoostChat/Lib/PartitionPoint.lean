import Mathlib.Data.List.Basic

/-!
# Partition points

A range is partitioned by a predicate when the elements that satisfy it come first. The
binary search of `std::lower_bound`, `std::upper_bound` and `std::equal_range` finds where they
end, by halving the number of the elements that are left.

* `search_spec` — the search finds the partition point;
* `equalRange_spec` — of two partition points, what lies between them is what neither
  comparison tells from the value.
-/

namespace BoostChat.Lib

/-- The search among the `count` positions from `first` on. -/
def search (p : Nat → Bool) (first count : Nat) : Nat :=
  if count = 0 then first
  else if p (first + count / 2) then
    search p (first + count / 2 + 1) (count - (count / 2 + 1))
  else search p first (count / 2)
termination_by count

/-- Positions are partitioned: once the predicate fails, it stays so. -/
def Partitioned (p : Nat → Bool) (size : Nat) : Prop :=
  ∀ i j, i ≤ j → j < size → p j = true → p i = true

/-- `k` is where a partition ends. -/
structure PartitionPoint (p : Nat → Bool) (size k : Nat) : Prop where
  le : k ≤ size
  before : ∀ i < k, p i = true
  after : ∀ i, k ≤ i → i < size → p i = false

theorem PartitionPoint.lt_iff {p : Nat → Bool} {size k i : Nat} (h : PartitionPoint p size k)
    (hi : i < size) : i < k ↔ p i = true := by
  refine ⟨h.before i, fun hp => ?_⟩
  by_contra hle
  rw [h.after i (Nat.not_lt.mp hle) hi] at hp
  cases hp

/-- **Loop lemma.** The partition point stays between the two ends of what is left. -/
theorem search_between {p : Nat → Bool} {size first count : Nat} (hp : Partitioned p size)
    (hfits : first + count ≤ size) (hbefore : ∀ i < first, p i = true)
    (hafter : ∀ i, first + count ≤ i → i < size → p i = false) :
    PartitionPoint p size (search p first count) := by
  induction first, count using search.induct p with
  | case1 first =>
    rw [search, if_pos rfl]
    exact ⟨hfits, hbefore, hafter⟩
  | case2 first count hcount hmid ih =>
    rw [search, if_neg hcount, if_pos hmid]
    refine ih (by omega) (fun i hi => ?_) fun i hi hlt => hafter i (by omega) hlt
    exact hp i (first + count / 2) (by omega) (by omega) hmid
  | case3 first count hcount hmid ih =>
    rw [search, if_neg hcount, if_neg hmid]
    refine ih (by omega) hbefore fun i hi hlt => ?_
    by_contra hne
    exact hmid (hp (first + count / 2) i hi hlt (eq_true_of_ne_false hne))

theorem search_spec {p : Nat → Bool} {size : Nat} (hp : Partitioned p size) :
    PartitionPoint p size (search p 0 size) :=
  search_between hp (by omega) (fun _ h => absurd h (Nat.not_lt_zero _))
    fun i hle hlt => absurd hlt (by omega)

section EqualRange

variable {α β : Type}

/-- `std::equal_range` with the two orders of the comparison. -/
def equalRange (xs : List α) (value : β) (below : α → β → Bool) (above : β → α → Bool) :
    Nat × Nat :=
  (search (fun i => xs[i]?.any fun x => below x value) 0 xs.length,
    search (fun i => xs[i]?.any fun x => !above value x) 0 xs.length)

variable {xs : List α} {value : β} {below : α → β → Bool} {above : β → α → Bool}

/-- **What an equal range is.** In a range that both comparisons partition, a position lies in
it when neither of them tells its element from the value. -/
theorem equalRange_spec
    (hbelow : Partitioned (fun i => xs[i]?.any fun x => below x value) xs.length)
    (habove : Partitioned (fun i => xs[i]?.any fun x => !above value x) xs.length)
    {i : Nat} {x : α} (hx : xs[i]? = some x) :
    (equalRange xs value below above).1 ≤ i ∧ i < (equalRange xs value below above).2 ↔
      below x value = false ∧ above value x = false := by
  have hi : i < xs.length := (List.getElem?_eq_some_iff.mp hx).1
  rw [← Nat.not_lt, equalRange, (search_spec hbelow).lt_iff hi, (search_spec habove).lt_iff hi, hx,
    Option.any_some, Option.any_some, Bool.not_eq_true, Bool.not_eq_true']

/-- When no element is on both sides of the value, the ends are in order. -/
theorem equalRange_le
    (hbelow : Partitioned (fun i => xs[i]?.any fun x => below x value) xs.length)
    (habove : Partitioned (fun i => xs[i]?.any fun x => !above value x) xs.length)
    (hone : ∀ x ∈ xs, below x value = true → above value x = false) :
    (equalRange xs value below above).1 ≤ (equalRange xs value below above).2 := by
  by_contra hlt
  rw [Nat.not_le] at hlt
  have hlower := search_spec hbelow
  have hupper := search_spec habove
  have hsize : (equalRange xs value below above).2 < xs.length := Nat.lt_of_lt_of_le hlt hlower.le
  -- the element at the upper end is below the value, and above it
  have hx : xs[(equalRange xs value below above).2]? =
      some xs[(equalRange xs value below above).2] := List.getElem?_eq_getElem hsize
  have hleft := hlower.before _ hlt
  have hright := hupper.after _ (Nat.le_refl _) hsize
  change (xs[(equalRange xs value below above).2]?.any fun x => !above value x) = false at hright
  rw [hx, Option.any_some] at hleft hright
  rw [hone _ (List.getElem_mem hsize) hleft] at hright
  cases hright

end EqualRange

end BoostChat.Lib
