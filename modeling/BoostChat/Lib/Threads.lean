import Mathlib.Data.List.Perm.Basic
import Mathlib.Data.List.Count

/-!
# Threads that share a lock and a log

* `Exclusive` — a lock and the threads that are inside its critical section. A step of one
  thread takes the lock, gives it back, or leaves it alone.
* `ofThread` — the entries that one thread made in a log. Two logs with the same entries
  of every thread are permutations of each other (`perm_of_ofThread_eq`).
-/

namespace BoostChat.Lib

variable {ι α : Type*}

/-! ## Mutual exclusion -/

/-- The threads inside the critical section are the owner of the lock. -/
def Exclusive (holds : ι → Prop) (owner : Option ι) : Prop := ∀ i, holds i ↔ owner = some i

namespace Exclusive

variable {holds holds' : ι → Prop} {owner : Option ι} {i j : ι}

theorem unique (h : Exclusive holds owner) (hi : holds i) (hj : holds j) : i = j := by
  have howner := (h i).mp hi
  rw [(h j).mp hj] at howner
  exact (Option.some.inj howner).symm

/-- A thread takes the free lock. -/
theorem acquire (h : Exclusive holds none) (hother : ∀ j, j ≠ i → (holds' j ↔ holds j))
    (hi : holds' i) : Exclusive holds' (some i) := by
  intro j
  by_cases hj : j = i
  · subst hj
    exact iff_of_true hi rfl
  · rw [hother j hj, h j]
    exact iff_of_false (fun h => nomatch h) fun h => hj (Option.some.inj h).symm

/-- The owner gives the lock back. -/
theorem release (h : Exclusive holds owner) (hheld : holds i)
    (hother : ∀ j, j ≠ i → (holds' j ↔ holds j)) (hi : ¬ holds' i) : Exclusive holds' none := by
  intro j
  refine iff_of_false ?_ fun h => nomatch h
  by_cases hj : j = i
  · rwa [hj]
  · rw [hother j hj]
    exact fun hheld' => hj (h.unique hheld' hheld)

/-- A thread does neither. -/
theorem keep (h : Exclusive holds owner) (hother : ∀ j, j ≠ i → (holds' j ↔ holds j))
    (hi : holds' i ↔ holds i) : Exclusive holds' owner := by
  intro j
  by_cases hj : j = i
  · rw [hj, hi]
    exact h i
  · rw [hother j hj]
    exact h j

end Exclusive

/-! ## Logs -/

section Log

variable [DecidableEq ι]

/-- The entries of one thread, in order. -/
def ofThread (i : ι) (log : List (ι × α)) : List α := (log.filter (·.1 = i)).map Prod.snd

@[simp] theorem ofThread_nil (i : ι) : ofThread i ([] : List (ι × α)) = [] := rfl

theorem ofThread_concat (i j : ι) (log : List (ι × α)) (a : α) :
    ofThread i (log ++ [(j, a)]) = ofThread i log ++ if j = i then [a] else [] := by
  rw [ofThread, List.filter_append, List.map_append, ofThread]
  by_cases hj : j = i
  · rw [if_pos hj]
    simp [hj]
  · rw [if_neg hj]
    simp [hj]

/-- What a thread appends to its own entries. -/
theorem ofThread_self (i : ι) (log : List (ι × α)) (a : α) :
    ofThread i (log ++ [(i, a)]) = ofThread i log ++ [a] := by
  rw [ofThread_concat, if_pos rfl]

/-- Other threads' entries stay as they are. -/
theorem ofThread_other {i j : ι} (h : i ≠ j) (log : List (ι × α)) (a : α) :
    ofThread i (log ++ [(j, a)]) = ofThread i log := by
  rw [ofThread_concat, if_neg (Ne.symm h), List.append_nil]

theorem count_ofThread [DecidableEq α] (i : ι) (a : α) (log : List (ι × α)) :
    (ofThread i log).count a = log.count (i, a) := by
  induction log with
  | nil => rfl
  | cons entry log ih =>
    obtain ⟨j, b⟩ := entry
    rw [List.count_cons, ← ih, ofThread, List.filter_cons]
    by_cases hj : j = i
    · subst hj
      by_cases hb : b = a
      · simp [ofThread, hb]
      · simp [ofThread, hb]
    · simp [ofThread, hj]

/-- Logs in which every thread made the same entries. -/
theorem perm_of_ofThread_eq {log log' : List (ι × α)}
    (h : ∀ i, ofThread i log = ofThread i log') : log.Perm log' := by
  classical
  rw [List.perm_iff_count]
  rintro ⟨i, a⟩
  rw [← count_ofThread, ← count_ofThread, h i]

end Log

end BoostChat.Lib
