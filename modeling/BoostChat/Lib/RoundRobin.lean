import Mathlib.Data.List.Nodup

/-!
# Round robin

A queue whose items are each put back a number of times before they are served: the
item at the head is served when its `delay` is zero; otherwise it goes to the end and its
delay becomes one less. An item without a delay is put back for ever.

* `rounds` — the items that are served, in the order in which they are: by their delay, and
  among those with the same delay by their place in the queue;
* `rounds_serve`, `rounds_putBack` — what one turn of the queue does to this order.
-/

namespace BoostChat.Lib

variable {α : Type*}

/-- The items with a delay below `n`, in the order in which they are served. -/
def rounds (n : Nat) (delay : α → Option Nat) (queue : List α) : List α :=
  (List.range n).flatMap fun k => queue.filter fun a => delay a = some k

variable {n : Nat} {delay delay' : α → Option Nat} {queue : List α} {a : α}

theorem rounds_nil (n : Nat) (delay : α → Option Nat) : rounds n delay ([] : List α) = [] := by
  simp [rounds]

theorem mem_rounds : a ∈ rounds n delay queue ↔ a ∈ queue ∧ ∃ k < n, delay a = some k := by
  simp only [rounds, List.mem_flatMap, List.mem_range, List.mem_filter, decide_eq_true_eq]
  constructor
  · rintro ⟨k, hk, ha, hdelay⟩
    exact ⟨ha, k, hk, hdelay⟩
  · rintro ⟨ha, k, hk, hdelay⟩
    exact ⟨k, hk, ha, hdelay⟩

/-- No item is served twice. -/
theorem rounds_nodup (h : queue.Nodup) : (rounds n delay queue).Nodup := by
  refine List.nodup_flatMap.mpr ⟨fun k _ => h.filter _, List.nodup_range.imp fun {j k} hne => ?_⟩
  intro b hj hk
  rw [List.mem_filter, decide_eq_true_eq] at hj hk
  exact hne (Option.some.inj (hj.2.symm.trans hk.2))

theorem rounds_congr (h : ∀ b ∈ queue, delay' b = delay b) :
    rounds n delay' queue = rounds n delay queue := by
  refine List.flatMap_congr fun k _ => List.filter_congr fun b hb => ?_
  rw [h b hb]

/-- **The head is served** when its delay is zero. -/
theorem rounds_serve (hn : 0 < n) (h : delay a = some 0) :
    rounds n delay (a :: queue) = a :: rounds n delay queue := by
  obtain ⟨n, rfl⟩ := Nat.exists_eq_succ_of_ne_zero (Nat.ne_of_gt hn)
  have hlater : ∀ k, (a :: queue).filter (fun b => delay b = some (k + 1)) =
      queue.filter fun b => delay b = some (k + 1) := by
    intro k
    exact List.filter_cons_of_neg (by simp [h])
  simp only [rounds, Nat.succ_eq_add_one, List.range_succ_eq_map, List.flatMap_cons,
    List.flatMap_map, hlater]
  rw [List.filter_cons_of_pos (by simp [h]), List.cons_append]

/-- Items without a delay are served as they stand. -/
theorem rounds_zero (hn : 0 < n) (h : ∀ b ∈ queue, delay b = some 0) :
    rounds n delay queue = queue := by
  induction queue with
  | nil => exact rounds_nil n delay
  | cons b queue ih =>
    rw [rounds_serve hn (h b List.mem_cons_self), ih fun c hc => h c (List.mem_cons_of_mem b hc)]

/-- Two families of lists that differ in two neighbours only, and not in these joined. -/
theorem flatMap_range_congr {f g : Nat → List α} {k : Nat} (hk : k + 1 < n)
    (htwo : f k ++ f (k + 1) = g k ++ g (k + 1))
    (hrest : ∀ j, j ≠ k → j ≠ k + 1 → f j = g j) :
    (List.range n).flatMap f = (List.range n).flatMap g := by
  obtain ⟨m, rfl⟩ := Nat.exists_eq_add_of_le hk
  have hbefore : (List.range k).flatMap f = (List.range k).flatMap g := by
    refine List.flatMap_congr fun j hj => ?_
    have hlt := List.mem_range.mp hj
    exact hrest j (by omega) (by omega)
  have hafter : ((List.range m).map (k + 1 + 1 + ·)).flatMap f =
      ((List.range m).map (k + 1 + 1 + ·)).flatMap g := by
    refine List.flatMap_congr fun j hj => ?_
    obtain ⟨i, -, rfl⟩ := List.mem_map.mp hj
    exact hrest _ (by omega) (by omega)
  simp only [Nat.succ_eq_add_one, List.range_add, List.range_succ, List.flatMap_append,
    List.flatMap_singleton, hbefore, hafter]
  rw [List.append_assoc (List.flatMap _ _), htwo, ← List.append_assoc (List.flatMap _ _)]

/-- **The head is put back**: it comes one round earlier, behind all others of that round,
which is where it stood, before all others of the next. -/
theorem rounds_putBack (hzero : delay a ≠ some 0) (ha : delay' a = (delay a).map (· - 1))
    (hqueue : ∀ b ∈ queue, delay' b = delay b) (hn : ∀ k, delay a = some k → k < n) :
    rounds n delay' (queue ++ [a]) = rounds n delay (a :: queue) := by
  have hfilter : ∀ k, (queue ++ [a]).filter (fun b => delay' b = some k) =
      queue.filter (fun b => delay b = some k) ++ [a].filter fun b => delay' b = some k := by
    intro k
    rw [List.filter_append, List.filter_congr fun b hb => by rw [hqueue b hb]]
  -- rounds in which the item is neither before nor after
  have hsame : ∀ k, delay' a ≠ some k → delay a ≠ some k →
      (queue ++ [a]).filter (fun b => delay' b = some k) =
        (a :: queue).filter fun b => delay b = some k := by
    intro k hk' hk
    rw [hfilter, List.filter_cons_of_neg (by simpa using hk'),
      List.filter_cons_of_neg (by simpa using hk), List.filter_nil, List.append_nil]
  cases hdelay : delay a with
  | none =>
    rw [hdelay] at ha hsame
    exact List.flatMap_congr fun k _ => hsame k (by rw [ha]; nofun) nofun
  | some d =>
    cases d with
    | zero => exact absurd hdelay hzero
    | succ k =>
      rw [hdelay, Option.map_some, Nat.add_sub_cancel] at ha
      refine flatMap_range_congr (hn _ hdelay) ?_ fun j hj hj' => ?_
      · rw [hfilter, hfilter, List.filter_cons_of_pos (by simp [ha]),
          List.filter_cons_of_neg (by simp [ha]), List.filter_cons_of_neg (by simp [hdelay]),
          List.filter_cons_of_pos (by simp [hdelay])]
        simp
      · exact hsame j (by rw [ha]; simpa using hj.symm) (by rw [hdelay]; simpa using hj'.symm)

end BoostChat.Lib
