import Mathlib.Logic.Basic

/-!
# While loops

`while (guard s) s = body s`, with the number of executions of the body as fuel.
A loop *terminates* when some fuel suffices (`whileLoop … = some t`); a loop that
never exits returns `none` for every fuel. `whileTrace` records what the body
reads at the start of each of its executions, so that "the body runs at most once
for each item" is a statement about a list.
-/

namespace BoostChat.Lib

variable {σ β : Type*} (guard : σ → Bool) (body : σ → σ)

/-- The loop with at most `fuel` executions of its body; `none` if the guard still holds then. -/
def whileLoop : Nat → σ → Option σ
  | 0, s => if guard s then none else some s
  | fuel + 1, s => if guard s then whileLoop fuel (body s) else some s

/-- What `probe` reads at the start of each of the first `fuel` executions of the body. -/
def whileTrace (probe : σ → β) : Nat → σ → List β
  | 0, _ => []
  | fuel + 1, s => if guard s then probe s :: whileTrace probe fuel (body s) else []

variable {guard body}

theorem whileLoop_exit {s : σ} (h : guard s = false) (fuel : Nat) :
    whileLoop guard body fuel s = some s := by
  cases fuel <;> simp [whileLoop, h]

theorem whileLoop_zero {s : σ} (h : guard s = true) : whileLoop guard body 0 s = none := by
  simp [whileLoop, h]

theorem whileLoop_succ {s : σ} (h : guard s = true) (fuel : Nat) :
    whileLoop guard body (fuel + 1) s = whileLoop guard body fuel (body s) := by
  simp [whileLoop, h]

theorem whileTrace_exit {probe : σ → β} {s : σ} (h : guard s = false) (fuel : Nat) :
    whileTrace guard body probe fuel s = [] := by
  cases fuel <;> simp [whileTrace, h]

theorem whileTrace_succ {probe : σ → β} {s : σ} (h : guard s = true) (fuel : Nat) :
    whileTrace guard body probe (fuel + 1) s =
      probe s :: whileTrace guard body probe fuel (body s) := by
  simp [whileTrace, h]

/-- A loop that exits does so with any greater fuel as well. -/
theorem whileLoop_le : ∀ {m n : Nat} {s t : σ}, m ≤ n →
    whileLoop guard body m s = some t → whileLoop guard body n s = some t := by
  intro m
  -- on the smaller fuel, for all states and all greater fuels
  induction m with
  | zero =>
    intro n s t _ h
    cases hg : guard s with
    | true => rw [whileLoop_zero hg] at h; cases h
    | false => rwa [whileLoop_exit hg] at h ⊢
  | succ m ih =>
    intro n s t hle h
    cases hg : guard s with
    | false => rwa [whileLoop_exit hg] at h ⊢
    | true =>
      obtain ⟨n, rfl⟩ :=
        Nat.exists_eq_add_of_le' (Nat.le_trans (Nat.succ_le_succ (Nat.zero_le m)) hle)
      rw [whileLoop_succ hg] at h ⊢
      exact ih (Nat.le_of_succ_le_succ hle) h

/-- A loop that exits does so because its guard is false. -/
theorem whileLoop_guard : ∀ {fuel : Nat} {s t : σ}, whileLoop guard body fuel s = some t →
    guard t = false := by
  intro fuel
  induction fuel with
  | zero =>
    intro s t h
    cases hg : guard s with
    | true => rw [whileLoop_zero hg] at h; cases h
    | false =>
      rw [whileLoop_exit hg, Option.some.injEq] at h
      exact h ▸ hg
  | succ n ih =>
    intro s t h
    cases hg : guard s with
    | true =>
      rw [whileLoop_succ hg] at h
      exact ih h
    | false =>
      rw [whileLoop_exit hg, Option.some.injEq] at h
      exact h ▸ hg

/-- What holds before the loop and is kept by its body holds when the loop exits. -/
theorem whileLoop_invariant {I : σ → Prop} (hI : ∀ s, guard s = true → I s → I (body s)) :
    ∀ {fuel : Nat} {s t : σ}, whileLoop guard body fuel s = some t → I s → I t := by
  intro fuel
  induction fuel with
  | zero =>
    intro s t h hs
    cases hg : guard s with
    | true => rw [whileLoop_zero hg] at h; cases h
    | false =>
      rw [whileLoop_exit hg, Option.some.injEq] at h
      exact h ▸ hs
  | succ n ih =>
    intro s t h hs
    cases hg : guard s with
    | true =>
      rw [whileLoop_succ hg] at h
      exact ih h (hI s hg hs)
    | false =>
      rw [whileLoop_exit hg, Option.some.injEq] at h
      exact h ▸ hs

/-- **Divergence.** A loop never exits when an invariant keeps its guard true. -/
theorem whileLoop_diverges {I : σ → Prop} (hI : ∀ s, guard s = true → I s → I (body s))
    (hguard : ∀ s, I s → guard s = true) {s : σ} (hs : I s) (fuel : Nat) :
    whileLoop guard body fuel s = none := by
  cases h : whileLoop guard body fuel s with
  | none => rfl
  | some t =>
    have hfalse := whileLoop_guard h
    rw [hguard t (whileLoop_invariant hI h hs)] at hfalse
    cases hfalse

end BoostChat.Lib
