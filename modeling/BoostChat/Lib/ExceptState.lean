import Mathlib.Logic.Basic

/-!
# Computations with exceptions over a state

`outcome x s` runs a computation with exceptions from a state: its result or its
exception, and the state either way. The lemmas follow the computation, so that a
program is evaluated without unfolding the monads.
-/

namespace BoostChat.Lib

variable {ε σ α β : Type}

/-- What a computation yields from a state, and the state it leaves. -/
def outcome (x : ExceptT ε (StateM σ) α) (s : σ) : Except ε α × σ := Id.run (x.run.run s)

@[simp] theorem outcome_pure (a : α) (s : σ) :
    outcome (pure a : ExceptT ε (StateM σ) α) s = (.ok a, s) := rfl

variable {x : ExceptT ε (StateM σ) α} {f : α → ExceptT ε (StateM σ) β}
  {handler : ε → ExceptT ε (StateM σ) α} {s t : σ} {a : α} {e : ε}

/-- A computation that returns is followed by the next one. -/
theorem outcome_bind_ok (h : outcome x s = (.ok a, t)) : outcome (x >>= f) s = outcome (f a) t := by
  rw [outcome, ExceptT.run_bind, StateT.run_bind, Id.run_bind]
  rw [outcome] at h
  rw [h]
  rfl

/-- A computation that throws ends what it is part of. -/
theorem outcome_bind_error (h : outcome x s = (.error e, t)) :
    outcome (x >>= f) s = (.error e, t) := by
  rw [outcome, ExceptT.run_bind, StateT.run_bind, Id.run_bind]
  rw [outcome] at h
  rw [h]
  rfl

theorem outcome_tryCatch_ok (h : outcome x s = (.ok a, t)) :
    outcome (tryCatch x handler) s = (.ok a, t) := by
  rw [outcome, ExceptT.run_tryCatch, StateT.run_bind, Id.run_bind]
  rw [outcome] at h
  rw [h]
  rfl

/-- The handler runs in the state that the exception left. -/
theorem outcome_tryCatch_error (h : outcome x s = (.error e, t)) :
    outcome (tryCatch x handler) s = outcome (handler e) t := by
  rw [outcome, ExceptT.run_tryCatch, StateT.run_bind, Id.run_bind]
  rw [outcome] at h
  rw [h]
  rfl

end BoostChat.Lib
