import Mathlib.Logic.Basic

/-!
# Labelled transition systems with an executable step

A system is a partial function `step : σ → α → Option σ`: the label `a : α`
resolves every choice the environment has (which party moves, what an external
service answers), and `none` says that the action is not enabled.

* `Run step ok s as t` — a finite run whose every step also meets the side
  condition `ok`, a predicate of the state *before* the step and of the action.
  A statement about "every run whose steps all meet a condition" is a statement
  about `Run step ok`; `anyStep` is the condition that always holds.
* `exec` — the same run as a function, so that a concrete run is found by
  evaluation and turned into a `Run` by `run_of_exec`.
* `Run.invariant` — the induction rule every invariant is proved by.
* `Run.history` — the same rule for an invariant that speaks of the actions taken so far.
* `Run.counted` — the same rule for an invariant that speaks of the number of steps of
  a kind so far (`stepCount`), in runs with a bounded number of them.
* `Run.since` — the step that made a property hold which has held ever since.
* `Run.always_iff` — when a property stays true in exactly the steps that meet a
  condition, it holds all along a run exactly when all steps of the run meet it.
* `Run.simulate` — a run of one system seen through a projection is a run of
  another, up to the steps the projection does not see.
-/

namespace BoostChat.Lib

variable {σ τ α β : Type*}

/-- Finite runs of `step` whose steps all meet `ok`. -/
inductive Run (step : σ → α → Option σ) (ok : σ → α → Prop) : σ → List α → σ → Prop
  | nil (s : σ) : Run step ok s [] s
  | cons {s t u : σ} {a : α} {as : List α} (hok : ok s a) (hstep : step s a = some t)
      (hrun : Run step ok t as u) : Run step ok s (a :: as) u

/-- The side condition that holds of every step. -/
def anyStep (_ : σ) (_ : α) : Prop := True

instance (s : σ) (a : α) : Decidable (anyStep s a) := inferInstanceAs (Decidable True)

/-- A guarded step that was taken: its guard held. -/
theorem guarded_step {p : Prop} [Decidable p] {s t : σ}
    (h : (if p then some s else none) = some t) :
    p ∧ s = t := by
  rw [Option.ite_none_right_eq_some] at h
  exact ⟨h.1, Option.some.inj h.2⟩

section Exec

variable (step : σ → α → Option σ) (ok : σ → α → Prop) [∀ s a, Decidable (ok s a)]

/-- Runs a list of actions; `none` as soon as one of them is not enabled or not permitted. -/
def exec : σ → List α → Option σ
  | s, [] => some s
  | s, a :: as => if ok s a then (step s a).bind fun t => exec t as else none

variable {step ok}

theorem run_of_exec : ∀ {as : List α} {s t : σ}, exec step ok s as = some t → Run step ok s as t
  | [], s, t, h => by
    rw [exec, Option.some.injEq] at h
    exact h ▸ Run.nil s
  | a :: as, s, t, h => by
    rw [exec, Option.ite_none_right_eq_some, Option.bind_eq_some_iff] at h
    obtain ⟨hok, u, hstep, hrest⟩ := h
    exact Run.cons hok hstep (run_of_exec hrest)

variable (step ok)

/-- What a Boolean test finds at the end of an executed run holds at the end of a run. -/
theorem exists_run_of_exec (s : σ) (as : List α) (p : σ → Bool)
    (h : (exec step ok s as).map p = some true) : ∃ t, Run step ok s as t ∧ p t = true := by
  cases hexec : exec step ok s as with
  | none => simp [hexec] at h
  | some t =>
    rw [hexec, Option.map_some, Option.some.injEq] at h
    exact ⟨t, run_of_exec hexec, h⟩

end Exec

/-- **Invariant rule.** What every permitted step preserves holds after every run. -/
theorem Run.invariant {step : σ → α → Option σ} {ok : σ → α → Prop} {I : σ → Prop}
    (hI : ∀ s a t, I s → ok s a → step s a = some t → I t)
    {s t : σ} {as : List α} (hrun : Run step ok s as t) (hs : I s) : I t := by
  induction hrun with
  | nil => exact hs
  | cons hok hstep _ ih => exact ih (hI _ _ _ hs hok hstep)

/-- **History rule.** An invariant that speaks of the actions taken so far. -/
theorem Run.history {step : σ → α → Option σ} {ok : σ → α → Prop} {I : List α → σ → Prop}
    (hI : ∀ before s a t, I before s → ok s a → step s a = some t → I (before ++ [a]) t)
    {s t : σ} {as : List α} (hrun : Run step ok s as t) :
    ∀ {before : List α}, I before s → I (before ++ as) t := by
  induction hrun with
  | nil =>
    intro before hs
    rwa [List.append_nil]
  | @cons s t u a as hok hstep _ ih =>
    intro before hs
    rw [← List.singleton_append, ← List.append_assoc]
    exact ih (hI before s a t hs hok hstep)

/-- **Projection rule.** When every step of a system either leaves the projection
`f` alone or is a permitted step of `step'` there, a run projects to a run. -/
theorem Run.simulate {step : σ → α → Option σ} {ok : σ → α → Prop}
    {step' : τ → β → Option τ} {ok' : τ → β → Prop} {f : σ → τ}
    (hsim : ∀ s a t, ok s a → step s a = some t →
      f t = f s ∨ ∃ b, ok' (f s) b ∧ step' (f s) b = some (f t))
    {s t : σ} {as : List α} (hrun : Run step ok s as t) :
    ∃ bs, Run step' ok' (f s) bs (f t) := by
  induction hrun with
  | nil s => exact ⟨[], Run.nil _⟩
  | cons hok hstep _ ih =>
    obtain ⟨bs, hbs⟩ := ih
    rcases hsim _ _ _ hok hstep with heq | ⟨b, hb, hstep'⟩
    · exact ⟨bs, heq ▸ hbs⟩
    · exact ⟨b :: bs, Run.cons hb hstep' hbs⟩

/-! ## Parts of runs -/

section Parts

variable {step : σ → α → Option σ} {ok ok' : σ → α → Prop} {s t u : σ} {as bs : List α}

theorem Run.weaken (hok : ∀ s a, ok s a → ok' s a) (hrun : Run step ok s as t) :
    Run step ok' s as t := by
  induction hrun with
  | nil => exact Run.nil _
  | cons h hstep _ ih => exact Run.cons (hok _ _ h) hstep ih

/-- A system that makes the same steps with the actions of the run. -/
theorem Run.congr {step' : σ → α → Option σ} (hrun : Run step ok s as t)
    (h : ∀ a ∈ as, ∀ s, step' s a = step s a) : Run step' ok s as t := by
  induction hrun with
  | nil => exact Run.nil _
  | cons hok hstep _ ih =>
    exact Run.cons hok ((h _ List.mem_cons_self _).trans hstep)
      (ih fun a ha => h a (List.mem_cons_of_mem _ ha))

theorem Run.anyStep_and_iff : Run step (fun s a => anyStep s a ∧ ok s a) s as t ↔
    Run step ok s as t :=
  ⟨fun h => h.weaken fun _ _ hboth => hboth.2, fun h => h.weaken fun _ _ h => ⟨trivial, h⟩⟩

variable (step ok) in
/-- An executed run whose steps meet the condition, and the same run without it. -/
theorem exists_run_any [∀ s a, Decidable (ok s a)] (s : σ) (as : List α)
    (h : (exec step ok s as).isSome = true) :
    ∃ t, Run step anyStep s as t ∧ Run step ok s as t := by
  obtain ⟨t, hexec⟩ := Option.isSome_iff_exists.mp h
  have hrun := run_of_exec hexec
  exact ⟨t, hrun.weaken fun _ _ _ => trivial, hrun⟩

/-- A condition that the actions meet in every state. -/
theorem Run.restrict (hrun : Run step ok s as t) (h : ∀ a ∈ as, ∀ s, ok' s a) :
    Run step ok' s as t := by
  induction hrun with
  | nil => exact Run.nil _
  | cons _ hstep _ ih =>
    refine Run.cons (h _ List.mem_cons_self _) hstep (ih fun a ha => ?_)
    exact h a (List.mem_cons_of_mem _ ha)

/-- One more step. -/
theorem Run.concat {a : α} (hrun : Run step ok s as t) (hok : ok t a) (hstep : step t a = some u) :
    Run step ok s (as ++ [a]) u := by
  induction hrun with
  | nil => exact Run.cons hok hstep (Run.nil u)
  | cons h hfirst _ ih => exact Run.cons h hfirst (ih hok hstep)

/-- A run that begins with a step. -/
theorem Run.cons_iff {a : α} (hstep : step s a = some t) :
    Run step ok s (a :: as) u ↔ ok s a ∧ Run step ok t as u := by
  constructor
  · intro hrun
    cases hrun with
    | cons hok hstep' hrest =>
      obtain rfl := Option.some.inj (hstep.symm.trans hstep')
      exact ⟨hok, hrest⟩
  · rintro ⟨hok, hrest⟩
    exact Run.cons hok hstep hrest

/-- A run and one that goes on from its end. -/
theorem Run.append (hrun : Run step ok s as t) (hrest : Run step ok t bs u) :
    Run step ok s (as ++ bs) u := by
  induction hrun with
  | nil => exact hrest
  | cons hok hstep _ ih => exact Run.cons hok hstep (ih hrest)

/-- A run over two lists stops in between. -/
theorem Run.split : ∀ {as : List α} {s : σ}, Run step ok s (as ++ bs) u →
    ∃ t, Run step ok s as t ∧ Run step ok t bs u
  | [], s, h => ⟨s, Run.nil s, h⟩
  | a :: as, s, h => by
    cases h with
    | cons hok hstep hrest =>
      obtain ⟨t, hfirst, hsecond⟩ := Run.split hrest
      exact ⟨t, Run.cons hok hstep hfirst, hsecond⟩

/-- The actions determine where a run ends. -/
theorem Run.unique (hrun : Run step ok s as t) (hrun' : Run step ok' s as u) : t = u := by
  induction hrun with
  | nil =>
    cases hrun'
    rfl
  | cons _ hstep _ ih =>
    cases hrun' with
    | cons _ hstep' hrest =>
      obtain rfl := Option.some.inj (hstep.symm.trans hstep')
      exact ih hrest

/-- **Since when.** A property that holds at the end of a run holds all along it, or there
is a step that made it hold and from which on it held. -/
theorem Run.since {P : σ → Prop} (hrun : Run step ok s as t) (ht : P t) :
    (P s ∧ Run step (fun s a => ok s a ∧ P s) s as t) ∨
    ∃ pre a suf u v, as = pre ++ a :: suf ∧ Run step ok s pre u ∧ step u a = some v ∧ ¬ P u ∧
      P v ∧ Run step (fun s a => ok s a ∧ P s) v suf t := by
  induction hrun with
  | nil s => exact Or.inl ⟨ht, Run.nil s⟩
  | @cons s v u a as hok hstep hrest ih =>
    rcases ih ht with ⟨hv, hall⟩ | ⟨pre, b, suf, w, x, rfl, hpre, hrise, hw, hx, hsuf⟩
    · by_cases hs : P s
      · exact Or.inl ⟨hs, Run.cons ⟨hok, hs⟩ hstep hall⟩
      · exact Or.inr ⟨[], a, as, s, v, rfl, Run.nil s, hstep, hs, hv, hall⟩
    · exact Or.inr ⟨a :: pre, b, suf, w, x, rfl, Run.cons hok hstep hpre, hrise, hw, hx, hsuf⟩

end Parts

/-! ## Counting steps -/

section Count

variable (step : σ → α → Option σ) (kind : σ → α → Bool)

/-- The number of steps of a kind that a run takes. -/
def stepCount : σ → List α → Nat
  | _, [] => 0
  | s, a :: as => (kind s a).toNat + ((step s a).map fun t => stepCount t as).getD 0

variable {step kind} {ok : σ → α → Prop}

theorem stepCount_cons {s t : σ} {a : α} {as : List α} (hstep : step s a = some t) :
    stepCount step kind s (a :: as) = (kind s a).toNat + stepCount step kind t as := by
  rw [stepCount, hstep]
  rfl

theorem stepCount_append {s t : σ} {as : List α} (bs : List α) (hrun : Run step ok s as t) :
    stepCount step kind s (as ++ bs) = stepCount step kind s as + stepCount step kind t bs := by
  induction hrun with
  | nil =>
    rw [List.nil_append, stepCount]
    omega
  | cons _ hstep _ ih =>
    rw [List.cons_append, stepCount_cons hstep, stepCount_cons hstep, ih]
    omega

/-- **Counting rule.** An invariant that speaks of the number of steps of a kind holds
after every run in which this number stays within a bound. -/
theorem Run.counted {I : Nat → σ → Prop} {bound : Nat}
    (hI : ∀ n s a t, n + (kind s a).toNat ≤ bound → I n s → ok s a → step s a = some t →
      I (n + (kind s a).toNat) t)
    {s t : σ} {as : List α} (hrun : Run step ok s as t) :
    ∀ {n : Nat}, n + stepCount step kind s as ≤ bound → I n s →
      I (n + stepCount step kind s as) t := by
  induction hrun with
  | nil =>
    intro n _ hs
    exact hs
  | @cons s t u a as hok hstep _ ih =>
    intro n hbound hs
    rw [stepCount_cons hstep] at hbound ⊢
    have hnext := hI n s a t (by omega) hs hok hstep
    rw [← Nat.add_assoc] at hbound ⊢
    exact ih hbound hnext

end Count

/-! ## Properties that hold all along a run -/

/-- **Exact condition.** Let a step from a state with property `I` keep it exactly when
the step meets `c`. Then all states on a run have the property exactly when all steps of
the run meet the condition. `J` is what is known of the states anyway. -/
theorem Run.always_iff {step : σ → α → Option σ} {ok c : σ → α → Prop} {I J : σ → Prop}
    (hI : ∀ s a t, J s → I s → ok s a → step s a = some t → J t ∧ (I t ↔ c s a))
    {s t : σ} {as : List α} (hrun : Run step ok s as t) (hJ : J s) (hs : I s) :
    (∀ pre suf u, as = pre ++ suf → Run step ok s pre u → I u) ↔
      Run step (fun s a => ok s a ∧ c s a) s as t := by
  induction hrun with
  | nil s =>
    refine ⟨fun _ => Run.nil s, fun _ pre suf u hsplit hpre => ?_⟩
    obtain ⟨rfl, rfl⟩ := List.append_eq_nil_iff.mp hsplit.symm
    cases hpre
    exact hs
  | @cons s t v a as hok hstep hrest ih =>
    obtain ⟨hJt, hiff⟩ := hI s a t hJ hs hok hstep
    constructor
    · intro hall
      -- the property after one step shows that this step meets the condition
      have ht : I t := hall [a] as t rfl (Run.cons hok hstep (Run.nil t))
      refine Run.cons ⟨hok, hiff.mp ht⟩ hstep ((ih hJt ht).mp fun pre suf u hsplit hpre => ?_)
      exact hall (a :: pre) suf u (by rw [hsplit, List.cons_append]) (Run.cons hok hstep hpre)
    · intro hmeets pre suf u hsplit hpre
      cases hmeets with
      | cons hokc hstep' hrest' =>
        obtain rfl := Option.some.inj (hstep.symm.trans hstep')
        have ht : I t := hiff.mpr hokc.2
        cases pre with
        | nil =>
          cases hpre
          exact hs
        | cons b pre =>
          obtain ⟨rfl, htail⟩ := List.cons.inj hsplit
          cases hpre with
          | cons _ hstep'' hpre =>
            obtain rfl := Option.some.inj (hstep.symm.trans hstep'')
            exact (ih hJt ht).mpr hrest' pre suf u htail hpre

end BoostChat.Lib
