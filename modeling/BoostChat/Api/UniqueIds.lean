import BoostChat.Api.FailedWrites

/-!
# Unique user ids

`CreateUser` looks the user id up, and inserts the account after another `await`. The
table has no constraint on the column, so nothing else keeps the ids apart.

* `saved_distinct_iff` — when a save keeps the user ids of the table distinct;
* `user_ids_unique` — they are distinct all along a run, and no look-up throws, exactly
  when every save inserts new user ids;
* `bobJoinsTwice_overlap` — two requests with the same id overlap, and both rows are there.
-/

namespace BoostChat.Api

open HStarContext Lib

/-! ## Contexts -/

namespace HStarContext

variable {ctx : HStarContext}

/-- The user ids are distinct, so that no `SingleOrDefaultAsync` finds two rows. -/
structure UniqueIds (ctx : HStarContext) : Prop where
  distinct : (ctx.table.map (·.userId)).Nodup
  reads : ∀ userId, ctx.singleNoTracking true userId ≠ none
  tracks : ∀ userId, (ctx.single true userId).2 ≠ none

/-- Rows with distinct user ids: at most one of them has a given one. -/
theorem singleNoTracking_ne_none (h : (ctx.table.map (·.userId)).Nodup) (userId : Bytes) :
    ctx.singleNoTracking true userId ≠ none := by
  have hnodup : ((ctx.rowsOf userId).map (·.userId)).Nodup :=
    h.sublist (((List.take_sublist 2 _).trans List.filter_sublist).map _)
  rw [singleNoTracking, if_pos rfl]
  rcases hrows : ctx.rowsOf userId with _ | ⟨row, _ | ⟨row', rows⟩⟩
  · exact Option.some_ne_none _
  · exact Option.some_ne_none _
  · -- both rows have the id that was looked up
    have hfirst : row.userId = userId := (mem_rowsOf (hrows ▸ List.mem_cons_self)).2
    have hsecond : row'.userId = userId :=
      (mem_rowsOf (hrows ▸ List.mem_cons_of_mem _ List.mem_cons_self)).2
    rw [hrows, List.map_cons, List.map_cons, hfirst, hsecond, List.nodup_cons] at hnodup
    exact absurd List.mem_cons_self hnodup.1

theorem uniqueIds_iff : ctx.UniqueIds ↔ (ctx.table.map (·.userId)).Nodup := by
  refine ⟨fun h => h.distinct, fun h => ⟨h, singleNoTracking_ne_none h, fun userId => ?_⟩⟩
  rw [single, Ne, Option.map_eq_none_iff]
  exact singleNoTracking_ne_none h userId

/-- What a save would insert has distinct user ids, and no row has one of them. -/
def InsertsNew (ctx : HStarContext) : Prop :=
  (ctx.added.map (·.userId)).Nodup ∧
    ∀ e ∈ ctx.added, ∀ row ∈ ctx.table, e.userId ≠ some row.userId

instance (ctx : HStarContext) : Decidable ctx.InsertsNew := inferInstanceAs (Decidable (_ ∧ _))

/-- The new rows have the user ids of the entities. -/
theorem newRows_userIds {gap : Nat} {new : List UserRow} (h : ctx.newRows gap = some new) :
    new.map (fun row => some row.userId) = ctx.added.map (·.userId) := by
  obtain ⟨g, hg, rfl⟩ := exists_map_of_mapM h
  conv_rhs => rw [← List.zipIdx_map_fst 0 ctx.added, List.map_map]
  rw [List.map_map]
  refine List.map_congr_left fun p hp => ?_
  have hentity := UserEntity.toRow?_eq_some_iff.mp (hg p hp)
  exact (congrArg UserEntity.userId hentity).symm

/-- A save appends the user ids of what it inserts. -/
theorem Coherent.saved_userIds (h : ctx.Coherent) {w : SaveWorld}
    (hsaved : (ctx.saveChanges w).2 = true) :
    (ctx.saveChanges w).1.table.map (fun row => some row.userId) =
      ctx.table.map (fun row => some row.userId) ++ ctx.added.map (·.userId) := by
  rcases saveChanges_cases ctx w with hfail | ⟨rowAfter, new, -, hrows, hnew, hsave⟩
  · rw [hfail] at hsaved
    cases hsaved
  · rw [hsave]
    show (ctx.table.map rowAfter ++ new).map (fun row => some row.userId) = _
    rw [List.map_append, newRows_userIds hnew, List.map_map]
    congr 1
    exact List.map_congr_left fun row hrow =>
      congrArg some (h.savedRow hrow (hrows row hrow)).2.1

/-- **When a save keeps the user ids distinct.** -/
theorem Coherent.saved_distinct_iff (h : ctx.Coherent) {w : SaveWorld}
    (hdistinct : (ctx.table.map (·.userId)).Nodup) (hsaved : (ctx.saveChanges w).2 = true) :
    ((ctx.saveChanges w).1.table.map (·.userId)).Nodup ↔ ctx.InsertsNew := by
  have hsome : ∀ rows : List UserRow,
      (rows.map fun row => some row.userId).Nodup ↔ (rows.map (·.userId)).Nodup := by
    intro rows
    have hmap : (rows.map fun row => some row.userId) = (rows.map (·.userId)).map some := by
      rw [List.map_map]
      rfl
    rw [hmap, List.nodup_map_iff fun _ _ h => Option.some.inj h]
  -- the ids of the rows, then those of the new entities
  rw [← hsome, h.saved_userIds hsaved, List.nodup_append, hsome, InsertsNew]
  constructor
  · rintro ⟨-, hadded, hapart⟩
    refine ⟨hadded, fun e he row hrow heq => ?_⟩
    exact hapart _ (List.mem_map_of_mem hrow) _ (List.mem_map_of_mem he) heq.symm
  · rintro ⟨hadded, hapart⟩
    refine ⟨hdistinct, hadded, fun userId hkept userId' hnew heq => ?_⟩
    obtain ⟨row, hrow, rfl⟩ := List.mem_map.mp hkept
    obtain ⟨e, he, rfl⟩ := List.mem_map.mp hnew
    exact hapart e he row hrow heq.symm

end HStarContext

/-! ## Runs -/

/-- The context that a step hands to `SaveChangesAsync`, and what the database makes of it. -/
def Sys.saves (s : Sys) : Action → Option (SaveWorld × HStarContext)
  | .begin _ _ => none
  | .proceed k => s.waiting[k]?.bind fun x =>
    (x.task.toSave x.world s.api.context).map fun ctx => (x.world.toSaveWorld, ctx)

/-- When a step saves anything, it inserts new user ids. -/
def Sys.InsertsNewIds (s : Sys) (a : Action) : Prop :=
  ∀ p ∈ s.saves a, p.2.Savable p.1 → p.2.InsertsNew

instance (s : Sys) (a : Action) : Decidable (s.InsertsNewIds a) :=
  inferInstanceAs (Decidable (∀ p ∈ s.saves a, p.2.Savable p.1 → p.2.InsertsNew))

variable {pbkdf2 : Pbkdf2} {s t : Sys} {a : Action}

/-- **Inversion.** A step saves, or it leaves the table alone. -/
theorem step_table_cases (hstep : step pbkdf2 s a = some t) :
    (∃ w ctx, s.saves a = some (w, ctx) ∧ ctx.table = s.api.context.table ∧
      (s.api.context.Coherent → ctx.Coherent) ∧ t.api.context = (ctx.saveChanges w).1) ∨
    s.saves a = none ∧ t.api.context.table = s.api.context.table := by
  rcases step_cases hstep with ⟨w, request, rfl, rfl⟩ | ⟨k, x, rfl, hk, -, rfl⟩
  · rw [Sys.place_api]
    exact Or.inr ⟨rfl, begin_table pbkdf2 w s.api request⟩
  · rw [Sys.place_api, Sys.saves, hk, Option.bind_some]
    cases hsave : x.task.toSave x.world s.api.context with
    | some ctx =>
      refine Or.inl ⟨_, ctx, rfl, Task.toSave_table hsave, fun hc => Task.toSave_coherent hc hsave,
        ?_⟩
      rw [proceed_of_toSave hsave]
    | none =>
      refine Or.inr ⟨rfl, ?_⟩
      rcases proceed_of_toSave_none hsave with heq | ⟨userId, heq⟩ <;> rw [heq]
      exact single_table _ _

/-- **Step lemma.** A step keeps the user ids distinct exactly when it inserts new ones. -/
theorem uniqueIds_step (hc : s.api.context.Coherent) (hunique : s.api.context.UniqueIds)
    (hstep : step pbkdf2 s a = some t) : t.api.context.UniqueIds ↔ s.InsertsNewIds a := by
  have hdistinct := hunique.distinct
  rw [uniqueIds_iff, Sys.InsertsNewIds]
  rcases step_table_cases hstep with ⟨w, ctx, hsaves, htable, hcoherent, hcontext⟩ |
    ⟨hsaves, htable⟩
  · rw [← htable] at hdistinct
    rw [hcontext, hsaves]
    cases hsaved : (ctx.saveChanges w).2 with
    | true =>
      have hsavable : ctx.Savable w := saveChanges_true_iff.mp hsaved
      rw [(hcoherent hc).saved_distinct_iff hdistinct hsaved]
      refine ⟨fun hnew p hp _ => ?_, fun h => h _ rfl hsavable⟩
      obtain rfl := Option.some.inj hp
      exact hnew
    | false =>
      -- the save throws, and nothing is written
      rw [saveChanges_eq_of_throws hsaved]
      refine ⟨fun _ p hp hsavable => ?_, fun _ => hdistinct⟩
      obtain rfl := Option.some.inj hp
      rw [← saveChanges_true_iff, hsaved] at hsavable
      cases hsavable
  · rw [hsaves, htable]
    exact ⟨fun _ p hp => (Option.not_mem_none p hp).elim, fun _ => hdistinct⟩

/-- **Unique user ids.** From a table with distinct user ids, the user ids are distinct in
every state of a run, so that no look-up finds two rows, if and only if every step that
saves anything inserts new user ids. -/
theorem user_ids_unique {table : List UserRow} (hids : (table.map (·.id)).Nodup)
    (huserIds : (table.map (·.userId)).Nodup) {redis : Redis} {as : List Action}
    (hrun : Run (step pbkdf2) anyStep { api := .start table redis } as s) :
    (∀ pre suf t, as = pre ++ suf →
        Run (step pbkdf2) anyStep { api := .start table redis } pre t →
        t.api.context.UniqueIds) ↔
      Run (step pbkdf2) Sys.InsertsNewIds { api := .start table redis } as s := by
  have hiff := Run.always_iff (c := Sys.InsertsNewIds)
    (I := fun s => s.api.context.UniqueIds) (J := fun s => s.api.context.Coherent)
    (fun s a t hc hunique _ hstep =>
      ⟨coherent_step hc hstep, uniqueIds_step hc hunique hstep⟩)
    hrun (Coherent.fresh hids) (uniqueIds_iff.mpr huserIds)
  rw [hiff, Run.anyStep_and_iff]

/-! ## Overlapping creations -/

/-- Two creations of the account, one after the other. -/
def bobJoinsTwice : List Action :=
  [.begin { salt } bobJoins, .proceed 0, .begin { salt } bobJoins]

theorem user_ids_unique_bobJoinsTwice :
    ∃ s : Sys, Run (step secretPbkdf2) anyStep { api := .start [] fun _ => none } bobJoinsTwice s ∧
      ∀ pre suf t, bobJoinsTwice = pre ++ suf →
        Run (step secretPbkdf2) anyStep { api := .start [] fun _ => none } pre t →
        t.api.context.UniqueIds := by
  obtain ⟨s, hany, hrun⟩ := exists_run_any (step secretPbkdf2) Sys.InsertsNewIds
    { api := .start [] fun _ => none } bobJoinsTwice (by decide)
  exact ⟨s, hany, (user_ids_unique (by decide) (by decide) hany).mpr hrun⟩

/-- Both look-ups come before both insertions: the table holds two rows with the id, and
the next look-up of it throws. -/
theorem bobJoinsTwice_overlap :
    ∃ s : Sys, Run (step secretPbkdf2) anyStep { api := .start [] fun _ => none }
        [.begin { salt } bobJoins, .begin { salt } bobJoins, .proceed 0, .proceed 0] s ∧
      s.api.context.table.map (·.userId) = [ascii "bob", ascii "bob"] ∧
      s.api.context.singleNoTracking true (ascii "bob") = none := by
  obtain ⟨s, hrun, hs⟩ := exists_run_of_exec (step secretPbkdf2) anyStep
    { api := .start [] fun _ => none }
    [.begin { salt } bobJoins, .begin { salt } bobJoins, .proceed 0, .proceed 0]
    (fun s => decide (s.api.context.table.map (·.userId) = [ascii "bob", ascii "bob"] ∧
      s.api.context.singleNoTracking true (ascii "bob") = none)) (by decide)
  exact ⟨s, hrun, of_decide_eq_true hs⟩

end BoostChat.Api
