import BoostChat.Api.HStarContext
import Mathlib.Data.List.Nodup
import Mathlib.Data.List.Range

/-!
# The change tracker mirrors the table

* `Coherent` — the invariant of the context: the keys of the table are distinct, and
  every tracked entity has the key and the user id of its row, and all its values
  unless it is pending;
* `Coherent.saveChanges` — a save keeps it, whatever was pending;
* `staged_tracked` — what is pending after an assignment to the entity of a row.
-/

namespace BoostChat.Api

/-! ## Lists of optional values -/

section MapM

variable {α β : Type} {f : α → Option β} {l : List α}

theorem mapM_of_forall {g : α → β} (h : ∀ a ∈ l, f a = some (g a)) :
    l.mapM f = some (l.map g) := by
  induction l with
  | nil => rfl
  | cons a l ih =>
    obtain ⟨ha, hl⟩ := List.forall_mem_cons.mp h
    simp [ha, ih hl]

theorem exists_map_of_mapM [Inhabited β] {l' : List β} (h : l.mapM f = some l') :
    ∃ g, (∀ a ∈ l, f a = some (g a)) ∧ l' = l.map g := by
  refine ⟨fun a => (f a).getD default, ?_⟩
  induction l generalizing l' with
  | nil => simpa using h.symm
  | cons a l ih =>
    simp only [List.mapM_cons, Option.bind_eq_bind, Option.bind_eq_some_iff, Option.pure_def,
      Option.some.injEq] at h
    obtain ⟨b, hb, rest, hrest, rfl⟩ := h
    obtain ⟨hl, rfl⟩ := ih hrest
    exact ⟨List.forall_mem_cons.mpr ⟨by simp [hb], hl⟩, by simp [hb]⟩

/-- A traversal fails only where an element does. -/
theorem mapM_ne_none_iff : l.mapM f ≠ none ↔ ∀ a ∈ l, f a ≠ none := by
  induction l with
  | nil => simp
  | cons a l ih =>
    rw [List.forall_mem_cons, ← ih, List.mapM_cons]
    cases f a <;> cases l.mapM f <;> simp

end MapM

/-! ## The invariant -/

@[simp] theorem UserEntity.ofRow_id (row : UserRow) : (UserEntity.ofRow row).id = row.id := rfl

@[simp] theorem UserEntity.ofRow_userId (row : UserRow) :
    (UserEntity.ofRow row).userId = some row.userId := rfl

theorem UserEntity.toRow?_eq_some_iff {e : UserEntity} {row : UserRow} :
    e.toRow? = some row ↔ e = .ofRow row := by
  obtain ⟨id, userId, password, username, email, isAlive⟩ := e
  obtain ⟨id', userId', password', username', email', isAlive'⟩ := row
  cases userId <;> cases password <;> cases username <;> cases email <;> cases isAlive <;>
    simp [toRow?, ofRow]

/-- Whether a value is missing does not depend on the key. -/
theorem UserEntity.toRow?_withId_ne_none_iff (e : UserEntity) (id : Nat) :
    ({ e with id := id } : UserEntity).toRow? ≠ none ↔ e.toRow? ≠ none := by
  obtain ⟨id', userId, password, username, email, isAlive⟩ := e
  cases userId <;> cases password <;> cases username <;> cases email <;> cases isAlive <;>
    simp [toRow?]

/-- The entity belongs to the row, and has its values unless it is pending. -/
structure Entry.Mirrors (entry : Entry) (row : UserRow) : Prop where
  id : entry.entity.id = row.id
  userId : entry.entity.userId = some row.userId
  saved : entry.modified = false → entry.entity = .ofRow row

/-- The entity that a query has just read. -/
theorem Entry.Mirrors.ofRow (row : UserRow) : Entry.Mirrors { entity := .ofRow row } row :=
  ⟨rfl, rfl, fun _ => rfl⟩

namespace HStarContext

structure Coherent (ctx : HStarContext) : Prop where
  ids : (ctx.table.map (·.id)).Nodup
  tracked : ∀ id entry, ctx.tracked id = some entry →
    ∃ row ∈ ctx.table, row.id = id ∧ entry.Mirrors row

variable {ctx : HStarContext}

/-- The context of a server that has just started. -/
theorem Coherent.fresh {table : List UserRow} (hids : (table.map (·.id)).Nodup) :
    Coherent { table := table } :=
  ⟨hids, fun _ _ h => by cases h⟩

/-- A key belongs to one row. -/
theorem Coherent.eq_of_id (h : ctx.Coherent) {row row' : UserRow} (hrow : row ∈ ctx.table)
    (hrow' : row' ∈ ctx.table) (hid : row.id = row'.id) : row = row' :=
  List.inj_on_of_nodup_map h.ids hrow hrow' hid

/-- What is tracked for a row mirrors that row. -/
theorem Coherent.mirrors (h : ctx.Coherent) {row : UserRow} (hrow : row ∈ ctx.table)
    {entry : Entry} (hentry : ctx.tracked row.id = some entry) : entry.Mirrors row := by
  obtain ⟨row', hrow', hid, hmirrors⟩ := h.tracked _ _ hentry
  rwa [← h.eq_of_id hrow' hrow hid]

/-- Rows that a query finds are in the table and have the user id. -/
theorem mem_rowsOf {userId : Bytes} {row : UserRow} (h : row ∈ ctx.rowsOf userId) :
    row ∈ ctx.table ∧ row.userId = userId := by
  have hmem := List.mem_of_mem_take h
  rw [List.mem_filter, beq_iff_eq] at hmem
  exact hmem

theorem mem_of_rowsOf {userId : Bytes} {row : UserRow} (h : ctx.rowsOf userId = [row]) :
    row ∈ ctx.table ∧ row.userId = userId :=
  mem_rowsOf (by rw [h]; exact List.mem_singleton_self row)

/-! ## Queries -/

@[simp] theorem track_table (row : UserRow) : (ctx.track row).table = ctx.table := by
  unfold track
  split <;> rfl

@[simp] theorem track_added (row : UserRow) : (ctx.track row).added = ctx.added := by
  unfold track
  split <;> rfl

/-- What is tracked after a query of a row. -/
theorem track_tracked (row : UserRow) (id : Nat) :
    (ctx.track row).tracked id =
      if id = row.id then some ((ctx.tracked id).getD { entity := .ofRow row })
      else ctx.tracked id := by
  unfold track
  by_cases hid : id = row.id
  · subst hid
    cases htracked : ctx.tracked row.id <;> simp [htracked]
  · cases htracked : ctx.tracked row.id <;> simp [hid]

theorem Coherent.track (h : ctx.Coherent) {row : UserRow} (hrow : row ∈ ctx.table) :
    (ctx.track row).Coherent := by
  refine ⟨by rw [track_table]; exact h.ids, fun id entry hentry => ?_⟩
  rw [track_tracked] at hentry
  rw [track_table]
  split at hentry
  · rename_i hid
    subst hid
    cases htracked : ctx.tracked row.id with
    | some old =>
      rw [htracked, Option.getD_some, Option.some.injEq] at hentry
      exact ⟨row, hrow, rfl, hentry ▸ h.mirrors hrow htracked⟩
    | none =>
      rw [htracked, Option.getD_none, Option.some.injEq] at hentry
      exact ⟨row, hrow, rfl, hentry ▸ .ofRow row⟩
  · exact h.tracked id entry hentry

/-- What tracking keeps between two contexts, a query keeps. -/
theorem single_rel {R : HStarContext → HStarContext → Prop} {c c' : HStarContext} (h : R c c')
    (hrows : ∀ userId, c.rowsOf userId = c'.rowsOf userId)
    (htrack : ∀ c c' row, R c c' → row ∈ c'.table → R (c.track row) (c'.track row))
    (queryOk : Bool) (userId : Bytes) :
    R (c.single queryOk userId).1 (c'.single queryOk userId).1 := by
  have hfold : ∀ (rows : List UserRow) (c c' : HStarContext), R c c' →
      (∀ row ∈ rows, row ∈ c'.table) → R (rows.foldl track c) (rows.foldl track c') := by
    intro rows
    -- tracking changes no row, so the rows to come are still in the table
    induction rows with
    | nil => exact fun _ _ h _ => h
    | cons row rows ih =>
      intro c c' h hmem
      obtain ⟨hrow, hrest⟩ := List.forall_mem_cons.mp hmem
      exact ih _ _ (htrack c c' row h hrow) (by simpa using hrest)
  unfold single
  split
  · rw [hrows]
    exact hfold _ _ _ h fun row hrow => (mem_rowsOf hrow).1
  · exact h

/-- What tracking keeps, a query keeps. -/
theorem single_invariant {P : HStarContext → Prop} (h : P ctx)
    (htrack : ∀ ctx row, P ctx → row ∈ ctx.table → P (ctx.track row)) (queryOk : Bool)
    (userId : Bytes) : P (ctx.single queryOk userId).1 :=
  (single_rel (R := fun c c' => c = c' ∧ P c) ⟨rfl, h⟩ (fun _ => rfl)
    (by
      rintro c _ row ⟨rfl, h⟩ hrow
      exact ⟨rfl, htrack c row h hrow⟩) queryOk userId).2

@[simp] theorem single_table (queryOk : Bool) (userId : Bytes) :
    (ctx.single queryOk userId).1.table = ctx.table :=
  single_invariant (P := fun c => c.table = ctx.table) rfl
    (fun c row h _ => (c.track_table row).trans h) queryOk userId

theorem Coherent.single (h : ctx.Coherent) (queryOk : Bool) (userId : Bytes) :
    (ctx.single queryOk userId).1.Coherent :=
  single_invariant h (fun _ _ h hrow => h.track hrow) queryOk userId

/-! ## Pending changes -/

theorem Coherent.add (h : ctx.Coherent) (e : UserEntity) : (ctx.add e).Coherent :=
  ⟨h.ids, h.tracked⟩

/-- Assignments that leave the key and the user id alone. -/
theorem Coherent.update (h : ctx.Coherent) (id : Nat) {assign : UserEntity → UserEntity}
    (hid : ∀ e, (assign e).id = e.id) (huserId : ∀ e, (assign e).userId = e.userId) :
    (ctx.update id assign).Coherent := by
  refine ⟨h.ids, fun id' entry hentry => ?_⟩
  simp only [HStarContext.update] at hentry ⊢
  by_cases heq : id' = id
  · subst heq
    rw [Function.update_self, Option.map_eq_some_iff] at hentry
    obtain ⟨old, hold, rfl⟩ := hentry
    obtain ⟨row, hrow, hrowId, hmirrors⟩ := h.tracked _ _ hold
    exact ⟨row, hrow, hrowId, (hid _).trans hmirrors.id, (huserId _).trans hmirrors.userId,
      fun hsaved => by cases hsaved⟩
  · rw [Function.update_of_ne heq] at hentry
    exact h.tracked _ _ hentry

/-! ## Saves -/

/-- A save throws and leaves everything as it is, or it writes every row. -/
theorem saveChanges_cases (ctx : HStarContext) (w : SaveWorld) :
    ctx.saveChanges w = (ctx, false) ∨
    ∃ (rowAfter : UserRow → UserRow) (new : List UserRow), w.saveOk = true ∧
      (∀ row ∈ ctx.table, ctx.savedRow row = some (rowAfter row)) ∧
      ctx.newRows w.gap = some new ∧
      ctx.saveChanges w = (ctx.accept (ctx.table.map rowAfter) new, true) := by
  unfold saveChanges
  split
  · rename_i rows new hrows hnew
    split
    · rename_i hok
      obtain ⟨rowAfter, hrow, rfl⟩ := exists_map_of_mapM hrows
      exact Or.inr ⟨rowAfter, new, hok, hrow, hnew, rfl⟩
    · exact Or.inl rfl
  · exact Or.inl rfl

/-- A row keeps its key, and its tracked entity becomes what was written. -/
theorem Coherent.savedRow (h : ctx.Coherent) {row row' : UserRow} (hrow : row ∈ ctx.table)
    (hsaved : ctx.savedRow row = some row') :
    row'.id = row.id ∧ row'.userId = row.userId ∧
      ∀ entry, ctx.tracked row.id = some entry → entry.entity = .ofRow row' := by
  unfold HStarContext.savedRow at hsaved
  cases hentry : ctx.tracked row.id with
  | none => simp_all
  | some entry =>
    have hmirrors := h.mirrors hrow hentry
    simp only [hentry] at hsaved
    split at hsaved
    · -- pending: the row is written from the entity, which has its key
      have hentity := UserEntity.toRow?_eq_some_iff.mp hsaved
      refine ⟨?_, ?_, ?_⟩
      · rw [← hmirrors.id, hentity, UserEntity.ofRow_id]
      · have huserId := hmirrors.userId
        rw [hentity, UserEntity.ofRow_userId, Option.some.injEq] at huserId
        exact huserId
      · rintro _ ⟨⟩
        exact hentity
    · rename_i hmodified
      obtain rfl := Option.some.inj hsaved
      refine ⟨rfl, rfl, ?_⟩
      rintro _ ⟨⟩
      exact hmirrors.saved (by simpa using hmodified)

theorem le_foldr_max {l : List Nat} {n : Nat} (h : n ∈ l) : n ≤ l.foldr max 0 := by
  induction l with
  | nil => cases h
  | cons m l ih =>
    rw [List.foldr_cons]
    rcases List.mem_cons.mp h with rfl | h
    · exact Nat.le_max_left _ _
    · exact (ih h).trans (Nat.le_max_right _ _)

theorem id_lt_nextId {row : UserRow} (h : row ∈ ctx.table) (gap : Nat) :
    row.id < ctx.nextId gap := by
  have := le_foldr_max (List.mem_map_of_mem (f := fun row : UserRow => row.id) h)
  unfold nextId
  omega

/-- The keys of the new rows are those that the database assigns. -/
theorem newRows_ids {gap : Nat} {new : List UserRow} (h : ctx.newRows gap = some new) :
    new.map (·.id) = List.range' (ctx.nextId gap) ctx.added.length := by
  obtain ⟨g, hg, rfl⟩ := exists_map_of_mapM h
  rw [List.map_map]
  have hids : ∀ p ∈ ctx.added.zipIdx, ((·.id) ∘ g) p = ctx.nextId gap + p.2 := fun p hp => by
    have hentity := UserEntity.toRow?_eq_some_iff.mp (hg p hp)
    exact (congrArg UserEntity.id hentity).symm
  have hmap : ctx.added.zipIdx.map (fun p => ctx.nextId gap + p.2) =
      (ctx.added.zipIdx.map Prod.snd).map (ctx.nextId gap + ·) := by rw [List.map_map]; rfl
  rw [List.map_congr_left hids, hmap, List.zipIdx_map_snd, List.map_add_range']
  rfl

theorem Coherent.saveChanges (h : ctx.Coherent) (w : SaveWorld) :
    (ctx.saveChanges w).1.Coherent := by
  rcases saveChanges_cases ctx w with hfail | ⟨rowAfter, new, -, hrow, hnew, hsave⟩
  · rw [hfail]
    exact h
  rw [hsave]
  have hkept : (ctx.table.map rowAfter).map (·.id) = ctx.table.map (·.id) := by
    rw [List.map_map]
    exact List.map_congr_left fun row hmem => (h.savedRow hmem (hrow row hmem)).1
  constructor
  · show ((ctx.table.map rowAfter ++ new).map (·.id)).Nodup
    rw [List.map_append, hkept, newRows_ids hnew, List.nodup_append]
    -- the new keys are consecutive, and greater than all that are there
    refine ⟨h.ids, List.nodup_range', fun id hid id' hid' heq => ?_⟩
    obtain ⟨row, hmem, rfl⟩ := List.mem_map.mp hid
    have := id_lt_nextId hmem w.gap
    rw [List.mem_range'_1] at hid'
    omega
  · intro id entry hentry
    simp only [accept] at hentry ⊢
    split at hentry
    · -- tracked before: its row was saved, or was as it is
      rename_i old hold
      obtain rfl := Option.some.inj hentry
      obtain ⟨row, hmem, rfl, -⟩ := h.tracked _ _ hold
      obtain ⟨hid, -, hentity⟩ := h.savedRow hmem (hrow row hmem)
      have hentity := hentity old hold
      exact ⟨rowAfter row, List.mem_append_left _ (List.mem_map_of_mem hmem), hid,
        by rw [hentity]; rfl, by rw [hentity]; rfl, fun _ => hentity⟩
    · -- added
      obtain ⟨row, hfind, rfl⟩ := Option.map_eq_some_iff.mp hentry
      exact ⟨row, List.mem_append_right _ (List.mem_of_find?_eq_some hfind),
        by simpa using List.find?_some hfind, .ofRow row⟩

/-! ## The entity of a row -/

/-- The entity that a tracking query returns for a row. -/
def entityOf (ctx : HStarContext) (row : UserRow) : UserEntity :=
  ((ctx.tracked row.id).map (·.entity)).getD (.ofRow row)

theorem track_entityOf (h : ctx.Coherent) {row row' : UserRow} (hrow : row ∈ ctx.table)
    (hrow' : row' ∈ ctx.table) : (ctx.track row').entityOf row = ctx.entityOf row := by
  unfold entityOf
  rw [track_tracked]
  split
  · rename_i hid
    obtain rfl := h.eq_of_id hrow hrow' hid
    cases ctx.tracked row.id <;> rfl
  · rfl

/-- What a tracking query returns for a row that it has read. -/
theorem track_tracked_self (row : UserRow) :
    ∃ modified, (ctx.track row).tracked row.id = some ⟨ctx.entityOf row, modified⟩ := by
  rw [track_tracked, if_pos rfl, entityOf]
  cases ctx.tracked row.id with
  | none => exact ⟨false, rfl⟩
  | some entry => exact ⟨entry.modified, rfl⟩

/-- The tracked entities after the staging of an assignment. -/
theorem staged_tracked (row : UserRow) (assign : UserEntity → UserEntity) (id : Nat) :
    ((ctx.track row).update row.id assign).tracked id =
      if id = row.id then some ⟨assign (ctx.entityOf row), true⟩ else ctx.tracked id := by
  obtain ⟨modified, hself⟩ := ctx.track_tracked_self row
  simp only [HStarContext.update, hself, Option.map_some]
  by_cases hid : id = row.id
  · subst hid
    rw [Function.update_self, if_pos rfl]
  · rw [Function.update_of_ne hid, if_neg hid, track_tracked, if_neg hid]

/-- There is no other row with that user id. -/
theorem eq_of_rowsOf {userId : Bytes} {row row' : UserRow} (h : ctx.rowsOf userId = [row])
    (hrow' : row' ∈ ctx.table) (huserId : row'.userId = userId) : row' = row := by
  have hmem : row' ∈ ctx.table.filter fun row => row.userId == userId := by
    simp [hrow', huserId]
  unfold rowsOf at h
  match hrows : ctx.table.filter fun row => row.userId == userId with
  | [] => simp [hrows] at h
  | [found] =>
    rw [hrows, List.mem_singleton] at hmem
    rw [hrows] at h
    exact hmem.trans (List.singleton_inj.mp h)
  | _ :: _ :: _ => simp [hrows] at h

/-- The query finds a row exactly when no other one has its user id. -/
theorem Coherent.rowsOf_eq_iff (hc : ctx.Coherent) {row : UserRow} (hrow : row ∈ ctx.table) :
    ctx.rowsOf row.userId = [row] ↔ ∀ row' ∈ ctx.table, row'.userId = row.userId → row' = row := by
  refine ⟨fun h row' hrow' huserId => eq_of_rowsOf h hrow' huserId, fun hunique => ?_⟩
  have hnodup : (ctx.table.filter fun row' => row'.userId == row.userId).Nodup :=
    (List.Nodup.of_map _ hc.ids).filter _
  have hfound : ∀ row', row' ∈ ctx.table.filter (fun row' => row'.userId == row.userId) ↔
      row' = row := by
    intro row'
    rw [List.mem_filter, beq_iff_eq]
    refine ⟨fun h => hunique row' h.1 h.2, ?_⟩
    rintro rfl
    exact ⟨hrow, rfl⟩
  have hrows : ctx.table.filter (fun row' => row'.userId == row.userId) = [row] := by
    refine ((List.perm_ext_iff_of_nodup hnodup (List.nodup_singleton row)).mpr ?_).eq_singleton
    simpa only [List.mem_singleton] using hfound
  rw [rowsOf, hrows]
  rfl

theorem Coherent.entityOf_key (hc : ctx.Coherent) {row : UserRow} (hrow : row ∈ ctx.table) :
    (ctx.entityOf row).id = row.id ∧ (ctx.entityOf row).userId = some row.userId := by
  unfold entityOf
  cases hentry : ctx.tracked row.id with
  | none => exact ⟨rfl, rfl⟩
  | some entry =>
    have hmirrors := hc.mirrors hrow hentry
    exact ⟨hmirrors.id, hmirrors.userId⟩

/-- A row with nothing pending stays as it is. -/
theorem savedRow_eq_self {row : UserRow}
    (h : ∀ entry, ctx.tracked row.id = some entry → entry.modified = false) :
    ctx.savedRow row = some row := by
  unfold HStarContext.savedRow
  cases hentry : ctx.tracked row.id with
  | none => rfl
  | some entry =>
    show (if entry.modified = true then entry.entity.toRow? else some row) = some row
    rw [h entry hentry, if_neg Bool.false_ne_true]

/-- What the staging of an assignment makes of the rows. -/
theorem Coherent.staged_savedRow (hc : ctx.Coherent) {row x : UserRow} (hrow : row ∈ ctx.table)
    (hx : x ∈ ctx.table) (assign : UserEntity → UserEntity) :
    ((ctx.track row).update row.id assign).savedRow x =
      if x = row then (assign (ctx.entityOf row)).toRow? else ctx.savedRow x := by
  rw [HStarContext.savedRow, staged_tracked]
  by_cases hxrow : x = row
  · subst hxrow
    rw [if_pos rfl, if_pos rfl]
    rfl
  · have hid : x.id ≠ row.id := fun hid => hxrow (hc.eq_of_id hx hrow hid)
    rw [if_neg hid, if_neg hxrow]
    rfl

/-- The database accepts a save, and no pending entity lacks a required value. -/
def Savable (ctx : HStarContext) (w : SaveWorld) : Prop :=
  w.saveOk = true ∧ (∀ row ∈ ctx.table, ctx.savedRow row ≠ none) ∧
    ∀ e ∈ ctx.added, e.toRow? ≠ none

instance (ctx : HStarContext) (w : SaveWorld) : Decidable (ctx.Savable w) :=
  inferInstanceAs (Decidable (_ ∧ _))

/-- **When a save returns.** -/
theorem saveChanges_true_iff {w : SaveWorld} :
    (ctx.saveChanges w).2 = true ↔ ctx.Savable w := by
  have hadded : ctx.newRows w.gap ≠ none ↔ ∀ e ∈ ctx.added, e.toRow? ≠ none := by
    rw [newRows, mapM_ne_none_iff]
    conv_rhs => rw [← List.zipIdx_map_fst 0 ctx.added, List.forall_mem_map]
    exact forall₂_congr fun p _ => UserEntity.toRow?_withId_ne_none_iff p.1 _
  rw [Savable, ← mapM_ne_none_iff, ← hadded, saveChanges]
  cases ctx.table.mapM ctx.savedRow <;> cases ctx.newRows w.gap <;> cases w.saveOk <;> simp

/-- A save that throws leaves the context as it is. -/
theorem saveChanges_eq_of_throws {w : SaveWorld} (h : (ctx.saveChanges w).2 = false) :
    ctx.saveChanges w = (ctx, false) := by
  rcases saveChanges_cases ctx w with hfail | ⟨_, _, -, -, -, hsave⟩
  · exact hfail
  · simp [hsave] at h

/-- A save throws when the database refuses it or some row cannot be written. -/
theorem saveChanges_throws {w : SaveWorld}
    (h : w.saveOk = false ∨ ∃ row ∈ ctx.table, ctx.savedRow row = none) :
    ctx.saveChanges w = (ctx, false) := by
  rcases saveChanges_cases ctx w with hfail | ⟨rowAfter, new, hok, hrows, -, -⟩
  · exact hfail
  · rcases h with hrefused | ⟨row, hrow, hnone⟩
    · simp [hrefused] at hok
    · simp [hrows row hrow] at hnone

end HStarContext

end BoostChat.Api
