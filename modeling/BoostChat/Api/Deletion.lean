import BoostChat.Api.Requests

/-!
# Deleted accounts

A deletion sets `is_alive` to "N" and leaves everything else as it is.

* `InFlight` — an invariant of every run: what waits to be written carries the key and the
  user id of its row;
* `Dead` — the row of the account is deleted, and nothing pending would change that;
* `dead_of_deletes` — a deletion that succeeds makes it so;
* `dead_step` — it stays so until an update that was validated before the deletion reaches
  its save;
* `HStarContext.Dead.refuses` — a request that begins later does not validate.
-/

namespace BoostChat.Api

open HStarContext UserRepository

/-! ## Rows stay -/

/-- Every row of `ctx` is in `ctx'`, under the same key and user id. -/
def HStarContext.KeepsRows (ctx ctx' : HStarContext) : Prop :=
  ∀ row ∈ ctx.table, ∃ row' ∈ ctx'.table, row'.id = row.id ∧ row'.userId = row.userId

theorem HStarContext.KeepsRows.of_eq {ctx ctx' : HStarContext} (h : ctx'.table = ctx.table) :
    ctx.KeepsRows ctx' :=
  fun row hrow => ⟨row, h ▸ hrow, rfl, rfl⟩

theorem HStarContext.Coherent.keepsRows_saveChanges {ctx : HStarContext} (h : ctx.Coherent)
    (w : SaveWorld) : ctx.KeepsRows (ctx.saveChanges w).1 := by
  rcases saveChanges_cases ctx w with hfail | ⟨rowAfter, new, -, hrows, -, hsave⟩
  · rw [hfail]
    exact .of_eq rfl
  · rw [hsave]
    intro row hrow
    obtain ⟨hid, huserId, -⟩ := h.savedRow hrow (hrows row hrow)
    exact ⟨rowAfter row, List.mem_append_left _ (List.mem_map_of_mem hrow), hid, huserId⟩

theorem keepsRows_proceed (w : World) {api : ApiServer} (h : api.context.Coherent) (task : Task) :
    api.context.KeepsRows (proceed w api task).1.context := by
  cases hsave : task.toSave w api.context with
  | some ctx =>
    rw [proceed_of_toSave hsave]
    intro row hrow
    rw [← Task.toSave_table hsave] at hrow
    exact (Task.toSave_coherent h hsave).keepsRows_saveChanges _ row hrow
  | none =>
    rcases proceed_of_toSave_none hsave with heq | ⟨userId, heq⟩ <;> rw [heq]
    · exact .of_eq rfl
    · exact .of_eq (single_table _ _)

/-! ## What waits -/

/-- A write carries the key and the user id of a row; a deletion carries "N". -/
def Task.Keyed (table : List UserRow) : Task → Prop
  | .update userInfo => ∃ row ∈ table, row.id = userInfo.id ∧ row.userId = userInfo.userId
  | .delete userInfo => userInfo.isAlive = some (ascii "N") ∧
      ∃ row ∈ table, row.id = userInfo.id ∧ row.userId = userInfo.userId
  | .insert .. | .getAccount .. | .transact .. => True

structure InFlight (s : Sys) : Prop where
  coherent : s.api.context.Coherent
  keyed : ∀ x ∈ s.waiting, x.task.Keyed s.api.context.table

/-- An update or a login of the account. -/
def Task.Concerns (id : Nat) : Task → Prop
  | .update userInfo => userInfo.id = id
  | .getAccount _ accountId | .transact _ accountId _ => accountId = id
  | .insert .. | .delete _ => False

/-- The row is deleted, and so is what is tracked for it. -/
structure HStarContext.Dead (id : Nat) (ctx : HStarContext) : Prop where
  row : ∃ row ∈ ctx.table, row.id = id ∧ row.isAlive = ascii "N"
  tracked : ∀ entry, ctx.tracked id = some entry → entry.entity.isAlive = some (ascii "N")

/-! ## Contexts -/

namespace HStarContext

variable {ctx : HStarContext} {id : Nat}

theorem Dead.isAlive (h : ctx.Dead id) (hc : ctx.Coherent) {row : UserRow} (hrow : row ∈ ctx.table)
    (hid : row.id = id) : row.isAlive = ascii "N" := by
  obtain ⟨dead, hdead, hdeadId, halive⟩ := h.row
  rwa [hc.eq_of_id hrow hdead (hid.trans hdeadId.symm)]

theorem Dead.track (h : ctx.Dead id) (hc : ctx.Coherent) {row : UserRow} (hrow : row ∈ ctx.table) :
    (ctx.track row).Dead id := by
  refine ⟨by simpa using h.row, fun entry hentry => ?_⟩
  rw [track_tracked] at hentry
  split at hentry
  · rename_i hid
    obtain rfl := Option.some.inj hentry
    cases htracked : ctx.tracked id with
    | some old => exact h.tracked old htracked
    | none => exact congrArg some (h.isAlive hc hrow hid.symm)
  · exact h.tracked entry hentry

theorem Dead.single (h : ctx.Dead id) (hc : ctx.Coherent) (queryOk : Bool) (userId : Bytes) :
    (ctx.single queryOk userId).1.Dead id :=
  (single_invariant (P := fun ctx => ctx.Dead id ∧ ctx.Coherent) ⟨h, hc⟩
    (fun _ _ h hrow => ⟨h.1.track h.2 hrow, h.2.track hrow⟩) queryOk userId).1

/-- An assignment to another account, or one that deletes. -/
theorem Dead.staged (h : ctx.Dead id) {row : UserRow} {assign : UserEntity → UserEntity}
    (hassign : row.id = id → ∀ e, (assign e).isAlive = some (ascii "N")) :
    ((ctx.track row).update row.id assign).Dead id := by
  refine ⟨by simpa [HStarContext.update] using h.row, fun entry hentry => ?_⟩
  rw [staged_tracked] at hentry
  split at hentry
  · rename_i hid
    obtain rfl := Option.some.inj hentry
    exact hassign hid.symm _
  · exact h.tracked entry hentry

/-- A save writes what is tracked for a row, which is deleted, or leaves the row alone. -/
theorem Dead.saveChanges (h : ctx.Dead id) (hc : ctx.Coherent) (w : SaveWorld) :
    (ctx.saveChanges w).1.Dead id := by
  rcases saveChanges_cases ctx w with hfail | ⟨rowAfter, new, -, hrows, hnew, hsave⟩
  · rw [hfail]
    exact h
  rw [hsave]
  obtain ⟨row, hrow, rfl, halive⟩ := h.row
  obtain ⟨hid, -, -⟩ := hc.savedRow hrow (hrows row hrow)
  constructor
  · -- the row is written from a dead entity, or stays as it is
    refine ⟨rowAfter row, List.mem_append_left _ (List.mem_map_of_mem hrow), hid, ?_⟩
    have hsaved := hrows row hrow
    unfold savedRow at hsaved
    cases hentry : ctx.tracked row.id with
    | none =>
      simp only [hentry, Option.some.injEq] at hsaved
      rw [← hsaved, halive]
    | some entry =>
      simp only [hentry] at hsaved
      split at hsaved
      · have hdead := h.tracked entry hentry
        rw [UserEntity.toRow?_eq_some_iff.mp hsaved] at hdead
        exact Option.some.inj hdead
      · rw [← Option.some.inj hsaved, halive]
  · intro entry hentry
    simp only [accept] at hentry
    split at hentry
    · rename_i old hold
      obtain rfl := Option.some.inj hentry
      exact h.tracked old hold
    · -- a new row has a new key
      obtain ⟨found, hfind, -⟩ := Option.map_eq_some_iff.mp hentry
      have hmem := List.mem_map_of_mem (f := fun row : UserRow => row.id)
        (List.mem_of_find?_eq_some hfind)
      rw [newRows_ids hnew, List.mem_range'_1] at hmem
      have hfound : found.id = row.id := by simpa using List.find?_some hfind
      have := id_lt_nextId hrow w.gap
      omega

end HStarContext

/-! ## Steps -/

variable {pbkdf2 : Pbkdf2} {s t : Sys} {a : Action} {id : Nat}

theorem Task.toSave_dead {w : World} {ctx ctx' : HStarContext} {task : Task} (h : ctx.Dead id)
    (hkeyed : task.Keyed ctx.table) (hno : ∀ userInfo, task = .update userInfo → userInfo.id ≠ id)
    (hsave : task.toSave w ctx = some ctx') : ctx'.Dead id := by
  rcases Task.toSave_cases hsave with
    ⟨-, userDto, -, rfl⟩ | ⟨assign, userInfo, row, hwrites, hfound, rfl⟩
  · exact ⟨h.row, h.tracked⟩
  · refine h.staged fun hid => ?_
    cases hwrites with
    | update =>
      -- the update is keyed to the row that it has found
      obtain ⟨keyed, hkeyed, hkey, huserId⟩ := hkeyed
      obtain rfl := eq_of_rowsOf hfound.2 hkeyed huserId
      exact absurd (hkey.symm.trans hid) (hno userInfo rfl)
    | delete => exact fun _ => hkeyed.1

theorem dead_proceed {w : World} {api : ApiServer} {task : Task} (h : api.context.Dead id)
    (hc : api.context.Coherent) (hkeyed : task.Keyed api.context.table)
    (hno : ∀ userInfo, task = .update userInfo → (task.toSave w api.context).isSome →
      userInfo.id ≠ id) : (proceed w api task).1.context.Dead id := by
  cases hsave : task.toSave w api.context with
  | some ctx =>
    rw [proceed_of_toSave hsave]
    have hdead := Task.toSave_dead h hkeyed
      (fun userInfo htask => hno userInfo htask (by simp [hsave])) hsave
    exact hdead.saveChanges (Task.toSave_coherent hc hsave) _
  | none =>
    rcases proceed_of_toSave_none hsave with heq | ⟨userId, heq⟩ <;> rw [heq]
    · exact h
    · exact h.single hc _ _

/-- A request that has just begun carries the data of a row that is alive. -/
theorem begin_more {w : World} {api : ApiServer} {request : Request} {task : Task}
    (h : (begin pbkdf2 w api request).2 = .more task) :
    task.Keyed api.context.table ∧ ∀ id, task.Concerns id →
      ∃ row ∈ api.context.table, row.id = id ∧ row.isAlive ≠ ascii "N" := by
  cases request with
  | create request =>
    obtain ⟨-, rfl, -⟩ := begin_create_more h
    exact ⟨trivial, fun _ hconcerns => absurd hconcerns fun h => h⟩
  | update q =>
    obtain ⟨row, hrow, rfl⟩ := validated_eq_more_iff.mp h
    exact ⟨⟨row, hrow.mem.1, rfl, rfl⟩, fun id hid => ⟨row, hrow.mem.1, hid, hrow.alive⟩⟩
  | delete q =>
    obtain ⟨row, hrow, rfl⟩ := validated_eq_more_iff.mp h
    exact ⟨⟨rfl, row, hrow.mem.1, rfl, rfl⟩, fun _ hconcerns => absurd hconcerns fun h => h⟩
  | login q =>
    obtain ⟨row, hrow, rfl⟩ := validated_eq_more_iff.mp h
    exact ⟨trivial, fun id hid => ⟨row, hrow.mem.1, hid, hrow.alive⟩⟩
  | getUser => cases h

/-- What a request waits for after that is no write. -/
theorem proceed_more_keyed {w : World} {api : ApiServer} {task task' : Task}
    (h : (proceed w api task).2 = .more task') (table : List UserRow) : task'.Keyed table := by
  cases task with
  | getAccount =>
    simp only [proceed] at h
    split at h
    · obtain rfl := Progress.more.inj h
      trivial
    · cases h
  | _ => cases h

theorem Task.Keyed.mono {ctx ctx' : HStarContext} (hkeeps : ctx.KeepsRows ctx') {task : Task}
    (h : task.Keyed ctx.table) : task.Keyed ctx'.table := by
  have hrow : ∀ {userInfo : UserDto},
      (∃ row ∈ ctx.table, row.id = userInfo.id ∧ row.userId = userInfo.userId) →
      ∃ row ∈ ctx'.table, row.id = userInfo.id ∧ row.userId = userInfo.userId := by
    rintro userInfo ⟨row, hrow, hid, huserId⟩
    obtain ⟨row', hrow', hid', huserId'⟩ := hkeeps row hrow
    exact ⟨row', hrow', hid'.trans hid, huserId'.trans huserId⟩
  cases task with
  | update => exact hrow h
  | delete => exact ⟨h.1, hrow h.2⟩
  | _ => trivial

theorem inFlight_step (h : InFlight s) (hstep : step pbkdf2 s a = some t) : InFlight t := by
  refine ⟨coherent_step h.coherent hstep, ?_⟩
  rcases step_cases hstep with ⟨w, request, -, rfl⟩ | ⟨k, x, -, -, hx, rfl⟩
  · intro x hx
    rw [Sys.place_api, begin_table]
    rcases Sys.mem_place hx with hx | hmore
    · exact h.keyed x hx
    · exact (begin_more hmore).1
  · intro y hy
    rw [Sys.place_api]
    rcases Sys.mem_place hy with hy | hmore
    · exact (h.keyed y (List.mem_of_mem_eraseIdx hy)).mono (keepsRows_proceed _ h.coherent _)
    · exact proceed_more_keyed hmore _

/-- **Step lemma.** A deleted account stays deleted, unless an update of it is saved. -/
theorem dead_step (h : s.api.context.Dead id) (hflight : InFlight s) (hno : s.updates a ≠ some id)
    (hstep : step pbkdf2 s a = some t) : t.api.context.Dead id := by
  rcases step_cases hstep with ⟨w, request, -, rfl⟩ | ⟨k, ⟨w, request, task⟩, rfl, hk, hx, rfl⟩
  · rw [Sys.place_api]
    cases request with
    | create request =>
      rw [begin_create_fst]
      exact h.single hflight.coherent _ _
    | _ => exact h
  · rw [Sys.place_api]
    refine dead_proceed h hflight.coherent (hflight.keyed _ hx) ?_
    rintro userInfo rfl hsome rfl
    exact hno (by simp [Sys.updates, hk, hsome])

/-- **A dead account validates no more.** What begins is no update or login of it. -/
theorem HStarContext.Dead.refuses {w : World} {api : ApiServer} {request : Request} {task : Task}
    (h : api.context.Dead id) (hc : api.context.Coherent)
    (hmore : (begin pbkdf2 w api request).2 = .more task) : ¬ task.Concerns id := by
  intro hconcerns
  obtain ⟨row, hrow, hid, halive⟩ := (begin_more hmore).2 id hconcerns
  exact halive (h.isAlive hc hrow hid)

/-! ## Deletions -/

/-- A write that succeeds has found its row and saved it. -/
theorem change_success {w : World} {ctx : HStarContext} {userInfo : UserDto}
    {assign : UserDto → UserEntity → UserEntity}
    (h : (change assign w ctx userInfo).2 = .success) :
    ∃ row rowAfter rows new, Finds w ctx userInfo.userId row ∧
      ((ctx.track row).update row.id (assign userInfo)).savedRow row = some rowAfter ∧
      (change assign w ctx userInfo).1 =
        ((ctx.track row).update row.id (assign userInfo)).accept rows new ∧
      rowAfter ∈ rows := by
  by_cases hfound : ∃ row, Finds w ctx userInfo.userId row
  · obtain ⟨row, hfound⟩ := hfound
    rw [change, stage_of_finds assign hfound] at h ⊢
    simp only [save_eq] at h ⊢
    rcases saveChanges_cases ((ctx.track row).update row.id (assign userInfo)) w.toSaveWorld with
      hfail | ⟨rowAfter, new, -, hrows, -, hsave⟩
    · simp [hfail, saveStatus] at h
    · have hrow : row ∈ ((ctx.track row).update row.id (assign userInfo)).table := by
        simpa [HStarContext.update] using hfound.mem.1
      exact ⟨row, rowAfter row, _, new, hfound, hrows row hrow, congrArg Prod.fst hsave,
        List.mem_map_of_mem hrow⟩
  · rw [change_of_not_finds assign (not_exists.mp hfound)] at h
    cases h

/-- **A deletion that succeeds** leaves the account dead. -/
theorem dead_of_deletes (hflight : InFlight s) (hstep : step pbkdf2 s a = some t)
    (hdeletes : s.deletes a = some id) : t.api.context.Dead id := by
  rcases step_cases hstep with ⟨w, request, rfl, -⟩ | ⟨k, ⟨w, request, task⟩, rfl, hk, hx, rfl⟩
  · cases hdeletes
  cases task with
  | delete userInfo =>
    simp only [Sys.deletes, hk] at hdeletes
    rw [Option.ite_none_right_eq_some, Option.some.injEq] at hdeletes
    obtain ⟨hsuccess, rfl⟩ := hdeletes
    -- the deletion has found the row that it is keyed to
    obtain ⟨hdead, keyed, hkeyed, hid, huserId⟩ := hflight.keyed _ hx
    obtain ⟨row, rowAfter, rows, new, hfound, hsaved, hcontext, hmem⟩ := change_success hsuccess
    obtain rfl := eq_of_rowsOf hfound.2 hkeyed huserId
    have hentity : assignDelete userInfo (s.api.context.entityOf keyed) = .ofRow rowAfter := by
      rw [savedRow, staged_tracked, if_pos rfl] at hsaved
      exact UserEntity.toRow?_eq_some_iff.mp hsaved
    -- what was written has the key of the row and the flag of the deletion
    have hafterId : rowAfter.id = keyed.id :=
      (congrArg UserEntity.id hentity).symm.trans (hflight.coherent.entityOf_key hkeyed).1
    have halive : rowAfter.isAlive = ascii "N" :=
      Option.some.inj ((congrArg UserEntity.isAlive hentity).symm.trans hdead)
    rw [Sys.place_api]
    show (change assignDelete w s.api.context userInfo).1.Dead userInfo.id
    rw [hcontext]
    refine ⟨⟨rowAfter, List.mem_append_left _ hmem, hafterId.trans hid, halive⟩,
      fun entry hentry => ?_⟩
    simp only [accept, staged_tracked, ← hid, if_true] at hentry
    obtain rfl := Option.some.inj hentry
    exact hdead
  | _ => simp [Sys.deletes, hk] at hdeletes

end BoostChat.Api
