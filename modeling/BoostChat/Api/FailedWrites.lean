import BoostChat.Api.Requests

/-!
# What a failed write leaves behind

A request whose `SaveChangesAsync` throws leaves its entity pending in the context that
all requests share, and whichever save comes next writes it, or throws because of it.
Two runs are compared: the requests that follow a failed write, with it and without it.

* `failed_write_leaves_no_trace` — nothing of the failed write is ever seen, provided
  that every later request that reaches `SaveChangesAsync` fails there for a reason of
  its own, until one overwrites what was left pending (`Harmless`);
* `annForgetsPassword_blocks_bob` — an update that does not set the password fails, and
  after it the creation of another account fails as well.
-/

namespace BoostChat.Api

open HStarContext UserRepository

variable (pbkdf2 : Pbkdf2)

/-- The request reaches `SaveChangesAsync`, which throws. -/
def SaveThrows (w : World) (api : ApiServer) (request : Request) : Prop :=
  ∃ ctx, reachesSave pbkdf2 w api request = some ctx ∧ (ctx.saveChanges w.toSaveWorld).2 = false

/-- The request changes neither the table, then or later, nor a later answer. -/
def LeavesNoTrace (w : World) (api : ApiServer) (request : Request) (later : List Call) : Prop :=
  (handle pbkdf2 w api request).1.context.table = api.context.table ∧
    trace pbkdf2 (handle pbkdf2 w api request).1 later = trace pbkdf2 api later

/-! ## When the next saves do not see it -/

/-- An entity without the properties that a request assigns. -/
def Request.mask : Request → UserEntity → UserEntity
  | .delete _, e => { e with isAlive := none }
  | _, e => { id := e.id, userId := e.userId, password := none, username := none, email := none,
              isAlive := none }

/-- `later` assigns to all the properties, of the same account, that `failed` assigned to. -/
def Overwrites : (failed later : Request) → Prop
  | .update failed, .update later => later.userId = failed.userId
  | .delete failed, .update later => later.userId = failed.userId
  | .delete failed, .delete later => later.userId = failed.userId
  | _, _ => False

instance (failed later : Request) : Decidable (Overwrites failed later) := by
  unfold Overwrites
  split <;> infer_instance

/-- The save throws whatever the failed request left: the database refuses the transaction,
or a pending entity of another account lacks a required property. -/
def FailsAnyway (failed : Request) (w : World) (ctx : HStarContext) : Prop :=
  w.saveOk = false ∨
    ∃ row ∈ ctx.table, failed.account ≠ some row.userId ∧ ctx.savedRow row = none

instance (failed : Request) (w : World) (ctx : HStarContext) :
    Decidable (FailsAnyway failed w ctx) :=
  inferInstanceAs (Decidable (_ ∨ _))

/-- The later requests, served without the failed one, never save what it left: whoever
reaches `SaveChangesAsync` overwrites it or fails anyway. -/
def Harmless (failed : Request) : ApiServer → List Call → Prop
  | _, [] => True
  | api, (w, request) :: later =>
    (Overwrites failed request ∧ (reachesSave pbkdf2 w api request).isSome = true) ∨
      ((∀ ctx ∈ reachesSave pbkdf2 w api request, FailsAnyway failed w ctx) ∧
        Harmless failed (handle pbkdf2 w api request).1 later)

instance decidableHarmless (failed : Request) :
    ∀ api later, Decidable (Harmless pbkdf2 failed api later)
  | _, [] => .isTrue trivial
  | api, (w, request) :: later =>
    have := decidableHarmless failed (handle pbkdf2 w api request).1 later
    inferInstanceAs (Decidable (_ ∨ _ ∧ _))

/-! ## Contexts that differ in what was left -/

namespace HStarContext

/-- `c` is `c'` with something left pending by `failed`. -/
structure AgreeOff (failed : Request) (c c' : HStarContext) : Prop where
  table : c.table = c'.table
  added : failed.account ≠ none → c.added = c'.added
  tracked : ∀ row ∈ c'.table, failed.account ≠ some row.userId →
    c.tracked row.id = c'.tracked row.id
  masked : ∀ row ∈ c'.table, failed.account = some row.userId →
    failed.mask (c.entityOf row) = failed.mask (c'.entityOf row)

variable {c c' : HStarContext} {failed : Request}

theorem AgreeOff.rowsOf (h : AgreeOff failed c c') (userId : Bytes) :
    c.rowsOf userId = c'.rowsOf userId := by
  rw [HStarContext.rowsOf, HStarContext.rowsOf, h.table]

/-- Queries track the same rows in both. -/
theorem AgreeOff.track (h : AgreeOff failed c c') (hc : c.Coherent) (hc' : c'.Coherent)
    {row : UserRow} (hrow : row ∈ c'.table) : AgreeOff failed (c.track row) (c'.track row) where
  table := by simp [h.table]
  added hne := by simpa using h.added hne
  tracked row' hrow' hne := by
    rw [track_table] at hrow'
    rw [track_tracked, track_tracked, h.tracked row' hrow' hne]
  masked row' hrow' heq := by
    rw [track_table] at hrow'
    rw [track_entityOf hc (h.table ▸ hrow') (h.table ▸ hrow), track_entityOf hc' hrow' hrow]
    exact h.masked row' hrow' heq

theorem AgreeOff.single (h : AgreeOff failed c c') (hc : c.Coherent) (hc' : c'.Coherent)
    (queryOk : Bool) (userId : Bytes) :
    AgreeOff failed (c.single queryOk userId).1 (c'.single queryOk userId).1 := by
  have hrel := single_rel
    (R := fun c c' => AgreeOff failed c c' ∧ c.Coherent ∧ c'.Coherent) ⟨h, hc, hc'⟩ h.rowsOf
    (by
      rintro c c' row ⟨h, hc, hc'⟩ hrow
      exact ⟨h.track hc hc' hrow, hc.track (h.table ▸ hrow), hc'.track hrow⟩) queryOk userId
  exact hrel.1

/-- A later assignment leaves the difference where it was. -/
theorem AgreeOff.staged (h : AgreeOff failed c c') (hc' : c'.Coherent)
    {row : UserRow} (hrow : row ∈ c'.table) {assign : UserEntity → UserEntity}
    (hmask : ∀ e e', failed.mask e = failed.mask e' →
      failed.mask (assign e) = failed.mask (assign e')) :
    AgreeOff failed ((c.track row).update row.id assign) ((c'.track row).update row.id assign) where
  table := by simp [HStarContext.update, h.table]
  added hne := by simpa [HStarContext.update] using h.added hne
  tracked row' hrow' hne := by
    replace hrow' : row' ∈ c'.table := by simpa [HStarContext.update] using hrow'
    rw [staged_tracked, staged_tracked]
    split
    · rename_i hid
      obtain rfl := hc'.eq_of_id hrow' hrow hid
      rw [entityOf, entityOf, h.tracked row' hrow' hne]
    · exact h.tracked row' hrow' hne
  masked row' hrow' heq := by
    replace hrow' : row' ∈ c'.table := by simpa [HStarContext.update] using hrow'
    rw [entityOf, entityOf, staged_tracked, staged_tracked]
    split
    · rename_i hid
      obtain rfl := hc'.eq_of_id hrow' hrow hid
      exact hmask _ _ (h.masked row' hrow' heq)
    · exact h.masked row' hrow' heq

/-- An assignment to all that was left pending removes the difference. -/
theorem AgreeOff.overwritten (h : AgreeOff failed c c') (hc : c.Coherent) (hc' : c'.Coherent)
    {row : UserRow} (hrow : c'.rowsOf row.userId = [row])
    (haccount : failed.account = some row.userId)
    {assign : UserEntity → UserEntity}
    (hmask : ∀ e e', failed.mask e = failed.mask e' → assign e = assign e') :
    (c.track row).update row.id assign = (c'.track row).update row.id assign := by
  have hmem : row ∈ c'.table := (mem_of_rowsOf hrow).1
  have htracked : ((c.track row).update row.id assign).tracked =
      ((c'.track row).update row.id assign).tracked := by
    funext id
    rw [staged_tracked, staged_tracked]
    split
    · rw [hmask _ _ (h.masked row hmem haccount)]
    · rename_i hid
      -- another account's row, or a key without a row, which is not tracked
      by_cases hrow' : ∃ row' ∈ c'.table, row'.id = id
      · obtain ⟨row', hrow', rfl⟩ := hrow'
        refine h.tracked row' hrow' fun heq => hid ?_
        rw [haccount, Option.some.injEq] at heq
        rw [eq_of_rowsOf hrow hrow' heq.symm]
      · have hnone : ∀ ctx : HStarContext, ctx.Coherent → ctx.table = c'.table →
            ctx.tracked id = none := fun ctx hctx htable => by
          refine Option.eq_none_iff_forall_ne_some.mpr fun entry hentry => hrow' ?_
          obtain ⟨row', hrow', hid', -⟩ := hctx.tracked id entry hentry
          exact ⟨row', htable ▸ hrow', hid'⟩
        rw [hnone c hc h.table, hnone c' hc' rfl]
  have hadded : c.added = c'.added := h.added (by simp [haccount])
  unfold HStarContext.update at htracked ⊢
  simp only [HStarContext.mk.injEq]
  exact ⟨by simp [h.table], by simp [hadded], htracked⟩

/-- The difference that an assignment makes. -/
theorem AgreeOff.of_staged (hc : c.Coherent) {row : UserRow} (hrow : c.rowsOf row.userId = [row])
    (haccount : failed.account = some row.userId) {assign : UserEntity → UserEntity}
    (hmask : ∀ e, failed.mask (assign e) = failed.mask e) :
    AgreeOff failed ((c.track row).update row.id assign) c where
  table := by simp [HStarContext.update]
  added _ := by simp [HStarContext.update]
  tracked row' hrow' hne := by
    have hmem : row ∈ c.table := (mem_of_rowsOf hrow).1
    rw [staged_tracked, if_neg]
    intro hid
    rw [hc.eq_of_id hrow' hmem hid] at hne
    exact hne haccount
  masked row' hrow' heq := by
    rw [haccount, Option.some.injEq] at heq
    obtain rfl := eq_of_rowsOf hrow hrow' heq.symm
    rw [entityOf, staged_tracked, if_pos rfl]
    exact hmask _

/-- Then both saves throw. -/
theorem AgreeOff.saveChanges_throws (h : AgreeOff failed c c') {w : World}
    (hfails : FailsAnyway failed w c') :
    c.saveChanges w.toSaveWorld = (c, false) ∧ c'.saveChanges w.toSaveWorld = (c', false) := by
  rcases hfails with hrefused | ⟨row, hrow, hne, hnone⟩
  · exact ⟨HStarContext.saveChanges_throws (Or.inl hrefused),
      HStarContext.saveChanges_throws (Or.inl hrefused)⟩
  · refine ⟨HStarContext.saveChanges_throws (Or.inr ⟨row, h.table ▸ hrow, ?_⟩),
      HStarContext.saveChanges_throws (Or.inr ⟨row, hrow, hnone⟩)⟩
    rwa [savedRow, h.tracked row hrow hne]

end HStarContext

/-! ## Servers that differ in what was left -/

structure Related (failed : Request) (a b : ApiServer) : Prop where
  redis : a.redis = b.redis
  context : AgreeOff failed a.context b.context
  left : a.context.Coherent
  right : b.context.Coherent

variable {pbkdf2} {failed request : Request} {a b : ApiServer} {w : World}

/-- Both assignments keep what two entities agree on. -/
theorem Request.mask_assign (failed : Request) {task : Task}
    {assign : UserDto → UserEntity → UserEntity} {userInfo : UserDto}
    (hwrites : task.Writes assign userInfo) {e e' : UserEntity}
    (h : failed.mask e = failed.mask e') :
    failed.mask (assign userInfo e) = failed.mask (assign userInfo e') := by
  cases hwrites <;> cases failed <;> simp_all [Request.mask, assignUpdate, assignDelete]

/-- The beginning of a request reads the table only. -/
theorem begin_progress_congr (pbkdf2 : Pbkdf2) (w : World)
    (h : a.context.table = b.context.table) (request : Request) :
    (begin pbkdf2 w a request).2 = (begin pbkdf2 w b request).2 := by
  have hquery : ∀ userId, a.context.singleNoTracking w.readOk userId =
      b.context.singleNoTracking w.readOk userId := fun userId => by
    simp only [singleNoTracking, rowsOf, h]
  cases request with
  | create request =>
    simp only [begin, createUserLookup, single, hquery]
    cases b.context.singleNoTracking w.readOk (newUser pbkdf2 w request).userId with
    | none => rfl
    | some found => cases found <;> rfl
  | getUser => simp only [begin, getUserFromUserid, hquery]
  | _ => simp only [begin, validated, validateUserCredentials, hquery]

theorem Related.begin (h : Related failed a b) (pbkdf2 : Pbkdf2) (w : World)
    (request : Request) :
    (begin pbkdf2 w a request).2 = (begin pbkdf2 w b request).2 ∧
      Related failed (begin pbkdf2 w a request).1 (begin pbkdf2 w b request).1 := by
  refine ⟨begin_progress_congr pbkdf2 w h.context.table request, ?_⟩
  cases request with
  | create request =>
    rw [begin_create_fst, begin_create_fst]
    exact ⟨h.redis, h.context.single h.left h.right _ _, h.left.single _ _, h.right.single _ _⟩
  | _ => exact h

theorem Related.finds_iff (h : Related failed a b) {userId : Bytes} {row : UserRow} :
    Finds w a.context userId row ↔ Finds w b.context userId row := by
  rw [Finds, Finds, h.context.rowsOf]

/-- What a waiting request is about to save differs as the contexts do. -/
theorem Related.toSave (h : Related failed a b) (task : Task) :
    (task.toSave w a.context = none ∧ task.toSave w b.context = none ∧
      (proceed w a task).2 = (proceed w b task).2 ∧
      Related failed (proceed w a task).1 (proceed w b task).1) ∨
    ∃ ctx ctx', task.toSave w a.context = some ctx ∧ task.toSave w b.context = some ctx' ∧
      AgreeOff failed ctx ctx' := by
  have hwrite : ∀ {assign userInfo}, task.Writes assign userInfo →
      (task.toSave w a.context = none ∧ task.toSave w b.context = none ∧
        (proceed w a task).2 = (proceed w b task).2 ∧
        Related failed (proceed w a task).1 (proceed w b task).1) ∨
      ∃ ctx ctx', task.toSave w a.context = some ctx ∧ task.toSave w b.context = some ctx' ∧
        AgreeOff failed ctx ctx' := by
    intro assign userInfo hwrites
    -- both contexts have the same rows, so both find the row or neither does
    by_cases hfound : ∃ row, Finds w b.context userInfo.userId row
    · obtain ⟨row, hfound⟩ := hfound
      exact Or.inr ⟨_, _, hwrites.toSave_of_finds (h.finds_iff.mpr hfound),
        hwrites.toSave_of_finds hfound,
        h.context.staged h.right hfound.mem.1 fun _ _ => failed.mask_assign hwrites⟩
    · have hb := not_exists.mp hfound
      have ha := fun row => mt h.finds_iff.mp (hb row)
      have hleft := coherent_proceed w h.left task
      have hright := coherent_proceed w h.right task
      rw [hwrites.proceed_eq, change_of_not_finds assign ha] at hleft ⊢
      rw [hwrites.proceed_eq, change_of_not_finds assign hb] at hright ⊢
      exact Or.inl ⟨hwrites.toSave_of_not_finds ha, hwrites.toSave_of_not_finds hb, rfl, h.redis,
        h.context.single h.left h.right _ _, hleft, hright⟩
  cases task with
  | insert request userDto =>
    refine Or.inr ⟨_, _, rfl, rfl, h.context.table, fun hne => ?_, h.context.tracked,
      h.context.masked⟩
    simp [HStarContext.add, h.context.added hne]
  | update userInfo => exact hwrite (.update userInfo)
  | delete userInfo => exact hwrite (.delete userInfo)
  | getAccount sessionId accountId =>
    refine Or.inl ⟨rfl, rfl, ?_⟩
    simp only [proceed, h.redis]
    split
    · exact ⟨rfl, h⟩
    · exact ⟨rfl, h⟩
  | transact sessionId accountId existing =>
    refine Or.inl ⟨rfl, rfl, ?_⟩
    simp only [proceed, h.redis]
    exact ⟨trivial, rfl, h.context, h.left, h.right⟩

/-- What a request does next is the same when its save fails anyway. -/
theorem Related.next {p q : ApiServer × Progress} (hprogress : p.2 = q.2)
    (h : Related failed p.1 q.1)
    (hfails : ∀ task, q.2 = .more task → ∀ ctx ∈ task.toSave w q.1.context,
      FailsAnyway failed w ctx) :
    (next w p).2 = (next w q).2 ∧ Related failed (next w p).1 (next w q).1 := by
  obtain ⟨a, progress⟩ := p
  obtain ⟨b, _⟩ := q
  obtain rfl : progress = _ := hprogress
  cases progress with
  | done outcome => exact ⟨rfl, h⟩
  | more task =>
    show (proceed w a task).2 = (proceed w b task).2 ∧
      Related failed (proceed w a task).1 (proceed w b task).1
    rcases h.toSave (w := w) task with ⟨-, -, hsame, hrelated⟩ | ⟨ctx, ctx', hsave, hsave', hagree⟩
    · exact ⟨hsame, hrelated⟩
    · obtain ⟨hthrows, hthrows'⟩ := hagree.saveChanges_throws (hfails task rfl ctx' hsave')
      rw [proceed_of_toSave hsave, proceed_of_toSave hsave', hthrows, hthrows']
      exact ⟨rfl, h.redis, hagree, Task.toSave_coherent h.left hsave,
        Task.toSave_coherent h.right hsave'⟩

theorem Related.handle (h : Related failed a b)
    (hfails : ∀ ctx ∈ reachesSave pbkdf2 w b request, FailsAnyway failed w ctx) :
    (handle pbkdf2 w a request).2 = (handle pbkdf2 w b request).2 ∧
      Related failed (handle pbkdf2 w a request).1 (handle pbkdf2 w b request).1 := by
  obtain ⟨hprogress, hbegin⟩ := h.begin pbkdf2 w request
  obtain ⟨hprogress', hnext⟩ := Related.next (w := w) hprogress hbegin fun task hmore ctx hctx =>
    hfails ctx (by rw [reachesSave_of_more pbkdf2 hmore]; exact hctx)
  -- Only the transaction of a login may be left, which saves nothing.
  refine Related.next hprogress' hnext fun task hmore ctx hctx => ?_
  rw [next_more_toSave hmore] at hctx
  cases hctx

/-! ## Overwriting what was left -/

/-- The later request writes to the same account, and assigns to all that was left there. -/
theorem Overwrites.writes (h : Overwrites failed request) {task : Task}
    (hsubmits : request.Submits task) :
    ∃ assign userInfo, task.Writes assign userInfo ∧ failed.account = some userInfo.userId ∧
      ∀ e e', failed.mask e = failed.mask e' → assign userInfo e = assign userInfo e' := by
  cases hsubmits with
  | insert => cases failed <;> exact absurd h id
  | @update q userInfo huserId =>
    cases failed with
    | update r | delete r =>
      refine ⟨_, _, .update userInfo, congrArg some (huserId.trans h).symm, fun e e' hmask => ?_⟩
      simp_all [Request.mask, assignUpdate]
    | _ => exact absurd h id
  | @delete q userInfo huserId =>
    cases failed with
    | delete r =>
      refine ⟨_, _, .delete userInfo, congrArg some (huserId.trans h).symm, fun e e' hmask => ?_⟩
      simp_all [Request.mask, assignDelete]
    | _ => exact absurd h id

/-- Both servers hand the same context to the save. -/
theorem Related.toSave_overwritten (h : Related failed a b) {task : Task}
    {assign : UserDto → UserEntity → UserEntity} {userInfo : UserDto}
    (hwrites : task.Writes assign userInfo) (haccount : failed.account = some userInfo.userId)
    (hmask : ∀ e e', failed.mask e = failed.mask e' → assign userInfo e = assign userInfo e')
    {ctx : HStarContext} (hsave : task.toSave w b.context = some ctx) :
    task.toSave w a.context = some ctx := by
  obtain ⟨row, hfound, rfl⟩ := hwrites.finds_of_toSave hsave
  obtain ⟨-, huserId⟩ := hfound.mem
  rw [hwrites.toSave_of_finds (h.finds_iff.mpr hfound),
    h.context.overwritten h.left h.right (by rw [huserId, hfound.2]) (by rw [huserId, haccount])
      hmask]

/-- So they go on alike. -/
theorem Related.handle_overwritten (h : Related failed a b) (hover : Overwrites failed request)
    (hreach : (reachesSave pbkdf2 w b request).isSome = true) :
    Api.handle pbkdf2 w a request = Api.handle pbkdf2 w b request := by
  obtain ⟨ctx, hctx⟩ := Option.isSome_iff_exists.mp hreach
  obtain ⟨task, hbegin, hsave, hsubmits⟩ := reachesSave_cases pbkdf2 hctx
  obtain ⟨assign, userInfo, hwrites, haccount, hmask⟩ := hover.writes hsubmits
  have hmore : (Api.begin pbkdf2 w a request).2 = .more task := by
    rw [begin_progress_congr pbkdf2 w h.context.table, hbegin]
  have hbegin' : Api.begin pbkdf2 w a request = (a, .more task) := by
    cases hsubmits with
    | insert => cases hwrites
    | update | delete => exact Prod.ext rfl hmore
  have hproceed : proceed w a task = proceed w b task := by
    have hsave' := h.toSave_overwritten hwrites haccount hmask hsave
    rw [proceed_of_toSave hsave, proceed_of_toSave hsave', h.redis]
  rw [Api.handle, Api.handle, hbegin, hbegin']
  show Api.next w (proceed w a task) = Api.next w (proceed w b task)
  rw [hproceed]

/-! ## The two runs -/

/-- **Run lemma.** The later requests are answered alike, with the same table after each. -/
theorem Related.trace (h : Related failed a b) {later : List Call}
    (hharmless : Harmless pbkdf2 failed b later) :
    Api.trace pbkdf2 a later = Api.trace pbkdf2 b later := by
  induction later generalizing a b with
  | nil => rfl
  | cons call later ih =>
    obtain ⟨w, request⟩ := call
    rcases hharmless with ⟨hover, hreach⟩ | ⟨hfails, hlater⟩
    · -- overwritten: from here on both servers are the same
      rw [Api.trace, Api.trace, h.handle_overwritten hover hreach]
    · obtain ⟨hprogress, hhandle⟩ := h.handle hfails
      rw [Api.trace, Api.trace, hprogress, hhandle.context.table, ih hhandle hlater]

/-- What a request assigns is masked. -/
theorem Request.Submits.mask {task : Task} (h : request.Submits task)
    {assign : UserDto → UserEntity → UserEntity} {userInfo : UserDto}
    (hwrites : task.Writes assign userInfo) :
    request.account = some userInfo.userId ∧
      ∀ e, request.mask (assign userInfo e) = request.mask e := by
  cases h with
  | insert => cases hwrites
  | update huserId | delete huserId =>
    cases hwrites
    exact ⟨congrArg some huserId.symm, fun _ => rfl⟩

/-- A failed write leaves the context as it was, up to what it assigned. -/
theorem SaveThrows.related (h : SaveThrows pbkdf2 w a request) (hc : a.context.Coherent) :
    Related request (handle pbkdf2 w a request).1 a := by
  obtain ⟨ctx, hreach, hthrows⟩ := h
  obtain ⟨task, hbegin, hsave, hsubmits⟩ := reachesSave_cases pbkdf2 hreach
  have hagree : AgreeOff request ctx a.context := by
    rcases Task.toSave_cases hsave with
      ⟨q, userDto, rfl, rfl⟩ | ⟨assign, userInfo, row, hwrites, hfound, rfl⟩
    · -- a `Create` leaves an added entity, and no account is masked
      cases hsubmits
      exact ⟨rfl, fun hne => absurd rfl hne, fun _ _ _ => rfl, fun _ _ heq => by cases heq⟩
    · obtain ⟨haccount, hmask⟩ := hsubmits.mask hwrites
      obtain ⟨-, huserId⟩ := hfound.mem
      exact .of_staged hc (by rw [huserId, hfound.2]) (by rw [huserId, haccount]) hmask
  have hhandle : handle pbkdf2 w a request = next w (proceed w a task) := by
    rw [handle, hbegin]
    rfl
  rw [hhandle, proceed_of_toSave hsave, saveChanges_eq_of_throws hthrows]
  exact ⟨rfl, hagree, Task.toSave_coherent hc hsave, hc⟩

/-- **Failed writes.** After any requests, a request whose `SaveChangesAsync` throws changes
neither the table, then or later, nor any later answer, provided that the later requests
never save what it left pending. -/
theorem failed_write_leaves_no_trace {table : List UserRow} (hids : (table.map (·.id)).Nodup)
    (redis : Redis) (before : List Call) {later : List Call}
    (hthrows : SaveThrows pbkdf2 w (serve pbkdf2 (.start table redis) before) failed)
    (hharmless : Harmless pbkdf2 failed (serve pbkdf2 (.start table redis) before) later) :
    LeavesNoTrace pbkdf2 w (serve pbkdf2 (.start table redis) before) failed later := by
  have hrelated := hthrows.related (coherent_serve pbkdf2 (Coherent.fresh hids) before)
  exact ⟨hrelated.context.table, hrelated.trace hharmless⟩

/-! ## A forgotten password -/

/-- `ann` changes the user name only, so the new password is `null`. -/
def annForgetsPassword : Request :=
  .update { userId := ascii "ann", password := ascii "secret", toBeUsername := ascii "Anna" }

def annSetsPassword : Request :=
  .update { userId := ascii "ann", password := ascii "secret", toBePassword := ascii "secret" }

def bobJoins : Request :=
  .create {
    userId := ascii "bob"
    password := ascii "secret"
    username := ascii "Bob"
    email := ascii "bob@chat" }

theorem failed_write_leaves_no_trace_ann :
    LeavesNoTrace secretPbkdf2 {} (serve secretPbkdf2 (.start [ann] fun _ => none) [])
      annForgetsPassword
      [({}, .getUser (ascii "ann")), ({ salt }, annSetsPassword), ({ salt }, bobJoins)] :=
  failed_write_leaves_no_trace (by decide) _ _ ⟨_, rfl, by decide⟩ (by decide)

/-- The update of `ann` throws; after it `bob` cannot be created, and without it he can. -/
theorem annForgetsPassword_blocks_bob :
    SaveThrows secretPbkdf2 {} (.start [ann] fun _ => none) annForgetsPassword ∧
      ¬ LeavesNoTrace secretPbkdf2 {} (.start [ann] fun _ => none) annForgetsPassword
        [({ salt }, bobJoins)] := by
  refine ⟨⟨_, rfl, by decide⟩, fun h => ?_⟩
  have hbob := congrArg (List.map Prod.fst) h.2
  revert hbob
  decide

end BoostChat.Api
