import BoostChat.Api.Requests
import Mathlib.Data.List.Permutation

/-!
# Interleaved updates and deletions of one account

`UpdateUser` and `DeleteUser` read the account, wait, and write back what they read.

* `updates_serializable` — when every write that is saved is still current, the requests
  that succeeded, in the order of their writes, give the same table one after the other,
  and a deletion stands;
* `annRenames_resurrects` — an update that was validated before a deletion and writes
  after it brings the account back.
-/

namespace BoostChat.Api

open HStarContext UserRepository Lib

/-! ## Contexts with nothing pending elsewhere -/

namespace HStarContext

/-- Nothing is pending, except perhaps for the account of `user`. -/
structure QuietBut (user : Option Bytes) (ctx : HStarContext) : Prop where
  added : ctx.added = []
  saved : ∀ row ∈ ctx.table, user ≠ some row.userId →
    ∀ entry, ctx.tracked row.id = some entry → entry.modified = false

abbrev Quiet : HStarContext → Prop := QuietBut none

variable {ctx : HStarContext} {user : Option Bytes}

theorem Quiet.but (h : ctx.Quiet) : ctx.QuietBut user :=
  ⟨h.added, fun row hrow _ => h.saved row hrow (by simp)⟩

/-- The context of a server that has just started. -/
theorem Quiet.fresh (table : List UserRow) : Quiet { table } :=
  ⟨rfl, fun _ _ _ _ h => by cases h⟩

theorem QuietBut.track (h : ctx.QuietBut user) (row : UserRow) : (ctx.track row).QuietBut user := by
  refine ⟨by simpa using h.added, fun row' hrow' hne entry hentry => ?_⟩
  rw [track_table] at hrow'
  rw [track_tracked] at hentry
  split at hentry
  · obtain rfl := Option.some.inj hentry
    cases htracked : ctx.tracked row'.id with
    | none => rfl
    | some old => exact h.saved row' hrow' hne old htracked
  · exact h.saved row' hrow' hne entry hentry

theorem QuietBut.single (h : ctx.QuietBut user) (queryOk : Bool) (userId : Bytes) :
    (ctx.single queryOk userId).1.QuietBut user :=
  single_invariant h (fun _ row h _ => h.track row) queryOk userId

/-- An assignment to the entity of that account. -/
theorem QuietBut.staged {row : UserRow} (h : ctx.QuietBut (some row.userId)) (hc : ctx.Coherent)
    (hrow : row ∈ ctx.table) (assign : UserEntity → UserEntity) :
    ((ctx.track row).update row.id assign).QuietBut (some row.userId) := by
  refine ⟨by simpa [HStarContext.update] using h.added, fun row' hrow' hne entry hentry => ?_⟩
  replace hrow' : row' ∈ ctx.table := by simpa [HStarContext.update] using hrow'
  rw [staged_tracked, if_neg] at hentry
  · exact h.saved row' hrow' hne entry hentry
  · intro hid
    exact hne (by rw [hc.eq_of_id hrow' hrow hid])

/-- Nothing is pending after a save. -/
theorem quiet_of_saved {w : SaveWorld} (h : (ctx.saveChanges w).2 = true) :
    (ctx.saveChanges w).1.Quiet := by
  rcases saveChanges_cases ctx w with hfail | ⟨rowAfter, new, -, -, -, hsave⟩
  · simp [hfail] at h
  · rw [hsave]
    refine ⟨rfl, fun row _ _ entry hentry => ?_⟩
    simp only [accept] at hentry
    split at hentry
    · obtain rfl := Option.some.inj hentry
      rfl
    · obtain ⟨_, -, rfl⟩ := Option.map_eq_some_iff.mp hentry
      rfl

/-- What is tracked for a row of a quiet context is the row. -/
theorem Coherent.entityOf_quiet (hc : ctx.Coherent) (h : ctx.Quiet) {row : UserRow}
    (hrow : row ∈ ctx.table) : ctx.entityOf row = .ofRow row := by
  unfold entityOf
  cases hentry : ctx.tracked row.id with
  | none => rfl
  | some entry =>
    exact (hc.mirrors hrow hentry).saved (h.saved row hrow (by simp) entry hentry)

/-- **A write saves one row,** because nothing else is pending. -/
theorem saveChanges_staged {row : UserRow} (h : ctx.QuietBut (some row.userId))
    (hc : ctx.Coherent) (hrow : ctx.rowsOf row.userId = [row]) (assign : UserEntity → UserEntity)
    {w : SaveWorld} {row' : UserRow} (hok : w.saveOk = true)
    (hrow' : (assign (ctx.entityOf row)).toRow? = some row') :
    (((ctx.track row).update row.id assign).saveChanges w).2 = true ∧
      (((ctx.track row).update row.id assign).saveChanges w).1.table =
        ctx.table.map fun x => if x = row then row' else x := by
  have hmem : row ∈ ctx.table := (mem_of_rowsOf hrow).1
  have htable : ((ctx.track row).update row.id assign).table = ctx.table := by
    simp [HStarContext.update]
  have hsaved : ∀ x ∈ ctx.table, ((ctx.track row).update row.id assign).savedRow x =
      some (if x = row then row' else x) := by
    intro x hx
    rw [hc.staged_savedRow hmem hx]
    by_cases hxrow : x = row
    · rw [if_pos hxrow, if_pos hxrow]
      exact hrow'
    · -- the entity of another row is not pending
      have hne : some row.userId ≠ some x.userId := fun heq =>
        hxrow (eq_of_rowsOf hrow hx (Option.some.inj heq).symm)
      rw [if_neg hxrow, if_neg hxrow]
      exact savedRow_eq_self (h.saved x hx hne)
  have hnew : ((ctx.track row).update row.id assign).newRows w.gap = some [] := by
    simp [newRows, HStarContext.update, h.added]
  rw [saveChanges, htable, mapM_of_forall hsaved, hnew]
  simp [hok, accept]

/-- A write that was saved had an entity that can be written. -/
theorem staged_saved {row : UserRow} (hrow : row ∈ ctx.table) {assign : UserEntity → UserEntity}
    {w : SaveWorld} (h : (((ctx.track row).update row.id assign).saveChanges w).2 = true) :
    w.saveOk = true ∧ ∃ row', (assign (ctx.entityOf row)).toRow? = some row' := by
  rcases saveChanges_cases ((ctx.track row).update row.id assign) w with
    hfail | ⟨rowAfter, new, hok, hrows, -, -⟩
  · simp [hfail] at h
  · have hsaved := hrows row (by simpa [HStarContext.update] using hrow)
    rw [savedRow, staged_tracked, if_pos rfl] at hsaved
    exact ⟨hok, rowAfter row, hsaved⟩

end HStarContext

/-- A write that the database accepts saves the row of the account. -/
theorem change_saves {w : World} {ctx : HStarContext} {userInfo : UserDto} {row row' : UserRow}
    {assign : UserDto → UserEntity → UserEntity} (hc : ctx.Coherent)
    (hq : ctx.QuietBut (some userInfo.userId)) (hfound : Finds w ctx userInfo.userId row)
    (hok : w.saveOk = true) (hrow' : (assign userInfo (ctx.entityOf row)).toRow? = some row') :
    (change assign w ctx userInfo).2 = .success ∧ (change assign w ctx userInfo).1.Quiet ∧
      (change assign w ctx userInfo).1.table =
        ctx.table.map fun x => if x = row then row' else x := by
  obtain ⟨-, huserId⟩ := hfound.mem
  obtain ⟨hsaved, htable⟩ := saveChanges_staged (huserId ▸ hq) hc (huserId ▸ hfound.2)
    (assign userInfo) (w := w.toSaveWorld) hok hrow'
  rw [change, stage_of_finds assign hfound]
  simp only [save_eq, hsaved, htable, saveStatus, if_true]
  exact ⟨trivial, quiet_of_saved hsaved, trivial⟩

/-- A write fails and changes no row, or it is saved. -/
theorem change_cases {ctx : HStarContext} {userInfo : UserDto} (w : World)
    (assign : UserDto → UserEntity → UserEntity) (hc : ctx.Coherent)
    (hq : ctx.QuietBut (some userInfo.userId)) :
    ((change assign w ctx userInfo).2 = .failure ∧
      (change assign w ctx userInfo).1.table = ctx.table ∧
      (change assign w ctx userInfo).1.QuietBut (some userInfo.userId)) ∨
    ∃ row row', Finds w ctx userInfo.userId row ∧ w.saveOk = true ∧
      (assign userInfo (ctx.entityOf row)).toRow? = some row' ∧
      (((ctx.track row).update row.id (assign userInfo)).saveChanges w.toSaveWorld).2 = true := by
  by_cases hfound : ∃ row, Finds w ctx userInfo.userId row
  · obtain ⟨row, hfound⟩ := hfound
    obtain ⟨hmem, huserId⟩ := hfound.mem
    cases hsaved :
      (((ctx.track row).update row.id (assign userInfo)).saveChanges w.toSaveWorld).2 with
    | true =>
      obtain ⟨hok, row', hrow'⟩ := staged_saved hmem hsaved
      exact Or.inr ⟨row, row', hfound, hok, hrow', hsaved⟩
    | false =>
      -- the save throws, and the assignment stays pending
      rw [change, stage_of_finds assign hfound]
      simp only [save_eq, saveChanges_eq_of_throws hsaved, saveStatus]
      exact Or.inl ⟨by simp, by simp [HStarContext.update],
        huserId ▸ (huserId ▸ hq).staged hc hmem (assign userInfo)⟩
  · rw [change_of_not_finds assign (not_exists.mp hfound)]
    exact Or.inl ⟨rfl, single_table _ _, hq.single _ _⟩

/-! ## Serial orders -/

/-- The request was answered without an exception. -/
def Progress.succeeded : Progress → Bool
  | .done outcome => outcome.isOk
  | .more _ => false

/-- The requests that succeeded, in the order of their writes. -/
def Sys.succeeded (s : Sys) : List Call :=
  (s.answered.filter fun answer => answer.outcome.isOk).reverse.map fun answer =>
    (answer.world, answer.request)

variable (pbkdf2 : Pbkdf2)

/-- Some serial order of the requests that succeeded, in which all of them succeed, gives
the same table. -/
def Serializable (api : ApiServer) (s : Sys) : Prop :=
  ∃ order, order.Perm s.succeeded ∧ (∀ answer ∈ trace pbkdf2 api order, answer.1.succeeded) ∧
    (serve pbkdf2 api order).context.table = s.api.context.table

def Request.isDelete : Request → Bool
  | .delete _ => true
  | _ => false

/-- An account whose deletion succeeded is deleted. -/
def DeletionStands (user : Bytes) (s : Sys) : Prop :=
  (∃ answer ∈ s.answered, answer.request.isDelete ∧ answer.outcome.isOk) →
    ∀ row ∈ s.api.context.table, row.userId = user → row.isAlive = ascii "N"

/-! ## When a write is still current -/

/-- The credentials are still valid; an `Update` would again read the values that it is about
to write back, and a `Delete` finds no other pending change of the account. -/
def Current (ctx : HStarContext) (x : Waiting) : Prop :=
  match x.request with
  | .update q => ∃ row ∈ ctx.table, Validates pbkdf2 x.world ctx q.userId q.password row ∧
      x.task = .update (changedUser pbkdf2 x.world q (userInfoOf row))
  | .delete q => ∃ row ∈ ctx.table, Validates pbkdf2 x.world ctx q.userId q.password row ∧
      { ctx.entityOf row with isAlive := none } = { UserEntity.ofRow row with isAlive := none }
  | _ => True

instance (w : World) (ctx : HStarContext) (userId password : Bytes) (row : UserRow) :
    Decidable (Validates pbkdf2 w ctx userId password row) :=
  decidable_of_iff (w.readOk = true ∧ ctx.rowsOf userId = [row] ∧ row.isAlive ≠ ascii "N" ∧
      PasswordHelper.verifyPassword pbkdf2 row.password password = .ok true)
    ⟨fun ⟨h₁, h₂, h₃, h₄⟩ => ⟨h₁, h₂, h₃, h₄⟩, fun h => ⟨h.1, h.2, h.3, h.4⟩⟩

instance (ctx : HStarContext) : (x : Waiting) → Decidable (Current pbkdf2 ctx x)
  | ⟨_, .update _, _⟩ | ⟨_, .delete _, _⟩ => inferInstanceAs (Decidable (∃ row ∈ ctx.table, _ ∧ _))
  | ⟨_, .create _, _⟩ | ⟨_, .login _, _⟩ | ⟨_, .getUser _, _⟩ => .isTrue trivial

/-- All requests concern the account `user`. -/
def OneAccount (user : Bytes) (_ : Sys) : Action → Prop
  | .begin _ request => request.account = some user
  | .proceed _ => True

/-- And every write that is saved is current. -/
def WritesCurrent (user : Bytes) (s : Sys) : Action → Prop
  | .begin _ request => request.account = some user
  | .proceed k => ∀ x ∈ s.waiting[k]?, ∀ ctx ∈ x.task.toSave x.world s.api.context,
      (ctx.saveChanges x.world.toSaveWorld).2 = true → Current pbkdf2 s.api.context x

instance (user : Bytes) (s : Sys) : (a : Action) → Decidable (OneAccount user s a)
  | .begin _ request => inferInstanceAs (Decidable (request.account = some user))
  | .proceed _ => .isTrue trivial

instance (user : Bytes) (s : Sys) : (a : Action) → Decidable (WritesCurrent pbkdf2 user s a)
  | .begin _ request => inferInstanceAs (Decidable (request.account = some user))
  | .proceed k => inferInstanceAs (Decidable (∀ x ∈ s.waiting[k]?, _))

/-! ## The invariant -/

/-- A waiting request writes to the row of `user`. -/
inductive WritesTo (user : Bytes) : Waiting → Prop
  | update {w : World} {q : UpdateUserRequest} {userInfo : UserDto} (hq : q.userId = user)
      (huserInfo : userInfo.userId = user) : WritesTo user ⟨w, .update q, .update userInfo⟩
  | delete {w : World} {q : DeleteUserRequest} {userInfo : UserDto} (hq : q.userId = user)
      (huserInfo : userInfo.userId = user) (hdead : userInfo.isAlive = some (ascii "N")) :
      WritesTo user ⟨w, .delete q, .delete userInfo⟩

structure Interleaved (api : ApiServer) (user : Bytes) (s : Sys) : Prop where
  coherent : s.api.context.Coherent
  quiet : s.api.context.QuietBut (some user)
  waiting : ∀ x ∈ s.waiting, WritesTo user x
  succeeds : ∀ answer ∈ trace pbkdf2 api s.succeeded, answer.1.succeeded
  serial : (serve pbkdf2 api s.succeeded).context.table = s.api.context.table
  serialQuiet : (serve pbkdf2 api s.succeeded).context.Quiet
  deleted : DeletionStands user s

variable {pbkdf2} {api : ApiServer} {user : Bytes} {s : Sys}

theorem Interleaved.start (hc : api.context.Coherent) (hq : api.context.Quiet) :
    Interleaved pbkdf2 api user { api } where
  coherent := hc
  quiet := hq.but
  waiting _ h := absurd h List.not_mem_nil
  succeeds _ h := absurd h List.not_mem_nil
  serial := rfl
  serialQuiet := hq
  deleted h := by simp at h

/-- A validation that does not succeed throws. -/
theorem validated_done {w : World} {userId password : Bytes} {refusal : ApiException}
    {next : UserDto → Task} {outcome : Outcome}
    (h : validated pbkdf2 w api userId password refusal next = .done outcome) :
    outcome.isOk = false := by
  unfold validated at h
  split at h
  · obtain rfl := Progress.done.inj h
    rfl
  · cases h
  · obtain rfl := Progress.done.inj h
    rfl

@[simp] theorem respond_isOk (status : UserStatusCode) (task : Task) :
    (respond status task).isOk = decide (status = .success) := by
  cases task <;> cases status <;> rfl

theorem serve_append (api : ApiServer) (before after : List Call) :
    serve pbkdf2 api (before ++ after) = serve pbkdf2 (serve pbkdf2 api before) after := by
  induction before generalizing api with
  | nil => rfl
  | cons _ before ih => exact ih _

theorem trace_append (api : ApiServer) (calls : List Call) (call : Call) :
    trace pbkdf2 api (calls ++ [call]) = trace pbkdf2 api calls ++
      [((handle pbkdf2 call.1 (serve pbkdf2 api calls) call.2).2,
        (handle pbkdf2 call.1 (serve pbkdf2 api calls) call.2).1.context.table)] := by
  induction calls generalizing api with
  | nil => rfl
  | cons _ calls ih => exact congrArg (List.cons _) (ih _)

/-- An answer without success. -/
theorem Interleaved.refused (h : Interleaved pbkdf2 api user s) {t : Sys} {answer : Answer}
    (hc : t.api.context.Coherent) (hq : t.api.context.QuietBut (some user))
    (htable : t.api.context.table = s.api.context.table) (hwaiting : ∀ x ∈ t.waiting, x ∈ s.waiting)
    (hanswered : t.answered = answer :: s.answered) (hrefused : answer.outcome.isOk = false) :
    Interleaved pbkdf2 api user t := by
  have hsucceeded : t.succeeded = s.succeeded := by
    simp [Sys.succeeded, hanswered, hrefused]
  refine ⟨hc, hq, fun x hx => h.waiting x (hwaiting x hx), ?_, ?_, ?_, ?_⟩
  · rw [hsucceeded]
    exact h.succeeds
  · rw [hsucceeded, htable]
    exact h.serial
  · rw [hsucceeded]
    exact h.serialQuiet
  · rintro ⟨answer', hanswer', hdelete, hok⟩
    rw [htable]
    refine h.deleted ⟨answer', ?_, hdelete, hok⟩
    rw [hanswered, List.mem_cons] at hanswer'
    rcases hanswer' with rfl | hanswer'
    · simp [hrefused] at hok
    · exact hanswer'

/-- A successful answer, with a serial server that follows. -/
theorem Interleaved.saved (h : Interleaved pbkdf2 api user s) {t : Sys} {answer : Answer}
    (hc : t.api.context.Coherent) (hq : t.api.context.QuietBut (some user))
    (hwaiting : ∀ x ∈ t.waiting, x ∈ s.waiting) (hanswered : t.answered = answer :: s.answered)
    (hok : answer.outcome.isOk = true) {p : ApiServer × Progress}
    (hserial : handle pbkdf2 answer.world (serve pbkdf2 api s.succeeded) answer.request = p)
    (hsucceeds : p.2.succeeded = true) (htable : p.1.context.table = t.api.context.table)
    (hquiet : p.1.context.Quiet) (hdeleted : DeletionStands user t) :
    Interleaved pbkdf2 api user t := by
  have hsucceeded : t.succeeded = s.succeeded ++ [(answer.world, answer.request)] := by
    simp [Sys.succeeded, hanswered, hok]
  refine ⟨hc, hq, fun x hx => h.waiting x (hwaiting x hx), ?_, ?_, ?_, hdeleted⟩
  · rw [hsucceeded, trace_append, hserial, List.forall_mem_append, List.forall_mem_singleton]
    exact ⟨h.succeeds, hsucceeds⟩
  · rw [hsucceeded, serve_append, serve, serve, hserial]
    exact htable
  · rw [hsucceeded, serve_append, serve, serve, hserial]
    exact hquiet

/-! ## The steps -/

/-- Validation reads the table only. -/
theorem Validates.congr {w : World} {ctx ctx' : HStarContext} {userId password : Bytes}
    {row : UserRow} (h : Validates pbkdf2 w ctx userId password row)
    (htable : ctx.table = ctx'.table) :
    Validates pbkdf2 w ctx' userId password row :=
  ⟨h.readOk, by rw [rowsOf, ← htable]; exact h.found, h.alive, h.verified⟩

/-- An update that nothing interrupts writes what it has just read. -/
theorem handle_update {w : World} {q : UpdateUserRequest} {row : UserRow}
    (h : Validates pbkdf2 w api.context q.userId q.password row) :
    handle pbkdf2 w api (.update q) =
      proceed w api (.update (changedUser pbkdf2 w q (userInfoOf row))) := by
  have hbegin : begin pbkdf2 w api (.update q) =
      (api, .more (.update (changedUser pbkdf2 w q (userInfoOf row)))) :=
    Prod.ext rfl (validated_eq_more_iff.mpr ⟨row, h, rfl⟩)
  rw [handle, hbegin]
  rfl

theorem handle_delete {w : World} {q : DeleteUserRequest} {row : UserRow}
    (h : Validates pbkdf2 w api.context q.userId q.password row) :
    handle pbkdf2 w api (.delete q) = proceed w api (.delete (deletedUser (userInfoOf row))) := by
  have hbegin : begin pbkdf2 w api (.delete q) =
      (api, .more (.delete (deletedUser (userInfoOf row)))) :=
    Prod.ext rfl (validated_eq_more_iff.mpr ⟨row, h, rfl⟩)
  rw [handle, hbegin]
  rfl

/-- The serial server saves the same row. -/
theorem Interleaved.serial_change (h : Interleaved pbkdf2 api user s) {w : World}
    {userInfo : UserDto} {row row' : UserRow} {assign : UserDto → UserEntity → UserEntity}
    (huser : userInfo.userId = user) (hfound : Finds w s.api.context user row)
    (hok : w.saveOk = true)
    (hrow' : (assign userInfo ((serve pbkdf2 api s.succeeded).context.entityOf row)).toRow? =
      some row') (hc : (serve pbkdf2 api s.succeeded).context.Coherent) :
    (change assign w (serve pbkdf2 api s.succeeded).context userInfo).2 = .success ∧
      (change assign w (serve pbkdf2 api s.succeeded).context userInfo).1.Quiet ∧
      (change assign w (serve pbkdf2 api s.succeeded).context userInfo).1.table =
        s.api.context.table.map fun x => if x = row then row' else x := by
  rw [← h.serial]
  refine change_saves hc h.serialQuiet.but ⟨hfound.1, ?_⟩ hok hrow'
  rw [rowsOf, h.serial, huser]
  exact hfound.2

/-- The serial server serves the waiting request by the same assignment to the row. -/
def Replays (pbkdf2 : Pbkdf2) (serial : ApiServer) (ctx : HStarContext) (x : Waiting)
    (assign : UserDto → UserEntity → UserEntity) (userInfo : UserDto) (row : UserRow) : Prop :=
  ∃ task userInfo', task.Writes assign userInfo' ∧ userInfo'.userId = userInfo.userId ∧
    handle pbkdf2 x.world serial x.request = proceed x.world serial task ∧
    assign userInfo' (serial.context.entityOf row) = assign userInfo (ctx.entityOf row)

/-- **The write of a request** that is current whenever it is saved. -/
theorem Interleaved.write (h : Interleaved pbkdf2 api user s) (hstart : api.context.Coherent)
    {k : Nat} {x : Waiting} (hk : s.waiting[k]? = some x)
    (hcurrent : WritesCurrent pbkdf2 user s (.proceed k))
    {assign : UserDto → UserEntity → UserEntity} {userInfo : UserDto}
    (hwrites : x.task.Writes assign userInfo) (huserInfo : userInfo.userId = user) {t : Sys}
    (ht : t = { s with waiting := s.waiting.eraseIdx k }.place x.world x.request
      (proceed x.world s.api x.task))
    (hsaves : ∀ row row', Current pbkdf2 s.api.context x → s.api.context.rowsOf user = [row] →
      (assign userInfo (s.api.context.entityOf row)).toRow? = some row' →
      Replays pbkdf2 (serve pbkdf2 api s.succeeded) s.api.context x assign userInfo row ∧
        (t.api.context.table = s.api.context.table.map (fun x => if x = row then row' else x) →
          DeletionStands user t)) :
    Interleaved pbkdf2 api user t := by
  have hwaiting : ∀ x ∈ s.waiting.eraseIdx k, x ∈ s.waiting :=
    fun x hx => List.mem_of_mem_eraseIdx hx
  have hc := coherent_proceed x.world h.coherent x.task
  rw [hwrites.proceed_eq] at ht hc
  subst ht
  rcases change_cases x.world assign h.coherent (huserInfo ▸ h.quiet) with
    ⟨hstatus, htable, hquiet⟩ | ⟨row, row', hfound, hok, hrow', hsaved⟩
  · exact h.refused hc (huserInfo ▸ hquiet) htable hwaiting rfl (by simp [hstatus])
  · -- saved: the serial server makes the same write to the same row
    have hcurrent := hcurrent x hk _ (hwrites.toSave_of_finds hfound) hsaved
    obtain ⟨⟨task, userInfo', hwrites', huserInfo', hhandle, hsame⟩, hdeleted⟩ :=
      hsaves row row' hcurrent (huserInfo ▸ hfound.2) hrow'
    obtain ⟨hstatus, hquiet, htable⟩ :=
      change_saves h.coherent (huserInfo ▸ h.quiet) hfound hok hrow'
    obtain ⟨hstatus', hquiet', htable'⟩ :=
      h.serial_change (huserInfo'.trans huserInfo) (huserInfo ▸ hfound) hok
        ((congrArg UserEntity.toRow? hsame).trans hrow')
        (coherent_serve pbkdf2 hstart s.succeeded)
    refine h.saved hc hquiet.but hwaiting rfl (by simp [hstatus])
      (hhandle.trans hwrites'.proceed_eq) ?_ (htable'.trans htable.symm) hquiet' (hdeleted htable)
    simp [Progress.succeeded, hstatus']

/-- An update assigns to all but the key. -/
theorem assignUpdate_congr (userInfo : UserDto) {e e' : UserEntity} (hid : e.id = e'.id)
    (huserId : e.userId = e'.userId) : assignUpdate userInfo e = assignUpdate userInfo e' := by
  simp_all [assignUpdate]

/-- A deletion assigns to one property. -/
theorem assignDelete_congr {userInfo userInfo' : UserDto} {e e' : UserEntity}
    (hdead : userInfo.isAlive = userInfo'.isAlive)
    (h : { e with isAlive := none } = { e' with isAlive := none }) :
    assignDelete userInfo e = assignDelete userInfo' e' := by
  simp_all [assignDelete]

/-- The write of an update. -/
theorem Interleaved.update (h : Interleaved pbkdf2 api user s) (hstart : api.context.Coherent)
    {k : Nat} {w : World} {q : UpdateUserRequest} {userInfo : UserDto}
    (hk : s.waiting[k]? = some ⟨w, .update q, .update userInfo⟩) (hq : q.userId = user)
    (huserInfo : userInfo.userId = user) (hcurrent : WritesCurrent pbkdf2 user s (.proceed k)) :
    Interleaved pbkdf2 api user ({ s with waiting := s.waiting.eraseIdx k }.place w (.update q)
      (proceed w s.api (.update userInfo))) := by
  refine h.write hstart hk hcurrent (.update userInfo) huserInfo rfl
    fun row row' hcurrent hrow _ => ?_
  obtain ⟨found, hmem, hvalid, htask⟩ := hcurrent
  have hrowMem : row ∈ s.api.context.table := (mem_of_rowsOf hrow).1
  constructor
  · -- the serial server reads the same row, and writes the same properties
    obtain ⟨hid, huserId⟩ :=
      (coherent_serve pbkdf2 hstart s.succeeded).entityOf_key (h.serial ▸ hrowMem)
    obtain ⟨hid', huserId'⟩ := h.coherent.entityOf_key hrowMem
    refine ⟨.update userInfo, userInfo, .update userInfo, rfl, ?_,
      assignUpdate_congr userInfo (hid.trans hid'.symm) (huserId.trans huserId'.symm)⟩
    rw [handle_update (hvalid.congr h.serial.symm), ← htask]
  · rintro - ⟨answer, hanswer, hdelete, hok⟩
    -- After a deletion nothing validates, so this update cannot be current.
    rw [(Task.Writes.update userInfo).proceed_eq] at hanswer
    rcases List.mem_cons.mp hanswer with rfl | hanswer
    · cases hdelete
    · exact absurd (h.deleted ⟨answer, hanswer, hdelete, hok⟩ found hmem
        (hvalid.mem.2.trans hq)) hvalid.alive

/-- The write of a deletion. -/
theorem Interleaved.delete (h : Interleaved pbkdf2 api user s) (hstart : api.context.Coherent)
    {k : Nat} {w : World} {q : DeleteUserRequest} {userInfo : UserDto}
    (hk : s.waiting[k]? = some ⟨w, .delete q, .delete userInfo⟩) (hq : q.userId = user)
    (huserInfo : userInfo.userId = user) (hdead : userInfo.isAlive = some (ascii "N"))
    (hcurrent : WritesCurrent pbkdf2 user s (.proceed k)) :
    Interleaved pbkdf2 api user ({ s with waiting := s.waiting.eraseIdx k }.place w (.delete q)
      (proceed w s.api (.delete userInfo))) := by
  refine h.write hstart hk hcurrent (.delete userInfo) huserInfo rfl
    fun row row' hcurrent hrow hrow' => ?_
  obtain ⟨found, hmem, hvalid, hclean⟩ := hcurrent
  obtain rfl : found = row := eq_of_rowsOf hrow hmem (hvalid.mem.2.trans hq)
  constructor
  · -- the serial server tracks the row as it is; here only `is_alive` may be pending
    have hentity := (coherent_serve pbkdf2 hstart s.succeeded).entityOf_quiet h.serialQuiet
      (h.serial ▸ hmem)
    refine ⟨.delete (deletedUser (userInfoOf found)), _, .delete _,
      (hvalid.mem.2.trans hq).trans huserInfo.symm, handle_delete (hvalid.congr h.serial.symm), ?_⟩
    rw [hentity]
    exact assignDelete_congr hdead.symm hclean.symm
  · intro htable _ x hx huser
    rw [htable, List.mem_map] at hx
    obtain ⟨old, hold, rfl⟩ := hx
    split
    · have hentity := congrArg UserEntity.isAlive (UserEntity.toRow?_eq_some_iff.mp hrow')
      exact (Option.some.inj (hdead.symm.trans hentity)).symm
    · rename_i hne
      rw [if_neg hne] at huser
      exact absurd (eq_of_rowsOf hrow hold huser) hne

/-- **Step lemma.** -/
theorem interleaved_step (hstart : api.context.Coherent) (h : Interleaved pbkdf2 api user s)
    {a : Action} {t : Sys} (hcurrent : WritesCurrent pbkdf2 user s a)
    (hstep : step pbkdf2 s a = some t) : Interleaved pbkdf2 api user t := by
  obtain ⟨w, request, rfl, rfl⟩ | ⟨k, x, rfl, hk, hx, rfl⟩ := step_cases hstep
  · -- an update and a deletion begin alike: with a validation
    have hplace : ∀ {userId password : Bytes} {refusal : ApiException} {next : UserDto → Task},
        userId = user → (∀ row : UserRow, row.userId = user →
          WritesTo user ⟨w, request, next (userInfoOf row)⟩) →
        Interleaved pbkdf2 api user (s.place w request
          (s.api, validated pbkdf2 w s.api userId password refusal next)) := by
      intro userId password refusal next huser hwrites
      cases hvalid : validated pbkdf2 w s.api userId password refusal next with
      | done outcome =>
        exact h.refused h.coherent h.quiet rfl (fun _ hx => hx) rfl (validated_done hvalid)
      | more task =>
        obtain ⟨row, hrow, rfl⟩ := validated_eq_more_iff.mp hvalid
        refine ⟨h.coherent, h.quiet, fun x hx => ?_, h.succeeds, h.serial, h.serialQuiet, h.deleted⟩
        rcases List.mem_append.mp hx with hx | hx
        · exact h.waiting x hx
        · rw [List.mem_singleton.mp hx]
          exact hwrites row (hrow.mem.2.trans huser)
    cases request with
    | update q =>
      have hq : q.userId = user := Option.some.inj hcurrent
      exact hplace hq fun row hrow => .update hq hrow
    | delete q =>
      have hq : q.userId = user := Option.some.inj hcurrent
      exact hplace hq fun row hrow => .delete hq hrow rfl
    | _ => cases hcurrent
  · cases h.waiting x hx with
    | update hq huserInfo => exact h.update hstart hk hq huserInfo hcurrent
    | delete hq huserInfo hdead => exact h.delete hstart hk hq huserInfo hdead hcurrent

/-- **Interleaved writes.** In every run of updates and deletions of one account in which
every write that is saved is current, the requests that succeeded have the effect of a
serial order, and the account is deleted once a deletion has succeeded. -/
theorem updates_serializable {as : List Action} (hc : api.context.Coherent)
    (hq : api.context.Quiet) (hrun : Run (step pbkdf2) (WritesCurrent pbkdf2 user) { api } as s) :
    Serializable pbkdf2 api s ∧ DeletionStands user s := by
  have h := hrun.invariant (fun _ _ _ h hcurrent hstep => interleaved_step hc h hcurrent hstep)
    (Interleaved.start hc hq)
  exact ⟨⟨s.succeeded, List.Perm.refl _, h.succeeds, h.serial⟩, h.deleted⟩

/-! ## An update that is overtaken by a deletion -/

/-- `ann` changes her name and keeps the password. -/
def annRenames : Request :=
  .update {
    userId := ascii "ann"
    password := ascii "secret"
    toBePassword := ascii "secret"
    toBeUsername := ascii "Anna" }

def annLeaves : Request := .delete { userId := ascii "ann", password := ascii "secret" }

/-- Both requests are validated before one of them writes. -/
def annRenamesAndLeaves (first second : Nat) : List Action :=
  [.begin { salt } annRenames, .begin {} annLeaves, .proceed first, .proceed second]

theorem updates_serializable_ann :
    ∃ s : Sys, s.succeeded = [({ salt }, annRenames), ({}, annLeaves)] ∧
      Serializable secretPbkdf2 (.start [ann] fun _ => none) s ∧
      DeletionStands (ascii "ann") s := by
  obtain ⟨s, hrun, hs⟩ := exists_run_of_exec (step secretPbkdf2)
    (WritesCurrent secretPbkdf2 (ascii "ann")) { api := .start [ann] fun _ => none }
    (annRenamesAndLeaves 0 0)
    (fun s => decide (s.succeeded = [({ salt }, annRenames), ({}, annLeaves)])) (by decide)
  exact ⟨s, of_decide_eq_true hs,
    updates_serializable (Coherent.fresh (by decide)) (Quiet.fresh _) hrun⟩

/-- The deletion writes before the update: both succeed, and the account is alive. No serial
order gives that table. -/
theorem annRenames_resurrects :
    ∃ s : Sys,
      Run (step secretPbkdf2) (OneAccount (ascii "ann")) { api := .start [ann] fun _ => none }
        (annRenamesAndLeaves 1 0) s ∧
      s.succeeded = [({}, annLeaves), ({ salt }, annRenames)] ∧
      s.api.context.table.map (·.isAlive) = [ascii "Y"] ∧
      ∀ order, order.Perm s.succeeded →
        (serve secretPbkdf2 (.start [ann] fun _ => none) order).context.table ≠
          s.api.context.table := by
  obtain ⟨s, hrun, hs⟩ := exists_run_of_exec (step secretPbkdf2)
    (OneAccount (ascii "ann")) { api := .start [ann] fun _ => none } (annRenamesAndLeaves 1 0)
    (fun s => decide (s.succeeded = [({}, annLeaves), ({ salt }, annRenames)] ∧
      s.api.context.table.map (·.isAlive) = [ascii "Y"])) (by decide)
  obtain ⟨hsucceeded, halive⟩ := of_decide_eq_true hs
  refine ⟨s, hrun, hsucceeded, halive, fun order hperm htable => ?_⟩
  rw [← htable] at halive
  rw [hsucceeded, List.perm_pair] at hperm
  rcases hperm with rfl | rfl
  · exact absurd halive (by decide)
  · exact absurd halive (by decide)

end BoostChat.Api
