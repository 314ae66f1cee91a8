import BoostChat.Api.PartialUpdate

/-!
# Credentials

Requests that are served one after the other, when no write of the database throws.

* `handle_effect` — what a request does to the table;
* `recorded_serve` — the table records the latest password that was set for each account,
  and whether the account was deleted;
* `credentials_sound` — which credentials `ValidateUserCredentials` accepts.
-/

namespace BoostChat.Api

open HStarContext UserRepository Lib

variable (pbkdf2 : Pbkdf2)

/-! ## The effect of a request -/

/-- A request that writes no account. -/
def Request.isRead : Request → Bool
  | .login _ | .getUser _ => true
  | .create _ | .update _ | .delete _ => false

/-- What a request that is answered, with success or not, makes of the table. -/
inductive Effect (w : World) (table : List UserRow) : Request → Bool → List UserRow → Prop
  | unchanged {request : Request} {succeeded : Bool}
      (hread : succeeded = true → request.isRead = true) : Effect w table request succeeded table
  | created {q : CreateUserRequest} {row : UserRow} (hnew : ∀ old ∈ table, old.userId ≠ q.userId)
      (huserId : row.userId = q.userId)
      (hpassword : row.password = PasswordHelper.hashPassword pbkdf2 w.salt q.password)
      (halive : row.isAlive = ascii "Y") : Effect w table (.create q) true (table ++ [row])
  | updated {q : UpdateUserRequest} {row : UserRow} (hmem : row ∈ table)
      (huserId : row.userId = q.userId) (halive : row.isAlive ≠ ascii "N")
      (hpassword : q.toBePassword ≠ []) :
      Effect w table (.update q) true
        (table.map fun old => if old = row then q.appliedTo pbkdf2 w row else old)
  | deleted {q : DeleteUserRequest} {row : UserRow} (hmem : row ∈ table)
      (huserId : row.userId = q.userId) :
      Effect w table (.delete q) true
        (table.map fun old => if old = row then { row with isAlive := ascii "N" } else old)

section Effect

variable {pbkdf2} {w : World} {api : ApiServer} {request : Request} {ctx : HStarContext}

/-- What tracking keeps, a request keeps that does not save. -/
theorem handle_of_not_reaches (h : reachesSave pbkdf2 w api request = none)
    {P : HStarContext → Prop} (hP : P api.context)
    (htrack : ∀ ctx row, P ctx → row ∈ ctx.table → P (ctx.track row)) :
    P (handle pbkdf2 w api request).1.context := by
  have hnext : ∀ p : ApiServer × Progress, P p.1.context →
      (∀ task, p.2 = .more task → task.toSave w p.1.context = none) → P (next w p).1.context := by
    rintro ⟨api, outcome | task⟩ hP hsave
    · exact hP
    · show P (proceed w api task).1.context
      rcases proceed_of_toSave_none (hsave task rfl) with heq | ⟨userId, heq⟩ <;> rw [heq]
      · exact hP
      · exact single_invariant hP htrack _ _
  have hbegin : P (begin pbkdf2 w api request).1.context := by
    cases request with
    | create q =>
      rw [begin_create_fst]
      exact single_invariant hP htrack _ _
    | _ => exact hP
  refine hnext _ (hnext _ hbegin fun task hmore => ?_) fun task hmore => next_more_toSave hmore _
  rw [← reachesSave_of_more pbkdf2 hmore, h]

/-- A write that does not get to the save does not succeed. -/
theorem not_succeeded_of_not_reaches (h : reachesSave pbkdf2 w api request = none)
    (hwrite : request.isRead = false) : (handle pbkdf2 w api request).2.succeeded = false := by
  have hchange : ∀ {assign userInfo task}, Task.Writes task assign userInfo →
      begin pbkdf2 w api request = (api, .more task) →
      (handle pbkdf2 w api request).2.succeeded = false := by
    intro assign userInfo task hwrites hbegin
    have hsave : task.toSave w api.context = none := by
      rw [← h, reachesSave_of_more pbkdf2 (congrArg Prod.snd hbegin), hbegin]
    have hnot : ∀ row, ¬ Finds w api.context userInfo.userId row := fun row hfound => by
      rw [hwrites.toSave_of_finds hfound] at hsave
      cases hsave
    have hhandle : handle pbkdf2 w api request = next w (proceed w api task) := by
      rw [handle, hbegin]
      rfl
    rw [hhandle, hwrites.proceed_eq, change_of_not_finds assign hnot]
    exact respond_isOk .failure task
  have hdone : ∀ {outcome}, (begin pbkdf2 w api request).2 = .done outcome →
      outcome.isOk = false → (handle pbkdf2 w api request).2.succeeded = false := by
    intro outcome hbegin hrefused
    have hhandle : handle pbkdf2 w api request =
        ((begin pbkdf2 w api request).1, .done outcome) := by
      rw [handle, show begin pbkdf2 w api request = (_, .done outcome) from Prod.ext rfl hbegin]
      rfl
    rw [hhandle]
    exact hrefused
  cases hbegin : (begin pbkdf2 w api request).2 with
  | done outcome =>
    refine hdone hbegin ?_
    cases request with
    | create q =>
      simp only [begin] at hbegin
      split at hbegin <;> cases hbegin <;> rfl
    | update q | delete q => exact validated_done hbegin
    | login | getUser => cases hwrite
  | more task =>
    cases request with
    | create q =>
      obtain ⟨-, rfl, hall⟩ := begin_create_more hbegin
      rw [reachesSave_of_more pbkdf2 hbegin] at h
      cases h
    | update q =>
      obtain ⟨row, -, rfl⟩ := validated_eq_more_iff.mp hbegin
      exact hchange (.update _) (Prod.ext rfl hbegin)
    | delete q =>
      obtain ⟨row, -, rfl⟩ := validated_eq_more_iff.mp hbegin
      exact hchange (.delete _) (Prod.ext rfl hbegin)
    | login | getUser => cases hwrite

/-- A new entity becomes a row when nothing else is pending. -/
theorem saveChanges_added (hq : ctx.Quiet) {e : UserEntity} {w : SaveWorld}
    (hsaved : ((ctx.add e).saveChanges w).2 = true) :
    ∃ row, { e with id := row.id } = UserEntity.ofRow row ∧
      ((ctx.add e).saveChanges w).1.table = ctx.table ++ [row] := by
  rcases saveChanges_cases (ctx.add e) w with hfail | ⟨rowAfter, new, -, hrows, hnew, hsave⟩
  · rw [hfail] at hsaved
    cases hsaved
  -- nothing is pending for the old rows
  · have hkept : ctx.table.map rowAfter = ctx.table := by
      conv_rhs => rw [← List.map_id ctx.table]
      refine List.map_congr_left fun row hrow => ?_
      have hsaved : some row = some (rowAfter row) :=
        (savedRow_eq_self (hq.saved row hrow (by simp))).symm.trans (hrows row hrow)
      exact (Option.some.inj hsaved).symm
    rw [newRows, HStarContext.add, hq.added, List.nil_append, List.zipIdx_singleton,
      List.mapM_cons, List.mapM_nil] at hnew
    simp only [Option.bind_eq_bind, Option.bind_eq_some_iff, Option.pure_def, Option.some.injEq]
      at hnew
    obtain ⟨row, hrow, rest, rfl, rfl⟩ := hnew
    have hentity := UserEntity.toRow?_eq_some_iff.mp hrow
    refine ⟨row, ?_, ?_⟩
    · have hid := congrArg UserEntity.id hentity
      rw [← hentity]
      exact congrArg (fun id => { e with id := id }) hid.symm
    · rw [hsave]
      show ctx.table.map rowAfter ++ [row] = ctx.table ++ [row]
      rw [hkept]

/-- No row has a user id that is not found. -/
theorem rowsOf_eq_nil_iff {userId : Bytes} :
    ctx.rowsOf userId = [] ↔ ∀ row ∈ ctx.table, row.userId ≠ userId := by
  rw [rowsOf, List.take_eq_nil_iff, or_iff_right (by decide), List.filter_eq_nil_iff]
  simp only [beq_iff_eq, ne_eq]

/-- A write that is saved changes the row of the account. -/
theorem saved_write {api : ApiServer} (hc : api.context.Coherent) (hq : api.context.Quiet)
    {task : Task} {assign : UserDto → UserEntity → UserEntity} {userInfo : UserDto}
    (hwrites : task.Writes assign userInfo) {userId : Bytes} {row : UserRow}
    (huserId : userId = userInfo.userId) (hfound : api.context.rowsOf userId = [row])
    (hsave : task.toSave w api.context = some ctx)
    (hsaved : (ctx.saveChanges w.toSaveWorld).2 = true) :
    ∃ row', (assign userInfo (api.context.entityOf row)).toRow? = some row' ∧
      (ctx.saveChanges w.toSaveWorld).1.table =
        api.context.table.map fun old => if old = row then row' else old := by
  obtain ⟨found, hfinds, rfl⟩ := hwrites.finds_of_toSave hsave
  obtain rfl : found = row := by
    have hrows := hfinds.2
    rw [← huserId, hfound] at hrows
    exact (List.singleton_inj.mp hrows).symm
  obtain ⟨hmem, hkey⟩ := hfinds.mem
  obtain ⟨hok, row', hrow'⟩ := staged_saved hmem hsaved
  refine ⟨row', hrow', ?_⟩
  exact (saveChanges_staged hq.but hc (hkey ▸ hfinds.2) (assign userInfo) hok hrow').2

/-- What a save that returns makes of the table. -/
theorem saved_effect (hc : api.context.Coherent) (hq : api.context.Quiet) {task : Task}
    (hmore : (begin pbkdf2 w api request).2 = .more task)
    (hsave : task.toSave w api.context = some ctx)
    (hsaved : (ctx.saveChanges w.toSaveWorld).2 = true) :
    Effect pbkdf2 w api.context.table request true (ctx.saveChanges w.toSaveWorld).1.table := by
  cases request with
  | create q =>
    obtain ⟨hnone, rfl, -⟩ := begin_create_more hmore
    obtain rfl : api.context.add (newEntity (newUser pbkdf2 w q)) = ctx := Option.some.inj hsave
    obtain ⟨row, hrow, htable⟩ := saveChanges_added hq hsaved
    rw [htable]
    refine .created (rowsOf_eq_nil_iff.mp hnone) ?_ ?_ ?_
    · exact (Option.some.inj (congrArg UserEntity.userId hrow)).symm
    · exact (Option.some.inj (congrArg UserEntity.password hrow)).symm
    · exact (Option.some.inj (congrArg UserEntity.isAlive hrow)).symm
  | update q =>
    obtain ⟨row, hvalid, rfl⟩ := validated_eq_more_iff.mp hmore
    obtain ⟨row', hrow', htable⟩ := saved_write hc hq (.update _) hvalid.mem.2.symm hvalid.found
      hsave hsaved
    obtain ⟨hmem, huserId⟩ := hvalid.mem
    -- the entity is assigned the columns of the row that was validated, but for the password
    obtain ⟨hid, hkey⟩ := hc.entityOf_key hmem
    rw [assignUpdate_changedUser hid hkey, Option.ite_none_right_eq_some] at hrow'
    obtain ⟨hpassword, happlied⟩ := hrow'
    rw [htable, ← Option.some.inj happlied]
    exact .updated hmem huserId hvalid.alive hpassword
  | delete q =>
    obtain ⟨row, hvalid, rfl⟩ := validated_eq_more_iff.mp hmore
    obtain ⟨row', hrow', htable⟩ := saved_write hc hq (.delete _) hvalid.mem.2.symm hvalid.found
      hsave hsaved
    obtain ⟨hmem, huserId⟩ := hvalid.mem
    have hdead : row' = { row with isAlive := ascii "N" } := by
      rw [hc.entityOf_quiet hq hmem] at hrow'
      exact (Option.some.inj hrow').symm
    rw [htable, hdead]
    exact .deleted hmem huserId
  | login q =>
    obtain ⟨row, -, rfl⟩ := validated_eq_more_iff.mp hmore
    cases hsave
  | getUser => cases hmore

/-- **What a request does.** In a context where nothing is pending, a request whose save
does not throw has its effect on the table and leaves nothing pending. -/
theorem handle_effect (hc : api.context.Coherent) (hq : api.context.Quiet)
    (hreturns : ∀ ctx ∈ reachesSave pbkdf2 w api request,
      (ctx.saveChanges w.toSaveWorld).2 = true) :
    (handle pbkdf2 w api request).1.context.Quiet ∧
      Effect pbkdf2 w api.context.table request (handle pbkdf2 w api request).2.succeeded
        (handle pbkdf2 w api request).1.context.table := by
  cases hreach : reachesSave pbkdf2 w api request with
  | none =>
    obtain ⟨hquiet, htable⟩ := handle_of_not_reaches hreach
      (P := fun c => c.Quiet ∧ c.table = api.context.table) ⟨hq, rfl⟩
      fun ctx row h _ => ⟨h.1.track row, (ctx.track_table row).trans h.2⟩
    refine ⟨hquiet, ?_⟩
    rw [htable]
    refine .unchanged fun hsucceeded => ?_
    cases hread : request.isRead with
    | true => rfl
    | false => exact (not_succeeded_of_not_reaches hreach hread).symm.trans hsucceeded
  | some ctx =>
    have hsaved := hreturns ctx hreach
    obtain ⟨task, hbegin, hsave, -⟩ := reachesSave_cases pbkdf2 hreach
    -- the save returns, so the request ends in the success that follows it
    have hhandle : handle pbkdf2 w api request =
        ({ api with context := (ctx.saveChanges w.toSaveWorld).1 },
          .done (respond .success task)) := by
      rw [handle, hbegin]
      show next w (proceed w api task) = _
      rw [proceed_of_toSave hsave, hsaved]
      rfl
    rw [hhandle]
    refine ⟨quiet_of_saved hsaved, ?_⟩
    show Effect pbkdf2 w api.context.table request (respond .success task).isOk
      (ctx.saveChanges w.toSaveWorld).1.table
    rw [respond_isOk, decide_eq_true rfl]
    exact saved_effect hc hq (congrArg Prod.snd hbegin) hsave hsaved

end Effect

/-! ## What the requests that succeeded say of an account -/

/-- The password that a request sets for an account. -/
def Request.setsPassword (user : Bytes) : Request → Option Bytes
  | .create q => if q.userId = user then some q.password else none
  | .update q => if q.userId = user ∧ q.toBePassword ≠ [] then some q.toBePassword else none
  | .delete _ | .login _ | .getUser _ => none

/-- The request deletes the account. -/
def Request.deletes (user : Bytes) : Request → Prop
  | .delete q => q.userId = user
  | .create _ | .update _ | .login _ | .getUser _ => False

/-- The password that the latest of these requests has set. -/
def latestPassword (user : Bytes) (done : List Request) : Option Bytes :=
  (done.filterMap (Request.setsPassword user)).getLast?

theorem latestPassword_concat (user : Bytes) (done : List Request) (request : Request) :
    latestPassword user (done ++ [request]) =
      (request.setsPassword user).or (latestPassword user done) := by
  rw [latestPassword, latestPassword, List.filterMap_append, List.getLast?_append]
  cases hset : request.setsPassword user <;> simp [hset]

theorem exists_mem_concat {α : Type} {P : α → Prop} {l : List α} {a : α} :
    (∃ x ∈ l ++ [a], P x) ↔ P a ∨ ∃ x ∈ l, P x := by
  simp only [List.mem_append, List.mem_singleton, or_and_right, exists_or, exists_eq_left]
  exact or_comm

/-- The table records what was done: the latest password of each account, and whether the
account was deleted. -/
structure Recorded (done : List Request) (table : List UserRow) : Prop where
  distinct : (table.map (·.userId)).Nodup
  password : ∀ row ∈ table, ∃ salt password, latestPassword row.userId done = some password ∧
    row.password = PasswordHelper.hashPassword pbkdf2 salt password
  deleted : ∀ row ∈ table, row.isAlive = ascii "N" ↔ ∃ request ∈ done, request.deletes row.userId
  known : ∀ request ∈ done, ∀ user, (request.setsPassword user).isSome ∨ request.deletes user →
    ∃ row ∈ table, row.userId = user

namespace Recorded

variable {pbkdf2} {w : World} {done : List Request} {table table' : List UserRow}
  {request : Request} {succeeded : Bool}

/-- Nothing was done to an account that no row has. -/
theorem latestPassword_eq_none (h : Recorded pbkdf2 done table) {user : Bytes}
    (hnew : ∀ row ∈ table, row.userId ≠ user) : latestPassword user done = none := by
  rw [latestPassword, List.getLast?_eq_none_iff, List.filterMap_eq_nil_iff]
  intro request hrequest
  rw [← Option.not_isSome_iff_eq_none]
  intro hsets
  obtain ⟨row, hrow, huserId⟩ := h.known request hrequest user (Or.inl hsets)
  exact hnew row hrow huserId

/-- A request that sets no password and deletes nothing. -/
theorem read (h : Recorded pbkdf2 done table) (hread : request.isRead = true) :
    Recorded pbkdf2 (done ++ [request]) table := by
  have hsets : ∀ user, request.setsPassword user = none := by
    intro user
    cases request <;> first | rfl | cases hread
  have hdeletes : ∀ user, ¬ request.deletes user := by
    intro user
    cases request <;> first | exact id | cases hread
  refine ⟨h.distinct, fun row hrow => ?_, fun row hrow => ?_, fun r hr user htouched => ?_⟩
  · rw [latestPassword_concat, hsets, Option.none_or]
    exact h.password row hrow
  · rw [h.deleted row hrow, exists_mem_concat, or_iff_right (hdeletes _)]
  · rcases List.mem_append.mp hr with hr | hr
    · exact h.known r hr user htouched
    · rw [List.mem_singleton.mp hr, hsets] at htouched
      exact absurd (htouched.resolve_left (by simp)) (hdeletes user)

/-- A request that creates the row of an account that it concerns. -/
theorem create (h : Recorded pbkdf2 done table) {q : CreateUserRequest} {row : UserRow}
    (hnew : ∀ old ∈ table, old.userId ≠ q.userId) (huserId : row.userId = q.userId)
    (hpassword : row.password = PasswordHelper.hashPassword pbkdf2 w.salt q.password)
    (halive : row.isAlive = ascii "Y") :
    Recorded pbkdf2 (done ++ [.create q]) (table ++ [row]) := by
  have hself : Request.setsPassword q.userId (.create q) = some q.password := if_pos rfl
  have hother : ∀ user, q.userId ≠ user → Request.setsPassword user (.create q) = none :=
    fun user hne => if_neg hne
  refine ⟨?_, ?_, ?_, ?_⟩
  · rw [List.map_append, List.nodup_append]
    refine ⟨h.distinct, List.nodup_singleton _, fun userId hmem userId' hrow heq => ?_⟩
    obtain ⟨old, hold, rfl⟩ := List.mem_map.mp hmem
    exact hnew old hold (heq.trans ((List.mem_singleton.mp hrow).trans huserId))
  · intro x hx
    rw [latestPassword_concat]
    rcases List.mem_append.mp hx with hx | hx
    · rw [hother _ (hnew x hx).symm, Option.none_or]
      exact h.password x hx
    · rw [List.mem_singleton.mp hx, huserId, hself, Option.some_or]
      exact ⟨w.salt, q.password, rfl, hpassword⟩
  · intro x hx
    rw [exists_mem_concat, or_iff_right (show ¬ Request.deletes x.userId (.create q) from id)]
    rcases List.mem_append.mp hx with hx | hx
    · exact h.deleted x hx
    · rw [List.mem_singleton.mp hx, halive, huserId]
      refine ⟨fun heq => absurd heq (by decide), ?_⟩
      rintro ⟨r, hr, hdeletes⟩
      -- no earlier request has touched a user id that no row has
      obtain ⟨old, hold, heq⟩ := h.known r hr q.userId (Or.inr hdeletes)
      exact absurd heq (hnew old hold)
  · intro r hr user htouched
    rcases List.mem_append.mp hr with hr | hr
    · obtain ⟨old, hold, heq⟩ := h.known r hr user htouched
      exact ⟨old, List.mem_append_left _ hold, heq⟩
    · rw [List.mem_singleton.mp hr] at htouched
      refine ⟨row, List.mem_append_right _ (List.mem_singleton_self row), huserId.trans ?_⟩
      by_contra hne
      rw [hother user hne] at htouched
      exact htouched.elim (by simp) id

/-- A request that changes the row of an account that it concerns. -/
theorem change (h : Recorded pbkdf2 done table) {row row' : UserRow} (hmem : row ∈ table)
    (huserId : row'.userId = row.userId)
    (hother : ∀ user ≠ row.userId, request.setsPassword user = none ∧ ¬ request.deletes user)
    (hpassword : ∃ salt password,
      (request.setsPassword row.userId).or (latestPassword row.userId done) = some password ∧
        row'.password = PasswordHelper.hashPassword pbkdf2 salt password)
    (hdeleted : row'.isAlive = ascii "N" ↔
      request.deletes row.userId ∨ row.isAlive = ascii "N") :
    Recorded pbkdf2 (done ++ [request])
      (table.map fun old => if old = row then row' else old) := by
  -- the row keeps its user id, so every row is still found by the same one
  have hids : (table.map fun old => if old = row then row' else old).map (·.userId) =
      table.map (·.userId) := by
    rw [List.map_map]
    refine List.map_congr_left fun old _ => ?_
    show (if old = row then row' else old).userId = old.userId
    split
    · rename_i heq
      rw [heq, huserId]
    · rfl
  have hapart : ∀ old ∈ table, old ≠ row → old.userId ≠ row.userId := fun old hold hne heq =>
    hne (List.inj_on_of_nodup_map h.distinct hold hmem heq)
  refine ⟨hids ▸ h.distinct, ?_, ?_, ?_⟩
  · intro x hx
    obtain ⟨old, hold, rfl⟩ := List.mem_map.mp hx
    by_cases heq : old = row
    · rw [if_pos heq, huserId, latestPassword_concat]
      exact hpassword
    · rw [if_neg heq, latestPassword_concat, (hother _ (hapart old hold heq)).1, Option.none_or]
      exact h.password old hold
  · intro x hx
    obtain ⟨old, hold, rfl⟩ := List.mem_map.mp hx
    rw [exists_mem_concat]
    by_cases heq : old = row
    · rw [if_pos heq, huserId, hdeleted, h.deleted row hmem]
    · rw [if_neg heq, h.deleted old hold, or_iff_right (hother _ (hapart old hold heq)).2]
  · intro r hr user htouched
    have huser : user ∈ table.map (·.userId) := by
      rcases List.mem_append.mp hr with hr | hr
      · obtain ⟨old, hold, rfl⟩ := h.known r hr user htouched
        exact List.mem_map_of_mem hold
      · rw [List.mem_singleton.mp hr] at htouched
        by_cases heq : user = row.userId
        · rw [heq]
          exact List.mem_map_of_mem hmem
        · obtain ⟨hsets, hdeletes⟩ := hother user heq
          rw [hsets] at htouched
          exact absurd (htouched.resolve_left (by simp)) hdeletes
    rw [← hids] at huser
    exact List.mem_map.mp huser

/-- **Step lemma.** -/
theorem effect (h : Recorded pbkdf2 done table)
    (heffect : Effect pbkdf2 w table request succeeded table') :
    Recorded pbkdf2 (if succeeded then done ++ [request] else done) table' := by
  cases heffect with
  | unchanged hread =>
    split
    · rename_i hsucceeded
      exact h.read (hread hsucceeded)
    · exact h
  | created hnew huserId hpassword halive => exact h.create hnew huserId hpassword halive
  | @updated q row hmem huserId halive hpassword =>
    have hsets : Request.setsPassword row.userId (.update q) = some q.toBePassword :=
      if_pos ⟨huserId.symm, hpassword⟩
    refine h.change hmem rfl (fun user hne => ⟨if_neg ?_, id⟩) ⟨w.salt, q.toBePassword, ?_, ?_⟩ ?_
    · rintro ⟨heq, -⟩
      exact hne (heq.symm.trans huserId.symm)
    · rw [hsets, Option.some_or]
    · exact if_pos hpassword
    · exact (or_iff_right id).symm
  | @deleted q row hmem huserId =>
    obtain ⟨salt, password, hlatest, hhash⟩ := h.password row hmem
    refine h.change hmem rfl (fun user hne => ⟨rfl, ?_⟩) ⟨salt, password, hlatest, hhash⟩ ?_
    · intro heq
      exact hne (heq.symm.trans huserId.symm)
    · exact ⟨fun _ => Or.inl huserId.symm, fun _ => rfl⟩

end Recorded

/-! ## Runs -/

/-- The requests that succeed when they are served one after the other. -/
def successes : ApiServer → List Call → List Request
  | _, [] => []
  | api, (w, request) :: calls =>
    if (handle pbkdf2 w api request).2.succeeded then
      request :: successes (handle pbkdf2 w api request).1 calls
    else successes (handle pbkdf2 w api request).1 calls

/-- No `SaveChangesAsync` of the requests throws. -/
def WritesReturn : ApiServer → List Call → Prop
  | _, [] => True
  | api, (w, request) :: calls =>
    (∀ ctx ∈ reachesSave pbkdf2 w api request, (ctx.saveChanges w.toSaveWorld).2 = true) ∧
      WritesReturn (handle pbkdf2 w api request).1 calls

instance decidableWritesReturn : ∀ api calls, Decidable (WritesReturn pbkdf2 api calls)
  | _, [] => .isTrue trivial
  | api, (w, request) :: calls =>
    have := decidableWritesReturn (handle pbkdf2 w api request).1 calls
    inferInstanceAs (Decidable (_ ∧ _))

/-- What the server holds after the requests of `done`, with nothing pending. -/
structure Settled (done : List Request) (api : ApiServer) : Prop where
  coherent : api.context.Coherent
  quiet : api.context.Quiet
  recorded : Recorded pbkdf2 done api.context.table

section Runs

variable {pbkdf2} {w : World} {api : ApiServer} {request : Request} {calls : List Call}
  {done : List Request}

/-- An empty database. -/
theorem settled_start (redis : Redis) : Settled pbkdf2 [] (.start [] redis) where
  coherent := Coherent.fresh List.nodup_nil
  quiet := Quiet.fresh []
  recorded := {
    distinct := List.nodup_nil
    password := fun _ h => by cases h
    deleted := fun _ h => by cases h
    known := fun _ h => by cases h }

/-- **Step lemma.** -/
theorem Settled.handle (h : Settled pbkdf2 done api)
    (hreturns : ∀ ctx ∈ reachesSave pbkdf2 w api request,
      (ctx.saveChanges w.toSaveWorld).2 = true) :
    Settled pbkdf2 (if (handle pbkdf2 w api request).2.succeeded then done ++ [request] else done)
      (handle pbkdf2 w api request).1 := by
  obtain ⟨hquiet, heffect⟩ := handle_effect h.coherent h.quiet hreturns
  exact ⟨coherent_handle pbkdf2 w h.coherent request, hquiet, h.recorded.effect heffect⟩

/-- **Run lemma.** -/
theorem Settled.serve (h : Settled pbkdf2 done api) (hreturn : WritesReturn pbkdf2 api calls) :
    Settled pbkdf2 (done ++ successes pbkdf2 api calls) (serve pbkdf2 api calls) := by
  induction calls generalizing api done with
  | nil => rwa [successes, List.append_nil]
  | cons call calls ih =>
    obtain ⟨w, request⟩ := call
    have hnext := ih (h.handle hreturn.1) hreturn.2
    rw [successes]
    split
    · rename_i hsucceeded
      rw [if_pos hsucceeded, List.append_assoc] at hnext
      exact hnext
    · rename_i hfailed
      rw [if_neg hfailed] at hnext
      exact hnext

/-- **Which credentials are accepted.** -/
theorem Settled.accepts_iff (h : Settled pbkdf2 done api)
    (hcollision : ∀ salt, Function.Injective (pbkdf2 · salt)) {user password : Bytes} :
    (∃ userInfo, validateUserCredentials pbkdf2 w api.context user password =
      .ok (.success, some userInfo)) ↔
      w.readOk = true ∧ latestPassword user done = some password ∧
        ∀ request ∈ done, ¬ request.deletes user := by
  constructor
  · rintro ⟨userInfo, haccepted⟩
    obtain ⟨row, hvalid, -⟩ := validateUserCredentials_eq_iff.mp haccepted
    obtain ⟨hmem, rfl⟩ := hvalid.mem
    -- the hash in the row is the one of the latest password
    obtain ⟨salt, stored, hlatest, hhash⟩ := h.recorded.password row hmem
    have hverified := hvalid.verified
    rw [hhash, PasswordHelper.verifyPassword_iff (hcollision salt)] at hverified
    refine ⟨hvalid.readOk, hlatest.trans (congrArg some hverified.symm), fun r hr hdeletes => ?_⟩
    exact hvalid.alive ((h.recorded.deleted row hmem).mpr ⟨r, hr, hdeletes⟩)
  · rintro ⟨hread, hlatest, hkept⟩
    have hknown : ∃ row ∈ api.context.table, row.userId = user := by
      by_contra hnone
      push Not at hnone
      rw [h.recorded.latestPassword_eq_none hnone] at hlatest
      cases hlatest
    obtain ⟨row, hmem, rfl⟩ := hknown
    obtain ⟨salt, stored, hstored, hhash⟩ := h.recorded.password row hmem
    obtain rfl := Option.some.inj (hstored.symm.trans hlatest)
    refine ⟨_, validateUserCredentials_eq_iff.mpr ⟨row, ⟨hread, ?_, fun hdead => ?_, ?_⟩, rfl⟩⟩
    · rw [h.coherent.rowsOf_eq_iff hmem]
      exact fun row' hrow' heq => List.inj_on_of_nodup_map h.recorded.distinct hrow' hmem heq
    · obtain ⟨r, hr, hdeletes⟩ := (h.recorded.deleted row hmem).mp hdead
      exact hkept r hr hdeletes
    · rw [hhash, PasswordHelper.verifyPassword_iff (hcollision salt)]

/-- An account for which a password was set has a row and was not deleted before. -/
theorem Settled.sets (h : Settled pbkdf2 done api) {table' : List UserRow}
    (heffect : Effect pbkdf2 w api.context.table request true table') {user password : Bytes}
    (hsets : request.setsPassword user = some password) :
    (∃ row ∈ table', row.userId = user) ∧ ∀ r ∈ done, ¬ r.deletes user := by
  cases heffect with
  | unchanged hread =>
    cases request <;> first | cases hsets | cases hread rfl
  | @created q row hnew huserId =>
    obtain ⟨huser, -⟩ := Option.ite_none_right_eq_some.mp hsets
    refine ⟨⟨row, List.mem_append_right _ (List.mem_singleton_self row), huserId.trans huser⟩, ?_⟩
    intro r hr hdeletes
    obtain ⟨old, hold, heq⟩ := h.recorded.known r hr user (Or.inr hdeletes)
    exact hnew old hold (heq.trans huser.symm)
  | @updated q row hmem huserId halive =>
    obtain ⟨⟨huser, -⟩, -⟩ := Option.ite_none_right_eq_some.mp hsets
    have hrow : row.userId = user := huserId.trans huser
    refine ⟨⟨_, List.mem_map_of_mem hmem, ?_⟩, fun r hr hdeletes => ?_⟩
    · rw [if_pos rfl]
      exact hrow
    · exact halive ((h.recorded.deleted row hmem).mpr ⟨r, hr, hrow ▸ hdeletes⟩)
  | deleted => cases hsets

/-- Rows keep their user ids. -/
theorem Effect.keeps {table table' : List UserRow} {succeeded : Bool}
    (h : Effect pbkdf2 w table request succeeded table') {row : UserRow} (hmem : row ∈ table) :
    ∃ row' ∈ table', row'.userId = row.userId := by
  have hchange : ∀ {old new : UserRow}, new.userId = old.userId →
      ∃ row' ∈ table.map fun x => if x = old then new else x, row'.userId = row.userId := by
    intro old new huserId
    refine ⟨_, List.mem_map_of_mem hmem, ?_⟩
    split
    · rename_i heq
      rw [huserId, heq]
    · rfl
  cases h with
  | unchanged => exact ⟨row, hmem, rfl⟩
  | created => exact ⟨row, List.mem_append_left _ hmem, rfl⟩
  | updated => exact hchange rfl
  | deleted => exact hchange rfl

/-- A creation that succeeds finds no row with the user id. -/
theorem Effect.creates {table table' : List UserRow} {q : CreateUserRequest}
    (h : Effect pbkdf2 w table (.create q) true table') : ∀ row ∈ table, row.userId ≠ q.userId := by
  cases h with
  | unchanged hread => cases hread rfl
  | created hnew => exact hnew

/-- The user id of a row is never given to another account. -/
theorem Settled.not_created (h : Settled pbkdf2 done api)
    (hreturn : WritesReturn pbkdf2 api calls) {user : Bytes}
    (huser : ∃ row ∈ api.context.table, row.userId = user) {q : CreateUserRequest}
    (hq : .create q ∈ successes pbkdf2 api calls) : q.userId ≠ user := by
  induction calls generalizing api done with
  | nil => cases hq
  | cons call calls ih =>
    obtain ⟨w, request⟩ := call
    have heffect := (handle_effect h.coherent h.quiet hreturn.1).2
    obtain ⟨row, hmem, rfl⟩ := huser
    -- the induction is on the requests: the row is there before each of them
    have hlater := fun hq => ih (h.handle hreturn.1) hreturn.2 (heffect.keeps hmem) hq
    rw [successes] at hq
    split at hq
    · rename_i hsucceeded
      rcases List.mem_cons.mp hq with rfl | hq
      · rw [hsucceeded] at heffect
        exact (heffect.creates row hmem).symm
      · exact hlater hq
    · exact hlater hq

theorem writesReturn_append {before after : List Call} :
    WritesReturn pbkdf2 api (before ++ after) ↔
      WritesReturn pbkdf2 api before ∧ WritesReturn pbkdf2 (serve pbkdf2 api before) after := by
  induction before generalizing api with
  | nil => simp only [List.nil_append, WritesReturn, serve, true_and]
  | cons call before ih => rw [List.cons_append, WritesReturn, WritesReturn, serve, ih, and_assoc]

/-- Requests that set no password of an account leave the latest one. -/
theorem latestPassword_append {user : Bytes} {later : List Request}
    (h : ∀ r ∈ later, r.setsPassword user = none) :
    latestPassword user (done ++ later) = latestPassword user done := by
  have hnone : later.filterMap (Request.setsPassword user) = [] :=
    List.filterMap_eq_nil_iff.mpr h
  rw [latestPassword, List.filterMap_append, hnone, List.append_nil, latestPassword]

end Runs

/-- **Credentials.** When requests are served one after the other on an empty database and
no write throws, only the latest password that was set is accepted, and only for an account
that is there and not deleted. Once a request has set a password, it is accepted until an
update or a deletion of the account succeeds. -/
theorem credentials_sound (hcollision : ∀ salt, Function.Injective (pbkdf2 · salt))
    {redis : Redis} {calls : List Call}
    (hreturn : WritesReturn pbkdf2 (.start [] redis) calls) :
    (∀ (w : World) (user password : Bytes) (userInfo : UserDto),
      validateUserCredentials pbkdf2 w (serve pbkdf2 (.start [] redis) calls).context user
        password = .ok (.success, some userInfo) →
      (∃ row ∈ (serve pbkdf2 (.start [] redis) calls).context.table,
        row.userId = user ∧ row.isAlive ≠ ascii "N") ∧
      (∀ request ∈ successes pbkdf2 (.start [] redis) calls, ¬ request.deletes user) ∧
      latestPassword user (successes pbkdf2 (.start [] redis) calls) = some password) ∧
    ∀ before w request after user password, calls = before ++ (w, request) :: after →
      request.setsPassword user = some password →
      (handle pbkdf2 w (serve pbkdf2 (.start [] redis) before) request).2.succeeded = true →
      (∀ later ∈ successes pbkdf2
        (handle pbkdf2 w (serve pbkdf2 (.start [] redis) before) request).1 after,
        later.account ≠ some user) →
      ∀ w : World, w.readOk = true → ∃ userInfo,
        validateUserCredentials pbkdf2 w (serve pbkdf2 (.start [] redis) calls).context user
          password = .ok (.success, some userInfo) := by
  have hend := (settled_start redis).serve hreturn
  rw [List.nil_append] at hend
  refine ⟨fun w user password userInfo haccepted => ?_, ?_⟩
  · obtain ⟨-, hlatest, hkept⟩ := (hend.accepts_iff hcollision).mp ⟨userInfo, haccepted⟩
    obtain ⟨row, hvalid, -⟩ := validateUserCredentials_eq_iff.mp haccepted
    exact ⟨⟨row, hvalid.mem.1, hvalid.mem.2, hvalid.alive⟩, hkept, hlatest⟩
  · rintro before w request after user password rfl hsets hsucceeded hlater w' hread
    -- the state before the request, after it and at the end
    obtain ⟨hbefore, hrequest, hafter⟩ := writesReturn_append.mp hreturn
    have hold := (settled_start redis).serve hbefore
    rw [List.nil_append] at hold
    have hset := hold.handle hrequest
    have heffect := (handle_effect hold.coherent hold.quiet hrequest).2
    rw [hsucceeded] at heffect
    rw [if_pos hsucceeded] at hset
    obtain ⟨hrow, halive⟩ := hold.sets heffect hsets
    have hfinal := hset.serve hafter
    have hserve : serve pbkdf2 (.start [] redis) (before ++ (w, request) :: after) =
        serve pbkdf2 (handle pbkdf2 w (serve pbkdf2 (.start [] redis) before) request).1 after := by
      rw [serve_append, serve]
    rw [hserve, hfinal.accepts_iff hcollision]
    -- the later requests neither set the password nor delete the account
    have hquiet : ∀ later ∈ successes pbkdf2
        (handle pbkdf2 w (serve pbkdf2 (.start [] redis) before) request).1 after,
        later.setsPassword user = none ∧ ¬ later.deletes user := by
      intro later hmem
      have haccount := hlater later hmem
      cases later with
      | create q => exact ⟨if_neg (hset.not_created hafter hrow hmem), id⟩
      | update q => exact ⟨if_neg fun h => haccount (congrArg some h.1), id⟩
      | delete q => exact ⟨rfl, fun h => haccount (congrArg some h)⟩
      | login | getUser => exact ⟨rfl, id⟩
    refine ⟨hread, ?_, fun r hr => ?_⟩
    · rw [latestPassword_append fun later hmem => (hquiet later hmem).1, latestPassword_concat,
        hsets, Option.some_or]
    · rcases List.mem_append.mp hr with hr | hr
      · rcases List.mem_append.mp hr with hr | hr
        · exact halive r hr
        · rw [List.mem_singleton.mp hr]
          intro hdeletes
          cases request <;> first | cases hsets | exact hdeletes
      · exact (hquiet r hr).2

/-! ## A session -/

/-- PBKDF2 on the passwords and the salt of the examples, without collisions elsewhere. -/
def distinctPbkdf2 : Pbkdf2 := fun password s =>
  if s = salt then (derivedKeys.lookup password).getD (0 :: password) else 0 :: password

theorem mem_derivedKeys {password key : Bytes} (h : derivedKeys.lookup password = some key) :
    (password, key) ∈ derivedKeys := by
  obtain ⟨before, rest, heq, -⟩ := List.lookup_eq_some_iff.mp h
  rw [heq]
  exact List.mem_append_right _ List.mem_cons_self

theorem distinctPbkdf2_injective (s : Bytes) : Function.Injective (distinctPbkdf2 · s) := by
  have hkey : ∀ p ∈ derivedKeys, ∀ password : Bytes, p.2 ≠ 0 :: password := by
    intro p hp password h
    have hhead : ∀ p ∈ derivedKeys, p.2.head? ≠ some 0 := by decide
    exact hhead p hp (by rw [h]; rfl)
  have hdistinct : ∀ p ∈ derivedKeys, ∀ q ∈ derivedKeys, p.2 = q.2 → p.1 = q.1 := by decide
  intro password password' heq
  by_cases hsalt : s = salt
  · simp only [distinctPbkdf2, if_pos hsalt] at heq
    cases hfirst : derivedKeys.lookup password with
    | none =>
      cases hsecond : derivedKeys.lookup password' with
      | none =>
        rw [hfirst, hsecond] at heq
        exact (List.cons.inj heq).2
      | some key =>
        rw [hfirst, hsecond] at heq
        exact absurd heq.symm (hkey _ (mem_derivedKeys hsecond) password)
    | some key =>
      cases hsecond : derivedKeys.lookup password' with
      | none =>
        rw [hfirst, hsecond] at heq
        exact absurd heq (hkey _ (mem_derivedKeys hfirst) password')
      | some key' =>
        rw [hfirst, hsecond] at heq
        exact hdistinct _ (mem_derivedKeys hfirst) _ (mem_derivedKeys hsecond) heq
  · simp only [distinctPbkdf2, if_neg hsalt] at heq
    exact (List.cons.inj heq).2

def annJoins : Request :=
  .create {
    userId := ascii "ann"
    password := ascii "secret"
    username := ascii "Ann"
    email := ascii "ann@chat" }

/-- `ann` is created, logs in with a wrong and then with the right password. -/
def annJoinsAndLogsIn : List Call :=
  [({ salt }, annJoins), ({}, .login { userId := ascii "ann", password := ascii "other" }),
    ({ sessionId := ascii "s" }, .login { userId := ascii "ann", password := ascii "secret" })]

theorem credentials_sound_ann :
    latestPassword (ascii "ann")
        (successes distinctPbkdf2 (.start [] fun _ => none) annJoinsAndLogsIn) =
        some (ascii "secret") ∧
      ∃ userInfo, validateUserCredentials distinctPbkdf2 {}
        (serve distinctPbkdf2 (.start [] fun _ => none) annJoinsAndLogsIn).context (ascii "ann")
        (ascii "secret") = .ok (.success, some userInfo) := by
  obtain ⟨hsound, hcomplete⟩ := @credentials_sound distinctPbkdf2 distinctPbkdf2_injective
    (fun _ => none) annJoinsAndLogsIn (by decide)
  obtain ⟨userInfo, haccepted⟩ := hcomplete [] { salt } annJoins _ (ascii "ann") (ascii "secret")
    rfl rfl (by decide) (by decide) {} rfl
  exact ⟨(hsound _ _ _ _ haccepted).2.2, userInfo, haccepted⟩

end BoostChat.Api
