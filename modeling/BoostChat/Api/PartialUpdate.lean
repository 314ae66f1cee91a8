import BoostChat.Api.FailedWrites
import BoostChat.Api.LostUpdates

/-!
# Partial updates

`UpdateUser` of the service changes the fields that the request sets, in the copy of the
row that `ValidateUserCredentials` returns, and the repository writes that copy back.

* `partial_update` — when the fields of the request, and only these, end up in the row;
* `annForgetsPassword_fails` — the copy has no password, so a request that sets no new
  password cannot be saved.
-/

namespace BoostChat.Api

open HStarContext UserRepository Lib

variable (pbkdf2 : Pbkdf2)

/-- The row that a request is to make of a row: a field that it leaves empty stays. -/
def UpdateUserRequest.appliedTo (w : World) (request : UpdateUserRequest) (row : UserRow) :
    UserRow :=
  { row with
    password :=
      if request.toBePassword ≠ [] then
        PasswordHelper.hashPassword pbkdf2 w.salt request.toBePassword
      else row.password
    username := if request.toBeUsername ≠ [] then request.toBeUsername else row.username
    email := if request.toBeEmail ≠ [] then request.toBeEmail else row.email }

/-- The request succeeds, and the row has changed in the fields that it sets and no other. -/
structure UpdatesPartially (w : World) (api : ApiServer) (request : UpdateUserRequest)
    (row : UserRow) : Prop where
  succeeds : (handle pbkdf2 w api (.update request)).2 =
    .done (.ok { status := .success, message := ascii "User updated successfully" })
  written : ∀ row', (row' ∈ (handle pbkdf2 w api (.update request)).1.context.table ∧
    row'.id = row.id) ↔ row' = request.appliedTo pbkdf2 w row

/-- No pending entity lacks a value, apart perhaps from that of a row. -/
structure HStarContext.CompleteBut (ctx : HStarContext) (row : UserRow) : Prop where
  saved : ∀ row' ∈ ctx.table, row' ≠ row → ctx.savedRow row' ≠ none
  added : ∀ e ∈ ctx.added, e.toRow? ≠ none

section Request

variable {pbkdf2} {w : World} {api : ApiServer} {request : UpdateUserRequest} {row : UserRow}

/-- **The two copies.** All fields come back from them, but the password only when the
request sets a new one. -/
theorem assignUpdate_changedUser {e : UserEntity} (hid : e.id = row.id)
    (huserId : e.userId = some row.userId) :
    (assignUpdate (changedUser pbkdf2 w request (userInfoOf row)) e).toRow? =
      if request.toBePassword ≠ [] then some (request.appliedTo pbkdf2 w row) else none := by
  by_cases hpassword : request.toBePassword = []
  · simp [assignUpdate, changedUser, userInfoOf, UserEntity.toRow?, hpassword]
  · have husername : (if request.toBeUsername ≠ [] then some request.toBeUsername
        else some row.username) =
      some (if request.toBeUsername ≠ [] then request.toBeUsername else row.username) :=
      (apply_ite some _ _ _).symm
    have hemail : (if request.toBeEmail ≠ [] then some request.toBeEmail else some row.email) =
      some (if request.toBeEmail ≠ [] then request.toBeEmail else row.email) :=
      (apply_ite some _ _ _).symm
    rw [if_pos hpassword, UserEntity.toRow?_eq_some_iff]
    simp only [assignUpdate, changedUser, userInfoOf, UserEntity.ofRow,
      UpdateUserRequest.appliedTo, if_pos hpassword, hid, huserId, husername, hemail]

variable (pbkdf2 w request row) in
/-- The context that the update of an account hands to `SaveChangesAsync`. -/
def stagedUpdate (ctx : HStarContext) : HStarContext :=
  (ctx.track row).update row.id (assignUpdate (changedUser pbkdf2 w request (userInfoOf row)))

variable {ctx : HStarContext}

@[simp] theorem stagedUpdate_table : (stagedUpdate pbkdf2 w request row ctx).table = ctx.table :=
  track_table row

@[simp] theorem stagedUpdate_added : (stagedUpdate pbkdf2 w request row ctx).added = ctx.added :=
  track_added row

/-- What the update makes of the rows. -/
theorem stagedUpdate_savedRow (hc : ctx.Coherent) (hrow : row ∈ ctx.table) {x : UserRow}
    (hx : x ∈ ctx.table) :
    (stagedUpdate pbkdf2 w request row ctx).savedRow x =
      if x = row then
        if request.toBePassword ≠ [] then some (request.appliedTo pbkdf2 w row) else none
      else ctx.savedRow x := by
  obtain ⟨hid, huserId⟩ := hc.entityOf_key hrow
  rw [stagedUpdate, hc.staged_savedRow hrow hx, assignUpdate_changedUser hid huserId]

/-- The update is saved when the entity of the account, and all that is pending besides it,
have their values. -/
theorem stagedUpdate_saves_iff (hc : ctx.Coherent) (hrow : row ∈ ctx.table)
    (hok : w.saveOk = true) :
    ((stagedUpdate pbkdf2 w request row ctx).saveChanges w.toSaveWorld).2 = true ↔
      request.toBePassword ≠ [] ∧ ctx.CompleteBut row := by
  rw [saveChanges_true_iff, Savable, stagedUpdate_table, stagedUpdate_added]
  constructor
  · rintro ⟨-, hsaved, hadded⟩
    have hown := hsaved row hrow
    rw [stagedUpdate_savedRow hc hrow hrow, if_pos rfl] at hown
    refine ⟨fun hempty => hown (if_neg (not_not.mpr hempty)), fun x hx hne => ?_, hadded⟩
    have hother := hsaved x hx
    rwa [stagedUpdate_savedRow hc hrow hx, if_neg hne] at hother
  · rintro ⟨hpassword, hcomplete⟩
    refine ⟨hok, fun x hx => ?_, hcomplete.added⟩
    rw [stagedUpdate_savedRow hc hrow hx, if_pos hpassword]
    split
    · exact Option.some_ne_none _
    · rename_i hne
      exact hcomplete.saved x hx hne

/-- Once it is saved, the row with the key of the account is the one that was asked for. -/
theorem stagedUpdate_written (hc : ctx.Coherent) (hrow : row ∈ ctx.table)
    (hsaves : ((stagedUpdate pbkdf2 w request row ctx).saveChanges w.toSaveWorld).2 = true)
    (row' : UserRow) :
    (row' ∈ ((stagedUpdate pbkdf2 w request row ctx).saveChanges w.toSaveWorld).1.table ∧
      row'.id = row.id) ↔ row' = request.appliedTo pbkdf2 w row := by
  have hcoherent : (stagedUpdate pbkdf2 w request row ctx).Coherent :=
    (hc.track hrow).update row.id (fun _ => rfl) fun _ => rfl
  have hcoherent' := hcoherent.saveChanges w.toSaveWorld
  -- the row of the account is among those that were saved
  have hmem : request.appliedTo pbkdf2 w row ∈
      ((stagedUpdate pbkdf2 w request row ctx).saveChanges w.toSaveWorld).1.table := by
    rcases saveChanges_cases (stagedUpdate pbkdf2 w request row ctx) w.toSaveWorld with
      hfail | ⟨rowAfter, new, -, hrows, -, hsave⟩
    · rw [hfail] at hsaves
      cases hsaves
    · rw [stagedUpdate_table] at hrows
      have hown := hrows row hrow
      rw [stagedUpdate_savedRow hc hrow hrow, if_pos rfl, Option.ite_none_right_eq_some] at hown
      rw [hsave, Option.some.inj hown.2]
      exact List.mem_append_left _ (List.mem_map_of_mem (by rwa [stagedUpdate_table]))
  constructor
  · rintro ⟨hmem', hid⟩
    exact hcoherent'.eq_of_id hmem' hmem hid
  · rintro rfl
    exact ⟨hmem, rfl⟩

/-- An update of an account whose credentials are valid is answered by the save. -/
theorem handle_update_eq (h : Validates pbkdf2 w api.context request.userId request.password row)
    (hquery : w.queryOk = true) :
    handle pbkdf2 w api (.update request) =
      ({ api with
          context :=
            ((stagedUpdate pbkdf2 w request row api.context).saveChanges w.toSaveWorld).1 },
        .done (respond (saveStatus
          ((stagedUpdate pbkdf2 w request row api.context).saveChanges w.toSaveWorld).2)
          (.update (changedUser pbkdf2 w request (userInfoOf row))))) := by
  have hfinds : Finds w api.context row.userId row := ⟨hquery, by rw [h.mem.2, h.found]⟩
  rw [handle_update h]
  exact proceed_of_toSave (Task.Writes.toSave_of_finds (.update _) hfinds)

/-- An update whose credentials are not valid is refused. -/
theorem handle_update_refused {response : UserResponse}
    (h : (handle pbkdf2 w api (.update request)).2 = .done (.ok response)) :
    ∃ row, Validates pbkdf2 w api.context request.userId request.password row := by
  cases hbegin : (begin pbkdf2 w api (.update request)).2 with
  | more task =>
    obtain ⟨row, hrow, -⟩ := validated_eq_more_iff.mp hbegin
    exact ⟨row, hrow⟩
  | done outcome =>
    have hhandle : handle pbkdf2 w api (.update request) = (api, .done outcome) := by
      rw [handle, show begin pbkdf2 w api (.update request) = (api, .done outcome) from
        Prod.ext rfl hbegin]
      rfl
    rw [hhandle] at h
    have hrefused := validated_done hbegin
    rw [Progress.done.inj h] at hrefused
    cases hrefused

end Request

/-- **Partial update.** In every reachable state, for every live account and every request
with its password: the request succeeds and changes what it sets and nothing else, if and
only if it sets a new password, no other row has the same user id, and no entity that
another request left pending lacks a value. -/
theorem partial_update {table : List UserRow} (hids : (table.map (·.id)).Nodup) {redis : Redis}
    {as : List Action} {s : Sys}
    (hrun : Run (step pbkdf2) anyStep { api := .start table redis } as s) {w : World}
    (hread : w.readOk = true) (hquery : w.queryOk = true) (hsave : w.saveOk = true)
    {request : UpdateUserRequest} {row : UserRow} (hrow : row ∈ s.api.context.table)
    (huserId : row.userId = request.userId) (halive : row.isAlive ≠ ascii "N")
    (hpassword : PasswordHelper.verifyPassword pbkdf2 row.password request.password = .ok true) :
    UpdatesPartially pbkdf2 w s.api request row ↔
      request.toBePassword ≠ [] ∧
        (∀ row' ∈ s.api.context.table, row'.userId = row.userId → row' = row) ∧
        s.api.context.CompleteBut row := by
  have hc : s.api.context.Coherent := coherent_run hrun (Coherent.fresh hids)
  rw [← hc.rowsOf_eq_iff hrow]
  constructor
  · intro hupdates
    -- the request was answered, so its look-up has found one row: this one
    obtain ⟨found, hvalid⟩ := handle_update_refused hupdates.succeeds
    have hfound : s.api.context.rowsOf row.userId = [row] := by
      have hmem := hvalid.found
      rw [huserId, hmem, eq_of_rowsOf hmem hrow huserId]
    rw [huserId] at hfound
    have hvalid : Validates pbkdf2 w s.api.context request.userId request.password row :=
      ⟨hread, hfound, halive, hpassword⟩
    have hanswer := hupdates.succeeds
    rw [handle_update_eq hvalid hquery] at hanswer
    have hsaves : ((stagedUpdate pbkdf2 w request row s.api.context).saveChanges
        w.toSaveWorld).2 = true := by
      cases hsaved : ((stagedUpdate pbkdf2 w request row s.api.context).saveChanges
        w.toSaveWorld).2 with
      | true => rfl
      | false =>
        rw [hsaved] at hanswer
        cases hanswer
    obtain ⟨hnew, hcomplete⟩ := (stagedUpdate_saves_iff hc hrow hsave).mp hsaves
    exact ⟨hnew, huserId ▸ hfound, hcomplete⟩
  · rintro ⟨hnew, hfound, hcomplete⟩
    rw [huserId] at hfound
    have hvalid : Validates pbkdf2 w s.api.context request.userId request.password row :=
      ⟨hread, hfound, halive, hpassword⟩
    have hsaves : ((stagedUpdate pbkdf2 w request row s.api.context).saveChanges
        w.toSaveWorld).2 = true :=
      (stagedUpdate_saves_iff hc hrow hsave).mpr ⟨hnew, hcomplete⟩
    have hhandle := handle_update_eq hvalid hquery
    refine ⟨?_, fun row' => ?_⟩ <;> rw [hhandle]
    · rw [hsaves]
      rfl
    · exact stagedUpdate_written hc hrow hsaves row'

/-- `ann` sets a new user name and a new password. -/
def annMarries : UpdateUserRequest where
  userId := ascii "ann"
  password := ascii "secret"
  toBePassword := ascii "secret"
  toBeUsername := ascii "Anna"

theorem partial_update_annMarries :
    UpdatesPartially secretPbkdf2 { salt } (.start [ann] fun _ => none) annMarries ann := by
  refine (partial_update secretPbkdf2 (by decide) (Run.nil _) rfl rfl rfl (by decide) rfl
    (by decide) (by decide)).mpr ⟨by decide, by decide, ?_, ?_⟩
  · intro row hrow hne
    exact absurd (List.mem_singleton.mp hrow) hne
  · intro e he
    cases he

/-- Without the new password the request fails, although the database accepts everything. -/
theorem annForgetsPassword_fails :
    ann.isAlive ≠ ascii "N" ∧
      PasswordHelper.verifyPassword secretPbkdf2 ann.password (ascii "secret") = .ok true ∧
      (handle secretPbkdf2 { salt } (.start [ann] fun _ => none) annForgetsPassword).2 =
        .done (.error (.userValidation (ascii "Failed to update user"))) := by
  decide

end BoostChat.Api
