import BoostChat.Api.Credentials

/-!
# The accounts that the API server keeps

What the requests of `UserController` are for: an `AccountStore` maps each user id to an
account with its password, its name and its address. It knows neither hashes, nor rows,
nor a context that tracks entities.

* `AccountStore.refusal`, `AccountStore.response`, `AccountStore.apply` — what a request is
  answered, and what it makes of the accounts;
* `AccountStore.Gone` — a deleted account stays deleted, and opens for nobody;
* `Represents` — the table holds the accounts of a store, and what a write of the server makes
  of the one is what the request makes of the other.
-/

namespace BoostChat.Api

open HStarContext UserRepository Lib

/-- An account as its owner knows it. -/
structure Account where
  password : Bytes
  username : Bytes
  email : Bytes
  deleted : Bool := false
deriving DecidableEq

/-- The account that a request is about. -/
def Request.userId : Request → Bytes
  | .create q => q.userId
  | .update q => q.userId
  | .delete q => q.userId
  | .login q => q.userId
  | .getUser userId => userId

/-- The accounts by their user ids. The user id of a deleted account stays taken. -/
abbrev AccountStore := Bytes → Option Account

namespace AccountStore

/-- The account of a user id, unless it is deleted. -/
def live (store : AccountStore) (userId : Bytes) : Option Account :=
  (store userId).filter fun account => !account.deleted

/-- The credentials are those of a live account. -/
def Opens (store : AccountStore) (userId password : Bytes) : Prop :=
  ∃ account, store.live userId = some account ∧ account.password = password

instance (store : AccountStore) (userId password : Bytes) :
    Decidable (store.Opens userId password) :=
  match h : store.live userId with
  | none => .isFalse fun ⟨_, hlive, _⟩ => by cases h.symm.trans hlive
  | some account => decidable_of_iff (account.password = password)
      ⟨fun hpassword => ⟨account, h, hpassword⟩, fun ⟨_, hlive, hpassword⟩ =>
        (Option.some.inj (h.symm.trans hlive)) ▸ hpassword⟩

/-- The exception that a request is answered with; `none` when it is carried out. Only a
query that fails makes a difference between two equal requests. -/
def refusal (store : AccountStore) (w : World) (request : Request) : Option ApiException :=
  if w.readOk = false then some queryFailed
  else
    match request with
    | .create q =>
      if (store q.userId).isSome then some (.userValidation (ascii "User creation failed"))
      else none
    | .update q =>
      if ¬ store.Opens q.userId q.password then
        some (.userValidation (ascii "User not found or invalid credentials"))
      else if w.queryOk then none
      else some (.userValidation (ascii "Failed to update user"))
    | .delete q =>
      if ¬ store.Opens q.userId q.password then
        some (.userNotFound (ascii "User not found or invalid credentials"))
      else if w.queryOk then none
      else some (.userValidation (ascii "Failed to delete user"))
    | .login q =>
      if store.Opens q.userId q.password then none
      else some (.userValidation (ascii "User validation failed"))
    | .getUser userId =>
      if (store.live userId).isSome then none
      else some (.userNotFound (ascii "An error occurred while getting the User"))

/-- What a request that is carried out is answered. -/
def response (store : AccountStore) (w : World) : Request → UserResponse
  | .create q => {
      status := .success
      message := ascii "User created successfully"
      content := some (.createUserRequest q) }
  | .update _ => { status := .success, message := ascii "User updated successfully" }
  | .delete _ => { status := .success, message := ascii "User deleted successfully" }
  | .login _ => {
      status := .success
      message := ascii "User login successfully"
      content := some (.loginResponse (ascii "127.0.0.1") (ascii "4242") w.sessionId) }
  | .getUser userId => {
      status := .success
      message := ascii "User retrieved successfully"
      content := (store.live userId).map fun account =>
        .getUserResponse userId account.username account.email }

/-- A field that is left empty stays. -/
def orKept (value old : Bytes) : Bytes := if value ≠ [] then value else old

/-- What a request that is carried out makes of the accounts. -/
def apply (store : AccountStore) : Request → AccountStore
  | .create q => Function.update store q.userId (some ⟨q.password, q.username, q.email, false⟩)
  | .update q => Function.update store q.userId ((store q.userId).map fun account =>
      { account with
        password := orKept q.toBePassword account.password
        username := orKept q.toBeUsername account.username
        email := orKept q.toBeEmail account.email })
  | .delete q => Function.update store q.userId ((store q.userId).map fun account =>
      { account with deleted := true })
  | .login _ | .getUser _ => store

/-- The accounts after a request. -/
def after (store : AccountStore) (w : World) (request : Request) : AccountStore :=
  if (store.refusal w request).isSome then store else store.apply request

/-- The answer of the server is that of the store. A login may in addition fail because of
Redis, which the store does not know. -/
def Answers (store : AccountStore) (w : World) (request : Request) (p : Progress) : Prop :=
  match store.refusal w request with
  | some e => p = .done (.error e)
  | none => p = .done (.ok (store.response w request)) ∨
      (∃ q, request = .login q) ∧ p = .done (.error loginFailed)

/-- The accounts after a sequence of requests. -/
def afterAll (store : AccountStore) (calls : List Call) : AccountStore :=
  calls.foldl (fun store call => store.after call.1 call.2) store

theorem afterAll_append (store : AccountStore) (before rest : List Call) :
    store.afterAll (before ++ rest) = (store.afterAll before).afterAll rest :=
  List.foldl_append

/-- The account is there, but deleted. -/
def Gone (store : AccountStore) (userId : Bytes) : Prop :=
  ∃ account, store userId = some account ∧ account.deleted = true

theorem after_of_refused {store : AccountStore} {w : World} {request : Request} {e : ApiException}
    (h : store.refusal w request = some e) : store.after w request = store :=
  if_pos (by rw [h]; rfl)

theorem after_of_carriedOut {store : AccountStore} {w : World} {request : Request}
    (h : store.refusal w request = none) : store.after w request = store.apply request :=
  if_neg (by rw [h]; exact Bool.false_ne_true)

/-- A deletion is carried out for the right credentials only. -/
theorem opens_of_delete {store : AccountStore} {w : World} {q : DeleteUserRequest}
    (h : store.refusal w (.delete q) = none) : store.Opens q.userId q.password := by
  by_contra hnot
  simp only [refusal, hnot, not_false_eq_true, if_true] at h
  split at h <;> cases h

theorem Gone.live {store : AccountStore} {userId : Bytes} (h : store.Gone userId) :
    store.live userId = none := by
  obtain ⟨account, hstore, hdeleted⟩ := h
  rw [AccountStore.live, hstore, Option.filter_some, hdeleted]
  rfl

/-- A deleted account opens for nobody. -/
theorem Gone.not_opens {store : AccountStore} {userId password : Bytes} (h : store.Gone userId) :
    ¬ store.Opens userId password := by
  rintro ⟨account, hlive, -⟩
  rw [h.live] at hlive
  cases hlive

/-- Nothing brings a deleted account back. -/
theorem Gone.after {store : AccountStore} {userId : Bytes} (h : store.Gone userId) (w : World)
    (request : Request) : (store.after w request).Gone userId := by
  obtain ⟨account, hstore, hdeleted⟩ := h
  have hmodify : ∀ (key : Bytes) (f : Account → Account), (f account).deleted = true →
      Gone (Function.update store key ((store key).map f)) userId := by
    intro key f hf
    by_cases hkey : userId = key
    · subst hkey
      exact ⟨f account, by rw [Function.update_self, hstore]; rfl, hf⟩
    · exact ⟨account, by rw [Function.update_of_ne hkey, hstore], hdeleted⟩
  cases hrefusal : store.refusal w request with
  | some e =>
    rw [after_of_refused hrefusal]
    exact ⟨account, hstore, hdeleted⟩
  | none =>
    rw [after_of_carriedOut hrefusal]
    cases request with
    | create q =>
      have hne : userId ≠ q.userId := by
        rintro rfl
        simp only [refusal, hstore, Option.isSome_some, if_true] at hrefusal
        split at hrefusal <;> cases hrefusal
      exact ⟨account, by rw [apply, Function.update_of_ne hne, hstore], hdeleted⟩
    | update q => exact hmodify q.userId _ hdeleted
    | delete q => exact hmodify q.userId _ rfl
    | login q | getUser userId => exact ⟨account, hstore, hdeleted⟩

theorem Gone.afterAll {store : AccountStore} {userId : Bytes} (h : store.Gone userId)
    (calls : List Call) : (store.afterAll calls).Gone userId := by
  induction calls generalizing store with
  | nil => exact h
  | cons call calls ih => exact ih (h.after call.1 call.2)

/-- Every request for a deleted account is refused. -/
theorem Gone.refused {store : AccountStore} (w : World) (request : Request)
    (h : store.Gone request.userId) : ∃ e, store.refusal w request = some e := by
  rw [← Option.isSome_iff_exists]
  unfold refusal
  split
  · rfl
  · cases request with
    | create q =>
      have htaken : (store q.userId).isSome = true := by
        obtain ⟨account, hstore, -⟩ := h
        exact Option.isSome_iff_exists.mpr ⟨account, hstore⟩
      simp only [htaken, Option.isSome_some, if_true]
    | update q | delete q =>
      have hnot : ¬ store.Opens q.userId q.password := Gone.not_opens h
      simp only [hnot, not_false_eq_true, if_true, Option.isSome_some]
    | login q =>
      have hnot : ¬ store.Opens q.userId q.password := Gone.not_opens h
      simp only [hnot, if_false, Option.isSome_some]
    | getUser userId =>
      have hlive : store.live userId = none := Gone.live h
      simp only [hlive, Option.isSome_none, Bool.false_eq_true, if_false, Option.isSome_some]

end AccountStore

/-- The passwords that a request gives. -/
def Request.passwords : Request → List Bytes
  | .create q => [q.password]
  | .update q => [q.password, q.toBePassword]
  | .delete q => [q.password]
  | .login q => [q.password]
  | .getUser _ => []

/-- A password that one of the requests gives. -/
def Given (calls : List Call) (password : Bytes) : Prop :=
  ∃ call ∈ calls, password ∈ call.2.passwords

variable (pbkdf2 : Pbkdf2) (calls : List Call)

/-- No two passwords that are given have one key with a salt that is drawn. -/
def Collisionless : Prop :=
  ∀ call ∈ calls, Set.InjOn (pbkdf2 · call.1.salt) {password | Given calls password}

/-- A row holds an account, whose password was given and hashed in one of the requests. -/
structure Holds (row : UserRow) (account : Account) : Prop where
  given : Given calls account.password
  password : ∃ call ∈ calls,
    row.password = PasswordHelper.hashPassword pbkdf2 call.1.salt account.password
  username : row.username = account.username
  email : row.email = account.email
  deleted : row.isAlive = ascii "N" ↔ account.deleted = true

/-- The table holds the accounts of the store, each in one row. -/
structure Represents (store : AccountStore) (table : List UserRow) : Prop where
  distinct : (table.map (·.userId)).Nodup
  account : ∀ row ∈ table, ∃ account, store row.userId = some account ∧
    Holds pbkdf2 calls row account
  known : ∀ userId, (store userId).isSome → ∃ row ∈ table, row.userId = userId

section Lookups

variable {pbkdf2} {calls} {store : AccountStore} {w : World} {api : ApiServer}
  {userId password : Bytes}

/-- What the queries of a user id find. -/
inductive Found (pbkdf2 : Pbkdf2) (calls : List Call) (store : AccountStore) (ctx : HStarContext)
    (userId : Bytes) : Prop
  | missing (hrows : ctx.rowsOf userId = []) (hstore : store userId = none)
  | found {row : UserRow} {account : Account} (hrows : ctx.rowsOf userId = [row])
      (hmem : row ∈ ctx.table) (huserId : row.userId = userId)
      (hstore : store userId = some account) (hholds : Holds pbkdf2 calls row account)

theorem Represents.found {ctx : HStarContext} (h : Represents pbkdf2 calls store ctx.table)
    (hc : ctx.Coherent) (userId : Bytes) : Found pbkdf2 calls store ctx userId := by
  cases hstore : store userId with
  | none =>
    refine .missing (rowsOf_eq_nil_iff.mpr fun row hrow huserId => ?_) hstore
    obtain ⟨account, haccount, -⟩ := h.account row hrow
    rw [huserId, hstore] at haccount
    cases haccount
  | some account =>
    obtain ⟨row, hmem, rfl⟩ := h.known userId (by rw [hstore]; rfl)
    obtain ⟨account', haccount, hholds⟩ := h.account row hmem
    obtain rfl := Option.some.inj (hstore.symm.trans haccount)
    refine .found ((hc.rowsOf_eq_iff hmem).mpr fun row' hrow' heq => ?_) hmem rfl hstore hholds
    exact List.inj_on_of_nodup_map h.distinct hrow' hmem heq

theorem Holds.live_eq {row : UserRow} {account : Account} (h : Holds pbkdf2 calls row account)
    (hstore : store userId = some account) :
    store.live userId = if row.isAlive = ascii "N" then none else some account := by
  rw [AccountStore.live, hstore, Option.filter_some]
  by_cases hdead : row.isAlive = ascii "N"
  · rw [if_pos hdead, h.deleted.mp hdead]
    rfl
  · have halive : account.deleted = false := eq_false_of_ne_true (mt h.deleted.mpr hdead)
    rw [if_neg hdead, halive]
    rfl

/-- The stored hash verifies the password of the account and no other. -/
theorem Holds.verify {row : UserRow} {account : Account} (h : Holds pbkdf2 calls row account)
    (hcollision : Collisionless pbkdf2 calls) (hgiven : Given calls password) :
    PasswordHelper.verifyPassword pbkdf2 row.password password =
      .ok (decide (account.password = password)) := by
  obtain ⟨call, hcall, hhash⟩ := h.password
  rw [hhash, PasswordHelper.verifyPassword_hashPassword]
  by_cases hpassword : account.password = password
  · rw [hpassword, beq_self_eq_true, decide_eq_true rfl]
  · rw [decide_eq_false hpassword, beq_eq_false_iff_ne.mpr]
    exact fun heq => hpassword (hcollision call hcall h.given hgiven (Base64.encode_injective heq))

/-- **`ValidateUserCredentials`** lets a request through when the credentials open a live
account, and refuses it otherwise. -/
theorem Represents.validated (h : Represents pbkdf2 calls store api.context.table)
    (hc : api.context.Coherent) (hcollision : Collisionless pbkdf2 calls)
    (hgiven : Given calls password) (hread : w.readOk = true) (refusal : ApiException)
    (next : UserDto → Task) :
    (¬ store.Opens userId password ∧
      Api.validated pbkdf2 w api userId password refusal next = .done (.error refusal)) ∨
    ∃ row, store.Opens userId password ∧ api.context.rowsOf userId = [row] ∧
      Api.validated pbkdf2 w api userId password refusal next = .more (next (userInfoOf row)) := by
  cases h.found hc userId with
  | missing hrows hstore =>
    refine Or.inl ⟨?_, ?_⟩
    · rintro ⟨account, hlive, -⟩
      rw [AccountStore.live, hstore] at hlive
      cases hlive
    · simp only [Api.validated, validateUserCredentials, singleNoTracking, hread, hrows, if_true]
  | @found row account hrows _ _ hstore hholds =>
    have hlive := hholds.live_eq hstore
    have hverify := hholds.verify hcollision hgiven
    by_cases hdead : row.isAlive = ascii "N"
    · refine Or.inl ⟨?_, ?_⟩
      · rintro ⟨account', hlive', -⟩
        rw [hlive, if_pos hdead] at hlive'
        cases hlive'
      · simp only [Api.validated, validateUserCredentials, singleNoTracking, hread, hrows, hdead,
          if_true]
    · rw [if_neg hdead] at hlive
      by_cases hpassword : account.password = password
      · refine Or.inr ⟨row, ⟨account, hlive, hpassword⟩, hrows, ?_⟩
        rw [decide_eq_true hpassword] at hverify
        simp only [Api.validated, validateUserCredentials, singleNoTracking, hread, hrows, hdead,
          hverify, if_true, if_false]
      · refine Or.inl ⟨?_, ?_⟩
        · rintro ⟨account', hlive', hpassword'⟩
          obtain rfl := Option.some.inj (hlive.symm.trans hlive')
          exact hpassword hpassword'
        · rw [decide_eq_false hpassword] at hverify
          simp only [Api.validated, validateUserCredentials, singleNoTracking, hread, hrows, hdead,
            hverify, if_true, if_false]

end Lookups

/-! ## What a request does to the accounts -/

section Step

variable {pbkdf2} {calls} {store : AccountStore} {table table' : List UserRow} {w : World}
  {api : ApiServer} {request : Request}

/-- A new row with a new user id. -/
theorem Represents.insert (h : Represents pbkdf2 calls store table) {row : UserRow}
    {account : Account} (hnew : ∀ old ∈ table, old.userId ≠ row.userId)
    (hholds : Holds pbkdf2 calls row account) :
    Represents pbkdf2 calls (Function.update store row.userId (some account)) (table ++ [row]) := by
  refine ⟨?_, fun old hold => ?_, fun userId hknown => ?_⟩
  · rw [List.map_append, List.nodup_append]
    refine ⟨h.distinct, List.nodup_singleton _, fun userId hmem userId' hrow heq => ?_⟩
    obtain ⟨old, hold, rfl⟩ := List.mem_map.mp hmem
    exact hnew old hold (heq.trans (List.mem_singleton.mp hrow))
  · rcases List.mem_append.mp hold with hold | hold
    · rw [Function.update_of_ne (hnew old hold)]
      exact h.account old hold
    · rw [List.mem_singleton.mp hold, Function.update_self]
      exact ⟨account, rfl, hholds⟩
  · by_cases huserId : userId = row.userId
    · exact ⟨row, List.mem_append_right _ (List.mem_singleton_self row), huserId.symm⟩
    · rw [Function.update_of_ne huserId] at hknown
      obtain ⟨old, hold, heq⟩ := h.known userId hknown
      exact ⟨old, List.mem_append_left _ hold, heq⟩

/-- A row that is changed, but for its user id. -/
theorem Represents.modify (h : Represents pbkdf2 calls store table) {row row' : UserRow}
    (hmem : row ∈ table) (huserId : row'.userId = row.userId) {f : Account → Account}
    (hholds : ∀ account, store row.userId = some account → Holds pbkdf2 calls row account →
      Holds pbkdf2 calls row' (f account)) :
    Represents pbkdf2 calls (Function.update store row.userId ((store row.userId).map f))
      (table.map fun old => if old = row then row' else old) := by
  have hids : ∀ old, (if old = row then row' else old).userId = old.userId := by
    intro old
    split
    · rename_i heq
      rw [heq, huserId]
    · rfl
  refine ⟨?_, fun x hx => ?_, fun userId hknown => ?_⟩
  · have hkept : (table.map fun old => if old = row then row' else old).map (·.userId) =
        table.map (·.userId) := by
      rw [List.map_map]
      exact List.map_congr_left fun old _ => hids old
    rw [hkept]
    exact h.distinct
  · obtain ⟨old, hold, rfl⟩ := List.mem_map.mp hx
    rw [hids]
    by_cases heq : old = row
    · subst heq
      obtain ⟨account, haccount, hrow⟩ := h.account old hold
      rw [if_pos rfl, Function.update_self, haccount]
      exact ⟨f account, rfl, hholds account haccount hrow⟩
    · have hapart : old.userId ≠ row.userId := fun heq' =>
        heq (List.inj_on_of_nodup_map h.distinct hold hmem heq')
      rw [if_neg heq, Function.update_of_ne hapart]
      exact h.account old hold
  · have hold : (store userId).isSome := by
      by_cases heq : userId = row.userId
      · rw [heq, Function.update_self, Option.isSome_map] at hknown
        rwa [heq]
      · rwa [Function.update_of_ne heq] at hknown
    obtain ⟨old, hmem, heq⟩ := h.known userId hold
    exact ⟨_, List.mem_map_of_mem hmem, (hids old).trans heq⟩

theorem Effect.failed (h : Effect pbkdf2 w table request false table') : table' = table := by
  cases h with
  | unchanged => rfl

/-- An update that succeeds has set a new password, with whatever else it sets. -/
theorem Represents.updated (h : Represents pbkdf2 calls store table) {q : UpdateUserRequest}
    (hcall : (w, .update q) ∈ calls)
    (heffect : Effect pbkdf2 w table (.update q) true table') :
    Represents pbkdf2 calls (store.apply (.update q)) table' := by
  cases heffect with
  | unchanged hread => cases hread rfl
  | @updated _ row hmem huserId halive hpassword =>
    have hkey : (q.appliedTo pbkdf2 w row).userId = row.userId := rfl
    rw [AccountStore.apply, ← huserId]
    refine h.modify hmem hkey fun account _ hholds => ?_
    have hchosen : AccountStore.orKept q.toBePassword account.password = q.toBePassword :=
      if_pos hpassword
    refine ⟨⟨_, hcall, ?_⟩, ⟨_, hcall, ?_⟩, ?_, ?_, hholds.deleted⟩
    · rw [hchosen]
      exact List.mem_cons_of_mem _ List.mem_cons_self
    · show (if q.toBePassword ≠ [] then _ else _) = _
      rw [if_pos hpassword, hchosen]
    · show (if q.toBeUsername ≠ [] then q.toBeUsername else row.username) = _
      rw [hholds.username]
      rfl
    · show (if q.toBeEmail ≠ [] then q.toBeEmail else row.email) = _
      rw [hholds.email]
      rfl

theorem Represents.deleted (h : Represents pbkdf2 calls store table) {q : DeleteUserRequest}
    (heffect : Effect pbkdf2 w table (.delete q) true table') :
    Represents pbkdf2 calls (store.apply (.delete q)) table' := by
  cases heffect with
  | unchanged hread => cases hread rfl
  | @deleted _ row hmem huserId =>
    have hkey : ({ row with isAlive := ascii "N" } : UserRow).userId = row.userId := rfl
    rw [AccountStore.apply, ← huserId]
    refine h.modify hmem hkey fun account _ hholds => ?_
    exact ⟨hholds.given, hholds.password, hholds.username, hholds.email, fun _ => rfl, fun _ => rfl⟩

/-- The row that a creation writes. -/
theorem Represents.created (h : Represents pbkdf2 calls store api.context.table)
    (hq : api.context.Quiet) {q : CreateUserRequest} (hcall : (w, .create q) ∈ calls)
    (hnone : api.context.rowsOf q.userId = [])
    (hsaved : ((api.context.add (newEntity (newUser pbkdf2 w q))).saveChanges
      w.toSaveWorld).2 = true) :
    Represents pbkdf2 calls (store.apply (.create q))
      ((api.context.add (newEntity (newUser pbkdf2 w q))).saveChanges w.toSaveWorld).1.table := by
  obtain ⟨row, hrow, htable⟩ := saveChanges_added hq hsaved
  have huserId : row.userId = q.userId :=
    (Option.some.inj (congrArg UserEntity.userId hrow)).symm
  have halive : row.isAlive = ascii "Y" :=
    (Option.some.inj (congrArg UserEntity.isAlive hrow)).symm
  rw [htable, AccountStore.apply, ← huserId]
  refine h.insert (huserId ▸ rowsOf_eq_nil_iff.mp hnone)
    ⟨⟨_, hcall, List.mem_cons_self⟩, ⟨_, hcall, ?_⟩, ?_, ?_, ?_⟩
  · exact (Option.some.inj (congrArg UserEntity.password hrow)).symm
  · exact (Option.some.inj (congrArg UserEntity.username hrow)).symm
  · exact (Option.some.inj (congrArg UserEntity.email hrow)).symm
  · rw [halive]
    exact iff_of_false (by decide) Bool.false_ne_true

end Step

end BoostChat.Api
