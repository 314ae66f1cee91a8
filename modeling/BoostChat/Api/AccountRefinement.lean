import BoostChat.Api.AccountStore

/-!
# The API server refines the store of accounts

Requests that are served one after the other, when no write of the database throws.

* `represents_handle` — one request of the server against one of the store;
* `accounts_refined` — every answer to every sequence of requests is that of the store;
* `deleted_refused` — after a deletion every request for the account is refused.
-/

namespace BoostChat.Api

open HStarContext UserRepository Lib

variable (pbkdf2 : Pbkdf2) (calls : List Call)

/-! ## What a request is answered -/

section Answers

variable {pbkdf2} {calls} {store : AccountStore} {w : World} {api : ApiServer}
  {request : Request}

/-- One request of the server against one of the store. -/
def Refined (pbkdf2 : Pbkdf2) (calls : List Call) (store : AccountStore) (w : World)
    (api : ApiServer) (request : Request) : Prop :=
  store.Answers w request (handle pbkdf2 w api request).2 ∧
    Represents pbkdf2 calls (store.after w request) (handle pbkdf2 w api request).1.context.table

/-- A request that is refused at its beginning. -/
theorem refined_of_refused (h : Represents pbkdf2 calls store api.context.table) {e : ApiException}
    (hrefusal : store.refusal w request = some e)
    (hbegin : (begin pbkdf2 w api request).2 = .done (.error e)) :
    Refined pbkdf2 calls store w api request := by
  have hhandle : handle pbkdf2 w api request =
      ((begin pbkdf2 w api request).1, .done (.error e)) := by
    rw [handle, show begin pbkdf2 w api request = (_, .done (.error e)) from Prod.ext rfl hbegin]
    rfl
  refine ⟨?_, ?_⟩
  · rw [AccountStore.Answers, hrefusal, hhandle]
  · rw [AccountStore.after_of_refused hrefusal, hhandle, begin_table]
    exact h

/-- A failing query refuses every request. -/
theorem begin_of_not_readOk (hread : w.readOk = false) :
    (begin pbkdf2 w api request).2 = .done (.error queryFailed) := by
  cases request with
  | create q => simp only [begin, createUserLookup, single, singleNoTracking, hread]; rfl
  | update q | delete q | login q =>
    simp only [begin, validated, validateUserCredentials, singleNoTracking, hread]
    rfl
  | getUser userId =>
    simp only [begin, getUserFromUserid, singleNoTracking, hread]
    rfl

/-- The answer to a write whose credentials are right: only its own query can fail. -/
theorem write_answer {task : Task} {assign : UserDto → UserEntity → UserEntity}
    {userInfo : UserDto} {row : UserRow} (hwrites : task.Writes assign userInfo)
    (hbegin : begin pbkdf2 w api request = (api, .more task))
    (hrows : api.context.rowsOf userInfo.userId = [row])
    (hreturns : ∀ ctx ∈ reachesSave pbkdf2 w api request,
      (ctx.saveChanges w.toSaveWorld).2 = true) :
    (handle pbkdf2 w api request).2 =
      .done (respond (if w.queryOk then .success else .failure) task) := by
  have hhandle : handle pbkdf2 w api request = next w (proceed w api task) := by
    rw [handle, hbegin]
    rfl
  have hreach : reachesSave pbkdf2 w api request = task.toSave w api.context := by
    rw [reachesSave_of_more pbkdf2 (congrArg Prod.snd hbegin), hbegin]
  rw [hhandle]
  cases hquery : w.queryOk with
  | true =>
    have hsave := hwrites.toSave_of_finds ⟨hquery, hrows⟩
    have hsaved := hreturns _ (hreach.trans hsave)
    rw [proceed_of_toSave hsave, hsaved]
    rfl
  | false =>
    rw [hwrites.proceed_eq, change_of_not_finds assign fun row hfound =>
      Bool.false_ne_true (hquery.symm.trans hfound.1)]
    rfl

/-- A login that finds its account ends in one of two answers, and changes no row. -/
theorem login_answer (store : AccountStore) {q : LoginRequest} {userInfo : UserDto}
    (hbegin : begin pbkdf2 w api (.login q) = (api, .more (.getAccount w.sessionId userInfo.id))) :
    ((handle pbkdf2 w api (.login q)).2 = .done (.ok (store.response w (.login q))) ∨
      (handle pbkdf2 w api (.login q)).2 = .done (.error loginFailed)) ∧
    (handle pbkdf2 w api (.login q)).1.context.table = api.context.table := by
  have hanswer : ∀ status task, task = Task.getAccount w.sessionId userInfo.id ∨
      (∃ existing, task = Task.transact w.sessionId userInfo.id existing) →
      respond status task = .ok (store.response w (.login q)) ∨
        respond status task = .error loginFailed := by
    intro status task htask
    by_cases hstatus : status = .success
    · rcases htask with rfl | ⟨existing, rfl⟩ <;> exact Or.inl (if_pos hstatus)
    · rcases htask with rfl | ⟨existing, rfl⟩ <;> exact Or.inr (if_neg hstatus)
  rw [handle, hbegin]
  simp only [next]
  cases hget : w.getOk with
  | true =>
    have hproceed : proceed w api (.getAccount w.sessionId userInfo.id) = (api,
        .more (.transact w.sessionId userInfo.id
          ((api.redis (CacheRepository.accountKey userInfo.id)).filter fun id => !id.isEmpty))) :=
      if_pos hget
    rw [hproceed]
    refine ⟨?_, rfl⟩
    simp only [proceed, Progress.done.injEq]
    exact hanswer _ _ (Or.inr ⟨_, rfl⟩)
  | false =>
    have hproceed : proceed w api (.getAccount w.sessionId userInfo.id) = (api,
        .done (respond .serverError (.getAccount w.sessionId userInfo.id))) :=
      if_neg (by rw [hget]; exact Bool.false_ne_true)
    rw [hproceed]
    refine ⟨?_, rfl⟩
    simp only [Progress.done.injEq]
    exact hanswer _ _ (Or.inl rfl)

/-- A write whose credentials are right, against the same one in the store. -/
theorem refined_of_write (h : Represents pbkdf2 calls store api.context.table)
    (hc : api.context.Coherent) (hq : api.context.Quiet) {task : Task}
    {assign : UserDto → UserEntity → UserEntity} {userInfo : UserDto} {row : UserRow}
    {e : ApiException} (hwrites : task.Writes assign userInfo)
    (hbegin : begin pbkdf2 w api request = (api, .more task))
    (hrows : api.context.rowsOf userInfo.userId = [row])
    (hreturns : ∀ ctx ∈ reachesSave pbkdf2 w api request,
      (ctx.saveChanges w.toSaveWorld).2 = true)
    (hrefusal : store.refusal w request = if w.queryOk then none else some e)
    (hsuccess : respond .success task = .ok (store.response w request))
    (hfailure : respond .failure task = .error e)
    (hwritten : ∀ table', Effect pbkdf2 w api.context.table request true table' →
      Represents pbkdf2 calls (store.apply request) table') :
    Refined pbkdf2 calls store w api request := by
  have heffect := (handle_effect hc hq hreturns).2
  have hanswer := write_answer hwrites hbegin hrows hreturns
  rw [hanswer] at heffect
  cases hquery : w.queryOk with
  | true =>
    rw [hquery, if_pos rfl] at hrefusal hanswer heffect
    rw [hsuccess] at hanswer heffect
    refine ⟨?_, ?_⟩
    · rw [AccountStore.Answers, hrefusal, hanswer]
      exact Or.inl rfl
    · rw [AccountStore.after_of_carriedOut hrefusal]
      exact hwritten _ heffect
  | false =>
    rw [hquery, if_neg Bool.false_ne_true] at hrefusal hanswer heffect
    rw [hfailure] at hanswer heffect
    refine ⟨?_, ?_⟩
    · rw [AccountStore.Answers, hrefusal, hanswer]
    · rw [AccountStore.after_of_refused hrefusal, heffect.failed]
      exact h

/-- A creation against the same one in the store. -/
theorem refined_of_create (h : Represents pbkdf2 calls store api.context.table)
    (hc : api.context.Coherent) (hq : api.context.Quiet) {q : CreateUserRequest}
    (hcall : (w, .create q) ∈ calls) (hread : w.readOk = true)
    (hreturns : ∀ ctx ∈ reachesSave pbkdf2 w api (.create q),
      (ctx.saveChanges w.toSaveWorld).2 = true) :
    Refined pbkdf2 calls store w api (.create q) := by
  have hgoes : ¬ w.readOk = false := by rw [hread]; exact Bool.noConfusion
  have huserId : (newUser pbkdf2 w q).userId = q.userId := rfl
  cases h.found hc q.userId with
  | missing hrows hstore =>
    have hbegin : begin pbkdf2 w api (.create q) =
        (api, .more (.insert q (newUser pbkdf2 w q))) := by
      simp [begin, createUserLookup, single, singleNoTracking, hread, huserId, hrows]
    have hrefusal : store.refusal w (.create q) = none := by
      rw [AccountStore.refusal, if_neg hgoes]
      exact if_neg (by rw [hstore]; exact Bool.noConfusion)
    have hreach : reachesSave pbkdf2 w api (.create q) =
        some (api.context.add (newEntity (newUser pbkdf2 w q))) := by
      rw [reachesSave_of_more pbkdf2 (congrArg Prod.snd hbegin), hbegin]
      rfl
    have hsaved := hreturns _ hreach
    have hhandle : handle pbkdf2 w api (.create q) =
        ({ api with context := ((api.context.add (newEntity (newUser pbkdf2 w q))).saveChanges
          w.toSaveWorld).1 }, .done (.ok (store.response w (.create q)))) := by
      rw [handle, hbegin]
      show next w (proceed w api (.insert q (newUser pbkdf2 w q))) = _
      rw [proceed_of_toSave rfl, hsaved]
      rfl
    refine ⟨?_, ?_⟩
    · rw [AccountStore.Answers, hrefusal, hhandle]
      exact Or.inl rfl
    · rw [AccountStore.after_of_carriedOut hrefusal, hhandle]
      exact h.created hq hcall hrows hsaved
  | found hrows hmem _ hstore =>
    -- the user id is taken, by a deleted account as well
    refine refined_of_refused (e := .userValidation (ascii "User creation failed")) h ?_ ?_
    · rw [AccountStore.refusal, if_neg hgoes]
      exact if_pos (by rw [hstore]; rfl)
    · simp [begin, createUserLookup, single, singleNoTracking, hread, huserId, hrows]

/-- The profile that `GetUser` answers with is that of the live account. -/
theorem refined_of_getUser (h : Represents pbkdf2 calls store api.context.table)
    (hc : api.context.Coherent) (hread : w.readOk = true) (userId : Bytes) :
    Refined pbkdf2 calls store w api (.getUser userId) := by
  have hgoes : ¬ w.readOk = false := by rw [hread]; exact Bool.noConfusion
  have hrefused (hlive : store.live userId = none) (hbegin : (begin pbkdf2 w api
      (.getUser userId)).2 = .done (.error (.userNotFound
        (ascii "An error occurred while getting the User")))) :
      Refined pbkdf2 calls store w api (.getUser userId) := by
    refine refined_of_refused h ?_ hbegin
    rw [AccountStore.refusal, if_neg hgoes]
    exact if_neg (by rw [hlive]; exact Bool.noConfusion)
  cases h.found hc userId with
  | missing hrows hstore =>
    refine hrefused (by rw [AccountStore.live, hstore]; rfl) ?_
    simp [begin, getUserFromUserid, singleNoTracking, hread, hrows]
  | @found row account hrows hmem huserId hstore hholds =>
    have hlive := hholds.live_eq hstore
    by_cases hdead : row.isAlive = ascii "N"
    · rw [if_pos hdead] at hlive
      refine hrefused hlive ?_
      simp [begin, getUserFromUserid, singleNoTracking, hread, hrows, hdead]
    · rw [if_neg hdead] at hlive
      have hrefusal : store.refusal w (.getUser userId) = none := by
        rw [AccountStore.refusal, if_neg hgoes]
        exact if_pos (by rw [hlive]; rfl)
      have hbegin : begin pbkdf2 w api (.getUser userId) =
          (api, .done (.ok (store.response w (.getUser userId)))) := by
        simp [begin, getUserFromUserid, singleNoTracking, hread, hrows, hdead,
          AccountStore.response, hlive, huserId, hholds.username, hholds.email]
      have hhandle : handle pbkdf2 w api (.getUser userId) =
          (api, .done (.ok (store.response w (.getUser userId)))) := by
        rw [handle, hbegin]
        rfl
      refine ⟨?_, ?_⟩
      · rw [AccountStore.Answers, hrefusal, hhandle]
        exact Or.inl rfl
      · rw [AccountStore.after_of_carriedOut hrefusal, hhandle]
        exact h

/-- **Step lemma.** With nothing pending and a save that does not throw, a request of the
server is answered as the store answers it, and leaves the accounts of the store. -/
theorem represents_handle (h : Represents pbkdf2 calls store api.context.table)
    (hc : api.context.Coherent) (hq : api.context.Quiet)
    (hcollision : Collisionless pbkdf2 calls) (hcall : (w, request) ∈ calls)
    (hreturns : ∀ ctx ∈ reachesSave pbkdf2 w api request,
      (ctx.saveChanges w.toSaveWorld).2 = true) :
    Refined pbkdf2 calls store w api request := by
  cases hread : w.readOk with
  | false => exact refined_of_refused h (if_pos hread) (begin_of_not_readOk hread)
  | true =>
  have hgoes : ¬ w.readOk = false := by rw [hread]; exact Bool.noConfusion
  cases request with
  | create q => exact refined_of_create h hc hq hcall hread hreturns
  | getUser userId => exact refined_of_getUser h hc hread userId
  | update q =>
    rcases h.validated hc hcollision ⟨_, hcall, List.mem_cons_self⟩ hread (.userValidation
      (ascii "User not found or invalid credentials"))
      fun userInfo => .update (changedUser pbkdf2 w q userInfo) with
      ⟨hopens, hbegin⟩ | ⟨row, hopens, hrows, hbegin⟩
    · refine refined_of_refused h ?_ hbegin
      rw [AccountStore.refusal, if_neg hgoes]
      exact if_pos hopens
    · have huserId : (userInfoOf row).userId = q.userId := (mem_of_rowsOf hrows).2
      refine refined_of_write h hc hq (.update _) (Prod.ext rfl hbegin)
        (by rw [← hrows]; exact congrArg _ huserId) hreturns ?_ rfl rfl fun _ => h.updated hcall
      rw [AccountStore.refusal, if_neg hgoes]
      exact if_neg (not_not.mpr hopens)
  | delete q =>
    rcases h.validated hc hcollision ⟨_, hcall, List.mem_cons_self⟩ hread (.userNotFound
      (ascii "User not found or invalid credentials"))
      fun userInfo => .delete (deletedUser userInfo) with
      ⟨hopens, hbegin⟩ | ⟨row, hopens, hrows, hbegin⟩
    · refine refined_of_refused h ?_ hbegin
      rw [AccountStore.refusal, if_neg hgoes]
      exact if_pos hopens
    · have huserId : (userInfoOf row).userId = q.userId := (mem_of_rowsOf hrows).2
      refine refined_of_write h hc hq (.delete _) (Prod.ext rfl hbegin)
        (by rw [← hrows]; exact congrArg _ huserId) hreturns ?_ rfl rfl fun _ => h.deleted
      rw [AccountStore.refusal, if_neg hgoes]
      exact if_neg (not_not.mpr hopens)
  | login q =>
    rcases h.validated hc hcollision ⟨_, hcall, List.mem_cons_self⟩ hread (.userValidation
      (ascii "User validation failed"))
      fun userInfo => .getAccount w.sessionId userInfo.id with
      ⟨hopens, hbegin⟩ | ⟨row, hopens, hrows, hbegin⟩
    · refine refined_of_refused h ?_ hbegin
      rw [AccountStore.refusal, if_neg hgoes]
      exact if_neg hopens
    · -- only Redis is written, and only Redis can fail
      have hrefusal : store.refusal w (.login q) = none := by
        rw [AccountStore.refusal, if_neg hgoes]
        exact if_pos hopens
      obtain ⟨hanswer, htable⟩ := login_answer store (Prod.ext rfl hbegin)
      refine ⟨?_, ?_⟩
      · rw [AccountStore.Answers, hrefusal]
        exact hanswer.imp_right fun hfailed => ⟨⟨q, rfl⟩, hfailed⟩
      · rw [AccountStore.after_of_carriedOut hrefusal, htable]
        exact h

end Answers

/-! ## Runs -/

/-- The store in which no user id is taken. -/
def AccountStore.empty : AccountStore := fun _ => none

theorem represents_empty : Represents pbkdf2 calls AccountStore.empty [] where
  distinct := List.nodup_nil
  account := fun _ h => absurd h List.not_mem_nil
  known := fun _ h => absurd h Bool.false_ne_true

/-- The accounts of the store are in the table, and nothing is pending. -/
structure Kept (store : AccountStore) (api : ApiServer) : Prop where
  coherent : api.context.Coherent
  quiet : api.context.Quiet
  represents : Represents pbkdf2 calls store api.context.table

theorem Kept.start (redis : Redis) : Kept pbkdf2 calls AccountStore.empty (.start [] redis) where
  coherent := Coherent.fresh List.nodup_nil
  quiet := Quiet.fresh []
  represents := represents_empty pbkdf2 calls

/-- **Run lemma.** -/
theorem Kept.run {store : AccountStore} {api : ApiServer} (h : Kept pbkdf2 calls store api)
    (hcollision : Collisionless pbkdf2 calls) {before : List Call} (hbefore : before ⊆ calls)
    (hreturn : WritesReturn pbkdf2 api before) :
    Kept pbkdf2 calls (store.afterAll before) (serve pbkdf2 api before) := by
  induction before generalizing store api with
  | nil => exact h
  | cons call before ih =>
    obtain ⟨hcall, hrest⟩ := List.cons_subset.mp hbefore
    refine ih ⟨coherent_handle pbkdf2 call.1 h.coherent call.2, ?_, ?_⟩ hrest hreturn.2
    · exact (handle_effect h.coherent h.quiet hreturn.1).1
    · exact (represents_handle h.represents h.coherent h.quiet hcollision hcall hreturn.1).2

/-- The answer to each request of a sequence is that of the store. -/
theorem Kept.answers {store : AccountStore} {api : ApiServer} (h : Kept pbkdf2 calls store api)
    (hcollision : Collisionless pbkdf2 calls) {before rest : List Call} {w : World}
    {request : Request} (hcalls : before ++ (w, request) :: rest ⊆ calls)
    (hreturn : WritesReturn pbkdf2 api (before ++ (w, request) :: rest)) :
    (store.afterAll before).Answers w request
      (handle pbkdf2 w (serve pbkdf2 api before) request).2 := by
  obtain ⟨hbefore, hrequest, -⟩ := writesReturn_append.mp hreturn
  obtain ⟨hearlier, hlater⟩ := List.append_subset.mp hcalls
  have hkept := h.run pbkdf2 calls hcollision hearlier hbefore
  exact (represents_handle hkept.represents hkept.coherent hkept.quiet hcollision
    (List.cons_subset.mp hlater).1 hrequest).1

/-- **Refinement.** When requests are served one after the other on an empty database, no
write throws and no two of the passwords that are given have one key, every request is
answered as the store of accounts answers it: which requests are refused, with which
exception, and what the others are told. -/
theorem accounts_refined {calls : List Call} (hcollision : Collisionless pbkdf2 calls)
    {redis : Redis} (hreturn : WritesReturn pbkdf2 (.start [] redis) calls) :
    ∀ before w request rest, calls = before ++ (w, request) :: rest →
      (AccountStore.empty.afterAll before).Answers w request
        (handle pbkdf2 w (serve pbkdf2 (.start [] redis) before) request).2 := by
  rintro before w request rest rfl
  exact (Kept.start pbkdf2 _ redis).answers pbkdf2 _ hcollision (List.Subset.refl _) hreturn

/-- `ann` joins, changes her password and her name, is refused with the old password, shows
her profile, and is deleted. -/
def annMoves : List Call :=
  let ann := ascii "ann"
  let changes : UpdateUserRequest := {
    userId := ann
    password := ascii "secret"
    toBePassword := ascii "new"
    toBeUsername := ascii "Anna" }
  [({ salt }, annJoins), ({ salt }, .update changes),
    ({}, .delete { userId := ann, password := ascii "secret" }), ({}, .getUser ann),
    ({}, .delete { userId := ann, password := ascii "new" }), ({}, .getUser ann)]

theorem collisionless_distinctPbkdf2 (calls : List Call) : Collisionless distinctPbkdf2 calls :=
  fun call _ _ _ _ _ heq => distinctPbkdf2_injective call.1.salt heq

/-- The profile has the new name and the old address. -/
theorem accounts_refined_annMoves :
    (handle distinctPbkdf2 {} (serve distinctPbkdf2 (.start [] fun _ => none) (annMoves.take 3))
      (.getUser (ascii "ann"))).2 =
      .done (.ok {
        status := .success
        message := ascii "User retrieved successfully"
        content := some (.getUserResponse (ascii "ann") (ascii "Anna") (ascii "ann@chat")) }) := by
  have hrefined := @accounts_refined distinctPbkdf2 annMoves (collisionless_distinctPbkdf2 _)
    (fun _ => none) (by decide) (annMoves.take 3) {} (.getUser (ascii "ann")) (annMoves.drop 4) rfl
  have hcarried : (AccountStore.empty.afterAll (annMoves.take 3)).refusal {}
    (.getUser (ascii "ann")) = none := by decide
  rw [AccountStore.Answers, hcarried] at hrefined
  rcases hrefined with hanswer | ⟨⟨q, hlogin⟩, -⟩
  · exact hanswer
  · cases hlogin

/-- **Deletion is for good.** After a deletion that is answered with success, every request
for the account is answered with an exception, and its user id is not given again. -/
theorem deleted_refused {redis : Redis} {before between rest : List Call} {w w' : World}
    {q : DeleteUserRequest} {request : Request}
    (hcollision : Collisionless pbkdf2
      ((before ++ (w, .delete q) :: between) ++ (w', request) :: rest))
    (hreturn : WritesReturn pbkdf2 (.start [] redis)
      ((before ++ (w, .delete q) :: between) ++ (w', request) :: rest))
    (hdeleted : (handle pbkdf2 w (serve pbkdf2 (.start [] redis) before)
      (.delete q)).2.succeeded = true)
    (huserId : request.userId = q.userId) :
    ∃ e, (handle pbkdf2 w' (serve pbkdf2 (.start [] redis) (before ++ (w, .delete q) :: between))
      request).2 = .done (.error e) := by
  have hstart := Kept.start pbkdf2 ((before ++ (w, .delete q) :: between) ++ (w', request) :: rest)
    redis
  have hanswers := hstart.answers pbkdf2 _ hcollision (List.Subset.refl _) hreturn
  have hfirst := hstart.answers pbkdf2 _ hcollision (List.subset_append_left _ _)
    (writesReturn_append.mp hreturn).1
  -- the deletion is carried out by the store as well
  have hcarried : (AccountStore.empty.afterAll before).refusal w (.delete q) = none := by
    cases hrefusal : (AccountStore.empty.afterAll before).refusal w (.delete q) with
    | none => rfl
    | some e =>
      rw [AccountStore.Answers, hrefusal] at hfirst
      rw [hfirst] at hdeleted
      cases hdeleted
  have hgone : ((AccountStore.empty.afterAll before).after w (.delete q)).Gone q.userId := by
    obtain ⟨account, hlive, -⟩ := AccountStore.opens_of_delete hcarried
    obtain ⟨hstore, -⟩ := Option.filter_eq_some_iff.mp hlive
    refine ⟨{ account with deleted := true }, ?_, rfl⟩
    rw [AccountStore.after_of_carriedOut hcarried, AccountStore.apply, Function.update_self, hstore]
    rfl
  obtain ⟨e, hrefusal⟩ := AccountStore.Gone.refused w' request
    (huserId ▸ hgone.afterAll between)
  refine ⟨e, ?_⟩
  rw [AccountStore.Answers, AccountStore.afterAll_append] at hanswers
  rw [show ((AccountStore.empty.afterAll before).afterAll ((w, .delete q) :: between)).refusal w'
    request = some e from hrefusal] at hanswers
  exact hanswers

/-- Her profile is not shown any more. -/
theorem deleted_refused_annMoves :
    ∃ e, (handle distinctPbkdf2 {} (serve distinctPbkdf2 (.start [] fun _ => none)
      (annMoves.take 4 ++ [(({} : World), .delete ⟨ascii "ann", ascii "new"⟩)]))
      (.getUser (ascii "ann"))).2 = .done (.error e) :=
  @deleted_refused distinctPbkdf2 (fun _ => none) (annMoves.take 4) [] [] {} {}
    ⟨ascii "ann", ascii "new"⟩ (.getUser (ascii "ann"))
    (collisionless_distinctPbkdf2 _) (by decide) (by decide) rfl

end BoostChat.Api
