import BoostChat.Api.Tracking
import BoostChat.Api.UserService
import BoostChat.Lib.Transition

/-!
# Requests, one by one and interleaved

* what the parts of a request do: `validated_eq_more_iff`, `stage_of_finds`,
  `proceed_of_toSave`;
* `coherent_handle` — every request keeps the tracker a mirror of the table;
* `serve`, `trace` — sequences of requests;
* `step` — the API server as a transition system: a request `begin`s, and a waiting one
  may `proceed` whenever it likes.
-/

namespace BoostChat.Api

/-! ## Requests -/

open HStarContext UserRepository Lib

/-- The query of `ValidateUserCredentials` finds the account, which is alive and has that
password. -/
structure Validates (pbkdf2 : Pbkdf2) (w : World) (ctx : HStarContext) (userId password : Bytes)
    (row : UserRow) : Prop where
  readOk : w.readOk = true
  found : ctx.rowsOf userId = [row]
  alive : row.isAlive ≠ ascii "N"
  verified : PasswordHelper.verifyPassword pbkdf2 row.password password = .ok true

theorem Validates.mem {pbkdf2 : Pbkdf2} {w : World} {ctx : HStarContext} {userId password : Bytes}
    {row : UserRow} (h : Validates pbkdf2 w ctx userId password row) :
    row ∈ ctx.table ∧ row.userId = userId :=
  mem_of_rowsOf h.found

/-- **When credentials are accepted.** -/
theorem validateUserCredentials_eq_iff {pbkdf2 : Pbkdf2} {w : World} {ctx : HStarContext}
    {userId password : Bytes} {userInfo : UserDto} :
    validateUserCredentials pbkdf2 w ctx userId password = .ok (.success, some userInfo) ↔
      ∃ row, Validates pbkdf2 w ctx userId password row ∧ userInfo = userInfoOf row := by
  constructor
  · intro h
    simp only [validateUserCredentials, singleNoTracking] at h
    cases hread : w.readOk with
    | false => simp [hread] at h
    | true =>
      match hrows : ctx.rowsOf userId with
      | [] => simp [hread, hrows] at h
      | _ :: _ :: _ => simp [hread, hrows] at h
      | [row] =>
        by_cases halive : row.isAlive = ascii "N"
        · simp [hread, hrows, halive] at h
        · cases hverify : PasswordHelper.verifyPassword pbkdf2 row.password password with
          | error e => simp [hread, hrows, halive, hverify] at h
          | ok verified =>
            cases verified with
            | false => simp [hread, hrows, halive, hverify] at h
            | true =>
              simp only [hread, hrows, halive, hverify, if_true, if_false, Except.ok.injEq,
                Prod.mk.injEq, Option.some.injEq, true_and] at h
              exact ⟨row, ⟨hread, hrows, halive, hverify⟩, h.symm⟩
  · rintro ⟨row, hrow, rfl⟩
    simp [validateUserCredentials, singleNoTracking, hrow.readOk, hrow.found, hrow.alive,
      hrow.verified]

/-- A request goes on after its validation exactly when that succeeds. -/
theorem validated_eq_more_iff {pbkdf2 : Pbkdf2} {w : World} {api : ApiServer}
    {userId password : Bytes} {refusal : ApiException} {next : UserDto → Task} {task : Task} :
    validated pbkdf2 w api userId password refusal next = .more task ↔
      ∃ row, Validates pbkdf2 w api.context userId password row ∧ task = next (userInfoOf row) := by
  constructor
  · intro h
    unfold validated at h
    split at h
    · cases h
    · rename_i userInfo hvalid
      obtain ⟨row, hrow, rfl⟩ := validateUserCredentials_eq_iff.mp hvalid
      exact ⟨row, hrow, (Progress.more.inj h).symm⟩
    · cases h
  · rintro ⟨row, hrow, rfl⟩
    rw [validated, validateUserCredentials_eq_iff.mpr ⟨row, hrow, rfl⟩]

/-- The query finds the one row of the account. -/
def Finds (w : World) (ctx : HStarContext) (userId : Bytes) (row : UserRow) : Prop :=
  w.queryOk = true ∧ ctx.rowsOf userId = [row]

theorem Finds.mem {w : World} {ctx : HStarContext} {userId : Bytes} {row : UserRow}
    (h : Finds w ctx userId row) : row ∈ ctx.table ∧ row.userId = userId :=
  mem_of_rowsOf h.2

/-- `UpdateUser` and `DeleteUser` reach `SaveChangesAsync` when they find the row. -/
theorem stage_of_finds {w : World} {ctx : HStarContext} {userDto : UserDto} {row : UserRow}
    (assign : UserDto → UserEntity → UserEntity) (h : Finds w ctx userDto.userId row) :
    stage assign w ctx userDto = .ok ((ctx.track row).update row.id (assign userDto)) := by
  simp [stage, single, singleNoTracking, h.1, h.2]

theorem stage_of_not_finds {w : World} {ctx : HStarContext} {userDto : UserDto}
    (assign : UserDto → UserEntity → UserEntity) (h : ∀ row, ¬ Finds w ctx userDto.userId row) :
    stage assign w ctx userDto = .error (ctx.single w.queryOk userDto.userId).1 := by
  simp only [stage, single, singleNoTracking]
  cases hquery : w.queryOk with
  | false => rfl
  | true =>
    match hrows : ctx.rowsOf userDto.userId with
    | [] => rfl
    | [row] => exact absurd ⟨hquery, hrows⟩ (h row)
    | _ :: _ :: _ => rfl

/-- Without the row they fail, and only the query has happened. -/
theorem change_of_not_finds {w : World} {ctx : HStarContext} {userDto : UserDto}
    (assign : UserDto → UserEntity → UserEntity) (h : ∀ row, ¬ Finds w ctx userDto.userId row) :
    change assign w ctx userDto = ((ctx.single w.queryOk userDto.userId).1, .failure) := by
  rw [change, stage_of_not_finds assign h]

/-- The context that a waiting request hands to `SaveChangesAsync`, if it gets there. -/
def Task.toSave (w : World) (ctx : HStarContext) : Task → Option HStarContext
  | .insert _ userDto => some (ctx.add (newEntity userDto))
  | .update userInfo => (stage assignUpdate w ctx userInfo).toOption
  | .delete userInfo => (stage assignDelete w ctx userInfo).toOption
  | .getAccount .. => none
  | .transact .. => none

/-- The two writes, with their assignments and the user that they hand over. -/
inductive Task.Writes : Task → (UserDto → UserEntity → UserEntity) → UserDto → Prop
  | update (userInfo : UserDto) : Task.Writes (.update userInfo) assignUpdate userInfo
  | delete (userInfo : UserDto) : Task.Writes (.delete userInfo) assignDelete userInfo

section Writes

variable {w : World} {api : ApiServer} {ctx ctx' : HStarContext} {task : Task} {userInfo : UserDto}
  {assign : UserDto → UserEntity → UserEntity}

/-- Both assignments leave the key alone. -/
theorem Task.Writes.assign_id (h : task.Writes assign userInfo) (e : UserEntity) :
    (assign userInfo e).id = e.id := by
  cases h <;> rfl

theorem Task.Writes.assign_userId (h : task.Writes assign userInfo) (e : UserEntity) :
    (assign userInfo e).userId = e.userId := by
  cases h <;> rfl

theorem Task.Writes.toSave_eq (h : task.Writes assign userInfo) :
    task.toSave w ctx = (stage assign w ctx userInfo).toOption := by
  cases h <;> rfl

theorem Task.Writes.proceed_eq (h : task.Writes assign userInfo) :
    proceed w api task = ({ api with context := (change assign w api.context userInfo).1 },
      .done (respond (change assign w api.context userInfo).2 task)) := by
  cases h <;> rfl

/-- A write reaches the save when it finds the row. -/
theorem Task.Writes.toSave_of_finds (h : task.Writes assign userInfo) {row : UserRow}
    (hfound : Finds w ctx userInfo.userId row) :
    task.toSave w ctx = some ((ctx.track row).update row.id (assign userInfo)) := by
  rw [h.toSave_eq, stage_of_finds assign hfound]
  rfl

theorem Task.Writes.toSave_of_not_finds (h : task.Writes assign userInfo)
    (hnot : ∀ row, ¬ Finds w ctx userInfo.userId row) : task.toSave w ctx = none := by
  rw [h.toSave_eq, stage_of_not_finds assign hnot]
  rfl

theorem Task.Writes.finds_of_toSave (h : task.Writes assign userInfo)
    (hsave : task.toSave w ctx = some ctx') :
    ∃ row, Finds w ctx userInfo.userId row ∧
      ctx' = (ctx.track row).update row.id (assign userInfo) := by
  by_cases hfound : ∃ row, Finds w ctx userInfo.userId row
  · obtain ⟨row, hfound⟩ := hfound
    rw [h.toSave_of_finds hfound] at hsave
    exact ⟨row, hfound, (Option.some.inj hsave).symm⟩
  · rw [h.toSave_of_not_finds (not_exists.mp hfound)] at hsave
    cases hsave

/-- **Inversion.** What is handed to `SaveChangesAsync` is the context with a new entity, or
with an assignment to the entity of a row. -/
theorem Task.toSave_cases (h : task.toSave w ctx = some ctx') :
    (∃ request userDto, task = .insert request userDto ∧ ctx' = ctx.add (newEntity userDto)) ∨
    ∃ assign userInfo row, task.Writes assign userInfo ∧ Finds w ctx userInfo.userId row ∧
      ctx' = (ctx.track row).update row.id (assign userInfo) := by
  cases task with
  | insert request userDto => exact Or.inl ⟨request, userDto, rfl, (Option.some.inj h).symm⟩
  | update userInfo =>
    obtain ⟨row, hrow⟩ := Task.Writes.finds_of_toSave (.update userInfo) h
    exact Or.inr ⟨assignUpdate, userInfo, row, .update userInfo, hrow⟩
  | delete userInfo =>
    obtain ⟨row, hrow⟩ := Task.Writes.finds_of_toSave (.delete userInfo) h
    exact Or.inr ⟨assignDelete, userInfo, row, .delete userInfo, hrow⟩
  | getAccount => cases h
  | transact => cases h

end Writes

/-- What `SaveChangesAsync` makes the repository return. -/
def saveStatus (saved : Bool) : UserStatusCode := if saved then .success else .failure

theorem save_eq (w : World) (ctx : HStarContext) :
    save w ctx = ((ctx.saveChanges w.toSaveWorld).1,
      saveStatus (ctx.saveChanges w.toSaveWorld).2) := by
  unfold save
  rcases ctx.saveChanges w.toSaveWorld with ⟨ctx, _ | _⟩ <;> rfl

/-- A request that reaches `SaveChangesAsync` is answered by what it does. -/
theorem proceed_of_toSave {w : World} {api : ApiServer} {task : Task} {ctx : HStarContext}
    (h : task.toSave w api.context = some ctx) :
    proceed w api task = ({ api with context := (ctx.saveChanges w.toSaveWorld).1 },
      .done (respond (saveStatus (ctx.saveChanges w.toSaveWorld).2) task)) := by
  rcases Task.toSave_cases h with
    ⟨request, userDto, rfl, rfl⟩ | ⟨assign, userInfo, row, hwrites, hfound, rfl⟩
  · simp only [proceed, createUserInsert, save_eq]
  · rw [hwrites.proceed_eq, change, stage_of_finds assign hfound]
    simp only [save_eq]

/-- A request that does not get there changes no row: it leaves the context alone, or as
its query left it. -/
theorem proceed_of_toSave_none {w : World} {api : ApiServer} {task : Task}
    (h : task.toSave w api.context = none) :
    (proceed w api task).1.context = api.context ∨
    ∃ userId, (proceed w api task).1.context = (api.context.single w.queryOk userId).1 := by
  have hwrites : ∀ {assign userInfo}, task.Writes assign userInfo →
      (proceed w api task).1.context = (api.context.single w.queryOk userInfo.userId).1 := by
    intro assign userInfo hw
    have hnot : ∀ row, ¬ Finds w api.context userInfo.userId row := fun row hfound => by
      rw [hw.toSave_of_finds hfound] at h
      cases h
    rw [hw.proceed_eq, change_of_not_finds assign hnot]
  cases task with
  | insert => cases h
  | update userInfo => exact Or.inr ⟨_, hwrites (.update userInfo)⟩
  | delete userInfo => exact Or.inr ⟨_, hwrites (.delete userInfo)⟩
  | getAccount =>
    rw [proceed]
    split <;> exact Or.inl rfl
  | transact => exact Or.inl rfl

theorem createUserLookup_context (w : World) (ctx : HStarContext) (userDto : UserDto) :
    (createUserLookup w ctx userDto).1 = (ctx.single w.readOk userDto.userId).1 := by
  unfold createUserLookup
  split <;> rename_i hsingle <;> rw [hsingle]

/-- The beginning of a `Create` is a tracking query. -/
theorem begin_create_fst (pbkdf2 : Pbkdf2) (w : World) (api : ApiServer)
    (request : CreateUserRequest) :
    (begin pbkdf2 w api (.create request)).1 =
      { api with context := (api.context.single w.readOk request.userId).1 } := by
  have hbegin : (begin pbkdf2 w api (.create request)).1 =
      { api with
        context := (createUserLookup w api.context (newUser pbkdf2 w request)).1 } := by
    simp only [begin]
    split <;> rename_i hlookup <;> rw [hlookup]
  rw [hbegin, createUserLookup_context]
  rfl

theorem begin_redis (pbkdf2 : Pbkdf2) (w : World) (api : ApiServer) (request : Request) :
    (begin pbkdf2 w api request).1.redis = api.redis := by
  cases request with
  | create request => rw [begin_create_fst]
  | _ => rfl

theorem begin_table (pbkdf2 : Pbkdf2) (w : World) (api : ApiServer) (request : Request) :
    (begin pbkdf2 w api request).1.context.table = api.context.table := by
  cases request with
  | create request =>
    rw [begin_create_fst]
    exact single_table _ _
  | _ => rfl

/-- A `Create` goes on when no row has the user id; its query has tracked nothing then. -/
theorem begin_create_more {pbkdf2 : Pbkdf2} {w : World} {api : ApiServer}
    {request : CreateUserRequest} {task : Task}
    (h : (begin pbkdf2 w api (.create request)).2 = .more task) :
    api.context.rowsOf request.userId = [] ∧
      task = .insert request (newUser pbkdf2 w request) ∧
      begin pbkdf2 w api (.create request) = (api, .more task) := by
  have huserId : (newUser pbkdf2 w request).userId = request.userId := rfl
  cases hread : w.readOk with
  | false => simp [begin, createUserLookup, single, singleNoTracking, hread] at h
  | true =>
    match hrows : api.context.rowsOf request.userId with
    | [] =>
      have hbegin : begin pbkdf2 w api (.create request) =
          (api, .more (.insert request (newUser pbkdf2 w request))) := by
        simp [begin, createUserLookup, single, singleNoTracking, hread, huserId, hrows]
      rw [hbegin] at h
      obtain rfl := Progress.more.inj h
      exact ⟨rfl, rfl, hbegin⟩
    -- one row: the id exists; two rows: the query throws
    | [row] => simp [begin, createUserLookup, single, singleNoTracking, hread, huserId, hrows] at h
    | _ :: _ :: _ =>
      simp [begin, createUserLookup, single, singleNoTracking, hread, huserId, hrows] at h

/-- Whatever a request still waits for after that is no save. -/
theorem next_more_toSave {w : World} {p : ApiServer × Progress} {task : Task}
    (h : (next w p).2 = .more task) (ctx : HStarContext) : task.toSave w ctx = none := by
  match p with
  | (_, .done _) => cases h
  | (api, .more (.getAccount sessionId accountId)) =>
    simp only [next, proceed] at h
    split at h
    · exact Progress.more.inj h ▸ rfl
    · cases h
  | (_, .more (.insert ..)) | (_, .more (.update _)) | (_, .more (.delete _))
  | (_, .more (.transact ..)) => cases h

/-! ## The invariant over requests -/

/-- What a request is about to save mirrors the table as well, and has the same rows. -/
theorem Task.toSave_coherent {w : World} {ctx ctx' : HStarContext} (h : ctx.Coherent)
    {task : Task} (hsave : task.toSave w ctx = some ctx') : ctx'.Coherent := by
  rcases Task.toSave_cases hsave with
    ⟨-, userDto, -, rfl⟩ | ⟨assign, userInfo, row, hwrites, hfound, rfl⟩
  · exact h.add _
  · exact (h.track hfound.mem.1).update row.id hwrites.assign_id hwrites.assign_userId

theorem Task.toSave_table {w : World} {ctx ctx' : HStarContext} {task : Task}
    (h : task.toSave w ctx = some ctx') : ctx'.table = ctx.table := by
  rcases Task.toSave_cases h with ⟨-, userDto, -, rfl⟩ | ⟨assign, userInfo, row, -, -, rfl⟩
  · rfl
  · exact track_table row

theorem coherent_begin (pbkdf2 : Pbkdf2) (w : World) {api : ApiServer}
    (h : api.context.Coherent) (request : Request) :
    (begin pbkdf2 w api request).1.context.Coherent := by
  cases request with
  | create request =>
    rw [begin_create_fst]
    exact h.single _ _
  | _ => exact h

theorem coherent_proceed (w : World) {api : ApiServer} (h : api.context.Coherent) (task : Task) :
    (proceed w api task).1.context.Coherent := by
  cases hsave : task.toSave w api.context with
  | some ctx =>
    rw [proceed_of_toSave hsave]
    exact (Task.toSave_coherent h hsave).saveChanges _
  | none =>
    rcases proceed_of_toSave_none hsave with heq | ⟨userId, heq⟩ <;> rw [heq]
    · exact h
    · exact h.single _ _

/-- **Step lemma.** Every request keeps the invariant, whatever it is answered. -/
theorem coherent_handle (pbkdf2 : Pbkdf2) (w : World) {api : ApiServer}
    (h : api.context.Coherent) (request : Request) :
    (handle pbkdf2 w api request).1.context.Coherent := by
  -- `handle` is `begin` and then `next` twice
  have hnext : ∀ p : ApiServer × Progress, p.1.context.Coherent →
      (next w p).1.context.Coherent := by
    rintro ⟨api, outcome | task⟩ h
    · exact h
    · exact coherent_proceed w h task
  exact hnext _ (hnext _ (coherent_begin pbkdf2 w h request))

/-- The account whose tracked entity a request assigns to. -/
def Request.account : Request → Option Bytes
  | .update request => some request.userId
  | .delete request => some request.userId
  | .create _ | .login _ | .getUser _ => none

/-- The API server when it starts. -/
def ApiServer.start (table : List UserRow) (redis : Redis) : ApiServer where
  context := { table }
  redis := redis

/-! ## Sequences of requests -/

/-- A request, with what the outside answers to it. -/
abbrev Call := World × Request

variable (pbkdf2 : Pbkdf2)

/-- Serves requests one after the other. -/
def serve : ApiServer → List Call → ApiServer
  | api, [] => api
  | api, (w, request) :: calls => serve (handle pbkdf2 w api request).1 calls

/-- The answers to the requests, each with the table after it. -/
def trace : ApiServer → List Call → List (Progress × List UserRow)
  | _, [] => []
  | api, (w, request) :: calls =>
    ((handle pbkdf2 w api request).2, (handle pbkdf2 w api request).1.context.table) ::
      trace (handle pbkdf2 w api request).1 calls

/-- The context that a request hands to `SaveChangesAsync`, if it gets there. -/
def reachesSave (w : World) (api : ApiServer) (request : Request) : Option HStarContext :=
  match begin pbkdf2 w api request with
  | (api, .more task) => task.toSave w api.context
  | (_, .done _) => none

theorem reachesSave_of_more {w : World} {api : ApiServer} {request : Request} {task : Task}
    (h : (begin pbkdf2 w api request).2 = .more task) :
    reachesSave pbkdf2 w api request =
      task.toSave w (begin pbkdf2 w api request).1.context := by
  rw [reachesSave]
  split <;> rename_i hbegin <;> simp_all

/-- The task that a request saves with. -/
inductive Request.Submits : Request → Task → Prop
  | insert {q : CreateUserRequest} {userDto : UserDto} :
      Request.Submits (.create q) (.insert q userDto)
  | update {q : UpdateUserRequest} {userInfo : UserDto} (huserId : userInfo.userId = q.userId) :
      Request.Submits (.update q) (.update userInfo)
  | delete {q : DeleteUserRequest} {userInfo : UserDto} (huserId : userInfo.userId = q.userId) :
      Request.Submits (.delete q) (.delete userInfo)

/-- **Inversion.** A request that reaches the save has changed nothing before. -/
theorem reachesSave_cases {w : World} {api : ApiServer} {request : Request} {ctx : HStarContext}
    (h : reachesSave pbkdf2 w api request = some ctx) :
    ∃ task, begin pbkdf2 w api request = (api, .more task) ∧
      task.toSave w api.context = some ctx ∧ request.Submits task := by
  cases hmore : (begin pbkdf2 w api request).2 with
  | done outcome =>
    rw [reachesSave] at h
    split at h
    · rename_i hbegin
      rw [hbegin] at hmore
      cases hmore
    · cases h
  | more task =>
    rw [reachesSave_of_more pbkdf2 hmore] at h
    cases request with
    | create q =>
      obtain ⟨-, rfl, hbegin⟩ := begin_create_more hmore
      rw [hbegin] at h
      exact ⟨_, hbegin, h, .insert⟩
    | update q =>
      obtain ⟨row, hrow, rfl⟩ := validated_eq_more_iff.mp hmore
      exact ⟨_, Prod.ext rfl hmore, h, .update hrow.mem.2⟩
    | delete q =>
      obtain ⟨row, hrow, rfl⟩ := validated_eq_more_iff.mp hmore
      exact ⟨_, Prod.ext rfl hmore, h, .delete hrow.mem.2⟩
    | login q =>
      obtain ⟨row, -, rfl⟩ := validated_eq_more_iff.mp hmore
      cases h
    | getUser => cases hmore

theorem coherent_serve {api : ApiServer} (h : api.context.Coherent) (calls : List Call) :
    (serve pbkdf2 api calls).context.Coherent := by
  induction calls generalizing api with
  | nil => exact h
  | cons call calls ih => exact ih (coherent_handle pbkdf2 call.1 h call.2)

/-! ## Interleavings -/

/-- A request that waits. -/
structure Waiting where
  world : World
  request : Request
  task : Task

structure Answer where
  world : World
  request : Request
  outcome : Outcome

/-- The API server with the requests that it is serving. -/
structure Sys where
  api : ApiServer
  waiting : List Waiting := []
  /-- Newest first; no step reads it. -/
  answered : List Answer := []

inductive Action
  | begin (world : World) (request : Request)
  | proceed (k : Nat)

/-- A request waits again or is answered. -/
def Sys.place (s : Sys) (w : World) (request : Request) : ApiServer × Progress → Sys
  | (api, .more task) => { s with api, waiting := s.waiting ++ [⟨w, request, task⟩] }
  | (api, .done outcome) => { s with api, answered := ⟨w, request, outcome⟩ :: s.answered }

def step (s : Sys) : Action → Option Sys
  | .begin w request => some (s.place w request (begin pbkdf2 w s.api request))
  | .proceed k =>
    match s.waiting[k]? with
    | none => none
    | some x => some <|
        { s with waiting := s.waiting.eraseIdx k }.place x.world x.request
          (proceed x.world s.api x.task)

variable {pbkdf2} {s t : Sys} {a : Action}

@[simp] theorem Sys.place_api (s : Sys) (w : World) (request : Request)
    (p : ApiServer × Progress) : (s.place w request p).api = p.1 := by
  rcases p with ⟨api, _ | _⟩ <;> rfl

theorem Sys.mem_place {w : World} {request : Request} {p : ApiServer × Progress} {x : Waiting}
    (h : x ∈ (s.place w request p).waiting) : x ∈ s.waiting ∨ p.2 = .more x.task := by
  rcases p with ⟨api, outcome | task⟩
  · exact Or.inl h
  · rcases List.mem_append.mp h with h | h
    · exact Or.inl h
    · rw [List.mem_singleton.mp h]
      exact Or.inr rfl

/-- A step of the API server begins a request or continues one that waits. -/
theorem step_cases (h : step pbkdf2 s a = some t) :
    (∃ w request, a = .begin w request ∧ t = s.place w request (begin pbkdf2 w s.api request)) ∨
    ∃ k x, a = .proceed k ∧ s.waiting[k]? = some x ∧ x ∈ s.waiting ∧
      t = { s with waiting := s.waiting.eraseIdx k }.place x.world x.request
        (proceed x.world s.api x.task) := by
  cases a with
  | begin w request => exact Or.inl ⟨w, request, rfl, (Option.some.inj h).symm⟩
  | proceed k =>
    cases hk : s.waiting[k]? with
    | none => simp [step, hk] at h
    | some x =>
      simp only [step, hk, Option.some.injEq] at h
      exact Or.inr ⟨k, x, rfl, hk, List.mem_of_getElem? hk, h.symm⟩

/-- **Step lemma.** -/
theorem coherent_step (h : s.api.context.Coherent) (hstep : step pbkdf2 s a = some t) :
    t.api.context.Coherent := by
  rcases step_cases hstep with ⟨w, request, -, rfl⟩ | ⟨k, x, -, -, -, rfl⟩ <;> rw [Sys.place_api]
  · exact coherent_begin pbkdf2 w h request
  · exact coherent_proceed x.world h x.task

/-- **Run lemma.** The tracker mirrors the table in every reachable state. -/
theorem coherent_run {ok : Sys → Action → Prop} {as : List Action}
    (hrun : Run (step pbkdf2) ok s as t) (h : s.api.context.Coherent) : t.api.context.Coherent :=
  hrun.invariant (I := fun s => s.api.context.Coherent)
    (fun _ _ _ h _ hstep => coherent_step h hstep) h

/-- The transaction of `CreateSession` that reaches Redis in a step: the new session id, the
account, and the session id that was read before. -/
def Sys.transacts (s : Sys) : Action → Option (Bytes × Nat × Option Bytes)
  | .begin _ _ => none
  | .proceed k =>
    match s.waiting[k]? with
    | some ⟨w, _, .transact sessionId accountId existing⟩ =>
      if w.exec = .lost then none else some (sessionId, accountId, existing)
    | _ => none

/-- Redis changes by this transaction only, whether the caller learns of it or not. -/
theorem step_redis (hstep : step pbkdf2 s a = some t) :
    t.api.redis = ((s.transacts a).bind fun (sessionId, accountId, existing) =>
      CacheRepository.transaction s.api.redis sessionId accountId existing).getD s.api.redis := by
  rcases step_cases hstep with ⟨w, request, rfl, rfl⟩ | ⟨k, ⟨w, request, task⟩, rfl, hk, -, rfl⟩ <;>
    rw [Sys.place_api]
  · exact begin_redis pbkdf2 w s.api request
  · simp only [Sys.transacts, hk]
    cases task with
    | transact sessionId accountId existing =>
      simp only [proceed, CacheRepository.executeTransaction]
      cases hafter : CacheRepository.transaction s.api.redis sessionId accountId existing with
      | none => cases w.exec <;> simp [hafter]
      | some after => cases w.exec <;> simp [hafter]
    | getAccount =>
      simp only [proceed]
      split <;> rfl
    | _ => rfl

/-! ## What a step makes known -/

/-- The session id that a step of the API server stores in Redis, with its account. -/
def Sys.stores (s : Sys) : Action → Option (Bytes × Nat)
  | .begin _ _ => none
  | .proceed k =>
    match s.waiting[k]? with
    | some ⟨w, _, .transact sessionId accountId existing⟩ =>
      if (CacheRepository.transaction s.api.redis sessionId accountId existing).isSome ∧
          w.exec ≠ .lost then
        some (sessionId, accountId)
      else none
    | _ => none

/-- A transaction that is executed stores its session. -/
theorem stores_of_transacts {sessionId : Bytes} {accountId : Nat} {existing : Option Bytes}
    {after : Redis} (h : s.transacts a = some (sessionId, accountId, existing))
    (hafter : CacheRepository.transaction s.api.redis sessionId accountId existing = some after) :
    s.stores a = some (sessionId, accountId) := by
  unfold Sys.transacts at h
  split at h
  · cases h
  · split at h
    · rename_i hk
      rw [Option.ite_none_left_eq_some, Option.some.injEq, Prod.mk.injEq, Prod.mk.injEq] at h
      obtain ⟨hexec, rfl, rfl, rfl⟩ := h
      simp [Sys.stores, hk, hafter, hexec]
    · cases h

/-- The account that a step of the API server writes back in an update. -/
def Sys.updates (s : Sys) : Action → Option Nat
  | .begin _ _ => none
  | .proceed k =>
    match s.waiting[k]? with
    | some ⟨w, _, .update userInfo⟩ =>
      if ((Task.update userInfo).toSave w s.api.context).isSome then some userInfo.id else none
    | _ => none

/-- The account whose deletion succeeds in a step of the API server. -/
def Sys.deletes (s : Sys) : Action → Option Nat
  | .begin _ _ => none
  | .proceed k =>
    match s.waiting[k]? with
    | some ⟨w, _, .delete userInfo⟩ =>
      if (deleteUser w s.api.context userInfo).2 = .success then
        some userInfo.id
      else none
    | _ => none

end BoostChat.Api
