import BoostChat.Server.System
import BoostChat.Server.Transactions

/-!
# Friend requests, accepts and rejects

The three friend handlers as a transition system over the MySQL connection they share: an
action is one call of a handler, with the session it was made for and every answer from
outside.

* `FriendOp.namedRow` — the account that a message names, when the checks and the look-up that
  all three handlers begin with let it through; `FriendOp.namedId` is what the handlers take
  for its key, which is right as long as the key has 32 bits (`FriendOp.KeyFits`);
* `FriendEffect` — what a handler can do to the connection, and `friendStep_effect` that it
  does nothing else;
* `friendSteps_of_run` — a run of the server is a run of these as far as the connection goes.
-/

namespace BoostChat.Server

open Lib MySQLManager

inductive FriendKind
  | request
  | accept
  | reject
deriving DecidableEq

/-- The account with a user id: the first row that a look-up selects. -/
def accountOf (users : List UserRow) (userId : Bytes) : Option UserRow :=
  users.find? fun row => row.userId == userId

/-- A call of a friend handler. -/
structure FriendOp where
  kind : FriendKind
  user : UserSession
  msg : ChatMessage
  oracle : Oracle := {}

namespace FriendOp

/-- What the handler does before it notifies anybody. -/
def work (op : FriendOp) : Sql UserEntity :=
  match op.kind with
  | .request => do
    TcpServer.validateRequest op.oracle op.user op.msg
    let receiveUser ← TcpServer.checkUserExistence op.oracle op.msg.content
    TcpServer.checkFriendRequestStatus op.oracle op.user receiveUser
    TcpServer.addFriendRequest op.oracle op.user receiveUser
    return receiveUser
  | .accept => do
    TcpServer.validateRequest op.oracle op.user op.msg
    let sender ← TcpServer.checkUserExistence op.oracle op.msg.content
    TcpServer.processFriendAccept op.oracle op.user sender
    return sender
  | .reject => do
    TcpServer.validateRequest op.oracle op.user op.msg
    let sender ← TcpServer.checkUserExistence op.oracle op.msg.content
    TcpServer.processFriendReject op.oracle op.user sender
    return sender

/-- The result of the handler's work and the connection afterwards. -/
def handle (op : FriendOp) (db : MySQLManager) : Except StdException UserEntity × MySQLManager :=
  outcome op.work (db.withFaults op.oracle.sqlFaults)

/-- The text that stands for the session's account in the friend tables. -/
def userId (op : FriendOp) : Bytes := TcpServer.toString op.user.id

/-- The account that the message names, when the handler gets past its checks and the
look-up of the account. -/
def namedRow (op : FriendOp) : Option UserRow :=
  if op.oracle.stopAll ∨ op.msg.content = [] ∨ op.user.userEntity.userId = op.msg.content ∨
      (failsWithin 6 op.oracle.sqlFaults).isSome then none
  else (accountOf op.oracle.users op.msg.content).filter fitsBuffers

/-- The entity that the look-up fills from its row. -/
def named (op : FriendOp) : Option UserEntity := op.namedRow.map entityOfRow

/-- What the handlers write for the account into the friend tables: `SetId` has cut its key
to 32 bits. -/
def namedId (op : FriendOp) : Option Bytes :=
  op.named.map fun entity => TcpServer.toString entity.id

/-- The key of the account that the message names. -/
def namedKey (op : FriendOp) : Option Bytes := op.namedRow.map fun row => decimal row.id

/-- The key of the account that the message names has 32 bits. -/
def KeyFits (op : FriendOp) : Prop := ∀ row ∈ op.namedRow, row.id < 2 ^ 32

instance (op : FriendOp) : Decidable op.KeyFits :=
  inferInstanceAs (Decidable (∀ row ∈ op.namedRow, _))

end FriendOp

/-- The text of a key that is cut to 32 bits is that of the key when it has no more. -/
theorem toString_toUInt32_iff (id : Nat) :
    TcpServer.toString id.toUInt32 = decimal id ↔ id < 2 ^ 32 := by
  have hcut : TcpServer.toString id.toUInt32 = decimal (id % 2 ^ 32) := by
    rw [TcpServer.toString, Nat.toUInt32, UInt32.toNat_ofNat']
  rw [hcut, decimal_injective.eq_iff]
  exact ⟨fun h => h ▸ Nat.mod_lt _ (Nat.two_pow_pos 32), Nat.mod_eq_of_lt⟩

/-- The handlers write the key of the account as long as it has 32 bits. -/
theorem FriendOp.KeyFits.namedKey {op : FriendOp} (h : op.KeyFits) : op.namedKey = op.namedId := by
  rw [FriendOp.namedKey, FriendOp.namedId, FriendOp.named, Option.map_map]
  refine Option.map_congr fun row hrow => ?_
  exact ((toString_toUInt32_iff row.id).mpr (h row hrow)).symm

/-- One call of a friend handler. -/
def friendStep (db : MySQLManager) (op : FriendOp) : Option MySQLManager := some (op.handle db).2

section Handlers

variable (o : Oracle) (s : TcpServer) (user : SessionRef) (msg : ChatMessage)

theorem handleFriendRequest_eq : s.handleFriendRequest o user msg =
    s.tryOrReport o user (FriendOp.work ⟨.request, s.sessions user, msg, o⟩)
      fun s receiveUser => s.notifyUsers user receiveUser := rfl

theorem handleFriendAccept_eq : s.handleFriendAccept o user msg =
    s.tryOrReport o user (FriendOp.work ⟨.accept, s.sessions user, msg, o⟩)
      fun s sender => s.notifyAcceptUsers user sender := rfl

theorem handleFriendReject_eq : s.handleFriendReject o user msg =
    s.tryOrReport o user (FriendOp.work ⟨.reject, s.sessions user, msg, o⟩)
      fun s sender => s.notifyRejectUsers user sender := rfl

end Handlers

/-! ## Checks and look-ups -/

section Lookup

variable (db : MySQLManager)

/-- `GetUserById` and `GetUserByConditions` make six calls and change nothing. -/
theorem outcome_fetchUser (users : List UserRow) (selects : UserRow → Bool) (notFound : Bytes) :
    (∀ faults, failsWithin 6 db.faults = some faults →
      ∃ e, outcome (fetchUser users selects notFound) db = (.error e, db.withFaults faults)) ∧
    (failsWithin 6 db.faults = none → outcome (fetchUser users selects notFound) db =
      (match users.find? selects with
        | some row => if fitsBuffers row then .ok (entityOfRow row)
          else .error (.runtimeError notFound)
        | none => .error (.runtimeError notFound), db.withFaults (db.faults.drop 6))) := by
  -- five calls open the statement and bind its results, the sixth one fetches the row
  have hassoc (y : Sql UserEntity) : (do openStatement; callOrThrow; y) =
      (do (do openStatement; callOrThrow : Sql Unit); y) := (bind_assoc ..).symm
  have hcalls : Calls 5 (do openStatement; callOrThrow) :=
    calls_openStatement.seq calls_callOrThrow
  rw [show 6 = 5 + 1 from rfl, failsWithin_add, fetchUser, hassoc]
  cases hfive : failsWithin 5 db.faults with
  | some faults =>
    exact ⟨fun faults' h => hcalls.then_error (hfive.trans h) _, fun h => (nomatch h)⟩
  | none =>
    rw [hcalls.then_ok hfive, Option.none_or, ← List.drop_drop]
    refine ⟨fun faults h => ?_, fun h => ?_⟩
    · obtain ⟨error, hfetch⟩ := outcome_call_some (db.withFaults (db.faults.drop 5)) h
      exact ⟨_, outcome_bind_ok hfetch⟩
    · rw [outcome_bind_ok (outcome_call_none (db.withFaults (db.faults.drop 5)) h)]
      cases users.find? selects with
      | none => rfl
      | some row =>
        dsimp only
        split <;> rfl

/-- The checks that come first make no call. -/
theorem outcome_validateRequest (o : Oracle) (user : UserSession) (msg : ChatMessage) :
    ((o.stopAll = true ∨ msg.content = [] ∨ user.userEntity.userId = msg.content) ∧
      ∃ e, outcome (TcpServer.validateRequest o user msg) db = (.error e, db)) ∨
    (¬ (o.stopAll = true ∨ msg.content = [] ∨ user.userEntity.userId = msg.content) ∧
      outcome (TcpServer.validateRequest o user msg) db = (.ok (), db)) := by
  unfold TcpServer.validateRequest TcpServer.enqueueJob
  by_cases hstop : o.stopAll = true
  · rw [if_pos hstop]
    exact Or.inl ⟨Or.inl hstop, _, rfl⟩
  · rw [if_neg hstop]
    by_cases hempty : msg.content = []
    · rw [if_pos hempty]
      exact Or.inl ⟨Or.inr (Or.inl hempty), _, rfl⟩
    · rw [if_neg hempty]
      by_cases hself : user.userEntity.userId = msg.content
      · rw [if_pos hself]
        exact Or.inl ⟨Or.inr (Or.inr hself), _, rfl⟩
      · refine Or.inr ⟨by simp [hstop, hempty, hself], ?_⟩
        rw [if_neg hself]
        rfl

/-- **The beginning of every friend handler.** It ends with an exception, or it goes on with
the account that the message names, after six calls; it changes nothing. -/
theorem outcome_lookup (op : FriendOp) (rest : UserEntity → Sql UserEntity) :
    (op.named = none ∧ ∃ e faults, outcome (do
        TcpServer.validateRequest op.oracle op.user op.msg
        let entity ← TcpServer.checkUserExistence op.oracle op.msg.content
        rest entity) (db.withFaults op.oracle.sqlFaults) = (.error e, db.withFaults faults)) ∨
    ∃ entity, op.named = some entity ∧ outcome (do
        TcpServer.validateRequest op.oracle op.user op.msg
        let entity ← TcpServer.checkUserExistence op.oracle op.msg.content
        rest entity) (db.withFaults op.oracle.sqlFaults) =
      outcome (rest entity) (db.withFaults (op.oracle.sqlFaults.drop 6)) := by
  rcases outcome_validateRequest (db.withFaults op.oracle.sqlFaults) op.oracle op.user op.msg with
    ⟨hrefused, e, herror⟩ | ⟨hallowed, hok⟩
  · refine Or.inl ⟨congrArg (Option.map entityOfRow) (if_pos ?_), e, _,
      outcome_bind_error herror⟩
    rcases hrefused with h | h | h
    · exact Or.inl h
    · exact Or.inr (Or.inl h)
    · exact Or.inr (Or.inr (Or.inl h))
  · rw [not_or, not_or] at hallowed
    obtain ⟨hstop, hempty, hself⟩ := hallowed
    rw [outcome_bind_ok hok, TcpServer.checkUserExistence, TcpServer.enqueueJob, if_neg hstop,
      getUserByConditions]
    have hfetch := outcome_fetchUser (db.withFaults op.oracle.sqlFaults) op.oracle.users
      (fun row => [Condition.mk UserRow.userId op.msg.content].all fun c => c.column row == c.value)
      (ascii "User not found with given conditions")
    -- the one condition of the look-up is that on the user id
    have hselects : (fun row => [Condition.mk UserRow.userId op.msg.content].all fun c =>
        c.column row == c.value) = fun row : UserRow => row.userId == op.msg.content := by
      funext row
      simp
    rw [hselects] at hfetch ⊢
    unfold FriendOp.named FriendOp.namedRow accountOf
    cases hsix : failsWithin 6 op.oracle.sqlFaults with
    | some faults =>
      obtain ⟨e, herror⟩ := hfetch.1 faults hsix
      refine Or.inl ⟨?_, e, faults, outcome_bind_error herror⟩
      rw [if_pos (by simp), Option.map_none]
    | none =>
      have hfound := hfetch.2 hsix
      rw [if_neg (by simp [hstop, hempty, hself])]
      cases hfind : op.oracle.users.find? fun row => row.userId == op.msg.content with
      | none =>
        rw [hfind] at hfound
        exact Or.inl ⟨rfl, _, _, outcome_bind_error hfound⟩
      | some row =>
        rw [hfind] at hfound
        dsimp only at hfound
        rw [Option.filter_some]
        by_cases hfits : fitsBuffers row = true
        · rw [if_pos hfits] at hfound ⊢
          exact Or.inr ⟨_, rfl, outcome_bind_ok hfound⟩
        · rw [if_neg hfits] at hfound ⊢
          exact Or.inl ⟨rfl, _, _, outcome_bind_error hfound⟩

/-! ## The request handler -/

/-- The answer of `HasFriendRequest`, and the answers to calls that are left after it. It
answers from the table when its six calls succeed, and with `false` otherwise. -/
def lookUpRequest (t : Tables) (senderId receiverId : Bytes) (faults : List (Option Bytes)) :
    Bool × List (Option Bytes) :=
  match failsWithin 6 faults with
  | some rest => (false, rest)
  | none => (decide (0 < countFriendRequests t senderId receiverId), faults.drop 6)

theorem outcome_hasFriendRequest (senderId receiverId : Bytes) :
    outcome (hasFriendRequest senderId receiverId) db =
      (.ok (lookUpRequest db.working senderId receiverId db.faults).1,
        db.withFaults (lookUpRequest db.working senderId receiverId db.faults).2) := by
  have hassoc (y : Sql Bool) : (do openStatement; callOrThrow; callOrThrow; y) =
      (do (do openStatement; callOrThrow; callOrThrow : Sql Unit); y) := by
    simp only [bind_assoc]
  have hcalls : Calls 6 (do openStatement; callOrThrow; callOrThrow) :=
    calls_openStatement.seq (calls_callOrThrow.seq calls_callOrThrow)
  rw [hasFriendRequest, hassoc, lookUpRequest]
  cases hsix : failsWithin 6 db.faults with
  | some faults =>
    obtain ⟨e, herror⟩ := hcalls.then_error hsix (do
      return decide (0 < countFriendRequests (← get).working senderId receiverId) : Sql Bool)
    exact outcome_tryCatch_error herror
  | none =>
    have hok := hcalls.then_ok hsix (do
      return decide (0 < countFriendRequests (← get).working senderId receiverId) : Sql Bool)
    exact outcome_tryCatch_ok hok

/-- The answers that are left after `CheckFriendRequestStatus`, when it lets a request pass:
it asks for both directions, for the second when the first has no request. -/
def passesStatus (t : Tables) (senderId receiverId : Bytes) (faults : List (Option Bytes)) :
    Option (List (Option Bytes)) :=
  let first := lookUpRequest t senderId receiverId faults
  if first.1 then none
  else
    let second := lookUpRequest t receiverId senderId first.2
    if second.1 then none else some second.2

theorem lookUpRequest_true {t : Tables} {senderId receiverId : Bytes}
    {faults : List (Option Bytes)} (h : (lookUpRequest t senderId receiverId faults).1 = true) :
    0 < countFriendRequests t senderId receiverId := by
  unfold lookUpRequest at h
  split at h
  · cases h
  · exact of_decide_eq_true h

/-- A request that does not pass was found. -/
theorem passesStatus_none {t : Tables} {senderId receiverId : Bytes}
    {faults : List (Option Bytes)} (h : passesStatus t senderId receiverId faults = none) :
    0 < countFriendRequests t senderId receiverId ∨
      0 < countFriendRequests t receiverId senderId := by
  unfold passesStatus at h
  dsimp only at h
  split at h
  · rename_i hfirst
    exact Or.inl (lookUpRequest_true hfirst)
  · split at h
    · rename_i hsecond
      exact Or.inr (lookUpRequest_true hsecond)
    · cases h

/-- When no call fails, a request that passes has no other one in its way. -/
theorem passesStatus_some {t : Tables} {senderId receiverId : Bytes}
    {faults rest : List (Option Bytes)}
    (h : passesStatus t senderId receiverId faults = some rest)
    (htwelve : failsWithin 12 faults = none) :
    rest = faults.drop 12 ∧ countFriendRequests t senderId receiverId = 0 ∧
      countFriendRequests t receiverId senderId = 0 := by
  rw [show 12 = 6 + 6 from rfl, failsWithin_add, Option.or_eq_none_iff] at htwelve
  obtain ⟨hfirst, hsecond⟩ := htwelve
  simp only [passesStatus, lookUpRequest, hfirst, hsecond, decide_eq_true_eq] at h
  split at h
  · cases h
  · rename_i hnone
    split at h
    · cases h
    · rename_i hnone'
      refine ⟨?_, Nat.eq_zero_of_not_pos hnone, Nat.eq_zero_of_not_pos hnone'⟩
      rw [← Option.some.inj h, List.drop_drop]

/-- `CheckFriendRequestStatus`, when the thread pool runs. -/
theorem outcome_checkFriendRequestStatus (o : Oracle) (user : UserSession) (entity : UserEntity)
    (hstop : o.stopAll = false) :
    (passesStatus db.working (TcpServer.toString user.id) (TcpServer.toString entity.id)
        db.faults = none ∧
      ∃ e faults, outcome (TcpServer.checkFriendRequestStatus o user entity) db =
        (.error e, db.withFaults faults)) ∨
    ∃ faults, passesStatus db.working (TcpServer.toString user.id)
        (TcpServer.toString entity.id) db.faults = some faults ∧
      outcome (TcpServer.checkFriendRequestStatus o user entity) db =
        (.ok (), db.withFaults faults) := by
  unfold TcpServer.checkFriendRequestStatus TcpServer.enqueueJob passesStatus
  rw [hstop, if_neg Bool.false_ne_true, outcome_bind_ok (outcome_hasFriendRequest db _ _)]
  dsimp only
  cases (lookUpRequest db.working (TcpServer.toString user.id) (TcpServer.toString entity.id)
    db.faults).1 with
  | true => exact Or.inl ⟨rfl, _, _, rfl⟩
  | false =>
    rw [if_neg Bool.false_ne_true, if_neg Bool.false_ne_true,
      outcome_bind_ok (outcome_hasFriendRequest _ _ _), withFaults_working, withFaults_faults]
    cases (lookUpRequest db.working (TcpServer.toString entity.id) (TcpServer.toString user.id)
      (lookUpRequest db.working (TcpServer.toString user.id) (TcpServer.toString entity.id)
        db.faults).2).1 with
    | true => exact Or.inl ⟨rfl, _, _, rfl⟩
    | false => exact Or.inr ⟨_, rfl, rfl⟩

end Lookup

/-! ## The statements of the handlers -/

/-- The `INSERT` of `AddFriendRequest`. -/
def insertRequest (senderId receiverId : Bytes) : Statement where
  failure := "Failed to add user: "
  query t :=
    ({ t with friendRequests := t.friendRequests ++ [⟨senderId, receiverId, ascii "P"⟩] }, 1)

/-- The rows from one user to another. -/
def FriendRequestRow.fromTo (senderId receiverId : Bytes) (row : FriendRequestRow) : Bool :=
  row.senderId == senderId && row.receiverId == receiverId

/-- The `UPDATE` of `UpdateFriend` with the status `A`. -/
def acceptRequest (senderId receiverId : Bytes) : Statement where
  failure := "Failed to update user: "
  query t :=
    ({ t with friendRequests := t.friendRequests.map fun row =>
        if row.fromTo senderId receiverId then { row with status := ascii "A" } else row },
      t.friendRequests.countP fun row =>
        row.fromTo senderId receiverId && row.status != ascii "A")

/-- The `INSERT` of `AddFriendship`. -/
def insertFriendship (userId1 userId2 : Bytes) : Statement where
  failure := "Failed to add user: "
  query t := ({ t with friendships := t.friendships ++ [⟨userId1, userId2⟩] }, 1)

/-- The `DELETE` of `DeleteFriendRequest`. -/
def deleteRequest (senderId receiverId : Bytes) : Statement where
  failure := "Failed to update user: "
  query t :=
    ({ t with friendRequests := t.friendRequests.filter fun row =>
        !row.fromTo senderId receiverId },
      t.friendRequests.countP fun row => row.fromTo senderId receiverId)

namespace FriendOp

/-- The transaction of an accept or a reject. -/
def statements (op : FriendOp) (senderId : Bytes) : List Statement :=
  match op.kind with
  | .request => []
  | .accept => [acceptRequest senderId op.userId, insertFriendship senderId op.userId]
  | .reject => [deleteRequest senderId op.userId]

end FriendOp

theorem processFriendAccept_eq (o : Oracle) (user : UserSession) (sender : UserEntity)
    (hstop : o.stopAll = false) : TcpServer.processFriendAccept o user sender =
      transaction [acceptRequest (TcpServer.toString sender.id) (TcpServer.toString user.id),
        insertFriendship (TcpServer.toString sender.id) (TcpServer.toString user.id)]
        (ascii "Failed to process friend accept.") := by
  rw [TcpServer.processFriendAccept, TcpServer.enqueueJob, hstop, if_neg Bool.false_ne_true,
    transaction]
  simp only [runStatements, bind_assoc, pure_bind]
  rfl

theorem processFriendReject_eq (o : Oracle) (user : UserSession) (sender : UserEntity)
    (hstop : o.stopAll = false) : TcpServer.processFriendReject o user sender =
      transaction [deleteRequest (TcpServer.toString sender.id) (TcpServer.toString user.id)]
        (ascii "Failed to process friend reject.") := by
  rw [TcpServer.processFriendReject, TcpServer.enqueueJob, hstop, if_neg Bool.false_ne_true,
    transaction]
  simp only [runStatements, bind_assoc, pure_bind]
  rfl

theorem addFriendRequest_eq (unspecified : Bool) (senderId receiverId : Bytes) :
    MySQLManager.addFriendRequest unspecified senderId receiverId = (do
      executeOr "Failed to add user: " (insertRequest senderId receiverId).query
      return unspecified) := rfl

/-- `AddFriendRequest`: a call before the `INSERT` fails, or it takes effect. The caller is
told so when the call after it succeeds and the value that is not returned is `true`. -/
theorem outcome_addFriendRequest (db : MySQLManager) (o : Oracle) (user : UserSession)
    (entity : UserEntity) (hstop : o.stopAll = false) :
    ((failsWithin 4 db.faults).isNone = false ∧ ∃ e faults,
      outcome (TcpServer.addFriendRequest o user entity) db = (.error e, db.withFaults faults)) ∨
    ((failsWithin 4 db.faults).isNone = true ∧ ∃ res faults,
      outcome (TcpServer.addFriendRequest o user entity) db =
        (res, (db.execute (insertRequest (TcpServer.toString user.id)
          (TcpServer.toString entity.id)).query).withFaults faults) ∧
      (res = .ok () ↔ ((failsWithin 5 db.faults).isNone && o.unspecified) = true)) := by
  rw [TcpServer.addFriendRequest, TcpServer.enqueueJob, hstop, if_neg Bool.false_ne_true,
    addFriendRequest_eq]
  obtain ⟨res, db', hinsert, hexecuted⟩ := outcome_executeOr "Failed to add user: "
    (insertRequest (TcpServer.toString user.id) (TcpServer.toString entity.id)).query db
  cases hexecuted with
  | @refused e faults hcalls =>
    refine Or.inl ⟨?_, e, faults, outcome_bind_error (outcome_bind_error hinsert)⟩
    rw [hcalls]
    rfl
  -- the row is in the table and the fifth call fails
  | @unacknowledged e faults hcalls hstore =>
    refine Or.inr ⟨by rw [hcalls]; rfl, _, _,
      outcome_bind_error (outcome_bind_error hinsert), ?_⟩
    rw [show 5 = 4 + 1 from rfl, failsWithin_add, hcalls, hstore]
    exact iff_of_false (fun h => nomatch h) Bool.false_ne_true
  | unaffected hcalls hrows => exact absurd hrows (Nat.lt_irrefl 1)
  | executed hcalls hrows =>
    -- all five calls succeed, so the value that is not returned decides
    have hreturn := outcome_bind_ok (f := fun _ => (return o.unspecified : Sql Bool)) hinsert
    have hfour : failsWithin 4 db.faults = none := by
      rw [show 5 = 4 + 1 from rfl, failsWithin_add, Option.or_eq_none_iff] at hcalls
      exact hcalls.1
    refine Or.inr ⟨by rw [hfour]; rfl, ?_⟩
    rw [outcome_bind_ok (hreturn.trans (outcome_pure ..)), hcalls]
    cases o.unspecified with
    | true => exact ⟨_, _, rfl, iff_of_true rfl rfl⟩
    | false => exact ⟨_, _, rfl, iff_of_false (fun h => nomatch h) Bool.false_ne_true⟩

/-! ## What each handler does -/

/-- The effect of a handler, one constructor for each way it can go. -/
inductive FriendEffect (op : FriendOp) (db : MySQLManager) :
    Except StdException UserEntity → MySQLManager → Prop
  | refused {e : StdException} {faults : List (Option Bytes)} (hnamed : op.namedId = none) :
    FriendEffect op db (.error e) (db.withFaults faults)
  /-- There is a request between the two users already. -/
  | pending {e : StdException} {faults : List (Option Bytes)} {id : Bytes}
    (hkind : op.kind = .request) (hnamed : op.namedId = some id)
    (hcount : 0 < countFriendRequests db.working op.userId id ∨
      0 < countFriendRequests db.working id op.userId) :
    FriendEffect op db (.error e) (db.withFaults faults)
  /-- The `INSERT` was not executed, because a call failed. -/
  | unsent {e : StdException} {faults : List (Option Bytes)} (hkind : op.kind = .request)
    (hfault : failsWithin 22 op.oracle.sqlFaults ≠ none) :
    FriendEffect op db (.error e) (db.withFaults faults)
  | sent {res : Except StdException UserEntity} {faults : List (Option Bytes)} {id : Bytes}
    (hkind : op.kind = .request) (hnamed : op.namedId = some id)
    (hfree : failsWithin 18 op.oracle.sqlFaults = none →
      countFriendRequests db.working op.userId id = 0 ∧
      countFriendRequests db.working id op.userId = 0) :
    FriendEffect op db res ((db.execute (insertRequest op.userId id).query).withFaults faults)
  | transacted {res : Except StdException Unit} {db' : MySQLManager} {entity : UserEntity}
    (hkind : op.kind ≠ .request) (hnamed : op.named = some entity)
    (htransacted : Transacted (op.statements (TcpServer.toString entity.id))
      (db.withFaults (op.oracle.sqlFaults.drop 6)) res db') :
    FriendEffect op db (res.map fun _ => entity) db'

/-- What the checks and the look-up let through. -/
theorem FriendOp.namedRow_some {op : FriendOp} {row : UserRow} (h : op.namedRow = some row) :
    op.oracle.stopAll = false ∧ op.user.userEntity.userId ≠ op.msg.content ∧
      failsWithin 6 op.oracle.sqlFaults = none ∧
      accountOf op.oracle.users op.msg.content = some row := by
  rw [FriendOp.namedRow, Option.ite_none_left_eq_some, Option.filter_eq_some_iff] at h
  obtain ⟨hguard, haccount, -⟩ := h
  simp only [not_or, Bool.not_eq_true, Option.isSome_eq_false_iff, Option.isNone_iff_eq_none]
    at hguard
  exact ⟨hguard.1, hguard.2.2.1, hguard.2.2.2, haccount⟩

theorem FriendOp.named_some {op : FriendOp} {entity : UserEntity} (h : op.named = some entity) :
    op.oracle.stopAll = false ∧ failsWithin 6 op.oracle.sqlFaults = none := by
  obtain ⟨row, hrow, -⟩ := Option.map_eq_some_iff.mp h
  obtain ⟨hstop, -, hcalls, -⟩ := FriendOp.namedRow_some hrow
  exact ⟨hstop, hcalls⟩

theorem accountOf_some {users : List UserRow} {userId : Bytes} {row : UserRow}
    (h : accountOf users userId = some row) : row ∈ users ∧ row.userId = userId := by
  have hfound := List.find?_some h
  exact ⟨List.mem_of_find?_eq_some h, eq_of_beq hfound⟩

/-- The account is that of the first row with the user id that the message gives. -/
theorem FriendOp.named_row {op : FriendOp} {entity : UserEntity} (h : op.named = some entity) :
    ∃ row, op.namedRow = some row ∧ accountOf op.oracle.users op.msg.content = some row ∧
      entity = entityOfRow row := by
  obtain ⟨row, hrow, rfl⟩ := Option.map_eq_some_iff.mp h
  exact ⟨row, hrow, (FriendOp.namedRow_some hrow).2.2.2, rfl⟩

theorem FriendOp.named_other {op : FriendOp} {entity : UserEntity} (h : op.named = some entity) :
    op.user.userEntity.userId ≠ op.msg.content := by
  obtain ⟨row, hrow, -⟩ := Option.map_eq_some_iff.mp h
  exact (FriendOp.namedRow_some hrow).2.1

theorem FriendOp.namedId_of_named {op : FriendOp} {entity : UserEntity}
    (h : op.named = some entity) : op.namedId = some (TcpServer.toString entity.id) := by
  rw [FriendOp.namedId, h, Option.map_some]

theorem outcome_then_return {x : Sql Unit} {db db' : MySQLManager}
    {res : Except StdException Unit} (h : outcome x db = (res, db')) (entity : UserEntity) :
    outcome (do x; return entity) db = (res.map fun _ => entity, db') := by
  cases res with
  | ok u => exact outcome_bind_ok h
  | error e => exact outcome_bind_error h

/-- The account to which a FRIEND_REQUEST sends one, when its `INSERT` is executed. -/
def FriendOp.sends (op : FriendOp) (t : Tables) : Option Bytes :=
  if op.kind = .request then
    op.namedId.filter fun id =>
      (passesStatus t op.userId id (op.oracle.sqlFaults.drop 6)).any fun faults =>
        (failsWithin 4 faults).isNone
  else none

/-- The `INSERT` of a FRIEND_REQUEST is executed, the call after it succeeds, and the value
that `MySQLManager::AddFriendRequest` does not return happens to be `true`. -/
def FriendOp.acknowledged (op : FriendOp) (t : Tables) : Bool :=
  op.namedId.any fun id =>
    (passesStatus t op.userId id (op.oracle.sqlFaults.drop 6)).any fun faults =>
      (failsWithin 5 faults).isNone && op.oracle.unspecified

/-- What a FRIEND_REQUEST does to the connection, and whether it succeeds. -/
inductive Requested (op : FriendOp) (db : MySQLManager) :
    Except StdException UserEntity → MySQLManager → Prop
  | unsent {e : StdException} {faults : List (Option Bytes)}
    (hsends : op.sends db.working = none) : Requested op db (.error e) (db.withFaults faults)
  /-- The row is inserted, and the handler fails all the same. -/
  | unconfirmed {e : StdException} {faults : List (Option Bytes)} {entity : UserEntity}
    (hnamed : op.named = some entity)
    (hsends : op.sends db.working = some (TcpServer.toString entity.id))
    (hack : op.acknowledged db.working = false) :
    Requested op db (.error e) ((db.execute (insertRequest op.userId
      (TcpServer.toString entity.id)).query).withFaults faults)
  | sent {faults : List (Option Bytes)} {entity : UserEntity} (hnamed : op.named = some entity)
    (hsends : op.sends db.working = some (TcpServer.toString entity.id))
    (hack : op.acknowledged db.working = true) :
    Requested op db (.ok entity) ((db.execute (insertRequest op.userId
      (TcpServer.toString entity.id)).query).withFaults faults)

/-- A request, after the look-up. -/
theorem request_effect (op : FriendOp) (db : MySQLManager) {entity : UserEntity}
    (hkind : op.kind = .request) (hnamed : op.named = some entity) :
    ∃ res db', outcome (do
        TcpServer.checkFriendRequestStatus op.oracle op.user entity
        TcpServer.addFriendRequest op.oracle op.user entity
        return entity) (db.withFaults (op.oracle.sqlFaults.drop 6)) = (res, db') ∧
      FriendEffect op db res db' ∧ Requested op db res db' := by
  have hid := FriendOp.namedId_of_named hnamed
  obtain ⟨hstop, hsix⟩ := FriendOp.named_some hnamed
  have hsends : op.sends db.working = if (passesStatus db.working
      (TcpServer.toString op.user.id) (TcpServer.toString entity.id)
      (op.oracle.sqlFaults.drop 6)).any fun faults => (failsWithin 4 faults).isNone then
        some (TcpServer.toString entity.id)
      else none := by
    rw [FriendOp.sends, if_pos hkind, hid, Option.filter_some]
    rfl
  rcases outcome_checkFriendRequestStatus (db.withFaults (op.oracle.sqlFaults.drop 6)) op.oracle
    op.user entity hstop with ⟨hstatus, e, faults, herror⟩ | ⟨faults, hstatus, hok⟩
  · rw [withFaults_working, withFaults_faults] at hstatus
    rw [hstatus] at hsends
    exact ⟨_, _, outcome_bind_error herror, .pending hkind hid (passesStatus_none hstatus),
      .unsent hsends⟩
  · have htwelve (h : failsWithin 18 op.oracle.sqlFaults = none) :
        failsWithin 12 (op.oracle.sqlFaults.drop 6) = none := by
      rwa [show 18 = 6 + 12 from rfl, failsWithin_add, hsix, Option.none_or] at h
    rw [withFaults_working, withFaults_faults] at hstatus
    rw [hstatus, Option.any_some] at hsends
    rw [outcome_bind_ok hok]
    rcases outcome_addFriendRequest (db.withFaults faults) op.oracle op.user entity hstop with
      ⟨hfault, e, faults', herror⟩ | ⟨hfour, res, faults', hinsert, hack⟩
    · rw [withFaults_faults] at hfault
      rw [hfault, if_neg Bool.false_ne_true] at hsends
      refine ⟨_, _, outcome_bind_error herror, .unsent hkind fun hnone => ?_, .unsent hsends⟩
      -- six calls for the look-up, twelve for the two questions, four to open the `INSERT`
      rw [show 22 = 18 + 4 from rfl, failsWithin_add, Option.or_eq_none_iff] at hnone
      obtain ⟨rfl, -⟩ := passesStatus_some hstatus (htwelve hnone.1)
      rw [List.drop_drop, hnone.2] at hfault
      cases hfault
    · rw [withFaults_faults] at hfour hack
      rw [hfour, if_pos rfl] at hsends
      have hacknowledged : op.acknowledged db.working =
          ((failsWithin 5 faults).isNone && op.oracle.unspecified) := by
        rw [FriendOp.acknowledged, hid, Option.any_some, FriendOp.userId, hstatus, Option.any_some]
      refine ⟨_, _, outcome_then_return hinsert entity,
        .sent hkind hid fun h => (passesStatus_some hstatus (htwelve h)).2, ?_⟩
      cases res with
      | ok u => exact .sent hnamed hsends (hacknowledged.trans (hack.mp rfl))
      | error e =>
        refine .unconfirmed hnamed hsends (hacknowledged.trans (Bool.eq_false_iff.mpr fun h => ?_))
        cases hack.mpr h

/-- **Inversion.** How a FRIEND_REQUEST ends. -/
theorem handle_request (op : FriendOp) (db : MySQLManager) (hkind : op.kind = .request) :
    ∃ res db', op.handle db = (res, db') ∧ Requested op db res db' := by
  obtain ⟨kind, user, msg, o⟩ := op
  obtain rfl : kind = .request := hkind
  rcases outcome_lookup db ⟨.request, user, msg, o⟩ fun entity => do
      TcpServer.checkFriendRequestStatus o user entity
      TcpServer.addFriendRequest o user entity
      return entity with ⟨hnone, e, faults, herror⟩ | ⟨entity, hsome, hrest⟩
  · refine ⟨_, _, herror, .unsent ?_⟩
    rw [FriendOp.sends, if_pos rfl, FriendOp.namedId, hnone]
    rfl
  · obtain ⟨res, db', houtcome, -, hrequested⟩ :=
      request_effect ⟨.request, user, msg, o⟩ db rfl hsome
    exact ⟨res, db', hrest.trans houtcome, hrequested⟩

/-- A handler that goes on with a transaction after the look-up. -/
theorem transaction_effect (op : FriendOp) (db : MySQLManager) (process : UserEntity → Sql Unit)
    (failure : Bytes) (hkind : op.kind ≠ .request)
    (hprocess : ∀ entity, op.oracle.stopAll = false →
      process entity = transaction (op.statements (TcpServer.toString entity.id)) failure) :
    ∃ res db', outcome (do
        TcpServer.validateRequest op.oracle op.user op.msg
        let entity ← TcpServer.checkUserExistence op.oracle op.msg.content
        process entity
        return entity) (db.withFaults op.oracle.sqlFaults) = (res, db') ∧
      FriendEffect op db res db' := by
  rcases outcome_lookup db op fun entity => do process entity; return entity with
    ⟨hnone, e, faults, herror⟩ | ⟨entity, hsome, hrest⟩
  · exact ⟨_, _, herror, .refused (by rw [FriendOp.namedId, hnone]; rfl)⟩
  · rw [hprocess entity (FriendOp.named_some hsome).1] at hrest
    obtain ⟨res, db', houtcome, htransacted⟩ := outcome_transaction _ _ _
    exact ⟨_, _, hrest.trans (outcome_then_return houtcome entity),
      .transacted hkind hsome htransacted⟩

/-- **Inversion.** Whatever a friend handler does to the connection is one of the effects. -/
theorem handle_effect (op : FriendOp) (db : MySQLManager) :
    ∃ res db', op.handle db = (res, db') ∧ FriendEffect op db res db' := by
  obtain ⟨kind, user, msg, o⟩ := op
  cases kind with
  | request =>
    rcases outcome_lookup db ⟨.request, user, msg, o⟩ fun entity => do
        TcpServer.checkFriendRequestStatus o user entity
        TcpServer.addFriendRequest o user entity
        return entity with ⟨hnone, e, faults, herror⟩ | ⟨entity, hsome, hrest⟩
    · exact ⟨_, _, herror, .refused (by rw [FriendOp.namedId, hnone]; rfl)⟩
    · obtain ⟨res, db', houtcome, heffect, -⟩ :=
        request_effect ⟨.request, user, msg, o⟩ db rfl hsome
      exact ⟨res, db', hrest.trans houtcome, heffect⟩
  | accept =>
    exact transaction_effect ⟨.accept, user, msg, o⟩ db (TcpServer.processFriendAccept o user) _
      (fun h => nomatch h) fun entity hstop => processFriendAccept_eq o user entity hstop
  | reject =>
    exact transaction_effect ⟨.reject, user, msg, o⟩ db (TcpServer.processFriendReject o user) _
      (fun h => nomatch h) fun entity hstop => processFriendReject_eq o user entity hstop

theorem friendStep_effect {op : FriendOp} {db db' : MySQLManager}
    (h : friendStep db op = some db') : ∃ res, FriendEffect op db res db' := by
  obtain ⟨res, db'', hhandle, heffect⟩ := handle_effect op db
  rw [friendStep, hhandle, Option.some.injEq] at h
  exact ⟨res, h ▸ heffect⟩

/-! ## What becomes of the tables -/

/-- The tables that a handler can make of the ones it works on. -/
inductive NewTables (op : FriendOp) (t : Tables) : Tables → Prop
  | requested {id : Bytes} (hkind : op.kind = .request) (hnamed : op.namedId = some id) :
    NewTables op t ((insertRequest op.userId id).query t).1
  /-- The request is marked; the friendship is missing. -/
  | marked {id : Bytes} (hkind : op.kind = .accept) (hnamed : op.namedId = some id) :
    NewTables op t ((acceptRequest id op.userId).query t).1
  | accepted {id : Bytes} (hkind : op.kind = .accept) (hnamed : op.namedId = some id)
    (hrows : 0 < ((acceptRequest id op.userId).query t).2) :
    NewTables op t
      ((insertFriendship id op.userId).query ((acceptRequest id op.userId).query t).1).1
  | rejected {id : Bytes} (hkind : op.kind = .reject) (hnamed : op.namedId = some id) :
    NewTables op t ((deleteRequest id op.userId).query t).1

/-- The beginnings of the statements of an accept. -/
theorem prefix_pair {a b : Statement} : ∀ {pre rest : List Statement}, [a, b] = pre ++ rest →
    pre = [] ∨ pre = [a] ∨ pre = [a, b]
  | [], _, _ => Or.inl rfl
  | [x], rest, h => Or.inr (Or.inl (by rw [(List.cons.inj h).1]))
  | x :: y :: pre, rest, h => by
    obtain ⟨rfl, htail⟩ := List.cons.inj h
    obtain ⟨rfl, hnil⟩ := List.cons.inj htail
    rw [(List.append_eq_nil_iff.mp hnil.symm).1]
    exact Or.inr (Or.inr rfl)

theorem prefix_single {a : Statement} : ∀ {pre rest : List Statement}, [a] = pre ++ rest →
    pre = [] ∨ pre = [a]
  | [], _, _ => Or.inl rfl
  | x :: pre, rest, h => by
    obtain ⟨rfl, hnil⟩ := List.cons.inj h
    rw [(List.append_eq_nil_iff.mp hnil.symm).1]
    exact Or.inr rfl

theorem effective_single {a : Statement} {t : Tables} (h : effective [a] t = true) :
    0 < (a.query t).2 := by
  rw [effective, effective, Bool.and_true, Bool.not_eq_true', decide_eq_false_iff_not] at h
  omega

/-- Some of the statements of an accept or a reject. -/
theorem newTables_of_statements {op : FriendOp} {id : Bytes} {t : Tables}
    {pre rest : List Statement} (hnamed : op.namedId = some id)
    (hpre : op.statements id = pre ++ rest) (heffective : effective pre.dropLast t = true) :
    pre = [] ∨ NewTables op t (applyAll pre t) := by
  unfold FriendOp.statements at hpre
  cases hkind : op.kind with
  | request =>
    rw [hkind] at hpre
    exact Or.inl (List.append_eq_nil_iff.mp hpre.symm).1
  | accept =>
    rw [hkind] at hpre
    -- how far the accept came before it stopped
    rcases prefix_pair hpre with rfl | rfl | rfl
    · exact Or.inl rfl
    · exact Or.inr (.marked hkind hnamed)
    · exact Or.inr (.accepted hkind hnamed (effective_single heffective))
  | reject =>
    rw [hkind] at hpre
    rcases prefix_single hpre with rfl | rfl
    · exact Or.inl rfl
    · exact Or.inr (.rejected hkind hnamed)

/-- **Tables.** A handler leaves the durable tables alone and works on what it found or on
the durable tables, or it makes new tables, which may become durable. -/
theorem friendStep_tables {op : FriendOp} {db db' : MySQLManager}
    (h : friendStep db op = some db') :
    (db'.committed = db.committed ∧ (db'.working = db.working ∨ db'.working = db.committed)) ∨
    (NewTables op db.working db'.working ∧
      (db'.committed = db.committed ∨ db'.committed = db'.working)) := by
  obtain ⟨res, heffect⟩ := friendStep_effect h
  cases heffect with
  | refused | pending | unsent => exact Or.inl ⟨rfl, Or.inl rfl⟩
  | sent hkind hnamed =>
    refine Or.inr ⟨.requested hkind hnamed, ?_⟩
    rw [execute]
    -- whether the row is durable at once depends on the mode of the connection
    by_cases hmode : db.autocommit = true
    · exact Or.inr (if_pos hmode)
    · exact Or.inl (if_neg hmode)
  | @transacted res _ entity hkind hnamed htransacted =>
    have hid := FriendOp.namedId_of_named hnamed
    cases htransacted with
    | notBegun => exact Or.inl ⟨rfl, Or.inl rfl⟩
    | notBegunRolledBack => exact Or.inl ⟨rfl, Or.inr rfl⟩
    -- the rollback failed as well: some of the statements are applied and not durable
    | stuck pre _ hpre heffective =>
      rcases newTables_of_statements hid hpre heffective with rfl | hnew
      · exact Or.inl ⟨rfl, Or.inl rfl⟩
      · exact Or.inr ⟨hnew, Or.inl rfl⟩
    | rolledBack => exact Or.inl ⟨rfl, Or.inr rfl⟩
    -- all statements are applied, and an accept or a reject has at least one
    | committed _ heffective =>
      rcases newTables_of_statements hid (List.append_nil _).symm
        (effective_dropLast heffective) with hnil | hnew
      · cases hstatements : op.kind with
        | request => exact absurd hstatements hkind
        | accept => rw [FriendOp.statements, hstatements] at hnil; cases hnil
        | reject => rw [FriendOp.statements, hstatements] at hnil; cases hnil
      · exact Or.inr ⟨hnew, Or.inr rfl⟩

/-! ## Friend handlers within a run of the server -/

/-- Work whose failure is reported leaves the connection as the work left it. -/
theorem tryOrReport_connection {α : Type} {o : Oracle} {s s' : TcpServer} {user : SessionRef}
    {work : Sql α} {notify : TcpServer → α → TcpServer}
    (hnotify : ∀ s a, (notify s a).mySQLConnector = s.mySQLConnector)
    (h : s.tryOrReport o user work notify = .ok s') :
    s'.mySQLConnector = (outcome work (s.mySQLConnector.withFaults o.sqlFaults)).2 := by
  unfold TcpServer.tryOrReport at h
  show _ = (Id.run (work.run.run { s.mySQLConnector with faults := o.sqlFaults })).2
  rcases hrun : Id.run (work.run.run { s.mySQLConnector with faults := o.sqlFaults }) with
    ⟨e | a, db⟩
  · rw [hrun] at h
    obtain rfl := Except.ok.inj h
    rfl
  · rw [hrun] at h
    obtain rfl := Except.ok.inj h
    exact hnotify _ a

theorem notifyBoth_connection (s : TcpServer) (other toOther : Bytes) (user : SessionRef)
    (toUser : Bytes) :
    (s.notifyBoth other toOther user toUser).mySQLConnector = s.mySQLConnector := by
  unfold TcpServer.notifyBoth
  split <;> rfl

/-- Only the friend handlers use the connection. -/
theorem onMessage_connection {o : Oracle} {s s' : TcpServer} {user : SessionRef}
    {msg : ChatMessage} (h : s.onMessage o user msg = .ok s') :
    s'.mySQLConnector = s.mySQLConnector ∨ ∃ kind : FriendKind,
      s'.mySQLConnector = (FriendOp.handle ⟨kind, s.sessions user, msg, o⟩ s.mySQLConnector).2 := by
  have hnotify (s : TcpServer) (other toOther toUser : Bytes) :=
    notifyBoth_connection s other toOther user toUser
  cases TcpServer.onMessage_handled h with
  | sent | relayed => exact Or.inl rfl
  | request _ houtcome => exact Or.inl houtcome.mySQLConnector
  | befriended hfriend =>
    right
    cases htype : msg.messageType with simp only [TcpServer.onMessage, htype] at h
    | friendRequest => exact ⟨.request, tryOrReport_connection (fun _ _ => hnotify ..) h⟩
    | friendAccept => exact ⟨.accept, tryOrReport_connection (fun _ _ => hnotify ..) h⟩
    | friendReject => exact ⟨.reject, tryOrReport_connection (fun _ _ => hnotify ..) h⟩
    | _ => simp [htype, TcpServer.IsFriendMessage] at hfriend

theorem admitUser_connection (s : TcpServer) (user : SessionRef) :
    (s.admitUser user).mySQLConnector = s.mySQLConnector := by
  unfold TcpServer.admitUser
  dsimp only
  split <;> rfl

/-- **The server's connection.** In a run of the server the connection goes through a run of
friend handlers. -/
theorem friendSteps_of_run {parse : Bytes → Option ChatMessage} {s t : Sys} {as : List Action}
    (hrun : Run (step parse) anyStep s as t) :
    ∃ ops, Run friendStep anyStep s.srv.mySQLConnector ops t.srv.mySQLConnector := by
  refine hrun.simulate (f := fun s => s.srv.mySQLConnector) fun s a t _ hstep => ?_
  cases step_effect hstep with
  | accept | receive | disconnect | sweep | rejected | visit | finish => exact Or.inl rfl
  | admitted => exact Or.inl (admitUser_connection ..)
  | @dispatch o user msg input output srv _ _ hmessage =>
    rcases onMessage_connection hmessage with hsame | ⟨kind, hhandle⟩
    · exact Or.inl hsame
    · exact Or.inr ⟨_, trivial, congrArg some hhandle.symm⟩

/-! ## Concrete calls -/

def fourAccounts : List UserRow :=
  [ann, bob, ⟨3, ascii "carol", ascii "secret", ascii "Carol", ascii "carol@chat", ascii "Y"⟩,
    ⟨4, ascii "dave", ascii "secret", ascii "Dave", ascii "dave@chat", ascii "Y"⟩]

/-- An account whose key, cut to 32 bits, is that of `ann`. -/
def eve : UserRow :=
  ⟨2 ^ 32 + 1, ascii "eve", ascii "secret", ascii "Eve", ascii "eve@chat", ascii "Y"⟩

/-- A call by the account `id` whose message names another account. -/
def friendOp (kind : FriendKind) (id : UInt32) (userId content : String)
    (sqlFaults : List (Option Bytes)) : FriendOp where
  kind := kind
  user := { id := id, userEntity := { id := id, userId := ascii userId } }
  msg := { content := ascii content }
  oracle := { users := fourAccounts, sqlFaults := sqlFaults }

/-- The tables after a run that is executed. -/
theorem exists_run_committed (ok : MySQLManager → FriendOp → Prop) [∀ db op, Decidable (ok db op)]
    (ops : List FriendOp) (t : Tables)
    (h : (exec friendStep ok {} ops).map (fun db => db.committed == t) = some true) :
    ∃ db, Run friendStep ok {} ops db ∧ db.committed = t := by
  obtain ⟨db, hrun, hdb⟩ := exists_run_of_exec friendStep ok {} ops
    (fun db => db.committed == t) h
  exact ⟨db, hrun, eq_of_beq hdb⟩

end BoostChat.Server
