import BoostChat.Server.ConnectionMode
import BoostChat.Server.PartyLifetime

/-!
# What the requester is told

A request is answered with an error message or with a message of the server. The results
compare the answer with what the request has done.

* `friend_answers_atomic` — when an accept or a reject changes the durable tables all at once
  and says so, or changes nothing and reports an error. It may be the request of another
  account that it answers (`answers_for_another`);
* `request_reply_iff` — when the answer to a FRIEND_REQUEST is right. The `INSERT` may have
  taken effect although the requester is told of an error (`request_reply_lost`);
* `party_refusals` — when a request about a party is answered, and has changed nothing if it is
  refused. The logger may throw before the answer (`long_name_unanswered`).
-/

namespace BoostChat.Server

open Lib MySQLManager

/-! ## Answers -/

def errorReply (text : Bytes) : ChatMessage := { messageType := .errorMessage, content := text }

def serverReply (text : Bytes) : ChatMessage := { messageType := .serverMessage, content := text }

theorem serverReply_ne_errorReply (text text' : Bytes) : serverReply text ≠ errorReply text' :=
  fun h => nomatch congrArg ChatMessage.messageType h

/-- All that a request has sent is an error message to the requester. -/
def AnswersError (s s' : TcpServer) (user : SessionRef) : Prop :=
  ∃ text, s'.posted = s.posted ++ [(user, errorReply text)]

/-- A request has sent the requester the text, after messages of the server to others. -/
def AnswersSuccess (s s' : TcpServer) (user : SessionRef) (text : Bytes) : Prop :=
  ∃ others, s'.posted = s.posted ++ others ++ [(user, serverReply text)] ∧
    ∀ p ∈ others, p.2.messageType = .serverMessage

namespace TcpServer

theorem notifyBoth_answers (s : TcpServer) (other toOther : Bytes) (user : SessionRef)
    (toUser : Bytes) : AnswersSuccess s (s.notifyBoth other toOther user toUser) user toUser := by
  unfold notifyBoth
  cases s.getUserByUserId other with
  | none => exact ⟨[], by rw [List.append_nil]; rfl, fun p hp => absurd hp List.not_mem_nil⟩
  | some session =>
    refine ⟨[(session, serverReply toOther)], rfl, fun p hp => ?_⟩
    rw [List.mem_singleton.mp hp]
    rfl

section TryOrReport

variable {α : Type} {o : Oracle} {s : TcpServer} {user : SessionRef} {work : Sql α}
  {notify : TcpServer → α → TcpServer} {db : MySQLManager}

theorem tryOrReport_ok {value : α}
    (h : outcome work (s.mySQLConnector.withFaults o.sqlFaults) = (.ok value, db)) :
    s.tryOrReport o user work notify = .ok (notify { s with mySQLConnector := db } value) := by
  have hrun : Id.run (work.run.run { s.mySQLConnector with faults := o.sqlFaults }) =
    (.ok value, db) := h
  rw [tryOrReport, hrun]

theorem tryOrReport_error {e : StdException}
    (h : outcome work (s.mySQLConnector.withFaults o.sqlFaults) = (.error e, db)) :
    s.tryOrReport o user work notify =
      .ok (({ s with mySQLConnector := db }).sendErrorMessage user e.what) := by
  have hrun : Id.run (work.run.run { s.mySQLConnector with faults := o.sqlFaults }) =
    (.error e, db) := h
  rw [tryOrReport, hrun]

end TryOrReport

end TcpServer

/-! ## Accepts and rejects -/

/-- The tables after an accept: the request is marked and the friendship is there. -/
def Tables.accept (t : Tables) (senderId receiverId : Bytes) : Tables where
  friendRequests := t.friendRequests.map fun row =>
    if row.fromTo senderId receiverId then { row with status := ascii "A" } else row
  friendships := t.friendships ++ [⟨senderId, receiverId⟩]

/-- The tables after a reject: the request is gone. -/
def Tables.reject (t : Tables) (senderId receiverId : Bytes) : Tables :=
  { t with friendRequests := t.friendRequests.filter fun row => !row.fromTo senderId receiverId }

/-- The transaction of an accept or a reject goes through: the call that begins it succeeds,
and nothing stops it. -/
def FriendOp.Commits (op : FriendOp) (t : Tables) : Prop :=
  failsWithin 1 (op.oracle.sqlFaults.drop 6) = none ∧
    ∃ id ∈ op.namedId, ¬ Stops (op.statements id) t ((op.oracle.sqlFaults.drop 6).drop 1)

section Transaction

/-- **All or nothing.** An accept or a reject over tables without uncommitted changes. -/
theorem handle_transaction (op : FriendOp) {db : MySQLManager} (hkind : op.kind ≠ .request)
    (hsettled : Settled db) :
    ∃ res db', op.handle db = (res, db') ∧
      ((∃ e, res = .error e ∧ db'.committed = db.committed ∧ ¬ op.Commits db.committed) ∨
      ∃ row, op.namedRow = some row ∧ res = .ok (entityOfRow row) ∧ op.Commits db.committed ∧
        effective (op.statements (TcpServer.toString (entityOfRow row).id)) db.committed = true ∧
        db'.committed =
          applyAll (op.statements (TcpServer.toString (entityOfRow row).id)) db.committed) := by
  obtain ⟨res, db', hhandle, heffect⟩ := handle_effect op db
  refine ⟨res, db', hhandle, ?_⟩
  cases heffect with
  | refused hnamed =>
    refine Or.inl ⟨_, rfl, rfl, ?_⟩
    rintro ⟨-, id, hid, -⟩
    rw [hnamed] at hid
    cases hid
  | pending hrequest => exact absurd hrequest hkind
  | unsent hrequest => exact absurd hrequest hkind
  | sent hrequest => exact absurd hrequest hkind
  | @transacted res _ entity _ hnamed htransacted =>
    have hid := FriendOp.namedId_of_named hnamed
    have hstopped (hstops : Stops (op.statements (TcpServer.toString entity.id)) db.working
        ((op.oracle.sqlFaults.drop 6).drop 1)) : ¬ op.Commits db.committed := by
      rintro ⟨-, id, hid', hgoes⟩
      obtain rfl := Option.some.inj (hid.symm.trans hid')
      rw [hsettled.2] at hstops
      exact hgoes hstops
    cases htransacted with
    | notBegun hbegin | notBegunRolledBack hbegin =>
      exact Or.inl ⟨_, rfl, rfl, fun hcommits =>
        absurd (hbegin.symm.trans hcommits.1) (Option.some_ne_none _)⟩
    -- whatever the rollback did, nothing was committed
    | stuck _ _ _ _ hstops | rolledBack _ hstops => exact Or.inl ⟨_, rfl, rfl, hstopped hstops⟩
    | committed hbegin heffective hgoes =>
      have hsame : db.working = db.committed := hsettled.2
      rw [withFaults_working, hsame] at heffective hgoes
      obtain ⟨row, hrow, -, rfl⟩ := FriendOp.named_row hnamed
      refine Or.inr ⟨row, hrow, rfl, ⟨hbegin, _, hid, hgoes⟩, heffective, ?_⟩
      rw [withFaults_working, hsame]

/-- An accept that succeeds found a request that was not accepted yet. -/
theorem exists_accepted {t : Tables} {senderId receiverId : Bytes}
    (h : effective [acceptRequest senderId receiverId, insertFriendship senderId receiverId] t =
      true) :
    ∃ row ∈ t.friendRequests, row.fromTo senderId receiverId = true ∧ row.status ≠ ascii "A" := by
  have hrows : 0 < ((acceptRequest senderId receiverId).query t).2 :=
    effective_single (effective_dropLast h)
  obtain ⟨row, hrow, hmarked⟩ := List.countP_pos_iff.mp hrows
  rw [Bool.and_eq_true, bne_iff_ne] at hmarked
  exact ⟨row, hrow, hmarked⟩

/-- A reject that succeeds found a request. -/
theorem exists_rejected {t : Tables} {senderId receiverId : Bytes}
    (h : effective [deleteRequest senderId receiverId] t = true) :
    ∃ row ∈ t.friendRequests, row.fromTo senderId receiverId = true :=
  List.countP_pos_iff.mp (effective_single h)

end Transaction

/-- The tables tell whose request was accepted. -/
theorem accept_cancel {t : Tables} {id id' receiverId : Bytes}
    (h : t.accept id receiverId = t.accept id' receiverId) : id = id' := by
  have hrow := List.append_cancel_left (congrArg Tables.friendships h)
  exact congrArg FriendshipRow.userId1 (List.cons.inj hrow).1

/-- And whose request was rejected, when there was one. -/
theorem reject_cancel {t : Tables} {id id' receiverId : Bytes}
    (hfound : ∃ row ∈ t.friendRequests, row.fromTo id receiverId = true)
    (h : t.reject id receiverId = t.reject id' receiverId) : id = id' := by
  obtain ⟨row, hrow, hhit⟩ := hfound
  have hgone : row ∉ (t.reject id' receiverId).friendRequests := by
    rw [← h]
    intro hmem
    rw [Tables.reject, List.mem_filter, hhit] at hmem
    exact Bool.false_ne_true hmem.2
  by_contra hne
  refine hgone (List.mem_filter.mpr ⟨hrow, ?_⟩)
  rw [FriendRequestRow.fromTo, Bool.and_eq_true, beq_iff_eq, beq_iff_eq] at hhit
  rw [FriendRequestRow.fromTo, hhit.1, beq_false_of_ne hne, Bool.false_and, Bool.not_false]

/-! ## The answers to a request -/

section Atomic

variable (found : FriendRequestRow → Prop) (change : Tables → Bytes → Bytes → Tables)
  (success : Bytes → Bytes)

/-- The durable tables are as they were and the user is told of an error; or they have
changed as intended, for a request of the account that the message names, and the user is
told of the success. -/
def AnswersAtomically (o : Oracle) (s s' : TcpServer) (user : SessionRef) (msg : ChatMessage) :
    Prop :=
  (s'.mySQLConnector.committed = s.mySQLConnector.committed ∧ AnswersError s s' user) ∨
  ∃ sender, accountOf o.users msg.content = some sender ∧
    let senderId := decimal sender.id
    let userId := TcpServer.toString (s.sessions user).id
    (∃ row ∈ s.mySQLConnector.committed.friendRequests,
      row.fromTo senderId userId = true ∧ found row) ∧
    s'.mySQLConnector.committed = change s.mySQLConnector.committed senderId userId ∧
    AnswersSuccess s s' user (success (cString sender.userId))

variable {found change success} {o : Oracle} {s s' : TcpServer} {user : SessionRef}
  {msg : ChatMessage}

theorem not_answersError {text : Bytes} (h : AnswersSuccess s s' user text) :
    ¬ AnswersError s s' user := by
  rintro ⟨text', herror⟩
  obtain ⟨others, hposted, -⟩ := h
  have hlast := (List.append_inj' (hposted.symm.trans herror) rfl).2
  exact serverReply_ne_errorReply _ _ (Prod.mk.inj (List.cons.inj hlast).1).2

/-- When the tables have changed by what the handler takes for the key of the account, this is
as intended exactly when the key has 32 bits. -/
theorem answersAtomically_iff {sender : UserRow}
    (haccount : accountOf o.users msg.content = some sender)
    (hfound : ∃ row ∈ s.mySQLConnector.committed.friendRequests,
      row.fromTo (TcpServer.toString (entityOfRow sender).id)
        (TcpServer.toString (s.sessions user).id) = true ∧ found row)
    (hchanged : s'.mySQLConnector.committed = change s.mySQLConnector.committed
      (TcpServer.toString (entityOfRow sender).id) (TcpServer.toString (s.sessions user).id))
    (hcancel : ∀ id', change s.mySQLConnector.committed
        (TcpServer.toString (entityOfRow sender).id) (TcpServer.toString (s.sessions user).id) =
      change s.mySQLConnector.committed id' (TcpServer.toString (s.sessions user).id) →
        TcpServer.toString (entityOfRow sender).id = id')
    (hanswer : AnswersSuccess s s' user (success (cString sender.userId))) :
    AnswersAtomically found change success o s s' user msg ↔ sender.id < 2 ^ 32 := by
  constructor
  · rintro (⟨-, herror⟩ | ⟨sender', haccount', -, hchanged', -⟩)
    · exact absurd herror (not_answersError hanswer)
    · obtain rfl := Option.some.inj (haccount.symm.trans haccount')
      exact (toString_toUInt32_iff sender.id).mp (hcancel _ (hchanged.symm.trans hchanged'))
  · intro hkey
    have hid : TcpServer.toString (entityOfRow sender).id = decimal sender.id :=
      (toString_toUInt32_iff sender.id).mpr hkey
    rw [hid] at hfound hchanged
    exact Or.inr ⟨sender, haccount, hfound, hchanged, hanswer⟩

end Atomic

/-- What the accept of a request should do. -/
def AcceptAtomic : Oracle → TcpServer → TcpServer → SessionRef → ChatMessage → Prop :=
  AnswersAtomically (fun row => row.status ≠ ascii "A") Tables.accept fun userId =>
    ascii "You have accepted the friend request from [" ++ userId ++ ascii "]."

/-- What the reject of a request should do. -/
def RejectAtomic : Oracle → TcpServer → TcpServer → SessionRef → ChatMessage → Prop :=
  AnswersAtomically (fun _ => True) Tables.reject fun userId =>
    ascii "You have rejected the friend request from [" ++ userId ++ ascii "]."

theorem FriendOp.keyFits_iff {op : FriendOp} {row : UserRow} (h : op.namedRow = some row) :
    op.KeyFits ↔ row.id < 2 ^ 32 := by
  rw [FriendOp.KeyFits, h]
  simp

/-- **Accepts and rejects are atomic.** From a connection in autocommit mode with nothing
uncommitted, for every session, message and failures of calls: the durable tables are as
they were and the user is told of an error, or the request of the account that the message
names is accepted or rejected and the user is told so, exactly when the transaction does not
go through or the key of this account has 32 bits. -/
theorem friend_answers_atomic (o : Oracle) (s : TcpServer) (user : SessionRef)
    (msg : ChatMessage) (hsettled : Settled s.mySQLConnector) :
    (∃ s', s.handleFriendAccept o user msg = .ok s' ∧
      (AcceptAtomic o s s' user msg ↔
        (FriendOp.Commits ⟨.accept, s.sessions user, msg, o⟩ s.mySQLConnector.committed →
          FriendOp.KeyFits ⟨.accept, s.sessions user, msg, o⟩))) ∧
    ∃ s', s.handleFriendReject o user msg = .ok s' ∧
      (RejectAtomic o s s' user msg ↔
        (FriendOp.Commits ⟨.reject, s.sessions user, msg, o⟩ s.mySQLConnector.committed →
          FriendOp.KeyFits ⟨.reject, s.sessions user, msg, o⟩)) := by
  constructor
  · rw [handleFriendAccept_eq]
    obtain ⟨res, db', hhandle, hres⟩ :=
      handle_transaction ⟨.accept, s.sessions user, msg, o⟩ (fun h => nomatch h) hsettled
    rcases hres with ⟨e, rfl, hcommitted, hnot⟩ |
      ⟨sender, hnamed, rfl, hcommits, heffective, hcommitted⟩
    · exact ⟨_, TcpServer.tryOrReport_error hhandle, iff_of_true
        (Or.inl ⟨hcommitted, e.what, rfl⟩) fun hcommits => absurd hcommits hnot⟩
    · refine ⟨_, TcpServer.tryOrReport_ok hhandle, ?_⟩
      rw [imp_iff_right hcommits, FriendOp.keyFits_iff hnamed]
      -- both statements have changed a row, so the request was open
      refine answersAtomically_iff (FriendOp.namedRow_some hnamed).2.2.2
        (exists_accepted heffective) ?_ (fun _ h => accept_cancel h)
        (TcpServer.notifyBoth_answers ..)
      rw [TcpServer.notifyAcceptUsers, notifyBoth_connection]
      exact hcommitted
  · rw [handleFriendReject_eq]
    obtain ⟨res, db', hhandle, hres⟩ :=
      handle_transaction ⟨.reject, s.sessions user, msg, o⟩ (fun h => nomatch h) hsettled
    rcases hres with ⟨e, rfl, hcommitted, hnot⟩ |
      ⟨sender, hnamed, rfl, hcommits, heffective, hcommitted⟩
    · exact ⟨_, TcpServer.tryOrReport_error hhandle, iff_of_true
        (Or.inl ⟨hcommitted, e.what, rfl⟩) fun hcommits => absurd hcommits hnot⟩
    · refine ⟨_, TcpServer.tryOrReport_ok hhandle, ?_⟩
      rw [imp_iff_right hcommits, FriendOp.keyFits_iff hnamed]
      obtain ⟨row, hrow, hhit⟩ := exists_rejected heffective
      refine answersAtomically_iff (FriendOp.namedRow_some hnamed).2.2.2
        ⟨row, hrow, hhit, trivial⟩ ?_ (fun _ h => reject_cancel ⟨row, hrow, hhit⟩ h)
        (TcpServer.notifyBoth_answers ..)
      rw [TcpServer.notifyRejectUsers, notifyBoth_connection]
      exact hcommitted

/-- A user with the account 2; account 1 has asked it, and no other user is there. -/
def bobAsked : TcpServer where
  sessions _ := { id := 2, userEntity := { id := 2, userId := ascii "bob" } }
  users := [0]
  mySQLConnector :=
    { committed := ⟨[⟨ascii "1", ascii "2", ascii "P"⟩], []⟩
      working := ⟨[⟨ascii "1", ascii "2", ascii "P"⟩], []⟩ }

theorem friend_answers_atomic_bob : ∃ s',
    bobAsked.handleFriendAccept { users := fourAccounts } 0 { content := ascii "ann" } = .ok s' ∧
    s'.mySQLConnector.committed = befriended ∧
    ∃ text, AnswersSuccess bobAsked s' 0 text := by
  obtain ⟨⟨s', hs', hatomic⟩, -⟩ := friend_answers_atomic { users := fourAccounts } bobAsked 0
    { content := ascii "ann" } ⟨rfl, rfl⟩
  have hkey : FriendOp.KeyFits ⟨.accept, bobAsked.sessions 0, { content := ascii "ann" },
    { users := fourAccounts }⟩ := by decide
  have hcommitted : (bobAsked.handleFriendAccept { users := fourAccounts } 0
      { content := ascii "ann" }).map (·.mySQLConnector.committed) = .ok befriended := by rfl
  rw [hs'] at hcommitted
  have htables := Except.ok.inj hcommitted
  refine ⟨s', hs', htables, ?_⟩
  rcases hatomic.mpr fun _ => hkey with ⟨hsame, -⟩ | ⟨account, -, -, -, hanswer⟩
  · exact absurd (hsame.symm.trans htables) (by decide)
  · exact ⟨_, hanswer⟩

/-- The user names `eve`, who has asked nobody. The accept or the reject is that of the request
of account 1, and the user is told of a success. -/
theorem answers_for_another :
    let o : Oracle := { users := fourAccounts ++ [eve] }
    let msg : ChatMessage := { content := ascii "eve" }
    (∃ s', bobAsked.handleFriendAccept o 0 msg = .ok s' ∧
      s'.mySQLConnector.committed = befriended ∧
      s'.posted = [(0, serverReply
        (ascii "You have accepted the friend request from [eve]."))] ∧
      ¬ AcceptAtomic o bobAsked s' 0 msg) ∧
    ∃ s', bobAsked.handleFriendReject o 0 msg = .ok s' ∧
      s'.mySQLConnector.committed = {} ∧
      s'.posted = [(0, serverReply
        (ascii "You have rejected the friend request from [eve]."))] ∧
      ¬ RejectAtomic o bobAsked s' 0 msg := by
  have hnone : ∀ row ∈ bobAsked.mySQLConnector.committed.friendRequests,
      row.fromTo (decimal eve.id) (ascii "2") ≠ true := by decide
  have heve : accountOf (fourAccounts ++ [eve]) (ascii "eve") = some eve := by decide
  constructor
  · refine ⟨_, rfl, rfl, rfl, ?_⟩
    rintro (⟨hsame, -⟩ | ⟨sender, hsender, ⟨row, hrow, hhit, -⟩, -⟩)
    · exact absurd hsame (by decide)
    · obtain rfl := Option.some.inj (heve.symm.trans hsender)
      exact hnone row hrow hhit
  · refine ⟨_, rfl, rfl, rfl, ?_⟩
    rintro (⟨hsame, -⟩ | ⟨sender, hsender, ⟨row, hrow, hhit, -⟩, -⟩)
    · exact absurd hsame (by decide)
    · obtain rfl := Option.some.inj (heve.symm.trans hsender)
      exact hnone row hrow hhit

/-! ## Requests -/

/-- The row that a request of the user to the account of this key inserts is there. -/
def Inserted (s s' : TcpServer) (user : SessionRef) (receiverId : Bytes) : Prop :=
  s'.mySQLConnector.working.friendRequests = s.mySQLConnector.working.friendRequests ++
    [⟨TcpServer.toString (s.sessions user).id, receiverId, ascii "P"⟩]

/-- The table is as it was, for this connection and for everybody else. -/
def RequestsUnchanged (s s' : TcpServer) : Prop :=
  s'.mySQLConnector.working.friendRequests = s.mySQLConnector.working.friendRequests ∧
    s'.mySQLConnector.committed.friendRequests = s.mySQLConnector.committed.friendRequests

def requestSuccess : ChatMessage := serverReply (ascii "Success friend request message!")

/-- The requester is told of a success exactly when its row was inserted, for the account
that it named; and otherwise it is told of one error and the table is unchanged. -/
def ReplyAgrees (o : Oracle) (s s' : TcpServer) (user : SessionRef) (msg : ChatMessage) : Prop :=
  let inserted := ∃ account, accountOf o.users msg.content = some account ∧
    Inserted s s' user (decimal account.id)
  ∃ sent, s'.posted = s.posted ++ sent ∧ ((user, requestSuccess) ∈ sent ↔ inserted) ∧
    (¬ inserted → RequestsUnchanged s s' ∧ ∃ text, sent = [(user, errorReply text)])

section Requests

variable {o : Oracle} {s s' : TcpServer} {user : SessionRef} {msg : ChatMessage}

theorem not_inserted_of_unchanged (h : RequestsUnchanged s s') (receiverId : Bytes) :
    ¬ Inserted s s' user receiverId := by
  intro hinserted
  have hlength := congrArg List.length (h.1.symm.trans hinserted)
  rw [List.length_append, List.length_singleton] at hlength
  omega

/-- The table tells for whom the row is. -/
theorem inserted_cancel {id id' : Bytes} (h : Inserted s s' user id)
    (h' : Inserted s s' user id') : id = id' := by
  have hrow := List.append_cancel_left (h.symm.trans h')
  exact congrArg FriendRequestRow.receiverId (List.cons.inj hrow).1

theorem replyAgrees_of_unchanged (h : RequestsUnchanged s s') (hanswer : AnswersError s s' user) :
    ReplyAgrees o s s' user msg := by
  obtain ⟨text, hposted⟩ := hanswer
  have hnot : ¬ ∃ account, accountOf o.users msg.content = some account ∧
      Inserted s s' user (decimal account.id) := fun ⟨_, _, hinserted⟩ =>
    not_inserted_of_unchanged h _ hinserted
  refine ⟨_, hposted, iff_of_false (fun hmem => ?_) hnot, fun _ => ⟨h, text, rfl⟩⟩
  exact serverReply_ne_errorReply _ _ (Prod.mk.inj (List.mem_singleton.mp hmem)).2

/-- When a row is inserted, it is that of the account that the message names if its key has 32
bits, and no answer is right otherwise. -/
theorem replyAgrees_of_inserted {account : UserRow}
    (haccount : accountOf o.users msg.content = some account)
    (h : Inserted s s' user (TcpServer.toString (entityOfRow account).id)) :
    ReplyAgrees o s s' user msg ↔ account.id < 2 ^ 32 ∧
      ∃ sent, s'.posted = s.posted ++ sent ∧ (user, requestSuccess) ∈ sent := by
  have hkey : (∃ account, accountOf o.users msg.content = some account ∧
      Inserted s s' user (decimal account.id)) ↔ account.id < 2 ^ 32 := by
    rw [← toString_toUInt32_iff]
    constructor
    · rintro ⟨account', haccount', hinserted⟩
      obtain rfl := Option.some.inj (haccount.symm.trans haccount')
      exact inserted_cancel h hinserted
    · intro hid
      exact ⟨account, haccount, hid ▸ h⟩
  constructor
  · rintro ⟨sent, hposted, hsuccess, hrest⟩
    have hinserted := not_not.mp fun hnot => not_inserted_of_unchanged (hrest hnot).1 _ h
    exact ⟨hkey.mp hinserted, sent, hposted, hsuccess.mpr hinserted⟩
  · rintro ⟨hid, sent, hposted, hmem⟩
    exact ⟨sent, hposted, iff_of_true hmem (hkey.mpr hid), fun hnot => absurd (hkey.mpr hid) hnot⟩

/-- An error is the wrong answer when the row is there. -/
theorem not_replyAgrees_of_error {account : UserRow}
    (haccount : accountOf o.users msg.content = some account)
    (h : Inserted s s' user (TcpServer.toString (entityOfRow account).id))
    (hanswer : AnswersError s s' user) : ¬ ReplyAgrees o s s' user msg := by
  rw [replyAgrees_of_inserted haccount h]
  rintro ⟨-, sent, hsent, hmem⟩
  obtain ⟨text, hposted⟩ := hanswer
  obtain rfl := List.append_cancel_left (hsent.symm.trans hposted)
  exact serverReply_ne_errorReply _ _ (Prod.mk.inj (List.mem_singleton.mp hmem)).2

end Requests

/-- **Requests.** For every state of the tables and mode of the connection, session, message
and failures of calls, the answer to a FRIEND_REQUEST agrees with the table exactly when no
`INSERT` is executed; or the call after it succeeds, the value that `AddFriendRequest` does
not return happens to be `true`, and the key of the account that is named has 32 bits. -/
theorem request_reply_iff (o : Oracle) (s : TcpServer) (user : SessionRef) (msg : ChatMessage) :
    ∃ s', s.handleFriendRequest o user msg = .ok s' ∧
      (ReplyAgrees o s s' user msg ↔
        FriendOp.sends ⟨.request, s.sessions user, msg, o⟩ s.mySQLConnector.working = none ∨
        FriendOp.acknowledged ⟨.request, s.sessions user, msg, o⟩ s.mySQLConnector.working =
          true ∧ FriendOp.KeyFits ⟨.request, s.sessions user, msg, o⟩) := by
  rw [handleFriendRequest_eq]
  obtain ⟨res, db', hhandle, hrequested⟩ :=
    handle_request ⟨.request, s.sessions user, msg, o⟩ s.mySQLConnector rfl
  cases hrequested with
  | unsent hsends =>
    -- no row, and the requester is told of what went wrong
    exact ⟨_, TcpServer.tryOrReport_error hhandle,
      iff_of_true (replyAgrees_of_unchanged ⟨rfl, rfl⟩ ⟨_, rfl⟩) (Or.inl hsends)⟩
  | unconfirmed hnamed hsends hack =>
    -- the row is there, and the requester is told of an error
    obtain ⟨account, -, haccount, rfl⟩ := FriendOp.named_row hnamed
    refine ⟨_, TcpServer.tryOrReport_error hhandle,
      iff_of_false (not_replyAgrees_of_error haccount rfl ⟨_, rfl⟩) ?_⟩
    rw [hsends, hack]
    rintro (h | ⟨h, -⟩)
    · exact Option.some_ne_none _ h
    · exact Bool.false_ne_true h
  | sent hnamed hsends hack =>
    obtain ⟨account, hrow, haccount, rfl⟩ := FriendOp.named_row hnamed
    refine ⟨_, TcpServer.tryOrReport_ok hhandle, ?_⟩
    rw [hsends, hack, FriendOp.keyFits_iff hrow, replyAgrees_of_inserted haccount]
    · obtain ⟨others, hposted, -⟩ := TcpServer.notifyBoth_answers
        { s with mySQLConnector := _ } (entityOfRow account).userId _ user
        (ascii "Success friend request message!")
      rw [List.append_assoc] at hposted
      constructor
      · rintro ⟨hid, -⟩
        exact Or.inr ⟨rfl, hid⟩
      · rintro (h | ⟨-, hid⟩)
        · exact absurd h (Option.some_ne_none _)
        · exact ⟨hid, _, hposted, List.mem_append_right _ (List.mem_singleton_self _)⟩
    · rw [Inserted, TcpServer.notifyUsers, notifyBoth_connection]
      rfl

/-- A user with the account 1, and empty tables. -/
def annOnline : TcpServer where
  sessions _ := { id := 1, userEntity := { id := 1, userId := ascii "ann" } }
  users := [0]

/-- The call after the `INSERT` of a request, the twenty-third one, fails. -/
def lostAcknowledgement : List (Option Bytes) :=
  List.replicate 22 none ++ [some (ascii "Lost connection")]

/-- Account 1 asks account 2. The row is durable, and the requester is told of an error: the
call after the `INSERT` fails, or the value that is not returned is `false`. Then account 1
asks `eve` and is told of a success, and the row is one of account 1 to itself. -/
theorem request_reply_lost :
    (∃ s', annOnline.handleFriendRequest
        { users := fourAccounts, sqlFaults := lostAcknowledgement } 0
        { content := ascii "bob" } = .ok s' ∧
      s'.mySQLConnector.committed.friendRequests = [⟨ascii "1", ascii "2", ascii "P"⟩] ∧
      s'.posted = [(0, errorReply (ascii "Failed to add user: Lost connection"))] ∧
      ¬ ReplyAgrees { users := fourAccounts, sqlFaults := lostAcknowledgement } annOnline s' 0
        { content := ascii "bob" }) ∧
    (∃ s', annOnline.handleFriendRequest { users := fourAccounts, unspecified := false } 0
        { content := ascii "bob" } = .ok s' ∧
      s'.mySQLConnector.committed.friendRequests = [⟨ascii "1", ascii "2", ascii "P"⟩] ∧
      s'.posted = [(0, errorReply (ascii "Failed to create friend request."))] ∧
      ¬ ReplyAgrees { users := fourAccounts, unspecified := false } annOnline s' 0
        { content := ascii "bob" }) ∧
    ∃ s', annOnline.handleFriendRequest { users := fourAccounts ++ [eve] } 0
        { content := ascii "eve" } = .ok s' ∧
      s'.mySQLConnector.committed.friendRequests = [⟨ascii "1", ascii "1", ascii "P"⟩] ∧
      s'.posted = [(0, requestSuccess)] ∧
      ¬ ReplyAgrees { users := fourAccounts ++ [eve] } annOnline s' 0
        { content := ascii "eve" } := by
  have hbob : accountOf fourAccounts (ascii "bob") = some bob := by decide
  have heve : accountOf (fourAccounts ++ [eve]) (ascii "eve") = some eve := by decide
  refine ⟨⟨_, rfl, rfl, rfl, ?_⟩, ⟨_, rfl, rfl, rfl, ?_⟩, _, rfl, rfl, rfl, ?_⟩
  · exact not_replyAgrees_of_error hbob rfl ⟨_, rfl⟩
  · exact not_replyAgrees_of_error hbob rfl ⟨_, rfl⟩
  · refine fun hagrees => absurd ((replyAgrees_of_inserted heve ?_).mp hagrees).1 (by decide)
    rfl

/-! ## Requests about parties -/

/-- How a request about a party ends. A refusal leaves everything as it was. -/
inductive PartyAnswer (s : TcpServer) (user : SessionRef) : TcpServer → Prop
  | refused (text : Bytes) : PartyAnswer s user (s.sendErrorMessage user text)
  | done {s' : TcpServer} (text : Bytes)
    (hposted : s'.posted = s.posted ++ [(user, serverReply text)]) : PartyAnswer s user s'

namespace TcpServer

variable {o : Oracle} {s : TcpServer} {user : SessionRef} {msg : ChatMessage}

/-- A party whose id is 0 would be deleted, and the deletion reported as refused. -/
theorem RequestOutcome.answer {s' : TcpServer} (h : RequestOutcome o s user msg s')
    (hzero : ∀ party, s.partyManager.findPartyByName o.iterOrder msg.content = some party →
      party.partyId ≠ 0) : PartyAnswer s user s' := by
  cases h with
  | refused _ text => exact .refused text
  | created | joined | deleted | left => exact .done _ rfl
  | @deletedZero _ party hfound _ hid => exact absurd hid (hzero party hfound)

/-- The requests about parties, where no party has the id 0 and the lines fit. -/
theorem onMessage_partyAnswer (hrequest : IsPartyRequest msg.messageType = true)
    (hfits : Logger.Fits (s.requestLines o user msg))
    (hzero : ∀ party, s.partyManager.findPartyByName o.iterOrder msg.content = some party →
      party.partyId ≠ 0) :
    ∃ s', s.onMessage o user msg = .ok s' ∧ PartyAnswer s user s' := by
  obtain ⟨s', hreturns, houtcome⟩ := onMessage_of_fits hfits hrequest
  exact ⟨s', hreturns, houtcome.answer hzero⟩

end TcpServer

/-- A request about a party, or a message to one. -/
def AboutParty (messageType : ChatMessageType) : Bool :=
  TcpServer.IsPartyRequest messageType || messageType == .partyMessage

/-- `OnMessage` returns; if the user is sent an error message, then the parties with their
members, the counter and the party ids of all sessions are as they were; and a request to
create, join, leave or delete a party is answered with exactly one message. -/
def AnswersRequest (s : TcpServer) (o : Oracle) (user : SessionRef) (msg : ChatMessage) : Prop :=
  ∃ s' sent, s.onMessage o user msg = .ok s' ∧ s'.posted = s.posted ++ sent ∧
    ((∃ reply ∈ sent, reply.1 = user ∧ reply.2.messageType = .errorMessage) →
      s'.partyManager = s.partyManager ∧ ∀ v, (s'.sessions v).partyId = (s.sessions v).partyId) ∧
    (TcpServer.IsPartyRequest msg.messageType = true →
      ∃ text, sent = [(user, errorReply text)] ∨ sent = [(user, serverReply text)])

/-- **Refusals.** In every reachable state before the ids run out, for every session and
message about a party: the message is answered, and a refusal leaves everything as it was,
if and only if the logger can format the lines of the request. -/
theorem party_refusals {parse : Bytes → Option ChatMessage} {maxUser : UInt32}
    {as : List Action} {s : Sys} (hrun : Run (step parse) anyStep (Sys.start maxUser) as s)
    (hcreated : stepCount (step parse) createsParty (Sys.start maxUser) as < 2 ^ 32 - 100000)
    (o : Oracle) (user : SessionRef) (msg : ChatMessage)
    (hparty : AboutParty msg.messageType = true) :
    AnswersRequest s.srv o user msg ↔ Logger.Fits (s.srv.requestLines o user msg) := by
  refine ⟨fun ⟨_, _, hmessage, _⟩ => TcpServer.fits_of_onMessage hmessage, fun hfits => ?_⟩
  have hinv := parties_of_run hrun hcreated
  cases hrequest : TcpServer.IsPartyRequest msg.messageType with
  | true =>
    -- no party has the id 0, so a refused deletion has deleted nothing
    have hzero (party : Party) (hfind : s.srv.partyManager.findPartyByName o.iterOrder
        msg.content = some party) : party.partyId ≠ 0 :=
      hinv.issued.ne_zero (hinv.named.findPartyByName.mp hfind).1
    obtain ⟨s', hmessage, hanswer⟩ := TcpServer.onMessage_partyAnswer hrequest hfits hzero
    cases hanswer with
    | refused text =>
      exact ⟨_, _, hmessage, rfl, fun _ => ⟨rfl, fun _ => rfl⟩, fun _ => ⟨text, Or.inl rfl⟩⟩
    | done text hposted =>
      refine ⟨s', _, hmessage, hposted, fun ⟨reply, hreply, _, herror⟩ => ?_,
        fun _ => ⟨text, Or.inr rfl⟩⟩
      rw [List.mem_singleton.mp hreply] at herror
      cases herror
  | false =>
    have hno (sent : List (SessionRef × ChatMessage))
        (h : TcpServer.IsPartyRequest msg.messageType = true) :
        ∃ text, sent = [(user, errorReply text)] ∨ sent = [(user, serverReply text)] := by
      rw [hrequest] at h
      cases h
    rw [AboutParty, hrequest, Bool.false_or, beq_iff_eq] at hparty
    have hmessage : s.srv.onMessage o user msg = .ok (s.srv.handlePartyMessage user msg) := by
      simp only [TcpServer.onMessage, hparty]
    rcases s.srv.handlePartyMessage_cases user msg with ⟨text, heq⟩ | ⟨targets, heq⟩
    · rw [heq] at hmessage
      exact ⟨_, _, hmessage, rfl, fun _ => ⟨rfl, fun _ => rfl⟩, hno _⟩
    · rw [heq] at hmessage
      exact ⟨_, _, hmessage, rfl, fun _ => ⟨rfl, fun _ => rfl⟩, hno _⟩

/-- `bob`, who is in the party "p", wants to create another one and is refused. -/
theorem party_refusals_partyOfTwo : ∃ s s' sent,
    Run (step parseParty) anyStep (Sys.start 5) partyOfTwo s ∧ 1 ∈ s.srv.users ∧
    s.srv.onMessage {} 1 (partyRequest .partyCreate) = .ok s' ∧
    s'.posted = s.srv.posted ++ sent ∧
    sent = [(1, errorReply (ascii "Already in a party."))] ∧
    s'.partyManager = s.srv.partyManager := by
  obtain ⟨s, hrun, hs⟩ := exists_run_of_exec (step parseParty) anyStep (Sys.start 5) partyOfTwo
    (fun s => decide (1 ∈ s.srv.users ∧
      Logger.Fits (s.srv.requestLines {} 1 (partyRequest .partyCreate)) ∧
      (s.srv.handlePartyCreate {} 1 (partyRequest .partyCreate)).posted =
        s.srv.posted ++ [(1, errorReply (ascii "Already in a party."))])) (by decide)
  obtain ⟨huser, hfits, hposted⟩ := of_decide_eq_true hs
  have hcreated : stepCount (step parseParty) createsParty (Sys.start 5) partyOfTwo = 1 := by
    decide
  obtain ⟨s', sent, hmessage, hsent, hrefused, -⟩ :=
    (party_refusals hrun (by omega) {} 1 (partyRequest .partyCreate) rfl).mpr hfits
  obtain rfl := (TcpServer.logged_eq_ok.mp hmessage).2
  rw [hsent] at hposted
  have hreply := List.append_cancel_left hposted
  refine ⟨s, _, sent, hrun, huser, hmessage, hsent, hreply, (hrefused ?_).1⟩
  exact ⟨_, hreply ▸ List.mem_singleton_self _, rfl, rfl⟩

/-- The line of the constructor does not fit with this name. -/
def unloggable : Bytes := longName 2147483610

/-- `ann` asks for a party of this name: the request is not answered, and the exception of the
constructor ends the run. -/
theorem long_name_unanswered : ∃ s t,
    Run (step ChatMessage.parseFromArray) anyStep (Sys.start 5) annLogsIn s ∧ 0 ∈ s.srv.users ∧
    (∀ o, ¬ AnswersRequest s.srv o 0 (s.stamped 0 (partyRequest .partyCreate unloggable))) ∧
    Run (step ChatMessage.parseFromArray) anyStep s
      [.receive 0 (partyRequest .partyCreate unloggable).serialize, .visit 0] t ∧
    ∀ o, step ChatMessage.parseFromArray t (.dispatch o) = none := by
  have hlength : (cString unloggable).length = 2147483610 := length_longName _
  have hmax : Logger.intMax = 2147483647 := rfl
  have hname : unloggable ≠ [] := longName_ne_nil (by decide)
  have hlong : Logger.intMax ≤
      (cString unloggable).length + (Logger.signed 100000).length + 36 := by
    have hid : (Logger.signed 100000).length = 6 := rfl
    omega
  obtain ⟨s, hrun, halone⟩ := alone_annLogsIn login_readBack
  have hthrows (o : Oracle) : ∃ e, s.srv.onMessage o 0
      (s.stamped 0 (partyRequest .partyCreate unloggable)) = .error e :=
    halone.create_throws hname hlong
  refine ⟨s, _, hrun, halone.ready.online, fun o => ?_,
    halone.ready.ask (partyRequest_readBack rfl (by decide)), fun o => ?_⟩
  · rintro ⟨s', sent, hmessage, -⟩
    obtain ⟨e, herror⟩ := hthrows o
    rw [herror] at hmessage
    cases hmessage
  · obtain ⟨e, herror⟩ := hthrows o
    exact halone.ready.dispatch_error herror

end BoostChat.Server
