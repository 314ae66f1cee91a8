import BoostChat.Server.FriendTables

/-!
# One request for each pair of users

Nothing but the two look-ups before the `INSERT` keeps a pair of users from having two
requests, and `HasFriendRequest` turns every failure into the answer that there is none.

* `OneRequest` — a pair of users has at most one request, and nobody has one to himself;
* `FriendOp.overlooks` — a look-up fails although there is a request for it to find;
* `friendStep_sends` — when a request is inserted, for whatever calls that fail;
* `one_request` — `OneRequest` holds all along a run exactly when no request is inserted
  that is to the sender or whose look-ups overlooked another;
* `sendsInformed_of_calls`, `namedId_ne_self` — what makes sure of that;
* `requests_doubled` — two requests of one pair, after a look-up that failed.
-/

namespace BoostChat.Server

open Lib MySQLManager

/-- A pair of users has at most one request, and nobody has one to himself. -/
structure OneRequest (t : Tables) : Prop where
  single : Single t
  others : ∀ row ∈ t.friendRequests, row.senderId ≠ row.receiverId

/-- The six calls of a look-up do not all succeed although the table has a request for it
to find. The first look-up is for requests of the user, the second for requests to him. -/
def FriendOp.overlooks (op : FriendOp) (t : Tables) (id : Bytes) : Prop :=
  (failsWithin 6 (op.oracle.sqlFaults.drop 6) ≠ none ∧
    0 < countFriendRequests t op.userId id) ∨
  (failsWithin 6 (lookUpRequest t op.userId id (op.oracle.sqlFaults.drop 6)).2 ≠ none ∧
    0 < countFriendRequests t id op.userId)

instance (op : FriendOp) (t : Tables) (id : Bytes) : Decidable (op.overlooks t id) :=
  inferInstanceAs (Decidable (_ ∧ _ ∨ _ ∧ _))

/-- A request that the handler inserts is to somebody else, and the look-ups before it
overlooked none. -/
def FriendOp.SendsInformed (op : FriendOp) (t : Tables) : Prop :=
  ∀ id ∈ op.sends t, op.userId ≠ id ∧ ¬ op.overlooks t id

instance (op : FriendOp) (t : Tables) : Decidable (op.SendsInformed t) :=
  inferInstanceAs (Decidable (∀ id ∈ op.sends t, _ ∧ _))

variable {op : FriendOp} {db db' : MySQLManager} {t t' : Tables}

/-! ## The look-ups -/

/-- With known statuses a pair without requests is one where both look-ups count none. -/
theorem none_between_iff (hknown : KnownStatus t) {p q : Bytes} :
    t.friendRequests.countP (FriendRequestRow.between p q) = 0 ↔
      countFriendRequests t p q = 0 ∧ countFriendRequests t q p = 0 := by
  refine ⟨fun hnone => ?_, none_between hknown⟩
  rw [List.countP_eq_zero] at hnone
  constructor
  · refine List.countP_eq_zero.mpr fun row hrow hcounted => hnone row hrow ?_
    rw [Bool.and_eq_true, Bool.and_eq_true, beq_iff_eq, beq_iff_eq] at hcounted
    exact samePair_iff.mpr (Or.inl hcounted.1)
  · refine List.countP_eq_zero.mpr fun row hrow hcounted => hnone row hrow ?_
    rw [Bool.and_eq_true, Bool.and_eq_true, beq_iff_eq, beq_iff_eq] at hcounted
    exact samePair_iff.mpr (Or.inr hcounted.1)

/-- A look-up that answers `false` found nothing, or its calls failed. -/
theorem lookUpRequest_false {p q : Bytes} {faults : List (Option Bytes)}
    (h : (lookUpRequest t p q faults).1 = false) :
    ¬ (failsWithin 6 faults ≠ none ∧ 0 < countFriendRequests t p q) ↔
      countFriendRequests t p q = 0 := by
  unfold lookUpRequest at h
  split at h
  · rename_i hfails
    rw [hfails, and_iff_right (Option.some_ne_none _)]
    exact Nat.pos_iff_ne_zero.not_left
  · have hnone := Nat.eq_zero_of_not_pos (of_decide_eq_false h)
    exact iff_of_true (fun hsome => hsome.2.ne' hnone) hnone

/-- A request that is sent overlooked none exactly when the pair has none. -/
theorem overlooks_iff (hknown : KnownStatus t) {id : Bytes} (hsends : op.sends t = some id) :
    ¬ op.overlooks t id ↔
      t.friendRequests.countP (FriendRequestRow.between op.userId id) = 0 := by
  rw [FriendOp.sends, Option.ite_none_right_eq_some, Option.filter_eq_some_iff,
    Option.any_eq_true] at hsends
  obtain ⟨-, -, rest, hstatus, -⟩ := hsends
  unfold passesStatus at hstatus
  dsimp only at hstatus
  -- both look-ups have answered `false`
  rw [Option.ite_none_left_eq_some, Option.ite_none_left_eq_some, Bool.not_eq_true,
    Bool.not_eq_true] at hstatus
  rw [none_between_iff hknown, FriendOp.overlooks, not_or]
  exact and_congr (lookUpRequest_false hstatus.1) (lookUpRequest_false hstatus.2.1)

/-! ## The tables -/

/-- **When an `INSERT` keeps the property.** -/
theorem oneRequest_insert_iff (h : OneRequest t) {p q : Bytes} :
    OneRequest ((insertRequest p q).query t).1 ↔
      p ≠ q ∧ t.friendRequests.countP (FriendRequestRow.between p q) = 0 := by
  constructor
  · intro hnew
    refine ⟨hnew.others ⟨p, q, ascii "P"⟩ (List.mem_append_right _ List.mem_cons_self), ?_⟩
    have hle := hnew.single p q
    -- the new row is one of the pair, so there is room for it only when there was none
    have hself : FriendRequestRow.between p q ⟨p, q, ascii "P"⟩ = true := samePair_self p q
    rw [insertRequest, List.countP_append, List.countP_singleton, if_pos hself] at hle
    omega
  · rintro ⟨hne, hnone⟩
    refine ⟨single_insert h.single hnone, fun row hrow => ?_⟩
    rcases List.mem_append.mp hrow with hold | hnew
    · exact h.others row hold
    · rw [List.mem_singleton.mp hnew]
      exact hne

/-- An accept and a reject keep it. -/
theorem oneRequest_new (hkind : op.kind ≠ .request) (h : OneRequest t)
    (hnew : NewTables op t t') : OneRequest t' := by
  have hmarked (id id' : Bytes) : OneRequest ((acceptRequest id id').query t).1 := by
    refine ⟨single_accept h.single id id', fun row hrow => ?_⟩
    obtain ⟨old, hold, rfl⟩ := List.mem_map.mp hrow
    split
    · exact h.others old hold
    · exact h.others old hold
  cases hnew with
  | requested hrequest => exact absurd hrequest hkind
  | marked => exact hmarked _ _
  | accepted => exact ⟨(hmarked _ _).single, (hmarked _ _).others⟩
  | @rejected id =>
    exact ⟨single_delete h.single id op.userId, fun row hrow =>
      h.others row (List.mem_filter.mp hrow).1⟩

/-! ## One handler -/

/-- **Inversion.** A FRIEND_REQUEST inserts a request, or it leaves the tables alone. -/
theorem friendStep_sends (hkind : op.kind = .request) (hstep : friendStep db op = some db') :
    (op.sends db.working = none ∧ ∃ faults, db' = db.withFaults faults) ∨
    ∃ id, op.sends db.working = some id ∧ ∃ faults,
      db' = (db.execute (insertRequest op.userId id).query).withFaults faults := by
  obtain ⟨res, db'', hhandle, hrequested⟩ := handle_request op db hkind
  rw [friendStep, hhandle, Option.some.injEq] at hstep
  subst hstep
  cases hrequested with
  | unsent hsends => exact Or.inl ⟨hsends, _, rfl⟩
  | unconfirmed _ hsends => exact Or.inr ⟨_, hsends, _, rfl⟩
  | sent _ hsends => exact Or.inr ⟨_, hsends, _, rfl⟩

/-- **Step.** A handler keeps the property, in the durable tables and in those that the
connection works on, exactly when it inserts no request uninformed. -/
theorem oneRequest_step (hknown : KnownStatus db.working)
    (h : OneRequest db.committed ∧ OneRequest db.working)
    (hstep : friendStep db op = some db') :
    (OneRequest db'.committed ∧ OneRequest db'.working) ↔ op.SendsInformed db.working := by
  by_cases hkind : op.kind = .request
  · rcases friendStep_sends hkind hstep with ⟨hsends, faults, rfl⟩ | ⟨id, hsends, faults, rfl⟩
    · rw [FriendOp.SendsInformed, hsends]
      exact iff_of_true h fun id hid => (Option.not_mem_none id hid).elim
    · have hiff := oneRequest_insert_iff h.2 (p := op.userId) (q := id)
      have hinformed : op.SendsInformed db.working ↔ op.userId ≠ id ∧
          db.working.friendRequests.countP (FriendRequestRow.between op.userId id) = 0 := by
        rw [FriendOp.SendsInformed, hsends, ← overlooks_iff hknown hsends]
        simp
      rw [hinformed, ← hiff]
      refine ⟨fun h' => h'.2, fun h' => ⟨?_, h'⟩⟩
      -- in autocommit mode the row is durable at once
      rw [withFaults_committed, execute]
      dsimp only
      split
      · exact h'
      · exact h.1
  · refine iff_of_true (tables_step (fun _ h => h) (oneRequest_new hkind) h hstep) ?_
    rw [FriendOp.SendsInformed, FriendOp.sends, if_neg hkind]
    exact fun id hid => (Option.not_mem_none id hid).elim

/-! ## What makes sure of it -/

/-- When none of the eighteen calls of the three look-ups fails, a request to somebody else
is sent informed. -/
theorem sendsInformed_of_calls (hcalls : failsWithin 18 op.oracle.sqlFaults = none)
    (hother : op.namedId ≠ some op.userId) : op.SendsInformed t := by
  intro id hid
  rw [show 18 = 6 + (6 + 6) from rfl, failsWithin_add, failsWithin_add, Option.or_eq_none_iff,
    Option.or_eq_none_iff] at hcalls
  obtain ⟨-, hfirst, hsecond⟩ := hcalls
  constructor
  · rintro rfl
    rw [FriendOp.sends, Option.mem_def, Option.ite_none_right_eq_some,
      Option.filter_eq_some_iff] at hid
    exact hother hid.2.1
  -- the second look-up begins with the thirteenth call
  · have hrest : (lookUpRequest t op.userId id (op.oracle.sqlFaults.drop 6)).2 =
        (op.oracle.sqlFaults.drop 6).drop 6 := by
      rw [lookUpRequest, hfirst]
    rw [FriendOp.overlooks, hrest]
    rintro (⟨hfails, -⟩ | ⟨hfails, -⟩)
    · exact hfails hfirst
    · exact hfails hsecond

theorem toString_injective : Function.Injective TcpServer.toString :=
  fun _ _ h => UInt32.toNat_inj.mp (decimal_injective h)

/-- A session that holds the entity of its account does not name itself, as long as the keys
of the accounts fit in 32 bits and their user ids have no zero byte. -/
theorem namedId_ne_self (hids : (op.oracle.users.map (·.id)).Nodup)
    (hsmall : ∀ row ∈ op.oracle.users, row.id < 2 ^ 32)
    (htext : ∀ row ∈ op.oracle.users, 0 ∉ row.userId) {own : UserRow}
    (hown : own ∈ op.oracle.users) (hid : op.user.id = own.id.toUInt32)
    (hentity : op.user.userEntity = entityOfRow own) : op.namedId ≠ some op.userId := by
  intro hself
  rw [FriendOp.namedId, Option.map_eq_some_iff] at hself
  obtain ⟨entity, hnamed, hsame⟩ := hself
  have hentityId : entity.id = op.user.id := toString_injective hsame
  obtain ⟨row, -, haccount, rfl⟩ := FriendOp.named_row hnamed
  obtain ⟨hrow, hcontent⟩ := accountOf_some haccount
  have hrowId : row.id.toUInt32 = own.id.toUInt32 := hentityId.trans hid
  -- below 2 ^ 32 the key is not cut when it becomes the session's id
  have hkey : row.id = own.id := by
    have hvalue := congrArg UInt32.toNat hrowId
    rwa [Nat.toUInt32, UInt32.toNat_ofNat', UInt32.toNat_ofNat',
      Nat.mod_eq_of_lt (hsmall row hrow), Nat.mod_eq_of_lt (hsmall own hown)] at hvalue
  obtain rfl : row = own := List.inj_on_of_nodup_map hids hrow hown hkey
  -- the account was found by the text that the first check compares with its own
  refine FriendOp.named_other hnamed ?_
  rw [hentity, ← hcontent]
  exact List.takeWhile_eq_self_iff.mpr fun b hb =>
    bne_iff_ne.mpr fun hzero => htext row hrow (hzero ▸ hb)

/-! ## Runs -/

/-- **One request for each pair.** In a run of friend handlers from empty tables, for any
sessions and whatever calls fail, the tables always have at most one request for a pair and
none of a user to himself, exactly when every request that is inserted is sent informed. -/
theorem one_request {ops : List FriendOp} (hrun : Run friendStep anyStep {} ops db) :
    (∀ pre post u, ops = pre ++ post → Run friendStep anyStep {} pre u →
      OneRequest u.committed ∧ OneRequest u.working) ↔
    Run friendStep (fun db op => op.SendsInformed db.working) {} ops db := by
  have hempty : OneRequest {} := ⟨fun _ _ => Nat.zero_le 1, fun _ h => nomatch h⟩
  rw [hrun.always_iff (c := fun db op => op.SendsInformed db.working)
    (I := fun db => OneRequest db.committed ∧ OneRequest db.working)
    (J := fun db => KnownStatus db.committed ∧ KnownStatus db.working)
    (fun db op db' hknown h _ hstep =>
      ⟨knownStatus_step hknown hstep, oneRequest_step hknown.2 h hstep⟩)
    knownStatus_start ⟨hempty, hempty⟩, Run.anyStep_and_iff]

/-- Account 1 asks account 2, which accepts. -/
theorem one_request_bob : ∃ db,
    Run friendStep anyStep {}
      [friendOp .request 1 "ann" "bob" [], friendOp .accept 2 "bob" "ann" []] db ∧
    ∀ pre post u, [friendOp .request 1 "ann" "bob" [], friendOp .accept 2 "bob" "ann" []] =
      pre ++ post → Run friendStep anyStep {} pre u →
        OneRequest u.committed ∧ OneRequest u.working := by
  obtain ⟨db, hany, hrun⟩ := exists_run_any friendStep (fun db op => op.SendsInformed db.working)
    {} [friendOp .request 1 "ann" "bob" [], friendOp .accept 2 "bob" "ann" []] (by decide)
  exact ⟨db, hany, (one_request hany).mpr hrun⟩

/-- Account 1 asks account 2 twice. The second time the seventh call fails, the first one of
the first look-up. -/
def askTwice : List FriendOp :=
  [friendOp .request 1 "ann" "bob" [],
    friendOp .request 1 "ann" "bob" (List.replicate 6 none ++ [some (ascii "Lost connection")])]

/-- Account 2 asks account 1, which has asked already. The thirteenth call fails, the first
one of the second look-up. -/
def askBack : List FriendOp :=
  [friendOp .request 1 "ann" "bob" [],
    friendOp .request 2 "bob" "ann" (List.replicate 12 none ++ [some (ascii "Lost connection")])]

/-- Account 1 has a user id with a zero byte, which its session has only the beginning of,
and it names the whole of it. -/
def askSelf : FriendOp where
  kind := .request
  user := { id := 1, userEntity := { id := 1, userId := ascii "ann" } }
  msg := { content := ascii "ann" ++ [0, 120] }
  oracle := { users := [⟨1, ascii "ann" ++ [0, 120], [], [], [], ascii "Y"⟩] }

/-- The pair has two requests, in one direction or in both; or a user has one to himself. -/
theorem requests_doubled :
    (∃ db, Run friendStep anyStep {} askTwice db ∧
      db.committed.friendRequests =
        [⟨ascii "1", ascii "2", ascii "P"⟩, ⟨ascii "1", ascii "2", ascii "P"⟩] ∧
      ¬ OneRequest db.committed) ∧
    (∃ db, Run friendStep anyStep {} askBack db ∧
      db.committed.friendRequests =
        [⟨ascii "1", ascii "2", ascii "P"⟩, ⟨ascii "2", ascii "1", ascii "P"⟩] ∧
      ¬ OneRequest db.committed) ∧
    ∃ db, Run friendStep anyStep {} [askSelf] db ∧
      db.committed.friendRequests = [⟨ascii "1", ascii "1", ascii "P"⟩] ∧
      ¬ OneRequest db.committed := by
  refine ⟨?_, ?_, ?_⟩
  · obtain ⟨db, hrun, htables⟩ := exists_run_committed anyStep askTwice
      ⟨[⟨ascii "1", ascii "2", ascii "P"⟩, ⟨ascii "1", ascii "2", ascii "P"⟩], []⟩ (by decide)
    refine ⟨db, hrun, by rw [htables], ?_⟩
    rw [htables]
    exact fun hone => absurd (hone.single (ascii "1") (ascii "2")) (by decide)
  · obtain ⟨db, hrun, htables⟩ := exists_run_committed anyStep askBack
      ⟨[⟨ascii "1", ascii "2", ascii "P"⟩, ⟨ascii "2", ascii "1", ascii "P"⟩], []⟩ (by decide)
    refine ⟨db, hrun, by rw [htables], ?_⟩
    rw [htables]
    exact fun hone => absurd (hone.single (ascii "1") (ascii "2")) (by decide)
  · obtain ⟨db, hrun, htables⟩ := exists_run_committed anyStep [askSelf]
      ⟨[⟨ascii "1", ascii "1", ascii "P"⟩], []⟩ (by decide)
    refine ⟨db, hrun, by rw [htables], ?_⟩
    rw [htables]
    exact fun hone => hone.others _ List.mem_cons_self rfl

end BoostChat.Server
