import BoostChat.Server.Friends

/-!
# The mode of the shared connection

All users share one connection. A transaction switches autocommit off with one call and on
again with another, whose result nobody looks at and which is skipped when the commit or the
rollback throws. Whether the connection is left as it was found is decided by the answers
of the last two calls.

* `Settled` — autocommit is on and nothing is uncommitted;
* `Durable` — what is reported as done is durable, and what fails undoes nothing;
* `settled_step` — a handler keeps the connection settled in exactly the steps that meet
  `FriendOp.restoresMode`;
* `connection_mode` — the main result, for any failures of calls.
-/

namespace BoostChat.Server

open Lib MySQLManager

/-- Autocommit is on, with no uncommitted change. -/
def Settled (db : MySQLManager) : Prop := db.autocommit = true ∧ db.working = db.committed

instance (db : MySQLManager) : Decidable (Settled db) := inferInstanceAs (Decidable (_ ∧ _))

/-- Whatever the next handler is: when it succeeds, all that the connection sees is durable;
when an accept or a reject fails, all that the connection saw before is durable. -/
def Durable (db : MySQLManager) : Prop :=
  ∀ op : FriendOp,
    (∀ entity, (op.handle db).1 = .ok entity →
      (op.handle db).2.committed = (op.handle db).2.working) ∧
    (∀ e, (op.handle db).1 = .error e → op.kind ≠ .request →
      (op.handle db).2.committed = db.working)

/-- A handler that begins a transaction restores the mode: when something stops the
transaction, the two calls that follow succeed, and otherwise the call after the commit
succeeds. -/
def FriendOp.restoresMode (db : MySQLManager) (op : FriendOp) : Bool :=
  op.namedId.all fun id => op.kind == .request ||
    (failsWithin 1 (op.oracle.sqlFaults.drop 6)).isSome ||
    restores (op.statements id) db.working ((op.oracle.sqlFaults.drop 6).drop 1)

variable {op : FriendOp} {db db' : MySQLManager}

section Restores

variable {id : Bytes}

theorem restoresMode_of_unnamed (h : op.namedId = none) : op.restoresMode db = true := by
  rw [FriendOp.restoresMode, h, Option.all_none]

theorem restoresMode_of_request (h : op.kind = .request) : op.restoresMode db = true := by
  rw [FriendOp.restoresMode, Option.all_eq_true]
  intro id _
  rw [h, beq_self_eq_true, Bool.true_or, Bool.true_or]

theorem restoresMode_of_notBegun {faults : List (Option Bytes)}
    (h : failsWithin 1 (op.oracle.sqlFaults.drop 6) = some faults) :
    op.restoresMode db = true := by
  rw [FriendOp.restoresMode, Option.all_eq_true]
  intro id _
  rw [h, Option.isSome_some, Bool.or_true, Bool.true_or]

theorem restoresMode_of_begun (hkind : op.kind ≠ .request) (hnamed : op.namedId = some id)
    (hbegin : failsWithin 1 (op.oracle.sqlFaults.drop 6) = none) :
    op.restoresMode db =
      restores (op.statements id) db.working ((op.oracle.sqlFaults.drop 6).drop 1) := by
  rw [FriendOp.restoresMode, hnamed, Option.all_some, hbegin, beq_false_of_ne hkind,
    Option.isSome_none, Bool.false_or, Bool.false_or]

end Restores

theorem settled_execute (h : Settled db) (query : Tables → Tables × Nat)
    (faults : List (Option Bytes)) : Settled ((db.execute query).withFaults faults) :=
  ⟨h.1, (if_pos h.1).symm⟩

/-- **Step.** From a settled connection a handler leaves a settled one exactly when it
restores the mode. -/
theorem settled_step (h : Settled db) (hstep : friendStep db op = some db') :
    Settled db' ↔ op.restoresMode db = true := by
  obtain ⟨res, heffect⟩ := friendStep_effect hstep
  cases heffect with
  | refused hnamed => exact iff_of_true h (restoresMode_of_unnamed hnamed)
  | pending hkind => exact iff_of_true h (restoresMode_of_request hkind)
  | unsent hkind => exact iff_of_true h (restoresMode_of_request hkind)
  | sent hkind => exact iff_of_true (settled_execute h _ _) (restoresMode_of_request hkind)
  | @transacted res _ entity hkind hnamed htransacted =>
    have hid := FriendOp.namedId_of_named hnamed
    cases htransacted with
    | notBegun hbegin => exact iff_of_true h (restoresMode_of_notBegun hbegin)
    | notBegunRolledBack hbegin hmode =>
      exact iff_of_true ⟨hmode h.1, rfl⟩ (restoresMode_of_notBegun hbegin)
    -- the rollback failed, so the line that switches autocommit on was skipped
    | stuck pre hbegin _ _ _ hrestores =>
      rw [restoresMode_of_begun hkind hid hbegin]
      exact iff_of_false (fun hsettled => Bool.false_ne_true hsettled.1)
        fun htrue => Bool.false_ne_true (hrestores.symm.trans htrue)
    -- nothing is pending after a rollback or a commit, so only the mode decides
    | rolledBack hbegin =>
      rw [restoresMode_of_begun hkind hid hbegin]
      exact ⟨fun hsettled => hsettled.1, fun hrestores => ⟨hrestores, rfl⟩⟩
    | committed hbegin =>
      rw [restoresMode_of_begun hkind hid hbegin]
      exact ⟨fun hsettled => hsettled.1, fun hrestores => ⟨hrestores, rfl⟩⟩

/-- From a settled connection, success is durable and failure undoes nothing. -/
theorem durable_of_settled (h : Settled db) : Durable db := by
  intro op
  obtain ⟨res, db', hhandle, heffect⟩ := handle_effect op db
  rw [hhandle]
  cases heffect with
  | refused | pending | unsent =>
    exact ⟨fun _ hok => (nomatch hok), fun _ _ _ => h.2.symm⟩
  | sent hkind =>
    exact ⟨fun _ _ => (settled_execute h _ []).2.symm, fun _ _ hother => absurd hkind hother⟩
  | transacted hkind hnamed htransacted =>
    cases htransacted with
    | notBegun | notBegunRolledBack | stuck | rolledBack =>
      exact ⟨fun _ hok => (nomatch hok), fun _ _ _ => h.2.symm⟩
    | committed => exact ⟨fun _ _ => rfl, fun _ herror => (nomatch herror)⟩

/-- **The connection's mode.** Over any tables, the connection is settled whenever a handler
has returned, with all that follows from it for the next handler, exactly in the runs whose
transactions restore the mode. -/
theorem connection_mode (t : Tables) {ops : List FriendOp} {db : MySQLManager}
    (hrun : Run friendStep anyStep { committed := t, working := t } ops db) :
    (∀ pre post u, ops = pre ++ post →
      Run friendStep anyStep { committed := t, working := t } pre u → Settled u ∧ Durable u) ↔
    Run friendStep (fun db op => op.restoresMode db = true) { committed := t, working := t }
      ops db := by
  have hstart : Settled { committed := t, working := t } := ⟨rfl, rfl⟩
  have hiff := hrun.always_iff (I := Settled) (J := fun _ => True)
    (fun _ _ _ _ h _ hstep => ⟨trivial, settled_step h hstep⟩) trivial hstart
  rw [Run.anyStep_and_iff] at hiff
  rw [← hiff]
  constructor
  · intro hall pre post u hsplit hpre
    exact (hall pre post u hsplit hpre).1
  · intro hall pre post u hsplit hpre
    have hsettled := hall pre post u hsplit hpre
    exact ⟨hsettled, durable_of_settled hsettled⟩

/-- Account 1 asks account 2, which accepts; every call succeeds. -/
theorem connection_mode_bob : ∃ db,
    Run friendStep anyStep {}
      [friendOp .request 1 "ann" "bob" [], friendOp .accept 2 "bob" "ann" []] db ∧
    ∀ pre post u, [friendOp .request 1 "ann" "bob" [], friendOp .accept 2 "bob" "ann" []] =
      pre ++ post → Run friendStep anyStep {} pre u → Settled u ∧ Durable u := by
  obtain ⟨db, hany, hrun⟩ := exists_run_any friendStep (fun db op => op.restoresMode db = true)
    {} [friendOp .request 1 "ann" "bob" [], friendOp .accept 2 "bob" "ann" []] (by decide)
  exact ⟨db, hany, (connection_mode {} hany).mpr hrun⟩

/-- The call after the commit of an accept, `mysql_autocommit(true)`, fails. -/
def lostMode : List (Option Bytes) := List.replicate 18 none ++ [some (ascii "Lost connection")]

def befriended : Tables := ⟨[⟨ascii "1", ascii "2", ascii "A"⟩], [⟨ascii "1", ascii "2"⟩]⟩

/-- The connection after account 2 has accepted a request of account 1 with `lostMode`. -/
def leftInTransaction : MySQLManager := ⟨befriended, befriended, false, []⟩

/-- Account 2 accepts a request of account 1, with `lostMode`. Then account 3 asks account 4
and is told that this succeeded, but its request is not durable; account 2 rejects a request
of account 4 that does not exist, and the rollback undoes what account 3 did. -/
theorem connection_mode_lost :
    Run friendStep anyStep {}
      [friendOp .request 1 "ann" "bob" [], friendOp .accept 2 "bob" "ann" lostMode]
      leftInTransaction ∧
    ¬ Settled leftInTransaction ∧ ¬ Durable leftInTransaction ∧
    (∃ entity, ((friendOp .request 3 "carol" "dave" []).handle leftInTransaction).1 =
      .ok entity) ∧
    ∃ v w, friendStep leftInTransaction (friendOp .request 3 "carol" "dave" []) = some v ∧
      ⟨ascii "3", ascii "4", ascii "P"⟩ ∈ v.working.friendRequests ∧
      ⟨ascii "3", ascii "4", ascii "P"⟩ ∉ v.committed.friendRequests ∧
      friendStep v (friendOp .reject 2 "bob" "dave" []) = some w ∧
      ⟨ascii "3", ascii "4", ascii "P"⟩ ∉ w.working.friendRequests ∧
      ⟨ascii "3", ascii "4", ascii "P"⟩ ∉ w.committed.friendRequests := by
  have hexec : exec friendStep anyStep {}
      [friendOp .request 1 "ann" "bob" [], friendOp .accept 2 "bob" "ann" lostMode] =
        some leftInTransaction := rfl
  obtain ⟨entity, hok⟩ : ∃ entity,
      ((friendOp .request 3 "carol" "dave" []).handle leftInTransaction).1 = .ok entity :=
    ⟨_, rfl⟩
  refine ⟨run_of_exec hexec, fun hsettled => Bool.false_ne_true hsettled.1, fun hdurable => ?_,
    ⟨entity, hok⟩, _, _, rfl, by decide, by decide, rfl, by decide, by decide⟩
  have hsame := (hdurable _).1 entity hok
  exact absurd hsame (by decide)

end BoostChat.Server
