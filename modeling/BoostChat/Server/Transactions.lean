import BoostChat.Lib.ExceptState
import BoostChat.Server.MySQLManager

/-!
# Statements and transactions on the MySQL connection

What the calls of `MySQLManager` do when the environment makes any of them fail.

* `failsWithin` — the first of the next calls that fails;
* `Calls` — a computation that makes a number of calls, changes nothing, and stops with an
  exception at the first one that fails;
* `outcome_statements` — what a list of statements has done when it returns or throws;
* `outcome_transaction` — the same for `BeginTransaction`, some statements and
  `CommitTransaction`, with `RollbackTransaction` in the handler.
-/

namespace BoostChat.Server

open Lib

namespace MySQLManager

def withFaults (db : MySQLManager) (faults : List (Option Bytes)) : MySQLManager :=
  { db with faults := faults }

section Projections

variable (db : MySQLManager) (faults : List (Option Bytes))

@[simp] theorem withFaults_committed : (db.withFaults faults).committed = db.committed := rfl
@[simp] theorem withFaults_working : (db.withFaults faults).working = db.working := rfl
@[simp] theorem withFaults_autocommit : (db.withFaults faults).autocommit = db.autocommit := rfl
@[simp] theorem withFaults_faults : (db.withFaults faults).faults = faults := rfl
@[simp] theorem withFaults_withFaults (faults' : List (Option Bytes)) :
    (db.withFaults faults).withFaults faults' = db.withFaults faults' := rfl

end Projections

/-! ## Calls -/

/-- The first of the next `n` calls that fails: the answers that are left after it. -/
def failsWithin : Nat → List (Option Bytes) → Option (List (Option Bytes))
  | 0, _ => none
  | _ + 1, [] => none
  | n + 1, none :: faults => failsWithin n faults
  | _ + 1, some _ :: faults => some faults

@[simp] theorem failsWithin_nil (n : Nat) : failsWithin n [] = none := by
  cases n <;> rfl

/-- Some calls and then some more. -/
theorem failsWithin_add (m n : Nat) : ∀ faults : List (Option Bytes),
    failsWithin (m + n) faults = (failsWithin m faults).or (failsWithin n (faults.drop m)) := by
  induction m with
  | zero =>
    intro faults
    rw [Nat.zero_add, List.drop_zero, failsWithin, Option.none_or]
  | succ m ih =>
    intro faults
    rw [Nat.succ_add]
    cases faults with
    | nil => rw [List.drop_nil, failsWithin_nil, failsWithin_nil, failsWithin_nil, Option.none_or]
    | cons fault faults =>
      cases fault with
      | none => exact ih faults
      | some error => rfl

/-- A computation that makes `n` calls and changes nothing else. It stops with an exception
at the first call that fails. -/
def Calls (n : Nat) (x : Sql Unit) : Prop := ∀ db,
  (∀ faults, failsWithin n db.faults = some faults →
    ∃ e, outcome x db = (.error e, db.withFaults faults)) ∧
  (failsWithin n db.faults = none → outcome x db = (.ok (), db.withFaults (db.faults.drop n)))

theorem outcome_call (db : MySQLManager) :
    outcome call db = (.ok (db.faults.headD none), db.withFaults db.faults.tail) := by
  obtain ⟨committed, working, autocommit, faults⟩ := db
  cases faults <;> rfl

theorem outcome_call_none (db : MySQLManager) (h : failsWithin 1 db.faults = none) :
    outcome call db = (.ok none, db.withFaults (db.faults.drop 1)) := by
  rw [outcome_call, List.drop_one]
  match hfaults : db.faults with
  | [] => rfl
  | none :: faults => rfl
  | some error :: faults =>
    rw [hfaults] at h
    cases h

theorem outcome_call_some (db : MySQLManager) {faults : List (Option Bytes)}
    (h : failsWithin 1 db.faults = some faults) :
    ∃ error, outcome call db = (.ok (some error), db.withFaults faults) := by
  rw [outcome_call]
  match hfaults : db.faults with
  | [] =>
    rw [hfaults] at h
    cases h
  | none :: faults =>
    rw [hfaults] at h
    cases h
  | some error :: faults' =>
    rw [hfaults] at h
    exact ⟨error, by rw [← Option.some.inj h]; rfl⟩

/-- One call whose answer is looked at, and what follows when it succeeds. -/
theorem Calls.of_call {n : Nat} {x : Sql Unit} {f : Option Bytes → Sql Unit} (h : Calls n x)
    (hok : f none = x)
    (hfail : ∀ error db, ∃ e, outcome (f (some error)) db = (.error e, db)) :
    Calls (n + 1) (call >>= f) := by
  intro db
  rw [outcome_bind_ok (outcome_call db)]
  cases hfaults : db.faults with
  | nil =>
    have hrest := h (db.withFaults [])
    rw [withFaults_faults] at hrest
    rw [List.headD_nil, hok, List.tail_nil, failsWithin_nil, List.drop_nil]
    refine ⟨fun _ hsome => (nomatch hsome), fun _ => ?_⟩
    rw [hrest.2 (failsWithin_nil n), withFaults_withFaults, List.drop_nil]
  | cons fault faults =>
    cases fault with
    | none =>
      have hrest := h (db.withFaults faults)
      rw [List.headD_cons, hok]
      exact hrest
    | some error =>
      -- the failing call has used its answer up
      obtain ⟨e, hthrow⟩ := hfail error (db.withFaults faults)
      refine ⟨fun faults' hsome => ⟨e, ?_⟩, fun hnone => (nomatch hnone)⟩
      rw [List.headD_cons, List.tail_cons, hthrow, Option.some.inj hsome]

section Then

variable {α : Type} {n : Nat} {x : Sql Unit} {db : MySQLManager}

theorem Calls.then_error (hx : Calls n x) {faults : List (Option Bytes)}
    (h : failsWithin n db.faults = some faults) (y : Sql α) :
    ∃ e, outcome (do x; y) db = (.error e, db.withFaults faults) := by
  obtain ⟨e, herror⟩ := (hx db).1 faults h
  exact ⟨e, outcome_bind_error herror⟩

theorem Calls.then_ok (hx : Calls n x) (h : failsWithin n db.faults = none) (y : Sql α) :
    outcome (do x; y) db = outcome y (db.withFaults (db.faults.drop n)) :=
  outcome_bind_ok ((hx db).2 h)

end Then

/-- Calls that are followed by more calls. -/
theorem Calls.seq {m n : Nat} {x y : Sql Unit} (hx : Calls m x) (hy : Calls n y) :
    Calls (m + n) (do x; y) := by
  intro db
  rw [failsWithin_add]
  cases hm : failsWithin m db.faults with
  | some faults =>
    rw [Option.some_or]
    refine ⟨fun faults' hsome => ?_, fun hnone => (nomatch hnone)⟩
    exact hx.then_error (hm.trans hsome) y
  | none =>
    have hrest := hy (db.withFaults (db.faults.drop m))
    rw [withFaults_faults, List.drop_drop] at hrest
    rw [Option.none_or, hx.then_ok hm]
    exact hrest

theorem calls_callOrThrow : Calls 1 callOrThrow := by
  have hnothing : Calls 0 (pure ()) := fun db => ⟨fun _ h => (nomatch h), fun _ => rfl⟩
  exact hnothing.of_call rfl fun error db => ⟨.runtimeError error, rfl⟩

theorem calls_openStatement : Calls 4 openStatement := by
  have hthree : Calls 3 (do callOrThrow; callOrThrow; callOrThrow) :=
    calls_callOrThrow.seq (calls_callOrThrow.seq calls_callOrThrow)
  exact hthree.of_call rfl fun error db => ⟨_, rfl⟩

/-! ## Statements -/

/-- The state after a statement was executed. -/
def execute (db : MySQLManager) (query : Tables → Tables × Nat) : MySQLManager :=
  { db with
    working := (query db.working).1
    committed := if db.autocommit then (query db.working).1 else db.committed }

/-- How `executePreparedStatement` can end. -/
inductive Executed (query : Tables → Tables × Nat) (db : MySQLManager) :
    Except StdException Unit → MySQLManager → Prop
  | refused {e : StdException} {faults : List (Option Bytes)}
    (hcalls : failsWithin 4 db.faults = some faults) :
    Executed query db (.error e) (db.withFaults faults)
  /-- The statement has taken effect, but the call after it failed. -/
  | unacknowledged {e : StdException} {faults : List (Option Bytes)}
    (hcalls : failsWithin 4 db.faults = none)
    (hstore : failsWithin 1 (db.faults.drop 4) = some faults) :
    Executed query db (.error e) ((db.execute query).withFaults faults)
  | unaffected {e : StdException} (hcalls : failsWithin 5 db.faults = none)
    (hrows : (query db.working).2 < 1) :
    Executed query db (.error e) ((db.execute query).withFaults (db.faults.drop 5))
  | executed (hcalls : failsWithin 5 db.faults = none) (hrows : ¬ (query db.working).2 < 1) :
    Executed query db (.ok ()) ((db.execute query).withFaults (db.faults.drop 5))

theorem outcome_runStatement (query : Tables → Tables × Nat) (db : MySQLManager) :
    outcome (runStatement query) db = (.ok (query db.working).2, db.execute query) := rfl

theorem outcome_executePreparedStatement (query : Tables → Tables × Nat) (db : MySQLManager) :
    ∃ res db', outcome (executePreparedStatement query) db = (res, db') ∧
      Executed query db res db' := by
  cases hcalls : failsWithin 4 db.faults with
  | some faults =>
    obtain ⟨e, herror⟩ := (calls_openStatement db).1 faults hcalls
    exact ⟨_, _, outcome_bind_error herror, .refused hcalls⟩
  | none =>
    rw [executePreparedStatement, outcome_bind_ok ((calls_openStatement db).2 hcalls),
      outcome_bind_ok (outcome_runStatement ..)]
    have hstore := calls_callOrThrow ((db.withFaults (db.faults.drop 4)).execute query)
    cases hcall : failsWithin 1 (db.faults.drop 4) with
    | some faults =>
      obtain ⟨e, herror⟩ := hstore.1 faults hcall
      exact ⟨_, _, outcome_bind_error herror, .unacknowledged hcalls hcall⟩
    | none =>
      -- four calls open the statement and the fifth acknowledges it
      have hfive : failsWithin 5 db.faults = none := by
        rw [failsWithin_add 4 1, hcalls, hcall]
        rfl
      have hend : ((db.withFaults (db.faults.drop 4)).execute query).withFaults
          (((db.withFaults (db.faults.drop 4)).execute query).faults.drop 1) =
            (db.execute query).withFaults (db.faults.drop 5) := by
        show _ = (db.execute query).withFaults (db.faults.drop (4 + 1))
        rw [← List.drop_drop]
        rfl
      rw [outcome_bind_ok (hstore.2 hcall), withFaults_working, hend]
      by_cases hrows : (query db.working).2 < 1
      · rw [if_pos hrows]
        exact ⟨_, _, rfl, .unaffected hfive hrows⟩
      · rw [if_neg hrows]
        exact ⟨_, _, rfl, .executed hfive hrows⟩

theorem outcome_executeOr (failure : String) (query : Tables → Tables × Nat) (db : MySQLManager) :
    ∃ res db', outcome (executeOr failure query) db = (res, db') ∧ Executed query db res db' := by
  obtain ⟨res, db', houtcome, hexecuted⟩ := outcome_executePreparedStatement query db
  cases res with
  | ok u => exact ⟨_, _, outcome_tryCatch_ok houtcome, hexecuted⟩
  | error e =>
    refine ⟨_, _, outcome_tryCatch_error houtcome, ?_⟩
    -- the text of the exception is another one
    cases hexecuted with
    | refused h => exact .refused h
    | unacknowledged h h' => exact .unacknowledged h h'
    | unaffected h h' => exact .unaffected h h'

/-- A statement, with the text that goes before the message of its failure. -/
structure Statement where
  failure : String
  query : Tables → Tables × Nat

def runStatements : List Statement → Sql Unit
  | [] => pure ()
  | st :: sts => do
    executeOr st.failure st.query
    runStatements sts

/-- The tables after some statements. -/
def applyAll : List Statement → Tables → Tables
  | [], t => t
  | st :: sts, t => applyAll sts (st.query t).1

/-- Every statement affects a row. -/
def effective : List Statement → Tables → Bool
  | [], _ => true
  | st :: sts, t => !decide ((st.query t).2 < 1) && effective sts (st.query t).1

/-- The calls that some statements make, if none fails: they end with a statement that
affects no row. -/
def callCount : List Statement → Tables → Nat
  | [], _ => 0
  | st :: sts, t => 5 + if (st.query t).2 < 1 then 0 else callCount sts (st.query t).1

theorem effective_dropLast : ∀ {sts : List Statement} {t : Tables}, effective sts t = true →
    effective sts.dropLast t = true
  | [], _, _ => rfl
  | [_], _, _ => rfl
  | st :: st' :: sts, t, h => by
    rw [effective, Bool.and_eq_true] at h
    rw [List.dropLast_cons_cons, effective, h.1, Bool.true_and]
    exact effective_dropLast h.2

def withWorking (db : MySQLManager) (tables : Tables) : MySQLManager :=
  { db with working := tables }

/-- How some statements end in a transaction. -/
inductive Ran (sts : List Statement) (db : MySQLManager) :
    Except StdException Unit → MySQLManager → Prop
  | done (hcalls : failsWithin (callCount sts db.working) db.faults = none)
    (heffective : effective sts db.working = true) :
    Ran sts db (.ok ()) ((db.withWorking (applyAll sts db.working)).withFaults
      (db.faults.drop (callCount sts db.working)))
  /-- The statements `pre` have taken effect, and all but the last of them affected rows. -/
  | stopped {e : StdException} (pre : List Statement) {rest : List Statement}
    {faults : List (Option Bytes)}
    (hpre : sts = pre ++ rest) (heffective : effective pre.dropLast db.working = true)
    (hcalls : failsWithin (callCount sts db.working) db.faults = some faults ∨
      failsWithin (callCount sts db.working) db.faults = none ∧
        effective sts db.working = false ∧
        faults = db.faults.drop (callCount sts db.working)) :
    Ran sts db (.error e) ((db.withWorking (applyAll pre db.working)).withFaults faults)

theorem execute_of_transaction {db : MySQLManager} (hmode : db.autocommit = false)
    (query : Tables → Tables × Nat) : db.execute query = db.withWorking (query db.working).1 := by
  have hcommitted : (if db.autocommit then (query db.working).1 else db.committed) =
      db.committed := if_neg (by rw [hmode]; exact Bool.false_ne_true)
  rw [execute, hcommitted]
  rfl

section Cons

variable {st : Statement} {sts : List Statement} {t : Tables}

theorem effective_cons (hrows : ¬ (st.query t).2 < 1) :
    effective (st :: sts) t = effective sts (st.query t).1 := by
  rw [effective, decide_eq_false hrows]
  rfl

theorem callCount_cons (hrows : ¬ (st.query t).2 < 1) :
    callCount (st :: sts) t = 5 + callCount sts (st.query t).1 := by
  rw [callCount, if_neg hrows]

/-- After a statement that affected rows, the others decide how they all end. -/
theorem Ran.cons {db db' : MySQLManager} {res : Except StdException Unit}
    (hcalls : failsWithin 5 db.faults = none) (hrows : ¬ (st.query db.working).2 < 1)
    (hran : Ran sts ((db.withWorking (st.query db.working).1).withFaults (db.faults.drop 5))
      res db') : Ran (st :: sts) db res db' := by
  have hfails : failsWithin (callCount (st :: sts) db.working) db.faults =
      failsWithin (callCount sts (st.query db.working).1) (db.faults.drop 5) := by
    rw [callCount_cons hrows, failsWithin_add, hcalls, Option.none_or]
  have hdrop : (db.faults.drop 5).drop (callCount sts (st.query db.working).1) =
      db.faults.drop (callCount (st :: sts) db.working) := by
    rw [callCount_cons hrows, List.drop_drop]
  cases hran with
  | done hcalls' heffective =>
    have hdone : Ran (st :: sts) db _ _ :=
      .done (hfails.trans hcalls') ((effective_cons hrows).trans heffective)
    rw [← hdrop] at hdone
    exact hdone
  | @stopped e pre rest faults hpre heffective hcalls' =>
    refine .stopped (st :: pre) (congrArg (st :: ·) hpre) ?_ ?_
    · cases pre with
      | nil => rfl
      | cons first pre =>
        rw [List.dropLast_cons_cons, effective_cons hrows]
        exact heffective
    · rw [hfails, effective_cons hrows, ← hdrop]
      exact hcalls'

end Cons

/-- **Statements in a transaction.** -/
theorem outcome_runStatements : ∀ (sts : List Statement) (db : MySQLManager),
    db.autocommit = false → ∃ res db', outcome (runStatements sts) db = (res, db') ∧
      Ran sts db res db'
  | [], db, _ => ⟨_, _, rfl, .done rfl rfl⟩
  | st :: sts, db, hmode => by
    obtain ⟨res, db', houtcome, hexecuted⟩ := outcome_executeOr st.failure st.query db
    have hexecute := execute_of_transaction hmode st.query
    have hfive : 5 = 4 + 1 := rfl
    cases hexecuted with
    | @refused e faults hcalls =>
      -- nothing has taken effect
      refine ⟨_, _, outcome_bind_error houtcome, .stopped [] rfl rfl (Or.inl ?_)⟩
      rw [callCount, hfive, failsWithin_add, failsWithin_add 4 1, hcalls]
      rfl
    | @unacknowledged e faults hcalls hstore =>
      refine ⟨_, _, outcome_bind_error houtcome, ?_⟩
      rw [hexecute]
      refine .stopped [st] rfl rfl (Or.inl ?_)
      rw [callCount, hfive, failsWithin_add, failsWithin_add 4 1, hcalls, hstore]
      rfl
    | unaffected hcalls hrows =>
      refine ⟨_, _, outcome_bind_error houtcome, ?_⟩
      rw [hexecute]
      refine .stopped [st] rfl rfl (Or.inr ⟨?_, ?_, ?_⟩)
      · rw [callCount, if_pos hrows, hcalls]
      · rw [effective, decide_eq_true hrows]
        rfl
      · rw [callCount, if_pos hrows]
    | executed hcalls hrows =>
      rw [hexecute] at houtcome
      -- the rest of the statements runs on the tables that this one left
      obtain ⟨res, db'', hrest, hran⟩ := outcome_runStatements sts
        ((db.withWorking (st.query db.working).1).withFaults (db.faults.drop 5)) hmode
      exact ⟨res, db'', (outcome_bind_ok houtcome).trans hrest, hran.cons hcalls hrows⟩

/-! ## Transactions -/

section Modes

variable {db : MySQLManager} {faults : List (Option Bytes)}

theorem outcome_begin_error (h : failsWithin 1 db.faults = some faults) :
    ∃ e, outcome beginTransaction db = (.error e, db.withFaults faults) := by
  obtain ⟨error, hcall⟩ := outcome_call_some db h
  exact ⟨_, outcome_bind_ok hcall⟩

theorem outcome_begin_ok (h : failsWithin 1 db.faults = none) :
    outcome beginTransaction db =
      (.ok (), { db with autocommit := false, faults := db.faults.drop 1 }) :=
  outcome_bind_ok (outcome_call_none db h)

/-- Where the two views of the tables agree, restoring the mode changes the mode only. -/
theorem outcome_restoreAutocommit (tables : Tables) (mode : Bool)
    (answers : List (Option Bytes)) :
    ∃ faults, outcome restoreAutocommit ⟨tables, tables, mode, answers⟩ =
      (.ok (), ⟨tables, tables, mode || (failsWithin 1 answers).isNone, faults⟩) := by
  match answers with
  | [] => exact ⟨[], by rw [failsWithin_nil, Option.isNone_none, Bool.or_true]; rfl⟩
  | none :: faults =>
    exact ⟨faults, by rw [failsWithin, failsWithin, Option.isNone_none, Bool.or_true]; rfl⟩
  | some error :: faults =>
    exact ⟨faults, by rw [failsWithin, Option.isNone_some, Bool.or_false]; rfl⟩

theorem outcome_commit_error (db : MySQLManager) (h : failsWithin 1 db.faults = some faults) :
    ∃ e, outcome commitTransaction db = (.error e, db.withFaults faults) := by
  obtain ⟨error, hcall⟩ := outcome_call_some db h
  exact ⟨_, outcome_bind_ok hcall⟩

theorem outcome_commit_ok (db : MySQLManager) (h : failsWithin 1 db.faults = none) :
    ∃ faults, outcome commitTransaction db = (.ok (), ⟨db.working, db.working,
      db.autocommit || (failsWithin 1 (db.faults.drop 1)).isNone, faults⟩) := by
  obtain ⟨faults, hrestore⟩ :=
    outcome_restoreAutocommit db.working db.autocommit (db.faults.drop 1)
  exact ⟨faults, (outcome_bind_ok (outcome_call_none db h)).trans hrestore⟩

theorem outcome_rollback_error (h : failsWithin 1 db.faults = some faults) :
    ∃ e, outcome rollbackTransaction db = (.error e, db.withFaults faults) := by
  obtain ⟨error, hcall⟩ := outcome_call_some db h
  exact ⟨_, outcome_bind_ok hcall⟩

theorem outcome_rollback_ok (h : failsWithin 1 db.faults = none) :
    ∃ faults, outcome rollbackTransaction db = (.ok (), ⟨db.committed, db.committed,
      db.autocommit || (failsWithin 1 (db.faults.drop 1)).isNone, faults⟩) := by
  obtain ⟨faults, hrestore⟩ :=
    outcome_restoreAutocommit db.committed db.autocommit (db.faults.drop 1)
  exact ⟨faults, (outcome_bind_ok (outcome_call_none db h)).trans hrestore⟩

end Modes

/-- `try { BeginTransaction(); … CommitTransaction(); }` with a handler that rolls back and
throws `failure`. -/
def transaction (sts : List Statement) (failure : Bytes) : Sql Unit :=
  tryCatch
    (do
      beginTransaction
      runStatements sts
      commitTransaction)
    fun _ => do
      rollbackTransaction
      throw (.runtimeError failure)

/-- Whether a transaction that has begun restores the mode: whichever call fails first, or a
statement affects no row, the rollback and the call that switches autocommit on must
succeed; when nothing fails, only the latter. -/
def restores (sts : List Statement) (tables : Tables) (faults : List (Option Bytes)) : Bool :=
  let calls := callCount sts tables + if effective sts tables then 1 else 0
  match failsWithin calls faults with
  | some faults => (failsWithin 2 faults).isNone
  | none => (failsWithin (if effective sts tables then 1 else 2) (faults.drop calls)).isNone

/-- Something stops a transaction that has begun: a call of its statements or of the commit
fails, or a statement affects no row. -/
def Stops (sts : List Statement) (tables : Tables) (faults : List (Option Bytes)) : Prop :=
  effective sts tables = false ∨
    ∃ faults', failsWithin (callCount sts tables + 1) faults = some faults'

/-- How a transaction can end. -/
inductive Transacted (sts : List Statement) (db : MySQLManager) :
    Except StdException Unit → MySQLManager → Prop
  | notBegun {e : StdException} {faults faults' : List (Option Bytes)}
    (hbegin : failsWithin 1 db.faults = some faults) :
    Transacted sts db (.error e) (db.withFaults faults')
  | notBegunRolledBack {e : StdException} {mode : Bool} {faults faults' : List (Option Bytes)}
    (hbegin : failsWithin 1 db.faults = some faults) (hmode : db.autocommit = true → mode = true) :
    Transacted sts db (.error e) ⟨db.committed, db.committed, mode, faults'⟩
  /-- The rollback failed, too. -/
  | stuck {e : StdException} (pre : List Statement) {rest : List Statement}
    {faults : List (Option Bytes)} (hbegin : failsWithin 1 db.faults = none)
    (hpre : sts = pre ++ rest) (heffective : effective pre.dropLast db.working = true)
    (hstops : Stops sts db.working (db.faults.drop 1))
    (hrestores : restores sts db.working (db.faults.drop 1) = false) :
    Transacted sts db (.error e) ⟨db.committed, applyAll pre db.working, false, faults⟩
  | rolledBack {e : StdException} {faults : List (Option Bytes)}
    (hbegin : failsWithin 1 db.faults = none) (hstops : Stops sts db.working (db.faults.drop 1)) :
    Transacted sts db (.error e)
      ⟨db.committed, db.committed, restores sts db.working (db.faults.drop 1), faults⟩
  | committed {faults : List (Option Bytes)} (hbegin : failsWithin 1 db.faults = none)
    (heffective : effective sts db.working = true)
    (hstops : ¬ Stops sts db.working (db.faults.drop 1)) :
    Transacted sts db (.ok ()) ⟨applyAll sts db.working, applyAll sts db.working,
      restores sts db.working (db.faults.drop 1), faults⟩

section Transaction

variable {sts : List Statement} {db : MySQLManager} {faults : List (Option Bytes)}

/-- The handler of a transaction. -/
theorem outcome_handler (failure : Bytes) (db : MySQLManager) :
    (∀ faults, failsWithin 1 db.faults = some faults → ∃ e,
      outcome (do rollbackTransaction; throw (.runtimeError failure) : Sql Unit) db =
        (.error e, db.withFaults faults)) ∧
    (failsWithin 1 db.faults = none → ∃ e faults,
      outcome (do rollbackTransaction; throw (.runtimeError failure) : Sql Unit) db =
        (.error e, ⟨db.committed, db.committed,
          db.autocommit || (failsWithin 1 (db.faults.drop 1)).isNone, faults⟩)) := by
  refine ⟨fun faults h => ?_, fun h => ?_⟩
  · obtain ⟨e, herror⟩ := outcome_rollback_error h
    exact ⟨e, outcome_bind_error herror⟩
  · obtain ⟨faults, hok⟩ := outcome_rollback_ok h
    exact ⟨.runtimeError failure, faults, outcome_bind_ok hok⟩

/-- After the first failure, or a statement that affects no row, two calls decide. -/
theorem restores_of_stopped {tables : Tables} {answers : List (Option Bytes)}
    (h : failsWithin (callCount sts tables) answers = some faults ∨
      failsWithin (callCount sts tables) answers = none ∧ effective sts tables = false ∧
        faults = answers.drop (callCount sts tables)) :
    restores sts tables answers = (failsWithin 2 faults).isNone := by
  rw [restores]
  rcases h with hfails | ⟨hcalls, heffective, rfl⟩
  · rw [failsWithin_add, hfails, Option.some_or]
  · rw [heffective, if_neg Bool.false_ne_true, if_neg Bool.false_ne_true, Nat.add_zero, hcalls]

theorem stops_of_stopped {tables : Tables} {answers : List (Option Bytes)}
    (h : failsWithin (callCount sts tables) answers = some faults ∨
      failsWithin (callCount sts tables) answers = none ∧ effective sts tables = false ∧
        faults = answers.drop (callCount sts tables)) :
    Stops sts tables answers := by
  rcases h with hfails | ⟨-, heffective, -⟩
  · exact Or.inr ⟨faults, by rw [failsWithin_add, hfails, Option.some_or]⟩
  · exact Or.inl heffective

/-- Nothing stops statements that affect rows when no call up to the commit fails. -/
theorem not_stops {tables : Tables} {answers : List (Option Bytes)}
    (hcalls : failsWithin (callCount sts tables) answers = none)
    (heffective : effective sts tables = true)
    (hcommit : failsWithin 1 (answers.drop (callCount sts tables)) = none) :
    ¬ Stops sts tables answers := by
  rintro (hineffective | ⟨faults, hfails⟩)
  · rw [heffective] at hineffective
    cases hineffective
  · rw [failsWithin_add, hcalls, Option.none_or, hcommit] at hfails
    cases hfails

/-- After the commit failed, the same two calls decide. -/
theorem restores_of_commit_error {tables : Tables} {answers : List (Option Bytes)}
    (hcalls : failsWithin (callCount sts tables) answers = none)
    (heffective : effective sts tables = true)
    (hcommit : failsWithin 1 (answers.drop (callCount sts tables)) = some faults) :
    restores sts tables answers = (failsWithin 2 faults).isNone := by
  rw [restores, if_pos heffective, failsWithin_add, hcalls, Option.none_or, hcommit]

/-- After the commit, one call decides. -/
theorem restores_of_commit_ok {tables : Tables} {answers : List (Option Bytes)}
    (hcalls : failsWithin (callCount sts tables) answers = none)
    (heffective : effective sts tables = true)
    (hcommit : failsWithin 1 (answers.drop (callCount sts tables)) = none) :
    restores sts tables answers =
      (failsWithin 1 ((answers.drop (callCount sts tables)).drop 1)).isNone := by
  rw [restores, if_pos heffective, if_pos heffective, failsWithin_add, hcalls, Option.none_or,
    hcommit, List.drop_drop]

/-- The handler after a transaction has begun, with some statements in effect. -/
theorem outcome_handler_begun (failure : Bytes) {pre rest : List Statement}
    (hbegin : failsWithin 1 db.faults = none) (hpre : sts = pre ++ rest)
    (heffective : effective pre.dropLast db.working = true)
    (hstops : Stops sts db.working (db.faults.drop 1))
    (hrestores : restores sts db.working (db.faults.drop 1) = (failsWithin 2 faults).isNone) :
    ∃ res db', outcome (do rollbackTransaction; throw (.runtimeError failure) : Sql Unit)
        ⟨db.committed, applyAll pre db.working, false, faults⟩ = (res, db') ∧
      Transacted sts db res db' := by
  have hhandler := outcome_handler failure ⟨db.committed, applyAll pre db.working, false, faults⟩
  rw [failsWithin_add 1 1] at hrestores
  cases hrollback : failsWithin 1 faults with
  | some faults' =>
    obtain ⟨e, herror⟩ := hhandler.1 faults' hrollback
    rw [hrollback] at hrestores
    exact ⟨_, _, herror, .stuck pre hbegin hpre heffective hstops hrestores⟩
  | none =>
    obtain ⟨e, faults', herror⟩ := hhandler.2 hrollback
    rw [hrollback, Option.none_or] at hrestores
    rw [Bool.false_or, ← hrestores] at herror
    exact ⟨_, _, herror, .rolledBack hbegin hstops⟩

/-- **Transactions.** -/
theorem outcome_transaction (sts : List Statement) (failure : Bytes) (db : MySQLManager) :
    ∃ res db', outcome (transaction sts failure) db = (res, db') ∧ Transacted sts db res db' := by
  cases hbegin : failsWithin 1 db.faults with
  | some faults =>
    obtain ⟨e, herror⟩ := outcome_begin_error hbegin
    -- the handler rolls back although nothing has begun
    have hhandler := outcome_handler failure (db.withFaults faults)
    cases hrollback : failsWithin 1 faults with
    | some faults' =>
      obtain ⟨e', herror'⟩ := hhandler.1 faults' hrollback
      exact ⟨_, _, (outcome_tryCatch_error (outcome_bind_error herror)).trans herror',
        .notBegun hbegin⟩
    | none =>
      obtain ⟨e', faults', herror'⟩ := hhandler.2 hrollback
      refine ⟨_, _, (outcome_tryCatch_error (outcome_bind_error herror)).trans herror',
        .notBegunRolledBack hbegin fun hmode => ?_⟩
      rw [withFaults_autocommit, hmode, Bool.true_or]
  | none =>
    have hbegun (x : Sql Unit) : outcome (do beginTransaction; x) db =
        outcome x { db with autocommit := false, faults := db.faults.drop 1 } :=
      outcome_bind_ok (outcome_begin_ok hbegin)
    obtain ⟨res, db₂, hstatements, hran⟩ := outcome_runStatements sts
      { db with autocommit := false, faults := db.faults.drop 1 } rfl
    cases hran with
    | done hcalls heffective =>
      have hbody := outcome_bind_ok (f := fun _ => commitTransaction) hstatements
      cases hcommit : failsWithin 1 ((db.faults.drop 1).drop (callCount sts db.working)) with
      | some faults =>
        obtain ⟨e, herror⟩ := outcome_commit_error ⟨db.committed, applyAll sts db.working, false,
          (db.faults.drop 1).drop (callCount sts db.working)⟩ hcommit
        obtain ⟨res, db', hhandler, htransacted⟩ := outcome_handler_begun failure hbegin
          (List.append_nil sts).symm (effective_dropLast heffective)
          (Or.inr ⟨faults, by rw [failsWithin_add, hcalls, Option.none_or, hcommit]⟩)
          (restores_of_commit_error hcalls heffective hcommit)
        have htry := (hbegun _).trans (hbody.trans herror)
        exact ⟨res, db', (outcome_tryCatch_error htry).trans hhandler, htransacted⟩
      | none =>
        obtain ⟨faults, hok⟩ := outcome_commit_ok ⟨db.committed, applyAll sts db.working, false,
          (db.faults.drop 1).drop (callCount sts db.working)⟩ hcommit
        rw [Bool.false_or, ← restores_of_commit_ok hcalls heffective hcommit] at hok
        have htry := (hbegun _).trans (hbody.trans hok)
        refine ⟨_, _, outcome_tryCatch_ok htry, .committed hbegin heffective ?_⟩
        exact not_stops hcalls heffective hcommit
    | @stopped e pre rest faults hpre heffective hcalls =>
      obtain ⟨res, db', hhandler, htransacted⟩ := outcome_handler_begun failure hbegin hpre
        heffective (stops_of_stopped hcalls) (restores_of_stopped hcalls)
      have htry := (hbegun _).trans
        (outcome_bind_error (f := fun _ => commitTransaction) hstatements)
      exact ⟨res, db', (outcome_tryCatch_error htry).trans hhandler, htransacted⟩

end Transaction

end MySQLManager

end BoostChat.Server
