import BoostChat.Server.ThreadPool

/-!
# Shutdown of the thread pool

The destructor of `HSThreadPool` sets the flag without the mutex, calls `notify_all` and
joins the workers one after another. In `HSThreadPool.step` the test of the flag and the
block that follows are one step, and the notifications are none; here a worker that has
read the flag as not set stands between the two, and a notification reaches the workers
that are blocked when it is issued.

* `Teardown.step` — one step of a worker, a call or the destructor, over `HSThreadPool`;
* `Stranded` — `notify_all` has been issued, nobody will notify again, a worker is blocked;
* `shutdown_strands_none` — no such state is reached when `notify_all` finds no worker
  between its test and its block;
* `strands_iff` — and one can be reached when it finds such a worker;
* `Stranded.forever` — only a spurious wake-up ends it, so the destructor never returns.
-/

namespace BoostChat.Server

open Lib

/-- Where the destructor is. -/
inductive Destructor
  | notStarted
  /-- The flag is set; `notify_all` is next. -/
  | notifying
  /-- `join` of the worker with this index is next. -/
  | joining (index : Nat)
deriving DecidableEq

structure Teardown (n m : Nat) (J : Type*) where
  pool : HSThreadPool n m J := {}
  /-- The workers whose predicate has returned `false` and that have not blocked yet. -/
  tested : Fin n → Bool := fun _ => false
  destructor : Destructor := .notStarted

inductive TeardownAction (n m : Nat) (J : Type*)
  /-- The next step of a worker. -/
  | work (w : Fin n)
  /-- A spurious wake-up. -/
  | wake (w : Fin n)
  /-- A thread calls `EnqueueJob`. -/
  | call (c : Fin m) (job : J)
  /-- The next step of a call, up to `notify_one`. -/
  | proceed (c : Fin m)
  /-- `notify_one`, with the worker it wakes if one is blocked. -/
  | notifyOne (c : Fin m) (target : Option (Fin n))
  /-- The destructor sets `m_StopAll`. -/
  | stop
  | notifyAll
  /-- The worker that the destructor waits for has returned. -/
  | join
deriving DecidableEq

/-- The worker is blocked on `m_CVJob`. -/
def Worker.blocked {J : Type*} : Worker J → Bool
  | .waiting => true
  | _ => false

/-- The call will still notify. -/
def Caller.willNotify {J : Type*} : Caller J → Bool
  | .locking _ | .pushing _ | .unlocking | .notifying => true
  | _ => false

namespace Teardown

variable {n m : Nat} {J : Type*}

/-- A worker in the loop of `HSThreadPool::Start`, with the test and the block apart. -/
def work (s : Teardown n m J) (w : Fin n) : Option (Teardown n m J) :=
  -- `wait` blocks and releases the mutex at once
  if s.tested w then
    some { s with
      pool := { s.pool.setWorker w .waiting with jobMutex := none }
      tested := Function.update s.tested w false }
  else
    match s.pool.workers w, s.pool.stopAll with
    | .predicateStop, false => some { s with tested := Function.update s.tested w true }
    | _, _ => (s.pool.work w).map fun pool => { s with pool := pool }

/-- `m_CVJob.notify_all()`. -/
def wakeAll (pool : HSThreadPool n m J) : HSThreadPool n m J :=
  { pool with workers := fun w =>
      if (pool.workers w).blocked then .relocking else pool.workers w }

/-- `m_CVJob.notify_one()`: one of the blocked workers is woken, if there is one. -/
def wakeOne (pool : HSThreadPool n m J) : Option (Fin n) → Option (HSThreadPool n m J)
  | some w => if (pool.workers w).blocked then some (pool.setWorker w .relocking) else none
  | none => if ∀ w, (pool.workers w).blocked = false then some pool else none

def step (s : Teardown n m J) : TeardownAction n m J → Option (Teardown n m J)
  | .work w => s.work w
  | .wake w => (s.pool.step (.wake w)).map fun pool => { s with pool := pool }
  | .call c job => (s.pool.step (.call c job)).map fun pool => { s with pool := pool }
  | .proceed c =>
    match s.pool.callers c with
    | .notifying => none
    | _ => (s.pool.proceed c).map fun pool => { s with pool := pool }
  | .notifyOne c target =>
    match s.pool.callers c with
    | .notifying =>
      (wakeOne s.pool target).map fun pool => { s with pool := pool.setCaller c .idle }
    | _ => none
  | .stop =>
    match s.destructor with
    | .notStarted =>
      some { s with pool := { s.pool with stopAll := true }, destructor := .notifying }
    | _ => none
  | .notifyAll =>
    match s.destructor with
    | .notifying => some { s with pool := wakeAll s.pool, destructor := .joining 0 }
    | _ => none
  | .join =>
    match s.destructor with
    | .joining index =>
      if h : index < n then
        match s.pool.workers ⟨index, h⟩ with
        | .returned => some { s with destructor := .joining (index + 1) }
        | _ => none
      else none
    | _ => none

/-- `notify_all` has been issued, no call will notify any more, and a worker is blocked. -/
def Stranded (s : Teardown n m J) : Prop :=
  (∃ index, s.destructor = .joining index) ∧
  (∀ c, (s.pool.callers c).willNotify = false) ∧
  ∃ w, (s.pool.workers w).blocked = true

/-- When `notify_all` is called, no worker is between its test of the flag and its block. -/
def NoneBetween (s : Teardown n m J) : TeardownAction n m J → Prop
  | .notifyAll => ∀ w, s.tested w = false
  | _ => True

/-- No wake-up without a notification. -/
def NoSpurious (_ : Teardown n m J) : TeardownAction n m J → Prop
  | .wake _ => False
  | _ => True

instance (s : Teardown n m J) (a : TeardownAction n m J) : Decidable (s.NoneBetween a) := by
  cases a <;> unfold NoneBetween <;> infer_instance

instance (s : Teardown n m J) (a : TeardownAction n m J) : Decidable (s.NoSpurious a) := by
  cases a <;> unfold NoSpurious <;> infer_instance

end Teardown

/-! ## What the steps of the pool do to the workers and the flag -/

section Frames

variable {n m : Nat} {J : Type*} {pool pool' : HSThreadPool n m J}

theorem eq_waiting_of_blocked {worker : Worker J} (h : worker.blocked = true) :
    worker = .waiting := by
  cases worker with
  | waiting => rfl
  | locking | predicate | predicateStop | relocking | exitStop | exitEmpty => cases h
  | popping | unlocking | running | returned => cases h

/-- A blocked worker has no step of its own. -/
theorem HSThreadPool.work_eq_none {w : Fin n} (h : (pool.workers w).blocked = true) :
    pool.work w = none := by
  rw [HSThreadPool.work, eq_waiting_of_blocked h]

/-- A worker moves alone, and it blocks only if it has read the flag as not set. -/
theorem HSThreadPool.work_frame {w : Fin n} (h : pool.work w = some pool') :
    pool'.stopAll = pool.stopAll ∧ pool'.callers = pool.callers ∧
    ∃ worker, pool'.workers = Function.update pool.workers w worker ∧
      (worker.blocked = true → pool.stopAll = false) := by
  cases HSThreadPool.work_step h with
  | acquire | pop | run => exact ⟨rfl, rfl, _, rfl, nofun⟩
  | move _ hstays =>
    refine ⟨rfl, rfl, _, rfl, fun hblocked => ?_⟩
    rw [eq_waiting_of_blocked hblocked] at hstays
    exact hstays.elim
  | release _ _ _ _ hopen =>
    exact ⟨rfl, rfl, _, rfl, fun hblocked => hopen (eq_waiting_of_blocked hblocked)⟩
  | underflow hworker =>
    exact ⟨rfl, rfl, .popping, (Function.update_eq_self_iff.mpr hworker.symm).symm, nofun⟩

/-- A call does not move the workers. -/
theorem HSThreadPool.proceed_frame {c : Fin m} (h : pool.proceed c = some pool') :
    pool'.stopAll = pool.stopAll ∧ pool'.workers = pool.workers ∧
    ∃ caller, pool'.callers = Function.update pool.callers c caller ∧
      (caller.willNotify = true → pool.stopAll = true → (pool.callers c).willNotify = true) := by
  unfold HSThreadPool.proceed at h
  cases hcaller : pool.callers c with
  | idle | threw =>
    rw [hcaller] at h
    cases h
  | checking job =>
    rw [hcaller] at h
    dsimp only at h
    by_cases hstop : pool.stopAll = true
    · rw [if_pos hstop] at h
      obtain rfl := Option.some.inj h
      exact ⟨rfl, rfl, _, rfl, nofun⟩
    · rw [if_neg hstop] at h
      obtain rfl := Option.some.inj h
      exact ⟨rfl, rfl, _, rfl, fun _ hset => absurd hset hstop⟩
  | locking =>
    rw [hcaller] at h
    obtain ⟨-, rfl⟩ := guarded_step h
    exact ⟨rfl, rfl, _, rfl, fun _ _ => rfl⟩
  | pushing | unlocking | notifying =>
    rw [hcaller] at h
    obtain rfl := Option.some.inj h
    exact ⟨rfl, rfl, _, rfl, fun _ _ => rfl⟩

theorem HSThreadPool.wake_frame {w : Fin n} (h : pool.step (.wake w) = some pool') :
    pool.workers w = .waiting ∧ pool' = pool.setWorker w .relocking := by
  simp only [HSThreadPool.step] at h
  split at h
  · rename_i hworker
    exact ⟨hworker, (Option.some.inj h).symm⟩
  · cases h

theorem HSThreadPool.call_frame {c : Fin m} {job : J}
    (h : pool.step (.call c job) = some pool') :
    pool.callers c = .idle ∧ pool' = pool.setCaller c (.checking job) := by
  simp only [HSThreadPool.step] at h
  split at h
  · rename_i hcaller
    exact ⟨hcaller, (Option.some.inj h).symm⟩
  · cases h

end Frames

/-! ## The invariants -/

namespace Teardown

section Step

variable {n m : Nat} {J : Type*} {s t : Teardown n m J} {a : TeardownAction n m J}
  {as : List (TeardownAction n m J)}

/-- The flag is set from the first step of the destructor on. -/
def FlagSet (s : Teardown n m J) : Prop := s.destructor ≠ .notStarted → s.pool.stopAll = true

/-- Once `notify_all` has been issued, the flag is set, no worker is blocked, and none is
about to block. -/
structure Settled (s : Teardown n m J) : Prop where
  flag : s.pool.stopAll = true
  awake : ∀ w, (s.pool.workers w).blocked = false
  tested : ∀ w, s.tested w = false

/-- A worker moves alone. It tests or blocks only where the flag is not set. -/
theorem work_frame {w : Fin n} (h : s.work w = some t) :
    t.destructor = s.destructor ∧ t.pool.stopAll = s.pool.stopAll ∧
    t.pool.callers = s.pool.callers ∧
    (s.pool.stopAll = true → s.tested w = false → t.tested = s.tested ∧
      ∃ worker, t.pool.workers = Function.update s.pool.workers w worker ∧
        worker.blocked = false) := by
  unfold work at h
  by_cases htested : s.tested w = true
  · -- the block
    rw [if_pos htested] at h
    obtain rfl := Option.some.inj h
    refine ⟨rfl, rfl, rfl, fun _ hfree => ?_⟩
    rw [htested] at hfree
    cases hfree
  rw [if_neg htested] at h
  split at h
  · -- the test, which finds the flag not set
    rename_i hopen
    obtain rfl := Option.some.inj h
    refine ⟨rfl, rfl, rfl, fun hset => ?_⟩
    rw [hopen] at hset
    cases hset
  · obtain ⟨pool, hwork, rfl⟩ := Option.map_eq_some_iff.mp h
    obtain ⟨hstop, hcallers, worker, hworkers, hblocked⟩ := HSThreadPool.work_frame hwork
    refine ⟨rfl, hstop, hcallers, fun hset _ => ⟨rfl, worker, hworkers, ?_⟩⟩
    rw [← Bool.not_eq_true]
    intro hblock
    rw [hblocked hblock] at hset
    cases hset

/-- A woken worker is not blocked. -/
theorem wakeOne_frame {pool pool' : HSThreadPool n m J} {target : Option (Fin n)}
    (h : wakeOne pool target = some pool') :
    pool'.stopAll = pool.stopAll ∧ pool'.callers = pool.callers ∧
    ∀ w, (pool'.workers w).blocked = true → (pool.workers w).blocked = true := by
  cases target with
  | none =>
    obtain ⟨-, rfl⟩ := guarded_step h
    exact ⟨rfl, rfl, fun _ hblocked => hblocked⟩
  | some v =>
    obtain ⟨hv, rfl⟩ := guarded_step h
    refine ⟨rfl, rfl, ?_⟩
    refine HSThreadPool.forall_workers
      (P := fun w x => x.blocked = true → (pool.workers w).blocked = true) nofun ?_
    exact fun w _ hblocked => hblocked

/-! ### What each action does -/

theorem wake_inv {w : Fin n} (h : s.step (.wake w) = some t) :
    (s.pool.workers w).blocked = true ∧ t = { s with pool := s.pool.setWorker w .relocking } := by
  obtain ⟨pool, hpool, rfl⟩ := Option.map_eq_some_iff.mp h
  obtain ⟨hworker, rfl⟩ := HSThreadPool.wake_frame hpool
  refine ⟨?_, rfl⟩
  rw [hworker]
  rfl

theorem call_inv {c : Fin m} {job : J} (h : s.step (.call c job) = some t) :
    s.pool.callers c = .idle ∧ t = { s with pool := s.pool.setCaller c (.checking job) } := by
  obtain ⟨pool, hpool, rfl⟩ := Option.map_eq_some_iff.mp h
  obtain ⟨hcaller, rfl⟩ := HSThreadPool.call_frame hpool
  exact ⟨hcaller, rfl⟩

theorem proceed_inv {c : Fin m} (h : s.step (.proceed c) = some t) :
    ∃ pool, s.pool.proceed c = some pool ∧ t = { s with pool := pool } := by
  simp only [step] at h
  split at h
  · cases h
  · obtain ⟨pool, hpool, rfl⟩ := Option.map_eq_some_iff.mp h
    exact ⟨pool, hpool, rfl⟩

theorem notifyOne_inv {c : Fin m} {target : Option (Fin n)}
    (h : s.step (.notifyOne c target) = some t) :
    s.pool.callers c = .notifying ∧
    ∃ pool, wakeOne s.pool target = some pool ∧ t = { s with pool := pool.setCaller c .idle } := by
  simp only [step] at h
  split at h
  · rename_i hcaller
    obtain ⟨pool, hpool, rfl⟩ := Option.map_eq_some_iff.mp h
    exact ⟨hcaller, pool, hpool, rfl⟩
  · cases h

theorem stop_inv (h : s.step .stop = some t) : s.destructor = .notStarted ∧
    t = { s with pool := { s.pool with stopAll := true }, destructor := .notifying } := by
  simp only [step] at h
  split at h
  · rename_i hdestructor
    exact ⟨hdestructor, (Option.some.inj h).symm⟩
  · cases h

theorem notifyAll_inv (h : s.step .notifyAll = some t) : s.destructor = .notifying ∧
    t = { s with pool := wakeAll s.pool, destructor := .joining 0 } := by
  simp only [step] at h
  split at h
  · rename_i hdestructor
    exact ⟨hdestructor, (Option.some.inj h).symm⟩
  · cases h

theorem join_inv (h : s.step .join = some t) :
    ∃ w : Fin n, s.destructor = .joining w ∧ s.pool.workers w = .returned ∧
      t = { s with destructor := .joining (w + 1) } := by
  simp only [step] at h
  split at h
  · rename_i index hdestructor
    split at h
    · rename_i hindex
      split at h
      · rename_i hworker
        exact ⟨⟨index, hindex⟩, hdestructor, hworker, (Option.some.inj h).symm⟩
      · cases h
    · cases h
  · cases h

/-! ### Every step -/

/-- The destructor's own steps; no other step moves it, or changes the flag. -/
theorem step_destructor (hstep : s.step a = some t) :
    (t.destructor = s.destructor ∧ t.pool.stopAll = s.pool.stopAll) ∨
    (a = .stop ∧ t.pool.stopAll = true) ∨
    (a = .notifyAll ∧ s.destructor = .notifying ∧ t.pool = wakeAll s.pool ∧
      t.tested = s.tested) ∨
    (a = .join ∧ (∃ index, s.destructor = .joining index) ∧ t.pool = s.pool ∧
      t.tested = s.tested) := by
  cases a with
  | work w =>
    obtain ⟨hdestructor, hstop, -⟩ := work_frame hstep
    exact Or.inl ⟨hdestructor, hstop⟩
  | wake w =>
    obtain ⟨-, rfl⟩ := wake_inv hstep
    exact Or.inl ⟨rfl, rfl⟩
  | call c job =>
    obtain ⟨-, rfl⟩ := call_inv hstep
    exact Or.inl ⟨rfl, rfl⟩
  | proceed c =>
    obtain ⟨pool, hpool, rfl⟩ := proceed_inv hstep
    exact Or.inl ⟨rfl, (HSThreadPool.proceed_frame hpool).1⟩
  | notifyOne c target =>
    obtain ⟨-, pool, hpool, rfl⟩ := notifyOne_inv hstep
    exact Or.inl ⟨rfl, (wakeOne_frame hpool).1⟩
  | stop =>
    obtain ⟨-, rfl⟩ := stop_inv hstep
    exact Or.inr (Or.inl ⟨rfl, rfl⟩)
  | notifyAll =>
    obtain ⟨hdestructor, rfl⟩ := notifyAll_inv hstep
    exact Or.inr (Or.inr (Or.inl ⟨rfl, hdestructor, rfl, rfl⟩))
  | join =>
    obtain ⟨w, hdestructor, -, rfl⟩ := join_inv hstep
    exact Or.inr (Or.inr (Or.inr ⟨rfl, ⟨w, hdestructor⟩, rfl, rfl⟩))

theorem FlagSet.step (h : FlagSet s) (hstep : s.step a = some t) : FlagSet t := by
  rcases step_destructor hstep with ⟨hdestructor, hstop⟩ | ⟨-, hset⟩ | ⟨-, hnotifying, hpool, -⟩ |
    ⟨-, ⟨index, hjoining⟩, hpool, -⟩
  · intro hstarted
    rw [hdestructor] at hstarted
    rw [hstop]
    exact h hstarted
  · exact fun _ => hset
  · intro _
    rw [hpool]
    exact h (by rw [hnotifying]; nofun)
  · intro _
    rw [hpool]
    exact h (by rw [hjoining]; nofun)

/-- `notify_all` wakes every worker that is blocked. -/
theorem awake_wakeAll (pool : HSThreadPool n m J) (w : Fin n) :
    ((wakeAll pool).workers w).blocked = false := by
  show (if (pool.workers w).blocked = true then .relocking else pool.workers w).blocked = false
  by_cases hblocked : (pool.workers w).blocked = true
  · rw [if_pos hblocked]
    rfl
  · rw [if_neg hblocked]
    exact Bool.not_eq_true _ ▸ hblocked

/-- With the flag set and no worker about to block, none blocks any more. -/
theorem Settled.step (h : Settled s) (hstep : s.step a = some t) : Settled t := by
  cases a with
  | work w =>
    obtain ⟨-, hstop, -, hmove⟩ := work_frame hstep
    obtain ⟨htested, worker, hworkers, hawake⟩ := hmove h.flag (h.tested w)
    refine ⟨hstop.trans h.flag, ?_, ?_⟩
    · rw [hworkers]
      exact HSThreadPool.forall_workers (P := fun _ x => x.blocked = false) hawake
        fun v _ => h.awake v
    · rw [htested]
      exact h.tested
  | wake w =>
    obtain ⟨-, rfl⟩ := wake_inv hstep
    refine ⟨h.flag, ?_, h.tested⟩
    exact HSThreadPool.forall_workers (P := fun _ x => x.blocked = false) rfl fun v _ => h.awake v
  | call c job =>
    obtain ⟨-, rfl⟩ := call_inv hstep
    exact ⟨h.flag, h.awake, h.tested⟩
  | proceed c =>
    obtain ⟨pool, hpool, rfl⟩ := proceed_inv hstep
    obtain ⟨hstop, hworkers, -⟩ := HSThreadPool.proceed_frame hpool
    refine ⟨hstop.trans h.flag, fun w => ?_, h.tested⟩
    show (pool.workers w).blocked = false
    rw [hworkers]
    exact h.awake w
  | notifyOne c target =>
    obtain ⟨-, pool, hpool, rfl⟩ := notifyOne_inv hstep
    obtain ⟨hstop, -, hblocked⟩ := wakeOne_frame hpool
    refine ⟨hstop.trans h.flag, fun w => ?_, h.tested⟩
    have hawake := mt (hblocked w)
    rw [Bool.not_eq_true, Bool.not_eq_true] at hawake
    exact hawake (h.awake w)
  | stop =>
    obtain ⟨-, rfl⟩ := stop_inv hstep
    exact ⟨rfl, h.awake, h.tested⟩
  | notifyAll =>
    obtain ⟨-, rfl⟩ := notifyAll_inv hstep
    exact ⟨h.flag, awake_wakeAll s.pool, h.tested⟩
  | join =>
    obtain ⟨w, -, -, rfl⟩ := join_inv hstep
    exact ⟨h.flag, h.awake, h.tested⟩

/-- What holds when no worker was between its test and its block at `notify_all`. -/
def Joinable (s : Teardown n m J) : Prop :=
  FlagSet s ∧ ∀ index, s.destructor = .joining index → Settled s

/-- **Step lemma.** -/
theorem Joinable.step (h : Joinable s) (hok : s.NoneBetween a) (hstep : s.step a = some t) :
    Joinable t := by
  refine ⟨h.1.step hstep, fun index hindex => ?_⟩
  rcases step_destructor hstep with ⟨hdestructor, -⟩ | ⟨rfl, -⟩ |
    ⟨rfl, hnotifying, hpool, htested⟩ | ⟨-, ⟨before, hjoining⟩, -⟩
  · rw [hdestructor] at hindex
    exact (h.2 index hindex).step hstep
  · obtain ⟨-, rfl⟩ := stop_inv hstep
    cases hindex
  · -- the workers that are blocked are woken, and the condition says that no other will block
    have hflag : s.pool.stopAll = true := h.1 (by rw [hnotifying]; nofun)
    refine ⟨by rw [hpool]; exact hflag, fun w => ?_, by rw [htested]; exact hok⟩
    rw [hpool]
    exact awake_wakeAll s.pool w
  · exact (h.2 before hjoining).step hstep

theorem joinable_start : Joinable ({} : Teardown n m J) := ⟨fun h => absurd rfl h, nofun⟩

/-- **Shutdown strands no worker that has blocked in time.** For any number of workers and
calling threads and any interleaving of the destructor with them: if `notify_all` is never
called while a worker is between its test of the flag and its block, no state is reached in
which `notify_all` has been issued, nobody will notify again and a worker is blocked. -/
theorem shutdown_strands_none (hrun : Run step NoneBetween ({} : Teardown n m J) as s) :
    ¬ Stranded s := by
  have hinv := hrun.invariant (I := Joinable) (fun _ _ _ h hok hstep => h.step hok hstep)
    joinable_start
  rintro ⟨⟨index, hindex⟩, -, w, hblocked⟩
  have hawake := (hinv.2 index hindex).awake w
  rw [hblocked] at hawake
  cases hawake

def onlyWorker : Fin 1 := ⟨0, Nat.one_pos⟩

/-- The worker blocks, the destructor sets the flag and wakes it, and it returns. -/
def cleanShutdown : List (TeardownAction 1 0 Nat) :=
  List.replicate 4 (.work onlyWorker) ++ [.stop, .notifyAll] ++
    List.replicate 5 (.work onlyWorker) ++ [.join]

theorem shutdown_strands_none_cleanShutdown :
    ∃ s, Run step NoneBetween ({} : Teardown 1 0 Nat) cleanShutdown s ∧
      s.destructor = .joining 1 ∧ ¬ Stranded s := by
  obtain ⟨s, hrun, hend⟩ := exists_run_of_exec step NoneBetween ({} : Teardown 1 0 Nat)
    cleanShutdown (fun s => decide (s.destructor = .joining 1)) (by decide)
  exact ⟨s, hrun, of_decide_eq_true hend, shutdown_strands_none hrun⟩

/-- The worker tests the flag, the destructor sets it and notifies, the worker blocks. -/
def lateBlock : List (TeardownAction 1 0 Nat) :=
  List.replicate 3 (.work onlyWorker) ++ [.stop, .notifyAll, .work onlyWorker]

theorem shutdown_strands :
    ∃ s, Run step NoSpurious ({} : Teardown 1 0 Nat) lateBlock s ∧ Stranded s := by
  obtain ⟨s, hrun, hend⟩ := exists_run_of_exec step NoSpurious ({} : Teardown 1 0 Nat) lateBlock
    (fun s => decide (s.destructor = .joining 0) && (s.pool.workers onlyWorker).blocked)
    (by decide)
  rw [Bool.and_eq_true, decide_eq_true_iff] at hend
  exact ⟨s, hrun, ⟨0, hend.1⟩, nofun, onlyWorker, hend.2⟩

/-! ## What becomes of a stranded worker -/

/-- The destructor is at `join`, no further than a worker that is blocked, and nobody will
notify. -/
structure Asleep (w : Fin n) (s : Teardown n m J) : Prop where
  joining : ∃ index, index ≤ w.val ∧ s.destructor = .joining index
  flag : s.pool.stopAll = true
  silent : ∀ c, (s.pool.callers c).willNotify = false
  blocked : (s.pool.workers w).blocked = true

theorem Asleep.stranded {w : Fin n} (h : Asleep w s) : Stranded s := by
  obtain ⟨index, -, hjoining⟩ := h.joining
  exact ⟨⟨index, hjoining⟩, h.silent, w, h.blocked⟩

/-- No worker's step wakes another worker, or itself. -/
theorem work_blocked {v w : Fin n} (h : s.work v = some t)
    (hblocked : (s.pool.workers w).blocked = true) : (t.pool.workers w).blocked = true := by
  unfold work at h
  by_cases htested : s.tested v = true
  · rw [if_pos htested] at h
    obtain rfl := Option.some.inj h
    exact HSThreadPool.forall_workers (s := s.pool) (w := v)
      (P := fun u x => (s.pool.workers u).blocked = true → x.blocked = true) (fun _ => rfl)
      (fun _ _ h => h) w hblocked
  rw [if_neg htested] at h
  split at h
  · obtain rfl := Option.some.inj h
    exact hblocked
  · obtain ⟨pool, hwork, rfl⟩ := Option.map_eq_some_iff.mp h
    obtain ⟨-, -, worker, hworkers, -⟩ := HSThreadPool.work_frame hwork
    have hv : w ≠ v := by
      rintro rfl
      rw [HSThreadPool.work_eq_none hblocked] at hwork
      cases hwork
    show (pool.workers w).blocked = true
    rw [hworkers, Function.update_of_ne hv]
    exact hblocked

/-- **Step lemma.** Only a wake-up without a notification ends the wait. -/
theorem Asleep.step {w : Fin n} (h : Asleep w s) (hok : s.NoSpurious a)
    (hstep : s.step a = some t) : Asleep w t := by
  cases a with
  | work v =>
    obtain ⟨hdestructor, hstop, hcallers, -⟩ := work_frame hstep
    refine ⟨?_, hstop.trans h.flag, ?_, work_blocked hstep h.blocked⟩
    · rw [hdestructor]
      exact h.joining
    · rw [hcallers]
      exact h.silent
  | wake v => exact hok.elim
  | call c job =>
    obtain ⟨-, rfl⟩ := call_inv hstep
    refine ⟨h.joining, h.flag, ?_, h.blocked⟩
    exact HSThreadPool.forall_callers (P := fun _ x => x.willNotify = false) rfl
      fun d _ => h.silent d
  | proceed c =>
    obtain ⟨pool, hpool, rfl⟩ := proceed_inv hstep
    obtain ⟨hstop, hworkers, caller, hcallers, hnotify⟩ := HSThreadPool.proceed_frame hpool
    refine ⟨h.joining, hstop.trans h.flag, ?_, ?_⟩
    · show ∀ d, (pool.callers d).willNotify = false
      rw [hcallers]
      refine HSThreadPool.forall_callers (P := fun _ x => x.willNotify = false) ?_
        fun d _ => h.silent d
      -- a call that has not taken the lock yet throws, since the flag is set
      rw [← Bool.not_eq_true]
      intro hwill
      have hbefore := hnotify hwill h.flag
      rw [h.silent c] at hbefore
      cases hbefore
    · show (pool.workers w).blocked = true
      rw [hworkers]
      exact h.blocked
  | notifyOne c target =>
    obtain ⟨hcaller, -⟩ := notifyOne_inv hstep
    have hsilent := h.silent c
    rw [hcaller] at hsilent
    cases hsilent
  | stop =>
    obtain ⟨hdestructor, -⟩ := stop_inv hstep
    obtain ⟨index, -, hjoining⟩ := h.joining
    rw [hjoining] at hdestructor
    cases hdestructor
  | notifyAll =>
    obtain ⟨hdestructor, -⟩ := notifyAll_inv hstep
    obtain ⟨index, -, hjoining⟩ := h.joining
    rw [hjoining] at hdestructor
    cases hdestructor
  | join =>
    obtain ⟨v, hdestructor, hreturned, rfl⟩ := join_inv hstep
    obtain ⟨index, hle, hjoining⟩ := h.joining
    obtain rfl : v.val = index := Destructor.joining.inj (hdestructor.symm.trans hjoining)
    refine ⟨⟨v.val + 1, ?_, rfl⟩, h.flag, h.silent, h.blocked⟩
    -- the worker that has returned is not the one that is blocked
    have hne : v ≠ w := by
      rintro rfl
      have hblocked := h.blocked
      rw [hreturned] at hblocked
      cases hblocked
    have hval : v.val ≠ w.val := fun heq => hne (Fin.ext heq)
    omega

/-- **A stranded worker stays blocked**, and the destructor never gets past its `join`. -/
theorem Asleep.forever {w : Fin n} (h : Asleep w s)
    (hrun : Run Teardown.step NoSpurious s as t) :
    Asleep w t :=
  hrun.invariant (I := Asleep w) (fun _ _ _ h hok hstep => h.step hok hstep) h

/-- **Exactly when a worker can be stranded.** When `notify_all` is called and no call will
notify any more, a stranded state can still be reached if and only if a worker is between
its test of the flag and its block. -/
theorem strands_iff (hrun : Run step anyStep ({} : Teardown n m J) as s)
    (hsilent : ∀ c, (s.pool.callers c).willNotify = false)
    (hstep : s.step .notifyAll = some t) :
    (∃ bs u, Run step NoSpurious t bs u ∧ Stranded u) ↔ ∃ w, s.tested w = true := by
  have hflag : FlagSet s :=
    hrun.invariant (I := FlagSet) (fun _ _ _ h _ hstep => h.step hstep) (fun h => absurd rfl h)
  obtain ⟨hnotifying, rfl⟩ := notifyAll_inv hstep
  have hset : s.pool.stopAll = true := hflag (by rw [hnotifying]; nofun)
  constructor
  · rintro ⟨bs, u, hrest, ⟨-, -, w, hblocked⟩⟩
    by_contra hnone
    have htested : ∀ w, s.tested w = false := by
      intro w
      rw [← Bool.not_eq_true]
      exact fun hw => hnone ⟨w, hw⟩
    -- nobody blocks after a `notify_all` that has found nobody in between
    have hsettled := hrest.invariant (I := Settled) (fun _ _ _ h _ hstep => h.step hstep)
      ⟨hset, awake_wakeAll s.pool, htested⟩
    rw [hsettled.awake w] at hblocked
    cases hblocked
  · -- the worker in between blocks now, after the last notification
    rintro ⟨w, htested⟩
    have hblock : Teardown.step { s with pool := wakeAll s.pool, destructor := .joining 0 }
        (.work w) = some _ := if_pos htested
    refine ⟨[.work w], _, Run.cons trivial hblock (Run.nil _), ?_⟩
    refine Asleep.stranded (w := w) ⟨⟨0, Nat.zero_le _, rfl⟩, hset, hsilent, ?_⟩
    exact congrArg Worker.blocked (Function.update_self w Worker.waiting (wakeAll s.pool).workers)

end Step

end Teardown

end BoostChat.Server
