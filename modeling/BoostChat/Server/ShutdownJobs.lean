import BoostChat.Server.Shutdown

/-!
# The pool at shutdown and the pool

`Teardown.step` takes the test of the flag and the block apart and says what each
notification wakes; `HSThreadPool.step` does neither. A worker that has tested the flag
keeps the mutex until it blocks, so nobody can tell whether it has blocked already:

* `coarse` — the state with these workers blocked;
* `Refines.step` — each step is a run of the pool, between these states;
* `leftover_jobs_run` — so what the pool guarantees holds at shutdown: when all workers have
  returned, the jobs that have run are those of the calls.
-/

namespace BoostChat.Server

open Lib

namespace Teardown

variable {n m : Nat} {J : Type*}

/-- The pool with the workers blocked that have tested the flag. -/
def blockTested (pool : HSThreadPool n m J) (tested : Fin n → Bool) : HSThreadPool n m J :=
  { pool with
    workers := fun w => if tested w then .waiting else pool.workers w
    jobMutex := if ∃ w, tested w = true then none else pool.jobMutex }

/-- The state in which the workers that are about to block have blocked. -/
def coarse (s : Teardown n m J) : HSThreadPool n m J := blockTested s.pool s.tested

/-- Every call of `EnqueueJob` returns before the destructor starts. -/
def BeforeStop (s : Teardown n m J) : TeardownAction n m J → Prop
  | .call _ _ => s.pool.stopAll = false
  | .stop => ∀ c, s.pool.callers c = .idle
  | _ => True

/-- The calls of `EnqueueJob` among the actions. -/
def calls (as : List (TeardownAction n m J)) : List (Fin m × J) :=
  as.filterMap fun
    | .call c job => some (c, job)
    | _ => none

/-- A run of the pool that ends in the same state and has the same calls. -/
structure Refines (as : List (TeardownAction n m J)) (s : Teardown n m J) : Prop where
  run : ∃ bs, Run HSThreadPool.step HSThreadPool.BeforeStop {} bs s.coarse ∧
    HSThreadPool.calls bs = calls as
  /-- A worker that has tested the flag holds the mutex. -/
  tested : ∀ w, s.tested w = true →
    s.pool.workers w = .predicateStop ∧ s.pool.jobMutex = some (.inl w)

section Step

variable {s t : Teardown n m J} {a : TeardownAction n m J} {as : List (TeardownAction n m J)}
  {v w : Fin n} {c : Fin m}

theorem coarse_eq_pool (h : ∀ w, s.tested w = false) : s.coarse = s.pool := by
  have hnone : ¬ ∃ w, s.tested w = true := by
    rintro ⟨w, hw⟩
    rw [h w] at hw
    cases hw
  have hworkers :
      (fun w => if s.tested w then .waiting else s.pool.workers w) = s.pool.workers := by
    funext w
    rw [h w]
    rfl
  rw [coarse, blockTested, if_neg hnone, hworkers]

/-- With one worker about to block, the pool has that worker blocked. -/
theorem coarse_of_only (hw : s.tested w = true) (hothers : ∀ v, v ≠ w → s.tested v = false) :
    s.coarse = { s.pool.setWorker w .waiting with jobMutex := none } := by
  have hworkers : (fun v => if s.tested v then .waiting else s.pool.workers v) =
      Function.update s.pool.workers w .waiting := by
    funext v
    by_cases hv : v = w
    · subst hv
      rw [hw, Function.update_self]
      rfl
    · rw [hothers v hv, Function.update_of_ne hv]
      rfl
  rw [coarse, blockTested, if_pos ⟨w, hw⟩, hworkers]
  rfl

theorem coarse_worker (h : s.tested w = false) : s.coarse.workers w = s.pool.workers w := by
  show (if s.tested w = true then Worker.waiting else s.pool.workers w) = s.pool.workers w
  rw [h]
  rfl

/-- Moving a worker that is not about to block. -/
theorem blockTested_setWorker {pool : HSThreadPool n m J} {tested : Fin n → Bool}
    (hw : tested w = false) (worker : Worker J) :
    blockTested (pool.setWorker w worker) tested =
      (blockTested pool tested).setWorker w worker := by
  have hworkers : (fun v => if tested v then .waiting else (pool.setWorker w worker).workers v) =
      Function.update (blockTested pool tested).workers w worker := by
    funext v
    by_cases hv : v = w
    · subst hv
      rw [Function.update_self, hw]
      exact Function.update_self ..
    · have hother : (pool.setWorker w worker).workers v = pool.workers v :=
        Function.update_of_ne hv ..
      rw [Function.update_of_ne hv, hother]
      rfl
  rw [blockTested, hworkers]
  rfl

/-- While a worker is between its test and its block, no other thread is inside. -/
theorem Refines.outside (h : Refines as s) (hv : s.tested v = true) :
    (∀ w, s.tested w = false → ¬ (s.pool.workers w).locked) ∧
      ∀ c, ¬ (s.pool.callers c).locked := by
  obtain ⟨bs, hrun, -⟩ := h.run
  have hmutex := (HSThreadPool.inv_of_run hrun).mutex
  have hfree : s.coarse.jobMutex = none := if_pos ⟨v, hv⟩
  rw [hfree] at hmutex
  refine ⟨fun w hw hlocked => ?_, fun c hlocked => ?_⟩
  · have hinside : HSThreadPool.Holds s.coarse.workers s.coarse.callers (.inl w) := by
      rw [HSThreadPool.Holds, coarse_worker hw]
      exact hlocked
    cases (hmutex (.inl w)).mp hinside
  · have hinside : HSThreadPool.Holds s.coarse.workers s.coarse.callers (.inr c) := hlocked
    cases (hmutex (.inr c)).mp hinside

/-- Going on with a run of the pool. -/
theorem Refines.extend (h : Refines as s) (bs : List (PoolAction n m J))
    (hrun : Run HSThreadPool.step HSThreadPool.BeforeStop s.coarse bs t.coarse)
    (hcalls : HSThreadPool.calls bs = calls [a])
    (htested : ∀ w, t.tested w = true →
      t.pool.workers w = .predicateStop ∧ t.pool.jobMutex = some (.inl w)) :
    Refines (as ++ [a]) t where
  run := by
    obtain ⟨before, hbefore, heq⟩ := h.run
    refine ⟨before ++ bs, hbefore.append hrun, ?_⟩
    rw [HSThreadPool.calls, List.filterMap_append, calls, List.filterMap_append]
    exact congrArg₂ (· ++ ·) heq hcalls
  tested := htested

theorem run_one {b : PoolAction n m J} (hok : s.coarse.BeforeStop b)
    (hstep : s.coarse.step b = some t.coarse) :
    Run HSThreadPool.step HSThreadPool.BeforeStop s.coarse [b] t.coarse :=
  Run.cons hok hstep (Run.nil _)

/-! ## Steps of a worker -/

/-- The mutex has one owner, so at most one worker is about to block. -/
theorem Refines.only (h : Refines as s) (hw : s.tested w = true) (hv : v ≠ w) :
    s.tested v = false := by
  rw [← Bool.not_eq_true]
  intro htested
  have howner := (h.tested v htested).2
  rw [(h.tested w hw).2] at howner
  exact hv (Sum.inl.inj (Option.some.inj howner)).symm

/-- Before a step of a worker inside the critical section, nobody is about to block. -/
theorem Refines.none_tested (h : Refines as s) (hw : s.tested w = false)
    (hlocked : (s.pool.workers w).locked) : ∀ v, s.tested v = false := by
  intro v
  rw [← Bool.not_eq_true]
  exact fun hv => (h.outside hv).1 w hw hlocked

/-- The block of a worker that has tested the flag: the pool has blocked it before. -/
theorem Refines.block (h : Refines as s) (hw : s.tested w = true)
    (hpool : t.pool = { s.pool.setWorker w .waiting with jobMutex := none })
    (htested : t.tested = Function.update s.tested w false) : Refines (as ++ [.work w]) t := by
  have hnone : ∀ v, t.tested v = false := by
    intro v
    rw [htested]
    by_cases hv : v = w
    · rw [hv, Function.update_self]
    · rw [Function.update_of_ne hv]
      exact h.only hw hv
  have hsame : t.coarse = s.coarse := by
    rw [coarse_eq_pool hnone, hpool, coarse_of_only hw fun v hv => h.only hw hv]
  refine h.extend [] ?_ rfl ?_
  · rw [hsame]
    exact Run.nil _
  · intro v hv
    rw [hnone v] at hv
    cases hv

/-- The test of the flag: the pool blocks the worker at once. -/
theorem Refines.test (h : Refines as s) (hw : s.tested w = false)
    (hworker : s.pool.workers w = .predicateStop) (hopen : s.pool.stopAll = false)
    (hpool : t.pool = s.pool) (htested : t.tested = Function.update s.tested w true) :
    Refines (as ++ [.work w]) t := by
  have hlocked : (s.pool.workers w).locked := by
    rw [hworker]
    trivial
  have hnone := h.none_tested hw hlocked
  have hself : t.tested w = true := by
    rw [htested, Function.update_self]
  have hothers : ∀ v, v ≠ w → t.tested v = false := by
    intro v hv
    rw [htested, Function.update_of_ne hv]
    exact hnone v
  have hwork : s.coarse.step (.work w) = some t.coarse := by
    rw [coarse_eq_pool hnone, coarse_of_only hself hothers, hpool]
    show s.pool.work w = _
    rw [HSThreadPool.work, hworker, hopen]
    rfl
  have hok : s.coarse.BeforeStop (.work w) := trivial
  refine h.extend [_] (run_one hok hwork) rfl fun v hv => ?_
  by_cases heq : v = w
  · -- the worker is inside the critical section
    subst heq
    obtain ⟨bs, hrun, -⟩ := h.run
    have hmutex := (HSThreadPool.inv_of_run hrun).mutex (.inl v)
    rw [coarse_eq_pool hnone] at hmutex
    rw [hpool]
    exact ⟨hworker, hmutex.mp hlocked⟩
  · rw [hothers v heq] at hv
    cases hv

/-- Every other step of a worker is the pool's. -/
theorem Refines.work (h : Refines as s) (hw : s.tested w = false) {pool : HSThreadPool n m J}
    (hwork : s.pool.work w = some pool) (hpool : t.pool = pool) (htested : t.tested = s.tested) :
    Refines (as ++ [.work w]) t := by
  have hok : s.coarse.BeforeStop (.work w) := trivial
  by_cases hnone : ∀ v, s.tested v = false
  · have hnone' : ∀ v, t.tested v = false := htested ▸ hnone
    refine h.extend [_] (run_one hok ?_) rfl fun v hv => ?_
    · rw [coarse_eq_pool hnone, coarse_eq_pool hnone', hpool]
      exact hwork
    · rw [hnone' v] at hv
      cases hv
  · -- another worker holds the mutex, so this one is running a job
    obtain ⟨v, hv⟩ := not_forall.mp hnone
    rw [Bool.not_eq_false] at hv
    obtain ⟨-, howner⟩ := h.tested v hv
    have hout := (h.outside hv).1 w hw
    cases HSThreadPool.work_step hwork with
    | acquire hfree =>
      rw [howner] at hfree
      cases hfree
    | move hin | release hin => exact absurd hin hout
    | underflow hworker | pop hworker =>
      rw [hworker] at hout
      exact absurd trivial hout
    | @run job hworker =>
      refine h.extend [_] (run_one hok ?_) rfl fun u hu => ?_
      · have hcoarse : t.coarse = { s.coarse.setWorker w .locking with
            ran := s.coarse.ran ++ [(w, job)] } := by
          rw [coarse, coarse, hpool, htested, ← blockTested_setWorker hw]
          rfl
        show s.coarse.work w = some t.coarse
        rw [hcoarse, HSThreadPool.work, coarse_worker hw, hworker]
      · rw [htested] at hu
        have hne : u ≠ w := by
          rintro rfl
          rw [hw] at hu
          cases hu
        rw [hpool]
        refine ⟨?_, (h.tested u hu).2⟩
        show Function.update s.pool.workers w .locking u = .predicateStop
        rw [Function.update_of_ne hne]
        exact (h.tested u hu).1

/-! ## Wake-ups -/

/-- A worker that is blocked is not about to block. -/
theorem Refines.blocked_not_tested (h : Refines as s) (hw : (s.pool.workers w).blocked = true) :
    s.tested w = false := by
  rw [← Bool.not_eq_true]
  intro htested
  rw [(h.tested w htested).1] at hw
  cases hw

theorem step_wake {pool : HSThreadPool n m J} {tested : Fin n → Bool} (hw : tested w = false)
    (hblocked : (pool.workers w).blocked = true) :
    (blockTested pool tested).step (.wake w) =
      some (blockTested (pool.setWorker w .relocking) tested) := by
  have hworker : (blockTested pool tested).workers w = .waiting := by
    show (if tested w = true then Worker.waiting else pool.workers w) = .waiting
    rw [hw]
    exact eq_waiting_of_blocked hblocked
  rw [blockTested_setWorker hw, HSThreadPool.step, hworker]

/-- The workers that are about to block stay where they are when another one moves. -/
theorem Refines.tested_setWorker (h : Refines as s) (hw : s.tested w = false) (worker : Worker J)
    (hv : s.tested v = true) : (s.pool.setWorker w worker).workers v = .predicateStop := by
  have hne : v ≠ w := by
    rintro rfl
    rw [hw] at hv
    cases hv
  have hother : (s.pool.setWorker w worker).workers v = s.pool.workers v :=
    Function.update_of_ne hne ..
  rw [hother]
  exact (h.tested v hv).1

theorem Refines.wake (h : Refines as s) (hblocked : (s.pool.workers w).blocked = true) :
    Refines (as ++ [.wake w]) { s with pool := s.pool.setWorker w .relocking } := by
  have hw := h.blocked_not_tested hblocked
  have hok : s.coarse.BeforeStop (.wake w) := trivial
  refine h.extend [_] (run_one hok (step_wake hw hblocked)) rfl fun v hv => ?_
  exact ⟨h.tested_setWorker hw _ hv, (h.tested v hv).2⟩

/-- The pool wakes the blocked workers one after the other. -/
theorem run_wakes {pool : HSThreadPool n m J} {ws : List (Fin n)} {workers : Fin n → Worker J}
    (hnodup : ws.Nodup) (hwaiting : ∀ w ∈ ws, pool.workers w = .waiting)
    (hwoken : ∀ w ∈ ws, workers w = .relocking)
    (hothers : ∀ w, w ∉ ws → workers w = pool.workers w) :
    Run HSThreadPool.step HSThreadPool.BeforeStop pool (ws.map .wake)
      { pool with workers := workers } := by
  induction ws generalizing pool with
  | nil =>
    have hsame : workers = pool.workers := funext fun w => hothers w List.not_mem_nil
    rw [hsame]
    exact Run.nil pool
  | cons w ws ih =>
    obtain ⟨hw, hrest⟩ := List.nodup_cons.mp hnodup
    have hwake : pool.step (.wake w) = some (pool.setWorker w .relocking) := by
      rw [HSThreadPool.step, hwaiting w List.mem_cons_self]
    have hself : (pool.setWorker w .relocking).workers w = .relocking := Function.update_self ..
    have hother : ∀ v, v ≠ w → (pool.setWorker w .relocking).workers v = pool.workers v :=
      fun v hv => Function.update_of_ne hv ..
    refine Run.cons trivial hwake (ih hrest ?_ ?_ ?_)
    · intro v hv
      rw [hother v (ne_of_mem_of_not_mem hv hw)]
      exact hwaiting v (List.mem_cons_of_mem _ hv)
    · exact fun v hv => hwoken v (List.mem_cons_of_mem _ hv)
    · intro v hv
      by_cases heq : v = w
      · subst heq
        rw [hself]
        exact hwoken v List.mem_cons_self
      · rw [hother v heq]
        exact hothers v fun hmem => (List.mem_cons.mp hmem).elim heq hv

/-- `notify_all` wakes the blocked workers, and not those that are about to block. -/
theorem Refines.notifyAll (h : Refines as s) (hpool : t.pool = wakeAll s.pool)
    (htested : t.tested = s.tested) : Refines (as ++ [.notifyAll]) t := by
  let ws := (List.finRange n).filter fun w => (s.pool.workers w).blocked
  have hmem : ∀ w, w ∈ ws ↔ (s.pool.workers w).blocked = true := by
    intro w
    rw [List.mem_filter]
    exact and_iff_right (List.mem_finRange w)
  have hstay : ∀ w, w ∉ ws → (wakeAll s.pool).workers w = s.pool.workers w :=
    fun w hw => if_neg fun hblocked => hw ((hmem w).mpr hblocked)
  have hrun : Run HSThreadPool.step HSThreadPool.BeforeStop s.coarse (ws.map .wake)
      { s.coarse with workers := (blockTested (wakeAll s.pool) s.tested).workers } := by
    refine run_wakes ((List.nodup_finRange n).filter _) ?_ ?_ ?_
    · intro w hw
      have hblocked := (hmem w).mp hw
      rw [coarse_worker (h.blocked_not_tested hblocked)]
      exact eq_waiting_of_blocked hblocked
    · intro w hw
      have hblocked := (hmem w).mp hw
      show (if s.tested w = true then _ else (wakeAll s.pool).workers w) = .relocking
      rw [h.blocked_not_tested hblocked]
      exact if_pos hblocked
    · intro w hw
      show (if s.tested w = true then _ else (wakeAll s.pool).workers w) =
        if s.tested w = true then _ else s.pool.workers w
      rw [hstay w hw]
  have hend : t.coarse =
      { s.coarse with workers := (blockTested (wakeAll s.pool) s.tested).workers } := by
    rw [coarse, hpool, htested]
    rfl
  have hcalls : HSThreadPool.calls (ws.map .wake : List (PoolAction n m J)) = [] := by
    rw [HSThreadPool.calls, List.filterMap_map]
    exact List.filterMap_eq_nil_iff.mpr fun _ _ => rfl
  refine h.extend (ws.map .wake) (hend ▸ hrun) hcalls fun v hv => ?_
  rw [htested] at hv
  obtain ⟨hworker, howner⟩ := h.tested v hv
  -- a worker that is about to block does not hear the notification
  have hout : v ∉ ws := by
    rw [hmem, hworker]
    exact Bool.false_ne_true
  rw [hpool]
  exact ⟨(hstay v hout).trans hworker, howner⟩

/-! ## Calls -/

/-- While a worker is about to block, a call moves outside the critical section only. -/
theorem Refines.proceed_outside (h : Refines as s) (hv : s.tested v = true)
    {pool : HSThreadPool n m J} (hproceed : s.pool.proceed c = some pool) :
    ∃ caller, pool = s.pool.setCaller c caller ∧
      s.coarse.proceed c = some (s.coarse.setCaller c caller) := by
  obtain ⟨-, howner⟩ := h.tested v hv
  have hout := (h.outside hv).2 c
  have hsame : s.coarse.callers c = s.pool.callers c := rfl
  unfold HSThreadPool.proceed at hproceed ⊢
  rw [hsame]
  cases hcaller : s.pool.callers c with
  | idle | threw =>
    rw [hcaller] at hproceed
    cases hproceed
  | checking job =>
    rw [hcaller] at hproceed
    dsimp only at hproceed ⊢
    have hstop : s.coarse.stopAll = s.pool.stopAll := rfl
    rw [hstop]
    by_cases hset : s.pool.stopAll = true
    · rw [if_pos hset] at hproceed ⊢
      exact ⟨_, (Option.some.inj hproceed).symm, rfl⟩
    · rw [if_neg hset] at hproceed ⊢
      exact ⟨_, (Option.some.inj hproceed).symm, rfl⟩
  | locking =>
    rw [hcaller] at hproceed
    obtain ⟨hfree, -⟩ := guarded_step hproceed
    rw [howner] at hfree
    cases hfree
  | pushing | unlocking =>
    rw [hcaller] at hout
    exact absurd trivial hout
  | notifying =>
    rw [hcaller] at hproceed
    exact ⟨.idle, (Option.some.inj hproceed).symm, rfl⟩

/-- A step of a call is the pool's. -/
theorem Refines.proceed (h : Refines as s) {pool : HSThreadPool n m J}
    (hproceed : s.pool.proceed c = some pool) (hpool : t.pool = pool)
    (htested : t.tested = s.tested) : Refines (as ++ [.proceed c]) t := by
  have hok : s.coarse.BeforeStop (.proceed c) := trivial
  by_cases hnone : ∀ v, s.tested v = false
  · -- both pools are in the same state
    have hnone' : ∀ v, t.tested v = false := htested ▸ hnone
    refine h.extend [_] (run_one hok ?_) rfl fun v hv => ?_
    · rw [coarse_eq_pool hnone, coarse_eq_pool hnone', hpool]
      exact hproceed
    · rw [hnone' v] at hv
      cases hv
  · obtain ⟨v, hv⟩ := not_forall.mp hnone
    rw [Bool.not_eq_false] at hv
    obtain ⟨caller, rfl, hcoarse⟩ := h.proceed_outside hv hproceed
    refine h.extend [_] (run_one hok ?_) rfl ?_
    · have hafter : t.coarse = s.coarse.setCaller c caller := by
        rw [coarse, hpool, htested]
        rfl
      rw [hafter]
      exact hcoarse
    · rw [hpool, htested]
      exact h.tested

/-- `notify_one` is a wake-up, or none, and the end of the call. -/
theorem Refines.notifyOne (h : Refines as s) {target : Option (Fin n)}
    (hcaller : s.pool.callers c = .notifying) {pool : HSThreadPool n m J}
    (hwake : wakeOne s.pool target = some pool) (hpool : t.pool = pool.setCaller c .idle)
    (htested : t.tested = s.tested) : Refines (as ++ [.notifyOne c target]) t := by
  have hend : ∀ pool : HSThreadPool n m J, pool.callers c = .notifying →
      pool.step (.proceed c) = some (pool.setCaller c .idle) := by
    intro pool hcaller
    show pool.proceed c = _
    rw [HSThreadPool.proceed, hcaller]
  cases target with
  | none =>
    obtain ⟨-, rfl⟩ := guarded_step hwake
    refine h.extend [.proceed c] (run_one trivial ?_) rfl ?_
    · have hafter : t.coarse = s.coarse.setCaller c .idle := by
        rw [coarse, hpool, htested]
        rfl
      rw [hafter]
      exact hend s.coarse hcaller
    · rw [hpool, htested]
      exact h.tested
  | some w =>
    obtain ⟨hblocked, rfl⟩ := guarded_step hwake
    have hw := h.blocked_not_tested hblocked
    refine h.extend [.wake w, .proceed c] ?_ rfl fun v hv => ?_
    · refine Run.cons trivial (step_wake hw hblocked) (Run.cons trivial ?_ (Run.nil _))
      rw [coarse, hpool, htested]
      exact hend _ hcaller
    · rw [htested] at hv
      rw [hpool]
      exact ⟨h.tested_setWorker hw _ hv, (h.tested v hv).2⟩

/-! ## Every step -/

/-- **Step lemma.** -/
theorem Refines.step (h : Refines as s) (hok : s.BeforeStop a) (hstep : s.step a = some t) :
    Refines (as ++ [a]) t := by
  cases a with
  | work w =>
    simp only [Teardown.step, Teardown.work] at hstep
    by_cases hw : s.tested w = true
    · rw [if_pos hw] at hstep
      obtain rfl := Option.some.inj hstep
      exact h.block hw rfl rfl
    · rw [if_neg hw] at hstep
      rw [Bool.not_eq_true] at hw
      split at hstep
      · rename_i hworker hopen
        obtain rfl := Option.some.inj hstep
        exact h.test hw hworker hopen rfl rfl
      · obtain ⟨pool, hwork, rfl⟩ := Option.map_eq_some_iff.mp hstep
        exact h.work hw hwork rfl rfl
  | wake w =>
    obtain ⟨hblocked, rfl⟩ := wake_inv hstep
    exact h.wake hblocked
  | call c job =>
    obtain ⟨hcaller, rfl⟩ := call_inv hstep
    have hidle : s.coarse.callers c = .idle := hcaller
    refine h.extend [.call c job] (run_one hok ?_) rfl h.tested
    rw [HSThreadPool.step, hidle]
    rfl
  | proceed c =>
    obtain ⟨pool, hpool, rfl⟩ := proceed_inv hstep
    exact h.proceed hpool rfl rfl
  | notifyOne c target =>
    obtain ⟨hcaller, pool, hpool, rfl⟩ := notifyOne_inv hstep
    exact h.notifyOne hcaller hpool rfl rfl
  | stop =>
    obtain ⟨-, rfl⟩ := stop_inv hstep
    exact h.extend [.stop] (run_one hok rfl) rfl h.tested
  | notifyAll =>
    obtain ⟨-, rfl⟩ := notifyAll_inv hstep
    exact h.notifyAll rfl rfl
  | join =>
    obtain ⟨w, -, -, rfl⟩ := join_inv hstep
    exact h.extend [] (Run.nil _) rfl h.tested

theorem refines_start : Refines [] ({} : Teardown n m J) where
  run := ⟨[], by rw [coarse_eq_pool fun _ => rfl]; exact Run.nil _, rfl⟩
  tested := nofun

/-- **Run lemma.** What the pool does at shutdown, it does in `HSThreadPool.step`. -/
theorem refines_of_run (hrun : Run Teardown.step BeforeStop ({} : Teardown n m J) as s) :
    Refines as s :=
  hrun.history (I := Refines) (fun _ _ _ _ h hok hstep => h.step hok hstep) refines_start

/-- **Shutdown loses no job.** Whatever falls between a worker's test of the flag and its
block: nothing is popped from an empty queue, the pops give the jobs in the order of the
pushes, and when all workers have returned, the jobs that have run are those of the calls. -/
theorem leftover_jobs_run (hn : 0 < n)
    (hrun : Run Teardown.step BeforeStop ({} : Teardown n m J) as s) :
    s.pool.underflow = false ∧
    s.pool.popped.map Prod.snd ++ s.pool.jobs = s.pool.pushed.map Prod.snd ∧
    ((∀ w, s.pool.workers w = .returned) → s.pool.jobs = [] ∧
      (s.pool.ran.map Prod.snd).Perm ((calls as).map Prod.snd)) := by
  have hrefines := refines_of_run hrun
  obtain ⟨bs, hbs, hcalls⟩ := hrefines.run
  have hinv := HSThreadPool.inv_of_run hbs
  refine ⟨hinv.noUnderflow, hinv.fifo, fun hreturned => ?_⟩
  -- a worker that has returned is not about to block
  have hnone : ∀ w, s.tested w = false := by
    intro w
    rw [← Bool.not_eq_true]
    intro hw
    have hworker := (hrefines.tested w hw).1
    rw [hreturned w] at hworker
    cases hworker
  rw [coarse_eq_pool hnone] at hinv
  obtain ⟨hempty, -, -, hperm⟩ := hinv.all_returned hn hreturned
  rw [hcalls] at hperm
  exact ⟨hempty, hperm⟩

end Step

end Teardown

end BoostChat.Server
