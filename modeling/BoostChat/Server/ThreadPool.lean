import Mathlib.Logic.Function.Basic
import BoostChat.Basic
import BoostChat.Lib.Threads
import BoostChat.Lib.Transition

/-!
# The thread pool

`HSThreadPool`: workers that take jobs from one queue, callers of `EnqueueJob`, and the
flag that the destructor sets. The queue is touched under the mutex only; the flag is
neither set nor read under a lock that both sides hold, so every read of it is a step of its
own, and it may change between any two steps.

* `HSThreadPool.step` — one atomic step of a worker or a caller, with the position of each
  thread in its code. Waking from the wait needs no notification (a wake-up may be
  spurious), so the notifications have no step that depends on them;
* `WorkStep` — what a step of a worker can do, which the invariants read instead of the step;
* `BeforeStop` — no call of `EnqueueJob` overlaps the destructor or follows it;
* `Inv` — who holds the mutex, and what each thread knows of the queue and the flag at its
  place of the code;
* `jobs_run_once` — the jobs run, each once, by the workers that took them, in order.

The number of workers, the number of calling threads and the type of the jobs are
parameters. A job's exceptions end in its `packaged_task`.
-/

namespace BoostChat.Server

open Lib

/-- Where a worker is in `Start`. -/
inductive Worker (J : Type*)
  /-- The constructor of `unique_lock` is next. -/
  | locking
  /-- `!m_Jobs.empty()` in the predicate of the wait is next. -/
  | predicate
  /-- The queue was found empty; `m_StopAll` in the predicate is next. -/
  | predicateStop
  /-- Blocked in the wait, without the mutex. -/
  | waiting
  /-- Woken; the wait takes the mutex again. -/
  | relocking
  /-- The wait has returned; `m_StopAll` in the exit test is next. -/
  | exitStop
  /-- `m_Jobs.empty()` in the exit test is next. -/
  | exitEmpty
  /-- `front` and `pop` are next. -/
  | popping
  | unlocking (job : J)
  | running (job : J)
  | returned
deriving DecidableEq

/-- Where a thread is in `EnqueueJob`. -/
inductive Caller (J : Type*)
  | idle
  /-- The test of `m_StopAll` is next. -/
  | checking (job : J)
  | locking (job : J)
  | pushing (job : J)
  | unlocking
  | notifying
  | threw (e : StdException)
deriving DecidableEq

structure HSThreadPool (n m : Nat) (J : Type*) where
  jobs : List J := []
  stopAll : Bool := false
  /-- The thread that holds `m_JobMutex`. -/
  jobMutex : Option (Fin n ⊕ Fin m) := none
  workers : Fin n → Worker J := fun _ => .locking
  callers : Fin m → Caller J := fun _ => .idle
  /-- The pushes so far, in order, with their callers. -/
  pushed : List (Fin m × J) := []
  /-- The pops so far, in order, with their workers. -/
  popped : List (Fin n × J) := []
  /-- The jobs that have run. -/
  ran : List (Fin n × J) := []
  /-- A worker called `front` and `pop` on an empty queue. -/
  underflow : Bool := false

inductive PoolAction (n m : Nat) (J : Type*)
  /-- The next step of a worker. -/
  | work (w : Fin n)
  /-- A notification, or none, ends a worker's wait. -/
  | wake (w : Fin n)
  /-- A thread calls `EnqueueJob`. -/
  | call (c : Fin m) (job : J)
  /-- The next step of a call. -/
  | proceed (c : Fin m)
  /-- The destructor sets `m_StopAll`. -/
  | stop
deriving DecidableEq

namespace HSThreadPool

variable {n m : Nat} {J : Type*}

def setWorker (s : HSThreadPool n m J) (w : Fin n) (worker : Worker J) : HSThreadPool n m J :=
  { s with workers := Function.update s.workers w worker }

def setCaller (s : HSThreadPool n m J) (c : Fin m) (caller : Caller J) : HSThreadPool n m J :=
  { s with callers := Function.update s.callers c caller }

/-- A worker in the loop of `HSThreadPool::Start`. -/
def work (s : HSThreadPool n m J) (w : Fin n) : Option (HSThreadPool n m J) :=
  match s.workers w with
  | .locking | .relocking =>
    if s.jobMutex = none then some { s.setWorker w .predicate with jobMutex := some (.inl w) }
    else none
  | .predicate => some (s.setWorker w (if s.jobs.isEmpty then .predicateStop else .exitStop))
  | .predicateStop =>
    if s.stopAll then some (s.setWorker w .exitStop)
    else some { s.setWorker w .waiting with jobMutex := none }
  | .waiting => none
  | .exitStop => some (s.setWorker w (if s.stopAll then .exitEmpty else .popping))
  | .exitEmpty =>
    -- the destructor of `lock` releases the mutex
    if s.jobs.isEmpty then some { s.setWorker w .returned with jobMutex := none }
    else some (s.setWorker w .popping)
  | .popping =>
    match s.jobs with
    | [] => some { s with underflow := true }
    | job :: rest =>
      some { s.setWorker w (.unlocking job) with jobs := rest, popped := s.popped ++ [(w, job)] }
  | .unlocking job => some { s.setWorker w (.running job) with jobMutex := none }
  | .running job => some { s.setWorker w .locking with ran := s.ran ++ [(w, job)] }
  | .returned => none

/-- A call of `HSThreadPool::EnqueueJob`. -/
def proceed (s : HSThreadPool n m J) (c : Fin m) : Option (HSThreadPool n m J) :=
  match s.callers c with
  | .idle => none
  | .checking job =>
    if s.stopAll then
      some (s.setCaller c (.threw (.runtimeError (ascii "ThreadPool is Stoped"))))
    else some (s.setCaller c (.locking job))
  | .locking job =>
    if s.jobMutex = none then some { s.setCaller c (.pushing job) with jobMutex := some (.inr c) }
    else none
  | .pushing job =>
    some { s.setCaller c .unlocking with jobs := s.jobs ++ [job], pushed := s.pushed ++ [(c, job)] }
  | .unlocking => some { s.setCaller c .notifying with jobMutex := none }
  | .notifying => some (s.setCaller c .idle)
  | .threw _ => none

def step (s : HSThreadPool n m J) : PoolAction n m J → Option (HSThreadPool n m J)
  | .work w => s.work w
  | .wake w =>
    match s.workers w with
    | .waiting => some (s.setWorker w .relocking)
    | _ => none
  | .call c job =>
    match s.callers c with
    | .idle => some (s.setCaller c (.checking job))
    | _ => none
  | .proceed c => s.proceed c
  | .stop => some { s with stopAll := true }

/-- Every call of `EnqueueJob` returns before the destructor starts. -/
def BeforeStop (s : HSThreadPool n m J) : PoolAction n m J → Prop
  | .call _ _ => s.stopAll = false
  | .stop => ∀ c, s.callers c = .idle
  | _ => True

instance [DecidableEq J] (s : HSThreadPool n m J) (a : PoolAction n m J) :
    Decidable (s.BeforeStop a) := by
  cases a <;> unfold BeforeStop <;> infer_instance

end HSThreadPool

/-! ## The invariant -/

section Phases

variable {J : Type*}

/-- The places of `Start` at which the worker holds the mutex. -/
def Worker.locked : Worker J → Prop
  | .predicate | .predicateStop | .exitStop | .exitEmpty | .popping | .unlocking _ => True
  | _ => False

/-- The job that the worker has taken and not run yet. -/
def Worker.inHand : Worker J → List J
  | .unlocking job | .running job => [job]
  | _ => []

/-- What the worker knows of the queue and the flag. -/
def Worker.Knows (jobs : List J) (stopAll : Bool) : Worker J → Prop
  | .predicateStop => jobs = []
  | .exitStop => jobs ≠ [] ∨ stopAll = true
  | .exitEmpty => stopAll = true
  | .popping => jobs ≠ []
  | .returned => jobs = [] ∧ stopAll = true
  | _ => True

/-- The places of `EnqueueJob` at which the caller holds the mutex. -/
def Caller.locked : Caller J → Prop
  | .pushing _ | .unlocking => True
  | _ => False

/-- The job that the caller has not pushed yet. -/
def Caller.inHand : Caller J → List J
  | .checking job | .locking job | .pushing job => [job]
  | _ => []

/-- What a worker outside the critical section knows survives a change of the queue that
leaves it empty if it was empty when `stop_all` was set. -/
theorem Worker.Knows.unlocked {jobs jobs' : List J} {stopAll : Bool} {worker : Worker J}
    (h : worker.Knows jobs stopAll) (hfree : ¬ worker.locked)
    (hjobs : stopAll = true → jobs = [] → jobs' = []) : worker.Knows jobs' stopAll := by
  cases worker with
  | returned => exact ⟨hjobs h.2 h.1, h.2⟩
  | locking | waiting | relocking | running => trivial
  | predicate | predicateStop | exitStop | exitEmpty | popping | unlocking =>
    exact absurd trivial hfree

end Phases

namespace HSThreadPool

variable {n m : Nat} {J : Type*}

/-- The threads that are inside the critical section. -/
def Holds (workers : Fin n → Worker J) (callers : Fin m → Caller J) : Fin n ⊕ Fin m → Prop
  | .inl w => (workers w).locked
  | .inr c => (callers c).locked

theorem holds_worker (workers : Fin n → Worker J) (callers : Fin m → Caller J) (w : Fin n)
    (worker : Worker J) :
    Holds (Function.update workers w worker) callers (.inl w) ↔ worker.locked := by
  rw [Holds, Function.update_self]

theorem holds_caller (workers : Fin n → Worker J) (callers : Fin m → Caller J) (c : Fin m)
    (caller : Caller J) :
    Holds workers (Function.update callers c caller) (.inr c) ↔ caller.locked := by
  rw [Holds, Function.update_self]

/-- A worker's step does not move the other threads. -/
theorem holds_of_ne_worker (workers : Fin n → Worker J) (callers : Fin m → Caller J) (w : Fin n)
    (worker : Worker J) (t : Fin n ⊕ Fin m) (ht : t ≠ .inl w) :
    Holds (Function.update workers w worker) callers t ↔ Holds workers callers t := by
  cases t with
  | inl v =>
    have hv : v ≠ w := fun h => ht (congrArg Sum.inl h)
    rw [Holds, Holds, Function.update_of_ne hv]
  | inr c => exact Iff.rfl

/-- Nor does a caller's. -/
theorem holds_of_ne_caller (workers : Fin n → Worker J) (callers : Fin m → Caller J) (c : Fin m)
    (caller : Caller J) (t : Fin n ⊕ Fin m) (ht : t ≠ .inr c) :
    Holds workers (Function.update callers c caller) t ↔ Holds workers callers t := by
  cases t with
  | inl w => exact Iff.rfl
  | inr d =>
    have hd : d ≠ c := fun h => ht (congrArg Sum.inr h)
    rw [Holds, Holds, Function.update_of_ne hd]

/-- The calls of `EnqueueJob` among the actions. -/
def calls (as : List (PoolAction n m J)) : List (Fin m × J) :=
  as.filterMap fun
    | .call c job => some (c, job)
    | _ => none

theorem calls_concat (as : List (PoolAction n m J)) (a : PoolAction n m J) :
    calls (as ++ [a]) = calls as ++ calls [a] :=
  List.filterMap_append

theorem calls_quiet (as : List (PoolAction n m J)) {a : PoolAction n m J}
    (hquiet : calls [a] = []) : calls (as ++ [a]) = calls as := by
  rw [calls_concat, hquiet, List.append_nil]

structure Inv (as : List (PoolAction n m J)) (s : HSThreadPool n m J) : Prop where
  mutex : Exclusive (Holds s.workers s.callers) s.jobMutex
  knows : ∀ w, (s.workers w).Knows s.jobs s.stopAll
  fifo : s.popped.map Prod.snd ++ s.jobs = s.pushed.map Prod.snd
  taken : ∀ w, ofThread w s.popped = ofThread w s.ran ++ (s.workers w).inHand
  called : ∀ c, ofThread c (calls as) = ofThread c s.pushed ++ (s.callers c).inHand
  /-- Once the flag is set, no call is in progress. -/
  closed : s.stopAll = true → ∀ c, s.callers c = .idle
  noUnderflow : s.underflow = false

section Step

variable {as : List (PoolAction n m J)} {s s' : HSThreadPool n m J} {w : Fin n} {c : Fin m}
  {worker : Worker J} {caller : Caller J} {owner : Option (Fin n ⊕ Fin m)} {a : PoolAction n m J}

/-- Facts about the workers after one of them has moved. -/
theorem forall_workers {P : Fin n → Worker J → Prop} (hw : P w worker)
    (hother : ∀ v, v ≠ w → P v (s.workers v)) :
    ∀ v, P v (Function.update s.workers w worker v) := by
  intro v
  by_cases hv : v = w
  · subst hv
    rwa [Function.update_self]
  · rw [Function.update_of_ne hv]
    exact hother v hv

theorem forall_callers {P : Fin m → Caller J → Prop} (hc : P c caller)
    (hother : ∀ d, d ≠ c → P d (s.callers d)) :
    ∀ d, P d (Function.update s.callers c caller d) := by
  intro d
  by_cases hd : d = c
  · subst hd
    rwa [Function.update_self]
  · rw [Function.update_of_ne hd]
    exact hother d hd

/-! ## What a worker's step can do -/

/-- The next step of a worker, by what it does to the mutex and to the queue. -/
inductive WorkStep (s : HSThreadPool n m J) (w : Fin n) : HSThreadPool n m J → Prop
  | acquire (hfree : s.jobMutex = none)
      (hhand : (Worker.predicate : Worker J).inHand = (s.workers w).inHand) :
      WorkStep s w { s.setWorker w .predicate with jobMutex := some (.inl w) }
  /-- The queue or the flag is read, and the worker stays in the critical section. -/
  | move {worker : Worker J} (hin : (s.workers w).locked) (hstays : worker.locked)
      (hhand : worker.inHand = (s.workers w).inHand)
      (hknows : (s.workers w).Knows s.jobs s.stopAll → worker.Knows s.jobs s.stopAll) :
      WorkStep s w (s.setWorker w worker)
  /-- The mutex is given back; to block, the worker must have read the flag as not set. -/
  | release {worker : Worker J} (hin : (s.workers w).locked) (hout : ¬ worker.locked)
      (hhand : worker.inHand = (s.workers w).inHand)
      (hknows : (s.workers w).Knows s.jobs s.stopAll → worker.Knows s.jobs s.stopAll)
      (hopen : worker = .waiting → s.stopAll = false) :
      WorkStep s w { s.setWorker w worker with jobMutex := none }
  | underflow (hworker : s.workers w = .popping) (hjobs : s.jobs = []) :
      WorkStep s w { s with underflow := true }
  | pop {job : J} {rest : List J} (hworker : s.workers w = .popping)
      (hjobs : s.jobs = job :: rest) :
      WorkStep s w { s.setWorker w (.unlocking job) with
        jobs := rest, popped := s.popped ++ [(w, job)] }
  | run {job : J} (hworker : s.workers w = .running job) :
      WorkStep s w { s.setWorker w .locking with ran := s.ran ++ [(w, job)] }

/-- **Inversion of a worker's step**, place by place. -/
theorem work_step (hwork : s.work w = some s') : WorkStep s w s' := by
  unfold HSThreadPool.work at hwork
  cases hworker : s.workers w with
  | locking | relocking =>
    rw [hworker] at hwork
    obtain ⟨hfree, rfl⟩ := guarded_step hwork
    exact .acquire hfree (by rw [hworker]; rfl)
  | predicate =>
    rw [hworker] at hwork
    obtain rfl := Option.some.inj hwork
    by_cases hempty : s.jobs = []
    · rw [if_pos (List.isEmpty_iff.mpr hempty)]
      exact .move (by rw [hworker]; trivial) trivial (by rw [hworker]; rfl) fun _ => hempty
    · rw [if_neg (mt List.isEmpty_iff.mp hempty)]
      exact .move (by rw [hworker]; trivial) trivial (by rw [hworker]; rfl) fun _ => Or.inl hempty
  | predicateStop =>
    rw [hworker] at hwork
    by_cases hstop : s.stopAll = true
    · rw [if_pos hstop] at hwork
      obtain rfl := Option.some.inj hwork
      exact .move (by rw [hworker]; trivial) trivial (by rw [hworker]; rfl) fun _ => Or.inr hstop
    · rw [if_neg hstop] at hwork
      obtain rfl := Option.some.inj hwork
      exact .release (by rw [hworker]; trivial) (fun h => h) (by rw [hworker]; rfl)
        (fun _ => trivial) fun _ => Bool.not_eq_true _ ▸ hstop
  | waiting | returned =>
    rw [hworker] at hwork
    cases hwork
  | exitStop =>
    rw [hworker] at hwork
    obtain rfl := Option.some.inj hwork
    by_cases hstop : s.stopAll = true
    · rw [if_pos hstop]
      exact .move (by rw [hworker]; trivial) trivial (by rw [hworker]; rfl) fun _ => hstop
    · -- the predicate held because of a job, and the mutex has been held since
      rw [if_neg hstop]
      refine .move (by rw [hworker]; trivial) trivial (by rw [hworker]; rfl) fun hknown => ?_
      rw [hworker] at hknown
      exact hknown.resolve_right hstop
  | exitEmpty =>
    rw [hworker] at hwork
    dsimp only at hwork
    by_cases hempty : s.jobs = []
    · rw [if_pos (List.isEmpty_iff.mpr hempty)] at hwork
      obtain rfl := Option.some.inj hwork
      refine .release (by rw [hworker]; trivial) (fun h => h) (by rw [hworker]; rfl)
        (fun hknown => ?_) nofun
      rw [hworker] at hknown
      exact ⟨hempty, hknown⟩
    · rw [if_neg (mt List.isEmpty_iff.mp hempty)] at hwork
      obtain rfl := Option.some.inj hwork
      exact .move (by rw [hworker]; trivial) trivial (by rw [hworker]; rfl) fun _ => hempty
  | popping =>
    rw [hworker] at hwork
    cases hjobs : s.jobs with
    | nil =>
      rw [hjobs] at hwork
      obtain rfl := Option.some.inj hwork
      rw [← hjobs]
      exact .underflow hworker hjobs
    | cons job rest =>
      rw [hjobs] at hwork
      obtain rfl := Option.some.inj hwork
      exact .pop hworker hjobs
  | unlocking job =>
    rw [hworker] at hwork
    obtain rfl := Option.some.inj hwork
    exact .release (by rw [hworker]; trivial) (fun h => h) (by rw [hworker]; rfl)
      (fun _ => trivial) nofun
  | running job =>
    rw [hworker] at hwork
    obtain rfl := Option.some.inj hwork
    exact .run hworker

/-! ## Steps that move one thread -/

/-- A worker's step that leaves the queue, the flag and the logs as they are. -/
theorem Inv.turn (h : Inv as s) (hquiet : calls [a] = [])
    (hmutex : Exclusive (Holds (Function.update s.workers w worker) s.callers) owner)
    (hhand : worker.inHand = (s.workers w).inHand) (hknows : worker.Knows s.jobs s.stopAll) :
    Inv (as ++ [a]) { s.setWorker w worker with jobMutex := owner } where
  mutex := hmutex
  knows := forall_workers (P := fun _ x => x.Knows s.jobs s.stopAll) hknows fun v _ => h.knows v
  fifo := h.fifo
  taken := forall_workers (P := fun v x => ofThread v s.popped = ofThread v s.ran ++ x.inHand)
    (by rw [hhand, h.taken w]) fun v _ => h.taken v
  called := by
    rw [calls_quiet as hquiet]
    exact h.called
  closed := h.closed
  noUnderflow := h.noUnderflow

/-- A worker's step from one place of its code to another, with the mutex as it was. -/
theorem Inv.move (h : Inv as s) (hquiet : calls [a] = [])
    (hlocked : worker.locked ↔ (s.workers w).locked)
    (hhand : worker.inHand = (s.workers w).inHand) (hknows : worker.Knows s.jobs s.stopAll) :
    Inv (as ++ [a]) (s.setWorker w worker) := by
  have hother := holds_of_ne_worker s.workers s.callers w worker
  have hself := (holds_worker s.workers s.callers w worker).trans hlocked
  exact h.turn hquiet (h.mutex.keep hother hself) hhand hknows

/-- A worker's step that takes the mutex. -/
theorem Inv.acquire (h : Inv as s) (hquiet : calls [a] = []) (hfree : s.jobMutex = none)
    (hlocked : worker.locked) (hhand : worker.inHand = (s.workers w).inHand)
    (hknows : worker.Knows s.jobs s.stopAll) :
    Inv (as ++ [a]) { s.setWorker w worker with jobMutex := some (.inl w) } := by
  have hmutex := h.mutex
  rw [hfree] at hmutex
  have hother := holds_of_ne_worker s.workers s.callers w worker
  have hself := (holds_worker s.workers s.callers w worker).mpr hlocked
  exact h.turn hquiet (hmutex.acquire hother hself) hhand hknows

/-- A worker's step that gives the mutex back. -/
theorem Inv.release (h : Inv as s) (hquiet : calls [a] = []) (hheld : (s.workers w).locked)
    (hlocked : ¬ worker.locked) (hhand : worker.inHand = (s.workers w).inHand)
    (hknows : worker.Knows s.jobs s.stopAll) :
    Inv (as ++ [a]) { s.setWorker w worker with jobMutex := none } := by
  have hother := holds_of_ne_worker s.workers s.callers w worker
  have hself := mt (holds_worker s.workers s.callers w worker).mp hlocked
  have hinside : Holds s.workers s.callers (.inl w) := hheld
  exact h.turn hquiet (h.mutex.release hinside hother hself) hhand hknows

/-- A caller's step that leaves the queue, the flag and the logs as they are. -/
theorem Inv.callerTurn (h : Inv as s) (hopen : s.stopAll = false)
    (hmutex : Exclusive (Holds s.workers (Function.update s.callers c caller)) owner)
    (hself : ofThread c (calls (as ++ [a])) = ofThread c s.pushed ++ caller.inHand)
    (hother : ∀ d, d ≠ c → ofThread d (calls (as ++ [a])) = ofThread d (calls as)) :
    Inv (as ++ [a]) { s.setCaller c caller with jobMutex := owner } where
  mutex := hmutex
  knows := h.knows
  fifo := h.fifo
  taken := h.taken
  called := forall_callers
    (P := fun d x => ofThread d (calls (as ++ [a])) = ofThread d s.pushed ++ x.inHand) hself
    fun d hd => (hother d hd).trans (h.called d)
  closed := fun hstop => absurd (hstop.symm.trans hopen) (by decide)
  noUnderflow := h.noUnderflow

/-- The same for a step that is not the call itself: the job stays in hand. -/
theorem Inv.callerMove (h : Inv as s) (hquiet : calls [a] = []) (hopen : s.stopAll = false)
    (hmutex : Exclusive (Holds s.workers (Function.update s.callers c caller)) owner)
    (hhand : caller.inHand = (s.callers c).inHand) :
    Inv (as ++ [a]) { s.setCaller c caller with jobMutex := owner } := by
  have hcalls := calls_quiet as hquiet
  refine h.callerTurn hopen hmutex ?_ fun d _ => by rw [hcalls]
  rw [hcalls, h.called c, hhand]

/-- During a call the flag is not set. -/
theorem Inv.open_of_busy (h : Inv as s) (hbusy : s.callers c ≠ .idle) : s.stopAll = false := by
  rw [← Bool.not_eq_true]
  exact fun hstop => hbusy (h.closed hstop c)

/-! ## Steps that change the queue or the flag -/

/-- A thread inside the critical section excludes all workers. -/
theorem Inv.excludes (h : Inv as s) {t : Fin n ⊕ Fin m} (ht : Holds s.workers s.callers t)
    (hw : t ≠ .inl w) : ¬ (s.workers w).locked := by
  intro hlocked
  have hholds : Holds s.workers s.callers (.inl w) := hlocked
  exact hw (h.mutex.unique ht hholds)

theorem Inv.push (h : Inv as s) (hopen : s.stopAll = false) {job : J}
    (hcaller : s.callers c = .pushing job) :
    Inv (as ++ [.proceed c]) { s.setCaller c .unlocking with
      jobs := s.jobs ++ [job], pushed := s.pushed ++ [(c, job)] } := by
  have hinside : Holds s.workers s.callers (.inr c) := by
    rw [Holds, hcaller]
    trivial
  have hlocked : (Caller.unlocking : Caller J).locked ↔ (s.callers c).locked := by
    rw [hcaller]
    exact Iff.rfl
  have hquiet : calls [(PoolAction.proceed c : PoolAction n m J)] = [] := rfl
  have hhand := h.called c
  rw [hcaller] at hhand
  exact {
    mutex := h.mutex.keep (holds_of_ne_caller s.workers s.callers c _)
      ((holds_caller s.workers s.callers c _).trans hlocked)
    knows := fun w => by
      -- no worker is inside, and the flag is not set
      refine (h.knows w).unlocked (h.excludes hinside (by simp)) fun hstop => ?_
      rw [hopen] at hstop
      cases hstop
    fifo := by
      show s.popped.map Prod.snd ++ (s.jobs ++ [job]) = (s.pushed ++ [(c, job)]).map Prod.snd
      rw [← List.append_assoc, h.fifo, List.map_append, List.map_singleton]
    taken := h.taken
    called := by
      rw [calls_quiet as hquiet]
      refine forall_callers
        (P := fun d x => ofThread d (calls as) = ofThread d (s.pushed ++ [(c, job)]) ++ x.inHand)
        ?_ fun d hd => ?_
      · rw [ofThread_self, hhand]
        exact (List.append_nil _).symm
      · rw [ofThread_other hd]
        exact h.called d
    closed := fun hstop => absurd (hstop.symm.trans hopen) (by decide)
    noUnderflow := h.noUnderflow }

theorem Inv.pop (h : Inv as s) {job : J} {rest : List J} (hworker : s.workers w = .popping)
    (hjobs : s.jobs = job :: rest) :
    Inv (as ++ [.work w]) { s.setWorker w (.unlocking job) with
      jobs := rest, popped := s.popped ++ [(w, job)] } := by
  have hinside : Holds s.workers s.callers (.inl w) := by
    rw [Holds, hworker]
    trivial
  have hlocked : (Worker.unlocking job).locked ↔ (s.workers w).locked := by
    rw [hworker]
    exact Iff.rfl
  have hquiet : calls [(PoolAction.work w : PoolAction n m J)] = [] := rfl
  have htaken := h.taken w
  rw [hworker] at htaken
  exact {
    mutex := h.mutex.keep (holds_of_ne_worker s.workers s.callers w _)
      ((holds_worker s.workers s.callers w _).trans hlocked)
    knows := by
      refine forall_workers (P := fun _ x => x.Knows rest s.stopAll) trivial fun v hv => ?_
      have hne : (Sum.inl w : Fin n ⊕ Fin m) ≠ .inl v := fun h => hv (Sum.inl.inj h).symm
      -- the others are outside the lock, so what they know does not speak of the queue
      refine (h.knows v).unlocked (h.excludes hinside hne) fun _ hempty => ?_
      rw [hjobs] at hempty
      cases hempty
    fifo := by
      -- the job moves from the front of the queue to the end of the log
      have hfifo := h.fifo
      rw [hjobs] at hfifo
      show (s.popped ++ [(w, job)]).map Prod.snd ++ rest = s.pushed.map Prod.snd
      rw [List.map_append, List.append_assoc]
      exact hfifo
    taken := by
      refine forall_workers
        (P := fun v x => ofThread v (s.popped ++ [(w, job)]) = ofThread v s.ran ++ x.inHand)
        ?_ fun v hv => ?_
      · rw [ofThread_self, htaken]
        exact congrArg (· ++ [job]) (List.append_nil _)
      · rw [ofThread_other hv]
        exact h.taken v
    called := by
      rw [calls_quiet as hquiet]
      exact h.called
    closed := h.closed
    noUnderflow := h.noUnderflow }

theorem Inv.run (h : Inv as s) {job : J} (hworker : s.workers w = .running job) :
    Inv (as ++ [.work w]) { s.setWorker w .locking with ran := s.ran ++ [(w, job)] } := by
  have hlocked : (Worker.locking : Worker J).locked ↔ (s.workers w).locked := by
    rw [hworker]
    exact Iff.rfl
  have hquiet : calls [(PoolAction.work w : PoolAction n m J)] = [] := rfl
  have htaken := h.taken w
  rw [hworker] at htaken
  exact {
    mutex := h.mutex.keep (holds_of_ne_worker s.workers s.callers w _)
      ((holds_worker s.workers s.callers w _).trans hlocked)
    knows := forall_workers (P := fun _ x => x.Knows s.jobs s.stopAll) trivial fun v _ => h.knows v
    fifo := h.fifo
    taken := by
      refine forall_workers
        (P := fun v x => ofThread v s.popped = ofThread v (s.ran ++ [(w, job)]) ++ x.inHand)
        ?_ fun v hv => ?_
      -- popped before, run now: the job is no longer in the worker's hand
      · rw [ofThread_self, htaken]
        exact (List.append_nil _).symm
      · rw [ofThread_other hv]
        exact h.taken v
    called := by
      rw [calls_quiet as hquiet]
      exact h.called
    closed := h.closed
    noUnderflow := h.noUnderflow }

theorem Inv.stop (h : Inv as s) (hidle : ∀ c, s.callers c = .idle) :
    Inv (as ++ [.stop]) { s with stopAll := true } where
  mutex := h.mutex
  knows := fun w => by
    have hknows := h.knows w
    show (s.workers w).Knows s.jobs true
    cases hworker : s.workers w with
    | exitStop => exact Or.inr rfl
    | exitEmpty => exact rfl
    | returned =>
      rw [hworker] at hknows
      exact ⟨hknows.1, rfl⟩
    | predicateStop | popping =>
      rw [hworker] at hknows
      exact hknows
    | locking | predicate | waiting | relocking | unlocking | running => trivial
  fifo := h.fifo
  taken := h.taken
  called := by
    rw [calls_quiet as rfl]
    exact h.called
  closed := fun _ => hidle
  noUnderflow := h.noUnderflow

/-! ## Every step -/

theorem Inv.work (h : Inv as s) (hwork : s.work w = some s') : Inv (as ++ [.work w]) s' := by
  have hquiet : calls [(PoolAction.work w : PoolAction n m J)] = [] := rfl
  have hknown := h.knows w
  cases work_step hwork with
  | acquire hfree hhand => exact h.acquire hquiet hfree trivial hhand trivial
  | move hin hstays hhand hknows =>
    exact h.move hquiet (iff_of_true hstays hin) hhand (hknows hknown)
  | release hin hout hhand hknows _ => exact h.release hquiet hin hout hhand (hknows hknown)
  | underflow hworker hjobs =>
    -- the worker knows that the queue is not empty
    rw [hworker] at hknown
    exact absurd hjobs hknown
  | pop hworker hjobs => exact h.pop hworker hjobs
  | run hworker => exact h.run hworker

/-- One step of a call, place by place. -/
theorem Inv.proceed (h : Inv as s) (hproceed : s.proceed c = some s') :
    Inv (as ++ [.proceed c]) s' := by
  have hquiet : calls [(PoolAction.proceed c : PoolAction n m J)] = [] := rfl
  have hother (caller : Caller J) := holds_of_ne_caller s.workers s.callers c caller
  have hself (caller : Caller J) := holds_caller s.workers s.callers c caller
  unfold HSThreadPool.proceed at hproceed
  by_cases hidle : s.callers c = .idle
  · rw [hidle] at hproceed
    cases hproceed
  have hopen := h.open_of_busy hidle
  cases hcaller : s.callers c with
  | idle => exact absurd hcaller hidle
  | checking job =>
    -- the destructor has not started, so the test passes
    rw [hcaller, hopen] at hproceed
    obtain rfl := Option.some.inj hproceed
    have hlocked : (Caller.locking job).locked ↔ (s.callers c).locked := by
      rw [hcaller]
      exact Iff.rfl
    exact h.callerMove hquiet hopen (h.mutex.keep (hother _) ((hself _).trans hlocked))
      (by rw [hcaller]; rfl)
  | locking job =>
    rw [hcaller] at hproceed
    obtain ⟨hfree, rfl⟩ := guarded_step hproceed
    have hmutex := h.mutex
    rw [hfree] at hmutex
    exact h.callerMove hquiet hopen (hmutex.acquire (hother _) ((hself _).mpr trivial))
      (by rw [hcaller]; rfl)
  | pushing job =>
    rw [hcaller] at hproceed
    obtain rfl := Option.some.inj hproceed
    exact h.push hopen hcaller
  | unlocking =>
    rw [hcaller] at hproceed
    obtain rfl := Option.some.inj hproceed
    have hinside : Holds s.workers s.callers (.inr c) := by
      rw [Holds, hcaller]
      trivial
    have hfree := mt (hself .notifying).mp fun h => h
    exact h.callerMove hquiet hopen (h.mutex.release hinside (hother _) hfree)
      (by rw [hcaller]; rfl)
  | notifying =>
    rw [hcaller] at hproceed
    obtain rfl := Option.some.inj hproceed
    have hlocked : (Caller.idle : Caller J).locked ↔ (s.callers c).locked := by
      rw [hcaller]
      exact Iff.rfl
    exact h.callerMove hquiet hopen (h.mutex.keep (hother _) ((hself _).trans hlocked))
      (by rw [hcaller]; rfl)
  | threw e =>
    rw [hcaller] at hproceed
    cases hproceed

theorem Inv.call {job : J} (h : Inv as s) (hopen : s.stopAll = false)
    (hcaller : s.callers c = .idle) :
    Inv (as ++ [.call c job]) (s.setCaller c (.checking job)) := by
  have hcalls : calls (as ++ [.call c job]) = calls as ++ [(c, job)] := calls_concat ..
  have hlocked : (Caller.checking job).locked ↔ (s.callers c).locked := by
    rw [hcaller]
    exact Iff.rfl
  have hcalled := h.called c
  rw [hcaller] at hcalled
  refine h.callerTurn hopen (h.mutex.keep (holds_of_ne_caller s.workers s.callers c _)
    ((holds_caller s.workers s.callers c _).trans hlocked)) ?_ fun d hd => ?_
  · rw [hcalls, ofThread_self, hcalled]
    exact congrArg (· ++ [job]) (List.append_nil _)
  · rw [hcalls, ofThread_other hd]

/-- **Step lemma.** -/
theorem Inv.step (h : Inv as s) (hok : s.BeforeStop a) (hstep : s.step a = some s') :
    Inv (as ++ [a]) s' := by
  cases a with
  | work w => exact h.work hstep
  | wake w =>
    simp only [HSThreadPool.step] at hstep
    split at hstep
    · rename_i hworker
      obtain rfl := Option.some.inj hstep
      exact h.move rfl (by rw [hworker]; exact Iff.rfl) (by rw [hworker]; rfl) trivial
    · cases hstep
  | call c job =>
    simp only [HSThreadPool.step] at hstep
    split at hstep
    · rename_i hcaller
      obtain rfl := Option.some.inj hstep
      exact h.call hok hcaller
    · cases hstep
  | proceed c => exact h.proceed hstep
  | stop =>
    obtain rfl := Option.some.inj hstep
    exact h.stop hok

theorem inv_start : Inv [] ({} : HSThreadPool n m J) where
  mutex := by
    rintro (w | c)
    · exact iff_of_false (fun h => h) fun h => nomatch h
    · exact iff_of_false (fun h => h) fun h => nomatch h
  knows := fun _ => trivial
  fifo := rfl
  taken := fun _ => rfl
  called := fun _ => rfl
  closed := fun h => nomatch h
  noUnderflow := rfl

/-- **Run lemma.** -/
theorem inv_of_run (hrun : Run HSThreadPool.step BeforeStop ({} : HSThreadPool n m J) as s) :
    Inv as s :=
  hrun.history (I := Inv) (fun _ _ _ _ h hok hstep => h.step hok hstep) inv_start

/-- When all workers have returned, nothing is left to do. -/
theorem Inv.all_returned (h : Inv as s) (hn : 0 < n) (hreturned : ∀ w, s.workers w = .returned) :
    s.jobs = [] ∧ (∀ c, ofThread c s.pushed = ofThread c (calls as)) ∧
      (∀ w, ofThread w s.ran = ofThread w s.popped) ∧
      (s.ran.map Prod.snd).Perm ((calls as).map Prod.snd) := by
  -- what the first worker knew when it returned
  have hknows := h.knows ⟨0, hn⟩
  rw [hreturned] at hknows
  obtain ⟨hempty, hstop⟩ := hknows
  have hpushed : ∀ c, ofThread c s.pushed = ofThread c (calls as) := by
    intro c
    rw [h.called c, h.closed hstop c]
    exact (List.append_nil _).symm
  have hran : ∀ w, ofThread w s.ran = ofThread w s.popped := by
    intro w
    rw [h.taken w, hreturned w]
    exact (List.append_nil _).symm
  refine ⟨hempty, hpushed, hran, ?_⟩
  have hfifo : s.popped.map Prod.snd = s.pushed.map Prod.snd := by
    rw [← h.fifo, hempty, List.append_nil]
  have hranPopped := (perm_of_ofThread_eq hran).map Prod.snd
  rw [hfifo] at hranPopped
  exact hranPopped.trans ((perm_of_ofThread_eq hpushed).map Prod.snd)

/-- **Every job runs once.** For any number of workers but none, any threads that call
`EnqueueJob` any number of times before the destructor starts, and any interleaving: nothing
is popped from an empty queue; the pops, each by one worker, give the jobs in the order of
the pushes, which keeps the order of each thread's calls; a worker runs what it pops, once
and in order; and when all workers have returned, the queue is empty, every call has pushed
its job, and the jobs that have run are those of the calls. -/
theorem jobs_run_once (hn : 0 < n)
    (hrun : Run HSThreadPool.step BeforeStop ({} : HSThreadPool n m J) as s) :
    s.underflow = false ∧
    s.popped.map Prod.snd ++ s.jobs = s.pushed.map Prod.snd ∧
    (∀ c, ofThread c (calls as) = ofThread c s.pushed ++ (s.callers c).inHand) ∧
    (∀ w, ofThread w s.popped = ofThread w s.ran ++ (s.workers w).inHand) ∧
    ((∀ w, s.workers w = .returned) → s.jobs = [] ∧
      (∀ c, ofThread c s.pushed = ofThread c (calls as)) ∧
      (∀ w, ofThread w s.ran = ofThread w s.popped) ∧
      (s.ran.map Prod.snd).Perm ((calls as).map Prod.snd)) := by
  have hinv := inv_of_run hrun
  exact ⟨hinv.noUnderflow, hinv.fifo, hinv.called, hinv.taken, hinv.all_returned hn⟩

/-- Two workers and one calling thread: a worker waits, is woken for the first job and runs
it while the other takes the second one, and both return after the flag is set. -/
def twoJobs : List (PoolAction 2 1 Nat) :=
  [.work 0, .work 0, .work 0, .call 0 7, .proceed 0, .proceed 0, .proceed 0, .proceed 0, .proceed 0,
    .wake 0, .work 0, .work 0, .call 0 8, .work 0, .work 0, .work 0, .proceed 0, .proceed 0,
    .proceed 0, .proceed 0, .proceed 0, .work 1, .work 1, .stop, .work 1, .work 1, .work 1,
    .work 1, .work 0, .work 1] ++
    [.work 0, .work 0, .work 0, .work 0, .work 0, .work 1, .work 1, .work 1, .work 1, .work 1]

theorem jobs_run_once_twoJobs :
    ∃ s, Run HSThreadPool.step BeforeStop {} twoJobs s ∧ s.jobs = [] ∧
      (s.ran.map Prod.snd).Perm [7, 8] := by
  obtain ⟨s, hrun, hend⟩ := exists_run_of_exec HSThreadPool.step BeforeStop {} twoJobs
    (fun s => decide (∀ w, s.workers w = .returned)) (by decide)
  obtain ⟨-, -, -, -, hall⟩ := jobs_run_once (by decide) hrun
  obtain ⟨hempty, -, -, hperm⟩ := hall (of_decide_eq_true hend)
  exact ⟨s, hrun, hempty, hperm⟩

end Step

end HSThreadPool

end BoostChat.Server
