import Mathlib.Logic.Function.Basic
import BoostChat.Lib.Transition
import BoostChat.Server.UserSession

/-!
# The two message queues of a session

`UserSession` keeps two queues and two pointers to them. The io thread pushes onto the
queue that `m_InputQueue` points to; the server's thread takes from the one that
`m_OutputQueue` points to, and swaps the pointers when it finds that one empty. Only the
swap is under the lock.

* `SwapQueue` — the state, with the position of both threads in their code, and
  `SwapQueue.step` one atomic step of one of them;
* `SwapQueue.Inv` — the invariant. A swap between the fetch of the pointer and the push
  leaves the io thread with a pointer to the output queue; the input queue is then empty,
  so the push still goes to the end;
* `swapQueue_fifo` — whatever the interleaving, the queues are one FIFO queue;
* `getMessage_uninterrupted` — a call that no push interrupts is
  `UserSession.getMessageInUserQueue`.

The messages are any type: `ReadBody` pushes pointers from `make_shared`, so the front of
a queue is never a null pointer.
-/

namespace BoostChat.Server

open Lib

/-- What `m_InputQueue` and `m_OutputQueue` point to. -/
inductive QueueId
  | messageQueue1
  | messageQueue2
deriving DecidableEq

def QueueId.other : QueueId → QueueId
  | .messageQueue1 => .messageQueue2
  | .messageQueue2 => .messageQueue1

@[simp] theorem QueueId.other_ne (q : QueueId) : q.other ≠ q := by
  cases q <;> decide

@[simp] theorem QueueId.other_other (q : QueueId) : q.other.other = q := by
  cases q <;> rfl

theorem QueueId.eq_other {q q' : QueueId} (h : q ≠ q') : q = q'.other := by
  cases q <;> cases q' <;> first | rfl | exact absurd rfl h

/-- Where the server's thread is in `GetMessageInUserQueue`. -/
inductive Consumer (M : Type*)
  | idle
  /-- The output queue was found empty; `SwapQueues` is next. -/
  | swapping
  /-- `front` is next. -/
  | front
  /-- `front` gave the message; `pop` is next. -/
  | popping (msg : M)
  /-- `SwapQueues` returned `false`. -/
  | failed
deriving DecidableEq

structure SwapQueue (M : Type*) where
  queues : QueueId → List M := fun _ => []
  /-- `m_InputQueue`; `m_OutputQueue` points to the other queue. -/
  input : QueueId := .messageQueue1
  /-- The pointer that the io thread has fetched, and the message it is about to push. -/
  reader : Option (QueueId × M) := none
  consumer : Consumer M := .idle
  /-- The messages pushed so far, in order. -/
  pushed : List M := []
  /-- The messages returned so far, in order. -/
  returned : List M := []
  /-- How many pushes were complete when the latest call began. -/
  begun : Nat := 0

inductive SwapQueueAction (M : Type*)
  | fetch (msg : M)
  | push
  | test
  | swap
  | front
  | pop
  | returnNull
deriving DecidableEq

namespace SwapQueue

variable {M : Type*}

def inputQueue (s : SwapQueue M) : List M := s.queues s.input

def outputQueue (s : SwapQueue M) : List M := s.queues s.input.other

/-- One atomic step of `ReadBody` (`fetch`, `push`) or of `GetMessageInUserQueue`. -/
def step (s : SwapQueue M) : SwapQueueAction M → Option (SwapQueue M)
  -- `m_InputQueue` is read before `push` runs, without the lock
  | .fetch msg =>
    match s.reader with
    | none => some { s with reader := some (s.input, msg) }
    | some _ => none
  | .push =>
    match s.reader with
    | some (q, msg) =>
      some { s with
        queues := Function.update s.queues q (s.queues q ++ [msg])
        reader := none
        pushed := s.pushed ++ [msg] }
    | none => none
  | .test =>
    match s.consumer with
    | .idle =>
      some { s with
        consumer := if s.outputQueue.isEmpty then .swapping else .front
        begun := s.pushed.length }
    | _ => none
  | .swap =>
    match s.consumer with
    | .swapping =>
      -- the test that `SwapQueues` makes again under the lock
      if s.outputQueue.isEmpty && !s.inputQueue.isEmpty then
        some { s with input := s.input.other, consumer := .front }
      else some { s with consumer := .failed }
    | _ => none
  | .front =>
    match s.consumer, s.outputQueue with
    | .front, msg :: _ => some { s with consumer := .popping msg }
    | _, _ => none
  | .pop =>
    match s.consumer, s.outputQueue with
    | .popping msg, _ :: rest =>
      some { s with
        queues := Function.update s.queues s.input.other rest
        consumer := .idle
        returned := s.returned ++ [msg] }
    | _, _ => none
  | .returnNull =>
    match s.consumer with
    | .failed => some { s with consumer := .idle }
    | _ => none

/-- What the server's thread knows at each place of its code. -/
def Knows (s : SwapQueue M) : Consumer M → Prop
  | .idle => True
  | .swapping => s.outputQueue = [] ∨ s.begun ≤ s.returned.length
  | .front => s.outputQueue ≠ []
  | .popping msg => s.outputQueue.head? = some msg
  | .failed => s.begun ≤ s.returned.length

structure Inv (s : SwapQueue M) : Prop where
  fifo : s.returned ++ (s.outputQueue ++ s.inputQueue) = s.pushed
  /-- A pointer fetched before the latest swap. -/
  stale : ∀ q msg, s.reader = some (q, msg) → q ≠ s.input → s.inputQueue = []
  begun : s.begun ≤ s.pushed.length
  consumer : s.Knows s.consumer

variable {s s' : SwapQueue M} {a : SwapQueueAction M}

/-- What the thread knows does not depend on the other thread's data. -/
theorem Knows.congr {c : Consumer M} (h : s.Knows c) (hout : s'.outputQueue = s.outputQueue)
    (hbegun : s'.begun = s.begun) (hreturned : s'.returned = s.returned) : s'.Knows c := by
  cases c with
  | idle => trivial
  | swapping => rwa [Knows, hout, hbegun, hreturned]
  | front => rwa [Knows, hout]
  | popping msg => rwa [Knows, hout]
  | failed => rwa [Knows, hbegun, hreturned]

/-! ## The steps of the io thread -/

/-- A push goes to the input queue, or through an old pointer to the output queue. -/
theorem push_cases (h : s.step .push = some s') : ∃ q msg, s.reader = some (q, msg) ∧
    s' = { s with queues := Function.update s.queues q (s.queues q ++ [msg])
                  reader := none
                  pushed := s.pushed ++ [msg] } ∧
    ((q = s.input ∧ s'.inputQueue = s.inputQueue ++ [msg] ∧ s'.outputQueue = s.outputQueue) ∨
      (q ≠ s.input ∧ s'.inputQueue = s.inputQueue ∧
        s'.outputQueue = s.outputQueue ++ [msg])) := by
  simp only [step] at h
  split at h
  · rename_i q msg hreader
    obtain rfl := Option.some.inj h
    refine ⟨q, msg, hreader, rfl, ?_⟩
    by_cases hq : q = s.input
    · subst hq
      refine Or.inl ⟨rfl, Function.update_self .., ?_⟩
      exact Function.update_of_ne (QueueId.other_ne _) ..
    · obtain rfl := QueueId.eq_other hq
      refine Or.inr ⟨hq, ?_, Function.update_self ..⟩
      exact Function.update_of_ne (QueueId.other_ne _).symm ..
  · cases h

theorem Inv.push (h : Inv s) (hpush : s.step .push = some s') : Inv s' := by
  obtain ⟨q, msg, hreader, hs', hqueues⟩ := push_cases hpush
  have hnone : s'.reader = none := by rw [hs']
  have hreturned : s'.returned = s.returned := by rw [hs']
  have hpushed : s'.pushed = s.pushed ++ [msg] := by rw [hs']
  have hbegun : s'.begun = s.begun := by rw [hs']
  have hconsumer : s'.consumer = s.consumer := by rw [hs']
  refine ⟨?_, ?_, ?_, ?_⟩
  · rw [hreturned, hpushed, ← h.fifo]
    rcases hqueues with ⟨-, hin, hout⟩ | ⟨hq, hin, hout⟩
    · simp only [hin, hout, List.append_assoc]
    · -- the pointer is old, so nothing waits behind the end of the output queue
      rw [hin, hout, h.stale q msg hreader hq]
      simp only [List.append_assoc, List.append_nil]
  · intro q' msg' hreader'
    rw [hnone] at hreader'
    cases hreader'
  · rw [hbegun, hpushed, List.length_append]
    exact Nat.le_add_right_of_le h.begun
  · rw [hconsumer]
    have hknows := h.consumer
    rcases hqueues with ⟨-, hin, hout⟩ | ⟨hq, hin, hout⟩
    · exact hknows.congr hout hbegun hreturned
    · cases hc : s.consumer with
      | idle => trivial
      | swapping =>
        rw [hc] at hknows
        right
        rw [hbegun, hreturned]
        rcases hknows with hnil | hle
        · -- both queues were empty: everything pushed had been returned
          have hall := h.fifo
          rw [hnil, h.stale q msg hreader hq, List.append_nil, List.append_nil] at hall
          rw [hall]
          exact h.begun
        · exact hle
      | front => simp [Knows, hout]
      | popping m =>
        rw [hc] at hknows
        rw [Knows, hout, List.head?_append, show s.outputQueue.head? = some m from hknows]
        rfl
      | failed =>
        rw [hc] at hknows
        rwa [Knows, hbegun, hreturned]

theorem Inv.fetch {msg : M} (h : Inv s) (hfetch : s.step (.fetch msg) = some s') : Inv s' := by
  simp only [step] at hfetch
  split at hfetch
  · obtain rfl := Option.some.inj hfetch
    refine ⟨h.fifo, fun q msg hreader hq => ?_, h.begun, ?_⟩
    · -- the pointer is fresh
      obtain ⟨rfl, -⟩ := Prod.mk.inj (Option.some.inj hreader)
      exact absurd rfl hq
    · exact h.consumer.congr rfl rfl rfl
  · cases hfetch

/-! ## The steps of the server's thread -/

theorem Inv.test (h : Inv s) (htest : s.step .test = some s') : Inv s' := by
  simp only [step] at htest
  split at htest
  · obtain rfl := Option.some.inj htest
    refine ⟨h.fifo, h.stale, Nat.le_refl _, ?_⟩
    by_cases hempty : s.outputQueue = []
    · rw [if_pos (List.isEmpty_iff.mpr hempty)]
      exact Or.inl hempty
    · rw [if_neg (mt List.isEmpty_iff.mp hempty)]
      exact hempty
  · cases htest

theorem Inv.swap (h : Inv s) (hswap : s.step .swap = some s') : Inv s' := by
  simp only [step] at hswap
  split at hswap
  · rename_i hconsumer
    have hknows := h.consumer
    rw [hconsumer] at hknows
    have hfifo := h.fifo
    split at hswap
    · rename_i hguard
      obtain rfl := Option.some.inj hswap
      rw [Bool.and_eq_true, List.isEmpty_iff, Bool.not_eq_true', List.isEmpty_eq_false_iff]
        at hguard
      obtain ⟨hout, hin⟩ := hguard
      -- a pointer fetched before is old now, but the new input queue is the empty one
      refine ⟨?_, fun _ _ _ _ => hout, h.begun, ?_⟩
      · rw [hout, List.nil_append] at hfifo
        show s.returned ++ (s.queues s.input.other.other ++ s.outputQueue) = s.pushed
        rw [QueueId.other_other, hout, List.append_nil]
        exact hfifo
      · show s.queues s.input.other.other ≠ []
        rwa [QueueId.other_other]
    · rename_i hguard
      obtain rfl := Option.some.inj hswap
      refine ⟨hfifo, h.stale, h.begun, ?_⟩
      show s.begun ≤ s.returned.length
      rcases hknows with hout | hle
      · -- the swap was refused because nothing waits at all
        have hin : s.inputQueue = [] := by simpa [hout] using hguard
        rw [hout, hin, List.append_nil, List.append_nil] at hfifo
        rw [hfifo]
        exact h.begun
      · exact hle
  · cases hswap

theorem Inv.front (h : Inv s) (hfront : s.step .front = some s') : Inv s' := by
  simp only [step] at hfront
  split at hfront
  · rename_i msg rest hconsumer hout
    obtain rfl := Option.some.inj hfront
    refine ⟨h.fifo, h.stale, h.begun, ?_⟩
    show s.outputQueue.head? = some msg
    rw [hout, List.head?_cons]
  · cases hfront

theorem Inv.pop (h : Inv s) (hpop : s.step .pop = some s') : Inv s' := by
  simp only [step] at hpop
  split at hpop
  · rename_i msg first rest hconsumer hout
    obtain rfl := Option.some.inj hpop
    have hknows := h.consumer
    have hfifo := h.fifo
    rw [hconsumer, Knows, hout, List.head?_cons, Option.some.injEq] at hknows
    have hin : Function.update s.queues s.input.other rest s.input = s.inputQueue :=
      Function.update_of_ne (QueueId.other_ne _).symm ..
    refine ⟨?_, fun q m hreader hq => hin.trans (h.stale q m hreader hq), h.begun, trivial⟩
    show s.returned ++ [msg] ++ (Function.update s.queues s.input.other rest s.input.other ++
      Function.update s.queues s.input.other rest s.input) = s.pushed
    -- the message that `front` gave is the one that `pop` removes
    rw [hin, Function.update_self, ← hfifo, hout, hknows]
    simp
  · cases hpop

theorem Inv.returnNull (h : Inv s) (hreturn : s.step .returnNull = some s') : Inv s' := by
  simp only [step] at hreturn
  split at hreturn
  · obtain rfl := Option.some.inj hreturn
    exact ⟨h.fifo, h.stale, h.begun, trivial⟩
  · cases hreturn

/-- **Step lemma.** -/
theorem inv_step (h : Inv s) (hstep : s.step a = some s') : Inv s' := by
  cases a with
  | fetch msg => exact h.fetch hstep
  | push => exact h.push hstep
  | test => exact h.test hstep
  | swap => exact h.swap hstep
  | front => exact h.front hstep
  | pop => exact h.pop hstep
  | returnNull => exact h.returnNull hstep

theorem inv_of_run {as : List (SwapQueueAction M)} (hrun : Run step anyStep {} as s) : Inv s :=
  hrun.invariant (fun _ _ _ h _ hstep => inv_step h hstep)
    ⟨rfl, fun _ _ _ _ => rfl, Nat.le_refl _, trivial⟩

/-! ## Main results -/

/-- **The two queues are one FIFO queue, for every interleaving.** What has been returned
and what the two queues hold, output queue first, is exactly what has been pushed, in order;
so the returned messages are a prefix of the pushed ones. A call returns `nullptr` only if
all messages whose pushes were complete when it began have been returned, and neither
`front` nor `pop` meets an empty queue. -/
theorem swapQueue_fifo {as : List (SwapQueueAction M)} (hrun : Run step anyStep {} as s) :
    s.returned <+: s.pushed ∧
    s.returned ++ (s.outputQueue ++ s.inputQueue) = s.pushed ∧
    (∀ s', s.step .returnNull = some s' → s.pushed.take s.begun <+: s.returned) ∧
    ((s.consumer = .front ∨ ∃ msg, s.consumer = .popping msg) → s.outputQueue ≠ []) := by
  have h := inv_of_run hrun
  have hinitial : s.returned <+: s.pushed := ⟨_, h.fifo⟩
  have hknows := h.consumer
  refine ⟨hinitial, h.fifo, fun s' hreturn => ?_, ?_⟩
  · simp only [step] at hreturn
    split at hreturn
    · rename_i hfailed
      rw [hfailed] at hknows
      have htake := (List.prefix_iff_eq_take.mp hinitial)
      rw [htake]
      exact List.take_prefix_take_left hknows
    · cases hreturn
  · rintro (hfront | ⟨msg, hpopping⟩)
    · rw [hfront] at hknows
      exact hknows
    · rw [hpopping] at hknows
      intro hnil
      rw [Knows, hnil] at hknows
      cases hknows

/-- A swap falls between the fetch of the pointer and the push of the second message, and
a call that began before that push returns `nullptr`. -/
def lateSwap : List (SwapQueueAction ChatMessage) :=
  [.fetch { content := ascii "a" }, .push, .test, .fetch { content := ascii "b" }, .swap, .front,
    .pop, .test, .push, .swap, .returnNull, .test, .front, .pop]

theorem swapQueue_fifo_lateSwap :
    ∃ s : SwapQueue ChatMessage, s.returned = [{ content := ascii "a" }, { content := ascii "b" }] ∧
      s.returned <+: s.pushed := by
  obtain ⟨s, hrun, hs⟩ := exists_run_of_exec step anyStep {} lateSwap
    (fun s => decide (s.returned = [{ content := ascii "a" }, { content := ascii "b" }]))
    (by decide)
  exact ⟨s, of_decide_eq_true hs, (swapQueue_fifo hrun).1⟩

/-! ## Calls that nothing interrupts -/

/-- A session whose queues are these two. -/
def session (s : SwapQueue ChatMessage) (u : UserSession) : UserSession :=
  u.withQueues s.inputQueue s.outputQueue

/-- The steps of one call of `GetMessageInUserQueue` on the two queues as they are. -/
def callSteps (s : SwapQueue M) : List (SwapQueueAction M) :=
  if s.outputQueue = [] then
    if s.inputQueue = [] then [.test, .swap, .returnNull] else [.test, .swap, .front, .pop]
  else [.test, .front, .pop]

/-- The end of a call that has a message to return. -/
theorem run_front_pop {msg : M} {rest : List M} (hfront : s.consumer = .front)
    (hout : s.outputQueue = msg :: rest) :
    ∃ s', Run step anyStep s [.front, .pop] s' ∧ s'.consumer = .idle ∧
      s'.returned = s.returned ++ [msg] ∧ s'.outputQueue = rest ∧
      s'.inputQueue = s.inputQueue := by
  have hstep : s.step .front = some { s with consumer := .popping msg } := by
    simp only [step, hfront, hout]
  have hout' : { s with consumer := Consumer.popping msg }.outputQueue = msg :: rest := hout
  refine ⟨{ s with queues := Function.update s.queues s.input.other rest, consumer := .idle,
                   returned := s.returned ++ [msg] }, ?_, rfl, rfl, ?_, ?_⟩
  · refine Run.cons trivial hstep (Run.cons trivial ?_ (Run.nil _))
    simp only [step, hout']
  · exact Function.update_self ..
  · exact Function.update_of_ne (QueueId.other_ne _).symm ..

/-- **An uninterrupted call** does what `UserSession.getMessageInUserQueue` does. -/
theorem getMessage_uninterrupted (s : SwapQueue ChatMessage) (u : UserSession)
    (hidle : s.consumer = .idle) :
    ∃ s' msg, Run step anyStep s s.callSteps s' ∧ s'.consumer = .idle ∧
      s'.returned = s.returned ++ msg.toList ∧
      (s.session u).getMessageInUserQueue = (s'.session u, msg) := by
  by_cases hout : s.outputQueue = []
  · have htest : s.step .test =
        some { s with consumer := .swapping, begun := s.pushed.length } := by
      simp only [step, hidle, hout, List.isEmpty_nil, if_true]
    by_cases hin : s.inputQueue = []
    · have hswap : step { s with consumer := .swapping, begun := s.pushed.length } .swap =
          some { s with consumer := .failed, begun := s.pushed.length } := by
        simp [step, inputQueue, show s.queues s.input = [] from hin]
      refine ⟨{ s with consumer := .idle, begun := s.pushed.length }, none, ?_, rfl, ?_, ?_⟩
      · rw [callSteps, if_pos hout, if_pos hin]
        exact Run.cons trivial htest (Run.cons trivial hswap (Run.cons trivial rfl (Run.nil _)))
      · exact (List.append_nil _).symm
      · show (u.withQueues s.inputQueue s.outputQueue).getMessageInUserQueue =
          (u.withQueues s.inputQueue s.outputQueue, none)
        rw [hin, hout]
        rfl
    · obtain ⟨msg, rest, hcons⟩ := List.exists_cons_of_ne_nil hin
      have hswap : step { s with consumer := .swapping, begun := s.pushed.length } .swap =
          some { s with input := s.input.other, consumer := .front, begun := s.pushed.length } := by
        simp [step, inputQueue, outputQueue, show s.queues s.input = msg :: rest from hcons,
          show s.queues s.input.other = [] from hout]
      obtain ⟨s', hrun, hidle', hreturned, hout', hin'⟩ := run_front_pop (s := { s with
        input := s.input.other, consumer := .front, begun := s.pushed.length }) rfl
        (show s.queues s.input.other.other = msg :: rest by rwa [QueueId.other_other])
      refine ⟨s', some msg, ?_, hidle', hreturned, ?_⟩
      · rw [callSteps, if_pos hout, if_neg hin]
        exact Run.cons trivial htest (Run.cons trivial hswap hrun)
      · rw [session, session, hout', hin', hout, hcons]
        show _ = (u.withQueues s.outputQueue rest, some msg)
        rw [hout]
        rfl
  · obtain ⟨msg, rest, hcons⟩ := List.exists_cons_of_ne_nil hout
    have htest : s.step .test = some { s with consumer := .front, begun := s.pushed.length } := by
      simp [step, hidle, hcons]
    obtain ⟨s', hrun, hidle', hreturned, hout', hin'⟩ := run_front_pop (s := { s with
      consumer := .front, begun := s.pushed.length }) rfl hcons
    refine ⟨s', some msg, ?_, hidle', hreturned, ?_⟩
    · rw [callSteps, if_neg hout]
      exact Run.cons trivial htest hrun
    · rw [session, session, hout', hin', hcons]
      rfl

end SwapQueue

end BoostChat.Server
