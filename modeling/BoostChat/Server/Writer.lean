import BoostChat.Lib.Transition
import BoostChat.Server.PacketConverter

/-!
# Writing to the socket

The sending side of a `UserSession`. `Send` posts an `AsyncWrite` handler; the handler
fills the one write buffer of the session and starts an `async_write` on a view of it;
a write that is outstanding puts some more bytes of its view on the socket, whatever the
buffer holds by then.

* `Writer` — the state, and `Writer.step` the actions of the io thread;
* `WritesAlone` — the condition on a step: a handler runs only when no write is outstanding;
* `socket_prefix` — in a run whose steps all meet it, what is on the socket is a prefix of
  the frames in the order of the `Send` calls.

The converter is generic in the message type, and so is this module.
-/

namespace BoostChat.Server

open Lib

/-- An `async_write` that has not put all of its view on the socket. -/
structure WriteView where
  length : Nat
  written : Nat := 0
deriving DecidableEq

structure Writer (M : Type*) where
  /-- The arguments of the `Send` calls, in order. -/
  sent : List M := []
  /-- The messages of the posted handlers that have not run. -/
  handlers : List M := []
  /-- The storage of `m_Writebuf`, with what lies behind the end of the vector. -/
  storage : Bytes := []
  outstanding : List WriteView := []
  socket : Bytes := []

inductive WriterAction (M : Type*)
  | send (msg : M)
  | asyncWrite
  | put (index count : Nat)

namespace Writer

variable {M : Type*} (serialize : M → Bytes)

/-- `UserSession::AsyncWrite`. -/
def asyncWrite (w : Writer M) (msg : M) : Writer M :=
  let writebuf := writeFrame (serialize msg)
  { w with
    -- a shorter frame leaves the end of the longer one behind it
    storage := writebuf ++ w.storage.drop writebuf.length
    outstanding := w.outstanding ++ [{ length := writebuf.length }] }

/-- An outstanding write puts the next bytes of its view on the socket. -/
def put (w : Writer M) (index count : Nat) : Option (Writer M) :=
  match w.outstanding[index]? with
  | none => none
  | some view =>
    if 0 < count ∧ view.written + count ≤ view.length then
      some { w with
        -- the view shows what the buffer holds now
        socket := w.socket ++ (w.storage.drop view.written).take count
        outstanding :=
          if view.written + count = view.length then w.outstanding.eraseIdx index
          else w.outstanding.set index { view with written := view.written + count } }
    else none

def step (w : Writer M) : WriterAction M → Option (Writer M)
  | .send msg => some { w with sent := w.sent ++ [msg], handlers := w.handlers ++ [msg] }
  | .asyncWrite =>
    match w.handlers with
    | [] => none
    | msg :: handlers => some (({ w with handlers }).asyncWrite serialize msg)
  | .put index count => w.put index count

/-- A handler runs only when no write is outstanding. -/
def WritesAlone (w : Writer M) : WriterAction M → Prop
  | .asyncWrite => w.outstanding = []
  | _ => True

instance (w : Writer M) : (a : WriterAction M) → Decidable (WritesAlone w a)
  | .asyncWrite => inferInstanceAs (Decidable (w.outstanding = []))
  | .send _ | .put _ _ => isTrue trivial

/-- The frames of some messages, one after the other. -/
def frames (msgs : List M) : Bytes := (msgs.map fun msg => frame (serialize msg)).flatten

theorem frames_append (msgs more : List M) :
    frames serialize (msgs ++ more) = frames serialize msgs ++ frames serialize more := by
  rw [frames, List.map_append, List.flatten_append, frames, frames]

@[simp] theorem frames_singleton (msg : M) :
    frames serialize [msg] = frame (serialize msg) := by
  simp [frames]

/-- The messages up to some point are on the socket. Either nothing is outstanding, or
one write is, of the next message: the buffer begins with its frame, and the socket
ends with the part that is written. -/
inductive InOrder (w : Writer M) : Prop
  | idle {done : List M} (hidle : w.outstanding = []) (hsent : w.sent = done ++ w.handlers)
      (hsocket : w.socket = frames serialize done)
  | writing {done : List M} {msg : M} {v : WriteView} {rest : Bytes}
      (hone : w.outstanding = [v]) (hsent : w.sent = done ++ msg :: w.handlers)
      (hlength : v.length = (frame (serialize msg)).length)
      (hpart : v.written < v.length) (hstorage : w.storage = frame (serialize msg) ++ rest)
      (hsocket : w.socket = frames serialize done ++ (frame (serialize msg)).take v.written)

variable {serialize} {w w' : Writer M}

/-- In order, the socket holds a prefix of the frames. -/
theorem InOrder.isPrefix (h : InOrder serialize w) : w.socket <+: frames serialize w.sent := by
  cases h with
  | @idle done _ hsent hsocket =>
    rw [hsent, hsocket, frames_append]
    exact List.prefix_append ..
  | @writing done msg view rest _ hsent _ _ _ hsocket =>
    rw [hsent, hsocket, frames_append]
    refine (List.prefix_append_right_inj _).mpr ?_
    rw [← List.singleton_append, frames_append, frames_singleton]
    exact (List.take_prefix _ _).trans (List.prefix_append ..)

/-- Some more bytes of the one outstanding write. -/
theorem InOrder.put (h : InOrder serialize w) {index count : Nat}
    (hput : w.put index count = some w') : InOrder serialize w' := by
  unfold Writer.put at hput
  split at hput
  · cases hput
  · rename_i view hview
    obtain ⟨⟨-, hfits⟩, rfl⟩ := guarded_step hput
    cases h with
    | idle hidle =>
      rw [hidle] at hview
      cases hview
    | @writing done msg view' rest hone hsent hlength hpart hstorage hsocket =>
      -- there is only one write, so this is it
      rw [hone] at hview
      obtain ⟨rfl, rfl⟩ : index = 0 ∧ view' = view := by
        cases index with
        | zero => exact ⟨rfl, Option.some.inj hview⟩
        | succ index => cases hview
      have hbytes : (w.storage.drop view'.written).take count =
          ((frame (serialize msg)).drop view'.written).take count := by
        rw [hstorage, List.drop_append_of_le_length (by omega), List.take_append_of_le_length]
        rw [List.length_drop]
        omega
      have hsocket' : w.socket ++ (w.storage.drop view'.written).take count =
          frames serialize done ++ (frame (serialize msg)).take (view'.written + count) := by
        rw [hsocket, hbytes, List.append_assoc, ← List.take_add]
      by_cases hend : view'.written + count = view'.length
      · -- the write is complete, and its message is done
        refine .idle ?_ (hsent.trans (List.append_cons ..)) ?_
        · simp [hone, hend]
        · rw [frames_append, frames_singleton]
          refine hsocket'.trans ?_
          rw [hend, hlength, List.take_length]
      · have hmore : view'.written + count < view'.length := Nat.lt_of_le_of_ne hfits hend
        refine .writing (v := ⟨view'.length, view'.written + count⟩) ?_ hsent hlength hmore
          hstorage hsocket'
        simp [hone, hend]

/-- **Step lemma.** -/
theorem inOrder_step {a : WriterAction M} (h : InOrder serialize w) (hok : WritesAlone w a)
    (hstep : w.step serialize a = some w') : InOrder serialize w' := by
  cases a with
  | send msg =>
    rw [step, Option.some.injEq] at hstep
    subst hstep
    cases h with
    | idle hidle hsent hsocket => exact .idle hidle (by simp [hsent]) hsocket
    | writing hone hsent hlength hpart hstorage hsocket =>
      exact .writing hone (by simp [hsent]) hlength hpart hstorage hsocket
  | asyncWrite =>
    simp only [step] at hstep
    cases hhandlers : w.handlers with
    | nil =>
      rw [hhandlers] at hstep
      cases hstep
    | cons msg handlers =>
      simp only [hhandlers, Option.some.injEq] at hstep
      subst hstep
      cases h with
      | idle hidle hsent hsocket =>
        rw [hhandlers] at hsent
        have hstorage : writeFrame (serialize msg) ++
              w.storage.drop (writeFrame (serialize msg)).length =
            frame (serialize msg) ++ w.storage.drop (frame (serialize msg)).length := by
          rw [writeFrame_eq_frame]
        refine .writing (v := ⟨(frame (serialize msg)).length, 0⟩) ?_ hsent rfl ?_ hstorage ?_
        · simp [asyncWrite, hidle, writeFrame_eq_frame]
        · rw [frame_length]
          exact Nat.succ_pos _
        · simpa [asyncWrite] using hsocket
      | writing hone =>
        rw [WritesAlone, hone] at hok
        cases hok
  | put index count => exact h.put hstep

/-- **The socket carries the frames in order.** In a run in which every handler finds no
write outstanding, the bytes on the socket are a prefix of the concatenated frames, in
the order of the `Send` calls. -/
theorem socket_prefix {as : List (WriterAction M)}
    (hrun : Run (step serialize) WritesAlone {} as w) :
    w.socket <+: frames serialize w.sent :=
  (hrun.invariant (fun _ _ _ h hok hstep => inOrder_step h hok hstep)
    (.idle rfl (List.nil_append _).symm rfl)).isPrefix

/-- Two messages to one session, each sent when the socket has taken the one before. -/
def oneByOne : List (WriterAction ChatMessage) :=
  [.send { content := ascii "a" }, .send { content := ascii "b" }, .asyncWrite, .put 0 2, .put 0 5,
    .asyncWrite, .put 0 7]

theorem socket_prefix_oneByOne :
    ∃ w : Writer ChatMessage, w.socket.length = 14 ∧
      w.socket <+: frames ChatMessage.serialize w.sent := by
  obtain ⟨w, hrun, hw⟩ := exists_run_of_exec (step ChatMessage.serialize) WritesAlone {} oneByOne
    (fun w => decide (w.socket.length = 14)) (by decide)
  exact ⟨w, of_decide_eq_true hw, socket_prefix hrun⟩

/-- The same messages, when the second handler runs before the socket has taken a byte. -/
def twoAtOnce : List (WriterAction ChatMessage) :=
  [.send { content := ascii "a" }, .send { content := ascii "b" }, .asyncWrite, .asyncWrite,
    .put 0 7]

/-- The first write puts the second frame on the socket. -/
theorem twoAtOnce_overwrites :
    ∃ w : Writer ChatMessage, Run (step ChatMessage.serialize) anyStep {} twoAtOnce w ∧
      w.socket = frame (ChatMessage.serialize { content := ascii "b" }) ∧
      ¬ w.socket <+: frames ChatMessage.serialize w.sent := by
  obtain ⟨w, hrun, hw⟩ := exists_run_of_exec (step ChatMessage.serialize) anyStep {} twoAtOnce
    (fun w => decide (w.socket = frame (ChatMessage.serialize { content := ascii "b" }) ∧
      ¬ w.socket <+: frames ChatMessage.serialize w.sent)) (by decide)
  exact ⟨w, hrun, of_decide_eq_true hw⟩

end Writer

end BoostChat.Server
