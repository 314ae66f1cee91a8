import BoostChat.Server.Handlers
import BoostChat.Server.System

/-!
# Exceptions in `OnMessage`

`Update` does not catch what a handler lets out. The friend handlers do all their
database work under a catch, the other handlers do none, the ping handler
converts the content of the message with `std::stoll`, and the logger throws on a
line that is too long:

* `onMessage_returns_iff` — `OnMessage` returns on every message but a ping whose
  content does not begin with an integer in the range of `long long` and a request
  about a party whose name or member list makes such a line.
-/

namespace BoostChat.Server

open Lib

/-- Whatever its work and notification do, a handler with a catch returns. -/
theorem TcpServer.tryOrReport_returns {α : Type} (o : Oracle) (s : TcpServer) (user : SessionRef)
    (work : Sql α) (notify : TcpServer → α → TcpServer) :
    ∃ s', s.tryOrReport o user work notify = .ok s' := by
  unfold TcpServer.tryOrReport
  rcases Id.run (work.run.run { s.mySQLConnector with faults := o.sqlFaults }) with ⟨e | a, db⟩
  · exact ⟨_, rfl⟩
  · exact ⟨_, rfl⟩

/-- The ping handler returns when the content can be converted. -/
theorem TcpServer.handleServerPing_returns_iff (s : TcpServer) (msg : ChatMessage) :
    (∃ s', s.handleServerPing msg = .ok s') ↔ IsLongLong msg.content := by
  rw [← stoll_ok_iff, TcpServer.handleServerPing]
  cases stoll msg.content with
  | error e => simp [Except.map]
  | ok n => simp [Except.map]

/-- **When `OnMessage` returns.** For every state, user, message and outcome of the
database calls, no exception escapes unless the message is a ping without a number or a
request about a party that logs a line of `INT_MAX` bytes or more. -/
theorem onMessage_returns_iff (o : Oracle) (s : TcpServer) (user : SessionRef)
    (msg : ChatMessage) :
    (∃ s', s.onMessage o user msg = .ok s') ↔
      (msg.messageType = .serverPing → IsLongLong msg.content) ∧
        Logger.Fits (s.requestLines o user msg) := by
  cases hrequest : TcpServer.IsPartyRequest msg.messageType with
  | true =>
    have hping : msg.messageType ≠ .serverPing := fun htype => by
      rw [htype] at hrequest
      cases hrequest
    constructor
    · rintro ⟨s', hmessage⟩
      exact ⟨fun htype => absurd htype hping, TcpServer.fits_of_onMessage hmessage⟩
    · rintro ⟨-, hfits⟩
      obtain ⟨s', hmessage, -⟩ := TcpServer.onMessage_of_fits hfits hrequest
      exact ⟨s', hmessage⟩
  | false =>
    rw [TcpServer.requestLines_other hrequest, and_iff_left Logger.fits_nil]
    cases htype : msg.messageType with
    | serverPing =>
      rw [TcpServer.onMessage, htype, TcpServer.handleServerPing_returns_iff]
      exact ⟨fun h _ => h, fun h => h rfl⟩
    | partyCreate | partyJoin | partyDelete | partyLeave =>
      simp [htype, TcpServer.IsPartyRequest] at hrequest
    | _ =>
      refine iff_of_true ?_ (by rintro ⟨⟩)
      rw [TcpServer.onMessage, htype]
      first
        | exact ⟨_, rfl⟩
        | exact TcpServer.tryOrReport_returns ..

/-- A ping whose content is no number. -/
def badPing : ChatMessage := { messageType := .serverPing, content := ascii "abc" }

/-- A session logs in to the account of `ann`, sends the ping, and is visited. -/
def annPings : List Action :=
  [.accept, .receive 0 (login "a").serialize, .receive 0 badPing.serialize, .sweep,
    .examine annAndBob, .visit 0]

/-- The ping reaches the head of the user's queue, and `OnMessage` throws on it. -/
theorem badPing_escapes :
    ∃ s : Sys, Run (step (parseSerialized [login "a", badPing])) anyStep (Sys.start 5) annPings s ∧
      0 ∈ s.srv.users ∧ s.current = some 0 ∧ (s.srv.sessions 0).pending.head? = some badPing ∧
      ∀ o, s.srv.onMessage o 0 badPing = .error (.invalidArgument (ascii "stoll")) := by
  obtain ⟨s, hrun, hs⟩ := exists_run_of_exec (step (parseSerialized [login "a", badPing]))
    anyStep (Sys.start 5) annPings
    (fun s => decide (0 ∈ s.srv.users ∧ s.current = some 0 ∧
      (s.srv.sessions 0).pending.head? = some badPing)) (by decide)
  obtain ⟨huser, hcurrent, hpending⟩ := of_decide_eq_true hs
  exact ⟨s, hrun, huser, hcurrent, hpending, fun _ => rfl⟩

end BoostChat.Server
