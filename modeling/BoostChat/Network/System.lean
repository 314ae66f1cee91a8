import BoostChat.Client.ChatClient
import BoostChat.Client.Commands
import BoostChat.Server.MessageCodec
import BoostChat.Server.Relay
import BoostChat.Server.Writer

/-!
# The server and its clients

One server and the clients that are connected to it, down to the bytes on the sockets. The
server is `Server.Sys`, but a session reads what its client has written (`Server.Reader`),
and what `Send` is called with goes through the session's write buffer (`Server.Writer`) to
the read cycle of the client (`Client.ChatClient`).

* `Net` — the state, with a `Link` for each session, and `step` the actions of the two
  threads of the server, of each client, and of the network, in any order;
* `step_sys` — seen through `Net.sys`, a step is a step of the server or none;
* `net_refines` — so what holds of every run of the server holds in the network.

Everybody uses the parser of the generated code. A socket that was closed may take and
bring bytes here, which only adds runs.
-/

namespace BoostChat.Network

open Lib
open Server (ChatMessage SessionRef Reading Reader ReaderAction Writer WriterAction HEADER_SIZE)
open Client (ChatClient ClientAction)

/-! ## Writing on the client's side -/

/-- `ChatClient::AsyncWrite`: what it leaves in `m_Writebuf` for a payload. -/
def asyncWriteBuffer (writebuf payload : Bytes) : Bytes :=
  let writebuf := Client.resize writebuf (HEADER_SIZE + payload.length)
  let writebuf := writebuf.take HEADER_SIZE ++ payload
  let bodySize := writebuf.length - HEADER_SIZE
  (List.range 4).foldl (fun writebuf i =>
    writebuf.set (3 - i) (bodySize >>> (8 * i) &&& 0xFF).toUInt8) writebuf

/-- The buffer holds the frame that the server would write, whatever was in it before. -/
theorem asyncWriteBuffer_eq (writebuf payload : Bytes) :
    asyncWriteBuffer writebuf payload = Server.writeFrame payload := by
  have hhead : ((Client.resize writebuf (HEADER_SIZE + payload.length)).take HEADER_SIZE).length =
      HEADER_SIZE := by
    rw [List.length_take, Client.resize_length]
    omega
  generalize hbuf : (Client.resize writebuf (HEADER_SIZE + payload.length)).take HEADER_SIZE =
    head at hhead
  match head, hhead with
  | [b₀, b₁, b₂, b₃], _ =>
    have hsize : ([b₀, b₁, b₂, b₃] ++ payload).length - HEADER_SIZE = payload.length := by
      rw [List.length_append]
      exact Nat.add_sub_cancel_left ..
    -- the four masked shifts are the four digits
    rw [Server.writeFrame_eq_frame]
    simp only [asyncWriteBuffer, hbuf, hsize, List.range, List.range.loop, List.foldl_cons,
      List.foldl_nil, shift_mask, Nat.mul_zero, Nat.pow_zero, Nat.div_one]
    rfl

/-- What the user of a client does: `SendSessionId`, or a line that `ChatLoop` reads. -/
inductive Input
  | sessionId (sessionId : Bytes)
  | line (userInput : Bytes)

/-- The message that `AsyncWrite` is called with, if it is. -/
def Input.message : Input → Except StdException (Option ChatMessage)
  | .sessionId id => .ok (some { messageType := .loginMessage, content := id })
  | .line userInput => Client.send userInput

/-! ## The network -/

/-- The connection of a session with its client. -/
structure Link where
  /-- The session's write buffer and its socket. -/
  down : Writer ChatMessage := {}
  /-- How many bytes of that socket the client has got. -/
  downCount : Nat := 0
  client : ChatClient := .start
  /-- The client's write buffer and its socket. -/
  up : Writer ChatMessage := {}
  upCount : Nat := 0
  /-- The read cycle of the session. -/
  reading : Reading := .header
  readbuf : AsyncRead := .start HEADER_SIZE
  socket : Bytes := []

structure Net where
  sys : Server.Sys
  links : SessionRef → Link := fun _ => {}

/-- The server before the first connection. -/
def Net.start (maxUser : UInt32) : Net := { sys := .start maxUser }

inductive Action
  /-- A connection is accepted, or a step of the server's own thread. -/
  | server (a : Server.Action)
  /-- The io thread of the server runs a posted handler, or a socket takes some bytes. -/
  | write (user : SessionRef) (a : WriterAction ChatMessage)
  | toClient (user : SessionRef) (count : Nat)
  /-- The io thread of a client. -/
  | client (user : SessionRef) (a : ClientAction)
  | input (user : SessionRef) (input : Input)
  | put (user : SessionRef) (index count : Nat)
  | toServer (user : SessionRef) (count : Nat)
  /-- The io thread of the server reads for a session. -/
  | read (user : SessionRef) (a : ReaderAction)

/-- The step of the server's own thread, or of its acceptor. -/
def IsServerStep : Server.Action → Bool
  | .receive _ _ | .disconnect _ => false
  | _ => true

/-- The step of a read cycle. -/
def IsReadStep : ReaderAction → Bool
  | .transfer _ | .complete | .fail => true
  | _ => false

namespace Link

/-- The `Send` calls on a session. -/
def send (l : Link) (msgs : List ChatMessage) : Link :=
  { l with down := { l.down with
      sent := l.down.sent ++ msgs
      handlers := l.down.handlers ++ msgs } }

/-- `ChatClient::AsyncWrite`: the client fills the buffer and starts the write at once. -/
def asyncWrite (l : Link) (msg : ChatMessage) : Link :=
  { l with up := ({ l.up with sent := l.up.sent ++ [msg] }).asyncWrite ChatMessage.serialize msg }

/-- The read cycle with the session that it serves. -/
def reader (l : Link) (session : Server.UserSession) : Reader :=
  { session, reading := l.reading, readbuf := l.readbuf, socket := l.socket }

/-- The body that a step of the read cycle hands over. -/
def body (l : Link) : ReaderAction → Option Bytes
  | .complete => if l.reading = .body then some l.readbuf.buffer else none
  | _ => none

end Link

namespace Net

def setLink (net : Net) (user : SessionRef) (link : Link) : Net :=
  { net with links := Function.update net.links user link }

/-- The new state of the server; what it has sent since is posted on the sessions. -/
def posting (net : Net) (sys : Server.Sys) : Net where
  sys := sys
  links user := (net.links user).send
    (Server.sentTo user (sys.srv.posted.drop net.sys.srv.posted.length))

/-- The session and the read cycle after a step of the latter. -/
def readBy (net : Net) (user : SessionRef) (a : ReaderAction) (r : Reader) : Net :=
  let link := net.links user
  { net with
    sys := { net.sys with
      srv := net.sys.srv.setSession user r.session
      received := (((link.body a).bind ChatMessage.parseFromArray).toList.map
        fun msg => (user, msg)) ++ net.sys.received } }.setLink user
      { link with reading := r.reading, readbuf := r.readbuf, socket := r.socket }

end Net

def step (net : Net) : Action → Option Net
  | .server a =>
    if IsServerStep a then
      (Server.step ChatMessage.parseFromArray net.sys a).map net.posting
    else none
  -- `Send` is called by the server's thread only
  | .write _ (.send _) => none
  | .write user a =>
    ((net.links user).down.step ChatMessage.serialize a).map fun down =>
      net.setLink user { net.links user with down }
  | .toClient user count =>
    let link := net.links user
    if link.downCount + count ≤ link.down.socket.length then
      (link.client.step ChatMessage.parseFromArray
        (.arrive ((link.down.socket.drop link.downCount).take count))).map fun client =>
          net.setLink user { link with client, downCount := link.downCount + count }
    else none
  | .client _ (.arrive _) => none
  | .client user a =>
    ((net.links user).client.step ChatMessage.parseFromArray a).map fun client =>
      net.setLink user { net.links user with client }
  | .input user input =>
    match input.message with
    -- nobody catches it
    | .error _ => none
    | .ok none => some net
    | .ok (some msg) => some (net.setLink user ((net.links user).asyncWrite msg))
  | .put user index count =>
    ((net.links user).up.put index count).map fun up =>
      net.setLink user { net.links user with up }
  | .toServer user count =>
    let link := net.links user
    if link.upCount + count ≤ link.up.socket.length then
      some (net.setLink user { link with
        socket := link.socket ++ (link.up.socket.drop link.upCount).take count
        upCount := link.upCount + count })
    else none
  | .read user a =>
    if user < net.sys.srv.nextSession ∧ IsReadStep a then
      (Reader.step ChatMessage.parseFromArray
        ((net.links user).reader (net.sys.srv.sessions user)) a).map (net.readBy user a)
    else none

/-! ## The server in the network -/

variable {net net' : Net} {a : Action}

/-- What a step of the read cycle does to the session: it hands over a body, it closes
the session, or it leaves it alone. -/
theorem readBy_sys {user : SessionRef} {a : ReaderAction} {r : Reader}
    (hread : IsReadStep a = true) (hknown : user < net.sys.srv.nextSession)
    (hstep : Reader.step ChatMessage.parseFromArray
      ((net.links user).reader (net.sys.srv.sessions user)) a = some r) :
    (net.readBy user a r).sys = net.sys ∨
      (∃ body, (net.links user).body a = some body ∧ Server.step ChatMessage.parseFromArray net.sys
        (.receive user body) = some (net.readBy user a r).sys) ∨
      (a = .fail ∧ Server.step ChatMessage.parseFromArray net.sys (.disconnect user) =
        some (net.readBy user a r).sys) := by
  have hsame (hbody : (net.links user).body a = none)
      (hsession : r.session = net.sys.srv.sessions user) :
      (net.readBy user a r).sys = net.sys := by
    simp only [Net.readBy, Net.setLink, hbody, hsession, Server.TcpServer.setSession,
      Function.update_eq_self]
    rfl
  cases a with
  | arrive | setUserEntity | getMessage => cases hread
  | transfer count =>
    obtain ⟨-, -, -, hroom, rfl⟩ := Server.transfer_cases hstep
    exact Or.inl (hsame rfl rfl)
  | complete =>
    obtain ⟨-, ⟨hheader, hr⟩ | ⟨hbody, hr⟩⟩ := Server.complete_cases hstep
    · refine Or.inl (hsame ?_ ?_)
      · have hreading : (net.links user).reading = .header := hheader
        rw [Link.body, hreading]
        rfl
      · rw [hr, Reader.readBody]
        split <;> rfl
    · have hreading : (net.links user).reading = .body := hbody
      have hhanded : (net.links user).body .complete = some (net.links user).readbuf.buffer := by
        rw [Link.body, if_pos hreading]
      refine Or.inr (Or.inl ⟨_, hhanded, ?_⟩)
      rw [Server.step, if_pos hknown, Net.readBy, hhanded, hr]
      rfl
  | fail =>
    obtain ⟨-, rfl⟩ := guarded_step hstep
    refine Or.inr (Or.inr ⟨rfl, ?_⟩)
    rw [Server.step, if_pos hknown]
    rfl

/-- **Seen through the server**, a step of the network is a step of the server or none. -/
theorem step_sys (h : step net a = some net') : net'.sys = net.sys ∨
    ∃ b, Server.step ChatMessage.parseFromArray net.sys b = some net'.sys := by
  cases a with
  | server a =>
    simp only [step] at h
    split at h
    · obtain ⟨sys, hsys, rfl⟩ := Option.map_eq_some_iff.mp h
      exact Or.inr ⟨a, hsys⟩
    · cases h
  | write user a =>
    cases a with
    | send => cases h
    | _ =>
      obtain ⟨down, -, rfl⟩ := Option.map_eq_some_iff.mp h
      exact Or.inl rfl
  | toClient user count =>
    simp only [step] at h
    split at h
    · obtain ⟨client, -, rfl⟩ := Option.map_eq_some_iff.mp h
      exact Or.inl rfl
    · cases h
  | client user a =>
    cases a with
    | arrive => cases h
    | _ =>
      obtain ⟨client, -, rfl⟩ := Option.map_eq_some_iff.mp h
      exact Or.inl rfl
  | input user input =>
    simp only [step] at h
    split at h
    · cases h
    · exact Or.inl (Option.some.inj h ▸ rfl)
    · exact Or.inl (Option.some.inj h ▸ rfl)
  | put user index count =>
    obtain ⟨up, -, rfl⟩ := Option.map_eq_some_iff.mp h
    exact Or.inl rfl
  | toServer user count =>
    simp only [step] at h
    split at h
    · exact Or.inl (Option.some.inj h ▸ rfl)
    · cases h
  | read user a =>
    simp only [step] at h
    split at h
    · rename_i hguard
      obtain ⟨r, hr, rfl⟩ := Option.map_eq_some_iff.mp h
      -- nothing that the server sees, a whole body, or the end of the connection
      rcases readBy_sys hguard.2 hguard.1 hr with heq | ⟨body, -, hsys⟩ | ⟨-, hsys⟩
      · exact Or.inl heq
      · exact Or.inr ⟨_, hsys⟩
      · exact Or.inr ⟨_, hsys⟩
    · cases h

/-- The same for the steps of a run, as a simulation asks for it. -/
theorem step_simulated {ok : Net → Action → Prop} (net : Net) (a : Action) (net' : Net)
    (_ : ok net a) (h : step net a = some net') : net'.sys = net.sys ∨
      ∃ b, anyStep net.sys b ∧ Server.step ChatMessage.parseFromArray net.sys b = some net'.sys :=
  (step_sys h).imp_right fun ⟨b, hb⟩ => ⟨b, trivial, hb⟩

/-- **The network refines the server.** The server of every run of the network, with its
sockets, its buffers and its clients, is in a state that a run of the server alone reaches,
in which whole bodies arrive. -/
theorem net_refines {ok : Net → Action → Prop} {maxUser : UInt32} {as : List Action}
    (hrun : Run step ok (Net.start maxUser) as net) :
    ∃ bs, Run (Server.step ChatMessage.parseFromArray) anyStep (Server.Sys.start maxUser) bs
      net.sys :=
  hrun.simulate step_simulated

/-! ## One client -/

/-- A frame with `size` bytes of payload goes from the client to the session. -/
def upload (user : SessionRef) (size : Nat) : List Action :=
  [.put user 0 (HEADER_SIZE + size), .toServer user (HEADER_SIZE + size),
    .read user (.transfer HEADER_SIZE), .read user .complete, .read user (.transfer size),
    .read user .complete]

/-- The frame of the next posted message goes from the session to the client. -/
def download (user : SessionRef) (size : Nat) : List Action :=
  [.write user .asyncWrite, .write user (.put 0 (HEADER_SIZE + size)),
    .toClient user (HEADER_SIZE + size), .client user (.transfer HEADER_SIZE),
    .client user .complete, .client user (.transfer size), .client user .complete]

/-- `ann` connects, logs in and says something to everybody, which she gets as well. -/
def annAlone : List Action :=
  [.server .accept, .input 0 (.sessionId (ascii "a"))] ++ upload 0 5 ++
    [.server .sweep, .server (.examine Server.annAndBob)] ++ download 0 19 ++
    [.input 0 (.line (ascii "hi"))] ++ upload 0 6 ++
    [.server (.visit 0), .server (.dispatch {})] ++ download 0 11

/-- Without the sockets, some run of the server ends where `annAlone` does. -/
theorem net_refines_annAlone :
    ∃ (sys : Server.Sys) (bs : List Server.Action),
      sys.dispatched.map (·.2.content) = [ascii "hi"] ∧
      Run (Server.step ChatMessage.parseFromArray) anyStep (Server.Sys.start 5) bs sys := by
  obtain ⟨net, hrun, hnet⟩ := exists_run_of_exec step anyStep (Net.start 5) annAlone
    (fun net => decide (net.sys.dispatched.map (·.2.content) = [ascii "hi"])) (by decide)
  obtain ⟨bs, hserver⟩ := net_refines hrun
  exact ⟨net.sys, bs, of_decide_eq_true hnet, hserver⟩

end BoostChat.Network
