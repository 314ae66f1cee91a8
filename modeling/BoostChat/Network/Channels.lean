import BoostChat.Network.System

/-!
# The two directions of a connection

What a run of the network makes of each link, as long as no write buffer is filled while a
write is outstanding (`WritesAlone`).

* `Downlink` — the session's socket carries the frames of what was sent to the session, in
  order; what the client has got of them is a prefix, and the client is where its read
  cycle comes to with that prefix;
* `Uplink` — the same for the other direction: the session has read what the read cycle
  makes of a prefix of the client's socket.
-/

namespace BoostChat.Network

open Lib
open Server (ChatMessage SessionRef Reading Reader ReaderAction Writer WriterAction HEADER_SIZE
  sentTo ofSession)
open Client (ChatClient ClientAction)

/-- The input makes the client call `AsyncWrite`. -/
def Input.writes (input : Input) : Bool :=
  match input.message with
  | .ok (some _) => true
  | _ => false

/-- A write buffer is filled only when no write is outstanding. -/
def WritesAlone (net : Net) : Action → Prop
  | .write user a => Writer.WritesAlone (net.links user).down a
  | .input user input => input.writes = true → (net.links user).up.outstanding = []
  | _ => True

instance (net : Net) : (a : Action) → Decidable (WritesAlone net a)
  | .write user a => inferInstanceAs (Decidable (Writer.WritesAlone (net.links user).down a))
  | .input user input => inferInstanceAs
      (Decidable (input.writes = true → (net.links user).up.outstanding = []))
  | .server _ | .toClient _ _ | .client _ _ | .put _ _ _ | .toServer _ _ | .read _ _ =>
    isTrue trivial

/-! ## Writers -/

section Writers

variable {M : Type*} {serialize : M → Bytes} {w w' : Writer M}

/-- Some calls of `Send`, one after the other. -/
theorem sends_inOrder (h : Writer.InOrder serialize w) (msgs : List M) :
    Writer.InOrder serialize
      { w with sent := w.sent ++ msgs, handlers := w.handlers ++ msgs } := by
  cases h with
  | @idle done hidle hsent hsocket =>
    exact @Writer.InOrder.idle _ _ _ done hidle (by simp [hsent]) hsocket
  | writing hone hsent hlength hpart hstorage hsocket =>
    exact .writing hone (by simp [hsent]) hlength hpart hstorage hsocket

/-- A message that is written at once, when nothing is posted. -/
theorem asyncWrite_inOrder (h : Writer.InOrder serialize w) (hhandlers : w.handlers = [])
    (hidle : w.outstanding = []) (msg : M) :
    Writer.InOrder serialize
      (({ w with sent := w.sent ++ [msg] } : Writer M).asyncWrite serialize msg) := by
  have hposted := sends_inOrder h [msg]
  refine Writer.inOrder_step hposted (a := .asyncWrite) hidle ?_
  simp only [Writer.step, hhandlers, List.nil_append, Writer.asyncWrite]

/-- Bytes are only added to the socket, and `sent` changes in `Send` only. -/
theorem put_socket {index count : Nat} (h : w.put index count = some w') :
    w.socket <+: w'.socket ∧ w'.sent = w.sent ∧ w'.handlers = w.handlers := by
  unfold Writer.put at h
  split at h
  · cases h
  · obtain ⟨-, rfl⟩ := guarded_step h
    exact ⟨List.prefix_append .., rfl, rfl⟩

theorem write_socket {a : WriterAction M} (h : w.step serialize a = some w')
    (hno : ∀ msg, a ≠ .send msg) : w.socket <+: w'.socket ∧ w'.sent = w.sent := by
  cases a with
  | send msg => exact absurd rfl (hno msg)
  | asyncWrite =>
    simp only [Writer.step] at h
    split at h
    · cases h
    · obtain rfl := Option.some.inj h
      exact ⟨List.prefix_refl _, rfl⟩
  | put index count =>
    obtain ⟨hsocket, hsent, -⟩ := put_socket h
    exact ⟨hsocket, hsent⟩

end Writers

/-! ## Read cycles -/

/-- Two readers in the same place of the stream, whatever their sessions. -/
structure SameCycle (r r' : Reader) : Prop where
  reading : r.reading = r'.reading
  readbuf : r.readbuf = r'.readbuf
  socket : r.socket = r'.socket

/-- Both readers find the same length in the header. -/
theorem readBody_sameCycle {r t : Reader} (h : SameCycle r t) (bodySize : UInt64) :
    SameCycle (r.readBody bodySize) (t.readBody bodySize) ∧
      (t.readBody bodySize).messages = t.messages := by
  unfold Reader.readBody
  split
  · exact ⟨⟨rfl, rfl, h.socket⟩, rfl⟩
  · exact ⟨⟨rfl, h.readbuf, h.socket⟩, rfl⟩

/-- A read cycle does not look at its session: only a body that is handed over matters. -/
theorem step_sameCycle {parse : Bytes → Option ChatMessage} {l : Link}
    {session : Server.UserSession} {r r' : Reader} {a : ReaderAction}
    (hsame : SameCycle (l.reader session) r) (hread : IsReadStep a = true)
    (hstep : Reader.step parse (l.reader session) a = some r') :
    ∃ t, r.step parse a = some t ∧ SameCycle r' t ∧
      t.messages.map ChatMessage.withoutSender = r.messages.map ChatMessage.withoutSender ++
        ((l.body a).bind parse).toList.map ChatMessage.withoutSender := by
  -- the two readers are one but for their sessions
  obtain ⟨own, reading, readbuf, socket, taken⟩ := r
  obtain ⟨hreading, hreadbuf, hsocket⟩ := hsame
  dsimp only [Link.reader] at hreading hreadbuf hsocket
  subst hreading hreadbuf hsocket
  cases a with
  | arrive | setUserEntity | getMessage => cases hread
  | transfer count =>
    obtain ⟨hopen, hpos, hcount, hroom, rfl⟩ := Server.transfer_cases hstep
    have hmissing : count ≤ l.readbuf.missing := by
      rw [List.length_take, Nat.min_eq_left hcount] at hroom
      exact hroom
    refine ⟨_, dif_pos ⟨hopen, hpos, hcount, hmissing⟩, ⟨rfl, rfl, rfl⟩, ?_⟩
    exact (List.append_nil _).symm
  | complete =>
    have hcomplete : (l.reader session).complete parse = some r' := hstep
    obtain ⟨hfull, hcases⟩ := Server.complete_cases hcomplete
    rcases hcases with ⟨hheader, hr⟩ | ⟨hbody, hr⟩
    · -- a header hands nothing over
      have hreading : l.reading = .header := hheader
      have hnone : l.body .complete = none := by
        rw [Link.body, hreading]
        rfl
      have hfull' : l.readbuf.Full := hfull
      obtain ⟨hcycle, hmessages⟩ := readBody_sameCycle (r := l.reader session)
        (t := ⟨own, l.reading, l.readbuf, l.socket, taken⟩) ⟨rfl, rfl, rfl⟩
        (Server.bodySize l.readbuf.buffer)
      have hr' : r' = (l.reader session).readBody (Server.bodySize l.readbuf.buffer) := hr
      refine ⟨Reader.readBody ⟨own, l.reading, l.readbuf, l.socket, taken⟩
        (Server.bodySize l.readbuf.buffer), ?_, ?_, ?_⟩
      · simp only [Reader.step, Reader.complete, if_pos hfull', hreading]
      · rw [hr']
        exact hcycle
      · rw [hnone, hmessages]
        exact (List.append_nil _).symm
    · -- a body is handed over, and the next header is read whether it parses or not
      have hreading : l.reading = .body := hbody
      have hhanded : l.body .complete = some l.readbuf.buffer := by
        rw [Link.body, if_pos hreading]
      have hfull' : l.readbuf.Full := hfull
      have hmessages := @Server.messages_readBody parse
        ⟨own, l.reading, l.readbuf, l.socket, taken⟩ l.readbuf.buffer
      refine ⟨_, ?_, ?_, hmessages.trans (congrArg _ ?_)⟩
      · simp only [Reader.step, Reader.complete, if_pos hfull', hreading]
      · rw [hr]
        exact ⟨rfl, rfl, rfl⟩
      · rw [hhanded, Option.bind_some]
        cases hparse : parse l.readbuf.buffer <;> simp [hparse]
  | fail =>
    obtain ⟨hguard, rfl⟩ := guarded_step hstep
    refine ⟨_, if_pos hguard, ⟨rfl, rfl, rfl⟩, ?_⟩
    exact (List.append_nil _).symm

/-! ## Links -/

variable {net net' : Net} {as : List Action} {a : Action} {u v : SessionRef} {l : Link}
  {msgs : List ChatMessage}

/-- One link is replaced, and the others are as they were. -/
theorem setLink_links {P : Link → Prop} {link : Link} (hself : u = v → P link)
    (hother : P (net.links u)) : P ((net.setLink v link).links u) := by
  show P (Function.update net.links v link u)
  by_cases hu : u = v
  · subst hu
    rw [Function.update_self]
    exact hself rfl
  · rw [Function.update_of_ne hu]
    exact hother

/-- More bytes on a socket do not change the first ones. -/
theorem take_of_prefix {socket socket' : Bytes} (h : socket <+: socket') {count : Nat}
    (hcount : count ≤ socket.length) :
    count ≤ socket'.length ∧ socket'.take count = socket.take count := by
  obtain ⟨more, rfl⟩ := h
  exact ⟨Nat.le_trans hcount (by rw [List.length_append]; omega),
    List.take_append_of_le_length hcount⟩

/-- The server's own steps receive nothing, and what they send is appended. -/
theorem server_step {sys sys' : Server.Sys} {b : Server.Action} (hserver : IsServerStep b = true)
    (h : Server.step ChatMessage.parseFromArray sys b = some sys') :
    sys'.received = sys.received ∧
      sys'.srv.posted = sys.srv.posted ++ sys'.srv.posted.drop sys.srv.posted.length := by
  have heffect := Server.step_effect h
  constructor
  · cases heffect with
    | receive | disconnect => cases hserver
    | _ => rfl
  · obtain ⟨new, hposted, -⟩ := Server.step_sends heffect
    rw [hposted, List.drop_left]

/-! ## From the server to the client -/

/-- The link of the session `u` after the actions `as`, when `msgs` have been sent. -/
structure Downlink (as : List Action) (u : SessionRef) (l : Link) (msgs : List ChatMessage) :
    Prop where
  order : Writer.InOrder ChatMessage.serialize l.down
  sent : l.down.sent = msgs
  count : l.downCount ≤ l.down.socket.length
  client : ∃ cs, Run (ChatClient.step ChatMessage.parseFromArray) anyStep ChatClient.start cs
      l.client ∧
    Client.arrived cs = l.down.socket.take l.downCount ∧
    (ClientAction.fail ∈ cs → Action.client u .fail ∈ as)

theorem Downlink.start (u : SessionRef) : Downlink [] u {} [] where
  order := .idle rfl (List.nil_append _).symm rfl
  sent := rfl
  count := Nat.le_refl 0
  client := ⟨[], Run.nil _, rfl, fun h => absurd h List.not_mem_nil⟩

/-- A step that does not touch this direction of the link. -/
theorem Downlink.later (h : Downlink as u l msgs) (a : Action) : Downlink (as ++ [a]) u l msgs := by
  obtain ⟨cs, hrun, harrived, hfail⟩ := h.client
  exact ⟨h.order, h.sent, h.count, cs, hrun, harrived,
    fun hmem => List.mem_append_left _ (hfail hmem)⟩

theorem Downlink.send (h : Downlink as u l msgs) (new : List ChatMessage) :
    Downlink as u (l.send new) (msgs ++ new) :=
  ⟨sends_inOrder h.order new, congrArg (· ++ new) h.sent, h.count, h.client⟩

theorem Downlink.write (h : Downlink as u l msgs) {b : WriterAction ChatMessage}
    {down : Writer ChatMessage} (hdown : l.down.step ChatMessage.serialize b = some down)
    (hok : Writer.WritesAlone l.down b) (hno : ∀ msg, b ≠ .send msg) :
    Downlink as u { l with down } msgs := by
  obtain ⟨hsocket, hsame⟩ := write_socket hdown hno
  obtain ⟨hcount, htake⟩ := take_of_prefix hsocket h.count
  obtain ⟨cs, hrun, harrived, hfail⟩ := h.client
  exact ⟨Writer.inOrder_step h.order hok hdown, hsame.trans h.sent, hcount, cs, hrun,
    harrived.trans htake.symm, hfail⟩

/-- The client gets some more bytes. -/
theorem Downlink.arrive (h : Downlink as u l msgs) {count : Nat} {client : ChatClient}
    (hfits : l.downCount + count ≤ l.down.socket.length)
    (hclient : l.client.step ChatMessage.parseFromArray
      (.arrive ((l.down.socket.drop l.downCount).take count)) = some client) :
    Downlink as u { l with client, downCount := l.downCount + count } msgs := by
  obtain ⟨cs, hrun, harrived, hfail⟩ := h.client
  refine ⟨h.order, h.sent, hfits, cs ++ [.arrive ((l.down.socket.drop l.downCount).take count)],
    hrun.concat trivial hclient, ?_, fun hmem => hfail (by simpa using hmem)⟩
  rw [Client.arrived_concat, harrived]
  exact List.take_add.symm

/-- The io thread of the client. -/
theorem Downlink.reads (h : Downlink as u l msgs) {b : ClientAction} {client : ChatClient}
    (hbytes : b.bytes = []) (hclient : l.client.step ChatMessage.parseFromArray b = some client) :
    Downlink (as ++ [.client u b]) u { l with client } msgs := by
  obtain ⟨cs, hrun, harrived, hfail⟩ := h.client
  refine ⟨h.order, h.sent, h.count, cs ++ [b], hrun.concat trivial hclient, ?_, fun hmem => ?_⟩
  · rw [Client.arrived_concat, harrived, hbytes, List.append_nil]
  · rcases List.mem_append.mp hmem with hold | hnew
    · exact List.mem_append_left _ (hfail hold)
    · rw [← List.mem_singleton.mp hnew]
      exact List.mem_append_right _ List.mem_cons_self

/-- What has been sent to a session is on its way to the client. -/
def Downlinked (as : List Action) (net : Net) (u : SessionRef) : Prop :=
  Downlink as u (net.links u) (sentTo u net.sys.srv.posted)

/-- **Step lemma.** -/
theorem downlinked_step (h : Downlinked as net u) (hok : WritesAlone net a)
    (hstep : step net a = some net') : Downlinked (as ++ [a]) net' u := by
  have hlater := Downlink.later h a
  -- the link changes in fields that this direction does not have
  have hsame {v : SessionRef} {link : Link} (hlink : u = v → Downlink (as ++ [a]) u link
      (sentTo u net.sys.srv.posted)) : Downlinked (as ++ [a]) (net.setLink v link) u :=
    setLink_links (P := fun link => Downlink (as ++ [a]) u link (sentTo u net.sys.srv.posted))
      hlink hlater
  cases a with
  | server b =>
    simp only [step] at hstep
    split at hstep
    · rename_i hserver
      obtain ⟨sys, hsys, rfl⟩ := Option.map_eq_some_iff.mp hstep
      obtain ⟨-, hposted⟩ := server_step hserver hsys
      -- what has been posted since is handed to the writer
      have hsent := hlater.send (sentTo u (sys.srv.posted.drop net.sys.srv.posted.length))
      rw [← Server.sentTo_append, ← hposted] at hsent
      exact hsent
    · cases hstep
  | write v b =>
    cases b with
    | send => cases hstep
    | asyncWrite | put =>
      obtain ⟨down, hdown, rfl⟩ := Option.map_eq_some_iff.mp hstep
      refine hsame fun hu => ?_
      subst hu
      exact hlater.write hdown hok (by simp)
  | toClient v count =>
    simp only [step] at hstep
    split at hstep
    · rename_i hfits
      obtain ⟨client, hclient, rfl⟩ := Option.map_eq_some_iff.mp hstep
      refine hsame fun hu => ?_
      subst hu
      exact hlater.arrive hfits hclient
    · cases hstep
  | client v b =>
    cases b with
    | arrive => cases hstep
    | transfer | complete | fail =>
      obtain ⟨client, hclient, rfl⟩ := Option.map_eq_some_iff.mp hstep
      refine hsame fun hu => ?_
      subst hu
      exact Downlink.reads h rfl hclient
  | input v input =>
    simp only [step] at hstep
    split at hstep
    · cases hstep
    · exact Option.some.inj hstep ▸ hlater
    · refine Option.some.inj hstep ▸ hsame fun hu => ?_
      subst hu
      exact ⟨hlater.order, hlater.sent, hlater.count, hlater.client⟩
  | put v index count =>
    obtain ⟨up, -, rfl⟩ := Option.map_eq_some_iff.mp hstep
    refine hsame fun hu => ?_
    subst hu
    exact ⟨hlater.order, hlater.sent, hlater.count, hlater.client⟩
  | toServer v count =>
    simp only [step] at hstep
    split at hstep
    · refine Option.some.inj hstep ▸ hsame fun hu => ?_
      subst hu
      exact ⟨hlater.order, hlater.sent, hlater.count, hlater.client⟩
    · cases hstep
  | read v b =>
    simp only [step] at hstep
    split at hstep
    · obtain ⟨r, -, rfl⟩ := Option.map_eq_some_iff.mp hstep
      refine setLink_links (P := fun link => Downlink (as ++ [.read v b]) u link
        (sentTo u net.sys.srv.posted)) (fun hu => ?_) hlater
      subst hu
      exact ⟨hlater.order, hlater.sent, hlater.count, hlater.client⟩
    · cases hstep

/-! ## From the client to the server -/

/-- The messages that a step makes a client write. -/
def saidBy (u : SessionRef) : Action → List ChatMessage
  | .input v input =>
    match input.message with
    | .ok (some msg) => if v = u then [msg] else []
    | _ => []
  | _ => []

/-- The messages that the client of a session has written, in order. -/
def said (u : SessionRef) (as : List Action) : List ChatMessage := as.flatMap (saidBy u)

theorem said_concat (u : SessionRef) (as : List Action) (a : Action) :
    said u (as ++ [a]) = said u as ++ saidBy u a := by
  rw [said, List.flatMap_append, List.flatMap_singleton, said]

/-- The bytes that have come to the server are read as by a reader of their own, and its
messages are what the session has received. -/
structure Uplink (as : List Action) (u : SessionRef) (l : Link) (received : List ChatMessage) :
    Prop where
  order : Writer.InOrder ChatMessage.serialize l.up
  sent : l.up.sent = said u as
  atOnce : l.up.handlers = []
  count : l.upCount ≤ l.up.socket.length
  reader : ∃ rs r, Run (Reader.step ChatMessage.parseFromArray) anyStep (Reader.start {}) rs r ∧
    SameCycle (l.reader {}) r ∧ Server.arrived rs = l.up.socket.take l.upCount ∧
    (ReaderAction.fail ∈ rs → Action.read u .fail ∈ as) ∧
    received = r.messages.map ChatMessage.withoutSender

theorem Uplink.start (u : SessionRef) : Uplink [] u {} [] where
  order := .idle rfl (List.nil_append _).symm rfl
  sent := rfl
  atOnce := rfl
  count := Nat.le_refl 0
  reader := ⟨[], Reader.start {}, Run.nil _, ⟨rfl, rfl, rfl⟩, rfl,
    fun h => absurd h List.not_mem_nil, rfl⟩

theorem Uplink.later (h : Uplink as u l msgs) {a : Action} (hquiet : saidBy u a = []) :
    Uplink (as ++ [a]) u l msgs := by
  obtain ⟨rs, r, hrun, hsame, harrived, hfail, hreceived⟩ := h.reader
  have hsent : l.up.sent = said u (as ++ [a]) := by
    rw [said_concat, hquiet, List.append_nil, h.sent]
  exact ⟨h.order, hsent, h.atOnce, h.count, rs, r, hrun, hsame, harrived,
    fun hmem => List.mem_append_left _ (hfail hmem), hreceived⟩

/-- `AsyncWrite` on the client's side. -/
theorem Uplink.asyncWrite (h : Uplink as u l msgs) (hidle : l.up.outstanding = [])
    {a : Action} {msg : ChatMessage} (hsaid : saidBy u a = [msg]) :
    Uplink (as ++ [a]) u (l.asyncWrite msg) msgs := by
  obtain ⟨rs, r, hrun, hsame, harrived, hfail, hreceived⟩ := h.reader
  have hsent : l.up.sent ++ [msg] = said u (as ++ [a]) := by
    rw [said_concat, hsaid, h.sent]
  exact ⟨asyncWrite_inOrder h.order h.atOnce hidle msg, hsent, h.atOnce, h.count, rs, r, hrun,
    hsame, harrived, fun hmem => List.mem_append_left _ (hfail hmem), hreceived⟩

theorem Uplink.put (h : Uplink as u l msgs) {index count : Nat} {up : Writer ChatMessage}
    (hput : l.up.put index count = some up) : Uplink as u { l with up } msgs := by
  obtain ⟨hsocket, hsame', hhandlers⟩ := put_socket hput
  obtain ⟨hcount, htake⟩ := take_of_prefix hsocket h.count
  obtain ⟨rs, r, hrun, hsame, harrived, hfail, hreceived⟩ := h.reader
  exact ⟨h.order.put hput, hsame'.trans h.sent, hhandlers.trans h.atOnce, hcount, rs, r, hrun,
    hsame, harrived.trans htake.symm, hfail, hreceived⟩

/-- The session gets some more bytes. -/
theorem Uplink.arrive (h : Uplink as u l msgs) {count : Nat}
    (hfits : l.upCount + count ≤ l.up.socket.length) :
    Uplink as u { l with
      socket := l.socket ++ (l.up.socket.drop l.upCount).take count
      upCount := l.upCount + count } msgs := by
  obtain ⟨rs, r, hrun, hsame, harrived, hfail, hreceived⟩ := h.reader
  let chunk := (l.up.socket.drop l.upCount).take count
  refine ⟨h.order, h.sent, h.atOnce, hfits, rs ++ [.arrive chunk],
    { r with socket := r.socket ++ chunk }, hrun.concat trivial rfl,
    ⟨hsame.reading, hsame.readbuf, ?_⟩, ?_, fun hmem => hfail (by simpa using hmem), hreceived⟩
  · exact congrArg (· ++ chunk) hsame.socket
  · rw [Server.arrived_concat, harrived]
    exact List.take_add.symm

/-- The io thread of the server reads for the session. -/
theorem Uplink.reads (h : Uplink as u l msgs) {session : Server.UserSession} {b : ReaderAction}
    {r : Reader} (hread : IsReadStep b = true)
    (hstep : Reader.step ChatMessage.parseFromArray (l.reader session) b = some r) :
    Uplink (as ++ [.read u b]) u
      { l with reading := r.reading, readbuf := r.readbuf, socket := r.socket }
      (msgs ++ ((l.body b).bind ChatMessage.parseFromArray).toList.map
        ChatMessage.withoutSender) := by
  obtain ⟨rs, own, hrun, hsame, harrived, hfail, hreceived⟩ := h.reader
  obtain ⟨own', hown, hsame', hmessages⟩ :=
    step_sameCycle (show SameCycle (l.reader session) own from
      ⟨hsame.reading, hsame.readbuf, hsame.socket⟩) hread hstep
  have hbytes : b.bytes = [] := by
    cases b with
    | arrive => cases hread
    | _ => rfl
  have hsent : l.up.sent = said u (as ++ [.read u b]) := by
    rw [said_concat, h.sent]
    exact (List.append_nil _).symm
  refine ⟨h.order, hsent, h.atOnce, h.count, rs ++ [b], own', hrun.concat trivial hown,
    ⟨hsame'.reading, hsame'.readbuf, hsame'.socket⟩, ?_, fun hmem => ?_, ?_⟩
  · rw [Server.arrived_concat, harrived, hbytes, List.append_nil]
  · rcases List.mem_append.mp hmem with hold | hnew
    · exact List.mem_append_left _ (hfail hold)
    · rw [← List.mem_singleton.mp hnew]
      exact List.mem_append_right _ List.mem_cons_self
  · rw [hmessages, hreceived]

/-- What a session has received came over its link. -/
def Uplinked (as : List Action) (net : Net) (u : SessionRef) : Prop :=
  Uplink as u (net.links u) (ofSession u net.sys.received)

/-- What a body adds to the messages that sessions have received. -/
theorem ofSession_received (u v : SessionRef) (parsed : Option ChatMessage)
    (received : List (SessionRef × ChatMessage)) :
    ofSession u ((parsed.toList.map fun msg => (v, msg)) ++ received) = ofSession u received ++
      if u = v then parsed.toList.map ChatMessage.withoutSender else [] := by
  cases parsed with
  | none => split <;> exact (List.append_nil _).symm
  | some msg =>
    by_cases hu : u = v
    · subst hu
      rw [if_pos rfl]
      exact Server.ofSession_cons_self u msg received
    · rw [if_neg hu, List.append_nil]
      exact Server.ofSession_cons_of_ne (Ne.symm hu) msg received

/-- A step that replaces the link of one session. -/
theorem Uplinked.setLink (hlater : Uplink as u (net.links u) (ofSession u net.sys.received))
    {v : SessionRef} {link : Link}
    (hlink : u = v → Uplink as u link (ofSession u net.sys.received)) :
    Uplinked as (net.setLink v link) u :=
  setLink_links (P := fun link => Uplink as u link (ofSession u net.sys.received)) hlink hlater

/-- A client writes at once: nothing is outstanding, by the condition on the run. -/
theorem Uplinked.input (h : Uplinked as net u) {v : SessionRef} {input : Input}
    (hok : WritesAlone net (.input v input)) (hstep : step net (.input v input) = some net') :
    Uplinked (as ++ [.input v input]) net' u := by
  simp only [step] at hstep
  split at hstep
  · cases hstep
  · rename_i hmsg
    have hlater : Uplink (as ++ [.input v input]) u _ _ := Uplink.later h (by rw [saidBy, hmsg])
    exact Option.some.inj hstep ▸ hlater
  · rename_i msg hmsg
    have hsaid : saidBy u (.input v input) = if v = u then [msg] else [] := by
      rw [saidBy, hmsg]
    obtain rfl := Option.some.inj hstep
    by_cases hu : u = v
    · subst hu
      rw [if_pos rfl] at hsaid
      have hwritten := Uplink.asyncWrite h (hok (by rw [Input.writes, hmsg])) hsaid
      have hlink : (net.setLink u ((net.links u).asyncWrite msg)).links u = _ :=
        Function.update_self ..
      rw [Uplinked, hlink]
      exact hwritten
    · rw [if_neg (Ne.symm hu)] at hsaid
      exact .setLink (Uplink.later h hsaid) fun heq => absurd heq hu

/-- A body that is handed over is received as its link says. -/
theorem Uplinked.read (h : Uplinked as net u) {v : SessionRef} {b : ReaderAction}
    (hstep : step net (.read v b) = some net') : Uplinked (as ++ [.read v b]) net' u := by
  have hlater : Uplink (as ++ [.read v b]) u _ _ := Uplink.later h rfl
  simp only [step] at hstep
  split at hstep
  · rename_i hguard
    obtain ⟨r, hr, rfl⟩ := Option.map_eq_some_iff.mp hstep
    have hreceived : ofSession u (net.readBy v b r).sys.received = _ :=
      ofSession_received u v (((net.links v).body b).bind ChatMessage.parseFromArray)
        net.sys.received
    by_cases hu : u = v
    · subst hu
      have hlink : (net.readBy u b r).links u = _ := Function.update_self ..
      rw [Uplinked, hlink, hreceived, if_pos rfl]
      exact Uplink.reads h hguard.2 hr
    · have hlink : (net.readBy v b r).links u = _ := Function.update_of_ne hu ..
      rw [Uplinked, hlink, hreceived, if_neg hu, List.append_nil]
      exact hlater
  · cases hstep

/-- **Step lemma.** -/
theorem uplinked_step (h : Uplinked as net u) (hok : WritesAlone net a)
    (hstep : step net a = some net') : Uplinked (as ++ [a]) net' u := by
  cases a with
  | server b =>
    have hlater : Uplink (as ++ [.server b]) u _ _ := Uplink.later h rfl
    simp only [step] at hstep
    split at hstep
    · rename_i hserver
      obtain ⟨sys, hsys, rfl⟩ := Option.map_eq_some_iff.mp hstep
      obtain ⟨hreceived, -⟩ := server_step hserver hsys
      -- the server's own thread neither reads nor touches this direction of the link
      rw [Uplinked, Net.posting, hreceived]
      exact ⟨hlater.order, hlater.sent, hlater.atOnce, hlater.count, hlater.reader⟩
    · cases hstep
  | write v b =>
    have hlater : Uplink (as ++ [.write v b]) u _ _ := Uplink.later h rfl
    cases b with
    | send => cases hstep
    | asyncWrite | put =>
      obtain ⟨down, -, rfl⟩ := Option.map_eq_some_iff.mp hstep
      refine .setLink hlater fun hu => ?_
      subst hu
      exact ⟨hlater.order, hlater.sent, hlater.atOnce, hlater.count, hlater.reader⟩
  | toClient v count =>
    have hlater : Uplink (as ++ [.toClient v count]) u _ _ := Uplink.later h rfl
    simp only [step] at hstep
    split at hstep
    · obtain ⟨client, -, rfl⟩ := Option.map_eq_some_iff.mp hstep
      refine .setLink hlater fun hu => ?_
      subst hu
      exact ⟨hlater.order, hlater.sent, hlater.atOnce, hlater.count, hlater.reader⟩
    · cases hstep
  | client v b =>
    have hlater : Uplink (as ++ [.client v b]) u _ _ := Uplink.later h rfl
    cases b with
    | arrive => cases hstep
    | transfer | complete | fail =>
      obtain ⟨client, -, rfl⟩ := Option.map_eq_some_iff.mp hstep
      refine .setLink hlater fun hu => ?_
      subst hu
      exact ⟨hlater.order, hlater.sent, hlater.atOnce, hlater.count, hlater.reader⟩
  | input v input => exact h.input hok hstep
  | put v index count =>
    have hlater : Uplink (as ++ [.put v index count]) u _ _ := Uplink.later h rfl
    obtain ⟨up, hup, rfl⟩ := Option.map_eq_some_iff.mp hstep
    refine .setLink hlater fun hu => ?_
    subst hu
    exact hlater.put hup
  | toServer v count =>
    have hlater : Uplink (as ++ [.toServer v count]) u _ _ := Uplink.later h rfl
    simp only [step] at hstep
    split at hstep
    · rename_i hfits
      refine Option.some.inj hstep ▸ .setLink hlater fun hu => ?_
      subst hu
      exact hlater.arrive hfits
    · cases hstep
  | read v b => exact h.read hstep

end BoostChat.Network
