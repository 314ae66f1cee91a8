import BoostChat.Network.Channels

/-!
# From one client to the others

What the messages of a run of the network are, at both ends of each connection.

* `client_delivery` — a client's `OnMessage` is called with what was sent to its session, in
  order and from the first message on, and its read cycle never stops by itself;
* `server_delivery` — a session receives what its client has written, in order;
* `shown_source` — whatever a client shows was composed by the server or written by a
  client that was admitted;
* `total_order` — there is one order of all messages that agrees with the order in which
  each client has written its own, and in which every client gets what it gets.
-/

namespace BoostChat.Network

open Lib
open Server (ChatMessage ChatMessageType SessionRef Reader ReaderAction Writer HEADER_SIZE sentTo
  ofSession IsComposed IsRelayed frame)
open Client (ChatClient ClientAction)

/-! ## What the server sends can be read -/

section Readable

variable {parse : Bytes → Option ChatMessage} {ok : Server.Sys → Server.Action → Prop}
  {maxUser : UInt32} {bs : List Server.Action} {s : Server.Sys}

/-- What a session has received was parsed from a body. -/
theorem received_parsed
    (hrun : Run (Server.step parse) ok (Server.Sys.start maxUser) bs s) :
    ∀ p ∈ s.received, ∃ body, parse body = some p.2 := by
  refine hrun.invariant (I := fun s => ∀ p ∈ s.received, ∃ body, parse body = some p.2) ?_
    fun p hp => absurd hp List.not_mem_nil
  intro s b t h _ hstep p hp
  cases Server.step_effect hstep with
  | @receive user body =>
    rcases List.mem_append.mp hp with hnew | hold
    · obtain ⟨msg, hmsg, rfl⟩ := List.mem_map.mp hnew
      exact ⟨body, Option.mem_toList.mp hmsg⟩
    · exact h p hold
  | _ => exact h p hp

/-- A message that a client reads and goes on. -/
structure Readable (msg : ChatMessage) : Prop where
  canonical : msg.Canonical
  typed : msg.messageType.number ≠ 0

theorem IsComposed.readable {msg : ChatMessage} (h : IsComposed msg) : Readable msg := by
  obtain ⟨htype, -, -, hunknown⟩ := h
  rcases htype with htype | htype | htype
  · exact ⟨ChatMessage.canonical_of_named (by rw [htype]; rfl) hunknown, by rw [htype]; decide⟩
  · exact ⟨ChatMessage.canonical_of_named (by rw [htype]; rfl) hunknown, by rw [htype]; decide⟩
  · exact ⟨ChatMessage.canonical_of_named (by rw [htype]; rfl) hunknown, by rw [htype]; decide⟩

/-- The server sends no pings, and only what the parser reads back. -/
theorem posted_readable (hrun : Run (Server.step ChatMessage.parseFromArray) anyStep
    (Server.Sys.start maxUser) bs s) : ∀ p ∈ s.srv.posted, Readable p.2 := by
  intro p hp
  obtain ⟨-, hcomposed | ⟨hrelayed, d, hd, heq⟩⟩ := Server.sourced_of_run hrun p hp
  · exact IsComposed.readable hcomposed
  · obtain ⟨sent, hsent, hstamped⟩ := (Server.conserved_of_run hrun).sent hd
    rw [← heq] at hrelayed ⊢
    obtain ⟨body, hbody⟩ := received_parsed hrun _ hsent
    refine ⟨?_, ?_⟩
    · rw [hstamped]
      exact (ChatMessage.canonical_of_parse hbody).readdressed ..
    · rcases hrelayed with htype | htype | htype <;> rw [htype] <;> decide

/-- It has bytes on the wire, and `OnMessage` does not throw on it. -/
theorem Readable.accepted {msg : ChatMessage} (h : Readable msg)
    (hsize : msg.serialize.length < 2 ^ 31 - 16) :
    ChatMessage.parseFromArray msg.serialize = some msg ∧
      Client.Accepted ChatMessage.parseFromArray msg.serialize := by
  have hparse := h.canonical.readBack hsize
  have hbytes : msg.serialize ≠ [] := by
    rw [ChatMessage.serialize, if_neg h.typed]
    simp
  obtain ⟨reaction, hreaction⟩ := (Client.onMessage_ok_iff msg).mpr fun htype => by
    have hnumber := h.typed
    rw [htype] at hnumber
    exact absurd rfl hnumber
  exact ⟨hparse, hbytes, msg, reaction, hparse, hreaction⟩

end Readable

/-! ## Clients that get the beginning of a stream -/

section Clients

variable {parse : Bytes → Option ChatMessage} {cs : List ClientAction} {c : ChatClient}
  {bodies : List Bytes}

/-- A client that gets the beginning of a stream of bodies that it accepts has read some of
them, goes on, and has read them all when it has got the whole stream and is idle. -/
theorem client_reads (hrun : Run (ChatClient.step parse) anyStep ChatClient.start cs c)
    (hannounced : ∀ body ∈ bodies, Client.Announced body)
    (haccepted : ∀ body ∈ bodies, Client.Accepted parse body)
    (harrived : Client.arrived cs <+: bodies.flatMap frame) (hfail : ClientAction.fail ∉ cs) :
    ∃ done later, bodies = done ++ later ∧ c.reading ≠ .stopped ∧
      c.messages.map some = done.map parse ∧
      (Client.arrived cs = bodies.flatMap frame → c.Idle parse →
        later = [] ∧ c.AwaitsHeader) := by
  obtain ⟨rest, hrest⟩ := harrived
  obtain ⟨done, part, hdecoded⟩ := Client.decoded_of_run hrun
  have hnone : Incomplete Client.Announced frame [] :=
    ⟨[], frame [], Nat.two_pow_pos 32, by decide, rfl⟩
  have hcut : done.flatMap frame ++ (part ++ c.socket ++ rest) = bodies.flatMap frame ++ [] := by
    rw [List.append_nil, ← hrest, hdecoded.stream]
    simp only [List.append_assoc]
  obtain ⟨later, rfl, htail⟩ := Client.announced_prefixCode.split hnone
    (fun body hbody => (hdecoded.bodies body hbody).1) hannounced hcut
  rw [List.append_nil, List.append_assoc] at htail
  have hlater : ∀ body ∈ later, Client.Announced body := fun body hbody =>
    hannounced body (List.mem_append_right done hbody)
  have hreading : c.reading ≠ .stopped := by
    intro hstopped
    cases hdecoded.inFrame with
    | header hheader => exact absurd (hheader.symm.trans hstopped) (by decide)
    | body hbody => exact absurd (hbody.symm.trans hstopped) (by decide)
    | failed _ hmem => exact hfail hmem
    | @refused _ body hsize hrefused =>
      -- the frame at which it stopped would be the next one
      cases later with
      | nil =>
        have hempty := congrArg List.length htail
        rw [List.length_append, Server.frame_length, List.flatMap_nil, List.length_nil] at hempty
        omega
      | cons next later =>
        rw [List.flatMap_cons] at htail
        obtain ⟨rfl, -⟩ := Server.frame_append_inj hsize (hlater next List.mem_cons_self) htail
        exact hrefused (haccepted body (List.mem_append_right done List.mem_cons_self))
  refine ⟨done, later, rfl, hreading, hdecoded.messages hreading, fun hall hidle => ?_⟩
  obtain ⟨-, hdone, hpart⟩ | ⟨hstopped, -⟩ := hdecoded.all_or_refused hannounced hall hfail hidle
  · exact ⟨List.append_right_eq_self.mp hdone, hdecoded.inFrame.awaitsHeader hreading hpart⟩
  · exact absurd hstopped hreading

/-- A client that has stopped calls `OnMessage` no more. -/
theorem stopped_messages (hrun : Run (ChatClient.step parse) anyStep c cs c')
    (hstopped : c.reading = .stopped) : c'.messages = c.messages := by
  have hend : c'.reading = .stopped ∧ c'.messages = c.messages := by
    refine hrun.invariant (I := fun x => x.reading = .stopped ∧ x.messages = c.messages) ?_
      ⟨hstopped, rfl⟩
    rintro x a y ⟨hreading, hmessages⟩ - hstep
    cases a with
    | arrive chunk => exact Option.some.inj hstep ▸ ⟨hreading, hmessages⟩
    | transfer count =>
      obtain ⟨hopen, -⟩ := Client.transfer_cases hstep
      exact absurd hreading hopen
    | complete =>
      obtain ⟨-, ⟨hother, -⟩ | ⟨hother, -⟩⟩ := Client.complete_cases hstep <;>
        exact absurd (hother.symm.trans hreading) (by decide)
    | fail =>
      obtain ⟨⟨hopen, -⟩, -⟩ := guarded_step hstep
      exact absurd hreading hopen
  exact hend.2

/-- Even when a read fails, `OnMessage` was called with the first messages of the stream. -/
theorem client_messages (hrun : Run (ChatClient.step parse) anyStep ChatClient.start cs c)
    (hannounced : ∀ body ∈ bodies, Client.Announced body)
    (haccepted : ∀ body ∈ bodies, Client.Accepted parse body)
    (harrived : Client.arrived cs <+: bodies.flatMap frame) :
    c.messages.map some <+: bodies.map parse := by
  have hreads {cs : List ClientAction} {c : ChatClient}
      (hrun : Run (ChatClient.step parse) anyStep ChatClient.start cs c)
      (harrived : Client.arrived cs <+: bodies.flatMap frame) (hfail : ClientAction.fail ∉ cs) :
      c.messages.map some <+: bodies.map parse := by
    obtain ⟨done, later, hbodies, -, hmessages, -⟩ :=
      client_reads hrun hannounced haccepted harrived hfail
    rw [hmessages, hbodies, List.map_append]
    exact List.prefix_append ..
  by_cases hfail : ClientAction.fail ∈ cs
  · -- up to the first failure the client reads, and then it has stopped
    obtain ⟨before, after, rfl, hbefore⟩ := List.eq_append_cons_of_mem hfail
    obtain ⟨d, hfirst, hrest⟩ := hrun.split
    cases hrest with
    | cons _ hstep hrest =>
      obtain ⟨-, rfl⟩ := guarded_step hstep
      rw [stopped_messages hrest rfl]
      show d.messages.map some <+: bodies.map parse
      refine hreads hfirst (List.IsPrefix.trans ?_ harrived) hbefore
      rw [Client.arrived, Client.arrived, List.flatMap_append]
      exact List.prefix_append ..
  · exact hreads hrun harrived hfail

end Clients

/-! ## Down -/

variable {net : Net} {maxUser : UInt32} {as : List Action} {u : SessionRef}

theorem downlinked_of_run (hrun : Run step WritesAlone (Net.start maxUser) as net)
    (u : SessionRef) : Downlinked as net u :=
  hrun.history (I := fun as net => Downlinked as net u)
    (fun _ _ _ _ h hok hstep => downlinked_step h hok hstep)
    (show Downlinked [] (Net.start maxUser) u from Downlink.start u)

theorem frames_eq (msgs : List ChatMessage) :
    Writer.frames ChatMessage.serialize msgs =
      (msgs.map ChatMessage.serialize).flatMap frame := by
  rw [Writer.frames, List.flatMap_map]
  rfl

/-- Everything that was sent over a link has come to the client, and the client has nothing
left to do. -/
structure DownIdle (l : Link) : Prop where
  handlers : l.down.handlers = []
  outstanding : l.down.outstanding = []
  arrived : l.downCount = l.down.socket.length
  client : l.client.Idle ChatMessage.parseFromArray

/-- What has been sent to the session of a client, as the bodies of one stream. -/
structure Delivered (msgs : List ChatMessage) (l : Link) (cs : List ClientAction) : Prop where
  client : Run (ChatClient.step ChatMessage.parseFromArray) anyStep ChatClient.start cs l.client
  arrived : Client.arrived cs = l.down.socket.take l.downCount
  announced : ∀ body ∈ msgs.map ChatMessage.serialize, Client.Announced body
  accepted : ∀ body ∈ msgs.map ChatMessage.serialize,
    Client.Accepted ChatMessage.parseFromArray body
  parsed : (msgs.map ChatMessage.serialize).map ChatMessage.parseFromArray = msgs.map some
  stream : Client.arrived cs <+: (msgs.map ChatMessage.serialize).flatMap frame

theorem delivered_of_run (hrun : Run step WritesAlone (Net.start maxUser) as net)
    (hsize : ∀ m ∈ sentTo u net.sys.srv.posted, m.serialize.length < 2 ^ 31 - 16) :
    ∃ cs, Delivered (sentTo u net.sys.srv.posted) (net.links u) cs ∧
      (ClientAction.fail ∈ cs → Action.client u .fail ∈ as) := by
  obtain ⟨bs, hserver⟩ := hrun.simulate step_simulated
  have hlink := downlinked_of_run hrun u
  obtain ⟨cs, hclient, harrived, hfail⟩ := hlink.client
  have hreadable : ∀ m ∈ sentTo u net.sys.srv.posted,
      ChatMessage.parseFromArray m.serialize = some m ∧
        Client.Accepted ChatMessage.parseFromArray m.serialize := by
    intro m hm
    obtain ⟨p, hp, rfl⟩ := List.mem_map.mp hm
    exact (posted_readable hserver p (List.mem_of_mem_filter hp)).accepted (hsize _ hm)
  refine ⟨cs, ⟨hclient, harrived, fun body hbody => ?_, fun body hbody => ?_, ?_, ?_⟩, hfail⟩
  · obtain ⟨m, hm, rfl⟩ := List.mem_map.mp hbody
    exact Nat.lt_trans (hsize m hm) (by decide)
  · obtain ⟨m, hm, rfl⟩ := List.mem_map.mp hbody
    exact (hreadable m hm).2
  · rw [List.map_map]
    exact List.map_congr_left fun m hm => (hreadable m hm).1
  · rw [harrived, ← frames_eq]
    have hsocket := hlink.order.isPrefix
    rw [hlink.sent] at hsocket
    exact (List.take_prefix _ _).trans hsocket

/-- A client is given the first of the messages that were sent to its session. -/
theorem client_isPrefix (hrun : Run step WritesAlone (Net.start maxUser) as net)
    (hsize : ∀ m ∈ sentTo u net.sys.srv.posted, m.serialize.length < 2 ^ 31 - 16) :
    (net.links u).client.messages <+: sentTo u net.sys.srv.posted := by
  obtain ⟨cs, h, -⟩ := delivered_of_run hrun hsize
  have hprefix := client_messages h.client h.announced h.accepted h.stream
  rw [h.parsed] at hprefix
  exact (List.prefix_map_iff_of_injective fun _ _ h => Option.some.inj h).mp hprefix

/-- With an idle writer, the whole stream is on the socket. -/
theorem Downlinked.socket_eq (h : Downlinked as net u) (hidle : DownIdle (net.links u)) :
    (net.links u).down.socket =
      ((sentTo u net.sys.srv.posted).map ChatMessage.serialize).flatMap frame := by
  rw [← frames_eq]
  cases h.order with
  | idle _ hsent hsocket =>
    rw [hidle.handlers, List.append_nil, h.sent] at hsent
    rw [hsocket, ← hsent]
  | writing hone =>
    rw [hidle.outstanding] at hone
    cases hone

/-- **What a client gets.** In every run in which no write buffer is filled while a write is
outstanding, `OnMessage` of a client is called with the messages that the server has sent to
its session: in order, from the first one on, each once and as it was sent. Without a read
error the read cycle never stops, and once everything has come through, it has called
`OnMessage` with all of them and awaits the next header. -/
theorem client_delivery (hrun : Run step WritesAlone (Net.start maxUser) as net)
    (hsize : ∀ m ∈ sentTo u net.sys.srv.posted, m.serialize.length < 2 ^ 31 - 16) :
    (net.links u).client.messages <+: sentTo u net.sys.srv.posted ∧
      (Action.client u .fail ∉ as → (net.links u).client.reading ≠ .stopped ∧
        (DownIdle (net.links u) →
          (net.links u).client.messages = sentTo u net.sys.srv.posted ∧
            (net.links u).client.AwaitsHeader)) := by
  refine ⟨client_isPrefix hrun hsize, fun hnone => ?_⟩
  obtain ⟨cs, h, hfail⟩ := delivered_of_run hrun hsize
  obtain ⟨done, later, hdone, hreading, hmessages, hall⟩ :=
    client_reads h.client h.announced h.accepted h.stream fun hmem => hnone (hfail hmem)
  refine ⟨hreading, fun hidle => ?_⟩
  have hsocket := (downlinked_of_run hrun u).socket_eq hidle
  obtain ⟨rfl, hawaits⟩ := hall
    (by rw [h.arrived, hidle.arrived, List.take_length, hsocket]) hidle.client
  refine ⟨?_, hawaits⟩
  rw [List.append_nil] at hdone
  rw [← hdone, h.parsed] at hmessages
  exact List.map_injective_iff.mpr (fun _ _ h => Option.some.inj h) hmessages

/-- In `annAlone` the client has got both messages. -/
theorem client_delivery_annAlone :
    ∃ net : Net, (net.links 0).client.messages.map (·.content) =
      [ascii "Login Success!!", ascii "hi"] := by
  obtain ⟨net, hrun, hnet⟩ := exists_run_of_exec step WritesAlone (Net.start 5) annAlone
    (fun net => decide ((sentTo 0 net.sys.srv.posted).map (·.content) =
        [ascii "Login Success!!", ascii "hi"] ∧
      (∀ m ∈ sentTo 0 net.sys.srv.posted, m.serialize.length < 32) ∧
      (net.links 0).down.handlers = [] ∧ (net.links 0).down.outstanding = [] ∧
      (net.links 0).downCount = (net.links 0).down.socket.length ∧
      (net.links 0).client.socket = [] ∧ ¬ (net.links 0).client.readbuf.Full)) (by decide)
  obtain ⟨hsent, hshort, hhandlers, houtstanding, hcount, hsocket, hfull⟩ := of_decide_eq_true hnet
  have hidle : (net.links 0).client.Idle ChatMessage.parseFromArray := by
    refine ⟨fun count => dif_neg fun h => ?_, if_neg hfull⟩
    have hle := h.2.2.1
    rw [hsocket] at hle
    exact absurd h.2.1 (Nat.not_lt.mpr hle)
  obtain ⟨-, hall⟩ := client_delivery (u := 0) hrun
    fun m hm => Nat.lt_trans (hshort m hm) (by decide)
  obtain ⟨-, hmessages⟩ := hall (by simp [annAlone, upload, download])
  exact ⟨net, by rw [(hmessages ⟨hhandlers, houtstanding, hcount, hidle⟩).1, hsent]⟩

/-! ## Up -/

/-- A message that a client makes: the server stamps it with the sender. -/
structure IsMade (msg : ChatMessage) : Prop where
  canonical : msg.Canonical
  sender : msg.sender = []

/-- A message that is filled in by `set_messagetype`, `set_receiver` and `set_content`. -/
theorem isMade_fields {messageType : ChatMessageType}
    (htype : .ofNumber messageType.number = messageType) (receiver content : Bytes) :
    IsMade { messageType, receiver, content } :=
  ⟨ChatMessage.canonical_of_named htype rfl, rfl⟩

theorem createWhisperMessage_made {userInput : Bytes} {msg : ChatMessage}
    (h : Client.createWhisperMessage userInput = .ok (some msg)) : IsMade msg := by
  unfold Client.createWhisperMessage at h
  dsimp only at h
  split at h
  · obtain ⟨receiver, -, h⟩ := Client.bind_eq_ok h
    obtain ⟨content, -, h⟩ := Client.bind_eq_ok h
    obtain rfl := Option.some.inj (Except.ok.inj h)
    exact isMade_fields (by decide) receiver content
  · cases h

theorem createPartyMessage_made {userInput : Bytes} {msg : ChatMessage}
    (h : Client.createPartyMessage userInput = .ok (some msg)) : IsMade msg := by
  obtain ⟨⟨option, partyName⟩, -, h⟩ := Client.bind_eq_ok h
  dsimp only at h
  split at h
  · obtain ⟨content, -, h⟩ := Client.bind_eq_ok h
    obtain rfl := Option.some.inj (Except.ok.inj h)
    exact isMade_fields (by decide) [] content
  · split at h
    · split at h
      · cases h
      · obtain rfl := Option.some.inj (Except.ok.inj h)
        refine isMade_fields ?_ [] partyName
        unfold Client.getPartyMessageType
        split_ifs <;> decide
    · cases h

theorem createFriendMessage_made {messageType : ChatMessageType} {userInput : Bytes}
    {msg : ChatMessage} (htype : .ofNumber messageType.number = messageType)
    (h : Client.createFriendMessage messageType userInput = .ok (some msg)) : IsMade msg := by
  obtain ⟨content, -, h⟩ := Client.bind_eq_ok h
  obtain rfl := Option.some.inj (Except.ok.inj h)
  exact isMade_fields htype [] content

/-- Whatever the user types. -/
theorem Input.message_made {input : Input} {msg : ChatMessage}
    (h : input.message = .ok (some msg)) : IsMade msg := by
  cases input with
  | sessionId id =>
    obtain rfl := Option.some.inj (Except.ok.inj h)
    exact isMade_fields (by decide) [] id
  | line userInput =>
    obtain ⟨strategy, hstrategy, h⟩ := Client.bind_eq_ok h
    rw [Client.getCreateMessageStrategy_eq] at hstrategy
    obtain rfl := Except.ok.inj hstrategy
    split_ifs at h
    · exact createWhisperMessage_made h
    · exact createPartyMessage_made h
    · exact createFriendMessage_made (by decide) h
    · exact createFriendMessage_made (by decide) h
    · exact createFriendMessage_made (by decide) h
    · obtain rfl := Option.some.inj (Except.ok.inj h)
      exact isMade_fields (by decide) [] userInput

theorem mem_said {msg : ChatMessage} (h : msg ∈ said u as) :
    ∃ input, Action.input u input ∈ as ∧ input.message = .ok (some msg) := by
  obtain ⟨a, ha, hmem⟩ := List.mem_flatMap.mp h
  cases a with
  | input v input =>
    simp only [saidBy] at hmem
    split at hmem
    · rename_i made hmade
      split_ifs at hmem with hv
      · rw [List.mem_singleton.mp hmem]
        exact ⟨input, hv ▸ ha, hmade⟩
      · exact absurd hmem List.not_mem_nil
    · exact absurd hmem List.not_mem_nil
  | _ => exact absurd hmem List.not_mem_nil

theorem said_made {msg : ChatMessage} (h : msg ∈ said u as) : IsMade msg := by
  obtain ⟨input, -, hmade⟩ := mem_said h
  exact Input.message_made hmade

theorem uplinked_of_run (hrun : Run step WritesAlone (Net.start maxUser) as net)
    (u : SessionRef) : Uplinked as net u :=
  hrun.history (I := fun as net => Uplinked as net u)
    (fun _ _ _ _ h hok hstep => uplinked_step h hok hstep)
    (show Uplinked [] (Net.start maxUser) u from Uplink.start u)

/-- Everything that the client has written has come to the session, and the read cycle waits
for more. -/
structure UpIdle (l : Link) : Prop where
  outstanding : l.up.outstanding = []
  arrived : l.upCount = l.up.socket.length
  socket : l.socket = []
  readbuf : ¬ l.readbuf.Full

/-- A client writes bodies that are parsed to what it was made to write. -/
theorem said_readBack {msg : ChatMessage} (h : msg ∈ said u as)
    (hsize : msg.serialize.length < 2 ^ 31 - 16) :
    ChatMessage.parseFromArray msg.serialize = some msg ∧ msg.withoutSender = msg := by
  have hmade := said_made h
  refine ⟨hmade.canonical.readBack hsize, ?_⟩
  rw [ChatMessage.withoutSender, ← hmade.sender]

/-- The first bodies that a client writes are parsed to its first messages. -/
theorem parse_said (hsize : ∀ m ∈ said u as, m.serialize.length < 2 ^ 31 - 16) (k : Nat) :
    ((((said u as).map ChatMessage.serialize).take k).filterMap
      ChatMessage.parseFromArray).map ChatMessage.withoutSender = (said u as).take k := by
  have hread : ∀ m ∈ (said u as).take k,
      ChatMessage.parseFromArray m.serialize = some m ∧ m.withoutSender = m := fun m hm =>
    said_readBack (List.mem_of_mem_take hm) (hsize m (List.mem_of_mem_take hm))
  rw [← List.map_take, List.filterMap_map]
  have hsome : ((said u as).take k).filterMap (ChatMessage.parseFromArray ∘
      ChatMessage.serialize) = ((said u as).take k).filterMap some :=
    List.filterMap_congr fun m hm => (hread m hm).1
  rw [hsome, List.filterMap_some]
  exact (List.map_congr_left fun m hm => (hread m hm).2).trans (List.map_id' _)

/-- A session has received the first messages of its client, and all of them once an idle
session has got the whole stream. -/
theorem received_take (hrun : Run step WritesAlone (Net.start maxUser) as net)
    (hsize : ∀ m ∈ said u as, m.serialize.length < 2 ^ 31 - 16) :
    ∃ k, ofSession u net.sys.received = (said u as).take k ∧
      (Action.read u .fail ∉ as → (net.links u).socket = [] → ¬ (net.links u).readbuf.Full →
        (net.links u).up.socket.take (net.links u).upCount =
          ((said u as).map ChatMessage.serialize).flatMap frame → k = (said u as).length) := by
  have hlink := uplinked_of_run hrun u
  obtain ⟨rs, r, hreader, hsame, harrived, hfail, hreceived⟩ := hlink.reader
  have hbodies : ∀ body ∈ (said u as).map ChatMessage.serialize, Server.FrameBody body := by
    intro body hbody
    obtain ⟨m, hm, rfl⟩ := List.mem_map.mp hbody
    exact Nat.lt_trans (hsize m hm) (by decide)
  have hnone : Incomplete Server.FrameBody frame [] :=
    ⟨[], frame [], Nat.two_pow_pos 31, by decide, rfl⟩
  have hsocket : (net.links u).up.socket <+:
      ((said u as).map ChatMessage.serialize).flatMap frame := by
    rw [← frames_eq, ← hlink.sent]
    exact hlink.order.isPrefix
  -- what has been decoded, what is left of it, and what is still under way
  obtain ⟨rest, hrest⟩ := (List.take_prefix (net.links u).upCount _).trans hsocket
  obtain ⟨done, part, hdecoded⟩ := Server.decoded_of_run hreader
  have hcut : done.flatMap frame ++ (part ++ r.socket ++ rest) =
      ((said u as).map ChatMessage.serialize).flatMap frame ++ [] := by
    rw [List.append_nil, ← hrest, ← harrived, hdecoded.stream]
    simp only [List.append_assoc]
  obtain ⟨later, hdone, htail⟩ :=
    Server.frame_prefixCode.split hnone hdecoded.bodies hbodies hcut
  have hfirst := parse_said hsize done.length
  rw [hdone, List.take_left] at hfirst
  refine ⟨done.length, ?_, fun hnofail hempty hfull hall => ?_⟩
  · rw [hreceived, hdecoded.messages]
    exact hfirst
  · have hlater : ∀ body ∈ later, Server.FrameBody body := fun body hbody =>
      hbodies body (hdone ▸ List.mem_append_right done hbody)
    have hquiet : r.socket = [] := hsame.socket.symm.trans hempty
    have hnil : rest = [] := by
      rw [← hrest] at hall
      exact List.append_right_eq_self.mp hall.symm
    rw [hquiet, hnil, List.append_nil, List.append_nil] at htail
    -- the cycle could stop only at a header that no client writes
    have hreading : r.reading ≠ .stopped := by
      intro hstopped
      cases hdecoded.inFrame with
      | header hheader => exact absurd (hheader.symm.trans hstopped) (by decide)
      | body hbody => exact absurd (hbody.symm.trans hstopped) (by decide)
      | failed _ hmem => exact hnofail (hfail hmem)
      | thrown _ hlength hsize =>
        have hheader := Server.header_of_stream (x := []) hlater hnone hlength
          (by rw [List.append_nil]; exact htail)
        exact absurd hheader (Nat.not_lt.mpr hsize)
    -- no frame is left, since the part is less than one
    have hlength := congrArg List.length hdone
    rw [List.length_map, List.length_append] at hlength
    cases later with
    | nil => exact hlength.symm
    | cons body later =>
      rw [List.append_nil, List.flatMap_cons] at htail
      exact absurd htail (hdecoded.inFrame.no_frame hreading (hsame.readbuf ▸ hfull)
        (hlater body List.mem_cons_self) _)

/-- What a session has received are the first messages of its client. -/
theorem received_isPrefix (hrun : Run step WritesAlone (Net.start maxUser) as net)
    (hsize : ∀ m ∈ said u as, m.serialize.length < 2 ^ 31 - 16) :
    ofSession u net.sys.received <+: said u as := by
  obtain ⟨k, hreceived, -⟩ := received_take hrun hsize
  exact hreceived ▸ List.take_prefix ..

/-- With no write outstanding, the whole stream of a client is on the socket. -/
theorem Uplinked.socket_eq (h : Uplinked as net u) (hidle : (net.links u).up.outstanding = []) :
    (net.links u).up.socket = ((said u as).map ChatMessage.serialize).flatMap frame := by
  rw [← frames_eq, ← h.sent]
  cases h.order with
  | idle _ hsent hsocket =>
    rw [h.atOnce, List.append_nil] at hsent
    rw [hsocket, hsent]
  | writing hone =>
    rw [hidle] at hone
    cases hone

/-- **What the server gets.** In every run in which no write buffer is filled while a write
is outstanding, a session has received the messages that its client was made to write, in
order and from the first one on; without a read error all of them, once everything has come
through. -/
theorem server_delivery (hrun : Run step WritesAlone (Net.start maxUser) as net)
    (hsize : ∀ m ∈ said u as, m.serialize.length < 2 ^ 31 - 16) :
    ofSession u net.sys.received <+: said u as ∧
      (Action.read u .fail ∉ as → UpIdle (net.links u) →
        ofSession u net.sys.received = said u as) := by
  refine ⟨received_isPrefix hrun hsize, fun hnofail hidle => ?_⟩
  obtain ⟨k, hreceived, hall⟩ := received_take hrun hsize
  have hk := hall hnofail hidle.socket hidle.readbuf <| by
    rw [hidle.arrived, List.take_length]
    exact (uplinked_of_run hrun u).socket_eq hidle.outstanding
  rw [hreceived, hk, List.take_length]

/-- Whatever `ann` writes in `annAlone` is short. -/
theorem said_annAlone {msg : ChatMessage} (h : msg ∈ said u annAlone) :
    msg.serialize.length < 2 ^ 31 - 16 := by
  obtain ⟨input, hmem, hmsg⟩ := mem_said h
  simp only [annAlone, upload, download, List.mem_append, List.mem_cons, List.not_mem_nil,
    Action.input.injEq, reduceCtorEq, or_false, false_or] at hmem
  rcases hmem with ⟨-, rfl⟩ | ⟨-, rfl⟩
  · obtain rfl := Option.some.inj (Except.ok.inj hmsg)
    decide
  · obtain rfl := Option.some.inj (Except.ok.inj hmsg)
    decide

/-- Her session has got the session id and the line. -/
theorem server_delivery_annAlone :
    ∃ net : Net, ofSession 0 net.sys.received =
      [{ messageType := .loginMessage, content := ascii "a" },
        { messageType := .allMessage, content := ascii "hi" }] := by
  obtain ⟨net, hrun, hnet⟩ := exists_run_of_exec step WritesAlone (Net.start 5) annAlone
    (fun net => decide ((net.links 0).up.outstanding = [] ∧
      (net.links 0).upCount = (net.links 0).up.socket.length ∧ (net.links 0).socket = [] ∧
      ¬ (net.links 0).readbuf.Full)) (by decide)
  obtain ⟨houtstanding, hcount, hsocket, hfull⟩ := of_decide_eq_true hnet
  obtain ⟨-, hall⟩ := server_delivery (u := 0) hrun fun m hm => said_annAlone hm
  refine ⟨net, (hall (by simp [annAlone, upload, download])
    ⟨houtstanding, hcount, hsocket, hfull⟩).trans ?_⟩
  rfl

/-! ## From client to client -/

/-- Nothing is too long for the length that the code computes as an `int`. -/
structure Short (as : List Action) (net : Net) : Prop where
  said : ∀ u, ∀ m ∈ said u as, m.serialize.length < 2 ^ 31 - 16
  posted : ∀ u, ∀ m ∈ sentTo u net.sys.srv.posted, m.serialize.length < 2 ^ 31 - 16

/-- **What a client shows.** Whatever `OnMessage` of a client is called with was composed by
the server, or it is a public, a party or a whisper message that an admitted client was made
to write, with its receiver and its content. -/
theorem shown_source (hrun : Run step WritesAlone (Net.start maxUser) as net)
    (hshort : Short as net) :
    ∀ v, ∀ m ∈ (net.links v).client.messages, IsComposed m ∨ IsRelayed m ∧
      ∃ u, (∃ l ∈ net.sys.admitted, l.session = u) ∧
        ∃ msg ∈ said u as, m = { msg with sender := m.sender } := by
  intro v m hm
  obtain ⟨bs, hserver⟩ := hrun.simulate step_simulated
  have hposted := (client_isPrefix hrun (hshort.posted v)).subset hm
  obtain ⟨p, hp, rfl⟩ := List.mem_map.mp hposted
  have hconserved := Server.conserved_of_run hserver
  obtain ⟨-, hcontent⟩ := Server.sourced_of_run hserver p (List.mem_of_mem_filter hp)
  refine hcontent.imp_right ?_
  rintro ⟨hrelayed, d, hd, heq⟩
  obtain ⟨sent, hsent, hstamped⟩ := hconserved.sent hd
  refine ⟨hrelayed, d.1, hconserved.admitted hd, sent.withoutSender, ?_, heq ▸ hstamped⟩
  exact (received_isPrefix hrun (hshort.said d.1)).subset (Server.mem_ofSession hsent)

/-- Nothing in `annAlone` is too long. -/
theorem short_annAlone : ∃ net, Run step WritesAlone (Net.start 5) annAlone net ∧
    Short annAlone net ∧
    (net.links 0).client.messages.filter (fun m => decide (IsRelayed m)) =
      [{ messageType := .allMessage, sender := ascii "ann", content := ascii "hi" }] := by
  obtain ⟨net, hrun, hnet⟩ := exists_run_of_exec step WritesAlone (Net.start 5) annAlone
    (fun net => decide ((∀ p ∈ net.sys.srv.posted, p.2.serialize.length < 32) ∧
      (net.links 0).client.messages.filter (fun m => decide (IsRelayed m)) =
        [{ messageType := .allMessage, sender := ascii "ann", content := ascii "hi" }]))
    (by decide)
  obtain ⟨hposted, hmessages⟩ := of_decide_eq_true hnet
  refine ⟨net, hrun, ⟨fun u m hm => said_annAlone hm, fun u m hm => ?_⟩, hmessages⟩
  obtain ⟨p, hp, rfl⟩ := List.mem_map.mp hm
  exact Nat.lt_trans (hposted p (List.mem_of_mem_filter hp)) (by decide)

/-- What her client shows was written by a client. -/
theorem shown_source_annAlone :
    ∃ u, ∃ msg ∈ said u annAlone,
      ({ messageType := .allMessage, sender := ascii "ann", content := ascii "hi" } :
        ChatMessage) = { msg with sender := ascii "ann" } := by
  obtain ⟨net, hrun, hshort, hmessages⟩ := short_annAlone
  have hshown := List.mem_of_mem_filter (List.mem_of_mem_head? (by rw [hmessages]; rfl))
  obtain hcomposed | ⟨-, u, -, hsaid⟩ := shown_source hrun hshort 0 _ hshown
  · exact absurd (Or.inl rfl) hcomposed.not_relayed
  · exact ⟨u, hsaid⟩

/-- The messages of a session in the order of the calls of `OnMessage`. -/
theorem ofSession_eq (u : SessionRef) (dispatched : List (SessionRef × ChatMessage)) :
    (dispatched.reverse.filter fun d => d.1 == u).map (fun d => d.2.withoutSender) =
      ofSession u dispatched := rfl

/-- **One order for all.** There is one order of all messages, that of the calls of the
server's `OnMessage`. The messages of each client stand in it in the order in which the
client has written them, without a gap. What is relayed to a client is shown by it in this
order, each message so many times: public messages and whispers at most once. -/
theorem total_order (hrun : Run step WritesAlone (Net.start maxUser) as net)
    (hshort : Short as net) :
    ∃ order : List (SessionRef × ChatMessage),
      (∀ u, (order.filter fun d => d.1 == u).map (fun d => d.2.withoutSender) <:+: said u as) ∧
      ∀ v, ∃ copies : List (Nat × ChatMessage), copies.map (·.2) = order.map (·.2) ∧
        (∀ c ∈ copies, (¬ IsRelayed c.2 → c.1 = 0) ∧
          (c.2.messageType ≠ .partyMessage → c.1 ≤ 1)) ∧
        (net.links v).client.messages.filter (fun m => decide (IsRelayed m)) <+:
          copies.flatMap fun c => List.replicate c.1 c.2 := by
  obtain ⟨bs, hserver⟩ := hrun.simulate step_simulated
  refine ⟨net.sys.dispatched.reverse, fun u => ?_, fun v => ?_⟩
  · -- what the logins have used up comes first, what waits last
    obtain ⟨attempts, hline⟩ := (Server.conserved_of_run hserver).line u
    rw [ofSession_eq]
    refine List.IsInfix.trans ?_ (received_isPrefix hrun (hshort.said u)).isInfix
    rw [hline.order, ← List.append_assoc]
    exact List.infix_append ..
  · obtain ⟨copies, hcopies, hmay, hrelayed⟩ := Server.inOrderTo_of_run hserver v
    refine ⟨copies, hcopies, hmay, ?_⟩
    rw [← hrelayed]
    exact (client_isPrefix hrun (hshort.posted v)).filter _

/-- The one message that is shown to her stands in an order of what has been written. -/
theorem total_order_annAlone :
    ∃ order : List (SessionRef × ChatMessage),
      (order.filter fun d => d.1 == 0).map (fun d => d.2.withoutSender) <:+: said 0 annAlone ∧
      ∃ copies : List (Nat × ChatMessage), copies.map (·.2) = order.map (·.2) ∧
        [{ messageType := .allMessage, sender := ascii "ann", content := ascii "hi" }] <+:
          copies.flatMap fun c => List.replicate c.1 c.2 := by
  obtain ⟨net, hrun, hshort, hmessages⟩ := short_annAlone
  obtain ⟨order, hwritten, hshown⟩ := total_order hrun hshort
  obtain ⟨copies, hcopies, -, hprefix⟩ := hshown 0
  rw [hmessages] at hprefix
  exact ⟨order, hwritten 0, copies, hcopies, hprefix⟩

end BoostChat.Network
