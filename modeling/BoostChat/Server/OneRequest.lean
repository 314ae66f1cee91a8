import BoostChat.Server.MessageCodec
import BoostChat.Server.Parties

/-!
# One request

A user sends a request, and it is handled before anything else happens.

* `requestLines_create`, `requestLines_delete` — what a creation and a deletion that are not
  refused log; `fits_create_iff` and `fits_delete_iff` say for which names the lines fit;
* `partyRequest_readBack` — requests with names of nearly two gigabytes can be received;
* `Ready.request`, `Ready.dispatch_error` — the request of a user whose queues are empty, when
  its handler returns and when it throws;
* `Alone.create`, `Alone.create_throws` — the creation of the only party.
-/

namespace BoostChat.Server

open Lib

variable {parse : Bytes → Option ChatMessage} {s t : Sys} {user : SessionRef} {body : Bytes}
  {msg : ChatMessage} {o : Oracle} {srv : TcpServer} {c : UInt32} {partyName : Bytes}

/-! ## Requests that are not refused -/

/-- The manager after the creation of a party. -/
def PartyManager.created (pm : PartyManager) (userId : UInt32) (partyName : Bytes) :
    PartyManager :=
  ({ pm with partyIdCounter := pm.partyIdCounter + 1 } : PartyManager).store
    (newParty pm userId partyName)

/-- A creation that is not refused. -/
theorem handlePartyCreate_created (hcreates : TcpServer.Creates o srv user msg) :
    srv.partyManager.createParty (srv.sessions user).id msg.content =
      (srv.partyManager.created (srv.sessions user).id msg.content,
        some (newParty srv.partyManager (srv.sessions user).id msg.content)) ∧
    srv.handlePartyCreate o user msg =
      (({ srv with
          partyManager := srv.partyManager.created (srv.sessions user).id msg.content
          }).setPartyId user srv.partyManager.partyIdCounter).sendServerMessage user
        (ascii "Party creation successful") := by
  obtain ⟨-, hcontent, hparty, hfree⟩ := hcreates
  have hcreated : srv.partyManager.createParty (srv.sessions user).id msg.content =
      (srv.partyManager.created (srv.sessions user).id msg.content,
        some (newParty srv.partyManager (srv.sessions user).id msg.content)) := if_neg hcontent
  have hout : ¬ (srv.sessions user).partyId ≠ 0 := not_not.mpr hparty
  refine ⟨hcreated, ?_⟩
  rw [TcpServer.handlePartyCreate, if_neg hcontent, if_neg hout, hfree, hcreated]
  rfl

theorem requestLines_create (hcreates : TcpServer.Creates o srv user msg) :
    srv.requestLines o user msg =
      srv.partyManager.createPartyLines (srv.sessions user).id msg.content := by
  obtain ⟨htype, hcontent, hparty, hfree⟩ := hcreates
  have hguard : ¬ (msg.content = [] ∨ (srv.sessions user).partyId ≠ 0 ∨
      srv.partyManager.isPartyNameTaken o.iterOrder msg.content = true) := by
    rintro (hempty | hin | htaken)
    · exact hcontent hempty
    · exact hin hparty
    · rw [hfree] at htaken
      cases htaken
  simp only [TcpServer.requestLines, htype, TcpServer.handlePartyCreateLines, if_neg hguard]

/-- A deletion that is not refused. -/
theorem handlePartyDelete_own {party : Party} (hcontent : msg.content ≠ [])
    (hfound : srv.partyManager.findPartyByName o.iterOrder msg.content = some party)
    (hcreator : party.partyCreator = (srv.sessions user).id)
    (hlive : party.partyId ∈ srv.partyManager.mapParties) (hzero : party.partyId ≠ 0) :
    srv.handlePartyDelete o user msg =
      (({ srv with partyManager := { srv.partyManager with
            mapParties := srv.partyManager.mapParties.erase party.partyId } } :
          TcpServer).resetPartyIds party.partyId).sendServerMessage user
        (ascii "Party delete successful") := by
  rw [TcpServer.handlePartyDelete, if_neg hcontent, PartyManager.deleteParty, hfound]
  simp only [if_pos hcreator, if_pos hlive, if_neg hzero]

theorem requestLines_delete {party : Party} (htype : msg.messageType = .partyDelete)
    (hcontent : msg.content ≠ [])
    (hfound : srv.partyManager.findPartyByName o.iterOrder msg.content = some party)
    (hcreator : party.partyCreator = (srv.sessions user).id)
    (hlive : party.partyId ∈ srv.partyManager.mapParties) :
    srv.requestLines o user msg =
      [ascii "[SERVER] Deleted party: " ++ cString msg.content, party.destroyedLine] := by
  simp only [TcpServer.requestLines, htype, TcpServer.handlePartyDeleteLines, if_neg hcontent,
    PartyManager.deletePartyLines, hfound, if_pos hcreator, if_pos hlive]

theorem Party.length_destroyedLine (party : Party) :
    party.destroyedLine.length = (cString party.partyName).length + 47 := by
  have hbefore : (ascii "Party ").length = 6 := rfl
  have hbehind : (ascii " is being destroyed. Cleaning up members.").length = 41 := rfl
  rw [Party.destroyedLine, List.length_append, List.length_append]
  omega

/-- Of the two lines of a deletion, the destructor's is the longer one. -/
theorem fits_delete_iff (party : Party) (hname : partyName = party.partyName) :
    Logger.Fits [ascii "[SERVER] Deleted party: " ++ cString partyName, party.destroyedLine] ↔
      (cString party.partyName).length + 47 < Logger.intMax := by
  have hdeleted : (ascii "[SERVER] Deleted party: ").length = 24 := rfl
  rw [Logger.fits_cons, Logger.fits_cons, and_iff_left Logger.fits_nil, List.length_append,
    hdeleted, party.length_destroyedLine, hname]
  omega

theorem onMessage_delete_throws {party : Party} (htype : msg.messageType = .partyDelete)
    (hcontent : msg.content ≠ [])
    (hfound : srv.partyManager.findPartyByName o.iterOrder msg.content = some party)
    (hname : msg.content = party.partyName)
    (hcreator : party.partyCreator = (srv.sessions user).id)
    (hlive : party.partyId ∈ srv.partyManager.mapParties)
    (hlong : Logger.intMax ≤ (cString party.partyName).length + 47) :
    ∃ e, srv.onMessage o user msg = .error e := by
  refine TcpServer.onMessage_of_not_fits ?_
  rw [requestLines_delete htype hcontent hfound hcreator hlive]
  exact mt (fits_delete_iff party hname).mp (Nat.not_lt.mpr hlong)

/-! ## Long names -/

/-- As many letters "a". -/
def longName (length : Nat) : Bytes := List.replicate length 97

theorem length_longName (length : Nat) : (cString (longName length)).length = length := by
  have hno : 0 ∉ longName length := fun hzero =>
    absurd (List.eq_of_mem_replicate hzero) (by decide)
  rw [cString_of_no_zero hno, longName, List.length_replicate]

theorem longName_ne_nil {length : Nat} (hpos : 0 < length) : longName length ≠ [] :=
  List.ne_nil_of_length_pos (by rwa [longName, List.length_replicate])

/-- Such a request can be received. -/
theorem partyRequest_readBack {messageType : ChatMessageType} {length : Nat}
    (htype : .ofNumber messageType.number = messageType) (hlength : length + 17 < 2 ^ 31 - 16) :
    ChatMessage.parseFromArray (partyRequest messageType (longName length)).serialize =
      some (partyRequest messageType (longName length)) := by
  have hcanonical := ChatMessage.canonical_of_named htype
    (rfl : (partyRequest messageType (longName length)).unknownFields = [])
  refine hcanonical.readBack (Nat.lt_of_le_of_lt ?_ hlength)
  have hname : (longName length).length = length := List.length_replicate ..
  have hfield : (Wire.Field.encode ⟨4, .bytes (longName length)⟩).length ≤ 6 + length := by
    have htag : (Wire.varint 34).length = 1 := rfl
    have hsize : (Wire.varint (longName length).length).length ≤ 5 :=
      Wire.length_varintFuel_le (k := 4) (by omega)
    show (Wire.varint 34 ++ (Wire.varint (longName length).length ++ longName length)).length ≤ _
    rw [List.length_append, List.length_append, htag]
    omega
  have hcontent := ChatMessage.length_bytesField_le 4 (longName length)
  have hweight : (partyRequest messageType (longName length)).weight =
      (if messageType.number = 0 then 0 else 2) +
        (0 + (0 + (Wire.encode (Wire.bytesField 4 (longName length))).length)) := rfl
  have hnumber : (if messageType.number = 0 then 0 else 2) ≤ 2 := by split <;> omega
  have hunknown : (partyRequest messageType (longName length)).unknownFields.length = 0 := rfl
  have hserialize := (partyRequest messageType (longName length)).length_serialize_le
  omega

theorem login_readBack :
    ChatMessage.parseFromArray (login "a").serialize = some (login "a") :=
  (ChatMessage.canonical_of_named rfl rfl).readBack (by decide)

/-! ## A user whose queues are empty -/

/-- A connected user with empty queues, while nobody is served. -/
structure Ready (s : Sys) (user : SessionRef) : Prop where
  idle : s.current = none
  online : user ∈ s.srv.users
  known : user < s.srv.nextSession
  connected : s.srv.isConnected user = true
  input : (s.srv.sessions user).inputQueue = []
  output : (s.srv.sessions user).outputQueue = []

/-- The message as the session's queue holds it. -/
def Sys.stamped (s : Sys) (user : SessionRef) (msg : ChatMessage) : ChatMessage :=
  { msg with sender := (s.srv.sessions user).userEntity.userId }

/-- A message of the user has arrived, and the user is served. -/
def Sys.asked (s : Sys) (user : SessionRef) (msg : ChatMessage) : Sys :=
  { s with
    srv := s.srv.setSession user ((s.srv.sessions user).withQueues [s.stamped user msg] [])
    current := some user
    received := (user, msg) :: s.received }

theorem Sys.asked_session (s : Sys) (user : SessionRef) (msg : ChatMessage) :
    (s.asked user msg).srv.sessions user =
      (s.srv.sessions user).withQueues [s.stamped user msg] [] :=
  TcpServer.setSession_sessions_self ..

theorem Ready.ask (h : Ready s user) (hparse : parse body = some msg) :
    Run (step parse) anyStep s [.receive user body, .visit user] (s.asked user msg) := by
  have hread : (s.srv.sessions user).readBody parse body =
      (s.srv.sessions user).withQueues [s.stamped user msg] [] := by
    rw [UserSession.readBody_eq, hparse, h.input, h.output]
    rfl
  have hreceive : step parse s (.receive user body) =
      some { s.asked user msg with current := none } := by
    simp only [step, if_pos h.known, hread, hparse]
    rw [Sys.asked, ← h.idle]
    rfl
  have hconnected : (s.asked user msg).srv.isConnected user = true := by
    rw [TcpServer.isConnected, s.asked_session]
    exact h.connected
  have hvisit : step parse { s.asked user msg with current := none } (.visit user) =
      some (s.asked user msg) := if_pos ⟨rfl, h.online, hconnected⟩
  exact Run.cons trivial hreceive (Run.cons trivial hvisit (Run.nil _))

/-- Taking the message out of the queue restores the session. -/
theorem Ready.restored (h : Ready s user) :
    (s.asked user msg).srv.setSession user ((s.srv.sessions user).withQueues [] []) = s.srv := by
  have hsession : (s.srv.sessions user).withQueues (s.srv.sessions user).inputQueue
      (s.srv.sessions user).outputQueue = s.srv.sessions user := rfl
  rw [h.input, h.output] at hsession
  rw [hsession, TcpServer.setSession, Sys.asked, TcpServer.setSession]
  simp only [Function.update_idem, Function.update_eq_self]

theorem Sys.asked_take (s : Sys) (user : SessionRef) (msg : ChatMessage) :
    ((s.asked user msg).srv.sessions user).getMessageInUserQueue =
      ((s.srv.sessions user).withQueues [] [], some (s.stamped user msg)) := by
  rw [s.asked_session]
  rfl

/-- A handler that throws ends the run. -/
theorem Ready.dispatch_error (h : Ready s user) {e : StdException}
    (hmessage : s.srv.onMessage o user (s.stamped user msg) = .error e) :
    step parse (s.asked user msg) (.dispatch o) = none := by
  have hcurrent : (s.asked user msg).current = some user := rfl
  have htake := s.asked_take user msg
  simp only [step, hcurrent, htake, h.restored, hmessage]

/-- A request is received and handled. -/
theorem Ready.request (h : Ready s user) (hparse : parse body = some msg)
    (hmessage : s.srv.onMessage o user (s.stamped user msg) = .ok srv)
    (hdone : (srv.sessions user).pending = []) :
    ∃ t, Run (step parse) anyStep s [.receive user body, .visit user, .dispatch o, .finish] t ∧
      t.srv = srv ∧ t.current = none := by
  have hcurrent : (s.asked user msg).current = some user := rfl
  have htake := s.asked_take user msg
  have hdispatch : step parse (s.asked user msg) (.dispatch o) = some { s.asked user msg with
      srv := srv
      dispatched := (user, s.stamped user msg) :: s.dispatched } := by
    simp only [step, hcurrent, htake, h.restored, hmessage]
    rfl
  -- the queue is empty after the one request, so the session can be left
  have hnone : (srv.sessions user).getMessageInUserQueue.2.isNone = true := by
    rcases (srv.sessions user).getMessageInUserQueue_spec with
      ⟨-, hget⟩ | ⟨next, rest, input, output, hpending, -, -⟩
    · rw [hget]
      rfl
    · rw [hdone] at hpending
      cases hpending
  have hfinish : step parse { s.asked user msg with
      srv := srv
      dispatched := (user, s.stamped user msg) :: s.dispatched } .finish =
        some { s.asked user msg with
          srv := srv
          dispatched := (user, s.stamped user msg) :: s.dispatched
          current := none } := by
    simp only [step, hcurrent, hnone, if_true]
  have hserved : Run (step parse) anyStep (s.asked user msg) [.dispatch o, .finish] _ :=
    Run.cons trivial hdispatch (Run.cons trivial hfinish (Run.nil _))
  exact ⟨_, (h.ask hparse).append hserved, rfl, rfl⟩

/-- `ann` is there and in no party, there are no parties, and the next id is `c`. -/
structure Alone (c : UInt32) (s : Sys) : Prop where
  ready : Ready s 0
  account : (s.srv.sessions 0).id = 1
  outside : s.srv.partyIds 0 = 0
  manager : s.srv.partyManager = { partyIdCounter := c }

/-- The party of `ann`, with the id `c`. -/
def annsPartyWith (c : UInt32) (partyName : Bytes := ascii "p") : Party where
  partyId := c
  partyName := partyName
  partyCreator := 1
  members := [1]

/-- The manager after `ann` has created it. -/
def managerWith (c : UInt32) (partyName : Bytes := ascii "p") : PartyManager :=
  { partyIdCounter := c + 1, mapParties := AList.insert c (annsPartyWith c partyName) ∅ }

/-- Of the three lines of the creation, the constructor's is the longest one. -/
theorem fits_create_iff (hname : partyName ≠ []) :
    Logger.Fits (({ partyIdCounter := c } : PartyManager).createPartyLines 1 partyName) ↔
      (cString partyName).length + (Logger.signed c).length + 36 < Logger.intMax := by
  let party : Party := { partyId := c, partyCreator := 1, partyName }
  have hlines : ({ partyIdCounter := c } : PartyManager).createPartyLines 1 partyName =
      party.partyLine :: party.addMemberLines 1 := if_neg hname
  have hcreated : party.partyLine.length =
      (cString partyName).length + (Logger.signed c).length + 36 := by
    have hid : (ascii "Party Created: ID=").length = 18 := rfl
    have hcreator : (ascii ", Creator=").length = 10 := rfl
    have hbefore : (ascii ", Name=").length = 7 := rfl
    have hone : (Logger.signed 1).length = 1 := rfl
    simp only [Party.partyLine, List.length_append, party]
    omega
  have hadded : (ascii "Add Member in Party " ++ cString partyName ++ ascii ": " ++
      Logger.signed 1).length = (cString partyName).length + 23 := by
    have hbefore : (ascii "Add Member in Party ").length = 20 := rfl
    have hbehind : (ascii ": " ++ Logger.signed 1).length = 3 := rfl
    rw [List.append_assoc, List.length_append, List.length_append]
    omega
  have hmembers : (party.addMember 1).printMembersLine.length = 15 := rfl
  have hmax : Logger.intMax = 2147483647 := rfl
  rw [hlines, Party.addMemberLines, Logger.fits_cons, Logger.fits_cons, Logger.fits_cons,
    and_iff_left Logger.fits_nil, hcreated, hadded, hmembers, hmax]
  omega

theorem Ready.of_setPartyId {user : SessionRef} {k : UInt32} (h : Ready s user)
    (hidle : t.current = none) (husers : t.srv.users = s.srv.users)
    (hnext : t.srv.nextSession = s.srv.nextSession)
    (hsession : t.srv.sessions user = (s.srv.sessions user).setPartyId k) : Ready t user where
  idle := hidle
  online := husers ▸ h.online
  known := hnext ▸ h.known
  connected := by
    rw [TcpServer.isConnected, hsession]
    exact h.connected
  input := by
    rw [hsession]
    exact h.input
  output := by
    rw [hsession]
    exact h.output

theorem Alone.creates (h : Alone c s) (hname : partyName ≠ []) :
    TcpServer.Creates o s.srv 0 (s.stamped 0 (partyRequest .partyCreate partyName)) := by
  refine ⟨rfl, hname, h.outside, ?_⟩
  rw [h.manager]
  exact (isPartyNameTaken_order _ .entries _ _).trans rfl

/-- The creation of the party, when its lines fit. -/
theorem Alone.create (h : Alone c s) (hname : partyName ≠ [])
    (hparse : parse body = some (partyRequest .partyCreate partyName))
    (hfits : Logger.Fits (({ partyIdCounter := c } : PartyManager).createPartyLines 1 partyName)) :
    ∃ t, Run (step parse) anyStep s [.receive 0 body, .visit 0, .dispatch {}, .finish] t ∧
      Ready t 0 ∧ (t.srv.sessions 0).id = 1 ∧ t.srv.partyIds 0 = c ∧
      t.srv.partyManager = managerWith c partyName := by
  have hcreates : TcpServer.Creates {} s.srv 0
      (s.stamped 0 (partyRequest .partyCreate partyName)) := h.creates hname
  obtain ⟨-, hhandled⟩ := handlePartyCreate_created hcreates
  have hlines := requestLines_create hcreates
  rw [h.account, h.manager] at hhandled hlines
  have hfit : Logger.Fits (s.srv.requestLines {} 0
      (s.stamped 0 (partyRequest .partyCreate partyName))) := by
    rw [hlines]
    exact hfits
  have hmessage : s.srv.onMessage {} 0 (s.stamped 0 (partyRequest .partyCreate partyName)) =
      .ok _ := TcpServer.logged_eq_ok.mpr ⟨hfit, hhandled⟩
  have hsession := TcpServer.setSession_sessions_self s.srv 0 ((s.srv.sessions 0).setPartyId c)
  obtain ⟨t, hrun, hsrv, hidle⟩ := h.ready.request hparse hmessage (by
    show ((s.srv.setSession 0 ((s.srv.sessions 0).setPartyId c)).sessions 0).pending = []
    rw [hsession]
    show (s.srv.sessions 0).outputQueue ++ (s.srv.sessions 0).inputQueue = []
    rw [h.ready.input, h.ready.output, List.append_nil])
  have hafter : t.srv.sessions 0 = (s.srv.sessions 0).setPartyId c := by
    rw [hsrv]
    exact hsession
  refine ⟨t, hrun, h.ready.of_setPartyId hidle (by rw [hsrv]; rfl) (by rw [hsrv]; rfl) hafter,
    ?_, ?_, by rw [hsrv]; rfl⟩
  · rw [hafter]
    exact h.account
  · rw [TcpServer.partyIds, hafter]
    rfl

/-- The creation of a party whose name is too long to be logged. -/
theorem Alone.create_throws (h : Alone c s) (hname : partyName ≠ [])
    (hlong : Logger.intMax ≤ (cString partyName).length + (Logger.signed c).length + 36) :
    ∃ e, s.srv.onMessage o 0 (s.stamped 0 (partyRequest .partyCreate partyName)) = .error e := by
  refine TcpServer.onMessage_of_not_fits ?_
  rw [requestLines_create (h.creates hname), h.account, h.manager]
  exact mt (fits_create_iff hname).mp (Nat.not_lt.mpr hlong)

/-- `ann` logs in. -/
def annLogsIn : List Action :=
  [.accept, .receive 0 (login "a").serialize, .sweep, .examine annAndBob]

theorem alone_annLogsIn (hlogin : parse (login "a").serialize = some (login "a")) :
    ∃ s, Run (step parse) anyStep (Sys.start 5) annLogsIn s ∧ Alone 100000 s := by
  obtain ⟨s, hrun, hs⟩ := exists_run_of_exec (step (parseSerialized [login "a"])) anyStep
    (Sys.start 5) annLogsIn
    (fun s => decide (s.current = none ∧ 0 ∈ s.srv.users ∧ 0 < s.srv.nextSession ∧
      s.srv.isConnected 0 = true ∧ (s.srv.sessions 0).inputQueue = [] ∧
      (s.srv.sessions 0).outputQueue = [] ∧ (s.srv.sessions 0).id = 1 ∧
      s.srv.partyIds 0 = 0 ∧ s.srv.partyManager.partyIdCounter = 100000 ∧
      s.srv.partyManager.mapParties.entries = [])) (by decide)
  obtain ⟨hidle, honline, hknown, hconnected, hinput, houtput, haccount, houtside, hcounter,
    hentries⟩ := of_decide_eq_true hs
  have hparties : s.srv.partyManager.mapParties = ∅ := AList.ext hentries
  -- the login is the only message that is read
  have hsame : ∀ a ∈ annLogsIn, ∀ s, step parse s a = step (parseSerialized [login "a"]) s a := by
    intro a ha s
    have hread : parseSerialized [login "a"] (login "a").serialize = some (login "a") := by rfl
    simp only [annLogsIn, List.mem_cons, List.not_mem_nil, or_false] at ha
    rcases ha with rfl | rfl | rfl | rfl
    · rfl
    · simp only [step, UserSession.readBody, hlogin, hread]
    · rfl
    · rfl
  refine ⟨s, hrun.congr hsame, ⟨hidle, honline, hknown, hconnected, hinput, houtput⟩, haccount,
    houtside, ?_⟩
  rw [← hcounter, ← hparties]

end BoostChat.Server
