import BoostChat.Server.TcpServer

/-!
# What the handlers do

The one place that looks into the handlers of client messages. What later modules say of
a message (what it leaves alone, what becomes of the parties, how it is answered) is read
off these inversions.

* `RequestOutcome` — the state that a request about a party leaves, by how the request
  ends; `onMessage_request` shows that every request ends so, or with an exception of the
  logger.
* `Handled` — the same for every message that `OnMessage` returns on (`onMessage_handled`).
-/

namespace BoostChat.Server

open Lib

/-- The party that a message creates. -/
def newParty (pm : PartyManager) (userId : UInt32) (partyName : Bytes) : Party where
  partyId := pm.partyIdCounter
  partyName := partyName
  partyCreator := userId
  members := [userId]

namespace TcpServer

variable {o : Oracle} {s s' : TcpServer} {user : SessionRef} {msg : ChatMessage}

/-! ## Requests about parties -/

/-- The party id of each session. -/
def partyIds (s : TcpServer) : SessionRef → UInt32 := fun u => (s.sessions u).partyId

/-- The message creates a party: it is not refused. -/
def Creates (o : Oracle) (s : TcpServer) (user : SessionRef) (msg : ChatMessage) : Prop :=
  msg.messageType = .partyCreate ∧ msg.content ≠ [] ∧ s.partyIds user = 0 ∧
    s.partyManager.isPartyNameTaken o.iterOrder msg.content = false

/-- The message makes the user leave the party that its content names. -/
def Leaves (o : Oracle) (s : TcpServer) (user : SessionRef) (msg : ChatMessage) (party : Party) :
    Prop :=
  msg.messageType = .partyLeave ∧ msg.content ≠ [] ∧ s.partyIds user ≠ 0 ∧
    s.partyManager.findPartyByName o.iterOrder msg.content = some party ∧
    party.partyCreator ≠ (s.sessions user).id

instance (o : Oracle) (s : TcpServer) (user : SessionRef) (msg : ChatMessage) :
    Decidable (Creates o s user msg) := inferInstanceAs (Decidable (_ ∧ _))

instance (o : Oracle) (s : TcpServer) (user : SessionRef) (msg : ChatMessage) (party : Party) :
    Decidable (Leaves o s user msg party) := inferInstanceAs (Decidable (_ ∧ _))

/-- A request about a party. -/
def IsPartyRequest : ChatMessageType → Bool
  | .partyCreate | .partyJoin | .partyDelete | .partyLeave => true
  | _ => false

/-- What a request about a party logs. -/
def requestLines (o : Oracle) (s : TcpServer) (user : SessionRef) (msg : ChatMessage) :
    List Bytes :=
  match msg.messageType with
  | .partyCreate => s.handlePartyCreateLines o user msg
  | .partyJoin => s.handlePartyJoinLines o user msg
  | .partyDelete => s.handlePartyDeleteLines o user msg
  | .partyLeave => s.handlePartyLeaveLines o user msg
  | _ => []

theorem requestLines_other (hrequest : IsPartyRequest msg.messageType = false) :
    s.requestLines o user msg = [] := by
  cases htype : msg.messageType with simp only [requestLines, htype]
  | partyCreate | partyJoin | partyDelete | partyLeave => simp [htype, IsPartyRequest] at hrequest

theorem logged_eq_ok {lines : List Bytes} :
    logged lines s = .ok s' ↔ Logger.Fits lines ∧ s = s' := by
  rw [← Logger.logAll_ok_iff, logged]
  cases Logger.logAll lines with
  | error e => simp [Except.map]
  | ok => simp [Except.map]

/-- The parties without the one that has the id. -/
def withoutParty (s : TcpServer) (partyId : UInt32) : TcpServer :=
  { s with partyManager :=
      { s.partyManager with mapParties := s.partyManager.mapParties.erase partyId } }

/-- The map holds the party under its own id. -/
def storing (s : TcpServer) (party : Party) : TcpServer :=
  { s with partyManager := s.partyManager.store party }

/-- How a request about a party ends, and the state that it leaves. -/
inductive RequestOutcome (o : Oracle) (s : TcpServer) (user : SessionRef) (msg : ChatMessage) :
    TcpServer → Prop
  | refused (hcreates : ¬ Creates o s user msg) (text : Bytes) :
      RequestOutcome o s user msg (s.sendErrorMessage user text)
  | created (hcreates : Creates o s user msg) :
      RequestOutcome o s user msg ((({ s with partyManager :=
        { s.partyManager with partyIdCounter := s.partyManager.partyIdCounter + 1 } }.storing
          (newParty s.partyManager (s.sessions user).id msg.content)).setPartyId user
            s.partyManager.partyIdCounter).sendServerMessage user
              (ascii "Party creation successful"))
  | joined (htype : msg.messageType = .partyJoin) (hout : s.partyIds user = 0) {party : Party}
      (hfound : s.partyManager.findPartyByName o.iterOrder msg.content = some party) :
      RequestOutcome o s user msg (((s.storing
        (party.addMember (s.sessions user).id)).setPartyId user party.partyId).sendServerMessage
          user (ascii "Party join successful"))
  | deleted (htype : msg.messageType = .partyDelete) {party : Party}
      (hfound : s.partyManager.findPartyByName o.iterOrder msg.content = some party)
      (hcreator : party.partyCreator = (s.sessions user).id) (hid : party.partyId ≠ 0) :
      RequestOutcome o s user msg (((s.withoutParty party.partyId).resetPartyIds
        party.partyId).sendServerMessage user (ascii "Party delete successful"))
  /-- A party with id 0 is deleted and reported as not deleted. -/
  | deletedZero (htype : msg.messageType = .partyDelete) {party : Party}
      (hfound : s.partyManager.findPartyByName o.iterOrder msg.content = some party)
      (hcreator : party.partyCreator = (s.sessions user).id) (hid : party.partyId = 0) :
      RequestOutcome o s user msg
        ((s.withoutParty party.partyId).sendErrorMessage user (ascii "Party delete Failed"))
  | left {party : Party} (hleaves : Leaves o s user msg party) :
      RequestOutcome o s user msg (((s.storing
        (party.removeMember (s.sessions user).id)).setPartyId user 0).sendServerMessage user
          (ascii "Party leave successful"))

/-- Only a request to create a party creates one. -/
theorem not_creates {messageType : ChatMessageType} (htype : msg.messageType = messageType)
    (hne : messageType ≠ .partyCreate) : ¬ Creates o s user msg := by
  rintro ⟨hcreate, -⟩
  exact hne (htype.symm.trans hcreate)

theorem handlePartyCreate_outcome (htype : msg.messageType = .partyCreate) :
    RequestOutcome o s user msg (s.handlePartyCreate o user msg) := by
  unfold handlePartyCreate
  by_cases hcontent : msg.content = []
  · rw [if_pos hcontent]
    exact .refused (fun hcreates => hcreates.2.1 hcontent) _
  rw [if_neg hcontent]
  by_cases hparty : (s.sessions user).partyId = 0
  swap
  · rw [if_pos hparty]
    exact .refused (fun hcreates => hparty hcreates.2.2.1) _
  rw [if_neg (not_not.mpr hparty)]
  cases htaken : s.partyManager.isPartyNameTaken o.iterOrder msg.content with
  | true =>
    rw [if_pos rfl]
    refine .refused (fun hcreates => ?_) _
    rw [hcreates.2.2.2] at htaken
    cases htaken
  | false =>
    -- `CreateParty` itself refuses an empty name only
    simp only [PartyManager.createParty, if_neg hcontent, Bool.false_eq_true, if_false]
    exact .created ⟨htype, hcontent, hparty, htaken⟩

theorem handlePartyJoin_outcome (htype : msg.messageType = .partyJoin) :
    RequestOutcome o s user msg (s.handlePartyJoin o user msg) := by
  have hno : ¬ Creates o s user msg := not_creates htype (by decide)
  unfold handlePartyJoin PartyManager.joinParty
  by_cases hcontent : msg.content = []
  · rw [if_pos hcontent]
    exact .refused hno _
  rw [if_neg hcontent]
  by_cases hparty : (s.sessions user).partyId = 0
  swap
  · rw [if_pos hparty]
    exact .refused hno _
  rw [if_neg (not_not.mpr hparty)]
  cases hfound : s.partyManager.findPartyByName o.iterOrder msg.content with
  | none => exact .refused hno _
  | some party => exact .joined htype hparty hfound

theorem handlePartyDelete_outcome (htype : msg.messageType = .partyDelete) :
    RequestOutcome o s user msg (s.handlePartyDelete o user msg) := by
  have hno : ¬ Creates o s user msg := not_creates htype (by decide)
  unfold handlePartyDelete PartyManager.deleteParty
  by_cases hcontent : msg.content = []
  · rw [if_pos hcontent]
    exact .refused hno _
  rw [if_neg hcontent]
  cases hfound : s.partyManager.findPartyByName o.iterOrder msg.content with
  | none => exact .refused hno _
  | some party =>
    by_cases hcreator : party.partyCreator = (s.sessions user).id
    swap
    · simp only [if_neg hcreator]
      exact .refused hno _
    by_cases hlive : party.partyId ∈ s.partyManager.mapParties
    swap
    · simp only [if_pos hcreator, if_neg hlive]
      exact .refused hno _
    -- `DeleteParty` returns the id of the party, whatever it is
    simp only [if_pos hcreator, if_pos hlive]
    by_cases hid : party.partyId = 0
    · rw [if_pos hid]
      exact .deletedZero htype hfound hcreator hid
    · rw [if_neg hid]
      exact .deleted htype hfound hcreator hid

theorem handlePartyLeave_outcome (htype : msg.messageType = .partyLeave) :
    RequestOutcome o s user msg (s.handlePartyLeave o user msg) := by
  have hno : ¬ Creates o s user msg := not_creates htype (by decide)
  unfold handlePartyLeave PartyManager.leaveParty
  by_cases hcontent : msg.content = []
  · rw [if_pos hcontent]
    exact .refused hno _
  rw [if_neg hcontent]
  by_cases hparty : (s.sessions user).partyId = 0
  · rw [if_pos hparty]
    exact .refused hno _
  rw [if_neg hparty]
  cases hfound : s.partyManager.findPartyByName o.iterOrder msg.content with
  | none => exact .refused hno _
  | some party =>
    by_cases hcreator : party.partyCreator = (s.sessions user).id
    · simp only [if_pos hcreator]
      exact .refused hno _
    · simp only [if_neg hcreator]
      exact .left ⟨htype, hcontent, hparty, hfound, hcreator⟩

/-- **Requests about parties.** Each ends so when the lines it logs fit. -/
theorem onMessage_request (o : Oracle) (s : TcpServer) (user : SessionRef)
    (hrequest : IsPartyRequest msg.messageType = true) :
    ∃ s', s.onMessage o user msg = logged (s.requestLines o user msg) s' ∧
      RequestOutcome o s user msg s' := by
  cases htype : msg.messageType with simp only [onMessage, requestLines, htype]
  | partyCreate => exact ⟨_, rfl, handlePartyCreate_outcome htype⟩
  | partyDelete => exact ⟨_, rfl, handlePartyDelete_outcome htype⟩
  | partyJoin => exact ⟨_, rfl, handlePartyJoin_outcome htype⟩
  | partyLeave => exact ⟨_, rfl, handlePartyLeave_outcome htype⟩
  | _ => simp [htype, IsPartyRequest] at hrequest

theorem onMessage_outcome (h : s.onMessage o user msg = .ok s')
    (hrequest : IsPartyRequest msg.messageType = true) : RequestOutcome o s user msg s' := by
  obtain ⟨t, hreturns, houtcome⟩ := onMessage_request o s user hrequest
  rw [hreturns] at h
  exact (logged_eq_ok.mp h).2 ▸ houtcome

/-- When `OnMessage` has returned, the lines have been logged. -/
theorem fits_of_onMessage (h : s.onMessage o user msg = .ok s') :
    Logger.Fits (s.requestLines o user msg) := by
  cases hrequest : IsPartyRequest msg.messageType with
  | true =>
    obtain ⟨t, hlogged, -⟩ := onMessage_request o s user hrequest
    rw [hlogged] at h
    exact (logged_eq_ok.mp h).1
  | false =>
    rw [requestLines_other hrequest]
    exact Logger.fits_nil

theorem onMessage_of_fits (hfits : Logger.Fits (s.requestLines o user msg))
    (hrequest : IsPartyRequest msg.messageType = true) :
    ∃ s', s.onMessage o user msg = .ok s' ∧ RequestOutcome o s user msg s' := by
  obtain ⟨t, hlogged, houtcome⟩ := onMessage_request o s user hrequest
  exact ⟨t, hlogged.trans (logged_eq_ok.mpr ⟨hfits, rfl⟩), houtcome⟩

theorem onMessage_of_not_fits (hfits : ¬ Logger.Fits (s.requestLines o user msg)) :
    ∃ e, s.onMessage o user msg = .error e := by
  cases hmessage : s.onMessage o user msg with
  | error e => exact ⟨e, rfl⟩
  | ok t => exact absurd (fits_of_onMessage hmessage) hfits

/-- The users are whoever they were. -/
theorem RequestOutcome.users (h : RequestOutcome o s user msg s') : s'.users = s.users := by
  cases h <;> rfl

theorem RequestOutcome.mySQLConnector (h : RequestOutcome o s user msg s') :
    s'.mySQLConnector = s.mySQLConnector := by
  cases h <;> rfl

/-! ## Every message -/

/-- A message that the server itself composes: an error or a server message. -/
def IsNotice (msg : ChatMessage) : Prop :=
  msg.messageType = .errorMessage ∨ msg.messageType = .serverMessage

/-- A message about a friendship, the only kind that uses the database. -/
def IsFriendMessage : ChatMessageType → Bool
  | .friendRequest | .friendAccept | .friendReject => true
  | _ => false

/-- The server when some more messages have been sent. -/
def posting (s : TcpServer) (new : List (SessionRef × ChatMessage)) : TcpServer :=
  { s with posted := s.posted ++ new }

theorem posting_nil (s : TcpServer) : s.posting [] = s := by
  rw [posting, List.append_nil]

/-- What a message has done when its handler returns. -/
inductive Handled (o : Oracle) (s : TcpServer) (user : SessionRef) (msg : ChatMessage) :
    TcpServer → Prop
  /-- Notices or copies of the message go out, or nothing. -/
  | sent (hquiet : msg.messageType = .allMessage → msg.content = [])
      (hfriend : IsFriendMessage msg.messageType = false)
      (new : List (SessionRef × ChatMessage))
      (hnew : ∀ p ∈ new, IsNotice p.2 ∨ (p.2.sender = msg.sender ∧ p.2.content = msg.content)) :
      Handled o s user msg (s.posting new)
  | relayed (htype : msg.messageType = .allMessage) (hcontent : msg.content ≠ []) :
      Handled o s user msg (s.sendAllUsers { msg with messageType := .allMessage })
  /-- The database was used, and notices tell of it. -/
  | befriended (hfriend : IsFriendMessage msg.messageType = true) (db : MySQLManager)
      (new : List (SessionRef × ChatMessage)) (hnew : ∀ p ∈ new, IsNotice p.2) :
      Handled o s user msg ({ s with mySQLConnector := db }.posting new)
  | request (hrequest : IsPartyRequest msg.messageType = true) {s' : TcpServer}
      (h : RequestOutcome o s user msg s') : Handled o s user msg s'

theorem sendErrorMessage_eq (s : TcpServer) (user : SessionRef) (text : Bytes) :
    ∃ new, s.sendErrorMessage user text = s.posting new ∧ ∀ p ∈ new, IsNotice p.2 := by
  refine ⟨[(user, { messageType := .errorMessage, content := text })], rfl, ?_⟩
  rintro p hp
  rw [List.mem_singleton.mp hp]
  exact Or.inl rfl

theorem notifyBoth_eq (s : TcpServer) (other toOther : Bytes) (user : SessionRef)
    (toUser : Bytes) :
    ∃ new, s.notifyBoth other toOther user toUser = s.posting new ∧ ∀ p ∈ new, IsNotice p.2 := by
  let notice (text : Bytes) : ChatMessage := { messageType := .serverMessage, content := text }
  have hnotice : ∀ text, IsNotice (notice text) := fun text => Or.inr rfl
  unfold notifyBoth
  cases s.getUserByUserId other with
  | none => exact ⟨[(user, notice toUser)], rfl, by simp [hnotice]⟩
  | some session =>
    refine ⟨[(session, notice toOther), (user, notice toUser)], ?_, by simp [hnotice]⟩
    exact congrArg (fun posted => { s with posted := posted }) (List.append_assoc ..)

/-- Database work under the handlers' catch returns, and the connection is as the work left
it. -/
theorem tryOrReport_eq {α : Type} (o : Oracle) (s : TcpServer) (user : SessionRef)
    (work : Sql α) {notify : TcpServer → α → TcpServer}
    (hnotify : ∀ s a, ∃ new, notify s a = s.posting new ∧ ∀ p ∈ new, IsNotice p.2) :
    ∃ new, tryOrReport o s user work notify = .ok ({ s with mySQLConnector :=
        (Id.run (work.run.run { s.mySQLConnector with faults := o.sqlFaults })).2 }.posting new) ∧
      ∀ p ∈ new, IsNotice p.2 := by
  unfold tryOrReport
  rcases Id.run (work.run.run { s.mySQLConnector with faults := o.sqlFaults }) with ⟨e | a, db⟩
  · obtain ⟨new, heq, hnew⟩ := sendErrorMessage_eq { s with mySQLConnector := db } user e.what
    exact ⟨new, congrArg Except.ok heq, hnew⟩
  · obtain ⟨new, heq, hnew⟩ := hnotify { s with mySQLConnector := db } a
    exact ⟨new, congrArg Except.ok heq, hnew⟩

/-- The three handlers about friendships are one piece of work each. -/
theorem Handled.of_work {α : Type} {work : Sql α} {notify : TcpServer → α → TcpServer}
    (hfriend : IsFriendMessage msg.messageType = true)
    (hnotify : ∀ s a, ∃ new, notify s a = s.posting new ∧ ∀ p ∈ new, IsNotice p.2)
    (h : s.tryOrReport o user work notify = .ok s') : Handled o s user msg s' := by
  obtain ⟨new, heq, hnew⟩ := tryOrReport_eq o s user work hnotify
  rw [heq] at h
  exact Except.ok.inj h ▸ .befriended hfriend _ new hnew

/-- A message to a party is refused, or it goes out as it came. -/
theorem handlePartyMessage_cases (s : TcpServer) (user : SessionRef) (msg : ChatMessage) :
    (∃ text, s.handlePartyMessage user msg = s.sendErrorMessage user text) ∨
      ∃ targets, s.handlePartyMessage user msg = s.sendTo targets msg := by
  unfold handlePartyMessage
  by_cases hcontent : msg.content = []
  · rw [if_pos hcontent]
    exact Or.inl ⟨_, rfl⟩
  rw [if_neg hcontent]
  cases s.partyManager.findPartyById (s.sessions user).partyId with
  | none => exact Or.inl ⟨_, rfl⟩
  | some party => exact Or.inr ⟨_, rfl⟩

/-- A whisper is refused, or one session gets it as it came. -/
theorem handleWhisperMessage_cases (s : TcpServer) (user : SessionRef) (msg : ChatMessage) :
    (∃ text, s.handleWhisperMessage user msg = s.sendErrorMessage user text) ∨
      ∃ targets, s.handleWhisperMessage user msg = s.sendTo targets msg := by
  unfold handleWhisperMessage
  by_cases hempty : msg.receiver = [] ∨ msg.content = []
  · rw [if_pos hempty]
    exact Or.inl ⟨_, rfl⟩
  rw [if_neg hempty, sendWhisperMessage]
  by_cases hself : (s.sessions user).userEntity.userId = msg.receiver
  · rw [if_pos hself]
    exact Or.inl ⟨_, rfl⟩
  rw [if_neg hself]
  split
  · exact Or.inr ⟨[_], rfl⟩
  · exact Or.inl ⟨_, rfl⟩

/-- An answer to the sender, or copies of the message. -/
theorem Handled.of_answer (hquiet : msg.messageType = .allMessage → msg.content = [])
    (hfriend : IsFriendMessage msg.messageType = false)
    (h : (∃ text, s' = s.sendErrorMessage user text) ∨ ∃ targets, s' = s.sendTo targets msg) :
    Handled o s user msg s' := by
  rcases h with ⟨text, rfl⟩ | ⟨targets, rfl⟩
  · obtain ⟨new, heq, hnew⟩ := sendErrorMessage_eq s user text
    rw [heq]
    exact .sent hquiet hfriend new fun p hp => Or.inl (hnew p hp)
  · refine .sent hquiet hfriend (targets.map fun t => (t, msg)) fun p hp => ?_
    obtain ⟨t, -, rfl⟩ := List.mem_map.mp hp
    exact Or.inr ⟨rfl, rfl⟩

/-- **Inversion of `OnMessage`.** -/
theorem onMessage_handled (h : s.onMessage o user msg = .ok s') : Handled o s user msg s' := by
  have hsame (hquiet : msg.messageType = .allMessage → msg.content = [])
      (hfriend : IsFriendMessage msg.messageType = false) : Handled o s user msg s := by
    have hnone : Handled o s user msg (s.posting []) := .sent hquiet hfriend [] nofun
    rwa [posting_nil] at hnone
  cases htype : msg.messageType with simp only [onMessage, htype] at h
  | serverPing =>
    -- a ping that does not throw changes nothing
    unfold handleServerPing at h
    cases hstoll : stoll msg.content with
    | error e => simp [hstoll, Except.map] at h
    | ok n =>
      rw [hstoll] at h
      exact Except.ok.inj h ▸ hsame (by simp [htype]) (by rw [htype]; rfl)
  | allMessage =>
    rw [← Except.ok.inj h, handleAllMessage]
    by_cases hcontent : msg.content = []
    · rw [if_pos hcontent]
      exact hsame (fun _ => hcontent) (by rw [htype]; rfl)
    · rw [if_neg hcontent]
      exact .relayed htype hcontent
  | partyCreate =>
    exact (logged_eq_ok.mp h).2 ▸ .request (by rw [htype]; rfl) (handlePartyCreate_outcome htype)
  | partyDelete =>
    exact (logged_eq_ok.mp h).2 ▸ .request (by rw [htype]; rfl) (handlePartyDelete_outcome htype)
  | partyJoin =>
    exact (logged_eq_ok.mp h).2 ▸ .request (by rw [htype]; rfl) (handlePartyJoin_outcome htype)
  | partyLeave =>
    exact (logged_eq_ok.mp h).2 ▸ .request (by rw [htype]; rfl) (handlePartyLeave_outcome htype)
  | partyMessage =>
    rw [← Except.ok.inj h]
    exact .of_answer (by simp [htype]) (by rw [htype]; rfl) (handlePartyMessage_cases s user msg)
  | whisperMessage =>
    rw [← Except.ok.inj h]
    exact .of_answer (by simp [htype]) (by rw [htype]; rfl) (handleWhisperMessage_cases s user msg)
  | friendRequest | friendAccept | friendReject =>
    exact .of_work (by rw [htype]; rfl) (fun _ _ => notifyBoth_eq ..) h
  | serverMessage | loginMessage | errorMessage | other =>
    exact Except.ok.inj h ▸ .of_answer (by simp [htype]) (by rw [htype]; rfl) (Or.inl ⟨_, rfl⟩)

end TcpServer

end BoostChat.Server
