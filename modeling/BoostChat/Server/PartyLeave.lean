import BoostChat.Server.Parties

/-!
# Leaving a party

`HandlePartyLeave` tests the party id of the session and then removes its account from the
party that the client names. Nothing compares the two.

* `handlePartyLeave_cases` — the request is refused, or the account leaves the party of the
  given name, whose creator it is not, and the session's party id becomes 0.
* `leave_iff` — the answer "Party leave successful" means what it says exactly when a party
  of the given name, if the account did not create it, is the one of the party id.
-/

namespace BoostChat.Server

open Lib

namespace TcpServer

variable {o : Oracle} {s : TcpServer} {user : SessionRef} {msg : ChatMessage} {party : Party}

def leaveSuccess : ChatMessage :=
  { messageType := .serverMessage, content := ascii "Party leave successful" }

/-- The answer to a leader, and when no party has the name. -/
def leaveRefusal : Bytes :=
  ascii "Sorry, as the party leader, you cannot leave the party. Deletion is the only option."

/-- `HandlePartyLeave` answers "Party leave successful". -/
def AnswersLeft (o : Oracle) (s : TcpServer) (user : SessionRef) (msg : ChatMessage) : Prop :=
  (s.handlePartyLeave o user msg).posted = s.posted ++ [(user, leaveSuccess)]

instance : Decidable (AnswersLeft o s user msg) := inferInstanceAs (Decidable (_ = _))

/-- The state after a leave: the account has left the party, and nothing else has changed
but the party id of the session. -/
def left (s : TcpServer) (user : SessionRef) (party : Party) : TcpServer :=
  (({ s with
    partyManager := s.partyManager.store (party.removeMember (s.sessions user).id)
    }).setPartyId user 0).send user leaveSuccess

/-- An error message is not the answer. -/
theorem not_answersLeft_of_error {text : Bytes} {pm : PartyManager}
    (h : s.handlePartyLeave o user msg =
      ({ s with partyManager := pm }).sendErrorMessage user text) : ¬ AnswersLeft o s user msg := by
  intro hanswer
  rw [AnswersLeft, h] at hanswer
  have hlast := List.append_cancel_left hanswer
  simp [leaveSuccess] at hlast

/-- **Inversion.** -/
theorem handlePartyLeave_cases (o : Oracle) (s : TcpServer) (user : SessionRef)
    (msg : ChatMessage) :
    (¬ AnswersLeft o s user msg ∧ ((s.sessions user).partyId = 0 ∨ msg.content = [] ∨
      ∀ party, s.partyManager.findPartyByName o.iterOrder msg.content = some party →
        party.partyCreator = (s.sessions user).id)) ∨
    (AnswersLeft o s user msg ∧ (s.sessions user).partyId ≠ 0 ∧
      ∃ party, s.partyManager.findPartyByName o.iterOrder msg.content = some party ∧
        party.partyCreator ≠ (s.sessions user).id ∧
        s.handlePartyLeave o user msg = s.left user party) := by
  -- one case for each test of the handler and of `LeaveParty`, in their order
  by_cases hcontent : msg.content = []
  · have heq : s.handlePartyLeave o user msg =
        s.sendErrorMessage user (ascii "The party name is empty.") := if_pos hcontent
    exact Or.inl ⟨not_answersLeft_of_error heq, Or.inr (Or.inl hcontent)⟩
  by_cases hparty : (s.sessions user).partyId = 0
  · have heq : s.handlePartyLeave o user msg =
        s.sendErrorMessage user (ascii "Not in a party.") := by
      rw [handlePartyLeave, if_neg hcontent, if_pos hparty]
    exact Or.inl ⟨not_answersLeft_of_error heq, Or.inl hparty⟩
  cases hfind : s.partyManager.findPartyByName o.iterOrder msg.content with
  | none =>
    have heq : s.handlePartyLeave o user msg = s.sendErrorMessage user leaveRefusal := by
      rw [handlePartyLeave, if_neg hcontent, if_neg hparty, PartyManager.leaveParty, hfind]
      rfl
    exact Or.inl ⟨not_answersLeft_of_error heq,
      Or.inr (Or.inr fun party h => (Option.some_ne_none party h.symm).elim)⟩
  | some party =>
    by_cases hcreator : party.partyCreator = (s.sessions user).id
    · have heq : s.handlePartyLeave o user msg = s.sendErrorMessage user leaveRefusal := by
        rw [handlePartyLeave, if_neg hcontent, if_neg hparty, PartyManager.leaveParty, hfind]
        simp only [if_pos hcreator]
        rfl
      refine Or.inl ⟨not_answersLeft_of_error heq, Or.inr (Or.inr fun p hp => ?_)⟩
      rwa [← Option.some.inj hp]
    · have heq : s.handlePartyLeave o user msg = s.left user party := by
        rw [handlePartyLeave, if_neg hcontent, if_neg hparty, PartyManager.leaveParty, hfind]
        simp only [if_neg hcreator]
        rfl
      have hanswer : AnswersLeft o s user msg := by
        rw [AnswersLeft, heq]
        rfl
      exact Or.inr ⟨hanswer, hparty, party, rfl, hcreator, heq⟩

/-- What a successful leave should do: the account, not the creator, has left the party that
the party id of the session points to and that has the given name, and nothing else. -/
structure LeftOwnParty (o : Oracle) (s : TcpServer) (user : SessionRef) (msg : ChatMessage) :
    Prop where
  own : ∃ party, s.partyManager.findPartyById (s.sessions user).partyId = some party ∧
    party.partyName = msg.content ∧ party.partyCreator ≠ (s.sessions user).id
  member : ∃ party, (s.handlePartyLeave o user msg).partyManager.findPartyById
    (s.sessions user).partyId = some party ∧ (s.sessions user).id ∉ party.members
  others : ∀ partyId, partyId ≠ (s.sessions user).partyId →
    (s.handlePartyLeave o user msg).partyManager.findPartyById partyId =
      s.partyManager.findPartyById partyId
  reset : ((s.handlePartyLeave o user msg).sessions user).partyId = 0
  sessions : ∀ v, v ≠ user → (s.handlePartyLeave o user msg).sessions v = s.sessions v

/-- The parties after a leave. -/
theorem left_findPartyById (s : TcpServer) (user : SessionRef) (party : Party) (partyId : UInt32) :
    (s.left user party).partyManager.findPartyById partyId =
      if partyId = party.partyId then some (party.removeMember (s.sessions user).id)
      else s.partyManager.findPartyById partyId := by
  show (s.partyManager.mapParties.insert party.partyId _).lookup partyId = _
  by_cases hid : partyId = party.partyId
  · rw [if_pos hid, hid, AList.lookup_insert]
  · rw [if_neg hid, AList.lookup_insert_ne hid]
    rfl

theorem left_partyId (s : TcpServer) (user : SessionRef) (party : Party) :
    ((s.left user party).sessions user).partyId = 0 := by
  show ((s.setSession user ((s.sessions user).setPartyId 0)).sessions user).partyId = 0
  rw [setSession_sessions_self]
  rfl

theorem left_sessions_of_ne (s : TcpServer) {user v : SessionRef} (party : Party) (hv : v ≠ user) :
    (s.left user party).sessions v = s.sessions v :=
  setSession_sessions_of_ne s ((s.sessions user).setPartyId 0) hv

theorem not_mem_removeMember (party : Party) (userId : UInt32) :
    userId ∉ (party.removeMember userId).members := by
  simp [Party.removeMember]

/-- The answer means what it says exactly when the name, if it is not the name of a party
that the account created, is the name of the session's party. -/
theorem answersLeft_imp_iff (h : Named s.partyManager.mapParties) :
    (AnswersLeft o s user msg → LeftOwnParty o s user msg) ↔
      ((s.sessions user).partyId = 0 ∨
        ∀ party, s.partyManager.findPartyByName o.iterOrder msg.content = some party →
          party.partyCreator = (s.sessions user).id ∨
            party.partyId = (s.sessions user).partyId) := by
  rcases handlePartyLeave_cases o s user msg with
    ⟨hno, hrefused⟩ | ⟨hanswer, hin, party, hfind, hcreator, heq⟩
  · refine iff_of_true (fun hanswer => absurd hanswer hno) ?_
    rcases hrefused with hzero | hempty | hcreator
    · exact Or.inl hzero
    · -- no party has the empty name
      refine Or.inr fun party hfind => ?_
      obtain ⟨hlookup, hname⟩ := h.findPartyByName.mp hfind
      exact absurd (hname.trans hempty) (h.nonempty _ _ hlookup)
    · exact Or.inr fun party hfind => Or.inl (hcreator party hfind)
  · obtain ⟨hlookup, hname⟩ := h.findPartyByName.mp hfind
    have hcond : ((s.sessions user).partyId = 0 ∨
        ∀ party, s.partyManager.findPartyByName o.iterOrder msg.content = some party →
          party.partyCreator = (s.sessions user).id ∨ party.partyId = (s.sessions user).partyId) ↔
        party.partyId = (s.sessions user).partyId := by
      rw [or_iff_right hin, hfind]
      simp [hcreator]
    rw [hcond, imp_iff_right hanswer]
    constructor
    · rintro ⟨⟨own, hown, hownName, -⟩, -, -, -, -⟩
      -- the party of the session and the named one have the same name
      exact h.distinct _ _ _ _ hlookup hown (hname.trans hownName.symm)
    · intro hid
      refine ⟨⟨party, ?_, hname, hcreator⟩, ?_, fun partyId hne => ?_, ?_, fun v hv => ?_⟩
      · rw [← hid]
        exact hlookup
      · refine ⟨party.removeMember (s.sessions user).id, ?_, not_mem_removeMember party _⟩
        rw [heq, left_findPartyById, if_pos hid.symm]
      · rw [heq, left_findPartyById, if_neg (by rwa [hid])]
      · rw [heq, left_partyId]
      · rw [heq, left_sessions_of_ne s party hv]

end TcpServer

/-- **Leaving.** In every reachable state, for every user and message: when the answer is
"Party leave successful", the account has left the party of the session's party id, which
has the given name and another creator, and nothing else has changed, if and only if the
party id is 0 or a party of the given name was created by the account or has this id. -/
theorem leave_iff {parse : Bytes → Option ChatMessage} {maxUser : UInt32} {as : List Action}
    {s : Sys} (hrun : Run (step parse) anyStep (Sys.start maxUser) as s) (o : Oracle)
    (user : SessionRef) (msg : ChatMessage) :
    (TcpServer.AnswersLeft o s.srv user msg → TcpServer.LeftOwnParty o s.srv user msg) ↔
      ((s.srv.sessions user).partyId = 0 ∨
        ∀ party, s.srv.partyManager.findPartyByName o.iterOrder msg.content = some party →
          party.partyCreator = (s.srv.sessions user).id ∨
            party.partyId = (s.srv.sessions user).partyId) :=
  TcpServer.answersLeft_imp_iff (named_of_run hrun)

/-- A request that names a party. -/
def namedRequest (messageType : ChatMessageType) (partyName : String) : ChatMessage :=
  { messageType, content := ascii partyName }

def parseNamed : Bytes → Option ChatMessage :=
  parseSerialized [login "a", login "b", namedRequest .partyCreate "p",
    namedRequest .partyCreate "q"]

/-- Both accounts log in; `ann` creates the party "p" and `bob` the party "q". -/
def twoParties : List Action :=
  [.accept, .accept, .receive 0 (login "a").serialize, .receive 1 (login "b").serialize, .sweep,
    .examine annAndBob, .examine annAndBob,
    .receive 0 (namedRequest .partyCreate "p").serialize, .visit 0, .dispatch {}, .finish,
    .receive 1 (namedRequest .partyCreate "q").serialize, .visit 1, .dispatch {}, .finish]

/-- `bob` is in "p", which `ann` created, and leaves it. -/
theorem leave_iff_partyOfTwo :
    ∃ s : Sys, Run (step parseParty) anyStep (Sys.start 5) partyOfTwo s ∧
      TcpServer.AnswersLeft {} s.srv 1 (partyRequest .partyLeave) ∧
      TcpServer.LeftOwnParty {} s.srv 1 (partyRequest .partyLeave) := by
  obtain ⟨s, hrun, hs⟩ := exists_run_of_exec (step parseParty) anyStep (Sys.start 5) partyOfTwo
    (fun s => decide (TcpServer.AnswersLeft {} s.srv 1 (partyRequest .partyLeave) ∧
      (s.srv.partyManager.findPartyByName .entries (ascii "p")).map (·.partyId) =
        some (s.srv.sessions 1).partyId)) (by decide)
  obtain ⟨hanswer, hfind⟩ := of_decide_eq_true hs
  refine ⟨s, hrun, hanswer, (leave_iff hrun {} 1 _).mpr (Or.inr fun party hparty => ?_) hanswer⟩
  have hid := congrArg (Option.map (·.partyId)) hparty
  exact Or.inr (Option.some.inj (hid.symm.trans hfind))

/-- `ann`, who created "p" and is in it, leaves "q": the answer is a success, the party id
is 0, and "p" still has its creator as a member. -/
theorem leave_other_party :
    ∃ s : Sys, Run (step parseNamed) anyStep (Sys.start 5) twoParties s ∧ 0 ∈ s.srv.users ∧
      TcpServer.AnswersLeft {} s.srv 0 (namedRequest .partyLeave "q") ∧
      ((s.srv.handlePartyLeave {} 0 (namedRequest .partyLeave "q")).sessions 0).partyId = 0 ∧
      ((s.srv.handlePartyLeave {} 0 (namedRequest .partyLeave "q")).partyManager.findPartyById
        (s.srv.sessions 0).partyId).map (·.members) = some [(s.srv.sessions 0).id] := by
  obtain ⟨s, hrun, hs⟩ := exists_run_of_exec (step parseNamed) anyStep (Sys.start 5) twoParties
    (fun s =>
      let t := s.srv.handlePartyLeave {} 0 (namedRequest .partyLeave "q")
      decide (0 ∈ s.srv.users ∧
        TcpServer.AnswersLeft {} s.srv 0 (namedRequest .partyLeave "q") ∧
        (t.sessions 0).partyId = 0 ∧
        (t.partyManager.findPartyById (s.srv.sessions 0).partyId).map (·.members) =
          some [(s.srv.sessions 0).id])) (by decide)
  exact ⟨s, hrun, of_decide_eq_true hs⟩

end BoostChat.Server
