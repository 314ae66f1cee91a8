import BoostChat.Server.System
import BoostChat.Server.Membership

/-!
# The parties over whole runs

What the requests of the users do to the party manager, and what therefore holds of it
after every run.

* `ManagerEffect` — what one message does to the manager, as an inversion of `OnMessage`;
* `Named` — parties stand under their own ids, and names are neither empty nor shared.
  With distinct names it does not matter in which order the map is iterated
  (`step_withOrder`); `party_names` says so of whole runs.
-/

namespace BoostChat.Server

open Lib

variable {parse : Bytes → Option ChatMessage} {s t : Sys} {a : Action}

/-! ## What a message does to the manager -/

/-- What handling a message of an account does to the party manager; `creates` says whether
the message creates a party. -/
inductive ManagerEffect (creates : Prop) (o : Oracle) (pm : PartyManager) (userId : UInt32)
    (msg : ChatMessage) : PartyManager → Prop
  | same (hno : ¬ creates) : ManagerEffect creates o pm userId msg pm
  | created (hcreates : creates) (hcontent : msg.content ≠ [])
      (hfree : pm.isPartyNameTaken o.iterOrder msg.content = false) :
      ManagerEffect creates o pm userId msg (({ pm with partyIdCounter := pm.partyIdCounter + 1 } :
        PartyManager).store (newParty pm userId msg.content))
  | joined (hno : ¬ creates) {party : Party}
      (hfound : pm.findPartyByName o.iterOrder msg.content = some party) :
      ManagerEffect creates o pm userId msg (pm.store (party.addMember userId))
  | deleted (hno : ¬ creates) {party : Party} (htype : msg.messageType = .partyDelete)
      (hfound : pm.findPartyByName o.iterOrder msg.content = some party)
      (hcreator : party.partyCreator = userId) :
      ManagerEffect creates o pm userId msg
        { pm with mapParties := pm.mapParties.erase party.partyId }
  | left (hno : ¬ creates) {party : Party}
      (hfound : pm.findPartyByName o.iterOrder msg.content = some party)
      (hcreator : party.partyCreator ≠ userId) :
      ManagerEffect creates o pm userId msg (pm.store (party.removeMember userId))

namespace TcpServer

variable {o : Oracle} {s s' : TcpServer} {user : SessionRef} {msg : ChatMessage}

/-- **Inversion.** What a message does to the party manager. -/
theorem onMessage_manager (h : s.onMessage o user msg = .ok s') :
    ManagerEffect (Creates o s user msg) o s.partyManager (s.sessions user).id msg
      s'.partyManager := by
  cases hrequest : IsPartyRequest msg.messageType with
  | false =>
    have hno : ¬ Creates o s user msg := not_creates rfl fun hcreate => by
      rw [hcreate] at hrequest
      cases hrequest
    exact (onMessage_other h hrequest).1 ▸ .same hno
  | true =>
    cases onMessage_outcome h hrequest with
    | refused hcreates text => exact .same hcreates
    | created hcreates => exact .created hcreates hcreates.2.1 hcreates.2.2.2
    | joined htype _ hfound => exact .joined (not_creates htype (by decide)) hfound
    | deleted htype hfound hcreator _ | deletedZero htype hfound hcreator _ =>
      exact .deleted (not_creates htype (by decide)) htype hfound hcreator
    | left hleaves =>
      obtain ⟨htype, -, -, hfound, hcreator⟩ := hleaves
      exact .left (not_creates htype (by decide)) hfound hcreator

end TcpServer

/-- The action creates a party. -/
def createsParty (s : Sys) : Action → Bool
  | .dispatch o =>
    s.current.any fun user =>
      (s.srv.sessions user).pending.head?.any fun msg =>
        decide (TcpServer.Creates o s.srv user msg)
  | _ => false

/-- **Step lemma.** Only a message of the served session changes the party manager. -/
theorem step_manager (heffect : Effect parse s a t) :
    (t.srv.partyManager = s.srv.partyManager ∧ createsParty s a = false) ∨
      ∃ o user msg, a = .dispatch o ∧ s.current = some user ∧
        (s.srv.sessions user).pending.head? = some msg ∧
        ManagerEffect (createsParty s a = true) o s.srv.partyManager (s.srv.sessions user).id msg
          t.srv.partyManager := by
  cases heffect with
  | accept | receive | disconnect | sweep | rejected | visit | finish => exact Or.inl ⟨rfl, rfl⟩
  | admitted => exact Or.inl ⟨TcpServer.admitUser_partyManager _ _, rfl⟩
  | @dispatch o user msg input output srv hcurrent hpending hmessage =>
    have hhead : (s.srv.sessions user).pending.head? = some msg := by rw [hpending]; rfl
    -- taking the message from its queue changes neither the account nor the party id
    have hid : ((s.srv.setSession user ((s.srv.sessions user).withQueues input output)).sessions
        user).id = (s.srv.sessions user).id :=
      TcpServer.setSession_congr (·.id) (UserSession.withQueues_id _ input output) user
    have hparty : ((s.srv.setSession user ((s.srv.sessions user).withQueues input
        output)).sessions user).partyId = (s.srv.sessions user).partyId :=
      TcpServer.setSession_congr (·.partyId) (UserSession.withQueues_partyId _ input output) user
    have hcreates : TcpServer.Creates o (s.srv.setSession user ((s.srv.sessions user).withQueues
        input output)) user msg ↔ createsParty s (.dispatch o) = true := by
      have hiff : createsParty s (.dispatch o) = true ↔ TcpServer.Creates o s.srv user msg := by
        simp only [createsParty, hcurrent, hhead, Option.any_some, decide_eq_true_iff]
      rw [hiff, TcpServer.Creates, TcpServer.Creates, TcpServer.partyIds, TcpServer.partyIds,
        hparty]
      exact Iff.rfl
    have hmanager := TcpServer.onMessage_manager hmessage
    rw [hid, hcreates] at hmanager
    exact Or.inr ⟨o, user, msg, rfl, hcurrent, hhead, hmanager⟩

/-! ## Names -/

/-- Parties stand under their own ids, and no name is empty or shared. -/
structure Named (m : PartyMap) : Prop where
  keyed : Keyed m
  nonempty : ∀ k party, m.lookup k = some party → party.partyName ≠ []
  distinct : ∀ k k' party party', m.lookup k = some party → m.lookup k' = some party' →
    party.partyName = party'.partyName → k = k'

section Names

variable {m : PartyMap} {pm pm' : PartyManager} {ord : IterOrder} {name : Bytes} {party : Party}

/-- A party may be stored under its id when no other party has its name. -/
theorem Named.insert (h : Named m) (hname : party.partyName ≠ [])
    (hfree : ∀ k p, m.lookup k = some p → p.partyName = party.partyName → k = party.partyId) :
    Named (m.insert party.partyId party) := by
  refine ⟨h.keyed.insert party, fun k p hp => ?_, fun k k' p p' hp hp' heq => ?_⟩
  · rcases lookup_insert_eq_some hp with ⟨-, rfl⟩ | ⟨-, hp⟩
    · exact hname
    · exact h.nonempty k p hp
  · -- a stored party and the new one have different names
    rcases lookup_insert_eq_some hp with ⟨rfl, rfl⟩ | ⟨hk, hold⟩ <;>
      rcases lookup_insert_eq_some hp' with ⟨rfl, rfl⟩ | ⟨hk', hold'⟩
    · rfl
    · exact absurd (hfree k' p' hold' heq.symm) hk'
    · exact absurd (hfree k p hold heq) hk
    · exact h.distinct k k' p p' hold hold' heq

theorem Named.erase (h : Named m) (key : UInt32) : Named (m.erase key) where
  keyed := h.keyed.erase key
  nonempty k p hp := h.nonempty k p (lookup_erase_eq_some hp).2
  distinct k k' p p' hp hp' :=
    h.distinct k k' p p' (lookup_erase_eq_some hp).2 (lookup_erase_eq_some hp').2

/-- A look-up by name finds the party of that name, whatever the order of iteration. -/
theorem Named.findPartyByName (h : Named pm.mapParties) :
    pm.findPartyByName ord name = some party ↔
      pm.mapParties.lookup party.partyId = some party ∧ party.partyName = name := by
  have hexact : ∀ {p : Party}, pm.findPartyByName ord name = some p →
      pm.mapParties.lookup p.partyId = some p ∧ p.partyName = name := by
    intro p hp
    obtain ⟨hname, key, hlookup⟩ := PartyManager.findPartyByName_mem hp
    exact ⟨h.keyed key p hlookup ▸ hlookup, hname⟩
  refine ⟨hexact, fun ⟨hlookup, hname⟩ => ?_⟩
  cases hfind : pm.findPartyByName ord name with
  | none =>
    -- the iteration would have met the party
    have hmem : ⟨party.partyId, party⟩ ∈ ord.iter pm.mapParties :=
      (ord.perm _).mem_iff.mpr (AList.mem_lookup_iff.mp hlookup)
    have hno := List.find?_eq_none.mp (Option.map_eq_none_iff.mp hfind) _ hmem
    simp [hname] at hno
  | some p =>
    obtain ⟨hlookup', hname'⟩ := hexact hfind
    -- it may have met another party first, but not one of this name
    have hid := h.distinct _ _ p party hlookup' hlookup (hname'.trans hname.symm)
    rw [hid, hlookup] at hlookup'
    exact hlookup'.symm

theorem Named.findPartyByName_order (h : Named pm.mapParties) (ord' : IterOrder) :
    pm.findPartyByName ord' name = pm.findPartyByName ord name := by
  refine Option.ext fun party => ?_
  rw [h.findPartyByName, h.findPartyByName]

theorem isPartyNameTaken_order (pm : PartyManager) (ord ord' : IterOrder) (name : Bytes) :
    pm.isPartyNameTaken ord' name = pm.isPartyNameTaken ord name :=
  ((ord'.perm _).trans (ord.perm _).symm).any_eq

theorem isPartyNameTaken_false (h : pm.isPartyNameTaken ord name = false) {k : UInt32}
    (hk : pm.mapParties.lookup k = some party) : party.partyName ≠ name := by
  intro hname
  have hmem : ⟨k, party⟩ ∈ ord.iter pm.mapParties :=
    (ord.perm _).mem_iff.mpr (AList.mem_lookup_iff.mp hk)
  have hno := List.any_eq_false.mp h _ hmem
  simp [hname] at hno

/-- A party that keeps its id and name may be stored again. -/
theorem Named.store (h : Named pm.mapParties) {party' : Party}
    (hlookup : pm.mapParties.lookup party.partyId = some party)
    (hid : party'.partyId = party.partyId) (hname : party'.partyName = party.partyName) :
    Named (pm.store party').mapParties := by
  refine h.insert (hname ▸ h.nonempty _ _ hlookup) fun k p hp heq => ?_
  rw [hid]
  exact h.distinct _ _ _ _ hp hlookup (heq.trans hname)

/-- **Step lemma.** -/
theorem Named.effect {creates : Prop} {o : Oracle} {userId : UInt32} {msg : ChatMessage}
    (h : Named pm.mapParties) (heffect : ManagerEffect creates o pm userId msg pm') :
    Named pm'.mapParties := by
  cases heffect with
  | same => exact h
  | created _ hcontent hfree =>
    exact h.insert hcontent fun k p hp heq => absurd heq (isPartyNameTaken_false hfree hp)
  | joined _ hfound => exact h.store (h.findPartyByName.mp hfound).1 rfl rfl
  | deleted => exact h.erase _
  | left _ hfound => exact h.store (h.findPartyByName.mp hfound).1 rfl rfl

end Names

theorem named_step (h : Named s.srv.partyManager.mapParties) (heffect : Effect parse s a t) :
    Named t.srv.partyManager.mapParties := by
  rcases step_manager heffect with ⟨heq, -⟩ | ⟨o, user, msg, -, -, -, hmanager⟩
  · rw [heq]
    exact h
  · exact h.effect hmanager

theorem Named.start (maxUser : UInt32) : Named (Sys.start maxUser).srv.partyManager.mapParties where
  keyed _ _ h := nomatch h
  nonempty _ _ h := nomatch h
  distinct _ _ _ _ h := nomatch h

theorem named_of_run {ok : Sys → Action → Prop} {maxUser : UInt32} {as : List Action}
    (hrun : Run (step parse) ok (Sys.start maxUser) as s) :
    Named s.srv.partyManager.mapParties :=
  hrun.invariant (I := fun s => Named s.srv.partyManager.mapParties)
    (fun _ _ _ h _ hstep => named_step h (step_effect hstep)) (.start maxUser)

/-! ## The order of iteration -/

/-- The same action when the map is iterated in another order. -/
def Action.withOrder (iterOrder : IterOrder) : Action → Action
  | .dispatch o => .dispatch { o with iterOrder }
  | a => a

/-- The handlers of two oracles that differ in the order do the same. -/
theorem onMessage_withOrder {srv : TcpServer} (h : Named srv.partyManager.mapParties) (o : Oracle)
    (iterOrder : IterOrder) (user : SessionRef) (msg : ChatMessage) :
    srv.onMessage { o with iterOrder } user msg = srv.onMessage o user msg := by
  have hfind : ∀ name, srv.partyManager.findPartyByName iterOrder name =
      srv.partyManager.findPartyByName o.iterOrder name := fun _ => h.findPartyByName_order _
  have htaken : ∀ name, srv.partyManager.isPartyNameTaken iterOrder name =
      srv.partyManager.isPartyNameTaken o.iterOrder name := fun _ => isPartyNameTaken_order ..
  cases htype : msg.messageType with simp only [TcpServer.onMessage, htype]
  | partyCreate =>
    simp only [TcpServer.handlePartyCreate, TcpServer.handlePartyCreateLines, htaken]
  | partyJoin =>
    simp only [TcpServer.handlePartyJoin, PartyManager.joinParty,
      TcpServer.handlePartyJoinLines, PartyManager.joinPartyLines, hfind]
  | partyDelete =>
    have hdelete : srv.partyManager.deleteParty iterOrder (srv.sessions user).id msg.content =
        srv.partyManager.deleteParty o.iterOrder (srv.sessions user).id msg.content := by
      rw [PartyManager.deleteParty, hfind]
      rfl
    have hlines : srv.partyManager.deletePartyLines iterOrder (srv.sessions user).id msg.content =
        srv.partyManager.deletePartyLines o.iterOrder (srv.sessions user).id msg.content := by
      rw [PartyManager.deletePartyLines, hfind]
      rfl
    simp only [TcpServer.handlePartyDelete, TcpServer.handlePartyDeleteLines, hdelete, hlines]
  | partyLeave =>
    simp only [TcpServer.handlePartyLeave, PartyManager.leaveParty,
      TcpServer.handlePartyLeaveLines, PartyManager.leavePartyLines, hfind]
  -- the friend handlers look into the table `user` only
  | friendRequest | friendAccept | friendReject => rfl

theorem step_withOrder (h : Named s.srv.partyManager.mapParties) (iterOrder : IterOrder)
    (a : Action) : step parse s (a.withOrder iterOrder) = step parse s a := by
  cases a with
  | dispatch o =>
    have hmessage : ∀ user session msg,
        (s.srv.setSession user session).onMessage { o with iterOrder } user msg =
          (s.srv.setSession user session).onMessage o user msg :=
      fun user session msg => by
        have hsession : Named (s.srv.setSession user session).partyManager.mapParties := h
        exact onMessage_withOrder hsession o iterOrder user msg
    simp only [Action.withOrder, step, hmessage]
  | _ => rfl

/-- Two runs over the same requests that iterate the map in other orders. -/
def SameRequests : List Action → List Action → Prop :=
  List.Forall₂ fun a a' => ∃ iterOrder, a' = a.withOrder iterOrder

theorem run_withOrder {as as' : List Action} (hsame : SameRequests as as') :
    ∀ {s : Sys}, Named s.srv.partyManager.mapParties → Run (step parse) anyStep s as t →
      Run (step parse) anyStep s as' t := by
  induction hsame with
  | nil => exact fun _ hrun => hrun
  | @cons a a' as as' hhead _ ih =>
    intro s h hrun
    cases hrun with
    | cons hok hstep hrest =>
      obtain ⟨iterOrder, rfl⟩ := hhead
      have hstep' := (step_withOrder h iterOrder a).trans hstep
      exact Run.cons hok hstep' (ih (named_step h (step_effect hstep)) hrest)

/-- **Party names.** After every run, parties stand under their own ids and have names
that are neither empty nor shared. Every run over the same requests, with any orders of
iteration, therefore ends in the same state, with the same messages sent. -/
theorem party_names {maxUser : UInt32} {as : List Action}
    (hrun : Run (step parse) anyStep (Sys.start maxUser) as s) :
    Named s.srv.partyManager.mapParties ∧
      ∀ as', SameRequests as as' → Run (step parse) anyStep (Sys.start maxUser) as' s :=
  ⟨named_of_run hrun, fun _ hsame => run_withOrder hsame (.start maxUser) hrun⟩

/-- Requests about a party, and a message to it. -/
def partyRequest (messageType : ChatMessageType) (partyName : Bytes := ascii "p") : ChatMessage :=
  { messageType, content := partyName }

/-- Both accounts log in, `ann` creates the party "p" and `bob` joins it. -/
def partyOfTwo : List Action :=
  [.accept, .accept, .receive 0 (login "a").serialize, .receive 1 (login "b").serialize, .sweep,
    .examine annAndBob, .examine annAndBob,
    .receive 0 (partyRequest .partyCreate).serialize, .visit 0, .dispatch {}, .finish,
    .receive 1 (partyRequest .partyJoin).serialize, .visit 1, .dispatch {}, .finish]

def parseParty : Bytes → Option ChatMessage :=
  parseSerialized [login "a", login "b", partyRequest .partyCreate, partyRequest .partyJoin]

/-- The order from the end to the beginning. -/
def IterOrder.reversed : IterOrder := ⟨fun m => m.entries.reverse, fun _ => List.reverse_perm _⟩

theorem party_names_partyOfTwo : ∃ s : Sys, s.srv.users = [0, 1] ∧
    Named s.srv.partyManager.mapParties ∧
      Run (step parseParty) anyStep (Sys.start 5) (partyOfTwo.map (·.withOrder .reversed)) s := by
  obtain ⟨s, hrun, hs⟩ := exists_run_of_exec (step parseParty) anyStep (Sys.start 5) partyOfTwo
    (fun s => decide (s.srv.users = [0, 1])) (by decide)
  obtain ⟨hnamed, hsame⟩ := party_names hrun
  refine ⟨s, of_decide_eq_true hs, hnamed, hsame _ ?_⟩
  exact List.forall₂_map_right_iff.mpr (List.forall₂_same.mpr fun a _ => ⟨.reversed, rfl⟩)

end BoostChat.Server
