import BoostChat.Server.MessageCodec
import BoostChat.Server.OneRequest

/-!
# Life time and ownership of parties

A party exists from its creation until its creator deletes it by its name.

* `Issued` — the ids of the parties come from the counter, which has not wrapped around
  while fewer than `2^32 - 100000` parties have been created;
* `Owned` — every party lists its creator;
* `Stands` — a party is still there, with its name and its creator;
* `party_lifetime` — it stands until the creator's `PARTY_DELETE`, which succeeds unless the
  line of the party's destructor is too long for the logger (`long_party_stays`).
-/

namespace BoostChat.Server

open Lib

variable {parse : Bytes → Option ChatMessage} {s t : Sys} {a : Action}

/-! ## Ids -/

/-- After `n` creations the ids `100000, …, 100000 + n - 1` have been issued. -/
structure Issued (n : Nat) (pm : PartyManager) : Prop where
  counter : pm.partyIdCounter.toNat = 100000 + n
  range : ∀ k party, pm.mapParties.lookup k = some party →
    100000 ≤ k.toNat ∧ k.toNat < 100000 + n

theorem Issued.start (maxUser : UInt32) : Issued 0 (Sys.start maxUser).srv.partyManager where
  counter := rfl
  range _ _ h := nomatch h

section Manager

variable {n : Nat} {pm pm' : PartyManager} {creates : Bool} {o : Oracle} {userId : UInt32}
  {msg : ChatMessage} {party : Party}

/-- The next id is not that of a party. -/
theorem Issued.fresh (h : Issued n pm) : pm.mapParties.lookup pm.partyIdCounter = none := by
  cases hlookup : pm.mapParties.lookup pm.partyIdCounter with
  | none => rfl
  | some party =>
    have hrange := (h.range _ _ hlookup).2
    rw [h.counter] at hrange
    exact absurd hrange (Nat.lt_irrefl _)

/-- No party has the id 0, which stands for no party. -/
theorem Issued.ne_zero (h : Issued n pm) {k : UInt32} (hk : pm.mapParties.lookup k = some party) :
    k ≠ 0 := by
  rintro rfl
  have hrange := (h.range _ _ hk).1
  exact absurd hrange (by decide)

/-- The ids of the parties are among the first `n` that the counter issues. -/
def IdsBelow (n : Nat) (pm : PartyManager) : Prop :=
  ∀ k party, pm.mapParties.lookup k = some party → 100000 ≤ k.toNat ∧ k.toNat < 100000 + n

/-- Only a creation moves the counter. -/
theorem counter_effect (heffect : ManagerEffect (creates = true) o pm userId msg pm') :
    pm'.partyIdCounter = if creates then pm.partyIdCounter + 1 else pm.partyIdCounter := by
  cases heffect with
  | same hno => exact (if_neg hno).symm
  | joined hno => exact (if_neg hno).symm
  | left hno => exact (if_neg hno).symm
  | deleted hno => exact (if_neg hno).symm
  | created hcreates => exact (if_pos hcreates).symm

/-- A new party has the id that the counter had. -/
theorem IdsBelow.effect (h : IdsBelow n pm) (hnamed : Named pm.mapParties)
    (hcounter : creates = true → pm.partyIdCounter.toNat = 100000 + n)
    (heffect : ManagerEffect (creates = true) o pm userId msg pm') :
    IdsBelow (n + creates.toNat) pm' := by
  have hsame : ¬ creates = true → n + creates.toNat = n := fun hno => by
    rw [Bool.eq_false_iff.mpr hno]
    rfl
  -- a party that is stored again has an id that was issued
  have hstored : ∀ {party party' : Party}, pm.mapParties.lookup party.partyId = some party →
      party'.partyId = party.partyId → IdsBelow n (pm.store party') := by
    intro party party' hlookup hid k p hp
    rcases lookup_insert_eq_some hp with ⟨rfl, -⟩ | ⟨-, hp⟩
    · rw [hid]
      exact h _ _ hlookup
    · exact h k p hp
  cases heffect with
  | same hno => rwa [hsame hno]
  | joined hno hfound =>
    rw [hsame hno]
    exact hstored (hnamed.findPartyByName.mp hfound).1 rfl
  | left hno hfound =>
    rw [hsame hno]
    exact hstored (hnamed.findPartyByName.mp hfound).1 rfl
  | deleted hno =>
    rw [hsame hno]
    exact fun k p hp => h k p (lookup_erase_eq_some hp).2
  | created hcreates =>
    have hnext := hcounter hcreates
    rw [hcreates, Bool.toNat_true]
    intro k p hp
    rcases lookup_insert_eq_some hp with ⟨rfl, -⟩ | ⟨-, hp⟩
    · show 100000 ≤ pm.partyIdCounter.toNat ∧ pm.partyIdCounter.toNat < 100000 + (n + 1)
      omega
    · have hrange := h k p hp
      omega

/-- **Step lemma.** -/
theorem Issued.effect (h : Issued n pm) (hnamed : Named pm.mapParties)
    (hbound : n + creates.toNat < 2 ^ 32 - 100000)
    (heffect : ManagerEffect (creates = true) o pm userId msg pm') :
    Issued (n + creates.toNat) pm' := by
  have hrange : IdsBelow n pm := h.range
  refine ⟨?_, hrange.effect hnamed (fun _ => h.counter) heffect⟩
  have hcounter := h.counter
  rw [counter_effect heffect]
  cases creates with
  | false => exact hcounter
  | true =>
    rw [Bool.toNat_true] at hbound ⊢
    rw [if_pos rfl, UInt32.toNat_add, UInt32.toNat_one, hcounter]
    omega

/-! ## Owners -/

/-- Every party lists its creator. -/
def Owned (m : PartyMap) : Prop :=
  ∀ k party, m.lookup k = some party → party.partyCreator ∈ party.members

theorem mem_removeMember {party : Party} {userId i : UInt32} (h : i ∈ party.members)
    (hne : i ≠ userId) : i ∈ (party.removeMember userId).members :=
  List.mem_filter.mpr ⟨h, by simpa using hne⟩

/-- **Step lemma.** -/
theorem Owned.effect {creates : Prop} (h : Owned pm.mapParties) (hnamed : Named pm.mapParties)
    (heffect : ManagerEffect creates o pm userId msg pm') : Owned pm'.mapParties := by
  intro k p hp
  cases heffect with
  | same => exact h k p hp
  | created =>
    rcases lookup_insert_eq_some hp with ⟨-, rfl⟩ | ⟨-, hp⟩
    · exact List.mem_singleton.mpr rfl
    · exact h k p hp
  | joined _ hfound =>
    rcases lookup_insert_eq_some hp with ⟨-, rfl⟩ | ⟨-, hp⟩
    · exact List.mem_append_left _ (h _ _ (hnamed.findPartyByName.mp hfound).1)
    · exact h k p hp
  | deleted => exact h k p (lookup_erase_eq_some hp).2
  | left _ hfound hcreator =>
    rcases lookup_insert_eq_some hp with ⟨-, rfl⟩ | ⟨-, hp⟩
    · exact mem_removeMember (h _ _ (hnamed.findPartyByName.mp hfound).1) hcreator
    · exact h k p hp

/-! ## Life times -/

/-- The party is there under its id, with its name and its creator, whom it lists. -/
def Stands (party : Party) (m : PartyMap) : Prop :=
  ∃ members, m.lookup party.partyId = some { party with members } ∧ party.partyCreator ∈ members

/-- **Step lemma.** Only a `PARTY_DELETE` of the creator that carries the name ends it. -/
theorem Stands.effect {creates : Prop} (h : Stands party pm.mapParties)
    (hnamed : Named pm.mapParties) (hfresh : pm.mapParties.lookup pm.partyIdCounter = none)
    (heffect : ManagerEffect creates o pm userId msg pm')
    (hno : ¬ (msg.messageType = .partyDelete ∧ msg.content = party.partyName ∧
      userId = party.partyCreator)) : Stands party pm'.mapParties := by
  obtain ⟨members, hlookup, hcreator⟩ := h
  -- whatever party is found by name, it is this one if it has its id
  have hfind : ∀ {found : Party}, pm.findPartyByName o.iterOrder msg.content = some found →
      found.partyId = party.partyId →
      found = { party with members } ∧ msg.content = party.partyName := by
    intro found hfound hid
    obtain ⟨hlookup', hname⟩ := hnamed.findPartyByName.mp hfound
    rw [hid, hlookup] at hlookup'
    obtain rfl := Option.some.inj hlookup'
    exact ⟨rfl, hname.symm⟩
  -- a party that is stored again may have other members
  have hstored : ∀ {found found' : Party},
      pm.findPartyByName o.iterOrder msg.content = some found → found'.partyId = found.partyId →
      (found = { party with members } → ∃ members', found' = { party with members := members' } ∧
        party.partyCreator ∈ members') → Stands party (pm.store found').mapParties := by
    intro found found' hfound hid hsame
    by_cases heq : found.partyId = party.partyId
    · obtain ⟨members', rfl, hmem⟩ := hsame (hfind hfound heq).1
      exact ⟨members', AList.lookup_insert _, hmem⟩
    · exact ⟨members, (AList.lookup_insert_ne (by rw [hid]; exact Ne.symm heq)).trans hlookup,
        hcreator⟩
  cases heffect with
  | same => exact ⟨members, hlookup, hcreator⟩
  | created =>
    -- a new party does not take the id of this one
    have hne : party.partyId ≠ pm.partyIdCounter := by
      intro heq
      rw [heq, hfresh] at hlookup
      cases hlookup
    exact ⟨members, (AList.lookup_insert_ne hne).trans hlookup, hcreator⟩
  | joined _ hfound =>
    refine hstored hfound rfl ?_
    rintro rfl
    exact ⟨members ++ [userId], rfl, List.mem_append_left _ hcreator⟩
  | @deleted found _ htype hfound hfoundCreator =>
    refine ⟨members, (AList.lookup_erase_ne fun heq => hno ?_).trans hlookup, hcreator⟩
    obtain ⟨rfl, hname⟩ := hfind hfound heq.symm
    exact ⟨htype, hname, hfoundCreator.symm⟩
  | left _ hfound hne =>
    refine hstored hfound rfl ?_
    rintro rfl
    have hlisted : party.partyCreator ∈ ({ party with members } : Party).members := hcreator
    exact ⟨_, rfl, mem_removeMember hlisted hne⟩

end Manager

/-! ## Runs -/

/-- What is known of the parties after `n` creations. -/
structure PartiesInv (n : Nat) (s : Sys) : Prop where
  named : Named s.srv.partyManager.mapParties
  issued : Issued n s.srv.partyManager
  owned : Owned s.srv.partyManager.mapParties

theorem PartiesInv.start (maxUser : UInt32) : PartiesInv 0 (Sys.start maxUser) where
  named := .start maxUser
  issued := .start maxUser
  owned _ _ h := nomatch h

theorem PartiesInv.step {n : Nat} (h : PartiesInv n s)
    (hbound : n + (createsParty s a).toNat < 2 ^ 32 - 100000) (heffect : Effect parse s a t) :
    PartiesInv (n + (createsParty s a).toNat) t := by
  rcases step_manager heffect with ⟨heq, hno⟩ | ⟨o, user, msg, -, -, -, hmanager⟩
  · obtain ⟨hnamed, hissued, howned⟩ := h
    rw [hno]
    exact ⟨heq ▸ hnamed, heq ▸ hissued, heq ▸ howned⟩
  · exact ⟨h.named.effect hmanager, h.issued.effect h.named hbound hmanager,
      h.owned.effect h.named hmanager⟩

section Runs

variable {ok : Sys → Action → Prop} {maxUser : UInt32} {as bs : List Action}

theorem parties_of_run (hrun : Run (step parse) ok (Sys.start maxUser) as s)
    (hcreated : stepCount (step parse) createsParty (Sys.start maxUser) as < 2 ^ 32 - 100000) :
    PartiesInv (stepCount (step parse) createsParty (Sys.start maxUser) as) s := by
  have hstep (n : Nat) (s : Sys) (a : Action) (t : Sys)
      (hbound : n + (createsParty s a).toNat ≤ 2 ^ 32 - 100000 - 1) (h : PartiesInv n s)
      (_ : ok s a) (hstep : step parse s a = some t) :
      PartiesInv (n + (createsParty s a).toNat) t := h.step (by omega) (step_effect hstep)
  have hinv := Run.counted hstep hrun (by rw [Nat.zero_add]; exact Nat.le_sub_one_of_lt hcreated)
    (.start maxUser)
  rwa [Nat.zero_add] at hinv

end Runs

/-- The action is a `PARTY_DELETE` that carries the name of the party, for a session of its
creator. -/
def DeletesOwn (party : Party) (s : Sys) : Action → Prop
  | .dispatch _ => ∃ user ∈ s.current, ∃ msg ∈ (s.srv.sessions user).pending.head?,
      msg.messageType = .partyDelete ∧ msg.content = party.partyName ∧
        (s.srv.sessions user).id = party.partyCreator
  | _ => False

instance (party : Party) (s : Sys) : (a : Action) → Decidable (DeletesOwn party s a)
  | .dispatch _ => inferInstanceAs (Decidable (∃ user ∈ s.current, _))
  | .accept | .receive _ _ | .disconnect _ | .sweep | .examine _ | .visit _ | .finish => isFalse id

theorem stands_step {n : Nat} {party : Party} (h : PartiesInv n s)
    (hstands : Stands party s.srv.partyManager.mapParties) (hno : ¬ DeletesOwn party s a)
    (heffect : Effect parse s a t) : Stands party t.srv.partyManager.mapParties := by
  rcases step_manager heffect with ⟨heq, -⟩ | ⟨o, user, msg, rfl, hcurrent, hhead, hmanager⟩
  · rw [heq]
    exact hstands
  · refine hstands.effect h.named h.issued.fresh hmanager fun ⟨htype, hname, hcreator⟩ => ?_
    exact hno ⟨user, hcurrent, msg, hhead, htype, hname, hcreator⟩

/-- **The creator's deletion.** Whatever the order of iteration, it succeeds and removes
exactly this party, if the destructor can log the name. -/
theorem delete_own {n : Nat} {party : Party} (h : PartiesInv n s)
    (hstands : Stands party s.srv.partyManager.mapParties) {o : Oracle}
    (hdeletes : DeletesOwn party s (.dispatch o)) :
    (∃ user t, s.current = some user ∧ step parse s (.dispatch o) = some t ∧
      t.srv.partyManager.mapParties = s.srv.partyManager.mapParties.erase party.partyId ∧
      t.srv.posted = s.srv.posted ++ [(user, {
        messageType := .serverMessage
        content := ascii "Party delete successful" })]) ↔
      (cString party.partyName).length + 47 < Logger.intMax := by
  obtain ⟨user, hcurrent, msg, hhead, htype, hname, hcreator⟩ := hdeletes
  rw [Option.mem_def] at hcurrent hhead
  obtain ⟨members, hlookup, -⟩ := hstands
  have hcontent : msg.content ≠ [] := by
    rw [hname]
    exact h.named.nonempty _ { party with members } hlookup
  have hfound : s.srv.partyManager.findPartyByName o.iterOrder msg.content =
      some { party with members } := h.named.findPartyByName.mpr ⟨hlookup, hname.symm⟩
  have hlive : party.partyId ∈ s.srv.partyManager.mapParties :=
    AList.lookup_isSome.mp (by rw [hlookup]; rfl)
  rcases (s.srv.sessions user).getMessageInUserQueue_spec with
    ⟨hnil, -⟩ | ⟨msg', rest, input, output, hpending, rfl, hget⟩
  · rw [hnil] at hhead
    cases hhead
  obtain rfl : msg' = msg := by
    rw [hpending] at hhead
    exact Option.some.inj hhead
  -- the message leaves its queue before it is handled
  let srv := s.srv.setSession user ((s.srv.sessions user).withQueues input output)
  have hid : (srv.sessions user).id = party.partyCreator :=
    (TcpServer.setSession_congr (·.id) (UserSession.withQueues_id _ input output) user).trans
      hcreator
  have hfound' : srv.partyManager.findPartyByName o.iterOrder msg'.content =
      some { party with members } := hfound
  have hhandled := handlePartyDelete_own hcontent hfound' hid.symm hlive
    (h.issued.ne_zero hlookup)
  have hfits := fits_delete_iff { party with members } hname
  have hmessage : srv.onMessage o user msg' = TcpServer.logged
      [ascii "[SERVER] Deleted party: " ++ cString msg'.content,
        ({ party with members } : Party).destroyedLine] (srv.handlePartyDelete o user msg') := by
    rw [← requestLines_delete htype hcontent hfound' hid.symm hlive]
    simp only [TcpServer.onMessage, TcpServer.requestLines, htype]
  constructor
  · rintro ⟨_, t, -, hstep, -⟩
    simp only [step, hcurrent, hget] at hstep
    rw [hmessage] at hstep
    split at hstep
    · cases hstep
    · rename_i hlogged
      exact hfits.mp (TcpServer.logged_eq_ok.mp hlogged).1
  · intro hshort
    have hok := hmessage.trans (TcpServer.logged_eq_ok.mpr ⟨hfits.mpr hshort, rfl⟩)
    have hstep : step parse s (.dispatch o) = some { s with
        srv := srv.handlePartyDelete o user msg'
        dispatched := (user, msg') :: s.dispatched } := by
      simp only [step, hcurrent, hget]
      rw [hok]
    refine ⟨user, _, hcurrent, hstep, ?_, ?_⟩ <;> rw [hhandled] <;> rfl

/-- **Life time of a party.** While fewer than `2^32 - 100000` parties are created, a party
stands, with its id, name and creator, whom it lists, until a `PARTY_DELETE` with its name
is handled for a session of its creator. Such a deletion succeeds and removes exactly this
party if and only if the line of the party's destructor fits. -/
theorem party_lifetime {maxUser : UInt32} {as bs : List Action} {party : Party}
    (hrun : Run (step parse) anyStep (Sys.start maxUser) as s)
    (hlive : s.srv.partyManager.mapParties.lookup party.partyId = some party)
    (hrest : Run (step parse) (fun s a => ¬ DeletesOwn party s a) s bs t)
    (hcreated : stepCount (step parse) createsParty (Sys.start maxUser) (as ++ bs) <
      2 ^ 32 - 100000) :
    Stands party t.srv.partyManager.mapParties ∧
      ∀ o, DeletesOwn party t (.dispatch o) →
        ((∃ user u, t.current = some user ∧ step parse t (.dispatch o) = some u ∧
          u.srv.partyManager.mapParties = t.srv.partyManager.mapParties.erase party.partyId ∧
          u.srv.posted = t.srv.posted ++ [(user, {
            messageType := .serverMessage
            content := ascii "Party delete successful" })]) ↔
          (cString party.partyName).length + 47 < Logger.intMax) := by
  rw [stepCount_append bs hrun] at hcreated
  have hstart := parties_of_run hrun (by omega)
  have hstands : Stands party s.srv.partyManager.mapParties :=
    ⟨party.members, hlive, hstart.owned _ _ hlive⟩
  have hstep (n : Nat) (s : Sys) (a : Action) (t : Sys)
      (hbound : n + (createsParty s a).toNat ≤ 2 ^ 32 - 100000 - 1)
      (h : PartiesInv n s ∧ Stands party s.srv.partyManager.mapParties)
      (hno : ¬ DeletesOwn party s a) (hstep : step parse s a = some t) :
      PartiesInv (n + (createsParty s a).toNat) t ∧ Stands party t.srv.partyManager.mapParties :=
    ⟨h.1.step (by omega) (step_effect hstep), stands_step h.1 h.2 hno (step_effect hstep)⟩
  obtain ⟨hinv, hstands⟩ := Run.counted hstep hrest (Nat.le_sub_one_of_lt hcreated)
    ⟨hstart, hstands⟩
  exact ⟨hstands, fun o hdeletes => delete_own hinv hstands hdeletes⟩

/-- The party "p" of `ann`, with `bob` in it. -/
def annsParty : Party where
  partyId := 100000
  partyName := ascii "p"
  partyCreator := 1
  members := [1, 2]

/-- Both leave the party, which `ann` may not, and then `ann` deletes it. -/
def partyEnds : List Action :=
  [.receive 1 (partyRequest .partyLeave).serialize, .visit 1, .dispatch {}, .finish,
    .receive 0 (partyRequest .partyLeave).serialize,
    .receive 0 (partyRequest .partyDelete).serialize, .visit 0, .dispatch {}]

def parseRequests : Bytes → Option ChatMessage :=
  parseSerialized [login "a", login "b", partyRequest .partyCreate, partyRequest .partyJoin,
    partyRequest .partyLeave, partyRequest .partyDelete]

theorem party_lifetime_annsParty : ∃ t : Sys, DeletesOwn annsParty t (.dispatch {}) ∧
    Stands annsParty t.srv.partyManager.mapParties ∧
    ∃ user u, t.current = some user ∧ step parseRequests t (.dispatch {}) = some u ∧
      u.srv.partyManager.mapParties = t.srv.partyManager.mapParties.erase annsParty.partyId ∧
      u.srv.posted = t.srv.posted ++ [(user, {
        messageType := .serverMessage
        content := ascii "Party delete successful" })] := by
  obtain ⟨s, hrun, hs⟩ := exists_run_of_exec (step parseRequests) anyStep (Sys.start 5) partyOfTwo
    (fun s => decide (s.srv.partyManager.mapParties.lookup annsParty.partyId = some annsParty))
    (by decide)
  obtain ⟨t, hall, ht⟩ := exists_run_of_exec (step parseRequests)
    (fun s a => ¬ DeletesOwn annsParty s a) (Sys.start 5) (partyOfTwo ++ partyEnds)
    (fun t => decide (DeletesOwn annsParty t (.dispatch {}))) (by decide)
  obtain ⟨s', hfirst, hrest⟩ := hall.split
  obtain rfl := hrun.unique hfirst
  have hcreated : stepCount (step parseRequests) createsParty (Sys.start 5)
      (partyOfTwo ++ partyEnds) = 1 := by decide
  obtain ⟨hstands, hdelete⟩ := party_lifetime hrun (of_decide_eq_true hs) hrest (by omega)
  exact ⟨t, of_decide_eq_true ht, hstands, (hdelete {} (of_decide_eq_true ht)).mpr (by decide)⟩

/-- The line of the constructor fits with this name, and that of the destructor does not. -/
def undeletable : Bytes := longName 2147483602

/-- `ann` creates a party of this name. When she deletes it, the exception of the destructor
ends the run. -/
theorem long_party_stays : ∃ t u,
    Run (step ChatMessage.parseFromArray) anyStep (Sys.start 5) (annLogsIn ++
      [.receive 0 (partyRequest .partyCreate undeletable).serialize, .visit 0, .dispatch {},
        .finish]) t ∧
    t.srv.partyManager.mapParties.lookup 100000 = some (annsPartyWith 100000 undeletable) ∧
    Run (step ChatMessage.parseFromArray) anyStep t
      [.receive 0 (partyRequest .partyDelete undeletable).serialize, .visit 0] u ∧
    DeletesOwn (annsPartyWith 100000 undeletable) u (.dispatch {}) ∧
    step ChatMessage.parseFromArray u (.dispatch {}) = none := by
  have hlength : (cString undeletable).length = 2147483602 := length_longName _
  have hmax : Logger.intMax = 2147483647 := rfl
  have hname : undeletable ≠ [] := longName_ne_nil (by omega)
  obtain ⟨s, hstart, halone⟩ := alone_annLogsIn login_readBack
  have hfits : Logger.Fits (({ partyIdCounter := 100000 } : PartyManager).createPartyLines 1
      undeletable) := by
    have hid : (Logger.signed 100000).length = 6 := rfl
    exact (fits_create_iff hname).mpr (by omega)
  obtain ⟨t, hcreate, hready, haccount, -, hmanager⟩ :=
    halone.create hname (partyRequest_readBack rfl (by decide)) hfits
  have hrun := hstart.append hcreate
  have hlookup : t.srv.partyManager.mapParties.lookup 100000 =
      some (annsPartyWith 100000 undeletable) := by
    rw [hmanager]
    exact AList.lookup_insert _
  have hlive : (annsPartyWith 100000 undeletable).partyId ∈ t.srv.partyManager.mapParties :=
    AList.lookup_isSome.mp (Option.isSome_iff_exists.mpr ⟨_, hlookup⟩)
  have hfound : t.srv.partyManager.findPartyByName .entries undeletable =
      some (annsPartyWith 100000 undeletable) :=
    (named_of_run hrun).findPartyByName.mpr ⟨hlookup, rfl⟩
  have hread : ChatMessage.parseFromArray (partyRequest .partyDelete undeletable).serialize =
      some (partyRequest .partyDelete undeletable) := partyRequest_readBack rfl (by decide)
  refine ⟨t, _, hrun, hlookup, hready.ask hread, ?_, ?_⟩
  · have hsession := t.asked_session 0 (partyRequest .partyDelete undeletable)
    refine ⟨0, rfl, t.stamped 0 (partyRequest .partyDelete undeletable), ?_, rfl, rfl, ?_⟩
    · rw [hsession]
      rfl
    · rw [hsession]
      exact haccount
  · have hlong : Logger.intMax ≤
        (cString (annsPartyWith 100000 undeletable).partyName).length + 47 := by
      show Logger.intMax ≤ (cString undeletable).length + 47
      omega
    obtain ⟨e, herror⟩ : ∃ e, t.srv.onMessage {} 0
        (t.stamped 0 (partyRequest .partyDelete undeletable)) = .error e :=
      onMessage_delete_throws rfl hname hfound rfl haccount.symm hlive hlong
    exact hready.dispatch_error herror

end BoostChat.Server
