import BoostChat.Server.PartyLifetime

/-!
# When the party ids run out

`m_PartyIdCounter` is a `uint32_t` that starts at 100000 and is never checked, and the id 0
stands for no party in the sessions and in the result of `DeleteParty`.

* `KeepsIdsApart` — what is expected of the ids in one step;
* `party_ids_apart_iff` — all steps of a run meet it exactly when the run creates at most
  `2^32 - 100000` parties;
* `party_id_zero` — a run that creates one more, which gets the id 0.
-/

namespace BoostChat.Server

open Lib

variable {parse : Bytes → Option ChatMessage} {s t : Sys} {a : Action}

/-! ## The condition on a step -/

/-- `HandlePartyCreate` gives the party an id that is neither 0 nor that of another party;
all parties are still there, and the creator counts as being in a party. -/
def CreatesApart (srv : TcpServer) (o : Oracle) (user : SessionRef) (msg : ChatMessage) : Prop :=
  let created := srv.partyManager.createParty (srv.sessions user).id msg.content
  let srv' := srv.handlePartyCreate o user msg
  ∃ party, created.2 = some party ∧ party.partyId ≠ 0 ∧
    party.partyId ∉ srv.partyManager.mapParties ∧
    (∀ k p, srv.partyManager.mapParties.lookup k = some p →
      srv'.partyManager.mapParties.lookup k = some p) ∧
    srv'.partyIds user ≠ 0

/-- When `DeleteParty` returns 0 it has deleted nothing. -/
def ZeroDeletesNothing (srv : TcpServer) (o : Oracle) (user : SessionRef) (msg : ChatMessage) :
    Prop :=
  let deleted := srv.partyManager.deleteParty o.iterOrder (srv.sessions user).id msg.content
  deleted.2 = 0 → deleted.1 = srv.partyManager

/-- The step keeps the ids apart. The message that is handled is the oldest one in the queue. -/
def KeepsIdsApart (s : Sys) : Action → Prop
  | .dispatch o => ∀ user ∈ s.current, ∀ msg ∈ (s.srv.sessions user).pending.head?,
      (TcpServer.Creates o s.srv user msg → CreatesApart s.srv o user msg) ∧
      (msg.messageType = .partyDelete → ZeroDeletesNothing s.srv o user msg)
  | _ => True

/-! ## The counter -/

/-- After `n` creations, before an id is issued again: the parties have ids that were issued,
and the counter has moved by `n`. -/
structure Numbered (n : Nat) (pm : PartyManager) : Prop where
  below : IdsBelow n pm
  counter : pm.partyIdCounter.toNat = (100000 + n) % 2 ^ 32

section Numbered

variable {n : Nat} {pm : PartyManager} {party : Party}

theorem Numbered.start (maxUser : UInt32) : Numbered 0 (Sys.start maxUser).srv.partyManager where
  below _ _ h := nomatch h
  counter := rfl

/-- No party has the id 0. -/
theorem Numbered.ne_zero (h : Numbered n pm) {k : UInt32}
    (hk : pm.mapParties.lookup k = some party) : k ≠ 0 := by
  rintro rfl
  have hrange := (h.below _ _ hk).1
  exact absurd hrange (by decide)

/-- The next id is none of the parties', and not 0. -/
theorem Numbered.fresh (h : Numbered n pm) (hn : n < 2 ^ 32 - 100000) :
    pm.partyIdCounter ∉ pm.mapParties ∧ pm.partyIdCounter ≠ 0 := by
  have hcounter := h.counter
  rw [Nat.mod_eq_of_lt (by omega)] at hcounter
  constructor
  · intro hmem
    obtain ⟨party, hlookup⟩ := Option.isSome_iff_exists.mp (AList.lookup_isSome.mpr hmem)
    have hrange := (h.below _ _ hlookup).2
    omega
  · intro hzero
    rw [hzero] at hcounter
    exact absurd hcounter (by
      show ¬ 0 = 100000 + n
      omega)

/-- When all ids are used up, the counter is 0. -/
theorem Numbered.wrapped (h : Numbered (2 ^ 32 - 100000) pm) : pm.partyIdCounter = 0 :=
  UInt32.toNat_inj.mp h.counter

end Numbered

theorem numbered_step {n : Nat} (h : Numbered n s.srv.partyManager)
    (hnamed : Named s.srv.partyManager.mapParties)
    (hn : n + (createsParty s a).toNat ≤ 2 ^ 32 - 100000) (heffect : Effect parse s a t) :
    Numbered (n + (createsParty s a).toNat) t.srv.partyManager := by
  rcases step_manager heffect with ⟨heq, hno⟩ | ⟨o, user, msg, -, -, -, hmanager⟩
  · rw [hno, heq]
    exact h
  · have hcounter := h.counter
    refine ⟨h.below.effect hnamed (fun hcreates => ?_) hmanager, ?_⟩
    · rw [hcreates, Bool.toNat_true] at hn
      rw [hcounter, Nat.mod_eq_of_lt (by omega)]
    · rw [counter_effect hmanager]
      cases hcreates : createsParty s a with
      | false => exact hcounter
      | true =>
        rw [if_pos rfl, UInt32.toNat_add, UInt32.toNat_one, hcounter, Bool.toNat_true]
        omega

/-! ## One step -/

section Step

variable {n : Nat} {srv : TcpServer} {o : Oracle} {user : SessionRef} {msg : ChatMessage}

/-- **Creations.** What is expected of a creation holds exactly when the next id is neither 0
nor a party's. -/
theorem createsApart_iff (hcreates : TcpServer.Creates o srv user msg) :
    CreatesApart srv o user msg ↔
      srv.partyManager.partyIdCounter ∉ srv.partyManager.mapParties ∧
        srv.partyManager.partyIdCounter ≠ 0 := by
  obtain ⟨hcreated, hhandled⟩ := handlePartyCreate_created hcreates
  constructor
  · rintro ⟨party, hparty, hzero, hfree, -, -⟩
    rw [hcreated] at hparty
    rw [← Option.some.inj hparty] at hzero hfree
    exact ⟨hfree, hzero⟩
  · rintro ⟨hfree, hzero⟩
    refine ⟨_, congrArg Prod.snd hcreated, hzero, hfree, fun k p hp => ?_, ?_⟩
    · have hne : k ≠ srv.partyManager.partyIdCounter := by
        rintro rfl
        exact hfree (AList.lookup_isSome.mp (Option.isSome_iff_exists.mpr ⟨p, hp⟩))
      rw [hhandled]
      exact (AList.lookup_insert_ne hne).trans hp
    · rw [hhandled]
      show (TcpServer.setPartyId _ user _).partyIds user ≠ 0
      rw [TcpServer.setPartyId_partyIds, Function.update_self]
      exact hzero

theorem zeroDeletesNothing (hnamed : Named srv.partyManager.mapParties)
    (h : Numbered n srv.partyManager) : ZeroDeletesNothing srv o user msg := by
  unfold ZeroDeletesNothing PartyManager.deleteParty
  cases hfind : srv.partyManager.findPartyByName o.iterOrder msg.content with
  | none => exact fun _ => rfl
  | some party =>
    -- a party that is found is in the map, and its id has been issued
    have hzero := h.ne_zero (hnamed.findPartyByName.mp hfind).1
    dsimp only
    by_cases hcreator : party.partyCreator = (srv.sessions user).id
    swap
    · rw [if_neg hcreator]
      exact fun _ => rfl
    rw [if_pos hcreator]
    by_cases hlive : party.partyId ∈ srv.partyManager.mapParties
    · rw [if_pos hlive]
      exact fun hid => absurd hid hzero
    · rw [if_neg hlive]
      exact fun _ => rfl

end Step

/-- A step that creates no party. -/
theorem keepsIdsApart_of_not_creates {n : Nat} (hnamed : Named s.srv.partyManager.mapParties)
    (h : Numbered n s.srv.partyManager) (hno : createsParty s a = false) : KeepsIdsApart s a := by
  cases a with
  | dispatch o =>
    intro user huser msg hmsg
    refine ⟨fun hcreates => ?_, fun _ => zeroDeletesNothing hnamed h⟩
    rw [createsParty, Option.mem_def.mp huser, Option.any_some, Option.mem_def.mp hmsg,
      Option.any_some, decide_eq_false_iff_not] at hno
    exact absurd hcreates hno
  | _ => trivial

/-- A step that creates a party. -/
theorem keepsIdsApart_iff_of_creates {n : Nat} (hnamed : Named s.srv.partyManager.mapParties)
    (h : Numbered n s.srv.partyManager) (hn : n ≤ 2 ^ 32 - 100000)
    (hcreates : createsParty s a = true) : KeepsIdsApart s a ↔ n < 2 ^ 32 - 100000 := by
  cases a with
  | dispatch o =>
    rw [createsParty, Option.any_eq_true] at hcreates
    obtain ⟨user, hcurrent, hcreates⟩ := hcreates
    rw [Option.any_eq_true] at hcreates
    obtain ⟨msg, hhead, hcreates⟩ := hcreates
    have hcreates := of_decide_eq_true hcreates
    constructor
    · intro hkeeps
      have hapart := (createsApart_iff hcreates).mp ((hkeeps user hcurrent msg hhead).1 hcreates)
      by_contra hall
      -- after exactly this many creations the counter has wrapped around to 0
      obtain rfl : n = 2 ^ 32 - 100000 := by omega
      exact hapart.2 h.wrapped
    · intro hlt user' huser msg' hmsg
      obtain rfl := Option.mem_unique huser hcurrent
      obtain rfl := Option.mem_unique hmsg hhead
      exact ⟨fun _ => (createsApart_iff hcreates).mpr (h.fresh hlt),
        fun _ => zeroDeletesNothing hnamed h⟩
  | _ => cases hcreates

/-! ## Runs -/

/-- The runs from a state after `n` creations. -/
theorem keepsIdsApart_run_iff {as : List Action} (hrun : Run (step parse) anyStep s as t) :
    ∀ {n : Nat}, n ≤ 2 ^ 32 - 100000 → Named s.srv.partyManager.mapParties →
      Numbered n s.srv.partyManager →
      (Run (step parse) KeepsIdsApart s as t ↔
        n + stepCount (step parse) createsParty s as ≤ 2 ^ 32 - 100000) := by
  induction hrun with
  | nil s =>
    intro n hn _ _
    exact iff_of_true (Run.nil s) hn
  | @cons s u t a as _ hstep hrest ih =>
    intro n hn hnamed hnumbered
    have heffect := step_effect hstep
    have hnamed' := named_step hnamed heffect
    rw [Run.cons_iff hstep, stepCount_cons hstep]
    cases hcreates : createsParty s a with
    | false =>
      have hnext := numbered_step hnumbered hnamed (by rw [hcreates]; exact hn) heffect
      rw [hcreates, Bool.toNat_false, Nat.add_zero] at hnext
      rw [and_iff_right (keepsIdsApart_of_not_creates hnamed hnumbered hcreates),
        ih hn hnamed' hnext, Bool.toNat_false, Nat.zero_add]
    | true =>
      rw [keepsIdsApart_iff_of_creates hnamed hnumbered hn hcreates, Bool.toNat_true]
      by_cases hlt : n < 2 ^ 32 - 100000
      · have hnext := numbered_step hnumbered hnamed
          (by rw [hcreates, Bool.toNat_true]; omega) heffect
        rw [hcreates, Bool.toNat_true] at hnext
        rw [and_iff_right hlt, ih (by omega) hnamed' hnext, Nat.add_assoc]
      · -- this creation is one too many, and so is the count of the whole run
        exact iff_of_false (fun h => hlt h.1) (by omega)

/-- **Ids of parties.** In a run of any length, every party that is created gets an id that
is not 0 and no other party's, all parties stay, the creator counts as being in a party, and
`DeleteParty` returns 0 only when it deletes nothing, exactly when the run creates at most
`2^32 - 100000` parties. -/
theorem party_ids_apart_iff {maxUser : UInt32} {as : List Action}
    (hrun : Run (step parse) anyStep (Sys.start maxUser) as s) :
    Run (step parse) KeepsIdsApart (Sys.start maxUser) as s ↔
      stepCount (step parse) createsParty (Sys.start maxUser) as ≤ 2 ^ 32 - 100000 := by
  have hiff := keepsIdsApart_run_iff hrun (Nat.zero_le _) (.start maxUser) (.start maxUser)
  rwa [Nat.zero_add] at hiff

/-- With one creation the ids are far from running out. -/
theorem party_ids_apart_partyOfTwo : ∃ s : Sys,
    Run (step parseParty) anyStep (Sys.start 5) partyOfTwo s ∧
    Run (step parseParty) KeepsIdsApart (Sys.start 5) partyOfTwo s := by
  obtain ⟨s, hrun, -⟩ := exists_run_of_exec (step parseParty) anyStep (Sys.start 5) partyOfTwo
    (fun s => decide (s.srv.users = [0, 1])) (by decide)
  have hcreated : stepCount (step parseParty) createsParty (Sys.start 5) partyOfTwo = 1 := by
    decide
  exact ⟨s, hrun, (party_ids_apart_iff hrun).mpr (by omega)⟩

/-! ## A party with the id 0 -/

theorem managerWith_erase (c : UInt32) : (managerWith c).mapParties.erase c = ∅ :=
  AList.ext (List.kerase_cons_eq rfl)

section Cycle

variable {c : UInt32}

/-- The creation of the party "p". -/
theorem Alone.createP (h : Alone c s) :
    ∃ t, Run (step parseRequests) anyStep s [.receive 0 (partyRequest .partyCreate).serialize,
        .visit 0, .dispatch {}, .finish] t ∧
      Ready t 0 ∧ (t.srv.sessions 0).id = 1 ∧ t.srv.partyIds 0 = c ∧
      t.srv.partyManager = managerWith c := by
  have hshort : (cString (ascii "p")).length + (Logger.signed c).length + 36 < Logger.intMax := by
    have hname : (cString (ascii "p")).length = 1 := rfl
    have hid := Logger.length_signed_le c
    have hmax : Logger.intMax = 2147483647 := rfl
    omega
  have hname : ascii "p" ≠ [] := List.cons_ne_nil _ _
  exact h.create hname (by rfl) ((fits_create_iff hname).mpr hshort)

/-- The deletion of the party, whose id is not 0. -/
theorem Ready.delete (h : Ready s 0) (haccount : (s.srv.sessions 0).id = 1)
    (hparty : s.srv.partyIds 0 = c) (hmanager : s.srv.partyManager = managerWith c)
    (hc : c ≠ 0) :
    ∃ t, Run (step parseRequests) anyStep s [.receive 0 (partyRequest .partyDelete).serialize,
        .visit 0, .dispatch {}, .finish] t ∧ Alone (c + 1) t := by
  have hparse : parseRequests (partyRequest .partyDelete).serialize =
      some (partyRequest .partyDelete) := by rfl
  have hfound : s.srv.partyManager.findPartyByName .entries (ascii "p") =
      some (annsPartyWith c) := by
    rw [hmanager]
    rfl
  have hlive : (annsPartyWith c).partyId ∈ s.srv.partyManager.mapParties := by
    rw [hmanager]
    exact (AList.mem_insert _).mpr (Or.inl rfl)
  have hhandled : s.srv.handlePartyDelete {} 0 (s.stamped 0 (partyRequest .partyDelete)) = _ :=
    handlePartyDelete_own (List.cons_ne_nil _ _) hfound haccount.symm hlive hc
  rw [hmanager] at hhandled
  have hlines : s.srv.requestLines {} 0 (s.stamped 0 (partyRequest .partyDelete)) = _ :=
    requestLines_delete rfl (List.cons_ne_nil _ _) hfound haccount.symm hlive
  have hshort : (cString (ascii "p")).length + 47 < Logger.intMax := by decide
  have hfits : Logger.Fits (s.srv.requestLines {} 0 (s.stamped 0 (partyRequest .partyDelete))) := by
    rw [hlines]
    exact (fits_delete_iff (annsPartyWith c) rfl).mpr hshort
  have hmessage : s.srv.onMessage {} 0 (s.stamped 0 (partyRequest .partyDelete)) = .ok _ :=
    TcpServer.logged_eq_ok.mpr ⟨hfits, hhandled⟩
  -- the session of `ann` points to the party that goes
  have hsession : (s.srv.resetPartyIds c).sessions 0 = (s.srv.sessions 0).setPartyId 0 :=
    if_pos ⟨h.online, hparty⟩
  obtain ⟨t, hrun, hsrv, hidle⟩ := h.request hparse hmessage (by
    show ((s.srv.resetPartyIds c).sessions 0).pending = []
    rw [hsession]
    show (s.srv.sessions 0).outputQueue ++ (s.srv.sessions 0).inputQueue = []
    rw [h.input, h.output, List.append_nil])
  have hafter : t.srv.sessions 0 = (s.srv.sessions 0).setPartyId 0 := by
    rw [hsrv]
    exact hsession
  refine ⟨t, hrun, h.of_setPartyId hidle (by rw [hsrv]; rfl) (by rw [hsrv]; rfl) hafter,
    ?_, ?_, ?_⟩
  · rw [hafter]
    exact haccount
  · rw [TcpServer.partyIds, hafter]
    rfl
  · rw [hsrv]
    show ({ managerWith c with mapParties := (managerWith c).mapParties.erase c } :
      PartyManager) = _
    rw [managerWith_erase]
    rfl

/-- `ann` creates a party and deletes it. -/
def createAndDelete : List Action :=
  [.receive 0 (partyRequest .partyCreate).serialize, .visit 0, .dispatch {}, .finish,
    .receive 0 (partyRequest .partyDelete).serialize, .visit 0, .dispatch {}, .finish]

/-- As long as the next id is not 0, everything is as before but for the counter. -/
theorem Alone.createAndDelete (h : Alone c s) (hc : c ≠ 0) :
    ∃ t, Run (step parseRequests) anyStep s createAndDelete t ∧ Alone (c + 1) t := by
  obtain ⟨t, hcreate, hready, haccount, hparty, hmanager⟩ := h.createP
  obtain ⟨u, hdelete, halone⟩ := hready.delete haccount hparty hmanager hc
  exact ⟨u, hcreate.append hdelete, halone⟩

/-- Many parties, one after the other. -/
theorem Alone.createAndDelete_many (h : Alone c s) (hc : c ≠ 0) :
    ∀ n : Nat, c.toNat + n ≤ 2 ^ 32 → ∃ t c', Run (step parseRequests) anyStep s
      (List.replicate n BoostChat.Server.createAndDelete).flatten t ∧ Alone c' t ∧
      c'.toNat = (c.toNat + n) % 2 ^ 32 := by
  intro n
  induction n with
  | zero =>
    intro _
    refine ⟨s, c, Run.nil s, h, ?_⟩
    rw [Nat.add_zero, Nat.mod_eq_of_lt c.toNat_lt]
  | succ n ih =>
    intro hn
    obtain ⟨t, c', hrun, halone, hc'⟩ := ih (by omega)
    rw [Nat.mod_eq_of_lt (by omega)] at hc'
    have hpos : 0 < c.toNat := Nat.pos_of_ne_zero fun hzero =>
      hc (UInt32.toNat_inj.mp hzero)
    have hne : c' ≠ 0 := by
      rintro rfl
      rw [UInt32.toNat_zero] at hc'
      omega
    obtain ⟨u, hcycle, hnext⟩ := halone.createAndDelete hne
    refine ⟨u, c' + 1, ?_, hnext, ?_⟩
    · rw [List.replicate_succ', List.flatten_append, List.flatten_singleton]
      exact hrun.append hcycle
    · rw [UInt32.toNat_add, UInt32.toNat_one, hc', Nat.add_assoc]

end Cycle

/-- When the next id is 0, the next creation does not keep the ids apart. -/
theorem Alone.not_keepsIdsApart (h : Alone 0 s) :
    ¬ KeepsIdsApart (s.asked 0 (partyRequest .partyCreate)) (.dispatch {}) := by
  intro hkeeps
  have hmanager : (s.asked 0 (partyRequest .partyCreate)).srv.partyManager =
      { partyIdCounter := 0 } := h.manager
  have hsession := s.asked_session 0 (partyRequest .partyCreate)
  have hcreates : TcpServer.Creates {} (s.asked 0 (partyRequest .partyCreate)).srv 0
      (s.stamped 0 (partyRequest .partyCreate)) := by
    refine ⟨rfl, List.cons_ne_nil _ _, ?_, ?_⟩
    · rw [TcpServer.partyIds, hsession]
      exact h.outside
    · rw [hmanager]
      rfl
  have hapart := (hkeeps 0 rfl (s.stamped 0 (partyRequest .partyCreate))
    (by rw [hsession]; rfl)).1 hcreates
  have hzero := ((createsApart_iff hcreates).mp hapart).2
  rw [hmanager] at hzero
  exact hzero rfl

/-- `ann` logs in, creates and deletes a party `2^32 - 100000` times, and creates one more. -/
def wrapAround : List Action :=
  annLogsIn ++ (List.replicate (2 ^ 32 - 100000) createAndDelete).flatten ++
    [.receive 0 (partyRequest .partyCreate).serialize, .visit 0, .dispatch {}, .finish]

/-- The last party gets the id 0. So `ann` does not count as being in a party, and
`DeleteParty` returns 0 although it deletes the party. -/
theorem party_id_zero : ∃ t,
    Run (step parseRequests) anyStep (Sys.start 5) wrapAround t ∧
    ¬ Run (step parseRequests) KeepsIdsApart (Sys.start 5) wrapAround t ∧
    t.srv.partyManager.mapParties.lookup 0 = some (annsPartyWith 0) ∧
    t.srv.partyIds 0 = 0 ∧
    (t.srv.partyManager.deleteParty .entries 1 (ascii "p")).2 = 0 ∧
    (t.srv.partyManager.deleteParty .entries 1 (ascii "p")).1.mapParties = ∅ := by
  have hread : parseRequests (login "a").serialize = some (login "a") := by rfl
  obtain ⟨s₀, hlogin, halone₀⟩ := alone_annLogsIn hread
  obtain ⟨s, c, hcycles, halone, hc⟩ :=
    halone₀.createAndDelete_many (by decide) (2 ^ 32 - 100000) (by decide)
  obtain rfl : c = 0 := UInt32.toNat_inj.mp (hc.trans (by decide))
  obtain ⟨t, hcreate, hready, haccount, hparty, hmanager⟩ := halone.createP
  refine ⟨t, (hlogin.append hcycles).append hcreate, fun hkeeps => ?_, ?_, hparty, ?_, ?_⟩
  · obtain ⟨u, hbefore, hlast⟩ := Run.split hkeeps
    obtain rfl := hbefore.unique (hlogin.append hcycles)
    cases hlast with
    | cons _ hreceive hlast =>
      cases hlast with
      | cons _ hvisit hlast =>
        cases hlast with
        | cons hkeeps _ _ =>
          -- the state in which the last request is handled
          have hasked : Run (step parseRequests) anyStep u [.receive 0
              (partyRequest .partyCreate).serialize, .visit 0] _ :=
            Run.cons trivial hreceive (Run.cons trivial hvisit (Run.nil _))
          obtain rfl := hasked.unique (halone.ready.ask (by rfl))
          exact halone.not_keepsIdsApart hkeeps
  · rw [hmanager]
    exact AList.lookup_insert _
  · rw [hmanager]
    rfl
  · rw [hmanager]
    exact managerWith_erase 0

end BoostChat.Server
