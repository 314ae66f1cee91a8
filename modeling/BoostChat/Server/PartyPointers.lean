import BoostChat.Server.PartyDelivery
import BoostChat.Server.PartyLifetime

/-!
# What the party id of a session is worth

A session holds the id of its party, and the party lists the accounts of its members.

* `Points` — whoever has a party id is in the list of that party. It holds after every
  run in which fewer than `2^32 - 100000` parties are created (`party_pointer_honest`);
* `Agrees` — and whoever is in a list has that party id. Connections that come and go
  keep it exactly when no list has an account that logs in
  (`connections_keep_agreement`): nobody takes an account out of its party when its
  session leaves, and its next session starts without a party.
-/

namespace BoostChat.Server

open Lib

variable {parse : Bytes → Option ChatMessage} {s t : Sys} {a : Action}

/-! ## No dangling party ids -/

/-- Every user that has a party id is in the list of that party. -/
def Points (m : PartyMap) (users : List SessionRef) (id partyId : SessionRef → UInt32) : Prop :=
  ∀ u ∈ users, partyId u ≠ 0 → id u ∈ roster m (partyId u)

/-- Being in a list means that there is a party. -/
theorem mem_roster_iff {m : PartyMap} {k i : UInt32} :
    i ∈ roster m k ↔ ∃ party, m.lookup k = some party ∧ i ∈ party.members := by
  unfold roster
  cases m.lookup k with
  | none => simp
  | some party => simp

/-- **A message keeps the party ids honest.** Needed are: the account of the session is no
other user's, and a new party gets an id that is not taken. -/
theorem points_effect {o : Oracle} {srv srv' : TcpServer} {user : SessionRef} {msg : ChatMessage}
    (heffect : TcpServer.PartyEffect o srv user msg srv')
    (h : Points srv.partyManager.mapParties srv.users (fun u => (srv.sessions u).id) srv.partyIds)
    (hkeyed : Keyed srv.partyManager.mapParties)
    (hfresh : srv.partyManager.mapParties.lookup srv.partyManager.partyIdCounter = none)
    (hdistinct : ∀ u ∈ srv.users, (srv.sessions u).id = (srv.sessions user).id → u = user) :
    Points srv'.partyManager.mapParties srv.users (fun u => (srv.sessions u).id) srv'.partyIds := by
  intro u hu hparty
  have hold := h u hu
  cases heffect with
  | same hparties hids =>
    rw [hids] at hparty ⊢
    rw [hparties]
    exact hold hparty
  | @created _ party hid hmembers hparties hids =>
    rw [hparties, roster_insert]
    by_cases heq : u = user
    · rw [hids, heq, Function.update_self, if_pos rfl, hmembers]
      exact List.mem_singleton.mpr rfl
    · -- no user is in the party that did not exist
      rw [hids, Function.update_of_ne heq] at hparty ⊢
      have hmem := hold hparty
      split
      · rename_i hkey
        rw [hkey, hid, roster, hfresh] at hmem
        exact absurd hmem List.not_mem_nil
      · exact hmem
  | @joined party _ key hfound hparties hids =>
    have hkey := hkeyed key party hfound
    subst hkey
    rw [hparties, roster_join]
    by_cases heq : u = user
    · rw [hids, heq, Function.update_self, if_pos rfl]
      exact List.mem_append_right _ (List.mem_singleton.mpr rfl)
    · rw [hids, Function.update_of_ne heq] at hparty ⊢
      have hmem := hold hparty
      split
      · rename_i hkey
        rw [hkey, roster_of_lookup hfound] at hmem
        exact List.mem_append_left _ hmem
      · exact hmem
  | @deleted key hparties hids =>
    have hids' : srv'.partyIds u = if srv.partyIds u = key then 0 else srv.partyIds u := by
      rw [hids]
      simp only [hu, true_and]
    rw [hparties, roster_erase]
    rw [hids'] at hparty ⊢
    by_cases hkey : srv.partyIds u = key
    · exact absurd (if_pos hkey) hparty
    · rw [if_neg hkey] at hparty ⊢
      rw [if_neg hkey]
      exact hold hparty
  | @left party hleaves hparties hids =>
    obtain ⟨-, key, hfound⟩ := PartyManager.findPartyByName_mem hleaves.2.2.2.1
    have hkey := hkeyed key party hfound
    subst hkey
    rw [hparties, roster_leave]
    by_cases heq : u = user
    · rw [hids, heq, Function.update_self] at hparty
      exact absurd rfl hparty
    · -- only the account that leaves is removed, and it is not that of `u`
      rw [hids, Function.update_of_ne heq] at hparty ⊢
      have hmem := hold hparty
      split
      · rename_i hkey
        rw [hkey, roster_of_lookup hfound] at hmem
        have hne : (srv.sessions u).id ≠ (srv.sessions user).id := fun hid =>
          heq (hdistinct u hu hid)
        exact List.mem_filter.mpr ⟨hmem, by simpa using hne⟩
      · exact hmem

/-- The users of the server, as `Points` sees them. -/
def Sys.Honest (s : Sys) : Prop :=
  Points s.srv.partyManager.mapParties s.srv.users (fun u => (s.srv.sessions u).id) s.srv.partyIds

/-- **Step lemma.** -/
theorem honest_step {n : Nat} (hadm : Admission s) (hid : Identified s)
    (hsessions : PartySessions s) (hinv : PartiesInv n s) (h : s.Honest)
    (heffect : Effect parse s a t) : t.Honest := by
  by_cases hdispatch : ∃ o, a = .dispatch o
  · obtain ⟨o, rfl⟩ := hdispatch
    have hids := fun u hu => step_id hadm heffect (u := u) hu
    cases heffect with
    | @dispatch _ user msg input output srv hcurrent hpending hmessage =>
      have husers : srv.users ⊆ s.srv.users :=
        (TcpServer.onMessage_frame hmessage).users_sublist.subset
      obtain ⟨hparty, hid'⟩ := setSession_withQueues_partyIds s.srv user input output
      -- the message came off a queue: no queue has a part in the parties
      have hpoints := points_effect (TcpServer.onMessage_party hmessage)
      simp only [hid', hparty, TcpServer.setSession_users] at hpoints
      intro u hu hne
      show (srv.sessions u).id ∈ roster srv.partyManager.mapParties (srv.partyIds u)
      have hsame : (srv.sessions u).id = (s.srv.sessions u).id := hids u (husers hu)
      rw [hsame]
      exact hpoints h hinv.named.keyed hinv.issued.fresh
        (fun u hu => hsessions.alone hadm hcurrent hu) u (husers hu) hne
  · have hno : ∀ o, a ≠ .dispatch o := fun o ho => hdispatch ⟨o, ho⟩
    intro u hu hne
    rcases step_user hadm hid hsessions heffect hno hu with
      ⟨hold, hid', hparty⟩ | ⟨_, _, -, -, -, -, hparty⟩
    · rw [hparty] at hne ⊢
      show (t.srv.sessions u).id ∈ roster t.srv.partyManager.mapParties (s.srv.partyIds u)
      rw [hid', (step_partyIds heffect hno).1]
      exact h u hold hne
    · exact absurd hparty hne

/-- **No dangling party id.** While fewer than `2^32 - 100000` parties are created, the
party id of a user is 0 or that of a party that lists the user's account. -/
theorem party_pointer_honest {maxUser : UInt32} {as : List Action}
    (hrun : Run (step parse) anyStep (Sys.start maxUser) as s)
    (hcreated : stepCount (step parse) createsParty (Sys.start maxUser) as < 2 ^ 32 - 100000)
    {user : SessionRef} (huser : user ∈ s.srv.users) (hparty : s.srv.partyIds user ≠ 0) :
    ∃ party, s.srv.partyManager.mapParties.lookup (s.srv.partyIds user) = some party ∧
      (s.srv.sessions user).id ∈ party.members := by
  have hstep : ∀ n s a t, n + (createsParty s a).toNat ≤ 2 ^ 32 - 100000 - 1 →
      (Admission s ∧ Identified s ∧ PartySessions s ∧ PartiesInv n s ∧ s.Honest) → anyStep s a →
      step parse s a = some t →
      Admission t ∧ Identified t ∧ PartySessions t ∧
        PartiesInv (n + (createsParty s a).toNat) t ∧ t.Honest := by
    rintro n s a t hbound ⟨hadm, hid, hsessions, hinv, h⟩ - hstep
    have heffect := step_effect hstep
    exact ⟨admission_step hadm heffect, identified_step hadm hid heffect,
      partySessions_step hadm hid hsessions heffect, hinv.step (by omega) heffect,
      honest_step hadm hid hsessions hinv h heffect⟩
  have hstart : Admission (Sys.start maxUser) ∧ Identified (Sys.start maxUser) ∧
      PartySessions (Sys.start maxUser) ∧ PartiesInv 0 (Sys.start maxUser) ∧
      (Sys.start maxUser).Honest :=
    ⟨.start maxUser, .start maxUser, .start maxUser, .start maxUser,
      fun _ h => absurd h List.not_mem_nil⟩
  obtain ⟨-, -, -, -, h⟩ := Run.counted hstep hrun
    (by rw [Nat.zero_add]; exact Nat.le_sub_one_of_lt hcreated) hstart
  exact mem_roster_iff.mp (h user huser hparty)

/-- Both users of the party "p" are in its list. -/
theorem party_pointer_honest_partyOfTwo : ∃ s : Sys, s.srv.users = [0, 1] ∧
    ∃ party, s.srv.partyManager.mapParties.lookup (s.srv.partyIds 1) = some party ∧
      (s.srv.sessions 1).id ∈ party.members := by
  obtain ⟨s, hrun, hs⟩ := exists_run_of_exec (step parseParty) anyStep (Sys.start 5) partyOfTwo
    (fun s => decide (s.srv.users = [0, 1] ∧ s.srv.partyIds 1 ≠ 0)) (by decide)
  obtain ⟨husers, hparty⟩ := of_decide_eq_true hs
  have hcreated : stepCount (step parseParty) createsParty (Sys.start 5) partyOfTwo = 1 := by
    decide
  exact ⟨s, husers, party_pointer_honest hrun (by omega) (by simp [husers]) hparty⟩

/-! ## Connections that come and go -/

/-- Every user is in the list of its party, once, and in no other list. -/
structure Agrees (srv : TcpServer) : Prop where
  listed : ∀ u ∈ srv.users, ∀ p,
    (srv.sessions u).id ∈ roster srv.partyManager.mapParties p ↔ srv.partyIds u = p ∧ p ≠ 0
  once : ∀ u ∈ srv.users, ∀ p,
    (roster srv.partyManager.mapParties p).count (srv.sessions u).id ≤ 1

/-- The steps of the connections: everything but requests about parties. -/
def LifeCycle (s : Sys) : Action → Prop
  | .dispatch _ => ∀ user ∈ s.current, ∀ msg ∈ (s.srv.sessions user).pending.head?,
      TcpServer.IsPartyRequest msg.messageType = false
  | _ => True

/-- No party lists an account that logs in. -/
def NewcomerUnlisted (s : Sys) : Action → Prop
  | .examine env => ∀ l ∈ s.srv.nextLogin env, ∀ p, l.id ∉ roster s.srv.partyManager.mapParties p
  | _ => True

instance (s : Sys) : (a : Action) → Decidable (LifeCycle s a)
  | .dispatch _ => inferInstanceAs (Decidable (∀ user ∈ s.current, _))
  | .accept | .receive _ _ | .disconnect _ | .sweep | .examine _ | .visit _ | .finish =>
    isTrue trivial

/-- The lists that `Consistent` speaks of are all but the one under the id 0. -/
theorem Consistent.agrees {srv : TcpServer} (h : Consistent srv.partyManager.mapParties srv.users
      (fun u => (srv.sessions u).id) srv.partyIds)
    (hzero : srv.partyManager.mapParties.lookup 0 = none) : Agrees srv := by
  have hcount : ∀ u ∈ srv.users, ∀ p,
      (roster srv.partyManager.mapParties p).count (srv.sessions u).id =
        if srv.partyIds u = p ∧ p ≠ 0 then 1 else 0 := by
    intro u hu p
    by_cases hp : p = 0
    · rw [hp, roster, hzero, if_neg (fun h => h.2 rfl), List.count_nil]
    · rw [h.count u hu p hp]
      simp only [hp, ne_eq, not_false_eq_true, and_true]
  refine ⟨fun u hu p => ?_, fun u hu p => ?_⟩
  · rw [← List.count_pos_iff, hcount u hu p]
    split <;> simp_all
  · rw [hcount u hu p]
    split <;> decide

/-- Whoever logs in becomes a user. -/
theorem newcomer_user {env : Env} {l : Login} (hlogin : s.srv.nextLogin env = some l)
    (heffect : Effect parse s (.examine env) t) : l.session ∈ t.srv.users := by
  obtain ⟨⟨rest, hnew⟩, hloginOf⟩ := TcpServer.nextLogin_eq_some hlogin
  cases heffect with
  | rejected _ _ hnew' hnone =>
    obtain ⟨rfl, -⟩ := List.cons.inj (hnew.symm.trans hnew')
    rw [hnone] at hloginOf
    cases hloginOf
  | admitted _ _ hnew' =>
    obtain ⟨rfl, -⟩ := List.cons.inj (hnew.symm.trans hnew')
    rw [TcpServer.admitUser_users]
    exact List.mem_append_right _ (List.mem_singleton.mpr rfl)

/-- Agreement of users that are as they were. -/
theorem Agrees.congr {srv srv' : TcpServer} (h : Agrees srv)
    (hparties : srv'.partyManager = srv.partyManager) (husers : srv'.users ⊆ srv.users)
    (hid : ∀ u ∈ srv'.users, (srv'.sessions u).id = (srv.sessions u).id)
    (hparty : ∀ u ∈ srv'.users, srv'.partyIds u = srv.partyIds u) : Agrees srv' where
  listed u hu p := by
    rw [hparties, hid u hu, hparty u hu]
    exact h.listed u (husers hu) p
  once u hu p := by
    rw [hparties, hid u hu]
    exact h.once u (husers hu) p

/-- **Step lemma.** A step of the connections keeps the agreement exactly when it is no
login of an account that a party lists. -/
theorem agrees_step (hadm : Admission s) (hid : Identified s) (hsessions : PartySessions s)
    (h : Agrees s.srv) (hlife : LifeCycle s a) (heffect : Effect parse s a t) :
    Agrees t.srv ↔ NewcomerUnlisted s a := by
  by_cases hdispatch : ∃ o, a = .dispatch o
  · obtain ⟨o, rfl⟩ := hdispatch
    refine ⟨fun _ => trivial, fun _ => ?_⟩
    have hids := fun u hu => step_id hadm heffect (u := u) hu
    cases heffect with
    | @dispatch _ user msg input output srv hcurrent hpending hmessage =>
      have husers : srv.users ⊆ s.srv.users :=
        (TcpServer.onMessage_frame hmessage).users_sublist.subset
      obtain ⟨hparties, hparty⟩ :=
        TcpServer.onMessage_other hmessage (hlife user hcurrent msg (by rw [hpending]; rfl))
      rw [(setSession_withQueues_partyIds s.srv user input output).1] at hparty
      exact h.congr hparties husers (fun u hu => hids u (husers hu)) fun u _ => congrFun hparty u
  have hno : ∀ o, a ≠ .dispatch o := fun o ho => hdispatch ⟨o, ho⟩
  have hparties := (step_partyIds heffect hno).1
  constructor
  · intro ht
    cases a with
    | examine env =>
      intro l hl p hmem
      have huser := newcomer_user hl heffect
      rcases step_user hadm hid hsessions heffect hno huser with
        ⟨hold, -⟩ | ⟨env', l', hexamine, hl', -, hlid, hparty⟩
      · obtain ⟨⟨rest, hnew⟩, -⟩ := TcpServer.nextLogin_eq_some hl
        exact hadm.not_user (by simp [hnew]) hold
      · obtain rfl := Action.examine.inj hexamine
        obtain rfl := Option.some.inj (hl'.symm.trans hl)
        -- the newcomer is in no party, so it should be in no list
        rw [← hlid, ← hparties] at hmem
        obtain ⟨hzero, hne⟩ := (ht.listed l'.session huser p).mp hmem
        exact hne (hzero.symm.trans hparty)
    | _ => trivial
  · intro hunlisted
    refine ⟨fun u hu p => ?_, fun u hu p => ?_⟩ <;> rw [hparties] <;>
      rcases step_user hadm hid hsessions heffect hno hu with
        ⟨hold, hid', hparty⟩ | ⟨env, l, rfl, hl, -, hlid, hparty⟩
    · rw [hid', hparty]
      exact h.listed u hold p
    · rw [hlid, hparty]
      refine ⟨fun hmem => absurd hmem (hunlisted l hl p), fun ⟨hzero, hne⟩ => ?_⟩
      exact absurd hzero.symm hne
    · rw [hid']
      exact h.once u hold p
    · rw [hlid, List.count_eq_zero.mpr (hunlisted l hl p)]
      exact Nat.zero_le _

/-- **Connections and agreement.** Let users and parties agree in a state that the server
reaches, and let only connections come and go from there. Then they agree in all states
that follow if and only if no party lists an account at the time it logs in. -/
theorem connections_keep_agreement {maxUser : UInt32} {as bs : List Action}
    (hreach : Run (step parse) anyStep (Sys.start maxUser) as s) (hagrees : Agrees s.srv)
    (hrun : Run (step parse) LifeCycle s bs t) :
    (∀ pre suf u, bs = pre ++ suf → Run (step parse) LifeCycle s pre u → Agrees u.srv) ↔
      Run (step parse) (fun s a => LifeCycle s a ∧ NewcomerUnlisted s a) s bs t := by
  obtain ⟨hadm, hid⟩ := identified_of_run hreach
  refine Run.always_iff (I := fun s => Agrees s.srv)
    (J := fun s => Admission s ∧ Identified s ∧ PartySessions s) ?_ hrun
    ⟨hadm, hid, partySessions_of_run hreach⟩ hagrees
  rintro s a t ⟨hadm, hid, hsessions⟩ h hlife hstep
  have heffect := step_effect hstep
  exact ⟨⟨admission_step hadm heffect, identified_step hadm hid heffect,
    partySessions_step hadm hid hsessions heffect⟩,
    agrees_step hadm hid hsessions h hlife heffect⟩

theorem partyOfTwo_agrees : ∃ s : Sys,
    Run (step parseParty) anyStep (Sys.start 5) partyOfTwo s ∧ Agrees s.srv := by
  obtain ⟨s, hrun, hs⟩ := exists_run_of_exec (step parseParty) PartiesKept (Sys.start 5) partyOfTwo
    (fun s => decide (s.srv.partyManager.mapParties.lookup 0 = none)) (by decide)
  obtain ⟨-, -, hrecords⟩ := invariant_of_run (P := PartyRecords) (.start 5)
    (fun _ _ _ hadm hid h hok heffect => records_step hadm hid h hok heffect) hrun
  exact ⟨s, hrun.weaken fun _ _ _ => trivial, hrecords.consistent.agrees (of_decide_eq_true hs)⟩

/-- `bob` disconnects, and nobody logs in. -/
theorem connections_keep_agreement_bobLeaves : ∃ s t : Sys, Agrees s.srv ∧
    Run (step parseParty) LifeCycle s [.disconnect 1, .sweep] t ∧
      ((∀ pre suf u, [.disconnect 1, .sweep] = pre ++ suf →
          Run (step parseParty) LifeCycle s pre u → Agrees u.srv) ↔
        Run (step parseParty) (fun s a => LifeCycle s a ∧ NewcomerUnlisted s a) s
          [.disconnect 1, .sweep] t) := by
  obtain ⟨s, hrun, hagrees⟩ := partyOfTwo_agrees
  obtain ⟨t, hall, -⟩ := exists_run_of_exec (step parseParty) anyStep (Sys.start 5)
    (partyOfTwo ++ [.disconnect 1, .sweep]) (fun _ => true) (by decide)
  obtain ⟨s', hfirst, hrest⟩ := hall.split
  obtain rfl := hrun.unique hfirst
  have hlife : Run (step parseParty) LifeCycle s _ t := hrest.restrict (by simp [LifeCycle])
  exact ⟨s, t, hagrees, hlife, connections_keep_agreement hrun hagrees hlife⟩

def bobAgain : List Action :=
  [.accept, .receive 2 (login "b").serialize, .sweep, .examine annAndBob]

/-- When `bob` logs in again, the party lists him and he has no party. -/
theorem bobAgain_disagrees : ∃ s t : Sys,
    Run (step parseParty) anyStep (Sys.start 5) partyOfTwo s ∧ Agrees s.srv ∧
      Run (step parseParty) LifeCycle s bobAgain t ∧ ¬ Agrees t.srv := by
  obtain ⟨s, hrun, hagrees⟩ := partyOfTwo_agrees
  obtain ⟨t, hall, ht⟩ := exists_run_of_exec (step parseParty) anyStep (Sys.start 5)
    (partyOfTwo ++ bobAgain)
    (fun t => decide (2 ∈ t.srv.users ∧ t.srv.partyIds 2 = 0 ∧
      (t.srv.sessions 2).id ∈ roster t.srv.partyManager.mapParties 100000)) (by decide)
  obtain ⟨huser, hparty, hlisted⟩ := of_decide_eq_true ht
  obtain ⟨s', hfirst, hrest⟩ := hall.split
  obtain rfl := hrun.unique hfirst
  refine ⟨s, t, hrun, hagrees, hrest.restrict (by simp [bobAgain, LifeCycle]), fun h => ?_⟩
  have hpoints := (h.listed 2 huser 100000).mp hlisted
  rw [hparty] at hpoints
  exact absurd hpoints.1 (by decide)

end BoostChat.Server
