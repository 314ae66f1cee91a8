import BoostChat.Server.Frames

/-!
# Party membership

Who is in a party is recorded twice: each session holds the id of its party, and each
party holds a list of account ids.

* `Consistent` — the two records agree: a user's account stands once in the list of the
  user's party and in no other list. Id 0 stands for "no party", so lists under it do
  not count;
* `Consistent.move` — a user changes party, when the lists change accordingly;
* `PartyEffect` — what handling a message does to both records, as an inversion of
  `OnMessage` (`onMessage_party`);
* `party_effect_consistent` — the effects keep the agreement, if a party is left by its
  own name and a new party gets a fresh id.
-/

namespace BoostChat.Server

open Lib

/-- The member list of the party with an id; empty when there is none. -/
def roster (m : PartyMap) (k : UInt32) : List UInt32 :=
  match m.lookup k with
  | some party => party.members
  | none => []

theorem lookup_insert_eq_some {m : PartyMap} {key k : UInt32} {party p : Party}
    (h : (m.insert key party).lookup k = some p) :
    (k = key ∧ p = party) ∨ (k ≠ key ∧ m.lookup k = some p) := by
  by_cases hk : k = key
  · rw [hk, AList.lookup_insert, Option.some.injEq] at h
    exact Or.inl ⟨hk, h.symm⟩
  · rw [AList.lookup_insert_ne hk] at h
    exact Or.inr ⟨hk, h⟩

theorem lookup_erase_eq_some {m : PartyMap} {key k : UInt32} {p : Party}
    (h : (m.erase key).lookup k = some p) : k ≠ key ∧ m.lookup k = some p := by
  by_cases hk : k = key
  · rw [hk, AList.lookup_erase] at h
    cases h
  · rw [AList.lookup_erase_ne hk] at h
    exact ⟨hk, h⟩

theorem roster_insert (m : PartyMap) (k k' : UInt32) (party : Party) :
    roster (m.insert k party) k' = if k' = k then party.members else roster m k' := by
  unfold roster
  by_cases h : k' = k
  · rw [if_pos h, h, AList.lookup_insert]
  · rw [if_neg h, AList.lookup_insert_ne h]

theorem roster_erase (m : PartyMap) (k k' : UInt32) :
    roster (m.erase k) k' = if k' = k then [] else roster m k' := by
  unfold roster
  by_cases h : k' = k
  · rw [if_pos h, h, AList.lookup_erase]
  · rw [if_neg h, AList.lookup_erase_ne h]

theorem roster_of_lookup {m : PartyMap} {k : UInt32} {party : Party}
    (h : m.lookup k = some party) : roster m k = party.members := by
  rw [roster, h]

theorem roster_join (pm : PartyManager) (party : Party) (i k : UInt32) :
    roster (pm.store (party.addMember i)).mapParties k =
      if k = party.partyId then party.members ++ [i] else roster pm.mapParties k :=
  roster_insert ..

theorem roster_leave (pm : PartyManager) (party : Party) (i k : UInt32) :
    roster (pm.store (party.removeMember i)).mapParties k =
      if k = party.partyId then party.members.filter (· != i) else roster pm.mapParties k :=
  roster_insert ..

/-- Parties stand under their own ids. -/
def Keyed (m : PartyMap) : Prop := ∀ k party, m.lookup k = some party → party.partyId = k

theorem Keyed.insert {m : PartyMap} (h : Keyed m) (party : Party) :
    Keyed (m.insert party.partyId party) := by
  intro k p hk
  rcases lookup_insert_eq_some hk with ⟨rfl, rfl⟩ | ⟨-, hk⟩
  · rfl
  · exact h k p hk

theorem Keyed.erase {m : PartyMap} (h : Keyed m) (key : UInt32) : Keyed (m.erase key) :=
  fun k p hk => h k p (lookup_erase_eq_some hk).2

/-- The two records of membership agree, for users with accounts `id` and party ids
`partyId`. -/
structure Consistent (m : PartyMap) (users : List SessionRef) (id partyId : SessionRef → UInt32) :
    Prop where
  keyed : Keyed m
  count : ∀ u ∈ users, ∀ k ≠ 0, (roster m k).count (id u) = if partyId u = k then 1 else 0

section Consistent

variable {m m' : PartyMap} {users users' : List SessionRef} {id id' partyId : SessionRef → UInt32}

/-- The agreement is about the users only. -/
theorem Consistent.congr {partyId' : SessionRef → UInt32} (h : Consistent m users id partyId)
    (husers : users' ⊆ users) (hid : ∀ u ∈ users', id' u = id u)
    (hparty : ∀ u ∈ users', partyId' u = partyId u) : Consistent m users' id' partyId' where
  keyed := h.keyed
  count u hu k hk := by
    rw [hid u hu, hparty u hu]
    exact h.count u (husers hu) k hk

/-- **Moving to another party.** The lists stay as they are for all other users, and for
the account of `w` they say the new party. -/
theorem Consistent.move {w : SessionRef} {k' : UInt32} (h : Consistent m users id partyId)
    (hkeyed : Keyed m') (hdistinct : ∀ u ∈ users, id u = id w → u = w)
    (hothers : ∀ i ≠ id w, ∀ k, (roster m' k).count i = (roster m k).count i)
    (hself : w ∈ users → ∀ k ≠ 0, (roster m' k).count (id w) = if k' = k then 1 else 0) :
    Consistent m' users id (Function.update partyId w k') where
  keyed := hkeyed
  count u hu k hk := by
    by_cases heq : u = w
    · subst heq
      rw [Function.update_self]
      exact hself hu k hk
    · rw [Function.update_of_ne heq, hothers (id u) fun hid => heq (hdistinct u hu hid)]
      exact h.count u hu k hk

/-- Deleting a party takes its id from every user. -/
theorem Consistent.erase {k' : UInt32} (h : Consistent m users id partyId) :
    Consistent (m.erase k') users id fun u =>
      if u ∈ users ∧ partyId u = k' then 0 else partyId u where
  keyed := h.keyed.erase k'
  count u hu k hk := by
    have hcount := h.count u hu k hk
    rw [roster_erase]
    by_cases hparty : partyId u = k'
    · -- the user loses the party
      simp only [hu, hparty, and_self, if_true, if_neg hk.symm]
      by_cases hkey : k = k'
      · rw [if_pos hkey, List.count_nil]
      · rw [if_neg hkey, hcount, hparty, if_neg (Ne.symm hkey)]
    · simp only [hparty, and_false, if_false]
      by_cases hkey : k = k'
      · rw [if_pos hkey, List.count_nil, hkey, if_neg hparty]
      · rw [if_neg hkey, hcount]

end Consistent

/-! ## What a message does to the two records -/

namespace TcpServer

variable {o : Oracle} {s s' : TcpServer} {user : SessionRef} {msg : ChatMessage}

@[simp] theorem setPartyId_partyIds (s : TcpServer) (user : SessionRef) (partyId : UInt32) :
    (s.setPartyId user partyId).partyIds = Function.update s.partyIds user partyId := by
  funext u
  by_cases hu : u = user
  · subst hu
    simp [partyIds, setPartyId, UserSession.setPartyId]
  · rw [Function.update_of_ne hu, partyIds, setPartyId, setSession_sessions_of_ne _ _ hu, partyIds]

theorem resetPartyIds_partyIds (s : TcpServer) (partyId : UInt32) (u : SessionRef) :
    (s.resetPartyIds partyId).partyIds u =
      if u ∈ s.users ∧ s.partyIds u = partyId then 0 else s.partyIds u :=
  apply_ite UserSession.partyId _ _ _

/-- What handling a message does to the parties and to the party ids of the sessions. -/
inductive PartyEffect (o : Oracle) (s : TcpServer) (user : SessionRef) (msg : ChatMessage)
    (s' : TcpServer) : Prop
  | same (hparties : s'.partyManager = s.partyManager) (hids : s'.partyIds = s.partyIds)
  | created (hcreates : Creates o s user msg) {party : Party}
      (hid : party.partyId = s.partyManager.partyIdCounter)
      (hmembers : party.members = [(s.sessions user).id])
      (hparties : s'.partyManager.mapParties =
        s.partyManager.mapParties.insert party.partyId party)
      (hids : s'.partyIds = Function.update s.partyIds user party.partyId)
  | joined {party : Party} (hout : s.partyIds user = 0) {key : UInt32}
      (hfound : s.partyManager.mapParties.lookup key = some party)
      (hparties : s'.partyManager = s.partyManager.store (party.addMember (s.sessions user).id))
      (hids : s'.partyIds = Function.update s.partyIds user party.partyId)
  | deleted {key : UInt32} (hparties : s'.partyManager.mapParties =
        s.partyManager.mapParties.erase key)
      (hids : s'.partyIds = fun u => if u ∈ s.users ∧ s.partyIds u = key then 0 else s.partyIds u)
  | left {party : Party} (hleaves : Leaves o s user msg party)
      (hparties : s'.partyManager = s.partyManager.store (party.removeMember (s.sessions user).id))
      (hids : s'.partyIds = Function.update s.partyIds user 0)

/-- **Requests about parties.** -/
theorem RequestOutcome.party (h : RequestOutcome o s user msg s') :
    PartyEffect o s user msg s' := by
  cases h with
  | refused _ text => exact .same rfl rfl
  | created hcreates => exact .created hcreates rfl rfl rfl (setPartyId_partyIds _ _ _)
  | joined _ hout hfound =>
    obtain ⟨-, key, hlookup⟩ := PartyManager.findPartyByName_mem hfound
    exact .joined hout hlookup rfl (setPartyId_partyIds _ _ _)
  | deleted _ hfound _ _ =>
    refine .deleted rfl ?_
    funext u
    exact resetPartyIds_partyIds _ _ _
  | deletedZero _ _ _ hid =>
    -- nobody points to it: the id is that of being in no party
    refine .deleted rfl ?_
    funext u
    split
    · rename_i hu
      exact hu.2.trans hid
    · rfl
  | left hleaves => exact .left hleaves rfl (setPartyId_partyIds _ _ _)

/-- All other messages leave both records alone. -/
theorem onMessage_other (h : s.onMessage o user msg = .ok s')
    (hother : IsPartyRequest msg.messageType = false) :
    s'.partyManager = s.partyManager ∧ s'.partyIds = s.partyIds := by
  cases onMessage_handled h with
  | sent | relayed | befriended => exact ⟨rfl, rfl⟩
  | request hrequest =>
    rw [hother] at hrequest
    cases hrequest

/-- **Inversion.** What a message does to the parties and party ids. -/
theorem onMessage_party (h : s.onMessage o user msg = .ok s') : PartyEffect o s user msg s' := by
  cases onMessage_handled h with
  | sent | relayed | befriended => exact .same rfl rfl
  | request _ houtcome => exact houtcome.party

/-! ## The records stay in agreement -/

/-- **A message keeps the agreement.** Needed are: the account of the session is no other
user's, a new party gets an id that is not taken, and a party that is left is the one
the session is in. -/
theorem party_effect_consistent (heffect : PartyEffect o s user msg s')
    (h : Consistent s.partyManager.mapParties s.users (fun u => (s.sessions u).id) s.partyIds)
    (hdistinct : ∀ u ∈ s.users, (s.sessions u).id = (s.sessions user).id → u = user)
    (hcreate : Creates o s user msg →
      s.partyManager.partyIdCounter ∉ s.partyManager.mapParties)
    (hleave : ∀ party, Leaves o s user msg party → party.partyId = s.partyIds user) :
    Consistent s'.partyManager.mapParties s.users (fun u => (s.sessions u).id) s'.partyIds := by
  cases heffect with
  | same hparties hids =>
    rw [hparties, hids]
    exact h
  | @created hcreates party hid hmembers hparties hids =>
    have hfree : s.partyManager.mapParties.lookup party.partyId = none := by
      rw [hid]
      exact AList.lookup_eq_none.mpr (hcreate hcreates)
    have hempty : roster s.partyManager.mapParties party.partyId = [] := by rw [roster, hfree]
    rw [hparties, hids]
    -- the new list has the creator alone, and there was none under its id
    refine h.move (h.keyed.insert party) hdistinct (fun i hi k => ?_) fun huser k hk => ?_
    · rw [roster_insert]
      split
      · rename_i hkey
        rw [hmembers, hkey, hempty, List.count_singleton, if_neg (by simpa using Ne.symm hi),
          List.count_nil]
      · rfl
    · rw [roster_insert]
      by_cases hkey : k = party.partyId
      · rw [if_pos hkey, if_pos hkey.symm, hmembers]
        simp
      · rw [if_neg hkey, if_neg (Ne.symm hkey), h.count user huser k hk, hcreates.2.2.1,
          if_neg hk.symm]
  | @joined party hout key hfound hparties hids =>
    have hkey := h.keyed key party hfound
    subst hkey
    have hroster := roster_of_lookup hfound
    rw [hparties, hids]
    refine h.move (h.keyed.insert _) hdistinct (fun i hi k => ?_) fun huser k hk => ?_
    · rw [roster_join]
      split
      · rename_i hkey
        rw [hkey, hroster, List.count_append, List.count_singleton,
          if_neg (by simpa using Ne.symm hi), Nat.add_zero]
      · rfl
    · -- the user was in no party, so no list has the account
      have hcount := h.count user huser k hk
      rw [hout, if_neg hk.symm] at hcount
      rw [roster_join]
      by_cases hkey : k = party.partyId
      · rw [hkey, hroster] at hcount
        rw [if_pos hkey, if_pos hkey.symm, List.count_append, hcount, List.count_singleton_self]
      · rw [if_neg hkey, if_neg (Ne.symm hkey), hcount]
  | deleted hparties hids =>
    rw [hparties, hids]
    exact h.erase
  | @left party hleaves hparties hids =>
    obtain ⟨-, key, hfound⟩ := PartyManager.findPartyByName_mem hleaves.2.2.2.1
    have hkey := h.keyed key party hfound
    subst hkey
    have hroster := roster_of_lookup hfound
    rw [hparties, hids]
    refine h.move (h.keyed.insert _) hdistinct (fun i hi k => ?_) fun huser k hk => ?_
    · rw [roster_leave]
      split
      · rename_i hkey
        rw [hkey, hroster, List.count_filter (by simpa using hi)]
      · rfl
    · rw [if_neg hk.symm, roster_leave]
      by_cases hkey : k = party.partyId
      · rw [if_pos hkey]
        exact List.count_eq_zero.mpr (by simp)
      · -- the user was in the party it leaves, hence in no other list
        rw [if_neg hkey, h.count user huser k hk, ← hleave party hleaves, if_neg (Ne.symm hkey)]

end TcpServer

end BoostChat.Server
