import Mathlib.Data.Finset.Card
import Mathlib.Data.List.Nodup
import Mathlib.Data.List.Pairwise

/-!
# Seats with owners

A row of seats, each taken by an item, and items that come in one after the other. A
newcomer takes the seat of the first item of the same owner; if there is none, it takes a
new seat. Newcomers come in while fewer than `capacity` seats are taken.

* `seat`, `displaced` — what one newcomer does, and whom it displaces;
* `seated` — the newcomers that come in; `seated_eq_take` says how many there are without
  following the seats;
* `mem_seatAll_iff` — when owners have one seat each, it ends with their last item;
* `all_live_iff` — when only live items are seated in the end, and nobody live has been
  displaced by an item that is not.
-/

namespace BoostChat.Lib

variable {α κ : Type*}

section Seats

variable [DecidableEq κ] (owner : α → κ)

/-- The item whose seat a newcomer takes. -/
def displaced (seats : List α) (a : α) : Option α := seats.find? fun b => owner b = owner a

/-- The seats after a newcomer has come in. -/
def seat (seats : List α) (a : α) : List α := seats.eraseP (fun b => owner b = owner a) ++ [a]

def seatAll (seats as : List α) : List α := as.foldl (seat owner) seats

/-- Who is displaced, and by whom. -/
def displacements : List α → List α → List (α × α)
  | _, [] => []
  | seats, a :: as =>
    ((displaced owner seats a).map (·, a)).toList ++ displacements (seat owner seats a) as

/-- The newcomers that come in while fewer than `capacity` seats are taken. -/
def seated (capacity : Nat) : List α → List α → List α
  | _, [] => []
  | seats, a :: as =>
    if seats.length < capacity then a :: seated capacity (seat owner seats a) as else []

def owners (as : List α) : Finset κ := (as.map owner).toFinset

/-- The number of seats after the newcomers: one more for each owner that has none. -/
def occupied (seats as : List α) : Nat := seats.length + (owners owner as \ owners owner seats).card

/-- The last item of an owner. -/
def lastOf (as : List α) (k : κ) : Option α := (as.filter fun a => owner a = k).getLast?

variable {owner} {seats as : List α} {a b : α} {capacity : Nat}

/-! ## One newcomer -/

/-- A newcomer whose owner has no seat is put behind the others; any other one takes the
place of the first item of its owner, and is put behind the others too. -/
theorem seat_cases (owner : α → κ) (seats : List α) (a : α) :
    (displaced owner seats a = none ∧ (∀ b ∈ seats, owner b ≠ owner a) ∧
      seat owner seats a = seats ++ [a]) ∨
    ∃ old left right, displaced owner seats a = some old ∧ owner old = owner a ∧
      seats = left ++ old :: right ∧ (∀ b ∈ left, owner b ≠ owner a) ∧
      seat owner seats a = left ++ right ++ [a] := by
  cases hfind : displaced owner seats a with
  | none =>
    have hnone : ∀ b ∈ seats, owner b ≠ owner a := by
      simpa [displaced, List.find?_eq_none] using hfind
    refine Or.inl ⟨rfl, hnone, ?_⟩
    rw [seat, List.eraseP_of_forall_not fun b hb => by simpa using hnone b hb]
  | some old =>
    obtain ⟨hold, left, right, rfl, hleft⟩ := List.find?_eq_some_iff_append.mp hfind
    rw [decide_eq_true_eq] at hold
    have hnone : ∀ b ∈ left, owner b ≠ owner a := fun b hb => by simpa using hleft b hb
    refine Or.inr ⟨old, left, right, rfl, hold, rfl, hnone, ?_⟩
    rw [seat, List.eraseP_append_right _ fun b hb => by simpa using hnone b hb,
      List.eraseP_cons_of_pos (by simpa using hold)]

theorem mem_owners {k : κ} : k ∈ owners owner as ↔ ∃ b ∈ as, owner b = k := by
  rw [owners, List.mem_toFinset, List.mem_map]

theorem owners_cons : owners owner (a :: as) = insert (owner a) (owners owner as) := by
  rw [owners, List.map_cons, List.toFinset_cons, owners]

theorem owners_seat :
    owners owner (seat owner seats a) = insert (owner a) (owners owner seats) := by
  rcases seat_cases owner seats a with ⟨-, -, hseat⟩ | ⟨old, left, right, -, hold, rfl, -, hseat⟩
  · rw [hseat]
    ext k
    simp [owners]
  · rw [hseat]
    ext k
    simp [owners, hold]

/-- An owner that has a seat takes no other one. -/
theorem length_seat : (seat owner seats a).length =
    if owner a ∈ owners owner seats then seats.length else seats.length + 1 := by
  rcases seat_cases owner seats a with ⟨-, hnone, hseat⟩ |
    ⟨old, left, right, -, hold, rfl, -, hseat⟩
  · have hout : owner a ∉ owners owner seats := by
      rw [mem_owners]
      rintro ⟨b, hb, howner⟩
      exact hnone b hb howner
    rw [hseat, if_neg hout, List.length_append, List.length_singleton]
  · rw [hseat, if_pos (mem_owners.mpr ⟨old, by simp, hold⟩)]
    simp only [List.length_append, List.length_cons, List.length_nil]
    omega

/-- Places are conserved: taking `k` out of the owners still to come and putting it among
those that are there changes the number of places by the place it takes. -/
theorem places_insert {n : Nat} {k : κ} {new old : Finset κ} :
    (if k ∈ old then n else n + 1) + (new \ insert k old).card = n + (insert k new \ old).card := by
  by_cases hk : k ∈ old
  · -- no place is taken, and none was counted
    rw [if_pos hk, Finset.insert_eq_of_mem hk, Finset.insert_sdiff_of_mem _ hk]
  · have hsplit : insert k new \ old = insert k (new \ insert k old) := by
      ext x
      by_cases hx : x = k
      · subst hx
        simp [hk]
      · simp [hx]
    rw [if_neg hk, hsplit, Finset.card_insert_of_notMem (by simp), Nat.add_assoc, Nat.add_comm 1]

/-- **Conservation.** A newcomer leaves the number of seats that the rest ends with. -/
theorem occupied_seat :
    occupied owner (seat owner seats a) as = occupied owner seats (a :: as) := by
  rw [occupied, occupied, owners_seat, owners_cons, length_seat]
  exact places_insert

/-! ## All newcomers -/

theorem seatAll_concat :
    seatAll owner seats (as ++ [a]) = seat owner (seatAll owner seats as) a := by
  rw [seatAll, List.foldl_append]
  rfl

/-- **Who comes in.** The newcomers in front of which the seats are not all taken. -/
theorem seated_eq_take (owner : α → κ) (capacity : Nat) (seats as : List α) :
    seated owner capacity seats as = as.take ((List.range as.length).countP fun i =>
      occupied owner seats (as.take i) < capacity) := by
  induction as generalizing seats with
  | nil => rfl
  | cons a as ih =>
    rw [seated, List.length_cons, List.range_succ_eq_map, List.countP_cons, List.countP_map]
    by_cases hroom : seats.length < capacity
    · have hhere : occupied owner seats ((a :: as).take 0) < capacity := by
        simpa [occupied, owners] using hroom
      rw [if_pos hroom, decide_eq_true hhere, if_pos rfl, List.take_succ_cons, ih]
      simp only [occupied_seat]
      rfl
    · -- the number of seats never falls
      have hfull : ∀ bs, ¬ occupied owner seats bs < capacity := by
        intro bs
        rw [occupied]
        omega
      have hnone : (List.range as.length).countP ((fun i =>
          decide (occupied owner seats ((a :: as).take i) < capacity)) ∘ Nat.succ) = 0 :=
        List.countP_eq_zero.mpr fun i _ h => hfull _ (of_decide_eq_true h)
      rw [if_neg hroom, hnone, decide_eq_false (hfull _)]
      rfl

theorem displacements_cons : displacements owner seats (a :: as) =
    ((displaced owner seats a).map (·, a)).toList ++ displacements owner (seat owner seats a) as :=
  rfl

theorem seatAll_cons : seatAll owner seats (a :: as) = seatAll owner (seat owner seats a) as := rfl

/-- Everybody who had a seat or came in is displaced or has a seat in the end. -/
theorem displacements_perm :
    ((displacements owner seats as).map Prod.fst ++ seatAll owner seats as).Perm (seats ++ as) := by
  induction as generalizing seats with
  | nil =>
    rw [List.append_nil]
    exact List.Perm.refl _
  | cons a as ih =>
    have hrest : ((displacements owner (seat owner seats a) as).map Prod.fst ++
        seatAll owner (seat owner seats a) as).Perm (seat owner seats a ++ as) := ih
    rw [displacements_cons, seatAll_cons]
    -- whoever comes in takes a new seat, or the seat of the one displaced
    rcases seat_cases owner seats a with ⟨hnone, -, hseat⟩ |
      ⟨old, left, right, hold, -, rfl, -, hseat⟩
    · rw [hseat, List.append_assoc, List.singleton_append] at hrest
      rw [hnone, hseat]
      exact hrest
    · have hsame : left ++ right ++ [a] ++ as = left ++ (right ++ a :: as) := by simp
      rw [hseat, hsame] at hrest
      rw [hold, hseat]
      show (old :: ((displacements owner (left ++ right ++ [a]) as).map Prod.fst ++
        seatAll owner (left ++ right ++ [a]) as)).Perm _
      rw [List.append_assoc left (old :: right)]
      exact (hrest.cons old).trans List.perm_middle.symm

/-- Who has been displaced has no seat in the end. -/
theorem mem_displaced_iff (hnodup : (seats ++ as).Nodup) :
    b ∈ (displacements owner seats as).map Prod.fst ↔
      b ∈ seats ++ as ∧ b ∉ seatAll owner seats as := by
  have hperm : ((displacements owner seats as).map Prod.fst ++ seatAll owner seats as).Perm
      (seats ++ as) := displacements_perm
  have hsplit := List.nodup_append.mp (hperm.nodup_iff.mpr hnodup)
  rw [← hperm.mem_iff, List.mem_append]
  constructor
  · intro hb
    exact ⟨Or.inl hb, fun hseat => hsplit.2.2 b hb b hseat rfl⟩
  · rintro ⟨hb | hb, hout⟩
    · exact hb
    · exact absurd hb hout

/-! ## One seat for each owner -/

theorem lastOf_append {k : κ} {cs : List α} :
    lastOf owner (as ++ cs) k = (lastOf owner cs k).or (lastOf owner as k) := by
  rw [lastOf, List.filter_append, List.getLast?_append, lastOf, lastOf]

theorem lastOf_concat {k : κ} :
    lastOf owner (as ++ [a]) k = if owner a = k then some a else lastOf owner as k := by
  rw [lastOf_append, lastOf]
  by_cases hk : owner a = k
  · rw [if_pos hk, List.filter_cons_of_pos (by simpa using hk)]
    rfl
  · rw [if_neg hk, List.filter_cons_of_neg (by simpa using hk)]
    rfl

theorem lastOf_mem {k : κ} (h : lastOf owner as k = some a) : a ∈ as ∧ owner a = k := by
  have hmem := List.mem_of_getLast? h
  rwa [List.mem_filter, decide_eq_true_eq] at hmem

theorem exists_lastOf {k : κ} (ha : a ∈ as) (hk : owner a = k) :
    ∃ b, lastOf owner as k = some b := by
  have hmem : a ∈ as.filter fun a => owner a = k := List.mem_filter.mpr ⟨ha, by simpa using hk⟩
  exact ⟨_, List.getLast?_eq_some_getLast (List.ne_nil_of_mem hmem)⟩

/-- Items of different owners all get a seat. -/
theorem seatAll_distinct (h : (as.map owner).Nodup) : seatAll owner [] as = as := by
  induction as using List.reverseRecOn with
  | nil => rfl
  | append_singleton as a ih =>
    rw [List.map_append, List.nodup_append] at h
    obtain ⟨hrest, -, hlast⟩ := h
    rw [seatAll_concat, ih hrest]
    rcases seat_cases owner as a with ⟨-, -, hseat⟩ | ⟨old, left, right, -, hold, hsplit, -, -⟩
    · exact hseat
    · refine absurd hold (hlast _ (List.mem_map_of_mem ?_) _ (List.mem_singleton_self _))
      rw [hsplit]
      exact List.mem_append_right _ List.mem_cons_self

theorem nodup_owners (as : List α) : ((seatAll owner [] as).map owner).Nodup := by
  induction as using List.reverseRecOn with
  | nil => exact List.nodup_nil
  | append_singleton as a ih =>
    rw [seatAll_concat]
    rcases seat_cases owner (seatAll owner [] as) a with ⟨-, hnone, hseat⟩ |
      ⟨old, left, right, -, hold, hsplit, -, hseat⟩
    · rw [hseat, List.map_append, List.nodup_append]
      refine ⟨ih, List.nodup_singleton _, ?_⟩
      rintro k hk l hl rfl
      obtain ⟨b, hb, rfl⟩ := List.mem_map.mp hk
      exact hnone b hb (List.mem_singleton.mp hl)
    · rw [hsplit, List.map_append, List.map_cons, hold] at ih
      rw [hseat, List.map_append, List.map_append]
      exact (List.perm_append_singleton _ _).nodup_iff.mpr (List.nodup_middle.mp ih)

theorem mem_seat_iff (hone : (seats.map owner).Nodup) :
    b ∈ seat owner seats a ↔ b = a ∨ b ∈ seats ∧ owner b ≠ owner a := by
  rcases seat_cases owner seats a with ⟨-, hnone, hseat⟩ |
    ⟨old, left, right, -, hold, rfl, hleft, hseat⟩
  · rw [hseat, List.mem_append, List.mem_singleton, or_comm]
    exact or_congr_right ⟨fun hb => ⟨hb, hnone b hb⟩, fun hb => hb.1⟩
  · rw [List.map_append, List.map_cons, hold] at hone
    have hright : ∀ c ∈ right, owner c ≠ owner a := by
      intro c hc howner
      have htail := (List.nodup_append.mp hone).2.1
      exact (List.nodup_cons.mp htail).1 (howner ▸ List.mem_map_of_mem hc)
    rw [hseat, List.mem_append, List.mem_singleton, List.mem_append, List.mem_append,
      List.mem_cons, or_comm]
    refine or_congr_right ⟨?_, ?_⟩
    · rintro (hb | hb)
      · exact ⟨Or.inl hb, hleft b hb⟩
      · exact ⟨Or.inr (Or.inr hb), hright b hb⟩
    · rintro ⟨hb | rfl | hb, hne⟩
      · exact Or.inl hb
      · exact absurd hold hne
      · exact Or.inr hb

/-- **The last item of an owner has its seat.** -/
theorem mem_seatAll_nil_iff : b ∈ seatAll owner [] as ↔ lastOf owner as (owner b) = some b := by
  induction as using List.reverseRecOn with
  | nil => exact iff_of_false nofun nofun
  | append_singleton as a ih =>
    rw [seatAll_concat, mem_seat_iff (nodup_owners as), lastOf_concat, ih]
    by_cases howner : owner a = owner b
    · rw [if_pos howner, Option.some.injEq]
      constructor
      · rintro (rfl | ⟨-, hne⟩)
        · rfl
        · exact absurd howner.symm hne
      · exact fun heq => Or.inl heq.symm
    · rw [if_neg howner]
      constructor
      · rintro (rfl | ⟨hlast, -⟩)
        · exact absurd rfl howner
        · exact hlast
      · exact fun hlast => Or.inr ⟨hlast, Ne.symm howner⟩

theorem mem_seatAll_iff (hone : (seats.map owner).Nodup) :
    b ∈ seatAll owner seats as ↔ lastOf owner (seats ++ as) (owner b) = some b := by
  -- the seats are as if their items had come in one after the other
  have hstart : seatAll owner seats as = seatAll owner [] (seats ++ as) := by
    rw [seatAll, seatAll, List.foldl_append]
    exact congrArg (fun start => as.foldl (seat owner) start) (seatAll_distinct hone).symm
  rw [hstart, mem_seatAll_nil_iff]

end Seats

/-! ## Live items -/

section Live

variable (owner : α → κ) (live : α → Prop)

/-- Among the items of an owner, those that are not live come before those that are. -/
def LiveLast (as : List α) : Prop := as.Pairwise fun c d => owner c = owner d → live c → live d

/-- Every owner has a live item. -/
def EachLive (as : List α) : Prop := ∀ d ∈ as, ∃ c ∈ as, live c ∧ owner c = owner d

/-- An owner with several seats has live items in all of them. -/
def SharedLive (seats : List α) : Prop :=
  seats.Pairwise fun c d => owner c = owner d → live c ∧ live d

variable {owner live} {seats as left right : List α} {a old : α}

/-- Seats that are shared by live items only: they are live if every owner has a live one. -/
theorem SharedLive.live_of_each (h : SharedLive owner live seats)
    (heach : EachLive owner live seats) (ha : a ∈ seats) : live a := by
  obtain ⟨c, hc, hlive, howner⟩ := heach a ha
  by_cases heq : c = a
  · exact heq ▸ hlive
  · have hsymm : Std.Symm fun c d => owner c = owner d → live c ∧ live d :=
      ⟨fun c d hboth howner => (hboth howner.symm).symm⟩
    exact (List.Pairwise.forall h hc ha heq howner).2

/-- Taking out an item that is live only if its replacement, which comes later, is live. -/
theorem liveLast_remove (hsame : owner old = owner a) (hlive : live old → live a)
    (hleft : ∀ b ∈ left, owner b ≠ owner a)
    (hright : ∀ b ∈ right, owner b = owner a → live b) :
    LiveLast owner live (left ++ old :: (right ++ a :: as)) ↔
      LiveLast owner live (left ++ (right ++ a :: as)) := by
  constructor
  · intro h
    refine List.Pairwise.sublist ?_ h
    exact (List.sublist_cons_self ..).append_left left
  · intro h
    obtain ⟨hpre, hrest, hcross⟩ := List.pairwise_append.mp h
    refine List.pairwise_append.mpr ⟨hpre, List.pairwise_cons.mpr ⟨?_, hrest⟩, ?_⟩
    · -- after `old`: the other seats of the owner, the newcomer, and those after it
      intro d hd howner hold
      rw [hsame] at howner
      rcases List.mem_append.mp hd with hd | hd
      · exact hright d hd howner.symm
      · rcases List.mem_cons.mp hd with rfl | hd
        · exact hlive hold
        · have htail := (List.pairwise_append.mp hrest).2.1
          exact (List.pairwise_cons.mp htail).1 d hd howner (hlive hold)
    · intro c hc d hd
      rcases List.mem_cons.mp hd with rfl | hd
      · exact fun howner => absurd (howner.trans hsame) (hleft c hc)
      · exact hcross c hc d hd

theorem eachLive_remove (hsame : owner old = owner a) (hlive : live old → live a) :
    EachLive owner live (left ++ old :: (right ++ a :: as)) ↔
      EachLive owner live (left ++ (right ++ a :: as)) := by
  have hsub : ∀ c ∈ left ++ (right ++ a :: as), c ∈ left ++ old :: (right ++ a :: as) :=
    fun c hc => ((List.sublist_cons_self ..).append_left left).subset hc
  have ha : a ∈ left ++ (right ++ a :: as) := by simp
  constructor
  · intro h d hd
    obtain ⟨c, hc, hlc, howner⟩ := h d (hsub d hd)
    by_cases heq : c = old
    · -- the replacement is live and of the same owner
      subst heq
      exact ⟨a, ha, hlive hlc, hsame.symm.trans howner⟩
    · refine ⟨c, ?_, hlc, howner⟩
      simpa [heq] using hc
  · intro h d hd
    by_cases heq : d = old
    · subst heq
      obtain ⟨c, hc, hlc, howner⟩ := h a ha
      exact ⟨c, hsub c hc, hlc, howner.trans hsame.symm⟩
    · obtain ⟨c, hc, hlc, howner⟩ := h d (by simpa [heq] using hd)
      exact ⟨c, hsub c hc, hlc, howner⟩

/-- **When everybody who is seated in the end is live**, and nobody live was displaced by an
item that is not: if and only if, of each owner, the items that are not live came first and
a live one came after them. -/
theorem all_live_iff [DecidableEq κ] (h : SharedLive owner live seats) :
    ((∀ b ∈ seatAll owner seats as, live b) ∧
        ∀ p ∈ displacements owner seats as, live p.1 → live p.2) ↔
      LiveLast owner live (seats ++ as) ∧ EachLive owner live (seats ++ as) := by
  -- on the newcomers, for all seats that are shared by live items only
  induction as generalizing seats with
  | nil =>
    rw [List.append_nil]
    constructor
    · rintro ⟨hall, -⟩
      refine ⟨h.imp fun hshared howner _ => (hshared howner).2, fun d hd => ⟨d, hd, hall d hd, rfl⟩⟩
    · rintro ⟨-, heach⟩
      exact ⟨fun b hb => h.live_of_each heach hb, nofun⟩
  | cons a as ih =>
    rw [displacements_cons, seatAll_cons]
    rcases seat_cases owner seats a with ⟨hnone, hother, hseat⟩ |
      ⟨old, left, right, hdisplaced, hold, rfl, hleft, hseat⟩
    · -- a new seat
      have hshared : SharedLive owner live (seats ++ [a]) := by
        refine List.pairwise_append.mpr ⟨h, List.pairwise_singleton _ _, fun c hc d hd howner => ?_⟩
        rw [List.mem_singleton.mp hd] at howner
        exact absurd howner (hother c hc)
      have hrest := ih hshared
      rw [List.append_assoc, List.singleton_append] at hrest
      rw [hnone, hseat]
      exact hrest
    · have hsplit : left ++ right ++ [a] ++ as = left ++ (right ++ a :: as) := by simp
      have hwhole : left ++ old :: right ++ a :: as = left ++ old :: (right ++ a :: as) := by simp
      have hpairs : (∀ p ∈ ((some old).map (·, a)).toList ++
            displacements owner (left ++ right ++ [a]) as, live p.1 → live p.2) ↔
          (live old → live a) ∧
            ∀ p ∈ displacements owner (left ++ right ++ [a]) as, live p.1 → live p.2 :=
        List.forall_mem_cons
      rw [hdisplaced, hseat, hwhole, hpairs]
      by_cases hlive : live old → live a
      · -- `old` can be left out of the list: whatever it says, its replacement says
        have hright : ∀ b ∈ right, owner b = owner a → live old ∧ live b := by
          intro b hb howner
          have htail := (List.pairwise_append.mp h).2.1
          exact (List.pairwise_cons.mp htail).1 b hb (hold.trans howner.symm)
        have hshared : SharedLive owner live (left ++ right ++ [a]) := by
          refine List.pairwise_append.mpr ⟨?_, List.pairwise_singleton _ _, ?_⟩
          · exact h.sublist ((List.sublist_cons_self ..).append_left left)
          · intro c hc d hd howner
            rw [List.mem_singleton.mp hd] at howner ⊢
            rcases List.mem_append.mp hc with hc | hc
            · exact absurd howner (hleft c hc)
            · obtain ⟨hlold, hlc⟩ := hright c hc howner
              exact ⟨hlc, hlive hlold⟩
        have hrest := ih hshared
        rw [hsplit] at hrest
        rw [liveLast_remove hold hlive hleft fun b hb howner => (hright b hb howner).2,
          eachLive_remove hold hlive, ← hrest, and_iff_right hlive]
      · -- a live item is displaced by one that is not
        refine iff_of_false (fun hall => hlive hall.2.1) fun hall => hlive ?_
        have hafter := (List.pairwise_append.mp hall.1).2.1
        exact (List.pairwise_cons.mp hafter).1 a (by simp) hold

end Live

end BoostChat.Lib
