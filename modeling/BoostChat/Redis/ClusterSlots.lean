import BoostChat.Redis.HashSlot
import BoostChat.Lib.PartitionPoint
import Mathlib.Logic.Function.Basic

/-!
# Servers of a cluster

`LoadClusterSlots` of the Redis client asks one of its servers for the regions of slots, and
`FindServer` finds the server of a slot by a binary search in the regions.

* `loadClusterSlots` — the refresh; `findServer` — the search;
* `findServer_refreshed` — after a refresh every slot leads to the endpoint that the reply
  names for it, and a slot that the reply leaves out to none.

Where the code reads a member of a `redisReply` that the reply does not have, the model is
undefined.
-/

namespace BoostChat.Redis

open Lib

/-- A pointer to a `CRedisServer`. -/
abbrev ServerRef := Nat

structure SlotRegion where
  nStartSlot : Int32
  nEndSlot : Int32
  strHost : Bytes
  nPort : Int32
  pRedisServ : Option ServerRef := none
deriving DecidableEq

/-- `redisReply` -/
inductive Reply
  | integer (n : Int64)
  | string (str : Bytes)
  | status (str : Bytes)
  | error (str : Bytes)
  | nil
  | array (element : List Reply)

/-- The member `integer`, which is zero in the other replies. -/
def Reply.toInteger : Reply → Int64
  | .integer n => n
  | _ => 0

/-- The member `str` as a C string; a null pointer in the other replies. -/
def Reply.str? : Reply → Option Bytes
  | .string str | .status str | .error str => some (cString str)
  | _ => none

/-- The member `element`; a null pointer in the other replies. -/
def Reply.element? (reply : Reply) (i : Nat) : Option Reply :=
  match reply with
  | .array element => element[i]?
  | _ => none

/-- What `FetchSlot` returns. -/
inductive Fetched
  | success (vecSlot : List SlotRegion)
  | replyErr
  | undefined
deriving DecidableEq

/-- One region of the reply. -/
def fetchRegion (element : List Reply) : Option SlotRegion := do
  let node ← element[2]?
  return {
    nStartSlot := (← element[0]?).toInteger.toInt32
    nEndSlot := (← element[1]?).toInteger.toInt32
    strHost := ← (← node.element? 0).str?
    nPort := (← node.element? 1).toInteger.toInt32 }

/-- The loop of `FetchSlot`. -/
def fetchRegions : List Reply → Fetched
  | [] => .success []
  | .array element :: rest =>
    if element.length < 3 then .replyErr
    else
      match fetchRegion element, fetchRegions rest with
      | none, _ => .undefined
      | some slotReg, .success vecSlot => .success (slotReg :: vecSlot)
      | some _, failed => failed
  | _ :: _ => .replyErr

def fetchSlot : Reply → Fetched
  | .array element => fetchRegions element
  | _ => .replyErr

/-- A `CRedisServer`, but for its connections. -/
structure Server where
  strHost : Bytes
  nPort : Int32
  vecHosts : List (Bytes × Int32)
deriving DecidableEq

/-- The constructor: `Reconnect` clears the host when it fails, and sets it when a later
connection succeeds. -/
def Server.new (strHost : Bytes) (nPort : Int32) (attempts : List Bool) : Server where
  strHost := attempts.foldl (fun _ connected => if connected then strHost else []) strHost
  nPort := nPort
  vecHosts := [(strHost, nPort)]

structure CRedisClient where
  vecRedisServ : List ServerRef
  vecSlot : List SlotRegion
  /-- The servers at their addresses. -/
  heap : ServerRef → Server
  /-- The next free address. -/
  fresh : ServerRef

/-- What the outside answers to a refresh. -/
structure World where
  isValid : ServerRef → Bool
  /-- The reply to `cluster slots`, when the request succeeds. -/
  reply : ServerRef → Option Reply
  /-- Which connections of a new server succeed. -/
  attempts : ServerRef → List Bool
  /-- Which reconnects of its first request succeed. -/
  reconnects : ServerRef → List Bool

/-- `FindServer` with a host and a port. -/
def findEndpoint (heap : ServerRef → Server) (vecRedisServ : List ServerRef) (strHost : Bytes)
    (nPort : Int32) : Option ServerRef :=
  vecRedisServ.find? fun s => strHost == (heap s).strHost && nPort == (heap s).nPort

/-- The loop over the regions: each gets its server, which is created unless it is there.
`none` when a new server has no connection. -/
def assignServers (w : World) (c : CRedisClient) :
    List SlotRegion → Option (List SlotRegion × CRedisClient)
  | [] => some ([], c)
  | slotReg :: rest =>
    match findEndpoint c.heap c.vecRedisServ slotReg.strHost slotReg.nPort with
    | some s => (assignServers w c rest).map fun (vecSlot, c) =>
      ({ slotReg with pRedisServ := some s } :: vecSlot, c)
    | none =>
      if (w.attempts c.fresh).any id then
        let attempts := w.attempts c.fresh ++ w.reconnects c.fresh
        let server := Server.new slotReg.strHost slotReg.nPort attempts
        let created := { c with
          vecRedisServ := c.vecRedisServ ++ [c.fresh]
          heap := Function.update c.heap c.fresh server
          fresh := c.fresh + 1 }
        (assignServers w created rest).map fun (vecSlot, c') =>
          ({ slotReg with pRedisServ := some c.fresh } :: vecSlot, c')
      else none

/-- `std::sort` with the order of the starts. -/
def sortRegions (vecSlot : List SlotRegion) : List SlotRegion :=
  vecSlot.mergeSort fun l r => l.nStartSlot ≤ r.nStartSlot

/-- The loop of `LoadClusterSlots` over the servers that are left. -/
def loadFrom (w : World) (c : CRedisClient) : List ServerRef → Option (CRedisClient × Bool)
  | [] => some (c, false)
  | s :: rest =>
    if w.isValid s then
      match (w.reply s).map fetchSlot with
      | some (.success vecSlot) =>
        match assignServers w { c with vecRedisServ := [] } vecSlot with
        | some (vecSlot, c') => some ({ c' with vecSlot := sortRegions vecSlot }, true)
        | none => some (c, false)
      | some .undefined => none
      | some .replyErr | none => loadFrom w c rest
    else some (c, false)

def loadClusterSlots (w : World) (c : CRedisClient) : Option (CRedisClient × Bool) :=
  loadFrom w c c.vecRedisServ

/-- `CompSlot` -/
def regionBelow (slotReg : SlotRegion) (nSlot : Int32) : Bool := slotReg.nEndSlot < nSlot

def regionAbove (nSlot : Int32) (slotReg : SlotRegion) : Bool := nSlot < slotReg.nStartSlot

/-- `FindServer` with a slot. -/
def findServer (c : CRedisClient) (nSlot : Int32) : Option ServerRef :=
  let pairIter := equalRange c.vecSlot nSlot regionBelow regionAbove
  if pairIter.1 ≠ c.vecSlot.length ∧ pairIter.1 ≠ pairIter.2 then
    c.vecSlot[pairIter.1]?.bind (·.pRedisServ)
  else none

/-- `InSameNode` in a cluster. -/
def inSameNode (c : CRedisClient) (strKey1 strKey2 : Bytes) : Bool :=
  findServer c (hashSlot strKey1).toInt32 == findServer c (hashSlot strKey2).toInt32

/-! ## The search -/

section Search

variable {c : CRedisClient} {nSlot : Int32}

/-- The slot is in the region. -/
def SlotRegion.Has (r : SlotRegion) (nSlot : Int32) : Prop :=
  r.nStartSlot ≤ nSlot ∧ nSlot ≤ r.nEndSlot

theorem SlotRegion.has_iff {r : SlotRegion} :
    r.Has nSlot ↔ regionBelow r nSlot = false ∧ regionAbove nSlot r = false := by
  rw [SlotRegion.Has, regionBelow, regionAbove, decide_eq_false_iff_not, decide_eq_false_iff_not,
    Int32.not_lt, Int32.not_lt, and_comm]

/-- Regions that do not overlap. -/
structure Apart (vecSlot : List SlotRegion) : Prop where
  ordered : ∀ r ∈ vecSlot, r.nStartSlot ≤ r.nEndSlot
  apart : vecSlot.Pairwise fun l r => l.nEndSlot < r.nStartSlot ∨ r.nEndSlot < l.nStartSlot

/-- Each region ends before the next one starts. -/
structure Ascending (vecSlot : List SlotRegion) : Prop where
  ordered : ∀ r ∈ vecSlot, r.nStartSlot ≤ r.nEndSlot
  ascends : vecSlot.Pairwise fun l r => l.nEndSlot < r.nStartSlot

theorem sortRegions_perm (vecSlot : List SlotRegion) : (sortRegions vecSlot).Perm vecSlot :=
  List.mergeSort_perm ..

theorem Apart.sortRegions {vecSlot : List SlotRegion} (h : Apart vecSlot) :
    Ascending (sortRegions vecSlot) := by
  have hordered : ∀ r ∈ Redis.sortRegions vecSlot, r.nStartSlot ≤ r.nEndSlot := fun r hr =>
    h.ordered r ((sortRegions_perm vecSlot).mem_iff.mp hr)
  have hsorted : (Redis.sortRegions vecSlot).Pairwise fun l r => l.nStartSlot ≤ r.nStartSlot := by
    refine (List.pairwise_mergeSort (fun a b c => ?_) (fun a b => ?_) vecSlot).imp
      fun h => of_decide_eq_true h
    · simp only [decide_eq_true_eq]
      exact Int32.le_trans
    · simp only [Bool.or_eq_true, decide_eq_true_eq]
      exact Int32.le_total ..
  have hapart := (sortRegions_perm vecSlot).symm.pairwise h.apart fun {l r} hlr => hlr.symm
  refine ⟨hordered, (hsorted.and hapart).imp_of_mem ?_⟩
  rintro l r - hr ⟨hle, hlt | hlt⟩
  · exact hlt
  · have hends := hordered r hr
    rw [Int32.le_iff_toInt_le] at hle hends
    rw [Int32.lt_iff_toInt_lt] at hlt
    omega

theorem Ascending.lt {vecSlot : List SlotRegion} (h : Ascending vecSlot) {i j : Nat}
    {l r : SlotRegion} (hij : i < j) (hl : vecSlot[i]? = some l) (hr : vecSlot[j]? = some r) :
    l.nStartSlot.toInt ≤ l.nEndSlot.toInt ∧ l.nEndSlot.toInt < r.nStartSlot.toInt ∧
      r.nStartSlot.toInt ≤ r.nEndSlot.toInt := by
  obtain ⟨hi, rfl⟩ := List.getElem?_eq_some_iff.mp hl
  obtain ⟨hj, rfl⟩ := List.getElem?_eq_some_iff.mp hr
  refine ⟨?_, ?_, ?_⟩
  · exact Int32.le_iff_toInt_le.mp (h.ordered _ (List.getElem_mem hi))
  · exact Int32.lt_iff_toInt_lt.mp (List.pairwise_iff_getElem.mp h.ascends i j hi hj hij)
  · exact Int32.le_iff_toInt_le.mp (h.ordered _ (List.getElem_mem hj))

/-- Both comparisons with a slot partition the regions. -/
theorem Ascending.partitioned {vecSlot : List SlotRegion} (h : Ascending vecSlot) (nSlot : Int32) :
    Partitioned (fun i => vecSlot[i]?.any fun r => regionBelow r nSlot) vecSlot.length ∧
      Partitioned (fun i => vecSlot[i]?.any fun r => !regionAbove nSlot r) vecSlot.length := by
  have hpartitioned {p : SlotRegion → Bool} (hp : ∀ l r : SlotRegion,
      l.nStartSlot.toInt ≤ l.nEndSlot.toInt ∧ l.nEndSlot.toInt < r.nStartSlot.toInt ∧
        r.nStartSlot.toInt ≤ r.nEndSlot.toInt → p r = true → p l = true) :
      Partitioned (fun i => vecSlot[i]?.any p) vecSlot.length := by
    intro i j hle hj hpj
    rcases Nat.eq_or_lt_of_le hle with rfl | hij
    · exact hpj
    · have hl := List.getElem?_eq_getElem (Nat.lt_trans hij hj)
      have hr := List.getElem?_eq_getElem hj
      dsimp only at hpj ⊢
      rw [hr, Option.any_some] at hpj
      rw [hl, Option.any_some]
      exact hp _ _ (h.lt hij hl hr) hpj
  refine ⟨hpartitioned fun l r hlr hbelow => ?_, hpartitioned fun l r hlr habove => ?_⟩
  · simp only [regionBelow, decide_eq_true_eq, Int32.lt_iff_toInt_lt] at hbelow ⊢
    omega
  · simp only [regionAbove, Bool.not_eq_true', decide_eq_false_iff_not,
      Int32.lt_iff_toInt_lt] at habove ⊢
    omega

/-- **The search** finds the server of the region that has the slot. -/
theorem findServer_of_has (h : Ascending c.vecSlot) {r : SlotRegion} (hr : r ∈ c.vecSlot)
    (hhas : r.Has nSlot) : findServer c nSlot = r.pRedisServ := by
  obtain ⟨hbelow, habove⟩ := h.partitioned nSlot
  obtain ⟨i, hi⟩ := List.mem_iff_getElem?.mp hr
  obtain ⟨hle, hlt⟩ := (equalRange_spec hbelow habove hi).mpr (SlotRegion.has_iff.mp hhas)
  have hsize := (List.getElem?_eq_some_iff.mp hi).1
  -- the lower end is in the range as well, and no other region has the slot
  have hlower := List.getElem?_eq_getElem (Nat.lt_of_le_of_lt hle hsize)
  have hfirst := SlotRegion.has_iff.mpr ((equalRange_spec hbelow habove hlower).mp
    ⟨Nat.le_refl _, Nat.lt_of_le_of_lt hle hlt⟩)
  have heq : (equalRange c.vecSlot nSlot regionBelow regionAbove).1 = i := by
    rcases Nat.eq_or_lt_of_le hle with heq | hbefore
    · exact heq
    · obtain ⟨-, hend, -⟩ := h.lt hbefore hlower hi
      have hin := Int32.le_iff_toInt_le.mp hfirst.2
      have hstart := Int32.le_iff_toInt_le.mp hhas.1
      omega
  rw [findServer, heq, if_pos ⟨Nat.ne_of_lt hsize, Nat.ne_of_lt hlt⟩, hi]
  rfl

/-- No server is found for a slot that no region has. -/
theorem findServer_eq_none (h : Ascending c.vecSlot) (hnone : ∀ r ∈ c.vecSlot, ¬ r.Has nSlot) :
    findServer c nSlot = none := by
  obtain ⟨hbelow, habove⟩ := h.partitioned nSlot
  have hone : ∀ r ∈ c.vecSlot, regionBelow r nSlot = true → regionAbove nSlot r = false := by
    intro r hr hlt
    have hends := h.ordered r hr
    simp only [regionBelow, regionAbove, decide_eq_true_eq, decide_eq_false_iff_not,
      Int32.lt_iff_toInt_lt, Int32.le_iff_toInt_le] at hlt hends ⊢
    omega
  have hle := equalRange_le hbelow habove hone
  rw [findServer]
  refine if_neg ?_
  rintro ⟨hsize, hne⟩
  have hlt : (equalRange c.vecSlot nSlot regionBelow regionAbove).1 < c.vecSlot.length :=
    Nat.lt_of_le_of_ne (search_spec hbelow).le hsize
  have hlower := List.getElem?_eq_getElem hlt
  refine hnone _ (List.getElem_mem hlt) (SlotRegion.has_iff.mpr ?_)
  exact (equalRange_spec hbelow habove hlower).mp ⟨Nat.le_refl _, Nat.lt_of_le_of_ne hle hne⟩

/-- Keys with the same part in braces are in the same node, wherever its slot is. -/
theorem inSameNode_of_tag {strKey1 strKey2 tag : Bytes} (h1 : HasTag strKey1 tag)
    (h2 : HasTag strKey2 tag) (hlength1 : strKey1.length < 2 ^ 31)
    (hlength2 : strKey2.length < 2 ^ 31) : inSameNode c strKey1 strKey2 = true := by
  rw [inSameNode, hashSlot_of_tag h1 hlength1, hashSlot_of_tag h2 hlength2]
  exact beq_self_eq_true _

end Search

/-! ## The refresh -/

section Refresh

variable {w : World} {c c' : CRedisClient} {vecSlot vecSlot' : List SlotRegion}

/-- The constructor leaves the host or clears it. -/
theorem Server.new_strHost (strHost : Bytes) (nPort : Int32) (attempts : List Bool) :
    (Server.new strHost nPort attempts).strHost = strHost ∨
      (Server.new strHost nPort attempts).strHost = [] := by
  have hfold : ∀ current, current = strHost ∨ current = [] →
      attempts.foldl (fun _ connected => if connected then strHost else []) current = strHost ∨
        attempts.foldl (fun _ connected => if connected then strHost else []) current = [] := by
    induction attempts with
    | nil => exact fun _ h => h
    | cons connected attempts ih =>
      intro current _
      refine ih _ ?_
      cases connected
      · exact Or.inr rfl
      · exact Or.inl rfl
  exact hfold strHost (Or.inl rfl)

/-- The servers that have been created so far, each with the one endpoint that it connects
to. Its host may have been cleared. -/
structure Loading (c : CRedisClient) : Prop where
  below : ∀ s ∈ c.vecRedisServ, s < c.fresh
  endpoint : ∀ s ∈ c.vecRedisServ, ∃ strHost, (c.heap s).vecHosts = [(strHost, (c.heap s).nPort)] ∧
    ((c.heap s).strHost = strHost ∨ (c.heap s).strHost = [])

/-- The server of a region, of those in `c`, connects to the endpoint of the region. -/
def Leads (c : CRedisClient) (r r' : SlotRegion) : Prop :=
  ∃ s ∈ c.vecRedisServ, r' = { r with pRedisServ := some s } ∧
    (c.heap s).vecHosts = [(r.strHost, r.nPort)]

/-- A server that is found for a host connects to it. -/
theorem Loading.found (h : Loading c) {strHost : Bytes} {nPort : Int32} {s : ServerRef}
    (hhost : strHost ≠ []) (hfound : findEndpoint c.heap c.vecRedisServ strHost nPort = some s) :
    s ∈ c.vecRedisServ ∧ (c.heap s).vecHosts = [(strHost, nPort)] := by
  have hmem := List.mem_of_find?_eq_some hfound
  have hmatches := List.find?_some hfound
  rw [Bool.and_eq_true, beq_iff_eq, beq_iff_eq] at hmatches
  obtain ⟨host, hhosts, heq | hcleared⟩ := h.endpoint s hmem
  · rw [hhosts, hmatches.1, hmatches.2, heq]
    exact ⟨hmem, rfl⟩
  · exact absurd (hmatches.1.trans hcleared) hhost

/-- A server is created at a free address. -/
theorem Loading.create (h : Loading c) (strHost : Bytes) (nPort : Int32) (attempts : List Bool) :
    Loading { c with
      vecRedisServ := c.vecRedisServ ++ [c.fresh]
      heap := Function.update c.heap c.fresh (Server.new strHost nPort attempts)
      fresh := c.fresh + 1 } := by
  refine ⟨fun s hs => ?_, fun s hs => ?_⟩
  · rcases List.mem_append.mp hs with hs | hs
    · exact Nat.lt_succ_of_lt (h.below s hs)
    · rw [List.mem_singleton.mp hs]
      exact Nat.lt_succ_self _
  · rcases List.mem_append.mp hs with hs | hs
    · dsimp only
      rw [Function.update_of_ne (Nat.ne_of_lt (h.below s hs))]
      exact h.endpoint s hs
    · rw [List.mem_singleton.mp hs]
      dsimp only
      rw [Function.update_self]
      exact ⟨strHost, rfl, Server.new_strHost strHost nPort attempts⟩

/-- **Loop lemma.** Every region gets a server that connects to its endpoint, and the
servers that are there stay as they are. -/
theorem assignServers_leads (h : Loading c) (hhosts : ∀ r ∈ vecSlot, r.strHost ≠ [])
    (hassign : assignServers w c vecSlot = some (vecSlot', c')) :
    (∀ s ∈ c.vecRedisServ, s ∈ c'.vecRedisServ ∧ c'.heap s = c.heap s) ∧
      List.Forall₂ (Leads c') vecSlot vecSlot' := by
  induction vecSlot generalizing c vecSlot' with
  | nil =>
    obtain ⟨rfl, rfl⟩ := Prod.mk.inj (Option.some.inj hassign)
    exact ⟨fun s hs => ⟨hs, rfl⟩, .nil⟩
  | cons slotReg rest ih =>
    rw [List.forall_mem_cons] at hhosts
    rw [assignServers] at hassign
    split at hassign
    · rename_i s hfound
      obtain ⟨⟨vecSlot, c''⟩, hrest, heq⟩ := Option.map_eq_some_iff.mp hassign
      obtain ⟨rfl, rfl⟩ := Prod.mk.inj heq
      obtain ⟨hkept, hleads⟩ := ih h hhosts.2 hrest
      obtain ⟨hmem, hendpoint⟩ := h.found hhosts.1 hfound
      refine ⟨hkept, .cons ⟨s, (hkept s hmem).1, rfl, ?_⟩ hleads⟩
      rw [(hkept s hmem).2, hendpoint]
    · split at hassign
      · obtain ⟨⟨vecSlot, c''⟩, hrest, heq⟩ := Option.map_eq_some_iff.mp hassign
        obtain ⟨rfl, rfl⟩ := Prod.mk.inj heq
        obtain ⟨hkept, hleads⟩ := ih (h.create _ _ _) hhosts.2 hrest
        refine ⟨fun s hs => ?_, .cons ⟨c.fresh, ?_, rfl, ?_⟩ hleads⟩
        · obtain ⟨hmem, hheap⟩ := hkept s (List.mem_append_left _ hs)
          refine ⟨hmem, hheap.trans ?_⟩
          exact Function.update_of_ne (Nat.ne_of_lt (h.below s hs)) _ _
        · exact (hkept c.fresh (List.mem_append_right _ List.mem_cons_self)).1
        · rw [(hkept c.fresh (List.mem_append_right _ List.mem_cons_self)).2]
          dsimp only
          rw [Function.update_self]
          rfl
      · cases hassign

theorem exists_of_forall₂ {α β : Type} {R : α → β → Prop} {as : List α} {bs : List β}
    (h : List.Forall₂ R as bs) : ∀ a ∈ as, ∃ b ∈ bs, R a b := by
  induction h with
  | nil => exact fun _ h => absurd h List.not_mem_nil
  | cons hab _ ih =>
    rintro a (_ | ⟨_, ha⟩)
    · exact ⟨_, List.mem_cons_self, hab⟩
    · obtain ⟨b, hb, hR⟩ := ih a ha
      exact ⟨b, List.mem_cons_of_mem _ hb, hR⟩

/-- The regions with their servers have the same slots. -/
theorem Apart.assigned (h : Apart vecSlot) (hleads : List.Forall₂ (Leads c) vecSlot vecSlot') :
    Apart vecSlot' := by
  have hslots : vecSlot'.map (fun r => (r.nStartSlot, r.nEndSlot)) =
      vecSlot.map fun r => (r.nStartSlot, r.nEndSlot) := by
    induction hleads with
    | nil => rfl
    | cons hlead _ ih =>
      obtain ⟨s, -, rfl, -⟩ := hlead
      rw [List.map_cons, List.map_cons,
        ih ⟨fun r hr => h.ordered r (List.mem_cons_of_mem _ hr), h.apart.of_cons⟩]
  have hmapped : (vecSlot.map fun r => (r.nStartSlot, r.nEndSlot)).Pairwise
      fun l r => l.2 < r.1 ∨ r.2 < l.1 := List.pairwise_map.mpr h.apart
  refine ⟨fun r hr => ?_, List.pairwise_map.mp (hslots ▸ hmapped)⟩
  have hmem := List.mem_map_of_mem (f := fun r : SlotRegion => (r.nStartSlot, r.nEndSlot)) hr
  rw [hslots] at hmem
  obtain ⟨r', hr', heq⟩ := List.mem_map.mp hmem
  obtain ⟨hstart, hend⟩ := Prod.mk.inj heq
  rw [← hstart, ← hend]
  exact h.ordered r' hr'

/-- What a refresh that succeeds has done. -/
inductive Refreshed (w : World) (c c' : CRedisClient) : Prop
  | intro {s : ServerRef} {reply : Reply} {vecSlot vecSlot' : List SlotRegion}
      {loaded : CRedisClient} (hs : s ∈ c.vecRedisServ) (hreply : w.reply s = some reply)
      (hfetched : fetchSlot reply = .success vecSlot)
      (hassigned : assignServers w { c with vecRedisServ := [] } vecSlot = some (vecSlot', loaded))
      (heq : c' = { loaded with vecSlot := sortRegions vecSlot' })

/-- **Inversion.** -/
theorem refreshed_of_load (h : loadClusterSlots w c = some (c', true)) : Refreshed w c c' := by
  have hfrom : ∀ left, (∀ s ∈ left, s ∈ c.vecRedisServ) → loadFrom w c left = some (c', true) →
      Refreshed w c c' := by
    intro left
    induction left with
    | nil => exact fun _ h => absurd (congrArg Prod.snd (Option.some.inj h)) Bool.false_ne_true
    | cons s rest ih =>
      intro hleft hload
      rw [List.forall_mem_cons] at hleft
      rw [loadFrom] at hload
      split_ifs at hload
      · split at hload
        · rename_i vecSlot hfetched
          obtain ⟨reply, hreply, hfetch⟩ := Option.map_eq_some_iff.mp hfetched
          split at hload
          · rename_i hassigned
            obtain ⟨rfl, -⟩ := Prod.mk.inj (Option.some.inj hload)
            exact .intro hleft.1 hreply hfetch hassigned rfl
          · exact absurd (congrArg Prod.snd (Option.some.inj hload)) Bool.false_ne_true
        · cases hload
        · exact ih hleft.2 hload
        · exact ih hleft.2 hload
      · exact absurd (congrArg Prod.snd (Option.some.inj hload)) Bool.false_ne_true
  exact hfrom c.vecRedisServ (fun _ h => h) h

/-- **Routing.** A refresh that succeeds has got its regions from one of the servers. If they
do not overlap and name their hosts, then afterwards every slot leads to a server that
connects to the endpoint of its region, and a slot that no region has leads nowhere. -/
theorem findServer_refreshed (hload : loadClusterSlots w c = some (c', true)) :
    ∃ s ∈ c.vecRedisServ, ∃ reply vecSlot, w.reply s = some reply ∧
      fetchSlot reply = .success vecSlot ∧
      (Apart vecSlot → (∀ r ∈ vecSlot, r.strHost ≠ []) → ∀ nSlot : Int32,
        (∀ r ∈ vecSlot, r.Has nSlot → ∃ server ∈ c'.vecRedisServ,
          findServer c' nSlot = some server ∧
          (c'.heap server).vecHosts = [(r.strHost, r.nPort)]) ∧
        ((∀ r ∈ vecSlot, ¬ r.Has nSlot) → findServer c' nSlot = none)) := by
  obtain @⟨s, reply, vecSlot, vecSlot', loaded, hs, hreply, hfetched, hassigned, rfl⟩ :=
    refreshed_of_load hload
  refine ⟨s, hs, reply, vecSlot, hreply, hfetched, fun hapart hhosts nSlot => ?_⟩
  have hnew : Loading { c with vecRedisServ := [] } :=
    ⟨fun _ h => absurd h List.not_mem_nil, fun _ h => absurd h List.not_mem_nil⟩
  obtain ⟨-, hleads⟩ := assignServers_leads hnew hhosts hassigned
  have hascending : Ascending (sortRegions vecSlot') := (hapart.assigned hleads).sortRegions
  have hsorted : ∀ r, r ∈ sortRegions vecSlot' ↔ r ∈ vecSlot' := fun r =>
    (sortRegions_perm vecSlot').mem_iff
  refine ⟨fun r hr hhas => ?_, fun hnone => findServer_eq_none hascending fun r' hr' => ?_⟩
  · obtain ⟨r', hr', server, hserver, rfl, hendpoint⟩ := exists_of_forall₂ hleads r hr
    have hserved : SlotRegion.Has { r with pRedisServ := some server } nSlot := hhas
    exact ⟨server, hserver, findServer_of_has hascending ((hsorted _).mpr hr') hserved, hendpoint⟩
  · obtain ⟨r, hr, server, -, rfl, -⟩ := exists_of_forall₂ hleads.flip r' ((hsorted _).mp hr')
    exact hnone r hr

/-- The servers that a refresh creates: at free addresses, each with a connection. -/
structure Created (w : World) (first : ServerRef) (c : CRedisClient) : Prop where
  first_le : first ≤ c.fresh
  nodup : c.vecRedisServ.Nodup
  new : ∀ s ∈ c.vecRedisServ, first ≤ s ∧ s < c.fresh ∧ (w.attempts s).any id = true

/-- **Loop lemma.** The servers of the regions are among those that are created. -/
theorem assignServers_created {first : ServerRef} (h : Created w first c)
    (hassign : assignServers w c vecSlot = some (vecSlot', c')) :
    Created w first c' ∧ (∀ s ∈ c.vecRedisServ, s ∈ c'.vecRedisServ) ∧
      ∀ r ∈ vecSlot', ∀ s, r.pRedisServ = some s → s ∈ c'.vecRedisServ := by
  induction vecSlot generalizing c vecSlot' with
  | nil =>
    obtain ⟨rfl, rfl⟩ := Prod.mk.inj (Option.some.inj hassign)
    exact ⟨h, fun _ hs => hs, fun _ hr => absurd hr List.not_mem_nil⟩
  | cons slotReg rest ih =>
    rw [assignServers] at hassign
    split at hassign
    · rename_i s hfound
      obtain ⟨⟨vecSlot, c''⟩, hrest, heq⟩ := Option.map_eq_some_iff.mp hassign
      obtain ⟨rfl, rfl⟩ := Prod.mk.inj heq
      obtain ⟨hcreated, hkept, hregions⟩ := ih h hrest
      refine ⟨hcreated, hkept, List.forall_mem_cons.mpr ⟨?_, hregions⟩⟩
      rintro _ ⟨⟩
      exact hkept s (List.mem_of_find?_eq_some hfound)
    · split_ifs at hassign with hany
      obtain ⟨⟨vecSlot, c''⟩, hrest, heq⟩ := Option.map_eq_some_iff.mp hassign
      obtain ⟨rfl, rfl⟩ := Prod.mk.inj heq
      have hnext : Created w first { c with
          vecRedisServ := c.vecRedisServ ++ [c.fresh]
          heap := Function.update c.heap c.fresh (Server.new slotReg.strHost slotReg.nPort
            (w.attempts c.fresh ++ w.reconnects c.fresh))
          fresh := c.fresh + 1 } := by
        refine ⟨Nat.le_succ_of_le h.first_le, ?_, ?_⟩
        · refine List.nodup_append.mpr ⟨h.nodup, List.nodup_singleton _, ?_⟩
          rintro s hs _ (_ | ⟨_, ⟨⟩⟩)
          exact Nat.ne_of_lt (h.new s hs).2.1
        · refine List.forall_mem_append.mpr ⟨fun s hs => ?_, List.forall_mem_singleton.mpr ?_⟩
          · obtain ⟨hfirst, hlt, hconnected⟩ := h.new s hs
            exact ⟨hfirst, Nat.lt_succ_of_lt hlt, hconnected⟩
          · exact ⟨h.first_le, Nat.lt_succ_self _, hany⟩
      obtain ⟨hcreated, hkept, hregions⟩ := ih hnext hrest
      refine ⟨hcreated, fun s hs => hkept s (List.mem_append_left _ hs),
        List.forall_mem_cons.mpr ⟨?_, hregions⟩⟩
      rintro _ ⟨⟩
      exact hkept c.fresh (List.mem_append_right _ List.mem_cons_self)

/-- The servers of the client after a refresh are new ones, and the regions have only them. -/
theorem loadClusterSlots_created (hload : loadClusterSlots w c = some (c', true)) :
    Created w c.fresh c' ∧ ∀ r ∈ c'.vecSlot, ∀ s, r.pRedisServ = some s → s ∈ c'.vecRedisServ := by
  obtain @⟨-, -, vecSlot, vecSlot', loaded, -, -, -, hassigned, rfl⟩ := refreshed_of_load hload
  have hnone : Created w c.fresh { c with vecRedisServ := [] } :=
    ⟨Nat.le_refl _, .nil, fun _ hs => absurd hs List.not_mem_nil⟩
  obtain ⟨hcreated, -, hregions⟩ := assignServers_created hnone hassigned
  refine ⟨⟨hcreated.first_le, hcreated.nodup, hcreated.new⟩, fun r hr => ?_⟩
  exact hregions r ((sortRegions_perm vecSlot').mem_iff.mp hr)

/-- Two nodes; the reply names the one with the higher slots first. -/
def twoNodes : World where
  isValid := fun _ => true
  reply := fun _ => some <| .array [
    .array [.integer 8192, .integer 16383, .array [.string (ascii "b"), .integer 7001]],
    .array [.integer 0, .integer 8191, .array [.string (ascii "a"), .integer 7000]]]
  attempts := fun _ => [true, true]
  reconnects := fun _ => [true]

/-- The client with the server that it was given. -/
def oneServer : CRedisClient where
  vecRedisServ := [0]
  vecSlot := []
  heap := fun _ => Server.new (ascii "a") 7000 [true]
  fresh := 1

theorem findServer_refreshed_twoNodes :
    ∃ c' server, loadClusterSlots twoNodes oneServer = some (c', true) ∧
      findServer c' 9000 = some server ∧ (c'.heap server).vecHosts = [(ascii "b", 7001)] := by
  obtain ⟨c', hload⟩ : ∃ c', loadClusterSlots twoNodes oneServer = some (c', true) := ⟨_, rfl⟩
  obtain ⟨s, -, reply, vecSlot, hreply, hfetched, hroutes⟩ := findServer_refreshed hload
  obtain rfl := Option.some.inj hreply
  obtain rfl := Fetched.success.inj hfetched
  obtain ⟨hfound, -⟩ := hroutes ⟨by decide, by decide⟩ (by decide) 9000
  obtain ⟨server, -, hserver, hendpoint⟩ := hfound _ List.mem_cons_self ⟨by decide, by decide⟩
  exact ⟨c', server, hload, hserver, hendpoint⟩

end Refresh

end BoostChat.Redis
