import BoostChat.Server.HsLogger
import BoostChat.Server.UserSession
import Mathlib.Data.List.AList

/-!
# Parties and the party manager

`Party` and `PartyManager`. The member list is a list of account ids;
`m_MapParties` is an association list with distinct keys. An `unordered_map` is
iterated in an unspecified order, so each look-up by name takes the order of that
iteration as an argument (`IterOrder`).

`CreateParty` and its siblings receive the session only for its account id, which
is what they take here. The lines that a function logs stand beside it (`…Lines`).
-/

namespace BoostChat.Server

open Lib

structure Party where
  partyId : UInt32
  partyName : Bytes
  partyCreator : UInt32
  members : List UInt32 := []
deriving DecidableEq

def Party.addMember (party : Party) (userId : UInt32) : Party :=
  { party with members := party.members ++ [userId] }

/-- `Party::RemoveMember`: every occurrence goes. -/
def Party.removeMember (party : Party) (userId : UInt32) : Party :=
  { party with members := party.members.filter fun sid => sid != userId }

namespace Party

variable (party : Party)

def partyLine : Bytes :=
  ascii "Party Created: ID=" ++ Logger.signed party.partyId ++ ascii ", Creator=" ++
    Logger.signed party.partyCreator ++ ascii ", Name=" ++ cString party.partyName

/-- The line of the destructor. -/
def destroyedLine : Bytes :=
  ascii "Party " ++ cString party.partyName ++ ascii " is being destroyed. Cleaning up members."

def printMembersLine : Bytes :=
  ascii "Member List: " ++ party.members.flatMap fun userId => decimal userId.toNat ++ ascii " "

def addMemberLines (userId : UInt32) : List Bytes :=
  [ascii "Add Member in Party " ++ cString party.partyName ++ ascii ": " ++ Logger.signed userId,
    (party.addMember userId).printMembersLine]

def removeMemberLines (userId : UInt32) : List Bytes :=
  [ascii "Remove Member in Party " ++ cString party.partyName ++ ascii ": " ++
      Logger.signed userId,
    (party.removeMember userId).printMembersLine]

end Party

/-- `std::unordered_map<uint32_t, std::shared_ptr<Party>>`. -/
abbrev PartyMap := AList fun _ : UInt32 => Party

/-- An order in which a `PartyMap` is iterated. -/
structure IterOrder where
  iter : PartyMap → List (Sigma fun _ : UInt32 => Party)
  perm : ∀ m, (iter m).Perm m.entries

/-- The order of the association list itself. -/
def IterOrder.entries : IterOrder := ⟨AList.entries, fun _ => List.Perm.refl _⟩

structure PartyManager where
  partyIdCounter : UInt32 := 100000
  mapParties : PartyMap := ∅

namespace PartyManager

/-- The first party with the name in the order of iteration. -/
def findPartyByName (ord : IterOrder) (pm : PartyManager) (partyName : Bytes) : Option Party :=
  ((ord.iter pm.mapParties).find? fun entry => entry.2.partyName == partyName).map (·.2)

def isPartyNameTaken (ord : IterOrder) (pm : PartyManager) (partyName : Bytes) : Bool :=
  (ord.iter pm.mapParties).any fun pair => pair.2.partyName == partyName

def findPartyById (pm : PartyManager) (partyId : UInt32) : Option Party :=
  pm.mapParties.lookup partyId

/-- Writes a party through the pointer that the map holds for it. -/
def store (pm : PartyManager) (party : Party) : PartyManager :=
  { pm with mapParties := pm.mapParties.insert party.partyId party }

/-- `PartyManager::CreateParty` for a session of account `userId`. -/
def createParty (pm : PartyManager) (userId : UInt32) (partyName : Bytes) :
    PartyManager × Option Party :=
  if partyName = [] then (pm, none)
  else
    let party : Party := { partyId := pm.partyIdCounter, partyCreator := userId, partyName }
    let party := party.addMember userId
    (({ pm with partyIdCounter := pm.partyIdCounter + 1 } : PartyManager).store party, some party)

/-- A party that the map held under the new id is destroyed. -/
def createPartyLines (pm : PartyManager) (userId : UInt32) (partyName : Bytes) : List Bytes :=
  if partyName = [] then []
  else
    let party : Party := { partyId := pm.partyIdCounter, partyCreator := userId, partyName }
    party.partyLine :: party.addMemberLines userId ++
      (pm.mapParties.lookup party.partyId).toList.map Party.destroyedLine

/-- `PartyManager::JoinParty`. -/
def joinParty (ord : IterOrder) (pm : PartyManager) (userId : UInt32) (partyName : Bytes) :
    PartyManager × Option Party :=
  match pm.findPartyByName ord partyName with
  | none => (pm, none)
  | some party => (pm.store (party.addMember userId), some (party.addMember userId))

def joinPartyLines (ord : IterOrder) (pm : PartyManager) (userId : UInt32) (partyName : Bytes) :
    List Bytes :=
  match pm.findPartyByName ord partyName with
  | none => [ascii "Not found party: " ++ cString partyName]
  | some party => party.addMemberLines userId ++
      [ascii "User " ++ decimal userId.toNat ++ ascii " joined party " ++ cString partyName]

/-- `PartyManager::DeleteParty`: the id of the deleted party, `0` for a refusal. -/
def deleteParty (ord : IterOrder) (pm : PartyManager) (userId : UInt32) (partyName : Bytes) :
    PartyManager × UInt32 :=
  match pm.findPartyByName ord partyName with
  | none => (pm, 0)
  | some party =>
    if party.partyCreator = userId then
      if party.partyId ∈ pm.mapParties then
        ({ pm with mapParties := pm.mapParties.erase party.partyId }, party.partyId)
      else (pm, 0)
    else (pm, 0)

/-- The last line is logged by the destructor of the deleted party, out of which an exception
ends the process at once. -/
def deletePartyLines (ord : IterOrder) (pm : PartyManager) (userId : UInt32)
    (partyName : Bytes) : List Bytes :=
  match pm.findPartyByName ord partyName with
  | none => [ascii "Not found party: " ++ cString partyName]
  | some party =>
    if party.partyCreator = userId then
      if party.partyId ∈ pm.mapParties then
        [ascii "[SERVER] Deleted party: " ++ cString partyName, party.destroyedLine]
      else []
    else [ascii "[SERVER] Fail Deleted Party : " ++ cString partyName]

/-- `PartyManager::LeaveParty`. -/
def leaveParty (ord : IterOrder) (pm : PartyManager) (userId : UInt32) (partyName : Bytes) :
    PartyManager × Bool :=
  match pm.findPartyByName ord partyName with
  | none => (pm, false)
  | some party =>
    if party.partyCreator = userId then (pm, false)
    else (pm.store (party.removeMember userId), true)

def leavePartyLines (ord : IterOrder) (pm : PartyManager) (userId : UInt32) (partyName : Bytes) :
    List Bytes :=
  match pm.findPartyByName ord partyName with
  | none => [ascii "[SERVER] Not found party: " ++ cString partyName]
  | some party =>
    if party.partyCreator = userId then []
    else party.removeMemberLines userId ++
      [ascii "User " ++ decimal userId.toNat ++ ascii " left the party " ++ cString partyName]

/-- The party found by name is one of the map's, whatever the order of iteration. -/
theorem findPartyByName_mem {ord : IterOrder} {pm : PartyManager} {partyName : Bytes}
    {party : Party} (h : pm.findPartyByName ord partyName = some party) :
    party.partyName = partyName ∧ ∃ key, pm.mapParties.lookup key = some party := by
  rw [findPartyByName, Option.map_eq_some_iff] at h
  obtain ⟨⟨key, p⟩, hfind, rfl⟩ := h
  refine ⟨by simpa using List.find?_some hfind, key, ?_⟩
  exact AList.mem_lookup_iff.mpr ((ord.perm _).mem_iff.mp (List.mem_of_find?_eq_some hfind))

end PartyManager

end BoostChat.Server
