import BoostChat.Redis.ClusterSlots
import BoostChat.Lib.Transition

/-!
# Requests and refreshes of the Redis client

Any number of threads send requests: `SimpleExecute` holds the shared lock while it finds the
server, fetches a connection, uses it and returns it. The thread of the client refreshes the
servers under the exclusive lock, and deletes the old ones with their connections. A pipeline,
and a command that goes to every server, takes no lock and is not a request here.

* `Sys`, `step` — the client, its own thread and the requests, in any interleaving;
* `Supplied`, `Inv` — the invariant;
* `connections_exclusive` — whoever uses a connection is the only one, and its server has
  not been deleted;
* `connections_kept` — no connection is lost, so a request finds none only while another one
  uses it.
-/

namespace BoostChat.Redis

open Lib

abbrev ConnRef := Nat

def RQST_RETRY_TIMES : Nat := 3

/-- Where a request is in `SimpleExecute`. -/
inductive Request
  /-- The shared lock is held. -/
  | locked (nSlot : Option Int32)
  /-- The loop of `ServRequest`, with the tries that are left. -/
  | fetching (nSlot : Option Int32) (server : ServerRef) (nTry : Nat)
  /-- `ConnRequest` is called. -/
  | requesting (nSlot : Option Int32) (server : ServerRef) (conn : ConnRef)
  /-- The lock is released next. -/
  | answered
deriving DecidableEq

/-- Where the thread of the client is in its loop. -/
inductive Refresher
  | outside
  /-- The exclusive lock is held. -/
  | locked
  /-- `m_condAny.wait` has released the lock. -/
  | waiting
  | refreshing
  /-- The lock is released next. -/
  | refreshed
deriving DecidableEq

/-- The exclusive lock is held. -/
def Refresher.holds : Refresher → Bool
  | .outside | .waiting => false
  | .locked | .refreshing | .refreshed => true

structure Sys where
  client : CRedisClient
  bCluster : Bool
  bValid : Bool := true
  /-- The servers that are not deleted. -/
  alive : ServerRef → Bool
  queIdleConn : ServerRef → List ConnRef
  freshConn : ConnRef
  refresher : Refresher := .outside
  requests : List Request := []
  /-- The connections that a server got at first; no step reads them. -/
  given : ServerRef → List ConnRef

namespace Sys

/-- A request under the exclusive lock: the first idle connection goes to the end. -/
def ask (s : Sys) (server : ServerRef) : Sys :=
  { s with
    queIdleConn := Function.update s.queIdleConn server ((s.queIdleConn server).rotate 1) }

/-- A server gets connections in the place of those that it had, and asks for the timeout. -/
def connect (s : Sys) (server : ServerRef) (count : Nat) : Sys :=
  ask { s with
    alive := Function.update s.alive server true
    queIdleConn := Function.update s.queIdleConn server (List.range' s.freshConn count)
    freshConn := s.freshConn + count
    given := Function.update s.given server (List.range' s.freshConn count) } server

/-- A server is deleted with its connections. -/
def delete (s : Sys) (server : ServerRef) : Sys :=
  { s with
    alive := Function.update s.alive server false
    queIdleConn := Function.update s.queIdleConn server [] }

/-- `GetMatchedServer` -/
def getMatchedServer (s : Sys) (nSlot : Option Int32) : Option ServerRef :=
  if s.bCluster then
    match nSlot with
    | some nSlot => findServer s.client nSlot
    | none => s.client.vecRedisServ.find? fun server => !(s.queIdleConn server).isEmpty
  else s.client.vecRedisServ.head?

/-- The servers that `LoadClusterSlots` asks. -/
def asked (w : World) : List ServerRef → List ServerRef
  | [] => []
  | server :: rest =>
    if w.isValid server then
      match (w.reply server).map fetchSlot with
      | some .replyErr | none => server :: asked w rest
      | some (.success _) | some .undefined => [server]
    else []

/-- The refresh under the exclusive lock, when it is defined. -/
def refresh (s : Sys) (w : World) : Option Sys :=
  let w := { w with isValid := fun server => !(s.queIdleConn server).isEmpty }
  let connect (s : Sys) (server : ServerRef) := s.connect server ((w.attempts server).count true)
  if s.bCluster then
    match loadClusterSlots w s.client with
    | none => none
    | some (_, false) => some { (asked w s.client.vecRedisServ).foldl ask s with bValid := false }
    | some (client, true) =>
      let created := client.vecRedisServ.foldl connect s
      -- `CleanServer`
      some { s.client.vecRedisServ.foldl delete created with client, bValid := true }
  else
    match s.client.vecRedisServ with
    | [] => none
    | server :: _ =>
      let s := connect s server
      some { s with bValid := !(s.queIdleConn server).isEmpty }

/-- The client with its first server, which has no connection yet. -/
def unconnected (bCluster : Bool) (server : Server) : Sys where
  client := { vecRedisServ := [0], vecSlot := [], heap := fun _ => server, fresh := 1 }
  bCluster := bCluster
  alive := fun _ => false
  queIdleConn := fun _ => []
  freshConn := 0
  given := fun _ => []

/-- `Initialize`, when it succeeds: the first server, its answer to `info`, and the refresh of
a cluster. -/
def initializeClient (bCluster : Bool) (strHost : Bytes) (nPort : Int32) (w : World) : Option Sys :=
  if (w.attempts 0).any id then
    let s := unconnected bCluster (Server.new strHost nPort (w.attempts 0 ++ w.reconnects 0))
    let s := (s.connect 0 ((w.attempts 0).count true)).ask 0
    if bCluster then (s.refresh w).filter (·.bValid) else some s
  else none

end Sys

inductive Action
  /-- A thread gets the shared lock for a command. -/
  | enter (nSlot : Option Int32)
  | match (k : Nat)
  | fetch (k : Nat)
  | answer (k : Nat)
  | leave (k : Nat)
  | lock
  | check
  | wake
  | refresh (w : World)
  | unlock

def step (s : Sys) : Action → Option Sys
  | .enter nSlot =>
    if s.refresher.holds = false then some { s with requests := s.requests ++ [.locked nSlot] }
    else none
  | .match k =>
    match s.requests[k]? with
    | some (.locked nSlot) =>
      match (if s.bValid then s.getMatchedServer nSlot else none) with
      | some server =>
        some { s with requests := s.requests.set k (.fetching nSlot server RQST_RETRY_TIMES) }
      | none => some { s with requests := s.requests.set k .answered }
    | _ => none
  | .fetch k =>
    match s.requests[k]? with
    | some (.fetching nSlot server nTry) =>
      match nTry, s.queIdleConn server with
      -- `RC_NO_RESOURCE`
      | 0, _ => some { s with requests := s.requests.set k .answered }
      | nTry + 1, [] => some { s with requests := s.requests.set k (.fetching nSlot server nTry) }
      | _ + 1, conn :: rest => some { s with
        queIdleConn := Function.update s.queIdleConn server rest
        requests := s.requests.set k (.requesting nSlot server conn) }
    | _ => none
  | .answer k =>
    match s.requests[k]? with
    | some (.requesting _ server conn) => some { s with
      queIdleConn := Function.update s.queIdleConn server (s.queIdleConn server ++ [conn])
      requests := s.requests.set k .answered }
    | _ => none
  | .leave k =>
    match s.requests[k]? with
    | some .answered => some { s with requests := s.requests.eraseIdx k }
    | _ => none
  | .lock =>
    if s.refresher = .outside ∧ s.requests = [] then some { s with refresher := .locked } else none
  | .check =>
    if s.refresher = .locked then
      some { s with refresher := if s.bValid then .waiting else .refreshing }
    else none
  -- notified or not
  | .wake =>
    if s.refresher = .waiting ∧ s.requests = [] then some { s with refresher := .refreshing }
    else none
  | .refresh w =>
    if s.refresher = .refreshing then
      (s.refresh w).map fun s => { s with refresher := .refreshed }
    else none
  | .unlock => if s.refresher = .refreshed then some { s with refresher := .outside } else none

/-! ## Requests and connections -/

/-- The server of a request that has one. -/
def Request.server? : Request → Option ServerRef
  | .fetching _ server _ | .requesting _ server _ => some server
  | .locked _ | .answered => none

/-- The connection of the server that a request uses. -/
def Request.uses (server : ServerRef) : Request → Option ConnRef
  | .requesting _ server' conn => if server' = server then some conn else none
  | .locked _ | .fetching .. | .answered => none

/-- The connections of the server that are in use. -/
def Sys.held (s : Sys) (server : ServerRef) : List ConnRef :=
  s.requests.filterMap (·.uses server)

/-- All connections of the server. -/
def Sys.conns (s : Sys) (server : ServerRef) : List ConnRef :=
  s.held server ++ s.queIdleConn server

section Conns

variable {s : Sys} {k : Nat} {server : ServerRef} {old new : Request}

theorem filterMap_uses_cons (server : ServerRef) (request : Request) (requests : List Request) :
    (request :: requests).filterMap (·.uses server) =
      (request.uses server).toList ++ requests.filterMap (·.uses server) := by
  rw [List.filterMap_cons]
  cases request.uses server <;> rfl

/-- What the other requests use. -/
def Sys.heldByOthers (s : Sys) (k : Nat) (server : ServerRef) : List ConnRef :=
  (s.requests.eraseIdx k).filterMap (·.uses server)

theorem Sys.held_perm (hk : s.requests[k]? = some old) (server : ServerRef) :
    (s.held server).Perm ((old.uses server).toList ++ s.heldByOthers k server) := by
  obtain ⟨hlt, rfl⟩ := List.getElem?_eq_some_iff.mp hk
  rw [Sys.heldByOthers, ← filterMap_uses_cons]
  exact ((List.getElem_cons_eraseIdx_perm hlt).filterMap _).symm

/-- **Conservation.** A request takes a step that leaves the connections of a server together:
those that it and the queue have. -/
theorem Sys.conns_replace (hk : s.requests[k]? = some old) {queIdleConn : List ConnRef}
    (h : ((old.uses server).toList ++ s.queIdleConn server).Perm
      ((new.uses server).toList ++ queIdleConn)) :
    ((s.requests.set k new).filterMap (·.uses server) ++ queIdleConn).Perm (s.conns server) := by
  have hlt := (List.getElem?_eq_some_iff.mp hk).1
  have hset : ((s.requests.set k new).filterMap (·.uses server)).Perm
      ((new.uses server).toList ++ s.heldByOthers k server) := by
    rw [Sys.heldByOthers, ← filterMap_uses_cons]
    exact (List.set_perm_cons_eraseIdx hlt new).filterMap _
  have hswap (uses others queue : List ConnRef) :
      ((uses ++ others) ++ queue).Perm (others ++ (uses ++ queue)) := by
    rw [← List.append_assoc]
    exact List.perm_append_comm.append_right queue
  have hafter := (hset.append_right queIdleConn).trans (hswap _ _ _)
  have hbefore := ((Sys.held_perm hk server).append_right (s.queIdleConn server)).trans
    (hswap _ _ _)
  exact (hafter.trans (h.symm.append_left _)).trans hbefore.symm

end Conns

/-! ## The servers of the client -/

/-- A server that is there, with all connections that it got. -/
structure Stocked (s : Sys) (server : ServerRef) : Prop where
  alive : s.alive server = true
  kept : (s.conns server).Perm (s.given server)
  nodup : (s.given server).Nodup
  below : ∀ conn ∈ s.given server, conn < s.freshConn

/-- Such servers, none of which shares a connection with another. -/
structure Supplied (s : Sys) (servers : List ServerRef) : Prop where
  stocked : ∀ server ∈ servers, Stocked s server
  apart : servers.Pairwise fun server server' => (s.given server).Disjoint (s.given server')

section Supplied

variable {s : Sys} {servers : List ServerRef} {server server' : ServerRef}

theorem Supplied.nil (s : Sys) : Supplied s [] :=
  ⟨nofun, .nil⟩

theorem Sys.conns_of_idle (hidle : s.requests = []) (server : ServerRef) :
    s.conns server = s.queIdleConn server := by
  rw [Sys.conns, Sys.held, hidle]
  rfl

/-- A request under the exclusive lock. -/
theorem Stocked.ask (h : Stocked s server) (server' : ServerRef) :
    Stocked (s.ask server') server := by
  refine ⟨h.alive, List.Perm.trans (List.Perm.append_left _ ?_) h.kept, h.nodup, h.below⟩
  dsimp only [Sys.ask]
  by_cases heq : server = server'
  · subst heq
    rw [Function.update_self]
    exact List.rotate_perm _ _
  · rw [Function.update_of_ne heq]

theorem Supplied.ask (h : Supplied s servers) (server : ServerRef) :
    Supplied (s.ask server) servers :=
  ⟨fun server' hserver' => (h.stocked server' hserver').ask server, h.apart⟩

theorem Sys.given_connect (s : Sys) (server : ServerRef) (count : Nat) :
    (s.connect server count).given server = List.range' s.freshConn count :=
  Function.update_self ..

theorem Sys.given_connect_of_ne (hne : server' ≠ server) (count : Nat) :
    (s.connect server count).given server' = s.given server' :=
  Function.update_of_ne hne ..

/-- A server gets its connections. -/
theorem Stocked.connect (hidle : s.requests = []) (server : ServerRef) (count : Nat) :
    Stocked (s.connect server count) server := by
  refine Stocked.ask ⟨Function.update_self .., ?_, ?_, ?_⟩ server
  · rw [Sys.conns_of_idle (by exact hidle)]
    dsimp only
    rw [Function.update_self, Function.update_self]
  · dsimp only
    rw [Function.update_self]
    exact List.nodup_range'
  · dsimp only
    rw [Function.update_self]
    exact fun conn hconn => (List.mem_range'_1.mp hconn).2

/-- The other servers keep theirs. -/
theorem Stocked.connect_of_ne (h : Stocked s server') (hne : server' ≠ server) (count : Nat) :
    Stocked (s.connect server count) server' := by
  refine Stocked.ask ⟨?_, ?_, ?_, ?_⟩ server
  · exact (Function.update_of_ne hne ..).trans h.alive
  · have hkept := h.kept
    rw [Sys.conns] at hkept ⊢
    dsimp only
    rw [Function.update_of_ne hne, Function.update_of_ne hne]
    exact hkept
  · dsimp only
    rw [Function.update_of_ne hne]
    exact h.nodup
  · dsimp only
    rw [Function.update_of_ne hne]
    exact fun conn hconn => Nat.lt_add_right _ (h.below conn hconn)

/-- One more server. -/
theorem Supplied.connect (h : Supplied s servers) (hidle : s.requests = [])
    (hnew : server ∉ servers) (count : Nat) :
    Supplied (s.connect server count) (servers ++ [server]) := by
  have hne {server'} (hserver' : server' ∈ servers) : server' ≠ server := fun heq =>
    hnew (heq ▸ hserver')
  refine ⟨List.forall_mem_append.mpr ⟨fun server' hserver' => ?_, ?_⟩,
    List.pairwise_append.mpr ⟨?_, List.pairwise_singleton _ _, ?_⟩⟩
  · exact (h.stocked server' hserver').connect_of_ne (hne hserver') count
  · exact List.forall_mem_singleton.mpr (Stocked.connect hidle server count)
  · refine h.apart.imp_of_mem fun {a b} ha hb hab => ?_
    rwa [Sys.given_connect_of_ne (hne ha), Sys.given_connect_of_ne (hne hb)]
  · rintro a ha b (_ | ⟨_, ⟨⟩⟩)
    rw [Sys.given_connect_of_ne (hne ha), Sys.given_connect]
    -- the new connections are not the old ones
    intro conn hconn hrange
    have hlt := (h.stocked a ha).below conn hconn
    exact absurd hlt (Nat.not_lt.mpr (List.mem_range'_1.mp hrange).1)

/-- The connections that the servers of a refresh are given. -/
theorem Sys.given_connectAll (counts : ServerRef → Nat) {servers : List ServerRef}
    (hnodup : servers.Nodup) (s : Sys) :
    (∀ server ∉ servers, (servers.foldl (fun s server => s.connect server (counts server)) s).given
      server = s.given server) ∧
    ∀ server ∈ servers, ((servers.foldl (fun s server => s.connect server (counts server)) s).given
      server).length = counts server := by
  induction servers generalizing s with
  | nil => exact ⟨fun _ _ => rfl, nofun⟩
  | cons first rest ih =>
    rw [List.nodup_cons] at hnodup
    obtain ⟨hothers, hlength⟩ := ih hnodup.2 (s.connect first (counts first))
    rw [List.foldl_cons]
    refine ⟨fun server hserver => ?_, List.forall_mem_cons.mpr ⟨?_, hlength⟩⟩
    · rw [List.mem_cons, not_or] at hserver
      rw [hothers server hserver.2, Sys.given_connect_of_ne hserver.1]
    · rw [hothers first hnodup.1, Sys.given_connect, List.length_range']

/-- **Loop lemma.** All servers of a refresh. -/
theorem Supplied.connectAll {old new : List ServerRef} (h : Supplied s old)
    (hidle : s.requests = []) (hnodup : (old ++ new).Nodup) (counts : ServerRef → Nat) :
    Supplied (new.foldl (fun s server => s.connect server (counts server)) s) (old ++ new) := by
  induction new generalizing s old with
  | nil =>
    rw [List.append_nil]
    exact h
  | cons first rest ih =>
    rw [List.append_cons] at hnodup ⊢
    have hfirst : first ∉ old := fun hmem =>
      (List.nodup_append.mp hnodup.of_append_left).2.2 first hmem first List.mem_cons_self rfl
    exact ih (h.connect hidle hfirst _) hidle hnodup

/-- `CleanServer` deletes other servers. -/
theorem Supplied.deleteAll {deleted : List ServerRef} (h : Supplied s servers)
    (hothers : ∀ server ∈ deleted, server ∉ servers) :
    Supplied (deleted.foldl Sys.delete s) servers := by
  induction deleted generalizing s with
  | nil => exact h
  | cons first rest ih =>
    rw [List.forall_mem_cons] at hothers
    refine ih ⟨fun server hserver => ?_, h.apart⟩ hothers.2
    have hne : server ≠ first := fun heq => hothers.1 (heq ▸ hserver)
    have hstocked := h.stocked server hserver
    refine ⟨(Function.update_of_ne hne ..).trans hstocked.alive, ?_, hstocked.nodup,
      hstocked.below⟩
    have hkept := hstocked.kept
    rw [Sys.conns] at hkept ⊢
    dsimp only [Sys.delete]
    rw [Function.update_of_ne hne]
    exact hkept

/-- The requests of a refresh that fails. -/
theorem Supplied.askAll (h : Supplied s servers) (asked : List ServerRef) :
    Supplied (asked.foldl Sys.ask s) servers := by
  induction asked generalizing s with
  | nil => exact h
  | cons first rest ih => exact ih (h.ask first)

theorem Supplied.congr {t : Sys} (h : Supplied s servers) (halive : t.alive = s.alive)
    (hqueue : t.queIdleConn = s.queIdleConn) (hrequests : t.requests = s.requests)
    (hgiven : t.given = s.given) (hfresh : t.freshConn = s.freshConn) : Supplied t servers := by
  refine ⟨fun server hserver => ?_, ?_⟩
  · have hstocked := h.stocked server hserver
    refine ⟨halive ▸ hstocked.alive, ?_, hgiven ▸ hstocked.nodup, ?_⟩
    · rw [Sys.conns, Sys.held, hqueue, hrequests, hgiven]
      exact hstocked.kept
    · rw [hgiven, hfresh]
      exact hstocked.below
  · rw [hgiven]
    exact h.apart

end Supplied

/-! ## The refresh -/

/-- What holds while no request is under way, and what requests keep. -/
structure Ready (s : Sys) : Prop where
  supplied : Supplied s s.client.vecRedisServ
  /-- A valid client has a connection to each server. -/
  connected : s.bValid = true → ∀ server ∈ s.client.vecRedisServ, s.given server ≠ []
  below : ∀ server ∈ s.client.vecRedisServ, server < s.client.fresh
  regions : ∀ r ∈ s.client.vecSlot, ∀ server, r.pRedisServ = some server →
    server ∈ s.client.vecRedisServ
  single : s.bCluster = false → s.client.vecRedisServ.length ≤ 1

section Refresh

variable {s t : Sys} {w : World}

/-! What the loops of a refresh leave alone. -/

theorem Sys.askAll_eq (asked : List ServerRef) (s : Sys) :
    ∃ queIdleConn, asked.foldl ask s = { s with queIdleConn } := by
  induction asked generalizing s with
  | nil => exact ⟨_, rfl⟩
  | cons first rest ih => exact ih (s.ask first)

theorem Sys.connectAll_eq (counts : ServerRef → Nat) (servers : List ServerRef) (s : Sys) :
    ∃ alive queIdleConn freshConn given,
      servers.foldl (fun s server => s.connect server (counts server)) s =
        { s with alive, queIdleConn, freshConn, given } := by
  induction servers generalizing s with
  | nil => exact ⟨_, _, _, _, rfl⟩
  | cons first rest ih => exact ih (s.connect first (counts first))

theorem Sys.deleteAll_eq (deleted : List ServerRef) (s : Sys) :
    ∃ alive queIdleConn, deleted.foldl delete s = { s with alive, queIdleConn } := by
  induction deleted generalizing s with
  | nil => exact ⟨_, _, rfl⟩
  | cons first rest ih => exact ih (s.delete first)

theorem count_pos_of_any {attempts : List Bool} (h : attempts.any id = true) :
    0 < attempts.count true := by
  obtain ⟨connected, hmem, htrue⟩ := List.any_eq_true.mp h
  exact List.count_pos_iff.mpr (htrue ▸ hmem)

/-- **A refresh of a cluster that succeeds.** -/
theorem Ready.refreshed (h : Ready s) (hidle : s.requests = []) {client : CRedisClient}
    (hcluster : s.bCluster = true) (hload : loadClusterSlots w s.client = some (client, true)) :
    let created := client.vecRedisServ.foldl
      (fun s server => s.connect server ((w.attempts server).count true)) s
    Ready { s.client.vecRedisServ.foldl Sys.delete created with client, bValid := true } := by
  intro created
  obtain ⟨hcreated, hregions⟩ := loadClusterSlots_created hload
  have hsupplied : Supplied created client.vecRedisServ :=
    Supplied.connectAll (Supplied.nil s) hidle hcreated.nodup _
  have hothers : ∀ server ∈ s.client.vecRedisServ, server ∉ client.vecRedisServ :=
    fun server hold hnew =>
      absurd (h.below server hold) (Nat.not_lt.mpr (hcreated.new server hnew).1)
  have hlengths := (Sys.given_connectAll (fun server => (w.attempts server).count true)
    hcreated.nodup s).2
  obtain ⟨_, _, hdeleted⟩ := Sys.deleteAll_eq s.client.vecRedisServ created
  obtain ⟨_, _, _, _, hconnected⟩ := Sys.connectAll_eq
    (fun server => (w.attempts server).count true) client.vecRedisServ s
  refine ⟨(hsupplied.deleteAll hothers).congr rfl rfl rfl rfl rfl, fun _ server hserver => ?_,
    fun server hserver => (hcreated.new server hserver).2.1, hregions, fun hsingle => ?_⟩
  · have hpos := count_pos_of_any (hcreated.new server hserver).2.2
    rw [← hlengths server hserver] at hpos
    rw [hdeleted]
    exact List.ne_nil_of_length_pos hpos
  · have hmode : created.bCluster = s.bCluster := by
      dsimp only [created]
      rw [hconnected]
    rw [hdeleted] at hsingle
    dsimp only at hsingle
    rw [hmode, hcluster] at hsingle
    cases hsingle

/-- A refresh without a cluster. -/
theorem Ready.reconnected (h : Ready s) (hidle : s.requests = []) (hcluster : s.bCluster = false)
    {server : ServerRef} {rest : List ServerRef} (hvec : s.client.vecRedisServ = server :: rest)
    (count : Nat) : Ready { s.connect server count with
      bValid := !((s.connect server count).queIdleConn server).isEmpty } := by
  obtain rfl : rest = [] := by
    have hsingle := h.single hcluster
    rw [hvec, List.length_cons] at hsingle
    exact List.length_eq_zero_iff.mp (by omega)
  have hsupplied : Supplied (s.connect server count) s.client.vecRedisServ := by
    rw [hvec]
    exact (Supplied.nil s).connect hidle List.not_mem_nil count
  refine ⟨hsupplied.congr rfl rfl rfl rfl rfl,
    fun (hvalid : (!((s.connect server count).queIdleConn server).isEmpty) = true) server'
      (hserver' : server' ∈ s.client.vecRedisServ)
      (hnone : (s.connect server count).given server' = []) => ?_, h.below, h.regions, h.single⟩
  have hkept := (hsupplied.stocked server' hserver').kept
  rw [hvec, List.mem_singleton] at hserver'
  subst hserver'
  rw [Sys.conns_of_idle (by exact hidle), hnone] at hkept
  rw [hkept.eq_nil] at hvalid
  cases hvalid

/-- **Refresh.** Whether it succeeds or fails, the servers are ready for requests again. -/
theorem Ready.refresh (h : Ready s) (hidle : s.requests = []) (hrefresh : s.refresh w = some t) :
    Ready t ∧ t.requests = [] := by
  rw [Sys.refresh] at hrefresh
  dsimp only at hrefresh
  split_ifs at hrefresh with hcluster
  · split at hrefresh
    · cases hrefresh
    · obtain rfl := Option.some.inj hrefresh
      have hsupplied := h.supplied.askAll
        (Sys.asked { w with isValid := fun server => !(s.queIdleConn server).isEmpty }
          s.client.vecRedisServ)
      obtain ⟨_, heq⟩ := Sys.askAll_eq
        (Sys.asked { w with isValid := fun server => !(s.queIdleConn server).isEmpty }
          s.client.vecRedisServ) s
      rw [heq] at hsupplied ⊢
      exact ⟨⟨hsupplied.congr rfl rfl rfl rfl rfl, nofun, h.below, h.regions, h.single⟩, hidle⟩
    · rename_i client hload
      obtain rfl := Option.some.inj hrefresh
      have hready := h.refreshed hidle hcluster hload
      refine ⟨hready, ?_⟩
      obtain ⟨_, _, hdeleted⟩ := Sys.deleteAll_eq s.client.vecRedisServ
        (client.vecRedisServ.foldl
          (fun s server => s.connect server ((w.attempts server).count true)) s)
      obtain ⟨_, _, _, _, hconnected⟩ := Sys.connectAll_eq
        (fun server => (w.attempts server).count true) client.vecRedisServ s
      rw [hdeleted, hconnected]
      exact hidle
  · split at hrefresh
    · cases hrefresh
    · rename_i server rest hvec
      obtain rfl := Option.some.inj hrefresh
      exact ⟨h.reconnected hidle (Bool.eq_false_iff.mpr hcluster) hvec _, hidle⟩

end Refresh

/-! ## Requests and refreshes -/

structure Inv (s : Sys) : Prop extends Ready s where
  /-- The exclusive lock excludes requests. -/
  alone : s.refresher.holds = true → s.requests = []
  /-- A request with a server holds the lock since the client was valid. -/
  served : ∀ request ∈ s.requests, ∀ server, request.server? = some server →
    server ∈ s.client.vecRedisServ ∧ s.bValid = true

section Inv

variable {s t : Sys} {k : Nat} {old new : Request}

/-- While there are requests the exclusive lock is free. -/
theorem Inv.free (h : Inv s) (hk : s.requests[k]? = some old) : s.refresher.holds = false := by
  refine Bool.eq_false_iff.mpr fun hholds => ?_
  rw [h.alone hholds, List.getElem?_nil] at hk
  cases hk

/-- **Requests** move connections, and lose none. -/
theorem Inv.move (h : Inv s) (hfree : s.refresher.holds = false)
    {queIdleConn : ServerRef → List ConnRef} {requests : List Request}
    (hconns : ∀ server, (requests.filterMap (·.uses server) ++ queIdleConn server).Perm
      (s.conns server))
    (hserved : ∀ request ∈ requests, ∀ server, request.server? = some server →
      server ∈ s.client.vecRedisServ ∧ s.bValid = true) :
    Inv { s with queIdleConn, requests } := by
  refine ⟨⟨⟨fun server hserver => ?_, h.supplied.apart⟩, h.connected, h.below, h.regions,
    h.single⟩, fun hholds => ?_, hserved⟩
  · have hstocked := h.supplied.stocked server hserver
    exact ⟨hstocked.alive, (hconns server).trans hstocked.kept, hstocked.nodup, hstocked.below⟩
  · exact absurd (hfree.symm.trans hholds) Bool.false_ne_true

/-- One request takes a step. -/
theorem Inv.replace (h : Inv s) (hk : s.requests[k]? = some old)
    {queIdleConn : ServerRef → List ConnRef}
    (hconns : ∀ server, ((old.uses server).toList ++ s.queIdleConn server).Perm
      ((new.uses server).toList ++ queIdleConn server))
    (hserved : ∀ server, new.server? = some server →
      server ∈ s.client.vecRedisServ ∧ s.bValid = true) :
    Inv { s with queIdleConn, requests := s.requests.set k new } := by
  refine h.move (h.free hk) (fun server => Sys.conns_replace hk (hconns server)) ?_
  intro request hrequest
  rcases List.mem_or_eq_of_mem_set hrequest with hold | rfl
  · exact h.served request hold
  · exact hserved

/-- The thread of the client takes a step. -/
theorem Inv.advance (h : Inv s) {refresher : Refresher}
    (halone : refresher.holds = true → s.requests = []) : Inv { s with refresher } :=
  ⟨⟨h.supplied.congr rfl rfl rfl rfl rfl, h.connected, h.below, h.regions, h.single⟩, halone,
    h.served⟩

/-- `GetMatchedServer` finds one of the servers. -/
theorem Ready.getMatchedServer (h : Ready s) {nSlot : Option Int32} {server : ServerRef}
    (hmatched : s.getMatchedServer nSlot = some server) : server ∈ s.client.vecRedisServ := by
  unfold Sys.getMatchedServer at hmatched
  split_ifs at hmatched
  · cases nSlot with
    | none => exact List.mem_of_find?_eq_some hmatched
    | some nSlot =>
      dsimp only [findServer] at hmatched
      split_ifs at hmatched
      obtain ⟨r, hr, hserver⟩ := Option.bind_eq_some_iff.mp hmatched
      exact h.regions r (List.mem_of_getElem? hr) server hserver
  · exact List.mem_of_head? hmatched

/-- A request starts, with no connection. -/
theorem Inv.enter (h : Inv s) {nSlot : Option Int32}
    (hstep : Redis.step s (.enter nSlot) = some t) : Inv t := by
  obtain ⟨hfree, rfl⟩ := guarded_step hstep
  refine h.move hfree (fun server => ?_) (List.forall_mem_append.mpr ⟨h.served, ?_⟩)
  · rw [List.filterMap_append]
    exact List.Perm.of_eq (by rw [Sys.conns, Sys.held]; simp [Request.uses])
  · rintro _ (_ | ⟨_, ⟨⟩⟩) _ ⟨⟩

/-- It gets a server when the client is valid. -/
theorem Inv.matched (h : Inv s) (hstep : Redis.step s (.«match» k) = some t) : Inv t := by
  rw [Redis.step] at hstep
  split at hstep
  · rename_i nSlot hk
    split at hstep
    · rename_i server hmatched
      obtain rfl := Option.some.inj hstep
      refine h.replace hk (fun server => List.Perm.refl _) ?_
      rintro _ ⟨⟩
      split_ifs at hmatched with hvalid
      exact ⟨h.getMatchedServer hmatched, hvalid⟩
    · obtain rfl := Option.some.inj hstep
      exact h.replace hk (fun server => List.Perm.refl _) nofun
  · cases hstep

/-- A connection leaves the queue and is in use. -/
theorem Inv.fetch (h : Inv s) (hstep : Redis.step s (.fetch k) = some t) : Inv t := by
  rw [Redis.step] at hstep
  split at hstep
  · rename_i nSlot server nTry hk
    have hserver := h.served _ (List.mem_of_getElem? hk) server rfl
    split at hstep
    · obtain rfl := Option.some.inj hstep
      exact h.replace hk (fun server => List.Perm.refl _) nofun
    · obtain rfl := Option.some.inj hstep
      refine h.replace hk (fun server => List.Perm.refl _) ?_
      rintro _ ⟨⟩
      exact hserver
    · rename_i conn rest hidle
      obtain rfl := Option.some.inj hstep
      refine h.replace hk (fun server' => ?_) ?_
      · by_cases heq : server' = server
        · subst heq
          rw [Function.update_self, hidle, Request.uses, Request.uses, if_pos rfl]
          exact List.Perm.refl _
        · rw [Function.update_of_ne heq, Request.uses, Request.uses, if_neg (Ne.symm heq)]
      · rintro _ ⟨⟩
        exact hserver
  · cases hstep

/-- It comes back to the end of the queue. -/
theorem Inv.answer (h : Inv s) (hstep : Redis.step s (.answer k) = some t) : Inv t := by
  rw [Redis.step] at hstep
  split at hstep
  · rename_i nSlot server conn hk
    obtain rfl := Option.some.inj hstep
    refine h.replace hk (fun server' => ?_) nofun
    by_cases heq : server' = server
    · subst heq
      rw [Function.update_self, Request.uses, Request.uses, if_pos rfl]
      exact List.perm_append_comm
    · rw [Function.update_of_ne heq, Request.uses, Request.uses, if_neg (Ne.symm heq)]
  · cases hstep

theorem Inv.leave (h : Inv s) (hstep : Redis.step s (.leave k) = some t) : Inv t := by
  rw [Redis.step] at hstep
  split at hstep
  · rename_i hk
    obtain rfl := Option.some.inj hstep
    refine h.move (h.free hk) (fun server => ?_) fun request hrequest =>
      h.served request (List.mem_of_mem_eraseIdx hrequest)
    exact (Sys.held_perm hk server).symm.append_right _
  · cases hstep

/-- A refresh replaces the servers while there are no requests. -/
theorem Inv.refresh (h : Inv s) {w : World} (hstep : Redis.step s (.refresh w) = some t) :
    Inv t := by
  rw [Redis.step] at hstep
  split_ifs at hstep with hrefreshing
  obtain ⟨s', hrefresh, rfl⟩ := Option.map_eq_some_iff.mp hstep
  obtain ⟨hready, hidle⟩ := h.toReady.refresh (h.alone (hrefreshing ▸ rfl)) hrefresh
  refine ⟨⟨hready.supplied.congr rfl rfl rfl rfl rfl, hready.connected, hready.below,
    hready.regions, hready.single⟩, fun _ => hidle, fun request hrequest => ?_⟩
  rw [hidle] at hrequest
  cases hrequest

/-- **Step lemma.** -/
theorem Inv.step (h : Inv s) {a : Action} (hstep : Redis.step s a = some t) : Inv t := by
  cases a with
  | enter nSlot => exact h.enter hstep
  | «match» k => exact h.matched hstep
  | fetch k => exact h.fetch hstep
  | answer k => exact h.answer hstep
  | leave k => exact h.leave hstep
  -- the exclusive lock is got only when nobody holds the shared one
  | lock =>
    obtain ⟨⟨-, hidle⟩, rfl⟩ := guarded_step hstep
    exact h.advance fun _ => hidle
  | check =>
    obtain ⟨hlocked, rfl⟩ := guarded_step hstep
    exact h.advance fun _ => h.alone (hlocked ▸ rfl)
  | wake =>
    obtain ⟨⟨-, hidle⟩, rfl⟩ := guarded_step hstep
    exact h.advance fun _ => hidle
  | refresh w => exact h.refresh hstep
  | unlock =>
    obtain ⟨-, rfl⟩ := guarded_step hstep
    exact h.advance nofun

/-- Without requests the client is ready for them. -/
theorem Ready.inv (h : Ready s) (hidle : s.requests = []) : Inv s := by
  refine ⟨h, fun _ => hidle, fun request hrequest => ?_⟩
  rw [hidle] at hrequest
  cases hrequest

/-- The first server. -/
theorem ready_unconnected (bCluster : Bool) (server : Server) {count : Nat} (hpos : 0 < count) :
    Ready (((Sys.unconnected bCluster server).connect 0 count).ask 0) where
  supplied := (Supplied.connect (Supplied.nil _) rfl List.not_mem_nil count).ask 0
  connected := by
    rintro - _ (_ | ⟨_, ⟨⟩⟩) hnone
    have hlength := congrArg List.length ((Sys.given_connect _ 0 count).symm.trans hnone)
    rw [List.length_range'] at hlength
    exact absurd hlength (Nat.ne_of_gt hpos)
  below := by
    rintro _ (_ | ⟨_, ⟨⟩⟩)
    exact Nat.zero_lt_one
  regions := nofun
  single := fun _ => Nat.le_refl 1

/-- `Initialize` -/
theorem Ready.start {bCluster : Bool} {strHost : Bytes} {nPort : Int32} {w : World}
    (hstart : Sys.initializeClient bCluster strHost nPort w = some s) :
    Ready s ∧ s.requests = [] := by
  rw [Sys.initializeClient] at hstart
  split_ifs at hstart with hany hcluster
  · obtain ⟨hrefresh, -⟩ := Option.filter_eq_some_iff.mp hstart
    have hready := ready_unconnected bCluster
      (Server.new strHost nPort (w.attempts 0 ++ w.reconnects 0)) (count_pos_of_any hany)
    exact hready.refresh rfl hrefresh
  · obtain rfl := Option.some.inj hstart
    exact ⟨ready_unconnected _ _ (count_pos_of_any hany), rfl⟩

theorem Inv.start {bCluster : Bool} {strHost : Bytes} {nPort : Int32} {w : World}
    (hstart : Sys.initializeClient bCluster strHost nPort w = some s) : Inv s := by
  obtain ⟨hready, hidle⟩ := Ready.start hstart
  exact hready.inv hidle

end Inv

section Results

variable {bCluster : Bool} {strHost : Bytes} {nPort : Int32} {w : World} {s₀ s : Sys}
  {actions : List Action}

theorem Inv.run (hstart : Sys.initializeClient bCluster strHost nPort w = some s₀)
    (hrun : Run Redis.step anyStep s₀ actions s) : Inv s :=
  hrun.invariant (fun _ _ _ h _ hstep => h.step hstep) (Inv.start hstart)

/-- A connection of a request is in use at its server. -/
theorem Sys.mem_held {k : Nat} {nSlot : Option Int32} {server : ServerRef} {conn : ConnRef}
    (hk : s.requests[k]? = some (.requesting nSlot server conn)) : conn ∈ s.held server :=
  List.mem_filterMap.mpr ⟨_, List.mem_of_getElem? hk, if_pos rfl⟩

/-- Two servers that have one connection are the same. -/
theorem Supplied.eq_of_mem {servers : List ServerRef} (h : Supplied s servers)
    {server server' : ServerRef} (hserver : server ∈ servers) (hserver' : server' ∈ servers)
    {conn : ConnRef} (hconn : conn ∈ s.conns server) (hconn' : conn ∈ s.conns server') :
    server' = server := by
  by_contra hne
  have hsymm : Std.Symm fun server server' => (s.given server).Disjoint (s.given server') :=
    ⟨fun _ _ hdisjoint => hdisjoint.symm⟩
  have hdisjoint := h.apart.forall hserver' hserver hne
  exact hdisjoint ((h.stocked server' hserver').kept.mem_iff.mp hconn')
    ((h.stocked server hserver).kept.mem_iff.mp hconn)

/-- **Exclusive use.** While a request uses a connection no other request does, no queue has
it, its server has not been deleted, and no refresh can take place. -/
theorem connections_exclusive
    (hstart : Sys.initializeClient bCluster strHost nPort w = some s₀)
    (hrun : Run step anyStep s₀ actions s) {k : Nat} {nSlot : Option Int32} {server : ServerRef}
    {conn : ConnRef} (hk : s.requests[k]? = some (.requesting nSlot server conn)) :
    (∀ k' nSlot' server', s.requests[k']? = some (.requesting nSlot' server' conn) → k' = k) ∧
      (∀ server' ∈ s.client.vecRedisServ, conn ∉ s.queIdleConn server') ∧
      s.alive server = true ∧ ∀ w, step s (.refresh w) = none := by
  have hinv := Inv.run hstart hrun
  have hserver := (hinv.served _ (List.mem_of_getElem? hk) server rfl).1
  have hstocked := hinv.supplied.stocked server hserver
  have hnodup : (s.conns server).Nodup := hstocked.kept.nodup_iff.mpr hstocked.nodup
  have hheld := Sys.mem_held hk
  refine ⟨fun k' nSlot' server' hk' => ?_, fun server' hserver' hidle => ?_, hstocked.alive,
    fun w => ?_⟩
  · obtain rfl := hinv.supplied.eq_of_mem hserver
      (hinv.served _ (List.mem_of_getElem? hk') server' rfl).1 (List.mem_append_left _ hheld)
      (List.mem_append_left _ (Sys.mem_held hk'))
    by_contra hne
    -- the other request would have the connection a second time
    have hperm := Sys.held_perm hk server'
    rw [Request.uses, if_pos rfl] at hperm
    have htwice := hperm.nodup_iff.mp hnodup.of_append_left
    have hother : Request.requesting nSlot' server' conn ∈ s.requests.eraseIdx k :=
      List.mem_eraseIdx_iff_getElem?.mpr ⟨k', hne, hk'⟩
    exact (List.nodup_cons.mp htwice).1 (List.mem_filterMap.mpr ⟨_, hother, if_pos rfl⟩)
  · obtain rfl := hinv.supplied.eq_of_mem hserver hserver' (List.mem_append_left _ hheld)
      (List.mem_append_right _ hidle)
    exact (List.nodup_append.mp hnodup).2.2 conn hheld conn hidle rfl
  · refine if_neg fun hrefreshing => ?_
    have hfree := hinv.free hk
    rw [hrefreshing] at hfree
    cases hfree

/-- The client of a cluster of two nodes. -/
def twoServers : Sys := (Sys.initializeClient true (ascii "a") 7000 twoNodes).get rfl

theorem twoServers_start :
    Sys.initializeClient true (ascii "a") 7000 twoNodes = some twoServers :=
  (Option.some_get _).symm

/-- Three requests that may go to any server, which has two connections. -/
def threeRequests : List Action :=
  [.enter none, .enter none, .enter none, .match 0, .match 1, .match 2, .fetch 0, .fetch 1]

theorem connections_exclusive_twoServers : ∃ s, Run step anyStep twoServers threeRequests s ∧
    s.requests[0]? = some (.requesting none 1 3) ∧
    ∀ k' nSlot' server', s.requests[k']? = some (.requesting nSlot' server' 3) → k' = 0 := by
  obtain ⟨s, hrun, htest⟩ := exists_run_of_exec step anyStep twoServers threeRequests
    (fun s => s.requests[0]? = some (.requesting none 1 3)) (by rfl)
  have hk := of_decide_eq_true htest
  exact ⟨s, hrun, hk, (connections_exclusive twoServers_start hrun hk).1⟩

/-- **No connection is lost.** The servers have the connections that they got, in use or idle;
a request that finds none shares its server with one that uses a connection. -/
theorem connections_kept (hstart : Sys.initializeClient bCluster strHost nPort w = some s₀)
    (hrun : Run step anyStep s₀ actions s) :
    (∀ server ∈ s.client.vecRedisServ,
      (s.held server ++ s.queIdleConn server).Perm (s.given server)) ∧
    ∀ (k : Nat) (nSlot : Option Int32) (server : ServerRef) (nTry : Nat),
      s.requests[k]? = some (.fetching nSlot server nTry) → s.queIdleConn server = [] →
      ∃ (k' : Nat) (nSlot' : Option Int32) (conn : ConnRef),
        s.requests[k']? = some (.requesting nSlot' server conn) := by
  have hinv := Inv.run hstart hrun
  refine ⟨fun server hserver => (hinv.supplied.stocked server hserver).kept,
    fun k nSlot server nTry hk hnone => ?_⟩
  obtain ⟨hserver, hvalid⟩ := hinv.served _ (List.mem_of_getElem? hk) server rfl
  have hkept := (hinv.supplied.stocked server hserver).kept
  rw [Sys.conns, hnone, List.append_nil] at hkept
  -- the server has got a connection, which is not in its queue
  obtain ⟨conn, hconn⟩ := List.exists_mem_of_ne_nil _ (hinv.connected hvalid server hserver)
  obtain ⟨request, hrequest, huses⟩ := List.mem_filterMap.mp (hkept.mem_iff.mpr hconn)
  obtain ⟨k', hk'⟩ := List.mem_iff_getElem?.mp hrequest
  cases request with
  | requesting nSlot' server' conn' =>
    obtain ⟨rfl, heq⟩ := Option.ite_none_right_eq_some.mp huses
    exact ⟨k', nSlot', conn', hk'⟩
  | locked | fetching | answered => cases huses

theorem connections_kept_twoServers : ∃ s, Run step anyStep twoServers threeRequests s ∧
    s.queIdleConn 1 = [] ∧
    ∃ (k' : Nat) (nSlot' : Option Int32) (conn : ConnRef),
      s.requests[k']? = some (.requesting nSlot' 1 conn) := by
  obtain ⟨s, hrun, htest⟩ := exists_run_of_exec step anyStep twoServers threeRequests
    (fun s => s.requests[2]? = some (.fetching none 1 3) ∧ s.queIdleConn 1 = []) (by rfl)
  obtain ⟨hk, hnone⟩ := of_decide_eq_true htest
  exact ⟨s, hrun, hnone, (connections_kept twoServers_start hrun).2 2 none 1 3 hk hnone⟩

end Results

end BoostChat.Redis
