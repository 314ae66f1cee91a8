import BoostChat.Redis.Pool

/-!
# Where requests go while the slots move

A request finds its server under the shared lock, and uses a connection of it some time later.
A refresh in between would delete the server, or give the slot to another one.

* `WellReported` — what a cluster replies: regions that do not overlap, with their hosts;
* `Routed` — the invariant;
* `requests_routed` — whenever a request uses a connection, the regions that the client has at
  that time lead its slot to the endpoint of this connection.
-/

namespace BoostChat.Redis

open Lib

/-- The regions of a reply do not overlap and name their hosts. -/
def WellReported (w : World) : Prop :=
  ∀ server reply vecSlot, w.reply server = some reply → fetchSlot reply = .success vecSlot →
    Apart vecSlot ∧ ∀ r ∈ vecSlot, r.strHost ≠ []

/-- The refreshes of a run get such replies. -/
def Reports (_ : Sys) : Action → Prop
  | .refresh w => WellReported w
  | _ => True

/-! ## The regions of the client -/

/-- Each region leads to a server that connects to its endpoint. -/
structure Mapped (c : CRedisClient) : Prop where
  ascending : Ascending c.vecSlot
  leads : ∀ r ∈ c.vecSlot, ∃ server ∈ c.vecRedisServ, r.pRedisServ = some server ∧
    (c.heap server).vecHosts = [(r.strHost, r.nPort)]

section Mapped

variable {w : World} {c c' : CRedisClient} {nSlot : Int32} {server : ServerRef}

theorem loadClusterSlots_mapped (hwell : WellReported w)
    (hload : loadClusterSlots w c = some (c', true)) : Mapped c' := by
  obtain @⟨s, reply, vecSlot, vecSlot', loaded, -, hreply, hfetched, hassigned, rfl⟩ :=
    refreshed_of_load hload
  obtain ⟨hapart, hhosts⟩ := hwell s reply vecSlot hreply hfetched
  have hnew : Loading { c with vecRedisServ := [] } :=
    ⟨fun _ h => absurd h List.not_mem_nil, fun _ h => absurd h List.not_mem_nil⟩
  obtain ⟨-, hleads⟩ := assignServers_leads hnew hhosts hassigned
  refine ⟨(hapart.assigned hleads).sortRegions, fun r hr => ?_⟩
  obtain ⟨r₀, -, server, hserver, rfl, hendpoint⟩ :=
    exists_of_forall₂ hleads.flip r ((sortRegions_perm vecSlot').mem_iff.mp hr)
  exact ⟨server, hserver, rfl, hendpoint⟩

/-- The server that is found connects to the endpoint of the region that has the slot. -/
theorem Mapped.endpoint (h : Mapped c) (hfound : findServer c nSlot = some server) :
    (∃ r ∈ c.vecSlot, r.Has nSlot) ∧
      ∀ r ∈ c.vecSlot, r.Has nSlot → (c.heap server).vecHosts = [(r.strHost, r.nPort)] := by
  refine ⟨?_, fun r hr hhas => ?_⟩
  · by_contra hnone
    rw [findServer_eq_none h.ascending fun r hr hhas => hnone ⟨r, hr, hhas⟩] at hfound
    cases hfound
  · obtain ⟨server', -, hleads, hendpoint⟩ := h.leads r hr
    rw [findServer_of_has h.ascending hr hhas, hleads] at hfound
    rw [← Option.some.inj hfound, hendpoint]

end Mapped

/-! ## The invariant -/

/-- The slot and the server of a request that has both. -/
def Request.route? : Request → Option (Int32 × ServerRef)
  | .fetching (some nSlot) server _ | .requesting (some nSlot) server _ => some (nSlot, server)
  | .fetching none _ _ | .requesting none _ _ | .locked _ | .answered => none

/-- The client of a cluster leads the slots of its requests to their servers. -/
structure Routed (s : Sys) : Prop where
  mapped : Mapped s.client
  current : ∀ request ∈ s.requests, ∀ route, request.route? = some route →
    findServer s.client route.1 = some route.2

section Routed

variable {s t : Sys} {k : Nat} {old new : Request} {a : Action}

/-- What a refresh of a cluster makes of the client. -/
theorem Sys.refresh_client {w : World} (hcluster : s.bCluster = true)
    (hrefresh : s.refresh w = some t) :
    t.bCluster = true ∧ (t.client = s.client ∨ ∃ isValid,
      loadClusterSlots { w with isValid } s.client = some (t.client, true)) := by
  rw [Sys.refresh] at hrefresh
  dsimp only at hrefresh
  rw [if_pos hcluster] at hrefresh
  split at hrefresh
  · cases hrefresh
  · obtain rfl := Option.some.inj hrefresh
    obtain ⟨_, heq⟩ := Sys.askAll_eq (Sys.asked
      { w with isValid := fun server => !(s.queIdleConn server).isEmpty } s.client.vecRedisServ) s
    rw [heq]
    exact ⟨hcluster, Or.inl rfl⟩
  · rename_i client hload
    obtain rfl := Option.some.inj hrefresh
    obtain ⟨_, _, hdeleted⟩ := Sys.deleteAll_eq s.client.vecRedisServ (client.vecRedisServ.foldl
      (fun s server => s.connect server ((w.attempts server).count true)) s)
    obtain ⟨_, _, _, _, hconnected⟩ := Sys.connectAll_eq
      (fun server => (w.attempts server).count true) client.vecRedisServ s
    rw [hdeleted, hconnected]
    exact ⟨hcluster, Or.inr ⟨_, hload⟩⟩

theorem Mapped.refresh {w : World} (h : Mapped s.client) (hcluster : s.bCluster = true)
    (hwell : WellReported w) (hrefresh : s.refresh w = some t) :
    t.bCluster = true ∧ Mapped t.client := by
  obtain ⟨hmode, heq | ⟨isValid, hload⟩⟩ := Sys.refresh_client hcluster hrefresh
  · exact ⟨hmode, heq ▸ h⟩
  · have hwell' : WellReported { w with isValid } := hwell
    exact ⟨hmode, loadClusterSlots_mapped hwell' hload⟩

/-- One request takes a step. -/
theorem Routed.replace (h : Routed s)
    (hnew : ∀ route, new.route? = some route → findServer s.client route.1 = some route.2)
    {queIdleConn : ServerRef → List ConnRef} :
    Routed { s with queIdleConn, requests := s.requests.set k new } := by
  refine ⟨h.mapped, fun request hrequest => ?_⟩
  rcases List.mem_or_eq_of_mem_set hrequest with hold | rfl
  · exact h.current request hold
  · exact hnew

/-- **Step lemma.** -/
theorem Routed.step (hinv : Inv s) (hcluster : s.bCluster = true) (h : Routed s)
    (hreports : Reports s a) (hstep : Redis.step s a = some t) :
    t.bCluster = true ∧ Routed t := by
  cases a with
  | enter nSlot =>
    obtain ⟨-, rfl⟩ := guarded_step hstep
    refine ⟨hcluster, h.mapped, List.forall_mem_append.mpr ⟨h.current, ?_⟩⟩
    exact List.forall_mem_singleton.mpr nofun
  | «match» k =>
    rw [Redis.step] at hstep
    split at hstep
    · rename_i nSlot hk
      split at hstep
      · rename_i server hmatched
        obtain rfl := Option.some.inj hstep
        -- the server is the one that the search finds under the lock
        refine ⟨hcluster, h.replace ?_⟩
        split_ifs at hmatched with hvalid
        cases nSlot with
        | none => exact fun _ h => by cases h
        | some nSlot =>
          rintro _ ⟨⟩
          rw [← hmatched]
          exact (if_pos hcluster).symm
      · obtain rfl := Option.some.inj hstep
        exact ⟨hcluster, h.replace fun _ h => by cases h⟩
    · cases hstep
  | fetch k =>
    rw [Redis.step] at hstep
    split at hstep
    · -- a connection or not, the route stays
      rename_i nSlot server nTry hk
      have hroute := h.current _ (List.mem_of_getElem? hk)
      split at hstep
      · obtain rfl := Option.some.inj hstep
        exact ⟨hcluster, h.replace fun _ h => by cases h⟩
      · obtain rfl := Option.some.inj hstep
        refine ⟨hcluster, h.replace fun route hnew => hroute route ?_⟩
        cases nSlot <;> exact hnew
      · obtain rfl := Option.some.inj hstep
        refine ⟨hcluster, h.replace fun route hnew => hroute route ?_⟩
        cases nSlot <;> exact hnew
    · cases hstep
  | answer k =>
    rw [Redis.step] at hstep
    split at hstep
    · obtain rfl := Option.some.inj hstep
      exact ⟨hcluster, h.replace fun _ h => by cases h⟩
    · cases hstep
  | leave k =>
    rw [Redis.step] at hstep
    split at hstep
    · obtain rfl := Option.some.inj hstep
      exact ⟨hcluster, h.mapped, fun request hrequest =>
        h.current request (List.mem_of_mem_eraseIdx hrequest)⟩
    · cases hstep
  | lock | check | wake | unlock =>
    obtain ⟨-, rfl⟩ := guarded_step hstep
    exact ⟨hcluster, h.mapped, h.current⟩
  | refresh w =>
    rw [Redis.step] at hstep
    split_ifs at hstep with hrefreshing
    obtain ⟨s', hrefresh, rfl⟩ := Option.map_eq_some_iff.mp hstep
    obtain ⟨hmode, hmapped⟩ := h.mapped.refresh hcluster hreports hrefresh
    -- no request has to be led anywhere
    have hidle := (hinv.toReady.refresh (hinv.alone (hrefreshing ▸ rfl)) hrefresh).2
    refine ⟨hmode, hmapped, fun request hrequest => ?_⟩
    rw [hidle] at hrequest
    cases hrequest

/-- `Initialize` of a cluster. -/
theorem Routed.start {strHost : Bytes} {nPort : Int32} {w : World} (hwell : WellReported w)
    (hstart : Sys.initializeClient true strHost nPort w = some s) :
    s.bCluster = true ∧ Routed s := by
  have hidle := (Ready.start hstart).2
  rw [Sys.initializeClient] at hstart
  split_ifs at hstart with hany hcluster
  swap
  · exact absurd rfl hcluster
  obtain ⟨hrefresh, -⟩ := Option.filter_eq_some_iff.mp hstart
  -- the client that is refreshed has no regions yet
  have hmapped : Mapped ⟨[0], [], fun _ => Server.new strHost nPort
      (w.attempts 0 ++ w.reconnects 0), 1⟩ := ⟨⟨fun _ h => absurd h List.not_mem_nil, .nil⟩,
    fun _ h => absurd h List.not_mem_nil⟩
  obtain ⟨hmode, hrefreshed⟩ := Mapped.refresh (by exact hmapped) rfl hwell hrefresh
  refine ⟨hmode, hrefreshed, fun request hrequest => ?_⟩
  rw [hidle] at hrequest
  cases hrequest

/-- **Requests are routed.** When a request for a slot uses a connection, some region of the
client has the slot, and the server of the connection is there and connects to the endpoint
of this region. -/
theorem requests_routed {strHost : Bytes} {nPort : Int32} {w : World} {s₀ : Sys}
    {actions : List Action} (hwell : WellReported w)
    (hstart : Sys.initializeClient true strHost nPort w = some s₀)
    (hrun : Run Redis.step Reports s₀ actions s) {nSlot : Int32} {server : ServerRef}
    {conn : ConnRef} (hk : s.requests[k]? = some (.requesting (some nSlot) server conn)) :
    s.alive server = true ∧ (∃ r ∈ s.client.vecSlot, r.Has nSlot) ∧
      ∀ r ∈ s.client.vecSlot, r.Has nSlot →
        (s.client.heap server).vecHosts = [(r.strHost, r.nPort)] := by
  have hinvariant : Inv s ∧ s.bCluster = true ∧ Routed s := by
    refine hrun.invariant (I := fun s => Inv s ∧ s.bCluster = true ∧ Routed s) ?_
      ⟨Inv.start hstart, Routed.start hwell hstart⟩
    rintro s a t ⟨hinv, hcluster, hrouted⟩ hreports hstep
    exact ⟨hinv.step hstep, hrouted.step hinv hcluster hreports hstep⟩
  obtain ⟨hinv, -, hrouted⟩ := hinvariant
  have hmem := List.mem_of_getElem? hk
  have hserver := (hinv.served _ hmem server rfl).1
  exact ⟨(hinv.supplied.stocked server hserver).alive,
    hrouted.mapped.endpoint (hrouted.current _ hmem (nSlot, server) rfl)⟩

end Routed

/-- The cluster replies with its two regions. -/
theorem wellReported_twoNodes : WellReported twoNodes := by
  rintro server _ vecSlot ⟨⟩ hfetched
  obtain rfl := Fetched.success.inj hfetched
  exact ⟨⟨by decide, by decide⟩, by decide⟩

/-- The second node has the slot. -/
theorem findServer_twoServers : findServer twoServers.client 9000 = some 1 := by
  have hmapped := (Routed.start wellReported_twoNodes twoServers_start).2.mapped
  let second : SlotRegion := ⟨8192, 16383, ascii "b", 7001, some 1⟩
  have hsecond : second ∈ twoServers.client.vecSlot :=
    (sortRegions_perm [second, _]).mem_iff.mpr List.mem_cons_self
  exact findServer_of_has hmapped.ascending hsecond ⟨by decide, by decide⟩

theorem requests_routed_twoServers : ∃ s,
    Run step Reports twoServers [.enter (some 9000), .match 0, .fetch 0] s ∧
      s.alive 1 = true ∧ ∃ r ∈ s.client.vecSlot, r.Has 9000 := by
  have hmatched : step { twoServers with requests := [.locked (some 9000)] } (.match 0) =
      some { twoServers with requests := [.fetching (some 9000) 1 RQST_RETRY_TIMES] } := by
    rw [step]
    dsimp only [List.getElem?_cons_zero]
    rw [if_pos (show twoServers.bValid = true from rfl), Sys.getMatchedServer,
      if_pos (show twoServers.bCluster = true from rfl)]
    dsimp only
    rw [findServer_twoServers]
    rfl
  obtain ⟨s, hrun, hk⟩ : ∃ s,
      Run step Reports twoServers [.enter (some 9000), .match 0, .fetch 0] s ∧
        s.requests[0]? = some (.requesting (some 9000) 1 3) :=
    ⟨_, .cons trivial rfl (.cons trivial hmatched (.cons trivial rfl (.nil _))), rfl⟩
  obtain ⟨halive, hregion, -⟩ := requests_routed wellReported_twoNodes twoServers_start hrun hk
  exact ⟨s, hrun, halive, hregion⟩

end BoostChat.Redis
