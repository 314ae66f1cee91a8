import BoostChat.Server.LoginOrder

/-!
# Sessions that replace others

`UpdateUsers` sweeps the users before it lets the waiting sessions in, and it lets them in
only while there is a free place. Both show in what a login of an account that has a
session already does:

* `onlyLive_iff` — a waiting session that has disconnected is admitted like any other, and
  logs out the user of its account. The users are connected afterwards, and no connected
  one has gone for one that is not, exactly when of every account that gets places the
  disconnected sessions come first and a connected one comes after them;
* `replaces_iff` — the newest waiting session of an account takes over exactly when it is
  the last of its account that gets a place; on a full server none does.
-/

namespace BoostChat.Server

open Lib

namespace TcpServer

variable {env : Env} {s t : TcpServer} {fuel : Nat}

theorem mem_loginOrder {u : SessionRef} (h : u ∈ s.loginOrder env) : u ∈ s.newUsers :=
  (mem_rounds.mp h).1

theorem placed_sublist : (s.placed env).Sublist (s.loginOrder env) := List.take_sublist _ _

/-- The users that are left by the sweep and the sessions that get a place are all different. -/
theorem placed_nodup (hnodup : (s.users ++ s.newUsers).Nodup) :
    (s.liveUsers ++ s.placed env).Nodup := by
  obtain ⟨husers, hqueue, hcross⟩ := List.nodup_append.mp hnodup
  refine List.nodup_append.mpr ⟨husers.filter _, (rounds_nodup hqueue).sublist placed_sublist, ?_⟩
  intro u hu v hv
  exact hcross u (List.mem_of_mem_filter hu) v (mem_loginOrder (placed_sublist.subset hv))

/-! ## Disconnected sessions -/

/-- All users are connected afterwards, and no connected session has been logged out for
one that is not. -/
def OnlyLive (env : Env) (fuel : Nat) (s t : TcpServer) : Prop :=
  (∀ u ∈ t.users, t.isConnected u = true) ∧
  ∀ p ∈ s.replacements env fuel, s.isConnected p.1 = true → s.isConnected p.2 = true

/-- Connected users share an account with connected users only. -/
theorem liveUsers_shared (env : Env) (s : TcpServer) :
    SharedLive (s.account env) (s.isConnected · = true) s.liveUsers := by
  refine List.pairwise_of_forall_mem_list ?_
  intro u hu v hv _
  exact ⟨(List.mem_filter.mp hu).2, (List.mem_filter.mp hv).2⟩

/-- **When only live connections are admitted.** A call that returns leaves connected users
only, and lets no disconnected session take the place of a connected one, if and only if of
every account, among its connected user and its sessions that get a place, in this order,
those that are not connected come first, and there is one that is. -/
theorem onlyLive_iff (hnodup : (s.users ++ s.newUsers).Nodup)
    (hreturn : s.updateUsers env fuel = some t) :
    OnlyLive env fuel s t ↔
      LiveLast (s.account env) (s.isConnected · = true) (s.liveUsers ++ s.placed env) ∧
      EachLive (s.account env) (s.isConnected · = true) (s.liveUsers ++ s.placed env) := by
  obtain ⟨husers, hreplacements, hconnected⟩ := updateUsers_seats hnodup hreturn
  -- a session that is a user afterwards has not been logged out
  have hkept : ∀ u ∈ t.users, t.isConnected u = true ↔ s.isConnected u = true := by
    intro u hu
    rw [husers] at hu
    rw [hconnected u, mem_displaced_iff (placed_nodup hnodup)]
    exact and_iff_left fun hout => hout.2 hu
  rw [← all_live_iff (liveUsers_shared env s), OnlyLive, hreplacements, ← husers]
  exact and_congr_left fun _ => forall₂_congr hkept

/-- A session that has sent a message and may have disconnected since. -/
def sent (isActive : Bool) (msg : ChatMessage) : UserSession :=
  { isActive := isActive, inputQueue := [msg] }

/-- Ann's first session has disconnected before anybody looked at it, her second has not. -/
def reconnected : TcpServer :=
  ((({} : TcpServer).onAccept.onAccept).setSession 0 (sent false (login "a"))).setSession 1
    (sent true (login "a"))

theorem onlyLive_reconnected :
    ∃ t, reconnected.updateUsers annAndBob 2 = some t ∧ OnlyLive annAndBob 2 reconnected t := by
  obtain ⟨t, ht⟩ : ∃ t, reconnected.updateUsers annAndBob 2 = some t :=
    Option.isSome_iff_exists.mp (by decide)
  refine ⟨t, ht, (onlyLive_iff (by decide) ht).mpr ⟨?_, ?_⟩⟩
  · unfold LiveLast
    decide
  · unfold EachLive
    decide

/-- Bob's only session has disconnected. -/
def vanished : TcpServer := ({} : TcpServer).onAccept.setSession 0 (sent false (login "b"))

/-- It becomes a user. -/
theorem onlyLive_vanished :
    ∃ t, vanished.updateUsers annAndBob 1 = some t ∧ ¬ OnlyLive annAndBob 1 vanished t := by
  obtain ⟨t, ht, hend⟩ : ∃ t, vanished.updateUsers annAndBob 1 = some t ∧
      (0 ∈ t.users ∧ t.isConnected 0 = false) := by
    refine ⟨_, rfl, ?_⟩
    decide
  refine ⟨t, ht, fun hlive => ?_⟩
  have hconnected := hlive.1 0 hend.1
  rw [hend.2] at hconnected
  cases hconnected

/-! ## Replacing a session of the same account -/

/-- Every account that has a session among the users and one that waits has its newest
waiting session among the users afterwards, and the old one is closed and gone. -/
def Replaces (env : Env) (s t : TcpServer) : Prop :=
  ∀ old ∈ s.users, ∀ user ∈ s.newUsers, s.account env user = (s.sessions old).id →
    old ∉ t.users ∧ t.isConnected old = false ∧
    ∃ newest, lastOf (s.account env) s.newUsers (s.sessions old).id = some newest ∧
      newest ∈ t.users

/-- Of the sessions of such an account that get a place, the newest one comes last. -/
def NewestPlaced (env : Env) (s : TcpServer) : Prop :=
  ∀ old ∈ s.users, ∀ user ∈ s.newUsers, s.account env user = (s.sessions old).id →
    lastOf (s.account env) (s.placed env) (s.sessions old).id =
      lastOf (s.account env) s.newUsers (s.sessions old).id

/-- The user of an account, before and after: the last of its sessions that has come in. -/
theorem mem_users_iff (hnodup : (s.users ++ s.newUsers).Nodup)
    (hone : (s.users.map fun u => (s.sessions u).id).Nodup)
    (hreturn : s.updateUsers env fuel = some t) {u : SessionRef} :
    u ∈ t.users ↔
      lastOf (s.account env) (s.liveUsers ++ s.placed env) (s.account env u) = some u := by
  obtain ⟨husers, -, -⟩ := updateUsers_seats hnodup hreturn
  have hlive : (s.liveUsers.map (s.account env)).Nodup := by
    have hid : s.liveUsers.map (s.account env) = s.liveUsers.map fun u => (s.sessions u).id :=
      List.map_congr_left fun u hu => if_pos (List.mem_of_mem_filter hu)
    rw [hid]
    exact hone.sublist (List.filter_sublist.map _)
  rw [husers, mem_seatAll_iff hlive]

/-- **When a duplicate login replaces the old session.** Let every waiting session hold a
message that logs in. The call returns, and every account that has a user and a waiting
session ends with its newest waiting session as the user, if and only if that session is the
last of the account that gets a place. -/
theorem replaces_iff (hnodup : (s.users ++ s.newUsers).Nodup)
    (hone : (s.users.map fun u => (s.sessions u).id).Nodup) (hall : AllLogIn env s) :
    (∃ fuel t, s.updateUsers env fuel = some t) ∧
    ∀ fuel t, s.updateUsers env fuel = some t → (Replaces env s t ↔ NewestPlaced env s) := by
  refine ⟨updateUsers_returns hnodup hall, fun fuel t hreturn => ?_⟩
  obtain ⟨husers, -, hconnected⟩ := updateUsers_seats hnodup hreturn
  have hmem (u : SessionRef) := mem_users_iff hnodup hone hreturn (u := u)
  refine forall₂_congr fun old hold => forall₂_congr fun user huser => ?_
  refine forall_congr' fun haccount => ?_
  obtain ⟨newest, hnewest⟩ := exists_lastOf huser haccount
  obtain ⟨hwaiting, hsame⟩ := lastOf_mem hnewest
  have hnot : newest ∉ s.users := fun hu => (List.nodup_append.mp hnodup).2.2 _ hu _ hwaiting rfl
  have hold_account : s.account env old = (s.sessions old).id := if_pos hold
  rw [hnewest]
  constructor
  · rintro ⟨-, -, n, hn, husers'⟩
    obtain rfl := Option.some.inj hn
    rw [hmem, hsame, lastOf_append] at husers'
    cases hplaced : lastOf (s.account env) (s.placed env) (s.sessions old).id with
    | none =>
      -- no session of the account came in, so the user would be one of before
      rw [hplaced, Option.none_or] at husers'
      exact absurd (List.mem_of_mem_filter (lastOf_mem husers').1) hnot
    | some last =>
      rw [hplaced, Option.some_or] at husers'
      exact husers'
  · intro hplaced
    have hlast : lastOf (s.account env) (s.liveUsers ++ s.placed env) (s.sessions old).id =
        some newest := by
      rw [lastOf_append, hplaced, Option.some_or]
    have hgone : old ∉ t.users := by
      rw [hmem, hold_account, hlast]
      exact fun heq => hnot (Option.some.inj heq ▸ hold)
    refine ⟨hgone, ?_, newest, rfl, ?_⟩
    · rw [← Bool.not_eq_true, hconnected]
      rintro ⟨hlive, hkept⟩
      -- a connected user that is gone has been logged out
      rw [mem_displaced_iff (placed_nodup hnodup), ← husers] at hkept
      have hstart : old ∈ s.liveUsers := List.mem_filter.mpr ⟨hold, hlive⟩
      exact hkept ⟨List.mem_append_left _ hstart, hgone⟩
    · rw [hmem, hsame]
      exact hlast

/-- Ann is a user, and waits with a second session. -/
def annAgain (maxUser : UInt32) : TcpServer :=
  let s : TcpServer := { maxUser := maxUser, nextSession := 2, users := [0], newUsers := [1] }
  (s.setSession 0 { id := 1, verified := true }).setSession 1 (sent true (login "a"))

/-- With a free place the second session takes over. -/
theorem replaces_annAgain :
    ∃ fuel t, (annAgain 5).updateUsers annAndBob fuel = some t ∧
      Replaces annAndBob (annAgain 5) t := by
  have hall : AllLogIn annAndBob (annAgain 5) := by
    unfold AllLogIn
    decide
  obtain ⟨⟨fuel, t, ht⟩, hiff⟩ := replaces_iff (by decide) (by decide) hall
  refine ⟨fuel, t, ht, (hiff fuel t ht).mpr ?_⟩
  unfold NewestPlaced
  decide

/-- On a full server it waits on, and the first session stays. -/
theorem replaces_full :
    ∃ t, (annAgain 1).updateUsers annAndBob 0 = some t ∧
      ¬ Replaces annAndBob (annAgain 1) t := by
  refine ⟨_, rfl, fun h => ?_⟩
  exact (h 0 (by decide) 1 (by decide) (by decide)).1 (by decide)

/-- When the oldest message of every waiting session logs in, they do so in the order of the
queue. -/
theorem loginOrder_of_first (h : ∀ u ∈ s.newUsers, (loginOf env (s.sessions u)).isSome = true) :
    s.loginOrder env = s.newUsers := by
  have hzero : ∀ u ∈ s.newUsers, loginDelay env (s.sessions u).pending = some 0 := by
    intro u hu
    obtain ⟨account, hlogin⟩ := Option.isSome_iff_exists.mp (h u hu)
    exact (loginDelay_of_login hlogin).1
  by_cases hbound : 0 < s.roundBound
  · exact rounds_zero hbound hzero
  · -- somebody who waits has a message
    have hnone : s.newUsers = [] := by
      refine List.eq_nil_iff_forall_not_mem.mpr fun u hu => hbound ?_
      exact Nat.lt_of_lt_of_le (loginDelay_lt (hzero u hu)) (pending_le_roundBound hu)
    rw [loginOrder, loginsWithin, hnone, rounds_nil]

/-- Then the newest waiting session of an account takes over exactly when it gets a place. -/
theorem newestPlaced_iff_of_first (hnodup : (s.users ++ s.newUsers).Nodup)
    (h : ∀ u ∈ s.newUsers, (loginOf env (s.sessions u)).isSome = true) :
    NewestPlaced env s ↔ ∀ old ∈ s.users, ∀ newest,
      lastOf (s.account env) s.newUsers (s.sessions old).id = some newest →
      newest ∈ s.placed env := by
  have hqueue := (List.nodup_append.mp hnodup).2.1
  obtain ⟨later, hsplit⟩ : ∃ later, s.newUsers = s.placed env ++ later := by
    rw [placed, loginOrder_of_first h]
    exact ⟨_, (List.take_append_drop _ _).symm⟩
  constructor
  · intro hplaced old hold newest hnewest
    obtain ⟨hwaiting, haccount⟩ := lastOf_mem hnewest
    have hlast := hplaced old hold newest hwaiting haccount
    rw [hnewest] at hlast
    exact (lastOf_mem hlast).1
  · intro hplaced old hold user huser haccount
    obtain ⟨newest, hnewest⟩ := exists_lastOf huser haccount
    have hmem := hplaced old hold newest hnewest
    have hall := hnewest
    rw [hsplit, lastOf_append] at hall
    rw [hnewest]
    cases hlater : lastOf (s.account env) later (s.sessions old).id with
    | none => rwa [hlater, Option.none_or] at hall
    | some last =>
      -- it would occur in the queue a second time
      rw [hlater, Option.some_or] at hall
      obtain rfl := Option.some.inj hall
      rw [hsplit] at hqueue
      exact absurd rfl ((List.nodup_append.mp hqueue).2.2 _ hmem _ (lastOf_mem hlater).1)

end TcpServer

end BoostChat.Server
