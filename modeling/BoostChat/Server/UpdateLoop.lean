import BoostChat.Lib.Seats
import BoostChat.Server.Environment
import BoostChat.Server.Frames
import Mathlib.Data.Finset.Card
import Mathlib.Data.List.Find
import Mathlib.Data.List.Nodup

/-!
# The admission loop of `UpdateUsers`

The loop pops the oldest waiting session and pushes it back when it cannot be
admitted, so its guard may hold for ever. It is analysed by its first pass over the
queue, with the queue split into the sessions still to be examined (`todo`) and
those already put back (`done`):

* `pass_full` — if the logins among `todo` fill the server, the loop exits within
  the pass;
* `pass_room` — if they do not, the loop gets through the pass with room left, and
  its queue then holds `done` and the sessions that the pass rejected;
* `updateUsers_examines_once_iff` — so a call returns after examining each session at
  most once exactly when every waiting session logs in or the logins fill the server.

An admission is a newcomer that takes a seat, with the accounts as the owners
(`admitUser_seat`); what one iteration does to the number of users is said once, in
`admitUser_usage`: admissions of an account that has a user already cost no place.
-/

namespace BoostChat.Server

open Lib

namespace TcpServer

variable {env : Env} {s : TcpServer} {user : SessionRef} {todo done rest : List SessionRef}

/-- The sessions that one call examines, in order, one entry for each iteration. -/
def examined (env : Env) (fuel : Nat) (s : TcpServer) : List (Option SessionRef) :=
  whileTrace hasRoom (examine env) (·.newUsers.head?) fuel s.removeDisconnected

/-- The accounts of some sessions. -/
def accounts (s : TcpServer) (us : List SessionRef) : Finset UInt32 :=
  (us.map fun u => (s.sessions u).id).toFinset

/-- The accounts that the oldest messages of some sessions log in to. -/
def logins (env : Env) (s : TcpServer) (us : List SessionRef) : Finset UInt32 :=
  (us.filterMap fun u => (loginOf env (s.sessions u)).map (·.1)).toFinset

/-- The places that are taken once all of `todo` have tried to log in: one for each
user, and one for each account that logs in and has no user yet. -/
def usage (env : Env) (s : TcpServer) (todo : List SessionRef) : Nat :=
  s.users.length + (s.logins env todo \ s.accounts s.users).card

/-- The sessions of `todo` whose oldest message does not log in. -/
def refused (env : Env) (s : TcpServer) (todo : List SessionRef) : List SessionRef :=
  todo.filter fun u => (loginOf env (s.sessions u)).isNone

theorem logins_congr {s s' : TcpServer} (h : ∀ u ∈ todo, s'.sessions u = s.sessions u) :
    s'.logins env todo = s.logins env todo := by
  rw [logins, logins, List.filterMap_congr fun u hu => by rw [h u hu]]

theorem refused_congr {s s' : TcpServer} (h : ∀ u ∈ todo, s'.sessions u = s.sessions u) :
    s'.refused env todo = s.refused env todo := by
  rw [refused, refused, List.filter_congr fun u hu => by rw [h u hu]]

theorem accounts_congr {s s' : TcpServer} {us : List SessionRef}
    (h : ∀ u ∈ us, (s'.sessions u).id = (s.sessions u).id) : s'.accounts us = s.accounts us := by
  rw [accounts, accounts, List.map_congr_left h]

/-! ## One iteration -/

/-- The session that is logged out has the account of the new user. -/
theorem taken_evicted {owner : SessionRef → UInt32} {session : UserSession}
    (hnot : user ∉ s.users) (husers : ∀ v ∈ s.users, (s.sessions v).id = owner v)
    (hid : session.id = owner user) :
    (s.taken user rest session).evicted user = displaced owner s.users user := by
  rw [evicted, getUserById, displaced, taken_users, taken_sessions_self]
  refine List.find?_congr fun v hv => ?_
  rw [taken, setSession_sessions_of_ne _ _ (ne_of_mem_of_not_mem hv hnot), hid, husers v hv]
  rfl

/-- **An admission is a newcomer that takes a seat**, with the accounts as the owners. -/
theorem admitUser_seat {owner : SessionRef → UInt32} {session : UserSession}
    (hnot : user ∉ s.users) (husers : ∀ v ∈ s.users, (s.sessions v).id = owner v)
    (hid : session.id = owner user) :
    ((s.taken user rest session).admitUser user).users = seat owner s.users user := by
  rw [admitUser_users, remaining, taken_evicted hnot husers hid, taken_users]
  rcases seat_cases owner s.users user with ⟨hnone, -, hseat⟩ |
    ⟨old, left, right, hold, howner, hsplit, hleft, hseat⟩
  · rw [hnone, hseat]
  · rw [hold, hseat, hsplit]
    have hne : old ∉ left := fun hmem => hleft old hmem howner
    show (left ++ old :: right).erase old ++ [user] = left ++ right ++ [user]
    rw [List.erase_append_right _ hne, List.erase_cons_head]

/-- The accounts once a waiting session has logged in. -/
def accountAfter (s : TcpServer) (user : SessionRef) (session : UserSession) :
    SessionRef → UInt32 :=
  Function.update (fun v => (s.sessions v).id) user session.id

theorem accountAfter_self (session : UserSession) :
    session.id = s.accountAfter user session user := by
  rw [accountAfter, Function.update_self]

theorem accountAfter_user (session : UserSession) (hnot : user ∉ s.users) :
    ∀ v ∈ s.users, (s.sessions v).id = s.accountAfter user session v := by
  intro v hv
  rw [accountAfter, Function.update_of_ne (ne_of_mem_of_not_mem hv hnot)]

theorem accounts_eq_owners (session : UserSession) (hnot : user ∉ s.users) :
    s.accounts s.users = owners (s.accountAfter user session) s.users := by
  rw [accounts, owners, List.map_congr_left (accountAfter_user session hnot)]

/-- After an admission the accounts of the users are those of before and the new one. -/
theorem admitUser_accounts (session : UserSession) (hnot : user ∉ s.users) :
    ((s.taken user rest session).admitUser user).accounts
        ((s.taken user rest session).admitUser user).users =
      insert session.id (s.accounts s.users) := by
  have hids : ∀ v ∈ ((s.taken user rest session).admitUser user).users,
      (((s.taken user rest session).admitUser user).sessions v).id =
        s.accountAfter user session v := by
    intro v hv
    by_cases heq : v = user
    · subst heq
      rw [taken_admitUser_sessions_self rest session hnot]
      exact accountAfter_self session
    · rw [taken_admitUser_sessions_of_ne _ _ _ heq, accountAfter, Function.update_of_ne heq]
      split <;> rfl
  rw [accounts, List.map_congr_left hids, ← owners,
    admitUser_seat hnot (accountAfter_user session hnot) (accountAfter_self session), owners_seat,
    accounts_eq_owners session hnot, ← accountAfter_self session]

/-- An admission takes a place unless the account has a user already. -/
theorem admitUser_length (session : UserSession) (hnot : user ∉ s.users) :
    ((s.taken user rest session).admitUser user).users.length =
      if session.id ∈ s.accounts s.users then s.users.length else s.users.length + 1 := by
  rw [admitUser_seat hnot (accountAfter_user session hnot) (accountAfter_self session),
    length_seat, ← accountAfter_self session, accounts_eq_owners session hnot]

/-- **Conservation.** An admission leaves the places that the rest of the pass ends
with as they were. -/
theorem admitUser_usage {session : UserSession} (hnot : user ∉ s.users)
    (hrest : ∀ u ∈ todo, u ∉ user :: s.users)
    (hlogin : (loginOf env (s.sessions user)).map (·.1) = some session.id) :
    ((s.taken user rest session).admitUser user).usage env todo = s.usage env (user :: todo) := by
  have hsame : ∀ u ∈ todo,
      ((s.taken user rest session).admitUser user).sessions u = s.sessions u := by
    intro u hu
    obtain ⟨hne, hout⟩ := not_or.mp (mt List.mem_cons.mpr (hrest u hu))
    exact s.taken_admitUser_sessions_of_not_mem rest session hne hout
  have hcons : s.logins env (user :: todo) = insert session.id (s.logins env todo) := by
    rw [logins, List.filterMap_cons, hlogin, List.toFinset_cons, logins]
  rw [usage, usage, admitUser_accounts session hnot, admitUser_length session hnot,
    logins_congr hsame, hcons]
  exact places_insert

/-- Putting a session back changes no place. -/
theorem requeue_usage {session : UserSession} (hnot : user ∉ s.users) (hrest : user ∉ todo)
    (hlogin : loginOf env (s.sessions user) = none) :
    (s.requeue user rest session).usage env todo = s.usage env (user :: todo) := by
  have hcons : s.logins env (user :: todo) = s.logins env todo := by
    rw [logins, List.filterMap_cons, hlogin, logins]
    rfl
  have hlogins : (s.requeue user rest session).logins env todo = s.logins env todo :=
    logins_congr fun u hu => requeue_sessions_of_ne _ _ _ (ne_of_mem_of_not_mem hu hrest)
  have haccounts : (s.requeue user rest session).accounts s.users = s.accounts s.users :=
    accounts_congr fun u hu => by
      rw [requeue_sessions_of_ne _ _ _ (ne_of_mem_of_not_mem hu hnot)]
  rw [usage, usage, hcons, requeue_users, hlogins, haccounts]

/-! ## The first pass -/

/-- One iteration at the head of the pass, seen from the rest of it: what it leaves in
front of the queue, which of the examined sessions are put back, and that nothing the
rest of the pass depends on has changed. -/
theorem examine_head (env : Env) (hnew : s.newUsers = user :: (todo ++ done))
    (hnodup : (s.users ++ user :: (todo ++ done)).Nodup) :
    ∃ done', (s.examine env).newUsers = todo ++ done' ∧
      ((s.examine env).users ++ (todo ++ done')).Nodup ∧
      done' = done ++ s.refused env [user] ∧
      (s.examine env).maxUser = s.maxUser ∧
      (s.examine env).usage env todo = s.usage env (user :: todo) ∧
      (s.examine env).refused env todo = s.refused env todo := by
  have hsplit := List.nodup_append.mp hnodup
  have hnot : user ∉ s.users := fun hu => hsplit.2.2 user hu user (by simp) rfl
  have htodo : ∀ u ∈ todo, u ∉ s.users := fun u hu husers =>
    hsplit.2.2 u husers u (by simp [hu]) rfl
  have hhead : user ∉ todo := fun hu =>
    (List.nodup_cons.mp hsplit.2.1).1 (List.mem_append_left _ hu)
  rcases s.examine_cases env hnew with
    ⟨hlogin, session, hexamine, -⟩ | ⟨id, userEntity, hlogin, session, hexamine, rfl, -⟩
  · -- put back: the session moves to the end of `done`
    refine ⟨done ++ [user], ?_, ?_, by simp [refused, hlogin], by rw [hexamine]; rfl, ?_, ?_⟩
    · rw [hexamine, requeue_newUsers, List.append_assoc]
    · rw [hexamine, requeue_users, ← List.append_assoc todo]
      refine (List.Perm.nodup_iff ((List.perm_append_singleton _ _).append_left _)).mpr hnodup
    · rw [hexamine, requeue_usage hnot hhead hlogin]
    · rw [hexamine]
      exact refused_congr fun u hu =>
        requeue_sessions_of_ne _ _ _ (ne_of_mem_of_not_mem hu hhead)
  · -- admitted: a user may be evicted, but nobody of `todo` is
    have hfresh : ∀ u ∈ todo, u ∉ user :: s.users := by
      intro u hu
      rw [List.mem_cons, not_or]
      exact ⟨ne_of_mem_of_not_mem hu hhead, htodo u hu⟩
    refine ⟨done, ?_, ?_, by simp [refused, hlogin], ?_, ?_, ?_⟩
    · rw [hexamine, admitUser_newUsers, taken_newUsers]
    · rw [hexamine, admitUser_users, List.append_assoc]
      exact hnodup.sublist (((s.taken user (todo ++ done) session).remaining_sublist
        user).append_right _)
    · rw [hexamine, admitUser_maxUser]
      rfl
    · rw [hexamine, admitUser_usage hnot hfresh (by rw [hlogin]; rfl)]
    · rw [hexamine]
      exact refused_congr fun u hu =>
        s.taken_admitUser_sessions_of_not_mem _ session (ne_of_mem_of_not_mem hu hhead)
          (htodo u hu)

/-- While somebody of the pass is left, the guard only asks for room. -/
theorem hasRoom_cons (hnew : s.newUsers = user :: rest) :
    s.hasRoom = decide (s.users.length < s.maxUser.toNat) := by
  simp [hasRoom, hnew]

/-- **The pass of a server that fills up.** The loop exits, and what it has examined
until then is a part of the pass. -/
theorem pass_full (hfull : s.maxUser.toNat ≤ s.usage env todo) (hnew : s.newUsers = todo ++ done)
    (hnodup : (s.users ++ (todo ++ done)).Nodup) :
    ∃ t, whileLoop hasRoom (examine env) todo.length s = some t ∧
      (whileTrace hasRoom (examine env) (·.newUsers.head?) todo.length s).Sublist
        (todo.map some) := by
  -- `todo` shrinks; `usage` is what the induction carries along
  induction todo generalizing s done with
  | nil =>
    have hno : s.hasRoom = false := by
      have : s.maxUser.toNat ≤ s.users.length := by simpa [usage, logins] using hfull
      simp [hasRoom, Nat.not_lt.mpr this]
    exact ⟨s, whileLoop_exit hno _, List.nil_sublist _⟩
  | cons user todo ih =>
    rw [List.cons_append] at hnew hnodup
    cases hroom : s.hasRoom with
    | false =>
      -- the server is full before the end of the pass
      rw [whileTrace_exit hroom]
      exact ⟨s, whileLoop_exit hroom _, List.nil_sublist _⟩
    | true =>
      obtain ⟨done', hnew', hnodup', -, hmax, husage, -⟩ := examine_head env hnew hnodup
      obtain ⟨t, hloop, htrace⟩ := ih (by rw [hmax, husage]; exact hfull) hnew' hnodup'
      rw [List.length_cons, whileLoop_succ hroom, whileTrace_succ hroom, hnew]
      exact ⟨t, hloop, htrace.cons_cons _⟩

/-- **The pass of a server that does not fill up.** The loop gets through it, examining
each session once; the sessions that were refused wait again, and there is room. -/
theorem pass_room (hroom : s.usage env todo < s.maxUser.toNat) (hnew : s.newUsers = todo ++ done)
    (hnodup : (s.users ++ (todo ++ done)).Nodup) :
    ∃ s', s'.newUsers = done ++ s.refused env todo ∧ s'.users.length < s'.maxUser.toNat ∧
      ∀ fuel, whileLoop hasRoom (examine env) (todo.length + fuel) s =
          whileLoop hasRoom (examine env) fuel s' ∧
        whileTrace hasRoom (examine env) (·.newUsers.head?) (todo.length + fuel) s =
          todo.map some ++ whileTrace hasRoom (examine env) (·.newUsers.head?) fuel s' := by
  induction todo generalizing s done with
  | nil =>
    refine ⟨s, by simpa [refused] using hnew, by simpa [usage, logins] using hroom, fun fuel => ?_⟩
    rw [List.length_nil, Nat.zero_add]
    exact ⟨rfl, rfl⟩
  | cons user todo ih =>
    rw [List.cons_append] at hnew hnodup
    -- the users are at most the places that will be taken, so there is room now
    have hguard : s.hasRoom = true := by
      rw [hasRoom_cons hnew, decide_eq_true_eq]
      exact Nat.lt_of_le_of_lt (Nat.le_add_right _ _) hroom
    obtain ⟨done', hnew', hnodup', rfl, hmax, husage, hrefused⟩ :=
      examine_head env hnew hnodup
    obtain ⟨s', hqueue, hroom', hloop⟩ := ih (by rw [hmax, husage]; exact hroom) hnew' hnodup'
    refine ⟨s', ?_, hroom', fun fuel => ?_⟩
    · rw [hqueue, hrefused, List.append_assoc]
      rw [refused, refused, refused, ← List.filter_append, List.singleton_append]
    · have hlen : (user :: todo).length + fuel = todo.length + fuel + 1 := by
        rw [List.length_cons]
        omega
      rw [hlen, whileLoop_succ hguard, whileTrace_succ hguard, (hloop fuel).1, (hloop fuel).2, hnew]
      exact ⟨rfl, rfl⟩

/-! ## A call of `UpdateUsers` -/

/-- The logins of the waiting sessions fill the server: every place is taken by a
connected user or by an account that logs in and has no connected user yet. -/
def LoginsFill (env : Env) (s : TcpServer) : Prop :=
  s.maxUser.toNat ≤ (s.users.filter s.isConnected).length +
    (s.logins env s.newUsers \ s.accounts (s.users.filter s.isConnected)).card

instance (env : Env) (s : TcpServer) : Decidable (LoginsFill env s) :=
  inferInstanceAs (Decidable (_ ≤ _))

/-- The sweep leaves waiting sessions and connected users as they are. -/
theorem removeDisconnected_sessions_of {u : SessionRef} (h : u ∈ s.users → s.isConnected u = true) :
    s.removeDisconnected.sessions u = s.sessions u := by
  refine if_neg ?_
  rintro ⟨hu, hclosed⟩
  rw [h hu] at hclosed
  cases hclosed

theorem removeDisconnected_usage (env : Env) (hnodup : (s.users ++ s.newUsers).Nodup) :
    s.maxUser.toNat ≤ s.removeDisconnected.usage env s.newUsers ↔ LoginsFill env s := by
  have hlogins : s.removeDisconnected.logins env s.newUsers = s.logins env s.newUsers :=
    logins_congr fun u hu => removeDisconnected_sessions_of fun husers =>
      absurd rfl ((List.nodup_append.mp hnodup).2.2 u husers u hu)
  have haccounts : s.removeDisconnected.accounts (s.users.filter s.isConnected) =
      s.accounts (s.users.filter s.isConnected) :=
    accounts_congr fun u hu => by
      rw [removeDisconnected_sessions_of fun _ => (List.mem_filter.mp hu).2]
  rw [usage, hlogins]
  exact haccounts ▸ Iff.rfl

/-- **When the admission loop ends.** A call of `UpdateUsers` returns, having examined
each waiting session at most once, exactly when the oldest message of every waiting
session logs in, or the logins fill the server. -/
theorem updateUsers_examines_once_iff (env : Env) {s : TcpServer}
    (hnodup : (s.users ++ s.newUsers).Nodup) :
    (∃ fuel t, s.updateUsers env fuel = some t ∧ (s.examined env fuel).Nodup) ↔
      (∀ u ∈ s.newUsers, (loginOf env (s.sessions u)).isSome) ∨ LoginsFill env s := by
  have hqueue : s.newUsers.Nodup := (List.nodup_append.mp hnodup).2.1
  have honce : (s.newUsers.map some).Nodup := hqueue.map (Option.some_injective _)
  have hnodup' : (s.removeDisconnected.users ++ (s.newUsers ++ [])).Nodup := by
    rw [List.append_nil]
    exact hnodup.sublist (List.filter_sublist.append_right _)
  have hnew : s.removeDisconnected.newUsers = s.newUsers ++ [] := (List.append_nil _).symm
  by_cases hfill : LoginsFill env s
  · -- the loop exits within the first pass
    obtain ⟨t, hloop, htrace⟩ :=
      pass_full ((removeDisconnected_usage env hnodup).mpr hfill) hnew hnodup'
    exact iff_of_true ⟨_, t, hloop, honce.sublist htrace⟩ (Or.inr hfill)
  · have hroom := Nat.lt_of_not_le (mt (removeDisconnected_usage env hnodup).mp hfill)
    obtain ⟨s', hqueue', hroom', hpass⟩ := pass_room hroom hnew hnodup'
    have hrefused : s.removeDisconnected.refused env s.newUsers = s.refused env s.newUsers :=
      refused_congr fun u hu => removeDisconnected_sessions_of fun husers =>
        absurd rfl ((List.nodup_append.mp hnodup).2.2 u husers u hu)
    rw [List.nil_append, hrefused] at hqueue'
    cases hrest : s.refused env s.newUsers with
    | nil =>
      -- the queue is empty after the pass
      have hexit : s'.hasRoom = false := by simp [hasRoom, hqueue', hrest]
      refine iff_of_true ⟨s.newUsers.length + 0, s', ?_, ?_⟩ (Or.inl fun u hu => ?_)
      · rw [updateUsers, (hpass 0).1, whileLoop_exit hexit]
      · rw [examined, (hpass 0).2, whileTrace_exit hexit, List.append_nil]
        exact honce
      · have := List.filter_eq_nil_iff.mp hrest u hu
        exact Option.isSome_iff_ne_none.mpr (by simpa using this)
    | cons u rest =>
      -- a refused session is at the head of the queue again, and there is room
      have hu : u ∈ s.newUsers ∧ (loginOf env (s.sessions u)).isNone = true :=
        List.mem_filter.mp (hrest ▸ List.mem_cons_self)
      have hagain : s'.hasRoom = true := by simp [hasRoom, hqueue', hrest, hroom']
      refine iff_of_false ?_ ?_
      · rintro ⟨fuel, t, hreturn, hexamined⟩
        rcases Nat.le_total fuel s.newUsers.length with hle | hle
        · -- the loop cannot have returned within the pass
          have hexit := whileLoop_le hle hreturn
          rw [← Nat.add_zero s.newUsers.length, (hpass 0).1, whileLoop_zero hagain] at hexit
          cases hexit
        · obtain ⟨more, rfl⟩ := Nat.exists_eq_add_of_le hle
          rw [updateUsers, (hpass more).1] at hreturn
          cases more with
          | zero => rw [whileLoop_zero hagain] at hreturn; cases hreturn
          | succ more =>
            -- and after it, `u` is examined for the second time
            rw [examined, (hpass _).2, whileTrace_succ hagain, hqueue', hrest] at hexamined
            exact (List.nodup_append.mp hexamined).2.2 (some u)
              (List.mem_map_of_mem hu.1) (some u) List.mem_cons_self rfl
      · rintro (hall | hfill')
        · have := hall u hu.1
          rw [Option.isNone_iff_eq_none.mp hu.2] at this
          cases this
        · exact hfill hfill'

/-- One session that has logged in is examined once. -/
theorem updateUsers_examines_ann_once :
    ∃ fuel t,
      (({} : TcpServer).onAccept.setSession 0 { inputQueue := [login "a"] }).updateUsers annAndBob
        fuel = some t ∧
      ((({} : TcpServer).onAccept.setSession 0 { inputQueue := [login "a"] }).examined annAndBob
        fuel).Nodup :=
  (updateUsers_examines_once_iff annAndBob (by decide)).mpr (Or.inl (by decide))

/-- A call never returns while there is room and nobody who waits has sent anything. -/
theorem updateUsers_silent {env : Env} {s : TcpServer} (hwaiting : s.newUsers ≠ [])
    (hroom : (s.users.filter s.isConnected).length < s.maxUser.toNat)
    (hsilent : ∀ u ∈ s.newUsers, (s.removeDisconnected.sessions u).pending = []) (fuel : Nat) :
    s.updateUsers env fuel = none := by
  -- the loop turns the queue round and round
  let Silent (s : TcpServer) : Prop := s.newUsers ≠ [] ∧ s.users.length < s.maxUser.toNat ∧
    ∀ u ∈ s.newUsers, (s.sessions u).pending = []
  refine whileLoop_diverges (I := Silent) (s := s.removeDisconnected) ?_ ?_
    ⟨hwaiting, hroom, hsilent⟩ fuel
  · rintro s - ⟨hwaiting, hroom, hsilent⟩
    obtain ⟨user, rest, hnew⟩ := List.exists_cons_of_ne_nil hwaiting
    have hnone : loginOf env (s.sessions user) = none := by
      rw [loginOf, hsilent user (by simp [hnew])]
    rcases s.examine_cases env hnew with
      ⟨-, session, hexamine, -, -, -, hpending⟩ | ⟨id, userEntity, hlogin, -⟩
    · rw [hexamine]
      refine ⟨by simp, hroom, fun u hu => ?_⟩
      have hmem : u ∈ s.newUsers := by
        rw [hnew]
        simpa [or_comm] using hu
      by_cases heq : u = user
      · subst heq
        rw [requeue_sessions_self, hpending, hsilent u hmem, List.tail_nil]
      · rw [requeue_sessions_of_ne _ _ _ heq]
        exact hsilent u hmem
    · rw [hnone] at hlogin
      cases hlogin
  · rintro s ⟨hwaiting, hroom, -⟩
    cases hnew : s.newUsers with
    | nil => exact absurd hnew hwaiting
    | cons user rest => rw [hasRoom_cons hnew, decide_eq_true hroom]

/-- A client that connects to the empty server and sends nothing hangs it. -/
theorem updateUsers_hangs_on_first_connection :
    ¬ ∃ fuel t, ({} : TcpServer).onAccept.updateUsers annAndBob fuel = some t := by
  rintro ⟨fuel, t, h⟩
  rw [updateUsers_silent (by decide) (by decide) (by decide)] at h
  cases h

end TcpServer

end BoostChat.Server
