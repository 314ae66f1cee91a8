import BoostChat.Lib.RoundRobin
import BoostChat.Lib.Seats
import BoostChat.Server.UpdateLoop

/-!
# Who is admitted, and in which order

What one call of `UpdateUsers` does, told from the state in which it starts:

* `loginOrder` — the waiting sessions that log in, in the order in which they do: by the
  number of messages that are taken before the one that logs in, then by their place in
  the queue;
* `placed` — those of them that get a place;
* `updateUsers_seats` — when the call returns, the users are what the connected users
  become when `placed` come in one after the other, each taking the place of the session of
  its account (`seatAll`);
* `updateUsers_returns` — it returns when every waiting session holds a message that logs in.
-/

namespace BoostChat.Server

open Lib

/-- The number of messages that are taken before the first one that logs in. -/
def loginDelay (env : Env) (pending : List ChatMessage) : Option Nat :=
  pending.findIdx? fun msg => (identify env msg.content).isSome

/-- The account that the first message that logs in logs in to. -/
def loginAccount (env : Env) (pending : List ChatMessage) : Option UInt32 :=
  pending.findSome? fun msg => (identify env msg.content).map (·.1)

section Messages

variable {env : Env} {u : UserSession}

theorem loginDelay_of_login {account : UInt32 × UserEntity} (h : loginOf env u = some account) :
    loginDelay env u.pending = some 0 ∧ loginAccount env u.pending = some account.1 := by
  unfold loginOf at h
  cases hpending : u.pending with
  | nil =>
    rw [hpending] at h
    cases h
  | cons msg rest =>
    rw [hpending] at h
    have hid : identify env msg.content = some account := h
    refine ⟨?_, ?_⟩
    · rw [loginDelay, List.findIdx?_cons, hid]
      rfl
    · rw [loginAccount, List.findSome?_cons, hid]
      rfl

/-- A message that does not log in is one less to take before the one that does. -/
theorem loginDelay_of_refused (h : loginOf env u = none) :
    loginDelay env u.pending ≠ some 0 ∧
    loginDelay env u.pending.tail = (loginDelay env u.pending).map (· - 1) ∧
    loginAccount env u.pending.tail = loginAccount env u.pending := by
  unfold loginOf at h
  cases hpending : u.pending with
  | nil => exact ⟨nofun, rfl, rfl⟩
  | cons msg rest =>
    rw [hpending] at h
    have hid : identify env msg.content = none := h
    have hdelay : loginDelay env (msg :: rest) = (loginDelay env rest).map (· + 1) := by
      rw [loginDelay, List.findIdx?_cons, hid]
      rfl
    refine ⟨?_, ?_, ?_⟩
    · rw [hdelay]
      cases loginDelay env rest <;> simp
    · rw [hdelay, List.tail_cons]
      cases loginDelay env rest <;> simp
    · rw [List.tail_cons, loginAccount, loginAccount, List.findSome?_cons, hid]
      rfl

theorem loginDelay_lt {pending : List ChatMessage} {k : Nat} (h : loginDelay env pending = some k) :
    k < pending.length :=
  (List.findIdx?_eq_some_iff_getElem.mp h).1

/-- A message that logs in is not the one that has been taken without success. -/
theorem mem_tail_of_refused (h : loginOf env u = none) {msg : ChatMessage} (hmsg : msg ∈ u.pending)
    (hvalid : (identify env msg.content).isSome = true) : msg ∈ u.pending.tail := by
  unfold loginOf at h
  cases hpending : u.pending with
  | nil =>
    rw [hpending] at hmsg
    cases hmsg
  | cons first rest =>
    rw [hpending] at h hmsg
    have hnone : identify env first.content = none := h
    rcases List.mem_cons.mp hmsg with rfl | hrest
    · rw [hnone] at hvalid
      cases hvalid
    · exact hrest

end Messages

namespace TcpServer

variable {env : Env} {s t : TcpServer}

/-- The account of a user, or the one that a waiting session logs in to. -/
def account (env : Env) (s : TcpServer) (u : SessionRef) : UInt32 :=
  if u ∈ s.users then (s.sessions u).id
  else (loginAccount env (s.sessions u).pending).getD 0

/-- The waiting sessions that log in after less than `n` other messages, in order. -/
def loginsWithin (env : Env) (n : Nat) (s : TcpServer) : List SessionRef :=
  rounds n (fun u => loginDelay env (s.sessions u).pending) s.newUsers

/-- At least as many rounds as any waiting session has messages. -/
def roundBound (s : TcpServer) : Nat := (s.newUsers.flatMap fun u => (s.sessions u).pending).length

theorem pending_le_roundBound {u : SessionRef} (hu : u ∈ s.newUsers) :
    (s.sessions u).pending.length ≤ s.roundBound := by
  have hmem := List.mem_map_of_mem (f := fun u => (s.sessions u).pending) hu
  rw [roundBound, List.flatMap_def]
  exact (List.sublist_flatten_of_mem hmem).length_le

/-- The waiting sessions that log in, in the order in which they do. -/
def loginOrder (env : Env) (s : TcpServer) : List SessionRef :=
  s.loginsWithin env s.roundBound

/-- The users that the sweep leaves. -/
def liveUsers (s : TcpServer) : List SessionRef := s.users.filter s.isConnected

/-- The sessions that get a place: as many as come while the connected users, and the
accounts without one that came before, are fewer than `m_MaxUser`. -/
def placed (env : Env) (s : TcpServer) : List SessionRef :=
  (s.loginOrder env).take ((List.range (s.loginOrder env).length).countP fun i =>
    occupied (s.account env) s.liveUsers ((s.loginOrder env).take i) < s.maxUser.toNat)

/-- The user that the next iteration logs out, and the session that it admits instead. -/
def replacement (env : Env) (s : TcpServer) : Option (SessionRef × SessionRef) :=
  match s.newUsers with
  | [] => none
  | user :: _ => (s.users.find? fun old => old ∉ (s.examine env).users).map (·, user)

/-- The replacements that one call makes, in order. -/
def replacements (env : Env) (fuel : Nat) (s : TcpServer) : List (SessionRef × SessionRef) :=
  (whileTrace hasRoom (examine env) (replacement env) fuel s.removeDisconnected).filterMap id

/-! ## One iteration -/

section Step

variable {owner : SessionRef → UInt32} {n : Nat} {user : SessionRef} {rest : List SessionRef}

/-- What the loop needs to know of a state: the accounts of users and waiting sessions are
`owner`, and nobody waits longer than `n` rounds. -/
structure Owned (env : Env) (owner : SessionRef → UInt32) (n : Nat) (s : TcpServer) : Prop where
  nodup : (s.users ++ s.newUsers).Nodup
  users : ∀ u ∈ s.users, (s.sessions u).id = owner u
  waiting : ∀ u ∈ s.newUsers, ∀ id,
    loginAccount env (s.sessions u).pending = some id → owner u = id
  delay : ∀ u ∈ s.newUsers, ∀ k, loginDelay env (s.sessions u).pending = some k → k < n

theorem Owned.head_not_user (h : Owned env owner n s) (hnew : s.newUsers = user :: rest) :
    user ∉ s.users ∧ user ∉ rest ∧ ∀ u ∈ rest, u ∉ s.users := by
  have hnodup := h.nodup
  rw [hnew] at hnodup
  obtain ⟨-, hqueue, hcross⟩ := List.nodup_append.mp hnodup
  refine ⟨fun hu => hcross user hu user List.mem_cons_self rfl, (List.nodup_cons.mp hqueue).1, ?_⟩
  exact fun u hu husers => hcross u husers u (List.mem_cons_of_mem _ hu) rfl

/-- The session that is missing from the users afterwards is the displaced one. -/
theorem Owned.replacement_eq (h : Owned env owner n s) (hnew : s.newUsers = user :: rest)
    (husers : (s.examine env).users = seat owner s.users user) :
    s.replacement env = (displaced owner s.users user).map (·, user) := by
  rw [replacement, hnew, husers]
  refine congrArg (Option.map (·, user)) ?_
  obtain ⟨hnot, -, -⟩ := h.head_not_user hnew
  rcases seat_cases owner s.users user with ⟨hnone, -, hseat⟩ |
    ⟨old, left, right, hold, -, hsplit, -, hseat⟩
  · rw [hnone, hseat, List.find?_eq_none]
    intro v hv
    simp [hv]
  · have hnodup := (List.nodup_append.mp h.nodup).1
    rw [hsplit] at hnodup hnot
    rw [hold, hseat, hsplit, List.find?_eq_some_iff_append]
    refine ⟨?_, left, right, rfl, fun v hv => by simp [hv]⟩
    obtain ⟨hold, -⟩ := List.nodup_cons.mp (List.nodup_middle.mp hnodup)
    have hne : old ≠ user := fun heq => hnot (by simp [heq])
    rw [List.mem_append] at hold
    simp [hne, not_or.mp hold]

/-- The sessions that wait behind an admitted one are as before. -/
theorem Owned.behind_admitted (h : Owned env owner n s) (hnew : s.newUsers = user :: rest)
    (session : UserSession) {v : SessionRef} (hv : v ∈ rest) :
    ((s.taken user rest session).admitUser user).sessions v = s.sessions v := by
  obtain ⟨-, hhead, hrest⟩ := h.head_not_user hnew
  exact s.taken_admitUser_sessions_of_not_mem rest session (ne_of_mem_of_not_mem hv hhead)
    (hrest v hv)

/-- The session that is put back has lost a message that does not log in. -/
theorem Owned.requeue (h : Owned env owner n s) (hnew : s.newUsers = user :: rest)
    (hlogin : loginOf env (s.sessions user) = none) {session : UserSession}
    (hpending : session.pending = (s.sessions user).pending.tail) :
    Owned env owner n (s.requeue user rest session) := by
  obtain ⟨hnot, -, -⟩ := h.head_not_user hnew
  obtain ⟨-, hdelay, haccount⟩ := loginDelay_of_refused hlogin
  have hother : ∀ v, v ≠ user → (s.requeue user rest session).sessions v = s.sessions v :=
    fun v hv => requeue_sessions_of_ne _ _ _ hv
  have hself : ((s.requeue user rest session).sessions user).pending =
      (s.sessions user).pending.tail := by
    rw [requeue_sessions_self, hpending]
  have hmem : ∀ v ∈ rest ++ [user], v ∈ s.newUsers := by
    intro v hv
    rw [hnew]
    simpa [or_comm] using hv
  -- only the session at the head changes: it has one message less, and none that logs in
  refine ⟨?_, ?_, ?_, ?_⟩
  · have hnodup := h.nodup
    rw [hnew] at hnodup
    exact (List.Perm.nodup_iff ((List.perm_append_singleton user rest).append_left _)).mpr hnodup
  · intro v hv
    rw [requeue_users] at hv
    rw [hother v (ne_of_mem_of_not_mem hv hnot)]
    exact h.users v hv
  · intro v hv id hid
    by_cases heq : v = user
    · subst heq
      rw [hself, haccount] at hid
      exact h.waiting v (hmem v hv) id hid
    · rw [hother v heq] at hid
      exact h.waiting v (hmem v hv) id hid
  · intro v hv k hk
    by_cases heq : v = user
    · subst heq
      rw [hself, hdelay] at hk
      obtain ⟨j, hj, rfl⟩ := Option.map_eq_some_iff.mp hk
      exact Nat.lt_of_le_of_lt (Nat.sub_le j 1) (h.delay v (hmem v hv) j hj)
    · rw [hother v heq] at hk
      exact h.delay v (hmem v hv) k hk

/-- The session that is admitted has the account it logged in to. -/
theorem Owned.admission (h : Owned env owner n s) (hnew : s.newUsers = user :: rest)
    {session : UserSession} (howner : session.id = owner user) :
    Owned env owner n ((s.taken user rest session).admitUser user) := by
  obtain ⟨hnot, -, -⟩ := h.head_not_user hnew
  have hmem : ∀ v ∈ rest, v ∈ s.newUsers := fun v hv => hnew ▸ List.mem_cons_of_mem _ hv
  refine ⟨?_, ?_, ?_, ?_⟩
  · have hnodup := h.nodup
    rw [hnew] at hnodup
    rw [admitUser_newUsers, taken_newUsers, TcpServer.admitUser_users, List.append_assoc]
    exact hnodup.sublist (((s.taken user rest session).remaining_sublist user).append_right _)
  · intro v hv
    by_cases heq : v = user
    · subst heq
      rw [taken_admitUser_sessions_self rest session hnot, howner]
    · rw [TcpServer.admitUser_users, List.mem_append, List.mem_singleton] at hv
      have hmem := ((s.taken user rest session).remaining_sublist user).subset
        (hv.resolve_right heq)
      rw [taken_admitUser_sessions_of_ne _ _ _ heq]
      split
      -- a session that is closed keeps its id
      · exact h.users v hmem
      · exact h.users v hmem
  · intro v hv
    rw [admitUser_newUsers, taken_newUsers] at hv
    rw [h.behind_admitted hnew session hv]
    exact h.waiting v (hmem v hv)
  · intro v hv
    rw [admitUser_newUsers, taken_newUsers] at hv
    rw [h.behind_admitted hnew session hv]
    exact h.delay v (hmem v hv)

/-- An admission closes nobody but the session whose place is taken. -/
theorem Owned.admitUser_isConnected (h : Owned env owner n s) (hnew : s.newUsers = user :: rest)
    {session : UserSession} (howner : session.id = owner user)
    (hactive : session.isActive = (s.sessions user).isActive) (v : SessionRef) :
    ((s.taken user rest session).admitUser user).isConnected v = true ↔
      s.isConnected v = true ∧ displaced owner s.users user ≠ some v := by
  obtain ⟨hnot, -, -⟩ := h.head_not_user hnew
  have hevicted : (s.taken user rest session).evicted user = displaced owner s.users user :=
    taken_evicted hnot h.users howner
  rw [isConnected, ← hevicted]
  by_cases heq : v = user
  · subst heq
    have hself : (s.taken v rest session).evicted v ≠ some v := fun hev => hnot (evicted_mem hev).1
    rw [taken_admitUser_sessions_self rest session hnot, and_iff_left hself,
      UserSession.isConnected, hactive]
    exact Iff.rfl
  · rw [taken_admitUser_sessions_of_ne _ _ _ heq]
    split
    · rename_i hev
      exact iff_of_false Bool.false_ne_true fun h => h.2 hev
    · rename_i hev
      exact (and_iff_left hev).symm

/-- **A session that is put back** changes no place in the login order. -/
theorem Owned.refused (h : Owned env owner n s) (hnew : s.newUsers = user :: rest)
    (hlogin : loginOf env (s.sessions user) = none) :
    Owned env owner n (s.examine env) ∧ (s.examine env).users = s.users ∧
      (s.examine env).maxUser = s.maxUser ∧
      (s.examine env).loginsWithin env n = s.loginsWithin env n ∧
      (∀ v, (s.examine env).isConnected v = s.isConnected v) ∧ s.replacement env = none := by
  rcases s.examine_cases env hnew with
    ⟨-, session, hexamine, hactive, -, -, hpending⟩ | ⟨id, userEntity, hsome, -⟩
  · obtain ⟨-, hhead, -⟩ := h.head_not_user hnew
    obtain ⟨hzero, hdelay, -⟩ := loginDelay_of_refused hlogin
    rw [replacement, hnew, hexamine]
    refine ⟨h.requeue hnew hlogin hpending, rfl, rfl, ?_, ?_, ?_⟩
    · -- one message less to take, and one place further back
      rw [loginsWithin, loginsWithin, requeue_newUsers, hnew]
      refine rounds_putBack hzero ?_ ?_ (h.delay user (by simp [hnew]))
      · rw [requeue_sessions_self, hpending, hdelay]
      · intro v hv
        rw [requeue_sessions_of_ne _ _ _ (ne_of_mem_of_not_mem hv hhead)]
    · exact fun v => setSession_congr (·.isActive) hactive v
    · rw [requeue_users]
      exact congrArg (Option.map (·, user)) (List.find?_eq_none.mpr fun v hv => by simp [hv])
  · rw [hlogin] at hsome
    cases hsome

/-- **A session that is admitted** is the first of the login order, and the rest stays. -/
theorem Owned.admitted (h : Owned env owner n s) (hnew : s.newUsers = user :: rest)
    {account : UInt32 × UserEntity} (hlogin : loginOf env (s.sessions user) = some account) :
    Owned env owner n (s.examine env) ∧ (s.examine env).users = seat owner s.users user ∧
      (s.examine env).maxUser = s.maxUser ∧
      s.loginsWithin env n = user :: (s.examine env).loginsWithin env n ∧
      (∀ v, (s.examine env).isConnected v = true ↔
        s.isConnected v = true ∧ displaced owner s.users user ≠ some v) ∧
      s.replacement env = (displaced owner s.users user).map (·, user) := by
  obtain ⟨hdelay, haccount⟩ := loginDelay_of_login hlogin
  rcases s.examine_cases env hnew with ⟨hnone, -⟩ | ⟨id, userEntity, hsome, session, hexamine, hid,
    -, -, hactive, -⟩
  · rw [hlogin] at hnone
    cases hnone
  · obtain rfl : account = (id, userEntity) := Option.some.inj (hlogin.symm.trans hsome)
    have howner : session.id = owner user :=
      hid.trans (h.waiting user (by simp [hnew]) id haccount).symm
    have husers : ((s.taken user rest session).admitUser user).users = seat owner s.users user :=
      admitUser_seat (h.head_not_user hnew).1 h.users howner
    rw [hexamine]
    refine ⟨h.admission hnew howner, husers, ?_, ?_, ?_, ?_⟩
    · rw [admitUser_maxUser]
      rfl
    · have hserve : rounds n (fun u => loginDelay env (s.sessions u).pending) (user :: rest) =
          user :: rounds n (fun u => loginDelay env (s.sessions u).pending) rest :=
        rounds_serve (h.delay user (by simp [hnew]) 0 hdelay) hdelay
      rw [loginsWithin, loginsWithin, hnew, admitUser_newUsers, taken_newUsers, hserve]
      refine congrArg (user :: ·) (rounds_congr fun v hv => ?_).symm
      rw [h.behind_admitted hnew session hv]
    · exact h.admitUser_isConnected hnew howner hactive
    · exact h.replacement_eq hnew (by rw [hexamine, husers])

theorem Owned.next (h : Owned env owner n s) (hnew : s.newUsers = user :: rest) :
    Owned env owner n (s.examine env) := by
  cases hlogin : loginOf env (s.sessions user) with
  | none => exact (h.refused hnew hlogin).1
  | some account => exact (h.admitted hnew hlogin).1

/-! ## The loop -/

/-- While the guard holds, somebody waits and there is a place. -/
theorem hasRoom_head (h : s.hasRoom = true) :
    (∃ user rest, s.newUsers = user :: rest) ∧ s.users.length < s.maxUser.toNat := by
  obtain ⟨hwaiting, hplace⟩ := Bool.and_eq_true_iff.mp h
  refine ⟨List.exists_cons_of_ne_nil ?_, of_decide_eq_true hplace⟩
  simpa using hwaiting

/-- The sessions that the loop admits from this state on. -/
def admissions (env : Env) (owner : SessionRef → UInt32) (n : Nat) (s : TcpServer) :
    List SessionRef :=
  seated owner s.maxUser.toNat s.users (s.loginsWithin env n)

/-- The loop exits when nobody waits or no place is left. -/
theorem admissions_exit (h : s.hasRoom = false) : s.admissions env owner n = [] := by
  rw [hasRoom, Bool.and_eq_false_iff] at h
  rcases h with hempty | hfull
  · have hnew : s.newUsers = [] := by simpa using hempty
    rw [admissions, loginsWithin, hnew, rounds_nil]
    rfl
  · rw [admissions]
    cases s.loginsWithin env n with
    | nil => rfl
    | cons u order => exact if_neg (of_decide_eq_false hfull)

theorem Owned.admissions_refused (h : Owned env owner n s) (hnew : s.newUsers = user :: rest)
    (hlogin : loginOf env (s.sessions user) = none) :
    (s.examine env).admissions env owner n = s.admissions env owner n := by
  obtain ⟨-, husers, hmax, horder, -⟩ := h.refused hnew hlogin
  rw [admissions, admissions, husers, hmax, horder]

theorem Owned.admissions_admitted (h : Owned env owner n s) (hnew : s.newUsers = user :: rest)
    (hroom : s.users.length < s.maxUser.toNat)
    {account : UInt32 × UserEntity} (hlogin : loginOf env (s.sessions user) = some account) :
    s.admissions env owner n = user :: (s.examine env).admissions env owner n := by
  obtain ⟨-, husers, hmax, horder, -⟩ := h.admitted hnew hlogin
  rw [admissions, admissions, husers, hmax, horder, seated, if_pos hroom]

/-- What the loop has done when it exits: each of `as` has come in. -/
structure Seated (owner : SessionRef → UInt32) (as : List SessionRef) (s t : TcpServer)
    (log : List (SessionRef × SessionRef)) : Prop where
  users : t.users = seatAll owner s.users as
  log : log = displacements owner s.users as
  connected : ∀ v, t.isConnected v = true ↔
    s.isConnected v = true ∧ v ∉ (displacements owner s.users as).map Prod.fst

theorem Seated.refl (owner : SessionRef → UInt32) (s : TcpServer) : Seated owner [] s s [] where
  users := rfl
  log := rfl
  connected _ := (and_iff_left nofun).symm

/-- A session is put back first. -/
theorem Seated.refused {as : List SessionRef} {log : List (SessionRef × SessionRef)}
    (h : Seated owner as (s.examine env) t log) (husers : (s.examine env).users = s.users)
    (hconnected : ∀ v, (s.examine env).isConnected v = s.isConnected v) :
    Seated owner as s t log where
  users := husers ▸ h.users
  log := husers ▸ h.log
  connected v := by
    rw [h.connected v, hconnected v, husers]

/-- A session is admitted first. -/
theorem Seated.admitted {as : List SessionRef} {log : List (SessionRef × SessionRef)}
    (h : Seated owner as (s.examine env) t log)
    (husers : (s.examine env).users = seat owner s.users user)
    (hconnected : ∀ v, (s.examine env).isConnected v = true ↔
      s.isConnected v = true ∧ displaced owner s.users user ≠ some v) :
    Seated owner (user :: as) s t
      (((displaced owner s.users user).map (·, user)).toList ++ log) where
  users := by
    rw [seatAll_cons, ← husers]
    exact h.users
  log := by
    rw [displacements_cons, ← husers, h.log]
  connected v := by
    rw [h.connected v, hconnected v, husers, displacements_cons, List.map_append, List.mem_append,
      not_or, and_assoc]
    -- closed by this admission, or by a later one
    refine and_congr_right fun _ => and_congr_left fun _ => not_congr ?_
    cases displaced owner s.users user with
    | none => exact iff_of_false nofun nofun
    | some old => simp [eq_comm]

/-- **The loop seats the sessions of the login order**, while there is a place. -/
theorem Owned.loop {fuel : Nat} (h : Owned env owner n s)
    (hloop : whileLoop hasRoom (examine env) fuel s = some t) :
    Seated owner (s.admissions env owner n) s t
      ((whileTrace hasRoom (examine env) (replacement env) fuel s).filterMap id) := by
  -- on the fuel, for all states
  induction fuel generalizing s with
  | zero =>
    cases hroom : s.hasRoom with
    | true =>
      rw [whileLoop_zero hroom] at hloop
      cases hloop
    | false =>
      rw [whileLoop_exit hroom] at hloop
      obtain rfl := Option.some.inj hloop
      rw [admissions_exit hroom]
      exact .refl owner s
  | succ fuel ih =>
    cases hroom : s.hasRoom with
    | false =>
      rw [whileLoop_exit hroom] at hloop
      obtain rfl := Option.some.inj hloop
      rw [admissions_exit hroom, whileTrace_exit hroom]
      exact .refl owner s
    | true =>
      rw [whileLoop_succ hroom] at hloop
      rw [whileTrace_succ hroom, List.filterMap_cons]
      obtain ⟨⟨user, rest, hnew⟩, hplace⟩ := hasRoom_head hroom
      cases hlogin : loginOf env (s.sessions user) with
      | none =>
        obtain ⟨hnext, husers, -, -, hconnected, hnone⟩ := h.refused hnew hlogin
        rw [hnone, ← h.admissions_refused hnew hlogin]
        exact (ih hnext hloop).refused husers hconnected
      | some account =>
        obtain ⟨hnext, husers, -, -, hconnected, hreplacement⟩ := h.admitted hnew hlogin
        have hseated := (ih hnext hloop).admitted husers hconnected
        rw [h.admissions_admitted hnew hplace hlogin, hreplacement]
        cases hold : displaced owner s.users user with
        | none =>
          rw [hold] at hseated
          exact hseated
        | some old =>
          rw [hold] at hseated
          exact hseated

/-! ## A call -/

/-- The sweep closes nobody who is connected. -/
theorem removeDisconnected_isConnected (s : TcpServer) (u : SessionRef) :
    s.removeDisconnected.isConnected u = s.isConnected u := by
  cases hu : s.isConnected u with
  | true =>
    rw [isConnected, removeDisconnected_sessions_of fun _ => hu]
    exact hu
  | false => exact removeDisconnected_closed hu

theorem removeDisconnected_waiting (hnodup : (s.users ++ s.newUsers).Nodup) {u : SessionRef}
    (hu : u ∈ s.newUsers) : s.removeDisconnected.sessions u = s.sessions u :=
  removeDisconnected_sessions_of fun husers =>
    absurd rfl ((List.nodup_append.mp hnodup).2.2 u husers u hu)

theorem owned_start (env : Env) (hnodup : (s.users ++ s.newUsers).Nodup) :
    Owned env (s.account env) s.roundBound s.removeDisconnected where
  nodup := hnodup.sublist (List.filter_sublist.append_right _)
  users u hu := by
    obtain ⟨hmem, hconnected⟩ := List.mem_filter.mp hu
    rw [removeDisconnected_sessions_of fun _ => hconnected, account, if_pos hmem]
  waiting u hu id hid := by
    have hnot : u ∉ s.users := fun husers => (List.nodup_append.mp hnodup).2.2 u husers u hu rfl
    rw [removeDisconnected_waiting hnodup hu] at hid
    rw [account, if_neg hnot, hid, Option.getD_some]
  delay u hu k hk := by
    rw [removeDisconnected_waiting hnodup hu] at hk
    exact Nat.lt_of_lt_of_le (loginDelay_lt hk) (pending_le_roundBound hu)

/-- Nothing that decides who is admitted changes in the sweep. -/
theorem admissions_start (env : Env) (hnodup : (s.users ++ s.newUsers).Nodup) :
    s.removeDisconnected.admissions env (s.account env) s.roundBound = s.placed env := by
  have horder : s.removeDisconnected.loginsWithin env s.roundBound = s.loginOrder env :=
    rounds_congr fun u hu => by rw [removeDisconnected_waiting hnodup hu]
  rw [admissions, seated_eq_take, horder]
  rfl

/-- **What a call of `UpdateUsers` does.** When it returns, the sessions that get a place
have come in one after the other, each in the place of the user of its account, and nobody
has been closed but those whose place was taken. -/
theorem updateUsers_seats {fuel : Nat} (hnodup : (s.users ++ s.newUsers).Nodup)
    (hreturn : s.updateUsers env fuel = some t) :
    t.users = seatAll (s.account env) s.liveUsers (s.placed env) ∧
      s.replacements env fuel = displacements (s.account env) s.liveUsers (s.placed env) ∧
      ∀ v, t.isConnected v = true ↔ s.isConnected v = true ∧
        v ∉ (displacements (s.account env) s.liveUsers (s.placed env)).map Prod.fst := by
  have hseated := (owned_start env hnodup).loop hreturn
  rw [admissions_start env hnodup] at hseated
  refine ⟨hseated.users, hseated.log, fun v => ?_⟩
  rw [hseated.connected v, removeDisconnected_isConnected]
  exact Iff.rfl

/-! ## When every waiting session logs in -/

/-- Every waiting session holds a message with a valid session id. -/
def AllLogIn (env : Env) (s : TcpServer) : Prop :=
  ∀ u ∈ s.newUsers, ∃ msg ∈ (s.sessions u).pending, (identify env msg.content).isSome

/-- An iteration takes a message off the queue, and those that log in are still there. -/
theorem AllLogIn.next (h : AllLogIn env s) (hnew : s.newUsers = user :: rest)
    (howned : Owned env owner n s) :
    AllLogIn env (s.examine env) ∧ (s.examine env).roundBound < s.roundBound := by
  obtain ⟨-, hhead, -⟩ := howned.head_not_user hnew
  obtain ⟨msg, hmsg, hvalid⟩ := h user (by simp [hnew])
  have hpos : 0 < (s.sessions user).pending.length := List.length_pos_of_mem hmsg
  have hothers : ∀ v ∈ rest, ∃ msg ∈ (s.sessions v).pending, (identify env msg.content).isSome :=
    fun v hv => h v (hnew ▸ List.mem_cons_of_mem _ hv)
  have hbefore : s.roundBound = (s.sessions user).pending.length +
      (rest.flatMap fun u => (s.sessions u).pending).length := by
    rw [roundBound, hnew, List.flatMap_cons, List.length_append]
  -- the measure is the number of messages that wait; the head loses one or goes altogether
  rcases s.examine_cases env hnew with
    ⟨hlogin, session, hexamine, -, -, -, hpending⟩ | ⟨id, userEntity, hlogin, session, hexamine, -⟩
  · have hsame : ∀ v ∈ rest, (s.requeue user rest session).sessions v = s.sessions v :=
      fun v hv => requeue_sessions_of_ne _ _ _ (ne_of_mem_of_not_mem hv hhead)
    rw [hexamine]
    constructor
    · intro v hv
      rw [requeue_newUsers, List.mem_append, List.mem_singleton] at hv
      rcases hv with hv | rfl
      · rw [hsame v hv]
        exact hothers v hv
      · rw [requeue_sessions_self, hpending]
        exact ⟨msg, mem_tail_of_refused hlogin hmsg hvalid, hvalid⟩
    · have hafter : (s.requeue user rest session).roundBound =
          (rest.flatMap fun u => (s.sessions u).pending).length +
            (s.sessions user).pending.tail.length := by
        rw [roundBound, requeue_newUsers, List.flatMap_append, List.length_append,
          List.flatMap_congr fun v hv => by rw [hsame v hv], List.flatMap_singleton,
          requeue_sessions_self, hpending]
      rw [hafter, hbefore, List.length_tail]
      omega
  · have hsame : ∀ v ∈ rest, ((s.taken user rest session).admitUser user).sessions v =
        s.sessions v := fun v hv => howned.behind_admitted hnew session hv
    rw [hexamine]
    constructor
    · intro v hv
      rw [admitUser_newUsers, taken_newUsers] at hv
      rw [hsame v hv]
      exact hothers v hv
    · have hafter : ((s.taken user rest session).admitUser user).roundBound =
          (rest.flatMap fun u => (s.sessions u).pending).length := by
        rw [roundBound, admitUser_newUsers, taken_newUsers,
          List.flatMap_congr fun v hv => by rw [hsame v hv]]
      omega

/-- **A call returns** when every waiting session logs in sooner or later. -/
theorem Owned.returns {fuel : Nat} (h : Owned env owner n s) (hall : AllLogIn env s)
    (hfuel : s.roundBound ≤ fuel) : ∃ t, whileLoop hasRoom (examine env) fuel s = some t := by
  -- every iteration lowers the number of messages that are still to be taken
  induction fuel generalizing s with
  | zero =>
    cases hroom : s.hasRoom with
    | false => exact ⟨s, whileLoop_exit hroom _⟩
    | true =>
      obtain ⟨⟨user, rest, hnew⟩, -⟩ := hasRoom_head hroom
      have hless := (hall.next hnew h).2
      omega
  | succ fuel ih =>
    cases hroom : s.hasRoom with
    | false => exact ⟨s, whileLoop_exit hroom _⟩
    | true =>
      obtain ⟨⟨user, rest, hnew⟩, -⟩ := hasRoom_head hroom
      obtain ⟨hall', hless⟩ := hall.next hnew h
      rw [whileLoop_succ hroom]
      exact ih (h.next hnew) hall' (by omega)

theorem updateUsers_returns (hnodup : (s.users ++ s.newUsers).Nodup) (hall : AllLogIn env s) :
    ∃ fuel t, s.updateUsers env fuel = some t := by
  have hall' : AllLogIn env s.removeDisconnected := by
    intro u hu
    rw [removeDisconnected_waiting hnodup hu]
    exact hall u hu
  exact ⟨_, (owned_start env hnodup).returns hall' (Nat.le_refl _)⟩

end Step

end TcpServer

end BoostChat.Server
