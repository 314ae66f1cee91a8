import BoostChat.Joint.System

/-!
# Who is admitted has logged in

* `Bound` — the invariant of the joint system: a session key of Redis holds the decimal
  text of the account that a login stored under it; a queued message was received with
  that content; an admission presents an issued session id;
* `admission_binding` — every user is verified, has sent a session id that was issued
  for an account, and has the id and the entity of that very account.

The text goes through `std::stoul` and the narrowing to 32 bits without loss: an id that
does not fit is rejected (`stringToUint32_decimal`).
-/

namespace BoostChat.Joint

open Lib Api.CacheRepository

/-! ## What a login finds -/

/-- A login that succeeds found the key of a row under the session id. -/
theorem identify_row {l : Server.LookUp} {redis : Server.Redis} {users : List UserRow}
    {sessionId : Bytes} {id : UInt32} {userEntity : Server.UserEntity}
    (h : Server.identify (l.env redis users) sessionId = some (id, userEntity)) :
    ∃ row ∈ users, redis (sessionKey sessionId) = some (decimal row.id) ∧ row.id < 2 ^ 32 ∧
      id.toNat = row.id ∧ userEntity.id.toNat = row.id := by
  simp only [Server.identify] at h
  split at h
  · cases h
  · split at h
    · rename_i id' userEntity' hid hentity
      obtain ⟨rfl, rfl⟩ := Prod.mk.inj (Option.some.inj h)
      obtain ⟨row, hrow, hkey, rfl⟩ := Server.LookUp.getUserById_row hentity
      -- the reply is the text of a key, so it is no answer for a missing one
      have hvalue : ((l.env redis users).get (ascii "Session:" ++ sessionId)).value ≠ [] :=
        hkey ▸ decimal_ne_nil row.id
      have hredis := Server.LookUp.get_value hvalue
      rw [← hkey] at hid hredis
      obtain ⟨hlt, hid⟩ := Server.stringToUint32_decimal hid
      refine ⟨row, hrow, hredis, hlt, hid, ?_⟩
      show row.id.toUInt32.toNat = row.id
      rw [Nat.toUInt32, UInt32.toNat_ofNat']
      omega
    · cases h

/-! ## What the API server stores -/

/-- What is stored after the loss of a key was stored before. -/
theorem get_of_expire {redis : Api.Redis} {key key' v : Bytes}
    (h : Function.update redis key none key' = some v) : redis key' = some v := by
  rw [Function.update_apply] at h
  split at h
  · cases h
  · exact h

/-- A session key after a session was stored. -/
theorem storeSession_sessionKey {redis : Api.Redis} {sessionId : Bytes} {accountId : Nat}
    {sessionId' v : Bytes}
    (h : storeSession redis sessionId accountId (sessionKey sessionId') = some v) :
    (sessionId' = sessionId ∧ v = decimal accountId) ∨ redis (sessionKey sessionId') = some v := by
  rw [storeSession, Function.update_of_ne (sessionKey_ne_accountKey _ _), Function.update_apply]
    at h
  split at h
  · rename_i heq
    exact Or.inl ⟨sessionKey_inj.mp heq, (Option.some.inj h).symm⟩
  · exact Or.inr h

/-- The transaction of a login stores its session; the other session keys stay or go. -/
theorem transaction_sessionKey {redis after : Api.Redis} {sessionId : Bytes} {accountId : Nat}
    {existing : Option Bytes} (h : transaction redis sessionId accountId existing = some after)
    {sessionId' v : Bytes} (hv : after (sessionKey sessionId') = some v) :
    (sessionId' = sessionId ∧ v = decimal accountId) ∨ redis (sessionKey sessionId') = some v := by
  cases existing with
  | none =>
    obtain ⟨-, rfl⟩ := guarded_step h
    exact storeSession_sessionKey hv
  | some existingSessionId =>
    obtain rfl := Option.some.inj h
    exact (storeSession_sessionKey hv).imp_right get_of_expire

/-- A session key after a step of the API server was there before, or the step stored it. -/
theorem service_sessionKey {pbkdf2 : Api.Pbkdf2} {s t : Api.Sys} {a : Api.Action}
    (h : Api.step pbkdf2 s a = some t) {sessionId v : Bytes}
    (hv : t.api.redis (sessionKey sessionId) = some v) :
    s.api.redis (sessionKey sessionId) = some v ∨
      ∃ n, s.stores a = some (sessionId, n) ∧ v = decimal n := by
  rw [Api.step_redis h] at hv
  cases htransacts : s.transacts a with
  | none =>
    rw [htransacts] at hv
    exact Or.inl hv
  | some c =>
    obtain ⟨sessionId', accountId, existing⟩ := c
    rw [htransacts, Option.bind_some] at hv
    dsimp only at hv
    cases hafter : transaction s.api.redis sessionId' accountId existing with
    | none =>
      rw [hafter] at hv
      exact Or.inl hv
    | some after =>
      rw [hafter, Option.getD_some] at hv
      refine (transaction_sessionKey hafter hv).symm.imp_right ?_
      rintro ⟨rfl, rfl⟩
      exact ⟨accountId, Api.stores_of_transacts htransacts hafter, rfl⟩

/-! ## The invariant -/

/-- Queued messages are received messages, up to the sender. -/
def Sent (s : Server.Sys) : Prop :=
  ∀ v, ∀ m ∈ (s.srv.sessions v).pending, ∃ sent, (v, sent) ∈ s.received ∧ m.content = sent.content

structure Bound (s : Sys) : Prop where
  stored : ∀ sessionId v, s.redis (sessionKey sessionId) = some v →
    ∃ n, (sessionId, n) ∈ s.issued ∧ v = decimal n
  sent : Sent s.server
  admitted : ∀ l ∈ s.server.admitted, ∃ msg n, (l.session, msg) ∈ s.server.received ∧
    (msg.content, n) ∈ s.issued ∧ n < 2 ^ 32 ∧ l.id.toNat = n ∧ l.userEntity.id.toNat = n

theorem Bound.start (maxUser : UInt32) (table : List UserRow) :
    Bound (Sys.start maxUser table) where
  stored _ _ h := by cases h
  sent _ _ h := absurd h List.not_mem_nil
  admitted _ h := absurd h List.not_mem_nil

section Server

variable {parse : Bytes → Option Server.ChatMessage} {s t : Server.Sys} {a : Server.Action}

/-- What was received is never forgotten. -/
theorem step_received (heffect : Server.Effect parse s a t) : s.received ⊆ t.received := by
  cases heffect with
  | receive => exact List.subset_append_right _ _
  | _ => exact List.Subset.refl _

theorem sent_step (hadm : Server.Admission s) (heffect : Server.Effect parse s a t) (h : Sent s) :
    Sent t := by
  intro v m hm
  have hold : m ∈ (s.srv.sessions v).pending →
      ∃ sent, (v, sent) ∈ t.received ∧ m.content = sent.content := fun hm => by
    obtain ⟨sent, hsent, hcontent⟩ := h v m hm
    exact ⟨sent, step_received heffect hsent, hcontent⟩
  cases Server.step_session hadm heffect v with
  | kept _ _ _ hpending =>
    rcases hpending m hm with hm | ⟨-, sent, hsent, heq⟩
    · exact hold hm
    · exact ⟨sent, hsent, by rw [heq]⟩
  | fresh _ hfresh =>
    rw [hfresh] at hm
    exact absurd hm List.not_mem_nil
  | rejected _ _ hpending => exact hold (List.mem_of_mem_tail (hpending ▸ hm))
  | admitted _ _ _ _ _ _ _ hpending => exact hold (List.mem_of_mem_tail (hpending ▸ hm))

end Server

variable {parse : Bytes → Option Server.ChatMessage} {pbkdf2 : Api.Pbkdf2} {s t : Sys}

/-- The next admission presents a session id that is still stored. -/
theorem Bound.login (h : Bound s) {l : Server.LookUp} {login : Server.Login}
    (hlogin : s.server.srv.nextLogin (l.env s.redis s.table) = some login) :
    ∃ msg n, (login.session, msg) ∈ s.server.received ∧ (msg.content, n) ∈ s.issued ∧
      s.redis (sessionKey msg.content) = some (decimal n) ∧
      n < 2 ^ 32 ∧ login.id.toNat = n ∧ login.userEntity.id.toNat = n := by
  obtain ⟨-, hlogin⟩ := Server.TcpServer.nextLogin_eq_some hlogin
  unfold Server.loginOf at hlogin
  split at hlogin
  · cases hlogin
  · rename_i msg rest hpending
    -- what is stored under the session id was issued with it, and the text determines the number
    obtain ⟨row, -, hredis, hlt, hid, hentity⟩ := identify_row hlogin
    obtain ⟨n, hissued, hn⟩ := h.stored _ _ hredis
    obtain rfl := decimal_injective hn
    obtain ⟨sent, hsent, hcontent⟩ :=
      h.sent login.session msg (by rw [hpending]; exact List.mem_cons_self)
    rw [hcontent] at hissued hredis
    exact ⟨sent, row.id, hsent, hissued, hredis, hlt, hid, hentity⟩

/-- A step of the socket server that admits nobody, or somebody who has logged in. -/
theorem Bound.server (h : Bound s) (hadm : Server.Admission s.server) {a : Server.Action}
    {server : Server.Sys} (heffect : Server.Effect parse s.server a server)
    (henv : ∀ env, a = .examine env → ∃ l : Server.LookUp, env = l.env s.redis s.table) :
    Bound { s with server } := by
  refine ⟨h.stored, sent_step hadm heffect h.sent, fun login hmem => ?_⟩
  have hold : login ∈ s.server.admitted → ∃ msg n, (login.session, msg) ∈ server.received ∧
      (msg.content, n) ∈ s.issued ∧ n < 2 ^ 32 ∧ login.id.toNat = n ∧
      login.userEntity.id.toNat = n := fun hmem => by
    obtain ⟨msg, n, hreceived, hrest⟩ := h.admitted login hmem
    exact ⟨msg, n, step_received heffect hreceived, hrest⟩
  rcases Server.step_containers hadm heffect with
    ⟨hadmitted, -⟩ | ⟨env, login', ha, hnext, hadmitted, -⟩
  · exact hold (hadmitted ▸ hmem)
  · replace hmem : login ∈ server.admitted := hmem
    rw [hadmitted, List.mem_cons] at hmem
    rcases hmem with rfl | hmem
    · -- the new admission reads the stores as they are now
      obtain ⟨l, rfl⟩ := henv env ha
      obtain ⟨msg, n, hreceived, hissued, -, hid⟩ := h.login hnext
      exact ⟨msg, n, step_received heffect hreceived, hissued, hid⟩
    · exact hold hmem

/-- **Step lemma.** -/
theorem bound_step (hadm : Server.Admission s.server) (h : Bound s) {a : Action}
    (heffect : Effect parse pbkdf2 s a t) : Bound t := by
  cases heffect with
  | server hno hstep =>
    exact h.server hadm (Server.step_effect hstep) fun env ha => absurd ha (hno env)
  | @examine l server hstep =>
    exact h.server hadm (Server.step_effect hstep) fun env ha =>
      ⟨l, (Server.Action.examine.inj ha).symm⟩
  | @service a service hstep =>
    refine ⟨fun sessionId v hv => ?_, h.sent, fun login hmem => ?_⟩
    · rcases service_sessionKey hstep hv with hold | ⟨n, hstores, rfl⟩
      · obtain ⟨n, hissued, hn⟩ := h.stored sessionId v hold
        exact ⟨n, List.mem_append_right _ hissued, hn⟩
      · exact ⟨n, List.mem_append_left _ (by simp [hstores]), rfl⟩
    · obtain ⟨msg, n, hreceived, hissued, hrest⟩ := h.admitted login hmem
      exact ⟨msg, n, hreceived, List.mem_append_right _ hissued, hrest⟩
  | expire =>
    exact ⟨fun sessionId v hv => h.stored sessionId v (get_of_expire hv), h.sent, h.admitted⟩

/-- The invariants of both servers after every run. -/
theorem bound_of_run {ok : Sys → Action → Prop} {maxUser : UInt32} {table : List UserRow}
    {as : List Action} (hrun : Run (step parse pbkdf2) ok (.start maxUser table) as s) :
    Server.Admission s.server ∧ Bound s := by
  refine hrun.invariant (I := fun s => Server.Admission s.server ∧ Bound s)
    (fun s a t h _ hstep => ?_) ⟨.start maxUser, .start maxUser table⟩
  exact ⟨step_admission hstep h.1, bound_step h.1 h.2 (step_effect hstep)⟩

/-- **Authentication binding.** Whatever the two servers, their clients and the loss of keys
do in whatever order: every user of the socket server is verified, has sent a session id
that a login stored for an account, and has the id and the entity of that account. -/
theorem admission_binding {maxUser : UInt32} {table : List UserRow} {as : List Action}
    (hrun : Run (step parse pbkdf2) anyStep (.start maxUser table) as s) {user : Server.SessionRef}
    (huser : user ∈ s.server.srv.users) :
    (s.server.srv.sessions user).verified = true ∧ ∃ sessionId n, (sessionId, n) ∈ s.issued ∧
      (∃ msg, (user, msg) ∈ s.server.received ∧ msg.content = sessionId) ∧ n < 2 ^ 32 ∧
      (s.server.srv.sessions user).id.toNat = n ∧
      (s.server.srv.sessions user).userEntity.id.toNat = n := by
  obtain ⟨-, hidentified⟩ := identified_of_run hrun
  obtain ⟨-, hbound⟩ := bound_of_run hrun
  obtain ⟨login, hlogin, rfl⟩ := hidentified.users user huser
  obtain ⟨hid, hentity, hverified⟩ := hidentified.identity login hlogin
  obtain ⟨msg, n, hreceived, hissued, hlt, hid', hentity'⟩ := hbound.admitted login hlogin
  refine ⟨hverified, msg.content, n, hissued, ⟨msg, hreceived, rfl⟩, hlt, ?_, ?_⟩
  · rw [hid, hid']
  · rw [hentity, hentity']

/-- `ann` logs in and gets the session id "a". -/
def annLogsIn : List Action :=
  [.service (.begin { sessionId := ascii "a" }
      (.login { userId := ascii "ann", password := ascii "secret" })),
    .service (.proceed 0), .service (.proceed 0)]

/-- A client connects and presents the session id "a". -/
def annConnects : List Action :=
  [.server .accept, .server (.receive 0 (Server.login "a").serialize), .server .sweep,
    .examine default]

theorem admission_binding_ann :
    ∃ s : Sys, 0 ∈ s.server.srv.users ∧ (s.server.srv.sessions 0).verified = true ∧
      ∃ sessionId n, (sessionId, n) ∈ s.issued ∧
        (∃ msg, ((0 : Server.SessionRef), msg) ∈ s.server.received ∧ msg.content = sessionId) ∧
        n < 2 ^ 32 ∧ (s.server.srv.sessions 0).id.toNat = n ∧
        (s.server.srv.sessions 0).userEntity.id.toNat = n := by
  obtain ⟨s, hrun, hs⟩ := exists_run_of_exec
    (step (Server.parseSerialized [Server.login "a"]) Api.secretPbkdf2) anyStep
    (.start 5 [Api.ann]) (annLogsIn ++ annConnects) (fun s => decide (0 ∈ s.server.srv.users))
    (by decide)
  have huser := of_decide_eq_true hs
  exact ⟨s, huser, admission_binding hrun huser⟩

end BoostChat.Joint
