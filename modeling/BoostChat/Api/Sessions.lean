import BoostChat.Api.Requests

/-!
# One live session for each account

`CreateSession` reads the session id of the account and, after another `await`, replaces
it in one transaction. Only the transaction for an account that had no session has a
condition that this is still so.

* `SingleSession` — the live session of an account is the one that its key names;
* `transaction_single_iff` — when a transaction keeps it;
* `single_session` — it holds all along a run, the two keys of a transaction expiring
  together, exactly when every transaction replaces the session that is live by then;
* `annLogsInTwice_overlap` — two logins replace the same session, and both stay alive.
-/

namespace BoostChat.Api

open CacheRepository Lib

/-! ## Redis -/

/-- The session key holds the account. -/
def Live (redis : Redis) (sessionId : Bytes) (accountId : Nat) : Prop :=
  redis (sessionKey sessionId) = some (decimal accountId)

instance (redis : Redis) (sessionId : Bytes) (accountId : Nat) :
    Decidable (Live redis sessionId accountId) :=
  inferInstanceAs (Decidable (_ = _))

/-- An account has at most one live session, which its key names; so once the key names
another one, a session does not authenticate. -/
structure SingleSession (redis : Redis) : Prop where
  named : ∀ sessionId accountId, Live redis sessionId accountId →
    redis (accountKey accountId) = some sessionId
  single : ∀ sessionId sessionId' accountId, Live redis sessionId accountId →
    Live redis sessionId' accountId → sessionId = sessionId'
  superseded : ∀ sessionId accountId, redis (accountKey accountId) = some sessionId →
    ∀ old ≠ sessionId, ¬ Live redis old accountId

section Redis

variable {redis after : Redis} {sessionId : Bytes} {accountId : Nat} {existing : Option Bytes}

theorem singleSession_iff : SingleSession redis ↔
    ∀ sessionId accountId, Live redis sessionId accountId →
      redis (accountKey accountId) = some sessionId := by
  constructor
  · exact fun h => h.named
  · refine fun h => ⟨h, fun _ _ _ hlive hlive' => ?_, fun _ _ hkey _ hne hlive => ?_⟩
    · exact Option.some.inj ((h _ _ hlive).symm.trans (h _ _ hlive'))
    · exact hne (Option.some.inj ((h _ _ hlive).symm.trans hkey))

/-- The sessions after one was stored. -/
theorem storeSession_live {sessionId' : Bytes} {accountId' : Nat} :
    Live (storeSession redis sessionId accountId) sessionId' accountId' ↔
      if sessionId' = sessionId then accountId' = accountId
      else Live redis sessionId' accountId' := by
  rw [Live, storeSession, Function.update_of_ne (sessionKey_ne_accountKey _ _)]
  split
  · rename_i heq
    rw [heq, Function.update_self, Option.some.injEq, decimal_injective.eq_iff]
    exact eq_comm
  · rename_i hne
    rw [Function.update_of_ne (mt sessionKey_inj.mp hne)]
    rfl

theorem storeSession_accountKey (accountId' : Nat) :
    storeSession redis sessionId accountId (accountKey accountId') =
      if accountId' = accountId then some sessionId else redis (accountKey accountId') := by
  rw [storeSession]
  split
  · rename_i heq
    rw [heq, Function.update_self]
  · rename_i hne
    rw [Function.update_of_ne (mt accountKey_inj.mp hne),
      Function.update_of_ne (sessionKey_ne_accountKey _ _).symm]

/-- Storing a session keeps the property exactly when no other session of the account is live. -/
theorem storeSession_single_iff (h : SingleSession redis) :
    SingleSession (storeSession redis sessionId accountId) ↔
      ∀ other, Live redis other accountId → other = sessionId := by
  rw [singleSession_iff]
  constructor
  · intro hstored other hlive
    -- a session of the account that was not replaced is live, and the key no longer names it
    by_contra hne
    have hkey := hstored other accountId (by rwa [storeSession_live, if_neg hne])
    rw [storeSession_accountKey, if_pos rfl] at hkey
    exact hne (Option.some.inj hkey).symm
  · intro hothers sessionId' accountId' hlive
    rw [storeSession_live] at hlive
    rw [storeSession_accountKey]
    split at hlive
    · rename_i heq
      rw [if_pos hlive, heq]
    · rename_i hne
      have hother : accountId' ≠ accountId := by
        rintro rfl
        exact hne (hothers sessionId' hlive)
      rw [if_neg hother]
      exact h.named sessionId' accountId' hlive

/-- What is live without a session. -/
theorem removeSession_live {removed sessionId' : Bytes} {accountId' : Nat} :
    Live (Function.update redis (sessionKey removed) none) sessionId' accountId' ↔
      sessionId' ≠ removed ∧ Live redis sessionId' accountId' := by
  rw [Live]
  by_cases heq : sessionId' = removed
  · rw [heq, Function.update_self]
    simp
  · rw [Function.update_of_ne (mt sessionKey_inj.mp heq)]
    exact (and_iff_right heq).symm

theorem SingleSession.remove (h : SingleSession redis) (removed : Bytes) :
    SingleSession (Function.update redis (sessionKey removed) none) := by
  rw [singleSession_iff]
  intro sessionId accountId hlive
  rw [Function.update_of_ne (sessionKey_ne_accountKey _ _).symm]
  exact h.named _ _ (removeSession_live.mp hlive).2

variable (redis sessionId accountId) in
/-- The session that the transaction deletes, as it was read, is the only one of the account
that is live by now. Without one that was read, the conditions of the transaction see to it. -/
def Replaces : Option Bytes → Prop
  | some existingSessionId => ∀ current ∈ redis (accountKey accountId),
      Live redis current accountId → current = existingSessionId ∨ current = sessionId
  | none => True

instance : Decidable (Replaces redis sessionId accountId existing) :=
  match existing with
  | some existingSessionId =>
    inferInstanceAs (Decidable (∀ current ∈ redis (accountKey accountId),
      Live redis current accountId → current = existingSessionId ∨ current = sessionId))
  | none => .isTrue trivial

/-- **When a transaction keeps the property.** -/
theorem transaction_single_iff (h : SingleSession redis)
    (hexecuted : transaction redis sessionId accountId existing = some after) :
    SingleSession after ↔ Replaces redis sessionId accountId existing := by
  cases existing with
  | none =>
    obtain ⟨⟨-, hnone⟩, rfl⟩ := guarded_step hexecuted
    rw [storeSession_single_iff h]
    refine iff_of_true (fun other hlive => ?_) trivial
    -- a live session would be named by the key of the account, which is not there
    have hnamed := h.named other accountId hlive
    rw [hnone] at hnamed
    cases hnamed
  | some existingSessionId =>
    obtain rfl := Option.some.inj hexecuted
    rw [storeSession_single_iff (h.remove existingSessionId)]
    simp only [removeSession_live]
    constructor
    · intro hothers current _ hlive
      by_cases heq : current = existingSessionId
      · exact Or.inl heq
      · exact Or.inr (hothers current ⟨heq, hlive⟩)
    · rintro hreplaces other ⟨hne, hlive⟩
      exact (hreplaces other (h.named other accountId hlive) hlive).resolve_left hne

/-- The keys that one transaction has written are gone, unless another one has written them. -/
def expired (redis : Redis) (sessionId : Bytes) (accountId : Nat) : Redis := fun key =>
  if (key = sessionKey sessionId ∧ redis key = some (decimal accountId)) ∨
      (key = accountKey accountId ∧ redis key = some sessionId) then none
  else redis key

/-- When a session is gone, so is the key that named it. -/
theorem SingleSession.expire (h : SingleSession redis) (sessionId : Bytes) (accountId : Nat) :
    SingleSession (expired redis sessionId accountId) := by
  rw [singleSession_iff]
  intro sessionId' accountId' hlive
  rw [Live, expired, Option.ite_none_left_eq_some] at hlive
  obtain ⟨hkept, hlive⟩ := hlive
  rw [expired, if_neg]
  · exact h.named _ _ hlive
  · rintro (⟨hkey, -⟩ | ⟨hkey, hnamed⟩)
    · exact sessionKey_ne_accountKey _ _ hkey.symm
    · -- the session of that account is the one that expires
      obtain rfl := accountKey_inj.mp hkey
      obtain rfl := Option.some.inj ((h.named _ _ hlive).symm.trans hnamed)
      exact hkept (Or.inl ⟨rfl, hlive⟩)

end Redis

/-! ## Runs -/

/-- The API server takes a step, or the keys that a transaction has written expire. -/
inductive Event
  | service (a : Action)
  | expire (sessionId : Bytes) (accountId : Nat)

variable (pbkdf2 : Pbkdf2)

def eventStep (s : Sys) : Event → Option Sys
  | .service a => step pbkdf2 s a
  | .expire sessionId accountId =>
    some { s with api.redis := expired s.api.redis sessionId accountId }

/-- A transaction that reaches Redis replaces the session of the account that is live by now. -/
def Sys.ReplacesLive (s : Sys) : Event → Prop
  | .service a => ∀ c ∈ s.transacts a, Replaces s.api.redis c.1 c.2.1 c.2.2
  | .expire _ _ => True

instance (s : Sys) : (e : Event) → Decidable (s.ReplacesLive e)
  | .service a => inferInstanceAs (Decidable (∀ c ∈ s.transacts a, _))
  | .expire _ _ => .isTrue trivial

variable {pbkdf2} {s t : Sys} {e : Event}

/-- **Step lemma.** -/
theorem single_session_step (h : SingleSession s.api.redis)
    (hstep : eventStep pbkdf2 s e = some t) : SingleSession t.api.redis ↔ s.ReplacesLive e := by
  cases e with
  | expire sessionId accountId =>
    obtain rfl := Option.some.inj hstep
    exact iff_of_true (h.expire sessionId accountId) trivial
  | service a =>
    rw [step_redis hstep, Sys.ReplacesLive]
    cases htransacts : s.transacts a with
    | none => exact iff_of_true h fun c hc => (Option.not_mem_none c hc).elim
    | some c =>
      obtain ⟨sessionId, accountId, existing⟩ := c
      have hcond : (∀ c ∈ some (sessionId, accountId, existing),
          Replaces s.api.redis c.1 c.2.1 c.2.2) ↔
          Replaces s.api.redis sessionId accountId existing := by simp
      rw [hcond, Option.bind_some]
      dsimp only
      cases hafter : transaction s.api.redis sessionId accountId existing with
      | some after => exact transaction_single_iff h hafter
      | none =>
        -- only the conditions of an account without a session can fail
        cases existing with
        | some => cases hafter
        | none => exact iff_of_true h trivial

/-- **Single live session.** From a Redis with the property, whatever requests are waiting
and come in, and whenever keys expire: every account has at most one live session, the one
that its key names, all along the run, if and only if every transaction that reaches Redis
replaces the session of the account that is live by then. -/
theorem single_session {s₀ : Sys} (h : SingleSession s₀.api.redis) {es : List Event}
    (hrun : Run (eventStep pbkdf2) anyStep s₀ es s) :
    (∀ pre suf t, es = pre ++ suf → Run (eventStep pbkdf2) anyStep s₀ pre t →
        SingleSession t.api.redis) ↔
      Run (eventStep pbkdf2) Sys.ReplacesLive s₀ es s := by
  have hiff := Run.always_iff (c := Sys.ReplacesLive) (I := fun s => SingleSession s.api.redis)
    (J := fun _ => True) (fun s e t _ h _ hstep => ⟨trivial, single_session_step h hstep⟩)
    hrun trivial h
  rw [hiff, Run.anyStep_and_iff]

/-- A Redis without keys. -/
theorem singleSession_empty : SingleSession fun _ => none :=
  singleSession_iff.mpr fun _ _ h => by cases h

/-! ## Logins of one account -/

def annLogsIn (sessionId : String) : Event :=
  .service (.begin { sessionId := ascii sessionId }
    (.login { userId := ascii "ann", password := ascii "secret" }))

def proceedFirst : Event := .service (.proceed 0)

/-- `ann` logs in, logs in again and the keys of the second login expire. -/
def annLogsInAgain : List Event :=
  [annLogsIn "a", proceedFirst, proceedFirst, annLogsIn "b", proceedFirst, proceedFirst,
    .expire (ascii "b") 1]

theorem single_session_annLogsInAgain :
    ∃ s : Sys, Run (eventStep secretPbkdf2) anyStep { api := .start [ann] fun _ => none }
        annLogsInAgain s ∧
      ∀ pre suf t, annLogsInAgain = pre ++ suf →
        Run (eventStep secretPbkdf2) anyStep { api := .start [ann] fun _ => none } pre t →
        SingleSession t.api.redis := by
  obtain ⟨s, hany, hrun⟩ := exists_run_any (eventStep secretPbkdf2) Sys.ReplacesLive
    { api := .start [ann] fun _ => none } annLogsInAgain (by decide)
  exact ⟨s, hany, (single_session singleSession_empty hany).mpr hrun⟩

/-- While `ann` has the session "a", two more logins read it before either replaces it:
both of their sessions stay alive. -/
def annLogsInTwice : List Event :=
  [annLogsIn "a", proceedFirst, proceedFirst, annLogsIn "b", annLogsIn "c", proceedFirst,
    proceedFirst, proceedFirst, proceedFirst]

theorem annLogsInTwice_overlap :
    ∃ s : Sys, Run (eventStep secretPbkdf2) anyStep { api := .start [ann] fun _ => none }
        annLogsInTwice s ∧
      Live s.api.redis (ascii "b") ann.id ∧ Live s.api.redis (ascii "c") ann.id ∧
      s.api.redis (accountKey ann.id) = some (ascii "c") := by
  obtain ⟨s, hrun, hs⟩ := exists_run_of_exec (eventStep secretPbkdf2) anyStep
    { api := .start [ann] fun _ => none } annLogsInTwice
    (fun s => decide (Live s.api.redis (ascii "b") ann.id ∧ Live s.api.redis (ascii "c") ann.id ∧
      s.api.redis (accountKey ann.id) = some (ascii "c"))) (by decide)
  exact ⟨s, hrun, of_decide_eq_true hs⟩

end BoostChat.Api
