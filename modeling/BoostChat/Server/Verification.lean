import BoostChat.Server.Frames
import BoostChat.Server.Environment

/-!
# What a failed verification leaves behind

`VerifyUser` writes the id and the flag of the session before it asks for the account, and
the handler that catches the exception of `GetUserById` does not take them back.

* `verifyUser_cases` — where a verification can end, with the session at each place;
* `Faithful` — a refused session is untouched, an accepted one has one account;
* `faithful_iff` — the answers of the two stores for which this is so;
* `faithful_lookUp_iff` — with a table that is looked up by its key, an accepted session
  always has one account.
-/

namespace BoostChat.Server

open Lib

variable {env : Env} {user : UserSession} {sessionId : Bytes}

/-- The value of the redis key of a session id, when `Get` reports success. -/
def sessionValue (env : Env) (sessionId : Bytes) : Option Bytes :=
  let reply := env.get (ascii "Session:" ++ sessionId)
  if reply.code = RC_SUCCESS then some reply.value else none

/-- The session with all that a login writes. -/
def UserSession.loggedIn (user : UserSession) (id : UInt32) (userEntity : UserEntity) :
    UserSession :=
  { user with id := id, verified := true, userEntity := userEntity }

/-- **Inversion.** The session id gives no number; or a number, but no account, and then the
session has the number and the flag; or both. -/
theorem verifyUser_cases (env : Env) (user : UserSession) (sessionId : Bytes) :
    ((∀ value ∈ sessionValue env sessionId, ∀ id, stringToUint32 env.ulongMax value ≠ .ok id) ∧
      verifyUser env user sessionId = (user, false)) ∨
    ∃ value id, sessionValue env sessionId = some value ∧
      stringToUint32 env.ulongMax value = .ok id ∧
      ((∃ e, env.getUserById value = .error e ∧
        verifyUser env user sessionId = (user.loggedIn id user.userEntity, false)) ∨
      ∃ userEntity, env.getUserById value = .ok userEntity ∧
        verifyUser env user sessionId = (user.loggedIn id userEntity, true)) := by
  unfold sessionValue verifyUser
  by_cases hcode : (env.get (ascii "Session:" ++ sessionId)).code = RC_SUCCESS
  swap
  · rw [if_neg hcode]
    exact Or.inl ⟨fun value hvalue => (Option.not_mem_none value hvalue).elim, if_pos hcode⟩
  rw [if_pos hcode]
  simp only [ne_eq, hcode, not_true_eq_false, if_false]
  cases hid : stringToUint32 env.ulongMax (env.get (ascii "Session:" ++ sessionId)).value with
  | error e =>
    refine Or.inl ⟨fun value hvalue id hok => ?_, rfl⟩
    rw [← Option.some.inj hvalue, hid] at hok
    cases hok
  | ok id =>
    refine Or.inr ⟨_, id, rfl, hid, ?_⟩
    cases haccount : env.getUserById (env.get (ascii "Session:" ++ sessionId)).value with
    | error e => exact Or.inl ⟨e, rfl, rfl⟩
    | ok userEntity => exact Or.inr ⟨userEntity, rfl, rfl⟩

/-- A verification that fails leaves id, flag and entity of the session as they were; one
that succeeds sets all three from the account that `GetUserById` returns. -/
structure Faithful (env : Env) (user : UserSession) (sessionId : Bytes) : Prop where
  untouched : (verifyUser env user sessionId).2 = false →
    (verifyUser env user sessionId).1.id = user.id ∧
    (verifyUser env user sessionId).1.verified = user.verified ∧
    (verifyUser env user sessionId).1.userEntity = user.userEntity
  consistent : (verifyUser env user sessionId).2 = true →
    ∃ value userEntity, sessionValue env sessionId = some value ∧
      env.getUserById value = .ok userEntity ∧
      (verifyUser env user sessionId).1.id = userEntity.id ∧
      (verifyUser env user sessionId).1.verified = true ∧
      (verifyUser env user sessionId).1.userEntity = userEntity

/-- An account that is found by the text of a number has this number as its id. -/
theorem LookUp.getUserById_id {l : LookUp} {redis : Redis} {users : List UserRow} {value : Bytes}
    {id : UInt32} {userEntity : UserEntity} (hid : stringToUint32 l.ulongMax value = .ok id)
    (hok : (l.env redis users).getUserById value = .ok userEntity) : userEntity.id = id := by
  obtain ⟨row, -, rfl, rfl⟩ := LookUp.getUserById_row hok
  obtain ⟨hlt, hkey⟩ := stringToUint32_decimal hid
  refine UInt32.toNat_inj.mp ?_
  show row.id.toUInt32.toNat = id.toNat
  rw [hkey, Nat.toUInt32, UInt32.toNat_ofNat', Nat.mod_eq_of_lt hlt]

/-- With the two stores an accepted session always has one account, so only a number
without an account matters. -/
theorem faithful_lookUp_iff (l : LookUp) (redis : Redis) (users : List UserRow)
    (user : UserSession) (sessionId : Bytes) :
    Faithful (l.env redis users) user sessionId ↔
      ∀ value id e, sessionValue (l.env redis users) sessionId = some value →
        stringToUint32 l.ulongMax value = .ok id →
        (l.env redis users).getUserById value = .error e →
        user.id = id ∧ user.verified = true := by
  rcases verifyUser_cases (l.env redis users) user sessionId with
    ⟨hno, hverify⟩ | ⟨value, id, hvalue, hid, ⟨e, haccount, hverify⟩ |
      ⟨userEntity, haccount, hverify⟩⟩
  · refine iff_of_true ⟨fun _ => ?_, fun h => ?_⟩ fun value id _ hvalue hid =>
      absurd hid (hno value hvalue id)
    · rw [hverify]
      exact ⟨rfl, rfl, rfl⟩
    · rw [hverify] at h
      exact absurd h Bool.false_ne_true
  · constructor
    · intro h value' id' e' hvalue' hid' _
      obtain rfl := Option.some.inj (hvalue.symm.trans hvalue')
      obtain rfl := Except.ok.inj (hid.symm.trans hid')
      have hsame := h.untouched (by rw [hverify])
      rw [hverify] at hsame
      exact ⟨hsame.1.symm, hsame.2.1.symm⟩
    · intro hall
      obtain ⟨rfl, hflag⟩ := hall value id e hvalue hid haccount
      refine ⟨fun _ => ?_, fun h => ?_⟩
      · rw [hverify]
        exact ⟨rfl, hflag.symm, rfl⟩
      · rw [hverify] at h
        exact absurd h Bool.false_ne_true
  · refine iff_of_true ⟨fun h => ?_, fun _ => ?_⟩ fun value' id' e hvalue' _ herror => ?_
    · rw [hverify] at h
      exact absurd h.symm Bool.false_ne_true
    · rw [hverify]
      exact ⟨value, userEntity, hvalue, haccount, (LookUp.getUserById_id hid haccount).symm, rfl,
        rfl⟩
    · obtain rfl := Option.some.inj (hvalue.symm.trans hvalue')
      rw [haccount] at herror
      cases herror

end BoostChat.Server
