import BoostChat.Server.TcpServer

/-!
# The look-ups of a login against the two stores

`LookUp.env` answers the look-ups of `VerifyUser` from the contents of Redis and of
the table `user`. A `LookUp` says what the network and the database server make of
it: `Get` may fail, a missing key gives some code and the empty string, and the calls
of the MySQL C API inside `GetUserById` may fail.

`getUserById_row` is what a successful `GetUserById` is worth: an entity filled from
the row whose key has the requested text.
-/

namespace BoostChat.Server

open Lib

/-- The redis keys that exist, with their values. -/
abbrev Redis := Bytes → Option Bytes

structure LookUp where
  /-- The code of a `Get` that fails. -/
  redisFailure : Option Int := none
  missingCode : Int := RC_SUCCESS
  sqlFaults : List (Option Bytes) := []
  ulongMax : Nat := 2 ^ 32 - 1
  uint32_le : 2 ^ 32 - 1 ≤ ulongMax := by decide

/-- No look-up fails. -/
instance : Inhabited LookUp := ⟨{}⟩

def LookUp.env (l : LookUp) (redis : Redis) (users : List UserRow) : Env where
  get key :=
    match l.redisFailure, redis key with
    | some code, _ => ⟨code, []⟩
    | none, some value => ⟨RC_SUCCESS, value⟩
    | none, none => ⟨l.missingCode, []⟩
  getUserById requestId :=
    (Id.run ((MySQLManager.getUserById users requestId).run.run { faults := l.sqlFaults })).1
  ulongMax := l.ulongMax
  uint32_le := l.uint32_le

/-- A reply that is not empty is the value of the key. -/
theorem LookUp.get_value {l : LookUp} {redis : Redis} {users : List UserRow} {key : Bytes}
    (h : ((l.env redis users).get key).value ≠ []) :
    redis key = some ((l.env redis users).get key).value := by
  simp only [LookUp.env] at h ⊢
  cases hfailure : l.redisFailure <;> cases hkey : redis key <;>
    simp [hfailure, hkey] at h ⊢

/-- `GetUserById` returns the row with that key, or throws. -/
theorem LookUp.getUserById_row {l : LookUp} {redis : Redis} {users : List UserRow}
    {requestId : Bytes} {userEntity : UserEntity}
    (h : (l.env redis users).getUserById requestId = .ok userEntity) :
    ∃ row ∈ users, decimal row.id = requestId ∧ userEntity = MySQLManager.entityOfRow row := by
  obtain ⟨row, hfind, hentity⟩ := MySQLManager.fetchUser_ok h
  have hkey := List.find?_some hfind
  exact ⟨row, List.mem_of_find?_eq_some hfind, by simpa using hkey, hentity⟩

/-- A number that `StringToUint32` accepts fits, and comes out as it went in. -/
theorem stringToUint32_decimal {ulongMax n : Nat} {id : UInt32}
    (h : stringToUint32 ulongMax (decimal n) = .ok id) : n < 2 ^ 32 ∧ id.toNat = n := by
  rw [stringToUint32, stoul_decimal] at h
  split at h
  · cases h
  · simp only [bind, Except.bind] at h
    split at h
    · -- wider than 32 bits
      cases h
    · rename_i hle
      obtain rfl := Except.ok.inj h
      have hlt : n < 2 ^ 32 := by omega
      refine ⟨hlt, ?_⟩
      rw [Nat.toUInt32, UInt32.toNat_ofNat']
      omega

/-! ## Two accounts -/

def ann : UserRow := ⟨1, ascii "ann", ascii "secret", ascii "Ann", ascii "ann@chat", ascii "Y"⟩

def bob : UserRow := ⟨2, ascii "bob", ascii "secret", ascii "Bob", ascii "bob@chat", ascii "Y"⟩

/-- Redis when the accounts 1 and 2 have a session, "a" and "b". -/
def twoSessions : Redis := fun key =>
  if key = ascii "Session:a" then some (ascii "1")
  else if key = ascii "Session:b" then some (ascii "2")
  else none

/-- The stores when both accounts have a session. -/
def annAndBob : Env := LookUp.env default twoSessions [ann, bob]

/-- The message with which a client presents its session id. -/
def login (sessionId : String) : ChatMessage :=
  { messageType := .loginMessage, content := ascii sessionId }

end BoostChat.Server
