import BoostChat.Basic
import BoostChat.Lib.Base64

/-!
# Passwords

`PasswordHelper` of the API server. A stored password is the Base64 text of a salt, a
colon, and the Base64 text of the key that PBKDF2 derives from the password and the
salt. The key derivation is a parameter.
-/

namespace BoostChat.Api

open Lib

/-- The exceptions of the API server that reach the exception filter. -/
inductive ApiException
  | userNotFound (message : Bytes)
  | userValidation (message : Bytes)
  /-- Any other exception; the filter does not show its message. -/
  | unknown (message : Bytes)
deriving DecidableEq

/-- `KeyDerivation.Pbkdf2` with the fixed hash, iteration count and length: password and salt. -/
abbrev Pbkdf2 := Bytes → Bytes → Bytes

namespace PasswordHelper

variable (pbkdf2 : Pbkdf2)

/-- `HashPassword`, with the salt that the random number generator returns. -/
def hashPassword (salt password : Bytes) : Bytes :=
  Base64.encode salt ++ ascii ":" ++ Base64.encode (pbkdf2 password salt)

def verifyPassword (hashedPassword inputPassword : Bytes) : Except ApiException Bool :=
  match hashedPassword.splitOn 58 with
  | [salt, storedHash] =>
    match Base64.decode salt with
    | some salt => .ok (storedHash == Base64.encode (pbkdf2 inputPassword salt))
    | none => .error (.unknown (ascii "The input is not a valid Base-64 string."))
  | _ => .error (.unknown (ascii "Unexpected hash format."))

variable {pbkdf2}

/-- What `HashPassword` stores, `VerifyPassword` takes apart again. -/
theorem verifyPassword_hashPassword (salt password inputPassword : Bytes) :
    verifyPassword pbkdf2 (hashPassword pbkdf2 salt password) inputPassword =
      .ok (Base64.encode (pbkdf2 password salt) == Base64.encode (pbkdf2 inputPassword salt)) := by
  have hcolon : ∀ bytes, 58 ∉ Base64.encode bytes := by
    intro bytes hmem
    rcases Base64.mem_encode hmem with hpad | hvalue
    · exact absurd hpad (by decide)
    · exact hvalue (by decide)
  have htext : hashPassword pbkdf2 salt password =
      [58].intercalate [Base64.encode salt, Base64.encode (pbkdf2 password salt)] := by
    simp [hashPassword, List.intercalate, ascii]
  rw [verifyPassword, htext, List.splitOn_intercalate 58 (by simp [hcolon]) (List.cons_ne_nil _ _)]
  simp only [Base64.decode_encode]

/-- When the key derivation has no collision for the salt, only the password verifies. -/
theorem verifyPassword_iff {salt : Bytes} (hcollision : Function.Injective (pbkdf2 · salt))
    {password inputPassword : Bytes} :
    verifyPassword pbkdf2 (hashPassword pbkdf2 salt password) inputPassword = .ok true ↔
      inputPassword = password := by
  rw [verifyPassword_hashPassword, Except.ok.injEq, beq_iff_eq]
  refine ⟨fun h => (hcollision (Base64.encode_injective h)).symm, ?_⟩
  rintro rfl
  rfl

end PasswordHelper

end BoostChat.Api
