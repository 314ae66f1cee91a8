import Mathlib.Logic.Basic

/-!
# Basic data of the two servers

* `Bytes` — `std::string`, `std::vector<uint8_t>` and the protobuf `bytes`
  fields: arbitrary byte strings. The text columns of MySQL, the Redis values and
  the strings of the API server are read as the bytes that travel on the wire.
* `StdException` — the exceptions derived from `std::exception` that the socket
  server throws or meets, with their `what()`.
* `UserRow` — a row of the table `user`, the one table both programs read.
-/

namespace BoostChat

/-- A byte string. -/
abbrev Bytes := List UInt8

/-- An ASCII string literal of the source. -/
def ascii (s : String) : Bytes := s.toList.map fun c => c.toNat.toUInt8

/-- A `char` array read as a string ends at the first zero byte. -/
def cString (text : Bytes) : Bytes := text.takeWhile fun b => b != 0

inductive StdException
  | invalidArgument (what : Bytes)
  | outOfRange (what : Bytes)
  | runtimeError (what : Bytes)
  | lengthError (what : Bytes)
  | badAlloc
deriving DecidableEq

def StdException.what : StdException → Bytes
  | .invalidArgument what => what
  | .outOfRange what => what
  | .runtimeError what => what
  | .lengthError what => what
  | .badAlloc => ascii "std::bad_alloc"

/-- A row of the table `user` (`id` is a `BIGINT` key, the other columns are text). -/
structure UserRow where
  id : Nat
  userId : Bytes
  password : Bytes
  username : Bytes
  email : Bytes
  isAlive : Bytes
deriving DecidableEq, Inhabited

end BoostChat
