import BoostChat.Basic
import BoostChat.Lib.Wire

/-!
# The message type `ChatMessage`

`ChatMessage` of `MyMessage.proto` and the wire encoding that the generated
`_InternalSerialize` writes. The message type is an open proto3 enumeration: a
parsed message may carry any 32-bit number there (`other`).

The parser is modelled in `Server.MessageCodec`; the runs of the server take it as a parameter.
-/

namespace BoostChat.Server

open Lib.Wire (varint)

inductive ChatMessageType
  | serverPing
  | serverMessage
  | allMessage
  | whisperMessage
  | partyMessage
  | partyCreate
  | partyDelete
  | partyJoin
  | partyLeave
  | friendRequest
  | friendAccept
  | friendReject
  | loginMessage
  | errorMessage
  | other (value : Int32)
deriving DecidableEq

/-- The number that stands for the type on the wire. -/
def ChatMessageType.number : ChatMessageType → Int32
  | .serverPing => 0
  | .serverMessage => 1
  | .allMessage => 2
  | .whisperMessage => 3
  | .partyMessage => 4
  | .partyCreate => 41
  | .partyDelete => 42
  | .partyJoin => 43
  | .partyLeave => 44
  | .friendRequest => 50
  | .friendAccept => 51
  | .friendReject => 52
  | .loginMessage => 70
  | .errorMessage => 99
  | .other value => value

structure ChatMessage where
  messageType : ChatMessageType := .serverPing
  sender : Bytes := []
  receiver : Bytes := []
  content : Bytes := []
  /-- Encoded fields that the parser met and does not know; they are written back. -/
  unknownFields : Bytes := []
deriving DecidableEq

/-- A `bytes` field with its tag; an empty field is not written. -/
def bytesField (tag : UInt8) (value : Bytes) : Bytes :=
  if value = [] then [] else tag :: varint value.length ++ value

/-- `ChatMessage::_InternalSerialize`: the fields in the order of their numbers. -/
def ChatMessage.serialize (msg : ChatMessage) : Bytes :=
  (if msg.messageType.number = 0 then []
    else 0x08 :: varint msg.messageType.number.toInt64.toUInt64.toNat) ++
  bytesField 0x12 msg.sender ++ bytesField 0x1A msg.receiver ++ bytesField 0x22 msg.content ++
  msg.unknownFields

/-- A parser that reads back the encodings of the given messages and nothing else. -/
def parseSerialized (msgs : List ChatMessage) (body : Bytes) : Option ChatMessage :=
  msgs.find? fun msg => msg.serialize == body

end BoostChat.Server
