/-
  `Protocol.CommandTable`: the types every part of the program shares, from
  `protocol/command_table.h`.
-/
import AppChat.Foundation.Bytes

set_option autoImplicit false

namespace AppChat

open Foundation

/-- `identifier_t`: client ids and room ids. -/
abbrev Identifier := Int32

/-- The commands of the protocol. -/
inductive TypeCommand where
  | unknown
  | registrationRequest
  | registrationResponse
  | authorisationRequest
  | autorisationResponse
  | echoRequest
  | echoResponse
  | joinRoomRequest
  | joinRoomResponse
  | leaveRoomRequest
  deriving DecidableEq, Repr

namespace TypeCommand

/-- The 16-bit code of a command. -/
def code : TypeCommand → UInt16
  | unknown => 0xFFFF
  | registrationRequest => 0x0001
  | registrationResponse => 0x0002
  | authorisationRequest => 0x0003
  | autorisationResponse => 0x0004
  | echoRequest => 0x0005
  | echoResponse => 0x0006
  | joinRoomRequest => 0x0007
  | joinRoomResponse => 0x0008
  | leaveRoomRequest => 0x0009

/-- The command with a given code; `none` for a value that is no enumerator. -/
def ofCode (c : UInt16) : Option TypeCommand :=
  [unknown, registrationRequest, registrationResponse, authorisationRequest,
    autorisationResponse, echoRequest, echoResponse, joinRoomRequest,
    joinRoomResponse, leaveRoomRequest].find? fun command => command.code = c

/-- `static_cast<TypeCommand>(header.command())`: the 32-bit header field is cut
to the 16 bits of the enumeration's underlying type. -/
def cast (command : UInt32) : Option TypeCommand := ofCode command.toUInt16

end TypeCommand

/-- A chat message on its way to a room. -/
structure TextSendData where
  roomId : Identifier
  login : Bytes
  text : Bytes
  deriving DecidableEq, Repr

end AppChat
