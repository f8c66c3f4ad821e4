/-
  `Protocol.MsgFactory`: the class `MsgFactory` of `protocol/msgfactory.cpp`.

  A frame is a header in exactly `SIZE_HEADER` bytes and a body.  A header that
  needs fewer bytes would be followed by zero bytes, which no header parser
  accepts; the headers made here need all of them.
-/
import AppChat.Protocol.CommandTable
import AppChat.Protocol.Messages

set_option autoImplicit false

namespace AppChat.Protocol

open Foundation Foundation.ProtoWire Serialize

/-- `SIZE_HEADER`. -/
def sizeHeader : Nat := 2 * (4 + 1) + (8 + 1)

namespace MsgFactory

/-! ## Requests -/

/-- `create_input_request`. -/
def createInputRequest (login password : Bytes) : Request :=
  .inputRequest { login := login, password := password }

/-- `create_reg_request`. -/
def createRegRequest (login password : Bytes) : Request :=
  .registerRequest { login := login, password := password }

/-- `join_room_request`. -/
def joinRoomRequest (roomId : Int32) : Request :=
  .joinRoomRequest { roomId := roomId }

/-- `create_text_request`. -/
def createTextRequest (login : Bytes) (roomId : Int32) (text : Bytes) : Request :=
  .textRequest { login := login, roomId := roomId, text := text }

/-! ## Responses -/

/-- The status of an answer that carries a client id. -/
def statusOf (clientId : Int32) : Status := if clientId ≠ -1 then .OK else .FAIL

/-- `create_input_response`. -/
def createInputResponse (clientId : Int32) : Response :=
  .inputResponse { status := statusOf clientId, msgId := 0, clientId := clientId, chatId := 0 }

/-- `create_reg_response`. -/
def createRegResponse (clientId : Int32) : Response :=
  .regResponse { status := statusOf clientId, msgId := 0, clientId := clientId, chatId := 0 }

/-- `create_text_response`. -/
def createTextResponse (login : Bytes) (roomId : Int32) (text : Bytes) : Response :=
  .textResponse { login := login, roomId := roomId, text := text }

/-- `create_join_room_response`. -/
def createJoinRoomResponse (newRoomId : Int32) (flag : Bool) : Response :=
  .joinRoomResponse { status := if flag then .OK else .FAIL, roomId := newRoomId }

/-! ## Frames -/

/-- `create_header`. -/
def createHeader (command : TypeCommand) (length : Nat) : Header :=
  { length := UInt64.ofNat length, version := 1, command := command.code.toUInt32 }

/-- The buffer of `SIZE_HEADER + size` bytes: the header with its length set, zero
bytes where it is shorter than `SIZE_HEADER`, and the body. -/
def serialize (header : Header) (size : Nat) (body : Bytes) : Bytes :=
  let header := { header with length := UInt64.ofNat size }
  header.serialize ++ List.replicate (sizeHeader - header.byteSizeLong) 0 ++ body

/-- `serialize_response`. -/
def serializeResponse (header : Header) (response : Response) : Bytes :=
  serialize header response.byteSizeLong response.serialize

/-- `serialize_request`. -/
def serializeRequest (header : Header) (request : Request) : Bytes :=
  serialize header request.byteSizeLong request.serialize

/-! ## A header fills its place -/

theorem code_toUInt32_ne_zero (command : TypeCommand) : command.code.toUInt32 ≠ 0 := by
  cases command <;> decide

theorem cast_code (command : TypeCommand) :
    TypeCommand.cast command.code.toUInt32 = some command := by
  cases command <;> decide

theorem ofNat_ne_zero {n : Nat} (hpos : 0 < n) (hlt : n < 2 ^ 64) : UInt64.ofNat n ≠ 0 := by
  intro h
  have hn : (UInt64.ofNat n).toNat = 0 := congrArg UInt64.toNat h
  rw [UInt64.toNat_ofNat', Nat.mod_eq_of_lt hlt] at hn
  omega

/-- No field of a header is zero, so none is left out. -/
theorem byteSizeLong_createHeader (command : TypeCommand) {length : Nat} (hpos : 0 < length)
    (hlt : length < 2 ^ 64) : (createHeader command length).byteSizeLong = sizeHeader := by
  have hlength := ofNat_ne_zero hpos hlt
  have hcommand := code_toUInt32_ne_zero command
  have hversion : (1 : UInt32) ≠ 0 := by decide
  simp only [Header.byteSizeLong, createHeader, fixed32Size, fixed64Size, hlength, hcommand,
    hversion, if_false, sizeHeader]

/-- A frame is a header of `SIZE_HEADER` bytes followed by the body. -/
theorem serialize_createHeader (command : TypeCommand) {length : Nat} (hpos : 0 < length)
    (hlt : length < 2 ^ 64) (body : Bytes) :
    serialize (createHeader command length) length body =
      (createHeader command length).serialize ++ body := by
  have hsize := byteSizeLong_createHeader command hpos hlt
  have hsame : { createHeader command length with length := UInt64.ofNat length } =
      createHeader command length := rfl
  simp only [serialize, hsame, hsize, Nat.sub_self, List.replicate_zero, List.append_nil]

end MsgFactory

end AppChat.Protocol
