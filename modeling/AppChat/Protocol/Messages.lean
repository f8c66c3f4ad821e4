/-
  `Protocol.Messages`: the messages of `proto/messages.proto`, `request.proto` and
  `response.proto`, and the code generated for them.

  A string field holds its bytes.  Fields a parser does not know are skipped; the
  program never writes them back, so they are not kept.
-/
import AppChat.Foundation.ProtoWire

set_option autoImplicit false

namespace AppChat.Serialize

open Foundation Foundation.ProtoWire

/-- The depth a parser may descend to from the outermost message. -/
def recursionLimit : Nat := 100

/-! ## The header -/

/-- The message `Header`: three numbers of fixed size. -/
structure Header where
  version : UInt32 := 0
  command : UInt32 := 0
  length : UInt64 := 0
  deriving DecidableEq, Repr

namespace Header

/-- The fields of `Header::_InternalParse`. -/
def fields : List (FieldReader Header) :=
  [fixed32Field 13 fun h v => { h with version := v },
    fixed32Field 21 fun h v => { h with command := v },
    fixed64Field 25 fun h v => { h with length := v }]

/-- `Header::_InternalSerialize`. -/
def serialize (h : Header) : Bytes :=
  writeFixed32 13 h.version ++ writeFixed32 21 h.command ++ writeFixed64 25 h.length

/-- `Header::ByteSizeLong`. -/
def byteSizeLong (h : Header) : Nat :=
  fixed32Size h.version + fixed32Size h.command + fixed64Size h.length

/-- `ParseFromArray`: what was read, and whether all of the input was. -/
def parseFromArray (input : Bytes) : Header × Bool :=
  mergeFrom fields recursionLimit {} input

theorem length_serialize (h : Header) : h.serialize.length = h.byteSizeLong := by
  simp [serialize, byteSizeLong, Nat.add_assoc]

theorem parseFromArray_serialize (h : Header) : parseFromArray h.serialize = (h, true) := by
  have hsplit : h.serialize =
      writeFixed32 13 h.version ++ (writeFixed32 21 h.command ++
        (writeFixed64 25 h.length ++ [])) := by
    simp [serialize]
  rw [hsplit]
  apply Parses.mergeFrom_eq
  apply Parses.fixed32 (by decide) rfl (fun hv => by rw [hv])
  apply Parses.fixed32 (by decide) rfl (fun hv => by rw [hv])
  apply Parses.fixed64 (by decide) rfl (fun hv => by rw [hv])
  exact Parses.nil _

end Header

/-! ## Login and password -/

/-- The shape of `RegRequest` and `InRequest`. -/
structure Credentials where
  login : Bytes := []
  password : Bytes := []
  deriving DecidableEq, Repr

/-- The message `RegRequest`. -/
abbrev RegRequest := Credentials

/-- The message `InRequest`. -/
abbrev InRequest := Credentials

namespace Credentials

/-- The fields of `RegRequest::_InternalParse` and `InRequest::_InternalParse`. -/
def fields : List (FieldReader Credentials) :=
  [stringField 10 fun m s => { m with login := s },
    stringField 18 fun m s => { m with password := s }]

/-- `_InternalSerialize` of both. -/
def serialize (m : Credentials) : Bytes :=
  writeString 10 m.login ++ writeString 18 m.password

/-- `ByteSizeLong` of both. -/
def byteSizeLong (m : Credentials) : Nat := stringSize m.login + stringSize m.password

/-- The strings are UTF-8. -/
def Utf8 (m : Credentials) : Prop := validUtf8 m.login = true ∧ validUtf8 m.password = true

theorem length_serialize (m : Credentials) : m.serialize.length = m.byteSizeLong := by
  simp [serialize, byteSizeLong]

theorem length_lt_of_serialize {m : Credentials} {n : Nat} (h : m.serialize.length < n) :
    m.login.length < n ∧ m.password.length < n := by
  have hlogin := length_le_stringSize m.login
  have hpassword := length_le_stringSize m.password
  rw [length_serialize, byteSizeLong] at h
  omega

theorem parses {m : Credentials} (hutf : m.Utf8) (hsize : m.serialize.length < 2 ^ 31)
    (depth : Nat) : Parses fields depth {} m.serialize m := by
  have hsplit : m.serialize = writeString 10 m.login ++ (writeString 18 m.password ++ []) := by
    simp [serialize]
  obtain ⟨hlogin, hpassword⟩ := length_lt_of_serialize hsize
  rw [hsplit]
  apply Parses.string (by decide) rfl hlogin hutf.1 (fun hs => by rw [hs])
  apply Parses.string (by decide) rfl hpassword hutf.2 (fun hs => by rw [hs])
  exact Parses.nil _

end Credentials

/-! ## A room id -/

/-- The message `JoinRoomRequest`. -/
structure JoinRoomRequest where
  roomId : Int32 := 0
  deriving DecidableEq, Repr

namespace JoinRoomRequest

/-- The field of `JoinRoomRequest::_InternalParse`. -/
def fields : List (FieldReader JoinRoomRequest) := [int32Field 8 fun m v => { m with roomId := v }]

/-- `JoinRoomRequest::_InternalSerialize`. -/
def serialize (m : JoinRoomRequest) : Bytes := writeInt32 8 m.roomId

/-- `JoinRoomRequest::ByteSizeLong`. -/
def byteSizeLong (m : JoinRoomRequest) : Nat := int32Size m.roomId

theorem length_serialize (m : JoinRoomRequest) : m.serialize.length = m.byteSizeLong := by
  simp [serialize, byteSizeLong]

theorem parses (m : JoinRoomRequest) (depth : Nat) : Parses fields depth {} m.serialize m := by
  rw [← List.append_nil m.serialize]
  apply Parses.int32 (by decide) rfl (fun hv => by rw [hv])
  exact Parses.nil _

end JoinRoomRequest

/-! ## A text for a room -/

/-- The shape of `TextRequest` and `TextResponse`. -/
structure RoomText where
  login : Bytes := []
  roomId : Int32 := 0
  text : Bytes := []
  deriving DecidableEq, Repr

/-- The message `TextRequest`. -/
abbrev TextRequest := RoomText

/-- The message `TextResponse`. -/
abbrev TextResponse := RoomText

namespace RoomText

/-- The fields of `TextRequest::_InternalParse` and `TextResponse::_InternalParse`. -/
def fields : List (FieldReader RoomText) :=
  [stringField 10 fun m s => { m with login := s },
    int32Field 16 fun m v => { m with roomId := v },
    stringField 26 fun m s => { m with text := s }]

/-- `_InternalSerialize` of both. -/
def serialize (m : RoomText) : Bytes :=
  writeString 10 m.login ++ writeInt32 16 m.roomId ++ writeString 26 m.text

/-- `ByteSizeLong` of both. -/
def byteSizeLong (m : RoomText) : Nat :=
  stringSize m.login + stringSize m.text + int32Size m.roomId

/-- The strings are UTF-8. -/
def Utf8 (m : RoomText) : Prop := validUtf8 m.login = true ∧ validUtf8 m.text = true

theorem length_serialize (m : RoomText) : m.serialize.length = m.byteSizeLong := by
  simp only [serialize, byteSizeLong, List.length_append, length_writeString, length_writeInt32]
  omega

theorem length_lt_of_serialize {m : RoomText} {n : Nat} (h : m.serialize.length < n) :
    m.login.length < n ∧ m.text.length < n := by
  have hlogin := length_le_stringSize m.login
  have htext := length_le_stringSize m.text
  rw [length_serialize, byteSizeLong] at h
  omega

theorem parses {m : RoomText} (hutf : m.Utf8) (hsize : m.serialize.length < 2 ^ 31)
    (depth : Nat) : Parses fields depth {} m.serialize m := by
  have hsplit : m.serialize = writeString 10 m.login ++ (writeInt32 16 m.roomId ++
      (writeString 26 m.text ++ [])) := by
    simp [serialize]
  obtain ⟨hlogin, htext⟩ := length_lt_of_serialize hsize
  rw [hsplit]
  apply Parses.string (by decide) rfl hlogin hutf.1 (fun hs => by rw [hs])
  apply Parses.int32 (by decide) rfl (fun hv => by rw [hv])
  apply Parses.string (by decide) rfl htext hutf.2 (fun hs => by rw [hs])
  exact Parses.nil _

end RoomText

/-! ## Results -/

/-- `STATUS`.  A proto3 enumeration may hold any number. -/
structure Status where
  number : Int32
  deriving DecidableEq, Repr

namespace Status

/-- `FAIL`. -/
def FAIL : Status := ⟨0⟩

/-- `OK`. -/
def OK : Status := ⟨1⟩

end Status

/-- The shape of `InputResponse` and `RegResponse`. -/
structure IdResponse where
  status : Status := .FAIL
  msgId : Int32 := 0
  clientId : Int32 := 0
  chatId : Int32 := 0
  deriving DecidableEq, Repr

/-- The message `InputResponse`. -/
abbrev InputResponse := IdResponse

/-- The message `RegResponse`. -/
abbrev RegResponse := IdResponse

namespace IdResponse

/-- The fields of `InputResponse::_InternalParse` and `RegResponse::_InternalParse`. -/
def fields : List (FieldReader IdResponse) :=
  [int32Field 8 fun m v => { m with status := ⟨v⟩ },
    int32Field 16 fun m v => { m with msgId := v },
    int32Field 24 fun m v => { m with clientId := v },
    int32Field 32 fun m v => { m with chatId := v }]

/-- `_InternalSerialize` of both. -/
def serialize (m : IdResponse) : Bytes :=
  writeInt32 8 m.status.number ++ writeInt32 16 m.msgId ++ writeInt32 24 m.clientId ++
    writeInt32 32 m.chatId

/-- `ByteSizeLong` of both. -/
def byteSizeLong (m : IdResponse) : Nat :=
  int32Size m.status.number + int32Size m.msgId + int32Size m.clientId + int32Size m.chatId

theorem length_serialize (m : IdResponse) : m.serialize.length = m.byteSizeLong := by
  simp [serialize, byteSizeLong, Nat.add_assoc]

theorem parses (m : IdResponse) (depth : Nat) : Parses fields depth {} m.serialize m := by
  have hsplit : m.serialize = writeInt32 8 m.status.number ++ (writeInt32 16 m.msgId ++
      (writeInt32 24 m.clientId ++ (writeInt32 32 m.chatId ++ []))) := by
    simp [serialize]
  rw [hsplit]
  apply Parses.int32 (by decide) rfl (fun hv => by rw [hv]; rfl)
  apply Parses.int32 (by decide) rfl (fun hv => by rw [hv])
  apply Parses.int32 (by decide) rfl (fun hv => by rw [hv])
  apply Parses.int32 (by decide) rfl (fun hv => by rw [hv])
  exact Parses.nil _

end IdResponse

/-- The message `JoinRoomResponse`. -/
structure JoinRoomResponse where
  status : Status := .FAIL
  roomId : Int32 := 0
  deriving DecidableEq, Repr

namespace JoinRoomResponse

/-- The fields of `JoinRoomResponse::_InternalParse`. -/
def fields : List (FieldReader JoinRoomResponse) :=
  [int32Field 8 fun m v => { m with status := ⟨v⟩ },
    int32Field 16 fun m v => { m with roomId := v }]

/-- `JoinRoomResponse::_InternalSerialize`. -/
def serialize (m : JoinRoomResponse) : Bytes :=
  writeInt32 8 m.status.number ++ writeInt32 16 m.roomId

/-- `JoinRoomResponse::ByteSizeLong`. -/
def byteSizeLong (m : JoinRoomResponse) : Nat :=
  int32Size m.status.number + int32Size m.roomId

theorem length_serialize (m : JoinRoomResponse) : m.serialize.length = m.byteSizeLong := by
  simp [serialize, byteSizeLong]

theorem parses (m : JoinRoomResponse) (depth : Nat) :
    Parses fields depth {} m.serialize m := by
  have hsplit : m.serialize = writeInt32 8 m.status.number ++ (writeInt32 16 m.roomId ++ []) := by
    simp [serialize]
  rw [hsplit]
  apply Parses.int32 (by decide) rfl (fun hv => by rw [hv]; rfl)
  apply Parses.int32 (by decide) rfl (fun hv => by rw [hv])
  exact Parses.nil _

end JoinRoomResponse

/-! ## The request -/

/-- `Request`, a oneof. -/
inductive Request where
  | msgNotSet
  | registerRequest (m : RegRequest)
  | inputRequest (m : InRequest)
  | joinRoomRequest (m : JoinRoomRequest)
  | textRequest (m : TextRequest)
  deriving DecidableEq, Repr

namespace Request

/-! A member that is read again goes on from its value; another member replaces
it. -/

/-- `_internal_mutable_register_request`. -/
def mutableRegisterRequest : Request → RegRequest
  | registerRequest m => m
  | _ => {}

/-- `_internal_mutable_input_request`. -/
def mutableInputRequest : Request → InRequest
  | inputRequest m => m
  | _ => {}

/-- `_internal_mutable_join_room_request`. -/
def mutableJoinRoomRequest : Request → JoinRoomRequest
  | joinRoomRequest m => m
  | _ => {}

/-- `_internal_mutable_text_request`. -/
def mutableTextRequest : Request → TextRequest
  | textRequest m => m
  | _ => {}

/-- The members of `Request::_InternalParse`. -/
def fields (depth : Nat) : List (FieldReader Request) :=
  [messageField 10 mutableRegisterRequest (fun _ m => registerRequest m)
      (mergeFrom Credentials.fields depth),
    messageField 18 mutableInputRequest (fun _ m => inputRequest m)
      (mergeFrom Credentials.fields depth),
    messageField 26 mutableJoinRoomRequest (fun _ m => joinRoomRequest m)
      (mergeFrom JoinRoomRequest.fields depth),
    messageField 34 mutableTextRequest (fun _ m => textRequest m)
      (mergeFrom RoomText.fields depth)]

/-- `Request::_InternalSerialize`. -/
def serialize : Request → Bytes
  | msgNotSet => []
  | registerRequest m => writeMessage 10 m.serialize
  | inputRequest m => writeMessage 18 m.serialize
  | joinRoomRequest m => writeMessage 26 m.serialize
  | textRequest m => writeMessage 34 m.serialize

/-- `Request::ByteSizeLong`. -/
def byteSizeLong : Request → Nat
  | msgNotSet => 0
  | registerRequest m => messageSize m.byteSizeLong
  | inputRequest m => messageSize m.byteSizeLong
  | joinRoomRequest m => messageSize m.byteSizeLong
  | textRequest m => messageSize m.byteSizeLong

/-- `ParseFromArray`: what was read, and whether all of the input was. -/
def parseFromArray (input : Bytes) : Request × Bool :=
  mergeFrom (fields (recursionLimit - 1)) recursionLimit msgNotSet input

/-- The strings are UTF-8. -/
def Utf8 : Request → Prop
  | registerRequest m => m.Utf8
  | inputRequest m => m.Utf8
  | textRequest m => m.Utf8
  | _ => True

theorem length_serialize (r : Request) : r.serialize.length = r.byteSizeLong := by
  cases r with
  | msgNotSet => rfl
  | registerRequest m => simp [serialize, byteSizeLong, m.length_serialize]
  | inputRequest m => simp [serialize, byteSizeLong, m.length_serialize]
  | joinRoomRequest m => simp [serialize, byteSizeLong, m.length_serialize]
  | textRequest m => simp [serialize, byteSizeLong, m.length_serialize]

theorem parseFromArray_serialize {r : Request} (hutf : r.Utf8)
    (hsize : r.serialize.length < 2 ^ 31) : parseFromArray r.serialize = (r, true) := by
  apply Parses.mergeFrom_eq
  rw [← List.append_nil r.serialize]
  cases r with
  | msgNotSet => exact Parses.nil _
  | registerRequest m =>
      have hbody := length_lt_of_writeMessage hsize
      exact Parses.message (by decide) rfl hbody (m.parses hutf hbody _).mergeFrom_eq
        (Parses.nil _)
  | inputRequest m =>
      have hbody := length_lt_of_writeMessage hsize
      exact Parses.message (by decide) rfl hbody (m.parses hutf hbody _).mergeFrom_eq
        (Parses.nil _)
  | joinRoomRequest m =>
      have hbody := length_lt_of_writeMessage hsize
      exact Parses.message (by decide) rfl hbody (m.parses _).mergeFrom_eq (Parses.nil _)
  | textRequest m =>
      have hbody := length_lt_of_writeMessage hsize
      exact Parses.message (by decide) rfl hbody (m.parses hutf hbody _).mergeFrom_eq
        (Parses.nil _)

end Request

/-! ## The response -/

/-- `Response`, a oneof. -/
inductive Response where
  | msgNotSet
  | inputResponse (m : InputResponse)
  | regResponse (m : RegResponse)
  | joinRoomResponse (m : JoinRoomResponse)
  | textResponse (m : TextResponse)
  deriving DecidableEq, Repr

namespace Response

/-- `_internal_mutable_input_response`. -/
def mutableInputResponse : Response → InputResponse
  | inputResponse m => m
  | _ => {}

/-- `_internal_mutable_reg_response`. -/
def mutableRegResponse : Response → RegResponse
  | regResponse m => m
  | _ => {}

/-- `_internal_mutable_join_room_response`. -/
def mutableJoinRoomResponse : Response → JoinRoomResponse
  | joinRoomResponse m => m
  | _ => {}

/-- `_internal_mutable_text_response`. -/
def mutableTextResponse : Response → TextResponse
  | textResponse m => m
  | _ => {}

/-- The members of `Response::_InternalParse`. -/
def fields (depth : Nat) : List (FieldReader Response) :=
  [messageField 10 mutableInputResponse (fun _ m => inputResponse m)
      (mergeFrom IdResponse.fields depth),
    messageField 18 mutableRegResponse (fun _ m => regResponse m)
      (mergeFrom IdResponse.fields depth),
    messageField 26 mutableJoinRoomResponse (fun _ m => joinRoomResponse m)
      (mergeFrom JoinRoomResponse.fields depth),
    messageField 34 mutableTextResponse (fun _ m => textResponse m)
      (mergeFrom RoomText.fields depth)]

/-- `Response::_InternalSerialize`. -/
def serialize : Response → Bytes
  | msgNotSet => []
  | inputResponse m => writeMessage 10 m.serialize
  | regResponse m => writeMessage 18 m.serialize
  | joinRoomResponse m => writeMessage 26 m.serialize
  | textResponse m => writeMessage 34 m.serialize

/-- `Response::ByteSizeLong`. -/
def byteSizeLong : Response → Nat
  | msgNotSet => 0
  | inputResponse m => messageSize m.byteSizeLong
  | regResponse m => messageSize m.byteSizeLong
  | joinRoomResponse m => messageSize m.byteSizeLong
  | textResponse m => messageSize m.byteSizeLong

/-- `ParseFromArray`: what was read, and whether all of the input was. -/
def parseFromArray (input : Bytes) : Response × Bool :=
  mergeFrom (fields (recursionLimit - 1)) recursionLimit msgNotSet input

/-- The strings are UTF-8. -/
def Utf8 : Response → Prop
  | textResponse m => m.Utf8
  | _ => True

theorem length_serialize (r : Response) : r.serialize.length = r.byteSizeLong := by
  cases r with
  | msgNotSet => rfl
  | inputResponse m => simp [serialize, byteSizeLong, m.length_serialize]
  | regResponse m => simp [serialize, byteSizeLong, m.length_serialize]
  | joinRoomResponse m => simp [serialize, byteSizeLong, m.length_serialize]
  | textResponse m => simp [serialize, byteSizeLong, m.length_serialize]

theorem parseFromArray_serialize {r : Response} (hutf : r.Utf8)
    (hsize : r.serialize.length < 2 ^ 31) : parseFromArray r.serialize = (r, true) := by
  apply Parses.mergeFrom_eq
  rw [← List.append_nil r.serialize]
  cases r with
  | msgNotSet => exact Parses.nil _
  | inputResponse m =>
      have hbody := length_lt_of_writeMessage hsize
      exact Parses.message (by decide) rfl hbody (m.parses _).mergeFrom_eq (Parses.nil _)
  | regResponse m =>
      have hbody := length_lt_of_writeMessage hsize
      exact Parses.message (by decide) rfl hbody (m.parses _).mergeFrom_eq (Parses.nil _)
  | joinRoomResponse m =>
      have hbody := length_lt_of_writeMessage hsize
      exact Parses.message (by decide) rfl hbody (m.parses _).mergeFrom_eq (Parses.nil _)
  | textResponse m =>
      have hbody := length_lt_of_writeMessage hsize
      exact Parses.message (by decide) rfl hbody (m.parses hutf hbody _).mergeFrom_eq
        (Parses.nil _)

end Response

end AppChat.Serialize
