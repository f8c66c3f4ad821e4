/-
  `Protocol.Framing`: what is framed at one end is received at the other.
-/
import AppChat.Protocol.MsgFactory

set_option autoImplicit false

namespace AppChat.Protocol

open Foundation Foundation.ProtoWire Serialize MsgFactory

/-! ## Receiving -/

/-- A message of either direction. -/
inductive Message where
  | request (r : Request)
  | response (r : Response)
  deriving DecidableEq, Repr

namespace Message

/-- `SerializeToArray` of the message. -/
def serialize : Message → Bytes
  | request r => r.serialize
  | response r => r.serialize

/-- `ByteSizeLong` of the message. -/
def byteSizeLong : Message → Nat
  | request r => r.byteSizeLong
  | response r => r.byteSizeLong

/-- `serialize_request` or `serialize_response`. -/
def frame (header : Header) : Message → Bytes
  | request r => serializeRequest header r
  | response r => serializeResponse header r

/-- The strings are UTF-8. -/
def Utf8 : Message → Prop
  | request r => r.Utf8
  | response r => r.Utf8

theorem length_serialize (m : Message) : m.serialize.length = m.byteSizeLong := by
  cases m with
  | request r => exact r.length_serialize
  | response r => exact r.length_serialize

theorem frame_eq (header : Header) (m : Message) :
    m.frame header = MsgFactory.serialize header m.byteSizeLong m.serialize := by
  cases m with
  | request r => rfl
  | response r => rfl

end Message

/-- The body of a request, as `process_msg` parses it. -/
def parseRequest (body : Bytes) : Option Message :=
  let request := Request.parseFromArray body
  if request.2 then some (.request request.1) else none

/-- The body of a response, as the client's read handlers parse it. -/
def parseResponse (body : Bytes) : Option Message :=
  let response := Response.parseFromArray body
  if response.2 then some (.response response.1) else none

/-- Parse the body of a frame as the command says.  `none` when the parse fails,
and for a command neither side reads. -/
def parseBody (command : TypeCommand) (body : Bytes) : Option Message :=
  match command with
  | .registrationRequest | .authorisationRequest | .echoRequest | .joinRoomRequest =>
      parseRequest body
  | .registrationResponse | .autorisationResponse | .echoResponse | .joinRoomResponse =>
      parseResponse body
  | .unknown | .leaveRoomRequest => none

/-- Read one frame: `SIZE_HEADER` bytes, then as many as the header says.  `none`
when the input ends before the frame does or the header does not parse. -/
def readFrame (input : Bytes) : Option (Header × Bytes × Bytes) :=
  if sizeHeader ≤ input.length then
    let header := Header.parseFromArray (input.take sizeHeader)
    let rest := input.drop sizeHeader
    if header.2 = true ∧ header.1.length.toNat ≤ rest.length then
      some (header.1, rest.take header.1.length.toNat, rest.drop header.1.length.toNat)
    else none
  else none

/-- What `readFrame` has read. -/
theorem readFrame_eq_some {input body rest : Bytes} {header : Header}
    (h : readFrame input = some (header, body, rest)) :
    sizeHeader ≤ input.length ∧
      Header.parseFromArray (input.take sizeHeader) = (header, true) ∧
      header.length.toNat ≤ (input.drop sizeHeader).length ∧
      (input.drop sizeHeader).take header.length.toNat = body ∧
      (input.drop sizeHeader).drop header.length.toNat = rest := by
  rw [readFrame] at h
  split at h
  · rename_i hlong
    dsimp only at h
    split at h
    · rename_i hparsed
      simp only [Option.some.injEq, Prod.mk.injEq] at h
      obtain ⟨rfl, hbody, hrest⟩ := h
      exact ⟨hlong, Prod.ext rfl hparsed.1, hparsed.2, hbody, hrest⟩
    · cases h
  · cases h

/-- The receiver's loop: the messages read, and the bytes left over where it
stops.  Both sides go on after a message they can read; what they do after one they
cannot read differs, and here the loop stops.  Every turn reads a header, so `fuel` need not exceed the length of the
input. -/
def receiveLoop : Nat → Bytes → List (TypeCommand × Message) × Bytes
  | 0, input => ([], input)
  | fuel + 1, input =>
      match readFrame input with
      | none => ([], input)
      | some (header, body, rest) =>
          match TypeCommand.cast header.command with
          | none => ([], input)
          | some command =>
              match parseBody command body with
              | none => ([], input)
              | some message =>
                  let after := receiveLoop fuel rest
                  ((command, message) :: after.1, after.2)

/-- What a receiver reads from an input: the messages, and the bytes left over. -/
def receive (input : Bytes) : List (TypeCommand × Message) × Bytes :=
  receiveLoop input.length input

/-! ## Sending -/

/-- A message as one of the eight constructors of `MsgFactory` builds it. -/
inductive FactoryMessage where
  | inputRequest (login password : Bytes)
  | regRequest (login password : Bytes)
  | joinRoomRequest (roomId : Int32)
  | textRequest (login : Bytes) (roomId : Int32) (text : Bytes)
  | inputResponse (clientId : Int32)
  | regResponse (clientId : Int32)
  | textResponse (login : Bytes) (roomId : Int32) (text : Bytes)
  | joinRoomResponse (newRoomId : Int32) (flag : Bool)
  deriving DecidableEq, Repr

namespace FactoryMessage

/-- The command the message is sent under. -/
def command : FactoryMessage → TypeCommand
  | inputRequest .. => .authorisationRequest
  | regRequest .. => .registrationRequest
  | joinRoomRequest .. => .joinRoomRequest
  | textRequest .. => .echoRequest
  | inputResponse .. => .autorisationResponse
  | regResponse .. => .registrationResponse
  | textResponse .. => .echoResponse
  | joinRoomResponse .. => .joinRoomResponse

/-- The message that the constructor builds. -/
def message : FactoryMessage → Message
  | inputRequest login password => .request (createInputRequest login password)
  | regRequest login password => .request (createRegRequest login password)
  | joinRoomRequest roomId => .request (MsgFactory.joinRoomRequest roomId)
  | textRequest login roomId text => .request (createTextRequest login roomId text)
  | inputResponse clientId => .response (createInputResponse clientId)
  | regResponse clientId => .response (createRegResponse clientId)
  | textResponse login roomId text => .response (createTextResponse login roomId text)
  | joinRoomResponse newRoomId flag => .response (createJoinRoomResponse newRoomId flag)

/-- The body. -/
def body (m : FactoryMessage) : Bytes := m.message.serialize

/-- The header `create_header` makes for the message. -/
def header (m : FactoryMessage) : Header := createHeader m.command m.message.byteSizeLong

/-- The bytes that are sent. -/
def frame (m : FactoryMessage) : Bytes := m.message.frame m.header

theorem body_pos (m : FactoryMessage) : 0 < m.body.length := by
  cases m <;> exact length_writeMessage_pos _ _

theorem header_eq (m : FactoryMessage) : m.header = createHeader m.command m.body.length := by
  rw [header, body, m.message.length_serialize]

/-- The receiver knows the command of the header. -/
theorem cast_header (m : FactoryMessage) : TypeCommand.cast m.header.command = some m.command := by
  rw [header_eq]
  exact cast_code m.command

/-- A frame is the header followed by the body, nothing between them. -/
theorem frame_eq {m : FactoryMessage} (hsize : m.body.length < 2 ^ 31) :
    m.frame = m.header.serialize ++ m.body := by
  have hlt : m.body.length < 2 ^ 64 := by omega
  rw [frame, Message.frame_eq, ← m.message.length_serialize, header_eq]
  exact serialize_createHeader m.command m.body_pos hlt m.body

theorem length_header {m : FactoryMessage} (hsize : m.body.length < 2 ^ 31) :
    m.header.serialize.length = sizeHeader := by
  rw [Header.length_serialize, header_eq]
  exact byteSizeLong_createHeader m.command m.body_pos (by omega)

/-- What an answer adds to the texts in it. -/
theorem length_body_response_le (r : Response) : r.serialize.length ≤
    (match r with
      | .textResponse m => m.login.length + m.text.length
      | _ => 0) + 50 := by
  rw [r.length_serialize]
  cases r with
  | msgNotSet => exact Nat.zero_le _
  | inputResponse m | regResponse m =>
      have hbody : m.byteSizeLong ≤ 44 := by
        have h₁ := int32Size_le m.status.number
        have h₂ := int32Size_le m.msgId
        have h₃ := int32Size_le m.clientId
        have h₄ := int32Size_le m.chatId
        unfold IdResponse.byteSizeLong
        omega
      exact (messageSize_le _).trans (by omega)
  | joinRoomResponse m =>
      have hbody : m.byteSizeLong ≤ 22 := by
        have h₁ := int32Size_le m.status.number
        have h₂ := int32Size_le m.roomId
        unfold JoinRoomResponse.byteSizeLong
        omega
      exact (messageSize_le _).trans (by omega)
  | textResponse m =>
      have hbody : m.byteSizeLong ≤ m.login.length + m.text.length + 23 := by
        have h₁ := stringSize_le m.login
        have h₂ := int32Size_le m.roomId
        have h₃ := stringSize_le m.text
        unfold RoomText.byteSizeLong
        omega
      exact (messageSize_le _).trans (by simp only; omega)

theorem parseRequest_serialize (r : Request) (hutf : r.Utf8)
    (hsize : r.serialize.length < 2 ^ 31) : parseRequest r.serialize = some (.request r) := by
  rw [parseRequest, Request.parseFromArray_serialize hutf hsize]
  rfl

theorem parseResponse_serialize (r : Response) (hutf : r.Utf8)
    (hsize : r.serialize.length < 2 ^ 31) : parseResponse r.serialize = some (.response r) := by
  rw [parseResponse, Response.parseFromArray_serialize hutf hsize]
  rfl

/-- The command of a message tells the receiver how to parse it. -/
theorem parseBody_body {m : FactoryMessage} (hutf : m.message.Utf8) (hsize : m.body.length < 2 ^ 31) :
    parseBody m.command m.body = some m.message := by
  cases m with
  | inputRequest login password =>
      exact parseRequest_serialize (createInputRequest login password) hutf hsize
  | regRequest login password =>
      exact parseRequest_serialize (createRegRequest login password) hutf hsize
  | joinRoomRequest roomId =>
      exact parseRequest_serialize (MsgFactory.joinRoomRequest roomId) hutf hsize
  | textRequest login roomId text =>
      exact parseRequest_serialize (createTextRequest login roomId text) hutf hsize
  | inputResponse clientId =>
      exact parseResponse_serialize (createInputResponse clientId) hutf hsize
  | regResponse clientId =>
      exact parseResponse_serialize (createRegResponse clientId) hutf hsize
  | textResponse login roomId text =>
      exact parseResponse_serialize (createTextResponse login roomId text) hutf hsize
  | joinRoomResponse newRoomId flag =>
      exact parseResponse_serialize (createJoinRoomResponse newRoomId flag) hutf hsize

/-- A frame is read back whatever follows it. -/
theorem readFrame_frame {m : FactoryMessage} (hsize : m.body.length < 2 ^ 31) (rest : Bytes) :
    readFrame (m.frame ++ rest) = some (m.header, m.body, rest) := by
  have hheader := length_header hsize
  have hsplit : m.frame ++ rest = m.header.serialize ++ (m.body ++ rest) := by
    rw [frame_eq hsize, List.append_assoc]
  have hlength : m.header.length.toNat = m.body.length := by
    rw [header_eq]
    exact (UInt64.toNat_ofNat').trans (Nat.mod_eq_of_lt (by omega))
  have hlong : sizeHeader ≤ (m.header.serialize ++ (m.body ++ rest)).length := by
    rw [List.length_append, hheader]
    exact Nat.le_add_right _ _
  have htake : (m.header.serialize ++ (m.body ++ rest)).take sizeHeader = m.header.serialize :=
    List.take_left' hheader
  have hdrop : (m.header.serialize ++ (m.body ++ rest)).drop sizeHeader = m.body ++ rest :=
    List.drop_left' hheader
  have hbody : m.body.length ≤ (m.body ++ rest).length := by simp
  rw [hsplit, readFrame, if_pos hlong]
  simp only [htake, hdrop, Header.parseFromArray_serialize, hlength, hbody, and_self, if_true,
    List.take_left, List.drop_left]

end FactoryMessage

/-! ## The round trip -/

/-- A turn of the loop on a frame. -/
theorem receiveLoop_frame {m : FactoryMessage} (hutf : m.message.Utf8) (hsize : m.body.length < 2 ^ 31)
    (fuel : Nat) (rest : Bytes) :
    receiveLoop (fuel + 1) (m.frame ++ rest) =
      ((m.command, m.message) :: (receiveLoop fuel rest).1, (receiveLoop fuel rest).2) := by
  rw [receiveLoop, m.readFrame_frame hsize]
  simp only [m.cast_header, m.parseBody_body hutf hsize]

theorem length_frame_pos {m : FactoryMessage} (hsize : m.body.length < 2 ^ 31) :
    0 < m.frame.length := by
  have hbody := m.body_pos
  rw [m.frame_eq hsize, List.length_append]
  omega

theorem receiveLoop_frames {msgs : List FactoryMessage}
    (h : ∀ m ∈ msgs, m.message.Utf8 ∧ m.body.length < 2 ^ 31) {fuel : Nat}
    (hfuel : (msgs.flatMap FactoryMessage.frame).length ≤ fuel) :
    receiveLoop fuel (msgs.flatMap FactoryMessage.frame) =
      (msgs.map fun m => (m.command, m.message), []) := by
  induction msgs generalizing fuel with
  | nil =>
      cases fuel with
      | zero => rfl
      | succ fuel => rfl
  | cons m msgs ih =>
      obtain ⟨⟨hutf, hsize⟩, hrest⟩ := List.forall_mem_cons.mp h
      have hpos := length_frame_pos hsize
      rw [List.flatMap_cons, List.length_append] at hfuel
      obtain ⟨fuel, rfl⟩ : ∃ k, fuel = k + 1 := ⟨fuel - 1, by omega⟩
      have hfuel' : (msgs.flatMap FactoryMessage.frame).length ≤ fuel := by omega
      have htail := ih hrest hfuel'
      rw [List.flatMap_cons, receiveLoop_frame hutf hsize, htail]
      rfl

/-- **The framing round trip.**  The receiver gets the messages that were framed,
in order, and uses up every byte.  Every header has its full size and every body
is non-empty. -/
theorem receive_frames {msgs : List FactoryMessage}
    (h : ∀ m ∈ msgs, m.message.Utf8 ∧ m.body.length < 2 ^ 31) :
    receive (msgs.flatMap FactoryMessage.frame) =
        (msgs.map fun m => (m.command, m.message), []) ∧
      ∀ m ∈ msgs, m.frame = m.header.serialize ++ m.body ∧
        m.header.serialize.length = sizeHeader ∧ sizeHeader = 19 ∧ 0 < m.body.length := by
  refine ⟨receiveLoop_frames h le_rfl, ?_⟩
  intro m hm
  have hsize := (h m hm).2
  exact ⟨m.frame_eq hsize, m.length_header hsize, rfl, m.body_pos⟩

/-- A log in of an empty login, a join of a negative room, and two answers. -/
theorem receive_frames_session :
    let msgs : List FactoryMessage :=
      [.inputRequest [] (ascii "pw"), .joinRoomRequest (-5), .inputResponse (-1),
        .textResponse (ascii "u") 0 []]
    receive (msgs.flatMap FactoryMessage.frame) =
      (msgs.map fun m => (m.command, m.message), []) := by
  intro msgs
  refine (receive_frames ?_).1
  intro m hm
  simp only [msgs, List.mem_cons, List.not_mem_nil, or_false] at hm
  rcases hm with rfl | rfl | rfl | rfl
  · exact ⟨⟨rfl, rfl⟩, by decide⟩
  · exact ⟨trivial, by decide⟩
  · exact ⟨trivial, by decide⟩
  · exact ⟨⟨rfl, rfl⟩, by decide⟩

end AppChat.Protocol
