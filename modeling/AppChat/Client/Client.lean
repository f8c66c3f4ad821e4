/-
  `Client.Client`: what the client does with the responses it reads, from
  `client/client/client.cpp`.

  A read handler asks for the next header when it is done, unless it closes the
  connection or meets something it does not expect; after that nothing is read.
  The signals for the windows and the times of the messages are left out.
-/
import AppChat.Foundation.UnorderedMap
import AppChat.Protocol.Framing

set_option autoImplicit false

namespace AppChat

open Foundation Serialize Protocol

/-- A line of a room as the client keeps it. -/
structure ClientTextMsg where
  author : Bytes
  text : Bytes
  channelId : Identifier
  deriving DecidableEq, Repr

/-- The members of a `Client`.  `reading` says whether a read of the socket is
pending. -/
structure Client where
  clientId : Identifier
  login : Bytes
  channelsHistory : UnorderedMap Identifier (List ClientTextMsg) := ∅
  socketOpen : Bool := true
  reading : Bool := true

namespace Client

/-- The lines of a room; none for a room that is not in the map. -/
def lines (c : Client) (r : Identifier) : List ClientTextMsg :=
  (c.channelsHistory.lookup r).getD []

/-! ## The read handlers -/

/-- `close_connection`. -/
def closeConnection (c : Client) : Client := { c with socketOpen := false, reading := false }

/-- A handler that returns without asking for the next header. -/
def stopReading (c : Client) : Client := { c with reading := false }

/-- `set_login_id`. -/
def setLoginId (c : Client) (id : Identifier) : Client := { c with clientId := id }

/-- `channels_history[msg.channel_id].push_back(msg)`. -/
def pushBack (c : Client) (msg : ClientTextMsg) : Client :=
  { c with
    channelsHistory := c.channelsHistory.insert msg.channelId (c.lines msg.channelId ++ [msg]) }

/-- The parse of a read handler.  The size is cast to `int`; nothing is read when it
comes out negative. -/
def parseBuffer (readBuffer : Bytes) : Response × Bool :=
  let size := (Int32.ofNat readBuffer.length).toInt
  if size < 0 then (.msgNotSet, false) else Response.parseFromArray (readBuffer.take size.toNat)

/-- The accessor `input_response()`: the default instance when another member is
set. -/
def inputResponse : Response → InputResponse
  | .inputResponse m => m
  | _ => {}

/-- The accessor `text_response()`. -/
def textResponse : Response → TextResponse
  | .textResponse m => m
  | _ => {}

/-- `do_read_input_response`.  The next header is asked for when the status is OK. -/
def doReadInputResponse (c : Client) (readBuffer : Bytes) : Client :=
  let (response, flagParse) := parseBuffer readBuffer
  if flagParse then
    match response with
    | .inputResponse m =>
        if m.status = .OK then c.setLoginId (inputResponse response).clientId
        else c.closeConnection
    | _ => c.stopReading
  else c.closeConnection

/-- The id is taken from `input_response()` here too. -/
def doReadRegResponse (c : Client) (readBuffer : Bytes) : Client :=
  let (response, flagParse) := parseBuffer readBuffer
  if flagParse then
    match response with
    | .regResponse m =>
        if m.status = .OK then c.setLoginId (inputResponse response).clientId
        else c.closeConnection
    | _ => c.stopReading
  else c.closeConnection

/-- `do_read_join_room_response`. -/
def doReadJoinRoomResponse (c : Client) (readBuffer : Bytes) : Client :=
  let (response, flagParse) := parseBuffer readBuffer
  if flagParse then
    match response with
    | .joinRoomResponse m =>
        if m.status = .OK then
          { c with channelsHistory := c.channelsHistory.tryEmplace m.roomId [] }
        else c.closeConnection
    | _ => c.stopReading
  else c.closeConnection

/-- The outcome of the parse is logged and not looked at. -/
def doReadEchoResponse (c : Client) (readBuffer : Bytes) : Client :=
  let m := textResponse (parseBuffer readBuffer).1
  c.pushBack ⟨m.login, m.text, m.roomId⟩

/-- The switch of `async_read_pb_msg`: the handler that reads the body; none for the
commands the client does not read. -/
def readHandler (command : UInt32) : Option (Client → Bytes → Client) :=
  match TypeCommand.cast command with
  | some .autorisationResponse => some doReadInputResponse
  | some .registrationResponse => some doReadRegResponse
  | some .echoResponse => some doReadEchoResponse
  | some .joinRoomResponse => some doReadJoinRoomResponse
  | _ => none

/-- `async_read_pb_header` and its completion handlers, on the bytes that have come:
the client when it waits for more or has stopped, and the bytes it has not read.
Every turn reads a header, so `fuel` need not exceed the number of bytes. -/
def asyncReadPbHeader : Nat → Client → Bytes → Client × Bytes
  | 0, c, stream => (c, stream)
  | fuel + 1, c, stream =>
      if c.reading = true ∧ sizeHeader ≤ stream.length then
        let newHeader := Header.parseFromArray (stream.take sizeHeader)
        let rest := stream.drop sizeHeader
        if newHeader.2 then
          match readHandler newHeader.1.command with
          | none => (c.stopReading, rest)
          | some handler =>
              let size := newHeader.1.length.toNat
              if size ≤ rest.length then
                asyncReadPbHeader fuel (handler c (rest.take size)) (rest.drop size)
              else (c, stream)
        else (c.stopReading, rest)
      else (c, stream)

/-- The client after `stream` has come. -/
def read (c : Client) (stream : Bytes) : Client × Bytes :=
  asyncReadPbHeader stream.length c stream

/-! ## Whole frames -/

theorem asyncReadPbHeader_of_short {c : Client} {stream : Bytes}
    (h : stream.length < sizeHeader) (fuel : Nat) :
    asyncReadPbHeader fuel c stream = (c, stream) := by
  cases fuel with
  | zero => rfl
  | succ fuel => exact if_neg fun hlong => absurd hlong.2 (by omega)

/-- A frame is handed to the handler of its command. -/
theorem asyncReadPbHeader_frame {c : Client} (hreading : c.reading = true) {m : FactoryMessage}
    {handler : Client → Bytes → Client}
    (hhandler : readHandler m.header.command = some handler) (hsize : m.body.length < 2 ^ 31)
    (fuel : Nat) (rest : Bytes) :
    asyncReadPbHeader (fuel + 1) c (m.frame ++ rest) =
      asyncReadPbHeader fuel (handler c m.body) rest := by
  obtain ⟨hlong, hheader, hlength, hbody, hrest⟩ :=
    readFrame_eq_some (m.readFrame_frame hsize rest)
  rw [asyncReadPbHeader, if_pos ⟨hreading, hlong⟩]
  simp only [hheader, if_true, hhandler, if_pos hlength, hbody, hrest]

/-- The body of a response the server makes is parsed as that response, when its
strings are UTF-8. -/
theorem parseBuffer_serialize {r : Response} (hutf : r.Utf8) (hsize : r.serialize.length < 2 ^ 31) :
    parseBuffer r.serialize = (r, true) := by
  have hint : (Int32.ofNat r.serialize.length).toInt = r.serialize.length :=
    Int32.toInt_ofNat_of_lt hsize
  have hnat : ¬ ((r.serialize.length : Int) < 0) := by omega
  rw [parseBuffer]
  simp only [hint, hnat, if_false, Int.toNat_natCast, List.take_length,
    Response.parseFromArray_serialize hutf hsize]

/-- The client when it has read a whole response: the frame, and nothing else. -/
theorem read_frame {c : Client} (hreading : c.reading = true) {m : FactoryMessage}
    {handler : Client → Bytes → Client}
    (hhandler : readHandler m.header.command = some handler) (hsize : m.body.length < 2 ^ 31) :
    c.read m.frame = (handler c m.body, []) := by
  have hpos := length_frame_pos hsize
  obtain ⟨fuel, hfuel⟩ : ∃ k, m.frame.length = k + 1 := ⟨m.frame.length - 1, by omega⟩
  have hturn := asyncReadPbHeader_frame hreading hhandler hsize fuel []
  rw [List.append_nil] at hturn
  rw [read, hfuel, hturn, asyncReadPbHeader_of_short (by decide)]

end Client

end AppChat
