/-
  `Connection.ReadLoop`: how a connection reads requests, from
  `async_read_pb_header`, `do_parse_pb_header` and `process_msg`.

  The loop looks at the error code of the read of a header and not at that of
  the read of a body.  The body is read into `buffer_msg`, which keeps what the
  previous messages left in it.
-/
import AppChat.Protocol.Framing

set_option autoImplicit false

namespace AppChat.Connection

open Foundation Foundation.ProtoWire Serialize Protocol

/-! ## The source's loop -/

/-- The handlers `process_msg` can post. -/
inductive Handler where
  | doAutorisation
  | doRegistration
  | doJoinRoom
  | doTextMsg
  deriving DecidableEq, Repr

/-- A handler posted with its argument. -/
structure Task where
  handler : Handler
  request : Request
  deriving DecidableEq, Repr

/-- What a completion handler of `async_read` gets to see: the bytes that came,
whether the read failed, and what is still to come. -/
structure ReadCompletion where
  data : Bytes
  error : Bool
  stream : Bytes

/-- `async_read` of a buffer of `size` bytes: it completes when the buffer is full,
or with an error when the stream ends first. -/
def asyncRead (size : Nat) (stream : Bytes) : ReadCompletion where
  data := stream.take size
  error := decide (stream.length < size)
  stream := stream.drop size

/-- `max_size()` of a vector of bytes. -/
def maxSize : Nat := 2 ^ 63 - 1

/-- `vector::resize`: cut, or extended with zero bytes; above `max_size()` it
throws. -/
def resize (buffer : Bytes) (size : Nat) : Option Bytes :=
  if size ≤ maxSize then some (buffer.take size ++ List.replicate (size - buffer.length) 0)
  else none

/-- The parse of `process_msg`.  The size is cast to `int`; nothing is read when
it comes out negative. -/
def parseBuffer (buffer : Bytes) : Request × Bool :=
  let size := (Int32.ofNat buffer.length).toInt
  if size < 0 then (.msgNotSet, false) else Request.parseFromArray (buffer.take size.toNat)

/-- The switch of `process_msg`. -/
def handlerOf (command : UInt32) : Option Handler :=
  match TypeCommand.cast command with
  | some .authorisationRequest => some .doAutorisation
  | some .registrationRequest => some .doRegistration
  | some .joinRoomRequest => some .doJoinRoom
  | some .echoRequest => some .doTextMsg
  | _ => none

/-- `process_msg`: the outcome of the parse is logged and not looked at. -/
def processMsg (header : Header) (bufferMsg : Bytes) : List Task :=
  (handlerOf header.command).toList.map fun handler => ⟨handler, (parseBuffer bufferMsg).1⟩

/-- `async_read_pb_header` and its completion handlers: the tasks posted while
`stream` is read.  Every turn reads a header, so `fuel` need not exceed the length
of the stream. -/
def asyncReadPbHeader : Nat → Bytes → Bytes → List Task
  | 0, _, _ => []
  | fuel + 1, bufferMsg, stream =>
      let headerRead := asyncRead sizeHeader stream
      if headerRead.error then []
      else
        let newHeader := Header.parseFromArray headerRead.data
        if newHeader.2 then
          match resize bufferMsg newHeader.1.length.toNat with
          | none => []
          | some resized =>
              -- the completion of this read ignores its error code
              let bodyRead := asyncRead newHeader.1.length.toNat headerRead.stream
              let bufferMsg := bodyRead.data ++ resized.drop bodyRead.data.length
              processMsg newHeader.1 bufferMsg ++
                asyncReadPbHeader fuel bufferMsg bodyRead.stream
        else asyncReadPbHeader fuel bufferMsg headerRead.stream

/-- The tasks a connection with the buffer `bufferMsg` posts. -/
def dispatched (bufferMsg stream : Bytes) : List Task :=
  asyncReadPbHeader (stream.length + 1) bufferMsg stream

/-! ## Well-formed request frames -/

/-- The member of the oneof that a handler asks for. -/
def Handler.Serves : Handler → Request → Prop
  | .doAutorisation, .inputRequest _ => True
  | .doRegistration, .registerRequest _ => True
  | .doJoinRoom, .joinRoomRequest _ => True
  | .doTextMsg, .textRequest _ => True
  | _, _ => False

/-- A request as it stands in the stream: a header of the right size with the
command of the request and the length of the body, and a body that parses. -/
structure RequestFrame where
  headerBytes : Bytes
  body : Bytes
  header : Header
  handler : Handler
  request : Request
  length_headerBytes : headerBytes.length = sizeHeader
  parse_headerBytes : Header.parseFromArray headerBytes = (header, true)
  length_body : body.length = header.length.toNat
  length_body_lt : body.length < 2 ^ 31
  handlerOf_command : handlerOf header.command = some handler
  parse_body : Request.parseFromArray body = (request, true)
  serves : handler.Serves request

namespace RequestFrame

/-- The frame as it is sent. -/
def bytes (f : RequestFrame) : Bytes := f.headerBytes ++ f.body

/-- The task the frame asks for. -/
def task (f : RequestFrame) : Task := ⟨f.handler, f.request⟩

theorem length_bytes (f : RequestFrame) : f.bytes.length = sizeHeader + f.body.length := by
  rw [bytes, List.length_append, f.length_headerBytes]

end RequestFrame

/-- The frame of a request `MsgFactory` makes, sent under its own command. -/
def RequestFrame.ofRequest (command : TypeCommand) (r : Request) (handler : Handler)
    (hhandler : handlerOf command.code.toUInt32 = some handler) (hserves : handler.Serves r)
    (hutf : r.Utf8) (hpos : 0 < r.serialize.length) (hsize : r.serialize.length < 2 ^ 31) :
    RequestFrame where
  headerBytes := (MsgFactory.createHeader command r.serialize.length).serialize
  body := r.serialize
  header := MsgFactory.createHeader command r.serialize.length
  handler := handler
  request := r
  length_headerBytes := by
    rw [Header.length_serialize]
    exact MsgFactory.byteSizeLong_createHeader command hpos (by omega)
  parse_headerBytes := Header.parseFromArray_serialize _
  length_body := by
    have hlt : r.serialize.length < 2 ^ 64 := by omega
    exact ((UInt64.toNat_ofNat').trans (Nat.mod_eq_of_lt hlt)).symm
  length_body_lt := hsize
  handlerOf_command := hhandler
  parse_body := Request.parseFromArray_serialize hutf hsize
  serves := hserves

/-! ## One turn of the loop -/

section Turn

variable (f : RequestFrame) (bufferMsg : Bytes)

theorem asyncRead_header (rest : Bytes) :
    asyncRead sizeHeader (f.headerBytes ++ rest) = ⟨f.headerBytes, false, rest⟩ := by
  have hlong : ¬ (f.headerBytes ++ rest).length < sizeHeader := by
    rw [List.length_append, f.length_headerBytes]
    omega
  rw [asyncRead, List.take_left' f.length_headerBytes, List.drop_left' f.length_headerBytes,
    decide_eq_false hlong]

/-- After its header, a frame is processed with whatever came of its body. -/
theorem asyncReadPbHeader_header (fuel : Nat) (rest : Bytes) :
    ∃ filled : Bytes,
      filled = rest.take f.body.length ++
        (bufferMsg.take f.body.length ++
          List.replicate (f.body.length - bufferMsg.length) 0).drop
            (rest.take f.body.length).length ∧
      asyncReadPbHeader (fuel + 1) bufferMsg (f.headerBytes ++ rest) =
        ⟨f.handler, (parseBuffer filled).1⟩ ::
          asyncReadPbHeader fuel filled (rest.drop f.body.length) := by
  refine ⟨_, rfl, ?_⟩
  have hsize : f.body.length ≤ maxSize := f.length_body_lt.le.trans (by decide)
  rw [asyncReadPbHeader, asyncRead_header]
  simp only [f.parse_headerBytes, ← f.length_body, resize, if_pos hsize, processMsg,
    f.handlerOf_command]
  rfl

theorem parseBuffer_body : parseBuffer f.body = (f.request, true) := by
  have hint : (Int32.ofNat f.body.length).toInt = f.body.length :=
    Int32.toInt_ofNat_of_lt f.length_body_lt
  have hnat : ¬ ((f.body.length : Int) < 0) := by omega
  rw [parseBuffer]
  simp only [hint, hnat, if_false, Int.toNat_natCast, List.take_length, f.parse_body]

/-- A whole frame posts its task and leaves its body in the buffer. -/
theorem asyncReadPbHeader_frame (fuel : Nat) (rest : Bytes) :
    asyncReadPbHeader (fuel + 1) bufferMsg (f.bytes ++ rest) =
      f.task :: asyncReadPbHeader fuel f.body rest := by
  obtain ⟨filled, hfilled, hloop⟩ :=
    asyncReadPbHeader_header f bufferMsg fuel (f.body ++ rest)
  have hbuffer : filled = f.body := by
    rw [hfilled, List.take_left]
    have hdrop : (bufferMsg.take f.body.length ++
        List.replicate (f.body.length - bufferMsg.length) 0).drop f.body.length = [] := by
      refine List.drop_eq_nil_of_le ?_
      rw [List.length_append, List.length_take, List.length_replicate]
      omega
    rw [hdrop, List.append_nil]
  rw [RequestFrame.bytes, List.append_assoc, hloop, hbuffer, parseBuffer_body, List.drop_left]
  rfl

end Turn

/-! ## Streams of frames -/

/-- Reading whole frames posts their tasks, in order, and goes on with the rest;
the buffer is what the last frame left. -/
theorem asyncReadPbHeader_frames (frames : List RequestFrame) (fuel : Nat)
    (bufferMsg rest : Bytes) :
    asyncReadPbHeader (frames.length + fuel) bufferMsg (frames.flatMap RequestFrame.bytes ++ rest) =
      frames.map RequestFrame.task ++
        asyncReadPbHeader fuel ((frames.getLast?.map RequestFrame.body).getD bufferMsg) rest := by
  induction frames generalizing bufferMsg with
  | nil => simp
  | cons f frames ih =>
      have hfuel : (f :: frames).length + fuel = (frames.length + fuel) + 1 := by
        rw [List.length_cons]
        omega
      have hbuffer : ((f :: frames).getLast?.map RequestFrame.body).getD bufferMsg =
          (frames.getLast?.map RequestFrame.body).getD f.body := by
        cases frames with
        | nil => rfl
        | cons g gs => simp [List.getLast?_cons]
      rw [hfuel, List.flatMap_cons, List.append_assoc, asyncReadPbHeader_frame, ih, hbuffer,
        List.map_cons, List.cons_append]

/-- A stream that ends inside a header posts nothing. -/
theorem asyncReadPbHeader_short {stream : Bytes} (h : stream.length < sizeHeader) (fuel : Nat)
    (bufferMsg : Bytes) : asyncReadPbHeader fuel bufferMsg stream = [] := by
  cases fuel with
  | zero => rfl
  | succ fuel =>
      rw [asyncReadPbHeader]
      simp only [asyncRead, decide_eq_true h, if_true]

/-- A frame cut after its header posts one task all the same. -/
theorem asyncReadPbHeader_cut (f : RequestFrame) {k : Nat}
    (hheader : sizeHeader ≤ k) (fuel : Nat) (bufferMsg : Bytes) :
    ∃ request, asyncReadPbHeader (fuel + 1) bufferMsg (f.bytes.take k) = [⟨f.handler, request⟩] := by
  have hcut : f.bytes.take k = f.headerBytes ++ f.body.take (k - sizeHeader) := by
    rw [RequestFrame.bytes, List.take_append, f.length_headerBytes,
      List.take_of_length_le (by rw [f.length_headerBytes]; exact hheader)]
  obtain ⟨filled, -, hloop⟩ :=
    asyncReadPbHeader_header f bufferMsg fuel (f.body.take (k - sizeHeader))
  have hend : ((f.body.take (k - sizeHeader)).drop f.body.length).length < sizeHeader := by
    rw [List.length_drop, List.length_take]
    have : 0 < sizeHeader := by decide
    omega
  refine ⟨(parseBuffer filled).1, ?_⟩
  rw [hcut, hloop, asyncReadPbHeader_short hend]

theorem length_frames_le (frames : List RequestFrame) :
    frames.length ≤ (frames.flatMap RequestFrame.bytes).length := by
  induction frames with
  | nil => exact le_rfl
  | cons f frames ih =>
      have hpos : 0 < sizeHeader := by decide
      rw [List.flatMap_cons, List.length_append, List.length_cons, f.length_bytes]
      omega

/-- The tasks posted for whole frames and what comes after them. -/
theorem dispatched_frames (frames : List RequestFrame) (bufferMsg rest : Bytes) :
    ∃ (fuel : Nat) (buffer : Bytes),
      dispatched bufferMsg (frames.flatMap RequestFrame.bytes ++ rest) =
        frames.map RequestFrame.task ++ asyncReadPbHeader (fuel + 1) buffer rest := by
  have hle := length_frames_le frames
  obtain ⟨fuel, hfuel⟩ :
      ∃ fuel, (frames.flatMap RequestFrame.bytes ++ rest).length + 1 =
        frames.length + (fuel + 1) := by
    rw [List.length_append]
    exact ⟨(frames.flatMap RequestFrame.bytes).length + rest.length - frames.length, by omega⟩
  exact ⟨fuel, _, by rw [dispatched, hfuel, asyncReadPbHeader_frames]⟩

/-- A header alone, of a frame as long as the one before it: the request before is
still in the buffer and is run again. -/
theorem dispatched_replay (f g : RequestFrame) (hlength : g.body.length = f.body.length)
    (bufferMsg : Bytes) :
    dispatched bufferMsg (f.bytes ++ g.bytes.take sizeHeader) =
      [f.task, ⟨g.handler, f.request⟩] := by
  have hcut : g.bytes.take sizeHeader = g.headerBytes ++ [] := by
    rw [RequestFrame.bytes, List.take_left' g.length_headerBytes, List.append_nil]
  obtain ⟨fuel, hfuel⟩ :
      ∃ fuel, (f.bytes ++ g.bytes.take sizeHeader).length + 1 = (fuel + 1) + 1 := by
    rw [List.length_append, f.length_bytes]
    exact ⟨sizeHeader + f.body.length + (g.bytes.take sizeHeader).length - 1, by
      have : 0 < sizeHeader := by decide
      omega⟩
  obtain ⟨filled, hfilled, hloop⟩ := asyncReadPbHeader_header g f.body fuel []
  have hbuffer : filled = f.body := by
    rw [hfilled, hlength]
    simp
  rw [dispatched, hfuel, asyncReadPbHeader_frame, hcut, hloop, hbuffer, parseBuffer_body,
    asyncReadPbHeader_short (by simp; decide)]

/-- **A stream cut short.**  After whole frames and the first `k` bytes of another,
exactly the whole frames have been dispatched if and only if the cut is inside
the header. -/
theorem dispatched_cut_iff (frames : List RequestFrame) (last : RequestFrame) {k : Nat}
    (hk : k < last.bytes.length) (bufferMsg : Bytes) :
    dispatched bufferMsg (frames.flatMap RequestFrame.bytes ++ last.bytes.take k) =
        frames.map RequestFrame.task ↔
      k < sizeHeader := by
  obtain ⟨fuel, buffer, hdispatched⟩ := dispatched_frames frames bufferMsg (last.bytes.take k)
  rw [hdispatched]
  constructor
  · intro h
    by_contra hheader
    obtain ⟨request, hcut⟩ := asyncReadPbHeader_cut last (not_lt.mp hheader) fuel buffer
    rw [hcut] at h
    exact absurd h (by simp)
  · intro hheader
    have hshort : (last.bytes.take k).length < sizeHeader := by
      rw [List.length_take]
      omega
    rw [asyncReadPbHeader_short hshort, List.append_nil]

/-- A message, then a log in cut inside its body. -/
theorem dispatched_cut_iff_login :
    let first := RequestFrame.ofRequest .echoRequest
      (MsgFactory.createTextRequest (ascii "u") 1 (ascii "hi")) .doTextMsg rfl trivial
      ⟨rfl, rfl⟩ (by decide) (by decide)
    let last := RequestFrame.ofRequest .authorisationRequest
      (MsgFactory.createInputRequest (ascii "u") (ascii "pw")) .doAutorisation rfl trivial
      ⟨rfl, rfl⟩ (by decide) (by decide)
    dispatched [] (first.bytes ++ last.bytes.take 12) = [first.task] := by
  intro first last
  have hshort : 12 < last.bytes.length := by
    rw [last.length_bytes]
    have : sizeHeader = 19 := rfl
    omega
  have h := (dispatched_cut_iff [first] last hshort []).mpr (by decide)
  simpa using h

/-- The message `hi`, then the header of the message `yo`: `hi` is posted twice. -/
theorem not_dispatched_cut_text :
    ¬ ∀ (frames : List RequestFrame) (last : RequestFrame) (k : Nat), k < last.bytes.length →
      dispatched [] (frames.flatMap RequestFrame.bytes ++ last.bytes.take k) =
        frames.map RequestFrame.task := by
  intro h
  let hi := RequestFrame.ofRequest .echoRequest
    (MsgFactory.createTextRequest (ascii "u") 1 (ascii "hi")) .doTextMsg rfl trivial
    ⟨rfl, rfl⟩ (by decide) (by decide)
  let yo := RequestFrame.ofRequest .echoRequest
    (MsgFactory.createTextRequest (ascii "u") 1 (ascii "yo")) .doTextMsg rfl trivial
    ⟨rfl, rfl⟩ (by decide) (by decide)
  have hbody : 0 < yo.body.length := by decide
  have hcut : sizeHeader < yo.bytes.length := by
    rw [yo.length_bytes]
    omega
  have hreplay := dispatched_replay hi yo (by decide) []
  have honce := h [hi] yo sizeHeader hcut
  rw [List.flatMap_singleton, hreplay] at honce
  exact absurd (congrArg List.length honce) (by simp)

end AppChat.Connection
