/-
  `Connection.Segments`: the read loop of a connection, completion by completion.

  `async_read_pb_header`, `do_parse_pb_header` and the completion of the read of a body
  are run as their reads complete, and the reads get what the network brings.  The tasks
  they post are those of `dispatched`, which reads the whole stream at once.
-/
import AppChat.Connection.ReadLoop
import AppChat.Foundation.AsyncRead

set_option autoImplicit false

namespace AppChat.Connection

open Foundation Serialize Protocol

/-! ## The handlers -/

/-- The read a connection waits for; `closed` when it reads no more. -/
inductive SocketRead where
  | header
  | body (newHeader : Header)
  | closed
  deriving DecidableEq, Repr

/-- `buffer_msg`, the pending read, and the tasks posted so far. -/
structure SocketReader where
  bufferMsg : Bytes := []
  pending : SocketRead := .header
  posted : List Task := []
  deriving DecidableEq, Repr

namespace SocketReader

/-- The pending `async_read`: a header, or as many bytes as the header says. -/
def size (r : SocketReader) : Option Nat :=
  match r.pending with
  | .header => some sizeHeader
  | .body newHeader => some newHeader.length.toNat
  | .closed => none

/-- `do_parse_pb_header` without an error.  An exception of `resize` ends the loop. -/
def doParsePbHeader (r : SocketReader) (bufferHeader : Bytes) : SocketReader :=
  let newHeader := Header.parseFromArray bufferHeader
  if newHeader.2 then
    match resize r.bufferMsg newHeader.1.length.toNat with
    | none => { r with pending := .closed }
    | some resized => { r with bufferMsg := resized, pending := .body newHeader.1 }
  else r

/-- The completion handler of the read of a body, which does not look at the error.  The
bytes that have come are in the buffer, over what was there. -/
def bodyRead (r : SocketReader) (newHeader : Header) (data : Bytes) : SocketReader :=
  let bufferMsg := data ++ r.bufferMsg.drop data.length
  { bufferMsg := bufferMsg
    pending := .header
    posted := r.posted ++ processMsg newHeader bufferMsg }

/-- A read has got all the bytes it asked for. -/
def full (r : SocketReader) (data : Bytes) : SocketReader :=
  match r.pending with
  | .header => r.doParsePbHeader data
  | .body newHeader => r.bodyRead newHeader data
  | .closed => r

/-- The end of the stream.  In a header it frees the connection. -/
def failed (r : SocketReader) (data : Bytes) : SocketReader :=
  match r.pending with
  | .header => { r with pending := .closed }
  | .body newHeader => r.bodyRead newHeader data
  | .closed => r

/-- The loop as a program that reads. -/
def program : ReadProgram SocketReader UInt8 := ⟨size, full, failed⟩

/-! ## The tasks to come -/

/-- What is left to post when `stream` is all that comes. -/
def remaining (r : SocketReader) (stream : Bytes) : List Task :=
  match r.pending with
  | .header => dispatched r.bufferMsg stream
  | .body newHeader =>
      let data := stream.take newHeader.length.toNat
      let bufferMsg := data ++ r.bufferMsg.drop data.length
      processMsg newHeader bufferMsg ++ dispatched bufferMsg (stream.drop newHeader.length.toNat)
  | .closed => []

/-- A turn of the loop on a whole header, by what `do_parse_pb_header` makes of it. -/
theorem asyncReadPbHeader_long {stream : Bytes} (hlong : sizeHeader ≤ stream.length) (fuel : Nat)
    (bufferMsg : Bytes) :
    asyncReadPbHeader (fuel + 1) bufferMsg stream =
      let newHeader := Header.parseFromArray (stream.take sizeHeader)
      let rest := stream.drop sizeHeader
      if newHeader.2 then
        (resize bufferMsg newHeader.1.length.toNat).elim [] fun resized =>
          let data := rest.take newHeader.1.length.toNat
          let bufferMsg := data ++ resized.drop data.length
          processMsg newHeader.1 bufferMsg ++
            asyncReadPbHeader fuel bufferMsg (rest.drop newHeader.1.length.toNat)
      else asyncReadPbHeader fuel bufferMsg rest := by
  have hread : asyncRead sizeHeader stream =
      ⟨stream.take sizeHeader, false, stream.drop sizeHeader⟩ := by
    rw [asyncRead, decide_eq_false (Nat.not_lt.mpr hlong)]
  rw [asyncReadPbHeader, hread]
  cases hresize : resize bufferMsg (Header.parseFromArray (stream.take sizeHeader)).1.length.toNat with
  | none => simp [hresize]
  | some resized => simp [hresize, asyncRead]

/-- More turns than bytes make no difference. -/
theorem asyncReadPbHeader_fuel {fuel fuel' : Nat} {bufferMsg stream : Bytes}
    (h : stream.length < fuel) (h' : stream.length < fuel') :
    asyncReadPbHeader fuel bufferMsg stream = asyncReadPbHeader fuel' bufferMsg stream := by
  induction fuel generalizing fuel' bufferMsg stream with
  | zero => omega
  | succ fuel ih =>
      obtain ⟨fuel', rfl⟩ : ∃ k, fuel' = k + 1 := ⟨fuel' - 1, by omega⟩
      rcases Nat.lt_or_ge stream.length sizeHeader with hshort | hlong
      · rw [asyncReadPbHeader_short hshort, asyncReadPbHeader_short hshort]
      · have hpos : 0 < sizeHeader := by decide
        have hrest : (stream.drop sizeHeader).length < stream.length := by
          rw [List.length_drop]
          omega
        -- every turn goes on with a part of what follows the header
        have hturn : ∀ buffer n, asyncReadPbHeader fuel buffer ((stream.drop sizeHeader).drop n) =
            asyncReadPbHeader fuel' buffer ((stream.drop sizeHeader).drop n) := by
          intro buffer n
          have hle := List.length_drop (i := n) (l := stream.drop sizeHeader)
          exact ih (by omega) (by omega)
        have hheader := hturn bufferMsg 0
        rw [List.drop_zero] at hheader
        rw [asyncReadPbHeader_long hlong, asyncReadPbHeader_long hlong]
        simp only [hturn, hheader]

theorem dispatched_short {bufferMsg stream : Bytes} (h : stream.length < sizeHeader) :
    dispatched bufferMsg stream = [] :=
  asyncReadPbHeader_short h _ _

/-- A header that is there is parsed, and the rest is as the handler leaves it. -/
theorem remaining_doParsePbHeader {r : SocketReader} (hpending : r.pending = .header)
    {stream : Bytes} (hlong : sizeHeader ≤ stream.length) :
    (r.doParsePbHeader (stream.take sizeHeader)).posted = r.posted ∧
      (r.doParsePbHeader (stream.take sizeHeader)).remaining (stream.drop sizeHeader) =
        dispatched r.bufferMsg stream := by
  have hpos : 0 < sizeHeader := by decide
  have hfuel : ∀ buffer n, dispatched buffer ((stream.drop sizeHeader).drop n) =
      asyncReadPbHeader stream.length buffer ((stream.drop sizeHeader).drop n) := by
    intro buffer n
    refine asyncReadPbHeader_fuel (Nat.lt_succ_self _) ?_
    rw [List.length_drop, List.length_drop]
    omega
  rw [dispatched, asyncReadPbHeader_long hlong]
  by_cases hparsed : (Header.parseFromArray (stream.take sizeHeader)).2 = true
  · cases hresize : resize r.bufferMsg
        (Header.parseFromArray (stream.take sizeHeader)).1.length.toNat with
    | none =>
        simp only [doParsePbHeader, hparsed, if_true, hresize, remaining, Option.elim_none,
          and_self]
    | some resized =>
        simp only [doParsePbHeader, hparsed, if_true, hresize, remaining, Option.elim_some, hfuel,
          and_self]
  · have hheader := hfuel r.bufferMsg 0
    rw [List.drop_zero] at hheader
    simp only [doParsePbHeader, hparsed, Bool.false_eq_true, if_false, remaining, hpending, hheader,
      and_self]

theorem remaining_full {r : SocketReader} {n : Nat} (hsize : r.size = some n) {stream : Bytes}
    (hlong : n ≤ stream.length) :
    (r.full (stream.take n)).posted ++ (r.full (stream.take n)).remaining (stream.drop n) =
      r.posted ++ r.remaining stream := by
  cases hpending : r.pending with
  | header =>
      simp only [size, hpending, Option.some.injEq] at hsize
      subst hsize
      obtain ⟨hposted, hremaining⟩ := remaining_doParsePbHeader hpending hlong
      simp only [full, hpending, hposted, hremaining]
      rw [remaining, hpending]
  | body newHeader =>
      simp only [size, hpending, Option.some.injEq] at hsize
      subst hsize
      simp only [full, hpending, bodyRead, remaining, List.append_assoc]
  | closed =>
      simp only [size, hpending] at hsize
      cases hsize

theorem remaining_failed {r : SocketReader} {n : Nat} (hsize : r.size = some n) {stream : Bytes}
    (hshort : stream.length < n) :
    (r.failed stream).posted ++ (r.failed stream).remaining [] = r.posted ++ r.remaining stream := by
  cases hpending : r.pending with
  | header =>
      simp only [size, hpending, Option.some.injEq] at hsize
      subst hsize
      simp only [failed, remaining, hpending, dispatched_short hshort]
  | body newHeader =>
      simp only [size, hpending, Option.some.injEq] at hsize
      subst hsize
      simp only [failed, hpending, bodyRead, remaining, List.append_assoc,
        List.take_of_length_le hshort.le, List.drop_eq_nil_of_le hshort.le]
  | closed =>
      simp only [size, hpending] at hsize
      cases hsize

/-- When the stream has ended everything is posted. -/
theorem posted_of_reads {r r' : SocketReader} {stream rest : Bytes}
    (h : program.Reads true r stream r' rest) : r'.posted = r.posted ++ r.remaining stream := by
  induction h with
  | @stopped r stream hstopped =>
      have hclosed : r.pending = .closed := by
        have hsize : r.size = none := hstopped
        cases hpending : r.pending with
        | closed => rfl
        | _ =>
            simp only [size, hpending] at hsize
            cases hsize
      simp only [remaining, hclosed, List.append_nil]
  | wait _ _ hended => cases hended
  | full hsize hlong _ ih => exact ih.trans (remaining_full hsize hlong)
  | short hsize hshort _ _ ih => exact ih.trans (remaining_failed hsize hshort)

/-! ## Every run -/

/-- A connection that begins to read. -/
def start : Reading SocketReader UInt8 := { state := {} }

/-- **Segments and the whole stream.**  However the bytes come, once the stream has ended
and has been read to its end the tasks posted are those of the stream read at once. -/
theorem posted_eq_dispatched {es : List (StreamEvent UInt8)} {r : Reading SocketReader UInt8}
    (h : Run (Reading.Step program) start es r) (hrest : r.AtRest program) (hended : r.ended = true) :
    r.state.posted = dispatched [] (StreamEvent.segments es) := by
  have hreads := Reading.reads_of_run h hrest
  rw [hended] at hreads
  exact posted_of_reads hreads

/-- The message `hi`, cut inside its body, and the header of a second one. -/
theorem posted_eq_dispatched_cut :
    let f := RequestFrame.ofRequest .echoRequest
      (MsgFactory.createTextRequest (ascii "u") 1 (ascii "hi")) .doTextMsg rfl trivial
      ⟨rfl, rfl⟩ (by decide) (by decide)
    let es : List (StreamEvent UInt8) :=
      [.segment (f.bytes.take 25), .take 19, .complete, .take 6,
        .segment (f.bytes.drop 25 ++ f.headerBytes), .take 5, .complete, .take 19, .complete,
        .endOfStream, .fail, .fail]
    ∃ r, Run (Reading.Step program) start es r ∧ r.state.posted = [f.task, f.task] ∧
      r.state.posted = dispatched [] (StreamEvent.segments es) := by
  intro f es
  have hend : (es.foldlM (Reading.apply program) start).map
      (fun r => (r.state.pending, r.ended, r.state.posted)) =
        some (.closed, true, [f.task, f.task]) := by
    decide +kernel
  obtain ⟨r, hr, hstate⟩ := Option.map_eq_some_iff.mp hend
  simp only [Prod.mk.injEq] at hstate
  obtain ⟨hclosed, hended, hposted⟩ := hstate
  have hrun : Run (Reading.Step program) start es r := Run.iff_foldlM.mpr hr
  have hrest : r.AtRest program := by
    left
    show r.state.size = none
    rw [size, hclosed]
  exact ⟨r, hrun, hposted, posted_eq_dispatched hrun hrest hended⟩

/-- A frame is read in two turns. -/
theorem reads_frame {ended : Bool} (f : RequestFrame) (bufferMsg : Bytes) (posted : List Task)
    {stream rest : Bytes} {r' : SocketReader}
    (h : program.Reads ended ⟨f.body, .header, posted ++ [f.task]⟩ stream r' rest) :
    program.Reads ended ⟨bufferMsg, .header, posted⟩ (f.bytes ++ stream) r' rest := by
  have hheader : sizeHeader ≤ (f.bytes ++ stream).length := by
    rw [List.length_append, f.length_bytes]
    omega
  have htake : (f.bytes ++ stream).take sizeHeader = f.headerBytes := by
    rw [RequestFrame.bytes, List.append_assoc, List.take_left' f.length_headerBytes]
  have hdrop : (f.bytes ++ stream).drop sizeHeader = f.body ++ stream := by
    rw [RequestFrame.bytes, List.append_assoc, List.drop_left' f.length_headerBytes]
  have hmax : f.body.length ≤ maxSize := f.length_body_lt.le.trans (by decide)
  have hparsed : (⟨bufferMsg, .header, posted⟩ : SocketReader).doParsePbHeader f.headerBytes =
      ⟨bufferMsg.take f.body.length ++ List.replicate (f.body.length - bufferMsg.length) 0,
        .body f.header, posted⟩ := by
    simp only [doParsePbHeader, f.parse_headerBytes, if_true, resize, ← f.length_body, if_pos hmax]
  have hbody : f.header.length.toNat ≤ (f.body ++ stream).length := by
    rw [List.length_append, f.length_body]
    omega
  refine .full rfl hheader ?_
  rw [htake, hdrop]
  show program.Reads ended ((⟨bufferMsg, .header, posted⟩ : SocketReader).doParsePbHeader _) _ _ _
  rw [hparsed]
  refine .full rfl hbody ?_
  rw [List.take_left' f.length_body, List.drop_left' f.length_body]
  -- the body fills the buffer
  have hfull : f.body ++ (bufferMsg.take f.body.length ++
      List.replicate (f.body.length - bufferMsg.length) 0).drop f.body.length = f.body := by
    rw [List.drop_eq_nil_of_le, List.append_nil]
    rw [List.length_append, List.length_take, List.length_replicate]
    omega
  show program.Reads ended (bodyRead _ f.header f.body) stream r' rest
  simp only [bodyRead, hfull, processMsg, f.handlerOf_command, parseBuffer_body]
  exact h

theorem reads_frames (frames : List RequestFrame) (bufferMsg : Bytes) (posted : List Task) :
    ∃ bufferMsg', program.Reads false ⟨bufferMsg, .header, posted⟩
      (frames.flatMap RequestFrame.bytes)
      ⟨bufferMsg', .header, posted ++ frames.map RequestFrame.task⟩ [] := by
  induction frames generalizing bufferMsg posted with
  | nil =>
      refine ⟨bufferMsg, ?_⟩
      rw [List.map_nil, List.append_nil]
      exact .wait rfl (by decide) rfl
  | cons f frames ih =>
      obtain ⟨bufferMsg', hreads⟩ := ih f.body (posted ++ [f.task])
      rw [List.append_assoc] at hreads
      exact ⟨bufferMsg', reads_frame f bufferMsg posted hreads⟩

/-- **No request is held back.**  However whole frames come, when there is nothing more to
read all their tasks have been posted, in order and once, and the connection waits for a
header. -/
theorem posted_eq_tasks {frames : List RequestFrame} {es : List (StreamEvent UInt8)}
    {r : Reading SocketReader UInt8} (h : Run (Reading.Step program) start es r)
    (hrest : r.AtRest program) (hopen : r.ended = false)
    (hframes : StreamEvent.segments es = frames.flatMap RequestFrame.bytes) :
    r.state.posted = frames.map RequestFrame.task ∧ r.state.pending = .header ∧ r.got = [] := by
  have hreads := Reading.reads_of_run h hrest
  rw [hopen, hframes] at hreads
  obtain ⟨bufferMsg, hall⟩ := reads_frames frames [] []
  obtain ⟨hstate, hleft⟩ := hreads.deterministic hall
  refine ⟨?_, ?_, (List.append_eq_nil_iff.mp hleft).1⟩
  · rw [hstate]
    rfl
  · rw [hstate]

/-- The message `hi` in three segments. -/
theorem posted_eq_tasks_segments :
    let f := RequestFrame.ofRequest .echoRequest
      (MsgFactory.createTextRequest (ascii "u") 1 (ascii "hi")) .doTextMsg rfl trivial
      ⟨rfl, rfl⟩ (by decide) (by decide)
    let es : List (StreamEvent UInt8) :=
      [.segment (f.bytes.take 7), .take 7, .segment ((f.bytes.drop 7).take 14), .take 12, .complete,
        .take 2, .segment (f.bytes.drop 21), .take 9, .complete]
    ∃ r, Run (Reading.Step program) start es r ∧ r.state.posted = [f.task] := by
  intro f es
  have hend : (es.foldlM (Reading.apply program) start).map
      (fun r => (r.state.pending, r.got, r.available, r.ended)) =
        some (.header, [], [], false) := by
    decide +kernel
  obtain ⟨r, hr, hstate⟩ := Option.map_eq_some_iff.mp hend
  simp only [Prod.mk.injEq] at hstate
  obtain ⟨hpending, hgot, havailable, hopen⟩ := hstate
  have hrun : Run (Reading.Step program) start es r := Run.iff_foldlM.mpr hr
  have hrest : r.AtRest program := by
    refine Or.inr ⟨sizeHeader, ?_, ?_, havailable, hopen⟩
    · show r.state.size = _
      rw [size, hpending]
    · rw [hgot]
      decide
  have hframes : StreamEvent.segments es = [f].flatMap RequestFrame.bytes := by decide +kernel
  exact ⟨r, hrun, (posted_eq_tasks hrun hrest hopen hframes).1⟩

end SocketReader

end AppChat.Connection
