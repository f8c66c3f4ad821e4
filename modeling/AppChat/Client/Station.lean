/-
  `Client.Station`: a client with its windows and its socket, from `client/client/` and
  `client/control/`.

  The log in request is written first, by `send_login_request`; nothing is read and no
  window but the first is shown before it has been sent.  After that the requests of the
  windows go through `msg_to_server`, and the responses are read as they come.
-/
import AppChat.Client.Segments
import AppChat.Client.Windows
import AppChat.Foundation.FrameReader
import AppChat.Foundation.WriteStream

set_option autoImplicit false

namespace AppChat

open Foundation Serialize Protocol

/-! ## The windows read frames -/

namespace Client

/-- A response whose frame the client can read, whatever it does then. -/
def Readable : FactoryMessage → Prop
  | .textResponse login roomId text =>
      (MsgFactory.createTextResponse login roomId text).Utf8 ∧
        (FactoryMessage.textResponse login roomId text).body.length < 2 ^ 31
  | .inputResponse _ | .regResponse _ | .joinRoomResponse _ _ => True
  | _ => False

theorem bodyHandler_header (m : FactoryMessage) :
    ReadState.bodyHandler m.header.command =
      match m.command with
      | .autorisationResponse => some .doReadInputResponse
      | .registrationResponse => some .doReadRegResponse
      | .echoResponse => some .doReadEchoResponse
      | .joinRoomResponse => some .doReadJoinRoomResponse
      | _ => none := by
  rw [ReadState.bodyHandler, FactoryMessage.cast_header]
  cases m <;> rfl

/-- A readable response is short enough, has a handler, and the handler emits the lines of
the response. -/
theorem Readable.reads {m : FactoryMessage} (h : Readable m) :
    m.body.length < 2 ^ 31 ∧ ∃ handler, ReadState.bodyHandler m.header.command = some handler ∧
      ∀ room, ofRoom room (sentTexts (ReadState.bodySignals handler m.body)) = linesOf room m := by
  have hquiet : ∀ {handler : BodyHandler}, handler ≠ .doReadEchoResponse → ∀ room b,
      ofRoom room (sentTexts (ReadState.bodySignals handler b)) = [] := by
    intro handler hne room b
    cases handler with
    | doReadEchoResponse => exact absurd rfl hne
    | _ =>
        rw [ReadState.bodySignals, ReadState.sentTexts_responseSignals rfl rfl]
        rfl
  cases m with
  | textResponse login roomId text =>
      obtain ⟨hutf, hsize⟩ := h
      refine ⟨hsize, .doReadEchoResponse, bodyHandler_header _, ?_⟩
      intro room
      have hparse : parseBuffer (FactoryMessage.textResponse login roomId text).body =
          (MsgFactory.createTextResponse login roomId text, true) :=
        @parseBuffer_serialize (MsgFactory.createTextResponse login roomId text) hutf hsize
      simp only [ReadState.bodySignals, hparse]
      exact ofRoom_singleton room ⟨login, text, roomId⟩
  | inputResponse clientId =>
      have hsize : (FactoryMessage.inputResponse clientId).body.length < 2 ^ 31 :=
        @length_body_lt (MsgFactory.createInputResponse clientId) (by simp [MsgFactory.createInputResponse])
      exact ⟨hsize, .doReadInputResponse, bodyHandler_header _,
        fun room => @hquiet .doReadInputResponse (by decide) room _⟩
  | regResponse clientId =>
      have hsize : (FactoryMessage.regResponse clientId).body.length < 2 ^ 31 :=
        @length_body_lt (MsgFactory.createRegResponse clientId) (by simp [MsgFactory.createRegResponse])
      exact ⟨hsize, .doReadRegResponse, bodyHandler_header _,
        fun room => @hquiet .doReadRegResponse (by decide) room _⟩
  | joinRoomResponse roomId flag =>
      have hsize : (FactoryMessage.joinRoomResponse roomId flag).body.length < 2 ^ 31 :=
        @length_body_lt (MsgFactory.createJoinRoomResponse roomId flag)
          (by simp [MsgFactory.createJoinRoomResponse])
      exact ⟨hsize, .doReadJoinRoomResponse, bodyHandler_header _,
        fun room => @hquiet .doReadJoinRoomResponse (by decide) room _⟩
  | _ => exact h.elim

end Client

namespace ReadState

/-- A body handler asks for the next header or for nothing. -/
theorem pending_runBody {st : ReadState} (h : st.pending = []) (handler : BodyHandler) :
    (runBody handler st false).pending = [] ∨ (runBody handler st false).pending = [.header] := by
  have hheader : ∀ {st' : ReadState}, st'.pending = [] → st'.asyncReadPbHeader.pending = [.header] := by
    intro st' h'
    rw [asyncReadPbHeader, h']
    rfl
  have hresponse : ∀ member, (readResponse member st false).pending = [] ∨
      (readResponse member st false).pending = [.header] := by
    intro member
    simp only [readResponse, Bool.false_eq_true, if_false]
    split
    · split
      · exact Or.inl h
      · split
        · exact Or.inr (hheader h)
        · exact Or.inl h
    · exact Or.inl h
  cases handler with
  | doReadEchoResponse => exact Or.inr (hheader h)
  | _ => exact hresponse _

end ReadState

namespace Windows

/-- The state after the completion of a read.  When the process ends nothing is read any
more. -/
def completed (w : Windows) (e : ReadEvent) : Windows :=
  (w.apply (.read e)).getD { w with reader := { w.reader with pending := [] } }

/-- The windows read the stream as their client does. -/
def program : ReadProgram Windows UInt8 where
  size w := w.reader.size
  full w data := w.completed (.bytes data)
  failed w _ := w.completed .failed

theorem reader_completed (w : Windows) (e : ReadEvent) :
    (w.completed e).reader = w.reader.completed e := by
  simp only [completed, apply, ReadState.completed]
  cases w.reader.complete e with
  | none => rfl
  | some reader => rfl

/-- The rooms have the lines of the responses `done`. -/
def Holds (done : List {m : FactoryMessage // Client.Readable m}) (w : Windows) : Prop :=
  ∀ room, w.reader.client.lines room = done.flatMap fun m => Client.linesOf room m.1

variable {w w' : Windows} {done : List {m : FactoryMessage // Client.Readable m}}

theorem full_header {m : FactoryMessage} (hm : Client.Readable m)
    (hpending : w.reader.pending = [.header]) (hholds : w.Holds done) :
    ∃ handler, ReadState.bodyHandler m.header.command = some handler ∧
      (w.completed (.bytes m.header.serialize)).reader.pending = [.body handler] ∧
      (w.completed (.bytes m.header.serialize)).reader.readBuffer.length = m.body.length ∧
      (w.completed (.bytes m.header.serialize)).Holds done := by
  obtain ⟨hsize, handler, hhandler, -⟩ := hm.reads
  obtain ⟨reader, rest⟩ := w
  obtain ⟨c, buffer, pending⟩ := reader
  simp only at hpending
  subst hpending
  obtain ⟨resized, hlength, hheader⟩ := @ReadState.completed_header c buffer m handler hhandler hsize
  simp only [Holds, reader_completed, hheader]
  exact ⟨handler, hhandler, rfl, hlength, hholds⟩

theorem full_body {m : {m : FactoryMessage // Client.Readable m}} {handler : BodyHandler}
    (hhandler : ReadState.bodyHandler m.1.header.command = some handler)
    (hpending : w.reader.pending = [.body handler])
    (hlength : w.reader.readBuffer.length = m.1.body.length) (hholds : w.Holds done) :
    ((w.completed (.bytes m.1.body)).reader.pending = [.header] ∨
        (w.completed (.bytes m.1.body)).reader.pending = []) ∧
      (w.completed (.bytes m.1.body)).Holds (done ++ [m]) := by
  obtain ⟨-, handler', hhandler', hsignals⟩ := m.2.reads
  obtain rfl := Option.some.inj (hhandler'.symm.trans hhandler)
  obtain ⟨reader, rest⟩ := w
  obtain ⟨c, buffer, pending⟩ := reader
  simp only at hpending hlength
  subst hpending
  have hrun : (⟨c, buffer, [.body handler']⟩ : ReadState).complete (.bytes m.1.body) =
      some (ReadState.runBody handler' ⟨c, m.1.body, []⟩ false) := by
    simp only [ReadState.complete, hlength, if_true]
  have hcompleted : (⟨c, buffer, [.body handler']⟩ : ReadState).completed (.bytes m.1.body) =
      ReadState.runBody handler' ⟨c, m.1.body, []⟩ false := by
    rw [ReadState.completed, hrun]
    rfl
  simp only [Holds, reader_completed, hcompleted]
  refine ⟨(@ReadState.pending_runBody ⟨c, m.1.body, []⟩ rfl handler').symm, ?_⟩
  intro room
  rw [ReadState.lines_complete hrun, List.flatMap_append, List.flatMap_singleton,
    show c.lines room = _ from hholds room]
  exact congrArg _ (hsignals room)

/-- A failed read closes the connection. -/
theorem failed (h : w.reader.pending.length = 1) (hholds : w.Holds done) :
    (w.completed .failed).reader.pending = [] ∧ (w.completed .failed).Holds done := by
  obtain ⟨reader, rest⟩ := w
  obtain ⟨c, buffer, pending⟩ := reader
  obtain ⟨read, rfl⟩ := List.length_eq_one_iff.mp h
  have hclosed : (⟨c, buffer, [read]⟩ : ReadState).completed .failed =
      ⟨c.closeConnection, buffer, []⟩ := by
    cases read with
    | header => rfl
    | body handler => cases handler <;> rfl
  simp only [Holds, reader_completed, hclosed]
  exact ⟨trivial, hholds⟩

/-- The client reads the frames of readable responses. -/
def frames : FrameReader program {m : FactoryMessage // Client.Readable m} where
  header m := m.1.header.serialize
  body m := m.1.body
  headerSize := sizeHeader
  headerSize_pos := by decide
  length_header m := m.1.length_header m.2.reads.1
  Idle done w := w.reader.pending = [.header] ∧ w.Holds done
  Within done m w := ∃ handler, ReadState.bodyHandler m.1.header.command = some handler ∧
    w.reader.pending = [.body handler] ∧ w.reader.readBuffer.length = m.1.body.length ∧ w.Holds done
  Stopped done w := w.reader.pending = [] ∧ w.Holds done
  size_idle := by
    rintro done w ⟨hpending, -⟩
    show w.reader.size = _
    rw [ReadState.size, hpending]
  size_within := by
    rintro done m w ⟨handler, -, hpending, hlength, -⟩
    show w.reader.size = _
    rw [ReadState.size, hpending, hlength]
  size_stopped := by
    rintro done w ⟨hpending, -⟩
    show w.reader.size = _
    rw [ReadState.size, hpending]
  full_header := by
    rintro done w m ⟨hpending, hholds⟩
    exact full_header m.2 hpending hholds
  full_body := by
    rintro done m w ⟨handler, hhandler, hpending, hlength, hholds⟩
    obtain ⟨hnext | hnone, hholds'⟩ := full_body hhandler hpending hlength hholds
    · exact Or.inl ⟨hnext, hholds'⟩
    · exact Or.inr ⟨hnone, hholds'⟩
  failed_idle := by
    rintro done w data ⟨hpending, hholds⟩
    exact failed (by rw [hpending]; rfl) hholds

theorem stream_frames (ms : List {m : FactoryMessage // Client.Readable m}) :
    frames.stream ms = (ms.map fun m => m.1.frame).flatten := by
  rw [FrameReader.stream, List.flatMap_def]
  refine congrArg List.flatten (List.map_congr_left fun m _ => ?_)
  exact (m.1.frame_eq m.2.reads.1).symm

/-- What the windows do by themselves does not touch the reads. -/
structure SameReading (w w' : Windows) : Prop where
  pending : w'.reader.pending = w.reader.pending
  readBuffer : w'.reader.readBuffer = w.reader.readBuffer
  lines : ∀ room, w'.reader.client.lines room = w.reader.client.lines room

theorem SameReading.refl (w : Windows) : SameReading w w := ⟨rfl, rfl, fun _ => rfl⟩

theorem sameReading_of_step {e : WindowEvent} (h : Step w e w') (he : ∀ e', e ≠ .read e') :
    SameReading w w' := by
  cases effect_of_step h with
  | read _ => exact absurd rfl (he _)
  | @handle signal rest hposted =>
      cases signal with
      | sendText msg =>
          simp only [slot, printText]
          split
          · exact ⟨rfl, rfl, fun _ => rfl⟩
          · exact ⟨rfl, rfl, fun _ => rfl⟩
      | sendInputCode code =>
          simp only [slot, changeWindow]
          split
          · exact ⟨rfl, rfl, fun _ => rfl⟩
          · exact ⟨rfl, rfl, fun _ => rfl⟩
      | sigUpdateChannels => exact ⟨rfl, rfl, fun _ => rfl⟩
  | @opened row room hshown hroom =>
      obtain ⟨text, heq⟩ := w.exists_goChannel room
      rw [heq]
      exact ⟨rfl, rfl, fun r => Client.lines_tryEmplace ..⟩
  | back _ => exact ⟨rfl, rfl, fun _ => rfl⟩
  | request _ _ _ _ => exact ⟨rfl, rfl, fun _ => rfl⟩
  | failed => exact ⟨rfl, rfl, fun _ => rfl⟩

theorem SameReading.tracks {r : Receiver Windows UInt8} (h : SameReading r.state w')
    {todo : List {m : FactoryMessage // Client.Readable m}} (ht : frames.Tracks todo done r) :
    frames.Tracks todo done { r with state := w' } := by
  have hholds : r.state.Holds done → w'.Holds done := fun hr room => (h.lines room).trans (hr room)
  refine ht.congr ?_ ?_ ?_
  · rintro ⟨hpending, hr⟩
    exact ⟨h.pending.trans hpending, hholds hr⟩
  · rintro m ⟨handler, hhandler, hpending, hlength, hr⟩
    refine ⟨handler, hhandler, h.pending.trans hpending, ?_, hholds hr⟩
    rw [h.readBuffer]
    exact hlength
  · rintro ⟨hpending, hr⟩
    exact ⟨h.pending.trans hpending, hholds hr⟩

end Windows

/-! ## The client with its socket -/

/-- Whose completion handler runs when a write is done. -/
inductive ClientWriter where
  | sendLoginRequest
  | startSendMsgs
  deriving DecidableEq, Repr

/-- The login a request goes out under. -/
def Protocol.FactoryMessage.author : FactoryMessage → Option Bytes
  | .inputRequest login _ | .regRequest login _ | .textRequest login _ _ => some login
  | _ => none

/-- What `connect_to_server` is called with. -/
inductive LogIn where
  | autorisation (login password : Bytes)
  | registration (login password : Bytes)
  deriving DecidableEq, Repr

namespace LogIn

/-- The login of the user. -/
def login : LogIn → Bytes
  | autorisation login _ | registration login _ => login

/-- The request `connect_to_server` builds. -/
def request : LogIn → FactoryMessage
  | autorisation login password => .inputRequest login password
  | registration login password => .regRequest login password

theorem author_request (logIn : LogIn) : logIn.request.author = some logIn.login := by
  cases logIn with
  | autorisation _ _ => rfl
  | registration _ _ => rfl

end LogIn

/-- The windows and what has come for them, the socket, and the requests made so far. -/
structure Station where
  windows : Receiver Windows UInt8
  uplink : WriteStream ClientWriter UInt8
  asked : List FactoryMessage

/-- Something happens in the windows, to the read or to the write number `i`. -/
inductive StationEvent where
  | windows (e : WindowEvent)
  | read (e : Receipt)
  | transmit (i n : Nat)
  | written (i : Nat)
  | writeFailed (i : Nat)
  deriving DecidableEq, Repr

/-- The reads and writes happen on the socket. -/
def WindowEvent.ofSocket : WindowEvent → Bool
  | .read _ | .written _ => true
  | _ => false

/-- The request a click makes. -/
def Windows.request (w : Windows) : WindowEvent → Option FactoryMessage
  | .addChannel roomId => if w.channelsShown then some (.joinRoomRequest roomId) else none
  | .send message =>
      if w.chatShown then some (.textRequest w.reader.client.login w.currentRoom message) else none
  | _ => none

/-- The windows before the log in request has been sent. -/
def Windows.connecting (clientId : Identifier) (login : Bytes) : Windows where
  reader := { client := { clientId := clientId, login := login } }

namespace Station

/-- `connect_to_server`, when the connection is there.  The buffer of `send_login_request`
belongs to a handler that has returned; the write is taken to send what it held. -/
def start (clientId : Identifier) (logIn : LogIn) : Station where
  windows := { state := .connecting clientId logIn.login }
  uplink := ({} : WriteStream ClientWriter UInt8).start .sendLoginRequest logIn.request.frame
  asked := [logIn.request]

/-- The windows change; the writes `msg_to_server` has started are started on the socket. -/
def become (st : Station) (w : Windows) : Station where
  windows := { st.windows with state := w }
  uplink :=
    (w.msgToServer.started.drop st.windows.state.msgToServer.started.length).foldl
      (fun uplink buffer => uplink.start .startSendMsgs buffer) st.uplink
  asked := st.asked

/-- The reader of the client changes. -/
def setReader (st : Station) (reader : ReadState) : Station :=
  { st with windows := { st.windows with state := { st.windows.state with reader := reader } } }

/-- One event, when the server has sent `sent`; `none` when it cannot happen or ends the
process.  What comes before the first read is started waits on the line. -/
def apply (sent : Bytes) (st : Station) : StationEvent → Option Station
  | .windows e =>
      if e.ofSocket then none
      else
        (st.windows.state.apply e).map fun w =>
          { st.become w with asked := st.asked ++ (st.windows.state.request e).toList }
  | .read e =>
      if ∀ p ∈ st.uplink.pending, p.owner ≠ .sendLoginRequest then
        (st.windows.apply Windows.program sent e).map fun windows => { st with windows := windows }
      else none
  | .transmit i n =>
      if st.windows.state.reader.client.socketOpen then
        (st.uplink.transmit i n).map fun uplink => { st with uplink := uplink }
      else none
  | .written i =>
      match st.uplink.finish i with
      | none => none
      | some (.sendLoginRequest, uplink) =>
          some ({ st with uplink := uplink }.setReader st.windows.state.reader.asyncReadPbHeader)
      | some (.startSendMsgs, uplink) =>
          (st.windows.state.apply (.written false)).map { st with uplink := uplink }.become
  | .writeFailed i =>
      match st.uplink.pending[i]?, st.uplink.abort i with
      | some ⟨.sendLoginRequest, _⟩, some uplink =>
          some ({ st with uplink := uplink }.setReader st.windows.state.reader.closeConnection)
      | some ⟨.startSendMsgs, _⟩, some uplink =>
          (st.windows.state.apply (.written true)).map { st with uplink := uplink }.become
      | _, _ => none

/-! ## What a client keeps -/

/-- The queue after the requests `added`: it flows, or a write has failed and the socket is
closed. -/
inductive Queued (socketOpen : Bool) (added : List Bytes) (q : WriteQueue Bytes) : Prop where
  | flows {k : Nat} : WriteQueue.Flows added k q → Queued socketOpen added q
  | stuck : WriteQueue.Stuck q.started q → q.started <+: added → socketOpen = false →
      Queued socketOpen added q

/-- Before the log in request has been sent nothing has happened; after that the writes are
those of `msg_to_server`. -/
inductive Phase (clientId : Identifier) (logIn : LogIn) (st : Station) : Prop where
  | connecting {rest : Bytes} :
      st.windows = { state := .connecting clientId logIn.login } →
      st.uplink.pending = [⟨.sendLoginRequest, rest⟩] →
      st.uplink.started = [logIn.request.frame] → st.asked = [logIn.request] →
      Phase clientId logIn st
  | session {more : List FactoryMessage} :
      st.asked = logIn.request :: more →
      st.uplink.started = logIn.request.frame :: st.windows.state.msgToServer.started →
      st.uplink.pending.map (·.owner) =
        st.windows.state.msgToServer.inFlight.map (fun _ => .startSendMsgs) →
      Queued st.windows.state.reader.client.socketOpen (more.map FactoryMessage.frame)
        st.windows.state.msgToServer →
      Phase clientId logIn st

/-- What a client keeps when the server has sent the frames of `todo`. -/
structure Keeps (clientId : Identifier) (logIn : LogIn)
    (todo : List {m : FactoryMessage // Client.Readable m}) (st : Station) : Prop where
  phase : Phase clientId logIn st
  cut : st.uplink.Cut
  whole : st.windows.state.reader.client.socketOpen = true → st.uplink.Whole
  login : st.windows.state.reader.client.login = logIn.login
  authors : ∀ m ∈ st.asked, ∀ login ∈ m.author, login = logIn.login
  reads : (∀ p ∈ st.uplink.pending, p.owner ≠ .sendLoginRequest) →
    ∃ done, Windows.frames.Tracks todo done st.windows

end Station

/-! ## What a step does to the queue -/

namespace Client

variable {q q' : WriteQueue Bytes}

/-- A request that finds the queue empty is started, another one waits. -/
theorem addMsgToSend_cases {b : Bytes} (h : addMsgToSend q b = some q') :
    ∃ new, q'.started = q.started ++ new ∧ q'.inFlight = q.inFlight ++ new := by
  simp only [addMsgToSend] at h
  split at h
  · simp only [startSendMsgs, WriteQueue.startWrite] at h
    split at h
    · cases h
    · cases h
      exact ⟨_, rfl, rfl⟩
  · cases h
    exact ⟨[], (List.append_nil _).symm, (List.append_nil _).symm⟩

/-- The oldest write is done, and the next one is started if there is one. -/
theorem sendDone_cases (h : sendDone q false = some q') :
    ∃ b rest new, q.inFlight = b :: rest ∧ q'.started = q.started ++ new ∧
      q'.inFlight = rest ++ new := by
  simp only [sendDone, Bool.false_eq_true, if_false] at h
  split at h
  · rename_i b rest _ queue hinFlight hqueue
    split at h
    · simp only [startSendMsgs, WriteQueue.startWrite] at h
      split at h
      · cases h
      · cases h
        exact ⟨b, rest, _, hinFlight, rfl, rfl⟩
    · cases h
      exact ⟨b, rest, [], hinFlight, (List.append_nil _).symm, (List.append_nil _).symm⟩
  · cases h

end Client

namespace Windows

variable {w w' : Windows}

/-- A read neither opens the socket nor changes the login. -/
theorem keeps_readResponse {member : Response → Option (Status × (Client → Client))}
    (hmember : ∀ r p, member r = some p → ∀ c : Client,
      (p.2 c).login = c.login ∧ (p.2 c).socketOpen = c.socketOpen)
    (st : ReadState) (error : Bool) :
    (ReadState.readResponse member st error).client.login = st.client.login ∧
      ((ReadState.readResponse member st error).client.socketOpen = true →
        st.client.socketOpen = true) := by
  simp only [ReadState.readResponse]
  split
  · exact ⟨rfl, fun h => absurd h Bool.false_ne_true⟩
  · split
    · split
      · exact ⟨rfl, id⟩
      · rename_i status update hfound
        obtain ⟨hlogin, hopen⟩ := hmember _ _ hfound st.client
        split
        · exact ⟨hlogin, fun h => hopen ▸ h⟩
        · exact ⟨rfl, fun h => absurd h Bool.false_ne_true⟩
    · exact ⟨rfl, fun h => absurd h Bool.false_ne_true⟩

theorem keeps_complete {st st' : ReadState} {e : ReadEvent} (h : st.complete e = some st') :
    st'.client.login = st.client.login ∧
      (st'.client.socketOpen = true → st.client.socketOpen = true) := by
  have hbody : ∀ (handler : BodyHandler) (st : ReadState) (error : Bool),
      (ReadState.runBody handler st error).client.login = st.client.login ∧
        ((ReadState.runBody handler st error).client.socketOpen = true →
          st.client.socketOpen = true) := by
    intro handler st error
    cases handler with
    | doReadInputResponse =>
        refine keeps_readResponse (fun r p hp c => ?_) st error
        cases r <;> cases hp
        exact ⟨rfl, rfl⟩
    | doReadRegResponse =>
        refine keeps_readResponse (fun r p hp c => ?_) st error
        cases r <;> cases hp
        exact ⟨rfl, rfl⟩
    | doReadJoinRoomResponse =>
        refine keeps_readResponse (fun r p hp c => ?_) st error
        cases r <;> cases hp
        exact ⟨rfl, rfl⟩
    | doReadEchoResponse =>
        cases error with
        | true => exact ⟨rfl, fun h => absurd h Bool.false_ne_true⟩
        | false => exact ⟨rfl, id⟩
  obtain ⟨client, readBuffer, pending⟩ := st
  cases pending with
  | nil => cases h
  | cons read rest =>
      cases read with
      | header =>
          cases e with
          | failed =>
              cases h
              exact ⟨rfl, fun h => absurd h Bool.false_ne_true⟩
          | bytes data =>
              simp only [ReadState.complete, ReadState.doReadPbHeader, ReadState.asyncReadPbMsg,
                Bool.false_eq_true, if_false] at h
              split at h
              · split at h
                · obtain ⟨resized, -, rfl⟩ := Option.map_eq_some_iff.mp h
                  split
                  · exact ⟨rfl, id⟩
                  · exact ⟨rfl, id⟩
                · cases h
                  exact ⟨rfl, id⟩
              · cases h
      | body handler =>
          cases e with
          | failed =>
              cases h
              exact hbody handler _ true
          | bytes data =>
              simp only [ReadState.complete] at h
              split at h
              · cases h
                exact hbody handler _ false
              · cases h

theorem keeps_completed (w : Windows) (e : ReadEvent) :
    (w.completed e).msgToServer = w.msgToServer ∧
      (w.completed e).reader.client.login = w.reader.client.login ∧
      ((w.completed e).reader.client.socketOpen = true → w.reader.client.socketOpen = true) := by
  simp only [completed, apply]
  cases hcomplete : w.reader.complete e with
  | none => exact ⟨rfl, rfl, id⟩
  | some reader => exact ⟨rfl, keeps_complete hcomplete⟩

/-- What the windows do by themselves keeps the login and the socket.  They add a request
to `msg_to_server` when a click makes one, and leave it alone otherwise. -/
theorem queue_of_step {e : WindowEvent} (h : Step w e w') (he : e.ofSocket = false) :
    w'.reader.client.login = w.reader.client.login ∧
      w'.reader.client.socketOpen = w.reader.client.socketOpen ∧
      (w.request e = none ∧ w'.msgToServer = w.msgToServer ∨
        ∃ m, w.request e = some m ∧
          Client.addMsgToSend w.msgToServer m.frame = some w'.msgToServer) := by
  have hclick : ∀ {shown : Bool} {m : FactoryMessage},
      (if shown then w.addMsgToSend m else none) = some w' →
        w'.reader.client.login = w.reader.client.login ∧
          w'.reader.client.socketOpen = w.reader.client.socketOpen ∧
          ∃ m', (if shown then some m else none) = some m' ∧
            Client.addMsgToSend w.msgToServer m'.frame = some w'.msgToServer := by
    intro shown m hadd
    split at hadd
    · rename_i hshown
      obtain ⟨q, hq, rfl⟩ := Option.map_eq_some_iff.mp hadd
      exact ⟨rfl, rfl, m, if_pos hshown, hq⟩
    · cases hadd
  cases e with
  | read _ | written _ => cases he
  | addChannel roomId =>
      obtain ⟨hlogin, hopen, hadd⟩ := hclick h
      exact ⟨hlogin, hopen, Or.inr hadd⟩
  | send message =>
      obtain ⟨hlogin, hopen, hadd⟩ := hclick h
      exact ⟨hlogin, hopen, Or.inr hadd⟩
  | back =>
      obtain ⟨-, hback⟩ := Option.ite_none_right_eq_some.mp h
      cases hback
      exact ⟨rfl, rfl, Or.inl ⟨rfl, rfl⟩⟩
  | doubleClick row =>
      cases effect_of_step h with
      | @opened _ room _ _ =>
          obtain ⟨text, heq⟩ := w.exists_goChannel room
          rw [heq]
          exact ⟨rfl, rfl, Or.inl ⟨rfl, rfl⟩⟩
      | request hrow _ _ _ => exact absurd rfl (hrow row)
  | handle =>
      cases effect_of_step h with
      | @handle signal rest _ =>
          cases signal with
          | sendText msg =>
              simp only [slot, printText]
              split
              · exact ⟨rfl, rfl, Or.inl ⟨rfl, rfl⟩⟩
              · exact ⟨rfl, rfl, Or.inl ⟨rfl, rfl⟩⟩
          | sendInputCode code =>
              simp only [slot, changeWindow]
              split
              · exact ⟨rfl, rfl, Or.inl ⟨rfl, rfl⟩⟩
              · exact ⟨rfl, rfl, Or.inl ⟨rfl, rfl⟩⟩
          | sigUpdateChannels => exact ⟨rfl, rfl, Or.inl ⟨rfl, rfl⟩⟩
      | request _ _ hhandle _ => exact absurd rfl hhandle

/-- A write of `msg_to_server` is done or has failed. -/
theorem written_cases {ec : Bool} (h : Step w (.written ec) w') :
    Client.sendDone w.msgToServer ec = some w'.msgToServer ∧
      w'.reader = if ec then w.reader.closeConnection else w.reader := by
  obtain ⟨q, hq, rfl⟩ := Option.map_eq_some_iff.mp h
  exact ⟨hq, rfl⟩

end Windows

/-! ## Every step of a client -/

namespace Station

variable {clientId : Identifier} {logIn : LogIn}
  {todo : List {m : FactoryMessage // Client.Readable m}} {st st' : Station} {sent : Bytes}

/-- Writes that are started one after the other. -/
theorem foldl_start (new : List Bytes) (u : WriteStream ClientWriter UInt8) :
    let started := new.foldl (fun u b => u.start .startSendMsgs b) u
    started.pending = u.pending ++ new.map (fun b => ⟨.startSendMsgs, b⟩) ∧
      started.started = u.started ++ new ∧ (u.Whole → started.Whole) ∧ (u.Cut → started.Cut) := by
  induction new generalizing u with
  | nil => exact ⟨(List.append_nil _).symm, (List.append_nil _).symm, id, id⟩
  | cons b new ih =>
      obtain ⟨hpending, hstarted, hwhole, hcut⟩ := ih (u.start .startSendMsgs b)
      refine ⟨?_, ?_, fun h => hwhole h.start, fun h => hcut h.start⟩
      · refine hpending.trans ?_
        show (u.pending ++ [_]) ++ _ = _
        rw [List.append_assoc]
        rfl
      · refine hstarted.trans ?_
        show (u.started ++ [b]) ++ new = _
        rw [List.append_assoc]
        rfl

/-- The writes of the windows that have become `w`. -/
theorem become_uplink {w : Windows} {new : List Bytes}
    (h : w.msgToServer.started = st.windows.state.msgToServer.started ++ new) :
    (st.become w).uplink = new.foldl (fun u b => u.start .startSendMsgs b) st.uplink := by
  rw [become, h, List.drop_left]

/-- One write is pending at most. -/
theorem Phase.single (h : Phase clientId logIn st) : st.uplink.Single := by
  cases h with
  | connecting _ hpending _ _ =>
      rw [WriteStream.Single, hpending]
      exact le_rfl
  | session _ _ howners hqueued =>
      have hlength := congrArg List.length howners
      rw [List.length_map, List.length_map] at hlength
      rw [WriteStream.Single, hlength]
      cases hqueued with
      | flows hflows =>
          rw [hflows.inFlight, List.length_take]
          exact Nat.min_le_left _ _
      | stuck hstuck _ _ =>
          rw [hstuck.inFlight]
          exact Nat.zero_le _

/-- Once the log in request has been sent every write is one of `msg_to_server`. -/
theorem Phase.owner_ne (h : Phase clientId logIn st)
    (howner : ∀ p ∈ st.uplink.pending, p.owner ≠ .sendLoginRequest) :
    ∃ more, st.asked = logIn.request :: more ∧
      st.uplink.started = logIn.request.frame :: st.windows.state.msgToServer.started ∧
      st.uplink.pending.map (·.owner) =
        st.windows.state.msgToServer.inFlight.map (fun _ => .startSendMsgs) ∧
      Queued st.windows.state.reader.client.socketOpen (more.map FactoryMessage.frame)
        st.windows.state.msgToServer := by
  cases h with
  | @connecting rest _ hpending _ _ =>
      rw [hpending] at howner
      exact absurd rfl (howner _ (List.mem_singleton_self _))
  | session hasked hstarted howners hqueued => exact ⟨_, hasked, hstarted, howners, hqueued⟩

/-- In a session no write is that of the log in request. -/
theorem ne_of_owners {pending : List (PendingWrite ClientWriter UInt8)} {inFlight : List Bytes}
    (h : pending.map (·.owner) = inFlight.map (fun _ => .startSendMsgs)) :
    ∀ p ∈ pending, p.owner ≠ .sendLoginRequest := by
  intro p hp hlogin
  have hmem : p.owner ∈ inFlight.map (fun _ => ClientWriter.startSendMsgs) :=
    h ▸ List.mem_map.mpr ⟨p, hp, rfl⟩
  obtain ⟨b, -, hb⟩ := List.mem_map.mp hmem
  cases hb.trans hlogin

/-- The windows have become `w`, and the writes of `msg_to_server` with them. -/
theorem Keeps.become (h : Keeps clientId logIn todo st) (uplink : WriteStream ClientWriter UInt8)
    (w : Windows) (new rest : List Bytes) (extra : List FactoryMessage) {more : List FactoryMessage}
    (hasked : st.asked = logIn.request :: more)
    (hstarted : uplink.started = logIn.request.frame :: st.windows.state.msgToServer.started)
    (howners : uplink.pending.map (·.owner) = rest.map (fun _ => .startSendMsgs))
    (hcut : uplink.Cut) (hwhole : w.reader.client.socketOpen = true → uplink.Whole)
    (hsame : Windows.SameReading st.windows.state w)
    (hlogin : w.reader.client.login = st.windows.state.reader.client.login)
    (hreads : ∃ done, Windows.frames.Tracks todo done st.windows)
    (hnew : w.msgToServer.started = st.windows.state.msgToServer.started ++ new)
    (hinFlight : w.msgToServer.inFlight = rest ++ new)
    (hqueued : Queued w.reader.client.socketOpen ((more ++ extra).map FactoryMessage.frame)
      w.msgToServer)
    (hauthors : ∀ m ∈ extra, ∀ login ∈ m.author, login = logIn.login) :
    Keeps clientId logIn todo
      { ({ st with uplink := uplink } : Station).become w with asked := st.asked ++ extra } := by
  obtain ⟨hpending', hstarted', hwhole', hcut'⟩ := foldl_start new uplink
  have huplink : (({ st with uplink := uplink } : Station).become w).uplink =
      new.foldl (fun u b => u.start .startSendMsgs b) uplink := become_uplink hnew
  refine ⟨@Phase.session _ _ _ (more ++ extra) ?_ ?_ ?_ hqueued, ?_, ?_, hlogin.trans h.login, ?_, ?_⟩
  · show st.asked ++ extra = _
    rw [hasked]
    rfl
  · show (({ st with uplink := uplink } : Station).become w).uplink.started = _ :: w.msgToServer.started
    rw [huplink, hstarted', hstarted, hnew]
    rfl
  · show (({ st with uplink := uplink } : Station).become w).uplink.pending.map _ =
      w.msgToServer.inFlight.map _
    rw [huplink, hpending', hinFlight, List.map_append, List.map_append, howners, List.map_map]
    rfl
  · show (({ st with uplink := uplink } : Station).become w).uplink.Cut
    rw [huplink]
    exact hcut' hcut
  · intro hopen
    show (({ st with uplink := uplink } : Station).become w).uplink.Whole
    rw [huplink]
    exact hwhole' (hwhole hopen)
  · intro m hmem
    rcases List.mem_append.mp hmem with hold | hextra
    · exact h.authors m hold
    · exact hauthors m hextra
  · intro _
    obtain ⟨done, htracks⟩ := hreads
    exact ⟨done, hsame.tracks htracks⟩

theorem Queued.add {socketOpen : Bool} {added : List Bytes} {q q' : WriteQueue Bytes} {b : Bytes}
    (h : Queued socketOpen added q) (hstep : Client.addMsgToSend q b = some q') :
    Queued socketOpen (added ++ [b]) q' := by
  have hadd : q.add b = some q' := (End.apply_eq .client q (.add b)).symm.trans hstep
  cases h with
  | flows hflows => exact .flows (hflows.add hadd)
  | stuck hstuck hinitial hclosed =>
      have hstuck' := hstuck.step (e := .add b) hadd
      refine .stuck (hstuck'.started_eq.symm ▸ hstuck') ?_ hclosed
      rw [hstuck'.started_eq]
      exact hinitial.trans (List.prefix_append _ _)

theorem Queued.done {socketOpen : Bool} {added : List Bytes} {q q' : WriteQueue Bytes}
    (h : Queued socketOpen added q) (hstep : Client.sendDone q false = some q') :
    Queued socketOpen added q' := by
  have hcomplete : q.complete = some q' := (End.apply_eq .client q .complete).symm.trans hstep
  cases h with
  | flows hflows => exact .flows (hflows.complete hcomplete)
  | stuck hstuck _ _ =>
      obtain ⟨b, rest, _, hinFlight, -⟩ := Client.sendDone_cases hstep
      cases hstuck.inFlight.symm.trans hinFlight

theorem Queued.fail {socketOpen : Bool} {added : List Bytes} {q q' : WriteQueue Bytes}
    (h : Queued socketOpen added q) (hstep : Client.sendDone q true = some q') :
    Queued false added q' ∧ q'.started = q.started ∧ q'.inFlight = [] := by
  have hfail : q.fail = some q' := (End.apply_eq .client q .fail).symm.trans hstep
  cases h with
  | flows hflows =>
      have hstuck := hflows.fail hfail
      refine ⟨.stuck (hstuck.started_eq.symm ▸ hstuck) ?_ rfl, hstuck.started_eq, hstuck.inFlight⟩
      rw [hstuck.started_eq, hflows.started]
      exact List.take_prefix _ _
  | stuck hstuck _ _ =>
      unfold WriteQueue.fail at hfail
      rw [hstuck.inFlight] at hfail
      cases hfail

/-- Nothing happens in the windows before the log in request has been sent. -/
theorem apply_connecting {e : WindowEvent} (he : e.ofSocket = false) (login : Bytes) :
    (Windows.connecting clientId login).apply e = none := by
  cases e with
  | read _ | written _ => cases he
  | _ => rfl

/-- The requests of the windows go out under the login of the client. -/
theorem author_request {w : Windows} {e : WindowEvent} {m : FactoryMessage}
    (h : w.request e = some m) {login : Bytes} (hauthor : login ∈ m.author) :
    login = w.reader.client.login := by
  cases e with
  | send message =>
      obtain ⟨-, hrequest⟩ := Option.ite_none_right_eq_some.mp h
      cases hrequest
      cases hauthor
      rfl
  | addChannel room =>
      obtain ⟨-, hrequest⟩ := Option.ite_none_right_eq_some.mp h
      cases hrequest
      cases hauthor
  | _ => cases h

theorem keeps_windows (h : Keeps clientId logIn todo st) {e : WindowEvent} {w : Windows}
    (he : e.ofSocket = false) (hstep : Windows.Step st.windows.state e w) :
    Keeps clientId logIn todo
      { st.become w with asked := st.asked ++ (st.windows.state.request e).toList } := by
  obtain ⟨hlogin, hopen, hqueue⟩ := Windows.queue_of_step hstep he
  have hsame : Windows.SameReading st.windows.state w := by
    refine Windows.sameReading_of_step hstep ?_
    rintro e' rfl
    cases he
  cases h.phase with
  | connecting hwindows _ _ _ =>
      rw [hwindows, Windows.Step, apply_connecting he] at hstep
      cases hstep
  | @session more hasked hstarted howners hqueued =>
      have hreads := h.reads (ne_of_owners howners)
      rw [← hopen] at hqueued
      rcases hqueue with ⟨hnone, hsameQueue⟩ | ⟨m, hm, hadd⟩
      · rw [hnone]
        refine h.become st.uplink w [] _ [] hasked hstarted howners h.cut (fun ho => h.whole (hopen ▸ ho))
          hsame hlogin hreads ?_ ?_ ?_
          fun _ hm => absurd hm List.not_mem_nil
        · rw [hsameQueue, List.append_nil]
        · rw [hsameQueue, List.append_nil]
        · rw [hsameQueue]
          show Queued _ ((more ++ []).map _) _
          rwa [List.append_nil]
      · rw [hm]
        obtain ⟨new, hnew, hinFlight⟩ := Client.addMsgToSend_cases hadd
        refine h.become st.uplink w new _ [m] hasked hstarted howners h.cut
          (fun ho => h.whole (hopen ▸ ho)) hsame hlogin hreads hnew hinFlight ?_ ?_
        · show Queued _ ((more ++ [m]).map _) _
          rw [List.map_append]
          exact hqueued.add hadd
        · intro m' hmem login hauthor
          cases List.mem_singleton.mp hmem
          exact (author_request hm hauthor).trans h.login

theorem state_of_read {r r' : Receiver Windows UInt8} {e : Receipt}
    (h : r.apply Windows.program sent e = some r') :
    r'.state = r.state ∨ ∃ e', r'.state = r.state.completed e' := by
  cases e with
  | cut =>
      cases h
      exact Or.inl rfl
  | arrive n =>
      obtain ⟨reading, hreading, rfl⟩ := Option.map_eq_some_iff.mp h
      simp only [Reading.apply] at hreading
      split at hreading
      · cases hreading
      · cases hreading
        exact Or.inl rfl
  | take n =>
      obtain ⟨reading, hreading, rfl⟩ := Option.map_eq_some_iff.mp h
      simp only [Reading.apply] at hreading
      split at hreading
      · cases hreading
      · split at hreading
        · cases hreading
          exact Or.inl rfl
        · cases hreading
  | complete =>
      obtain ⟨reading, hreading, rfl⟩ := Option.map_eq_some_iff.mp h
      simp only [Reading.apply] at hreading
      split at hreading
      · cases hreading
        exact Or.inr ⟨_, rfl⟩
      · cases hreading
  | fail =>
      obtain ⟨reading, hreading, rfl⟩ := Option.map_eq_some_iff.mp h
      simp only [Reading.apply] at hreading
      split at hreading
      · cases hreading
      · split at hreading
        · cases hreading
          exact Or.inr ⟨_, rfl⟩
        · cases hreading

theorem keeps_read (h : Keeps clientId logIn todo st) {e : Receipt}
    {windows : Receiver Windows UInt8}
    (howner : ∀ p ∈ st.uplink.pending, p.owner ≠ .sendLoginRequest)
    (harrived : st.windows.arrived <+: Windows.frames.stream todo)
    (hread : st.windows.apply Windows.program sent e = some windows) :
    Keeps clientId logIn todo { st with windows := windows } := by
  obtain ⟨more, hasked, hstarted, howners, hqueued⟩ := h.phase.owner_ne howner
  have hstate : windows.state.msgToServer = st.windows.state.msgToServer ∧
      windows.state.reader.client.login = st.windows.state.reader.client.login ∧
      (windows.state.reader.client.socketOpen = true →
        st.windows.state.reader.client.socketOpen = true) := by
    rcases state_of_read hread with hsame | ⟨e', hcompleted⟩
    · rw [hsame]
      exact ⟨rfl, rfl, id⟩
    · rw [hcompleted]
      exact Windows.keeps_completed _ e'
  obtain ⟨hqueue, hlogin, hopen⟩ := hstate
  have hqueued' : Queued windows.state.reader.client.socketOpen (more.map FactoryMessage.frame)
      windows.state.msgToServer := by
    rw [hqueue]
    cases hqueued with
    | flows hflows => exact .flows hflows
    | stuck hstuck hinitial hclosed =>
        refine .stuck hstuck hinitial ?_
        cases ho : windows.state.reader.client.socketOpen with
        | false => rfl
        | true => exact (hopen ho).symm.trans hclosed
  refine ⟨.session hasked ?_ ?_ hqueued', h.cut, fun ho => h.whole (hopen ho), hlogin.trans h.login,
    h.authors, ?_⟩
  · show st.uplink.started = _ :: windows.state.msgToServer.started
    rw [hqueue]
    exact hstarted
  · show st.uplink.pending.map _ = windows.state.msgToServer.inFlight.map _
    rw [hqueue]
    exact howners
  · intro _
    obtain ⟨done, htracks⟩ := h.reads howner
    have hfail : e = .fail → ∀ m, Windows.frames.Within done m st.windows.state →
        Windows.frames.Stopped done (Windows.program.failed st.windows.state st.windows.got) := by
      rintro - m ⟨handler, -, hpending, -, hholds⟩
      exact Windows.failed (by rw [hpending]; rfl) hholds
    obtain ⟨done', -, htracks'⟩ := htracks.apply hread harrived hfail
    exact ⟨done', htracks'⟩

theorem keeps_transmit (h : Keeps clientId logIn todo st) {i n : Nat}
    {uplink : WriteStream ClientWriter UInt8}
    (hopen : st.windows.state.reader.client.socketOpen = true)
    (htransmit : st.uplink.transmit i n = some uplink) :
    Keeps clientId logIn todo { st with uplink := uplink } := by
  have hwhole := (h.whole hopen).transmit h.phase.single htransmit
  obtain ⟨p, hpending, hresult⟩ := WriteStream.transmit_of_single h.phase.single htransmit
  subst hresult
  refine ⟨?_, hwhole.cut, fun _ => hwhole, h.login, h.authors, ?_⟩
  · cases h.phase with
    | @connecting rest hwindows hlogin hstarted hasked =>
        cases hpending.symm.trans hlogin
        exact .connecting hwindows rfl hstarted hasked
    | session hasked hstarted howners hqueued =>
        rw [hpending] at howners
        exact .session hasked hstarted howners hqueued
  · intro howner
    refine h.reads ?_
    intro p' hp'
    rw [hpending] at hp'
    cases List.mem_singleton.mp hp'
    exact howner ⟨p.owner, p.rest.drop n⟩ (List.mem_singleton_self _)

theorem keeps_written (h : Keeps clientId logIn todo st) {i : Nat}
    (hstep : st.apply sent (.written i) = some st') : Keeps clientId logIn todo st' := by
  simp only [apply] at hstep
  cases hfinish : st.uplink.finish i with
  | none =>
      rw [hfinish] at hstep
      cases hstep
  | some result =>
      obtain ⟨owner, uplink⟩ := result
      rw [hfinish] at hstep
      have hsingle := h.phase.single
      obtain ⟨hpending, huplink⟩ := WriteStream.finish_of_single hsingle hfinish
      have hwhole : st.windows.state.reader.client.socketOpen = true → uplink.Whole :=
        fun ho => (h.whole ho).finish hsingle hfinish
      have hcut : uplink.Cut := huplink ▸ h.cut.of_pending []
      cases owner with
      | sendLoginRequest =>
          cases hstep
          cases h.phase with
          | connecting hwindows _ hstarted hasked =>
              obtain ⟨windows, uplink₀, asked⟩ := st
              simp only at hwindows hstarted hasked huplink
              subst hwindows hasked huplink
              refine ⟨@Phase.session _ _ _ [] rfl hstarted rfl (.flows WriteQueue.flows_empty), hcut,
                hwhole, rfl, h.authors, ?_⟩
              intro _
              exact ⟨[], [], .idle rfl ⟨rfl, fun _ => rfl⟩, List.prefix_refl _, fun _ => rfl⟩
          | session _ _ howners _ =>
              refine absurd rfl (ne_of_owners howners ⟨.sendLoginRequest, []⟩ ?_)
              rw [hpending]
              exact List.mem_singleton_self _
      | startSendMsgs =>
          obtain ⟨w, hw, rfl⟩ := Option.map_eq_some_iff.mp hstep
          cases h.phase with
          | connecting _ hlogin _ _ => cases hpending.symm.trans hlogin
          | @session more hasked hstarted howners hqueued =>
              have hsame : Windows.SameReading st.windows.state w :=
                Windows.sameReading_of_step hw nofun
              obtain ⟨hq, hreader⟩ := Windows.written_cases hw
              have hclient : w.reader = st.windows.state.reader := hreader
              obtain ⟨b, rest, new, hinFlight, hnew, hinFlight'⟩ := Client.sendDone_cases hq
              rw [hpending, hinFlight] at howners
              have hrest : rest = [] := List.map_eq_nil_iff.mp (List.cons.inj howners).2.symm
              subst hrest
              have hreads := h.reads ?_
              · have hkeeps := h.become uplink w new [] [] hasked (huplink ▸ hstarted) (huplink ▸ rfl)
                  hcut (hclient ▸ hwhole) hsame (hclient ▸ rfl) hreads hnew hinFlight'
                  ((List.append_nil more).symm ▸ hclient ▸ hqueued.done hq)
                  fun _ hm => absurd hm List.not_mem_nil
                rwa [List.append_nil] at hkeeps
              · rw [hpending]
                intro p hp
                cases List.mem_singleton.mp hp
                exact nofun

theorem keeps_writeFailed (h : Keeps clientId logIn todo st) {i : Nat}
    (hstep : st.apply sent (.writeFailed i) = some st') : Keeps clientId logIn todo st' := by
  simp only [apply] at hstep
  have hsingle := h.phase.single
  split at hstep
  · rename_i rest uplink hp habort
    cases hstep
    obtain ⟨rfl, hpending⟩ := hsingle.eq_singleton hp
    have huplink := WriteStream.abort_of_single hsingle habort
    cases h.phase with
    | connecting hwindows _ hstarted hasked =>
        obtain ⟨windows, uplink₀, asked⟩ := st
        simp only at hwindows hstarted hasked huplink
        subst hwindows hasked huplink
        refine ⟨@Phase.session _ _ _ [] rfl hstarted rfl (.flows WriteQueue.flows_empty),
          h.cut.of_pending [], ?_, rfl, h.authors, ?_⟩
        · intro hopen
          cases hopen
        intro _
        exact ⟨[], [], .stopped rfl ⟨rfl, fun _ => rfl⟩, List.prefix_refl _, fun _ => rfl⟩
    | session _ _ howners _ =>
        exact absurd rfl (ne_of_owners howners _ (List.mem_of_getElem? hp))
  · rename_i rest uplink hp habort
    obtain ⟨w, hw, rfl⟩ := Option.map_eq_some_iff.mp hstep
    obtain ⟨rfl, hpending⟩ := hsingle.eq_singleton hp
    have huplink := WriteStream.abort_of_single hsingle habort
    cases h.phase with
    | connecting _ hlogin _ _ => cases hpending.symm.trans hlogin
    | @session more hasked hstarted howners hqueued =>
        have hsame : Windows.SameReading st.windows.state w :=
          Windows.sameReading_of_step hw nofun
        obtain ⟨hq, hreader⟩ := Windows.written_cases hw
        have hclient : w.reader = st.windows.state.reader.closeConnection := hreader
        have hclosed : w.reader.client.socketOpen = false := hclient ▸ rfl
        obtain ⟨hqueued', hstarted', hinFlight⟩ := hqueued.fail hq
        have hkeeps := h.become uplink w [] [] [] hasked (huplink ▸ hstarted) (huplink ▸ rfl)
          (huplink ▸ h.cut.of_pending []) (fun hopen => nomatch hclosed.symm.trans hopen) hsame
          (hclient ▸ rfl) (h.reads (ne_of_owners howners)) (hstarted'.trans (List.append_nil _).symm)
          hinFlight ((List.append_nil more).symm ▸ hclosed ▸ hqueued')
          fun _ hm => absurd hm List.not_mem_nil
        rwa [List.append_nil] at hkeeps
  · cases hstep

/-- **A client.**  Every step keeps what a client keeps, when what has come to it is a part
of the frames of `todo`. -/
theorem keeps_step (h : Keeps clientId logIn todo st) {e : StationEvent}
    (harrived : st.windows.arrived <+: Windows.frames.stream todo)
    (hstep : st.apply sent e = some st') : Keeps clientId logIn todo st' := by
  cases e with
  | windows e =>
      simp only [apply] at hstep
      split at hstep
      · cases hstep
      · rename_i he
        obtain ⟨w, hw, rfl⟩ := Option.map_eq_some_iff.mp hstep
        exact keeps_windows h (Bool.not_eq_true _ ▸ he) hw
  | read e =>
      obtain ⟨howner, hread⟩ := Option.ite_none_right_eq_some.mp hstep
      obtain ⟨windows, hwindows, rfl⟩ := Option.map_eq_some_iff.mp hread
      exact keeps_read h howner harrived hwindows
  | transmit i n =>
      obtain ⟨hopen, htransmit⟩ := Option.ite_none_right_eq_some.mp hstep
      obtain ⟨uplink, huplink, rfl⟩ := Option.map_eq_some_iff.mp htransmit
      exact keeps_transmit h hopen huplink
  | written i => exact keeps_written h hstep
  | writeFailed i => exact keeps_writeFailed h hstep

theorem keeps_start (clientId : Identifier) (logIn : LogIn) :
    Keeps clientId logIn [] (start clientId logIn) where
  phase := .connecting rfl rfl rfl rfl
  cut := WriteStream.whole_empty.start.cut
  whole _ := WriteStream.whole_empty.start
  login := rfl
  authors m hmem login hauthor := by
    cases List.mem_singleton.mp hmem
    exact Option.some.inj (hauthor.symm.trans logIn.author_request)
  reads howner := absurd rfl (howner _ (List.mem_singleton_self _))

/-- The server sends more. -/
theorem Keeps.append_todo (h : Keeps clientId logIn todo st)
    (more : List {m : FactoryMessage // Client.Readable m}) :
    Keeps clientId logIn (todo ++ more) st where
  phase := h.phase
  cut := h.cut
  whole := h.whole
  login := h.login
  authors := h.authors
  reads howner := (h.reads howner).imp fun _ htracks => htracks.append_todo more

/-- What is started is a first part of what has been asked for. -/
theorem Phase.started_of_asked (h : Phase clientId logIn st) :
    st.uplink.started <+: st.asked.map FactoryMessage.frame := by
  cases h with
  | connecting _ _ hstarted hasked =>
      rw [hstarted, hasked]
      exact List.prefix_refl _
  | session hasked hstarted _ hqueued =>
      rw [hstarted, hasked, List.map_cons, List.prefix_cons_inj]
      cases hqueued with
      | flows hflows =>
          rw [hflows.started]
          exact List.take_prefix _ _
      | stuck _ hinitial _ => exact hinitial

theorem flatten_mono {as bs : List Bytes} (h : as <+: bs) : as.flatten <+: bs.flatten := by
  obtain ⟨rest, rfl⟩ := h
  rw [List.flatten_append]
  exact List.prefix_append _ _

/-- What has been sent is a part of the requests, one after the other. -/
theorem Keeps.sent_of_asked (h : Keeps clientId logIn todo st) :
    st.uplink.sent <+: (st.asked.map FactoryMessage.frame).flatten :=
  h.cut.trans (flatten_mono h.phase.started_of_asked)

/-- An open socket with nothing left to write has sent all requests. -/
theorem Keeps.sent_eq (h : Keeps clientId logIn todo st)
    (hopen : st.windows.state.reader.client.socketOpen = true) (hidle : st.uplink.pending = []) :
    st.uplink.sent = (st.asked.map FactoryMessage.frame).flatten := by
  rw [(h.whole hopen).sent_eq hidle]
  refine congrArg List.flatten ?_
  obtain ⟨more, hasked, hstarted, howners, hqueued⟩ :=
    h.phase.owner_ne (by rw [hidle]; exact fun p hp => nomatch hp)
  rw [hidle] at howners
  have hinFlight := List.map_eq_nil_iff.mp howners.symm
  rw [hstarted, hasked, List.map_cons]
  refine congrArg _ ?_
  cases hqueued with
  | flows hflows =>
      -- nothing is written, so nothing waits
      have hnone := hflows.inFlight.symm.trans hinFlight
      have hqueue : st.windows.state.msgToServer.queue = [] := by
        cases hq : st.windows.state.msgToServer.queue with
        | nil => rfl
        | cons b rest =>
            rw [hq] at hnone
            cases hnone
      have hdone := List.drop_eq_nil_iff.mp (hflows.queue.symm.trans hqueue)
      rw [hflows.started, hinFlight]
      exact List.take_of_length_le hdone
  | stuck _ _ hclosed => exact absurd hopen (by rw [hclosed]; exact Bool.false_ne_true)

/-! ## Later on -/

/-- The requests an event makes. -/
def requests (st : Station) : StationEvent → List FactoryMessage
  | .windows e => (st.windows.state.request e).toList
  | _ => []

theorem extends_become (st : Station) (w : Windows) : st.uplink.Extends (st.become w).uplink :=
  st.uplink.extends_foldl_start .startSendMsgs _

/-- What has been sent stays sent, the requests are added to those that have been made, and
nothing comes that has not been sent. -/
theorem later_of_step {e : StationEvent} (hstep : st.apply sent e = some st') :
    st.uplink.Extends st'.uplink ∧ st'.asked = st.asked ++ st.requests e ∧
      (st.windows.arrived <+: sent → st'.windows.arrived <+: sent) := by
  cases e with
  | windows e =>
      simp only [apply] at hstep
      split at hstep
      · cases hstep
      · obtain ⟨w, -, rfl⟩ := Option.map_eq_some_iff.mp hstep
        exact ⟨st.extends_become w, rfl, id⟩
  | read e =>
      obtain ⟨-, hread⟩ := Option.ite_none_right_eq_some.mp hstep
      obtain ⟨windows, hwindows, rfl⟩ := Option.map_eq_some_iff.mp hread
      exact ⟨.refl _, (List.append_nil _).symm, Receiver.arrived_of_sent hwindows⟩
  | transmit i n =>
      obtain ⟨-, htransmit⟩ := Option.ite_none_right_eq_some.mp hstep
      obtain ⟨uplink, huplink, rfl⟩ := Option.map_eq_some_iff.mp htransmit
      exact ⟨WriteStream.extends_transmit huplink, (List.append_nil _).symm, id⟩
  | written i =>
      simp only [apply] at hstep
      split at hstep
      · cases hstep
      · rename_i uplink hfinish
        cases hstep
        exact ⟨WriteStream.extends_finish hfinish, (List.append_nil _).symm, id⟩
      · rename_i uplink hfinish
        obtain ⟨w, -, rfl⟩ := Option.map_eq_some_iff.mp hstep
        have hbecome := extends_become { st with uplink := uplink } w
        exact ⟨(WriteStream.extends_finish hfinish).trans hbecome, (List.append_nil _).symm, id⟩
  | writeFailed i =>
      simp only [apply] at hstep
      split at hstep
      · rename_i uplink _ habort
        cases hstep
        exact ⟨WriteStream.extends_abort habort, (List.append_nil _).symm, id⟩
      · rename_i uplink _ habort
        obtain ⟨w, -, rfl⟩ := Option.map_eq_some_iff.mp hstep
        have hbecome := extends_become { st with uplink := uplink } w
        exact ⟨(WriteStream.extends_abort habort).trans hbecome, (List.append_nil _).symm, id⟩
      · cases hstep

end Station

end AppChat
