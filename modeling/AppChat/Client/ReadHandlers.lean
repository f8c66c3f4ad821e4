/-
  `Client.ReadHandlers`: which read is pending after each read handler of the client.

  A read that has been asked for completes once, with bytes or with an error, and its
  handler runs.  A handler closes the connection, asks for the next read, or returns
  without either; then nothing is read any more although the socket is open.
-/
import AppChat.Client.BodySize
import AppChat.Foundation.Transition

set_option autoImplicit false

namespace AppChat

open Foundation Serialize Protocol Connection

/-! ## The handlers -/

/-- The handler bound to the read of a body. -/
inductive BodyHandler where
  | doReadInputResponse
  | doReadRegResponse
  | doReadJoinRoomResponse
  | doReadEchoResponse
  deriving DecidableEq, Repr

/-- A read that has been asked for. -/
inductive PendingRead where
  | header
  | body (handler : BodyHandler)
  deriving DecidableEq, Repr

/-- A client, its `__read_buffer`, and the reads it has asked for. -/
structure ReadState where
  client : Client
  readBuffer : Bytes := []
  pending : List PendingRead := []

namespace ReadState

/-- `close_connection`. -/
def closeConnection (st : ReadState) : ReadState :=
  { st with client := st.client.closeConnection }

/-- `async_read_pb_header`. -/
def asyncReadPbHeader (st : ReadState) : ReadState :=
  { st with pending := st.pending ++ [.header] }

/-- `async_read` of a body into `__read_buffer`. -/
def asyncReadBody (st : ReadState) (handler : BodyHandler) : ReadState :=
  { st with pending := st.pending ++ [.body handler] }

/-- The switch of `async_read_pb_msg`. -/
def bodyHandler (command : UInt32) : Option BodyHandler :=
  match TypeCommand.cast command with
  | some .autorisationResponse => some .doReadInputResponse
  | some .registrationResponse => some .doReadRegResponse
  | some .echoResponse => some .doReadEchoResponse
  | some .joinRoomResponse => some .doReadJoinRoomResponse
  | _ => none

/-- `async_read_pb_msg`; `none` when `resize` throws. -/
def asyncReadPbMsg (st : ReadState) (newHeader : Header) : Option ReadState :=
  (resize st.readBuffer newHeader.length.toNat).map fun resized =>
    let st := { st with readBuffer := resized }
    match bodyHandler newHeader.command with
    | some handler => st.asyncReadBody handler
    | none => st

/-- `do_read_pb_header`. -/
def doReadPbHeader (st : ReadState) (error : Bool) (binBuffer : Bytes) : Option ReadState :=
  if error then some st.closeConnection
  else
    let newHeader := Header.parseFromArray binBuffer
    if newHeader.2 then st.asyncReadPbMsg newHeader.1 else some st

/-- The shape of three of the handlers: `member` finds the status of the member they
ask for and says what a success does to the client. -/
def readResponse (member : Response → Option (Status × (Client → Client))) (st : ReadState)
    (error : Bool) : ReadState :=
  if error then st.closeConnection
  else
    let parsed := Client.parseBuffer st.readBuffer
    if parsed.2 then
      match member parsed.1 with
      | none => st
      | some (status, update) =>
          if status = .OK then { st with client := update st.client }.asyncReadPbHeader
          else st.closeConnection
    else st.closeConnection

/-- The id comes from `input_response()` in both of these. -/
def inputMember (response : Response) : Option (Status × (Client → Client)) :=
  match response with
  | .inputResponse m =>
      some (m.status, fun c => c.setLoginId (Client.inputResponse response).clientId)
  | _ => none

/-- The member `do_read_reg_response` asks for: its status, and what it does to the client. -/
def regMember (response : Response) : Option (Status × (Client → Client)) :=
  match response with
  | .regResponse m =>
      some (m.status, fun c => c.setLoginId (Client.inputResponse response).clientId)
  | _ => none

/-- The member `do_read_join_room_response` asks for. -/
def joinRoomMember (response : Response) : Option (Status × (Client → Client)) :=
  match response with
  | .joinRoomResponse m =>
      some (m.status, fun c =>
        { c with channelsHistory := c.channelsHistory.tryEmplace m.roomId [] })
  | _ => none

/-- `do_read_input_response`. -/
def doReadInputResponse : ReadState → Bool → ReadState := readResponse inputMember

/-- `do_read_reg_response`. -/
def doReadRegResponse : ReadState → Bool → ReadState := readResponse regMember

/-- `do_read_join_room_response`. -/
def doReadJoinRoomResponse : ReadState → Bool → ReadState := readResponse joinRoomMember

/-- The outcome of the parse is logged and not looked at. -/
def doReadEchoResponse (st : ReadState) (error : Bool) : ReadState :=
  if error then st.closeConnection
  else
    let m := Client.textResponse (Client.parseBuffer st.readBuffer).1
    { st with client := st.client.pushBack ⟨m.login, m.text, m.roomId⟩ }.asyncReadPbHeader

/-- The completion of a read of a body, with an error or not. -/
def runBody : BodyHandler → ReadState → Bool → ReadState
  | .doReadInputResponse => doReadInputResponse
  | .doReadRegResponse => doReadRegResponse
  | .doReadJoinRoomResponse => doReadJoinRoomResponse
  | .doReadEchoResponse => doReadEchoResponse

end ReadState

/-- The completion of a read: with the bytes it was asked for, or with an error. -/
inductive ReadEvent where
  | bytes (data : Bytes)
  | failed
  deriving DecidableEq, Repr

namespace ReadState

/-- Run the handler of the read that has been pending longest; `none` when none is
pending, the bytes do not fill its buffer, or the process ends. -/
def complete (st : ReadState) (e : ReadEvent) : Option ReadState :=
  match st.pending, e with
  | [], _ => none
  | .header :: rest, .failed => doReadPbHeader { st with pending := rest } true []
  | .header :: rest, .bytes data =>
      if data.length = sizeHeader then doReadPbHeader { st with pending := rest } false data
      else none
  | .body handler :: rest, .failed => some (runBody handler { st with pending := rest } true)
  | .body handler :: rest, .bytes data =>
      if data.length = st.readBuffer.length then
        some (runBody handler { st with pending := rest, readBuffer := data } false)
      else none

/-- A completed read and what its handler leaves. -/
def Step (st : ReadState) (e : ReadEvent) (st' : ReadState) : Prop := st.complete e = some st'

/-- A client that has sent its log in request and waits for a header. -/
def start (clientId : Identifier) (login : Bytes) : ReadState :=
  { client := { clientId := clientId, login := login }, pending := [.header] }

/-! ## The handlers of `Client.Client`

There a flag stands for the pending read of a header. -/

/-- The handler of a body as `Client.Client` has it. -/
def clientHandler : BodyHandler → Client → Bytes → Client
  | .doReadInputResponse => Client.doReadInputResponse
  | .doReadRegResponse => Client.doReadRegResponse
  | .doReadJoinRoomResponse => Client.doReadJoinRoomResponse
  | .doReadEchoResponse => Client.doReadEchoResponse

theorem readHandler_eq (command : UInt32) :
    Client.readHandler command = (bodyHandler command).map clientHandler := by
  unfold Client.readHandler bodyHandler
  cases TypeCommand.cast command with
  | none => rfl
  | some command => cases command <;> rfl

/-- The flag is set exactly when the handler has asked for the next header. -/
theorem clientHandler_eq {st : ReadState} (hpending : st.pending = [])
    (hreading : st.client.reading = true) (handler : BodyHandler) :
    clientHandler handler st.client st.readBuffer =
      { (runBody handler st false).client with
        reading := !(runBody handler st false).pending.isEmpty } := by
  obtain ⟨client, readBuffer, pending⟩ := st
  obtain ⟨clientId, login, channelsHistory, socketOpen, reading⟩ := client
  simp only at hpending hreading
  subst hpending hreading
  cases handler with
  | doReadEchoResponse => rfl
  | doReadInputResponse =>
      simp only [clientHandler, runBody, Client.doReadInputResponse, doReadInputResponse,
        readResponse, Bool.false_eq_true, if_false]
      split
      · cases (Client.parseBuffer readBuffer).1 with
        | inputResponse m =>
            simp only [inputMember]
            split <;> rfl
        | _ => rfl
      · rfl
  | doReadRegResponse =>
      simp only [clientHandler, runBody, Client.doReadRegResponse, doReadRegResponse,
        readResponse, Bool.false_eq_true, if_false]
      split
      · cases (Client.parseBuffer readBuffer).1 with
        | regResponse m =>
            simp only [regMember]
            split <;> rfl
        | _ => rfl
      · rfl
  | doReadJoinRoomResponse =>
      simp only [clientHandler, runBody, Client.doReadJoinRoomResponse, doReadJoinRoomResponse,
        readResponse, Bool.false_eq_true, if_false]
      split
      · cases (Client.parseBuffer readBuffer).1 with
        | joinRoomResponse m =>
            simp only [joinRoomMember]
            split <;> rfl
        | _ => rfl
      · rfl

/-! ## What a handler leaves pending -/

/-- Either the socket is closed and no read is pending, or it is open and exactly one
is. -/
def Live (st : ReadState) : Prop :=
  (st.client.socketOpen = false ∧ st.pending = []) ∨
    (st.client.socketOpen = true ∧ st.pending.length = 1)

/-- The response has the member that the handler asks for. -/
def Finds : BodyHandler → Response → Prop
  | .doReadInputResponse, response => (inputMember response).isSome = true
  | .doReadRegResponse, response => (regMember response).isSome = true
  | .doReadJoinRoomResponse, response => (joinRoomMember response).isSome = true
  | .doReadEchoResponse, _ => True

instance (handler : BodyHandler) (response : Response) : Decidable (Finds handler response) :=
  match handler with
  | .doReadInputResponse => inferInstanceAs (Decidable (_ = true))
  | .doReadRegResponse => inferInstanceAs (Decidable (_ = true))
  | .doReadJoinRoomResponse => inferInstanceAs (Decidable (_ = true))
  | .doReadEchoResponse => inferInstanceAs (Decidable True)

/-- A header parses and has a command the client reads; a body does not parse, or has
the member its handler asks for. -/
def Continues (st : ReadState) : ReadEvent → Prop
  | .failed => True
  | .bytes data =>
      match st.pending with
      | [] => True
      | .header :: _ =>
          (Header.parseFromArray data).2 = true ∧
            (bodyHandler (Header.parseFromArray data).1.command).isSome = true
      | .body handler :: _ =>
          (Client.parseBuffer data).2 = false ∨ Finds handler (Client.parseBuffer data).1

instance (st : ReadState) (e : ReadEvent) : Decidable (st.Continues e) :=
  match e, st with
  | .failed, _ => inferInstanceAs (Decidable True)
  | .bytes _, ⟨_, _, []⟩ => inferInstanceAs (Decidable True)
  | .bytes _, ⟨_, _, .header :: _⟩ => inferInstanceAs (Decidable (_ ∧ _))
  | .bytes _, ⟨_, _, .body _ :: _⟩ => inferInstanceAs (Decidable (_ ∨ _))

section Handlers

variable {st st' : ReadState} (hopen : st.client.socketOpen = true) (hpending : st.pending = [])
include hopen hpending

omit hopen in
theorem live_closeConnection : st.closeConnection.Live := Or.inl ⟨rfl, hpending⟩

theorem not_live_self : ¬ st.Live := by
  rintro (⟨hclosed, -⟩ | ⟨-, hone⟩)
  · rw [hopen] at hclosed
    cases hclosed
  · rw [hpending] at hone
    cases hone

theorem live_asyncReadPbHeader : st.asyncReadPbHeader.Live := by
  refine Or.inr ⟨hopen, ?_⟩
  rw [asyncReadPbHeader, hpending]
  rfl

theorem live_doReadPbHeader_iff {binBuffer : Bytes}
    (h : st.doReadPbHeader false binBuffer = some st') :
    st'.Live ↔ (Header.parseFromArray binBuffer).2 = true ∧
      (bodyHandler (Header.parseFromArray binBuffer).1.command).isSome = true := by
  simp only [doReadPbHeader, Bool.false_eq_true, if_false] at h
  split at h
  · rename_i hparse
    obtain ⟨resized, -, rfl⟩ := Option.map_eq_some_iff.mp h
    cases hcommand : bodyHandler (Header.parseFromArray binBuffer).1.command with
    | none =>
        refine iff_of_false ?_ (by simp)
        exact @not_live_self { st with readBuffer := resized } hopen hpending
    | some handler =>
        refine iff_of_true (Or.inr ⟨hopen, ?_⟩) ⟨hparse, rfl⟩
        simp [asyncReadBody, hpending]
  · rename_i hparse
    cases h
    exact iff_of_false (not_live_self hopen hpending) fun hboth => hparse hboth.1

/-- A success changes the client and not the socket. -/
theorem live_readResponse_iff {member : Response → Option (Status × (Client → Client))}
    (hmember : ∀ response status update, member response = some (status, update) →
      ∀ c : Client, (update c).socketOpen = c.socketOpen) :
    (readResponse member st false).Live ↔
      (Client.parseBuffer st.readBuffer).2 = false ∨
        (member (Client.parseBuffer st.readBuffer).1).isSome = true := by
  simp only [readResponse, Bool.false_eq_true, if_false]
  split
  · rename_i hparse
    cases hfound : member (Client.parseBuffer st.readBuffer).1 with
    | none => exact iff_of_false (not_live_self hopen hpending) (by simp [hparse])
    | some found =>
        obtain ⟨status, update⟩ := found
        refine iff_of_true ?_ (Or.inr rfl)
        dsimp only
        split
        · exact @live_asyncReadPbHeader { st with client := update st.client }
            ((hmember _ _ _ hfound st.client).trans hopen) hpending
        · exact live_closeConnection hpending
  · rename_i hparse
    exact iff_of_true (live_closeConnection hpending) (Or.inl (Bool.not_eq_true _ ▸ hparse))

theorem live_runBody_iff (handler : BodyHandler) :
    (runBody handler st false).Live ↔
      (Client.parseBuffer st.readBuffer).2 = false ∨
        Finds handler (Client.parseBuffer st.readBuffer).1 := by
  cases handler with
  | doReadInputResponse =>
      refine live_readResponse_iff hopen hpending ?_
      intro response status update hfound c
      cases response <;> cases hfound
      rfl
  | doReadRegResponse =>
      refine live_readResponse_iff hopen hpending ?_
      intro response status update hfound c
      cases response <;> cases hfound
      rfl
  | doReadJoinRoomResponse =>
      refine live_readResponse_iff hopen hpending ?_
      intro response status update hfound c
      cases response <;> cases hfound
      rfl
  | doReadEchoResponse =>
      refine iff_of_true ?_ (Or.inr trivial)
      let m := Client.textResponse (Client.parseBuffer st.readBuffer).1
      exact @live_asyncReadPbHeader
        { st with client := st.client.pushBack ⟨m.login, m.text, m.roomId⟩ } hopen hpending

omit hopen in
theorem live_runBody_failed (handler : BodyHandler) : (runBody handler st true).Live := by
  cases handler <;> exact live_closeConnection hpending

end Handlers

/-- A handler leaves the client live exactly when the condition holds of what it was
given. -/
theorem live_iff_continues {st st' : ReadState} {e : ReadEvent} (hlive : st.Live)
    (hstep : Step st e st') : st'.Live ↔ st.Continues e := by
  obtain ⟨client, readBuffer, pending⟩ := st
  rcases hlive with ⟨-, hnone⟩ | ⟨hopen, hone⟩
  · simp only at hnone
    subst hnone
    cases hstep
  · obtain ⟨read, hread⟩ := List.length_eq_one_iff.mp hone
    simp only at hread hopen
    subst hread
    cases read with
    | header =>
        cases e with
        | failed =>
            cases hstep
            exact iff_of_true (Or.inl ⟨rfl, rfl⟩) trivial
        | bytes data =>
            obtain ⟨-, hrun⟩ := Option.ite_none_right_eq_some.mp hstep
            exact @live_doReadPbHeader_iff ⟨client, readBuffer, []⟩ st' hopen rfl data hrun
    | body handler =>
        cases e with
        | failed =>
            cases hstep
            exact iff_of_true (@live_runBody_failed ⟨client, readBuffer, []⟩ rfl handler) trivial
        | bytes data =>
            obtain ⟨-, hrun⟩ := Option.ite_none_right_eq_some.mp hstep
            cases hrun
            exact @live_runBody_iff ⟨client, data, []⟩ hopen rfl handler

/-- **The client's read loop.**  After every handler of a run the socket is closed or
exactly one read is pending, if and only if every completion meets the condition. -/
theorem live_iff_guarded {clientId : Identifier} {login : Bytes} {es : List ReadEvent}
    {st : ReadState} (h : Run Step (start clientId login) es st) :
    (∀ es₁ es₂ u, es = es₁ ++ es₂ → Run Step (start clientId login) es₁ u → u.Live) ↔
      Run (Guarded Continues Step) (start clientId login) es st := by
  refine Run.always_iff_guarded ?_ ?_ ?_ (fun _ hlive => hlive) h (Or.inr ⟨rfl, rfl⟩)
  · intro s e t t' ht ht'
    exact Option.some.inj (ht.symm.trans ht')
  · intro s e t hstep hlive hguard
    exact (live_iff_continues hlive hstep).mpr hguard
  · intro s e t hstep hlive hlive'
    exact (live_iff_continues hlive hstep).mp hlive'

/-- A text, and then the end of the stream. -/
theorem live_iff_guarded_text :
    let text := MsgFactory.createTextResponse (ascii "u") 1 (ascii "hi")
    let header := MsgFactory.createHeader .echoResponse text.serialize.length
    let es : List ReadEvent := [.bytes header.serialize, .bytes text.serialize, .failed]
    ∃ st, Run Step (start 7 (ascii "u")) es st ∧
      ∀ es₁ es₂ u, es = es₁ ++ es₂ → Run Step (start 7 (ascii "u")) es₁ u → u.Live := by
  intro text header es
  have hend : (es.foldlM (fun st e => if Continues st e then st.complete e else none)
      (start 7 (ascii "u"))).map (fun st => st.client.socketOpen) = some false := by
    decide +kernel
  obtain ⟨st, hst, -⟩ := Option.map_eq_some_iff.mp hend
  have hguarded : Run (Guarded Continues Step) (start 7 (ascii "u")) es st := by
    refine (Run.iff_foldlM.mpr hst).mono ?_
    intro s e t hstep
    exact Option.ite_none_right_eq_some.mp hstep
  exact ⟨st, hguarded.of_guarded, (live_iff_guarded hguarded.of_guarded).mpr hguarded⟩

/-- A header with a command the client does not know: the socket is open, and nothing
is read any more. -/
theorem not_live_unknown_command :
    ¬ ∀ (es : List ReadEvent) (st : ReadState), Run Step (start 7 (ascii "u")) es st → st.Live := by
  intro h
  let es : List ReadEvent := [.bytes (Header.serialize ⟨1, 9, 5⟩)]
  have hend : (es.foldlM complete (start 7 (ascii "u"))).map
      (fun st => (st.client.socketOpen, st.pending)) = some (true, []) := by
    decide +kernel
  obtain ⟨st, hst, hstate⟩ := Option.map_eq_some_iff.mp hend
  obtain ⟨hopen, hpending⟩ := Prod.mk.inj hstate
  exact not_live_self hopen hpending (h es st (Run.iff_foldlM.mpr hst))

end ReadState

end AppChat
