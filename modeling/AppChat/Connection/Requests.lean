/-
  `Connection.Requests`: the requests a client makes, as the server reads them.

  After every completion the read loop of a connection has posted the tasks of the requests
  it has read whole.  What a request brings is short enough to be handed on: the texts and
  the notices made of it fit into a response again.
-/
import AppChat.Client.BodySize
import AppChat.Connection.Provenance
import AppChat.Connection.Segments
import AppChat.Foundation.FrameReader
import AppChat.Protocol.Merging

set_option autoImplicit false

namespace AppChat

open Foundation Serialize Protocol Connection

/-! ## Requests -/

namespace Protocol.FactoryMessage

/-- The task a request is read as. -/
def task : FactoryMessage → Option Task
  | .inputRequest login password =>
      some ⟨.doAutorisation, MsgFactory.createInputRequest login password⟩
  | .regRequest login password => some ⟨.doRegistration, MsgFactory.createRegRequest login password⟩
  | .joinRoomRequest roomId => some ⟨.doJoinRoom, MsgFactory.joinRoomRequest roomId⟩
  | .textRequest login roomId text =>
      some ⟨.doTextMsg, MsgFactory.createTextRequest login roomId text⟩
  | _ => none

/-- A request in UTF-8, without what the statements cannot quote, and short enough. -/
def Sendable (m : FactoryMessage) : Prop :=
  ∃ t, m.task = some t ∧ t.request.Utf8 ∧ t.Plain ∧ 2 * t.request.textLength + 128 < 2 ^ 31

instance (m : FactoryMessage) : Decidable m.Sendable :=
  match h : m.task with
  | none => isFalse fun ⟨_, ht, _⟩ => nomatch h.symm.trans ht
  | some t =>
      have : Decidable t.request.Utf8 :=
        match t.request with
        | .registerRequest _ | .inputRequest _ | .textRequest _ => inferInstanceAs (Decidable (_ ∧ _))
        | .msgNotSet | .joinRoomRequest _ => inferInstanceAs (Decidable True)
      decidable_of_iff (t.request.Utf8 ∧ t.Plain ∧ 2 * t.request.textLength + 128 < 2 ^ 31)
        ⟨fun ht => ⟨t, h, ht⟩, fun ⟨_, ht, hrest⟩ => Option.some.inj (h.symm.trans ht) ▸ hrest⟩

/-- The frame of a sendable request, as the read loop takes it. -/
theorem Sendable.frame {m : FactoryMessage} (h : m.Sendable) :
    m.body.length < 2 ^ 31 ∧ ∃ f : RequestFrame,
      f.headerBytes = m.header.serialize ∧ f.body = m.body ∧ f.header = m.header ∧
        m.task = some f.task := by
  obtain ⟨t, ht, hutf, -, hshort⟩ := h
  have hsize : t.request.serialize.length < 2 ^ 31 := by
    have hle := t.request.length_serialize_le
    omega
  have hframe : m.message = .request t.request →
      handlerOf m.command.code.toUInt32 = some t.handler → t.handler.Serves t.request →
      m.body.length < 2 ^ 31 ∧ ∃ f : RequestFrame,
        f.headerBytes = m.header.serialize ∧ f.body = m.body ∧ f.header = m.header ∧
          m.task = some f.task := by
    intro hmessage hhandler hserves
    have hbody : m.body = t.request.serialize := by
      rw [body, hmessage]
      rfl
    have hheader : m.header = MsgFactory.createHeader m.command t.request.serialize.length := by
      rw [header_eq, hbody]
    refine ⟨hbody ▸ hsize, RequestFrame.ofRequest m.command t.request t.handler hhandler hserves hutf
      (hbody ▸ m.body_pos) hsize, ?_, hbody.symm, hheader.symm, ht⟩
    rw [hheader]
    rfl
  cases m with
  | inputRequest _ _ | regRequest _ _ | joinRoomRequest _ | textRequest _ _ _ =>
      cases ht
      exact hframe rfl rfl trivial
  | _ => cases ht

end Protocol.FactoryMessage

/-! ## The read loop -/

namespace Connection.SocketReader

theorem sizeHeader_pos : 0 < sizeHeader := by decide

/-- The read loop reads the frames of sendable requests. -/
def frames : FrameReader program {m : FactoryMessage // m.Sendable} where
  header m := m.1.header.serialize
  body m := m.1.body
  headerSize := sizeHeader
  headerSize_pos := sizeHeader_pos
  length_header m := m.1.length_header m.2.frame.1
  Idle done r := r.pending = .header ∧ r.posted = done.filterMap (·.1.task)
  Within done m r := r.pending = .body m.1.header ∧ r.bufferMsg.length = m.1.body.length ∧
    r.posted = done.filterMap (·.1.task)
  Stopped done r := r.pending = .closed ∧ r.posted = done.filterMap (·.1.task)
  size_idle := by
    rintro done r ⟨hpending, -⟩
    show r.size = _
    rw [size, hpending]
  size_within := by
    rintro done m r ⟨hpending, -, -⟩
    obtain ⟨-, f, -, hbody, hheader, -⟩ := m.2.frame
    show r.size = _
    rw [size, hpending, ← hbody, f.length_body, hheader]
  size_stopped := by
    rintro done r ⟨hpending, -⟩
    show r.size = _
    rw [size, hpending]
  full_header := by
    rintro done r m ⟨hpending, hposted⟩
    obtain ⟨hsize, f, hheaderBytes, hbody, hheader, -⟩ := m.2.frame
    have hparse : Header.parseFromArray m.1.header.serialize = (m.1.header, true) := by
      rw [← hheaderBytes, ← hheader]
      exact f.parse_headerBytes
    have hlength : m.1.header.length.toNat = m.1.body.length := by
      rw [← hheader, ← hbody, f.length_body]
    have hmax : m.1.body.length ≤ maxSize := hsize.le.trans (by decide)
    obtain ⟨resized, hresized⟩ := (@exists_resize_iff r.bufferMsg m.1.body.length).mpr hmax
    have hfull : program.full r m.1.header.serialize =
        { r with bufferMsg := resized, pending := .body m.1.header } := by
      show r.full _ = _
      simp only [full, hpending, doParsePbHeader, hparse, if_true, hlength, hresized]
    rw [hfull]
    exact ⟨rfl, (length_resize hresized).1, hposted⟩
  full_body := by
    rintro done m r ⟨hpending, hlength, hposted⟩
    obtain ⟨-, f, -, hbody, hheader, htask⟩ := m.2.frame
    have hbuffer : m.1.body ++ r.bufferMsg.drop m.1.body.length = m.1.body := by
      rw [List.drop_eq_nil_of_le hlength.le, List.append_nil]
    have hprocess : processMsg m.1.header m.1.body = [f.task] := by
      rw [← hheader, ← hbody, processMsg, f.handlerOf_command, parseBuffer_body f]
      rfl
    have hfull : program.full r m.1.body =
        { bufferMsg := m.1.body, pending := .header, posted := r.posted ++ [f.task] } := by
      show r.full _ = _
      simp only [full, hpending, bodyRead, hbuffer, hprocess]
    left
    rw [hfull]
    refine ⟨rfl, ?_⟩
    rw [List.filterMap_append, hposted]
    simp only [List.filterMap_cons, htask, List.filterMap_nil]
  failed_idle := by
    rintro done r data ⟨hpending, hposted⟩
    have hfailed : program.failed r data = { r with pending := .closed } := by
      show r.failed _ = _
      simp only [failed, hpending]
    rw [hfailed]
    exact ⟨rfl, hposted⟩

theorem stream_frames (ms : List {m : FactoryMessage // m.Sendable}) :
    frames.stream ms = ((ms.map (·.1)).map FactoryMessage.frame).flatten := by
  rw [FrameReader.stream, List.flatMap_def, List.map_map]
  refine congrArg List.flatten (List.map_congr_left fun m _ => ?_)
  exact (m.1.frame_eq m.2.frame.1).symm

/-- Wherever the loop is, it has posted the tasks of what it has read. -/
theorem posted_of_tracks {todo done : List {m : FactoryMessage // m.Sendable}}
    {r : Receiver SocketReader UInt8} (h : frames.Tracks todo done r) :
    r.state.posted = done.filterMap (·.1.task) := by
  obtain ⟨consumed, hat, -⟩ := h
  cases hat with
  | idle _ hidle => exact hidle.2
  | within _ hwithin => exact hwithin.2.2
  | stopped _ hstopped => exact hstopped.2

end Connection.SocketReader

/-! ## What the server hands on fits into a response -/

namespace Connection

/-- Every request is one a client can make. -/
def Sent (asked : List PoolJob) : Prop :=
  ∀ s t, .request s t ∈ asked → ∃ m : FactoryMessage, m.task = some t ∧ m.Sendable

variable {asked : List PoolJob}

/-- A login that has been asked for is UTF-8 and short. -/
theorem Named.short (hsent : Sent asked) {login : Bytes} (h : Named asked login) :
    ProtoWire.validUtf8 login = true ∧ 2 * login.length + 128 < 2 ^ 31 := by
  cases h with
  | asked hmem =>
      obtain ⟨job, hjob, hlogin⟩ := List.mem_filterMap.mp hmem
      cases job with
      | response o => cases hlogin
      | request s t =>
          obtain ⟨m, ht, t', ht', hutf, -, hshort⟩ := hsent s t hjob
          cases ht.symm.trans ht'
          cases m with
          | inputRequest login password =>
              cases ht
              cases hlogin
              have hle : 2 * (login.length + password.length) + 128 < 2 ^ 31 := hshort
              exact ⟨hutf.1, show 2 * login.length + 128 < 2 ^ 31 by omega⟩
          | regRequest login password =>
              cases ht
              cases hlogin
              have hle : 2 * (login.length + password.length) + 128 < 2 ^ 31 := hshort
              exact ⟨hutf.1, show 2 * login.length + 128 < 2 ^ 31 by omega⟩
          | joinRoomRequest _ | textRequest _ _ _ =>
              cases ht
              cases hlogin
          | _ => cases ht
  | fresh => exact ⟨rfl, by decide⟩
  | freed => exact ⟨by decide, by decide⟩

/-- A notice is UTF-8 and short. -/
theorem short_notice {login word : Bytes} (roomId : Identifier) (hword : ∀ b ∈ word, b < 0x80)
    (hlength : word.length ≤ 20)
    (h : ProtoWire.validUtf8 login = true ∧ 2 * login.length + 128 < 2 ^ 31) :
    ProtoWire.validUtf8 (login ++ word ++ decimal roomId.toInt) = true ∧
      login.length + (login ++ word ++ decimal roomId.toInt).length + 50 < 2 ^ 31 := by
  have hdecimal : ∀ b ∈ decimal roomId.toInt, b < 0x80 := by
    intro b hb
    rw [UInt8.lt_iff_toNat_lt]
    rcases decimal_byte hb with rfl | ⟨-, hle⟩
    · decide
    · exact lt_of_le_of_lt hle (by decide)
  have hshort : (decimal roomId.toInt).length ≤ 11 :=
    length_decimal_le (Int32.le_toInt roomId) (Int32.toInt_lt roomId)
  constructor
  · exact ProtoWire.validUtf8_append
      (ProtoWire.validUtf8_append h.1 (ProtoWire.validUtf8_of_ascii hword))
      (ProtoWire.validUtf8_of_ascii hdecimal)
  · rw [List.length_append, List.length_append]
    omega

/-- What is handed out can be read by the client it is for. -/
theorem Sourced.readable (hsent : Sent asked) {data : TextSendData} (h : Sourced asked data) :
    (MsgFactory.createTextResponse data.login data.roomId data.text).Utf8 ∧
      (FactoryMessage.textResponse data.login data.roomId data.text).body.length < 2 ^ 31 := by
  have hfits : ProtoWire.validUtf8 data.login = true → ProtoWire.validUtf8 data.text = true →
      data.login.length + data.text.length + 50 < 2 ^ 31 →
      (MsgFactory.createTextResponse data.login data.roomId data.text).Utf8 ∧
        (FactoryMessage.textResponse data.login data.roomId data.text).body.length < 2 ^ 31 :=
    fun hlogin htext hlt => ⟨⟨hlogin, htext⟩,
      lt_of_le_of_lt (FactoryMessage.length_body_response_le
        (MsgFactory.createTextResponse data.login data.roomId data.text)) hlt⟩
  cases h with
  | text hmem =>
      obtain ⟨job, hjob, hdata⟩ := List.mem_filterMap.mp hmem
      cases job with
      | response o => cases hdata
      | request s t =>
          obtain ⟨m, ht, t', ht', hutf, -, hshort⟩ := hsent s t hjob
          cases ht.symm.trans ht'
          cases m with
          | textRequest login roomId text =>
              cases ht
              cases hdata
              have hle : 2 * (login.length + text.length) + 128 < 2 ^ 31 := hshort
              exact hfits hutf.1 hutf.2 (show login.length + text.length + 50 < 2 ^ 31 by omega)
          | inputRequest _ _ | regRequest _ _ | joinRoomRequest _ =>
              cases ht
              cases hdata
          | _ => cases ht
  | @joined login roomId hnamed =>
      obtain ⟨hutf, hlt⟩ := @short_notice login (ascii " joined to room_id=") roomId
        (by decide +kernel) (by decide) (hnamed.short hsent)
      exact hfits (hnamed.short hsent).1 hutf hlt
  | @left login roomId hnamed =>
      obtain ⟨hutf, hlt⟩ := @short_notice login (ascii " leave from room_id=") roomId
        (by decide +kernel) (by decide) (hnamed.short hsent)
      exact hfits (hnamed.short hsent).1 hutf hlt

end Connection

end AppChat
