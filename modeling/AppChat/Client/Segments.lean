/-
  `Client.Segments`: what a client reads from the socket of its connection.

  The handlers of `Client.ReadHandlers` are run as their reads complete, and the reads get
  what the network brings.  As long as every write on the server's socket is started
  alone, a client reads the responses one after the other, each once and whole.
-/
import AppChat.Client.ReadHandlers
import AppChat.Client.RoomHistory
import AppChat.Foundation.AsyncRead

set_option autoImplicit false

namespace AppChat

open Foundation Storage Serialize Protocol Connection

namespace ReadState

/-! ## The handlers as a program that reads -/

/-- The pending `async_read`. -/
def size (st : ReadState) : Option Nat :=
  match st.pending with
  | [] => none
  | .header :: _ => some sizeHeader
  | .body _ :: _ => some st.readBuffer.length

/-- The state after a completion.  When the process ends nothing is read any more. -/
def completed (st : ReadState) (e : ReadEvent) : ReadState :=
  (st.complete e).getD { st with pending := [] }

/-- The read loop of the client as a program that reads a stream. -/
def program : ReadProgram ReadState UInt8 where
  size := size
  full st data := st.completed (.bytes data)
  failed st _ := st.completed .failed

/-! ## One frame -/

/-- A handler that goes on reading has done what it does to the client. -/
theorem runBody_cases {st : ReadState} (hpending : st.pending = [])
    (hreading : st.client.reading = true) (handler : BodyHandler) :
    (runBody handler st false).pending = [.header] ∧
        (runBody handler st false).client = clientHandler handler st.client st.readBuffer ∨
      (clientHandler handler st.client st.readBuffer).reading = false := by
  have heq := clientHandler_eq hpending hreading handler
  have hcases : (runBody handler st false).pending = [] ∨
      (runBody handler st false).pending = [.header] ∧
        (runBody handler st false).client.reading = true := by
    have hresponse : ∀ member : Response → Option (Status × (Client → Client)),
        (∀ r p, member r = some p → ∀ c : Client, (p.2 c).reading = c.reading) →
        (readResponse member st false).pending = [] ∨
          (readResponse member st false).pending = [.header] ∧
            (readResponse member st false).client.reading = true := by
      intro member hmember
      simp only [readResponse, Bool.false_eq_true, if_false]
      split
      · split
        · exact Or.inl hpending
        · rename_i status update hfound
          split
          · refine Or.inr ⟨?_, ?_⟩
            · rw [asyncReadPbHeader, hpending]
              rfl
            · exact (hmember _ _ hfound st.client).trans hreading
          · exact Or.inl hpending
      · exact Or.inl hpending
    cases handler with
    | doReadInputResponse =>
        refine hresponse inputMember fun r p hp c => ?_
        cases r <;> cases hp
        rfl
    | doReadRegResponse =>
        refine hresponse regMember fun r p hp c => ?_
        cases r <;> cases hp
        rfl
    | doReadJoinRoomResponse =>
        refine hresponse joinRoomMember fun r p hp c => ?_
        cases r <;> cases hp
        rfl
    | doReadEchoResponse =>
        refine Or.inr ⟨?_, hreading⟩
        show st.pending ++ [.header] = [.header]
        rw [hpending]
        rfl
  rcases hcases with hnone | ⟨hheader, hkept⟩
  · right
    rw [heq, hnone]
    rfl
  · refine Or.inl ⟨hheader, ?_⟩
    have hset : ∀ c : Client, c.reading = true → c = { c with reading := true } := by
      rintro ⟨_, _, _, _, _⟩ rfl
      rfl
    rw [heq, hheader]
    exact hset _ hkept

variable {c : Client} {buffer : Bytes} {m : FactoryMessage} {ended : Bool}

/-- The header of a frame makes room for its body. -/
theorem completed_header {handler : BodyHandler}
    (hhandler : bodyHandler m.header.command = some handler) (hsize : m.body.length < 2 ^ 31) :
    ∃ resized, resized.length = m.body.length ∧
      (⟨c, buffer, [.header]⟩ : ReadState).completed (.bytes m.header.serialize) =
        ⟨c, resized, [.body handler]⟩ := by
  have hlength : m.header.length.toNat = m.body.length := by
    rw [m.header_eq]
    exact (UInt64.toNat_ofNat').trans (Nat.mod_eq_of_lt (by omega))
  have hmax : m.body.length ≤ maxSize := hsize.le.trans (by decide)
  obtain ⟨resized, hresized⟩ := (@exists_resize_iff buffer m.body.length).mpr hmax
  refine ⟨resized, (length_resize hresized).1, ?_⟩
  simp only [completed, complete, m.length_header hsize, if_true, doReadPbHeader,
    Bool.false_eq_true, if_false, Header.parseFromArray_serialize, asyncReadPbMsg, hlength,
    hresized, Option.map_some, hhandler, asyncReadBody, List.nil_append, Option.getD_some]

/-- A welcome frame is read in two turns. -/
theorem reads_frame (hreading : c.reading = true) (hm : Client.Welcome m) {stream rest : Bytes}
    {st' : ReadState}
    (h : program.Reads ended ⟨c.after m, m.body, [.header]⟩ stream st' rest) :
    program.Reads ended ⟨c, buffer, [.header]⟩ (m.frame ++ stream) st' rest := by
  obtain ⟨hsize, ⟨clientRead, hread⟩, hafter, -⟩ := c.reads_of_welcome hm
  obtain ⟨handler, hhandler, rfl⟩ := Option.map_eq_some_iff.mp ((readHandler_eq _).symm.trans hread)
  obtain ⟨resized, hlength, hheader⟩ := @completed_header c buffer m handler hhandler hsize
  have hdone : c.after m = clientHandler handler c m.body := by
    rw [Client.after, hread]
  have hframe : m.frame ++ stream = m.header.serialize ++ (m.body ++ stream) := by
    rw [m.frame_eq hsize, List.append_assoc]
  have hbody : (⟨c, resized, [.body handler]⟩ : ReadState).completed (.bytes m.body) =
      ⟨c.after m, m.body, [.header]⟩ := by
    have hrun : (⟨c, resized, [.body handler]⟩ : ReadState).completed (.bytes m.body) =
        runBody handler ⟨c, m.body, []⟩ false := by
      simp only [completed, complete, hlength, if_true, Option.getD_some]
    have hbuffer : (runBody handler ⟨c, m.body, []⟩ false).readBuffer = m.body := by
      have hresponse : ∀ member,
          (readResponse member ⟨c, m.body, []⟩ false).readBuffer = m.body := by
        intro member
        simp only [readResponse, Bool.false_eq_true, if_false]
        split
        · split
          · rfl
          · split <;> rfl
        · rfl
      cases handler with
      | doReadEchoResponse => rfl
      | _ => exact hresponse _
    rcases @runBody_cases ⟨c, m.body, []⟩ rfl hreading handler with ⟨hpending, hclient⟩ | hstopped
    · rw [hrun, hdone, ← hclient, ← hpending]
      exact ReadState.mk.injEq .. |>.mpr ⟨rfl, hbuffer, rfl⟩
    · rw [← hdone, hafter, hreading] at hstopped
      cases hstopped
  rw [hframe]
  refine .full rfl ?_ ?_
  · rw [List.length_append, m.length_header hsize]
    exact Nat.le_add_right _ _
  · rw [List.take_left' (m.length_header hsize), List.drop_left' (m.length_header hsize)]
    show program.Reads ended (completed _ _) _ _ _
    rw [hheader]
    refine .full rfl ?_ ?_
    · rw [List.length_append, hlength]
      exact Nat.le_add_right _ _
    · rw [List.take_left' hlength.symm, List.drop_left' hlength.symm]
      show program.Reads ended (completed _ _) _ _ _
      rw [hbody]
      exact h

/-- A part of a frame changes nothing on the client. -/
theorem reads_part {stream more : Bytes} (hm : Client.Welcome m) (hpart : stream <+: m.frame ++ more)
    (hshort : stream.length < m.frame.length) :
    ∃ st' rest, program.Reads false ⟨c, buffer, [.header]⟩ stream st' rest ∧ st'.client = c := by
  obtain ⟨hsize, ⟨clientRead, hread⟩, -, -⟩ := c.reads_of_welcome hm
  obtain ⟨handler, hhandler, rfl⟩ := Option.map_eq_some_iff.mp ((readHandler_eq _).symm.trans hread)
  obtain ⟨resized, hlength, hheader⟩ := @completed_header c buffer m handler hhandler hsize
  rcases Nat.lt_or_ge stream.length sizeHeader with hnone | hlong
  · exact ⟨_, _, .wait rfl hnone rfl, rfl⟩
  · -- the header has come, the body has not
    have hframe : m.frame.length = sizeHeader + m.body.length := by
      rw [m.frame_eq hsize, List.length_append, m.length_header hsize]
    have htake : stream.take sizeHeader = m.header.serialize := by
      obtain ⟨rest, hrest⟩ := hpart
      have hwhole : (stream ++ rest).take sizeHeader = m.header.serialize := by
        rw [hrest, m.frame_eq hsize, List.append_assoc, List.take_left' (m.length_header hsize)]
      rwa [List.take_append_of_le_length hlong] at hwhole
    have hwait : (stream.drop sizeHeader).length < resized.length := by
      rw [List.length_drop, hlength]
      omega
    refine ⟨⟨c, resized, [.body handler]⟩, stream.drop sizeHeader, .full rfl hlong ?_, rfl⟩
    rw [htake]
    show program.Reads false (completed _ _) _ _ _
    rw [hheader]
    exact .wait rfl hwait rfl

/-- Of the frames of `todo` some bytes have come: the client has read those that are
whole. -/
theorem reads_of_prefix (hreading : c.reading = true) {todo : List FactoryMessage}
    (htodo : ∀ m ∈ todo, Client.Welcome m) {stream : Bytes}
    (hstream : stream <+: todo.flatMap FactoryMessage.frame) :
    ∃ done rest left st' unread, todo = done ++ rest ∧
      stream = done.flatMap FactoryMessage.frame ++ left ∧
      (∀ m ms, rest = m :: ms → left.length < m.frame.length) ∧
      program.Reads false ⟨c, buffer, [.header]⟩ stream st' unread ∧
      st'.client = done.foldl Client.after c := by
  induction todo generalizing c buffer stream with
  | nil =>
      obtain rfl := List.prefix_nil.mp hstream
      exact ⟨[], [], [], _, _, rfl, rfl, nofun, .wait rfl (by decide) rfl, rfl⟩
  | cons m todo ih =>
      obtain ⟨hm, hrest⟩ := List.forall_mem_cons.mp htodo
      obtain ⟨hsize, -, hafter, -⟩ := c.reads_of_welcome hm
      rw [List.flatMap_cons] at hstream
      by_cases hshort : stream.length < m.frame.length
      · obtain ⟨st', unread, hreads, hclient⟩ := @reads_part c buffer m stream _ hm hstream hshort
        refine ⟨[], m :: todo, stream, st', unread, rfl, rfl, ?_, hreads, hclient⟩
        rintro _ _ ⟨⟩
        exact hshort
      · -- the first frame is whole
        have hwhole : m.frame <+: stream :=
          List.prefix_of_prefix_length_le (List.prefix_append _ _) hstream (by omega)
        obtain ⟨stream', rfl⟩ := hwhole
        have hstream' : stream' <+: todo.flatMap FactoryMessage.frame :=
          (List.prefix_append_right_inj _).mp hstream
        obtain ⟨done, rest, left, st', unread, rfl, rfl, hwait, hreads, hclient⟩ :=
          @ih (c.after m) m.body (hafter.trans hreading) hrest stream' hstream'
        refine ⟨m :: done, rest, left, st', unread, rfl, ?_, hwait,
          reads_frame hreading hm hreads, hclient⟩
        rw [List.flatMap_cons, List.append_assoc]

end ReadState

/-! ## From the server's socket to the client -/

namespace Connection.WritingServer

variable {D : DatabaseOps}

theorem exists_responses {bs : List Bytes} (h : ∀ b ∈ bs, IsFrame b) :
    ∃ responses : List FactoryMessage, bs = responses.map FactoryMessage.frame := by
  induction bs with
  | nil => exact ⟨[], rfl⟩
  | cons b bs ih =>
      obtain ⟨⟨o, rfl⟩, hrest⟩ := List.forall_mem_cons.mp h
      obtain ⟨responses, rfl⟩ := ih hrest
      exact ⟨o.response :: responses, rfl⟩

theorem kept_of_run {db : D.State} {clientIds : ConnectionId → Identifier} {es : List SocketEvent}
    {st : WritingServer D} (h : Run (Guarded Alone Step) (start db clientIds) es st) : Kept st :=
  h.invariant (fun _ _ _ hstep hkept => kept_step hstep.2 hkept hstep.1) (kept_start db clientIds)

/-- **Responses arrive whole and in order.**  Let every write be started alone, and let a
client get, in any segments, a part of what has been sent to it.  When it has nothing more
to read it has handled exactly the responses that have come whole, in the order their
writes were started; and all of them when the socket is open and idle and everything sent
has come. -/
theorem client_eq_foldl_responses {db : D.State} {clientIds : ConnectionId → Identifier}
    {es : List SocketEvent} {st : WritingServer D}
    (h : Run (Guarded Alone Step) (start db clientIds) es st) (s : ConnectionId)
    {clientId : Identifier} {login : Bytes} {arrivals : List (StreamEvent UInt8)}
    {r : Reading ReadState UInt8}
    (hreader : Run (Reading.Step ReadState.program) { state := ReadState.start clientId login }
      arrivals r)
    (hrest : r.AtRest ReadState.program) (hopen : r.ended = false)
    (harrived : StreamEvent.segments arrivals <+: (st.links s).socket.sent) :
    (∃ responses : List FactoryMessage,
        (st.links s).socket.started = responses.map FactoryMessage.frame) ∧
      ∀ responses : List FactoryMessage,
        (st.links s).socket.started = responses.map FactoryMessage.frame →
        (∀ m ∈ responses, Client.Welcome m) →
          ∃ done rest left, responses = done ++ rest ∧
            StreamEvent.segments arrivals = done.flatMap FactoryMessage.frame ++ left ∧
            (∀ m ms, rest = m :: ms → left.length < m.frame.length) ∧
            r.state.client = done.foldl Client.after (ReadState.start clientId login).client ∧
            ((st.server.connections s).socketOpen = true → (st.links s).socket.pending = [] →
              StreamEvent.segments arrivals = (st.links s).socket.sent → rest = []) := by
  have hkept := kept_of_run h s
  refine ⟨exists_responses hkept.frames, ?_⟩
  intro responses hstarted hwelcome
  have hflatten : (st.links s).socket.started.flatten = responses.flatMap FactoryMessage.frame := by
    rw [hstarted, List.flatMap_def]
  have hprefix : StreamEvent.segments arrivals <+: responses.flatMap FactoryMessage.frame :=
    hflatten ▸ harrived.trans hkept.cut
  obtain ⟨done, rest, left, st', unread, rfl, hstream, hwait, hreads, hclient⟩ :=
    @ReadState.reads_of_prefix (ReadState.start clientId login).client [] rfl responses hwelcome _
      hprefix
  have hread := Reading.reads_of_run hreader hrest
  rw [hopen] at hread
  obtain ⟨hstate, -⟩ := hread.deterministic hreads
  refine ⟨done, rest, left, rfl, hstream, hwait, ?_, ?_⟩
  · rw [hstate]
    exact hclient
  · intro hsocket hidle hall
    have hwhole := (hkept.whole hsocket).sent_eq hidle
    rw [hflatten, ← hall, hstream, List.flatMap_append, List.append_cancel_left_eq] at hwhole
    cases rest with
    | nil => rfl
    | cons m ms =>
        have hlt := hwait m ms rfl
        rw [hwhole, List.flatMap_cons, List.length_append] at hlt
        omega

/-! ### A log in, a join and a text -/

/-- The event is the failure of a write to `s`. -/
def failsOn (s : ConnectionId) : SocketEvent → Bool
  | .fail t _ => t = s
  | _ => false

/-- What `Alone` asks of what an event hands out, and of the response it runs. -/
def messageAlone (st : WritingServer D) (e : SocketEvent) : Output → Bool
  | .message d =>
      failsOn d.recipient e || !(st.links d.recipient).sendMsgsQueue.isEmpty ||
        (st.links d.recipient).socket.pending.isEmpty
  | _ => true

/-- A response that is run finds its socket idle. -/
def responseAlone (st : WritingServer D) : SocketEvent → Bool
  | .run i =>
      match st.pool[i]? with
      | some (.response o) => (st.links o.recipient).socket.pending.isEmpty
      | _ => true
  | _ => true

theorem alone_iff_checked (st : WritingServer D) (e : SocketEvent) :
    ((st.outputs e).all (st.messageAlone e) = true ∧ st.responseAlone e = true) ↔ Alone st e := by
  have hfails : ∀ s, failsOn s e = true ↔ ∃ i, e = .fail s i := by
    intro s
    cases e with
    | fail t i => simp [failsOn]
    | _ => simp [failsOn]
  constructor
  · rintro ⟨hmessages, hresponse⟩
    constructor
    · intro d hd hfail hqueue
      have hchecked := List.all_eq_true.mp hmessages _ hd
      have hnot : failsOn d.recipient e = false := by
        rw [← Bool.not_eq_true, hfails]
        rintro ⟨i, heq⟩
        exact hfail i heq
      simpa [messageAlone, hnot, hqueue] using hchecked
    · rintro i o rfl hjob
      simpa [responseAlone, hjob] using hresponse
  · rintro ⟨hmessage, hresponse⟩
    constructor
    · rw [List.all_eq_true]
      intro o ho
      cases o with
      | message d =>
          simp only [messageAlone, Bool.or_eq_true, Bool.not_eq_true', List.isEmpty_iff]
          by_cases hfail : failsOn d.recipient e = true
          · exact Or.inl (Or.inl hfail)
          · by_cases hqueue : (st.links d.recipient).sendMsgsQueue = []
            · refine Or.inr (hmessage d ho (fun i heq => hfail ((hfails _).mpr ⟨i, heq⟩)) hqueue)
            · exact Or.inl (Or.inr (by simpa using hqueue))
      | _ => rfl
    · cases e with
      | run i =>
          simp only [responseAlone]
          split
          · rename_i o hjob
            simpa using hresponse i o rfl hjob
          · rfl
      | _ => rfl

instance (st : WritingServer D) (e : SocketEvent) : Decidable (Alone st e) :=
  decidable_of_iff _ (alone_iff_checked st e)

/-- A client logs in to the account 7, joins room 5 and types a text; the four responses
come in two segments. -/
theorem client_eq_foldl_responses_session :
    let db : Database memorySqlite := ⟨true, ⟨[⟨ascii "u", 7, ascii "pw"⟩], []⟩⟩
    let es : List SocketEvent :=
      [.read 1 ⟨.doAutorisation, .inputRequest ⟨ascii "u", ascii "pw"⟩⟩, .run 0, .run 0,
        .transmit 1 0 99, .complete 1 0, .read 1 ⟨.doJoinRoom, .joinRoomRequest ⟨5⟩⟩, .run 0,
        .transmit 1 0 99, .complete 1 0, .run 0, .transmit 1 0 99, .complete 1 0,
        .read 1 ⟨.doTextMsg, .textRequest ⟨ascii "u", 5, ascii "hi"⟩⟩, .run 0, .transmit 1 0 99,
        .complete 1 0]
    let responses : List FactoryMessage :=
      [.inputResponse 7, .textResponse (ascii "u") 5 (ascii "u joined to room_id=5"),
        .joinRoomResponse 5 true, .textResponse (ascii "u") 5 (ascii "hi")]
    let sent := responses.flatMap FactoryMessage.frame
    let arrivals : List (StreamEvent UInt8) :=
      [.segment (sent.take 20), .take 19, .complete, .take 1, .segment (sent.drop 20), .take 5,
        .complete, .take 19, .complete, .take 30, .complete, .take 19, .complete, .take 6,
        .complete, .take 19, .complete, .take 11, .complete]
    ∃ (st : WritingServer (sqlDatabase memorySqlite)) (r : Reading ReadState UInt8),
      Run (Guarded Alone Step) (start db fun _ => 0) es st ∧
      Run (Reading.Step ReadState.program) { state := ReadState.start 0 (ascii "u") } arrivals r ∧
      r.state.client.clientId = 7 ∧
      r.state.client.lines 5 =
        [⟨ascii "u", ascii "u joined to room_id=5", 5⟩, ⟨ascii "u", ascii "hi", 5⟩] := by
  intro db es responses sent arrivals
  have hserver : (es.foldlM (fun st e => if Alone st e then st.apply e else none)
      (start db fun _ => 0 : WritingServer (sqlDatabase memorySqlite))).map (fun st =>
        ((st.links 1).socket, (st.server.connections 1).socketOpen)) =
      some (⟨[], responses.map FactoryMessage.frame, sent⟩, true) := by
    decide +kernel
  have hclient : (arrivals.foldlM (Reading.apply ReadState.program)
      { state := ReadState.start 0 (ascii "u") }).map (fun r =>
        (r.state.pending, r.got, r.available, r.ended)) = some ([.header], [], [], false) := by
    decide +kernel
  obtain ⟨st, hst, hsocket⟩ := Option.map_eq_some_iff.mp hserver
  obtain ⟨r, hr, hreader⟩ := Option.map_eq_some_iff.mp hclient
  simp only [Prod.mk.injEq] at hsocket hreader
  obtain ⟨hlink, hopen⟩ := hsocket
  obtain ⟨hpending, hgot, havailable, hended⟩ := hreader
  have hrun : Run (Guarded Alone Step) (start db fun _ => 0) es st := Run.guarded_of_foldlM hst
  have hread : Run (Reading.Step ReadState.program) { state := ReadState.start 0 (ascii "u") }
      arrivals r := Run.iff_foldlM.mpr hr
  have hrest : r.AtRest ReadState.program := by
    refine Or.inr ⟨sizeHeader, ?_, ?_, havailable, hended⟩
    · show r.state.size = _
      rw [ReadState.size, hpending]
    · rw [hgot]
      decide
  have hsegments : StreamEvent.segments arrivals = sent := by decide +kernel
  have harrived : StreamEvent.segments arrivals <+: (st.links 1).socket.sent := by
    rw [hlink, hsegments]
  obtain ⟨-, hall⟩ := client_eq_foldl_responses hrun 1 hread hrest hended harrived
  have hstarted : (st.links 1).socket.started = responses.map FactoryMessage.frame := by
    rw [hlink]
  have hwelcome : ∀ m ∈ responses, Client.Welcome m := by decide +kernel
  obtain ⟨done, rest, left, hsplit, -, -, hclient, hdone⟩ := hall _ hstarted hwelcome
  obtain rfl := hdone hopen (by rw [hlink]) (by rw [hlink, hsegments])
  rw [List.append_nil] at hsplit
  have hend : (responses.foldl Client.after (ReadState.start 0 (ascii "u")).client).clientId = 7 ∧
      (responses.foldl Client.after (ReadState.start 0 (ascii "u")).client).lines 5 =
        [⟨ascii "u", ascii "u joined to room_id=5", 5⟩, ⟨ascii "u", ascii "hi", 5⟩] := by
    decide +kernel
  rw [hsplit, ← hclient] at hend
  exact ⟨st, r, hrun, hread, hend⟩

end Connection.WritingServer

end AppChat
