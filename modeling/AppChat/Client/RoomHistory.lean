/-
  `Client.RoomHistory`: the rooms as the clients see them.

  A connection carries the frames of the server to its client, in any pieces, without
  losing any and in order.  When everything has arrived, a client that has joined a room
  once has the history of the room, line by line, and one that has joined it again has
  more.
-/
import AppChat.Client.Client
import AppChat.Connection.Audience
import AppChat.Connection.Responses
import AppChat.Connection.Writes

set_option autoImplicit false

namespace AppChat

open Foundation Storage Serialize Protocol Connection

/-! ## Reading whole frames from pieces -/

namespace Client

/-- What the client adds to a room for a message. -/
def linesOf (r : Identifier) : FactoryMessage → List ClientTextMsg
  | .textResponse login roomId text => if r = roomId then [⟨login, text, roomId⟩] else []
  | _ => []

/-- A message after which the client reads on: a text in UTF-8, or an answer OK. -/
def Welcome : FactoryMessage → Prop
  | .textResponse login roomId text =>
      (MsgFactory.createTextResponse login roomId text).Utf8 ∧
        (FactoryMessage.textResponse login roomId text).body.length < 2 ^ 31
  | .inputResponse clientId | .regResponse clientId => clientId ≠ -1
  | .joinRoomResponse _ flag => flag = true
  | _ => False

instance (m : FactoryMessage) : Decidable (Welcome m) :=
  match m with
  | .textResponse _ _ _ => inferInstanceAs (Decidable ((_ ∧ _) ∧ _))
  | .inputResponse _ | .regResponse _ => inferInstanceAs (Decidable (_ ≠ _))
  | .joinRoomResponse _ _ => inferInstanceAs (Decidable (_ = _))
  | .inputRequest _ _ | .regRequest _ _ | .joinRoomRequest _ | .textRequest _ _ _ =>
      inferInstanceAs (Decidable False)

/-- The client when it has read a frame. -/
def after (c : Client) (m : FactoryMessage) : Client :=
  match readHandler m.header.command with
  | some handler => handler c m.body
  | none => c

@[simp] theorem lines_pushBack (c : Client) (msg : ClientTextMsg) (r : Identifier) :
    (c.pushBack msg).lines r = c.lines r ++ if r = msg.channelId then [msg] else [] := by
  simp only [lines, pushBack, UnorderedMap.lookup_insert_eq]
  split
  · rename_i hr
    rw [hr]
    rfl
  · rw [List.append_nil]

theorem lines_tryEmplace (c : Client) (roomId r : Identifier) :
    ({ c with channelsHistory := c.channelsHistory.tryEmplace roomId [] } : Client).lines r =
      c.lines r := by
  simp only [lines, UnorderedMap.lookup_tryEmplace]
  split
  · rename_i hr
    rw [hr]
    rfl
  · rfl

theorem readHandler_header (m : FactoryMessage) :
    readHandler m.header.command =
      match m.command with
      | .autorisationResponse => some doReadInputResponse
      | .registrationResponse => some doReadRegResponse
      | .echoResponse => some doReadEchoResponse
      | .joinRoomResponse => some doReadJoinRoomResponse
      | _ => none := by
  rw [readHandler, FactoryMessage.cast_header]
  cases m <;> rfl

/-- What reading a message comes to: the client reads on, and its rooms have grown by
the lines of the message. -/
structure Reads (c : Client) (m : FactoryMessage) : Prop where
  size : m.body.length < 2 ^ 31
  handler : ∃ handler, readHandler m.header.command = some handler
  reading : (c.after m).reading = c.reading
  lines : ∀ r, (c.after m).lines r = c.lines r ++ linesOf r m

/-- An answer to a log in, a registration or a join is short. -/
theorem length_body_lt {r : Response} (h : ∀ m, r ≠ .textResponse m) :
    r.serialize.length < 2 ^ 31 := by
  have hle := FactoryMessage.length_body_response_le r
  have hlt : 0 + 50 < 2 ^ 31 := by decide
  cases r with
  | textResponse m => exact absurd rfl (h m)
  | _ => exact lt_of_le_of_lt hle hlt

theorem reads_textResponse (c : Client) {login text : Bytes} {roomId : Identifier}
    (hm : Welcome (.textResponse login roomId text)) :
    c.Reads (.textResponse login roomId text) := by
  obtain ⟨hutf, hsize⟩ := hm
  have hhandler : readHandler (FactoryMessage.textResponse login roomId text).header.command = some doReadEchoResponse :=
    readHandler_header _
  have hparse : parseBuffer (FactoryMessage.textResponse login roomId text).body =
      (MsgFactory.createTextResponse login roomId text, true) :=
    @parseBuffer_serialize (MsgFactory.createTextResponse login roomId text) hutf hsize
  have hafter : c.after (.textResponse login roomId text) = c.pushBack ⟨login, text, roomId⟩ := by
    rw [after, hhandler]
    show c.doReadEchoResponse _ = _
    rw [doReadEchoResponse, hparse]
    rfl
  refine ⟨hsize, ⟨_, hhandler⟩, ?_, ?_⟩
  · rw [hafter]
    rfl
  · intro r
    rw [hafter, lines_pushBack]
    rfl

theorem reads_inputResponse (c : Client) {clientId : Identifier} (hm : clientId ≠ -1) :
    c.Reads (.inputResponse clientId) := by
  have hhandler : readHandler (FactoryMessage.inputResponse clientId).header.command = some doReadInputResponse :=
    readHandler_header _
  have hsize : (FactoryMessage.inputResponse clientId).body.length < 2 ^ 31 :=
    @length_body_lt (MsgFactory.createInputResponse clientId) (by simp [MsgFactory.createInputResponse])
  have hparse : parseBuffer (FactoryMessage.inputResponse clientId).body =
      (MsgFactory.createInputResponse clientId, true) :=
    @parseBuffer_serialize (MsgFactory.createInputResponse clientId) trivial hsize
  have hafter : c.after (.inputResponse clientId) = c.setLoginId clientId := by
    rw [after, hhandler]
    show c.doReadInputResponse _ = _
    rw [doReadInputResponse, hparse]
    simp only [if_true, MsgFactory.createInputResponse, MsgFactory.statusOf, if_pos hm,
      inputResponse]
  refine ⟨hsize, ⟨_, hhandler⟩, ?_, ?_⟩
  · rw [hafter]
    rfl
  · intro r
    rw [hafter]
    show c.lines r = c.lines r ++ []
    rw [List.append_nil]

theorem reads_regResponse (c : Client) {clientId : Identifier} (hm : clientId ≠ -1) :
    c.Reads (.regResponse clientId) := by
  have hhandler : readHandler (FactoryMessage.regResponse clientId).header.command = some doReadRegResponse :=
    readHandler_header _
  have hsize : (FactoryMessage.regResponse clientId).body.length < 2 ^ 31 :=
    @length_body_lt (MsgFactory.createRegResponse clientId) (by simp [MsgFactory.createRegResponse])
  have hparse : parseBuffer (FactoryMessage.regResponse clientId).body =
      (MsgFactory.createRegResponse clientId, true) :=
    @parseBuffer_serialize (MsgFactory.createRegResponse clientId) trivial hsize
  have hafter : c.after (.regResponse clientId) = c.setLoginId 0 := by
    rw [after, hhandler]
    show c.doReadRegResponse _ = _
    rw [doReadRegResponse, hparse]
    simp only [if_true, MsgFactory.createRegResponse, MsgFactory.statusOf, if_pos hm,
      inputResponse]
  refine ⟨hsize, ⟨_, hhandler⟩, ?_, ?_⟩
  · rw [hafter]
    rfl
  · intro r
    rw [hafter]
    show c.lines r = c.lines r ++ []
    rw [List.append_nil]

theorem reads_joinRoomResponse (c : Client) (roomId : Identifier) :
    c.Reads (.joinRoomResponse roomId true) := by
  have hhandler : readHandler (FactoryMessage.joinRoomResponse roomId true).header.command = some doReadJoinRoomResponse :=
    readHandler_header _
  have hsize : (FactoryMessage.joinRoomResponse roomId true).body.length < 2 ^ 31 :=
    @length_body_lt (MsgFactory.createJoinRoomResponse roomId true) (by simp [MsgFactory.createJoinRoomResponse])
  have hparse : parseBuffer (FactoryMessage.joinRoomResponse roomId true).body =
      (MsgFactory.createJoinRoomResponse roomId true, true) :=
    @parseBuffer_serialize (MsgFactory.createJoinRoomResponse roomId true) trivial hsize
  have hafter : c.after (.joinRoomResponse roomId true) =
      { c with channelsHistory := c.channelsHistory.tryEmplace roomId [] } := by
    rw [after, hhandler]
    show c.doReadJoinRoomResponse _ = _
    rw [doReadJoinRoomResponse, hparse]
    rfl
  refine ⟨hsize, ⟨_, hhandler⟩, ?_, ?_⟩
  · rw [hafter]
  · intro r
    rw [hafter, lines_tryEmplace]
    show c.lines r = c.lines r ++ []
    rw [List.append_nil]

theorem reads_of_welcome (c : Client) {m : FactoryMessage} (hm : Welcome m) : c.Reads m := by
  cases m with
  | textResponse login roomId text => exact reads_textResponse c hm
  | inputResponse clientId => exact reads_inputResponse c hm
  | regResponse clientId => exact reads_regResponse c hm
  | joinRoomResponse roomId flag =>
      obtain rfl : flag = true := hm
      exact reads_joinRoomResponse c roomId
  | _ => exact hm.elim

/-- A part of a frame is left where it is. -/
theorem asyncReadPbHeader_of_part {c : Client} {m : FactoryMessage} {stream more : Bytes}
    {handler : Client → Bytes → Client} (hhandler : readHandler m.header.command = some handler)
    (hsize : m.body.length < 2 ^ 31) (hpart : stream <+: m.frame ++ more)
    (hshort : stream.length < m.frame.length) (fuel : Nat) :
    asyncReadPbHeader fuel c stream = (c, stream) := by
  cases fuel with
  | zero => rfl
  | succ fuel =>
      rw [asyncReadPbHeader]
      split
      · rename_i hlong
        obtain ⟨_, hheader, hlength, hbody, -⟩ := readFrame_eq_some (m.readFrame_frame hsize more)
        obtain ⟨rest, hrest⟩ := hpart
        -- the header has come, the body has not
        have htake : (m.frame ++ more).take sizeHeader = stream.take sizeHeader := by
          rw [← hrest, List.take_append_of_le_length hlong.2]
        have hlen : m.header.length.toNat = m.body.length := by
          rw [← hbody, List.length_take]
          omega
        have hframe : m.frame.length = sizeHeader + m.body.length := by
          rw [m.frame_eq hsize, List.length_append, m.length_header hsize]
        have hwait : ¬ m.header.length.toNat ≤ (stream.drop sizeHeader).length := by
          rw [hlen, List.length_drop]
          omega
        rw [htake] at hheader
        simp only [hheader, if_true, hhandler, if_neg hwait]
      · rfl

/-- Some messages have been put on a stream, of which some bytes have come: the client
has read the messages that are whole and waits for the next one. -/
theorem asyncReadPbHeader_of_prefix {c : Client} (hreading : c.reading = true)
    {todo : List FactoryMessage} (htodo : ∀ m ∈ todo, Welcome m) {stream : Bytes}
    (hstream : stream <+: todo.flatMap FactoryMessage.frame) {fuel : Nat}
    (hfuel : stream.length ≤ fuel) :
    ∃ done rest left, todo = done ++ rest ∧
      stream = done.flatMap FactoryMessage.frame ++ left ∧
      (∀ m ms, rest = m :: ms → left.length < m.frame.length) ∧
      asyncReadPbHeader fuel c stream = (done.foldl after c, left) := by
  induction todo generalizing c stream fuel with
  | nil =>
      obtain rfl := List.prefix_nil.mp hstream
      exact ⟨[], [], [], rfl, rfl, nofun, asyncReadPbHeader_of_short (by decide) fuel⟩
  | cons m todo ih =>
      obtain ⟨hm, hrest⟩ := List.forall_mem_cons.mp htodo
      obtain ⟨hsize, ⟨handler, hhandler⟩, hafter, -⟩ := c.reads_of_welcome hm
      rw [List.flatMap_cons] at hstream
      by_cases hshort : stream.length < m.frame.length
      · refine ⟨[], m :: todo, stream, rfl, rfl, ?_,
          asyncReadPbHeader_of_part hhandler hsize hstream hshort fuel⟩
        rintro _ _ ⟨⟩
        exact hshort
      · -- the first message is whole
        have hwhole : m.frame <+: stream :=
          List.prefix_of_prefix_length_le (List.prefix_append _ _) hstream (by omega)
        obtain ⟨stream', rfl⟩ := hwhole
        have hstream' : stream' <+: todo.flatMap FactoryMessage.frame :=
          (List.prefix_append_right_inj _).mp hstream
        have hpos := length_frame_pos hsize
        rw [List.length_append] at hfuel
        obtain ⟨fuel, rfl⟩ : ∃ k, fuel = k + 1 := ⟨fuel - 1, by omega⟩
        obtain ⟨done, rest, left, rfl, rfl, hwait, hread⟩ :=
          ih (hafter.trans hreading) hrest hstream' (show stream'.length ≤ fuel by omega)
        refine ⟨m :: done, rest, left, rfl, ?_, hwait, ?_⟩
        · rw [List.flatMap_cons, List.append_assoc]
        · rw [asyncReadPbHeader_frame hreading hhandler hsize]
          have hstep : handler c m.body = c.after m := by rw [after, hhandler]
          rw [hstep, hread]
          rfl

end Client

/-! ## The server and its clients -/

namespace Connection

/-- What `send_msg_to_client` makes of a text. -/
def textMessage (data : TextSendData) : FactoryMessage :=
  .textResponse data.login data.roomId data.text

/-- A client, and the bytes that have come and that it has not read. -/
structure Reader where
  client : Client
  unread : Bytes := []

/-- Bytes come. -/
def Reader.arrive (rd : Reader) (bytes : Bytes) : Reader :=
  let read := rd.client.read (rd.unread ++ bytes)
  ⟨read.1, read.2⟩

/-- The process, the jobs in the pool, and for each connection `send_msgs_queue`, the
bytes in flight and the client. -/
structure Network (D : DatabaseOps) where
  audience : Audience D
  pool : List PoolJob := []
  sendMsgsQueue : ConnectionId → List TextSendData := fun _ => []
  inFlight : ConnectionId → Bytes := fun _ => []
  readers : ConnectionId → Reader

/-- A request of any kind has been read; a read or a write has failed; the pool runs the
job number `i`; the front of the queue is written; up to `n` bytes arrive. -/
inductive NetworkEvent where
  | read (connection : ConnectionId) (task : Task)
  | failed (connection : ConnectionId)
  | run (i : Nat)
  | write (connection : ConnectionId)
  | arrive (connection : ConnectionId) (n : Nat)
  deriving DecidableEq, Repr

namespace Network

variable {D : DatabaseOps}

/-- A new process, and clients that have read nothing.  `unset` is what the
uninitialised ids of the clients hold. -/
def start (db : D.State) (clientIds : ConnectionId → Identifier) (logins : ConnectionId → Bytes)
    (unset : ConnectionId → Identifier) : Network D where
  audience := Audience.start db clientIds
  readers s := { client := { clientId := unset s, login := logins s } }

/-- A frame is put behind what is in flight.  Nothing is put on a closed socket. -/
def send (st : Network D) (s : ConnectionId) (m : FactoryMessage) : Network D :=
  { st with
    inFlight := Function.update st.inFlight s
      (if (st.audience.server.connections s).socketOpen then st.inFlight s ++ m.frame
      else st.inFlight s) }

/-- The process becomes `sv` and hands out `out`: texts are queued, responses posted. -/
def become (st : Network D) (e : Event) (sv : Server D) (out : List Output) : Network D :=
  { st with
    audience := st.audience.after e sv out
    pool := st.pool ++ (out.filter Output.isResponse).map .response
    sendMsgsQueue := fun s => st.sendMsgsQueue s ++ textsTo s out }

/-- The handler an event runs, with what it does to the process. -/
def handled (st : Network D) : NetworkEvent → Option (Event × Server D × List Output)
  | .failed s => some (.free s, st.audience.server.freeConnection s)
  | .run i =>
      match st.pool[i]? with
      | some (.request s task) =>
          (st.audience.server.handle s task).map fun result => (.handle s task, result)
      | _ => none
  | _ => none

/-- One event; `none` when it cannot happen or is undefined. -/
def apply (st : Network D) (e : NetworkEvent) : Option (Network D) :=
  match e with
  | .read s task => some { st with pool := st.pool ++ [.request s task] }
  | .failed _ => (st.handled e).map fun h => st.become h.1 h.2.1 h.2.2
  | .run i =>
      let taken := { st with pool := st.pool.eraseIdx i }
      match st.pool[i]? with
      | none => none
      | some (.request _ _) => (st.handled e).map fun h => taken.become h.1 h.2.1 h.2.2
      | some (.response o) => some (taken.send o.recipient o.response)
  | .write s =>
      match st.sendMsgsQueue s with
      | [] => none
      | data :: rest =>
          if (st.audience.server.connections s).socketOpen then
            some ({ st with sendMsgsQueue := Function.update st.sendMsgsQueue s rest }.send s
              (textMessage data))
          else none
  | .arrive s n =>
      some
        { st with
          inFlight := Function.update st.inFlight s ((st.inFlight s).drop n)
          readers := Function.update st.readers s
            ((st.readers s).arrive ((st.inFlight s).take n)) }

/-- One event and what it leaves. -/
def Step (st : Network D) (e : NetworkEvent) (st' : Network D) : Prop := st.apply e = some st'

/-- No handler is pending, and nothing is queued or in flight for `s`. -/
structure Settled (st : Network D) (s : ConnectionId) : Prop where
  pool : st.pool = []
  sendMsgsQueue : st.sendMsgsQueue s = []
  inFlight : st.inFlight s = []

/-- The lines of a room on the client, as author and text. -/
def clientLines (st : Network D) (s : ConnectionId) (r : Identifier) : List (Bytes × Bytes) :=
  ((st.readers s).client.lines r).map fun line => (line.author, line.text)

/-- The lines of a history. -/
def historyLines (ch : Channel) : List (Bytes × Bytes) :=
  ch.historyRoom.map fun data => (data.login, data.text)

/-- Each client is logged in to its own account, and every text that is handed out is in
UTF-8, its body shorter than 2^31 bytes. -/
def Proper (clients : Set ConnectionId) (ids : ConnectionId → Identifier) (st : Network D)
    (e : NetworkEvent) : Prop :=
  ∀ h ∈ st.handled e, OwnAccount clients ids st.audience.server (h.1, h.2.2) ∧
    ∀ o ∈ h.2.2, o.isResponse = false → Client.Welcome o.response

instance (clients : Set ConnectionId) [DecidablePred (· ∈ clients)]
    (ids : ConnectionId → Identifier) (st : Network D) (e : NetworkEvent) :
    Decidable (Proper clients ids st e) :=
  inferInstanceAs (Decidable (∀ h ∈ st.handled e, _ ∧ ∀ o ∈ h.2.2, _ → _))

/-- One event of a client that keeps to the condition. -/
def properApply (clients : Set ConnectionId) [DecidablePred (· ∈ clients)]
    (ids : ConnectionId → Identifier) (st : Network D) (e : NetworkEvent) : Option (Network D) :=
  if Proper clients ids st e then st.apply e else none

theorem run_of_foldlM {clients : Set ConnectionId} [DecidablePred (· ∈ clients)]
    {ids : ConnectionId → Identifier} {st st' : Network D} {es : List NetworkEvent}
    (h : es.foldlM (properApply clients ids) st = some st') :
    Run (Guarded (Proper clients ids) Step) st es st' := by
  refine (Run.iff_foldlM.mpr h).mono fun s e t hstep => ?_
  simp only [properApply] at hstep
  split at hstep
  · rename_i hproper
    exact ⟨hproper, hstep⟩
  · cases hstep

/-! ### One connection -/

/-- What the texts come to in a room of the client. -/
def linesOfTexts (r : Identifier) (texts : List TextSendData) : List ClientTextMsg :=
  texts.flatMap fun data => Client.linesOf r (textMessage data)

/-- The texts have been read, or they are on their way: the client waits for the rest of
a message, and with what is in flight it will have their lines. -/
def Fed (rd : Reader) (inFlight : Bytes) (texts : List TextSendData) : Prop :=
  ∃ todo : List FactoryMessage, (∀ m ∈ todo, Client.Welcome m) ∧ rd.client.reading = true ∧
    rd.unread ++ inFlight = todo.flatMap FactoryMessage.frame ∧
    (∀ m ms, todo = m :: ms → rd.unread.length < m.frame.length) ∧
    ∀ r, rd.client.lines r ++ todo.flatMap (Client.linesOf r) = linesOfTexts r texts

namespace Fed

variable {rd : Reader} {inFlight : Bytes} {texts more : List TextSendData}

/-- A message is sent that comes to the same lines as `more`. -/
theorem send (h : Fed rd inFlight texts) {m : FactoryMessage} (hm : Client.Welcome m)
    (hlines : ∀ r, Client.linesOf r m = linesOfTexts r more) :
    Fed rd (inFlight ++ m.frame) (texts ++ more) := by
  obtain ⟨todo, hwelcome, hreading, hbytes, hwait, htexts⟩ := h
  refine ⟨todo ++ [m], ?_, hreading, ?_, ?_, ?_⟩
  · intro m' hm'
    rcases List.mem_append.mp hm' with hold | hnew
    · exact hwelcome m' hold
    · exact List.mem_singleton.mp hnew ▸ hm
  · rw [← List.append_assoc, hbytes, List.flatMap_append, List.flatMap_singleton]
  · intro m' ms heq
    cases todo with
    | nil =>
        -- nothing was on its way
        obtain ⟨rfl, -⟩ : m = m' ∧ [] = ms := List.cons.inj heq
        rw [List.flatMap_nil, List.append_eq_nil_iff] at hbytes
        rw [hbytes.1]
        exact length_frame_pos (rd.client.reads_of_welcome hm).size
    | cons first todo =>
        obtain ⟨rfl, -⟩ := List.cons.inj heq
        exact hwait first todo rfl
  · intro r
    rw [List.flatMap_append, List.flatMap_singleton, ← List.append_assoc, htexts, hlines]
    simp [linesOfTexts]

theorem lines_foldl {c : Client} {done : List FactoryMessage} (hdone : ∀ m ∈ done, Client.Welcome m) :
    (done.foldl Client.after c).reading = c.reading ∧
      ∀ r, (done.foldl Client.after c).lines r = c.lines r ++ done.flatMap (Client.linesOf r) := by
  induction done generalizing c with
  | nil => exact ⟨rfl, fun r => (List.append_nil _).symm⟩
  | cons m done ih =>
      obtain ⟨hm, hrest⟩ := List.forall_mem_cons.mp hdone
      obtain ⟨-, -, hreading, hlines⟩ := c.reads_of_welcome hm
      obtain ⟨hreading', hlines'⟩ := @ih (c.after m) hrest
      refine ⟨hreading'.trans hreading, fun r => ?_⟩
      rw [List.foldl_cons, hlines', hlines, List.flatMap_cons, List.append_assoc]

theorem arrive (h : Fed rd inFlight texts) (n : Nat) :
    Fed (rd.arrive (inFlight.take n)) (inFlight.drop n) texts := by
  obtain ⟨todo, hwelcome, hreading, hbytes, -, htexts⟩ := h
  have hprefix : rd.unread ++ inFlight.take n <+: todo.flatMap FactoryMessage.frame := by
    rw [← hbytes]
    exact (List.prefix_append_right_inj _).mpr (List.take_prefix _ _)
  obtain ⟨done, rest, left, rfl, hstream, hwait, hread⟩ :=
    Client.asyncReadPbHeader_of_prefix hreading hwelcome hprefix le_rfl
  have harrive : rd.arrive (inFlight.take n) = ⟨done.foldl Client.after rd.client, left⟩ := by
    rw [Reader.arrive, Client.read, hread]
  have hdone : ∀ m ∈ done, Client.Welcome m := fun m hm =>
    hwelcome m (List.mem_append_left _ hm)
  obtain ⟨hreading', hlines⟩ := @lines_foldl rd.client _ hdone
  rw [harrive]
  refine ⟨rest, fun m hm => hwelcome m (List.mem_append_right _ hm), hreading'.trans hreading, ?_,
    hwait, ?_⟩
  · have hall := hbytes
    rw [← List.take_append_drop n inFlight, ← List.append_assoc, hstream, List.flatMap_append,
      List.append_assoc] at hall
    exact List.append_cancel_left hall
  · intro r
    rw [hlines, List.append_assoc, ← List.flatMap_append]
    exact htexts r

/-- When nothing is in flight the client has the lines. -/
theorem lines_eq (h : Fed rd [] texts) (r : Identifier) :
    rd.client.lines r = linesOfTexts r texts := by
  obtain ⟨todo, -, -, hbytes, hwait, htexts⟩ := h
  cases todo with
  | nil =>
      rw [← htexts, List.flatMap_nil, List.append_nil]
  | cons m ms =>
      have hshort := hwait m ms rfl
      rw [List.append_nil] at hbytes
      rw [hbytes, List.flatMap_cons, List.length_append] at hshort
      omega

end Fed

/-- The lines of the texts are those of the texts of the room. -/
theorem map_linesOfTexts (r : Identifier) (texts : List TextSendData) :
    (linesOfTexts r texts).map (fun line => (line.author, line.text)) =
      (roomTexts r texts).map fun data => (data.login, data.text) := by
  induction texts with
  | nil => rfl
  | cons data texts ih =>
      have hcons : linesOfTexts r (data :: texts) =
          Client.linesOf r (textMessage data) ++ linesOfTexts r texts := rfl
      rw [hcons, List.map_append, ih]
      by_cases hr : data.roomId = r
      · simp [Client.linesOf, textMessage, roomTexts, hr]
      · simp [Client.linesOf, textMessage, roomTexts, hr, Ne.symm hr]

/-! ### The whole network -/

/-- The clients are in touch, what is posted and queued can be read, and every connected
client has, or will get, what has been handed out and is not queued. -/
structure Delivers {D : DatabaseOps} (clients : Set ConnectionId)
    (ids : ConnectionId → Identifier) (st : Network D) : Prop where
  inTouch : InTouch clients ids st.audience
  posted : ∀ o, .response o ∈ st.pool → o.isResponse = true ∧ Client.Welcome o.response
  queued : ∀ s, ∀ data ∈ st.sendMsgsQueue s, Client.Welcome (textMessage data)
  fed : ∀ s, st.audience.Connected s → ∃ texts,
    st.audience.heard s = texts ++ st.sendMsgsQueue s ∧ Fed (st.readers s) (st.inFlight s) texts

section Steps

variable {D : DatabaseOps} {clients : Set ConnectionId} {ids : ConnectionId → Identifier}
  {st st' : Network D}

/-- A response comes to no line. -/
theorem linesOf_response {o : Output} (ho : o.isResponse = true) (r : Identifier) :
    Client.linesOf r o.response = [] := by
  cases o with
  | message d => cases ho
  | _ => rfl

/-- The responses of a handler can be read: a log in or a registration was answered with
an account, a join with `true`. -/
theorem welcome_of_mem {sv sv' : Server D} {e : Event} {out : List Output}
    (hids : Accounts clients ids) (hstep : Server.Step D sv (e, out) sv')
    (hown : OwnAccount clients ids sv (e, out)) {o : Output} (ho : o ∈ out)
    (hresponse : o.isResponse = true) : Client.Welcome o.response := by
  cases o with
  | message d => cases hresponse
  | autoResponse s c =>
      obtain ⟨hs, rfl⟩ : s ∈ clients ∧ c = ids s := hown.answer _ ho _ rfl
      exact hids.ne_neg_one s hs
  | regResponse s c =>
      obtain ⟨hs, rfl⟩ : s ∈ clients ∧ c = ids s := hown.answer _ ho _ rfl
      exact hids.ne_neg_one s hs
  | joinRoomResponse s r flag =>
      show flag = true
      cases Server.effect_of_step hstep with
      | join hjoin =>
          simp only [List.mem_append, List.mem_map, List.mem_singleton, reduceCtorEq, and_false,
            exists_false, false_or, Output.joinRoomResponse.injEq] at ho
          exact ho.2.2
      | free _ => simp [Server.freeConnection] at ho
      | _ => simp at ho

/-- A handler runs. -/
theorem Delivers.become (h : Delivers clients ids st) (hids : Accounts clients ids)
    (hload : LoadsRoom D) {e : Event} {sv : Server D} {out : List Output}
    (hstep : Server.Step D st.audience.server (e, out) sv)
    (hown : OwnAccount clients ids st.audience.server (e, out))
    (htexts : ∀ o ∈ out, o.isResponse = false → Client.Welcome o.response) :
    Delivers clients ids (st.become e sv out) where
  inTouch := inTouch_step hids hload ⟨sv, hstep, rfl⟩ h.inTouch hown
  posted := by
    intro o ho
    rcases List.mem_append.mp ho with hold | hnew
    · exact h.posted o hold
    · obtain ⟨o', ho', ⟨⟩⟩ := List.mem_map.mp hnew
      obtain ⟨hmem, hresponse⟩ := List.mem_filter.mp ho'
      exact ⟨hresponse, welcome_of_mem hids hstep hown hmem hresponse⟩
  queued := by
    intro s data hdata
    rcases List.mem_append.mp hdata with hold | hnew
    · exact h.queued s data hold
    · obtain ⟨o, ho, hsome⟩ := List.mem_filterMap.mp hnew
      cases o with
      | message d =>
          simp only [Option.ite_none_right_eq_some, Option.some.injEq] at hsome
          exact hsome.2 ▸ htexts _ ho rfl
      | _ => cases hsome
  fed := by
    intro s ho
    have hopen : st.audience.Connected s :=
      WritingServer.socketOpen_of_effect (Server.effect_of_step hstep) s ho
    obtain ⟨texts, hheard, hfed⟩ := h.fed s hopen
    refine ⟨texts, ?_, hfed⟩
    show st.audience.heard s ++ textsTo s out = texts ++ (st.sendMsgsQueue s ++ textsTo s out)
    rw [hheard, List.append_assoc]

/-- A frame is put on a connection. -/
theorem fed_send {s t : ConnectionId} {m : FactoryMessage} {texts more : List TextSendData}
    (hopen : st.audience.Connected s) (hfed : Fed (st.readers s) (st.inFlight s) texts)
    (hm : Client.Welcome m) (hlines : ∀ r, Client.linesOf r m = linesOfTexts r more) :
    Fed (st.readers s) ((st.send t m).inFlight s) (texts ++ if s = t then more else []) := by
  rcases eq_or_ne s t with rfl | hne
  · have hsent : (st.send s m).inFlight s = st.inFlight s ++ m.frame :=
      (Function.update_self ..).trans (if_pos hopen)
    rw [hsent, if_pos rfl]
    exact hfed.send hm hlines
  · have hsent : (st.send t m).inFlight s = st.inFlight s := Function.update_of_ne hne ..
    rw [hsent, if_neg hne, List.append_nil]
    exact hfed

/-- A job is taken from the pool. -/
theorem Delivers.take (h : Delivers clients ids st) (i : Nat) :
    Delivers clients ids { st with pool := st.pool.eraseIdx i } :=
  ⟨h.inTouch, fun o ho => h.posted o (List.mem_of_mem_eraseIdx ho), h.queued, h.fed⟩

theorem delivers_step (hids : Accounts clients ids) (hload : LoadsRoom D) {e : NetworkEvent}
    (hstep : Step st e st') (h : Delivers clients ids st) (hproper : Proper clients ids st e) :
    Delivers clients ids st' := by
  cases e with
  | read s task =>
      cases hstep
      refine ⟨h.inTouch, ?_, h.queued, h.fed⟩
      intro o ho
      rcases List.mem_append.mp ho with hold | hnew
      · exact h.posted o hold
      · cases List.mem_singleton.mp hnew
  | failed s =>
      cases hstep
      obtain ⟨hown, htexts⟩ := hproper _ rfl
      exact h.become hids hload rfl hown htexts
  | run i =>
      simp only [Step, apply] at hstep
      split at hstep
      · cases hstep
      · rename_i s task hjob
        obtain ⟨⟨e', sv, out⟩, hhandled, rfl⟩ := Option.map_eq_some_iff.mp hstep
        obtain ⟨hown, htexts⟩ := hproper _ hhandled
        simp only [handled, hjob] at hhandled
        obtain ⟨result, hhandle, ⟨⟩⟩ := Option.map_eq_some_iff.mp hhandled
        exact (h.take i).become hids hload hhandle hown htexts
      · rename_i o hjob
        cases hstep
        obtain ⟨hresponse, hwelcome⟩ := h.posted o (List.mem_of_getElem? hjob)
        refine ⟨h.inTouch, (h.take i).posted, h.queued, ?_⟩
        intro t ho
        obtain ⟨texts, hheard, hfed⟩ := h.fed t ho
        refine ⟨texts, hheard, ?_⟩
        have hlines : ∀ r, Client.linesOf r o.response = linesOfTexts r [] :=
          linesOf_response hresponse
        have hsent := @fed_send _ { st with pool := st.pool.eraseIdx i } t o.recipient _ _ _ ho hfed
          hwelcome hlines
        rwa [ite_self, List.append_nil] at hsent
  | write s =>
      simp only [Step, apply] at hstep
      split at hstep
      · cases hstep
      · rename_i data rest hqueue
        split at hstep
        · cases hstep
          have hwelcome : Client.Welcome (textMessage data) :=
            h.queued s data (hqueue ▸ List.mem_cons_self ..)
          let popped : Network D :=
            { st with sendMsgsQueue := Function.update st.sendMsgsQueue s rest }
          refine ⟨h.inTouch, h.posted, ?_, ?_⟩
          · intro t data' hdata'
            have hmem : data' ∈ popped.sendMsgsQueue t := hdata'
            rcases eq_or_ne t s with rfl | hne
            · rw [show popped.sendMsgsQueue t = rest from Function.update_self ..] at hmem
              exact h.queued t data' (hqueue ▸ List.mem_cons_of_mem data hmem)
            · rw [show popped.sendMsgsQueue t = _ from Function.update_of_ne hne ..] at hmem
              exact h.queued t data' hmem
          · intro t ho
            obtain ⟨texts, hheard, hfed⟩ := h.fed t ho
            have hlines : ∀ r, Client.linesOf r (textMessage data) = linesOfTexts r [data] :=
              fun r => (List.append_nil _).symm
            have hsent := @fed_send _ popped t s _ _ _ ho hfed hwelcome hlines
            refine ⟨_, ?_, hsent⟩
            show st.audience.heard t = _ ++ popped.sendMsgsQueue t
            rcases eq_or_ne t s with rfl | hne
            · rw [show popped.sendMsgsQueue t = rest from Function.update_self .., if_pos rfl,
                hheard, hqueue, List.append_assoc]
              rfl
            · rw [show popped.sendMsgsQueue t = _ from Function.update_of_ne hne .., if_neg hne,
                List.append_nil]
              exact hheard
        · cases hstep
  | arrive s n =>
      cases hstep
      refine ⟨h.inTouch, h.posted, h.queued, ?_⟩
      intro t ho
      obtain ⟨texts, hheard, hfed⟩ := h.fed t ho
      refine ⟨texts, hheard, ?_⟩
      rcases eq_or_ne t s with rfl | hne
      · simp only [Function.update_self]
        exact hfed.arrive n
      · simp only [Function.update_of_ne hne]
        exact hfed

end Steps

/-! ### Every run -/

theorem delivers_start {D : DatabaseOps} (clients : Set ConnectionId)
    (ids : ConnectionId → Identifier) (db : D.State) (clientIds : ConnectionId → Identifier)
    (logins : ConnectionId → Bytes) (unset : ConnectionId → Identifier) :
    Delivers clients ids (start db clientIds logins unset) where
  inTouch := inTouch_start clients ids db clientIds
  posted _ ho := nomatch ho
  queued _ _ hdata := nomatch hdata
  fed _ _ := ⟨[], rfl, [], nofun, rfl, rfl, nofun, fun _ => rfl⟩

theorem roomId_of_mapM_historyEntry {roomId : Identifier} {rows : List HistoryRow}
    (hrows : ∀ row ∈ rows, row.roomId = roomId) {history : List TextSendData}
    (h : (rows.map HistoryRow.toResult).mapM Database.historyEntry = some history) :
    ∀ data ∈ history, data.roomId = roomId := by
  induction rows generalizing history with
  | nil =>
      cases h
      exact nofun
  | cons row rows ih =>
      obtain ⟨hrow, hrest⟩ := List.forall_mem_cons.mp hrows
      rw [List.map_cons, List.mapM_cons, Database.historyEntry_toResult] at h
      split at h
      · cases h
      · obtain ⟨entry, hentry, h⟩ := Option.bind_eq_some_iff.mp h
        cases hentry
        obtain ⟨tail, htail, heq⟩ := Option.bind_eq_some_iff.mp h
        cases heq
        exact List.forall_mem_cons.mpr ⟨hrow, ih hrest htail⟩

/-- A history that SQLite loads is that of the room. -/
theorem loadsRoom_sqlDatabase {E : Sqlite} (hE : E.Lawful) : LoadsRoom (sqlDatabase E) := by
  intro db roomId db' history hload
  have hloaded : (db.getHistory roomId).2 = some history := congrArg Prod.snd hload
  unfold Database.getHistory at hloaded
  cases hopen : db.isOpen with
  | false =>
      rw [Database.select_of_closed hopen] at hloaded
      cases hloaded
      exact nofun
  | true =>
      rw [Database.select_historyQuery hE hopen] at hloaded
      refine roomId_of_mapM_historyEntry ?_ hloaded
      exact fun row hrow => of_decide_eq_true (List.mem_filter.mp hrow).2

/-- Everything that has been handed out has been read. -/
theorem Delivers.clientLines_iff {D : DatabaseOps} {clients : Set ConnectionId}
    {ids : ConnectionId → Identifier} {st : Network D} (h : Delivers clients ids st)
    {s : ConnectionId} (hsettled : st.Settled s) (hs : st.audience.Connected s) {r : Identifier}
    (hjoined : (s, r) ∈ st.audience.joins) :
    ∃ ch, st.audience.room r = some ch ∧
      (st.clientLines s r = historyLines ch ↔ st.audience.joins.count (s, r) = 1) := by
  obtain ⟨texts, hheard, hfed⟩ := h.fed s hs
  rw [hsettled.sendMsgsQueue, List.append_nil] at hheard
  rw [hsettled.inFlight] at hfed
  have hlines : st.clientLines s r =
      (roomTexts r (st.audience.heard s)).map fun data => (data.login, data.text) := by
    rw [clientLines, hfed.lines_eq, map_linesOfTexts, hheard]
  rw [hlines]
  exact (h.inTouch.follows s r hs).heard_eq_iff (List.count_pos_iff.mpr hjoined) _

section Runs

variable {E : Sqlite} {clients : Set ConnectionId} {ids : ConnectionId → Identifier}
  {db : Database E} {clientIds unset : ConnectionId → Identifier} {logins : ConnectionId → Bytes}
  {es : List NetworkEvent} {st : Network (sqlDatabase E)}

theorem delivers_of_run (hE : E.Lawful) (hids : Accounts clients ids)
    (h : Run (Guarded (Proper clients ids) Step) (start db clientIds logins unset) es st) :
    Delivers clients ids st := by
  have hstart := @delivers_start (sqlDatabase E) clients ids db clientIds logins unset
  refine h.invariant (fun _ _ _ hstep hst => ?_) hstart
  exact delivers_step hids (loadsRoom_sqlDatabase hE) hstep.2 hst hstep.1

/-- **The client's view.**  Whenever nothing is pending and nothing is in flight, a client
that has joined a room and is connected has the lines of the history of the room if and
only if it has joined it once. -/
theorem clientLines_eq_iff (hE : E.Lawful) (hids : Accounts clients ids)
    (h : Run (Guarded (Proper clients ids) Step) (start db clientIds logins unset) es st)
    {s : ConnectionId} (hsettled : st.Settled s) (hs : st.audience.Connected s) {r : Identifier}
    (hjoined : (s, r) ∈ st.audience.joins) :
    ∃ ch, st.audience.room r = some ch ∧
      (st.clientLines s r = historyLines ch ↔ st.audience.joins.count (s, r) = 1) :=
  (delivers_of_run hE hids h).clientLines_iff hsettled hs hjoined

end Runs

/-! ### One client -/

/-- A client with the account 7 logs in and joins room 5, and everything arrives. -/
def oneJoin : List NetworkEvent :=
  [.read 1 ⟨.doAutorisation, .inputRequest ⟨ascii "u", ascii "pw"⟩⟩, .run 0, .run 0,
    .read 1 ⟨.doJoinRoom, .joinRoomRequest ⟨5⟩⟩, .run 0, .run 0, .write 1, .arrive 1 30,
    .arrive 1 999]

/-- It joins the room again. -/
def secondJoin : List NetworkEvent :=
  [.read 1 ⟨.doJoinRoom, .joinRoomRequest ⟨5⟩⟩, .run 0, .run 0, .write 1, .write 1, .arrive 1 999]

/-- A process on a database with the account of the client. -/
def oneAccount : Network (sqlDatabase memorySqlite) :=
  start (⟨true, ⟨[⟨ascii "u", 7, ascii "pw"⟩], []⟩⟩ : Database memorySqlite) (fun _ => 0)
    (fun _ => ascii "u") fun _ => 0

/-- What the results need of the end of a run. -/
def ending (st : Network (sqlDatabase memorySqlite)) : Bool × List TextSendData × Bytes × Bool :=
  (st.pool.isEmpty, st.sendMsgsQueue 1, st.inFlight 1,
    (st.audience.server.connections 1).socketOpen)

theorem accounts_one : Accounts {1} fun _ => 7 where
  injOn := Set.injOn_singleton _ _
  ne_neg_one _ _ := by decide

/-- A run that has come to rest. -/
theorem exists_run {es : List NetworkEvent} {joins : List (ConnectionId × Identifier)}
    (h : (es.foldlM (properApply {1} fun _ => 7) oneAccount).map
      (fun st => (ending st, st.audience.joins)) = some ((true, [], [], true), joins)) :
    ∃ st, Run (Guarded (Proper {1} fun _ => 7) Step) oneAccount es st ∧ st.Settled 1 ∧
      st.audience.Connected 1 ∧ st.audience.joins = joins := by
  obtain ⟨st, hst, hend⟩ := Option.map_eq_some_iff.mp h
  simp only [ending, Prod.mk.injEq, List.isEmpty_iff] at hend
  obtain ⟨⟨hpool, hqueue, hflight, hopen⟩, hjoins⟩ := hend
  exact ⟨st, run_of_foldlM hst, ⟨hpool, hqueue, hflight⟩, hopen, hjoins⟩

/-- The client joins once and has the history. -/
theorem clientLines_eq_iff_once :
    ∃ (st : Network (sqlDatabase memorySqlite)) (ch : Channel),
      Run (Guarded (Proper {1} fun _ => 7) Step) oneAccount oneJoin st ∧
      st.audience.room 5 = some ch ∧ st.clientLines 1 5 = historyLines ch := by
  obtain ⟨st, hrun, hsettled, hs, hjoins⟩ := @exists_run oneJoin [(1, 5)] (by decide +kernel)
  obtain ⟨ch, hch, hiff⟩ := clientLines_eq_iff memorySqlite_lawful accounts_one hrun hsettled hs
    (hjoins ▸ List.mem_singleton.mpr rfl : (1, 5) ∈ st.audience.joins)
  refine ⟨st, ch, hrun, hch, hiff.mpr ?_⟩
  rw [hjoins]
  rfl

/-- The client joins twice, and has the notice of its first join twice. -/
theorem not_clientLines_twice :
    ¬ ∀ (E : Sqlite), E.Lawful → ∀ (clients : Set ConnectionId) (ids : ConnectionId → Identifier),
      Accounts clients ids → ∀ (db : Database E) (clientIds unset : ConnectionId → Identifier)
        (logins : ConnectionId → Bytes) (es : List NetworkEvent) (st : Network (sqlDatabase E)),
        Run (Guarded (Proper clients ids) Step) (start db clientIds logins unset) es st →
        ∀ s r, st.Settled s → st.audience.Connected s → (s, r) ∈ st.audience.joins →
          ∃ ch, st.audience.room r = some ch ∧ st.clientLines s r = historyLines ch := by
  intro h
  obtain ⟨st, hrun, hsettled, hs, hjoins⟩ :=
    @exists_run (oneJoin ++ secondJoin) [(1, 5), (1, 5)] (by decide +kernel)
  have hjoined : (1, 5) ∈ st.audience.joins := by
    rw [hjoins]
    exact List.mem_cons_self ..
  obtain ⟨ch, hch, hlines⟩ := h memorySqlite memorySqlite_lawful {1} (fun _ => 7) accounts_one _ _ _
    _ _ st hrun 1 5 hsettled hs hjoined
  obtain ⟨ch', hch', hiff⟩ :=
    (delivers_of_run memorySqlite_lawful accounts_one hrun).clientLines_iff hsettled hs hjoined
  obtain rfl : ch = ch' := Option.some.inj (hch.symm.trans hch')
  have honce := hiff.mp hlines
  rw [hjoins] at honce
  exact absurd honce (by decide)

end Network

end Connection

end AppChat
