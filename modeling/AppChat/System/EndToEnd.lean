/-
  `System.EndToEnd`: from one user to another.

  What a user asks for is read by the process once and in order, what the process hands out
  is shown once and in order, and nothing is shown that nobody has typed.
-/
import AppChat.System.ChatSystem

set_option autoImplicit false

namespace AppChat

open Foundation Storage Serialize Protocol Connection

/-! ## Requests and lines -/

namespace Protocol.FactoryMessage

/-- The command of the answer a request asks for. -/
def asks (m : FactoryMessage) : Option TypeCommand := m.task.bind Task.answer

/-- The command of an answer. -/
def answer (m : FactoryMessage) : Option TypeCommand :=
  if m.command = .echoResponse then none else some m.command

/-- The text a user types. -/
def text : FactoryMessage → Option TextSendData
  | .textRequest login roomId text => some ⟨roomId, login, text⟩
  | _ => none

/-- The text of a request is the text of its task. -/
theorem text_eq (s : ConnectionId) (m : FactoryMessage) :
    (m.task.bind fun task => (PoolJob.request s task).text) = m.text := by
  cases m <;> rfl

/-- The login of a task is the one its request goes out under. -/
theorem author_of_login {m : FactoryMessage} {task : Task} {s : ConnectionId} {login : Bytes}
    (h : m.task = some task) (hlogin : (PoolJob.request s task).login = some login) :
    login ∈ m.author := by
  cases m with
  | inputRequest _ _ | regRequest _ _ =>
      cases h
      cases hlogin
      rfl
  | joinRoomRequest _ | textRequest _ _ _ =>
      cases h
      cases hlogin
  | _ => cases h

/-- A text goes out under the login of its author. -/
theorem author_of_text {m : FactoryMessage} {data : TextSendData} (h : m.text = some data) :
    data.login ∈ m.author := by
  cases m with
  | textRequest _ _ _ =>
      cases h
      rfl
  | _ => cases h

end Protocol.FactoryMessage

namespace Client

/-- Two readable responses of one frame add the same lines. -/
theorem linesOf_eq_of_frame_eq {m m' : FactoryMessage} (hm : Readable m) (hm' : Readable m')
    (h : m.frame = m'.frame) (room : Identifier) : linesOf room m = linesOf room m' := by
  obtain ⟨hsize, handler, hhandler, hlines⟩ := hm.reads
  obtain ⟨hsize', handler', hhandler', hlines'⟩ := hm'.reads
  have hread := m.readFrame_frame hsize []
  rw [h, m'.readFrame_frame hsize' []] at hread
  simp only [Option.some.injEq, Prod.mk.injEq, and_true] at hread
  obtain ⟨hheader, hbody⟩ := hread
  rw [hheader, hhandler, Option.some.injEq] at hhandler'
  rw [← hlines room, ← hlines' room, hbody, hhandler']

/-- Readable responses of the same frames add the same lines. -/
theorem flatMap_linesOf_eq {ms ms' : List FactoryMessage} (hms : ∀ m ∈ ms, Readable m)
    (hms' : ∀ m ∈ ms', Readable m) (h : ms.map FactoryMessage.frame = ms'.map FactoryMessage.frame)
    (room : Identifier) : ms.flatMap (linesOf room) = ms'.flatMap (linesOf room) := by
  induction ms generalizing ms' with
  | nil =>
      obtain rfl := List.map_eq_nil_iff.mp h.symm
      rfl
  | cons m ms ih =>
      obtain ⟨m', ms', rfl, hfirst, hrest⟩ := List.map_eq_cons_iff.mp h.symm
      obtain ⟨hm, hms⟩ := List.forall_mem_cons.mp hms
      obtain ⟨hm', hms'⟩ := List.forall_mem_cons.mp hms'
      rw [List.flatMap_cons, List.flatMap_cons, linesOf_eq_of_frame_eq hm hm' hfirst.symm,
        ih hms hms' hrest.symm]

/-- An answer adds no lines. -/
theorem linesOf_response {o : Output} (h : o.isResponse = true) (room : Identifier) :
    linesOf room o.response = [] := by
  cases o with
  | message _ => cases h
  | _ => rfl

theorem flatMap_linesOf_filter (outs : List Output) (room : Identifier) :
    (outs.filter fun o => !o.isResponse).flatMap (fun o => linesOf room o.response) =
      outs.flatMap fun o => linesOf room o.response := by
  induction outs with
  | nil => rfl
  | cons o outs ih =>
      rw [List.filter_cons, List.flatMap_cons, ← ih]
      cases ho : o.isResponse with
      | true =>
          rw [linesOf_response ho]
          rfl
      | false => rfl

end Client

/-! ## A read that has been started -/

theorem Connection.SocketReader.size_ne_none {r : SocketReader} (h : r.pending ≠ .closed) :
    r.size ≠ none := by
  rw [SocketReader.size]
  split
  · exact Option.some_ne_none _
  · exact Option.some_ne_none _
  · rename_i hclosed
    exact absurd hclosed h

theorem ReadState.size_ne_none {st : ReadState} (h : st.pending ≠ []) : st.size ≠ none := by
  rw [ReadState.size]
  split
  · rename_i hnone
    exact absurd hnone h
  · exact Option.some_ne_none _
  · exact Option.some_ne_none _

namespace Windows

/-- Wherever the client is, it has the lines of what it has read. -/
theorem holds_of_tracks {todo done : List {m : FactoryMessage // Client.Readable m}}
    {r : Receiver Windows UInt8} (h : frames.Tracks todo done r) :
    done <+: todo ∧ r.state.Holds done := by
  obtain ⟨consumed, hat, -⟩ := h
  refine ⟨hat.prefix_todo, ?_⟩
  cases hat with
  | idle _ hidle => exact hidle.2
  | within _ hwithin =>
      obtain ⟨-, -, -, -, hholds⟩ := hwithin
      exact hholds
  | stopped _ hstopped => exact hstopped.2

end Windows

namespace ChatSystem

variable {E : Sqlite} {clientIds ids : ConnectionId → Identifier} {logIns : ConnectionId → LogIn}
  {n : ChatSystem E} {es : List SystemEvent}

/-! ## Nothing is on its way -/

/-- The client has sent everything and the read loop has read it. -/
structure Uplinked (n : ChatSystem E) (s : ConnectionId) : Prop where
  socketOpen : (n.stations s).windows.state.reader.client.socketOpen = true
  written : (n.stations s).uplink.pending = []
  arrived : (n.readers s).arrived = (n.stations s).uplink.sent
  running : (n.readers s).ended = false
  reading : (n.readers s).state.pending ≠ .closed
  atRest : (n.readers s).toReading.AtRest SocketReader.program

/-- The process has sent everything and the client has read it. -/
structure Downlinked (n : ChatSystem E) (s : ConnectionId) : Prop where
  socketOpen : (n.ledger.process.server.connections s).socketOpen = true
  written : (n.ledger.process.links s).socket.pending = []
  queue : (n.ledger.process.links s).sendMsgsQueue = []
  arrived : (n.stations s).windows.arrived = (n.ledger.process.links s).socket.sent
  running : (n.stations s).windows.ended = false
  reading : (n.stations s).windows.state.reader.pending ≠ []
  atRest : (n.stations s).windows.toReading.AtRest Windows.program

instance {σ β : Type*} (P : ReadProgram σ β) (r : Reading σ β) : Decidable (r.AtRest P) :=
  match h : P.size r.state with
  | none => isTrue (Or.inl h)
  | some size =>
      decidable_of_iff (r.got.length < size ∧ r.available.length = 0 ∧ r.ended = false) <| by
        rw [Reading.AtRest, h]
        simp

instance (n : ChatSystem E) (s : ConnectionId) : Decidable (n.Uplinked s) :=
  decidable_of_iff
    ((n.stations s).windows.state.reader.client.socketOpen = true ∧
      (n.stations s).uplink.pending.length = 0 ∧
      (n.readers s).arrived = (n.stations s).uplink.sent ∧ (n.readers s).ended = false ∧
      (n.readers s).state.pending ≠ .closed ∧ (n.readers s).toReading.AtRest SocketReader.program)
    ⟨fun ⟨h₁, h₂, h₃, h₄, h₅, h₆⟩ => ⟨h₁, List.length_eq_zero_iff.mp h₂, h₃, h₄, h₅, h₆⟩,
      fun ⟨h₁, h₂, h₃, h₄, h₅, h₆⟩ => ⟨h₁, List.length_eq_zero_iff.mpr h₂, h₃, h₄, h₅, h₆⟩⟩

instance (n : ChatSystem E) (s : ConnectionId) : Decidable (n.Downlinked s) :=
  decidable_of_iff
    ((n.ledger.process.server.connections s).socketOpen = true ∧
      (n.ledger.process.links s).socket.pending = [] ∧
      (n.ledger.process.links s).sendMsgsQueue = [] ∧
      (n.stations s).windows.arrived = (n.ledger.process.links s).socket.sent ∧
      (n.stations s).windows.ended = false ∧
      (n.stations s).windows.state.reader.pending ≠ [] ∧
      (n.stations s).windows.toReading.AtRest Windows.program)
    ⟨fun ⟨h₁, h₂, h₃, h₄, h₅, h₆, h₇⟩ => ⟨h₁, h₂, h₃, h₄, h₅, h₆, h₇⟩,
      fun ⟨h₁, h₂, h₃, h₄, h₅, h₆, h₇⟩ => ⟨h₁, h₂, h₃, h₄, h₅, h₆, h₇⟩⟩

/-! ## Two users in a room -/

/-- A request whose body has `size` bytes goes from the client to the read loop. -/
def upload (s : ConnectionId) (size : Nat) : List SystemEvent :=
  [.client s (.transmit 0 99), .client s (.written 0), .request s (.arrive 99),
    .request s (.take 19), .request s .complete, .request s (.take size), .request s .complete]

/-- A response whose body has `size` bytes goes from the process to the client. -/
def download (s : ConnectionId) (size : Nat) : List SystemEvent :=
  [.server (.transmit s 0 99), .server (.complete s 0), .client s (.read (.arrive 99)),
    .client s (.read (.take 19)), .client s (.read .complete), .client s (.read (.take size)),
    .client s (.read .complete)]

/-- What the user of a client does. -/
def clicks (s : ConnectionId) (es : List WindowEvent) : List SystemEvent :=
  es.map fun e => .client s (.windows e)

/-- The user of a client registers, and the answer is read. -/
def registering (s : ConnectionId) : List SystemEvent :=
  upload s 8 ++ [.server (.run 0), .server (.run 0)] ++ download s 6

/-- User 1 joins room 5 and is told so twice, by the notice and by the answer. -/
def joining : List SystemEvent :=
  clicks 1 [.handle, .addChannel 5] ++ upload 1 4 ++ [.server (.run 0)] ++ download 1 30 ++
    [.server (.run 0)] ++ download 1 6

/-- User 2 joins the room too, and both are told so. -/
def following : List SystemEvent :=
  clicks 2 [.handle, .addChannel 5] ++ upload 2 4 ++ [.server (.run 0)] ++ download 2 30 ++
    download 2 30 ++ download 1 30 ++ [.server (.run 0)] ++ download 2 6

/-- User 1 opens the room and types a text, and both read it. -/
def typing : List SystemEvent :=
  clicks 1 [.handle, .handle, .handle, .doubleClick 0, .send (ascii "a")] ++ upload 1 10 ++
    [.server (.run 0)] ++ download 1 10 ++ download 2 10

/-- All of it. -/
def chatting : List SystemEvent :=
  registering 1 ++ registering 2 ++ joining ++ following ++ typing

/-- User 1 is `u`, all others are `v`. -/
def users (s : ConnectionId) : LogIn :=
  if s = 1 then .registration (ascii "u") (ascii "p") else .registration (ascii "v") (ascii "p")

theorem sendable_users (s : ConnectionId) : (users s).request.Sendable := by
  rw [users]
  split
  · show (FactoryMessage.regRequest (ascii "u") (ascii "p")).Sendable
    decide
  · show (FactoryMessage.regRequest (ascii "v") (ascii "p")).Sendable
    decide

/-- Two users register, join room 5, and one types a text there; then everything is at
rest. -/
theorem exists_typing : ∃ n : ChatSystem memorySqlite,
    Run (Guarded Orderly Step) (start memorySqlite (fun _ => 0) (fun _ => 0) users) chatting n ∧
      n.ledger.process.pool = [] ∧ n.Uplinked 1 ∧ n.Downlinked 1 ∧ n.Downlinked 2 ∧
      (n.stations 1).asked.filterMap FactoryMessage.task =
        [⟨.doRegistration, .registerRequest ⟨ascii "u", ascii "p"⟩⟩,
          ⟨.doJoinRoom, .joinRoomRequest ⟨5⟩⟩, Service.textTo5 "a"] ∧
      (n.stations 1).asked.filterMap FactoryMessage.text = [⟨5, ascii "u", ascii "a"⟩] ∧
      (n.stations 1).asked.filterMap FactoryMessage.asks =
        [.registrationResponse, .joinRoomResponse] ∧
      (n.stations 2).windows.state.reader.client.lines 5 =
        [⟨ascii "u", ascii "u joined to room_id=5", 5⟩,
          ⟨ascii "v", ascii "v joined to room_id=5", 5⟩, ⟨ascii "u", ascii "a", 5⟩] := by
  have hend : (chatting.foldlM
      (fun n e => if Orderly n e then apply n e else none)
      (start memorySqlite (fun _ => 0) (fun _ => 0) users)).map (fun n => decide
        (n.ledger.process.pool = [] ∧ n.Uplinked 1 ∧ n.Downlinked 1 ∧ n.Downlinked 2 ∧
          (n.stations 1).asked.filterMap FactoryMessage.task =
            [⟨.doRegistration, .registerRequest ⟨ascii "u", ascii "p"⟩⟩,
              ⟨.doJoinRoom, .joinRoomRequest ⟨5⟩⟩, Service.textTo5 "a"] ∧
          (n.stations 1).asked.filterMap FactoryMessage.text = [⟨5, ascii "u", ascii "a"⟩] ∧
          (n.stations 1).asked.filterMap FactoryMessage.asks =
            [.registrationResponse, .joinRoomResponse] ∧
          (n.stations 2).windows.state.reader.client.lines 5 =
            [⟨ascii "u", ascii "u joined to room_id=5", 5⟩,
              ⟨ascii "v", ascii "v joined to room_id=5", 5⟩, ⟨ascii "u", ascii "a", 5⟩])) =
      some true := by
    decide +kernel
  obtain ⟨n, hn, hchecked⟩ := Option.map_eq_some_iff.mp hend
  exact ⟨n, Run.guarded_of_foldlM hn, of_decide_eq_true hchecked⟩

/-! ## From the client to the process -/

theorem Sound.tasks (h : Sound ids logIns n) (s : ConnectionId) :
    n.ledger.asked.filterMap (PoolJob.taskOf s) <+:
        (n.stations s).asked.filterMap FactoryMessage.task ∧
      (n.Uplinked s → n.ledger.asked.filterMap (PoolJob.taskOf s) =
        (n.stations s).asked.filterMap FactoryMessage.task) := by
  obtain ⟨todo, done, htodo, htracks⟩ := (h.lines s).uplink
  have htasks : n.ledger.asked.filterMap (PoolJob.taskOf s) = done.filterMap (·.1.task) :=
    (h.lines s).tasks.trans (SocketReader.posted_of_tracks htracks)
  have hasked : (n.stations s).asked.filterMap FactoryMessage.task = todo.filterMap (·.1.task) := by
    rw [htodo, List.filterMap_map]
    rfl
  rw [htasks, hasked]
  constructor
  · obtain ⟨consumed, hat, -⟩ := htracks
    obtain ⟨rest, rfl⟩ := hat.prefix_todo
    rw [List.filterMap_append]
    exact List.prefix_append _ _
  · intro hup
    obtain ⟨_, -, hkeeps⟩ := (h.lines s).downlink
    have hall : (n.readers s).arrived = SocketReader.frames.stream todo := by
      rw [SocketReader.stream_frames, ← htodo, hup.arrived,
        hkeeps.sent_eq hup.socketOpen hup.written]
    rw [htracks.eq_todo hup.atRest hup.running (SocketReader.size_ne_none hup.reading) hall]

/-- **Requests are read once and in order.**  In every orderly run the process has read the
first requests each client has made, in the order they were made, none twice and none left
out; and all of them when nothing is on its way. -/
theorem tasks_prefix_asked (hE : E.Lawful) (hlogIns : ∀ s, (logIns s).request.Sendable)
    (h : Run (Guarded Orderly Step) (start E clientIds ids logIns) es n) (s : ConnectionId) :
    n.ledger.asked.filterMap (PoolJob.taskOf s) <+:
        (n.stations s).asked.filterMap FactoryMessage.task ∧
      (n.Uplinked s → n.ledger.asked.filterMap (PoolJob.taskOf s) =
        (n.stations s).asked.filterMap FactoryMessage.task) :=
  (sound_of_run hE hlogIns h).tasks s

/-- The three requests have been read. -/
theorem tasks_prefix_asked_typing : ∃ n : ChatSystem memorySqlite,
    Run (Guarded Orderly Step) (start memorySqlite (fun _ => 0) (fun _ => 0) users) chatting n ∧
      n.ledger.asked.filterMap (PoolJob.taskOf 1) =
        [⟨.doRegistration, .registerRequest ⟨ascii "u", ascii "p"⟩⟩,
          ⟨.doJoinRoom, .joinRoomRequest ⟨5⟩⟩, Service.textTo5 "a"] := by
  obtain ⟨n, hrun, -, hup, -, -, htasks, -⟩ := exists_typing
  refine ⟨n, hrun, ?_⟩
  rw [(tasks_prefix_asked memorySqlite_lawful sendable_users hrun 1).2 hup, htasks]

/-! ## From the process to the client -/

/-- The client has read the first responses; all when nothing is on its way. -/
theorem Sound.responses (h : Sound ids logIns n) (s : ConnectionId) :
    ∃ done rest : List {m : FactoryMessage // Client.Readable m},
      (n.ledger.process.links s).socket.started = (done ++ rest).map (fun m => m.1.frame) ∧
      (n.stations s).windows.state.Holds done ∧ (n.Downlinked s → rest = []) := by
  obtain ⟨todo, htodo, hkeeps⟩ := (h.lines s).downlink
  cases hkeeps.phase with
  | connecting hwindows _ _ _ =>
      refine ⟨[], todo, htodo, ?_, ?_⟩
      · rw [hwindows]
        exact fun _ => rfl
      · intro hdown
        refine absurd ?_ hdown.reading
        rw [hwindows]
        rfl
  | session _ _ howners _ =>
      obtain ⟨done, htracks⟩ := hkeeps.reads (Station.ne_of_owners howners)
      obtain ⟨⟨rest, rfl⟩, hholds⟩ := Windows.holds_of_tracks htracks
      refine ⟨done, rest, htodo, hholds, ?_⟩
      intro hdown
      have hall : (n.stations s).windows.arrived = Windows.frames.stream (done ++ rest) := by
        rw [Windows.stream_frames, ← htodo, hdown.arrived]
        exact ((h.server.kept s).whole hdown.socketOpen).sent_eq hdown.written
      have heq := htracks.eq_todo hdown.atRest hdown.running
        (ReadState.size_ne_none hdown.reading) hall
      exact List.append_right_eq_self.mp heq.symm

/-- What the client has read, as the outputs that have been written to it. -/
theorem Sound.lines_eq (h : Sound ids logIns n) (s : ConnectionId) :
    ∃ outs waiting answers : List Output, n.ledger.Accounted s answers ∧
      (n.ledger.process.links s).socket.started = outs.map (·.response.frame) ∧
      (n.ledger.process.links s).sendMsgsQueue.tail = waiting.map (·.response.frame) ∧
      outs.filter (fun o => !o.isResponse) ++ waiting =
        n.ledger.handedOut.filter (Output.queuedFor s) ∧
      outs.filter Output.isResponse = answers ∧
      ∀ room, (n.stations s).windows.state.reader.client.lines room <+:
          outs.flatMap (fun o => Client.linesOf room o.response) ∧
        (n.Downlinked s → (n.stations s).windows.state.reader.client.lines room =
          outs.flatMap fun o => Client.linesOf room o.response) := by
  obtain ⟨outs, waiting, answers, haccounted, houts, hwaiting, hmessages, hanswers, hreadable⟩ :=
    h.server.carried s
  refine ⟨outs, waiting, answers, haccounted, houts, hwaiting, hmessages, hanswers, ?_⟩
  intro room
  obtain ⟨done, rest, hstarted, hholds, hdown⟩ := h.responses s
  have hlines : ((done ++ rest).map (·.1)).flatMap (Client.linesOf room) =
      (outs.map Output.response).flatMap (Client.linesOf room) := by
    refine Client.flatMap_linesOf_eq ?_ ?_ ?_ room
    · intro m hm
      obtain ⟨m, -, rfl⟩ := List.mem_map.mp hm
      exact m.2
    · intro m hm
      obtain ⟨o, ho, rfl⟩ := List.mem_map.mp hm
      exact hreadable o ho
    · rw [List.map_map, List.map_map]
      exact hstarted.symm.trans houts
  rw [List.flatMap_map, List.flatMap_map] at hlines
  rw [hholds room, ← hlines, List.flatMap_append]
  refine ⟨List.prefix_append _ _, ?_⟩
  intro hdownlinked
  rw [hdown hdownlinked, List.flatMap_nil, List.append_nil]

/-- **What is handed out is shown once and in order.**  In every orderly run the lines of a
room at a client are those of the first messages handed out to it, in the order they were
handed out, none twice and none left out; and of all of them when nothing is on its way. -/
theorem lines_prefix_handedOut (hE : E.Lawful) (hlogIns : ∀ s, (logIns s).request.Sendable)
    (h : Run (Guarded Orderly Step) (start E clientIds ids logIns) es n) (s : ConnectionId)
    (room : Identifier) :
    (n.stations s).windows.state.reader.client.lines room <+:
        (n.ledger.handedOut.filter (Output.queuedFor s)).flatMap
          (fun o => Client.linesOf room o.response) ∧
      (n.Downlinked s → (n.stations s).windows.state.reader.client.lines room =
        (n.ledger.handedOut.filter (Output.queuedFor s)).flatMap
          fun o => Client.linesOf room o.response) := by
  obtain ⟨outs, waiting, -, -, -, hwaiting, hmessages, -, hlines⟩ :=
    (sound_of_run hE hlogIns h).lines_eq s
  obtain ⟨hinitial, hall⟩ := hlines room
  rw [← hmessages, List.flatMap_append, Client.flatMap_linesOf_filter]
  refine ⟨hinitial.trans (List.prefix_append _ _), ?_⟩
  intro hdown
  rw [hdown.queue, List.tail_nil] at hwaiting
  obtain rfl := List.map_eq_nil_iff.mp hwaiting.symm
  rw [List.flatMap_nil, List.append_nil]
  exact hall hdown

/-- The notices and the text have been handed out to user 2. -/
theorem lines_prefix_handedOut_typing : ∃ n : ChatSystem memorySqlite,
    Run (Guarded Orderly Step) (start memorySqlite (fun _ => 0) (fun _ => 0) users) chatting n ∧
      (n.ledger.handedOut.filter (Output.queuedFor 2)).flatMap
          (fun o => Client.linesOf 5 o.response) =
        [⟨ascii "u", ascii "u joined to room_id=5", 5⟩,
          ⟨ascii "v", ascii "v joined to room_id=5", 5⟩, ⟨ascii "u", ascii "a", 5⟩] := by
  obtain ⟨n, hrun, -, -, -, hdown, -, -, -, hlines⟩ := exists_typing
  refine ⟨n, hrun, ?_⟩
  rw [← (lines_prefix_handedOut memorySqlite_lawful sendable_users hrun 2 5).2 hdown, hlines]

/-! ## From one user to another -/

/-- The login of a connection: that of its user, and the words of the process before the
user has logged in and after the connection has been freed. -/
inductive Known (logIns : ConnectionId → LogIn) : Bytes → Prop where
  | user (t : ConnectionId) : Known logIns (logIns t).login
  | fresh : Known logIns []
  | freed : Known logIns (ascii "unused")

/-- A text some user has typed under the login of this user, or a notice. -/
inductive Genuine (logIns : ConnectionId → LogIn) (n : ChatSystem E) : TextSendData → Prop where
  | typed {t : ConnectionId} {data : TextSendData} :
      data ∈ (n.stations t).asked.filterMap FactoryMessage.text →
      data.login = (logIns t).login → Genuine logIns n data
  | joined {login : Bytes} {roomId : Identifier} :
      Known logIns login → Genuine logIns n (Channel.joinNotice login roomId)
  | left {login : Bytes} {roomId : Identifier} :
      Known logIns login → Genuine logIns n (Channel.leaveNotice login roomId)

/-- What the process has read has been asked for. -/
theorem Sound.asked (h : Sound ids logIns n) {s : ConnectionId} {task : Task}
    (hmem : .request s task ∈ n.ledger.asked) :
    ∃ m ∈ (n.stations s).asked, m.task = some task := by
  have htask : task ∈ n.ledger.asked.filterMap (PoolJob.taskOf s) :=
    List.mem_filterMap.mpr ⟨_, hmem, if_pos rfl⟩
  exact List.mem_filterMap.mp ((h.tasks s).1.subset htask)

/-- A request goes out under the login of its user. -/
theorem Sound.author (h : Sound ids logIns n) {s : ConnectionId} {m : FactoryMessage}
    (hm : m ∈ (n.stations s).asked) {login : Bytes} (hauthor : login ∈ m.author) :
    login = (logIns s).login := by
  obtain ⟨_, -, hkeeps⟩ := (h.lines s).downlink
  exact hkeeps.authors m hm login hauthor

theorem Sound.known (h : Sound ids logIns n) {login : Bytes} (hnamed : Named n.ledger.asked login) :
    Known logIns login := by
  cases hnamed with
  | asked hmem =>
      obtain ⟨job, hjob, hlogin⟩ := List.mem_filterMap.mp hmem
      cases job with
      | response _ => cases hlogin
      | request t task =>
          obtain ⟨m, hm, htask⟩ := h.asked hjob
          rw [h.author hm (FactoryMessage.author_of_login htask hlogin)]
          exact .user t
  | fresh => exact .fresh
  | freed => exact .freed

/-- A text the process has read has been typed. -/
theorem Sound.typed (h : Sound ids logIns n) {data : TextSendData}
    (hdata : data ∈ n.ledger.asked.filterMap PoolJob.text) :
    ∃ t, data ∈ (n.stations t).asked.filterMap FactoryMessage.text ∧
      data.login = (logIns t).login := by
  obtain ⟨job, hjob, htext⟩ := List.mem_filterMap.mp hdata
  cases job with
  | response _ => cases htext
  | request t task =>
      obtain ⟨m, hm, htask⟩ := h.asked hjob
      have hm' : m.text = some data := by
        rw [← m.text_eq t, htask, Option.bind_some, htext]
      exact ⟨t, List.mem_filterMap.mpr ⟨m, hm, hm'⟩,
        h.author hm (FactoryMessage.author_of_text hm')⟩

theorem Sound.genuine (h : Sound ids logIns n) {data : TextSendData}
    (hdata : Sourced n.ledger.asked data) : Genuine logIns n data := by
  cases hdata with
  | text hmem =>
      obtain ⟨t, htyped, hlogin⟩ := h.typed hmem
      exact .typed htyped hlogin
  | joined hnamed => exact .joined (h.known hnamed)
  | left hnamed => exact .left (h.known hnamed)

/-- **Nobody is shown what nobody has typed.**  In every orderly run each line a client has
is a text that the user of some client has typed in this room, under the login of this user,
or the notice that somebody has joined or left. -/
theorem line_genuine (hE : E.Lawful) (hlogIns : ∀ s, (logIns s).request.Sendable)
    (h : Run (Guarded Orderly Step) (start E clientIds ids logIns) es n) (s : ConnectionId)
    {room : Identifier} {line : ClientTextMsg}
    (hline : line ∈ (n.stations s).windows.state.reader.client.lines room) :
    ∃ data : TextSendData, Genuine logIns n data ∧ data.roomId = room ∧
      line = ⟨data.login, data.text, data.roomId⟩ := by
  have hsound := sound_of_run hE hlogIns h
  obtain ⟨outs, waiting, -, -, -, -, hmessages, -, hlines⟩ := hsound.lines_eq s
  obtain ⟨o, ho, hmem⟩ := List.mem_flatMap.mp ((hlines room).1.subset hline)
  cases o with
  | message d =>
      have hhanded : .message d ∈ n.ledger.handedOut.filter (Output.queuedFor s) := by
        rw [← hmessages]
        exact List.mem_append_left _ (List.mem_filter.mpr ⟨ho, rfl⟩)
      refine ⟨d.data, hsound.genuine (hsound.server.sourced d (List.mem_filter.mp hhanded).1), ?_⟩
      simp only [Output.response, Client.linesOf] at hmem
      split at hmem
      · rename_i hroom
        exact ⟨hroom.symm, List.mem_singleton.mp hmem⟩
      · cases hmem
  | _ => cases hmem

/-- User 2 reads what user 1 has typed. -/
theorem line_genuine_typing : ∃ n : ChatSystem memorySqlite,
    Run (Guarded Orderly Step) (start memorySqlite (fun _ => 0) (fun _ => 0) users) chatting n ∧
      (⟨ascii "u", ascii "a", 5⟩ : ClientTextMsg) ∈
        (n.stations 2).windows.state.reader.client.lines 5 ∧
      ∃ data : TextSendData, Genuine users n data ∧ data.roomId = 5 ∧
        (⟨ascii "u", ascii "a", 5⟩ : ClientTextMsg) = ⟨data.login, data.text, data.roomId⟩ := by
  obtain ⟨n, hrun, -, -, -, -, -, -, -, hlines⟩ := exists_typing
  have hread : (⟨ascii "u", ascii "a", 5⟩ : ClientTextMsg) ∈
      (n.stations 2).windows.state.reader.client.lines 5 := by
    rw [hlines]
    decide
  exact ⟨n, hrun, hread, line_genuine memorySqlite_lawful sendable_users hrun 2 hread⟩

/-! ## From a user to the file -/

/-- The texts of the tasks of one connection are some of all texts. -/
theorem sublist_texts (s : ConnectionId) (jobs : List PoolJob) :
    ((jobs.filterMap (PoolJob.taskOf s)).filterMap fun task => (PoolJob.request s task).text).Sublist
      (jobs.filterMap PoolJob.text) := by
  induction jobs with
  | nil => exact List.Sublist.refl _
  | cons job jobs ih =>
      have htext : (job :: jobs).filterMap PoolJob.text =
          job.text.toList ++ jobs.filterMap PoolJob.text := by
        rw [List.filterMap_cons]
        cases job.text with
        | none => rfl
        | some data => rfl
      rw [htext]
      cases htask : job.taskOf s with
      | none =>
          rw [List.filterMap_cons_none htask]
          exact ih.trans (List.sublist_append_right _ _)
      | some task =>
          -- it is a request of `s`
          have hjob : job = .request s task := by
            cases job with
            | response _ => cases htask
            | request t task' =>
                obtain ⟨rfl, hsome⟩ := Option.ite_none_right_eq_some.mp htask
                cases hsome
                rfl
          subst hjob
          rw [List.filterMap_cons_some htask, List.filterMap_cons]
          cases (PoolJob.request s task).text with
          | none => exact ih
          | some data => exact ih.cons_cons data

/-- **What is typed is kept.**  In every orderly run that leaves nothing in the pool the file
has all that has been typed at clients with nothing on its way, as often as it has been
typed, and nothing but what has been typed at some client under the login of its user. -/
theorem typed_saved (hE : E.Lawful) (hlogIns : ∀ s, (logIns s).request.Sendable)
    (h : Run (Guarded Orderly Step) (start E clientIds ids logIns) es n)
    (hpool : n.ledger.process.pool = []) :
    ∃ saved : List TextSendData,
      E.history n.ledger.process.server.chat.db.store = saved.map rowOf ∧
      (∀ s, n.Uplinked s →
        List.Subperm ((n.stations s).asked.filterMap FactoryMessage.text) saved) ∧
      ∀ data ∈ saved, ∃ t, data ∈ (n.stations t).asked.filterMap FactoryMessage.text ∧
        data.login = (logIns t).login := by
  have hsound := sound_of_run hE hlogIns h
  obtain ⟨saved, hstored⟩ := hsound.server.honest.stored
  have hperm : (n.ledger.asked.filterMap PoolJob.text).Perm saved := by
    have htexts := hstored.texts
    rw [show n.ledger.process.pool = [] from hpool] at htexts
    exact htexts
  refine ⟨saved, hstored.history, ?_, ?_⟩
  · intro s hup
    have htexts : (n.stations s).asked.filterMap FactoryMessage.text =
        (n.ledger.asked.filterMap (PoolJob.taskOf s)).filterMap fun task =>
          (PoolJob.request s task).text := by
      rw [(hsound.tasks s).2 hup, List.filterMap_filterMap]
      exact List.filterMap_congr fun m _ => (m.text_eq s).symm
    rw [htexts]
    exact (sublist_texts s n.ledger.asked).subperm.trans hperm.subperm
  · intro data hdata
    exact hsound.typed (hperm.mem_iff.mpr hdata)

/-- The text is in the file. -/
theorem typed_saved_typing : ∃ (n : ChatSystem memorySqlite) (saved : List TextSendData),
    Run (Guarded Orderly Step) (start memorySqlite (fun _ => 0) (fun _ => 0) users) chatting n ∧
      memorySqlite.history n.ledger.process.server.chat.db.store = saved.map rowOf ∧
      List.Subperm [(⟨5, ascii "u", ascii "a"⟩ : TextSendData)] saved := by
  obtain ⟨n, hrun, hpool, hup, -, -, -, htexts, -⟩ := exists_typing
  obtain ⟨saved, hhistory, htyped, -⟩ :=
    typed_saved memorySqlite_lawful sendable_users hrun hpool
  exact ⟨n, saved, hrun, hhistory, htexts ▸ htyped 1 hup⟩

/-! ## From a user to the answer -/

theorem asks_eq (s : ConnectionId) (jobs : List PoolJob) :
    jobs.filterMap (PoolJob.asks s) = (jobs.filterMap (PoolJob.taskOf s)).filterMap Task.answer := by
  rw [List.filterMap_filterMap]
  refine List.filterMap_congr fun job _ => ?_
  cases job with
  | response _ => rfl
  | request t task =>
      rw [PoolJob.asks, PoolJob.taskOf]
      split
      · rfl
      · rfl

/-- **Every request is answered to its user.**  When an orderly run has left nothing in the
pool and nothing on its way to and from a client, the client has read some responses whole,
its rooms have the lines of these, and their answers are one for each request that asks for
one, under the command it asks for. -/
theorem answers_read (hE : E.Lawful) (hlogIns : ∀ s, (logIns s).request.Sendable)
    (h : Run (Guarded Orderly Step) (start E clientIds ids logIns) es n)
    (hpool : n.ledger.process.pool = []) {s : ConnectionId} (hup : n.Uplinked s)
    (hdown : n.Downlinked s) :
    ∃ responses : List FactoryMessage,
      (n.stations s).windows.arrived = (responses.map FactoryMessage.frame).flatten ∧
      (∀ room, (n.stations s).windows.state.reader.client.lines room =
        responses.flatMap (Client.linesOf room)) ∧
      (responses.filterMap FactoryMessage.answer).Perm
        ((n.stations s).asked.filterMap FactoryMessage.asks) := by
  have hsound := sound_of_run hE hlogIns h
  obtain ⟨outs, waiting, answers, haccounted, houts, -, -, hanswers, hlines⟩ := hsound.lines_eq s
  refine ⟨outs.map Output.response, ?_, ?_, ?_⟩
  · rw [hdown.arrived, List.map_map]
    exact ((hsound.server.kept s).whole hdown.socketOpen).sent_eq hdown.written |>.trans
      (congrArg List.flatten houts)
  · intro room
    rw [(hlines room).2 hdown, List.flatMap_map]
  · have hposted := haccounted.posted
    have hasked := haccounted.asked
    rw [hpool] at hposted hasked
    have hwritten : (outs.map Output.response).filterMap FactoryMessage.answer =
        answers.filterMap Output.answer := by
      rw [← hanswers, Output.filterMap_answer, List.filterMap_map]
      exact List.filterMap_congr fun o _ => o.answer_eq.symm
    have hmade : (n.stations s).asked.filterMap FactoryMessage.asks =
        n.ledger.asked.filterMap (PoolJob.asks s) := by
      rw [asks_eq, (hsound.tasks s).2 hup, List.filterMap_filterMap]
      rfl
    rw [hwritten, hmade]
    exact (hposted.filterMap Output.answer).trans hasked.symm

/-- The registration and the join have been answered. -/
theorem answers_read_typing : ∃ (n : ChatSystem memorySqlite) (responses : List FactoryMessage),
    Run (Guarded Orderly Step) (start memorySqlite (fun _ => 0) (fun _ => 0) users) chatting n ∧
      (n.stations 1).windows.arrived = (responses.map FactoryMessage.frame).flatten ∧
      (responses.filterMap FactoryMessage.answer).Perm
        [.registrationResponse, .joinRoomResponse] := by
  obtain ⟨n, hrun, hpool, hup, hdown, -, -, -, hasks, -⟩ := exists_typing
  obtain ⟨responses, harrived, -, hanswers⟩ :=
    answers_read memorySqlite_lawful sendable_users hrun hpool hup hdown
  exact ⟨n, responses, hrun, harrived, hasks ▸ hanswers⟩

end ChatSystem

end AppChat
