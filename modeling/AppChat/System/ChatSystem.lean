/-
  `System.ChatSystem`: the server, the clients, and the lines between them.

  The server's end of a connection is a read loop and a socket, the client's end is a
  socket and its read handlers.  The bytes one end has sent come to the other in segments
  of any size and at any time.  An event is an event of the process, of one read loop, or
  of one client, and the events come in any order.  A write sends what its buffer held when
  it was started, also where that buffer is local to a handler that has returned.
-/
import AppChat.Client.Station
import AppChat.Connection.Provenance
import AppChat.Connection.Requests

set_option autoImplicit false

namespace AppChat

open Foundation Storage Serialize Protocol Connection

/-! ## What the process has sent stays sent -/

namespace Connection.WritingServer

variable {D : DatabaseOps} {st st' : WritingServer D} {e : SocketEvent}

theorem extends_addMsgSendQueue (l : Link) (b : Bytes) :
    l.socket.Extends (l.addMsgSendQueue b).socket := by
  rw [socket_addMsgSendQueue]
  split
  · exact l.socket.extends_start .sendingMsgsToClient b
  · exact .refl _

theorem extends_become (st : WritingServer D) (sv : Server D) (out : List Output)
    (s : ConnectionId) : (st.links s).socket.Extends ((st.become sv out).links s).socket := by
  rw [become_links]
  generalize st.links s = l
  induction messagesTo s out generalizing l with
  | nil => exact .refl _
  | cons b bs ih => exact (extends_addMsgSendQueue l b).trans (ih _)

theorem extends_setLink (st : WritingServer D) {t : ConnectionId} {l : Link}
    (h : (st.links t).socket.Extends l.socket) (s : ConnectionId) :
    (st.links s).socket.Extends ((st.setLink t l).links s).socket := by
  rcases eq_or_ne s t with rfl | hne
  · rwa [setLink_links_self]
  · rw [setLink_links_of_ne st hne]
    exact .refl _

theorem extends_complete {l l' : Link} {i : Nat} (h : l.complete i = some l') :
    l.socket.Extends l'.socket := by
  unfold Link.complete at h
  split at h
  · cases h
  · rename_i writer socket hfinish
    have hfinished := WriteStream.extends_finish hfinish
    cases writer with
    | sendResponse =>
        cases h
        exact hfinished
    | sendingMsgsToClient =>
        simp only [Link.writeDone] at h
        split at h
        · cases h
        · cases h
          refine hfinished.trans ?_
          split
          · rw [Link.sendingMsgsToClient]
            split
            · exact .refl _
            · exact socket.extends_start .sendingMsgsToClient _
          · exact .refl _

theorem extends_of_step (h : Step st e st') (s : ConnectionId) :
    (st.links s).socket.Extends (st'.links s).socket := by
  cases e with
  | read t task =>
      cases h
      exact .refl _
  | readFailed t =>
      cases h
      exact extends_become st _ _ s
  | run i =>
      obtain ⟨job, -, hrun⟩ := Option.bind_eq_some_iff.mp h
      cases job with
      | request t task =>
          obtain ⟨result, -, rfl⟩ := Option.map_eq_some_iff.mp hrun
          exact extends_become { st with pool := st.pool.eraseIdx i } result.1 result.2 s
      | response o =>
          cases hrun
          exact extends_setLink { st with pool := st.pool.eraseIdx i }
            ((st.links o.recipient).socket.extends_start .sendResponse _) s
  | transmit t i n =>
      obtain ⟨-, hsend⟩ := Option.ite_none_right_eq_some.mp h
      obtain ⟨socket, htransmit, rfl⟩ := Option.map_eq_some_iff.mp hsend
      exact extends_setLink st (WriteStream.extends_transmit htransmit) s
  | complete t i =>
      obtain ⟨link, hcomplete, rfl⟩ := Option.map_eq_some_iff.mp h
      exact extends_setLink st (extends_complete hcomplete) s
  | fail t i =>
      obtain ⟨socket, habort, rfl⟩ := Option.map_eq_some_iff.mp h
      exact (extends_setLink st (WriteStream.extends_abort habort) s).trans (extends_become _ _ _ s)

end Connection.WritingServer

/-! ## The whole system -/

/-- The process with its ledger, and both ends of every connection. -/
structure ChatSystem (E : Sqlite) where
  ledger : Ledger (sqlDatabase E)
  readers : ConnectionId → Receiver SocketReader UInt8
  stations : ConnectionId → Station

/-- Something happens in the pool or on a socket of the process, to the read of a
connection, or at its client. -/
inductive SystemEvent where
  | server (e : SocketEvent)
  | request (connection : ConnectionId) (e : Receipt)
  | client (connection : ConnectionId) (e : StationEvent)
  deriving DecidableEq, Repr

/-- The reads happen to the read loops. -/
def Connection.SocketEvent.ofReader : SocketEvent → Bool
  | .read _ _ | .readFailed _ => true
  | _ => false

/-- What a completion of the read loop means to the process: it posts what has been read,
or it frees the connection. -/
def Connection.SocketReader.events (s : ConnectionId) (before after : SocketReader) (e : Receipt) :
    List SocketEvent :=
  if e = .fail ∧ before.pending = .header then [.readFailed s]
  else (after.posted.drop before.posted.length).map (.read s)

namespace ChatSystem

variable {E : Sqlite}

/-- The process on a new file, and the clients as they have connected. -/
def start (E : Sqlite) (clientIds ids : ConnectionId → Identifier) (logIns : ConnectionId → LogIn) :
    ChatSystem E where
  ledger := Ledger.start (Database.ofFile E.empty) clientIds
  readers _ := { state := {} }
  stations s := Station.start (ids s) (logIns s)

/-- What an event does; `none` when it cannot happen or ends the process. -/
def apply (n : ChatSystem E) : SystemEvent → Option (ChatSystem E)
  | .server e =>
      if e.ofReader then none
      else (n.ledger.apply e).map fun ledger => { n with ledger := ledger }
  | .request s e =>
      ((n.readers s).apply SocketReader.program (n.stations s).uplink.sent e).bind fun reader =>
        ((SocketReader.events s (n.readers s).state reader.state e).foldlM Ledger.apply
          n.ledger).map fun ledger =>
            { n with ledger := ledger, readers := Function.update n.readers s reader }
  | .client s e =>
      ((n.stations s).apply (n.ledger.process.links s).socket.sent e).map fun station =>
        { n with stations := Function.update n.stations s station }

/-- One event and what it leaves. -/
def Step (n : ChatSystem E) (e : SystemEvent) (n' : ChatSystem E) : Prop := n.apply e = some n'

/-- Every write of the process is started alone, no body is broken off, and the users make
only sendable requests. -/
def Orderly (n : ChatSystem E) : SystemEvent → Prop
  | .server e => WritingServer.Alone n.ledger.process e
  | .request s .fail => (n.readers s).state.pending = .header ∧
      WritingServer.Alone n.ledger.process (.readFailed s)
  | .client s (.windows e) => ∀ m ∈ (n.stations s).windows.state.request e, m.Sendable
  | _ => True

instance (n : ChatSystem E) (e : SystemEvent) : Decidable (n.Orderly e) :=
  match e with
  | .server _ => inferInstanceAs (Decidable (WritingServer.Alone _ _))
  | .request _ .fail => inferInstanceAs (Decidable (_ ∧ WritingServer.Alone _ _))
  | .client _ (.windows _) => inferInstanceAs (Decidable (∀ m ∈ (_ : Option FactoryMessage), m.Sendable))
  | .request _ (.arrive _) | .request _ (.take _) | .request _ .complete | .request _ .cut
  | .client _ (.read _) | .client _ (.transmit _ _) | .client _ (.written _)
  | .client _ (.writeFailed _) => inferInstanceAs (Decidable True)

end ChatSystem

/-! ## The process -/

/-- The task of a request from `s`. -/
def Connection.PoolJob.taskOf (s : ConnectionId) : PoolJob → Option Task
  | .request t task => if t = s then some task else none
  | .response _ => none

/-- The process keeps to its sockets, and what it has read and handed out is what clients
can send and read. -/
structure ServerSound {E : Sqlite} (l : Ledger (sqlDatabase E)) : Prop where
  kept : WritingServer.Kept l.process
  accounted : ∀ s, ∃ answers, l.Accounted s answers
  honest : Service.Honest ⟨l.process, l.asked, []⟩
  sourced : ∀ d, .message d ∈ l.handedOut → Sourced l.asked d.data
  sent : Sent l.asked

namespace ServerSound

variable {E : Sqlite} {l l' : Ledger (sqlDatabase E)} {s : ConnectionId}

theorem start (hE : E.Lawful) (clientIds : ConnectionId → Identifier) :
    ServerSound (Ledger.start (Database.ofFile E.empty) clientIds) where
  kept := WritingServer.kept_start _ clientIds
  accounted s := ⟨[], Ledger.accounted_start _ clientIds s⟩
  honest := Service.honest_start hE clientIds
  sourced _ hd := nomatch hd
  sent _ _ hmem := nomatch hmem

theorem step (hE : E.Lawful) {e : SocketEvent} (h : ServerSound l) (hstep : Ledger.Step l e l')
    (halone : WritingServer.Alone l.process e)
    (hread : ∀ s t, e = .read s t → ∃ m : FactoryMessage, m.task = some t ∧ m.Sendable) :
    ServerSound l' := by
  have haccounted : ∀ s, ∃ answers, l'.Accounted s answers := by
    intro s
    obtain ⟨answers, hs⟩ := h.accounted s
    exact Ledger.accounted_step hstep hs
  obtain ⟨process, hprocess, rfl⟩ := Option.map_eq_some_iff.mp hstep
  have hservice : Service.Step ⟨l.process, l.asked, []⟩ (.socket e)
      ⟨process, l.asked ++ e.request.toList, []⟩ := by
    rw [Service.Step, Service.apply, hprocess]
    rfl
  have hplain : Service.PlainRead ⟨l.process, l.asked, []⟩ (.socket e) := by
    cases e with
    | read s t =>
        obtain ⟨m, ht, t', ht', -, hplain, -⟩ := hread s t rfl
        cases ht.symm.trans ht'
        exact hplain
    | _ => trivial
  refine ⟨WritingServer.kept_step hprocess h.kept halone, haccounted,
    Service.honest_step hE hservice hplain h.honest, ?_, ?_⟩
  · intro d hd
    rcases List.mem_append.mp hd with hold | hnew
    · exact (h.sourced d hold).append _
    · have hsourced : Sourced l.asked d.data := h.honest.outputs hE hnew
      exact hsourced.append _
  · intro s t hmem
    rcases List.mem_append.mp hmem with hold | hnew
    · exact h.sent s t hold
    · cases e with
      | read s' t' =>
          cases List.mem_singleton.mp hnew
          exact hread s t rfl
      | _ => cases hnew

/-- Requests are read. -/
theorem reads (hE : E.Lawful) {tasks : List Task}
    (htasks : ∀ t ∈ tasks, ∃ m : FactoryMessage, m.task = some t ∧ m.Sendable) (h : ServerSound l)
    (hread : (tasks.map (SocketEvent.read s)).foldlM Ledger.apply l = some l') :
    ServerSound l' ∧ l'.process.links = l.process.links ∧
      l'.asked = l.asked ++ tasks.map (PoolJob.request s) := by
  induction tasks generalizing l with
  | nil =>
      cases hread
      exact ⟨h, rfl, (List.append_nil _).symm⟩
  | cons t tasks ih =>
      obtain ⟨hfirst, hrest⟩ := List.forall_mem_cons.mp htasks
      rw [List.map_cons, List.foldlM_cons] at hread
      obtain ⟨mid, hmid, hread⟩ := Option.bind_eq_some_iff.mp hread
      have halone : WritingServer.Alone l.process (.read s t) := ⟨nofun, nofun⟩
      have hsound : ServerSound mid := by
        refine h.step hE hmid halone ?_
        rintro _ _ ⟨⟩
        exact hfirst
      obtain ⟨hsound', hlinks, hasked⟩ := ih hrest hsound hread
      cases hmid
      refine ⟨hsound', hlinks, hasked.trans ?_⟩
      exact List.append_assoc ..

/-- Whatever is written to a client is a response it can read.  The texts among these and
those that wait in the queue behind its front are what has been handed out to it. -/
theorem carried (h : ServerSound l) (s : ConnectionId) :
    ∃ outs waiting answers : List Output, l.Accounted s answers ∧
      (l.process.links s).socket.started = outs.map (·.response.frame) ∧
      (l.process.links s).sendMsgsQueue.tail = waiting.map (·.response.frame) ∧
      outs.filter (fun o => !o.isResponse) ++ waiting = l.handedOut.filter (Output.queuedFor s) ∧
      outs.filter Output.isResponse = answers ∧ ∀ o ∈ outs, Client.Readable o.response := by
  obtain ⟨answers, haccounted⟩ := h.accounted s
  obtain ⟨outs, waiting, houts, hwaiting, hmessages, hanswers⟩ := haccounted.carries
  refine ⟨outs, waiting, answers, haccounted, houts, hwaiting, hmessages, hanswers, ?_⟩
  intro o ho
  cases o with
  | message d =>
      have hmem : .message d ∈ l.handedOut.filter (Output.queuedFor s) := by
        rw [← hmessages]
        exact List.mem_append_left _ (List.mem_filter.mpr ⟨ho, rfl⟩)
      exact (h.sourced d (List.mem_filter.mp hmem).1).readable h.sent
  | _ => trivial

/-- What is written to a client later on can be read too. -/
theorem exists_readable (h : ServerSound l) {before after : List Bytes}
    (hstarted : (l.process.links s).socket.started = before ++ after) :
    ∃ ms : List {m : FactoryMessage // Client.Readable m}, after = ms.map fun m => m.1.frame := by
  obtain ⟨outs, -, -, -, houts, -, -, -, hreadable⟩ := h.carried s
  obtain ⟨first, rest, rfl, -, rfl⟩ := List.map_eq_append_iff.mp (houts.symm.trans hstarted)
  refine ⟨rest.attach.map fun o => ⟨o.1.response, hreadable _ (List.mem_append_right _ o.2)⟩, ?_⟩
  rw [List.map_map]
  exact (@List.attach_map_val _ _ rest fun o : Output => o.response.frame).symm

end ServerSound

/-! ## A connection -/

/-- Both ends of the connection `s`.  The read loop has read the first requests of the
client, and the client has read the first responses of the process. -/
structure Line {E : Sqlite} (s : ConnectionId) (id : Identifier) (logIn : LogIn)
    (l : Ledger (sqlDatabase E)) (reader : Receiver SocketReader UInt8) (station : Station) :
    Prop where
  uplink : ∃ todo done : List {m : FactoryMessage // m.Sendable},
    station.asked = todo.map (·.1) ∧ SocketReader.frames.Tracks todo done reader
  arrived : reader.arrived <+: station.uplink.sent
  tasks : l.asked.filterMap (PoolJob.taskOf s) = reader.state.posted
  downlink : ∃ todo : List {m : FactoryMessage // Client.Readable m},
    (l.process.links s).socket.started = todo.map (fun m => m.1.frame) ∧
      Station.Keeps id logIn todo station
  received : station.windows.arrived <+: (l.process.links s).socket.sent

namespace Line

variable {E : Sqlite} {s : ConnectionId} {id : Identifier} {logIn : LogIn}
  {l l' : Ledger (sqlDatabase E)} {reader reader' : Receiver SocketReader UInt8}
  {station station' : Station}

theorem start (s : ConnectionId) (clientIds : ConnectionId → Identifier) (id : Identifier)
    (hlogIn : logIn.request.Sendable) :
    Line s id logIn (Ledger.start (Database.ofFile E.empty) clientIds) { state := {} }
      (Station.start id logIn) where
  uplink := ⟨[⟨_, hlogIn⟩], [], rfl, [], .idle rfl ⟨rfl, rfl⟩, List.prefix_refl _, fun _ => rfl⟩
  arrived := List.nil_prefix
  tasks := rfl
  downlink := ⟨[], rfl, Station.keeps_start id logIn⟩
  received := List.nil_prefix

/-- The process goes on. -/
theorem of_ledger (h : Line s id logIn l reader station) (hsound : ServerSound l')
    (hextends : (l.process.links s).socket.Extends (l'.process.links s).socket)
    (hasked : l'.asked.filterMap (PoolJob.taskOf s) = l.asked.filterMap (PoolJob.taskOf s)) :
    Line s id logIn l' reader station where
  uplink := h.uplink
  arrived := h.arrived
  tasks := hasked.trans h.tasks
  downlink := by
    obtain ⟨todo, htodo, hkeeps⟩ := h.downlink
    obtain ⟨more, hmore⟩ := hextends.started
    obtain ⟨ms, hms⟩ := hsound.exists_readable hmore.symm
    refine ⟨todo ++ ms, ?_, hkeeps.append_todo ms⟩
    rw [← hmore, List.map_append, htodo, hms]
  received := h.received.trans hextends.sent

/-- What has come to the client is a part of the frames of the responses. -/
theorem received_frames (h : Line s id logIn l reader station) (hsound : ServerSound l)
    {todo : List {m : FactoryMessage // Client.Readable m}}
    (htodo : (l.process.links s).socket.started = todo.map fun m => m.1.frame) :
    station.windows.arrived <+: Windows.frames.stream todo := by
  rw [Windows.stream_frames, ← htodo]
  exact h.received.trans (hsound.kept s).cut

/-- What has come to the read loop is a part of the frames of the requests. -/
theorem arrived_frames (h : Line s id logIn l reader station)
    {todo : List {m : FactoryMessage // m.Sendable}} (htodo : station.asked = todo.map (·.1)) :
    reader.arrived <+: SocketReader.frames.stream todo := by
  obtain ⟨_, -, hkeeps⟩ := h.downlink
  rw [SocketReader.stream_frames, ← htodo]
  exact h.arrived.trans hkeeps.sent_of_asked

/-- Something happens at the client. -/
theorem of_station (h : Line s id logIn l reader station) (hsound : ServerSound l) {e : StationEvent}
    (hstep : station.apply (l.process.links s).socket.sent e = some station')
    (hrequests : ∀ m ∈ station.requests e, m.Sendable) : Line s id logIn l reader station' := by
  obtain ⟨hextends, hasked, harrived⟩ := Station.later_of_step hstep
  refine ⟨?_, h.arrived.trans hextends.sent, h.tasks, ?_, harrived h.received⟩
  · obtain ⟨todo, done, htodo, htracks⟩ := h.uplink
    refine ⟨todo ++ (station.requests e).attach.map fun m => ⟨m.1, hrequests m.1 m.2⟩, done, ?_,
      htracks.append_todo _⟩
    rw [hasked, htodo, List.map_append, List.map_map]
    exact congrArg _ (List.attach_map_subtype_val _).symm
  · obtain ⟨todo, htodo, hkeeps⟩ := h.downlink
    exact ⟨todo, htodo, Station.keeps_step hkeeps (h.received_frames hsound htodo) hstep⟩

/-- Something happens to the read of the connection.  What it posts has been sent. -/
theorem of_reader (h : Line s id logIn l reader station) {e : Receipt}
    (hstep : reader.apply SocketReader.program station.uplink.sent e = some reader')
    (hfail : e = .fail → reader.state.pending = .header) :
    ∃ new, reader'.state.posted = reader.state.posted ++ new ∧
      (∀ t ∈ new, ∃ m : FactoryMessage, m.task = some t ∧ m.Sendable) ∧
      ∀ l' : Ledger (sqlDatabase E), l'.process.links = l.process.links →
        l'.asked.filterMap (PoolJob.taskOf s) = reader'.state.posted →
          Line s id logIn l' reader' station := by
  obtain ⟨todo, done, htodo, htracks⟩ := h.uplink
  have hbody : e = .fail → ∀ m, SocketReader.frames.Within done m reader.state →
      SocketReader.frames.Stopped done (SocketReader.program.failed reader.state reader.got) := by
    rintro he m ⟨hpending, -, -⟩
    cases (hfail he).symm.trans hpending
  obtain ⟨done', hdone, htracks'⟩ := htracks.apply hstep (h.arrived_frames htodo) hbody
  have hposted := SocketReader.posted_of_tracks htracks
  have hposted' := SocketReader.posted_of_tracks htracks'
  have hline : ∀ l' : Ledger (sqlDatabase E), l'.process.links = l.process.links →
      l'.asked.filterMap (PoolJob.taskOf s) = reader'.state.posted →
        Line s id logIn l' reader' station := by
    intro l' hlinks hasked
    refine ⟨⟨todo, done', htodo, htracks'⟩, Receiver.arrived_of_sent hstep h.arrived, hasked, ?_, ?_⟩
    · rw [hlinks]
      exact h.downlink
    · rw [hlinks]
      exact h.received
  rcases hdone with rfl | ⟨m, rfl⟩
  · exact ⟨[], by rw [List.append_nil, hposted', hposted], nofun, hline⟩
  · refine ⟨m.1.task.toList, ?_, ?_, hline⟩
    · rw [hposted', hposted, List.filterMap_append]
      refine congrArg _ ?_
      rw [List.filterMap_cons, List.filterMap_nil]
      cases m.1.task with
      | none => rfl
      | some t => rfl
    · intro t ht
      exact ⟨m.1, Option.mem_toList.mp ht, m.2⟩

end Line

/-! ## Every step -/

namespace Connection

variable {D : DatabaseOps}

/-- The tasks of `s` among requests of `t`. -/
theorem taskOf_requests (s t : ConnectionId) (tasks : List Task) :
    (tasks.map (PoolJob.request t)).filterMap (PoolJob.taskOf s) = if t = s then tasks else [] := by
  rw [List.filterMap_map]
  split
  · rename_i heq
    refine (List.filterMap_congr fun task _ => ?_).trans (List.filterMap_some ..)
    exact if_pos heq
  · rename_i hne
    exact List.filterMap_eq_nil_iff.mpr fun task _ => if_neg hne

/-- A read that fails in a header posts nothing. -/
theorem SocketReader.posted_fail {reader reader' : Receiver SocketReader UInt8} {sent : Bytes}
    (hstep : reader.apply SocketReader.program sent .fail = some reader')
    (hpending : reader.state.pending = .header) : reader'.state.posted = reader.state.posted := by
  obtain ⟨reading, hreading, rfl⟩ := Option.map_eq_some_iff.mp hstep
  simp only [Reading.apply] at hreading
  split at hreading
  · cases hreading
  · split at hreading
    · cases hreading
      show (reader.state.failed reader.got).posted = _
      simp only [SocketReader.failed, hpending]
    · cases hreading

end Connection

namespace ChatSystem

variable {E : Sqlite} {ids : ConnectionId → Identifier} {logIns : ConnectionId → LogIn}
  {n n' : ChatSystem E}

/-- The process and every connection. -/
structure Sound (ids : ConnectionId → Identifier) (logIns : ConnectionId → LogIn) (n : ChatSystem E) :
    Prop where
  server : ServerSound n.ledger
  lines : ∀ s, Line s (ids s) (logIns s) n.ledger (n.readers s) (n.stations s)

theorem sound_start (hE : E.Lawful) (clientIds : ConnectionId → Identifier)
    (hlogIns : ∀ s, (logIns s).request.Sendable) :
    Sound ids logIns (start E clientIds ids logIns) where
  server := .start hE clientIds
  lines s := .start s clientIds (ids s) (hlogIns s)

/-- An event of the process that reads nothing keeps it sound and the connections too. -/
theorem server_step (hE : E.Lawful) {l l' : Ledger (sqlDatabase E)} (h : ServerSound l)
    {e : SocketEvent} (hstep : Ledger.Step l e l') (halone : WritingServer.Alone l.process e)
    (hread : e.request = none) :
    ServerSound l' ∧
      ∀ s id logIn reader station, Line s id logIn l reader station →
        Line s id logIn l' reader station := by
  have hsound : ServerSound l' := by
    refine h.step hE hstep halone ?_
    rintro s t rfl
    cases hread
  refine ⟨hsound, ?_⟩
  intro s id logIn reader station hline
  obtain ⟨process, hprocess, rfl⟩ := Option.map_eq_some_iff.mp hstep
  refine hline.of_ledger hsound (WritingServer.extends_of_step hprocess s) ?_
  show (l.asked ++ e.request.toList).filterMap _ = _
  rw [hread, Option.toList_none, List.append_nil]

theorem Sound.request_step (hE : E.Lawful) (h : Sound ids logIns n) {s : ConnectionId} {e : Receipt}
    (horderly : n.Orderly (.request s e)) (hstep : Step n (.request s e) n') :
    Sound ids logIns n' := by
  obtain ⟨reader, hreader, hrest⟩ := Option.bind_eq_some_iff.mp hstep
  obtain ⟨l', hl', rfl⟩ := Option.map_eq_some_iff.mp hrest
  have hfail : e = .fail → (n.readers s).state.pending = .header := by
    rintro rfl
    exact horderly.1
  obtain ⟨new, hposted, hsendable, hline⟩ := (h.lines s).of_reader hreader hfail
  by_cases he : e = .fail
  · -- the connection is freed
    subst he
    have hevents : SocketReader.events s (n.readers s).state reader.state .fail =
        [.readFailed s] := if_pos ⟨rfl, horderly.1⟩
    rw [hevents] at hl'
    have hfreed : Ledger.Step n.ledger (.readFailed s) l' := by
      rw [List.foldlM_cons] at hl'
      obtain ⟨mid, hmid, hnil⟩ := Option.bind_eq_some_iff.mp hl'
      cases hnil
      exact hmid
    obtain ⟨hsound, hlines⟩ := server_step hE h.server hfreed horderly.2 rfl
    refine ⟨hsound, fun t => hlines _ _ _ _ _ ?_⟩
    rcases eq_or_ne t s with rfl | hne
    · show Line t _ _ n.ledger (Function.update n.readers t reader t) _
      rw [Function.update_self]
      refine hline n.ledger rfl ?_
      rw [(h.lines t).tasks, SocketReader.posted_fail hreader horderly.1]
    · show Line t _ _ n.ledger (Function.update n.readers s reader t) _
      rw [Function.update_of_ne hne]
      exact h.lines t
  · have hevents : SocketReader.events s (n.readers s).state reader.state e =
        new.map (.read s) := by
      rw [SocketReader.events, if_neg fun hboth => he hboth.1, hposted, List.drop_left]
    rw [hevents] at hl'
    obtain ⟨hsound, hlinks, hasked⟩ := h.server.reads hE hsendable hl'
    refine ⟨hsound, fun t => ?_⟩
    rcases eq_or_ne t s with rfl | hne
    · show Line t _ _ l' (Function.update n.readers t reader t) _
      rw [Function.update_self]
      refine hline l' hlinks ?_
      rw [hasked, List.filterMap_append, taskOf_requests, if_pos rfl, (h.lines t).tasks, hposted]
    · show Line t _ _ l' (Function.update n.readers s reader t) _
      rw [Function.update_of_ne hne]
      refine (h.lines t).of_ledger hsound ?_ ?_
      · rw [hlinks]
        exact .refl _
      · rw [hasked, List.filterMap_append, taskOf_requests, if_neg hne.symm, List.append_nil]

theorem Sound.client_step (h : Sound ids logIns n) {s : ConnectionId} {e : StationEvent}
    (horderly : n.Orderly (.client s e)) (hstep : Step n (.client s e) n') :
    Sound ids logIns n' := by
  obtain ⟨station, hstation, rfl⟩ := Option.map_eq_some_iff.mp hstep
  have hrequests : ∀ m ∈ (n.stations s).requests e, m.Sendable := by
    cases e with
    | windows e => exact fun m hm => horderly m (Option.mem_toList.mp hm)
    | _ => exact nofun
  refine ⟨h.server, fun t => ?_⟩
  rcases eq_or_ne t s with rfl | hne
  · show Line t _ _ _ _ (Function.update n.stations t station t)
    rw [Function.update_self]
    exact (h.lines t).of_station h.server hstation hrequests
  · show Line t _ _ _ _ (Function.update n.stations s station t)
    rw [Function.update_of_ne hne]
    exact h.lines t

/-- **One event.**  An orderly event keeps the network sound. -/
theorem sound_step (hE : E.Lawful) {e : SystemEvent} (horderly : n.Orderly e)
    (hstep : Step n e n') (h : Sound ids logIns n) : Sound ids logIns n' := by
  cases e with
  | server e =>
      simp only [Step, apply] at hstep
      split at hstep
      · cases hstep
      · rename_i hreader
        obtain ⟨l', hl', rfl⟩ := Option.map_eq_some_iff.mp hstep
        have hread : e.request = none := by
          cases e with
          | read _ _ => exact absurd rfl hreader
          | _ => rfl
        obtain ⟨hsound, hlines⟩ := server_step hE h.server hl' horderly hread
        exact ⟨hsound, fun s => hlines _ _ _ _ _ (h.lines s)⟩
  | request s e => exact h.request_step hE horderly hstep
  | client s e => exact h.client_step horderly hstep

theorem sound_of_run (hE : E.Lawful) {clientIds : ConnectionId → Identifier}
    (hlogIns : ∀ s, (logIns s).request.Sendable) {es : List SystemEvent}
    (h : Run (Guarded Orderly Step) (start E clientIds ids logIns) es n) : Sound ids logIns n :=
  h.invariant (fun _ _ _ hstep hsound => sound_step hE hstep.1 hstep.2 hsound)
    (sound_start hE clientIds hlogIns)

end ChatSystem

end AppChat
