/-
  `Connection.Answers`: every request gets its answer once.

  A request waits in the pool, then its handler runs and hands something out, then what it
  has handed out waits in the pool or in `send_msgs_queue`, then it is written.  Nothing is
  lost on this way and nothing is done twice, in whatever order the pool runs its jobs and
  whatever the sockets do.
-/
import AppChat.Connection.Responses
import AppChat.Connection.Writes

set_option autoImplicit false

namespace AppChat.Connection

open Foundation Storage Serialize Protocol

/-! ## Requests and what they ask for -/

/-- The command of the answer a request asks for.  A text gets no answer, and neither does
a request without the member of its handler. -/
def Task.answer : Task → Option TypeCommand
  | ⟨.doAutorisation, .inputRequest _⟩ => some .autorisationResponse
  | ⟨.doRegistration, .registerRequest _⟩ => some .registrationResponse
  | ⟨.doJoinRoom, .joinRoomRequest _⟩ => some .joinRoomResponse
  | _ => none

/-- The command of an answer. -/
def Output.answer (o : Output) : Option TypeCommand :=
  if o.isResponse then some o.response.command else none

/-- What goes through `send_msgs_queue` of `s`. -/
def Output.queuedFor (s : ConnectionId) (o : Output) : Bool := o.recipient = s && !o.isResponse

/-- What is posted for `s`. -/
def Output.postedFor (s : ConnectionId) (o : Output) : Bool := o.recipient = s && o.isResponse

theorem Output.queuedFor_iff {s : ConnectionId} {o : Output} :
    o.queuedFor s = true ↔ o.recipient = s ∧ o.isResponse = false := by
  simp [queuedFor]

theorem Output.postedFor_iff {s : ConnectionId} {o : Output} :
    o.postedFor s = true ↔ o.recipient = s ∧ o.isResponse = true := by
  simp [postedFor]

/-- The answer a request of `s` in the pool asks for. -/
def PoolJob.asks (s : ConnectionId) : PoolJob → Option TypeCommand
  | .request t task => if t = s then task.answer else none
  | .response _ => none

/-- The response to `s` in the pool. -/
def PoolJob.posted (s : ConnectionId) : PoolJob → Option Output
  | .request _ _ => none
  | .response o => if o.recipient = s then some o else none

/-- The request an event reads. -/
def SocketEvent.request : SocketEvent → Option PoolJob
  | .read s task => some (.request s task)
  | _ => none

/-- The process, the requests it has read, and what its handlers have handed out. -/
structure Ledger (D : DatabaseOps) where
  process : WritingServer D
  asked : List PoolJob := []
  handedOut : List Output := []

namespace Ledger

variable {D : DatabaseOps}

/-- A new process, of which nothing has been asked. -/
def start (db : D.State) (clientIds : ConnectionId → Identifier) : Ledger D where
  process := WritingServer.start db clientIds

/-- The process goes on; what it reads and hands out is noted. -/
def apply (l : Ledger D) (e : SocketEvent) : Option (Ledger D) :=
  (l.process.apply e).map fun process =>
    { process := process
      asked := l.asked ++ e.request.toList
      handedOut := l.handedOut ++ l.process.outputs e }

/-- One event and what it leaves. -/
def Step (l : Ledger D) (e : SocketEvent) (l' : Ledger D) : Prop := l.apply e = some l'

/-- Keeping the ledger restricts no run. -/
theorem exists_of_run {st st' : WritingServer D} {es : List SocketEvent}
    (h : Run WritingServer.Step st es st') (l : Ledger D) (hl : l.process = st) :
    ∃ l', Run Step l es l' ∧ l'.process = st' := by
  induction h generalizing l with
  | nil st => exact ⟨l, .nil l, hl⟩
  | cons hstep _ ih =>
      subst hl
      obtain ⟨l', hrun, hprocess⟩ := ih ⟨_, _, _⟩ rfl
      refine ⟨l', .cons ?_ hrun, hprocess⟩
      rw [Step, apply, show l.process.apply _ = some _ from hstep]
      rfl

end Ledger

/-! ## A frame tells which answer it is -/

namespace Output

/-- The answer is read off the command. -/
theorem answer_eq (o : Output) :
    o.answer = if o.response.command = .echoResponse then none else some o.response.command := by
  cases o <;> rfl

theorem length_body_of_isResponse {o : Output} (h : o.isResponse = true) :
    o.response.body.length ≤ 50 := by
  cases o with
  | message d => cases h
  | autoResponse s clientId =>
      exact FactoryMessage.length_body_response_le (MsgFactory.createInputResponse clientId)
  | regResponse s clientId =>
      exact FactoryMessage.length_body_response_le (MsgFactory.createRegResponse clientId)
  | joinRoomResponse s roomId flag =>
      exact FactoryMessage.length_body_response_le (MsgFactory.createJoinRoomResponse roomId flag)

/-- A frame is as long as its body at least. -/
theorem length_body_le (m : FactoryMessage) : m.body.length ≤ m.frame.length := by
  rw [FactoryMessage.frame, Message.frame_eq, MsgFactory.serialize, List.length_append]
  exact Nat.le_add_left _ _

/-- A short frame is the frame of one command only. -/
theorem command_eq_of_frame_eq {m m' : FactoryMessage} (hsize : m.body.length < 2 ^ 31)
    (hsize' : m'.body.length < 2 ^ 31) (h : m.frame = m'.frame) : m.command = m'.command := by
  have hread := m.readFrame_frame hsize []
  have hread' := m'.readFrame_frame hsize' []
  rw [h, hread'] at hread
  obtain ⟨hheader, -⟩ := Prod.mk.inj (Option.some.inj hread)
  have hcast := m.cast_header
  rw [← hheader, m'.cast_header] at hcast
  exact (Option.some.inj hcast).symm

/-- A long text is no answer. -/
theorem answer_eq_of_frame_eq {o o' : Output} (h : o.response.frame = o'.response.frame) :
    o.answer = o'.answer := by
  have hshort : ∀ {p p' : Output}, p.isResponse = true → p.response.frame = p'.response.frame →
      p'.response.body.length < 2 ^ 31 ∧ p.response.body.length < 2 ^ 31 := by
    intro p p' hp hframe
    have hbody := length_body_of_isResponse hp
    have hlength : p.response.frame.length = sizeHeader + p.response.body.length := by
      rw [p.response.frame_eq (by omega), List.length_append, p.response.length_header (by omega)]
    have hle := length_body_le p'.response
    rw [← hframe, hlength, show sizeHeader = 19 from rfl] at hle
    omega
  rcases ho : o.isResponse with _ | _
  · rcases ho' : o'.isResponse with _ | _
    · rw [answer, answer, ho, ho']
      rfl
    · obtain ⟨hsize, hsize'⟩ := hshort ho' h.symm
      rw [answer_eq, answer_eq, command_eq_of_frame_eq hsize hsize' h]
  · obtain ⟨hsize', hsize⟩ := hshort ho h
    rw [answer_eq, answer_eq, command_eq_of_frame_eq hsize hsize' h]

/-- The answers among the buffers of a socket. -/
theorem answers_eq_of_frames_eq {outs outs' : List Output}
    (h : outs.map (·.response.frame) = outs'.map (·.response.frame)) :
    outs.filterMap answer = outs'.filterMap answer := by
  induction outs generalizing outs' with
  | nil =>
      obtain rfl := List.map_eq_nil_iff.mp h.symm
      rfl
  | cons o outs ih =>
      obtain ⟨o', outs', rfl, hfirst, hrest⟩ := List.map_eq_cons_iff.mp h.symm
      rw [List.filterMap_cons, List.filterMap_cons, ih hrest.symm,
        answer_eq_of_frame_eq hfirst.symm]

theorem filterMap_answer (outs : List Output) :
    (outs.filter isResponse).filterMap answer = outs.filterMap answer := by
  rw [List.filterMap_filter]
  refine List.filterMap_congr fun o _ => ?_
  rw [answer]
  split
  · rfl
  · rfl

end Output

/-! ## One socket -/

namespace Link

/-- What has been put on the socket and what waits in the queue behind the front: `messages`
in order, and `answers` between them. -/
def Carries (l : Link) (messages answers : List Output) : Prop :=
  ∃ outs waiting : List Output,
    l.socket.started = outs.map (·.response.frame) ∧
    l.sendMsgsQueue.tail = waiting.map (·.response.frame) ∧
    outs.filter (fun o => !o.isResponse) ++ waiting = messages ∧
    outs.filter Output.isResponse = answers

namespace Carries

variable {l l' : Link} {messages answers : List Output} {o : Output}

theorem empty : Carries {} [] [] := ⟨[], [], rfl, rfl, rfl, rfl⟩

/-- Completions and transmissions start nothing. -/
theorem congr (h : l.Carries messages answers) (hstarted : l'.socket.started = l.socket.started)
    (hqueue : l'.sendMsgsQueue.tail = l.sendMsgsQueue.tail) : l'.Carries messages answers := by
  obtain ⟨outs, waiting, houts, hwaiting, hmessages, hanswers⟩ := h
  exact ⟨outs, waiting, hstarted.trans houts, hqueue.trans hwaiting, hmessages, hanswers⟩

/-- The front of the queue is written. -/
theorem sendingMsgsToClient {outs waiting : List Output} {b : Bytes} {rest : List Bytes}
    (hqueue : l.sendMsgsQueue = b :: rest) (hb : b = o.response.frame) (ho : o.isResponse = false)
    (hstarted : l.socket.started = outs.map (·.response.frame))
    (hrest : rest = waiting.map (·.response.frame)) :
    l.sendingMsgsToClient.Carries (outs.filter (fun o => !o.isResponse) ++ o :: waiting)
      (outs.filter Output.isResponse) := by
  refine ⟨outs ++ [o], waiting, ?_, ?_, ?_, ?_⟩
  · rw [Link.sendingMsgsToClient, hqueue]
    show l.socket.started ++ [b] = _
    rw [hstarted, hb, List.map_append]
    rfl
  · have htail : l.sendingMsgsToClient.sendMsgsQueue = l.sendMsgsQueue := by
      rw [Link.sendingMsgsToClient, hqueue]
    rw [htail, hqueue]
    exact hrest
  · rw [List.filter_append, List.append_assoc]
    simp [ho]
  · rw [List.filter_append]
    simp [ho]

/-- A message is queued. -/
theorem addMsgSendQueue (h : l.Carries messages answers) (ho : o.isResponse = false) :
    (l.addMsgSendQueue o.response.frame).Carries (messages ++ [o]) answers := by
  obtain ⟨outs, waiting, houts, hwaiting, rfl, rfl⟩ := h
  obtain ⟨queue, socket⟩ := l
  cases queue with
  | nil =>
      obtain rfl := List.map_eq_nil_iff.mp hwaiting.symm
      rw [List.append_nil]
      exact @sendingMsgsToClient ⟨[o.response.frame], socket⟩ o outs [] _ [] rfl rfl ho houts rfl
  | cons b rest =>
      refine ⟨outs, waiting ++ [o], houts, ?_, (List.append_assoc ..).symm, rfl⟩
      rw [List.map_append, ← hwaiting]
      rfl

theorem foldl_addMsgSendQueue (h : l.Carries messages answers) {added : List Output}
    (hadded : ∀ o ∈ added, o.isResponse = false) :
    ((added.map (·.response.frame)).foldl Link.addMsgSendQueue l).Carries (messages ++ added)
      answers := by
  induction added generalizing l messages with
  | nil => rwa [List.append_nil]
  | cons o added ih =>
      obtain ⟨ho, hrest⟩ := List.forall_mem_cons.mp hadded
      have hnext := ih (h.addMsgSendQueue ho) hrest
      rwa [List.append_assoc] at hnext

/-- A response is written. -/
theorem sendResponse (h : l.Carries messages answers) (ho : o.isResponse = true) :
    (l.sendResponse o.response.frame).Carries messages (answers ++ [o]) := by
  obtain ⟨outs, waiting, houts, hwaiting, rfl, rfl⟩ := h
  refine ⟨outs ++ [o], waiting, ?_, hwaiting, ?_, ?_⟩
  · show l.socket.started ++ [_] = _
    rw [houts, List.map_append]
    rfl
  · rw [List.filter_append]
    simp [ho]
  · rw [List.filter_append]
    simp [ho]

theorem transmit (h : l.Carries messages answers) {i n : Nat} {socket : WriteStream Writer UInt8}
    (hstep : l.socket.transmit i n = some socket) :
    Carries { l with socket := socket } messages answers := by
  unfold WriteStream.transmit at hstep
  split at hstep
  · cases hstep
  · cases hstep
    exact h.congr rfl rfl

theorem abort (h : l.Carries messages answers) {i : Nat} {socket : WriteStream Writer UInt8}
    (hstep : l.socket.abort i = some socket) :
    Carries { l with socket := socket } messages answers := by
  unfold WriteStream.abort at hstep
  split at hstep
  · cases hstep
    exact h.congr rfl rfl
  · cases hstep

/-- A write is done; when it was the front of the queue, the next one starts. -/
theorem complete (h : l.Carries messages answers) {i : Nat} (hstep : l.complete i = some l')
    (hmessages : ∀ o ∈ messages, o.isResponse = false) : l'.Carries messages answers := by
  unfold Link.complete at hstep
  split at hstep
  · cases hstep
  · rename_i writer socket hfinish
    have hdone : Carries { l with socket := socket } messages answers := by
      unfold WriteStream.finish at hfinish
      split at hfinish
      · cases hfinish
        exact h.congr rfl rfl
      · cases hfinish
    cases writer with
    | sendResponse =>
        cases hstep
        exact hdone
    | sendingMsgsToClient =>
        obtain ⟨queue, old⟩ := l
        simp only [Link.writeDone] at hstep
        cases queue with
        | nil => cases hstep
        | cons b rest =>
            cases hstep
            cases rest with
            | nil => exact hdone.congr rfl rfl
            | cons next rest =>
                obtain ⟨outs, waiting, houts, hwaiting, rfl, rfl⟩ := hdone
                obtain ⟨o, waiting, rfl, hnext, hrest⟩ := List.map_eq_cons_iff.mp hwaiting.symm
                have ho : o.isResponse = false :=
                  hmessages o (List.mem_append_right _ (List.mem_cons_self ..))
                exact @sendingMsgsToClient ⟨next :: rest, socket⟩ o outs waiting next rest rfl
                  hnext.symm ho houts hrest.symm

end Carries

end Link

/-! ## All sockets and the pool -/

namespace WritingServer

variable {D : DatabaseOps} {st st' : WritingServer D} {sv : Server D} {out : List Output}
  {e : SocketEvent}

theorem messagesTo_eq (s : ConnectionId) (out : List Output) :
    messagesTo s out = (out.filter (Output.queuedFor s)).map (·.response.frame) := by
  induction out with
  | nil => rfl
  | cons o out ih =>
      cases o with
      | message d =>
          rw [messagesTo_message, ih]
          by_cases hd : d.recipient = s
          · simp [Output.queuedFor, Output.recipient, Output.isResponse, hd]
          · simp [Output.queuedFor, Output.recipient, Output.isResponse, hd]
      | _ => simpa [messagesTo, List.filter_cons, Output.queuedFor, Output.isResponse] using ih

/-- What is handed out and is no message is posted. -/
theorem become_pool (st : WritingServer D) (sv : Server D) (out : List Output) :
    (st.become sv out).pool = st.pool ++ (out.filter Output.isResponse).map .response := by
  unfold become
  generalize hst : { st with server := sv } = mid
  have hpool : mid.pool = st.pool := by rw [← hst]
  rw [← hpool]
  clear hst hpool
  induction out generalizing mid with
  | nil => exact (List.append_nil _).symm
  | cons o out ih =>
      rw [List.foldl_cons, ih]
      cases o with
      | message d => rfl
      | _ => exact List.append_assoc ..

/-- Messages are not posted. -/
theorem filter_postedFor_map_message (s : ConnectionId) (deliveries : List Delivery) :
    (deliveries.map Output.message).filter (Output.postedFor s) = [] := by
  rw [List.filter_eq_nil_iff]
  intro o ho
  obtain ⟨d, -, rfl⟩ := List.mem_map.mp ho
  simp [Output.postedFor, Output.isResponse]

/-- A request that frees its connection or is ignored asks for no answer. -/
theorem asks_eq_none {t : ConnectionId} {task : Task}
    (h : (Event.handle t task).frees ≠ none ∨ (Event.handle t task).ignored = true)
    (s : ConnectionId) : (PoolJob.request t task).asks s = none := by
  have hanswer : task.answer = none := by
    obtain ⟨handler, r⟩ := task
    cases handler <;> cases r <;> first | rfl | simp [Event.frees, Event.ignored] at h
  rw [PoolJob.asks, hanswer, ite_self]

/-- A handler hands out the answer its request asks for, to the connection of the request,
and no other. -/
theorem answers_of_handle {sv sv' : Server D} {t : ConnectionId} {task : Task}
    (h : sv.handle t task = some (sv', out)) (s : ConnectionId) :
    (out.filter (Output.postedFor s)).filterMap Output.answer =
      ((PoolJob.request t task).asks s).toList := by
  have hself : ∀ {o : Output}, o.recipient = t → o.isResponse = true →
      ([o].filter (Output.postedFor s)).filterMap Output.answer =
        if t = s then [o.response.command] else [] := by
    intro o ho hresponse
    by_cases hs : t = s
    · simp [Output.postedFor, Output.answer, ho, hresponse, hs]
    · simp [Output.postedFor, ho, hs]
  have hasks : ∀ command : TypeCommand, (if t = s then [command] else []) =
      (if t = s then some command else none).toList := by
    intro command
    split
    · rfl
    · rfl
  have heffect : Server.Effect sv (.handle t task) out sv' := Server.effect_of_step h
  generalize hevent : Event.handle t task = event at heffect
  cases heffect with
  | login _ | register _ _ | refuse _ =>
      cases hevent
      exact (hself rfl rfl).trans (hasks _)
  | join _ =>
      cases hevent
      rw [List.filter_append, filter_postedFor_map_message, List.nil_append]
      exact (hself rfl rfl).trans (hasks _)
  | text =>
      cases hevent
      rw [filter_postedFor_map_message]
      simp [PoolJob.asks, Task.answer]
  | free hfrees =>
      subst hevent
      rw [Server.freeConnection, filter_postedFor_map_message, asks_eq_none (Or.inl ?_)]
      · rfl
      · rw [hfrees]
        exact Option.some_ne_none _
  | ignore hignored =>
      subst hevent
      rw [asks_eq_none (Or.inr hignored)]
      rfl

theorem become_posted (st : WritingServer D) (sv : Server D) (out : List Output)
    (s : ConnectionId) :
    (st.become sv out).pool.filterMap (PoolJob.posted s) =
      st.pool.filterMap (PoolJob.posted s) ++ out.filter (Output.postedFor s) := by
  rw [become_pool, List.filterMap_append, List.append_right_inj, List.filterMap_map,
    List.filterMap_filter]
  rw [← List.filterMap_eq_filter]
  refine List.filterMap_congr fun o _ => ?_
  cases ho : o.isResponse with
  | true => simp [PoolJob.posted, Output.postedFor, ho, Option.guard]
  | false => simp [Output.postedFor, ho, Option.guard]

theorem become_asks (st : WritingServer D) (sv : Server D) (out : List Output)
    (s : ConnectionId) :
    (st.become sv out).pool.filterMap (PoolJob.asks s) = st.pool.filterMap (PoolJob.asks s) := by
  rw [become_pool, List.filterMap_append, List.filterMap_map, List.append_right_eq_self]
  exact List.filterMap_eq_nil_iff.mpr fun _ _ => rfl

end WritingServer

/-! ## The account of a connection -/

namespace Ledger

variable {D : DatabaseOps} {l l' : Ledger D} {s : ConnectionId} {answers : List Output}

/-- The messages handed out to `s` are on its socket or in its queue, in order.  The answers
handed out to it are in the pool or on its socket.  The requests it has made are in the pool
or have got their answer. -/
structure Accounted (l : Ledger D) (s : ConnectionId) (answers : List Output) : Prop where
  carries : (l.process.links s).Carries (l.handedOut.filter (Output.queuedFor s)) answers
  posted : (l.process.pool.filterMap (PoolJob.posted s) ++ answers).Perm
    (l.handedOut.filter (Output.postedFor s))
  asked : (l.asked.filterMap (PoolJob.asks s)).Perm
    (l.process.pool.filterMap (PoolJob.asks s) ++
      (l.handedOut.filter (Output.postedFor s)).filterMap Output.answer)

theorem accounted_start (db : D.State) (clientIds : ConnectionId → Identifier) (s : ConnectionId) :
    (start db clientIds).Accounted s [] where
  carries := .empty
  posted := .refl _
  asked := .refl _

/-- The process hands something out. -/
theorem accounted_become {st : WritingServer D} {asked : List PoolJob} {handedOut : List Output}
    (sv : Server D) (out : List Output)
    (hcarries : (st.links s).Carries (handedOut.filter (Output.queuedFor s)) answers)
    (hposted : (st.pool.filterMap (PoolJob.posted s) ++ answers).Perm
      (handedOut.filter (Output.postedFor s)))
    (hasked : (asked.filterMap (PoolJob.asks s)).Perm
      (st.pool.filterMap (PoolJob.asks s) ++
        (handedOut.filter (Output.postedFor s)).filterMap Output.answer ++
        (out.filter (Output.postedFor s)).filterMap Output.answer)) :
    Accounted ⟨st.become sv out, asked, handedOut ++ out⟩ s answers where
  carries := by
    show ((st.become sv out).links s).Carries ((handedOut ++ out).filter _) answers
    rw [WritingServer.become_links, WritingServer.messagesTo_eq, List.filter_append]
    refine hcarries.foldl_addMsgSendQueue fun o ho => ?_
    exact (Output.queuedFor_iff.mp (List.mem_filter.mp ho).2).2
  posted := by
    show ((st.become sv out).pool.filterMap _ ++ answers).Perm ((handedOut ++ out).filter _)
    rw [WritingServer.become_posted, List.filter_append]
    refine List.Perm.trans ?_ (hposted.append_right _)
    rw [List.append_assoc, List.append_assoc]
    exact List.perm_append_comm.append_left _
  asked := by
    show (asked.filterMap _).Perm ((st.become sv out).pool.filterMap _ ++
      ((handedOut ++ out).filter _).filterMap _)
    rw [WritingServer.become_asks, List.filter_append, List.filterMap_append, ← List.append_assoc]
    exact hasked

/-- What a job taken from the pool leaves there. -/
theorem perm_filterMap_eraseIdx {α : Type} {pool : List PoolJob} {i : Nat} {job : PoolJob}
    (hjob : pool[i]? = some job) (f : PoolJob → Option α) :
    (pool.filterMap f).Perm ((f job).toList ++ (pool.eraseIdx i).filterMap f) := by
  obtain ⟨hi, rfl⟩ := List.getElem?_eq_some_iff.mp hjob
  have hperm := (List.getElem_cons_eraseIdx_perm hi).symm.filterMap f
  rw [List.filterMap_cons] at hperm
  cases hf : f pool[i] with
  | none =>
      rw [hf] at hperm
      exact hperm
  | some a =>
      rw [hf] at hperm
      exact hperm

/-- A connection is freed. -/
theorem Accounted.free {st : WritingServer D} {asked : List PoolJob} {handedOut : List Output}
    (h : Accounted ⟨st, asked, handedOut⟩ s answers) (t : ConnectionId) :
    Accounted ⟨st.freeConnection t, asked, handedOut ++ (st.server.freeConnection t).2⟩ s
      answers := by
  refine accounted_become _ _ h.carries h.posted ?_
  rw [Server.freeConnection, WritingServer.filter_postedFor_map_message, List.filterMap_nil,
    List.append_nil]
  exact h.asked

/-- Something happens on one socket that starts no new message and no answer. -/
theorem Accounted.setLink {st : WritingServer D} {asked : List PoolJob} {handedOut : List Output}
    (h : Accounted ⟨st, asked, handedOut⟩ s answers) {t : ConnectionId} {link : Link}
    (hlink : ∀ messages, (∀ o ∈ messages, Output.isResponse o = false) →
      (st.links t).Carries messages answers → link.Carries messages answers) :
    Accounted ⟨st.setLink t link, asked, handedOut⟩ s answers where
  carries := by
    show ((st.setLink t link).links s).Carries _ answers
    rcases eq_or_ne s t with rfl | hne
    · rw [WritingServer.setLink_links_self]
      refine hlink _ (fun o ho => ?_) h.carries
      exact (Output.queuedFor_iff.mp (List.mem_filter.mp ho).2).2
    · rw [WritingServer.setLink_links_of_ne st hne]
      exact h.carries
  posted := h.posted
  asked := h.asked

/-- A handler runs. -/
theorem Accounted.runRequest {st : WritingServer D} {asked : List PoolJob}
    {handedOut out : List Output} {sv : Server D} (h : Accounted ⟨st, asked, handedOut⟩ s answers)
    {i : Nat} {t : ConnectionId} {task : Task} (hjob : st.pool[i]? = some (.request t task))
    (hhandle : st.server.handle t task = some (sv, out)) :
    Accounted
      ⟨({ st with pool := st.pool.eraseIdx i } : WritingServer D).become sv out, asked,
        handedOut ++ out⟩ s answers := by
  refine accounted_become sv out h.carries ?_ ?_
  · exact ((perm_filterMap_eraseIdx hjob (PoolJob.posted s)).symm.append_right _).trans h.posted
  · rw [WritingServer.answers_of_handle hhandle]
    refine h.asked.trans ?_
    refine ((perm_filterMap_eraseIdx hjob (PoolJob.asks s)).append_right _).trans ?_
    rw [List.append_assoc]
    exact List.perm_append_comm

/-- A response is written. -/
theorem Accounted.runResponse {st : WritingServer D} {asked : List PoolJob}
    {handedOut : List Output} (h : Accounted ⟨st, asked, handedOut⟩ s answers) {i : Nat}
    {o : Output} (hjob : st.pool[i]? = some (.response o)) :
    ∃ answers', Accounted
      ⟨({ st with pool := st.pool.eraseIdx i } : WritingServer D).setLink o.recipient
        ((st.links o.recipient).sendResponse o.response.frame), asked, handedOut⟩ s answers' := by
  have hasked := h.asked.trans ((perm_filterMap_eraseIdx hjob (PoolJob.asks s)).append_right _)
  have hposted := ((perm_filterMap_eraseIdx hjob (PoolJob.posted s)).symm.append_right _).trans
    h.posted
  rcases eq_or_ne o.recipient s with rfl | hne
  · have hself : (PoolJob.response o).posted o.recipient = some o := if_pos rfl
    rw [hself] at hposted
    -- only answers are posted
    have ho : o.isResponse = true := by
      have hmem := hposted.mem_iff.mp (List.mem_append_left _ (List.mem_cons_self ..))
      exact (Output.postedFor_iff.mp (List.mem_filter.mp hmem).2).2
    refine ⟨answers ++ [o], ?_, ?_, hasked⟩
    · show ((({ st with pool := st.pool.eraseIdx i } : WritingServer D).setLink _ _).links _).Carries _ _
      rw [WritingServer.setLink_links_self]
      exact h.carries.sendResponse ho
    · refine List.Perm.trans ?_ hposted
      show (_ ++ (answers ++ [o])).Perm (o :: _ ++ answers)
      rw [← List.append_assoc]
      exact List.perm_append_singleton o _
  · have hother : (PoolJob.response o).posted s = none := if_neg hne
    rw [hother] at hposted
    refine ⟨answers, ?_, hposted, hasked⟩
    show ((({ st with pool := st.pool.eraseIdx i } : WritingServer D).setLink _ _).links _).Carries _ _
    rw [WritingServer.setLink_links_of_ne _ hne.symm]
    exact h.carries

theorem accounted_step {e : SocketEvent} (hstep : Step l e l') (h : l.Accounted s answers) :
    ∃ answers', l'.Accounted s answers' := by
  obtain ⟨st, asked, handedOut⟩ := l
  obtain ⟨st', hprocess, rfl⟩ := Option.map_eq_some_iff.mp hstep
  cases e with
  | read t task =>
      cases hprocess
      have hout : handedOut ++ st.outputs (.read t task) = handedOut := List.append_nil handedOut
      rw [hout]
      refine ⟨answers, h.carries, ?_, ?_⟩
      · show ((st.pool ++ [PoolJob.request t task]).filterMap _ ++ answers).Perm _
        rw [List.filterMap_append]
        exact (List.append_nil (st.pool.filterMap (PoolJob.posted s))).symm ▸ h.posted
      · show ((asked ++ [PoolJob.request t task]).filterMap _).Perm
          ((st.pool ++ [PoolJob.request t task]).filterMap _ ++ _)
        rw [List.filterMap_append, List.filterMap_append]
        refine (h.asked.append_right _).trans ?_
        rw [List.append_assoc, List.append_assoc]
        exact List.perm_append_comm.append_left _
  | readFailed t =>
      cases hprocess
      exact ⟨answers, (List.append_nil asked).symm ▸ h.free t⟩
  | run i =>
      obtain ⟨job, hjob, hrun⟩ := Option.bind_eq_some_iff.mp hprocess
      have hasked : asked ++ (SocketEvent.run i).request.toList = asked := List.append_nil asked
      rw [hasked]
      cases job with
      | request t task =>
          obtain ⟨⟨sv, out⟩, hhandle, rfl⟩ := Option.map_eq_some_iff.mp hrun
          rw [WritingServer.outputs_run_request hjob hhandle]
          exact ⟨answers, h.runRequest hjob hhandle⟩
      | response o =>
          cases hrun
          have hout : st.outputs (.run i) = [] := by
            simp only [WritingServer.outputs, hjob]
          rw [hout, List.append_nil]
          exact h.runResponse hjob
  | transmit t i n =>
      simp only [WritingServer.apply] at hprocess
      split at hprocess
      · obtain ⟨socket, htransmit, rfl⟩ := Option.map_eq_some_iff.mp hprocess
        have hset := h.setLink fun _ _ hcarries => hcarries.transmit htransmit
        exact ⟨answers, by simpa [SocketEvent.request, WritingServer.outputs] using hset⟩
      · cases hprocess
  | complete t i =>
      obtain ⟨link, hcomplete, rfl⟩ := Option.map_eq_some_iff.mp hprocess
      have hset := h.setLink fun _ hmessages hcarries => hcarries.complete hcomplete hmessages
      exact ⟨answers, by simpa [SocketEvent.request, WritingServer.outputs] using hset⟩
  | fail t i =>
      obtain ⟨socket, habort, rfl⟩ := Option.map_eq_some_iff.mp hprocess
      have hset := h.setLink fun _ _ hcarries => hcarries.abort habort
      exact ⟨answers, (List.append_nil asked).symm ▸ hset.free t⟩

/-- **Every request is answered once.**  In every run the messages handed out to a
connection are put on its socket in order, none twice and none left out; the answers handed
out to it are in the pool or have been written; and of its requests each one that asks for
an answer waits in the pool or has been handed exactly one, under the command it asks for.
With nothing in the pool the answers on the socket, which can be told from its frames, are
those that have been asked for. -/
theorem answered_once {db : D.State} {clientIds : ConnectionId → Identifier}
    {es : List SocketEvent} (h : Run Step (start db clientIds) es l) (s : ConnectionId) :
    ∃ answers, l.Accounted s answers ∧
      (l.process.pool = [] →
        (l.asked.filterMap (PoolJob.asks s)).Perm (answers.filterMap Output.answer)) ∧
      ∀ outs : List Output,
        (l.process.links s).socket.started = outs.map (·.response.frame) →
        outs.filterMap Output.answer = answers.filterMap Output.answer := by
  have hinv : ∃ answers, l.Accounted s answers := by
    refine @Run.invariant _ _ Step _ _ _ (fun l => ∃ answers, l.Accounted s answers) ?_ h
      ⟨[], accounted_start db clientIds s⟩
    rintro _ _ _ hstep ⟨answers, haccounted⟩
    exact accounted_step hstep haccounted
  obtain ⟨answers, haccounted⟩ := hinv
  refine ⟨answers, haccounted, ?_, ?_⟩
  · intro hpool
    have hposted := haccounted.posted
    have hasked := haccounted.asked
    rw [hpool] at hposted hasked
    exact hasked.trans (hposted.symm.filterMap Output.answer)
  · intro outs houts
    obtain ⟨outs', waiting, hstarted, -, -, hanswers⟩ := haccounted.carries
    rw [← hanswers, Output.filterMap_answer]
    exact Output.answers_eq_of_frames_eq (houts.symm.trans hstarted)

/-- Two connections ask to log in; the second is served first, and the other one answered
before it. -/
theorem answered_once_logIns :
    let logIn : Task := ⟨.doAutorisation, .inputRequest ⟨ascii "u", ascii "p"⟩⟩
    let es : List SocketEvent :=
      [.read 1 logIn, .read 2 logIn, .run 1, .run 0, .run 1, .run 0, .transmit 1 0 99]
    let db : Database memorySqlite := ⟨true, ⟨[], []⟩⟩
    ∃ (l : Ledger (sqlDatabase memorySqlite)) (answers : List Output),
      Run Step (start db fun _ => 0) es l ∧ l.Accounted 1 answers ∧
      answers.filterMap Output.answer = [.autorisationResponse] := by
  intro logIn es db
  have hend : (es.foldlM apply (start db fun _ => 0 : Ledger (sqlDatabase memorySqlite))).map
      (fun l => (l.process.pool, l.asked)) = some ([], [.request 1 logIn, .request 2 logIn]) := by
    decide +kernel
  obtain ⟨l, hl, hpool⟩ := Option.map_eq_some_iff.mp hend
  obtain ⟨hpool, hasked⟩ := Prod.mk.inj hpool
  have hrun : Run Step (start db fun _ => 0) es l := Run.iff_foldlM.mpr hl
  obtain ⟨answers, haccounted, hall, -⟩ := answered_once hrun 1
  refine ⟨l, answers, hrun, haccounted, ?_⟩
  have hperm := (hall hpool).symm
  rw [hasked] at hperm
  exact List.perm_singleton.mp hperm

end Ledger

end AppChat.Connection
