/-
  `Connection.Writes`: the two ways of writing to the socket of a connection, the queue
  of `sending_msgs_to_client` and the direct writes of `send_auto_response`,
  `send_reg_response` and `send_join_room_response`.

  The queue has one write in process at most.  A direct write is started when the pool
  comes to the response, whatever the socket is doing, and so is the write of a message
  that finds the queue empty.
-/
import AppChat.Connection.Server
import AppChat.Foundation.Transition
import AppChat.Foundation.WriteStream
import AppChat.Storage.MemorySqlite

set_option autoImplicit false

namespace AppChat.Connection

open Foundation Storage Serialize

/-! ## The socket of a connection -/

/-- Whose completion handler runs when a write is done. -/
inductive Writer where
  | sendingMsgsToClient
  | sendResponse
  deriving DecidableEq, Repr

/-- `send_msgs_queue` and the socket. -/
structure Link where
  sendMsgsQueue : List Bytes := []
  socket : WriteStream Writer UInt8 := {}
  deriving DecidableEq, Repr

namespace Link

/-- `sending_msgs_to_client`.  Both callers have a message in the queue. -/
def sendingMsgsToClient (l : Link) : Link :=
  match l.sendMsgsQueue with
  | [] => l
  | binBuffer :: _ => { l with socket := l.socket.start .sendingMsgsToClient binBuffer }

/-- `add_msg_send_queue`. -/
def addMsgSendQueue (l : Link) (binBuffer : Bytes) : Link :=
  let processWrite := !l.sendMsgsQueue.isEmpty
  let pushed := { l with sendMsgsQueue := l.sendMsgsQueue ++ [binBuffer] }
  if !processWrite then pushed.sendingMsgsToClient else pushed

/-- The write of `send_auto_response`, `send_reg_response` and `send_join_room_response`.
Their buffer is local; the write is taken to send what it held. -/
def sendResponse (l : Link) (bufferSerialize : Bytes) : Link :=
  { l with socket := l.socket.start .sendResponse bufferSerialize }

/-- The completion handler of a write that has succeeded.  Popping an empty queue is
undefined. -/
def writeDone (l : Link) : Writer → Option Link
  | .sendResponse => some l
  | .sendingMsgsToClient =>
      match l.sendMsgsQueue with
      | [] => none
      | _ :: rest =>
          let popped := { l with sendMsgsQueue := rest }
          some (if !rest.isEmpty then popped.sendingMsgsToClient else popped)

/-- The write number `i` completes. -/
def complete (l : Link) (i : Nat) : Option Link :=
  match l.socket.finish i with
  | none => none
  | some (writer, socket) => { l with socket := socket }.writeDone writer

end Link

/-! ## The server with its sockets -/

/-- What `post` has handed to the pool: a handler with its request, or a response. -/
inductive PoolJob where
  | request (connection : ConnectionId) (task : Task)
  | response (output : Output)
  deriving DecidableEq, Repr

/-- The process, the jobs waiting in the pool, and the sockets. -/
structure WritingServer (D : DatabaseOps) where
  server : Server D
  pool : List PoolJob := []
  links : ConnectionId → Link := fun _ => {}

/-- A request has been read, or a read has failed; the pool runs the job number `i`; the
write number `i` on a socket sends up to `n` bytes, has completed, or has failed. -/
inductive SocketEvent where
  | read (connection : ConnectionId) (task : Task)
  | readFailed (connection : ConnectionId)
  | run (i : Nat)
  | transmit (connection : ConnectionId) (i n : Nat)
  | complete (connection : ConnectionId) (i : Nat)
  | fail (connection : ConnectionId) (i : Nat)
  deriving DecidableEq, Repr

namespace WritingServer

variable {D : DatabaseOps}

/-- A new process. -/
def start (db : D.State) (clientIds : ConnectionId → Identifier) : WritingServer D where
  server := Server.init db clientIds

/-- A new link of a connection. -/
def setLink (st : WritingServer D) (s : ConnectionId) (l : Link) : WritingServer D :=
  { st with links := Function.update st.links s l }

/-- A message is queued for its subscriber, a response is posted. -/
def handOut (st : WritingServer D) (o : Output) : WritingServer D :=
  match o with
  | .message d =>
      st.setLink d.recipient ((st.links d.recipient).addMsgSendQueue o.response.frame)
  | _ => { st with pool := st.pool ++ [.response o] }

/-- The state after the process has become `sv` and handed out `out`. -/
def become (st : WritingServer D) (sv : Server D) (out : List Output) : WritingServer D :=
  out.foldl handOut { st with server := sv }

/-- `free_connection`. -/
def freeConnection (st : WritingServer D) (s : ConnectionId) : WritingServer D :=
  st.become (st.server.freeConnection s).1 (st.server.freeConnection s).2

/-- Run a job that has been taken from the pool. -/
def runJob (st : WritingServer D) : PoolJob → Option (WritingServer D)
  | .request s task => (st.server.handle s task).map fun result => st.become result.1 result.2
  | .response o =>
      some (st.setLink o.recipient ((st.links o.recipient).sendResponse o.response.frame))

/-- One event; `none` when it cannot happen or is undefined.  A write that has failed
frees the connection. -/
def apply (st : WritingServer D) : SocketEvent → Option (WritingServer D)
  | .read s task => some { st with pool := st.pool ++ [.request s task] }
  | .readFailed s => some (st.freeConnection s)
  | .run i => st.pool[i]? >>= { st with pool := st.pool.eraseIdx i }.runJob
  | .transmit s i n =>
      if (st.server.connections s).socketOpen then
        ((st.links s).socket.transmit i n).map fun socket =>
          st.setLink s { st.links s with socket := socket }
      else none
  | .complete s i => ((st.links s).complete i).map (st.setLink s)
  | .fail s i =>
      ((st.links s).socket.abort i).map fun socket =>
        (st.setLink s { st.links s with socket := socket }).freeConnection s

/-- One event and what it leaves. -/
def Step (st : WritingServer D) (e : SocketEvent) (st' : WritingServer D) : Prop :=
  st.apply e = some st'

/-! ## Whole frames and single writers -/

/-- A whole frame of a response. -/
def IsFrame (b : Bytes) : Prop := ∃ o : Output, b = o.response.frame

/-- One write is outstanding at most, and the client receives whole frames: as long as
the socket is open, what it has received and what the write has left are the frames of
all writes; and it never receives anything else. -/
structure SingleWriter (socketOpen : Bool) (l : Link) : Prop where
  single : l.socket.Single
  whole : socketOpen = true → l.socket.Whole
  cut : l.socket.Cut
  frames : ∀ b ∈ l.socket.started, IsFrame b

/-- Every socket has a single writer. -/
def SingleWriters (st : WritingServer D) : Prop :=
  ∀ s, SingleWriter (st.server.connections s).socketOpen (st.links s)

/-- What an event makes the process hand out. -/
def outputs (st : WritingServer D) : SocketEvent → List Output
  | .run i =>
      match st.pool[i]? with
      | some (.request s task) => ((st.server.handle s task).map Prod.snd).getD []
      | _ => []
  | .readFailed s | .fail s _ => (st.server.freeConnection s).2
  | _ => []

/-- A write is started only on a socket that has none: a message that finds the queue of
its subscriber empty finds the socket idle, except for the write whose failure it
reports, and so does a response when it is sent. -/
structure Alone (st : WritingServer D) (e : SocketEvent) : Prop where
  message : ∀ d, .message d ∈ st.outputs e → (∀ i, e ≠ .fail d.recipient i) →
    (st.links d.recipient).sendMsgsQueue = [] → (st.links d.recipient).socket.pending = []
  response : ∀ i o, e = .run i → st.pool[i]? = some (.response o) →
    (st.links o.recipient).socket.pending = []

/-! ## One socket -/

/-- The frames that are queued for `s`. -/
def messagesTo (s : ConnectionId) : List Output → List Bytes
  | [] => []
  | .message d :: out =>
      if d.recipient = s then (Output.message d).response.frame :: messagesTo s out
      else messagesTo s out
  | _ :: out => messagesTo s out

theorem messagesTo_message (s : ConnectionId) (d : Delivery) (out : List Output) :
    messagesTo s (.message d :: out) =
      if d.recipient = s then (Output.message d).response.frame :: messagesTo s out
      else messagesTo s out := rfl

theorem isFrame_of_mem_messagesTo {s : ConnectionId} {out : List Output} {b : Bytes}
    (hb : b ∈ messagesTo s out) : IsFrame b := by
  induction out with
  | nil => cases hb
  | cons o out ih =>
      cases o with
      | message d =>
          rw [messagesTo_message] at hb
          split at hb
          · rcases List.mem_cons.mp hb with rfl | hrest
            · exact ⟨_, rfl⟩
            · exact ih hrest
          · exact ih hb
      | _ => exact ih hb

/-- Something is queued for `s` just when it is handed a message. -/
theorem messagesTo_ne_nil_iff {s : ConnectionId} {out : List Output} :
    messagesTo s out ≠ [] ↔ ∃ d, .message d ∈ out ∧ d.recipient = s := by
  induction out with
  | nil => simp [messagesTo]
  | cons o out ih =>
      cases o with
      | message d =>
          rw [messagesTo_message]
          by_cases hd : d.recipient = s
          · rw [if_pos hd]
            exact iff_of_true (List.cons_ne_nil _ _) ⟨d, List.mem_cons_self .., hd⟩
          · rw [if_neg hd, ih]
            constructor
            · rintro ⟨d', hd', heq⟩
              exact ⟨d', List.mem_cons_of_mem _ hd', heq⟩
            · rintro ⟨d', hd', heq⟩
              rcases List.mem_cons.mp hd' with h | h
              · cases h
                exact absurd heq hd
              · exact ⟨d', h, heq⟩
      | _ => simpa [messagesTo] using ih

/-- The first message that finds the queue empty starts a write. -/
theorem socket_addMsgSendQueue (l : Link) (b : Bytes) :
    (l.addMsgSendQueue b).socket =
      if l.sendMsgsQueue = [] then l.socket.start .sendingMsgsToClient b else l.socket := by
  obtain ⟨queue, socket⟩ := l
  cases queue <;> rfl

theorem sendMsgsQueue_addMsgSendQueue (l : Link) (b : Bytes) :
    (l.addMsgSendQueue b).sendMsgsQueue = l.sendMsgsQueue ++ [b] := by
  obtain ⟨queue, socket⟩ := l
  cases queue <;> rfl

/-- Only the first of several does. -/
theorem socket_foldl_addMsgSendQueue (l : Link) (b : Bytes) (bs : List Bytes) :
    ((b :: bs).foldl Link.addMsgSendQueue l).socket = (l.addMsgSendQueue b).socket := by
  have hlong : ∀ l : Link, l.sendMsgsQueue ≠ [] →
      (bs.foldl Link.addMsgSendQueue l).socket = l.socket := by
    induction bs with
    | nil => exact fun l _ => rfl
    | cons b' bs ih =>
        intro l hl
        rw [List.foldl_cons, ih, socket_addMsgSendQueue, if_neg hl]
        rw [sendMsgsQueue_addMsgSendQueue]
        simp
  refine hlong _ ?_
  rw [sendMsgsQueue_addMsgSendQueue]
  simp

/-- A single writer, and only frames in the queue. -/
structure KeptLink (socketOpen : Bool) (l : Link) : Prop extends SingleWriter socketOpen l where
  queued : ∀ b ∈ l.sendMsgsQueue, IsFrame b

namespace KeptLink

variable {socketOpen : Bool} {l l' : Link}

theorem empty (socketOpen : Bool) : KeptLink socketOpen {} where
  single := WriteStream.single_empty
  whole _ := WriteStream.whole_empty
  cut := WriteStream.whole_empty.cut
  frames _ hb := nomatch hb
  queued _ hb := nomatch hb

/-- A frame is written on an idle socket. -/
theorem start (h : KeptLink socketOpen l) (hidle : l.socket.pending = []) (writer : Writer)
    {b : Bytes} (hb : IsFrame b) :
    KeptLink socketOpen { l with socket := l.socket.start writer b } where
  single := WriteStream.single_start_iff.mpr hidle
  whole hopen := (h.whole hopen).start
  cut := h.cut.start
  frames b' hb' := by
    rcases List.mem_append.mp hb' with hold | hnew
    · exact h.frames b' hold
    · exact List.mem_singleton.mp hnew ▸ hb
  queued := h.queued

theorem sendingMsgsToClient (h : KeptLink socketOpen l) (hidle : l.socket.pending = []) :
    KeptLink socketOpen l.sendingMsgsToClient := by
  unfold Link.sendingMsgsToClient
  split
  · exact h
  · rename_i b rest hqueue
    refine h.start hidle _ (h.queued b ?_)
    rw [hqueue]
    exact List.mem_cons_self ..

/-- The queue changes. -/
theorem withQueue (h : KeptLink socketOpen l) {queue : List Bytes}
    (hqueue : ∀ b ∈ queue, IsFrame b) :
    KeptLink socketOpen { l with sendMsgsQueue := queue } where
  single := h.single
  whole := h.whole
  cut := h.cut
  frames := h.frames
  queued := hqueue

theorem addMsgSendQueue (h : KeptLink socketOpen l)
    (hidle : l.sendMsgsQueue = [] → l.socket.pending = []) {b : Bytes} (hb : IsFrame b) :
    KeptLink socketOpen (l.addMsgSendQueue b) := by
  have hpushed : KeptLink socketOpen { l with sendMsgsQueue := l.sendMsgsQueue ++ [b] } := by
    refine h.withQueue fun b' hb' => ?_
    rcases List.mem_append.mp hb' with hold | hnew
    · exact h.queued b' hold
    · exact List.mem_singleton.mp hnew ▸ hb
  unfold Link.addMsgSendQueue
  cases hqueue : l.sendMsgsQueue with
  | nil =>
      rw [hqueue] at hpushed
      exact hpushed.sendingMsgsToClient (hidle hqueue)
  | cons b' rest =>
      rw [hqueue] at hpushed
      exact hpushed

theorem foldl_addMsgSendQueue (h : KeptLink socketOpen l) {bs : List Bytes}
    (hidle : bs ≠ [] → l.sendMsgsQueue = [] → l.socket.pending = [])
    (hbs : ∀ b ∈ bs, IsFrame b) :
    KeptLink socketOpen (bs.foldl Link.addMsgSendQueue l) := by
  induction bs generalizing l with
  | nil => exact h
  | cons b bs ih =>
      obtain ⟨hb, hrest⟩ := List.forall_mem_cons.mp hbs
      refine ih (h.addMsgSendQueue (hidle (List.cons_ne_nil _ _)) hb) ?_ hrest
      -- the queue is not empty any more
      intro _ hqueue
      rw [sendMsgsQueue_addMsgSendQueue] at hqueue
      exact absurd hqueue (by simp)

theorem transmit (h : KeptLink true l) {i n : Nat} {socket : WriteStream Writer UInt8}
    (hstep : l.socket.transmit i n = some socket) :
    KeptLink true { l with socket := socket } := by
  have hwhole := (h.whole rfl).transmit h.single hstep
  refine ⟨⟨h.single.transmit hstep, fun _ => hwhole, hwhole.cut, ?_⟩, h.queued⟩
  obtain ⟨p, -, rfl⟩ := WriteStream.transmit_of_single h.single hstep
  exact h.frames

/-- After a completion the socket is idle, and the next message may be written. -/
theorem complete (h : KeptLink socketOpen l) {i : Nat} (hstep : l.complete i = some l') :
    KeptLink socketOpen l' := by
  unfold Link.complete at hstep
  split at hstep
  · cases hstep
  · rename_i writer socket hfinish
    have hwhole : socketOpen = true → socket.Whole := fun hopen =>
      (h.whole hopen).finish h.single hfinish
    obtain ⟨-, rfl⟩ := WriteStream.finish_of_single h.single hfinish
    have hdone : KeptLink socketOpen { l with socket := { l.socket with pending := [] } } :=
      ⟨⟨Nat.zero_le 1, hwhole, h.cut.of_pending [], h.frames⟩, h.queued⟩
    cases writer with
    | sendResponse =>
        cases hstep
        exact hdone
    | sendingMsgsToClient =>
        simp only [Link.writeDone] at hstep
        split at hstep
        · cases hstep
        · rename_i b rest hqueue
          cases hstep
          have hpopped := hdone.withQueue fun b' hb' =>
            h.queued b' (hqueue ▸ List.mem_cons_of_mem b hb')
          split
          · exact hpopped.sendingMsgsToClient rfl
          · exact hpopped

/-- After a failure the socket is closed. -/
theorem abort (h : KeptLink socketOpen l) {i : Nat} {socket : WriteStream Writer UInt8}
    (hstep : l.socket.abort i = some socket) :
    socket.pending = [] ∧ KeptLink false { l with socket := socket } := by
  obtain rfl := WriteStream.abort_of_single h.single hstep
  exact ⟨rfl, ⟨Nat.zero_le 1, nofun, h.cut.of_pending [], h.frames⟩, h.queued⟩

/-- Nothing more is asked of a socket that has been closed. -/
theorem mono (h : KeptLink socketOpen l) {socketOpen' : Bool}
    (hopen : socketOpen' = true → socketOpen = true) : KeptLink socketOpen' l :=
  ⟨⟨h.single, fun ho => h.whole (hopen ho), h.cut, h.frames⟩, h.queued⟩

end KeptLink

/-! ## All sockets -/

variable {st st' : WritingServer D} {sv : Server D} {out : List Output} {e : SocketEvent}

@[simp] theorem setLink_links_self (st : WritingServer D) (s : ConnectionId) (l : Link) :
    (st.setLink s l).links s = l :=
  Function.update_self ..

theorem setLink_links_of_ne (st : WritingServer D) {s t : ConnectionId} (h : t ≠ s) (l : Link) :
    (st.setLink s l).links t = st.links t :=
  Function.update_of_ne h ..

theorem foldl_handOut (out : List Output) (st : WritingServer D) :
    (out.foldl handOut st).server = st.server ∧
      ∀ s, (out.foldl handOut st).links s =
        (messagesTo s out).foldl Link.addMsgSendQueue (st.links s) := by
  induction out generalizing st with
  | nil => exact ⟨rfl, fun _ => rfl⟩
  | cons o out ih =>
      obtain ⟨hserver, hlinks⟩ := ih (st.handOut o)
      cases o with
      | message d =>
          refine ⟨hserver, fun s => (hlinks s).trans ?_⟩
          rw [messagesTo_message, handOut]
          rcases eq_or_ne d.recipient s with rfl | hne
          · rw [if_pos rfl, setLink_links_self]
            rfl
          · rw [if_neg hne, setLink_links_of_ne _ hne.symm]
      | _ => exact ⟨hserver, hlinks⟩

theorem become_server (st : WritingServer D) (sv : Server D) (out : List Output) :
    (st.become sv out).server = sv :=
  (foldl_handOut out _).1

theorem become_links (st : WritingServer D) (sv : Server D) (out : List Output)
    (s : ConnectionId) :
    (st.become sv out).links s = (messagesTo s out).foldl Link.addMsgSendQueue (st.links s) :=
  (foldl_handOut out _).2 s

/-- Every socket has a single writer, and every queue holds frames. -/
def Kept (st : WritingServer D) : Prop :=
  ∀ s, KeptLink (st.server.connections s).socketOpen (st.links s)

theorem kept_start (db : D.State) (clientIds : ConnectionId → Identifier) :
    Kept (start db clientIds) := fun _ => .empty _

theorem Kept.singleWriters (h : Kept st) : st.SingleWriters := fun s => (h s).toSingleWriter

theorem kept_setLink (h : Kept st) {s : ConnectionId} {l : Link}
    (hl : KeptLink (st.server.connections s).socketOpen l) : Kept (st.setLink s l) := by
  intro t
  rcases eq_or_ne t s with rfl | hne
  · rw [setLink_links_self]
    exact hl
  · rw [setLink_links_of_ne st hne]
    exact h t

/-- Messages that find the socket of their subscriber idle, or its queue in use. -/
theorem kept_become (h : ∀ s, KeptLink (sv.connections s).socketOpen (st.links s))
    (hidle : ∀ d, .message d ∈ out → (st.links d.recipient).sendMsgsQueue = [] →
      (st.links d.recipient).socket.pending = []) :
    Kept (st.become sv out) := by
  intro s
  rw [become_server, become_links]
  refine (h s).foldl_addMsgSendQueue ?_ fun b hb => isFrame_of_mem_messagesTo hb
  intro hmessages hqueue
  obtain ⟨d, hd, rfl⟩ := messagesTo_ne_nil_iff.mp hmessages
  exact hidle d hd hqueue

/-- A message that finds the queue empty and leaves a single writer has found the socket
idle. -/
theorem idle_of_become {d : Delivery} (hd : .message d ∈ out)
    (hsingle : ((st.become sv out).links d.recipient).socket.Single)
    (hqueue : (st.links d.recipient).sendMsgsQueue = []) :
    (st.links d.recipient).socket.pending = [] := by
  rw [become_links] at hsingle
  obtain ⟨b, bs, hmessages⟩ := List.exists_cons_of_ne_nil (messagesTo_ne_nil_iff.mpr ⟨d, hd, rfl⟩)
  rw [hmessages, socket_foldl_addMsgSendQueue, socket_addMsgSendQueue, if_pos hqueue] at hsingle
  exact WriteStream.single_start_iff.mp hsingle

/-! ## Steps -/

/-- No handler opens a socket. -/
theorem socketOpen_of_effect {sv sv' : Server D} {e : Event} {out : List Output}
    (h : Server.Effect sv e out sv') (s : ConnectionId)
    (hopen : (sv'.connections s).socketOpen = true) : (sv.connections s).socketOpen = true := by
  have hset : ∀ {sv : Server D} {t : ConnectionId} {c : Members},
      ((sv.setMembers t c).connections s).socketOpen = true →
      (c.socketOpen = true → (sv.connections t).socketOpen = true) →
        (sv.connections s).socketOpen = true := by
    intro sv t c ho hc
    rcases eq_or_ne s t with rfl | hne
    · rw [Server.setMembers_connections_self] at ho
      exact hc ho
    · rwa [Server.setMembers_connections_of_ne sv hne] at ho
  cases h with
  | login => exact hset hopen id
  | register => exact hset hopen id
  | refuse => exact hset hopen id
  | join => exact hset hopen id
  | text => exact hopen
  | free => exact hset hopen nofun
  | ignore => exact hopen

theorem socketOpen_freeConnection (sv : Server D) (s t : ConnectionId) :
    ((sv.freeConnection s).1.connections t).socketOpen = true →
      t ≠ s ∧ (sv.connections t).socketOpen = true := by
  intro hopen
  refine ⟨?_, socketOpen_of_effect (.free (e := .free s) rfl) t hopen⟩
  rintro rfl
  rw [Server.freeConnection, Server.setMembers_connections_self] at hopen
  cases hopen

theorem outputs_run_request {i : Nat} {s : ConnectionId} {task : Task}
    (hjob : st.pool[i]? = some (.request s task)) (h : st.server.handle s task = some (sv, out)) :
    st.outputs (.run i) = out := by
  simp [outputs, hjob, h]

theorem step_run_request {i : Nat} {s : ConnectionId} {task : Task}
    (hjob : st.pool[i]? = some (.request s task)) (h : st.server.handle s task = some (sv, out)) :
    Step st (.run i) ({ st with pool := st.pool.eraseIdx i }.become sv out) := by
  simp [Step, apply, hjob, runJob, h]

theorem kept_step (hstep : Step st e st') (hkept : Kept st) (halone : Alone st e) : Kept st' := by
  cases e with
  | read s task =>
      cases hstep
      exact hkept
  | readFailed s =>
      cases hstep
      refine kept_become ?_ fun d hd => halone.message d hd nofun
      exact fun t => (hkept t).mono fun hopen => (socketOpen_freeConnection _ s t hopen).2
  | run i =>
      obtain ⟨job, hjob, hrun⟩ := Option.bind_eq_some_iff.mp hstep
      cases job with
      | request s task =>
          obtain ⟨⟨sv, out⟩, hhandle, rfl⟩ := Option.map_eq_some_iff.mp hrun
          have hout := outputs_run_request hjob hhandle
          have heffect : Server.Effect st.server (.handle s task) out sv :=
            Server.effect_of_step hhandle
          refine kept_become ?_ fun d hd => halone.message d (hout ▸ hd) nofun
          exact fun t => (hkept t).mono (socketOpen_of_effect heffect t)
      | response o =>
          cases hrun
          have hidle := halone.response i o rfl hjob
          exact kept_setLink hkept ((hkept o.recipient).start hidle _ ⟨o, rfl⟩)
  | transmit s i n =>
      simp only [Step, apply] at hstep
      split at hstep
      · rename_i hopen
        obtain ⟨socket, htransmit, rfl⟩ := Option.map_eq_some_iff.mp hstep
        have hl := hkept s
        rw [hopen] at hl
        refine kept_setLink hkept ?_
        rw [hopen]
        exact hl.transmit htransmit
      · cases hstep
  | complete s i =>
      obtain ⟨l, hl, rfl⟩ := Option.map_eq_some_iff.mp hstep
      exact kept_setLink hkept ((hkept s).complete hl)
  | fail s i =>
      obtain ⟨socket, habort, rfl⟩ := Option.map_eq_some_iff.mp hstep
      obtain ⟨hidle, hclosed⟩ := (hkept s).abort habort
      refine kept_become ?_ ?_
      · intro t
        rcases eq_or_ne t s with rfl | hne
        · rw [setLink_links_self]
          refine hclosed.mono fun hopen => ?_
          exact absurd rfl (socketOpen_freeConnection _ t t hopen).1
        · rw [setLink_links_of_ne st hne]
          exact (hkept t).mono fun hopen => (socketOpen_freeConnection _ s t hopen).2
      · intro d hd hqueue
        rcases eq_or_ne d.recipient s with rfl | hne
        · rw [setLink_links_self]
          exact hidle
        · rw [setLink_links_of_ne st hne] at hqueue ⊢
          refine halone.message d hd ?_ hqueue
          rintro j heq
          cases heq
          exact hne rfl

/-- A step to single writers has met the condition. -/
theorem alone_of_step (hstep : Step st e st') (hsingle : st'.SingleWriters) : Alone st e := by
  constructor
  · intro d hd hfail hqueue
    have hd' := (hsingle d.recipient).single
    cases e with
    | read s task => cases hd
    | transmit s i n => cases hd
    | complete s i => cases hd
    | readFailed s =>
        cases hstep
        exact idle_of_become hd hd' hqueue
    | run i =>
        obtain ⟨job, hjob, hrun⟩ := Option.bind_eq_some_iff.mp hstep
        cases job with
        | request s task =>
            obtain ⟨⟨sv, out⟩, hhandle, rfl⟩ := Option.map_eq_some_iff.mp hrun
            rw [outputs_run_request hjob hhandle] at hd
            have hidle := idle_of_become hd hd'
            exact hidle hqueue
        | response o =>
            simp only [outputs, hjob] at hd
            cases hd
    | fail s i =>
        obtain ⟨socket, habort, rfl⟩ := Option.map_eq_some_iff.mp hstep
        have hne : d.recipient ≠ s := fun heq => hfail i (heq ▸ rfl)
        have hlink := setLink_links_of_ne st hne { st.links s with socket := socket }
        rw [← hlink]
        exact idle_of_become hd hd' (hlink ▸ hqueue)
  · rintro i o rfl hjob
    obtain ⟨job, hjob', hrun⟩ := Option.bind_eq_some_iff.mp hstep
    cases hjob.symm.trans hjob'
    cases hrun
    have hsingle' := (hsingle o.recipient).single
    rw [setLink_links_self] at hsingle'
    exact WriteStream.single_start_iff.mp hsingle'

/-! ## Runs -/

theorem step_deterministic (st : WritingServer D) (e : SocketEvent) (st₁ st₂ : WritingServer D)
    (h₁ : Step st e st₁) (h₂ : Step st e st₂) : st₁ = st₂ :=
  Option.some.inj (h₁.symm.trans h₂)

/-- **The single writer**: from a new process, every socket has a single writer in every
state of a run exactly when each write of the run is started alone. -/
theorem always_singleWriters_iff_alone {db : D.State} {clientIds : ConnectionId → Identifier}
    {es : List SocketEvent} (h : Run Step (start db clientIds) es st) :
    (∀ es₁ es₂ st₁, es = es₁ ++ es₂ → Run Step (start db clientIds) es₁ st₁ →
        st₁.SingleWriters) ↔
      Run (Guarded Alone Step) (start db clientIds) es st :=
  Run.always_iff_guarded step_deterministic (fun _ _ _ hstep => kept_step hstep)
    (fun _ _ _ hstep _ => alone_of_step hstep) (fun _ => Kept.singleWriters) h
    (kept_start db clientIds)

/-- A process on an empty database. -/
def emptyProcess : WritingServer (sqlDatabase memorySqlite) := start ⟨true, ⟨[], []⟩⟩ fun _ => 0

/-- A log in is refused, and the response is being written. -/
theorem always_singleWriters_iff_alone_logIn :
    let logIn : Task := ⟨.doAutorisation, .inputRequest ⟨ascii "u", ascii "p"⟩⟩
    let es : List SocketEvent := [.read 1 logIn, .run 0, .run 0]
    ∃ st, Run Step emptyProcess es st ∧ (st.links 1).socket.pending.length = 1 ∧
      ∀ es₁ es₂ st₁, es = es₁ ++ es₂ → Run Step emptyProcess es₁ st₁ → st₁.SingleWriters := by
  intro logIn es
  -- all sockets are idle before the last step
  have halone : ∀ {st : WritingServer (sqlDatabase memorySqlite)} {e : SocketEvent},
      st.links = emptyProcess.links → Alone st e := by
    intro st e hlinks
    constructor
    · intro d _ _ _
      rw [hlinks]
      rfl
    · intro i o _ _
      rw [hlinks]
      rfl
  have hcheck : (sqlDatabase memorySqlite).checkClient emptyProcess.server.chat.db (ascii "u")
      (ascii "p") = some (-1) := by
    decide +kernel
  have hlogIn : Server.Step _ emptyProcess.server (.handle 1 logIn, [.autoResponse 1 (-1)]) _ :=
    Server.step_of_effect (.login hcheck)
  obtain ⟨sv, hsv⟩ : ∃ sv, emptyProcess.server.handle 1 logIn = some (sv, [.autoResponse 1 (-1)]) :=
    ⟨_, hlogIn⟩
  let posted : WritingServer (sqlDatabase memorySqlite) :=
    { emptyProcess with pool := [.request 1 logIn] }
  have hfirst : Step posted (.run 0) _ := @step_run_request _ posted _ _ 0 1 logIn rfl hsv
  have hrun : Run (Guarded Alone Step) emptyProcess es _ :=
    .cons ⟨halone rfl, rfl⟩ (.cons ⟨halone rfl, hfirst⟩ (.cons ⟨halone rfl, rfl⟩ (.nil _)))
  exact ⟨_, hrun.of_guarded, rfl, (always_singleWriters_iff_alone hrun.of_guarded).mpr hrun⟩

/-- A client joins room 7: the response is written while the message about the join is
being written, and the client receives five bytes of the message, then the response. -/
theorem not_singleWriters_join :
    ¬ ∀ (D : DatabaseOps) (db : D.State) (clientIds : ConnectionId → Identifier)
      (es : List SocketEvent) (st : WritingServer D),
      Run Step (start db clientIds) es st → st.SingleWriters := by
  intro h
  let es : List SocketEvent :=
    [.read 1 ⟨.doJoinRoom, .joinRoomRequest ⟨7⟩⟩, .run 0, .run 0, .transmit 1 0 5,
      .transmit 1 1 99]
  have hend : (es.foldlM apply emptyProcess).map (fun st =>
      ((st.links 1).socket.pending.length,
        (st.links 1).socket.sent.isPrefixOf (st.links 1).socket.started.flatten)) =
      some (2, false) := by
    decide +kernel
  obtain ⟨st, hst, hwrites⟩ := Option.map_eq_some_iff.mp hend
  have hrun : Run Step emptyProcess es st := Run.iff_foldlM.mpr hst
  have hcut := (h _ _ _ _ st hrun 1).cut
  have hprefix := List.isPrefixOf_iff_prefix.mpr hcut
  rw [(Prod.mk.inj hwrites).2] at hprefix
  cases hprefix

end WritingServer

end AppChat.Connection
