/-
  `Protocol.Sending`: the send queues at both ends, `add_msg_send_queue` and
  `sending_msgs_to_client` of `connection/connection.cpp` and `add_msg_to_send` and
  `start_send_msgs` of `client/client/client.cpp`, when nothing runs in between.

  An error of a write frees the connection, or closes that of the client; neither
  touches the queue.
-/
import AppChat.Foundation.Bytes
import AppChat.Foundation.WriteQueue

set_option autoImplicit false

namespace AppChat

open Foundation

/-! ## The server -/

namespace Connection

/-- `Connection::sending_msgs_to_client`. -/
def sendingMsgsToClient (q : WriteQueue Bytes) : Option (WriteQueue Bytes) := q.startWrite

/-- `Connection::add_msg_send_queue`. -/
def addMsgSendQueue (q : WriteQueue Bytes) (binBuffer : Bytes) : Option (WriteQueue Bytes) :=
  let processWrite := !q.queue.isEmpty
  let pushed := { q with queue := q.queue ++ [binBuffer] }
  if !processWrite then sendingMsgsToClient pushed else some pushed

/-- The completion handler of the write. -/
def queuedWriteDone (q : WriteQueue Bytes) (ec : Bool) : Option (WriteQueue Bytes) :=
  if ec then q.fail
  else
    match q.inFlight, q.queue with
    | _ :: inFlight, _ :: queue =>
        let popped := { q with queue := queue, inFlight := inFlight }
        if !queue.isEmpty then sendingMsgsToClient popped else some popped
    | _, _ => none

end Connection

/-! ## The client -/

namespace Client

/-- `Client::start_send_msgs`. -/
def startSendMsgs (q : WriteQueue Bytes) : Option (WriteQueue Bytes) := q.startWrite

/-- `Client::add_msg_to_send`. -/
def addMsgToSend (q : WriteQueue Bytes) (requestPtr : Bytes) : Option (WriteQueue Bytes) :=
  let processWrite := !q.queue.isEmpty
  let pushed := { q with queue := q.queue ++ [requestPtr] }
  if !processWrite then startSendMsgs pushed else some pushed

/-- The completion handler of the write. -/
def sendDone (q : WriteQueue Bytes) (ec : Bool) : Option (WriteQueue Bytes) :=
  if ec then q.fail
  else
    match q.inFlight, q.queue with
    | _ :: inFlight, _ :: queue =>
        let popped := { q with queue := queue, inFlight := inFlight }
        if !queue.isEmpty then startSendMsgs popped else some popped
    | _, _ => none

end Client

/-! ## Both ends -/

/-- The two programs. -/
inductive End where
  | server
  | client
  deriving DecidableEq, Repr

namespace End

/-- What a call of the adder or a completion does. -/
def apply (side : End) (q : WriteQueue Bytes) (e : WriteEvent Bytes) : Option (WriteQueue Bytes) :=
  match side, e with
  | server, .add buffer => Connection.addMsgSendQueue q buffer
  | server, .complete => Connection.queuedWriteDone q false
  | server, .fail => Connection.queuedWriteDone q true
  | client, .add buffer => Client.addMsgToSend q buffer
  | client, .complete => Client.sendDone q false
  | client, .fail => Client.sendDone q true

/-- One event at one of the two ends. -/
def Step (side : End) (q : WriteQueue Bytes) (e : WriteEvent Bytes) (q' : WriteQueue Bytes) : Prop :=
  side.apply q e = some q'

/-- Both are the queue of `Foundation.WriteQueue`. -/
theorem apply_eq (side : End) (q : WriteQueue Bytes) (e : WriteEvent Bytes) :
    side.apply q e = q.apply e := by
  have hadd : ∀ buffer, Connection.addMsgSendQueue q buffer = q.add buffer := by
    intro buffer
    unfold Connection.addMsgSendQueue WriteQueue.add
    cases q.queue <;> rfl
  have hcomplete : Connection.queuedWriteDone q false = q.complete := by
    simp only [Connection.queuedWriteDone, WriteQueue.complete, Bool.false_eq_true, if_false]
    cases q.inFlight with
    | nil => rfl
    | cons _ _ =>
        cases q.queue with
        | nil => rfl
        | cons _ queue => cases queue <;> rfl
  cases side <;> cases e <;> first | exact hadd _ | exact hcomplete | rfl

theorem run_iff {side : End} {q q' : WriteQueue Bytes} {es : List (WriteEvent Bytes)} :
    Run side.Step q es q' ↔ Run WriteQueue.Step q es q' := by
  have hstep : side.Step = WriteQueue.Step := by
    funext q e q'
    rw [Step, WriteQueue.Step, apply_eq]
  rw [hstep]

/-- First in, first out, and each buffer once. -/
structure FifoOnce (side : End) (es : List (WriteEvent Bytes)) (q : WriteQueue Bytes) : Prop where
  started_prefix : .fail ∉ es → q.started <+: WriteEvent.added es
  inFlight : .fail ∉ es → q.inFlight = q.queue.take 1
  completions_le : .fail ∉ es → WriteEvent.completions es ≤ (WriteEvent.added es).length
  queue : .fail ∉ es → q.queue = (WriteEvent.added es).drop (WriteEvent.completions es)
  length_queue : .fail ∉ es →
    q.queue.length = (WriteEvent.added es).length - WriteEvent.completions es
  silent : ∀ es₁ es₂ q₁, es = es₁ ++ .fail :: es₂ → .fail ∉ es₁ → Run side.Step {} es₁ q₁ →
    q.started = q₁.started

/-- **The send queues**, from the empty queue, through every order of calls and
completions. -/
theorem fifoOnce_of_run {side : End} {es : List (WriteEvent Bytes)} {q : WriteQueue Bytes}
    (h : Run side.Step {} es q) : FifoOnce side es q := by
  have hrun : Run WriteQueue.Step ({} : WriteQueue Bytes) es q := run_iff.mp h
  have hflows : .fail ∉ es →
      WriteQueue.Flows (WriteEvent.added es) (WriteEvent.completions es) q := by
    intro hfail
    have hflows := WriteQueue.flows_of_run hrun WriteQueue.flows_empty hfail
    rwa [List.nil_append, Nat.zero_add] at hflows
  refine ⟨?_, fun hfail => (hflows hfail).inFlight, fun hfail => (hflows hfail).le,
    fun hfail => (hflows hfail).queue, ?_, ?_⟩
  · intro hfail
    rw [(hflows hfail).started]
    exact List.take_prefix _ _
  · intro hfail
    rw [(hflows hfail).queue, List.length_drop]
  · rintro es₁ es₂ q₁ rfl hfail h₁
    obtain ⟨q₂, hfirst, hrest⟩ := Run.split es₁ hrun
    have hq : q₂ = q₁ :=
      Run.deterministic (fun _ _ _ _ h h' => Option.some.inj (h.symm.trans h')) hfirst
        (run_iff.mp h₁)
    subst hq
    exact WriteQueue.started_of_run_fail hfirst hfail hrest

/-- Three buffers at the client, the second added while the first is written. -/
theorem fifoOnce_of_run_three :
    let es : List (WriteEvent Bytes) :=
      [.add (ascii "a"), .add (ascii "b"), .complete, .add (ascii "c"), .fail]
    ∃ q, Run client.Step {} es q ∧ q.started = [ascii "a", ascii "b"] ∧ FifoOnce client es q := by
  intro es
  have hend : (es.foldlM client.apply {}).map (·.started) = some [ascii "a", ascii "b"] := by
    decide
  obtain ⟨q, hq, hstarted⟩ := Option.map_eq_some_iff.mp hend
  have hrun : Run client.Step {} es q := Run.iff_foldlM.mpr hq
  exact ⟨q, hrun, hstarted, fifoOnce_of_run hrun⟩

end End

end AppChat
