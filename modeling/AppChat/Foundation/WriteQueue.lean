/-
  `Foundation.WriteQueue`: a queue of buffers that is written one buffer at a time.

  A buffer is added at the end, and a write is started when the queue was empty.  The
  front stays in the queue while it is written; a completion takes it off and starts
  the next write.  After a failed write the front stays where it is.

  Nothing in this file mentions the chat server.
-/
import AppChat.Foundation.Transition

set_option autoImplicit false

namespace AppChat.Foundation

/-- The queue, the writes that have been started and not completed, and the buffers
of all writes started so far. -/
structure WriteQueue (β : Type) where
  queue : List β := []
  inFlight : List β := []
  started : List β := []
  deriving DecidableEq, Repr

/-- A buffer is added, or the oldest write in flight completes or fails. -/
inductive WriteEvent (β : Type) where
  | add (buffer : β)
  | complete
  | fail
  deriving DecidableEq, Repr

namespace WriteQueue

variable {β : Type}

/-- Start a write of the front.  The front of an empty queue is undefined. -/
def startWrite (q : WriteQueue β) : Option (WriteQueue β) :=
  match q.queue with
  | [] => none
  | buffer :: _ =>
      some { q with inFlight := q.inFlight ++ [buffer], started := q.started ++ [buffer] }

/-- Push, and start a write if none was in process. -/
def add (q : WriteQueue β) (buffer : β) : Option (WriteQueue β) :=
  let processWrite := !q.queue.isEmpty
  let pushed := { q with queue := q.queue ++ [buffer] }
  if processWrite then some pushed else pushed.startWrite

/-- A write has succeeded: pop, and start the next one if there is one.  Popping an
empty queue is undefined. -/
def complete (q : WriteQueue β) : Option (WriteQueue β) :=
  match q.inFlight, q.queue with
  | _ :: inFlight, _ :: queue =>
      let popped := { q with queue := queue, inFlight := inFlight }
      if queue.isEmpty then some popped else popped.startWrite
  | _, _ => none

/-- A write has failed. -/
def fail (q : WriteQueue β) : Option (WriteQueue β) :=
  match q.inFlight with
  | _ :: inFlight => some { q with inFlight := inFlight }
  | [] => none

/-- What an event does; `none` when it cannot happen. -/
def apply (q : WriteQueue β) : WriteEvent β → Option (WriteQueue β)
  | .add buffer => q.add buffer
  | .complete => q.complete
  | .fail => q.fail

/-- One event and what it leaves. -/
def Step (q : WriteQueue β) (e : WriteEvent β) (q' : WriteQueue β) : Prop := q.apply e = some q'

end WriteQueue

/-- The buffers that the events add. -/
def WriteEvent.added {β : Type} : List (WriteEvent β) → List β
  | [] => []
  | .add buffer :: es => buffer :: added es
  | _ :: es => added es

/-- How many of the events are completions. -/
def WriteEvent.completions {β : Type} : List (WriteEvent β) → Nat
  | [] => 0
  | .complete :: es => completions es + 1
  | _ :: es => completions es

namespace WriteQueue

variable {β : Type} {q q' : WriteQueue β}

/-- A queue to which `added` have been added and from which `k` have been completed,
as long as no write has failed. -/
structure Flows (added : List β) (k : Nat) (q : WriteQueue β) : Prop where
  le : k ≤ added.length
  queue : q.queue = added.drop k
  inFlight : q.inFlight = q.queue.take 1
  started : q.started = added.take (k + q.inFlight.length)

/-- A queue whose front could not be written. -/
structure Stuck (started : List β) (q : WriteQueue β) : Prop where
  queue : q.queue ≠ []
  inFlight : q.inFlight = []
  started_eq : q.started = started

theorem flows_empty : Flows [] 0 ({} : WriteQueue β) := ⟨le_rfl, rfl, rfl, rfl⟩

/-! ## Steps -/

theorem Flows.add {added : List β} {k : Nat} (h : Flows added k q) {buffer : β}
    (hstep : q.add buffer = some q') : Flows (added ++ [buffer]) k q' := by
  obtain ⟨hle, hqueue, hinFlight, hstarted⟩ := h
  have hle' : k ≤ (added ++ [buffer]).length := by
    rw [List.length_append]
    omega
  have hdrop : (added ++ [buffer]).drop k = q.queue ++ [buffer] := by
    rw [List.drop_append_of_le_length hle, hqueue]
  unfold WriteQueue.add at hstep
  cases hq : q.queue with
  | nil =>
      -- everything has been written, so the new buffer starts
      have hk : added.length = k := by
        have hnil := List.drop_eq_nil_iff.mp (hqueue.symm.trans hq)
        omega
      rw [hq] at hinFlight hdrop hstep
      cases hstep
      refine ⟨hle', hdrop.symm, ?_, ?_⟩
      · rw [hinFlight]
        rfl
      · rw [hinFlight, hstarted, hinFlight]
        simp [hk, List.take_append]
  | cons front rest =>
      rw [hq] at hdrop hstep
      cases hstep
      refine ⟨hle', hdrop.symm, ?_, ?_⟩
      · rw [hinFlight, hq]
        rfl
      · have hlong : k + q.inFlight.length ≤ added.length := by
          have hlength := congrArg List.length (hqueue.symm.trans hq)
          rw [List.length_drop, List.length_cons] at hlength
          rw [hinFlight, hq]
          simp only [List.take_succ_cons, List.take_zero, List.length_singleton]
          omega
        rw [List.take_append_of_le_length hlong]
        exact hstarted

theorem Flows.complete {added : List β} {k : Nat} (h : Flows added k q)
    (hstep : q.complete = some q') : Flows added (k + 1) q' := by
  obtain ⟨hle, hqueue, hinFlight, hstarted⟩ := h
  unfold WriteQueue.complete at hstep
  cases hq : q.queue with
  | nil =>
      rw [hq] at hinFlight hstep
      rw [hinFlight] at hstep
      cases hstep
  | cons front rest =>
      have hlength := congrArg List.length (hqueue.symm.trans hq)
      rw [List.length_drop, List.length_cons] at hlength
      have hle' : k + 1 ≤ added.length := by omega
      have hrest : rest = added.drop (k + 1) := by
        rw [← List.drop_drop, ← hqueue, hq]
        rfl
      rw [hq] at hinFlight hstep
      rw [hinFlight] at hstep hstarted
      simp only [List.take_succ_cons, List.take_zero, List.length_singleton] at hstep hstarted
      cases rest with
      | nil =>
          cases hstep
          exact ⟨hle', hrest, rfl, hstarted⟩
      | cons next others =>
          cases hstep
          refine ⟨hle', hrest, rfl, ?_⟩
          show q.started ++ [next] = added.take (k + 1 + 1)
          have hget : added[k + 1]? = some next := by
            rw [← List.head?_drop, ← hrest]
            rfl
          have htake : added.take (k + 1 + 1) = added.take (k + 1) ++ [next] := by
            rw [List.take_add_one, hget]
            rfl
          rw [hstarted, htake]

theorem Flows.fail {added : List β} {k : Nat} (h : Flows added k q) (hstep : q.fail = some q') :
    Stuck q.started q' := by
  obtain ⟨-, -, hinFlight, -⟩ := h
  unfold WriteQueue.fail at hstep
  cases hq : q.queue with
  | nil =>
      rw [hinFlight, hq] at hstep
      cases hstep
  | cons front rest =>
      rw [hinFlight, hq] at hstep
      cases hstep
      exact ⟨by simp, rfl, rfl⟩

theorem Stuck.step {started : List β} (h : Stuck started q) {e : WriteEvent β}
    (hstep : Step q e q') : Stuck started q' := by
  obtain ⟨hqueue, hinFlight, hstarted⟩ := h
  cases e with
  | add buffer =>
      have hadd : q.add buffer = some q' := hstep
      unfold WriteQueue.add at hadd
      rw [if_pos (by simp [hqueue])] at hadd
      cases hadd
      exact ⟨by simp, hinFlight, hstarted⟩
  | complete =>
      have hcomplete : q.complete = some q' := hstep
      unfold WriteQueue.complete at hcomplete
      rw [hinFlight] at hcomplete
      cases hcomplete
  | fail =>
      have hfail : q.fail = some q' := hstep
      unfold WriteQueue.fail at hfail
      rw [hinFlight] at hfail
      cases hfail

/-! ## Runs -/

theorem flows_of_run {added : List β} {k : Nat} {es : List (WriteEvent β)} (h : Run Step q es q')
    (hq : Flows added k q) (hfail : .fail ∉ es) :
    Flows (added ++ WriteEvent.added es) (k + WriteEvent.completions es) q' := by
  induction h generalizing added k with
  | nil q => simpa [WriteEvent.added, WriteEvent.completions] using hq
  | @cons q q₁ q' e es hstep _ ih =>
      obtain ⟨hne, hrest⟩ := not_or.mp fun h => hfail (List.mem_cons.mpr h)
      cases e with
      | add buffer =>
          have hflows := ih (hq.add hstep) hrest
          rwa [List.append_assoc] at hflows
      | complete =>
          have hflows := ih (hq.complete hstep) hrest
          rwa [Nat.add_assoc, Nat.add_comm 1] at hflows
      | fail => exact absurd rfl hne

theorem stuck_of_run {started : List β} {es : List (WriteEvent β)} (h : Run Step q es q')
    (hq : Stuck started q) : Stuck started q' :=
  h.invariant (fun _ _ _ hstep hstuck => hstuck.step hstep) hq

/-- After the first failure nothing is started any more. -/
theorem started_of_run_fail {es₁ es₂ : List (WriteEvent β)} {q₁ : WriteQueue β}
    (h₁ : Run Step ({} : WriteQueue β) es₁ q₁) (hfail : .fail ∉ es₁)
    (h₂ : Run Step q₁ (.fail :: es₂) q') : q'.started = q₁.started := by
  have hflows := flows_of_run h₁ flows_empty hfail
  cases h₂ with
  | cons hstep hrest => exact (stuck_of_run hrest (hflows.fail hstep)).started_eq

end WriteQueue

end AppChat.Foundation
