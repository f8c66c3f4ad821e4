/-
  `Connection.SendQueue`: the queue of one client, `add_msg_send_queue` and
  `sending_msgs_to_client` of `connection/connection.cpp`.

  The threads of the pool call `add_msg_send_queue`, the io thread runs the
  completions of the queued writes, and nothing locks the queue.  A call is three
  steps: it looks whether the queue is empty, it pushes its message, and it starts
  a write if the queue was empty.  A successful completion is two: it pops the
  message it has written, and it starts the next write if one is left.
-/
import AppChat.Foundation.Bytes
import AppChat.Foundation.Transition

set_option autoImplicit false

namespace AppChat.Connection

open Foundation

/-- A call of `add_msg_send_queue`. -/
abbrev CallId := Nat

/-- Where a call of `add_msg_send_queue` is. -/
inductive Call where
  | checked (processWrite : Bool) (binBuffer : Bytes)
  | pushed (processWrite : Bool)
  deriving DecidableEq, Repr

/-- `send_msgs_queue`, the number of queued writes that have been started and not
completed, the calls that have begun, and whether a completion has popped and not
yet looked at the rest. -/
structure SendQueue where
  sendMsgsQueue : List Bytes := []
  inFlight : Nat := 0
  calls : CallId → Option Call := fun _ => none
  popped : Bool := false

/-- The steps of the calls and of the completions. -/
inductive SendEvent where
  | check (call : CallId) (binBuffer : Bytes)
  | push (call : CallId)
  | finish (call : CallId)
  | pop
  | next
  | fail
  deriving DecidableEq, Repr

namespace SendQueue

/-- The call number `i` has come to another step. -/
def setCall (q : SendQueue) (i : CallId) (c : Option Call) : SendQueue :=
  { q with calls := Function.update q.calls i c }

/-- `sending_msgs_to_client`.  The front of an empty queue is undefined. -/
def sendingMsgsToClient (q : SendQueue) : Option SendQueue :=
  match q.sendMsgsQueue with
  | [] => none
  | _ :: _ => some { q with inFlight := q.inFlight + 1 }

/-- One step; `none` when it cannot happen or is undefined.  A completion that
failed frees the connection and leaves the queue as it is. -/
def apply (q : SendQueue) : SendEvent → Option SendQueue
  | .check i binBuffer =>
      match q.calls i with
      | none => some (q.setCall i (some (.checked (!q.sendMsgsQueue.isEmpty) binBuffer)))
      | some _ => none
  | .push i =>
      match q.calls i with
      | some (.checked processWrite binBuffer) =>
          some ({ q with sendMsgsQueue := q.sendMsgsQueue ++ [binBuffer] }.setCall i
            (some (.pushed processWrite)))
      | _ => none
  | .finish i =>
      match q.calls i with
      | some (.pushed true) => some (q.setCall i none)
      | some (.pushed false) => (q.setCall i none).sendingMsgsToClient
      | _ => none
  | .pop =>
      match q.popped, q.inFlight, q.sendMsgsQueue with
      | false, n + 1, _ :: rest =>
          some { q with sendMsgsQueue := rest, inFlight := n, popped := true }
      | _, _, _ => none
  | .next =>
      match q.popped, q.sendMsgsQueue with
      | false, _ => none
      | true, [] => some { q with popped := false }
      | true, _ :: _ => { q with popped := false }.sendingMsgsToClient
  | .fail =>
      match q.popped, q.inFlight with
      | false, n + 1 => some { q with inFlight := n }
      | _, _ => none

/-- One event and what it leaves. -/
def Step (q : SendQueue) (e : SendEvent) (q' : SendQueue) : Prop := q.apply e = some q'

/-- No call and no completion is between its steps. -/
structure Quiescent (q : SendQueue) : Prop where
  calls : ∀ i, q.calls i = none
  popped : q.popped = false

/-! ## Who looks after the queue -/

/-- What can take the next message off the queue: a write in flight, a call that is
about to start one, and a completion that is about to look. -/
inductive Owner where
  | write (k : Nat)
  | call (i : CallId)
  | completion
  deriving DecidableEq, Repr

/-- The queue has the owner now. -/
def Owns (q : SendQueue) : Owner → Prop
  | .write k => k < q.inFlight
  | .call i => q.calls i = some (.pushed false)
  | .completion => q.popped = true

/-- A queue that is not empty has exactly one owner. -/
def Owned (q : SendQueue) : Prop := q.sendMsgsQueue ≠ [] → ∃! o, q.Owns o

/-- A call pushes while its look is still right: it found a message in the queue
just when the queue has an owner.  No write fails. -/
def InTime (q : SendQueue) : SendEvent → Prop
  | .push i => ∀ processWrite binBuffer,
      q.calls i = some (.checked processWrite binBuffer) →
        (processWrite = true ↔ ∃ o, q.Owns o)
  | .fail => False
  | _ => True

/-- A quiescent queue is owned by its writes alone. -/
theorem Quiescent.owns_iff {q : SendQueue} (h : q.Quiescent) (o : Owner) :
    q.Owns o ↔ ∃ k < q.inFlight, o = .write k := by
  cases o with
  | write k => simp [Owns]
  | call i => simp [Owns, h.calls i]
  | completion => simp [Owns, h.popped]

theorem Quiescent.inFlight_eq_one {q : SendQueue} (h : q.Quiescent) (howned : ∃! o, q.Owns o) :
    q.inFlight = 1 := by
  obtain ⟨o, ho, honly⟩ := howned
  obtain ⟨k, hk, rfl⟩ := (h.owns_iff o).mp ho
  have hzero : Owner.write 0 = .write k := honly _ (show 0 < q.inFlight by omega)
  by_contra hne
  have hone : Owner.write 1 = .write k := honly _ (show 1 < q.inFlight by omega)
  simp only [Owner.write.injEq] at hzero hone
  omega

/-! ## What a step can do -/

/-- The kinds of steps. -/
inductive Effect (q : SendQueue) : SendEvent → SendQueue → Prop where
  | check {i : CallId} {binBuffer : Bytes} :
      q.calls i = none →
        Effect q (.check i binBuffer)
          (q.setCall i (some (.checked (!q.sendMsgsQueue.isEmpty) binBuffer)))
  | push {i : CallId} {processWrite : Bool} {binBuffer : Bytes} :
      q.calls i = some (.checked processWrite binBuffer) →
        Effect q (.push i)
          ({ q with sendMsgsQueue := q.sendMsgsQueue ++ [binBuffer] }.setCall i
            (some (.pushed processWrite)))
  | leave {i : CallId} :
      q.calls i = some (.pushed true) → Effect q (.finish i) (q.setCall i none)
  | start {i : CallId} :
      q.calls i = some (.pushed false) → q.sendMsgsQueue ≠ [] →
        Effect q (.finish i) { q.setCall i none with inFlight := q.inFlight + 1 }
  | pop {n : Nat} {msg : Bytes} {rest : List Bytes} :
      q.popped = false → q.inFlight = n + 1 → q.sendMsgsQueue = msg :: rest →
        Effect q .pop { q with sendMsgsQueue := rest, inFlight := n, popped := true }
  | rest : q.popped = true → q.sendMsgsQueue = [] → Effect q .next { q with popped := false }
  | next :
      q.popped = true → q.sendMsgsQueue ≠ [] →
        Effect q .next { q with popped := false, inFlight := q.inFlight + 1 }
  | fail {n : Nat} :
      q.popped = false → q.inFlight = n + 1 → Effect q .fail { q with inFlight := n }

theorem sendingMsgsToClient_eq_some {q q' : SendQueue} (h : q.sendingMsgsToClient = some q') :
    q.sendMsgsQueue ≠ [] ∧ q' = { q with inFlight := q.inFlight + 1 } := by
  unfold sendingMsgsToClient at h
  split at h
  · cases h
  · rename_i hqueue
    cases h
    refine ⟨?_, rfl⟩
    rw [hqueue]
    exact List.cons_ne_nil _ _

/-- Every step is of one of the kinds. -/
theorem effect_of_step {q q' : SendQueue} {e : SendEvent} (h : Step q e q') : Effect q e q' := by
  cases e with
  | check i binBuffer =>
      simp only [Step, apply] at h
      split at h
      · rename_i hcall
        cases h
        exact .check hcall
      · cases h
  | push i =>
      simp only [Step, apply] at h
      split at h
      · rename_i hcall
        cases h
        exact .push hcall
      · cases h
  | finish i =>
      simp only [Step, apply] at h
      split at h
      · rename_i hcall
        cases h
        exact .leave hcall
      · rename_i hcall
        obtain ⟨hqueue, rfl⟩ := sendingMsgsToClient_eq_some h
        exact .start hcall hqueue
      · cases h
  | pop =>
      simp only [Step, apply] at h
      split at h
      · rename_i hpopped hflight hqueue
        cases h
        exact .pop hpopped hflight hqueue
      · cases h
  | next =>
      simp only [Step, apply] at h
      split at h
      · cases h
      · rename_i hpopped hqueue
        cases h
        exact .rest hpopped hqueue
      · rename_i hpopped hqueue
        obtain ⟨hqueue, rfl⟩ := sendingMsgsToClient_eq_some h
        exact .next hpopped hqueue
  | fail =>
      simp only [Step, apply] at h
      split at h
      · rename_i hpopped hflight
        cases h
        exact .fail hpopped hflight
      · cases h

theorem step_deterministic (q : SendQueue) (e : SendEvent) (q₁ q₂ : SendQueue)
    (h₁ : Step q e q₁) (h₂ : Step q e q₂) : q₁ = q₂ :=
  Option.some.inj (h₁.symm.trans h₂)

/-- A step of a call that is not about to start a write changes no owner. -/
theorem owns_setCall {q : SendQueue} {i : CallId} {c : Option Call}
    (hold : q.calls i ≠ some (.pushed false)) (hnew : c ≠ some (.pushed false)) (o : Owner) :
    (q.setCall i c).Owns o ↔ q.Owns o := by
  cases o with
  | write k => rfl
  | completion => rfl
  | call j =>
      simp only [Owns, setCall]
      rcases eq_or_ne j i with rfl | hj
      · rw [Function.update_self]
        exact iff_of_false hnew hold
      · rw [Function.update_of_ne hj]

/-- The push of a call that found the queue empty makes the call an owner. -/
theorem owns_setCall_pushed {q : SendQueue} {i : CallId} (o : Owner) :
    (q.setCall i (some (.pushed false))).Owns o ↔ q.Owns o ∨ o = .call i := by
  cases o with
  | write k => simp [Owns, setCall]
  | completion => simp [Owns, setCall]
  | call j =>
      simp only [Owns, setCall, Owner.call.injEq]
      rcases eq_or_ne j i with rfl | hj
      · simp
      · simp [hj]

/-! ## The invariant -/

/-- At most one owner, which is there as long as the queue is not empty; an owner
other than a completion has a message to send. -/
structure Kept (q : SendQueue) : Prop where
  owned : q.Owned
  unique : ∀ o o', q.Owns o → q.Owns o' → o = o'
  waiting : ∀ o, q.Owns o → o ≠ .completion → q.sendMsgsQueue ≠ []

theorem kept_init : Kept {} where
  owned := fun h => absurd rfl h
  unique := by
    intro o o' ho
    cases o <;> simp [Owns] at ho
  waiting := by
    intro o ho
    cases o <;> simp [Owns] at ho

/-- The owners and whether the queue is empty are all that matters. -/
theorem Kept.congr {q q' : SendQueue} (h : q.Kept) (howns : ∀ o, q'.Owns o ↔ q.Owns o)
    (hqueue : q'.sendMsgsQueue = [] ↔ q.sendMsgsQueue = []) : q'.Kept where
  owned := by
    intro hne
    simp only [howns]
    exact h.owned fun hnil => hne (hqueue.mpr hnil)
  unique o o' ho ho' := h.unique o o' ((howns o).mp ho) ((howns o').mp ho')
  waiting o ho hne hnil := h.waiting o ((howns o).mp ho) hne (hqueue.mp hnil)

/-- A queue with a message and one owner. -/
theorem kept_of_only {q : SendQueue} {o : Owner} (howns : ∀ o', q.Owns o' ↔ o' = o)
    (hqueue : o ≠ .completion → q.sendMsgsQueue ≠ []) : q.Kept where
  owned := fun _ => ⟨o, (howns o).mpr rfl, fun o' ho' => (howns o').mp ho'⟩
  unique o₁ o₂ h₁ h₂ := ((howns o₁).mp h₁).trans ((howns o₂).mp h₂).symm
  waiting o' ho' hne := hqueue ((howns o').mp ho' ▸ hne)

theorem Kept.only {q : SendQueue} (h : q.Kept) {o : Owner} (ho : q.Owns o) (o' : Owner) :
    q.Owns o' ↔ o' = o :=
  ⟨fun ho' => h.unique o' o ho' ho, fun heq => heq ▸ ho⟩

/-- When a call or a completion is the owner, no write is in flight. -/
theorem Kept.inFlight_eq_zero {q : SendQueue} (h : q.Kept) {o : Owner} (ho : q.Owns o)
    (hne : ∀ k, o ≠ .write k) : q.inFlight = 0 := by
  by_contra hpos
  have hwrite : q.Owns (.write 0) := Nat.pos_of_ne_zero hpos
  exact hne 0 (h.unique o _ ho hwrite)

theorem kept_push {q : SendQueue} {i : CallId} {processWrite : Bool} {binBuffer : Bytes}
    (hcall : q.calls i = some (.checked processWrite binBuffer)) (h : q.Kept)
    (hguard : processWrite = true ↔ ∃ o, q.Owns o) :
    ({ q with sendMsgsQueue := q.sendMsgsQueue ++ [binBuffer] }.setCall i
      (some (.pushed processWrite))).Kept := by
  have hqueue : q.sendMsgsQueue ++ [binBuffer] ≠ [] := by simp
  cases processWrite with
  | true =>
      obtain ⟨o, ho⟩ := hguard.mp rfl
      refine @kept_of_only _ o ?_ fun _ => hqueue
      intro o'
      have hold : q.calls i ≠ some (.pushed false) := by simp [hcall]
      exact (owns_setCall hold (by simp) o').trans (h.only ho o')
  | false =>
      have hnone : ¬ ∃ o, q.Owns o := fun hex => absurd (hguard.mpr hex) (by simp)
      refine @kept_of_only _ (.call i) ?_ fun _ => hqueue
      intro o'
      refine (owns_setCall_pushed o').trans ?_
      exact or_iff_right fun ho' => hnone ⟨o', ho'⟩

theorem kept_effect {q q' : SendQueue} {e : SendEvent} (heffect : Effect q e q') (h : q.Kept)
    (hguard : q.InTime e) : q'.Kept := by
  cases heffect with
  | check hcall =>
      refine h.congr ?_ Iff.rfl
      exact owns_setCall (by simp [hcall]) (by simp)
  | push hcall => exact kept_push hcall h (hguard _ _ hcall)
  | leave hcall =>
      refine h.congr ?_ Iff.rfl
      exact owns_setCall (by simp [hcall]) (by simp)
  | @start i hcall hqueue =>
      -- the call was the owner; its write takes over
      have ho : q.Owns (.call i) := hcall
      have hzero := h.inFlight_eq_zero ho (by simp)
      refine @kept_of_only _ (.write 0) ?_ fun _ => hqueue
      intro o'
      have honly := h.only ho o'
      cases o' with
      | write k => simp [Owns, hzero]
      | completion => simpa [Owns, setCall] using honly
      | call j =>
          rcases eq_or_ne j i with rfl | hj
          · simp [Owns, setCall]
          · simpa [Owns, setCall, Function.update_of_ne hj, hj] using honly
  | @pop n msg rest hpopped hflight hqueue =>
      have ho : q.Owns (.write n) := by simp [Owns, hflight]
      have hzero : n = 0 := by
        have hfirst : q.Owns (.write 0) := by simp [Owns, hflight]
        simpa using h.unique _ _ ho hfirst
      subst hzero
      refine @kept_of_only _ .completion ?_ (absurd rfl)
      intro o'
      have honly := h.only ho o'
      cases o' with
      | write k => simp [Owns]
      | completion => simp [Owns]
      | call j => simpa [Owns] using honly
  | rest hpopped hqueue =>
      have ho : q.Owns .completion := hpopped
      have hzero := h.inFlight_eq_zero ho (by simp)
      have hnone : ∀ o', ¬ ({ q with popped := false } : SendQueue).Owns o' := by
        intro o' ho'
        cases o' with
        | write k => simp [Owns, hzero] at ho'
        | completion => simp [Owns] at ho'
        | call j => simpa using (h.only ho (.call j)).mp ho'
      exact ⟨fun hne => absurd hqueue hne, fun o _ ho => absurd ho (hnone o),
        fun o ho => absurd ho (hnone o)⟩
  | next hpopped hqueue =>
      have ho : q.Owns .completion := hpopped
      have hzero := h.inFlight_eq_zero ho (by simp)
      refine @kept_of_only _ (.write 0) ?_ fun _ => hqueue
      intro o'
      have honly := h.only ho o'
      cases o' with
      | write k => simp [Owns, hzero]
      | completion => simp [Owns]
      | call j => simpa [Owns] using honly
  | fail _ _ => exact hguard.elim

/-- A step that is late leaves a queue with no owner, or with two. -/
theorem inTime_of_owned {q q' : SendQueue} {e : SendEvent} (heffect : Effect q e q') (h : q.Kept)
    (howned : q'.Owned) : q.InTime e := by
  cases heffect with
  | @push i processWrite binBuffer hcall =>
      intro processWrite' binBuffer' hcall'
      obtain ⟨rfl, rfl⟩ : processWrite = processWrite' ∧ binBuffer = binBuffer' := by
        simpa using hcall.symm.trans hcall'
      obtain ⟨o, ho, honly⟩ := howned (by simp [setCall])
      cases processWrite with
      | true =>
          have hold : q.calls i ≠ some (.pushed false) := by simp [hcall]
          exact ⟨fun _ => ⟨o, (owns_setCall (by simpa using hold) (by simp) o).mp ho⟩, fun _ => rfl⟩
      | false =>
          refine ⟨fun hfalse => absurd hfalse (by simp), ?_⟩
          rintro ⟨o', ho'⟩
          have hcallOwns := honly (.call i) ((owns_setCall_pushed _).mpr (Or.inr rfl))
          have hother := honly o' ((owns_setCall_pushed _).mpr (Or.inl ho'))
          rw [← hcallOwns] at hother
          subst hother
          exact absurd (hcall.symm.trans ho') (by simp)
  | @fail n hpopped hflight =>
      -- the write that failed was the only owner
      have ho : q.Owns (.write n) := by simp [Owns, hflight]
      have hqueue := h.waiting _ ho (by simp)
      obtain ⟨o, hleft, -⟩ := howned hqueue
      have hzero : n = 0 := by
        have hfirst : q.Owns (.write 0) := by simp [Owns, hflight]
        simpa using h.unique _ _ ho hfirst
      subst hzero
      have hstill : q.Owns o := by
        cases o with
        | write k => simp [Owns] at hleft
        | completion => exact hleft
        | call j => exact hleft
      have heq := h.unique _ _ ho hstill
      subst heq
      simp [Owns] at hleft
  | _ => trivial

/-- The runs that leave every queue with exactly one owner are the runs whose
steps are in time. -/
theorem owned_iff_inTime {es : List SendEvent} {q : SendQueue} (h : Run Step {} es q) :
    (∀ es₁ es₂ u, es = es₁ ++ es₂ → Run Step {} es₁ u → u.Owned) ↔
      Run (Guarded InTime Step) {} es q :=
  Run.always_iff_guarded step_deterministic
    (fun _ _ _ hstep => kept_effect (effect_of_step hstep))
    (fun _ _ _ hstep => inTime_of_owned (effect_of_step hstep)) (fun _ hkept => hkept.owned) h
    kept_init

/-- **No message is stranded.**  In every run whose steps are in time, a queue that
is not empty has exactly one write in flight whenever no call and no completion is
between its steps. -/
theorem inFlight_eq_one_of_inTime {es : List SendEvent} {q : SendQueue}
    (h : Run (Guarded InTime Step) {} es q) (hquiescent : q.Quiescent)
    (hne : q.sendMsgsQueue ≠ []) : q.inFlight = 1 := by
  have hkept : q.Kept :=
    h.invariant (fun _ _ _ hstep hkept => kept_effect (effect_of_step hstep.2) hkept hstep.1)
      kept_init
  exact hquiescent.inFlight_eq_one (hkept.owned hne)

/-- Two calls that have run to their end. -/
theorem calls_of_two {c₁ c₂ c₃ c₄ : Option Call} (i : CallId) :
    Function.update (Function.update (Function.update (Function.update (Function.update
      (Function.update (fun _ => none) 1 c₁) 1 c₂) 1 none) 2 c₃) 2 c₄) 2 none i = none := by
  simp only [Function.update_apply]
  split_ifs <;> rfl

/-- Two calls, the second while the write of the first is in flight. -/
theorem inFlight_eq_one_of_inTime_two :
    let a : Bytes := ascii "a"
    let b : Bytes := ascii "b"
    ∃ q, Run (Guarded InTime Step) {}
        [.check 1 a, .push 1, .finish 1, .check 2 b, .push 2, .finish 2] q ∧
      q.sendMsgsQueue = [a, b] ∧ q.inFlight = 1 := by
  intro a b
  have hfirst : InTime (SendQueue.setCall {} 1 (some (.checked false a))) (.push 1) := by
    intro processWrite binBuffer hcall
    obtain ⟨rfl, -⟩ : false = processWrite ∧ a = binBuffer := by simpa [setCall] using hcall
    refine iff_of_false (by simp) ?_
    rintro ⟨o, ho⟩
    exact kept_init.waiting o ((owns_setCall (by simp) (by simp) o).mp ho) (by
      rintro rfl
      cases ho) rfl
  have hrun : ∃ q, Run (Guarded InTime Step) {}
      [.check 1 a, .push 1, .finish 1, .check 2 b, .push 2, .finish 2] q ∧
      q.Quiescent ∧ q.sendMsgsQueue = [a, b] := by
    refine ⟨_, .cons ⟨trivial, rfl⟩ (.cons ⟨hfirst, rfl⟩ (.cons ⟨trivial, rfl⟩
      (.cons ⟨trivial, rfl⟩ (.cons ⟨?_, rfl⟩ (.single ⟨trivial, rfl⟩))))), ⟨?_, rfl⟩, rfl⟩
    · intro processWrite binBuffer hcall
      obtain ⟨rfl, -⟩ : true = processWrite ∧ b = binBuffer := by simpa [setCall] using hcall
      exact iff_of_true rfl ⟨.write 0, Nat.zero_lt_one⟩
    · exact calls_of_two
  obtain ⟨q, hrun, hquiescent, hqueue⟩ := hrun
  exact ⟨q, hrun, hqueue, inFlight_eq_one_of_inTime hrun hquiescent (by simp [hqueue])⟩

/-- The second call looks while the first message is being written and pushes when
that message has been popped: its own message stays in the queue for ever. -/
theorem not_inFlight_eq_one_late :
    ¬ ∀ (es : List SendEvent) (q : SendQueue), Run Step {} es q → q.Quiescent →
      q.sendMsgsQueue ≠ [] → q.inFlight = 1 := by
  intro h
  have hrun : ∃ q, Run Step {}
      [.check 1 [1], .push 1, .finish 1, .check 2 [2], .pop, .next, .push 2, .finish 2] q ∧
      q.Quiescent ∧ q.sendMsgsQueue = [[2]] ∧ q.inFlight = 0 :=
    ⟨_, .cons rfl (.cons rfl (.cons rfl (.cons rfl (.cons rfl (.cons rfl (.cons rfl
      (.single rfl))))))), ⟨calls_of_two, rfl⟩, rfl, rfl⟩
  obtain ⟨q, hrun, hquiescent, hqueue, hflight⟩ := hrun
  have hone := h _ q hrun hquiescent (by simp [hqueue])
  omega

end SendQueue

end AppChat.Connection
