/-
  `Foundation.WriteStream`: a stream to which buffers are written piece by piece.

  A write sends its buffer in as many pieces as it likes, and nothing keeps a second
  write from sending between two of them.  As long as there is at most one write at a
  time, what has been sent is the buffers one after the other.

  Nothing in this file mentions the chat server.
-/
import Mathlib

set_option autoImplicit false

namespace AppChat.Foundation

/-- A write that has been started and not completed: whose it is, and what it has not
sent yet. -/
structure PendingWrite (ω β : Type*) where
  owner : ω
  rest : List β
  deriving DecidableEq, Repr

/-- The pending writes in the order they were started, the buffers of all writes
started so far, and what has been sent. -/
structure WriteStream (ω β : Type*) where
  pending : List (PendingWrite ω β) := []
  started : List (List β) := []
  sent : List β := []
  deriving DecidableEq, Repr

namespace WriteStream

variable {ω β : Type*}

/-- Start a write. -/
def start (w : WriteStream ω β) (owner : ω) (buffer : List β) : WriteStream ω β :=
  { w with pending := w.pending ++ [⟨owner, buffer⟩], started := w.started ++ [buffer] }

/-- The write number `i` sends up to `n` elements. -/
def transmit (w : WriteStream ω β) (i n : Nat) : Option (WriteStream ω β) :=
  match w.pending[i]? with
  | none => none
  | some p =>
      some
        { w with
          pending := w.pending.set i { p with rest := p.rest.drop n }
          sent := w.sent ++ p.rest.take n }

/-- The write number `i` completes: it has sent everything. -/
def finish (w : WriteStream ω β) (i : Nat) : Option (ω × WriteStream ω β) :=
  match w.pending[i]? with
  | some ⟨owner, []⟩ => some (owner, { w with pending := w.pending.eraseIdx i })
  | _ => none

/-- The write number `i` fails before it has sent everything. -/
def abort (w : WriteStream ω β) (i : Nat) : Option (WriteStream ω β) :=
  match w.pending[i]? with
  | some ⟨_, _ :: _⟩ => some { w with pending := w.pending.eraseIdx i }
  | _ => none

/-! ## One write at a time -/

/-- At most one write is pending. -/
def Single (w : WriteStream ω β) : Prop := w.pending.length ≤ 1

/-- What has been sent and what the pending write has left are the buffers. -/
def Whole (w : WriteStream ω β) : Prop :=
  w.sent ++ w.pending.flatMap (·.rest) = w.started.flatten

/-- What has been sent is the buffers, up to some point. -/
def Cut (w : WriteStream ω β) : Prop := w.sent <+: w.started.flatten

variable {w w' : WriteStream ω β} {owner : ω} {buffer : List β} {i n : Nat}

theorem single_empty : ({} : WriteStream ω β).Single := Nat.zero_le 1

theorem whole_empty : ({} : WriteStream ω β).Whole := rfl

theorem Whole.cut (h : w.Whole) : w.Cut := ⟨_, h⟩

/-- All buffers have been sent when no write is pending. -/
theorem Whole.sent_eq (h : w.Whole) (hidle : w.pending = []) : w.sent = w.started.flatten := by
  rw [Whole, hidle, List.flatMap_nil, List.append_nil] at h
  exact h

/-- A write that is there is the only one. -/
theorem Single.eq_singleton (h : w.Single) {p : PendingWrite ω β} (hp : w.pending[i]? = some p) :
    i = 0 ∧ w.pending = [p] := by
  unfold Single at h
  obtain ⟨hlt, hget⟩ := List.getElem?_eq_some_iff.mp hp
  have hi : i = 0 := by omega
  subst hi
  obtain ⟨q, hq⟩ := List.length_eq_one_iff.mp (show w.pending.length = 1 by omega)
  simp only [hq, List.getElem_cons_zero] at hget
  exact ⟨rfl, hget ▸ hq⟩

/-- A write may be started only when none is pending. -/
theorem single_start_iff : (w.start owner buffer).Single ↔ w.pending = [] := by
  simp [Single, start]

theorem Whole.start (h : w.Whole) : (w.start owner buffer).Whole := by
  unfold Whole at h
  simp only [Whole, WriteStream.start, List.flatMap_append, List.flatMap_singleton,
    List.flatten_append, List.flatten_singleton, ← List.append_assoc, h]

theorem Cut.start (h : w.Cut) : (w.start owner buffer).Cut := by
  obtain ⟨more, hmore⟩ := h
  refine ⟨more ++ buffer, ?_⟩
  show w.sent ++ (more ++ buffer) = (w.started ++ [buffer]).flatten
  rw [List.flatten_append, ← List.append_assoc, hmore]
  simp

theorem transmit_of_single (hsingle : w.Single) (hstep : w.transmit i n = some w') :
    ∃ p, w.pending = [p] ∧
      w' = ⟨[{ p with rest := p.rest.drop n }], w.started, w.sent ++ p.rest.take n⟩ := by
  unfold transmit at hstep
  split at hstep
  · cases hstep
  · rename_i p hp
    obtain ⟨rfl, hpending⟩ := hsingle.eq_singleton hp
    cases hstep
    refine ⟨p, hpending, ?_⟩
    rw [hpending]
    rfl

theorem Single.transmit (h : w.Single) (hstep : w.transmit i n = some w') : w'.Single := by
  obtain ⟨p, -, rfl⟩ := transmit_of_single h hstep
  exact le_rfl

theorem Whole.transmit (h : w.Whole) (hsingle : w.Single) (hstep : w.transmit i n = some w') :
    w'.Whole := by
  obtain ⟨p, hpending, rfl⟩ := transmit_of_single hsingle hstep
  unfold Whole at h ⊢
  rw [hpending] at h
  simp only [List.flatMap_singleton, List.append_assoc, List.take_append_drop] at h ⊢
  exact h

/-- A write that completes leaves none behind. -/
theorem finish_of_single (hsingle : w.Single) (hstep : w.finish i = some (owner, w')) :
    w.pending = [⟨owner, []⟩] ∧ w' = { w with pending := [] } := by
  unfold finish at hstep
  split at hstep
  · rename_i owner' hp
    obtain ⟨rfl, hpending⟩ := hsingle.eq_singleton hp
    cases hstep
    refine ⟨hpending, ?_⟩
    rw [hpending]
    rfl
  · cases hstep

theorem Whole.finish (h : w.Whole) (hsingle : w.Single) (hstep : w.finish i = some (owner, w')) :
    w'.Whole := by
  obtain ⟨hpending, rfl⟩ := finish_of_single hsingle hstep
  unfold Whole at h ⊢
  rw [hpending] at h
  exact h

theorem abort_of_single (hsingle : w.Single) (hstep : w.abort i = some w') :
    w' = { w with pending := [] } := by
  unfold abort at hstep
  split at hstep
  · rename_i hp
    obtain ⟨rfl, hpending⟩ := hsingle.eq_singleton hp
    cases hstep
    rw [hpending]
    rfl
  · cases hstep

/-- Ending a write sends nothing. -/
theorem Cut.of_pending (h : w.Cut) (pending : List (PendingWrite ω β)) :
    Cut { w with pending := pending } := h

/-! ## Later on -/

/-- What has been started and what has been sent stays so. -/
structure Extends (w w' : WriteStream ω β) : Prop where
  started : w.started <+: w'.started
  sent : w.sent <+: w'.sent

theorem Extends.refl (w : WriteStream ω β) : w.Extends w := ⟨List.prefix_refl _, List.prefix_refl _⟩

theorem Extends.trans {w'' : WriteStream ω β} (h : w.Extends w') (h' : w'.Extends w'') :
    w.Extends w'' :=
  ⟨h.started.trans h'.started, h.sent.trans h'.sent⟩

theorem extends_start (w : WriteStream ω β) (owner : ω) (buffer : List β) :
    w.Extends (w.start owner buffer) :=
  ⟨List.prefix_append _ _, List.prefix_refl _⟩

theorem extends_foldl_start (w : WriteStream ω β) (owner : ω) (buffers : List (List β)) :
    w.Extends (buffers.foldl (fun w buffer => w.start owner buffer) w) := by
  induction buffers generalizing w with
  | nil => exact .refl w
  | cons buffer buffers ih => exact (w.extends_start owner buffer).trans (ih _)

theorem extends_transmit (hstep : w.transmit i n = some w') : w.Extends w' := by
  unfold transmit at hstep
  split at hstep
  · cases hstep
  · cases hstep
    exact ⟨List.prefix_refl _, List.prefix_append _ _⟩

theorem extends_finish (hstep : w.finish i = some (owner, w')) : w.Extends w' := by
  unfold finish at hstep
  split at hstep
  · cases hstep
    exact ⟨List.prefix_refl _, List.prefix_refl _⟩
  · cases hstep

theorem extends_abort (hstep : w.abort i = some w') : w.Extends w' := by
  unfold abort at hstep
  split at hstep
  · cases hstep
    exact ⟨List.prefix_refl _, List.prefix_refl _⟩
  · cases hstep

end WriteStream

end AppChat.Foundation
