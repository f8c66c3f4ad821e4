/-
  `Foundation.AsyncRead`: a program that reads a stream by asking for so many elements and
  going on when they are there.

  The stream comes in segments, and a read takes what is there, in as many pieces as it
  likes, until it has what it was asked for.  None of this can be seen from the program:
  once nothing more can be read, it is where reading the whole stream at once takes it.

  Nothing in this file mentions the chat server.
-/
import AppChat.Foundation.Transition

set_option autoImplicit false

namespace AppChat.Foundation

/-- A program in the state `s` waits for `size s` elements, or for none if it has
stopped.  `full` is its completion handler when they are there, `failed` when the stream
has ended first. -/
structure ReadProgram (σ β : Type*) where
  size : σ → Option Nat
  full : σ → List β → σ
  failed : σ → List β → σ

namespace ReadProgram

variable {σ β : Type*} (P : ReadProgram σ β)

/-- Read the stream `input`, which may have ended: the state of the program when it has
stopped or waits for more, and what it has not read. -/
inductive Reads (ended : Bool) : σ → List β → σ → List β → Prop where
  | stopped {s : σ} {input : List β} : P.size s = none → Reads ended s input s input
  | wait {s : σ} {input : List β} {n : Nat} :
      P.size s = some n → input.length < n → ended = false → Reads ended s input s input
  | full {s s' : σ} {input rest : List β} {n : Nat} :
      P.size s = some n → n ≤ input.length →
      Reads ended (P.full s (input.take n)) (input.drop n) s' rest → Reads ended s input s' rest
  | short {s s' : σ} {input rest : List β} {n : Nat} :
      P.size s = some n → input.length < n → ended = true →
      Reads ended (P.failed s input) [] s' rest → Reads ended s input s' rest

variable {P} {ended : Bool} {s s₁ s₂ : σ} {input rest₁ rest₂ : List β}

theorem Reads.deterministic (h₁ : P.Reads ended s input s₁ rest₁)
    (h₂ : P.Reads ended s input s₂ rest₂) : s₁ = s₂ ∧ rest₁ = rest₂ := by
  induction h₁ with
  | stopped hsize =>
      cases h₂ with
      | stopped _ => exact ⟨rfl, rfl⟩
      | wait hsize' | full hsize' | short hsize' => cases hsize.symm.trans hsize'
  | wait hsize hlt hended =>
      cases h₂ with
      | stopped hsize' => cases hsize.symm.trans hsize'
      | wait _ _ _ => exact ⟨rfl, rfl⟩
      | full hsize' hle _ =>
          cases hsize.symm.trans hsize'
          omega
      | short _ _ hended' => cases hended.symm.trans hended'
  | full hsize hle _ ih =>
      cases h₂ with
      | stopped hsize' => cases hsize.symm.trans hsize'
      | wait hsize' hlt | short hsize' hlt =>
          cases hsize.symm.trans hsize'
          omega
      | full hsize' _ hrest =>
          cases hsize.symm.trans hsize'
          exact ih hrest
  | short hsize hlt hended _ ih =>
      cases h₂ with
      | stopped hsize' => cases hsize.symm.trans hsize'
      | wait _ _ hended' => cases hended.symm.trans hended'
      | full hsize' hle _ =>
          cases hsize.symm.trans hsize'
          omega
      | short _ _ _ hrest => exact ih hrest

end ReadProgram

/-! ## Segments and pieces -/

/-- A program that is being run: its state, what has come for the read it waits for, and
what is there and has not been taken yet. -/
structure Reading (σ β : Type*) where
  state : σ
  got : List β := []
  available : List β := []
  ended : Bool := false

/-- A segment comes, or the stream ends; the read takes up to `n` elements, completes, or
fails at the end of the stream. -/
inductive StreamEvent (β : Type*) where
  | segment (elements : List β)
  | endOfStream
  | take (n : Nat)
  | complete
  | fail

/-- All segments one after the other. -/
def StreamEvent.segments {β : Type*} (es : List (StreamEvent β)) : List β :=
  es.flatMap fun
    | .segment elements => elements
    | _ => []

theorem StreamEvent.segments_cons {β : Type*} (e : StreamEvent β) (es : List (StreamEvent β)) :
    segments (e :: es) = segments [e] ++ segments es := by
  rw [segments, segments, List.flatMap_cons, List.flatMap_singleton]
  rfl

namespace Reading

variable {σ β : Type*}

/-- What an event does; `none` when it cannot happen. -/
def apply (P : ReadProgram σ β) (r : Reading σ β) : StreamEvent β → Option (Reading σ β)
  | .segment elements =>
      if r.ended then none else some { r with available := r.available ++ elements }
  | .endOfStream => some { r with ended := true }
  | .take n =>
      match P.size r.state with
      | none => none
      | some size =>
          if r.got.length + n ≤ size then
            some { r with got := r.got ++ r.available.take n, available := r.available.drop n }
          else none
  | .complete =>
      if P.size r.state = some r.got.length then
        some { r with state := P.full r.state r.got, got := [] }
      else none
  | .fail =>
      match P.size r.state with
      | none => none
      | some size =>
          if r.got.length < size ∧ r.available = [] ∧ r.ended = true then
            some { r with state := P.failed r.state r.got, got := [] }
          else none

/-- One event and what it leaves. -/
def Step (P : ReadProgram σ β) (r : Reading σ β) (e : StreamEvent β) (r' : Reading σ β) : Prop :=
  r.apply P e = some r'

/-- Nothing more can be read: the program has stopped, or has taken everything and waits
for more. -/
def AtRest (P : ReadProgram σ β) (r : Reading σ β) : Prop :=
  P.size r.state = none ∨
    ∃ n, P.size r.state = some n ∧ r.got.length < n ∧ r.available = [] ∧ r.ended = false

/-- What is read from here on, of a stream that goes on with `future`, has been read of
the whole stream. -/
def Follows (P : ReadProgram σ β) (s : σ) (arrived : List β) (r : Reading σ β) : Prop :=
  ∀ ended future s' rest, (r.ended = true → ended = true ∧ future = []) →
    P.Reads ended r.state (r.got ++ (r.available ++ future)) s' rest →
      P.Reads ended s (arrived ++ future) s' rest

variable {P : ReadProgram σ β} {s : σ} {arrived : List β} {r r' : Reading σ β} {e : StreamEvent β}

theorem follows_start (s : σ) : Follows P s [] { state := s } := fun _ _ _ _ _ h => h

theorem Follows.step (h : Follows P s arrived r) (hstep : Step P r e r') :
    Follows P s (arrived ++ StreamEvent.segments [e]) r' := by
  intro ended future s' rest hended hreads
  cases e with
  | segment elements =>
      have hsegments : StreamEvent.segments [.segment elements] = elements := List.append_nil elements
      rw [hsegments, List.append_assoc]
      simp only [Step, apply] at hstep
      split at hstep
      · cases hstep
      · rename_i hopen
        cases hstep
        refine h ended (elements ++ future) s' rest (fun hr => absurd hr hopen) ?_
        rwa [List.append_assoc] at hreads
  | endOfStream =>
      cases hstep
      rw [show StreamEvent.segments [(.endOfStream : StreamEvent β)] = [] from rfl, List.append_nil]
      exact h ended future s' rest (fun _ => hended rfl) hreads
  | take n =>
      rw [show StreamEvent.segments [(.take n : StreamEvent β)] = [] from rfl, List.append_nil]
      simp only [Step, apply] at hstep
      split at hstep
      · cases hstep
      · split at hstep
        · cases hstep
          refine h ended future s' rest hended ?_
          rwa [List.append_assoc, ← List.append_assoc (r.available.take n), List.take_append_drop]
            at hreads
        · cases hstep
  | complete =>
      rw [show StreamEvent.segments [(.complete : StreamEvent β)] = [] from rfl, List.append_nil]
      simp only [Step, apply] at hstep
      split at hstep
      · rename_i hsize
        cases hstep
        refine h ended future s' rest hended ?_
        refine .full hsize (by simp) ?_
        rwa [List.take_left, List.drop_left]
      · cases hstep
  | fail =>
      rw [show StreamEvent.segments [(.fail : StreamEvent β)] = [] from rfl, List.append_nil]
      simp only [Step, apply] at hstep
      split at hstep
      · cases hstep
      · rename_i size hsize
        split at hstep
        · rename_i hfail
          obtain ⟨hshort, hnone, hr⟩ := hfail
          cases hstep
          obtain ⟨rfl, rfl⟩ := hended hr
          refine h true [] s' rest hended ?_
          simp only [hnone, List.append_nil] at hreads ⊢
          exact .short hsize hshort rfl hreads
        · cases hstep

theorem follows_of_run {es : List (StreamEvent β)} (h : Run (Step P) r es r')
    (hr : Follows P s arrived r) : Follows P s (arrived ++ StreamEvent.segments es) r' := by
  induction h generalizing arrived with
  | nil r => simpa [StreamEvent.segments] using hr
  | @cons r r₁ r' e es hstep _ ih =>
      have hfollows := ih (hr.step hstep)
      rwa [List.append_assoc, ← StreamEvent.segments_cons] at hfollows

/-- **Segments do not matter.**  When nothing more can be read, the program is where
reading all segments at once takes it. -/
theorem reads_of_run {es : List (StreamEvent β)} (h : Run (Step P) { state := s } es r)
    (hrest : r.AtRest P) :
    P.Reads r.ended s (StreamEvent.segments es) r.state (r.got ++ r.available) := by
  have hfollows := follows_of_run h (follows_start s) r.ended [] r.state (r.got ++ r.available)
    (fun hr => ⟨hr, rfl⟩)
  rw [List.append_nil, List.append_nil, List.nil_append] at hfollows
  refine hfollows ?_
  rcases hrest with hstopped | ⟨n, hsize, hshort, hnone, hopen⟩
  · exact .stopped hstopped
  · refine .wait hsize ?_ hopen
    rwa [hnone, List.append_nil]

end Reading

end AppChat.Foundation
