/-
  `Foundation.FrameReader`: a program that reads a stream of frames, each of which has a
  header of a fixed size and a body.

  Such a program can be told where it is: it has read some whole frames, and of the next
  one nothing or the header.  This holds after every single completion, not only when
  there is nothing more to read.

  Nothing in this file mentions the chat server.
-/
import AppChat.Foundation.AsyncRead

set_option autoImplicit false

namespace AppChat.Foundation

/-! ## The receiving end of a line -/

/-- A program that is being run on what comes over a line, and all that has come. -/
structure Receiver (σ β : Type*) extends Reading σ β where
  arrived : List β := []

/-- Up to `n` elements come; the read takes up to `n` of them, completes or fails; the line
is cut, and what has come and not been taken is lost. -/
inductive Receipt where
  | arrive (n : Nat)
  | take (n : Nat)
  | complete
  | fail
  | cut
  deriving DecidableEq, Repr

namespace Receiver

variable {σ β : Type*}

/-- What comes next of what has been sent. -/
def next (sent : List β) (r : Receiver σ β) (n : Nat) : List β := (sent.drop r.arrived.length).take n

/-- What a receipt does, when `sent` has been sent; `none` when it cannot happen. -/
def apply (P : ReadProgram σ β) (sent : List β) (r : Receiver σ β) : Receipt → Option (Receiver σ β)
  | .arrive n =>
      (r.toReading.apply P (.segment (r.next sent n))).map fun reading =>
        { reading with arrived := r.arrived ++ r.next sent n }
  | .take n => (r.toReading.apply P (.take n)).map fun reading => { reading with arrived := r.arrived }
  | .complete => (r.toReading.apply P .complete).map fun reading => { reading with arrived := r.arrived }
  | .fail => (r.toReading.apply P .fail).map fun reading => { reading with arrived := r.arrived }
  | .cut => some { r with available := [], ended := true }

/-- Nothing comes that has not been sent. -/
theorem arrived_of_sent {P : ReadProgram σ β} {sent : List β} {r r' : Receiver σ β} {e : Receipt}
    (hstep : r.apply P sent e = some r') (h : r.arrived <+: sent) : r'.arrived <+: sent := by
  cases e with
  | arrive n =>
      obtain ⟨reading, -, rfl⟩ := Option.map_eq_some_iff.mp hstep
      obtain ⟨rest, rfl⟩ := h
      rw [next, List.drop_left]
      exact (List.prefix_append_right_inj _).mpr (List.take_prefix _ _)
  | cut =>
      cases hstep
      exact h
  | take _ | complete | fail =>
      obtain ⟨reading, -, rfl⟩ := Option.map_eq_some_iff.mp hstep
      exact h

end Receiver

/-! ## Frames -/

/-- How a program reads frames.  After the frames `done` it is `Idle`, `Within` the next
frame when it has read the header of that, or has `Stopped`. -/
structure FrameReader {σ β : Type*} (P : ReadProgram σ β) (φ : Type*) where
  header : φ → List β
  body : φ → List β
  headerSize : Nat
  headerSize_pos : 0 < headerSize
  length_header : ∀ f, (header f).length = headerSize
  Idle : List φ → σ → Prop
  Within : List φ → φ → σ → Prop
  Stopped : List φ → σ → Prop
  size_idle : ∀ {done : List φ} {s : σ}, Idle done s → P.size s = some headerSize
  size_within : ∀ {done : List φ} {f : φ} {s : σ}, Within done f s → P.size s = some (body f).length
  size_stopped : ∀ {done : List φ} {s : σ}, Stopped done s → P.size s = none
  full_header : ∀ {done : List φ} {s : σ} (f : φ), Idle done s → Within done f (P.full s (header f))
  full_body : ∀ {done : List φ} {f : φ} {s : σ}, Within done f s →
    Idle (done ++ [f]) (P.full s (body f)) ∨ Stopped (done ++ [f]) (P.full s (body f))
  failed_idle : ∀ {done : List φ} {s : σ} (data : List β), Idle done s → Stopped done (P.failed s data)

namespace FrameReader

variable {σ β φ : Type*} {P : ReadProgram σ β} (F : FrameReader P φ)

/-- The frames one after the other. -/
def stream (frames : List φ) : List β := frames.flatMap fun f => F.header f ++ F.body f

/-- The program has consumed `consumed` of the frames `todo`. -/
inductive At (todo done : List φ) (s : σ) : List β → Prop where
  | idle {rest : List φ} : todo = done ++ rest → F.Idle done s → At todo done s (F.stream done)
  | within {f : φ} {rest : List φ} : todo = done ++ f :: rest → F.Within done f s →
      At todo done s (F.stream done ++ F.header f)
  | stopped {rest : List φ} {consumed : List β} : todo = done ++ rest → F.Stopped done s →
      At todo done s consumed

/-- The receiver has read `done` of the frames `todo`. -/
def Tracks (todo done : List φ) (r : Receiver σ β) : Prop :=
  ∃ consumed, F.At todo done r.state consumed ∧ consumed ++ (r.got ++ r.available) <+: r.arrived ∧
    (r.ended = false → consumed ++ (r.got ++ r.available) = r.arrived)

variable {F} {todo done : List φ} {s s' : σ} {r r' : Receiver σ β} {consumed : List β}

theorem stream_append (a b : List φ) : F.stream (a ++ b) = F.stream a ++ F.stream b :=
  List.flatMap_append

theorem stream_cons (f : φ) (rest : List φ) :
    F.stream (f :: rest) = F.header f ++ (F.body f ++ F.stream rest) := by
  rw [stream, List.flatMap_cons, List.append_assoc]
  rfl

theorem At.prefix_todo (h : F.At todo done s consumed) : done <+: todo := by
  cases h with
  | idle htodo _ | within htodo _ | stopped htodo _ => exact ⟨_, htodo.symm⟩

/-- More frames are to come. -/
theorem At.append_todo (h : F.At todo done s consumed) (more : List φ) :
    F.At (todo ++ more) done s consumed := by
  cases h with
  | idle htodo hidle => exact .idle (by rw [htodo, List.append_assoc]) hidle
  | within htodo hwithin =>
      exact .within (by rw [htodo, List.append_assoc, List.cons_append]) hwithin
  | stopped htodo hstopped => exact .stopped (by rw [htodo, List.append_assoc]) hstopped

/-- The state is changed, not where it is in the stream. -/
theorem At.congr (h : F.At todo done s consumed) (hidle : F.Idle done s → F.Idle done s')
    (hwithin : ∀ f, F.Within done f s → F.Within done f s')
    (hstopped : F.Stopped done s → F.Stopped done s') : F.At todo done s' consumed := by
  cases h with
  | idle htodo h => exact .idle htodo (hidle h)
  | within htodo h => exact .within htodo (hwithin _ h)
  | stopped htodo h => exact .stopped htodo (hstopped h)

/-- A part of the stream that starts where a frame starts and is as long as its header. -/
theorem eq_header_of_prefix {rest : List φ} {got more : List β}
    (h : got ++ more <+: F.stream rest) (hlength : got.length = F.headerSize) :
    ∃ f rest', rest = f :: rest' ∧ got = F.header f := by
  have hpos := F.headerSize_pos
  cases rest with
  | nil =>
      have hnil : got ++ more = [] := List.prefix_nil.mp h
      rw [(List.append_eq_nil_iff.mp hnil).1, List.length_nil] at hlength
      omega
  | cons f rest =>
      rw [stream_cons] at h
      refine ⟨f, rest, rfl, ?_⟩
      have hgot : got <+: F.header f ++ (F.body f ++ F.stream rest) := (List.prefix_append _ _).trans h
      exact (List.prefix_of_prefix_length_le hgot (List.prefix_append _ _)
        (by rw [hlength, F.length_header])).eq_of_length (by rw [hlength, F.length_header])

/-- What is asked for has come: it is the header or the body the program waits for. -/
theorem At.complete (h : F.At todo done s consumed) {got more : List β}
    (hsize : P.size s = some got.length) (hstream : consumed ++ (got ++ more) <+: F.stream todo) :
    ∃ done', (done' = done ∨ ∃ f, done' = done ++ [f]) ∧
      F.At todo done' (P.full s got) (consumed ++ got) := by
  cases h with
  | @idle rest htodo hidle =>
      have hlength : got.length = F.headerSize := Option.some.inj (hsize.symm.trans (F.size_idle hidle))
      rw [htodo, stream_append, List.prefix_append_right_inj] at hstream
      obtain ⟨f, rest', rfl, rfl⟩ := eq_header_of_prefix hstream hlength
      exact ⟨done, Or.inl rfl, .within htodo (F.full_header f hidle)⟩
  | @within f rest htodo hwithin =>
      have hlength : got.length = (F.body f).length :=
        Option.some.inj (hsize.symm.trans (F.size_within hwithin))
      rw [htodo, stream_append, stream_cons, List.append_assoc, List.prefix_append_right_inj,
        List.prefix_append_right_inj] at hstream
      have hgot : got = F.body f :=
        (List.prefix_of_prefix_length_le ((List.prefix_append _ _).trans hstream)
          (List.prefix_append _ _) hlength.le).eq_of_length hlength
      have htodo' : todo = (done ++ [f]) ++ rest := by rw [htodo, List.append_assoc, List.singleton_append]
      have hconsumed : F.stream done ++ F.header f ++ got = F.stream (done ++ [f]) := by
        rw [hgot, stream_append, List.append_assoc]
        exact congrArg (F.stream done ++ ·) (List.flatMap_singleton ..).symm
      refine ⟨done ++ [f], Or.inr ⟨f, rfl⟩, ?_⟩
      rw [hconsumed, hgot]
      rcases F.full_body hwithin with hidle | hstopped
      · exact .idle htodo' hidle
      · exact .stopped htodo' hstopped
  | stopped _ hstopped => cases hsize.symm.trans (F.size_stopped hstopped)

/-- **Where a receiver is.**  A step of a receiver of frames leaves what it has read, or
adds the next frame. -/
theorem Tracks.apply {sent : List β} {e : Receipt} (h : F.Tracks todo done r)
    (hstep : r.apply P sent e = some r') (harrived : r.arrived <+: F.stream todo)
    (hfail : e = .fail → ∀ f, F.Within done f r.state → F.Stopped done (P.failed r.state r.got)) :
    ∃ done', (done' = done ∨ ∃ f, done' = done ++ [f]) ∧ F.Tracks todo done' r' := by
  obtain ⟨consumed, hat, hinitial, hall⟩ := h
  cases e with
  | arrive n =>
      obtain ⟨reading, hreading, rfl⟩ := Option.map_eq_some_iff.mp hstep
      simp only [Reading.apply] at hreading
      split at hreading
      · cases hreading
      · rename_i hopen
        cases hreading
        have heq : consumed ++ (r.got ++ (r.available ++ r.next sent n)) =
            r.arrived ++ r.next sent n := by
          rw [← hall (Bool.not_eq_true _ ▸ hopen), List.append_assoc, List.append_assoc]
        exact ⟨done, Or.inl rfl, consumed, hat, heq ▸ List.prefix_refl _, fun _ => heq⟩
  | take n =>
      obtain ⟨reading, hreading, rfl⟩ := Option.map_eq_some_iff.mp hstep
      simp only [Reading.apply] at hreading
      split at hreading
      · cases hreading
      · split at hreading
        · cases hreading
          have heq : r.got ++ r.available.take n ++ r.available.drop n = r.got ++ r.available := by
            rw [List.append_assoc, List.take_append_drop]
          refine ⟨done, Or.inl rfl, consumed, hat, ?_, ?_⟩
          · rwa [heq]
          · rwa [heq]
        · cases hreading
  | complete =>
      obtain ⟨reading, hreading, rfl⟩ := Option.map_eq_some_iff.mp hstep
      simp only [Reading.apply] at hreading
      split at hreading
      · rename_i hsize
        cases hreading
        obtain ⟨done', hdone, hat'⟩ := hat.complete hsize (hinitial.trans harrived)
        rw [← List.append_assoc] at hinitial hall
        exact ⟨done', hdone, _, hat', hinitial, hall⟩
      · cases hreading
  | fail =>
      obtain ⟨reading, hreading, rfl⟩ := Option.map_eq_some_iff.mp hstep
      simp only [Reading.apply] at hreading
      split at hreading
      · cases hreading
      · rename_i size hsize
        split at hreading
        · cases hreading
          rw [← List.append_assoc] at hinitial hall
          refine ⟨done, Or.inl rfl, consumed ++ r.got, ?_, hinitial, hall⟩
          cases hat with
          | idle htodo hidle => exact .stopped htodo (F.failed_idle r.got hidle)
          | within htodo hwithin => exact .stopped htodo (hfail rfl _ hwithin)
          | stopped _ hstopped => cases hsize.symm.trans (F.size_stopped hstopped)
        · cases hreading
  | cut =>
      cases hstep
      refine ⟨done, Or.inl rfl, consumed, hat, ?_, fun hended => absurd hended (by simp)⟩
      rw [← List.append_assoc] at hinitial
      rw [List.append_nil]
      exact (List.prefix_append _ _).trans hinitial

theorem Tracks.append_todo (h : F.Tracks todo done r) (more : List φ) :
    F.Tracks (todo ++ more) done r := by
  obtain ⟨consumed, hat, hrest⟩ := h
  exact ⟨consumed, hat.append_todo more, hrest⟩

theorem Tracks.congr (h : F.Tracks todo done r) (hidle : F.Idle done r.state → F.Idle done s')
    (hwithin : ∀ f, F.Within done f r.state → F.Within done f s')
    (hstopped : F.Stopped done r.state → F.Stopped done s') :
    F.Tracks todo done { r with state := s' } := by
  obtain ⟨consumed, hat, hrest⟩ := h
  exact ⟨consumed, hat.congr hidle hwithin hstopped, hrest⟩

/-- When all frames have come and nothing more can be read, all have been read. -/
theorem Tracks.eq_todo (h : F.Tracks todo done r) (hrest : r.toReading.AtRest P)
    (hopen : r.ended = false) (hreading : P.size r.state ≠ none) (hall : r.arrived = F.stream todo) :
    done = todo := by
  obtain ⟨consumed, hat, -, harrived⟩ := h
  have heq := (harrived hopen).trans hall
  rcases hrest with hnone | ⟨n, hsize, hshort, havailable, -⟩
  · exact absurd hnone hreading
  · rw [havailable, List.append_nil] at heq
    cases hat with
    | @idle rest htodo hidle =>
        rw [F.size_idle hidle, Option.some.injEq] at hsize
        rw [htodo, stream_append, List.append_cancel_left_eq] at heq
        cases rest with
        | nil => rw [htodo, List.append_nil]
        | cons f rest =>
            have hlength := congrArg List.length heq
            rw [stream_cons, List.length_append, F.length_header] at hlength
            omega
    | @within f rest htodo hwithin =>
        rw [F.size_within hwithin, Option.some.injEq] at hsize
        rw [htodo, stream_append, stream_cons, List.append_assoc, List.append_cancel_left_eq,
          List.append_cancel_left_eq] at heq
        have hlength := congrArg List.length heq
        rw [List.length_append] at hlength
        omega
    | stopped _ hstopped => exact absurd (F.size_stopped hstopped) hreading

end FrameReader

end AppChat.Foundation
