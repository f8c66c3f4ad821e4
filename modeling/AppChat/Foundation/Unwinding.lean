/-
  `Foundation.Unwinding`: two runs of a system with outputs that look the same to
  an observer.

  Nothing in this file mentions the chat server.
-/
import Mathlib

set_option autoImplicit false

namespace AppChat.Foundation

variable {σ ε ω : Type*}

/-- Run all the events, and collect the outputs in order. -/
def runAll (apply : σ → ε → Option (σ × List ω)) : σ → List ε → Option (σ × List ω)
  | s, [] => some (s, [])
  | s, e :: es => do
      let (s', out) ← apply s e
      let (s'', out') ← runAll apply s' es
      return (s'', out ++ out')

theorem runAll_cons_of_some {apply : σ → ε → Option (σ × List ω)} {s s' s'' : σ} {e : ε}
    {es : List ε} {out out' : List ω} (h : apply s e = some (s', out))
    (hrest : runAll apply s' es = some (s'', out')) :
    runAll apply s (e :: es) = some (s'', out ++ out') := by
  simp [runAll, h, hrest]

/-- The unwinding rule.  Let `R` relate states that look alike.  If an event that is
not `kept` shows nothing and preserves `R` on the left, and an event that is kept
shows the same on both sides and preserves `R`, then dropping the events that are
not kept changes nothing that is `seen`. -/
theorem unwinding {apply : σ → ε → Option (σ × List ω)} {R : σ → σ → Prop}
    {kept : ε → Bool} {seen : ω → Bool}
    (hdrop : ∀ s t e, R s t → kept e = false →
      ∃ s' out, apply s e = some (s', out) ∧ R s' t ∧ out.filter seen = [])
    (hkeep : ∀ s t e, R s t → kept e = true →
      ∃ s' t' out out', apply s e = some (s', out) ∧ apply t e = some (t', out') ∧ R s' t' ∧
        out.filter seen = out'.filter seen)
    {s t : σ} (h : R s t) (es : List ε) :
    ∃ s' t' out out', runAll apply s es = some (s', out) ∧
      runAll apply t (es.filter kept) = some (t', out') ∧ R s' t' ∧
      out.filter seen = out'.filter seen := by
  induction es generalizing s t with
  | nil => exact ⟨s, t, [], [], rfl, rfl, h, rfl⟩
  | cons e es ih =>
      cases he : kept e with
      | false =>
          obtain ⟨s₁, out₁, happly, h₁, hnone⟩ := hdrop s t e h he
          obtain ⟨s', t', out, out', hs, ht, hR, hseen⟩ := ih h₁
          refine ⟨s', t', _, out', runAll_cons_of_some happly hs, ?_, hR, ?_⟩
          · rw [List.filter_cons_of_neg (by simp [he])]
            exact ht
          · rw [List.filter_append, hnone, List.nil_append, hseen]
      | true =>
          obtain ⟨s₁, t₁, out₁, out₁', hs₁, ht₁, h₁, hsame⟩ := hkeep s t e h he
          obtain ⟨s', t', out, out', hs, ht, hR, hseen⟩ := ih h₁
          refine ⟨s', t', _, out₁' ++ out', runAll_cons_of_some hs₁ hs, ?_, hR, ?_⟩
          · rw [List.filter_cons_of_pos he]
            exact runAll_cons_of_some ht₁ ht
          · rw [List.filter_append, List.filter_append, hsame, hseen]

end AppChat.Foundation
