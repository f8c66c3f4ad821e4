/-
  `Foundation.Transition`: labelled transition systems, their finite runs, and
  the induction and simulation rules the rest of the development uses.

  Nothing in this file mentions the chat server.
-/
import Mathlib

set_option autoImplicit false

namespace AppChat.Foundation

variable {σ τ ε ι : Type*}

/-- Finite runs of the transition system `Step`, with the list of the events
taken. -/
inductive Run (Step : σ → ε → σ → Prop) : σ → List ε → σ → Prop where
  | nil (s : σ) : Run Step s [] s
  | cons {s t u : σ} {e : ε} {es : List ε} :
      Step s e t → Run Step t es u → Run Step s (e :: es) u

/-- `Step` restricted to the steps that meet the condition `Guard`, a predicate
of the state before the step and of the event. -/
def Guarded (Guard : σ → ε → Prop) (Step : σ → ε → σ → Prop) : σ → ε → σ → Prop :=
  fun s e t => Guard s e ∧ Step s e t

namespace Run

variable {Step Step' : σ → ε → σ → Prop} {s t u : σ} {es fs : List ε}

theorem single {e : ε} (h : Step s e t) : Run Step s [e] t :=
  .cons h (.nil t)

theorem append (h₁ : Run Step s es t) (h₂ : Run Step t fs u) :
    Run Step s (es ++ fs) u := by
  induction h₁ with
  | nil _ => exact h₂
  | cons hstep _ ih => exact .cons hstep (ih h₂)

theorem snoc {e : ε} (h₁ : Run Step s es t) (h₂ : Step t e u) :
    Run Step s (es ++ [e]) u :=
  h₁.append (single h₂)

/-- A run splits at every cut point of its events. -/
theorem split (es : List ε) {fs : List ε} {s u : σ} (h : Run Step s (es ++ fs) u) :
    ∃ t, Run Step s es t ∧ Run Step t fs u := by
  induction es generalizing s with
  | nil => exact ⟨s, .nil s, h⟩
  | cons e es ih =>
      cases h with
      | cons hstep hrest =>
          obtain ⟨t, h₁, h₂⟩ := ih hrest
          exact ⟨t, .cons hstep h₁, h₂⟩

/-- A run of a subsystem is a run of the system. -/
theorem mono (hsub : ∀ s e t, Step s e t → Step' s e t) (h : Run Step s es t) :
    Run Step' s es t := by
  induction h with
  | nil s => exact .nil s
  | cons hstep _ ih => exact .cons (hsub _ _ _ hstep) ih

theorem of_guarded {Guard : σ → ε → Prop} (h : Run (Guarded Guard Step) s es t) :
    Run Step s es t :=
  h.mono fun _ _ _ hstep => hstep.2

/-- The invariant rule: what every step preserves, every run preserves. -/
theorem invariant {Inv : σ → Prop}
    (hstep : ∀ s e t, Step s e t → Inv s → Inv t)
    (h : Run Step s es t) (hs : Inv s) : Inv t := by
  induction h with
  | nil _ => exact hs
  | cons hone _ ih => exact ih (hstep _ _ _ hone hs)

/-- The invariant rule for the events of one run. -/
theorem invariant_of_mem {Inv : σ → Prop} (h : Run Step s es t)
    (hstep : ∀ s e t, e ∈ es → Step s e t → Inv s → Inv t) (hs : Inv s) : Inv t := by
  induction h with
  | nil _ => exact hs
  | cons hone _ ih =>
      refine ih ?_ (hstep _ _ _ (List.mem_cons_self ..) hone hs)
      intro s e t he
      exact hstep s e t (List.mem_cons_of_mem _ he)

/-- The simulation rule: if every step of `Step` is matched by a step of the
system `Abs` under the relation `R`, then so is every run. -/
theorem simulate {Abs : τ → ι → τ → Prop} {R : σ → τ → Prop} {label : ε → ι}
    (hstep : ∀ s e t a, Step s e t → R s a → ∃ b, Abs a (label e) b ∧ R t b)
    (h : Run Step s es t) {a : τ} (ha : R s a) :
    ∃ b, Run Abs a (es.map label) b ∧ R t b := by
  induction h generalizing a with
  | nil _ => exact ⟨a, .nil a, ha⟩
  | cons hone _ ih =>
      obtain ⟨b, hab, hb⟩ := hstep _ _ _ _ hone ha
      obtain ⟨c, hbc, hc⟩ := ih hb
      exact ⟨c, .cons hab hbc, hc⟩

/-- The runs of a system given by a partial function are the folds of it. -/
theorem iff_foldlM {step : σ → ε → Option σ} :
    Run (fun s e t => step s e = some t) s es t ↔ es.foldlM step s = some t := by
  induction es generalizing s with
  | nil =>
      constructor
      · rintro ⟨⟩
        rfl
      · intro h
        cases h
        exact .nil _
  | cons e es ih =>
      rw [List.foldlM_cons]
      constructor
      · intro h
        cases h with
        | cons hone hrest => exact Option.bind_eq_some_iff.mpr ⟨_, hone, ih.mp hrest⟩
      · intro h
        obtain ⟨m, hone, hrest⟩ := Option.bind_eq_some_iff.mp h
        exact .cons hone (ih.mpr hrest)

/-- A fold that checks the guard is a guarded run. -/
theorem guarded_of_foldlM {step : σ → ε → Option σ} {Guard : σ → ε → Prop}
    [∀ s e, Decidable (Guard s e)]
    (h : es.foldlM (fun s e => if Guard s e then step s e else none) s = some t) :
    Run (Guarded Guard fun s e t => step s e = some t) s es t := by
  refine (iff_foldlM.mpr h).mono fun s e t hstep => ?_
  split at hstep
  · rename_i hguard
    exact ⟨hguard, hstep⟩
  · cases hstep

/-- Where the events determine the steps they determine the runs. -/
theorem deterministic (hdet : ∀ s e t t', Step s e t → Step s e t' → t = t') {t' : σ}
    (h : Run Step s es t) (h' : Run Step s es t') : t = t' := by
  induction h with
  | nil _ =>
      cases h'
      rfl
  | cons hone _ ih =>
      cases h' with
      | cons hone' hrest' =>
          have hm := hdet _ _ _ _ hone hone'
          subst hm
          exact ih hrest'

/-- A run whose states all satisfy `P` is guarded, if a step from a state with the
invariant to a state with `P` meets the guard. -/
theorem guarded_of_always {Guard : σ → ε → Prop} {Inv P : σ → Prop}
    (hkeep : ∀ s e t, Step s e t → Inv s → Guard s e → Inv t)
    (hguard : ∀ s e t, Step s e t → Inv s → P t → Guard s e)
    (h : Run Step s es t) (hs : Inv s)
    (halways : ∀ es₁ es₂ u, es = es₁ ++ es₂ → Run Step s es₁ u → P u) :
    Run (Guarded Guard Step) s es t := by
  induction h with
  | nil s => exact .nil s
  | @cons s m _ e es hone hrest ih =>
      have hm : P m := halways [e] es m rfl (single hone)
      have he : Guard s e := hguard _ _ _ hone hs hm
      refine .cons ⟨he, hone⟩ (ih (hkeep _ _ _ hone hs he) ?_)
      intro es₁ es₂ u hes hrun
      exact halways (e :: es₁) es₂ u (by simp [hes]) (.cons hone hrun)

/-- Let guarded steps preserve an invariant that implies `P`.  When a step from a
state with the invariant to a state with `P` is always guarded, the guarded runs
are exactly the runs that never leave `P`. -/
theorem always_iff_guarded {Guard : σ → ε → Prop} {Inv P : σ → Prop}
    (hdet : ∀ s e t t', Step s e t → Step s e t' → t = t')
    (hkeep : ∀ s e t, Step s e t → Inv s → Guard s e → Inv t)
    (hguard : ∀ s e t, Step s e t → Inv s → P t → Guard s e)
    (himp : ∀ s, Inv s → P s) (h : Run Step s es t) (hs : Inv s) :
    (∀ es₁ es₂ u, es = es₁ ++ es₂ → Run Step s es₁ u → P u) ↔
      Run (Guarded Guard Step) s es t := by
  constructor
  · exact guarded_of_always hkeep hguard h hs
  · rintro hguarded es₁ es₂ u rfl hu
    obtain ⟨m, hfirst, -⟩ := split es₁ hguarded
    have hm : m = u := deterministic hdet hfirst.of_guarded hu
    subst hm
    exact himp m (hfirst.invariant (fun _ _ _ hstep hInv => hkeep _ _ _ hstep.2 hInv hstep.1) hs)

end Run

end AppChat.Foundation
