/-
  `Foundation.Commutation`: tasks that are posted in one order and run in another.

  When a task only overtakes tasks it commutes with, the order of running is as good as
  the order of posting.  Nothing in this file mentions the chat server.
-/
import AppChat.Foundation.Transition

set_option autoImplicit false

namespace AppChat.Foundation

variable {σ α τ : Type*}

/-! ## Overtaking -/

/-- A task that commutes with all before it may as well be the first. -/
theorem foldl_overtake {step : α → τ → α} {Commutes : τ → τ → Prop}
    (hcommutes : ∀ a t u, Commutes t u → step (step a t) u = step (step a u) t)
    {before : List τ} {task : τ} (hbefore : ∀ t ∈ before, Commutes t task)
    (after : List τ) (a : α) :
    (before ++ task :: after).foldl step a = (before ++ after).foldl step (step a task) := by
  induction before generalizing a with
  | nil => rfl
  | cons t before ih =>
      obtain ⟨ht, hrest⟩ := List.forall_mem_cons.mp hbefore
      have hswap := hcommutes a t task ht
      calc (t :: before ++ task :: after).foldl step a
          = (before ++ task :: after).foldl step (step a t) := rfl
        _ = (before ++ after).foldl step (step (step a t) task) := ih hrest (step a t)
        _ = (before ++ after).foldl step (step (step a task) t) := by rw [hswap]
        _ = (t :: before ++ after).foldl step (step a task) := rfl

/-! ## A pool that runs the tasks in any order -/

/-- A state, the tasks that have been posted and not yet run, and all that have been
posted, both in the order of posting. -/
structure Pipeline (σ τ : Type*) where
  state : σ
  pending : List τ
  posted : List τ

/-- A task is posted, or one of the pending tasks is run: the one between those posted
before and those posted after it. -/
inductive PipelineEvent (τ : Type*) where
  | post (task : τ)
  | run (before : List τ) (task : τ) (after : List τ)
  deriving DecidableEq, Repr

namespace Pipeline

/-- A pipeline before the first task. -/
def start (s : σ) : Pipeline σ τ := ⟨s, [], []⟩

/-- One event; `exec` runs a task. -/
def Step (exec : σ → τ → Option σ) (p : Pipeline σ τ) :
    PipelineEvent τ → Pipeline σ τ → Prop
  | .post task, p' => p' = ⟨p.state, p.pending ++ [task], p.posted ++ [task]⟩
  | .run before task after, p' =>
      p.pending = before ++ task :: after ∧
        ∃ s, exec p.state task = some s ∧ p' = ⟨s, before ++ after, p.posted⟩

/-- A task that is posted is good, and one that is run overtakes only tasks it commutes
with. -/
def InOrder (Good : τ → Prop) (Commutes : τ → τ → Prop) (_ : Pipeline σ τ) :
    PipelineEvent τ → Prop
  | .post task => Good task
  | .run before task _ => ∀ t ∈ before, Commutes t task

/-- What the tasks do, seen through `Abs`: every good task does to the abstract state what
`step` says, and there tasks that commute do so. -/
structure Abstracts (exec : σ → τ → Option σ) (Abs : σ → α → Prop) (step : α → τ → α)
    (Good : τ → Prop) (Commutes : τ → τ → Prop) : Prop where
  exec : ∀ s a t, Abs s a → Good t → ∃ s', exec s t = some s' ∧ Abs s' (step a t)
  commutes : ∀ a t u, Commutes t u → step (step a t) u = step (step a u) t

section Overtaking

variable {exec : σ → τ → Option σ} {Abs : σ → α → Prop} {step : α → τ → α}
  {Good : τ → Prop} {Commutes : τ → τ → Prop}

/-- The abstract state, once the pending tasks have been run in the order of posting, is
that of all posted tasks in that order. -/
structure OnTrack (Abs : σ → α → Prop) (step : α → τ → α) (Good : τ → Prop) (a₀ : α)
    (p : Pipeline σ τ) : Prop where
  abstract : ∃ a, Abs p.state a ∧ p.pending.foldl step a = p.posted.foldl step a₀
  good : ∀ t ∈ p.posted, Good t
  pending_posted : ∀ t ∈ p.pending, t ∈ p.posted

theorem onTrack_start {s₀ : σ} {a₀ : α} (h : Abs s₀ a₀) :
    OnTrack Abs step Good a₀ (start s₀) := by
  refine ⟨⟨a₀, h, rfl⟩, ?_, ?_⟩
  · intro t ht
    cases ht
  · intro t ht
    cases ht

theorem onTrack_step (h : Abstracts exec Abs step Good Commutes) {a₀ : α}
    {p p' : Pipeline σ τ} {e : PipelineEvent τ}
    (hstep : Guarded (InOrder Good Commutes) (Step exec) p e p')
    (hp : OnTrack Abs step Good a₀ p) : OnTrack Abs step Good a₀ p' := by
  obtain ⟨hguard, hstep⟩ := hstep
  obtain ⟨⟨a, habs, hfold⟩, hgood, hposted⟩ := hp
  cases e with
  | post task =>
      cases hstep
      refine ⟨⟨a, habs, ?_⟩, ?_, ?_⟩
      · simp only [List.foldl_append, hfold]
      · intro t ht
        rcases List.mem_append.mp ht with hold | hnew
        · exact hgood t hold
        · rw [List.mem_singleton.mp hnew]
          exact hguard
      · intro t ht
        rcases List.mem_append.mp ht with hold | hnew
        · exact List.mem_append_left _ (hposted t hold)
        · exact List.mem_append_right _ hnew
  | run before task after =>
      obtain ⟨hpending, s, hexec, rfl⟩ := hstep
      have htask : task ∈ p.pending := by
        rw [hpending]
        exact List.mem_append_right _ List.mem_cons_self
      obtain ⟨s', hs', habs'⟩ := h.exec p.state a task habs (hgood task (hposted task htask))
      obtain rfl : s = s' := Option.some.inj (hexec.symm.trans hs')
      refine ⟨⟨step a task, habs', ?_⟩, hgood, ?_⟩
      · rw [← hfold, hpending, foldl_overtake h.commutes hguard]
      · intro t ht
        refine hposted t ?_
        rw [hpending]
        rcases List.mem_append.mp ht with hb | ha
        · exact List.mem_append_left _ hb
        · exact List.mem_append_right _ (List.mem_cons_of_mem _ ha)

/-- Good tasks can be run one after the other. -/
theorem exists_foldlM (h : Abstracts exec Abs step Good Commutes) {tasks : List τ}
    (hgood : ∀ t ∈ tasks, Good t) {s : σ} {a : α} (habs : Abs s a) :
    ∃ s', tasks.foldlM exec s = some s' ∧ Abs s' (tasks.foldl step a) := by
  induction tasks generalizing s a with
  | nil => exact ⟨s, rfl, habs⟩
  | cons t tasks ih =>
      obtain ⟨ht, hrest⟩ := List.forall_mem_cons.mp hgood
      obtain ⟨s₁, hs₁, habs₁⟩ := h.exec s a t habs ht
      obtain ⟨s', hs', habs'⟩ := ih hrest habs₁
      refine ⟨s', ?_, habs'⟩
      rw [List.foldlM_cons, hs₁]
      exact hs'

/-- When all tasks have been run, and none has overtaken one it does not commute with, the
state is abstractly that of running them in the order of posting. -/
theorem exists_foldlM_of_run (h : Abstracts exec Abs step Good Commutes) {s₀ : σ} {a₀ : α}
    (habs : Abs s₀ a₀) {es : List (PipelineEvent τ)} {p : Pipeline σ τ}
    (hrun : Run (Guarded (InOrder Good Commutes) (Step exec)) (start s₀) es p)
    (hdone : p.pending = []) :
    ∃ s' a, p.posted.foldlM exec s₀ = some s' ∧ Abs s' a ∧ Abs p.state a := by
  have hinvariant : OnTrack Abs step Good a₀ p :=
    hrun.invariant (fun _ _ _ => onTrack_step h) (onTrack_start habs)
  obtain ⟨⟨a, hstate, hfold⟩, hgood, -⟩ := hinvariant
  obtain ⟨s', hs', habs'⟩ := exists_foldlM h hgood habs
  rw [hdone, List.foldl_nil] at hfold
  rw [← hfold] at habs'
  exact ⟨s', a, hs', habs', hstate⟩

end Overtaking

end Pipeline

end AppChat.Foundation
