/-
  `Foundation.Threads`: programs of atomic actions, and pools of threads that run
  them interleaved.

  A thread keeps a record of what it has done and seen.  The rule `wp_of_run`
  reasons about each thread alone: as long as every action returns what the record
  of its own thread promises, a weakest precondition of the program holds at every
  point of every thread, however the threads are interleaved.

  Nothing in this file mentions the chat server.
-/
import AppChat.Foundation.Transition

set_option autoImplicit false

namespace AppChat.Foundation

/-! ## Programs -/

/-- A program over the actions `Act`; the action `a` returns a `Res a`. -/
inductive Program (Act : Type) (Res : Act → Type) (α : Type) where
  | ret (value : α)
  | act (a : Act) (next : Res a → Program Act Res α)

namespace Program

variable {Act : Type} {Res : Act → Type} {α β : Type}

/-- The program of one action. -/
def perform (a : Act) : Program Act Res (Res a) := .act a .ret

/-- Run a program, and go on with its value. -/
def bind : Program Act Res α → (α → Program Act Res β) → Program Act Res β
  | .ret value, f => f value
  | .act a next, f => .act a fun r => (next r).bind f

instance : Monad (Program Act Res) where
  pure := .ret
  bind := bind

@[simp] theorem pure_eq (value : α) : (pure value : Program Act Res α) = .ret value := rfl

@[simp] theorem ret_bind (value : α) (f : α → Program Act Res β) :
    (Program.ret value >>= f) = f value := rfl

@[simp] theorem act_bind (a : Act) (next : Res a → Program Act Res α)
    (f : α → Program Act Res β) :
    (Program.act a next >>= f) = .act a fun r => next r >>= f := rfl

@[simp] theorem perform_bind (a : Act) (f : Res a → Program Act Res β) :
    (perform a >>= f) = .act a f := rfl

/-- Run a program with nothing in between. -/
def alone {σ : Type} (exec : σ → (a : Act) → Option (σ × Res a)) :
    Program Act Res α → σ → Option (σ × α)
  | .ret value, s => some (s, value)
  | .act a next, s =>
      match exec s a with
      | none => none
      | some (s', r) => (next r).alone exec s'

@[simp] theorem alone_ret {σ : Type} (exec : σ → (a : Act) → Option (σ × Res a)) (value : α)
    (s : σ) : (Program.ret value).alone exec s = some (s, value) := rfl

@[simp] theorem alone_act {σ : Type} (exec : σ → (a : Act) → Option (σ × Res a)) (a : Act)
    (next : Res a → Program Act Res α) (s : σ) :
    (Program.act a next).alone exec s = (exec s a).bind fun sr => (next sr.2).alone exec sr.1 := by
  rw [alone]
  cases exec s a <;> rfl

end Program

/-! ## Pools -/

/-- Tasks, their programs, and what the actions do to the shared state.  A thread
starts with the record `start task` and notes what each of its actions returned. -/
structure Machine (σ ι ρ Act : Type) (Res : Act → Type) where
  program : ι → Program Act Res Unit
  exec : σ → (a : Act) → Option (σ × Res a)
  start : ι → ρ
  note : σ → ρ → (a : Act) → Res a → ρ

/-- A thread that has been started: its task, the rest of its program, and its
record. -/
structure Thread (ι ρ Act : Type) (Res : Act → Type) where
  task : ι
  rest : Program Act Res Unit
  record : ρ

/-- The shared state, and the threads in the order in which they were started. -/
structure Pool (σ ι ρ Act : Type) (Res : Act → Type) where
  shared : σ
  threads : List (Thread ι ρ Act Res)

/-- A thread starts on a task, or the thread number `i` does its next action. -/
inductive PoolEvent (ι : Type) where
  | spawn (task : ι)
  | step (i : Nat)
  deriving DecidableEq, Repr

/-- The thread has nothing more to do. -/
def Thread.Finished {ι ρ Act : Type} {Res : Act → Type} (thread : Thread ι ρ Act Res) : Prop :=
  thread.rest = .ret ()

instance {ι ρ Act : Type} {Res : Act → Type} (thread : Thread ι ρ Act Res) :
    Decidable thread.Finished :=
  match thread with
  | ⟨_, .ret (), _⟩ => .isTrue rfl
  | ⟨_, .act _ _, _⟩ => .isFalse nofun

/-- Every thread has finished. -/
def Pool.Quiet {σ ι ρ Act : Type} {Res : Act → Type} (p : Pool σ ι ρ Act Res) : Prop :=
  ∀ thread ∈ p.threads, thread.Finished

instance {σ ι ρ Act : Type} {Res : Act → Type} (p : Pool σ ι ρ Act Res) : Decidable p.Quiet :=
  inferInstanceAs (Decidable (∀ thread ∈ p.threads, thread.Finished))

namespace Machine

variable {σ ι ρ Act : Type} {Res : Act → Type} (M : Machine σ ι ρ Act Res)

/-- A thread that starts on a task. -/
def begin (task : ι) : Thread ι ρ Act Res := ⟨task, M.program task, M.start task⟩

/-- The steps of a pool. -/
inductive Step : Pool σ ι ρ Act Res → PoolEvent ι → Pool σ ι ρ Act Res → Prop where
  | spawn {p : Pool σ ι ρ Act Res} {task : ι} :
      Step p (.spawn task) { p with threads := p.threads ++ [M.begin task] }
  | step {s s' : σ} {before after : List (Thread ι ρ Act Res)} {task : ι} {a : Act}
      {next : Res a → Program Act Res Unit} {record : ρ} {r : Res a} :
      M.exec s a = some (s', r) →
        Step ⟨s, before ++ ⟨task, .act a next, record⟩ :: after⟩ (.step before.length)
          ⟨s', before ++ ⟨task, next r, M.note s record a r⟩ :: after⟩

/-- The step of an event, computed. -/
def apply (p : Pool σ ι ρ Act Res) : PoolEvent ι → Option (Pool σ ι ρ Act Res)
  | .spawn task => some { p with threads := p.threads ++ [M.begin task] }
  | .step i =>
      match p.threads[i]? with
      | some ⟨task, .act a next, record⟩ =>
          (M.exec p.shared a).map fun sr =>
            ⟨sr.1, p.threads.set i ⟨task, next sr.2, M.note p.shared record a sr.2⟩⟩
      | _ => none

theorem step_of_apply {p p' : Pool σ ι ρ Act Res} {e : PoolEvent ι} (h : M.apply p e = some p') :
    M.Step p e p' := by
  cases e with
  | spawn task =>
      cases h
      exact .spawn
  | step i =>
      simp only [apply] at h
      split at h
      · rename_i task a next record hi
        obtain ⟨⟨s', r⟩, hexec, rfl⟩ := Option.map_eq_some_iff.mp h
        obtain ⟨s, threads⟩ := p
        obtain ⟨hlt, hget⟩ := List.getElem?_eq_some_iff.mp hi
        have hlength : (threads.take i).length = i := List.length_take_of_le (le_of_lt hlt)
        have hsplit : threads = threads.take i ++ ⟨task, .act a next, record⟩ :: threads.drop (i + 1) := by
          rw [← hget, List.getElem_cons_drop, List.take_append_drop]
        have hset : threads.set i ⟨task, next r, M.note s record a r⟩ =
            threads.take i ++ ⟨task, next r, M.note s record a r⟩ :: threads.drop (i + 1) :=
          List.set_eq_take_append_cons_drop.trans (if_pos hlt)
        have hstep := @Step.step _ _ _ _ _ M s s' (threads.take i) (threads.drop (i + 1)) task a next
          record r hexec
        rw [← hsplit, hlength, ← hset] at hstep
        exact hstep
      · cases h

end Machine

/-- A condition on the next action of a thread. -/
def Thread.Next {ι ρ Act : Type} {Res : Act → Type} (Guard : ρ → Act → Prop)
    (thread : Thread ι ρ Act Res) : Prop :=
  match thread.rest with
  | .ret _ => True
  | .act a _ => Guard thread.record a

instance {ι ρ Act : Type} {Res : Act → Type} (Guard : ρ → Act → Prop)
    [∀ record a, Decidable (Guard record a)] (thread : Thread ι ρ Act Res) :
    Decidable (thread.Next Guard) :=
  match thread with
  | ⟨_, .ret _, _⟩ => inferInstanceAs (Decidable True)
  | ⟨_, .act a _, record⟩ => inferInstanceAs (Decidable (Guard record a))

namespace Machine

variable {σ ι ρ Act : Type} {Res : Act → Type} (M : Machine σ ι ρ Act Res)

/-- A condition on the actions, as a condition on the steps of the pool. -/
def Meets (Guard : σ → ρ → Act → Prop) (p : Pool σ ι ρ Act Res) : PoolEvent ι → Prop
  | .spawn _ => True
  | .step i => ∀ thread ∈ p.threads[i]?, thread.Next (Guard p.shared)

instance (Guard : σ → ρ → Act → Prop) [∀ s record a, Decidable (Guard s record a)]
    (p : Pool σ ι ρ Act Res) (e : PoolEvent ι) : Decidable (Meets Guard p e) :=
  match e with
  | .spawn _ => inferInstanceAs (Decidable True)
  | .step i =>
      inferInstanceAs (Decidable (∀ thread ∈ p.threads[i]?, thread.Next (Guard p.shared)))

theorem Meets.mono {Guard Guard' : σ → ρ → Act → Prop} {p : Pool σ ι ρ Act Res}
    {e : PoolEvent ι} (h : Meets Guard p e) (himp : ∀ s record a, Guard s record a →
      Guard' s record a) : Meets Guard' p e := by
  cases e with
  | spawn task => trivial
  | step i =>
      intro thread hthread
      have hnext := h thread hthread
      obtain ⟨task, rest, record⟩ := thread
      cases rest with
      | ret _ => trivial
      | act a next => exact himp _ _ _ hnext

theorem Meets.guard {Guard : σ → ρ → Act → Prop} {s : σ}
    {before after : List (Thread ι ρ Act Res)} {task : ι} {a : Act}
    {next : Res a → Program Act Res Unit} {record : ρ}
    (h : Meets Guard (⟨s, before ++ ⟨task, .act a next, record⟩ :: after⟩ : Pool σ ι ρ Act Res)
      (.step before.length)) : Guard s record a :=
  h ⟨task, .act a next, record⟩ (by simp)

/-- The guarded step of an event, computed. -/
def applyGuarded (Guard : σ → ρ → Act → Prop) [∀ s record a, Decidable (Guard s record a)]
    (p : Pool σ ι ρ Act Res) (e : PoolEvent ι) : Option (Pool σ ι ρ Act Res) :=
  if Meets Guard p e then M.apply p e else none

theorem run_of_applyGuarded {Guard : σ → ρ → Act → Prop}
    [∀ s record a, Decidable (Guard s record a)] {p p' : Pool σ ι ρ Act Res}
    {es : List (PoolEvent ι)} (h : es.foldlM (M.applyGuarded Guard) p = some p') :
    Run (Guarded (Meets Guard) M.Step) p es p' := by
  refine (Run.iff_foldlM.mpr h).mono ?_
  intro q e q' hstep
  obtain ⟨hmeets, happly⟩ := Option.ite_none_right_eq_some.mp hstep
  exact ⟨hmeets, M.step_of_apply happly⟩

/-! ## The weakest precondition of a thread -/

/-- What the record of a thread promises: which actions it may be about to do, and
what they return. -/
structure Promise (σ ρ Act : Type) (Res : Act → Type) where
  requires : ρ → Act → Prop
  returns : σ → ρ → (a : Act) → Res a → Prop

/-- If every action returns what the record promises, the program does only what
the record allows and ends with a record in `Q`. -/
def wp (L : Promise σ ρ Act Res) (Q : ρ → Prop) : Program Act Res Unit → ρ → Prop
  | .ret _, record => Q record
  | .act a next, record =>
      L.requires record a ∧
        ∀ s r, L.returns s record a r → wp L Q (next r) (M.note s record a r)

variable {M}

theorem wp_act {L : Promise σ ρ Act Res} {Q : ρ → Prop} {record : ρ} {a : Act}
    {next : Res a → Program Act Res Unit} :
    M.wp L Q (.act a next) record ↔
      L.requires record a ∧
        ∀ s r, L.returns s record a r → M.wp L Q (next r) (M.note s record a r) := Iff.rfl

/-- Every thread is at a point of its program where the weakest precondition of
its task holds. -/
def Sound (M : Machine σ ι ρ Act Res) (L : Promise σ ρ Act Res) (Q : ι → ρ → Prop)
    (p : Pool σ ι ρ Act Res) : Prop :=
  ∀ thread ∈ p.threads, M.wp L (Q thread.task) thread.rest thread.record

section Rule

variable {L : Promise σ ρ Act Res} {Q : ι → ρ → Prop} {Guard : σ → ρ → Act → Prop}
  {p p' : Pool σ ι ρ Act Res} {e : PoolEvent ι}

theorem sound_init (s : σ) : M.Sound L Q ⟨s, []⟩ :=
  fun _ hthread => absurd hthread List.not_mem_nil

theorem sound_step (hprogram : ∀ task, M.wp L (Q task) (M.program task) (M.start task))
    (hreturns : ∀ s record a s' r, Guard s record a → M.exec s a = some (s', r) →
      L.returns s record a r)
    (hstep : Guarded (Meets Guard) M.Step p e p') (hsound : M.Sound L Q p) : M.Sound L Q p' := by
  obtain ⟨hmeets, hstep⟩ := hstep
  cases hstep with
  | spawn =>
      intro thread hthread
      rcases List.mem_append.mp hthread with hold | hnew
      · exact hsound thread hold
      · rw [List.mem_singleton] at hnew
        subst hnew
        exact hprogram _
  | @step s s' before after task a next record r hexec =>
      obtain ⟨-, hnext⟩ := wp_act.mp (hsound ⟨task, .act a next, record⟩ (by simp))
      intro thread hthread
      rcases List.mem_append.mp hthread with hbefore | hrest
      · exact hsound thread (List.mem_append_left _ hbefore)
      · rcases List.mem_cons.mp hrest with rfl | hafter
        · exact hnext s r (hreturns _ _ _ _ _ hmeets.guard hexec)
        · exact hsound thread (List.mem_append_right _ (List.mem_cons_of_mem _ hafter))

/-- Reasoning about one thread at a time: guarded actions return what the records
promise, so every thread of every run is sound. -/
theorem sound_of_run (hprogram : ∀ task, M.wp L (Q task) (M.program task) (M.start task))
    (hreturns : ∀ s record a s' r, Guard s record a → M.exec s a = some (s', r) →
      L.returns s record a r)
    {es : List (PoolEvent ι)} (h : Run (Guarded (Meets Guard) M.Step) p es p')
    (hsound : M.Sound L Q p) : M.Sound L Q p' :=
  h.invariant (fun _ _ _ => sound_step hprogram hreturns) hsound

/-- A finished thread of a sound pool has a record in `Q`. -/
theorem Sound.finished (hsound : M.Sound L Q p) {thread : Thread ι ρ Act Res}
    (hthread : thread ∈ p.threads) (hfinished : thread.Finished) :
    Q thread.task thread.record := by
  have hwp := hsound thread hthread
  rw [hfinished] at hwp
  exact hwp

/-- An action a thread of a sound pool is about to do is allowed. -/
theorem Sound.requires {s : σ} {before after : List (Thread ι ρ Act Res)} {task : ι} {a : Act}
    {next : Res a → Program Act Res Unit} {record : ρ}
    (hsound : M.Sound L Q ⟨s, before ++ ⟨task, .act a next, record⟩ :: after⟩) :
    L.requires record a :=
  (wp_act.mp (hsound ⟨task, .act a next, record⟩ (by simp))).1

end Rule

/-! ## A thread alone -/

/-- A thread that runs alone does what its program does alone. -/
theorem run_of_alone {before after : List (Thread ι ρ Act Res)} {task : ι}
    {t : Program Act Res Unit} {s s' : σ} (halone : t.alone M.exec s = some (s', ()))
    (record : ρ) :
    ∃ n record', Run M.Step ⟨s, before ++ ⟨task, t, record⟩ :: after⟩
      (List.replicate n (.step before.length))
      ⟨s', before ++ ⟨task, .ret (), record'⟩ :: after⟩ := by
  induction t generalizing s record with
  | ret value =>
      simp only [Program.alone_ret, Option.some.injEq, Prod.mk.injEq] at halone
      obtain ⟨rfl, -⟩ := halone
      exact ⟨0, record, .nil _⟩
  | act a next ih =>
      rw [Program.alone_act] at halone
      obtain ⟨⟨s₁, r⟩, hexec, hrest⟩ := Option.bind_eq_some_iff.mp halone
      obtain ⟨n, record', hrun⟩ := ih r hrest (M.note s record a r)
      exact ⟨n + 1, record', .cons (.step hexec) hrun⟩

end Machine

end AppChat.Foundation
