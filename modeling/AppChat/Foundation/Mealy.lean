/-
  `Foundation.Mealy`: machines that answer every input with an output, and when two
  states of one give the same answers.

  Nothing in this file mentions the chat server.
-/
import Mathlib.Data.Option.Basic
import Mathlib.Data.List.Basic

set_option autoImplicit false

namespace AppChat.Foundation.Mealy

variable {σ ι ο : Type*}

/-- Feed the inputs to the machine: its last state and its answers.  `none` where an input
is not possible. -/
def run (apply : σ → ι → Option (σ × ο)) : σ → List ι → Option (σ × List ο)
  | s, [] => some (s, [])
  | s, i :: is =>
      (apply s i).bind fun answer =>
        (run apply answer.1 is).map fun rest => (rest.1, answer.2 :: rest.2)

/-- The answers alone. -/
def answers (apply : σ → ι → Option (σ × ο)) (s : σ) (is : List ι) : Option (List ο) :=
  (run apply s is).map Prod.snd

variable {apply : σ → ι → Option (σ × ο)}

@[simp] theorem answers_nil (s : σ) : answers apply s [] = some [] := rfl

theorem answers_cons (s : σ) (i : ι) (is : List ι) :
    answers apply s (i :: is) =
      (apply s i).bind fun answer => (answers apply answer.1 is).map (answer.2 :: ·) := by
  rw [answers, run]
  rcases apply s i with _ | answer
  · rfl
  · simp only [Option.bind_some, answers, Option.map_map]
    rfl

theorem answers_cons_of_some {s s' : σ} {i : ι} {o : ο} (h : apply s i = some (s', o))
    (is : List ι) : answers apply s (i :: is) = (answers apply s' is).map (o :: ·) := by
  rw [answers_cons, h]
  rfl

theorem answers_cons_of_none {s : σ} {i : ι} (h : apply s i = none) (is : List ι) :
    answers apply s (i :: is) = none := by
  rw [answers_cons, h]
  rfl

/-- A machine that answers a list of inputs answers the first of them. -/
theorem exists_of_answers_cons {s : σ} {i : ι} {is : List ι}
    (h : (answers apply s (i :: is)).isSome = true) :
    ∃ s' o, apply s i = some (s', o) ∧ (answers apply s' is).isSome = true := by
  rcases hi : apply s i with _ | ⟨s', o⟩
  · rw [answers_cons_of_none hi] at h
    cases h
  · rw [answers_cons_of_some hi, Option.isSome_map] at h
    exact ⟨s', o, rfl, h⟩

/-- The same answers begin with the same answer and go on with the same answers. -/
theorem eq_of_answers_cons_eq {s s' t t' : σ} {o o' : ο} {i : ι} {is : List ι}
    (hs : apply s i = some (s', o)) (ht : apply t i = some (t', o'))
    (hpossible : (answers apply t' is).isSome = true)
    (h : answers apply s (i :: is) = answers apply t (i :: is)) :
    o = o' ∧ answers apply s' is = answers apply t' is := by
  rw [answers_cons_of_some hs, answers_cons_of_some ht] at h
  obtain ⟨os, hos⟩ := Option.isSome_iff_exists.mp hpossible
  rw [hos, Option.map_some, Option.map_eq_some_iff] at h
  obtain ⟨os', hos', hcons⟩ := h
  obtain ⟨rfl, rfl⟩ := List.cons.inj hcons
  exact ⟨rfl, hos'.trans hos.symm⟩

/-- The same answer, and states in relation. -/
def SameAnswer (Alike : σ → σ → Prop) : Option (σ × ο) → Option (σ × ο) → Prop :=
  Option.Rel fun a b => Alike a.1 b.1 ∧ a.2 = b.2

theorem SameAnswer.exists_left {Alike : σ → σ → Prop} {a : Option (σ × ο)} {t : σ} {o : ο}
    (h : SameAnswer Alike a (some (t, o))) : ∃ s, a = some (s, o) ∧ Alike s t := by
  cases h with
  | some hpair => exact ⟨_, congrArg (fun o => some (_, o)) hpair.2, hpair.1⟩

/-- States that answer an input alike, and then are related in a way that gives the same
answers, give the same answers. -/
theorem answers_cons_eq {Alike : σ → σ → Prop} {s t : σ} {i : ι} {is : List ι}
    (hanswer : SameAnswer Alike (apply s i) (apply t i))
    (hrest : ∀ s' t', Alike s' t' → answers apply s' is = answers apply t' is) :
    answers apply s (i :: is) = answers apply t (i :: is) := by
  rw [answers_cons, answers_cons]
  generalize apply s i = a at hanswer
  generalize apply t i = b at hanswer
  cases hanswer with
  | none => rfl
  | some h =>
      obtain ⟨halike, hsame⟩ := h
      rw [Option.bind_some, Option.bind_some, hrest _ _ halike, hsame]

/-- A relation that every allowed input respects relates states with the same answers. -/
theorem answers_eq_of_alike {Alike : σ → σ → Prop} {Allowed : ι → Prop}
    (hstep : ∀ s t i, Alike s t → Allowed i → SameAnswer Alike (apply s i) (apply t i))
    {is : List ι} (his : ∀ i ∈ is, Allowed i) {s t : σ} (h : Alike s t) :
    answers apply s is = answers apply t is := by
  induction is generalizing s t with
  | nil => rfl
  | cons i is ih =>
      obtain ⟨hi, hrest⟩ := List.forall_mem_cons.mp his
      exact answers_cons_eq (hstep s t i h hi) fun s' t' halike => ih hrest halike

end AppChat.Foundation.Mealy
