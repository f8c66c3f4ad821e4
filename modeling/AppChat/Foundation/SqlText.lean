/-
  `Foundation.SqlText`: single-quoted SQL string literals over byte strings.

  Inside a literal two quotes stand for one.  A text written between quotes
  without care is a literal for something only when its own quotes come in
  pairs; `undouble` decides that and returns the value the literal denotes.
-/
import AppChat.Foundation.Bytes

set_option autoImplicit false

namespace AppChat.Foundation.SqlText

/-- The byte `'`. -/
abbrev quote : UInt8 := 39

/-- The body of the literal that denotes `s`: every quote written twice. -/
def double : Bytes → Bytes
  | [] => []
  | b :: bs => if b = quote then quote :: quote :: double bs else b :: double bs

/-- The value of a literal with the body `w`, when `w` is the body of one
literal: every quote of `w` is followed by its double. -/
def undouble : Bytes → Option Bytes
  | [] => some []
  | b :: bs =>
      if b = quote then
        match bs with
        | [] => none
        | c :: cs => if c = quote then (undouble cs).map (quote :: ·) else none
      else (undouble bs).map (b :: ·)

@[simp] theorem double_nil : double [] = [] := rfl

@[simp] theorem double_cons_quote (s : Bytes) :
    double (quote :: s) = quote :: quote :: double s := by
  simp [double]

@[simp] theorem double_cons_of_ne {b : UInt8} (hb : b ≠ quote) (s : Bytes) :
    double (b :: s) = b :: double s := by
  simp [double, hb]

@[simp] theorem undouble_cons_of_ne {b : UInt8} (hb : b ≠ quote) (s : Bytes) :
    undouble (b :: s) = (undouble s).map (b :: ·) := by
  cases s <;> simp [undouble, hb]

@[simp] theorem undouble_double (s : Bytes) : undouble (double s) = some s := by
  induction s with
  | nil => rfl
  | cons b bs ih =>
      by_cases hb : b = quote
      · subst hb
        simp [undouble, ih]
      · simp [hb, ih]

/-- `undouble` accepts only bodies of literals. -/
theorem double_of_undouble {w a : Bytes} (h : undouble w = some a) : double a = w := by
  induction w using undouble.induct generalizing a with
  | case1 =>
      simp only [undouble, Option.some.injEq] at h
      subst h
      rfl
  | case2 => simp [undouble] at h
  | case3 cs ih =>
      simp only [undouble, if_true, Option.map_eq_some_iff] at h
      obtain ⟨a', ha', rfl⟩ := h
      simp [ih ha']
  | case4 c cs hc => simp [undouble, hc] at h
  | case5 b bs hb ih =>
      rw [undouble_cons_of_ne hb, Option.map_eq_some_iff] at h
      obtain ⟨a', ha', rfl⟩ := h
      rw [double_cons_of_ne hb, ih ha']

theorem zero_mem_double {s : Bytes} : 0 ∈ double s ↔ 0 ∈ s := by
  induction s with
  | nil => simp
  | cons b bs ih =>
      by_cases hb : b = quote
      · subst hb
        simp [ih]
      · simp [hb, ih]

theorem double_eq_self {s : Bytes} (h : quote ∉ s) : double s = s := by
  induction s with
  | nil => rfl
  | cons b bs ih =>
      simp only [List.mem_cons, not_or] at h
      rw [double_cons_of_ne (Ne.symm h.1), ih h.2]

theorem length_double (s : Bytes) : (double s).length = s.length + s.count quote := by
  induction s with
  | nil => rfl
  | cons b bs ih =>
      by_cases hb : b = quote
      · subst hb
        simp [ih]
        omega
      · simp [hb, ih]
        omega

/-- A text with quotes is not the body of its own literal. -/
theorem double_eq_self_iff {s : Bytes} : double s = s ↔ quote ∉ s := by
  refine ⟨?_, double_eq_self⟩
  intro h
  have hlength := length_double s
  rw [h] at hlength
  exact List.count_eq_zero.mp (by omega)

/-! ## Well-quoted texts -/

/-- A text that may be put between quotes as it is: it has no NUL byte, and
every quote in it is doubled. -/
def WellQuoted (w : Bytes) : Prop := 0 ∉ w ∧ (undouble w).isSome

instance (w : Bytes) : Decidable (WellQuoted w) :=
  inferInstanceAs (Decidable (_ ∧ _))

/-- A well-quoted text is the body of the literal of a NUL-free value. -/
theorem WellQuoted.exists_double {w : Bytes} (h : WellQuoted w) :
    ∃ a, undouble w = some a ∧ double a = w ∧ 0 ∉ a := by
  obtain ⟨a, ha⟩ := Option.isSome_iff_exists.mp h.2
  have hw := double_of_undouble ha
  exact ⟨a, ha, hw, fun hzero => h.1 (hw ▸ zero_mem_double.mpr hzero)⟩

/-- A text without quotes and NUL bytes denotes itself. -/
theorem undouble_eq_self {w : Bytes} (h : quote ∉ w) : undouble w = some w := by
  rw [← undouble_double w, double_eq_self h]

/-! ## Lexing -/

/-- Bytes that, outside a literal, may begin something other than a plain
token: a quoted identifier, a comment, or the next statement. -/
def isSpecial (b : UInt8) : Bool :=
  b = 34 || b = 96 || b = 91 || b = 45 || b = 47 || b = 59

/-- Scan statement text for string literals.  The first argument says whether the
scan starts inside one, the result whether it ends inside one; `none` when a
special byte stands outside all literals.  Two adjacent quotes inside a literal
leave it and enter it again, which is what the doubled quote amounts to. -/
def scan : Bool → Bytes → Option Bool
  | inside, [] => some inside
  | inside, b :: bs =>
      if b = quote then scan (!inside) bs
      else if !inside && isSpecial b then none
      else scan inside bs

/-- The statement text ends inside a string literal. -/
def endsInLiteral (q : Bytes) : Bool := scan false q = some true

theorem scan_append (inside : Bool) (s t : Bytes) :
    scan inside (s ++ t) = (scan inside s).bind fun after => scan after t := by
  induction s generalizing inside with
  | nil => rfl
  | cons b bs ih =>
      simp only [List.cons_append, scan]
      split
      · exact ih _
      · split
        · rfl
        · exact ih _

@[simp] theorem scan_double (s : Bytes) : scan true (double s) = some true := by
  induction s with
  | nil => rfl
  | cons b bs ih =>
      by_cases hb : b = quote
      · subst hb
        simpa [scan] using ih
      · simpa [scan, hb] using ih

/-- Outside literals, a text without quotes leaves the scan outside. -/
theorem scan_false_of_quote_not_mem {s : Bytes} (h : quote ∉ s) :
    scan false s = some false ∨ scan false s = none := by
  induction s with
  | nil => exact Or.inl rfl
  | cons b bs ih =>
      simp only [List.mem_cons, not_or] at h
      simp only [scan, Ne.symm h.1, if_false]
      split
      · exact Or.inr rfl
      · exact ih h.2

/-- Read a literal whose opening quote has just been read: its value, and the
text after its closing quote. -/
def readLiteral : Bytes → Option (Bytes × Bytes)
  | [] => none
  | b :: bs =>
      if b = quote then
        match bs with
        | [] => some ([], [])
        | c :: cs =>
            if c = quote then (readLiteral cs).map fun r => (quote :: r.1, r.2)
            else some ([], c :: cs)
      else (readLiteral bs).map fun r => (b :: r.1, r.2)

theorem readLiteral_cons_of_ne {b : UInt8} (hb : b ≠ quote) (s : Bytes) :
    readLiteral (b :: s) = (readLiteral s).map fun r => (b :: r.1, r.2) := by
  cases s <;> simp [readLiteral, hb]

theorem readLiteral_double (s : Bytes) {rest : Bytes} (hrest : ∀ b ∈ rest.head?, b ≠ quote) :
    readLiteral (double s ++ quote :: rest) = some (s, rest) := by
  induction s with
  | nil =>
      cases rest with
      | nil => simp [readLiteral]
      | cons c cs =>
          have hc : c ≠ quote := hrest c (by simp)
          simp [readLiteral, hc]
  | cons b bs ih =>
      by_cases hb : b = quote
      · subst hb
        simp [readLiteral, ih]
      · rw [double_cons_of_ne hb, List.cons_append, readLiteral_cons_of_ne hb, ih]
        rfl

end AppChat.Foundation.SqlText
