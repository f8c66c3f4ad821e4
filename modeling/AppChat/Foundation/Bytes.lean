/-
  `Foundation.Bytes`: byte strings, the C-string view of them, and decimal
  numerals.

  A `std::string` is a list of bytes that may hold any byte, NUL included; a
  `const char*` made from it ends at the first NUL.
-/
import Mathlib

set_option autoImplicit false

namespace AppChat.Foundation

/-- The content of a `std::string`. -/
abbrev Bytes := List UInt8

/-- The bytes of an ASCII text. -/
def ascii (text : String) : Bytes :=
  text.toList.map fun c => c.toNat.toUInt8

/-! ## C strings -/

/-- The bytes a C function reads through `s.c_str()`: everything before the
first NUL. -/
def cString (s : Bytes) : Bytes := s.takeWhile fun b => b ≠ 0

theorem cString_of_not_mem {s : Bytes} (h : 0 ∉ s) : cString s = s := by
  rw [cString, List.takeWhile_eq_self_iff]
  intro b hb
  simpa using fun hzero : b = 0 => h (hzero ▸ hb)

theorem cString_append {s : Bytes} (h : 0 ∉ s) (t : Bytes) :
    cString (s ++ t) = s ++ cString t := by
  refine List.takeWhile_append_of_pos ?_
  intro b hb
  simpa using fun hzero : b = 0 => h (hzero ▸ hb)

theorem zero_not_mem_cString (s : Bytes) : 0 ∉ cString s := by
  intro h
  have := List.mem_takeWhile_imp h
  simp at this

/-! ## Decimal numerals -/

/-- The decimal digits of a natural number, most significant first. -/
def natDecimal (n : Nat) : Bytes :=
  if n = 0 then [48] else (Nat.digits 10 n).reverse.map fun d => UInt8.ofNat (48 + d)

/-- `std::to_string` of an `int`. -/
def decimal : Int → Bytes
  | .ofNat n => natDecimal n
  | .negSucc n => 45 :: natDecimal (n + 1)

/-- The value of a string of decimal digits. -/
def readNatDecimal (s : Bytes) : Nat :=
  Nat.ofDigits 10 (s.reverse.map fun b => b.toNat - 48)

/-- The value of a numeral written by `decimal`. -/
def readDecimal : Bytes → Int
  | [] => 0
  | b :: bs =>
      if b = 45 then -(readNatDecimal bs : Int) else (readNatDecimal (b :: bs) : Int)

theorem readNatDecimal_natDecimal (n : Nat) : readNatDecimal (natDecimal n) = n := by
  by_cases hn : n = 0
  · subst hn
    decide
  · have hdigits : (Nat.digits 10 n).map
        ((fun b : UInt8 => b.toNat - 48) ∘ fun d => UInt8.ofNat (48 + d)) =
        Nat.digits 10 n := by
      refine (List.map_congr_left fun d hd => ?_).trans (List.map_id _)
      have hlt : d < 10 := Nat.digits_lt_base (by decide) hd
      have hmod : (48 + d) % 2 ^ 8 = 48 + d := Nat.mod_eq_of_lt (by omega)
      simp only [Function.comp_apply, UInt8.toNat_ofNat', hmod, id_eq]
      omega
    simp only [readNatDecimal, natDecimal, hn, if_false, List.map_reverse,
      List.reverse_reverse, List.map_map]
    rw [hdigits, Nat.ofDigits_digits]

/-- A numeral is made of digits. -/
theorem natDecimal_digit {n : Nat} {b : UInt8} (h : b ∈ natDecimal n) :
    48 ≤ b.toNat ∧ b.toNat ≤ 57 := by
  unfold natDecimal at h
  split at h
  · simp at h
    subst h
    decide
  · simp only [List.mem_map, List.mem_reverse] at h
    obtain ⟨d, hd, rfl⟩ := h
    have hlt : d < 10 := Nat.digits_lt_base (by decide) hd
    have hmod : (48 + d) % 2 ^ 8 = 48 + d := Nat.mod_eq_of_lt (by omega)
    rw [UInt8.toNat_ofNat', hmod]
    omega

theorem natDecimal_ne_nil (n : Nat) : natDecimal n ≠ [] := by
  unfold natDecimal
  split
  · simp
  · rename_i hn
    simpa using Nat.digits_ne_nil_iff_ne_zero.mpr hn

theorem readDecimal_decimal (n : Int) : readDecimal (decimal n) = n := by
  cases n with
  | ofNat n =>
      show readDecimal (natDecimal n) = n
      cases hs : natDecimal n with
      | nil => exact absurd hs (natDecimal_ne_nil n)
      | cons b bs =>
          have hb : b ≠ 45 := by
            have hmem : b ∈ natDecimal n := by simp [hs]
            have hdigit := natDecimal_digit hmem
            rintro rfl
            simp at hdigit
          rw [readDecimal, if_neg hb, ← hs, readNatDecimal_natDecimal]
  | negSucc n =>
      show readDecimal (45 :: natDecimal (n + 1)) = _
      rw [readDecimal, if_pos rfl, readNatDecimal_natDecimal]
      omega

/-- A decimal numeral holds only digits and a minus sign. -/
theorem decimal_byte {n : Int} {b : UInt8} (h : b ∈ decimal n) :
    b = 45 ∨ (48 ≤ b.toNat ∧ b.toNat ≤ 57) := by
  cases n with
  | ofNat n => exact Or.inr (natDecimal_digit h)
  | negSucc n =>
      rcases List.mem_cons.mp h with rfl | h
      · exact Or.inl rfl
      · exact Or.inr (natDecimal_digit h)

theorem not_mem_decimal {n : Int} {b : UInt8} (hminus : b ≠ 45)
    (hdigit : b.toNat < 48 ∨ 57 < b.toNat) : b ∉ decimal n := by
  intro h
  rcases decimal_byte h with rfl | h
  · exact hminus rfl
  · omega

/-- The numeral of a 32-bit number is short. -/
theorem length_decimal_le {n : Int} (h : -2 ^ 31 ≤ n) (h' : n < 2 ^ 31) : (decimal n).length ≤ 11 := by
  have hnat : ∀ k : Nat, k < 10 ^ 10 → (natDecimal k).length ≤ 10 := by
    intro k hk
    unfold natDecimal
    split
    · exact Nat.le_add_left 1 9
    · rw [List.length_map, List.length_reverse]
      exact (Nat.digits_length_le_iff (by decide) k).mpr hk
  cases n with
  | ofNat k => exact (hnat k (by simp only [Int.ofNat_eq_natCast] at h'; omega)).trans (by decide)
  | negSucc k => exact Nat.succ_le_succ (hnat (k + 1) (by omega))

end AppChat.Foundation
