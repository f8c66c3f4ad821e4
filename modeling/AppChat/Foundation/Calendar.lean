/-
  `Foundation.Calendar`: the proleptic Gregorian calendar as a numbering of days.

  Every date has a day number, counted from the first of January of the year 0, and
  every integer is the number of exactly one valid date.

  Nothing in this file mentions the chat server.
-/
import Mathlib

set_option autoImplicit false

namespace AppChat.Foundation

/-! ## Years -/

namespace Calendar

/-- Every fourth year is a leap year, but of the hundreds only every fourth. -/
def IsLeap (year : Int) : Prop := year % 4 = 0 ∧ (year % 100 ≠ 0 ∨ year % 400 = 0)

instance (year : Int) : Decidable (IsLeap year) :=
  inferInstanceAs (Decidable (_ ∧ _))

/-- The number of days of a year. -/
def daysInYear (year : Int) : Int := if IsLeap year then 366 else 365

/-- The number of the first of January of a year. -/
def daysBeforeYear (year : Int) : Int :=
  365 * year + (year + 3) / 4 - (year + 99) / 100 + (year + 399) / 400

theorem daysBeforeYear_succ (year : Int) :
    daysBeforeYear (year + 1) = daysBeforeYear year + daysInYear year := by
  unfold daysInYear
  split
  · rename_i hleap
    unfold IsLeap at hleap
    unfold daysBeforeYear
    omega
  · rename_i hcommon
    unfold IsLeap at hcommon
    unfold daysBeforeYear
    omega

/-- Years do not overlap. -/
theorem daysBeforeYear_mono {y z : Int} (h : y < z) :
    daysBeforeYear y + daysInYear y ≤ daysBeforeYear z := by
  have hnext := daysBeforeYear_succ y
  unfold daysBeforeYear at *
  omega

theorem daysBeforeYear_le {y z : Int} (h : y ≤ z) : daysBeforeYear y ≤ daysBeforeYear z := by
  unfold daysBeforeYear
  omega

/-- The year of a day: the mean length of a year gives it up to one. -/
def yearOf (n : Int) : Int :=
  let guess := 400 * n / 146097
  if n < daysBeforeYear guess then guess - 1
  else if daysBeforeYear (guess + 1) ≤ n then guess + 1
  else guess

theorem yearOf_spec (n : Int) :
    daysBeforeYear (yearOf n) ≤ n ∧ n < daysBeforeYear (yearOf n + 1) := by
  unfold yearOf
  dsimp only
  -- the guess is off by one year at most
  have hbelow : daysBeforeYear (400 * n / 146097 - 1) ≤ n := by
    unfold daysBeforeYear
    omega
  have habove : n < daysBeforeYear (400 * n / 146097 + 1 + 1) := by
    unfold daysBeforeYear
    omega
  split
  · rename_i hlt
    rw [sub_add_cancel]
    exact ⟨hbelow, hlt⟩
  · split
    · rename_i hle
      exact ⟨hle, habove⟩
    · rename_i hge hlt
      exact ⟨not_lt.mp hge, not_le.mp hlt⟩

/-! ## Months -/

/-- The number of days of a month; no day when there is no such month. -/
def daysInMonth (year : Int) : Nat → Nat
  | 1 | 3 | 5 | 7 | 8 | 10 | 12 => 31
  | 4 | 6 | 9 | 11 => 30
  | 2 => if IsLeap year then 29 else 28
  | _ => 0

theorem daysInMonth_le (year : Int) (month : Nat) : daysInMonth year month ≤ 31 := by
  unfold daysInMonth
  split
  case h_12 => split <;> omega
  all_goals omega

/-- The days of the year before the month. -/
def daysBeforeMonth (year : Int) : Nat → Nat
  | 0 => 0
  | month + 1 => daysBeforeMonth year month + daysInMonth year month

theorem daysBeforeMonth_thirteen (year : Int) :
    (daysBeforeMonth year 13 : Int) = daysInYear year := by
  simp only [daysBeforeMonth, daysInMonth, daysInYear]
  split <;> rfl

/-- Months do not overlap. -/
theorem daysBeforeMonth_mono {year : Int} {m k : Nat} (h : m < k) :
    daysBeforeMonth year m + daysInMonth year m ≤ daysBeforeMonth year k := by
  induction k with
  | zero => omega
  | succ k ih =>
      rcases Nat.lt_succ_iff_lt_or_eq.mp h with hlt | rfl
      · exact (ih hlt).trans (Nat.le_add_right _ _)
      · exact le_rfl

/-- The month and the day of the month, `k` days after the start of `month`, when the
year has at most `fuel` months more. -/
def monthDay (year : Int) : Nat → Nat → Nat → Nat × Nat
  | 0, month, k => (month, k + 1)
  | fuel + 1, month, k =>
      if k < daysInMonth year month then (month, k + 1)
      else monthDay year fuel (month + 1) (k - daysInMonth year month)

theorem monthDay_spec {year : Int} {fuel month k : Nat}
    (h : daysBeforeMonth year month + k < daysBeforeMonth year (month + fuel + 1)) :
    let found := monthDay year fuel month k
    month ≤ found.1 ∧ found.1 ≤ month + fuel ∧ 1 ≤ found.2 ∧ found.2 ≤ daysInMonth year found.1 ∧
      daysBeforeMonth year found.1 + found.2 = daysBeforeMonth year month + k + 1 := by
  induction fuel generalizing month k with
  | zero =>
      simp only [daysBeforeMonth, monthDay, Nat.add_zero] at h ⊢
      omega
  | succ fuel ih =>
      unfold monthDay
      split
      · rename_i hlt
        simp only
        omega
      · rename_i hge
        have hnext : daysBeforeMonth year (month + 1) =
            daysBeforeMonth year month + daysInMonth year month := rfl
        have hindex : month + 1 + fuel + 1 = month + (fuel + 1) + 1 := by omega
        obtain ⟨hlow, hhigh, hpos, hle, hsum⟩ :=
          @ih (month + 1) (k - daysInMonth year month) (by rw [hindex]; omega)
        simp only
        omega

/-! ## Dates -/

/-- A date of the calendar. -/
structure Date where
  year : Int
  month : Nat
  day : Nat
  deriving DecidableEq, Repr

namespace Date

/-- The date is in the calendar. -/
structure Valid (d : Date) : Prop where
  one_le_month : 1 ≤ d.month
  month_le : d.month ≤ 12
  one_le_day : 1 ≤ d.day
  day_le : d.day ≤ daysInMonth d.year d.month

instance (d : Date) : Decidable d.Valid :=
  decidable_of_iff (1 ≤ d.month ∧ d.month ≤ 12 ∧ 1 ≤ d.day ∧ d.day ≤ daysInMonth d.year d.month)
    ⟨fun ⟨h₁, h₂, h₃, h₄⟩ => ⟨h₁, h₂, h₃, h₄⟩, fun ⟨h₁, h₂, h₃, h₄⟩ => ⟨h₁, h₂, h₃, h₄⟩⟩

/-- The number of a date. -/
def dayNumber (d : Date) : Int :=
  daysBeforeYear d.year + daysBeforeMonth d.year d.month + d.day - 1

/-- The date of a number. -/
def ofDayNumber (n : Int) : Date :=
  let year := yearOf n
  let found := monthDay year 11 1 (n - daysBeforeYear year).toNat
  ⟨year, found.1, found.2⟩

/-- A valid date lies in its year. -/
theorem Valid.dayNumber_mem {d : Date} (h : d.Valid) :
    daysBeforeYear d.year ≤ d.dayNumber ∧ d.dayNumber < daysBeforeYear (d.year + 1) := by
  have hmonth : daysBeforeMonth d.year d.month + daysInMonth d.year d.month ≤
      daysBeforeMonth d.year 13 := daysBeforeMonth_mono (Nat.lt_succ_of_le h.month_le)
  have hyear := daysBeforeMonth_thirteen d.year
  have hday := h.day_le
  have hpos := h.one_le_day
  rw [daysBeforeYear_succ]
  unfold dayNumber
  omega

theorem spec_ofDayNumber (n : Int) :
    (ofDayNumber n).Valid ∧ (ofDayNumber n).dayNumber = n := by
  obtain ⟨hlow, hhigh⟩ := yearOf_spec n
  have hyear := daysBeforeMonth_thirteen (yearOf n)
  rw [daysBeforeYear_succ] at hhigh
  have hone : daysBeforeMonth (yearOf n) 1 = 0 := rfl
  obtain ⟨hmonth, hmonth', hday, hday', hsum⟩ :=
    @monthDay_spec (yearOf n) 11 1 (n - daysBeforeYear (yearOf n)).toNat (by
      rw [hone]
      have hindex : 1 + 11 + 1 = 13 := rfl
      rw [hindex]
      omega)
  refine ⟨⟨hmonth, hmonth', hday, hday'⟩, ?_⟩
  simp only [dayNumber, ofDayNumber]
  omega

theorem valid_ofDayNumber (n : Int) : (ofDayNumber n).Valid := (spec_ofDayNumber n).1

@[simp] theorem dayNumber_ofDayNumber (n : Int) : (ofDayNumber n).dayNumber = n :=
  (spec_ofDayNumber n).2

/-- A day has one date. -/
theorem Valid.eq_of_dayNumber_eq {d e : Date} (hd : d.Valid) (he : e.Valid)
    (h : d.dayNumber = e.dayNumber) : d = e := by
  obtain ⟨hdlow, hdhigh⟩ := hd.dayNumber_mem
  obtain ⟨helow, hehigh⟩ := he.dayNumber_mem
  rw [daysBeforeYear_succ] at hdhigh hehigh
  have hyear : d.year = e.year := by
    rcases lt_trichotomy d.year e.year with hlt | heq | hgt
    · have hmono := daysBeforeYear_mono hlt
      omega
    · exact heq
    · have hmono := daysBeforeYear_mono hgt
      omega
  obtain ⟨year, dmonth, dday⟩ := d
  obtain ⟨eyear, emonth, eday⟩ := e
  simp only at hyear
  subst hyear
  have hddays := hd.day_le
  have hedays := he.day_le
  have hdpos := hd.one_le_day
  have hepos := he.one_le_day
  simp only [dayNumber] at h hddays hedays hdpos hepos
  have hmonth : dmonth = emonth := by
    rcases lt_trichotomy dmonth emonth with hlt | heq | hgt
    · have hmono := @daysBeforeMonth_mono year _ _ hlt
      omega
    · exact heq
    · have hmono := @daysBeforeMonth_mono year _ _ hgt
      omega
  subst hmonth
  have hday : dday = eday := by omega
  rw [hday]

theorem ofDayNumber_dayNumber {d : Date} (h : d.Valid) : ofDayNumber d.dayNumber = d :=
  (valid_ofDayNumber _).eq_of_dayNumber_eq h (dayNumber_ofDayNumber _)

end Date

end Calendar

end AppChat.Foundation
