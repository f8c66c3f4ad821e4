/-
  `Protocol.DateTime`: date and time of a message, from `protocol/datetime.h` and
  `protocol/datetime.cpp`.

  The six fields are bytes, and `year` counts from 2000.  A `ptime` of the time
  library is an instant, here the number of seconds since the start of the year 0.
-/
import AppChat.Foundation.Calendar

set_option autoImplicit false

namespace AppChat.Protocol

open Foundation Foundation.Calendar

/-! ## Instants -/

/-- A `boost::posix_time::ptime` of whole seconds. -/
structure Ptime where
  ticks : Int
  deriving DecidableEq, Repr

namespace Ptime

/-- The constructor from a date and a time of day. -/
def ofDate (date : Date) (timeOfDay : Nat) : Ptime := ⟨date.dayNumber * 86400 + timeOfDay⟩

/-- The day of a point of time. -/
def date (pt : Ptime) : Date := Date.ofDayNumber (pt.ticks / 86400)

/-- The seconds since midnight. -/
def timeOfDay (pt : Ptime) : Nat := (pt.ticks % 86400).toNat

/-- `pt + seconds(offset)`. -/
def addSeconds (pt : Ptime) (offset : Int) : Ptime := ⟨pt.ticks + offset⟩

theorem timeOfDay_lt (pt : Ptime) : pt.timeOfDay < 86400 := by
  unfold timeOfDay
  omega

theorem ofDate_date_timeOfDay (pt : Ptime) : ofDate pt.date pt.timeOfDay = pt := by
  obtain ⟨ticks⟩ := pt
  simp only [ofDate, date, timeOfDay, Date.dayNumber_ofDayNumber, mk.injEq]
  omega

@[simp] theorem addSeconds_neg (pt : Ptime) (offset : Int) :
    (pt.addSeconds offset).addSeconds (-offset) = pt := by
  simp [addSeconds]

section OfDate

variable {d : Date} {timeOfDay : Nat}

theorem date_ofDate (hd : d.Valid) (h : timeOfDay < 86400) : (ofDate d timeOfDay).date = d := by
  have hday : (ofDate d timeOfDay).ticks / 86400 = d.dayNumber := by
    simp only [ofDate]
    omega
  rw [date, hday, Date.ofDayNumber_dayNumber hd]

theorem timeOfDay_ofDate (h : timeOfDay < 86400) : (ofDate d timeOfDay).timeOfDay = timeOfDay := by
  simp only [Ptime.timeOfDay, ofDate]
  omega

end OfDate

/-- The year of an instant, by the instants at which years start. -/
theorem year_mem_iff (pt : Ptime) (first last : Int) :
    (first ≤ pt.date.year ∧ pt.date.year < last) ↔
      daysBeforeYear first * 86400 ≤ pt.ticks ∧ pt.ticks < daysBeforeYear last * 86400 := by
  obtain ⟨hlow, hhigh⟩ := yearOf_spec (pt.ticks / 86400)
  have hyear : pt.date.year = yearOf (pt.ticks / 86400) := rfl
  rw [hyear]
  generalize yearOf (pt.ticks / 86400) = year at hlow hhigh
  constructor
  · rintro ⟨hfirst, hlast⟩
    have hstart := daysBeforeYear_le hfirst
    have hend := daysBeforeYear_le (Int.add_one_le_of_lt hlast)
    omega
  · rintro ⟨hfirst, hlast⟩
    constructor
    · by_contra hlt
      have hend := daysBeforeYear_le (Int.add_one_le_of_lt (not_le.mp hlt))
      omega
    · by_contra hge
      have hstart := daysBeforeYear_le (not_lt.mp hge)
      omega

end Ptime

/-! ## The structure `DateTime` -/

/-- The class `DateTime`: six fields of one byte, the year counted from 2000. -/
structure DateTime where
  hours : UInt8 := 0
  minutes : UInt8 := 0
  seconds : UInt8 := 0
  day : UInt8 := 0
  month : UInt8 := 0
  year : UInt8 := 0
  deriving DecidableEq, Repr

namespace DateTime

/-- The constructor from a `ptime`. -/
def ofPtime (pt : Ptime) : DateTime where
  hours := UInt8.ofNat (pt.timeOfDay / 3600)
  minutes := UInt8.ofNat (pt.timeOfDay / 60 % 60)
  seconds := UInt8.ofNat (pt.timeOfDay % 60)
  day := UInt8.ofNat pt.date.day
  month := UInt8.ofNat pt.date.month
  year := UInt8.ofInt (pt.date.year - 2000)

/-- The date of the fields. -/
def date (dt : DateTime) : Date where
  year := dt.year.toNat + 2000
  month := dt.month.toNat
  day := dt.day.toNat

/-- The time of day of the fields. -/
def timeOfDay (dt : DateTime) : Nat :=
  dt.hours.toNat * 3600 + dt.minutes.toNat * 60 + dt.seconds.toNat

/-- `DateTime::from_universal_to_local` in the zone with the offset `offset`, in
seconds; `none` when the constructor of the date throws. -/
def fromUniversalToLocal (offset : Int) (dt : DateTime) : Option DateTime :=
  if dt.date.Valid then
    some (ofPtime ((Ptime.ofDate dt.date dt.timeOfDay).addSeconds offset))
  else none

/-- `operator==`. -/
def equal (lhs rhs : DateTime) : Bool :=
  lhs.hours == rhs.hours && lhs.minutes == rhs.minutes && lhs.seconds == rhs.seconds &&
    lhs.day == rhs.day && lhs.month == rhs.month && lhs.year == rhs.year

/-- `operator<`. -/
def less (lhs rhs : DateTime) : Bool :=
  lhs.year < rhs.year || lhs.month < rhs.month || lhs.day < rhs.day ||
    lhs.hours < rhs.hours || lhs.minutes < rhs.minutes || lhs.seconds < rhs.seconds

/-! ## Zone conversion -/

/-- The fields are a date and a time of day. -/
structure Valid (dt : DateTime) : Prop where
  date : dt.date.Valid
  hours_lt : dt.hours.toNat < 24
  minutes_lt : dt.minutes.toNat < 60
  seconds_lt : dt.seconds.toNat < 60

/-- The instant of the fields. -/
def instant (dt : DateTime) : Ptime := Ptime.ofDate dt.date dt.timeOfDay

theorem Valid.timeOfDay_lt {dt : DateTime} (h : dt.Valid) : dt.timeOfDay < 86400 := by
  have hhours := h.hours_lt
  have hminutes := h.minutes_lt
  have hseconds := h.seconds_lt
  unfold timeOfDay
  omega

/-- The years that fit into the field. -/
def InYears (pt : Ptime) : Prop :=
  daysBeforeYear 2000 * 86400 ≤ pt.ticks ∧ pt.ticks < daysBeforeYear 2256 * 86400

instance (pt : Ptime) : Decidable (InYears pt) := inferInstanceAs (Decidable (_ ∧ _))

theorem inYears_iff {pt : Ptime} :
    InYears pt ↔ 2000 ≤ pt.date.year ∧ pt.date.year < 2256 :=
  (pt.year_mem_iff 2000 2256).symm

/-- The fields of a valid date time are years 2000 to 2255. -/
theorem Valid.inYears {dt : DateTime} (h : dt.Valid) : InYears dt.instant := by
  have hyear := dt.year.toNat_lt
  rw [inYears_iff, instant, Ptime.date_ofDate h.date h.timeOfDay_lt]
  simp only [DateTime.date]
  omega

/-- A `ptime` of these years is read field by field. -/
theorem date_ofPtime {pt : Ptime} (h : InYears pt) : (ofPtime pt).date = pt.date := by
  obtain ⟨hlow, hhigh⟩ := inYears_iff.mp h
  have hvalid : pt.date.Valid := Date.valid_ofDayNumber _
  have hday : pt.date.day < 256 :=
    (hvalid.day_le.trans (daysInMonth_le _ _)).trans_lt (by omega)
  have hmonth : pt.date.month < 256 := hvalid.month_le.trans_lt (by omega)
  have hyear : ((UInt8.ofInt (pt.date.year - 2000)).toNat : Int) + 2000 = pt.date.year := by
    rw [UInt8.ofInt, UInt8.toNat_ofNat']
    omega
  simp only [ofPtime, DateTime.date, UInt8.toNat_ofNat', hyear]
  rw [Nat.mod_eq_of_lt hday, Nat.mod_eq_of_lt hmonth]

theorem timeOfDay_ofPtime (pt : Ptime) :
    (ofPtime pt).timeOfDay = pt.timeOfDay ∧ (ofPtime pt).hours.toNat < 24 ∧
      (ofPtime pt).minutes.toNat < 60 ∧ (ofPtime pt).seconds.toNat < 60 := by
  have hlt := pt.timeOfDay_lt
  simp only [ofPtime, DateTime.timeOfDay, UInt8.toNat_ofNat']
  omega

/-- The fields read back from an instant of these years denote it. -/
theorem valid_ofPtime {pt : Ptime} (h : InYears pt) :
    (ofPtime pt).Valid ∧ (ofPtime pt).instant = pt := by
  obtain ⟨htime, hhours, hminutes, hseconds⟩ := timeOfDay_ofPtime pt
  have hdate := date_ofPtime h
  refine ⟨⟨?_, hhours, hminutes, hseconds⟩, ?_⟩
  · rw [hdate]
    exact Date.valid_ofDayNumber _
  · rw [instant, hdate, htime, Ptime.ofDate_date_timeOfDay]

/-- A valid date time is what is read back from its instant. -/
theorem Valid.ofPtime_instant {dt : DateTime} (h : dt.Valid) : ofPtime dt.instant = dt := by
  have hdate : dt.instant.date = dt.date := Ptime.date_ofDate h.date h.timeOfDay_lt
  have htime : dt.instant.timeOfDay = dt.timeOfDay := Ptime.timeOfDay_ofDate h.timeOfDay_lt
  have hhours := h.hours_lt
  have hminutes := h.minutes_lt
  have hseconds := h.seconds_lt
  have hyear := dt.year.toNat_lt
  obtain ⟨hours, minutes, seconds, day, month, year⟩ := dt
  simp only [ofPtime, hdate, htime, mk.injEq, ← UInt8.toNat_inj, UInt8.toNat_ofNat',
    UInt8.ofInt]
  simp only [DateTime.timeOfDay, DateTime.date] at *
  have hday := day.toNat_lt
  have hmonth := month.toNat_lt
  omega

/-- The fields are a date and a time, and denote the instant `pt`. -/
def Denotes (dt : DateTime) (pt : Ptime) : Prop := dt.Valid ∧ dt.instant = pt

/-- The fields from the year down to the seconds. -/
def fields (dt : DateTime) : List Nat :=
  [dt.year.toNat, dt.month.toNat, dt.day.toNat, dt.hours.toNat, dt.minutes.toNat,
    dt.seconds.toNat]

/-- Some element of `xs` is smaller than the one of `ys` at its place. -/
def SomeLess (xs ys : List Nat) : Prop := ∃ p ∈ xs.zip ys, p.1 < p.2

section Lists

variable {xs ys : List Nat}

@[simp] theorem someLess_cons {x y : Nat} :
    SomeLess (x :: xs) (y :: ys) ↔ x < y ∨ SomeLess xs ys := by
  simp [SomeLess]

/-- Where no element is smaller, every element is at least as large. -/
theorem forall₂_le_of_not_someLess (hlength : xs.length = ys.length) (h : ¬ SomeLess xs ys) :
    List.Forall₂ (· ≤ ·) ys xs := by
  induction xs generalizing ys with
  | nil =>
      rw [List.eq_nil_of_length_eq_zero hlength.symm]
      exact .nil
  | cons x xs ih =>
      cases ys with
      | nil => cases hlength
      | cons y ys =>
          rw [someLess_cons, not_or] at h
          exact .cons (not_lt.mp h.1) (ih (Nat.succ.inj hlength) h.2)

theorem not_someLess_of_forall₂_le (h : List.Forall₂ (· ≤ ·) ys xs) : ¬ SomeLess xs ys := by
  induction h with
  | nil => simp [SomeLess]
  | cons hle _ ih =>
      rw [someLess_cons, not_or]
      exact ⟨not_lt.mpr hle, ih⟩

/-- Where every element is at most as large, a smaller element decides the
lexicographic order. -/
theorem someLess_iff_lt_of_forall₂_le (h : List.Forall₂ (· ≤ ·) xs ys) :
    SomeLess xs ys ↔ xs < ys := by
  induction h with
  | nil => simp [SomeLess]
  | cons hle _ ih =>
      rw [someLess_cons, List.cons_lt_cons_iff, ih]
      constructor
      · rintro (hlt | hrest)
        · exact Or.inl hlt
        · exact hle.lt_or_eq.imp_right fun heq => ⟨heq, hrest⟩
      · rintro (hlt | ⟨-, hrest⟩)
        · exact Or.inl hlt
        · exact Or.inr hrest

/-- The lexicographic order follows the order of the elements. -/
theorem not_lt_of_forall₂_le (h : List.Forall₂ (· ≤ ·) xs ys) : ¬ ys < xs := by
  induction h with
  | nil => simp
  | cons hle _ ih =>
      rw [List.cons_lt_cons_iff]
      rintro (hlt | ⟨-, hrest⟩)
      · exact absurd hlt (not_lt.mpr hle)
      · exact ih hrest

end Lists

variable {a b c : DateTime}

theorem less_iff : a.less b = true ↔ SomeLess a.fields b.fields := by
  simp [less, fields, SomeLess, UInt8.lt_iff_toNat_lt, or_assoc]

theorem equal_iff : a.equal b = true ↔ a.fields = b.fields := by
  simp only [equal, fields, Bool.and_eq_true, beq_iff_eq, ← UInt8.toNat_inj, List.cons.injEq,
    and_true]
  tauto

/-- `a` is earlier than `b`: the year, month, day, hours, minutes and seconds of `a`
are lexicographically smaller. -/
def Earlier (a b : DateTime) : Prop := a.fields < b.fields

/-- No field of `a` is greater than that of `b`, or no field of `b` is greater than
that of `a`. -/
def Comparable (a b : DateTime) : Prop :=
  List.Forall₂ (· ≤ ·) a.fields b.fields ∨ List.Forall₂ (· ≤ ·) b.fields a.fields

instance (a b : DateTime) : Decidable (Comparable a b) :=
  inferInstanceAs (Decidable (_ ∨ _))

/-- What the order of two values should be: that of time, irreflexive and asymmetric,
and exactly one of `a < b`, `a == b` and `b < a`. -/
structure Ordered (a b : DateTime) : Prop where
  less_iff_earlier : a.less b = true ↔ Earlier a b
  irrefl : a.less a = false
  asymm : a.less b = true → b.less a = false
  trichotomy : (a.less b = true ∧ a.equal b = false ∧ b.less a = false) ∨
    (a.less b = false ∧ a.equal b = true ∧ b.less a = false) ∨
    (a.less b = false ∧ a.equal b = false ∧ b.less a = true)

theorem Comparable.symm (h : Comparable a b) : Comparable b a := Or.symm h

theorem length_fields : a.fields.length = b.fields.length := rfl

/-- Two values one of which has some smaller and some larger field are each less than
the other. -/
theorem comparable_of_asymm (h : a.less b = true → b.less a = false) : Comparable a b := by
  by_cases hless : SomeLess a.fields b.fields
  · have hback := h (less_iff.mpr hless)
    refine Or.inl (forall₂_le_of_not_someLess length_fields ?_)
    intro hsome
    rw [less_iff.mpr hsome] at hback
    cases hback
  · exact Or.inr (forall₂_le_of_not_someLess length_fields hless)

theorem less_iff_earlier_of_comparable (h : Comparable a b) : a.less b = true ↔ Earlier a b := by
  rw [less_iff, Earlier]
  rcases h with hle | hge
  · exact someLess_iff_lt_of_forall₂_le hle
  · exact iff_of_false (not_someLess_of_forall₂_le hge) (not_lt_of_forall₂_le hge)

theorem Earlier.trans (hab : Earlier a b) (hbc : Earlier b c) : Earlier a c := by
  unfold Earlier at *
  exact lt_trans hab hbc

theorem ordered_of_comparable (h : Comparable a b) : Ordered a b := by
  have hab := less_iff_earlier_of_comparable h
  have hba := less_iff_earlier_of_comparable h.symm
  have hirrefl : a.less a = false := by
    rw [← Bool.not_eq_true, less_iff]
    exact not_someLess_of_forall₂_le (List.forall₂_refl _)
  refine ⟨hab, hirrefl, ?_, ?_⟩
  · intro hless
    rw [← Bool.not_eq_true, hba]
    exact lt_asymm (hab.mp hless)
  · simp only [← Bool.not_eq_true, hab, hba, equal_iff, Earlier]
    rcases lt_trichotomy a.fields b.fields with hlt | heq | hgt
    · exact Or.inl ⟨hlt, ne_of_lt hlt, lt_asymm hlt⟩
    · exact Or.inr (Or.inl ⟨by rw [heq]; exact lt_irrefl _, heq, by rw [heq]; exact lt_irrefl _⟩)
    · exact Or.inr (Or.inr ⟨lt_asymm hgt, ne_of_gt hgt, hgt⟩)

/-- **The order of three values is that of time** if and only if they are comparable
field by field. -/
theorem ordered_iff_comparable (a b c : DateTime) :
    (Ordered a b ∧ Ordered b c ∧ Ordered a c ∧
        (a.less b = true → b.less c = true → a.less c = true)) ↔
      Comparable a b ∧ Comparable b c ∧ Comparable a c := by
  constructor
  · rintro ⟨hab, hbc, hac, -⟩
    exact ⟨comparable_of_asymm hab.asymm, comparable_of_asymm hbc.asymm,
      comparable_of_asymm hac.asymm⟩
  · rintro ⟨hab, hbc, hac⟩
    refine ⟨ordered_of_comparable hab, ordered_of_comparable hbc, ordered_of_comparable hac, ?_⟩
    rw [less_iff_earlier_of_comparable hab, less_iff_earlier_of_comparable hbc,
      less_iff_earlier_of_comparable hac]
    exact Earlier.trans

/-- The first of February 2020 and the second of January 2021 are each less than the
other. -/
theorem not_less_iff_earlier_year :
    ¬ ∀ a b : DateTime, (a.less b = true ↔ Earlier a b) := by
  intro h
  have hless : (⟨0, 0, 0, 2, 1, 21⟩ : DateTime).less ⟨0, 0, 0, 1, 2, 20⟩ = true := by decide
  exact absurd ((h _ _).mp hless) (by unfold Earlier; decide)

end DateTime

end AppChat.Protocol
