import Mathlib.Order.Monotone.Basic
import Mathlib.Tactic.Common
import Mathlib.Tactic.IntervalCases

/-!
# The Gregorian calendar

Dates of the proleptic Gregorian calendar and the number of days before each, counted month by month and year by
year.  Every number is the number of one date, and days of the week follow one another.
-/

namespace Calendar

/-! ### Years and months -/

def IsLeap (year : Nat) : Prop := year % 4 = 0 ∧ year % 100 ≠ 0 ∨ year % 400 = 0

instance (year : Nat) : Decidable (IsLeap year) := inferInstanceAs (Decidable (_ ∨ _))

def yearLength (year : Nat) : Nat := if IsLeap year then 366 else 365

def monthLength (year : Nat) : Nat → Nat
  | 2 => if IsLeap year then 29 else 28
  | 4 | 6 | 9 | 11 => 30
  | 1 | 3 | 5 | 7 | 8 | 10 | 12 => 31
  | _ => 0

def daysBeforeYear : Nat → Nat
  | 0 => 0
  | year + 1 => daysBeforeYear year + yearLength year

def daysBeforeMonth (year : Nat) : Nat → Nat
  | 0 => 0
  | month + 1 => daysBeforeMonth year month + monthLength year month

theorem leap_cases (year : Nat) :
    (yearLength year = 366 ∧ monthLength year 2 = 29 ∧ IsLeap year) ∨
      (yearLength year = 365 ∧ monthLength year 2 = 28 ∧ ¬ IsLeap year) := by
  unfold yearLength monthLength
  by_cases h : IsLeap year
  · rw [if_pos h, if_pos h]
    exact .inl ⟨rfl, rfl, h⟩
  · rw [if_neg h, if_neg h]
    exact .inr ⟨rfl, rfl, h⟩

theorem daysBeforeYear_eq (year : Nat) :
    daysBeforeYear year = 365 * year + (year + 3) / 4 - (year + 99) / 100 + (year + 399) / 400 := by
  induction year with
  | zero => rfl
  | succ year ih =>
    rw [daysBeforeYear, ih]
    rcases leap_cases year with ⟨hlength, -, hleap⟩ | ⟨hlength, -, hleap⟩
    · unfold IsLeap at hleap
      omega
    · unfold IsLeap at hleap
      omega

theorem daysBeforeYear_mono : Monotone daysBeforeYear :=
  monotone_nat_of_le_succ fun _ => Nat.le_add_right _ _

theorem daysBeforeMonth_mono (year : Nat) : Monotone (daysBeforeMonth year) :=
  monotone_nat_of_le_succ fun _ => Nat.le_add_right _ _

theorem monthLength_le (year month : Nat) : monthLength year month ≤ 31 := by
  unfold monthLength
  split
  · split
    · decide
    · decide
  all_goals decide

theorem daysBeforeMonth_year (year : Nat) : daysBeforeMonth year 13 = yearLength year := by
  rcases leap_cases year with ⟨hlength, -, hleap⟩ | ⟨hlength, -, hleap⟩
  · simp only [daysBeforeMonth, hlength, monthLength, if_pos hleap]
  · simp only [daysBeforeMonth, hlength, monthLength, if_neg hleap]

/-! ### Dates -/

@[ext] structure Date where
  year : Nat
  month : Nat
  day : Nat
  month_pos : 1 ≤ month
  month_le : month ≤ 12
  day_pos : 1 ≤ day
  day_le : day ≤ monthLength year month

namespace Date

def dayNumber (d : Date) : Nat := daysBeforeYear d.year + daysBeforeMonth d.year d.month + (d.day - 1)

/-- The day of the week, Sunday being 0: the first day of year 0 is a Saturday, and 1 January 1980 a Tuesday. -/
def weekday (d : Date) : Nat := (d.dayNumber + 6) % 7

theorem dayNumber_year (d : Date) :
    daysBeforeYear d.year ≤ d.dayNumber ∧ d.dayNumber < daysBeforeYear (d.year + 1) := by
  have hmonth : daysBeforeMonth d.year (d.month + 1) ≤ daysBeforeMonth d.year 13 :=
    daysBeforeMonth_mono d.year (Nat.succ_le_succ d.month_le)
  rw [daysBeforeMonth_year, daysBeforeMonth] at hmonth
  have hday := d.day_le
  have hpos := d.day_pos
  unfold dayNumber
  rw [daysBeforeYear]
  omega

theorem year_of_dayNumber {d : Date} {first last : Nat} (hfirst : daysBeforeYear first ≤ d.dayNumber)
    (hlast : d.dayNumber < daysBeforeYear last) : first ≤ d.year ∧ d.year < last := by
  obtain ⟨hlow, hhigh⟩ := d.dayNumber_year
  constructor
  · by_contra hlt
    have hle : daysBeforeYear (d.year + 1) ≤ daysBeforeYear first := daysBeforeYear_mono (Nat.lt_of_not_le hlt)
    omega
  · by_contra hge
    have hle : daysBeforeYear last ≤ daysBeforeYear d.year := daysBeforeYear_mono (Nat.le_of_not_lt hge)
    omega

theorem monthLength_pos (year : Nat) {month : Nat} (hpos : 1 ≤ month) (hle : month ≤ 12) : 1 ≤ monthLength year month := by
  by_cases hfebruary : month = 2
  · rw [hfebruary]
    rcases leap_cases year with ⟨-, hlength, -⟩ | ⟨-, hlength, -⟩
    · rw [hlength]
      decide
    · rw [hlength]
      decide
  · interval_cases month
    all_goals first | exact absurd rfl hfebruary | exact Nat.le_add_left 1 _

def tomorrow (d : Date) : Date :=
  if hday : d.day < monthLength d.year d.month then
    { d with day := d.day + 1, day_pos := Nat.le_add_left .., day_le := hday }
  else if hmonth : d.month < 12 then
    { year := d.year, month := d.month + 1, day := 1, month_pos := Nat.le_add_left .., month_le := hmonth,
      day_pos := Nat.le_refl 1, day_le := monthLength_pos _ (Nat.le_add_left ..) hmonth }
  else
    { year := d.year + 1, month := 1, day := 1, month_pos := Nat.le_refl 1, month_le := by decide,
      day_pos := Nat.le_refl 1, day_le := Nat.le_add_left 1 30 }

theorem dayNumber_tomorrow (d : Date) : d.tomorrow.dayNumber = d.dayNumber + 1 := by
  have hpos := d.day_pos
  have hle := d.day_le
  unfold tomorrow
  split
  · unfold dayNumber
    simp only
    omega
  split
  · unfold dayNumber
    simp only [daysBeforeMonth]
    omega
  · have hmonth : d.month = 12 := Nat.le_antisymm d.month_le (Nat.le_of_not_lt ‹_›)
    have hyear := daysBeforeMonth_year d.year
    rw [daysBeforeMonth, ← hmonth] at hyear
    unfold dayNumber
    simp only [daysBeforeYear, daysBeforeMonth, monthLength]
    omega

def first : Date :=
  { year := 0, month := 1, day := 1, month_pos := Nat.le_refl 1, month_le := by decide, day_pos := Nat.le_refl 1,
    day_le := by decide }

theorem exists_dayNumber (n : Nat) : ∃ d : Date, d.dayNumber = n := by
  induction n with
  | zero => exact ⟨first, rfl⟩
  | succ n ih =>
    obtain ⟨d, hd⟩ := ih
    exact ⟨d.tomorrow, by rw [dayNumber_tomorrow, hd]⟩

theorem weekday_lt (d : Date) : d.weekday < 7 := Nat.mod_lt _ (by decide)

/-! ### Years that begin in March -/

def marchYear (d : Date) : Nat := if d.month ≤ 2 then d.year - 1 else d.year

def marchMonth (d : Date) : Nat := if d.month ≤ 2 then d.month + 9 else d.month - 3

def marchDay (d : Date) : Nat := (153 * d.marchMonth + 2) / 5 + d.day - 1

theorem dayNumber_march (d : Date) (hyear : 1 ≤ d.year) :
    d.dayNumber + 306 = daysBeforeYear (d.marchYear + 1) + d.marchDay := by
  obtain ⟨year, month, day, hmonth, hmonth', hday, hday'⟩ := d
  obtain ⟨year, rfl⟩ : ∃ n, year = n + 1 := ⟨year - 1, (Nat.succ_pred_eq_of_pos hyear).symm⟩
  unfold dayNumber marchDay marchMonth marchYear
  simp only
  by_cases hwinter : month ≤ 2
  · rw [if_pos hwinter, if_pos hwinter, Nat.add_sub_cancel]
    interval_cases month
    · simp only [daysBeforeMonth, monthLength]
      omega
    · simp only [daysBeforeMonth, monthLength]
      omega
  · rw [if_neg hwinter, if_neg hwinter]
    have hnext : daysBeforeYear (year + 1 + 1) = daysBeforeYear (year + 1) + yearLength (year + 1) := rfl
    obtain ⟨k, hk, rfl⟩ : ∃ k ≤ 9, month = k + 3 := ⟨month - 3, by omega, by omega⟩
    have hbefore : daysBeforeMonth (year + 1) (k + 3) + 306 = yearLength (year + 1) + (153 * k + 2) / 5 := by
      rcases leap_cases (year + 1) with ⟨hlength, -, hleap⟩ | ⟨hlength, -, hleap⟩
      · rw [hlength]
        interval_cases k
        all_goals simp only [daysBeforeMonth, monthLength, if_pos hleap]
      · rw [hlength]
        interval_cases k
        all_goals simp only [daysBeforeMonth, monthLength, if_neg hleap]
    omega

theorem marchDay_le (d : Date) (hyear : 1 ≤ d.year) :
    d.marchDay ≤ 365 ∧ (d.marchDay = 365 → IsLeap (d.marchYear + 1)) := by
  obtain ⟨year, month, day, hmonth, hmonth', hday, hday'⟩ := d
  unfold marchDay marchMonth marchYear
  simp only at hday' hyear ⊢
  by_cases hfebruary : month = 2
  · subst hfebruary
    have hsame : year - 1 + 1 = year := Nat.sub_add_cancel hyear
    rw [if_pos (Nat.le_refl 2), if_pos (Nat.le_refl 2), hsame]
    rcases leap_cases year with ⟨-, hlength, hleap⟩ | ⟨-, hlength, hleap⟩
    · rw [hlength] at hday'
      exact ⟨by omega, fun _ => hleap⟩
    · rw [hlength] at hday'
      exact ⟨by omega, fun hlast => absurd hlast (by omega)⟩
  · have hshort : (153 * (if month ≤ 2 then month + 9 else month - 3) + 2) / 5 + day - 1 < 365 := by
      have hlength := monthLength_le year month
      by_cases hjanuary : month ≤ 2
      · rw [if_pos hjanuary]
        omega
      · rw [if_neg hjanuary]
        omega
    exact ⟨Nat.le_of_lt hshort, fun hlast => absurd hlast (Nat.ne_of_lt hshort)⟩

theorem marchMonth_eq (d : Date) :
    (5 * d.marchDay + 2) / 153 = d.marchMonth ∧ d.marchDay + 1 - (153 * d.marchMonth + 2) / 5 = d.day := by
  obtain ⟨year, month, day, hmonth, hmonth', hday, hday'⟩ := d
  unfold marchDay marchMonth
  simp only at hday' ⊢
  refine ⟨?_, by omega⟩
  by_cases hfebruary : month = 2
  · subst hfebruary
    rw [if_pos (Nat.le_refl 2)]
    rcases leap_cases year with ⟨-, hlength, -⟩ | ⟨-, hlength, -⟩
    · rw [hlength] at hday'
      omega
    · rw [hlength] at hday'
      omega
  · interval_cases month
    all_goals first
      | exact absurd rfl hfebruary
      | (simp only [monthLength] at hday'
         simp only [Nat.reduceLeDiff, if_true, if_false]
         omega)

end Date

end Calendar
