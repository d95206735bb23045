import Pi1MHz.Calendar
import Pi1MHz.WsDate

/-!
# The web server: timestamps

The words of a directory entry as a date and a time of the calendar.  The day counts of `fat_shift_minutes` are those
of the calendar in both directions, so a shift moves the time by so many minutes where it does not clamp, and the
opposite shift moves it back.
-/

namespace Pi1MHz.Ws

open Calendar

/-! ### Days and dates -/

def EPOCH_DAYS : Int := 719528

theorem marchYear_eq (d : Date) (hyear : 1 ≤ d.year) :
    (d.year : Int) - (if (d.month : Int) ≤ 2 then 1 else 0) = d.marchYear := by
  unfold Date.marchYear
  by_cases hwinter : d.month ≤ 2
  · rw [if_pos hwinter, if_pos (by exact_mod_cast hwinter)]
    omega
  · rw [if_neg hwinter, if_neg (by exact_mod_cast hwinter)]
    omega

theorem marchMonth_shift (d : Date) :
    (d.month : Int) + (if 2 < (d.month : Int) then -3 else 9) = d.marchMonth := by
  unfold Date.marchMonth
  by_cases hwinter : d.month ≤ 2
  · rw [if_pos hwinter, if_neg (by omega)]
    omega
  · rw [if_neg hwinter, if_pos (by omega)]
    omega

theorem marchMonth_back (d : Date) :
    (d.marchMonth : Int) + (if (d.marchMonth : Int) < 10 then 3 else -9) = d.month := by
  have hpos := d.month_pos
  have hle := d.month_le
  unfold Date.marchMonth
  by_cases hwinter : d.month ≤ 2
  · rw [if_pos hwinter, if_neg (by omega)]
    omega
  · rw [if_neg hwinter, if_pos (by omega)]
    omega

theorem dayNumber_era (d : Date) (hyear : 1 ≤ d.year) :
    (d.dayNumber : Int) - 60 =
      365 * d.marchYear + (d.marchYear / 4 : Nat) - (d.marchYear / 100 : Nat) +
        (d.marchYear / 400 : Nat) + d.marchDay := by
  have hmarch := d.dayNumber_march hyear
  rw [daysBeforeYear_eq] at hmarch
  omega

theorem daysFromCivil_eq (d : Date) (hyear : 1 ≤ d.year) :
    daysFromCivil d.year d.month d.day = d.dayNumber - EPOCH_DAYS := by
  have hera := dayNumber_era d hyear
  have hday : ((d.marchDay : Nat) : Int) = (153 * d.marchMonth + 2) / 5 + d.day - 1 := by
    have hpos := d.day_pos
    unfold Date.marchDay
    omega
  have hpos : (0 : Int) ≤ d.marchYear := Int.natCast_nonneg _
  unfold daysFromCivil EPOCH_DAYS
  simp only [marchYear_eq d hyear, marchMonth_shift d, if_pos hpos]
  rw [Int.tdiv_eq_ediv_of_nonneg hpos, Int.tdiv_eq_ediv_of_nonneg (by omega), Int.tdiv_eq_ediv_of_nonneg (by omega),
    Int.tdiv_eq_ediv_of_nonneg (by omega)]
  omega

theorem yearOfEra {c q s doy : Int} (hc : 0 ≤ c ∧ c ≤ 3) (hq : 0 ≤ q ∧ q ≤ 24) (hs : 0 ≤ s ∧ s ≤ 3)
    (hdoy : 0 ≤ doy ∧ doy ≤ 365) (hleap : doy = 365 → s = 3 ∧ (q = 24 → c = 3)) {doe : Int}
    (hdoe : doe = 36524 * c + (1461 * q + (365 * s + doy))) :
    (doe - doe / 1460 + doe / 36524 - doe / 146096) / 365 = 100 * c + 4 * q + s := by
  have hcentury : doe / 36524 - doe / 146096 = c := by
    by_cases hlast : q = 24 ∧ s = 3 ∧ doy = 365
    · -- the last day of a century is there in the last century only
      obtain ⟨rfl, rfl, rfl⟩ := hlast
      have hthree := (hleap rfl).2 rfl
      subst hthree
      subst hdoe
      decide
    · have hrest : 1461 * q + (365 * s + doy) < 36524 := by omega
      have hfirst : doe / 36524 = c := by omega
      have hsecond : doe / 146096 = 0 := by omega
      omega
  have hfour : doe / 1460 = 25 * c + q ∧ doy ≤ 364 ∨ doe / 1460 = 25 * c + q + 1 ∧ 1 ≤ doy := by
    have hsplit : doe = 1460 * (25 * c + q) + (24 * c + q + 365 * s + doy) := by omega
    by_cases hmore : 24 * c + q + 365 * s + doy < 1460
    · have hdiv : doe / 1460 = 25 * c + q := by omega
      left
      exact ⟨hdiv, by omega⟩
    · have hdiv : doe / 1460 = 25 * c + q + 1 := by omega
      right
      exact ⟨hdiv, by omega⟩
  omega

theorem eraOf {era doe : Int} (hera : 0 ≤ era) (hdoe : 0 ≤ doe ∧ doe < 146097) :
    (if 0 ≤ era * 146097 + doe then era * 146097 + doe else era * 146097 + doe - 146096).tdiv 146097 = era := by
  have hpos : 0 ≤ era * 146097 + doe := by omega
  rw [if_pos hpos, Int.tdiv_eq_ediv_of_nonneg hpos]
  omega

theorem daysOfYears {c q s doy : Int} (hc : 0 ≤ c ∧ c ≤ 3) (hq : 0 ≤ q ∧ q ≤ 24) (hs : 0 ≤ s ∧ s ≤ 3) {doe yoe : Int}
    (hdoe : doe = 36524 * c + (1461 * q + (365 * s + doy))) (hyoe : yoe = 100 * c + 4 * q + s) :
    doe - (365 * yoe + yoe.tdiv 4 - yoe.tdiv 100) = doy := by
  have hquarter : yoe / 4 = 25 * c + q := by omega
  have hhundredth : yoe / 100 = c := by omega
  rw [Int.tdiv_eq_ediv_of_nonneg (by omega), Int.tdiv_eq_ediv_of_nonneg (by omega), hquarter, hhundredth]
  omega

theorem monthOfDay (d : Date) :
    (5 * (d.marchDay : Int) + 2).tdiv 153 = d.marchMonth ∧
      (d.marchDay : Int) - (153 * (d.marchMonth : Int) + 2).tdiv 5 + 1 = d.day := by
  obtain ⟨hmonth, hday⟩ := d.marchMonth_eq
  have hpos := d.day_pos
  rw [Int.tdiv_eq_ediv_of_nonneg (by omega), Int.tdiv_eq_ediv_of_nonneg (by omega)]
  constructor
  · omega
  · omega

theorem civilFromDays_eq (d : Date) (hyear : 1 ≤ d.year) :
    civilFromDays (d.dayNumber - EPOCH_DAYS) = ((d.year : Int), (d.month : Int), (d.day : Int)) := by
  have hera := dayNumber_era d hyear
  obtain ⟨hle, hlast⟩ := d.marchDay_le hyear
  obtain ⟨hmp, hday⟩ := monthOfDay d
  have hz : (d.dayNumber : Int) - EPOCH_DAYS + 719468 = d.dayNumber - 60 := by
    unfold EPOCH_DAYS
    omega
  generalize hdoy : (d.marchDay : Int) = doy at hera hmp hday
  generalize hera' : ((d.marchYear / 400 : Nat) : Int) = era at hera
  -- the year within its era, in centuries, groups of four years and years
  have hcentury : ∃ c q s : Int, (0 ≤ c ∧ c ≤ 3) ∧ (0 ≤ q ∧ q ≤ 24) ∧ (0 ≤ s ∧ s ≤ 3) ∧
      (d.marchYear : Int) = 400 * era + (100 * c + 4 * q + s) ∧ (doy = 365 → s = 3 ∧ (q = 24 → c = 3)) := by
    refine ⟨(d.marchYear % 400 / 100 : Nat), (d.marchYear % 100 / 4 : Nat), (d.marchYear % 4 : Nat), by omega, by omega,
      by omega, by omega, ?_⟩
    intro hlong
    have hleap := hlast (by omega)
    unfold IsLeap at hleap
    omega
  obtain ⟨c, q, s, hc, hq, hs, hyears, hleap⟩ := hcentury
  have hdoyRange : 0 ≤ doy ∧ doy ≤ 365 := by omega
  generalize hdoe : 36524 * c + (1461 * q + (365 * s + doy)) = doe
  generalize hyoe : 100 * c + 4 * q + s = yoe at hyears
  have hz' : (d.dayNumber : Int) - 60 = era * 146097 + doe := by omega
  have hdoeRange : 0 ≤ doe ∧ doe < 146097 := by omega
  have heraPos : 0 ≤ era := hera' ▸ Int.natCast_nonneg _
  have hera2 := eraOf heraPos hdoeRange
  have hdoe2 : era * 146097 + doe - era * 146097 = doe := by omega
  have hyoe2 : (doe - doe.tdiv 1460 + doe.tdiv 36524 - doe.tdiv 146096).tdiv 365 = yoe := by
    have hyear := yearOfEra hc hq hs hdoyRange hleap hdoe.symm
    rw [hyoe] at hyear
    rw [Int.tdiv_eq_ediv_of_nonneg hdoeRange.1, Int.tdiv_eq_ediv_of_nonneg hdoeRange.1,
      Int.tdiv_eq_ediv_of_nonneg hdoeRange.1, Int.tdiv_eq_ediv_of_nonneg (by omega)]
    exact hyear
  have hdoy2 := daysOfYears hc hq hs hdoe.symm hyoe.symm
  have hback := marchMonth_back d
  have hyearBack := marchYear_eq d hyear
  unfold civilFromDays
  simp only [hz, hz', hera2, hdoe2, hyoe2, hdoy2, hmp, hback, hday]
  refine Prod.ext ?_ rfl
  simp only
  omega

def wsDayOfWeek (year month day : Nat) : Nat :=
  let y := if month < 3 then year - 1 else year
  let m := if month < 3 then month + 12 else month
  let k := y % 100
  let j := y / 100
  let h := (day + 13 * (m + 1) / 5 + k + k / 4 + j / 4 + 5 * j) % 7
  (h + 6) % 7

theorem wsDayOfWeek_eq (d : Date) (hyear : 1 ≤ d.year) : wsDayOfWeek d.year d.month d.day = d.weekday := by
  have hera := dayNumber_era d hyear
  have hy : (if d.month < 3 then d.year - 1 else d.year) = d.marchYear := by
    unfold Date.marchYear
    by_cases hwinter : d.month ≤ 2
    · rw [if_pos hwinter, if_pos (Nat.lt_succ_of_le hwinter)]
    · rw [if_neg hwinter, if_neg (by omega)]
  have hm : (if d.month < 3 then d.month + 12 else d.month) = d.marchMonth + 3 := by
    unfold Date.marchMonth
    by_cases hwinter : d.month ≤ 2
    · rw [if_pos hwinter, if_pos (Nat.lt_succ_of_le hwinter)]
    · rw [if_neg hwinter, if_neg (by omega)]
      omega
  have hpos := d.day_pos
  unfold wsDayOfWeek Date.weekday
  simp only [hy, hm]
  unfold Date.marchDay at hera
  generalize d.marchYear = y at hera ⊢
  generalize d.marchMonth = k at hera ⊢
  -- the days before the month, without its weeks
  have hmonths : (153 * k + 2) / 5 + 10 = 28 * k + 13 * (k + 3 + 1) / 5 := by omega
  have hquarter : y / 4 = 25 * (y / 100) + y % 100 / 4 := by omega
  have hcenturies : y / 400 = y / 100 / 4 := by omega
  have hyears : y = 100 * (y / 100) + y % 100 := (Nat.div_add_mod y 100).symm
  generalize y / 100 = j at hera hquarter hcenturies hyears ⊢
  generalize y % 100 = c at hera hquarter hcenturies hyears ⊢
  generalize 13 * (k + 3 + 1) / 5 = q at hmonths ⊢
  have hweeks : d.dayNumber = 7 * (5217 * j + 52 * c + 4 * k + 7) + (d.day + q + c + c / 4 + j / 4 + 5 * j) := by omega
  rw [hweeks]
  omega

/-! ### The words -/

namespace Stamp

def year (s : Stamp) : Nat := 1980 + ((s.fdate >>> 9) &&& 0x7F).toNat

def month (s : Stamp) : Nat := ((s.fdate >>> 5) &&& 0x0F).toNat

def day (s : Stamp) : Nat := (s.fdate &&& 0x1F).toNat

def hour (s : Stamp) : Nat := ((s.ftime >>> 11) &&& 0x1F).toNat

def minute (s : Stamp) : Nat := ((s.ftime >>> 5) &&& 0x3F).toNat

def pair (s : Stamp) : Nat := (s.ftime &&& 0x1F).toNat

structure CalendarValid (s : Stamp) : Prop where
  month_pos : 1 ≤ s.month
  month_le : s.month ≤ 12
  day_pos : 1 ≤ s.day
  day_le : s.day ≤ monthLength s.year s.month
  hour : s.hour < 24
  minute : s.minute < 60
  pair : s.pair < 30

end Stamp

structure FatTime where
  date : Date
  hour : Nat
  minute : Nat
  pair : Nat
  year_ge : 1980 ≤ date.year
  year_le : date.year ≤ 2107
  hour_lt : hour < 24
  minute_lt : minute < 60
  pair_lt : pair < 30

namespace FatTime

def stamp (t : FatTime) : Stamp := packStamp t.date.year t.date.month t.date.day t.hour t.minute t.pair

def minutes (t : FatTime) : Int := t.date.dayNumber * 1440 + t.hour * 60 + t.minute

theorem day_le (t : FatTime) : t.date.day ≤ 31 := by
  obtain ⟨year, month, day, hmonth, hmonth', hday, hday'⟩ := t.date
  exact Nat.le_trans hday' (monthLength_le year month)

theorem stamp_fdate (t : FatTime) :
    t.stamp.fdate.toNat = (t.date.year - 1980) * 512 + t.date.month * 32 + t.date.day := by
  have hday := t.day_le
  have hmonth := t.date.month_le
  have hyear := t.year_le
  have hyear' : ((t.date.year : Int) - 1980).toNat = t.date.year - 1980 := by omega
  show (UInt16.ofNat (((t.date.year : Int) - 1980).toNat * 512 + (t.date.month : Int).toNat * 32 +
    (t.date.day : Int).toNat)).toNat = _
  rw [hyear', Int.toNat_natCast, Int.toNat_natCast, UInt16.toNat_ofNat']
  exact Nat.mod_eq_of_lt (show _ < 65536 by omega)

theorem stamp_ne_zero (t : FatTime) : t.stamp.fdate ≠ 0 := by
  intro hzero
  have hwords := t.stamp_fdate
  rw [hzero] at hwords
  exact absurd hwords (Nat.ne_of_lt (Nat.lt_of_lt_of_le t.date.day_pos (Nat.le_add_left _ _)))

theorem stamp_ftime (t : FatTime) : t.stamp.ftime.toNat = t.hour * 2048 + t.minute * 32 + t.pair := by
  have hhour := t.hour_lt
  have hminute := t.minute_lt
  have hpair := t.pair_lt
  show (UInt16.ofNat ((t.hour : Int).toNat * 2048 + (t.minute : Int).toNat * 32 + (t.pair : Int).toNat)).toNat = _
  rw [Int.toNat_natCast, Int.toNat_natCast, Int.toNat_natCast, UInt16.toNat_ofNat']
  exact Nat.mod_eq_of_lt (show _ < 65536 by omega)

end FatTime

namespace Stamp

theorem fields (s : Stamp) :
    s.year = 1980 + s.fdate.toNat / 512 ∧ s.month = s.fdate.toNat / 32 % 16 ∧ s.day = s.fdate.toNat % 32 ∧
      s.hour = s.ftime.toNat / 2048 ∧ s.minute = s.ftime.toNat / 32 % 64 ∧ s.pair = s.ftime.toNat % 32 := by
  have hdate := s.fdate.toNat_lt
  have htime := s.ftime.toNat_lt
  unfold year month day hour minute pair
  simp only [UInt16.toNat_and, UInt16.toNat_shiftRight]
  refine ⟨?_, ?_, ?_, ?_, ?_, ?_⟩
  · show 1980 + (s.fdate.toNat >>> 9 &&& (2 ^ 7 - 1)) = _
    rw [Nat.and_two_pow_sub_one_eq_mod, Nat.shiftRight_eq_div_pow]
    omega
  · show s.fdate.toNat >>> 5 &&& (2 ^ 4 - 1) = _
    rw [Nat.and_two_pow_sub_one_eq_mod, Nat.shiftRight_eq_div_pow]
  · show s.fdate.toNat &&& (2 ^ 5 - 1) = _
    rw [Nat.and_two_pow_sub_one_eq_mod]
  · show s.ftime.toNat >>> 11 &&& (2 ^ 5 - 1) = _
    rw [Nat.and_two_pow_sub_one_eq_mod, Nat.shiftRight_eq_div_pow]
    omega
  · show s.ftime.toNat >>> 5 &&& (2 ^ 6 - 1) = _
    rw [Nat.and_two_pow_sub_one_eq_mod, Nat.shiftRight_eq_div_pow]
  · show s.ftime.toNat &&& (2 ^ 5 - 1) = _
    rw [Nat.and_two_pow_sub_one_eq_mod]

end Stamp

theorem FatTime.fields (t : FatTime) :
    t.stamp.year = t.date.year ∧ t.stamp.month = t.date.month ∧ t.stamp.day = t.date.day ∧
      t.stamp.hour = t.hour ∧ t.stamp.minute = t.minute ∧ t.stamp.pair = t.pair := by
  obtain ⟨hyear, hmonth, hday, hhour, hminute, hpair⟩ := t.stamp.fields
  rw [hyear, hmonth, hday, hhour, hminute, hpair, t.stamp_fdate, t.stamp_ftime]
  have hge := t.year_ge
  have hle := t.date.month_le
  have hlast := t.day_le
  have hminute := t.minute_lt
  have hpair := t.pair_lt
  refine ⟨?_, ?_, ?_, ?_, ?_, ?_⟩
  all_goals omega

theorem Stamp.CalendarValid.exists_fatTime {s : Stamp} (h : s.CalendarValid) : ∃ t : FatTime, t.stamp = s := by
  obtain ⟨hyear, hmonth, hday, hhour, hminute, hpair⟩ := s.fields
  have hdate := s.fdate.toNat_lt
  have hge : 1980 ≤ s.year := Nat.le_add_right _ _
  have hle : s.year ≤ 2107 := by omega
  let d : Date :=
    { year := s.year, month := s.month, day := s.day, month_pos := h.month_pos, month_le := h.month_le,
      day_pos := h.day_pos, day_le := h.day_le }
  let t : FatTime :=
    { date := d, hour := s.hour, minute := s.minute, pair := s.pair, year_ge := hge, year_le := hle, hour_lt := h.hour,
      minute_lt := h.minute, pair_lt := h.pair }
  refine ⟨t, ?_⟩
  have hfdate : t.stamp.fdate = s.fdate := by
    apply UInt16.toNat_inj.mp
    rw [t.stamp_fdate]
    show (s.year - 1980) * 512 + s.month * 32 + s.day = _
    omega
  have hftime : t.stamp.ftime = s.ftime := by
    apply UInt16.toNat_inj.mp
    rw [t.stamp_ftime]
    show s.hour * 2048 + s.minute * 32 + s.pair = _
    omega
  cases s
  exact congr (congrArg Stamp.mk hfdate) hftime

theorem FatTime.calendarValid (t : FatTime) : t.stamp.CalendarValid := by
  obtain ⟨hyear, hmonth, hday, hhour, hminute, hpair⟩ := t.fields
  constructor
  · rw [hmonth]
    exact t.date.month_pos
  · rw [hmonth]
    exact t.date.month_le
  · rw [hday]
    exact t.date.day_pos
  · rw [hday, hyear, hmonth]
    exact t.date.day_le
  · rw [hhour]
    exact t.hour_lt
  · rw [hminute]
    exact t.minute_lt
  · rw [hpair]
    exact t.pair_lt

/-! ### Shifts -/

/-- The year that `fat_shift_minutes` comes to. -/
def shiftYear (s : Stamp) (minutes : Int) : Int :=
  (civilFromDays ((daysFromCivil s.year s.month s.day * 1440 + s.hour * 60 + s.minute + minutes) / 1440)).1

def ShiftClamps (s : Stamp) (minutes : Int) : Prop := shiftYear s minutes < 1980 ∨ 2107 < shiftYear s minutes

namespace FatTime

theorem dayNumber_ge (t : FatTime) : 723180 ≤ t.date.dayNumber := by
  have hyear := daysBeforeYear_mono t.year_ge
  have hday := t.date.dayNumber_year.1
  rw [daysBeforeYear_eq 1980] at hyear
  omega

theorem shift_reaches (t : FatTime) {m : Int} (hm : m.natAbs ≤ 32768) : ∃ (d : Date) (left : Int), 1 ≤ d.year ∧
    0 ≤ left ∧ left < 1440 ∧ t.minutes + m = d.dayNumber * 1440 + left ∧ shiftYear t.stamp m = d.year ∧
    (m ≠ 0 → fatShiftMinutes t.stamp m =
      if (d.year : Int) < 1980 then packStamp 1980 1 1 0 0 0
      else if 2107 < (d.year : Int) then packStamp 2107 12 31 23 59 29
      else packStamp d.year d.month d.day (left.tdiv 60) (left.tmod 60) t.pair) := by
  have hge := t.dayNumber_ge
  have hyearPos : 1 ≤ t.date.year := Nat.le_trans (by decide) t.year_ge
  obtain ⟨d, hd⟩ := Date.exists_dayNumber ((t.minutes + m) / 1440).toNat
  have hminutes : t.minutes = t.date.dayNumber * 1440 + t.hour * 60 + t.minute := rfl
  have hnumber : (d.dayNumber : Int) = (t.minutes + m) / 1440 := by
    rw [hd]
    exact Int.toNat_of_nonneg (by omega)
  have hdyear : 1 ≤ d.year := by
    have hfirst : daysBeforeYear 1 ≤ d.dayNumber := by
      rw [daysBeforeYear_eq 1]
      omega
    exact (Date.year_of_dayNumber hfirst d.dayNumber_year.2).1
  obtain ⟨hyear, hmonth, hday, hhour, hminute, hpair⟩ := t.fields
  have hdays := daysFromCivil_eq t.date hyearPos
  have hcivil := civilFromDays_eq d hdyear
  generalize htotal : (t.date.dayNumber - EPOCH_DAYS) * 1440 + (t.hour : Int) * 60 + t.minute + m = total
  have hepoch : EPOCH_DAYS = 719528 := rfl
  have hpos : 0 ≤ total := by omega
  have hquot : total / 1440 = d.dayNumber - EPOCH_DAYS := by omega
  refine ⟨d, total - (d.dayNumber - EPOCH_DAYS) * 1440, hdyear, by omega, by omega, by omega, ?_, ?_⟩
  · unfold shiftYear
    rw [hyear, hmonth, hday, hhour, hminute, hdays, htotal, hquot, hcivil]
  · intro hne
    have hfdate := t.stamp_ne_zero
    have hyear' : ((1980 : Nat) : Int) + (((t.stamp.fdate >>> 9) &&& 0x7F).toNat : Int) = t.date.year := by
      rw [← hyear]
      rfl
    have hmonth' : max (((t.stamp.fdate >>> 5) &&& 0x0F).toNat : Int) 1 = t.date.month := by
      have hmonthPos := t.date.month_pos
      rw [show ((t.stamp.fdate >>> 5) &&& 0x0F).toNat = t.date.month from hmonth]
      omega
    have hday' : max ((t.stamp.fdate &&& 0x1F).toNat : Int) 1 = t.date.day := by
      have hdayPos := t.date.day_pos
      rw [show (t.stamp.fdate &&& 0x1F).toNat = t.date.day from hday]
      omega
    have hhour' : ((t.stamp.ftime >>> 11) &&& 0x1F).toNat = t.hour := hhour
    have hminute' : ((t.stamp.ftime >>> 5) &&& 0x3F).toNat = t.minute := hminute
    have hpair' : (t.stamp.ftime &&& 0x1F).toNat = t.pair := hpair
    have hleft : ¬ total - (d.dayNumber - EPOCH_DAYS) * 1440 < 0 := by omega
    unfold fatShiftMinutes
    rw [if_neg (not_or.mpr ⟨hne, hfdate⟩)]
    simp only [hyear', hmonth', hday', hhour', hminute', hpair', hdays, htotal, Int.tdiv_eq_ediv_of_nonneg hpos, hleft,
      if_false, hquot, hcivil]

theorem date_of_minutes (t : FatTime) {d : Date} (hd : 1 ≤ d.year) {left : Int} (hpos : 0 ≤ left) (hlt : left < 1440)
    (h : t.minutes = d.dayNumber * 1440 + left) : t.date = d ∧ (t.hour : Int) * 60 + t.minute = left := by
  have hhour := t.hour_lt
  have hminute := t.minute_lt
  have hyear : 1 ≤ t.date.year := Nat.le_trans (by decide) t.year_ge
  unfold minutes at h
  have hnumber : (t.date.dayNumber : Int) = d.dayNumber := by omega
  have hcivil := civilFromDays_eq t.date hyear
  rw [hnumber, civilFromDays_eq d hd] at hcivil
  obtain ⟨hyears, hrest⟩ := Prod.ext_iff.mp hcivil
  obtain ⟨hmonths, hdays⟩ := Prod.ext_iff.mp hrest
  refine ⟨Date.ext ?_ ?_ ?_, by omega⟩
  · exact (Int.ofNat_inj.mp hyears).symm
  · exact (Int.ofNat_inj.mp hmonths).symm
  · exact (Int.ofNat_inj.mp hdays).symm

theorem shift_moves (t : FatTime) {m : Int} (hm : m.natAbs ≤ 32768) (hclamp : ¬ ShiftClamps t.stamp m) :
    ∃ t' : FatTime, fatShiftMinutes t.stamp m = t'.stamp ∧ t'.minutes = t.minutes + m ∧ t'.pair = t.pair := by
  by_cases hzero : m = 0
  · refine ⟨t, ?_, by omega, rfl⟩
    unfold fatShiftMinutes
    rw [if_pos (.inl hzero)]
  obtain ⟨d, left, -, hpos, hlt, hminutes, hyear, hshift⟩ := t.shift_reaches hm
  unfold ShiftClamps at hclamp
  rw [hyear] at hclamp
  obtain ⟨hge, hle⟩ := not_or.mp hclamp
  have hhour : (left / 60).toNat < 24 := by omega
  have hminute : (left % 60).toNat < 60 := by omega
  refine ⟨⟨d, (left / 60).toNat, (left % 60).toNat, t.pair, by omega, by omega, hhour, hminute, t.pair_lt⟩, ?_, ?_, rfl⟩
  · rw [hshift hzero, if_neg hge, if_neg hle, Int.tdiv_eq_ediv_of_nonneg hpos, Int.tmod_eq_emod_of_nonneg hpos]
    have hhours : ((left / 60).toNat : Int) = left / 60 := Int.toNat_of_nonneg (by omega)
    have hminutes' : ((left % 60).toNat : Int) = left % 60 := Int.toNat_of_nonneg (by omega)
    show _ = packStamp d.year d.month d.day ((left / 60).toNat : Int) ((left % 60).toNat : Int) t.pair
    rw [hhours, hminutes']
  · rw [hminutes]
    unfold minutes
    simp only
    omega

theorem shift_back (t : FatTime) {m : Int} (hm : m.natAbs ≤ 32768) (hclamp : ¬ ShiftClamps t.stamp m) :
    fatShiftMinutes (fatShiftMinutes t.stamp m) (-m) = t.stamp := by
  obtain ⟨t', hshift, hminutes, hpair⟩ := t.shift_moves hm hclamp
  have hm' : (-m).natAbs ≤ 32768 := by rwa [Int.natAbs_neg]
  have hhour := t.hour_lt
  have hminute := t.minute_lt
  -- the way back ends where the time was
  have hclamp' : ¬ ShiftClamps t'.stamp (-m) := by
    obtain ⟨d, left, hd, hpos, hlt, hback, hyear, -⟩ := t'.shift_reaches hm'
    obtain ⟨hdate, -⟩ := t.date_of_minutes hd hpos hlt (by omega)
    have hge := t.year_ge
    have hle := t.year_le
    unfold ShiftClamps
    rw [hyear, ← hdate]
    omega
  obtain ⟨t'', hshift', hminutes', hpair'⟩ := t'.shift_moves hm' hclamp'
  have hyear : 1 ≤ t''.date.year := Nat.le_trans (by decide) t''.year_ge
  have hhour'' := t''.hour_lt
  have hminute'' := t''.minute_lt
  have hsame : t.minutes = t''.date.dayNumber * 1440 + ((t''.hour : Int) * 60 + t''.minute) := by
    have hrest : t''.minutes = t''.date.dayNumber * 1440 + t''.hour * 60 + t''.minute := rfl
    omega
  obtain ⟨hdate, htime⟩ := t.date_of_minutes hyear (by omega) (by omega) hsame
  have hhours : t''.hour = t.hour := by omega
  have hminutes'' : t''.minute = t.minute := by omega
  rw [hshift, hshift']
  unfold stamp
  rw [hhours, hminutes'', hpair', hpair, hdate]

end FatTime

end Pi1MHz.Ws
