import Mathlib.Data.Bool.AllAny
import Pi1MHz.WsTimestamp

/-!
# The web server: dates as text

`dav_format_date`, which writes a timestamp as an HTTP date with its day of the week, and `dav_parse_http_date`, which
reads it back.  A date that a client sets with a PROPPATCH is shifted to the local time of the card; a PROPFIND shifts
it back and writes it out, and between the two nothing is lost but an odd second.
-/

namespace Pi1MHz.Ws

open Calendar

/-! ### The code -/

/-- The compiler's `__DATE__` and `__TIME__`. -/
structure BuildDate where
  year : Nat
  month : Nat
  day : Nat
  time : Str

/-- The table `months` of `dav_format_date`. -/
def monthTable : Str :=
  lit ['J', 'a', 'n', 'F', 'e', 'b', 'M', 'a', 'r', 'A', 'p', 'r', 'M', 'a', 'y', 'J', 'u', 'n', 'J', 'u', 'l', 'A',
    'u', 'g', 'S', 'e', 'p', 'O', 'c', 't', 'N', 'o', 'v', 'D', 'e', 'c']

/-- The table `days`. -/
def dayTable : Str :=
  lit ['S', 'u', 'n', 'M', 'o', 'n', 'T', 'u', 'e', 'W', 'e', 'd', 'T', 'h', 'u', 'F', 'r', 'i', 'S', 'a', 't']

/-- `%.3s` at the entry `k` of a table. -/
def nameAt (table : Str) (k : Nat) : Str := (table.drop (k * 3)).take 3

def digitByte (n : Nat) : UInt8 := UInt8.ofNat (0x30 + n)

/-- `%02u` of a number with at most two digits. -/
def twoDigits (n : Nat) : Str := [digitByte (n / 10), digitByte (n % 10)]

/-- `%04u` of a number with at most four digits. -/
def fourDigits (n : Nat) : Str := twoDigits (n / 100) ++ twoDigits (n % 100)

def dateText (year month day : Nat) : Str :=
  nameAt dayTable (wsDayOfWeek year month day) ++ [0x2C, 0x20] ++ twoDigits day ++ [0x20] ++
    nameAt monthTable (month - 1) ++ [0x20] ++ fourDigits year ++ [0x20]

def timeText (hour minute second : Nat) : Str :=
  twoDigits hour ++ [0x3A] ++ twoDigits minute ++ [0x3A] ++ twoDigits second

def gmt : Str := [0x20, 0x47, 0x4D, 0x54]

def davFormatDate (build : BuildDate) (outSz : Nat) (s : Stamp) : Str :=
  let year := (s.fdate >>> 9).toNat + 1980
  let month := ((s.fdate >>> 5) &&& 0x0F).toNat
  let day := (s.fdate &&& 0x1F).toNat
  let hour := ((s.ftime >>> 11) &&& 0x1F).toNat
  let minute := ((s.ftime >>> 5) &&& 0x3F).toNat
  let second := (s.ftime &&& 0x1F).toNat * 2
  let text :=
    if s.fdate ≠ 0 ∧ 1 ≤ month ∧ month ≤ 12 then dateText year month day ++ timeText hour minute second ++ gmt
    else dateText build.year build.month build.day ++ build.time ++ gmt
  text.take (outSz - 1)

/-- What a PROPFIND gives as `getlastmodified`. -/
def davLastModified (build : BuildDate) (utcOffset : Int) (s : Stamp) : Str :=
  davFormatDate build 40 (fatShiftMinutes s (-utcOffset))

/-- `Win32LastModifiedTime>`. -/
def win32Tag : List UInt8 :=
  lit ['W', 'i', 'n', '3', '2', 'L', 'a', 's', 't', 'M', 'o', 'd', 'i', 'f', 'i', 'e', 'd', 'T', 'i', 'm', 'e', '>']

/-! ### HTTP dates -/

def httpDate (d : Date) (hour minute second : Nat) : Str :=
  nameAt dayTable d.weekday ++ [0x2C, 0x20] ++ twoDigits d.day ++ [0x20] ++ nameAt monthTable (d.month - 1) ++ [0x20] ++
    fourDigits d.year ++ [0x20] ++ timeText hour minute second ++ gmt

theorem readDigits_digit {k : Nat} (hk : k < 10) (n : UInt32) (rest : Str) :
    readDigits n (digitByte k :: rest) = readDigits (n * 10 + UInt32.ofNat k) rest := by
  interval_cases k
  all_goals rfl

theorem readDigits_end {c : UInt8} (hc : isDigit c = false) (n : UInt32) (rest : Str) :
    readDigits n (c :: rest) = (n, c :: rest) := by
  rw [readDigits, if_neg (Bool.eq_false_iff.mp hc)]

theorem readDigits_two {k : Nat} (hk : k < 100) {c : UInt8} (hc : isDigit c = false) (rest : Str) :
    readDigits 0 (twoDigits k ++ c :: rest) = (UInt32.ofNat k, c :: rest) := by
  have htens : k / 10 < 10 := by omega
  have hones : k % 10 < 10 := Nat.mod_lt _ (by decide)
  show readDigits 0 (digitByte (k / 10) :: digitByte (k % 10) :: c :: rest) = _
  rw [readDigits_digit htens, readDigits_digit hones, readDigits_end hc]
  apply congrArg (·, c :: rest)
  apply UInt32.toNat_inj.mp
  rw [UInt32.toNat_add, UInt32.toNat_mul, UInt32.toNat_add, UInt32.toNat_ofNat', UInt32.toNat_ofNat', UInt32.toNat_ofNat']
  show (((0 * 10 % 2 ^ 32 + k / 10 % 2 ^ 32) % 2 ^ 32) * 10 % 2 ^ 32 + k % 10 % 2 ^ 32) % 2 ^ 32 = k % 2 ^ 32
  omega

theorem readDigits_four {k : Nat} (hk : k < 10000) {c : UInt8} (hc : isDigit c = false) (rest : Str) :
    readDigits 0 (fourDigits k ++ c :: rest) = (UInt32.ofNat k, c :: rest) := by
  have h1 : k / 100 / 10 < 10 := by omega
  have h2 : k / 100 % 10 < 10 := Nat.mod_lt _ (by decide)
  have h3 : k % 100 / 10 < 10 := by omega
  have h4 : k % 100 % 10 < 10 := Nat.mod_lt _ (by decide)
  show readDigits 0 (digitByte (k / 100 / 10) :: digitByte (k / 100 % 10) :: digitByte (k % 100 / 10) ::
    digitByte (k % 100 % 10) :: c :: rest) = _
  rw [readDigits_digit h1, readDigits_digit h2, readDigits_digit h3, readDigits_digit h4, readDigits_end hc]
  apply congrArg (·, c :: rest)
  apply UInt32.toNat_inj.mp
  simp only [UInt32.toNat_add, UInt32.toNat_mul, UInt32.toNat_ofNat']
  show ((((((0 * 10 % 2 ^ 32 + k / 100 / 10 % 2 ^ 32) % 2 ^ 32) * 10 % 2 ^ 32 + k / 100 % 10 % 2 ^ 32) % 2 ^ 32) * 10 %
    2 ^ 32 + k % 100 / 10 % 2 ^ 32) % 2 ^ 32 * 10 % 2 ^ 32 + k % 100 % 10 % 2 ^ 32) % 2 ^ 32 = k % 2 ^ 32
  omega

theorem digitByte_digit {k : Nat} (hk : k < 10) : isDigit (digitByte k) = true := by
  interval_cases k
  all_goals rfl

theorem dayName_clean {w : Nat} (hw : w < 7) :
    (nameAt dayTable w).length = 3 ∧ ∀ c ∈ nameAt dayTable w, c ≠ 0 ∧ c ≠ 0x2C := by
  rw [← List.all_iff_forall_prop]
  interval_cases w
  all_goals decide

theorem monthName_clean {m : Nat} (hm : m < 12) :
    (nameAt monthTable m).length = 3 ∧ (∀ c ∈ nameAt monthTable m, c ≠ 0) ∧ (nameAt monthTable m).headD 0 ≠ 0x20 := by
  rw [← List.all_iff_forall_prop]
  interval_cases m
  all_goals decide

theorem monthName_found {m : Nat} (hm : m < 12) (rest : Str) :
    months.findIdx? (fun name => name.isPrefixOf (nameAt monthTable m ++ rest)) = some m := by
  interval_cases m
  all_goals rfl

def dateTail (d : Date) (hour minute second : Nat) : Str :=
  twoDigits d.day ++ 0x20 :: (nameAt monthTable (d.month - 1) ++ 0x20 :: (fourDigits d.year ++ 0x20 ::
    (twoDigits hour ++ 0x3A :: (twoDigits minute ++ 0x3A :: (twoDigits second ++ gmt)))))

theorem httpDate_eq (d : Date) (hour minute second : Nat) :
    httpDate d hour minute second = nameAt dayTable d.weekday ++ 0x2C :: 0x20 :: dateTail d hour minute second := by
  unfold httpDate timeText dateTail
  simp only [List.append_assoc, List.cons_append, List.nil_append]

theorem month_lt (d : Date) : d.month - 1 < 12 := by
  have hle := d.month_le
  omega

theorem length_httpDate (d : Date) (hour minute second : Nat) : (httpDate d hour minute second).length = 29 := by
  rw [httpDate_eq, List.length_append, (dayName_clean d.weekday_lt).1]
  unfold dateTail
  simp only [List.length_append, List.length_cons, (monthName_clean (month_lt d)).1]
  rfl

theorem twoDigits_nonzero {k : Nat} (hk : k < 100) : ∀ c ∈ twoDigits k, c ≠ 0 := by
  have hdigit : ∀ {n : Nat}, n < 10 → digitByte n ≠ 0 := by
    intro n hn hzero
    have hd := digitByte_digit hn
    rw [hzero] at hd
    cases hd
  unfold twoDigits
  intro c hc
  rcases List.mem_cons.mp hc with rfl | hc
  · exact hdigit (by omega)
  · rw [List.mem_singleton.mp hc]
    exact hdigit (Nat.mod_lt _ (by decide))

theorem httpDate_nonzero {d : Date} {hour minute second : Nat} (hday : d.day < 100) (hyear : d.year < 10000)
    (hhour : hour < 100) (hminute : minute < 100) (hsecond : second < 100) :
    ∀ c ∈ httpDate d hour minute second, c ≠ 0 := by
  have hhigh : d.year / 100 < 100 := by omega
  have hlow : d.year % 100 < 100 := Nat.mod_lt _ (by decide)
  have hname := fun c hc => ((dayName_clean d.weekday_lt).2 c hc).1
  have hmonth := (monthName_clean (month_lt d)).2.1
  unfold httpDate timeText fourDigits
  simp only [List.forall_mem_append]
  have hspace : ∀ c ∈ ([0x20] : Str), c ≠ 0 := List.all_iff_forall_prop.mp (by decide)
  have hcolon : ∀ c ∈ ([0x3A] : Str), c ≠ 0 := List.all_iff_forall_prop.mp (by decide)
  have hcomma : ∀ c ∈ ([0x2C, 0x20] : Str), c ≠ 0 := List.all_iff_forall_prop.mp (by decide)
  have hzone : ∀ c ∈ lit [' ', 'G', 'M', 'T'], c ≠ 0 := List.all_iff_forall_prop.mp (by decide)
  refine ⟨⟨⟨⟨⟨⟨⟨⟨⟨hname, hcomma⟩, twoDigits_nonzero hday⟩, hspace⟩, hmonth⟩, hspace⟩, ?_⟩, hspace⟩, ?_⟩, hzone⟩
  · exact ⟨twoDigits_nonzero hhigh, twoDigits_nonzero hlow⟩
  · exact ⟨⟨⟨⟨twoDigits_nonzero hhour, hcolon⟩, twoDigits_nonzero hminute⟩, hcolon⟩, twoDigits_nonzero hsecond⟩

theorem packed_eq {a b c i j : Nat} (hc : c < 2 ^ j) (hbc : b * 2 ^ j + c < 2 ^ i) :
    a <<< i ||| b <<< j ||| c = a * 2 ^ i + b * 2 ^ j + c := by
  rw [Nat.or_assoc, ← Nat.shiftLeft_add_eq_or_of_lt hc, Nat.shiftLeft_eq b,
    ← Nat.shiftLeft_add_eq_or_of_lt hbc, Nat.shiftLeft_eq, Nat.add_assoc]

/-! ### Writing and reading -/

theorem davFormatDate_stamp (build : BuildDate) (t : FatTime) :
    davFormatDate build 40 t.stamp = httpDate t.date t.hour t.minute (2 * t.pair) := by
  obtain ⟨-, hmonth, hday, hhour, hminute, hpair⟩ := t.fields
  have hge := t.year_ge
  have hyear : (t.stamp.fdate >>> 9).toNat + 1980 = t.date.year := by
    rw [UInt16.toNat_shiftRight]
    show t.stamp.fdate.toNat >>> 9 + 1980 = _
    have hday' := t.day_le
    have hmonth' := t.date.month_le
    rw [Nat.shiftRight_eq_div_pow, t.stamp_fdate]
    omega
  have hfdate : t.stamp.fdate ≠ 0 := t.stamp_ne_zero
  have hmonth' : ((t.stamp.fdate >>> 5) &&& 0x0F).toNat = t.date.month := hmonth
  have hday' : (t.stamp.fdate &&& 0x1F).toNat = t.date.day := hday
  have hhour' : ((t.stamp.ftime >>> 11) &&& 0x1F).toNat = t.hour := hhour
  have hminute' : ((t.stamp.ftime >>> 5) &&& 0x3F).toNat = t.minute := hminute
  have hpair' : (t.stamp.ftime &&& 0x1F).toNat = t.pair := hpair
  have htext : dateText t.date.year t.date.month t.date.day ++ timeText t.hour t.minute (t.pair * 2) ++ gmt =
      httpDate t.date t.hour t.minute (2 * t.pair) := by
    unfold dateText httpDate
    rw [wsDayOfWeek_eq t.date (Nat.le_trans (by decide) hge), Nat.mul_comm]
  unfold davFormatDate
  simp only [hyear, hmonth', hday', hhour', hminute', hpair']
  rw [if_pos ⟨hfdate, t.date.month_pos, t.date.month_le⟩, htext]
  apply List.take_of_length_le
  rw [length_httpDate]
  decide

theorem skipBlanks_cons {c : UInt8} (hc : c ≠ 0x20) (rest : Str) : skipBlanks (c :: rest) = c :: rest :=
  List.dropWhile_cons_of_neg (by rw [beq_iff_eq]; exact hc)

theorem digitByte_ne_blank {k : Nat} (hk : k < 10) : digitByte k ≠ 0x20 := by
  intro hblank
  have hd := digitByte_digit hk
  rw [hblank] at hd
  cases hd

theorem twoDigits_first {k : Nat} (hk : k < 100) (rest : Str) :
    isDigit ((twoDigits k ++ rest).headD 0) = true ∧ skipBlanks (0x20 :: (twoDigits k ++ rest)) = twoDigits k ++ rest := by
  have htens : k / 10 < 10 := by omega
  constructor
  · exact digitByte_digit htens
  · have hskip : skipBlanks (0x20 :: (twoDigits k ++ rest)) = skipBlanks (twoDigits k ++ rest) := rfl
    rw [hskip]
    exact skipBlanks_cons (digitByte_ne_blank htens) _

theorem fourDigits_first {k : Nat} (hk : k < 10000) (rest : Str) :
    isDigit ((fourDigits k ++ rest).headD 0) = true ∧
      skipBlanks (0x20 :: (fourDigits k ++ rest)) = fourDigits k ++ rest := by
  have hhigh : k / 100 < 100 := by omega
  have hfirst := twoDigits_first hhigh (twoDigits (k % 100) ++ rest)
  unfold fourDigits
  rw [List.append_assoc]
  exact hfirst

theorem monthName_first {m : Nat} (hm : m < 12) (rest : Str) :
    skipBlanks (0x20 :: (nameAt monthTable m ++ rest)) = nameAt monthTable m ++ rest := by
  interval_cases m
  all_goals rfl

theorem parsed_words (t : FatTime) {second : Nat} (hsecond : second / 2 = t.pair) (hle : second < 60) :
    (⟨(((UInt32.ofNat t.date.year - 1980) <<< 9) ||| (UInt32.ofNat (t.date.month - 1 + 1) <<< 5) |||
        UInt32.ofNat t.date.day).toUInt16,
      ((UInt32.ofNat t.hour <<< 11) ||| (UInt32.ofNat t.minute <<< 5) ||| (UInt32.ofNat second / 2)).toUInt16⟩ : Stamp) =
      t.stamp := by
  have hday := t.day_le
  have hmonth := t.date.month_le
  have hmonthPos := t.date.month_pos
  have hge := t.year_ge
  have hyear := t.year_le
  have hhour := t.hour_lt
  have hminute := t.minute_lt
  have hpair := t.pair_lt
  have hfdate : (((UInt32.ofNat t.date.year - 1980) <<< 9) ||| (UInt32.ofNat (t.date.month - 1 + 1) <<< 5) |||
      UInt32.ofNat t.date.day).toUInt16 = t.stamp.fdate := by
    have hyears : (UInt32.ofNat t.date.year - 1980).toNat = t.date.year - 1980 := by
      rw [UInt32.toNat_sub_of_le _ _ (UInt32.le_iff_toNat_le.mpr _), UInt32.toNat_ofNat']
      · show t.date.year % 2 ^ 32 - 1980 = _
        omega
      · rw [UInt32.toNat_ofNat']
        show 1980 ≤ t.date.year % 2 ^ 32
        omega
    apply UInt16.toNat_inj.mp
    rw [t.stamp_fdate]
    simp only [UInt32.toNat_toUInt16, UInt32.toNat_or, UInt32.toNat_shiftLeft, UInt32.toNat_ofNat', hyears]
    show ((t.date.year - 1980) <<< 9 % 2 ^ 32 ||| ((t.date.month - 1 + 1) % 2 ^ 32) <<< 5 % 2 ^ 32 |||
      t.date.day % 2 ^ 32) % 2 ^ 16 = _
    have hsmall : (t.date.year - 1980) <<< 9 < 2 ^ 32 ∧ t.date.month <<< 5 < 2 ^ 32 := by
      rw [Nat.shiftLeft_eq, Nat.shiftLeft_eq]
      omega
    rw [Nat.sub_add_cancel hmonthPos, Nat.mod_eq_of_lt (show t.date.month < 2 ^ 32 by omega),
      Nat.mod_eq_of_lt hsmall.1, Nat.mod_eq_of_lt hsmall.2, Nat.mod_eq_of_lt (show t.date.day < 2 ^ 32 by omega),
      packed_eq (by omega) (by omega)]
    exact Nat.mod_eq_of_lt (by omega)
  have hftime : ((UInt32.ofNat t.hour <<< 11) ||| (UInt32.ofNat t.minute <<< 5) ||| (UInt32.ofNat second / 2)).toUInt16 =
      t.stamp.ftime := by
    apply UInt16.toNat_inj.mp
    rw [t.stamp_ftime]
    simp only [UInt32.toNat_toUInt16, UInt32.toNat_or, UInt32.toNat_shiftLeft, UInt32.toNat_ofNat', UInt32.toNat_div]
    show ((t.hour % 2 ^ 32) <<< 11 % 2 ^ 32 ||| (t.minute % 2 ^ 32) <<< 5 % 2 ^ 32 ||| second % 2 ^ 32 / 2) %
      2 ^ 16 = _
    have hsmall : t.hour <<< 11 < 2 ^ 32 ∧ t.minute <<< 5 < 2 ^ 32 := by
      rw [Nat.shiftLeft_eq, Nat.shiftLeft_eq]
      omega
    rw [Nat.mod_eq_of_lt (show t.hour < 2 ^ 32 by omega), Nat.mod_eq_of_lt (show t.minute < 2 ^ 32 by omega),
      Nat.mod_eq_of_lt hsmall.1, Nat.mod_eq_of_lt hsmall.2, Nat.mod_eq_of_lt (show second < 2 ^ 32 by omega), hsecond,
      packed_eq (by omega) (by omega)]
    exact Nat.mod_eq_of_lt (by omega)
  rw [hfdate, hftime]

theorem davParseHttpDate_httpDate (t : FatTime) {second : Nat} (hsecond : second / 2 = t.pair) (hle : second < 60) :
    davParseHttpDate (httpDate t.date t.hour t.minute second) = some t.stamp := by
  have hge := t.year_ge
  have hyearLe := t.year_le
  have hday : t.date.day < 100 := Nat.lt_of_le_of_lt t.day_le (by decide)
  have hyear : t.date.year < 10000 := Nat.lt_of_le_of_lt t.year_le (by decide)
  have hhour : t.hour < 100 := Nat.lt_trans t.hour_lt (by decide)
  have hminute : t.minute < 100 := Nat.lt_trans t.minute_lt (by decide)
  have hsecond' : second < 100 := Nat.lt_trans hle (by decide)
  have hmonth := month_lt t.date
  have hbuf : cstr ((httpDate t.date t.hour t.minute second).take 39) = httpDate t.date t.hour t.minute second := by
    rw [List.take_of_length_le (by rw [length_httpDate]; decide)]
    unfold cstr
    rw [List.takeWhile_eq_self_iff]
    intro c hc
    exact decide_eq_true (httpDate_nonzero hday hyear hhour hminute hsecond' c hc)
  have hcomma : (httpDate t.date t.hour t.minute second).contains 0x2C = true := by
    rw [httpDate_eq, List.contains_iff_mem]
    exact List.mem_append_right _ List.mem_cons_self
  have htail : ((httpDate t.date t.hour t.minute second).dropWhile (· ≠ 0x2C)).tail =
      0x20 :: dateTail t.date t.hour t.minute second := by
    rw [httpDate_eq, List.dropWhile_append_of_pos]
    · rfl
    · intro c hc
      exact decide_eq_true ((dayName_clean t.date.weekday_lt).2 c hc).2
  have hseconds : (readDigits 0 (twoDigits second ++ gmt)).1 = UInt32.ofNat second := by
    have hread := readDigits_two hsecond' (show isDigit 0x20 = false from rfl) [0x47, 0x4D, 0x54]
    exact congrArg Prod.fst hread
  unfold davParseHttpDate
  simp only [hbuf, hcomma, if_true, htail]
  unfold dateTail
  simp only [(twoDigits_first hday _).2, (twoDigits_first hday _).1, guard, if_true,
    readDigits_two hday (show isDigit 0x20 = false from rfl), monthName_first hmonth, monthName_found hmonth,
    List.drop_left' (monthName_clean hmonth).1, (fourDigits_first hyear _).2, (fourDigits_first hyear _).1,
    readDigits_four hyear (show isDigit 0x20 = false from rfl), (twoDigits_first hhour _).2, (twoDigits_first hhour _).1,
    readDigits_two hhour (show isDigit 0x3A = false from rfl), List.headD_cons, List.tail_cons,
    readDigits_two hminute (show isDigit 0x3A = false from rfl)]
  rw [hseconds]
  have hrange : 1980 ≤ UInt32.ofNat t.date.year ∧ UInt32.ofNat t.date.year ≤ 2107 ∧ 1 ≤ UInt32.ofNat t.date.day ∧
      UInt32.ofNat t.date.day ≤ 31 ∧ UInt32.ofNat t.hour ≤ 23 ∧ UInt32.ofNat t.minute ≤ 59 ∧
      UInt32.ofNat second ≤ 59 := by
    have hdayPos := t.date.day_pos
    have hdayLe := t.day_le
    have hhourLt := t.hour_lt
    have hminuteLt := t.minute_lt
    simp only [UInt32.le_iff_toNat_le, UInt32.toNat_ofNat']
    refine ⟨?_, ?_, ?_, ?_, ?_, ?_, ?_⟩
    · show 1980 ≤ t.date.year % 2 ^ 32
      omega
    · show t.date.year % 2 ^ 32 ≤ 2107
      omega
    · show 1 ≤ t.date.day % 2 ^ 32
      omega
    · show t.date.day % 2 ^ 32 ≤ 31
      omega
    · show t.hour % 2 ^ 32 ≤ 23
      omega
    · show t.minute % 2 ^ 32 ≤ 59
      omega
    · show second % 2 ^ 32 ≤ 59
      omega
  simp only [pure_bind, Option.bind_eq_bind, Option.bind_some]
  rw [if_pos hrange]
  exact congrArg some (parsed_words t hsecond hle)

/-- Timestamps survive.  Shifting by the configured offset and back restores the words where the first shift does not
clamp.  What is written for the words of the calendar names the day of the week that the calendar has, and is read back
to the same words.  And a date that a PROPPATCH brings, in whatever text it is read from, is given back by a PROPFIND
as the text of the same words, which for an HTTP date is that date but for an odd second. -/
theorem timestamps_survive (build : BuildDate) (offset : Int16) :
    (∀ s : Stamp, s.CalendarValid → ¬ ShiftClamps s (-offset.toInt) →
        fatShiftMinutes (fatShiftMinutes s (-offset.toInt)) offset.toInt = s) ∧
      (∀ s : Stamp, s.CalendarValid → ∃ d : Date, d.year = s.year ∧ d.month = s.month ∧ d.day = s.day ∧
        davFormatDate build 40 s = httpDate d s.hour s.minute (2 * s.pair) ∧
        davParseHttpDate (davFormatDate build 40 s) = some s) ∧
      (∀ body val s, davMemfind win32Tag body = some val → val.contains 0x3C = true →
        davParseHttpDate (val.takeWhile (· ≠ 0x3C)) = some s → s.CalendarValid → ¬ ShiftClamps s offset.toInt →
        ∃ stored, davWin32Mtime offset.toInt body = some stored ∧
          davLastModified build offset.toInt stored = davFormatDate build 40 s ∧
          davParseHttpDate (davLastModified build offset.toInt stored) = some s) ∧
      ∀ (d : Date) (hour minute second : Nat), 1980 ≤ d.year → d.year ≤ 2107 → hour < 24 → minute < 60 → second < 60 →
        ∃ s : Stamp, s.CalendarValid ∧ davParseHttpDate (httpDate d hour minute second) = some s ∧
          davFormatDate build 40 s = httpDate d hour minute (second - second % 2) := by
  have hoffset : offset.toInt.natAbs ≤ 32768 := by
    have hlow := offset.le_toInt
    have hhigh := offset.toInt_lt
    omega
  have hround : ∀ s : Stamp, s.CalendarValid → davParseHttpDate (davFormatDate build 40 s) = some s := by
    intro s hs
    obtain ⟨t, rfl⟩ := hs.exists_fatTime
    have hpair := t.pair_lt
    rw [davFormatDate_stamp]
    exact davParseHttpDate_httpDate t (by omega) (by omega)
  refine ⟨?_, ?_, ?_, ?_⟩
  · intro s hs hclamp
    obtain ⟨t, rfl⟩ := hs.exists_fatTime
    have hback := t.shift_back (show (-offset.toInt).natAbs ≤ 32768 by rwa [Int.natAbs_neg]) hclamp
    rwa [Int.neg_neg] at hback
  · intro s hs
    obtain ⟨t, rfl⟩ := hs.exists_fatTime
    obtain ⟨hyear, hmonth, hday, hhour, hminute, hpair⟩ := t.fields
    refine ⟨t.date, hyear.symm, hmonth.symm, hday.symm, ?_, hround _ hs⟩
    rw [davFormatDate_stamp, hhour, hminute, hpair]
  · intro body val s htag hends hparse hs hclamp
    obtain ⟨t, rfl⟩ := hs.exists_fatTime
    refine ⟨fatShiftMinutes t.stamp offset.toInt, ?_, ?_, ?_⟩
    · unfold davWin32Mtime
      unfold win32Tag at htag
      simp only [htag, hends, hparse, guard, if_true, Option.bind_eq_bind, Option.bind_some]
      rfl
    · unfold davLastModified
      rw [t.shift_back hoffset hclamp]
    · unfold davLastModified
      rw [t.shift_back hoffset hclamp]
      exact hround _ hs
  · intro d hour minute second hge hle hhour hminute hsecond
    let t : FatTime := ⟨d, hour, minute, second / 2, hge, hle, hhour, hminute, by omega⟩
    have heven : 2 * (second / 2) = second - second % 2 := by omega
    refine ⟨t.stamp, t.calendarValid, davParseHttpDate_httpDate t rfl hsecond, ?_⟩
    rw [davFormatDate_stamp]
    show httpDate d hour minute (2 * (second / 2)) = _
    rw [heven]

theorem one_le_one : 1 ≤ 1 := Nat.le_refl 1

theorem one_le_twelve : 1 ≤ 12 := by decide

def newYear2000 : Date :=
  { year := 2000, month := 1, day := 1, month_pos := one_le_one, month_le := one_le_twelve, day_pos := one_le_one,
    day_le := by decide }

/-- Nine o'clock on 22 July 2026, an hour east of Greenwich. -/
theorem timestamps_survive_july :
    fatShiftMinutes (fatShiftMinutes ⟨0x5CF6, 0x4800⟩ (-60)) 60 = ⟨0x5CF6, 0x4800⟩ ∧
      davParseHttpDate (davFormatDate ⟨2026, 2, 4, []⟩ 40 ⟨0x5CF6, 0x4800⟩) = some ⟨0x5CF6, 0x4800⟩ ∧
      (∃ stored, davWin32Mtime 60 (win32Tag ++ (davFormatDate ⟨2026, 2, 4, []⟩ 40 ⟨0x5CF6, 0x4800⟩ ++ [0x3C])) =
          some stored ∧
        davParseHttpDate (davLastModified ⟨2026, 2, 4, []⟩ 60 stored) = some ⟨0x5CF6, 0x4800⟩) ∧
      ∃ s : Stamp, davParseHttpDate (httpDate newYear2000 9 0 59) = some s ∧
        davFormatDate ⟨2026, 2, 4, []⟩ 40 s = httpDate newYear2000 9 0 58 := by
  have hvalid : Stamp.CalendarValid ⟨0x5CF6, 0x4800⟩ := by
    constructor
    all_goals decide
  obtain ⟨hshift, htext, hstored, hclient⟩ := timestamps_survive ⟨2026, 2, 4, []⟩ 60
  refine ⟨hshift _ hvalid (by unfold ShiftClamps; decide +kernel), ?_, ?_, ?_⟩
  · obtain ⟨-, -, -, -, -, hparse⟩ := htext _ hvalid
    exact hparse
  · obtain ⟨stored, hset, -, hparse⟩ := hstored
      (win32Tag ++ (davFormatDate ⟨2026, 2, 4, []⟩ 40 ⟨0x5CF6, 0x4800⟩ ++ [0x3C]))
      (davFormatDate ⟨2026, 2, 4, []⟩ 40 ⟨0x5CF6, 0x4800⟩ ++ [0x3C]) _ (by decide +kernel) (by decide +kernel)
      (by decide +kernel) hvalid (by unfold ShiftClamps; decide +kernel)
    exact ⟨stored, hset, hparse⟩
  · obtain ⟨s, -, hparse, hformat⟩ :=
      hclient newYear2000 9 0 59 (by decide) (by decide) (by decide) (by decide) (by decide)
    exact ⟨s, hparse, hformat⟩

end Pi1MHz.Ws
