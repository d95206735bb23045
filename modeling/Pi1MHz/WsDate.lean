import Mathlib.Data.Int.Notation
import Pi1MHz.WsCard

/-!
# The web server: dates sent by a client

Windows Explorer sends the date of a file in the body of a PROPPATCH.  `dav_win32_mtime` is the part
of `dav_apply_win32_mtime` that finds it, reads it and turns it into the date of a directory entry.
-/

namespace Pi1MHz.Ws

def davMemfind (needle : List UInt8) : List UInt8 → Option (List UInt8)
  | [] => none
  | b :: hay =>
      if needle.isPrefixOf (b :: hay) then some ((b :: hay).drop needle.length)
      else davMemfind needle hay

/-- A run of digits, in the arithmetic of `unsigned`. -/
def readDigits : UInt32 → Str → UInt32 × Str
  | n, [] => (n, [])
  | n, c :: rest => if isDigit c then readDigits (n * 10 + (c - 0x30).toUInt32) rest else (n, c :: rest)

def months : List Str :=
  [lit ['J', 'a', 'n'], lit ['F', 'e', 'b'], lit ['M', 'a', 'r'], lit ['A', 'p', 'r'],
    lit ['M', 'a', 'y'], lit ['J', 'u', 'n'], lit ['J', 'u', 'l'], lit ['A', 'u', 'g'],
    lit ['S', 'e', 'p'], lit ['O', 'c', 't'], lit ['N', 'o', 'v'], lit ['D', 'e', 'c']]

def skipBlanks (s : Str) : Str := s.dropWhile (· == 0x20)

def davParseHttpDate (s : List UInt8) : Option Stamp := do
  let buf := cstr (s.take 39)
  -- the weekday in front of the comma is skipped
  let p := skipBlanks (if buf.contains 0x2C then (buf.dropWhile (· ≠ 0x2C)).tail else buf)
  guard (isDigit (p.headD 0))
  let (day, p) := readDigits 0 p
  let p := skipBlanks p
  let month ← months.findIdx? fun m => m.isPrefixOf p
  let p := skipBlanks (p.drop 3)
  guard (isDigit (p.headD 0))
  let (year, p) := readDigits 0 p
  let p := skipBlanks p
  guard (isDigit (p.headD 0))
  let (hh, p) := readDigits 0 p
  guard (p.headD 0 = 0x3A)
  let (mm, p) := readDigits 0 p.tail
  guard (p.headD 0 = 0x3A)
  let (ss, _) := readDigits 0 p.tail
  guard (1980 ≤ year ∧ year ≤ 2107 ∧ 1 ≤ day ∧ day ≤ 31 ∧ hh ≤ 23 ∧ mm ≤ 59 ∧ ss ≤ 59)
  return ⟨(((year - 1980) <<< 9) ||| (UInt32.ofNat (month + 1) <<< 5) ||| day).toUInt16,
    ((hh <<< 11) ||| (mm <<< 5) ||| (ss / 2)).toUInt16⟩

def daysFromCivil (year month day : Int) : Int :=
  let y := year - (if month ≤ 2 then 1 else 0)
  let era := (if 0 ≤ y then y else y - 399).tdiv 400
  let yoe := y - era * 400
  let doy := (153 * (month + (if 2 < month then -3 else 9)) + 2).tdiv 5 + day - 1
  let doe := yoe * 365 + yoe.tdiv 4 - yoe.tdiv 100 + doy
  era * 146097 + doe - 719468

def civilFromDays (days : Int) : Int × Int × Int :=
  let z := days + 719468
  let era := (if 0 ≤ z then z else z - 146096).tdiv 146097
  let doe := z - era * 146097
  let yoe := (doe - doe.tdiv 1460 + doe.tdiv 36524 - doe.tdiv 146096).tdiv 365
  let doy := doe - (365 * yoe + yoe.tdiv 4 - yoe.tdiv 100)
  let mp := (5 * doy + 2).tdiv 153
  let month := mp + (if mp < 10 then 3 else -9)
  (yoe + era * 400 + (if month ≤ 2 then 1 else 0), month, doy - (153 * mp + 2).tdiv 5 + 1)

def packStamp (year month day hh mm ss2 : Int) : Stamp :=
  ⟨UInt16.ofNat ((year - 1980).toNat * 512 + month.toNat * 32 + day.toNat),
    UInt16.ofNat (hh.toNat * 2048 + mm.toNat * 32 + ss2.toNat)⟩

def fatShiftMinutes (stamp : Stamp) (minutes : Int) : Stamp :=
  if minutes = 0 ∨ stamp.fdate = 0 then stamp
  else
    let year : Int := 1980 + ((stamp.fdate >>> 9) &&& 0x7F).toNat
    let month : Int := ((stamp.fdate >>> 5) &&& 0x0F).toNat
    let day : Int := (stamp.fdate &&& 0x1F).toNat
    let hh : Int := ((stamp.ftime >>> 11) &&& 0x1F).toNat
    let mm : Int := ((stamp.ftime >>> 5) &&& 0x3F).toNat
    let ss2 : Int := (stamp.ftime &&& 0x1F).toNat
    let days := daysFromCivil year (max month 1) (max day 1)
    let total := days * 1440 + hh * 60 + mm + minutes
    let quot := total.tdiv 1440
    let left := total - quot * 1440
    let ndays := if left < 0 then quot - 1 else quot
    let minofday := if left < 0 then left + 1440 else left
    let (year', month', day') := civilFromDays ndays
    if year' < 1980 then packStamp 1980 1 1 0 0 0
    else if 2107 < year' then packStamp 2107 12 31 23 59 29
    else packStamp year' month' day' (minofday.tdiv 60) (minofday.tmod 60) ss2

def davWin32Mtime (utcOffset : Int) (body : List UInt8) : Option Stamp := do
  let val ← davMemfind (lit ['W', 'i', 'n', '3', '2', 'L', 'a', 's', 't', 'M', 'o', 'd', 'i', 'f', 'i',
    'e', 'd', 'T', 'i', 'm', 'e', '>']) body
  guard (val.contains 0x3C)
  let stamp ← davParseHttpDate (val.takeWhile (· ≠ 0x3C))
  return fatShiftMinutes stamp utcOffset

/-- 22 July 2026, nine o'clock. -/
example : davParseHttpDate (lit ['W', 'e', 'd', ',', ' ', '2', '2', ' ', 'J', 'u', 'l', ' ', '2', '0', '2',
    '6', ' ', '0', '9', ':', '0', '0', ':', '0', '0', ' ', 'G', 'M', 'T']) = some ⟨0x5CF6, 0x4800⟩ := by
  decide +kernel

end Pi1MHz.Ws
