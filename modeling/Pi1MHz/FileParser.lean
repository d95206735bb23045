import Mathlib.Data.List.TakeWhile
import Mathlib.Tactic.Common

/-!
# Attribute files

`parse_readfile` of `fileparser.c`.  One scanner reads a file into values and, when it is given an output
file, writes the values it is given over the texts that it finds.
-/

namespace Pi1MHz.FileParser

inductive ParserKeyValueType
  | numString
  | string
  | integer
deriving DecidableEq, Repr

structure ParserKey where
  key : List UInt8
  min : Int
  max : Int
  type : ParserKeyValueType

structure ParserKeyValue where
  length : Nat := 0
  string : List UInt8 := []
  integer : Int := 0
deriving DecidableEq, Repr

/-! ### Bytes -/

def isBlank (c : UInt8) : Bool := c ≤ 0x20

def isEol (c : UInt8) : Bool := c == 0x0A || c == 0x0D

def notEol (c : UInt8) : Bool := !isEol c

def isSeparator (c : UInt8) : Bool := c == 0x20 || c == 0x09 || c == 0x3D

def endsKey (c : UInt8) : Bool := c == 0 || isEol c || isSeparator c || c == 0x23

def tolower (c : UInt8) : UInt8 := if 0x41 ≤ c ∧ c ≤ 0x5A then c + 0x20 else c

def isHexDigit (c : UInt8) : Bool :=
  (0x30 ≤ c && c ≤ 0x39) || (0x41 ≤ c && c ≤ 0x46) || (0x61 ≤ c && c ≤ 0x66)

def hexDigit (c : UInt8) : UInt8 :=
  if 0x30 ≤ c ∧ c ≤ 0x39 then c - 0x30
  else if 0x41 ≤ c ∧ c ≤ 0x46 then c - 0x41 + 10
  else if 0x61 ≤ c ∧ c ≤ 0x66 then c - 0x61 + 10
  else 0

def localstrcasecmp : List UInt8 → List UInt8 → Bool
  | [], [] => true
  | [], c :: _ => endsKey c
  | _ :: _, [] => false
  | k :: key, c :: rest => tolower k == tolower c && localstrcasecmp key rest

def parseFindindex (keys : List ParserKey) (searchkey : List UInt8) : Option Nat :=
  keys.findIdx? fun k => localstrcasecmp k.key searchkey

def numByte (c : UInt8) : Bool := 0x20 < c && c != 0x23

def strByte (c : UInt8) : Bool := 0x20 ≤ c && c != 0x23

/-- `nonnumber` and the length of a hex string, from its byte `n` on. -/
def numStrlen : Nat → Int → List UInt8 → Nat × Int
  | n, nonnumber, [] => (n, nonnumber)
  | n, nonnumber, c :: rest =>
      if numByte c then
        numStrlen (n + 1)
          (if isHexDigit c then nonnumber
            else if c = 0x78 ∨ c = 0x58 then (if nonnumber = 0 ∧ n = 1 then 1 else -1)
            else -1)
          rest
      else (n, nonnumber)

def parseNumstrlen (buf : List UInt8) : Nat × Int := numStrlen 0 0 buf

def parseStrlen (buf : List UInt8) : Nat := (buf.takeWhile strByte).length

def digitValue (c : UInt8) : Option Nat := if isHexDigit c then some (hexDigit c).toNat else none

def digitsOf (base : Nat) : Nat → List UInt8 → Nat
  | acc, [] => acc
  | acc, c :: rest =>
      match digitValue c with
      | some d => if d < base then digitsOf base (acc * base + d) rest else acc
      | none => acc

def isSpace (c : UInt8) : Bool := (0x09 ≤ c && c ≤ 0x0D) || c == 0x20

/-- The base and the digits of an unsigned number of `strtol(.., 0, 0)`. -/
def unsignedOf : List UInt8 → Nat
  | 0x30 :: x :: d :: rest =>
      if (x = 0x78 ∨ x = 0x58) ∧ isHexDigit d then digitsOf 16 0 (d :: rest) else digitsOf 8 0 (x :: d :: rest)
  | 0x30 :: rest => digitsOf 8 0 rest
  | text => digitsOf 10 0 text

/-- `strtol(.., 0, 0)`, which ends at the limits of 32 bits. -/
def strtol (text : List UInt8) : Int :=
  match text.dropWhile isSpace with
  | 0x2D :: rest => max (-0x80000000) (-(unsignedOf rest : Int))
  | 0x2B :: rest => min 0x7FFFFFFF (unsignedOf rest : Int)
  | rest => min 0x7FFFFFFF (unsignedOf rest : Int)

def digitsText (n : Nat) : List UInt8 := (Nat.toDigits 10 n).map fun c => UInt8.ofNat c.toNat

/-- `"%d"`. -/
def integerText : Int → List UInt8
  | .ofNat n => digitsText n
  | .negSucc n => 0x2D :: digitsText (n + 1)

def nibbleText (n : UInt8) : UInt8 := if n < 10 then n + 0x30 else n + 0x41 - 10

def hexText (bytes : List UInt8) : List UInt8 :=
  bytes.flatMap fun b : UInt8 => [nibbleText (b >>> 4 &&& 0x0F), nibbleText (b &&& 0x0F)]

/-! ### The scanner -/

structure Scan where
  rest : List UInt8
  out : List UInt8
  values : Nat → ParserKeyValue

def outPutc (outcap : Nat) (out : List UInt8) (c : UInt8) : List UInt8 :=
  if out.length < outcap then out ++ [c] else out

def outPuts (outcap : Nat) (out bytes : List UInt8) : List UInt8 := bytes.foldl (outPutc outcap) out

namespace Scan

variable (outcap : Nat)

def copyWhile (p : UInt8 → Bool) (s : Scan) : Scan :=
  { s with rest := s.rest.dropWhile p, out := outPuts outcap s.out (s.rest.takeWhile p) }

def copy (n : Nat) (s : Scan) : Scan :=
  { s with rest := s.rest.drop n, out := outPuts outcap s.out (s.rest.take n) }

def afterKey (s : Scan) : Scan × Bool :=
  let s := s.copyWhile outcap isSeparator
  match s.rest with
  | [] => (s, false)
  | c :: _ =>
      if c = 0x23 then (s.copyWhile outcap notEol, false)
      else if isEol c then (s.copy outcap 1, false)
      else (s, true)

/-- A value is written over its text; `snprintf` leaves room for its NUL. -/
def writeValue (k : ParserKey) (v : ParserKeyValue) (s : Scan) : Scan :=
  if v.length = 0 then s
  else
    match k.type with
    | .numString =>
        { s with
          rest := s.rest.drop (parseNumstrlen s.rest).1
          out := outPuts outcap s.out (hexText (v.string.take v.length)) }
    | .string =>
        { s with
          rest := s.rest.drop (parseStrlen s.rest)
          out := outPuts outcap s.out (v.string.take v.length) }
    | .integer =>
        { s with
          rest := s.rest.drop (parseStrlen s.rest)
          out := if (integerText v.integer).length < outcap - s.out.length then s.out ++ integerText v.integer
            else s.out }

end Scan

def hexBytes : Nat → List UInt8 → List UInt8
  | n + 1, hi :: lo :: rest => (hexDigit hi <<< 4 ||| hexDigit lo) :: hexBytes n rest
  | _, _ => []

/-- A hex string with its `0x` stripped off, and an odd digit padded. -/
def paddedDigits (buf : List UInt8) : List UInt8 :=
  let digits := buf.take (parseNumstrlen buf).1
  let digits := if (parseNumstrlen buf).2 = 1 then digits.drop 2 else digits
  if digits.length % 2 = 1 then 0x30 :: digits else digits

/-- A hex string is cut to the key's maximum, and filled up with zeros to it.  No `malloc` gives a negative
maximum. -/
def readNumString (k : ParserKey) (v : ParserKeyValue) (buf : List UInt8) : ParserKeyValue :=
  if (parseNumstrlen buf).2 < 0 ∨ k.max < 0 then v
  else
    let maxbytes := k.max.toNat
    let nbytes := min ((paddedDigits buf).length / 2) maxbytes
    { v with
      length := nbytes
      string := hexBytes nbytes (paddedDigits buf) ++ List.replicate (maxbytes - nbytes) 0 }

/-- A negative maximum is a large `size_t`. -/
def readString (k : ParserKey) (v : ParserKeyValue) (buf : List UInt8) : ParserKeyValue :=
  let len := parseStrlen buf
  let copylen := if 0 ≤ k.max ∧ k.max.toNat < len then k.max.toNat else len
  { v with length := copylen, string := buf.take copylen }

def clamp (k : ParserKey) (parsed : Int) : Int :=
  let parsed := if parsed < k.min then k.min else parsed
  if k.max < parsed then k.max else parsed

def readInteger (k : ParserKey) (v : ParserKeyValue) (buf : List UInt8) : ParserKeyValue :=
  { v with length := 1, integer := clamp k (strtol buf) }

def readValue (k : ParserKey) (v : ParserKeyValue) (buf : List UInt8) : ParserKeyValue :=
  match k.type with
  | .numString => readNumString k v buf
  | .string => readString k v buf
  | .integer => readInteger k v buf

def valueLen (k : ParserKey) (buf : List UInt8) : Nat :=
  match k.type with
  | .numString => (parseNumstrlen buf).1
  | _ => parseStrlen buf

namespace Scan

variable (outcap : Nat)

def readInto (k : ParserKey) (i : Nat) (s : Scan) : Scan :=
  { s with
    rest := s.rest.drop (valueLen k s.rest)
    values := Function.update s.values i (readValue k (s.values i) s.rest) }

def parseLine (write : Bool) (keys : List ParserKey) (s : Scan) : Scan :=
  let s := s.copyWhile outcap isBlank
  match s.rest with
  | [] => s
  | c :: _ =>
      if c = 0x23 then s.copyWhile outcap notEol
      else
        match parseFindindex keys s.rest with
        | none => s.copyWhile outcap notEol
        | some i =>
            match keys[i]? with
            | none => s
            | some k =>
                let s := s.copy outcap k.key.length
                let found := s.afterKey outcap
                if found.2 = false then found.1
                else if write then (found.1.writeValue outcap k (found.1.values i)).copyWhile outcap notEol
                else (found.1.readInto k i).copyWhile outcap notEol

/-- `while (ptr < filesize)`, for at most `fuel` turns. -/
def parseLoop (write : Bool) (keys : List ParserKey) : Nat → Scan → Option Scan
  | 0, s => if s.rest = [] then some s else none
  | fuel + 1, s =>
      if s.rest = [] then some s else parseLoop write keys fuel (s.parseLine outcap write keys)

end Scan

def PARSE_MAX_FILE_SIZE : Nat := 256 * 1024

/-- What `parse_readfile` returns, the values, and what it gave to `filesystemWriteFile`. -/
structure Parsed where
  result : Int
  values : Nat → ParserKeyValue
  written : Option (List UInt8)

def parseReadfile (fuel : Nat) (keys : List ParserKey) (values : Nat → ParserKeyValue) (write : Bool)
    (file : List UInt8) : Option Parsed :=
  if file = [] ∨ PARSE_MAX_FILE_SIZE < file.length then some ⟨0, values, none⟩
  else
    (Scan.parseLoop (4 * file.length) write keys fuel ⟨file, [], values⟩).map fun s =>
      ⟨1, s.values, if write then some s.out else none⟩

end Pi1MHz.FileParser
