import Mathlib.Algebra.Order.Ring.Nat
import Mathlib.Data.List.Basic

/-!
# The web server: text

The text helpers of `webserver.c` over the bytes of a C string, which are those before its NUL.
A fixed buffer of `n` bytes holds a string of at most `n - 1`; each helper keeps its own rule for
what does not fit.
-/

namespace Pi1MHz.Ws

abbrev Str := List UInt8

def lit (s : List Char) : Str := s.map fun c => UInt8.ofNat c.toNat

def cstr (bytes : List UInt8) : Str := bytes.takeWhile (· ≠ 0)

def WS_PATH_MAX : Nat := 512

def wsLc (c : UInt8) : UInt8 := if 0x41 ≤ c ∧ c ≤ 0x5A then c + 32 else c

/-- `ws_prefix_ci`; the read stops at the end of the string, where the NUL differs. -/
def wsPrefixCi : Str → Str → Bool
  | _, [] => true
  | [], _ :: _ => false
  | c :: s, p :: pre => wsLc c == wsLc p && wsPrefixCi s pre

def wsStrcasestr : Str → Str → Bool
  | [], needle => needle.isEmpty
  | c :: hay, needle => wsPrefixCi (c :: hay) needle || wsStrcasestr hay needle

def isDigit (c : UInt8) : Bool := 0x30 ≤ c && c ≤ 0x39

def wsHexval (c : UInt8) : Option UInt8 :=
  if 0x30 ≤ c ∧ c ≤ 0x39 then some (c - 0x30)
  else if 0x61 ≤ c ∧ c ≤ 0x66 then some (c - 0x61 + 10)
  else if 0x41 ≤ c ∧ c ≤ 0x46 then some (c - 0x41 + 10)
  else none

def wsPrintable (c : UInt8) : UInt8 := if c < 0x20 ∨ c = 0x7F then 0x5F else c

def wsUnescape (c : UInt8) (rest : Str) : UInt8 × Str :=
  match c, rest with
  | 0x25, hi :: lo :: tail =>
      match wsHexval hi, wsHexval lo with
      | some h, some l => ((h <<< 4) ||| l, tail)
      | _, _ => (c, rest)
  | _, _ => (c, rest)

/-- `ws_url_decode` with `room` bytes left before the NUL: the decoded bytes, and whether the
whole input fitted. -/
def wsUrlDecode : Nat → Str → Str × Bool
  | _, [] => ([], true)
  | 0, _ :: _ => ([], false)
  | room + 1, c :: rest =>
      let r := wsUrlDecode room (wsUnescape c rest).2
      (wsPrintable (wsUnescape c rest).1 :: r.1, r.2)

def wsTokenByte (c : UInt8) : Bool := c ≠ 0x20 && c ≠ 0x0D && c ≠ 0x0A

/-- `ws_parse_request_line` into buffers of `msz` and `psz` bytes; what does not fit is cut off. -/
def wsParseRequestLine (hdr : Str) (msz psz : Nat) : Option (Str × Str) :=
  let method := hdr.takeWhile wsTokenByte
  let rest := hdr.dropWhile wsTokenByte
  if rest.head? ≠ some 0x20 then none
  else
    let path := ((rest.dropWhile (· = 0x20)).takeWhile wsTokenByte).take (psz - 1)
    if path = [] then none else some (method.take (msz - 1), path)

def wsBlank (c : UInt8) : Bool := c == 0x20 || c == 0x09

def wsHeaderAt (name line : Str) : Bool :=
  decide (name.length < line.length) && wsPrefixCi line name && line.getD name.length 0 == 0x3A

/-- The value of the header line that starts here, in a buffer of `osz` bytes. -/
def wsHeaderValue (name : Str) (osz : Nat) (line : Str) : Str :=
  cstr ((((line.drop (name.length + 1)).dropWhile wsBlank).takeWhile
    fun c => c ≠ 0x0D && c ≠ 0x0A).take (osz - 1))

/-- The scan of `ws_find_header`; `start` says that a line starts here. -/
def wsFindHeaderFrom (name : Str) (osz : Nat) : Bool → List UInt8 → Option Str
  | _, [] => none
  | start, c :: rest =>
      if start && wsHeaderAt name (c :: rest) then some (wsHeaderValue name osz (c :: rest))
      else wsFindHeaderFrom name osz (c == 0x0A) rest

/-- `ws_find_header` over the bytes `hdr[0..limit)`; the request line is skipped. -/
def wsFindHeader (hdr : List UInt8) (name : Str) (osz : Nat) : Option Str :=
  wsFindHeaderFrom name osz false hdr

theorem cstr_take (bytes : List UInt8) (n : Nat) : cstr (bytes.take n) = (cstr bytes).take n :=
  List.take_takeWhile.symm

/-- A buffer keeps the beginning of the value of a header field. -/
theorem wsFindHeaderFrom_cut (name : Str) (start : Bool) {s : List UInt8} {n : Nat} (hn : s.length ≤ n) (osz : Nat) :
    wsFindHeaderFrom name osz start s = (wsFindHeaderFrom name (n + 1) start s).map (·.take (osz - 1)) := by
  induction s generalizing start with
  | nil => rfl
  | cons c s ih =>
    rw [wsFindHeaderFrom, wsFindHeaderFrom]
    by_cases hat : (start && wsHeaderAt name (c :: s)) = true
    · rw [if_pos hat, if_pos hat, Option.map_some]
      apply congrArg some
      unfold wsHeaderValue
      have hle : ((((c :: s).drop (name.length + 1)).dropWhile wsBlank).takeWhile
          fun c => c ≠ 0x0D && c ≠ 0x0A).length ≤ n := by
        have htake := (List.takeWhile_prefix (fun c => c ≠ (0x0D : UInt8) && c ≠ 0x0A)
          (l := ((c :: s).drop (name.length + 1)).dropWhile wsBlank)).length_le
        have hdrop := (List.dropWhile_suffix wsBlank (l := (c :: s).drop (name.length + 1))).length_le
        rw [List.length_drop] at hdrop
        omega
      rw [Nat.add_sub_cancel, List.take_of_length_le hle, cstr_take]
    · rw [if_neg hat, if_neg hat]
      exact ih _ (Nat.le_of_succ_le hn)

end Pi1MHz.Ws
