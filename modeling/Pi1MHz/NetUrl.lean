import Pi1MHz.NetTelnet
import Pi1MHz.NetTnfs
import Pi1MHz.FinSizes

/-!
# URLs of the N: device

The parser of `net_service.c` for `scheme://host[:port][/path]`, over the bytes of the C string
the Beeb left in the command block, and the dotted quads taken without asking the resolver.
-/

namespace Pi1MHz.Net

open FinSizes

def chars (s : List Char) : List UInt8 := s.map fun c => UInt8.ofNat c.toNat

/-- Upper case, as `net_ci_eq` folds it. -/
def upper (c : UInt8) : UInt8 := if 0x61 ≤ c ∧ c ≤ 0x7A then c - 32 else c

def netCiEq (s lit : List UInt8) : Bool := s.map upper == lit

def isDigit (c : UInt8) : Bool := decide (0x30 ≤ c) && decide (c ≤ 0x39)

def netParseDottedFrom : List UInt8 → List Nat → Nat → Nat → Option Ip
  | [], oct, v, digits =>
      if digits = 0 ∨ 4 ≤ oct.length then none
      else
        match oct ++ [v] with
        | [a, b, c, d] =>
            some (ipOfBytes (UInt8.ofNat a) (UInt8.ofNat b) (UInt8.ofNat c) (UInt8.ofNat d))
        | _ => none
  | c :: rest, oct, v, digits =>
      if isDigit c then
        let v := v * 10 + (c.toNat - 0x30)
        if v > 255 ∨ digits + 1 > 3 then none else netParseDottedFrom rest oct v (digits + 1)
      else if c = 0x2E then
        if digits = 0 ∨ 4 ≤ oct.length then none else netParseDottedFrom rest (oct ++ [v]) 0 0
      else none

def netParseDotted (s : List UInt8) : Option Ip := netParseDottedFrom s [] 0 0

structure Url where
  adapter : UrlAdapter
  port : UInt16
  host : List UInt8
  path : List UInt8
deriving DecidableEq, Repr

/-- Split at the first `://`. -/
def splitScheme : List UInt8 → Option (List UInt8 × List UInt8)
  | [] => none
  | c :: rest =>
      if c = 0x3A ∧ rest.take 2 = [0x2F, 0x2F] then some ([], rest.drop 2)
      else (splitScheme rest).map fun p => (c :: p.1, p.2)

def urlScheme (s : List UInt8) : Option (UrlAdapter × UInt16) :=
  if netCiEq s (chars ['H', 'T', 'T', 'P']) then some (.http, 80)
  else if netCiEq s (chars ['T', 'C', 'P']) then some (.tcp, 0)
  else if netCiEq s (chars ['U', 'D', 'P']) then some (.udp, 0)
  else if netCiEq s (chars ['T', 'N', 'F', 'S']) then some (.tnfs, TNFS_PORT)
  else if netCiEq s (chars ['T', 'E', 'L', 'N', 'E', 'T']) then some (.telnet, TELNET_PORT)
  else none

def isControl (c : UInt8) : Bool := decide (c < 0x20) || c == 0x7F

def urlPortFrom : List UInt8 → Nat → Option (Nat × List UInt8)
  | [], port => some (port, [])
  | c :: rest, port =>
      if isDigit c then
        let port := port * 10 + (c.toNat - 0x30)
        if port > 65535 then none else urlPortFrom rest port
      else some (port, c :: rest)

def urlPort (dflt : UInt16) : List UInt8 → Option (UInt16 × List UInt8)
  | [] => some (dflt, [])
  | c :: rest =>
      if c = 0x3A then
        (urlPortFrom rest 0).bind fun p => if p.1 = 0 then none else some (UInt16.ofNat p.1, p.2)
      else some (dflt, c :: rest)

def urlPath (pathSz : Nat) : List UInt8 → Option (List UInt8)
  | [] => if pathSz < 2 then none else some [0x2F]
  | c :: rest =>
      if c = 0x2F then
        if (c :: rest).length ≥ pathSz then none
        else if (c :: rest).any isControl then none
        else some (c :: rest)
      else none

def netUrlParse (url : List UInt8) (hostSz pathSz : Nat) : Option Url :=
  (splitScheme url).bind fun (scheme, rest) =>
  (urlScheme scheme).bind fun (adapter, dflt) =>
  let host := rest.takeWhile fun c => c ≠ 0x3A && c ≠ 0x2F
  let rest := rest.dropWhile fun c => c ≠ 0x3A && c ≠ 0x2F
  if host = [] ∨ host.length ≥ hostSz then none
  else if host.any isControl then none
  else
    (urlPort dflt rest).bind fun (port, rest) =>
    if port = 0 then none
    else (urlPath pathSz rest).map fun path => ⟨adapter, port, host, path⟩

def httpRequest (host path : List UInt8) : Option (List UInt8) :=
  let req :=
    chars ['G', 'E', 'T', ' '] ++ path
      ++ chars [' ', 'H', 'T', 'T', 'P', '/', '1', '.', '0', '\r', '\n', 'H', 'o', 's', 't', ':', ' ']
      ++ host
      ++ chars ['\r', '\n', 'C', 'o', 'n', 'n', 'e', 'c', 't', 'i', 'o', 'n', ':', ' ', 'c', 'l', 'o',
        's', 'e', '\r', '\n', '\r', '\n']
  if req.length ≥ NET_MAX_HOSTNAME + 256 then none else some req

def httpHeadersEnd : List UInt8 → Nat → Nat
  | [], _ => 0
  | c :: rest, i =>
      if (c :: rest).take 4 = [0x0D, 0x0A, 0x0D, 0x0A] then i + 4 else httpHeadersEnd rest (i + 1)

def netHttpFindHeaders (h : Handle) : Nat := httpHeadersEnd (h.ring.front h.ring.count) 0

def httpStatus : List UInt8 → Bool → UInt16 → UInt16
  | [], _, code => code
  | c :: rest, afterSpace, code =>
      if afterSpace = false then httpStatus rest (c == 0x20) code
      else if isDigit c then httpStatus rest true (code * 10 + (c.toUInt16 - 0x30))
      else code

def netHttpParseStatus (h : Handle) : Handle :=
  { h with httpCode := httpStatus (h.ring.front (min h.ring.count 64)) false 0 }

end Pi1MHz.Net
