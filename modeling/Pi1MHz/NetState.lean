import Pi1MHz.RingStream
import Mathlib.Data.Fin.Basic
import Pi1MHz.FinSizes

/-!
# The net service: state and the stack it drives

The data model of `net_service.c`: a table of eight handles, each with its receive ring, and
the part of lwIP the service can observe.

The JIM memory is an argument of each command, as the Beeb may write it in between; `Stack` is the
pcbs and queries lwIP keeps for the service, and `Answers` what it and the clock answer.
-/

namespace Pi1MHz.Net

open RingStream (Ring)
open FinSizes

/-! ### Constants -/

abbrev NET_MAX_HANDLES : Nat := 8
abbrev NET_RX_RING_SIZE : Nat := 8192
def NET_MAX_HOSTNAME : Nat := 256

def TNFS_REQ_MAX : Nat := 256
def TNFS_PKT_MAX : Nat := 600
def TNFS_RETRIES : Nat := 4
def TNFS_EAGAIN_MAX : Nat := 8
def TNFS_TIMEOUT_MS : UInt16 := 800
def TNFS_READ_CHUNK : Nat := 512
def TNFS_WRITE_CHUNK : Nat := 240

def NET_OPEN_WRITE : UInt8 := 8
def NET_OPEN_RW : UInt8 := 12
def NET_OPEN_DIR : UInt8 := 13

def NET_FLAG_CONNECTED : UInt8 := 0x01
def NET_FLAG_RX_EOF : UInt8 := 0x02
def NET_FLAG_ERROR : UInt8 := 0x04
def NET_FLAG_RX_READY : UInt8 := 0x08

/-- `JIM_RAM_STEP` is 16 MiB. -/
def DISC_RAM_SIZE : Nat := 2 * (16 * 1024 * 1024)

inductive Result where
  | ok | pending | eof
  | errInuse | errNotopen | errParam | errDns | errConn | errNomem | errUnsupported | errDisabled
deriving DecidableEq, Repr

def Result.code : Result → UInt8
  | .ok => 0x00
  | .pending => 0x01
  | .eof => 0x20
  | .errInuse => 0x21
  | .errNotopen => 0x22
  | .errParam => 0x23
  | .errDns => 0x24
  | .errConn => 0x25
  | .errNomem => 0x26
  | .errUnsupported => 0x27
  | .errDisabled => 0x28

/-- `last_err ? last_err : NET_ERR_CONN`. -/
def Result.orConn (r : Result) : Result := if r = .ok then .errConn else r

/-- `net_state_t`. -/
inductive NetSt where
  | free | idle | resolving | connecting | connected | listening | closing | error
deriving DecidableEq, Repr

def NetSt.code : NetSt → UInt8
  | .free => 0
  | .idle => 1
  | .resolving => 2
  | .connecting => 3
  | .connected => 4
  | .listening => 5
  | .closing => 6
  | .error => 7

inductive NetType where
  | tcp | udp
deriving DecidableEq, Repr

def NetType.ofByte (b : UInt8) : Option NetType :=
  if b = 0 then some .tcp else if b = 1 then some .udp else none

/-- `NET_URL_*`. -/
inductive UrlAdapter where
  | tcp | udp | http | tnfs | telnet
deriving DecidableEq, Repr

/-- `URL_*`: the open state machine of the N: device. -/
inductive UrlPhase where
  | start | resolving | connecting | ready | fail
deriving DecidableEq, Repr

/-- `TNFS_PH_*`. -/
inductive TnfsPhase where
  | idle | mount | open | ready | reading | writing
deriving DecidableEq, Repr

inductive TelnetSt where
  | data | iac | opt | sb | sbIac | cr
deriving DecidableEq, Repr

structure Telnet where
  state : TelnetSt := .data
  cmd : UInt8 := 0
  seen : UInt8 → Bool := fun _ => false

/-! ### Handles -/

abbrev Ip := UInt32

/-- The fields of `net_handle_t` that say what a handle is connected to: its state, its pcbs,
what the resolver told it and its backlog.  The defaults, here and below, are the zeros of
`memset`. -/
structure Link where
  state : NetSt := .free
  type : NetType := .tcp
  isUrl : Bool := false
  urlAdapter : UrlAdapter := .tcp
  urlPhase : UrlPhase := .start
  tpcb : Option Nat := none
  upcb : Option Nat := none
  remoteIp : Ip := 0
  remotePort : UInt16 := 0
  dnsDone : Bool := false
  dnsOk : Bool := false
  dnsIp : Ip := 0
  acceptReady : Bool := false
  acceptH : Fin NET_MAX_HANDLES := 0

structure TnfsSession where
  tnfsPhase : TnfsPhase := .idle
  tnfsSeq : UInt8 := 0
  tnfsFd : UInt8 := 0
  tnfsIsDir : Bool := false
  tnfsWr : Bool := false
  tnfsRetries : Nat := 0
  tnfsEagain : Nat := 0
  tnfsConnid : UInt16 := 0
  tnfsRetryMs : UInt16 := 0
  tnfsDeadline : UInt32 := 0
  /-- The `tnfs_req_len` bytes of the buffered request. -/
  tnfsReq : List UInt8 := []

/-- `net_handle_t`, with the receive ring of the same index. -/
structure Handle extends Link, TnfsSession where
  lastErr : Result := .ok
  rxEof : Bool := false
  rxParked : Bool := false
  httpHdrDone : Bool := false
  httpCode : UInt16 := 0
  bindPort : UInt16 := 0
  telnet : Telnet := {}
  ring : Ring UInt8 NET_RX_RING_SIZE

/-- `net_handle_reset`: the record is zeroed, the ring's memory is not. -/
def Handle.reset (h : Handle) : Handle := { ring := h.ring.clear }

/-! ### JIM memory -/

abbrev Jim := Nat → UInt8

/-- Overwrite memory from `off` on. -/
def Jim.store (jim : Jim) (off : Nat) (bytes : List UInt8) : Jim :=
  fun x => if off ≤ x ∧ x < off + bytes.length then bytes.getD (x - off) 0 else jim x

/-- The `len` bytes from `off` on. -/
def Jim.load (jim : Jim) (off len : Nat) : List UInt8 := (List.range len).map fun k => jim (off + k)

def le16 (v : UInt16) : List UInt8 := [v.toUInt8, (v >>> 8).toUInt8]

def rd16 (lo hi : UInt8) : UInt16 := lo.toUInt16 ||| (hi.toUInt16 <<< 8)

def ipBytes (ip : Ip) : List UInt8 :=
  [ip.toUInt8, (ip >>> 8).toUInt8, (ip >>> 16).toUInt8, (ip >>> 24).toUInt8]

def ipOfBytes (b0 b1 b2 b3 : UInt8) : Ip :=
  b0.toUInt32 ||| (b1.toUInt32 <<< 8) ||| (b2.toUInt32 <<< 16) ||| (b3.toUInt32 <<< 24)

def Jim.rd16 (jim : Jim) (off : Nat) : UInt16 := Net.rd16 (jim off) (jim (off + 1))

def Jim.rd24 (jim : Jim) (off : Nat) : Nat :=
  (jim off).toNat + 2 ^ 8 * (jim (off + 1)).toNat + 2 ^ 16 * (jim (off + 2)).toNat

def Jim.rd32 (jim : Jim) (off : Nat) : Nat := jim.rd24 off + 2 ^ 24 * (jim (off + 3)).toNat

def Jim.wr24 (jim : Jim) (off v : Nat) : Jim :=
  jim.store off [UInt8.ofNat v, UInt8.ofNat (v / 2 ^ 8), UInt8.ofNat (v / 2 ^ 16)]

/-- `net_ip_from_wire`. -/
def Jim.ipFromWire (jim : Jim) (off : Nat) : Ip :=
  ipOfBytes (jim off) (jim (off + 1)) (jim (off + 2)) (jim (off + 3))

/-- `net_ip_to_wire`. -/
def Jim.ipToWire (jim : Jim) (off : Nat) (ip : Ip) : Jim := jim.store off (ipBytes ip)

def netBufferOk (offset length : Nat) : Bool :=
  if offset > DISC_RAM_SIZE then false else decide (length ≤ DISC_RAM_SIZE - offset)

/-- The C string at an address, if a NUL ends it within the next `n` bytes. -/
def Jim.cString (jim : Jim) (off : Nat) : Nat → Option (List UInt8)
  | 0 => none
  | n + 1 => if jim off = 0 then some [] else (Jim.cString jim (off + 1) n).map (jim off :: ·)

/-- `net_string_ok` and the string it vouches for; `base` is `DISC_RAM_BASE`. -/
def netString (base : Nat) (jim : Jim) (start : Nat) : Option (List UInt8) :=
  let limit := start + NET_MAX_HOSTNAME
  let limit := if limit > base + DISC_RAM_SIZE then base + DISC_RAM_SIZE else limit
  jim.cString start (limit - start)

/-! ### The stack -/

inductive PcbKind where
  | tcp | listen | udp
deriving DecidableEq, Repr

structure Pcb where
  kind : PcbKind
  arg : Option (Fin NET_MAX_HANDLES)
deriving DecidableEq, Repr

structure Query where
  name : List UInt8
  arg : Fin NET_MAX_HANDLES
deriving DecidableEq, Repr

inductive Output where
  | tcp (pcb : Nat) (bytes : List UInt8)
  | udp (pcb : Nat) (ip : Ip) (port : UInt16) (payload : List UInt8)
deriving DecidableEq, Repr

structure Live where
  pcbs : Nat → Option Pcb := fun _ => none
  nextPcb : Nat := 0
  queries : Nat → Option Query := fun _ => none
  nextQuery : Nat := 0

def Live.add (s : Live) (p : Pcb) : Live :=
  { s with pcbs := Function.update s.pcbs s.nextPcb (some p), nextPcb := s.nextPcb + 1 }

def Live.free (s : Live) (p : Nat) : Live :=
  { s with pcbs := Function.update s.pcbs p none }

def Live.freeAll (s : Live) (p : Option Nat) : Live :=
  match p with
  | some p => s.free p
  | none => s

def Live.ask (s : Live) (q : Query) : Live :=
  { s with queries := Function.update s.queries s.nextQuery (some q), nextQuery := s.nextQuery + 1 }

def Live.answered (s : Live) (q : Nat) : Live :=
  { s with queries := Function.update s.queries q none }

structure Stack extends Live where
  out : List Output := []

def Stack.add (s : Stack) (p : Pcb) : Stack := { s with toLive := s.toLive.add p }

def Stack.free (s : Stack) (p : Nat) : Stack := { s with toLive := s.toLive.free p }

def Stack.freeAll (s : Stack) (p : Option Nat) : Stack := { s with toLive := s.toLive.freeAll p }

def Stack.ask (s : Stack) (q : Query) : Stack := { s with toLive := s.toLive.ask q }

def Stack.answered (s : Stack) (q : Nat) : Stack := { s with toLive := s.toLive.answered q }

def Stack.emit (s : Stack) (o : Output) : Stack := { s with out := s.out ++ [o] }

inductive WriteErr where
  | ok | mem | other
deriving DecidableEq, Repr

/-- What `dns_gethostbyname` answers. -/
inductive DnsAnswer where
  | cached (ip : Ip)
  | inProgress
  | failed
deriving DecidableEq, Repr

/-- The answers of the calls one entry into the service makes.  A call that may be made several
times has its answers by number. -/
structure Answers where
  addressReady : Bool := true
  tcpNew : Bool := true
  tcpBind : Bool := true
  tcpListen : Bool := true
  tcpConnect : Bool := true
  sndbuf : UInt16 := 0
  tcpWrite : Nat → WriteErr := fun _ => .ok
  udpNew : Bool := true
  udpBind : Bool := true
  udpConnect : Bool := true
  pbufAlloc : Nat → Bool := fun _ => true
  udpSendto : Nat → Bool := fun _ => true
  dns : DnsAnswer := .inProgress
  nowMs : Nat → UInt32 := fun _ => 0

structure Chain where
  pbufs : List (List UInt8)
  fits : pbufs.flatten.length < 2 ^ 16

def Chain.bytes (p : Chain) : List UInt8 := p.pbufs.flatten

def Chain.totLen (p : Chain) : Nat := p.bytes.length

def ringFree (h : Handle) : Nat :=
  (NET_RX_RING_SIZE + (2 ^ 16 - h.ring.count % 2 ^ 16)) % 2 ^ 16

def ringPutMem (h : Handle) (src : List UInt8) : Handle := { h with ring := h.ring.write 16 src }

def ringPutPbuf (h : Handle) (p : Chain) : Handle :=
  { h with ring := p.pbufs.foldl (fun r q => r.write 16 q) h.ring }

def ringGetMem (h : Handle) (len : Nat) : List UInt8 × Handle :=
  (h.ring.front len, { h with ring := h.ring.skip 16 len })

def ringGet (h : Handle) (max : Nat) : List UInt8 × Handle :=
  ringGetMem h (if max < h.ring.count then max else h.ring.count)

def ringDiscard (h : Handle) (len : Nat) : Handle := (ringGetMem h len).2

def ringDiscardRest (h : Handle) (dglen copy : Nat) : Handle :=
  if dglen > copy then ringDiscard h (dglen - copy) else h

end Pi1MHz.Net
