import Pi1MHz.DeadlineTable
import Pi1MHz.RingQueue
import Mathlib.Tactic.Simps.Basic

/-!
# The AUN engine: state and transport

The data model of `aun.h` and the small helpers of `aun.c` that the rest of the
engine is written with.

The engine reaches the outside world through four things: the clock, whose read `k` happens at
millisecond `T.clock k`, `udp_send` and the trace hook, recorded in `io.out`, and the host memory
`io.mem`, where address 0 is `NULL`.
-/

namespace Pi1MHz.Aun

open DeadlineTable (Entry)

/-! ### Constants of `aun.h` -/

def AUN_DEFAULT_UDP_PORT : UInt16 := 32768
def AUN_HDR_SIZE : Nat := 8
def AUN_MAX_DATA : Nat := 8192

def AUN_TYPE_BROADCAST : UInt8 := 1
def AUN_TYPE_DATA : UInt8 := 2
def AUN_TYPE_ACK : UInt8 := 3
def AUN_TYPE_NAK : UInt8 := 4
def AUN_TYPE_IMMEDIATE : UInt8 := 5
def AUN_TYPE_IMM_REPLY : UInt8 := 6

def AUN_CTRL_MACHINE_PEEK : UInt8 := 0x08
def AUN_CTRL_IMM4_FIRST : UInt8 := 0x02
def AUN_CTRL_IMM4_LAST : UInt8 := 0x05
def AUN_CTRL_POKE : UInt8 := 0x02

abbrev AUN_MAP_MAX : Nat := 32
abbrev AUN_RX_BLOCKS : Nat := 2
abbrev AUN_RX_QUEUE : Nat := 8
abbrev AUN_RX_DEFER_SLOTS : Nat := AUN_RX_QUEUE
abbrev AUN_CONDEMN_SLOTS : Nat := 4
abbrev AUN_DBG_PREV_SLOTS : Nat := 6
def AUN_HIMM_MAX : Nat := 2048

def AUN_REJECT_RETRIES : Nat := 10
def AUN_REJECT_TIMEOUT_MS : UInt32 := 10
def AUN_NORESP_TIMEOUT_MS : UInt32 := 1000
def AUN_NORESP_RETRIES : Nat := 0
def AUN_HIMM_TIMEOUT_MS : UInt32 := 1000
def AUN_HIMM_CACHE_MS : UInt32 := 6000
def AUN_DEFER_RETRIES : Nat := 250
def AUN_DEFER_DELAY_MS : UInt32 := 8
def AUN_CONDEMN_RETRIES : Nat := 12
def AUN_CONDEMN_TTL_MS : UInt32 := 10000

def AUN_WILDCARD : UInt8 := 0xFF

/-- The `AUN_*` status codes; `code` is the byte the Beeb sees. -/
inductive Status where
  | ok | notListening | netError | noRoute | busy | errParam | errNotReady | errNoBlock | pending
deriving DecidableEq, Repr

def Status.code : Status → UInt8
  | .ok => 0
  | .notListening => 1
  | .netError => 2
  | .noRoute => 3
  | .busy => 4
  | .errParam => 5
  | .errNotReady => 6
  | .errNoBlock => 7
  | .pending => 0x80

/-- The `AUN_RXV_*` verdicts on an inbound DATA frame. -/
inductive RxVerdict where
  | ack | redup | nak | nosrc | full
deriving DecidableEq, Repr

/-! ### Engine records -/

structure Stream where
  port : UInt8
  srcIpBe : UInt32
  srcPort : UInt16
deriving DecidableEq, Repr

structure MapEntry where
  net : UInt8
  stn : UInt8
  ipBe : UInt32
  udpPort : UInt16
  lastRxSeq : UInt32
  seqValid : Bool
deriving DecidableEq, Repr

/-- `aun_rx_frame_t`; `len` is the length of `data`, `rejects` an 8-bit count. -/
structure RxFrame where
  srcStn : UInt8
  srcNet : UInt8
  port : UInt8
  ctrl : UInt8
  rejects : Nat
  seq : UInt32
  srcIpBe : UInt32
  srcPort : UInt16
  data : List UInt8
deriving DecidableEq, Repr

def RxFrame.len (f : RxFrame) : Nat := f.data.length

def RxFrame.stream (f : RxFrame) : Stream := ⟨f.port, f.srcIpBe, f.srcPort⟩

/-- `aun_rx_block_t`; `buf` is the address of the caller's buffer. -/
structure RxBlock where
  isOpen : Bool
  presented : Bool
  presOff : Nat
  port : UInt8
  stn : UInt8
  net : UInt8
  buf : Nat
  bufSize : Nat
  head : Nat
  count : Nat
  q : Fin AUN_RX_QUEUE → RxFrame
  defer : Fin AUN_RX_DEFER_SLOTS → Entry Stream

/-- `aun_tx_t`; `len` is the length of `datagram`, `replyBuf` an address. -/
structure Tx where
  state : Status
  wireType : UInt8
  seq : UInt32
  ipBe : UInt32
  udpPort : UInt16
  datagram : List UInt8
  deadlineMs : UInt32
  norespLeft : Nat
  rejectLeft : Nat
  rejectPending : Bool
  replyBuf : Nat
  replyMax : Nat
  replyLen : Nat
deriving DecidableEq, Repr

structure Counters where
  txOk : UInt32
  txFail : UInt32
  rxData : UInt32
  rxBroadcast : UInt32
  rxImm : UInt32
  rxDup : UInt32
  rxNoBlock : UInt32
  rxUnknownSource : UInt32
  rxTooBig : UInt32
  rxBad : UInt32
  rxFull : UInt32
  ackSent : UInt32
  nakSent : UInt32
  ackFail : UInt32
  rxParkedDrop : UInt32
  himmTimeout : UInt32
  himmReplay : UInt32
deriving DecidableEq, Repr

/-- `aun_host_imm_t`; `len` is the length of `data`. -/
structure HostImm where
  active : Bool
  fromData : Bool
  ctrl : UInt8
  seq : UInt32
  ipBe : UInt32
  port : UInt16
  dueMs : UInt32
  gen : UInt32
  polledGen : UInt32
  data : List UInt8
deriving DecidableEq, Repr

def HostImm.len (h : HostImm) : Nat := h.data.length

/-- `aun_himm_cache_t`; `len` is the length of `data`. -/
structure HimmCache where
  valid : Bool
  isNak : Bool
  fromData : Bool
  ctrl : UInt8
  seq : UInt32
  ipBe : UInt32
  port : UInt16
  dueMs : UInt32
  data : List UInt8
deriving DecidableEq, Repr

def HimmCache.len (c : HimmCache) : Nat := c.data.length

structure DbgPrev where
  valid : Bool
  ipBe : UInt32
  udpPort : UInt16
  aunPort : UInt8
  len : Nat
  hash : UInt32
deriving DecidableEq, Repr

inductive Effect where
  | sent (ipBe : UInt32) (udpPort : UInt16) (dgram : List UInt8) (ok : Bool)
  | traced (seq : UInt32) (port : UInt8) (verdict : RxVerdict) (sameAsPrev : Bool)
      (data : List UInt8)
deriving DecidableEq, Repr

/-- The engine's side of the outside world: host memory, how many clock reads and
    sends have been made, and the effects of the current call, oldest first. -/
structure Io where
  mem : Nat → UInt8
  reads : Nat
  sends : Nat
  out : List Effect

/-- `aun_engine_t`; `map` holds the first `map_count` entries of the table,
    `traceFn` says whether a trace hook is installed. -/
structure Engine where
  initialised : Bool
  station : UInt8
  net : UInt8
  nextSeq : UInt32
  map : List MapEntry
  rx : Fin AUN_RX_BLOCKS → RxBlock
  condemned : Fin AUN_CONDEMN_SLOTS → Entry Stream
  tx : Tx
  counters : Counters
  broadcastIpBe : UInt32
  subnetBaseBe : UInt32
  subnetMaskBe : UInt32
  learnNet : UInt8
  machineId : List UInt8
  hostImmEnabled : Bool
  himm : HostImm
  himmCache : HimmCache
  testEnabled : Bool
  testStn : UInt8
  testNet : UInt8
  traceFn : Bool
  dbgPrev : Fin AUN_DBG_PREV_SLOTS → DbgPrev
  dbgPrevNext : Nat
  io : Io

/-- `aun_transport_t`: the real time of each `now_ms` call and the result of each
    `udp_send` call of a run. -/
structure Transport where
  clock : Nat → Nat
  udpSend : Nat → Bool

/-- The value read `k` of the clock returns. -/
def Transport.now (T : Transport) (k : Nat) : UInt32 := UInt32.ofNat (T.clock k)

/-- A `(const uint8_t *data, uint32_t len)` argument: `NULL` with a length, or
    bytes that can be read. -/
inductive Payload where
  | null (len : Nat)
  | bytes (data : List UInt8)
deriving DecidableEq, Repr

def Payload.len : Payload → Nat
  | .null n => n
  | .bytes data => data.length

def Payload.isNull : Payload → Bool
  | .null _ => true
  | .bytes _ => false

def Payload.toList : Payload → List UInt8
  | .null _ => []
  | .bytes data => data

/-! ### Zeroed records (`memset`) -/

def RxFrame.zero : RxFrame := ⟨0, 0, 0, 0, 0, 0, 0, 0, []⟩

def zeroEntry : Entry Stream := ⟨false, ⟨0, 0, 0⟩, 0⟩

def RxBlock.zero : RxBlock where
  isOpen := false
  presented := false
  presOff := 0
  port := 0
  stn := 0
  net := 0
  buf := 0
  bufSize := 0
  head := 0
  count := 0
  q := fun _ => RxFrame.zero
  defer := fun _ => zeroEntry

def Tx.zero : Tx where
  state := .ok
  wireType := 0
  seq := 0
  ipBe := 0
  udpPort := 0
  datagram := []
  deadlineMs := 0
  norespLeft := 0
  rejectLeft := 0
  rejectPending := false
  replyBuf := 0
  replyMax := 0
  replyLen := 0

def Counters.zero : Counters := ⟨0, 0, 0, 0, 0, 0, 0, 0, 0, 0, 0, 0, 0, 0, 0, 0, 0⟩

def HostImm.zero : HostImm := ⟨false, false, 0, 0, 0, 0, 0, 0, 0, []⟩

def HimmCache.zero : HimmCache := ⟨false, false, false, 0, 0, 0, 0, 0, []⟩

def DbgPrev.zero : DbgPrev := ⟨false, 0, 0, 0, 0, 0⟩

/-- An engine before `aun_init`: all bytes zero, connected to `io`. -/
def Engine.zero (io : Io) : Engine where
  initialised := false
  station := 0
  net := 0
  nextSeq := 0
  map := []
  rx := fun _ => RxBlock.zero
  condemned := fun _ => zeroEntry
  tx := Tx.zero
  counters := Counters.zero
  broadcastIpBe := 0
  subnetBaseBe := 0
  subnetMaskBe := 0
  learnNet := 0
  machineId := [0, 0, 0, 0]
  hostImmEnabled := false
  himm := HostImm.zero
  himmCache := HimmCache.zero
  testEnabled := false
  testStn := 0
  testNet := 0
  traceFn := false
  dbgPrev := fun _ => DbgPrev.zero
  dbgPrevNext := 0
  io := io

def rd32le (p : List UInt8) : UInt32 :=
  (p.getD 0 0).toUInt32 ||| ((p.getD 1 0).toUInt32 <<< 8) |||
    ((p.getD 2 0).toUInt32 <<< 16) ||| ((p.getD 3 0).toUInt32 <<< 24)

def wr32le (v : UInt32) : List UInt8 :=
  [v.toUInt8, (v >>> 8).toUInt8, (v >>> 16).toUInt8, (v >>> 24).toUInt8]

def dbgHash (p : List UInt8) : UInt32 :=
  p.foldl (fun h b => (h ^^^ b.toUInt32) * 16777619) 2166136261

/-- `memcpy` into host memory. -/
def writeMem (mem : Nat → UInt8) (addr : Nat) (bytes : List UInt8) : Nat → UInt8 :=
  fun a => if addr ≤ a ∧ a < addr + bytes.length then bytes.getD (a - addr) 0 else mem a

/-- The `len` bytes of host memory at `addr`. -/
def readMem (mem : Nat → UInt8) (addr len : Nat) : List UInt8 :=
  (List.range len).map fun i => mem (addr + i)

@[simps -fullyApplied] def Engine.withIo (e : Engine) (io : Io) : Engine := { e with io := io }

@[simps -fullyApplied] def Engine.withMap (e : Engine) (map : List MapEntry) : Engine := { e with map := map }

@[simps -fullyApplied] def Engine.withRx (e : Engine) (rx : Fin AUN_RX_BLOCKS → RxBlock) : Engine :=
  { e with rx := rx }

@[simps -fullyApplied] def Engine.withCondemned (e : Engine) (t : Fin AUN_CONDEMN_SLOTS → Entry Stream) :
    Engine :=
  { e with condemned := t }

@[simps -fullyApplied] def Engine.withTx (e : Engine) (tx : Tx) : Engine := { e with tx := tx }

@[simps -fullyApplied] def Engine.withCounters (e : Engine) (c : Counters) : Engine := { e with counters := c }

@[simps -fullyApplied] def Engine.withHimm (e : Engine) (h : HostImm) : Engine := { e with himm := h }

@[simps -fullyApplied] def Engine.withCache (e : Engine) (c : HimmCache) : Engine := { e with himmCache := c }

@[simps -fullyApplied] def Engine.withNextSeq (e : Engine) (seq : UInt32) : Engine := { e with nextSeq := seq }

@[simps! -fullyApplied rx map condemned tx counters himm himmCache hostImmEnabled initialised io]
def Engine.setBlock (e : Engine) (i : Fin AUN_RX_BLOCKS) (b : RxBlock) : Engine :=
  e.withRx (Function.update e.rx i b)

@[simps! -fullyApplied rx map condemned tx counters himm himmCache hostImmEnabled initialised io]
def Engine.count (e : Engine) (f : Counters → Counters) : Engine := e.withCounters (f e.counters)

/-! ### Clock, transport and station map -/

variable (T : Transport)

def nowMs (e : Engine) : UInt32 := T.now e.io.reads

@[simps! -fullyApplied rx map condemned tx counters himm himmCache hostImmEnabled initialised io]
def Engine.atRead (e : Engine) (k : Nat) : Engine := e.withIo { e.io with reads := k }

@[simps! -fullyApplied rx map condemned tx counters himm himmCache hostImmEnabled initialised io]
def tick (e : Engine) : Engine := e.atRead (e.io.reads + 1)

@[simps! -fullyApplied rx map condemned tx counters himm himmCache hostImmEnabled initialised io]
def Engine.emit (e : Engine) (x : Effect) : Engine :=
  e.withIo { e.io with out := e.io.out ++ [x] }

@[simps! -fullyApplied rx map condemned tx counters himm himmCache hostImmEnabled initialised io]
def Engine.storeMem (e : Engine) (addr : Nat) (bytes : List UInt8) : Engine :=
  e.withIo { e.io with mem := writeMem e.io.mem addr bytes }

def udpSendOk (e : Engine) : Bool := T.udpSend e.io.sends

@[simps! -fullyApplied rx map condemned tx counters himm himmCache hostImmEnabled initialised io]
def udpSend (e : Engine) (ipBe : UInt32) (port : UInt16) (dgram : List UInt8) : Engine :=
  e.withIo { e.io with
    sends := e.io.sends + 1
    out := e.io.out ++ [.sent ipBe port dgram (udpSendOk T e)] }

def mapFindByAddr (map : List MapEntry) (net stn : UInt8) : Option Nat :=
  map.findIdx? fun m => m.net == net && m.stn == stn

def mapFindByIp (map : List MapEntry) (ipBe : UInt32) (port : UInt16) : Option Nat :=
  map.findIdx? fun m => m.ipBe == ipBe && m.udpPort == port

def learnResolve (e : Engine) (net stn : UInt8) : Option (UInt32 × UInt16) :=
  if e.learnNet = 0xFF ∨ net ≠ e.learnNet then none
  else some ((e.subnetBaseBe &&& (0x00FFFFFF : UInt32)) ||| (stn.toUInt32 <<< 24), AUN_DEFAULT_UDP_PORT)

def learnAttribute (e : Engine) (ipBe : UInt32) (port : UInt16) : Option (UInt8 × UInt8) :=
  if e.learnNet = 0xFF ∨ port ≠ AUN_DEFAULT_UDP_PORT then none
  else if (ipBe &&& e.subnetMaskBe) ≠ (e.subnetBaseBe &&& e.subnetMaskBe) then none
  else
    let stn := (ipBe >>> 24).toUInt8
    if stn ≠ 0 ∧ stn ≠ 255 then some (e.learnNet, stn) else none

def buildHeader (type port ctrl : UInt8) (seq : UInt32) : List UInt8 :=
  [type, port, ctrl &&& 0x7F, 0] ++ wr32le seq

def Counters.ackNak (c : Counters) (ok : Bool) (type : UInt8) : Counters :=
  if ok = false then { c with ackFail := c.ackFail + 1 }
  else if type = AUN_TYPE_ACK then { c with ackSent := c.ackSent + 1 }
  else { c with nakSent := c.nakSent + 1 }

@[simps! -fullyApplied rx map condemned tx counters himm himmCache hostImmEnabled initialised io]
def sendAckNak (e : Engine) (ipBe : UInt32) (port : UInt16) (type aunPort ctrl : UInt8)
    (seq : UInt32) : Engine :=
  (udpSend T e ipBe port (buildHeader type aunPort ctrl seq)).withCounters
    (e.counters.ackNak (udpSendOk T e) type)

/-! ### Initialisation and configuration -/

def aunInit (e : Engine) (station net : UInt8) : Engine :=
  { Engine.zero e.io with
    station := station
    net := net
    nextSeq := 4
    learnNet := 0xFF
    machineId := [0x01, 0x00, 0x60, 0x03]
    initialised := true }

/-- Point entry `i` at an address, forgetting the last collected sequence. -/
def MapEntry.point (m : MapEntry) (ipBe : UInt32) (udpPort : UInt16) : MapEntry :=
  { m with ipBe := ipBe, udpPort := udpPort, seqValid := false }

def aunMapAdd (e : Engine) (net stn : UInt8) (ipBe : UInt32) (udpPort : UInt16) : Bool × Engine :=
  let udpPort := if udpPort = 0 then AUN_DEFAULT_UDP_PORT else udpPort
  match mapFindByAddr e.map net stn with
  | some i => (true, e.withMap (e.map.modify i fun m => m.point ipBe udpPort))
  | none =>
      if e.map.length ≥ AUN_MAP_MAX then (false, e)
      else (true, e.withMap (e.map ++ [⟨net, stn, ipBe, udpPort, 0, false⟩]))

def aunSetAddressing (e : Engine) (broadcastIpBe subnetBaseBe maskBe : UInt32)
    (learnNet : UInt8) : Engine :=
  { e with
    broadcastIpBe := broadcastIpBe
    subnetBaseBe := subnetBaseBe
    subnetMaskBe := maskBe
    learnNet := learnNet }

def aunTestResponder (e : Engine) (enable : Bool) (stn net : UInt8) : Engine :=
  { e with testEnabled := enable, testStn := stn, testNet := net }

def aunSetMachineId (e : Engine) (id : List UInt8) : Engine := { e with machineId := id.take 4 }

def aunSetTrace (e : Engine) (installed : Bool) : Engine := { e with traceFn := installed }

def aunSetHostImm (e : Engine) (enable : Bool) : Engine :=
  { e with
    hostImmEnabled := enable
    himm := { e.himm with active := false }
    himmCache := { e.himmCache with valid := false } }

end Pi1MHz.Aun
