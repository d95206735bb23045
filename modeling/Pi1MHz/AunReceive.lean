import Pi1MHz.AunState
import Pi1MHz.FinSizes

/-!
# The AUN engine: receive blocks

Receive blocks, defer-in-place, condemned streams and ACK-on-collect
(`aun.c`, "receive blocks").  A block's frames wait in a ring of
`AUN_RX_QUEUE` slots; a frame leaves the ring only through `aunRxCollect`, or with
the whole block when it is closed or re-opened.
-/

namespace Pi1MHz.Aun

open FinSizes

open DeadlineTable (Entry Found)

/-- `&b->q[(head + off) % AUN_RX_QUEUE]`. -/
def RxBlock.frameAt (b : RxBlock) (off : Nat) : RxFrame :=
  b.q (RingQueue.slot AUN_RX_QUEUE b.head off)

def RxBlock.queue (b : RxBlock) : List RxFrame := RingQueue.contents b.q b.head b.count

/-- `&e->rx[handle]` for a handle in range. -/
def rxHandle (handle : UInt8) : Option (Fin AUN_RX_BLOCKS) :=
  if h : handle.toNat < AUN_RX_BLOCKS then some ⟨handle.toNat, h⟩ else none

def openBlock (e : Engine) (handle : UInt8) : Option (Fin AUN_RX_BLOCKS) :=
  match rxHandle handle with
  | none => none
  | some i => if (e.rx i).isOpen then some i else none

def aunRxOpen (e : Engine) (handle port stn net : UInt8) (buf bufSize : Nat) : Status × Engine :=
  if e.initialised = false then (.errNotReady, e)
  else
    match rxHandle handle with
    | none => (.errParam, e)
    | some i =>
        if buf = 0 ∨ bufSize = 0 then (.errParam, e)
        else
          (.ok, e.setBlock i { RxBlock.zero with
            isOpen := true, port := port, stn := stn, net := net, buf := buf, bufSize := bufSize })

def aunRxClose (e : Engine) (handle : UInt8) : Status × Engine :=
  match openBlock e handle with
  | none => (.errNoBlock, e)
  | some i => (.ok, e.setBlock i RxBlock.zero)

def deferFind (now : Nat → UInt32) (b : RxBlock) (stream : Stream) (reads : Nat) :
    Found Stream AUN_RX_DEFER_SLOTS :=
  DeadlineTable.find now b.defer stream reads

/-- Defer a stream until `dueMs`; returns the block and the reads made. -/
def deferSet (now : Nat → UInt32) (b : RxBlock) (stream : Stream) (dueMs : UInt32) (reads : Nat) :
    RxBlock × Nat :=
  let slot := DeadlineTable.place now b.defer stream reads
  ({ b with defer := Function.update b.defer slot.1 ⟨true, stream, dueMs⟩ }, slot.2)

variable (T : Transport)

def condemnFind (e : Engine) (stream : Stream) : Found Stream AUN_CONDEMN_SLOTS :=
  DeadlineTable.find T.now e.condemned stream e.io.reads

/-- The engine after `condemn_find` has expired what it found stale. -/
@[simps! -fullyApplied rx map condemned tx counters himm himmCache hostImmEnabled initialised io]
def condemnFound (e : Engine) (stream : Stream) : Engine :=
  (e.withCondemned (condemnFind T e stream).table).atRead (condemnFind T e stream).reads

@[simps! -fullyApplied rx map condemned tx counters himm himmCache hostImmEnabled initialised io]
def condemnSet (e : Engine) (stream : Stream) : Engine :=
  let slot := DeadlineTable.place T.now e.condemned stream e.io.reads
  let e := e.atRead slot.2
  tick (e.withCondemned
    (Function.update e.condemned slot.1 ⟨true, stream, nowMs T e + AUN_CONDEMN_TTL_MS⟩))

/-! ### Presentation -/

/-- Is a frame presently deliverable?  Returns the block with the expired deferral
    cleared, and the reads made. -/
def rxFrameEligible (now : Nat → UInt32) (b : RxBlock) (f : RxFrame) (reads : Nat) :
    Bool × RxBlock × Nat :=
  if f.srcIpBe = 0 then (true, b, reads)
  else
    let d := deferFind now b f.stream reads
    (d.hit.isNone, { b with defer := d.table }, d.reads)

structure Scan where
  off : Option Nat
  block : RxBlock
  reads : Nat

/-- The loop of `rx_first_eligible`: `left` frames from offset `i` on. -/
def rxScan (now : Nat → UInt32) : Nat → Nat → RxBlock → Nat → Scan
  | 0, _, b, reads => ⟨none, b, reads⟩
  | left + 1, i, b, reads =>
      let r := rxFrameEligible now b (b.frameAt i) reads
      if r.1 then ⟨some i, r.2.1, r.2.2⟩ else rxScan now left (i + 1) r.2.1 r.2.2

/-- Offset of the oldest eligible frame (`none` for the source's -1). -/
def rxFirstEligible (now : Nat → UInt32) (b : RxBlock) (reads : Nat) : Scan :=
  rxScan now b.count 0 b reads

def rxRemoveAt (b : RxBlock) (off : Nat) : RxBlock :=
  if off = 0 then
    { b with head := (b.head + 1) % AUN_RX_QUEUE, count := b.count - 1 }
  else
    { b with q := RingQueue.shiftDown b.q b.head off (b.count - 1 - off), count := b.count - 1 }

/-- `aun_rx_info_t`. -/
structure RxInfo where
  srcStn : UInt8
  srcNet : UInt8
  port : UInt8
  ctrl : UInt8
  len : Nat
deriving DecidableEq, Repr

def RxFrame.info (f : RxFrame) : RxInfo := ⟨f.srcStn, f.srcNet, f.port, f.ctrl, f.len⟩

/-- Copy the frame at `off` into the caller's buffer and mark it presented. -/
@[simps! -fullyApplied rx map condemned tx counters himm himmCache hostImmEnabled initialised io]
def rxPresent (e : Engine) (i : Fin AUN_RX_BLOCKS) (off : Nat) : Engine :=
  let b := e.rx i
  (e.setBlock i { b with presOff := off, presented := true }).storeMem b.buf (b.frameAt off).data

def aunRxPoll (e : Engine) (handle : UInt8) : Status × Option RxInfo × Engine :=
  match openBlock e handle with
  | none => (.errNoBlock, none, e)
  | some i =>
      if (e.rx i).count = 0 then (.pending, none, e)
      else if (e.rx i).presented then
        (.ok, some ((e.rx i).frameAt (e.rx i).presOff).info, e)
      else
        let s := rxFirstEligible T.now (e.rx i) e.io.reads
        let e := (e.setBlock i s.block).atRead s.reads
        match s.off with
        | none => (.pending, none, e)
        | some off => (.ok, some ((e.rx i).frameAt off).info, rxPresent e i off)

/-- The loop of `aun_rx_ready`. -/
def rxCountReady (now : Nat → UInt32) : Nat → Nat → RxBlock → Nat → Nat × RxBlock × Nat
  | 0, _, b, reads => (0, b, reads)
  | left + 1, i, b, reads =>
      let r := rxFrameEligible now b (b.frameAt i) reads
      let rest := rxCountReady now left (i + 1) r.2.1 r.2.2
      (if r.1 then rest.1 + 1 else rest.1, rest.2)

def aunRxReady (e : Engine) (handle : UInt8) : Nat × Engine :=
  match openBlock e handle with
  | none => (0, e)
  | some i =>
      let r := rxCountReady T.now (e.rx i).count 0 (e.rx i) e.io.reads
      (r.1, (e.setBlock i r.2.1).atRead r.2.2)

/-! ### Collecting -/

def stampMap (map : List MapEntry) (ipBe : UInt32) (port : UInt16) (seq : UInt32) :
    List MapEntry :=
  match mapFindByIp map ipBe port with
  | none => map
  | some i => map.modify i fun m => { m with lastRxSeq := seq, seqValid := true }

@[simps! -fullyApplied rx map condemned tx counters himm himmCache hostImmEnabled initialised io]
def ackFrame (e : Engine) (f : RxFrame) : Engine :=
  (sendAckNak T e f.srcIpBe f.srcPort AUN_TYPE_ACK f.port f.ctrl f.seq).withMap
    (stampMap e.map f.srcIpBe f.srcPort f.seq)

def liftedTable (found : Found Stream AUN_CONDEMN_SLOTS) : Fin AUN_CONDEMN_SLOTS → Entry Stream :=
  match found.hit with
  | none => found.table
  | some c => Function.update found.table c { found.table c with valid := false }

@[simps! -fullyApplied rx map condemned tx counters himm himmCache hostImmEnabled initialised io]
def condemnLift (e : Engine) (stream : Stream) : Engine :=
  (condemnFound T e stream).withCondemned (liftedTable (condemnFind T e stream))

@[simps! -fullyApplied rx map condemned tx counters himm himmCache hostImmEnabled initialised io]
def rxRemove (e : Engine) (i : Fin AUN_RX_BLOCKS) (off : Nat) : Engine :=
  e.setBlock i (rxRemoveAt (e.rx i) off)

/-- The host took the frame at `off`. -/
def collectAccept (e : Engine) (i : Fin AUN_RX_BLOCKS) (off : Nat) : Engine :=
  let f := (e.rx i).frameAt off
  let e := if f.srcIpBe ≠ 0 then condemnLift T (ackFrame T e f) f.stream else e
  rxRemove e i off

/-- The reject budget in force for a stream, given what `condemn_find` returned. -/
def rejectBudget (hit : Option (Fin AUN_CONDEMN_SLOTS)) : Nat :=
  if hit.isSome then AUN_CONDEMN_RETRIES else AUN_DEFER_RETRIES

/-- ACK-and-discard the frame at `off` and condemn its stream. -/
def collectShed (e : Engine) (i : Fin AUN_RX_BLOCKS) (off : Nat) : Engine :=
  let f := (e.rx i).frameAt off
  (rxRemove (condemnSet T (ackFrame T e f) f.stream) i off).count fun c =>
    { c with rxParkedDrop := c.rxParkedDrop + 1 }

/-- Burn one reject of the frame at `off` and defer its stream. -/
def collectDefer (e : Engine) (i : Fin AUN_RX_BLOCKS) (off : Nat) : Engine :=
  let b := e.rx i
  let f := { b.frameAt off with rejects := ((b.frameAt off).rejects + 1) % 256 }
  let b := { b with q := Function.update b.q (RingQueue.slot AUN_RX_QUEUE b.head off) f }
  let due := nowMs T e + AUN_DEFER_DELAY_MS
  let d := deferSet T.now b f.stream due (e.io.reads + 1)
  (e.setBlock i d.1).atRead d.2

/-- The host rejected the frame at `off`. -/
def collectReject (e : Engine) (i : Fin AUN_RX_BLOCKS) (off : Nat) : Engine :=
  let f := (e.rx i).frameAt off
  if f.srcIpBe = 0 then rxRemove e i off
  else
    let hit := (condemnFind T e f.stream).hit
    let e := condemnFound T e f.stream
    if f.rejects ≥ rejectBudget hit then collectShed T e i off else collectDefer T e i off

def collectScan (e : Engine) (i : Fin AUN_RX_BLOCKS) : Scan :=
  if (e.rx i).presented then ⟨some (e.rx i).presOff, e.rx i, e.io.reads⟩
  else rxFirstEligible T.now (e.rx i) e.io.reads

def scanned (e : Engine) (i : Fin AUN_RX_BLOCKS) : Engine :=
  (e.setBlock i (collectScan T e i).block).atRead (collectScan T e i).reads

/-- The body of `aun_rx_collect` for a block that has frames. -/
def collectFrame (e : Engine) (i : Fin AUN_RX_BLOCKS) (accept : Bool) : Engine :=
  match (collectScan T e i).off with
  | none => scanned T e i
  | some off =>
      if accept then collectAccept T (scanned T e i) i off
      else collectReject T (scanned T e i) i off

@[simps -fullyApplied] def RxBlock.unpresented (b : RxBlock) : RxBlock :=
  { b with presented := false }

@[simps! -fullyApplied rx map condemned tx counters himm himmCache hostImmEnabled initialised io]
def unpresent (e : Engine) (i : Fin AUN_RX_BLOCKS) : Engine := e.setBlock i (e.rx i).unpresented

def aunRxCollect (e : Engine) (handle : UInt8) (accept : Bool) : Status × Engine :=
  match openBlock e handle with
  | none => (.errNoBlock, e)
  | some i =>
      (.ok, unpresent (if (e.rx i).count ≠ 0 then collectFrame T e i accept else e) i)

/-! ### Staging an arrival -/

def rxSeqPending (e : Engine) (srcIpBe : UInt32) (srcPort : UInt16) (seq : UInt32) : Bool :=
  (List.finRange AUN_RX_BLOCKS).any fun i =>
    (e.rx i).isOpen && (e.rx i).queue.any fun f =>
      f.srcIpBe == srcIpBe && f.srcPort == srcPort && f.seq == seq

def RxBlock.accepts (b : RxBlock) (port srcStn srcNet : UInt8) : Bool :=
  b.isOpen && (b.port == 0 || b.port == port) && (b.stn == AUN_WILDCARD || b.stn == srcStn) &&
    (b.net == AUN_WILDCARD || b.net == srcNet)

/-- The first matching block with room among `blocks`, and whether a matching block
    before it was full. -/
def rxMatchFrom (e : Engine) (port srcStn srcNet : UInt8) :
    List (Fin AUN_RX_BLOCKS) → Bool → Option (Fin AUN_RX_BLOCKS) × Bool
  | [], sawFull => (none, sawFull)
  | i :: rest, sawFull =>
      if (e.rx i).accepts port srcStn srcNet = false then
        rxMatchFrom e port srcStn srcNet rest sawFull
      else if (e.rx i).count ≥ AUN_RX_QUEUE then rxMatchFrom e port srcStn srcNet rest true
      else (some i, sawFull)

def rxMatch (e : Engine) (port srcStn srcNet : UInt8) : Option (Fin AUN_RX_BLOCKS) × Bool :=
  rxMatchFrom e port srcStn srcNet (List.finRange AUN_RX_BLOCKS) false

/-- What `rx_deliver` returns: the block and slot of the staged frame, or how to
    answer instead. -/
inductive Delivery where
  | staged (block : Fin AUN_RX_BLOCKS) (slot : Fin AUN_RX_QUEUE)
  | refused (why : RxVerdict)
deriving DecidableEq, Repr

def rxDeliver (e : Engine) (port ctrl srcStn srcNet : UInt8) (data : List UInt8) :
    Delivery × Engine :=
  match rxMatch e port srcStn srcNet with
  | (none, true) => (.refused .full, e)
  | (none, false) =>
      (.refused .nak, e.count fun c => { c with rxNoBlock := c.rxNoBlock + 1 })
  | (some i, _) =>
      let b := e.rx i
      if data.length > b.bufSize ∨ data.length > AUN_MAX_DATA then
        (.refused .nak, e.count fun c => { c with rxTooBig := c.rxTooBig + 1 })
      else
        let slot := RingQueue.slot AUN_RX_QUEUE b.head b.count
        let f : RxFrame := ⟨srcStn, srcNet, port, ctrl ||| 0x80, 0, 0, 0, 0, data⟩
        (.staged i slot,
          e.setBlock i { b with q := Function.update b.q slot f, count := b.count + 1 })

@[simps! -fullyApplied rx map condemned tx counters himm himmCache hostImmEnabled initialised io]
def stampFrame (e : Engine) (i : Fin AUN_RX_BLOCKS) (slot : Fin AUN_RX_QUEUE) (seq srcIpBe : UInt32)
    (srcPort : UInt16) : Engine :=
  let b := e.rx i
  e.setBlock i { b with
    q := Function.update b.q slot
      { b.q slot with seq := seq, srcIpBe := srcIpBe, srcPort := srcPort } }

end Pi1MHz.Aun
