import Pi1MHz.AunTransmit
import Pi1MHz.FinSizes

/-!
# The AUN engine: inbound datagrams, host immediates and timeouts

`aun_udp_input` with its six datagram types, the slot for the immediate the host
is executing, the one-slot cache of the last immediate resolved, and `aun_poll`.
-/

namespace Pi1MHz.Aun

open FinSizes

open WrapClock (reached)

variable (T : Transport)

/-! ### Host immediates -/

@[simps! -fullyApplied rx map condemned tx counters himm himmCache hostImmEnabled initialised io]
def sendImmReply (e : Engine) (ipBe : UInt32) (port : UInt16) (ctrl : UInt8) (seq : UInt32)
    (data : List UInt8) : Engine :=
  udpSend T e ipBe port (buildHeader AUN_TYPE_IMM_REPLY 0 ctrl seq ++ data.take AUN_HIMM_MAX)

@[simps! -fullyApplied rx map condemned tx counters himm himmCache hostImmEnabled initialised io]
def himmCacheStore (e : Engine) (isNak : Bool) (data : List UInt8) : Engine :=
  tick (e.withCache
    { valid := true
      isNak := isNak
      fromData := e.himm.fromData
      ipBe := e.himm.ipBe
      port := e.himm.port
      seq := e.himm.seq
      ctrl := e.himm.ctrl
      dueMs := nowMs T e + AUN_HIMM_CACHE_MS
      data := if isNak then [] else data.take AUN_HIMM_MAX })

@[simps! -fullyApplied rx map condemned tx counters himm himmCache hostImmEnabled initialised io]
def himmRelease (e : Engine) : Engine := e.withHimm { e.himm with active := false }

def aunHimmReply (e : Engine) (data : List UInt8) : Engine :=
  if e.himm.active = false then e
  else if e.himm.fromData then
    let e := sendAckNak T e e.himm.ipBe e.himm.port AUN_TYPE_ACK 0 e.himm.ctrl e.himm.seq
    himmRelease (himmCacheStore T e false [])
  else
    let data := data.take AUN_HIMM_MAX
    let e := sendImmReply T e e.himm.ipBe e.himm.port e.himm.ctrl e.himm.seq data
    himmRelease (himmCacheStore T e false data)

def himmLenOk (ctrl : UInt8) (data : List UInt8) : Bool :=
  if ctrl = 1 then
    if data.length < 6 then false
    else
      let start := (data.getD 0 0).toNat ||| ((data.getD 1 0).toNat <<< 8)
      let last := (data.getD 4 0).toNat ||| ((data.getD 5 0).toNat <<< 8)
      decide (start ≤ last) && decide (last - start ≤ AUN_HIMM_MAX)
  else if ctrl = 2 then decide (4 ≤ data.length)
  else if ctrl = 3 ∨ ctrl = 4 ∨ ctrl = 5 then
    decide (2 ≤ data.length) && decide (data.length ≤ 4 + 386)
  else true

@[simps! -fullyApplied rx map condemned tx counters himm himmCache hostImmEnabled initialised io]
def himmHold (e : Engine) (fromData : Bool) (ctrl : UInt8) (seq : UInt32) (ipBe : UInt32)
    (port : UInt16) (data : List UInt8) : Engine :=
  tick (e.withHimm
    { e.himm with
      gen := e.himm.gen + 1
      active := true
      fromData := fromData
      ctrl := ctrl
      seq := seq
      ipBe := ipBe
      port := port
      dueMs := nowMs T e + AUN_HIMM_TIMEOUT_MS
      data := data })

def himmCacheArmed (e : Engine) (fromData : Bool) : Bool :=
  e.himmCache.valid && e.himmCache.fromData == fromData

/-- The rest of the cache test, made at the clock reading `now`. -/
def himmCacheHit (e : Engine) (now : UInt32) (ipBe : UInt32) (port : UInt16) (seq : UInt32) :
    Bool :=
  !reached now e.himmCache.dueMs && e.himmCache.ipBe == ipBe && e.himmCache.port == port &&
    e.himmCache.seq == seq

@[simps! -fullyApplied rx map condemned tx counters himm himmCache hostImmEnabled initialised io]
def countReplay (e : Engine) : Engine :=
  e.count fun c => { c with himmReplay := c.himmReplay + 1 }

@[simps! -fullyApplied rx map condemned tx counters himm himmCache hostImmEnabled initialised io]
def countImm (e : Engine) : Engine := e.count fun c => { c with rxImm := c.rxImm + 1 }

/-- Length of the payload a 4-way immediate is held with; the 32-bit difference wraps
    for a Poke shorter than its address. -/
def imm4HoldLen (ctrl : UInt8) (data : List UInt8) : Nat :=
  if ctrl = AUN_CTRL_POKE then
    if data.length < 4 then data.length + 2 ^ 32 - 4 else data.length - 4
  else data.length

def imm4LenOk (ctrl : UInt8) (data : List UInt8) : Bool :=
  if ctrl = AUN_CTRL_POKE then decide (8 ≤ data.length) else himmLenOk ctrl data

def imm4Held (ctrl : UInt8) (data : List UInt8) : List UInt8 :=
  if ctrl = AUN_CTRL_POKE then data.take 4 ++ data.drop 8 else data

/-- The slot test and the hold of `rx_imm4_data`, past the cache. -/
def imm4Fresh (e : Engine) (ipBe : UInt32) (port : UInt16) (ctrl : UInt8) (seq : UInt32)
    (data : List UInt8) : Engine :=
  if e.himm.active then e else himmHold T e true ctrl seq ipBe port (imm4Held ctrl data)

def imm4Replay (e : Engine) (ipBe : UInt32) (port : UInt16) (ctrl : UInt8) (seq : UInt32) : Engine :=
  countReplay (sendAckNak T e ipBe port
    (if e.himmCache.isNak then AUN_TYPE_NAK else AUN_TYPE_ACK) 0 ctrl seq)

def imm4Checked (e : Engine) (ipBe : UInt32) (port : UInt16) (ctrl : UInt8) (seq : UInt32)
    (data : List UInt8) : Engine :=
  if himmCacheArmed e true then
    if himmCacheHit e (nowMs T e) ipBe port seq then imm4Replay T (tick e) ipBe port ctrl seq
    else imm4Fresh T (tick e) ipBe port ctrl seq data
  else imm4Fresh T e ipBe port ctrl seq data

def imm4Wanted (e : Engine) (ctrl : UInt8) (data : List UInt8) : Bool :=
  e.hostImmEnabled && imm4LenOk ctrl data && decide (imm4HoldLen ctrl data ≤ AUN_HIMM_MAX)

def rxImm4Data (e : Engine) (ipBe : UInt32) (port : UInt16) (ctrl : UInt8) (seq : UInt32)
    (data : List UInt8) : Engine :=
  if imm4Wanted e ctrl data then imm4Checked T (countImm e) ipBe port ctrl seq data
  else sendAckNak T (countImm e) ipBe port AUN_TYPE_NAK 0 ctrl seq

def immReplay (e : Engine) (ipBe : UInt32) (port : UInt16) (aunPort ctrl : UInt8) (seq : UInt32) :
    Engine :=
  countReplay
    (if e.himmCache.isNak then sendAckNak T e ipBe port AUN_TYPE_NAK aunPort ctrl seq
      else
        sendImmReply T e e.himmCache.ipBe e.himmCache.port e.himmCache.ctrl e.himmCache.seq
          e.himmCache.data)

def immFresh (e : Engine) (ipBe : UInt32) (port : UInt16) (aunPort ctrl : UInt8) (seq : UInt32)
    (data : List UInt8) : Engine :=
  if himmCacheArmed e false then
    if himmCacheHit e (nowMs T e) ipBe port seq then
      immReplay T (tick e) ipBe port aunPort ctrl seq
    else himmHold T (tick e) false ctrl seq ipBe port data
  else himmHold T e false ctrl seq ipBe port data

/-! ### The datagram types -/

def answersTx (e : Engine) (ipBe : UInt32) (port : UInt16) (seq : UInt32) : Bool :=
  decide (e.tx.state = .pending) && seq == e.tx.seq && ipBe == e.tx.ipBe && port == e.tx.udpPort

@[simps! -fullyApplied rx map condemned tx counters himm himmCache hostImmEnabled initialised io]
def txDone (e : Engine) : Engine :=
  (e.withTx { e.tx with state := .ok }).count fun c => { c with txOk := c.txOk + 1 }

def txRejected (e : Engine) : Engine :=
  if e.tx.rejectLeft > 0 then
    tick (e.withTx { e.tx with
      rejectLeft := e.tx.rejectLeft - 1
      rejectPending := true
      deadlineMs := nowMs T e + AUN_REJECT_TIMEOUT_MS })
  else txFailWith e .notListening

def inputAckNak (e : Engine) (ipBe : UInt32) (port : UInt16) (type : UInt8) (seq : UInt32) :
    Engine :=
  if answersTx e ipBe port seq then
    if type = AUN_TYPE_NAK then txRejected T e
    else if e.tx.wireType = AUN_TYPE_DATA then txDone e
    else e
  else e

def storeReply (e : Engine) (data : List UInt8) : Engine :=
  let n := if data.length < e.tx.replyMax then data.length else e.tx.replyMax
  (if e.tx.replyBuf ≠ 0 ∧ n ≠ 0 then e.storeMem e.tx.replyBuf (data.take n) else e).withTx
    { e.tx with replyLen := n }

def inputImmReply (e : Engine) (ipBe : UInt32) (port : UInt16) (seq : UInt32) (data : List UInt8) :
    Engine :=
  if answersTx e ipBe port seq && e.tx.wireType == AUN_TYPE_IMMEDIATE then
    txDone (storeReply e data)
  else e

/-- The map entry of a sender, learnt where there is none. -/
def attributeSource (e : Engine) (ipBe : UInt32) (port : UInt16) : Option Nat × Engine :=
  match mapFindByIp e.map ipBe port with
  | some i => (some i, e)
  | none =>
      match learnAttribute e ipBe port with
      | none => (none, e)
      | some (net, stn) =>
          let e := (aunMapAdd e net stn ipBe port).2
          (mapFindByIp e.map ipBe port, e)

def dataDeliver (e : Engine) (ipBe : UInt32) (port : UInt16) (aunPort ctrl : UInt8) (seq : UInt32)
    (m : MapEntry) (data : List UInt8) : RxVerdict × Engine :=
  let d := rxDeliver e aunPort ctrl m.stn m.net data
  match d.1 with
  | .staged i slot =>
      (.ack, (stampFrame d.2 i slot seq ipBe port).count fun c => { c with rxData := c.rxData + 1 })
  | .refused .full => (.full, d.2.count fun c => { c with rxFull := c.rxFull + 1 })
  | .refused _ => (.nak, sendAckNak T d.2 ipBe port AUN_TYPE_NAK aunPort ctrl seq)

@[simps! -fullyApplied rx map condemned tx counters himm himmCache hostImmEnabled initialised io]
def countDup (e : Engine) : Engine := e.count fun c => { c with rxDup := c.rxDup + 1 }

/-- The verdict on a funnel DATA frame from a source with map entry `m`. -/
def dataFrom (e : Engine) (ipBe : UInt32) (port : UInt16) (aunPort ctrl : UInt8) (seq : UInt32)
    (m : MapEntry) (data : List UInt8) : RxVerdict × Engine :=
  if rxSeqPending e ipBe port seq then (.redup, countDup e)
  else if m.seqValid ∧ seq = m.lastRxSeq then
    (.redup, sendAckNak T (countDup e) ipBe port AUN_TYPE_ACK aunPort ctrl seq)
  else dataDeliver T e ipBe port aunPort ctrl seq m data

/-- The verdict on a funnel frame, its source looked up. -/
def dataVerdict (e : Engine) (ipBe : UInt32) (port : UInt16) (aunPort ctrl : UInt8) (seq : UInt32)
    (data : List UInt8) : RxVerdict × Engine :=
  let a := attributeSource e ipBe port
  match a.1.bind fun i => a.2.map[i]? with
  | none => (.nosrc, a.2.count fun c => { c with rxUnknownSource := c.rxUnknownSource + 1 })
  | some m => dataFrom T a.2 ipBe port aunPort ctrl seq m data

/-- The last frame traced from a sender to a port. -/
def dbgFind (e : Engine) (ipBe : UInt32) (port : UInt16) (aunPort : UInt8) :
    Option (Fin AUN_DBG_PREV_SLOTS) :=
  (List.finRange AUN_DBG_PREV_SLOTS).find? fun i =>
    (e.dbgPrev i).valid && (e.dbgPrev i).ipBe == ipBe && (e.dbgPrev i).udpPort == port &&
      (e.dbgPrev i).aunPort == aunPort

def sameAsPrev (e : Engine) (dp : Option (Fin AUN_DBG_PREV_SLOTS)) (data : List UInt8) : Bool :=
  match dp with
  | none => false
  | some i =>
      decide (data.length ≠ 0) && decide (data.length = (e.dbgPrev i).len) &&
        dbgHash data == (e.dbgPrev i).hash

def dbgVictim (e : Engine) : Fin AUN_DBG_PREV_SLOTS := Fin.ofNat AUN_DBG_PREV_SLOTS e.dbgPrevNext

@[simps -fullyApplied] def Engine.withDbg (e : Engine) (prev : Fin AUN_DBG_PREV_SLOTS → DbgPrev) (next : Nat) :
    Engine :=
  { e with dbgPrev := prev, dbgPrevNext := next }

def dbgRemember (e : Engine) (dp : Option (Fin AUN_DBG_PREV_SLOTS)) (ipBe : UInt32) (port : UInt16)
    (aunPort : UInt8) (data : List UInt8) : Engine :=
  if data.length ≠ 0 ∧ data.length ≤ AUN_MAX_DATA then
    let entry : DbgPrev := ⟨true, ipBe, port, aunPort, data.length, dbgHash data⟩
    match dp with
    | some i => e.withDbg (Function.update e.dbgPrev i entry) e.dbgPrevNext
    | none =>
        e.withDbg (Function.update e.dbgPrev (dbgVictim e) entry)
          ((e.dbgPrevNext + 1) % AUN_DBG_PREV_SLOTS)
  else e

def traceData (e : Engine) (dp : Option (Fin AUN_DBG_PREV_SLOTS)) (verdict : RxVerdict)
    (same : Bool) (ipBe : UInt32) (port : UInt16) (aunPort : UInt8) (seq : UInt32)
    (data : List UInt8) : Engine :=
  if e.traceFn then
    dbgRemember (e.emit (.traced seq aunPort verdict same data)) dp ipBe port aunPort data
  else e

def inputFunnelData (e : Engine) (ipBe : UInt32) (port : UInt16) (aunPort ctrl : UInt8)
    (seq : UInt32) (data : List UInt8) : Engine :=
  let dp := dbgFind e ipBe port aunPort
  let v := dataVerdict T e ipBe port aunPort ctrl seq data
  traceData v.2 dp v.1 (sameAsPrev e dp data) ipBe port aunPort seq data

def inputData (e : Engine) (ipBe : UInt32) (port : UInt16) (aunPort ctrl : UInt8) (seq : UInt32)
    (data : List UInt8) : Engine :=
  if aunPort = 0 ∧ isImm4Ctrl ctrl then rxImm4Data T e ipBe port ctrl seq data
  else inputFunnelData T e ipBe port aunPort ctrl seq data

def broadcastSource (e : Engine) (ipBe : UInt32) (port : UInt16) : UInt8 × UInt8 :=
  match (mapFindByIp e.map ipBe port).bind fun i => e.map[i]? with
  | some m => (m.stn, m.net)
  | none => (0, 0)

def inputBroadcast (e : Engine) (ipBe : UInt32) (port : UInt16) (aunPort ctrl : UInt8)
    (data : List UInt8) : Engine :=
  let src := broadcastSource e ipBe port
  let d := rxDeliver e aunPort ctrl src.1 src.2 data
  match d.1 with
  | .staged _ _ => d.2.count fun c => { c with rxBroadcast := c.rxBroadcast + 1 }
  | .refused _ => d.2

def immWanted (e : Engine) (ctrl : UInt8) (data : List UInt8) : Bool :=
  e.hostImmEnabled && decide (data.length ≤ AUN_HIMM_MAX) && himmLenOk ctrl data

def himmIs (e : Engine) (ipBe : UInt32) (port : UInt16) (seq : UInt32) : Bool :=
  e.himm.ipBe == ipBe && e.himm.port == port && e.himm.seq == seq

def inputImmediate (e : Engine) (ipBe : UInt32) (port : UInt16) (aunPort ctrl : UInt8)
    (seq : UInt32) (data : List UInt8) : Engine :=
  if ctrl = AUN_CTRL_MACHINE_PEEK then sendImmReply T (countImm e) ipBe port ctrl seq e.machineId
  else if immWanted e ctrl data then
    if e.himm.active then
      -- one held at a time: absorb its own retransmit, refuse anything else
      if himmIs e ipBe port seq then countImm e
      else sendAckNak T (countImm e) ipBe port AUN_TYPE_NAK aunPort ctrl seq
    else immFresh T (countImm e) ipBe port aunPort ctrl seq data
  else sendAckNak T (countImm e) ipBe port AUN_TYPE_NAK aunPort ctrl seq

@[simps! -fullyApplied rx map condemned tx counters himm himmCache hostImmEnabled initialised io]
def countBad (e : Engine) : Engine := e.count fun c => { c with rxBad := c.rxBad + 1 }

def aunUdpInput (e : Engine) (ipBe : UInt32) (port : UInt16) (buf : List UInt8) : Engine :=
  if e.initialised = false ∨ buf.length < AUN_HDR_SIZE then countBad e
  else
    let type := buf.getD 0 0
    let aunPort := buf.getD 1 0
    let ctrl := buf.getD 2 0 &&& 0x7F
    let seq := rd32le (buf.drop 4)
    let data := buf.drop AUN_HDR_SIZE
    if type = AUN_TYPE_ACK ∨ type = AUN_TYPE_NAK then inputAckNak T e ipBe port type seq
    else if type = AUN_TYPE_IMM_REPLY then inputImmReply e ipBe port seq data
    else if type = AUN_TYPE_DATA then inputData T e ipBe port aunPort ctrl seq data
    else if type = AUN_TYPE_BROADCAST then inputBroadcast e ipBe port aunPort ctrl data
    else if type = AUN_TYPE_IMMEDIATE then inputImmediate T e ipBe port aunPort ctrl seq data
    else countBad e

def himmExpire (e : Engine) : Engine :=
  (himmRelease (himmCacheStore T
    (sendAckNak T e e.himm.ipBe e.himm.port AUN_TYPE_NAK 0 e.himm.ctrl e.himm.seq) true [])).count
    fun c => { c with himmTimeout := c.himmTimeout + 1 }

def himmReap (e : Engine) : Engine :=
  if e.himm.active then
    if reached (nowMs T e) e.himm.dueMs then himmExpire T (tick e) else tick e
  else e

def txTimeout (e : Engine) : Engine :=
  if e.tx.rejectPending then txSend T (e.withTx { e.tx with rejectPending := false })
  else if e.tx.norespLeft = 0 then txFailWith e .notListening
  else txSend T (e.withTx { e.tx with norespLeft := e.tx.norespLeft - 1 })

def txPoll (e : Engine) : Engine :=
  if e.tx.state ≠ .pending then e
  else if reached (nowMs T e) e.tx.deadlineMs = false then tick e
  else txTimeout T (tick e)

def aunPoll (e : Engine) : Engine :=
  if e.initialised = false then e else txPoll T (himmReap T e)

end Pi1MHz.Aun
