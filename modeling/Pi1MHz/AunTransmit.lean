import Pi1MHz.AunReceive

/-!
# The AUN engine: transmit

The single outstanding transmit (`aun.c`, "transmit"): acceptance, the loopback
test responder, the 4-way immediates carried as DATA to port 0, and broadcasts.
-/

namespace Pi1MHz.Aun

variable (T : Transport)

def isImm4Ctrl (ctrl : UInt8) : Bool :=
  decide (AUN_CTRL_IMM4_FIRST ≤ ctrl) && decide (ctrl ≤ AUN_CTRL_IMM4_LAST)

def isLoopback (e : Engine) (destNet destStn : UInt8) : Bool :=
  e.testEnabled && destStn == e.testStn && destNet == e.testNet

def loopbackImmediate (e : Engine) (replyBuf replyMax : Nat) : Engine :=
  let n := if replyMax < 4 then replyMax else 4
  (if replyBuf ≠ 0 then e.storeMem replyBuf (e.machineId.take n) else e).withTx
    { e.tx with replyLen := n }

def loopbackDeliver (e : Engine) (ctrl port : UInt8) (data : List UInt8) : Engine :=
  let d := rxDeliver e port ctrl e.testStn e.testNet data
  match d.1 with
  | .staged _ _ => d.2
  | .refused _ => d.2.withTx { d.2.tx with state := .notListening }

def txCountDone (e : Engine) : Engine :=
  if e.tx.state = .ok then e.count fun c => { c with txOk := c.txOk + 1 }
  else e.count fun c => { c with txFail := c.txFail + 1 }

def txLoopback (e : Engine) (wireType ctrl port : UInt8) (data : List UInt8)
    (replyBuf replyMax : Nat) : Engine :=
  let e := e.withTx { e.tx with state := .ok, replyBuf := 0, replyLen := 0 }
  if wireType = AUN_TYPE_IMMEDIATE then txCountDone (loopbackImmediate e replyBuf replyMax)
  else if port = 0 ∧ isImm4Ctrl ctrl then txCountDone (e.withTx { e.tx with replyLen := 0 })
  else txCountDone (loopbackDeliver e ctrl port data)

def txRoute (e : Engine) (destNet destStn : UInt8) : Option (UInt32 × UInt16) :=
  match mapFindByAddr e.map destNet destStn with
  | some i => e.map[i]?.map fun m => (m.ipBe, m.udpPort)
  | none => learnResolve e destNet destStn

def txRecord (e : Engine) (wireType ctrl port : UInt8) (data : List UInt8)
    (replyBuf replyMax : Nat) (destIp : UInt32) (destPort : UInt16) : Tx :=
  { e.tx with
    wireType := wireType
    seq := e.nextSeq
    ipBe := destIp
    udpPort := destPort
    datagram := buildHeader wireType port ctrl e.nextSeq ++ data
    norespLeft := AUN_NORESP_RETRIES
    rejectLeft := if wireType = AUN_TYPE_DATA then AUN_REJECT_RETRIES else 0
    rejectPending := false
    replyBuf := replyBuf
    replyMax := replyMax
    replyLen := 0
    state := .pending }

@[simps! -fullyApplied rx map condemned tx counters himm himmCache hostImmEnabled initialised io]
def txFailWith (e : Engine) (code : Status) : Engine :=
  (e.withTx { e.tx with state := code }).count fun c => { c with txFail := c.txFail + 1 }

def txSend (e : Engine) : Engine :=
  let e' := udpSend T e e.tx.ipBe e.tx.udpPort e.tx.datagram
  if udpSendOk T e = false then txFailWith e' .netError
  else tick (e'.withTx { e'.tx with deadlineMs := nowMs T e' + AUN_NORESP_TIMEOUT_MS })

def txLaunch (e : Engine) (wireType ctrl port : UInt8) (data : List UInt8)
    (replyBuf replyMax : Nat) (destIp : UInt32) (destPort : UInt16) : Engine :=
  txSend T ((e.withTx (txRecord e wireType ctrl port data replyBuf replyMax destIp destPort)).withNextSeq
    (e.nextSeq + 4))

def txBegin (e : Engine) (wireType destNet destStn ctrl port : UInt8) (data : Payload)
    (replyBuf replyMax : Nat) : Status × Engine :=
  if e.initialised = false then (.errNotReady, e)
  else if data.len > AUN_MAX_DATA ∨ (data.len ≠ 0 ∧ data.isNull) then (.errParam, e)
  else if e.tx.state = .pending then (.busy, e)
  else if isLoopback e destNet destStn then
    (.ok, txLoopback e wireType ctrl port data.toList replyBuf replyMax)
  else
    match txRoute e destNet destStn with
    | none => (.noRoute, e)
    | some (destIp, destPort) =>
        (.ok, txLaunch T e wireType ctrl port data.toList replyBuf replyMax destIp destPort)

def aunTxStart (e : Engine) (destNet destStn ctrl port : UInt8) (data : Payload) :
    Status × Engine :=
  txBegin T e AUN_TYPE_DATA destNet destStn ctrl port data 0 0

def pokePayload (data : List UInt8) : List UInt8 :=
  data.take 4 ++ wr32le (UInt32.ofNat (data.length - 4)) ++ data.drop 4

def aunImmediate (e : Engine) (destNet destStn ctrl : UInt8) (data : Payload)
    (replyBuf replyMax : Nat) : Status × Engine :=
  let c := ctrl &&& 0x7F
  if isImm4Ctrl c then
    if c = AUN_CTRL_POKE then
      if data.isNull ∨ data.len < 4 ∨ data.len > AUN_MAX_DATA - 4 then (.errParam, e)
      else txBegin T e AUN_TYPE_DATA destNet destStn ctrl 0 (.bytes (pokePayload data.toList)) 0 0
    else txBegin T e AUN_TYPE_DATA destNet destStn ctrl 0 data 0 0
  else txBegin T e AUN_TYPE_IMMEDIATE destNet destStn ctrl 0 data replyBuf replyMax

def sendToMap (e : Engine) (dgram : List UInt8) (map : List MapEntry) : Engine :=
  map.foldl (fun e m => udpSend T e m.ipBe m.udpPort dgram) e

def aunBroadcast (e : Engine) (ctrl port : UInt8) (data : Payload) : Status × Engine :=
  if e.initialised = false then (.errNotReady, e)
  else if data.len > AUN_MAX_DATA ∨ (data.len ≠ 0 ∧ data.isNull) then (.errParam, e)
  else
    let dgram := buildHeader AUN_TYPE_BROADCAST port ctrl e.nextSeq ++ data.toList
    let e := sendToMap T (e.withNextSeq (e.nextSeq + 4)) dgram e.map
    (.ok,
      if e.broadcastIpBe ≠ 0 then udpSend T e e.broadcastIpBe AUN_DEFAULT_UDP_PORT dgram else e)

def aunTxStatus (e : Engine) : Status := e.tx.state

def aunTxReplyLen (e : Engine) : Nat := e.tx.replyLen

/-! ### Refused transmits -/

section

variable {T} {e : Engine} {wireType destNet destStn ctrl port : UInt8} {data : Payload}
  {replyBuf replyMax : Nat}

theorem txBegin_refused
    (h : (txBegin T e wireType destNet destStn ctrl port data replyBuf replyMax).1 ≠ .ok) :
    (txBegin T e wireType destNet destStn ctrl port data replyBuf replyMax).2 = e := by
  rw [txBegin] at h ⊢
  by_cases hready : e.initialised = false
  · rw [if_pos hready]
  · rw [if_neg hready] at h ⊢
    by_cases hparam : data.len > AUN_MAX_DATA ∨ (data.len ≠ 0 ∧ data.isNull)
    · rw [if_pos hparam]
    · rw [if_neg hparam] at h ⊢
      by_cases hbusy : e.tx.state = .pending
      · rw [if_pos hbusy]
      · rw [if_neg hbusy] at h ⊢
        by_cases hloop : isLoopback e destNet destStn = true
        · rw [if_pos hloop] at h
          exact absurd rfl h
        · rw [if_neg hloop] at h ⊢
          cases hroute : txRoute e destNet destStn with
          | none => rfl
          | some route =>
            rw [hroute] at h
            exact absurd rfl h

theorem aunImmediate_refused (h : (aunImmediate T e destNet destStn ctrl data replyBuf replyMax).1 ≠ .ok) :
    (aunImmediate T e destNet destStn ctrl data replyBuf replyMax).2 = e := by
  rw [aunImmediate] at h ⊢
  by_cases hfour : isImm4Ctrl (ctrl &&& 0x7F) = true
  · rw [if_pos hfour] at h ⊢
    by_cases hpoke : ctrl &&& 0x7F = AUN_CTRL_POKE
    · rw [if_pos hpoke] at h ⊢
      by_cases hshort : data.isNull ∨ data.len < 4 ∨ data.len > AUN_MAX_DATA - 4
      · rw [if_pos hshort]
      · rw [if_neg hshort] at h ⊢
        exact txBegin_refused h
    · rw [if_neg hpoke] at h ⊢
      exact txBegin_refused h
  · rw [if_neg hfour] at h ⊢
    exact txBegin_refused h

theorem aunBroadcast_refused (h : (aunBroadcast T e ctrl port data).1 ≠ .ok) :
    (aunBroadcast T e ctrl port data).2 = e := by
  rw [aunBroadcast] at h ⊢
  by_cases hready : e.initialised = false
  · rw [if_pos hready]
  · rw [if_neg hready] at h ⊢
    by_cases hparam : data.len > AUN_MAX_DATA ∨ (data.len ≠ 0 ∧ data.isNull)
    · rw [if_pos hparam]
    · rw [if_neg hparam] at h
      exact absurd rfl h

end

/-- A transmit that is not accepted leaves the engine as it was, what has been sent included. -/
theorem refused_transmit (e : Engine) :
    (∀ destNet destStn ctrl port data, (aunTxStart T e destNet destStn ctrl port data).1 ≠ .ok →
      (aunTxStart T e destNet destStn ctrl port data).2 = e) ∧
    (∀ destNet destStn ctrl data replyBuf replyMax,
      (aunImmediate T e destNet destStn ctrl data replyBuf replyMax).1 ≠ .ok →
        (aunImmediate T e destNet destStn ctrl data replyBuf replyMax).2 = e) ∧
    (∀ ctrl port data, (aunBroadcast T e ctrl port data).1 ≠ .ok →
      (aunBroadcast T e ctrl port data).2 = e) := by
  refine ⟨?_, ?_, ?_⟩
  · intro destNet destStn ctrl port data h
    exact txBegin_refused h
  · intro destNet destStn ctrl data replyBuf replyMax h
    exact aunImmediate_refused h
  · intro ctrl port data h
    exact aunBroadcast_refused h

/-- A second transmit is refused while the first is pending. -/
theorem refused_transmit_busy :
    let T : Transport := ⟨fun k => k, fun _ => true⟩
    let mapped := (aunMapAdd (aunInit (Engine.zero ⟨fun _ => 0, 0, 0, []⟩) 1 0) 0 5 0x0100007F 0).2
    let e := (aunTxStart T mapped 0 5 0x80 0x99 (.bytes [7])).2
    e.tx.state = .pending ∧ (aunTxStart T e 0 5 0x80 0x99 (.bytes [8])).2 = e := by
  intro T mapped e
  exact ⟨by decide, (refused_transmit T e).1 0 5 0x80 0x99 (.bytes [8]) (by decide)⟩

end Pi1MHz.Aun
