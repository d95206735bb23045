import Pi1MHz.AunEmits

/-!
# What a call can do to the outstanding transmit

`TxStep` lists everything one call can do to the transmit record, to the counters
`tx_ok` and `tx_fail`, and to the wire on behalf of the transmit; `step_tx` proves the
list complete.
-/

namespace Pi1MHz.Aun

variable (T : Transport)

/-! ### The host-immediate functions keep the transmit -/

theorem himmHold_sameTx (e : Engine) (fromData : Bool) (ctrl : UInt8) (seq ipBe : UInt32)
    (port : UInt16) (data : List UInt8) :
    SameTx e (himmHold T e fromData ctrl seq ipBe port data) :=
  ⟨by simp, by simp, by simp⟩

theorem tick_sameTx (e : Engine) : SameTx e (tick e) := ⟨by simp, by simp, by simp⟩

theorem countImm_sameTx (e : Engine) : SameTx e (countImm e) := ⟨by simp, by simp, by simp⟩

theorem rxImm4Data_sameTx (e : Engine) (ipBe : UInt32) (port : UInt16) (ctrl : UInt8) (seq : UInt32)
    (data : List UInt8) : SameTx e (rxImm4Data T e ipBe port ctrl seq data) := by
  have hfresh : ∀ e₁, SameTx e₁ (imm4Fresh T e₁ ipBe port ctrl seq data) := by
    intro e₁
    unfold imm4Fresh
    split_ifs
    · exact SameTx.refl e₁
    · exact himmHold_sameTx T e₁ _ _ _ _ _ _
  unfold rxImm4Data
  refine (countImm_sameTx e).trans ?_
  split_ifs
  · unfold imm4Checked imm4Replay
    split_ifs
    · exact ⟨by simp, by simp, by simp⟩
    · exact ⟨by simp, by simp, by simp⟩
    · exact (tick_sameTx _).trans (hfresh _)
    · exact hfresh _
  · exact sendAckNak_sameTx T _ _ _ _ _ _ _

theorem inputImmediate_sameTx (e : Engine) (ipBe : UInt32) (port : UInt16) (aunPort ctrl : UInt8)
    (seq : UInt32) (data : List UInt8) :
    SameTx e (inputImmediate T e ipBe port aunPort ctrl seq data) := by
  unfold inputImmediate
  refine (countImm_sameTx e).trans ?_
  split_ifs
  · exact ⟨by simp, by simp, by simp⟩
  · exact SameTx.refl _
  · exact sendAckNak_sameTx T _ _ _ _ _ _ _
  · unfold immFresh immReplay
    split_ifs
    · exact ⟨by simp, by simp, by simp⟩
    · exact ⟨by simp, by simp, by simp⟩
    · exact (tick_sameTx _).trans (himmHold_sameTx T _ _ _ _ _ _ _)
    · exact himmHold_sameTx T _ _ _ _ _ _ _
  · exact sendAckNak_sameTx T _ _ _ _ _ _ _

theorem aunHimmReply_sameTx (e : Engine) (data : List UInt8) : SameTx e (aunHimmReply T e data) := by
  unfold aunHimmReply
  split_ifs
  · exact SameTx.refl e
  · exact ⟨by simp, by simp, by simp⟩
  · exact ⟨by simp, by simp, by simp⟩

/-! ### The list of steps -/

def Op.isTransmit : Op → Bool
  | .txStart _ _ _ _ _ => true
  | .immediate _ _ _ _ _ _ => true
  | _ => false

/-- A transmit was asked for and the call returned `AUN_OK`. -/
def accepted (e : Engine) (op : Op) : Bool := op.isTransmit && decide ((exec T e op).1 = .ok)

def Op.loopsBack (e : Engine) : Op → Bool
  | .txStart destNet destStn _ _ _ => isLoopback e destNet destStn
  | .immediate destNet destStn _ _ _ _ => isLoopback e destNet destStn
  | _ => false

def Effect.isTx (x : Effect) : Bool :=
  x.type == some AUN_TYPE_DATA || x.type == some AUN_TYPE_IMMEDIATE

structure TxId where
  wireType : UInt8
  seq : UInt32
  ipBe : UInt32
  udpPort : UInt16
  datagram : List UInt8
deriving DecidableEq

def Tx.id (t : Tx) : TxId := ⟨t.wireType, t.seq, t.ipBe, t.udpPort, t.datagram⟩

def TxId.sent (t : TxId) (ok : Bool) : Effect := .sent t.ipBe t.udpPort t.datagram ok

inductive TxStep (e : Engine) (op : Op) (e' : Engine) : Prop
  | kept (hacc : accepted T e op = false) (h : SameTx e e')
      (hq : Emitted (fun x => x.isTx = false) e e')
  | reset (hop : ∃ station net, op = .init station net) (htx : e'.tx = Tx.zero)
      (hok : e'.counters.txOk = 0) (hfail : e'.counters.txFail = 0)
  | looped (hacc : accepted T e op = true) (hloop : op.loopsBack e = true)
      (hidle : e.tx.state ≠ .pending) (hdone : e'.tx.state = .ok ∨ e'.tx.state = .notListening)
      (hcount : e'.counters.txOk + e'.counters.txFail =
        e.counters.txOk + e.counters.txFail + 1)
      (hleft : e'.tx.norespLeft = e.tx.norespLeft) (hid : e'.tx.id = e.tx.id)
      (hq : Emitted (fun x => x.isTx = false) e e')
  | launched (hacc : accepted T e op = true) (hloop : op.loopsBack e = false)
      (hidle : e.tx.state ≠ .pending)
      (htype : (e'.tx.wireType = AUN_TYPE_DATA ∧ e'.tx.rejectLeft = AUN_REJECT_RETRIES) ∨
        (e'.tx.wireType = AUN_TYPE_IMMEDIATE ∧ e'.tx.rejectLeft = 0))
      (hdgram : e'.tx.datagram.getD 0 0 = e'.tx.wireType) (hrej : e'.tx.rejectPending = false)
      (hleft : e'.tx.norespLeft = 0)
      (hout : ∃ ok, e'.io.out = e.io.out ++ [e'.tx.id.sent ok])
      (hstate : (e'.tx.state = .pending ∧ e'.counters.txOk = e.counters.txOk ∧
          e'.counters.txFail = e.counters.txFail) ∨
        (e'.tx.state = .netError ∧ e'.counters.txOk = e.counters.txOk ∧
          e'.counters.txFail = e.counters.txFail + 1))
  | ended (hacc : accepted T e op = false) (hpend : e.tx.state = .pending)
      (hid : e'.tx.id = e.tx.id) (hleft : e'.tx.norespLeft = e.tx.norespLeft)
      (hstate : (e'.tx.state = .ok ∧ e'.counters.txOk = e.counters.txOk + 1 ∧
          e'.counters.txFail = e.counters.txFail) ∨
        (e'.tx.state = .notListening ∧ e'.counters.txOk = e.counters.txOk ∧
          e'.counters.txFail = e.counters.txFail + 1))
      (hq : Emitted (fun x => x.isTx = false) e e')
  | rejected (hacc : accepted T e op = false) (hpend : e.tx.state = .pending)
      (hid : e'.tx.id = e.tx.id) (hleft : e'.tx.norespLeft = e.tx.norespLeft)
      (hstate : e'.tx.state = .pending) (hbudget : e'.tx.rejectLeft + 1 = e.tx.rejectLeft)
      (hok : e'.counters.txOk = e.counters.txOk) (hfail : e'.counters.txFail = e.counters.txFail)
      (hq : Emitted (fun x => x.isTx = false) e e')
  | resent (hacc : accepted T e op = false) (hpend : e.tx.state = .pending)
      (hwhy : (e.tx.rejectPending = true ∧ e'.tx.norespLeft = e.tx.norespLeft) ∨
        e.tx.norespLeft ≠ 0)
      (hid : e'.tx.id = e.tx.id) (hrej : e'.tx.rejectPending = false)
      (hbudget : e'.tx.rejectLeft = e.tx.rejectLeft)
      (hout : ∃ l ok, e'.io.out = e.io.out ++ l ++ [e.tx.id.sent ok] ∧ ∀ x ∈ l, x.isTx = false)
      (hstate : (e'.tx.state = .pending ∧ e'.counters.txOk = e.counters.txOk ∧
          e'.counters.txFail = e.counters.txFail) ∨
        (e'.tx.state = .netError ∧ e'.counters.txOk = e.counters.txOk ∧
          e'.counters.txFail = e.counters.txFail + 1))

/-! ### The list is complete -/

theorem isTx_of_plain {x : Effect} (h : x.Plain) : x.isTx = false := by
  obtain ⟨-, hdata, himm⟩ := h
  simp [Effect.isTx, hdata, himm]

theorem isTx_ack (ipBe : UInt32) (port : UInt16) (aunPort ctrl : UInt8) (seq : UInt32) (ok : Bool) :
    (ackEffect ipBe port aunPort ctrl seq ok).isTx = false := rfl

theorem Emits.not_isTx {e : Engine} {op : Op} {x : Effect} (h : Emits T e op x)
    (hop : op.mayTransmit = false) : x.isTx = false := by
  cases h with
  | plain h => exact isTx_of_plain h
  | transmit htx => simp [hop] at htx
  | himmAck => exact isTx_ack _ _ _ _ _ _
  | imm4Ack => exact isTx_ack _ _ _ _ _ _
  | dupAck => exact isTx_ack _ _ _ _ _ _
  | takenAck => exact isTx_ack _ _ _ _ _ _

theorem exec_not_isTx (e : Engine) {op : Op} (hop : op.mayTransmit = false) :
    Emitted (fun x => x.isTx = false) e (exec T e op).2 := by
  obtain ⟨l, hl, hP⟩ := exec_emitted T e op
  exact ⟨l, hl, fun x hx => (hP x hx).not_isTx T hop⟩

theorem txSend_tx (e : Engine) (hpend : e.tx.state = .pending) :
    (txSend T e).tx.id = e.tx.id ∧ (txSend T e).tx.rejectLeft = e.tx.rejectLeft ∧
      (txSend T e).tx.rejectPending = e.tx.rejectPending ∧
      (txSend T e).tx.norespLeft = e.tx.norespLeft ∧
      (((txSend T e).tx.state = .pending ∧ (txSend T e).counters.txOk = e.counters.txOk ∧
          (txSend T e).counters.txFail = e.counters.txFail) ∨
        ((txSend T e).tx.state = .netError ∧ (txSend T e).counters.txOk = e.counters.txOk ∧
          (txSend T e).counters.txFail = e.counters.txFail + 1)) := by
  unfold txSend
  dsimp only
  split_ifs
  · simp [Tx.id]
  · simp [Tx.id, hpend]

theorem txCountDone_tx (e : Engine) : (txCountDone e).tx = e.tx ∧
    (txCountDone e).counters.txOk + (txCountDone e).counters.txFail =
      e.counters.txOk + e.counters.txFail + 1 := by
  unfold txCountDone
  split_ifs
  · refine ⟨by simp, ?_⟩
    simp only [Engine.count_counters]
    rw [UInt32.add_assoc, UInt32.add_comm 1, ← UInt32.add_assoc]
  · exact ⟨by simp, (UInt32.add_assoc _ _ _).symm⟩

theorem loopbackImmediate_tx (e : Engine) (replyBuf replyMax : Nat) :
    SameTx (e.withTx { e.tx with replyLen := (loopbackImmediate e replyBuf replyMax).tx.replyLen })
      (loopbackImmediate e replyBuf replyMax) := by
  unfold loopbackImmediate
  dsimp only
  split_ifs <;> exact ⟨by simp, by simp, by simp⟩

theorem loopbackDeliver_tx (e : Engine) (ctrl port : UInt8) (data : List UInt8)
    (hok : e.tx.state = .ok) :
    let e' := loopbackDeliver e ctrl port data
    (e'.tx.state = .ok ∨ e'.tx.state = .notListening) ∧ e'.counters.txOk = e.counters.txOk ∧
      e'.counters.txFail = e.counters.txFail ∧ e'.tx.norespLeft = e.tx.norespLeft ∧
      e'.tx.id = e.tx.id := by
  unfold loopbackDeliver
  dsimp only
  have hdel := rxDeliver_rest e port ctrl e.testStn e.testNet data
  split
  · rw [hdel.tx]
    exact ⟨Or.inl hok, hdel.txOk, hdel.txFail, rfl, rfl⟩
  · rw [hdel.tx]
    exact ⟨Or.inr rfl, hdel.txOk, hdel.txFail, rfl, rfl⟩

theorem txLoopback_tx (e : Engine) (wireType ctrl port : UInt8) (data : List UInt8)
    (replyBuf replyMax : Nat) :
    let e' := txLoopback e wireType ctrl port data replyBuf replyMax
    (e'.tx.state = .ok ∨ e'.tx.state = .notListening) ∧
      e'.counters.txOk + e'.counters.txFail = e.counters.txOk + e.counters.txFail + 1 ∧
      e'.tx.norespLeft = e.tx.norespLeft ∧ e'.tx.id = e.tx.id := by
  unfold txLoopback
  dsimp only
  generalize hstart : e.withTx { e.tx with state := .ok, replyBuf := 0, replyLen := 0 } = e₁
  have hok : e₁.tx.state = .ok := by rw [← hstart]; rfl
  have hsame : e₁.counters = e.counters ∧ e₁.tx.norespLeft = e.tx.norespLeft ∧
      e₁.tx.id = e.tx.id := by
    rw [← hstart]
    exact ⟨rfl, rfl, rfl⟩
  obtain ⟨hc, hn, hi⟩ := hsame
  split_ifs
  · obtain ⟨htx, hcount⟩ := txCountDone_tx (loopbackImmediate e₁ replyBuf replyMax)
    obtain ⟨htx', htok, htfail⟩ := loopbackImmediate_tx e₁ replyBuf replyMax
    rw [htx, hcount, htok, htfail, htx', ← hc]
    exact ⟨Or.inl hok, rfl, hn, hi⟩
  · obtain ⟨htx, hcount⟩ := txCountDone_tx (e₁.withTx { e₁.tx with replyLen := 0 })
    rw [htx, hcount, ← hc]
    exact ⟨Or.inl hok, rfl, hn, hi⟩
  · obtain ⟨htx, hcount⟩ := txCountDone_tx (loopbackDeliver e₁ ctrl port data)
    obtain ⟨hstate, htok, htfail, hleft, hid⟩ := loopbackDeliver_tx e₁ ctrl port data hok
    rw [htx, hcount, htok, htfail, ← hc]
    exact ⟨hstate, rfl, hleft.trans hn, hid.trans hi⟩

theorem txLaunch_tx {e : Engine} {op : Op} {wireType ctrl port : UInt8} {data : List UInt8}
    {replyBuf replyMax : Nat} {destIp : UInt32} {destPort : UInt16}
    (hw : wireType = AUN_TYPE_DATA ∨ wireType = AUN_TYPE_IMMEDIATE)
    (hacc : accepted T e op = true) (hloop : op.loopsBack e = false)
    (hidle : e.tx.state ≠ .pending) :
    TxStep T e op (txLaunch T e wireType ctrl port data replyBuf replyMax destIp destPort) := by
  unfold txLaunch
  generalize hrec : (e.withTx (txRecord e wireType ctrl port data replyBuf replyMax destIp
    destPort)).withNextSeq (e.nextSeq + 4) = e₁
  have htx : e₁.tx = txRecord e wireType ctrl port data replyBuf replyMax destIp destPort := by
    rw [← hrec]
    rfl
  have hc : e₁.counters = e.counters ∧ e₁.io = e.io := by
    rw [← hrec]
    exact ⟨rfl, rfl⟩
  obtain ⟨hid, hleft, hrej, hno, hstate⟩ := txSend_tx T e₁ (by rw [htx]; rfl)
  have htype : (txSend T e₁).tx.wireType = wireType := by
    have hwire : (txSend T e₁).tx.wireType = e₁.tx.wireType := congrArg TxId.wireType hid
    rw [hwire, htx]
    rfl
  refine .launched hacc hloop hidle ?_ ?_ ?_ ?_ ⟨udpSendOk T e₁, ?_⟩ ?_
  · rw [htype, hleft, htx]
    rcases hw with rfl | rfl
    · exact Or.inl ⟨rfl, rfl⟩
    · exact Or.inr ⟨rfl, rfl⟩
  · have hd : (txSend T e₁).tx.datagram = e₁.tx.datagram := congrArg TxId.datagram hid
    rw [hd, htype, htx]
    rfl
  · rw [hrej, htx]
    rfl
  · rw [hno, htx]
    rfl
  · rw [txSend_out, hid, hc.2]
    rfl
  · rwa [hc.1] at hstate

theorem txBegin_tx (e : Engine) {op : Op} {wireType destNet destStn ctrl port : UInt8}
    {data : Payload} {replyBuf replyMax : Nat}
    (hw : wireType = AUN_TYPE_DATA ∨ wireType = AUN_TYPE_IMMEDIATE)
    (hop : op.isTransmit = true) (hloop : op.loopsBack e = isLoopback e destNet destStn)
    (hexec : exec T e op = txBegin T e wireType destNet destStn ctrl port data replyBuf replyMax) :
    TxStep T e op (exec T e op).2 := by
  have hacc : accepted T e op = decide ((exec T e op).1 = .ok) := by simp [accepted, hop]
  rw [hexec] at hacc ⊢
  unfold txBegin at hacc ⊢
  split_ifs at hacc ⊢ with hinit hparam hbusy hlb
  · exact .kept hacc (SameTx.refl e) (.quiet rfl)
  · exact .kept hacc (SameTx.refl e) (.quiet rfl)
  · exact .kept hacc (SameTx.refl e) (.quiet rfl)
  · obtain ⟨hstate, hcount, hleft, hid⟩ :=
      txLoopback_tx e wireType ctrl port data.toList replyBuf replyMax
    exact .looped hacc (hloop.trans hlb) hbusy hstate hcount hleft hid
      (.quiet (txLoopback_out e _ _ _ _ _ _))
  · cases hroute : txRoute e destNet destStn with
    | none =>
      simp only [hroute] at hacc
      exact .kept hacc (SameTx.refl e) (.quiet rfl)
    | some dest =>
      simp only [hroute] at hacc
      exact txLaunch_tx T hw hacc (hloop.trans (by simpa using hlb)) hbusy

theorem aunImmediate_cases (e : Engine) (destNet destStn ctrl : UInt8) (data : Payload)
    (replyBuf replyMax : Nat) :
    aunImmediate T e destNet destStn ctrl data replyBuf replyMax = (.errParam, e) ∨
      ∃ wireType data' replyBuf' replyMax',
        (wireType = AUN_TYPE_DATA ∨ wireType = AUN_TYPE_IMMEDIATE) ∧
        aunImmediate T e destNet destStn ctrl data replyBuf replyMax =
          txBegin T e wireType destNet destStn ctrl 0 data' replyBuf' replyMax' := by
  unfold aunImmediate
  dsimp only
  split_ifs
  · exact Or.inl rfl
  · exact Or.inr ⟨_, _, _, _, Or.inl rfl, rfl⟩
  · exact Or.inr ⟨_, _, _, _, Or.inl rfl, rfl⟩
  · exact Or.inr ⟨_, _, _, _, Or.inr rfl, rfl⟩

theorem aunImmediate_tx (e : Engine) (destNet destStn ctrl : UInt8) (data : Payload)
    (replyBuf replyMax : Nat) :
    TxStep T e (.immediate destNet destStn ctrl data replyBuf replyMax)
      (exec T e (.immediate destNet destStn ctrl data replyBuf replyMax)).2 := by
  rcases aunImmediate_cases T e destNet destStn ctrl data replyBuf replyMax with
    hbad | ⟨wireType, data', replyBuf', replyMax', hw, hbegin⟩
  · have hexec : exec T e (.immediate destNet destStn ctrl data replyBuf replyMax) =
        (.errParam, e) := hbad
    have hacc : accepted T e (.immediate destNet destStn ctrl data replyBuf replyMax) = false := by
      simp [accepted, hexec]
    rw [hexec]
    exact .kept hacc (SameTx.refl e) (.quiet rfl)
  · exact txBegin_tx T e hw rfl rfl hbegin

theorem inputAckNak_tx {e : Engine} {op : Op} (hacc : accepted T e op = false) (ipBe : UInt32)
    (port : UInt16) (type : UInt8) (seq : UInt32) :
    TxStep T e op (inputAckNak T e ipBe port type seq) := by
  have hquiet : Emitted (fun x => x.isTx = false) e (inputAckNak T e ipBe port type seq) :=
    .quiet (inputAckNak_out T e ipBe port type seq)
  unfold inputAckNak txRejected at hquiet ⊢
  split_ifs at hquiet ⊢ with hans hnak hleft hdata
  · have hpend : e.tx.state = .pending := by
      simp only [answersTx, Bool.and_eq_true, decide_eq_true_eq] at hans
      exact hans.1.1.1
    exact .rejected hacc hpend (by simp [Tx.id]) (by simp) (by simpa using hpend)
      (by simp only [tick_tx, Engine.withTx_tx]; omega) (by simp) (by simp) hquiet
  · have hpend : e.tx.state = .pending := by
      simp only [answersTx, Bool.and_eq_true, decide_eq_true_eq] at hans
      exact hans.1.1.1
    exact .ended hacc hpend (by simp [Tx.id]) (by simp) (Or.inr (by simp)) hquiet
  · have hpend : e.tx.state = .pending := by
      simp only [answersTx, Bool.and_eq_true, decide_eq_true_eq] at hans
      exact hans.1.1.1
    exact .ended hacc hpend (by simp [Tx.id]) (by simp) (Or.inl (by simp)) hquiet
  · exact .kept hacc (SameTx.refl e) hquiet
  · exact .kept hacc (SameTx.refl e) hquiet

theorem storeReply_tx (e : Engine) (data : List UInt8) :
    (storeReply e data).tx.id = e.tx.id ∧ (storeReply e data).tx.norespLeft = e.tx.norespLeft ∧
      (storeReply e data).counters = e.counters := by
  unfold storeReply
  dsimp only
  split_ifs <;> exact ⟨by simp [Tx.id], by simp, by simp⟩

theorem inputImmReply_tx {e : Engine} {op : Op} (hacc : accepted T e op = false) (ipBe : UInt32)
    (port : UInt16) (seq : UInt32) (data : List UInt8) :
    TxStep T e op (inputImmReply e ipBe port seq data) := by
  have hquiet : Emitted (fun x => x.isTx = false) e (inputImmReply e ipBe port seq data) :=
    .quiet (inputImmReply_out e ipBe port seq data)
  unfold inputImmReply at hquiet ⊢
  split_ifs at hquiet ⊢ with hans
  · simp only [answersTx, Bool.and_eq_true, decide_eq_true_eq] at hans
    obtain ⟨hid, hleft, hc⟩ := storeReply_tx e data
    refine .ended hacc hans.1.1.1.1 ?_ (by simpa using hleft) (Or.inl ?_) hquiet
    · rw [← hid]
      simp [Tx.id]
    · simp [hc]
  · exact .kept hacc (SameTx.refl e) hquiet

theorem aunUdpInput_tx (e : Engine) (ipBe : UInt32) (port : UInt16) (buf : List UInt8) :
    TxStep T e (.udpInput ipBe port buf) (aunUdpInput T e ipBe port buf) := by
  have hacc : accepted T e (.udpInput ipBe port buf) = false := rfl
  have hquiet : Emitted (fun x => x.isTx = false) e (aunUdpInput T e ipBe port buf) :=
    (exec_not_isTx T e rfl : Emitted _ e (exec T e (.udpInput ipBe port buf)).2)
  unfold aunUdpInput at hquiet ⊢
  dsimp only at hquiet ⊢
  split_ifs at hquiet ⊢ with hshort htx hreply hdata hbcast himm
  · exact .kept hacc ⟨by simp, by simp, by simp⟩ hquiet
  · exact inputAckNak_tx T hacc ipBe port _ _
  · exact inputImmReply_tx T hacc ipBe port _ _
  · refine .kept hacc ?_ hquiet
    unfold inputData
    split_ifs
    · exact rxImm4Data_sameTx T e ipBe port _ _ _
    · exact (inputFunnelData_rest T e ipBe port _ _ _ _).toSameTx
  · exact .kept hacc (inputBroadcast_rest e ipBe port _ _ _).toSameTx hquiet
  · exact .kept hacc (inputImmediate_sameTx T e ipBe port _ _ _ _) hquiet
  · exact .kept hacc ⟨by simp, by simp, by simp⟩ hquiet

theorem himmReap_not_isTx (e : Engine) :
    Emitted (fun x => x.isTx = false) e (himmReap T e) := by
  obtain ⟨l, hl, hP⟩ : Emitted (Emits T e (.rxReady 0)) e (himmReap T e) := himmReap_emitted T e
  exact ⟨l, hl, fun x hx => (hP x hx).not_isTx T rfl⟩

theorem txPoll_tx {e e₁ : Engine} (hsame : SameTx e e₁)
    (hq : Emitted (fun x => x.isTx = false) e e₁) : TxStep T e .poll (txPoll T e₁) := by
  have hacc : accepted T e .poll = false := rfl
  obtain ⟨l, hl, hP⟩ := hq
  have htick : (tick e₁).io.out = e.io.out ++ l := by simpa using hl
  have hquiet : Emitted (fun x => x.isTx = false) e (tick e₁) := ⟨l, htick, hP⟩
  -- a resend, with the record changed to `t` first
  have hsend : ∀ t : Tx, e.tx.state = .pending → t.state = .pending → t.id = e.tx.id →
      t.rejectLeft = e.tx.rejectLeft → t.rejectPending = false →
      ((e.tx.rejectPending = true ∧ t.norespLeft = e.tx.norespLeft) ∨ e.tx.norespLeft ≠ 0) →
      TxStep T e .poll (txSend T ((tick e₁).withTx t)) := by
    intro t hpend hstate hid hleft hrej hwhy
    obtain ⟨hid', hleft', hrej', hno', hstate'⟩ := txSend_tx T ((tick e₁).withTx t) hstate
    refine .resent hacc hpend ?_ (hid'.trans hid) (hrej'.trans hrej) (hleft'.trans hleft)
      ⟨l, udpSendOk T ((tick e₁).withTx t), ?_, hP⟩ ?_
    · exact hwhy.imp_left fun h => ⟨h.1, hno'.trans h.2⟩
    · rw [txSend_out, ← hid, ← htick]
      rfl
    · simpa [hsame.txOk, hsame.txFail] using hstate'
  unfold txPoll txTimeout
  split_ifs with hpend hdue hrej hleft
  · exact .kept hacc hsame ⟨l, hl, hP⟩
  · exact .kept hacc (hsame.trans (tick_sameTx _)) hquiet
  · have hp : e.tx.state = .pending := by rw [← hsame.tx]; simpa using hpend
    refine hsend _ hp ?_ ?_ ?_ rfl ?_
    · simpa [hsame.tx] using hp
    · simp [hsame.tx, Tx.id]
    · simp [hsame.tx]
    · left
      simpa [hsame.tx] using hrej
  · have hp : e.tx.state = .pending := by rw [← hsame.tx]; simpa using hpend
    refine .ended hacc hp ?_ ?_ (Or.inr ?_) ⟨l, by simpa using hl, hP⟩
    · simp [hsame.tx, Tx.id]
    · simp [hsame.tx]
    · simp [hsame.txOk, hsame.txFail]
  · have hp : e.tx.state = .pending := by rw [← hsame.tx]; simpa using hpend
    refine hsend _ hp ?_ ?_ ?_ ?_ ?_
    · simpa [hsame.tx] using hp
    · simp [hsame.tx, Tx.id]
    · simp [hsame.tx]
    · simpa using hrej
    · right
      simpa [hsame.tx] using hleft

theorem aunPoll_tx (e : Engine) : TxStep T e .poll (aunPoll T e) := by
  unfold aunPoll
  split_ifs
  · exact .kept rfl (SameTx.refl e) (.quiet rfl)
  · exact txPoll_tx T (himmReap_sameTx T e) (himmReap_not_isTx T e)

theorem exec_tx (e : Engine) (op : Op) : TxStep T e op (exec T e op).2 := by
  have hq : op.mayTransmit = false → Emitted (fun x => x.isTx = false) e (exec T e op).2 :=
    exec_not_isTx T e
  cases op with
  | init station net => exact .reset ⟨station, net, rfl⟩ rfl rfl rfl
  | mapAdd net stn ipBe port =>
    refine .kept rfl ?_ (hq rfl)
    change SameTx e (aunMapAdd e net stn ipBe port).2
    rw [aunMapAdd_eq]
    exact ⟨rfl, rfl, rfl⟩
  | setAddressing b s m l => exact .kept rfl ⟨rfl, rfl, rfl⟩ (hq rfl)
  | testResponder enable stn net => exact .kept rfl ⟨rfl, rfl, rfl⟩ (hq rfl)
  | setMachineId id => exact .kept rfl ⟨rfl, rfl, rfl⟩ (hq rfl)
  | setTrace installed => exact .kept rfl ⟨rfl, rfl, rfl⟩ (hq rfl)
  | setHostImm enable => exact .kept rfl ⟨rfl, rfl, rfl⟩ (hq rfl)
  | himmReply data => exact .kept rfl (aunHimmReply_sameTx T e data) (hq rfl)
  | rxOpen handle port stn net buf bufSize =>
    exact .kept rfl (aunRxOpen_rest e handle port stn net buf bufSize).toSameTx (hq rfl)
  | rxPoll handle => exact .kept rfl (aunRxPoll_rest T e handle).toSameTx (hq rfl)
  | rxReady handle => exact .kept rfl (aunRxReady_rest T e handle).toSameTx (hq rfl)
  | rxCollect handle accept =>
    exact .kept rfl (aunRxCollect_rest T e handle accept).toSameTx (hq rfl)
  | rxClose handle => exact .kept rfl (aunRxClose_rest e handle).toSameTx (hq rfl)
  | txStart destNet destStn ctrl port data => exact txBegin_tx T e (Or.inl rfl) rfl rfl rfl
  | immediate destNet destStn ctrl data replyBuf replyMax =>
    exact aunImmediate_tx T e destNet destStn ctrl data replyBuf replyMax
  | broadcast ctrl port data => exact .kept rfl (aunBroadcast_same T e ctrl port data).2.2 (hq rfl)
  | udpInput ipBe port buf => exact aunUdpInput_tx T e ipBe port buf
  | poll => exact aunPoll_tx T e

theorem step_tx (e : Engine) (op : Op) : TxStep T e.beginCall op (step T e op) :=
  exec_tx T e.beginCall op

end Pi1MHz.Aun
