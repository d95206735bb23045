import Pi1MHz.AunHimmSteps
import Pi1MHz.AunRxSteps
import Mathlib.Tactic.IntervalCases

/-!
# What a call can send

`Emits` lists every datagram a call can hand to the stack, with the state that earns
it.  It is written for the questions asked later: which ACKs are sent and why, and
which datagrams belong to the outstanding transmit.
-/

namespace Pi1MHz.Aun

variable (T : Transport)

/-- `e'` has done more than `e`, and everything it did since satisfies `P`. -/
def Emitted (P : Effect → Prop) (e e' : Engine) : Prop :=
  ∃ l, e'.io.out = e.io.out ++ l ∧ ∀ x ∈ l, P x

theorem Emitted.quiet {P : Effect → Prop} {e e' : Engine} (h : e'.io.out = e.io.out) :
    Emitted P e e' :=
  ⟨[], by simpa using h, fun _ hx => by cases hx⟩

theorem Emitted.one {P : Effect → Prop} {e e' : Engine} {x : Effect}
    (h : e'.io.out = e.io.out ++ [x]) (hx : P x) : Emitted P e e' :=
  ⟨[x], h, fun y hy => by rw [List.mem_singleton.mp hy]; exact hx⟩

theorem Emitted.trans {P : Effect → Prop} {e e' e'' : Engine} (h : Emitted P e e')
    (h' : Emitted P e' e'') : Emitted P e e'' := by
  obtain ⟨l, hl, hP⟩ := h
  obtain ⟨l', hl', hP'⟩ := h'
  refine ⟨l ++ l', by rw [hl', hl, List.append_assoc], ?_⟩
  intro x hx
  rcases List.mem_append.mp hx with hx | hx
  · exact hP x hx
  · exact hP' x hx

/-! ### Datagrams -/

def Effect.type : Effect → Option UInt8
  | .sent _ _ dgram _ => some (dgram.getD 0 0)
  | .traced _ _ _ _ _ => none

def Effect.Plain (x : Effect) : Prop :=
  x.type ≠ some AUN_TYPE_ACK ∧ x.type ≠ some AUN_TYPE_DATA ∧ x.type ≠ some AUN_TYPE_IMMEDIATE

theorem plain_of_type {ipBe : UInt32} {port : UInt16} {dgram : List UInt8} {ok : Bool}
    (type : UInt8) (h : dgram.getD 0 0 = type)
    (htype : type ≠ AUN_TYPE_ACK ∧ type ≠ AUN_TYPE_DATA ∧ type ≠ AUN_TYPE_IMMEDIATE) :
    (Effect.sent ipBe port dgram ok).Plain := by
  subst h
  exact ⟨fun h => htype.1 (Option.some.inj h), fun h => htype.2.1 (Option.some.inj h),
    fun h => htype.2.2 (Option.some.inj h)⟩

theorem plain_traced (seq : UInt32) (port : UInt8) (verdict : RxVerdict) (same : Bool)
    (data : List UInt8) : (Effect.traced seq port verdict same data).Plain := by
  refine ⟨?_, ?_, ?_⟩ <;> (intro h; cases h)

theorem rd32le_wr32le (v : UInt32) (rest : List UInt8) : rd32le (wr32le v ++ rest) = v := by
  apply UInt32.toBitVec_inj.mp
  simp only [rd32le, wr32le, List.cons_append, List.nil_append, List.getD_cons_zero,
    List.getD_cons_succ, UInt32.toBitVec_or, UInt32.toBitVec_shiftLeft, UInt8.toBitVec_toUInt32,
    UInt32.toBitVec_toUInt8, UInt32.toBitVec_shiftRight]
  apply BitVec.eq_of_getLsbD_eq
  intro i hi
  simp only [BitVec.getLsbD_or, BitVec.getLsbD_setWidth, BitVec.shiftLeft_eq',
    BitVec.getLsbD_shiftLeft, BitVec.ushiftRight_eq', BitVec.getLsbD_ushiftRight]
  interval_cases i <;> simp

theorem buildHeader_seq (type port ctrl : UInt8) (seq : UInt32) (rest : List UInt8) :
    rd32le ((buildHeader type port ctrl seq ++ rest).drop 4) = seq := by
  have hdrop : (buildHeader type port ctrl seq ++ rest).drop 4 = wr32le seq ++ rest := rfl
  rw [hdrop, rd32le_wr32le]

def ackEffect (ipBe : UInt32) (port : UInt16) (aunPort ctrl : UInt8) (seq : UInt32) (ok : Bool) :
    Effect :=
  .sent ipBe port (buildHeader AUN_TYPE_ACK aunPort ctrl seq) ok

def Op.mayTransmit : Op → Bool
  | .txStart _ _ _ _ _ => true
  | .immediate _ _ _ _ _ _ => true
  | .poll => true
  | _ => false

inductive Emits (e : Engine) : Op → Effect → Prop
  | plain {op x} (h : x.Plain) : Emits e op x
  | transmit {op ipBe port dgram ok} (hop : op.mayTransmit = true)
      (h : dgram.getD 0 0 = AUN_TYPE_DATA ∨ dgram.getD 0 0 = AUN_TYPE_IMMEDIATE ∨
        (e.tx.state = .pending ∧ dgram = e.tx.datagram)) : Emits e op (.sent ipBe port dgram ok)
  | himmAck {data ok} (hact : e.himm.active = true) (hfrom : e.himm.fromData = true) :
      Emits e (.himmReply data) (ackEffect e.himm.ipBe e.himm.port 0 e.himm.ctrl e.himm.seq ok)
  | imm4Ack {ipBe port buf aunPort ctrl seq data ok} (hd : ImmData buf true aunPort ctrl seq data)
      (hhit : himmReplays T e true ipBe port seq = true) (hack : e.himmCache.isNak = false) :
      Emits e (.udpInput ipBe port buf) (ackEffect ipBe port 0 ctrl seq ok)
  | dupAck {ipBe port buf aunPort ctrl seq data m ok} (hd : FunnelData buf aunPort ctrl seq data)
      (hm : sourceEntry e ipBe port = some m) (hnew : rxSeqPending e ipBe port seq = false)
      (hvalid : m.seqValid = true) (hseq : seq = m.lastRxSeq) :
      Emits e (.udpInput ipBe port buf) (ackEffect ipBe port aunPort ctrl seq ok)
  | takenAck {handle accept i off f ok} (hc : Collects T e handle i off f) (hip : f.srcIpBe ≠ 0)
      (hwhy : accept = true ∨ rejectBudget (collectCondemned T e i f.stream).hit ≤ f.rejects) :
      Emits e (.rxCollect handle accept) (ackEffect f.srcIpBe f.srcPort f.port f.ctrl f.seq ok)

theorem sendAckNak_out (e : Engine) (ipBe : UInt32) (port : UInt16) (type aunPort ctrl : UInt8)
    (seq : UInt32) : (sendAckNak T e ipBe port type aunPort ctrl seq).io.out = e.io.out ++
      [.sent ipBe port (buildHeader type aunPort ctrl seq) (udpSendOk T e)] := by
  simp

theorem udpSend_emitted {op : Op} {e : Engine} {dgram : List UInt8} (e₁ : Engine) (ipBe : UInt32)
    (port : UInt16) (hplain : ∀ ok, (Effect.sent ipBe port dgram ok).Plain) :
    Emitted (Emits T e op) e₁ (udpSend T e₁ ipBe port dgram) :=
  .one (x := .sent ipBe port dgram (udpSendOk T e₁)) (by simp) (.plain (hplain _))

theorem sendNak_emitted {op : Op} {e e₁ : Engine} (ipBe : UInt32) (port : UInt16)
    (aunPort ctrl : UInt8) (seq : UInt32) :
    Emitted (Emits T e op) e₁ (sendAckNak T e₁ ipBe port AUN_TYPE_NAK aunPort ctrl seq) :=
  .one (sendAckNak_out T e₁ _ _ _ _ _ _) (.plain (plain_of_type AUN_TYPE_NAK rfl (by decide)))

/-! ### The receive functions -/

theorem collectReject_emitted {e : Engine} {handle : UInt8} {i : Fin AUN_RX_BLOCKS} {off : Nat}
    (hc : Collects T e handle i off ((e.rx i).frameAt off)) :
    Emitted (Emits T e (.rxCollect handle false)) e (collectReject T (scanned T e i) i off) := by
  unfold collectReject
  simp only [scanned_rx_self, collectScan_frameAt]
  split_ifs with hip hbudget
  · exact .quiet (by simp [scanned])
  · refine .one (x := ackEffect _ _ _ _ _ (udpSendOk T e)) ?_ (.takenAck hc hip (Or.inr hbudget))
    simp [collectShed, scanned, ackEffect, udpSendOk]
  · exact .quiet (by simp [collectDefer, scanned])

theorem collectAccept_emitted {e : Engine} {handle : UInt8} {i : Fin AUN_RX_BLOCKS} {off : Nat}
    (hc : Collects T e handle i off ((e.rx i).frameAt off)) :
    Emitted (Emits T e (.rxCollect handle true)) e (collectAccept T (scanned T e i) i off) := by
  unfold collectAccept
  simp only [scanned_rx_self, collectScan_frameAt]
  split_ifs with hip
  · refine .one (x := ackEffect _ _ _ _ _ (udpSendOk T e)) ?_ (.takenAck hc hip (Or.inl rfl))
    simp [scanned, ackEffect, udpSendOk]
  · exact .quiet (by simp [scanned])

theorem aunRxCollect_emitted (e : Engine) (handle : UInt8) (accept : Bool) :
    Emitted (Emits T e (.rxCollect handle accept)) e (aunRxCollect T e handle accept).2 := by
  unfold aunRxCollect
  cases hi : openBlock e handle with
  | none => exact .quiet rfl
  | some i =>
    dsimp only
    split_ifs with hcount
    swap
    · exact .quiet (by simp)
    have hquiet : ∀ e', Emitted (Emits T e (.rxCollect handle accept)) e' (unpresent e' i) :=
      fun e' => .quiet (by simp)
    refine Emitted.trans ?_ (hquiet _)
    unfold collectFrame
    cases hoff : (collectScan T e i).off with
    | none => exact .quiet (by simp [scanned])
    | some off =>
      have hc : Collects T e handle i off ((e.rx i).frameAt off) := ⟨hi, hcount, hoff, rfl⟩
      cases accept with
      | true => exact collectAccept_emitted T hc
      | false => exact collectReject_emitted T hc

theorem aunRxPoll_out (e : Engine) (handle : UInt8) :
    (aunRxPoll T e handle).2.2.io.out = e.io.out := by
  unfold aunRxPoll
  split
  · rfl
  · dsimp only
    split_ifs
    · rfl
    · rfl
    · split <;> simp

theorem aunRxReady_out (e : Engine) (handle : UInt8) :
    (aunRxReady T e handle).2.io.out = e.io.out := by
  unfold aunRxReady
  split
  · rfl
  · simp

theorem rxDeliver_out (e : Engine) (port ctrl srcStn srcNet : UInt8) (data : List UInt8) :
    (rxDeliver e port ctrl srcStn srcNet data).2.io = e.io := by
  rcases rxDeliver_cases e port ctrl srcStn srcNet data with ⟨i, hs, hd⟩ | ⟨why, c, hd, -⟩
  · rw [hd]
    simp
  · rw [hd]
    rfl

theorem dataFrom_emitted {e : Engine} {map : List MapEntry} {ipBe : UInt32} {port : UInt16}
    {buf : List UInt8} {aunPort ctrl : UInt8} {seq : UInt32} {data : List UInt8} {m : MapEntry}
    (hd : FunnelData buf aunPort ctrl seq data) (hm : sourceEntry e ipBe port = some m) :
    Emitted (Emits T e (.udpInput ipBe port buf)) e
      (dataFrom T (e.withMap map) ipBe port aunPort ctrl seq m data).2 := by
  have hsame : rxSeqPending (e.withMap map) ipBe port seq = rxSeqPending e ipBe port seq := rfl
  unfold dataFrom
  rw [hsame]
  split_ifs with hpend hdup
  · exact .quiet (by simp)
  · exact .one (sendAckNak_out T (countDup (e.withMap map)) _ _ _ _ _ _)
      (.dupAck hd hm (by simpa using hpend) hdup.1 hdup.2)
  · unfold dataDeliver
    dsimp only
    have hdel := rxDeliver_out (e.withMap map) aunPort ctrl m.stn m.net data
    split
    · exact .quiet (by simp [hdel])
    · exact .quiet (by simp [hdel])
    · refine Emitted.trans (.quiet ?_) (sendNak_emitted T ipBe port aunPort ctrl seq)
      rw [hdel]
      rfl

theorem traceData_emitted {op : Op} {e e₁ : Engine} (dp : Option (Fin AUN_DBG_PREV_SLOTS))
    (verdict : RxVerdict) (same : Bool) (ipBe : UInt32) (port : UInt16) (aunPort : UInt8)
    (seq : UInt32) (data : List UInt8) :
    Emitted (Emits T e op) e₁ (traceData e₁ dp verdict same ipBe port aunPort seq data) := by
  unfold traceData
  split_ifs
  · have hio := (dbgRemember_same (e₁.emit (.traced seq aunPort verdict same data)) dp ipBe port aunPort
      data).2.2
    refine .one (x := .traced seq aunPort verdict same data) ?_ (.plain (plain_traced _ _ _ _ _))
    rw [hio]
    simp
  · exact .quiet rfl

theorem inputFunnelData_emitted {e : Engine} {ipBe : UInt32} {port : UInt16} {buf : List UInt8}
    {aunPort ctrl : UInt8} {seq : UInt32} {data : List UInt8}
    (hd : FunnelData buf aunPort ctrl seq data) :
    Emitted (Emits T e (.udpInput ipBe port buf)) e
      (inputFunnelData T e ipBe port aunPort ctrl seq data) := by
  unfold inputFunnelData
  refine Emitted.trans ?_ (traceData_emitted T _ _ _ _ _ _ _ _)
  have ha := attributeSource_eq e ipBe port
  unfold dataVerdict
  dsimp only
  split
  · refine .quiet ?_
    rw [ha]
    simp
  · rename_i m hm
    rw [ha]
    exact dataFrom_emitted T hd hm

theorem inputBroadcast_out (e : Engine) (ipBe : UInt32) (port : UInt16) (aunPort ctrl : UInt8)
    (data : List UInt8) : (inputBroadcast e ipBe port aunPort ctrl data).io.out = e.io.out := by
  unfold inputBroadcast
  dsimp only
  have hdel := rxDeliver_out e aunPort ctrl (broadcastSource e ipBe port).1
    (broadcastSource e ipBe port).2 data
  split
  · simp [hdel]
  · rw [hdel]

/-! ### Transmits -/

theorem txSend_out (e : Engine) : (txSend T e).io.out =
    e.io.out ++ [.sent e.tx.ipBe e.tx.udpPort e.tx.datagram (udpSendOk T e)] := by
  unfold txSend
  dsimp only
  split_ifs <;> simp

theorem txLoopback_out (e : Engine) (wireType ctrl port : UInt8) (data : List UInt8)
    (replyBuf replyMax : Nat) :
    (txLoopback e wireType ctrl port data replyBuf replyMax).io.out = e.io.out := by
  have hdone : ∀ e, (txCountDone e).io.out = e.io.out := by
    intro e
    unfold txCountDone
    split_ifs <;> simp
  unfold txLoopback
  dsimp only
  split_ifs
  · rw [hdone]
    unfold loopbackImmediate
    dsimp only
    split_ifs <;> simp
  · rw [hdone]
    simp
  · rw [hdone]
    unfold loopbackDeliver
    dsimp only
    split
    · rw [rxDeliver_out]
      rfl
    · rw [Engine.withTx_io, rxDeliver_out]
      rfl

theorem txBegin_emitted {op : Op} (e : Engine) {wireType : UInt8} (destNet destStn ctrl port : UInt8)
    (data : Payload) (replyBuf replyMax : Nat)
    (hop : op.mayTransmit = true)
    (hw : wireType = AUN_TYPE_DATA ∨ wireType = AUN_TYPE_IMMEDIATE) :
    Emitted (Emits T e op) e
      (txBegin T e wireType destNet destStn ctrl port data replyBuf replyMax).2 := by
  unfold txBegin
  split_ifs
  · exact .quiet rfl
  · exact .quiet rfl
  · exact .quiet rfl
  · exact .quiet (txLoopback_out e _ _ _ _ _ _)
  · split
    · exact .quiet rfl
    · refine .one (txSend_out T _) (.transmit hop ?_)
      rcases hw with rfl | rfl
      · exact Or.inl rfl
      · exact Or.inr (Or.inl rfl)

theorem aunImmediate_emitted {op : Op} (e : Engine) (destNet destStn ctrl : UInt8) (data : Payload)
    (replyBuf replyMax : Nat) (hop : op.mayTransmit = true) :
    Emitted (Emits T e op) e
      (aunImmediate T e destNet destStn ctrl data replyBuf replyMax).2 := by
  unfold aunImmediate
  dsimp only
  split_ifs
  · exact .quiet rfl
  · exact txBegin_emitted T e _ _ _ _ _ _ _ hop (Or.inl rfl)
  · exact txBegin_emitted T e _ _ _ _ _ _ _ hop (Or.inl rfl)
  · exact txBegin_emitted T e _ _ _ _ _ _ _ hop (Or.inr rfl)

theorem sendToMap_emitted {op : Op} {e : Engine} {dgram : List UInt8}
    (hplain : ∀ ipBe port ok, (Effect.sent ipBe port dgram ok).Plain) :
    ∀ (map : List MapEntry) (e₁ : Engine), Emitted (Emits T e op) e₁ (sendToMap T e₁ dgram map) := by
  intro map
  induction map with
  | nil => intro e₁; exact .quiet rfl
  | cons m map ih =>
    intro e₁
    exact (udpSend_emitted T e₁ m.ipBe m.udpPort (hplain _ _)).trans (ih _)

theorem aunBroadcast_emitted {op : Op} (e : Engine) (ctrl port : UInt8) (data : Payload) :
    Emitted (Emits T e op) e (aunBroadcast T e ctrl port data).2 := by
  unfold aunBroadcast
  split_ifs
  · exact .quiet rfl
  · exact .quiet rfl
  · dsimp only
    have hplain : ∀ ipBe port' ok, (Effect.sent ipBe port'
        (buildHeader AUN_TYPE_BROADCAST port ctrl e.nextSeq ++ data.toList) ok).Plain :=
      fun _ _ _ => plain_of_type AUN_TYPE_BROADCAST rfl (by decide)
    have hmap : Emitted (Emits T e op) (e.withNextSeq (e.nextSeq + 4)) _ :=
      sendToMap_emitted T hplain e.map _
    have hstart : Emitted (Emits T e op) e (e.withNextSeq (e.nextSeq + 4)) := .quiet rfl
    split_ifs
    · exact (hstart.trans hmap).trans (udpSend_emitted T _ _ _ (hplain _ _))
    · exact hstart.trans hmap

/-! ### Immediates and timers -/

theorem rxImm4Data_emitted {e : Engine} {ipBe : UInt32} {port : UInt16} {buf : List UInt8}
    {aunPort ctrl : UInt8} {seq : UInt32} {data : List UInt8}
    (hd : ImmData buf true aunPort ctrl seq data) :
    Emitted (Emits T e (.udpInput ipBe port buf)) e (rxImm4Data T e ipBe port ctrl seq data) := by
  have hcount : Emitted (Emits T e (.udpInput ipBe port buf)) e (countImm e) := .quiet (by simp)
  have hfresh : ∀ e₁, Emitted (Emits T e (.udpInput ipBe port buf)) e₁
      (imm4Fresh T e₁ ipBe port ctrl seq data) := by
    intro e₁
    unfold imm4Fresh
    split_ifs <;> exact .quiet (by simp)
  unfold rxImm4Data
  split_ifs with hwant
  · unfold imm4Checked imm4Replay
    split_ifs with harmed hhit hnak
    · exact .one (sendAckNak_out T (tick (countImm e)) _ _ _ _ _ _)
        (.plain (plain_of_type AUN_TYPE_NAK rfl (by decide)))
    · refine .one (sendAckNak_out T (tick (countImm e)) _ _ _ _ _ _) (.imm4Ack hd ?_ ?_)
      · simpa [himmReplays, himmCacheArmed, himmCacheHit, nowMs] using And.intro harmed hhit
      · simpa using hnak
    · exact (hcount.trans (.quiet (by simp))).trans (hfresh _)
    · exact hcount.trans (hfresh _)
  · exact hcount.trans (sendNak_emitted T _ _ _ _ _)

theorem sendImmReply_emitted {op : Op} {e : Engine} (e₁ : Engine) (ipBe : UInt32) (port : UInt16)
    (ctrl : UInt8) (seq : UInt32) (data : List UInt8) :
    Emitted (Emits T e op) e₁ (sendImmReply T e₁ ipBe port ctrl seq data) :=
  .one (x := .sent ipBe port (buildHeader AUN_TYPE_IMM_REPLY 0 ctrl seq ++ data.take AUN_HIMM_MAX)
    (udpSendOk T e₁)) (by simp) (.plain (plain_of_type AUN_TYPE_IMM_REPLY rfl (by decide)))

theorem inputImmediate_emitted {op : Op} (e : Engine) (ipBe : UInt32) (port : UInt16)
    (aunPort ctrl : UInt8) (seq : UInt32) (data : List UInt8) :
    Emitted (Emits T e op) e (inputImmediate T e ipBe port aunPort ctrl seq data) := by
  have hcount : Emitted (Emits T e op) e (countImm e) := .quiet (by simp)
  have hreplay : ∀ e₁, Emitted (Emits T e op) e₁ (countReplay e₁) := fun e₁ => .quiet (by simp)
  have htick : ∀ e₁, Emitted (Emits T e op) e₁ (tick e₁) := fun e₁ => .quiet (by simp)
  unfold inputImmediate
  split_ifs
  · exact hcount.trans (sendImmReply_emitted T _ _ _ _ _ _)
  · exact hcount
  · exact hcount.trans (sendNak_emitted T _ _ _ _ _)
  · refine hcount.trans ?_
    unfold immFresh immReplay
    split_ifs
    · exact (htick _).trans ((sendNak_emitted T _ _ _ _ _).trans (hreplay _))
    · exact (htick _).trans ((sendImmReply_emitted T _ _ _ _ _ _).trans (hreplay _))
    · exact .quiet (by simp)
    · exact .quiet (by simp)
  · exact hcount.trans (sendNak_emitted T _ _ _ _ _)

theorem aunHimmReply_emitted (e : Engine) (data : List UInt8) :
    Emitted (Emits T e (.himmReply data)) e (aunHimmReply T e data) := by
  unfold aunHimmReply
  split_ifs with hact hfrom
  · exact .quiet rfl
  · exact .one (x := ackEffect _ _ _ _ _ (udpSendOk T e)) (by simp [ackEffect])
      (.himmAck (by simpa using hact) hfrom)
  · have hrest : ∀ e₁ d, Emitted (Emits T e (.himmReply data)) e₁
        (himmRelease (himmCacheStore T e₁ false d)) := fun e₁ d => .quiet (by simp)
    exact (sendImmReply_emitted T e _ _ _ _ _).trans (hrest _ _)

theorem txPoll_emitted {op : Op} {e e₁ : Engine} (hop : op.mayTransmit = true) (htx : e₁.tx = e.tx) :
    Emitted (Emits T e op) e₁ (txPoll T e₁) := by
  have hsend : ∀ tx, e.tx.state = .pending → tx.datagram = e.tx.datagram →
      Emitted (Emits T e op) e₁ (txSend T ((tick e₁).withTx tx)) := by
    intro tx hpend hd
    have hout := txSend_out T ((tick e₁).withTx tx)
    exact .one hout (.transmit hop (Or.inr (Or.inr ⟨hpend, hd⟩)))
  unfold txPoll txTimeout
  split_ifs with hpend hdue hrej hleft
  · exact .quiet rfl
  · exact .quiet (by simp)
  · rw [htx] at hpend
    exact hsend _ (by simpa using hpend) (by simp [htx])
  · exact .quiet (by simp)
  · rw [htx] at hpend
    exact hsend _ (by simpa using hpend) (by simp [htx])

theorem himmReap_emitted {op : Op} (e : Engine) : Emitted (Emits T e op) e (himmReap T e) := by
  have hrest : ∀ e₁, Emitted (Emits T e op) e₁ ((himmRelease (himmCacheStore T e₁ true [])).count
      fun c => { c with himmTimeout := c.himmTimeout + 1 }) := fun e₁ => .quiet (by simp)
  have htick : Emitted (Emits T e op) e (tick e) := .quiet (by simp)
  unfold himmReap himmExpire
  split_ifs
  · exact htick.trans ((sendNak_emitted T _ _ _ _ _).trans (hrest _))
  · exact htick
  · exact .quiet rfl

theorem himmReap_sameTx (e : Engine) : SameTx e (himmReap T e) := by
  unfold himmReap himmExpire
  split_ifs
  · exact ⟨by simp, by simp, by simp⟩
  · exact ⟨by simp, by simp, by simp⟩
  · exact SameTx.refl e

theorem aunPoll_emitted (e : Engine) : Emitted (Emits T e .poll) e (aunPoll T e) := by
  unfold aunPoll
  split_ifs
  · exact .quiet rfl
  · exact (himmReap_emitted T e).trans (txPoll_emitted T rfl (himmReap_sameTx T e).tx)

/-! ### The list is complete -/

theorem inputAckNak_out (e : Engine) (ipBe : UInt32) (port : UInt16) (type : UInt8) (seq : UInt32) :
    (inputAckNak T e ipBe port type seq).io.out = e.io.out := by
  unfold inputAckNak txRejected
  split_ifs <;> simp

theorem inputImmReply_out (e : Engine) (ipBe : UInt32) (port : UInt16) (seq : UInt32)
    (data : List UInt8) : (inputImmReply e ipBe port seq data).io.out = e.io.out := by
  have hstore : (storeReply e data).io.out = e.io.out := by
    unfold storeReply
    dsimp only
    split_ifs <;> simp
  unfold inputImmReply
  split_ifs
  · simpa using hstore
  · rfl

theorem aunUdpInput_emitted (e : Engine) (ipBe : UInt32) (port : UInt16) (buf : List UInt8) :
    Emitted (Emits T e (.udpInput ipBe port buf)) e (aunUdpInput T e ipBe port buf) := by
  unfold aunUdpInput
  dsimp only
  split_ifs with hshort htx hreply hdata hbcast himm
  · exact .quiet (by simp)
  · exact .quiet (inputAckNak_out T e ipBe port _ _)
  · exact .quiet (inputImmReply_out e ipBe port _ _)
  · rw [not_or] at hshort
    unfold inputData
    split_ifs with h4
    · exact rxImm4Data_emitted T ⟨⟨hdata, h4⟩, by omega, rfl, rfl, rfl, rfl⟩
    · exact inputFunnelData_emitted T ⟨h4, by omega, hdata, rfl, rfl, rfl, rfl⟩
  · exact .quiet (inputBroadcast_out e ipBe port _ _ _)
  · exact inputImmediate_emitted T e ipBe port _ _ _ _
  · exact .quiet (by simp)

theorem exec_emitted (e : Engine) (op : Op) : Emitted (Emits T e op) e (exec T e op).2 := by
  cases op with
  | init station net => exact .quiet rfl
  | mapAdd net stn ipBe port =>
    refine .quiet ?_
    change (aunMapAdd e net stn ipBe port).2.io.out = e.io.out
    rw [aunMapAdd_eq]
    rfl
  | setAddressing b s m l => exact .quiet rfl
  | testResponder enable stn net => exact .quiet rfl
  | setMachineId id => exact .quiet rfl
  | setTrace installed => exact .quiet rfl
  | setHostImm enable => exact .quiet rfl
  | himmReply data => exact aunHimmReply_emitted T e data
  | rxOpen handle port stn net buf bufSize =>
    refine .quiet ?_
    change (aunRxOpen e handle port stn net buf bufSize).2.io.out = e.io.out
    unfold aunRxOpen
    split_ifs
    · rfl
    · split <;> rfl
    · split
      · rfl
      · simp
  | rxPoll handle => exact .quiet (aunRxPoll_out T e handle)
  | rxReady handle => exact .quiet (aunRxReady_out T e handle)
  | rxCollect handle accept => exact aunRxCollect_emitted T e handle accept
  | rxClose handle =>
    refine .quiet ?_
    change (aunRxClose e handle).2.io.out = e.io.out
    unfold aunRxClose
    split
    · rfl
    · simp
  | txStart destNet destStn ctrl port data =>
    exact txBegin_emitted T e _ _ _ _ _ _ _ rfl (Or.inl rfl)
  | immediate destNet destStn ctrl data replyBuf replyMax =>
    exact aunImmediate_emitted T e _ _ _ _ _ _ rfl
  | broadcast ctrl port data => exact aunBroadcast_emitted T e ctrl port data
  | udpInput ipBe port buf => exact aunUdpInput_emitted T e ipBe port buf
  | poll => exact aunPoll_emitted T e

theorem step_out (e : Engine) (op : Op) {x : Effect} (hx : x ∈ (step T e op).io.out) :
    Emits T e.beginCall op x := by
  obtain ⟨l, hl, hP⟩ := exec_emitted T e.beginCall op
  have hout : (step T e op).io.out = [] ++ l := hl
  rw [hout, List.nil_append] at hx
  exact hP x hx

end Pi1MHz.Aun
