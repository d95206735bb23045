import Pi1MHz.AunImmRoundTrip
import Pi1MHz.AunSource

/-!
# The loopback station and the wire

A transmit to the enabled test station is not sent.  `tx_begin` decides on the spot whether
it is a 4-way immediate, which completes at once, or a frame for the receive blocks; on the
wire that decision is made by `aun_udp_input` at the other end, on the control byte as
`build_header` left it.
-/

namespace Pi1MHz.Aun

variable (T : Transport)

/-- The test by which `aun_udp_input` gives a datagram to `rx_imm4_data`. -/
def isImm4 (buf : List UInt8) : Bool :=
  decide (AUN_HDR_SIZE ≤ buf.length) && buf.getD 0 0 == AUN_TYPE_DATA &&
    (buf.getD 1 0 == 0 && isImm4Ctrl (buf.getD 2 0 &&& 0x7F))

def Engine.asPeer (e : Engine) : Engine :=
  { e with
    testEnabled := false
    map := [⟨e.testNet, e.testStn, 0x0100007F, AUN_DEFAULT_UDP_PORT, 0, false⟩] }

def wireDatagram (e : Engine) (op : Op) : List UInt8 := (step T e.asPeer op).tx.datagram

def Queues (e e' : Engine) : Prop := ∃ i, (e'.rx i).count = (e.rx i).count + 1

def Op.imm4HighBit : Op → Bool
  | .txStart _ _ ctrl port _ => port == 0 && isImm4Ctrl (ctrl &&& 0x7F) && decide (0x80 ≤ ctrl)
  | .immediate _ _ ctrl _ _ _ => isImm4Ctrl (ctrl &&& 0x7F) && decide (0x80 ≤ ctrl)
  | _ => false

/-- An engine with the receive blocks of `e` that hears from the test station for the first
    time: `m` is its map entry for the address, and the sequence is new to it. -/
structure Hears (e r : Engine) (ipBe : UInt32) (port : UInt16) (m : MapEntry) : Prop where
  ready : r.initialised = true
  rx : r.rx = e.rx
  entry : sourceEntry r ipBe port = some m
  stn : m.stn = e.testStn
  net : m.net = e.testNet
  unqueued : rxSeqPending r ipBe port e.nextSeq = false
  fresh : ¬(m.seqValid = true ∧ e.nextSeq = m.lastRxSeq)

/-- Loopback and wire treat a transmit alike: it is completed with nothing queued exactly if
    its datagram is one for `rx_imm4_data`, and queued exactly if the datagram is. -/
structure LoopbackAgrees (e : Engine) (op : Op) (r : Engine) (ipBe : UInt32) (port : UInt16) :
    Prop where
  imm4 : ((wireDatagram T e op).getD 0 0 = AUN_TYPE_DATA ∧ (step T e op).tx.state = .ok ∧
    ¬Queues e (step T e op)) ↔ isImm4 (wireDatagram T e op) = true
  queued : Queues e (step T e op) ↔
    Queues r (step T r (.udpInput ipBe port (wireDatagram T e op)))

/-! ### The wire -/

theorem not_queues_of_rx {e e' : Engine} (h : e'.rx = e.rx) : ¬Queues e e' := by
  rintro ⟨i, hi⟩
  rw [h] at hi
  omega

theorem rxDeliver_congr {e e' : Engine} (h : e'.rx = e.rx) (port ctrl ctrl' srcStn srcNet : UInt8)
    (data : List UInt8) :
    (rxDeliver e' port ctrl' srcStn srcNet data).1 = (rxDeliver e port ctrl srcStn srcNet data).1 := by
  unfold rxDeliver rxMatch
  rw [rxMatchFrom_congr h, h]
  split
  · rfl
  · rfl
  · dsimp only
    split_ifs <;> rfl

/-- Does `rx_deliver` stage the frame? -/
def Delivery.isStaged : Delivery → Bool
  | .staged _ _ => true
  | .refused _ => false

theorem queues_dataDeliver (e : Engine) (ipBe : UInt32) (port : UInt16) (aunPort ctrl : UInt8)
    (seq : UInt32) (m : MapEntry) (data : List UInt8) :
    Queues e (dataDeliver T e ipBe port aunPort ctrl seq m data).2 ↔
      (rxDeliver e aunPort ctrl m.stn m.net data).1.isStaged = true := by
  unfold dataDeliver
  dsimp only
  rcases rxDeliver_cases e aunPort ctrl m.stn m.net data with ⟨i, -, heq⟩ | ⟨why, c, heq, -⟩
  · rw [heq]
    refine ⟨fun _ => rfl, fun _ => ⟨i, ?_⟩⟩
    simp [Engine.setBlock, RxBlock.push]
  · have hsame : (rxDeliver e aunPort ctrl m.stn m.net data).2.rx = e.rx := by rw [heq]; rfl
    rw [heq]
    refine ⟨fun hq => absurd hq (not_queues_of_rx ?_), fun h => by cases h⟩
    cases why <;> simp

section

variable {e r : Engine} {ipBe : UInt32} {port : UInt16} {m : MapEntry} {buf : List UInt8}

theorem Hears.queues_funnel (h : Hears e r ipBe port m) {aunPort ctrl : UInt8} {data : List UInt8}
    (hd : FunnelData buf aunPort ctrl e.nextSeq data) :
    Queues r (step T r (.udpInput ipBe port buf)) ↔
      (rxDeliver e aunPort ctrl e.testStn e.testNet data).1.isStaged = true := by
  change Queues r.beginCall (aunUdpInput T r.beginCall ipBe port buf) ↔ _
  have hentry : sourceEntry r.beginCall ipBe port = some m := by
    rw [sourceEntry_beginCall]
    exact h.entry
  have hattr := attributeSource_eq r.beginCall ipBe port
  rw [aunUdpInput_funnel T (e := r.beginCall) h.ready hd]
  unfold inputFunnelData
  rw [dataVerdict_eq T hentry]
  generalize (attributeSource r.beginCall ipBe port).2.map = map at hattr
  rw [hattr]
  unfold dataFrom
  have hnew : ¬rxSeqPending (r.beginCall.withMap map) ipBe port e.nextSeq = true := by
    have : rxSeqPending (r.beginCall.withMap map) ipBe port e.nextSeq = false := h.unqueued
    simp [this]
  rw [if_neg hnew, if_neg h.fresh]
  have hdel := queues_dataDeliver T (r.beginCall.withMap map) ipBe port aunPort ctrl e.nextSeq m data
  have hrx : (r.beginCall.withMap map).rx = e.rx := h.rx
  rw [rxDeliver_congr hrx aunPort ctrl ctrl, h.stn, h.net] at hdel
  rw [← hdel]
  unfold Queues
  rw [(traceData_same _ _ _ _ _ _ _ _ _).1.rx]
  rfl

theorem not_queues_udpInput (r : Engine) (ipBe : UInt32) (port : UInt16)
    (h : isImm4 buf = true ∨ buf.getD 0 0 = AUN_TYPE_IMMEDIATE) :
    ¬Queues r (step T r (.udpInput ipBe port buf)) := by
  apply not_queues_of_rx
  change (aunUdpInput T r.beginCall ipBe port buf).rx = r.rx
  unfold aunUdpInput
  split_ifs with hbad
  · simp [Engine.beginCall]
  · dsimp only
    rcases h with h | h
    · simp only [isImm4, Bool.and_eq_true, beq_iff_eq, decide_eq_true_eq] at h
      obtain ⟨⟨-, htype⟩, hport, hctrl⟩ := h
      rw [htype, if_neg (by decide), if_neg (by decide), if_pos rfl]
      unfold inputData
      rw [if_pos ⟨hport, hctrl⟩]
      exact (rxImm4Data_sameRx T r.beginCall ipBe port _ _ _).rx
    · rw [h, if_neg (by decide), if_neg (by decide), if_neg (by decide), if_neg (by decide),
        if_pos rfl]
      exact (inputImmediate_sameRx T r.beginCall ipBe port _ _ _ _).rx

end

/-! ### The loopback station -/

/-- What `tx_begin` does with a transmit it accepts. -/
def txAccepted (e : Engine) (wireType destNet destStn ctrl port : UInt8) (data : List UInt8)
    (replyBuf replyMax : Nat) : Engine :=
  if isLoopback e destNet destStn then txLoopback e wireType ctrl port data replyBuf replyMax
  else
    match txRoute e destNet destStn with
    | none => e
    | some dest => txLaunch T e wireType ctrl port data replyBuf replyMax dest.1 dest.2

theorem txBegin_accepted {e : Engine} {wireType destNet destStn ctrl port : UInt8} {data : Payload}
    {replyBuf replyMax : Nat}
    (h : (txBegin T e wireType destNet destStn ctrl port data replyBuf replyMax).1 = .ok) (e₁ : Engine)
    (hinit : e₁.initialised = e.initialised) (htx : e₁.tx = e.tx) :
    (txBegin T e₁ wireType destNet destStn ctrl port data replyBuf replyMax).2 =
      txAccepted T e₁ wireType destNet destStn ctrl port data.toList replyBuf replyMax := by
  unfold txBegin at h
  split_ifs at h with h1 h2 h3
  all_goals
    unfold txBegin txAccepted
    rw [hinit, htx, if_neg h1, if_neg h2, if_neg h3]
    split_ifs
    · rfl
    · cases txRoute e₁ destNet destStn <;> rfl

theorem accepted_begins {e : Engine} {op : Op} (hacc : accepted T e op = true)
    (hloop : op.loopsBack e = true) :
    ∃ wireType ctrl port payload replyBuf replyMax,
      (wireType = AUN_TYPE_DATA ∧ (op.imm4HighBit = true ↔
        port = 0 ∧ isImm4Ctrl (ctrl &&& 0x7F) = true ∧ 0x80 ≤ ctrl) ∨
      wireType = AUN_TYPE_IMMEDIATE ∧ op.imm4HighBit = false) ∧
      ∀ e₁ : Engine, e₁.initialised = e.initialised → e₁.tx = e.tx → (exec T e₁ op).2 =
        txAccepted T e₁ wireType e.testNet e.testStn ctrl port payload replyBuf replyMax := by
  have hok : (exec T e op).1 = .ok := of_decide_eq_true (Bool.and_eq_true_iff.mp hacc).2
  cases op with
  | txStart destNet destStn ctrl port data =>
    simp only [Op.loopsBack, isLoopback, Bool.and_eq_true, beq_iff_eq] at hloop
    obtain ⟨⟨-, rfl⟩, rfl⟩ := hloop
    refine ⟨AUN_TYPE_DATA, ctrl, port, data.toList, 0, 0, Or.inl ⟨rfl, ?_⟩, txBegin_accepted T hok⟩
    simp [Op.imm4HighBit, and_assoc]
  | immediate destNet destStn ctrl data replyBuf replyMax =>
    simp only [Op.loopsBack, isLoopback, Bool.and_eq_true, beq_iff_eq] at hloop
    obtain ⟨⟨-, rfl⟩, rfl⟩ := hloop
    change (aunImmediate T e e.testNet e.testStn ctrl data replyBuf replyMax).1 = .ok at hok
    change ∃ wireType ctrl' port payload replyBuf' replyMax', _ ∧ ∀ e₁ : Engine, _ → _ →
      (aunImmediate T e₁ e.testNet e.testStn ctrl data replyBuf replyMax).2 = _
    unfold aunImmediate at hok ⊢
    dsimp only at hok ⊢
    by_cases hctrl : isImm4Ctrl (ctrl &&& 0x7F) = true
    · simp only [if_pos hctrl] at hok ⊢
      by_cases hpoke : ctrl &&& 0x7F = AUN_CTRL_POKE
      · simp only [if_pos hpoke] at hok ⊢
        split_ifs at hok with hparam
        simp only [if_neg hparam]
        refine ⟨AUN_TYPE_DATA, ctrl, 0, pokePayload data.toList, 0, 0, Or.inl ⟨rfl, ?_⟩,
          txBegin_accepted T hok⟩
        simp [Op.imm4HighBit, hctrl]
      · simp only [if_neg hpoke] at hok ⊢
        refine ⟨AUN_TYPE_DATA, ctrl, 0, data.toList, 0, 0, Or.inl ⟨rfl, ?_⟩, txBegin_accepted T hok⟩
        simp [Op.imm4HighBit, hctrl]
    · simp only [if_neg hctrl] at hok ⊢
      refine ⟨AUN_TYPE_IMMEDIATE, ctrl, 0, data.toList, replyBuf, replyMax, Or.inr ⟨rfl, ?_⟩,
        txBegin_accepted T hok⟩
      simp [Op.imm4HighBit, hctrl]
  | _ => cases hloop

theorem wireDatagram_eq {e : Engine} {op : Op} {wireType ctrl port : UInt8} {payload : List UInt8}
    {replyBuf replyMax : Nat}
    (h : (exec T e.asPeer.beginCall op).2 =
      txAccepted T e.asPeer.beginCall wireType e.testNet e.testStn ctrl port payload replyBuf
        replyMax) :
    wireDatagram T e op = buildHeader wireType port ctrl e.nextSeq ++ payload := by
  change (exec T e.asPeer.beginCall op).2.tx.datagram = _
  have hroute : txRoute e.asPeer.beginCall e.testNet e.testStn =
      some (0x0100007F, AUN_DEFAULT_UDP_PORT) := by
    simp [txRoute, mapFindByAddr, Engine.asPeer, Engine.beginCall]
  have hloop : ¬isLoopback e.asPeer.beginCall e.testNet e.testStn = true := by
    simp [isLoopback, Engine.asPeer, Engine.beginCall]
  rw [h]
  unfold txAccepted
  rw [if_neg hloop, hroute]
  exact congrArg TxId.datagram (txSend_tx T _ rfl).1

theorem isImm4Ctrl_masked (ctrl : UInt8) :
    isImm4Ctrl ctrl = true ↔ isImm4Ctrl (ctrl &&& 0x7F) = true ∧ ¬0x80 ≤ ctrl := by
  have hmask : (ctrl &&& 0x7F).toNat = ctrl.toNat % 128 :=
    Nat.and_two_pow_sub_one_eq_mod ctrl.toNat 7
  have hlt := ctrl.toNat_lt
  rw [isImm4Ctrl_iff, isImm4Ctrl_iff, hmask, UInt8.le_iff_toNat_le]
  change _ ↔ _ ∧ ¬128 ≤ ctrl.toNat
  omega

section

variable {e : Engine} {wireType ctrl port : UInt8} {data : List UInt8} {replyBuf replyMax : Nat}

theorem txLoopback_immediate
    (h : wireType = AUN_TYPE_IMMEDIATE ∨ (port = 0 ∧ isImm4Ctrl ctrl = true)) :
    (txLoopback e wireType ctrl port data replyBuf replyMax).rx = e.rx ∧
      (txLoopback e wireType ctrl port data replyBuf replyMax).tx.state = .ok := by
  unfold txLoopback
  dsimp only
  split_ifs
  · rw [(txCountDone_sameRx _).rx, (txCountDone_tx _).1]
    unfold loopbackImmediate
    dsimp only
    split_ifs <;> exact ⟨rfl, rfl⟩
  · rw [(txCountDone_sameRx _).rx, (txCountDone_tx _).1]
    exact ⟨rfl, rfl⟩
  · rename_i h1 h2
    exact absurd h (not_or.mpr ⟨h1, h2⟩)

theorem txLoopback_deliver (h : ¬(port = 0 ∧ isImm4Ctrl ctrl = true)) :
    let e' := txLoopback e AUN_TYPE_DATA ctrl port data replyBuf replyMax
    (Queues e e' ↔ (rxDeliver e port ctrl e.testStn e.testNet data).1.isStaged = true) ∧
      (e'.tx.state = .ok ↔ (rxDeliver e port ctrl e.testStn e.testNet data).1.isStaged = true) := by
  unfold txLoopback
  dsimp only
  rw [if_neg (by decide), if_neg h]
  generalize he₁ : e.withTx { e.tx with state := .ok, replyBuf := 0, replyLen := 0 } = e₁
  have hrx : e₁.rx = e.rx := by rw [← he₁]; rfl
  have hstation : e₁.testStn = e.testStn ∧ e₁.testNet = e.testNet := by
    rw [← he₁]
    exact ⟨rfl, rfl⟩
  have hok : e₁.tx.state = .ok := by rw [← he₁]; rfl
  have hdel := rxDeliver_congr hrx port ctrl ctrl e.testStn e.testNet data
  unfold Queues
  rw [(txCountDone_sameRx _).rx, (txCountDone_tx _).1, ← hdel, ← hrx]
  change (Queues e₁ (loopbackDeliver e₁ ctrl port data) ↔ _) ∧ _
  unfold loopbackDeliver
  rw [hstation.1, hstation.2]
  rcases rxDeliver_cases e₁ port ctrl e.testStn e.testNet data with ⟨i, -, heq⟩ | ⟨why, c, heq, -⟩
  · rw [heq]
    refine ⟨⟨fun _ => rfl, fun _ => ⟨i, ?_⟩⟩, fun _ => rfl, fun _ => hok⟩
    simp [Engine.setBlock, RxBlock.push]
  · rw [heq]
    refine ⟨⟨fun hq => absurd hq (not_queues_of_rx rfl), fun h => by cases h⟩, fun h => ?_,
      fun h => by cases h⟩
    cases h

end

theorem isImm4_dgram (wireType port ctrl : UInt8) (seq : UInt32) (data : List UInt8) :
    isImm4 (buildHeader wireType port ctrl seq ++ data) = true ↔
      wireType = AUN_TYPE_DATA ∧ port = 0 ∧ isImm4Ctrl (ctrl &&& 0x7F) = true := by
  have hlen : AUN_HDR_SIZE ≤ (buildHeader wireType port ctrl seq ++ data).length := by
    simp [buildHeader, wr32le, AUN_HDR_SIZE]
  have htype : (buildHeader wireType port ctrl seq ++ data).getD 0 0 = wireType := rfl
  have hport : (buildHeader wireType port ctrl seq ++ data).getD 1 0 = port := rfl
  have hctrl : (buildHeader wireType port ctrl seq ++ data).getD 2 0 &&& 0x7F = ctrl &&& 0x7F :=
    ctrl_mask_mask ctrl
  simp only [isImm4, htype, hport, hctrl, Bool.and_eq_true, decide_eq_true_eq, beq_iff_eq, hlen,
    true_and]

theorem funnelData_dgram {port ctrl : UInt8} (seq : UInt32) (data : List UInt8)
    (h : ¬(port = 0 ∧ isImm4Ctrl (ctrl &&& 0x7F) = true)) :
    FunnelData (buildHeader AUN_TYPE_DATA port ctrl seq ++ data) port (ctrl &&& 0x7F) seq data where
  funnel := h
  header := by simp [buildHeader, wr32le, AUN_HDR_SIZE]
  type := rfl
  aunPort := rfl
  ctrl := ctrl_mask_mask ctrl
  seq := buildHeader_seq AUN_TYPE_DATA port ctrl seq data
  data := rfl

/-- Loopback and wire agree on an accepted transmit exactly if it is not one to port 0 with
    bit 7 set over the control byte of a 4-way immediate. -/
theorem loopback_agrees_iff {e r : Engine} {op : Op} {ipBe : UInt32} {port : UInt16} {m : MapEntry}
    (hacc : accepted T e.beginCall op = true) (hloop : op.loopsBack e = true)
    (hears : Hears e r ipBe port m) :
    LoopbackAgrees T e op r ipBe port ↔ op.imm4HighBit = false := by
  obtain ⟨wireType, ctrl, aunPort, payload, replyBuf, replyMax, hkind, hexec⟩ :=
    accepted_begins T hacc hloop
  have hdgram := wireDatagram_eq T (hexec e.asPeer.beginCall rfl rfl)
  have hstation : isLoopback e.beginCall e.testNet e.testStn = true := by
    have henabled : e.testEnabled = true := by
      cases op <;> simp_all [Op.loopsBack, isLoopback]
    simp [isLoopback, Engine.beginCall, henabled]
  have hstep : step T e op =
      txLoopback e.beginCall wireType ctrl aunPort payload replyBuf replyMax := by
    change (exec T e.beginCall op).2 = _
    rw [hexec e.beginCall rfl rfl]
    exact if_pos hstation
  have hqueues : ∀ e', Queues e.beginCall e' ↔ Queues e e' := fun e' => Iff.rfl
  have himm4 := isImm4_dgram wireType aunPort ctrl e.nextSeq payload
  rcases hkind with ⟨rfl, hhigh⟩ | ⟨rfl, hhigh⟩
  · by_cases hraw : aunPort = 0 ∧ isImm4Ctrl ctrl = true
    · -- both see a 4-way immediate
      obtain ⟨hmask, hlow⟩ := (isImm4Ctrl_masked ctrl).mp hraw.2
      have hcond : op.imm4HighBit = false := by
        rw [Bool.eq_false_iff, Ne, hhigh]
        exact fun h => hlow h.2.2
      have hwire := himm4.mpr ⟨rfl, hraw.1, hmask⟩
      obtain ⟨hrx, hok⟩ := @txLoopback_immediate e.beginCall AUN_TYPE_DATA ctrl aunPort payload
        replyBuf replyMax (Or.inr hraw)
      refine ⟨fun _ => hcond, fun _ => ⟨?_, ?_⟩⟩
      · rw [hdgram, hstep]
        exact ⟨fun _ => hwire, fun _ => ⟨rfl, hok, not_queues_of_rx hrx⟩⟩
      · rw [hdgram, hstep]
        exact ⟨fun hq => absurd hq (not_queues_of_rx hrx),
          fun hq => absurd hq (not_queues_udpInput T r ipBe port (Or.inl hwire))⟩
    · obtain ⟨hqueued, hok⟩ := @txLoopback_deliver e.beginCall ctrl aunPort payload replyBuf
        replyMax hraw
      rw [← hstep, hqueues] at hqueued
      rw [← hstep] at hok
      by_cases hmask : aunPort = 0 ∧ isImm4Ctrl (ctrl &&& 0x7F) = true
      · -- bit 7 hides it from the loopback test
        have hbit : 0x80 ≤ ctrl := by
          by_contra hlow
          exact hraw ⟨hmask.1, (isImm4Ctrl_masked ctrl).mpr ⟨hmask.2, hlow⟩⟩
        have hcond : op.imm4HighBit = true := hhigh.mpr ⟨hmask.1, hmask.2, hbit⟩
        refine ⟨fun hagree => ?_, fun hno => by rw [hcond] at hno; cases hno⟩
        obtain ⟨-, hdone, hnone⟩ := hagree.imm4.mpr (hdgram ▸ himm4.mpr ⟨rfl, hmask⟩)
        exact absurd (hqueued.mpr (hok.mp hdone)) hnone
      · -- both hand it to `rx_deliver`
        have hcond : op.imm4HighBit = false := by
          rw [Bool.eq_false_iff, Ne, hhigh]
          exact fun h => hmask ⟨h.1, h.2.1⟩
        have hfunnel := hears.queues_funnel T (funnelData_dgram e.nextSeq payload hmask)
        refine ⟨fun _ => hcond, fun _ => ⟨?_, ?_⟩⟩
        · rw [hdgram]
          refine ⟨fun h => absurd (hqueued.mpr (hok.mp h.2.1)) h.2.2, fun h => ?_⟩
          exact absurd (himm4.mp h).2 hmask
        · have hbegin : e.beginCall.rx = e.rx := rfl
          rw [hdgram, hfunnel, hqueued, rxDeliver_congr hbegin aunPort (ctrl &&& 0x7F) ctrl]
          exact Iff.rfl
  · -- an immediate of type 5 is neither
    have hwire : ¬isImm4 (buildHeader AUN_TYPE_IMMEDIATE aunPort ctrl e.nextSeq ++ payload) = true := by
      rw [himm4]
      exact fun h => absurd h.1 (by decide)
    obtain ⟨hrx, -⟩ := @txLoopback_immediate e.beginCall AUN_TYPE_IMMEDIATE ctrl aunPort payload
      replyBuf replyMax (Or.inl rfl)
    refine ⟨fun _ => hhigh, fun _ => ⟨?_, ?_⟩⟩
    · rw [hdgram]
      exact ⟨fun h => absurd h.1 (by decide : AUN_TYPE_IMMEDIATE ≠ AUN_TYPE_DATA),
        fun h => absurd h hwire⟩
    · rw [hdgram, hstep]
      exact ⟨fun hq => absurd hq (not_queues_of_rx hrx),
        fun hq => absurd hq (not_queues_udpInput T r ipBe port (Or.inr rfl))⟩

/-- Station 1.254 is the test station here and a mapped peer as well, and a block listens to
    everything. -/
def testStation : Engine :=
  runState .steady (fun _ => 0) 1 0
    [.testResponder true 254 1, .rxOpen 0 0 0xFF 0xFF 1000 16, .mapAdd 1 254 0x0100007F 0]

theorem testStation_hears : Hears testStation testStation 0x0100007F 32768
    ⟨1, 254, 0x0100007F, 32768, 0, false⟩ :=
  ⟨by decide +kernel, rfl, by decide +kernel, by decide +kernel, by decide +kernel,
    by decide +kernel, by decide +kernel⟩

theorem loopback_agrees_iff_data :
    LoopbackAgrees .steady testStation (.txStart 1 254 0x80 0x99 (.bytes [7])) testStation
      0x0100007F 32768 :=
  (loopback_agrees_iff .steady (by decide +kernel) (by decide +kernel) testStation_hears).mpr
    (by decide)

/-- A Poke with bit 7 set, as the caller of `aun_immediate` has it: the datagram is for
    `rx_imm4_data`, and the loopback station puts it into the receive block. -/
theorem loopback_poke_queued :
    let op := Op.immediate 1 254 0x82 (.bytes [1, 2, 3, 4]) 0 0
    accepted .steady testStation.beginCall op = true ∧ op.loopsBack testStation = true ∧
      Hears testStation testStation 0x0100007F 32768 ⟨1, 254, 0x0100007F, 32768, 0, false⟩ ∧
      ¬LoopbackAgrees .steady testStation op testStation 0x0100007F 32768 := by
  refine ⟨by decide +kernel, by decide +kernel, testStation_hears, fun h => ?_⟩
  obtain ⟨-, -, hnone⟩ := h.imm4.mpr (by decide +kernel)
  exact hnone ⟨0, by decide +kernel⟩

end Pi1MHz.Aun
