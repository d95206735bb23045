import Pi1MHz.AunTxSteps

/-!
# The 4-way immediates between two engines

Poke, JSR, UserProc and OSProc travel as DATA to port 0 and complete on an ACK.  One engine
splices a byte count into a Poke and strips bit 7 of the control byte, the other one takes
the count out again and checks the length against limits of its own.
-/

namespace Pi1MHz.Aun

open History (Step)

variable (T : Transport)

def imm4Fits (ctrl : UInt8) (len : Nat) : Bool :=
  if ctrl = AUN_CTRL_POKE then decide (len ≤ AUN_HIMM_MAX) else decide (2 ≤ len ∧ len ≤ 390)

def imm4Payload (ctrl : UInt8) (data : List UInt8) : List UInt8 :=
  if ctrl = AUN_CTRL_POKE then pokePayload data else data

/-! ### The sender -/

/-- An engine that has sent `dgram` under sequence `seq` and waits for the answer. -/
structure Awaiting (e : Engine) (ipBe : UInt32) (port : UInt16) (seq : UInt32) : Prop where
  pending : e.tx.state = .pending
  wireType : e.tx.wireType = AUN_TYPE_DATA
  seqEq : e.tx.seq = seq
  ipEq : e.tx.ipBe = ipBe
  portEq : e.tx.udpPort = port
  noresp : e.tx.norespLeft = 0

theorem Awaiting.congr {e e' : Engine} {ipBe : UInt32} {port : UInt16} {seq : UInt32}
    (h : Awaiting e ipBe port seq) (hid : e'.tx.id = e.tx.id) (hstate : e'.tx.state = e.tx.state)
    (hno : e'.tx.norespLeft = e.tx.norespLeft) : Awaiting e' ipBe port seq where
  pending := hstate.trans h.pending
  wireType := (congrArg TxId.wireType hid).trans h.wireType
  seqEq := (congrArg TxId.seq hid).trans h.seqEq
  ipEq := (congrArg TxId.ipBe hid).trans h.ipEq
  portEq := (congrArg TxId.udpPort hid).trans h.portEq
  noresp := hno.trans h.noresp

theorem txSend_taken {e : Engine} (hok : udpSendOk T e = true) :
    (txSend T e).tx = { e.tx with deadlineMs := (txSend T e).tx.deadlineMs } := by
  unfold txSend
  dsimp only
  rw [if_neg (by simp [hok])]
  simp

theorem txBegin_sent {e : Engine} {destNet destStn ctrl port : UInt8} {data : Payload}
    {replyBuf replyMax : Nat} {ipBe : UInt32} {udpPort : UInt16} {dgram : List UInt8}
    (hquiet : e.io.out = [])
    (h : .sent ipBe udpPort dgram true ∈
      (txBegin T e AUN_TYPE_DATA destNet destStn ctrl port data replyBuf replyMax).2.io.out) :
    let e' := (txBegin T e AUN_TYPE_DATA destNet destStn ctrl port data replyBuf replyMax).2
    e.initialised = true ∧ (data.len ≠ 0 → data.isNull = false) ∧
      dgram = buildHeader AUN_TYPE_DATA port ctrl e.nextSeq ++ data.toList ∧
      Awaiting e' ipBe udpPort e.nextSeq ∧ e'.tx.rejectLeft = AUN_REJECT_RETRIES := by
  unfold txBegin at h ⊢
  split_ifs at h ⊢ with hinit hparam hbusy hloop
  · simp [hquiet] at h
  · simp [hquiet] at h
  · simp [hquiet] at h
  · rw [txLoopback_out, hquiet] at h
    cases h
  · cases hroute : txRoute e destNet destStn with
    | none => simp [hroute, hquiet] at h
    | some dest =>
      simp only [hroute] at h ⊢
      unfold txLaunch at h ⊢
      generalize hrec : (e.withTx (txRecord e AUN_TYPE_DATA ctrl port data.toList replyBuf replyMax
        dest.1 dest.2)).withNextSeq (e.nextSeq + 4) = e₁ at h ⊢
      have htx : e₁.tx = txRecord e AUN_TYPE_DATA ctrl port data.toList replyBuf replyMax dest.1
          dest.2 := by
        rw [← hrec]
        rfl
      have hout : e₁.io.out = [] := by
        rw [← hrec]
        exact hquiet
      rw [txSend_out, hout, List.nil_append, List.mem_singleton] at h
      obtain ⟨hip, hport, hdgram, hok⟩ := Effect.sent.inj h
      have hsend := txSend_taken T hok.symm
      rw [htx] at hip hport hdgram
      have hawait : Awaiting (txSend T e₁) ipBe udpPort e.nextSeq := by
        rw [hip, hport]
        constructor <;> rw [hsend, htx] <;> rfl
      refine ⟨by simpa using hinit, ?_, hdgram, hawait, ?_⟩
      · intro hne
        simpa [hne] using (not_or.mp hparam).2
      · rw [hsend, htx]
        rfl

theorem aunImmediate_imm4 {e : Engine} {destNet destStn ctrl : UInt8} {data : Payload}
    {replyBuf replyMax : Nat} (hctrl : isImm4Ctrl (ctrl &&& 0x7F) = true) :
    aunImmediate T e destNet destStn ctrl data replyBuf replyMax = (.errParam, e) ∨
      ∃ payload : Payload, payload.toList = imm4Payload (ctrl &&& 0x7F) data.toList ∧
        ((payload.len ≠ 0 → payload.isNull = false) →
          data.toList.length = data.len ∧ (ctrl &&& 0x7F = AUN_CTRL_POKE → 4 ≤ data.len)) ∧
        aunImmediate T e destNet destStn ctrl data replyBuf replyMax =
          txBegin T e AUN_TYPE_DATA destNet destStn ctrl 0 payload 0 0 := by
  unfold aunImmediate imm4Payload
  dsimp only
  rw [if_pos hctrl]
  split_ifs with hpoke hparam
  · exact Or.inl rfl
  · refine Or.inr ⟨_, rfl, fun _ => ?_, rfl⟩
    obtain ⟨hnull, hlow, -⟩ := (not_or.mp hparam).imp_right not_or.mp
    cases data with
    | null len => exact absurd rfl hnull
    | bytes bs => exact ⟨rfl, fun _ => Nat.le_of_not_lt hlow⟩
  · refine Or.inr ⟨data, rfl, fun hnull => ⟨?_, fun hp => absurd hp hpoke⟩, rfl⟩
    cases data with
    | bytes bs => rfl
    | null len =>
      by_cases hlen : len = 0
      · subst hlen
        rfl
      · exact absurd (hnull hlen) (by simp [Payload.isNull])

theorem immediate_sent {e : Engine} {destNet destStn ctrl : UInt8} {data : Payload}
    {replyBuf replyMax : Nat} {ipBe : UInt32} {port : UInt16} {dgram : List UInt8}
    (hctrl : isImm4Ctrl (ctrl &&& 0x7F) = true)
    (h : .sent ipBe port dgram true ∈
      (step T e (.immediate destNet destStn ctrl data replyBuf replyMax)).io.out) :
    let e' := step T e (.immediate destNet destStn ctrl data replyBuf replyMax)
    e'.initialised = true ∧ Awaiting e' ipBe port e.nextSeq ∧ e'.tx.rejectLeft = AUN_REJECT_RETRIES ∧
      dgram = buildHeader AUN_TYPE_DATA 0 ctrl e.nextSeq ++ imm4Payload (ctrl &&& 0x7F) data.toList ∧
      data.toList.length = data.len ∧ (ctrl &&& 0x7F = AUN_CTRL_POKE → 4 ≤ data.len) := by
  have hstep : step T e (.immediate destNet destStn ctrl data replyBuf replyMax) =
    (aunImmediate T e.beginCall destNet destStn ctrl data replyBuf replyMax).2 := rfl
  have hready := (step_himm T e (.immediate destNet destStn ctrl data replyBuf replyMax)).ready T
  rw [hstep] at h hready ⊢
  rcases @aunImmediate_imm4 T e.beginCall destNet destStn ctrl data replyBuf replyMax hctrl with
    hbad | ⟨payload, hpayload, hlen, hbegin⟩
  · rw [hbad] at h
    cases h
  · rw [hbegin] at h hready ⊢
    obtain ⟨hinit, hnull, hdgram, hawait, hleft⟩ := txBegin_sent T rfl h
    rw [hpayload] at hdgram
    exact ⟨hready hinit, hawait, hleft, hdgram, hlen hnull⟩

/-! ### The receiver -/

theorem ctrl_mask_mask (ctrl : UInt8) : ctrl &&& 0x7F &&& 0x7F = ctrl &&& 0x7F := by
  rw [UInt8.and_assoc]
  rfl

theorem isImm4Ctrl_iff (c : UInt8) : isImm4Ctrl c = true ↔ 2 ≤ c.toNat ∧ c.toNat ≤ 5 := by
  simp only [isImm4Ctrl, Bool.and_eq_true, decide_eq_true_eq, UInt8.le_iff_toNat_le]
  exact Iff.rfl

theorem isImm4Ctrl_cases {c : UInt8} (h : isImm4Ctrl c = true) : c = 2 ∨ c = 3 ∨ c = 4 ∨ c = 5 := by
  rw [isImm4Ctrl_iff] at h
  simp only [← UInt8.toNat_inj]
  change c.toNat = 2 ∨ c.toNat = 3 ∨ c.toNat = 4 ∨ c.toNat = 5
  omega

theorem aunUdpInput_imm4_built {e : Engine} (hready : e.initialised = true) (ipBe : UInt32) (port : UInt16)
    {ctrl : UInt8} (hctrl : isImm4Ctrl (ctrl &&& 0x7F) = true) (seq : UInt32) (data : List UInt8) :
    aunUdpInput T e ipBe port (buildHeader AUN_TYPE_DATA 0 ctrl seq ++ data) =
      rxImm4Data T e ipBe port (ctrl &&& 0x7F) seq data := by
  have hseq := buildHeader_seq AUN_TYPE_DATA 0 ctrl seq data
  have hlen : ¬(buildHeader AUN_TYPE_DATA 0 ctrl seq ++ data).length < AUN_HDR_SIZE := by
    simp [buildHeader, wr32le, AUN_HDR_SIZE]
  have htype : (buildHeader AUN_TYPE_DATA 0 ctrl seq ++ data).getD 0 0 = AUN_TYPE_DATA := rfl
  have hport : (buildHeader AUN_TYPE_DATA 0 ctrl seq ++ data).getD 1 0 = 0 := rfl
  have hc : (buildHeader AUN_TYPE_DATA 0 ctrl seq ++ data).getD 2 0 = ctrl &&& 0x7F := rfl
  have hdata : (buildHeader AUN_TYPE_DATA 0 ctrl seq ++ data).drop AUN_HDR_SIZE = data := rfl
  have h1 : ¬(AUN_TYPE_DATA = AUN_TYPE_ACK ∨ AUN_TYPE_DATA = AUN_TYPE_NAK) := by decide
  have h2 : AUN_TYPE_DATA ≠ AUN_TYPE_IMM_REPLY := by decide
  unfold aunUdpInput
  rw [if_neg (not_or.mpr ⟨by simp [hready], hlen⟩)]
  simp only [htype, hport, hc, hseq, hdata, ctrl_mask_mask, h1, h2, if_true, if_false, inputData,
    hctrl, true_and]

section

variable {c : UInt8} {data : List UInt8}

theorem length_pokePayload (h : 4 ≤ data.length) : (pokePayload data).length = data.length + 4 := by
  simp [pokePayload, wr32le]
  omega

theorem imm4Wanted_iff (e : Engine) (hc : isImm4Ctrl c = true)
    (hpoke : c = AUN_CTRL_POKE → 4 ≤ data.length) :
    imm4Wanted e c (imm4Payload c data) = (e.hostImmEnabled && imm4Fits c data.length) := by
  unfold imm4Wanted imm4LenOk imm4HoldLen imm4Fits imm4Payload
  by_cases hp : c = AUN_CTRL_POKE
  · have hlen := length_pokePayload (hpoke hp)
    have hlow := hpoke hp
    simp only [hp, if_true, hlen]
    rw [if_neg (by omega), decide_eq_true (show 8 ≤ data.length + 4 by omega), Bool.and_true,
      Nat.add_sub_cancel]
  · have hexec : c = 3 ∨ c = 4 ∨ c = 5 := (isImm4Ctrl_cases hc).resolve_left hp
    have h1 : c ≠ 1 := by rcases hexec with rfl | rfl | rfl <;> decide
    have h2 : c ≠ 2 := hp
    simp only [hp, if_false, himmLenOk, h1, h2, hexec, if_true]
    by_cases hfit : 2 ≤ data.length ∧ data.length ≤ 390
    · have hmax : data.length ≤ AUN_HIMM_MAX := by
        rw [AUN_HIMM_MAX]
        omega
      simp [hfit.1, hfit.2, hmax]
    · have : ¬2 ≤ data.length ∨ ¬data.length ≤ 390 := not_and_or.mp hfit
      rcases this with h | h <;> simp [h]

theorem imm4Held_payload (hpoke : c = AUN_CTRL_POKE → 4 ≤ data.length) :
    imm4Held c (imm4Payload c data) = data := by
  unfold imm4Held imm4Payload
  split_ifs with hp
  · have hlow := hpoke hp
    have htake : (data.take 4).length = 4 := by simp; omega
    have hhead : (data.take 4 ++ wr32le (UInt32.ofNat (data.length - 4))).length = 8 := by
      simp [htake, wr32le]
    rw [pokePayload, List.drop_left' hhead, List.append_assoc, List.take_left' htake,
      List.take_append_drop]
  · rfl

theorem rxImm4Data_held {e : Engine} {ipBe : UInt32} {port : UInt16} {seq : UInt32}
    (hwanted : imm4Wanted e c data = true) (hfree : e.himm.active = false)
    (hfresh : himmReplays T e true ipBe port seq = false) :
    let h := (rxImm4Data T e ipBe port c seq data).himm
    h.active = true ∧ h.fromData = true ∧ h.ctrl = c ∧ h.seq = seq ∧ h.ipBe = ipBe ∧
      h.port = port ∧ h.data = imm4Held c data := by
  have hhold : ∀ e₁ : Engine, e₁.himm = e.himm →
      let h := (imm4Fresh T e₁ ipBe port c seq data).himm
      h.active = true ∧ h.fromData = true ∧ h.ctrl = c ∧ h.seq = seq ∧ h.ipBe = ipBe ∧
        h.port = port ∧ h.data = imm4Held c data := by
    intro e₁ he₁
    unfold imm4Fresh
    rw [if_neg (by simp [he₁, hfree])]
    simp
  unfold rxImm4Data imm4Checked
  rw [if_pos hwanted]
  by_cases harmed : himmCacheArmed (countImm e) true = true
  · have hmiss : ¬himmCacheHit (countImm e) (nowMs T (countImm e)) ipBe port seq = true := by
      intro hhit
      have : himmReplays T e true ipBe port seq = true := Bool.and_eq_true_iff.mpr ⟨harmed, hhit⟩
      rw [hfresh] at this
      cases this
    rw [if_pos harmed, if_neg hmiss]
    exact hhold _ (by simp)
  · rw [if_neg harmed]
    exact hhold _ (by simp)

theorem himmReply_acks {e : Engine} (hact : e.himm.active = true) (hfrom : e.himm.fromData = true)
    (reply : List UInt8) :
    ∃ ok, (step T e (.himmReply reply)).io.out =
      [.sent e.himm.ipBe e.himm.port (buildHeader AUN_TYPE_ACK 0 e.himm.ctrl e.himm.seq) ok] := by
  refine ⟨udpSendOk T e.beginCall, ?_⟩
  change (aunHimmReply T e.beginCall reply).io.out = _
  have hact' : ¬e.beginCall.himm.active = false := by simp [Engine.beginCall, hact]
  have hfrom' : e.beginCall.himm.fromData = true := hfrom
  unfold aunHimmReply
  rw [if_neg hact', if_pos hfrom']
  simp [Engine.beginCall]

theorem udpInput_refused {e : Engine} {ctrl : UInt8} {seq : UInt32} (hready : e.initialised = true)
    (ipBe : UInt32) (port : UInt16) (hctrl : isImm4Ctrl (ctrl &&& 0x7F) = true)
    (hno : imm4Wanted e (ctrl &&& 0x7F) data = false) :
    let e' := step T e (.udpInput ipBe port (buildHeader AUN_TYPE_DATA 0 ctrl seq ++ data))
    e'.himm = e.himm ∧ ∃ ok, e'.io.out =
      [.sent ipBe port (buildHeader AUN_TYPE_NAK 0 (ctrl &&& 0x7F) seq) ok] ∧
        ok = udpSendOk T e := by
  have hinput : step T e (.udpInput ipBe port (buildHeader AUN_TYPE_DATA 0 ctrl seq ++ data)) =
      rxImm4Data T e.beginCall ipBe port (ctrl &&& 0x7F) seq data :=
    aunUdpInput_imm4_built T (e := e.beginCall) hready ipBe port hctrl seq data
  have hno' : imm4Wanted e.beginCall (ctrl &&& 0x7F) data = false := hno
  rw [hinput]
  unfold rxImm4Data
  rw [if_neg (by simp [hno'])]
  exact ⟨by simp [Engine.beginCall], udpSendOk T e, by simp [Engine.beginCall]; rfl, rfl⟩

end

/-! ### The answers -/

theorem aunUdpInput_answer {e : Engine} (hready : e.initialised = true) (ipBe : UInt32)
    (port : UInt16) {type : UInt8} (htype : type = AUN_TYPE_ACK ∨ type = AUN_TYPE_NAK) (ctrl : UInt8)
    (seq : UInt32) :
    aunUdpInput T e ipBe port (buildHeader type 0 ctrl seq) =
      inputAckNak T e ipBe port type seq := by
  have hseq := buildHeader_seq type 0 ctrl seq []
  rw [List.append_nil] at hseq
  have hlen : ¬(buildHeader type 0 ctrl seq).length < AUN_HDR_SIZE := by
    simp [buildHeader, wr32le, AUN_HDR_SIZE]
  have ht : (buildHeader type 0 ctrl seq).getD 0 0 = type := rfl
  unfold aunUdpInput
  rw [if_neg (not_or.mpr ⟨by simp [hready], hlen⟩)]
  dsimp only
  rw [ht, hseq, if_pos htype]

section

variable {e : Engine} {ipBe : UInt32} {port : UInt16} {seq : UInt32}

theorem Awaiting.answers (h : Awaiting e ipBe port seq) :
    answersTx e.beginCall ipBe port seq = true := by
  have hb : e.beginCall.tx = e.tx := rfl
  simp [answersTx, hb, h.pending, h.seqEq, h.ipEq, h.portEq]

theorem Awaiting.acked (h : Awaiting e ipBe port seq) (hready : e.initialised = true) (ctrl : UInt8) :
    (step T e (.udpInput ipBe port (buildHeader AUN_TYPE_ACK 0 ctrl seq))).tx.state = .ok := by
  have hinput := aunUdpInput_answer T (e := e.beginCall) hready ipBe port (Or.inl rfl) ctrl seq
  change (aunUdpInput T e.beginCall ipBe port _).tx.state = _
  rw [hinput]
  unfold inputAckNak
  have hdata : e.beginCall.tx.wireType = AUN_TYPE_DATA := h.wireType
  rw [if_pos h.answers, if_neg (by decide), if_pos hdata]
  simp

/-- A sender that has been refused `n` times, all for the transmit of sequence `seq`. -/
structure Refused (e : Engine) (ipBe : UInt32) (port : UInt16) (seq : UInt32) (n : Nat) : Prop where
  ready : e.initialised = true
  state : (Awaiting e ipBe port seq ∧ e.tx.rejectLeft + n = AUN_REJECT_RETRIES) ∨
    e.tx.state = .notListening

theorem Refused.nak {n : Nat} (h : Refused e ipBe port seq n) (ctrl : UInt8) :
    Refused (step T e (.udpInput ipBe port (buildHeader AUN_TYPE_NAK 0 ctrl seq))) ipBe port seq
      (n + 1) := by
  refine ⟨(step_himm T e _).ready T h.ready, ?_⟩
  change _ ∨ (aunUdpInput T e.beginCall ipBe port _).tx.state = _
  change (Awaiting (aunUdpInput T e.beginCall ipBe port _) ipBe port seq ∧
    (aunUdpInput T e.beginCall ipBe port _).tx.rejectLeft + (n + 1) = AUN_REJECT_RETRIES) ∨ _
  rw [aunUdpInput_answer T (e := e.beginCall) h.ready ipBe port (Or.inr rfl) ctrl seq]
  unfold inputAckNak
  rcases h.state with ⟨hwait, hleft⟩ | hdone
  · rw [if_pos hwait.answers, if_pos rfl]
    have hb : e.beginCall.tx = e.tx := rfl
    unfold txRejected
    rw [hb]
    split_ifs with hsome
    · left
      refine ⟨hwait.congr (by simp [Tx.id]) (by simp) (by simp), ?_⟩
      · simp only [tick_tx, Engine.withTx_tx]
        omega
    · right
      simp
  · have hno : ¬answersTx e.beginCall ipBe port seq = true := by
      have hb : e.beginCall.tx = e.tx := rfl
      simp [answersTx, hb, hdone]
    rw [if_neg hno]
    exact Or.inr hdone

theorem Refused.poll {n : Nat} (h : Refused e ipBe port seq n) (hsend : ∀ k, T.udpSend k = true) :
    Refused (step T e .poll) ipBe port seq n := by
  refine ⟨(step_himm T e _).ready T h.ready, ?_⟩
  have hb : e.beginCall.tx = e.tx := rfl
  have hstep : step T e .poll = txPoll T (himmReap T e.beginCall) := by
    change aunPoll T e.beginCall = _
    unfold aunPoll
    exact if_neg (by simp [Engine.beginCall, h.ready])
  have hreap : (himmReap T e.beginCall).tx = e.tx := (himmReap_sameTx T e.beginCall).tx
  rw [hstep]
  generalize himmReap T e.beginCall = e₁ at hreap
  rcases h.state with ⟨hwait, hleft⟩ | hdone
  · unfold txPoll
    rw [if_neg (by simp [hreap, hwait.pending])]
    split_ifs with hdue
    · left
      exact ⟨hwait.congr (by simp [hreap]) (by simp [hreap]) (by simp [hreap]),
        by simpa [hreap] using hleft⟩
    · have hno : (tick e₁).tx.norespLeft = 0 := by simp [hreap, hwait.noresp]
      unfold txTimeout
      by_cases hpend : (tick e₁).tx.rejectPending = true
      · rw [if_pos hpend]
        left
        generalize hrec : (tick e₁).withTx { (tick e₁).tx with rejectPending := false } = e₂
        have htx : e₂.tx = { e.tx with rejectPending := false } := by
          rw [← hrec, Engine.withTx_tx, tick_tx, hreap]
        have hsent := txSend_taken T (hsend e₂.io.sends : udpSendOk T e₂ = true)
        rw [htx] at hsent
        refine ⟨hwait.congr (by rw [hsent]; rfl) (by rw [hsent]) (by rw [hsent]), ?_⟩
        rw [hsent]
        exact hleft
      · rw [if_neg hpend, if_pos hno]
        right
        simp
  · unfold txPoll
    rw [if_pos (by simp [hreap, hdone])]
    right
    rw [hreap]
    exact hdone

end

/-! ### The two engines -/

structure Link where
  a : Engine
  b : Engine
  answers : List (List UInt8)

inductive LinkMove where
  | arrive
  | answer (n : Nat)
  | poll
deriving DecidableEq, Repr

def sentTo (ipBe : UInt32) (port : UInt16) (out : List Effect) : List (List UInt8) :=
  out.filterMap fun
    | .sent ipBe' port' dgram ok => if ok ∧ ipBe' = ipBe ∧ port' = port then some dgram else none
    | .traced _ _ _ _ _ => none

structure Addresses where
  ipA : UInt32
  portA : UInt16
  ipB : UInt32
  portB : UInt16

variable (TB : Transport) (addr : Addresses) (dgram : List UInt8)

def linkStep (s : Link) : LinkMove → Link
  | .arrive =>
      let b := step TB s.b (.udpInput addr.ipA addr.portA dgram)
      { s with b := b, answers := s.answers ++ sentTo addr.ipA addr.portA b.io.out }
  | .answer n =>
      match s.answers[n]? with
      | some d => { s with a := step T s.a (.udpInput addr.ipB addr.portB d) }
      | none => s
  | .poll => { s with a := step T s.a .poll }

def Link.answered (st : Step Link LinkMove) : Bool :=
  match st.op with
  | .answer n => decide (n < st.pre.answers.length)
  | _ => false

structure LinkInv (nak : List UInt8) (seq : UInt32) (hist : List (Step Link LinkMove)) (s : Link) : Prop where
  ready : s.b.initialised = true
  answers : s.answers = List.replicate (hist.countP fun st => decide (st.op = .arrive)) nak
  sender : Refused s.a addr.ipB addr.portB seq (hist.countP Link.answered)

section

variable {addr dgram} {slot : HostImm} {ctrl : UInt8} {seq : UInt32} {data : List UInt8}
  {hist : List (Step Link LinkMove)} {s : Link}

theorem linkStep_slot (hctrl : isImm4Ctrl (ctrl &&& 0x7F) = true)
    (hno : ∀ e : Engine, imm4Wanted e (ctrl &&& 0x7F) data = false) (s : Link) (move : LinkMove)
    (h : s.b.initialised = true ∧ s.b.himm = slot) :
    let s' := linkStep T TB addr (buildHeader AUN_TYPE_DATA 0 ctrl seq ++ data) s move
    s'.b.initialised = true ∧ s'.b.himm = slot := by
  cases move with
  | arrive =>
    obtain ⟨hslot, -⟩ := @udpInput_refused TB data s.b ctrl seq h.1 addr.ipA addr.portA hctrl (hno s.b)
    exact ⟨(step_himm TB s.b _).ready TB h.1, hslot.trans h.2⟩
  | answer n =>
    cases hn : s.answers[n]? <;> simpa [linkStep, hn] using h
  | poll => exact h

theorem LinkInv.step (hctrl : isImm4Ctrl (ctrl &&& 0x7F) = true)
    (hno : ∀ e : Engine, imm4Wanted e (ctrl &&& 0x7F) data = false) (hsend : ∀ k, T.udpSend k = true)
    (hsendB : ∀ k, TB.udpSend k = true)
    (h : LinkInv addr (buildHeader AUN_TYPE_NAK 0 (ctrl &&& 0x7F) seq) seq hist s)
    (move : LinkMove) :
    let s' := linkStep T TB addr (buildHeader AUN_TYPE_DATA 0 ctrl seq ++ data) s move
    LinkInv addr (buildHeader AUN_TYPE_NAK 0 (ctrl &&& 0x7F) seq) seq
      (hist ++ [⟨s, move, s'⟩]) s' := by
  cases move with
  | arrive =>
    obtain ⟨-, ok, hout, hok⟩ :=
      @udpInput_refused TB data s.b ctrl seq h.ready addr.ipA addr.portA hctrl (hno s.b)
    have hok' : ok = true := hok.trans (hsendB _)
    subst hok'
    refine ⟨(step_himm TB s.b _).ready TB h.ready, ?_, ?_⟩
    · simp only [linkStep, hout, sentTo]
      rw [h.answers]
      simp [List.replicate_succ']
    · simpa [Link.answered, linkStep] using h.sender
  | answer n =>
    cases hn : s.answers[n]? with
    | none =>
      have hlen : ¬n < s.answers.length := by simpa using hn
      have hstay : linkStep T TB addr (buildHeader AUN_TYPE_DATA 0 ctrl seq ++ data) s (.answer n) =
          s := by
        simp [linkStep, hn]
      rw [hstay]
      refine ⟨h.ready, ?_, ?_⟩
      · simpa using h.answers
      · simpa [Link.answered, hlen] using h.sender
    | some d =>
      have hlen : n < s.answers.length := (List.getElem?_eq_some_iff.mp hn).1
      have hd : d = buildHeader AUN_TYPE_NAK 0 (ctrl &&& 0x7F) seq := by
        have hmem := List.mem_of_getElem? hn
        rw [h.answers] at hmem
        exact List.eq_of_mem_replicate hmem
      have hgo : linkStep T TB addr (buildHeader AUN_TYPE_DATA 0 ctrl seq ++ data) s (.answer n) =
          { s with a := Aun.step T s.a (.udpInput addr.ipB addr.portB d) } := by
        simp [linkStep, hn]
      rw [hgo, hd]
      refine ⟨h.ready, ?_, ?_⟩
      · simpa using h.answers
      · simpa [Link.answered, hlen] using h.sender.nak T (ctrl &&& 0x7F)
  | poll =>
    refine ⟨h.ready, ?_, ?_⟩
    · simpa [linkStep] using h.answers
    · simpa [Link.answered, linkStep] using h.sender.poll T hsend

theorem linkInv_start {a b : Engine} {nak : List UInt8} (hready : a.initialised = true)
    (hwait : Awaiting a addr.ipB addr.portB seq) (hleft : a.tx.rejectLeft = AUN_REJECT_RETRIES)
    (hb : b.initialised = true) : LinkInv addr nak seq [] ⟨a, b, []⟩ where
  ready := hb
  answers := rfl
  sender := ⟨hready, Or.inl ⟨hwait, by simpa using hleft⟩⟩

end

/-- A 4-way immediate that fits the receiver is held there as the caller gave it, and the
    answer completes the sender; one that does not fit leaves the receiver's slot alone and
    ends as not listening once more refusals than retries have come back. -/
theorem imm4_round_trip (a b : Engine) (destNet destStn ctrl : UInt8) (data : Payload)
    (replyBuf replyMax : Nat) (hctrl : isImm4Ctrl (ctrl &&& 0x7F) = true)
    (hsent : .sent addr.ipB addr.portB dgram true ∈
      (step T a (.immediate destNet destStn ctrl data replyBuf replyMax)).io.out)
    (hready : b.initialised = true) :
    let a' := step T a (.immediate destNet destStn ctrl data replyBuf replyMax)
    let b' := step TB b (.udpInput addr.ipA addr.portA dgram)
    (imm4Fits (ctrl &&& 0x7F) data.len = true → b.hostImmEnabled = true → b.himm.active = false →
      himmReplays TB b true addr.ipA addr.portA a.nextSeq = false →
      b'.himm.active = true ∧ b'.himm.data = data.toList ∧ b'.himm.ctrl = ctrl &&& 0x7F ∧
      ∀ reply, ∃ ack ok, (step TB b' (.himmReply reply)).io.out =
          [.sent addr.ipA addr.portA ack ok] ∧
        (step T a' (.udpInput addr.ipB addr.portB ack)).tx.state = .ok) ∧
    (imm4Fits (ctrl &&& 0x7F) data.len = false → ∀ moves,
      let hist := History.history (linkStep T TB addr dgram) ⟨a', b, []⟩ moves
      let s := History.final (linkStep T TB addr dgram) ⟨a', b, []⟩ moves
      s.b.himm = b.himm ∧
      ((∀ k, T.udpSend k = true) → (∀ k, TB.udpSend k = true) →
        s.answers.length = hist.countP (fun st => decide (st.op = .arrive)) ∧
        (s.a.tx.state = .pending ∨ s.a.tx.state = .notListening) ∧
        (AUN_REJECT_RETRIES < hist.countP Link.answered → s.a.tx.state = .notListening))) := by
  obtain ⟨hreadyA, hwait, hleft, rfl, hlen, hlow⟩ := immediate_sent T hctrl hsent
  rw [← hlen] at hlow
  have hwanted : ∀ e : Engine, imm4Wanted e (ctrl &&& 0x7F) (imm4Payload (ctrl &&& 0x7F) data.toList) =
      (e.hostImmEnabled && imm4Fits (ctrl &&& 0x7F) data.len) := by
    intro e
    rw [← hlen]
    exact imm4Wanted_iff e hctrl hlow
  refine ⟨fun hfits henabled hfree hfresh => ?_, fun hfits moves => ?_⟩
  · have hinput : step TB b (.udpInput addr.ipA addr.portA (buildHeader AUN_TYPE_DATA 0 ctrl a.nextSeq ++
          imm4Payload (ctrl &&& 0x7F) data.toList)) =
        rxImm4Data TB b.beginCall addr.ipA addr.portA (ctrl &&& 0x7F) a.nextSeq
          (imm4Payload (ctrl &&& 0x7F) data.toList) :=
      aunUdpInput_imm4_built TB (e := b.beginCall) hready addr.ipA addr.portA hctrl a.nextSeq _
    have hgood : imm4Wanted b.beginCall (ctrl &&& 0x7F)
        (imm4Payload (ctrl &&& 0x7F) data.toList) = true := by
      rw [hwanted, hfits]
      simpa [Engine.beginCall] using henabled
    obtain ⟨hact, hfrom, hc, hseq, hip, hport, hdata⟩ := rxImm4Data_held TB hgood hfree hfresh
    rw [← hinput] at hact hfrom hc hseq hip hport hdata
    refine ⟨hact, hdata.trans (imm4Held_payload hlow), hc, fun reply => ?_⟩
    obtain ⟨ok, hout⟩ := himmReply_acks TB hact hfrom reply
    rw [hip, hport, hseq] at hout
    exact ⟨_, ok, hout, hwait.acked T hreadyA _⟩
  · have hno : ∀ e : Engine, imm4Wanted e (ctrl &&& 0x7F)
        (imm4Payload (ctrl &&& 0x7F) data.toList) = false := by
      intro e
      rw [hwanted, hfits, Bool.and_false]
    refine ⟨(History.final_induction (linkStep T TB addr _)
      (fun s : Link => s.b.initialised = true ∧ s.b.himm = b.himm) ⟨hready, rfl⟩
      (linkStep_slot T TB hctrl hno) moves).2, fun hsend hsendB => ?_⟩
    have hinv := History.history_induction
      (linkStep T TB addr (buildHeader AUN_TYPE_DATA 0 ctrl a.nextSeq ++
        imm4Payload (ctrl &&& 0x7F) data.toList))
      (LinkInv addr (buildHeader AUN_TYPE_NAK 0 (ctrl &&& 0x7F) a.nextSeq) a.nextSeq)
      (linkInv_start hreadyA hwait hleft hready)
      (fun hist s move h => h.step T TB hctrl hno hsend hsendB move) moves
    refine ⟨by rw [hinv.answers, List.length_replicate], ?_, fun hmany => ?_⟩
    · exact hinv.sender.state.imp (fun h => h.1.pending) id
    · rcases hinv.sender.state with ⟨-, hbudget⟩ | hdone
      · omega
      · exact hdone

def localLink : Addresses := ⟨0x0100007F, 32769, 0x0100007F, 32768⟩

/-- A Poke of one byte, its control byte with bit 7 set, and a JSR without an address. -/
theorem imm4_round_trip_poke_jsr :
    (let a := runState .steady (fun _ => 0) 1 0 [.mapAdd 0 5 0x0100007F 32768]
     let b := runState .steady (fun _ => 0) 5 0 [.setHostImm true]
     let b' := step .steady b (.udpInput 0x0100007F 32769
       (buildHeader AUN_TYPE_DATA 0 0x82 a.nextSeq ++ pokePayload [1, 2, 3, 4, 9]))
     b'.himm.active = true ∧ b'.himm.data = [1, 2, 3, 4, 9] ∧ b'.himm.ctrl = 2) ∧
    (let a := runState .steady (fun _ => 0) 1 0 [.mapAdd 0 5 0x0100007F 32768]
     let b := runState .steady (fun _ => 0) 5 0 [.setHostImm true]
     let moves := .arrive :: List.replicate 11 (LinkMove.answer 0)
     (History.final (linkStep .steady .steady localLink (buildHeader AUN_TYPE_DATA 0 3 a.nextSeq ++ [7]))
       ⟨step .steady a (.immediate 0 5 3 (.bytes [7]) 0 0), b, []⟩ moves).a.tx.state =
        .notListening) := by
  constructor
  · obtain ⟨h1, h2, h3, -⟩ := (imm4_round_trip .steady .steady localLink
      (buildHeader AUN_TYPE_DATA 0 0x82 4 ++ pokePayload [1, 2, 3, 4, 9])
      (runState .steady (fun _ => 0) 1 0 [.mapAdd 0 5 0x0100007F 32768])
      (runState .steady (fun _ => 0) 5 0 [.setHostImm true]) 0 5 0x82 (.bytes [1, 2, 3, 4, 9]) 0 0
      (by decide) (by decide +kernel) (by decide +kernel)).1 (by decide) (by decide +kernel)
      (by decide +kernel) (by decide +kernel)
    exact ⟨h1, h2, h3⟩
  · exact (((imm4_round_trip .steady .steady localLink (buildHeader AUN_TYPE_DATA 0 3 4 ++ [7])
      (runState .steady (fun _ => 0) 1 0 [.mapAdd 0 5 0x0100007F 32768])
      (runState .steady (fun _ => 0) 5 0 [.setHostImm true]) 0 5 3 (.bytes [7]) 0 0
      (by decide) (by decide +kernel) (by decide +kernel)).2 (by decide)
      (.arrive :: List.replicate 11 (.answer 0))).2 (fun _ => rfl) (fun _ => rfl)).2.2 (by decide +kernel)

end Pi1MHz.Aun
