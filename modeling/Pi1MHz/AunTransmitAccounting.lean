import Pi1MHz.AunTxSteps

/-!
# Transmit accounting and the retry bound

Over every run from `aun_init` the transmits accepted are the transmits completed plus
the one still pending, and an accepted transmit is sent between once and
`1 + AUN_REJECT_RETRIES` times, always as the same datagram to the same address.
-/

namespace Pi1MHz.Aun

open History (Step)

variable (T : Transport)

/-! ### Counting accepted transmits -/

def Op.isInit : Op → Bool
  | .init _ _ => true
  | _ => false

/-- A step whose call asked for a transmit and returned `AUN_OK`. -/
def Accepts (st : Step Engine Op) : Bool :=
  st.op.isTransmit && decide (result T st.pre st.op = .ok)

def pendingCount (e : Engine) : UInt32 := if e.tx.state = .pending then 1 else 0

def transmitTotal (e : Engine) : UInt32 :=
  e.counters.txOk + e.counters.txFail + pendingCount e

theorem TxStep.total {e e' : Engine} {op : Op} (h : TxStep T e op e') (hinit : op.isInit = false) :
    transmitTotal e' = transmitTotal e + (if accepted T e op then 1 else 0) := by
  unfold transmitTotal pendingCount
  cases h with
  | kept hacc hsame => rw [hacc, hsame.tx, hsame.txOk, hsame.txFail]; simp
  | reset hop => obtain ⟨station, net, rfl⟩ := hop; simp [Op.isInit] at hinit
  | looped hacc hloop hidle hdone hcount =>
    have hne : e'.tx.state ≠ .pending := by
      rcases hdone with h | h <;> (rw [h]; decide)
    rw [hacc, if_neg hidle, if_neg hne, hcount]
    simp
  | launched hacc hloop hidle htype hdgram hrej hleft hout hstate =>
    rw [hacc, if_neg hidle]
    rcases hstate with ⟨hs, hok, hfail⟩ | ⟨hs, hok, hfail⟩
    · simp [hs, hok, hfail]
    · simp [hs, hok, hfail, UInt32.add_assoc]
  | ended hacc hpend hid hleft hstate =>
    rw [hacc, if_pos hpend]
    rcases hstate with ⟨hs, hok, hfail⟩ | ⟨hs, hok, hfail⟩
    · rw [hok, hfail, hs]
      simp only [reduceCtorEq, if_false, UInt32.add_zero, Bool.false_eq_true]
      rw [UInt32.add_assoc, UInt32.add_comm 1, ← UInt32.add_assoc]
    · simp [hs, hok, hfail, UInt32.add_assoc]
  | rejected hacc hpend hid hleft hstate hbudget hok hfail =>
    simp [hacc, hpend, hstate, hok, hfail]
  | resent hacc hpend hwhy hid hrej hbudget hout hstate =>
    rw [hacc, if_pos hpend]
    rcases hstate with ⟨hs, hok, hfail⟩ | ⟨hs, hok, hfail⟩
    · simp [hs, hok, hfail]
    · simp [hs, hok, hfail, UInt32.add_assoc]

theorem accepted_eq_total (mem : Nat → UInt8) (station net : UInt8) (ops : List Op) :
    (∀ op ∈ ops, op.isInit = false) →
    UInt32.ofNat ((runSteps T mem station net ops).countP (Accepts T)) =
      transmitTotal (runState T mem station net ops) := by
  induction ops using List.reverseRecOn with
  | nil => intro _; rfl
  | append_singleton ops op ih =>
    intro hinit
    have hlast : op.isInit = false := hinit op (by simp)
    have hpre := ih fun o ho => hinit o (by simp [ho])
    have hstep := (step_tx T (runState T mem station net ops) op).total T hlast
    unfold runState runSteps at *
    rw [History.history_snoc, History.final_snoc, List.countP_append, hstep]
    change _ = transmitTotal (History.final (step T) (start mem station net) ops) + _
    rw [← hpre, List.countP_singleton]
    change UInt32.ofNat (_ + if accepted T _ op then 1 else 0) = _
    split <;> simp

/-! ### One transmit from acceptance on -/

def txSent (steps : List (Step Engine Op)) : List Effect :=
  steps.flatMap fun st => st.post.io.out.filter Effect.isTx

def Completes (st : Step Engine Op) : Bool :=
  (decide (st.pre.tx.state = .pending) || Accepts T st) && decide (st.post.tx.state ≠ .pending)

/-- What can be said of the transmit `t` after the steps since its acceptance. -/
structure TxOutcome (t : TxId) (steps : List (Step Engine Op)) (e : Engine) : Prop where
  type : t.wireType = AUN_TYPE_DATA ∨ t.wireType = AUN_TYPE_IMMEDIATE
  id : e.tx.id = t
  same : ∀ x ∈ txSent steps, ∃ ok, x = t.sent ok
  once : 1 ≤ (txSent steps).length
  data : t.wireType = AUN_TYPE_DATA → (txSent steps).length ≤ 1 + AUN_REJECT_RETRIES
  imm : t.wireType = AUN_TYPE_IMMEDIATE → (txSent steps).length = 1
  done : steps.countP (Completes T) = if e.tx.state = .pending then 0 else 1
  code : e.tx.state = .pending ∨ e.tx.state = .ok ∨ e.tx.state = .notListening ∨
    e.tx.state = .netError

structure TxProgress (t : TxId) (steps : List (Step Engine Op)) (e : Engine) : Prop
    extends TxOutcome T t steps e where
  dgram : t.datagram.getD 0 0 = t.wireType
  noresp : e.tx.norespLeft = 0
  budget : e.tx.state = .pending → t.wireType = AUN_TYPE_DATA →
    (txSent steps).length + e.tx.rejectLeft + e.tx.rejectPending.toNat ≤ 1 + AUN_REJECT_RETRIES
  single : e.tx.state = .pending → t.wireType = AUN_TYPE_IMMEDIATE →
    e.tx.rejectLeft = 0 ∧ e.tx.rejectPending = false

theorem TxId.isTx_sent {t : TxId} (hd : t.datagram.getD 0 0 = t.wireType)
    (ht : t.wireType = AUN_TYPE_DATA ∨ t.wireType = AUN_TYPE_IMMEDIATE) (ok : Bool) :
    (t.sent ok).isTx = true := by
  have htype : (t.sent ok).type = some t.wireType := by rw [← hd]; rfl
  rcases ht with h | h <;> (rw [h] at htype; simp [Effect.isTx, htype])

theorem txSent_snoc (steps : List (Step Engine Op)) (st : Step Engine Op) :
    txSent (steps ++ [st]) = txSent steps ++ st.post.io.out.filter Effect.isTx := by
  simp [txSent]

theorem filter_isTx_nil {l : List Effect} (h : ∀ x ∈ l, x.isTx = false) :
    l.filter Effect.isTx = [] := by
  rw [List.filter_eq_nil_iff]
  intro x hx
  simp [h x hx]

theorem filter_isTx_of_emitted {e e' : Engine} (hout : e.io.out = [])
    (h : Emitted (fun x => x.isTx = false) e e') : e'.io.out.filter Effect.isTx = [] := by
  obtain ⟨l, hl, hP⟩ := h
  rw [hl, hout, List.nil_append]
  exact filter_isTx_nil hP

section

variable {t : TxId} {steps : List (Step Engine Op)} {e e' : Engine} {op : Op}

theorem TxProgress.quiet (h : TxProgress T t steps e) (hid : e'.tx.id = e.tx.id)
    (hno : e'.tx.norespLeft = e.tx.norespLeft)
    (hout : e'.io.out.filter Effect.isTx = [])
    (hbudget : e'.tx.state = .pending → e.tx.state = .pending ∧
      e'.tx.rejectLeft + e'.tx.rejectPending.toNat ≤ e.tx.rejectLeft + e.tx.rejectPending.toNat)
    (hdone : (steps ++ [Step.mk e op e']).countP (Completes T) =
      if e'.tx.state = .pending then 0 else 1)
    (hcode : e'.tx.state = .pending ∨ e'.tx.state = .ok ∨ e'.tx.state = .notListening ∨
      e'.tx.state = .netError) : TxProgress T t (steps ++ [Step.mk e op e']) e' := by
  have hsent : txSent (steps ++ [Step.mk e op e']) = txSent steps := by
    rw [txSent_snoc, hout, List.append_nil]
  refine ⟨⟨h.type, hid.trans h.id, ?_, ?_, ?_, ?_, hdone, hcode⟩, h.dgram, hno.trans h.noresp, ?_, ?_⟩
  · rw [hsent]
    exact h.same
  · rw [hsent]
    exact h.once
  · rw [hsent]
    exact h.data
  · rw [hsent]
    exact h.imm
  · intro hp ht
    obtain ⟨hpend, hle⟩ := hbudget hp
    have := h.budget hpend ht
    rw [hsent]
    omega
  · intro hp ht
    obtain ⟨hpend, hle⟩ := hbudget hp
    obtain ⟨hl, hr⟩ := h.single hpend ht
    rw [hl, hr] at hle
    simp only [Bool.toNat_false, Nat.add_zero, Nat.le_zero, Nat.add_eq_zero_iff] at hle
    exact ⟨hle.1, by simpa using hle.2⟩

theorem countP_completes_pending (h : TxProgress T t steps e) (hpend : e.tx.state = .pending) :
    (steps ++ [Step.mk e op e']).countP (Completes T) = if e'.tx.state = .pending then 0 else 1 := by
  rw [List.countP_append, h.done, if_pos hpend, List.countP_singleton]
  simp only [Completes, hpend, decide_true, Bool.true_or, Bool.true_and]
  by_cases hp : e'.tx.state = .pending <;> simp [hp]

theorem TxProgress.step (h : TxProgress T t steps e) (hs : TxStep T e.beginCall op e')
    (hacc : accepted T e.beginCall op = false) (hinit : op.isInit = false) :
    TxProgress T t (steps ++ [Step.mk e op e']) e' := by
  cases hs with
  | kept _ hsame hq =>
    have htx : e'.tx = e.tx := hsame.tx
    refine h.quiet T (by rw [htx]) (by rw [htx]) (filter_isTx_of_emitted rfl hq) ?_ ?_ ?_
    · intro hp
      rw [htx] at hp ⊢
      exact ⟨hp, Nat.le_refl _⟩
    · rw [List.countP_append, h.done, List.countP_singleton, htx]
      have hnot : Accepts T (Step.mk e op e') = false := hacc
      by_cases hp : e.tx.state = .pending <;> simp [Completes, hnot, htx, hp]
    · rw [htx]
      exact h.code
  | reset hop => obtain ⟨station, net, rfl⟩ := hop; simp [Op.isInit] at hinit
  | looped hacc' | launched hacc' => simp [hacc] at hacc'
  | ended _ hpend hid hleft hstate hq =>
    refine h.quiet T hid hleft (filter_isTx_of_emitted rfl hq) ?_ (countP_completes_pending T h hpend) ?_
    · intro hp
      rcases hstate with ⟨hs, -⟩ | ⟨hs, -⟩ <;> (rw [hs] at hp; cases hp)
    · rcases hstate with ⟨hs, -⟩ | ⟨hs, -⟩ <;> simp [hs]
  | rejected _ hpend hid hleft hstate hbudget hok hfail hq =>
    have hpend' : e.tx.state = .pending := hpend
    have hbudget' : e'.tx.rejectLeft + 1 = e.tx.rejectLeft := hbudget
    refine h.quiet T hid hleft (filter_isTx_of_emitted rfl hq) ?_ (countP_completes_pending T h hpend)
      (Or.inl hstate)
    intro _
    refine ⟨hpend', ?_⟩
    have := Bool.toNat_le e'.tx.rejectPending
    omega
  | resent _ hpend hwhy hid hrej hbudget hout hstate =>
    have hpend' : e.tx.state = .pending := hpend
    have hbudget' : e'.tx.rejectLeft = e.tx.rejectLeft := hbudget
    have hpending : e.tx.rejectPending = true ∧ e'.tx.norespLeft = e.tx.norespLeft :=
      hwhy.resolve_right fun hne => hne h.noresp
    obtain ⟨l, ok, hl, hP⟩ := hout
    have hone : e'.io.out.filter Effect.isTx = [t.sent ok] := by
      have hl' : e'.io.out = l ++ [e.tx.id.sent ok] := hl
      rw [hl', List.filter_append, filter_isTx_nil hP, h.id, List.nil_append]
      simp [TxId.isTx_sent h.dgram h.type]
    have hsent : txSent (steps ++ [Step.mk e op e']) = txSent steps ++ [t.sent ok] := by
      rw [txSent_snoc, hone]
    have hlen : (txSent (steps ++ [Step.mk e op e'])).length = (txSent steps).length + 1 := by
      rw [hsent, List.length_append]
      rfl
    -- only a scheduled reject retransmit is sent, so this is a DATA transmit
    have hdata : t.wireType = AUN_TYPE_DATA := by
      refine h.type.resolve_right fun himm => ?_
      have := (h.single hpend' himm).2
      rw [hpending.1] at this
      cases this
    have hspent := h.budget hpend' hdata
    rw [hpending.1] at hspent
    simp only [Bool.toNat_true] at hspent
    have hne : t.wireType ≠ AUN_TYPE_IMMEDIATE := by rw [hdata]; decide
    refine ⟨⟨h.type, hid.trans h.id, ?_, ?_, ?_, ?_, countP_completes_pending T h hpend', ?_⟩,
      h.dgram, hpending.2.trans h.noresp, ?_, ?_⟩
    · intro x hx
      rw [hsent] at hx
      rcases List.mem_append.mp hx with hx | hx
      · exact h.same x hx
      · exact ⟨ok, List.mem_singleton.mp hx⟩
    · omega
    · intro _
      omega
    · exact fun himm => absurd himm hne
    · rcases hstate with ⟨hs, -⟩ | ⟨hs, -⟩ <;> simp [hs]
    · intro _ _
      rw [hlen, hrej, hbudget']
      simp only [Bool.toNat_false]
      omega
    · exact fun _ himm => absurd himm hne

theorem TxProgress.launch (hs : TxStep T e.beginCall op e') (hacc : accepted T e.beginCall op = true)
    (hloop : op.loopsBack e = false) : TxProgress T e'.tx.id [Step.mk e op e'] e' := by
  cases hs with
  | kept hacc' => simp [hacc] at hacc'
  | reset hop =>
    obtain ⟨station, net, rfl⟩ := hop
    simp [accepted, Op.isTransmit] at hacc
  | looped _ hloop' =>
    have : op.loopsBack e = true := by cases op <;> exact hloop'
    rw [hloop] at this
    cases this
  | launched _ _ hidle htype hdgram hrej hleft hout hstate =>
    have htype' : e'.tx.id.wireType = AUN_TYPE_DATA ∨ e'.tx.id.wireType = AUN_TYPE_IMMEDIATE :=
      htype.imp And.left And.left
    obtain ⟨ok, hl⟩ := hout
    have hsent : txSent [Step.mk e op e'] = [e'.tx.id.sent ok] := by
      have hl' : e'.io.out = [e'.tx.id.sent ok] := hl
      simp [txSent, hl', TxId.isTx_sent hdgram htype']
    have hlen : (txSent [Step.mk e op e']).length = 1 := by rw [hsent]; rfl
    refine ⟨⟨htype', rfl, ?_, by omega, fun _ => by omega, fun _ => hlen, ?_, ?_⟩, hdgram, hleft, ?_, ?_⟩
    · intro x hx
      rw [hsent] at hx
      exact ⟨ok, List.mem_singleton.mp hx⟩
    · have hyes : Accepts T (Step.mk e op e') = true := hacc
      by_cases hp : e'.tx.state = .pending <;> simp [Completes, hyes, hp]
    · rcases hstate with ⟨hs, -⟩ | ⟨hs, -⟩ <;> simp [hs]
    · intro _ hd
      have hdata : e'.tx.rejectLeft = AUN_REJECT_RETRIES := by
        rcases htype with h | h
        · exact h.2
        · rw [show e'.tx.wireType = AUN_TYPE_DATA from hd] at h
          exact absurd h.1 (by decide)
      rw [hlen, hrej, hdata]
      rfl
    · intro _ hi
      have himm : e'.tx.rejectLeft = 0 := by
        rcases htype with h | h
        · rw [show e'.tx.wireType = AUN_TYPE_IMMEDIATE from hi] at h
          exact absurd h.1 (by decide)
        · exact h.2
      exact ⟨himm, hrej⟩
  | ended hacc' | rejected hacc' | resent hacc' => simp [hacc] at hacc'

end

theorem txProgress_run {e : Engine} {op : Op} (hacc : Accepts T ⟨e, op, step T e op⟩ = true)
    (hloop : op.loopsBack e = false) (mid : List Op) (hinit : ∀ o ∈ mid, o.isInit = false)
    (hnone : ∀ st ∈ History.history (step T) (step T e op) mid, Accepts T st = false) :
    TxProgress T (step T e op).tx.id (History.history (step T) e (op :: mid))
      (History.final (step T) e (op :: mid)) := by
  induction mid using List.reverseRecOn with
  | nil => exact TxProgress.launch T (step_tx T e op) hacc hloop
  | append_singleton mid o ih =>
    rw [History.history_snoc] at hnone
    have hpre := ih (fun o' ho' => hinit o' (by simp [ho'])) fun st hst => hnone st (by simp [hst])
    have hlast := hnone _ (List.mem_append_right _ (List.mem_singleton.mpr rfl))
    rw [← List.cons_append, History.history_snoc, History.final_snoc]
    exact hpre.step T (step_tx T _ o) hlast (hinit o (by simp))

/-- With nothing pending and nothing accepted, a call sends no transmit and leaves the outcome of the last one. -/
theorem TxStep.idle {e e' : Engine} {op : Op} (h : TxStep T e.beginCall op e') (hinit : op.isInit = false)
    (hacc : accepted T e.beginCall op = false) (hidle : e.tx.state ≠ .pending) :
    e'.tx.state = e.tx.state ∧ e'.io.out.filter Effect.isTx = [] := by
  cases h with
  | kept _ hsame hq =>
    have htx : e'.tx = e.tx := hsame.tx
    exact ⟨by rw [htx], filter_isTx_of_emitted rfl hq⟩
  | reset hop => obtain ⟨station, net, rfl⟩ := hop; simp [Op.isInit] at hinit
  | looped hacc' | launched hacc' => simp [hacc] at hacc'
  | ended _ hpend | rejected _ hpend | resent _ hpend => exact absurd hpend hidle

theorem TxStep.of_loopback {e e' : Engine} {op : Op} (h : TxStep T e.beginCall op e')
    (hacc : accepted T e.beginCall op = true) (hloop : op.loopsBack e = true) :
    (e'.tx.state = .ok ∨ e'.tx.state = .notListening) ∧ e'.io.out.filter Effect.isTx = [] := by
  cases h with
  | looped _ _ _ hdone _ _ _ hq => exact ⟨hdone, filter_isTx_of_emitted rfl hq⟩
  | launched _ hwire =>
    have : op.loopsBack e = false := by cases op <;> exact hwire
    rw [hloop] at this
    cases this
  | kept hacc' | ended hacc' | rejected hacc' | resent hacc' => simp [hacc] at hacc'
  | reset hop =>
    obtain ⟨station, net, rfl⟩ := hop
    simp [accepted, Op.isTransmit] at hacc

/-- A transmit to the loopback station is over with the call that accepts it, and nothing of it is ever sent. -/
theorem looped_run {e : Engine} {op : Op} (hacc : Accepts T ⟨e, op, step T e op⟩ = true)
    (hloop : op.loopsBack e = true) (mid : List Op) (hinit : ∀ o ∈ mid, o.isInit = false)
    (hnone : ∀ st ∈ History.history (step T) (step T e op) mid, Accepts T st = false) :
    ((History.final (step T) e (op :: mid)).tx.state = (step T e op).tx.state ∧
      txSent (History.history (step T) e (op :: mid)) = []) ∧
    ((step T e op).tx.state = .ok ∨ (step T e op).tx.state = .notListening) := by
  obtain ⟨hdone, hquiet⟩ := (step_tx T e op).of_loopback T hacc hloop
  refine ⟨?_, hdone⟩
  induction mid using List.reverseRecOn with
  | nil => exact ⟨rfl, by rw [show txSent _ = _ from List.append_nil _]; exact hquiet⟩
  | append_singleton mid o ih =>
    rw [History.history_snoc] at hnone
    obtain ⟨hstate, hsent⟩ := ih (fun o' ho' => hinit o' (by simp [ho'])) fun st hst => hnone st (by simp [hst])
    have hlast := hnone _ (List.mem_append_right _ (List.mem_singleton.mpr rfl))
    have hidle : (History.final (step T) e (op :: mid)).tx.state ≠ .pending := by
      rw [hstate]
      rcases hdone with h | h <;> (rw [h]; decide)
    obtain ⟨hkept, hnothing⟩ := (step_tx T _ o).idle T (hinit o (by simp)) hlast hidle
    rw [← List.cons_append, History.history_snoc, History.final_snoc, txSent_snoc, hsent]
    exact ⟨hkept.trans hstate, hnothing⟩

theorem answersTx_eq_false {e : Engine} {ipBe : UInt32} {port : UInt16} {seq : UInt32}
    (h : e.tx.state ≠ .pending ∨ seq ≠ e.tx.seq ∨ ipBe ≠ e.tx.ipBe ∨ port ≠ e.tx.udpPort) :
    answersTx e ipBe port seq = false := by
  rcases h with h | h | h | h <;> simp [answersTx, h]

theorem aunUdpInput_stray {e : Engine} {ipBe : UInt32} {port : UInt16} {buf : List UInt8}
    (hready : e.initialised = true) (hlen : AUN_HDR_SIZE ≤ buf.length)
    (htype : buf.getD 0 0 = AUN_TYPE_ACK ∨ buf.getD 0 0 = AUN_TYPE_NAK ∨
      buf.getD 0 0 = AUN_TYPE_IMM_REPLY)
    (hstray : answersTx e ipBe port (rd32le (buf.drop 4)) = false) :
    aunUdpInput T e ipBe port buf = e := by
  have hok : ¬(e.initialised = false ∨ buf.length < AUN_HDR_SIZE) := by
    rw [hready, not_or]
    exact ⟨by decide, by omega⟩
  unfold aunUdpInput
  rw [if_neg hok]
  dsimp only
  rcases htype with h | h | h
  · simp only [h, true_or, if_true, inputAckNak, hstray, Bool.false_eq_true, if_false]
  · simp only [h, or_true, if_true, inputAckNak, hstray, Bool.false_eq_true, if_false]
  · have hne : ¬(AUN_TYPE_IMM_REPLY = AUN_TYPE_ACK ∨ AUN_TYPE_IMM_REPLY = AUN_TYPE_NAK) := by decide
    simp only [h, hne, if_true, if_false, inputImmReply, hstray, Bool.false_and, Bool.false_eq_true]

/-! ### The account -/

/-- Over every run from `aun_init`: the transmits accepted are those completed plus the
    pending one; each transmit for the wire is sent as `TxOutcome` says and completed
    once; one for the loopback station is completed by its call and never sent; and an
    answer that names another transmit changes nothing. -/
theorem transmit_accounting (mem : Nat → UInt8) (station net : UInt8) (ops : List Op)
    (hinit : ∀ op ∈ ops, op.isInit = false) :
    UInt32.ofNat ((runSteps T mem station net ops).countP (Accepts T)) =
      (runState T mem station net ops).counters.txOk +
        (runState T mem station net ops).counters.txFail +
        (if (runState T mem station net ops).tx.state = .pending then 1 else 0) ∧
    (∀ before op mid, ops = before ++ op :: mid →
      Accepts T ⟨runState T mem station net before, op,
        step T (runState T mem station net before) op⟩ = true →
      op.loopsBack (runState T mem station net before) = false →
      (∀ st ∈ History.history (step T) (step T (runState T mem station net before) op) mid,
        Accepts T st = false) →
      TxOutcome T (step T (runState T mem station net before) op).tx.id
        (History.history (step T) (runState T mem station net before) (op :: mid))
        (runState T mem station net ops)) ∧
    (∀ before op mid, ops = before ++ op :: mid →
      Accepts T ⟨runState T mem station net before, op,
        step T (runState T mem station net before) op⟩ = true →
      op.loopsBack (runState T mem station net before) = true →
      (∀ st ∈ History.history (step T) (step T (runState T mem station net before) op) mid,
        Accepts T st = false) →
      ((runState T mem station net ops).tx.state = (step T (runState T mem station net before) op).tx.state ∧
        txSent (History.history (step T) (runState T mem station net before) (op :: mid)) = []) ∧
      ((step T (runState T mem station net before) op).tx.state = .ok ∨
        (step T (runState T mem station net before) op).tx.state = .notListening)) ∧
    (∀ ipBe port buf, AUN_HDR_SIZE ≤ buf.length →
      (buf.getD 0 0 = AUN_TYPE_ACK ∨ buf.getD 0 0 = AUN_TYPE_NAK ∨
        buf.getD 0 0 = AUN_TYPE_IMM_REPLY) →
      ((runState T mem station net ops).tx.state ≠ .pending ∨
        rd32le (buf.drop 4) ≠ (runState T mem station net ops).tx.seq ∨
        ipBe ≠ (runState T mem station net ops).tx.ipBe ∨
        port ≠ (runState T mem station net ops).tx.udpPort) →
      (step T (runState T mem station net ops) (.udpInput ipBe port buf)).tx =
          (runState T mem station net ops).tx ∧
        (step T (runState T mem station net ops) (.udpInput ipBe port buf)).counters =
          (runState T mem station net ops).counters) := by
  have hfinal : ∀ before op mid, runState T mem station net (before ++ op :: mid) =
      History.final (step T) (runState T mem station net before) (op :: mid) :=
    fun _ _ _ => History.final_append _ _ _ _
  refine ⟨accepted_eq_total T mem station net ops hinit, ?_, ?_, ?_⟩
  · intro before op mid hops hacc hloop hnone
    subst hops
    have hrun := txProgress_run T hacc hloop mid
      (fun o ho => hinit o (by simp [ho])) hnone
    rw [hfinal]
    exact hrun.toTxOutcome
  · intro before op mid hops hacc hloop hnone
    subst hops
    rw [hfinal]
    exact looped_run T hacc hloop mid (fun o ho => hinit o (by simp [ho])) hnone
  · intro ipBe port buf hlen htype hstray
    have hready := initialised_run T mem station net ops
    have hsame := aunUdpInput_stray T (e := (runState T mem station net ops).beginCall)
      hready hlen htype (answersTx_eq_false hstray)
    have hstep : step T (runState T mem station net ops) (.udpInput ipBe port buf) =
        (runState T mem station net ops).beginCall := hsame
    rw [hstep]
    exact ⟨rfl, rfl⟩

/-- A DATA transmit that is NAKed once, retransmitted and then ACKed. -/
theorem transmit_accounting_naked_once :
    TxOutcome .steady ⟨AUN_TYPE_DATA, 4, 0x0100007F, 32768, [2, 0x99, 0, 0, 4, 0, 0, 0, 7]⟩
      (History.history (step .steady)
        (runState .steady (fun _ => 0) 1 0 [.mapAdd 0 5 0x0100007F 0])
        [.txStart 0 5 0x80 0x99 (.bytes [7]), .udpInput 0x0100007F 32768 [4, 0, 0, 0, 4, 0, 0, 0],
          .poll, .poll, .poll, .poll, .poll, .poll, .poll, .poll, .poll, .poll,
          .udpInput 0x0100007F 32768 [3, 0, 0, 0, 4, 0, 0, 0]])
      (runState .steady (fun _ => 0) 1 0
        [.mapAdd 0 5 0x0100007F 0, .txStart 0 5 0x80 0x99 (.bytes [7]),
          .udpInput 0x0100007F 32768 [4, 0, 0, 0, 4, 0, 0, 0],
          .poll, .poll, .poll, .poll, .poll, .poll, .poll, .poll, .poll, .poll,
          .udpInput 0x0100007F 32768 [3, 0, 0, 0, 4, 0, 0, 0]]) := by
  have h := (transmit_accounting .steady (fun _ => 0) 1 0
    [.mapAdd 0 5 0x0100007F 0, .txStart 0 5 0x80 0x99 (.bytes [7]),
      .udpInput 0x0100007F 32768 [4, 0, 0, 0, 4, 0, 0, 0],
      .poll, .poll, .poll, .poll, .poll, .poll, .poll, .poll, .poll, .poll,
      .udpInput 0x0100007F 32768 [3, 0, 0, 0, 4, 0, 0, 0]] (by decide)).2.1
    [.mapAdd 0 5 0x0100007F 0] (.txStart 0 5 0x80 0x99 (.bytes [7]))
    [.udpInput 0x0100007F 32768 [4, 0, 0, 0, 4, 0, 0, 0],
      .poll, .poll, .poll, .poll, .poll, .poll, .poll, .poll, .poll, .poll,
      .udpInput 0x0100007F 32768 [3, 0, 0, 0, 4, 0, 0, 0]] rfl
    (by decide +kernel) (by decide +kernel) (by decide +kernel)
  have hid : (step .steady (runState .steady (fun _ => 0) 1 0 [.mapAdd 0 5 0x0100007F 0])
      (.txStart 0 5 0x80 0x99 (.bytes [7]))).tx.id =
      ⟨AUN_TYPE_DATA, 4, 0x0100007F, 32768, [2, 0x99, 0, 0, 4, 0, 0, 0, 7]⟩ := by decide +kernel
  rw [hid] at h
  exact h

/-- A transmit to the loopback station is accepted and completed, and never sent. -/
theorem loopback_accepted_unsent :
    Accepts .steady ⟨runState .steady (fun _ => 0) 1 0 [.testResponder true 5 0],
      .txStart 0 5 0x80 0x99 (.bytes [7]),
      step .steady (runState .steady (fun _ => 0) 1 0 [.testResponder true 5 0])
        (.txStart 0 5 0x80 0x99 (.bytes [7]))⟩ = true ∧
    txSent (History.history (step .steady)
      (runState .steady (fun _ => 0) 1 0 [.testResponder true 5 0])
      [.txStart 0 5 0x80 0x99 (.bytes [7])]) = [] ∧
    (runState .steady (fun _ => 0) 1 0
      [.testResponder true 5 0, .txStart 0 5 0x80 0x99 (.bytes [7])]).tx.state ≠ .pending := by
  decide +kernel

end Pi1MHz.Aun
