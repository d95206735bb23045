import Pi1MHz.AunFrame

/-!
# What a call can do to the host immediates

`HimmStep` lists everything one call can do to the slot of the held immediate, to the
cached outcome of the last one resolved and to the replay counter; `step_himm` proves
the list complete.
-/

namespace Pi1MHz.Aun

open WrapClock (reached)

variable (T : Transport)

/-! ### The transmit functions keep the host immediates -/

theorem txSend_sameHimm (e : Engine) : SameHimm e (txSend T e) := by
  unfold txSend
  dsimp only
  split_ifs <;> exact ⟨by simp, by simp, by simp, by simp, by simp⟩

theorem withTx_sameHimm (e : Engine) (tx : Tx) : SameHimm e (e.withTx tx) := ⟨rfl, rfl, rfl, rfl, rfl⟩

theorem tick_sameHimm (e : Engine) : SameHimm e (tick e) := ⟨by simp, by simp, by simp, by simp, by simp⟩

theorem txPoll_sameHimm (e : Engine) : SameHimm e (txPoll T e) := by
  unfold txPoll txTimeout
  split_ifs
  · exact SameHimm.refl e
  · exact tick_sameHimm e
  · exact (tick_sameHimm e).trans ((withTx_sameHimm _ _).trans (txSend_sameHimm T _))
  · exact (tick_sameHimm e).trans ⟨by simp, by simp, by simp, by simp, by simp⟩
  · exact (tick_sameHimm e).trans ((withTx_sameHimm _ _).trans (txSend_sameHimm T _))

theorem txCountDone_sameHimm (e : Engine) : SameHimm e (txCountDone e) := by
  unfold txCountDone
  split_ifs <;> exact ⟨by simp, by simp, by simp, by simp, by simp⟩

theorem txLoopback_sameHimm (e : Engine) (wireType ctrl port : UInt8) (data : List UInt8)
    (replyBuf replyMax : Nat) :
    SameHimm e (txLoopback e wireType ctrl port data replyBuf replyMax) := by
  unfold txLoopback
  dsimp only
  split_ifs
  · refine SameHimm.trans ?_ (txCountDone_sameHimm _)
    unfold loopbackImmediate
    dsimp only
    split_ifs <;> exact ⟨by simp, by simp, by simp, by simp, by simp⟩
  · exact SameHimm.trans ⟨by simp, by simp, by simp, by simp, by simp⟩ (txCountDone_sameHimm _)
  · refine SameHimm.trans ?_ (txCountDone_sameHimm _)
    unfold loopbackDeliver
    dsimp only
    have hdel := (withTx_sameHimm e { e.tx with state := .ok, replyBuf := 0, replyLen := 0 }).trans
      (rxDeliver_rest _ port ctrl e.testStn e.testNet data).toSameHimm
    split
    · exact hdel
    · exact hdel.trans (withTx_sameHimm _ _)

theorem txBegin_sameHimm (e : Engine) (wireType destNet destStn ctrl port : UInt8) (data : Payload)
    (replyBuf replyMax : Nat) :
    SameHimm e (txBegin T e wireType destNet destStn ctrl port data replyBuf replyMax).2 := by
  unfold txBegin
  split_ifs
  · exact SameHimm.refl e
  · exact SameHimm.refl e
  · exact SameHimm.refl e
  · exact txLoopback_sameHimm e _ _ _ _ _ _
  · split
    · exact SameHimm.refl e
    · unfold txLaunch
      exact SameHimm.trans ⟨by simp, by simp, by simp, by simp, by simp⟩ (txSend_sameHimm T _)

theorem aunImmediate_sameHimm (e : Engine) (destNet destStn ctrl : UInt8) (data : Payload)
    (replyBuf replyMax : Nat) :
    SameHimm e (aunImmediate T e destNet destStn ctrl data replyBuf replyMax).2 := by
  unfold aunImmediate
  dsimp only
  split_ifs
  · exact SameHimm.refl e
  · exact txBegin_sameHimm T e _ _ _ _ _ _ _ _
  · exact txBegin_sameHimm T e _ _ _ _ _ _ _ _
  · exact txBegin_sameHimm T e _ _ _ _ _ _ _ _

theorem inputAckNak_sameHimm (e : Engine) (ipBe : UInt32) (port : UInt16) (type : UInt8)
    (seq : UInt32) : SameHimm e (inputAckNak T e ipBe port type seq) := by
  unfold inputAckNak txRejected
  split_ifs
  · exact ⟨by simp, by simp, by simp, by simp, by simp⟩
  · exact ⟨by simp, by simp, by simp, by simp, by simp⟩
  · exact ⟨by simp, by simp, by simp, by simp, by simp⟩
  · exact SameHimm.refl e
  · exact SameHimm.refl e

theorem inputImmReply_sameHimm (e : Engine) (ipBe : UInt32) (port : UInt16) (seq : UInt32)
    (data : List UInt8) : SameHimm e (inputImmReply e ipBe port seq data) := by
  have hstore : SameHimm e (storeReply e data) := by
    unfold storeReply
    dsimp only
    split_ifs <;> exact ⟨by simp, by simp, by simp, by simp, by simp⟩
  unfold inputImmReply
  split_ifs
  · exact hstore.trans ⟨by simp, by simp, by simp, by simp, by simp⟩
  · exact SameHimm.refl e

/-! ### The list of steps -/

/-- A datagram that carries an immediate for the host: a 4-way immediate sent as DATA
    to port 0, or a type-5 immediate other than a machine peek. -/
structure ImmData (buf : List UInt8) (fromData : Bool) (aunPort ctrl : UInt8) (seq : UInt32)
    (data : List UInt8) : Prop where
  kind : if fromData then buf.getD 0 0 = AUN_TYPE_DATA ∧ aunPort = 0 ∧ isImm4Ctrl ctrl = true
    else buf.getD 0 0 = AUN_TYPE_IMMEDIATE ∧ ctrl ≠ AUN_CTRL_MACHINE_PEEK
  header : AUN_HDR_SIZE ≤ buf.length
  aunPortEq : buf.getD 1 0 = aunPort
  ctrlEq : buf.getD 2 0 &&& 0x7F = ctrl
  seqEq : rd32le (buf.drop 4) = seq
  dataEq : buf.drop AUN_HDR_SIZE = data

def himmWanted (e : Engine) (fromData : Bool) (ctrl : UInt8) (data : List UInt8) : Bool :=
  if fromData then imm4Wanted e ctrl data else immWanted e ctrl data

def himmPayload (fromData : Bool) (ctrl : UInt8) (data : List UInt8) : List UInt8 :=
  if fromData then imm4Held ctrl data else data

/-- The slot with a fresh immediate in it, held from clock value `now` on. -/
@[simps] def HostImm.hold (h : HostImm) (fromData : Bool) (ctrl : UInt8) (seq : UInt32)
    (ipBe : UInt32) (port : UInt16) (now : UInt32) (data : List UInt8) : HostImm :=
  { h with
    gen := h.gen + 1
    active := true
    fromData := fromData
    ctrl := ctrl
    seq := seq
    ipBe := ipBe
    port := port
    dueMs := now + AUN_HIMM_TIMEOUT_MS
    data := data }

@[simps] def HostImm.release (h : HostImm) : HostImm := { h with active := false }

/-- What is remembered of an immediate resolved at clock value `now`. -/
@[simps] def HostImm.outcome (h : HostImm) (isNak : Bool) (data : List UInt8) (now : UInt32) :
    HimmCache where
  valid := true
  isNak := isNak
  fromData := h.fromData
  ipBe := h.ipBe
  port := h.port
  seq := h.seq
  ctrl := h.ctrl
  dueMs := now + AUN_HIMM_CACHE_MS
  data := if isNak then [] else data.take AUN_HIMM_MAX

def HostImm.replyData (h : HostImm) (data : List UInt8) : List UInt8 :=
  if h.fromData then [] else data.take AUN_HIMM_MAX

def HostImm.replyDgram (h : HostImm) (data : List UInt8) : List UInt8 :=
  if h.fromData then buildHeader AUN_TYPE_ACK 0 h.ctrl h.seq
  else buildHeader AUN_TYPE_IMM_REPLY 0 h.ctrl h.seq ++ (data.take AUN_HIMM_MAX).take AUN_HIMM_MAX

def himmReplays (e : Engine) (fromData : Bool) (ipBe : UInt32) (port : UInt16) (seq : UInt32) :
    Bool :=
  himmCacheArmed e fromData && himmCacheHit e (nowMs T e) ipBe port seq

def HimmCache.answer (c : HimmCache) (aunPort ctrl : UInt8) (seq : UInt32) : List UInt8 :=
  if c.isNak then buildHeader AUN_TYPE_NAK (if c.fromData then 0 else aunPort) ctrl seq
  else if c.fromData then buildHeader AUN_TYPE_ACK 0 ctrl seq
  else buildHeader AUN_TYPE_IMM_REPLY 0 c.ctrl c.seq ++ c.data.take AUN_HIMM_MAX

inductive HimmStep (e : Engine) : Op → Engine → Prop
  | kept {op e'} (h : SameHimm e e') : HimmStep e op e'
  | reset {station net e'} (hhimm : e'.himm = HostImm.zero) (hcache : e'.himmCache = HimmCache.zero)
      (hon : e'.hostImmEnabled = false) (hrep : e'.counters.himmReplay = 0)
      (hready : e'.initialised = true) : HimmStep e (.init station net) e'
  | switched {enable e'} (hhimm : e'.himm = e.himm.release)
      (hcache : e'.himmCache = { e.himmCache with valid := false })
      (hon : e'.hostImmEnabled = enable)
      (hrep : e'.counters.himmReplay = e.counters.himmReplay)
      (hready : e'.initialised = e.initialised) : HimmStep e (.setHostImm enable) e'
  | replied {data e'} (hact : e.himm.active = true) (hhimm : e'.himm = e.himm.release)
      (hcache : e'.himmCache =
        e.himm.outcome false (e.himm.replyData data) (T.now e.io.reads))
      (hon : e'.hostImmEnabled = e.hostImmEnabled)
      (hrep : e'.counters.himmReplay = e.counters.himmReplay)
      (hready : e'.initialised = e.initialised) : HimmStep e (.himmReply data) e'
  | reaped {e'} (hact : e.himm.active = true)
      (hdue : reached (T.now e.io.reads) e.himm.dueMs = true) (hhimm : e'.himm = e.himm.release)
      (hcache : e'.himmCache = e.himm.outcome true [] (T.now (e.io.reads + 1)))
      (hon : e'.hostImmEnabled = e.hostImmEnabled)
      (hrep : e'.counters.himmReplay = e.counters.himmReplay)
      (hready : e'.initialised = e.initialised) : HimmStep e .poll e'
  | held {ipBe port buf fromData aunPort ctrl seq data k e'}
      (hd : ImmData buf fromData aunPort ctrl seq data)
      (hwant : himmWanted e fromData ctrl data = true) (hidle : e.himm.active = false)
      (hmiss : himmReplays T e fromData ipBe port seq = false)
      (hhimm : e'.himm =
        e.himm.hold fromData ctrl seq ipBe port (T.now k) (himmPayload fromData ctrl data))
      (hcache : e'.himmCache = e.himmCache) (hon : e'.hostImmEnabled = e.hostImmEnabled)
      (hrep : e'.counters.himmReplay = e.counters.himmReplay)
      (hready : e'.initialised = e.initialised) : HimmStep e (.udpInput ipBe port buf) e'
  | replayed {ipBe port buf fromData aunPort ctrl seq data e'}
      (hd : ImmData buf fromData aunPort ctrl seq data)
      (hwant : himmWanted e fromData ctrl data = true)
      (hidle : fromData = false → e.himm.active = false)
      (hhit : himmReplays T e fromData ipBe port seq = true)
      (hhimm : e'.himm = e.himm) (hcache : e'.himmCache = e.himmCache)
      (hon : e'.hostImmEnabled = e.hostImmEnabled)
      (hrep : e'.counters.himmReplay = e.counters.himmReplay + 1)
      (hready : e'.initialised = e.initialised) : HimmStep e (.udpInput ipBe port buf) e'

/-! ### The list is complete -/

theorem countImm_sameHimm (e : Engine) : SameHimm e (countImm e) :=
  ⟨by simp, by simp, by simp, by simp, by simp⟩

theorem himmReplays_congr {e e' : Engine} (hcache : e'.himmCache = e.himmCache)
    (hreads : e'.io.reads = e.io.reads) (fromData : Bool) (ipBe : UInt32) (port : UInt16)
    (seq : UInt32) : himmReplays T e' fromData ipBe port seq = himmReplays T e fromData ipBe port seq := by
  simp [himmReplays, himmCacheArmed, himmCacheHit, nowMs, hcache, hreads]

section

variable {e : Engine} {ipBe : UInt32} {port : UInt16} {buf : List UInt8} {aunPort ctrl : UInt8}
  {seq : UInt32} {data : List UInt8}

theorem imm4Fresh_himm {e₁ : Engine} (hd : ImmData buf true aunPort ctrl seq data)
    (hwant : imm4Wanted e ctrl data = true) (hmiss : himmReplays T e true ipBe port seq = false)
    (hsame : SameHimm e e₁) :
    HimmStep T e (.udpInput ipBe port buf) (imm4Fresh T e₁ ipBe port ctrl seq data) := by
  unfold imm4Fresh
  split_ifs with hact
  · exact .kept hsame
  · refine .held (k := e₁.io.reads) hd (by simpa [himmWanted] using hwant) ?_ hmiss ?_ ?_ ?_ ?_ ?_
    · rw [← hsame.himm]
      simpa using hact
    · simp [hsame.himm, HostImm.hold, himmPayload, nowMs]
    · simp [hsame.cache]
    · simp [hsame.enabled]
    · simp [hsame.replays]
    · simp [hsame.ready]

theorem rxImm4Data_himm (hd : ImmData buf true aunPort ctrl seq data) :
    HimmStep T e (.udpInput ipBe port buf) (rxImm4Data T e ipBe port ctrl seq data) := by
  have hcount := countImm_sameHimm e
  have htest : himmReplays T (countImm e) true ipBe port seq = himmReplays T e true ipBe port seq :=
    himmReplays_congr T (by simp) (by simp) true ipBe port seq
  unfold rxImm4Data
  split_ifs with hwant
  · unfold imm4Checked imm4Replay
    split_ifs with harmed hhit
    · refine .replayed hd (by simpa [himmWanted] using hwant) (by simp) ?_ (by simp) (by simp)
        (by simp) (by simp) (by simp)
      rw [← htest]
      simp [himmReplays, harmed, hhit]
    · refine .replayed hd (by simpa [himmWanted] using hwant) (by simp) ?_ (by simp) (by simp)
        (by simp) (by simp) (by simp)
      rw [← htest]
      simp [himmReplays, harmed, hhit]
    · refine imm4Fresh_himm T hd hwant ?_ (hcount.trans (tick_sameHimm _))
      rw [← htest]
      simp [himmReplays, hhit]
    · refine imm4Fresh_himm T hd hwant ?_ hcount
      rw [← htest]
      simp [himmReplays, harmed]
  · exact .kept (hcount.trans (sendAckNak_sameHimm T _ _ _ _ _ _ _))

theorem himmHold_step {e₁ : Engine} (hd : ImmData buf false aunPort ctrl seq data)
    (hwant : immWanted e ctrl data = true) (hidle : e.himm.active = false)
    (hmiss : himmReplays T e false ipBe port seq = false) (hsame : SameHimm e e₁) :
    HimmStep T e (.udpInput ipBe port buf) (himmHold T e₁ false ctrl seq ipBe port data) := by
  refine .held (k := e₁.io.reads) hd (by simpa [himmWanted] using hwant) hidle hmiss ?_ ?_ ?_ ?_ ?_
  · simp [hsame.himm, HostImm.hold, himmPayload, nowMs]
  · simp [hsame.cache]
  · simp [hsame.enabled]
  · simp [hsame.replays]
  · simp [hsame.ready]

theorem inputImmediate_himm (hd : buf.getD 0 0 = AUN_TYPE_IMMEDIATE)
    (hlen : AUN_HDR_SIZE ≤ buf.length) (hport : buf.getD 1 0 = aunPort)
    (hctrl : buf.getD 2 0 &&& 0x7F = ctrl) (hseq : rd32le (buf.drop 4) = seq)
    (hdata : buf.drop AUN_HDR_SIZE = data) :
    HimmStep T e (.udpInput ipBe port buf) (inputImmediate T e ipBe port aunPort ctrl seq data) := by
  have hcount := countImm_sameHimm e
  have htest : himmReplays T (countImm e) false ipBe port seq = himmReplays T e false ipBe port seq :=
    himmReplays_congr T (by simp) (by simp) false ipBe port seq
  unfold inputImmediate
  split_ifs with hpeek hwant hact hsame
  · exact .kept (hcount.trans ⟨by simp, by simp, by simp, by simp, by simp⟩)
  · exact .kept hcount
  · exact .kept (hcount.trans (sendAckNak_sameHimm T _ _ _ _ _ _ _))
  · have himm : ImmData buf false aunPort ctrl seq data :=
      ⟨⟨hd, hpeek⟩, hlen, hport, hctrl, hseq, hdata⟩
    have hidle : e.himm.active = false := by simpa using hact
    unfold immFresh immReplay
    split_ifs with harmed hhit
    · refine .replayed himm (by simpa [himmWanted] using hwant) (fun _ => hidle) ?_ (by simp) (by simp)
        (by simp) (by simp) (by simp)
      rw [← htest]
      simp [himmReplays, harmed, hhit]
    · refine .replayed himm (by simpa [himmWanted] using hwant) (fun _ => hidle) ?_ (by simp) (by simp)
        (by simp) (by simp) (by simp)
      rw [← htest]
      simp [himmReplays, harmed, hhit]
    · refine himmHold_step T himm hwant hidle ?_ (hcount.trans (tick_sameHimm _))
      rw [← htest]
      simp [himmReplays, hhit]
    · refine himmHold_step T himm hwant hidle ?_ hcount
      rw [← htest]
      simp [himmReplays, harmed]
  · exact .kept (hcount.trans (sendAckNak_sameHimm T _ _ _ _ _ _ _))

theorem aunUdpInput_himm (e : Engine) (ipBe : UInt32) (port : UInt16) (buf : List UInt8) :
    HimmStep T e (.udpInput ipBe port buf) (aunUdpInput T e ipBe port buf) := by
  unfold aunUdpInput
  dsimp only
  split_ifs with hshort htx hreply hdata hbcast himm
  · exact .kept ⟨by simp, by simp, by simp, by simp, by simp⟩
  · exact .kept (inputAckNak_sameHimm T e ipBe port _ _)
  · exact .kept (inputImmReply_sameHimm e ipBe port _ _)
  · unfold inputData
    split_ifs with h4
    · rw [not_or] at hshort
      exact rxImm4Data_himm T ⟨⟨hdata, h4⟩, by omega, rfl, rfl, rfl, rfl⟩
    · exact .kept (inputFunnelData_rest T e ipBe port _ _ _ _).toSameHimm
  · exact .kept (inputBroadcast_rest e ipBe port _ _ _).toSameHimm
  · rw [not_or] at hshort
    exact inputImmediate_himm T himm (by omega) rfl rfl rfl rfl
  · exact .kept ⟨by simp, by simp, by simp, by simp, by simp⟩

end

theorem aunHimmReply_himm (e : Engine) (data : List UInt8) :
    HimmStep T e (.himmReply data) (aunHimmReply T e data) := by
  unfold aunHimmReply
  split_ifs with hact hfrom
  · exact .kept (SameHimm.refl e)
  · refine .replied (by simpa using hact) ?_ ?_ (by simp) (by simp) (by simp)
    · simp [HostImm.release]
    · simp [HostImm.outcome, HostImm.replyData, hfrom, nowMs]
  · refine .replied (by simpa using hact) ?_ ?_ (by simp) (by simp) (by simp)
    · simp [HostImm.release]
    · simp [HostImm.outcome, HostImm.replyData, hfrom, nowMs]

theorem aunPoll_himm (e : Engine) : HimmStep T e .poll (aunPoll T e) := by
  unfold aunPoll
  split_ifs
  · exact .kept (SameHimm.refl e)
  · have hpoll := txPoll_sameHimm T (himmReap T e)
    unfold himmReap himmExpire at hpoll ⊢
    split_ifs at hpoll ⊢ with hact hdue
    · refine .reaped hact hdue ?_ ?_ ?_ ?_ ?_
      · rw [hpoll.himm]
        simp [HostImm.release]
      · rw [hpoll.cache]
        simp [HostImm.outcome, nowMs]
      · rw [hpoll.enabled]
        simp
      · rw [hpoll.replays]
        simp
      · rw [hpoll.ready]
        simp
    · exact .kept ((tick_sameHimm e).trans hpoll)
    · exact .kept hpoll

theorem exec_himm (e : Engine) (op : Op) : HimmStep T e op (exec T e op).2 := by
  cases op with
  | init station net => exact .reset rfl rfl rfl rfl rfl
  | mapAdd net stn ipBe port =>
    have h := aunMapAdd_eq e net stn ipBe port
    change HimmStep T e _ (aunMapAdd e net stn ipBe port).2
    rw [h]
    exact .kept ⟨rfl, rfl, rfl, rfl, rfl⟩
  | setAddressing b s m l => exact .kept ⟨rfl, rfl, rfl, rfl, rfl⟩
  | testResponder enable stn net => exact .kept ⟨rfl, rfl, rfl, rfl, rfl⟩
  | setMachineId id => exact .kept ⟨rfl, rfl, rfl, rfl, rfl⟩
  | setTrace installed => exact .kept ⟨rfl, rfl, rfl, rfl, rfl⟩
  | setHostImm enable => exact .switched rfl rfl rfl rfl rfl
  | himmReply data => exact aunHimmReply_himm T e data
  | rxOpen handle port stn net buf bufSize =>
    exact .kept (aunRxOpen_rest e handle port stn net buf bufSize).toSameHimm
  | rxPoll handle => exact .kept (aunRxPoll_rest T e handle).toSameHimm
  | rxReady handle => exact .kept (aunRxReady_rest T e handle).toSameHimm
  | rxCollect handle accept => exact .kept (aunRxCollect_rest T e handle accept).toSameHimm
  | rxClose handle => exact .kept (aunRxClose_rest e handle).toSameHimm
  | txStart destNet destStn ctrl port data => exact .kept (txBegin_sameHimm T e _ _ _ _ _ _ _ _)
  | immediate destNet destStn ctrl data replyBuf replyMax =>
    exact .kept (aunImmediate_sameHimm T e _ _ _ _ _ _)
  | broadcast ctrl port data => exact .kept (aunBroadcast_same T e ctrl port data).2.1
  | udpInput ipBe port buf => exact aunUdpInput_himm T e ipBe port buf
  | poll => exact aunPoll_himm T e

theorem step_himm (e : Engine) (op : Op) : HimmStep T e.beginCall op (step T e op) :=
  exec_himm T e.beginCall op

theorem HimmStep.ready {e e' : Engine} {op : Op} (h : HimmStep T e op e')
    (he : e.initialised = true) : e'.initialised = true := by
  cases h with
  | kept h => exact h.ready.trans he
  | reset _ _ _ _ hready => exact hready
  | switched _ _ _ _ hready => exact hready.trans he
  | replied _ _ _ _ _ hready => exact hready.trans he
  | reaped _ _ _ _ _ _ hready => exact hready.trans he
  | held _ _ _ _ _ _ _ _ hready => exact hready.trans he
  | replayed _ _ _ _ _ _ _ _ hready => exact hready.trans he

theorem initialised_run (mem : Nat → UInt8) (station net : UInt8) (ops : List Op) :
    (runState T mem station net ops).initialised = true :=
  History.final_induction (step T) (fun e => e.initialised = true) rfl
    (fun e op h => (step_himm T e op).ready T h) ops

end Pi1MHz.Aun
