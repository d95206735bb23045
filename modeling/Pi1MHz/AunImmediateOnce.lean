import Pi1MHz.AunHimmSteps

/-!
# Immediates are executed once

An immediate is handed to the host by holding it in the one slot the engine has.  While
it is held nothing else is; when it is resolved, by the host's reply or by the reaper,
its outcome is remembered in a one-slot cache, and retransmits are answered from there.
-/

namespace Pi1MHz.Aun

open History (Step)
open WrapClock (reached)

variable (T : Transport)

def Op.forgetsHimm : Op → Bool
  | .init _ _ => true
  | .setHostImm _ => true
  | _ => false

def Resolves (st : Step Engine Op) : Prop :=
  st.pre.himm.active = true ∧ st.post.himm.active = false

instance (st : Step Engine Op) : Decidable (Resolves st) := inferInstanceAs (Decidable (_ ∧ _))

/-! ### One immediate through a run -/

structure Exchange where
  ipBe : UInt32
  port : UInt16
  buf : List UInt8
  mid : List Op
  res : Op
  later : List Op

namespace Exchange

variable (x : Exchange)

def arrive : Op := .udpInput x.ipBe x.port x.buf

def fromData : Bool := x.buf.getD 0 0 == AUN_TYPE_DATA

def ctrl : UInt8 := x.buf.getD 2 0 &&& 0x7F

def seq : UInt32 := rd32le (x.buf.drop 4)

def heldState (e : Engine) : Engine := step T e x.arrive

def dueState (e : Engine) : Engine := History.final (step T) (x.heldState T e) x.mid

def resolvedState (e : Engine) : Engine := step T (x.dueState T e) x.res

def laterState (e : Engine) : Engine := History.final (step T) (x.resolvedState T e) x.later

def recorded (e : Engine) : Nat :=
  match x.res with
  | .himmReply _ => (x.dueState T e).io.reads
  | _ => (x.dueState T e).io.reads + 1

def answer : List UInt8 :=
  match x.res with
  | .himmReply data =>
      if x.fromData then buildHeader AUN_TYPE_ACK 0 x.ctrl x.seq
      else buildHeader AUN_TYPE_IMM_REPLY 0 x.ctrl x.seq ++ data.take AUN_HIMM_MAX
  | _ => buildHeader AUN_TYPE_NAK (if x.fromData then 0 else x.buf.getD 1 0) x.ctrl x.seq

/-- The exchange happens as described, from engine `e` on, and the retransmit comes
    within `AUN_HIMM_CACHE_MS` of the resolution with no other resolution in between. -/
structure Valid (e : Engine) : Prop where
  free : e.himm.active = false
  held : (x.heldState T e).himm.active = true
  midKeeps : ∀ op ∈ x.mid, op.forgetsHimm = false
  midHeld : ∀ st ∈ History.history (step T) (x.heldState T e) x.mid, ¬Resolves st
  resKeeps : x.res.forgetsHimm = false
  resolves : Resolves ⟨x.dueState T e, x.res, x.resolvedState T e⟩
  laterKeeps : ∀ op ∈ x.later, op.forgetsHimm = false
  laterNone : ∀ st ∈ History.history (step T) (x.resolvedState T e) x.later, ¬Resolves st
  after : T.clock (x.recorded T e) ≤ T.clock (x.laterState T e).io.reads
  before : T.clock (x.laterState T e).io.reads <
    T.clock (x.recorded T e) + AUN_HIMM_CACHE_MS.toNat

end Exchange

/-! ### What stays while nothing is resolved -/

theorem HimmStep.held_stays {e e' : Engine} {op : Op} (hs : HimmStep T e op e')
    (hact : e.himm.active = true) (hop : op.forgetsHimm = false) (hres : e'.himm.active ≠ false) :
    e'.himm = e.himm ∧ e'.hostImmEnabled = e.hostImmEnabled := by
  cases hs with
  | kept hsame => exact ⟨hsame.himm, hsame.enabled⟩
  | reset => cases hop
  | switched => cases hop
  | replied _ hhimm =>
    rw [hhimm] at hres
    exact absurd rfl hres
  | reaped _ _ hhimm =>
    rw [hhimm] at hres
    exact absurd rfl hres
  | held _ _ hidle =>
    rw [hact] at hidle
    cases hidle
  | replayed _ _ _ _ hhimm _ hon => exact ⟨hhimm, hon⟩

theorem HimmStep.cache_stays {e e' : Engine} {op : Op} (hs : HimmStep T e op e')
    (hop : op.forgetsHimm = false) (hres : e.himm.active = true → e'.himm.active ≠ false) :
    e'.himmCache = e.himmCache ∧ e'.hostImmEnabled = e.hostImmEnabled := by
  cases hs with
  | kept hsame => exact ⟨hsame.cache, hsame.enabled⟩
  | reset => cases hop
  | switched => cases hop
  | replied hact hhimm =>
    have := hres hact
    rw [hhimm] at this
    exact absurd rfl this
  | reaped hact _ hhimm =>
    have := hres hact
    rw [hhimm] at this
    exact absurd rfl this
  | held _ _ _ _ _ hcache hon => exact ⟨hcache, hon⟩
  | replayed _ _ _ _ _ hcache hon => exact ⟨hcache, hon⟩

theorem HimmStep.slot_taken {e e' : Engine} {ipBe : UInt32} {port : UInt16} {buf : List UInt8}
    (hs : HimmStep T e (.udpInput ipBe port buf) e') (hact : e.himm.active = true) :
    e'.himm = e.himm := by
  cases hs with
  | kept hsame => exact hsame.himm
  | held _ _ hidle =>
    rw [hact] at hidle
    cases hidle
  | replayed _ _ _ _ hhimm => exact hhimm

theorem held_run {e : Engine} (hact : e.himm.active = true) (ops : List Op)
    (hops : ∀ op ∈ ops, op.forgetsHimm = false)
    (hres : ∀ st ∈ History.history (step T) e ops, ¬Resolves st) :
    (History.final (step T) e ops).himm = e.himm ∧
      (History.final (step T) e ops).hostImmEnabled = e.hostImmEnabled := by
  induction ops using List.reverseRecOn with
  | nil => exact ⟨rfl, rfl⟩
  | append_singleton ops op ih =>
    rw [History.history_snoc] at hres
    obtain ⟨hhimm, hon⟩ := ih (fun o ho => hops o (List.mem_append_left _ ho))
      fun st hst => hres st (List.mem_append_left _ hst)
    have hlast := hres _ (List.mem_append_right _ (List.mem_singleton.mpr rfl))
    have hact' : (History.final (step T) e ops).himm.active = true := by rw [hhimm]; exact hact
    have hstep := (step_himm T (History.final (step T) e ops) op).held_stays T hact'
      (hops op (by simp)) fun hgone => hlast ⟨hact', hgone⟩
    rw [History.final_snoc]
    exact ⟨hstep.1.trans hhimm, hstep.2.trans hon⟩

theorem cache_run (e : Engine) (ops : List Op) (hops : ∀ op ∈ ops, op.forgetsHimm = false)
    (hres : ∀ st ∈ History.history (step T) e ops, ¬Resolves st) :
    (History.final (step T) e ops).himmCache = e.himmCache ∧
      (History.final (step T) e ops).hostImmEnabled = e.hostImmEnabled := by
  induction ops using List.reverseRecOn with
  | nil => exact ⟨rfl, rfl⟩
  | append_singleton ops op ih =>
    rw [History.history_snoc] at hres
    obtain ⟨hcache, hon⟩ := ih (fun o ho => hops o (List.mem_append_left _ ho))
      fun st hst => hres st (List.mem_append_left _ hst)
    have hlast := hres _ (List.mem_append_right _ (List.mem_singleton.mpr rfl))
    have hstep := (step_himm T (History.final (step T) e ops) op).cache_stays T
      (hops op (by simp)) fun hact hgone => hlast ⟨hact, hgone⟩
    rw [History.final_snoc]
    exact ⟨hstep.1.trans hcache, hstep.2.trans hon⟩

/-! ### How the cache answers -/

theorem aunUdpInput_imm4 {e : Engine} {ipBe : UInt32} {port : UInt16} {buf : List UInt8}
    {aunPort ctrl : UInt8} {seq : UInt32} {data : List UInt8} (hready : e.initialised = true)
    (hd : ImmData buf true aunPort ctrl seq data) :
    aunUdpInput T e ipBe port buf = rxImm4Data T e ipBe port ctrl seq data := by
  obtain ⟨⟨htype, hport, hctrl⟩, hlen, haun, hctrl', hseq, hdata⟩ := hd
  have hok : ¬(e.initialised = false ∨ buf.length < AUN_HDR_SIZE) := by
    rw [hready, not_or]
    exact ⟨by decide, by omega⟩
  have h1 : ¬(AUN_TYPE_DATA = AUN_TYPE_ACK ∨ AUN_TYPE_DATA = AUN_TYPE_NAK) := by decide
  have h2 : AUN_TYPE_DATA ≠ AUN_TYPE_IMM_REPLY := by decide
  unfold aunUdpInput
  rw [if_neg hok]
  simp only [htype, haun, hctrl', hseq, hdata, h1, h2, if_true, if_false, inputData]
  rw [if_pos ⟨hport, hctrl⟩]

theorem aunUdpInput_imm5 {e : Engine} {ipBe : UInt32} {port : UInt16} {buf : List UInt8}
    {aunPort ctrl : UInt8} {seq : UInt32} {data : List UInt8} (hready : e.initialised = true)
    (hd : ImmData buf false aunPort ctrl seq data) :
    aunUdpInput T e ipBe port buf = inputImmediate T e ipBe port aunPort ctrl seq data := by
  obtain ⟨⟨htype, -⟩, hlen, haun, hctrl', hseq, hdata⟩ := hd
  have hok : ¬(e.initialised = false ∨ buf.length < AUN_HDR_SIZE) := by
    rw [hready, not_or]
    exact ⟨by decide, by omega⟩
  have h1 : ¬(AUN_TYPE_IMMEDIATE = AUN_TYPE_ACK ∨ AUN_TYPE_IMMEDIATE = AUN_TYPE_NAK) := by decide
  have h2 : AUN_TYPE_IMMEDIATE ≠ AUN_TYPE_IMM_REPLY := by decide
  have h3 : AUN_TYPE_IMMEDIATE ≠ AUN_TYPE_DATA := by decide
  have h4 : AUN_TYPE_IMMEDIATE ≠ AUN_TYPE_BROADCAST := by decide
  unfold aunUdpInput
  rw [if_neg hok]
  simp only [htype, haun, hctrl', hseq, hdata, h1, h2, h3, h4, if_true, if_false]

theorem udpInput_replay {e : Engine} {ipBe : UInt32} {port : UInt16} {buf : List UInt8}
    {fromData : Bool} {aunPort ctrl : UInt8} {seq : UInt32} {data : List UInt8}
    (hready : e.initialised = true) (hd : ImmData buf fromData aunPort ctrl seq data)
    (hwant : himmWanted e fromData ctrl data = true)
    (hidle : fromData = true ∨ e.himm.active = false)
    (hhit : himmReplays T e fromData ipBe port seq = true) :
    (aunUdpInput T e ipBe port buf).himm = e.himm ∧
      ∃ ok, (aunUdpInput T e ipBe port buf).io.out =
        e.io.out ++ [.sent ipBe port (e.himmCache.answer aunPort ctrl seq) ok] := by
  have hhit' : himmReplays T (countImm e) fromData ipBe port seq = true := by
    rw [himmReplays_congr T (e := e) (by simp) (by simp)]
    exact hhit
  simp only [himmReplays, Bool.and_eq_true] at hhit hhit'
  obtain ⟨harmed, hkeys⟩ := hhit
  simp only [himmCacheHit, Bool.and_eq_true, beq_iff_eq] at hkeys
  simp only [himmCacheArmed, Bool.and_eq_true, beq_iff_eq] at harmed
  obtain ⟨⟨⟨-, hip⟩, hport⟩, hseq⟩ := hkeys
  cases fromData with
  | true =>
    have hwant' : imm4Wanted e ctrl data = true := by simpa [himmWanted] using hwant
    rw [aunUdpInput_imm4 T hready hd]
    simp only [rxImm4Data, hwant', if_true, imm4Checked, hhit'.1, hhit'.2, imm4Replay]
    refine ⟨by simp, udpSendOk T (tick (countImm e)), ?_⟩
    cases hnak : e.himmCache.isNak <;> simp [HimmCache.answer, hnak, harmed.2]
  | false =>
    have hwant' : immWanted e ctrl data = true := by simpa [himmWanted] using hwant
    have hidle' := hidle.resolve_left (by decide)
    have hpeek : ctrl ≠ AUN_CTRL_MACHINE_PEEK := hd.kind.2
    rw [aunUdpInput_imm5 T hready hd]
    simp only [inputImmediate, hpeek, if_false, hwant', if_true, hidle', Bool.false_eq_true, immFresh,
      hhit'.1, hhit'.2, immReplay]
    refine ⟨by split <;> simp, udpSendOk T (tick (countImm e)), ?_⟩
    cases hnak : e.himmCache.isNak
    · simp [HimmCache.answer, hnak, harmed.2, hip, hport, udpSendOk]
    · simp [HimmCache.answer, hnak, harmed.2, udpSendOk]

/-! ### The exchange -/

theorem HimmStep.resolved {e e' : Engine} {op : Op} (hs : HimmStep T e op e')
    (hop : op.forgetsHimm = false) (hact : e.himm.active = true) (hgone : e'.himm.active = false) :
    e'.hostImmEnabled = e.hostImmEnabled ∧
      ((∃ data, op = .himmReply data ∧ e'.himmCache =
          e.himm.outcome false (e.himm.replyData data) (T.now e.io.reads)) ∨
        (op = .poll ∧ e'.himmCache = e.himm.outcome true [] (T.now (e.io.reads + 1)))) := by
  cases hs with
  | kept hsame =>
    rw [hsame.himm, hact] at hgone
    cases hgone
  | reset => cases hop
  | switched => cases hop
  | replied _ _ hcache hon => exact ⟨hon, Or.inl ⟨_, rfl, hcache⟩⟩
  | reaped _ _ _ hcache hon => exact ⟨hon, Or.inr ⟨rfl, hcache⟩⟩
  | held _ _ hidle =>
    rw [hact] at hidle
    cases hidle
  | replayed _ _ _ _ hhimm =>
    rw [hhimm, hact] at hgone
    cases hgone

theorem Exchange.Valid.hold {x : Exchange} {e : Engine} (hx : x.Valid T e) :
    ∃ aunPort data k, ImmData x.buf x.fromData aunPort x.ctrl x.seq data ∧
      himmWanted e x.fromData x.ctrl data = true ∧
      (x.heldState T e).himm = e.himm.hold x.fromData x.ctrl x.seq x.ipBe x.port (T.now k)
        (himmPayload x.fromData x.ctrl data) ∧
      (x.heldState T e).hostImmEnabled = e.hostImmEnabled := by
  have hfree := hx.free
  have hheld := hx.held
  have hs : HimmStep T e.beginCall (.udpInput x.ipBe x.port x.buf) (x.heldState T e) :=
    step_himm T e x.arrive
  cases hs with
  | kept hsame =>
    rw [hsame.himm] at hheld
    exact absurd hheld (by rw [show e.beginCall.himm.active = e.himm.active from rfl, hfree]; decide)
  | @held _ _ _ fromData aunPort ctrl seq data k _ hd hwant _ _ hhimm _ hon =>
    have hfrom : x.fromData = fromData := by
      have hkind := hd.kind
      unfold Exchange.fromData
      cases fromData with
      | true => rw [hkind.1]; rfl
      | false => rw [hkind.1]; rfl
    obtain rfl : x.ctrl = ctrl := hd.ctrlEq
    obtain rfl : x.seq = seq := hd.seqEq
    rw [hfrom]
    exact ⟨aunPort, data, k, hd, hwant, hhimm, hon⟩
  | replayed _ _ _ _ hhimm =>
    rw [hhimm] at hheld
    exact absurd hheld (by rw [show e.beginCall.himm.active = e.himm.active from rfl, hfree]; decide)

theorem himmWanted_congr {e e' : Engine} (h : e'.hostImmEnabled = e.hostImmEnabled) (fromData : Bool)
    (ctrl : UInt8) (data : List UInt8) :
    himmWanted e' fromData ctrl data = himmWanted e fromData ctrl data := by
  simp [himmWanted, imm4Wanted, immWanted, h]

theorem initialised_final {e : Engine} (h : e.initialised = true) (ops : List Op) :
    (History.final (step T) e ops).initialised = true :=
  History.final_induction (step T) (fun e => e.initialised = true) h
    (fun e op h => (step_himm T e op).ready T h) ops

theorem Exchange.Valid.remembered {x : Exchange} {e : Engine} (hx : x.Valid T e) :
    ∃ isNak data, (x.laterState T e).himmCache =
        (x.heldState T e).himm.outcome isNak data (T.now (x.recorded T e)) ∧
      (x.laterState T e).hostImmEnabled = (x.heldState T e).hostImmEnabled ∧
      ∀ aunPort, x.buf.getD 1 0 = aunPort →
        (x.heldState T e).himm.fromData = x.fromData → (x.heldState T e).himm.ctrl = x.ctrl →
        (x.heldState T e).himm.seq = x.seq →
        (x.laterState T e).himmCache.answer aunPort x.ctrl x.seq = x.answer := by
  obtain ⟨hhimm, hon⟩ := held_run T hx.held x.mid hx.midKeeps hx.midHeld
  obtain ⟨hcache, hon'⟩ := cache_run T (x.resolvedState T e) x.later hx.laterKeeps hx.laterNone
  obtain ⟨hon'', hres⟩ := (step_himm T (x.dueState T e) x.res).resolved T hx.resKeeps hx.resolves.1
    hx.resolves.2
  change (x.dueState T e).himm = (x.heldState T e).himm at hhimm
  have hon₁ : (x.laterState T e).hostImmEnabled = (x.heldState T e).hostImmEnabled :=
    hon'.trans (hon''.trans hon)
  rcases hres with ⟨data, hop, hout⟩ | ⟨hop, hout⟩
  · have hread : x.recorded T e = (x.dueState T e).io.reads := by
      unfold Exchange.recorded
      rw [hop]
    have hmem : (x.laterState T e).himmCache = (x.heldState T e).himm.outcome false
        ((x.heldState T e).himm.replyData data) (T.now (x.recorded T e)) := by
      rw [hread, ← hhimm]
      exact hcache.trans hout
    refine ⟨false, _, hmem, hon₁, ?_⟩
    intro aunPort haun hfrom hctrl hseq
    rw [hmem]
    unfold Exchange.answer
    rw [hop]
    cases hf : x.fromData with
    | true => simp [HimmCache.answer, hfrom, hf]
    | false =>
      simp only [HimmCache.answer, HostImm.outcome_isNak, HostImm.outcome_fromData, hfrom, hf,
        HostImm.outcome_ctrl, HostImm.outcome_seq, hctrl, hseq, HostImm.outcome_data,
        HostImm.replyData, Bool.false_eq_true, if_false, List.take_take, Nat.min_self]
  · have hread : x.recorded T e = (x.dueState T e).io.reads + 1 := by
      unfold Exchange.recorded
      rw [hop]
    have hmem : (x.laterState T e).himmCache = (x.heldState T e).himm.outcome true []
        (T.now (x.recorded T e)) := by
      rw [hread, ← hhimm]
      exact hcache.trans hout
    refine ⟨true, _, hmem, hon₁, ?_⟩
    intro aunPort haun hfrom hctrl hseq
    rw [hmem]
    unfold Exchange.answer
    rw [hop, haun]
    simp [HimmCache.answer, hfrom]

/-- An immediate handed to the host is not held again while it is held, nor after it is
    resolved until another one is; and within `AUN_HIMM_CACHE_MS` its retransmit is
    answered with the recorded outcome, always for a 4-way immediate and, for a type-5
    one, when no other immediate is being held. -/
theorem immediate_once (mem : Nat → UInt8) (station net : UInt8) (ops : List Op) (x : Exchange)
    (hx : x.Valid T (runState T mem station net ops)) :
    (∀ n, (step T (History.final (step T) (x.heldState T (runState T mem station net ops))
          (x.mid.take n)) x.arrive).himm =
        (History.final (step T) (x.heldState T (runState T mem station net ops)) (x.mid.take n)).himm) ∧
      (step T (x.laterState T (runState T mem station net ops)) x.arrive).himm =
        (x.laterState T (runState T mem station net ops)).himm ∧
      (x.fromData = true ∨ (x.laterState T (runState T mem station net ops)).himm.active = false →
        ∃ ok, (step T (x.laterState T (runState T mem station net ops)) x.arrive).io.out =
          [.sent x.ipBe x.port x.answer ok]) := by
  have hready := initialised_run T mem station net ops
  generalize runState T mem station net ops = e at *
  have hready₁ : (x.heldState T e).initialised = true := (step_himm T e x.arrive).ready T hready
  have hready₂ : (x.laterState T e).initialised = true :=
    initialised_final T ((step_himm T _ _).ready T (initialised_final T hready₁ _)) _
  refine ⟨?_, ?_⟩
  · -- every prefix of the calls in between still holds it
    intro n
    have hmid : ∀ op ∈ x.mid.take n, op.forgetsHimm = false :=
      fun op hop => hx.midKeeps op (List.mem_of_mem_take hop)
    have hnone : ∀ st ∈ History.history (step T) (x.heldState T e) (x.mid.take n), ¬Resolves st := by
      intro st hst
      refine hx.midHeld st ?_
      rw [← List.take_append_drop n x.mid, History.history_append]
      exact List.mem_append_left _ hst
    have hhimm := (held_run T hx.held _ hmid hnone).1
    exact (step_himm T _ x.arrive).slot_taken T (by
      change (History.final (step T) (x.heldState T e) (x.mid.take n)).himm.active = true
      rw [hhimm]
      exact hx.held)
  · obtain ⟨aunPort, data, k, hd, hwant, hhimm, hon⟩ := hx.hold T
    obtain ⟨isNak, reply, hcache, hon', hanswer⟩ := hx.remembered T
    have hwant' : himmWanted (x.laterState T e) x.fromData x.ctrl data = true := by
      rw [himmWanted_congr (hon'.trans hon)]
      exact hwant
    have hhit : himmReplays T (x.laterState T e) x.fromData x.ipBe x.port x.seq = true := by
      have hlive := WrapClock.not_reached_of_early (T.clock (x.recorded T e))
        AUN_HIMM_CACHE_MS.toNat (T.clock (x.laterState T e).io.reads) hx.after hx.before (by decide)
      rw [UInt32.ofNat_toNat] at hlive
      simp [himmReplays, himmCacheArmed, himmCacheHit, nowMs, hcache, hhimm, Transport.now, hlive]
    have hans : (x.laterState T e).himmCache.answer aunPort x.ctrl x.seq = x.answer :=
      hanswer aunPort hd.aunPortEq (by rw [hhimm]; rfl) (by rw [hhimm]; rfl) (by rw [hhimm]; rfl)
    have hreplay : x.fromData = true ∨ (x.laterState T e).himm.active = false →
        (step T (x.laterState T e) x.arrive).himm = (x.laterState T e).himm ∧
          ∃ ok, (step T (x.laterState T e) x.arrive).io.out = [.sent x.ipBe x.port x.answer ok] := by
      intro hfree
      rw [← hans]
      exact udpInput_replay T (e := (x.laterState T e).beginCall) hready₂ hd hwant' hfree hhit
    refine ⟨?_, fun hfree => (hreplay hfree).2⟩
    cases hact : (x.laterState T e).himm.active with
    | true => exact (step_himm T _ x.arrive).slot_taken T hact
    | false => exact (hreplay (Or.inr hact)).1

/-- A type-5 immediate is answered by the host; its retransmit gets the same reply. -/
theorem immediate_once_answered :
    ∃ ok, (step .steady
      (Exchange.laterState .steady
        ⟨0x0100007F, 32768, [5, 0, 6, 0, 4, 0, 0, 0], [.poll], .himmReply [1, 2], [.poll]⟩
        (runState .steady (fun _ => 0) 1 0 [.setHostImm true]))
      (.udpInput 0x0100007F 32768 [5, 0, 6, 0, 4, 0, 0, 0])).io.out =
        [.sent 0x0100007F 32768 [6, 0, 6, 0, 4, 0, 0, 0, 1, 2] ok] :=
  (immediate_once .steady (fun _ => 0) 1 0 [.setHostImm true]
    ⟨0x0100007F, 32768, [5, 0, 6, 0, 4, 0, 0, 0], [.poll], .himmReply [1, 2], [.poll]⟩
    ⟨by decide +kernel, by decide +kernel, by decide +kernel, by decide +kernel, by decide +kernel,
      by decide +kernel, by decide +kernel, by decide +kernel, by decide +kernel,
      by decide +kernel⟩).2.2 (Or.inr (by decide +kernel))

def handsOver (ipBe : UInt32) (port : UInt16) (seq : UInt32) (st : Step Engine Op) : Bool :=
  !st.pre.himm.active && st.post.himm.active && himmIs st.post ipBe port seq

/-- Two peers' immediates are answered one after the other.  A retransmit of the first one
    comes a few milliseconds later and is handed to the host again. -/
theorem immediate_handed_over_twice :
    ((runSteps .steady (fun _ => 0) 1 0
        [.setHostImm true, .udpInput 0x0100007F 32768 [5, 0, 6, 0, 4, 0, 0, 0], .himmReply [1, 2],
          .udpInput 0x0200007F 32768 [5, 0, 6, 0, 8, 0, 0, 0], .himmReply [3, 4],
          .udpInput 0x0100007F 32768 [5, 0, 6, 0, 4, 0, 0, 0]]).countP
      (handsOver 0x0100007F 32768 4)) = 2 ∧
    Transport.steady.clock (runState .steady (fun _ => 0) 1 0
        [.setHostImm true, .udpInput 0x0100007F 32768 [5, 0, 6, 0, 4, 0, 0, 0], .himmReply [1, 2],
          .udpInput 0x0200007F 32768 [5, 0, 6, 0, 8, 0, 0, 0], .himmReply [3, 4],
          .udpInput 0x0100007F 32768 [5, 0, 6, 0, 4, 0, 0, 0]]).io.reads <
      AUN_HIMM_CACHE_MS.toNat := by
  decide +kernel

end Pi1MHz.Aun
