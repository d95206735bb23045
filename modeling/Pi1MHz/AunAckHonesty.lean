import Pi1MHz.AunSource
import Pi1MHz.AunTxSteps

/-!
# ACK honesty

Every ACK for a DATA frame of the receive funnel names a frame that `aun_rx_collect`
took from a queue: accepted by the host, or rejected until its budget was spent.
-/

namespace Pi1MHz.Aun

open History (Step)

variable (T : Transport)

/-! ### Where the entries of the station map come from -/

theorem mem_stampMap {map : List MapEntry} {ipBe : UInt32} {port : UInt16} {seq : UInt32}
    {m : MapEntry} (h : m ∈ stampMap map ipBe port seq) :
    m ∈ map ∨ (m.ipBe = ipBe ∧ m.udpPort = port ∧ m.lastRxSeq = seq) := by
  unfold stampMap at h
  cases hfind : mapFindByIp map ipBe port with
  | none =>
    rw [hfind] at h
    exact Or.inl h
  | some j =>
    rw [hfind] at h
    obtain ⟨k, hk⟩ := List.mem_iff_getElem?.mp h
    rw [List.getElem?_modify] at hk
    obtain ⟨hj, hp, -⟩ := List.findIdx?_eq_some_iff_getElem.mp hfind
    cases hm : map[k]? with
    | none => simp [hm] at hk
    | some m₀ =>
      rw [hm] at hk
      by_cases hjk : j = k
      · subst hjk
        simp only [if_true, Option.map_eq_map, Option.map_some, Option.some.injEq] at hk
        subst hk
        have hm₀ : map[j] = m₀ := Option.some.inj ((List.getElem?_eq_getElem hj).symm.trans hm)
        rw [hm₀] at hp
        simp only [Bool.and_eq_true, beq_iff_eq] at hp
        exact Or.inr ⟨hp.1, hp.2, rfl⟩
      · simp only [hjk, if_false, Option.map_eq_map, Option.map_some, Option.some.injEq] at hk
        subst hk
        exact Or.inl (List.mem_of_getElem? hm)

theorem mem_aunMapAdd {e : Engine} {net stn : UInt8} {ipBe : UInt32} {port : UInt16}
    {m : MapEntry} (h : m ∈ (aunMapAdd e net stn ipBe port).2.map) :
    m ∈ e.map ∨ m.seqValid = false := by
  unfold aunMapAdd at h
  dsimp only at h
  cases hfind : mapFindByAddr e.map net stn with
  | some j =>
    rw [hfind] at h
    obtain ⟨k, hk⟩ := List.mem_iff_getElem?.mp h
    simp only [Engine.withMap_map, List.getElem?_modify] at hk
    cases hm : e.map[k]? with
    | none => simp [hm] at hk
    | some m₀ =>
      rw [hm] at hk
      by_cases hjk : j = k
      · simp only [hjk, if_true, Option.map_eq_map, Option.map_some, Option.some.injEq] at hk
        subst hk
        exact Or.inr rfl
      · simp only [hjk, if_false, Option.map_eq_map, Option.map_some, Option.some.injEq] at hk
        subst hk
        exact Or.inl (List.mem_of_getElem? hm)
  | none =>
    rw [hfind] at h
    by_cases hfull : e.map.length ≥ AUN_MAP_MAX
    · simp only [hfull, if_true] at h
      exact Or.inl h
    · simp only [hfull, if_false, Engine.withMap_map] at h
      rcases List.mem_append.mp h with h | h
      · exact Or.inl h
      · rw [List.mem_singleton.mp h]
        exact Or.inr rfl

theorem mem_attributeSource {e : Engine} {ipBe : UInt32} {port : UInt16} {m : MapEntry}
    (h : m ∈ (attributeSource e ipBe port).2.map) : m ∈ e.map ∨ m.seqValid = false := by
  unfold attributeSource at h
  cases hfind : mapFindByIp e.map ipBe port with
  | some j =>
    rw [hfind] at h
    exact Or.inl h
  | none =>
    rw [hfind] at h
    cases hl : learnAttribute e ipBe port with
    | none =>
      rw [hl] at h
      exact Or.inl h
    | some a =>
      rw [hl] at h
      exact mem_aunMapAdd h

/-! ### The invariant -/

/-- A frame with this identity has been taken in the steps of `hist`. -/
def TakenIn (hist : List (Step Engine Op)) (k : FrameKey) : Prop :=
  ∃ st ∈ hist, ∃ f, Taken T st f ∧ f.srcIpBe ≠ 0 ∧ f.key = k

theorem TakenIn.mono {hist hist' : List (Step Engine Op)} {k : FrameKey} (h : TakenIn T hist k)
    (hsub : ∀ st ∈ hist, st ∈ hist') : TakenIn T hist' k := by
  obtain ⟨st, hst, f, hf⟩ := h
  exact ⟨st, hsub st hst, f, hf⟩

structure AckInv (hist : List (Step Engine Op)) (e : Engine) : Prop where
  rx : RxInv e
  keys : KeysDistinct e
  stamps : ∀ m ∈ e.map, m.seqValid = true → TakenIn T hist ⟨m.ipBe, m.udpPort, m.lastRxSeq⟩
  imm4 : e.himm.active = true → e.himm.fromData = true → isImm4Ctrl e.himm.ctrl = true
  tx : e.tx.datagram.getD 0 0 ≠ AUN_TYPE_ACK

theorem RxStep.stamps {e e' : Engine} {op : Op} {hist : List (Step Engine Op)}
    (hs : RxStep T e.beginCall op e') (hpost : e' = step T e op) (hinv : RxInv e)
    (h : ∀ m ∈ e.map, m.seqValid = true → TakenIn T hist ⟨m.ipBe, m.udpPort, m.lastRxSeq⟩) :
    ∀ m ∈ e'.map, m.seqValid = true →
      TakenIn T (hist ++ [⟨e, op, e'⟩]) ⟨m.ipBe, m.udpPort, m.lastRxSeq⟩ := by
  have hmono : ∀ k, TakenIn T hist k → TakenIn T (hist ++ [⟨e, op, e'⟩]) k :=
    fun k hk => hk.mono T fun st hst => List.mem_append_left _ hst
  have hold : ∀ m ∈ e.map, m.seqValid = true →
      TakenIn T (hist ++ [⟨e, op, e'⟩]) ⟨m.ipBe, m.udpPort, m.lastRxSeq⟩ :=
    fun m hm hv => hmono _ (h m hm hv)
  -- the map stamped with a frame this very step takes
  have hstamp : ∀ f, Taken T ⟨e, op, e'⟩ f → f.srcIpBe ≠ 0 → ∀ m ∈ stampMap e.map f.srcIpBe f.srcPort f.seq,
      m.seqValid = true → TakenIn T (hist ++ [⟨e, op, e'⟩]) ⟨m.ipBe, m.udpPort, m.lastRxSeq⟩ := by
    intro f hf hne m hm hv
    rcases mem_stampMap hm with hm | ⟨hip, hport, hseq⟩
    · exact hold m hm hv
    · refine ⟨_, List.mem_append_right _ (List.mem_singleton.mpr rfl), f, hf, hne, ?_⟩
      rw [hip, hport, hseq]
      rfl
  have hnone : ∀ m : MapEntry, m ∈ e.map ∨ m.seqValid = false → m.seqValid = true →
      TakenIn T (hist ++ [⟨e, op, e'⟩]) ⟨m.ipBe, m.udpPort, m.lastRxSeq⟩ := by
    intro m hm hv
    rcases hm with hm | hm
    · exact hold m hm hv
    · rw [hv] at hm
      cases hm
  cases hs with
  | kept hsame => rw [hsame.map]; exact hold
  | reset hrx hmap => rw [hmap]; intro m hm; cases hm
  | mapped hrx hcond hmap => rw [hmap]; exact fun m hm => hnone m (mem_aunMapAdd (e := e.beginCall) hm)
  | opened hi hbuf hsize hrx hmap => rw [hmap]; exact hold
  | closed hi hrx hmap => rw [hmap]; exact hold
  | presented hi hcount hpres hoff hrx hmap => rw [hmap]; exact hold
  | counted hi hrx hmap => rw [hmap]; exact hold
  | idle hi hnone hrx hmap => rw [hmap]; exact hold
  | accepted hc hrx hmap =>
    rw [hmap]
    split
    · rename_i hip
      refine hstamp _ ?_ hip
      subst hpost
      exact hc.taken T hinv hip (Or.inl rfl)
    · exact hold
  | dropped hc hip hrx hmap => rw [hmap]; exact hold
  | shed hc hip hbudget hrx hmap =>
    rw [hmap]
    refine hstamp _ ?_ hip
    subst hpost
    exact hc.taken T hinv hip (Or.inr hbudget)
  | deferred hc hip hbudget hrx hmap => rw [hmap]; exact hold
  | learned hd hrx hmap => rw [hmap]; exact fun m hm => hnone m (mem_attributeSource (e := e.beginCall) hm)
  | arrived hd hm hnew hdup hst hrx hmap =>
    rw [hmap]
    exact fun m hm => hnone m (mem_attributeSource (e := e.beginCall) hm)
  | arrivedLocal hst hrx hmap => rw [hmap]; exact hold

theorem HimmStep.imm4 {e e' : Engine} {op : Op} (hs : HimmStep T e op e')
    (h : e.himm.active = true → e.himm.fromData = true → isImm4Ctrl e.himm.ctrl = true) :
    e'.himm.active = true → e'.himm.fromData = true → isImm4Ctrl e'.himm.ctrl = true := by
  cases hs with
  | kept hsame => rw [hsame.himm]; exact h
  | reset hhimm => rw [hhimm]; intro hact; cases hact
  | switched hhimm => rw [hhimm]; intro hact; cases hact
  | replied _ hhimm => rw [hhimm]; intro hact; cases hact
  | reaped _ _ hhimm => rw [hhimm]; intro hact; cases hact
  | held hd _ _ _ hhimm =>
    rw [hhimm]
    intro _ hfrom
    simp only [HostImm.hold_fromData] at hfrom
    have hkind := hd.kind
    rw [if_pos hfrom] at hkind
    exact hkind.2.2
  | replayed _ _ _ _ hhimm => rw [hhimm]; exact h

theorem TxStep.not_ack {e e' : Engine} {op : Op} (hs : TxStep T e op e')
    (h : e.tx.datagram.getD 0 0 ≠ AUN_TYPE_ACK) : e'.tx.datagram.getD 0 0 ≠ AUN_TYPE_ACK := by
  have hid : e'.tx.id = e.tx.id → e'.tx.datagram.getD 0 0 ≠ AUN_TYPE_ACK := by
    intro hid
    rw [show e'.tx.datagram = e.tx.datagram from congrArg TxId.datagram hid]
    exact h
  cases hs with
  | kept _ hsame => rw [hsame.tx]; exact h
  | reset _ htx => rw [htx]; decide
  | looped _ _ _ _ _ _ hsame => exact hid hsame
  | launched _ _ _ htype hdgram =>
    rw [hdgram]
    rcases htype with ht | ht <;> (rw [ht.1]; decide)
  | ended _ _ hsame => exact hid hsame
  | rejected _ _ hsame => exact hid hsame
  | resent _ _ _ hsame => exact hid hsame

theorem ackInv_run (mem : Nat → UInt8) (station net : UInt8) (ops : List Op) :
    AckInv T (runSteps T mem station net ops) (runState T mem station net ops) := by
  refine History.history_induction (step T) (AckInv T) ?_ ?_ ops
  · refine ⟨rxInv_start mem station net, keysDistinct_start mem station net, ?_, ?_, ?_⟩
    · intro m hm
      cases hm
    · intro hact
      cases hact
    · exact (by decide : ([] : List UInt8).getD 0 0 ≠ AUN_TYPE_ACK)
  · intro hist e op h
    have hrx := step_rx T e op
    exact ⟨hrx.inv T h.rx.beginCall, hrx.keys T h.rx.beginCall ⟨h.keys.nodup, h.keys.apart⟩,
      hrx.stamps T rfl h.rx h.stamps, (step_himm T e op).imm4 T h.imm4, (step_tx T e op).not_ack T h.tx⟩

/-! ### The ACKs of a run -/

/-- The calls that answer a 4-way immediate: the host's reply to the one it holds, and
    the arrival of one. -/
def Op.answersImm4 : Op → Bool
  | .himmReply _ => true
  | .udpInput _ _ buf =>
      buf.getD 0 0 == AUN_TYPE_DATA && buf.getD 1 0 == 0 && isImm4Ctrl (buf.getD 2 0 &&& 0x7F)
  | _ => false

def isImm4Ack (dgram : List UInt8) : Bool := dgram.getD 1 0 == 0 && isImm4Ctrl (dgram.getD 2 0)

theorem isImm4Ctrl_mask {ctrl : UInt8} (h : isImm4Ctrl ctrl = true) :
    isImm4Ctrl (ctrl &&& 0x7F) = true := by
  simp only [isImm4Ctrl, Bool.and_eq_true, decide_eq_true_eq] at h
  have h1 : 2 ≤ ctrl.toNat := h.1
  have h2 : ctrl.toNat ≤ 5 := h.2
  have hcases : ctrl = 2 ∨ ctrl = 3 ∨ ctrl = 4 ∨ ctrl = 5 := by
    have hn : ctrl.toNat = 2 ∨ ctrl.toNat = 3 ∨ ctrl.toNat = 4 ∨ ctrl.toNat = 5 := by omega
    rcases hn with h | h | h | h
    · exact Or.inl (UInt8.toNat_inj.mp h)
    · exact Or.inr (Or.inl (UInt8.toNat_inj.mp h))
    · exact Or.inr (Or.inr (Or.inl (UInt8.toNat_inj.mp h)))
    · exact Or.inr (Or.inr (Or.inr (UInt8.toNat_inj.mp h)))
  rcases hcases with rfl | rfl | rfl | rfl <;> decide

theorem isImm4Ack_buildHeader {ctrl : UInt8} {seq : UInt32} (h : isImm4Ctrl ctrl = true) :
    isImm4Ack (buildHeader AUN_TYPE_ACK 0 ctrl seq) = true := by
  have hctrl : (buildHeader AUN_TYPE_ACK 0 ctrl seq).getD 2 0 = ctrl &&& 0x7F := rfl
  rw [isImm4Ack, hctrl, isImm4Ctrl_mask h]
  rfl

def ackKey (ipBe : UInt32) (port : UInt16) (dgram : List UInt8) : FrameKey :=
  ⟨ipBe, port, rd32le (dgram.drop 4)⟩

theorem ackKey_buildHeader (ipBe : UInt32) (port : UInt16) (aunPort ctrl : UInt8) (seq : UInt32) :
    ackKey ipBe port (buildHeader AUN_TYPE_ACK aunPort ctrl seq) = ⟨ipBe, port, seq⟩ := by
  have hseq := buildHeader_seq AUN_TYPE_ACK aunPort ctrl seq []
  rw [List.append_nil] at hseq
  rw [ackKey, hseq]

theorem dup_unqueued {e : Engine} {ipBe : UInt32} {port : UInt16} {buf : List UInt8}
    {aunPort ctrl : UInt8} {seq : UInt32} {data : List UInt8} {m : MapEntry} (hinv : RxInv e)
    (hready : e.initialised = true) (hd : FunnelData buf aunPort ctrl seq data)
    (hm : sourceEntry e ipBe port = some m) (hnew : rxSeqPending e ipBe port seq = false)
    (hvalid : m.seqValid = true) (hseq : seq = m.lastRxSeq) (hip : ipBe ≠ 0) :
    Unqueued (aunUdpInput T e ipBe port buf) ⟨ipBe, port, seq⟩ := by
  have hrx : (aunUdpInput T e ipBe port buf).rx = e.rx := by
    rw [aunUdpInput_funnel T hready hd]
    unfold inputFunnelData
    rw [dataVerdict_dup T hm hnew hvalid hseq, (traceData_same _ _ _ _ _ _ _ _ _).1.rx,
      attributeSource_eq]
    simp
  apply unqueued_of_wireKeys hip
  intro i
  rw [hrx]
  exact not_mem_of_rxSeqPending hinv hnew i

def DropsFull (e : Engine) (op : Op) : Prop :=
  ∃ ipBe port buf aunPort ctrl seq data, op = .udpInput ipBe port buf ∧
    FunnelData buf aunPort ctrl seq data ∧
    (dataVerdict T e.beginCall ipBe port aunPort ctrl seq data).1 = .full

/-- Every ACK a run sends for a frame of the receive funnel names a frame that a collect
    of that run took: accepted, or with its reject budget spent.  No frame of that
    identity is queued when the call returns, and the call is not one that dropped an
    arrival for lack of room. -/
theorem ack_honesty (mem : Nat → UInt8) (station net : UInt8) (ops : List Op) (op : Op)
    {ipBe : UInt32} {port : UInt16} {dgram : List UInt8} {ok : Bool}
    (hsent : .sent ipBe port dgram ok ∈ (step T (runState T mem station net ops) op).io.out)
    (hack : dgram.getD 0 0 = AUN_TYPE_ACK)
    (hfunnel : ¬(op.answersImm4 = true ∧ isImm4Ack dgram = true)) :
    TakenIn T (runSteps T mem station net (ops ++ [op])) (ackKey ipBe port dgram) ∧
      Unqueued (step T (runState T mem station net ops) op) (ackKey ipBe port dgram) ∧
      ¬DropsFull T (runState T mem station net ops) op := by
  have hinv := ackInv_run T mem station net ops
  have hready := initialised_run T mem station net ops
  rw [runSteps_snoc]
  generalize runState T mem station net ops = e at *
  generalize runSteps T mem station net ops = hist at *
  generalize hx : Effect.sent ipBe port dgram ok = x at hsent
  have hemit := step_out T e op hsent
  cases hemit with
  | plain h =>
    subst hx
    exact absurd (congrArg some hack) h.1
  | transmit hop h =>
    obtain ⟨-, -, rfl, -⟩ := Effect.sent.inj hx
    rw [hack] at h
    rcases h with h | h | ⟨-, h⟩
    · exact absurd h (by decide)
    · exact absurd h (by decide)
    · exact absurd (h ▸ hack) hinv.tx
  | himmAck hact hfrom =>
    obtain ⟨-, -, rfl, -⟩ := Effect.sent.inj hx
    exact absurd ⟨rfl, isImm4Ack_buildHeader (hinv.imm4 hact hfrom)⟩ hfunnel
  | imm4Ack hd hhit hack' =>
    obtain ⟨-, -, rfl, -⟩ := Effect.sent.inj hx
    obtain ⟨htype, hport, hctrl⟩ := hd.kind
    refine absurd ⟨?_, isImm4Ack_buildHeader hctrl⟩ hfunnel
    simp only [Op.answersImm4, htype, hd.aunPortEq, hport, hd.ctrlEq, hctrl]
    rfl
  | dupAck hd hm hnew hvalid hseq =>
    obtain ⟨rfl, rfl, rfl, -⟩ := Effect.sent.inj hx
    rw [ackKey_buildHeader]
    obtain ⟨hmem, hmip, hmport⟩ := sourceEntry_spec hm
    -- an entry with a stamp was in the map before the source was attributed
    have hmem' : _ ∈ e.map := (mem_attributeSource hmem).resolve_right (by simp [hvalid])
    have htaken := hinv.stamps _ hmem' hvalid
    rw [hmip, hmport, ← hseq] at htaken
    have hip : ipBe ≠ 0 := by
      obtain ⟨st, -, f, -, hne, hkey⟩ := htaken
      rw [show ipBe = f.srcIpBe from (congrArg FrameKey.ipBe hkey).symm]
      exact hne
    refine ⟨htaken.mono T fun st hst => List.mem_append_left _ hst,
      dup_unqueued T hinv.rx.beginCall hready hd hm hnew hvalid hseq hip, ?_⟩
    rintro ⟨ipBe', port', buf', aunPort', ctrl', seq', data', hop, hd', hfull⟩
    obtain ⟨rfl, rfl, rfl⟩ := Op.udpInput.inj hop
    obtain rfl : seq' = _ := hd'.seq.symm.trans hd.seq
    rw [dataVerdict_dup T hm hnew hvalid hseq] at hfull
    cases hfull
  | takenAck hc hip hwhy =>
    obtain ⟨rfl, rfl, rfl, -⟩ := Effect.sent.inj hx
    rw [ackKey_buildHeader]
    refine ⟨⟨_, List.mem_append_right _ (List.mem_singleton.mpr rfl), _, hc.taken T hinv.rx hip hwhy,
      hip, rfl⟩, hc.unqueued T hinv.rx.beginCall ⟨hinv.keys.nodup, hinv.keys.apart⟩ hip hwhy, ?_⟩
    rintro ⟨ipBe', port', buf', aunPort', ctrl', seq', data', hop, -⟩
    cases hop

/-- A frame is queued, collected and ACKed; a retransmit of it is then ACKed out of the
    duplicate filter. -/
theorem ack_honesty_retransmit :
    TakenIn .steady
      (runSteps .steady (fun _ => 0) 1 0
        [.mapAdd 0 5 0x0100007F 0, .rxOpen 0 0x99 0xFF 0xFF 1000 16,
          .udpInput 0x0100007F 32768 [2, 0x99, 0, 0, 4, 0, 0, 0, 7], .rxCollect 0 true,
          .udpInput 0x0100007F 32768 [2, 0x99, 0, 0, 4, 0, 0, 0, 7]])
      ⟨0x0100007F, 32768, 4⟩ := by
  have hsent : Effect.sent 0x0100007F 32768 [3, 0x99, 0, 0, 4, 0, 0, 0] true ∈
      (step .steady (runState .steady (fun _ => 0) 1 0
        [.mapAdd 0 5 0x0100007F 0, .rxOpen 0 0x99 0xFF 0xFF 1000 16,
          .udpInput 0x0100007F 32768 [2, 0x99, 0, 0, 4, 0, 0, 0, 7], .rxCollect 0 true])
        (.udpInput 0x0100007F 32768 [2, 0x99, 0, 0, 4, 0, 0, 0, 7])).io.out := by decide +kernel
  exact (ack_honesty .steady (fun _ => 0) 1 0 _ _ hsent (by decide) (by decide)).1

end Pi1MHz.Aun
