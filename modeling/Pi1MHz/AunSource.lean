import Pi1MHz.AunEmits
import Pi1MHz.AunTaken

/-!
# The frames of one source and its duplicate filter

Two filters keep a sender's retransmits out of the queues.  `rx_seq_pending` knows the
frames of a source that wait in a queue, `last_rx_seq` the one that was taken last.
-/

namespace Pi1MHz.Aun

open History (Step)

variable (T : Transport)

theorem sourceEntry_spec {e : Engine} {ipBe : UInt32} {port : UInt16} {m : MapEntry}
    (h : sourceEntry e ipBe port = some m) :
    m ∈ (attributeSource e ipBe port).2.map ∧ m.ipBe = ipBe ∧ m.udpPort = port := by
  unfold sourceEntry at h
  obtain ⟨j, hj, hm⟩ := Option.bind_eq_some_iff.mp h
  have hfind : mapFindByIp (attributeSource e ipBe port).2.map ipBe port = some j := by
    unfold attributeSource at hj ⊢
    cases hf : mapFindByIp e.map ipBe port with
    | some k =>
      rw [hf] at hj
      simp only [Option.some.injEq] at hj
      subst hj
      simp [hf]
    | none =>
      rw [hf] at hj
      cases hl : learnAttribute e ipBe port with
      | none =>
        rw [hl] at hj
        cases hj
      | some a =>
        rw [hl] at hj
        simpa [hf, hl] using hj
  obtain ⟨hlt, hp, -⟩ := List.findIdx?_eq_some_iff_getElem.mp hfind
  have heq := Option.some.inj ((List.getElem?_eq_getElem hlt).symm.trans hm)
  rw [heq] at hp
  simp only [Bool.and_eq_true, beq_iff_eq] at hp
  exact ⟨List.mem_of_getElem? hm, hp⟩

def Unqueued (e : Engine) (k : FrameKey) : Prop := ∀ i, ∀ f ∈ (e.rx i).queue, f.key ≠ k

theorem unqueued_of_wireKeys {e : Engine} {k : FrameKey} (hip : k.ipBe ≠ 0)
    (h : ∀ i, k ∉ wireKeys (e.rx i).queue) : Unqueued e k :=
  fun i f hf hkey => h i (mem_wireKeys.mpr ⟨hip, f, hf, hkey⟩)

theorem Collects.unqueued {e : Engine} {handle : UInt8} {i : Fin AUN_RX_BLOCKS} {off : Nat}
    {f : RxFrame} {accept : Bool} (hc : Collects T e handle i off f) (hinv : RxInv e)
    (hkeys : KeysDistinct e) (hip : f.srcIpBe ≠ 0)
    (hwhy : accept = true ∨ rejectBudget (collectCondemned T e i f.stream).hit ≤ f.rejects) :
    Unqueued (aunRxCollect T e handle accept).2 f.key := by
  have hget := hc.getElem? T hinv
  have hperm := wireKeys_eraseIdx_perm hget hip
  apply unqueued_of_wireKeys hip
  intro j
  by_cases hj : j = i
  · subst hj
    rw [hc.taken_queue T hinv hip hwhy]
    have hnodup := hperm.nodup_iff.mpr (hkeys.nodup j)
    exact (List.nodup_cons.mp hnodup).1
  · rw [hc.taken_rx T hip hwhy, Function.update_of_ne hj]
    exact hkeys.apart i j (Ne.symm hj) f.key (hperm.subset (List.mem_cons_self ..))

theorem dataVerdict_eq {e : Engine} {ipBe : UInt32} {port : UInt16} {m : MapEntry}
    (hm : sourceEntry e ipBe port = some m) (aunPort ctrl : UInt8) (seq : UInt32)
    (data : List UInt8) :
    dataVerdict T e ipBe port aunPort ctrl seq data =
      dataFrom T (attributeSource e ipBe port).2 ipBe port aunPort ctrl seq m data := by
  unfold sourceEntry at hm
  simp [dataVerdict, hm]

theorem dataVerdict_dup {e : Engine} {ipBe : UInt32} {port : UInt16} {m : MapEntry} {seq : UInt32}
    (hm : sourceEntry e ipBe port = some m) (hnew : rxSeqPending e ipBe port seq = false)
    (hvalid : m.seqValid = true) (hseq : seq = m.lastRxSeq) (aunPort ctrl : UInt8)
    (data : List UInt8) :
    dataVerdict T e ipBe port aunPort ctrl seq data =
      (.redup, sendAckNak T (countDup (attributeSource e ipBe port).2) ipBe port AUN_TYPE_ACK aunPort
        ctrl seq) := by
  have hnew' : rxSeqPending (attributeSource e ipBe port).2 ipBe port seq = false := by
    rw [attributeSource_eq]
    exact hnew
  rw [dataVerdict_eq T hm]
  unfold dataFrom
  rw [if_neg (by simp [hnew']), if_pos ⟨hvalid, hseq⟩]

theorem aunUdpInput_funnel {e : Engine} {ipBe : UInt32} {port : UInt16} {buf : List UInt8}
    {aunPort ctrl : UInt8} {seq : UInt32} {data : List UInt8} (hready : e.initialised = true)
    (hd : FunnelData buf aunPort ctrl seq data) :
    aunUdpInput T e ipBe port buf = inputFunnelData T e ipBe port aunPort ctrl seq data := by
  have hok : ¬(e.initialised = false ∨ buf.length < AUN_HDR_SIZE) := by
    have := hd.header
    rw [hready, not_or]
    exact ⟨by decide, by omega⟩
  have h1 : ¬(AUN_TYPE_DATA = AUN_TYPE_ACK ∨ AUN_TYPE_DATA = AUN_TYPE_NAK) := by decide
  have h2 : AUN_TYPE_DATA ≠ AUN_TYPE_IMM_REPLY := by decide
  unfold aunUdpInput
  rw [if_neg hok]
  simp only [hd.type, hd.aunPort, hd.ctrl, hd.seq, hd.data, h1, h2, if_true, if_false, inputData,
    hd.funnel]

/-! ### What the duplicate filter remembers -/

/-- The sequence `last_rx_seq` holds for a source, if its map entry has one. -/
def lastSeq (map : List MapEntry) (ipBe : UInt32) (port : UInt16) : Option UInt32 :=
  ((mapFindByIp map ipBe port).bind fun i => map[i]?).bind fun m =>
    if m.seqValid then some m.lastRxSeq else none

theorem findIdx?_modify {α : Type*} (p : α → Bool) (f : α → α) (hf : ∀ x, p (f x) = p x)
    (l : List α) (i : Nat) : (l.modify i f).findIdx? p = l.findIdx? p := by
  induction l generalizing i with
  | nil => simp
  | cons x l ih =>
    cases i with
    | zero => simp [List.findIdx?_cons, hf]
    | succ i => simp [List.findIdx?_cons, ih]

theorem mapFindByIp_stampMap (map : List MapEntry) (a : UInt32) (b : UInt16) (s : UInt32)
    (ipBe : UInt32) (port : UInt16) :
    mapFindByIp (stampMap map a b s) ipBe port = mapFindByIp map ipBe port := by
  unfold stampMap
  split
  · rfl
  · unfold mapFindByIp
    apply findIdx?_modify
    intro m
    rfl

theorem mapFindByIp_some {map : List MapEntry} {ipBe : UInt32} {port : UInt16} {i : Nat}
    (h : mapFindByIp map ipBe port = some i) :
    ∃ m, map[i]? = some m ∧ m.ipBe = ipBe ∧ m.udpPort = port := by
  obtain ⟨hlt, hp, -⟩ := List.findIdx?_eq_some_iff_getElem.mp h
  simp only [Bool.and_eq_true, beq_iff_eq] at hp
  exact ⟨map[i], List.getElem?_eq_getElem hlt, hp⟩

theorem lastSeq_stampMap_self (map : List MapEntry) (ipBe : UInt32) (port : UInt16) (s : UInt32) :
    lastSeq (stampMap map ipBe port s) ipBe port =
      if (mapFindByIp map ipBe port).isSome then some s else none := by
  unfold lastSeq
  rw [mapFindByIp_stampMap]
  cases hfind : mapFindByIp map ipBe port with
  | none => rfl
  | some i =>
    obtain ⟨m, hm, -⟩ := mapFindByIp_some hfind
    simp [stampMap, hfind, List.getElem?_modify, hm]

theorem lastSeq_stampMap_other (map : List MapEntry) {a : UInt32} {b : UInt16} {ipBe : UInt32}
    {port : UInt16} (s : UInt32) (hne : ¬(a = ipBe ∧ b = port)) :
    lastSeq (stampMap map a b s) ipBe port = lastSeq map ipBe port := by
  unfold lastSeq
  rw [mapFindByIp_stampMap]
  cases hfind : mapFindByIp map ipBe port with
  | none => rfl
  | some i =>
    obtain ⟨m, hm, hip, hport⟩ := mapFindByIp_some hfind
    cases hfind' : mapFindByIp map a b with
    | none => simp [stampMap, hfind']
    | some j =>
      obtain ⟨m', hm', hip', hport'⟩ := mapFindByIp_some hfind'
      have hji : j ≠ i := by
        rintro rfl
        rw [hm] at hm'
        cases hm'
        exact hne ⟨hip'.symm.trans hip, hport'.symm.trans hport⟩
      simp [stampMap, hfind', hji]

/-! ### What a call does to one source -/

def isFunnel (buf : List UInt8) : Bool :=
  decide (AUN_HDR_SIZE ≤ buf.length) && buf.getD 0 0 == AUN_TYPE_DATA &&
    !(buf.getD 1 0 == 0 && isImm4Ctrl (buf.getD 2 0 &&& 0x7F))

theorem FunnelData.isFunnel {buf : List UInt8} {aunPort ctrl : UInt8} {seq : UInt32}
    {data : List UInt8} (hd : FunnelData buf aunPort ctrl seq data) : isFunnel buf = true := by
  have hfunnel := hd.funnel
  rw [← hd.aunPort, ← hd.ctrl] at hfunnel
  simp only [Aun.isFunnel, hd.header, hd.type, decide_true, beq_self_eq_true, Bool.true_and,
    Bool.not_eq_true', Bool.and_eq_false_iff, beq_eq_false_iff_ne]
  rw [not_and_or, Bool.not_eq_true] at hfunnel
  exact hfunnel

def remapped (e : Engine) : Op → List MapEntry
  | .init _ _ => []
  | .mapAdd net stn ipBe udpPort => (aunMapAdd e net stn ipBe udpPort).2.map
  | .udpInput ipBe port buf =>
      if isFunnel buf then (attributeSource e ipBe port).2.map else e.map
  | _ => e.map

theorem aunMapAdd_beginCall (e : Engine) (net stn : UInt8) (ipBe : UInt32) (port : UInt16) :
    (aunMapAdd e.beginCall net stn ipBe port).2.map = (aunMapAdd e net stn ipBe port).2.map := by
  have hmap : e.beginCall.map = e.map := rfl
  unfold aunMapAdd
  dsimp only
  rw [hmap]
  cases mapFindByAddr e.map net stn with
  | some j => rfl
  | none =>
    dsimp only
    split_ifs <;> rfl

theorem attributeSource_beginCall (e : Engine) (ipBe : UInt32) (port : UInt16) :
    (attributeSource e.beginCall ipBe port).1 = (attributeSource e ipBe port).1 ∧
      (attributeSource e.beginCall ipBe port).2.map = (attributeSource e ipBe port).2.map := by
  have hlearn : learnAttribute e.beginCall ipBe port = learnAttribute e ipBe port := rfl
  have hmap : e.beginCall.map = e.map := rfl
  unfold attributeSource
  rw [hmap, hlearn]
  cases mapFindByIp e.map ipBe port with
  | some j => exact ⟨rfl, rfl⟩
  | none =>
    cases learnAttribute e ipBe port with
    | none => exact ⟨rfl, rfl⟩
    | some a => exact ⟨by simp only [aunMapAdd_beginCall], aunMapAdd_beginCall e a.1 a.2 ipBe port⟩

theorem sourceEntry_beginCall (e : Engine) (ipBe : UInt32) (port : UInt16) :
    sourceEntry e.beginCall ipBe port = sourceEntry e ipBe port := by
  obtain ⟨h1, h2⟩ := attributeSource_beginCall e ipBe port
  rw [sourceEntry, sourceEntry, h1, h2]

theorem remapped_beginCall (e : Engine) (op : Op) : remapped e.beginCall op = remapped e op := by
  cases op with
  | mapAdd net stn ipBe udpPort => exact aunMapAdd_beginCall e net stn ipBe udpPort
  | udpInput ipBe port buf =>
    simp only [remapped, (attributeSource_beginCall e ipBe port).2]
    rfl
  | _ => rfl

def takenSeq (ipBe : UInt32) (port : UInt16) (e : Engine) (op : Op) : Option (Fate × UInt32) :=
  (collectEvent T e op).bind fun ev =>
    let f := (e.rx ev.1).frameAt ev.2.1
    if f.srcIpBe = ipBe ∧ f.srcPort = port ∧ (ev.2.2 = .accepted ∨ ev.2.2 = .shed) then
      some (ev.2.2, f.seq)
    else none

theorem takenSeq_fate {ipBe : UInt32} {port : UInt16} {e : Engine} {op : Op} {fate : Fate}
    {s : UInt32} (hacc : fate ≠ .accepted) (hshed : fate ≠ .shed) :
    takenSeq T ipBe port e op ≠ some (fate, s) := by
  intro h
  obtain ⟨⟨i, off, fate'⟩, -, hif⟩ := Option.bind_eq_some_iff.mp h
  dsimp only at hif
  split_ifs at hif with hsrc
  simp only [Option.some.injEq, Prod.mk.injEq] at hif
  obtain ⟨rfl, -⟩ := hif
  exact hsrc.2.2.elim hacc hshed

theorem takenSeq_beginCall (ipBe : UInt32) (port : UInt16) (e : Engine) (op : Op) :
    takenSeq T ipBe port e.beginCall op = takenSeq T ipBe port e op := rfl

theorem Collects.event {e : Engine} {handle : UInt8} {i : Fin AUN_RX_BLOCKS} {off : Nat}
    {f : RxFrame} (hc : Collects T e handle i off f) (accept : Bool) :
    collectEvent T e (.rxCollect handle accept) = some (i, off, collectFate T e i off accept) := by
  simp [collectEvent, hc.opened, hc.nonempty, hc.found]

theorem collects_of_event {e : Engine} {op : Op} {i : Fin AUN_RX_BLOCKS} {off : Nat} {fate : Fate}
    (h : collectEvent T e op = some (i, off, fate)) :
    ∃ handle accept, op = .rxCollect handle accept ∧
      Collects T e handle i off ((e.rx i).frameAt off) ∧ fate = collectFate T e i off accept := by
  cases op with
  | rxCollect handle accept =>
    simp only [collectEvent, Option.bind_eq_some_iff] at h
    obtain ⟨j, hj, hev⟩ := h
    split_ifs at hev with hcount
    obtain ⟨off', hoff, heq⟩ := Option.map_eq_some_iff.mp hev
    simp only [Prod.mk.injEq] at heq
    obtain ⟨rfl, rfl, rfl⟩ := heq
    exact ⟨handle, accept, rfl, ⟨hj, hcount, hoff, rfl⟩, rfl⟩
  | _ => cases h

def SameEntry (ipBe : UInt32) (port : UInt16) (map map' : List MapEntry) : Prop :=
  mapFindByIp map' ipBe port = mapFindByIp map ipBe port ∧
    lastSeq map' ipBe port = lastSeq map ipBe port

/-- Everything a call can do to the frames of one source and to what the duplicate filter
    remembers for it. -/
inductive SourceStep (ipBe : UInt32) (port : UInt16) (e : Engine) (op : Op) (e' : Engine) : Prop
  | took {fate : Fate} {s : UInt32} (hev : takenSeq T ipBe port e op = some (fate, s))
      (hwas : ¬Unqueued e ⟨ipBe, port, s⟩) (hnow : Unqueued e' ⟨ipBe, port, s⟩)
      (hqueue : ∀ s', Unqueued e ⟨ipBe, port, s'⟩ → Unqueued e' ⟨ipBe, port, s'⟩)
      (hmap : e'.map = stampMap e.map ipBe port s) : SourceStep ipBe port e op e'
  | arrived {buf aunPort ctrl s data} (hno : takenSeq T ipBe port e op = none)
      (hop : op = .udpInput ipBe port buf) (hd : FunnelData buf aunPort ctrl s data)
      (hnew : lastSeq e'.map ipBe port ≠ some s)
      (hqueue : ∀ s', s' ≠ s → Unqueued e ⟨ipBe, port, s'⟩ → Unqueued e' ⟨ipBe, port, s'⟩)
      (hmap : e'.map = remapped e op) : SourceStep ipBe port e op e'
  | other (hno : takenSeq T ipBe port e op = none)
      (hqueue : ∀ s', Unqueued e ⟨ipBe, port, s'⟩ → Unqueued e' ⟨ipBe, port, s'⟩)
      (hmap : SameEntry ipBe port e.map e'.map ∨ e'.map = remapped e op) :
      SourceStep ipBe port e op e'

section

variable {e e' : Engine} {op : Op} {ipBe : UInt32} {port : UInt16}

theorem unqueued_of_noNewKeys {k : FrameKey} (hip : k.ipBe ≠ 0) (hsub : NoNewKeys e e')
    (h : Unqueued e k) : Unqueued e' k := by
  apply unqueued_of_wireKeys hip
  intro i hmem
  obtain ⟨-, f, hf, hkey⟩ := mem_wireKeys.mp ((hsub i).subset hmem)
  exact h i f hf hkey

theorem lastSeq_attributeSource {m : MapEntry} (hm : sourceEntry e ipBe port = some m) :
    lastSeq (attributeSource e ipBe port).2.map ipBe port =
      if m.seqValid then some m.lastRxSeq else none := by
  have hfind : (attributeSource e ipBe port).1 =
      mapFindByIp (attributeSource e ipBe port).2.map ipBe port := by
    unfold attributeSource
    cases hf : mapFindByIp e.map ipBe port with
    | some j => exact hf.symm
    | none =>
      cases hl : learnAttribute e ipBe port with
      | none => exact hf.symm
      | some a => rfl
  unfold sourceEntry at hm
  rw [lastSeq, ← hfind, hm]
  rfl

theorem SourceStep.of_taken (hinv : RxInv e) (hkeys : KeysDistinct e) (hip : ipBe ≠ 0)
    {fate : Fate} {s : UInt32} (hev : takenSeq T ipBe port e op = some (fate, s)) :
    SourceStep T ipBe port e op (exec T e op).2 := by
  have hev' := hev
  unfold takenSeq at hev'
  obtain ⟨⟨i, off, fate'⟩, hcol, hif⟩ := Option.bind_eq_some_iff.mp hev'
  dsimp only at hif
  split_ifs at hif with hsrc
  simp only [Option.some.injEq, Prod.mk.injEq] at hif
  obtain ⟨rfl, rfl⟩ := hif
  obtain ⟨rfl, rfl, hwhat⟩ := hsrc
  obtain ⟨handle, accept, rfl, hc, hfate⟩ := collects_of_event T hcol
  -- the fate says why the frame leaves the queue
  have hwhy : accept = true ∨ rejectBudget
      (collectCondemned T e i ((e.rx i).frameAt off).stream).hit ≤ ((e.rx i).frameAt off).rejects := by
    cases accept with
    | true => exact Or.inl rfl
    | false =>
      refine Or.inr ?_
      simp only [collectFate, Bool.false_eq_true, if_false, hip] at hfate
      split_ifs at hfate with hbudget
      · exact hbudget
      · subst hfate
        rcases hwhat with h | h <;> cases h
  have hrx := aunRxCollect_rx T e handle accept
  change SourceStep T _ _ e _ (aunRxCollect T e handle accept).2
  refine .took hev ?_ (hc.unqueued T hinv hkeys hip hwhy) ?_ (hc.taken_map T hip hwhy)
  · intro hnone
    exact hnone i _ (List.mem_of_getElem? (hc.getElem? T hinv)) rfl
  · intro s'
    refine unqueued_of_noNewKeys hip ?_
    rcases hrx.noNewKeys T hinv with hsub | ⟨_, _, _, _, _, _, _, _, _, hop, -⟩
    · exact hsub
    · cases hop

theorem Collects.not_source {handle : UInt8} {i : Fin AUN_RX_BLOCKS} {off : Nat} {f : RxFrame}
    {accept : Bool} (hc : Collects T e handle i off f)
    (hno : takenSeq T ipBe port e (.rxCollect handle accept) = none)
    (hwhat : collectFate T e i off accept = .accepted ∨ collectFate T e i off accept = .shed) :
    ¬(f.srcIpBe = ipBe ∧ f.srcPort = port) := by
  rintro ⟨hip, hport⟩
  simp [takenSeq, hc.event, hc.frame, hip, hport, hwhat] at hno

theorem RxStep.sameEntry (hs : RxStep T e op e') (hno : takenSeq T ipBe port e op = none) :
    SameEntry ipBe port e.map e'.map ∨ e'.map = remapped e op := by
  have hsame : e'.map = e.map → SameEntry ipBe port e.map e'.map ∨ e'.map = remapped e op := by
    intro hmap
    rw [hmap]
    exact Or.inl ⟨rfl, rfl⟩
  cases hs with
  | kept h => exact hsame h.map
  | reset _ hmap => exact Or.inr hmap
  | mapped _ _ hmap => exact Or.inr hmap
  | opened _ _ _ _ hmap => exact hsame hmap
  | closed _ _ hmap => exact hsame hmap
  | presented _ _ _ _ _ hmap => exact hsame hmap
  | counted _ _ hmap => exact hsame hmap
  | idle _ _ _ hmap => exact hsame hmap
  | accepted hc _ hmap =>
    rw [hmap]
    split_ifs
    · exact Or.inl ⟨mapFindByIp_stampMap _ _ _ _ _ _,
        lastSeq_stampMap_other _ _ (hc.not_source T hno (Or.inl (by simp [collectFate])))⟩
    · exact Or.inl ⟨rfl, rfl⟩
  | dropped _ _ _ hmap => exact hsame hmap
  | shed hc hip hbudget _ hmap =>
    rw [hmap]
    refine Or.inl ⟨mapFindByIp_stampMap _ _ _ _ _ _,
      lastSeq_stampMap_other _ _ (hc.not_source T hno (Or.inr ?_))⟩
    rw [← hc.frame] at hip hbudget
    simp [collectFate, hip, hbudget]
  | deferred _ _ _ _ hmap => exact hsame hmap
  | learned hd _ hmap =>
    refine Or.inr ?_
    rw [hmap, remapped, if_pos hd.isFunnel]
  | arrived hd _ _ _ _ _ hmap =>
    refine Or.inr ?_
    rw [hmap, remapped, if_pos hd.isFunnel]
  | arrivedLocal _ _ hmap => exact hsame hmap

theorem unqueued_of_push {i : Fin AUN_RX_BLOCKS} {f : RxFrame} {k : FrameKey}
    (hrx : e'.rx = Function.update e.rx i ((e.rx i).push f))
    (hroom : (e.rx i).count < AUN_RX_QUEUE) (hne : f.key ≠ k) (h : Unqueued e k) : Unqueued e' k := by
  intro j g hg
  rw [hrx] at hg
  by_cases hj : j = i
  · subst hj
    rw [Function.update_self, RxBlock.push_queue f hroom] at hg
    rcases List.mem_append.mp hg with hg | hg
    · exact h j g hg
    · rw [List.mem_singleton.mp hg]
      exact hne
  · rw [Function.update_of_ne hj] at hg
    exact h j g hg

theorem SourceStep.of_untaken (hs : RxStep T e op e') (hinv : RxInv e) (hip : ipBe ≠ 0)
    (hno : takenSeq T ipBe port e op = none) : SourceStep T ipBe port e op e' := by
  rcases hs.noNewKeys T hinv with hsub |
    ⟨ip', port', buf, aunPort, ctrl, seq, data, m, i, rfl, hd, hm, hnew, hdup, hroom, hrx, hmap⟩
  · exact .other hno (fun s' => unqueued_of_noNewKeys hip hsub) (hs.sameEntry T hno)
  · have hremap : e'.map = remapped e (.udpInput ip' port' buf) := by
      rw [hmap, remapped, if_pos hd.isFunnel]
    by_cases hsrc : ip' = ipBe ∧ port' = port
    · obtain ⟨rfl, rfl⟩ := hsrc
      refine .arrived hno rfl hd ?_ (fun s' hs' => ?_) hremap
      · rw [hmap, lastSeq_attributeSource hm]
        split_ifs with hvalid
        · intro heq
          exact hdup ⟨hvalid, (Option.some.inj heq).symm⟩
        · simp
      · refine unqueued_of_push hrx hroom ?_
        intro hkey
        exact hs' (congrArg FrameKey.seq hkey).symm
    · refine .other hno (fun s' => unqueued_of_push hrx hroom ?_) (Or.inr hremap)
      intro hkey
      exact hsrc ⟨congrArg FrameKey.ipBe hkey, congrArg FrameKey.port hkey⟩

theorem step_source (e : Engine) (op : Op) (hinv : RxInv e) (hkeys : KeysDistinct e)
    (hip : ipBe ≠ 0) : SourceStep T ipBe port e.beginCall op (step T e op) := by
  cases hev : takenSeq T ipBe port e.beginCall op with
  | none => exact .of_untaken T (step_rx T e op) hinv.beginCall hip hev
  | some taken => exact .of_taken T hinv.beginCall ⟨hkeys.nodup, hkeys.apart⟩ hip hev

/-! ### A retransmit of the frame taken last -/

theorem rxSeqPending_of_unqueued {seq : UInt32} (h : Unqueued e ⟨ipBe, port, seq⟩) :
    rxSeqPending e ipBe port seq = false := by
  rw [rxSeqPending, List.any_eq_false]
  rintro i - hany
  rw [Bool.and_eq_true, List.any_eq_true] at hany
  obtain ⟨-, f, hf, hkey⟩ := hany
  simp only [Bool.and_eq_true, beq_iff_eq] at hkey
  refine h i f hf ?_
  simp [RxFrame.key, hkey]

theorem sourceEntry_of_lastSeq {seq : UInt32} (h : lastSeq e.map ipBe port = some seq) :
    ∃ m, sourceEntry e ipBe port = some m ∧ m.seqValid = true ∧ seq = m.lastRxSeq := by
  unfold lastSeq at h
  obtain ⟨m, hm, hstamp⟩ := Option.bind_eq_some_iff.mp h
  obtain ⟨j, hj, -⟩ := Option.bind_eq_some_iff.mp hm
  split_ifs at hstamp with hvalid
  refine ⟨m, ?_, hvalid, (Option.some.inj hstamp).symm⟩
  rw [hj] at hm
  simpa [sourceEntry, attributeSource, hj] using hm

theorem udpInput_dup {buf : List UInt8} {aunPort ctrl : UInt8} {seq : UInt32} {data : List UInt8}
    (hready : e.initialised = true) (hd : FunnelData buf aunPort ctrl seq data)
    (hlast : lastSeq e.map ipBe port = some seq) (hnew : Unqueued e ⟨ipBe, port, seq⟩) :
    (aunUdpInput T e ipBe port buf).rx = e.rx ∧
      ∃ ok, .sent ipBe port (buildHeader AUN_TYPE_ACK aunPort ctrl seq) ok ∈
        (aunUdpInput T e ipBe port buf).io.out := by
  obtain ⟨m, hm, hvalid, hseq⟩ := sourceEntry_of_lastSeq hlast
  rw [aunUdpInput_funnel T hready hd]
  unfold inputFunnelData
  rw [dataVerdict_dup T hm (rxSeqPending_of_unqueued hnew) hvalid hseq, attributeSource_eq]
  refine ⟨?_, udpSendOk T (countDup (e.withMap (attributeSource e ipBe port).2.map)), ?_⟩
  · rw [(traceData_same _ _ _ _ _ _ _ _ _).1.rx]
    simp
  · obtain ⟨l, hl, -⟩ := @traceData_emitted T .poll e (sendAckNak T
      (countDup (e.withMap (attributeSource e ipBe port).2.map)) ipBe port AUN_TYPE_ACK aunPort ctrl
      seq) (dbgFind e ipBe port aunPort) .redup
      (sameAsPrev e (dbgFind e ipBe port aunPort) data) ipBe port aunPort seq data
    rw [hl]
    simp

end

end Pi1MHz.Aun
