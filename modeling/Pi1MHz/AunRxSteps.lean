import Pi1MHz.AunQueue
import Pi1MHz.FinSizes

/-!
# What a call can do to the receive side

`RxStep` lists everything one call can do to the receive blocks, the station map and
the condemned streams, with the guards under which it happens, and `step_rx` proves
the list complete.
-/

namespace Pi1MHz.Aun

open FinSizes

open DeadlineTable (Entry Unique)

variable (T : Transport)

/-! ### Collecting, function by function -/

def collectCondemned (e : Engine) (i : Fin AUN_RX_BLOCKS) (stream : Stream) :
    DeadlineTable.Found Stream AUN_CONDEMN_SLOTS :=
  DeadlineTable.find T.now e.condemned stream (collectScan T e i).reads

/-- What a collect does with the frame at `off`. -/
inductive Fate where
  | accepted | dropped | shed | deferred
deriving DecidableEq, Repr

def collectFate (e : Engine) (i : Fin AUN_RX_BLOCKS) (off : Nat) (accept : Bool) : Fate :=
  let f := (e.rx i).frameAt off
  if accept then .accepted
  else if f.srcIpBe = 0 then .dropped
  else if f.rejects ≥ rejectBudget (collectCondemned T e i f.stream).hit then .shed
  else .deferred

def collectEvent (e : Engine) : Op → Option (Fin AUN_RX_BLOCKS × Nat × Fate)
  | .rxCollect handle accept =>
      (openBlock e handle).bind fun i =>
        if (e.rx i).count = 0 then none
        else (collectScan T e i).off.map fun off => (i, off, collectFate T e i off accept)
  | _ => none

theorem collectScan_block (e : Engine) (i : Fin AUN_RX_BLOCKS) :
    (collectScan T e i).block = (e.rx i).withDefer (collectScan T e i).block.defer := by
  unfold collectScan
  split
  · rfl
  · exact rxScan_block T.now _ _ _ _

theorem collectScan_reads (e : Engine) (i : Fin AUN_RX_BLOCKS) :
    e.io.reads ≤ (collectScan T e i).reads := by
  unfold collectScan
  split
  · exact Nat.le_refl _
  · exact rxScan_reads T.now _ _ _ _

theorem collectScan_none {e : Engine} {i : Fin AUN_RX_BLOCKS} (h : (collectScan T e i).off = none) :
    (collectScan T e i).block = e.rx i := by
  unfold collectScan at h ⊢
  split at h
  · simp at h
  · rename_i hp
    simp only [hp]
    exact (rxScan_none T.now _ _ _ _ h).2.1

@[simp] theorem collectScan_frameAt (e : Engine) (i : Fin AUN_RX_BLOCKS) (off : Nat) :
    (collectScan T e i).block.frameAt off = (e.rx i).frameAt off := by
  rw [collectScan_block]
  rfl

/-- The block when a reject has burnt one of the budget of the frame at `off`. -/
def RxBlock.burn (b : RxBlock) (off : Nat) : RxBlock :=
  { b with
    q := Function.update b.q (RingQueue.slot AUN_RX_QUEUE b.head off)
      { b.frameAt off with rejects := ((b.frameAt off).rejects + 1) % 256 } }

/-- The block when the stream of its frame at `off` is deferred, from read `reads` on. -/
def deferredBlock (b : RxBlock) (off reads : Nat) : RxBlock :=
  (deferSet T.now (b.burn off) (b.frameAt off).stream (T.now reads + AUN_DEFER_DELAY_MS)
    (reads + 1)).1

def deferSlot (b : RxBlock) (off reads : Nat) : Fin AUN_RX_DEFER_SLOTS × Nat :=
  DeadlineTable.place T.now b.defer (b.frameAt off).stream (reads + 1)

theorem deferredBlock_defer (b : RxBlock) (off reads : Nat) :
    (deferredBlock T b off reads).defer = Function.update b.defer (deferSlot T b off reads).1
      ⟨true, (b.frameAt off).stream, T.now reads + AUN_DEFER_DELAY_MS⟩ := rfl

section

variable (e : Engine) (i : Fin AUN_RX_BLOCKS) (off : Nat)

theorem collectAccept_rx :
    (collectAccept T e i off).rx = Function.update e.rx i (rxRemoveAt (e.rx i) off) := by
  unfold collectAccept
  dsimp only
  split_ifs <;> simp

theorem collectAccept_map : (collectAccept T e i off).map =
    if ((e.rx i).frameAt off).srcIpBe ≠ 0 then
      stampMap e.map ((e.rx i).frameAt off).srcIpBe ((e.rx i).frameAt off).srcPort
        ((e.rx i).frameAt off).seq
    else e.map := by
  unfold collectAccept
  dsimp only
  split_ifs <;> simp

theorem collectShed_rx :
    (collectShed T e i off).rx = Function.update e.rx i (rxRemoveAt (e.rx i) off) := by
  unfold collectShed
  simp

theorem collectDefer_rx : (collectDefer T e i off).rx =
    Function.update e.rx i (deferredBlock T (e.rx i) off e.io.reads) := by
  unfold collectDefer
  simp
  rfl

end

/-! ### The list of receive steps -/

def condemnSlot (found : DeadlineTable.Found Stream AUN_CONDEMN_SLOTS) (stream : Stream) :
    Fin AUN_CONDEMN_SLOTS × Nat :=
  DeadlineTable.place T.now found.table stream found.reads

/-- The condemned streams when a collect has condemned `stream`. -/
def condemnedTable (found : DeadlineTable.Found Stream AUN_CONDEMN_SLOTS) (stream : Stream) :
    Fin AUN_CONDEMN_SLOTS → Entry Stream :=
  Function.update found.table (condemnSlot T found stream).1
    ⟨true, stream, T.now (condemnSlot T found stream).2 + AUN_CONDEMN_TTL_MS⟩

/-- An open block as `aun_rx_open` leaves it. -/
def freshBlock (port stn net : UInt8) (buf bufSize : Nat) : RxBlock :=
  { RxBlock.zero with
    isOpen := true, port := port, stn := stn, net := net, buf := buf, bufSize := bufSize }

structure FunnelData (buf : List UInt8) (aunPort ctrl : UInt8) (seq : UInt32)
    (data : List UInt8) : Prop where
  funnel : ¬(aunPort = 0 ∧ isImm4Ctrl ctrl = true)
  header : AUN_HDR_SIZE ≤ buf.length
  type : buf.getD 0 0 = AUN_TYPE_DATA
  aunPort : buf.getD 1 0 = aunPort
  ctrl : buf.getD 2 0 &&& 0x7F = ctrl
  seq : rd32le (buf.drop 4) = seq
  data : buf.drop AUN_HDR_SIZE = data

def sourceEntry (e : Engine) (ipBe : UInt32) (port : UInt16) : Option MapEntry :=
  (attributeSource e ipBe port).1.bind fun j => (attributeSource e ipBe port).2.map[j]?

/-- A collect of the frame at `off` of block `i`. -/
structure Collects (e : Engine) (handle : UInt8) (i : Fin AUN_RX_BLOCKS) (off : Nat)
    (f : RxFrame) : Prop where
  opened : openBlock e handle = some i
  nonempty : (e.rx i).count ≠ 0
  found : (collectScan T e i).off = some off
  frame : (e.rx i).frameAt off = f

inductive RxStep (e : Engine) : Op → Engine → Prop
  | kept {op e'} (h : SameRx e e') : RxStep e op e'
  | reset {station net e'} (hrx : e'.rx = fun _ => RxBlock.zero) (hmap : e'.map = [])
      (hcond : e'.condemned = fun _ => zeroEntry) : RxStep e (.init station net) e'
  | mapped {net stn ipBe port e'} (hrx : e'.rx = e.rx) (hcond : e'.condemned = e.condemned)
      (hmap : e'.map = (aunMapAdd e net stn ipBe port).2.map) :
      RxStep e (.mapAdd net stn ipBe port) e'
  | opened {handle port stn net buf bufSize i e'} (hi : rxHandle handle = some i)
      (hbuf : buf ≠ 0) (hsize : bufSize ≠ 0)
      (hrx : e'.rx = Function.update e.rx i (freshBlock port stn net buf bufSize))
      (hmap : e'.map = e.map) (hcond : e'.condemned = e.condemned) :
      RxStep e (.rxOpen handle port stn net buf bufSize) e'
  | closed {handle i e'} (hi : openBlock e handle = some i)
      (hrx : e'.rx = Function.update e.rx i RxBlock.zero) (hmap : e'.map = e.map)
      (hcond : e'.condemned = e.condemned) : RxStep e (.rxClose handle) e'
  | presented {handle i off e'} (hi : openBlock e handle = some i)
      (hcount : (e.rx i).count ≠ 0) (hpres : (e.rx i).presented = false)
      (hoff : (rxFirstEligible T.now (e.rx i) e.io.reads).off = some off)
      (hrx : e'.rx = Function.update e.rx i
        { (rxFirstEligible T.now (e.rx i) e.io.reads).block with
          presOff := off, presented := true })
      (hmap : e'.map = e.map) (hcond : e'.condemned = e.condemned) :
      RxStep e (.rxPoll handle) e'
  | counted {handle i e'} (hi : openBlock e handle = some i)
      (hrx : e'.rx = Function.update e.rx i
        (rxCountReady T.now (e.rx i).count 0 (e.rx i) e.io.reads).2.1)
      (hmap : e'.map = e.map) (hcond : e'.condemned = e.condemned) :
      RxStep e (.rxReady handle) e'
  | idle {handle accept i e'} (hi : openBlock e handle = some i)
      (hnone : (e.rx i).count = 0 ∨ (collectScan T e i).off = none)
      (hrx : e'.rx = Function.update e.rx i (e.rx i).unpresented)
      (hmap : e'.map = e.map) (hcond : e'.condemned = e.condemned) :
      RxStep e (.rxCollect handle accept) e'
  | accepted {handle i off f e'} (hc : Collects T e handle i off f)
      (hrx : e'.rx = Function.update e.rx i
        (rxRemoveAt (collectScan T e i).block off).unpresented)
      (hmap : e'.map =
        if f.srcIpBe ≠ 0 then stampMap e.map f.srcIpBe f.srcPort f.seq else e.map)
      (hcond : e'.condemned =
        if f.srcIpBe ≠ 0 then liftedTable (collectCondemned T e i f.stream) else e.condemned)
      (hreads : (collectScan T e i).reads ≤ e'.io.reads) :
      RxStep e (.rxCollect handle true) e'
  | dropped {handle i off f e'} (hc : Collects T e handle i off f) (hip : f.srcIpBe = 0)
      (hrx : e'.rx = Function.update e.rx i
        (rxRemoveAt (collectScan T e i).block off).unpresented)
      (hmap : e'.map = e.map) (hcond : e'.condemned = e.condemned)
      (hreads : (collectScan T e i).reads ≤ e'.io.reads) :
      RxStep e (.rxCollect handle false) e'
  | shed {handle i off f e'} (hc : Collects T e handle i off f) (hip : f.srcIpBe ≠ 0)
      (hbudget : rejectBudget (collectCondemned T e i f.stream).hit ≤ f.rejects)
      (hrx : e'.rx = Function.update e.rx i
        (rxRemoveAt (collectScan T e i).block off).unpresented)
      (hmap : e'.map = stampMap e.map f.srcIpBe f.srcPort f.seq)
      (hcond : e'.condemned = condemnedTable T (collectCondemned T e i f.stream) f.stream)
      (hreads : e'.io.reads = (condemnSlot T (collectCondemned T e i f.stream) f.stream).2 + 1) :
      RxStep e (.rxCollect handle false) e'
  | deferred {handle i off f e'} (hc : Collects T e handle i off f) (hip : f.srcIpBe ≠ 0)
      (hbudget : f.rejects < rejectBudget (collectCondemned T e i f.stream).hit)
      (hrx : e'.rx = Function.update e.rx i
        (deferredBlock T (collectScan T e i).block off
          (collectCondemned T e i f.stream).reads).unpresented)
      (hmap : e'.map = e.map)
      (hcond : e'.condemned = (collectCondemned T e i f.stream).table)
      (hreads : e'.io.reads = (deferSlot T (collectScan T e i).block off
        (collectCondemned T e i f.stream).reads).2) :
      RxStep e (.rxCollect handle false) e'
  | learned {ipBe port buf aunPort ctrl seq data e'} (hd : FunnelData buf aunPort ctrl seq data)
      (hrx : e'.rx = e.rx) (hmap : e'.map = (attributeSource e ipBe port).2.map)
      (hcond : e'.condemned = e.condemned) : RxStep e (.udpInput ipBe port buf) e'
  | arrived {ipBe port buf aunPort ctrl seq data m i e'}
      (hd : FunnelData buf aunPort ctrl seq data) (hm : sourceEntry e ipBe port = some m)
      (hnew : rxSeqPending e ipBe port seq = false) (hdup : ¬(m.seqValid ∧ seq = m.lastRxSeq))
      (hs : Staged e i ⟨m.stn, m.net, aunPort, ctrl ||| 0x80, 0, seq, ipBe, port, data⟩)
      (hrx : e'.rx = Function.update e.rx i
        ((e.rx i).push ⟨m.stn, m.net, aunPort, ctrl ||| 0x80, 0, seq, ipBe, port, data⟩))
      (hmap : e'.map = (attributeSource e ipBe port).2.map)
      (hcond : e'.condemned = e.condemned) : RxStep e (.udpInput ipBe port buf) e'
  | arrivedLocal {op i aunPort ctrl stn net data e'}
      (hs : Staged e i (localFrame aunPort ctrl stn net data))
      (hrx : e'.rx = Function.update e.rx i
        ((e.rx i).push (localFrame aunPort ctrl stn net data)))
      (hmap : e'.map = e.map) (hcond : e'.condemned = e.condemned) : RxStep e op e'

/-! ### The list is complete -/

theorem scanned_rx (e : Engine) (i : Fin AUN_RX_BLOCKS) :
    (scanned T e i).rx = Function.update e.rx i (collectScan T e i).block := by
  simp [scanned]

@[simp] theorem scanned_rx_self (e : Engine) (i : Fin AUN_RX_BLOCKS) :
    (scanned T e i).rx i = (collectScan T e i).block := by
  simp [scanned_rx]

@[simp] theorem scanned_map (e : Engine) (i : Fin AUN_RX_BLOCKS) :
    (scanned T e i).map = e.map := rfl

@[simp] theorem scanned_condemned (e : Engine) (i : Fin AUN_RX_BLOCKS) :
    (scanned T e i).condemned = e.condemned := rfl

@[simp] theorem scanned_reads (e : Engine) (i : Fin AUN_RX_BLOCKS) :
    (scanned T e i).io.reads = (collectScan T e i).reads := rfl

theorem unpresent_rx_eq (e : Engine) (i : Fin AUN_RX_BLOCKS) :
    (unpresent e i).rx = Function.update e.rx i (e.rx i).unpresented := by
  simp

theorem unpresent_update {e₀ e : Engine} {i : Fin AUN_RX_BLOCKS} {b : RxBlock}
    (h : e.rx = Function.update e₀.rx i b) :
    (unpresent e i).rx = Function.update e₀.rx i b.unpresented := by
  rw [unpresent_rx_eq, h]
  simp

theorem collectAccept_step {e : Engine} {handle : UInt8} {i : Fin AUN_RX_BLOCKS} {off : Nat}
    {f : RxFrame} (hc : Collects T e handle i off f) :
    RxStep T e (.rxCollect handle true) (unpresent (collectAccept T (scanned T e i) i off) i) := by
  obtain rfl := hc.frame
  refine .accepted hc ?_ ?_ ?_ ?_
  · apply unpresent_update
    rw [collectAccept_rx, scanned_rx]
    simp
  · rw [unpresent_map, collectAccept_map]
    simp
  · unfold collectAccept
    by_cases hip : ((e.rx i).frameAt off).srcIpBe = 0
    · simp [hip]
    · simp [hip, collectCondemned, condemnFind]
  · unfold collectAccept
    by_cases hip : ((e.rx i).frameAt off).srcIpBe = 0
    · simp [hip]
    · simpa [hip, condemnFind] using DeadlineTable.find_reads_le _ _ _ _

theorem collectReject_shed {e : Engine} {i : Fin AUN_RX_BLOCKS} {off : Nat}
    (hip : ((e.rx i).frameAt off).srcIpBe ≠ 0)
    (hbudget : rejectBudget (collectCondemned T e i ((e.rx i).frameAt off).stream).hit ≤
      ((e.rx i).frameAt off).rejects) :
    collectReject T (scanned T e i) i off =
      collectShed T (condemnFound T (scanned T e i) ((e.rx i).frameAt off).stream) i off := by
  unfold collectReject
  simp only [scanned_rx_self, collectScan_frameAt, if_neg hip]
  exact if_pos hbudget

theorem collectShed_reads (e : Engine) (i : Fin AUN_RX_BLOCKS) (off : Nat) :
    (collectShed T (condemnFound T (scanned T e i) ((e.rx i).frameAt off).stream) i off).io.reads =
      (condemnSlot T (collectCondemned T e i ((e.rx i).frameAt off).stream)
        ((e.rx i).frameAt off).stream).2 + 1 := by
  simp [collectShed, condemnSlot, collectCondemned, condemnFind]

theorem collectShed_step {e : Engine} {handle : UInt8} {i : Fin AUN_RX_BLOCKS} {off : Nat}
    {f : RxFrame} (hc : Collects T e handle i off f) (hip : f.srcIpBe ≠ 0)
    (hbudget : rejectBudget (collectCondemned T e i f.stream).hit ≤ f.rejects) :
    RxStep T e (.rxCollect handle false)
      (unpresent (collectShed T (condemnFound T (scanned T e i) f.stream) i off) i) := by
  obtain rfl := hc.frame
  refine .shed hc hip hbudget ?_ ?_ ?_ ?_
  · apply unpresent_update
    simp [collectShed_rx, scanned_rx]
  · simp [collectShed]
  · simp [collectShed, condemnedTable, condemnSlot, collectCondemned, condemnFind, nowMs]
  · rw [unpresent_io]
    exact collectShed_reads T e i off

theorem collectDefer_step {e : Engine} {handle : UInt8} {i : Fin AUN_RX_BLOCKS} {off : Nat}
    {f : RxFrame} (hc : Collects T e handle i off f) (hip : f.srcIpBe ≠ 0)
    (hbudget : f.rejects < rejectBudget (collectCondemned T e i f.stream).hit) :
    RxStep T e (.rxCollect handle false)
      (unpresent (collectDefer T (condemnFound T (scanned T e i) f.stream) i off) i) := by
  obtain rfl := hc.frame
  refine .deferred hc hip hbudget ?_ ?_ ?_ ?_
  · apply unpresent_update
    simp [collectDefer_rx, scanned_rx, collectCondemned, condemnFind]
  · simp [collectDefer]
  · simp [collectDefer, collectCondemned, condemnFind]
  · simp [collectDefer, deferSet, deferSlot, collectCondemned, condemnFind, RxFrame.stream]

theorem collectReject_step {e : Engine} {handle : UInt8} {i : Fin AUN_RX_BLOCKS} {off : Nat}
    {f : RxFrame} (hc : Collects T e handle i off f) :
    RxStep T e (.rxCollect handle false) (unpresent (collectReject T (scanned T e i) i off) i) := by
  obtain rfl := hc.frame
  unfold collectReject
  simp only [scanned_rx_self, collectScan_frameAt]
  split_ifs with hip hbudget
  · refine .dropped hc hip ?_ (by simp) (by simp) (by simp)
    apply unpresent_update
    simp [scanned_rx]
  · exact collectShed_step T hc hip hbudget
  · exact collectDefer_step T hc hip (Nat.lt_of_not_le hbudget)

theorem collectFrame_rx {e : Engine} {handle : UInt8} {i : Fin AUN_RX_BLOCKS} (accept : Bool)
    (hi : openBlock e handle = some i) (hcount : (e.rx i).count ≠ 0) :
    RxStep T e (.rxCollect handle accept) (unpresent (collectFrame T e i accept) i) := by
  unfold collectFrame
  cases hoff : (collectScan T e i).off with
  | none =>
    refine .idle hi (Or.inr hoff) ?_ (by simp) (by simp)
    have hrx := scanned_rx T e i
    rw [collectScan_none T hoff] at hrx
    exact unpresent_update hrx
  | some off =>
    have hc : Collects T e handle i off ((e.rx i).frameAt off) := ⟨hi, hcount, hoff, rfl⟩
    cases accept with
    | true => exact collectAccept_step T hc
    | false => exact collectReject_step T hc

theorem aunRxCollect_rx (e : Engine) (handle : UInt8) (accept : Bool) :
    RxStep T e (.rxCollect handle accept) (aunRxCollect T e handle accept).2 := by
  unfold aunRxCollect
  cases hi : openBlock e handle with
  | none => exact .kept (SameRx.refl e)
  | some i =>
    by_cases hcount : (e.rx i).count = 0
    · simp only [hcount, ne_eq, not_true_eq_false, if_false]
      exact .idle hi (Or.inl hcount) (unpresent_rx_eq e i) (by simp) (by simp)
    · simp only [hcount, ne_eq, not_false_eq_true, if_true]
      exact collectFrame_rx T accept hi hcount

theorem aunRxPoll_rx (e : Engine) (handle : UInt8) :
    RxStep T e (.rxPoll handle) (aunRxPoll T e handle).2.2 := by
  unfold aunRxPoll
  cases hi : openBlock e handle with
  | none => exact .kept (SameRx.refl e)
  | some i =>
    dsimp only
    split_ifs with hcount hpres
    · exact .kept (SameRx.refl e)
    · exact .kept (SameRx.refl e)
    · cases hoff : (rxFirstEligible T.now (e.rx i) e.io.reads).off with
      | none =>
        -- every frame is deferred: the scan has changed nothing
        have hb := (rxScan_none T.now _ _ _ _ hoff).2.1
        refine .kept ⟨?_, by simp, by simp⟩
        simp only [Engine.atRead_rx, Engine.setBlock_rx]
        exact Function.update_eq_self_iff.mpr hb
      | some off =>
        exact .presented hi hcount (by simpa using hpres) hoff (by simp) (by simp) (by simp)

theorem aunRxReady_rx (e : Engine) (handle : UInt8) :
    RxStep T e (.rxReady handle) (aunRxReady T e handle).2 := by
  unfold aunRxReady
  cases hi : openBlock e handle with
  | none => exact .kept (SameRx.refl e)
  | some i => exact .counted hi (by simp) (by simp) (by simp)

theorem aunRxOpen_rx (e : Engine) (handle port stn net : UInt8) (buf bufSize : Nat) :
    RxStep T e (.rxOpen handle port stn net buf bufSize)
      (aunRxOpen e handle port stn net buf bufSize).2 := by
  unfold aunRxOpen
  cases hi : rxHandle handle with
  | none => split_ifs <;> exact .kept (SameRx.refl e)
  | some i =>
    dsimp only
    split_ifs with hinit hbad
    · exact .kept (SameRx.refl e)
    · exact .kept (SameRx.refl e)
    · rw [not_or] at hbad
      exact .opened hi hbad.1 hbad.2 (by simp [freshBlock]) (by simp) (by simp)

theorem aunRxClose_rx (e : Engine) (handle : UInt8) :
    RxStep T e (.rxClose handle) (aunRxClose e handle).2 := by
  unfold aunRxClose
  cases hi : openBlock e handle with
  | none => exact .kept (SameRx.refl e)
  | some i => exact .closed hi (by simp) (by simp) (by simp)

/-! ### Arrivals -/

theorem aunMapAdd_rx (e : Engine) (net stn : UInt8) (ipBe : UInt32) (port : UInt16) :
    (aunMapAdd e net stn ipBe port).2.rx = e.rx := by
  rw [aunMapAdd_eq]
  rfl

theorem aunMapAdd_condemned (e : Engine) (net stn : UInt8) (ipBe : UInt32) (port : UInt16) :
    (aunMapAdd e net stn ipBe port).2.condemned = e.condemned := by
  rw [aunMapAdd_eq]
  rfl

theorem rxMatchFrom_congr {e e' : Engine} (h : e'.rx = e.rx) (port srcStn srcNet : UInt8) :
    ∀ (blocks : List (Fin AUN_RX_BLOCKS)) (sawFull : Bool),
      rxMatchFrom e' port srcStn srcNet blocks sawFull =
        rxMatchFrom e port srcStn srcNet blocks sawFull := by
  intro blocks
  induction blocks with
  | nil => intro sawFull; rfl
  | cons i blocks ih =>
    intro sawFull
    simp only [rxMatchFrom, h, ih]

theorem Staged.congr {e e' : Engine} {i : Fin AUN_RX_BLOCKS} {f : RxFrame} (h : Staged e' i f)
    (hrx : e'.rx = e.rx) : Staged e i f where
  matched := (congrArg Prod.fst (rxMatchFrom_congr hrx _ _ _ _ _)).symm.trans h.matched
  fits := by rw [← hrx]; exact h.fits
  max := h.max
  fresh := h.fresh

theorem dataFrom_rx (e : Engine) (ipBe : UInt32) (port : UInt16) (aunPort ctrl : UInt8)
    (seq : UInt32) (m : MapEntry) (data : List UInt8) :
    SameRx e (dataFrom T e ipBe port aunPort ctrl seq m data).2 ∨
      (rxSeqPending e ipBe port seq = false ∧ ¬(m.seqValid ∧ seq = m.lastRxSeq) ∧
        ∃ i, Staged e i ⟨m.stn, m.net, aunPort, ctrl ||| 0x80, 0, seq, ipBe, port, data⟩ ∧
          (dataFrom T e ipBe port aunPort ctrl seq m data).2.rx = Function.update e.rx i
            ((e.rx i).push ⟨m.stn, m.net, aunPort, ctrl ||| 0x80, 0, seq, ipBe, port, data⟩) ∧
          (dataFrom T e ipBe port aunPort ctrl seq m data).2.map = e.map ∧
          (dataFrom T e ipBe port aunPort ctrl seq m data).2.condemned = e.condemned) := by
  unfold dataFrom
  split_ifs with hpend hdup
  · exact Or.inl ⟨by simp, by simp, by simp⟩
  · exact Or.inl ⟨by simp, by simp, by simp⟩
  · unfold dataDeliver
    rcases rxDeliver_cases e aunPort ctrl m.stn m.net data with ⟨i, hs, hd⟩ | ⟨why, c, hd, -⟩
    · refine Or.inr ⟨by simpa using hpend, hdup, i, ⟨hs.matched, hs.fits, hs.max, rfl⟩, ?_⟩
      rw [hd]
      refine ⟨?_, by simp, by simp⟩
      simp [localFrame, RxBlock.push]
    · rw [hd]
      cases why <;> exact Or.inl ⟨by simp, by simp, by simp⟩

theorem dataVerdict_rx {e e' : Engine} {ipBe : UInt32} {port : UInt16} {buf : List UInt8}
    {aunPort ctrl : UInt8} {seq : UInt32} {data : List UInt8}
    (hd : FunnelData buf aunPort ctrl seq data)
    (h : SameRx (dataVerdict T e ipBe port aunPort ctrl seq data).2 e') :
    RxStep T e (.udpInput ipBe port buf) e' := by
  have ha := attributeSource_eq e ipBe port
  cases hm : sourceEntry e ipBe port with
  | none =>
    have hv : (dataVerdict T e ipBe port aunPort ctrl seq data).2 =
        (attributeSource e ipBe port).2.count
          fun c => { c with rxUnknownSource := c.rxUnknownSource + 1 } := by
      unfold sourceEntry at hm
      simp [dataVerdict, hm]
    rw [hv, ha] at h
    exact .learned hd (by simpa using h.rx) (by simpa using h.map) (by simpa using h.condemned)
  | some m =>
    have hv : (dataVerdict T e ipBe port aunPort ctrl seq data).2 =
        (dataFrom T (attributeSource e ipBe port).2 ipBe port aunPort ctrl seq m data).2 := by
      unfold sourceEntry at hm
      simp [dataVerdict, hm]
    rw [hv, ha] at h
    rcases dataFrom_rx T (e.withMap (attributeSource e ipBe port).2.map) ipBe port aunPort ctrl seq m
      data with hsame | ⟨hpend, hdup, i, hs, hrx, hmap, hcond⟩
    · exact .learned hd (h.rx.trans hsame.rx) (h.map.trans hsame.map)
        (h.condemned.trans hsame.condemned)
    · exact .arrived hd hm hpend hdup (hs.congr rfl) (h.rx.trans hrx) (h.map.trans hmap)
        (h.condemned.trans hcond)

theorem inputFunnelData_rx (e : Engine) (ipBe : UInt32) (port : UInt16) {buf : List UInt8}
    {aunPort ctrl : UInt8} {seq : UInt32} {data : List UInt8}
    (hd : FunnelData buf aunPort ctrl seq data) :
    RxStep T e (.udpInput ipBe port buf)
      (inputFunnelData T e ipBe port aunPort ctrl seq data) :=
  dataVerdict_rx T hd (traceData_same _ _ _ _ _ _ _ _ _).1

theorem rxDeliver_rx {op : Op} {e₀ : Engine} (e : Engine) (port ctrl srcStn srcNet : UInt8)
    (data : List UInt8) {e' : Engine} (h₀ : SameRx e₀ e)
    (h : SameRx (rxDeliver e port ctrl srcStn srcNet data).2 e') : RxStep T e₀ op e' := by
  rcases rxDeliver_cases e port ctrl srcStn srcNet data with ⟨i, hs, hd⟩ | ⟨why, c, hd, -⟩
  · rw [hd] at h
    obtain ⟨hrx, hmap, hcond⟩ := h
    simp only [Engine.setBlock_rx, Engine.setBlock_map, Engine.setBlock_condemned, h₀.rx, h₀.map,
      h₀.condemned] at hrx hmap hcond
    exact .arrivedLocal (hs.congr h₀.rx) hrx hmap hcond
  · rw [hd] at h
    exact .kept (h₀.trans { h with })

theorem inputBroadcast_rx {op : Op} (e : Engine) (ipBe : UInt32) (port : UInt16)
    (aunPort ctrl : UInt8) (data : List UInt8) :
    RxStep T e op (inputBroadcast e ipBe port aunPort ctrl data) := by
  apply rxDeliver_rx T e aunPort ctrl (broadcastSource e ipBe port).1 (broadcastSource e ipBe port).2
    data (SameRx.refl e)
  unfold inputBroadcast
  dsimp only
  split
  · exact ⟨by simp, by simp, by simp⟩
  · exact SameRx.refl _

theorem txCountDone_sameRx (e : Engine) : SameRx e (txCountDone e) := by
  unfold txCountDone
  split_ifs <;> exact ⟨by simp, by simp, by simp⟩

theorem txLoopback_rx {op : Op} (e : Engine) (wireType ctrl port : UInt8) (data : List UInt8)
    (replyBuf replyMax : Nat) :
    RxStep T e op (txLoopback e wireType ctrl port data replyBuf replyMax) := by
  unfold txLoopback
  dsimp only
  split_ifs
  · refine .kept (SameRx.trans ?_ (txCountDone_sameRx _))
    unfold loopbackImmediate
    dsimp only
    split_ifs <;> exact ⟨by simp, by simp, by simp⟩
  · exact .kept (SameRx.trans ⟨by simp, by simp, by simp⟩ (txCountDone_sameRx _))
  · refine rxDeliver_rx T (e.withTx { e.tx with state := .ok, replyBuf := 0, replyLen := 0 }) port
      ctrl e.testStn e.testNet data ⟨rfl, rfl, rfl⟩ ?_
    refine SameRx.trans ?_ (txCountDone_sameRx _)
    unfold loopbackDeliver
    dsimp only
    split
    · exact SameRx.refl _
    · exact ⟨rfl, rfl, rfl⟩

theorem txBegin_rx {op : Op} (e : Engine) (wireType destNet destStn ctrl port : UInt8)
    (data : Payload) (replyBuf replyMax : Nat) :
    RxStep T e op (txBegin T e wireType destNet destStn ctrl port data replyBuf replyMax).2 := by
  unfold txBegin
  split_ifs
  · exact .kept (SameRx.refl e)
  · exact .kept (SameRx.refl e)
  · exact .kept (SameRx.refl e)
  · exact txLoopback_rx T e _ _ _ _ _ _
  · split
    · exact .kept (SameRx.refl e)
    · exact .kept (txLaunch_sameRx T e _ _ _ _ _ _ _ _)

theorem aunImmediate_rx {op : Op} (e : Engine) (destNet destStn ctrl : UInt8) (data : Payload)
    (replyBuf replyMax : Nat) :
    RxStep T e op (aunImmediate T e destNet destStn ctrl data replyBuf replyMax).2 := by
  unfold aunImmediate
  dsimp only
  split_ifs
  · exact .kept (SameRx.refl e)
  · exact txBegin_rx T e _ _ _ _ _ _ _ _
  · exact txBegin_rx T e _ _ _ _ _ _ _ _
  · exact txBegin_rx T e _ _ _ _ _ _ _ _

theorem aunUdpInput_rx (e : Engine) (ipBe : UInt32) (port : UInt16) (buf : List UInt8) :
    RxStep T e (.udpInput ipBe port buf) (aunUdpInput T e ipBe port buf) := by
  unfold aunUdpInput
  dsimp only
  split_ifs with hshort htx hreply hdata hbcast himm
  · exact .kept ⟨by simp, by simp, by simp⟩
  · exact .kept (inputAckNak_sameRx T e ipBe port _ _)
  · exact .kept (inputImmReply_sameRx e ipBe port _ _)
  · unfold inputData
    split_ifs with h4
    · exact .kept (rxImm4Data_sameRx T e ipBe port _ _ _)
    · rw [not_or] at hshort
      exact inputFunnelData_rx T e ipBe port ⟨h4, by omega, hdata, rfl, rfl, rfl, rfl⟩
  · exact inputBroadcast_rx T e ipBe port _ _ _
  · exact .kept (inputImmediate_sameRx T e ipBe port _ _ _ _)
  · exact .kept ⟨by simp, by simp, by simp⟩

theorem exec_rx (e : Engine) (op : Op) : RxStep T e op (exec T e op).2 := by
  cases op with
  | init station net => exact .reset rfl rfl rfl
  | mapAdd net stn ipBe port =>
    exact .mapped (aunMapAdd_rx e net stn ipBe port) (aunMapAdd_condemned e net stn ipBe port) rfl
  | setAddressing b s m l => exact .kept ⟨rfl, rfl, rfl⟩
  | testResponder enable stn net => exact .kept ⟨rfl, rfl, rfl⟩
  | setMachineId id => exact .kept ⟨rfl, rfl, rfl⟩
  | setTrace installed => exact .kept ⟨rfl, rfl, rfl⟩
  | setHostImm enable => exact .kept ⟨rfl, rfl, rfl⟩
  | himmReply data => exact .kept (aunHimmReply_sameRx T e data)
  | rxOpen handle port stn net buf bufSize => exact aunRxOpen_rx T e handle port stn net buf bufSize
  | rxPoll handle => exact aunRxPoll_rx T e handle
  | rxReady handle => exact aunRxReady_rx T e handle
  | rxCollect handle accept => exact aunRxCollect_rx T e handle accept
  | rxClose handle => exact aunRxClose_rx T e handle
  | txStart destNet destStn ctrl port data => exact txBegin_rx T e _ _ _ _ _ _ _ _
  | immediate destNet destStn ctrl data replyBuf replyMax => exact aunImmediate_rx T e _ _ _ _ _ _
  | broadcast ctrl port data => exact .kept (aunBroadcast_same T e ctrl port data).1
  | udpInput ipBe port buf => exact aunUdpInput_rx T e ipBe port buf
  | poll => exact .kept (aunPoll_sameRx T e)

theorem step_rx (e : Engine) (op : Op) : RxStep T e.beginCall op (step T e op) :=
  exec_rx T e.beginCall op

end Pi1MHz.Aun
