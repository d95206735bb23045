import Pi1MHz.AunHimmSteps
import Pi1MHz.AunTaken

/-!
# Order within a stream

Frames of one stream leave a block in the order in which they were queued there, as long
as no deferral runs out in the middle of a scan.

A scan looks at the frames of a block from the oldest on and reads the clock once for
each deferred one, so two frames of the same deferred stream are looked at at two times.
-/

namespace Pi1MHz.Aun

open History (Step)

variable (T : Transport)

theorem filter_eraseIdx_first {α : Type*} {p : α → Bool} {x : α} :
    ∀ {q : List α} {k : Nat}, q[k]? = some x → p x = true →
      (∀ a, a < k → ∀ y, q[a]? = some y → p y = false) →
      q.filter p = x :: (q.eraseIdx k).filter p := by
  intro q
  induction q with
  | nil => intro k hget; simp at hget
  | cons y q ih =>
    intro k hget hp hfirst
    cases k with
    | zero =>
      simp only [List.getElem?_cons_zero, Option.some.injEq] at hget
      subst hget
      simp [hp]
    | succ k =>
      have hy : p y = false := hfirst 0 (Nat.succ_pos _) y rfl
      have hrest := ih (k := k) (by simpa using hget) hp fun a ha z hz =>
        hfirst (a + 1) (by omega) z (by simpa using hz)
      simp [hy, hrest]

theorem filter_eraseIdx_other {α : Type*} {p : α → Bool} {x : α} :
    ∀ {q : List α} {k : Nat}, q[k]? = some x → p x = false →
      (q.eraseIdx k).filter p = q.filter p := by
  intro q
  induction q with
  | nil => intro k hget; simp at hget
  | cons y q ih =>
    intro k hget hp
    cases k with
    | zero =>
      simp only [List.getElem?_cons_zero, Option.some.injEq] at hget
      subst hget
      simp [hp]
    | succ k =>
      have hrest := ih (k := k) (by simpa using hget) hp
      cases hy : p y <;> simp [hy, hrest]

/-! ### Deferrals that run out during a scan -/

/-- A scan of the block from clock read `reads` on passes over a frame under a live
    deferral and, later on, finds the deferral of the same stream over. -/
def MidScan (now : Nat → UInt32) (b : RxBlock) (reads : Nat) : Prop :=
  ∃ j, j < b.count ∧ (∀ k, k < j → Deferred now b (b.frameAt k) (reads + k)) ∧
    ¬Deferred now b (b.frameAt j) (reads + j) ∧
    ∃ a, a < j ∧ (b.frameAt a).stream = (b.frameAt j).stream

instance (now : Nat → UInt32) (b : RxBlock) (reads : Nat) : Decidable (MidScan now b reads) :=
  inferInstanceAs (Decidable (∃ j, j < b.count ∧ _ ∧ _ ∧ ∃ a, a < j ∧ _))

def Op.scanHandle : Op → Option UInt8
  | .rxPoll handle => some handle
  | .rxCollect handle _ => some handle
  | _ => none

def ExpiresMidScan (e : Engine) (op : Op) : Prop :=
  ∃ i, op.scanHandle.bind (openBlock e) = some i ∧ (e.rx i).presented = false ∧
    MidScan T.now (e.rx i) e.io.reads

instance (e : Engine) (op : Op) : Decidable (ExpiresMidScan T e op) :=
  inferInstanceAs (Decidable (∃ i : Fin AUN_RX_BLOCKS, op.scanHandle.bind (openBlock e) = some i ∧
    (e.rx i).presented = false ∧ MidScan T.now (e.rx i) e.io.reads))

/-- The frame at `off` is the oldest of its stream. -/
def FirstOfStream (b : RxBlock) (off : Nat) : Prop :=
  ∀ a, a < off → (b.frameAt a).stream ≠ (b.frameAt off).stream

theorem rxFirstEligible_first {b : RxBlock} {reads off : Nat} (hmid : ¬MidScan T.now b reads)
    (hoff : (rxFirstEligible T.now b reads).off = some off) : FirstOfStream b off := by
  obtain ⟨-, hlt, hbefore, helig⟩ := rxScan_some T.now _ _ _ _ _ hoff
  intro a ha hstream
  refine hmid ⟨off, by omega, ?_, ?_, a, ha, hstream⟩
  · intro k hk
    exact hbefore k (Nat.zero_le _) hk
  · intro hdef
    have hfalse := rxFrameEligible_of_deferred T.now hdef
    rw [Nat.sub_zero] at helig
    rw [helig] at hfalse
    cases hfalse

theorem collectScan_first {e : Engine} {i : Fin AUN_RX_BLOCKS} {off : Nat}
    (hpres : (e.rx i).presented = true → FirstOfStream (e.rx i) (e.rx i).presOff)
    (hmid : (e.rx i).presented = false → ¬MidScan T.now (e.rx i) e.io.reads)
    (hoff : (collectScan T e i).off = some off) : FirstOfStream (e.rx i) off := by
  unfold collectScan at hoff
  split at hoff
  · rename_i hp
    simp only [Option.some.injEq] at hoff
    subst hoff
    exact hpres hp
  · rename_i hp
    exact rxFirstEligible_first T (hmid (by simpa using hp)) hoff

/-! ### The log of a block -/

def RxFrame.asQueued (f : RxFrame) : RxFrame := { f with rejects := 0 }

@[simp] theorem RxFrame.asQueued_stream (f : RxFrame) : f.asQueued.stream = f.stream := rfl

structure BlockLog where
  arrived : List RxFrame
  departed : List RxFrame

def restarts (e : Engine) (i : Fin AUN_RX_BLOCKS) : Op → Bool
  | .init _ _ => true
  | .rxOpen handle _ _ _ buf bufSize =>
      rxHandle handle == some i && decide (buf ≠ 0) && decide (bufSize ≠ 0)
  | .rxClose handle => openBlock e handle == some i
  | _ => false

def arrival (e e' : Engine) (i : Fin AUN_RX_BLOCKS) : List RxFrame :=
  if (e.rx i).count < (e'.rx i).count then [(e'.rx i).frameAt (e.rx i).count] else []

def departure (e e' : Engine) (op : Op) (i : Fin AUN_RX_BLOCKS) : List RxFrame :=
  match op with
  | .rxCollect _ _ =>
      if (e'.rx i).count < (e.rx i).count then
        match (collectScan T e i).off with
        | some off => [((e.rx i).frameAt off).asQueued]
        | none => []
      else []
  | _ => []

def logStep (i : Fin AUN_RX_BLOCKS) (log : BlockLog) (st : Step Engine Op) : BlockLog :=
  if restarts st.pre i st.op then ⟨[], []⟩
  else ⟨log.arrived ++ arrival st.pre st.post i, log.departed ++ departure T st.pre st.post st.op i⟩

/-- The log of block `i` after a run. -/
def blockLog (i : Fin AUN_RX_BLOCKS) (hist : List (Step Engine Op)) : BlockLog :=
  hist.foldl (logStep T i) ⟨[], []⟩

/-- Stream by stream, what was queued is what has left followed by what still waits, and
    a presented frame is the oldest of its stream. -/
structure InOrder (log : BlockLog) (b : RxBlock) : Prop where
  conserved : ∀ s, log.arrived.filter (fun f => f.stream = s) =
    (log.departed ++ b.queue.map RxFrame.asQueued).filter (fun f => f.stream = s)
  presented : b.presented = true → FirstOfStream b b.presOff

theorem InOrder.empty {b : RxBlock} (hcount : b.count = 0) (hpres : b.presented = false) :
    InOrder ⟨[], []⟩ b := by
  have hnil : b.queue = [] := List.length_eq_zero_iff.mp (by rw [RxBlock.length_queue, hcount])
  exact ⟨fun s => by rw [hnil]; rfl, fun h => by rw [hpres] at h; cases h⟩

theorem InOrder.same {log : BlockLog} {b b' : RxBlock} (h : InOrder log b)
    (hqueue : b'.queue.map RxFrame.asQueued = b.queue.map RxFrame.asQueued)
    (hpres : b'.presented = true → FirstOfStream b' b'.presOff) : InOrder log b' :=
  ⟨fun s => by rw [hqueue]; exact h.conserved s, hpres⟩

theorem InOrder.arrive {log : BlockLog} {b b' : RxBlock} {f : RxFrame} (h : InOrder log b)
    (hf : f.asQueued = f) (hqueue : b'.queue = b.queue ++ [f])
    (hpres : b'.presented = true → FirstOfStream b' b'.presOff) :
    InOrder ⟨log.arrived ++ [f], log.departed⟩ b' := by
  refine ⟨fun s => ?_, hpres⟩
  rw [hqueue, List.map_append, List.map_singleton, hf, ← List.append_assoc, List.filter_append,
    List.filter_append, h.conserved s]

theorem InOrder.depart {log : BlockLog} {b b' : RxBlock} {off : Nat} (h : InOrder log b)
    (hoff : off < b.count) (hfirst : FirstOfStream b off)
    (hqueue : b'.queue = b.queue.eraseIdx off) (hpres : b'.presented = false) :
    InOrder ⟨log.arrived, log.departed ++ [(b.frameAt off).asQueued]⟩ b' := by
  refine ⟨fun s => ?_, fun hp => by rw [hpres] at hp; cases hp⟩
  have hget : (b.queue.map RxFrame.asQueued)[off]? = some (b.frameAt off).asQueued := by
    rw [List.getElem?_map, RxBlock.getElem?_queue, if_pos hoff]
    rfl
  rw [h.conserved s, hqueue, ← List.eraseIdx_map, List.append_assoc, List.filter_append,
    List.filter_append]
  congr 1
  by_cases hs : (b.frameAt off).stream = s
  · -- the frame that leaves heads its stream in the queue
    rw [filter_eraseIdx_first hget (decide_eq_true hs)]
    · simp [hs]
    · intro a ha y hy
      rw [List.getElem?_map, RxBlock.getElem?_queue, if_pos (by omega)] at hy
      simp only [Option.map_some, Option.some.injEq] at hy
      subst hy
      exact decide_eq_false fun heq => hfirst a ha (heq.trans hs.symm)
  · rw [List.filter_append, filter_eraseIdx_other hget (decide_eq_false hs)]
    simp [hs]

/-! ### The order over a run -/

theorem restarts_count {e : Engine} {op : Op} {i : Fin AUN_RX_BLOCKS} (hready : e.initialised = true)
    (h : restarts e i op = true) :
    ((exec T e op).2.rx i).count = 0 ∧ ((exec T e op).2.rx i).presented = false := by
  cases op with
  | init station net => exact ⟨rfl, rfl⟩
  | rxOpen handle port stn net buf bufSize =>
    simp only [restarts, Bool.and_eq_true, beq_iff_eq, decide_eq_true_eq] at h
    obtain ⟨⟨hi, hbuf⟩, hsize⟩ := h
    simp [exec, aunRxOpen, hready, hi, hbuf, hsize, RxBlock.zero]
  | rxClose handle =>
    simp only [restarts, beq_iff_eq] at h
    simp [exec, aunRxClose, h, RxBlock.zero]
  | _ => cases h

theorem RxStep.inOrder {e e' : Engine} {op : Op} {log : BlockLog} {i : Fin AUN_RX_BLOCKS}
    (hs : RxStep T e op e') (hinv : RxInv e) (hmid : ¬ExpiresMidScan T e op)
    (hkeep : restarts e i op = false) (h : InOrder log (e.rx i)) :
    InOrder ⟨log.arrived ++ arrival e e' i, log.departed ++ departure T e e' op i⟩ (e'.rx i) := by
  -- a block whose queue only changed its reject counts logs nothing
  have hquiet : (e'.rx i).queue.map RxFrame.asQueued = (e.rx i).queue.map RxFrame.asQueued →
      ((e'.rx i).presented = true → FirstOfStream (e'.rx i) (e'.rx i).presOff) →
      InOrder ⟨log.arrived ++ arrival e e' i, log.departed ++ departure T e e' op i⟩ (e'.rx i) := by
    intro hqueue hpres
    have hcount : (e'.rx i).count = (e.rx i).count := by
      simpa using congrArg List.length hqueue
    have harr : arrival e e' i = [] := by simp [arrival, hcount]
    have hdep : departure T e e' op i = [] := by
      unfold departure
      split <;> simp [hcount]
    rw [harr, hdep, List.append_nil, List.append_nil]
    exact h.same hqueue hpres
  have hsame : e'.rx i = e.rx i →
      InOrder ⟨log.arrived ++ arrival e e' i, log.departed ++ departure T e e' op i⟩ (e'.rx i) := by
    intro hrx
    refine hquiet (by rw [hrx]) ?_
    rw [hrx]
    exact h.presented
  have harrive : ∀ {k f}, f.rejects = 0 → (e.rx k).count < AUN_RX_QUEUE →
      e'.rx = Function.update e.rx k ((e.rx k).push f) →
      InOrder ⟨log.arrived ++ arrival e e' i, log.departed ++ departure T e e' op i⟩ (e'.rx i) := by
    intro k f hfresh hroom hrx
    by_cases hk : i = k
    swap
    · exact hsame (by rw [hrx, Function.update_of_ne hk])
    subst hk
    have hb : e'.rx i = (e.rx i).push f := by rw [hrx, Function.update_self]
    have hqueue : (e'.rx i).queue = (e.rx i).queue ++ [f] := by rw [hb, RxBlock.push_queue f hroom]
    have hcount : (e'.rx i).count = (e.rx i).count + 1 := by rw [hb]; rfl
    have hlast : (e'.rx i).frameAt (e.rx i).count = f := by
      rw [hb]
      exact Function.update_self _ _ _
    have harr : arrival e e' i = [f] := by simp [arrival, hcount, hlast]
    have hdep : departure T e e' op i = [] := by
      unfold departure
      split <;> simp [hcount]
    rw [harr, hdep, List.append_nil]
    refine h.arrive ?_ hqueue ?_
    · rw [RxFrame.asQueued, ← hfresh]
    · rw [hb]
      intro hp a ha
      have hlt := (hinv.blocks i).presOff hp
      rw [RxBlock.push_presOff] at ha ⊢
      rw [RxBlock.push_frameAt f (by omega) hroom, RxBlock.push_frameAt f hlt hroom]
      exact h.presented hp a ha
  have hdepart : ∀ {handle accept k off f}, op = .rxCollect handle accept →
      Collects T e handle k off f →
      e'.rx = Function.update e.rx k (rxRemoveAt (collectScan T e k).block off).unpresented →
      InOrder ⟨log.arrived ++ arrival e e' i, log.departed ++ departure T e e' op i⟩ (e'.rx i) := by
    intro handle accept k off f hop hc hrx
    by_cases hk : i = k
    swap
    · exact hsame (by rw [hrx, Function.update_of_ne hk])
    subst hk
    have hoff := hc.queued T hinv
    have hb : e'.rx i = (rxRemoveAt (collectScan T e i).block off).unpresented := by
      rw [hrx, Function.update_self]
    have hqueue : (e'.rx i).queue = (e.rx i).queue.eraseIdx off := by
      rw [hb, ← collectScan_queue T e i]
      exact rxRemoveAt_queue (collectScan_free T (hinv.blocks i) hc.found).queued
        (collectScan_inv T (hinv.blocks i)).count
    have hcount : (e'.rx i).count = (e.rx i).count - 1 := by
      rw [← RxBlock.length_queue, hqueue, List.length_eraseIdx, RxBlock.length_queue, if_pos hoff]
    have harr : arrival e e' i = [] := by
      unfold arrival
      rw [if_neg (by omega)]
    have hdep : departure T e e' op i = [((e.rx i).frameAt off).asQueued] := by
      rw [hop]
      simp only [departure, hc.found]
      rw [if_pos (by omega)]
    have hfirst : FirstOfStream (e.rx i) off := by
      refine collectScan_first T h.presented (fun hp hm => hmid ⟨i, ?_, hp, hm⟩) hc.found
      rw [hop]
      exact hc.opened
    rw [harr, hdep, List.append_nil]
    exact h.depart hoff hfirst hqueue (by rw [hb]; rfl)
  cases hs with
  | kept hk => exact hsame (by rw [hk.rx])
  | reset hrx => cases hkeep
  | mapped hrx => exact hsame (by rw [hrx])
  | @opened _ _ _ _ _ _ k _ hi hbuf hsize hrx =>
    by_cases hk : i = k
    · subst hk
      simp [restarts, hi, hbuf, hsize] at hkeep
    · exact hsame (by rw [hrx, Function.update_of_ne hk])
  | @closed _ k _ hi hrx =>
    by_cases hk : i = k
    · subst hk
      simp [restarts, hi] at hkeep
    · exact hsame (by rw [hrx, Function.update_of_ne hk])
  | @presented _ k off _ hi hcount hpres hoff hrx =>
    by_cases hk : i = k
    swap
    · exact hsame (by rw [hrx, Function.update_of_ne hk])
    subst hk
    have hfirst := rxFirstEligible_first T (fun hm => hmid ⟨i, hi, hpres, hm⟩) hoff
    have hblock := rxScan_block T.now (e.rx i).count 0 (e.rx i) e.io.reads
    rw [hrx, Function.update_self] at hquiet ⊢
    refine hquiet ?_ fun _ => ?_
    · change (rxFirstEligible T.now (e.rx i) e.io.reads).block.queue.map _ = _
      rw [rxFirstEligible_queue]
    · rw [rxFirstEligible, hblock]
      exact hfirst
  | @counted _ k _ hi hrx =>
    by_cases hk : i = k
    swap
    · exact hsame (by rw [hrx, Function.update_of_ne hk])
    subst hk
    obtain ⟨t, ht, -⟩ := rxCountReady_block T.now (e.rx i).count 0 (e.rx i) e.io.reads
    rw [hrx, Function.update_self, ht] at hquiet ⊢
    exact hquiet rfl h.presented
  | @idle _ _ k _ hi hnone hrx =>
    by_cases hk : i = k
    swap
    · exact hsame (by rw [hrx, Function.update_of_ne hk])
    subst hk
    rw [hrx, Function.update_self] at hquiet ⊢
    exact hquiet rfl fun hp => by cases hp
  | accepted hc hrx => exact hdepart rfl hc hrx
  | dropped hc hip hrx => exact hdepart rfl hc hrx
  | shed hc hip hbudget hrx => exact hdepart rfl hc hrx
  | @deferred _ k off f _ hc hip hbudget hrx =>
    by_cases hk : i = k
    swap
    · exact hsame (by rw [hrx, Function.update_of_ne hk])
    subst hk
    rw [hrx, Function.update_self] at hquiet ⊢
    refine hquiet ?_ fun hp => by cases hp
    have hq := burn_map RxFrame.asQueued (fun _ _ => rfl)
      (collectScan_free T (hinv.blocks i) hc.found).queued (collectScan_inv T (hinv.blocks i)).count
    rw [← collectScan_queue T e, ← hq]
    rfl
  | learned hd hrx => exact hsame (by rw [hrx])
  | arrived hd hm hnew hdup hst hrx => exact harrive hst.fresh hst.room hrx
  | arrivedLocal hst hrx => exact harrive hst.fresh hst.room hrx

/-- In every run in which no deferral runs out in the middle of a scan, frames of one
    stream leave a block in the order in which they were queued in it: stream by stream,
    what was queued is what has left followed by what still waits, and a presented frame
    is the oldest of its stream. -/
theorem stream_order (mem : Nat → UInt8) (station net : UInt8) (ops : List Op)
    (hscan : ∀ st ∈ runSteps T mem station net ops, ¬ExpiresMidScan T st.pre st.op)
    (i : Fin AUN_RX_BLOCKS) :
    InOrder (blockLog T i (runSteps T mem station net ops)) ((runState T mem station net ops).rx i) := by
  induction ops using List.reverseRecOn with
  | nil => exact .empty rfl rfl
  | append_singleton ops op ih =>
    rw [runSteps_snoc] at hscan ⊢
    rw [runState_snoc]
    have hprev := ih fun st hst => hscan st (List.mem_append_left _ hst)
    have hmid := hscan _ (List.mem_append_right _ (List.mem_singleton.mpr rfl))
    have hinv := rxInv_run T mem station net ops
    have hready := initialised_run T mem station net ops
    generalize runState T mem station net ops = e at *
    generalize runSteps T mem station net ops = hist at *
    rw [blockLog, List.foldl_append]
    change InOrder (logStep T i (blockLog T i hist) ⟨e, op, step T e op⟩) _
    unfold logStep
    cases hres : restarts e i op with
    | true =>
      obtain ⟨hcount, hpres⟩ := restarts_count T (e := e.beginCall) hready hres
      exact .empty hcount hpres
    | false => exact (step_rx T e op).inOrder T hinv.beginCall hmid hres hprev

/-- Two frames of one stream wait, the first is rejected at time 0, which defers the stream until time 8, and
the host polls three times. -/
def rejectedOnce : List Op :=
  [.mapAdd 0 5 0x0100007F 0, .rxOpen 0 0x99 0xFF 0xFF 1000 16,
    .udpInput 0x0100007F 32768 [2, 0x99, 0, 0, 4, 0, 0, 0, 7],
    .udpInput 0x0100007F 32768 [2, 0x99, 0, 0, 8, 0, 0, 0, 9], .rxCollect 0 false,
    .rxPoll 0, .rxPoll 0, .rxPoll 0]

/-- Both frames are then accepted in their order. -/
theorem stream_order_after_reject :
    let ops := rejectedOnce ++ [.rxReady 0, .rxPoll 0, .rxCollect 0 true, .rxPoll 0]
    InOrder (blockLog .steady 0 (runSteps .steady (fun _ => 0) 1 0 ops))
      ((runState .steady (fun _ => 0) 1 0 ops).rx 0) :=
  stream_order .steady (fun _ => 0) 1 0 _ (by decide +kernel) 0

/-- The fourth poll looks at the first frame at time 7 and at the second at time 8, and presents the second;
the host takes it while the first still waits. -/
theorem younger_frame_overtakes :
    let ops := rejectedOnce ++ [.rxPoll 0, .rxCollect 0 true]
    ¬InOrder (blockLog .steady 0 (runSteps .steady (fun _ => 0) 1 0 ops))
      ((runState .steady (fun _ => 0) 1 0 ops).rx 0) := by
  intro ops h
  exact absurd (h.conserved ⟨0x99, 0x0100007F, 32768⟩) (by decide +kernel)

end Pi1MHz.Aun
