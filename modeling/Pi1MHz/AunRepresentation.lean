import Pi1MHz.AunHostMemory

/-!
# The representation invariant of the engine

Everything the engine relies on in every reachable state, put together: the receive
side (`RxInv`), the lengths of the held and of the remembered immediate, deferrals that
are never lost to another stream while they are live, and the presented frames in the
caller's buffers.
-/

namespace Pi1MHz.Aun

open DeadlineTable (own)
open History (Step)
open WrapClock (reached)

variable (T : Transport)

/-! ### Live deferrals are not overwritten -/

/-- No deferral slot passes from one stream to another unless the deferral in it was
    over at some clock read of the call. -/
def NoSteal (e e' : Engine) : Prop :=
  ∀ i s, ((e.rx i).defer s).valid = true → ((e'.rx i).defer s).valid = true →
    ((e'.rx i).defer s).key ≠ ((e.rx i).defer s).key →
    ∃ k, e.io.reads ≤ k ∧ k < e'.io.reads ∧ reached (T.now k) ((e.rx i).defer s).due = true

theorem rxFrameEligible_cleared {now : Nat → UInt32} {b : RxBlock} {f : RxFrame} {k : Nat}
    {s : Fin AUN_RX_DEFER_SLOTS} (hold : (b.defer s).valid = true)
    (hgone : ((rxFrameEligible now b f k).2.1.defer s).valid = false) :
    reached (now k) (b.defer s).due = true ∧ (rxFrameEligible now b f k).2.2 = k + 1 := by
  unfold rxFrameEligible at hgone ⊢
  split at hgone
  · rw [hold] at hgone
    cases hgone
  · rename_i hip
    simp only [hip, if_false] at hgone ⊢
    exact DeadlineTable.find_cleared hold hgone

theorem rxFirstEligible_cleared {b : RxBlock} {reads : Nat} {s : Fin AUN_RX_DEFER_SLOTS}
    (hold : (b.defer s).valid = true)
    (hgone : ((rxFirstEligible T.now b reads).block.defer s).valid = false) :
    ∃ k, reads ≤ k ∧ k < (rxFirstEligible T.now b reads).reads ∧
      reached (T.now k) (b.defer s).due = true := by
  cases hoff : (rxFirstEligible T.now b reads).off with
  | none =>
    have hblock : (rxFirstEligible T.now b reads).block = b := (rxScan_none T.now _ _ _ _ hoff).2.1
    rw [hblock, hold] at hgone
    cases hgone
  | some off =>
    obtain ⟨-, -, -, helig⟩ := rxScan_some T.now _ _ _ _ _ hoff
    have hgone' : ((rxFrameEligible T.now b (b.frameAt off) (reads + (off - 0))).2.1.defer s).valid =
        false := by
      rw [helig]
      exact hgone
    obtain ⟨hr, hreads⟩ := rxFrameEligible_cleared hold hgone'
    rw [helig] at hreads
    refine ⟨reads + (off - 0), by omega, ?_, hr⟩
    change (rxFirstEligible T.now b reads).reads = _ at hreads
    omega

theorem collectScan_cleared {e : Engine} {i : Fin AUN_RX_BLOCKS} {s : Fin AUN_RX_DEFER_SLOTS}
    (hold : ((e.rx i).defer s).valid = true)
    (hgone : ((collectScan T e i).block.defer s).valid = false) :
    ∃ k, e.io.reads ≤ k ∧ k < (collectScan T e i).reads ∧
      reached (T.now k) ((e.rx i).defer s).due = true := by
  unfold collectScan at hgone ⊢
  split at hgone
  · rw [hold] at hgone
    cases hgone
  · rename_i hp
    simp only [hp] at hgone ⊢
    exact rxFirstEligible_cleared T hold hgone

theorem collectScan_defer {e : Engine} {i : Fin AUN_RX_BLOCKS} {s : Fin AUN_RX_DEFER_SLOTS}
    (h : ((collectScan T e i).block.defer s).valid = true) :
    (collectScan T e i).block.defer s = (e.rx i).defer s := by
  unfold collectScan at h ⊢
  split at h
  · rename_i hp
    simp [hp]
  · rename_i hp
    simp only [hp] at h ⊢
    exact rxScan_defer T.now h

theorem NoSteal.of_update {e e' : Engine} {i : Fin AUN_RX_BLOCKS} {b : RxBlock}
    (hrx : e'.rx = Function.update e.rx i b)
    (hb : ∀ s, (b.defer s).valid = true → b.defer s = (e.rx i).defer s) : NoSteal T e e' := by
  intro j s hold hnew hkey
  rw [hrx] at hnew hkey
  by_cases hj : j = i
  · subst hj
    rw [Function.update_self] at hnew hkey
    rw [hb s hnew] at hkey
    exact absurd rfl hkey
  · rw [Function.update_of_ne hj] at hkey
    exact absurd rfl hkey

theorem NoSteal.of_same {e e' : Engine} (hrx : e'.rx = e.rx) : NoSteal T e e' := by
  intro j s _ _ hkey
  rw [hrx] at hkey
  exact absurd rfl hkey

theorem RxStep.noSteal {e e' : Engine} {op : Op} (hs : RxStep T e op e') (hinv : RxInv e) :
    NoSteal T e e' := by
  have hremoved : ∀ {i off} s, ((rxRemoveAt (collectScan T e i).block off).unpresented.defer s).valid =
      true → (rxRemoveAt (collectScan T e i).block off).unpresented.defer s = (e.rx i).defer s := by
    intro i off s h
    have heq : (rxRemoveAt (collectScan T e i).block off).unpresented.defer =
        (collectScan T e i).block.defer := (rxRemoveAt_rest _ _).2.2.2
    rw [heq] at h ⊢
    exact collectScan_defer T h
  cases hs with
  | kept hsame => exact .of_same T hsame.rx
  | reset hrx =>
    intro j s _ hnew
    rw [hrx] at hnew
    cases hnew
  | mapped hrx => exact .of_same T hrx
  | opened hi hbuf hsize hrx => exact .of_update T hrx fun s h => by cases h
  | closed hi hrx => exact .of_update T hrx fun s h => by cases h
  | presented hi hcount hpres hoff hrx => exact .of_update T hrx fun s h => rxScan_defer T.now h
  | counted hi hrx =>
    refine .of_update T hrx ?_
    obtain ⟨t, ht, hclear⟩ := rxCountReady_block T.now (e.rx _).count 0 (e.rx _) e.io.reads
    rw [ht]
    exact hclear
  | idle hi hnone hrx => exact .of_update T hrx fun s _ => rfl
  | accepted hc hrx => exact .of_update T hrx hremoved
  | dropped hc hip hrx => exact .of_update T hrx hremoved
  | shed hc hip hbudget hrx => exact .of_update T hrx hremoved
  | @deferred _ i off f _ hc hip hbudget hrx hmap hcond hreads =>
    intro j s hold hnew hkey
    rw [hrx] at hnew hkey
    by_cases hj : j = i
    swap
    · rw [Function.update_of_ne hj] at hkey
      exact absurd rfl hkey
    subst hj
    rw [Function.update_self] at hnew hkey
    have hfound := DeadlineTable.find_reads_le T.now e.condemned f.stream (collectScan T e j).reads
    have hplace := DeadlineTable.place_reads_le T.now (collectScan T e j).block.defer
      ((collectScan T e j).block.frameAt off).stream ((collectCondemned T e j f.stream).reads + 1)
    have hscan := collectScan_reads T e j
    change (collectScan T e j).reads ≤ (collectCondemned T e j f.stream).reads at hfound
    change _ ≤ (deferSlot T (collectScan T e j).block off
      (collectCondemned T e j f.stream).reads).2 at hplace
    have hdefer : (deferredBlock T (collectScan T e j).block off
        (collectCondemned T e j f.stream).reads).unpresented.defer = Function.update
          (collectScan T e j).block.defer (deferSlot T (collectScan T e j).block off
            (collectCondemned T e j f.stream).reads).1
          ⟨true, ((collectScan T e j).block.frameAt off).stream,
            T.now (collectCondemned T e j f.stream).reads + AUN_DEFER_DELAY_MS⟩ := rfl
    rw [hdefer] at hnew hkey
    cases hmid : ((collectScan T e j).block.defer s).valid with
    | false =>
      -- the scan that chose the frame has already cleared it
      obtain ⟨k, hk1, hk2, hr⟩ := collectScan_cleared T hold hmid
      exact ⟨k, hk1, by omega, hr⟩
    | true =>
      have hsame := collectScan_defer T hmid
      by_cases hslot : s = (deferSlot T (collectScan T e j).block off
          (collectCondemned T e j f.stream).reads).1
      swap
      · rw [Function.update_of_ne hslot, hsame] at hkey
        exact absurd rfl hkey
      · rw [← hslot, Function.update_self, ← hsame] at hkey
        rcases (collectScan_inv T (hinv.blocks j)).place_not_live T
          (collectScan_free T (hinv.blocks j) hc.found).queued
          ((collectCondemned T e j f.stream).reads + 1) with hfree | hown | ⟨k, hk1, hk2, hr⟩
        · have hfree' : ((collectScan T e j).block.defer s).valid = false := hslot ▸ hfree
          rw [hmid] at hfree'
          cases hfree'
        · have hown' : ((collectScan T e j).block.defer s).key = _ := hslot ▸ hown
          exact absurd hown'.symm hkey
        · have hr' : reached (T.now k) ((collectScan T e j).block.defer s).due = true := hslot ▸ hr
          rw [hsame] at hr'
          exact ⟨k, by omega, by rw [hreads]; exact hk2, hr'⟩
  | learned hd hrx => exact .of_same T hrx
  | arrived hd hm hnew hdup hst hrx => exact .of_update T hrx fun s _ => rfl
  | arrivedLocal hst hrx => exact .of_update T hrx fun s _ => rfl

/-! ### Presented frames in the caller's buffers -/

def Op.replySpan : Op → Nat × Nat
  | .immediate _ _ _ _ replyBuf replyMax => (replyBuf, replyMax)
  | _ => (0, 0)

/-- The buffers in use when a call is made do not overlap: those of the open blocks, the
    reply buffer of the pending transmit, and the one passed with the call itself. -/
structure BuffersApart (e : Engine) (op : Op) : Prop where
  blocks : ∀ i j, i ≠ j → (e.rx i).isOpen = true → (e.rx j).isOpen = true →
    Apart (e.rx i).buf (e.rx i).bufSize (e.rx j).buf (e.rx j).bufSize
  pending : ∀ i, (e.rx i).isOpen = true → e.tx.state = .pending → e.tx.replyBuf ≠ 0 →
    Apart (e.rx i).buf (e.rx i).bufSize e.tx.replyBuf e.tx.replyMax
  passed : ∀ i, (e.rx i).isOpen = true → op.replySpan.1 ≠ 0 →
    Apart (e.rx i).buf (e.rx i).bufSize op.replySpan.1 op.replySpan.2

instance (a n b m : Nat) : Decidable (Apart a n b m) := inferInstanceAs (Decidable (_ ∨ _))

instance (e : Engine) (op : Op) : Decidable (BuffersApart e op) :=
  decidable_of_iff
    ((∀ i j, i ≠ j → (e.rx i).isOpen = true → (e.rx j).isOpen = true →
        Apart (e.rx i).buf (e.rx i).bufSize (e.rx j).buf (e.rx j).bufSize) ∧
      (∀ i, (e.rx i).isOpen = true → e.tx.state = .pending → e.tx.replyBuf ≠ 0 →
        Apart (e.rx i).buf (e.rx i).bufSize e.tx.replyBuf e.tx.replyMax) ∧
      ∀ i, (e.rx i).isOpen = true → op.replySpan.1 ≠ 0 →
        Apart (e.rx i).buf (e.rx i).bufSize op.replySpan.1 op.replySpan.2)
    ⟨fun h => ⟨h.1, h.2.1, h.2.2⟩, fun h => ⟨h.blocks, h.pending, h.passed⟩⟩

def Readable (e : Engine) : Prop :=
  ∀ i, (e.rx i).presented = true →
    readMem e.io.mem (e.rx i).buf ((e.rx i).frameAt (e.rx i).presOff).len =
      ((e.rx i).frameAt (e.rx i).presOff).data

structure StillPresents (b b' : RxBlock) : Prop where
  presented : b.presented = true
  buf : b'.buf = b.buf
  frame : b'.frameAt b'.presOff = b.frameAt b.presOff

theorem StillPresents.refl {b : RxBlock} (h : b.presented = true) : StillPresents b b := ⟨h, rfl, rfl⟩

theorem stillPresents_update {e : Engine} {i j : Fin AUN_RX_BLOCKS} {b : RxBlock}
    (hb : b.presented = true → StillPresents (e.rx i) b)
    (h : (Function.update e.rx i b j).presented = true) :
    StillPresents (e.rx j) (Function.update e.rx i b j) := by
  by_cases hj : j = i
  · subst hj
    rw [Function.update_self] at h ⊢
    exact hb h
  · rw [Function.update_of_ne hj] at h ⊢
    exact .refl h

theorem RxStep.stillPresents {e e' : Engine} {op : Op} (hs : RxStep T e op e') (hinv : RxInv e)
    (hop : (∀ handle, op ≠ .rxPoll handle) ∨ e'.rx = e.rx) (j : Fin AUN_RX_BLOCKS)
    (h : (e'.rx j).presented = true) : StillPresents (e.rx j) (e'.rx j) := by
  have hsame : e'.rx = e.rx → StillPresents (e.rx j) (e'.rx j) := by
    intro hrx
    rw [hrx] at h ⊢
    exact .refl h
  have hpush : ∀ {i f}, (e.rx i).count < AUN_RX_QUEUE →
      e'.rx = Function.update e.rx i ((e.rx i).push f) → StillPresents (e.rx j) (e'.rx j) := by
    intro i f hroom hrx
    rw [hrx] at h ⊢
    refine stillPresents_update (fun hp => ⟨hp, rfl, ?_⟩) h
    exact RxBlock.push_frameAt f ((hinv.blocks i).presOff hp) hroom
  have hunpres : ∀ {i b}, e'.rx = Function.update e.rx i (RxBlock.unpresented b) →
      StillPresents (e.rx j) (e'.rx j) := by
    intro i b hrx
    rw [hrx] at h ⊢
    refine stillPresents_update (fun hp => ?_) h
    simp at hp
  rcases hop with hop | hrx
  swap
  · exact hsame hrx
  cases hs with
  | kept hk => exact hsame hk.rx
  | reset hrx =>
    rw [hrx] at h
    cases h
  | mapped hrx => exact hsame hrx
  | opened hi hbuf hsize hrx =>
    rw [hrx] at h ⊢
    exact stillPresents_update (fun hp => by cases hp) h
  | closed hi hrx =>
    rw [hrx] at h ⊢
    exact stillPresents_update (fun hp => by cases hp) h
  | presented hi hcount hpres hoff hrx => exact absurd rfl (hop _)
  | counted hi hrx =>
    obtain ⟨t, ht, -⟩ := rxCountReady_block T.now (e.rx _).count 0 (e.rx _) e.io.reads
    rw [hrx, ht] at h ⊢
    exact stillPresents_update (fun hp => ⟨hp, rfl, rfl⟩) h
  | idle hi hnone hrx => exact hunpres hrx
  | accepted hc hrx => exact hunpres hrx
  | dropped hc hip hrx => exact hunpres hrx
  | shed hc hip hbudget hrx => exact hunpres hrx
  | deferred hc hip hbudget hrx => exact hunpres hrx
  | learned hd hrx => exact hsame hrx
  | arrived hd hm hnew hdup hst hrx => exact hpush hst.room hrx
  | arrivedLocal hst hrx => exact hpush hst.room hrx

theorem BlockInv.isOpen_of_presented {b : RxBlock} (h : BlockInv b) (hp : b.presented = true) :
    b.isOpen = true := by
  cases ho : b.isOpen with
  | true => rfl
  | false =>
    have := h.presOff hp
    have := h.closed ho
    omega

theorem BlockInv.presented_len {b : RxBlock} (h : BlockInv b) (hp : b.presented = true) :
    (b.frameAt b.presOff).len ≤ b.bufSize :=
  (h.frames _ (b.frameAt_mem (h.presOff hp))).1

theorem Readable.survives {e e' : Engine} {i : Fin AUN_RX_BLOCKS} {addr : Nat} {bytes : List UInt8}
    (h : Readable e) (hinv : RxInv e) (hstill : StillPresents (e.rx i) (e'.rx i))
    (hmem : e'.io.mem = writeMem e.io.mem addr bytes)
    (hapart : Apart (e.rx i).buf (e.rx i).bufSize addr bytes.length) :
    readMem e'.io.mem (e'.rx i).buf ((e'.rx i).frameAt (e'.rx i).presOff).len =
      ((e'.rx i).frameAt (e'.rx i).presOff).data := by
  have hlen := (hinv.blocks i).presented_len hstill.presented
  rw [hmem, hstill.buf, hstill.frame, readMem_writeMem_apart _ (hapart.mono hlen (Nat.le_refl _))]
  exact h i hstill.presented

theorem Readable.preserved {e : Engine} {op : Op} (h : Readable e) (hinv : RxInv e)
    (hapart : BuffersApart e op) : Readable (exec T e op).2 := by
  have hrx := exec_rx T e op
  have hopen : ∀ j, (e.rx j).presented = true → (e.rx j).isOpen = true :=
    fun j hp => (hinv.blocks j).isOpen_of_presented hp
  intro j hj
  cases exec_mem T e op with
  | kept hmem hop =>
    have hstill := hrx.stillPresents T hinv hop j hj
    rw [hmem, hstill.buf, hstill.frame]
    exact h j hstill.presented
  | @presented handle i off _ hi hoff hrx' hmem =>
    have hfree := rxFirstEligible_free T (hinv.blocks i) hoff
    have hblock : (rxFirstEligible T.now (e.rx i) e.io.reads).block = _ :=
      rxScan_block T.now (e.rx i).count 0 (e.rx i) e.io.reads
    have hqueued : off < (e.rx i).count := by
      have hq := hfree.queued
      rw [hblock] at hq
      exact hq
    by_cases hji : j = i
    · -- the frame just copied
      subst hji
      have hb : (exec T e (.rxPoll handle)).2.rx j =
          { (rxFirstEligible T.now (e.rx j) e.io.reads).block with
            presOff := off, presented := true } := by
        rw [hrx']
        exact Function.update_self _ _ _
      rw [hmem, hb, hblock]
      exact readMem_writeMem_self _ _ _
    · have hb : (exec T e (.rxPoll handle)).2.rx j = e.rx j := by
        rw [hrx']
        exact Function.update_of_ne hji _ _
      rw [hb] at hj
      have hlen := ((hinv.blocks i).frames _ ((e.rx i).frameAt_mem hqueued)).1
      exact h.survives hinv (by rw [hb]; exact .refl hj) hmem
        ((hapart.blocks j i hji (hopen j hj) (openBlock_isOpen hi)).mono (Nat.le_refl _) hlen)
  | replied hpend hbuf hlen hmem =>
    have hstill := hrx.stillPresents T hinv (Or.inl (by simp)) j hj
    exact h.survives hinv hstill hmem
      ((hapart.pending j (hopen j hstill.presented) hpend hbuf).mono (Nat.le_refl _) hlen)
  | looped hbuf hlen hmem =>
    have hstill := hrx.stillPresents T hinv (Or.inl (by simp)) j hj
    exact h.survives hinv hstill hmem
      ((hapart.passed j (hopen j hstill.presented) hbuf).mono (Nat.le_refl _) hlen)

theorem readable_run (mem : Nat → UInt8) (station net : UInt8) (ops : List Op)
    (hapart : ∀ st ∈ runSteps T mem station net ops, BuffersApart st.pre st.op) :
    Readable (runState T mem station net ops) := by
  induction ops using List.reverseRecOn with
  | nil => intro i hp; cases hp
  | append_singleton ops op ih =>
    rw [runSteps_snoc] at hapart
    have hprev := ih fun st hst => hapart st (List.mem_append_left _ hst)
    have hnow := hapart _ (List.mem_append_right _ (List.mem_singleton.mpr rfl))
    have hstep := Readable.preserved T (e := (runState T mem station net ops).beginCall) hprev
      (rxInv_run T mem station net ops).beginCall ⟨hnow.blocks, hnow.pending, hnow.passed⟩
    rw [runState_snoc]
    exact hstep

/-! ### Immediates -/

theorem himmPayload_length {e : Engine} {fromData : Bool} {ctrl : UInt8} {data : List UInt8}
    (h : himmWanted e fromData ctrl data = true) :
    (himmPayload fromData ctrl data).length ≤ AUN_HIMM_MAX := by
  cases fromData with
  | false =>
    simp only [himmWanted, immWanted, Bool.false_eq_true, if_false, Bool.and_eq_true,
      decide_eq_true_eq] at h
    exact h.1.2
  | true =>
    simp only [himmWanted, imm4Wanted, imm4LenOk, imm4HoldLen, if_true, Bool.and_eq_true] at h
    obtain ⟨⟨-, hok⟩, hlen⟩ := h
    simp only [himmPayload, imm4Held, if_true]
    by_cases hpoke : ctrl = AUN_CTRL_POKE
    · simp only [hpoke, if_true, decide_eq_true_eq] at hok hlen ⊢
      rw [if_neg (by omega)] at hlen
      simp only [List.length_append, List.length_take, List.length_drop]
      omega
    · simp only [hpoke, if_false, decide_eq_true_eq] at hlen ⊢
      exact hlen

def HimmInv (e : Engine) : Prop := e.himm.len ≤ AUN_HIMM_MAX ∧ e.himmCache.len ≤ AUN_HIMM_MAX

theorem outcome_len (h : HostImm) (isNak : Bool) (data : List UInt8) (now : UInt32) :
    (h.outcome isNak data now).len ≤ AUN_HIMM_MAX := by
  cases isNak with
  | true => exact Nat.zero_le _
  | false =>
    change (data.take AUN_HIMM_MAX).length ≤ AUN_HIMM_MAX
    rw [List.length_take]
    exact Nat.min_le_left _ _

theorem HimmStep.lens {e e' : Engine} {op : Op} (hs : HimmStep T e op e') (h : HimmInv e) :
    HimmInv e' := by
  cases hs with
  | kept hsame => exact ⟨by rw [hsame.himm]; exact h.1, by rw [hsame.cache]; exact h.2⟩
  | reset hhimm hcache =>
    exact ⟨by rw [hhimm]; exact Nat.zero_le _, by rw [hcache]; exact Nat.zero_le _⟩
  | switched hhimm hcache => exact ⟨by rw [hhimm]; exact h.1, by rw [hcache]; exact h.2⟩
  | replied _ hhimm hcache =>
    exact ⟨by rw [hhimm]; exact h.1, by rw [hcache]; exact outcome_len _ _ _ _⟩
  | reaped _ _ hhimm hcache =>
    exact ⟨by rw [hhimm]; exact h.1, by rw [hcache]; exact outcome_len _ _ _ _⟩
  | held hd hwant _ _ hhimm hcache =>
    exact ⟨by rw [hhimm]; exact himmPayload_length hwant, by rw [hcache]; exact h.2⟩
  | replayed _ _ _ _ hhimm hcache => exact ⟨by rw [hhimm]; exact h.1, by rw [hcache]; exact h.2⟩

theorem himmInv_run (mem : Nat → UInt8) (station net : UInt8) (ops : List Op) :
    HimmInv (runState T mem station net ops) :=
  History.final_induction (step T) HimmInv ⟨Nat.zero_le _, Nat.zero_le _⟩
    (fun e op h => (step_himm T e op).lens T h) ops

/-- The representation invariant of every reachable state; the frames a block presents
    are in its buffer as long as the buffers in use stay apart. -/
theorem representation_invariant (mem : Nat → UInt8) (station net : UInt8) (ops : List Op) :
    RxInv (runState T mem station net ops) ∧ HimmInv (runState T mem station net ops) ∧
      (∀ op, NoSteal T (runState T mem station net ops) (step T (runState T mem station net ops) op)) ∧
      ((∀ st ∈ runSteps T mem station net ops, BuffersApart st.pre st.op) →
        Readable (runState T mem station net ops)) := by
  have hinv := rxInv_run T mem station net ops
  exact ⟨hinv, himmInv_run T mem station net ops,
    fun op => (step_rx T (runState T mem station net ops) op).noSteal T hinv.beginCall,
    readable_run T mem station net ops⟩

/-- Two blocks on buffers of their own present a frame each. -/
theorem representation_invariant_two_blocks :
    Readable (runState .steady (fun _ => 0) 1 0
      [.mapAdd 0 5 0x0100007F 0, .rxOpen 0 0x99 0xFF 0xFF 1000 16,
        .rxOpen 1 0xD1 0xFF 0xFF 2000 16,
        .udpInput 0x0100007F 32768 [2, 0x99, 0, 0, 4, 0, 0, 0, 7],
        .udpInput 0x0100007F 32768 [2, 0xD1, 0, 0, 8, 0, 0, 0, 9], .rxPoll 0, .rxPoll 1]) := by
  refine (representation_invariant .steady (fun _ => 0) 1 0 _).2.2.2 ?_
  decide +kernel

/-- Both blocks are opened on one buffer and present a frame each: the first frame is no
    longer in the buffer of its block. -/
theorem shared_buffer_unreadable :
    ¬Readable (runState .steady (fun _ => 0) 1 0
      [.mapAdd 0 5 0x0100007F 0, .rxOpen 0 0x99 0xFF 0xFF 1000 16,
        .rxOpen 1 0xD1 0xFF 0xFF 1000 16,
        .udpInput 0x0100007F 32768 [2, 0x99, 0, 0, 4, 0, 0, 0, 7],
        .udpInput 0x0100007F 32768 [2, 0xD1, 0, 0, 8, 0, 0, 0, 9], .rxPoll 0, .rxPoll 1]) := by
  unfold Readable
  decide +kernel

end Pi1MHz.Aun
