import Pi1MHz.AunFrame
import Pi1MHz.FinSizes

/-!
# The receive queues as lists

What the receive functions do to a block, seen through `RxBlock.queue`: a scan only
expires deferrals, a removal erases one offset, a reject rewrites one frame, and a
staged arrival is appended.
-/

namespace Pi1MHz.Aun

open FinSizes

open DeadlineTable (Entry own Unique)
open WrapClock (reached)

@[simps -fullyApplied] def RxBlock.withDefer (b : RxBlock) (t : Fin AUN_RX_DEFER_SLOTS → Entry Stream) :
    RxBlock :=
  { b with defer := t }

@[simp] theorem RxBlock.length_queue (b : RxBlock) : b.queue.length = b.count :=
  RingQueue.length_contents _ _ _

theorem RxBlock.getElem?_queue (b : RxBlock) (off : Nat) :
    b.queue[off]? = if off < b.count then some (b.frameAt off) else none :=
  RingQueue.getElem?_contents _ _ _ _

theorem RxBlock.frameAt_mem (b : RxBlock) {off : Nat} (h : off < b.count) :
    b.frameAt off ∈ b.queue :=
  RingQueue.mem_contents.mpr ⟨off, h, rfl⟩

theorem RxBlock.mem_queue {b : RxBlock} {f : RxFrame} :
    f ∈ b.queue ↔ ∃ off < b.count, b.frameAt off = f :=
  RingQueue.mem_contents

theorem openBlock_isOpen {e : Engine} {handle : UInt8} {i : Fin AUN_RX_BLOCKS}
    (h : openBlock e handle = some i) : (e.rx i).isOpen = true := by
  unfold openBlock at h
  cases hh : rxHandle handle with
  | none => rw [hh] at h; cases h
  | some j =>
    simp only [hh] at h
    split at h
    · rename_i ho
      simp only [Option.some.injEq] at h
      exact h ▸ ho
    · cases h

/-! ### Eligibility and the scan -/

section

variable (now : Nat → UInt32)

/-- At clock read `k` the stream of frame `f` is under a live deferral. -/
def Deferred (b : RxBlock) (f : RxFrame) (k : Nat) : Prop :=
  f.srcIpBe ≠ 0 ∧ ∃ s, own b.defer f.stream = some s ∧ reached (now k) (b.defer s).due = false

instance (b : RxBlock) (f : RxFrame) (k : Nat) : Decidable (Deferred now b f k) :=
  inferInstanceAs (Decidable (_ ∧ _))

theorem rxFrameEligible_block (b : RxBlock) (f : RxFrame) (k : Nat) :
    (rxFrameEligible now b f k).2.1 = b.withDefer (rxFrameEligible now b f k).2.1.defer := by
  unfold rxFrameEligible
  split <;> rfl

theorem rxFrameEligible_false {b : RxBlock} {f : RxFrame} {k : Nat}
    (h : (rxFrameEligible now b f k).1 = false) :
    Deferred now b f k ∧ (rxFrameEligible now b f k).2 = (b, k + 1) := by
  unfold rxFrameEligible at h ⊢
  split at h
  · simp at h
  · rename_i hip
    cases hhit : (deferFind now b f.stream k).hit with
    | none => simp [hhit] at h
    | some s =>
      obtain ⟨hown, hlive, htable, hreads⟩ := DeadlineTable.find_hit hhit
      refine ⟨⟨hip, s, hown, hlive⟩, ?_⟩
      simp only [hip, if_false, deferFind, htable, hreads]

theorem rxFrameEligible_of_deferred {b : RxBlock} {f : RxFrame} {k : Nat}
    (h : Deferred now b f k) : (rxFrameEligible now b f k).1 = false := by
  obtain ⟨hip, s, hown, hlive⟩ := h
  simp [rxFrameEligible, hip, deferFind, DeadlineTable.find, hown, hlive]

theorem rxFrameEligible_true {b : RxBlock} {f : RxFrame} {k : Nat} (hu : Unique b.defer)
    (h : (rxFrameEligible now b f k).1 = true) (hip : f.srcIpBe ≠ 0) :
    own (rxFrameEligible now b f k).2.1.defer f.stream = none := by
  simp only [rxFrameEligible, hip, if_false] at h ⊢
  exact DeadlineTable.find_absent hu (Option.isNone_iff_eq_none.mp h)

theorem rxFrameEligible_defer {b : RxBlock} {f : RxFrame} {k : Nat} {s}
    (h : ((rxFrameEligible now b f k).2.1.defer s).valid = true) :
    (rxFrameEligible now b f k).2.1.defer s = b.defer s := by
  unfold rxFrameEligible at h ⊢
  split at h
  · rename_i hip
    simp [hip]
  · rename_i hip
    simp only [hip, if_false]
    exact DeadlineTable.find_table h

theorem rxFrameEligible_reads (b : RxBlock) (f : RxFrame) (k : Nat) :
    k ≤ (rxFrameEligible now b f k).2.2 := by
  unfold rxFrameEligible
  split
  · exact Nat.le_refl _
  · exact DeadlineTable.find_reads_le _ _ _ _

theorem rxScan_none : ∀ (left i : Nat) (b : RxBlock) (k : Nat),
    (rxScan now left i b k).off = none →
      (∀ j, i ≤ j → j < i + left → Deferred now b (b.frameAt j) (k + (j - i))) ∧
        (rxScan now left i b k).block = b ∧ (rxScan now left i b k).reads = k + left := by
  intro left
  induction left with
  | zero =>
    intro i b k _
    exact ⟨fun j h1 h2 => by omega, rfl, rfl⟩
  | succ left ih =>
    intro i b k h
    rw [rxScan] at h ⊢
    cases he : (rxFrameEligible now b (b.frameAt i) k).1 with
    | true => simp [he] at h
    | false =>
      obtain ⟨hdef, hsame⟩ := rxFrameEligible_false now he
      simp only [he, hsame, Bool.false_eq_true, if_false] at h ⊢
      obtain ⟨hrest, hblock, hreads⟩ := ih (i + 1) b (k + 1) h
      refine ⟨?_, hblock, by omega⟩
      intro j h1 h2
      by_cases hij : j = i
      · subst hij
        simpa using hdef
      · have hk : k + (j - i) = k + 1 + (j - (i + 1)) := by omega
        rw [hk]
        exact hrest j (by omega) (by omega)

/-- A scan that stops at `off` has seen every frame before it under a live deferral,
    one clock read each, and was left with what looking at that frame left. -/
theorem rxScan_some : ∀ (left i : Nat) (b : RxBlock) (k off : Nat),
    (rxScan now left i b k).off = some off →
      i ≤ off ∧ off < i + left ∧
      (∀ j, i ≤ j → j < off → Deferred now b (b.frameAt j) (k + (j - i))) ∧
      rxFrameEligible now b (b.frameAt off) (k + (off - i)) =
        (true, (rxScan now left i b k).block, (rxScan now left i b k).reads) := by
  intro left
  induction left with
  | zero => intro i b k off h; simp [rxScan] at h
  | succ left ih =>
    intro i b k off h
    rw [rxScan] at h ⊢
    cases he : (rxFrameEligible now b (b.frameAt i) k).1 with
    | true =>
      simp only [he, if_true, Option.some.injEq] at h ⊢
      subst h
      refine ⟨Nat.le_refl _, by omega, fun j h1 h2 => by omega, ?_⟩
      rw [Nat.sub_self, Nat.add_zero, ← he]
    | false =>
      obtain ⟨hdef, hsame⟩ := rxFrameEligible_false now he
      simp only [he, hsame, Bool.false_eq_true, if_false] at h ⊢
      obtain ⟨h1, h2, hrest, helig⟩ := ih (i + 1) b (k + 1) off h
      refine ⟨by omega, by omega, ?_, ?_⟩
      · intro j hj1 hj2
        by_cases hij : j = i
        · subst hij
          simpa using hdef
        · have hk : k + (j - i) = k + 1 + (j - (i + 1)) := by omega
          rw [hk]
          exact hrest j (by omega) hj2
      · have hk : k + (off - i) = k + 1 + (off - (i + 1)) := by omega
        rw [hk]
        exact helig

theorem rxScan_block (left i : Nat) (b : RxBlock) (k : Nat) :
    (rxScan now left i b k).block = b.withDefer (rxScan now left i b k).block.defer := by
  cases h : (rxScan now left i b k).off with
  | none =>
    rw [(rxScan_none now left i b k h).2.1]
    rfl
  | some off =>
    obtain ⟨-, -, -, helig⟩ := rxScan_some now left i b k off h
    have hb := rxFrameEligible_block now b (b.frameAt off) (k + (off - i))
    rw [helig] at hb
    exact hb

theorem rxScan_defer {left i : Nat} {b : RxBlock} {k : Nat} {s}
    (h : ((rxScan now left i b k).block.defer s).valid = true) :
    (rxScan now left i b k).block.defer s = b.defer s := by
  cases ho : (rxScan now left i b k).off with
  | none => rw [(rxScan_none now left i b k ho).2.1]
  | some off =>
    obtain ⟨-, -, -, helig⟩ := rxScan_some now left i b k off ho
    have hd := rxFrameEligible_defer now (b := b) (f := b.frameAt off) (k := k + (off - i)) (s := s)
    rw [helig] at hd
    exact hd h

theorem rxScan_reads (left i : Nat) (b : RxBlock) (k : Nat) : k ≤ (rxScan now left i b k).reads := by
  cases h : (rxScan now left i b k).off with
  | none =>
    have := (rxScan_none now left i b k h).2.2
    omega
  | some off =>
    obtain ⟨-, -, -, helig⟩ := rxScan_some now left i b k off h
    have hr := rxFrameEligible_reads now b (b.frameAt off) (k + (off - i))
    rw [helig] at hr
    dsimp only at hr
    omega

end

theorem rxRemoveAt_queue {b : RxBlock} {off : Nat} (hoff : off < b.count)
    (hcap : b.count ≤ AUN_RX_QUEUE) : (rxRemoveAt b off).queue = b.queue.eraseIdx off := by
  unfold rxRemoveAt
  split
  · rename_i h0
    subst h0
    exact RingQueue.contents_pop b.q b.head b.count
  · exact RingQueue.contents_shiftDown b.q hoff hcap

@[simp] theorem rxRemoveAt_count (b : RxBlock) (off : Nat) :
    (rxRemoveAt b off).count = b.count - 1 := by
  unfold rxRemoveAt
  split <;> rfl

theorem rxRemoveAt_head_lt {b : RxBlock} (off : Nat) (h : b.head < AUN_RX_QUEUE) :
    (rxRemoveAt b off).head < AUN_RX_QUEUE := by
  unfold rxRemoveAt
  split
  · exact Nat.mod_lt _ (by decide)
  · exact h

theorem rxRemoveAt_rest (b : RxBlock) (off : Nat) :
    (rxRemoveAt b off).isOpen = b.isOpen ∧ (rxRemoveAt b off).bufSize = b.bufSize ∧
      (rxRemoveAt b off).buf = b.buf ∧ (rxRemoveAt b off).defer = b.defer := by
  unfold rxRemoveAt
  split <;> exact ⟨rfl, rfl, rfl, rfl⟩

/-! ### Arrival -/

@[simps -fullyApplied] def RxBlock.push (b : RxBlock) (f : RxFrame) : RxBlock :=
  { b with
    q := Function.update b.q (RingQueue.slot AUN_RX_QUEUE b.head b.count) f
    count := b.count + 1 }

theorem RxBlock.push_queue {b : RxBlock} (f : RxFrame) (hroom : b.count < AUN_RX_QUEUE) :
    (b.push f).queue = b.queue ++ [f] :=
  RingQueue.contents_push b.q f hroom

theorem RxBlock.push_frameAt {b : RxBlock} (f : RxFrame) {off : Nat} (hoff : off < b.count)
    (hroom : b.count < AUN_RX_QUEUE) : (b.push f).frameAt off = b.frameAt off := by
  apply Function.update_of_ne
  intro h
  have := RingQueue.slot_inj (by omega) hroom h
  omega

theorem rxMatchFrom_some {e : Engine} {port srcStn srcNet : UInt8} {i : Fin AUN_RX_BLOCKS} :
    ∀ (blocks : List (Fin AUN_RX_BLOCKS)) (sawFull : Bool),
      (rxMatchFrom e port srcStn srcNet blocks sawFull).1 = some i →
        (e.rx i).accepts port srcStn srcNet = true ∧ (e.rx i).count < AUN_RX_QUEUE := by
  intro blocks
  induction blocks with
  | nil => intro sawFull h; simp [rxMatchFrom] at h
  | cons j blocks ih =>
    intro sawFull h
    rw [rxMatchFrom] at h
    split at h
    · exact ih _ h
    · rename_i hacc
      split at h
      · exact ih _ h
      · rename_i hroom
        simp only [Option.some.injEq] at h
        subst h
        exact ⟨by simpa using hacc, by omega⟩

structure Staged (e : Engine) (i : Fin AUN_RX_BLOCKS) (f : RxFrame) : Prop where
  matched : (rxMatch e f.port f.srcStn f.srcNet).1 = some i
  fits : f.len ≤ (e.rx i).bufSize
  max : f.len ≤ AUN_MAX_DATA
  fresh : f.rejects = 0

theorem Staged.accepts {e : Engine} {i : Fin AUN_RX_BLOCKS} {f : RxFrame} (h : Staged e i f) :
    (e.rx i).accepts f.port f.srcStn f.srcNet = true :=
  (rxMatchFrom_some _ _ h.matched).1

theorem Staged.room {e : Engine} {i : Fin AUN_RX_BLOCKS} {f : RxFrame} (h : Staged e i f) :
    (e.rx i).count < AUN_RX_QUEUE :=
  (rxMatchFrom_some _ _ h.matched).2

theorem Staged.isOpen {e : Engine} {i : Fin AUN_RX_BLOCKS} {f : RxFrame} (h : Staged e i f) :
    (e.rx i).isOpen = true := by
  have hacc := h.accepts
  simp only [RxBlock.accepts, Bool.and_eq_true] at hacc
  exact hacc.1.1.1

/-- The frame `rx_deliver` stages, before it has a wire identity. -/
def localFrame (port ctrl srcStn srcNet : UInt8) (data : List UInt8) : RxFrame :=
  ⟨srcStn, srcNet, port, ctrl ||| 0x80, 0, 0, 0, 0, data⟩

theorem rxDeliver_cases (e : Engine) (port ctrl srcStn srcNet : UInt8) (data : List UInt8) :
    (∃ i, Staged e i (localFrame port ctrl srcStn srcNet data) ∧
      rxDeliver e port ctrl srcStn srcNet data =
        (.staged i (RingQueue.slot AUN_RX_QUEUE (e.rx i).head (e.rx i).count),
          e.setBlock i ((e.rx i).push (localFrame port ctrl srcStn srcNet data)))) ∨
    (∃ why c, rxDeliver e port ctrl srcStn srcNet data = (.refused why, e.withCounters c) ∧
      c.txOk = e.counters.txOk ∧ c.txFail = e.counters.txFail ∧
      c.himmReplay = e.counters.himmReplay ∧ c.rxParkedDrop = e.counters.rxParkedDrop) := by
  unfold rxDeliver
  split
  · exact Or.inr ⟨.full, e.counters, rfl, rfl, rfl, rfl, rfl⟩
  · exact Or.inr ⟨.nak, _, rfl, rfl, rfl, rfl, rfl⟩
  · rename_i i full hmatch
    dsimp only
    split_ifs with hbig
    · exact Or.inr ⟨.nak, _, rfl, rfl, rfl, rfl, rfl⟩
    · have hfit : data.length ≤ (e.rx i).bufSize := by omega
      have hmax : data.length ≤ AUN_MAX_DATA := by omega
      refine Or.inl ⟨i, ⟨?_, hfit, hmax, rfl⟩, rfl⟩
      exact congrArg Prod.fst hmatch

end Pi1MHz.Aun
