import Pi1MHz.AunEmulator
import Pi1MHz.AunInvariant

/-!
# The interrupt and the pump

`aun_rx_ready` counts the frames that may be presented, `aun_rx_poll` presents the oldest of them and
remembers it.  Both look at the clock frame by frame, and expire deferrals as they go.
-/

namespace Pi1MHz.Aun

open DeadlineTable (Entry own Unique)
open WrapClock (reached)

/-! ### Frames that may be presented -/

section

variable {b b' : RxBlock} {f : RxFrame} {t : UInt32}

/-- At time `t` nothing keeps the frame back. -/
def Presentable (t : UInt32) (b : RxBlock) (f : RxFrame) : Prop :=
  f.srcIpBe = 0 ∨ ∀ s, own b.defer f.stream = some s → reached t (b.defer s).due = true

/-- Some deferrals that were over at time `t` have been cleared. -/
structure Expired (t : UInt32) (b b' : RxBlock) : Prop where
  rest : b' = b.withDefer b'.defer
  kept : ∀ s, (b'.defer s).valid = true → b'.defer s = b.defer s
  same : ∀ f, Presentable t b' f ↔ Presentable t b f

theorem Expired.refl (t : UInt32) (b : RxBlock) : Expired t b b :=
  ⟨rfl, fun _ _ => rfl, fun _ => Iff.rfl⟩

theorem Expired.trans {b'' : RxBlock} (h : Expired t b b') (h' : Expired t b' b'') : Expired t b b'' := by
  constructor
  · rw [h'.rest, h.rest]
    rfl
  · intro s hs
    have hmid := h'.kept s hs
    rw [hmid] at hs ⊢
    exact h.kept s hs
  · intro f
    exact (h'.same f).trans (h.same f)

theorem Expired.count (h : Expired t b b') : b'.count = b.count := by
  rw [h.rest]
  rfl

theorem Expired.frameAt (h : Expired t b b') (i : Nat) : b'.frameAt i = b.frameAt i := by
  rw [h.rest]
  rfl

theorem Expired.isOpen (h : Expired t b b') : b'.isOpen = b.isOpen := by
  rw [h.rest]
  rfl

theorem Expired.inv (h : Expired t b b') (hb : BlockInv b) : BlockInv b' := by
  rw [h.rest]
  exact hb.withDefer h.kept

theorem BlockInv.presentable (h : BlockInv b) (hp : b.presented = true) (t : UInt32) :
    Presentable t b (b.frameAt b.presOff) := by
  rcases h.presFree hp with hlocal | hnone
  · exact .inl hlocal
  · right
    intro s hs
    rw [hnone] at hs
    cases hs

variable (now : Nat → UInt32) (k : Nat)

theorem rxFrameEligible_iff : (rxFrameEligible now b f k).1 = true ↔ Presentable (now k) b f := by
  unfold Presentable
  constructor
  · intro h
    by_contra hnot
    obtain ⟨hip, hlive⟩ := not_or.mp hnot
    apply hlive
    intro s hs
    by_contra hdue
    have hfalse : (rxFrameEligible now b f k).1 = false :=
      rxFrameEligible_of_deferred now ⟨hip, s, hs, Bool.eq_false_iff.mpr hdue⟩
    rw [hfalse] at h
    cases h
  · intro h
    by_contra hnot
    obtain ⟨⟨hip, s, hown, hlive⟩, -⟩ := rxFrameEligible_false now (Bool.eq_false_iff.mpr hnot)
    rcases h with hlocal | hdue
    · exact hip hlocal
    · rw [hdue s hown] at hlive
      cases hlive

theorem rxFrameEligible_expired (hu : Unique b.defer) :
    Expired (now k) b (rxFrameEligible now b f k).2.1 := by
  refine ⟨rxFrameEligible_block now b f k, fun s hs => rxFrameEligible_defer now hs, ?_⟩
  intro g
  cases he : (rxFrameEligible now b f k).1 with
  | false => rw [(rxFrameEligible_false now he).2]
  | true =>
    by_cases hip : f.srcIpBe = 0
    · simp only [rxFrameEligible, hip, if_true]
    · have hdue := (rxFrameEligible_iff now k).mp he
      have hgone := rxFrameEligible_true now hu he hip
      apply or_congr Iff.rfl
      by_cases hstream : g.stream = f.stream
      · -- its own stream has no deferral left, and had none that was live
        rw [hstream]
        constructor
        · intro _
          exact hdue.resolve_left hip
        · intro _ s hs
          rw [hgone] at hs
          cases hs
      · -- another stream has kept its entry
        have hown : own (rxFrameEligible now b f k).2.1.defer g.stream = own b.defer g.stream := by
          simp only [rxFrameEligible, hip, if_false, deferFind]
          exact DeadlineTable.find_own_other now _ k hstream
        rw [hown]
        constructor
        · intro h s hs
          have hs' := hown.trans hs
          rw [← rxFrameEligible_defer now (DeadlineTable.own_some hs').1]
          exact h s hs
        · intro h s hs
          have hs' := hown.trans hs
          rw [rxFrameEligible_defer now (DeadlineTable.own_some hs').1]
          exact h s hs

/-! ### Scans while the clock stands still -/

/-- Reads `k` to `n` of the clock show the time `t`. -/
def Still (now : Nat → UInt32) (t : UInt32) (k n : Nat) : Prop := ∀ j, k ≤ j → j < n → now j = t

theorem Still.sub {now : Nat → UInt32} {k n k' n' : Nat} (h : Still now t k n) (hk : k ≤ k') (hn : n' ≤ n) :
    Still now t k' n' :=
  fun j hj hlt => h j (Nat.le_trans hk hj) (Nat.lt_of_lt_of_le hlt hn)

theorem deferFind_still {now : Nat → UInt32} {stream : Stream} {k : Nat}
    (h : Still now t k (deferFind now b stream k).reads) :
    deferFind now b stream k = deferFind (fun _ => t) b stream k := by
  cases ho : own b.defer stream with
  | none => simp only [deferFind, DeadlineTable.find, ho]
  | some s =>
    have hread : k < (deferFind now b stream k).reads := by
      simp only [deferFind, DeadlineTable.find, ho]
      split <;> exact Nat.lt_succ_self _
    simp only [deferFind, DeadlineTable.find, ho, h k (Nat.le_refl _) hread]

theorem rxFrameEligible_still {now : Nat → UInt32} {k : Nat}
    (h : Still now t k (rxFrameEligible now b f k).2.2) :
    rxFrameEligible now b f k = rxFrameEligible (fun _ => t) b f k := by
  unfold rxFrameEligible at h ⊢
  by_cases hip : f.srcIpBe = 0
  · simp only [if_pos hip]
  · simp only [if_neg hip] at h ⊢
    rw [deferFind_still h]

theorem rxCountReady_reads (left i : Nat) (b : RxBlock) (k : Nat) : k ≤ (rxCountReady now left i b k).2.2 := by
  induction left generalizing i b k with
  | zero => exact Nat.le_refl _
  | succ left ih => exact Nat.le_trans (rxFrameEligible_reads now b (b.frameAt i) k) (ih _ _ _)

theorem rxFrameEligible_at {now : Nat → UInt32} {k : Nat} (hb : BlockInv b)
    (h : Still now t k (rxFrameEligible now b f k).2.2) :
    ((rxFrameEligible now b f k).1 = true ↔ Presentable t b f) ∧ Expired t b (rxFrameEligible now b f k).2.1 := by
  rw [rxFrameEligible_still h]
  exact ⟨rxFrameEligible_iff (fun _ => t) k, rxFrameEligible_expired (fun _ => t) k hb.unique⟩

/-- Of the places from `i` on the first one has a frame to present, or one of the others has, also when some
deferrals of the block have expired meanwhile. -/
theorem presentable_from {b' : RxBlock} (hexp : Expired t b b') (i left : Nat) :
    (∃ j, i ≤ j ∧ j < i + (left + 1) ∧ Presentable t b (b.frameAt j)) ↔
      Presentable t b (b.frameAt i) ∨ ∃ j, i + 1 ≤ j ∧ j < i + 1 + left ∧ Presentable t b' (b'.frameAt j) := by
  constructor
  · rintro ⟨j, hij, hj, hp⟩
    rcases Nat.eq_or_lt_of_le hij with rfl | hlt
    · exact .inl hp
    · refine .inr ⟨j, hlt, by omega, ?_⟩
      rw [hexp.frameAt, hexp.same]
      exact hp
  · rintro (hp | ⟨j, hij, hj, hp⟩)
    · exact ⟨i, Nat.le_refl _, by omega, hp⟩
    · rw [hexp.frameAt, hexp.same] at hp
      exact ⟨j, by omega, by omega, hp⟩

theorem rxCountReady_still {now : Nat → UInt32} (left i : Nat) (b : RxBlock) (k : Nat) (hb : BlockInv b)
    (h : Still now t k (rxCountReady now left i b k).2.2) :
    (0 < (rxCountReady now left i b k).1 ↔ ∃ j, i ≤ j ∧ j < i + left ∧ Presentable t b (b.frameAt j)) ∧
      Expired t b (rxCountReady now left i b k).2.1 := by
  induction left generalizing i b k with
  | zero =>
    refine ⟨iff_of_false (Nat.lt_irrefl 0) ?_, Expired.refl t b⟩
    rintro ⟨j, hij, hj, -⟩
    omega
  | succ left ih =>
    have hreads := rxCountReady_reads now left (i + 1) (rxFrameEligible now b (b.frameAt i) k).2.1
      (rxFrameEligible now b (b.frameAt i) k).2.2
    obtain ⟨helig, hexp⟩ := rxFrameEligible_at hb (h.sub (Nat.le_refl _) hreads)
    obtain ⟨hcount, hrest⟩ := ih (i + 1) (rxFrameEligible now b (b.frameAt i) k).2.1 _ (hexp.inv hb)
      (h.sub (rxFrameEligible_reads now b (b.frameAt i) k) (Nat.le_refl _))
    refine ⟨?_, hexp.trans hrest⟩
    rw [presentable_from hexp, ← helig, ← hcount, rxCountReady]
    split
    · exact iff_of_true (Nat.succ_pos _) (.inl ‹_›)
    · exact (or_iff_right ‹_›).symm

theorem rxScan_still {now : Nat → UInt32} (left i : Nat) (b : RxBlock) (k : Nat) (hb : BlockInv b)
    (h : Still now t k (rxScan now left i b k).reads) :
    ((rxScan now left i b k).off.isSome = true ↔
      ∃ j, i ≤ j ∧ j < i + left ∧ Presentable t b (b.frameAt j)) ∧
      Expired t b (rxScan now left i b k).block := by
  induction left generalizing i b k with
  | zero =>
    refine ⟨iff_of_false Bool.false_ne_true ?_, Expired.refl t b⟩
    rintro ⟨j, hij, hj, -⟩
    omega
  | succ left ih =>
    have hreads : (rxFrameEligible now b (b.frameAt i) k).2.2 ≤ (rxScan now (left + 1) i b k).reads := by
      rw [rxScan]
      split
      · exact Nat.le_refl _
      · exact rxScan_reads now left (i + 1) _ _
    obtain ⟨helig, hexp⟩ := rxFrameEligible_at hb (h.sub (Nat.le_refl _) hreads)
    rw [presentable_from hexp, ← helig]
    rw [rxScan] at h ⊢
    by_cases hnow : (rxFrameEligible now b (b.frameAt i) k).1 = true
    · simp only [if_pos hnow]
      exact ⟨iff_of_true rfl (.inl hnow), hexp⟩
    · simp only [if_neg hnow] at h ⊢
      obtain ⟨hsome, hrest⟩ := ih (i + 1) (rxFrameEligible now b (b.frameAt i) k).2.1 _ (hexp.inv hb)
        (h.sub (rxFrameEligible_reads now b (b.frameAt i) k) (Nat.le_refl _))
      exact ⟨hsome.trans (or_iff_right hnow).symm, hexp.trans hrest⟩

end

/-! ### The engine -/

def HasFrame (t : UInt32) (b : RxBlock) : Prop := ∃ j, 0 ≤ j ∧ j < 0 + b.count ∧ Presentable t b (b.frameAt j)

theorem Expired.hasFrame {t : UInt32} {b b' : RxBlock} (h : Expired t b b') : HasFrame t b' ↔ HasFrame t b := by
  unfold HasFrame
  rw [h.count]
  constructor
  · rintro ⟨j, hj, hlt, hp⟩
    rw [h.frameAt, h.same] at hp
    exact ⟨j, hj, hlt, hp⟩
  · rintro ⟨j, hj, hlt, hp⟩
    refine ⟨j, hj, hlt, ?_⟩
    rw [h.frameAt, h.same]
    exact hp

structure SameFrames (t : UInt32) (e e' : Engine) : Prop where
  opened : ∀ h, openBlock e' h = openBlock e h
  waiting : ∀ i, HasFrame t (e'.rx i) ↔ HasFrame t (e.rx i)

theorem SameFrames.refl (t : UInt32) (e : Engine) : SameFrames t e e := ⟨fun _ => rfl, fun _ => Iff.rfl⟩

theorem SameFrames.trans {t : UInt32} {e e' e'' : Engine} (h : SameFrames t e e')
    (h' : SameFrames t e' e'') : SameFrames t e e'' :=
  ⟨fun x => (h'.opened x).trans (h.opened x), fun i => (h'.waiting i).trans (h.waiting i)⟩

theorem SameFrames.replace {t : UInt32} {e e' : Engine} {i : Fin AUN_RX_BLOCKS} {b : RxBlock}
    (hrx : e'.rx = Function.update e.rx i b) (hopen : b.isOpen = (e.rx i).isOpen)
    (hwait : HasFrame t b ↔ HasFrame t (e.rx i)) : SameFrames t e e' := by
  have hblock : ∀ j, (e'.rx j).isOpen = (e.rx j).isOpen ∧ (HasFrame t (e'.rx j) ↔ HasFrame t (e.rx j)) := by
    intro j
    rw [hrx]
    by_cases hj : j = i
    · subst hj
      rw [Function.update_self]
      exact ⟨hopen, hwait⟩
    · rw [Function.update_of_ne hj]
      exact ⟨rfl, Iff.rfl⟩
  constructor
  · intro h
    unfold openBlock
    cases rxHandle h with
    | none => rfl
    | some j => simp only [(hblock j).1]
  · intro j
    exact (hblock j).2

variable (T : Transport)

section

variable {e : Engine} {t : UInt32} (hi : RxInv e) (handle : UInt8)

theorem aunRxReady_reads (e : Engine) (handle : UInt8) : e.io.reads ≤ (aunRxReady T e handle).2.io.reads := by
  unfold aunRxReady
  split
  · exact Nat.le_refl _
  · exact rxCountReady_reads _ _ _ _ _

theorem aunRxPoll_reads (e : Engine) (handle : UInt8) : e.io.reads ≤ (aunRxPoll T e handle).2.2.io.reads := by
  unfold aunRxPoll
  split
  · exact Nat.le_refl _
  · split
    · exact Nat.le_refl _
    · split
      · exact Nat.le_refl _
      · dsimp only
        split
        · exact rxScan_reads _ _ _ _ _
        · exact rxScan_reads _ _ _ _ _

include hi

theorem aunRxReady_inv : RxInv (aunRxReady T e handle).2 := (aunRxReady_rx T e handle).inv T hi

theorem aunRxPoll_inv : RxInv (aunRxPoll T e handle).2.2 := (aunRxPoll_rx T e handle).inv T hi

theorem aunRxReady_still (h : Still T.now t e.io.reads (aunRxReady T e handle).2.io.reads) :
    (0 < (aunRxReady T e handle).1 ↔ ∃ i, openBlock e handle = some i ∧ HasFrame t (e.rx i)) ∧
      SameFrames t e (aunRxReady T e handle).2 := by
  unfold aunRxReady at h ⊢
  cases ho : openBlock e handle with
  | none =>
    refine ⟨⟨?_, ?_⟩, SameFrames.refl t e⟩
    · intro hpos
      exact absurd hpos (Nat.lt_irrefl 0)
    · rintro ⟨i, hi, -⟩
      cases hi
  | some i =>
    rw [ho] at h
    obtain ⟨hcount, hexp⟩ := rxCountReady_still (e.rx i).count 0 (e.rx i) e.io.reads (hi.blocks i) h
    refine ⟨?_, SameFrames.replace rfl hexp.isOpen hexp.hasFrame⟩
    constructor
    · intro hpos
      exact ⟨i, rfl, hcount.mp hpos⟩
    · rintro ⟨j, hj, hwait⟩
      cases hj
      exact hcount.mpr hwait

theorem aunRxPoll_still (h : Still T.now t e.io.reads (aunRxPoll T e handle).2.2.io.reads) :
    ((aunRxPoll T e handle).1 = .ok ↔ ∃ i, openBlock e handle = some i ∧ HasFrame t (e.rx i)) ∧
      SameFrames t e (aunRxPoll T e handle).2.2 := by
  unfold aunRxPoll at h ⊢
  cases ho : openBlock e handle with
  | none =>
    refine ⟨⟨?_, ?_⟩, SameFrames.refl t e⟩
    · intro hok
      cases hok
    · rintro ⟨i, hi, -⟩
      cases hi
  | some i =>
    simp only [ho] at h
    have hiff : ∀ P : Prop, (P ↔ HasFrame t (e.rx i)) → (P ↔ ∃ j, some i = some j ∧ HasFrame t (e.rx j)) := by
      intro P hP
      rw [hP]
      constructor
      · intro hwait
        exact ⟨i, rfl, hwait⟩
      · rintro ⟨j, hj, hwait⟩
        cases hj
        exact hwait
    by_cases hempty : (e.rx i).count = 0
    · simp only [if_pos hempty]
      refine ⟨hiff _ ⟨?_, ?_⟩, SameFrames.refl t e⟩
      · intro hok
        cases hok
      · rintro ⟨j, -, hj, -⟩
        omega
    · simp only [if_neg hempty] at h ⊢
      by_cases hpres : (e.rx i).presented = true
      · simp only [if_pos hpres]
        refine ⟨hiff _ ⟨?_, ?_⟩, SameFrames.refl t e⟩
        · intro _
          have hoff := (hi.blocks i).presOff hpres
          exact ⟨_, Nat.zero_le _, by omega, (hi.blocks i).presentable hpres t⟩
        · intro _
          trivial
      · simp only [if_neg hpres] at h ⊢
        cases hoff : (rxFirstEligible T.now (e.rx i) e.io.reads).off with
        | none =>
          simp only [hoff] at h ⊢
          obtain ⟨hsome, hexp⟩ := rxScan_still (e.rx i).count 0 (e.rx i) e.io.reads (hi.blocks i) h
          refine ⟨hiff _ ⟨?_, ?_⟩, SameFrames.replace rfl hexp.isOpen hexp.hasFrame⟩
          · intro hok
            cases hok
          · intro hwait
            have hfound := hsome.mpr hwait
            rw [rxFirstEligible] at hoff
            rw [hoff] at hfound
            cases hfound
        | some off =>
          simp only [hoff] at h ⊢
          obtain ⟨hsome, hexp⟩ := rxScan_still (e.rx i).count 0 (e.rx i) e.io.reads (hi.blocks i) h
          have hset : SameFrames t e ((e.setBlock i (rxFirstEligible T.now (e.rx i) e.io.reads).block).atRead
              (rxFirstEligible T.now (e.rx i) e.io.reads).reads) :=
            SameFrames.replace rfl hexp.isOpen hexp.hasFrame
          refine ⟨hiff _ ⟨?_, ?_⟩, hset.trans (SameFrames.replace rfl rfl Iff.rfl)⟩
          · intro _
            apply hsome.mp
            rw [rxFirstEligible] at hoff
            rw [hoff]
            rfl
          · intro _
            trivial

end

/-! ### The interrupt -/

/-- A number of `aun_rx_ready` calls. -/
def readyAll (e : Engine) (handles : List UInt8) : Engine :=
  handles.foldl (fun e handle => (aunRxReady T e handle).2) e

theorem readyAll_reads (e : Engine) (handles : List UInt8) : e.io.reads ≤ (readyAll T e handles).io.reads := by
  induction handles generalizing e with
  | nil => exact Nat.le_refl _
  | cons handle handles ih => exact Nat.le_trans (aunRxReady_reads T e handle) (ih _)

theorem readyAll_still {e : Engine} {t : UInt32} (hi : RxInv e) (handles : List UInt8)
    (h : Still T.now t e.io.reads (readyAll T e handles).io.reads) :
    RxInv (readyAll T e handles) ∧ SameFrames t e (readyAll T e handles) := by
  induction handles generalizing e with
  | nil => exact ⟨hi, SameFrames.refl t e⟩
  | cons handle handles ih =>
    have hrest := readyAll_reads T (aunRxReady T e handle).2 handles
    obtain ⟨-, hsame⟩ := aunRxReady_still T hi handle (h.sub (Nat.le_refl _) hrest)
    obtain ⟨hinv, hall⟩ := ih (aunRxReady_inv T hi handle)
      (h.sub (aunRxReady_reads T e handle) (Nat.le_refl _))
    exact ⟨hinv, hsame.trans hall⟩

theorem ready_then_poll {e : Engine} {t : UInt32} (hi : RxInv e) (handle : UInt8) (between : List UInt8)
    (h : Still T.now t e.io.reads
      (aunRxPoll T (readyAll T (aunRxReady T e handle).2 between) handle).2.2.io.reads) :
    0 < (aunRxReady T e handle).1 ↔
      (aunRxPoll T (readyAll T (aunRxReady T e handle).2 between) handle).1 = .ok := by
  have hbetween := readyAll_reads T (aunRxReady T e handle).2 between
  have hpoll := aunRxPoll_reads T (readyAll T (aunRxReady T e handle).2 between) handle
  have hfirst := aunRxReady_reads T e handle
  obtain ⟨hready, hsame⟩ := aunRxReady_still T hi handle
    (h.sub (Nat.le_refl _) (Nat.le_trans hbetween hpoll))
  obtain ⟨hinv, hall⟩ := readyAll_still T (aunRxReady_inv T hi handle) between (h.sub hfirst hpoll)
  obtain ⟨hok, -⟩ := aunRxPoll_still T hinv handle
    (h.sub (Nat.le_trans hfirst hbetween) (Nat.le_refl _))
  have heq := hsame.trans hall
  rw [hready, hok, heq.opened]
  constructor
  · rintro ⟨i, ho, hwait⟩
    exact ⟨i, ho, (heq.waiting i).mpr hwait⟩
  · rintro ⟨i, ho, hwait⟩
    exact ⟨i, ho, (heq.waiting i).mp hwait⟩

theorem poll_then_ready {e : Engine} {t : UInt32} (hi : RxInv e) (handle : UInt8) (between : List UInt8)
    (h : Still T.now t e.io.reads
      (aunRxReady T (readyAll T (aunRxPoll T e handle).2.2 between) handle).2.io.reads) :
    (aunRxPoll T e handle).1 = .ok ↔
      0 < (aunRxReady T (readyAll T (aunRxPoll T e handle).2.2 between) handle).1 := by
  have hbetween := readyAll_reads T (aunRxPoll T e handle).2.2 between
  have hready := aunRxReady_reads T (readyAll T (aunRxPoll T e handle).2.2 between) handle
  have hfirst := aunRxPoll_reads T e handle
  obtain ⟨hok, hsame⟩ := aunRxPoll_still T hi handle
    (h.sub (Nat.le_refl _) (Nat.le_trans hbetween hready))
  obtain ⟨hinv, hall⟩ := readyAll_still T (aunRxPoll_inv T hi handle) between (h.sub hfirst hready)
  obtain ⟨hcount, -⟩ := aunRxReady_still T hinv handle
    (h.sub (Nat.le_trans hfirst hbetween) (Nat.le_refl _))
  have heq := hsame.trans hall
  rw [hcount, hok, heq.opened]
  constructor
  · rintro ⟨i, ho, hwait⟩
    exact ⟨i, ho, (heq.waiting i).mpr hwait⟩
  · rintro ⟨i, ho, hwait⟩
    exact ⟨i, ho, (heq.waiting i).mp hwait⟩

theorem data_bit_set : ∀ v : BitVec 8,
    ((0x80 ||| UInt8.ofBitVec v) &&& 0x80 ≠ 0) ∧ ((0x80 ||| UInt8.ofBitVec v) ||| 0x40) &&& 0x80 ≠ 0 := by
  decide +kernel

theorem aunIrqUpdate_data (em : Emulator) (hen : em.irqEnabled = true) :
    (aunIrqUpdate T em).irqState &&& 0x80 ≠ 0 ↔ 0 < (aunRxReady T em.aun 0).1 := by
  have hbits := data_bit_set
    (if (aunRxReady T em.aun 0).1 > 0x3F then (0x3F : UInt8) else UInt8.ofNat (aunRxReady T em.aun 0).1).toBitVec
  simp only [aunIrqUpdate, if_pos hen]
  by_cases hzero : (aunRxReady T em.aun 0).1 = 0
  · rw [hzero]
    cases (aunRxReady T em.aun 0).2.himm.active <;> decide
  · simp only [if_pos hzero]
    have hpos : 0 < (aunRxReady T em.aun 0).1 := Nat.pos_of_ne_zero hzero
    cases (aunRxReady T em.aun 0).2.himm.active with
    | false => exact ⟨fun _ => hpos, fun _ => hbits.1⟩
    | true => exact ⟨fun _ => hpos, fun _ => hbits.2⟩

theorem aunIrqUpdate_aun (em : Emulator) (hen : em.irqEnabled = true) :
    (aunIrqUpdate T em).aun = (aunRxReady T em.aun 0).2 := by
  simp only [aunIrqUpdate, if_pos hen]

/-- In every reachable state, while the clock stands still: `aun_rx_ready` counts a frame exactly if
`aun_rx_poll` has one, whichever is called first and whatever is asked between; and so does bit 7 of the
IRQ status that `aun_irq_update` leaves. -/
theorem ready_iff_poll (mem : Nat → UInt8) (station net : UInt8) (ops : List Op) (between : List UInt8) :
    let e := runState T mem station net ops
    let t := T.now e.io.reads
    (∀ handle,
      let p := aunRxPoll T (readyAll T (aunRxReady T e handle).2 between) handle
      Still T.now t e.io.reads p.2.2.io.reads → (0 < (aunRxReady T e handle).1 ↔ p.1 = .ok)) ∧
    (∀ handle,
      let r := aunRxReady T (readyAll T (aunRxPoll T e handle).2.2 between) handle
      Still T.now t e.io.reads r.2.io.reads → ((aunRxPoll T e handle).1 = .ok ↔ 0 < r.1)) ∧
    ∀ em : Emulator, em.aun = e → em.irqEnabled = true →
      let p := aunRxPoll T (readyAll T (aunIrqUpdate T em).aun between) 0
      Still T.now t e.io.reads p.2.2.io.reads → ((aunIrqUpdate T em).irqState &&& 0x80 ≠ 0 ↔ p.1 = .ok) := by
  intro e t
  have hi : RxInv e := rxInv_run T mem station net ops
  refine ⟨fun handle h => ready_then_poll T hi handle between h,
    fun handle h => poll_then_ready T hi handle between h, ?_⟩
  intro em he hen p h
  have hdata := aunIrqUpdate_data T em hen
  have hp : p = aunRxPoll T (readyAll T (aunRxReady T e 0).2 between) 0 := by
    rw [← he, ← aunIrqUpdate_aun T em hen]
  rw [hdata, he, hp]
  rw [hp] at h
  exact ready_then_poll T hi 0 between h

def Transport.stopped : Transport := ⟨fun _ => 0, fun _ => true⟩

def rejectedFrame : List Op :=
  [.mapAdd 0 7 0x0700A8C0 0, .rxOpen 0 0 0xFF 0xFF 1000 16,
    .udpInput 0x0700A8C0 32768 [2, 0x99, 0, 0, 4, 0, 0, 0, 1, 2], .rxPoll 0, .rxCollect 0 false]

theorem ready_iff_poll_deferred :
    let e := runState Transport.stopped (fun _ => 0) 1 0 rejectedFrame
    (e.rx 0).count = 1 ∧ (aunRxReady Transport.stopped e 0).1 = 0 ∧
      (aunRxPoll Transport.stopped (aunRxReady Transport.stopped e 0).2 0).1 ≠ .ok := by
  intro e
  have hready : (aunRxReady Transport.stopped e 0).1 = 0 := by decide
  refine ⟨by decide, hready, ?_⟩
  intro hok
  have hiff := (ready_iff_poll Transport.stopped (fun _ => 0) 1 0 rejectedFrame []).1 0 (fun _ _ _ => rfl)
  have hpos : 0 < (aunRxReady Transport.stopped e 0).1 := hiff.mpr hok
  rw [hready] at hpos
  exact Nat.lt_irrefl 0 hpos

end Pi1MHz.Aun
