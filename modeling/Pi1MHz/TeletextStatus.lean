import Pi1MHz.Teletext
import Pi1MHz.FinSizes

/-!
# The teletext adapter: status and nIRQ

The status byte, the status register and nIRQ agree whenever the main loop is not in a poll or an
init, and a bit that the Beeb has cleared is up again only after a field event, in every
interleaving in which no callback comes where the main loop has looked and not yet acted.
-/

namespace Pi1MHz.Teletext

open FinSizes

set_option maxRecDepth 2000

/-! ### The property and its condition -/

structure Watched where
  machine : Machine
  since : UInt8

def fieldEvent (m : Machine) : UInt8 :=
  match m.main with
  | .fsyncSet => TTX_ST_FSYNC
  | .dewLatch => (m.adapter.status &&& TTX_ST_INT) >>> 1
  | .intStore _ => TTX_ST_INT
  | _ => 0

def Watched.step (w : Watched) (e : Event) : Watched where
  machine := Teletext.step w.machine e
  since :=
    match e with
    | .fiq .clear => 0
    | .main => w.since ||| fieldEvent w.machine
    | .fiq _ | .report .. | .poll .. | .init _ => w.since

def Watched.initial (configured : Fin 4 → Bool) (now : UInt32) : Watched where
  machine := Machine.initial configured now
  since := 0

def Cleared (status since : UInt8) : Prop := status &&& TTX_ST_CLEARABLE &&& ~~~since = 0

structure Coherent (w : Watched) : Prop where
  nIRQ : w.machine.main = .idle →
    (w.machine.adapter.nIRQ = true ↔
      w.machine.adapter.intsEnabled = true ∧ w.machine.adapter.status &&& TTX_ST_INT ≠ 0)
  byte : w.machine.main = .idle →
    w.machine.adapter.statusByte = w.machine.adapter.status ||| w.machine.adapter.statusDEW
  dew : w.machine.main = .idle → w.machine.adapter.statusByte &&& TTX_ST_DEW ≠ 0 →
    w.machine.adapter.phase = .dew
  cleared : Cleared w.machine.adapter.status w.since

/-- A clear with a bit to clear may not come between a load of the status and the store that is made
of it, nor one of INT between its store and the assertion of nIRQ. -/
def ClearFits (a : Adapter) : Main → Prop
  | .intStore _ => a.status &&& (TTX_ST_FSYNC ||| TTX_ST_DOR) = 0
  | .intEnabled => a.intsEnabled = false
  | .intAssert => False
  | .statusStore _ => a.status &&& TTX_ST_CLEARABLE = 0
  | _ => True

/-- Interrupts may not be disabled right before nIRQ is asserted, nor enabled before the test of
them when INT is cleared again. -/
def ControlFits (a : Adapter) (v : UInt8) : Main → Prop
  | .intEnabled => v &&& TTX_CTL_INTEN = 0 ∨ a.status &&& TTX_ST_INT ≠ 0
  | .intAssert => v &&& TTX_CTL_INTEN ≠ 0
  | _ => True

def Fits (m : Machine) : Event → Prop
  | .fiq .clear => ClearFits m.adapter m.main
  | .fiq (.control v) => ControlFits m.adapter v m.main
  | .init _ => m.main = .idle → m.adapter.statusDEW = 0
  | .fiq _ | .main | .report .. | .poll .. => True

/-! ### Bits -/

theorem int_bits : ∀ s : UInt8, s &&& ~~~TTX_ST_CLEARABLE &&& TTX_ST_INT = 0 ∧
    (s ||| TTX_ST_FSYNC) &&& TTX_ST_INT = s &&& TTX_ST_INT ∧
    (s &&& ~~~TTX_ST_DOR ||| (s &&& TTX_ST_INT) >>> 1) &&& TTX_ST_INT = s &&& TTX_ST_INT ∧
    (s ||| TTX_ST_INT) &&& TTX_ST_INT ≠ 0 :=
  forall_byte (by decide +kernel)

theorem dew_bits : ∀ s : UInt8, s &&& ~~~TTX_ST_CLEARABLE &&& TTX_ST_DEW = s &&& TTX_ST_DEW ∧
    (s ||| TTX_ST_FSYNC) &&& TTX_ST_DEW = s &&& TTX_ST_DEW ∧
    (s &&& ~~~TTX_ST_DOR ||| (s &&& TTX_ST_INT) >>> 1) &&& TTX_ST_DEW = s &&& TTX_ST_DEW ∧
    (s ||| TTX_ST_INT) &&& TTX_ST_DEW = s &&& TTX_ST_DEW :=
  forall_byte (by decide +kernel)

theorem clear_bits : ∀ s : UInt8, (s &&& TTX_ST_CLEARABLE = 0 → s &&& ~~~TTX_ST_CLEARABLE = s) ∧
    (s &&& (TTX_ST_FSYNC ||| TTX_ST_DOR) = 0 →
      s &&& ~~~TTX_ST_CLEARABLE ||| TTX_ST_INT = s ||| TTX_ST_INT) ∧
    Cleared (s &&& ~~~TTX_ST_CLEARABLE) 0 :=
  forall_byte (by unfold Cleared; decide +kernel)

theorem Cleared.or {s n : UInt8} (h : Cleared s n) (b : UInt8) : Cleared (s ||| b) (n ||| b) := by
  unfold Cleared at h ⊢
  apply UInt8.toBitVec_inj.mp
  have h' := congrArg UInt8.toBitVec h
  simp only [UInt8.toBitVec_and, UInt8.toBitVec_or, UInt8.toBitVec_not] at h' ⊢
  ext i hi
  have hb := congrArg (fun v => v.getLsbD i) h'
  simp [hi] at hb ⊢
  grind

theorem Cleared.and {s n : UInt8} (h : Cleared s n) (b : UInt8) : Cleared (s &&& b) n := by
  unfold Cleared at h ⊢
  apply UInt8.toBitVec_inj.mp
  have h' := congrArg UInt8.toBitVec h
  simp only [UInt8.toBitVec_and, UInt8.toBitVec_not] at h' ⊢
  ext i hi
  have hb := congrArg (fun v => v.getLsbD i) h'
  simp [hi] at hb ⊢
  grind

theorem Cleared.zero {s n : UInt8} (h : Cleared s n) : Cleared s (n ||| 0) := by
  have hzero : n ||| 0 = n := UInt8.or_zero
  rw [hzero]
  exact h

/-! ### The invariant -/

def IrqAgrees (a : Adapter) : Prop :=
  a.nIRQ = true ↔ a.intsEnabled = true ∧ a.status &&& TTX_ST_INT ≠ 0

def IrqInv (a : Adapter) : Main → Prop
  | .intEnabled =>
    (a.intsEnabled = true → a.status &&& TTX_ST_INT ≠ 0) ∧ (a.intsEnabled = false → a.nIRQ = false)
  | .intAssert => a.intsEnabled = true ∧ a.status &&& TTX_ST_INT ≠ 0
  | .initEnabled | .initEnable | .initChannel | .initRow | .initCol | .initLoad | .initStore _
  | .initData | .initIrq => a.status = TTX_ST_LINKS
  | _ => IrqAgrees a

def ByteInv (a : Adapter) : Main → Prop
  | .idle | .initData | .initIrq => a.statusByte = a.status ||| a.statusDEW
  | .statusStore v | .initStore v => v = a.status ||| a.statusDEW
  | .intStore t => t ||| TTX_ST_INT = a.status ||| TTX_ST_INT
  | _ => True

structure StatusInv (w : Watched) : Prop where
  irq : IrqInv w.machine.adapter w.machine.main
  byte : ByteInv w.machine.adapter w.machine.main
  clean : w.machine.adapter.status &&& TTX_ST_DEW = 0
  dew : w.machine.main ≠ .dewClear → w.machine.adapter.statusDEW = 0 ∨ w.machine.adapter.phase = .dew
  latching : w.machine.main = .dewOpen ∨ w.machine.main = .dewLatch ∨ w.machine.main = .dewSet →
    w.machine.adapter.phase = .dew
  cleared : Cleared w.machine.adapter.status w.since

def Main.isInit : Main → Bool
  | .initStatus | .initEnabled | .initEnable | .initChannel | .initRow | .initCol | .initLoad
  | .initStore _ | .initData | .initIrq => true
  | _ => false

structure SameStatus (a a' : Adapter) : Prop where
  status : a'.status = a.status
  statusDEW : a'.statusDEW = a.statusDEW
  intsEnabled : a'.intsEnabled = a.intsEnabled
  phase : a'.phase = a.phase
  statusByte : a'.statusByte = a.statusByte
  nIRQ : a'.nIRQ = a.nIRQ

theorem IrqInv.same {a a' : Adapter} (hs : SameStatus a a') {main : Main} (h : IrqInv a main) :
    IrqInv a' main := by
  cases main <;> simpa only [IrqInv, IrqAgrees, hs.status, hs.intsEnabled, hs.nIRQ] using h

theorem ByteInv.same {a a' : Adapter} (hs : SameStatus a a') {main : Main} (h : ByteInv a main) :
    ByteInv a' main := by
  have hsame : ByteInv a' main ↔ ByteInv a main := by
    cases main <;> simp only [ByteInv, hs.status, hs.statusDEW, hs.statusByte]
  exact hsame.mpr h

theorem StatusInv.same {m : Machine} {since : UInt8} (h : StatusInv ⟨m, since⟩) {a' : Adapter}
    (hs : SameStatus m.adapter a') : StatusInv ⟨⟨a', m.main⟩, since⟩ := by
  constructor
  · exact h.irq.same hs
  · exact h.byte.same hs
  · exact (congrArg (· &&& TTX_ST_DEW) hs.status).trans h.clean
  · intro hne
    simp only [hs.statusDEW, hs.phase]
    exact h.dew hne
  · intro hl
    simp only [hs.phase]
    exact h.latching hl
  · simp only [hs.status]
    exact h.cleared

theorem sameStatus_callback (a : Adapter) {f : Fiq} (hc : f ≠ .clear) (hv : ∀ v, f ≠ .control v) :
    SameStatus a (callback a f) := by
  cases f with
  | control v => exact absurd rfl (hv v)
  | clear => exact absurd rfl hc
  | writeRow v => exact ⟨rfl, rfl, rfl, rfl, rfl, rfl⟩
  | readData => exact ⟨rfl, rfl, rfl, rfl, rfl, rfl⟩
  | writeData v =>
    simp only [callback, ttxWData]
    split
    · exact ⟨rfl, rfl, rfl, rfl, rfl, rfl⟩
    · exact ⟨rfl, rfl, rfl, rfl, rfl, rfl⟩

theorem StatusInv.clear {m : Machine} {since : UInt8} (h : StatusInv ⟨m, since⟩)
    (hf : ClearFits m.adapter m.main) : StatusInv ⟨⟨ttxClear m.adapter, m.main⟩, 0⟩ := by
  rcases m with ⟨a, main⟩
  have hirq : IrqAgrees (ttxClear a) := by
    constructor
    · intro hn
      cases hn
    · rintro ⟨-, hint⟩
      exact absurd (int_bits a.status).1 hint
  constructor
  · cases main with
    | intEnabled => exact ⟨fun hi => absurd (hf.symm.trans hi) Bool.false_ne_true, fun _ => rfl⟩
    | intAssert => exact hf.elim
    | initEnabled | initEnable | initChannel | initRow | initCol | initLoad | initStore | initData | initIrq =>
      have hlinks : a.status = TTX_ST_LINKS := h.irq
      simp only [IrqInv, ttxClear, ttxStatusWrite, hlinks]
      decide
    | _ => exact hirq
  · cases main with
    | idle | initData | initIrq => exact rfl
    | statusStore v =>
      have hv : v = a.status ||| a.statusDEW := h.byte
      simp only [ByteInv, ttxClear, ttxStatusWrite, (clear_bits a.status).1 hf]
      exact hv
    | initStore v =>
      have hlinks : a.status = TTX_ST_LINKS := h.irq
      have hnone : a.status &&& TTX_ST_CLEARABLE = 0 := by
        rw [hlinks]
        decide
      have hv : v = a.status ||| a.statusDEW := h.byte
      simp only [ByteInv, ttxClear, ttxStatusWrite, (clear_bits a.status).1 hnone]
      exact hv
    | intStore t =>
      have ht : t ||| TTX_ST_INT = a.status ||| TTX_ST_INT := h.byte
      exact ht.trans ((clear_bits a.status).2.1 hf).symm
    | _ => trivial
  · exact (dew_bits a.status).1.trans h.clean
  · exact h.dew
  · exact h.latching
  · exact (clear_bits a.status).2.2

theorem StatusInv.control {m : Machine} {since : UInt8} (h : StatusInv ⟨m, since⟩) {v : UInt8}
    (hf : ControlFits m.adapter v m.main) : StatusInv ⟨⟨ttxWControl m.adapter v, m.main⟩, since⟩ := by
  rcases m with ⟨a, main⟩
  have hirq : IrqAgrees (ttxWControl a v) := by
    simp [IrqAgrees, ttxWControl, ttxUpdateIrq]
  refine { h with irq := ?_, byte := ?_ }
  · cases main with
    | intEnabled =>
      constructor
      · intro hi
        simp only [ttxWControl, ttxUpdateIrq, bne_iff_ne] at hi ⊢
        exact hf.resolve_left hi
      · intro hi
        simp only [ttxWControl, ttxUpdateIrq] at hi ⊢
        rw [hi, Bool.false_and]
    | intAssert =>
      have hint : a.intsEnabled = true ∧ a.status &&& TTX_ST_INT ≠ 0 := h.irq
      have hv : v &&& TTX_CTL_INTEN ≠ 0 := hf
      exact ⟨bne_iff_ne.mpr hv, hint.2⟩
    | initEnabled | initEnable | initChannel | initRow | initCol | initLoad | initStore | initData | initIrq =>
      exact h.irq
    | _ => exact hirq
  · cases main <;> exact h.byte

theorem sameStatus_setChan (a : Adapter) (ch : Fin 4) (c : Chan) : SameStatus a (a.setChan ch c) :=
  ⟨rfl, rfl, rfl, rfl, rfl, rfl⟩

theorem sameStatus_loadLine (a : Adapter) (field : List UInt8) (i : Nat) :
    SameStatus a (loadLine a field i) := by
  simp only [loadLine]
  split
  · exact ⟨rfl, rfl, rfl, rfl, rfl, rfl⟩
  · exact ⟨rfl, rfl, rfl, rfl, rfl, rfl⟩

theorem StatusInv.goes {a a' : Adapter} {main main' : Main} {since : UInt8}
    (h : StatusInv ⟨⟨a, main⟩, since⟩) (hs : SameStatus a a') (hirq : IrqInv a main')
    (hbyte : ByteInv a main') (hnot : main ≠ .dewClear)
    (hl : main' = .dewOpen ∨ main' = .dewLatch ∨ main' = .dewSet →
      main = .dewOpen ∨ main = .dewLatch ∨ main = .dewSet) :
    StatusInv ⟨⟨a', main'⟩, since ||| 0⟩ := by
  constructor
  · exact hirq.same hs
  · exact hbyte.same hs
  · exact (congrArg (· &&& TTX_ST_DEW) hs.status).trans h.clean
  · intro _
    simp only [hs.statusDEW, hs.phase]
    exact h.dew hnot
  · intro hl'
    simp only [hs.phase]
    exact h.latching (hl hl')
  · simp only [hs.status]
    exact h.cleared.zero

theorem SameStatus.refl (a : Adapter) : SameStatus a a := ⟨rfl, rfl, rfl, rfl, rfl, rfl⟩

theorem StatusInv.pollStep {a : Adapter} {main : Main} {since : UInt8}
    (h : StatusInv ⟨⟨a, main⟩, since⟩)
    (hinit : main.isInit = false) :
    StatusInv ⟨runMain ⟨a, main⟩, since ||| fieldEvent ⟨a, main⟩⟩ := by
  have hsame := SameStatus.refl a
  cases main with
  | idle => exact h.goes hsame h.irq h.byte nofun nofun
  | fsyncOpen | loadOpen | intOpen =>
    simp only [runMain]
    split
    · exact h.goes hsame h.irq trivial nofun nofun
    · exact h.goes hsame h.irq trivial nofun nofun
  | dewOpen =>
    simp only [runMain]
    split
    · exact h.goes hsame h.irq trivial nofun fun _ => .inl rfl
    · exact h.goes hsame h.irq trivial nofun nofun
  | loadPop =>
    simp only [runMain]
    split
    · exact h.goes (sameStatus_setChan a _ _) h.irq trivial nofun nofun
    · exact h.goes (sameStatus_setChan a _ _) h.irq trivial nofun nofun
  | loadEnable field =>
    simp only [runMain]
    split
    · exact h.goes hsame h.irq trivial nofun nofun
    · exact h.goes hsame h.irq trivial nofun nofun
  | loadRow field i =>
    simp only [runMain]
    split
    · exact h.goes (sameStatus_loadLine a field i) h.irq trivial nofun nofun
    · exact h.goes (sameStatus_loadLine a field i) h.irq trivial nofun nofun
  | loadRowPtr | loadColPtr | loadPreload =>
    exact h.goes ⟨rfl, rfl, rfl, rfl, rfl, rfl⟩ h.irq trivial nofun nofun
  | intLoad => exact h.goes hsame h.irq rfl nofun nofun
  | statusLoad => exact h.goes hsame h.irq rfl nofun nofun
  | intEnabled =>
    obtain ⟨hint, hnirq⟩ : (a.intsEnabled = true → a.status &&& TTX_ST_INT ≠ 0) ∧
      (a.intsEnabled = false → a.nIRQ = false) := h.irq
    simp only [runMain]
    split
    · next hen => exact h.goes hsame ⟨hen, hint hen⟩ trivial nofun nofun
    · next hen =>
      have hoff : a.intsEnabled = false := Bool.not_eq_true _ ▸ hen
      have hirq : IrqAgrees a := by
        rw [IrqAgrees, hnirq hoff, hoff]
        simp
      exact h.goes hsame hirq trivial nofun nofun
  | intAssert =>
    have hint : a.intsEnabled = true ∧ a.status &&& TTX_ST_INT ≠ 0 := h.irq
    constructor
    · exact ⟨fun _ => hint, fun _ => rfl⟩
    · trivial
    · exact h.clean
    · exact fun _ => h.dew nofun
    · exact nofun
    · exact h.cleared.zero
  | fsyncSet =>
    have hirq : IrqAgrees a := h.irq
    constructor
    · simp only [runMain, IrqInv, IrqAgrees, (int_bits _).2.1]
      exact hirq
    · trivial
    · exact (dew_bits a.status).2.1.trans h.clean
    · exact fun _ => h.dew nofun
    · exact nofun
    · exact h.cleared.or TTX_ST_FSYNC
  | dewLatch =>
    have hirq : IrqAgrees a := h.irq
    constructor
    · simp only [runMain, IrqInv, IrqAgrees, (int_bits _).2.2.1]
      exact hirq
    · trivial
    · exact (dew_bits a.status).2.2.1.trans h.clean
    · exact fun _ => h.dew nofun
    · exact fun _ => h.latching (.inr (.inl rfl))
    · exact (h.cleared.and _).or _
  | dewSet =>
    constructor
    · exact h.irq
    · trivial
    · exact h.clean
    · exact fun _ => .inr (h.latching (.inr (.inr rfl)))
    · exact nofun
    · exact h.cleared.zero
  | dewClear =>
    constructor
    · exact h.irq
    · trivial
    · exact h.clean
    · exact fun _ => .inl rfl
    · exact nofun
    · exact h.cleared.zero
  | intStore t =>
    have hirq : IrqAgrees a := h.irq
    have ht : t ||| TTX_ST_INT = a.status ||| TTX_ST_INT := h.byte
    constructor
    · refine ⟨fun _ => (int_bits t).2.2.2, fun hoff => ?_⟩
      have hoff' : a.intsEnabled = false := hoff
      have hno : ¬ a.nIRQ = true := by
        intro hn
        exact absurd (hoff'.symm.trans (hirq.mp hn).1) Bool.false_ne_true
      exact Bool.not_eq_true _ ▸ hno
    · trivial
    · have hdew : ∀ s : UInt8, (s ||| TTX_ST_INT) &&& TTX_ST_DEW = s &&& TTX_ST_DEW :=
        fun s => (dew_bits s).2.2.2
      exact (hdew t).trans (by rw [← hdew t, ht, hdew]; exact h.clean)
    · exact fun _ => h.dew nofun
    · exact nofun
    · simp only [runMain, ht]
      exact h.cleared.or TTX_ST_INT
  | statusStore v =>
    have hirq : IrqAgrees a := h.irq
    constructor
    · exact hirq
    · exact h.byte
    · exact h.clean
    · exact fun _ => h.dew nofun
    · exact nofun
    · exact h.cleared.zero
  | initStatus | initEnabled | initEnable | initChannel | initRow | initCol | initLoad | initStore | initData
  | initIrq => cases hinit

theorem StatusInv.initStep {a : Adapter} {main : Main} {since : UInt8}
    (h : StatusInv ⟨⟨a, main⟩, since⟩)
    (hinit : main.isInit = true) : StatusInv ⟨runMain ⟨a, main⟩, since ||| fieldEvent ⟨a, main⟩⟩ := by
  have hsame := SameStatus.refl a
  cases main with
  | initStatus =>
    -- the status is that of the links alone
    constructor
    · exact rfl
    · trivial
    · exact (by decide : TTX_ST_LINKS &&& TTX_ST_DEW = 0)
    · exact fun _ => h.dew nofun
    · exact nofun
    · have hlinks : TTX_ST_LINKS &&& TTX_ST_CLEARABLE = 0 := by decide
      simp only [runMain, Cleared, hlinks, UInt8.zero_and]
  | initEnabled =>
    constructor
    · exact h.irq
    · trivial
    · exact h.clean
    · exact fun _ => h.dew nofun
    · exact nofun
    · exact h.cleared.zero
  | initEnable | initChannel | initRow | initCol =>
    exact h.goes ⟨rfl, rfl, rfl, rfl, rfl, rfl⟩ h.irq trivial nofun nofun
  | initLoad => exact h.goes hsame h.irq rfl nofun nofun
  | initStore v =>
    refine { h with dew := ?_, latching := ?_, cleared := ?_ }
    · exact fun _ => h.dew nofun
    · exact nofun
    · exact h.cleared.zero
  | initData => exact h.goes ⟨rfl, rfl, rfl, rfl, rfl, rfl⟩ h.irq h.byte nofun nofun
  | initIrq =>
    have hlinks : a.status = TTX_ST_LINKS := h.irq
    have hint : TTX_ST_LINKS &&& TTX_ST_INT = 0 := by decide
    constructor
    · simp [runMain, IrqInv, IrqAgrees, hlinks, hint]
    · exact h.byte
    · exact h.clean
    · exact fun _ => h.dew nofun
    · exact nofun
    · exact h.cleared.zero
  | _ => cases hinit

theorem StatusInv.poll {a : Adapter} {since : UInt8} (h : StatusInv ⟨⟨a, .idle⟩, since⟩) (now : UInt32)
    (attempt : Option (Fin 4 → Attempt)) : StatusInv ⟨startPoll a now attempt, since⟩ := by
  have hnet : SameStatus a ((attempt.map (ttxNetPoll a now)).getD a) := by
    cases attempt with
    | none => exact SameStatus.refl a
    | some attempt => exact ⟨rfl, rfl, rfl, rfl, rfl, rfl⟩
  obtain hn := h.same hnet
  simp only [startPoll]
  split
  · exact hn
  · split
    · next hphase =>
      refine ⟨hn.irq, trivial, hn.clean, fun _ => ?_, nofun, hn.cleared⟩
      rcases hn.dew nofun with hdown | hup
      · exact .inl hdown
      · exact absurd (hphase.symm.trans hup) nofun
    · exact ⟨hn.irq, trivial, hn.clean, fun _ => .inr rfl, fun _ => rfl, hn.cleared⟩
    · exact ⟨hn.irq, trivial, hn.clean, fun hne => absurd rfl hne, nofun, hn.cleared⟩

theorem StatusInv.step {w : Watched} (h : StatusInv w) {e : Event} (hf : Fits w.machine e) :
    StatusInv (w.step e) := by
  rcases w with ⟨⟨a, main⟩, since⟩
  cases e with
  | fiq f =>
    cases f with
    | clear => exact h.clear hf
    | control v => exact h.control hf
    | writeRow | readData | writeData => exact h.same (sameStatus_callback a nofun nofun)
  | main =>
    cases hinit : main.isInit with
    | false => exact h.pollStep hinit
    | true => exact h.initStep hinit
  | report ch r =>
    simp only [Watched.step, Teletext.step]
    split
    · exact h.same (sameStatus_setChan a ch _)
    · exact h
  | poll now attempt =>
    simp only [Watched.step, Teletext.step]
    split
    · next hidle =>
      subst hidle
      exact h.poll now attempt
    · exact h
  | init now =>
    simp only [Watched.step, Teletext.step]
    split
    · next hidle =>
      subst hidle
      exact ⟨h.irq, trivial, h.clean, fun _ => .inl (hf rfl), nofun, h.cleared⟩
    · exact h

theorem StatusInv.initial (configured : Fin 4 → Bool) (now : UInt32) :
    StatusInv (Watched.initial configured now) where
  irq := by
    have hint : TTX_ST_LINKS &&& TTX_ST_INT = 0 := by decide
    simp [Watched.initial, Machine.initial, IrqInv, IrqAgrees, hint]
  byte := by
    simp only [Watched.initial, Machine.initial, ByteInv]
    decide
  clean := by
    simp only [Watched.initial, Machine.initial]
    decide
  dew _ := .inl rfl
  latching := nofun
  cleared := by
    simp only [Watched.initial, Machine.initial, Cleared]
    decide

theorem StatusInv.coherent {w : Watched} (h : StatusInv w) : Coherent w := by
  rcases w with ⟨⟨a, main⟩, since⟩
  constructor
  · intro hidle
    have hi : main = .idle := hidle
    subst hi
    exact h.irq
  · intro hidle
    have hi : main = .idle := hidle
    subst hi
    exact h.byte
  · intro hidle hup
    have hi : main = .idle := hidle
    subst hi
    have hbyte : a.statusByte = a.status ||| a.statusDEW := h.byte
    rcases h.dew nofun with hdown | hphase
    · have hdown' : a.statusDEW = 0 := hdown
      rw [hdown', UInt8.or_zero] at hbyte
      have hup' : a.statusByte &&& TTX_ST_DEW ≠ 0 := hup
      rw [hbyte] at hup'
      exact absurd h.clean hup'
    · exact hphase
  · exact h.cleared

/-- In every run whose callbacks and inits fit, status, status byte and nIRQ agree. -/
theorem teletext_status_coherent (configured : Fin 4 → Bool) (now : UInt32) (es : List Event)
    (hf : ∀ st ∈ History.history Watched.step (Watched.initial configured now) es,
      Fits st.pre.machine st.op) :
    Coherent (History.final Watched.step (Watched.initial configured now) es) := by
  obtain ⟨h, -⟩ := History.guarded_induction Watched.step StatusInv (fun w e => Fits w.machine e)
    (StatusInv.initial configured now) (fun w e h hf => h.step hf) es hf
  exact h.coherent

theorem fits_clear_idle {m : Machine} (h : m.main = .idle) : Fits m (.fiq .clear) := by
  simp only [Fits, ClearFits, h]

/-- A poll without a connection, and a clear after it. -/
theorem teletext_status_coherent_clear :
    Coherent (History.final Watched.step (Watched.initial (fun _ => true) 0)
      [.fiq (.control 0x0C), .poll 64 none, .main, .main, .main, .fiq .clear]) := by
  have hidle : (History.final Watched.step (Watched.initial (fun _ => true) 0)
      [.fiq (.control 0x0C), .poll 64 none, .main, .main, .main]).machine.main = .idle := by
    decide +kernel
  apply teletext_status_coherent
  intro st hst
  obtain ⟨before, op, after, hes, rfl⟩ := History.mem_history _ hst
  rcases before with _ | ⟨e1, _ | ⟨e2, _ | ⟨e3, _ | ⟨e4, _ | ⟨e5, _ | ⟨e6, before⟩⟩⟩⟩⟩⟩
  all_goals
    simp only [List.nil_append, List.cons_append, List.cons.injEq, List.nil_eq, List.append_eq_nil_iff,
      reduceCtorEq, and_false] at hes
  · obtain ⟨rfl, -⟩ := hes
    trivial
  · obtain ⟨rfl, rfl, -⟩ := hes
    trivial
  · obtain ⟨rfl, rfl, rfl, -⟩ := hes
    trivial
  · obtain ⟨rfl, rfl, rfl, rfl, -⟩ := hes
    trivial
  · obtain ⟨rfl, rfl, rfl, rfl, rfl, -⟩ := hes
    trivial
  · obtain ⟨rfl, rfl, rfl, rfl, rfl, rfl, -⟩ := hes
    exact fits_clear_idle hidle

def intRun : List Event :=
  ([.poll 0 (some fun _ => .started), .report 0 .connected, .fiq (.control 0x0C)] : List Event) ++
    ([.poll 64 none, .main, .main, .main, .main] : List Event) ++
    ([.poll 354 none, .main, .main, .main, .main, .main, .main, .main] : List Event) ++
    ([.poll 1442 none, .main, .main, .main, .main, .main, .main, .main] : List Event)

/-- The Beeb clears the status before the poll stores the byte: INT stays up in the byte, with the
status clear and nIRQ released. -/
theorem clear_lost_in_byte :
    ¬ Coherent (History.final Watched.step (Watched.initial (fun _ => true) 0)
      (intRun ++ [.fiq .clear, .main])) := by
  intro h
  have hidle : (History.final Watched.step (Watched.initial (fun _ => true) 0)
      (intRun ++ [.fiq .clear, .main])).machine.main = .idle := by
    decide +kernel
  have hbyte := h.byte hidle
  revert hbyte
  decide +kernel

end Pi1MHz.Teletext
