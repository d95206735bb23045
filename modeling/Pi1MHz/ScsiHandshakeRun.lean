import Pi1MHz.ScsiHandshake

/-!
# The SCSI handshake: no phantom bytes

The invariant goes by the role of the routine: while it waits for a byte of the host, what the host has
written is what is stored, and one byte more once ACK is set.
-/

namespace Pi1MHz.Handshake

open History (history final)

/-! ### The word that the Beeb reads -/

section Bus

variable (m : Bus.Memory)

theorem presented_storeVpu_data (v other : BitVec 8) :
    (m.storeVpu (HD_ADDR / 2) (Bus.byteWord HD_ADDR v (Bus.driven other))).presented STATUS_ADDR = other := by
  have hword : STATUS_ADDR / 2 = HD_ADDR / 2 := by decide
  simp only [Bus.Memory.presented, Bus.Memory.storeVpu, hword, Function.update_self]
  exact Bus.pins_byteWord_other (by decide) v other

theorem presented_storeVpu_status (v other : BitVec 8) :
    (m.storeVpu (STATUS_ADDR / 2) (Bus.byteWord STATUS_ADDR v (Bus.driven other))).presented STATUS_ADDR = v := by
  simp only [Bus.Memory.presented, Bus.Memory.storeVpu, Function.update_self]
  exact Bus.pins_byteWord_self STATUS_ADDR v other

theorem shadow_storeShadow_data (v : BitVec 8) :
    (m.storeShadow HD_ADDR v).shadow STATUS_ADDR = m.shadow STATUS_ADDR := by
  have hne : STATUS_ADDR ≠ HD_ADDR := by decide
  simp only [Bus.Memory.storeShadow, Function.update_of_ne hne]

theorem shadow_storeShadow_status (v : BitVec 8) : (m.storeShadow STATUS_ADDR v).shadow STATUS_ADDR = v := by
  simp only [Bus.Memory.storeShadow, Function.update_self]

theorem memoryWrite_data (v : BitVec 8) :
    (m.memoryWrite HD_ADDR v).presented STATUS_ADDR = m.shadow STATUS_ADDR ∧
      (m.memoryWrite HD_ADDR v).shadow STATUS_ADDR = m.shadow STATUS_ADDR := by
  have hother : m.loadOther HD_ADDR = Bus.driven (m.shadow STATUS_ADDR) := by
    rw [Bus.Memory.loadOther]
    rfl
  constructor
  · rw [Bus.Memory.memoryWrite, hother]
    exact presented_storeVpu_data m v _
  · rw [Bus.Memory.memoryWrite, shadow_storeShadow_data]
    rfl

theorem memoryWrite_status (v : BitVec 8) :
    (m.memoryWrite STATUS_ADDR v).presented STATUS_ADDR = v ∧
      (m.memoryWrite STATUS_ADDR v).shadow STATUS_ADDR = v := by
  constructor
  · rw [Bus.Memory.memoryWrite, Bus.Memory.loadOther]
    exact presented_storeVpu_status m v _
  · rw [Bus.Memory.memoryWrite, shadow_storeShadow_status]

end Bus

/-! ### The invariant -/

def Adapter.Coherent (a : Adapter) : Prop :=
  a.bus.presented STATUS_ADDR = a.shown ∧ a.bus.shadow STATUS_ADDR = a.shown

def BusInv (a : Adapter) : Main → Prop
  | .argument _ => True
  | .publish v .load _ | .publish v (.vpu _) _ => v = a.shown
  | .publish v .shadow _ => v = a.shown ∧ a.bus.presented STATUS_ADDR = a.shown
  | .assertIrq _ => a.Coherent ∧ a.hdIrqEnable = true
  | .argumentIrq _ => a.hdIrq = STATUS_IRQ
  | .publishIrq v .load _ | .publishIrq v (.vpu _) _ => v = a.shown
  | .publishIrq v .shadow _ => v = a.shown ∧ a.bus.presented STATUS_ADDR = a.shown
  | .data _ (.vpu other) _ => a.Coherent ∧ other = a.shown
  | _ => a.Coherent

def Transfer.got : Transfer → List Tagged
  | .take _ got => got
  | .give .. => []

def After.current : After → List Tagged
  | .flags .. => []
  | .raised t | .lowered t => t.got

def Main.current : Main → List Tagged
  | .idle => []
  | .status _ after | .argument after | .publish _ _ after => after.current
  | .start t | .data _ _ t | .ackClear t | .test t | .assertIrq t | .setIrq t | .argumentIrq t
  | .publishIrq _ _ t | .wait t | .body t => t.got
  | .taken _ bytes | .got _ bytes => bytes

def Role.asks : Role → Bool
  | .waiting (.take ..) => true
  | _ => false

def Link (w : World) : Role → Prop
  | .free | .waiting (.give ..) => w.stored = w.genuine
  | .waiting (.take ..) =>
    w.raised ∈ w.asked ∧ (w.hd.hdAck = false → w.stored = w.genuine) ∧
      (w.hd.hdAck = true → w.genuine = w.stored ++ [(w.raised, w.hd.hdData)] ∧ w.raised ≤ w.host.answered)
  | .holding => w.genuine = w.stored ++ [(w.raised, w.hd.hdData)]

structure Inv (w : World) : Prop where
  answered : w.host.answered ≤ w.inView
  inView : w.inView ≤ w.raised
  seen : ∀ k, w.host.seen = some k → w.host.answered < k ∧ k ≤ w.inView
  asked : ∀ k ∈ w.asked, k ≤ w.host.answered ∨ (k = w.raised ∧ w.main.role.asks = true)
  sent : ∀ p ∈ w.sent, p.1 ≤ w.host.answered
  ordered : (w.sent.map Prod.fst).Pairwise (· < ·)
  link : Link w w.main.role
  blocks : (w.done.flatMap Prod.snd ++ w.main.current).Sublist w.stored
  whole : ∀ b ∈ w.done, complete b.1 b.2 = true
  bus : BusInv w.hd w.main
  nIrq : w.hd.nIrq = true → w.hd.hdIrqEnable = true

section

variable {w : World}

theorem Inv.keep (h : Inv w) {a : Adapter} {m : Main}
    (hasks : w.main.role.asks = true → m.role.asks = true ∨ w.raised ≤ w.host.answered)
    (hlink : Link { w with hd := a, main := m } m.role)
    (hcurrent : m.current = w.main.current) (hbus : BusInv a m)
    (hnirq : a.nIrq = true → a.hdIrqEnable = true) : Inv { w with hd := a, main := m } := by
  refine { h with asked := ?_, link := ?_, blocks := ?_, bus := ?_, nIrq := ?_ }
  · intro k hk
    rcases h.asked k hk with hle | ⟨rfl, hrole⟩
    · exact .inl hle
    · rcases hasks hrole with hasks | hle
      · exact .inr ⟨rfl, hasks⟩
      · exact .inl hle
  · exact hlink
  · simp only [hcurrent]
    exact h.blocks
  · exact hbus
  · exact hnirq

theorem Inv.goto (h : Inv w) {a : Adapter} {m : Main} (hrole : m.role = w.main.role)
    (hcurrent : m.current = w.main.current) (hack : a.hdAck = w.hd.hdAck)
    (hdata : a.hdData = w.hd.hdData) (hbus : BusInv a m)
    (hnirq : a.nIrq = true → a.hdIrqEnable = true) : Inv { w with hd := a, main := m } := by
  apply h.keep _ _ hcurrent hbus hnirq
  · intro hasks
    rw [hrole]
    exact .inl hasks
  · have hlink := h.link
    rw [hrole]
    cases hr : w.main.role with
    | free =>
      rw [hr] at hlink
      exact hlink
    | holding =>
      rw [hr] at hlink
      simp only [Link, hdata]
      exact hlink
    | waiting t =>
      rw [hr] at hlink
      cases t with
      | give dma bytes => exact hlink
      | take kind got =>
        simp only [Link, hack, hdata]
        exact hlink

/-! ### Callbacks -/

theorem irq_bus (a : Adapter) (enable : Bool) :
    ((hd_emulator_IRQ a enable).bus = a.bus ∧ (hd_emulator_IRQ a enable).hdIrq = a.hdIrq) ∨
      (hd_emulator_IRQ a enable).Coherent := by
  cases enable with
  | true =>
    by_cases hreq : a.hdStatus &&& STATUS_REQ ≠ 0
    · right
      simp only [hd_emulator_IRQ, if_true, if_pos hreq]
      exact memoryWrite_status a.bus (a.hdStatus ||| STATUS_IRQ)
    · left
      simp only [hd_emulator_IRQ, if_true, if_neg hreq, and_self]
  | false =>
    right
    have hzero : a.hdStatus ||| 0 = a.hdStatus := BitVec.or_zero
    have hbus := memoryWrite_status a.bus a.hdStatus
    simp only [Adapter.Coherent, Adapter.shown, hd_emulator_IRQ, Bool.false_eq_true, if_false, hzero]
    exact hbus

structure SameData (a b : Adapter) : Prop where
  hdAck : b.hdAck = a.hdAck
  hdData : b.hdData = a.hdData
  hdStatus : b.hdStatus = a.hdStatus

theorem irq_same (a : Adapter) (enable : Bool) : SameData a (hd_emulator_IRQ a enable) := by
  unfold hd_emulator_IRQ
  cases enable with
  | true =>
    by_cases hreq : a.hdStatus &&& STATUS_REQ ≠ 0
    · simp only [if_true, if_pos hreq]
      exact ⟨rfl, rfl, rfl⟩
    · simp only [if_true, if_neg hreq]
      exact ⟨rfl, rfl, rfl⟩
  | false => exact ⟨rfl, rfl, rfl⟩

theorem irq_nIrq (a : Adapter) (enable : Bool) :
    (hd_emulator_IRQ a enable).nIrq = true → (hd_emulator_IRQ a enable).hdIrqEnable = true := by
  unfold hd_emulator_IRQ
  cases enable with
  | true =>
    by_cases hreq : a.hdStatus &&& STATUS_REQ ≠ 0
    · simp only [if_true, if_pos hreq, true_imp_iff]
    · simp only [if_true, if_neg hreq, implies_true]
  | false =>
    simp only [Bool.false_eq_true, if_false]
    exact id

theorem irq_enable (a : Adapter) : (hd_emulator_IRQ a true).hdIrqEnable = true := by
  by_cases hreq : a.hdStatus &&& STATUS_REQ ≠ 0
  · simp only [hd_emulator_IRQ, if_true, if_pos hreq]
  · simp only [hd_emulator_IRQ, if_true, if_neg hreq]

theorem irq_unchanged {a : Adapter} {enable : Bool} (h : (hd_emulator_IRQ a enable).hdIrq = a.hdIrq) :
    (hd_emulator_IRQ a enable).shown = a.shown ∧
      (a.bus.presented STATUS_ADDR = a.shown →
        (hd_emulator_IRQ a enable).bus.presented STATUS_ADDR = a.shown) := by
  have hshown : (hd_emulator_IRQ a enable).shown = a.shown := by
    rw [Adapter.shown, Adapter.shown, h, (irq_same a enable).hdStatus]
  refine ⟨hshown, ?_⟩
  intro hp
  rcases irq_bus a enable with ⟨hbus, -⟩ | hcoherent
  · rw [hbus]
    exact hp
  · exact hcoherent.1.trans hshown

theorem irq_coherent {a : Adapter} (enable : Bool) (h : a.Coherent) : (hd_emulator_IRQ a enable).Coherent := by
  rcases irq_bus a enable with ⟨hbus, hirq⟩ | hcoherent
  · have hshown := (irq_unchanged hirq).1
    rw [Adapter.Coherent, hbus, hshown]
    exact h
  · exact hcoherent

theorem busInv_irq {a : Adapter} {main : Main} {enable : Bool} (h : BusInv a main)
    (hplain : main.admits a enable) : BusInv (hd_emulator_IRQ a enable) main := by
  cases main with
  | argument after => trivial
  | publish v st after =>
    obtain ⟨hshown, hpresented⟩ := irq_unchanged hplain
    cases st with
    | load => exact Eq.trans h hshown.symm
    | vpu other => exact Eq.trans h hshown.symm
    | shadow => exact ⟨h.1.trans hshown.symm, (hpresented h.2).trans hshown.symm⟩
  | publishIrq v st t =>
    obtain ⟨hshown, hpresented⟩ := irq_unchanged hplain
    cases st with
    | load => exact Eq.trans h hshown.symm
    | vpu other => exact Eq.trans h hshown.symm
    | shadow => exact ⟨h.1.trans hshown.symm, (hpresented h.2).trans hshown.symm⟩
  | argumentIrq t => exact Eq.trans hplain h
  | assertIrq t =>
    obtain rfl : enable = true := hplain
    exact ⟨irq_coherent true h.1, irq_enable a⟩
  | data v st t =>
    cases st with
    | load => exact irq_coherent enable h
    | vpu other => exact ⟨irq_coherent enable h.1, h.2.trans (irq_unchanged hplain).1.symm⟩
    | shadow => exact irq_coherent enable h
  | idle | start t | ackClear t | status v after | test t | setIrq t | wait t | body t | taken buffer got | got kind got =>
    exact irq_coherent enable h

theorem busInv_congr {a b : Adapter} {main : Main} (h : BusInv a main) (hbus : b.bus = a.bus)
    (hstatus : b.hdStatus = a.hdStatus) (hirq : b.hdIrq = a.hdIrq) (henable : b.hdIrqEnable = a.hdIrqEnable) :
    BusInv b main := by
  have hshown : b.shown = a.shown := by
    rw [Adapter.shown, Adapter.shown, hstatus, hirq]
  have hcoherent : b.Coherent ↔ a.Coherent := by
    rw [Adapter.Coherent, Adapter.Coherent, hbus, hshown]
  cases main with
  | publish v st after | publishIrq v st t | data v st t =>
    cases st <;> simpa only [BusInv, hshown, hbus, hcoherent] using h
  | argument after => trivial
  | _ => simpa only [BusInv, hshown, hbus, hirq, henable, hcoherent] using h

theorem Inv.irq (h : Inv w) {enable : Bool} (hp : Plain w (.irq enable)) :
    Inv (w.step (.irq enable)) := by
  have hsame := irq_same w.hd enable
  exact h.goto (a := hd_emulator_IRQ w.hd enable) (m := w.main) rfl rfl hsame.hdAck hsame.hdData
    (busInv_irq h.bus hp) (irq_nIrq w.hd enable)

theorem Inv.see (h : Inv w) : Inv w.see := by
  unfold World.see
  split
  · rename_i hsee
    refine { h with seen := ?_ }
    · rintro k ⟨⟩
      exact ⟨hsee.2, Nat.le_refl _⟩
  · exact h

theorem Inv.select (h : Inv w) {data : BitVec 8} (hp : Plain w (.select data)) :
    Inv (w.step (.select data)) := by
  apply h.keep (a := hd_emulator_nSEL w.hd data) (m := w.main)
  · exact .inl
  · have hlink := h.link
    simp only [Plain] at hp
    cases hr : w.main.role with
    | free =>
      rw [hr] at hlink
      exact hlink
    | holding =>
      rw [hr] at hp
      exact absurd hp not_false
    | waiting t =>
      rw [hr] at hlink hp
      cases t with
      | give dma bytes => exact hlink
      | take kind got =>
        refine ⟨hlink.1, hlink.2.1, ?_⟩
        intro hack
        exact absurd (hp.symm.trans hack) Bool.false_ne_true
  · rfl
  · exact busInv_congr h.bus rfl rfl rfl rfl
  · exact h.nIrq

theorem Inv.asked_answer (h : Inv w) {k : Nat} (hseen : w.host.seen = some k) :
    ∀ k' ∈ w.asked, k' ≤ k ∨ (k' = w.raised ∧ w.main.role.asks = true) := by
  intro k' hk'
  rcases h.asked k' hk' with hle | hlast
  · exact .inl (Nat.le_of_lt (Nat.lt_of_le_of_lt hle (h.seen k hseen).1))
  · exact .inr hlast

theorem Inv.read (h : Inv w) (hp : Plain w .read) : Inv (w.step .read) := by
  simp only [World.step]
  cases hseen : w.host.seen with
  | none => exact h
  | some k =>
    have hk := h.seen k hseen
    have hplain := hp k hseen
    refine { h with answered := ?_, seen := ?_, asked := ?_, sent := ?_, link := ?_, bus := ?_ }
    · exact hk.2
    · exact nofun
    · exact h.asked_answer hseen
    · intro p hmem
      exact Nat.le_of_lt (Nat.lt_of_le_of_lt (h.sent p hmem) hk.1)
    · have hlink := h.link
      show Link _ w.main.role
      cases hr : w.main.role with
      | free =>
        rw [hr] at hlink
        exact hlink
      | holding =>
        rw [hr] at hlink
        exact hlink
      | waiting t =>
        rw [hr] at hlink hplain
        cases t with
        | give dma bytes => exact hlink
        | take kind got => exact absurd hplain not_false
    · exact busInv_congr h.bus rfl rfl rfl rfl

theorem busInv_write {a : Adapter} {main : Main} (h : BusInv a main) (data : BitVec 8)
    (hplain : main.admitsWrite a) : BusInv (hd_emulator_write_data a data) main := by
  obtain ⟨hpresented, hshadow⟩ := memoryWrite_data a.bus data
  have hcoherent : a.Coherent → (hd_emulator_write_data a data).Coherent := by
    rintro ⟨-, hs⟩
    exact ⟨hpresented.trans hs, hshadow.trans hs⟩
  cases main with
  | argument after => trivial
  | publish v st after =>
    cases st with
    | load => exact h
    | vpu other => exact h
    | shadow => exact ⟨h.1, hpresented.trans (Eq.trans hplain h.1)⟩
  | publishIrq v st t =>
    cases st with
    | load => exact h
    | vpu other => exact h
    | shadow => exact ⟨h.1, hpresented.trans (Eq.trans hplain h.1)⟩
  | argumentIrq t => exact h
  | assertIrq t => exact ⟨hcoherent h.1, h.2⟩
  | data v st t =>
    cases st with
    | load => exact hcoherent h
    | vpu other => exact ⟨hcoherent h.1, h.2⟩
    | shadow => exact hcoherent h
  | idle | start t | ackClear t | status v after | test t | setIrq t | wait t | body t | taken buffer got | got kind got =>
    exact hcoherent h

theorem Inv.ordered_snoc (h : Inv w) {k : Nat} (hseen : w.host.seen = some k) (data : BitVec 8) :
    ((w.sent ++ [(k, data)]).map Prod.fst).Pairwise (· < ·) := by
  rw [List.map_append, List.pairwise_append]
  refine ⟨h.ordered, List.pairwise_singleton _ _, ?_⟩
  intro k' hk' k'' hk''
  obtain ⟨p, hp, rfl⟩ := List.mem_map.mp hk'
  rw [List.map_singleton, List.mem_singleton] at hk''
  rw [hk'']
  exact Nat.lt_of_le_of_lt (h.sent p hp) (h.seen k hseen).1

theorem genuine_snoc_of_mem {k : Nat} (hk : k ∈ w.asked) (data : BitVec 8) :
    (w.sent ++ [(k, data)]).filter (fun p => p.1 ∈ w.asked) = w.genuine ++ [(k, data)] := by
  rw [List.filter_append, World.genuine, List.filter_cons_of_pos (by simpa using hk), List.filter_nil]

theorem genuine_snoc_of_not_mem {k : Nat} (hk : k ∉ w.asked) (data : BitVec 8) :
    (w.sent ++ [(k, data)]).filter (fun p => p.1 ∈ w.asked) = w.genuine := by
  rw [List.filter_append, World.genuine, List.filter_cons_of_neg (by simpa using hk), List.filter_nil,
    List.append_nil]

theorem Inv.not_asked (h : Inv w) {k : Nat} (hseen : w.host.seen = some k) (hrole : w.main.role.asks = false) :
    k ∉ w.asked := by
  intro hk
  rcases h.asked k hk with hle | ⟨-, hasks⟩
  · exact Nat.not_lt.mpr hle (h.seen k hseen).1
  · exact Bool.false_ne_true (hrole.symm.trans hasks)

theorem Inv.write (h : Inv w) {data : BitVec 8} (hp : Plain w (.write data)) :
    Inv (w.step (.write data)) := by
  simp only [World.step]
  cases hseen : w.host.seen with
  | none => exact h
  | some k =>
    have hk := h.seen k hseen
    obtain ⟨hwhen, hwrite⟩ := hp k hseen
    refine { h with
        answered := ?_, seen := ?_, asked := ?_, sent := ?_, ordered := ?_, link := ?_, bus := ?_ }
    · exact hk.2
    · exact nofun
    · exact h.asked_answer hseen
    · intro p hmem
      rcases List.mem_append.mp hmem with hold | hnew
      · exact Nat.le_of_lt (Nat.lt_of_le_of_lt (h.sent p hold) hk.1)
      · rw [List.mem_singleton.mp hnew]
        exact Nat.le_refl k
    · exact h.ordered_snoc hseen data
    · have hlink := h.link
      show Link _ w.main.role
      cases hr : w.main.role with
      | free =>
        rw [hr] at hlink
        have hnot := h.not_asked hseen (by rw [hr]; rfl)
        exact hlink.trans (genuine_snoc_of_not_mem hnot data).symm
      | holding =>
        rw [hr] at hwhen
        exact absurd hwhen not_false
      | waiting t =>
        rw [hr] at hlink hwhen
        cases t with
        | give dma bytes =>
          have hnot := h.not_asked hseen (by rw [hr]; rfl)
          exact hlink.trans (genuine_snoc_of_not_mem hnot data).symm
        | take kind got =>
          obtain rfl : k = w.raised := hwhen
          refine ⟨hlink.1, nofun, ?_⟩
          intro _
          cases hack : w.hd.hdAck with
          | true =>
            have hle := (hlink.2.2 hack).2
            omega
          | false =>
            have hstored := hlink.2.1 hack
            refine ⟨?_, Nat.le_refl _⟩
            refine (genuine_snoc_of_mem hlink.1 data).trans ?_
            rw [← hstored]
            rfl
    · exact busInv_write h.bus data hwrite

/-! ### The main loop -/

theorem Inv.free (h : Inv w) (hstored : w.stored = w.genuine)
    (hasks : w.main.role.asks = true → w.raised ≤ w.host.answered) {a : Adapter} {m : Main}
    (hrole : m.role = .free) (hcurrent : m.current = w.main.current) (hbus : BusInv a m)
    (hnirq : a.nIrq = true → a.hdIrqEnable = true) : Inv { w with hd := a, main := m } := by
  apply h.keep _ _ hcurrent hbus hnirq
  · intro ha
    exact .inr (hasks ha)
  · rw [hrole]
    exact hstored

theorem Inv.stored_eq (h : Inv w) (hrole : w.main.role = .free) : w.stored = w.genuine := by
  have hlink := h.link
  rw [hrole] at hlink
  exact hlink

theorem Inv.onward (h : Inv w) (hrole : w.main.role = .free) {a : Adapter} {m : Main}
    (hrole' : m.role = .free) (hcurrent : m.current = w.main.current) (hbus : BusInv a m)
    (hnirq : a.nIrq = true → a.hdIrqEnable = true) : Inv { w with hd := a, main := m } := by
  apply h.free (h.stored_eq hrole) _ hrole' hcurrent hbus hnirq
  intro hasks
  rw [hrole] at hasks
  exact absurd hasks Bool.false_ne_true

theorem Inv.flags (h : Inv w) (hrole : w.main.role = .free) (hcurrent : w.main.current = [])
    (hbus : w.hd.Coherent) (clearSel : Bool) (ops : List (BitVec 8 × Bool)) : Inv (w.flags clearSel ops) := by
  cases ops with
  | nil => exact h.onward hrole rfl hcurrent.symm hbus h.nIrq
  | cons op ops => exact h.onward hrole rfl hcurrent.symm hbus h.nIrq

theorem Inv.finish (h : Inv w) {kind : Kind} {got : List Tagged} (hmain : w.main = .start (.take kind got))
    (hcomplete : complete kind got = true) (rst : Bool) : Inv (w.finish kind got rst) := by
  have hrole : w.main.role = .free := by rw [hmain]; rfl
  have hbus : w.hd.Coherent := by
    have hb := h.bus
    rw [hmain] at hb
    exact hb
  have hblocks := h.blocks
  rw [hmain] at hblocks
  have hdone : Inv { w with main := .idle, done := w.done ++ [(kind, got)] } := by
    refine { h with asked := ?_, link := ?_, blocks := ?_, whole := ?_, bus := ?_ }
    · intro k hk
      rcases h.asked k hk with hle | ⟨-, hasks⟩
      · exact .inl hle
      · rw [hrole] at hasks
        exact absurd hasks Bool.false_ne_true
    · exact h.stored_eq hrole
    · simp only [List.flatMap_append, List.flatMap_singleton, Main.current, List.append_nil]
      exact hblocks
    · intro b hb
      rcases List.mem_append.mp hb with hold | hnew
      · exact h.whole b hold
      · rw [List.mem_singleton.mp hnew]
        exact hcomplete
    · exact hbus
  have hdropped : Inv { w with main := .idle } := by
    refine { h with asked := ?_, link := ?_, blocks := ?_, bus := ?_ }
    · exact hdone.asked
    · exact hdone.link
    · simp only [Main.current, List.append_nil]
      exact (List.sublist_append_left _ _).trans hblocks
    · exact hbus
  unfold World.finish
  split
  · exact hdropped
  · exact hdone

theorem Inv.proceed (h : Inv w) {kind : Kind} {got : List Tagged} (hmain : w.main = .start (.take kind got))
    (rst : Bool) : Inv (w.proceed kind got rst) := by
  unfold World.proceed
  split
  · rename_i hcomplete
    exact h.finish hmain hcomplete rst
  · rw [← hmain]
    exact h

theorem Inv.raise (h : Inv w) {t : Transfer} (hmain : w.main = .ackClear t) (rst : Bool) :
    Inv (w.advance rst) := by
  have hrole : w.main.role = .free := by rw [hmain]; rfl
  have hstored := h.stored_eq hrole
  have hbus := h.bus
  have hblocks := h.blocks
  rw [hmain] at hbus hblocks
  have hold : ∀ k ∈ w.asked, k ≤ w.host.answered := by
    intro k hk
    rcases h.asked k hk with hle | ⟨-, hasks⟩
    · exact hle
    · rw [hrole] at hasks
      exact absurd hasks Bool.false_ne_true
  have hview := h.answered
  have hraised := h.inView
  simp only [World.advance, hmain]
  cases t with
  | give dma bytes =>
    refine { h with answered := ?_, inView := ?_, asked := ?_, link := ?_, blocks := ?_, bus := ?_ }
    · exact hview
    · exact Nat.le_succ_of_le hraised
    · intro k hk
      exact .inl (hold k hk)
    · exact hstored
    · exact hblocks
    · exact hbus
  | take kind got =>
    have hgenuine : w.sent.filter (fun p => p.1 ∈ w.asked ++ [w.raised + 1]) = w.genuine := by
      apply List.filter_congr
      intro p hp
      have hlt := h.sent p hp
      have hne : p.1 ≠ w.raised + 1 := by omega
      simp only [List.mem_append, List.mem_singleton, hne, or_false]
    refine { h with answered := ?_, inView := ?_, asked := ?_, link := ?_, blocks := ?_, bus := ?_ }
    · exact hview
    · exact Nat.le_succ_of_le hraised
    · intro k hk
      rcases List.mem_append.mp hk with hk | hk
      · exact .inl (hold k hk)
      · exact .inr ⟨List.mem_singleton.mp hk, rfl⟩
    · refine ⟨List.mem_append_right _ (List.mem_singleton_self _), ?_, nofun⟩
      intro _
      exact hstored.trans hgenuine.symm
    · exact hblocks
    · exact hbus

theorem Inv.store (h : Inv w) (hholding : w.main.role = .holding) {g : List Tagged}
    (hcurrent : w.main.current = g) (hbus : w.hd.Coherent) (kind : Kind) :
    Inv { w with stored := w.stored ++ [(w.raised, w.hd.hdData)]
                 main := .start (.take kind (g ++ [(w.raised, w.hd.hdData)])) } := by
  have hlink := h.link
  have hblocks := h.blocks
  rw [hholding] at hlink
  rw [hcurrent] at hblocks
  refine { h with asked := ?_, link := ?_, blocks := ?_, bus := ?_ }
  · intro k hk
    rcases h.asked k hk with hle | ⟨-, hasks⟩
    · exact .inl hle
    · rw [hholding] at hasks
      exact absurd hasks Bool.false_ne_true
  · exact hlink.symm
  · simp only [Main.current, Transfer.got, ← List.append_assoc]
    exact hblocks.append_right _
  · exact hbus

theorem Inv.leave (h : Inv w) {t : Transfer} (hmain : w.main = .wait t ∨ w.main = .body t)
    (hack : w.main.role.asks = true → w.hd.hdAck = true) : Inv (w.leave t) := by
  have hrole : w.main.role = .waiting t := by
    rcases hmain with hm | hm
    · rw [hm]
      rfl
    · rw [hm]
      rfl
  have hcurrent : w.main.current = t.got := by
    rcases hmain with hm | hm
    · rw [hm]
      rfl
    · rw [hm]
      rfl
  have hbus : w.hd.Coherent := by
    have hb := h.bus
    rcases hmain with hm | hm
    · rw [hm] at hb
      exact hb
    · rw [hm] at hb
      exact hb
  have hlink := h.link
  rw [hrole] at hlink hack
  cases t with
  | give dma bytes =>
    apply h.free
    · exact hlink
    · rw [hrole]
      exact nofun
    · rfl
    · exact hcurrent.symm
    · exact hbus
    · exact h.nIrq
  | take kind got =>
    obtain ⟨hlast, hanswered⟩ := hlink.2.2 (hack rfl)
    have hnext : ∀ main : Main, main.role = .holding → main.current = got → BusInv w.hd main →
        Inv { w with main := main } := by
      intro main hm hc hb
      apply h.keep (a := w.hd) _ _ (hc.trans hcurrent.symm) hb h.nIrq
      · exact fun _ => .inr hanswered
      · rw [hm]
        exact hlast
    cases kind with
    | cdb => exact hnext _ rfl rfl hbus
    | parameters n => exact hnext _ rfl rfl hbus
    | sector buffer => exact hnext _ rfl rfl hbus

theorem Inv.next (h : Inv w) {v : BitVec 8} {after : After} (hmain : w.main = .publish v .shadow after)
    (hbus : w.hd.Coherent) (rst : Bool) : Inv (w.next after rst) := by
  have hrole : w.main.role = after.role := by rw [hmain]; rfl
  have hcurrent : w.main.current = after.current := by rw [hmain]; rfl
  cases after with
  | flags ops clearSel => exact h.flags hrole hcurrent hbus clearSel ops
  | raised t => exact h.goto (a := w.hd) hrole.symm hcurrent.symm rfl rfl hbus h.nIrq
  | lowered t =>
    cases t with
    | give dma bytes =>
      simp only [World.next]
      split
      · exact h.onward hrole rfl hcurrent.symm hbus h.nIrq
      · exact h.onward hrole rfl hcurrent.symm hbus h.nIrq
    | take kind got =>
      cases kind with
      | cdb => exact h.goto (a := w.hd) hrole.symm hcurrent.symm rfl rfl hbus h.nIrq
      | parameters n => exact h.goto (a := w.hd) hrole.symm hcurrent.symm rfl rfl hbus h.nIrq
      | sector buffer =>
        have hstart : Inv { w with main := .start (.take (.sector buffer) got) } :=
          h.onward hrole rfl hcurrent.symm hbus h.nIrq
        exact hstart.proceed rfl rst

theorem status_neighbour : HD_ADDR ^^^ 1 = STATUS_ADDR := by decide

theorem Inv.advance (h : Inv w) {rst : Bool} (hp : Plain w (.advance rst)) : Inv (w.advance rst) := by
  have hb := h.bus
  have hn := h.nIrq
  cases hm : w.main with
  | idle =>
    simp only [World.advance, hm]
    exact h
  | start t =>
    rw [hm] at hb
    cases t with
    | take kind got =>
      simp only [World.advance, hm]
      exact h.goto (by rw [hm]; rfl) (by rw [hm]; rfl) rfl rfl hb hn
    | give dma bytes =>
      cases bytes with
      | nil =>
        simp only [World.advance, hm]
        exact h.goto (by rw [hm]; rfl) (by rw [hm]; rfl) rfl rfl hb hn
      | cons v bytes =>
        simp only [World.advance, hm]
        exact h.goto (by rw [hm]; rfl) (by rw [hm]; rfl) rfl rfl hb hn
  | data v st t =>
    rw [hm] at hb
    cases st with
    | load =>
      simp only [World.advance, hm, status_neighbour]
      exact h.goto (by rw [hm]; rfl) (by rw [hm]; rfl) rfl rfl ⟨hb, hb.2⟩ hn
    | vpu other =>
      simp only [World.advance, hm]
      exact h.goto (by rw [hm]; rfl) (by rw [hm]; rfl) rfl rfl
        ⟨(presented_storeVpu_data _ v other).trans hb.2, hb.1.2⟩ hn
    | shadow =>
      simp only [World.advance, hm]
      exact h.goto (by rw [hm]; rfl) (by rw [hm]; rfl) rfl rfl
        ⟨hb.1, (shadow_storeShadow_data _ v).trans hb.2⟩ hn
  | ackClear t => exact h.raise hm rst
  | status v after =>
    simp only [World.advance, hm]
    exact h.goto (by rw [hm]; rfl) (by rw [hm]; rfl) rfl rfl trivial hn
  | argument after =>
    simp only [World.advance, hm]
    exact h.goto (a := w.hd) (by rw [hm]; rfl) (by rw [hm]; rfl) rfl rfl rfl hn
  | publish v st after =>
    rw [hm] at hb
    cases st with
    | load =>
      simp only [World.advance, hm]
      exact h.goto (a := w.hd) (by rw [hm]; rfl) (by rw [hm]; rfl) rfl rfl hb hn
    | vpu other =>
      simp only [World.advance, hm]
      have hstored := h.goto
        (a := { w.hd with
          bus := w.hd.bus.storeVpu (STATUS_ADDR / 2) (Bus.byteWord STATUS_ADDR v (Bus.driven other)) })
        (m := .publish v .shadow after) (by rw [hm]; rfl) (by rw [hm]; rfl) rfl rfl
        ⟨hb, (presented_storeVpu_status _ v other).trans hb⟩ hn
      cases after with
      | flags ops clearSel => exact hstored
      | lowered t => exact hstored
      | raised t =>
        refine { hstored with answered := ?_, inView := ?_, seen := ?_ }
        · exact Nat.le_trans h.answered h.inView
        · exact Nat.le_refl _
        · intro k hk
          obtain ⟨hlt, hle⟩ := h.seen k hk
          exact ⟨hlt, Nat.le_trans hle h.inView⟩
    | shadow =>
      simp only [World.advance, hm]
      have hstored := h.goto (a := { w.hd with bus := w.hd.bus.storeShadow STATUS_ADDR v }) (m := w.main)
        rfl rfl rfl rfl (by rw [hm]; exact hb) hn
      exact hstored.next hm ⟨hb.2, (shadow_storeShadow_status _ v).trans hb.1⟩ rst
  | test t =>
    rw [hm] at hb
    simp only [World.advance, hm]
    split
    · rename_i henable
      exact h.goto (a := w.hd) (by rw [hm]; rfl) (by rw [hm]; rfl) rfl rfl ⟨hb, henable⟩ hn
    · exact h.goto (a := w.hd) (by rw [hm]; rfl) (by rw [hm]; rfl) rfl rfl hb hn
  | assertIrq t =>
    rw [hm] at hb
    simp only [World.advance, hm]
    exact h.goto (by rw [hm]; rfl) (by rw [hm]; rfl) rfl rfl hb.1 fun _ => hb.2
  | setIrq t =>
    simp only [World.advance, hm]
    exact h.goto (by rw [hm]; rfl) (by rw [hm]; rfl) rfl rfl rfl hn
  | argumentIrq t =>
    rw [hm] at hb
    simp only [World.advance, hm]
    exact h.goto (a := w.hd) (by rw [hm]; rfl) (by rw [hm]; rfl) rfl rfl
      (congrArg (w.hd.hdStatus ||| ·) (Eq.symm hb)) hn
  | publishIrq v st t =>
    rw [hm] at hb
    cases st with
    | load =>
      simp only [World.advance, hm]
      exact h.goto (a := w.hd) (by rw [hm]; rfl) (by rw [hm]; rfl) rfl rfl hb hn
    | vpu other =>
      simp only [World.advance, hm]
      exact h.goto (by rw [hm]; rfl) (by rw [hm]; rfl) rfl rfl
        ⟨hb, (presented_storeVpu_status _ v other).trans hb⟩ hn
    | shadow =>
      simp only [World.advance, hm]
      exact h.goto (by rw [hm]; rfl) (by rw [hm]; rfl) rfl rfl
        ⟨hb.2, (shadow_storeShadow_status _ v).trans hb.1⟩ hn
  | wait t =>
    rw [hm] at hb
    simp only [World.advance, hm]
    split
    · rename_i hexit
      apply h.leave (.inl hm)
      rw [hm]
      intro hasks
      cases t with
      | give dma bytes => exact absurd hasks Bool.false_ne_true
      | take kind got =>
        simp only [Plain, hm] at hp
        cases hack : w.hd.hdAck with
        | true => rfl
        | false =>
          rw [hack, hp hack] at hexit
          exact absurd hexit Bool.false_ne_true
    · exact h.goto (a := w.hd) (by rw [hm]; rfl) (by rw [hm]; rfl) rfl rfl hb hn
  | body t =>
    rw [hm] at hb
    simp only [World.advance, hm]
    exact h.goto (a := w.hd) (by rw [hm]; rfl) (by rw [hm]; rfl) rfl rfl hb hn
  | taken buffer got =>
    rw [hm] at hb
    simp only [World.advance, hm]
    have hstored := h.store (by rw [hm]; rfl) (g := got) (by rw [hm]; rfl) hb (.sector buffer)
    exact hstored.onward (a := w.hd) rfl rfl rfl hb hn
  | got kind got =>
    rw [hm] at hb
    simp only [World.advance, hm]
    have hstored := h.store (by rw [hm]; rfl) (g := got) (by rw [hm]; rfl) hb kind
    exact hstored.proceed rfl rst

theorem Inv.call (h : Inv w) (r : Routine) : Inv (w.call r) := by
  unfold World.call
  cases hm : w.main with
  | idle =>
    have hb := h.bus
    have hrole : w.main.role = .free := by rw [hm]; rfl
    have hcurrent : w.main.current = [] := by rw [hm]; rfl
    rw [hm] at hb
    cases r with
    | take kind =>
      have hstart : Inv { w with main := .start (.take kind []) } :=
        h.onward hrole rfl hcurrent.symm hb h.nIrq
      cases kind with
      | parameters n =>
        cases n with
        | zero => exact hstart.finish rfl rfl false
        | succ n => exact hstart
      | cdb => exact hstart
      | sector buffer => exact hstart
    | give dma bytes => exact h.onward hrole rfl hcurrent.symm hb h.nIrq
    | phase message commandNotData inputNotOutput => exact h.flags hrole hcurrent hb _ _
    | busy flagState => exact h.flags hrole hcurrent hb _ _
    | clearRequest => exact h.flags hrole hcurrent hb _ _
  | _ => exact h

theorem Inv.timeout (h : Inv w) {rst : Bool} (hp : Plain w (.timeout rst)) :
    Inv (w.step (.timeout rst)) := by
  cases hm : w.main with
  | body t =>
    have hb := h.bus
    rw [hm] at hb
    simp only [World.step, hm]
    cases t with
    | take kind got =>
      simp only [Plain, hm] at hp
      exact absurd hp not_false
    | give dma bytes =>
      have hnot : w.main.role.asks = true → w.hd.hdAck = true := by
        rw [hm]
        exact nofun
      have hlink := h.link
      rw [hm] at hlink
      cases dma with
      | true =>
        apply h.free (a := w.hd) (m := .idle) hlink
        · rw [hm]
          exact nofun
        · rfl
        · rw [hm]
          rfl
        · exact hb
        · exact h.nIrq
      | false => exact h.leave (.inr hm) hnot
  | _ =>
    simp only [World.step, hm]
    exact h

theorem Inv.step (h : Inv w) {e : Event} (hp : Plain w e) : Inv (w.step e) := by
  cases e with
  | call r => exact h.call r
  | advance rst => exact h.advance hp
  | timeout rst => exact h.timeout hp
  | see => exact h.see
  | write data => exact h.write hp
  | read => exact h.read hp
  | select data => exact h.select hp
  | irq enable => exact h.irq hp

end

/-! ### A run -/

theorem Inv.initial (data : BitVec 8) : Inv (World.initial data) := by
  constructor
  · exact Nat.le_refl 0
  · exact Nat.le_refl 0
  · exact nofun
  · exact nofun
  · exact nofun
  · exact .nil
  · rfl
  · exact .slnil
  · exact nofun
  · have hzero : (0 : BitVec 8) ||| 0 = 0 := by decide
    simp only [BusInv, Adapter.Coherent, Adapter.shown, World.initial, hzero]
    exact memoryWrite_status Bus.Memory.cleared 0
  · exact nofun

theorem Inv.noPhantom {w : World} (h : Inv w) : NoPhantom w := by
  have hinit : w.stored <+: w.genuine := by
    have hlink := h.link
    cases hr : w.main.role with
    | free =>
      rw [hr] at hlink
      exact ⟨[], (List.append_nil _).trans hlink⟩
    | holding =>
      rw [hr] at hlink
      exact ⟨_, hlink.symm⟩
    | waiting t =>
      rw [hr] at hlink
      cases t with
      | give dma bytes => exact ⟨[], (List.append_nil _).trans hlink⟩
      | take kind got =>
        cases hack : w.hd.hdAck with
        | false => exact ⟨[], (List.append_nil _).trans (hlink.2.1 hack)⟩
        | true => exact ⟨_, (hlink.2.2 hack).1.symm⟩
  constructor
  · exact hinit
  · have hgenuine : (w.genuine.map Prod.fst).Pairwise (· < ·) :=
      h.ordered.sublist (List.filter_sublist.map _)
    exact hgenuine.sublist (hinit.sublist.map _)
  · exact h.stored_eq
  · exact (List.sublist_append_left _ _).trans h.blocks
  · exact h.whole

theorem Inv.settled {w : World} (h : Inv w) : Settled w := by
  constructor
  · intro hquiet
    have hb := h.bus
    cases hm : w.main with
    | argument after | publish v st after | setIrq t | argumentIrq t | publishIrq v st t | data v st t =>
      rw [hm] at hquiet
      exact absurd hquiet.symm Bool.false_ne_true
    | assertIrq t =>
      rw [hm] at hb
      exact hb.1.1
    | idle | start t | ackClear t | status v after | test t | wait t | body t | taken buffer got | got kind got =>
      rw [hm] at hb
      exact hb.1
  · exact h.nIrq

/-- In a run in which every step is plain, what is stored is what the host gave, once and in order, and outside an
update of the status byte the Beeb is shown the adapter's status. -/
theorem handshake (data : BitVec 8) (events : List Event)
    (hplain : ∀ st ∈ history World.step (World.initial data) events, Plain st.pre st.op) :
    NoPhantom (final World.step (World.initial data) events) ∧
      Settled (final World.step (World.initial data) events) := by
  have hinv := (History.guarded_induction World.step Inv Plain (.initial data)
    (fun w e h hp => Inv.step h hp) events hplain).1
  exact ⟨hinv.noPhantom, hinv.settled⟩

/-! ### What is plain can be checked -/

instance (a : Adapter) (enable : Bool) : (m : Main) → Decidable (m.admits a enable)
  | .assertIrq _ => inferInstanceAs (Decidable (enable = true))
  | .publish .. | .publishIrq .. | .argumentIrq _ | .data _ (.vpu _) _ =>
    inferInstanceAs (Decidable ((hd_emulator_IRQ a enable).hdIrq = a.hdIrq))
  | .idle | .start _ | .data _ .load _ | .data _ .shadow _ | .ackClear _ | .status .. | .argument _ | .test _
  | .setIrq _ | .wait _ | .body _ | .taken .. | .got .. => inferInstanceAs (Decidable True)

instance (a : Adapter) : (m : Main) → Decidable (m.admitsWrite a)
  | .publish v .shadow _ | .publishIrq v .shadow _ => inferInstanceAs (Decidable (a.bus.shadow STATUS_ADDR = v))
  | .publish _ .load _ | .publish _ (.vpu _) _ | .publishIrq _ .load _ | .publishIrq _ (.vpu _) _
  | .argumentIrq _ | .assertIrq _ | .idle | .start _ | .data .. | .ackClear _ | .status .. | .argument _ | .test _
  | .setIrq _ | .wait _ | .body _ | .taken .. | .got .. => inferInstanceAs (Decidable True)

instance (hdAck rst : Bool) : (m : Main) → Decidable (m.admitsAdvance hdAck rst)
  | .wait (.take ..) => inferInstanceAs (Decidable (hdAck = false → rst = false))
  | .wait (.give ..) | .publish .. | .publishIrq .. | .argumentIrq _ | .assertIrq _ | .idle | .start _ | .data ..
  | .ackClear _ | .status .. | .argument _ | .test _ | .setIrq _ | .body _ | .taken .. | .got .. =>
    inferInstanceAs (Decidable True)

instance : (m : Main) → Decidable m.admitsTimeout
  | .body (.take ..) => inferInstanceAs (Decidable False)
  | .body (.give ..) | .publish .. | .publishIrq .. | .argumentIrq _ | .assertIrq _ | .idle | .start _ | .data ..
  | .ackClear _ | .status .. | .argument _ | .test _ | .setIrq _ | .wait _ | .taken .. | .got .. =>
    inferInstanceAs (Decidable True)

instance (raised k : Nat) : (r : Role) → Decidable (r.admitsAnswer raised k)
  | .waiting _ => inferInstanceAs (Decidable (k = raised))
  | .holding => inferInstanceAs (Decidable False)
  | .free => inferInstanceAs (Decidable True)

instance (raised k : Nat) : (r : Role) → Decidable (r.admitsRead raised k)
  | .waiting (.take ..) => inferInstanceAs (Decidable False)
  | .waiting (.give ..) => inferInstanceAs (Decidable (k = raised))
  | .holding | .free => inferInstanceAs (Decidable True)

instance (hdAck : Bool) : (r : Role) → Decidable (r.admitsSelect hdAck)
  | .waiting (.take ..) => inferInstanceAs (Decidable (hdAck = false))
  | .holding => inferInstanceAs (Decidable False)
  | .waiting (.give ..) | .free => inferInstanceAs (Decidable True)

instance (w : World) : (e : Event) → Decidable (Plain w e)
  | .call _ | .see => inferInstanceAs (Decidable True)
  | .advance rst => inferInstanceAs (Decidable (w.main.admitsAdvance w.hd.hdAck rst))
  | .timeout _ => inferInstanceAs (Decidable w.main.admitsTimeout)
  | .write _ =>
    inferInstanceAs (Decidable (∀ k, w.host.seen = some k →
      w.main.role.admitsAnswer w.raised k ∧ w.main.admitsWrite w.hd))
  | .read => inferInstanceAs (Decidable (∀ k, w.host.seen = some k → w.main.role.admitsRead w.raised k))
  | .select _ => inferInstanceAs (Decidable (w.main.role.admitsSelect w.hd.hdAck))
  | .irq enable => inferInstanceAs (Decidable (w.main.admits w.hd enable))

def twoParameters : List Event :=
  .irq true :: .call (.take (.parameters 2)) :: List.replicate 14 (.advance false : Event) ++
    ([.see, .write 0x5A] : List Event) ++ List.replicate 16 (.advance false : Event) ++
    ([.see, .write 0xA5] : List Event) ++ List.replicate 12 (.advance false : Event)

theorem handshake_twoParameters :
    (NoPhantom (final World.step (World.initial 0) twoParameters) ∧
      Settled (final World.step (World.initial 0) twoParameters)) ∧
      (final World.step (World.initial 0) twoParameters).done.map Prod.snd = [[(1, 0x5A), (2, 0xA5)]] :=
  ⟨handshake 0 twoParameters (by decide +kernel), by decide +kernel⟩

/-- `hostadapterReadByte` when the host does not answer. -/
def silentByte : List Event :=
  List.replicate 9 (.advance false : Event) ++ .timeout false :: List.replicate 6 (.advance false : Event)

def silentCommand : List Event := .call (.take .cdb) :: (List.replicate 6 silentByte).flatten

/-- A host that never writes: a command is executed all the same, of six times what was in the latch. -/
theorem silent_host_phantom :
    (final World.step (World.initial 0) silentCommand).sent = [] ∧
      (final World.step (World.initial 0) silentCommand).done.map (fun b => b.2.map Prod.snd) =
        [[0, 0, 0, 0, 0, 0]] ∧
      ¬ NoPhantom (final World.step (World.initial 0) silentCommand) := by
  have hsent : (final World.step (World.initial 0) silentCommand).sent = [] := by decide +kernel
  refine ⟨hsent, by decide +kernel, ?_⟩
  intro h
  have hlength := h.inOrder.length_le
  rw [World.genuine, hsent] at hlength
  revert hlength
  decide +kernel

end Pi1MHz.Handshake
