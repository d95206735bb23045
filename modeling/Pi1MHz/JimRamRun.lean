import Pi1MHz.JimRam
import Pi1MHz.FinSizes

/-!
# JIM RAM: one content

What every step keeps is `Inv`; whether a step keeps what the window and the data port show, and stays
in the RAM, is whether it is plain.
-/

namespace Pi1MHz.JimRam

open FinSizes

open Bus (byteOf)
open Services (Register jimRamStep discRamSize toNat_eq_bytes byteOf_replaced)
open History (history)
open Jim

variable {M : Machine} {s : Jim}

/-! ### Bytes of the addresses -/

theorem byteOf_replace_top (x : BitVec 32) (d : BitVec 8) {k : Nat} (hk : k < 4) :
    byteOf ((x &&& 0x00FFFFFF) ||| (d.setWidth 32 <<< 24)) k = if k = 3 then d else byteOf x k := by
  interval_cases k <;> ext i hi <;> interval_cases i <;> simp [byteOf]

def PageRegister.slot : PageRegister → Fin 3
  | .high => 0
  | .mid => 1
  | .low => 2

theorem toNat_bank (hsize : 0 < M.jimRamSize) (data : BitVec 8) : (bank M data).toNat < M.jimRamSize := by
  have hlt : M.jimRamSize < 256 := by
    have hinstalled := M.installed_lt
    unfold Machine.jimRamSize
    split
    · exact hinstalled
    · decide
  unfold bank
  split
  · have h1 : (1 : BitVec 8).toNat = 1 := rfl
    rw [BitVec.toNat_sub, BitVec.toNat_ofNat, h1]
    omega
  · omega

theorem toNat_top (x : BitVec 32) :
    (byteOf x 3).toNat * jimRamStep ≤ x.toNat ∧ x.toNat < ((byteOf x 3).toNat + 1) * jimRamStep := by
  have hbytes := toNat_eq_bytes x
  have h0 := (byteOf x 0).isLt
  have h1 := (byteOf x 1).isLt
  have h2 := (byteOf x 2).isLt
  simp only [jimRamStep]
  omega

theorem toNat_page (x : BitVec 32) (hlow : byteOf x 0 = 0) :
    x.toNat + 256 ≤ ((byteOf x 3).toNat + 1) * jimRamStep := by
  have hbytes := toNat_eq_bytes x
  have h0 : (byteOf x 0).toNat = 0 := by rw [hlow]; rfl
  have h1 := (byteOf x 1).isLt
  have h2 := (byteOf x 2).isLt
  simp only [jimRamStep]
  omega

theorem lt_ram_iff (x : BitVec 32) {n : Nat} : x.toNat + 1 ≤ n * jimRamStep ↔ (byteOf x 3).toNat < n := by
  obtain ⟨hlo, hhi⟩ := toNat_top x
  simp only [jimRamStep] at *
  omega

theorem page_ram_iff {x : BitVec 32} (hlow : byteOf x 0 = 0) {n : Nat} :
    x.toNat + 256 ≤ n * jimRamStep ↔ (byteOf x 3).toNat < n := by
  obtain ⟨hlo, hhi⟩ := toNat_top x
  have hpage := toNat_page x hlow
  simp only [jimRamStep] at *
  omega

section Bus

@[simp] theorem memoryWrite_location (l l' : Location) (data : BitVec 8) :
    (s.memoryWrite (M.location l) data).memory (M.location l')
      = if l' = l then data else s.memory (M.location l') := by
  simp only [memoryWrite, Function.update_apply, M.apart.eq_iff]

@[simp] theorem memoryWrite_window (l : Location) (data : BitVec 8) (i : Nat) :
    (s.memoryWrite (M.location l) data).memory (Pi1MHz_MEM_PAGE + i) = s.memory (Pi1MHz_MEM_PAGE + i) := by
  have hfred := M.inFred l
  have hne : Pi1MHz_MEM_PAGE + i ≠ M.location l := by
    unfold Pi1MHz_MEM_PAGE
    omega
  exact Function.update_of_ne hne _ _

@[simp] theorem windowWrite_location (l : Location) (data : BitVec 8) (i : Nat) :
    (s.memoryWrite (Pi1MHz_MEM_PAGE + i) data).memory (M.location l) = s.memory (M.location l) := by
  have hfred := M.inFred l
  have hne : M.location l ≠ Pi1MHz_MEM_PAGE + i := by
    unfold Pi1MHz_MEM_PAGE
    omega
  exact Function.update_of_ne hne _ _

@[simp] theorem memoryWritePage_location (page : Nat → BitVec 8) (l : Location) :
    (s.memoryWritePage page).memory (M.location l) = s.memory (M.location l) := by
  have hfred := M.inFred l
  have hout : ¬ (Pi1MHz_MEM_PAGE ≤ M.location l ∧ M.location l < Pi1MHz_MEM_PAGE + 256) := by
    unfold Pi1MHz_MEM_PAGE
    omega
  simp only [memoryWritePage, if_neg hout]

theorem memoryWritePage_window (page : Nat → BitVec 8) {i : Nat} (hi : i < 256) :
    (s.memoryWritePage page).memory (Pi1MHz_MEM_PAGE + i) = page i := by
  have hin : Pi1MHz_MEM_PAGE ≤ Pi1MHz_MEM_PAGE + i ∧ Pi1MHz_MEM_PAGE + i < Pi1MHz_MEM_PAGE + 256 := by
    omega
  simp only [memoryWritePage, if_pos hin, Nat.add_sub_cancel_left]

end Bus

/-! ### What every step keeps -/

structure Inv (M : Machine) (s : Jim) : Prop where
  pageBank : 0 < M.jimRamSize → (byteOf s.pageRamAddr 3).toNat < M.jimRamSize
  pageAligned : byteOf s.pageRamAddr 0 = 0
  byteBank : 0 < M.jimRamSize → (byteOf s.byteRamAddr 3).toNat + 1 = M.jimRamSize
  discBank : 2 ≤ M.jimRamSize →
    M.jimRamSize ≤ (byteOf s.discRamAddr 3).toNat + 2 ∧ (byteOf s.discRamAddr 3).toNat < M.jimRamSize
  discUnmoved : M.jimRamSize < 2 → s.discRamAddr = M.discRamBase
  pageRegisters : ∀ k : Fin 3, s.memory (M.location (.page k)) = byteOf s.pageRamAddr (3 - k)
  byteRegisters : ∀ k : Fin 3, s.memory (M.location (.byte k.castSucc)) = byteOf s.byteRamAddr k
  servicesRegisters : ∀ k : Fin 3,
    s.memory (M.location (.services (Fin.castLE (by decide) k))) = byteOf s.discRamAddr k
  discRamAddrHi : ∀ hi, s.discRamAddrHi = some hi → s.memory (M.location (.services 2)) = hi

structure Shown (M : Machine) (s : Jim) : Prop where
  window : 0 < M.jimRamSize → s.helper = false →
    ∀ i < 256, s.memory (Pi1MHz_MEM_PAGE + i) = s.jimRam (s.pageRamAddr.toNat + i)
  dataPort : 0 < M.jimRamSize → s.memory (M.location (.byte 3)) = s.jimRam s.byteRamAddr.toNat

theorem Inv.oneContent_iff (h : Inv M s) : OneContent M s ↔ Shown M s := by
  constructor
  · intro hone
    exact ⟨hone.window, hone.dataPort⟩
  · intro hshown
    exact ⟨hshown.window, hshown.dataPort, h.pageRegisters, h.byteRegisters, h.servicesRegisters⟩

theorem Inv.keep (h : Inv M s) {s' : Jim} (hpage : s'.pageRamAddr = s.pageRamAddr)
    (hbyte : s'.byteRamAddr = s.byteRamAddr) (hdisc : s'.discRamAddr = s.discRamAddr)
    (hhi : s'.discRamAddrHi = s.discRamAddrHi)
    (hp : ∀ k, s'.memory (M.location (.page k)) = s.memory (M.location (.page k)))
    (hb : ∀ k : Fin 3, s'.memory (M.location (.byte k.castSucc)) = s.memory (M.location (.byte k.castSucc)))
    (hs : ∀ k : Fin 3, s'.memory (M.location (.services (Fin.castLE (by decide) k)))
      = s.memory (M.location (.services (Fin.castLE (by decide) k)))) : Inv M s' := by
  constructor
  · rw [hpage]
    exact h.pageBank
  · rw [hpage]
    exact h.pageAligned
  · rw [hbyte]
    exact h.byteBank
  · rw [hdisc]
    exact h.discBank
  · rw [hdisc]
    exact h.discUnmoved
  · intro k
    rw [hpage, hp]
    exact h.pageRegisters k
  · intro k
    rw [hbyte, hb]
    exact h.byteRegisters k
  · intro k
    rw [hdisc, hs]
    exact h.servicesRegisters k
  · intro hi hsome
    rw [hhi] at hsome
    exact (hs 2).trans (h.discRamAddrHi hi hsome)

/-! ### The page registers -/

@[simp] theorem restore_location (l : Location) :
    s.ram_emulator_page_restore.memory (M.location l) = s.memory (M.location l) := by
  simp only [ram_emulator_page_restore, memoryWritePage_location]

theorem restore_window {i : Nat} (hi : i < 256) :
    s.ram_emulator_page_restore.memory (Pi1MHz_MEM_PAGE + i) = s.jimRam (s.pageRamAddr.toNat + i) := by
  simp only [ram_emulator_page_restore]
  rw [memoryWritePage_window _ hi]

def PageRegister.value (M : Machine) (data : BitVec 8) : PageRegister → BitVec 8
  | .high => bank M data
  | .mid | .low => data

def PageRegister.replaced (M : Machine) (addr : BitVec 32) (data : BitVec 8) : PageRegister → BitVec 32
  | .high => (addr &&& 0x00FFFFFF) ||| ((bank M data).setWidth 32 <<< 24)
  | .mid => (addr &&& 0xFF00FFFF) ||| (data.setWidth 32 <<< 16)
  | .low => (addr &&& 0xFFFF00FF) ||| (data.setWidth 32 <<< 8)

theorem pageAddr_eq (s : Jim) (data : BitVec 8) (reg : PageRegister) :
    s.ram_emulator_page_addr M data reg =
      { s with pageRamAddr := reg.replaced M s.pageRamAddr data }.ram_emulator_page_restore.memoryWrite
        (M.location (.page reg.slot)) (reg.value M data) := by
  cases reg with
  | high => rfl
  | mid => rfl
  | low => rfl

theorem byteOf_pageReplaced (addr : BitVec 32) (data : BitVec 8) (reg : PageRegister) {k : Nat} (hk : k < 4) :
    byteOf (reg.replaced M addr data) k = if k = 3 - reg.slot then reg.value M data else byteOf addr k := by
  cases reg with
  | high => exact byteOf_replace_top addr (bank M data) hk
  | mid => exact Services.byteOf_replace_high addr data hk
  | low => exact Services.byteOf_replace_mid addr data hk

theorem pageAddr_inv (h : Inv M s) (data : BitVec 8) (reg : PageRegister) :
    Inv M (s.ram_emulator_page_addr M data reg) := by
  rw [pageAddr_eq]
  refine { h with
      pageBank := ?_, pageAligned := ?_, pageRegisters := ?_, byteRegisters := ?_, servicesRegisters := ?_,
      discRamAddrHi := ?_ }
  · intro hsize
    refine lt_of_eq_of_lt (congrArg BitVec.toNat (byteOf_pageReplaced s.pageRamAddr data reg (by decide))) ?_
    cases reg with
    | high => exact toNat_bank hsize data
    | mid => exact h.pageBank hsize
    | low => exact h.pageBank hsize
  · refine (byteOf_pageReplaced s.pageRamAddr data reg (by decide)).trans ?_
    cases reg with
    | high => exact h.pageAligned
    | mid => exact h.pageAligned
    | low => exact h.pageAligned
  · intro k
    refine Eq.trans ?_ (byteOf_pageReplaced s.pageRamAddr data reg (by omega)).symm
    have hslot : Location.page k = Location.page reg.slot ↔ 3 - k.val = 3 - reg.slot.val := by
      rw [Location.page.injEq, ← Fin.val_inj]
      omega
    simp only [memoryWrite_location, restore_location, hslot, h.pageRegisters k]
  · intro k
    refine Eq.trans ?_ (h.byteRegisters k)
    simp only [memoryWrite_location, restore_location, reduceCtorEq, if_false]
  · intro k
    refine Eq.trans ?_ (h.servicesRegisters k)
    simp only [memoryWrite_location, restore_location, reduceCtorEq, if_false]
  · intro hi hsome
    refine Eq.trans ?_ (h.discRamAddrHi hi hsome)
    simp only [memoryWrite_location, restore_location, reduceCtorEq, if_false]

theorem pageAddr_shown (h : Shown M s) (data : BitVec 8) (reg : PageRegister) :
    Shown M (s.ram_emulator_page_addr M data reg) := by
  rw [pageAddr_eq]
  constructor
  · intro _ _ i hi
    rw [memoryWrite_window, restore_window hi]
    rfl
  · intro hsize
    refine Eq.trans ?_ (h.dataPort hsize)
    simp only [memoryWrite_location, restore_location, reduceCtorEq, if_false]

theorem jimRamSize_lt (M : Machine) : M.jimRamSize < 256 := by
  have hinstalled := M.installed_lt
  unfold Machine.jimRamSize
  split
  · exact hinstalled
  · decide

theorem pageAddr_plain (hi : Inv M s) (hs : Shown M s) (data : BitVec 8) (reg : PageRegister) :
    Plain M s (.pageAddr data reg) ↔
      Shown M (step M s (.pageAddr data reg)) ∧ InRange M s (.pageAddr data reg) := by
  have hinv := pageAddr_inv hi data reg
  simp only [Plain, InRange, accesses, List.forall_mem_singleton, step, page_ram_iff hinv.pageAligned]
  constructor
  · intro hsize
    exact ⟨pageAddr_shown hs data reg, hinv.pageBank hsize⟩
  · rintro ⟨-, hrange⟩
    omega

/-! ### The byte port -/

theorem index_lt_three (reg : Register) : reg.index < 3 := by
  cases reg with
  | low => decide
  | mid => decide
  | high => decide

theorem byte_ne_port (k : Fin 3) : Location.byte k.castSucc ≠ Location.byte 3 := by
  intro h
  have hval : k.val = 3 := congrArg Fin.val (Location.byte.inj h)
  omega

theorem byteAddr_inv (h : Inv M s) (reg : Register) (data : BitVec 8) :
    Inv M (s.ram_emulator_byte_addr M reg data) := by
  have hindex := index_lt_three reg
  refine { h with
      byteBank := ?_, pageRegisters := ?_, byteRegisters := ?_, servicesRegisters := ?_, discRamAddrHi := ?_ }
  · intro hsize
    have htop := byteOf_replaced s.byteRamAddr data reg (k := 3) (by decide)
    rw [if_neg (by omega)] at htop
    refine Eq.trans ?_ (h.byteBank hsize)
    rw [← htop]
    rfl
  · intro k
    refine Eq.trans ?_ (h.pageRegisters k)
    simp only [ram_emulator_byte_addr, memoryWrite_location, reduceCtorEq, if_false]
  · intro k
    refine Eq.trans ?_ (byteOf_replaced s.byteRamAddr data reg (by omega)).symm
    have hslot : Location.byte k.castSucc = Location.byte (Fin.ofNat 4 reg.index) ↔ k.val = reg.index := by
      rw [Location.byte.injEq, ← Fin.val_inj, Fin.val_castSucc, Fin.val_ofNat]
      omega
    simp only [ram_emulator_byte_addr, memoryWrite_location, hslot, byte_ne_port, if_false, h.byteRegisters k]
  · intro k
    refine Eq.trans ?_ (h.servicesRegisters k)
    simp only [ram_emulator_byte_addr, memoryWrite_location, reduceCtorEq, if_false]
  · intro hi hsome
    refine Eq.trans ?_ (h.discRamAddrHi hi hsome)
    simp only [ram_emulator_byte_addr, memoryWrite_location, reduceCtorEq, if_false]

theorem byteAddr_shown (h : Shown M s) (reg : Register) (data : BitVec 8) :
    Shown M (s.ram_emulator_byte_addr M reg data) := by
  have hindex := index_lt_three reg
  constructor
  · intro hsize hhelper i hi
    refine Eq.trans ?_ (h.window hsize hhelper i hi)
    simp only [ram_emulator_byte_addr, memoryWrite_window]
  · intro _
    have hslot : Location.byte 3 ≠ Location.byte (Fin.ofNat 4 reg.index) := by
      intro heq
      have hval : 3 = reg.index % 4 := congrArg Fin.val (Location.byte.inj heq)
      omega
    simp only [ram_emulator_byte_addr, memoryWrite_location, hslot, if_false, if_true]
    rfl

theorem byteAddr_plain (hi : Inv M s) (hs : Shown M s) (reg : Register) (data : BitVec 8) :
    Plain M s (.byteAddr reg data) ↔
      Shown M (step M s (.byteAddr reg data)) ∧ InRange M s (.byteAddr reg data) := by
  have hinv := byteAddr_inv hi reg data
  simp only [Plain, InRange, accesses, List.forall_mem_singleton, step, lt_ram_iff]
  constructor
  · intro hsize
    have hbank := hinv.byteBank hsize
    exact ⟨byteAddr_shown hs reg data, by omega⟩
  · rintro ⟨-, hrange⟩
    omega

theorem window_update (h : s.helper = false → ∀ i < 256,
      s.memory (Pi1MHz_MEM_PAGE + i) = s.jimRam (s.pageRamAddr.toNat + i)) (a : Nat) (data : BitVec 8) :
    (s.helper = false → ∀ i < 256,
      s.memory (Pi1MHz_MEM_PAGE + i) = Function.update s.jimRam a data (s.pageRamAddr.toNat + i)) ↔
      (InWindow s a → data = s.jimRam a) := by
  constructor
  · rintro hnew ⟨hhelper, hlo, hhi⟩
    have ha : s.pageRamAddr.toNat + (a - s.pageRamAddr.toNat) = a := by omega
    have hat := hnew hhelper (a - s.pageRamAddr.toNat) (by omega)
    rw [h hhelper _ (by omega), ha, Function.update_self] at hat
    exact hat.symm
  · intro hsame hhelper i hi
    rw [h hhelper i hi, Function.update_apply]
    split
    · rename_i heq
      rw [heq]
      exact (hsame ⟨hhelper, by omega, by omega⟩).symm
    · rfl

theorem byteWrite_inv (h : Inv M s) (data : BitVec 8) : Inv M (s.ram_emulator_byte_write M data) := by
  apply h.keep
  · rfl
  · rfl
  · rfl
  · rfl
  · intro k
    simp only [ram_emulator_byte_write, memoryWrite_location, reduceCtorEq, if_false]
  · intro k
    simp only [ram_emulator_byte_write, memoryWrite_location, byte_ne_port, if_false]
  · intro k
    simp only [ram_emulator_byte_write, memoryWrite_location, reduceCtorEq, if_false]

theorem byteWrite_plain (hi : Inv M s) (hs : Shown M s) (data : BitVec 8) :
    Plain M s (.byteWrite data) ↔
      Shown M (step M s (.byteWrite data)) ∧ InRange M s (.byteWrite data) := by
  simp only [Plain, InRange, accesses, List.forall_mem_singleton, step, lt_ram_iff]
  constructor
  · rintro ⟨hsize, hsame⟩
    have hbank := hi.byteBank hsize
    refine ⟨⟨?_, ?_⟩, by omega⟩
    · intro _ hhelper i hlt
      refine Eq.trans ?_ ((window_update (hs.window hsize) _ data).mpr hsame hhelper i hlt)
      simp only [ram_emulator_byte_write, memoryWrite_window]
    · intro _
      have hram : (s.ram_emulator_byte_write M data).jimRam s.byteRamAddr.toNat = data := by
        simp only [ram_emulator_byte_write, memoryWrite, Function.update_self]
      refine Eq.trans ?_ hram.symm
      simp only [ram_emulator_byte_write, memoryWrite_location, if_true]
  · rintro ⟨hshown, hrange⟩
    have hsize : 0 < M.jimRamSize := by omega
    refine ⟨hsize, (window_update (hs.window hsize) _ data).mp ?_⟩
    intro hhelper i hlt
    refine Eq.trans ?_ (hshown.window hsize hhelper i hlt)
    simp only [ram_emulator_byte_write, memoryWrite_window]

/-! ### The window -/

theorem windowWrite_window (a i : Nat) (data : BitVec 8) :
    (s.memoryWrite (Pi1MHz_MEM_PAGE + a) data).memory (Pi1MHz_MEM_PAGE + i)
      = if i = a then data else s.memory (Pi1MHz_MEM_PAGE + i) := by
  simp only [memoryWrite, Function.update_apply, Nat.add_left_cancel_iff]

theorem pageWrite_inv (h : Inv M s) (addr : Fin 256) (data : BitVec 8) :
    Inv M (s.ram_emulator_page_write addr data) := by
  refine h.keep rfl rfl rfl rfl ?_ ?_ ?_
  all_goals
    intro k
    simp only [ram_emulator_page_write, windowWrite_location]

theorem pageWrite_window (h : Shown M s) (addr : Fin 256) (data : BitVec 8) (hsize : 0 < M.jimRamSize)
    (hhelper : s.helper = false) {i : Nat} (hi : i < 256) :
    (s.ram_emulator_page_write addr data).memory (Pi1MHz_MEM_PAGE + i)
      = (s.ram_emulator_page_write addr data).jimRam (s.pageRamAddr.toNat + i) := by
  have hram : (s.ram_emulator_page_write addr data).jimRam
      = Function.update s.jimRam (s.pageRamAddr.toNat + addr) data := rfl
  rw [hram, ram_emulator_page_write, windowWrite_window]
  by_cases heq : i = addr
  · rw [if_pos heq, heq, Function.update_self]
  · have hne : s.pageRamAddr.toNat + i ≠ s.pageRamAddr.toNat + addr := by omega
    rw [if_neg heq, Function.update_of_ne hne]
    exact h.window hsize hhelper i hi

theorem pageWrite_plain (hi : Inv M s) (hs : Shown M s) (addr : Fin 256) (data : BitVec 8) :
    Plain M s (.pageWrite addr data) ↔
      Shown M (step M s (.pageWrite addr data)) ∧ InRange M s (.pageWrite addr data) := by
  have haddr := addr.isLt
  have hport : ∀ hsize : 0 < M.jimRamSize,
      ((s.ram_emulator_page_write addr data).memory (M.location (.byte 3))
        = (s.ram_emulator_page_write addr data).jimRam s.byteRamAddr.toNat ↔
      (s.pageRamAddr.toNat + addr = s.byteRamAddr.toNat → data = s.jimRam s.byteRamAddr.toNat)) := by
    intro hsize
    have hram : (s.ram_emulator_page_write addr data).jimRam
        = Function.update s.jimRam (s.pageRamAddr.toNat + addr) data := rfl
    rw [hram, ram_emulator_page_write, windowWrite_location]
    simp only [hs.dataPort hsize]
    by_cases heq : s.pageRamAddr.toNat + addr = s.byteRamAddr.toNat
    · rw [heq, Function.update_self]
      simp only [true_imp_iff, eq_comm]
    · rw [Function.update_of_ne (Ne.symm heq)]
      exact iff_of_true rfl fun h => absurd h heq
  simp only [Plain, InRange, accesses, List.forall_mem_singleton, step]
  constructor
  · rintro ⟨hsize, hsame⟩
    refine ⟨⟨fun _ hhelper i hlt => pageWrite_window hs addr data hsize hhelper hlt,
      fun _ => (hport hsize).mpr hsame⟩, ?_⟩
    have hrange := (page_ram_iff hi.pageAligned).mpr (hi.pageBank hsize)
    omega
  · rintro ⟨hshown, hrange⟩
    have hsize : 0 < M.jimRamSize := by
      rcases Nat.eq_zero_or_pos M.jimRamSize with hzero | hpos
      · rw [hzero, Nat.zero_mul] at hrange
        omega
      · exact hpos
    exact ⟨hsize, (hport hsize).mp (hshown.dataPort hsize)⟩

/-! ### The services port -/

structure Moved (M : Machine) (s s' : Jim) (addr : BitVec 32) : Prop where
  jimRam : s'.jimRam = s.jimRam
  pageRamAddr : s'.pageRamAddr = s.pageRamAddr
  byteRamAddr : s'.byteRamAddr = s.byteRamAddr
  discRamAddr : s'.discRamAddr = addr
  helper : s'.helper = s.helper
  pageRegisters : ∀ k, s'.memory (M.location (.page k)) = s.memory (M.location (.page k))
  byteRegisters : ∀ k, s'.memory (M.location (.byte k)) = s.memory (M.location (.byte k))
  window : ∀ i, s'.memory (Pi1MHz_MEM_PAGE + i) = s.memory (Pi1MHz_MEM_PAGE + i)
  servicesRegisters : ∀ k : Fin 3,
    s'.memory (M.location (.services (Fin.castLE (by decide) k))) = byteOf addr k
  discRamAddrHi : ∀ hi, s'.discRamAddrHi = some hi → s'.memory (M.location (.services 2)) = hi

theorem update_address_moved (h : ∀ hi, s.discRamAddrHi = some hi → s.memory (M.location (.services 2)) = hi) :
    Moved M s (s.services_emulator_update_address M) s.discRamAddr := by
  by_cases hhi : some (byteOf s.discRamAddr 2) ≠ s.discRamAddrHi
  · rw [services_emulator_update_address, if_pos hhi]
    constructor
    · rfl
    · rfl
    · rfl
    · rfl
    · rfl
    · intro k
      simp only [memoryWrite_location, reduceCtorEq, if_false]
    · intro k
      simp only [memoryWrite_location, reduceCtorEq, if_false]
    · intro i
      simp only [memoryWrite_window]
    · intro k
      match k with
      | 0 => simp [memoryWrite_location]
      | 1 => simp [memoryWrite_location]
      | 2 => simp [memoryWrite_location]
    · rintro hi ⟨⟩
      simp only [memoryWrite_location, if_true]
  · have hsame : some (byteOf s.discRamAddr 2) = s.discRamAddrHi := not_not.mp hhi
    have hkept := h _ hsame.symm
    rw [services_emulator_update_address, if_neg hhi]
    constructor
    · rfl
    · rfl
    · rfl
    · rfl
    · rfl
    · intro k
      simp only [memoryWrite_location, reduceCtorEq, if_false]
    · intro k
      simp only [memoryWrite_location, reduceCtorEq, if_false]
    · intro i
      simp only [memoryWrite_window]
    · intro k
      match k with
      | 0 => simp [memoryWrite_location]
      | 1 => simp [memoryWrite_location]
      | 2 => simpa [memoryWrite_location] using hkept
    · intro hi hsome
      refine Eq.trans ?_ (h hi hsome)
      simp [memoryWrite_location]

theorem setup_moved (h : Inv M s) (addr : BitVec 32) : Moved M s (s.setup M addr) addr := by
  rw [setup]
  generalize hport :
    { s with discRamAddr := addr }.memoryWrite (M.location (.services 3)) (s.jimRam addr.toNat) = t
  have hmemory : ∀ l, t.memory (M.location l) = if l = .services 3 then s.jimRam addr.toNat
      else s.memory (M.location l) := by
    intro l
    rw [← hport, memoryWrite_location]
  have hkept : ∀ hi, t.discRamAddrHi = some hi → t.memory (M.location (.services 2)) = hi := by
    intro hi hsome
    rw [← hport] at hsome
    rw [hmemory]
    exact h.discRamAddrHi hi hsome
  have hm := update_address_moved hkept
  subst hport
  refine { hm with pageRegisters := ?_, byteRegisters := ?_, window := ?_ }
  · intro k
    exact (hm.pageRegisters k).trans (hmemory _)
  · intro k
    exact (hm.byteRegisters k).trans (hmemory _)
  · intro i
    exact (hm.window i).trans (memoryWrite_window _ _ i)

theorem Moved.inv (h : Inv M s) {s' : Jim} {addr : BitVec 32} (hm : Moved M s s' addr)
    (hsize : 2 ≤ M.jimRamSize)
    (hbank : M.jimRamSize ≤ (byteOf addr 3).toNat + 2 ∧ (byteOf addr 3).toNat < M.jimRamSize) : Inv M s' := by
  constructor
  · rw [hm.pageRamAddr]
    exact h.pageBank
  · rw [hm.pageRamAddr]
    exact h.pageAligned
  · rw [hm.byteRamAddr]
    exact h.byteBank
  · intro _
    rw [hm.discRamAddr]
    exact hbank
  · intro hsmall
    omega
  · intro k
    rw [hm.pageRegisters, hm.pageRamAddr]
    exact h.pageRegisters k
  · intro k
    rw [hm.byteRegisters, hm.byteRamAddr]
    exact h.byteRegisters k
  · intro k
    rw [hm.servicesRegisters, hm.discRamAddr]
  · exact hm.discRamAddrHi

theorem Moved.shown_iff {s' : Jim} {addr : BitVec 32} (hm : Moved M s s' addr) : Shown M s' ↔ Shown M s := by
  have hwindow : ∀ i, s'.memory (Pi1MHz_MEM_PAGE + i) = s'.jimRam (s'.pageRamAddr.toNat + i) ↔
      s.memory (Pi1MHz_MEM_PAGE + i) = s.jimRam (s.pageRamAddr.toNat + i) := by
    intro i
    rw [hm.window, hm.jimRam, hm.pageRamAddr]
  have hport : s'.memory (M.location (.byte 3)) = s'.jimRam s'.byteRamAddr.toNat ↔
      s.memory (M.location (.byte 3)) = s.jimRam s.byteRamAddr.toNat := by
    rw [hm.byteRegisters, hm.jimRam, hm.byteRamAddr]
  constructor
  · intro h
    constructor
    · intro hsize hhelper i hi
      exact (hwindow i).mp (h.window hsize (hm.helper.trans hhelper) i hi)
    · intro hsize
      exact hport.mp (h.dataPort hsize)
  · intro h
    constructor
    · intro hsize hhelper i hi
      exact (hwindow i).mpr (h.window hsize (hm.helper.symm.trans hhelper) i hi)
    · intro hsize
      exact hport.mpr (h.dataPort hsize)

theorem toNat_discRamBase (hsize : 2 ≤ M.jimRamSize) :
    M.discRamBase.toNat + 2 * jimRamStep = M.jimRamSize * jimRamStep ∧
      M.discRamMax.toNat = M.jimRamSize * jimRamStep := by
  have hlt := jimRamSize_lt M
  have hram : (BitVec.ofNat 32 (M.jimRamSize * jimRamStep)).toNat = M.jimRamSize * jimRamStep := by
    rw [BitVec.toNat_ofNat]
    apply Nat.mod_eq_of_lt
    simp only [jimRamStep]
    omega
  have hbuffer : (BitVec.ofNat 32 discRamSize).toNat = 2 * jimRamStep := by
    simp only [discRamSize, jimRamStep]
    decide
  have hle : BitVec.ofNat 32 discRamSize ≤ BitVec.ofNat 32 (M.jimRamSize * jimRamStep) := by
    rw [BitVec.le_def, hram, hbuffer]
    exact Nat.mul_le_mul_right _ hsize
  have hbase : M.discRamBase.toNat = M.jimRamSize * jimRamStep - 2 * jimRamStep := by
    rw [Machine.discRamBase, BitVec.toNat_sub_of_le hle, hram, hbuffer]
  have hfits : 2 * jimRamStep ≤ M.jimRamSize * jimRamStep := Nat.mul_le_mul_right _ hsize
  have hword : M.jimRamSize * jimRamStep < 2 ^ 32 := by
    rw [← hram]
    exact BitVec.isLt _
  constructor
  · omega
  · rw [Machine.discRamMax, BitVec.toNat_add, hbase, hbuffer, Nat.sub_add_cancel hfits]
    exact Nat.mod_eq_of_lt hword

theorem bank_of_range {x : BitVec 32} {n : Nat} (hlo : n * jimRamStep ≤ x.toNat + 2 * jimRamStep)
    (hhi : x.toNat < n * jimRamStep) : n ≤ (byteOf x 3).toNat + 2 ∧ (byteOf x 3).toNat < n := by
  obtain ⟨htop, hnext⟩ := toNat_top x
  simp only [jimRamStep] at *
  omega

theorem range_of_bank {x : BitVec 32} {n : Nat}
    (h : n ≤ (byteOf x 3).toNat + 2 ∧ (byteOf x 3).toNat < n) :
    n * jimRamStep ≤ x.toNat + 2 * jimRamStep ∧ x.toNat < n * jimRamStep := by
  obtain ⟨htop, hnext⟩ := toNat_top x
  simp only [jimRamStep] at *
  omega

theorem next_bank (h : Inv M s) (hsize : 2 ≤ M.jimRamSize) :
    M.jimRamSize ≤ (byteOf (s.next M) 3).toNat + 2 ∧ (byteOf (s.next M) 3).toNat < M.jimRamSize := by
  obtain ⟨hbase, hmax⟩ := toNat_discRamBase hsize
  obtain ⟨hlo, hhi⟩ := range_of_bank (h.discBank hsize)
  have hlt := jimRamSize_lt M
  have hsucc : (s.discRamAddr + 1).toNat = s.discRamAddr.toNat + 1 := by
    have h1 : (1 : BitVec 32).toNat = 1 := rfl
    simp only [jimRamStep] at hhi
    rw [BitVec.toNat_add, h1]
    omega
  apply bank_of_range
  · unfold next
    split
    · omega
    · omega
  · unfold next
    split
    · rename_i hle
      simp only [jimRamStep] at *
      omega
    · rename_i hle
      have hbefore : (s.discRamAddr + 1).toNat < M.discRamMax.toNat := by
        rw [← BitVec.lt_def]
        exact BitVec.not_le.mp hle
      omega

theorem small_base (hsize : M.jimRamSize < 2) (reg : Register) (data : BitVec 8) :
    254 ≤ (byteOf M.discRamBase 3).toNat ∧ 254 ≤ (byteOf (Services.Port.replaced M.discRamBase data reg) 3).toNat ∧
      M.discRamMax ≤ M.discRamBase + 1 := by
  have hindex := index_lt_three reg
  rw [byteOf_replaced _ _ _ (by decide), if_neg (by omega)]
  have hsmall : M.jimRamSize = 0 ∨ M.jimRamSize = 1 := by omega
  simp only [Machine.discRamMax, Machine.discRamBase]
  rcases hsmall with hzero | hone
  · rw [hzero]
    decide
  · rw [hone]
    decide

theorem servicesAddr_inv (h : Inv M s) (hsize : 2 ≤ M.jimRamSize) (reg : Register) (data : BitVec 8) :
    Inv M (s.services_emulator_byte_addr M reg data) := by
  have hindex := index_lt_three reg
  apply (setup_moved h _).inv h hsize
  rw [byteOf_replaced _ _ _ (by decide), if_neg (by omega)]
  exact h.discBank hsize

theorem servicesAddr_plain (hi : Inv M s) (hs : Shown M s) (reg : Register) (data : BitVec 8) :
    Plain M s (.servicesAddr reg data) ↔
      Shown M (step M s (.servicesAddr reg data)) ∧ InRange M s (.servicesAddr reg data) := by
  have hmoved := setup_moved hi (Services.Port.replaced s.discRamAddr data reg)
  simp only [Plain, InRange, accesses, List.forall_mem_singleton, step, lt_ram_iff]
  constructor
  · intro hsize
    exact ⟨hmoved.shown_iff.mpr hs, ((servicesAddr_inv hi hsize reg data).discBank hsize).2⟩
  · rintro ⟨-, hrange⟩
    by_contra hsmall
    obtain ⟨-, htop, -⟩ := small_base (M := M) (by omega) reg data
    rw [← hi.discUnmoved (by omega), ← hmoved.discRamAddr] at htop
    have hlt : (byteOf (s.services_emulator_byte_addr M reg data).discRamAddr 3).toNat < M.jimRamSize := hrange
    have heq : (s.services_emulator_byte_addr M reg data) = s.setup M (Services.Port.replaced s.discRamAddr data reg) :=
      rfl
    rw [heq] at hlt
    omega

theorem next_small (h : Inv M s) (hsize : M.jimRamSize < 2) : 254 ≤ (byteOf (s.next M) 3).toNat := by
  obtain ⟨htop, -, hmax⟩ := small_base hsize .low 0
  unfold next
  rw [h.discUnmoved hsize, if_pos hmax]
  exact htop

theorem servicesRead_plain (hi : Inv M s) (hs : Shown M s) :
    Plain M s .servicesRead ↔ Shown M (step M s .servicesRead) ∧ InRange M s .servicesRead := by
  have hmoved := setup_moved hi (s.next M)
  have haddr : (s.services_emulator_byte_read_inc M).discRamAddr = s.next M := hmoved.discRamAddr
  simp only [Plain, InRange, accesses, List.forall_mem_singleton, step, lt_ram_iff, haddr]
  constructor
  · intro hsize
    exact ⟨hmoved.shown_iff.mpr hs, (next_bank hi hsize).2⟩
  · rintro ⟨-, hrange⟩
    by_contra hsmall
    have htop := next_small hi (by omega)
    omega

theorem shown_update (h : Shown M s) (hsize : 0 < M.jimRamSize) (a : BitVec 32) (data : BitVec 8) :
    Shown M { s with jimRam := Function.update s.jimRam a.toNat data } ↔
      (a = s.byteRamAddr ∨ InWindow s a.toNat → data = s.jimRam a.toNat) := by
  have hwindow := window_update (h.window hsize) a.toNat data
  have hport : s.memory (M.location (.byte 3)) = Function.update s.jimRam a.toNat data s.byteRamAddr.toNat ↔
      (a = s.byteRamAddr → data = s.jimRam a.toNat) := by
    rw [h.dataPort hsize]
    by_cases heq : a = s.byteRamAddr
    · rw [heq, Function.update_self]
      simp only [true_imp_iff, eq_comm]
    · have hne : s.byteRamAddr.toNat ≠ a.toNat := fun hn => heq (BitVec.eq_of_toNat_eq hn.symm)
      rw [Function.update_of_ne hne]
      exact iff_of_true rfl fun h' => absurd h' heq
  constructor
  · rintro hshown (heq | hin)
    · exact hport.mp (hshown.dataPort hsize) heq
    · exact hwindow.mp (hshown.window hsize) hin
  · intro hsame
    constructor
    · intro _
      exact hwindow.mpr fun hin => hsame (.inr hin)
    · intro _
      exact hport.mpr fun heq => hsame (.inl heq)

theorem servicesWrite_plain (hi : Inv M s) (hs : Shown M s) (data : BitVec 8) :
    Plain M s (.servicesWrite data) ↔
      Shown M (step M s (.servicesWrite data)) ∧ InRange M s (.servicesWrite data) := by
  have hi' : Inv M { s with jimRam := Function.update s.jimRam s.discRamAddr.toNat data } :=
    hi.keep rfl rfl rfl rfl (fun k => rfl) (fun k => rfl) (fun k => rfl)
  have hmoved := setup_moved hi' (s.next M)
  have haddr : (s.services_emulator_byte_write_inc M data).discRamAddr = s.next M := hmoved.discRamAddr
  simp only [Plain, InRange, accesses, List.forall_mem_cons, step, lt_ram_iff, haddr]
  constructor
  · rintro ⟨hsize, hsame⟩
    refine ⟨hmoved.shown_iff.mpr ((shown_update hs (by omega) _ data).mpr hsame), (hi.discBank hsize).2,
      (next_bank hi hsize).2, nofun⟩
  · rintro ⟨hshown, hrange, hnext, -⟩
    have hsize : 2 ≤ M.jimRamSize := by
      by_contra hsmall
      have htop := next_small hi (by omega)
      omega
    exact ⟨hsize, (shown_update hs (by omega) _ data).mp (hmoved.shown_iff.mp hshown)⟩

theorem servicesRead_inv (h : Inv M s) (hsize : 2 ≤ M.jimRamSize) :
    Inv M (s.services_emulator_byte_read_inc M) :=
  (setup_moved h (s.next M)).inv h hsize (next_bank h hsize)

theorem servicesWrite_inv (h : Inv M s) (hsize : 2 ≤ M.jimRamSize) (data : BitVec 8) :
    Inv M (s.services_emulator_byte_write_inc M data) := by
  have h' : Inv M { s with jimRam := Function.update s.jimRam s.discRamAddr.toNat data } :=
    h.keep rfl rfl rfl rfl (fun k => rfl) (fun k => rfl) (fun k => rfl)
  exact (setup_moved h' (s.next M)).inv h' hsize (next_bank h hsize)

/-! ### Helper pages -/

theorem bankSelect_inv (h : Inv M s) (data : BitVec 8) (text : Text) :
    Inv M (s.helpers_bank_select M data text) := by
  unfold helpers_bank_select
  by_cases hrestore : data = 0xFF
  · rw [if_pos hrestore]
    refine h.keep rfl rfl rfl rfl ?_ ?_ ?_
    all_goals
      intro k
      simp only [restore_location, memoryWrite_location, reduceCtorEq, if_false]
  · rw [if_neg hrestore]
    by_cases hzero : selected data = 0
    · simp only [if_pos hzero]
      refine h.keep rfl rfl rfl rfl ?_ ?_ ?_
      all_goals
        intro k
        simp only [windowWrite_location, memoryWritePage_location, memoryWrite_location, reduceCtorEq, if_false]
    · simp only [if_neg hzero]
      refine h.keep rfl rfl rfl rfl ?_ ?_ ?_
      all_goals
        intro k
        simp only [memoryWritePage_location, memoryWrite_location, reduceCtorEq, if_false]

theorem restore_plain (hi : Inv M s) (hs : Shown M s) {data : BitVec 8} (hrestore : data = 0xFF) (text : Text) :
    Plain M s (.bankSelect data text) ↔
      Shown M (step M s (.bankSelect data text)) ∧ InRange M s (.bankSelect data text) := by
  simp only [Plain, InRange, accesses, step, helpers_bank_select, if_pos hrestore, List.forall_mem_singleton,
    page_ram_iff hi.pageAligned]
  constructor
  · intro hsize
    refine ⟨⟨?_, ?_⟩, hi.pageBank hsize⟩
    · intro _ _ i hlt
      rw [restore_window hlt]
      rfl
    · intro hpos
      refine Eq.trans ?_ (hs.dataPort hpos)
      simp only [restore_location, memoryWrite_location, reduceCtorEq, if_false]
  · rintro ⟨-, hrange⟩
    omega

theorem screen_in_range (text : Text) :
    helpscreen M + text.1.length ≤ M.jimRamSize * jimRamStep ↔ 2 ≤ M.jimRamSize := by
  have htext := text.2
  have h1 : (0x00FFE000 : BitVec 32).toNat = 16769024 := by decide
  constructor
  · intro hrange
    by_contra hsmall
    have hcases : M.jimRamSize = 0 ∨ M.jimRamSize = 1 := by omega
    have hhigh : 2 * jimRamStep ≤ helpscreen M := by
      unfold helpscreen Machine.discRamBase
      rcases hcases with hzero | hone
      · rw [hzero]
        decide
      · rw [hone]
        decide
    simp only [jimRamStep] at hrange hhigh
    omega
  · intro hsize
    have hlt := jimRamSize_lt M
    obtain ⟨hbase, -⟩ := toNat_discRamBase hsize
    have hscreen : helpscreen M = M.discRamBase.toNat + 16769024 := by
      have hfits : M.discRamBase.toNat + 16769024 < 2 ^ 32 := by
        simp only [jimRamStep] at hbase
        omega
      rw [helpscreen, BitVec.toNat_add, h1, Nat.mod_eq_of_lt hfits]
    simp only [jimRamStep] at *
    omega

theorem screen_port (text : Text) (a : Nat) :
    s.jimRam a = helpers_screen_setup M s.jimRam text a ↔
      ∀ i < text.1.length, helpscreen M + i = a → text.1.getD i 0 = s.jimRam a := by
  unfold helpers_screen_setup
  constructor
  · rintro hsame i hlt rfl
    rw [if_pos (by omega), Nat.add_sub_cancel_left] at hsame
    exact hsame.symm
  · intro hsame
    split
    · rename_i hin
      exact (hsame (a - helpscreen M) (by omega) (by omega)).symm
    · rfl

theorem shown_helper_iff {s' : Jim} {r : Nat → BitVec 8} (hs : Shown M s) (hhelper : s'.helper = true)
    (hmemory : s'.memory (M.location (.byte 3)) = s.memory (M.location (.byte 3))) (hram : s'.jimRam = r)
    (haddr : s'.byteRamAddr = s.byteRamAddr) :
    Shown M s' ↔ (0 < M.jimRamSize → s.jimRam s.byteRamAddr.toNat = r s.byteRamAddr.toNat) := by
  constructor
  · intro h hpos
    have hport := h.dataPort hpos
    rw [hmemory, hram, haddr, hs.dataPort hpos] at hport
    exact hport
  · intro hsame
    constructor
    · intro _ hfalse
      rw [hhelper] at hfalse
      exact absurd hfalse Bool.true_eq_false.mp
    · intro hpos
      rw [hmemory, hram, haddr, hs.dataPort hpos]
      exact hsame hpos

theorem screen_shown (hs : Shown M s) {data : BitVec 8} (hselect : data ≠ 0xFF) (hzero : selected data = 0)
    (text : Text) : Shown M (s.helpers_bank_select M data text) ↔
      (0 < M.jimRamSize → s.jimRam s.byteRamAddr.toNat = helpers_screen_setup M s.jimRam text s.byteRamAddr.toNat) := by
  unfold helpers_bank_select
  simp only [if_neg hselect, if_pos hzero]
  apply shown_helper_iff hs
  · rfl
  · simp only [windowWrite_location, memoryWritePage_location, memoryWrite_location, reduceCtorEq, if_false]
  · simp only [memoryWrite, memoryWritePage]
  · rfl

theorem page_shown (hs : Shown M s) {data : BitVec 8} (hselect : data ≠ 0xFF) (hzero : ¬ selected data = 0)
    (text : Text) : Shown M (s.helpers_bank_select M data text) := by
  unfold helpers_bank_select
  simp only [if_neg hselect, if_neg hzero]
  apply (shown_helper_iff (r := s.jimRam) hs ?_ ?_ ?_ ?_).mpr
  · intro _
    rfl
  · rfl
  · simp only [memoryWritePage_location, memoryWrite_location, reduceCtorEq, if_false]
  · rfl
  · rfl

theorem select_plain (hs : Shown M s) {data : BitVec 8} (hselect : data ≠ 0xFF) (text : Text) :
    Plain M s (.bankSelect data text) ↔
      Shown M (step M s (.bankSelect data text)) ∧ InRange M s (.bankSelect data text) := by
  simp only [Plain, InRange, accesses, step, if_neg hselect]
  by_cases hzero : selected data = 0
  · simp only [if_pos hzero, List.forall_mem_singleton, screen_in_range, ← screen_port,
      screen_shown hs hselect hzero]
    constructor
    · rintro ⟨hsize, hsame⟩
      exact ⟨fun _ => hsame, hsize⟩
    · rintro ⟨hsame, hsize⟩
      exact ⟨hsize, hsame (by omega)⟩
  · simp only [if_neg hzero, true_iff]
    exact ⟨page_shown hs hselect hzero text, nofun⟩

theorem bankSelect_plain (hi : Inv M s) (hs : Shown M s) (data : BitVec 8) (text : Text) :
    Plain M s (.bankSelect data text) ↔
      Shown M (step M s (.bankSelect data text)) ∧ InRange M s (.bankSelect data text) := by
  by_cases hrestore : data = 0xFF
  · exact restore_plain hi hs hrestore text
  · exact select_plain hs hrestore text

/-! ### A reset -/

theorem helperCode_location (M : Machine) (s : Jim) (l : Location) (h : ∀ k, l ≠ .helper k) :
    ((helperCode M).foldl (fun s code => s.memoryWrite (M.location (.helper code.1)) code.2) s).memory
      (M.location l) = s.memory (M.location l) := by
  generalize helperCode M = codes
  induction codes generalizing s with
  | nil => rfl
  | cons code codes ih =>
    rw [List.foldl_cons, ih, memoryWrite_location, if_neg (h code.1)]

theorem init_location (M : Machine) (ram : Nat → BitVec 8) (l : Location) (hhelper : ∀ k, l ≠ .helper k)
    (h4 : l ≠ .services 4) (h5 : l ≠ .services 5) : (init_emulator M ram).memory (M.location l) = 0 := by
  simp only [init_emulator, memoryWrite_location, if_neg h4, if_neg h5]
  split
  · rw [memoryWritePage_location, helperCode_location M _ l hhelper]
  · rw [helperCode_location M _ l hhelper]

theorem helperCode_jimRam (M : Machine) (s : Jim) :
    ∃ memory, (helperCode M).foldl (fun s code => s.memoryWrite (M.location (.helper code.1)) code.2) s
      = { s with memory := memory } := by
  generalize helperCode M = codes
  induction codes generalizing s with
  | nil => exact ⟨s.memory, rfl⟩
  | cons code codes ih => exact ih _

structure Started (M : Machine) (ram : Nat → BitVec 8) (s : Jim) : Prop where
  jimRam : s.jimRam = ram
  pageRamAddr : s.pageRamAddr = 0
  byteRamAddr : s.byteRamAddr = resetByteRamAddr M
  discRamAddr : s.discRamAddr = M.discRamBase
  discRamAddrHi : s.discRamAddrHi = none
  helper : s.helper = false

theorem init_started (M : Machine) (ram : Nat → BitVec 8) : Started M ram (init_emulator M ram) := by
  unfold init_emulator
  obtain ⟨memory, hcode⟩ := helperCode_jimRam M
    { memory := fun _ => 0
      jimRam := ram
      pageRamAddr := 0
      byteRamAddr := resetByteRamAddr M
      discRamAddr := M.discRamBase
      discRamAddrHi := none
      helper := false }
  simp only [hcode]
  split
  · exact ⟨rfl, rfl, rfl, rfl, rfl, rfl⟩
  · exact ⟨rfl, rfl, rfl, rfl, rfl, rfl⟩

theorem byteOf_shiftLeft (x : BitVec 32) {k : Nat} (hk : k < 3) : byteOf (x <<< 24) k = 0 := by
  interval_cases k <;> ext i hi <;> interval_cases i <;> simp [byteOf]

theorem toNat_resetByteRamAddr (hsize : 1 ≤ M.installed) :
    (resetByteRamAddr M).toNat = (M.installed - 1) * jimRamStep := by
  have hlt := M.installed_lt
  have h1 : (1 : BitVec 32).toNat = 1 := by decide
  have hinstalled : (BitVec.ofNat 32 M.installed).toNat = M.installed := by
    rw [BitVec.toNat_ofNat]
    omega
  have hle : (1 : BitVec 32) ≤ BitVec.ofNat 32 M.installed := by
    rw [BitVec.le_def, hinstalled, h1]
    exact hsize
  have hfits : (M.installed - 1) * jimRamStep < 2 ^ 32 := by
    simp only [jimRamStep]
    omega
  have hstep : jimRamStep = 2 ^ 24 := by decide
  rw [resetByteRamAddr, BitVec.toNat_shiftLeft, BitVec.toNat_sub_of_le hle, hinstalled, h1,
    Nat.shiftLeft_eq, ← hstep]
  exact Nat.mod_eq_of_lt hfits

theorem byteOf_banks {x : BitVec 32} {n : Nat} (hx : x.toNat = n * jimRamStep) {k : Nat} (hk : k < 3) :
    byteOf x k = 0 := by
  have hbytes := toNat_eq_bytes x
  have h0 := (byteOf x 0).isLt
  have h1 := (byteOf x 1).isLt
  have h2 := (byteOf x 2).isLt
  simp only [jimRamStep] at hx
  apply BitVec.eq_of_toNat_eq
  have hzero : (0 : BitVec 8).toNat = 0 := rfl
  rw [hzero]
  interval_cases k
  · omega
  · omega
  · omega

theorem byteOf_discRamBase (M : Machine) {k : Nat} (hk : k < 3) : byteOf M.discRamBase k = 0 := by
  by_cases hsize : 2 ≤ M.jimRamSize
  · obtain ⟨hbase, -⟩ := toNat_discRamBase hsize
    apply byteOf_banks (n := M.jimRamSize - 2) _ hk
    rw [Nat.sub_mul]
    omega
  · have hcases : M.jimRamSize = 0 ∨ M.jimRamSize = 1 := by omega
    unfold Machine.discRamBase
    rcases hcases with hzero | hone
    · rw [hzero]
      interval_cases k <;> decide
    · rw [hone]
      interval_cases k <;> decide

theorem allocated_of_pos (h : 0 < M.jimRamSize) : M.allocated = true ∧ M.jimRamSize = M.installed := by
  unfold Machine.jimRamSize at h ⊢
  split at h
  · rename_i hallocated
    exact ⟨hallocated, if_pos hallocated⟩
  · exact absurd h (Nat.lt_irrefl 0)

theorem init_inv (M : Machine) (ram : Nat → BitVec 8) : Inv M (init_emulator M ram) := by
  have hstart := init_started M ram
  constructor
  · intro hsize
    rw [hstart.pageRamAddr]
    exact hsize
  · rw [hstart.pageRamAddr]
    decide
  · intro hsize
    obtain ⟨-, hinstalled⟩ := allocated_of_pos hsize
    have haddr := toNat_resetByteRamAddr (M := M) (by omega)
    obtain ⟨hlo, hhi⟩ := toNat_top (resetByteRamAddr M)
    rw [hstart.byteRamAddr]
    simp only [jimRamStep] at *
    omega
  · intro hsize
    obtain ⟨hbase, -⟩ := toNat_discRamBase hsize
    rw [hstart.discRamAddr]
    apply bank_of_range
    · omega
    · simp only [jimRamStep] at *
      omega
  · intro _
    exact hstart.discRamAddr
  · intro k
    have hzero : byteOf 0 (3 - k) = 0 := by
      revert k
      decide
    rw [hstart.pageRamAddr, hzero]
    exact init_location M ram _ (by intro a h; cases h) (by intro h; cases h) (by intro h; cases h)
  · intro k
    rw [hstart.byteRamAddr, resetByteRamAddr, byteOf_shiftLeft _ k.isLt]
    exact init_location M ram _ (by intro a h; cases h) (by intro h; cases h) (by intro h; cases h)
  · intro k
    have h4 : Location.services (Fin.castLE (by decide) k) ≠ Location.services 4 := by
      intro heq
      have hval : k.val = 4 := congrArg Fin.val (Location.services.inj heq)
      omega
    have h5 : Location.services (Fin.castLE (by decide) k) ≠ Location.services 5 := by
      intro heq
      have hval : k.val = 5 := congrArg Fin.val (Location.services.inj heq)
      omega
    rw [hstart.discRamAddr, byteOf_discRamBase M k.isLt]
    exact init_location M ram _ (by intro a h; cases h) h4 h5
  · intro hi hsome
    rw [hstart.discRamAddrHi] at hsome
    cases hsome

theorem init_window (M : Machine) (ram : Nat → BitVec 8) (hallocated : M.allocated = true) {i : Nat}
    (hi : i < 256) : (init_emulator M ram).memory (Pi1MHz_MEM_PAGE + i) = ram i := by
  simp only [init_emulator, memoryWrite_window, if_pos hallocated]
  rw [memoryWritePage_window _ hi]

theorem init_shown_iff (M : Machine) (ram : Nat → BitVec 8) :
    Shown M (init_emulator M ram) ↔ (0 < M.jimRamSize → ram (resetByteRamAddr M).toNat = 0) := by
  have hstart := init_started M ram
  have hport := init_location M ram (.byte 3) nofun nofun nofun
  constructor
  · intro h hsize
    have hdata := h.dataPort hsize
    rw [hport, hstart.jimRam, hstart.byteRamAddr] at hdata
    exact hdata.symm
  · intro hzero
    constructor
    · intro hsize _ i hi
      rw [init_window M ram (allocated_of_pos hsize).1 hi, hstart.jimRam, hstart.pageRamAddr]
      exact congrArg ram (Nat.zero_add i).symm
    · intro hsize
      rw [hport, hstart.jimRam, hstart.byteRamAddr]
      exact (hzero hsize).symm

theorem reset_plain (s : Jim) (ram : Nat → BitVec 8) :
    Plain M s (.reset ram) ↔ Shown M (step M s (.reset ram)) ∧ InRange M s (.reset ram) := by
  simp only [Plain, InRange, accesses, step, init_shown_iff]
  by_cases hallocated : M.allocated = true
  · have hsize : M.jimRamSize = M.installed := if_pos hallocated
    simp only [if_pos hallocated, List.forall_mem_singleton, hsize, Nat.zero_add]
    constructor
    · intro hplain
      obtain ⟨hone, hzero⟩ := hplain hallocated
      refine ⟨fun _ => hzero, ?_⟩
      simp only [jimRamStep]
      omega
    · rintro ⟨hzero, hrange⟩
      have hone : 1 ≤ M.installed := by
        simp only [jimRamStep] at hrange
        omega
      exact fun _ => ⟨hone, hzero hone⟩
  · have hsize : M.jimRamSize = 0 := if_neg hallocated
    simp only [if_neg hallocated, hsize]
    exact iff_of_true (fun h => absurd h hallocated) ⟨fun h => absurd h (Nat.lt_irrefl 0), (by intro a h; cases h)⟩

/-! ### A run -/

theorem plain_iff (hi : Inv M s) (hs : Shown M s) (a : Access) :
    Plain M s a ↔ Shown M (step M s a) ∧ InRange M s a := by
  cases a with
  | pageAddr data reg => exact pageAddr_plain hi hs data reg
  | byteAddr reg data => exact byteAddr_plain hi hs reg data
  | byteWrite data => exact byteWrite_plain hi hs data
  | pageWrite addr data => exact pageWrite_plain hi hs addr data
  | servicesAddr reg data => exact servicesAddr_plain hi hs reg data
  | servicesWrite data => exact servicesWrite_plain hi hs data
  | servicesRead => exact servicesRead_plain hi hs
  | bankSelect data text => exact bankSelect_plain hi hs data text
  | reset ram => exact reset_plain s ram

theorem Inv.step (h : Inv M s) {a : Access} (hp : Plain M s a) : Inv M (step M s a) := by
  cases a with
  | pageAddr data reg => exact pageAddr_inv h data reg
  | byteAddr reg data => exact byteAddr_inv h reg data
  | byteWrite data => exact byteWrite_inv h data
  | pageWrite addr data => exact pageWrite_inv h addr data
  | servicesAddr reg data => exact servicesAddr_inv h hp reg data
  | servicesWrite data => exact servicesWrite_inv h hp.1 data
  | servicesRead => exact servicesRead_inv h hp
  | bankSelect data text => exact bankSelect_inv h data text
  | reset ram => exact init_inv M ram

theorem run_iff (hi : Inv M s) (hs : Shown M s) (run : List Access) :
    (∀ st ∈ history (step M) s run, Plain M st.pre st.op) ↔
      ∀ st ∈ history (step M) s run, OneContent M st.post ∧ InRange M st.pre st.op := by
  induction run generalizing s with
  | nil => exact iff_of_true (List.forall_mem_nil _) (List.forall_mem_nil _)
  | cons a run ih =>
    simp only [history, List.forall_mem_cons]
    constructor
    · rintro ⟨hplain, hrest⟩
      have hi' := hi.step hplain
      obtain ⟨hs', hrange⟩ := (plain_iff hi hs a).mp hplain
      exact ⟨⟨hi'.oneContent_iff.mpr hs', hrange⟩, (ih hi' hs').mp hrest⟩
    · rintro ⟨⟨hone, hrange⟩, hrest⟩
      have hs' : Shown M (step M s a) := ⟨hone.window, hone.dataPort⟩
      have hplain := (plain_iff hi hs a).mpr ⟨hs', hrange⟩
      exact ⟨hplain, (ih (hi.step hplain) hs').mpr hrest⟩

theorem jim_ram_content (M : Machine) (s : Jim) (ram : Nat → BitVec 8) (run : List Access) :
    (∀ st ∈ history (step M) s (.reset ram :: run), Plain M st.pre st.op) ↔
      ∀ st ∈ history (step M) s (.reset ram :: run), OneContent M st.post ∧ InRange M st.pre st.op := by
  have hi := init_inv M ram
  simp only [history, List.forall_mem_cons]
  constructor
  · rintro ⟨hplain, hrest⟩
    obtain ⟨hs, hrange⟩ := (reset_plain s ram).mp hplain
    exact ⟨⟨hi.oneContent_iff.mpr hs, hrange⟩, (run_iff hi hs run).mp hrest⟩
  · rintro ⟨⟨hone, hrange⟩, hrest⟩
    have hs : Shown M (step M s (.reset ram)) := ⟨hone.window, hone.dataPort⟩
    exact ⟨(reset_plain s ram).mpr ⟨hs, hrange⟩, (run_iff hi hs run).mpr hrest⟩

def standardAddresses : Addresses := ⟨0xFD, 0x00, 0xA6, 0x88⟩

theorem location_standard (l : Location) :
    (∃ k : Fin 3, l = .page k ∧ standardAddresses.location l = 253 + k) ∨
      (∃ k : Fin 4, l = .byte k ∧ standardAddresses.location l = k) ∨
      (∃ k : Fin 6, l = .services k ∧ standardAddresses.location l = 166 + k) ∨
      ∃ k : Fin 7, l = .helper k ∧ standardAddresses.location l = 136 + k := by
  cases l with
  | page k => exact .inl ⟨k, rfl, rfl⟩
  | byte k => exact .inr (.inl ⟨k, rfl, Nat.zero_add _⟩)
  | services k => exact .inr (.inr (.inl ⟨k, rfl, rfl⟩))
  | helper k => exact .inr (.inr (.inr ⟨k, rfl, rfl⟩))

theorem standard_apart : Function.Injective standardAddresses.location := by
  intro l l' heq
  rcases location_standard l with ⟨k, rfl, hl⟩ | ⟨k, rfl, hl⟩ | ⟨k, rfl, hl⟩ | ⟨k, rfl, hl⟩
  all_goals
    rcases location_standard l' with ⟨k', rfl, hl'⟩ | ⟨k', rfl, hl'⟩ | ⟨k', rfl, hl'⟩ | ⟨k', rfl, hl'⟩
    all_goals
      rw [hl, hl'] at heq
      first
        | exact congrArg _ (Fin.ext (by omega))
        | omega

theorem standard_inFred (l : Location) : standardAddresses.location l < 256 := by
  rcases location_standard l with ⟨k, -, hl⟩ | ⟨k, -, hl⟩ | ⟨k, -, hl⟩ | ⟨k, -, hl⟩
  all_goals omega

def standard : Machine where
  toAddresses := standardAddresses
  installed := 27
  installed_lt := by decide
  allocated := true
  helperRam := fun _ => 0
  apart := standard_apart
  inFred := standard_inFred

/-- The bank of the byte port is put into the window, and a byte is written through the port: the window
still shows what was there before. -/
theorem window_not_refreshed : ¬ OneContent standard
    (History.final (step standard) (init_emulator standard fun _ => 0) [.pageAddr 26 .high, .byteWrite 1]) := by
  intro h
  have hwindow := h.window (by decide) (by decide) 0 (by decide)
  revert hwindow
  decide +kernel

end Pi1MHz.JimRam
