import Pi1MHz.BusMemory
import Pi1MHz.History

/-!
# The services port

`services_emulator.c`: three registers hold a 24-bit address into a buffer of 32 MB at the top of
the JIM RAM, a data port reads and writes the byte there and steps on.
-/

namespace Pi1MHz.Services

open Bus (byteOf)
open History (final)

/-- What the port is configured with: `JIM_ram_size`, in steps of 16 MB, of which the buffer takes
the last two, and `ram_address`, which is even as `MemoryWrite16` needs it. -/
structure Layout where
  jimRamSize : Nat
  ramAddress : Nat
  two_le_size : 2 ≤ jimRamSize
  size_lt : jimRamSize < 256
  even_address : ramAddress % 2 = 0

def jimRamStep : Nat := 16 * 1024 * 1024

def discRamSize : Nat := 2 * jimRamStep

def Layout.discRamBase (L : Layout) : Nat := L.jimRamSize * jimRamStep - discRamSize

structure Port where
  jimRam : Nat → BitVec 8
  bus : Bus.Memory
  discRamAddr : BitVec 32
  /-- The high byte last written to +2; `none` is the source's −1. -/
  discRamAddrHi : Option (BitVec 8)

inductive Register where
  | low
  | mid
  | high
deriving DecidableEq

namespace Port

variable (L : Layout)

def updateAddress (p : Port) : Port :=
  let hi := byteOf p.discRamAddr 2
  let p := { p with bus := p.bus.memoryWrite16 L.ramAddress p.discRamAddr }
  if some hi ≠ p.discRamAddrHi then
    { p with discRamAddrHi := some hi, bus := p.bus.memoryWrite (L.ramAddress + 2) hi }
  else p

def refresh (p : Port) : Port :=
  updateAddress L
    { p with bus := p.bus.memoryWrite (L.ramAddress + 3) (p.jimRam p.discRamAddr.toNat) }

def replaced (addr : BitVec 32) (data : BitVec 8) : Register → BitVec 32
  | .low => (addr &&& 0xFFFFFF00) ||| data.setWidth 32
  | .mid => (addr &&& 0xFFFF00FF) ||| (data.setWidth 32 <<< 8)
  | .high => (addr &&& 0xFF00FFFF) ||| (data.setWidth 32 <<< 16)

def byteAddr (p : Port) (reg : Register) (data : BitVec 8) : Port :=
  refresh L { p with discRamAddr := replaced p.discRamAddr data reg }

/-- `disc_ram_addr++`, back to the start at `disc_ram_max`. -/
def increment (addr : BitVec 32) : BitVec 32 :=
  if L.discRamBase + discRamSize ≤ (addr + 1).toNat then BitVec.ofNat 32 L.discRamBase else addr + 1

def byteWriteInc (p : Port) (data : BitVec 8) : Port :=
  refresh L { p with jimRam := Function.update p.jimRam p.discRamAddr.toNat data
                     discRamAddr := increment L p.discRamAddr }

def byteReadInc (p : Port) : Port :=
  refresh L { p with discRamAddr := increment L p.discRamAddr }

/-- A command written to +4: the byte is shown there, and then the service's handler changes the
RAM to `ram` and shows its `results` there or at the IRQ status, +5. -/
def command (p : Port) (data : BitVec 8) (ram : Nat → BitVec 8)
    (results : List (Bool × BitVec 8)) : Port :=
  { p with
    jimRam := ram
    bus := results.foldl
      (fun bus r => bus.memoryWrite (L.ramAddress + if r.1 then 4 else 5) r.2)
      (p.bus.memoryWrite (L.ramAddress + 4) data) }

/-- `services_emulator_init`, after `init_emulator` has cleared the bus memory. -/
def init (ram : Nat → BitVec 8) : Port where
  jimRam := ram
  bus := (Bus.Memory.cleared.memoryWrite (L.ramAddress + 4) 0).memoryWrite (L.ramAddress + 5) 0
  discRamAddr := BitVec.ofNat 32 L.discRamBase
  discRamAddrHi := none

def offset (p : Port) : Nat := p.discRamAddr.toNat - L.discRamBase

/-- What the Beeb reads at `ram_address + k`. -/
def register (p : Port) (k : Nat) : BitVec 8 := p.bus.presented (L.ramAddress + k)

end Port

inductive Access where
  | address (reg : Register) (data : BitVec 8)
  | write (data : BitVec 8)
  | read
  | command (data : BitVec 8) (ram : Nat → BitVec 8) (results : List (Bool × BitVec 8))

def step (L : Layout) (p : Port) : Access → Port
  | .address reg data => p.byteAddr L reg data
  | .write data => p.byteWriteInc L data
  | .read => p.byteReadInc L
  | .command data ram results => p.command L data ram results

inductive DataAccess where
  | write (data : BitVec 8)
  | read

def DataAccess.access : DataAccess → Access
  | .write data => .write data
  | .read => .read

/-- The three registers with the bytes of the address `A`. -/
def addressBytes (A : BitVec 24) : List (Register × BitVec 8) :=
  [(.low, byteOf (A.setWidth 32) 0), (.mid, byteOf (A.setWidth 32) 1),
    (.high, byteOf (A.setWidth 32) 2)]

def addressWrites (bytes : List (Register × BitVec 8)) : List Access :=
  bytes.map fun b => .address b.1 b.2

section Bytes

theorem toNat_eq_bytes (x : BitVec 32) :
    x.toNat = (byteOf x 3).toNat * 2 ^ 24 + (byteOf x 2).toNat * 2 ^ 16 + (byteOf x 1).toNat * 2 ^ 8 +
      (byteOf x 0).toNat := by
  have hx : x.toNat < 2 ^ 32 := x.isLt
  simp only [byteOf, BitVec.toNat_setWidth, BitVec.toNat_ushiftRight, Nat.shiftRight_eq_div_pow]
  omega

theorem byteOf_replace_low (x : BitVec 32) (d : BitVec 8) {k : Nat} (hk : k < 4) :
    byteOf ((x &&& 0xFFFFFF00) ||| d.setWidth 32) k = if k = 0 then d else byteOf x k := by
  interval_cases k <;> ext i hi <;> interval_cases i <;> simp [byteOf]

theorem byteOf_replace_mid (x : BitVec 32) (d : BitVec 8) {k : Nat} (hk : k < 4) :
    byteOf ((x &&& 0xFFFF00FF) ||| (d.setWidth 32 <<< 8)) k = if k = 1 then d else byteOf x k := by
  interval_cases k <;> ext i hi <;> interval_cases i <;> simp [byteOf]

theorem byteOf_replace_high (x : BitVec 32) (d : BitVec 8) {k : Nat} (hk : k < 4) :
    byteOf ((x &&& 0xFF00FFFF) ||| (d.setWidth 32 <<< 16)) k = if k = 2 then d else byteOf x k := by
  interval_cases k <;> ext i hi <;> interval_cases i <;> simp [byteOf]

def Register.index : Register → Nat
  | .low => 0
  | .mid => 1
  | .high => 2

theorem byteOf_replaced (x : BitVec 32) (d : BitVec 8) (reg : Register) {k : Nat} (hk : k < 4) :
    byteOf (Port.replaced x d reg) k = if k = reg.index then d else byteOf x k := by
  cases reg with
  | low => exact byteOf_replace_low x d hk
  | mid => exact byteOf_replace_mid x d hk
  | high => exact byteOf_replace_high x d hk

end Bytes

/-! ### What every access leaves -/

section Steps

variable (L : Layout)

structure Kept (p : Port) : Prop where
  mirrored : p.bus.Mirrored
  highKnown : ∀ hi, p.discRamAddrHi = some hi → p.bus.shadow (L.ramAddress + 2) = hi

def ReadBack (p : Port) : Prop := ∀ k < 3, p.register L k = byteOf p.discRamAddr k

def DataShown (p : Port) : Prop := p.register L 3 = p.jimRam p.discRamAddr.toNat

def InBuffer (p : Port) : Prop :=
  L.discRamBase ≤ p.discRamAddr.toNat ∧ p.discRamAddr.toNat < L.discRamBase + discRamSize

variable {L} {p : Port}

theorem mirrored_memoryWrite {m : Bus.Memory} (hm : m.Mirrored) (addr : Nat) (data : BitVec 8) :
    (m.memoryWrite addr data).Mirrored :=
  Bus.mirrored_run (.write addr data) hm

theorem mirrored_memoryWrite16 {m : Bus.Memory} (hm : m.Mirrored) (data : BitVec 32) :
    (m.memoryWrite16 L.ramAddress data).Mirrored :=
  Bus.mirrored_run (.write16 L.ramAddress data L.even_address) hm

theorem updateAddress_spec (hp : Kept L p) :
    Kept L (p.updateAddress L) ∧ ReadBack L (p.updateAddress L) ∧
      (p.updateAddress L).bus.shadow (L.ramAddress + 3) = p.bus.shadow (L.ramAddress + 3) ∧
      (p.updateAddress L).jimRam = p.jimRam ∧ (p.updateAddress L).discRamAddr = p.discRamAddr := by
  have hm := mirrored_memoryWrite16 (L := L) hp.mirrored p.discRamAddr
  by_cases hhi : some (byteOf p.discRamAddr 2) ≠ p.discRamAddrHi
  · rw [Port.updateAddress, if_pos hhi]
    have hm2 := mirrored_memoryWrite hm (L.ramAddress + 2) (byteOf p.discRamAddr 2)
    refine ⟨⟨hm2, ?_⟩, ?_, ?_, rfl, rfl⟩
    · rintro hi ⟨⟩
      simp [Bus.memoryWrite_shadow]
    · intro k hk
      refine (hm2 _).trans ?_
      interval_cases k <;> simp [Bus.memoryWrite_shadow, Bus.memoryWrite16_shadow, L.even_address]
    · simp [Bus.memoryWrite_shadow, Bus.memoryWrite16_shadow, L.even_address]
  · rw [Port.updateAddress, if_neg hhi]
    have hkeep : p.bus.shadow (L.ramAddress + 2) = byteOf p.discRamAddr 2 :=
      hp.highKnown _ (not_not.mp hhi).symm
    refine ⟨⟨hm, ?_⟩, ?_, ?_, rfl, rfl⟩
    · intro hi h
      rw [← hp.highKnown hi h]
      simp [Bus.memoryWrite16_shadow, L.even_address]
    · intro k hk
      refine (hm _).trans ?_
      interval_cases k <;> simp [Bus.memoryWrite16_shadow, L.even_address, hkeep]
    · simp [Bus.memoryWrite16_shadow, L.even_address]

theorem refresh_spec (hp : Kept L p) :
    Kept L (p.refresh L) ∧ ReadBack L (p.refresh L) ∧ DataShown L (p.refresh L) ∧
      (p.refresh L).jimRam = p.jimRam ∧ (p.refresh L).discRamAddr = p.discRamAddr := by
  have hm := mirrored_memoryWrite hp.mirrored (L.ramAddress + 3) (p.jimRam p.discRamAddr.toNat)
  have hkept : Kept L { p with bus := p.bus.memoryWrite (L.ramAddress + 3)
                                         (p.jimRam p.discRamAddr.toNat) } := by
    refine ⟨hm, fun hi h => ?_⟩
    rw [← hp.highKnown hi h]
    simp [Bus.memoryWrite_shadow]
  obtain ⟨hkept', hback, hdata, hram, haddr⟩ := updateAddress_spec hkept
  refine ⟨hkept', hback, ?_, hram, haddr⟩
  refine (hkept'.mirrored _).trans ?_
  rw [Port.refresh, hdata, hram, haddr]
  simp [Bus.memoryWrite_shadow]

theorem command_spec (hp : Kept L p) (hback : ReadBack L p) (data : BitVec 8)
    (ram : Nat → BitVec 8) (results : List (Bool × BitVec 8)) :
    Kept L (p.command L data ram results) ∧ ReadBack L (p.command L data ram results) := by
  have hbus : ∀ (m : Bus.Memory), m.Mirrored → ∀ results : List (Bool × BitVec 8),
      (results.foldl (fun bus r => bus.memoryWrite (L.ramAddress + if r.1 then 4 else 5) r.2)
        m).Mirrored ∧ ∀ k < 3,
      (results.foldl (fun bus r => bus.memoryWrite (L.ramAddress + if r.1 then 4 else 5) r.2)
        m).shadow (L.ramAddress + k) = m.shadow (L.ramAddress + k) := by
    intro m hm results
    induction results generalizing m with
    | nil => exact ⟨hm, fun k hk => rfl⟩
    | cons r results ih =>
      obtain ⟨hmir, hshadow⟩ := ih _ (mirrored_memoryWrite hm _ r.2)
      refine ⟨hmir, fun k hk => (hshadow k hk).trans ?_⟩
      rw [Bus.memoryWrite_shadow, if_neg]
      split <;> omega
  obtain ⟨hmir, hshadow⟩ := hbus _ (mirrored_memoryWrite hp.mirrored (L.ramAddress + 4) data) results
  have hfirst : ∀ k < 3, (p.bus.memoryWrite (L.ramAddress + 4) data).shadow (L.ramAddress + k) =
      p.bus.shadow (L.ramAddress + k) := by
    intro k hk
    rw [Bus.memoryWrite_shadow, if_neg (by omega)]
  constructor
  · refine ⟨hmir, fun hi h => ?_⟩
    exact ((hshadow 2 (by decide)).trans (hfirst 2 (by decide))).trans (hp.highKnown hi h)
  · intro k hk
    exact ((hmir _).trans ((hshadow k hk).trans (hfirst k hk))).trans
      ((hp.mirrored _).symm.trans (hback k hk))

end Steps

/-! ### Where the counter is -/

section Offsets

variable (L : Layout) {p : Port}

theorem Layout.discRamBase_eq : L.discRamBase + 2 * 2 ^ 24 = L.jimRamSize * 2 ^ 24 := by
  have hsize := L.two_le_size
  simp only [Layout.discRamBase, discRamSize, jimRamStep]
  omega

theorem Layout.toNat_discRamBase : (BitVec.ofNat 32 L.discRamBase).toNat = L.discRamBase := by
  have hbase := L.discRamBase_eq
  have hsize := L.size_lt
  rw [BitVec.toNat_ofNat, Nat.mod_eq_of_lt (by omega)]

theorem inBuffer_iff :
    InBuffer L p ↔ L.jimRamSize ≤ (byteOf p.discRamAddr 3).toNat + 2 ∧
      (byteOf p.discRamAddr 3).toNat < L.jimRamSize := by
  have hbase := L.discRamBase_eq
  have hbytes := toNat_eq_bytes p.discRamAddr
  have h0 := (byteOf p.discRamAddr 0).isLt
  have h1 := (byteOf p.discRamAddr 1).isLt
  have h2 := (byteOf p.discRamAddr 2).isLt
  simp only [InBuffer, discRamSize, jimRamStep]
  omega

theorem offset_eq_bytes (hp : InBuffer L p) :
    p.offset L + L.jimRamSize * 2 ^ 24 = ((byteOf p.discRamAddr 3).toNat + 2) * 2 ^ 24 +
      (byteOf p.discRamAddr 2).toNat * 2 ^ 16 + (byteOf p.discRamAddr 1).toNat * 2 ^ 8 +
        (byteOf p.discRamAddr 0).toNat := by
  have hbase := L.discRamBase_eq
  have hbytes := toNat_eq_bytes p.discRamAddr
  have hlow := hp.1
  simp only [Port.offset]
  omega

theorem toNat_increment (hp : InBuffer L p) :
    (Port.increment L p.discRamAddr).toNat =
      L.discRamBase + (p.offset L + 1) % discRamSize := by
  have hbase := L.discRamBase_eq
  have hsize := L.size_lt
  obtain ⟨hlow, hhigh⟩ := hp
  have hsucc : (p.discRamAddr + 1).toNat = p.discRamAddr.toNat + 1 := by
    rw [BitVec.toNat_add]
    simp only [discRamSize, jimRamStep] at hhigh
    exact Nat.mod_eq_of_lt (by simp; omega)
  by_cases hend : L.discRamBase + discRamSize ≤ (p.discRamAddr + 1).toNat
  · rw [Port.increment, if_pos hend, L.toNat_discRamBase]
    simp only [Port.offset, hsucc, discRamSize, jimRamStep] at hhigh hend ⊢
    omega
  · rw [Port.increment, if_neg hend, hsucc]
    simp only [Port.offset, hsucc, discRamSize, jimRamStep] at hhigh hend ⊢
    omega

end Offsets

/-! ### Runs -/

section Runs

variable (L : Layout)

structure Inv (p : Port) : Prop where
  kept : Kept L p
  readBack : ReadBack L p
  inBuffer : InBuffer L p

theorem inv_init (ram : Nat → BitVec 8) : Inv L (Port.init L ram) := by
  have hmir : (Port.init L ram).bus.Mirrored :=
    mirrored_memoryWrite (mirrored_memoryWrite Bus.mirrored_cleared _ _) _ _
  refine ⟨⟨hmir, nofun⟩, ?_, ?_⟩
  · intro k hk
    have hbase := L.discRamBase_eq
    have hzero : (Port.init L ram).bus.shadow (L.ramAddress + k) = 0 := by
      simp only [Port.init, Bus.memoryWrite_shadow, Nat.add_left_cancel_iff]
      rw [if_neg (by omega), if_neg (by omega)]
      rfl
    refine ((hmir _).trans hzero).trans ?_
    apply BitVec.eq_of_toNat_eq
    show 0 = (byteOf (BitVec.ofNat 32 L.discRamBase) k).toNat
    rw [byteOf, BitVec.toNat_setWidth, BitVec.toNat_ushiftRight, L.toNat_discRamBase,
      Nat.shiftRight_eq_div_pow]
    interval_cases k <;> omega
  · have haddr : (Port.init L ram).discRamAddr.toNat = L.discRamBase := L.toNat_discRamBase
    simp only [InBuffer, haddr, discRamSize, jimRamStep]
    omega

variable {L} {p : Port}

theorem inBuffer_moved {q : Port} (hp : InBuffer L p)
    (hq : q.discRamAddr = Port.increment L p.discRamAddr) : InBuffer L q := by
  rw [InBuffer, hq, toNat_increment L hp]
  refine ⟨Nat.le_add_right _ _, ?_⟩
  have hlt : (p.offset L + 1) % discRamSize < discRamSize := Nat.mod_lt _ (by decide)
  omega

theorem byteAddr_spec (hp : Inv L p) (reg : Register) (data : BitVec 8) :
    Inv L (p.byteAddr L reg data) ∧ DataShown L (p.byteAddr L reg data) ∧
      (p.byteAddr L reg data).discRamAddr = Port.replaced p.discRamAddr data reg := by
  obtain ⟨hkept, hback, hdata, hram, haddr⟩ := refresh_spec
    (p := { p with discRamAddr := Port.replaced p.discRamAddr data reg })
    ⟨hp.kept.mirrored, hp.kept.highKnown⟩
  refine ⟨⟨hkept, hback, ?_⟩, hdata, haddr⟩
  have htop : byteOf (p.byteAddr L reg data).discRamAddr 3 = byteOf p.discRamAddr 3 := by
    rw [Port.byteAddr, haddr, byteOf_replaced _ _ _ (by decide), if_neg]
    cases reg <;> decide
  rw [inBuffer_iff, htop]
  exact (inBuffer_iff L).mp hp.inBuffer

theorem byteWriteInc_spec (hp : Inv L p) (data : BitVec 8) :
    Inv L (p.byteWriteInc L data) ∧ DataShown L (p.byteWriteInc L data) ∧
      (p.byteWriteInc L data).discRamAddr = Port.increment L p.discRamAddr ∧
      (p.byteWriteInc L data).jimRam = Function.update p.jimRam p.discRamAddr.toNat data := by
  obtain ⟨hkept, hback, hdata, hram, haddr⟩ := refresh_spec
    (p := { p with jimRam := Function.update p.jimRam p.discRamAddr.toNat data
                   discRamAddr := Port.increment L p.discRamAddr })
    ⟨hp.kept.mirrored, hp.kept.highKnown⟩
  exact ⟨⟨hkept, hback, inBuffer_moved hp.inBuffer haddr⟩, hdata, haddr, hram⟩

theorem byteReadInc_spec (hp : Inv L p) :
    Inv L (p.byteReadInc L) ∧ DataShown L (p.byteReadInc L) ∧
      (p.byteReadInc L).discRamAddr = Port.increment L p.discRamAddr ∧
      (p.byteReadInc L).jimRam = p.jimRam := by
  obtain ⟨hkept, hback, hdata, hram, haddr⟩ := refresh_spec
    (p := { p with discRamAddr := Port.increment L p.discRamAddr })
    ⟨hp.kept.mirrored, hp.kept.highKnown⟩
  exact ⟨⟨hkept, hback, inBuffer_moved hp.inBuffer haddr⟩, hdata, haddr, hram⟩

theorem inv_step (hp : Inv L p) (a : Access) : Inv L (step L p a) := by
  cases a with
  | address reg data => exact (byteAddr_spec hp reg data).1
  | write data => exact (byteWriteInc_spec hp data).1
  | read => exact (byteReadInc_spec hp).1
  | command data ram results =>
    obtain ⟨hkept, hback⟩ := command_spec hp.kept hp.readBack data ram results
    exact ⟨hkept, hback, hp.inBuffer⟩

theorem inv_run (hp : Inv L p) (accesses : List Access) : Inv L (final (step L) p accesses) :=
  History.final_induction (step L) (Inv L) hp (fun _ a h => inv_step h a) accesses

theorem offset_lt (hp : InBuffer L p) : p.offset L < discRamSize := by
  obtain ⟨hlow, hhigh⟩ := hp
  rw [Port.offset]
  omega

theorem dataAccess_spec (hp : Inv L p) (d : DataAccess) :
    Inv L (step L p d.access) ∧ DataShown L (step L p d.access) ∧
      (step L p d.access).offset L = (p.offset L + 1) % discRamSize := by
  have hoffset : ∀ q : Port, q.discRamAddr = Port.increment L p.discRamAddr →
      q.offset L = (p.offset L + 1) % discRamSize := by
    intro q hq
    rw [Port.offset, hq, toNat_increment L hp.inBuffer, Nat.add_sub_cancel_left]
  cases d with
  | write data =>
    obtain ⟨hinv, hdata, haddr, -⟩ := byteWriteInc_spec hp data
    exact ⟨hinv, hdata, hoffset _ haddr⟩
  | read =>
    obtain ⟨hinv, hdata, haddr, -⟩ := byteReadInc_spec hp
    exact ⟨hinv, hdata, hoffset _ haddr⟩

theorem dataAccesses_spec (hp : Inv L p) (hdata : DataShown L p) (ds : List DataAccess) :
    DataShown L (final (step L) p (ds.map DataAccess.access)) ∧
      (final (step L) p (ds.map DataAccess.access)).offset L =
        (p.offset L + ds.length) % discRamSize := by
  induction ds using List.reverseRecOn with
  | nil =>
    refine ⟨hdata, ?_⟩
    rw [List.length_nil, Nat.add_zero, Nat.mod_eq_of_lt (offset_lt hp.inBuffer)]
    rfl
  | append_singleton ds d ih =>
    rw [List.map_append, List.map_singleton, History.final_snoc]
    obtain ⟨-, hshown, hoff⟩ := dataAccess_spec (inv_run hp (ds.map DataAccess.access)) d
    refine ⟨hshown, ?_⟩
    rw [hoff, ih.2, List.length_append, List.length_singleton, Nat.mod_add_mod, Nat.add_assoc]

end Runs

/-! ### The address window -/

section Window

variable (L : Layout)

/-- The port stands at offset `n`: the registers read back its low 24 bits, the data register holds
the byte there, and a data-port access reads or writes that byte. -/
structure Serves (n : Nat) (p : Port) : Prop where
  offset : p.offset L = n
  inBuffer : InBuffer L p
  readBack : (p.register L 2).toNat * 2 ^ 16 + (p.register L 1).toNat * 2 ^ 8 +
    (p.register L 0).toNat = n % 2 ^ 24
  data : p.register L 3 = p.jimRam (L.discRamBase + n)
  write : ∀ v, (step L p (.write v)).jimRam = Function.update p.jimRam (L.discRamBase + n) v
  read : (step L p .read).jimRam = p.jimRam

/-- The data port goes through the buffer from offset `A` on, whatever the accesses are. -/
def ServedFrom (A : BitVec 24) (p : Port) : Prop :=
  ∀ ds : List DataAccess, Serves L ((A.toNat + ds.length) % discRamSize)
    (final (step L) p (ds.map DataAccess.access))

variable {L} {p : Port}

theorem serves_offset (hp : Inv L p) (hdata : DataShown L p) : Serves L (p.offset L) p := by
  have haddr : p.discRamAddr.toNat = L.discRamBase + p.offset L := by
    have hlow := hp.inBuffer.1
    rw [Port.offset]
    omega
  refine ⟨rfl, hp.inBuffer, ?_, ?_, ?_, (byteReadInc_spec hp).2.2.2⟩
  · rw [hp.readBack 2 (by decide), hp.readBack 1 (by decide), hp.readBack 0 (by decide)]
    have hbytes := offset_eq_bytes L hp.inBuffer
    have h0 := (byteOf p.discRamAddr 0).isLt
    have h1 := (byteOf p.discRamAddr 1).isLt
    have h2 := (byteOf p.discRamAddr 2).isLt
    have htop := (inBuffer_iff L).mp hp.inBuffer
    omega
  · rw [← haddr]
    exact hdata
  · intro v
    rw [← haddr]
    exact (byteWriteInc_spec hp v).2.2.2

theorem addressWrites_spec (hp : Inv L p) (bytes : List (Register × BitVec 8))
    (hnodup : (bytes.map Prod.fst).Nodup) :
    (∀ b ∈ bytes,
      byteOf (final (step L) p (addressWrites bytes)).discRamAddr b.1.index = b.2) ∧
    (∀ k < 4, (∀ b ∈ bytes, k ≠ b.1.index) →
      byteOf (final (step L) p (addressWrites bytes)).discRamAddr k = byteOf p.discRamAddr k) ∧
    (DataShown L p ∨ bytes ≠ [] → DataShown L (final (step L) p (addressWrites bytes))) := by
  induction bytes generalizing p with
  | nil => exact ⟨nofun, fun _ _ _ => rfl, fun h => h.resolve_right (fun hne => hne rfl)⟩
  | cons b bytes ih =>
    obtain ⟨hfresh, hnodup⟩ := List.nodup_cons.mp hnodup
    obtain ⟨hinv, hdata, haddr⟩ := byteAddr_spec hp b.1 b.2
    obtain ⟨hset, hsame, hshown⟩ := ih hinv hnodup
    have hbyte : ∀ k < 4, byteOf (p.byteAddr L b.1 b.2).discRamAddr k =
        if k = b.1.index then b.2 else byteOf p.discRamAddr k := by
      intro k hk
      rw [haddr, byteOf_replaced _ _ _ hk]
    have hindex : ∀ r : Register, r.index < 4 := fun r => by cases r <;> decide
    have hinj : ∀ r r' : Register, r.index = r'.index → r = r' := by
      intro r r' h
      cases r <;> cases r' <;> first | rfl | cases h
    refine ⟨?_, ?_, fun _ => hshown (Or.inl hdata)⟩
    · intro b' hb'
      rcases List.mem_cons.mp hb' with rfl | hb'
      · -- no later write is to this register
        refine (hsame _ (hindex _) ?_).trans ((hbyte _ (hindex _)).trans (if_pos rfl))
        intro b'' hb'' heq
        exact hfresh (List.mem_map.mpr ⟨b'', hb'', (hinj _ _ heq).symm⟩)
      · exact hset b' hb'
    · intro k hk hother
      obtain ⟨hne, hother⟩ := List.forall_mem_cons.mp hother
      exact (hsame k hk hother).trans ((hbyte k hk).trans (if_neg hne))

theorem offset_address_writes (hp : Inv L p) (A : BitVec 24) {order : List (Register × BitVec 8)}
    (horder : order.Perm (addressBytes A)) :
    DataShown L (final (step L) p (addressWrites order)) ∧
      (final (step L) p (addressWrites order)).offset L =
        p.offset L / 2 ^ 24 * 2 ^ 24 + A.toNat := by
  have hnodup : (order.map Prod.fst).Nodup := by
    refine (horder.map Prod.fst).nodup_iff.mpr ?_
    simp [addressBytes]
  have hne : order ≠ [] := by
    rintro rfl
    exact absurd horder.length_eq (by simp [addressBytes])
  obtain ⟨hset, hsame, hshown⟩ := addressWrites_spec hp order hnodup
  refine ⟨hshown (Or.inr hne), ?_⟩
  have hbytes : ∀ b ∈ addressBytes A,
      byteOf (final (step L) p (addressWrites order)).discRamAddr b.1.index = b.2 :=
    fun b hb => hset b (horder.mem_iff.mpr hb)
  simp only [addressBytes, List.forall_mem_cons] at hbytes
  obtain ⟨h0, h1, h2, -⟩ := hbytes
  have h3 := hsame 3 (by decide) (fun b hb => by cases b.1 <;> decide)
  have hA : (A.setWidth 32).toNat = A.toNat := by
    rw [BitVec.toNat_setWidth, Nat.mod_eq_of_lt (Nat.lt_of_lt_of_le A.isLt (by decide))]
  have hAbytes := toNat_eq_bytes (A.setWidth 32)
  have hAlt := A.isLt
  have hbefore := offset_eq_bytes L hp.inBuffer
  have hafter := offset_eq_bytes L (inv_run hp (addressWrites order)).inBuffer
  have htop := (inBuffer_iff L).mp hp.inBuffer
  have hlt0 := (byteOf p.discRamAddr 0).isLt
  have hlt1 := (byteOf p.discRamAddr 1).isLt
  have hlt2 := (byteOf p.discRamAddr 2).isLt
  simp only [Register.index] at h0 h1 h2
  rw [h0, h1, h2, h3] at hafter
  omega

/-- After any history, the three registers written with `A` in any order set the data port to offset
`A` exactly when the offset was in the first half of the buffer. -/
theorem services_window_iff (ram : Nat → BitVec 8) (history : List Access) (A : BitVec 24)
    (order : List (Register × BitVec 8)) (horder : order.Perm (addressBytes A)) :
    ServedFrom L A
        (final (step L) (final (step L) (Port.init L ram) history) (addressWrites order)) ↔
      (final (step L) (Port.init L ram) history).offset L < 2 ^ 24 := by
  have hp : Inv L (final (step L) (Port.init L ram) history) := inv_run (inv_init L ram) history
  obtain ⟨hdata, hoffset⟩ := offset_address_writes hp A horder
  have hA := A.isLt
  constructor
  · intro hserved
    have hat := (hserved []).offset
    rw [List.length_nil, Nat.add_zero, Nat.mod_eq_of_lt (Nat.lt_trans hA (by decide))] at hat
    have hsame : (final (step L) (Port.init L ram) history).offset L / 2 ^ 24 * 2 ^ 24 + A.toNat =
        A.toNat := hoffset.symm.trans hat
    omega
  · intro hlow ds
    have hstart : (final (step L) (final (step L) (Port.init L ram) history)
        (addressWrites order)).offset L = A.toNat := by
      rw [hoffset]
      omega
    have hinv := inv_run hp (addressWrites order)
    obtain ⟨hshown, hat⟩ := dataAccesses_spec hinv hdata ds
    rw [hstart] at hat
    rw [← hat]
    exact serves_offset (inv_run hinv _) hshown

end Window

def beebLayout : Layout where
  jimRamSize := 30
  ramAddress := 0xA6
  two_le_size := by decide
  size_lt := by decide
  even_address := by decide

/-- The high byte first, as Beeb code that counts down writes it. -/
theorem services_window_high_first :
    ServedFrom beebLayout 0x123456
      (final (step beebLayout) (final (step beebLayout) (Port.init beebLayout fun _ => 0)
        [.address .mid 0x20, .write 7, .read])
        (addressWrites [(.high, 0x12), (.mid, 0x34), (.low, 0x56)])) := by
  refine (services_window_iff _ _ _ _ ?_).mpr (by decide)
  decide

/-- One read at the last offset the registers can name, and the next address written is taken in
the second half of the buffer. -/
theorem stale_upper_bit :
    ¬ ServedFrom beebLayout 0
      (final (step beebLayout) (final (step beebLayout) (Port.init beebLayout fun _ => 0)
        (addressWrites (addressBytes 0xFFFFFF) ++ [.read])) (addressWrites (addressBytes 0))) := by
  intro h
  have hzero : ((0 : BitVec 24).toNat + ([] : List DataAccess).length) % discRamSize = 0 := by decide
  have hat := (h []).offset
  rw [hzero] at hat
  exact absurd hat (by decide)

end Pi1MHz.Services
