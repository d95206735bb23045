import Mathlib.Logic.Function.Basic
import Pi1MHz.ServicesPort

/-!
# JIM RAM

`ram_emulator.c`, the data port of `services_emulator.c` and the page switch of `helpers.c` over one
RAM.  The Beeb reads `Pi1MHz->Memory`: each port puts copies of RAM bytes there when it is written.

Left out: the commands of the services port, and what the other emulators do to the RAM.
-/

namespace Pi1MHz.JimRam

open Bus (byteOf)
open Services (Register jimRamStep discRamSize)

inductive Location where
  | page (k : Fin 3)
  | byte (k : Fin 4)
  | services (k : Fin 6)
  | helper (k : Fin 7)
deriving DecidableEq

structure Addresses where
  pageAddress : Nat
  byteAddress : Nat
  servicesAddress : Nat
  helperAddress : Nat

def Addresses.location (A : Addresses) : Location → Nat
  | .page k => A.pageAddress + k
  | .byte k => A.byteAddress + k
  | .services k => A.servicesAddress + k
  | .helper k => A.helperAddress + k

/-- The memory that is left for the RAM, in steps of 16 MB, whether it could be allocated, and the pages
of helper code. -/
structure Machine extends Addresses where
  installed : Nat
  installed_lt : installed < 256
  allocated : Bool
  helperRam : Nat → BitVec 8
  apart : Function.Injective toAddresses.location
  inFred : ∀ l, toAddresses.location l < 256

def Machine.jimRamSize (M : Machine) : Nat := if M.allocated then M.installed else 0

def Machine.discRamBase (M : Machine) : BitVec 32 :=
  BitVec.ofNat 32 (M.jimRamSize * jimRamStep) - BitVec.ofNat 32 discRamSize

def Machine.discRamMax (M : Machine) : BitVec 32 := M.discRamBase + BitVec.ofNat 32 discRamSize

def Pi1MHz_MEM_PAGE : Nat := 256

structure Jim where
  memory : Nat → BitVec 8
  jimRam : Nat → BitVec 8
  pageRamAddr : BitVec 32
  byteRamAddr : BitVec 32
  discRamAddr : BitVec 32
  discRamAddrHi : Option (BitVec 8)
  helper : Bool

inductive PageRegister where
  | high
  | mid
  | low
deriving DecidableEq

namespace Jim

variable (M : Machine)

def memoryWrite (s : Jim) (addr : Nat) (data : BitVec 8) : Jim :=
  { s with memory := Function.update s.memory addr data }

def memoryWritePage (s : Jim) (page : Nat → BitVec 8) : Jim :=
  { s with memory := fun a =>
      if Pi1MHz_MEM_PAGE ≤ a ∧ a < Pi1MHz_MEM_PAGE + 256 then page (a - Pi1MHz_MEM_PAGE) else s.memory a }

def ram_emulator_page_restore (s : Jim) : Jim :=
  { s.memoryWritePage (fun i => s.jimRam (s.pageRamAddr.toNat + i)) with helper := false }

def ram_emulator_byte_addr (s : Jim) (reg : Register) (data : BitVec 8) : Jim :=
  let addr := Services.Port.replaced s.byteRamAddr data reg
  let s := { s with byteRamAddr := addr }
  let s := s.memoryWrite (M.location (.byte 3)) (s.jimRam addr.toNat)
  s.memoryWrite (M.location (.byte (Fin.ofNat 4 reg.index))) data

def ram_emulator_byte_write (s : Jim) (data : BitVec 8) : Jim :=
  { s with jimRam := Function.update s.jimRam s.byteRamAddr.toNat data }.memoryWrite
    (M.location (.byte 3)) data

def bank (data : BitVec 8) : BitVec 8 :=
  if M.jimRamSize ≤ data.toNat then BitVec.ofNat 8 M.jimRamSize - 1 else data

def ram_emulator_page_addr (s : Jim) (data : BitVec 8) : PageRegister → Jim
  | .high =>
    let data := bank M data
    let s := { s with pageRamAddr := (s.pageRamAddr &&& 0x00FFFFFF) ||| (data.setWidth 32 <<< 24) }
    s.ram_emulator_page_restore.memoryWrite (M.location (.page 0)) data
  | .mid =>
    let s := { s with pageRamAddr := (s.pageRamAddr &&& 0xFF00FFFF) ||| (data.setWidth 32 <<< 16) }
    s.ram_emulator_page_restore.memoryWrite (M.location (.page 1)) data
  | .low =>
    let s := { s with pageRamAddr := (s.pageRamAddr &&& 0xFFFF00FF) ||| (data.setWidth 32 <<< 8) }
    s.ram_emulator_page_restore.memoryWrite (M.location (.page 2)) data

def ram_emulator_page_write (s : Jim) (addr : Fin 256) (data : BitVec 8) : Jim :=
  { s with jimRam := Function.update s.jimRam (s.pageRamAddr.toNat + addr) data }.memoryWrite
    (Pi1MHz_MEM_PAGE + addr) data

def services_emulator_update_address (s : Jim) : Jim :=
  let hi := byteOf s.discRamAddr 2
  let low := (s.memoryWrite (M.location (.services 0)) (byteOf s.discRamAddr 0)).memoryWrite
    (M.location (.services 1)) (byteOf s.discRamAddr 1)
  if some hi ≠ s.discRamAddrHi then
    { low with discRamAddrHi := some hi }.memoryWrite (M.location (.services 2)) hi
  else low

def setup (s : Jim) (addr : BitVec 32) : Jim :=
  let s := { s with discRamAddr := addr }
  (s.memoryWrite (M.location (.services 3)) (s.jimRam addr.toNat)).services_emulator_update_address M

def services_emulator_byte_addr (s : Jim) (reg : Register) (data : BitVec 8) : Jim :=
  s.setup M (Services.Port.replaced s.discRamAddr data reg)

/-- `disc_ram_addr++`, and back to the start. -/
def next (s : Jim) : BitVec 32 :=
  if M.discRamMax ≤ s.discRamAddr + 1 then M.discRamBase else s.discRamAddr + 1

def services_emulator_byte_write_inc (s : Jim) (data : BitVec 8) : Jim :=
  { s with jimRam := Function.update s.jimRam s.discRamAddr.toNat data }.setup M (s.next M)

def services_emulator_byte_read_inc (s : Jim) : Jim := s.setup M (s.next M)

/-- The page of `helper_ram` that is selected. -/
def selected (data : BitVec 8) : Nat := if 16 ≤ data.toNat then 0 else data.toNat

def helpscreen : Nat := (M.discRamBase + 0x00FFE000).toNat

/-- `helpers_screen_setup` writes at most 1024 bytes, the end of the string included. -/
abbrev Text := { text : List (BitVec 8) // text.length ≤ 1024 }

def helpers_screen_setup (ram : Nat → BitVec 8) (text : Text) : Nat → BitVec 8 := fun a =>
  if helpscreen M ≤ a ∧ a < helpscreen M + text.1.length then text.1.getD (a - helpscreen M) 0 else ram a

def helpers_bank_select (s : Jim) (data : BitVec 8) (text : Text) : Jim :=
  if data = 0xFF then (s.memoryWrite (M.location (.helper 4)) 0x60).ram_emulator_page_restore
  else
    let s := s.memoryWrite (M.location (.helper 4)) 0x4c
    let page := selected data
    let s := { s.memoryWritePage (fun i => M.helperRam (page * 256 + i)) with helper := true }
    if page = 0 then
      { s with jimRam := helpers_screen_setup M s.jimRam text }.memoryWrite (Pi1MHz_MEM_PAGE + 1) 0x03
    else s

/-- `byte_ram_addr` after a reset. -/
def resetByteRamAddr : BitVec 32 := (BitVec.ofNat 32 M.installed - 1) <<< 24

/-- `helpers_init`: the call that selects a page. -/
def helperCode : List (Fin 7 × BitVec 8) :=
  [(0, 0x8E), (1, BitVec.ofNat 8 M.helperAddress), (2, 0xFC), (3, 0xEA), (4, 0x4c), (5, 0x00), (6, 0xFD)]

/-- `init_emulator`, at power on and after a reset of the Beeb; the RAM may be loaded from a file. -/
def init_emulator (ram : Nat → BitVec 8) : Jim :=
  let s : Jim :=
    { memory := fun _ => 0
      jimRam := ram
      pageRamAddr := 0
      byteRamAddr := resetByteRamAddr M
      discRamAddr := M.discRamBase
      discRamAddrHi := none
      helper := false }
  let s := (helperCode M).foldl (fun s code => s.memoryWrite (M.location (.helper code.1)) code.2) s
  let s := if M.allocated then s.memoryWritePage ram else s
  (s.memoryWrite (M.location (.services 4)) 0).memoryWrite (M.location (.services 5)) 0

end Jim

open Jim

inductive Access where
  | pageAddr (data : BitVec 8) (reg : PageRegister)
  | byteAddr (reg : Register) (data : BitVec 8)
  | byteWrite (data : BitVec 8)
  | pageWrite (addr : Fin 256) (data : BitVec 8)
  | servicesAddr (reg : Register) (data : BitVec 8)
  | servicesWrite (data : BitVec 8)
  | servicesRead
  | bankSelect (data : BitVec 8) (text : Text)
  | reset (ram : Nat → BitVec 8)

def step (M : Machine) (s : Jim) : Access → Jim
  | .pageAddr data reg => s.ram_emulator_page_addr M data reg
  | .byteAddr reg data => s.ram_emulator_byte_addr M reg data
  | .byteWrite data => s.ram_emulator_byte_write M data
  | .pageWrite addr data => s.ram_emulator_page_write addr data
  | .servicesAddr reg data => s.services_emulator_byte_addr M reg data
  | .servicesWrite data => s.services_emulator_byte_write_inc M data
  | .servicesRead => s.services_emulator_byte_read_inc M
  | .bankSelect data text => s.helpers_bank_select M data text
  | .reset ram => init_emulator M ram

/-! ### One content -/

/-- The Beeb reads what is in the RAM, and the addresses that are in force; of a RAM that is not there
it need not read anything. -/
structure OneContent (M : Machine) (s : Jim) : Prop where
  window : 0 < M.jimRamSize → s.helper = false →
    ∀ i < 256, s.memory (Pi1MHz_MEM_PAGE + i) = s.jimRam (s.pageRamAddr.toNat + i)
  dataPort : 0 < M.jimRamSize → s.memory (M.location (.byte 3)) = s.jimRam s.byteRamAddr.toNat
  pageRegisters : ∀ k : Fin 3, s.memory (M.location (.page k)) = byteOf s.pageRamAddr (3 - k)
  byteRegisters : ∀ k : Fin 3, s.memory (M.location (.byte k.castSucc)) = byteOf s.byteRamAddr k
  servicesRegisters : ∀ k : Fin 3,
    s.memory (M.location (.services (Fin.castLE (by decide) k))) = byteOf s.discRamAddr k

def accesses (M : Machine) (s : Jim) (a : Access) : List (Nat × Nat) :=
  match a with
  | .pageAddr .. => [((step M s a).pageRamAddr.toNat, 256)]
  | .byteAddr .. => [((step M s a).byteRamAddr.toNat, 1)]
  | .byteWrite _ => [(s.byteRamAddr.toNat, 1)]
  | .pageWrite addr _ => [(s.pageRamAddr.toNat + addr, 1)]
  | .servicesAddr .. => [((step M s a).discRamAddr.toNat, 1)]
  | .servicesWrite _ => [(s.discRamAddr.toNat, 1), ((step M s a).discRamAddr.toNat, 1)]
  | .servicesRead => [((step M s a).discRamAddr.toNat, 1)]
  | .bankSelect data text =>
    if data = 0xFF then [(s.pageRamAddr.toNat, 256)]
    else if selected data = 0 then [(helpscreen M, text.1.length)]
    else []
  | .reset _ => if M.allocated then [(0, 256)] else []

def InRange (M : Machine) (s : Jim) (a : Access) : Prop :=
  ∀ r ∈ accesses M s a, r.1 + r.2 ≤ M.jimRamSize * jimRamStep

def InWindow (s : Jim) (addr : Nat) : Prop :=
  s.helper = false ∧ s.pageRamAddr.toNat ≤ addr ∧ addr < s.pageRamAddr.toNat + 256

/-- There is the RAM the port needs, and what is written through one port changes nothing that another
shows. -/
def Plain (M : Machine) (s : Jim) : Access → Prop
  | .pageAddr .. | .byteAddr .. => 1 ≤ M.jimRamSize
  | .byteWrite data =>
    1 ≤ M.jimRamSize ∧ (InWindow s s.byteRamAddr.toNat → data = s.jimRam s.byteRamAddr.toNat)
  | .pageWrite addr data =>
    1 ≤ M.jimRamSize ∧ (s.pageRamAddr.toNat + addr = s.byteRamAddr.toNat → data = s.jimRam s.byteRamAddr.toNat)
  | .servicesAddr .. | .servicesRead => 2 ≤ M.jimRamSize
  | .servicesWrite data =>
    2 ≤ M.jimRamSize ∧
      (s.discRamAddr = s.byteRamAddr ∨ InWindow s s.discRamAddr.toNat → data = s.jimRam s.discRamAddr.toNat)
  | .bankSelect data text =>
    if data = 0xFF then 1 ≤ M.jimRamSize
    else if selected data = 0 then
      2 ≤ M.jimRamSize ∧ ∀ i < text.1.length, helpscreen M + i = s.byteRamAddr.toNat →
        text.1.getD i 0 = s.jimRam s.byteRamAddr.toNat
    else True
  | .reset ram => M.allocated = true → 1 ≤ M.installed ∧ ram (resetByteRamAddr M).toNat = 0

end Pi1MHz.JimRam
