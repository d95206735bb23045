import Mathlib.Data.List.Induction
import Mathlib.Data.Nat.Bitwise
import Mathlib.Tactic.IntervalCases

/-!
# The bus memory

`Pi1MHz.c` keeps every byte of FRED and JIM twice: in the shadow `Pi1MHz->Memory`, one byte an
address, and in the words the VideoCore reads, two addresses a word, each with its byte and an
upper byte that says whether the address is driven at all.
-/

namespace Pi1MHz.Bus

/-! ### The words the VideoCore reads -/

def driven (data : BitVec 8) : BitVec 32 := 0xff00 ||| data.setWidth 32

/-- The word `MemoryWrite` stores for `addr`, `other` being the half of the neighbouring address. -/
def byteWord (addr : Nat) (data : BitVec 8) (other : BitVec 32) : BitVec 32 :=
  if addr % 2 = 1 then (driven data <<< 16) ||| other else driven data ||| (other <<< 16)

/-- The word for the two low bytes of `data`. -/
def lowWord (data : BitVec 32) : BitVec 32 := 0xFF00FF00 ||| (data &&& 0xFF) ||| (data <<< 8)

/-- The word for the two high bytes of `data`. -/
def highWord (data : BitVec 32) : BitVec 32 :=
  0xFF00FF00 ||| (data >>> 16) ||| ((data >>> 24) <<< 16)

/-- `r8` of `Pi1MHzvc.s` in a read cycle: the half of the address, shifted to the data pins. -/
def selected (addr : Nat) (word : BitVec 32) : BitVec 32 :=
  if addr % 2 = 1 then word >>> 14 else word <<< 2

def pins (addr : Nat) (word : BitVec 32) : BitVec 8 := (selected addr word >>> 2).setWidth 8

/-- `OUTPUTBIT`: the external buffer is enabled "only if it has been written to". -/
def outputBit (addr : Nat) (word : BitVec 32) : Bool := (selected addr word).getLsbD 15

/-- Byte `k` of a word the CPU stores in one piece. -/
def byteOf (data : BitVec 32) (k : Nat) : BitVec 8 := (data >>> (8 * k)).setWidth 8

section Words

variable {a addr : Nat}

theorem pins_byteWord_self (addr : Nat) (data other : BitVec 8) :
    pins addr (byteWord addr data (driven other)) = data := by
  rcases Nat.mod_two_eq_zero_or_one addr with h | h
  · ext i hi
    interval_cases i <;> simp [pins, selected, byteWord, driven, h]
  · ext i hi
    interval_cases i <;> simp [pins, selected, byteWord, driven, h]

theorem pins_byteWord_other (h : a % 2 ≠ addr % 2) (data other : BitVec 8) :
    pins a (byteWord addr data (driven other)) = other := by
  rcases Nat.mod_two_eq_zero_or_one addr with h1 | h1
  · have h2 : a % 2 = 1 := by omega
    ext i hi
    interval_cases i <;> simp [pins, selected, byteWord, driven, h1, h2]
  · have h2 : a % 2 = 0 := by omega
    ext i hi
    interval_cases i <;> simp [pins, selected, byteWord, driven, h1, h2]

theorem outputBit_byteWord (a addr : Nat) (data other : BitVec 8) :
    outputBit a (byteWord addr data (driven other)) = true := by
  rcases Nat.mod_two_eq_zero_or_one a with h | h <;>
    rcases Nat.mod_two_eq_zero_or_one addr with h1 | h1 <;>
      simp [outputBit, selected, byteWord, driven, h, h1]

theorem pins_lowWord_even (h : a % 2 = 0) (data : BitVec 32) :
    pins a (lowWord data) = byteOf data 0 := by
  ext i hi
  interval_cases i <;> simp [pins, selected, lowWord, byteOf, h]

theorem pins_lowWord_odd (h : a % 2 = 1) (data : BitVec 32) :
    pins a (lowWord data) = byteOf data 1 := by
  ext i hi
  interval_cases i <;> simp [pins, selected, lowWord, byteOf, h]

theorem pins_highWord_even (h : a % 2 = 0) (data : BitVec 32) :
    pins a (highWord data) = byteOf data 2 := by
  ext i hi
  interval_cases i <;> simp [pins, selected, highWord, byteOf, h]

theorem pins_highWord_odd (h : a % 2 = 1) (data : BitVec 32) :
    pins a (highWord data) = byteOf data 3 := by
  ext i hi
  interval_cases i <;> simp [pins, selected, highWord, byteOf, h]

theorem outputBit_lowWord (a : Nat) (data : BitVec 32) : outputBit a (lowWord data) = true := by
  rcases Nat.mod_two_eq_zero_or_one a with h | h <;> simp [outputBit, selected, lowWord, h]

theorem outputBit_highWord (a : Nat) (data : BitVec 32) : outputBit a (highWord data) = true := by
  rcases Nat.mod_two_eq_zero_or_one a with h | h <;> simp [outputBit, selected, highWord, h]

end Words

/-! ### The two copies and the stores into them -/

/-- `Pi1MHz->Memory` and `Pi1MHz_Memory_VPU`. -/
@[ext]
structure Memory where
  shadow : Nat → BitVec 8
  vpu : Nat → BitVec 32

namespace Memory

/-- Both copies as `init_emulator` clears them. -/
def cleared : Memory where
  shadow _ := 0
  vpu _ := 0

def storeShadow (m : Memory) (addr : Nat) (data : BitVec 8) : Memory :=
  { m with shadow := Function.update m.shadow addr data }

def storeVpu (m : Memory) (word : Nat) (value : BitVec 32) : Memory :=
  { m with vpu := Function.update m.vpu word value }

def storeShadow16 (m : Memory) (addr : Nat) (data : BitVec 32) : Memory :=
  (m.storeShadow addr (byteOf data 0)).storeShadow (addr + 1) (byteOf data 1)

def storeShadow32 (m : Memory) (addr : Nat) (data : BitVec 32) : Memory :=
  (m.storeShadow16 addr data).storeShadow16 (addr + 2) (data >>> 16)

/-- The other byte of the word, as `MemoryWrite` loads it from the shadow. -/
def loadOther (m : Memory) (addr : Nat) : BitVec 32 := driven (m.shadow (addr ^^^ 1))

def presented (m : Memory) (a : Nat) : BitVec 8 := pins a (m.vpu (a / 2))

/-- Whether a read cycle of `a` drives the bus. -/
def outputEnabled (m : Memory) (a : Nat) : Bool := outputBit a (m.vpu (a / 2))

def memoryWrite (m : Memory) (addr : Nat) (data : BitVec 8) : Memory :=
  let other := m.loadOther addr
  let m := m.storeVpu (addr / 2) (byteWord addr data other)
  m.storeShadow addr data

def memoryWrite16 (m : Memory) (addr : Nat) (data : BitVec 32) : Memory :=
  let m := m.storeShadow16 addr data
  m.storeVpu (addr / 2) (lowWord data)

def memoryWrite32 (m : Memory) (addr : Nat) (data : BitVec 32) : Memory :=
  let m := m.storeShadow32 addr data
  let m := m.storeVpu (addr / 2) (lowWord data)
  m.storeVpu (addr / 2 + 1) (highWord data)

end Memory

/-- A call of one of the write functions; "addr is always even" for the halfword and "always a
multiple of 4" for the word. -/
inductive Call where
  | write (addr : Nat) (data : BitVec 8)
  | write16 (addr : Nat) (data : BitVec 32) (aligned : addr % 2 = 0)
  | write32 (addr : Nat) (data : BitVec 32) (aligned : addr % 4 = 0)

namespace Call

def writes : Call → Nat → Option (BitVec 8)
  | write addr data, a => if a = addr then some data else none
  | write16 addr data _, a => if a = addr ∨ a = addr + 1 then some (byteOf data (a - addr)) else none
  | write32 addr data _, a =>
      if addr ≤ a ∧ a < addr + 4 then some (byteOf data (a - addr)) else none

def stores : Call → Nat → Prop
  | write addr _, w => w = addr / 2
  | write16 addr _ _, w => w = addr / 2
  | write32 addr _ _, w => w = addr / 2 ∨ w = addr / 2 + 1

def run (m : Memory) : Call → Memory
  | write addr data => m.memoryWrite addr data
  | write16 addr data _ => m.memoryWrite16 addr data
  | write32 addr data _ => m.memoryWrite32 addr data

end Call

def runCalls (m : Memory) (calls : List Call) : Memory := calls.foldl Call.run m

/-! ### What one call does -/

section OneCall

variable (m : Memory) (c : Call) {a w : Nat}

theorem xor_one_div_two (addr : Nat) : (addr ^^^ 1) / 2 = addr / 2 := by
  rcases Nat.even_or_odd addr with h | h
  · rw [Nat.xor_one_of_even h]
    obtain ⟨k, rfl⟩ := h
    omega
  · rw [Nat.xor_one_of_odd h]
    obtain ⟨k, rfl⟩ := h
    omega

theorem eq_or_eq_xor_one {a addr : Nat} (h : a / 2 = addr / 2) : a = addr ∨ a = addr ^^^ 1 := by
  rcases Nat.even_or_odd addr with heven | hodd
  · rw [Nat.xor_one_of_even heven]
    obtain ⟨k, rfl⟩ := heven
    omega
  · rw [Nat.xor_one_of_odd hodd]
    obtain ⟨k, rfl⟩ := hodd
    omega

theorem xor_one_mod_two (addr : Nat) : (addr ^^^ 1) % 2 ≠ addr % 2 := by
  rcases Nat.even_or_odd addr with h | h
  · rw [Nat.xor_one_of_even h]
    omega
  · rw [Nat.xor_one_of_odd h]
    obtain ⟨k, rfl⟩ := h
    omega

theorem storeShadow16_apply (addr : Nat) (data : BitVec 32) (a : Nat) :
    (m.storeShadow16 addr data).shadow a =
      if a = addr ∨ a = addr + 1 then byteOf data (a - addr) else m.shadow a := by
  simp only [Memory.storeShadow16, Memory.storeShadow, Function.update_apply]
  by_cases h1 : a = addr + 1
  · simp [h1]
  · by_cases h0 : a = addr <;> simp [h0, h1]

theorem byteOf_shift (data : BitVec 32) (k : Nat) : byteOf (data >>> 16) k = byteOf data (k + 2) := by
  rw [byteOf, byteOf, ← BitVec.shiftRight_add]
  congr 2
  omega

theorem storeShadow32_apply (addr : Nat) (data : BitVec 32) (a : Nat) :
    (m.storeShadow32 addr data).shadow a =
      if addr ≤ a ∧ a < addr + 4 then byteOf data (a - addr) else m.shadow a := by
  rw [Memory.storeShadow32, storeShadow16_apply, storeShadow16_apply, byteOf_shift]
  by_cases hhigh : a = addr + 2 ∨ a = addr + 2 + 1
  · rw [if_pos hhigh, if_pos (by omega)]
    congr 1
    omega
  · rw [if_neg hhigh]
    by_cases hlow : a = addr ∨ a = addr + 1
    · rw [if_pos hlow, if_pos (by omega)]
    · rw [if_neg hlow, if_neg (by omega)]

theorem run_shadow (a : Nat) : (c.run m).shadow a = (c.writes a).getD (m.shadow a) := by
  cases c with
  | write addr data =>
    by_cases h : a = addr <;>
      simp [Call.run, Memory.memoryWrite, Memory.storeShadow, Memory.storeVpu, Call.writes, h]
  | write16 addr data aligned =>
    simp only [Call.run, Memory.memoryWrite16, Memory.storeVpu, storeShadow16_apply, Call.writes]
    split <;> rfl
  | write32 addr data aligned =>
    simp only [Call.run, Memory.memoryWrite32, Memory.storeVpu, storeShadow32_apply, Call.writes]
    split <;> rfl

theorem stores_of_writes {v : BitVec 8} (h : c.writes a = some v) : c.stores (a / 2) := by
  cases c with
  | write addr data =>
    have ha : a = addr := by
      by_contra hne
      simp [Call.writes, hne] at h
    rw [ha]
    rfl
  | write16 addr data aligned =>
    have ha : a = addr ∨ a = addr + 1 := by
      by_contra hne
      simp [Call.writes, hne] at h
    show a / 2 = addr / 2
    omega
  | write32 addr data aligned =>
    have ha : addr ≤ a ∧ a < addr + 4 := by
      by_contra hne
      simp [Call.writes, hne] at h
    show a / 2 = addr / 2 ∨ a / 2 = addr / 2 + 1
    omega

theorem run_vpu_of_not_stores (h : ¬ c.stores w) : (c.run m).vpu w = m.vpu w := by
  cases c with
  | write addr data => exact Function.update_of_ne h _ _
  | write16 addr data aligned => exact Function.update_of_ne h _ _
  | write32 addr data aligned =>
    obtain ⟨hlow, hhigh⟩ := not_or.mp h
    exact (Function.update_of_ne hhigh _ _).trans (Function.update_of_ne hlow _ _)

theorem run_vpu_of_stores (h : c.stores (a / 2)) :
    (c.run m).presented a = (c.run m).shadow a ∧ (c.run m).outputEnabled a = true := by
  cases c with
  | write addr data =>
    have hw : ((Call.write addr data).run m).vpu (a / 2) =
        byteWord addr data (driven (m.shadow (addr ^^^ 1))) := by
      rw [h]
      exact Function.update_self _ _ _
    rw [Memory.presented, Memory.outputEnabled, hw, run_shadow]
    refine ⟨?_, outputBit_byteWord a addr data _⟩
    rcases eq_or_eq_xor_one h with rfl | rfl
    · rw [pins_byteWord_self]
      simp [Call.writes]
    · have hne : addr ^^^ 1 ≠ addr := fun heq => xor_one_mod_two addr (congrArg (· % 2) heq)
      rw [pins_byteWord_other (xor_one_mod_two addr)]
      simp [Call.writes, hne]
  | write16 addr data aligned =>
    have hw : ((Call.write16 addr data aligned).run m).vpu (a / 2) = lowWord data := by
      rw [h]
      exact Function.update_self _ _ _
    rw [Memory.presented, Memory.outputEnabled, hw, run_shadow]
    refine ⟨?_, outputBit_lowWord a data⟩
    change a / 2 = addr / 2 at h
    rcases Nat.mod_two_eq_zero_or_one a with ha | ha
    · have heq : a = addr := by omega
      rw [pins_lowWord_even ha]
      simp [Call.writes, heq]
    · have heq : a = addr + 1 := by omega
      rw [pins_lowWord_odd ha]
      simp [Call.writes, heq]
  | write32 addr data aligned =>
    rcases h with h | h
    · have hw : ((Call.write32 addr data aligned).run m).vpu (a / 2) = lowWord data := by
        rw [h]
        exact (Function.update_of_ne (Nat.ne_of_lt (Nat.lt_succ_self _)) _ _).trans
          (Function.update_self _ _ _)
      rw [Memory.presented, Memory.outputEnabled, hw, run_shadow]
      refine ⟨?_, outputBit_lowWord a data⟩
      rcases Nat.mod_two_eq_zero_or_one a with ha | ha
      · have heq : a = addr := by omega
        rw [pins_lowWord_even ha]
        simp [Call.writes, heq]
      · have heq : a = addr + 1 := by omega
        rw [pins_lowWord_odd ha]
        simp [Call.writes, heq]
    · have hw : ((Call.write32 addr data aligned).run m).vpu (a / 2) = highWord data := by
        rw [h]
        exact Function.update_self _ _ _
      rw [Memory.presented, Memory.outputEnabled, hw, run_shadow]
      refine ⟨?_, outputBit_highWord a data⟩
      rcases Nat.mod_two_eq_zero_or_one a with ha | ha
      · have heq : a = addr + 2 := by omega
        rw [pins_highWord_even ha]
        simp [Call.writes, heq]
      · have heq : a = addr + 3 := by omega
        rw [pins_highWord_odd ha]
        simp [Call.writes, heq]

def Memory.Mirrored (m : Memory) : Prop := ∀ a, m.presented a = m.shadow a

theorem mirrored_cleared : Memory.cleared.Mirrored := by
  intro a
  rcases Nat.mod_two_eq_zero_or_one a with h | h <;>
    simp [Memory.presented, Memory.cleared, pins, selected, h]

theorem writes_of_not_stores {c : Call} {addr : Nat} (h : ¬ c.stores (addr / 2)) :
    c.writes addr = none := by
  by_contra hne
  obtain ⟨v, hv⟩ := Option.ne_none_iff_exists'.mp hne
  exact h (stores_of_writes c hv)

theorem mirrored_run {m : Memory} (hm : m.Mirrored) : (c.run m).Mirrored := by
  intro a
  by_cases h : c.stores (a / 2)
  · exact (run_vpu_of_stores m c h).1
  · rw [Memory.presented, run_vpu_of_not_stores m c h, run_shadow, writes_of_not_stores h]
    exact hm a

theorem memoryWrite_shadow (addr : Nat) (data : BitVec 8) (a : Nat) :
    (m.memoryWrite addr data).shadow a = if a = addr then data else m.shadow a := by
  refine (run_shadow m (.write addr data) a).trans ?_
  rw [Call.writes]
  split <;> rfl

theorem memoryWrite16_shadow {addr : Nat} (aligned : addr % 2 = 0) (data : BitVec 32) (a : Nat) :
    (m.memoryWrite16 addr data).shadow a =
      if a = addr ∨ a = addr + 1 then byteOf data (a - addr) else m.shadow a := by
  refine (run_shadow m (.write16 addr data aligned) a).trans ?_
  rw [Call.writes]
  split <;> rfl

end OneCall

/-! ### Calls to other words commute with the stores of a call under way -/

section Commuting

variable (m : Memory) {c : Call} {calls : List Call} {addr w : Nat}

theorem run_storeVpu (value : BitVec 32) (h : ¬ c.stores w) :
    c.run (m.storeVpu w value) = (c.run m).storeVpu w value := by
  cases c with
  | write addr data =>
    refine Memory.ext rfl ?_
    exact Function.update_comm h _ _ _
  | write16 addr data aligned =>
    refine Memory.ext rfl ?_
    exact Function.update_comm h _ _ _
  | write32 addr data aligned =>
    obtain ⟨hlow, hhigh⟩ := not_or.mp h
    refine Memory.ext rfl ?_
    simp only [Call.run, Memory.memoryWrite32, Memory.storeShadow32, Memory.storeShadow16,
      Memory.storeShadow, Memory.storeVpu]
    rw [Function.update_comm hlow, Function.update_comm hhigh]

theorem run_vpu_congr {m m' : Memory} (hv : m.vpu = m'.vpu)
    (hs : ∀ a, c.stores (a / 2) → m.shadow a = m'.shadow a) : (c.run m).vpu = (c.run m').vpu := by
  cases c with
  | write addr data =>
    have hother : m.shadow (addr ^^^ 1) = m'.shadow (addr ^^^ 1) := hs _ (xor_one_div_two addr)
    simp only [Call.run, Memory.memoryWrite, Memory.storeShadow, Memory.storeVpu, Memory.loadOther,
      hother, hv]
  | write16 addr data aligned =>
    simp only [Call.run, Memory.memoryWrite16, Memory.storeShadow16, Memory.storeShadow,
      Memory.storeVpu, hv]
  | write32 addr data aligned =>
    simp only [Call.run, Memory.memoryWrite32, Memory.storeShadow32, Memory.storeShadow16,
      Memory.storeShadow, Memory.storeVpu, hv]

theorem run_storeShadow (data : BitVec 8) (h : ¬ c.stores (addr / 2)) :
    c.run (m.storeShadow addr data) = (c.run m).storeShadow addr data := by
  apply Memory.ext
  · funext a
    show (c.run (m.storeShadow addr data)).shadow a = Function.update (c.run m).shadow addr data a
    simp only [run_shadow, Memory.storeShadow, Function.update_apply]
    split
    · next heq => rw [heq, writes_of_not_stores h, Option.getD_none]
    · rfl
  · apply run_vpu_congr
    · rfl
    · intro a ha
      have hne : a ≠ addr := fun heq => h (heq ▸ ha)
      exact Function.update_of_ne hne _ _

theorem runCalls_storeVpu (value : BitVec 32) (h : ∀ c ∈ calls, ¬ c.stores w) :
    runCalls (m.storeVpu w value) calls = (runCalls m calls).storeVpu w value := by
  induction calls generalizing m with
  | nil => rfl
  | cons c calls ih =>
    obtain ⟨hc, hcalls⟩ := List.forall_mem_cons.mp h
    show runCalls (c.run (m.storeVpu w value)) calls = _
    rw [run_storeVpu m value hc]
    exact ih (c.run m) hcalls

theorem runCalls_storeShadow (data : BitVec 8) (h : ∀ c ∈ calls, ¬ c.stores (addr / 2)) :
    runCalls (m.storeShadow addr data) calls = (runCalls m calls).storeShadow addr data := by
  induction calls generalizing m with
  | nil => rfl
  | cons c calls ih =>
    obtain ⟨hc, hcalls⟩ := List.forall_mem_cons.mp h
    show runCalls (c.run (m.storeShadow addr data)) calls = _
    rw [run_storeShadow m data hc]
    exact ih (c.run m) hcalls

theorem runCalls_append (calls calls' : List Call) :
    runCalls m (calls ++ calls') = runCalls (runCalls m calls) calls' := by
  simp [runCalls]

end Commuting

/-! ### Main-loop calls with the FIQ calls that preempt them -/

/-- A FIQ call while the main loop is elsewhere, or a main-loop call with the FIQ calls made
between its loads and stores. -/
inductive Item where
  | fiq (c : Call)
  | write (addr : Nat) (data : BitVec 8) (afterLoad afterVpu : List Call)
  | write16 (addr : Nat) (data : BitVec 32) (aligned : addr % 2 = 0) (afterShadow : List Call)
  | write32 (addr : Nat) (data : BitVec 32) (aligned : addr % 4 = 0)
      (afterShadow afterVpu : List Call)

namespace Item

def run (m : Memory) : Item → Memory
  | fiq c => c.run m
  | write addr data afterLoad afterVpu =>
      let other := m.loadOther addr
      let m := runCalls m afterLoad
      let m := m.storeVpu (addr / 2) (byteWord addr data other)
      let m := runCalls m afterVpu
      m.storeShadow addr data
  | write16 addr data _ afterShadow =>
      let m := m.storeShadow16 addr data
      let m := runCalls m afterShadow
      m.storeVpu (addr / 2) (lowWord data)
  | write32 addr data _ afterShadow afterVpu =>
      let m := m.storeShadow32 addr data
      let m := runCalls m afterShadow
      let m := m.storeVpu (addr / 2) (lowWord data)
      let m := runCalls m afterVpu
      m.storeVpu (addr / 2 + 1) (highWord data)

def own : Item → Call
  | fiq c => c
  | write addr data _ _ => .write addr data
  | write16 addr data aligned _ => .write16 addr data aligned
  | write32 addr data aligned _ _ => .write32 addr data aligned

def preempting : Item → List Call
  | fiq _ => []
  | write _ _ afterLoad afterVpu => afterLoad ++ afterVpu
  | write16 _ _ _ afterShadow => afterShadow
  | write32 _ _ _ afterShadow afterVpu => afterShadow ++ afterVpu

def calls (it : Item) : List Call := it.own :: it.preempting

def Elsewhere (it : Item) : Prop :=
  ∀ c ∈ it.preempting, ∀ a, it.own.writes a ≠ none → c.writes a = none

/-- No preempting call writes the other byte of the word a `MemoryWrite` is about to store from a
shadow it has already read, or has stored while its own shadow byte is still the old one. -/
def Undisturbed : Item → Prop
  | write addr _ afterLoad afterVpu => ∀ c ∈ afterLoad ++ afterVpu, c.writes (addr ^^^ 1) = none
  | _ => True

end Item

def runItems (m : Memory) (items : List Item) : Memory := items.foldl Item.run m

theorem writes_of_stores {c : Call} {addr : Nat} (h : c.stores (addr / 2)) :
    c.writes addr ≠ none ∨ c.writes (addr ^^^ 1) ≠ none := by
  cases c with
  | write addr' data =>
    rcases eq_or_eq_xor_one (Eq.symm h) with rfl | rfl
    · left
      simp [Call.writes]
    · right
      simp [Call.writes]
  | write16 addr' data aligned =>
    left
    change addr / 2 = addr' / 2 at h
    have ha : addr = addr' ∨ addr = addr' + 1 := by omega
    simp [Call.writes, ha]
  | write32 addr' data aligned =>
    left
    change addr / 2 = addr' / 2 ∨ addr / 2 = addr' / 2 + 1 at h
    have ha : addr' ≤ addr ∧ addr < addr' + 4 := by omega
    simp [Call.writes, ha]

theorem Item.not_stores {it : Item} (helse : it.Elsewhere) (hund : it.Undisturbed) {c : Call}
    (hc : c ∈ it.preempting) {a : Nat} (ha : it.own.stores (a / 2)) : ¬ c.stores (a / 2) := by
  intro hstores
  cases it with
  | fiq c' => cases hc
  | write addr data afterLoad afterVpu =>
    have hword : a / 2 = addr / 2 := ha
    rw [hword] at hstores
    rcases writes_of_stores hstores with hself | hother
    · exact hself (helse c hc addr (by simp [Item.own, Call.writes]))
    · exact hother (hund c hc)
  | write16 addr data aligned afterShadow =>
    have hword : a / 2 = addr / 2 := ha
    have hboth : ∀ b, b / 2 = addr / 2 → c.writes b = none := by
      intro b hb
      have hown : b = addr ∨ b = addr + 1 := by omega
      exact helse c hc b (by simp [Item.own, Call.writes, hown])
    rcases writes_of_stores hstores with hself | hother
    · exact hself (hboth a hword)
    · exact hother (hboth _ ((xor_one_div_two a).trans hword))
  | write32 addr data aligned afterShadow afterVpu =>
    have hword : a / 2 = addr / 2 ∨ a / 2 = addr / 2 + 1 := ha
    have hboth : ∀ b, b / 2 = a / 2 → c.writes b = none := by
      intro b hb
      have hown : addr ≤ b ∧ b < addr + 4 := by omega
      exact helse c hc b (by simp [Item.own, Call.writes, hown])
    rcases writes_of_stores hstores with hself | hother
    · exact hself (hboth a rfl)
    · exact hother (hboth _ (xor_one_div_two a))

theorem Item.run_eq_calls (m : Memory) {it : Item} (helse : it.Elsewhere) (hund : it.Undisturbed) :
    it.run m = runCalls m it.calls := by
  have hown : ∀ c ∈ it.preempting, ∀ a, it.own.stores (a / 2) → ¬ c.stores (a / 2) :=
    fun c hc a ha => it.not_stores helse hund hc ha
  cases it with
  | fiq c => rfl
  | write addr data afterLoad afterVpu =>
    have hword : ∀ c ∈ afterLoad ++ afterVpu, ¬ c.stores (addr / 2) := fun c hc => hown c hc addr rfl
    obtain ⟨hload, hvpu⟩ := List.forall_mem_append.mp hword
    show (runCalls ((runCalls m afterLoad).storeVpu (addr / 2) _) afterVpu).storeShadow addr data =
      runCalls ((m.storeVpu (addr / 2) _).storeShadow addr data) (afterLoad ++ afterVpu)
    rw [runCalls_storeShadow _ _ hword, runCalls_append, runCalls_storeVpu _ _ hload]
  | write16 addr data aligned afterShadow =>
    have hword : ∀ c ∈ afterShadow, ¬ c.stores (addr / 2) := fun c hc => hown c hc addr rfl
    show (runCalls (m.storeShadow16 addr data) afterShadow).storeVpu (addr / 2) (lowWord data) =
      runCalls ((m.storeShadow16 addr data).storeVpu (addr / 2) (lowWord data)) afterShadow
    rw [runCalls_storeVpu _ _ hword]
  | write32 addr data aligned afterShadow afterVpu =>
    have hlow : ∀ c ∈ afterShadow ++ afterVpu, ¬ c.stores (addr / 2) :=
      fun c hc => hown c hc addr (Or.inl rfl)
    have hhigh : ∀ c ∈ afterShadow ++ afterVpu, ¬ c.stores (addr / 2 + 1) := by
      intro c hc
      have h := hown c hc (addr + 2)
      rw [Nat.add_div_right addr (by decide)] at h
      exact h (Or.inr rfl)
    show (runCalls ((runCalls (m.storeShadow32 addr data) afterShadow).storeVpu (addr / 2)
        (lowWord data)) afterVpu).storeVpu (addr / 2 + 1) (highWord data) =
      runCalls (((m.storeShadow32 addr data).storeVpu (addr / 2) (lowWord data)).storeVpu
        (addr / 2 + 1) (highWord data)) (afterShadow ++ afterVpu)
    rw [runCalls_storeVpu _ _ hhigh, runCalls_append,
      runCalls_storeVpu _ _ (List.forall_mem_append.mp hlow).1]

/-! ### Runs -/

def lastWritten (calls : List Call) (a : Nat) : Option (BitVec 8) :=
  calls.foldl (fun last c => (c.writes a).or last) none

def Written (calls : List Call) (a : Nat) : Prop := ∃ c ∈ calls, c.writes a ≠ none

section Runs

variable {calls : List Call} {items : List Item}

@[simp] theorem runCalls_concat (m : Memory) (calls : List Call) (c : Call) :
    runCalls m (calls ++ [c]) = c.run (runCalls m calls) := by
  simp [runCalls]

@[simp] theorem lastWritten_concat (calls : List Call) (c : Call) (a : Nat) :
    lastWritten (calls ++ [c]) a = (c.writes a).or (lastWritten calls a) := by
  simp [lastWritten]

theorem runCalls_shadow (m : Memory) (calls : List Call) (a : Nat) :
    (runCalls m calls).shadow a = (lastWritten calls a).getD (m.shadow a) := by
  induction calls using List.reverseRecOn with
  | nil => rfl
  | append_singleton calls c ih =>
    rw [runCalls_concat, run_shadow, lastWritten_concat, ih]
    cases c.writes a <;> rfl

theorem runCalls_presented (calls : List Call) (a : Nat) :
    (runCalls .cleared calls).presented a = (runCalls .cleared calls).shadow a := by
  induction calls using List.reverseRecOn generalizing a with
  | nil => exact mirrored_cleared a
  | append_singleton calls c ih =>
    rw [runCalls_concat]
    exact mirrored_run c ih a

theorem runCalls_outputEnabled (calls : List Call) (a : Nat) :
    (runCalls .cleared calls).outputEnabled a = true ↔ ∃ c ∈ calls, c.stores (a / 2) := by
  induction calls using List.reverseRecOn with
  | nil =>
    rcases Nat.mod_two_eq_zero_or_one a with h | h <;>
      simp [runCalls, Memory.outputEnabled, Memory.cleared, outputBit, selected, h]
  | append_singleton calls c ih =>
    rw [runCalls_concat]
    by_cases h : c.stores (a / 2)
    · exact iff_of_true (run_vpu_of_stores _ c h).2 ⟨c, by simp, h⟩
    · rw [Memory.outputEnabled, run_vpu_of_not_stores _ c h]
      refine ih.trans ?_
      simp [h]

theorem runItems_eq_calls (m : Memory) (helse : ∀ it ∈ items, it.Elsewhere)
    (hund : ∀ it ∈ items, it.Undisturbed) :
    runItems m items = runCalls m (items.flatMap Item.calls) := by
  induction items generalizing m with
  | nil => rfl
  | cons it items ih =>
    obtain ⟨he, helse⟩ := List.forall_mem_cons.mp helse
    obtain ⟨hu, hund⟩ := List.forall_mem_cons.mp hund
    rw [List.flatMap_cons, runCalls_append, ← Item.run_eq_calls m he hu]
    exact ih (it.run m) helse hund

def Paired (calls : List Call) : Prop :=
  ∀ addr data, Call.write addr data ∈ calls → Written calls (addr ^^^ 1)

theorem written_of_stores (hpair : Paired calls) {c : Call} (hc : c ∈ calls) {a : Nat}
    (h : c.stores (a / 2)) : Written calls a := by
  rcases writes_of_stores h with hself | hother
  · exact ⟨c, hc, hself⟩
  · cases c with
    | write addr data =>
      rcases eq_or_eq_xor_one h with rfl | rfl
      · exact ⟨_, hc, by simp [Call.writes]⟩
      · exact hpair addr data hc
    | write16 addr data aligned =>
      change a / 2 = addr / 2 at h
      have ha : a = addr ∨ a = addr + 1 := by omega
      exact ⟨_, hc, by simp [Call.writes, ha]⟩
    | write32 addr data aligned =>
      change a / 2 = addr / 2 ∨ a / 2 = addr / 2 + 1 at h
      have ha : addr ≤ a ∧ a < addr + 4 := by omega
      exact ⟨_, hc, by simp [Call.writes, ha]⟩

theorem outputEnabled_iff_written (calls : List Call) :
    (∀ a, (runCalls .cleared calls).outputEnabled a = true ↔ Written calls a) ↔ Paired calls := by
  constructor
  · intro h addr data hmem
    apply (h (addr ^^^ 1)).mp
    rw [runCalls_outputEnabled]
    exact ⟨_, hmem, xor_one_div_two addr⟩
  · intro hpair a
    rw [runCalls_outputEnabled]
    constructor
    · rintro ⟨c, hc, hstores⟩
      exact written_of_stores hpair hc hstores
    · rintro ⟨c, hc, hne⟩
      obtain ⟨v, hv⟩ := Option.ne_none_iff_exists'.mp hne
      exact ⟨c, hc, stores_of_writes c hv⟩

end Runs

def Coherent (calls : List Call) (m : Memory) : Prop :=
  (∀ a v, lastWritten calls a = some v → m.presented a = v ∧ m.shadow a = v) ∧
    ∀ a, m.outputEnabled a = true ↔ Written calls a

/-- While no FIQ call writes into the word of a `MemoryWrite` under way, both copies are right
after every run, and the output enables are right exactly when no byte is written without its
neighbour: the store marks both halves of the word. -/
theorem bus_coherent_iff_paired (items : List Item) (helse : ∀ it ∈ items, it.Elsewhere)
    (hund : ∀ it ∈ items, it.Undisturbed) :
    Coherent (items.flatMap Item.calls) (runItems .cleared items) ↔
      Paired (items.flatMap Item.calls) := by
  rw [runItems_eq_calls _ helse hund, ← outputEnabled_iff_written]
  constructor
  · exact And.right
  · intro hflags
    refine ⟨fun a v hlast => ?_, hflags⟩
    have hshadow : (runCalls .cleared (items.flatMap Item.calls)).shadow a = v := by
      rw [runCalls_shadow, hlast, Option.getD_some]
    exact ⟨(runCalls_presented _ a).trans hshadow, hshadow⟩

/-- The services port after its initialisation, a status from the main loop and a command result
from FIQ before it. -/
def quietStatus : List Item :=
  [.fiq (.write 0xAA 0), .fiq (.write 0xAB 0), .fiq (.write 0xAA 1), .write 0xAB 0x80 [] []]

theorem bus_coherent_quiet_status :
    Paired (quietStatus.flatMap Item.calls) ∧
      Coherent (quietStatus.flatMap Item.calls) (runItems .cleared quietStatus) := by
  have hpair : Paired (quietStatus.flatMap Item.calls) := by
    intro addr data hmem
    have hcases : addr = 0xAA ∨ addr = 0xAB := by
      simp [quietStatus, Item.calls, Item.own, Item.preempting] at hmem
      omega
    rcases hcases with rfl | rfl
    · exact ⟨.write 0xAB 0, by simp [quietStatus, Item.calls, Item.own, Item.preempting], by decide⟩
    · exact ⟨.write 0xAA 0, by simp [quietStatus, Item.calls, Item.own, Item.preempting], by decide⟩
  refine ⟨hpair, (bus_coherent_iff_paired quietStatus ?_ ?_).mpr hpair⟩
  · simp [quietStatus, Item.Elsewhere, Item.preempting]
  · simp [quietStatus, Item.Undisturbed]

/-- The command result 1 written from FIQ while `services_irq` is between its load of the shadow
and its store: the bus goes on showing 0 at &FCAA. -/
def lostResult : List Item :=
  [.fiq (.write 0xAA 0), .fiq (.write 0xAB 0), .write 0xAB 0x80 [.write 0xAA 1] []]

theorem command_result_lost :
    (∀ it ∈ lostResult, it.Elsewhere) ∧
      lastWritten (lostResult.flatMap Item.calls) 0xAA = some 1 ∧
      (runItems .cleared lostResult).shadow 0xAA = 1 ∧
      (runItems .cleared lostResult).presented 0xAA = 0 ∧
      ¬ Coherent (lostResult.flatMap Item.calls) (runItems .cleared lostResult) := by
  have hlast : lastWritten (lostResult.flatMap Item.calls) 0xAA = some 1 := by decide
  have hzero : (runItems .cleared lostResult).presented 0xAA = 0 := by decide
  refine ⟨?_, hlast, by decide, hzero, ?_⟩
  · simp [lostResult, Item.Elsewhere, Item.preempting, Item.own, Call.writes]
  · intro h
    have hone := (h.1 0xAA 1 hlast).1
    rw [hzero] at hone
    exact absurd hone (by decide)

end Pi1MHz.Bus
