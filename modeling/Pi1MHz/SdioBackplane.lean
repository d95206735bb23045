import Mathlib.Algebra.Order.Ring.Nat
import Mathlib.Logic.Function.Basic
import Mathlib.Data.List.Basic
import Mathlib.Tactic.SplitIfs

/-!
# Backplane transfers

`sdio_backplane_transfer_bytes` of `sdio.c`.  The chip shows 32 KB of its backplane at a time; a transfer goes
window by window, and within a window block by block as far as there are whole blocks, then by words, then byte
by byte.
-/

namespace Pi1MHz.SdioBackplane

def SDIO_BACKPLANE_WINDOW_SIZE : Nat := 0x8000

def SDIO_PROBE_FUNCTION1_BLOCK_SIZE : Nat := 64

def SDIO_BACKPLANE_ACCESS_2_4B_FLAG : Nat := 0x8000

/-! ### The chip -/

structure Access where
  address : UInt32
  index : Nat
deriving DecidableEq, Repr

structure Memory where
  chip : UInt32 → UInt8
  buffer : Nat → UInt8

def Memory.move (write : Bool) (m : Memory) (x : Access) : Memory :=
  if write = true then { m with chip := Function.update m.chip x.address (m.buffer x.index) }
  else { m with buffer := Function.update m.buffer x.index (m.chip x.address) }

/-- What goes over the bus: the window that is selected, or the fields of a CMD53 or CMD52 for function 1. -/
inductive Command
  | setWindow (address : UInt32)
  | cmd53 (blockMode : Bool) (address : Nat) (count : UInt16)
  | cmd52 (address : Nat)
deriving DecidableEq, Repr

structure Bus where
  memory : Memory
  window : UInt32
  commands : List Command
  touched : List Access

/-- How the chip answers: whether a command fails, by the number of commands before it, and after how many
bytes; and how many blocks it takes when the count field of a block transfer is zero, which leaves the end to a
stop that is never sent. -/
structure Chip where
  fails : Nat → Option Nat
  openEnded : Nat

section

variable (K : Chip) (write : Bool)

/-- A command that is to move `xs`. -/
def issue (c : Command) (xs : List Access) (b : Bus) : Except Bus Bus :=
  match K.fails b.commands.length with
  | none => .ok
      { b with
        memory := xs.foldl (Memory.move write) b.memory
        commands := b.commands ++ [c]
        touched := b.touched ++ xs }
  | some n => .error
      { b with
        memory := (xs.take n).foldl (Memory.move write) b.memory
        commands := b.commands ++ [c]
        touched := b.touched ++ xs.take n }

/-- `n` bytes from an address of function 1 on; its low fifteen bits are the place in the window. -/
def accesses (window : UInt32) (address index n : Nat) : List Access :=
  (List.range n).map fun j =>
    ⟨window + UInt32.ofNat ((address + j) % SDIO_BACKPLANE_WINDOW_SIZE), index + j⟩

def bytesMoved (blockMode : Bool) (count : UInt16) : Nat :=
  let field := (count &&& 0x1FF).toNat
  if blockMode = true then SDIO_PROBE_FUNCTION1_BLOCK_SIZE * (if field = 0 then K.openEnded else field)
  else if field = 0 then 512 else field

def sdioCmd53Execute (blockMode : Bool) (address : Nat) (count : UInt16) (index : Nat) (b : Bus) :
    Except Bus Bus :=
  if count = 0 then .error b
  else issue K write (.cmd53 blockMode address count)
    (accesses b.window address index (bytesMoved K blockMode count)) b

def sdioCmd52Execute (address index : Nat) (b : Bus) : Except Bus Bus :=
  issue K write (.cmd52 address) (accesses b.window address index 1) b

def windowOf (address : UInt32) : UInt32 := address - address % 0x8000

def sdioBackplaneSetWindow (address : UInt32) (b : Bus) : Except Bus Bus :=
  (issue K write (.setWindow address) [] b).map fun b => { b with window := windowOf address }

/-! ### The transfer -/

/-- The variables that advance together; `buffer` counts from where the caller's buffer starts. -/
structure Place where
  address : UInt32
  buffer : Nat
  length : Nat
  chunk : Nat
  windowOffset : Nat
deriving Repr

def Place.advance (n : Nat) (p : Place) : Place where
  address := p.address + UInt32.ofNat n
  buffer := p.buffer + n
  length := p.length - n
  chunk := p.chunk - n
  windowOffset := p.windowOffset + n

def moveBlocks (p : Place) (b : Bus) : Except Bus (Place × Bus) :=
  let blockChunk := p.chunk / SDIO_PROBE_FUNCTION1_BLOCK_SIZE * SDIO_PROBE_FUNCTION1_BLOCK_SIZE
  if blockChunk ≠ 0 then do
    let b ← sdioCmd53Execute K write true (p.windowOffset ||| SDIO_BACKPLANE_ACCESS_2_4B_FLAG)
      (UInt16.ofNat (blockChunk / SDIO_PROBE_FUNCTION1_BLOCK_SIZE)) p.buffer b
    return (p.advance blockChunk, b)
  else return (p, b)

/-- The remainder that is whole words, in byte mode; `chunk & ~0x3u` is `chunk / 4 * 4`. -/
def moveWords (p : Place) (b : Bus) : Except Bus (Place × Bus) :=
  let wordChunk := p.chunk / 4 * 4
  if wordChunk ≠ 0 then do
    let b ← sdioCmd53Execute K write false (p.windowOffset ||| SDIO_BACKPLANE_ACCESS_2_4B_FLAG)
      (UInt16.ofNat wordChunk) p.buffer b
    return (p.advance wordChunk, b)
  else return (p, b)

/-- `while (chunk != 0u)`: a byte a turn. -/
def moveBytes : Nat → Place → Bus → Except Bus (Place × Bus)
  | 0, p, b => return (p, b)
  | n + 1, p, b => do
      let b ← sdioCmd52Execute K write (p.windowOffset ||| SDIO_BACKPLANE_ACCESS_2_4B_FLAG) p.buffer b
      moveBytes n (p.advance 1) b

def moveWindow (p : Place) (b : Bus) : Except Bus (Place × Bus) := do
  let windowOffset := p.address.toNat % SDIO_BACKPLANE_WINDOW_SIZE
  let windowRemaining := SDIO_BACKPLANE_WINDOW_SIZE - windowOffset
  let chunk := if p.length < windowRemaining then p.length else windowRemaining
  let b ← sdioBackplaneSetWindow K write p.address b
  let (p, b) ← moveBlocks K write { p with chunk, windowOffset } b
  let (p, b) ← moveWords K write p b
  moveBytes K write p.chunk p b

def transferLoop : Nat → Place → Bus → Option (Except Bus Bus)
  | 0, _, _ => none
  | fuel + 1, p, b =>
      if p.length = 0 then some (.ok b)
      else
        match moveWindow K write p b with
        | .error b => some (.error b)
        | .ok (p, b) => transferLoop fuel p b

def sdioBackplaneTransferBytes (address length window : UInt32) (m : Memory) (fuel : Nat) :
    Option (Except Bus Bus) :=
  transferLoop K write fuel ⟨address, 0, length.toNat, 0, 0⟩ ⟨m, window, [], []⟩

end

def Command.Legal : Command → Prop
  | .setWindow _ => True
  | .cmd53 blockMode address count =>
      if blockMode = true then
        (1 ≤ count.toNat ∧ count.toNat ≤ 511) ∧
          address % SDIO_BACKPLANE_WINDOW_SIZE + SDIO_PROBE_FUNCTION1_BLOCK_SIZE * count.toNat ≤
            SDIO_BACKPLANE_WINDOW_SIZE
      else
        (1 ≤ count.toNat ∧ count.toNat ≤ 512) ∧
          address % SDIO_BACKPLANE_WINDOW_SIZE + count.toNat ≤ SDIO_BACKPLANE_WINDOW_SIZE
  | .cmd52 _ => True

theorem legal_setWindow (address : UInt32) : (Command.setWindow address).Legal := trivial

theorem legal_cmd52 (address : Nat) : (Command.cmd52 address).Legal := trivial

/-- The first `n` bytes are moved, each of them once and in order, and nothing else is. -/
structure Exact (write : Bool) (address : UInt32) (m : Memory) (n : Nat) (b : Bus) : Prop where
  once : b.touched = (List.range n).map fun i => ⟨address + UInt32.ofNat i, i⟩
  chip : ∀ a, b.memory.chip a =
    if write = true ∧ (a - address).toNat < n then m.buffer (a - address).toNat else m.chip a
  buffer : ∀ i, b.memory.buffer i =
    if write = false ∧ i < n then m.chip (address + UInt32.ofNat i) else m.buffer i

/-- Whatever the chip answers the transfer ends; one that succeeds has moved all its bytes, one that fails the
first of them, and the commands are legal. -/
def TransfersRight (write : Bool) (address length : UInt32) : Prop :=
  ∀ K window m, ∃ fuel r, sdioBackplaneTransferBytes K write address length window m fuel = some r ∧
    match r with
    | .ok b => Exact write address m length.toNat b ∧ ∀ c ∈ b.commands, c.Legal
    | .error b => (∃ n, n ≤ length.toNat ∧ Exact write address m n b) ∧ ∀ c ∈ b.commands, c.Legal

section Post

variable {α β : Type}

def Post (r : Except Bus α) (ok : α → Prop) (stopped : Bus → Prop) : Prop :=
  match r with
  | .ok a => ok a
  | .error b => stopped b

variable {r : Except Bus α} {f : α → Except Bus β} {ok : α → Prop} {ok' : β → Prop} {stopped : Bus → Prop}

theorem Post.bind (h : Post r ok stopped) (hf : ∀ a, ok a → Post (f a) ok' stopped) :
    Post (r >>= f) ok' stopped := by
  cases r with
  | ok a => exact hf a h
  | error b => exact h

theorem Post.mono {ok' : α → Prop} (h : Post r ok stopped) (hok : ∀ a, ok a → ok' a) : Post r ok' stopped := by
  cases r with
  | ok a => exact hok a h
  | error b => exact h

theorem Post.map {g : α → β} (h : Post r (fun a => ok' (g a)) stopped) : Post (r.map g) ok' stopped := by
  cases r with
  | ok a => exact h
  | error b => exact h

end Post

/-! ### How far a transfer is -/

/-- `n` bytes from the `d`-th on. -/
def span (address : UInt32) (d n : Nat) : List Access :=
  (List.range n).map fun j => ⟨address + UInt32.ofNat (d + j), d + j⟩

theorem span_add (address : UInt32) (d n : Nat) : span address 0 (d + n) = span address 0 d ++ span address d n := by
  simp only [span, List.range_add, List.map_append, List.map_map, Nat.zero_add]
  rfl

theorem span_take (address : UInt32) (d n k : Nat) : (span address d n).take k = span address d (min k n) := by
  rw [span, ← List.map_take, List.take_range]
  rfl

section

variable (K : Chip) (write : Bool) (address : UInt32) (total : Nat) (m : Memory)

/-- The first `d` bytes are moved. -/
structure Done (d : Nat) (b : Bus) : Prop where
  touched : b.touched = span address 0 d
  memory : b.memory = (span address 0 d).foldl (Memory.move write) m
  legal : ∀ c ∈ b.commands, c.Legal

def Stopped (b : Bus) : Prop := (∃ k, K.fails k ≠ none) ∧ ∃ d, d ≤ total ∧ Done write address m d b

structure Placed (p : Place) (b : Bus) : Prop where
  done : Done write address m p.buffer b
  address : p.address = address + UInt32.ofNat p.buffer
  length : p.buffer + p.length = total

structure Ready (p : Place) (b : Bus) : Prop extends Placed write address total m p b where
  window : b.window + UInt32.ofNat p.windowOffset = p.address
  chunk : p.chunk ≤ p.length
  fits : p.windowOffset + p.chunk ≤ SDIO_BACKPLANE_WINDOW_SIZE

end

section Steps

variable {K : Chip} {write : Bool} {address : UInt32} {total : Nat} {m : Memory} {p : Place} {b : Bus}

theorem issue_post {d n : Nat} {c : Command} (h : Done write address m d b) (hc : c.Legal)
    (hle : d + n ≤ total) :
    Post (issue K write c (span address d n) b)
      (fun b' => Done write address m (d + n) b' ∧ b'.window = b.window) (Stopped K write address total m) := by
  have hlegal : ∀ c' ∈ b.commands ++ [c], c'.Legal := by
    intro c' hc'
    rcases List.mem_append.mp hc' with hold | hnew
    · exact h.legal c' hold
    · rw [List.mem_singleton.mp hnew]
      exact hc
  rw [issue]
  cases hfails : K.fails b.commands.length with
  | none =>
    refine ⟨⟨?_, ?_, hlegal⟩, rfl⟩
    · simp only [h.touched, span_add]
    · simp only [h.memory, span_add, List.foldl_append]
  | some k =>
    refine ⟨⟨b.commands.length, by simp [hfails]⟩, d + min k n, by omega, ?_, ?_, hlegal⟩
    · simp only [h.touched, span_take, span_add]
    · simp only [h.memory, span_take, span_add, List.foldl_append]

theorem flag_mod (n : Nat) :
    (n ||| SDIO_BACKPLANE_ACCESS_2_4B_FLAG) % SDIO_BACKPLANE_WINDOW_SIZE = n % SDIO_BACKPLANE_WINDOW_SIZE := by
  rw [SDIO_BACKPLANE_WINDOW_SIZE, show 0x8000 = 2 ^ 15 from rfl, Nat.or_mod_two_pow]
  exact Nat.or_zero _

theorem accesses_eq (h : Ready write address total m p b) {n : Nat} (hn : n ≤ p.chunk) :
    accesses b.window (p.windowOffset ||| SDIO_BACKPLANE_ACCESS_2_4B_FLAG) p.buffer n =
      span address p.buffer n := by
  apply List.map_congr_left
  intro j hj
  have hfits := h.fits
  have hjn := List.mem_range.mp hj
  have hmod : ((p.windowOffset ||| SDIO_BACKPLANE_ACCESS_2_4B_FLAG) + j) % SDIO_BACKPLANE_WINDOW_SIZE =
      p.windowOffset + j := by
    rw [Nat.add_mod, flag_mod, ← Nat.add_mod]
    exact Nat.mod_eq_of_lt (by omega)
  rw [hmod, UInt32.ofNat_add, ← UInt32.add_assoc, h.window, h.address, UInt32.add_assoc, ← UInt32.ofNat_add]

theorem command_post (h : Ready write address total m p b) {n : Nat} (hn : n ≤ p.chunk) {c : Command}
    (hc : c.Legal) :
    Post (issue K write c
        (accesses b.window (p.windowOffset ||| SDIO_BACKPLANE_ACCESS_2_4B_FLAG) p.buffer n) b)
      (Ready write address total m (p.advance n)) (Stopped K write address total m) := by
  have hchunk := h.chunk
  have hlength := h.length
  have hfits := h.fits
  rw [accesses_eq h hn]
  refine (issue_post h.done hc (by omega)).mono ?_
  rintro b' ⟨hdone, hwindow⟩
  refine ⟨⟨hdone, ?_, ?_⟩, ?_, ?_, ?_⟩
  · simp only [Place.advance]
    rw [h.address, UInt32.ofNat_add, UInt32.add_assoc]
  · simp only [Place.advance]
    omega
  · simp only [Place.advance]
    rw [hwindow, UInt32.ofNat_add, ← UInt32.add_assoc, h.window]
  · simp only [Place.advance]
    omega
  · simp only [Place.advance]
    omega

theorem field_eq {count : UInt16} (h : count.toNat < 512) : (count &&& 0x1FF).toNat = count.toNat := by
  rw [UInt16.toNat_and]
  exact (Nat.and_two_pow_sub_one_eq_mod _ 9).trans (Nat.mod_eq_of_lt h)

theorem moveBlocks_some (h : p.chunk / 64 * 64 ≠ 0) :
    moveBlocks K write p b =
      sdioCmd53Execute K write true (p.windowOffset ||| SDIO_BACKPLANE_ACCESS_2_4B_FLAG)
          (UInt16.ofNat (p.chunk / 64 * 64 / 64)) p.buffer b >>= fun b =>
        pure (p.advance (p.chunk / 64 * 64), b) :=
  if_pos h

theorem moveBlocks_none (h : ¬p.chunk / 64 * 64 ≠ 0) : moveBlocks K write p b = pure (p, b) := if_neg h

theorem moveBlocks_post (h : Ready write address total m p b) (hlt : p.chunk < SDIO_BACKPLANE_WINDOW_SIZE) :
    Post (moveBlocks K write p b)
      (fun q => Ready write address total m q.1 q.2 ∧ q.1.chunk < SDIO_PROBE_FUNCTION1_BLOCK_SIZE ∧
        q.1.length + p.chunk = p.length + q.1.chunk)
      (Stopped K write address total m) := by
  simp only [SDIO_BACKPLANE_WINDOW_SIZE] at hlt
  have hchunk := h.chunk
  rw [SDIO_PROBE_FUNCTION1_BLOCK_SIZE]
  by_cases hsome : p.chunk / 64 * 64 ≠ 0
  · rw [moveBlocks_some hsome]
    have hcount : (UInt16.ofNat (p.chunk / 64 * 64 / 64)).toNat = p.chunk / 64 := by
      rw [Nat.mul_div_cancel _ (by decide)]
      exact UInt16.toNat_ofNat_of_lt (show _ < 65536 by omega)
    have hne : UInt16.ofNat (p.chunk / 64 * 64 / 64) ≠ 0 := by
      intro hzero
      rw [hzero] at hcount
      simp at hcount
      omega
    have hmoved : bytesMoved K true (UInt16.ofNat (p.chunk / 64 * 64 / 64)) = p.chunk / 64 * 64 := by
      simp only [bytesMoved, SDIO_PROBE_FUNCTION1_BLOCK_SIZE, if_true]
      rw [field_eq (by omega), hcount, if_neg (by omega), Nat.mul_comm]
    have hfits := h.fits
    rw [sdioCmd53Execute, if_neg hne, hmoved]
    refine (command_post h (by omega) ?_).bind ?_
    · simp only [Command.Legal, if_true, hcount, flag_mod, SDIO_PROBE_FUNCTION1_BLOCK_SIZE]
      have := Nat.mod_le p.windowOffset SDIO_BACKPLANE_WINDOW_SIZE
      omega
    · intro b' hready
      refine ⟨hready, ?_, ?_⟩
      · simp only [Place.advance]
        omega
      · simp only [Place.advance]
        omega
  · rw [moveBlocks_none hsome]
    exact ⟨h, by dsimp only; omega, rfl⟩

theorem moveWords_post (h : Ready write address total m p b) (hlt : p.chunk < SDIO_PROBE_FUNCTION1_BLOCK_SIZE) :
    Post (moveWords K write p b)
      (fun q => Ready write address total m q.1 q.2 ∧ q.1.length + p.chunk = p.length + q.1.chunk)
      (Stopped K write address total m) := by
  simp only [SDIO_PROBE_FUNCTION1_BLOCK_SIZE] at hlt
  have hchunk := h.chunk
  simp only [moveWords]
  by_cases hsome : p.chunk / 4 * 4 ≠ 0
  · rw [if_pos hsome]
    have hcount : (UInt16.ofNat (p.chunk / 4 * 4)).toNat = p.chunk / 4 * 4 :=
      UInt16.toNat_ofNat_of_lt (show _ < 65536 by omega)
    have hne : UInt16.ofNat (p.chunk / 4 * 4) ≠ 0 := by
      intro hzero
      rw [hzero] at hcount
      simp at hcount
      omega
    have hmoved : bytesMoved K false (UInt16.ofNat (p.chunk / 4 * 4)) = p.chunk / 4 * 4 := by
      simp only [bytesMoved, Bool.false_eq_true, if_false]
      rw [field_eq (by omega), hcount, if_neg hsome]
    have hfits := h.fits
    rw [sdioCmd53Execute, if_neg hne, hmoved]
    refine (command_post h (by omega) ?_).bind ?_
    · simp only [Command.Legal, Bool.false_eq_true, if_false, hcount, flag_mod]
      have := Nat.mod_le p.windowOffset SDIO_BACKPLANE_WINDOW_SIZE
      omega
    · intro b' hready
      refine ⟨hready, ?_⟩
      simp only [Place.advance]
      omega
  · rw [if_neg hsome]
    exact ⟨h, rfl⟩

theorem moveBytes_post {n : Nat} (h : Ready write address total m p b) (hn : p.chunk = n) :
    Post (moveBytes K write n p b)
      (fun q => Ready write address total m q.1 q.2 ∧ q.1.length + p.chunk = p.length)
      (Stopped K write address total m) := by
  induction n generalizing p b with
  | zero => exact ⟨h, by dsimp only; omega⟩
  | succ n ih =>
    have hchunk := h.chunk
    rw [moveBytes, sdioCmd52Execute]
    refine (command_post h (by omega) (legal_cmd52 _)).bind ?_
    intro b' hready
    refine (ih hready (by simp only [Place.advance]; omega)).mono ?_
    rintro q ⟨hq, hrest⟩
    refine ⟨hq, ?_⟩
    simp only [Place.advance] at hrest
    omega

theorem windowOf_add (a : UInt32) : windowOf a + UInt32.ofNat (a.toNat % SDIO_BACKPLANE_WINDOW_SIZE) = a := by
  have hrem : UInt32.ofNat (a.toNat % SDIO_BACKPLANE_WINDOW_SIZE) = a % 0x8000 := by
    apply UInt32.toNat_inj.mp
    have := a.toNat_lt
    rw [UInt32.toNat_mod, UInt32.toNat_ofNat_of_lt' (by simp only [SDIO_BACKPLANE_WINDOW_SIZE, UInt32.size]; omega)]
    rfl
  rw [hrem, windowOf, UInt32.sub_add_cancel]

def windowChunk (p : Place) : Nat :=
  min p.length (SDIO_BACKPLANE_WINDOW_SIZE - p.address.toNat % SDIO_BACKPLANE_WINDOW_SIZE)

theorem chunk_eq (p : Place) :
    (if p.length < SDIO_BACKPLANE_WINDOW_SIZE - p.address.toNat % SDIO_BACKPLANE_WINDOW_SIZE then p.length
      else SDIO_BACKPLANE_WINDOW_SIZE - p.address.toNat % SDIO_BACKPLANE_WINDOW_SIZE) = windowChunk p := by
  rw [windowChunk]
  split <;> omega

theorem moveWindow_post (h : Placed write address total m p b)
    (hlt : windowChunk p < SDIO_BACKPLANE_WINDOW_SIZE) :
    Post (moveWindow K write p b)
      (fun q => Placed write address total m q.1 q.2 ∧ q.1.length + windowChunk p = p.length)
      (Stopped K write address total m) := by
  have hlength := h.length
  simp only [moveWindow, chunk_eq]
  have hselect : Post (sdioBackplaneSetWindow K write p.address b)
      (Ready write address total m
        { p with chunk := windowChunk p, windowOffset := p.address.toNat % SDIO_BACKPLANE_WINDOW_SIZE })
      (Stopped K write address total m) := by
    rw [sdioBackplaneSetWindow]
    refine Post.map ((@issue_post K write address total m b p.buffer 0 _ h.done (legal_setWindow _) (by omega)).mono ?_)
    rintro b' ⟨hdone, -⟩
    refine ⟨⟨{ hdone with }, h.address, h.length⟩, windowOf_add p.address, ?_, ?_⟩
    · exact Nat.min_le_left _ _
    · simp only [windowChunk, SDIO_BACKPLANE_WINDOW_SIZE]
      omega
  refine hselect.bind ?_
  intro b₁ h₁
  refine (moveBlocks_post h₁ hlt).bind ?_
  rintro ⟨p₂, b₂⟩ ⟨h₂, hlt₂, hrest₂⟩
  refine (moveWords_post h₂ hlt₂).bind ?_
  rintro ⟨p₃, b₃⟩ ⟨h₃, hrest₃⟩
  refine (moveBytes_post h₃ rfl).mono ?_
  rintro ⟨p₄, b₄⟩ ⟨h₄, hrest₄⟩
  refine ⟨h₄.toPlaced, ?_⟩
  dsimp only at *
  omega

end Steps

/-! ### What has been moved -/

section Exact

variable {write : Bool} {address : UInt32} {m : Memory}

theorem span_succ (address : UInt32) (n : Nat) :
    span address 0 (n + 1) = span address 0 n ++ [⟨address + UInt32.ofNat n, n⟩] := by
  simp [span, List.range_succ]

theorem distance (a : UInt32) {n : Nat} (hn : n < 2 ^ 32) :
    a = address + UInt32.ofNat n ↔ (a - address).toNat = n := by
  constructor
  · rintro rfl
    rw [UInt32.add_comm, UInt32.add_sub_cancel]
    exact UInt32.toNat_ofNat_of_lt hn
  · intro h
    rw [← h, UInt32.ofNat_toNat, UInt32.add_comm, UInt32.sub_add_cancel]

theorem moved_exact {n : Nat} (hn : n ≤ 2 ^ 32) :
    (∀ a, ((span address 0 n).foldl (Memory.move write) m).chip a =
      if write = true ∧ (a - address).toNat < n then m.buffer (a - address).toNat else m.chip a) ∧
    ∀ i, ((span address 0 n).foldl (Memory.move write) m).buffer i =
      if write = false ∧ i < n then m.chip (address + UInt32.ofNat i) else m.buffer i := by
  induction n with
  | zero =>
    constructor
    · intro a
      rw [if_neg (by omega)]
      rfl
    · intro i
      rw [if_neg (by omega)]
      rfl
  | succ n ih =>
    obtain ⟨hchip, hbuffer⟩ := ih (by omega)
    rw [span_succ, List.foldl_append, List.foldl_cons, List.foldl_nil]
    cases write with
    | true =>
      simp only [Memory.move, if_true, true_and, Function.update_apply, distance _ (Nat.lt_of_succ_le hn),
        Bool.true_eq_false, false_and, if_false] at hchip hbuffer ⊢
      refine ⟨?_, hbuffer⟩
      intro a
      rw [hbuffer, hchip]
      by_cases heq : (a - address).toNat = n
      · rw [if_pos heq, if_pos (by omega), heq]
      · rw [if_neg heq]
        exact if_congr (by omega) rfl rfl
    | false =>
      simp only [Memory.move, Bool.false_eq_true, if_false, false_and, Function.update_apply, true_and]
        at hchip hbuffer ⊢
      refine ⟨hchip, ?_⟩
      intro i
      rw [hbuffer, hchip]
      by_cases heq : i = n
      · rw [if_pos heq, if_pos (by omega), heq]
      · rw [if_neg heq]
        exact if_congr (by omega) rfl rfl

theorem Done.exact {n : Nat} {b : Bus} (h : Done write address m n b) (hn : n ≤ 2 ^ 32) :
    Exact write address m n b := by
  obtain ⟨hchip, hbuffer⟩ := @moved_exact write address m n hn
  refine ⟨?_, ?_, ?_⟩
  · rw [h.touched, span]
    simp
  · rw [h.memory]
    exact hchip
  · rw [h.memory]
    exact hbuffer

end Exact

/-! ### The whole transfer -/

def NoWholeWindow (p : Place) : Prop :=
  p.length < (SDIO_BACKPLANE_WINDOW_SIZE - p.address.toNat % SDIO_BACKPLANE_WINDOW_SIZE) %
    SDIO_BACKPLANE_WINDOW_SIZE + SDIO_BACKPLANE_WINDOW_SIZE

section Loop

variable {K : Chip} {write : Bool} {address : UInt32} {total : Nat} {m : Memory} {p q : Place} {b b' : Bus}

theorem windowChunk_pos (h : p.length ≠ 0) : 0 < windowChunk p := by
  simp only [windowChunk, SDIO_BACKPLANE_WINDOW_SIZE]
  omega

theorem noWholeWindow_turn (h : Placed write address total m p b) (h' : Placed write address total m q b')
    (hrest : q.length + windowChunk p = p.length) :
    NoWholeWindow p ↔ windowChunk p < SDIO_BACKPLANE_WINDOW_SIZE ∧ NoWholeWindow q := by
  have hlength := h.length
  have hlength' := h'.length
  have hmoved : q.address = p.address + UInt32.ofNat (windowChunk p) := by
    have hbuffer : q.buffer = p.buffer + windowChunk p := by omega
    rw [h'.address, hbuffer, UInt32.ofNat_add, ← UInt32.add_assoc, ← h.address]
  have hplace : q.address.toNat % SDIO_BACKPLANE_WINDOW_SIZE =
      (p.address.toNat % SDIO_BACKPLANE_WINDOW_SIZE + windowChunk p) % SDIO_BACKPLANE_WINDOW_SIZE := by
    rw [hmoved, UInt32.toNat_add, UInt32.toNat_ofNat', SDIO_BACKPLANE_WINDOW_SIZE]
    omega
  rw [NoWholeWindow, NoWholeWindow, hplace]
  simp only [windowChunk, SDIO_BACKPLANE_WINDOW_SIZE] at hrest ⊢
  omega

theorem transferLoop_post (fuel : Nat) (h : Placed write address total m p b) (hwhole : NoWholeWindow p)
    (hfuel : p.length < fuel) :
    ∃ r, transferLoop K write fuel p b = some r ∧
      Post r (Done write address m total) (Stopped K write address total m) := by
  induction fuel generalizing p b with
  | zero => omega
  | succ fuel ih =>
    rw [transferLoop]
    by_cases hzero : p.length = 0
    · rw [if_pos hzero]
      refine ⟨_, rfl, ?_⟩
      have hall : p.buffer = total := by
        have := h.length
        omega
      exact hall ▸ h.done
    · rw [if_neg hzero]
      have hpos := windowChunk_pos hzero
      have hlt : windowChunk p < SDIO_BACKPLANE_WINDOW_SIZE := by
        simp only [NoWholeWindow, windowChunk, SDIO_BACKPLANE_WINDOW_SIZE] at hwhole ⊢
        omega
      have hturn := @moveWindow_post K _ _ _ _ _ _ h hlt
      cases hr : moveWindow K write p b with
      | error b' =>
        rw [hr] at hturn
        exact ⟨_, rfl, hturn⟩
      | ok q =>
        rw [hr] at hturn
        obtain ⟨hplaced, hrest⟩ := hturn
        exact ih hplaced ((noWholeWindow_turn h hplaced hrest).mp hwhole).2 (by omega)

/-! ### Commands that were issued -/

theorem issue_keeps {c : Command} {xs : List Access} {c' : Command} (h : c' = c ∨ c' ∈ b.commands) :
    Post (issue K write c xs b) (fun b => c' ∈ b.commands) (fun b => c' ∈ b.commands) := by
  have hmem : c' ∈ b.commands ++ [c] := by
    rcases h with rfl | hold
    · exact List.mem_append_right _ List.mem_cons_self
    · exact List.mem_append_left _ hold
  rw [issue]
  split
  · exact hmem
  · exact hmem

theorem cmd53_keeps {blockMode : Bool} {place : Nat} {count : UInt16} {index : Nat} {c : Command}
    (h : c ∈ b.commands) :
    Post (sdioCmd53Execute K write blockMode place count index b) (fun b => c ∈ b.commands)
      (fun b => c ∈ b.commands) := by
  rw [sdioCmd53Execute]
  split
  · exact h
  · exact issue_keeps (Or.inr h)

theorem moveBlocks_keeps {c : Command} (h : c ∈ b.commands) :
    Post (moveBlocks K write p b) (fun q => c ∈ q.2.commands) (fun b => c ∈ b.commands) := by
  simp only [moveBlocks]
  split
  · exact (cmd53_keeps h).bind fun _ hb => hb
  · exact h

theorem moveWords_keeps {c : Command} (h : c ∈ b.commands) :
    Post (moveWords K write p b) (fun q => c ∈ q.2.commands) (fun b => c ∈ b.commands) := by
  simp only [moveWords]
  split
  · exact (cmd53_keeps h).bind fun _ hb => hb
  · exact h

theorem moveBytes_keeps {n : Nat} {c : Command} (h : c ∈ b.commands) :
    Post (moveBytes K write n p b) (fun q => c ∈ q.2.commands) (fun b => c ∈ b.commands) := by
  induction n generalizing p b with
  | zero => exact h
  | succ n ih =>
    rw [moveBytes, sdioCmd52Execute]
    exact (issue_keeps (Or.inr h)).bind fun _ hb => ih hb

theorem setWindow_keeps {a : UInt32} {c : Command} (h : c ∈ b.commands) :
    Post (sdioBackplaneSetWindow K write a b) (fun b => c ∈ b.commands) (fun b => c ∈ b.commands) :=
  Post.map ((issue_keeps (Or.inr h)).mono fun _ hb => hb)

theorem moveWindow_keeps {c : Command} (h : c ∈ b.commands) :
    Post (moveWindow K write p b) (fun q => c ∈ q.2.commands) (fun b => c ∈ b.commands) := by
  simp only [moveWindow]
  refine (setWindow_keeps h).bind fun b₁ h₁ => ?_
  refine (moveBlocks_keeps h₁).bind fun q h₂ => ?_
  exact (moveWords_keeps h₂).bind fun q' h₃ => moveBytes_keeps h₃

theorem transferLoop_keeps {fuel : Nat} {c : Command} (h : c ∈ b.commands) {r : Except Bus Bus}
    (hr : transferLoop K write fuel p b = some r) : Post r (fun b => c ∈ b.commands) (fun b => c ∈ b.commands) := by
  induction fuel generalizing p b with
  | zero => cases hr
  | succ fuel ih =>
    rw [transferLoop] at hr
    split at hr
    · cases hr
      exact h
    · have hturn := @moveWindow_keeps K write p b c h
      split at hr
      next hw =>
        cases hr
        rw [hw] at hturn
        exact hturn
      next hw =>
        rw [hw] at hturn
        exact ih hturn hr

/-! ### A whole window -/

def willing : Chip := ⟨fun _ => none, 0⟩

def wholeWindow (p : Place) : Command :=
  .cmd53 true (p.address.toNat % SDIO_BACKPLANE_WINDOW_SIZE ||| SDIO_BACKPLANE_ACCESS_2_4B_FLAG) 512

theorem wholeWindow_illegal (p : Place) : ¬(wholeWindow p).Legal := by
  intro h
  exact absurd h.1.2 (by decide)

theorem moveBlocks_whole (h : p.chunk = SDIO_BACKPLANE_WINDOW_SIZE) :
    Post (moveBlocks willing write p b)
      (fun q => .cmd53 true (p.windowOffset ||| SDIO_BACKPLANE_ACCESS_2_4B_FLAG) 512 ∈ q.2.commands)
      (fun b => .cmd53 true (p.windowOffset ||| SDIO_BACKPLANE_ACCESS_2_4B_FLAG) 512 ∈ b.commands) := by
  have hsome : p.chunk / 64 * 64 ≠ 0 := by
    rw [h]
    decide
  have hcount : UInt16.ofNat (p.chunk / 64 * 64 / 64) = 512 := by
    rw [h]
    decide
  rw [moveBlocks_some hsome, hcount, sdioCmd53Execute, if_neg (by decide)]
  exact (issue_keeps (Or.inl rfl)).bind fun _ hb => hb

theorem moveWindow_whole (h : windowChunk p = SDIO_BACKPLANE_WINDOW_SIZE) :
    Post (moveWindow willing write p b) (fun q => wholeWindow p ∈ q.2.commands)
      (fun b => wholeWindow p ∈ b.commands) := by
  simp only [moveWindow, chunk_eq]
  have hselect : Post (sdioBackplaneSetWindow willing write p.address b) (fun _ => True)
      (fun b => wholeWindow p ∈ b.commands) := trivial
  refine hselect.bind fun b₁ _ => ?_
  refine (moveBlocks_whole h).bind fun q h₂ => ?_
  exact (moveWords_keeps h₂).bind fun q' h₃ => moveBytes_keeps h₃

theorem transferLoop_illegal {fuel : Nat} (h : Placed write address total m p b) (hwhole : ¬NoWholeWindow p)
    {r : Except Bus Bus} (hr : transferLoop willing write fuel p b = some r) :
    ∃ c, ¬c.Legal ∧ Post r (fun b => c ∈ b.commands) (fun b => c ∈ b.commands) := by
  induction fuel generalizing p b with
  | zero => cases hr
  | succ fuel ih =>
    rw [transferLoop] at hr
    split at hr
    next hzero =>
      refine absurd ?_ hwhole
      rw [NoWholeWindow, hzero]
      exact Nat.add_pos_right _ (by decide)
    next hsome =>
      by_cases hlt : windowChunk p < SDIO_BACKPLANE_WINDOW_SIZE
      · have hturn := @moveWindow_post willing _ _ _ _ _ _ h hlt
        split at hr
        next hw =>
          rw [hw] at hturn
          obtain ⟨⟨k, hk⟩, -⟩ := hturn
          exact absurd rfl hk
        next hw =>
          rw [hw] at hturn
          obtain ⟨hplaced, hrest⟩ := hturn
          refine ih hplaced ?_ hr
          intro hnone
          exact hwhole ((noWholeWindow_turn h hplaced hrest).mpr ⟨hlt, hnone⟩)
      · have hchunk : windowChunk p = SDIO_BACKPLANE_WINDOW_SIZE := by
          simp only [windowChunk, SDIO_BACKPLANE_WINDOW_SIZE] at hlt ⊢
          omega
        have hturn := @moveWindow_whole write p b hchunk
        refine ⟨wholeWindow p, wholeWindow_illegal p, ?_⟩
        split at hr
        next hw =>
          cases hr
          rw [hw] at hturn
          exact hturn
        next hw =>
          rw [hw] at hturn
          exact transferLoop_keeps hturn hr

end Loop

/-- A transfer is right, whatever the chip answers, exactly if no whole window lies in what it is to move. -/
theorem transfers_right_iff (write : Bool) (address length : UInt32) :
    TransfersRight write address length ↔
      length.toNat < (SDIO_BACKPLANE_WINDOW_SIZE - address.toNat % SDIO_BACKPLANE_WINDOW_SIZE) %
        SDIO_BACKPLANE_WINDOW_SIZE + SDIO_BACKPLANE_WINDOW_SIZE := by
  have hstart (m : Memory) (window : UInt32) : Placed write address length.toNat m
      ⟨address, 0, length.toNat, 0, 0⟩ ⟨m, window, [], []⟩ := by
    refine ⟨⟨rfl, rfl, ?_⟩, ?_, Nat.zero_add _⟩
    · intro c hc
      exact absurd hc List.not_mem_nil
    · exact (UInt32.add_zero address).symm
  have hlength := length.toNat_lt
  constructor
  · intro hright
    by_contra hwhole
    obtain ⟨fuel, r, hr, hpost⟩ := hright willing 0 ⟨fun _ => 0, fun _ => 0⟩
    obtain ⟨c, hillegal, hc⟩ := transferLoop_illegal (hstart _ _) hwhole hr
    cases r with
    | ok b => exact hillegal (hpost.2 c hc)
    | error b => exact hillegal (hpost.2 c hc)
  · intro hnone K window m
    obtain ⟨r, hr, hpost⟩ := @transferLoop_post K _ _ _ _ _ _ (length.toNat + 1) (hstart m window) hnone
      (Nat.lt_succ_self _)
    refine ⟨_, r, hr, ?_⟩
    cases r with
    | ok b => exact ⟨hpost.exact (Nat.le_of_lt hlength), hpost.legal⟩
    | error b =>
      obtain ⟨-, d, hd, hdone⟩ := hpost
      exact ⟨⟨d, hd, hdone.exact (by omega)⟩, hdone.legal⟩

/-- A whole window is sent as 512 blocks, which the count field of nine bits has as none. -/
theorem whole_window_not_right : ¬TransfersRight true 0 0x8000 := by
  intro hright
  obtain ⟨fuel, r, hr, hpost⟩ := hright willing 0 ⟨fun _ => 0, fun _ => 0⟩
  have hplaced : Placed true 0 0x8000 ⟨fun _ => 0, fun _ => 0⟩ ⟨0, 0, 0x8000, 0, 0⟩
      ⟨⟨fun _ => 0, fun _ => 0⟩, 0, [], []⟩ := by
    refine ⟨⟨rfl, rfl, ?_⟩, rfl, rfl⟩
    intro c hc
    exact absurd hc List.not_mem_nil
  obtain ⟨c, hillegal, hc⟩ := transferLoop_illegal hplaced (by unfold NoWholeWindow; decide) hr
  cases r with
  | ok b => exact hillegal (hpost.2 c hc)
  | error b => exact hillegal (hpost.2 c hc)

end Pi1MHz.SdioBackplane
