import Mathlib.Data.List.Range
import Pi1MHz.FloodFill

/-!
# Area fills

`prim_flood_fill` and its wrapper of `primitives.c`, with `get_pixel`, `set_pixel` and the tests they are
used with.  The work list is a ring of 16384 places which nothing looks after: when it is full it looks
empty.
-/

namespace Pi1MHz.VduFill

open FloodFill (Cell Window Problem State)

inductive Depth
  | bpp8
  | bpp16
  | bpp32
deriving DecidableEq, Repr

def Depth.trunc : Depth → UInt32 → UInt32
  | .bpp8, v => v &&& 0xFF
  | .bpp16, v => v &&& 0xFFFF
  | .bpp32, v => v

structure Mode where
  ncolour : UInt32
  depth : Depth

def fbCustomMode (nColours : UInt32) : Mode where
  ncolour := nColours - 1
  depth := if 0x10000 < nColours then .bpp32 else if 0x100 < nColours then .bpp16 else .bpp8

def Mode.maxCol (m : Mode) : UInt32 := m.ncolour

def Mode.marker (m : Mode) : UInt32 := m.ncolour + 1

abbrev Screen := Cell → UInt32

/-- `g_x_min` to `g_y_max`: "Reject illegal windows". -/
structure GraphicsWindow where
  xMin : Int
  yMin : Int
  xMax : Int
  yMax : Int
  xPos : 0 ≤ xMin
  yPos : 0 ≤ yMin
  wide : xMin < xMax
  tall : yMin < yMax
  xShort : xMax < 32768
  yShort : yMax < 32768

/-! ### Plotting -/

def PM_NORMAL : UInt8 := 0
def PM_OR : UInt8 := 1
def PM_AND : UInt8 := 2
def PM_XOR : UInt8 := 3
def PM_INVERT : UInt8 := 4
def PM_UNCHANGED : UInt8 := 5
def PM_AND_INVERTED : UInt8 := 6
def PM_OR_INVERTED : UInt8 := 7
def PM_ECF : UInt8 := 16

/-- The four patterns; `mask` is 0, 1, 3 or 7. -/
structure Ecf where
  pattern : Nat → Nat → UInt32
  originX : Int
  originY : Int
  mask : Int
  giantShift : Nat

def Ecf.colour (e : Ecf) (plotmode : UInt8) (x y : Int) : UInt32 :=
  let ecfnum := plotmode.toNat / 16 - 1
  let ecfnum := if 4 ≤ ecfnum then ((x - e.originX) / 2 ^ e.giantShift % 4).toNat else ecfnum
  e.pattern ecfnum ((y - e.originY) % 8 * 8 + (x - e.originX) % (e.mask + 1)).toNat

structure Gcol where
  plotmode : UInt8
  colour : UInt32

inductive Plotcol
  | fg
  | inv
  | bg
deriving DecidableEq, Repr

structure Gfx where
  mode : Mode
  window : GraphicsWindow
  fg : Gcol
  bg : Gcol
  ecf : Ecf

namespace Gfx

variable (G : Gfx)

def offscreen (x y : Int) : Bool :=
  decide (x < G.window.xMin) || decide (G.window.xMax < x) || decide (y < G.window.yMin)
    || decide (G.window.yMax < y)

def getPixel (s : Screen) (x y : Int) : UInt32 :=
  if G.offscreen x y then G.bg.colour else G.mode.depth.trunc (s (x, y))

/-- The colour that `set_pixel` gives to a pixel that is `px`. -/
def plotColour (col : Plotcol) (x y : Int) (px : UInt32) : UInt32 :=
  let g : Gcol := match col with
    | .fg => G.fg
    | .bg => G.bg
    | .inv => ⟨PM_INVERT, 0⟩
  let colour := if PM_ECF ≤ g.plotmode then G.ecf.colour g.plotmode x y else g.colour
  let plotmode := if PM_ECF ≤ g.plotmode then g.plotmode &&& 0x0F else g.plotmode
  if plotmode ≠ PM_NORMAL then
    -- "Make sure the marker bits are clear"
    let existing := px &&& ~~~ G.mode.marker
    if plotmode = PM_OR then colour ||| existing
    else if plotmode = PM_AND then colour &&& existing
    else if plotmode = PM_XOR then colour ^^^ existing
    else if plotmode = PM_INVERT then G.mode.maxCol - existing
    else if plotmode = PM_UNCHANGED then existing
    else if plotmode = PM_AND_INVERTED then existing &&& (G.mode.maxCol - colour)
    else if plotmode = PM_OR_INVERTED then existing ||| (G.mode.maxCol - colour)
    else colour
  else colour

def setPixel (s : Screen) (x y : Int) (col : Plotcol) : Screen :=
  if G.offscreen x y then s
  else Function.update s (x, y)
    (G.mode.depth.trunc (G.plotColour col x y (G.mode.depth.trunc (s (x, y)))))

end Gfx

abbrev FillTest := Gfx → Int → Int → UInt32 → Bool

def testPixelNotBgCol : FillTest := fun G _ _ px => px != G.bg.colour

def testPixelNotBgEcf : FillTest := fun G x y px => px != G.ecf.colour G.bg.plotmode x y

def testPixelFgCol : FillTest := fun G _ _ px =>
  if px &&& G.mode.marker ≠ 0 then true else px == G.fg.colour

def testPixelFgEcf : FillTest := fun G x y px =>
  if px &&& G.mode.marker ≠ 0 then true else px == G.ecf.colour G.fg.plotmode x y

def testPixelMarker : FillTest := fun G _ _ px => px &&& G.mode.marker == 0

/-! ### The fill -/

def FLOOD_QUEUE_SIZE : Nat := 16384

/-- The cast to `int16_t`. -/
def int16 (v : Int) : Int := (v + 32768) % 65536 - 32768

/-- A fill under way; `plotted` has the pixels that were passed to `set_pixel`. -/
structure Fill where
  screen : Screen
  queue : Nat → Cell
  rd : Nat
  wr : Nat
  plotted : List Cell
  wrapped : Bool

def Fill.enqueue (st : Fill) (x y : Int) : Fill :=
  let wr := (st.wr + 1) % FLOOD_QUEUE_SIZE
  { st with
    queue := Function.update st.queue st.wr (int16 x, int16 y)
    wr := wr
    wrapped := st.wrapped || wr == st.rd }

section Loop

variable (G : Gfx) (col : Plotcol) (test : FillTest)

def stopsAt (s : Screen) (x y : Int) : Bool := test G x y (G.getPixel s x y)

def goLeft (s : Screen) (y : Int) : Nat → Int → Int
  | 0, xl => xl
  | n + 1, xl => if stopsAt G test s (xl - 1) y then xl else goLeft s y n (xl - 1)

def goRight (s : Screen) (y : Int) : Nat → Int → Int
  | 0, xr => xr
  | n + 1, xr => if stopsAt G test s (xr + 1) y then xr else goRight s y n (xr + 1)

def enqueueUp (y x : Int) (st : Fill) : Fill :=
  if G.window.yMin < y ∧ stopsAt G test st.screen x (y - 1) = false then st.enqueue x (y - 1) else st

def enqueueDown (y x : Int) (st : Fill) : Fill :=
  if y < G.window.yMax ∧ stopsAt G test st.screen x (y + 1) = false then st.enqueue x (y + 1) else st

def fillPixel (y x : Int) (st : Fill) : Fill :=
  let st := { st with screen := G.setPixel st.screen x y col, plotted := st.plotted ++ [(x, y)] }
  enqueueDown G test y x (enqueueUp G test y x st)

def fillRun (y : Int) : Nat → Int → Fill → Fill
  | 0, _, st => st
  | n + 1, x, st => fillRun y n (x + 1) (fillPixel G col test y x st)

def fillStep (st : Fill) : Fill :=
  let c := st.queue st.rd
  let st := { st with rd := (st.rd + 1) % FLOOD_QUEUE_SIZE }
  if stopsAt G test st.screen c.1 c.2 then st
  else
    let xl := goLeft G test st.screen c.2 (c.1 - G.window.xMin).toNat c.1
    let xr := goRight G test st.screen c.2 (G.window.xMax - c.1).toNat c.1
    fillRun G col test c.2 (xr - xl + 1).toNat xl st

/-- `while (flood_queue_rd != flood_queue_wr)`, for at most `fuel` turns. -/
def fillLoop : Nat → Fill → Option Fill
  | 0, st => if st.rd = st.wr then some st else none
  | fuel + 1, st => if st.rd = st.wr then some st else fillLoop fuel (fillStep G col test st)

def primFloodFill (fuel : Nat) (st : Fill) (x y : Int) : Option Fill :=
  let st := { st with rd := 0, wr := 0, plotted := [], wrapped := false }
  if stopsAt G test st.screen x y then some st
  else fillLoop G col test fuel
    { st with queue := Function.update st.queue 0 (int16 x, int16 y), wr := 1 }

end Loop

/-- The two flood fills of `prim_fill_area`. -/
inductive FillMode
  | nonBg
  | toFgd
deriving DecidableEq, Repr

def marking (G : Gfx) : FillMode → Gfx
  | .toFgd => { G with bg := ⟨PM_XOR, G.mode.marker⟩ }
  | .nonBg => { G with fg := ⟨PM_XOR, G.mode.marker⟩ }

def markCol : FillMode → Plotcol
  | .toFgd => .bg
  | .nonBg => .fg

def fillTest (G : Gfx) : FillMode → FillTest
  | .toFgd => if G.fg.plotmode < PM_ECF then testPixelFgCol else testPixelFgEcf
  | .nonBg => if G.bg.plotmode < PM_ECF then testPixelNotBgCol else testPixelNotBgEcf

/-- `prim_flood_fill_wrapper`. -/
def primFillArea (fuel : Nat) (G : Gfx) (st : Fill) (x y : Int) (colour : Plotcol) (mode : FillMode) :
    Option Fill :=
  if G.mode.ncolour < 128 then do
    let st ← primFloodFill (marking G mode) (markCol mode) (fillTest G mode) fuel st x y
    let st' ← primFloodFill G colour testPixelMarker fuel st x y
    some { st' with wrapped := st.wrapped || st'.wrapped }
  else primFloodFill G colour (fillTest G mode) fuel st x y

/-! ### The fill as a flood fill -/

def problem (G : Gfx) (col : Plotcol) (test : FillTest) : Problem UInt32 where
  window := ⟨G.window.xMin, G.window.xMax, G.window.yMin, G.window.yMax⟩
  capacity := FLOOD_QUEUE_SIZE
  stops := fun c v => test G c.1 c.2 (G.mode.depth.trunc v)
  plots := fun c v => G.mode.depth.trunc (G.plotColour col c.1 c.2 (G.mode.depth.trunc v))

def filled (rd wr : Nat) : Nat := (wr + FLOOD_QUEUE_SIZE - rd) % FLOOD_QUEUE_SIZE

def Fill.pending (st : Fill) : List Cell :=
  (List.range (filled st.rd st.wr)).map fun i => st.queue ((st.rd + i) % FLOOD_QUEUE_SIZE)

def Fill.state (st : Fill) : State UInt32 := ⟨st.screen, st.pending, st.plotted, st.wrapped⟩

theorem Fill.state_pending (st : Fill) : st.state.pending = st.pending := rfl

def Fill.Ring (st : Fill) : Prop := st.rd < FLOOD_QUEUE_SIZE ∧ st.wr < FLOOD_QUEUE_SIZE

section Places

variable {rd wr i : Nat}

theorem queue_pos : 0 < FLOOD_QUEUE_SIZE := by decide

theorem filled_full (hrd : rd < FLOOD_QUEUE_SIZE) (hwr : wr < FLOOD_QUEUE_SIZE) :
    filled rd wr + 1 = FLOOD_QUEUE_SIZE ↔ (wr + 1) % FLOOD_QUEUE_SIZE = rd := by
  simp only [filled, FLOOD_QUEUE_SIZE] at *
  omega

theorem filled_write (hrd : rd < FLOOD_QUEUE_SIZE) (hwr : wr < FLOOD_QUEUE_SIZE)
    (hroom : (wr + 1) % FLOOD_QUEUE_SIZE ≠ rd) :
    filled rd ((wr + 1) % FLOOD_QUEUE_SIZE) = filled rd wr + 1 := by
  simp only [filled, FLOOD_QUEUE_SIZE] at *
  omega

theorem place_last (hrd : rd < FLOOD_QUEUE_SIZE) (hwr : wr < FLOOD_QUEUE_SIZE) :
    (rd + filled rd wr) % FLOOD_QUEUE_SIZE = wr := by
  simp only [filled, FLOOD_QUEUE_SIZE] at *
  omega

theorem place_before (hi : i < filled rd wr) :
    (rd + i) % FLOOD_QUEUE_SIZE ≠ wr := by
  simp only [filled, FLOOD_QUEUE_SIZE] at *
  omega

theorem filled_zero_iff (hrd : rd < FLOOD_QUEUE_SIZE) (hwr : wr < FLOOD_QUEUE_SIZE) :
    filled rd wr = 0 ↔ rd = wr := by
  simp only [filled, FLOOD_QUEUE_SIZE] at *
  omega

theorem filled_read (hrd : rd < FLOOD_QUEUE_SIZE) (hwr : wr < FLOOD_QUEUE_SIZE) (hne : rd ≠ wr) :
    filled rd wr = filled ((rd + 1) % FLOOD_QUEUE_SIZE) wr + 1 := by
  simp only [filled, FLOOD_QUEUE_SIZE] at *
  omega

end Places

section Simulation

variable {G : Gfx} {col : Plotcol} {test : FillTest} {st : Fill} {s : Screen} {c : Cell} {x y : Int}

theorem int16_of_inside (h : (problem G col test).window.Inside c) : (int16 c.1, int16 c.2) = c := by
  obtain ⟨hx, hx', hy, hy'⟩ := h
  have hxPos := G.window.xPos
  have hyPos := G.window.yPos
  have hxShort := G.window.xShort
  have hyShort := G.window.yShort
  simp only [problem] at hx hx' hy hy'
  refine Prod.ext ?_ ?_
  · simp only [int16]
    omega
  · simp only [int16]
    omega

theorem offscreen_of_inside (h : (problem G col test).window.Inside c) : G.offscreen c.1 c.2 = false := by
  obtain ⟨hx, hx', hy, hy'⟩ := h
  simp only [Gfx.offscreen, Bool.or_eq_false_iff, decide_eq_false_iff_not, not_lt]
  exact ⟨⟨⟨hx, hx'⟩, hy⟩, hy'⟩

theorem stopsAt_eq (h : (problem G col test).window.Inside c) :
    stopsAt G test s c.1 c.2 = (problem G col test).fails s c := by
  rw [stopsAt, Gfx.getPixel, offscreen_of_inside h]
  rfl

theorem setPixel_eq (h : (problem G col test).window.Inside c) :
    G.setPixel s c.1 c.2 col = Function.update s c ((problem G col test).plots c (s c)) := by
  rw [Gfx.setPixel, offscreen_of_inside h]
  rfl

theorem length_pending (st : Fill) : st.pending.length = filled st.rd st.wr := by
  rw [Fill.pending, List.length_map, List.length_range]

theorem enqueue_state (h : st.Ring) (hc : (problem G col test).window.Inside (x, y)) :
    (st.enqueue x y).Ring ∧ (st.enqueue x y).state = (problem G col test).push st.state (x, y) := by
  obtain ⟨hrd, hwr⟩ := h
  have hcell : (int16 x, int16 y) = (x, y) := int16_of_inside hc
  have hfull : st.state.pending.length + 1 = (problem G col test).capacity ↔
      (st.wr + 1) % FLOOD_QUEUE_SIZE = st.rd := by
    rw [Fill.state, length_pending]
    exact filled_full hrd hwr
  refine ⟨⟨hrd, Nat.mod_lt _ queue_pos⟩, ?_⟩
  rw [Problem.push]
  split
  · next hlost =>
    have hmeet := hfull.mp hlost
    have hnone : (st.enqueue x y).pending = [] := by
      have hzero := (filled_zero_iff hrd hrd).mpr rfl
      rw [Fill.pending, Fill.enqueue]
      simp only [hmeet, hzero, List.range_zero, List.map_nil]
    rw [Fill.state, hnone]
    simp only [Fill.enqueue, hmeet, beq_self_eq_true, Bool.or_true]
    rfl
  · next hroom =>
    have hapart : (st.wr + 1) % FLOOD_QUEUE_SIZE ≠ st.rd := fun heq => hroom (hfull.mpr heq)
    have hpending : (st.enqueue x y).pending = st.pending ++ [(x, y)] := by
      rw [Fill.pending, Fill.enqueue]
      simp only [filled_write hrd hwr hapart, List.range_succ, List.map_append, List.map_cons,
        List.map_nil]
      refine congrArg₂ (· ++ ·) (List.map_congr_left fun i hi => ?_) (congrArg (fun c => [c]) ?_)
      · exact Function.update_of_ne (place_before (List.mem_range.mp hi)) _ _
      · rw [place_last hrd hwr, Function.update_self]
        exact hcell
    rw [Fill.state, hpending]
    simp only [Fill.enqueue, beq_eq_false_iff_ne.mpr hapart, Bool.or_false]
    rfl

theorem dequeue_pending (h : st.Ring) (hne : st.rd ≠ st.wr) : st.pending =
    st.queue st.rd :: Fill.pending { st with rd := (st.rd + 1) % FLOOD_QUEUE_SIZE } := by
  obtain ⟨hrd, hwr⟩ := h
  have hfirst : (st.rd + 0) % FLOOD_QUEUE_SIZE = st.rd := Nat.mod_eq_of_lt hrd
  rw [Fill.pending, filled_read hrd hwr hne, List.range_succ_eq_map, List.map_cons, List.map_map, hfirst]
  refine congrArg _ (List.map_congr_left fun i _ => congrArg st.queue ?_)
  show (st.rd + (i + 1)) % FLOOD_QUEUE_SIZE = ((st.rd + 1) % FLOOD_QUEUE_SIZE + i) % FLOOD_QUEUE_SIZE
  rw [Nat.mod_add_mod, Nat.add_assoc, Nat.add_comm 1 i]

theorem pending_nil_iff (h : st.Ring) : st.pending = [] ↔ st.rd = st.wr := by
  rw [← List.length_eq_zero_iff, length_pending]
  exact filled_zero_iff h.1 h.2

structure Simulates (G : Gfx) (col : Plotcol) (test : FillTest) (st : Fill) (t : State UInt32) : Prop where
  ring : st.Ring
  state : st.state = t

theorem Simulates.enqueue {t : State UInt32} (h : Simulates G col test st t)
    (hc : (problem G col test).window.Inside (x, y)) :
    Simulates G col test (st.enqueue x y) ((problem G col test).push t (x, y)) := by
  obtain ⟨hring, hstate⟩ := enqueue_state h.ring hc
  exact ⟨hring, by rw [hstate, h.state]⟩

theorem Simulates.screen {t : State UInt32} (h : Simulates G col test st t) : st.screen = t.screen :=
  congrArg State.screen h.state

theorem inside_up (hc : (problem G col test).window.Inside (x, y)) (hlt : G.window.yMin < y) :
    (problem G col test).window.Inside (x, y - 1) :=
  ⟨hc.1, hc.2.1, Int.le_sub_one_of_lt hlt, (Int.sub_le_self y Int.one_nonneg).trans hc.2.2.2⟩

theorem inside_down (hc : (problem G col test).window.Inside (x, y)) (hlt : y < G.window.yMax) :
    (problem G col test).window.Inside (x, y + 1) :=
  ⟨hc.1, hc.2.1, hc.2.2.1.trans (Int.le_add_one le_rfl), hlt⟩

/-- A neighbour is put on the list under one and the same guard. -/
theorem Simulates.enqueueIf {t : State UInt32} (h : Simulates G col test st t) {guard : Prop} [Decidable guard]
    {c : Cell} (hc : guard → (problem G col test).window.Inside c) :
    Simulates G col test
      (if guard ∧ stopsAt G test st.screen c.1 c.2 = false then st.enqueue c.1 c.2 else st)
      (if guard ∧ (problem G col test).fails t.screen c = false then (problem G col test).push t c else t) := by
  by_cases hguard : guard
  · rw [stopsAt_eq (hc hguard), h.screen]
    split
    · exact h.enqueue (hc hguard)
    · exact h
  · rw [if_neg fun hboth => hguard hboth.1, if_neg fun hboth => hguard hboth.1]
    exact h

theorem Simulates.up {t : State UInt32} (h : Simulates G col test st t)
    (hc : (problem G col test).window.Inside (x, y)) :
    Simulates G col test (enqueueUp G test y x st) ((problem G col test).pushUp y x t) :=
  h.enqueueIf (inside_up hc)

theorem Simulates.down {t : State UInt32} (h : Simulates G col test st t)
    (hc : (problem G col test).window.Inside (x, y)) :
    Simulates G col test (enqueueDown G test y x st) ((problem G col test).pushDown y x t) :=
  h.enqueueIf (inside_down hc)

theorem Simulates.plot {t : State UInt32} (h : Simulates G col test st t)
    (hc : (problem G col test).window.Inside c) :
    Simulates G col test
      { st with screen := G.setPixel st.screen c.1 c.2 col, plotted := st.plotted ++ [c] }
      ((problem G col test).plot t c) := by
  refine ⟨h.ring, ?_⟩
  rw [Problem.plot, ← h.state, setPixel_eq hc]
  rfl

theorem Simulates.pixel {t : State UInt32} (h : Simulates G col test st t)
    (hc : (problem G col test).window.Inside (x, y)) :
    Simulates G col test (fillPixel G col test y x st) ((problem G col test).touch y x t) :=
  ((h.plot hc).up hc).down hc

theorem Simulates.run {t : State UInt32} (h : Simulates G col test st t) (n : Nat)
    (hc : (problem G col test).window.Inside (x, y)) (hend : x + n ≤ G.window.xMax + 1) :
    Simulates G col test (fillRun G col test y n x st) ((problem G col test).sweep y n x t) := by
  induction n generalizing x st t with
  | zero => exact h
  | succ n ih =>
    push_cast at hend
    rcases Nat.eq_zero_or_pos n with rfl | hpos
    · exact h.pixel hc
    · have hnext : (problem G col test).window.Inside (x + 1, y) :=
        ⟨hc.1.trans (Int.le_add_one le_rfl), by simp only [problem]; omega, hc.2.2⟩
      exact ih (h.pixel hc) hnext (by omega)

theorem goLeft_eq (n : Nat) (hc : (problem G col test).window.Inside (x, y)) (hn : G.window.xMin ≤ x - n) :
    goLeft G test s y n x = (problem G col test).scanLeft s y n x := by
  induction n generalizing x with
  | zero => rfl
  | succ n ih =>
    push_cast at hn
    have hnext : (problem G col test).window.Inside (x - 1, y) :=
      ⟨by simp only [problem]; omega, (Int.sub_le_self x Int.one_nonneg).trans hc.2.1, hc.2.2⟩
    have hsame : stopsAt G test s (x - 1) y = (problem G col test).fails s (x - 1, y) :=
      stopsAt_eq (c := (x - 1, y)) hnext
    rw [goLeft, Problem.scanLeft, hsame, ih hnext (by omega)]

theorem goRight_eq (n : Nat) (hc : (problem G col test).window.Inside (x, y)) (hn : x + n ≤ G.window.xMax) :
    goRight G test s y n x = (problem G col test).scanRight s y n x := by
  induction n generalizing x with
  | zero => rfl
  | succ n ih =>
    push_cast at hn
    have hnext : (problem G col test).window.Inside (x + 1, y) :=
      ⟨hc.1.trans (Int.le_add_one le_rfl), by simp only [problem]; omega, hc.2.2⟩
    have hsame : stopsAt G test s (x + 1) y = (problem G col test).fails s (x + 1, y) :=
      stopsAt_eq (c := (x + 1, y)) hnext
    rw [goRight, Problem.scanRight, hsame, ih hnext (by omega)]

theorem Simulates.step {t : State UInt32} (h : Simulates G col test st t) (hne : st.rd ≠ st.wr)
    (hin : ∀ c ∈ t.pending, (problem G col test).window.Inside c) :
    Simulates G col test (fillStep G col test st) ((problem G col test).step t) := by
  have hpending : t.pending = st.queue st.rd ::
      Fill.pending { st with rd := (st.rd + 1) % FLOOD_QUEUE_SIZE } := by
    rw [← h.state]
    exact dequeue_pending h.ring hne
  obtain ⟨c, hc⟩ : ∃ c, c = st.queue st.rd := ⟨_, rfl⟩
  rw [← hc] at hpending
  have hcin := hin c (by rw [hpending]; exact .head _)
  obtain ⟨rest, hrest⟩ : ∃ rest, rest = Fill.pending { st with rd := (st.rd + 1) % FLOOD_QUEUE_SIZE } :=
    ⟨_, rfl⟩
  rw [← hrest] at hpending
  have hpopped : Simulates G col test { st with rd := (st.rd + 1) % FLOOD_QUEUE_SIZE }
      { t with pending := rest } := by
    refine ⟨⟨Nat.mod_lt _ queue_pos, h.ring.2⟩, ?_⟩
    rw [← h.state, hrest]
    rfl
  have hstop : stopsAt G test st.screen c.1 c.2 = (problem G col test).fails t.screen c := by
    rw [← h.screen]
    exact stopsAt_eq hcin
  rw [fillStep]
  simp only [← hc]
  rcases (problem G col test).step_cases t with ⟨hnil, -⟩ | ⟨c', rest', hcons, hcase⟩
  · exact absurd (hnil.symm.trans hpending) (List.cons_ne_nil _ _).symm
  · obtain ⟨rfl, rfl⟩ := List.cons.inj (hcons.symm.trans hpending)
    rcases hcase with ⟨hfail, heq⟩ | ⟨hpass, heq⟩
    · rw [if_pos (hstop.trans hfail), heq]
      exact hpopped
    · have hfill : (problem G col test).Fillable t.screen c' := ⟨hcin, hpass⟩
      have hrun := Problem.run_spec hfill
      have hmin : G.window.xMin ≤ c'.1 := hcin.1
      have hmax : c'.1 ≤ G.window.xMax := hcin.2.1
      have hxl : goLeft G test st.screen c'.2 (c'.1 - G.window.xMin).toNat c'.1 =
          (problem G col test).leftEnd t.screen c' := by
        rw [h.screen, @goLeft_eq G col test _ _ _ _ hcin (by omega)]
        rfl
      have hxr : goRight G test st.screen c'.2 (G.window.xMax - c'.1).toNat c'.1 =
          (problem G col test).rightEnd t.screen c' := by
        rw [h.screen, @goRight_eq G col test _ _ _ _ hcin (by omega)]
        rfl
      have hin' : (problem G col test).window.Inside ((problem G col test).leftEnd t.screen c', c'.2) :=
        ⟨hrun.inside.1, hrun.left.trans hcin.2.1, hcin.2.2⟩
      have hright := hrun.inside.2
      have hle := hrun.left.trans hrun.right
      simp only [problem] at hright
      rw [if_neg (by rw [hstop, hpass]; exact Bool.false_ne_true), heq, hxl, hxr]
      exact hpopped.run _ hin' (by simp only [problem] at hle ⊢; omega)

theorem fillLoop_mono {fuel more : Nat} {u : Fill} (h : fillLoop G col test fuel st = some u)
    (hle : fuel ≤ more) : fillLoop G col test more st = some u := by
  induction fuel generalizing st more with
  | zero =>
    rw [fillLoop] at h
    split at h
    · next hend =>
      rcases more with _ | more
      · rw [fillLoop, if_pos hend]
        exact h
      · rw [fillLoop, if_pos hend]
        exact h
    · exact absurd h (Option.some_ne_none u).symm
  | succ fuel ih =>
    obtain ⟨more, rfl⟩ : ∃ m, more = m + 1 := ⟨more - 1, by omega⟩
    rw [fillLoop] at h ⊢
    split at h
    · next hend =>
      rw [if_pos hend]
      exact h
    · next hgo =>
      rw [if_neg hgo]
      exact ih h (Nat.le_of_succ_le_succ hle)

section Loops

variable {start : Cell} {t : State UInt32}

theorem inside_of_sound (h : Problem.Sound (problem G col test) s start t) :
    ∀ c ∈ t.pending, (problem G col test).window.Inside c :=
  fun c hc => (h.pending c hc).fillable.1

theorem fillLoop_state (h : Simulates G col test st t) (hs : Problem.Sound (problem G col test) s start t)
    {fuel : Nat} {u : Fill} (hu : fillLoop G col test fuel st = some u) :
    ∃ n, u.state = (problem G col test).step^[n] t ∧ u.state.pending = [] := by
  induction fuel generalizing st t with
  | zero =>
    rw [fillLoop] at hu
    split at hu
    · next hend =>
      obtain rfl := Option.some.inj hu
      exact ⟨0, h.state, (pending_nil_iff h.ring).mpr hend⟩
    · exact absurd hu (Option.some_ne_none u).symm
  | succ fuel ih =>
    rw [fillLoop] at hu
    split at hu
    · next hend =>
      obtain rfl := Option.some.inj hu
      exact ⟨0, h.state, (pending_nil_iff h.ring).mpr hend⟩
    · next hgo =>
      obtain ⟨n, hn, hnil⟩ := ih (h.step hgo (inside_of_sound hs)) hs.step hu
      exact ⟨n + 1, hn, hnil⟩

theorem fillLoop_ends (h : Simulates G col test st t) (hs : Problem.Sound (problem G col test) s start t)
    {n : Nat} (hn : ((problem G col test).step^[n] t).pending = []) :
    ∃ u, fillLoop G col test n st = some u := by
  induction n generalizing st t with
  | zero =>
    have hnil : st.pending = [] := (congrArg State.pending h.state).trans hn
    exact ⟨st, if_pos ((pending_nil_iff h.ring).mp hnil)⟩
  | succ n ih =>
    rw [fillLoop]
    split
    · exact ⟨st, rfl⟩
    · next hgo => exact ih (h.step hgo (inside_of_sound hs)) hs.step hn

end Loops

theorem simulates_start (hin : (problem G col test).window.Inside (x, y))
    (hpass : stopsAt G test st.screen x y = false) :
    Simulates G col test
      { st with
        rd := 0, wr := 1, plotted := [], wrapped := false
        queue := Function.update st.queue 0 (int16 x, int16 y) }
      ((problem G col test).initial st.screen (x, y)) := by
  have hcell : (int16 x, int16 y) = (x, y) := int16_of_inside hin
  have hgo : (problem G col test).fails st.screen (x, y) = false := (stopsAt_eq (c := (x, y)) hin).symm.trans hpass
  have hone : filled 0 1 = 1 := by decide
  have hroom : 1 < FLOOD_QUEUE_SIZE := by decide
  have hfirst : (0 + 0) % FLOOD_QUEUE_SIZE = 0 := Nat.zero_mod _
  refine ⟨⟨queue_pos, hroom⟩, ?_⟩
  rw [Problem.initial, hgo, hcell, Fill.state, Fill.pending]
  simp only [hone, List.range_one, List.map_cons, List.map_nil, hfirst, Function.update_self]
  rfl

theorem primFloodFill_state (hin : (problem G col test).window.Inside (x, y)) {fuel : Nat} {u : Fill}
    (hu : primFloodFill G col test fuel st x y = some u) :
    ∃ n, u.state = (problem G col test).step^[n] ((problem G col test).initial st.screen (x, y)) ∧
      u.state.pending = [] := by
  rw [primFloodFill] at hu
  simp only at hu
  split at hu
  · next hstop =>
    obtain rfl := Option.some.inj hu
    have hfail : (problem G col test).fails st.screen (x, y) = true := (stopsAt_eq (c := (x, y)) hin).symm.trans hstop
    have hnil : Fill.pending { st with rd := 0, wr := 0, plotted := [], wrapped := false } = [] :=
      (pending_nil_iff ⟨queue_pos, queue_pos⟩).mpr rfl
    refine ⟨0, ?_, (Fill.state_pending _).trans hnil⟩
    rw [Function.iterate_zero_apply, Problem.initial, hfail, Fill.state, hnil]
    rfl
  · next hpass =>
    have hstart := simulates_start hin (Bool.eq_false_iff.mpr hpass)
    exact fillLoop_state hstart (Problem.sound_initial hin) hu

theorem primFloodFill_ends (hin : (problem G col test).window.Inside (x, y)) {n : Nat}
    (hn : ((problem G col test).step^[n] ((problem G col test).initial st.screen (x, y))).pending = []) :
    ∃ u, primFloodFill G col test n st x y = some u := by
  rw [primFloodFill]
  simp only
  split
  · exact ⟨_, rfl⟩
  · next hpass =>
    exact fillLoop_ends (simulates_start hin (Bool.eq_false_iff.mpr hpass))
      (Problem.sound_initial hin) hn

theorem primFloodFill_mono {fuel more : Nat} {u : Fill} (h : primFloodFill G col test fuel st x y = some u)
    (hle : fuel ≤ more) : primFloodFill G col test more st x y = some u := by
  rw [primFloodFill] at h ⊢
  simp only at h ⊢
  split at h
  · next hstop =>
    rw [if_pos hstop]
    exact h
  · next hpass =>
    rw [if_neg hpass]
    exact fillLoop_mono h hle

end Simulation

end Pi1MHz.VduFill
