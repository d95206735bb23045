import Mathlib.Algebra.Order.Group.Nat
import Mathlib.Logic.Function.Basic
import Pi1MHz.History

/-!
# Teletext: the screen of MODE 7

`teletext.c` of the frame buffer.  Control characters change how the rest of a line is drawn, so that a
character looks as all characters to its left make it look, and as the rows above say whether the row is
the lower half of double height.

Left out: the palette, the guard line, and a change of font.
-/

namespace Pi1MHz.Mode7

def TT_BLACK : UInt8 := 0
def TT_WHITE : UInt8 := 7
def TT_A_BLACK : UInt8 := 0x00
def TT_A_RED : UInt8 := 0x01
def TT_A_WHITE : UInt8 := 0x07
def TT_FLASH : UInt8 := 0x08
def TT_STEADY : UInt8 := 0x09
def TT_NORMAL : UInt8 := 0x0C
def TT_DOUBLE : UInt8 := 0x0D
def TT_G_BLACK : UInt8 := 0x10
def TT_G_RED : UInt8 := 0x11
def TT_G_WHITE : UInt8 := 0x17
def TT_CONCEAL : UInt8 := 0x18
def TT_CONTIGUOUS : UInt8 := 0x19
def TT_SEPARATED : UInt8 := 0x1A
def TT_BLACK_BGD : UInt8 := 0x1C
def TT_NEW_BGD : UInt8 := 0x1D
def TT_HOLD : UInt8 := 0x1E
def TT_RELEASE : UInt8 := 0x1F
def TT_SPACE : UInt8 := 0x20

/-- A font of the SAA505x family, rounded to 12 by 20.  The space is blank, and so are the two mosaics
without a block. -/
structure Font where
  bit : UInt8 → Fin 20 → Fin 12 → Bool
  space : ∀ y x, bit 0x20 y x = false
  contiguous : ∀ y x, bit 0x80 y x = false
  separated : ∀ y x, bit 0xC0 y x = false

structure Mode where
  font : Font
  columns : Nat
  rows : Nat

/-- What the control codes up to a column have set. -/
structure Line where
  fgdColour : UInt8
  bgdColour : UInt8
  graphics : Bool
  separated : Bool
  doubled : Bool
  doubleBottom : Bool
  flashing : Bool
  concealed : Bool
  held : Bool
  heldChar : UInt8
  heldSeparated : Bool
deriving DecidableEq

def is_control (c : UInt8) : Bool := c &&& 0x60 = 0
def is_graphics (c : UInt8) : Bool := c &&& 0x20 ≠ 0
def is_double (c : UInt8) : Bool := c &&& 0x7F = TT_DOUBLE
def is_normal (c : UInt8) : Bool := c &&& 0x7F = TT_NORMAL

/-! ### The state of a line -/

def set_foreground (l : Line) (colour : UInt8) : Line :=
  let colour := colour &&& 7
  if l.flashing then { l with fgdColour := (l.bgdColour &&& 0x38) ||| colour }
  else { l with fgdColour := (colour <<< 3) ||| colour }

def set_background (l : Line) (colour : UInt8) : Line :=
  let colour := colour &&& 7
  let l := { l with bgdColour := (colour <<< 3) ||| colour }
  if l.flashing then { l with fgdColour := (colour <<< 3) ||| (l.fgdColour &&& 7) } else l

def set_flashing (l : Line) (on : Bool) : Line :=
  if on then { l with fgdColour := (l.bgdColour &&& 0x38) ||| (l.fgdColour &&& 7), flashing := on }
  else { l with fgdColour := ((l.fgdColour &&& 7) <<< 3) ||| (l.fgdColour &&& 7), flashing := on }

def double_bottom (dhCount : Nat → Nat) : Nat → Bool
  | 0 => false
  | r + 1 => if 0 < dhCount r then !double_bottom dhCount r else false

def tt_reset_line_state (dhCount : Nat → Nat) (row : Nat) (l : Line) : Line :=
  let l := set_background l TT_BLACK
  let l := set_foreground l TT_WHITE
  let l := { l with graphics := false, separated := false, doubled := false }
  let l := set_flashing l false
  { l with
    concealed := false
    held := false
    heldChar := TT_SPACE
    heldSeparated := false
    doubleBottom := double_bottom dhCount row }

def set_at (c : UInt8) (l : Line) : Line :=
  let k := c &&& 0x7F
  if k = TT_CONCEAL then { l with concealed := true }
  else if k = TT_CONTIGUOUS then { l with separated := false }
  else if k = TT_SEPARATED then { l with separated := true }
  else if k = TT_BLACK_BGD then set_background l TT_BLACK
  else if k = TT_NEW_BGD then set_background l (l.fgdColour &&& 7)
  else if k = TT_HOLD then { l with held := true }
  else if k = TT_STEADY then set_flashing l false
  else l

def hold_char (c : UInt8) (l : Line) : Line :=
  if is_graphics c && l.graphics then { l with heldChar := c, heldSeparated := l.separated }
  else if is_control c && !l.held then { l with heldChar := TT_SPACE }
  else if (is_normal c && l.doubled) || (is_double c && !l.doubled) then { l with heldChar := TT_SPACE }
  else l

def rendered (reveal : UInt8) (c : UInt8) (l : Line) : UInt8 :=
  if (l.concealed && reveal = 0) || (l.doubleBottom && !l.doubled) then TT_SPACE
  else if is_control c then if l.held then l.heldChar else TT_SPACE
  else c

def tt_process_controls (reveal : UInt8) (c : UInt8) (l : Line) : Line × UInt8 :=
  let l := hold_char c (set_at c l)
  (l, rendered reveal c l)

def tt_process_controls_after (c : UInt8) (l : Line) : Line :=
  let k := c &&& 0x7F
  if TT_A_RED ≤ k ∧ k ≤ TT_A_WHITE then
    { set_foreground { l with graphics := false, concealed := false } ((c - TT_A_BLACK) &&& 7) with
      heldChar := TT_SPACE }
  else if TT_G_RED ≤ k ∧ k ≤ TT_G_WHITE then
    set_foreground { l with graphics := true, concealed := false } ((c - TT_G_BLACK) &&& 7)
  else if k = TT_FLASH then set_flashing l true
  else if k = TT_STEADY then set_flashing l false
  else if k = TT_NORMAL then { l with doubled := false }
  else if k = TT_DOUBLE then { l with doubled := true }
  else if k = TT_RELEASE then { l with held := false, heldChar := TT_SPACE }
  else l

/-! ### Drawing -/

abbrev Picture := Fin 20 → Fin 12 → UInt8

def Line.glyph (l : Line) (c : UInt8) : UInt8 :=
  if l.graphics && is_graphics c then
    let separated := if l.held then l.heldSeparated else l.separated
    let c := if c &&& 0x40 ≠ 0 then c ||| 0x20 else c &&& 0x1F
    let c := if separated then c ||| 0x40 else c &&& 0x3F
    c ||| 0x80
  else c &&& 0x7F

def Line.glyphRow (l : Line) (y : Fin 20) : Fin 20 :=
  if l.doubled then ⟨(if l.doubleBottom then 10 else 0) + y / 2, by split <;> omega⟩ else y

def tt_draw_character (font : Font) (l : Line) (c : UInt8) : Picture := fun y x =>
  if font.bit (l.glyph c) (l.glyphRow y) x then l.fgdColour else l.bgdColour

def setCell {α : Type} (s : Nat → Nat → α) (row col : Nat) (v : α) : Nat → Nat → α :=
  Function.update s row (Function.update (s row) col v)

/-- `tt`, and the frame buffer by cells. -/
structure Teletext where
  line : Line
  lastRow : Int
  lastCol : Int
  reveal : UInt8
  mode7screen : Nat → Nat → UInt8
  dhCount : Nat → Nat
  picture : Nat → Nat → Picture

structure Window (M : Mode) where
  left : Nat
  top : Nat
  right : Nat
  bottom : Nat
  across : left ≤ right ∧ right < M.columns
  down : top ≤ bottom ∧ bottom < M.rows

inductive ScrollDir where
  | up
  | down
  | right
  | left

section

variable (M : Mode) (t : Teletext)

def Teletext.resetLine (row : Nat) : Teletext :=
  { t with line := tt_reset_line_state t.dhCount row t.line }

def Teletext.draw (c : UInt8) (row col : Nat) : Teletext :=
  let r := tt_process_controls t.reveal c t.line
  { t with
    picture := setCell t.picture row col (tt_draw_character M.font r.1 r.2)
    line := tt_process_controls_after c r.1 }

def Teletext.re_render_row (col row : Nat) : Teletext :=
  (List.range' col (M.columns - col)).foldl (fun t col => t.draw M (t.mode7screen row col) row col) t

def Teletext.re_render_rows (rows : List Nat) : Teletext :=
  rows.foldl (fun t row => (t.resetLine row).re_render_row M 0 row) t

def Teletext.update_double_height_counts : Teletext :=
  { t with dhCount := fun row =>
      if row < M.rows then
        (List.range M.columns).foldl (fun n col => if is_double (t.mode7screen row col) then n + 1 else n) 0
      else t.dhCount row }

def tt_reset : Teletext := { t with lastRow := -1, lastCol := -1, reveal := 0 }

def Window.contains {M : Mode} (w : Window M) (row col : Nat) : Prop :=
  w.top ≤ row ∧ row ≤ w.bottom ∧ w.left ≤ col ∧ col ≤ w.right

instance {M : Mode} (w : Window M) (row col : Nat) : Decidable (w.contains row col) :=
  inferInstanceAs (Decidable (_ ∧ _))

def cleared (window : Option (Window M)) (row col : Nat) : Bool :=
  match window with
  | none => true
  | some w => w.contains row col

def tt_clear (window : Option (Window M)) (bgCol : UInt8) : Teletext :=
  Teletext.update_double_height_counts M
    { t with
      picture := fun row col => if cleared M window row col then fun _ _ => bgCol else t.picture row col
      mode7screen := fun row col => if cleared M window row col then TT_SPACE else t.mode7screen row col }

def moveCell (s : Nat → Nat → UInt8) (dst src : Nat × Nat) : Nat → Nat → UInt8 :=
  setCell s dst.1 dst.2 (s src.1 src.2)

def moveCells (s : Nat → Nat → UInt8) (moves : List ((Nat × Nat) × (Nat × Nat))) : Nat → Nat → UInt8 :=
  moves.foldl (fun s m => moveCell s m.1 m.2) s

def blankCells (s : Nat → Nat → UInt8) (cells : List (Nat × Nat)) : Nat → Nat → UInt8 :=
  cells.foldl (fun s p => setCell s p.1 p.2 TT_SPACE) s

def scrolled {M : Mode} (w : Window M) (s : Nat → Nat → UInt8) : ScrollDir → Nat → Nat → UInt8
  | .up =>
    let rows := List.range' w.top (w.bottom - w.top)
    let cols := List.range' w.left (w.right + 1 - w.left)
    blankCells (moveCells s (rows.flatMap fun row => cols.map fun col => ((row, col), (row + 1, col))))
      (cols.map fun col => (w.bottom, col))
  | .down =>
    let rows := (List.range' (w.top + 1) (w.bottom - w.top)).reverse
    let cols := List.range' w.left (w.right + 1 - w.left)
    blankCells (moveCells s (rows.flatMap fun row => cols.map fun col => ((row, col), (row - 1, col))))
      (cols.map fun col => (w.top, col))
  | .right =>
    let cols := (List.range' (w.left + 1) (w.right - w.left)).reverse
    let rows := List.range' w.top (w.bottom + 1 - w.top)
    blankCells (moveCells s (cols.flatMap fun col => rows.map fun row => ((row, col), (row, col - 1))))
      (rows.map fun row => (row, w.left))
  | .left =>
    let cols := List.range' w.left (w.right - w.left)
    let rows := List.range' w.top (w.bottom + 1 - w.top)
    blankCells (moveCells s (cols.flatMap fun col => rows.map fun row => ((row, col), (row, col + 1))))
      (rows.map fun row => (row, w.right))

def tt_scroll (window : Window M) (dir : ScrollDir) : Teletext :=
  let t := Teletext.update_double_height_counts M { t with mode7screen := scrolled window t.mode7screen dir }
  t.re_render_rows M (List.range M.rows)

def remap (c : UInt8) : UInt8 :=
  if c = 35 then 95 else if c = 95 then 96 else if c = 96 then 35 else c

def Line.advance (l : Line) (c : UInt8) : Line := tt_process_controls_after c (hold_char c (set_at c l))

def Teletext.adjacent (row col : Nat) : Prop := ((row : Int) = t.lastRow) ∧ ((col : Int) = t.lastCol + 1)

instance (row col : Nat) : Decidable (t.adjacent row col) := inferInstanceAs (Decidable (_ ∧ _))

def Teletext.reach (row col : Nat) : Teletext :=
  if t.adjacent row col then t
  else (List.range col).foldl (fun t i => { t with line := t.line.advance (t.mode7screen row i) }) (t.resetLine row)

def Teletext.re_render_below : List Nat → Teletext → Teletext
  | [], t => t
  | row :: rows, t =>
    let t := (t.resetLine row).re_render_row M 0 row
    if t.dhCount row = 0 then t else Teletext.re_render_below rows t

def involved (c oldc : UInt8) : Bool := c ≠ oldc && (is_control c || is_control oldc)

def tt_write_character (c : UInt8) (col row : Nat) : Teletext :=
  let c := remap c
  let t := (t.reach row col).draw M c row col
  let oldc := t.mode7screen row col
  let t := { t with mode7screen := setCell t.mode7screen row col c }
  if involved c oldc then
    let oldState := decide (t.dhCount row ≠ 0)
    let n := if is_double c then t.dhCount row + 1 else t.dhCount row
    let n := if is_double oldc then n - 1 else n
    let t := { t with dhCount := Function.update t.dhCount row n }
    let newState := decide (t.dhCount row ≠ 0)
    let t := t.re_render_row M (col + 1) row
    let t := if newState = oldState then t
      else t.re_render_below M (List.range' (row + 1) (M.rows - (row + 1)))
    { t with lastRow := -1, lastCol := -1 }
  else { t with lastRow := row, lastCol := col }

def set_reveal (mode mask : UInt8) : Teletext :=
  let reveal := ((t.reveal &&& mask) ^^^ mode) &&& 1
  if reveal ≠ t.reveal then
    let t := { t with reveal := reveal }
    { t.re_render_rows M (List.range M.rows) with lastRow := -1, lastCol := -1 }
  else t

end

inductive Event (M : Mode) where
  | write (c : UInt8) (col : Fin M.columns) (row : Fin M.rows)
  | clear (window : Option (Window M)) (bgCol : UInt8)
  | scroll (window : Window M) (dir : ScrollDir)
  | reveal (mode mask : UInt8)

def Teletext.step (M : Mode) (t : Teletext) : Event M → Teletext
  | .write c col row => tt_write_character M t c col row
  | .clear window bgCol => tt_clear M t window bgCol
  | .scroll window dir => tt_scroll M t window dir
  | .reveal mode mask => set_reveal M t mode mask

/-- The mode is selected: `tt_reset`, and the screen is cleared, whatever was in memory. -/
def Teletext.start (M : Mode) (t : Teletext) : Teletext := tt_clear M (tt_reset t) none 0

section

variable (M : Mode)

def doubles (chars : Nat → UInt8) (columns : Nat) : Nat :=
  (List.range columns).countP fun col => is_double (chars col)

def Teletext.trueCounts (t : Teletext) : Nat → Nat := fun row => doubles (t.mode7screen row) M.columns

def Teletext.renderAll (t : Teletext) : Teletext :=
  Teletext.re_render_rows M { t with dhCount := t.trueCounts M } (List.range M.rows)

/-- Every cell looks as drawing the whole screen again would leave it. -/
structure UpToDate (t : Teletext) : Prop where
  counts : ∀ row < M.rows, t.dhCount row = doubles (t.mode7screen row) M.columns
  cells : ∀ row < M.rows, ∀ col < M.columns, t.picture row col = (t.renderAll M).picture row col

/-! ### When the screen is up to date -/

def Line.cell (font : Font) (reveal : UInt8) (l : Line) (c : UInt8) : Picture :=
  let r := tt_process_controls reveal c l
  tt_draw_character font r.1 r.2

def Line.run (l : Line) (chars : Nat → UInt8) (col : Nat) : Nat → Line
  | 0 => l
  | n + 1 => (l.run chars col n).advance (chars (col + n))

def Teletext.lineAt (t : Teletext) (row col : Nat) : Line :=
  (tt_reset_line_state (t.trueCounts M) row t.line).run (t.mode7screen row) 0 col

/-- The state with which a single character is drawn. -/
def Teletext.carried (t : Teletext) (row col : Nat) : Line :=
  if t.adjacent row col then t.line else t.lineAt M row col

def Teletext.Alike (t : Teletext) (row col : Nat) (l l' : Line) : Prop :=
  ∀ j, col ≤ j → j < M.columns →
    (l.run (t.mode7screen row) col (j - col)).cell M.font t.reveal (t.mode7screen row j) =
      (l'.run (t.mode7screen row) col (j - col)).cell M.font t.reveal (t.mode7screen row j)

/-- The picture that the text asks for at a cell. -/
def Teletext.look (t : Teletext) (row col : Nat) : Picture :=
  (t.lineAt M row col).cell M.font t.reveal (t.mode7screen row col)

/-- The backing store with the cells of the window blanked. -/
def Teletext.blanked (t : Teletext) (window : Option (Window M)) : Teletext :=
  { t with mode7screen := fun row col => if cleared M window row col then TT_SPACE else t.mode7screen row col }

/-- The line state that is carried over draws what the reconstructed one would draw; a character that is
replaced without drawing the rest of the line is not held there; a window is cleared to the background of
its cells, and what is outside looks as before. -/
def Plain (t : Teletext) : Event M → Prop
  | .write c col row =>
    let c := remap c
    let oldc := t.mode7screen row col
    let l := t.carried M row col
    let l' := t.lineAt M row col
    l.cell M.font t.reveal c = l'.cell M.font t.reveal c ∧
      if involved c oldc then t.Alike M row (col + 1) (l.advance c) (l'.advance c)
      else t.Alike M row (col + 1) (l'.advance oldc) (l'.advance c)
  | .clear window bgCol =>
    let t' := t.blanked M window
    ∀ row < M.rows, ∀ col < M.columns,
      if cleared M window row col then (t'.lineAt M row col).bgdColour = bgCol
      else t'.look M row col = t.look M row col
  | .scroll .. | .reveal .. => True

end

end Pi1MHz.Mode7
