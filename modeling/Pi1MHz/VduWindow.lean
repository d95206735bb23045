import Pi1MHz.History
import Pi1MHz.VduFill

/-!
# The graphics window

The graphics window is kept twice: in external units with the origin applied, by `set_graphics_area` of
`framebuffer.c`, for `POINT` and the VDU variables, and in pixels, by `prim_set_graphics_area` of
`primitives.c`, for everything that plots.
-/

namespace Pi1MHz.VduWindow

open History (Step history)
open VduFill (Depth int16)

/-! ### Modes -/

/-- `screen_mode_t`, as far as windows go. -/
structure Mode where
  width : Int
  height : Int
  xeigfactor : Nat
  yeigfactor : Nat
deriving DecidableEq, Repr

def teletextScreenModes : List (UInt8 × Mode) := [(7, ⟨480, 500, 1, 1⟩), (70, ⟨720, 500, 1, 1⟩), (71, ⟨960, 500, 1, 1⟩)]

def screenModes : List (UInt8 × Mode) :=
  [(0, ⟨640, 256, 1, 2⟩), (1, ⟨320, 256, 2, 2⟩), (2, ⟨160, 256, 3, 2⟩), (3, ⟨640, 250, 1, 2⟩),
    (4, ⟨320, 256, 2, 2⟩), (5, ⟨160, 256, 3, 2⟩), (6, ⟨320, 250, 2, 2⟩), (8, ⟨640, 256, 1, 2⟩),
    (9, ⟨320, 256, 2, 2⟩), (10, ⟨160, 256, 3, 2⟩), (11, ⟨640, 250, 1, 2⟩), (12, ⟨640, 256, 1, 2⟩),
    (13, ⟨320, 256, 2, 2⟩), (14, ⟨640, 250, 1, 2⟩), (15, ⟨640, 256, 1, 2⟩), (16, ⟨1056, 256, 1, 2⟩),
    (17, ⟨1056, 250, 1, 2⟩), (18, ⟨640, 512, 1, 1⟩), (19, ⟨640, 512, 1, 1⟩), (20, ⟨640, 512, 1, 1⟩),
    (21, ⟨640, 512, 1, 1⟩), (22, ⟨768, 288, 0, 1⟩), (23, ⟨1152, 896, 1, 1⟩), (24, ⟨1056, 256, 1, 2⟩),
    (25, ⟨640, 480, 1, 1⟩), (26, ⟨640, 480, 1, 1⟩), (27, ⟨640, 480, 1, 1⟩), (28, ⟨640, 480, 1, 1⟩),
    (29, ⟨800, 600, 1, 1⟩), (30, ⟨800, 600, 1, 1⟩), (31, ⟨800, 600, 1, 1⟩), (32, ⟨800, 600, 1, 1⟩),
    (33, ⟨768, 288, 1, 2⟩), (34, ⟨768, 288, 1, 2⟩), (35, ⟨768, 288, 1, 2⟩), (36, ⟨768, 288, 1, 2⟩),
    (37, ⟨896, 352, 1, 2⟩), (38, ⟨896, 352, 1, 2⟩), (39, ⟨896, 352, 1, 2⟩), (40, ⟨896, 352, 1, 2⟩),
    (41, ⟨640, 352, 1, 2⟩), (42, ⟨640, 352, 1, 2⟩), (43, ⟨640, 352, 1, 2⟩), (44, ⟨640, 200, 1, 2⟩),
    (45, ⟨640, 200, 1, 2⟩), (46, ⟨640, 200, 1, 2⟩), (47, ⟨360, 480, 2, 1⟩), (48, ⟨320, 480, 2, 1⟩),
    (49, ⟨320, 480, 2, 1⟩), (50, ⟨320, 240, 2, 2⟩), (51, ⟨320, 240, 2, 2⟩), (52, ⟨320, 240, 2, 2⟩),
    (53, ⟨320, 240, 2, 2⟩), (64, ⟨640, 512, 1, 1⟩), (65, ⟨1280, 1024, 0, 0⟩), (66, ⟨640, 512, 1, 1⟩),
    (67, ⟨1280, 1024, 0, 0⟩), (68, ⟨640, 512, 1, 1⟩), (69, ⟨1280, 1024, 0, 0⟩)]

def DEFAULT_SCREEN_MODE : UInt8 := 21

/-- `g_clip_window_t`. -/
structure Area where
  left : Int
  bottom : Int
  right : Int
  top : Int
deriving DecidableEq, Repr

/-- `g_x_min` to `g_y_max`. -/
structure Clip where
  xMin : Int
  yMin : Int
  xMax : Int
  yMax : Int
deriving DecidableEq, Repr

structure State where
  screen : Mode
  custom : Depth → Mode
  gWindow : Area
  clip : Clip
  xOrigin : Int
  yOrigin : Int

def getScreenMode (s : State) (m : UInt8) : Option Mode :=
  match teletextScreenModes.lookup m with
  | some M => some M
  | none =>
    match screenModes.lookup m with
    | some M => some M
    | none =>
      if m = 96 then some (s.custom .bpp8)
      else if m = 97 then some (s.custom .bpp16)
      else if m = 98 then some (s.custom .bpp32)
      else none

/-! ### The window commands -/

def primSetGraphicsArea (x1 y1 x2 y2 : Int) (s : State) : State :=
  if x1 < 0 ∨ s.screen.width ≤ x1 ∨ y1 < 0 ∨ s.screen.height ≤ y1 then s
  else if x2 < 0 ∨ s.screen.width ≤ x2 ∨ y2 < 0 ∨ s.screen.height ≤ y2 then s
  else if x2 ≤ x1 ∨ y2 ≤ y1 then s
  else { s with clip := ⟨x1, y1, x2, y2⟩ }

def setGraphicsArea (w : Area) (s : State) : State :=
  let M := s.screen
  if w.left < 0 ∨ M.width * 2 ^ M.xeigfactor ≤ w.left ∨ w.bottom < 0 ∨ M.height * 2 ^ M.yeigfactor ≤ w.bottom
  then s
  else if w.right < 0 ∨ M.width * 2 ^ M.xeigfactor ≤ w.right ∨ w.top < 0 ∨ M.height * 2 ^ M.yeigfactor ≤ w.top
  then s
  else if w.right ≤ w.left ∨ w.top ≤ w.bottom then s
  else
    primSetGraphicsArea (int16 (w.left / 2 ^ M.xeigfactor)) (int16 (w.bottom / 2 ^ M.yeigfactor))
      (int16 (w.right / 2 ^ M.xeigfactor)) (int16 (w.top / 2 ^ M.yeigfactor)) { s with gWindow := w }

def whole (M : Mode) : Area :=
  ⟨0, 0, int16 (M.width * 2 ^ M.xeigfactor - 1), int16 (M.height * 2 ^ M.yeigfactor - 1)⟩

def resetAreas (s : State) : State :=
  setGraphicsArea (whole s.screen) { s with xOrigin := 0, yOrigin := 0 }

def changeMode (M : Mode) (s : State) : State := resetAreas { s with screen := M }

def vdu22 (mode : UInt8) (s : State) : State :=
  match getScreenMode s (mode &&& 0x7F) with
  | some M => changeMode M s
  | none => s

/-- `do { factor++; pixels <<= 1; } while (pixels < limit)`, which ends within eleven turns. -/
def eigLoop (limit : Int) : Nat → Int → Nat → Nat
  | 0, _, factor => factor
  | n + 1, pixels, factor =>
      if 2 * pixels < limit then eigLoop limit n (2 * pixels) (factor + 1) else factor + 1

def customMode (xPixels yPixels : Int) : Mode :=
  ⟨xPixels, yPixels, eigLoop 1280 11 xPixels 0, eigLoop 1024 11 yPixels 0⟩

def fbCustomMode (xPixels yPixels : Int) (nColours : Nat) (s : State) : State :=
  let depth : Depth := if 0x10000 < nColours then .bpp32 else if 0x100 < nColours then .bpp16 else .bpp8
  let M := customMode xPixels yPixels
  changeMode M { s with custom := Function.update s.custom depth M }

/-- `VDU 23,22,xpixels;ypixels;...`. -/
def vdu23_22 (xPixels yPixels : UInt16) (colours : UInt8) (s : State) : State :=
  let nColours := if colours = 0 then 256 else colours.toNat
  if xPixels < 8 ∨ yPixels < 8 then s else fbCustomMode xPixels.toNat yPixels.toNat nColours s

/-- The parameters of `VDU 24`, with the origin applied. -/
def shiftedArea (s : State) (left bottom right top : UInt16) : Area :=
  ⟨int16 (int16 left.toNat + s.xOrigin), int16 (int16 bottom.toNat + s.yOrigin),
    int16 (int16 right.toNat + s.xOrigin), int16 (int16 top.toNat + s.yOrigin)⟩

def vdu24 (left bottom right top : UInt16) (s : State) : State :=
  setGraphicsArea (shiftedArea s left bottom right top) s

def vdu26 (s : State) : State := resetAreas s

def vdu29 (x y : UInt16) (s : State) : State := { s with xOrigin := int16 x.toNat, yOrigin := int16 y.toNat }

inductive Command
  | mode (m : UInt8)
  | custom (xPixels yPixels : UInt16) (colours : UInt8)
  | window (left bottom right top : UInt16)
  | home
  | origin (x y : UInt16)

def step (s : State) : Command → State
  | .mode m => vdu22 m s
  | .custom x y n => vdu23_22 x y n s
  | .window l b r t => vdu24 l b r t s
  | .home => vdu26 s
  | .origin x y => vdu29 x y s

def zeroed : State :=
  ⟨⟨0, 0, 0, 0⟩, fun _ => ⟨0, 0, 0, 0⟩, ⟨0, 0, 0, 0⟩, ⟨0, 0, 0, 0⟩, 0, 0⟩

/-- `fb_initialize`. -/
def initial : State := vdu22 DEFAULT_SCREEN_MODE zeroed

def pixels (M : Mode) (w : Area) : Clip :=
  ⟨w.left / 2 ^ M.xeigfactor, w.bottom / 2 ^ M.yeigfactor, w.right / 2 ^ M.xeigfactor, w.top / 2 ^ M.yeigfactor⟩

def Clip.Within (c : Clip) (M : Mode) : Prop :=
  (0 ≤ c.xMin ∧ c.xMax < M.width) ∧ 0 ≤ c.yMin ∧ c.yMax < M.height

/-- The test of `set_pixel` and `get_pixel`. -/
def Clip.Inside (c : Clip) (x y : Int) : Prop := (c.xMin ≤ x ∧ x ≤ c.xMax) ∧ c.yMin ≤ y ∧ y ≤ c.yMax

/-- The test of `fb_point`, in absolute external coordinates. -/
def Area.Inside (w : Area) (x y : Int) : Prop := (w.left ≤ x ∧ x ≤ w.right) ∧ w.bottom ≤ y ∧ y ≤ w.top

/-- Both windows are one, and `POINT`, which takes the origin off, looks at the pixels that are plotted. -/
structure Agrees (s : State) : Prop where
  same : s.clip = pixels s.screen s.gWindow
  within : s.clip.Within s.screen
  point : ∀ x y : Int, s.gWindow.Inside (int16 (x + s.xOrigin)) (int16 (y + s.yOrigin)) ↔
    s.clip.Inside (int16 (x + s.xOrigin) / 2 ^ s.screen.xeigfactor)
      (int16 (y + s.yOrigin) / 2 ^ s.screen.yeigfactor)

/-- What `set_graphics_area` lets pass. -/
def Legal (M : Mode) (w : Area) : Prop :=
  (0 ≤ w.left ∧ w.left < w.right ∧ w.right < M.width * 2 ^ M.xeigfactor) ∧
    0 ≤ w.bottom ∧ w.bottom < w.top ∧ w.top < M.height * 2 ^ M.yeigfactor

def Wide (M : Mode) (w : Area) : Prop :=
  w.left / 2 ^ M.xeigfactor < w.right / 2 ^ M.xeigfactor ∧ w.bottom / 2 ^ M.yeigfactor < w.top / 2 ^ M.yeigfactor

def Aligned (M : Mode) (w : Area) : Prop :=
  ((2 : Int) ^ M.xeigfactor ∣ w.left ∧ (2 : Int) ^ M.xeigfactor ∣ w.right + 1) ∧
    (2 : Int) ^ M.yeigfactor ∣ w.bottom ∧ (2 : Int) ^ M.yeigfactor ∣ w.top + 1

instance (M : Mode) (w : Area) : Decidable (Legal M w) := inferInstanceAs (Decidable ((_ ∧ _ ∧ _) ∧ _ ∧ _ ∧ _))

instance (M : Mode) (w : Area) : Decidable (Wide M w) := inferInstanceAs (Decidable (_ ∧ _))

instance (M : Mode) (w : Area) : Decidable (Aligned M w) := inferInstanceAs (Decidable ((_ ∧ _) ∧ _ ∧ _))

def SetOk (M : Mode) (w : Area) : Prop := Legal M w → Wide M w ∧ Aligned M w

/-- A mode that is entered: its whole screen can be set, or else the old window, which stays, is right for
it. -/
def EnterOk (M : Mode) (s : State) : Prop :=
  SetOk M (whole M) ∧
    (¬Legal M (whole M) → s.clip = pixels M s.gWindow ∧ s.clip.Within M ∧ Aligned M s.gWindow)

def StepOk (s : State) : Command → Prop
  | .mode m => ∀ M, getScreenMode s (m &&& 0x7F) = some M → EnterOk M s
  | .custom x y _ => ¬(x < 8 ∨ y < 8) → EnterOk (customMode x.toNat y.toNat) s
  | .window l b r t => SetOk s.screen (shiftedArea s l b r t)
  | .home => SetOk s.screen (whole s.screen)
  | .origin _ _ => True

def Rejected (s : State) : Command → Prop
  | .window l b r t => ¬(Legal s.screen (shiftedArea s l b r t) ∧ Wide s.screen (shiftedArea s l b r t))
  | .home => ¬(Legal s.screen (whole s.screen) ∧ Wide s.screen (whole s.screen))
  | _ => False

/-! ### Sixteen bits and pixels -/

theorem int16_of_short {v : Int} (h0 : -32768 ≤ v) (h1 : v ≤ 32767) : int16 v = v := by
  simp only [int16]
  omega

theorem int16_range (v : Int) : -32768 ≤ int16 v ∧ int16 v ≤ 32767 := by
  simp only [int16]
  omega

theorem shift_pos (k : Nat) : (0 : Int) < 2 ^ k := Int.pow_pos (by decide)

theorem shift_dvd {k : Nat} (hk : k ≤ 15) : (2 : Int) ^ k ∣ 32768 := by
  have h : (2 : Int) ^ k ∣ 2 ^ 15 := pow_dvd_pow 2 hk
  simpa using h

theorem shift_nonneg {v : Int} (h : 0 ≤ v) (k : Nat) : 0 ≤ v / 2 ^ k :=
  Int.ediv_nonneg h (Int.le_of_lt (shift_pos k))

theorem shift_le {v : Int} (h : 0 ≤ v) (k : Nat) : v / 2 ^ k ≤ v := Int.ediv_le_self _ h

theorem int16_shift {v : Int} (h0 : 0 ≤ v) (h1 : v ≤ 32767) (k : Nat) : int16 (v / 2 ^ k) = v / 2 ^ k := by
  have hnonneg := shift_nonneg h0 k
  have hle := shift_le h0 k
  exact int16_of_short (by omega) (by omega)

theorem low_edge {p l : Int} (hp : 0 < p) : p ∣ l ∨ (l - 1) / p = l / p := by
  rcases Int.lt_or_le 0 (l % p) with hrem | hrem
  · right
    have hl := Int.mul_ediv_add_emod l p
    have hlt := Int.emod_lt_of_pos l hp
    refine le_antisymm (Int.ediv_le_ediv hp (by omega)) ?_
    apply (Int.le_ediv_iff_mul_le hp).mpr
    rw [Int.mul_comm]
    omega
  · left
    exact Int.dvd_of_emod_eq_zero (le_antisymm hrem (Int.emod_nonneg l hp.ne'))

/-- Along one axis, the coordinates from `l` to `r` are those in the pixels of `l` to `r` exactly if `l` and
`r + 1` are edges of pixels. -/
theorem axis_iff {k : Nat} (hk : k ≤ 15) {l r : Int} (hl : 0 ≤ l) (hlr : l < r) (hr : r ≤ 32767) :
    (∀ v, -32768 ≤ v → v ≤ 32767 → ((l ≤ v ∧ v ≤ r) ↔ (l / 2 ^ k ≤ v / 2 ^ k ∧ v / 2 ^ k ≤ r / 2 ^ k))) ↔
      (2 : Int) ^ k ∣ l ∧ (2 : Int) ^ k ∣ r + 1 := by
  have hp := shift_pos k
  have hmono : l / 2 ^ k ≤ r / 2 ^ k := Int.ediv_le_ediv hp (Int.le_of_lt hlr)
  constructor
  · intro hall
    constructor
    · rcases low_edge (l := l) hp with hdvd | hsame
      · exact hdvd
      · have hbefore := (hall (l - 1) (by omega) (by omega)).mpr
        rw [hsame] at hbefore
        have := hbefore ⟨le_rfl, hmono⟩
        omega
    · rcases low_edge (l := r + 1) hp with hdvd | hsame
      · exact hdvd
      · rw [Int.add_sub_cancel] at hsame
        by_cases hlast : r = 32767
        · subst hlast
          exact shift_dvd hk
        · have hafter := (hall (r + 1) (by omega) (by omega)).mpr
          rw [← hsame] at hafter
          have := hafter ⟨hmono, le_rfl⟩
          omega
  · rintro ⟨⟨a, ha⟩, ⟨b, hb⟩⟩ v - -
    have hleft : l / 2 ^ k = a := by rw [ha, Int.mul_ediv_cancel_left _ hp.ne']
    have hlow : l ≤ v ↔ a ≤ v / 2 ^ k := by rw [Int.le_ediv_iff_mul_le hp, ha, Int.mul_comm]
    have hhigh (u : Int) : u ≤ r ↔ u / 2 ^ k < b := by
      rw [Int.ediv_lt_iff_lt_mul hp, Int.mul_comm, ← hb]
      omega
    have hright : r / 2 ^ k = b - 1 := by
      refine le_antisymm (by have := (hhigh r).mp le_rfl; omega) ?_
      rw [Int.le_ediv_iff_mul_le hp, Int.sub_mul, Int.mul_comm b, ← hb]
      omega
    rw [hleft, hright, hlow, hhigh]
    omega

structure Ready (s : State) : Prop where
  clip_x : s.clip.xMin < s.clip.xMax
  clip_y : s.clip.yMin < s.clip.yMax
  left_right : 0 ≤ s.gWindow.left ∧ s.gWindow.left < s.gWindow.right ∧ s.gWindow.right ≤ 32767
  bottom_top : 0 ≤ s.gWindow.bottom ∧ s.gWindow.bottom < s.gWindow.top ∧ s.gWindow.top ≤ 32767
  screen : s.screen.xeigfactor ≤ 15 ∧ s.screen.yeigfactor ≤ 15
  custom : ∀ d, (s.custom d).xeigfactor ≤ 15 ∧ (s.custom d).yeigfactor ≤ 15

theorem agrees_iff {s : State} (hr : Ready s) :
    Agrees s ↔
      s.clip = pixels s.screen s.gWindow ∧ s.clip.Within s.screen ∧ Aligned s.screen s.gWindow := by
  have hx := axis_iff hr.screen.1 hr.left_right.1 hr.left_right.2.1 hr.left_right.2.2
  have hy := axis_iff hr.screen.2 hr.bottom_top.1 hr.bottom_top.2.1 hr.bottom_top.2.2
  constructor
  · rintro ⟨hsame, hwithin, hpoint⟩
    refine ⟨hsame, hwithin, hx.mp ?_, hy.mp ?_⟩
    · intro v h0 h1
      have h := hpoint (v - s.xOrigin) (s.gWindow.bottom - s.yOrigin)
      rw [Int.sub_add_cancel, Int.sub_add_cancel, int16_of_short h0 h1,
        int16_of_short (by have := hr.bottom_top; omega) (by have := hr.bottom_top; omega), hsame] at h
      have hbottom : s.gWindow.bottom / 2 ^ s.screen.yeigfactor ≤ s.gWindow.top / 2 ^ s.screen.yeigfactor :=
        Int.ediv_le_ediv (shift_pos _) (Int.le_of_lt hr.bottom_top.2.1)
      have hbt := hr.bottom_top.2.1
      simpa [Area.Inside, Clip.Inside, pixels, hbottom, Int.le_of_lt hbt] using h
    · intro v h0 h1
      have h := hpoint (s.gWindow.left - s.xOrigin) (v - s.yOrigin)
      rw [Int.sub_add_cancel, Int.sub_add_cancel, int16_of_short h0 h1,
        int16_of_short (by have := hr.left_right; omega) (by have := hr.left_right; omega), hsame] at h
      have hleft : s.gWindow.left / 2 ^ s.screen.xeigfactor ≤ s.gWindow.right / 2 ^ s.screen.xeigfactor :=
        Int.ediv_le_ediv (shift_pos _) (Int.le_of_lt hr.left_right.2.1)
      have hlr := hr.left_right.2.1
      simpa [Area.Inside, Clip.Inside, pixels, hleft, Int.le_of_lt hlr] using h
  · rintro ⟨hsame, hwithin, hleftRight, hbottomTop⟩
    refine ⟨hsame, hwithin, ?_⟩
    intro x y
    obtain ⟨hx0, hx1⟩ := int16_range (x + s.xOrigin)
    obtain ⟨hy0, hy1⟩ := int16_range (y + s.yOrigin)
    rw [hsame]
    exact and_congr (hx.mpr hleftRight _ hx0 hx1) (hy.mpr hbottomTop _ hy0 hy1)

/-! ### Setting a window -/

def Area.Short (w : Area) : Prop :=
  (w.left ≤ 32767 ∧ w.bottom ≤ 32767) ∧ w.right ≤ 32767 ∧ w.top ≤ 32767

theorem short_shiftedArea (s : State) (l b r t : UInt16) : (shiftedArea s l b r t).Short :=
  ⟨⟨(int16_range _).2, (int16_range _).2⟩, (int16_range _).2, (int16_range _).2⟩

theorem short_whole (M : Mode) : (whole M).Short :=
  ⟨⟨by simp [whole], by simp [whole]⟩, (int16_range _).2, (int16_range _).2⟩

theorem set_of_not_legal {s : State} {w : Area} (h : ¬Legal s.screen w) : setGraphicsArea w s = s := by
  simp only [setGraphicsArea]
  split
  · rfl
  · split
    · rfl
    · split
      · rfl
      · refine absurd ?_ h
        simp only [Legal]
        omega

theorem set_of_legal {s : State} {w : Area} (hw : w.Short) (h : Legal s.screen w) :
    setGraphicsArea w s =
      if Wide s.screen w then { s with gWindow := w, clip := pixels s.screen w } else { s with gWindow := w } := by
  obtain ⟨⟨hl, hlr, hrw⟩, hb, hbt, hth⟩ := h
  obtain ⟨⟨hls, hbs⟩, hrs, hts⟩ := hw
  have hr0 : 0 ≤ w.right := by omega
  have ht0 : 0 ≤ w.top := by omega
  have hright := (Int.ediv_lt_iff_lt_mul (shift_pos s.screen.xeigfactor)).mpr hrw
  have htop := (Int.ediv_lt_iff_lt_mul (shift_pos s.screen.yeigfactor)).mpr hth
  have hleft : w.left / 2 ^ s.screen.xeigfactor ≤ w.right / 2 ^ s.screen.xeigfactor :=
    Int.ediv_le_ediv (shift_pos _) (Int.le_of_lt hlr)
  have hbottom : w.bottom / 2 ^ s.screen.yeigfactor ≤ w.top / 2 ^ s.screen.yeigfactor :=
    Int.ediv_le_ediv (shift_pos _) (Int.le_of_lt hbt)
  have hx0 := shift_nonneg hl s.screen.xeigfactor
  have hy0 := shift_nonneg hb s.screen.yeigfactor
  simp only [setGraphicsArea]
  rw [if_neg (by omega), if_neg (by omega), if_neg (by omega), int16_shift hl hls, int16_shift hb hbs,
    int16_shift hr0 hrs, int16_shift ht0 hts]
  simp only [primSetGraphicsArea]
  rw [if_neg (by omega), if_neg (by omega)]
  by_cases hwide : Wide s.screen w
  · rw [if_pos hwide, if_neg (by simp only [Wide] at hwide; omega)]
    rfl
  · rw [if_neg hwide, if_pos (by simp only [Wide] at hwide; omega)]

theorem ready_set {s : State} {w : Area} (hr : Ready s) (hw : w.Short) : Ready (setGraphicsArea w s) := by
  by_cases h : Legal s.screen w
  · rw [set_of_legal hw h]
    obtain ⟨⟨hl, hlr, -⟩, hb, hbt, -⟩ := h
    split
    · rename_i hwide
      exact ⟨hwide.1, hwide.2, ⟨hl, hlr, hw.2.1⟩, ⟨hb, hbt, hw.2.2⟩, hr.screen, hr.custom⟩
    · exact ⟨hr.clip_x, hr.clip_y, ⟨hl, hlr, hw.2.1⟩, ⟨hb, hbt, hw.2.2⟩, hr.screen, hr.custom⟩
  · rw [set_of_not_legal h]
    exact hr

theorem wide_of_same {s : State} (hr : Ready s) (h : s.clip = pixels s.screen s.gWindow) :
    Wide s.screen s.gWindow := by
  have hx := hr.clip_x
  have hy := hr.clip_y
  rw [h] at hx hy
  exact ⟨hx, hy⟩

theorem agrees_set {s : State} {w : Area} (hr : Ready s) (hw : w.Short) (h : Legal s.screen w) :
    Agrees (setGraphicsArea w s) ↔ Wide s.screen w ∧ Aligned s.screen w := by
  rw [agrees_iff (ready_set hr hw)]
  have hready := ready_set hr hw
  rw [set_of_legal hw h] at hready ⊢
  by_cases hwide : Wide s.screen w
  · rw [if_pos hwide]
    constructor
    · rintro ⟨-, -, haligned⟩
      exact ⟨hwide, haligned⟩
    · rintro ⟨-, haligned⟩
      obtain ⟨⟨hl, -, hrw⟩, hb, -, hth⟩ := h
      refine ⟨rfl, ⟨⟨shift_nonneg hl _, ?_⟩, shift_nonneg hb _, ?_⟩, haligned⟩
      · exact (Int.ediv_lt_iff_lt_mul (shift_pos _)).mpr hrw
      · exact (Int.ediv_lt_iff_lt_mul (shift_pos _)).mpr hth
  · rw [if_neg hwide] at hready ⊢
    constructor
    · rintro ⟨hsame, -⟩
      exact absurd (wide_of_same hready hsame) hwide
    · rintro ⟨h', -⟩
      exact absurd h' hwide

/-! ### Modes that are entered -/

theorem eigLoop_le (limit : Int) (n : Nat) (pixels : Int) (factor : Nat) :
    eigLoop limit n pixels factor ≤ factor + n := by
  induction n generalizing pixels factor with
  | zero => exact le_rfl
  | succ n ih =>
    rw [eigLoop]
    split
    · have := ih (2 * pixels) (factor + 1)
      omega
    · omega

theorem eig_customMode (x y : Int) : (customMode x y).xeigfactor ≤ 15 ∧ (customMode x y).yeigfactor ≤ 15 := by
  have hx := eigLoop_le 1280 11 x 0
  have hy := eigLoop_le 1024 11 y 0
  simp only [customMode]
  omega

theorem mem_of_lookup {m : UInt8} {M : Mode} {table : List (UInt8 × Mode)} (h : table.lookup m = some M) :
    (m, M) ∈ table := by
  induction table with
  | nil => cases h
  | cons e table ih =>
    rw [List.lookup_cons] at h
    split at h
    · rename_i heq
      rw [beq_iff_eq] at heq
      cases h
      rw [heq]
      exact List.mem_cons_self
    · exact List.mem_cons_of_mem _ (ih h)

theorem getScreenMode_cases {s : State} {m : UInt8} {M : Mode} (h : getScreenMode s m = some M) :
    (m, M) ∈ teletextScreenModes ++ screenModes ∨ ∃ d, M = s.custom d := by
  rw [getScreenMode] at h
  split at h
  · rename_i hlookup
    cases h
    exact Or.inl (List.mem_append_left _ (mem_of_lookup hlookup))
  · split at h
    · rename_i hlookup
      cases h
      exact Or.inl (List.mem_append_right _ (mem_of_lookup hlookup))
    · split_ifs at h <;> cases h <;> exact Or.inr ⟨_, rfl⟩

theorem table_modes : ∀ e ∈ teletextScreenModes ++ screenModes,
    (e.2.xeigfactor ≤ 15 ∧ e.2.yeigfactor ≤ 15) ∧
      Legal e.2 (whole e.2) ∧ Wide e.2 (whole e.2) ∧ Aligned e.2 (whole e.2) := by
  decide

theorem eig_getScreenMode {s : State} {m : UInt8} {M : Mode} (hr : Ready s)
    (h : getScreenMode s m = some M) : M.xeigfactor ≤ 15 ∧ M.yeigfactor ≤ 15 := by
  rcases getScreenMode_cases h with htable | ⟨d, rfl⟩
  · exact (table_modes _ htable).1
  · exact hr.custom d

theorem ready_reset {s : State} (hr : Ready s) : Ready (resetAreas s) :=
  ready_set { hr with } (short_whole _)

theorem ready_changeMode {s : State} {M : Mode} (hr : Ready s)
    (hM : M.xeigfactor ≤ 15 ∧ M.yeigfactor ≤ 15) : Ready (changeMode M s) :=
  ready_reset ⟨hr.clip_x, hr.clip_y, hr.left_right, hr.bottom_top, hM, hr.custom⟩

theorem agrees_changeMode {s : State} {M : Mode} (hr : Ready s)
    (hM : M.xeigfactor ≤ 15 ∧ M.yeigfactor ≤ 15) : Agrees (changeMode M s) ↔ EnterOk M s := by
  have hready : Ready { s with screen := M, xOrigin := 0, yOrigin := 0 } :=
    ⟨hr.clip_x, hr.clip_y, hr.left_right, hr.bottom_top, hM, hr.custom⟩
  rw [changeMode, resetAreas, EnterOk, SetOk]
  by_cases h : Legal M (whole M)
  · rw [agrees_set hready (short_whole M) h]
    exact ⟨fun hset => ⟨fun _ => hset, fun hnot => absurd h hnot⟩, fun hok => hok.1 h⟩
  · rw [set_of_not_legal h, agrees_iff hready]
    exact ⟨fun hold => ⟨fun hlegal => absurd hlegal h, fun _ => hold⟩, fun hok => hok.2 h⟩

/-! ### One command -/

theorem custom_ready {s : State} (hr : Ready s) (d : Depth) (x y : Int) :
    Ready { s with custom := Function.update s.custom d (customMode x y) } := by
  refine ⟨hr.clip_x, hr.clip_y, hr.left_right, hr.bottom_top, hr.screen, ?_⟩
  intro d'
  by_cases hd : d' = d
  · subst hd
    simpa using eig_customMode x y
  · simpa [hd] using hr.custom d'

theorem ready_step {s : State} (hr : Ready s) (c : Command) : Ready (step s c) := by
  cases c with
  | mode m =>
    simp only [step, vdu22]
    split
    · rename_i M hM
      exact ready_changeMode hr (eig_getScreenMode hr hM)
    · exact hr
  | custom x y n =>
    simp only [step, vdu23_22, fbCustomMode]
    split
    · exact hr
    · exact ready_changeMode (custom_ready hr _ _ _) (eig_customMode _ _)
  | window l b r t =>
    simp only [step, vdu24]
    exact ready_set hr (short_shiftedArea s l b r t)
  | home => exact ready_reset hr
  | origin x y => exact ⟨hr.clip_x, hr.clip_y, hr.left_right, hr.bottom_top, hr.screen, hr.custom⟩

def StepRight (s : State) (c : Command) : Prop :=
  Agrees (step s c) ∧
    (Rejected s c → (step s c).gWindow = s.gWindow ∧ (step s c).clip = s.clip)

theorem set_right {s : State} {w : Area} (hr : Ready s) (h : Agrees s) (hw : w.Short) :
    (Agrees (setGraphicsArea w s) ∧ (¬(Legal s.screen w ∧ Wide s.screen w) →
      (setGraphicsArea w s).gWindow = s.gWindow ∧ (setGraphicsArea w s).clip = s.clip)) ↔
      SetOk s.screen w := by
  by_cases hlegal : Legal s.screen w
  · rw [agrees_set hr hw hlegal]
    constructor
    · rintro ⟨hset, -⟩ -
      exact hset
    · intro hok
      obtain ⟨hwide, haligned⟩ := hok hlegal
      exact ⟨⟨hwide, haligned⟩, fun hnot => absurd ⟨hlegal, hwide⟩ hnot⟩
  · rw [set_of_not_legal hlegal]
    exact ⟨fun _ hl => absurd hl hlegal, fun _ => ⟨h, fun _ => ⟨rfl, rfl⟩⟩⟩

theorem agrees_origin {s : State} (hr : Ready s) (h : Agrees s) (x y : Int) :
    Agrees { s with xOrigin := x, yOrigin := y } := by
  have hready : Ready { s with xOrigin := x, yOrigin := y } :=
    { hr with }
  exact (agrees_iff hready).mpr ((agrees_iff hr).mp h)

theorem step_right {s : State} (hr : Ready s) (h : Agrees s) (c : Command) :
    StepRight s c ↔ StepOk s c := by
  cases c with
  | mode m =>
    simp only [StepRight, Rejected, step, vdu22, StepOk, false_implies, and_true]
    cases hM : getScreenMode s (m &&& 0x7F) with
    | none => exact ⟨fun _ M hsome => absurd hsome nofun, fun _ => h⟩
    | some M =>
      rw [agrees_changeMode hr (eig_getScreenMode hr hM)]
      constructor
      · rintro hok M' ⟨⟩
        exact hok
      · intro hok
        exact hok M rfl
  | custom x y n =>
    simp only [StepRight, Rejected, step, vdu23_22, fbCustomMode, StepOk, false_implies, and_true]
    split
    · rename_i hsmall
      exact ⟨fun _ hnot => absurd hsmall hnot, fun _ => h⟩
    · rename_i hlarge
      rw [agrees_changeMode (custom_ready hr _ _ _) (eig_customMode _ _)]
      exact ⟨fun hok _ => hok, fun hok => hok hlarge⟩
  | window l b r t =>
    simp only [StepRight, Rejected, step, vdu24, StepOk]
    exact set_right hr h (short_shiftedArea s l b r t)
  | home =>
    have hready : Ready { s with xOrigin := 0, yOrigin := 0 } :=
      { hr with }
    exact set_right hready (agrees_origin hr h 0 0) (short_whole s.screen)
  | origin x y =>
    simp only [StepRight, Rejected, step, vdu29, StepOk, false_implies, and_true, iff_true]
    exact agrees_origin hr h _ _

/-! ### Runs -/

theorem initial_windows : initial.screen = ⟨640, 512, 1, 1⟩ ∧ initial.gWindow = ⟨0, 0, 1279, 1023⟩ ∧
    initial.clip = ⟨0, 0, 639, 511⟩ := by
  decide

theorem initial_custom (d : Depth) : initial.custom d = ⟨0, 0, 0, 0⟩ := by
  cases d <;> decide

theorem ready_initial : Ready initial := by
  obtain ⟨hscreen, hwindow, hclip⟩ := initial_windows
  constructor
  · rw [hclip]
    decide
  · rw [hclip]
    decide
  · rw [hwindow]
    decide
  · rw [hwindow]
    decide
  · rw [hscreen]
    decide
  · intro d
    rw [initial_custom]
    decide

theorem agrees_initial : Agrees initial := by
  obtain ⟨hscreen, hwindow, hclip⟩ := initial_windows
  rw [agrees_iff ready_initial, hscreen, hwindow, hclip]
  exact ⟨by decide, ⟨by decide, by decide⟩, by decide⟩

theorem run_right (s : State) (hr : Ready s) (h : Agrees s) (commands : List Command) :
    (∀ t ∈ history step s commands, StepRight t.pre t.op) ↔
      ∀ t ∈ history step s commands, StepOk t.pre t.op := by
  induction commands generalizing s with
  | nil => simp
  | cons c commands ih =>
    rw [history, List.forall_mem_cons, List.forall_mem_cons, step_right hr h c]
    constructor
    · rintro ⟨hc, hrest⟩
      exact ⟨hc, (ih _ (ready_step hr c) ((step_right hr h c).mpr hc).1).mp hrest⟩
    · rintro ⟨hc, hrest⟩
      exact ⟨hc, (ih _ (ready_step hr c) ((step_right hr h c).mpr hc).1).mpr hrest⟩

/-- In every run the windows are one in every state, and a rejected command changes neither, exactly if
every window that is set is wide and aligned and every mode entered can have its windows. -/
theorem windows_one_iff (commands : List Command) :
    (Agrees initial ∧ ∀ t ∈ history step initial commands, StepRight t.pre t.op) ↔
      ∀ t ∈ history step initial commands, StepOk t.pre t.op := by
  constructor
  · rintro ⟨-, h⟩
    exact (run_right initial ready_initial agrees_initial commands).mp h
  · intro h
    exact ⟨agrees_initial, (run_right initial ready_initial agrees_initial commands).mpr h⟩

/-- `VDU 24,0;0;1;1;` asks for less than a pixel: the first layer has stored it when the second rejects
it. -/
theorem window_within_a_pixel :
    (step initial (.window 0 0 1 1)).gWindow = ⟨0, 0, 1, 1⟩ ∧
      (step initial (.window 0 0 1 1)).clip = ⟨0, 0, 639, 511⟩ ∧
      ¬(Agrees initial ∧
        ∀ t ∈ history step initial [.window 0 0 1 1], StepRight t.pre t.op) := by
  refine ⟨by decide, by decide, ?_⟩
  rintro ⟨-, h⟩
  have hsame := (h _ List.mem_cons_self).1.same
  exact absurd hsame (by decide)

end Pi1MHz.VduWindow
