import Pi1MHz.VduFill

/-!
# Rows of pixels

`set_pixel` and `draw_hline` of `primitives.c` over the bytes of the frame buffer.  A plain fill goes past
`set_pixel` and writes its row with `fill_hline` of the mode; everything else is plotted a pixel at a time.
-/

namespace Pi1MHz.VduHline

open FloodFill (Cell)
open VduFill

/-! ### The frame buffer -/

/-- The bytes by their distance from `fb`. -/
abbrev Memory := Int → UInt8

structure FrameBuffer where
  width : Int
  height : Int
  pitch : Int

def bytesPerPixel : Depth → Int
  | .bpp8 => 1
  | .bpp16 => 2
  | .bpp32 => 4

def pixelBytes : Depth → UInt32 → List UInt8
  | .bpp8, v => [v.toUInt8]
  | .bpp16, v => [v.toUInt8, (v >>> 8).toUInt8]
  | .bpp32, v => [v.toUInt8, (v >>> 8).toUInt8, (v >>> 16).toUInt8, (v >>> 24).toUInt8]

/-- `memcpy` to a place. -/
def storeBytes (m : Memory) : Int → List UInt8 → Memory
  | _, [] => m
  | p, b :: bytes => storeBytes (Function.update m p b) (p + 1) bytes

def loadPixel (m : Memory) (p : Int) : Depth → UInt32
  | .bpp8 => UInt32.ofNat (m p).toNat
  | .bpp16 => UInt32.ofNat ((m p).toNat + 256 * (m (p + 1)).toNat)
  | .bpp32 =>
      UInt32.ofNat ((m p).toNat + 256 * ((m (p + 1)).toNat + 256 * ((m (p + 2)).toNat + 256 * (m (p + 3)).toNat)))

namespace FrameBuffer

variable (F : FrameBuffer)

def address (d : Depth) (x y : Int) : Int := (F.height - y - 1) * F.pitch + x * bytesPerPixel d

/-- `default_set_pixel_8bpp`, `default_set_pixel_16bpp` and `default_set_pixel_32bpp`. -/
def defaultSetPixel (d : Depth) (m : Memory) (x y : Int) (value : UInt32) : Memory :=
  storeBytes m (F.address d x y) (pixelBytes d value)

/-- `default_get_pixel_8bpp`, `default_get_pixel_16bpp` and `default_get_pixel_32bpp`. -/
def defaultGetPixel (d : Depth) (m : Memory) (x y : Int) : UInt32 := loadPixel m (F.address d x y) d

end FrameBuffer

/-- The loop of the wider fills: `n` pixels from `p` on. -/
def fillPixels (d : Depth) (value : UInt32) : Nat → Int → Memory → Memory
  | 0, _, m => m
  | n + 1, p, m => fillPixels d value n (p + bytesPerPixel d) (storeBytes m p (pixelBytes d value))

/-- `default_fill_hline_8bpp` is a `memset`; `default_fill_hline_16bpp` and `default_fill_hline_32bpp` are
loops. -/
def FrameBuffer.defaultFillHline (F : FrameBuffer) (m : Memory) (x1 x2 y : Int) (value : UInt32) :
    Depth → Memory
  | .bpp8 => storeBytes m (F.address .bpp8 x1 y) (List.replicate (x2 - x1 + 1).toNat value.toUInt8)
  | .bpp16 => fillPixels .bpp16 value (x2 + 1 - x1).toNat (F.address .bpp16 x1 y) m
  | .bpp32 => fillPixels .bpp32 value (x2 + 1 - x1).toNat (F.address .bpp32 x1 y) m

section

variable (G : Gfx) (F : FrameBuffer)

def setPixel (col : Plotcol) (y : Int) (m : Memory) (x : Int) : Memory :=
  if G.offscreen x y then m
  else F.defaultSetPixel G.mode.depth m x y
    (G.plotColour col x y (F.defaultGetPixel G.mode.depth m x y))

/-- `for (int x = x1; ...)`, over `n` pixels. -/
def setPixels (col : Plotcol) (y : Int) : Nat → Int → Memory → Memory
  | 0, _, m => m
  | n + 1, x, m => setPixels col y n (x + 1) (setPixel G F col y m x)

/-- The plot mode as `draw_hline` works it out. -/
def hlinePlotmode : Plotcol → UInt8
  | .fg => G.fg.plotmode
  | .bg => G.bg.plotmode
  | .inv => PM_INVERT

def drawHline (hasFill : Bool) (m : Memory) (x1 x2 y : Int) (col : Plotcol) : Memory :=
  let left := if x2 < x1 then x2 else x1
  let right := if x2 < x1 then x1 else x2
  if y < G.window.yMin ∨ G.window.yMax < y then m
  else
    let left := if left < G.window.xMin then G.window.xMin else left
    let right := if G.window.xMax < right then G.window.xMax else right
    if right < left then m
    else if hlinePlotmode G col = PM_NORMAL ∧ hasFill = true then
      F.defaultFillHline m left right y (if col = .fg then G.fg.colour else G.bg.colour) G.mode.depth
    else setPixels G F col y (right + 1 - left).toNat left m

end

/-! ### Clipping -/

section Clip

variable {G : Gfx} {F : FrameBuffer} {col : Plotcol} {y : Int}

theorem offscreen_iff (G : Gfx) (x y : Int) : G.offscreen x y = true ↔
    x < G.window.xMin ∨ G.window.xMax < x ∨ y < G.window.yMin ∨ G.window.yMax < y := by
  simp only [Gfx.offscreen, Bool.or_eq_true, decide_eq_true_eq]
  rw [or_assoc, or_assoc]

theorem setPixel_offscreen {x : Int} (h : G.offscreen x y = true) (m : Memory) : setPixel G F col y m x = m :=
  if_pos h

theorem setPixels_offscreen {n : Nat} {x : Int} (h : ∀ i : Nat, i < n → G.offscreen (x + i) y = true)
    (m : Memory) : setPixels G F col y n x m = m := by
  induction n generalizing x m with
  | zero => rfl
  | succ n ih =>
    have hfirst : G.offscreen x y = true := by
      have hzero := h 0 (Nat.succ_pos n)
      rw [Nat.cast_zero, Int.add_zero] at hzero
      exact hzero
    rw [setPixels, setPixel_offscreen hfirst]
    apply ih
    intro i hi
    have hnext := h (i + 1) (Nat.succ_lt_succ hi)
    rw [Nat.cast_succ, Int.add_comm (i : Int), ← Int.add_assoc] at hnext
    exact hnext

theorem setPixels_add (i j : Nat) (x : Int) (m : Memory) :
    setPixels G F col y (i + j) x m = setPixels G F col y j (x + i) (setPixels G F col y i x m) := by
  induction i generalizing x m with
  | zero => rw [Nat.zero_add, Nat.cast_zero, Int.add_zero, setPixels]
  | succ i ih =>
    rw [Nat.succ_add, setPixels, setPixels, ih, Nat.cast_succ, Int.add_assoc, Int.add_comm 1]

theorem setPixels_clip {left right a b : Int} (hleft : a ≤ left) (hright : right ≤ b) (hle : left ≤ right + 1)
    (hbefore : ∀ x, a ≤ x → x < left → G.offscreen x y = true)
    (hbehind : ∀ x, right < x → x ≤ b → G.offscreen x y = true) (m : Memory) :
    setPixels G F col y (b + 1 - a).toNat a m = setPixels G F col y (right + 1 - left).toNat left m := by
  obtain ⟨i, hi⟩ := Int.eq_ofNat_of_zero_le (show 0 ≤ left - a by omega)
  obtain ⟨n, hn⟩ := Int.eq_ofNat_of_zero_le (show 0 ≤ right + 1 - left by omega)
  obtain ⟨j, hj⟩ := Int.eq_ofNat_of_zero_le (show 0 ≤ b - right by omega)
  have hcount : (b + 1 - a).toNat = i + (n + j) := by omega
  have hfirst : a + i = left := by omega
  have hlast : left + n = right + 1 := by omega
  have hpre := @setPixels_offscreen G F col y i a (fun k hk => hbefore _ (by omega) (by omega)) m
  rw [hcount, hn, setPixels_add, setPixels_add, hfirst, hlast, Int.toNat_natCast, hpre]
  exact setPixels_offscreen (fun k hk => hbehind _ (by omega) (by omega)) _

end Clip

/-! ### The fast path -/

section Fast

variable {G : Gfx} {F : FrameBuffer} {col : Plotcol} {y : Int}

theorem storeBytes_append (m : Memory) (p : Int) (a b : List UInt8) :
    storeBytes m p (a ++ b) = storeBytes (storeBytes m p a) (p + a.length) b := by
  induction a generalizing m p with
  | nil => rw [List.nil_append, List.length_nil, Nat.cast_zero, Int.add_zero, storeBytes]
  | cons c a ih =>
    rw [List.cons_append, storeBytes, storeBytes, ih, List.length_cons, Nat.cast_succ, Int.add_assoc,
      Int.add_comm 1]

theorem memset_eq (v : UInt32) (n : Nat) (p : Int) (m : Memory) :
    storeBytes m p (List.replicate n v.toUInt8) = fillPixels .bpp8 v n p m := by
  induction n generalizing p m with
  | zero => rfl
  | succ n ih =>
    rw [List.replicate_succ, storeBytes, ih]
    rfl

theorem defaultFillHline_eq (F : FrameBuffer) (m : Memory) (x1 x2 y : Int) (v : UInt32) (d : Depth) :
    F.defaultFillHline m x1 x2 y v d = fillPixels d v (x2 + 1 - x1).toNat (F.address d x1 y) m := by
  rcases d with _ | _ | _
  · have hcount : x2 - x1 + 1 = x2 + 1 - x1 := by omega
    rw [FrameBuffer.defaultFillHline, memset_eq, hcount]
  · rfl
  · rfl

theorem plotColour_normal (h : hlinePlotmode G col = PM_NORMAL) (x y : Int) (px : UInt32) :
    G.plotColour col x y px = if col = .fg then G.fg.colour else G.bg.colour := by
  rcases col with _ | _ | _
  · rw [hlinePlotmode] at h
    simp only [Gfx.plotColour, h]
    rfl
  · exact absurd h (show ¬PM_INVERT = PM_NORMAL by decide)
  · rw [hlinePlotmode] at h
    simp only [Gfx.plotColour, h]
    rfl

theorem fillPixels_eq (h : hlinePlotmode G col = PM_NORMAL) {n : Nat} {x : Int}
    (hin : ∀ i : Nat, i < n → G.offscreen (x + i) y = false) (m : Memory) :
    fillPixels G.mode.depth (if col = .fg then G.fg.colour else G.bg.colour) n (F.address G.mode.depth x y) m =
      setPixels G F col y n x m := by
  induction n generalizing x m with
  | zero => rfl
  | succ n ih =>
    have hfirst : G.offscreen x y = false := by
      have hzero := hin 0 (Nat.succ_pos n)
      rw [Nat.cast_zero, Int.add_zero] at hzero
      exact hzero
    have hnext : F.address G.mode.depth x y + bytesPerPixel G.mode.depth = F.address G.mode.depth (x + 1) y := by
      rw [FrameBuffer.address, FrameBuffer.address, Int.add_mul, Int.one_mul, Int.add_assoc]
    rw [fillPixels, setPixels, setPixel, hfirst, plotColour_normal h, hnext]
    apply ih
    intro i hi
    have hlater := hin (i + 1) (Nat.succ_lt_succ hi)
    rw [Nat.cast_succ, Int.add_comm (i : Int), ← Int.add_assoc] at hlater
    exact hlater

end Fast

/-- Whichever way `draw_hline` takes, the frame buffer is as `set_pixel` leaves it for every pixel between
the end points. -/
theorem draw_hline_pixels (G : Gfx) (F : FrameBuffer) (hasFill : Bool) (m : Memory) (x1 x2 y : Int)
    (col : Plotcol) :
    drawHline G F hasFill m x1 x2 y col =
      setPixels G F col y (max x1 x2 + 1 - min x1 x2).toNat (min x1 x2) m := by
  have hleft : (if x2 < x1 then x2 else x1) = min x1 x2 := by split <;> omega
  have hright : (if x2 < x1 then x1 else x2) = max x1 x2 := by split <;> omega
  rw [drawHline, hleft, hright]
  simp only
  split
  next hy =>
    symm
    apply setPixels_offscreen
    intro i _
    exact (offscreen_iff G _ y).mpr (.inr (.inr hy))
  next hy =>
    obtain ⟨hymin, hymax⟩ := not_or.mp hy
    generalize hl : (if min x1 x2 < G.window.xMin then G.window.xMin else min x1 x2) = left
    generalize hr : (if G.window.xMax < max x1 x2 then G.window.xMax else max x1 x2) = right
    have hwide := G.window.wide
    have hl' : left = max (min x1 x2) G.window.xMin := by rw [← hl]; split <;> omega
    have hr' : right = min (max x1 x2) G.window.xMax := by rw [← hr]; split <;> omega
    split
    next hnone =>
      symm
      apply setPixels_offscreen
      intro i hi
      rw [offscreen_iff]
      omega
    next hsome =>
      have hclip := @setPixels_clip G F col y left right (min x1 x2) (max x1 x2) (by omega) (by omega) (by omega)
        (fun x _ _ => (offscreen_iff G x y).mpr (by omega)) (fun x _ _ => (offscreen_iff G x y).mpr (by omega)) m
      rw [hclip]
      split
      next hfast =>
        rw [defaultFillHline_eq]
        apply fillPixels_eq hfast.1
        intro i hi
        rw [Bool.eq_false_iff, ne_eq, offscreen_iff]
        omega
      next => rfl

section Pixels

variable {F : FrameBuffer} {G : Gfx} {d : Depth} {x y : Int}

theorem bytesPerPixel_pos (d : Depth) : 0 < bytesPerPixel d := by
  rcases d with _ | _ | _ <;> decide

theorem storeBytes_other (m : Memory) (p q : Int) (bytes : List UInt8) (h : q < p ∨ p + bytes.length ≤ q) :
    storeBytes m p bytes q = m q := by
  induction bytes generalizing m p with
  | nil => rfl
  | cons b bytes ih =>
    rw [List.length_cons, Nat.cast_succ] at h
    rw [storeBytes, ih _ _ (by omega), Function.update_of_ne (by omega)]

end Pixels

end Pi1MHz.VduHline
