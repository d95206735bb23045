import Mathlib.Tactic.Positivity
import Mathlib.Tactic.Ring
import Pi1MHz.ForwardCopy
import Pi1MHz.VduHline

/-!
# Scrolling

`default_scroll_screen` of `screen_modes.c`.  When the text window is the whole screen the rows are moved up
by `_fast_scroll` of `arm-start.S`, sixteen words a turn; otherwise pixel by pixel.
-/

namespace Pi1MHz.VduScroll

open VduFill (Depth)
open VduHline

section Loops

variable {α : Type*}

def forUp : Nat → Int → (Int → α → α) → α → α
  | 0, _, _, a => a
  | n + 1, i, f, a => forUp n (i + 1) f (f i a)

/-- `for (int i = lo; i <= hi; i++)`. -/
def loopUp (lo hi : Int) (f : Int → α → α) (a : α) : α := forUp (hi + 1 - lo).toNat lo f a

def forDown : Nat → Int → (Int → α → α) → α → α
  | 0, _, _, a => a
  | n + 1, i, f, a => forDown n (i - 1) f (f i a)

/-- `for (int i = hi; i >= lo; i--)`. -/
def loopDown (hi lo : Int) (f : Int → α → α) (a : α) : α := forDown (hi + 1 - lo).toNat hi f a

end Loops

/-! ### Screen, font and text window -/

/-- `screen_mode_t`, as far as scrolling goes. -/
structure ScreenMode where
  width : Int
  height : Int
  depth : Depth
  bbcGap : Bool

def log2bpp : Depth → Nat
  | .bpp8 => 3
  | .bpp16 => 4
  | .bpp32 => 5

/-- `default_init_screen` sets it. -/
def ScreenMode.pitch (S : ScreenMode) : Int := S.width * 2 ^ log2bpp S.depth / 8

def ScreenMode.buffer (S : ScreenMode) : FrameBuffer := ⟨S.width, S.height, S.pitch⟩

/-- The sizes of `font_t`. -/
structure Font where
  width : UInt8
  height : UInt8
  spacingW : UInt8
  spacingH : UInt8
  scaleW : UInt8
  scaleH : UInt8
  rounding : UInt8

/-- `default_get_overall_w`. -/
def Font.overallW (f : Font) : Int := (f.width.toNat + f.spacingW.toNat) * 2 ^ f.rounding.toNat * f.scaleW.toNat

/-- `default_get_overall_h`. -/
def Font.overallH (f : Font) : Int := (f.height.toNat + f.spacingH.toNat) * 2 ^ f.rounding.toNat * f.scaleH.toNat

/-- `t_clip_window_t`, in characters. -/
structure TextWindow where
  left : UInt8
  bottom : UInt8
  right : UInt8
  top : UInt8

structure Rectangle where
  x1 : Int
  y1 : Int
  x2 : Int
  y2 : Int
deriving DecidableEq, Repr

def toRectangle (S : ScreenMode) (f : Font) : Option TextWindow → Rectangle
  | none => ⟨0, 0, S.width - 1, S.height - 1⟩
  | some w =>
      { x1 := w.left.toNat * f.overallW
        y1 := S.height - 1 - (w.bottom.toNat * f.overallH + f.overallH - 1)
        x2 := (w.right.toNat + 1) * f.overallW - 1
        y2 := S.height - 1 - w.top.toNat * f.overallH }

def isFullScreen (S : ScreenMode) (r : Rectangle) : Bool := r == ⟨0, 0, S.width - 1, S.height - 1⟩

/-- An `ldmia` of eight registers and the `stmia` of the same eight. -/
def moveWords (dst src : Int) (m : Memory) : Memory := ForwardCopy.block 32 dst src m

/-- What the loop changes: the registers, the memory, and the places it has taken eight words from or put
them to. -/
structure Copy where
  dst : Int
  src : Int
  left : UInt32
  memory : Memory
  touched : List Int

/-- A turn of `_fast_scroll_loop`. -/
def Copy.turn (c : Copy) : Copy where
  dst := c.dst + 64
  src := c.src + 64
  left := c.left - 64
  memory := moveWords (c.dst + 32) (c.src + 32) (moveWords c.dst c.src c.memory)
  touched := c.dst :: c.src :: (c.dst + 32) :: (c.src + 32) :: c.touched

def fastScrollLoop : Nat → Copy → Option Copy
  | 0, _ => none
  | fuel + 1, c => if c.turn.left = 0 then some c.turn else fastScrollLoop fuel c.turn

def fastScroll (fuel : Nat) (dst src : Int) (numBytes : UInt32) (m : Memory) : Option Copy :=
  fastScrollLoop fuel ⟨dst, src, numBytes &&& ~~~0x3F, m, []⟩

/-! ### The scroll -/

inductive ScrollDir
  | up
  | down
  | left
  | right
deriving DecidableEq, Repr

def BBC_GAP_COL : UInt32 := 0x02

section

variable (S : ScreenMode)

/-- `screen->set_pixel(screen, x, y, screen->get_pixel(screen, x', y'))`. -/
def copyPixel (x y x' y' : Int) (m : Memory) : Memory :=
  S.buffer.defaultSetPixel S.depth m x y (S.buffer.defaultGetPixel S.depth m x' y')

def scrollPixels (r : Rectangle) (fontWidth fontHeight : Int) (m : Memory) : ScrollDir → Memory × Rectangle
  | .up =>
      (loopDown r.y2 (r.y1 + fontHeight)
        (fun y => loopUp r.x1 r.x2 fun x => copyPixel S x y x (y - fontHeight)) m,
        { r with y2 := r.y1 + (fontHeight - 1) })
  | .down =>
      (loopUp r.y1 (r.y2 - fontHeight)
        (fun y => loopUp r.x1 r.x2 fun x => copyPixel S x y x (y + fontHeight)) m,
        { r with y1 := r.y2 - (fontHeight - 1) })
  | .right =>
      (loopDown r.x2 (r.x1 + fontWidth)
        (fun x => loopUp r.y1 r.y2 fun y => copyPixel S x y (x - fontWidth) y) m,
        { r with x2 := r.x1 + (fontWidth - 1) })
  | .left =>
      (loopUp r.x1 (r.x2 - fontWidth)
        (fun x => loopUp r.y1 r.y2 fun y => copyPixel S x y (x + fontWidth) y) m,
        { r with x1 := r.x2 - (fontWidth - 1) })

def blankColour (bgCol : UInt32) (y : Int) : UInt32 :=
  if S.bbcGap = true ∧ y.tmod 10 < 2 then BBC_GAP_COL else bgCol

def blankRectangle (blank : Rectangle) (bgCol : UInt32) (m : Memory) : Memory :=
  loopUp blank.y1 blank.y2
    (fun y => loopUp blank.x1 blank.x2 fun x m =>
      S.buffer.defaultSetPixel S.depth m x y (blankColour S bgCol y)) m

/-- `memcpy(fb - screen->pitch, fb, screen->pitch)`. -/
def updateGuardLine (m : Memory) : Memory := ForwardCopy.block S.pitch (-S.pitch) 0 m

def spreadColour (bgCol : UInt32) : UInt32 :=
  match S.depth with
  | .bpp8 => bgCol ||| (bgCol <<< 8) ||| (bgCol <<< 16) ||| (bgCol <<< 24)
  | .bpp16 => bgCol ||| (bgCol <<< 16)
  | .bpp32 => bgCol

variable (f : Font) (w : Option TextWindow) (bgCol : UInt32) (dir : ScrollDir) (m : Memory)

/-- `default_scroll_screen` by its per-pixel branch. -/
def scrollByPixels : Memory :=
  let (m, blank) := scrollPixels S (toRectangle S f w) f.overallW f.overallH m dir
  updateGuardLine S (blankRectangle S blank bgCol m)

def defaultScrollScreen (fuel : Nat) : Option (Memory × List Int) :=
  let r := toRectangle S f w
  if dir = .up ∧ isFullScreen S r = true then
    match fastScroll fuel 0 (f.overallH * S.pitch) (UInt32.ofInt ((S.height - f.overallH) * S.pitch)) m with
    | none => none
    | some c =>
        some (updateGuardLine S
          (blankRectangle S { r with y2 := r.y1 + (f.overallH - 1) } (spreadColour S bgCol) c.memory), c.touched)
  else some (scrollByPixels S f w bgCol dir m, [])

end

/-- For any contents of the screen the scroll upwards ends, touches only bytes of the frame buffer, and leaves
the pixels, and the guard line above them, that the per-pixel branch leaves. -/
def FastIsSlow (S : ScreenMode) (f : Font) (w : TextWindow) (bgCol : UInt32) : Prop :=
  ∀ m, ∃ fuel m' touched, defaultScrollScreen S f (some w) bgCol .up m fuel = some (m', touched) ∧
    (∀ p ∈ touched, 0 ≤ p ∧ p + 32 ≤ S.height * S.pitch) ∧
    ∀ x y, 0 ≤ x → x < S.width → 0 ≤ y → y ≤ S.height →
      S.buffer.defaultGetPixel S.depth m' x y =
        S.buffer.defaultGetPixel S.depth (scrollByPixels S f (some w) bgCol .up m) x y

/-! ### What the loops do -/

section Loops

variable {α : Type*}

theorem forUp_run {n : Nat} {i : Int} {f : Int → α → α} {g : Nat → α}
    (hstep : ∀ k : Nat, k < n → f (i + k) (g k) = g (k + 1)) : forUp n i f (g 0) = g n := by
  induction n generalizing i g with
  | zero => rfl
  | succ n ih =>
    have hfirst := hstep 0 (Nat.succ_pos n)
    rw [Nat.cast_zero, Int.add_zero] at hfirst
    rw [forUp, hfirst]
    refine @ih (i + 1) (fun k => g (k + 1)) ?_
    intro k hk
    have hnext := hstep (k + 1) (Nat.succ_lt_succ hk)
    rw [Nat.cast_succ, Int.add_comm (k : Int), ← Int.add_assoc] at hnext
    exact hnext

theorem forDown_run {n : Nat} {i : Int} {f : Int → α → α} {g : Nat → α}
    (hstep : ∀ k : Nat, k < n → f (i - k) (g k) = g (k + 1)) : forDown n i f (g 0) = g n := by
  induction n generalizing i g with
  | zero => rfl
  | succ n ih =>
    have hfirst := hstep 0 (Nat.succ_pos n)
    rw [Nat.cast_zero, Int.sub_zero] at hfirst
    rw [forDown, hfirst]
    refine @ih (i - 1) (fun k => g (k + 1)) ?_
    intro k hk
    have hnext := hstep (k + 1) (Nat.succ_lt_succ hk)
    rw [Nat.cast_succ, Int.add_comm (k : Int), ← Int.sub_sub] at hnext
    exact hnext

theorem forUp_keeps {I : α → Prop} {n : Nat} {i : Int} {f : Int → α → α} {a : α}
    (hstep : ∀ j, i ≤ j → j < i + n → ∀ a, I a → I (f j a)) (h : I a) : I (forUp n i f a) := by
  induction n generalizing i a with
  | zero => exact h
  | succ n ih =>
    rw [forUp]
    apply ih
    · intro j hj hlt
      exact hstep j (by omega) (by omega)
    · exact hstep i (Int.le_refl i) (by omega) a h

theorem loopUp_keeps {I : α → Prop} {lo hi : Int} {f : Int → α → α} {a : α}
    (hstep : ∀ j, lo ≤ j → j ≤ hi → ∀ a, I a → I (f j a)) (h : I a) : I (loopUp lo hi f a) :=
  forUp_keeps (fun j hj hlt => hstep j hj (by omega)) h

end Loops

/-! ### Pixels and bytes -/

theorem pitch_eq (S : ScreenMode) : S.pitch = S.width * bytesPerPixel S.depth := by
  rw [ScreenMode.pitch]
  cases S.depth <;> simp only [log2bpp, bytesPerPixel] <;> omega

theorem low_byte (m : Memory) (p : Int) (d : Depth) : (loadPixel m p d).toNat % 256 = (m p).toNat := by
  cases d <;> simp [loadPixel]

theorem pixelBytes_load (m : Memory) (q : Int) (d : Depth) :
    pixelBytes d (loadPixel m q d) = (List.range (bytesPerPixel d).toNat).map fun i : Nat => m (q + i) := by
  have h0 := (m q).toNat_lt
  have h1 := (m (q + 1)).toNat_lt
  have h2 := (m (q + 2)).toNat_lt
  have h3 := (m (q + 3)).toNat_lt
  cases d with
  | bpp8 =>
    have hb : (loadPixel m q .bpp8).toUInt8 = m q := by
      apply UInt8.toNat_inj.mp
      simp [loadPixel]
    simp [pixelBytes, bytesPerPixel, List.range_succ, hb]
  | bpp16 =>
    have hb0 : (loadPixel m q .bpp16).toUInt8 = m q := by
      apply UInt8.toNat_inj.mp
      simp [loadPixel]
    have hb1 : (loadPixel m q .bpp16 >>> 8).toUInt8 = m (q + 1) := by
      apply UInt8.toNat_inj.mp
      simp [loadPixel, Nat.shiftRight_eq_div_pow]
      omega
    simp [pixelBytes, bytesPerPixel, List.range_succ, hb0, hb1]
  | bpp32 =>
    have hb0 : (loadPixel m q .bpp32).toUInt8 = m q := by
      apply UInt8.toNat_inj.mp
      simp [loadPixel]
    have hb1 : (loadPixel m q .bpp32 >>> 8).toUInt8 = m (q + 1) := by
      apply UInt8.toNat_inj.mp
      simp [loadPixel, Nat.shiftRight_eq_div_pow]
      omega
    have hb2 : (loadPixel m q .bpp32 >>> 16).toUInt8 = m (q + 2) := by
      apply UInt8.toNat_inj.mp
      simp [loadPixel, Nat.shiftRight_eq_div_pow]
      omega
    have hb3 : (loadPixel m q .bpp32 >>> 24).toUInt8 = m (q + 3) := by
      apply UInt8.toNat_inj.mp
      simp [loadPixel, Nat.shiftRight_eq_div_pow]
      omega
    simp [pixelBytes, bytesPerPixel, List.range_succ, hb0, hb1, hb2, hb3]

theorem storeBytes_range (m : Memory) (p q : Int) (n : Nat) :
    storeBytes m p ((List.range n).map fun i : Nat => m (q + i)) = ForwardCopy.block n p q m := by
  induction n with
  | zero =>
    funext a
    rw [ForwardCopy.block_other (by omega)]
    rfl
  | succ n ih =>
    funext a
    rw [List.range_succ, List.map_append, storeBytes_append, ih, List.length_map, List.length_range]
    simp only [List.map_cons, List.map_nil, storeBytes, Function.update_apply, ForwardCopy.block]
    split
    next ha =>
      have hsrc : a - p + q = q + n := by omega
      rw [if_pos (by omega), hsrc]
    next ha =>
      by_cases hin : p ≤ a ∧ a < p + n
      · rw [if_pos hin, if_pos (by omega)]
      · rw [if_neg hin, if_neg (by omega)]

theorem store_load (m : Memory) (p q : Int) (d : Depth) :
    storeBytes m p (pixelBytes d (loadPixel m q d)) = ForwardCopy.block (bytesPerPixel d) p q m := by
  have hn : ((bytesPerPixel d).toNat : Int) = bytesPerPixel d :=
    Int.toNat_of_nonneg (Int.le_of_lt (bytesPerPixel_pos d))
  rw [pixelBytes_load, storeBytes_range, hn]

theorem copyPixel_eq (S : ScreenMode) (x y x' y' : Int) (m : Memory) :
    copyPixel S x y x' y' m =
      ForwardCopy.block (bytesPerPixel S.depth) (S.buffer.address S.depth x y) (S.buffer.address S.depth x' y') m :=
  store_load m _ _ S.depth

theorem pixelBytes_spread (S : ScreenMode) (v : UInt32) :
    pixelBytes S.depth (spreadColour S v) = pixelBytes S.depth v := by
  rw [spreadColour]
  cases S.depth with
  | bpp8 =>
    have hlow : (v ||| (v <<< 8) ||| (v <<< 16) ||| (v <<< 24)).toUInt8 = v.toUInt8 := by
      apply UInt8.eq_of_toBitVec_eq
      ext i hi
      simp
    simp only [pixelBytes, hlow]
  | bpp16 =>
    have hlow : (v ||| (v <<< 16)).toUInt8 = v.toUInt8 := by
      apply UInt8.eq_of_toBitVec_eq
      ext i hi
      simp
    have hhigh : ((v ||| (v <<< 16)) >>> 8).toUInt8 = (v >>> 8).toUInt8 := by
      apply UInt8.eq_of_toBitVec_eq
      ext i hi
      have h16 : 8 + i < 16 := by omega
      simp [h16]
    simp only [pixelBytes, hlow, hhigh]
  | bpp32 => rfl

/-! ### The per-pixel branch -/

section Full

variable {S : ScreenMode} {f : Font} {w : TextWindow} {m : Memory}

theorem overallH_nonneg (f : Font) : 0 ≤ f.overallH := by
  rw [Font.overallH]
  positivity

theorem overallW_nonneg (f : Font) : 0 ≤ f.overallW := by
  rw [Font.overallW]
  positivity

theorem full_sizes (hfull : isFullScreen S (toRectangle S f (some w)) = true) :
    toRectangle S f (some w) = ⟨0, 0, S.width - 1, S.height - 1⟩ ∧ 0 ≤ S.width ∧
      S.height = w.bottom.toNat * f.overallH + f.overallH := by
  rw [isFullScreen, beq_iff_eq] at hfull
  have hx2 : (toRectangle S f (some w)).x2 = S.width - 1 := by rw [hfull]
  have hy1 : (toRectangle S f (some w)).y1 = 0 := by rw [hfull]
  simp only [toRectangle] at hx2 hy1
  have hcols : 0 ≤ ((w.right.toNat : Int) + 1) * f.overallW :=
    Int.mul_nonneg (by omega) (overallW_nonneg f)
  exact ⟨hfull, by omega, by omega⟩

theorem full_height (hfull : isFullScreen S (toRectangle S f (some w)) = true) : f.overallH ≤ S.height := by
  obtain ⟨-, -, hheight⟩ := full_sizes hfull
  have hrows : 0 ≤ (w.bottom.toNat : Int) * f.overallH := Int.mul_nonneg (by omega) (overallH_nonneg f)
  omega

theorem pitch_nonneg (hwidth : 0 ≤ S.width) : 0 ≤ S.pitch := by
  rw [pitch_eq]
  exact Int.mul_nonneg hwidth (Int.le_of_lt (bytesPerPixel_pos S.depth))

theorem scroll_row (hwidth : 0 ≤ S.width) {fh : Int} (hfh : 0 ≤ fh) (t : Nat) :
    loopUp 0 (S.width - 1) (fun x => copyPixel S x (S.height - 1 - t) x (S.height - 1 - t - fh))
        (ForwardCopy.shifted (t * S.pitch) (fh * S.pitch) m) =
      ForwardCopy.shifted ((t + 1 : Nat) * S.pitch) (fh * S.pitch) m := by
  have hbpp := bytesPerPixel_pos S.depth
  have hpitch := pitch_nonneg hwidth
  obtain ⟨n, hn⟩ := Int.eq_ofNat_of_zero_le hwidth
  have hcount : (S.width - 1 + 1 - 0).toNat = n := by omega
  rw [loopUp, hcount]
  have hrun := @forUp_run _ n 0 (fun x => copyPixel S x (S.height - 1 - t) x (S.height - 1 - t - fh))
    (fun k => ForwardCopy.shifted (t * S.pitch + k * bytesPerPixel S.depth) (fh * S.pitch) m) ?_
  · simp only [Nat.cast_zero, Int.zero_mul, Int.add_zero] at hrun
    rw [hrun, pitch_eq, hn]
    congr 1
    push_cast
    ring
  · intro k _
    have hdst : S.buffer.address S.depth (0 + k) (S.height - 1 - t) =
        t * S.pitch + k * bytesPerPixel S.depth := by
      simp only [FrameBuffer.address, ScreenMode.buffer]
      ring
    have hsrc : S.buffer.address S.depth (0 + k) (S.height - 1 - t - fh) =
        t * S.pitch + k * bytesPerPixel S.depth + fh * S.pitch := by
      simp only [FrameBuffer.address, ScreenMode.buffer]
      ring
    rw [copyPixel_eq, hdst, hsrc, ForwardCopy.block_shifted]
    · congr 1
      push_cast
      ring
    · positivity
    · exact Int.le_of_lt hbpp
    · exact Int.mul_nonneg hfh hpitch

theorem scroll_rows (hwidth : 0 ≤ S.width) {fh : Int} (hfh : 0 ≤ fh) (hle : fh ≤ S.height) :
    loopDown (S.height - 1) (0 + fh) (fun y => loopUp 0 (S.width - 1) fun x => copyPixel S x y x (y - fh)) m =
      ForwardCopy.shifted ((S.height - fh) * S.pitch) (fh * S.pitch) m := by
  obtain ⟨n, hn⟩ := Int.eq_ofNat_of_zero_le (show 0 ≤ S.height - fh by omega)
  have hcount : (S.height - 1 + 1 - (0 + fh)).toNat = n := by omega
  rw [loopDown, hcount, hn]
  have hrun := @forDown_run _ n (S.height - 1)
    (fun y => loopUp 0 (S.width - 1) fun x => copyPixel S x y x (y - fh))
    (fun t => ForwardCopy.shifted (t * S.pitch) (fh * S.pitch) m) fun t _ => scroll_row hwidth hfh t
  simp only [Nat.cast_zero, Int.zero_mul] at hrun
  rw [ForwardCopy.shifted_empty (Int.le_refl 0)] at hrun
  exact hrun

def bottomRow (S : ScreenMode) (f : Font) : Rectangle := ⟨0, 0, S.width - 1, 0 + (f.overallH - 1)⟩

theorem scrollByPixels_full (hfull : isFullScreen S (toRectangle S f (some w)) = true) (bgCol : UInt32) :
    scrollByPixels S f (some w) bgCol .up m =
      updateGuardLine S (blankRectangle S (bottomRow S f) bgCol
        (ForwardCopy.shifted ((S.height - f.overallH) * S.pitch) (f.overallH * S.pitch) m)) := by
  obtain ⟨hrect, hwidth, -⟩ := full_sizes hfull
  rw [scrollByPixels, hrect]
  simp only [scrollPixels]
  rw [scroll_rows hwidth (overallH_nonneg f) (full_height hfull)]
  rfl

theorem blank_spread (S : ScreenMode) (blank : Rectangle) (bgCol : UInt32) (m : Memory) :
    blankRectangle S blank (spreadColour S bgCol) m = blankRectangle S blank bgCol m := by
  have hpixel (x y : Int) (m : Memory) :
      S.buffer.defaultSetPixel S.depth m x y (blankColour S (spreadColour S bgCol) y) =
        S.buffer.defaultSetPixel S.depth m x y (blankColour S bgCol y) := by
    simp only [blankColour, FrameBuffer.defaultSetPixel]
    split
    · rfl
    · rw [pixelBytes_spread]
  simp only [blankRectangle, hpixel]

theorem blank_other {q : Int} (hwidth : 0 ≤ S.width) (h0 : 0 ≤ q) (hq : q < (S.height - f.overallH) * S.pitch)
    (bgCol : UInt32) : updateGuardLine S (blankRectangle S (bottomRow S f) bgCol m) q = m q := by
  have hbpp := bytesPerPixel_pos S.depth
  have hpitch := pitch_nonneg hwidth
  rw [updateGuardLine, ForwardCopy.block_other (by omega)]
  refine @loopUp_keeps _ (fun m' : Memory => m' q = m q) _ _ _ _ ?_ rfl
  intro y _ hy a ha
  refine @loopUp_keeps _ (fun m' : Memory => m' q = m q) _ _ _ _ ?_ ha
  intro x hx _ a ha
  rw [FrameBuffer.defaultSetPixel, storeBytes_other, ha]
  left
  simp only [bottomRow] at hx hy
  have hrow : (S.height - f.overallH) * S.pitch ≤ (S.height - y - 1) * S.pitch :=
    Int.mul_le_mul_of_nonneg_right (by omega) hpitch
  have hcol : 0 ≤ x * bytesPerPixel S.depth := Int.mul_nonneg hx (Int.le_of_lt hbpp)
  have haddress : S.buffer.address S.depth x y = (S.height - y - 1) * S.pitch + x * bytesPerPixel S.depth := rfl
  omega

end Full

/-! ### The block copy -/

section Turns

theorem bic_toNat (v : UInt32) : (v &&& ~~~0x3F).toNat = 64 * (v.toNat / 64) := by
  have hmask : (~~~(0x3F : UInt32)).toNat = (2 ^ 26 - 1) <<< 6 := by decide
  have hdiv : 64 * (v.toNat / 64) = (v.toNat >>> 6) <<< 6 := by
    rw [Nat.shiftRight_eq_div_pow, Nat.shiftLeft_eq, Nat.mul_comm]
  rw [UInt32.toNat_and, hmask, hdiv]
  apply Nat.eq_of_testBit_eq
  intro i
  rw [Nat.testBit_and, Nat.testBit_shiftLeft, Nat.testBit_shiftLeft, Nat.testBit_shiftRight,
    Nat.testBit_two_pow_sub_one]
  by_cases h6 : 6 ≤ i
  · have hi : 6 + (i - 6) = i := by omega
    rw [hi]
    by_cases h32 : i < 32
    · have hlt : i - 6 < 26 := by omega
      simp [h6, hlt]
    · have hzero : v.toNat.testBit i = false :=
        Nat.testBit_lt_two_pow (Nat.lt_of_lt_of_le v.toNat_lt (Nat.pow_le_pow_right (by decide) (by omega)))
      simp [hzero]
  · simp [h6]

def turns (numBytes : UInt32) : Nat := if numBytes.toNat / 64 = 0 then 2 ^ 26 else numBytes.toNat / 64

theorem turns_range (v : UInt32) : 0 < turns v ∧ turns v ≤ 2 ^ 26 := by
  have hv := v.toNat_lt
  simp only [turns]
  split <;> omega

theorem bic_turns (v : UInt32) : v &&& ~~~0x3F = UInt32.ofNat (64 * turns v) := by
  have hv := v.toNat_lt
  apply UInt32.toNat_inj.mp
  rw [bic_toNat, UInt32.toNat_ofNat', turns]
  split
  · omega
  · omega

theorem fastScrollLoop_eq {n : Nat} (hn : 0 < n) (hle : n ≤ 2 ^ 26) (fuel : Nat) (c : Copy)
    (hc : c.left = UInt32.ofNat (64 * n)) :
    fastScrollLoop fuel c = if n ≤ fuel then some (Copy.turn^[n] c) else none := by
  induction n generalizing fuel c with
  | zero => exact absurd hn (Nat.lt_irrefl 0)
  | succ n ih =>
    cases fuel with
    | zero => rw [fastScrollLoop, if_neg (by omega)]
    | succ fuel =>
      have hleft : c.turn.left = UInt32.ofNat (64 * n) := by
        rw [Copy.turn, hc]
        apply UInt32.toNat_inj.mp
        rw [UInt32.toNat_sub, UInt32.toNat_ofNat', UInt32.toNat_ofNat']
        simp only [UInt32.reduceToNat]
        omega
      rw [fastScrollLoop, hleft, Function.iterate_succ_apply]
      by_cases hzero : n = 0
      · subst hzero
        rw [if_pos (by decide), if_pos (by omega)]
        rfl
      · have hne : UInt32.ofNat (64 * n) ≠ 0 := by
          intro h
          have h' := congrArg UInt32.toNat h
          rw [UInt32.toNat_ofNat'] at h'
          simp only [UInt32.reduceToNat] at h'
          omega
        rw [if_neg hne, ih (by omega) (by omega) fuel c.turn hleft]
        by_cases hfuel : n ≤ fuel
        · rw [if_pos hfuel, if_pos (Nat.succ_le_succ hfuel)]
        · rw [if_neg hfuel, if_neg fun h => hfuel (Nat.le_of_succ_le_succ h)]

/-- What `n` turns of a move by `off` have done. -/
structure Moved (off : Int) (m : Memory) (n : Nat) (c : Copy) : Prop where
  dst : c.dst = 64 * n
  src : c.src = 64 * n + off
  memory : c.memory = ForwardCopy.shifted (64 * n) off m
  inside : ∀ p ∈ c.touched, 0 ≤ p ∧ p + 32 ≤ 64 * n + off
  last : 0 < n → 64 * n + off - 32 ∈ c.touched

theorem moved_turn {off : Int} (hoff : 0 ≤ off) {m : Memory} {n : Nat} {c : Copy} (h : Moved off m n c) :
    Moved off m (n + 1) c.turn := by
  obtain ⟨hdst, hsrc, hmem, hinside, -⟩ := h
  refine ⟨?_, ?_, ?_, ?_, ?_⟩
  · simp only [Copy.turn, hdst]
    push_cast
    omega
  · simp only [Copy.turn, hsrc]
    push_cast
    omega
  · have hsecond : (64 * n + off + 32 : Int) = 64 * n + 32 + off := by omega
    have hend : (64 * n + 32 + 32 : Int) = 64 * (n + 1 : Nat) := by omega
    simp only [Copy.turn, moveWords, hdst, hsrc, hmem]
    rw [ForwardCopy.block_shifted (by omega) (by decide) hoff, hsecond,
      ForwardCopy.block_shifted (by omega) (by decide) hoff, hend]
  · intro p hp
    simp only [Copy.turn, List.mem_cons, hdst, hsrc] at hp
    rcases hp with rfl | rfl | rfl | rfl | hp
    · omega
    · omega
    · omega
    · omega
    · have := hinside p hp
      omega
  · intro _
    have hp : (64 * (n + 1 : Nat) + off - 32 : Int) = c.src + 32 := by
      rw [hsrc]
      push_cast
      omega
    simp only [Copy.turn, List.mem_cons, hp]
    tauto

theorem moved_run {off : Int} (hoff : 0 ≤ off) (m : Memory) (left : UInt32) (n : Nat) :
    Moved off m n (Copy.turn^[n] ⟨0, off, left, m, []⟩) := by
  induction n with
  | zero =>
    refine ⟨rfl, ?_, ?_, ?_, ?_⟩
    · simp
    · exact (ForwardCopy.shifted_empty (Int.le_refl 0) off m).symm
    · intro p hp
      exact absurd hp List.not_mem_nil
    · intro h
      exact absurd h (Nat.lt_irrefl 0)
  | succ n ih =>
    rw [Function.iterate_succ_apply']
    exact moved_turn hoff ih

theorem fastScroll_eq {off : Int} (hoff : 0 ≤ off) (numBytes : UInt32) (m : Memory) :
    ∃ c, Moved off m (turns numBytes) c ∧
      ∀ fuel, fastScroll fuel 0 off numBytes m = if turns numBytes ≤ fuel then some c else none := by
  obtain ⟨hpos, hle⟩ := turns_range numBytes
  refine ⟨_, moved_run hoff m (numBytes &&& ~~~0x3F) (turns numBytes), ?_⟩
  intro fuel
  exact fastScrollLoop_eq hpos hle fuel _ (bic_turns numBytes)

end Turns

/-! ### Both branches -/

section Both

variable {S : ScreenMode} {f : Font} {w : TextWindow} {bgCol : UInt32}

def scrolledBytes (S : ScreenMode) (f : Font) : Int := (S.height - f.overallH) * S.pitch

theorem fast_branch (hfull : isFullScreen S (toRectangle S f (some w)) = true) (fuel : Nat) (m : Memory) :
    defaultScrollScreen S f (some w) bgCol .up m fuel =
      (fastScroll fuel 0 (f.overallH * S.pitch) (UInt32.ofInt (scrolledBytes S f)) m).map fun c =>
        (updateGuardLine S (blankRectangle S (bottomRow S f) bgCol c.memory), c.touched) := by
  have hrect := (full_sizes hfull).1
  rw [defaultScrollScreen, if_pos ⟨rfl, hfull⟩]
  cases hc : fastScroll fuel 0 (f.overallH * S.pitch) (UInt32.ofInt (scrolledBytes S f)) m with
  | none =>
    rw [scrolledBytes] at hc
    rw [hc]
    rfl
  | some c =>
    rw [scrolledBytes] at hc
    simp only [hc, hrect, blank_spread]
    rfl

theorem sixtyFour_dvd (d : Depth) (n : Nat) : bytesPerPixel d ∣ 64 * (n : Int) := by
  apply Dvd.dvd.mul_right
  cases d <;> decide

theorem pixel_at {q : Int} (hwidth : 0 ≤ S.width) (h0 : 0 ≤ q) (hq : q < scrolledBytes S f)
    (hdvd : bytesPerPixel S.depth ∣ q) :
    ∃ x y, (0 ≤ x ∧ x < S.width) ∧ (0 ≤ y ∧ y ≤ S.height) ∧ S.buffer.address S.depth x y = q := by
  have hbpp := bytesPerPixel_pos S.depth
  have hpos : 0 < S.pitch := by
    refine lt_of_le_of_ne (pitch_nonneg hwidth) ?_
    intro hzero
    rw [scrolledBytes, ← hzero, Int.mul_zero] at hq
    omega
  have hrem : bytesPerPixel S.depth ∣ q % S.pitch := by
    rw [Int.emod_def]
    exact dvd_sub hdvd (Dvd.dvd.mul_right (Dvd.intro_left S.width (pitch_eq S).symm) _)
  obtain ⟨x, hx⟩ := hrem
  have hx' : x * bytesPerPixel S.depth = q % S.pitch := by rw [hx, Int.mul_comm]
  have hmod0 := Int.emod_nonneg q hpos.ne'
  have hmod := Int.emod_lt_of_pos q hpos
  have hlt : q / S.pitch < S.height - f.overallH := (Int.ediv_lt_iff_lt_mul hpos).mpr hq
  have hdiv : 0 ≤ q / S.pitch := Int.ediv_nonneg h0 (Int.le_of_lt hpos)
  have hfont := overallH_nonneg f
  refine ⟨x, S.height - 1 - q / S.pitch, ⟨?_, ?_⟩, ⟨by omega, by omega⟩, ?_⟩
  · apply nonneg_of_mul_nonneg_left _ hbpp
    omega
  · apply lt_of_mul_lt_mul_right _ (Int.le_of_lt hbpp)
    rw [hx', ← pitch_eq]
    exact hmod
  · have hback : S.height - (S.height - 1 - q / S.pitch) - 1 = q / S.pitch := by omega
    simp only [FrameBuffer.address, ScreenMode.buffer]
    rw [hback, hx', Int.mul_comm]
    exact Int.mul_ediv_add_emod q S.pitch

theorem scrolls_iff (hfull : isFullScreen S (toRectangle S f (some w)) = true) :
    FastIsSlow S f w bgCol ↔ 64 * (turns (UInt32.ofInt (scrolledBytes S f)) : Int) = scrolledBytes S f := by
  obtain ⟨-, hwidth, hheight⟩ := full_sizes hfull
  have hle := full_height hfull
  have hoff : 0 ≤ f.overallH * S.pitch := Int.mul_nonneg (overallH_nonneg f) (pitch_nonneg hwidth)
  have hsize : S.height * S.pitch = scrolledBytes S f + f.overallH * S.pitch := by
    rw [scrolledBytes]
    ring
  obtain ⟨hturns, -⟩ := turns_range (UInt32.ofInt (scrolledBytes S f))
  constructor
  · intro hright
    -- a screen with one byte set: the one that would move to the first place the copy leaves out
    let m : Memory := Function.update (fun _ => 0)
      (64 * (turns (UInt32.ofInt (scrolledBytes S f)) : Int) + f.overallH * S.pitch) 1
    obtain ⟨fuel, m', touched, hrun, htouched, hpixels⟩ := hright m
    obtain ⟨c, hmoved, hloop⟩ := fastScroll_eq hoff (UInt32.ofInt (scrolledBytes S f)) m
    rw [fast_branch hfull, hloop] at hrun
    split at hrun
    · cases hrun
      have hlast := (htouched _ (hmoved.last hturns)).2
      by_contra hne
      have hlt : 64 * (turns (UInt32.ofInt (scrolledBytes S f)) : Int) < scrolledBytes S f := by omega
      obtain ⟨x, y, ⟨hx0, hx⟩, ⟨hy0, hy⟩, haddress⟩ :=
        pixel_at hwidth (by omega) hlt (sixtyFour_dvd S.depth _)
      have hoff' : 0 < f.overallH * S.pitch := by
        refine lt_of_le_of_ne hoff ?_
        intro hzero
        rw [hheight, Int.add_mul, Int.mul_assoc, ← hzero] at hsize
        omega
      have hbyte := congrArg (fun v => v.toNat % 256) (hpixels x y hx0 hx hy0 hy)
      simp only [FrameBuffer.defaultGetPixel, low_byte, haddress] at hbyte
      rw [scrollByPixels_full hfull, UInt8.toNat_inj, blank_other hwidth (by omega) hlt,
        blank_other hwidth (by omega) hlt, hmoved.memory] at hbyte
      exact ForwardCopy.shifted_differ (by omega) hlt hoff' (by decide) hbyte
    · cases hrun
  · intro heq m
    obtain ⟨c, hmoved, hrun⟩ := fastScroll_eq hoff (UInt32.ofInt (scrolledBytes S f)) m
    refine ⟨turns (UInt32.ofInt (scrolledBytes S f)),
      updateGuardLine S (blankRectangle S (bottomRow S f) bgCol c.memory), c.touched, ?_, ?_, ?_⟩
    · rw [fast_branch hfull, hrun, if_pos (Nat.le_refl _)]
      rfl
    · intro p hp
      have := hmoved.inside p hp
      omega
    · intro x y _ _ _ _
      rw [scrollByPixels_full hfull, hmoved.memory, heq, scrolledBytes]

end Both

theorem turns_ofInt {n : Int} (h : 0 ≤ n) :
    64 * (turns (UInt32.ofInt n) : Int) = n ↔ 64 ∣ n ∧ 0 < n ∧ n ≤ 2 ^ 32 := by
  have hvalue : (UInt32.ofInt n).toNat = (n % 2 ^ 32).toNat := by
    rw [UInt32.ofInt, UInt32.toNat_ofNat']
    omega
  rw [turns, hvalue]
  split <;> omega

/-- Where the text window is the whole screen, the scroll by `_fast_scroll` is right, whatever is on the
screen, exactly if the bytes above the bottom row are a multiple of 64, some, and no more than its counter
counts. -/
theorem fast_scroll_iff (S : ScreenMode) (f : Font) (w : TextWindow) (bgCol : UInt32)
    (hfull : isFullScreen S (toRectangle S f (some w)) = true) :
    FastIsSlow S f w bgCol ↔
      64 ∣ (S.height - f.overallH) * S.pitch ∧ 0 < (S.height - f.overallH) * S.pitch ∧
        (S.height - f.overallH) * S.pitch ≤ 2 ^ 32 := by
  have hle := full_height hfull
  have hbytes : 0 ≤ scrolledBytes S f := Int.mul_nonneg (by omega) (pitch_nonneg (full_sizes hfull).2.1)
  rw [scrolls_iff hfull, turns_ofInt hbytes, scrolledBytes]

/-- Mode 21 with the font as it comes. -/
theorem fast_scroll_mode21 : FastIsSlow ⟨640, 512, .bpp8, false⟩ ⟨8, 8, 0, 0, 1, 1, 0⟩ ⟨0, 63, 79, 0⟩ 0 :=
  (fast_scroll_iff ⟨640, 512, .bpp8, false⟩ ⟨8, 8, 0, 0, 1, 1, 0⟩ ⟨0, 63, 79, 0⟩ 0 (by decide)).mpr (by decide)

/-- A screen of one row of text: nothing is to be moved, and the counter goes all the way round. -/
theorem fast_scroll_one_row :
    isFullScreen ⟨640, 8, .bpp8, false⟩
        (toRectangle ⟨640, 8, .bpp8, false⟩ ⟨8, 8, 0, 0, 1, 1, 0⟩ (some ⟨0, 0, 79, 0⟩)) = true ∧
      ¬FastIsSlow ⟨640, 8, .bpp8, false⟩ ⟨8, 8, 0, 0, 1, 1, 0⟩ ⟨0, 0, 79, 0⟩ 0 := by
  refine ⟨by decide, ?_⟩
  rw [scrolls_iff (by decide)]
  decide

end Pi1MHz.VduScroll
