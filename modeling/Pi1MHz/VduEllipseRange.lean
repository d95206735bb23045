import Pi1MHz.VduEllipse

/-!
# Ellipses in 32 bits

When the arithmetic of `draw_normal_ellipse` and `fill_normal_ellipse` stays in an `int`.  The largest value is the
step down from the top row of the half that goes along the longer axis, four squares of the longer axis times the
shorter one less one; where the shorter axis is hardly there, it is the square of the longer axis that the other
half adds up eight times.
-/

namespace Pi1MHz.VduEllipse

open CheckedInt (InInt)
open MidpointEllipse

def AxesFit (width height : Nat) : Prop :=
  if min width height < 3 then max width height ≤ 16383 + min width height
  else max width height ^ 2 * (min width height - 1) ≤ 2 ^ 29

instance (width height : Nat) : Decidable (AxesFit width height) := by
  rw [AxesFit]
  infer_instance

/-! ### Bounds of a half -/

structure HalfFits (a b : Int) : Prop where
  axes : 1 ≤ a ∧ a ≤ 16385 ∧ 1 ≤ b ∧ b ≤ 16385
  column : b * b * a ≤ 2147483647
  row : a * a * b ≤ 2147483647
  down : a * a * (b - 1) ≤ 536870912
  added : ∀ s : Loop, Walk (a * a) (b * b) b s.x s.y s.sigma → Flat (a * a) (b * b) s.x s.y →
    b * b * (4 * s.x + 6) ≤ 2147483647 ∧
      (0 ≤ s.sigma → (nextLoop (b * b) (4 * (a * a)) s).sigma ≤ 2147483647)

structure InHalf (a b : Int) (s : Loop) : Prop where
  walk : Walk (a * a) (b * b) b s.x s.y s.sigma
  left : s.x ≤ a
  bottom : 0 ≤ s.y
  floor : -2147483648 ≤ s.sigma

section

variable {a b : Int} {s : Loop}

theorem square_le {a : Int} (h : 0 ≤ a ∧ a ≤ 16385) : a * a ≤ 268468225 :=
  le_trans (Int.mul_le_mul h.2 h.2 h.1 (by omega)) (by decide)

theorem walk_next (h : Walk (a * a) (b * b) b s.x s.y s.sigma) (hb : 1 ≤ b)
    (hflat : Flat (a * a) (b * b) s.x s.y) :
    Walk (a * a) (b * b) b (nextLoop (b * b) (4 * (a * a)) s).x (nextLoop (b * b) (4 * (a * a)) s).y
      (nextLoop (b * b) (4 * (a * a)) s).sigma := by
  have hA : 0 ≤ a * a := mul_self_nonneg a
  have hB : 0 < b * b := Int.mul_pos (by omega) (by omega)
  rw [nextLoop]
  split
  · next hout => exact h.down hA hB hflat hout
  · next hin => exact h.stay (by omega) hflat (by omega)

theorem round_kept (hfit : HalfFits a b) (h : InHalf a b s) (hflat : Flat (a * a) (b * b) s.x s.y) :
    RoundKept int32 (b * b) (4 * (a * a)) s ∧ InHalf a b (nextLoop (b * b) (4 * (a * a)) s) := by
  obtain ⟨ha, hat, hb, hbt⟩ := hfit.axes
  obtain ⟨hadded, hnext⟩ := hfit.added s h.walk hflat
  obtain ⟨hinside, hrow⟩ := h.walk.inside hflat
  have hcolumn := h.walk.column
  have htop := h.walk.top
  have hfloor := h.floor
  have hA : 0 ≤ a * a := mul_self_nonneg a
  have hAt := square_le ⟨by omega, hat⟩
  have hBt := square_le ⟨by omega, hbt⟩
  have hB : 0 < b * b := Int.mul_pos (by omega) (by omega)
  have hx : s.x < a := column_lt (by omega) hB hinside
  have hpositive : 0 ≤ b * b * (4 * s.x + 6) := Int.mul_nonneg (by omega) (by omega)
  have hterm : -2147483648 ≤ 4 * (a * a) * (1 - s.y) := by
    have hlow : a * a * (s.y - 1) ≤ a * a * (b - 1) := Int.mul_le_mul_of_nonneg_left (by omega) hA
    have hdown := hfit.down
    linarith
  have hterm' : 4 * (a * a) * (1 - s.y) ≤ 0 := Int.mul_nonpos_of_nonneg_of_nonpos (by omega) (by omega)
  have hlowered : 0 ≤ s.sigma → s.sigma + 4 * (a * a) * (1 - s.y) ≤ 2147483647 := by
    intro _
    have hless := h.walk.decision_down hflat
    omega
  have hbottom : 0 ≤ (nextLoop (b * b) (4 * (a * a)) s).y := by
    rw [nextLoop]
    split
    · show 0 ≤ s.y - 1
      omega
    · exact h.bottom
  have hsigma : InInt (nextLoop (b * b) (4 * (a * a)) s).sigma := by
    rw [nextLoop] at hnext ⊢
    by_cases hout : 0 ≤ s.sigma
    · rw [if_pos hout] at hnext ⊢
      have hmost := hnext hout
      dsimp only at hmost ⊢
      constructor <;> omega
    · rw [if_neg hout]
      dsimp only
      constructor <;> omega
  constructor
  · constructor
    · intro _
      exact int32_ok ⟨by omega, by omega⟩
    · intro _
      exact int32_ok ⟨hterm, by omega⟩
    · intro hout
      exact int32_ok ⟨by omega, hlowered hout⟩
    · intro _
      exact int32_ok ⟨by omega, by omega⟩
    · exact int32_ok ⟨by omega, by omega⟩
    · exact int32_ok ⟨by omega, by omega⟩
    · exact int32_ok ⟨by omega, hadded⟩
    · exact int32_ok hsigma
    · exact int32_ok ⟨by omega, by omega⟩
  · refine ⟨walk_next h.walk hb hflat, ?_, hbottom, hsigma.1⟩
    rw [nextLoop_x]
    omega

theorem half_carries (hfit : HalfFits a b) :
    Carries int32 (a * a) (b * b) (4 * (a * a)) a (InHalf a b) where
  column := by
    intro s h
    obtain ⟨-, -, hb, -⟩ := hfit.axes
    have hlow : 0 ≤ b * b * s.x := Int.mul_nonneg (mul_self_nonneg b) h.walk.column
    have hhigh : b * b * s.x ≤ b * b * a := Int.mul_le_mul_of_nonneg_left h.left (mul_self_nonneg b)
    exact int32_ok ⟨by omega, le_trans hhigh hfit.column⟩
  row := by
    intro s h
    have hlow : 0 ≤ a * a * s.y := Int.mul_nonneg (mul_self_nonneg a) h.bottom
    have hhigh : a * a * s.y ≤ a * a * b := Int.mul_le_mul_of_nonneg_left h.walk.top (mul_self_nonneg a)
    exact int32_ok ⟨by omega, le_trans hhigh hfit.row⟩
  round := by
    intro s h hflat
    obtain ⟨hkept, hnext⟩ := round_kept hfit h hflat
    obtain ⟨ha, -, hb, -⟩ := hfit.axes
    exact ⟨hkept, hnext,
      column_lt (by omega) (Int.mul_pos (by omega) (by omega)) (h.walk.inside hflat).1⟩

theorem start_kept (hfit : HalfFits a b) :
    startSigma int32 (a * a) (b * b) b = .ok (2 * (b * b) + a * a * (1 - 2 * b)) ∧
      InHalf a b ⟨0, b, 2 * (b * b) + a * a * (1 - 2 * b)⟩ := by
  obtain ⟨ha, hat, hb, hbt⟩ := hfit.axes
  have hA : 0 < a * a := Int.mul_pos (by omega) (by omega)
  have hB : 0 < b * b := Int.mul_pos (by omega) (by omega)
  have hAt := square_le ⟨by omega, hat⟩
  have hBt := square_le ⟨by omega, hbt⟩
  have hlow : -2147483648 ≤ a * a * (1 - 2 * b) := by
    have hdown := hfit.down
    linarith
  have hhigh : a * a * (1 - 2 * b) ≤ 0 := Int.mul_nonpos_of_nonneg_of_nonpos (by omega) (by omega)
  constructor
  · rw [startSigma, int32_ok ⟨by omega, by omega⟩, ok_bind, int32_ok ⟨by omega, by omega⟩, ok_bind,
      int32_ok ⟨by omega, by omega⟩, ok_bind, int32_ok ⟨hlow, by omega⟩, ok_bind]
    exact int32_ok ⟨by omega, by omega⟩
  · constructor
    · exact walk_start hA hb
    · show 0 ≤ a
      omega
    · show 0 ≤ b
      omega
    · show -2147483648 ≤ 2 * (b * b) + a * a * (1 - 2 * b)
      omega

end

/-! ### Columns near the slope of one -/

section

variable {a b x y : Int}

theorem column_long (hb : 6 ≤ b) (hab : b ≤ a) (hflat : Flat (a * a) (b * b) x y)
    (hinside : mid (a * a) (b * b) x y < 0) : 4 * (b * b * x) ≤ 3 * (a * a * b) := by
  by_contra hfar
  have hA : 0 ≤ a * a := mul_self_nonneg a
  have hB : 0 ≤ b * b := mul_self_nonneg b
  rw [Flat] at hflat
  have hrow : 3 * b < 4 * y := by
    by_contra hlow
    have hterm : a * a * (4 * y) ≤ a * a * (3 * b) := Int.mul_le_mul_of_nonneg_left (by omega) hA
    linarith
  have hcolumn : 3 * a < 4 * x := by
    by_contra hleft
    have hterm : b * b * (4 * x) ≤ b * b * (3 * a) := Int.mul_le_mul_of_nonneg_left (by omega) hB
    have haxes : a * b * b ≤ a * b * a :=
      Int.mul_le_mul_of_nonneg_left hab (Int.mul_nonneg (by omega) (by omega))
    linarith
  have hx : 9 * (a * a) ≤ 16 * (x * x) := by nlinarith
  have hy : 9 * (b * b) - 12 * b ≤ 16 * (y * y - y) := by nlinarith
  have hx := Int.mul_le_mul_of_nonneg_left hx hB
  have hy := Int.mul_le_mul_of_nonneg_left hy hA
  have hlong : 0 ≤ a * a * (b * (b - 6)) := Int.mul_nonneg hA (Int.mul_nonneg (by omega) (by omega))
  rw [mid] at hinside
  linarith

theorem column_short (hb : 6 ≤ b) (hnear : 3 * b ≤ 4 * a) (hflat : Flat (a * a) (b * b) x y)
    (hinside : mid (a * a) (b * b) x y < 0) : 8 * (b * b * x) ≤ 7 * (a * a * b) := by
  by_contra hfar
  have hA : 0 < a * a := Int.mul_pos (by omega) (by omega)
  have hB : 0 ≤ b * b := mul_self_nonneg b
  rw [Flat] at hflat
  have hrow : 7 * b < 8 * y := by
    by_contra hlow
    have hterm : a * a * (8 * y) ≤ a * a * (7 * b) := Int.mul_le_mul_of_nonneg_left (by omega) hA.le
    linarith
  have hvolume : 0 < a * a * b := Int.mul_pos hA (by omega)
  have hcolumn : 5 * a < 8 * x := by
    by_contra hleft
    have hterm : b * b * (8 * x) ≤ b * b * (5 * a) := Int.mul_le_mul_of_nonneg_left (by omega) hB
    have haxes : a * b * (3 * b) ≤ a * b * (4 * a) :=
      Int.mul_le_mul_of_nonneg_left hnear (Int.mul_nonneg (by omega) (by omega))
    linarith
  have hx : 25 * (a * a) ≤ 64 * (x * x) := by nlinarith
  have hy : 49 * (b * b) - 56 * b ≤ 64 * (y * y - y) := by nlinarith
  have hx := Int.mul_le_mul_of_nonneg_left hx hB
  have hy := Int.mul_le_mul_of_nonneg_left hy hA.le
  have hlong : 0 ≤ a * a * (b * (b - 6)) := Int.mul_nonneg hA.le (Int.mul_nonneg (by omega) (by omega))
  rw [mid] at hinside
  linarith

theorem first_row {sigma : Int} (ha : 0 < a) (h : Walk (a * a) (b * b) b 0 y sigma) (hflat : Flat (a * a) (b * b) 0 y) :
    y = b := by
  have hA : 0 < a * a := Int.mul_pos ha ha
  obtain ⟨-, hrow⟩ := h.inside hflat
  have htop := h.top
  have houtside := h.outside
  by_contra hother
  have hform : mid (a * a) (b * b) 0 (y + 1) = a * a * (2 * (y * y) + 2 * y + 1 - 2 * (b * b)) := by
    rw [mid]
    ring
  have hless : 2 * (y * y) + 2 * y + 1 - 2 * (b * b) < 0 := by
    have hsquare : (y + 1) * (y + 1) ≤ b * b := Int.mul_le_mul (by omega) (by omega) (by omega) (by omega)
    linarith
  have hnegative := Int.mul_neg_of_pos_of_neg hA hless
  omega

end

/-! ### Bounds from the axes -/

section

variable {a b : Int}

theorem added_of_column (ha : 1 ≤ a) (hb : 1 ≤ b) {s : Loop} (hwalk : Walk (a * a) (b * b) b s.x s.y s.sigma)
    (hflat : Flat (a * a) (b * b) s.x s.y)
    (hcolumn : 4 * (b * b * s.x) + 8 * (b * b) + 4 * (a * a) ≤ 2147483647) :
    b * b * (4 * s.x + 6) ≤ 2147483647 ∧
      (0 ≤ s.sigma → (nextLoop (b * b) (4 * (a * a)) s).sigma ≤ 2147483647) := by
  have hA : 0 < a * a := Int.mul_pos (by omega) (by omega)
  have hB : 0 < b * b := Int.mul_pos (by omega) (by omega)
  have hform : b * b * (4 * s.x + 6) = 4 * (b * b * s.x) + 6 * (b * b) := by ring
  constructor
  · rw [hform]
    omega
  · intro hout
    have hdown := hwalk.decision_down hflat
    rw [nextLoop, if_pos hout]
    dsimp only
    rw [hform]
    omega

theorem long_fits (hb : 1 ≤ b) (hab : b ≤ a) (hmost : a ≤ 16385) (hdown : a * a * (b - 1) ≤ 536870912) :
    HalfFits a b := by
  have ha : 1 ≤ a := by omega
  have hA := square_le (a := a) ⟨by omega, hmost⟩
  have hB : b * b ≤ a * a := Int.mul_le_mul hab hab (by omega) (by omega)
  have hrow : a * a * b ≤ 2147483647 := by linarith
  refine ⟨⟨ha, hmost, hb, by omega⟩, ?_, hrow, hdown, ?_⟩
  · have haxes : a * b * b ≤ a * b * a :=
      Int.mul_le_mul_of_nonneg_left hab (Int.mul_nonneg (by omega) (by omega))
    linarith
  · intro s hwalk hflat
    have hinside := (hwalk.inside hflat).1
    apply added_of_column ha hb hwalk hflat
    by_cases hshort : b ≤ 16
    · have hx : s.x < a := column_lt (by omega) (Int.mul_pos (by omega) (by omega)) hinside
      have hsquare : b * b ≤ 256 := le_trans (Int.mul_le_mul hshort hshort (by omega) (by omega)) (by decide)
      have hterm : b * b * s.x ≤ 256 * s.x := Int.mul_le_mul_of_nonneg_right hsquare hwalk.column
      omega
    · have hcolumn := column_long (by omega) hab hflat hinside
      have hlong : a * a * 17 ≤ a * a * b := Int.mul_le_mul_of_nonneg_left (by omega) (mul_self_nonneg a)
      have hpositive : 0 < a * a := Int.mul_pos (by omega) (by omega)
      linarith

theorem short_fits (ha : 4 ≤ a) (hab : a ≤ b) (hdown : b * b * (a - 1) ≤ 536870912) : HalfFits a b := by
  have hbt : b ≤ 16385 := by
    by_contra hlong
    have hsquare : 16386 * 16386 ≤ b * b := Int.mul_le_mul (by omega) (by omega) (by omega) (by omega)
    have hterm : b * b * 3 ≤ b * b * (a - 1) := Int.mul_le_mul_of_nonneg_left (by omega) (mul_self_nonneg b)
    omega
  have hB := square_le (a := b) ⟨by omega, hbt⟩
  have hA : a * a ≤ b * b := Int.mul_le_mul hab hab (by omega) (by omega)
  have hthird : b * b * 3 ≤ b * b * (a - 1) := Int.mul_le_mul_of_nonneg_left (by omega) (mul_self_nonneg b)
  have haxes : a * b * a ≤ a * b * b := Int.mul_le_mul_of_nonneg_left hab (Int.mul_nonneg (by omega) (by omega))
  have hcolumn : b * b * a ≤ 2147483647 := by linarith
  refine ⟨⟨by omega, by omega, by omega, hbt⟩, hcolumn, by linarith, ?_, ?_⟩
  · -- the longer axis weighs more when it is the one that is squared
    have hgain : 0 ≤ (b - a) * (a * b - a - b) := by
      have hproduct : 4 * b ≤ a * b := Int.mul_le_mul_of_nonneg_right ha (by omega)
      exact Int.mul_nonneg (by omega) (by omega)
    linarith
  · intro s hwalk hflat
    have hinside := (hwalk.inside hflat).1
    apply added_of_column (by omega) (by omega) hwalk hflat
    have hrow : a * a * s.y ≤ a * a * b := Int.mul_le_mul_of_nonneg_left hwalk.top (mul_self_nonneg a)
    have hslope := hflat
    rw [Flat] at hslope
    by_cases hsmall : a ≤ 32
    · have hsquare : a * a ≤ 1024 := le_trans (Int.mul_le_mul hsmall hsmall (by omega) (by omega)) (by decide)
      have hterm : a * a * b ≤ 1024 * b := Int.mul_le_mul_of_nonneg_right hsquare (by omega)
      omega
    · have hlong : b * b * 33 ≤ b * b * a := Int.mul_le_mul_of_nonneg_left (by omega) (mul_self_nonneg b)
      have hpositive : 0 < b * b := Int.mul_pos (by omega) (by omega)
      by_cases hnear : 3 * b ≤ 4 * a
      · have hleft := column_short (by omega) hnear hflat hinside
        linarith
      · have hfar : a * b * (4 * a) ≤ a * b * (3 * b) :=
          Int.mul_le_mul_of_nonneg_left (by omega) (Int.mul_nonneg (by omega) (by omega))
        linarith

theorem tiny_fits (ha : 1 ≤ a) (hsmall : a ≤ 3) (hab : a ≤ b) (hmost : b ≤ 16383 + a) (hthree : a = 3 → b ≤ 16384) :
    HalfFits a b := by
  have hbt : b ≤ 16385 := by omega
  have hB := square_le (a := b) ⟨by omega, hbt⟩
  have hA : a * a ≤ 9 := le_trans (Int.mul_le_mul hsmall hsmall (by omega) (by omega)) (by decide)
  have hcolumn : b * b * a ≤ b * b * 3 := Int.mul_le_mul_of_nonneg_left hsmall (mul_self_nonneg b)
  have hrow : a * a * b ≤ 9 * b := Int.mul_le_mul_of_nonneg_right hA (by omega)
  have hdown : a * a * (b - 1) ≤ 9 * (b - 1) := Int.mul_le_mul_of_nonneg_right hA (by omega)
  refine ⟨⟨ha, by omega, by omega, hbt⟩, by omega, by omega, by omega, ?_⟩
  intro s hwalk hflat
  obtain ⟨hinside, hbottom⟩ := hwalk.inside hflat
  have hstart := hwalk.column
  by_cases hlong : b ≤ 9
  · apply added_of_column ha (by omega) hwalk hflat
    have hx : s.x < a := column_lt (by omega) (Int.mul_pos (by omega) (by omega)) hinside
    have hsquare : b * b ≤ 81 := le_trans (Int.mul_le_mul hlong hlong (by omega) (by omega)) (by decide)
    have hterm : b * b * s.x ≤ 81 * s.x := Int.mul_le_mul_of_nonneg_right hsquare hwalk.column
    omega
  · have hfirst : s.x = 0 := by
      by_contra hlater
      have hone : b * b * 1 ≤ b * b * s.x := Int.mul_le_mul_of_nonneg_left (by omega) (mul_self_nonneg b)
      have hslope := hflat
      rw [Flat] at hslope
      have htop : a * a * s.y ≤ a * a * b := Int.mul_le_mul_of_nonneg_left hwalk.top (mul_self_nonneg a)
      have hten : b * 10 ≤ b * b := Int.mul_le_mul_of_nonneg_left (by omega) (by omega)
      omega
    have hwalk' := hwalk
    rw [hfirst] at hwalk' hflat
    have htop := first_row (by omega) hwalk' hflat
    have hdecision := hwalk'.decision
    rw [htop, Int.zero_add, mid_start] at hdecision
    constructor
    · rw [hfirst]
      omega
    · intro hout
      rw [nextLoop, if_pos hout]
      dsimp only
      rw [hdecision, htop, hfirst]
      have hcases : a = 1 ∨ a = 2 ∨ a = 3 := by omega
      rcases hcases with rfl | rfl | rfl
      · have hsquare : b * b ≤ 16384 * b := Int.mul_le_mul_of_nonneg_right (by omega) (by omega)
        omega
      · have hsquare : b * b ≤ 16385 * b := Int.mul_le_mul_of_nonneg_right (by omega) (by omega)
        omega
      · have hlast := hthree rfl
        have hsquare : b * b ≤ 16384 * b := Int.mul_le_mul_of_nonneg_right hlast (by omega)
        omega

end

/-! ### Both halves -/

section

variable {first second : Loop → List Plot}

theorem squares_kept {width height : Int} (hw : 0 ≤ width ∧ width ≤ 16385) (hh : 0 ≤ height ∧ height ≤ 16385) :
    SquaresKept int32 width height := by
  have hA := square_le hw
  have hB := square_le hh
  have hApos := mul_self_nonneg width
  have hBpos := mul_self_nonneg height
  constructor
  · exact int32_ok ⟨by omega, by omega⟩
  · exact int32_ok ⟨by omega, by omega⟩
  · exact int32_ok ⟨by omega, by omega⟩
  · exact int32_ok ⟨by omega, by omega⟩

theorem halves_fit {width height : Int} (h : HalfFits width height) (h' : HalfFits height width) :
    ∃ plots, bothHalves int32 first second width height = .ok plots := by
  obtain ⟨hw, hwt, hh, hht⟩ := h.axes
  obtain ⟨hstart, hin⟩ := start_kept h
  obtain ⟨hstart', hin'⟩ := start_kept h'
  obtain ⟨hupper, hrounds⟩ :=
    halfLoop_rounds (half_carries h) first (n := (width + height + 2).toNat) hin (by dsimp only; omega)
  dsimp only at hrounds
  have hside := (halfLoop_rounds (half_carries h') second
    (n := (width + height + 2).toNat - (rounds (width * width) (height * height) (4 * (width * width))
      (width + height + 2).toNat ⟨0, height, 2 * (height * height) + width * width * (1 - 2 * height)⟩).length)
    hin' (by dsimp only; omega)).1
  exact ⟨_, bothHalves_eq (squares_kept ⟨by omega, hwt⟩ ⟨by omega, hht⟩) hstart hupper hstart' hside⟩

theorem start_thin {b : Int} (hb : 0 ≤ b) (hmost : b ≤ 16383) :
    startSigma int32 (0 * 0) (b * b) b = .ok (2 * (b * b)) ∧ startSigma int32 (b * b) (0 * 0) 0 = .ok (b * b) := by
  have hB : b * b ≤ 268402689 := le_trans (Int.mul_le_mul hmost hmost hb (by omega)) (by decide)
  have hpositive := mul_self_nonneg b
  constructor
  · apply startSigma_eq
    · exact int32_ok ⟨by omega, by omega⟩
    · exact int32_ok ⟨by omega, by omega⟩
    · exact int32_ok ⟨by omega, by omega⟩
    · exact int32_ok ⟨by omega, by omega⟩
    · have hform : 2 * (b * b) + 0 * 0 * (1 - 2 * b) = 2 * (b * b) := by ring
      rw [hform]
      exact int32_ok ⟨by omega, by omega⟩
  · apply startSigma_eq
    · exact int32_ok ⟨by omega, by omega⟩
    · exact int32_ok ⟨by omega, by omega⟩
    · exact int32_ok ⟨by omega, by omega⟩
    · exact int32_ok ⟨by omega, by omega⟩
    · have hform : 2 * (0 * 0) + b * b * (1 - 2 * 0) = b * b := by ring
      rw [hform]
      exact int32_ok ⟨by omega, by omega⟩

theorem thin_kept {b : Int} (hb : 0 ≤ b) (hmost : b ≤ 16383) (v : Int) (hlow : -(8 * (b * b)) ≤ v)
    (hhigh : v ≤ 8 * (b * b) + 8) : int32 v = .ok v := by
  have hB : b * b ≤ 268402689 := le_trans (Int.mul_le_mul hmost hmost hb (by omega)) (by decide)
  exact int32_ok ⟨by omega, by omega⟩

theorem flat_fits {width : Int} (hw : 1 ≤ width) (hmost : width ≤ 16383) :
    ∃ plots, bothHalves int32 first second width 0 = .ok plots := by
  obtain ⟨hside, hupper⟩ := start_thin (b := width) (by omega) hmost
  have hkeep := thin_kept (b := width) (by omega) hmost
  have hfirst := halfLoop_flat first width.toNat hw hkeep
  have hsecond := halfLoop_thin second (width.toNat - 1) hw hkeep
  have hfuel : (width + 0 + 2).toNat = width.toNat + 2 := by omega
  have hleft : width.toNat - 1 + 2 = width.toNat + 1 := by omega
  rw [← hfuel] at hfirst
  rw [hleft] at hsecond
  exact ⟨_, bothHalves_eq (squares_kept ⟨by omega, by omega⟩ ⟨by omega, by omega⟩) hupper hfirst hside hsecond⟩

theorem thin_fits {height : Int} (hh : 1 ≤ height) (hmost : height ≤ 16383) :
    ∃ plots, bothHalves int32 first second 0 height = .ok plots := by
  obtain ⟨hupper, hside⟩ := start_thin (b := height) (by omega) hmost
  have hkeep := thin_kept (b := height) (by omega) hmost
  have hfirst := halfLoop_thin first height.toNat hh hkeep
  have hsecond := halfLoop_flat second (height.toNat - 1) hh hkeep
  have hfuel : (0 + height + 2).toNat = height.toNat + 2 := by omega
  have hleft : height.toNat - 1 + 2 = height.toNat + 1 := by omega
  rw [← hfuel] at hfirst
  rw [hleft] at hsecond
  exact ⟨_, bothHalves_eq (squares_kept ⟨by omega, by omega⟩ ⟨by omega, by omega⟩) hupper hfirst hside hsecond⟩

theorem fits_halves {m M : Nat} (hm : 1 ≤ m) (hmM : m ≤ M) (hfit : AxesFit M m) :
    HalfFits M m ∧ HalfFits m M := by
  rw [AxesFit, Nat.min_eq_right hmM, Nat.max_eq_left hmM] at hfit
  by_cases hsmall : m < 3
  · rw [if_pos hsmall] at hfit
    have hM : (M : Int) ≤ 16385 := by omega
    have hdown : (M : Int) * M * ((m : Int) - 1) ≤ M * M * 1 :=
      Int.mul_le_mul_of_nonneg_left (by omega) (mul_self_nonneg _)
    have hsquare := square_le (a := M) ⟨by omega, hM⟩
    exact ⟨long_fits (by omega) (by omega) hM (by omega),
      tiny_fits (by omega) (by omega) (by omega) (by omega) (by omega)⟩
  · rw [if_neg hsmall] at hfit
    have hcast : ((M ^ 2 * (m - 1) : Nat) : Int) = M * M * ((m : Int) - 1) := by
      rw [Nat.cast_mul, Nat.cast_pow, Nat.cast_sub hm, pow_two, Nat.cast_one]
    have hdown : (M : Int) * M * ((m : Int) - 1) ≤ 536870912 := by
      rw [← hcast]
      exact_mod_cast hfit
    have hM : (M : Int) ≤ 16384 := by
      by_contra hlong
      have hsquare : (16385 : Int) * 16385 ≤ M * M := Int.mul_le_mul (by omega) (by omega) (by omega) (by omega)
      have hterm : (M : Int) * M * 2 ≤ M * M * ((m : Int) - 1) :=
        Int.mul_le_mul_of_nonneg_left (by omega) (mul_self_nonneg _)
      omega
    refine ⟨long_fits (by omega) (by omega) (by omega) hdown, ?_⟩
    by_cases hthree : m = 3
    · exact tiny_fits (by omega) (by omega) (by omega) (by omega) (fun _ => hM)
    · exact short_fits (by omega) (by omega) hdown

theorem axesFit_comm (width height : Nat) : AxesFit width height ↔ AxesFit height width := by
  rw [AxesFit, AxesFit, Nat.min_comm, Nat.max_comm]

theorem axes_drawn {width height : Nat} (hfit : AxesFit width height) (hsome : ¬(width = 0 ∧ height = 0)) :
    ∃ plots, bothHalves int32 first second width height = .ok plots := by
  by_cases hw : width = 0
  · subst hw
    rw [AxesFit, if_pos (by omega)] at hfit
    exact thin_fits (by omega) (by omega)
  · by_cases hh : height = 0
    · subst hh
      rw [AxesFit, if_pos (by omega)] at hfit
      exact flat_fits (by omega) (by omega)
    · rcases Nat.le_total height width with hle | hle
      · obtain ⟨hlong, hshort⟩ := fits_halves (by omega) hle hfit
        exact halves_fit hlong hshort
      · obtain ⟨hlong, hshort⟩ := fits_halves (by omega) hle ((axesFit_comm _ _).mp hfit)
        exact halves_fit hshort hlong

end

/-! ### What overflows -/

section

variable {plot : Loop → List Plot} {a b : Int}

theorem long_overflows (hb : 1 ≤ b) (hab : b ≤ a) {n : Nat} {x : Int} (hx : 0 ≤ x) (hleft : x + 1 ≤ a)
    {r : List Plot × Nat}
    (h : halfLoop int32 plot (a * a) (b * b) (4 * (a * a)) n ⟨x, b, mid (a * a) (b * b) (x + 1) b⟩ = .ok r) :
    a * a * (b - 1) ≤ 536870912 := by
  have hflat : Flat (a * a) (b * b) x b := by
    have hcolumn : b * b * x ≤ b * b * a := Int.mul_le_mul_of_nonneg_left (by omega) (mul_self_nonneg b)
    have haxes : a * b * b ≤ a * b * a :=
      Int.mul_le_mul_of_nonneg_left hab (Int.mul_nonneg (by omega) (by omega))
    rw [Flat]
    linarith
  obtain ⟨m, next, r', hadvance, hrest⟩ := halfLoop_first h hflat
  obtain ⟨hnext, -, hdown⟩ := advance_kept hadvance
  by_cases hout : 0 ≤ mid (a * a) (b * b) (x + 1) b
  · have hterm := (hdown hout).1
    dsimp only at hterm
    linarith
  · -- a column further; at the last one the decision says outside
    have hlast : x + 1 ≠ a := by
      intro hlast
      apply hout
      have hform : mid (a * a) (b * b) a b = a * a * (b * b + (b - 1) * (b - 1)) := by
        rw [mid]
        ring
      rw [hlast, hform]
      exact Int.mul_nonneg (mul_self_nonneg a) (Int.add_nonneg (mul_self_nonneg b) (mul_self_nonneg _))
    have hsame : next = ⟨x + 1, b, mid (a * a) (b * b) (x + 1 + 1) b⟩ := by
      rw [hnext, nextLoop, if_neg hout, mid_right _ _ (x + 1)]
      dsimp only
      congr 1
      ring
    rw [hsame] at hrest
    exact long_overflows hb hab (by omega) (by omega) hrest
  termination_by (a - x).toNat

theorem tiny_overflows (ha : 0 ≤ a) (hsmall : a ≤ 2) {n : Nat} {r : List Plot × Nat} (hb : 0 ≤ b)
    (h : halfLoop int32 plot (a * a) (b * b) (4 * (a * a)) n ⟨0, b, 2 * (b * b) + a * a * (1 - 2 * b)⟩ = .ok r) :
    b ≤ 16383 + a := by
  by_contra hlong
  have hflat : Flat (a * a) (b * b) 0 b := by
    rw [Flat, Int.mul_zero]
    exact Int.mul_nonneg (mul_self_nonneg a) hb
  obtain ⟨m, next, r', hadvance, -⟩ := halfLoop_first h hflat
  obtain ⟨hnext, hin, -⟩ := advance_kept hadvance
  have hmost := hin.2
  have hsquare : 16384 * b ≤ b * b := Int.mul_le_mul_of_nonneg_right (by omega) hb
  have hcases : a = 0 ∨ a = 1 ∨ a = 2 := by omega
  rcases hcases with rfl | rfl | rfl
  · rw [hnext, nextLoop, if_pos (by dsimp only; omega)] at hmost
    dsimp only at hmost
    omega
  · have hsquare : 16385 * b ≤ b * b := Int.mul_le_mul_of_nonneg_right (by omega) hb
    rw [hnext, nextLoop, if_pos (by dsimp only; omega)] at hmost
    dsimp only at hmost
    omega
  · have hsquare : 16386 * b ≤ b * b := Int.mul_le_mul_of_nonneg_right (by omega) hb
    rw [hnext, nextLoop, if_pos (by dsimp only; omega)] at hmost
    dsimp only at hmost
    omega

theorem startSigma_kept {a2 b2 height sigma : Int} (h : startSigma int32 a2 b2 height = .ok sigma) :
    sigma = 2 * b2 + a2 * (1 - 2 * height) := by
  rw [startSigma] at h
  obtain ⟨left, hleft, h⟩ := bind_ok.mp h
  obtain ⟨twice, htwice, h⟩ := bind_ok.mp h
  obtain ⟨rest, hrest, h⟩ := bind_ok.mp h
  obtain ⟨right, hright, h⟩ := bind_ok.mp h
  rw [(int32_kept h).1, (int32_kept hleft).1, (int32_kept hright).1, (int32_kept hrest).1, (int32_kept htwice).1]

theorem bothHalves_kept {first second : Loop → List Plot} {plots : List Plot}
    (h : bothHalves int32 first second a b = .ok plots) :
    ∃ n n' r r',
      halfLoop int32 first (a * a) (b * b) (4 * (a * a)) n ⟨0, b, 2 * (b * b) + a * a * (1 - 2 * b)⟩ = .ok r ∧
      halfLoop int32 second (b * b) (a * a) (4 * (b * b)) n' ⟨0, a, 2 * (a * a) + b * b * (1 - 2 * a)⟩ = .ok r' := by
  rw [bothHalves] at h
  obtain ⟨a2, ha2, h⟩ := bind_ok.mp h
  obtain ⟨b2, hb2, h⟩ := bind_ok.mp h
  obtain ⟨fa2, hfa2, h⟩ := bind_ok.mp h
  obtain ⟨fb2, hfb2, h⟩ := bind_ok.mp h
  obtain ⟨sigma, hsigma, h⟩ := bind_ok.mp h
  obtain ⟨upper, hupper, h⟩ := bind_ok.mp h
  obtain ⟨sigma', hsigma', h⟩ := bind_ok.mp h
  obtain ⟨side, hside, -⟩ := bind_ok.mp h
  rw [startSigma_kept hsigma, (int32_kept hfa2).1, (int32_kept ha2).1, (int32_kept hb2).1] at hupper
  rw [startSigma_kept hsigma', (int32_kept hfb2).1, (int32_kept ha2).1, (int32_kept hb2).1] at hside
  exact ⟨_, _, _, _, hupper, hside⟩

theorem halves_axesFit {m M : Nat} (hmM : m ≤ M) {plot' : Loop → List Plot} {n n' : Nat} {r r' : List Plot × Nat}
    (hlong : halfLoop int32 plot ((M : Int) * M) ((m : Int) * m) (4 * ((M : Int) * M)) n
      ⟨0, m, 2 * ((m : Int) * m) + M * M * (1 - 2 * m)⟩ = .ok r)
    (hshort : halfLoop int32 plot' ((m : Int) * m) ((M : Int) * M) (4 * ((m : Int) * m)) n'
      ⟨0, M, 2 * ((M : Int) * M) + m * m * (1 - 2 * M)⟩ = .ok r') : AxesFit M m := by
  rw [AxesFit, Nat.min_eq_right hmM, Nat.max_eq_left hmM]
  by_cases hsmall : m < 3
  · rw [if_pos hsmall]
    have hmost := tiny_overflows (by omega) (by omega) (by omega) hshort
    omega
  · rw [if_neg hsmall]
    rw [← mid_start] at hlong
    have hdown := long_overflows (x := 0) (by omega) (by omega) (by omega) (by omega) hlong
    have hcast : ((M ^ 2 * (m - 1) : Nat) : Int) = M * M * ((m : Int) - 1) := by
      rw [Nat.cast_mul, Nat.cast_pow, Nat.cast_sub (by omega), pow_two, Nat.cast_one]
    rw [← hcast] at hdown
    exact_mod_cast hdown

theorem drawn_axesFit {first second : Loop → List Plot} {width height : Nat} {plots : List Plot}
    (h : bothHalves int32 first second width height = .ok plots) : AxesFit width height := by
  obtain ⟨n, n', r, r', hupper, hside⟩ := bothHalves_kept h
  rcases Nat.le_total height width with hle | hle
  · exact halves_axesFit hle hupper hside
  · exact (axesFit_comm _ _).mp (halves_axesFit hle hside hupper)

end

/-- An ellipse is drawn, and filled, without an overflow and within as many rounds as both axes have pixels and two
more, exactly if its axes are not too long for each other. -/
theorem ellipse_in_range_iff (xc yc : Int) (width height : Nat) :
    ((∃ plots, drawNormalEllipse int32 xc yc width height = .ok plots) ↔ AxesFit width height) ∧
      ((∃ plots, fillNormalEllipse int32 xc yc width height = .ok plots) ↔ AxesFit width height) := by
  rw [drawNormalEllipse, fillNormalEllipse]
  by_cases hpoint : width = 0 ∧ height = 0
  · obtain ⟨rfl, rfl⟩ := hpoint
    have hfit : AxesFit 0 0 := by decide
    rw [if_pos ⟨rfl, rfl⟩, if_pos ⟨rfl, rfl⟩]
    exact ⟨⟨fun _ => hfit, fun _ => ⟨_, rfl⟩⟩, ⟨fun _ => hfit, fun _ => ⟨_, rfl⟩⟩⟩
  · have hsome : ¬((width : Int) = 0 ∧ (height : Int) = 0) := by omega
    rw [if_neg hsome, if_neg hsome]
    constructor
    · exact ⟨fun ⟨_, h⟩ => drawn_axesFit h, fun h => axes_drawn h hpoint⟩
    · exact ⟨fun ⟨_, h⟩ => drawn_axesFit h, fun h => axes_drawn h hpoint⟩

/-- The semi-axes of `PLOT 192` and `PLOT 200`, for graphics coordinates of the centre, of a point whose column is
the end of the one axis, and of a point whose row is the end of the other. -/
def plotAxes (xeigfactor yeigfactor : Nat) (xLast2 xLast1 yLast2 y : Int) : Nat × Nat :=
  ((xLast1 >>> xeigfactor - xLast2 >>> xeigfactor).natAbs, (y >>> yeigfactor - yLast2 >>> yeigfactor).natAbs)

/-- A circle of a thousand pixels, most of it off the screen. -/
theorem ellipse_overflows :
    plotAxes 1 1 0 2000 0 2000 = (1000, 1000) ∧ drawNormalEllipse int32 0 0 1000 1000 = .error .overflow ∧
      fillNormalEllipse int32 0 0 1000 1000 = .error .overflow := by
  decide +kernel

end Pi1MHz.VduEllipse
