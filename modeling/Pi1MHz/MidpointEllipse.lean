import Mathlib.Tactic.Ring
import Mathlib.Tactic.Linarith

/-!
# The midpoint ellipse

A half of an ellipse with semi-axes whose squares are `A` and `B`, drawn column by column: at a column the row
is the one next to the curve, found by the sign of the ellipse's form `B x² + A y² - A B` between two rows.
-/

namespace Pi1MHz.MidpointEllipse

/-- The form at `(x, y)` and at `(x, y - 1)`, added. -/
def mid (A B x y : Int) : Int := 2 * B * (x * x) + A * (2 * (y * y) - 2 * y + 1) - 2 * A * B

/-- The slope at `(x, y)` is at most one. -/
def Flat (A B x y : Int) : Prop := B * x ≤ A * y

instance (A B x y : Int) : Decidable (Flat A B x y) := by
  rw [Flat]
  infer_instance

section

variable {A B x y : Int}

theorem mid_right (A B x y : Int) : mid A B (x + 1) y = mid A B x y + B * (4 * x + 2) := by
  rw [mid, mid]
  ring

theorem mid_down (A B x y : Int) : mid A B x (y - 1) = mid A B x y + 4 * A * (1 - y) := by
  rw [mid, mid]
  ring

theorem mid_start (A b : Int) : mid A (b * b) 1 b = 2 * (b * b) + A * (1 - 2 * b) := by
  rw [mid]
  ring

theorem mid_right_le (hB : 0 ≤ B) (hx : 0 ≤ x) : mid A B x y ≤ mid A B (x + 1) y := by
  have hstep : 0 ≤ B * (4 * x + 2) := Int.mul_nonneg hB (by omega)
  rw [mid_right]
  omega

structure Walk (A B b x y sigma : Int) : Prop where
  column : 0 ≤ x
  top : y ≤ b
  decision : sigma = mid A B (x + 1) y
  outside : 0 ≤ mid A B x (y + 1)
  inside : Flat A B x y → mid A B x y < 0 ∧ 1 ≤ y

theorem walk_start {b : Int} (hA : 0 < A) (hb : 1 ≤ b) :
    Walk A (b * b) b 0 b (2 * (b * b) + A * (1 - 2 * b)) where
  column := Int.le_refl 0
  top := Int.le_refl b
  decision := (mid_start A b).symm
  outside := by
    have hform : mid A (b * b) 0 (b + 1) = A * (2 * b + 1) := by
      rw [mid]
      ring
    rw [hform]
    exact Int.mul_nonneg (by omega) (by omega)
  inside := by
    intro _
    have hform : mid A (b * b) 0 b = -(A * (2 * b - 1)) := by
      rw [mid]
      ring
    have hpositive : 0 < A * (2 * b - 1) := Int.mul_pos hA (by omega)
    rw [hform]
    omega

section Step

variable {b sigma : Int}

theorem Walk.stay (h : Walk A B b x y sigma) (hB : 0 ≤ B) (hflat : Flat A B x y) (hsigma : sigma < 0) :
    Walk A B b (x + 1) y (sigma + B * (4 * x + 6)) where
  column := by
    have hx := h.column
    omega
  top := h.top
  decision := by
    rw [h.decision, mid_right A B (x + 1)]
    ring
  outside := le_trans h.outside (mid_right_le hB h.column)
  inside := by
    intro _
    rw [← h.decision]
    exact ⟨hsigma, (h.inside hflat).2⟩

theorem Walk.down (h : Walk A B b x y sigma) (hA : 0 ≤ A) (hB : 0 < B) (hflat : Flat A B x y)
    (hsigma : 0 ≤ sigma) : Walk A B b (x + 1) (y - 1) (sigma + 4 * A * (1 - y) + B * (4 * x + 6)) where
  column := by
    have hx := h.column
    omega
  top := by
    have hy := h.top
    omega
  decision := by
    rw [h.decision, mid_right A B (x + 1), mid_down A B (x + 1)]
    ring
  outside := by
    rw [Int.sub_add_cancel, ← h.decision]
    exact hsigma
  inside := by
    intro hnext
    have hinside := (h.inside hflat).1
    have hmid : mid A B (x + 1) (y - 1) = mid A B x y + B * (4 * x + 2) + 4 * A * (1 - y) := by
      rw [mid_down, mid_right]
    have hslope : B * x + B ≤ A * y - A := by
      rw [Flat] at hnext
      linarith
    constructor
    · rw [hmid]
      linarith
    · by_contra hlow
      have hrow : A * (y - 1) ≤ 0 := Int.mul_nonpos_of_nonneg_of_nonpos hA (by omega)
      have hcolumn : 0 ≤ B * x := Int.mul_nonneg (by omega) h.column
      linarith

theorem Walk.decision_down (h : Walk A B b x y sigma) (hflat : Flat A B x y) :
    sigma + 4 * A * (1 - y) < 2 * B + 4 * A := by
  have hinside := (h.inside hflat).1
  have hdecision := h.decision
  rw [mid_right] at hdecision
  rw [Flat] at hflat
  linarith

end Step

theorem column_lt {a : Int} (ha : 0 ≤ a) (hB : 0 < B) (hinside : mid (a * a) B x y < 0) : x < a := by
  by_contra hbeyond
  have hsquare : a * a ≤ x * x := Int.mul_self_le_mul_self ha (by omega)
  have hrow : 0 ≤ a * a * (2 * (y * y) - 2 * y + 1) := by
    have hterm : 0 ≤ y * y + (y - 1) * (y - 1) := Int.add_nonneg (mul_self_nonneg y) (mul_self_nonneg _)
    exact Int.mul_nonneg (mul_self_nonneg a) (by linarith)
  have hcolumn : B * (a * a) ≤ B * (x * x) := Int.mul_le_mul_of_nonneg_left hsquare (by omega)
  rw [mid] at hinside
  linarith

end

end Pi1MHz.MidpointEllipse
