import Mathlib.Algebra.Order.Ring.Abs
import Mathlib.Algebra.Order.Ring.Int
import Mathlib.Tactic.Linarith

/-!
# Signed arithmetic of 32 bits

A value of a C expression of type `int32_t`, kept while 32 bits hold it and without a meaning beyond.  Bounds on
magnitudes (`Within`) go through sums and products, so that a chain of operations is known to stay inside from
the bounds of what goes into it.
-/

namespace Pi1MHz.CheckedInt

def InInt (v : Int) : Prop := -2147483648 ≤ v ∧ v ≤ 2147483647

instance (v : Int) : Decidable (InInt v) := inferInstanceAs (Decidable (_ ∧ _))

def int32 (v : Int) : Option Int := if InInt v then some v else none

theorem int32_ok {v : Int} (h : InInt v) : int32 v = some v := if_pos h

theorem int32_overflow {v : Int} (h : ¬InInt v) : int32 v = none := if_neg h

theorem int32_bind_some {α : Type*} {v : Int} {f : Int → Option α} {r : α} (h : (int32 v).bind f = some r) :
    InInt v ∧ f v = some r := by
  by_cases hv : InInt v
  · rw [int32_ok hv] at h
    exact ⟨hv, h⟩
  · rw [int32_overflow hv] at h
    cases h

/-- The magnitude is at most `b`. -/
def Within (b v : Int) : Prop := -b ≤ v ∧ v ≤ b

instance (b v : Int) : Decidable (Within b v) := inferInstanceAs (Decidable (_ ∧ _))

section

variable {a b v w : Int}

theorem Within.mono (h : Within a v) (hab : a ≤ b) : Within b v := by
  constructor
  · linarith [h.1]
  · linarith [h.2]

theorem Within.add (hv : Within a v) (hw : Within b w) : Within (a + b) (v + w) := by
  constructor
  · linarith [hv.1, hw.1]
  · linarith [hv.2, hw.2]

theorem Within.neg (h : Within a v) : Within a (-v) := by
  constructor
  · linarith [h.2]
  · linarith [h.1]

theorem Within.mul (hv : Within a v) (hw : Within b w) : Within (a * b) (v * w) := by
  have hv' : |v| ≤ a := abs_le.mpr hv
  have hw' : |w| ≤ b := abs_le.mpr hw
  have hproduct : |v * w| ≤ a * b := by
    rw [abs_mul]
    exact mul_le_mul hv' hw' (abs_nonneg w) ((abs_nonneg v).trans hv')
  exact abs_le.mp hproduct

theorem Within.inInt (h : Within b v) (hb : b ≤ 2147483647) : InInt v := by
  constructor
  · linarith [h.1]
  · linarith [h.2]

end

end Pi1MHz.CheckedInt
