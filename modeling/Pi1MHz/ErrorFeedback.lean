import Mathlib.Algebra.BigOperators.Group.List.Basic
import Mathlib.Tactic.LinearCombination

/-!
# Quantising with error feedback

Each value is divided by a step, and what the division leaves is added to the next value.  Over any run the sum
of what comes out is the sum of what went in but for the remainder that is carried: nothing is lost, only late.
-/

namespace Pi1MHz.ErrorFeedback

/-- Values quantised by steps of `q`, from the carried remainder `e`: the quotients, and the remainder left. -/
def quantise (q : Int) : Int → List Int → List Int × Int
  | e, [] => ([], e)
  | e, v :: rest =>
    let next := quantise q ((v + e) % q) rest
    ((v + e) / q :: next.1, next.2)

section

variable {q : Int}

theorem quantise_remainder (hq : 0 < q) (e : Int) (values : List Int) (he : 0 ≤ e ∧ e < q) :
    0 ≤ (quantise q e values).2 ∧ (quantise q e values).2 < q := by
  induction values generalizing e with
  | nil => exact he
  | cons v rest ih =>
    apply ih
    exact ⟨Int.emod_nonneg _ hq.ne', Int.emod_lt_of_pos _ hq⟩

theorem quantise_sum (q e : Int) (values : List Int) :
    q * (quantise q e values).1.sum + (quantise q e values).2 = values.sum + e := by
  induction values generalizing e with
  | nil => simp [quantise]
  | cons v rest ih =>
    have hdivision := Int.mul_ediv_add_emod (v + e) q
    have hrest := ih ((v + e) % q)
    simp only [quantise, List.sum_cons]
    linear_combination hdivision + hrest

end

end Pi1MHz.ErrorFeedback
