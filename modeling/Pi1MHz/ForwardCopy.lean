import Mathlib.Order.Basic
import Mathlib.Logic.Function.Basic

/-!
# Copying downwards, front to back

A stretch of memory is moved to lower addresses block by block, the lowest first.  The blocks may have any
size, also more than the distance of the move: a block is read before it is written, and what is still to be
read lies above everything that has been written.
-/

namespace ForwardCopy

variable {V : Type*}

/-- `k` places from `src` on are read, then written from `dst` on. -/
def block (k dst src : Int) (m : Int → V) : Int → V :=
  fun a => if dst ≤ a ∧ a < dst + k then m (a - dst + src) else m a

/-- The first `n` places have what stood `off` places above. -/
def shifted (n off : Int) (m : Int → V) : Int → V := fun a => if 0 ≤ a ∧ a < n then m (a + off) else m a

theorem block_other {k dst src a : Int} (h : a < dst ∨ dst + k ≤ a) (m : Int → V) : block k dst src m a = m a := by
  rw [block, if_neg]
  omega

theorem shifted_empty {n : Int} (h : n ≤ 0) (off : Int) (m : Int → V) : shifted n off m = m := by
  funext a
  rw [shifted, if_neg]
  omega

theorem shifted_of_lt {n a : Int} (h0 : 0 ≤ a) (h : a < n) (off : Int) (m : Int → V) :
    shifted n off m a = m (a + off) := if_pos ⟨h0, h⟩

theorem shifted_of_le {n a : Int} (h : n ≤ a) (off : Int) (m : Int → V) : shifted n off m a = m a := by
  rw [shifted, if_neg]
  omega

theorem block_shifted {n k off : Int} (hn : 0 ≤ n) (hk : 0 ≤ k) (hoff : 0 ≤ off) (m : Int → V) :
    block k n (n + off) (shifted n off m) = shifted (n + k) off m := by
  funext a
  rw [block]
  split
  next ha =>
    have hsrc : a - n + (n + off) = a + off := by omega
    rw [hsrc, shifted_of_le (by omega), shifted_of_lt (by omega) ha.2]
  next ha =>
    rcases Int.lt_or_le a n with hlt | hle
    · rcases Int.lt_or_le a 0 with hneg | hnonneg
      · rw [shifted, if_neg (by omega), shifted, if_neg (by omega)]
      · rw [shifted_of_lt hnonneg hlt, shifted_of_lt hnonneg (by omega)]
    · rw [shifted_of_le hle, shifted_of_le (by omega)]

theorem shifted_differ {n n' off : Int} (hn : 0 ≤ n) (hlt : n < n') (hoff : 0 < off) {u v : V} (huv : u ≠ v) :
    shifted n off (Function.update (fun _ => u) (n + off) v) n ≠
      shifted n' off (Function.update (fun _ => u) (n + off) v) n := by
  rw [shifted_of_le (Int.le_refl n), shifted_of_lt hn hlt, Function.update_self, Function.update_of_ne (by omega)]
  exact huv

end ForwardCopy
