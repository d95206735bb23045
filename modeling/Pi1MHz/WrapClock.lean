import Mathlib.Algebra.Order.Ring.Nat

/-!
# Deadlines on a 32-bit clock

A millisecond clock that only shows its value modulo `2 ^ 32`, and the usual C
comparison `(int32_t)(now - due) >= 0` on it.  The comparison is exact for times
less than `2 ^ 31` past the deadline; further on it alternates with period
`2 ^ 32`.
-/

namespace Pi1MHz.WrapClock

/-- `(int32_t)(now - due) >= 0`. -/
def reached (now due : UInt32) : Bool := decide (0 ≤ (now - due).toInt32.toInt)

/-- `(int32_t)(a - b) > 0`. -/
def laterThan (a b : UInt32) : Bool := decide (0 < (a - b).toInt32.toInt)

theorem reached_iff (now due : UInt32) : reached now due = true ↔ (now - due).toNat < 2 ^ 31 := by
  have hint : (now - due).toInt32.toInt = (now - due).toBitVec.toInt := rfl
  have hnat : (now - due).toNat = (now - due).toBitVec.toNat := rfl
  rw [reached, decide_eq_true_iff, hint, hnat, BitVec.toInt_eq_toNat_cond]
  have hlt := (now - due).toBitVec.isLt
  split <;> omega

theorem age_eq {start time : Nat} (hle : start ≤ time) :
    (UInt32.ofNat time - UInt32.ofNat start).toNat = (time - start) % 2 ^ 32 := by
  simp only [UInt32.toNat_sub, UInt32.toNat_ofNat']
  omega

/-- A deadline set `ttl` after the real time `start` and tested at the real time
    `time`: the test succeeds exactly while the distance past the deadline is in
    the first half of a `2 ^ 32` period. -/
theorem reached_of_elapsed (start ttl time : Nat) (hle : start + ttl ≤ time) :
    reached (UInt32.ofNat time) (UInt32.ofNat start + UInt32.ofNat ttl) = true ↔
      (time - (start + ttl)) % 2 ^ 32 < 2 ^ 31 := by
  rw [reached_iff]
  have hnat : (UInt32.ofNat time - (UInt32.ofNat start + UInt32.ofNat ttl)).toNat =
      (time - (start + ttl)) % 2 ^ 32 := by
    simp only [UInt32.toNat_sub, UInt32.toNat_add, UInt32.toNat_ofNat']
    omega
  rw [hnat]

theorem not_reached_of_early (start ttl time : Nat) (hstart : start ≤ time)
    (hlt : time < start + ttl) (httl : ttl ≤ 2 ^ 31) :
    reached (UInt32.ofNat time) (UInt32.ofNat start + UInt32.ofNat ttl) = false := by
  rw [Bool.eq_false_iff, Ne, reached_iff]
  simp only [UInt32.toNat_sub, UInt32.toNat_add, UInt32.toNat_ofNat']
  omega

theorem reached_iff_le {due time : Nat} (hlate : time < due + 2 ^ 31) (hearly : due ≤ time + 2 ^ 31) :
    reached (UInt32.ofNat time) (UInt32.ofNat due) = true ↔ due ≤ time := by
  rw [reached_iff]
  simp only [UInt32.toNat_sub, UInt32.toNat_ofNat']
  omega

end Pi1MHz.WrapClock
