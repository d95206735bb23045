import Pi1MHz.SlotMemory
import Mathlib.Algebra.Order.Ring.Nat
import Pi1MHz.FinSizes

/-!
# VCHIQ: the wire format

The constants of `vchiq.c`, message ids, and the step from one message of a stream to the next.
-/

namespace Pi1MHz.Vchiq

open SlotMemory FinSizes

def VCHIQ_SLOT_SIZE : UInt32 := 4096
def VCHIQ_SLOT_MASK : UInt32 := VCHIQ_SLOT_SIZE - 1
def VCHIQ_HEADER_SIZE : UInt32 := 8

def SLOT : Nat := 4096
def HEADER : Nat := 8

def VCHIQ_MSG_PADDING : UInt32 := 0
def VCHIQ_MSG_CONNECT : UInt32 := 1
def VCHIQ_MSG_OPEN : UInt32 := 2
def VCHIQ_MSG_OPENACK : UInt32 := 3
def VCHIQ_MSG_CLOSE : UInt32 := 4
def VCHIQ_MSG_DATA : UInt32 := 5
def VCHIQ_MSG_BULK_RX : UInt32 := 6
def VCHIQ_MSG_BULK_TX : UInt32 := 7
def VCHIQ_MSG_BULK_RX_DONE : UInt32 := 8
def VCHIQ_MSG_BULK_TX_DONE : UInt32 := 9
def VCHIQ_MSG_PAUSE : UInt32 := 10
def VCHIQ_MSG_RESUME : UInt32 := 11

def VCHIQ_MAKE_MSG (type srcport dstport : UInt32) : UInt32 :=
  (type <<< 24) ||| ((srcport &&& 0xFFF) <<< 12) ||| (dstport &&& 0xFFF)

def VCHIQ_MSG_TYPE (msgid : UInt32) : UInt32 := msgid >>> 24
def VCHIQ_MSG_SRCPORT (msgid : UInt32) : UInt32 := (msgid >>> 12) &&& 0xFFF
def VCHIQ_MSG_DSTPORT (msgid : UInt32) : UInt32 := msgid &&& 0xFFF

def CALC_STRIDE (size : UInt32) : UInt32 := (size + VCHIQ_HEADER_SIZE + 7) &&& ~~~7

def queueIndex (pos : UInt32) : Fin 64 := Fin.ofNat 64 ((pos / VCHIQ_SLOT_SIZE) &&& 63).toNat

/-! ### Words as numbers -/

theorem toNat_and_mask (w : UInt32) : (w &&& VCHIQ_SLOT_MASK).toNat = w.toNat % SLOT := by
  have hmask : VCHIQ_SLOT_MASK.toNat = 2 ^ 12 - 1 := by decide
  rw [UInt32.toNat_and, hmask, Nat.and_two_pow_sub_one_eq_mod]
  rfl

theorem toNat_and_not_seven (w : UInt32) : (w &&& ~~~7).toNat = w.toNat / 8 * 8 := by
  have hmask : (~~~7 : UInt32).toNat = (2 ^ 29 - 1) * 2 ^ 3 := by decide
  have hw := w.toNat_lt
  rw [UInt32.toNat_and, hmask]
  apply Nat.eq_of_testBit_eq
  intro i
  have hdiv : w.toNat / 8 * 8 = w.toNat / 2 ^ 3 * 2 ^ 3 := rfl
  rw [hdiv, Nat.testBit_and, Nat.testBit_mul_two_pow, Nat.testBit_mul_two_pow, Nat.testBit_two_pow_sub_one,
    Nat.testBit_div_two_pow]
  by_cases hi : 3 ≤ i
  · have hsub : i - 3 + 3 = i := Nat.sub_add_cancel hi
    by_cases hlt : i - 3 < 29
    · simp [hi, hlt, hsub]
    · have hbig : w.toNat.testBit i = false := by
        apply Nat.testBit_lt_two_pow
        calc w.toNat < 2 ^ 32 := hw
          _ ≤ 2 ^ i := Nat.pow_le_pow_right (by decide) (by omega)
      simp [hsub, hbig]
  · simp [hi]

/-- The stride of a message of `n` bytes. -/
def stride (n : Nat) : Nat := (n + 15) / 8 * 8

theorem toNat_calcStride {size : UInt32} (h : size.toNat + 15 < 2 ^ 32) :
    (CALC_STRIDE size).toNat = stride size.toNat := by
  have hsum : (size + VCHIQ_HEADER_SIZE + 7).toNat = size.toNat + 15 := by
    have h8 : VCHIQ_HEADER_SIZE.toNat = 8 := by decide
    have h7 : (7 : UInt32).toNat = 7 := by decide
    rw [UInt32.toNat_add, UInt32.toNat_add, h8, h7]
    omega
  rw [CALC_STRIDE, toNat_and_not_seven, hsum, stride]

theorem stride_spec (n : Nat) : 8 ∣ stride n ∧ n + 8 ≤ stride n ∧ stride n ≤ n + 15 := by
  unfold stride
  refine ⟨Nat.dvd_mul_left 8 _, ?_, ?_⟩
  · omega
  · omega

theorem toNat_slotSize : VCHIQ_SLOT_SIZE.toNat = SLOT := by decide

theorem queueIndex_val (pos : UInt32) : (queueIndex pos).val = pos.toNat / SLOT % 64 := by
  have h63 : (63 : UInt32).toNat = 2 ^ 6 - 1 := by decide
  have hdiv : (pos / VCHIQ_SLOT_SIZE).toNat = pos.toNat / SLOT := by
    rw [UInt32.toNat_div, toNat_slotSize]
  simp only [queueIndex, Fin.val_ofNat]
  rw [UInt32.toNat_and, hdiv, h63, Nat.and_two_pow_sub_one_eq_mod]
  exact Nat.mod_mod _ _

end Pi1MHz.Vchiq
