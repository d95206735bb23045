import Mathlib.Algebra.Order.Ring.Nat

/-!
# Finite types

That the size of an index type is not zero, by name, and a byte as one of 256 numbers.
-/

namespace Pi1MHz.FinSizes

scoped instance three : NeZero 3 := ⟨by decide⟩

scoped instance four : NeZero 4 := ⟨by decide⟩

scoped instance six : NeZero 6 := ⟨by decide⟩

scoped instance eight : NeZero 8 := ⟨by decide⟩

scoped instance sixteen : NeZero 16 := ⟨by decide⟩

scoped instance sixtyFour : NeZero 64 := ⟨by decide⟩

scoped instance kib8 : NeZero 8192 := ⟨by decide⟩

theorem forall_byte {P : UInt8 → Prop} (h : ∀ n < 256, P (UInt8.ofNat n)) (c : UInt8) : P c := by
  have hc := h c.toNat c.toNat_lt
  rwa [UInt8.ofNat_toNat] at hc

end Pi1MHz.FinSizes
