import Pi1MHz.RingQueue
import Mathlib.Data.Nat.Bitwise

/-!
# Rings with free-running counters

A ring whose size is a power of two and whose positions are 32-bit counters that are never brought back into the
ring: a position is masked when it is used, and the level is the difference of the two counters.
-/

namespace Pi1MHz.CounterRing

structure Masked (α : Type*) where
  buf : Nat → α
  size : UInt32
  wr : UInt32
  rd : UInt32

variable {α : Type*}

def Masked.index (r : Masked α) (p : UInt32) : Nat := (p &&& (r.size - 1)).toNat

def Masked.level (r : Masked α) : UInt32 := r.wr - r.rd

def Masked.contents (r : Masked α) : List α :=
  (List.range r.level.toNat).map fun i => r.buf ((r.rd.toNat + i) % r.size.toNat)

def Masked.push (x : α) (r : Masked α) : Masked α :=
  { r with buf := Function.update r.buf (r.index r.wr) x, wr := r.wr + 1 }

def Masked.pushAll (xs : List α) (r : Masked α) : Masked α := xs.foldl (fun r x => r.push x) r

/-- The next `k` elements are passed. -/
def Masked.skip (k : UInt32) (r : Masked α) : Masked α := { r with rd := r.rd + k }

def Masked.clear (r : Masked α) : Masked α := { r with wr := 0, rd := 0 }

structure Masked.WellFormed (r : Masked α) : Prop where
  size : ∃ k, k < 32 ∧ r.size.toNat = 2 ^ k
  level : r.level.toNat ≤ r.size.toNat

section

variable {r : Masked α}

theorem Masked.WellFormed.pos (h : r.WellFormed) : 0 < r.size.toNat := by
  obtain ⟨k, -, hk⟩ := h.size
  rw [hk]
  exact Nat.two_pow_pos k

theorem index_eq (h : r.WellFormed) (p : UInt32) : r.index p = p.toNat % r.size.toNat := by
  obtain ⟨k, hlt, hk⟩ := h.size
  have hone : (r.size - 1).toNat = 2 ^ k - 1 := by
    have hpos := h.pos
    rw [UInt32.toNat_sub_of_le]
    · rw [hk]
      rfl
    · rw [UInt32.le_iff_toNat_le]
      exact hpos
  rw [Masked.index, UInt32.toNat_and, hone, hk, Nat.and_two_pow_sub_one_eq_mod]

theorem index_lt (h : r.WellFormed) (p : UInt32) : r.index p < r.size.toNat := by
  rw [index_eq h]
  exact Nat.mod_lt _ h.pos

theorem wrap_mod (h : r.WellFormed) (n : Nat) : n % 2 ^ 32 % r.size.toNat = n % r.size.toNat := by
  obtain ⟨k, hlt, hk⟩ := h.size
  rw [hk]
  exact Nat.mod_mod_of_dvd n (Nat.pow_dvd_pow 2 hlt.le)

theorem index_add (h : r.WellFormed) (p q : UInt32) : r.index (p + q) = (p.toNat + q.toNat) % r.size.toNat := by
  rw [index_eq h, UInt32.toNat_add, wrap_mod h]

theorem index_wr (h : r.WellFormed) : r.index r.wr = (r.rd.toNat + r.level.toNat) % r.size.toNat := by
  have hwr : r.wr = r.rd + r.level := by
    rw [Masked.level]
    grind
  rw [hwr]
  exact index_add h r.rd r.level

@[simp] theorem contents_length (r : Masked α) : r.contents.length = r.level.toNat := by simp [Masked.contents]

theorem contents_eq [NeZero r.size.toNat] : r.contents =
    RingQueue.contents (fun i : Fin r.size.toNat => r.buf i) r.rd.toNat r.level.toNat := rfl

theorem level_push (hroom : r.level.toNat < 2 ^ 32 - 1) (x : α) : (r.push x).level.toNat = r.level.toNat + 1 := by
  have hlevel : (r.push x).level = r.level + 1 := by
    rw [Masked.level, Masked.level, Masked.push]
    grind
  rw [hlevel, UInt32.toNat_add]
  simp only [UInt32.reduceToNat]
  omega

theorem contents_push (h : r.WellFormed) (hroom : r.level.toNat < r.size.toNat) (x : α) :
    (r.push x).contents = r.contents ++ [x] := by
  have : NeZero r.size.toNat := ⟨h.pos.ne'⟩
  have hsize := r.size.toNat_lt
  rw [contents_eq (r := r), ← RingQueue.contents_push _ x hroom, Masked.contents, level_push (by omega)]
  apply List.map_congr_left
  intro i _
  have hplace : r.index r.wr = (RingQueue.slot r.size.toNat r.rd.toNat r.level.toNat : Nat) := index_wr h
  show Function.update r.buf (r.index r.wr) x ((r.rd.toNat + i) % r.size.toNat) = _
  by_cases hi : (r.rd.toNat + i) % r.size.toNat = r.index r.wr
  · have hslot : RingQueue.slot r.size.toNat r.rd.toNat i = RingQueue.slot r.size.toNat r.rd.toNat r.level.toNat :=
      Fin.ext (hi.trans hplace)
    rw [hi, hslot, Function.update_self, Function.update_self]
  · have hslot : RingQueue.slot r.size.toNat r.rd.toNat i ≠ RingQueue.slot r.size.toNat r.rd.toNat r.level.toNat := by
      intro heq
      exact hi ((congrArg Fin.val heq).trans hplace.symm)
    rw [Function.update_of_ne hi, Function.update_of_ne hslot]
    rfl

theorem Masked.WellFormed.push (h : r.WellFormed) (hroom : r.level.toNat < r.size.toNat) (x : α) :
    (r.push x).WellFormed where
  size := h.size
  level := by
    have hsize := r.size.toNat_lt
    rw [level_push (by omega)]
    exact hroom

theorem pushAll_spec (h : r.WellFormed) (xs : List α) (hroom : r.level.toNat + xs.length ≤ r.size.toNat) :
    (r.pushAll xs).WellFormed ∧ (r.pushAll xs).contents = r.contents ++ xs := by
  induction xs generalizing r with
  | nil => exact ⟨h, (List.append_nil _).symm⟩
  | cons x xs ih =>
    rw [List.length_cons] at hroom
    have hsize := r.size.toNat_lt
    have hnext := h.push (by omega) x
    have hlevel := level_push (r := r) (by omega) x
    obtain ⟨hwell, hcontents⟩ := ih hnext (by rw [hlevel]; show _ ≤ r.size.toNat; omega)
    refine ⟨hwell, ?_⟩
    rw [contents_push h (by omega), List.append_assoc] at hcontents
    exact hcontents

theorem pushAll_same (r : Masked α) (xs : List α) : (r.pushAll xs).rd = r.rd ∧ (r.pushAll xs).size = r.size := by
  induction xs generalizing r with
  | nil => exact ⟨rfl, rfl⟩
  | cons x xs ih => exact ih (r.push x)

theorem level_skip {k : UInt32} (hk : k ≤ r.level) : (r.skip k).level.toNat = r.level.toNat - k.toNat := by
  have hlevel : (r.skip k).level = r.level - k := by
    rw [Masked.level, Masked.level, Masked.skip]
    grind
  rw [hlevel, UInt32.toNat_sub_of_le _ _ hk]

theorem contents_skip (h : r.WellFormed) {k : UInt32} (hk : k ≤ r.level) :
    (r.skip k).contents = r.contents.drop k.toNat := by
  have hle : k.toNat ≤ r.level.toNat := UInt32.le_iff_toNat_le.mp hk
  apply List.ext_getElem?
  intro i
  rw [List.getElem?_drop, Masked.contents, Masked.contents, level_skip hk, List.getElem?_map, List.getElem?_map]
  by_cases hi : i < r.level.toNat - k.toNat
  · rw [List.getElem?_range hi, List.getElem?_range (by omega)]
    have hrd : (r.rd + k).toNat = (r.rd.toNat + k.toNat) % 2 ^ 32 := UInt32.toNat_add _ _
    have hplace : ((r.rd + k).toNat + i) % r.size.toNat = (r.rd.toNat + (k.toNat + i)) % r.size.toNat := by
      rw [hrd, Nat.add_mod, wrap_mod h, ← Nat.add_mod, Nat.add_assoc]
    exact congrArg some (congrArg r.buf hplace)
  · rw [List.getElem?_eq_none (by simpa using hi), List.getElem?_eq_none (by simp; omega)]
    rfl

theorem Masked.WellFormed.skip (h : r.WellFormed) {k : UInt32} (hk : k ≤ r.level) : (r.skip k).WellFormed where
  size := h.size
  level := by
    have hlevel := h.level
    rw [level_skip hk]
    show _ ≤ r.size.toNat
    omega

theorem read_eq (r : Masked α) {i : Nat} (hi : i < r.level.toNat) :
    r.contents[i]? = some (r.buf ((r.rd.toNat + i) % r.size.toNat)) := by
  rw [Masked.contents, List.getElem?_map, List.getElem?_range hi]
  rfl

theorem level_clear (r : Masked α) : r.clear.level = 0 := UInt32.sub_self 0

theorem Masked.WellFormed.clear (h : r.WellFormed) : r.clear.WellFormed where
  size := h.size
  level := by
    rw [level_clear]
    exact Nat.zero_le _

theorem contents_clear (r : Masked α) : r.clear.contents = [] := by
  rw [Masked.contents, level_clear]
  rfl

end

end Pi1MHz.CounterRing
