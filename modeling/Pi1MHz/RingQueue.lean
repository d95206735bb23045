import Mathlib.Data.Fin.Basic
import Mathlib.Data.List.Basic
import Mathlib.Data.Nat.ModEq
import Mathlib.Logic.Function.Basic

/-!
# Ring queues

A bounded FIFO kept in a fixed array: `count` elements starting at slot `head`
and wrapping round.  The array, the head and the count are plain values, as a C
structure keeps them, and `contents` is the list they stand for.
-/

namespace Pi1MHz.RingQueue

variable {α : Type*} {n : Nat} [NeZero n]

/-- The array slot of the element `i` places behind the head. -/
def slot (n : Nat) [NeZero n] (head i : Nat) : Fin n := Fin.ofNat n (head + i)

def contents (q : Fin n → α) (head count : Nat) : List α :=
  (List.range count).map fun i => q (slot n head i)

/-- Move the `k` elements behind offset `j` down one slot each, nearest first. -/
def shiftDown (q : Fin n → α) (head : Nat) : Nat → Nat → Fin n → α
  | _, 0 => q
  | j, k + 1 =>
      shiftDown (Function.update q (slot n head j) (q (slot n head (j + 1)))) head (j + 1) k

theorem slot_val (head i : Nat) : (slot n head i).val = (head + i) % n := rfl

theorem slot_inj {head i j : Nat} (hi : i < n) (hj : j < n)
    (h : slot n head i = slot n head j) : i = j := by
  have hmod : (head + i) % n = (head + j) % n := congrArg Fin.val h
  have hij : i % n = j % n := Nat.ModEq.add_left_cancel' head hmod
  rwa [Nat.mod_eq_of_lt hi, Nat.mod_eq_of_lt hj] at hij

theorem slot_succ_head (head i : Nat) :
    slot n ((head + 1) % n) i = slot n head (i + 1) := by
  apply Fin.ext
  rw [slot_val, slot_val, Nat.mod_add_mod]
  congr 1
  omega

/-! ### The queue as a list -/

@[simp] theorem length_contents (q : Fin n → α) (head count : Nat) :
    (contents q head count).length = count := by
  simp [contents]

theorem getElem?_contents (q : Fin n → α) (head count i : Nat) :
    (contents q head count)[i]? = if i < count then some (q (slot n head i)) else none := by
  by_cases hi : i < count
  · simp [contents, hi]
  · simp [contents, hi]

@[simp] theorem contents_zero (q : Fin n → α) (head : Nat) : contents q head 0 = [] := rfl

theorem mem_contents {q : Fin n → α} {head count : Nat} {x : α} :
    x ∈ contents q head count ↔ ∃ i < count, q (slot n head i) = x := by
  simp [contents]

theorem contents_write (q : Fin n → α) {head count : Nat} (x : α) (hroom : count < n) :
    contents (Function.update q (slot n head count) x) head count = contents q head count := by
  unfold contents
  apply List.map_congr_left
  intro i hi
  have hlt : i < count := List.mem_range.mp hi
  apply Function.update_of_ne
  intro heq
  have := slot_inj (by omega) hroom heq
  omega

theorem contents_push (q : Fin n → α) {head count : Nat} (x : α) (hroom : count < n) :
    contents (Function.update q (slot n head count) x) head (count + 1) =
      contents q head count ++ [x] := by
  rw [← contents_write q x hroom]
  unfold contents
  rw [List.range_succ, List.map_append]
  simp

theorem contents_pop (q : Fin n → α) (head count : Nat) :
    contents q ((head + 1) % n) (count - 1) = (contents q head count).eraseIdx 0 := by
  apply List.ext_getElem?
  intro i
  rw [getElem?_contents, List.getElem?_eraseIdx, slot_succ_head]
  simp only [Nat.not_lt_zero, if_false, getElem?_contents]
  by_cases hi : i < count - 1
  · rw [if_pos hi, if_pos (by omega)]
  · rw [if_neg hi, if_neg (by omega)]

theorem contents_set (q : Fin n → α) {head count off : Nat} (x : α)
    (hoff : off < count) (hcap : count ≤ n) :
    contents (Function.update q (slot n head off) x) head count =
      (contents q head count).set off x := by
  apply List.ext_getElem?
  intro i
  rw [getElem?_contents, List.getElem?_set, getElem?_contents]
  by_cases hi : i < count
  · by_cases heq : off = i
    · subst heq
      simp [hoff]
    · have hne : slot n head i ≠ slot n head off := by
        intro h
        exact heq (slot_inj (by omega) (by omega) h).symm
      simp [hi, heq, Function.update_of_ne hne]
  · have hne : off ≠ i := by omega
    simp [hi, hne]

theorem shiftDown_slot (k : Nat) : ∀ (q : Fin n → α) (head j i : Nat), j + k < n → i < n →
    shiftDown q head j k (slot n head i) =
      if j ≤ i ∧ i < j + k then q (slot n head (i + 1)) else q (slot n head i) := by
  induction k with
  | zero =>
    intro q head j i _ _
    rw [shiftDown, if_neg (by omega)]
  | succ k ih =>
    intro q head j i hcap hi
    rw [shiftDown, ih _ head (j + 1) i (by omega) hi]
    by_cases hlater : j + 1 ≤ i ∧ i < j + 1 + k
    · -- a later offset: the first move did not touch its successor
      rw [if_pos hlater, if_pos (by omega)]
      apply Function.update_of_ne
      intro h
      have := slot_inj (by omega) (by omega) h
      omega
    · rw [if_neg hlater]
      by_cases hij : i = j
      · subst hij
        rw [if_pos (by omega)]
        simp
      · rw [if_neg (by omega)]
        apply Function.update_of_ne
        intro h
        exact hij (slot_inj hi (by omega) h)

theorem contents_shiftDown (q : Fin n → α) {head count off : Nat}
    (hoff : off < count) (hcap : count ≤ n) :
    contents (shiftDown q head off (count - 1 - off)) head (count - 1) =
      (contents q head count).eraseIdx off := by
  apply List.ext_getElem?
  intro i
  rw [getElem?_contents, List.getElem?_eraseIdx, getElem?_contents, getElem?_contents]
  by_cases hi : i < count - 1
  · rw [if_pos hi, shiftDown_slot _ _ _ _ _ (by omega) (by omega)]
    by_cases hlt : i < off
    · rw [if_neg (by omega), if_pos hlt, if_pos (by omega)]
    · rw [if_pos (by omega), if_neg hlt, if_pos (by omega)]
  · rw [if_neg hi, if_neg (by omega : ¬i < off), if_neg (by omega)]

end Pi1MHz.RingQueue
