import Mathlib.Algebra.Order.Ring.Nat
import Mathlib.Data.List.Basic

/-!
# Overwriting a part of a list

`splice l p d` is `l` with `d` in place of the elements from `p` on, as a write to a file at an
offset does it: the list grows where `d` reaches past its end.
-/

namespace Pi1MHz.Splice

variable {α : Type}

def splice (l : List α) (p : Nat) (d : List α) : List α := l.take p ++ d ++ l.drop (p + d.length)

@[simp] theorem splice_nil (l : List α) (p : Nat) : splice l p [] = l := by
  simp [splice, List.take_append_drop]

theorem length_splice {l : List α} {p : Nat} (hp : p ≤ l.length) (d : List α) :
    (splice l p d).length = max l.length (p + d.length) := by
  simp only [splice, List.length_append, List.length_take, List.length_drop]
  omega

theorem getElem?_splice_out {l : List α} {p : Nat} (hp : p ≤ l.length) (d : List α) {i : Nat}
    (hi : i < p ∨ p + d.length ≤ i) : (splice l p d)[i]? = l[i]? := by
  have htake : (l.take p).length = p := by
    rw [List.length_take]
    omega
  rw [splice]
  rcases hi with hi | hi
  · rw [List.append_assoc, List.getElem?_append_left (by omega), List.getElem?_take_of_lt hi]
  · have hlen : (l.take p ++ d).length = p + d.length := by rw [List.length_append, htake]
    rw [List.getElem?_append_right (by omega), List.getElem?_drop, hlen]
    congr 1
    omega

theorem getElem?_splice_in {l : List α} {p : Nat} (hp : p ≤ l.length) (d : List α) {i : Nat}
    (hi : i < d.length) : (splice l p d)[p + i]? = d[i]? := by
  have htake : (l.take p).length = p := by
    rw [List.length_take]
    omega
  rw [splice, List.append_assoc, List.getElem?_append_right (by omega), htake, Nat.add_sub_cancel_left,
    List.getElem?_append_left hi]

theorem splice_append {l : List α} {p : Nat} (hp : p ≤ l.length) (d e : List α) :
    splice (splice l p d) (p + d.length) e = splice l p (d ++ e) := by
  have hlen := length_splice hp d
  apply List.ext_getElem?
  intro i
  by_cases hout : i < p ∨ p + (d ++ e).length ≤ i
  · rw [getElem?_splice_out hp _ hout]
    rw [List.length_append] at hout
    rw [getElem?_splice_out (by omega) _ (by omega), getElem?_splice_out hp _ (by omega)]
  · rw [List.length_append] at hout
    obtain ⟨j, rfl⟩ : ∃ j, i = p + j := ⟨i - p, by omega⟩
    rw [getElem?_splice_in hp _ (by rw [List.length_append]; omega)]
    by_cases hj : j < d.length
    · rw [getElem?_splice_out (by omega) _ (by omega), getElem?_splice_in hp _ hj,
        List.getElem?_append_left hj]
    · obtain ⟨k, rfl⟩ : ∃ k, j = d.length + k := ⟨j - d.length, by omega⟩
      rw [← Nat.add_assoc, getElem?_splice_in (by omega) _ (by omega),
        List.getElem?_append_right (by omega), Nat.add_sub_cancel_left]

end Pi1MHz.Splice
