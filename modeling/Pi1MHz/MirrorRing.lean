import Mathlib.Data.Int.ModEq
import Mathlib.Data.List.Basic
import Mathlib.Logic.Function.Basic

/-!
# Rings with a mirrored tail

A ring of `n` slots in an array of `n + m`: what is written to one of the first `m` slots is
written once more `n` places further on.  A reader that is handed a pointer to the oldest element
can then read up to `m` elements in a row without looking for the end of the ring
(`window_eq_take`).
-/

namespace Pi1MHz

structure MirrorRing (α : Type*) (n m : Nat) where
  buf : Nat → α
  wp : Nat
  rp : Nat

namespace MirrorRing

variable {α : Type*} {n m : Nat}

/-- `(wp - rp) & (n - 1)` on unsigned words, for a power of two `n`. -/
def count (r : MirrorRing α n m) : Nat := (r.wp + (n - r.rp)) % n

/-- `(rp - wp - 1) & (n - 1)`. -/
def space (r : MirrorRing α n m) : Nat := (r.rp + (n - r.wp) + (n - 1)) % n

def contents (r : MirrorRing α n m) : List α :=
  (List.range r.count).map fun i => r.buf ((r.rp + i) % n)

/-- What a reader finds from the slot `rp` on, without wrapping. -/
def window (r : MirrorRing α n m) (k : Nat) : List α := (List.range k).map fun j => r.buf (r.rp + j)

def put (r : MirrorRing α n m) (x : α) : MirrorRing α n m :=
  let buf := Function.update r.buf r.wp x
  let buf := if r.wp < m then Function.update buf (r.wp + n) x else buf
  { r with buf := buf, wp := (r.wp + 1) % n }

def putAll (r : MirrorRing α n m) (xs : List α) : MirrorRing α n m := xs.foldl put r

def skip (r : MirrorRing α n m) (k : Nat) : MirrorRing α n m := { r with rp := (r.rp + k) % n }

/-- The indices are slots, and the elements in the first `m` slots are there twice. -/
structure WellFormed (r : MirrorRing α n m) : Prop where
  wp : r.wp < n
  rp : r.rp < n
  mirror : ∀ i < r.count, (r.rp + i) % n < m → r.buf ((r.rp + i) % n + n) = r.buf ((r.rp + i) % n)

variable {r : MirrorRing α n m}

@[simp] theorem length_contents (r : MirrorRing α n m) : r.contents.length = r.count := by
  simp [contents]

theorem WellFormed.empty (buf : Nat → α) (hn : 0 < n) :
    (⟨buf, 0, 0⟩ : MirrorRing α n m).WellFormed := by
  refine ⟨hn, hn, ?_⟩
  intro i hi
  simp [count] at hi

@[simp] theorem contents_empty (buf : Nat → α) :
    (⟨buf, 0, 0⟩ : MirrorRing α n m).contents = [] := by
  simp [contents, count]

theorem WellFormed.count_lt (h : r.WellFormed) : r.count < n :=
  Nat.mod_lt _ (Nat.lt_of_le_of_lt (Nat.zero_le _) h.wp)

theorem WellFormed.space_eq (h : r.WellFormed) : r.space = n - 1 - r.count := by
  have hw := h.wp
  have hr := h.rp
  rcases Nat.lt_or_ge r.wp r.rp with hlt | hge
  · have hcount : r.count = r.wp + (n - r.rp) := Nat.mod_eq_of_lt (by omega)
    have hspace : r.space = r.rp - r.wp - 1 := by
      rw [space, show r.rp + (n - r.wp) + (n - 1) = (r.rp - r.wp - 1) + n + n by omega,
        Nat.add_mod_right, Nat.add_mod_right, Nat.mod_eq_of_lt (by omega)]
    omega
  · have hcount : r.count = r.wp - r.rp := by
      rw [count, show r.wp + (n - r.rp) = (r.wp - r.rp) + n by omega, Nat.add_mod_right,
        Nat.mod_eq_of_lt (by omega)]
    have hspace : r.space = n - 1 - (r.wp - r.rp) := by
      rw [space, show r.rp + (n - r.wp) + (n - 1) = (n - 1 - (r.wp - r.rp)) + n by omega,
        Nat.add_mod_right, Nat.mod_eq_of_lt (by omega)]
    omega

theorem WellFormed.wp_eq (h : r.WellFormed) : r.wp = (r.rp + r.count) % n := by
  have hw := h.wp
  have hr := h.rp
  rw [count, Nat.add_mod_mod, show r.rp + (r.wp + (n - r.rp)) = r.wp + n by omega,
    Nat.add_mod_right, Nat.mod_eq_of_lt hw]

theorem WellFormed.count_eq_zero_iff (h : r.WellFormed) : r.count = 0 ↔ r.rp = r.wp := by
  have hw := h.wp
  have hr := h.rp
  constructor
  · intro hz
    rw [h.wp_eq, hz, Nat.add_zero, Nat.mod_eq_of_lt hr]
  · intro heq
    rw [count, ← heq, show r.rp + (n - r.rp) = n by omega, Nat.mod_self]

theorem slot_ne {n rp i j : Nat} (hi : i < n) (hj : j < n) (hne : i ≠ j) :
    (rp + i) % n ≠ (rp + j) % n := by
  intro heq
  have h : i % n = j % n := Nat.ModEq.add_left_cancel' rp heq
  rw [Nat.mod_eq_of_lt hi, Nat.mod_eq_of_lt hj] at h
  exact hne h

/-! ### Writing -/

theorem WellFormed.count_put (h : r.WellFormed) (x : α) (hroom : r.count + 1 < n) :
    (r.put x).count = r.count + 1 := by
  have hr := h.rp
  have hwp : (r.put x).wp = (r.wp + 1) % n := rfl
  have hrp : (r.put x).rp = r.rp := rfl
  rw [count, hwp, hrp, h.wp_eq, Nat.mod_add_mod, Nat.add_assoc _ 1, Nat.mod_add_mod,
    show r.rp + r.count + (1 + (n - r.rp)) = (r.count + 1) + n by omega, Nat.add_mod_right,
    Nat.mod_eq_of_lt hroom]

theorem buf_put_slot (h : r.WellFormed) (x : α) {i : Nat} (hi : i < r.count) (d : Nat)
    (hd : d = 0 ∨ d = n) :
    (r.put x).buf ((r.rp + i) % n + d) = r.buf ((r.rp + i) % n + d) := by
  have hcount := h.count_lt
  have hne : (r.rp + i) % n ≠ r.wp := by
    rw [h.wp_eq]
    exact slot_ne (Nat.lt_trans hi hcount) hcount (Nat.ne_of_lt hi)
  have hslot : (r.rp + i) % n < n := Nat.mod_lt _ (Nat.lt_of_le_of_lt (Nat.zero_le _) hcount)
  have hwp := h.wp
  have hfirst : (r.rp + i) % n + d ≠ r.wp := by omega
  have hsecond : (r.rp + i) % n + d ≠ r.wp + n := by omega
  simp only [put]
  split
  · rw [Function.update_of_ne hsecond, Function.update_of_ne hfirst]
  · rw [Function.update_of_ne hfirst]

theorem buf_put_wp (h : r.WellFormed) (x : α) :
    (r.put x).buf r.wp = x ∧ (r.wp < m → (r.put x).buf (r.wp + n) = x) := by
  have hn : r.wp ≠ r.wp + n := by
    have hwp := h.wp
    omega
  simp only [put]
  constructor
  · split
    · rw [Function.update_of_ne hn, Function.update_self]
    · rw [Function.update_self]
  · intro hm
    rw [if_pos hm, Function.update_self]

theorem WellFormed.put (h : r.WellFormed) (x : α) (hroom : r.count + 1 < n) :
    (r.put x).WellFormed := by
  refine ⟨Nat.mod_lt _ (Nat.lt_of_le_of_lt (Nat.zero_le _) h.wp), h.rp, ?_⟩
  intro i hi hlow
  rw [h.count_put x hroom] at hi
  have hrp : (r.put x).rp = r.rp := rfl
  rw [hrp] at hlow ⊢
  rcases Nat.lt_succ_iff_lt_or_eq.mp hi with hold | hnew
  · rw [buf_put_slot h x hold n (Or.inr rfl)]
    exact (h.mirror i hold hlow).trans (buf_put_slot h x hold 0 (Or.inl rfl)).symm
  · rw [hnew, ← h.wp_eq] at hlow ⊢
    rw [(buf_put_wp h x).2 hlow, (buf_put_wp h x).1]

theorem WellFormed.contents_put (h : r.WellFormed) (x : α) (hroom : r.count + 1 < n) :
    (r.put x).contents = r.contents ++ [x] := by
  rw [contents, h.count_put x hroom, List.range_succ, List.map_append, List.map_singleton]
  congr 1
  · apply List.map_congr_left
    intro i hi
    exact buf_put_slot h x (List.mem_range.mp hi) 0 (Or.inl rfl)
  · show [(r.put x).buf ((r.rp + r.count) % n)] = [x]
    rw [← h.wp_eq, (buf_put_wp h x).1]

theorem WellFormed.putAll (xs : List α) (h : r.WellFormed) (hroom : r.count + xs.length < n) :
    (r.putAll xs).WellFormed ∧ (r.putAll xs).contents = r.contents ++ xs := by
  induction xs generalizing r with
  | nil => exact ⟨h, (List.append_nil _).symm⟩
  | cons x xs ih =>
    rw [List.length_cons] at hroom
    have hput : r.count + 1 < n := by omega
    obtain ⟨hwf, hcontents⟩ := ih (h.put x hput) (by rw [h.count_put x hput]; omega)
    refine ⟨hwf, hcontents.trans ?_⟩
    rw [h.contents_put x hput, List.append_assoc, List.singleton_append]

/-! ### Reading -/

theorem WellFormed.window_eq_take (h : r.WellFormed) {k : Nat} (hcount : k ≤ r.count) (hm : k ≤ m) :
    r.window k = r.contents.take k := by
  have hrp := h.rp
  have hlt := h.count_lt
  rw [window, contents, ← List.map_take, List.take_range, Nat.min_eq_left hcount]
  apply List.map_congr_left
  intro j hj
  have hj := List.mem_range.mp hj
  by_cases hend : r.rp + j < n
  · rw [Nat.mod_eq_of_lt hend]
  · -- past the end: the mirrored copy of a slot near the start
    have hmod : (r.rp + j) % n = r.rp + j - n := by
      rw [Nat.mod_eq_sub_mod (by omega), Nat.mod_eq_of_lt (by omega)]
    have hmirror := h.mirror j (by omega) (by omega)
    rw [hmod] at hmirror ⊢
    rw [← hmirror, Nat.sub_add_cancel (by omega)]

theorem WellFormed.count_skip (h : r.WellFormed) {k : Nat} (hk : k ≤ r.count) :
    (r.skip k).count = r.count - k := by
  have hrp := h.rp
  have hlt := h.count_lt
  have hslot : (r.rp + k) % n < n := Nat.mod_lt _ (by omega)
  have hcount : (r.skip k).count = (r.wp + (n - (r.rp + k) % n)) % n := rfl
  rw [hcount, h.wp_eq]
  rcases Nat.lt_or_ge (r.rp + k) n with hin | hout
  · rw [Nat.mod_eq_of_lt hin, Nat.mod_add_mod,
      show r.rp + r.count + (n - (r.rp + k)) = (r.count - k) + n by omega, Nat.add_mod_right,
      Nat.mod_eq_of_lt (by omega)]
  · have hmod : (r.rp + k) % n = r.rp + k - n := by
      rw [Nat.mod_eq_sub_mod hout, Nat.mod_eq_of_lt (by omega)]
    rw [hmod, Nat.mod_add_mod,
      show r.rp + r.count + (n - (r.rp + k - n)) = (r.count - k) + n + n by omega,
      Nat.add_mod_right, Nat.add_mod_right, Nat.mod_eq_of_lt (by omega)]

theorem skip_slot (r : MirrorRing α n m) (k i : Nat) :
    ((r.skip k).rp + i) % n = (r.rp + (k + i)) % n := by
  rw [skip, Nat.mod_add_mod, Nat.add_assoc]

theorem WellFormed.skip (h : r.WellFormed) {k : Nat} (hk : k ≤ r.count) : (r.skip k).WellFormed := by
  refine ⟨h.wp, Nat.mod_lt _ (Nat.lt_of_le_of_lt (Nat.zero_le _) h.wp), ?_⟩
  intro i hi hlow
  rw [h.count_skip hk] at hi
  rw [skip_slot] at hlow ⊢
  exact h.mirror (k + i) (by omega) hlow

theorem WellFormed.contents_skip (h : r.WellFormed) {k : Nat} (hk : k ≤ r.count) :
    (r.skip k).contents = r.contents.drop k := by
  apply List.ext_getElem
  · simp [h.count_skip hk]
  · intro i h1 h2
    simp only [contents, List.getElem_map, List.getElem_range, List.getElem_drop]
    rw [skip_slot]
    rfl

end MirrorRing

end Pi1MHz
