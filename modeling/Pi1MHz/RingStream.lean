import Pi1MHz.RingQueue

/-!
# Rings with a write index and a read index

A ring that bytes are streamed through: `head` is where the next element is written, `tail`
where the next one is read, and `count` says how many lie between.
-/

namespace Pi1MHz.RingStream

open RingQueue (slot)

structure Ring (α : Type*) (n : Nat) where
  buf : Fin n → α
  head : Nat
  tail : Nat
  count : Nat

variable {α : Type*} {n : Nat} [NeZero n]

def Ring.contents (r : Ring α n) : List α := RingQueue.contents r.buf r.tail r.count

structure Ring.WellFormed (r : Ring α n) : Prop where
  tail : r.tail < n
  count : r.count ≤ n
  head : r.head = (r.tail + r.count) % n

def fill (buf : Fin n → α) (head : Nat) : List α → (Fin n → α) × Nat
  | [] => (buf, head)
  | x :: xs => fill (Function.update buf (slot n head 0) x) ((head + 1) % n) xs

def drain (buf : Fin n → α) (tail : Nat) : Nat → List α × Nat
  | 0 => ([], tail)
  | k + 1 =>
      let r := drain buf ((tail + 1) % n) k
      (buf (slot n tail 0) :: r.1, r.2)

/-- Write a block; the count is a word of `w` bits. -/
def Ring.write (w : Nat) (r : Ring α n) (xs : List α) : Ring α n :=
  let f := fill r.buf r.head xs
  { r with buf := f.1, head := f.2, count := (r.count + xs.length) % 2 ^ w }

/-- The next `k` elements. -/
def Ring.front (r : Ring α n) (k : Nat) : List α := (drain r.buf r.tail k).1

/-- Step over the next `k` elements; the count is a word of `w` bits. -/
def Ring.skip (w : Nat) (r : Ring α n) (k : Nat) : Ring α n :=
  { r with tail := (drain r.buf r.tail k).2, count := (r.count + (2 ^ w - k % 2 ^ w)) % 2 ^ w }

def Ring.clear (r : Ring α n) : Ring α n := { r with head := 0, tail := 0, count := 0 }

/-! ### Reading -/

theorem drain_tail (buf : Fin n → α) (tail k : Nat) (ht : tail < n) :
    (drain buf tail k).2 = (tail + k) % n := by
  induction k generalizing tail with
  | zero => exact (Nat.mod_eq_of_lt ht).symm
  | succ k ih =>
    rw [drain, ih _ (Nat.mod_lt _ (Nat.pos_of_ne_zero (NeZero.ne n))), Nat.mod_add_mod]
    congr 1
    omega

theorem drain_front (buf : Fin n → α) (tail k : Nat) :
    (drain buf tail k).1 = RingQueue.contents buf tail k := by
  induction k generalizing tail with
  | zero => rfl
  | succ k ih =>
    have hslots : ∀ i, slot n ((tail + 1) % n) i = slot n tail (i + 1) :=
      RingQueue.slot_succ_head tail
    rw [drain, ih, RingQueue.contents, RingQueue.contents, List.range_succ_eq_map, List.map_cons,
      List.map_map]
    simp only [hslots]
    rfl

theorem take_contents (buf : Fin n → α) (tail : Nat) {k count : Nat} (hk : k ≤ count) :
    (RingQueue.contents buf tail count).take k = RingQueue.contents buf tail k := by
  apply List.ext_getElem?
  intro i
  rw [List.getElem?_take, RingQueue.getElem?_contents, RingQueue.getElem?_contents]
  by_cases hi : i < k
  · rw [if_pos hi, if_pos hi, if_pos (by omega)]
  · rw [if_neg hi, if_neg hi]

theorem drop_contents (buf : Fin n → α) {tail k count : Nat} (hk : k ≤ count) :
    (RingQueue.contents buf tail count).drop k =
      RingQueue.contents buf ((tail + k) % n) (count - k) := by
  apply List.ext_getElem?
  intro i
  rw [List.getElem?_drop, RingQueue.getElem?_contents, RingQueue.getElem?_contents]
  have hslot : slot n ((tail + k) % n) i = slot n tail (k + i) := by
    apply Fin.ext
    rw [RingQueue.slot_val, RingQueue.slot_val, Nat.mod_add_mod, Nat.add_assoc]
  rw [hslot]
  by_cases hi : k + i < count
  · rw [if_pos hi, if_pos (by omega)]
  · rw [if_neg hi, if_neg (by omega)]

namespace Ring

variable {r : Ring α n} {w : Nat}

theorem front_eq {k : Nat} (hk : k ≤ r.count) : r.front k = r.contents.take k := by
  rw [front, drain_front, contents, take_contents _ _ hk]

theorem skip_eq (h : r.WellFormed) (hw : n < 2 ^ w) {k : Nat} (hk : k ≤ r.count) :
    r.skip w k = { r with tail := (r.tail + k) % n, count := r.count - k } := by
  have hcount := h.count
  have hkmod : k % 2 ^ w = k := Nat.mod_eq_of_lt (by omega)
  have hword : (r.count + (2 ^ w - k)) % 2 ^ w = r.count - k := by
    rw [show r.count + (2 ^ w - k) = (r.count - k) + 2 ^ w by omega, Nat.add_mod_right,
      Nat.mod_eq_of_lt (by omega)]
  rw [skip, drain_tail _ _ _ h.tail, hkmod, hword]

theorem contents_skip (h : r.WellFormed) (hw : n < 2 ^ w) {k : Nat} (hk : k ≤ r.count) :
    (r.skip w k).contents = r.contents.drop k := by
  rw [skip_eq h hw hk, contents, contents, drop_contents _ hk]

theorem WellFormed.skip (h : r.WellFormed) (hw : n < 2 ^ w) {k : Nat} (hk : k ≤ r.count) :
    (r.skip w k).WellFormed := by
  have hcount := h.count
  rw [skip_eq h hw hk]
  refine ⟨Nat.mod_lt _ (Nat.pos_of_ne_zero (NeZero.ne n)), ?_, ?_⟩
  · dsimp only
    omega
  · dsimp only
    rw [h.head, Nat.mod_add_mod]
    congr 1
    omega

omit [NeZero n] in
theorem WellFormed.count_eq (h : r.WellFormed) :
    r.count = (r.head + n - r.tail) % n ∨ r.count = n ∧ r.head = r.tail := by
  obtain ⟨htail, hcount, hhead⟩ := h
  by_cases hwrap : r.tail + r.count < n
  · left
    rw [hhead, Nat.mod_eq_of_lt hwrap,
      show r.tail + r.count + n - r.tail = r.count + n by omega, Nat.add_mod_right,
      Nat.mod_eq_of_lt (by omega)]
  · rw [Nat.mod_eq_sub_mod (by omega), Nat.mod_eq_of_lt (by omega)] at hhead
    by_cases hfull : r.count = n
    · exact .inr ⟨hfull, by omega⟩
    · left
      rw [show r.head + n - r.tail = r.count by omega, Nat.mod_eq_of_lt (by omega)]

/-! ### Writing -/

theorem contents_fill (xs : List α) (buf : Fin n → α) {tail count head : Nat}
    (hhead : head = (tail + count) % n) (hroom : count + xs.length ≤ n) :
    RingQueue.contents (fill buf head xs).1 tail (count + xs.length) =
        RingQueue.contents buf tail count ++ xs ∧
      (fill buf head xs).2 = (tail + (count + xs.length)) % n := by
  induction xs generalizing buf count head with
  | nil => exact ⟨by simp [fill], by simp [fill, hhead]⟩
  | cons x xs ih =>
    rw [List.length_cons] at hroom ⊢
    have hslot : slot n head 0 = slot n tail count := by
      apply Fin.ext
      rw [RingQueue.slot_val, RingQueue.slot_val, hhead, Nat.add_zero, Nat.mod_mod]
    have hnext : (head + 1) % n = (tail + (count + 1)) % n := by
      rw [hhead, Nat.mod_add_mod, Nat.add_assoc]
    obtain ⟨hcontents, hlast⟩ := ih (Function.update buf (slot n head 0) x) hnext (by omega)
    rw [fill, show count + (xs.length + 1) = count + 1 + xs.length by omega]
    refine ⟨?_, hlast⟩
    rw [hcontents, hslot, RingQueue.contents_push buf x (by omega), List.append_assoc]
    rfl

theorem fill_append (xs ys : List α) (buf : Fin n → α) (head : Nat) :
    fill buf head (xs ++ ys) = fill (fill buf head xs).1 (fill buf head xs).2 ys := by
  induction xs generalizing buf head with
  | nil => rfl
  | cons x xs ih => exact ih _ _

theorem write_append (r : Ring α n) (xs ys : List α) :
    (r.write w xs).write w ys = r.write w (xs ++ ys) := by
  simp only [write, fill_append, List.length_append, Nat.mod_add_mod, Nat.add_assoc]

theorem foldl_write (blocks : List (List α)) {r : Ring α n} (hr : r.count < 2 ^ w) :
    blocks.foldl (fun r xs => r.write w xs) r = r.write w blocks.flatten := by
  induction blocks generalizing r with
  | nil => simp [write, fill, Nat.mod_eq_of_lt hr]
  | cons xs blocks ih =>
    rw [List.foldl_cons, ih (Nat.mod_lt _ (Nat.two_pow_pos w)), write_append, List.flatten_cons]

theorem contents_write (h : r.WellFormed) (hw : n < 2 ^ w) {xs : List α}
    (hroom : r.count + xs.length ≤ n) : (r.write w xs).contents = r.contents ++ xs := by
  have hword : (r.count + xs.length) % 2 ^ w = r.count + xs.length := Nat.mod_eq_of_lt (by omega)
  simp only [write, contents, hword]
  exact (contents_fill xs r.buf h.head hroom).1

theorem WellFormed.write (h : r.WellFormed) (hw : n < 2 ^ w) {xs : List α}
    (hroom : r.count + xs.length ≤ n) : (r.write w xs).WellFormed := by
  have hword : (r.count + xs.length) % 2 ^ w = r.count + xs.length := Nat.mod_eq_of_lt (by omega)
  refine ⟨h.tail, ?_, ?_⟩
  · simpa only [Ring.write, hword] using hroom
  · simp only [Ring.write, hword]
    exact (contents_fill xs r.buf h.head hroom).2

theorem count_write (hw : n < 2 ^ w) {xs : List α} (hroom : r.count + xs.length ≤ n) :
    (r.write w xs).count = r.count + xs.length :=
  Nat.mod_eq_of_lt (by omega)

theorem WellFormed.clear (r : Ring α n) : r.clear.WellFormed :=
  ⟨Nat.pos_of_ne_zero (NeZero.ne n), Nat.zero_le n, (Nat.zero_mod n).symm⟩

@[simp] theorem contents_clear (r : Ring α n) : r.clear.contents = [] := rfl

@[simp] theorem length_contents (r : Ring α n) : r.contents.length = r.count :=
  RingQueue.length_contents ..

end Ring

end Pi1MHz.RingStream
