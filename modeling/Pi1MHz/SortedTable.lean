import Mathlib.Data.List.Sort

/-!
# Tables sorted by a key

A table that is sorted by a key and searched by halving.  A search finds an entry only where no
two entries share a key; `separate` goes through a sorted table and gives the second of each two
neighbours with one key another key.
-/

namespace Pi1MHz.SortedTable

variable {α κ : Type} [LinearOrder κ]

structure Sorter (key : α → κ) where
  run : List α → List α
  perm : ∀ l, (run l).Perm l
  sorted : ∀ l, (run l).Pairwise fun a b => key a ≤ key b

def Sorter.insertion (key : α → κ) : Sorter key where
  run := List.insertionSort fun a b => key a ≤ key b
  perm := List.perm_insertionSort _
  sorted l :=
    have : Std.Total fun a b : α => key a ≤ key b := ⟨fun a b => le_total (key a) (key b)⟩
    have : IsTrans α fun a b => key a ≤ key b := ⟨fun _ _ _ => le_trans⟩
    List.pairwise_insertionSort _ l

variable (key : α → κ)

/-! ### Searching -/

def bsearchIn (k : κ) : Nat → List α → Option α
  | 0, _ => none
  | left + 1, l =>
    match l.drop (l.length / 2) with
    | [] => none
    | m :: above =>
      if k = key m then some m
      else if k < key m then bsearchIn k left (l.take (l.length / 2))
      else bsearchIn k left above

def bsearch (k : κ) (l : List α) : Option α := bsearchIn key k l.length l

variable {key}

theorem bsearchIn_some {k : κ} {left : Nat} {l : List α} {x : α}
    (h : bsearchIn key k left l = some x) : x ∈ l ∧ key x = k := by
  induction left generalizing l with
  | zero => cases h
  | succ left ih =>
    rw [bsearchIn] at h
    split at h
    · cases h
    · next m above hdrop =>
      have hm : m ∈ l := List.mem_of_mem_drop (by rw [hdrop]; exact List.mem_cons_self)
      have habove : ∀ y ∈ above, y ∈ l := by
        intro y hy
        exact List.mem_of_mem_drop (by rw [hdrop]; exact List.mem_cons_of_mem m hy)
      split at h
      · next hk =>
        obtain rfl := Option.some.inj h
        exact ⟨hm, hk.symm⟩
      · split at h
        · obtain ⟨hx, hkey⟩ := ih h
          exact ⟨List.mem_of_mem_take hx, hkey⟩
        · obtain ⟨hx, hkey⟩ := ih h
          exact ⟨habove x hx, hkey⟩

theorem bsearch_some {k : κ} {l : List α} {x : α} (h : bsearch key k l = some x) :
    x ∈ l ∧ key x = k := bsearchIn_some h

theorem bsearchIn_mem {left : Nat} {l : List α} (hleft : l.length ≤ left)
    (hsorted : l.Pairwise fun a b => key a < key b) {x : α} (hx : x ∈ l) :
    bsearchIn key (key x) left l = some x := by
  induction left generalizing l with
  | zero =>
    have hnil : l = [] := List.length_eq_zero_iff.mp (by omega)
    rw [hnil] at hx
    cases hx
  | succ left ih =>
    have hpos : 0 < l.length := List.length_pos_of_mem hx
    obtain ⟨m, above, hdrop⟩ : ∃ m above, l.drop (l.length / 2) = m :: above := by
      apply List.exists_cons_of_length_pos
      rw [List.length_drop]
      omega
    have hsplit : l = l.take (l.length / 2) ++ m :: above := by
      rw [← hdrop, List.take_append_drop]
    have hlen : (l.drop (l.length / 2)).length = above.length + 1 := by rw [hdrop]; rfl
    rw [List.length_drop] at hlen
    rw [hsplit] at hsorted
    obtain ⟨hbelow, hfrom, hcross⟩ := List.pairwise_append.mp hsorted
    obtain ⟨hm, habove⟩ := List.pairwise_cons.mp hfrom
    rw [bsearchIn, hdrop]
    rw [hsplit] at hx
    rcases List.mem_append.mp hx with hx | hx
    · -- below the middle
      have hlt : key x < key m := hcross x hx m List.mem_cons_self
      simp only [hlt.ne, hlt, if_false, if_true]
      apply ih _ hbelow hx
      rw [List.length_take]
      omega
    · rcases List.mem_cons.mp hx with rfl | hx
      · simp
      · have hlt : key m < key x := hm x hx
        simp only [hlt.ne', hlt.not_gt, if_false]
        exact ih (by omega) habove hx

theorem bsearch_mem {l : List α} (hsorted : l.Pairwise fun a b => key a < key b) {x : α}
    (hx : x ∈ l) : bsearch key (key x) l = some x := bsearchIn_mem le_rfl hsorted hx

/-! ### Separating entries that share a key -/

variable (key) (rekey : Nat → α → α)

/-- The rest of a pass, from the entry with index `i` on; `prev` is the key before it.  Also says
whether anything was changed. -/
def separateFrom : Nat → κ → List α → List α × Bool
  | _, _, [] => ([], false)
  | i, prev, e :: rest =>
    let e' := if key e = prev then rekey i e else e
    let r := separateFrom (i + 1) (key e') rest
    (e' :: r.1, decide (key e = prev) || r.2)

def separate : List α → List α × Bool
  | [] => ([], false)
  | e :: rest =>
    let r := separateFrom key rekey 1 (key e) rest
    (e :: r.1, r.2)

variable {key rekey}

theorem separateFrom_quiet {i : Nat} {prev : κ} {l : List α}
    (h : (separateFrom key rekey i prev l).2 = false)
    (hsorted : l.Pairwise fun a b => key a ≤ key b) (hprev : ∀ e ∈ l, prev ≤ key e) :
    (separateFrom key rekey i prev l).1 = l ∧ (∀ e ∈ l, prev < key e) ∧
      l.Pairwise fun a b => key a < key b := by
  induction l generalizing i prev with
  | nil => simp [separateFrom]
  | cons e rest ih =>
    have hne : key e ≠ prev := by
      intro heq
      simp [separateFrom, heq] at h
    obtain ⟨he, hrest⟩ := List.pairwise_cons.mp hsorted
    simp only [separateFrom, hne, if_false, decide_false, Bool.false_or] at h ⊢
    obtain ⟨hsame, hlt, hstrict⟩ := ih h hrest he
    have hlow : prev < key e := lt_of_le_of_ne (hprev e List.mem_cons_self) (Ne.symm hne)
    refine ⟨by rw [hsame], ?_, List.pairwise_cons.mpr ⟨hlt, hstrict⟩⟩
    intro x hx
    rcases List.mem_cons.mp hx with rfl | hx
    · exact hlow
    · exact hlow.trans (hlt x hx)

theorem separateFrom_of_strict {i : Nat} {prev : κ} {l : List α} (hprev : ∀ e ∈ l, prev < key e)
    (h : l.Pairwise fun a b => key a < key b) : separateFrom key rekey i prev l = (l, false) := by
  induction l generalizing i prev with
  | nil => rfl
  | cons e rest ih =>
    obtain ⟨he, hrest⟩ := List.pairwise_cons.mp h
    have hne : key e ≠ prev := (hprev e List.mem_cons_self).ne'
    simp only [separateFrom, hne, if_false, ih he hrest, decide_false, Bool.false_or]

theorem separate_of_strict {l : List α} (h : l.Pairwise fun a b => key a < key b) :
    separate key rekey l = (l, false) := by
  cases l with
  | nil => rfl
  | cons e rest =>
    obtain ⟨he, hrest⟩ := List.pairwise_cons.mp h
    simp only [separate, separateFrom_of_strict he hrest]

theorem separate_quiet {l : List α} (h : (separate key rekey l).2 = false)
    (hsorted : l.Pairwise fun a b => key a ≤ key b) :
    (separate key rekey l).1 = l ∧ l.Pairwise fun a b => key a < key b := by
  cases l with
  | nil => simp [separate]
  | cons e rest =>
    obtain ⟨he, hrest⟩ := List.pairwise_cons.mp hsorted
    obtain ⟨hsame, hlt, hstrict⟩ := separateFrom_quiet h hrest he
    exact ⟨by simp only [separate, hsame], List.pairwise_cons.mpr ⟨hlt, hstrict⟩⟩

/-- What a pass relies on: it is given a sorted table, `C` holds of the entries it may come to
change, and the keys it gives to these are not in the table. -/
structure Separable (key : α → κ) (rekey : Nat → α → α) (C : α → Prop) (l : List α) : Prop where
  sorted : l.Pairwise fun a b => key a ≤ key b
  pairs : l.Pairwise fun a b => key a = key b → C b
  fresh : ∀ a ∈ l, C a → ∀ i, ∀ b ∈ l, key (rekey i a) ≠ key b

variable {C : α → Prop}

theorem Separable.tail {e : α} {rest : List α} (h : Separable key rekey C (e :: rest)) :
    Separable key rekey C rest where
  sorted := (List.pairwise_cons.mp h.sorted).2
  pairs := (List.pairwise_cons.mp h.pairs).2
  fresh a ha hC i b hb :=
    h.fresh a (List.mem_cons_of_mem e ha) hC i b (List.mem_cons_of_mem e hb)

theorem Separable.next {e : α} {rest : List α} (h : Separable key rekey C (e :: rest)) {prev : κ}
    (hprev : key e = prev → C e) (i : Nat) :
    ∀ b ∈ rest, key b = key (if key e = prev then rekey i e else e) → C b := by
  intro b hb heq
  split at heq
  · next hk =>
    exact absurd heq.symm
      (h.fresh e List.mem_cons_self (hprev hk) i b (List.mem_cons_of_mem e hb))
  · exact (List.pairwise_cons.mp h.pairs).1 b hb heq.symm

theorem mem_separateFrom {i : Nat} {prev : κ} {l : List α} (h : Separable key rekey C l)
    (hprev : ∀ e ∈ l, key e = prev → C e) {x : α}
    (hx : x ∈ (separateFrom key rekey i prev l).1) :
    x ∈ l ∨ ∃ e ∈ l, C e ∧ ∃ j, x = rekey j e := by
  induction l generalizing i prev with
  | nil => cases hx
  | cons e rest ih =>
    have he := hprev e List.mem_cons_self
    rcases List.mem_cons.mp hx with rfl | hx
    · by_cases hk : key e = prev
      · exact Or.inr ⟨e, List.mem_cons_self, he hk, i, if_pos hk⟩
      · left
        rw [if_neg hk]
        exact List.mem_cons_self
    · rcases ih h.tail (h.next he i) hx with hx | ⟨d, hd, hC⟩
      · exact Or.inl (List.mem_cons_of_mem e hx)
      · exact Or.inr ⟨d, List.mem_cons_of_mem e hd, hC⟩

theorem mem_separate {l : List α} (h : Separable key rekey C l) {x : α}
    (hx : x ∈ (separate key rekey l).1) : x ∈ l ∨ ∃ e ∈ l, C e ∧ ∃ j, x = rekey j e := by
  cases l with
  | nil => cases hx
  | cons e rest =>
    rcases List.mem_cons.mp hx with rfl | hx
    · exact Or.inl List.mem_cons_self
    · have hprev : ∀ b ∈ rest, key b = key e → C b :=
        fun b hb heq => (List.pairwise_cons.mp h.pairs).1 b hb heq.symm
      rcases mem_separateFrom h.tail hprev hx with hx | ⟨d, hd, hC⟩
      · exact Or.inl (List.mem_cons_of_mem e hx)
      · exact Or.inr ⟨d, List.mem_cons_of_mem e hd, hC⟩

theorem map_separateFrom {β : Type} {f : α → β} (hf : ∀ i e, f (rekey i e) = f e) (i : Nat)
    (prev : κ) (l : List α) : (separateFrom key rekey i prev l).1.map f = l.map f := by
  induction l generalizing i prev with
  | nil => rfl
  | cons e rest ih =>
    simp only [separateFrom, List.map_cons, ih, List.cons.injEq, and_true]
    split
    · exact hf i e
    · rfl

theorem map_separate {β : Type} {f : α → β} (hf : ∀ i e, f (rekey i e) = f e) (l : List α) :
    (separate key rekey l).1.map f = l.map f := by
  cases l with
  | nil => rfl
  | cons e rest => simp only [separate, List.map_cons, map_separateFrom hf]

def keyCount (key : α → κ) (k : κ) (l : List α) : Nat := l.countP fun e => key e = k

theorem keyCount_cons (k : κ) (e : α) (l : List α) :
    keyCount key k (e :: l) = keyCount key k l + if key e = k then 1 else 0 := by
  simp [keyCount, List.countP_cons]

theorem keyCount_eq_zero {k : κ} {l : List α} (h : ∀ e ∈ l, k < key e) : keyCount key k l = 0 := by
  apply List.countP_eq_zero.mpr
  intro e he
  simpa using (h e he).ne'

theorem keyCount_separateFrom {i : Nat} {prev k : κ} {l : List α} (h : Separable key rekey C l)
    (hprev : ∀ e ∈ l, key e = prev → C e) (hle : prev = k → ∀ e ∈ l, k ≤ key e)
    (hk : ∀ e ∈ l, C e → ∀ j, key (rekey j e) ≠ k) :
    keyCount key k (separateFrom key rekey i prev l).1
      ≤ if prev = k then keyCount key k l / 2 else (keyCount key k l + 1) / 2 := by
  induction l generalizing i prev with
  | nil => simp [separateFrom, keyCount]
  | cons e rest ih =>
    have he := hprev e List.mem_cons_self
    have hsorted := (List.pairwise_cons.mp h.sorted).1
    have hrest : ∀ b ∈ rest, C b → ∀ j, key (rekey j b) ≠ k :=
      fun b hb => hk b (List.mem_cons_of_mem e hb)
    have hnext := h.next he i
    simp only [separateFrom]
    by_cases hkey : key e = prev
    · -- this one is given another key, which is not `k`
      have hne : key (rekey i e) ≠ k := hk e List.mem_cons_self (he hkey) i
      simp only [hkey, if_true] at hnext ⊢
      have := ih h.tail hnext (fun heq => absurd heq hne) hrest (i := i + 1)
      rw [keyCount_cons, keyCount_cons, if_neg hne, hkey]
      rw [if_neg hne] at this
      split
      · omega
      · omega
    · simp only [hkey, if_false] at hnext ⊢
      have hbelow : key e = k → ∀ b ∈ rest, k ≤ key b := fun heq b hb => heq ▸ hsorted b hb
      have := ih h.tail hnext hbelow hrest (i := i + 1)
      rw [keyCount_cons, keyCount_cons]
      by_cases hek : key e = k
      · have hpk : prev ≠ k := fun heq => hkey (hek.trans heq.symm)
        rw [if_pos hek] at this ⊢
        rw [if_neg hpk]
        omega
      · rw [if_neg hek] at this ⊢
        split
        · next hpk =>
          -- the entries with key `k` are behind
          have hlt : k < key e := lt_of_le_of_ne (hle hpk e List.mem_cons_self) (Ne.symm hek)
          have hzero : keyCount key k rest = 0 :=
            keyCount_eq_zero fun b hb => hlt.trans_le (hsorted b hb)
          rw [hzero] at this ⊢
          omega
        · omega

theorem keyCount_separate_le {k : κ} {l : List α} (h : Separable key rekey C l)
    (hk : ∀ e ∈ l, C e → ∀ j, key (rekey j e) ≠ k) :
    keyCount key k (separate key rekey l).1 ≤ (keyCount key k l + 1) / 2 := by
  cases l with
  | nil => simp [separate, keyCount]
  | cons e rest =>
    have hsorted := (List.pairwise_cons.mp h.sorted).1
    have hstep := keyCount_separateFrom (i := 1) h.tail
      (fun b hb heq => (List.pairwise_cons.mp h.pairs).1 b hb heq.symm)
      (fun heq b hb => heq ▸ hsorted b hb) (fun b hb => hk b (List.mem_cons_of_mem e hb))
    simp only [separate]
    rw [keyCount_cons, keyCount_cons]
    split at hstep
    · next heq =>
      rw [if_pos heq]
      omega
    · next hne =>
      rw [if_neg hne]
      omega

theorem keyCount_perm {k : κ} {l l' : List α} (h : l.Perm l') :
    keyCount key k l = keyCount key k l' := h.countP_eq _

theorem strict_of_keyCount {l : List α} (hsorted : l.Pairwise fun a b => key a ≤ key b)
    (h : ∀ k, keyCount key k l ≤ 1) : l.Pairwise fun a b => key a < key b := by
  induction l with
  | nil => exact List.Pairwise.nil
  | cons e rest ih =>
    obtain ⟨he, hrest⟩ := List.pairwise_cons.mp hsorted
    apply List.pairwise_cons.mpr
    constructor
    · intro b hb
      apply lt_of_le_of_ne (he b hb)
      intro heq
      have hpos : 0 < keyCount key (key e) rest :=
        List.countP_pos_iff.mpr ⟨b, hb, by simpa using heq.symm⟩
      have := h (key e)
      rw [keyCount_cons, if_pos rfl] at this
      omega
    · apply ih hrest
      intro k
      have := h k
      rw [keyCount_cons] at this
      omega

end Pi1MHz.SortedTable
