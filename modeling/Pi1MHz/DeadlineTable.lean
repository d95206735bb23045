import Pi1MHz.WrapClock
import Mathlib.Data.Fintype.Card
import Mathlib.Data.List.FinRange
import Mathlib.Logic.Function.Basic

/-!
# Tables of keyed deadlines

A small fixed table whose entries say "this key is under a verdict until `due`".
An entry dies in two ways: it is overwritten, or a lookup of its key finds the
deadline passed and clears it.
-/

namespace Pi1MHz.DeadlineTable

open WrapClock

variable {κ : Type} [DecidableEq κ] {n : Nat}

structure Entry (κ : Type) where
  valid : Bool
  key : κ
  due : UInt32
deriving DecidableEq, Repr

structure Found (κ : Type) (n : Nat) where
  hit : Option (Fin n)
  table : Fin n → Entry κ
  reads : Nat

def own (t : Fin n → Entry κ) (key : κ) : Option (Fin n) :=
  (List.finRange n).find? fun i => (t i).valid && decide ((t i).key = key)

def find (now : Nat → UInt32) (t : Fin n → Entry κ) (key : κ) (reads : Nat) : Found κ n :=
  match own t key with
  | none => ⟨none, t, reads⟩
  | some i =>
      if reached (now reads) (t i).due then
        ⟨none, Function.update t i { t i with valid := false }, reads + 1⟩
      else ⟨some i, t, reads + 1⟩

/-- Scan for a slot to overwrite: the first free or expired one, else the one with
    the earliest deadline (`best` is the earliest seen so far). -/
def victim (now : Nat → UInt32) (t : Fin n → Entry κ) :
    List (Fin n) → Nat → Fin n → Fin n × Nat
  | [], reads, best => (best, reads)
  | i :: rest, reads, best =>
      if (t i).valid = false then (i, reads)
      else if reached (now reads) (t i).due then (i, reads + 1)
      else victim now t rest (reads + 1) (if laterThan (t best).due (t i).due then i else best)

/-- The slot a writer of `key` uses, and the reads made to choose it. -/
def place [NeZero n] (now : Nat → UInt32) (t : Fin n → Entry κ) (key : κ) (reads : Nat) :
    Fin n × Nat :=
  match own t key with
  | some i => (i, reads)
  | none => victim now t (List.finRange n) reads 0

def Unique (t : Fin n → Entry κ) : Prop :=
  ∀ i j, (t i).valid = true → (t j).valid = true → (t i).key = (t j).key → i = j

theorem own_some {t : Fin n → Entry κ} {key : κ} {i : Fin n} (h : own t key = some i) :
    (t i).valid = true ∧ (t i).key = key := by
  have := List.find?_some h
  simpa using this

theorem own_eq_none_iff {t : Fin n → Entry κ} {key : κ} :
    own t key = none ↔ ∀ i, (t i).valid = true → (t i).key ≠ key := by
  simp [own, List.find?_eq_none]

/-! ### Lookup -/

theorem find_table {now : Nat → UInt32} {t : Fin n → Entry κ} {key : κ} {reads : Nat}
    {i : Fin n} (h : ((find now t key reads).table i).valid = true) :
    (find now t key reads).table i = t i := by
  unfold find at h ⊢
  cases ho : own t key with
  | none => rfl
  | some j =>
    simp only [ho] at h ⊢
    split
    · rename_i hr
      simp only [hr, if_true] at h
      by_cases hij : i = j
      · subst hij
        simp at h
      · simp [Function.update_of_ne hij]
    · rfl

theorem find_cleared {now : Nat → UInt32} {t : Fin n → Entry κ} {key : κ} {reads : Nat}
    {i : Fin n} (hold : (t i).valid = true)
    (hgone : ((find now t key reads).table i).valid = false) :
    reached (now reads) (t i).due = true ∧ (find now t key reads).reads = reads + 1 := by
  unfold find at hgone ⊢
  cases ho : own t key with
  | none =>
    simp only [ho, hold] at hgone
    cases hgone
  | some j =>
    simp only [ho] at hgone ⊢
    split
    · rename_i hr
      simp only [hr, if_true] at hgone
      by_cases hij : i = j
      · subst hij
        exact ⟨hr, rfl⟩
      · rw [Function.update_of_ne hij, hold] at hgone
        cases hgone
    · rename_i hr
      rw [if_neg hr, hold] at hgone
      cases hgone

theorem find_unique {now : Nat → UInt32} {t : Fin n → Entry κ} (key : κ) (reads : Nat)
    (hu : Unique t) : Unique (find now t key reads).table := by
  intro i j hi hj hkey
  have hieq := find_table hi
  have hjeq := find_table hj
  rw [hieq] at hi hkey
  rw [hjeq] at hj hkey
  exact hu i j hi hj hkey

theorem find_absent {now : Nat → UInt32} {t : Fin n → Entry κ} {key : κ} {reads : Nat}
    (hu : Unique t) (hmiss : (find now t key reads).hit = none) :
    own (find now t key reads).table key = none := by
  rw [own_eq_none_iff]
  intro i hi hkey
  have heq := find_table hi
  rw [heq] at hi hkey
  unfold find at hmiss heq
  cases ho : own t key with
  | none => exact own_eq_none_iff.mp ho i hi hkey
  | some j =>
    obtain ⟨hj, hjkey⟩ := own_some ho
    have hij : i = j := hu i j hi hj (hkey.trans hjkey.symm)
    subst hij
    simp only [ho] at hmiss heq
    split at hmiss
    · rename_i hr
      -- the expired entry was cleared, so it cannot still be valid
      simp only [hr, if_true, Function.update_self] at heq
      rw [← heq] at hi
      simp at hi
    · simp at hmiss

theorem find_own_other (now : Nat → UInt32) (t : Fin n → Entry κ) {key key' : κ} (reads : Nat)
    (hne : key' ≠ key) : own (find now t key reads).table key' = own t key' := by
  unfold find
  cases ho : own t key with
  | none => rfl
  | some j =>
    obtain ⟨-, hkey⟩ := own_some ho
    by_cases hdue : reached (now reads) (t j).due = true
    · simp only [if_pos hdue]
      unfold own
      congr 1
      funext i
      by_cases hij : i = j
      · subst hij
        rw [Function.update_self, hkey, decide_eq_false hne.symm, Bool.and_false, Bool.and_false]
      · rw [Function.update_of_ne hij]
    · simp only [if_neg hdue]

theorem find_hit {now : Nat → UInt32} {t : Fin n → Entry κ} {key : κ} {reads : Nat}
    {i : Fin n} (h : (find now t key reads).hit = some i) :
    own t key = some i ∧ reached (now reads) (t i).due = false ∧
      (find now t key reads).table = t ∧ (find now t key reads).reads = reads + 1 := by
  unfold find at h ⊢
  cases ho : own t key with
  | none => simp [ho] at h
  | some j =>
    simp only [ho] at h ⊢
    split at h
    · simp at h
    · rename_i hr
      simp only [Option.some.injEq] at h
      subst h
      simp [hr]

theorem find_reads_le (now : Nat → UInt32) (t : Fin n → Entry κ) (key : κ) (reads : Nat) :
    reads ≤ (find now t key reads).reads := by
  unfold find
  split
  · exact Nat.le_refl _
  · split <;> exact Nat.le_succ _

/-! ### Writing -/

omit [DecidableEq κ] in
theorem victim_reads_le (now : Nat → UInt32) (t : Fin n → Entry κ) :
    ∀ (slots : List (Fin n)) (reads : Nat) (best : Fin n),
      reads ≤ (victim now t slots reads best).2 := by
  intro slots
  induction slots with
  | nil => intro reads best; exact Nat.le_refl _
  | cons i rest ih =>
    intro reads best
    rw [victim]
    split
    · exact Nat.le_refl _
    · split
      · exact Nat.le_succ _
      · exact Nat.le_trans (Nat.le_succ _) (ih _ _)

theorem place_reads_le [NeZero n] (now : Nat → UInt32) (t : Fin n → Entry κ) (key : κ)
    (reads : Nat) : reads ≤ (place now t key reads).2 := by
  unfold place
  split
  · exact Nat.le_refl _
  · exact victim_reads_le now t _ _ _

omit [DecidableEq κ] in
theorem victim_not_live (now : Nat → UInt32) (t : Fin n → Entry κ) :
    ∀ (slots : List (Fin n)) (reads : Nat) (best : Fin n),
      (∃ i ∈ slots, (t i).valid = false) →
      (t (victim now t slots reads best).1).valid = false ∨
        ∃ k, reads ≤ k ∧ k < (victim now t slots reads best).2 ∧
          reached (now k) (t (victim now t slots reads best).1).due = true := by
  intro slots
  induction slots with
  | nil =>
    rintro reads best ⟨i, hi, -⟩
    cases hi
  | cons i rest ih =>
    rintro reads best ⟨j, hj, hfree⟩
    rw [victim]
    split
    · rename_i hv
      exact Or.inl hv
    · rename_i hv
      split
      · rename_i hr
        exact Or.inr ⟨reads, Nat.le_refl _, Nat.lt_succ_self _, hr⟩
      · have hrest : ∃ i ∈ rest, (t i).valid = false := by
          rcases List.mem_cons.mp hj with rfl | hmem
          · exact absurd hfree hv
          · exact ⟨j, hmem, hfree⟩
        rcases ih (reads + 1) _ hrest with h | ⟨k, hk, hlt, hr⟩
        · exact Or.inl h
        · exact Or.inr ⟨k, by omega, hlt, hr⟩

theorem place_own [NeZero n] {now : Nat → UInt32} {t : Fin n → Entry κ} {key : κ}
    {reads : Nat} {i : Fin n} (h : own t key = some i) :
    place now t key reads = (i, reads) := by
  simp [place, h]

theorem place_other [NeZero n] {now : Nat → UInt32} {t : Fin n → Entry κ} {key : κ} {reads : Nat}
    (hu : Unique t) {i : Fin n} (hne : i ≠ (place now t key reads).1) (hv : (t i).valid = true) :
    (t i).key ≠ key := by
  intro hkey
  cases ho : own t key with
  | none => exact own_eq_none_iff.mp ho i hv hkey
  | some j =>
    obtain ⟨hj, hjkey⟩ := own_some ho
    apply hne
    rw [place_own ho]
    exact hu i j hv hj (hkey.trans hjkey.symm)

theorem place_unique [NeZero n] {now : Nat → UInt32} {t : Fin n → Entry κ} (key : κ)
    (due : UInt32) (reads : Nat) (hu : Unique t) :
    Unique (Function.update t (place now t key reads).1 ⟨true, key, due⟩) := by
  intro i j hi hj hkey
  by_cases hip : i = (place now t key reads).1
  · by_cases hjp : j = (place now t key reads).1
    · exact hip.trans hjp.symm
    · rw [hip, Function.update_self, Function.update_of_ne hjp] at hkey
      rw [Function.update_of_ne hjp] at hj
      exact absurd hkey.symm (place_other hu hjp hj)
  · by_cases hjp : j = (place now t key reads).1
    · rw [hjp, Function.update_self, Function.update_of_ne hip] at hkey
      rw [Function.update_of_ne hip] at hi
      exact absurd hkey (place_other hu hip hi)
    · rw [Function.update_of_ne hip] at hi hkey
      rw [Function.update_of_ne hjp] at hj hkey
      exact hu i j hi hj hkey

/-- A table with an entry for some of the members of a list no longer than the
    table, but none for one member, has a free slot. -/
theorem exists_free {t : Fin n → Entry κ} {members : List κ} {key : κ} (hu : Unique t)
    (hmem : ∀ i, (t i).valid = true → (t i).key ∈ members) (hkey : key ∈ members)
    (habsent : own t key = none) (hlen : members.length ≤ n) :
    ∃ i, (t i).valid = false := by
  by_contra hfull
  have hvalid : ∀ i, (t i).valid = true := by
    intro i
    cases hv : (t i).valid with
    | true => rfl
    | false => exact absurd ⟨i, hv⟩ hfull
  -- the `n` keys of the table and `key` itself are distinct members
  have hinj : Function.Injective fun i => (t i).key := fun i j h => hu i j (hvalid i) (hvalid j) h
  have hnot : key ∉ Finset.univ.image fun i => (t i).key := by
    intro h
    obtain ⟨i, -, hi⟩ := Finset.mem_image.mp h
    exact own_eq_none_iff.mp habsent i (hvalid i) hi
  have hsub : insert key (Finset.univ.image fun i => (t i).key) ⊆ members.toFinset := by
    intro k hk
    rcases Finset.mem_insert.mp hk with rfl | hk
    · exact List.mem_toFinset.mpr hkey
    · obtain ⟨i, -, rfl⟩ := Finset.mem_image.mp hk
      exact List.mem_toFinset.mpr (hmem i (hvalid i))
  have hcard := Finset.card_le_card hsub
  rw [Finset.card_insert_of_notMem hnot, Finset.card_image_of_injective _ hinj] at hcard
  have := members.toFinset_card_le
  simp only [Finset.card_univ, Fintype.card_fin] at hcard
  omega

end Pi1MHz.DeadlineTable
