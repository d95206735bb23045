import Mathlib.Data.List.Infix

/-!
# Trees of files

A tree of directories and files, as a finite map from paths to entries.  A path is the list of the
names along it.
-/

namespace Pi1MHz.FileTree

inductive Entry (μ : Type) where
  | dir (info : μ)
  | file (data : List UInt8) (info : μ) (readOnly : Bool)
deriving DecidableEq, Repr

variable {α μ : Type}

namespace Entry

def isDir : Entry μ → Bool
  | dir _ => true
  | file .. => false

def info : Entry μ → μ
  | dir i => i
  | file _ i _ => i

def setInfo (i : μ) : Entry μ → Entry μ
  | dir _ => dir i
  | file data _ readOnly => file data i readOnly

theorem setInfo_self (e : Entry μ) : e.setInfo e.info = e := by
  cases e <;> rfl

def content : Entry μ → Option (List UInt8)
  | dir _ => none
  | file data .. => some data

end Entry

abbrev Files (α μ : Type) := List (List α × Entry μ)

variable [DecidableEq α]

namespace Files

def get (t : Files α μ) (k : List α) : Option (Entry μ) := List.lookup k t

def put (t : Files α μ) (k : List α) (e : Entry μ) : Files α μ := (k, e) :: t

def remove (t : Files α μ) (k : List α) : Files α μ := t.filter fun p => p.1 ≠ k

def isDir (t : Files α μ) (k : List α) : Bool := k.isEmpty || (t.get k).any Entry.isDir

def hasChildren (t : Files α μ) (k : List α) : Bool :=
  t.any fun p => decide (k <+: p.1) && decide (p.1 ≠ k)

/-- Where the entry at `k` goes when what is at `s` moves to `d`. -/
def moveKey (s d k : List α) : Option (List α) :=
  if s <+: k then if s <+: d then none else some (d ++ k.drop s.length)
  else if d <+: k then none
  else some k

/-- Everything at and below `s` moves to `d`; if that is itself below `s`, it is lost. -/
def move (t : Files α μ) (s d : List α) : Files α μ :=
  t.filterMap fun p => (moveKey s d p.1).map fun k => (k, p.2)

theorem get_put (t : Files α μ) (k : List α) (e : Entry μ) (k' : List α) :
    (t.put k e).get k' = if k' = k then some e else t.get k' := by
  by_cases h : k' = k
  · simp [get, put, h]
  · have hb : (k' == k) = false := beq_eq_false_iff_ne.mpr h
    simp [get, put, List.lookup_cons, h, hb]

theorem get_remove (t : Files α μ) (k k' : List α) :
    (t.remove k).get k' = if k' = k then none else t.get k' := by
  induction t with
  | nil => simp [get, remove]
  | cons p t ih =>
    obtain ⟨k₀, e⟩ := p
    simp only [get, remove] at ih ⊢
    by_cases h₀ : k₀ = k
    · subst h₀
      rw [List.filter_cons_of_neg (by simp), ih]
      by_cases h : k' = k₀
      · simp [h]
      · have hb : (k' == k₀) = false := beq_eq_false_iff_ne.mpr h
        simp [h, hb, List.lookup_cons]
    · rw [List.filter_cons_of_pos (by simp [h₀]), List.lookup_cons, List.lookup_cons, ih]
      by_cases h : k' = k₀
      · subst h
        simp [h₀]
      · have hb : (k' == k₀) = false := beq_eq_false_iff_ne.mpr h
        simp [hb]

theorem get_move_of (t : Files α μ) (s d k k₀ : List α)
    (h : ∀ k', moveKey s d k' = some k ↔ k' = k₀) : (t.move s d).get k = t.get k₀ := by
  induction t with
  | nil => rfl
  | cons p t ih =>
    obtain ⟨k', e⟩ := p
    simp only [get, move] at ih ⊢
    rw [List.filterMap_cons, List.lookup_cons]
    by_cases hk : k' = k₀
    · subst hk
      simp [(h k').mpr rfl]
    · have hb : (k₀ == k') = false := beq_eq_false_iff_ne.mpr (Ne.symm hk)
      cases hm : moveKey s d k' with
      | none => simp [hb, ih]
      | some k'' =>
        have hne : (k == k'') = false := beq_eq_false_iff_ne.mpr fun heq =>
          hk ((h k').mp (hm.trans (congrArg some heq.symm)))
        simp [hb, hne, List.lookup_cons, ih]

theorem get_move_none (t : Files α μ) (s d k : List α) (h : ∀ k', moveKey s d k' ≠ some k) :
    (t.move s d).get k = none := by
  induction t with
  | nil => rfl
  | cons p t ih =>
    obtain ⟨k', e⟩ := p
    simp only [get, move] at ih ⊢
    rw [List.filterMap_cons]
    cases hm : moveKey s d k' with
    | none => simpa using ih
    | some k'' =>
      have hne : (k == k'') = false := beq_eq_false_iff_ne.mpr fun heq =>
        h k' (hm.trans (congrArg some heq.symm))
      simpa [List.lookup_cons, hne] using ih

theorem get_move_dest (t : Files α μ) {s d : List α} (hs : ¬s <+: d) (k : List α) :
    (t.move s d).get (d ++ k) = t.get (s ++ k) := by
  apply get_move_of
  intro k'
  unfold moveKey
  split
  · next hk =>
    obtain ⟨r, rfl⟩ := hk
    simp
  · next hk =>
    split
    · simp only [reduceCtorEq, false_iff]
      rintro rfl
      exact hk (List.prefix_append s k)
    · next hd =>
      simp only [Option.some.injEq]
      constructor
      · rintro rfl
        exact absurd (List.prefix_append d k) hd
      · rintro rfl
        exact absurd (List.prefix_append s k) hk

theorem get_move_source (t : Files α μ) {s d : List α} (hd : ¬d <+: s) {k : List α}
    (hk : s <+: k) : (t.move s d).get k = none := by
  apply get_move_none
  intro k'
  unfold moveKey
  split
  · split
    · nofun
    · next hs =>
      intro h
      rw [← Option.some.inj h] at hk
      rcases List.prefix_or_prefix_of_prefix hk (List.prefix_append d _) with h | h
      · exact hs h
      · exact hd h
  · next hk' =>
    split
    · nofun
    · intro h
      exact hk' (Option.some.inj h ▸ hk)

theorem get_move_other (t : Files α μ) {s d k : List α} (hs : ¬s <+: k) (hd : ¬d <+: k) :
    (t.move s d).get k = t.get k := by
  apply get_move_of
  intro k'
  unfold moveKey
  split
  · next hk =>
    have hne : k' ≠ k := by
      rintro rfl
      exact hs hk
    split
    · simp [hne]
    · simp only [Option.some.injEq, hne, iff_false]
      rintro rfl
      exact hd (List.prefix_append d _)
  · split
    · next hk =>
      have hne : k' ≠ k := by
        rintro rfl
        exact hd hk
      simp [hne]
    · simp

end Files

end Pi1MHz.FileTree
