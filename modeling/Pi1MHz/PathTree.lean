import Mathlib.Data.List.Infix
import Mathlib.Data.List.Nodup
import Mathlib.Data.List.Perm.Basic
import Mathlib.Data.List.Dedup

/-!
# Things that lie in one another

A family of things, each with a path, where what a thing lies in belongs to the family too.  The
top is the empty path and belongs to none.
-/

namespace Pi1MHz.PathTree

variable {ν α : Type}

structure Closed (path : ν → List α) (U : List ν) : Prop where
  nodup : (U.map path).Nodup
  ne_nil : ∀ v ∈ U, path v ≠ []
  parent : ∀ v ∈ U, (path v).dropLast ≠ [] → ∃ u ∈ U, path u = (path v).dropLast

variable {path : ν → List α} {U : List ν}

theorem Closed.inj (h : Closed path U) {u v : ν} (hu : u ∈ U) (hv : v ∈ U) (heq : path u = path v) :
    u = v := List.inj_on_of_nodup_map h.nodup hu hv heq

theorem Closed.above (h : Closed path U) {v : ν} (hv : v ∈ U) {p : List α} (hp : p <+: path v)
    (hne : p ≠ []) : ∃ u ∈ U, path u = p := by
  generalize hn : (path v).length = n
  induction n generalizing v with
  | zero =>
    have := hp.length_le
    exact absurd (List.length_eq_zero_iff.mp (by omega)) hne
  | succ n ih =>
    rcases List.prefix_concat_iff.mp
        ((List.dropLast_concat_getLast (h.ne_nil v hv)).symm ▸ hp) with heq | hdrop
    · refine ⟨v, hv, ?_⟩
      rw [heq, List.dropLast_concat_getLast]
    · have hdne : (path v).dropLast ≠ [] := by
        intro hnil
        rw [hnil] at hdrop
        exact hne (List.prefix_nil.mp hdrop)
      obtain ⟨u, hu, hpath⟩ := h.parent v hv hdne
      apply ih hu
      · rw [hpath]
        exact hdrop
      · rw [hpath, List.length_dropLast]
        omega

/-- From `p` down, `n` levels at most; `kids` lists what lies in a path. -/
def enumerate (path : ν → List α) (kids : List α → List ν) : Nat → List α → List ν
  | 0, _ => []
  | n + 1, p => (kids p).flatMap fun v => v :: enumerate path kids n (path v)

/-- What `kids` must be: the members that lie in the path, each once. -/
structure Lists (path : ν → List α) (U : List ν) (kids : List α → List ν) : Prop where
  mem : ∀ p v, v ∈ kids p ↔ v ∈ U ∧ (path v).dropLast = p
  nodup : ∀ p, (kids p).Nodup

variable {kids : List α → List ν}

theorem exists_step {p q : List α} (h : p <+: q) (hne : q ≠ p) : ∃ a, p ++ [a] <+: q := by
  obtain ⟨t, rfl⟩ := h
  cases t with
  | nil => simp at hne
  | cons a t => exact ⟨a, t, by simp⟩

theorem mem_enumerate (hU : Closed path U) (hk : Lists path U kids) {n : Nat} {p : List α} {v : ν} :
    v ∈ enumerate path kids n p
      ↔ v ∈ U ∧ p <+: path v ∧ path v ≠ p ∧ (path v).length ≤ p.length + n := by
  induction n generalizing p with
  | zero =>
    constructor
    · nofun
    · rintro ⟨-, hp, hne, hlen⟩
      exact absurd (hp.eq_of_length_le hlen).symm hne
  | succ n ih =>
    simp only [enumerate, List.mem_flatMap, List.mem_cons, hk.mem]
    constructor
    · rintro ⟨u, ⟨hu, hdrop⟩, rfl | hv⟩
      · have hlen : (path v).dropLast.length = p.length := by rw [hdrop]
        rw [List.length_dropLast] at hlen
        have hpos := List.length_pos_iff.mpr (hU.ne_nil v hu)
        refine ⟨hu, hdrop ▸ List.dropLast_prefix _, ?_, by omega⟩
        intro heq
        rw [heq] at hlen hpos
        omega
      · obtain ⟨hv, hpre, hne, hlen⟩ := ih.mp hv
        have hulen : (path u).dropLast.length = p.length := by rw [hdrop]
        rw [List.length_dropLast] at hulen
        have hupos := List.length_pos_iff.mpr (hU.ne_nil u hu)
        refine ⟨hv, (hdrop ▸ List.dropLast_prefix _).trans hpre, ?_, by omega⟩
        intro heq
        have := hpre.length_le
        rw [heq] at this
        omega
    · rintro ⟨hv, hpre, hne, hlen⟩
      obtain ⟨a, ha⟩ := exists_step hpre hne
      obtain ⟨u, hu, hpath⟩ := hU.above hv ha (by simp)
      refine ⟨u, ⟨hu, by rw [hpath, List.dropLast_concat]⟩, ?_⟩
      by_cases heq : v = u
      · exact Or.inl heq
      · right
        apply ih.mpr
        refine ⟨hv, hpath ▸ ha, fun h => heq (hU.inj hv hu h), ?_⟩
        rw [hpath, List.length_append, List.length_singleton]
        omega

theorem nodup_enumerate (hU : Closed path U) (hk : Lists path U kids) (n : Nat) (p : List α) :
    (enumerate path kids n p).Nodup := by
  induction n generalizing p with
  | zero => exact List.nodup_nil
  | succ n ih =>
    apply List.nodup_flatMap.mpr
    constructor
    · intro u hu
      apply List.nodup_cons.mpr
      refine ⟨?_, ih (path u)⟩
      intro hself
      exact ((mem_enumerate hU hk).mp hself).2.2.1 rfl
    · -- what is reached through one member lies below it, and the members lie beside each other
      have hbelow : ∀ u ∈ kids p, ∀ v ∈ u :: enumerate path kids n (path u),
          path u <+: path v := by
        intro u _ v hv
        rcases List.mem_cons.mp hv with rfl | hv
        · exact List.prefix_rfl
        · exact ((mem_enumerate hU hk).mp hv).2.1
      have hlen : ∀ u ∈ kids p, (path u).length = p.length + 1 := by
        intro u hu
        obtain ⟨hmem, hdrop⟩ := (hk.mem p u).mp hu
        have hpos := List.length_pos_iff.mpr (hU.ne_nil u hmem)
        rw [← hdrop, List.length_dropLast]
        omega
      apply (hk.nodup p).imp_of_mem
      intro u w hu hw hne v hvu hvw
      have heq : path u = path w :=
        List.prefix_of_prefix_length_le (hbelow u hu v hvu) (hbelow w hw v hvw)
          (by rw [hlen u hu, hlen w hw]) |>.eq_of_length (by rw [hlen u hu, hlen w hw])
      exact hne (hU.inj ((hk.mem p u).mp hu).1 ((hk.mem p w).mp hw).1 heq)

theorem enumerate_perm (hU : Closed path U) (hk : Lists path U kids) {n : Nat}
    (hdepth : ∀ v ∈ U, (path v).length ≤ n) : (enumerate path kids n []).Perm U := by
  apply (List.perm_ext_iff_of_nodup (nodup_enumerate hU hk n []) hU.nodup.of_map).mpr
  intro v
  rw [mem_enumerate hU hk]
  constructor
  · exact fun h => h.1
  · intro hv
    refine ⟨hv, List.nil_prefix, hU.ne_nil v hv, ?_⟩
    simpa using hdepth v hv

end Pi1MHz.PathTree
