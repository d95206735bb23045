import Mathlib.Data.List.Basic
import Mathlib.Logic.Function.Basic

/-!
# Copying in place

A store is read and written one place after the other: what stands at a place goes to the place's
destination, and the place itself may be changed behind it.
-/

namespace InPlaceCopy

variable {P V : Type*} [DecidableEq P]

/-- What is copied from a place, what becomes of it, where it goes, and whether that place is written. -/
structure Move (P V : Type*) where
  value : P → V → V
  leaves : P → V → V
  dest : P → P
  writes : P → Bool

variable (M : Move P V)

def step (s : P → V) (a : P) : P → V :=
  let s' := Function.update s a (M.leaves a (s a))
  if M.writes (M.dest a) = true then Function.update s' (M.dest a) (M.value a (s a)) else s'

def run (l : List P) (s : P → V) : P → V := l.foldl (step M) s

def Ordered (l : List P) : Prop := l.Pairwise fun a b => a ≠ b ∧ M.dest a ≠ b

section Step

variable {M} {s : P → V} {a b : P}

theorem step_dest (h : M.writes (M.dest a) = true) : step M s a (M.dest a) = M.value a (s a) := by
  rw [step, if_pos h, Function.update_self]

theorem step_self (h : M.writes (M.dest a) = true → M.dest a ≠ a) : step M s a a = M.leaves a (s a) := by
  rw [step]
  split
  next hwrites => rw [Function.update_of_ne (h hwrites).symm, Function.update_self]
  next => rw [Function.update_self]

theorem step_other (hself : b ≠ a) (hdest : M.writes (M.dest a) = true → M.dest a ≠ b) :
    step M s a b = s b := by
  rw [step]
  split
  next hwrites => rw [Function.update_of_ne (hdest hwrites).symm, Function.update_of_ne hself]
  next => rw [Function.update_of_ne hself]

end Step

section Run

variable {M} {s : P → V} {l : List P} {a c : P}

theorem run_kept (hnot : c ∉ l) (hdest : ∀ a ∈ l, M.writes (M.dest a) = true → M.dest a ≠ c) :
    run M l s c = s c := by
  induction l generalizing s with
  | nil => rfl
  | cons a l ih =>
    rw [run, List.foldl_cons]
    have hrest := @ih (step M s a) (fun h => hnot (List.mem_cons_of_mem a h))
      fun b hb => hdest b (List.mem_cons_of_mem a hb)
    rw [run] at hrest
    rw [hrest]
    apply step_other
    · rintro rfl
      exact hnot List.mem_cons_self
    · exact hdest a List.mem_cons_self

theorem run_left (hord : Ordered M l) (hc : c ∈ l)
    (hdest : ∀ a ∈ l, M.writes (M.dest a) = true → M.dest a ≠ c) : run M l s c = M.leaves c (s c) := by
  induction l generalizing s with
  | nil => exact absurd hc List.not_mem_nil
  | cons a l ih =>
    obtain ⟨hfirst, hrest⟩ := List.pairwise_cons.mp hord
    have hlater : ∀ b ∈ l, M.writes (M.dest b) = true → M.dest b ≠ c :=
      fun b hb => hdest b (List.mem_cons_of_mem a hb)
    rw [run, List.foldl_cons]
    by_cases heq : c = a
    · have hnot : c ∉ l := fun h => (hfirst c h).1 heq.symm
      have hkept := @run_kept _ _ _ M (step M s a) l c hnot hlater
      rw [run] at hkept
      rw [hkept, heq]
      exact step_self fun h => heq ▸ hdest a List.mem_cons_self h
    · have hl := @ih (step M s a) hrest ((List.mem_cons.mp hc).resolve_left heq) hlater
      rw [run] at hl
      rw [hl, step_other heq (hdest a List.mem_cons_self)]

theorem run_copied (hinj : Function.Injective M.dest) (hord : Ordered M l) (ha : a ∈ l)
    (hwrites : M.writes (M.dest a) = true) : run M l s (M.dest a) = M.value a (s a) := by
  induction l generalizing s with
  | nil => exact absurd ha List.not_mem_nil
  | cons b l ih =>
    obtain ⟨hfirst, hrest⟩ := List.pairwise_cons.mp hord
    rw [run, List.foldl_cons]
    by_cases heq : a = b
    · have hnot : M.dest a ∉ l := fun h => (hfirst (M.dest a) h).2 (congrArg M.dest heq.symm)
      have hone : ∀ e ∈ l, M.writes (M.dest e) = true → M.dest e ≠ M.dest a := by
        intro e he _ hsame
        exact (hfirst e he).1 (heq.symm.trans (hinj hsame).symm)
      have hkept := @run_kept _ _ _ M (step M s b) l (M.dest a) hnot hone
      rw [run] at hkept
      rw [hkept, ← heq]
      exact step_dest hwrites
    · have hin := (List.mem_cons.mp ha).resolve_left heq
      have hl := @ih (step M s b) hrest hin
      rw [run] at hl
      rw [hl, step_other heq fun _ => (hfirst a hin).2]

end Run

end InPlaceCopy
