import Mathlib.Order.Defs.Unbundled

/-!
# Rules for actions on a state

`Keeps r x` says that the action `x` leaves a state that is `r`-related to the one it began with,
for a preorder `r`.  `Ends r Q x` says that `x`, begun anywhere `r` leads to from a state `s₀`, ends
with `Q`.
-/

namespace Pi1MHz.StateRules

variable {σ α β : Type} {r : σ → σ → Prop} {Q : σ → β → σ → Prop}

theorem bind_apply (x : StateM σ α) (f : α → StateM σ β) (s : σ) : (x >>= f) s = f (x s).1 (x s).2 := rfl

theorem pure_apply (a : α) (s : σ) : (pure a : StateM σ α) s = (a, s) := rfl

theorem get_apply (s : σ) : (get : StateM σ σ) s = (s, s) := rfl

theorem modify_apply (f : σ → σ) (s : σ) : (modify f : StateM σ PUnit) s = (⟨⟩, f s) := rfl

/-! ### The rules -/

structure Keeps (r : σ → σ → Prop) (x : StateM σ α) : Prop where
  run : ∀ s, r s (x s).2

structure Ends (r : σ → σ → Prop) (Q : σ → β → σ → Prop) (x : StateM σ β) : Prop where
  run : ∀ s₀ s, r s₀ s → Q s₀ (x s).1 (x s).2

theorem Keeps.ite {c : Prop} [Decidable c] {x y : StateM σ α} (hx : Keeps r x) (hy : Keeps r y) :
    Keeps r (if c then x else y) := by
  split
  · exact hx
  · exact hy

section Keeps

variable [IsPreorder σ r]

theorem Keeps.pure (a : α) : Keeps r (pure a : StateM σ α) := ⟨fun s => refl_of r s⟩

theorem Keeps.bind {x : StateM σ α} {f : α → StateM σ β} (hx : Keeps r x)
    (hf : ∀ a, Keeps r (f a)) : Keeps r (x >>= f) :=
  ⟨fun s => trans_of r (hx.run s) ((hf (x s).1).run (x s).2)⟩

theorem Keeps.forM {γ : Type} {f : γ → StateM σ PUnit} {l : List γ} (hf : ∀ a ∈ l, Keeps r (f a)) :
    Keeps r (l.forM f) := by
  induction l with
  | nil => exact Keeps.pure _
  | cons a l ih =>
    apply Keeps.bind (hf a List.mem_cons_self)
    intro _
    exact ih fun b hb => hf b (List.mem_cons_of_mem a hb)

end Keeps

theorem Ends.bind [IsTrans σ r] {x : StateM σ α} {f : α → StateM σ β} (hx : Keeps r x)
    (hf : ∀ a, Ends r Q (f a)) : Ends r Q (x >>= f) :=
  ⟨fun s₀ s h => (hf (x s).1).run s₀ (x s).2 (trans_of r h (hx.run s))⟩

theorem Ends.ite {c : Prop} [Decidable c] {x y : StateM σ β} (hx : Ends r Q x) (hy : Ends r Q y) :
    Ends r Q (if c then x else y) := by
  split
  · exact hx
  · exact hy

theorem Ends.here [Std.Refl r] {x : StateM σ β} (h : Ends r Q x) (s : σ) : Q s (x s).1 (x s).2 :=
  h.run s s (refl_of r s)

end Pi1MHz.StateRules
