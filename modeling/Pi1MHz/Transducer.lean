import Mathlib.Data.List.Basic

/-!
# Transducers

A machine that reads one symbol at a time and puts out any number of symbols for it.  It does not see how
its input was cut, so whoever runs it piece by piece puts out what one run does; and what it puts out is
bounded by what it reads, with the state as credit.
-/

namespace Pi1MHz.Transducer

variable {σ ι ο : Type*}

def run (step : σ → ι → σ × List ο) : σ → List ι → σ × List ο
  | s, [] => (s, [])
  | s, x :: xs => ((run step (step s x).1 xs).1, (step s x).2 ++ (run step (step s x).1 xs).2)

variable {step : σ → ι → σ × List ο}

@[simp] theorem run_nil (s : σ) : run step s [] = (s, []) := rfl

theorem run_cons (s : σ) (x : ι) (xs : List ι) :
    run step s (x :: xs) = ((run step (step s x).1 xs).1, (step s x).2 ++ (run step (step s x).1 xs).2) := rfl

theorem run_append (s : σ) (xs ys : List ι) :
    run step s (xs ++ ys) = ((run step (run step s xs).1 ys).1,
      (run step s xs).2 ++ (run step (run step s xs).1 ys).2) := by
  induction xs generalizing s with
  | nil => rfl
  | cons x xs ih => rw [List.cons_append, run_cons, ih, run_cons, List.append_assoc]

theorem run_pieces {α : Type*} (feed : σ → List ι → σ × List α) (weigh : List ο → List α)
    (hnil : weigh [] = []) (happend : ∀ os ps, weigh (os ++ ps) = weigh os ++ weigh ps) (pieces : List (List ι))
    (hfeed : ∀ s, ∀ p ∈ pieces, feed s p = ((run step s p).1, weigh (run step s p).2)) (s : σ) :
    run feed s pieces = ((run step s pieces.flatten).1, weigh (run step s pieces.flatten).2) := by
  induction pieces generalizing s with
  | nil => rw [run_nil, List.flatten_nil, run_nil, hnil]
  | cons p pieces ih =>
    have hrest := ih (fun t q hq => hfeed t q (List.mem_cons_of_mem p hq)) (feed s p).1
    rw [run_cons, hrest, hfeed s p List.mem_cons_self, List.flatten_cons, run_append, happend]

theorem run_bounded (weight : List ο → Nat) (credit : σ → Nat) (hnil : weight [] = 0)
    (happend : ∀ os ps, weight (os ++ ps) = weight os + weight ps)
    (hstep : ∀ s x, weight (step s x).2 + credit (step s x).1 ≤ credit s + 1) (s : σ) (xs : List ι) :
    weight (run step s xs).2 + credit (run step s xs).1 ≤ credit s + xs.length := by
  induction xs generalizing s with
  | nil => simp [hnil]
  | cons x xs ih =>
    have hrest := ih (step s x).1
    have hone := hstep s x
    rw [run_cons, List.length_cons]
    simp only [happend]
    omega

end Pi1MHz.Transducer
