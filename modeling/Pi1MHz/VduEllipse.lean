import Pi1MHz.CheckedInt
import Pi1MHz.MidpointEllipse

/-!
# Ellipses with upright axes

`draw_normal_ellipse` and `fill_normal_ellipse` of `primitives.c`, over any arithmetic of `int`: in the exact one
every value is kept, in that of the machine a value of more than 32 bits has no meaning.
-/

namespace Pi1MHz.VduEllipse

open CheckedInt (InInt)
open MidpointEllipse

/-- What can become of a run: a value that an `int` does not hold, or a loop that goes on for too long. -/
inductive Fault where
  | overflow
  | endless
  deriving DecidableEq, Repr

def int32 (v : Int) : Except Fault Int := if InInt v then .ok v else .error .overflow

/-! ### The functions -/

/-- A call of `set_pixel` or of `draw_hline`. -/
inductive Plot where
  | pixel (x y : Int)
  | hline (x1 x2 y : Int)
  deriving DecidableEq, Repr

/-- The variables of a loop: the one that it counts, the one that it takes down, and the decision. -/
structure Loop where
  x : Int
  y : Int
  sigma : Int

section

variable (int : Int → Except Fault Int)

/-- `b2 * x <= a2 * y`. -/
def goesOn (a2 b2 : Int) (s : Loop) : Except Fault Bool := do
  let left ← int (b2 * s.x)
  let right ← int (a2 * s.y)
  return decide (left ≤ right)

/-- `if (sigma >= 0)`. -/
def lower (fa2 : Int) (s : Loop) : Except Fault Loop :=
  if 0 ≤ s.sigma then do
    let rest ← int (1 - s.y)
    let term ← int (fa2 * rest)
    let sigma ← int (s.sigma + term)
    let y ← int (s.y - 1)
    return { s with y, sigma }
  else return s

def advance (b2 fa2 : Int) (s : Loop) : Except Fault Loop := do
  let s ← lower int fa2 s
  let four ← int (4 * s.x)
  let factor ← int (four + 6)
  let term ← int (b2 * factor)
  let sigma ← int (s.sigma + term)
  let x ← int (s.x + 1)
  return { s with x, sigma }

def halfLoop (plot : Loop → List Plot) (a2 b2 fa2 : Int) : Nat → Loop → Except Fault (List Plot × Nat)
  | 0, s => do
    if ← goesOn int a2 b2 s then .error .endless else return ([], 0)
  | n + 1, s => do
    if ← goesOn int a2 b2 s then
      let next ← advance int b2 fa2 s
      let rest ← halfLoop plot a2 b2 fa2 n next
      return (plot s ++ rest.1, rest.2)
    else return ([], n + 1)

/-- `2 * b2 + a2 * (1 - 2 * height)`. -/
def startSigma (a2 b2 height : Int) : Except Fault Int := do
  let left ← int (2 * b2)
  let twice ← int (2 * height)
  let rest ← int (1 - twice)
  let right ← int (a2 * rest)
  int (left + right)

/-- Both loops, over `width + height + 2` rounds in all. -/
def bothHalves (first second : Loop → List Plot) (width height : Int) : Except Fault (List Plot) := do
  let a2 ← int (width * width)
  let b2 ← int (height * height)
  let fa2 ← int (4 * a2)
  let fb2 ← int (4 * b2)
  let sigma ← startSigma int a2 b2 height
  let upper ← halfLoop int first a2 b2 fa2 (width + height + 2).toNat ⟨0, height, sigma⟩
  let sigma ← startSigma int b2 a2 width
  let side ← halfLoop int second b2 a2 fb2 upper.2 ⟨0, width, sigma⟩
  return upper.1 ++ side.1

/-- The plots of the first half of an outline; the loop counts `x`. -/
def outlineUpper (xc yc : Int) (s : Loop) : List Plot :=
  .pixel (xc + s.x) (yc + s.y) :: .pixel (xc + s.x) (yc - s.y) ::
    if 0 < s.x then [.pixel (xc - s.x) (yc + s.y), .pixel (xc - s.x) (yc - s.y)] else []

/-- The plots of its second half; the loop counts `y`, which is the first variable here. -/
def outlineSide (xc yc : Int) (s : Loop) : List Plot :=
  .pixel (xc + s.y) (yc + s.x) :: .pixel (xc - s.y) (yc + s.x) ::
    if 0 < s.x then [.pixel (xc + s.y) (yc - s.x), .pixel (xc - s.y) (yc - s.x)] else []

def drawNormalEllipse (xc yc width height : Int) : Except Fault (List Plot) :=
  if width = 0 ∧ height = 0 then .ok [.pixel xc yc]
  else bothHalves int (outlineUpper xc yc) (outlineSide xc yc) width height

def fillUpper (xc yc : Int) (s : Loop) : List Plot :=
  if 0 ≤ s.sigma then [.hline (xc + s.x) (xc - s.x) (yc + s.y), .hline (xc + s.x) (xc - s.x) (yc - s.y)] else []

def fillSide (xc yc : Int) (s : Loop) : List Plot :=
  .hline (xc + s.y) (xc - s.y) (yc + s.x) ::
    if 0 < s.x then [.hline (xc + s.y) (xc - s.y) (yc - s.x)] else []

def fillNormalEllipse (xc yc width height : Int) : Except Fault (List Plot) :=
  if width = 0 ∧ height = 0 then .ok [.pixel xc yc]
  else bothHalves int (fillUpper xc yc) (fillSide xc yc) width height

end

/-! ### Values that are kept -/

theorem int32_ok {v : Int} (h : InInt v) : int32 v = .ok v := if_pos h

theorem int32_kept {v u : Int} (h : int32 v = .ok u) : u = v ∧ InInt v := by
  rw [int32] at h
  split at h
  · next hin =>
    cases h
    exact ⟨rfl, hin⟩
  · cases h

theorem bind_ok {α β : Type} {x : Except Fault α} {f : α → Except Fault β} {r : β} :
    (x >>= f) = .ok r ↔ ∃ a, x = .ok a ∧ f a = .ok r := by
  cases x with
  | error e => exact ⟨nofun, fun ⟨_, h, _⟩ => nomatch h⟩
  | ok a =>
    constructor
    · intro h
      exact ⟨a, rfl, h⟩
    · rintro ⟨_, h, hr⟩
      cases h
      exact hr

theorem ok_bind {α β : Type} (a : α) (f : α → Except Fault β) : (Except.ok a >>= f) = f a := rfl

def nextLoop (b2 fa2 : Int) (s : Loop) : Loop :=
  if 0 ≤ s.sigma then ⟨s.x + 1, s.y - 1, s.sigma + fa2 * (1 - s.y) + b2 * (4 * s.x + 6)⟩
  else ⟨s.x + 1, s.y, s.sigma + b2 * (4 * s.x + 6)⟩

section Kept

variable {int : Int → Except Fault Int} {a2 b2 fa2 : Int} {s : Loop}

theorem goesOn_eq (hleft : int (b2 * s.x) = .ok (b2 * s.x)) (hright : int (a2 * s.y) = .ok (a2 * s.y)) :
    goesOn int a2 b2 s = .ok (decide (Flat a2 b2 s.x s.y)) := by
  rw [goesOn, hleft, ok_bind, hright, ok_bind]
  rfl

structure RoundKept (int : Int → Except Fault Int) (b2 fa2 : Int) (s : Loop) : Prop where
  rest : 0 ≤ s.sigma → int (1 - s.y) = .ok (1 - s.y)
  term : 0 ≤ s.sigma → int (fa2 * (1 - s.y)) = .ok (fa2 * (1 - s.y))
  lowered : 0 ≤ s.sigma → int (s.sigma + fa2 * (1 - s.y)) = .ok (s.sigma + fa2 * (1 - s.y))
  row : 0 ≤ s.sigma → int (s.y - 1) = .ok (s.y - 1)
  four : int (4 * s.x) = .ok (4 * s.x)
  factor : int (4 * s.x + 6) = .ok (4 * s.x + 6)
  added : int (b2 * (4 * s.x + 6)) = .ok (b2 * (4 * s.x + 6))
  sigma : int (nextLoop b2 fa2 s).sigma = .ok (nextLoop b2 fa2 s).sigma
  column : int (s.x + 1) = .ok (s.x + 1)

theorem advance_eq (h : RoundKept int b2 fa2 s) : advance int b2 fa2 s = .ok (nextLoop b2 fa2 s) := by
  have hsigma := h.sigma
  rw [advance, lower]
  rw [nextLoop] at hsigma ⊢
  by_cases hout : 0 ≤ s.sigma
  · rw [if_pos hout] at hsigma
    rw [if_pos hout, if_pos hout, h.rest hout, ok_bind, h.term hout, ok_bind, h.lowered hout, ok_bind, h.row hout,
      ok_bind, pure_bind, h.four, ok_bind, h.factor, ok_bind, h.added, ok_bind, hsigma, ok_bind, h.column, ok_bind]
    rfl
  · rw [if_neg hout] at hsigma
    rw [if_neg hout, if_neg hout, pure_bind, h.four, ok_bind, h.factor, ok_bind, h.added, ok_bind, hsigma, ok_bind,
      h.column, ok_bind]
    rfl

end Kept

/-! ### The rounds of a loop -/

/-- The states in which a loop goes on, in exact arithmetic and for `n` rounds at most. -/
def rounds (a2 b2 fa2 : Int) : Nat → Loop → List Loop
  | 0, _ => []
  | n + 1, s => if Flat a2 b2 s.x s.y then s :: rounds a2 b2 fa2 n (nextLoop b2 fa2 s) else []

/-- From the states of `P` a loop of this arithmetic keeps its values, stays in `P`, and counts up to `limit` at
most. -/
structure Carries (int : Int → Except Fault Int) (a2 b2 fa2 limit : Int) (P : Loop → Prop) : Prop where
  column : ∀ s, P s → int (b2 * s.x) = .ok (b2 * s.x)
  row : ∀ s, P s → int (a2 * s.y) = .ok (a2 * s.y)
  round : ∀ s, P s → Flat a2 b2 s.x s.y → RoundKept int b2 fa2 s ∧ P (nextLoop b2 fa2 s) ∧ s.x < limit

theorem nextLoop_x (b2 fa2 : Int) (s : Loop) : (nextLoop b2 fa2 s).x = s.x + 1 := by
  rw [nextLoop]
  split <;> rfl

section Rounds

variable {int : Int → Except Fault Int} {a2 b2 fa2 limit : Int} {P : Loop → Prop}

theorem halfLoop_rounds (h : Carries int a2 b2 fa2 limit P) (plot : Loop → List Plot) {n : Nat} {s : Loop}
    (hs : P s) (hn : limit ≤ s.x + n) :
    halfLoop int plot a2 b2 fa2 n s =
        .ok ((rounds a2 b2 fa2 n s).flatMap plot, n - (rounds a2 b2 fa2 n s).length) ∧
      (rounds a2 b2 fa2 n s).length ≤ (limit - s.x).toNat := by
  have hguard := goesOn_eq (h.column s hs) (h.row s hs)
  induction n generalizing s with
  | zero =>
    have hdone : ¬Flat a2 b2 s.x s.y := fun hflat => by
      have hx := (h.round s hs hflat).2.2
      omega
    rw [halfLoop, hguard, ok_bind, decide_eq_false hdone]
    exact ⟨rfl, Nat.zero_le _⟩
  | succ n ih =>
    rw [halfLoop, hguard, ok_bind, rounds]
    by_cases hflat : Flat a2 b2 s.x s.y
    · obtain ⟨hkept, hnext, hx⟩ := h.round s hs hflat
      have hcount := nextLoop_x b2 fa2 s
      obtain ⟨hrest, hlength⟩ := ih hnext (by omega) (goesOn_eq (h.column _ hnext) (h.row _ hnext))
      rw [decide_eq_true hflat, if_pos rfl, if_pos hflat, advance_eq hkept, ok_bind, hrest, ok_bind]
      constructor
      · simp only [List.flatMap_cons, List.length_cons, Nat.add_sub_add_right]
        rfl
      · rw [List.length_cons]
        omega
    · rw [decide_eq_false hflat, if_neg hflat]
      exact ⟨rfl, Nat.zero_le _⟩

theorem goesOn_flat {s : Loop} {more : Bool} (h : goesOn int32 a2 b2 s = .ok more) (hflat : Flat a2 b2 s.x s.y) :
    more = true := by
  obtain ⟨left, hleft, h⟩ := bind_ok.mp h
  obtain ⟨right, hright, h⟩ := bind_ok.mp h
  rw [(int32_kept hleft).1, (int32_kept hright).1] at h
  exact (Except.ok.inj h).symm.trans (decide_eq_true hflat)

theorem halfLoop_first {plot : Loop → List Plot} {n : Nat} {s : Loop} {r : List Plot × Nat}
    (h : halfLoop int32 plot a2 b2 fa2 n s = .ok r) (hflat : Flat a2 b2 s.x s.y) :
    ∃ m next r', advance int32 b2 fa2 s = .ok next ∧ halfLoop int32 plot a2 b2 fa2 m next = .ok r' := by
  cases n with
  | zero =>
    rw [halfLoop] at h
    obtain ⟨more, hmore, h⟩ := bind_ok.mp h
    rw [goesOn_flat hmore hflat] at h
    cases h
  | succ n =>
    rw [halfLoop] at h
    obtain ⟨more, hmore, h⟩ := bind_ok.mp h
    rw [goesOn_flat hmore hflat, if_pos rfl] at h
    obtain ⟨next, hnext, h⟩ := bind_ok.mp h
    obtain ⟨rest, hrest, -⟩ := bind_ok.mp h
    exact ⟨n, next, rest, hnext, hrest⟩

theorem advance_kept {s next : Loop} (h : advance int32 b2 fa2 s = .ok next) :
    next = nextLoop b2 fa2 s ∧ InInt next.sigma ∧ (0 ≤ s.sigma → InInt (fa2 * (1 - s.y))) := by
  rw [advance] at h
  obtain ⟨t, hlower, h⟩ := bind_ok.mp h
  obtain ⟨four, hfour, h⟩ := bind_ok.mp h
  obtain ⟨factor, hfactor, h⟩ := bind_ok.mp h
  obtain ⟨term, hterm, h⟩ := bind_ok.mp h
  obtain ⟨sigma, hsigma, h⟩ := bind_ok.mp h
  obtain ⟨x, hx, h⟩ := bind_ok.mp h
  have hnext := Except.ok.inj h
  subst hnext
  obtain ⟨hvalue, hrange⟩ := int32_kept hsigma
  have hterm := (int32_kept hterm).1
  rw [(int32_kept hfactor).1, (int32_kept hfour).1] at hterm
  have hcolumn := (int32_kept hx).1
  rw [lower] at hlower
  by_cases hout : 0 ≤ s.sigma
  · rw [if_pos hout] at hlower
    obtain ⟨rest, hrest, hlower⟩ := bind_ok.mp hlower
    obtain ⟨down, hdown, hlower⟩ := bind_ok.mp hlower
    obtain ⟨lowered, hlowered, hlower⟩ := bind_ok.mp hlower
    obtain ⟨row, hrow, hlower⟩ := bind_ok.mp hlower
    have ht := Except.ok.inj hlower
    subst ht
    obtain ⟨hdown, hin⟩ := int32_kept hdown
    rw [(int32_kept hrest).1] at hdown hin
    refine ⟨?_, ?_, fun _ => hin⟩
    · rw [nextLoop, if_pos hout, hcolumn, hvalue, hterm, (int32_kept hlowered).1, hdown, (int32_kept hrow).1]
    · show InInt sigma
      rw [hvalue]
      exact hrange
  · rw [if_neg hout] at hlower
    have ht := Except.ok.inj hlower
    subst ht
    refine ⟨?_, ?_, fun h => absurd h hout⟩
    · rw [nextLoop, if_neg hout, hcolumn, hvalue, hterm]
    · show InInt sigma
      rw [hvalue]
      exact hrange

end Rounds

section Halves

variable {int : Int → Except Fault Int} {first second : Loop → List Plot} {a2 b2 width height sigma sigma' : Int}

theorem startSigma_eq (htwo : int (2 * b2) = .ok (2 * b2)) (htwice : int (2 * height) = .ok (2 * height))
    (hrest : int (1 - 2 * height) = .ok (1 - 2 * height))
    (hright : int (a2 * (1 - 2 * height)) = .ok (a2 * (1 - 2 * height)))
    (hsigma : int (2 * b2 + a2 * (1 - 2 * height)) = .ok sigma) : startSigma int a2 b2 height = .ok sigma := by
  rw [startSigma, htwo, ok_bind, htwice, ok_bind, hrest, ok_bind, hright, ok_bind, hsigma]

structure SquaresKept (int : Int → Except Fault Int) (width height : Int) : Prop where
  a2 : int (width * width) = .ok (width * width)
  b2 : int (height * height) = .ok (height * height)
  fa2 : int (4 * (width * width)) = .ok (4 * (width * width))
  fb2 : int (4 * (height * height)) = .ok (4 * (height * height))

theorem bothHalves_eq (h : SquaresKept int width height) {upper side : List Plot × Nat}
    (hstart : startSigma int (width * width) (height * height) height = .ok sigma)
    (hupper : halfLoop int first (width * width) (height * height) (4 * (width * width)) (width + height + 2).toNat
      ⟨0, height, sigma⟩ = .ok upper)
    (hstart' : startSigma int (height * height) (width * width) width = .ok sigma')
    (hside : halfLoop int second (height * height) (width * width) (4 * (height * height)) upper.2
      ⟨0, width, sigma'⟩ = .ok side) : bothHalves int first second width height = .ok (upper.1 ++ side.1) := by
  rw [bothHalves, h.a2, ok_bind, h.b2, ok_bind, h.fa2, ok_bind, h.fb2, ok_bind, hstart, ok_bind, hupper, ok_bind,
    hstart', ok_bind, hside, ok_bind]
  rfl

end Halves

/-! ### An axis of nothing -/

section Degenerate

variable {int : Int → Except Fault Int} {a2 b2 fa2 : Int} {s : Loop}

theorem halfLoop_once (plot : Loop → List Plot) (n : Nat) (hflat : Flat a2 b2 s.x s.y)
    (hcolumn : int (b2 * s.x) = .ok (b2 * s.x)) (hrow : int (a2 * s.y) = .ok (a2 * s.y))
    (hround : RoundKept int b2 fa2 s) (hdone : ¬Flat a2 b2 (nextLoop b2 fa2 s).x (nextLoop b2 fa2 s).y)
    (hcolumn' : int (b2 * (nextLoop b2 fa2 s).x) = .ok (b2 * (nextLoop b2 fa2 s).x))
    (hrow' : int (a2 * (nextLoop b2 fa2 s).y) = .ok (a2 * (nextLoop b2 fa2 s).y)) :
    halfLoop int plot a2 b2 fa2 (n + 2) s = .ok (plot s, n + 1) := by
  have hnext : halfLoop int plot a2 b2 fa2 (n + 1) (nextLoop b2 fa2 s) = .ok ([], n + 1) := by
    rw [halfLoop, goesOn_eq hcolumn' hrow', ok_bind, decide_eq_false hdone]
    rfl
  rw [halfLoop, goesOn_eq hcolumn hrow, ok_bind, decide_eq_true hflat, if_pos rfl, advance_eq hround, ok_bind, hnext,
    ok_bind, List.append_nil]
  rfl

/-- The values of a round and of the guards around it. -/
def roundValues (a2 b2 fa2 : Int) (s : Loop) : List Int :=
  [1 - s.y, fa2 * (1 - s.y), s.sigma + fa2 * (1 - s.y), s.y - 1, 4 * s.x, 4 * s.x + 6, b2 * (4 * s.x + 6),
    (nextLoop b2 fa2 s).sigma, s.x + 1, b2 * s.x, a2 * s.y, b2 * (nextLoop b2 fa2 s).x,
    a2 * (nextLoop b2 fa2 s).y]

theorem halfLoop_of_values (plot : Loop → List Plot) (n : Nat)
    (hint : ∀ v ∈ roundValues a2 b2 fa2 s, int v = .ok v) (hflat : Flat a2 b2 s.x s.y)
    (hdone : ¬Flat a2 b2 (nextLoop b2 fa2 s).x (nextLoop b2 fa2 s).y) :
    halfLoop int plot a2 b2 fa2 (n + 2) s = .ok (plot s, n + 1) := by
  simp only [roundValues, List.forall_mem_cons] at hint
  obtain ⟨hrest, hterm, hlowered, hrow, hfour, hfactor, hadded, hsigma, hcolumn, hx, hy, hx', hy', -⟩ := hint
  exact halfLoop_once plot n hflat hx hy ⟨fun _ => hrest, fun _ => hterm, fun _ => hlowered, fun _ => hrow, hfour,
    hfactor, hadded, hsigma, hcolumn⟩ hdone hx' hy'

theorem halfLoop_thin (plot : Loop → List Plot) (n : Nat) {b : Int} (hb : 1 ≤ b)
    (hint : ∀ v, -(8 * (b * b)) ≤ v → v ≤ 8 * (b * b) + 8 → int v = .ok v) :
    halfLoop int plot 0 (b * b) 0 (n + 2) ⟨0, b, 2 * (b * b)⟩ = .ok (plot ⟨0, b, 2 * (b * b)⟩, n + 1) := by
  have hB : b * 1 ≤ b * b := Int.mul_le_mul_of_nonneg_left hb (by omega)
  have hnext : nextLoop (b * b) 0 ⟨0, b, 2 * (b * b)⟩ = ⟨1, b - 1, 8 * (b * b)⟩ := by
    rw [nextLoop, if_pos (by dsimp only; omega)]
    dsimp only
    congr 1
    ring
  apply halfLoop_of_values
  · intro v hv
    simp only [roundValues, hnext, List.mem_cons, List.not_mem_nil, or_false] at hv
    exact hint v (by omega) (by omega)
  · show b * b * 0 ≤ 0 * b
    omega
  · rw [hnext, Flat]
    dsimp only
    omega

theorem halfLoop_flat (plot : Loop → List Plot) (n : Nat) {a : Int} (ha : 1 ≤ a)
    (hint : ∀ v, -(8 * (a * a)) ≤ v → v ≤ 8 * (a * a) + 8 → int v = .ok v) :
    halfLoop int plot (a * a) 0 (4 * (a * a)) (n + 2) ⟨0, 0, a * a⟩ = .ok (plot ⟨0, 0, a * a⟩, n + 1) := by
  have hA : a * 1 ≤ a * a := Int.mul_le_mul_of_nonneg_left ha (by omega)
  have hnext : nextLoop 0 (4 * (a * a)) ⟨0, 0, a * a⟩ = ⟨1, -1, 5 * (a * a)⟩ := by
    rw [nextLoop, if_pos (by dsimp only; omega)]
    dsimp only
    congr 1
    ring
  apply halfLoop_of_values
  · intro v hv
    simp only [roundValues, hnext, List.mem_cons, List.not_mem_nil, or_false] at hv
    exact hint v (by omega) (by omega)
  · show 0 * 0 ≤ a * a * 0
    omega
  · rw [hnext, Flat]
    dsimp only
    omega

end Degenerate

end Pi1MHz.VduEllipse
