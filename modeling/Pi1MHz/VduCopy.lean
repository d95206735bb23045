import Pi1MHz.InPlaceCopy
import Pi1MHz.VduFill

/-!
# Moving and copying rectangles

`prim_move_copy_rectangle` of `primitives.c`.  Pixels are copied in place; the direction of each axis is
chosen by whether the destination's corner lies in the source on that axis.
-/

namespace Pi1MHz.VduCopy

open FloodFill (Cell)
open VduFill
open InPlaceCopy (Move Ordered run)

/-- The values of a loop variable: `for (x = first; x != stop; x += step)`, for at most `n` turns. -/
def scan : Nat → Int → Int → Int → List Int
  | 0, _, _, _ => []
  | n + 1, x, stop, step => if x = stop then [] else x :: scan n (x + step) stop step

/-- The loop over one axis of the source, from `a` to `b`, downwards where the destination's corner lies in
it. -/
def scanAxis (a b dest : Int) : List Int :=
  let overlap := decide (a ≤ dest ∧ dest ≤ b)
  scan (b - a + 1).toNat (if overlap then b else a) (if overlap then a - 1 else b + 1)
    (if overlap then -1 else 1)

section

variable (G : Gfx)

def copyPixel (ox oy : Int) (move : Bool) (s : Screen) (c : Cell) : Screen :=
  let inside := !G.offscreen c.1 c.2
  let px := if inside then G.mode.depth.trunc (s c) else G.bg.colour
  let s := if inside && move then G.setPixel s c.1 c.2 .bg else s
  if G.offscreen (c.1 + ox) (c.2 + oy) then s
  else Function.update s (c.1 + ox, c.2 + oy) (G.mode.depth.trunc px)

def primMoveCopyRectangle (s : Screen) (x1 y1 x2 y2 x3 y3 : Int) (move : Bool) : Screen :=
  let xl := if x2 < x1 then x2 else x1
  let xr := if x2 < x1 then x1 else x2
  let yb := if y2 < y1 then y2 else y1
  let yt := if y2 < y1 then y1 else y2
  (scanAxis yb yt y3).foldl
    (fun s sy => (scanAxis xl xr x3).foldl (fun s sx => copyPixel G (x3 - xl) (y3 - yb) move s (sx, sy)) s) s

end

/-! ### The order of the pixels -/

section Order

variable {a b dest x : Int}

theorem mem_scan {n : Nat} {x stop step c : Int} (hstop : stop = x + n * step) (hstep : step = 1 ∨ step = -1) :
    c ∈ scan n x stop step ↔ ∃ i : Nat, i < n ∧ c = x + i * step := by
  induction n generalizing x with
  | zero => exact iff_of_false List.not_mem_nil fun ⟨i, hi, _⟩ => Nat.not_lt_zero i hi
  | succ n ih =>
    have hne : x ≠ stop := by
      rw [hstop]
      rcases hstep with rfl | rfl <;> omega
    rw [scan, if_neg hne, List.mem_cons, ih (by rw [hstop, Nat.cast_succ, Int.add_mul]; omega)]
    constructor
    · rintro (rfl | ⟨i, hi, rfl⟩)
      · exact ⟨0, Nat.succ_pos n, by rw [Nat.cast_zero, Int.zero_mul, Int.add_zero]⟩
      · exact ⟨i + 1, Nat.succ_lt_succ hi, by rw [Nat.cast_succ, Int.add_mul]; omega⟩
    · rintro ⟨_ | i, hi, rfl⟩
      · exact .inl (by rw [Nat.cast_zero, Int.zero_mul, Int.add_zero])
      · exact .inr ⟨i, Nat.lt_of_succ_lt_succ hi, by rw [Nat.cast_succ, Int.add_mul]; omega⟩

theorem scan_pairwise {n : Nat} {x stop step : Int} (hstop : stop = x + n * step)
    (hstep : step = 1 ∨ step = -1) : (scan n x stop step).Pairwise fun c d => 0 < (d - c) * step := by
  induction n generalizing x with
  | zero => exact List.Pairwise.nil
  | succ n ih =>
    have hne : x ≠ stop := by
      rw [hstop]
      rcases hstep with rfl | rfl <;> omega
    have hnext : stop = x + step + n * step := by rw [hstop, Nat.cast_succ, Int.add_mul]; omega
    rw [scan, if_neg hne, List.pairwise_cons]
    refine ⟨fun d hd => ?_, ih hnext⟩
    obtain ⟨i, -, rfl⟩ := (mem_scan hnext hstep).mp hd
    rcases hstep with rfl | rfl <;> omega

theorem scanAxis_stop (hle : a ≤ b) (p : Prop) [Decidable p] : (if decide p then a - 1 else b + 1) =
    (if decide p then b else a) + ((b - a + 1).toNat : Int) * (if decide p then -1 else 1) := by
  split <;> omega

theorem mem_scanAxis (hle : a ≤ b) : x ∈ scanAxis a b dest ↔ a ≤ x ∧ x ≤ b := by
  rw [scanAxis, mem_scan (scanAxis_stop hle _) (by split <;> omega)]
  constructor
  · rintro ⟨i, hi, rfl⟩
    split <;> omega
  · rintro ⟨hax, hxb⟩
    split
    · exact ⟨(b - x).toNat, by omega, by omega⟩
    · exact ⟨(x - a).toNat, by omega, by omega⟩

theorem scanAxis_pairwise (hle : a ≤ b) : (scanAxis a b dest).Pairwise fun c d =>
    c ≠ d ∧ c + (dest - a) ≠ d := by
  have hord := scan_pairwise (scanAxis_stop hle (a ≤ dest ∧ dest ≤ b)) (by split <;> omega)
  rw [scanAxis]
  refine hord.imp_of_mem fun {c d} hc hd hlt => ?_
  rw [mem_scan (scanAxis_stop hle _) (by split <;> omega)] at hc hd
  obtain ⟨i, hi, rfl⟩ := hc
  obtain ⟨j, hj, rfl⟩ := hd
  by_cases hover : a ≤ dest ∧ dest ≤ b
  · simp only [hover, and_self, decide_true, if_true] at hlt ⊢
    omega
  · simp only [hover, decide_false, Bool.false_eq_true, if_false] at hlt ⊢
    omega

end Order

/-! ### The copy as a copy in place -/

section Copy

variable (G : Gfx)

def moving (ox oy : Int) (move : Bool) : Move Cell UInt32 where
  value := fun c px => G.mode.depth.trunc (if G.offscreen c.1 c.2 then G.bg.colour else G.mode.depth.trunc px)
  leaves := fun c px =>
    if G.offscreen c.1 c.2 = false ∧ move = true then
      G.mode.depth.trunc (G.plotColour .bg c.1 c.2 (G.mode.depth.trunc px))
    else px
  dest := fun c => (c.1 + ox, c.2 + oy)
  writes := fun c => !G.offscreen c.1 c.2

def sourceOrder (xl xr yb yt x3 y3 : Int) : List Cell :=
  (scanAxis yb yt y3).flatMap fun sy => (scanAxis xl xr x3).map fun sx => (sx, sy)

variable {G}

theorem copyPixel_eq (ox oy : Int) (move : Bool) (s : Screen) (c : Cell) :
    copyPixel G ox oy move s c = InPlaceCopy.step (moving G ox oy move) s c := by
  rw [copyPixel, InPlaceCopy.step]
  have hleaves : (if (!G.offscreen c.1 c.2 && move) = true then G.setPixel s c.1 c.2 .bg else s) =
      Function.update s c ((moving G ox oy move).leaves c (s c)) := by
    simp only [moving, Gfx.setPixel]
    rcases hoff : G.offscreen c.1 c.2 with _ | _
    · rcases move with _ | _
      · simp
      · simp
    · simp
  have hvalue : (if (!G.offscreen c.1 c.2) = true then G.mode.depth.trunc (s c) else G.bg.colour) =
      if G.offscreen c.1 c.2 = true then G.bg.colour else G.mode.depth.trunc (s c) := by
    rcases G.offscreen c.1 c.2 with _ | _
    · rfl
    · rfl
  simp only [hleaves, hvalue]
  by_cases hoff : G.offscreen (c.1 + ox) (c.2 + oy) = true
  · simp [moving, hoff]
  · simp [moving, hoff]

theorem foldl_rows {S A B : Type*} (f : S → A × B → S) (xs : List A) (ys : List B) (s : S) :
    ys.foldl (fun s y => xs.foldl (fun s x => f s (x, y)) s) s =
      (ys.flatMap fun y => xs.map fun x => (x, y)).foldl f s := by
  induction ys generalizing s with
  | nil => rfl
  | cons y ys ih => rw [List.foldl_cons, ih, List.flatMap_cons, List.foldl_append, List.foldl_map]

theorem mem_sourceOrder {xl xr yb yt x3 y3 : Int} (hx : xl ≤ xr) (hy : yb ≤ yt) {c : Cell} :
    c ∈ sourceOrder xl xr yb yt x3 y3 ↔ (xl ≤ c.1 ∧ c.1 ≤ xr) ∧ yb ≤ c.2 ∧ c.2 ≤ yt := by
  rw [sourceOrder, List.mem_flatMap]
  constructor
  · rintro ⟨sy, hsy, hc⟩
    obtain ⟨sx, hsx, rfl⟩ := List.mem_map.mp hc
    exact ⟨(mem_scanAxis hx).mp hsx, (mem_scanAxis hy).mp hsy⟩
  · rintro ⟨hcx, hcy⟩
    exact ⟨c.2, (mem_scanAxis hy).mpr hcy, List.mem_map.mpr ⟨c.1, (mem_scanAxis hx).mpr hcx, rfl⟩⟩

theorem sourceOrder_ordered {xl xr yb yt x3 y3 : Int} (hx : xl ≤ xr) (hy : yb ≤ yt) (move : Bool) :
    Ordered (moving G (x3 - xl) (y3 - yb) move) (sourceOrder xl xr yb yt x3 y3) := by
  rw [Ordered, sourceOrder, List.pairwise_flatMap]
  constructor
  · intro sy _
    rw [List.pairwise_map]
    refine (scanAxis_pairwise hx).imp fun {c d} h => ?_
    exact ⟨fun heq => h.1 (Prod.ext_iff.mp heq).1, fun heq => h.2 (Prod.ext_iff.mp heq).1⟩
  · refine (scanAxis_pairwise hy).imp fun {c d} h => ?_
    intro p hp q hq
    obtain ⟨sx, -, rfl⟩ := List.mem_map.mp hp
    obtain ⟨tx, -, rfl⟩ := List.mem_map.mp hq
    exact ⟨fun heq => h.1 (Prod.ext_iff.mp heq).2, fun heq => h.2 (Prod.ext_iff.mp heq).2⟩

theorem moving_injective (ox oy : Int) (move : Bool) : Function.Injective (moving G ox oy move).dest := by
  intro c d h
  obtain ⟨hx, hy⟩ := Prod.ext_iff.mp h
  exact Prod.ext ((Int.add_left_inj ox).mp hx) ((Int.add_left_inj oy).mp hy)

end Copy

/-- Every pixel of the destination inside the window gets what its pixel of the source was before, or the
background colour if that is outside; a move plots the background over the rest of the source; nothing else
changes. -/
theorem block_copy_simultaneous (G : Gfx) (s : Screen) (x1 y1 x2 y2 x3 y3 : Int) (move : Bool) (c : Cell) :
    primMoveCopyRectangle G s x1 y1 x2 y2 x3 y3 move c =
      let source : Cell := (c.1 - (x3 - min x1 x2), c.2 - (y3 - min y1 y2))
      if G.offscreen c.1 c.2 = true then s c
      else if (min x1 x2 ≤ source.1 ∧ source.1 ≤ max x1 x2) ∧ min y1 y2 ≤ source.2 ∧ source.2 ≤ max y1 y2 then
        G.mode.depth.trunc (if G.offscreen source.1 source.2 then G.bg.colour else G.mode.depth.trunc (s source))
      else if move = true ∧ (min x1 x2 ≤ c.1 ∧ c.1 ≤ max x1 x2) ∧ min y1 y2 ≤ c.2 ∧ c.2 ≤ max y1 y2 then
        G.setPixel s c.1 c.2 .bg c
      else s c := by
  have hxl : (if x2 < x1 then x2 else x1) = min x1 x2 := by split <;> omega
  have hxr : (if x2 < x1 then x1 else x2) = max x1 x2 := by split <;> omega
  have hyb : (if y2 < y1 then y2 else y1) = min y1 y2 := by split <;> omega
  have hyt : (if y2 < y1 then y1 else y2) = max y1 y2 := by split <;> omega
  rw [primMoveCopyRectangle, hxl, hxr, hyb, hyt]
  generalize hxlEq : min x1 x2 = xl
  generalize hxrEq : max x1 x2 = xr
  generalize hybEq : min y1 y2 = yb
  generalize hytEq : max y1 y2 = yt
  have hx : xl ≤ xr := by omega
  have hy : yb ≤ yt := by omega
  simp only
  rw [foldl_rows (copyPixel G (x3 - xl) (y3 - yb) move), ← sourceOrder]
  have hstep : copyPixel G (x3 - xl) (y3 - yb) move = InPlaceCopy.step (moving G (x3 - xl) (y3 - yb) move) :=
    funext fun s => funext fun c => copyPixel_eq _ _ _ s c
  have hord := @sourceOrder_ordered G xl xr yb yt x3 y3 hx hy move
  have hmem := fun c => @mem_sourceOrder xl xr yb yt x3 y3 hx hy c
  rw [hstep, ← run]
  generalize hl : sourceOrder xl xr yb yt x3 y3 = l at hord hmem
  -- whether a pixel is the destination of one of the source
  have hdest : ∀ a ∈ l, (moving G (x3 - xl) (y3 - yb) move).dest a = c →
      a = (c.1 - (x3 - xl), c.2 - (y3 - yb)) := by
    rintro a - rfl
    exact Prod.ext (Int.add_sub_cancel _ _).symm (Int.add_sub_cancel _ _).symm
  split
  next hoff =>
    have hnone : ∀ a ∈ l, (moving G (x3 - xl) (y3 - yb) move).writes ((moving G (x3 - xl) (y3 - yb) move).dest a)
        = true → (moving G (x3 - xl) (y3 - yb) move).dest a ≠ c := by
      rintro a - hwrites rfl
      exact absurd (hwrites.symm.trans (congrArg Bool.not hoff)) (by decide)
    by_cases hc : c ∈ l
    · rw [InPlaceCopy.run_left hord hc hnone]
      simp only [moving, hoff, Bool.true_eq_false, false_and, if_false]
    · exact InPlaceCopy.run_kept hc hnone
  next hin =>
    have hwrites : (moving G (x3 - xl) (y3 - yb) move).writes c = true :=
      congrArg Bool.not (Bool.eq_false_iff.mpr hin)
    split
    next hsource =>
      have ha : (c.1 - (x3 - xl), c.2 - (y3 - yb)) ∈ l := (hmem _).mpr hsource
      have hc : (moving G (x3 - xl) (y3 - yb) move).dest (c.1 - (x3 - xl), c.2 - (y3 - yb)) = c :=
        Prod.ext (Int.sub_add_cancel _ _) (Int.sub_add_cancel _ _)
      have hcopied := InPlaceCopy.run_copied (s := s) (moving_injective _ _ _) hord ha (hc.symm ▸ hwrites)
      rw [hc] at hcopied
      exact hcopied
    next hsource =>
      have hnone : ∀ a ∈ l, (moving G (x3 - xl) (y3 - yb) move).writes
          ((moving G (x3 - xl) (y3 - yb) move).dest a) = true →
          (moving G (x3 - xl) (y3 - yb) move).dest a ≠ c := by
        intro a ha _ hdc
        rw [hdest a ha hdc] at ha
        exact hsource ((hmem _).mp ha)
      by_cases hc : c ∈ l
      · rw [InPlaceCopy.run_left hord hc hnone]
        have hrect := (hmem c).mp hc
        simp only [moving, Gfx.setPixel, Bool.eq_false_iff.mpr hin, true_and, Bool.false_eq_true, if_false,
          Function.update_self]
        split
        next hmove => rw [if_pos ⟨hmove, hrect⟩]
        next hmove => rw [if_neg fun h => hmove h.1]
      · rw [InPlaceCopy.run_kept hc hnone, if_neg fun h => hc ((hmem c).mpr h.2)]

end Pi1MHz.VduCopy
