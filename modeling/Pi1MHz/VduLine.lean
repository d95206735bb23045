import Mathlib.Algebra.Order.Ring.Int
import Mathlib.Data.List.Chain
import Mathlib.Data.List.Nodup
import Mathlib.Logic.Function.Iterate
import Mathlib.Tactic.Linarith
import Mathlib.Tactic.Ring

/-!
# Lines

`prim_draw_line` of `primitives.c`: the points that it passes to `set_pixel`, for each of the eight
line codes, and the dot pattern that it leaves.  A line that omits its last point counts one step less,
and the same counter is what the slope is measured against.
-/

namespace Pi1MHz.VduLine

structure Point where
  x : Int
  y : Int
deriving DecidableEq, Repr

/-! ### Dot patterns -/

@[ext] structure DotPattern where
  dots : List UInt8
  len : Nat
  index : Nat
  size : dots.length = 64
  fits : len ≤ 64
  inside : index < len

def expanded (pattern : List UInt8) : List UInt8 :=
  (List.range 64).map fun i => if pattern.getD (i / 8) 0 &&& (0x80 >>> UInt8.ofNat (i % 8)) ≠ 0 then 1 else 0

theorem length_expanded (pattern : List UInt8) : (expanded pattern).length = 64 := by
  rw [expanded, List.length_map, List.length_range]

def DEFAULT_DOT_PATTERN : List UInt8 := [0xAA, 0x00, 0x00, 0x00, 0x00, 0x00, 0x00, 0x00]

/-- The pattern that `prim_set_dot_pattern_len` sets for a length of 0. -/
def defaultDots : DotPattern where
  dots := expanded DEFAULT_DOT_PATTERN
  len := 8
  index := 0
  size := length_expanded _
  fits := by decide
  inside := by decide

namespace DotPattern

def primSetDotPattern (D : DotPattern) (pattern : List UInt8) : DotPattern :=
  { D with dots := expanded pattern, size := length_expanded pattern }

def primSetDotPatternLen (D : DotPattern) (len : Nat) : DotPattern :=
  if h : len = 0 then defaultDots
  else if h' : len ≤ 64 then { D with len := len, index := 0, fits := h', inside := Nat.pos_of_ne_zero h }
  else { D with index := 0, inside := Nat.zero_lt_of_lt D.inside }

/-- `g_dot_pattern_index = 0`. -/
def restart (D : DotPattern) : DotPattern := { D with index := 0, inside := Nat.zero_lt_of_lt D.inside }

/-- `g_dot_pattern[g_dot_pattern_index]`. -/
def here (D : DotPattern) : Bool := D.dots.getD D.index 0 != 0

/-- `g_dot_pattern_index++`, and back to the start at the end of the pattern. -/
def next (D : DotPattern) : DotPattern :=
  { D with
    index := if D.index + 1 = D.len then 0 else D.index + 1
    inside := by
      have := D.inside
      split <;> omega }

end DotPattern

/-! ### Drawing -/

structure Octant where
  dx1 : Int
  dy1 : Int
  dx2 : Int
  dy2 : Int

def dotted (linemode : UInt8) : Bool :=
  let mask := linemode &&& 0x38
  mask == 0x10 || mask == 0x18 || mask == 0x30 || mask == 0x38

def omitFirst (linemode : UInt8) : Bool :=
  let mask := linemode &&& 0x38
  mask == 0x20 || mask == 0x28 || mask == 0x30 || mask == 0x38

def omitLast (linemode : UInt8) : Bool :=
  let mask := linemode &&& 0x38
  mask == 0x08 || mask == 0x18 || mask == 0x28 || mask == 0x38

def towards (d : Int) : Int := if d < 0 then -1 else if 0 < d then 1 else 0

structure Setup where
  dotted : Bool
  omitFirst : Bool
  octant : Octant
  longest : Int
  shortest : Int

def aim (p q : Point) : Octant × Int × Int :=
  let w := q.x - p.x
  let h := q.y - p.y
  if ¬ h.natAbs < w.natAbs then (⟨towards w, towards h, 0, towards h⟩, h.natAbs, w.natAbs)
  else (⟨towards w, towards h, towards w, 0⟩, w.natAbs, h.natAbs)

def setup (p q : Point) (linemode : UInt8) : Setup where
  dotted := dotted linemode
  omitFirst := omitFirst linemode
  octant := (aim p q).1
  longest := if omitLast linemode then (aim p q).2.1 - 1 else (aim p q).2.1
  shortest := (aim p q).2.2

structure Cursor where
  numerator : Int
  pos : Point

structure Pen where
  cursor : Cursor
  dots : DotPattern
  plotted : List Point

namespace Setup

variable (e : Setup)

def mark (i : Nat) (s : Pen) : Pen :=
  if 0 < i ∨ e.omitFirst = false then
    if e.dotted then
      { s with
        dots := s.dots.next
        plotted := if s.dots.here then s.plotted ++ [s.cursor.pos] else s.plotted }
    else { s with plotted := s.plotted ++ [s.cursor.pos] }
  else s

def move (c : Cursor) : Cursor :=
  let numerator := c.numerator + e.shortest
  if ¬ numerator < e.longest then
    ⟨numerator - e.longest, ⟨c.pos.x + e.octant.dx1, c.pos.y + e.octant.dy1⟩⟩
  else ⟨numerator, ⟨c.pos.x + e.octant.dx2, c.pos.y + e.octant.dy2⟩⟩

def draw : Nat → Nat → Pen → Pen
  | 0, _, s => s
  | n + 1, i, s =>
    let s := e.mark i s
    draw n (i + 1) { s with cursor := e.move s.cursor }

end Setup

def begun (D : DotPattern) (linemode : UInt8) : DotPattern :=
  if dotted linemode && !omitFirst linemode then D.restart else D

def primDrawLine (D : DotPattern) (p q : Point) (linemode : UInt8) : List Point × DotPattern :=
  let e := setup p q linemode
  let s := e.draw (e.longest + 1).toNat 0 ⟨⟨(aim p q).2.1 / 2, p⟩, begun D linemode, []⟩
  (s.plotted, s.dots)

/-! ### What the line codes should plot -/

def Adjacent (p q : Point) : Prop := p ≠ q ∧ (q.x - p.x).natAbs ≤ 1 ∧ (q.y - p.y).natAbs ≤ 1

def longSide (p q : Point) : Nat := max (q.x - p.x).natAbs (q.y - p.y).natAbs

def shortSide (p q : Point) : Nat := min (q.x - p.x).natAbs (q.y - p.y).natAbs

structure Segment (p q : Point) (l : List Point) : Prop where
  length : l.length = longSide p q + 1
  connected : l.IsChain Adjacent
  nodup : l.Nodup
  first : l.head? = some p
  last : l.getLast? = some q

def ends (linemode : UInt8) (l : List Point) : List Point :=
  let l := if omitLast linemode then l.dropLast else l
  if omitFirst linemode then l.tail else l

def pick (on : Nat → Bool) : List Point → List Point
  | [] => []
  | p :: l => if on 0 then p :: pick (fun i => on (i + 1)) l else pick (fun i => on (i + 1)) l

/-- Whether the `i`-th pixel from now on is on. -/
def DotPattern.on (D : DotPattern) (i : Nat) : Bool := D.dots.getD ((D.index + i) % D.len) 0 != 0

/-- The pattern after `n` more pixels. -/
def DotPattern.skip (D : DotPattern) (n : Nat) : DotPattern :=
  { D with index := (D.index + n) % D.len, inside := Nat.mod_lt _ (Nat.zero_lt_of_lt D.inside) }

def solid (D : DotPattern) (p q : Point) : List Point := (primDrawLine D p q 0).1

structure LineExact (D : DotPattern) (p q : Point) (linemode : UInt8) : Prop where
  plotted : (primDrawLine D p q linemode).1 =
    if dotted linemode then pick (begun D linemode).on (ends linemode (solid D p q))
    else ends linemode (solid D p q)
  continued : (primDrawLine D p q linemode).2 =
    if dotted linemode then (begun D linemode).skip (ends linemode (solid D p q)).length else D

def SlopeKept (D : DotPattern) (p q : Point) (linemode : UInt8) : Prop :=
  omitLast linemode = false ∨ shortSide p q = 0 ∨ shortSide p q = longSide p q ∨ longSide p q ≤ 2 ∨
    dotted linemode = true ∧ ∀ i, 1 ≤ i → i < longSide p q →
      (begun D linemode).on (if omitFirst linemode then i - 1 else i) = true →
        (longSide p q / 2 + i * shortSide p q) / (longSide p q - 1) =
          (longSide p q / 2 + i * shortSide p q) / longSide p q

/-! ### The pattern -/

section Dots

theorem DotPattern.on_zero (D : DotPattern) : D.on 0 = D.here := by
  rw [DotPattern.on, Nat.add_zero, Nat.mod_eq_of_lt D.inside]
  rfl

theorem DotPattern.next_index (D : DotPattern) (n : Nat) :
    (D.next.index + n) % D.next.len = (D.index + (n + 1)) % D.len := by
  have hin := D.inside
  show ((if D.index + 1 = D.len then 0 else D.index + 1) + n) % D.len = _
  split
  · next hend =>
    have hsum : D.index + (n + 1) = D.len + n := by omega
    rw [hsum, Nat.add_mod_left, Nat.zero_add]
  · rw [Nat.add_assoc, Nat.add_comm 1 n]

theorem DotPattern.on_next (D : DotPattern) (i : Nat) : D.next.on i = D.on (i + 1) := by
  rw [DotPattern.on, D.next_index]
  rfl

theorem DotPattern.skip_zero (D : DotPattern) : D.skip 0 = D := by
  have hindex : (D.index + 0) % D.len = D.index := Nat.mod_eq_of_lt D.inside
  simp only [DotPattern.skip, hindex]

theorem DotPattern.skip_next (D : DotPattern) (n : Nat) : D.next.skip n = D.skip (n + 1) :=
  DotPattern.ext rfl rfl (D.next_index n)

theorem pick_eq_iff {on : Nat → Bool} {l l' : List Point} (h : l.length = l'.length) :
    pick on l = pick on l' ↔ ∀ i, on i = true → l[i]? = l'[i]? := by
  induction l generalizing l' on with
  | nil =>
    rw [List.eq_nil_of_length_eq_zero h.symm]
    exact iff_of_true rfl fun _ _ => rfl
  | cons p l ih =>
    rcases l' with _ | ⟨p', l'⟩
    · exact absurd h (Nat.succ_ne_zero _)
    · have hrest := @ih (fun i => on (i + 1)) l' (Nat.succ.inj h)
      simp only [pick]
      rcases Bool.eq_false_or_eq_true (on 0) with hon | hoff
      · rw [if_pos hon, if_pos hon, List.cons.injEq, hrest]
        constructor
        · rintro ⟨rfl, htail⟩ i hi
          rcases i with _ | i
          · rfl
          · exact htail i hi
        · intro hall
          exact ⟨Option.some.inj (hall 0 hon), fun i hi => hall (i + 1) hi⟩
      · rw [if_neg (by rw [hoff]; exact Bool.false_ne_true),
          if_neg (by rw [hoff]; exact Bool.false_ne_true), hrest]
        constructor
        · intro htail i hi
          rcases i with _ | i
          · exact absurd (hoff.symm.trans hi) (by decide)
          · exact htail i hi
        · intro hall i hi
          exact hall (i + 1) hi

end Dots

/-! ### The loop -/

section Loop

def Setup.path (e : Setup) : Nat → Cursor → List Point
  | 0, _ => []
  | n + 1, c => c.pos :: e.path n (e.move c)

variable {e : Setup}

@[simp] theorem Setup.length_path (n : Nat) (c : Cursor) : (e.path n c).length = n := by
  induction n generalizing c with
  | zero => rfl
  | succ n ih => exact congrArg (· + 1) (ih _)

theorem Setup.path_get {n i : Nat} (hi : i < n) (c : Cursor) :
    (e.path n c)[i]? = some (e.move^[i] c).pos := by
  induction i generalizing n c with
  | zero =>
    rcases n with _ | n
    · exact absurd hi (Nat.lt_irrefl 0)
    · rfl
  | succ i ih =>
    rcases n with _ | n
    · exact absurd hi (Nat.not_lt_zero _)
    · exact ih (Nat.lt_of_succ_lt_succ hi) (e.move c)

theorem Setup.draw_marked (n : Nat) {i : Nat} (s : Pen) (hmark : 0 < i ∨ e.omitFirst = false) :
    (e.draw n i s).plotted =
      s.plotted ++ (if e.dotted then pick s.dots.on (e.path n s.cursor) else e.path n s.cursor) ∧
    (e.draw n i s).dots = if e.dotted then s.dots.skip n else s.dots := by
  induction n generalizing i s with
  | zero =>
    rw [Setup.draw, Setup.path, pick, ite_self, List.append_nil, s.dots.skip_zero, ite_self]
    exact ⟨rfl, rfl⟩
  | succ n ih =>
    have hnext := ih { e.mark i s with cursor := e.move (e.mark i s).cursor } (.inl (Nat.succ_pos i))
    rw [Setup.draw]
    rw [hnext.1, hnext.2]
    have hmarked : e.mark i s = _ := if_pos hmark
    rw [hmarked]
    rcases Bool.eq_false_or_eq_true e.dotted with hdot | hdot
    · simp only [hdot, if_true, Setup.path, pick, DotPattern.on_zero, DotPattern.skip_next]
      have hon : s.dots.next.on = fun j => s.dots.on (j + 1) := funext s.dots.on_next
      refine ⟨?_, trivial⟩
      rw [hon]
      split
      · rw [List.append_assoc]
        rfl
      · rfl
    · simp only [hdot, Bool.false_eq_true, if_false, Setup.path]
      refine ⟨?_, trivial⟩
      rw [List.append_assoc]
      rfl

theorem Setup.draw_eq (n : Nat) (c : Cursor) (D : DotPattern) :
    ∃ l, l = (if e.omitFirst then (e.path n c).tail else e.path n c) ∧
      (e.draw n 0 ⟨c, D, []⟩).plotted = (if e.dotted then pick D.on l else l) ∧
      (e.draw n 0 ⟨c, D, []⟩).dots = if e.dotted then D.skip l.length else D := by
  refine ⟨_, rfl, ?_⟩
  rcases Bool.eq_false_or_eq_true e.omitFirst with hfirst | hfirst
  · simp only [hfirst, if_true]
    rcases n with _ | n
    · rw [Setup.draw, Setup.path, List.tail_nil, pick, List.length_nil, D.skip_zero, ite_self, ite_self]
      exact ⟨rfl, rfl⟩
    · have hskip : e.mark 0 ⟨c, D, []⟩ = ⟨c, D, []⟩ := if_neg (by rw [hfirst]; decide)
      have hrest := @draw_marked e n 1 ⟨e.move c, D, []⟩ (.inl Nat.one_pos)
      rw [Setup.draw, hskip, hrest.1, hrest.2, Setup.path, List.tail_cons, List.nil_append,
        Setup.length_path]
      exact ⟨rfl, rfl⟩
  · have hall := @draw_marked e n 0 ⟨c, D, []⟩ (.inr hfirst)
    rw [hall.1, hall.2, hfirst]
    simp only [Bool.false_eq_true, if_false, List.nil_append, Setup.length_path]
    exact ⟨trivial, trivial⟩

end Loop

/-! ### Where the cursor is -/

section Course

/-- The point that `i` moves lead to, `k` of them on the diagonal. -/
def Octant.along (o : Octant) (p : Point) (i k : Int) : Point :=
  ⟨p.x + (i - k) * o.dx2 + k * o.dx1, p.y + (i - k) * o.dy2 + k * o.dy1⟩

variable {e : Setup} {o : Octant} {p q : Point}

theorem along_straight (o : Octant) (p : Point) (i k : Int) :
    o.along p (i + 1) k = ⟨(o.along p i k).x + o.dx2, (o.along p i k).y + o.dy2⟩ := by
  refine congrArg₂ Point.mk ?_ ?_
  · show p.x + (i + 1 - k) * o.dx2 + k * o.dx1 = p.x + (i - k) * o.dx2 + k * o.dx1 + o.dx2
    ring
  · show p.y + (i + 1 - k) * o.dy2 + k * o.dy1 = p.y + (i - k) * o.dy2 + k * o.dy1 + o.dy2
    ring

theorem along_turn (o : Octant) (p : Point) (i k : Int) :
    o.along p (i + 1) (k + 1) = ⟨(o.along p i k).x + o.dx1, (o.along p i k).y + o.dy1⟩ := by
  refine congrArg₂ Point.mk ?_ ?_
  · show p.x + (i + 1 - (k + 1)) * o.dx2 + (k + 1) * o.dx1 = p.x + (i - k) * o.dx2 + k * o.dx1 + o.dx1
    ring
  · show p.y + (i + 1 - (k + 1)) * o.dy2 + (k + 1) * o.dy1 = p.y + (i - k) * o.dy2 + k * o.dy1 + o.dy1
    ring

theorem along_zero (o : Octant) (p : Point) : o.along p 0 0 = p := by
  simp [Octant.along]

theorem move_floor (hS : 0 ≤ e.shortest) (hle : e.shortest ≤ e.longest) {n : Int} (hn : 0 ≤ n)
    (hlt : n < e.longest) (i : Nat) : e.move^[i] ⟨n, p⟩ =
      ⟨(n + i * e.shortest) % e.longest,
        e.octant.along p i ((n + i * e.shortest) / e.longest)⟩ := by
  have hpos : 0 < e.longest := lt_of_le_of_lt hn hlt
  induction i with
  | zero =>
    rw [Function.iterate_zero_apply, Nat.cast_zero, zero_mul, add_zero, Int.emod_eq_of_lt hn hlt,
      Int.ediv_eq_zero_of_lt hn hlt, along_zero]
  | succ i ih =>
    obtain ⟨v, hv⟩ : ∃ v, v = n + i * e.shortest := ⟨_, rfl⟩
    have hnext : n + (i + 1 : Nat) * e.shortest = v + e.shortest := by
      rw [hv]
      push_cast
      ring
    have hsplit := Int.mul_ediv_add_emod v e.longest
    have hmod := Int.emod_nonneg v hpos.ne'
    have hmod' := Int.emod_lt_of_pos v hpos
    rw [Function.iterate_succ_apply', ih, ← hv, hnext, Setup.move]
    simp only
    by_cases hturn : v % e.longest + e.shortest < e.longest
    · have hnew : (v + e.shortest) / e.longest = v / e.longest ∧
          (v + e.shortest) % e.longest = v % e.longest + e.shortest :=
        (Int.ediv_emod_unique hpos).mpr ⟨by linarith, by linarith, hturn⟩
      obtain ⟨hdiv, hrem⟩ := hnew
      rw [if_neg (not_not.mpr hturn), hdiv, hrem, Nat.cast_succ, along_straight]
    · have hnew : (v + e.shortest) / e.longest = v / e.longest + 1 ∧
          (v + e.shortest) % e.longest = v % e.longest + e.shortest - e.longest :=
        (Int.ediv_emod_unique hpos).mpr ⟨by linarith, by linarith, by linarith⟩
      obtain ⟨hdiv, hrem⟩ := hnew
      rw [if_pos hturn, hdiv, hrem, Nat.cast_succ, along_turn]

theorem move_diagonal (hle : e.longest ≤ e.shortest) {n : Int} (hn : 0 ≤ n) (i : Nat) :
    0 ≤ (e.move^[i] ⟨n, p⟩).numerator ∧ (e.move^[i] ⟨n, p⟩).pos = e.octant.along p i i := by
  induction i with
  | zero =>
    refine ⟨hn, ?_⟩
    rw [Nat.cast_zero, along_zero]
    rfl
  | succ i ih =>
    obtain ⟨hnum, hpos⟩ := ih
    rw [Function.iterate_succ_apply', Setup.move]
    rw [if_pos (by linarith), hpos]
    refine ⟨by linarith, ?_⟩
    rw [Nat.cast_succ, along_turn]

theorem move_same (hx : e.octant.dx1 = e.octant.dx2) (hy : e.octant.dy1 = e.octant.dy2) (n : Int)
    (i : Nat) : (e.move^[i] ⟨n, p⟩).pos = e.octant.along p i 0 := by
  induction i with
  | zero =>
    rw [Nat.cast_zero, along_zero]
    rfl
  | succ i ih =>
    rw [Function.iterate_succ_apply', Setup.move, Nat.cast_succ, along_straight]
    split
    · rw [ih, hx, hy]
    · rw [ih]

theorem towards_mul (d : Int) : (d.natAbs : Int) * towards d = d := by
  rw [towards]
  split
  · omega
  · split
    · omega
    · omega

theorem towards_unit (d : Int) : (towards d).natAbs ≤ 1 := by
  rw [towards]
  split
  · decide
  · split
    · decide
    · decide

theorem towards_zero_iff (d : Int) : towards d = 0 ↔ d = 0 := by
  rw [towards]
  split
  · omega
  · split
    · omega
    · omega

theorem towards_sq {d : Int} (h : d ≠ 0) : towards d * towards d = 1 := by
  rw [towards]
  split
  · rfl
  · rw [if_pos (by omega)]
    rfl

structure Aimed (p q : Point) : Prop where
  longest : (aim p q).2.1 = longSide p q
  shortest : (aim p q).2.2 = shortSide p q
  target : (aim p q).1.along p (longSide p q) (shortSide p q) = q
  unit : (aim p q).1.dx1.natAbs ≤ 1 ∧ (aim p q).1.dy1.natAbs ≤ 1 ∧ (aim p q).1.dx2.natAbs ≤ 1 ∧
    (aim p q).1.dy2.natAbs ≤ 1
  forward : 0 < longSide p q → ∃ u v : Int, u * (aim p q).1.dx1 + v * (aim p q).1.dy1 = 1 ∧
    u * (aim p q).1.dx2 + v * (aim p q).1.dy2 = 1
  level : shortSide p q = 0 →
    (aim p q).1.dx1 = (aim p q).1.dx2 ∧ (aim p q).1.dy1 = (aim p q).1.dy2
  slanted : 0 < shortSide p q →
    (aim p q).1.dx1 ≠ (aim p q).1.dx2 ∨ (aim p q).1.dy1 ≠ (aim p q).1.dy2

theorem aimed (p q : Point) : Aimed p q := by
  obtain ⟨w, hw⟩ : ∃ w, w = q.x - p.x := ⟨_, rfl⟩
  obtain ⟨h, hh⟩ : ∃ h, h = q.y - p.y := ⟨_, rfl⟩
  have hmulw := towards_mul w
  have hmulh := towards_mul h
  have hqx : q.x = p.x + w := by omega
  have hqy : q.y = p.y + h := by omega
  by_cases hlong : h.natAbs < w.natAbs
  · have haim : aim p q =
        (Octant.mk (towards w) (towards h) (towards w) 0, (w.natAbs : Int), (h.natAbs : Int)) := by
      rw [aim, ← hw, ← hh]
      exact if_neg (not_not.mpr hlong)
    have hL : longSide p q = w.natAbs := by rw [longSide, ← hw, ← hh]; omega
    have hS : shortSide p q = h.natAbs := by rw [shortSide, ← hw, ← hh]; omega
    constructor <;> rw [haim] <;> simp only [hL, hS]
    · refine congrArg₂ Point.mk ?_ ?_
      · show p.x + (_ - _) * towards w + _ * towards w = q.x
        linarith
      · show p.y + (_ - _) * 0 + _ * towards h = q.y
        linarith
    · exact ⟨towards_unit w, towards_unit h, towards_unit w, Nat.zero_le 1⟩
    · intro hpos
      have hne : w ≠ 0 := by omega
      refine ⟨towards w, 0, ?_, ?_⟩
      · rw [towards_sq hne, zero_mul, add_zero]
      · rw [towards_sq hne, zero_mul, add_zero]
    · intro hzero
      exact ⟨trivial, (towards_zero_iff h).mpr (by omega)⟩
    · intro hpos
      exact .inr (mt (towards_zero_iff h).mp (by omega))
  · have haim : aim p q =
        (Octant.mk (towards w) (towards h) 0 (towards h), (h.natAbs : Int), (w.natAbs : Int)) := by
      rw [aim, ← hw, ← hh]
      exact if_pos hlong
    have hL : longSide p q = h.natAbs := by rw [longSide, ← hw, ← hh]; omega
    have hS : shortSide p q = w.natAbs := by rw [shortSide, ← hw, ← hh]; omega
    constructor <;> rw [haim] <;> simp only [hL, hS]
    · refine congrArg₂ Point.mk ?_ ?_
      · show p.x + (_ - _) * 0 + _ * towards w = q.x
        linarith
      · show p.y + (_ - _) * towards h + _ * towards h = q.y
        linarith
    · exact ⟨towards_unit w, towards_unit h, Nat.zero_le 1, towards_unit h⟩
    · intro hpos
      have hne : h ≠ 0 := by omega
      refine ⟨0, towards h, ?_, ?_⟩
      · rw [towards_sq hne, zero_mul, zero_add]
      · rw [towards_sq hne, zero_mul, zero_add]
    · intro hzero
      exact ⟨(towards_zero_iff w).mpr (by omega), trivial⟩
    · intro hpos
      exact .inl (mt (towards_zero_iff w).mp (by omega))

end Course

/-! ### The chain -/

section Chain

variable {e : Setup} {u v : Int}

structure Forward (e : Setup) (u v : Int) : Prop where
  unit : e.octant.dx1.natAbs ≤ 1 ∧ e.octant.dy1.natAbs ≤ 1 ∧ e.octant.dx2.natAbs ≤ 1 ∧
    e.octant.dy2.natAbs ≤ 1
  turn : u * e.octant.dx1 + v * e.octant.dy1 = 1
  straight : u * e.octant.dx2 + v * e.octant.dy2 = 1

theorem Forward.move (h : Forward e u v) (c : Cursor) :
    u * (e.move c).pos.x + v * (e.move c).pos.y = u * c.pos.x + v * c.pos.y + 1 ∧
      ((e.move c).pos.x - c.pos.x).natAbs ≤ 1 ∧ ((e.move c).pos.y - c.pos.y).natAbs ≤ 1 := by
  obtain ⟨hx1, hy1, hx2, hy2⟩ := h.unit
  have hturn := h.turn
  have hstraight := h.straight
  rw [Setup.move]
  split
  · refine ⟨?_, ?_, ?_⟩
    · show u * (c.pos.x + e.octant.dx1) + v * (c.pos.y + e.octant.dy1) = _
      linarith
    · show (c.pos.x + e.octant.dx1 - c.pos.x).natAbs ≤ 1
      omega
    · show (c.pos.y + e.octant.dy1 - c.pos.y).natAbs ≤ 1
      omega
  · refine ⟨?_, ?_, ?_⟩
    · show u * (c.pos.x + e.octant.dx2) + v * (c.pos.y + e.octant.dy2) = _
      linarith
    · show (c.pos.x + e.octant.dx2 - c.pos.x).natAbs ≤ 1
      omega
    · show (c.pos.y + e.octant.dy2 - c.pos.y).natAbs ≤ 1
      omega

theorem Forward.adjacent (h : Forward e u v) (c : Cursor) : Adjacent c.pos (e.move c).pos := by
  obtain ⟨hstep, hx, hy⟩ := h.move c
  refine ⟨fun heq => ?_, hx, hy⟩
  rw [← heq] at hstep
  omega

theorem Forward.connected (h : Forward e u v) (n : Nat) (c : Cursor) :
    (e.path n c).IsChain Adjacent := by
  induction n generalizing c with
  | zero => exact .nil
  | succ n ih =>
    rcases n with _ | n
    · exact .singleton _
    · exact .cons_cons (h.adjacent c) (ih (e.move c))

theorem Forward.ahead (h : Forward e u v) {n : Nat} {c : Cursor} {p : Point} (hp : p ∈ e.path n c) :
    u * c.pos.x + v * c.pos.y ≤ u * p.x + v * p.y := by
  induction n generalizing c with
  | zero => exact absurd hp List.not_mem_nil
  | succ n ih =>
    rcases List.mem_cons.mp hp with rfl | hrest
    · exact le_rfl
    · have hstep := (h.move c).1
      have hle := ih hrest
      omega

theorem Forward.nodup (h : Forward e u v) (n : Nat) (c : Cursor) : (e.path n c).Nodup := by
  induction n generalizing c with
  | zero => exact List.nodup_nil
  | succ n ih =>
    refine List.nodup_cons.mpr ⟨fun hmem => ?_, ih (e.move c)⟩
    have hstep := (h.move c).1
    have hle := h.ahead hmem
    omega

theorem Setup.dropLast_path (e : Setup) (n : Nat) (c : Cursor) :
    (e.path (n + 1) c).dropLast = e.path n c := by
  induction n generalizing c with
  | zero => rfl
  | succ n ih =>
    show c.pos :: (e.path (n + 1) (e.move c)).dropLast = _
    rw [ih]
    rfl

end Chain

/-! ### Lines -/

section Line

variable (D : DotPattern) (p q : Point) (linemode : UInt8)

def origin : Cursor := ⟨longSide p q / 2, p⟩

def passes : Nat := if omitLast linemode then longSide p q else longSide p q + 1

theorem setup_longest : (setup p q linemode).longest = (passes p q linemode : Int) - 1 := by
  show (if omitLast linemode then (aim p q).2.1 - 1 else (aim p q).2.1) = _
  rw [(aimed p q).longest, passes]
  split
  · rfl
  · push_cast
    ring

def passed : List Point :=
  let l := (setup p q linemode).path (passes p q linemode) (origin p q)
  if omitFirst linemode then l.tail else l

theorem primDrawLine_eq : (primDrawLine D p q linemode).1 =
      (if dotted linemode then pick (begun D linemode).on (passed p q linemode)
        else passed p q linemode) ∧
    (primDrawLine D p q linemode).2 =
      if dotted linemode then (begun D linemode).skip (passed p q linemode).length
      else begun D linemode := by
  have hcount : ((setup p q linemode).longest + 1).toNat = passes p q linemode := by
    rw [setup_longest]
    omega
  have horigin : Cursor.mk ((aim p q).2.1 / 2) p = origin p q := by
    rw [(aimed p q).longest]
    rfl
  obtain ⟨l, hl, hplotted, hdots⟩ := @Setup.draw_eq (setup p q linemode) (passes p q linemode)
    (origin p q) (begun D linemode)
  have hpassed : passed p q linemode = l := hl.symm
  rw [hpassed, primDrawLine]
  simp only [hcount, horigin]
  exact ⟨hplotted, hdots⟩

theorem solid_eq : solid D p q = (setup p q 0).path (longSide p q + 1) (origin p q) :=
  (primDrawLine_eq D p q 0).1

theorem ends_solid : ends linemode (solid D p q) =
    if omitFirst linemode then ((setup p q 0).path (passes p q linemode) (origin p q)).tail
    else (setup p q 0).path (passes p q linemode) (origin p q) := by
  have hlast : (if omitLast linemode then (solid D p q).dropLast else solid D p q) =
      (setup p q 0).path (passes p q linemode) (origin p q) := by
    rw [solid_eq, passes]
    split
    · exact Setup.dropLast_path _ _ _
    · rfl
  rw [ends, hlast]

theorem length_passed : (passed p q linemode).length = (ends linemode (solid D p q)).length := by
  rw [ends_solid, passed]
  split
  · rw [List.length_tail, List.length_tail, Setup.length_path, Setup.length_path]
  · rw [Setup.length_path, Setup.length_path]

theorem setup_forward (hL : 0 < longSide p q) : ∃ u v, Forward (setup p q linemode) u v := by
  obtain ⟨u, v, hturn, hstraight⟩ := (aimed p q).forward hL
  exact ⟨u, v, (aimed p q).unit, hturn, hstraight⟩

theorem shortSide_le : shortSide p q ≤ longSide p q := Nat.le_trans (Nat.min_le_left _ _) (Nat.le_max_left _ _)

theorem solid_point (hL : 0 < longSide p q) (i : Nat) : ((setup p q 0).move^[i] (origin p q)).pos =
    (aim p q).1.along p i ((longSide p q / 2 + i * shortSide p q : Nat) / (longSide p q : Nat) : Nat) := by
  have hlongest : (setup p q 0).longest = (longSide p q : Int) := (aimed p q).longest
  have hshortest : (setup p q 0).shortest = (shortSide p q : Int) := (aimed p q).shortest
  have hle := shortSide_le p q
  have hfloor := move_floor (e := setup p q 0) (p := p) (by omega) (by omega)
    (by omega : 0 ≤ (longSide p q : Int) / 2) (by omega) i
  rw [origin, hfloor, hlongest, hshortest]
  push_cast
  rfl

theorem solid_segment : Segment p q (solid D p q) := by
  rw [solid_eq]
  have htarget := (aimed p q).target
  have hlast : ((setup p q 0).move^[longSide p q] (origin p q)).pos = q := by
    rcases Nat.eq_zero_or_pos (longSide p q) with hzero | hpos
    · have hle := shortSide_le p q
      have hnone : shortSide p q = 0 := by omega
      rw [hnone, hzero, Nat.cast_zero, along_zero] at htarget
      rw [hzero]
      exact htarget
    · rw [solid_point p q hpos, Nat.add_mul_div_left _ _ hpos, Nat.div_eq_of_lt (by omega), Nat.zero_add]
      exact htarget
  have hgetLast : ((setup p q 0).path (longSide p q + 1) (origin p q)).getLast? = some q := by
    rw [List.getLast?_eq_getElem?, Setup.length_path, Nat.add_sub_cancel,
      Setup.path_get (Nat.lt_succ_self _), hlast]
  refine ⟨Setup.length_path _ _, ?_, ?_, rfl, hgetLast⟩
  · rcases Nat.eq_zero_or_pos (longSide p q) with hzero | hpos
    · rw [hzero]
      exact .singleton _
    · obtain ⟨u, v, hforward⟩ := setup_forward p q 0 hpos
      exact hforward.connected _ _
  · rcases Nat.eq_zero_or_pos (longSide p q) with hzero | hpos
    · rw [hzero]
      exact List.nodup_singleton _
    · obtain ⟨u, v, hforward⟩ := setup_forward p q 0 hpos
      exact hforward.nodup _ _

end Line

/-! ### Where the slopes differ -/

section Slope

variable {p q : Point} {linemode : UInt8}

def Level (L S j : Nat) : Prop := (L / 2 + j * S) / (L - 1) = (L / 2 + j * S) / L

theorem slope_slips {L S : Nat} (hL : 2 < L) (hS : 0 < S) :
    ∃ j, 1 ≤ j ∧ j < L ∧ ¬ Level L S j := by
  have hmod : L / 2 % S < S := Nat.mod_lt _ hS
  have hsplit := Nat.div_add_mod (L / 2) S
  obtain ⟨t, ht⟩ : ∃ t, t = L / 2 / S := ⟨_, rfl⟩
  have htle : t ≤ L / 2 := ht ▸ Nat.div_le_self _ _
  obtain ⟨j, hj⟩ : ∃ j, j + t = L - 1 := ⟨L - 1 - t, by omega⟩
  have hsum : L / 2 + j * S = (L - 1) * S + L / 2 % S := by
    rw [← hj, Nat.add_mul, Nat.mul_comm t S, ht]
    omega
  refine ⟨j, by omega, by omega, fun hlevel => ?_⟩
  have hearly : S ≤ (L / 2 + j * S) / (L - 1) := by
    rw [Nat.le_div_iff_mul_le (by omega), hsum, Nat.mul_comm]
    exact Nat.le_add_right _ _
  have hlate : (L / 2 + j * S) / L < S := by
    rw [Nat.div_lt_iff_lt_mul (by omega), hsum]
    have hwhole : S * L = (L - 1) * S + S := by
      rw [← Nat.succ_mul, Nat.mul_comm]
      congr 1
      omega
    omega
  rw [Level] at hlevel
  omega

theorem along_inj {o : Octant} (h : o.dx1 ≠ o.dx2 ∨ o.dy1 ≠ o.dy2) {i k k' : Int}
    (heq : o.along p i k = o.along p i k') : k = k' := by
  obtain ⟨hx, hy⟩ := Point.mk.inj heq
  have hx' : (k - k') * (o.dx1 - o.dx2) = 0 := by linarith
  have hy' : (k - k') * (o.dy1 - o.dy2) = 0 := by linarith
  rcases h with h | h
  · rcases mul_eq_zero.mp hx' with hk | hd
    · omega
    · exact absurd (by omega) h
  · rcases mul_eq_zero.mp hy' with hk | hd
    · omega
    · exact absurd (by omega) h

theorem on_line_iff (hlast : omitLast linemode = true) {j : Nat} (hj : j < longSide p q) :
    ((setup p q linemode).move^[j] (origin p q)).pos = ((setup p q 0).move^[j] (origin p q)).pos ↔
      shortSide p q = 0 ∨ shortSide p q = longSide p q ∨ longSide p q ≤ 2 ∨
        (1 ≤ j → Level (longSide p q) (shortSide p q) j) := by
  have haim := aimed p q
  have hle := shortSide_le p q
  have hlongest : (setup p q linemode).longest = (longSide p q : Int) - 1 := by
    rw [setup_longest, passes, hlast]
    rfl
  have hshortest : (setup p q linemode).shortest = (shortSide p q : Int) := haim.shortest
  have hlongest' : (setup p q 0).longest = (longSide p q : Int) := haim.longest
  have hshortest' : (setup p q 0).shortest = (shortSide p q : Int) := haim.shortest
  have hhalf : (0 : Int) ≤ (longSide p q : Int) / 2 := by omega
  rcases Nat.eq_zero_or_pos (shortSide p q) with hflat | hS
  · obtain ⟨hx, hy⟩ := haim.level hflat
    refine iff_of_true ?_ (.inl hflat)
    rw [origin, move_same (e := setup p q linemode) hx hy, move_same (e := setup p q 0) hx hy]
    rfl
  rcases Nat.eq_or_lt_of_le hle with hdiag | hlt
  · refine iff_of_true ?_ (.inr (.inl hdiag))
    rw [origin, (move_diagonal (e := setup p q linemode) (by omega) hhalf j).2,
      (move_diagonal (e := setup p q 0) (by omega) hhalf j).2]
    rfl
  rcases Nat.lt_or_ge 2 (longSide p q) with hlong | hshort
  · have hpoint : ((setup p q linemode).move^[j] (origin p q)).pos = (aim p q).1.along p j
        ((longSide p q / 2 + j * shortSide p q : Nat) / (longSide p q - 1 : Nat) : Nat) := by
      rw [origin, move_floor (e := setup p q linemode) (by omega) (by omega) hhalf (by omega) j,
        hlongest, hshortest]
      push_cast [Nat.one_le_of_lt hlong]
      rfl
    rw [hpoint, solid_point p q (by omega)]
    constructor
    · intro heq
      exact .inr (.inr (.inr fun _ => Int.ofNat_inj.mp (along_inj (haim.slanted hS) heq)))
    · rintro (hbad | hbad | hbad | hlevel)
      · omega
      · omega
      · omega
      · rcases Nat.eq_zero_or_pos j with rfl | hpos
        · rw [Nat.zero_mul, Nat.add_zero, Nat.div_eq_of_lt (by omega), Nat.div_eq_of_lt (by omega)]
        · rw [show _ = _ from hlevel hpos]
  · -- one point after the first, and the first move turns for either count
    refine iff_of_true ?_ (.inr (.inr (.inl hshort)))
    rcases Nat.eq_zero_or_pos j with rfl | hpos
    · rfl
    · obtain rfl : j = 1 := by omega
      have hturn (m : UInt8) (hm : (setup p q m).longest ≤ 2) (hs : (setup p q m).shortest = 1) :
          ((setup p q m).move^[1] (origin p q)).pos =
            ⟨p.x + (aim p q).1.dx1, p.y + (aim p q).1.dy1⟩ := by
        have hnum : (origin p q).numerator = (longSide p q : Int) / 2 := rfl
        rw [Function.iterate_one, Setup.move, if_pos (by omega)]
        rfl
      rw [hturn linemode (by omega) (by omega), hturn 0 (by omega) (by omega)]

theorem move_kept (p q : Point) (h : omitLast linemode = false) :
    (setup p q linemode).move = (setup p q 0).move := by
  have hlongest : (setup p q linemode).longest = (setup p q 0).longest := by
    rw [setup_longest, setup_longest, passes, h]
    rfl
  funext c
  rw [Setup.move, Setup.move, hlongest]
  rfl

theorem passed_get (i : Nat) : (passed p q linemode)[i]? =
    ((setup p q linemode).path (passes p q linemode) (origin p q))[
      if omitFirst linemode then i + 1 else i]? := by
  rw [passed]
  split
  · rw [List.getElem?_tail]
  · rfl

theorem ends_get (D : DotPattern) (i : Nat) : (ends linemode (solid D p q))[i]? =
    ((setup p q 0).path (passes p q linemode) (origin p q))[
      if omitFirst linemode then i + 1 else i]? := by
  rw [ends_solid]
  split
  · rw [List.getElem?_tail]
  · rfl

theorem pick_passed_iff (D : DotPattern) (on : Nat → Bool) :
    pick on (passed p q linemode) = pick on (ends linemode (solid D p q)) ↔
      omitLast linemode = false ∨ shortSide p q = 0 ∨ shortSide p q = longSide p q ∨
        longSide p q ≤ 2 ∨ ∀ j, 1 ≤ j → j < longSide p q →
          on (if omitFirst linemode then j - 1 else j) = true → Level (longSide p q) (shortSide p q) j := by
  rw [pick_eq_iff (length_passed D p q linemode)]
  simp only [passed_get, ends_get]
  have hout (e : Setup) {n j : Nat} (hj : n ≤ j) (c : Cursor) : (e.path n c)[j]? = none :=
    List.getElem?_eq_none (by rw [Setup.length_path]; exact hj)
  rcases Bool.eq_false_or_eq_true (omitLast linemode) with hlast | hlast
  · have hpasses : passes p q linemode = longSide p q := by rw [passes, if_pos hlast]
    rw [hpasses]
    constructor
    · intro hall
      by_cases hkeep : shortSide p q = 0 ∨ shortSide p q = longSide p q ∨ longSide p q ≤ 2
      · rcases hkeep with hkeep | hkeep | hkeep
        · exact .inr (.inl hkeep)
        · exact .inr (.inr (.inl hkeep))
        · exact .inr (.inr (.inr (.inl hkeep)))
      · refine .inr (.inr (.inr (.inr fun j hj hlt hon => ?_)))
        have hget := hall _ hon
        have hindex : (if omitFirst linemode then (if omitFirst linemode then j - 1 else j) + 1
            else if omitFirst linemode then j - 1 else j) = j := by
          split
          · omega
          · rfl
        rw [hindex, Setup.path_get hlt, Setup.path_get hlt] at hget
        rcases (on_line_iff hlast hlt).mp (Option.some.inj hget) with h | h | h | h
        · exact absurd (.inl h) hkeep
        · exact absurd (.inr (.inl h)) hkeep
        · exact absurd (.inr (.inr h)) hkeep
        · exact h hj
    · intro hkeep i hon
      obtain ⟨j, hj⟩ : ∃ j, j = if omitFirst linemode then i + 1 else i := ⟨_, rfl⟩
      rw [← hj]
      rcases Nat.lt_or_ge j (longSide p q) with hlt | hge
      · rw [Setup.path_get hlt, Setup.path_get hlt]
        refine congrArg some ((on_line_iff hlast hlt).mpr ?_)
        rcases hkeep with h | h | h | h | h
        · exact absurd (hlast.symm.trans h) (by decide)
        · exact .inl h
        · exact .inr (.inl h)
        · exact .inr (.inr (.inl h))
        · refine .inr (.inr (.inr fun hpos => h j hpos hlt ?_))
          have hindex : (if omitFirst linemode then j - 1 else j) = i := by
            rw [hj]
            split
            · rfl
            · rfl
          rw [hindex]
          exact hon
      · rw [hout _ hge, hout _ hge]
  · refine iff_of_true (fun i _ => ?_) (.inl hlast)
    obtain ⟨j, hj⟩ : ∃ j, j = if omitFirst linemode then i + 1 else i := ⟨_, rfl⟩
    rw [← hj]
    rcases Nat.lt_or_ge j (passes p q linemode) with hlt | hge
    · rw [Setup.path_get hlt, Setup.path_get hlt, move_kept p q hlast]
    · rw [hout _ hge, hout _ hge]

theorem pick_all (l : List Point) : pick (fun _ => true) l = l := by
  induction l with
  | nil => rfl
  | cons p l ih => exact congrArg (p :: ·) ih

end Slope

/-- Solid lines are chains; every line code plots its part of the chain of its end points just when
omitting the last point leaves the slope alone. -/
theorem line_variants_iff (D : DotPattern) (p q : Point) (linemode : UInt8) :
    Segment p q (solid D p q) ∧ (LineExact D p q linemode ↔ SlopeKept D p q linemode) := by
  refine ⟨solid_segment D p q, ?_⟩
  obtain ⟨hplotted, hdots⟩ := primDrawLine_eq D p q linemode
  have hcontinued : (primDrawLine D p q linemode).2 =
      if dotted linemode then (begun D linemode).skip (ends linemode (solid D p q)).length else D := by
    rw [hdots, length_passed D p q linemode]
    split
    · rfl
    · next hsolid => exact if_neg fun h => hsolid (Bool.and_eq_true_iff.mp h).1
  have hexact : LineExact D p q linemode ↔ (primDrawLine D p q linemode).1 =
      if dotted linemode then pick (begun D linemode).on (ends linemode (solid D p q))
      else ends linemode (solid D p q) :=
    ⟨fun h => h.plotted, fun h => ⟨h, hcontinued⟩⟩
  rw [hexact, hplotted, SlopeKept]
  rcases Bool.eq_false_or_eq_true (dotted linemode) with hdot | hdot
  · rw [if_pos hdot, if_pos hdot, pick_passed_iff, hdot]
    simp only [true_and]
    rfl
  · rw [if_neg (by rw [hdot]; exact Bool.false_ne_true), if_neg (by rw [hdot]; exact Bool.false_ne_true),
      ← pick_all (passed p q linemode), ← pick_all (ends linemode (solid D p q)), pick_passed_iff, hdot]
    constructor
    · rintro (h | h | h | h | h)
      · exact .inl h
      · exact .inr (.inl h)
      · exact .inr (.inr (.inl h))
      · exact .inr (.inr (.inr (.inl h)))
      · by_contra hnone
        obtain ⟨-, hnone⟩ := not_or.mp hnone
        obtain ⟨hflat, hnone⟩ := not_or.mp hnone
        obtain ⟨-, hnone⟩ := not_or.mp hnone
        obtain ⟨hshort, -⟩ := not_or.mp hnone
        obtain ⟨j, hpos, hlt, hslip⟩ := slope_slips (Nat.lt_of_not_le hshort) (Nat.pos_of_ne_zero hflat)
        exact hslip (h j hpos hlt rfl)
    · rintro (h | h | h | h | h)
      · exact .inl h
      · exact .inr (.inl h)
      · exact .inr (.inr (.inl h))
      · exact .inr (.inr (.inr (.inl h)))
      · exact absurd h.1 (by decide)

/-- Four pixels to the right and one up: without its last point the line turns a pixel too early. -/
theorem turns_early : (primDrawLine defaultDots ⟨0, 0⟩ ⟨4, 1⟩ 0x08).1 = [⟨0, 0⟩, ⟨1, 1⟩, ⟨2, 1⟩, ⟨3, 1⟩] ∧
    solid defaultDots ⟨0, 0⟩ ⟨4, 1⟩ = [⟨0, 0⟩, ⟨1, 0⟩, ⟨2, 1⟩, ⟨3, 1⟩, ⟨4, 1⟩] ∧
    ¬ LineExact defaultDots ⟨0, 0⟩ ⟨4, 1⟩ 0x08 := by
  have hline : (primDrawLine defaultDots ⟨0, 0⟩ ⟨4, 1⟩ 0x08).1 =
      [⟨0, 0⟩, ⟨1, 1⟩, ⟨2, 1⟩, ⟨3, 1⟩] := by decide +kernel
  have hsolid : solid defaultDots ⟨0, 0⟩ ⟨4, 1⟩ =
      [⟨0, 0⟩, ⟨1, 0⟩, ⟨2, 1⟩, ⟨3, 1⟩, ⟨4, 1⟩] := by decide +kernel
  refine ⟨hline, hsolid, fun h => ?_⟩
  have hplotted := h.plotted
  rw [hline, hsolid] at hplotted
  exact absurd hplotted (by decide)

end Pi1MHz.VduLine
