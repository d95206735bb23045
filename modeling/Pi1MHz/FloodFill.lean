import Mathlib.Algebra.BigOperators.Group.Finset.Basic
import Mathlib.Algebra.Order.BigOperators.Group.Finset
import Mathlib.Data.Int.ConditionallyCompleteOrder
import Mathlib.Data.Int.Interval
import Mathlib.Data.List.Count
import Mathlib.Logic.Function.Iterate
import Mathlib.Logic.Relation
import Mathlib.Order.ConditionallyCompleteLattice.Basic

/-!
# Flood fills

A fill that works in runs along a row.  A cell is taken from the work list; if it may still be plotted,
the run that it lies in is plotted from left to right, and of the cells above and below those that may be
plotted go onto the list.
-/

namespace FloodFill

abbrev Cell := Int × Int

structure Window where
  xMin : Int
  xMax : Int
  yMin : Int
  yMax : Int

def Window.Inside (W : Window) (c : Cell) : Prop :=
  W.xMin ≤ c.1 ∧ c.1 ≤ W.xMax ∧ W.yMin ≤ c.2 ∧ c.2 ≤ W.yMax

/-- What is to be filled: the values at which a cell is left alone, and what plotting does to a value. -/
structure Problem (V : Type*) where
  window : Window
  capacity : Nat
  stops : Cell → V → Bool
  plots : Cell → V → V

structure State (V : Type*) where
  screen : Cell → V
  pending : List Cell
  plotted : List Cell
  wrapped : Bool

def Above (c d : Cell) : Prop := c.1 = d.1 ∧ (d.2 = c.2 + 1 ∨ c.2 = d.2 + 1)

def Beside (c d : Cell) : Prop := c.2 = d.2 ∧ (d.1 = c.1 + 1 ∨ c.1 = d.1 + 1)

def Adjacent (c d : Cell) : Prop := Above c d ∨ Beside c d

namespace Problem

variable {V : Type*} (F : Problem V)

def fails (s : Cell → V) (c : Cell) : Bool := F.stops c (s c)

/-! ### The fill -/

def push (st : State V) (c : Cell) : State V :=
  if st.pending.length + 1 = F.capacity then { st with pending := [], wrapped := true }
  else { st with pending := st.pending ++ [c] }

def plot (st : State V) (c : Cell) : State V :=
  { st with
    screen := Function.update st.screen c (F.plots c (st.screen c))
    plotted := st.plotted ++ [c] }

def pushUp (y x : Int) (st : State V) : State V :=
  if F.window.yMin < y ∧ F.fails st.screen (x, y - 1) = false then F.push st (x, y - 1) else st

def pushDown (y x : Int) (st : State V) : State V :=
  if y < F.window.yMax ∧ F.fails st.screen (x, y + 1) = false then F.push st (x, y + 1) else st

def touch (y x : Int) (st : State V) : State V := F.pushDown y x (F.pushUp y x (F.plot st (x, y)))

/-- The left end of a run, at most `n` cells away. -/
def scanLeft (s : Cell → V) (y : Int) : Nat → Int → Int
  | 0, x => x
  | n + 1, x => if F.fails s (x - 1, y) then x else scanLeft s y n (x - 1)

def scanRight (s : Cell → V) (y : Int) : Nat → Int → Int
  | 0, x => x
  | n + 1, x => if F.fails s (x + 1, y) then x else scanRight s y n (x + 1)

def sweep (y : Int) : Nat → Int → State V → State V
  | 0, _, st => st
  | n + 1, x, st => sweep y n (x + 1) (F.touch y x st)

def leftEnd (s : Cell → V) (c : Cell) : Int := F.scanLeft s c.2 (c.1 - F.window.xMin).toNat c.1

def rightEnd (s : Cell → V) (c : Cell) : Int := F.scanRight s c.2 (F.window.xMax - c.1).toNat c.1

def visit (st : State V) (c : Cell) : State V :=
  F.sweep c.2 (F.rightEnd st.screen c - F.leftEnd st.screen c + 1).toNat (F.leftEnd st.screen c) st

def step (st : State V) : State V :=
  match st.pending with
  | [] => st
  | c :: rest =>
    if F.fails st.screen c then { st with pending := rest } else F.visit { st with pending := rest } c

def initial (s : Cell → V) (start : Cell) : State V :=
  ⟨s, if F.fails s start then [] else [start], [], false⟩

def Fillable (s : Cell → V) (c : Cell) : Prop := F.window.Inside c ∧ F.fails s c = false

def Region (s : Cell → V) (start c : Cell) : Prop :=
  F.Fillable s start ∧ Relation.ReflTransGen (fun a b => Adjacent a b ∧ F.Fillable s b) start c

def Stuck (s : Cell → V) (c : Cell) : Prop := ∀ n, F.stops c ((F.plots c)^[n] (s c)) = false

def NoPair (s : Cell → V) (start : Cell) : Prop :=
  ∀ c d, F.Region s start c → F.Region s start d → Above c d → ¬ (F.Stuck s c ∧ F.Stuck s d)

end Problem

namespace Problem

variable {V : Type*} {F : Problem V} {s : Cell → V} {start c d : Cell} {st : State V} {x y : Int}

theorem Region.fillable (h : F.Region s start c) : F.Fillable s c := by
  obtain ⟨hstart, hpath⟩ := h
  rcases Relation.ReflTransGen.cases_tail hpath with rfl | ⟨b, -, hlast⟩
  · exact hstart
  · exact hlast.2

theorem Region.next (h : F.Region s start c) (hadj : Adjacent c d) (hd : F.Fillable s d) :
    F.Region s start d := ⟨h.1, h.2.tail ⟨hadj, hd⟩⟩

/-! ### The work list -/

theorem push_screen (st : State V) (c : Cell) : (F.push st c).screen = st.screen := by
  rw [push]
  split
  · rfl
  · rfl

theorem push_plotted (st : State V) (c : Cell) : (F.push st c).plotted = st.plotted := by
  rw [push]
  split
  · rfl
  · rfl

theorem mem_push (h : d ∈ (F.push st c).pending) : d ∈ st.pending ∨ d = c := by
  rw [push] at h
  split at h
  · exact absurd h List.not_mem_nil
  · rcases List.mem_append.mp h with hold | hnew
    · exact .inl hold
    · exact .inr (List.mem_singleton.mp hnew)

theorem push_unwrapped (h : (F.push st c).wrapped = false) :
    st.wrapped = false ∧ (F.push st c).pending = st.pending ++ [c] := by
  rw [push] at h ⊢
  split at h
  · exact absurd h Bool.true_eq_false_eq_False
  · next hroom => exact ⟨h, by rw [if_neg hroom]⟩

theorem above_up (x y : Int) : Above (x, y) (x, y - 1) := ⟨rfl, .inr (Int.sub_add_cancel y 1).symm⟩

theorem above_down (x y : Int) : Above (x, y) (x, y + 1) := ⟨rfl, .inl rfl⟩

structure Pushed (F : Problem V) (st st' : State V) (c : Cell) : Prop where
  screen : st'.screen = st.screen
  plotted : st'.plotted = st.plotted
  mem : ∀ d ∈ st'.pending, d ∈ st.pending ∨
    Above c d ∧ F.window.Inside d ∧ F.fails st.screen d = false
  kept : st'.wrapped = false → st.wrapped = false ∧ ∀ d ∈ st.pending, d ∈ st'.pending

theorem Pushed.refl (st : State V) (c : Cell) : Pushed F st st c :=
  ⟨rfl, rfl, fun _ h => .inl h, fun h => ⟨h, fun _ hd => hd⟩⟩

theorem Pushed.trans {st₁ st₂ st₃ : State V} (h : Pushed F st₁ st₂ c) (h' : Pushed F st₂ st₃ c) :
    Pushed F st₁ st₃ c where
  screen := h'.screen.trans h.screen
  plotted := h'.plotted.trans h.plotted
  mem d hd := by
    rcases h'.mem d hd with hold | hnew
    · exact h.mem d hold
    · rw [h.screen] at hnew
      exact .inr hnew
  kept hw := by
    obtain ⟨hw₂, hkept₂⟩ := h'.kept hw
    obtain ⟨hw₁, hkept₁⟩ := h.kept hw₂
    exact ⟨hw₁, fun d hd => hkept₂ d (hkept₁ d hd)⟩

theorem pushed_push (habove : Above c d) (hin : F.window.Inside d) (hpass : F.fails st.screen d = false) :
    Pushed F st (F.push st d) c where
  screen := push_screen st d
  plotted := push_plotted st d
  mem e he := by
    rcases mem_push he with hold | rfl
    · exact .inl hold
    · exact .inr ⟨habove, hin, hpass⟩
  kept hw := by
    obtain ⟨hw', hpending⟩ := push_unwrapped hw
    refine ⟨hw', fun e he => ?_⟩
    rw [hpending]
    exact List.mem_append_left _ he

theorem pushed_up (hin : F.window.Inside (x, y)) : Pushed F st (F.pushUp y x st) (x, y) := by
  rw [pushUp]
  split
  · next h =>
    obtain ⟨hx, hx', hy, hy'⟩ := hin
    refine pushed_push (above_up x y) ⟨hx, hx', ?_, ?_⟩ h.2
    · exact Int.le_sub_one_of_lt h.1
    · exact (Int.sub_le_self y Int.one_nonneg).trans hy'
  · exact .refl st _

theorem pushed_down (hin : F.window.Inside (x, y)) : Pushed F st (F.pushDown y x st) (x, y) := by
  rw [pushDown]
  split
  · next h =>
    obtain ⟨hx, hx', hy, hy'⟩ := hin
    refine pushed_push (above_down x y) ⟨hx, hx', ?_, ?_⟩ h.2
    · exact hy.trans (Int.le_add_one le_rfl)
    · exact h.1
  · exact .refl st _

theorem pushed_touch (hin : F.window.Inside (x, y)) :
    Pushed F (F.plot st (x, y)) (F.touch y x st) (x, y) := (pushed_up hin).trans (pushed_down hin)

theorem touch_above (hin : F.window.Inside (x, y)) (hw : (F.touch y x st).wrapped = false)
    (habove : Above (x, y) d) (hd : F.window.Inside d)
    (hpass : F.fails (F.plot st (x, y)).screen d = false) : d ∈ (F.touch y x st).pending := by
  have hdown : Pushed F (F.pushUp y x (F.plot st (x, y))) (F.touch y x st) (x, y) := pushed_down hin
  have hup : Pushed F (F.plot st (x, y)) (F.pushUp y x (F.plot st (x, y))) (x, y) := pushed_up hin
  obtain ⟨hx, hy⟩ := habove
  obtain ⟨-, -, hmin, hmax⟩ := hd
  rcases d with ⟨dx, dy⟩
  simp only at hx hy hmin hmax
  subst hx
  rcases hy with rfl | hy
  · have hgo : y < F.window.yMax ∧
        F.fails (F.pushUp y x (F.plot st (x, y))).screen (x, y + 1) = false := by
      rw [hup.screen]
      exact ⟨hmax, hpass⟩
    rw [touch, pushDown, if_pos hgo] at hw ⊢
    rw [(push_unwrapped hw).2]
    exact List.mem_append_right _ (List.mem_singleton_self _)
  · obtain rfl : dy = y - 1 := by omega
    refine (hdown.kept hw).2 _ ?_
    have hw' := (hdown.kept hw).1
    have hgo : F.window.yMin < y ∧ F.fails (F.plot st (x, y)).screen (x, y - 1) = false :=
      ⟨by omega, hpass⟩
    rw [pushUp, if_pos hgo] at hw' ⊢
    rw [(push_unwrapped hw').2]
    exact List.mem_append_right _ (List.mem_singleton_self _)

/-! ### Runs of cells -/

theorem scanLeft_spec (s : Cell → V) (y : Int) (n : Nat) (x : Int) :
    F.scanLeft s y n x ≤ x ∧ x - n ≤ F.scanLeft s y n x ∧
      (∀ z, F.scanLeft s y n x ≤ z → z < x → F.fails s (z, y) = false) ∧
      (F.scanLeft s y n x = x - n ∨ F.fails s (F.scanLeft s y n x - 1, y) = true) := by
  induction n generalizing x with
  | zero => exact ⟨le_rfl, by simp [scanLeft], fun z h h' => absurd h (not_le.mpr h'), .inl (by simp [scanLeft])⟩
  | succ n ih =>
    rw [scanLeft]
    split
    · next hstop => exact ⟨le_rfl, by omega, fun z h h' => absurd h (not_le.mpr h'), .inr hstop⟩
    · next hgo =>
      obtain ⟨hle, hge, hpass, hend⟩ := ih (x - 1)
      refine ⟨by omega, by push_cast; omega, fun z h h' => ?_, ?_⟩
      · rcases lt_or_ge z (x - 1) with hlt | hge'
        · exact hpass z h hlt
        · obtain rfl : z = x - 1 := by omega
          exact Bool.eq_false_iff.mpr hgo
      · rcases hend with hend | hend
        · exact .inl (by push_cast; omega)
        · exact .inr hend

theorem scanRight_spec (s : Cell → V) (y : Int) (n : Nat) (x : Int) :
    x ≤ F.scanRight s y n x ∧ F.scanRight s y n x ≤ x + n ∧
      (∀ z, x < z → z ≤ F.scanRight s y n x → F.fails s (z, y) = false) ∧
      (F.scanRight s y n x = x + n ∨ F.fails s (F.scanRight s y n x + 1, y) = true) := by
  induction n generalizing x with
  | zero => exact ⟨le_rfl, by simp [scanRight], fun z h h' => absurd h (not_lt.mpr h'), .inl (by simp [scanRight])⟩
  | succ n ih =>
    rw [scanRight]
    split
    · next hstop => exact ⟨le_rfl, by omega, fun z h h' => absurd h (not_lt.mpr h'), .inr hstop⟩
    · next hgo =>
      obtain ⟨hge, hle, hpass, hend⟩ := ih (x + 1)
      refine ⟨by omega, by push_cast; omega, fun z h h' => ?_, ?_⟩
      · rcases lt_or_ge (x + 1) z with hlt | hle'
        · exact hpass z hlt h'
        · obtain rfl : z = x + 1 := by omega
          exact Bool.eq_false_iff.mpr hgo
      · rcases hend with hend | hend
        · exact .inl (by push_cast; omega)
        · exact .inr hend

/-- The longest run of cells around `c` that may be plotted. -/
structure Run (F : Problem V) (s : Cell → V) (c : Cell) (l r : Int) : Prop where
  left : l ≤ c.1
  right : c.1 ≤ r
  inside : F.window.xMin ≤ l ∧ r ≤ F.window.xMax
  passes : ∀ z, l ≤ z → z ≤ r → F.fails s (z, c.2) = false
  leftStop : F.window.xMin < l → F.fails s (l - 1, c.2) = true
  rightStop : r < F.window.xMax → F.fails s (r + 1, c.2) = true

theorem run_spec (hc : F.Fillable s c) : Run F s c (F.leftEnd s c) (F.rightEnd s c) := by
  obtain ⟨⟨hmin, hmax, -, -⟩, hpass⟩ := hc
  obtain ⟨hl, hl', hlpass, hlend⟩ :=
    @scanLeft_spec V F s c.2 (c.1 - F.window.xMin).toNat c.1
  obtain ⟨hr, hr', hrpass, hrend⟩ :=
    @scanRight_spec V F s c.2 (F.window.xMax - c.1).toNat c.1
  refine ⟨hl, hr, ⟨?_, ?_⟩, fun z hz hz' => ?_, fun hlt => ?_, fun hlt => ?_⟩
  · rw [leftEnd]
    omega
  · rw [rightEnd]
    omega
  · rcases lt_trichotomy z c.1 with hlt | rfl | hgt
    · exact hlpass z hz hlt
    · exact hpass
    · exact hrpass z hgt hz'
  · rw [leftEnd] at hlt ⊢
    exact hlend.resolve_left (by omega)
  · rw [rightEnd] at hlt ⊢
    exact hrend.resolve_left (by omega)

theorem sweep_induction {P : Int → State V → Prop} {r : Int} (n : Nat) {st : State V}
    (hn : x + n = r + 1) (h : P x st)
    (hstep : ∀ z st, x ≤ z → z ≤ r → P z st → P (z + 1) (F.touch y z st)) :
    P (r + 1) (F.sweep y n x st) := by
  induction n generalizing x st with
  | zero =>
    obtain rfl : x = r + 1 := by omega
    exact h
  | succ n ih =>
    push_cast at hn
    have hnext := hstep x st le_rfl (by omega) h
    exact ih (by omega) hnext fun z st hz => hstep z st (by omega)

theorem visit_induction {P : Int → State V → Prop} (hc : F.Fillable st.screen c)
    (h : P (F.leftEnd st.screen c) st)
    (hstep : ∀ z st', F.leftEnd st.screen c ≤ z → z ≤ F.rightEnd st.screen c → P z st' →
      P (z + 1) (F.touch c.2 z st')) :
    P (F.rightEnd st.screen c + 1) (F.visit st c) := by
  have hrun := run_spec hc
  have hle := hrun.left.trans hrun.right
  exact sweep_induction _ (by omega) h hstep

/-! ### What has been plotted -/

/-- The screen is the one at the start, with every cell plotted as often as the list says, and each time
it could be. -/
structure History (F : Problem V) (s : Cell → V) (st : State V) : Prop where
  value : ∀ c, st.screen c = (F.plots c)^[st.plotted.count c] (s c)
  passed : ∀ c, ∀ j < st.plotted.count c, F.stops c ((F.plots c)^[j] (s c)) = false

namespace History

theorem passing (h : History F s st) (hpass : F.fails st.screen c = false) {j : Nat}
    (hj : j ≤ st.plotted.count c) : F.stops c ((F.plots c)^[j] (s c)) = false := by
  rcases Nat.lt_or_eq_of_le hj with hlt | rfl
  · exact h.passed c j hlt
  · rw [← h.value c]
    exact hpass

theorem fillable (h : History F s st) (hin : F.window.Inside c) (hpass : F.fails st.screen c = false) :
    F.Fillable s c := ⟨hin, h.passing hpass (Nat.zero_le _)⟩

theorem stopped (h : History F s st) (hstop : F.fails st.screen c = true) :
    F.fails s c = true ∨ c ∈ st.plotted := by
  rcases Nat.eq_zero_or_pos (st.plotted.count c) with hzero | hpos
  · have hvalue := h.value c
    rw [hzero, Function.iterate_zero_apply] at hvalue
    rw [fails, hvalue] at hstop
    exact .inl hstop
  · exact .inr (List.count_pos_iff.mp hpos)

theorem stuck (h : History F s st) (hstuck : F.Stuck s c) : F.fails st.screen c = false := by
  rw [fails, h.value c]
  exact hstuck _

theorem plot (h : History F s st) (hpass : F.fails st.screen c = false) : History F s (F.plot st c) where
  value d := by
    show Function.update st.screen c (F.plots c (st.screen c)) d = _
    by_cases hd : d = c
    · subst hd
      have hcount : (st.plotted ++ [d]).count d = st.plotted.count d + 1 := by simp
      rw [Function.update_self, Problem.plot, hcount, Function.iterate_succ_apply', h.value d]
    · have hcount : (st.plotted ++ [c]).count d = st.plotted.count d := by
        simp [Ne.symm hd]
      rw [Function.update_of_ne hd, Problem.plot, hcount]
      exact h.value d
  passed d j hj := by
    by_cases hd : d = c
    · subst hd
      have hcount : (st.plotted ++ [d]).count d = st.plotted.count d + 1 := by simp
      rw [Problem.plot, hcount] at hj
      exact h.passing hpass (Nat.le_of_lt_succ hj)
    · have hcount : (st.plotted ++ [c]).count d = st.plotted.count d := by
        simp [Ne.symm hd]
      rw [Problem.plot, hcount] at hj
      exact h.passed d j hj

theorem congr {st' : State V} (h : History F s st) (hscreen : st'.screen = st.screen)
    (hplotted : st'.plotted = st.plotted) : History F s st' :=
  ⟨by rw [hscreen, hplotted]; exact h.value, by rw [hplotted]; exact h.passed⟩

end History

structure Sound (F : Problem V) (s : Cell → V) (start : Cell) (st : State V) : Prop where
  history : History F s st
  pending : ∀ c ∈ st.pending, F.Region s start c
  plotted : ∀ c ∈ st.plotted, F.Region s start c

namespace Sound

theorem touch (h : Sound F s start st) (hc : F.Region s start (x, y))
    (hpass : F.fails st.screen (x, y) = false) : Sound F s start (F.touch y x st) := by
  have hpush : Pushed F (F.plot st (x, y)) (F.touch y x st) (x, y) := pushed_touch hc.fillable.1
  have hhist := h.history.plot hpass
  refine ⟨hhist.congr hpush.screen hpush.plotted, fun d hd => ?_, fun d hd => ?_⟩
  · rcases hpush.mem d hd with hold | ⟨habove, hin, hd'⟩
    · exact h.pending d hold
    · exact hc.next (.inl habove) (hhist.fillable hin hd')
  · rw [hpush.plotted] at hd
    rcases List.mem_append.mp hd with hold | hnew
    · exact h.plotted d hold
    · rw [List.mem_singleton.mp hnew]
      exact hc

end Sound

theorem touch_other (hin : F.window.Inside (x, y)) (hd : d ≠ (x, y)) :
    F.fails (F.touch y x st).screen d = F.fails st.screen d := by
  have hother : (F.plot st (x, y)).screen d = st.screen d := Function.update_of_ne hd _ _
  rw [(pushed_touch hin).screen, fails, hother]
  rfl

theorem Sound.run (h : Sound F s start st) (hc : F.Region s start c) {l r : Int}
    (hrun : Run F st.screen c l r) {z : Int} (hl : l ≤ z) (hr : z ≤ r) : F.Region s start (z, c.2) := by
  obtain ⟨-, -, hmin, hmax⟩ := hc.fillable.1
  have hfill (z : Int) (hl : l ≤ z) (hr : z ≤ r) : F.Fillable s (z, c.2) :=
    h.history.fillable ⟨hrun.inside.1.trans hl, hr.trans hrun.inside.2, hmin, hmax⟩ (hrun.passes z hl hr)
  have hright (n : Nat) (hn : c.1 + n ≤ r) : F.Region s start (c.1 + n, c.2) := by
    induction n with
    | zero => simpa using hc
    | succ n ih =>
      have hleft := hrun.left
      push_cast at hn
      refine (ih (by omega)).next (.inr ⟨rfl, .inl ?_⟩) (hfill _ (by push_cast; omega) (by push_cast; omega))
      push_cast
      omega
  have hleft (n : Nat) (hn : l ≤ c.1 - n) : F.Region s start (c.1 - n, c.2) := by
    induction n with
    | zero => simpa using hc
    | succ n ih =>
      have hr' := hrun.right
      push_cast at hn
      refine (ih (by omega)).next (.inr ⟨rfl, .inr ?_⟩) (hfill _ (by push_cast; omega) (by push_cast; omega))
      push_cast
      omega
  rcases le_total c.1 z with hle | hle
  · have hz : c.1 + ((z - c.1).toNat : Int) = z := by omega
    have hreg := hright (z - c.1).toNat (by omega)
    rwa [hz] at hreg
  · have hz : c.1 - ((c.1 - z).toNat : Int) = z := by omega
    have hreg := hleft (c.1 - z).toNat (by omega)
    rwa [hz] at hreg

theorem visit_rule {P : Int → State V → Prop} (h : Sound F s start st) (hc : F.Region s start c)
    (hpass : F.fails st.screen c = false) (hbegin : P (F.leftEnd st.screen c) st)
    (hstep : ∀ z st', F.leftEnd st.screen c ≤ z → z ≤ F.rightEnd st.screen c → Sound F s start st' →
      F.Region s start (z, c.2) → F.fails st'.screen (z, c.2) = false → P z st' →
      P (z + 1) (F.touch c.2 z st')) :
    Sound F s start (F.visit st c) ∧ P (F.rightEnd st.screen c + 1) (F.visit st c) := by
  have hfill : F.Fillable st.screen c := ⟨hc.fillable.1, hpass⟩
  have hrun := run_spec hfill
  have hall := @visit_induction V F c st
    (fun z st' => (Sound F s start st' ∧ P z st') ∧
      ∀ z', z ≤ z' → z' ≤ F.rightEnd st.screen c → F.fails st'.screen (z', c.2) = false)
    hfill ⟨⟨h, hbegin⟩, fun z' hl hr => hrun.passes z' hl hr⟩ ?_
  · exact hall.1
  · rintro z st' hl hr ⟨⟨hsound, hP⟩, hrest⟩
    have hreg := h.run hc hrun hl hr
    have hcell := hrest z le_rfl hr
    refine ⟨⟨hsound.touch hreg hcell, hstep z st' hl hr hsound hreg hcell hP⟩, fun z' hz hz' => ?_⟩
    rw [touch_other hreg.fillable.1 fun heq => absurd (Prod.mk.inj heq).1 (by omega)]
    exact hrest z' (by omega) hz'

theorem step_cases (st : State V) :
    st.pending = [] ∧ F.step st = st ∨
      ∃ c rest, st.pending = c :: rest ∧
        (F.fails st.screen c = true ∧ F.step st = { st with pending := rest } ∨
          F.fails st.screen c = false ∧ F.step st = F.visit { st with pending := rest } c) := by
  rcases hpending : st.pending with _ | ⟨c, rest⟩
  · exact .inl ⟨rfl, by rw [step, hpending]⟩
  · refine .inr ⟨c, rest, rfl, ?_⟩
    rcases Bool.eq_false_or_eq_true (F.fails st.screen c) with hstop | hpass
    · refine .inl ⟨hstop, ?_⟩
      simp only [step, hpending]
      exact if_pos hstop
    · refine .inr ⟨hpass, ?_⟩
      simp only [step, hpending]
      exact if_neg (by rw [hpass]; exact Bool.false_ne_true)

theorem Sound.rest (h : Sound F s start st) {rest : List Cell} (hpending : st.pending = c :: rest) :
    Sound F s start { st with pending := rest } :=
  ⟨h.history.congr rfl rfl, fun d hd => h.pending d (by rw [hpending]; exact .tail c hd), h.plotted⟩

theorem Sound.head (h : Sound F s start st) {rest : List Cell} (hpending : st.pending = c :: rest) :
    F.Region s start c := h.pending c (by rw [hpending]; exact .head rest)

theorem Sound.step (h : Sound F s start st) : Sound F s start (F.step st) := by
  rcases F.step_cases st with ⟨-, heq⟩ | ⟨c, rest, hpending, ⟨-, heq⟩ | ⟨hpass, heq⟩⟩
  · rw [heq]
    exact h
  · rw [heq]
    exact h.rest hpending
  · rw [heq]
    exact (@visit_rule V F s start c _ (fun _ _ => True) (h.rest hpending) (h.head hpending) hpass
      trivial fun _ _ _ _ _ _ _ _ => trivial).1

theorem Sound.iterate (h : Sound F s start st) (n : Nat) : Sound F s start (F.step^[n] st) := by
  induction n with
  | zero => exact h
  | succ n ih =>
    rw [Function.iterate_succ_apply']
    exact ih.step

theorem sound_initial (hin : F.window.Inside start) : Sound F s start (F.initial s start) := by
  refine ⟨⟨fun _ => rfl, fun c j hj => absurd hj (Nat.not_lt_zero j)⟩, fun c hc => ?_,
    fun c hc => absurd hc List.not_mem_nil⟩
  rw [initial] at hc
  split at hc
  · exact absurd hc List.not_mem_nil
  · next hpass =>
    rw [List.mem_singleton.mp hc]
    exact ⟨⟨hin, Bool.eq_false_iff.mpr hpass⟩, .refl⟩

/-! ### Returning -/

section Termination

open Classical in
noncomputable def turns (F : Problem V) (s : Cell → V) (c : Cell) : Nat :=
  if h : ∃ n, F.stops c ((F.plots c)^[n] (s c)) = true then Nat.find h else 0

theorem History.turn_left (h : History F s st) (hpass : F.fails st.screen c = false)
    (hfree : ¬ F.Stuck s c) : st.plotted.count c < turns F s c := by
  have hex : ∃ n, F.stops c ((F.plots c)^[n] (s c)) = true := by
    by_contra hnone
    exact hfree fun n => Bool.eq_false_iff.mpr fun hstop => hnone ⟨n, hstop⟩
  rw [turns, dif_pos hex]
  by_contra hle
  have hstop := Nat.find_spec hex
  have hgo := h.passing hpass (not_lt.mp hle)
  exact absurd (hstop.symm.trans hgo) (by decide)

noncomputable def Window.cells (W : Window) : Finset Cell :=
  Finset.Icc W.xMin W.xMax ×ˢ Finset.Icc W.yMin W.yMax

theorem mem_cells {W : Window} : c ∈ Window.cells W ↔ W.Inside c := by
  rw [Window.cells, Finset.mem_product, Finset.mem_Icc, Finset.mem_Icc]
  exact and_assoc

noncomputable def potential (F : Problem V) (s : Cell → V) (plotted : List Cell) : Nat :=
  ∑ c ∈ Window.cells F.window, (turns F s c - plotted.count c)

theorem potential_le (plotted : List Cell) (c : Cell) :
    potential F s (plotted ++ [c]) ≤ potential F s plotted := by
  refine Finset.sum_le_sum fun d _ => Nat.sub_le_sub_left ?_ _
  rw [List.count_append]
  exact Nat.le_add_right _ _

theorem potential_lt {plotted : List Cell} (hin : F.window.Inside c)
    (hturn : plotted.count c < turns F s c) :
    potential F s (plotted ++ [c]) < potential F s plotted := by
  refine Finset.sum_lt_sum (fun d _ => Nat.sub_le_sub_left ?_ _) ⟨c, mem_cells.mpr hin, ?_⟩
  · rw [List.count_append]
    exact Nat.le_add_right _ _
  · have hcount : (plotted ++ [c]).count c = plotted.count c + 1 := by simp
    rw [hcount]
    omega

open Classical in
noncomputable def stuckEntries (F : Problem V) (s : Cell → V) (st : State V) : Nat :=
  st.pending.countP fun c => decide (F.Stuck s c)

theorem push_stuckEntries (hfree : ¬ F.Stuck s c) :
    stuckEntries F s (F.push st c) ≤ stuckEntries F s st := by
  rw [stuckEntries, stuckEntries, push]
  split
  · exact Nat.zero_le _
  · rw [List.countP_append, List.countP_cons_of_neg (by simpa using hfree), List.countP_nil]
    exact Nat.le_refl _

theorem touch_stuckEntries (h : Sound F s start st) (hpair : F.NoPair s start)
    (hc : F.Region s start (x, y)) (hpass : F.fails st.screen (x, y) = false)
    (hstuck : F.Stuck s (x, y)) :
    stuckEntries F s (F.touch y x st) ≤ stuckEntries F s st := by
  have hhist := h.history.plot hpass
  obtain ⟨hx, hx', hy, hy'⟩ := hc.fillable.1
  have hfree (d : Cell) (habove : Above (x, y) d) (hin : F.window.Inside d)
      (hd : F.fails (F.plot st (x, y)).screen d = false) : ¬ F.Stuck s d := fun hd' =>
    hpair _ _ hc (hc.next (.inl habove) (hhist.fillable hin hd)) habove ⟨hstuck, hd'⟩
  have hup : stuckEntries F s (F.pushUp y x (F.plot st (x, y))) ≤ stuckEntries F s st := by
    rw [pushUp]
    split
    · next hgo =>
      exact push_stuckEntries (hfree _ (above_up x y)
        ⟨hx, hx', Int.le_sub_one_of_lt hgo.1, (Int.sub_le_self y Int.one_nonneg).trans hy'⟩ hgo.2)
    · exact Nat.le_refl _
  refine Nat.le_trans ?_ hup
  have hpushed : Pushed F (F.plot st (x, y)) (F.pushUp y x (F.plot st (x, y))) (x, y) := pushed_up hc.fillable.1
  rw [touch, pushDown]
  split
  · next hgo =>
    rw [hpushed.screen] at hgo
    exact push_stuckEntries (hfree _ (above_down x y)
      ⟨hx, hx', hy.trans (Int.le_add_one le_rfl), hgo.1⟩ hgo.2)
  · exact Nat.le_refl _

theorem visit_progress (h : Sound F s start st) (hpair : F.NoPair s start) (hc : F.Region s start c)
    (hpass : F.fails st.screen c = false) :
    potential F s (F.visit st c).plotted ≤ potential F s st.plotted ∧
      (¬ F.Stuck s c → potential F s (F.visit st c).plotted < potential F s st.plotted) ∧
      (potential F s (F.visit st c).plotted < potential F s st.plotted ∨
        stuckEntries F s (F.visit st c) ≤ stuckEntries F s st) := by
  have hfill : F.Fillable st.screen c := ⟨hc.fillable.1, hpass⟩
  have hrun := run_spec hfill
  have hall := @visit_rule V F s start c st
    (fun z st' => potential F s st'.plotted ≤ potential F s st.plotted ∧
      (c.1 < z → ¬ F.Stuck s c → potential F s st'.plotted < potential F s st.plotted) ∧
      (potential F s st'.plotted < potential F s st.plotted ∨
        stuckEntries F s st' ≤ stuckEntries F s st))
    h hc hpass ⟨le_rfl, fun hlt => absurd hrun.left (not_le.mpr hlt), .inr le_rfl⟩ ?_
  · obtain ⟨-, hle, hfree, hstuck⟩ := hall
    exact ⟨hle, hfree (Int.lt_add_one_iff.mpr hrun.right), hstuck⟩
  · rintro z st' hl hr hsound hreg hcell ⟨hle, hfree, hstuck⟩
    have hplotted : (F.touch c.2 z st').plotted = st'.plotted ++ [(z, c.2)] :=
      (pushed_touch hreg.fillable.1).plotted
    rw [hplotted]
    by_cases hz : F.Stuck s (z, c.2)
    · have hnext := potential_le (F := F) (s := s) st'.plotted (z, c.2)
      refine ⟨hnext.trans hle, fun hlt hc' => hnext.trans_lt (hfree ?_ hc'), ?_⟩
      · refine lt_of_le_of_ne (Int.lt_add_one_iff.mp hlt) fun heq => hc' ?_
        rw [← heq] at hz
        exact hz
      · rcases hstuck with hlt | hentries
        · exact .inl (hnext.trans_lt hlt)
        · exact .inr ((touch_stuckEntries hsound hpair hreg hcell hz).trans hentries)
    · have hnext := potential_lt hreg.fillable.1 (hsound.history.turn_left hcell hz)
      have hlt := hnext.trans_le hle
      exact ⟨hlt.le, fun _ _ => hlt, .inl hlt⟩

noncomputable def rank (F : Problem V) (s : Cell → V) (st : State V) : Nat × Nat × Nat :=
  (potential F s st.plotted, stuckEntries F s st, st.pending.length)

def Less : Nat × Nat × Nat → Nat × Nat × Nat → Prop :=
  Prod.Lex (· < ·) (Prod.Lex (· < ·) (· < ·))

theorem less_wf : WellFounded Less :=
  WellFounded.prod_lex wellFounded_lt (WellFounded.prod_lex wellFounded_lt wellFounded_lt)

theorem less_of_le {a a' b b' l l' : Nat} (ha : a' ≤ a) (hb : a' = a → b' ≤ b)
    (hl : a' = a → b' = b → l' < l) : Less (a', b', l') (a, b, l) := by
  rcases Nat.lt_or_eq_of_le ha with hlt | rfl
  · exact .left _ _ hlt
  · refine .right _ ?_
    rcases Nat.lt_or_eq_of_le (hb rfl) with hlt | rfl
    · exact .left _ _ hlt
    · exact .right _ (hl rfl rfl)

theorem step_less (h : Sound F s start st) (hpair : F.NoPair s start) (hne : st.pending ≠ []) :
    Less (rank F s (F.step st)) (rank F s st) := by
  rcases F.step_cases st with ⟨hnil, -⟩ | ⟨c, rest, hpending, hcase⟩
  · exact absurd hnil hne
  · have hentries : stuckEntries F s { st with pending := rest } ≤ stuckEntries F s st := by
      rw [stuckEntries, stuckEntries, hpending]
      exact (List.sublist_cons_self c rest).countP_le
    rcases hcase with ⟨-, heq⟩ | ⟨hpass, heq⟩
    · rw [heq]
      refine less_of_le le_rfl (fun _ => hentries) fun _ _ => ?_
      rw [hpending]
      exact Nat.lt_succ_self _
    · obtain ⟨hle, hfree, hstuck⟩ := visit_progress (h.rest hpending) hpair (h.head hpending) hpass
      rw [heq]
      by_cases hc : F.Stuck s c
      · -- the entry itself was stuck
        have hone : stuckEntries F s { st with pending := rest } < stuckEntries F s st := by
          rw [stuckEntries, stuckEntries, hpending, List.countP_cons_of_pos (by simpa using hc)]
          exact Nat.lt_succ_self _
        rcases hstuck with hlt | hkeep
        · exact .left _ _ hlt
        · refine less_of_le hle (fun _ => (hkeep.trans_lt hone).le) fun _ hsame => ?_
          exact absurd hsame (hkeep.trans_lt hone).ne
      · exact .left _ _ (hfree hc)

theorem returns_of_noPair (h : Sound F s start st) (hpair : F.NoPair s start) :
    ∃ n, (F.step^[n] st).pending = [] := by
  obtain ⟨m, hm⟩ : ∃ m, m = rank F s st := ⟨_, rfl⟩
  induction m using less_wf.induction generalizing st with
  | h m ih =>
    by_cases hnil : st.pending = []
    · exact ⟨0, hnil⟩
    · have hless := step_less h hpair hnil
      rw [← hm] at hless
      obtain ⟨n, hn⟩ := ih _ hless h.step rfl
      refine ⟨n + 1, ?_⟩
      rw [Function.iterate_succ_apply]
      exact hn

end Termination

/-! ### Filling all of the region -/

section Completeness

/-- The cell need not be looked at again, or will be; `rem` are the cells of a run that are still to
come. -/
def Settled (F : Problem V) (s : Cell → V) (st : State V) (rem : Cell → Prop) (c : Cell) : Prop :=
  F.fails s c = true ∨ c ∈ st.plotted ∨ c ∈ st.pending ∨ rem c

structure Closed (F : Problem V) (s : Cell → V) (start : Cell) (st : State V) (rem : Cell → Prop) :
    Prop where
  begun : Settled F s st rem start
  next : ∀ c ∈ st.plotted, ∀ d, Adjacent c d → F.window.Inside d → Settled F s st rem d

/-- The cells of a run from column `x` on. -/
def Rest (y r x : Int) (c : Cell) : Prop := c.2 = y ∧ x ≤ c.1 ∧ c.1 ≤ r

theorem Settled.mono {st' : State V} {rem rem' : Cell → Prop} (h : Settled F s st rem c)
    (hplotted : ∀ d ∈ st.plotted, d ∈ st'.plotted)
    (hpending : ∀ d ∈ st.pending, Settled F s st' rem' d) (hrem : ∀ d, rem d → Settled F s st' rem' d) :
    Settled F s st' rem' c := by
  rcases h with h | h | h | h
  · exact .inl h
  · exact .inr (.inl (hplotted c h))
  · exact hpending c h
  · exact hrem c h

/-- While a run is plotted: the region is closed up to it, and what lies at its ends is done with. -/
structure Sweeping (F : Problem V) (s : Cell → V) (start : Cell) (y r x : Int) (st : State V) : Prop where
  closed : Closed F s start st (Rest y r x)
  left : F.window.xMin < x → F.fails s (x - 1, y) = true ∨ (x - 1, y) ∈ st.plotted
  right : r < F.window.xMax → F.fails s (r + 1, y) = true ∨ (r + 1, y) ∈ st.plotted

theorem Sweeping.touch {r : Int} (h : Sweeping F s start y r x st) (hxr : x ≤ r) (hsound : Sound F s start st)
    (hc : F.Region s start (x, y)) (hpass : F.fails st.screen (x, y) = false)
    (hw : (F.touch y x st).wrapped = false) : Sweeping F s start y r (x + 1) (F.touch y x st) := by
  have hin := hc.fillable.1
  have hpush : Pushed F (F.plot st (x, y)) (F.touch y x st) (x, y) := pushed_touch hin
  have hplotted : (F.touch y x st).plotted = st.plotted ++ [(x, y)] := hpush.plotted
  have hkept : ∀ d ∈ st.pending, d ∈ (F.touch y x st).pending := (hpush.kept hw).2
  have hhist := hsound.history.plot hpass
  have hself : (x, y) ∈ (F.touch y x st).plotted := by
    rw [hplotted]
    exact List.mem_append_right _ (List.mem_singleton_self _)
  have hold (d : Cell) (hd : d ∈ st.plotted) : d ∈ (F.touch y x st).plotted := by
    rw [hplotted]
    exact List.mem_append_left _ hd
  have hmono (d : Cell) (hd : Settled F s st (Rest y r x) d) :
      Settled F s (F.touch y x st) (Rest y r (x + 1)) d := by
    refine hd.mono hold (fun e he => .inr (.inr (.inl (hkept e he)))) fun e ⟨hy, hl, hr⟩ => ?_
    rcases Int.lt_or_eq_of_le hl with hlt | heq
    · exact .inr (.inr (.inr ⟨hy, hlt, hr⟩))
    · have he : e = (x, y) := Prod.ext heq.symm hy
      rw [he]
      exact .inr (.inl hself)
  refine ⟨⟨hmono _ h.closed.begun, fun c hc' d hadj hd => ?_⟩, fun _ => ?_, fun hlt => ?_⟩
  · rw [hplotted] at hc'
    rcases List.mem_append.mp hc' with hc' | hc'
    · exact hmono d (h.closed.next c hc' d hadj hd)
    · rw [List.mem_singleton.mp hc'] at hadj
      rcases hadj with habove | ⟨hy, hx | hx⟩
      · rcases Bool.eq_false_or_eq_true (F.fails (F.plot st (x, y)).screen d) with hstop | hgo
        · rcases hhist.stopped hstop with hfail | hmem
          · exact .inl hfail
          · refine .inr (.inl ?_)
            rw [hpush.plotted]
            exact hmem
        · exact .inr (.inr (.inl (touch_above hin hw habove hd hgo)))
      · obtain ⟨-, hmax, -, -⟩ := hd
        have hd' : d = (x + 1, y) := Prod.ext hx hy.symm
        rcases lt_or_ge r (x + 1) with hend | hmore
        · obtain rfl : x = r := by omega
          rw [hd']
          rcases h.right (by omega) with hfail | hmem
          · exact .inl hfail
          · exact .inr (.inl (hold _ hmem))
        · exact .inr (.inr (.inr ⟨hy.symm, by omega, by omega⟩))
      · obtain ⟨hmin, -, -, -⟩ := hd
        have hd' : d = (x - 1, y) := Prod.ext (by simp only at hx ⊢; omega) hy.symm
        rw [hd']
        rcases h.left (by simp only at hx; omega) with hfail | hmem
        · exact .inl hfail
        · exact .inr (.inl (hold _ hmem))
  · rw [Int.add_sub_cancel]
    exact .inr hself
  · rcases h.right hlt with hfail | hmem
    · exact .inl hfail
    · exact .inr (hold _ hmem)

theorem visit_kept {Q : Int → State V → Prop} (h : Sound F s start st) (hc : F.Region s start c)
    (hpass : F.fails st.screen c = false) (hbegin : st.wrapped = false → Q (F.leftEnd st.screen c) st)
    (hstep : ∀ z st', z ≤ F.rightEnd st.screen c → Sound F s start st' → F.Region s start (z, c.2) →
      F.fails st'.screen (z, c.2) = false → (F.touch c.2 z st').wrapped = false → Q z st' →
      Q (z + 1) (F.touch c.2 z st'))
    (hw : (F.visit st c).wrapped = false) :
    st.wrapped = false ∧ Q (F.rightEnd st.screen c + 1) (F.visit st c) := by
  have hall := @visit_rule V F s start c st
    (fun z st' => st'.wrapped = false → st.wrapped = false ∧ Q z st') h hc hpass
    (fun hw' => ⟨hw', hbegin hw'⟩) ?_
  · exact hall.2 hw
  · intro z st' _ hr hsound hreg hcell ih hw'
    have hpush : Pushed F (F.plot st' (z, c.2)) (F.touch c.2 z st') (z, c.2) :=
      pushed_touch hreg.fillable.1
    obtain ⟨hst, hQ⟩ := ih (hpush.kept hw').1
    exact ⟨hst, hstep z st' hr hsound hreg hcell hw' hQ⟩

theorem Closed.step (hclosed : st.wrapped = false → Closed F s start st fun _ => False)
    (h : Sound F s start st) (hw : (F.step st).wrapped = false) :
    Closed F s start (F.step st) fun _ => False := by
  rcases F.step_cases st with ⟨-, heq⟩ | ⟨c, rest, hpending, ⟨hstop, heq⟩ | ⟨hpass, heq⟩⟩
  · rw [heq] at hw ⊢
    exact hclosed hw
  · rw [heq] at hw ⊢
    have hold := hclosed hw
    have hmono (d : Cell) (hd : Settled F s st (fun _ => False) d) :
        Settled F s { st with pending := rest } (fun _ => False) d := by
      refine hd.mono (fun _ he => he) (fun e he => ?_) fun _ hfalse => hfalse.elim
      rw [hpending] at he
      rcases List.mem_cons.mp he with rfl | hrest
      · rcases h.history.stopped hstop with hfail | hmem
        · exact .inl hfail
        · exact .inr (.inl hmem)
      · exact .inr (.inr (.inl hrest))
    exact ⟨hmono _ hold.begun, fun d hd e hadj he => hmono _ (hold.next d hd e hadj he)⟩
  · rw [heq] at hw ⊢
    have hfill : F.Fillable st.screen c := ⟨(h.head hpending).fillable.1, hpass⟩
    have hrun := run_spec hfill
    have hend := visit_kept (Q := Sweeping F s start c.2 (F.rightEnd st.screen c)) (h.rest hpending)
      (h.head hpending) hpass (fun hw' => ?_)
      (fun z st' hr hsound hreg hcell hw' hQ => hQ.touch hr hsound hreg hcell hw') hw
    · have hrem (d : Cell) : ¬ Rest c.2 (F.rightEnd st.screen c) (F.rightEnd st.screen c + 1) d :=
        fun ⟨_, hl, hr⟩ => absurd (hl.trans hr) (not_le.mpr (Int.lt_succ _))
      have hmono (d : Cell) (hd : Settled F s (F.visit { st with pending := rest } c)
          (Rest c.2 (F.rightEnd st.screen c) (F.rightEnd st.screen c + 1)) d) :
          Settled F s (F.visit { st with pending := rest } c) (fun _ => False) d :=
        hd.mono (fun _ he => he) (fun e he => .inr (.inr (.inl he))) fun e he => absurd he (hrem e)
      exact ⟨hmono _ hend.2.closed.begun,
        fun d hd e hadj he => hmono _ (hend.2.closed.next d hd e hadj he)⟩
    · have hold := hclosed hw'
      have hmono (d : Cell) (hd : Settled F s st (fun _ => False) d) :
          Settled F s { st with pending := rest }
            (Rest c.2 (F.rightEnd st.screen c) (F.leftEnd st.screen c)) d := by
        refine hd.mono (fun _ he => he) (fun e he => ?_) fun _ hfalse => hfalse.elim
        rw [hpending] at he
        rcases List.mem_cons.mp he with rfl | hrest
        · exact .inr (.inr (.inr ⟨rfl, hrun.left, hrun.right⟩))
        · exact .inr (.inr (.inl hrest))
      refine ⟨⟨hmono _ hold.begun, fun d hd e hadj he => hmono _ (hold.next d hd e hadj he)⟩,
        fun hlt => h.history.stopped (hrun.leftStop hlt), fun hlt => h.history.stopped (hrun.rightStop hlt)⟩

theorem iterate_kept {P : State V → Prop}
    (hstep : ∀ st, Sound F s start st → (st.wrapped = false → P st) →
      (F.step st).wrapped = false → P (F.step st))
    (h : Sound F s start st) (hP : st.wrapped = false → P st) (n : Nat)
    (hw : (F.step^[n] st).wrapped = false) : P (F.step^[n] st) := by
  induction n generalizing st with
  | zero => exact hP hw
  | succ n ih =>
    rw [Function.iterate_succ_apply] at hw ⊢
    exact ih h.step (hstep st h hP) hw

theorem closed_initial :
    Closed F s start (F.initial s start) fun _ => False := by
  refine ⟨?_, fun c hc => absurd hc List.not_mem_nil⟩
  rcases Bool.eq_false_or_eq_true (F.fails s start) with hstop | hpass
  · exact .inl hstop
  · refine .inr (.inr (.inl ?_))
    rw [initial, if_neg (by rw [hpass]; exact Bool.false_ne_true)]
    exact List.mem_singleton_self _

theorem plotted_iff (hin : F.window.Inside start) {n : Nat}
    (hend : (F.step^[n] (F.initial s start)).pending = [])
    (hw : (F.step^[n] (F.initial s start)).wrapped = false) (c : Cell) :
    c ∈ (F.step^[n] (F.initial s start)).plotted ↔ F.Region s start c := by
  have hsound := (sound_initial (F := F) (s := s) hin).iterate n
  have hclosed := iterate_kept (P := fun st => Closed F s start st fun _ => False)
    (fun st h hP => Closed.step hP h) (sound_initial hin) (fun _ => closed_initial) n hw
  have hdone (d : Cell) (hd : F.Fillable s d)
      (hsettled : Settled F s (F.step^[n] (F.initial s start)) (fun _ => False) d) :
      d ∈ (F.step^[n] (F.initial s start)).plotted := by
    rcases hsettled with hfail | hmem | hmem | hfalse
    · exact absurd (hd.2.symm.trans hfail) (by decide)
    · exact hmem
    · rw [hend] at hmem
      exact absurd hmem List.not_mem_nil
    · exact hfalse.elim
  refine ⟨hsound.plotted c, fun ⟨hstart, hpath⟩ => ?_⟩
  induction hpath with
  | refl => exact hdone _ hstart hclosed.begun
  | tail hfirst hlast ih =>
    exact hdone _ hlast.2 (hclosed.next _ (ih ⟨hstart, hfirst⟩) _ hlast.1 hlast.2.1)

end Completeness

section Once

def Settles (F : Problem V) (s : Cell → V) (start : Cell) : Prop :=
  ∀ c, F.Region s start c → F.stops c (F.plots c (s c)) = true

theorem Sound.count_le (h : Sound F s start st) (hset : Settles F s start) (c : Cell) :
    st.plotted.count c ≤ 1 := by
  by_contra hmany
  have hmem : c ∈ st.plotted := List.count_pos_iff.mp (by omega)
  have hgo := h.history.passed c 1 (by omega)
  have hstop := hset c (h.plotted c hmem)
  rw [Function.iterate_one] at hgo
  exact absurd (hstop.symm.trans hgo) (by decide)

theorem Sound.nodup (h : Sound F s start st) (hset : Settles F s start) : st.plotted.Nodup :=
  List.nodup_iff_count_le_one.mpr (h.count_le hset)

theorem Sound.screen (h : Sound F s start st) (hset : Settles F s start) (c : Cell) :
    (c ∈ st.plotted → st.screen c = F.plots c (s c)) ∧ (c ∉ st.plotted → st.screen c = s c) := by
  have hvalue := h.history.value c
  constructor
  · intro hmem
    have hle := h.count_le hset c
    have hpos := List.count_pos_iff.mpr hmem
    have hone : st.plotted.count c = 1 := by omega
    rw [hvalue, hone, Function.iterate_one]
  · intro hnot
    rw [hvalue, List.count_eq_zero.mpr hnot, Function.iterate_zero_apply]

theorem noPair_of_settles (hset : Settles F s start) : F.NoPair s start := by
  intro p q hp _ _ ⟨hp', _⟩
  have hgo := hp' 1
  rw [Function.iterate_one] at hgo
  exact absurd ((hset p hp).symm.trans hgo) (by decide)

end Once

/-! ### Small regions -/

section Small

def Small (F : Problem V) (s : Cell → V) (start : Cell) : Prop :=
  ∀ l : List Cell, l.Nodup → (∀ c ∈ l, F.Region s start c) → 2 * l.length + 1 < F.capacity

structure Roomy (st : State V) : Prop where
  kept : st.wrapped = false
  short : st.pending.length ≤ 2 * st.plotted.length + 1

theorem push_room (hroom : st.pending.length + 1 < F.capacity) :
    (F.push st c).wrapped = st.wrapped ∧ (F.push st c).pending.length = st.pending.length + 1 := by
  rw [push, if_neg hroom.ne]
  exact ⟨rfl, List.length_append⟩

theorem pushUp_room (hroom : st.pending.length + 1 < F.capacity) :
    (F.pushUp y x st).wrapped = st.wrapped ∧ (F.pushUp y x st).pending.length ≤ st.pending.length + 1 := by
  rw [pushUp]
  split
  · obtain ⟨hwrapped, hlength⟩ := push_room (c := (x, y - 1)) hroom
    exact ⟨hwrapped, hlength.le⟩
  · exact ⟨rfl, Nat.le_succ _⟩

theorem pushDown_room (hroom : st.pending.length + 1 < F.capacity) :
    (F.pushDown y x st).wrapped = st.wrapped ∧
      (F.pushDown y x st).pending.length ≤ st.pending.length + 1 := by
  rw [pushDown]
  split
  · obtain ⟨hwrapped, hlength⟩ := push_room (c := (x, y + 1)) hroom
    exact ⟨hwrapped, hlength.le⟩
  · exact ⟨rfl, Nat.le_succ _⟩

theorem Roomy.touch (h : Roomy st) (hin : F.window.Inside (x, y))
    (hroom : 2 * (st.plotted.length + 1) + 1 < F.capacity) : Roomy (F.touch y x st) := by
  have hshort := h.short
  have hplot : (F.plot st (x, y)).pending.length = st.pending.length := rfl
  have hplotted : (F.touch y x st).plotted.length = st.plotted.length + 1 := by
    rw [(pushed_touch hin).plotted]
    exact List.length_append
  obtain ⟨hup, hup'⟩ := @pushUp_room V F (F.plot st (x, y)) x y (by omega)
  obtain ⟨hdown, hdown'⟩ :=
    @pushDown_room V F (F.pushUp y x (F.plot st (x, y))) x y (by omega)
  constructor
  · exact (hdown.trans hup).trans h.kept
  · rw [hplotted, Problem.touch]
    omega

theorem Roomy.step (h : Roomy st) (hsound : Sound F s start st) (hset : Settles F s start)
    (hsmall : Small F s start) : Roomy (F.step st) := by
  have hshort := h.short
  rcases F.step_cases st with ⟨-, heq⟩ | ⟨c, rest, hpending, hcase⟩
  · rw [heq]
    exact h
  · have hpopped : Roomy { st with pending := rest } := by
      rw [hpending, List.length_cons] at hshort
      exact ⟨h.kept, (Nat.le_succ _).trans hshort⟩
    rcases hcase with ⟨-, heq⟩ | ⟨hpass, heq⟩
    · rw [heq]
      exact hpopped
    · rw [heq]
      refine (@visit_rule V F s start c _ (fun _ st' => Roomy st') (hsound.rest hpending)
        (hsound.head hpending) hpass hpopped ?_).2
      intro z st' _ _ hsound' hreg hcell hroomy
      have hnext := hsound'.touch hreg hcell
      have hbound := hsmall _ (hnext.nodup hset) hnext.plotted
      rw [(pushed_touch hreg.fillable.1).plotted, Problem.plot, List.length_append] at hbound
      exact hroomy.touch hreg.fillable.1 hbound

theorem unwrapped_of_small (hin : F.window.Inside start) (hset : Settles F s start)
    (hsmall : Small F s start) (n : Nat) : (F.step^[n] (F.initial s start)).wrapped = false := by
  have hall : Roomy (F.step^[n] (F.initial s start)) := by
    induction n with
    | zero =>
      refine ⟨rfl, ?_⟩
      show (if F.fails s start then [] else [start]).length ≤ _
      split
      · exact Nat.zero_le _
      · exact Nat.le_refl _
    | succ n ih =>
      rw [Function.iterate_succ_apply']
      exact ih.step ((sound_initial hin).iterate n) hset hsmall
  exact hall.kept

end Small

/-! ### Stuck pairs -/

section Pair

variable {p q : Cell}

def Chased (st : State V) (p q : Cell) (rem : Cell → Prop) : Prop :=
  p ∈ st.plotted ∨ q ∈ st.plotted → p ∈ st.pending ∨ q ∈ st.pending ∨ rem p ∨ rem q

theorem above_symm (h : Above c d) : Above d c := ⟨h.1.symm, h.2.symm⟩

theorem Chased.touch {r : Int} (h : Chased st p q (Rest y r x)) (hpq : Above p q)
    (hp : F.Region s start p) (hq : F.Region s start q) (hp' : F.Stuck s p) (hq' : F.Stuck s q)
    (hsound : Sound F s start st) (hc : F.Region s start (x, y)) (hpass : F.fails st.screen (x, y) = false)
    (hw : (F.touch y x st).wrapped = false) : Chased (F.touch y x st) p q (Rest y r (x + 1)) := by
  have hin := hc.fillable.1
  have hpush : Pushed F (F.plot st (x, y)) (F.touch y x st) (x, y) := pushed_touch hin
  have hkept : ∀ d ∈ st.pending, d ∈ (F.touch y x st).pending := (hpush.kept hw).2
  have hhist := hsound.history.plot hpass
  intro hplotted
  by_cases hcp : (x, y) = p
  · have hqnext : Above (x, y) q := by rw [hcp]; exact hpq
    exact .inr (.inl (touch_above hin hw hqnext hq.fillable.1 (hhist.stuck hq')))
  by_cases hcq : (x, y) = q
  · have hpnext : Above (x, y) p := by rw [hcq]; exact above_symm hpq
    exact .inl (touch_above hin hw hpnext hp.fillable.1 (hhist.stuck hp'))
  have hrest (d : Cell) (hne : (x, y) ≠ d) (hd : Rest y r x d) : Rest y r (x + 1) d := by
    obtain ⟨hy, hl, hr⟩ := hd
    refine ⟨hy, ?_, hr⟩
    rcases Int.lt_or_eq_of_le hl with hlt | heq
    · exact hlt
    · exact absurd (Prod.ext heq hy.symm) hne
  have hbefore : p ∈ st.plotted ∨ q ∈ st.plotted := by
    rw [hpush.plotted] at hplotted
    have hold (d : Cell) (hne : (x, y) ≠ d) (hd : d ∈ (F.plot st (x, y)).plotted) : d ∈ st.plotted := by
      rcases List.mem_append.mp hd with hmem | hself
      · exact hmem
      · exact absurd (List.mem_singleton.mp hself).symm hne
    rcases hplotted with hmem | hmem
    · exact .inl (hold p hcp hmem)
    · exact .inr (hold q hcq hmem)
  rcases h hbefore with hmem | hmem | hmem | hmem
  · exact .inl (hkept p hmem)
  · exact .inr (.inl (hkept q hmem))
  · exact .inr (.inr (.inl (hrest p hcp hmem)))
  · exact .inr (.inr (.inr (hrest q hcq hmem)))

theorem Chased.step (h : st.wrapped = false → Chased st p q fun _ => False) (hpq : Above p q)
    (hp : F.Region s start p) (hq : F.Region s start q) (hp' : F.Stuck s p) (hq' : F.Stuck s q)
    (hsound : Sound F s start st) (hw : (F.step st).wrapped = false) :
    Chased (F.step st) p q fun _ => False := by
  rcases F.step_cases st with ⟨-, heq⟩ | ⟨c, rest, hpending, ⟨hstop, heq⟩ | ⟨hpass, heq⟩⟩
  · rw [heq] at hw ⊢
    exact h hw
  · rw [heq] at hw ⊢
    have hrest (d : Cell) (hstuck : F.Stuck s d) (hd : d ∈ st.pending) : d ∈ rest := by
      rw [hpending] at hd
      rcases List.mem_cons.mp hd with rfl | hmem
      · exact absurd (hstop.symm.trans (hsound.history.stuck hstuck)) (by decide)
      · exact hmem
    intro hplotted
    rcases h hw hplotted with hmem | hmem | hfalse | hfalse
    · exact .inl (hrest p hp' hmem)
    · exact .inr (.inl (hrest q hq' hmem))
    · exact hfalse.elim
    · exact hfalse.elim
  · rw [heq] at hw ⊢
    have hrun := run_spec (F := F) (s := st.screen) (c := c) ⟨(hsound.head hpending).fillable.1, hpass⟩
    have hend := visit_kept
      (Q := fun z st' => Chased st' p q (Rest c.2 (F.rightEnd st.screen c) z)) (hsound.rest hpending)
      (hsound.head hpending) hpass (fun hw' hplotted => ?_)
      (fun z st' _ hsound' hreg hcell hw' hQ => hQ.touch hpq hp hq hp' hq' hsound' hreg hcell hw') hw
    · intro hplotted
      have hrem (d : Cell) : ¬ Rest c.2 (F.rightEnd st.screen c) (F.rightEnd st.screen c + 1) d :=
        fun ⟨_, hl, hr⟩ => absurd (hl.trans hr) (not_le.mpr (Int.lt_succ _))
      rcases hend.2 hplotted with hmem | hmem | hmem | hmem
      · exact .inl hmem
      · exact .inr (.inl hmem)
      · exact absurd hmem (hrem p)
      · exact absurd hmem (hrem q)
    · have hcome (d : Cell) (hd : d ∈ st.pending) :
          d ∈ rest ∨ Rest c.2 (F.rightEnd st.screen c) (F.leftEnd st.screen c) d := by
        rw [hpending] at hd
        rcases List.mem_cons.mp hd with rfl | hmem
        · exact .inr ⟨rfl, hrun.left, hrun.right⟩
        · exact .inl hmem
      rcases h hw' hplotted with hmem | hmem | hfalse | hfalse
      · rcases hcome p hmem with hmem | hmem
        · exact .inl hmem
        · exact .inr (.inr (.inl hmem))
      · rcases hcome q hmem with hmem | hmem
        · exact .inr (.inl hmem)
        · exact .inr (.inr (.inr hmem))
      · exact hfalse.elim
      · exact hfalse.elim

theorem noPair_of_returns (hin : F.window.Inside start) {n : Nat}
    (hend : (F.step^[n] (F.initial s start)).pending = [])
    (hw : (F.step^[n] (F.initial s start)).wrapped = false) : F.NoPair s start := by
  intro p q hp hq hpq ⟨hp', hq'⟩
  have hchased := iterate_kept (P := fun st => Chased st p q fun _ => False)
    (fun st h hP => Chased.step hP hpq hp hq hp' hq' h) (sound_initial hin)
    (fun _ hplotted => hplotted.elim (absurd · List.not_mem_nil) (absurd · List.not_mem_nil)) n hw
  have hplotted := (plotted_iff hin hend hw p).mpr hp
  rw [Chased, hend] at hchased
  rcases hchased (.inl hplotted) with hmem | hmem | hfalse | hfalse
  · exact absurd hmem List.not_mem_nil
  · exact absurd hmem List.not_mem_nil
  · exact hfalse
  · exact hfalse

end Pair

end Problem

end FloodFill
