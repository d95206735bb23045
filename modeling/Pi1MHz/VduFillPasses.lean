import Mathlib.Data.Nat.Bitwise
import Pi1MHz.VduFill

/-!
# What an area fill leaves

When `prim_fill_area` returns, and what is on the screen then.  The first pass of a fill in a mode with
spare bits marks the region; the second gives every marked pixel its colour.
-/

namespace Pi1MHz.VduFill

open FloodFill (Cell Window Problem State)

/-! ### Marker bits -/

section Bits

variable {m k v : UInt32}

def Depth.mask : Depth → UInt32
  | .bpp8 => 0xFF
  | .bpp16 => 0xFFFF
  | .bpp32 => 0xFFFFFFFF

theorem Depth.trunc_eq (d : Depth) (v : UInt32) : d.trunc v = v &&& d.mask := by
  cases d with
  | bpp8 => rfl
  | bpp16 => rfl
  | bpp32 =>
    apply UInt32.toBitVec_inj.mp
    exact (BitVec.and_allOnes).symm

theorem bits_ext {a b : UInt32} (h : ∀ i, a.toBitVec.getLsbD i = b.toBitVec.getLsbD i) : a = b :=
  UInt32.toBitVec_inj.mp (BitVec.eq_of_getLsbD_eq fun i _ => h i)

theorem bit_of_sub (h : m &&& k = m) (i : Nat) (hm : m.toBitVec.getLsbD i = true) :
    k.toBitVec.getLsbD i = true := by
  have hbit := congrArg (fun v : UInt32 => v.toBitVec.getLsbD i) h
  simp only [UInt32.toBitVec_and, BitVec.getLsbD_and, hm, Bool.true_and] at hbit
  exact hbit

theorem marked_bits (h : m &&& k = m) (v : UInt32) :
    ((m ^^^ (v &&& ~~~ m)) &&& k) &&& m = m ∧
      ((m ^^^ (v &&& ~~~ m)) &&& k) &&& ~~~ m = (v &&& k) &&& ~~~ m := by
  constructor
  · refine bits_ext fun i => ?_
    have hsub := bit_of_sub h i
    simp only [UInt32.toBitVec_and, UInt32.toBitVec_xor, UInt32.toBitVec_not, BitVec.getLsbD_and,
      BitVec.getLsbD_xor, BitVec.getLsbD_not]
    rcases Bool.eq_false_or_eq_true (m.toBitVec.getLsbD i) with hm | hm
    · rw [hm, hsub hm]
      simp
    · rw [hm]
      simp
  · refine bits_ext fun i => ?_
    simp only [UInt32.toBitVec_and, UInt32.toBitVec_xor, UInt32.toBitVec_not, BitVec.getLsbD_and,
      BitVec.getLsbD_xor, BitVec.getLsbD_not]
    rcases Bool.eq_false_or_eq_true (m.toBitVec.getLsbD i) with hm | hm
    · rw [hm]
      simp
    · rw [hm]
      simp only [Bool.false_xor, Bool.not_false, Bool.and_true]
      rcases Bool.eq_false_or_eq_true (decide (i < 32)) with hi | hi
      · rw [hi]
        simp
      · rw [hi]
        have hout : v.toBitVec.getLsbD i = false :=
          BitVec.getLsbD_of_ge _ _ (not_lt.mp (of_decide_eq_false hi))
        rw [hout]
        simp

theorem and_sub (h : m &&& k = m) (v : UInt32) : (v &&& k) &&& m = v &&& m := by
  rw [UInt32.and_assoc, UInt32.and_comm k m, h]

end Bits

section Marker

variable {M : Mode}

theorem marker_sub (hlow : M.ncolour < 128) : M.marker &&& M.depth.mask = M.marker ∧ M.marker ≠ 0 := by
  have hlt := UInt32.lt_iff_toNat_lt.mp hlow
  have hnat : M.marker.toNat = M.ncolour.toNat + 1 := by
    rw [Mode.marker, UInt32.toNat_add]
    exact Nat.mod_eq_of_lt (Nat.lt_of_le_of_lt hlt (by decide))
  have h128 : (128 : UInt32).toNat = 128 := rfl
  rw [h128] at hlt
  have hsub (k : Nat) (hk : 8 ≤ k) : M.marker.toNat &&& (2 ^ k - 1) = M.marker.toNat := by
    have hpow : 2 ^ 8 ≤ 2 ^ k := Nat.pow_le_pow_right (by decide) hk
    rw [Nat.and_two_pow_sub_one_eq_mod]
    exact Nat.mod_eq_of_lt (by omega)
  constructor
  · apply UInt32.toNat_inj.mp
    rw [UInt32.toNat_and]
    rcases M.depth with _ | _ | _
    · exact hsub 8 (by decide)
    · exact hsub 16 (by decide)
    · exact hsub 32 (by decide)
  · intro hzero
    rw [hzero] at hnat
    exact absurd hnat.symm (Nat.succ_ne_zero _)

end Marker

/-! ### The two passes -/

def firstPass (G : Gfx) (mode : FillMode) : Problem UInt32 :=
  problem (marking G mode) (markCol mode) (fillTest G mode)

def secondPass (G : Gfx) (colour : Plotcol) : Problem UInt32 := problem G colour testPixelMarker

def onlyPass (G : Gfx) (colour : Plotcol) (mode : FillMode) : Problem UInt32 :=
  problem G colour (fillTest G mode)

open Classical in
noncomputable def marked (G : Gfx) (mode : FillMode) (s : Screen) (start : Cell) : Screen := fun c =>
  if (firstPass G mode).Region s start c then (firstPass G mode).plots c (s c) else s c

section Passes

variable {G : Gfx} {mode : FillMode} {colour : Plotcol} {s s' : Screen} {c start : Cell} {v : UInt32}

theorem firstPass_plots (c : Cell) (v : UInt32) : (firstPass G mode).plots c v =
    G.mode.depth.trunc (G.mode.marker ^^^ (G.mode.depth.trunc v &&& ~~~ G.mode.marker)) := by
  rcases mode with _ | _
  · rfl
  · rfl

theorem secondPass_fails (c : Cell) : (secondPass G colour).fails s c = false ↔
    s c &&& G.mode.depth.mask &&& G.mode.marker ≠ 0 := by
  show (G.mode.depth.trunc (s c) &&& G.mode.marker == 0) = false ↔ _
  rw [beq_eq_false_iff_ne, Depth.trunc_eq]

theorem plotColour_congr {px px' : UInt32} (h : px &&& ~~~ G.mode.marker = px' &&& ~~~ G.mode.marker)
    (x y : Int) : G.plotColour colour x y px = G.plotColour colour x y px' := by
  simp only [Gfx.plotColour, h]

variable (hlow : G.mode.ncolour < 128)

include hlow

theorem firstPass_bits (c : Cell) (v : UInt32) :
    (firstPass G mode).plots c v &&& G.mode.depth.mask &&& G.mode.marker = G.mode.marker ∧
      (firstPass G mode).plots c v &&& G.mode.depth.mask &&& ~~~ G.mode.marker =
        v &&& G.mode.depth.mask &&& ~~~ G.mode.marker := by
  obtain ⟨hsub, -⟩ := marker_sub hlow
  rw [firstPass_plots, Depth.trunc_eq, Depth.trunc_eq, UInt32.and_assoc _ G.mode.depth.mask G.mode.depth.mask,
    UInt32.and_self]
  obtain ⟨hmark, hrest⟩ := marked_bits hsub (v &&& G.mode.depth.mask)
  refine ⟨hmark, hrest.trans ?_⟩
  rw [UInt32.and_assoc v, UInt32.and_self]

theorem firstPass_again (c : Cell) (v : UInt32) :
    (firstPass G mode).plots c ((firstPass G mode).plots c v) = (firstPass G mode).plots c v := by
  have hrest := (@firstPass_bits G mode hlow c v).2
  rw [firstPass_plots c ((firstPass G mode).plots c v), Depth.trunc_eq _ ((firstPass G mode).plots c v), hrest,
    ← Depth.trunc_eq, ← firstPass_plots]

theorem secondPass_plots (c : Cell) (v : UInt32) :
    (secondPass G colour).plots c ((firstPass G mode).plots c v) = (secondPass G colour).plots c v := by
  refine congrArg G.mode.depth.trunc (plotColour_congr ?_ _ _)
  rw [Depth.trunc_eq, Depth.trunc_eq]
  exact (firstPass_bits hlow c v).2

theorem secondPass_marked (c : Cell) (h : s' c = (firstPass G mode).plots c (s c)) :
    (secondPass G colour).fails s' c = false := by
  obtain ⟨-, hne⟩ := marker_sub hlow
  rw [secondPass_fails, h, (firstPass_bits hlow c _).1]
  exact hne

omit hlow

def PartMarked (G : Gfx) (mode : FillMode) (s : Screen) (start : Cell) (s' : Screen) : Prop :=
  ∀ c, s' c = s c ∨ (firstPass G mode).Region s start c ∧ s' c = (firstPass G mode).plots c (s c)

include hlow

theorem firstPass_screen {t : State UInt32} (h : Problem.Sound (firstPass G mode) s start t) (c : Cell) :
    (c ∈ t.plotted → t.screen c = (firstPass G mode).plots c (s c)) ∧ (c ∉ t.plotted → t.screen c = s c) := by
  have hvalue := h.history.value c
  have hmany (n : Nat) : ((firstPass G mode).plots c)^[n + 1] (s c) = (firstPass G mode).plots c (s c) := by
    induction n with
    | zero => rfl
    | succ n ih => rw [Function.iterate_succ_apply', ih, firstPass_again hlow]
  constructor
  · intro hmem
    have hpos := List.count_pos_iff.mpr hmem
    have hcount : t.plotted.count c = t.plotted.count c - 1 + 1 := by omega
    rw [hvalue, hcount, hmany]
  · intro hnot
    rw [hvalue, List.count_eq_zero.mpr hnot, Function.iterate_zero_apply]

theorem partMarked_of_sound {t : State UInt32} (h : Problem.Sound (firstPass G mode) s start t) :
    PartMarked G mode s start t.screen := by
  intro c
  by_cases hmem : c ∈ t.plotted
  · exact .inr ⟨h.plotted c hmem, (firstPass_screen hlow h c).1 hmem⟩
  · exact .inl ((firstPass_screen hlow h c).2 hmem)

theorem marked_of_ended (hin : (firstPass G mode).window.Inside start) {n : Nat}
    (hend : ((firstPass G mode).step^[n] ((firstPass G mode).initial s start)).pending = [])
    (hw : ((firstPass G mode).step^[n] ((firstPass G mode).initial s start)).wrapped = false) :
    ((firstPass G mode).step^[n] ((firstPass G mode).initial s start)).screen = marked G mode s start := by
  have hsound := (Problem.sound_initial (F := firstPass G mode) (s := s) hin).iterate n
  funext c
  have hplotted := Problem.plotted_iff hin hend hw c
  rw [marked]
  split
  · next hreg => exact (firstPass_screen hlow hsound c).1 (hplotted.mpr hreg)
  · next hout => exact (firstPass_screen hlow hsound c).2 (mt hplotted.mp hout)

theorem fillable_marked (h : PartMarked G mode s start s') (hc : (secondPass G colour).Fillable s' c) :
    (secondPass G colour).Fillable (marked G mode s start) c := by
  refine ⟨hc.1, ?_⟩
  by_cases hreg : (firstPass G mode).Region s start c
  · exact secondPass_marked hlow c (if_pos hreg)
  · have hsame : marked G mode s start c = s c := if_neg hreg
    have hsame' : s' c = s c := (h c).resolve_right fun hboth => hreg hboth.1
    have hpass := hc.2
    rw [secondPass_fails, hsame'] at hpass
    rw [secondPass_fails, hsame]
    exact hpass

theorem region_marked (h : PartMarked G mode s start s') (hc : (secondPass G colour).Region s' start c) :
    (secondPass G colour).Region (marked G mode s start) start c := by
  obtain ⟨hstart, hpath⟩ := hc
  refine ⟨fillable_marked hlow h hstart, Relation.ReflTransGen.mono ?_ _ _ hpath⟩
  rintro a b ⟨hadj, hb⟩
  exact ⟨hadj, fillable_marked hlow h hb⟩

theorem stuck_marked (h : PartMarked G mode s start s') (hc : (secondPass G colour).Region s' start c)
    (hstuck : (secondPass G colour).Stuck s' c) :
    (secondPass G colour).Stuck (marked G mode s start) c := by
  have hplots (u : Screen) (hu : u c = s c ∨ u c = (firstPass G mode).plots c (s c)) :
      (secondPass G colour).plots c (u c) = (secondPass G colour).plots c (s c) := by
    rcases hu with hu | hu
    · rw [hu]
    · rw [hu, secondPass_plots hlow]
  have hmark : marked G mode s start c = s c ∨
      marked G mode s start c = (firstPass G mode).plots c (s c) := by
    rw [marked]
    split
    · exact .inr rfl
    · exact .inl rfl
  intro n
  rcases n with _ | n
  · exact (region_marked hlow h hc).fillable.2
  · have hgo := hstuck (n + 1)
    rw [Function.iterate_succ_apply, hplots s' ((h c).imp_right And.right)] at hgo
    rw [Function.iterate_succ_apply, hplots _ hmark]
    exact hgo

theorem noPair_marked (h : PartMarked G mode s start s')
    (hpair : (secondPass G colour).NoPair (marked G mode s start) start) :
    (secondPass G colour).NoPair s' start := by
  intro c d hc hd habove ⟨hc', hd'⟩
  exact hpair c d (region_marked hlow h hc) (region_marked hlow h hd) habove
    ⟨stuck_marked hlow h hc hc', stuck_marked hlow h hd hd'⟩

end Passes

/-! ### When a fill returns -/

section Returns

variable (G : Gfx) (s : Screen) (x y : Int) (colour : Plotcol) (mode : FillMode)

def StartInside : Prop := ¬ G.offscreen x y

def StartOk : Prop :=
  StartInside G x y ∨
    if G.mode.ncolour < 128 then
      stopsAt (marking G mode) (fillTest G mode) s x y = true ∧ stopsAt G testPixelMarker s x y = true
    else stopsAt G (fillTest G mode) s x y = true

def Escapes : Prop :=
  if G.mode.ncolour < 128 then
    (firstPass G mode).NoPair s (x, y) ∧
      (secondPass G colour).NoPair (marked G mode s (x, y)) (x, y)
  else (onlyPass G colour mode).NoPair s (x, y)

variable {G s x y colour mode} {st : Fill} {col : Plotcol} {test : FillTest}

theorem startInside_iff : StartInside G x y ↔ (problem G col test).window.Inside (x, y) := by
  rw [StartInside, Gfx.offscreen, Bool.not_eq_true]
  simp only [Bool.or_eq_false_iff, decide_eq_false_iff_not, not_lt]
  constructor
  · rintro ⟨⟨⟨hx, hx'⟩, hy⟩, hy'⟩
    exact ⟨hx, hx', hy, hy'⟩
  · rintro ⟨hx, hx', hy, hy'⟩
    exact ⟨⟨⟨hx, hx'⟩, hy⟩, hy'⟩

theorem inside_first (hinside : StartInside G x y) : (firstPass G mode).window.Inside (x, y) := by
  have hin : (secondPass G .fg).window.Inside (x, y) := startInside_iff.mp hinside
  rcases mode with _ | _
  · exact hin
  · exact hin

theorem pass_returns (hin : (problem G col test).window.Inside (x, y))
    (hpair : (problem G col test).NoPair st.screen (x, y)) :
    ∃ fuel t, primFloodFill G col test fuel st x y = some t := by
  obtain ⟨n, hn⟩ := Problem.returns_of_noPair (Problem.sound_initial hin) hpair
  exact ⟨n, primFloodFill_ends hin hn⟩

theorem pass_stops (h : stopsAt G test st.screen x y = true) (fuel : Nat) :
    primFloodFill G col test fuel st x y =
      some { st with rd := 0, wr := 0, plotted := [], wrapped := false } := if_pos h

theorem pass_sound (hin : (problem G col test).window.Inside (x, y)) {fuel : Nat} {t : Fill}
    (ht : primFloodFill G col test fuel st x y = some t) :
    Problem.Sound (problem G col test) st.screen (x, y) t.state := by
  obtain ⟨n, hn, -⟩ := primFloodFill_state hin ht
  rw [hn]
  exact (Problem.sound_initial hin).iterate n

theorem pass_noPair (hin : (problem G col test).window.Inside (x, y)) {fuel : Nat} {t : Fill}
    (ht : primFloodFill G col test fuel st x y = some t) (hw : t.wrapped = false) :
    (problem G col test).NoPair st.screen (x, y) := by
  obtain ⟨n, hn, hend⟩ := primFloodFill_state hin ht
  rw [hn] at hend
  refine Problem.noPair_of_returns hin hend ?_
  rw [← hn]
  exact hw

theorem fill_two (hlow : G.mode.ncolour < 128) {fuel : Nat} {t : Fill} :
    primFillArea fuel G st x y colour mode = some t ↔
      ∃ t₁ t₂, primFloodFill (marking G mode) (markCol mode) (fillTest G mode) fuel st x y = some t₁ ∧
        primFloodFill G colour testPixelMarker fuel t₁ x y = some t₂ ∧
        { t₂ with wrapped := t₁.wrapped || t₂.wrapped } = t := by
  rw [primFillArea, if_pos hlow]
  constructor
  · intro h
    obtain ⟨t₁, h₁, h⟩ := Option.bind_eq_some_iff.mp h
    obtain ⟨t₂, h₂, h⟩ := Option.bind_eq_some_iff.mp h
    exact ⟨t₁, t₂, h₁, h₂, Option.some.inj h⟩
  · rintro ⟨t₁, t₂, h₁, h₂, rfl⟩
    exact Option.bind_eq_some_iff.mpr ⟨t₁, h₁, Option.bind_eq_some_iff.mpr ⟨t₂, h₂, rfl⟩⟩

theorem fill_one (hhigh : ¬ G.mode.ncolour < 128) (fuel : Nat) :
    primFillArea fuel G st x y colour mode = primFloodFill G colour (fillTest G mode) fuel st x y :=
  if_neg hhigh

theorem fill_of_passes (hlow : G.mode.ncolour < 128) {fuel fuel' : Nat} {t₁ t₂ : Fill}
    (h₁ : primFloodFill (marking G mode) (markCol mode) (fillTest G mode) fuel st x y = some t₁)
    (h₂ : primFloodFill G colour testPixelMarker fuel' t₁ x y = some t₂) :
    ∃ fuel t, primFillArea fuel G st x y colour mode = some t :=
  ⟨max fuel fuel', _, (fill_two hlow).mpr ⟨t₁, t₂, primFloodFill_mono h₁ (le_max_left _ _),
    primFloodFill_mono h₂ (le_max_right _ _), rfl⟩⟩

theorem fill_returns_of_escapes (hstart : StartOk G st.screen x y mode)
    (hesc : Escapes G st.screen x y colour mode) :
    ∃ fuel t, primFillArea fuel G st x y colour mode = some t := by
  rw [StartOk] at hstart
  rw [Escapes] at hesc
  by_cases hlow : G.mode.ncolour < 128
  · rw [if_pos hlow] at hstart hesc
    obtain ⟨hfirst, hsecond⟩ := hesc
    rcases hstart with hinside | ⟨hstop, hstop'⟩
    · have hin : (firstPass G mode).window.Inside (x, y) := inside_first hinside
      have hin' : (secondPass G colour).window.Inside (x, y) := startInside_iff.mp hinside
      obtain ⟨fuel, t₁, h₁⟩ := @pass_returns (marking G mode) x y st _ _ hin hfirst
      have hpart := partMarked_of_sound hlow (pass_sound hin h₁)
      obtain ⟨fuel', t₂, h₂⟩ := @pass_returns G x y t₁ _ _ hin' (noPair_marked hlow hpart hsecond)
      exact fill_of_passes hlow h₁ h₂
    · exact fill_of_passes hlow (pass_stops hstop 0) (pass_stops hstop' 0)
  · rw [if_neg hlow] at hstart hesc
    rcases hstart with hinside | hstop
    · obtain ⟨fuel, t, ht⟩ := @pass_returns G x y st _ _ (startInside_iff.mp hinside) hesc
      exact ⟨fuel, t, (fill_one hlow fuel).trans ht⟩
    · exact ⟨0, _, (fill_one hlow 0).trans (pass_stops hstop 0)⟩

theorem first_marked (hlow : G.mode.ncolour < 128) (hinside : StartInside G x y) {fuel : Nat} {t : Fill}
    (ht : primFloodFill (marking G mode) (markCol mode) (fillTest G mode) fuel st x y = some t)
    (hw : t.wrapped = false) : t.screen = marked G mode st.screen (x, y) := by
  have hin : (firstPass G mode).window.Inside (x, y) := inside_first hinside
  obtain ⟨n, hn, hend⟩ := primFloodFill_state hin ht
  have hscreen : t.screen = t.state.screen := rfl
  have hw' : t.state.wrapped = false := hw
  rw [hn] at hend hscreen hw'
  rw [hscreen]
  exact marked_of_ended hlow hin hend hw'

theorem escapes_of_returned (hinside : StartInside G x y) {fuel : Nat} {t : Fill}
    (ht : primFillArea fuel G st x y colour mode = some t) (hw : t.wrapped = false) :
    Escapes G st.screen x y colour mode := by
  rw [Escapes]
  by_cases hlow : G.mode.ncolour < 128
  · rw [if_pos hlow]
    obtain ⟨t₁, t₂, h₁, h₂, rfl⟩ := (fill_two hlow).mp ht
    obtain ⟨hw₁, hw₂⟩ := Bool.or_eq_false_iff.mp hw
    have hin : (firstPass G mode).window.Inside (x, y) := inside_first hinside
    have hin' : (secondPass G colour).window.Inside (x, y) := startInside_iff.mp hinside
    refine ⟨pass_noPair hin h₁ hw₁, ?_⟩
    rw [← first_marked hlow hinside h₁ hw₁]
    exact pass_noPair hin' h₂ hw₂
  · rw [if_neg hlow]
    rw [fill_one hlow] at ht
    exact pass_noPair (startInside_iff.mp hinside) ht hw

end Returns

/-- A fill that starts in the window returns if it meets no two stuck pixels above one another; and if it
returns without having lost its list, it has met none. -/
theorem fill_returns (G : Gfx) (st : Fill) (x y : Int) (colour : Plotcol) (mode : FillMode) :
    (StartOk G st.screen x y mode → Escapes G st.screen x y colour mode →
      ∃ fuel t, primFillArea fuel G st x y colour mode = some t) ∧
    (StartInside G x y → ∀ fuel t, primFillArea fuel G st x y colour mode = some t →
      t.wrapped = false → Escapes G st.screen x y colour mode) :=
  ⟨fill_returns_of_escapes, fun hinside _ _ ht hw => escapes_of_returned hinside ht hw⟩

/-! ### A fill that does not return -/

def blackOnBlack : Gfx where
  mode := ⟨255, .bpp8⟩
  window := ⟨0, 0, 1, 1, by decide, by decide, by decide, by decide, by decide, by decide⟩
  fg := ⟨PM_NORMAL, 0⟩
  bg := ⟨PM_NORMAL, 0⟩
  ecf := ⟨fun _ _ => 0, 0, 0, 0, 0⟩

def blackColumn : Fill where
  screen := fun c => if c.1 = 0 then 0 else 1
  queue := fun _ => (0, 0)
  rd := 0
  wr := 0
  plotted := []
  wrapped := false

/-- The one pass of a black fill over black. -/
abbrev blackPass : Problem UInt32 := onlyPass blackOnBlack .fg .nonBg

section Black

variable {l : List Cell} {y : Int}

theorem black_test : fillTest blackOnBlack .nonBg = testPixelNotBgCol := by
  show (if PM_NORMAL < PM_ECF then testPixelNotBgCol else testPixelNotBgEcf) = _
  exact if_pos (by decide)

theorem black_fails (s : Screen) (c : Cell) :
    blackPass.fails s c = (s c &&& 0xFF != 0) := by
  rw [blackPass, onlyPass, black_test]
  rfl

theorem black_plots (c : Cell) (v : UInt32) : blackPass.plots c v = 0 := by
  have hplain : ¬ PM_ECF ≤ PM_NORMAL := by decide
  have hcolour (px : UInt32) : blackOnBlack.plotColour .fg c.1 c.2 px = 0 := by
    simp only [Gfx.plotColour, blackOnBlack, hplain, if_false, ne_eq, not_true_eq_false]
  show Depth.trunc .bpp8 (blackOnBlack.plotColour .fg c.1 c.2 _) = 0
  rw [hcolour]
  rfl

theorem black_pass (y : Int) :
    blackPass.fails blackColumn.screen (0, y) = false := by
  have hblack : blackColumn.screen (0, y) = 0 := by simp [blackColumn]
  rw [black_fails, hblack]
  decide

theorem black_plot (pending : List Cell) (y : Int) :
    blackPass.plot ⟨blackColumn.screen, pending, l, false⟩ (0, y) =
      ⟨blackColumn.screen, pending, l ++ [(0, y)], false⟩ := by
  have hsame : blackPass.plots (0, y) (blackColumn.screen (0, y)) =
      blackColumn.screen (0, y) := black_plots _ _
  rw [Problem.plot]
  simp only [hsame, Function.update_eq_self]

theorem black_run (st : State UInt32) (hst : st.screen = blackColumn.screen) (y : Int) :
    blackPass.visit st (0, y) = blackPass.touch y 0 st := by
  have hstop : blackPass.fails blackColumn.screen (0 + 1, y) = true := by
    have hwhite : blackColumn.screen (0 + 1, y) = 1 := by simp [blackColumn]
    rw [black_fails, hwhite]
    decide
  have hright : blackPass.rightEnd blackColumn.screen (0, y) = 0 := if_pos hstop
  rw [Problem.visit, hst, hright]
  rfl

theorem black_up :
    blackPass.step ⟨blackColumn.screen, [(0, 1)], l, false⟩ =
      ⟨blackColumn.screen, [(0, 0)], l ++ [(0, 1)], false⟩ := by
  have hgo : blackPass.window.yMin < 1 ∧
      blackPass.fails blackColumn.screen (0, 1 - 1) = false :=
    ⟨by decide, black_pass _⟩
  have hend : ¬ (1 < blackPass.window.yMax ∧
      blackPass.fails blackColumn.screen (0, 1 + 1) = false) :=
    fun h => absurd h.1 (by decide)
  have hroom : ¬ ([] : List Cell).length + 1 = blackPass.capacity := by decide
  rw [Problem.step]
  simp only [black_pass, Bool.false_eq_true, if_false]
  rw [black_run _ rfl, Problem.touch, black_plot, Problem.pushUp, if_pos hgo, Problem.push, if_neg hroom,
    Problem.pushDown, if_neg hend]
  rfl

theorem black_down :
    blackPass.step ⟨blackColumn.screen, [(0, 0)], l, false⟩ =
      ⟨blackColumn.screen, [(0, 1)], l ++ [(0, 0)], false⟩ := by
  have hend : ¬ (blackPass.window.yMin < 0 ∧
      blackPass.fails blackColumn.screen (0, 0 - 1) = false) :=
    fun h => absurd h.1 (by decide)
  have hgo : 0 < blackPass.window.yMax ∧
      blackPass.fails blackColumn.screen (0, 0 + 1) = false :=
    ⟨by decide, black_pass _⟩
  have hroom : ¬ ([] : List Cell).length + 1 = blackPass.capacity := by decide
  rw [Problem.step]
  simp only [black_pass, Bool.false_eq_true, if_false]
  rw [black_run _ rfl, Problem.touch, black_plot, Problem.pushUp, if_neg hend, Problem.pushDown, if_pos hgo,
    Problem.push, if_neg hroom]
  rfl

theorem black_goes_on (n : Nat) :
    (blackPass.step^[n] ⟨blackColumn.screen, [(0, 0)], l, false⟩).pending ≠ [] ∧
      (blackPass.step^[n] ⟨blackColumn.screen, [(0, 1)], l, false⟩).pending ≠ [] := by
  induction n generalizing l with
  | zero => exact ⟨List.cons_ne_nil _ _, List.cons_ne_nil _ _⟩
  | succ n ih =>
    rw [Function.iterate_succ_apply, Function.iterate_succ_apply, black_down, black_up]
    exact ⟨ih.2, ih.1⟩

end Black

/-- A black fill over black pixels never ends. -/
theorem black_on_black_never_returns :
    ¬ ∃ fuel t, primFillArea fuel blackOnBlack blackColumn 0 0 .fg .nonBg = some t := by
  rintro ⟨fuel, t, ht⟩
  have hhigh : ¬ blackOnBlack.mode.ncolour < 128 := by decide
  rw [fill_one hhigh] at ht
  have hinside : StartInside blackOnBlack 0 0 := by
    rw [StartInside]
    decide
  obtain ⟨n, hn, hend⟩ := primFloodFill_state (startInside_iff.mp hinside) ht
  rw [hn] at hend
  exact (black_goes_on n).1 hend

/-! ### The region, exactly -/

def lowModes : List Mode := [⟨1, .bpp8⟩, ⟨3, .bpp8⟩, ⟨15, .bpp8⟩]

def ValidScreen (G : Gfx) (s : Screen) : Prop := ∀ c, s c ≤ G.mode.ncolour

def plotValue (G : Gfx) (colour : Plotcol) (s : Screen) (c : Cell) : UInt32 :=
  G.mode.depth.trunc (G.plotColour colour c.1 c.2 (s c))

structure FilledExactly (G : Gfx) (s : Screen) (x y : Int) (colour : Plotcol) (mode : FillMode) (t : Fill) :
    Prop where
  plotted : ∀ c, c ∈ t.plotted ↔ (firstPass G mode).Region s (x, y) c
  once : t.plotted.Nodup
  value : ∀ c, (firstPass G mode).Region s (x, y) c → t.screen c = plotValue G colour s c
  others : ∀ c, ¬ (firstPass G mode).Region s (x, y) c → t.screen c = s c
  unmarked : ∀ c, t.screen c &&& G.mode.marker = 0

def Clean (G : Gfx) (s : Screen) (x y : Int) (colour : Plotcol) (mode : FillMode) : Prop :=
  ∀ c, (firstPass G mode).Region s (x, y) c → plotValue G colour s c &&& G.mode.marker = 0

theorem FilledExactly.clean {G : Gfx} {s : Screen} {x y : Int} {colour : Plotcol} {mode : FillMode} {t : Fill}
    (h : FilledExactly G s x y colour mode t) : Clean G s x y colour mode := by
  intro c hc
  rw [← h.value c hc]
  exact h.unmarked c

section Exact

variable {G : Gfx} {s s' : Screen} {x y : Int} {colour : Plotcol} {mode : FillMode} {c start : Cell}

theorem low_of_mem (h : G.mode ∈ lowModes) : G.mode.ncolour < 128 := by
  rcases List.mem_cons.mp h with h | h
  · rw [h]
    decide
  rcases List.mem_cons.mp h with h | h
  · rw [h]
    decide
  · rw [List.mem_singleton.mp h]
    decide

theorem valid_bits (hmode : G.mode ∈ lowModes) {v : UInt32} (hv : v ≤ G.mode.ncolour) :
    v &&& G.mode.marker = 0 ∧ G.mode.depth.trunc v = v := by
  have hle := UInt32.le_iff_toNat_le.mp hv
  have hkeep (k : Nat) (hk : 2 ^ k ≤ 256) (hlt : v.toNat < 2 ^ k) : Depth.bpp8.trunc v = v := by
    apply UInt32.toNat_inj.mp
    show (v &&& 0xFF).toNat = v.toNat
    rw [UInt32.toNat_and]
    exact (Nat.and_two_pow_sub_one_eq_mod v.toNat 8).trans (Nat.mod_eq_of_lt (by omega))
  have hclear (k : Nat) (hlt : v.toNat < 2 ^ k) : v.toNat &&& 2 ^ k = 0 := by
    rw [Nat.and_two_pow, Nat.testBit_lt_two_pow hlt]
    exact Nat.zero_mul _
  have hzero (m : UInt32) (hm : v.toNat &&& m.toNat = 0) : v &&& m = 0 := by
    apply UInt32.toNat_inj.mp
    rw [UInt32.toNat_and, hm]
    rfl
  rcases List.mem_cons.mp hmode with h | h
  · rw [h] at hle ⊢
    have hlt : v.toNat < 2 ^ 1 := Nat.lt_succ_of_le hle
    exact ⟨hzero _ (hclear 1 hlt), hkeep 1 (by decide) hlt⟩
  rcases List.mem_cons.mp h with h | h
  · rw [h] at hle ⊢
    have hlt : v.toNat < 2 ^ 2 := Nat.lt_succ_of_le hle
    exact ⟨hzero _ (hclear 2 hlt), hkeep 2 (by decide) hlt⟩
  · rw [List.mem_singleton.mp h] at hle ⊢
    have hlt : v.toNat < 2 ^ 4 := Nat.lt_succ_of_le hle
    exact ⟨hzero _ (hclear 4 hlt), hkeep 4 (by decide) hlt⟩

variable (hmode : G.mode ∈ lowModes) (hvalid : ValidScreen G s)

include hmode hvalid

theorem firstPass_settles (start : Cell) : Problem.Settles (firstPass G mode) s start := by
  intro c hc
  have hlow := low_of_mem hmode
  obtain ⟨hclear, htrunc⟩ := valid_bits hmode (hvalid c)
  obtain ⟨hsub, hne⟩ := marker_sub hlow
  have hpass : fillTest G mode (marking G mode) c.1 c.2 (G.mode.depth.trunc (s c)) = false := by
    rcases mode with _ | _
    · exact hc.fillable.2
    · exact hc.fillable.2
  have hgoal : fillTest G mode (marking G mode) c.1 c.2
      (G.mode.depth.trunc ((firstPass G mode).plots c (s c))) = true := by
    have hmark := (@firstPass_bits G mode hlow c (s c)).1
    rw [← Depth.trunc_eq] at hmark
    rw [htrunc] at hpass
    obtain ⟨w, hw⟩ : ∃ w, w = G.mode.depth.trunc ((firstPass G mode).plots c (s c)) := ⟨_, rfl⟩
    rw [← hw] at hmark ⊢
    -- the marked pixel is no longer the background, and stops a fill to the foreground
    have hother : w ≠ s c := by
      intro heq
      rw [heq, hclear] at hmark
      exact hne hmark.symm
    have hset : w &&& G.mode.marker ≠ 0 := by
      rw [hmark]
      exact hne
    rcases mode with _ | _
    · rw [fillTest] at hpass ⊢
      split
      · next hplain =>
        rw [if_pos hplain] at hpass
        have hback : s c = G.bg.colour := bne_eq_false_iff_eq.mp hpass
        exact bne_iff_ne.mpr fun heq => hother (heq.trans hback.symm)
      · next hplain =>
        rw [if_neg hplain] at hpass
        have hback : s c = G.ecf.colour G.bg.plotmode c.1 c.2 := bne_eq_false_iff_eq.mp hpass
        exact bne_iff_ne.mpr fun heq => hother (heq.trans hback.symm)
    · rw [fillTest]
      split
      · exact if_pos hset
      · exact if_pos hset
  rcases mode with _ | _
  · exact hgoal
  · exact hgoal

theorem fillable_iff_marked (h : PartMarked G mode s start s') (hc : (secondPass G colour).Fillable s' c) :
    (firstPass G mode).Region s start c ∧ s' c = (firstPass G mode).plots c (s c) := by
  rcases h c with hsame | hboth
  · have hpass := hc.2
    rw [secondPass_fails, hsame, ← Depth.trunc_eq, (valid_bits hmode (hvalid c)).2,
      (valid_bits hmode (hvalid c)).1] at hpass
    exact absurd rfl hpass
  · exact hboth

theorem secondPass_value (hc : s' c = (firstPass G mode).plots c (s c)) :
    (secondPass G colour).plots c (s' c) = plotValue G colour s c := by
  have htrunc : G.mode.depth.trunc (s c) = s c := (valid_bits hmode (hvalid c)).2
  rw [hc, secondPass_plots (low_of_mem hmode)]
  show G.mode.depth.trunc (G.plotColour colour c.1 c.2 (G.mode.depth.trunc (s c))) = _
  rw [htrunc]
  rfl

theorem secondPass_settles (h : PartMarked G mode s (x, y) s') (hclean : Clean G s x y colour mode) :
    Problem.Settles (secondPass G colour) s' (x, y) := by
  intro c hc
  obtain ⟨hreg, hvalue⟩ := fillable_iff_marked hmode hvalid h hc.fillable
  have hplot := @secondPass_value G s s' colour mode c hmode hvalid hvalue
  have hsub := (marker_sub (low_of_mem hmode)).1
  show (G.mode.depth.trunc ((secondPass G colour).plots c (s' c)) &&& G.mode.marker == 0) = true
  rw [hplot, Depth.trunc_eq, and_sub hsub, hclean c hreg]
  rfl

omit hmode hvalid

open Classical in
theorem partMarked_marked (G : Gfx) (mode : FillMode) (s : Screen) (start : Cell) :
    PartMarked G mode s start (marked G mode s start) := by
  intro c
  by_cases hreg : (firstPass G mode).Region s start c
  · exact .inr ⟨hreg, if_pos hreg⟩
  · exact .inl (if_neg hreg)

include hmode hvalid

theorem region_second (c : Cell) : (secondPass G colour).Region (marked G mode s start) start c ↔
    (firstPass G mode).Region s start c := by
  have hfill (d : Cell) (hd : (firstPass G mode).Region s start d) :
      (secondPass G colour).Fillable (marked G mode s start) d := by
    refine ⟨?_, secondPass_marked (low_of_mem hmode) d (if_pos hd)⟩
    rcases mode with _ | _
    · exact hd.fillable.1
    · exact hd.fillable.1
  constructor
  · intro hc
    exact (fillable_iff_marked hmode hvalid (partMarked_marked G mode s start) hc.fillable).1
  · rintro ⟨hstart, hpath⟩
    refine ⟨hfill start ⟨hstart, .refl⟩, ?_⟩
    induction hpath with
    | refl => exact .refl
    | tail hfirst hlast ih =>
      exact ih.tail ⟨hlast.1, hfill _ ⟨hstart, hfirst.tail hlast⟩⟩

theorem escapes_of_clean (hclean : Clean G s x y colour mode) : Escapes G s x y colour mode := by
  rw [Escapes, if_pos (low_of_mem hmode)]
  constructor
  · exact Problem.noPair_of_settles (firstPass_settles hmode hvalid _)
  · exact Problem.noPair_of_settles
      (secondPass_settles hmode hvalid (partMarked_marked G mode s (x, y)) hclean)

omit hvalid

theorem fill_stopped {st : Fill} (hvalid : ValidScreen G st.screen)
    (hstop : stopsAt (marking G mode) (fillTest G mode) st.screen x y = true)
    (hstop' : stopsAt G testPixelMarker st.screen x y = true) {fuel : Nat} {t : Fill}
    (ht : primFillArea fuel G st x y colour mode = some t) :
    t.wrapped = false ∧ FilledExactly G st.screen x y colour mode t ∧ Clean G st.screen x y colour mode := by
  have hnone (c : Cell) : ¬ (firstPass G mode).Region st.screen (x, y) c := by
    rintro ⟨⟨hin, hpass⟩, -⟩
    have hfail : (firstPass G mode).fails st.screen (x, y) = true := (stopsAt_eq (c := (x, y)) hin).symm.trans hstop
    exact absurd (hfail.symm.trans hpass) (by decide)
  obtain ⟨t₁, t₂, h₁, h₂, rfl⟩ := (fill_two (low_of_mem hmode)).mp ht
  obtain rfl := Option.some.inj ((pass_stops hstop fuel).symm.trans h₁)
  obtain rfl := Option.some.inj ((pass_stops hstop' fuel).symm.trans h₂)
  refine ⟨rfl, ⟨fun c => ?_, List.nodup_nil, fun c hc => absurd hc (hnone c), fun c _ => rfl, fun c => ?_⟩,
    fun c hc => absurd hc (hnone c)⟩
  · exact ⟨fun h => absurd h List.not_mem_nil, fun h => absurd h (hnone c)⟩
  · exact (valid_bits hmode (hvalid c)).1

theorem second_plotted {st t₁ t₂ : Fill} (hvalid : ValidScreen G st.screen) (hinside : StartInside G x y)
    (hscreen : t₁.screen = marked G mode st.screen (x, y)) {fuel : Nat}
    (h₂ : primFloodFill G colour testPixelMarker fuel t₁ x y = some t₂) (hw₂ : t₂.wrapped = false)
    (c : Cell) : c ∈ t₂.plotted ↔ (firstPass G mode).Region st.screen (x, y) c := by
  have hin : (secondPass G colour).window.Inside (x, y) := startInside_iff.mp hinside
  obtain ⟨n, hn, hend⟩ := primFloodFill_state hin h₂
  have hw : t₂.state.wrapped = false := hw₂
  have hplotted : t₂.plotted = t₂.state.plotted := rfl
  rw [hn] at hend hw hplotted
  rw [hplotted, ← @region_second G _ colour mode _ hmode hvalid, ← hscreen]
  exact Problem.plotted_iff hin hend hw c

theorem second_exact {st t₁ t₂ : Fill} (hvalid : ValidScreen G st.screen) (hinside : StartInside G x y)
    (hscreen : t₁.screen = marked G mode st.screen (x, y)) {fuel : Nat}
    (h₂ : primFloodFill G colour testPixelMarker fuel t₁ x y = some t₂) (hw₂ : t₂.wrapped = false)
    (hclean : Clean G st.screen x y colour mode) (w : Bool) :
    FilledExactly G st.screen x y colour mode { t₂ with wrapped := w } := by
  have hpart := partMarked_marked G mode st.screen (x, y)
  have hplotted := second_plotted hmode hvalid hinside hscreen h₂ hw₂
  have hsound := pass_sound (startInside_iff.mp hinside) h₂
  have hset := secondPass_settles hmode hvalid hpart hclean
  rw [hscreen] at hsound
  have hvalue (c : Cell) (hc : (firstPass G mode).Region st.screen (x, y) c) :
      t₂.screen c = plotValue G colour st.screen c := by
    have hmark : marked G mode st.screen (x, y) c = (firstPass G mode).plots c (st.screen c) := if_pos hc
    exact ((hsound.screen hset c).1 ((hplotted c).mpr hc)).trans (secondPass_value hmode hvalid hmark)
  have hother (c : Cell) (hc : ¬ (firstPass G mode).Region st.screen (x, y) c) :
      t₂.screen c = st.screen c := by
    have hsame : marked G mode st.screen (x, y) c = st.screen c := if_neg hc
    exact ((hsound.screen hset c).2 (mt (hplotted c).mp hc)).trans hsame
  refine ⟨hplotted, hsound.nodup hset, hvalue, hother, fun c => ?_⟩
  show t₂.screen c &&& G.mode.marker = 0
  by_cases hc : (firstPass G mode).Region st.screen (x, y) c
  · rw [hvalue c hc]
    exact hclean c hc
  · rw [hother c hc]
    exact (valid_bits hmode (hvalid c)).1

theorem unwrapped_of_clean {st t : Fill} (hvalid : ValidScreen G st.screen) (hinside : StartInside G x y)
    (hclean : Clean G st.screen x y colour mode)
    (hsmall : Problem.Small (firstPass G mode) st.screen (x, y)) {fuel : Nat}
    (ht : primFillArea fuel G st x y colour mode = some t) : t.wrapped = false := by
  have hlow := low_of_mem hmode
  have hin : (firstPass G mode).window.Inside (x, y) := inside_first hinside
  have hin' : (secondPass G colour).window.Inside (x, y) := startInside_iff.mp hinside
  obtain ⟨t₁, t₂, h₁, h₂, rfl⟩ := (fill_two hlow).mp ht
  obtain ⟨n, hn, -⟩ := primFloodFill_state hin h₁
  have hw₁ : t₁.wrapped = false := (congrArg State.wrapped hn).trans
    (Problem.unwrapped_of_small hin (firstPass_settles hmode hvalid _) hsmall n)
  have hscreen := first_marked hlow hinside h₁ hw₁
  have hset : Problem.Settles (secondPass G colour) t₁.screen (x, y) := by
    rw [hscreen]
    exact secondPass_settles hmode hvalid (partMarked_marked G mode st.screen (x, y)) hclean
  have hsmall' : Problem.Small (secondPass G colour) t₁.screen (x, y) := by
    intro l hl hmem
    rw [hscreen] at hmem
    refine hsmall l hl fun c hc => (region_second hmode hvalid c).mp (hmem c hc)
  obtain ⟨m, hm, -⟩ := primFloodFill_state hin' h₂
  have hw₂ : t₂.wrapped = false := (congrArg State.wrapped hm).trans
    (Problem.unwrapped_of_small hin' hset hsmall' m)
  show (t₁.wrapped || t₂.wrapped) = false
  rw [hw₁, hw₂]
  rfl

end Exact

/-- In the modes with spare bits, on a screen of valid colours: a fill that gives no pixel of the region a
colour with the marker in it returns; where the region has at most 8191 pixels, or the fill has not lost its
list, it has filled the region exactly if and only if the colours are such. -/
theorem fill_exact (G : Gfx) (st : Fill) (x y : Int) (colour : Plotcol) (mode : FillMode)
    (hmode : G.mode ∈ lowModes) (hvalid : ValidScreen G st.screen)
    (hstart : StartOk G st.screen x y mode) :
    (Clean G st.screen x y colour mode → ∃ fuel t, primFillArea fuel G st x y colour mode = some t) ∧
    (Problem.Small (firstPass G mode) st.screen (x, y) →
      ∀ fuel t, primFillArea fuel G st x y colour mode = some t →
        (FilledExactly G st.screen x y colour mode t ↔ Clean G st.screen x y colour mode)) ∧
    (∀ fuel t, primFillArea fuel G st x y colour mode = some t → t.wrapped = false →
      (FilledExactly G st.screen x y colour mode t ↔ Clean G st.screen x y colour mode)) := by
  have hlow := low_of_mem hmode
  rw [StartOk, if_pos hlow] at hstart
  have hkept : ∀ fuel t, primFillArea fuel G st x y colour mode = some t → t.wrapped = false →
      (FilledExactly G st.screen x y colour mode t ↔ Clean G st.screen x y colour mode) := by
    intro fuel t ht hw
    refine ⟨FilledExactly.clean, fun hclean => ?_⟩
    rcases hstart with hinside | ⟨hstop, hstop'⟩
    · obtain ⟨t₁, t₂, h₁, h₂, rfl⟩ := (fill_two hlow).mp ht
      obtain ⟨hw₁, hw₂⟩ := Bool.or_eq_false_iff.mp hw
      exact second_exact hmode hvalid hinside (first_marked hlow hinside h₁ hw₁) h₂ hw₂ hclean _
    · exact (fill_stopped hmode hvalid hstop hstop' ht).2.1
  refine ⟨fun hclean => ?_, fun hsmall fuel t ht => ⟨FilledExactly.clean, fun hclean => ?_⟩, hkept⟩
  · exact fill_returns_of_escapes (by rwa [StartOk, if_pos hlow]) (escapes_of_clean hmode hvalid hclean)
  · apply (hkept fuel t ht _).mpr hclean
    rcases hstart with hinside | ⟨hstop, hstop'⟩
    · exact unwrapped_of_clean hmode hvalid hinside hclean hsmall ht
    · exact (fill_stopped hmode hvalid hstop hstop' ht).1

def whiteOnBlack : Gfx where
  mode := ⟨1, .bpp8⟩
  window := ⟨0, 0, 1, 1, by decide, by decide, by decide, by decide, by decide, by decide⟩
  fg := ⟨PM_NORMAL, 1⟩
  bg := ⟨PM_NORMAL, 0⟩
  ecf := ⟨fun _ _ => 0, 0, 0, 0, 0⟩

def blackScreen : Fill where
  screen := fun _ => 0
  queue := fun _ => (0, 0)
  rd := 0
  wr := 0
  plotted := []
  wrapped := false

theorem white_returns (y : Int) (v : UInt32)
    (h : (primFillArea 12 whiteOnBlack blackScreen 0 y .fg .nonBg).map
      (fun t => (t.wrapped, t.screen (0, 0))) = some (false, v)) :
    ∃ t, primFillArea 12 whiteOnBlack blackScreen 0 y .fg .nonBg = some t ∧ t.wrapped = false ∧
      t.screen (0, 0) = v := by
  obtain ⟨t, ht, hpair⟩ := Option.map_eq_some_iff.mp h
  obtain ⟨hw, hv⟩ := Prod.mk.inj hpair
  exact ⟨t, ht, hw, hv⟩

theorem white_valid : ValidScreen whiteOnBlack blackScreen.screen := fun _ => by
  show (0 : UInt32) ≤ 1
  decide

theorem white_inside : StartInside whiteOnBlack 0 0 := by
  rw [StartInside]
  decide

theorem white_clean : Clean whiteOnBlack blackScreen.screen 0 0 .fg .nonBg := by
  intro c _
  have hplain : ¬ PM_ECF ≤ PM_NORMAL := by decide
  have hcolour (px : UInt32) : whiteOnBlack.plotColour .fg c.1 c.2 px = 1 := by
    simp only [Gfx.plotColour, whiteOnBlack, hplain, if_false, ne_eq, not_true_eq_false]
  rw [plotValue, hcolour]
  decide

theorem white_small : Problem.Small (firstPass whiteOnBlack .nonBg) blackScreen.screen (0, 0) := by
  intro l hl hmem
  have hwindow : l ⊆ [(0, 0), (0, 1), (1, 0), (1, 1)] := by
    rintro ⟨x, y⟩ hc
    have hin : 0 ≤ x ∧ x ≤ 1 ∧ 0 ≤ y ∧ y ≤ 1 := (hmem _ hc).fillable.1
    simp only [List.mem_cons, Prod.mk.injEq, List.not_mem_nil, or_false]
    omega
  have hfour : l.length ≤ 4 := (hl.subperm hwindow).length_le
  change 2 * l.length + 1 < 16384
  omega

/-- From a pixel of the window the four pixels are filled. -/
theorem fill_exact_white :
    ∃ fuel t, primFillArea fuel whiteOnBlack blackScreen 0 0 .fg .nonBg = some t ∧
      FilledExactly whiteOnBlack blackScreen.screen 0 0 .fg .nonBg t := by
  obtain ⟨hreturns, hexact, -⟩ := fill_exact whiteOnBlack blackScreen 0 0 .fg .nonBg (List.mem_cons_self ..)
    white_valid (.inl white_inside)
  obtain ⟨fuel, t, ht⟩ := hreturns white_clean
  exact ⟨fuel, t, ht, (hexact white_small fuel t ht).mpr white_clean⟩

theorem fill_returns_white :
    ∃ fuel t, primFillArea fuel whiteOnBlack blackScreen 0 0 .fg .nonBg = some t :=
  (fill_returns whiteOnBlack blackScreen 0 0 .fg .nonBg).1 (.inl white_inside)
    (escapes_of_clean (List.mem_cons_self ..) white_valid white_clean)

/-- From a pixel above the window the first pass gets into it, and the second does not: the marks stay. -/
theorem marks_stay :
    ∃ t, primFillArea 12 whiteOnBlack blackScreen 0 (-1) .fg .nonBg = some t ∧
      ¬ FilledExactly whiteOnBlack blackScreen.screen 0 (-1) .fg .nonBg t := by
  obtain ⟨t, ht, -, hv⟩ := white_returns (-1) 2 (by decide +kernel)
  refine ⟨t, ht, fun hexact => ?_⟩
  have hclear := hexact.unmarked (0, 0)
  rw [hv] at hclear
  exact absurd hclear (by decide)

end Pi1MHz.VduFill
