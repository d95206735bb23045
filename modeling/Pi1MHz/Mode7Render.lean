import Pi1MHz.Mode7

/-!
# Teletext: what is drawn

The loops that draw cells, rows and the whole screen, each as what it leaves in the frame buffer; and what a
change of one character does to the line states.
-/

namespace Pi1MHz.Mode7

/-! ### Line states -/

section Line

theorem reset_fgd (l : Line) (dhCount : Nat → Nat) (row : Nat) :
    tt_reset_line_state dhCount row l =
      { fgdColour := 0x3F
        bgdColour := 0
        graphics := false
        separated := false
        doubled := false
        doubleBottom := double_bottom dhCount row
        flashing := false
        concealed := false
        held := false
        heldChar := TT_SPACE
        heldSeparated := false } := by
  unfold tt_reset_line_state set_flashing set_foreground set_background
  cases l.flashing with
  | true =>
    simp only [if_true, Bool.false_eq_true, if_false]
    rfl
  | false =>
    simp only [Bool.false_eq_true, if_false]
    rfl

theorem reset_congr (l l' : Line) {d d' : Nat → Nat} {row : Nat}
    (h : double_bottom d row = double_bottom d' row) :
    tt_reset_line_state d row l = tt_reset_line_state d' row l' := by
  rw [reset_fgd, reset_fgd, h]

theorem double_bottom_congr {dh dh' : Nat → Nat} {row : Nat} (h : ∀ r < row, (0 < dh r ↔ 0 < dh' r)) :
    double_bottom dh row = double_bottom dh' row := by
  induction row with
  | zero => rfl
  | succ r ih =>
    simp only [double_bottom]
    rw [ih fun r' hr' => h r' (Nat.lt_succ_of_lt hr')]
    by_cases hr : 0 < dh r
    · rw [if_pos hr, if_pos ((h r (Nat.lt_succ_self r)).mp hr)]
    · rw [if_neg hr, if_neg fun hr' => hr ((h r (Nat.lt_succ_self r)).mpr hr')]

theorem double_bottom_below {dh dh' : Nat → Nat} {k row : Nat} (hk : dh k = 0) (hk' : dh' k = 0) (hlt : k < row)
    (h : ∀ r, k < r → r < row → dh r = dh' r) : double_bottom dh row = double_bottom dh' row := by
  induction row with
  | zero => exact absurd hlt (Nat.not_lt_zero k)
  | succ r ih =>
    simp only [double_bottom]
    rcases Nat.lt_succ_iff_lt_or_eq.mp hlt with hkr | rfl
    · rw [h r hkr (Nat.lt_succ_self r), ih hkr fun r' hr hr' => h r' hr (Nat.lt_succ_of_lt hr')]
    · rw [hk, hk']
      rfl

variable (l : Line) (chars : Nat → UInt8)

theorem run_add (col m n : Nat) : l.run chars col (m + n) = (l.run chars col m).run chars (col + m) n := by
  induction n with
  | zero => rfl
  | succ n ih =>
    rw [Nat.add_succ, Line.run, ih, Line.run, Nat.add_assoc]

theorem run_cons (col n : Nat) : l.run chars col (n + 1) = (l.advance (chars col)).run chars (col + 1) n := by
  rw [Nat.add_comm, run_add]
  rfl

theorem run_congr {chars chars' : Nat → UInt8} {col n : Nat} (h : ∀ j, col ≤ j → j < col + n → chars j = chars' j) :
    l.run chars col n = l.run chars' col n := by
  induction n with
  | zero => rfl
  | succ n ih =>
    rw [Line.run, Line.run, h (col + n) (Nat.le_add_right _ _) (Nat.lt_succ_self _),
      ih fun j hj hj' => h j hj (Nat.lt_succ_of_lt hj')]

theorem set_at_space : set_at TT_SPACE l = l := rfl

theorem hold_char_space :
    hold_char TT_SPACE l = if l.graphics then { l with heldChar := TT_SPACE, heldSeparated := l.separated } else l := by
  cases hg : l.graphics with
  | true =>
    simp only [hold_char, hg, if_true]
    rfl
  | false =>
    simp only [hold_char, hg, Bool.false_eq_true, if_false]
    rfl

theorem rendered_space (reveal : UInt8) : rendered reveal TT_SPACE l = TT_SPACE := by
  unfold rendered
  split
  · rfl
  · rfl

theorem glyph_space : l.glyph TT_SPACE = 0x20 ∨ l.glyph TT_SPACE = 0x80 ∨ l.glyph TT_SPACE = 0xC0 := by
  cases hg : l.graphics with
  | false =>
    left
    simp only [Line.glyph, hg]
    rfl
  | true =>
    right
    cases hs : (if l.held then l.heldSeparated else l.separated) with
    | false =>
      left
      simp only [Line.glyph, hg, hs]
      rfl
    | true =>
      right
      simp only [Line.glyph, hg, hs]
      rfl

theorem glyph_space_blank (font : Font) (y : Fin 20) (x : Fin 12) : font.bit (l.glyph TT_SPACE) y x = false := by
  rcases glyph_space l with h | h | h
  · rw [h]
    exact font.space y x
  · rw [h]
    exact font.contiguous y x
  · rw [h]
    exact font.separated y x

theorem cell_space (font : Font) (reveal : UInt8) : l.cell font reveal TT_SPACE = fun _ _ => l.bgdColour := by
  have hbgd : (hold_char TT_SPACE l).bgdColour = l.bgdColour := by
    rw [hold_char_space]
    split
    · rfl
    · rfl
  funext y x
  simp only [Line.cell, tt_process_controls, tt_draw_character, set_at_space, rendered_space, glyph_space_blank,
    Bool.false_eq_true, if_false, hbgd]

end Line

section

variable {α : Type} (s : Nat → Nat → α) (row col : Nat) (v : α)

theorem setCell_self : setCell s row col v row col = v := by
  rw [setCell, Function.update_self, Function.update_self]

theorem setCell_row : setCell s row col v row = Function.update (s row) col v := by
  rw [setCell, Function.update_self]

theorem setCell_other_row {r : Nat} (h : r ≠ row) : setCell s row col v r = s r := by
  rw [setCell, Function.update_of_ne h]

theorem setCell_other {r j : Nat} (h : ¬ (r = row ∧ j = col)) : setCell s row col v r j = s r j := by
  by_cases hr : r = row
  · subst hr
    rw [setCell_row, Function.update_of_ne fun hj => h ⟨rfl, hj⟩]
  · rw [setCell_other_row s row col v hr]

end

/-! ### Rows -/

structure SameStore (t t' : Teletext) : Prop where
  lastRow : t'.lastRow = t.lastRow
  lastCol : t'.lastCol = t.lastCol
  reveal : t'.reveal = t.reveal
  mode7screen : t'.mode7screen = t.mode7screen
  dhCount : t'.dhCount = t.dhCount

theorem SameStore.refl (t : Teletext) : SameStore t t := ⟨rfl, rfl, rfl, rfl, rfl⟩

theorem SameStore.trans {t t' t'' : Teletext} (h : SameStore t t') (h' : SameStore t' t'') : SameStore t t'' := by
  constructor
  · exact h'.lastRow.trans h.lastRow
  · exact h'.lastCol.trans h.lastCol
  · exact h'.reveal.trans h.reveal
  · exact h'.mode7screen.trans h.mode7screen
  · exact h'.dhCount.trans h.dhCount

section

variable (M : Mode)

theorem draw_same (t : Teletext) (c : UInt8) (row col : Nat) : SameStore t (t.draw M c row col) :=
  ⟨rfl, rfl, rfl, rfl, rfl⟩

theorem draw_picture (t : Teletext) (c : UInt8) (row col : Nat) :
    (t.draw M c row col).picture = setCell t.picture row col (t.line.cell M.font t.reveal c) := rfl

theorem draw_cells (row : Nat) (n : Nat) : ∀ (t : Teletext) (col : Nat),
    SameStore t ((List.range' col n).foldl (fun t col => t.draw M (t.mode7screen row col) row col) t) ∧
      ∀ r j, ((List.range' col n).foldl (fun t col => t.draw M (t.mode7screen row col) row col) t).picture r j =
        if r = row ∧ col ≤ j ∧ j < col + n then
          (t.line.run (t.mode7screen row) col (j - col)).cell M.font t.reveal (t.mode7screen row j)
        else t.picture r j := by
  induction n with
  | zero =>
    intro t col
    refine ⟨SameStore.refl t, ?_⟩
    intro r j
    rw [if_neg (by omega)]
    rfl
  | succ n ih =>
    intro t col
    rw [List.range'_succ, List.foldl_cons]
    obtain ⟨hsame, hpicture⟩ := ih (t.draw M (t.mode7screen row col) row col) (col + 1)
    refine ⟨(draw_same M t _ row col).trans hsame, ?_⟩
    intro r j
    rw [hpicture]
    by_cases hr : r = row
    · subst hr
      rcases Nat.lt_trichotomy j col with hlt | rfl | hgt
      · rw [if_neg (by omega), if_neg (by omega), draw_picture, setCell_other _ _ _ _ (by omega)]
      · rw [if_neg (by omega), if_pos (by omega), draw_picture, setCell_self, Nat.sub_self]
        rfl
      · by_cases hin : j < col + (n + 1)
        · have hstep : j - col = j - (col + 1) + 1 := by omega
          rw [if_pos (by omega), if_pos (by omega), hstep, run_cons]
          rfl
        · rw [if_neg (by omega), if_neg (by omega), draw_picture, setCell_other _ _ _ _ (by omega)]
    · rw [if_neg (by omega), if_neg (by omega), draw_picture, setCell_other _ _ _ _ (by omega)]

theorem re_render_row_spec (t : Teletext) (col row : Nat) :
    SameStore t (t.re_render_row M col row) ∧
      ∀ r j, (t.re_render_row M col row).picture r j =
        if r = row ∧ col ≤ j ∧ j < M.columns then
          (t.line.run (t.mode7screen row) col (j - col)).cell M.font t.reveal (t.mode7screen row j)
        else t.picture r j := by
  obtain ⟨hsame, hpicture⟩ := draw_cells M row (M.columns - col) t col
  refine ⟨hsame, ?_⟩
  intro r j
  rw [Teletext.re_render_row, hpicture]
  by_cases h : r = row ∧ col ≤ j ∧ j < M.columns
  · rw [if_pos h, if_pos (by omega)]
  · rw [if_neg h, if_neg (by omega)]

def Teletext.view (t : Teletext) (row col : Nat) : Picture :=
  ((tt_reset_line_state t.dhCount row t.line).run (t.mode7screen row) 0 col).cell M.font t.reveal
    (t.mode7screen row col)

theorem view_same {t t' : Teletext} (h : SameStore t t') (row col : Nat) : t'.view M row col = t.view M row col := by
  rw [Teletext.view, Teletext.view, h.reveal, h.mode7screen, h.dhCount,
    reset_congr t'.line t.line (d := t.dhCount) rfl]

theorem whole_row_spec (t : Teletext) (row : Nat) :
    SameStore t ((t.resetLine row).re_render_row M 0 row) ∧
      ∀ r j, ((t.resetLine row).re_render_row M 0 row).picture r j =
        if r = row ∧ j < M.columns then t.view M row j else t.picture r j := by
  obtain ⟨hsame, hpicture⟩ := re_render_row_spec M (t.resetLine row) 0 row
  constructor
  · have hreset : SameStore t (t.resetLine row) := ⟨rfl, rfl, rfl, rfl, rfl⟩
    exact hreset.trans hsame
  · intro r j
    rw [hpicture]
    by_cases h : r = row ∧ j < M.columns
    · rw [if_pos h, if_pos ⟨h.1, Nat.zero_le j, h.2⟩]
      rfl
    · rw [if_neg h, if_neg fun hc => h ⟨hc.1, hc.2.2⟩]
      rfl

theorem re_render_rows_spec (rows : List Nat) : ∀ t : Teletext,
    SameStore t (t.re_render_rows M rows) ∧
      ∀ r j, (t.re_render_rows M rows).picture r j =
        if r ∈ rows ∧ j < M.columns then t.view M r j else t.picture r j := by
  induction rows with
  | nil =>
    intro t
    refine ⟨SameStore.refl t, ?_⟩
    intro r j
    rw [if_neg fun h => absurd h.1 List.not_mem_nil]
    rfl
  | cons row rows ih =>
    intro t
    obtain ⟨hrow, hrowPicture⟩ := whole_row_spec M t row
    obtain ⟨hrest, hrestPicture⟩ := ih ((t.resetLine row).re_render_row M 0 row)
    refine ⟨hrow.trans hrest, ?_⟩
    intro r j
    refine (hrestPicture r j).trans ?_
    rw [hrowPicture, view_same M hrow]
    by_cases hj : j < M.columns
    · by_cases hr : r ∈ rows
      · rw [if_pos ⟨hr, hj⟩, if_pos ⟨List.mem_cons_of_mem _ hr, hj⟩]
      · by_cases heq : r = row
        · subst heq
          rw [if_neg fun h => hr h.1, if_pos ⟨rfl, hj⟩, if_pos ⟨List.mem_cons_self, hj⟩]
        · rw [if_neg fun h => hr h.1, if_neg fun h => heq h.1, if_neg fun h => ?_]
          rcases List.mem_cons.mp h.1 with h' | h'
          · exact heq h'
          · exact hr h'
    · rw [if_neg fun h => hj h.2, if_neg fun h => hj h.2, if_neg fun h => hj h.2]

theorem re_render_below_spec (n : Nat) : ∀ (t : Teletext) (s : Nat),
    SameStore t (t.re_render_below M (List.range' s n)) ∧
      ∀ r j, (t.re_render_below M (List.range' s n)).picture r j =
        if (s ≤ r ∧ r < s + n ∧ ∀ k, s ≤ k → k < r → t.dhCount k ≠ 0) ∧ j < M.columns then t.view M r j
        else t.picture r j := by
  induction n with
  | zero =>
    intro t s
    refine ⟨SameStore.refl t, ?_⟩
    intro r j
    rw [if_neg (by omega)]
    rfl
  | succ n ih =>
    intro t s
    obtain ⟨hrow, hrowPicture⟩ := whole_row_spec M t s
    rw [List.range'_succ]
    by_cases hlast : t.dhCount s = 0
    · have hstop : ((t.resetLine s).re_render_row M 0 s).dhCount s = 0 := by
        rw [hrow.dhCount]
        exact hlast
      simp only [Teletext.re_render_below, if_pos hstop]
      refine ⟨hrow, ?_⟩
      intro r j
      rw [hrowPicture]
      by_cases hr : r = s ∧ j < M.columns
      · obtain ⟨rfl, hj⟩ := hr
        rw [if_pos ⟨rfl, hj⟩, if_pos ⟨⟨Nat.le_refl r, by omega, fun k hk hk' => absurd hk (by omega)⟩, hj⟩]
      · rw [if_neg hr, if_neg]
        rintro ⟨⟨hle, -, hall⟩, hj⟩
        have hne : r ≠ s := fun heq => hr ⟨heq, hj⟩
        exact hall s (Nat.le_refl s) (by omega) hlast
    · have hmore : ¬ ((t.resetLine s).re_render_row M 0 s).dhCount s = 0 := by
        rw [hrow.dhCount]
        exact hlast
      obtain ⟨hrest, hrestPicture⟩ := ih ((t.resetLine s).re_render_row M 0 s) (s + 1)
      simp only [Teletext.re_render_below, if_neg hmore]
      refine ⟨hrow.trans hrest, ?_⟩
      intro r j
      rw [hrestPicture, hrowPicture, view_same M hrow, hrow.dhCount]
      by_cases hj : j < M.columns
      · by_cases hr : r = s
        · subst hr
          rw [if_neg (by omega), if_pos ⟨rfl, hj⟩,
            if_pos ⟨⟨Nat.le_refl r, by omega, fun k hk hk' => absurd hk (by omega)⟩, hj⟩]
        · have hiff : (s + 1 ≤ r ∧ r < s + 1 + n ∧ ∀ k, s + 1 ≤ k → k < r → t.dhCount k ≠ 0) ↔
              (s ≤ r ∧ r < s + (n + 1) ∧ ∀ k, s ≤ k → k < r → t.dhCount k ≠ 0) := by
            constructor
            · rintro ⟨hle, hlt, hall⟩
              refine ⟨by omega, by omega, ?_⟩
              intro k hk hk'
              rcases Nat.eq_or_lt_of_le hk with rfl | hgt
              · exact hlast
              · exact hall k hgt hk'
            · rintro ⟨hle, hlt, hall⟩
              exact ⟨by omega, by omega, fun k hk hk' => hall k (by omega) hk'⟩
          by_cases hin : s + 1 ≤ r ∧ r < s + 1 + n ∧ ∀ k, s + 1 ≤ k → k < r → t.dhCount k ≠ 0
          · rw [if_pos ⟨hin, hj⟩, if_pos ⟨hiff.mp hin, hj⟩]
          · rw [if_neg fun h => hin h.1, if_neg fun h => hr h.1, if_neg fun h => hin (hiff.mpr h.1)]
      · rw [if_neg fun h => hj h.2, if_neg fun h => hj h.2, if_neg fun h => hj h.2]

end

end Pi1MHz.Mode7
