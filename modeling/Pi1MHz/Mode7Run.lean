import Pi1MHz.Mode7Render

/-!
# Teletext: incremental drawing

A write draws the character, the rest of its line when a control code is involved, and the rows below as far
as the double height state of the line reaches.
-/

namespace Pi1MHz.Mode7

open History (history final)

/-! ### Double height codes -/

theorem doubles_succ (chars : Nat → UInt8) (n : Nat) :
    doubles chars (n + 1) = doubles chars n + if is_double (chars n) then 1 else 0 := by
  rw [doubles, List.range_succ, List.countP_append, doubles, List.countP_singleton]

theorem doubles_congr {chars chars' : Nat → UInt8} {n : Nat} (h : ∀ j < n, chars j = chars' j) :
    doubles chars n = doubles chars' n := by
  induction n with
  | zero => rfl
  | succ n ih =>
    rw [doubles_succ, doubles_succ, h n (Nat.lt_succ_self n), ih fun j hj => h j (Nat.lt_succ_of_lt hj)]

theorem doubles_update (chars : Nat → UInt8) {col n : Nat} (c : UInt8) (hcol : col < n) :
    (doubles (Function.update chars col c) n + if is_double (chars col) then 1 else 0) =
      doubles chars n + if is_double c then 1 else 0 := by
  induction n with
  | zero => exact absurd hcol (Nat.not_lt_zero col)
  | succ n ih =>
    rw [doubles_succ, doubles_succ]
    rcases Nat.lt_succ_iff_lt_or_eq.mp hcol with hlt | rfl
    · have hne : n ≠ col := by omega
      have hn := ih hlt
      rw [Function.update_of_ne hne]
      omega
    · have hrest : doubles (Function.update chars col c) col = doubles chars col := by
        apply doubles_congr
        intro j hj
        exact Function.update_of_ne (Nat.ne_of_lt hj) c chars
      rw [Function.update_self, hrest]
      omega

theorem double_control {c : UInt8} (h : is_double c = true) : is_control c = true := by
  have hc : c &&& 0x7F = TT_DOUBLE := of_decide_eq_true h
  have hmask : (0x60 : UInt8) = 0x7F &&& 0x60 := by decide
  apply decide_eq_true
  rw [hmask, ← UInt8.and_assoc, hc]
  decide

section

variable (M : Mode)

theorem count_loop (chars : Nat → UInt8) (cols : List Nat) (n : Nat) :
    cols.foldl (fun n col => if is_double (chars col) then n + 1 else n) n =
      n + cols.countP fun col => is_double (chars col) := by
  induction cols generalizing n with
  | nil => rfl
  | cons col cols ih =>
    rw [List.foldl_cons, ih, List.countP_cons]
    split
    · omega
    · rfl

theorem update_double_height_counts_row (t : Teletext) {row : Nat} (hrow : row < M.rows) :
    (t.update_double_height_counts M).dhCount row = doubles (t.mode7screen row) M.columns := by
  simp only [Teletext.update_double_height_counts, if_pos hrow, count_loop, Nat.zero_add, doubles]

/-! ### Drawn from scratch -/

theorem renderAll_picture (t : Teletext) {row col : Nat} (hrow : row < M.rows) (hcol : col < M.columns) :
    (t.renderAll M).picture row col = t.look M row col := by
  obtain ⟨-, hpicture⟩ := re_render_rows_spec M (List.range M.rows) { t with dhCount := t.trueCounts M }
  rw [Teletext.renderAll, hpicture, if_pos ⟨List.mem_range.mpr hrow, hcol⟩]
  rfl

theorem upToDate_iff (t : Teletext) :
    UpToDate M t ↔ (∀ row < M.rows, t.dhCount row = t.trueCounts M row) ∧
      ∀ row < M.rows, ∀ col < M.columns, t.picture row col = t.look M row col := by
  constructor
  · intro h
    refine ⟨h.counts, ?_⟩
    intro row hrow col hcol
    rw [h.cells row hrow col hcol, renderAll_picture M t hrow hcol]
  · rintro ⟨hcounts, hcells⟩
    constructor
    · exact hcounts
    · intro row hrow col hcol
      rw [hcells row hrow col hcol, renderAll_picture M t hrow hcol]

variable {M} {t : Teletext}

theorem view_eq_look (hcounts : ∀ row < M.rows, t.dhCount row = t.trueCounts M row) {row : Nat}
    (hrow : row < M.rows) (col : Nat) : t.view M row col = t.look M row col := by
  have hbottom : double_bottom t.dhCount row = double_bottom (t.trueCounts M) row := by
    apply double_bottom_congr
    intro r hr
    rw [hcounts r (Nat.lt_trans hr hrow)]
  rw [Teletext.view, Teletext.look, Teletext.lineAt, reset_congr t.line t.line hbottom]

theorem look_congr {t' : Teletext} (hscreen : t'.mode7screen = t.mode7screen) (hreveal : t'.reveal = t.reveal)
    (row col : Nat) : t'.look M row col = t.look M row col := by
  have hcounts : t'.trueCounts M = t.trueCounts M := by
    unfold Teletext.trueCounts
    rw [hscreen]
  rw [Teletext.look, Teletext.look, Teletext.lineAt, Teletext.lineAt, hscreen, hreveal, hcounts,
    reset_congr t'.line t.line (d := t.trueCounts M) rfl]

theorem rows_upToDate (hcounts : ∀ row < M.rows, t.dhCount row = t.trueCounts M row) :
    UpToDate M (t.re_render_rows M (List.range M.rows)) := by
  obtain ⟨hsame, hpicture⟩ := re_render_rows_spec M (List.range M.rows) t
  apply (upToDate_iff M _).mpr
  constructor
  · intro row hrow
    rw [hsame.dhCount, hcounts row hrow, Teletext.trueCounts, Teletext.trueCounts, hsame.mode7screen]
  · intro row hrow col hcol
    rw [hpicture, if_pos ⟨List.mem_range.mpr hrow, hcol⟩, view_eq_look hcounts hrow,
      look_congr hsame.mode7screen hsame.reveal]

theorem scroll_upToDate (window : Window M) (dir : ScrollDir) : UpToDate M (tt_scroll M t window dir) := by
  apply rows_upToDate
  intro row hrow
  exact update_double_height_counts_row M _ hrow

theorem reveal_upToDate (h : UpToDate M t) (mode mask : UInt8) : UpToDate M (set_reveal M t mode mask) := by
  by_cases hchange : ((t.reveal &&& mask) ^^^ mode) &&& 1 ≠ t.reveal
  · have hcounts := ((upToDate_iff M t).mp h).1
    have hdrawn := (upToDate_iff M _).mp (rows_upToDate (M := M)
      (t := { t with reveal := ((t.reveal &&& mask) ^^^ mode) &&& 1 }) hcounts)
    simp only [set_reveal, if_pos hchange]
    exact (upToDate_iff M _).mpr hdrawn
  · simp only [set_reveal, if_neg hchange]
    exact h

theorem clear_upToDate_iff (h : UpToDate M t) (window : Option (Window M)) (bgCol : UInt8) :
    UpToDate M (tt_clear M t window bgCol) ↔ Plain M t (.clear window bgCol) := by
  obtain ⟨-, hcells⟩ := (upToDate_iff M t).mp h
  have hcounts : ∀ row < M.rows,
      (tt_clear M t window bgCol).dhCount row = (tt_clear M t window bgCol).trueCounts M row := by
    intro row hrow
    exact update_double_height_counts_row M _ hrow
  have hcell : ∀ row < M.rows, ∀ col < M.columns,
      ((tt_clear M t window bgCol).picture row col = (tt_clear M t window bgCol).look M row col ↔
        if cleared M window row col then ((tt_clear M t window bgCol).lineAt M row col).bgdColour = bgCol
        else (tt_clear M t window bgCol).look M row col = t.look M row col) := by
    intro row hrow col hcol
    by_cases hin : cleared M window row col = true
    · have hpicture : (tt_clear M t window bgCol).picture row col = fun _ _ => bgCol := if_pos hin
      have hspace : (tt_clear M t window bgCol).mode7screen row col = TT_SPACE := if_pos hin
      rw [if_pos hin, hpicture, Teletext.look, hspace, cell_space]
      constructor
      · intro heq
        exact (congrFun (congrFun heq 0) 0).symm
      · intro heq
        rw [heq]
    · have hpicture : (tt_clear M t window bgCol).picture row col = t.picture row col := if_neg hin
      rw [if_neg hin, hpicture, hcells row hrow col hcol]
      exact eq_comm
  rw [upToDate_iff]
  constructor
  · rintro ⟨-, hall⟩ row hrow col hcol
    exact (hcell row hrow col hcol).mp (hall row hrow col hcol)
  · intro hplain
    refine ⟨hcounts, ?_⟩
    intro row hrow col hcol
    exact (hcell row hrow col hcol).mpr (hplain row hrow col hcol)

/-! ### Writing -/

theorem lineAt_succ (t : Teletext) (row : Nat) {col j : Nat} (hj : col < j) :
    t.lineAt M row j =
      ((t.lineAt M row col).advance (t.mode7screen row col)).run (t.mode7screen row) (col + 1) (j - (col + 1)) := by
  have hsplit : j = col + (j - (col + 1) + 1) := by omega
  rw [Teletext.lineAt]
  conv_lhs => rw [hsplit, run_add, Nat.zero_add, run_cons]
  rfl

theorem advance_loop (t : Teletext) (row n : Nat) :
    SameStore t ((List.range n).foldl (fun t i => { t with line := t.line.advance (t.mode7screen row i) }) t) ∧
      ((List.range n).foldl (fun t i => { t with line := t.line.advance (t.mode7screen row i) }) t).picture =
        t.picture ∧
      ((List.range n).foldl (fun t i => { t with line := t.line.advance (t.mode7screen row i) }) t).line =
        t.line.run (t.mode7screen row) 0 n := by
  induction n with
  | zero => exact ⟨SameStore.refl t, rfl, rfl⟩
  | succ n ih =>
    obtain ⟨hsame, hpicture, hline⟩ := ih
    simp only [List.range_succ, List.foldl_append, List.foldl_cons, List.foldl_nil]
    refine ⟨hsame.trans ⟨rfl, rfl, rfl, rfl, rfl⟩, hpicture, ?_⟩
    rw [hline, hsame.mode7screen, Line.run, Nat.zero_add]

theorem reach_spec (hcounts : ∀ row < M.rows, t.dhCount row = t.trueCounts M row) {row : Nat} (hrow : row < M.rows)
    (col : Nat) :
    SameStore t (t.reach row col) ∧ (t.reach row col).picture = t.picture ∧
      (t.reach row col).line = t.carried M row col := by
  unfold Teletext.reach Teletext.carried
  split
  · exact ⟨SameStore.refl t, rfl, rfl⟩
  · obtain ⟨hsame, hpicture, hline⟩ := advance_loop (t.resetLine row) row col
    have hbottom : double_bottom t.dhCount row = double_bottom (t.trueCounts M) row := by
      apply double_bottom_congr
      intro r hr
      rw [hcounts r (Nat.lt_trans hr hrow)]
    have hreset : SameStore t (t.resetLine row) := ⟨rfl, rfl, rfl, rfl, rfl⟩
    refine ⟨hreset.trans hsame, hpicture, ?_⟩
    rw [hline, Teletext.lineAt, ← reset_congr t.line t.line hbottom]
    rfl

structure Replaced (t t' : Teletext) (row col : Nat) (c : UInt8) : Prop where
  mode7screen : t'.mode7screen = setCell t.mode7screen row col c
  reveal : t'.reveal = t.reveal

section Replaced

variable {t' : Teletext} {row col : Nat} {c : UInt8}

theorem Replaced.counts_other (h : Replaced t t' row col c) {r : Nat} (hr : r ≠ row) :
    t'.trueCounts M r = t.trueCounts M r := by
  rw [Teletext.trueCounts, h.mode7screen, setCell_other_row _ _ _ _ hr, Teletext.trueCounts]

theorem Replaced.counts_row (h : Replaced t t' row col c) (hcol : col < M.columns) :
    (t'.trueCounts M row + if is_double (t.mode7screen row col) then 1 else 0) =
      t.trueCounts M row + if is_double c then 1 else 0 := by
  rw [Teletext.trueCounts, h.mode7screen, setCell_row, Teletext.trueCounts]
  exact doubles_update _ c hcol

theorem Replaced.look_other (h : Replaced t t' row col c) {r : Nat} (hr : r ≠ row)
    (hbottom : double_bottom (t'.trueCounts M) r = double_bottom (t.trueCounts M) r) (j : Nat) :
    t'.look M r j = t.look M r j := by
  rw [Teletext.look, Teletext.look, Teletext.lineAt, Teletext.lineAt, h.reveal, h.mode7screen,
    setCell_other_row _ _ _ _ hr, reset_congr t'.line t.line hbottom]

theorem Replaced.bottom_row (h : Replaced t t' row col c) :
    double_bottom (t'.trueCounts M) row = double_bottom (t.trueCounts M) row := by
  apply double_bottom_congr
  intro r hr
  rw [h.counts_other (Nat.ne_of_lt hr)]

theorem Replaced.lineAt_left (h : Replaced t t' row col c) {j : Nat} (hj : j ≤ col) :
    t'.lineAt M row j = t.lineAt M row j := by
  rw [Teletext.lineAt, Teletext.lineAt, reset_congr t'.line t.line h.bottom_row, h.mode7screen, setCell_row]
  apply run_congr
  intro i _ hi
  have hne : i ≠ col := by omega
  exact Function.update_of_ne hne _ _

theorem Replaced.look_left (h : Replaced t t' row col c) {j : Nat} (hj : j < col) :
    t'.look M row j = t.look M row j := by
  rw [Teletext.look, Teletext.look, h.lineAt_left (Nat.le_of_lt hj), h.reveal, h.mode7screen, setCell_row,
    Function.update_of_ne (Nat.ne_of_lt hj)]

theorem Replaced.look_self (h : Replaced t t' row col c) :
    t'.look M row col = (t.lineAt M row col).cell M.font t.reveal c := by
  rw [Teletext.look, h.lineAt_left (Nat.le_refl col), h.reveal, h.mode7screen, setCell_self]

def Teletext.rest (M : Mode) (t : Teletext) (row col : Nat) (l : Line) (j : Nat) : Picture :=
  (l.run (t.mode7screen row) (col + 1) (j - (col + 1))).cell M.font t.reveal (t.mode7screen row j)

theorem look_right (t : Teletext) (row : Nat) {col j : Nat} (hj : col < j) :
    t.look M row j = t.rest M row col ((t.lineAt M row col).advance (t.mode7screen row col)) j := by
  rw [Teletext.look, lineAt_succ t row hj, Teletext.rest]

theorem Replaced.rest (h : Replaced t t' row col c) (l : Line) {j : Nat} (hj : col < j) :
    t'.rest M row col l j = t.rest M row col l j := by
  have hsame : ∀ i, col + 1 ≤ i → t'.mode7screen row i = t.mode7screen row i := by
    intro i hi
    rw [h.mode7screen, setCell_row, Function.update_of_ne (by omega)]
  rw [Teletext.rest, Teletext.rest, h.reveal, hsame j hj, run_congr l fun i hi _ => hsame i hi]

theorem Replaced.look_right (h : Replaced t t' row col c) {j : Nat} (hj : col < j) :
    t'.look M row j = t.rest M row col ((t.lineAt M row col).advance c) j := by
  rw [Mode7.look_right t' row hj, h.rest _ hj, h.lineAt_left (Nat.le_refl col), h.mode7screen, setCell_self]

theorem Replaced.upToDate_iff (h : Replaced t t' row col c) (hrow : row < M.rows) (hcol : col < M.columns)
    {l l₁ : Line} (hcounts : ∀ r < M.rows, t'.dhCount r = t'.trueCounts M r)
    (hothers : ∀ r < M.rows, r ≠ row → ∀ j < M.columns, t'.picture r j = t'.look M r j)
    (hleft : ∀ j < col, t'.picture row j = t.look M row j)
    (hself : t'.picture row col = l.cell M.font t.reveal c)
    (hright : ∀ j, col < j → j < M.columns → t'.picture row j = t.rest M row col l₁ j) :
    UpToDate M t' ↔ l.cell M.font t.reveal c = (t.lineAt M row col).cell M.font t.reveal c ∧
      t.Alike M row (col + 1) l₁ ((t.lineAt M row col).advance c) := by
  rw [Mode7.upToDate_iff]
  constructor
  · rintro ⟨-, hcells⟩
    constructor
    · rw [← hself, hcells row hrow col hcol, h.look_self]
    · intro j hj hlt
      exact (hright j hj hlt).symm.trans ((hcells row hrow j hlt).trans (h.look_right hj))
  · rintro ⟨hcell, halike⟩
    refine ⟨hcounts, ?_⟩
    intro r hr j hj
    by_cases heq : r = row
    · subst heq
      rcases Nat.lt_trichotomy j col with hlt | rfl | hgt
      · rw [hleft j hlt, h.look_left hlt]
      · rw [hself, hcell, h.look_self]
      · rw [hright j hgt hj, h.look_right hgt]
        exact halike j hgt hj
    · exact hothers r hr heq j hj

end Replaced

def newCount (n : Nat) (c oldc : UInt8) : Nat :=
  let n := if is_double c then n + 1 else n
  if is_double oldc then n - 1 else n

def Teletext.written (M : Mode) (t : Teletext) (row col : Nat) (c : UInt8) : Teletext :=
  { (t.reach row col).draw M c row col with
    mode7screen := setCell ((t.reach row col).draw M c row col).mode7screen row col c }

theorem write_plain (t : Teletext) (col row : Nat) (c : UInt8)
    (h : involved (remap c) (t.mode7screen row col) = false)
    (hscreen : ((t.reach row col).draw M (remap c) row col).mode7screen = t.mode7screen) :
    tt_write_character M t c col row = { t.written M row col (remap c) with lastRow := row, lastCol := col } := by
  simp only [tt_write_character, hscreen, h, Bool.false_eq_true, if_false, Teletext.written]

theorem write_involved (t : Teletext) (col row : Nat) (c : UInt8)
    (h : involved (remap c) (t.mode7screen row col) = true)
    (hscreen : ((t.reach row col).draw M (remap c) row col).mode7screen = t.mode7screen)
    (hcount : ((t.reach row col).draw M (remap c) row col).dhCount = t.dhCount) :
    let u := { t.written M row col (remap c) with
      dhCount := Function.update t.dhCount row (newCount (t.dhCount row) (remap c) (t.mode7screen row col)) }
    let v := u.re_render_row M (col + 1) row
    tt_write_character M t c col row =
      { (if decide (newCount (t.dhCount row) (remap c) (t.mode7screen row col) ≠ 0) = decide (t.dhCount row ≠ 0)
          then v else v.re_render_below M (List.range' (row + 1) (M.rows - (row + 1)))) with
        lastRow := -1, lastCol := -1 } := by
  simp only [tt_write_character, hscreen, hcount, h, if_true, Teletext.written, Function.update_self, newCount]
  rfl

section Write

variable (h : UpToDate M t) {row col : Nat} (hrow : row < M.rows) (hcol : col < M.columns) (c : UInt8)

include h hrow

theorem written_spec (col : Nat) :
    Replaced t (t.written M row col c) row col c ∧ (t.written M row col c).dhCount = t.dhCount ∧
      (t.written M row col c).line = (t.carried M row col).advance c ∧
      (t.written M row col c).picture =
        setCell t.picture row col ((t.carried M row col).cell M.font t.reveal c) := by
  obtain ⟨hcounts, -⟩ := (Mode7.upToDate_iff M t).mp h
  obtain ⟨hsame, hpicture, hline⟩ := reach_spec hcounts hrow col
  refine ⟨⟨?_, hsame.reveal⟩, hsame.dhCount, ?_, ?_⟩
  · show setCell (t.reach row col).mode7screen row col c = _
    rw [hsame.mode7screen]
  · show (t.reach row col).line.advance c = _
    rw [hline]
  · show setCell (t.reach row col).picture row col ((t.reach row col).line.cell M.font (t.reach row col).reveal c) = _
    rw [hpicture, hline, hsame.reveal]

theorem written_left {r j : Nat} (hj : ¬ (r = row ∧ j = col)) :
    (t.written M row col c).picture r j = t.picture r j := by
  obtain ⟨-, -, -, hpicture⟩ := written_spec h hrow c col
  rw [hpicture, setCell_other _ _ _ _ hj]

theorem written_self :
    (t.written M row col c).picture row col = (t.carried M row col).cell M.font t.reveal c := by
  obtain ⟨-, -, -, hpicture⟩ := written_spec h hrow c col
  rw [hpicture, setCell_self]

include hcol

theorem plain_upToDate_iff (hnot : involved c (t.mode7screen row col) = false) (lastRow lastCol : Int) :
    UpToDate M { t.written M row col c with lastRow := lastRow, lastCol := lastCol } ↔
      (t.carried M row col).cell M.font t.reveal c = (t.lineAt M row col).cell M.font t.reveal c ∧
        t.Alike M row (col + 1) ((t.lineAt M row col).advance (t.mode7screen row col))
          ((t.lineAt M row col).advance c) := by
  obtain ⟨hcounts, hcells⟩ := (Mode7.upToDate_iff M t).mp h
  obtain ⟨hreplaced, hdh, -, -⟩ := written_spec h hrow c col
  have hr : Replaced t { t.written M row col c with lastRow := lastRow, lastCol := lastCol } row col c :=
    ⟨hreplaced.mode7screen, hreplaced.reveal⟩
  have hdouble : is_double c = is_double (t.mode7screen row col) := by
    by_cases heq : c = t.mode7screen row col
    · rw [heq]
    · have hcontrol : is_control c = false ∧ is_control (t.mode7screen row col) = false := by
        simpa only [involved, heq, ne_eq, not_false_eq_true, decide_true, Bool.true_and,
          Bool.or_eq_false_iff] using hnot
      have hc : is_double c = false := by
        by_contra hne
        exact Bool.false_ne_true (hcontrol.1.symm.trans (double_control (Bool.not_eq_false _ ▸ hne)))
      have hold : is_double (t.mode7screen row col) = false := by
        by_contra hne
        exact Bool.false_ne_true (hcontrol.2.symm.trans (double_control (Bool.not_eq_false _ ▸ hne)))
      rw [hc, hold]
  have htrue : ∀ r, Teletext.trueCounts M { t.written M row col c with lastRow := lastRow, lastCol := lastCol } r =
      t.trueCounts M r := by
    intro r
    by_cases heq : r = row
    · subst heq
      have hrowCount := hr.counts_row hcol
      rw [hdouble] at hrowCount
      exact Nat.add_right_cancel hrowCount
    · exact hr.counts_other heq
  have hbottom : ∀ r, double_bottom
      (Teletext.trueCounts M { t.written M row col c with lastRow := lastRow, lastCol := lastCol }) r =
      double_bottom (t.trueCounts M) r := by
    intro r
    apply double_bottom_congr
    intro r' _
    rw [htrue]
  apply hr.upToDate_iff hrow hcol
  · intro r hlt
    rw [htrue]
    exact (congrFun hdh r).trans (hcounts r hlt)
  · intro r hlt hne j hj
    rw [hr.look_other hne (hbottom r)]
    exact (written_left h hrow c fun hc => hne hc.1).trans (hcells r hlt j hj)
  · intro j hj
    exact (written_left h hrow c fun hc => Nat.ne_of_lt hj hc.2).trans
      (hcells row hrow j (Nat.lt_trans hj hcol))
  · exact written_self h hrow c
  · intro j hj hlt
    exact (written_left h hrow c fun hc => Nat.ne_of_gt hj hc.2).trans
      ((hcells row hrow j hlt).trans (look_right t row hj))

theorem newCount_true {t' : Teletext} (hr : Replaced t t' row col c) :
    newCount (t.dhCount row) c (t.mode7screen row col) = t'.trueCounts M row := by
  obtain ⟨hcounts, -⟩ := (Mode7.upToDate_iff M t).mp h
  have hrowCount := hr.counts_row hcol
  rw [hcounts row hrow]
  unfold newCount
  by_cases hc : is_double c = true
  · by_cases hold : is_double (t.mode7screen row col) = true
    · rw [if_pos hc, if_pos hold] at hrowCount
      simp only [if_pos hc, if_pos hold]
      omega
    · rw [if_pos hc, if_neg hold] at hrowCount
      simp only [if_pos hc, if_neg hold]
      omega
  · by_cases hold : is_double (t.mode7screen row col) = true
    · rw [if_neg hc, if_pos hold] at hrowCount
      simp only [if_neg hc, if_pos hold]
      omega
    · rw [if_neg hc, if_neg hold] at hrowCount
      simp only [if_neg hc, if_neg hold]
      omega

/-- The state before the rows below are drawn: the counts are right, and the line is drawn from the line
state that was carried over. -/
theorem line_drawn {v : Teletext}
    (hv : v = Teletext.re_render_row M { t.written M row col c with
      dhCount := Function.update t.dhCount row (newCount (t.dhCount row) c (t.mode7screen row col)) } (col + 1) row) :
    Replaced t v row col c ∧ (∀ r < M.rows, v.dhCount r = v.trueCounts M r) ∧
      (∀ r j, r ≠ row ∨ j < col → v.picture r j = t.picture r j) ∧
      v.picture row col = (t.carried M row col).cell M.font t.reveal c ∧
      ∀ j, col < j → j < M.columns → v.picture row j = t.rest M row col ((t.carried M row col).advance c) j := by
  obtain ⟨hcounts, -⟩ := (Mode7.upToDate_iff M t).mp h
  obtain ⟨hreplaced, hdh, hline, -⟩ := written_spec h hrow c col
  obtain ⟨hsame, hpicture⟩ := re_render_row_spec M { t.written M row col c with
    dhCount := Function.update t.dhCount row (newCount (t.dhCount row) c (t.mode7screen row col)) } (col + 1) row
  rw [← hv] at hsame hpicture
  have hr : Replaced t v row col c := by
    constructor
    · rw [hsame.mode7screen]
      exact hreplaced.mode7screen
    · rw [hsame.reveal]
      exact hreplaced.reveal
  have hkept : ∀ r j, ¬ (r = row ∧ col + 1 ≤ j ∧ j < M.columns) →
      v.picture r j = (t.written M row col c).picture r j := by
    intro r j hnot
    rw [hpicture, if_neg hnot]
  refine ⟨hr, ?_, ?_, ?_, ?_⟩
  · intro r hlt
    rw [hsame.dhCount]
    show Function.update t.dhCount row _ r = _
    by_cases heq : r = row
    · subst heq
      rw [Function.update_self]
      exact newCount_true h hrow hcol c hr
    · rw [Function.update_of_ne heq, hr.counts_other heq]
      exact hcounts r hlt
  · rintro r j (hne | hlt)
    · rw [hkept r j fun hc => hne hc.1]
      exact written_left h hrow c fun hc => hne hc.1
    · rw [hkept r j (by omega)]
      exact written_left h hrow c fun hc => Nat.ne_of_lt hlt hc.2
  · rw [hkept row col (by omega)]
    exact written_self h hrow c
  · intro j hj hlt
    rw [hpicture, if_pos ⟨rfl, hj, hlt⟩, ← hr.rest _ hj, Teletext.rest, hsame.reveal, hsame.mode7screen, hline]

omit h hrow hcol in
theorem bottom_unchanged {v : Teletext} (hr : Replaced t v row col c) {r : Nat}
    (hwhen : (0 < v.trueCounts M row ↔ 0 < t.trueCounts M row) ∨ r < row ∨
      ∃ k, row < k ∧ k < r ∧ v.trueCounts M k = 0) :
    double_bottom (v.trueCounts M) r = double_bottom (t.trueCounts M) r := by
  rcases hwhen with hstate | hlt | ⟨k, hk, hkr, hzero⟩
  · apply double_bottom_congr
    intro r' _
    by_cases heq : r' = row
    · rw [heq]
      exact hstate
    · rw [hr.counts_other heq]
  · apply double_bottom_congr
    intro r' hr'
    rw [hr.counts_other (by omega)]
  · apply double_bottom_below hzero _ hkr
    · intro r' hk' _
      exact hr.counts_other (by omega)
    · rw [← hr.counts_other (M := M) (by omega : k ≠ row)]
      exact hzero

theorem involved_upToDate_iff {v w : Teletext}
    (hv : v = Teletext.re_render_row M { t.written M row col c with
      dhCount := Function.update t.dhCount row (newCount (t.dhCount row) c (t.mode7screen row col)) } (col + 1) row)
    (hw : w = if decide (newCount (t.dhCount row) c (t.mode7screen row col) ≠ 0) = decide (t.dhCount row ≠ 0)
      then v else v.re_render_below M (List.range' (row + 1) (M.rows - (row + 1)))) (lastRow lastCol : Int) :
    UpToDate M { w with lastRow := lastRow, lastCol := lastCol } ↔
      (t.carried M row col).cell M.font t.reveal c = (t.lineAt M row col).cell M.font t.reveal c ∧
        t.Alike M row (col + 1) ((t.carried M row col).advance c) ((t.lineAt M row col).advance c) := by
  obtain ⟨hcounts, hcells⟩ := (Mode7.upToDate_iff M t).mp h
  obtain ⟨hr, hvcounts, hkept, hself, hright⟩ := line_drawn h hrow hcol c hv
  have hnew := newCount_true h hrow hcol c hr
  have hbefore : ∀ r < M.rows, ∀ j < M.columns, r ≠ row →
      double_bottom (v.trueCounts M) r = double_bottom (t.trueCounts M) r → v.picture r j = v.look M r j := by
    intro r hlt j hj hne hbottom
    rw [hkept r j (.inl hne), hcells r hlt j hj, hr.look_other hne hbottom]
  have hrows : SameStore v w ∧ (∀ j, w.picture row j = v.picture row j) ∧
      ∀ r < M.rows, r ≠ row → ∀ j < M.columns, w.picture r j = v.look M r j := by
    by_cases hstate : decide (newCount (t.dhCount row) c (t.mode7screen row col) ≠ 0) = decide (t.dhCount row ≠ 0)
    · rw [if_pos hstate] at hw
      subst hw
      refine ⟨SameStore.refl w, fun _ => rfl, ?_⟩
      intro r hlt hne j hj
      apply hbefore r hlt j hj hne
      apply bottom_unchanged c hr
      left
      rw [← hnew, ← hcounts row hrow, Nat.pos_iff_ne_zero, Nat.pos_iff_ne_zero]
      exact decide_eq_decide.mp hstate
    · rw [if_neg hstate] at hw
      obtain ⟨hsame, hpicture⟩ := re_render_below_spec M (M.rows - (row + 1)) v (row + 1)
      rw [← hw] at hsame hpicture
      refine ⟨hsame, ?_, ?_⟩
      · intro j
        rw [hpicture, if_neg (by omega)]
      · intro r hlt hne j hj
        rw [hpicture]
        by_cases hdrawn : row + 1 ≤ r ∧ r < row + 1 + (M.rows - (row + 1)) ∧
            ∀ k, row + 1 ≤ k → k < r → v.dhCount k ≠ 0
        · rw [if_pos ⟨hdrawn, hj⟩]
          exact view_eq_look hvcounts hlt j
        · rw [if_neg fun hc => hdrawn hc.1]
          apply hbefore r hlt j hj hne
          apply bottom_unchanged c hr
          right
          rcases Nat.lt_or_gt_of_ne hne with hless | hgt
          · exact .inl hless
          · right
            by_contra hnone
            apply hdrawn
            refine ⟨hgt, by omega, ?_⟩
            intro k hk hkr hzero
            apply hnone
            refine ⟨k, hk, hkr, ?_⟩
            rw [← hvcounts k (Nat.lt_trans hkr hlt)]
            exact hzero
  obtain ⟨hsame, hline, hother⟩ := hrows
  have hw' : Replaced t { w with lastRow := lastRow, lastCol := lastCol } row col c :=
    ⟨hsame.mode7screen.trans hr.mode7screen, hsame.reveal.trans hr.reveal⟩
  have hlook : ∀ r j, Teletext.look M { w with lastRow := lastRow, lastCol := lastCol } r j = v.look M r j := by
    intro r j
    exact look_congr hsame.mode7screen hsame.reveal r j
  apply hw'.upToDate_iff hrow hcol
  · intro r hlt
    have hsameTrue : Teletext.trueCounts M { w with lastRow := lastRow, lastCol := lastCol } r = v.trueCounts M r := by
      unfold Teletext.trueCounts
      rw [hsame.mode7screen]
    rw [hsameTrue, ← hvcounts r hlt]
    exact congrFun hsame.dhCount r
  · intro r hlt hne j hj
    rw [hlook]
    exact hother r hlt hne j hj
  · intro j hj
    exact (hline j).trans ((hkept row j (.inr hj)).trans (hcells row hrow j (Nat.lt_trans hj hcol)))
  · exact (hline col).trans hself
  · intro j hj hlt
    exact (hline j).trans (hright j hj hlt)

end Write

theorem write_upToDate_iff (h : UpToDate M t) (c : UInt8) (col : Fin M.columns) (row : Fin M.rows) :
    UpToDate M (tt_write_character M t c col row) ↔ Plain M t (.write c col row) := by
  obtain ⟨hcounts, -⟩ := (Mode7.upToDate_iff M t).mp h
  obtain ⟨hsame, -, -⟩ := reach_spec hcounts row.isLt col
  cases hin : involved (remap c) (t.mode7screen row col) with
  | false =>
    rw [write_plain t col row c hin hsame.mode7screen, plain_upToDate_iff h row.isLt col.isLt (remap c) hin]
    simp only [Plain, hin, Bool.false_eq_true, if_false]
  | true =>
    rw [write_involved t col row c hin hsame.mode7screen hsame.dhCount]
    refine (involved_upToDate_iff h row.isLt col.isLt (remap c) rfl rfl (-1) (-1)).trans ?_
    simp only [Plain, hin, if_true]

theorem step_upToDate_iff (h : UpToDate M t) (e : Event M) : UpToDate M (t.step M e) ↔ Plain M t e := by
  cases e with
  | write c col row => exact write_upToDate_iff h c col row
  | clear window bgCol => exact clear_upToDate_iff h window bgCol
  | scroll window dir => exact ⟨fun _ => trivial, fun _ => scroll_upToDate window dir⟩
  | reveal mode mask => exact ⟨fun _ => trivial, fun _ => reveal_upToDate h mode mask⟩

theorem start_upToDate (t : Teletext) : UpToDate M (t.start M) := by
  have hcounts : ∀ row < M.rows, (t.start M).dhCount row = (t.start M).trueCounts M row := by
    intro row hrow
    exact update_double_height_counts_row M _ hrow
  have hblank : ∀ n, doubles (fun _ => TT_SPACE) n = 0 := by
    intro n
    induction n with
    | zero => rfl
    | succ n ih =>
      rw [doubles_succ, ih]
      rfl
  have hspaces : ∀ row, (t.start M).mode7screen row = fun _ => TT_SPACE := fun row => rfl
  apply (Mode7.upToDate_iff M _).mpr
  refine ⟨hcounts, ?_⟩
  intro row hrow col hcol
  have hbgd : ∀ n, (Line.run (tt_reset_line_state ((t.start M).trueCounts M) row (t.start M).line)
      (fun _ => TT_SPACE) 0 n).bgdColour = 0 := by
    intro n
    induction n with
    | zero =>
      rw [Line.run, reset_fgd]
    | succ n ih =>
      rw [Line.run, Line.advance, set_at_space, hold_char_space]
      split
      · exact ih
      · exact ih
  rw [Teletext.look, Teletext.lineAt, hspaces, cell_space, hbgd]
  rfl

end

/-- After the mode is selected the screen is up to date, and it stays so exactly as long as every step is
plain. -/
theorem mode7_incremental (M : Mode) (t : Teletext) (events : List (Event M)) :
    UpToDate M (t.start M) ∧
      ((∀ st ∈ history (Teletext.step M) (t.start M) events, Plain M st.pre st.op) ↔
        ∀ st ∈ history (Teletext.step M) (t.start M) events, UpToDate M st.post) := by
  refine ⟨start_upToDate t, ?_⟩
  exact History.exact_induction (Teletext.step M) (UpToDate M) (Plain M) (start_upToDate t)
    (fun t e h => step_upToDate_iff h e) events

def blocks : Font where
  bit c _ _ := c ≠ 0x20 ∧ c ≠ 0x80 ∧ c ≠ 0xC0
  space _ _ := by decide
  contiguous _ _ := by decide
  separated _ _ := by decide

def small : Mode := ⟨blocks, 4, 2⟩

def smallCell (c : UInt8) (col : Fin 4) : Event small := .write c col (0 : Fin 2)

def dark : Teletext where
  line := tt_reset_line_state (fun _ => 0) 0 ⟨0, 0, false, false, false, false, false, false, false, 0, false⟩
  lastRow := -1
  lastCol := -1
  reveal := 0
  mode7screen _ _ := TT_SPACE
  dhCount _ := 0
  picture _ _ _ _ := 0

/-- Red, a letter, the screen cleared, and the letter beside it: it is drawn red on a screen that has no
code for red. -/
theorem cleared_line_still_red :
    ¬ ∀ (M : Mode) (t : Teletext) (events : List (Event M)),
      ∀ st ∈ history (Teletext.step M) (t.start M) events, UpToDate M st.post := by
  intro hall
  have hclaim := hall small dark [smallCell TT_A_RED 0, smallCell 0x41 1, .clear none 0, smallCell 0x42 2]
  have hlast := (hclaim _ (.tail _ (.tail _ (.tail _ (.head _))))).cells 0 (by decide) 2 (by decide)
  exact absurd (congrFun (congrFun hlast 0) 0) (by decide)

end Pi1MHz.Mode7
