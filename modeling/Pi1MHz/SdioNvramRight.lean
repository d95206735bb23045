import Pi1MHz.SdioNvram

/-!
# When the NVRAM comes out right

The NVRAM as `sdio_cyw43_condense_nvram` leaves it against the lines it was given, the buffer that was
allocated for it, and its place above the firmware.
-/

namespace Pi1MHz.SdioNvram

/-! ### NULs that are missing -/

section Cuts

variable {ls : List Bytes} {line : Bytes}

theorem condensed_eq (text : Bytes) : condensed text = padded ((lines text).flatMap keptLine ++ [0]) := by
  have hkept (ls : List Bytes) : ((ls.map clean).filter (· ≠ [])).flatMap (· ++ [0]) = ls.flatMap keptLine := by
    induction ls with
    | nil => rfl
    | cons line ls ih =>
      rw [List.map_cons, List.filter_cons, List.flatMap_cons, ← ih, keptLine]
      by_cases h : clean line = []
      · simp [h]
      · simp [h]
  rw [condensed, hkept]

theorem endedLine_of_not_cut (h : ¬Cut line) : endedLine line = keptLine line := by
  rw [endedLine, keptLine]
  congr 1
  have hiff : Ended line ↔ clean line ≠ [] := by
    constructor
    · exact And.right
    · intro hkept
      exact ⟨fun hhash => h ⟨hhash, hkept⟩, hkept⟩
  exact if_congr hiff rfl rfl

theorem endedLine_of_cut (h : Cut line) : endedLine line = clean line := by
  rw [endedLine, if_neg fun hended => hended.1 h.1, List.append_nil]

theorem keptLine_of_cut (h : Cut line) : keptLine line = clean line ++ [0] := by
  rw [keptLine, if_pos h.2]

def lead (out : Bytes) : Nat := (out.takeWhile (· = 0)).length

theorem lead_append_of_zero {a : Bytes} (h : ∀ c ∈ a, c = 0) (b : Bytes) : lead (a ++ b) = a.length + lead b := by
  rw [lead, List.takeWhile_append_of_pos (by simpa using h), List.length_append, lead]

theorem lead_append {a : Bytes} (h : ¬∀ c ∈ a, c = 0) (b : Bytes) : lead (a ++ b) = lead a := by
  have hne : (a.takeWhile (· = 0)).length ≠ a.length := by
    intro hlen
    have hself := (List.takeWhile_prefix (p := fun c : UInt8 => decide (c = 0)) (l := a)).eq_of_length hlen
    exact h fun c hc => by simpa using List.takeWhile_eq_self_iff.mp hself c hc
  rw [lead, List.takeWhile_append, if_neg hne, lead]

theorem lead_ended_le (ls : List Bytes) : lead (ls.flatMap endedLine) ≤ lead (ls.flatMap keptLine) := by
  induction ls with
  | nil => exact Nat.le_refl _
  | cons line ls ih =>
    rw [List.flatMap_cons, List.flatMap_cons]
    by_cases hcut : Cut line
    · rw [endedLine_of_cut hcut, keptLine_of_cut hcut, List.append_assoc]
      by_cases hzero : ∀ c ∈ clean line, c = 0
      · rw [lead_append_of_zero hzero, lead_append_of_zero hzero, lead_append_of_zero (by simp)]
        omega
      · rw [lead_append hzero, lead_append hzero]
    · rw [endedLine_of_not_cut hcut]
      by_cases hzero : ∀ c ∈ keptLine line, c = 0
      · rw [lead_append_of_zero hzero, lead_append_of_zero hzero]
        omega
      · rw [lead_append hzero, lead_append hzero]

theorem mem_endedLine {c : UInt8} (h : c ∈ clean line) : c ∈ endedLine line := List.mem_append_left _ h

theorem mem_keptLine {c : UInt8} (h : c ∈ clean line) : c ∈ keptLine line := List.mem_append_left _ h

theorem zero_of_missing {u v : Bytes} (h : ls.flatMap endedLine ++ u = 0 :: (ls.flatMap keptLine ++ v)) :
    ∀ line ∈ ls, ∀ c ∈ clean line, c = 0 := by
  by_contra hnot
  have hended : ¬∀ c ∈ ls.flatMap endedLine, c = 0 := by
    intro hall
    refine hnot fun line hline c hc => hall c ?_
    exact List.mem_flatMap.mpr ⟨line, hline, mem_endedLine hc⟩
  have hkept : ¬∀ c ∈ ls.flatMap keptLine, c = 0 := by
    intro hall
    refine hnot fun line hline c hc => hall c ?_
    exact List.mem_flatMap.mpr ⟨line, hline, mem_keptLine hc⟩
  have hlead := congrArg lead h
  rw [lead_append hended, ← List.singleton_append, lead_append_of_zero (by simp), lead_append hkept] at hlead
  have hle := lead_ended_le ls
  rw [List.length_singleton] at hlead
  omega

theorem nothingAfterCut_of_zero (h : ∀ line ∈ ls, ∀ c ∈ clean line, c = 0) : NothingAfterCut ls := by
  induction ls with
  | nil => trivial
  | cons line ls ih =>
    have hrest : ∀ line' ∈ ls, ∀ c ∈ clean line', c = 0 := fun line' hl => h line' (List.mem_cons_of_mem line hl)
    exact ⟨fun _ => hrest, ih hrest⟩

theorem nothingAfterCut_of_eq {u v : Bytes}
    (h : ls.flatMap endedLine ++ u = ls.flatMap keptLine ++ v) : NothingAfterCut ls := by
  induction ls with
  | nil => trivial
  | cons line ls ih =>
    rw [List.flatMap_cons, List.flatMap_cons, List.append_assoc, List.append_assoc] at h
    by_cases hcut : Cut line
    · rw [endedLine_of_cut hcut, keptLine_of_cut hcut, List.append_assoc] at h
      have hzero := zero_of_missing (List.append_cancel_left h)
      exact ⟨fun _ => hzero, nothingAfterCut_of_zero hzero⟩
    · rw [endedLine_of_not_cut hcut] at h
      exact ⟨fun h' => absurd h' hcut, ih (List.append_cancel_left h)⟩

theorem replicate_of_zero {a : Bytes} (h : ∀ c ∈ a, c = 0) : a = List.replicate a.length 0 :=
  List.eq_replicate_of_mem h

theorem same_up_to_zeros (h : NothingAfterCut ls) :
    ∃ common i j, ls.flatMap endedLine = common ++ List.replicate i 0 ∧
      ls.flatMap keptLine = common ++ List.replicate j 0 := by
  induction ls with
  | nil => exact ⟨[], 0, 0, rfl, rfl⟩
  | cons line ls ih =>
    obtain ⟨hline, hrest⟩ := h
    rw [List.flatMap_cons, List.flatMap_cons]
    by_cases hcut : Cut line
    · have hzero := hline hcut
      have hended : ∀ c ∈ ls.flatMap endedLine, c = 0 := by
        intro c hc
        obtain ⟨line', hl, hc⟩ := List.mem_flatMap.mp hc
        rcases List.mem_append.mp hc with hclean | hnul
        · exact hzero line' hl c hclean
        · split at hnul
          · exact List.mem_singleton.mp hnul
          · exact absurd hnul List.not_mem_nil
      have hkept : ∀ c ∈ [0] ++ ls.flatMap keptLine, c = 0 := by
        intro c hc
        rcases List.mem_append.mp hc with hfirst | hc
        · exact List.mem_singleton.mp hfirst
        · obtain ⟨line', hl, hc⟩ := List.mem_flatMap.mp hc
          rcases List.mem_append.mp hc with hclean | hnul
          · exact hzero line' hl c hclean
          · split at hnul
            · exact List.mem_singleton.mp hnul
            · exact absurd hnul List.not_mem_nil
      refine ⟨clean line, (ls.flatMap endedLine).length, ([0] ++ ls.flatMap keptLine).length, ?_, ?_⟩
      · rw [endedLine_of_cut hcut]
        exact congrArg (clean line ++ ·) (replicate_of_zero hended)
      · rw [keptLine_of_cut hcut, List.append_assoc]
        exact congrArg (clean line ++ ·) (replicate_of_zero hkept)
    · obtain ⟨common, i, j, hended, hkept⟩ := ih hrest
      refine ⟨keptLine line ++ common, i, j, ?_, ?_⟩
      · rw [endedLine_of_not_cut hcut, hended, List.append_assoc]
      · rw [hkept, List.append_assoc]

theorem zeros_append (i j : Nat) : List.replicate i (0 : UInt8) ++ List.replicate j 0 = List.replicate (i + j) 0 :=
  List.replicate_append_replicate

theorem padded_eq_iff :
    padded (ls.flatMap endedLine ++ [0]) = padded (ls.flatMap keptLine ++ [0]) ↔
      NothingAfterCut ls ∧
        roundUp ((ls.flatMap endedLine).length + 1) = roundUp ((ls.flatMap keptLine).length + 1) := by
  constructor
  · intro h
    have hlen := congrArg List.length h
    rw [padded_length, padded_length, List.length_append, List.length_append] at hlen
    refine ⟨?_, hlen⟩
    rw [padded, padded, List.append_assoc, List.append_assoc] at h
    exact nothingAfterCut_of_eq h
  · rintro ⟨hnothing, hlen⟩
    obtain ⟨common, i, j, hended, hkept⟩ := same_up_to_zeros hnothing
    have hzeros (k : Nat) : ∃ n, padded (common ++ List.replicate k 0 ++ [0]) = common ++ List.replicate n 0 := by
      refine ⟨k + (1 + (4 - (common ++ List.replicate k 0 ++ [0]).length % 4) % 4), ?_⟩
      rw [padded, ← zeros_append, ← zeros_append, List.append_assoc, List.append_assoc]
      rfl
    obtain ⟨n, hn⟩ := hzeros i
    obtain ⟨n', hn'⟩ := hzeros j
    have hlength : (padded (ls.flatMap endedLine ++ [0])).length = (padded (ls.flatMap keptLine ++ [0])).length := by
      rw [padded_length, padded_length, List.length_append, List.length_append]
      exact hlen
    rw [hended, hkept, hn, hn', List.length_append, List.length_append, List.length_replicate,
      List.length_replicate] at hlength
    have hsame : n = n' := by omega
    rw [hended, hkept, hn, hn', hsame]

theorem length_ended (ls : List Bytes) : (ls.flatMap endedLine).length + 1 = lengthWith Ended ls := by
  induction ls with
  | nil => rfl
  | cons line ls ih =>
    rw [lengthWith] at ih
    rw [List.flatMap_cons, List.length_append, lengthWith, List.map_cons, List.sum_cons, List.countP_cons, endedLine,
      List.length_append]
    by_cases h : Ended line
    · rw [if_pos h, if_pos (decide_eq_true h), List.length_singleton]
      omega
    · rw [if_neg h, if_neg (by simpa using h), List.length_nil]
      omega

theorem length_kept (ls : List Bytes) : (ls.flatMap keptLine).length + 1 = lengthWith (clean · ≠ []) ls := by
  induction ls with
  | nil => rfl
  | cons line ls ih =>
    rw [lengthWith] at ih
    rw [List.flatMap_cons, List.length_append, lengthWith, List.map_cons, List.sum_cons, List.countP_cons, keptLine,
      List.length_append]
    by_cases h : clean line ≠ []
    · rw [if_pos h, if_pos (decide_eq_true h), List.length_singleton]
      omega
    · rw [if_neg h, if_neg (by simpa using h), List.length_nil]
      omega

theorem output_iff (text : Bytes) :
    padded ((lines text).flatMap endedLine ++ [0]) = condensed text ↔ CutsHarmless text := by
  rw [condensed_eq, padded_eq_iff, length_ended, length_kept, CutsHarmless]

end Cuts

/-! ### The length -/

section Length

variable {line : Bytes} {text : Bytes}

theorem lines_ne_nil (text : Bytes) : lines text ≠ [] := List.splitOnP_ne_nil _ _

theorem lines_newline (text : Bytes) : lines (0x0A :: text) = [] :: lines text := lines_cons List.not_mem_nil text

theorem lines_byte {c : UInt8} (hc : c ≠ 0x0A) (text : Bytes) :
    ∃ line rest, lines text = line :: rest ∧ lines (c :: text) = (c :: line) :: rest := by
  obtain ⟨line, rest, hlines⟩ := List.exists_cons_of_ne_nil (lines_ne_nil text)
  refine ⟨line, rest, hlines, ?_⟩
  rw [lines] at hlines ⊢
  rw [List.splitOnP_cons_eq_if_modifyHead, hlines, if_neg (by simpa using hc)]
  rfl

theorem lines_length (text : Bytes) : ((lines text).map fun line => line.length + 1).sum = text.length + 1 := by
  induction text with
  | nil => rfl
  | cons c text ih =>
    by_cases hc : c = 0x0A
    · subst hc
      rw [lines_newline, List.map_cons, List.sum_cons, ih, List.length_nil, List.length_cons]
      omega
    · obtain ⟨line, rest, hlines, hcons⟩ := lines_byte hc text
      rw [hlines, List.map_cons, List.sum_cons] at ih
      rw [hcons, List.map_cons, List.sum_cons, List.length_cons, List.length_cons]
      omega

theorem mem_lines {c : UInt8} (hc : c ≠ 0x0A) (text : Bytes) : c ∈ text ↔ ∃ line ∈ lines text, c ∈ line := by
  induction text with
  | nil =>
    rw [lines_single List.not_mem_nil]
    simp
  | cons d text ih =>
    rw [List.mem_cons, ih]
    by_cases hd : d = 0x0A
    · subst hd
      simp [lines_newline, hc]
    · obtain ⟨line, rest, hlines, hcons⟩ := lines_byte hd text
      rw [hlines, hcons]
      simp [or_assoc]

def Whole (line : Bytes) : Prop := line ≠ [] ∧ 0x23 ∉ line ∧ 0x0D ∉ line

theorem clean_length_le (line : Bytes) : (clean line).length ≤ line.length :=
  Nat.le_trans (List.length_filter_le _ _) (List.takeWhile_prefix _).length_le

theorem clean_of_no_hash (h : 0x23 ∉ line) : clean line = line.filter (· ≠ 0x0D) := by
  rw [clean, List.takeWhile_eq_self_iff.mpr]
  intro c hc
  rw [decide_eq_true_eq]
  rintro rfl
  exact h hc

theorem line_length (line : Bytes) :
    (clean line).length + (if Ended line then 1 else 0) ≤ line.length + 1 ∧
      ((clean line).length + (if Ended line then 1 else 0) = line.length + 1 ↔ Whole line) := by
  have hle := clean_length_le line
  refine ⟨by split <;> omega, ?_⟩
  constructor
  · intro heq
    split at heq
    next hended =>
      have hfilter := clean_of_no_hash hended.1
      have hself : line.filter (· ≠ 0x0D) = line := by
        apply List.filter_sublist.eq_of_length
        rw [← hfilter]
        omega
      refine ⟨?_, hended.1, ?_⟩
      · rintro rfl
        exact hended.2 rfl
      · intro hcr
        rw [← hself] at hcr
        simpa using (List.mem_filter.mp hcr).2
    next hnot => omega
  · rintro ⟨hne, hhash, hcr⟩
    have hclean : clean line = line := by
      rw [clean_of_no_hash hhash, List.filter_eq_self]
      intro c hc
      rw [decide_eq_true_eq]
      rintro rfl
      exact hcr hc
    rw [hclean, if_pos ⟨hhash, by rw [hclean]; exact hne⟩]

theorem lengthWith_ended (ls : List Bytes) :
    lengthWith Ended ls ≤ (ls.map fun line => line.length + 1).sum + 1 ∧
      (lengthWith Ended ls = (ls.map fun line => line.length + 1).sum + 1 ↔ ∀ line ∈ ls, Whole line) := by
  induction ls with
  | nil => exact ⟨Nat.le_refl _, by simp [lengthWith]⟩
  | cons line ls ih =>
    have hcons : lengthWith Ended (line :: ls) =
        (clean line).length + (if Ended line then 1 else 0) + lengthWith Ended ls := by
      rw [lengthWith, lengthWith, List.map_cons, List.sum_cons, List.countP_cons]
      simp only [decide_eq_true_eq]
      omega
    obtain ⟨hle, hiff⟩ := ih
    obtain ⟨hle', hiff'⟩ := line_length line
    rw [hcons, List.map_cons, List.sum_cons, List.forall_mem_cons, ← hiff, ← hiff']
    omega

theorem text_length (text : Bytes) :
    lengthWith Ended (lines text) ≤ text.length + 2 ∧
      (lengthWith Ended (lines text) = text.length + 2 ↔
        0x23 ∉ text ∧ 0x0D ∉ text ∧ ∀ line ∈ lines text, line ≠ []) := by
  obtain ⟨hle, hiff⟩ := lengthWith_ended (lines text)
  rw [lines_length] at hle hiff
  refine ⟨hle, hiff.trans ?_⟩
  rw [mem_lines (by decide) text, mem_lines (by decide) text]
  constructor
  · intro hall
    refine ⟨?_, ?_, fun line hl => (hall line hl).1⟩
    · rintro ⟨line, hl, hc⟩
      exact (hall line hl).2.1 hc
    · rintro ⟨line, hl, hc⟩
      exact (hall line hl).2.2 hc
  · rintro ⟨hhash, hcr, hne⟩ line hl
    exact ⟨hne line hl, fun hc => hhash ⟨line, hl, hc⟩, fun hc => hcr ⟨line, hl, hc⟩⟩

theorem nvramLength_le_iff (text : Bytes) : nvramLength text ≤ text.length + 4 ↔ ¬TailTooLong text := by
  obtain ⟨hle, hiff⟩ := text_length text
  rw [TailTooLong, ← hiff, nvramLength, roundUp]
  omega

end Length

theorem apart_iff {a m b n : Nat} (hn : 0 < n) (hab : a ≤ b) :
    Region.Apart ⟨a, m⟩ ⟨b, n⟩ ↔ a + m ≤ b := by
  constructor
  · intro h
    by_contra hlt
    exact h b ⟨⟨hab, by dsimp only; omega⟩, Nat.le_refl b, by dsimp only; omega⟩
  · rintro h x ⟨⟨-, hx⟩, hx', -⟩
    dsimp only at hx hx'
    omega

theorem layout_iff {rambase socramsize firmwareLength textLength n : Nat} (hn : 0 < n) :
    (∀ regions, ramLayout rambase socramsize firmwareLength textLength n = some regions →
        regions.Pairwise Region.Apart) ↔
      (firmwareLength ≠ 0 → textLength ≠ 0 → n + 4 < socramsize → firmwareLength + n + 4 ≤ socramsize) := by
  rw [ramLayout]
  by_cases hempty : firmwareLength = 0 ∨ textLength = 0
  · rw [if_pos hempty]
    exact ⟨fun _ h h' => absurd hempty (by omega), fun _ _ h => absurd h nofun⟩
  · rw [if_neg hempty]
    by_cases hroom : n = 0 ∨ socramsize ≤ n + 4
    · rw [if_pos hroom]
      exact ⟨fun _ _ _ h => absurd hroom (by omega), fun _ _ h => absurd h nofun⟩
    · rw [if_neg hroom]
      simp only [Option.some.injEq, forall_eq', List.pairwise_cons, List.mem_cons, List.not_mem_nil, or_false,
        forall_eq_or_imp, forall_eq, false_implies, implies_true, List.Pairwise.nil, and_true]
      rw [apart_iff hn (by omega), apart_iff (by decide) (by omega), apart_iff (by decide) (by omega)]
      omega

/-! ### All of it -/

theorem nvramLength_eq (text : Bytes) (allocated : Nat → UInt8) :
    (condenseNvram (copied text allocated) text.length).write = nvramLength text := by
  rw [← output_length, (condenseNvram_output text allocated).1, padded_length, List.length_append,
    List.length_singleton, length_ended, nvramLength]

theorem nvramLength_pos (text : Bytes) : 0 < nvramLength text := by
  rw [nvramLength, roundUp, lengthWith]
  omega

theorem condenses_iff (text : Bytes) (allocated : Nat → UInt8) :
    CondensesRight text (condenseNvram (copied text allocated) text.length) ↔
      CutsHarmless text ∧ ¬TailTooLong text := by
  obtain ⟨houtput, hstored⟩ := condenseNvram_output text allocated
  have hwrite := nvramLength_eq text allocated
  have hpos := nvramLength_pos text
  rw [← output_iff, ← nvramLength_le_iff, ← houtput]
  constructor
  · rintro ⟨hout, hinside, -⟩
    refine ⟨hout, ?_⟩
    obtain ⟨st, hst, hlast⟩ := hstored.last (by omega)
    have := hinside st hst
    omega
  · rintro ⟨hout, hle⟩
    refine ⟨hout, ?_, hstored.unread⟩
    intro st hst
    have := hstored.below st hst
    omega

/-- For a text, whatever else the buffer held, and any image lengths and RAM: the text is condensed right in
its place and what is put into the RAM does not overlap exactly if no line that is cut does harm, the tail is
not too long for the allocation, and the images that are accepted fit. -/
theorem nvram_right_iff (text : Bytes) (allocated : Nat → UInt8) (rambase socramsize firmwareLength : Nat) :
    (CondensesRight text (condenseNvram (copied text allocated) text.length) ∧
        LayoutRight rambase socramsize firmwareLength text (condenseNvram (copied text allocated) text.length)) ↔
      (CutsHarmless text ∧ ¬TailTooLong text) ∧ ImagesFit socramsize firmwareLength text := by
  rw [condenses_iff, LayoutRight, nvramLength_eq, layout_iff (nvramLength_pos text), ImagesFit]
  simp only [ne_eq, List.length_eq_zero_iff]

/-- `a#`, `b`: the two settings become one. -/
theorem settings_merge :
    (condenseNvram (copied [0x61, 0x23, 0x0A, 0x62, 0x0A] fun _ => 0xEE) 5).output = [0x61, 0x62, 0, 0] ∧
      condensed [0x61, 0x23, 0x0A, 0x62, 0x0A] = [0x61, 0, 0x62, 0, 0, 0, 0, 0] ∧
      ¬CondensesRight [0x61, 0x23, 0x0A, 0x62, 0x0A]
        (condenseNvram (copied [0x61, 0x23, 0x0A, 0x62, 0x0A] fun _ => 0xEE) 5) := by
  have hout : (condenseNvram (copied [0x61, 0x23, 0x0A, 0x62, 0x0A] fun _ => 0xEE) 5).output =
      [0x61, 0x62, 0, 0] := by
    decide
  have hasked : condensed [0x61, 0x23, 0x0A, 0x62, 0x0A] = [0x61, 0, 0x62, 0, 0, 0, 0, 0] := by decide
  refine ⟨hout, hasked, ?_⟩
  intro h
  have hsame := h.output
  rw [hout, hasked] at hsame
  exact absurd hsame (by decide)

end Pi1MHz.SdioNvram
