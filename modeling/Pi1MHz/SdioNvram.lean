import Mathlib.Algebra.Order.Ring.Nat
import Mathlib.Data.List.TakeWhile
import Mathlib.Logic.Function.Iterate
import Mathlib.Tactic.SplitIfs

/-!
# The NVRAM text

`sdio_cyw43_condense_nvram` of `sdio.c` condenses the text in the buffer that it stands in, and
`sdio_runtime_boot_firmware` puts the result at the top of the chip's RAM, above the firmware.
-/

namespace Pi1MHz.SdioNvram

abbrev Bytes := List UInt8

/-! ### Condensing -/

structure Store where
  index : Nat
  read : Nat
deriving DecidableEq, Repr

structure Condense where
  buffer : Nat → UInt8
  read : Nat
  write : Nat
  lineStart : Nat
  skipping : Bool
  stores : List Store

/-- `*write_ptr++ = c`. -/
def Condense.put (c : UInt8) (s : Condense) : Condense :=
  { s with
    buffer := Function.update s.buffer s.write c
    write := s.write + 1
    stores := s.stores ++ [⟨s.write, s.read⟩] }

/-- `if (!skipping && write_ptr != line_start)`, then the separator. -/
def Condense.endLine (s : Condense) : Condense :=
  if s.skipping = false ∧ s.write ≠ s.lineStart then s.put 0 else s

def Condense.byte (ch : UInt8) (s : Condense) : Condense :=
  let s := { s with read := s.read + 1 }
  if ch = 0x23 then { s with skipping := true }
  else if ch = 0x0D then s
  else if ch = 0x0A then
    let s := s.endLine
    { s with lineStart := s.write, skipping := false }
  else if s.skipping = false then s.put ch
  else s

/-- `while (read_ptr < end)`, with the bytes that are left. -/
def Condense.scan : Nat → Condense → Condense
  | 0, s => s
  | n + 1, s => Condense.scan n (s.byte (s.buffer s.read))

def Condense.pad : Nat → Condense → Condense
  | 0, s => s
  | n + 1, s => if s.write % 4 ≠ 0 then Condense.pad n (s.put 0) else s

/-- `sdio_cyw43_condense_nvram`; its result is how far the write pointer has gone. -/
def condenseNvram (buffer : Nat → UInt8) (length : Nat) : Condense :=
  Condense.pad 3 (((Condense.scan length ⟨buffer, 0, 0, 0, false, []⟩).endLine).put 0)

def Condense.output (s : Condense) : Bytes := (List.range s.write).map s.buffer

def copied (text : Bytes) (allocated : Nat → UInt8) : Nat → UInt8 := fun i => (text[i]?).getD (allocated i)

structure Region where
  start : Nat
  length : Nat

def Region.Apart (r r' : Region) : Prop :=
  ∀ a, ¬((r.start ≤ a ∧ a < r.start + r.length) ∧ r'.start ≤ a ∧ a < r'.start + r'.length)

/-- Where `sdio_runtime_boot_firmware` puts the firmware, the NVRAM and the length token, unless it refuses;
of the chip's sizes it takes the base of the RAM and its size, of the NVRAM both lengths. -/
def ramLayout (rambase socramsize firmwareLength textLength nvramLength : Nat) : Option (List Region) :=
  if firmwareLength = 0 ∨ textLength = 0 then none
  else if nvramLength = 0 ∨ socramsize ≤ nvramLength + 4 then none
  else some
    [⟨rambase, firmwareLength⟩, ⟨rambase + socramsize - nvramLength - 4, nvramLength⟩,
      ⟨rambase + socramsize - 4, 4⟩]

/-- A line without its CRs and what follows a `#`. -/
def clean (line : Bytes) : Bytes := (line.takeWhile (· ≠ 0x23)).filter (· ≠ 0x0D)

def lines (text : Bytes) : List Bytes := text.splitOnP (· == 0x0A)

def padded (out : Bytes) : Bytes := out ++ List.replicate ((4 - out.length % 4) % 4) 0

def condensed (text : Bytes) : Bytes :=
  padded ((((lines text).map clean).filter (· ≠ [])).flatMap (· ++ [0]) ++ [0])

/-- The text is condensed right, within the bytes allocated, and no byte is overwritten before it is read. -/
structure CondensesRight (text : Bytes) (s : Condense) : Prop where
  output : s.output = condensed text
  inside : ∀ st ∈ s.stores, st.index < text.length + 4
  unread : ∀ st ∈ s.stores, st.index < st.read ∨ text.length ≤ st.index

def LayoutRight (rambase socramsize firmwareLength : Nat) (text : Bytes) (s : Condense) : Prop :=
  ∀ regions, ramLayout rambase socramsize firmwareLength text.length s.write = some regions →
    regions.Pairwise Region.Apart

/-- A line with text left before a `#`. -/
def Cut (line : Bytes) : Prop := 0x23 ∈ line ∧ clean line ≠ []

instance (line : Bytes) : Decidable (Cut line) := inferInstanceAs (Decidable (_ ∧ _))

def NothingAfterCut : List Bytes → Prop
  | [] => True
  | line :: rest => (Cut line → ∀ line' ∈ rest, ∀ c ∈ clean line', c = 0) ∧ NothingAfterCut rest

/-- The bytes that are left with a NUL for each line that `P` holds of, and one more NUL. -/
def lengthWith (P : Bytes → Prop) [DecidablePred P] (ls : List Bytes) : Nat :=
  (ls.map fun line => (clean line).length).sum + ls.countP P + 1

def roundUp (n : Nat) : Nat := (n + 3) / 4 * 4

/-- A line that gets its NUL: it has text left and no `#`. -/
def Ended (line : Bytes) : Prop := 0x23 ∉ line ∧ clean line ≠ []

instance : DecidablePred Ended := fun _ => inferInstanceAs (Decidable (_ ∧ _))

def nvramLength (text : Bytes) : Nat := roundUp (lengthWith Ended (lines text))

/-- No line that has text left is cut by a `#`, unless nothing comes of it. -/
def CutsHarmless (text : Bytes) : Prop :=
  NothingAfterCut (lines text) ∧
    roundUp (lengthWith Ended (lines text)) = roundUp (lengthWith (clean · ≠ []) (lines text))

/-- Nothing is dropped from the text, its last line does not end, and the tail takes three NULs of padding. -/
def TailTooLong (text : Bytes) : Prop :=
  text.length % 4 = 3 ∧ 0x23 ∉ text ∧ 0x0D ∉ text ∧ ∀ line ∈ lines text, line ≠ []

def ImagesFit (socramsize firmwareLength : Nat) (text : Bytes) : Prop :=
  firmwareLength ≠ 0 → text ≠ [] → nvramLength text + 4 < socramsize →
    firmwareLength + nvramLength text + 4 ≤ socramsize

/-! ### Lines -/

/-- A line as the loop puts it: with its NUL unless it has a `#`. -/
def endedLine (line : Bytes) : Bytes := clean line ++ if Ended line then [0] else []

def keptLine (line : Bytes) : Bytes := clean line ++ if clean line ≠ [] then [0] else []

@[simp] theorem clean_nil : clean [] = [] := rfl

theorem clean_append_of_mem {p : Bytes} (h : 0x23 ∈ p) (q : Bytes) : clean (p ++ q) = clean p := by
  have hsplit : (p ++ q).takeWhile (· ≠ 0x23) = p.takeWhile (· ≠ 0x23) := by
    rw [List.takeWhile_append, if_neg]
    intro hlen
    have hall := List.takeWhile_eq_self_iff.mp
      ((List.takeWhile_prefix (p := fun c : UInt8 => decide (c ≠ 0x23)) (l := p)).eq_of_length hlen)
    simpa using hall 0x23 h
  rw [clean, hsplit, clean]

theorem clean_concat {p : Bytes} (h : 0x23 ∉ p) (c : UInt8) :
    clean (p ++ [c]) = if c = 0x23 ∨ c = 0x0D then clean p else clean p ++ [c] := by
  have hself : p.takeWhile (· ≠ 0x23) = p := by
    rw [List.takeWhile_eq_self_iff]
    intro c' hc'
    simp only [decide_eq_true_eq]
    rintro rfl
    exact h hc'
  have hsplit : (p ++ [c]).takeWhile (· ≠ 0x23) = p ++ [c].takeWhile (· ≠ 0x23) := by
    rw [List.takeWhile_append, if_pos (congrArg List.length hself)]
  rw [clean, hsplit, clean, hself, List.filter_append]
  by_cases hhash : c = 0x23
  · simp [hhash]
  · by_cases hcr : c = 0x0D
    · simp [hcr]
    · simp [hhash, hcr]

theorem lines_single {p : Bytes} (h : 0x0A ∉ p) : lines p = [p] := by
  apply List.splitOnP_eq_singleton
  intro c hc
  rw [beq_eq_false_iff_ne]
  rintro rfl
  exact h hc

theorem lines_cons {p : Bytes} (h : 0x0A ∉ p) (rest : Bytes) : lines (p ++ 0x0A :: rest) = p :: lines rest := by
  apply List.splitOnP_append_cons_of_forall_mem
  · intro c hc
    rw [beq_eq_false_iff_ne]
    rintro rfl
    exact h hc
  · rfl

/-! ### The loop -/

theorem output_put (c : UInt8) (s : Condense) : (s.put c).output = s.output ++ [c] := by
  simp only [Condense.output, Condense.put, List.range_succ, List.map_append, List.map_cons, List.map_nil,
    Function.update_self]
  congr 1
  apply List.map_congr_left
  intro i hi
  exact Function.update_of_ne (by have := List.mem_range.mp hi; omega) _ _

theorem output_length (s : Condense) : s.output.length = s.write := by
  rw [Condense.output, List.length_map, List.length_range]

/-- What has been stored lies below the write pointer, the last of it next to it, and nothing was stored over
a byte of the text that had not been read. -/
structure Stored (length : Nat) (s : Condense) : Prop where
  below : ∀ st ∈ s.stores, st.index < s.write
  last : 0 < s.write → ∃ st ∈ s.stores, st.index + 1 = s.write
  unread : ∀ st ∈ s.stores, st.index < st.read ∨ length ≤ st.index

theorem Stored.put {length : Nat} {s : Condense} (h : Stored length s) (hput : s.write < s.read ∨ length ≤ s.write)
    (c : UInt8) : Stored length (s.put c) := by
  refine ⟨?_, ?_, ?_⟩
  · intro st hst
    simp only [Condense.put] at hst ⊢
    rcases List.mem_append.mp hst with hold | hnew
    · exact Nat.lt_succ_of_lt (h.below st hold)
    · rw [List.mem_singleton.mp hnew]
      exact Nat.lt_succ_self _
  · intro _
    exact ⟨⟨s.write, s.read⟩, List.mem_append_right _ List.mem_cons_self, rfl⟩
  · intro st hst
    simp only [Condense.put] at hst
    rcases List.mem_append.mp hst with hold | hnew
    · exact h.unread st hold
    · rw [List.mem_singleton.mp hnew]
      exact hput

/-- Within a line: `base` is what the lines before it have left, `p` what of it has been read. -/
structure Scanning (text : Bytes) (allocated : Nat → UInt8) (base p rest : Bytes) (s : Condense) : Prop where
  read : s.read + rest.length = text.length
  ahead : text.drop s.read = rest
  buffer : ∀ i, s.read ≤ i → s.buffer i = copied text allocated i
  output : s.output = base ++ clean p
  behind : s.write ≤ s.read
  lineStart : s.lineStart = base.length
  skipping : s.skipping = decide (0x23 ∈ p)
  line : 0x0A ∉ p
  stored : Stored text.length s

section Scan

variable {text : Bytes} {allocated : Nat → UInt8} {base p rest : Bytes} {s : Condense} {c : UInt8}

theorem Scanning.write_eq (h : Scanning text allocated base p rest s) :
    s.write = base.length + (clean p).length := by
  rw [← output_length, h.output, List.length_append]

theorem Scanning.current (h : Scanning text allocated base p (c :: rest) s) : s.buffer s.read = c := by
  have hget : text[s.read]? = some c := by
    rw [← List.head?_drop, h.ahead]
    rfl
  rw [h.buffer s.read (Nat.le_refl _), copied, hget]
  rfl

theorem Scanning.endLine_output (h : Scanning text allocated base p rest s) :
    s.endLine.output = base ++ endedLine p := by
  have hwrite := h.write_eq
  have hended : (s.skipping = false ∧ s.write ≠ s.lineStart) ↔ Ended p := by
    rw [h.skipping, h.lineStart, hwrite, Ended, decide_eq_false_iff_not, ← List.length_pos_iff]
    exact and_congr_right fun _ => by omega
  rw [Condense.endLine, endedLine]
  by_cases hp : Ended p
  · rw [if_pos (hended.mpr hp), if_pos hp, output_put, h.output, List.append_assoc]
  · rw [if_neg (mt hended.mp hp), if_neg hp, h.output, List.append_nil]

theorem endLine_read (s : Condense) : s.endLine.read = s.read := by
  rw [Condense.endLine]
  split <;> rfl

theorem endLine_write (s : Condense) : s.endLine.write ≤ s.write + 1 := by
  rw [Condense.endLine]
  split
  · exact Nat.le_refl _
  · exact Nat.le_succ _

theorem endLine_buffer {i : Nat} (hi : s.write < i) : s.endLine.buffer i = s.buffer i := by
  rw [Condense.endLine]
  split
  · exact Function.update_of_ne (Nat.ne_of_gt hi) _ _
  · rfl

theorem Stored.endLine {length : Nat} (h : Stored length s) (hput : s.write < s.read ∨ length ≤ s.write) :
    Stored length s.endLine := by
  rw [Condense.endLine]
  split
  · exact h.put hput 0
  · exact h

theorem Scanning.byte_line (h : Scanning text allocated base p (c :: rest) s) (hc : c ≠ 0x0A) :
    Scanning text allocated base (p ++ [c]) rest (s.byte c) := by
  have hread := h.read
  have hbehind := h.behind
  have hline : 0x0A ∉ p ++ [c] := by
    intro hmem
    rcases List.mem_append.mp hmem with hp | hlast
    · exact h.line hp
    · exact hc (List.mem_singleton.mp hlast).symm
  have hahead : text.drop (s.read + 1) = rest := by
    rw [← List.drop_drop, h.ahead]
    rfl
  have hstored : Stored text.length { s with read := s.read + 1 } :=
    ⟨h.stored.below, h.stored.last, h.stored.unread⟩
  rw [List.length_cons] at hread
  rw [Condense.byte]
  by_cases hhash : c = 0x23
  · simp only [if_pos hhash]
    refine ⟨by dsimp only; omega, hahead, ?_, ?_, by dsimp only; omega, h.lineStart, ?_, hline,
      ⟨h.stored.below, h.stored.last, h.stored.unread⟩⟩
    · intro i hi
      exact h.buffer i (by dsimp only at hi; omega)
    · have hsame : clean (p ++ [c]) = clean p := by
        by_cases hp : 0x23 ∈ p
        · exact clean_append_of_mem hp _
        · rw [clean_concat hp, if_pos (Or.inl hhash)]
      rw [hsame]
      exact h.output
    · simp [hhash]
  · simp only [if_neg hhash]
    have hmem : (0x23 ∈ p ++ [c]) = (0x23 ∈ p) := by
      rw [List.mem_append, List.mem_singleton]
      exact propext ⟨fun h => h.resolve_right fun h' => hhash h'.symm, Or.inl⟩
    by_cases hcr : c = 0x0D
    · simp only [if_pos hcr]
      refine ⟨by dsimp only; omega, hahead, ?_, ?_, by dsimp only; omega, h.lineStart, ?_, hline, hstored⟩
      · intro i hi
        exact h.buffer i (by dsimp only at hi; omega)
      · have hsame : clean (p ++ [c]) = clean p := by
          by_cases hp : 0x23 ∈ p
          · exact clean_append_of_mem hp _
          · rw [clean_concat hp, if_pos (Or.inr hcr)]
        rw [hsame]
        exact h.output
      · simp only [hmem, h.skipping]
    · simp only [if_neg hcr, if_neg hc]
      by_cases hskip : s.skipping = false
      · have hp : 0x23 ∉ p := by
          intro hp
          rw [h.skipping, decide_eq_true hp] at hskip
          exact absurd hskip (by decide)
        rw [if_pos hskip]
        refine ⟨by simp only [Condense.put]; omega, hahead, ?_, ?_, by simp only [Condense.put]; omega,
          h.lineStart, ?_, hline, hstored.put (by dsimp only; omega) c⟩
        · intro i hi
          simp only [Condense.put] at hi ⊢
          rw [Function.update_of_ne (by omega)]
          exact h.buffer i (by omega)
        · rw [output_put, clean_concat hp, if_neg fun h' => h'.elim hhash hcr, ← List.append_assoc]
          congr 1
          exact h.output
        · simp only [Condense.put, hmem, h.skipping]
      · have hp : 0x23 ∈ p := by
          by_contra hp
          rw [h.skipping, decide_eq_false hp] at hskip
          exact hskip rfl
        rw [if_neg hskip]
        refine ⟨by dsimp only; omega, hahead, ?_, ?_, by dsimp only; omega, h.lineStart, ?_, hline, hstored⟩
        · intro i hi
          exact h.buffer i (by dsimp only at hi; omega)
        · rw [clean_append_of_mem hp]
          exact h.output
        · simp only [hmem, h.skipping]

theorem Scanning.byte_end (h : Scanning text allocated base p (0x0A :: rest) s) :
    Scanning text allocated (base ++ endedLine p) [] rest (s.byte 0x0A) := by
  have hread := h.read
  have hbehind := h.behind
  have hahead : text.drop (s.read + 1) = rest := by
    rw [← List.drop_drop, h.ahead]
    rfl
  have hnext : Scanning text allocated base p rest { s with read := s.read + 1 } := by
    refine ⟨by dsimp only; rw [List.length_cons] at hread; omega, hahead, ?_, h.output, by dsimp only; omega,
      h.lineStart, h.skipping, h.line, ⟨h.stored.below, h.stored.last, h.stored.unread⟩⟩
    intro i hi
    exact h.buffer i (by dsimp only at hi; omega)
  have hwrite := endLine_write { s with read := s.read + 1 }
  have hnextRead := endLine_read { s with read := s.read + 1 }
  have houtput := hnext.endLine_output
  dsimp only at hwrite hnextRead
  rw [Condense.byte, if_neg (by decide), if_neg (by decide), if_pos rfl]
  refine ⟨?_, ?_, ?_, ?_, ?_, ?_, by simp, List.not_mem_nil, ?_⟩
  · dsimp only
    rw [hnextRead]
    exact hnext.read
  · dsimp only
    rw [hnextRead]
    exact hahead
  · intro i hi
    dsimp only at hi ⊢
    rw [hnextRead] at hi
    rw [endLine_buffer (by dsimp only; omega)]
    exact h.buffer i (by omega)
  · rw [clean_nil, List.append_nil, ← houtput]
    rfl
  · dsimp only
    omega
  · dsimp only
    rw [← houtput, output_length]
  · have hstored := hnext.stored.endLine (by dsimp only; omega)
    exact { hstored with }

theorem scan_output (h : Scanning text allocated base p rest s) :
    let s' := (Condense.scan rest.length s).endLine
    s'.output = base ++ (lines (p ++ rest)).flatMap endedLine ∧ s'.read = text.length ∧ Stored text.length s' := by
  induction rest generalizing base p s with
  | nil =>
    have hread := h.read
    have hbehind := h.behind
    rw [List.length_nil] at hread
    refine ⟨?_, ?_, h.stored.endLine (by omega)⟩
    · rw [List.append_nil, lines_single h.line, List.flatMap_singleton]
      exact h.endLine_output
    · exact (endLine_read s).trans hread
  | cons c rest ih =>
    rw [List.length_cons, Condense.scan, h.current]
    by_cases hc : c = 0x0A
    · subst hc
      obtain ⟨houtput, hrest⟩ := ih h.byte_end
      refine ⟨?_, hrest⟩
      rw [houtput, lines_cons h.line, List.flatMap_cons, List.nil_append, List.append_assoc]
    · obtain ⟨houtput, hrest⟩ := ih (h.byte_line hc)
      refine ⟨?_, hrest⟩
      rw [houtput, List.append_assoc]
      rfl

end Scan

/-! ### The tail -/

theorem padded_length (out : Bytes) : (padded out).length = roundUp out.length := by
  rw [padded, List.length_append, List.length_replicate, roundUp]
  omega

theorem pad_output {length : Nat} {s : Condense} (hread : s.read = length) (h : Stored length s) :
    (Condense.pad 3 s).output = padded s.output ∧ Stored length (Condense.pad 3 s) := by
  have hturns (n : Nat) (s : Condense) (hread : s.read = length) (h : Stored length s)
      (hn : (4 - s.write % 4) % 4 ≤ n) :
      (Condense.pad n s).output = padded s.output ∧ Stored length (Condense.pad n s) := by
    induction n generalizing s with
    | zero =>
      have hzero : (4 - s.output.length % 4) % 4 = 0 := by rw [output_length]; omega
      rw [Condense.pad, padded, hzero, List.replicate_zero, List.append_nil]
      exact ⟨rfl, h⟩
    | succ n ih =>
      rw [Condense.pad]
      by_cases hmod : s.write % 4 ≠ 0
      · rw [if_pos hmod]
        obtain ⟨houtput, hstored⟩ :=
          ih (s.put 0) hread (h.put (by omega) 0) (by simp only [Condense.put]; omega)
        refine ⟨?_, hstored⟩
        have hcount : (4 - s.output.length % 4) % 4 = (4 - (s.output ++ [0]).length % 4) % 4 + 1 := by
          rw [List.length_append, output_length, List.length_singleton]
          omega
        rw [houtput, output_put, padded, padded, hcount, List.replicate_succ, List.append_assoc]
        rfl
      · rw [if_neg hmod]
        have hzero : (4 - s.output.length % 4) % 4 = 0 := by rw [output_length]; omega
        rw [padded, hzero, List.replicate_zero, List.append_nil]
        exact ⟨rfl, h⟩
  exact hturns 3 s hread h (by omega)

theorem condenseNvram_output (text : Bytes) (allocated : Nat → UInt8) :
    (condenseNvram (copied text allocated) text.length).output =
        padded ((lines text).flatMap endedLine ++ [0]) ∧
      Stored text.length (condenseNvram (copied text allocated) text.length) := by
  have hstart : Scanning text allocated [] [] text ⟨copied text allocated, 0, 0, 0, false, []⟩ := by
    refine ⟨Nat.zero_add _, rfl, fun _ _ => rfl, rfl, Nat.le_refl 0, rfl, rfl, List.not_mem_nil, ?_, ?_, ?_⟩
    · intro st hst
      exact absurd hst List.not_mem_nil
    · intro h
      exact absurd h (Nat.lt_irrefl 0)
    · intro st hst
      exact absurd hst List.not_mem_nil
  obtain ⟨houtput, hread, hstored⟩ := scan_output hstart
  rw [List.nil_append, List.nil_append] at houtput
  have hput := hstored.put (by rw [hread]; omega) 0
  obtain ⟨hpad, hall⟩ := @pad_output text.length
    ((Condense.scan text.length ⟨copied text allocated, 0, 0, 0, false, []⟩).endLine.put 0) hread hput
  refine ⟨?_, hall⟩
  rw [condenseNvram, hpad, output_put, houtput]

end Pi1MHz.SdioNvram
