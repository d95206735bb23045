import Pi1MHz.MemoryText
import Mathlib.Data.List.Forall2
import Mathlib.Logic.Function.Iterate

/-!
# The configuration file

`config_parse` and `config_get` of `config.c`.  A text is parsed where it stands: the keys and the values are
addresses in the buffer, ended by NULs that are written over separators, comment signs and line ends.

Left out: reading the file, and the callers that read numbers and flags from a value.
-/

namespace Pi1MHz.Config

open MemoryText

def CONFIG_MAX_KEYS : Nat := 96

/-- `config_entry_t`: the addresses of a key and of its value. -/
structure Entry where
  key : Nat
  value : Nat
  deriving DecidableEq

structure Store where
  byte : Nat → UInt8
  written : List Nat := []
  entries : List Entry := []

def Store.write (a : Nat) (c : UInt8) (s : Store) : Store :=
  { s with byte := Function.update s.byte a c, written := s.written ++ [a] }

def isEol (c : UInt8) : Bool := c == 0x0A || c == 0x0D

def isBlank (c : UInt8) : Bool := c == 0x20 || c == 0x09

def isKeyByte (c : UInt8) : Bool := !isBlank c && c != 0x3D

def notHash (c : UInt8) : Bool := c != 0x23

/-! ### config.c -/

def lower (c : UInt8) : UInt8 := if 0x41 ≤ c ∧ c ≤ 0x5A then c - 0x41 + 0x61 else c

structure Text where
  bytes : List UInt8
  clean : ∀ c ∈ bytes, c ≠ 0

def ciEqual (M : Nat → UInt8) (a : Nat) : List UInt8 → Bool
  | [] => M a == 0
  | c :: rest => M a != 0 && lower (M a) == lower c && ciEqual M (a + 1) rest

/-- Where the value of a line begins: after blanks, at most one `=`, and blanks. -/
def valueStart (c : Nat → UInt8) (le kend : Nat) : Nat :=
  let p := skipWhile isBlank c le kend
  if p < le ∧ c p = 0x3D then skipWhile isBlank c le (p + 1) else p

/-- A turn of `config_parse` on the line from `ls` to `le`. -/
def parseLine (buf ls le : Nat) (s : Store) : Store :=
  let c := fun i => s.byte (buf + i)
  if le = ls then s
  else if c ls = 0x23 then s
  else if c ls = 0x20 ∨ c ls = 0x09 then s
  else
    let kend := skipWhile isKeyByte c le ls
    let vstart := valueStart c le kend
    let vend := trimWhile isBlank c vstart (skipWhile notHash c le vstart)
    let s := (s.write (buf + kend) 0).write (buf + vend) 0
    if ls < kend ∧ s.entries.length < CONFIG_MAX_KEYS then
      { s with entries := s.entries ++ [{ key := buf + ls, value := buf + vstart }] }
    else s

/-- The loop of `config_parse`: the place in the text, and the store. -/
def turn (buf len : Nat) (t : Nat × Store) : Nat × Store :=
  if t.1 < len then
    let c := fun i => t.2.byte (buf + i)
    let le := skipWhile (fun b => !isEol b) c len t.1
    (skipWhile isEol c len le, parseLine buf t.1 le t.2)
  else t

/-- The state of `config_parse` after some turns, on a store without entries. -/
def turns (buf len : Nat) (M : Nat → UInt8) (n : Nat) : Nat × Store := (turn buf len)^[n] (0, { byte := M })

/-- `config_parse`: no turn stays on the spot, so that a turn for each byte is enough. -/
def configParse (buf len : Nat) (M : Nat → UInt8) : Store := (turns buf len M len).2

def configGet (key : Text) (s : Store) : Option Nat :=
  (s.entries.find? fun e => ciEqual s.byte e.key key.bytes).map Entry.value

structure KeyedLine where
  key : List UInt8
  value : List UInt8
  deriving DecidableEq

/-- The separators behind a key: blanks, and at most one `=`. -/
def skipSeparators (rest : List UInt8) : List UInt8 :=
  let rest := rest.dropWhile isBlank
  if rest.head? = some 0x3D then rest.tail.dropWhile isBlank else rest

/-- The key is up to a blank or `=`, the value is the rest without blanks around it and without a comment. -/
def keyedLine (line : List UInt8) : Option KeyedLine :=
  match line with
  | [] => none
  | c :: _ =>
    if c = 0x23 ∨ isBlank c = true ∨ line.takeWhile isKeyByte = [] then none
    else some {
      key := line.takeWhile isKeyByte
      value := ((skipSeparators (line.dropWhile isKeyByte)).takeWhile notHash).rdropWhile isBlank }

def keyedLines (text : List UInt8) : List KeyedLine := (text.splitOnP isEol).filterMap keyedLine

def KeyedLine.answers (key : Text) (l : KeyedLine) : Bool := (cut l.key).map lower == key.bytes.map lower

def answer (key : Text) (text : List UInt8) : Option (List UInt8) :=
  ((keyedLines text).find? (KeyedLine.answers key)).map fun l => cut l.value
/-! ### One line -/

section

variable {c : Nat → UInt8} {ls le kend : Nat}

theorem valueStart_le (h : kend ≤ le) : kend ≤ valueStart c le kend ∧ valueStart c le kend ≤ le := by
  have hblank := skipWhile_le isBlank c h
  rw [valueStart]
  split
  · next hequals =>
    have hmore := skipWhile_le isBlank c (show skipWhile isBlank c le kend + 1 ≤ le by omega)
    omega
  · exact hblank

theorem slice_valueStart (h : kend ≤ le) : slice c (valueStart c le kend) le = skipSeparators (slice c kend le) := by
  have hblank := skipWhile_le isBlank c h
  have hrest := slice_from_skipWhile isBlank c h
  rw [valueStart, skipSeparators]
  simp only [← hrest]
  by_cases hlt : skipWhile isBlank c le kend < le
  · rw [slice_cons c hlt, List.head?_cons, List.tail_cons]
    by_cases hequals : c (skipWhile isBlank c le kend) = 0x3D
    · rw [if_pos ⟨hlt, hequals⟩, if_pos (congrArg some hequals)]
      exact slice_from_skipWhile isBlank c hlt
    · rw [if_neg fun h => hequals h.2, if_neg fun h => hequals (Option.some.inj h)]
      exact slice_cons c hlt
  · rw [slice_nil c (show le ≤ skipWhile isBlank c le kend by omega), if_neg fun h => hlt h.1]
    exact slice_nil c (by omega)

theorem lt_valueStart (h : kend < le) (hends : isKeyByte (c kend) = false) : kend < valueStart c le kend := by
  have hblank := skipWhile_le isBlank c h.le
  rcases Nat.lt_or_eq_of_le hblank.1 with hlt | heq
  · have hstart : skipWhile isBlank c le kend ≤ valueStart c le kend := by
      rw [valueStart]
      split
      · next hequals =>
        have hmore := skipWhile_le isBlank c (show skipWhile isBlank c le kend + 1 ≤ le by omega)
        omega
      · exact Nat.le_refl _
    omega
  · have hstop := skipWhile_stop (p := isBlank) (M := c) h.le (by omega)
    rw [← heq] at hstop
    have hequals : c kend = 0x3D := by
      simpa [isKeyByte, hstop] using hends
    have hmore := skipWhile_le isBlank c (show kend + 1 ≤ le by omega)
    have hstart : valueStart c le kend = skipWhile isBlank c le (kend + 1) := by
      rw [valueStart, ← heq, if_pos ⟨h, hequals⟩]
    omega

end

/-- An entry whose strings are those of a line, and end before `bound`. -/
structure Stored (M : Nat → UInt8) (bound : Nat) (e : Entry) (l : KeyedLine) : Prop where
  key : CString M e.key (cut l.key)
  value : CString M e.value (cut l.value)
  keyEnd : e.key + (cut l.key).length < bound
  valueEnd : e.value + (cut l.value).length < bound

theorem Stored.frame {M M' : Nat → UInt8} {bound bound' : Nat} {e : Entry} {l : KeyedLine} (h : Stored M bound e l)
    (hkept : ∀ a, a < bound → M' a = M a) (hbound : bound ≤ bound') : Stored M' bound' e l where
  key := h.key.frame fun b _ hb => hkept b (Nat.lt_of_le_of_lt hb h.keyEnd)
  value := h.value.frame fun b _ hb => hkept b (Nat.lt_of_le_of_lt hb h.valueEnd)
  keyEnd := Nat.lt_of_lt_of_le h.keyEnd hbound
  valueEnd := Nat.lt_of_lt_of_le h.valueEnd hbound

section

variable {buf ls le : Nat} {s : Store}

theorem cut_out {M M' : Nat → UInt8} {i e : Nat} (hie : i ≤ e) (hkept : ∀ k, i ≤ k → k < e → M' (buf + k) = M (buf + k))
    (hnul : M' (buf + e) = 0) : CString M' (buf + i) (cut (slice (fun k => M (buf + k)) i e)) := by
  have hslice : slice (fun k => M (buf + k)) i e = slice M' (buf + i) (buf + e) := by
    rw [← slice_base]
    apply slice_congr
    intro k hlow hhigh
    exact (hkept k hlow hhigh).symm
  rw [hslice]
  exact cString_slice (by omega) hnul

def Store.cutLine (buf kend vend : Nat) (s : Store) : Store := (s.write (buf + kend) 0).write (buf + vend) 0

theorem cutLine_byte {kend vend k : Nat} :
    (s.cutLine buf kend vend).byte (buf + k) = if k = kend ∨ k = vend then 0 else s.byte (buf + k) := by
  simp only [Store.cutLine, Store.write, Function.update_apply, Nat.add_left_cancel_iff]
  by_cases hv : k = vend
  · rw [if_pos hv, if_pos (Or.inr hv)]
  · by_cases hk : k = kend
    · rw [if_neg hv, if_pos hk, if_pos (Or.inl hk)]
    · rw [if_neg hv, if_neg hk, if_neg (by simp [hk, hv])]

theorem cutLine_frame {kend vend a : Nat} (hk : a ≠ buf + kend) (hv : a ≠ buf + vend) :
    (s.cutLine buf kend vend).byte a = s.byte a := by
  simp only [Store.cutLine, Store.write, Function.update_apply, if_neg hk, if_neg hv]

theorem cutLine_stored (buf : Nat) (s : Store) {c : Nat → UInt8} {kend vstart vend : Nat} (hlt : ls < le)
    (hc : c = fun i => s.byte (buf + i))
    (hk : kend = skipWhile isKeyByte c le ls) (hs : vstart = valueStart c le kend)
    (hv : vend = trimWhile isBlank c vstart (skipWhile notHash c le vstart)) :
    (ls ≤ kend ∧ kend ≤ le ∧ kend ≤ vend ∧ vend ≤ le) ∧
      Stored (s.cutLine buf kend vend).byte (buf + le + 1) { key := buf + ls, value := buf + vstart } {
        key := (slice c ls le).takeWhile isKeyByte
        value := ((skipSeparators ((slice c ls le).dropWhile isKeyByte)).takeWhile notHash).rdropWhile isBlank } := by
  have hkend : ls ≤ kend ∧ kend ≤ le := hk ▸ skipWhile_le isKeyByte c hlt.le
  have hvstart : kend ≤ vstart ∧ vstart ≤ le := hs ▸ valueStart_le hkend.2
  have hhash := skipWhile_le notHash c hvstart.2
  obtain ⟨hlow, hhigh, htrimmed⟩ := trimWhile_spec isBlank c hhash.1
  rw [← hv] at hlow hhigh htrimmed
  have hkey : (slice c ls le).takeWhile isKeyByte = slice c ls kend := hk ▸ (slice_skipWhile isKeyByte c hlt.le).symm
  have hvalue : ((skipSeparators ((slice c ls le).dropWhile isKeyByte)).takeWhile notHash).rdropWhile isBlank =
      slice c vstart vend := by
    rw [← slice_from_skipWhile isKeyByte c hlt.le, ← hk, ← slice_valueStart hkend.2, ← hs,
      ← slice_skipWhile notHash c hvstart.2]
    exact htrimmed.symm
  have hplaces : kend < vstart ∨ vend ≤ vstart := by
    rcases Nat.lt_or_eq_of_le hkend.2 with hkend' | hkend'
    · left
      rw [hs]
      apply lt_valueStart hkend'
      rw [hk] at hkend' ⊢
      exact skipWhile_stop hlt.le hkend'
    · exact Or.inr (by omega)
  refine ⟨⟨hkend.1, hkend.2, by omega, by omega⟩, ?_⟩
  rw [hkey, hvalue, hc]
  constructor
  · apply cut_out hkend.1
    · intro k _ hbelow
      exact cutLine_frame (by omega) (by omega)
    · rw [cutLine_byte, if_pos (Or.inl rfl)]
  · apply cut_out hlow
    · intro k hfrom hbelow
      exact cutLine_frame (by omega) (by omega)
    · rw [cutLine_byte, if_pos (Or.inr rfl)]
  · have hlength := cut_length (slice (fun i => s.byte (buf + i)) ls kend)
    rw [slice_length] at hlength
    show buf + ls + (cut (slice (fun i => s.byte (buf + i)) ls kend)).length < buf + le + 1
    omega
  · have hlength := cut_length (slice (fun i => s.byte (buf + i)) vstart vend)
    rw [slice_length] at hlength
    show buf + vstart + (cut (slice (fun i => s.byte (buf + i)) vstart vend)).length < buf + le + 1
    omega

end
/-- What a turn on a line does: it writes only on the line and on the byte behind it, and it stores the key and the
value of the line if there is one and room. -/
structure LineDone (buf ls le : Nat) (s s' : Store) : Prop where
  frame : ∀ a, a < buf + ls ∨ buf + le < a → s'.byte a = s.byte a
  written : ∃ w, s'.written = s.written ++ w ∧ ∀ a ∈ w, buf + ls ≤ a ∧ a ≤ buf + le
  entries : ∃ es, s'.entries = s.entries ++ es ∧ List.Forall₂ (Stored s'.byte (buf + le + 1)) es
    ((keyedLine (slice (fun i => s.byte (buf + i)) ls le)).toList.take (CONFIG_MAX_KEYS - s.entries.length))

section

variable {buf ls le : Nat} {s : Store}

theorem lineDone_skip (hline : keyedLine (slice (fun i => s.byte (buf + i)) ls le) = none) :
    LineDone buf ls le s s where
  frame := fun _ _ => rfl
  written := ⟨[], (List.append_nil _).symm, nofun⟩
  entries := by
    rw [hline]
    exact ⟨[], (List.append_nil _).symm, by simp⟩

theorem keyedLine_slice {c : Nat → UInt8} (hlt : ls < le) (hcomment : c ls ≠ 0x23)
    (hblank : ¬(c ls = 0x20 ∨ c ls = 0x09)) :
    keyedLine (slice c ls le) = if ls < skipWhile isKeyByte c le ls then some {
      key := (slice c ls le).takeWhile isKeyByte
      value := ((skipSeparators ((slice c ls le).dropWhile isKeyByte)).takeWhile notHash).rdropWhile isBlank }
    else none := by
  have htake := slice_skipWhile isKeyByte c hlt.le
  have hfirst : isBlank (c ls) = false := by simpa [isBlank] using hblank
  have hcons := slice_cons c hlt
  generalize slice c ls le = line at *
  rw [hcons, keyedLine, ← hcons]
  by_cases hkey : ls < skipWhile isKeyByte c le ls
  · rw [if_pos hkey, if_neg]
    rintro (hhash | hspace | hnil)
    · exact hcomment hhash
    · exact Bool.false_ne_true (hfirst.symm.trans hspace)
    · have hlength := congrArg List.length (htake.trans hnil)
      rw [slice_length, List.length_nil] at hlength
      omega
  · rw [if_neg hkey, if_pos]
    right
    right
    rw [← htake]
    exact slice_nil _ (by omega)

theorem parseLine_done (buf : Nat) (s : Store) (h : ls ≤ le) : LineDone buf ls le s (parseLine buf ls le s) := by
  rw [parseLine]
  dsimp only
  by_cases hempty : le = ls
  · rw [if_pos hempty]
    apply lineDone_skip
    rw [slice_nil _ (by omega)]
    rfl
  have hlt : ls < le := by omega
  have hcons := slice_cons (fun i => s.byte (buf + i)) hlt
  rw [if_neg hempty]
  by_cases hcomment : s.byte (buf + ls) = 0x23
  · rw [if_pos hcomment]
    apply lineDone_skip
    rw [hcons, keyedLine]
    exact if_pos (Or.inl hcomment)
  rw [if_neg hcomment]
  by_cases hblank : s.byte (buf + ls) = 0x20 ∨ s.byte (buf + ls) = 0x09
  · rw [if_pos hblank]
    apply lineDone_skip
    rw [hcons, keyedLine]
    exact if_pos (Or.inr (Or.inl (by simpa [isBlank] using hblank)))
  rw [if_neg hblank]
  obtain ⟨⟨hlow, hkend, hbetween, hvend⟩, hstored⟩ := cutLine_stored buf s hlt rfl rfl rfl rfl
  generalize hk : skipWhile isKeyByte (fun i => s.byte (buf + i)) le ls = kend at *
  generalize hs : valueStart (fun i => s.byte (buf + i)) le kend = vstart at *
  generalize hv : trimWhile isBlank (fun i => s.byte (buf + i)) vstart
    (skipWhile notHash (fun i => s.byte (buf + i)) le vstart) = vend at *
  have hframe : ∀ a, a < buf + ls ∨ buf + le < a → (s.cutLine buf kend vend).byte a = s.byte a := by
    intro a ha
    exact cutLine_frame (by omega) (by omega)
  have hwritten : (s.cutLine buf kend vend).written = s.written ++ [buf + kend, buf + vend] := by
    simp [Store.cutLine, Store.write]
  have hplaces : ∀ a ∈ [buf + kend, buf + vend], buf + ls ≤ a ∧ a ≤ buf + le := by
    intro a ha
    simp only [List.mem_cons, List.not_mem_nil, or_false] at ha
    omega
  have hline := keyedLine_slice (c := fun i => s.byte (buf + i)) hlt hcomment hblank
  rw [hk] at hline
  rw [← Store.cutLine]
  by_cases hroom : ls < kend ∧ (s.cutLine buf kend vend).entries.length < CONFIG_MAX_KEYS
  · rw [if_pos hroom]
    refine ⟨hframe, ⟨_, hwritten, hplaces⟩, [_], rfl, ?_⟩
    rw [hline, if_pos hroom.1, Option.toList_some, List.take_of_length_le]
    · exact List.Forall₂.cons hstored List.Forall₂.nil
    · have hcount : s.entries.length < CONFIG_MAX_KEYS := hroom.2
      rw [List.length_singleton]
      omega
  · rw [if_neg hroom]
    refine ⟨hframe, ⟨_, hwritten, hplaces⟩, [], (List.append_nil _).symm, ?_⟩
    rw [hline]
    by_cases hkey : ls < kend
    · have hfull : CONFIG_MAX_KEYS - s.entries.length = 0 := by
        have hcount : ¬s.entries.length < CONFIG_MAX_KEYS := fun hcount => hroom ⟨hkey, hcount⟩
        omega
      rw [hfull, List.take_zero]
      exact List.Forall₂.nil
    · rw [if_neg hkey, Option.toList_none, List.take_nil]
      exact List.Forall₂.nil

end
/-! ### The lines of a text -/

section

variable {text : List UInt8}

theorem keyedLines_nil : keyedLines [] = [] := by decide

theorem keyedLines_eol {c : UInt8} (hc : isEol c = true) (text : List UInt8) :
    keyedLines (c :: text) = keyedLines text := by
  have hsplit := List.splitOnP_append_cons [] text hc
  rw [List.nil_append, List.splitOnP_nil] at hsplit
  rw [keyedLines, hsplit]
  rfl

theorem keyedLines_eols (text : List UInt8) : keyedLines (text.dropWhile isEol) = keyedLines text := by
  induction text with
  | nil => rfl
  | cons c text ih =>
    by_cases hc : isEol c = true
    · rw [List.dropWhile_cons_of_pos hc, ih, keyedLines_eol hc]
    · rw [List.dropWhile_cons_of_neg hc]

theorem keyedLines_next (text : List UInt8) : keyedLines text =
    (keyedLine (text.takeWhile fun b => !isEol b)).toList ++
      keyedLines ((text.dropWhile fun b => !isEol b).dropWhile isEol) := by
  have hline : ∀ c ∈ text.takeWhile (fun b => !isEol b), isEol c = false := by
    intro c hc
    have hkept := List.mem_takeWhile_imp hc
    simpa using hkept
  rw [keyedLines_eols]
  conv_lhs => rw [← List.takeWhile_append_dropWhile (p := fun b => !isEol b) (l := text)]
  generalize hrest : text.dropWhile (fun b => !isEol b) = rest
  generalize text.takeWhile (fun b => !isEol b) = line at hline
  cases rest with
  | nil =>
    rw [List.append_nil, keyedLines_nil, List.append_nil, keyedLines, List.splitOnP_eq_singleton hline]
    cases hk : keyedLine line <;> simp [hk]
  | cons c rest =>
    have hhead := List.head?_dropWhile_not (fun b => !isEol b) text
    rw [hrest] at hhead
    have hc : isEol c = true := by simpa using hhead
    rw [keyedLines_eol hc, keyedLines, List.splitOnP_append_cons_of_forall_mem hline c hc]
    cases hk : keyedLine line <;> simp [keyedLines, hk]

end

/-! ### The whole text -/

def finished (buf len i : Nat) : Nat := if i < len then buf + i else buf + len + 1

theorem finished_le {buf len i k : Nat} (hik : i ≤ k) : finished buf len i ≤ finished buf len k := by
  rw [finished, finished]
  split <;> split <;> omega

structure Parsing (M : Nat → UInt8) (buf len : Nat) (t : Nat × Store) : Prop where
  place : t.1 ≤ len
  rest : ∀ a, (buf + t.1 ≤ a ∧ a < buf + len) ∨ a < buf ∨ buf + len < a → t.2.byte a = M a
  written : ∀ a ∈ t.2.written, buf ≤ a ∧ a ≤ buf + len
  entries : ∃ lines, keyedLines (slice (fun i => M (buf + i)) 0 len) =
      lines ++ keyedLines (slice (fun i => M (buf + i)) t.1 len) ∧
    List.Forall₂ (Stored t.2.byte (finished buf len t.1)) t.2.entries (lines.take CONFIG_MAX_KEYS)

section

variable {M : Nat → UInt8} {buf len : Nat} {t : Nat × Store}

theorem parsing_start (M : Nat → UInt8) (buf len : Nat) : Parsing M buf len (0, { byte := M }) where
  place := Nat.zero_le len
  rest := fun _ _ => rfl
  written := nofun
  entries := ⟨[], rfl, List.Forall₂.nil⟩

theorem turn_line (buf : Nat) (h : t.1 < len) : ∃ le, turn buf len t =
      (skipWhile isEol (fun i => t.2.byte (buf + i)) len le, parseLine buf t.1 le t.2) ∧
    t.1 ≤ le ∧ le ≤ len ∧ finished buf len t.1 = buf + t.1 ∧
    buf + le + 1 ≤ finished buf len (turn buf len t).1 ∧ t.1 < (turn buf len t).1 ∧ (turn buf len t).1 ≤ len ∧
    slice (fun i => t.2.byte (buf + i)) t.1 le =
      (slice (fun i => t.2.byte (buf + i)) t.1 len).takeWhile (fun b => !isEol b) ∧
    slice (fun i => t.2.byte (buf + i)) (turn buf len t).1 len =
      ((slice (fun i => t.2.byte (buf + i)) t.1 len).dropWhile fun b => !isEol b).dropWhile isEol := by
  generalize hc : (fun i => t.2.byte (buf + i)) = c
  obtain ⟨le, hle⟩ : ∃ le, le = skipWhile (fun b => !isEol b) c len t.1 := ⟨_, rfl⟩
  have hline : t.1 ≤ le ∧ le ≤ len := hle ▸ skipWhile_le _ c h.le
  have hnext := skipWhile_le isEol c hline.2
  have hturn : turn buf len t = (skipWhile isEol c len le, parseLine buf t.1 le t.2) := by
    rw [turn, if_pos h, hc, hle]
  have hpassed : le < len → le < skipWhile isEol c len le := by
    intro hlt
    rcases Nat.lt_or_eq_of_le hnext.1 with hpast | heq
    · exact hpast
    · have hends : isEol (c le) = true := by
        have hstop := skipWhile_stop (p := fun b => !isEol b) (M := c) h.le (hle ▸ hlt)
        rw [← hle] at hstop
        simpa using hstop
      have hstays := skipWhile_stop (p := isEol) (M := c) hline.2 (heq ▸ hlt)
      rw [← heq] at hstays
      exact absurd hends (by simp [hstays])
  refine ⟨le, hturn, hline.1, hline.2, if_pos h, ?_, ?_, ?_, ?_, ?_⟩
  · rw [hturn, finished]
    split
    · next hlt =>
      have hpast := hpassed (Nat.lt_of_le_of_lt hnext.1 hlt)
      dsimp only
      omega
    · omega
  · rw [hturn]
    dsimp only
    rcases Nat.lt_or_eq_of_le hline.2 with hlt | heq
    · have hpast := hpassed hlt
      omega
    · omega
  · rw [hturn]
    exact hnext.2
  · rw [hle]
    exact slice_skipWhile _ c h.le
  · rw [hturn, slice_from_skipWhile isEol c hline.2, hle, slice_from_skipWhile _ c h.le]

theorem turn_frame {a : Nat} (ha : a < finished buf len t.1) : (turn buf len t).2.byte a = t.2.byte a := by
  by_cases h : t.1 < len
  · obtain ⟨le, hturn, hlow, -, hfinished, -⟩ := turn_line buf h
    rw [hturn]
    exact (parseLine_done buf t.2 hlow).frame a (Or.inl (by omega))
  · rw [turn, if_neg h]

theorem Parsing.turn (hp : Parsing M buf len t) : Parsing M buf len (turn buf len t) := by
  by_cases h : t.1 < len
  · obtain ⟨le, hturn, hlow, hhigh, hfinished, hpast, hforward, hplace, hline, hrest⟩ := turn_line buf h
    have hdone := parseLine_done buf t.2 hlow
    have hsame : ∀ i, t.1 ≤ i → slice (fun i => t.2.byte (buf + i)) i len = slice (fun i => M (buf + i)) i len := by
      intro i hi
      apply slice_congr
      intro k hfrom hbelow
      exact hp.rest _ (Or.inl ⟨by omega, by omega⟩)
    rw [hsame _ (Nat.le_refl _)] at hline hrest
    rw [hsame _ hforward.le] at hrest
    obtain ⟨lines, hlines, hentries⟩ := hp.entries
    obtain ⟨es, hes, hstored⟩ := hdone.entries
    constructor
    · exact hplace
    · intro a ha
      rw [hturn] at ha ⊢
      rw [hdone.frame a]
      · apply hp.rest
        rw [← hturn] at ha
        omega
      · rw [← hturn] at ha
        have hbound : (Config.turn buf len t).1 < len → finished buf len (Config.turn buf len t).1 =
            buf + (Config.turn buf len t).1 := fun hlt => if_pos hlt
        omega
    · obtain ⟨w, hw, hplaces⟩ := hdone.written
      intro a ha
      rw [hturn, hw] at ha
      rcases List.mem_append.mp ha with ha | ha
      · exact hp.written a ha
      · have hplace := hplaces a ha
        omega
    · refine ⟨lines ++ (keyedLine (slice (fun i => t.2.byte (buf + i)) t.1 le)).toList, ?_, ?_⟩
      · rw [hlines, List.append_assoc, keyedLines_next (slice (fun i => M (buf + i)) t.1 len), ← hline, ← hrest]
      · have hlength := hentries.length_eq
        rw [List.length_take] at hlength
        have hroom : CONFIG_MAX_KEYS - t.2.entries.length = CONFIG_MAX_KEYS - lines.length := by omega
        rw [hroom] at hstored
        rw [List.take_append]
        have hentries' : (Config.turn buf len t).2.entries = t.2.entries ++ es := by
          rw [hturn]
          exact hes
        rw [hentries']
        refine List.rel_append ?_ ?_
        · refine hentries.imp fun e l hel => hel.frame ?_ (finished_le hforward.le)
          intro a ha
          exact turn_frame ha
        · refine hstored.imp fun e l hel => hel.frame ?_ hpast
          intro a _
          rw [hturn]
  · rw [Config.turn, if_neg h]
    exact hp

end
section

variable {M : Nat → UInt8} {buf len : Nat}

theorem turns_succ (n : Nat) : turns buf len M (n + 1) = turn buf len (turns buf len M n) :=
  Function.iterate_succ_apply' _ _ _

theorem parsing_turns (M : Nat → UInt8) (buf len n : Nat) : Parsing M buf len (turns buf len M n) := by
  induction n with
  | zero => exact parsing_start M buf len
  | succ n ih =>
    rw [turns_succ]
    exact ih.turn

theorem turns_place (M : Nat → UInt8) (buf len n : Nat) : n ≤ (turns buf len M n).1 ∨ (turns buf len M n).1 = len := by
  induction n with
  | zero => exact Or.inl (Nat.zero_le _)
  | succ n ih =>
    rw [turns_succ]
    by_cases h : (turns buf len M n).1 < len
    · obtain ⟨_, -, -, -, -, -, hforward, -⟩ := turn_line buf h
      left
      omega
    · right
      have hplace := (parsing_turns M buf len n).place
      rw [turn, if_neg h]
      omega

theorem turns_end : (turns buf len M len).1 = len := by
  have hplace := (parsing_turns M buf len len).place
  rcases turns_place M buf len len with h | h
  · omega
  · exact h

theorem turns_keep (M : Nat → UInt8) (buf len n k : Nat) :
    (∀ a, a < finished buf len (turns buf len M n).1 →
      (turns buf len M (n + k)).2.byte a = (turns buf len M n).2.byte a) ∧
    (turns buf len M n).2.entries <+: (turns buf len M (n + k)).2.entries ∧
    (turns buf len M n).1 ≤ (turns buf len M (n + k)).1 := by
  induction k with
  | zero => exact ⟨fun _ _ => rfl, List.prefix_rfl, Nat.le_refl _⟩
  | succ k ih =>
    obtain ⟨hframe, hprefix, hplace⟩ := ih
    rw [← Nat.add_assoc, turns_succ]
    by_cases h : (turns buf len M (n + k)).1 < len
    · obtain ⟨le, hturn, hlow, -, -, -, hforward, -⟩ := turn_line buf h
      obtain ⟨es, hes, -⟩ := (parseLine_done buf (turns buf len M (n + k)).2 hlow).entries
      refine ⟨?_, ?_, hplace.trans hforward.le⟩
      · intro a ha
        rw [turn_frame (Nat.lt_of_lt_of_le ha (finished_le hplace)), hframe a ha]
      · rw [hturn]
        exact hprefix.trans ⟨es, hes.symm⟩
    · rw [turn, if_neg h]
      exact ⟨hframe, hprefix, hplace⟩

theorem related_left {α β : Type*} {R : α → β → Prop} {as : List α} {bs : List β} (h : List.Forall₂ R as bs) {a : α}
    (ha : a ∈ as) : ∃ b, R a b := by
  induction h with
  | nil => exact absurd ha List.not_mem_nil
  | cons hab _ ih =>
    rcases List.mem_cons.mp ha with rfl | ha
    · exact ⟨_, hab⟩
    · exact ih ha

theorem stored_value_kept {n : Nat} (hn : n ≤ len) {e : Entry} (he : e ∈ (turns buf len M n).2.entries) :
    e ∈ (configParse buf len M).entries ∧
      ∀ v, CString (turns buf len M n).2.byte e.value v → CString (configParse buf len M).byte e.value v := by
  obtain ⟨hframe, hpre, -⟩ := turns_keep M buf len n (len - n)
  rw [Nat.add_sub_cancel' hn] at hframe hpre
  refine ⟨hpre.subset he, ?_⟩
  intro v hv
  obtain ⟨lines, -, hentries⟩ := (parsing_turns M buf len n).entries
  obtain ⟨l, hstored⟩ := related_left hentries he
  obtain rfl := hstored.value.unique hv
  exact hv.frame fun b _ hb => hframe b (Nat.lt_of_le_of_lt hb hstored.valueEnd)

/-! ### Looking up a key -/

theorem ciEqual_eq {a : Nat} {s key : List UInt8} (hs : CString M a s) (hkey : ∀ c ∈ key, c ≠ 0) :
    ciEqual M a key = (s.map lower == key.map lower) := by
  induction key generalizing a s with
  | nil =>
    cases s with
    | nil =>
      have hnul : M a = 0 := hs
      simp [ciEqual, hnul]
    | cons c s => simpa [ciEqual, hs.1] using hs.2.1
  | cons d key ih =>
    cases s with
    | nil =>
      have hnul : M a = 0 := hs
      simp [ciEqual, hnul]
    | cons c s =>
      have hrest := ih hs.2.2 fun c hc => hkey c (List.mem_cons_of_mem d hc)
      have hbyte : (c != 0) = true := bne_iff_ne.mpr hs.2.1
      rw [ciEqual, hs.1, hrest, hbyte, Bool.true_and, List.map_cons, List.map_cons, List.cons_beq_cons]

theorem find_related {α β : Type*} {R : α → β → Prop} {p : α → Bool} {q : β → Bool} {as : List α} {bs : List β}
    (h : List.Forall₂ R as bs) (htest : ∀ a b, R a b → p a = q b) : Option.Rel R (as.find? p) (bs.find? q) := by
  induction h with
  | nil => exact Option.Rel.none
  | cons hab _ ih =>
    rename_i a b _ _ _
    rw [List.find?_cons, List.find?_cons, htest a b hab]
    cases q b with
    | true => exact Option.Rel.some hab
    | false => exact ih

theorem rel_map {α β γ δ : Type*} {R : α → β → Prop} {T : γ → δ → Prop} {f : α → γ} {g : β → δ} {a : Option α}
    {b : Option β} (h : Option.Rel R a b) (hmap : ∀ a b, R a b → T (f a) (g b)) : Option.Rel T (a.map f) (b.map g) := by
  cases h with
  | none => exact Option.Rel.none
  | some hab => exact Option.Rel.some (hmap _ _ hab)

/-- The store answers what the text says: the value of the first line with the key.  A value that is stored stays
as it is while later lines are parsed, and no byte is written outside the text and the byte behind it. -/
theorem config_law (M : Nat → UInt8) (buf len : Nat)
    (hkeys : (keyedLines (slice M buf (buf + len))).length ≤ CONFIG_MAX_KEYS) :
    (∀ key, Option.Rel (CString (configParse buf len M).byte) (configGet key (configParse buf len M))
      (answer key (slice M buf (buf + len)))) ∧
    (∀ n, n ≤ len → ∀ e ∈ (turns buf len M n).2.entries, e ∈ (configParse buf len M).entries ∧
      ∀ v, CString (turns buf len M n).2.byte e.value v → CString (configParse buf len M).byte e.value v) ∧
    (∀ a ∈ (configParse buf len M).written, buf ≤ a ∧ a ≤ buf + len) ∧
    ∀ a, a < buf ∨ buf + len < a → (configParse buf len M).byte a = M a := by
  have hparsing := parsing_turns M buf len len
  refine ⟨?_, fun n hn e he => stored_value_kept hn he, hparsing.written, ?_⟩
  · intro key
    obtain ⟨lines, hlines, hentries⟩ := hparsing.entries
    have htext : slice (fun i => M (buf + i)) 0 len = slice M buf (buf + len) := slice_base M buf 0 len
    rw [turns_end, slice_nil _ (Nat.le_refl len), keyedLines_nil, List.append_nil, htext] at hlines
    rw [← hlines, List.take_of_length_le hkeys] at hentries
    have htest : ∀ e l, Stored (configParse buf len M).byte (finished buf len (turns buf len M len).1) e l →
        ciEqual (configParse buf len M).byte e.key key.bytes = KeyedLine.answers key l := by
      intro e l hel
      exact ciEqual_eq hel.key key.clean
    have hfound := find_related hentries htest
    rw [configGet, answer]
    exact rel_map hfound fun e l hel => hel.value
  · intro a ha
    exact hparsing.rest a (Or.inr ha)

end

/-- `Mixed=1` and `b # c`, at address 100. -/
def smallText (a : Nat) : UInt8 :=
  [0x4D, 0x69, 0x78, 0x65, 0x64, 0x3D, 0x31, 0x0D, 0x0A, 0x62, 0x20, 0x23, 0x20, 0x63].getD (a - 100) 0

/-- The value of `mixed` is `1`. -/
theorem smallText_mixed : Option.Rel (CString (configParse 100 14 smallText).byte)
    (configGet ⟨[0x6D, 0x69, 0x78, 0x65, 0x64], by simp⟩ (configParse 100 14 smallText)) (some [0x31]) :=
  (config_law smallText 100 14 (by decide +kernel)).1 ⟨[0x6D, 0x69, 0x78, 0x65, 0x64], by simp⟩

end Pi1MHz.Config
