import Mathlib.Data.Fin.VecNotation
import Mathlib.Data.List.TakeWhile
import Mathlib.Tactic.Common
import Pi1MHz.WsText
import Pi1MHz.FinSizes

/-!
# The web server: ranges

`ws_parse_range`, against the ranges a header asks for: a first and a last byte, a first byte, or a number of bytes
at the end.  The numbers of the header have no bound; those of the code stop growing when they are past 32 bits.
-/

namespace Pi1MHz.Ws

open FinSizes

/-! ### The code -/

/-- `ws_range_result_t`, with the window of `WS_RANGE_OK`. -/
inductive WsRange where
  | none
  | ok (start len : UInt32)
  | unsat
deriving DecidableEq, Repr

def rangeBlanks (p : Str) : Str := p.dropWhile wsBlank

def rangeDigit (n : UInt64) (c : UInt8) : UInt64 :=
  if n >>> 32 = 0 then n * 10 + (c.toUInt64 - 0x30) else n

def rangeNumber (digits : Str) : UInt64 := digits.foldl rangeDigit 0

def bytesUnit : Str := lit ['b', 'y', 't', 'e', 's']

def rangeDigits (value : Str) : Option (Str × Str) :=
  let p := rangeBlanks value
  if wsPrefixCi p bytesUnit = false then none
  else
    let p := rangeBlanks (p.drop 5)
    if p.head? ≠ some 0x3D then none
    else
      let p := rangeBlanks (p.drop 1)
      let first := p.takeWhile isDigit
      let p := rangeBlanks (p.dropWhile isDigit)
      if p.head? ≠ some 0x2D then none
      else
        let p := rangeBlanks (p.drop 1)
        let last := p.takeWhile isDigit
        let p := rangeBlanks (p.dropWhile isDigit)
        if p ≠ [] then none else some (first, last)

def rangeWindow (firstDigits lastDigits : Str) (size : UInt32) : WsRange :=
  let first := rangeNumber firstDigits
  let last := rangeNumber lastDigits
  if firstDigits = [] then
    if lastDigits = [] ∨ last = 0 ∨ size = 0 then
      if lastDigits = [] then .none else .unsat
    else
      let n := if last > size.toUInt64 then size.toUInt64 else last
      .ok (size - n.toUInt32) n.toUInt32
  else if first ≥ size.toUInt64 then .unsat
  else if lastDigits ≠ [] then
    if last < first then .none
    else
      let last := if last > (size - 1).toUInt64 then (size - 1).toUInt64 else last
      .ok first.toUInt32 (last - first + 1).toUInt32
  else .ok first.toUInt32 (size - first.toUInt32)

def wsParseRange (value : Str) (size : UInt32) : WsRange :=
  match rangeDigits value with
  | none => .none
  | some (first, last) => rangeWindow first last size

/-! ### What a header asks for -/

inductive ByteRange where
  | between (first last : Nat)
  | onwards (first : Nat)
  | suffix (count : Nat)

/-- The range selects byte `i` of a file of `size` bytes. -/
def ByteRange.Selects (size : Nat) : ByteRange → Nat → Prop
  | .between first last, i => i < size ∧ first ≤ i ∧ i ≤ last
  | .onwards first, i => i < size ∧ first ≤ i
  | .suffix count, i => i < size ∧ size ≤ i + count

def ByteRange.window (size : Nat) : ByteRange → Nat × Nat
  | .between first last => (first, min last (size - 1) - first + 1)
  | .onwards first => (first, size - first)
  | .suffix count => (size - min count size, min count size)

def digitsValue (digits : Str) : Nat := digits.foldl (fun n c => n * 10 + (c.toNat - 0x30)) 0

def RangeText (value first last : Str) : Prop :=
  ∃ (blanks : Fin 6 → Str) (unit : Str), (∀ i, ∀ c ∈ blanks i, wsBlank c = true) ∧ unit.map wsLc = bytesUnit ∧
    (∀ c ∈ first, isDigit c = true) ∧ (∀ c ∈ last, isDigit c = true) ∧
    value = blanks 0 ++ (unit ++ (blanks 1 ++ (0x3D :: (blanks 2 ++ (first ++ (blanks 3 ++
      (0x2D :: (blanks 4 ++ (last ++ blanks 5)))))))))

def byteRange (first last : Str) : Option ByteRange :=
  if first = [] then
    if last = [] then none else some (.suffix (digitsValue last))
  else if last = [] then some (.onwards (digitsValue first))
  else if digitsValue first ≤ digitsValue last then some (.between (digitsValue first) (digitsValue last)) else none

def AsksFor (value : Str) (r : ByteRange) : Prop :=
  ∃ first last, RangeText value first last ∧ byteRange first last = some r

def InvertedPastEnd (value : Str) (size : Nat) : Prop :=
  ∃ first last, RangeText value first last ∧ first ≠ [] ∧ last ≠ [] ∧
    digitsValue last < digitsValue first ∧ size ≤ digitsValue first

/-- What `ws_parse_range` has to make of a value. -/
structure RangeRead (value : Str) (size : UInt32) : Prop where
  ok : ∀ start len, wsParseRange value size = .ok start len ↔
    ∃ r, AsksFor value r ∧ (∃ i, r.Selects size.toNat i) ∧ r.window size.toNat = (start.toNat, len.toNat)
  unsat : wsParseRange value size = .unsat ↔ ∃ r, AsksFor value r ∧ ¬ ∃ i, r.Selects size.toNat i
  none : wsParseRange value size = .none ↔ ¬ ∃ r, AsksFor value r
  bounds : ∀ start len, wsParseRange value size = .ok start len →
    1 ≤ len.toNat ∧ start.toNat + len.toNat ≤ size.toNat

theorem window_selects {size : Nat} {r : ByteRange} (h : ∃ i, r.Selects size i) (i : Nat) :
    r.Selects size i ↔ (r.window size).1 ≤ i ∧ i < (r.window size).1 + (r.window size).2 := by
  obtain ⟨j, hj⟩ := h
  cases r with
  | between first last =>
    obtain ⟨hsize, hfirst, hlast⟩ := hj
    unfold ByteRange.Selects ByteRange.window
    simp only
    constructor
    · rintro ⟨hi, hle, hge⟩
      omega
    · rintro ⟨hle, hlt⟩
      omega
  | onwards first =>
    obtain ⟨hsize, hfirst⟩ := hj
    unfold ByteRange.Selects ByteRange.window
    simp only
    constructor
    · rintro ⟨hi, hle⟩
      omega
    · rintro ⟨hle, hlt⟩
      omega
  | suffix count =>
    obtain ⟨hsize, hcount⟩ := hj
    unfold ByteRange.Selects ByteRange.window
    simp only
    constructor
    · rintro ⟨hi, hle⟩
      omega
    · rintro ⟨hle, hlt⟩
      omega

/-! ### Reading the value -/

theorem rangeBlanks_append {b : Str} (hb : ∀ c ∈ b, wsBlank c = true) (rest : Str) :
    rangeBlanks (b ++ rest) = rangeBlanks rest := List.dropWhile_append_of_pos hb

theorem rangeBlanks_stop {rest : Str} (h : ∀ c ∈ rest.head?, wsBlank c = false) : rangeBlanks rest = rest := by
  cases rest with
  | nil => rfl
  | cons c rest =>
    have hc : wsBlank c = false := h c rfl
    exact List.dropWhile_cons_of_neg (Bool.eq_false_iff.mp hc)

theorem digit_not_blank {c : UInt8} (h : isDigit c = true) : wsBlank c = false := by
  unfold isDigit at h
  rw [Bool.and_eq_true, decide_eq_true_eq, decide_eq_true_eq] at h
  unfold wsBlank
  rw [Bool.or_eq_false_iff, beq_eq_false_iff_ne, beq_eq_false_iff_ne]
  constructor
  · rintro rfl
    exact absurd h.1 (by decide)
  · rintro rfl
    exact absurd h.1 (by decide)

theorem digits_read {b digits b' rest : Str} (hb : ∀ c ∈ b, wsBlank c = true) (hdigits : ∀ c ∈ digits, isDigit c = true)
    (hb' : ∀ c ∈ b', wsBlank c = true) (hrest : ∀ c ∈ rest.head?, wsBlank c = false ∧ isDigit c = false) :
    (rangeBlanks (b ++ (digits ++ (b' ++ rest)))).takeWhile isDigit = digits ∧
      rangeBlanks ((rangeBlanks (b ++ (digits ++ (b' ++ rest)))).dropWhile isDigit) = rest := by
  have hstop : rangeBlanks rest = rest := rangeBlanks_stop fun c hc => (hrest c hc).1
  have hnone : rest.takeWhile isDigit = [] ∧ rest.dropWhile isDigit = rest := by
    cases rest with
    | nil => exact ⟨rfl, rfl⟩
    | cons c rest =>
      have hc : ¬ isDigit c = true := Bool.eq_false_iff.mp (hrest c rfl).2
      exact ⟨List.takeWhile_cons_of_neg hc, List.dropWhile_cons_of_neg hc⟩
  rw [rangeBlanks_append hb]
  cases digits with
  | nil =>
    rw [List.nil_append, rangeBlanks_append hb', hstop, hnone.1, hnone.2]
    exact ⟨rfl, hstop⟩
  | cons d digits =>
    have hfirst : wsBlank d = false := digit_not_blank (hdigits d List.mem_cons_self)
    have hbehind : (b' ++ rest).takeWhile isDigit = [] ∧ (b' ++ rest).dropWhile isDigit = b' ++ rest := by
      cases b' with
      | nil => exact hnone
      | cons c b' =>
        have hc : ¬ isDigit c = true := by
          intro hdigit
          have hblank := digit_not_blank hdigit
          rw [hb' c List.mem_cons_self] at hblank
          cases hblank
        exact ⟨List.takeWhile_cons_of_neg hc, List.dropWhile_cons_of_neg hc⟩
    rw [List.cons_append, rangeBlanks_stop (fun c hc => by cases hc; exact hfirst), ← List.cons_append]
    rw [List.takeWhile_append_of_pos hdigits, List.dropWhile_append_of_pos hdigits, hbehind.1, hbehind.2,
      rangeBlanks_append hb', hstop, List.append_nil]
    exact ⟨rfl, rfl⟩

theorem wsPrefixCi_iff (s key : Str) :
    wsPrefixCi s key = true ↔ ∃ word rest, s = word ++ rest ∧ word.map wsLc = key.map wsLc := by
  induction key generalizing s with
  | nil =>
    rw [wsPrefixCi]
    exact ⟨fun _ => ⟨[], s, rfl, rfl⟩, fun _ => rfl⟩
  | cons p key ih =>
    cases s with
    | nil =>
      constructor
      · nofun
      · rintro ⟨word, rest, hs, hmap⟩
        have hnil : word = [] := (List.append_eq_nil_iff.mp hs.symm).1
        rw [hnil] at hmap
        cases hmap
    | cons c s =>
      rw [wsPrefixCi, Bool.and_eq_true, ih, beq_iff_eq]
      constructor
      · rintro ⟨hc, word, rest, rfl, hmap⟩
        exact ⟨c :: word, rest, rfl, by rw [List.map_cons, List.map_cons, hc, hmap]⟩
      · rintro ⟨word, rest, hs, hmap⟩
        cases word with
        | nil => cases hmap
        | cons d word =>
          rw [List.cons_append] at hs
          obtain ⟨rfl, rfl⟩ := List.cons.inj hs
          rw [List.map_cons, List.map_cons] at hmap
          obtain ⟨hc, hmap⟩ := List.cons.inj hmap
          exact ⟨hc, word, rest, rfl, hmap⟩

theorem rangeDigits_complete {value first last : Str} (h : RangeText value first last) :
    rangeDigits value = some (first, last) := by
  obtain ⟨blanks, unit, hblanks, hunit, hfirst, hlast, rfl⟩ := h
  have hlength : unit.length = 5 := by
    have hmap := congrArg List.length hunit
    rwa [List.length_map] at hmap
  have hstop : ∀ c ∈ (unit ++ (blanks 1 ++ (0x3D :: (blanks 2 ++ (first ++ (blanks 3 ++
      (0x2D :: (blanks 4 ++ (last ++ blanks 5))))))))).head?, wsBlank c = false := by
    intro c hc
    cases unit with
    | nil => cases hlength
    | cons d unit =>
      cases hc
      have hd : wsLc c = 0x62 := (List.cons.inj hunit).1
      unfold wsBlank
      rw [Bool.or_eq_false_iff, beq_eq_false_iff_ne, beq_eq_false_iff_ne]
      constructor
      · rintro rfl
        cases hd
      · rintro rfl
        cases hd
  have hkey : wsPrefixCi (unit ++ (blanks 1 ++ (0x3D :: (blanks 2 ++ (first ++ (blanks 3 ++
      (0x2D :: (blanks 4 ++ (last ++ blanks 5))))))))) bytesUnit = true :=
    (wsPrefixCi_iff _ _).mpr ⟨unit, _, rfl, hunit⟩
  have hdashStops : ∀ c ∈ ((0x2D : UInt8) :: (blanks 4 ++ (last ++ blanks 5))).head?,
      wsBlank c = false ∧ isDigit c = false := by
    intro c hc
    cases hc
    decide
  have hendStops : ∀ c ∈ ([] : Str).head?, wsBlank c = false ∧ isDigit c = false := nofun
  obtain ⟨hread, hdash⟩ := digits_read (hblanks 2) hfirst (hblanks 3) hdashStops
  obtain ⟨hread', hend⟩ := digits_read (hblanks 4) hlast (hblanks 5) hendStops
  rw [List.append_nil] at hread' hend
  have hequals : ∀ c ∈ ((0x3D : UInt8) :: (blanks 2 ++ (first ++ (blanks 3 ++
      (0x2D :: (blanks 4 ++ (last ++ blanks 5))))))).head?, wsBlank c = false := by
    intro c hc
    cases hc
    decide
  have hdrop : (unit ++ (blanks 1 ++ (0x3D :: (blanks 2 ++ (first ++ (blanks 3 ++
      (0x2D :: (blanks 4 ++ (last ++ blanks 5))))))))).drop 5 = blanks 1 ++ (0x3D :: (blanks 2 ++ (first ++ (blanks 3 ++
      (0x2D :: (blanks 4 ++ (last ++ blanks 5))))))) := List.drop_left' hlength
  unfold rangeDigits
  simp only [rangeBlanks_append (hblanks 0), rangeBlanks_stop hstop, hkey, hdrop, rangeBlanks_append (hblanks 1),
    rangeBlanks_stop hequals, List.drop_succ_cons, List.drop_zero, hread, hdash, hread', hend, List.head?_cons, ne_eq,
    not_true_eq_false, if_false, Bool.true_eq_false]

theorem rangeBlanks_split (p : Str) : ∃ b, (∀ c ∈ b, wsBlank c = true) ∧ p = b ++ rangeBlanks p :=
  ⟨p.takeWhile wsBlank, fun _ hc => List.mem_takeWhile_imp hc, List.takeWhile_append_dropWhile.symm⟩

theorem head_split {p : Str} {c : UInt8} (h : ¬ p.head? ≠ some c) : p = c :: p.drop 1 := by
  cases p with
  | nil => exact absurd nofun h
  | cons d p => exact congrArg (· :: p) (Option.some.inj (not_not.mp h))

theorem rangeDigits_sound {value first last : Str} (h : rangeDigits value = some (first, last)) :
    RangeText value first last := by
  unfold rangeDigits at h
  simp only at h
  obtain ⟨b0, hb0, h0⟩ := rangeBlanks_split value
  generalize rangeBlanks value = p0 at h h0
  split at h
  · cases h
  rename_i hkey
  obtain ⟨unit, rest, rfl, hunit⟩ := (wsPrefixCi_iff _ _).mp (Bool.not_eq_false _ ▸ hkey)
  have hlength : unit.length = 5 := by
    have hmap := congrArg List.length hunit
    rwa [List.length_map] at hmap
  rw [← hlength, List.drop_left] at h
  obtain ⟨b1, hb1, h1⟩ := rangeBlanks_split rest
  generalize rangeBlanks rest = p1 at h h1
  split at h
  · cases h
  rename_i hequals
  have hp1 := head_split hequals
  obtain ⟨b2, hb2, h2⟩ := rangeBlanks_split (p1.drop 1)
  generalize rangeBlanks (p1.drop 1) = p2 at h h2
  obtain ⟨b3, hb3, h3⟩ := rangeBlanks_split (p2.dropWhile isDigit)
  generalize rangeBlanks (p2.dropWhile isDigit) = p3 at h h3
  split at h
  · cases h
  rename_i hdash
  have hp3 := head_split hdash
  obtain ⟨b4, hb4, h4⟩ := rangeBlanks_split (p3.drop 1)
  generalize rangeBlanks (p3.drop 1) = p4 at h h4
  obtain ⟨b5, hb5, h5⟩ := rangeBlanks_split (p4.dropWhile isDigit)
  generalize rangeBlanks (p4.dropWhile isDigit) = p5 at h h5
  split at h
  · cases h
  rename_i hend
  rw [not_not.mp hend, List.append_nil] at h5
  cases h
  refine ⟨![b0, b1, b2, b3, b4, b5], unit, ?_, hunit, fun _ hc => List.mem_takeWhile_imp hc,
    fun _ hc => List.mem_takeWhile_imp hc, ?_⟩
  · intro i
    match i with
    | 0 => exact hb0
    | 1 => exact hb1
    | 2 => exact hb2
    | 3 => exact hb3
    | 4 => exact hb4
    | 5 => exact hb5
  · show value = b0 ++ (unit ++ (b1 ++ (0x3D :: (b2 ++ (p2.takeWhile isDigit ++ (b3 ++
      (0x2D :: (b4 ++ (p4.takeWhile isDigit ++ b5)))))))))
    rw [← h5, List.takeWhile_append_dropWhile, ← h4, ← hp3, ← h3, List.takeWhile_append_dropWhile, ← h2, ← hp1, ← h1]
    exact h0

theorem rangeDigits_iff (value first last : Str) : rangeDigits value = some (first, last) ↔ RangeText value first last :=
  ⟨rangeDigits_sound, rangeDigits_complete⟩

/-! ### The numbers -/

def Saturated (n : UInt64) (exact : Nat) : Prop := n.toNat = exact ∨ (2 ^ 32 ≤ n.toNat ∧ 2 ^ 32 ≤ exact)

theorem Saturated.digit {n : UInt64} {exact : Nat} (h : Saturated n exact) {c : UInt8} (hc : isDigit c = true) :
    Saturated (rangeDigit n c) (exact * 10 + (c.toNat - 0x30)) := by
  unfold isDigit at hc
  rw [Bool.and_eq_true, decide_eq_true_eq, decide_eq_true_eq, UInt8.le_iff_toNat_le, UInt8.le_iff_toNat_le] at hc
  have hlow : 48 ≤ c.toNat := hc.1
  have hhigh : c.toNat ≤ 57 := hc.2
  have hshift : n >>> 32 = 0 ↔ n.toNat < 2 ^ 32 := by
    rw [← UInt64.toNat_inj, UInt64.toNat_shiftRight]
    show n.toNat >>> 32 = 0 ↔ _
    rw [Nat.shiftRight_eq_div_pow]
    exact Nat.div_eq_zero_iff_lt (by decide)
  unfold rangeDigit
  by_cases hsmall : n.toNat < 2 ^ 32
  · rw [if_pos (hshift.mpr hsmall)]
    left
    have hexact : n.toNat = exact := by
      rcases h with heq | ⟨hbig, -⟩
      · exact heq
      · exact absurd hsmall (Nat.not_lt.mpr hbig)
    have hdigit : (c.toUInt64 - 0x30).toNat = c.toNat - 0x30 := by
      have hle : (0x30 : UInt64) ≤ c.toUInt64 := by
        rw [UInt64.le_iff_toNat_le, UInt8.toNat_toUInt64]
        exact hlow
      rw [UInt64.toNat_sub_of_le _ _ hle, UInt8.toNat_toUInt64]
      rfl
    rw [UInt64.toNat_add, UInt64.toNat_mul, hdigit, ← hexact]
    show (n.toNat * 10 % 2 ^ 64 + (c.toNat - 48)) % 2 ^ 64 = n.toNat * 10 + (c.toNat - 48)
    omega
  · rw [if_neg (fun hzero => hsmall (hshift.mp hzero))]
    right
    rcases h with heq | ⟨hbig, hexact⟩
    · omega
    · omega

theorem rangeNumber_saturated {digits : Str} (h : ∀ c ∈ digits, isDigit c = true) :
    Saturated (rangeNumber digits) (digitsValue digits) := by
  unfold rangeNumber digitsValue
  have hzero : Saturated 0 0 := .inl rfl
  generalize (0 : UInt64) = n at hzero ⊢
  generalize 0 = exact at hzero ⊢
  induction digits generalizing n exact with
  | nil => exact hzero
  | cons c digits ih =>
    obtain ⟨hc, hdigits⟩ := List.forall_mem_cons.mp h
    exact ih hdigits _ _ (hzero.digit hc)

theorem Saturated.lt_iff {n : UInt64} {exact : Nat} (h : Saturated n exact) {m : Nat} (hm : m ≤ 2 ^ 32) :
    n.toNat < m ↔ exact < m := by
  rcases h with heq | ⟨hn, hexact⟩
  · rw [heq]
  · omega

theorem Saturated.min_eq {n : UInt64} {exact : Nat} (h : Saturated n exact) {m : Nat} (hm : m ≤ 2 ^ 32) :
    min n.toNat m = min exact m := by
  rcases h with heq | ⟨hn, hexact⟩
  · rw [heq]
  · omega

theorem Saturated.exact {n : UInt64} {exact : Nat} (h : Saturated n exact) (hn : n.toNat < 2 ^ 32) : n.toNat = exact := by
  rcases h with heq | ⟨hbig, -⟩
  · exact heq
  · exact absurd hn (Nat.not_lt.mpr hbig)

/-! ### The window -/

def Answered (size : UInt32) (r : ByteRange) (w : WsRange) : Prop :=
  (∃ start len, w = .ok start len ∧ (∃ i, r.Selects size.toNat i) ∧ r.window size.toNat = (start.toNat, len.toNat)) ∨
    (w = .unsat ∧ ¬ ∃ i, r.Selects size.toNat i)

theorem toNat_narrow {n : UInt64} (h : n.toNat < 2 ^ 32) : n.toUInt32.toNat = n.toNat := by
  rw [UInt64.toNat_toUInt32]
  exact Nat.mod_eq_of_lt h

theorem toNat_clamp (n : UInt64) (m : UInt32) :
    (if n > m.toUInt64 then m.toUInt64 else n).toNat = min n.toNat m.toNat := by
  by_cases hgreater : n > m.toUInt64
  · have hlt : m.toNat < n.toNat := by
      have h := UInt64.lt_iff_toNat_lt.mp hgreater
      rwa [UInt32.toNat_toUInt64] at h
    rw [if_pos hgreater, UInt32.toNat_toUInt64, Nat.min_eq_right (Nat.le_of_lt hlt)]
  · have hle : n.toNat ≤ m.toNat := by
      have h := UInt64.le_iff_toNat_le.mp (UInt64.not_lt.mp hgreater)
      rwa [UInt32.toNat_toUInt64] at h
    rw [if_neg hgreater, Nat.min_eq_left hle]

theorem suffix_selects {size count : Nat} : (∃ i, (ByteRange.suffix count).Selects size i) ↔ count ≠ 0 ∧ size ≠ 0 := by
  constructor
  · rintro ⟨i, hi, hcount⟩
    omega
  · rintro ⟨hcount, hsize⟩
    exact ⟨size - 1, by omega, by omega⟩

theorem onwards_selects {size first : Nat} : (∃ i, (ByteRange.onwards first).Selects size i) ↔ first < size := by
  constructor
  · rintro ⟨i, hi, hfirst⟩
    omega
  · exact fun h => ⟨first, h, Nat.le_refl _⟩

theorem between_selects {size first last : Nat} (hle : first ≤ last) :
    (∃ i, (ByteRange.between first last).Selects size i) ↔ first < size := by
  constructor
  · rintro ⟨i, hi, hfirst, -⟩
    omega
  · exact fun h => ⟨first, h, Nat.le_refl _, hle⟩

theorem rangeWindow_suffix {last : Str} (hlast : ∀ c ∈ last, isDigit c = true) (hne : last ≠ []) (size : UInt32) :
    Answered size (.suffix (digitsValue last)) (rangeWindow [] last size) := by
  have hsat := rangeNumber_saturated hlast
  have hsize := size.toNat_lt
  unfold rangeWindow Answered
  rw [suffix_selects]
  simp only [if_true, hne, false_or, if_false]
  generalize rangeNumber last = n at hsat ⊢
  have hzero : n = 0 ↔ digitsValue last = 0 := by
    rw [← UInt64.toNat_inj]
    have hlt := hsat.lt_iff (show 1 ≤ 2 ^ 32 by decide)
    rw [Nat.lt_one_iff, Nat.lt_one_iff] at hlt
    exact hlt
  have hnone : size = 0 ↔ size.toNat = 0 := UInt32.toNat_inj.symm
  by_cases hempty : n = 0 ∨ size = 0
  · rw [if_pos hempty]
    right
    rw [hzero, hnone] at hempty
    exact ⟨rfl, fun h => hempty.elim h.1 h.2⟩
  · rw [if_neg hempty]
    left
    refine ⟨_, _, rfl, ?_, ?_⟩
    · rw [hzero, hnone] at hempty
      exact not_or.mp hempty
    · have hclamp := toNat_clamp n size
      generalize (if n > size.toUInt64 then size.toUInt64 else n) = m at hclamp ⊢
      rw [hsat.min_eq (Nat.le_of_lt hsize)] at hclamp
      have hm : m.toUInt32.toNat = min (digitsValue last) size.toNat := by
        rw [toNat_narrow (by omega), hclamp]
      have hsub : (size - m.toUInt32).toNat = size.toNat - min (digitsValue last) size.toNat := by
        rw [UInt32.toNat_sub_of_le _ _ (UInt32.le_iff_toNat_le.mpr (by omega)), hm]
      unfold ByteRange.window
      rw [hsub, hm]

theorem first_inside {n : UInt64} {size : UInt32} (h : ¬ n ≥ size.toUInt64) : n.toNat < size.toNat := by
  have hlt := UInt64.lt_iff_toNat_lt.mp (UInt64.not_le.mp h)
  rwa [UInt32.toNat_toUInt64] at hlt

theorem first_outside {n : UInt64} {size : UInt32} (h : n ≥ size.toUInt64) : size.toNat ≤ n.toNat := by
  have hle := UInt64.le_iff_toNat_le.mp h
  rwa [UInt32.toNat_toUInt64] at hle

theorem rangeWindow_onwards {first : Str} (hfirst : ∀ c ∈ first, isDigit c = true) (hne : first ≠ []) (size : UInt32) :
    Answered size (.onwards (digitsValue first)) (rangeWindow first [] size) := by
  have hsat := rangeNumber_saturated hfirst
  have hsize := size.toNat_lt
  unfold rangeWindow Answered
  rw [onwards_selects, ← hsat.lt_iff (Nat.le_of_lt hsize)]
  simp only [hne, if_false, ne_eq, not_true_eq_false]
  generalize rangeNumber first = n at hsat ⊢
  by_cases hpast : n ≥ size.toUInt64
  · rw [if_pos hpast]
    exact .inr ⟨rfl, Nat.not_lt.mpr (first_outside hpast)⟩
  · rw [if_neg hpast]
    have hlt := first_inside hpast
    have hnarrow := toNat_narrow (Nat.lt_trans hlt hsize)
    have hexact := hsat.exact (Nat.lt_trans hlt hsize)
    refine .inl ⟨_, _, rfl, hlt, ?_⟩
    rw [UInt32.toNat_sub_of_le _ _ (UInt32.le_iff_toNat_le.mpr (by omega)), hnarrow, hexact]
    rfl

theorem rangeWindow_two {first last : Str} (hfirst : ∀ c ∈ first, isDigit c = true) (hlast : ∀ c ∈ last, isDigit c = true)
    (hne : first ≠ []) (hne' : last ≠ []) (size : UInt32) :
    (size.toNat ≤ digitsValue first → rangeWindow first last size = .unsat) ∧
      (digitsValue first < size.toNat → digitsValue last < digitsValue first → rangeWindow first last size = .none) ∧
      (digitsValue first ≤ digitsValue last →
        Answered size (.between (digitsValue first) (digitsValue last)) (rangeWindow first last size)) := by
  have hsat := rangeNumber_saturated hfirst
  have hsat' := rangeNumber_saturated hlast
  have hsize := size.toNat_lt
  unfold rangeWindow Answered
  have hinside := hsat.lt_iff (Nat.le_of_lt hsize)
  simp only [hne, hne', if_false, ne_eq, not_false_eq_true, if_true]
  generalize rangeNumber first = n at hsat hinside ⊢
  generalize rangeNumber last = n' at hsat' ⊢
  by_cases hpast : n ≥ size.toUInt64
  · have hle := first_outside hpast
    rw [if_pos hpast]
    refine ⟨fun _ => rfl, ?_, ?_⟩
    · intro hlt
      exact absurd (hinside.mpr hlt) (Nat.not_lt.mpr hle)
    · intro horder
      rw [between_selects horder, ← hinside]
      exact .inr ⟨rfl, Nat.not_lt.mpr hle⟩
  · have hlt := first_inside hpast
    have hexact := hsat.exact (Nat.lt_trans hlt hsize)
    have hbefore : n' < n ↔ digitsValue last < digitsValue first := by
      rw [UInt64.lt_iff_toNat_lt, ← hexact]
      exact hsat'.lt_iff (by omega)
    rw [if_neg hpast]
    refine ⟨?_, ?_, ?_⟩
    · intro hle
      exact absurd (hinside.mp hlt) (Nat.not_lt.mpr hle)
    · intro _ hinverted
      rw [if_pos (hbefore.mpr hinverted)]
    · intro horder
      rw [between_selects horder, if_neg (fun h => Nat.not_lt.mpr horder (hbefore.mp h))]
      refine .inl ⟨_, _, rfl, hinside.mp hlt, ?_⟩
      have hone : (size - 1).toNat = size.toNat - 1 :=
        UInt32.toNat_sub_of_le _ _ (UInt32.le_iff_toNat_le.mpr (show 1 ≤ size.toNat by omega))
      have hclamp := toNat_clamp n' (size - 1)
      generalize (if n' > (size - 1).toUInt64 then (size - 1).toUInt64 else n') = m at hclamp ⊢
      rw [hone, hsat'.min_eq (by omega)] at hclamp
      have hcount : (m - n + 1).toNat = min (digitsValue last) (size.toNat - 1) - digitsValue first + 1 := by
        rw [UInt64.toNat_add, UInt64.toNat_sub_of_le _ _ (UInt64.le_iff_toNat_le.mpr (by omega)), hclamp, hexact]
        exact Nat.mod_eq_of_lt (show _ + 1 < 2 ^ 64 by omega)
      rw [toNat_narrow (Nat.lt_trans hlt hsize), toNat_narrow (by omega), hcount, hexact]
      rfl

/-! ### The whole -/

theorem window_bounds {size : Nat} {r : ByteRange} (h : ∃ i, r.Selects size i) :
    1 ≤ (r.window size).2 ∧ (r.window size).1 + (r.window size).2 ≤ size := by
  obtain ⟨i, hi⟩ := h
  have hinside := (window_selects ⟨i, hi⟩ i).mp hi
  have hlast : r.Selects size ((r.window size).1 + (r.window size).2 - 1) := by
    rw [window_selects ⟨i, hi⟩]
    omega
  have hlt : (r.window size).1 + (r.window size).2 - 1 < size := by
    cases r with
    | between first last => exact hlast.1
    | onwards first => exact hlast.1
    | suffix count => exact hlast.1
  omega

theorem read_of_answered {value : Str} {size : UInt32} {r : ByteRange} (hasks : ∀ r', AsksFor value r' ↔ r' = r)
    (h : Answered size r (wsParseRange value size)) : RangeRead value size := by
  rcases h with ⟨start, len, hparse, hselects, hwindow⟩ | ⟨hparse, hnothing⟩
  · refine ⟨?_, ?_, ?_, ?_⟩
    · intro start' len'
      rw [hparse]
      constructor
      · intro heq
        cases heq
        exact ⟨r, (hasks r).mpr rfl, hselects, hwindow⟩
      · rintro ⟨r', hr', -, hwindow'⟩
        rw [(hasks r').mp hr', hwindow] at hwindow'
        obtain ⟨hstart, hlen⟩ := Prod.ext_iff.mp hwindow'
        rw [UInt32.toNat_inj.mp hstart, UInt32.toNat_inj.mp hlen]
    · rw [hparse]
      constructor
      · nofun
      · rintro ⟨r', hr', hnot⟩
        rw [(hasks r').mp hr'] at hnot
        exact absurd hselects hnot
    · rw [hparse]
      constructor
      · nofun
      · intro hnone
        exact absurd ⟨r, (hasks r).mpr rfl⟩ hnone
    · intro start' len' hparse'
      rw [hparse] at hparse'
      cases hparse'
      have hbounds := window_bounds hselects
      rw [hwindow] at hbounds
      exact hbounds
  · refine ⟨?_, ?_, ?_, ?_⟩
    · intro start len
      rw [hparse]
      constructor
      · nofun
      · rintro ⟨r', hr', hselects, -⟩
        rw [(hasks r').mp hr'] at hselects
        exact absurd hselects hnothing
    · rw [hparse]
      exact ⟨fun _ => ⟨r, (hasks r).mpr rfl, hnothing⟩, fun _ => rfl⟩
    · rw [hparse]
      constructor
      · nofun
      · intro hnone
        exact absurd ⟨r, (hasks r).mpr rfl⟩ hnone
    · intro start len hparse'
      rw [hparse] at hparse'
      cases hparse'

theorem read_of_none {value : Str} {size : UInt32} (hasks : ¬ ∃ r, AsksFor value r)
    (h : wsParseRange value size = .none) : RangeRead value size := by
  refine ⟨?_, ?_, ?_, ?_⟩
  · intro start len
    rw [h]
    constructor
    · nofun
    · rintro ⟨r, hr, -⟩
      exact absurd ⟨r, hr⟩ hasks
  · rw [h]
    constructor
    · nofun
    · rintro ⟨r, hr, -⟩
      exact absurd ⟨r, hr⟩ hasks
  · rw [h]
    exact ⟨fun _ => hasks, fun _ => rfl⟩
  · intro start len hok
    rw [h] at hok
    cases hok

theorem asksFor_iff {value first last : Str} (h : rangeDigits value = some (first, last)) (r : ByteRange) :
    AsksFor value r ↔ byteRange first last = some r := by
  constructor
  · rintro ⟨first', last', htext, hr⟩
    rw [← rangeDigits_iff, h] at htext
    cases htext
    exact hr
  · exact fun hr => ⟨first, last, (rangeDigits_iff _ _ _).mp h, hr⟩

theorem invertedPastEnd_iff {value first last : Str} (h : rangeDigits value = some (first, last)) (size : Nat) :
    InvertedPastEnd value size ↔ first ≠ [] ∧ last ≠ [] ∧
      digitsValue last < digitsValue first ∧ size ≤ digitsValue first := by
  constructor
  · rintro ⟨first', last', htext, hinverted⟩
    rw [← rangeDigits_iff, h] at htext
    cases htext
    exact hinverted
  · exact fun hinverted => ⟨first, last, (rangeDigits_iff _ _ _).mp h, hinverted⟩

/-- `ws_parse_range` answers each value as it has to, but for a range whose last byte comes before its first when the
first is behind the end: this is answered as if it selected nothing, where it is no range. -/
theorem range_read_iff (value : Str) (size : UInt32) :
    RangeRead value size ↔ ¬ InvertedPastEnd value size.toNat := by
  cases hdigits : rangeDigits value with
  | none =>
    have hparse : wsParseRange value size = .none := by
      unfold wsParseRange
      rw [hdigits]
    have hno : ∀ first last, ¬ RangeText value first last := by
      intro first last htext
      rw [← rangeDigits_iff, hdigits] at htext
      cases htext
    constructor
    · rintro - ⟨first, last, htext, -⟩
      exact hno first last htext
    · intro _
      apply read_of_none _ hparse
      rintro ⟨r, first, last, htext, -⟩
      exact hno first last htext
  | some digits =>
    obtain ⟨first, last⟩ := digits
    obtain ⟨-, -, -, -, hfirst, hlast, -⟩ := rangeDigits_sound hdigits
    have hparse : wsParseRange value size = rangeWindow first last size := by
      unfold wsParseRange
      rw [hdigits]
    have hasks := asksFor_iff hdigits
    rw [invertedPastEnd_iff hdigits]
    have hanswered : ∀ r, byteRange first last = some r → Answered size r (rangeWindow first last size) →
        RangeRead value size := by
      intro r hr hanswer
      apply read_of_answered (r := r)
      · intro r'
        rw [hasks, hr]
        exact ⟨fun h => (Option.some.inj h).symm, fun h => congrArg some h.symm⟩
      · rw [hparse]
        exact hanswer
    by_cases hne : first = []
    · constructor
      · rintro - ⟨hnot, -⟩
        exact hnot hne
      · intro _
        rw [hne] at hasks hparse hanswered
        by_cases hne' : last = []
        · rw [hne'] at hasks hparse
          apply read_of_none _ hparse
          rintro ⟨r, hr⟩
          cases (hasks r).mp hr
        · apply hanswered (.suffix (digitsValue last)) _ (rangeWindow_suffix hlast hne' size)
          unfold byteRange
          rw [if_pos rfl, if_neg hne']
    by_cases hne' : last = []
    · constructor
      · rintro - ⟨-, hnot, -⟩
        exact hnot hne'
      · intro _
        rw [hne'] at hanswered
        apply hanswered (.onwards (digitsValue first)) _ (rangeWindow_onwards hfirst hne size)
        unfold byteRange
        rw [if_neg hne, if_pos rfl]
    obtain ⟨hpast, hinverted, hbetween⟩ := rangeWindow_two hfirst hlast hne hne' size
    by_cases horder : digitsValue first ≤ digitsValue last
    · constructor
      · rintro - ⟨-, -, hlt, -⟩
        exact Nat.not_lt.mpr horder hlt
      · intro _
        apply hanswered _ _ (hbetween horder)
        unfold byteRange
        rw [if_neg hne, if_neg hne', if_pos horder]
    · have hno : ¬ ∃ r, AsksFor value r := by
        rintro ⟨r, hr⟩
        have hsome := (hasks r).mp hr
        unfold byteRange at hsome
        rw [if_neg hne, if_neg hne', if_neg horder] at hsome
        cases hsome
      have hlt := Nat.lt_of_not_le horder
      by_cases hend : size.toNat ≤ digitsValue first
      · constructor
        · intro hread
          have hunsat : wsParseRange value size = .unsat := hparse.trans (hpast hend)
          obtain ⟨r, hr, -⟩ := hread.unsat.mp hunsat
          exact absurd ⟨r, hr⟩ hno
        · exact fun hnot => absurd ⟨hne, hne', hlt, hend⟩ hnot
      · constructor
        · rintro - ⟨-, -, -, hle⟩
          exact hend hle
        · intro _
          exact read_of_none hno (hparse.trans (hinverted (Nat.lt_of_not_le hend) hlt))

/-- `bytes=9-5` of a file of eight bytes. -/
theorem inverted_answered_unsat :
    wsParseRange (bytesUnit ++ [0x3D, 0x39, 0x2D, 0x35]) 8 = .unsat ∧
      ¬ ∃ r, AsksFor (bytesUnit ++ [0x3D, 0x39, 0x2D, 0x35]) r := by
  constructor
  · decide +kernel
  · rintro ⟨r, first, last, htext, hr⟩
    rw [← rangeDigits_iff] at htext
    have hdigits : rangeDigits (bytesUnit ++ [0x3D, 0x39, 0x2D, 0x35]) = some ([0x39], [0x35]) := by decide +kernel
    rw [hdigits] at htext
    cases htext
    cases hr

end Pi1MHz.Ws
