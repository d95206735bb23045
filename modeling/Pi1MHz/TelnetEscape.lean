import Pi1MHz.TelnetStream

/-!
# TELNET text there and back

What `telnet_escape` makes of a text, in as many calls as the room asks for, comes out of the filter as the
text again, however it is cut on the way.
-/

namespace Pi1MHz.Net

def escapeByte (b : UInt8) : List UInt8 := if b = TN_IAC then [TN_IAC, TN_IAC] else [b]

/-- `telnet_escape` over and over on what is left, with this room in each call: what every call put out, and
what is left in the end. -/
def telnetEscapes : List Nat → List UInt8 → List (List UInt8) × List UInt8
  | [], text => ([], text)
  | cap :: caps, text =>
    let r := telnetEscape cap text []
    let rest := telnetEscapes caps (text.drop r.2)
    (r.1 :: rest.1, rest.2)

structure Piece where
  bytes : List UInt8
  outCap : Nat
  repCap : Nat
  room : bytes.length ≤ outCap

def telnetFilters : Telnet → List Piece → List UInt8 × List UInt8
  | _, [] => ([], [])
  | t, p :: pieces =>
    let r := telnetFilter t p.bytes p.outCap p.repCap
    let rest := telnetFilters r.ctx pieces
    (r.out ++ rest.1, r.rep ++ rest.2)

theorem telnetEscape_begins (cap : Nat) (text out : List UInt8) :
    (telnetEscape cap text out).1 = out ++ (text.take (telnetEscape cap text out).2).flatMap escapeByte := by
  induction text generalizing out with
  | nil => simp [telnetEscape]
  | cons b rest ih =>
    unfold telnetEscape
    by_cases hiac : b = TN_IAC
    · rw [if_pos hiac]
      split
      · simp
      · simp only [List.take_succ_cons, List.flatMap_cons, escapeByte, if_pos hiac]
        rw [ih, List.append_assoc]
    · rw [if_neg hiac]
      split
      · simp
      · simp only [List.take_succ_cons, List.flatMap_cons, escapeByte, if_neg hiac]
        rw [ih, List.append_assoc]

theorem telnetEscapes_parts (caps : List Nat) (text : List UInt8) :
    ∃ parts : List (List UInt8), (telnetEscapes caps text).1 = parts.map (·.flatMap escapeByte) ∧
      parts.flatten ++ (telnetEscapes caps text).2 = text := by
  induction caps generalizing text with
  | nil => exact ⟨[], rfl, rfl⟩
  | cons cap caps ih =>
    obtain ⟨parts, hparts, hrest⟩ := ih (text.drop (telnetEscape cap text []).2)
    refine ⟨text.take (telnetEscape cap text []).2 :: parts, ?_, ?_⟩
    · rw [telnetEscapes, List.map_cons, ← hparts]
      simp only
      rw [telnetEscape_begins, List.nil_append]
    · rw [telnetEscapes, List.flatten_cons, List.append_assoc, hrest, List.take_append_drop]

theorem flatten_escaped (parts : List (List UInt8)) :
    (parts.map (·.flatMap escapeByte)).flatten = parts.flatten.flatMap escapeByte := by
  induction parts with
  | nil => rfl
  | cons part parts ih => rw [List.map_cons, List.flatten_cons, ih, List.flatten_cons, List.flatMap_append]

/-! ### Filtering -/

def wordOf (b : UInt8) : Word := if b = TN_IAC then .doubled else .text b

theorem wordOf_good (b : UInt8) : (wordOf b).Good := by
  unfold wordOf
  split
  · trivial
  · rename_i hiac
    exact hiac

theorem wordOf_bytes (b : UInt8) : (wordOf b).bytes = escapeByte b := by
  unfold wordOf escapeByte
  split <;> rfl

theorem readable_words {text : List UInt8} (hcr : ¬ [0x0D, 0x00] <:+: text) {afterCr : Bool}
    (hfirst : afterCr = true → text.head? ≠ some 0x00) : readable afterCr (text.map wordOf) = text := by
  induction text generalizing afterCr with
  | nil => rfl
  | cons b rest ih =>
    have hrest : ¬ [0x0D, 0x00] <:+: rest := fun h => hcr (h.trans (List.suffix_cons b rest).isInfix)
    rw [List.map_cons, wordOf]
    by_cases hiac : b = TN_IAC
    · have hnext : readable false (rest.map wordOf) = rest := ih hrest nofun
      rw [if_pos hiac, readable, hnext, hiac]
      rfl
    · rw [if_neg hiac, readable]
      have hkeep : ¬ (afterCr = true ∧ b = 0x00) := by
        rintro ⟨hafter, hnul⟩
        exact hfirst hafter (by rw [List.head?_cons, hnul])
      rw [if_neg hkeep, ih hrest]
      intro hreturn hnul
      apply hcr
      obtain ⟨tail, htail⟩ := List.head?_eq_some_iff.mp hnul
      rw [beq_iff_eq.mp hreturn, htail]
      exact ⟨[], tail, rfl⟩

theorem answers_word {t : Telnet} {afterCr : Bool} (h : Between t afterCr) (b : UInt8) :
    repliesOf (telnetRun t (wordOf b).bytes).2 = [] := by
  have hmove : ∀ c, repliesOf (telnetMove t c).2 = [] := by
    intro c
    unfold Between at h
    unfold telnetMove
    cases afterCr with
    | false =>
      rw [h]
      simp only [Bool.false_eq_true, if_false]
      split <;> rfl
    | true =>
      rw [h]
      simp only [if_true]
      split_ifs <;> rfl
  unfold wordOf
  split
  · obtain ⟨hiac, -⟩ := move_iac h
    have hsecond : repliesOf (telnetMove (telnetMove t TN_IAC).1 TN_IAC).2 = [] := by
      generalize (telnetMove t TN_IAC).1 = u at hiac
      unfold telnetMove
      rw [hiac]
      rfl
    rw [Word.bytes, telnetRun_cons, telnetRun_cons]
    simp only [repliesOf_append, hmove, hsecond]
    rfl
  · rw [Word.bytes, telnetRun_cons]
    simp only [repliesOf_append, hmove]
    rfl

theorem answers_words {t : Telnet} {afterCr : Bool} (h : Between t afterCr) (text : List UInt8) :
    repliesOf (telnetRun t ((text.map wordOf).flatMap Word.bytes)).2 = [] := by
  induction text generalizing t afterCr with
  | nil => rfl
  | cons b rest ih =>
    obtain ⟨afterCr', hbetween, -⟩ := run_word h (wordOf_good b) []
    rw [List.map_cons, List.flatMap_cons, telnetRun_append, repliesOf_append, answers_word h, ih hbetween]
    rfl

theorem telnetFilters_quiet (pieces : List Piece) (t : Telnet)
    (hquiet : repliesOf (telnetRun t (pieces.flatMap Piece.bytes)).2 = []) :
    telnetFilters t pieces = (textOf (telnetRun t (pieces.flatMap Piece.bytes)).2, []) := by
  induction pieces generalizing t with
  | nil => rfl
  | cons p pieces ih =>
    rw [List.flatMap_cons, telnetRun_append] at hquiet ⊢
    simp only [repliesOf_append, List.append_eq_nil_iff] at hquiet
    obtain ⟨hpiece, hrest⟩ := hquiet
    have htext := length_textOf_run t p.bytes
    have hroom := p.room
    have hfilter := telnetFilter_room t p.bytes (show _ ≤ p.outCap by omega)
      (show _ ≤ p.repCap by rw [hpiece]; exact Nat.zero_le _)
    rw [telnetFilters, hfilter]
    simp only [textOf_append, hpiece]
    rw [ih _ hrest]
    rfl

/-- Whatever room each call has, it ends between two bytes of the text, and the filter gives the text back,
however the bytes are cut, with nothing to reply. -/
theorem telnet_round_trip (text : List UInt8) (hcr : ¬ [0x0D, 0x00] <:+: text) (caps : List Nat)
    (hdone : (telnetEscapes caps text).2 = []) :
    (∃ parts : List (List UInt8), parts.flatten = text ∧
        (telnetEscapes caps text).1 = parts.map (·.flatMap escapeByte)) ∧
      ∀ pieces : List Piece, pieces.flatMap Piece.bytes = (telnetEscapes caps text).1.flatten →
        telnetFilters {} pieces = (text, []) := by
  obtain ⟨parts, hparts, htext⟩ := telnetEscapes_parts caps text
  rw [hdone, List.append_nil] at htext
  refine ⟨⟨parts, htext, hparts⟩, ?_⟩
  intro pieces hpieces
  have hstart : Between {} false := rfl
  have hwords : pieces.flatMap Piece.bytes = (text.map wordOf).flatMap Word.bytes := by
    rw [hpieces, hparts, flatten_escaped, htext, List.flatMap_map]
    simp only [wordOf_bytes]
  have hquiet := answers_words hstart text
  rw [← hwords] at hquiet
  have hgood : ∀ w ∈ text.map wordOf, w.Good := by
    intro w hw
    obtain ⟨b, -, rfl⟩ := List.mem_map.mp hw
    exact wordOf_good b
  have hread := run_words hstart hgood .whole
  rw [List.append_nil] at hread
  have hback : readable false (text.map wordOf) = text := readable_words hcr nofun
  rw [telnetFilters_quiet pieces {} hquiet, hwords, hread, hback]

/-- Four calls, one of them without room for an IAC, and a cut inside the doubled one. -/
theorem telnet_round_trip_iac :
    telnetFilters {} [⟨[65, 255], 2, 0, by decide⟩, ⟨[255, 13, 66], 3, 0, by decide⟩] = ([65, 255, 13, 66], []) :=
  (telnet_round_trip [65, 255, 13, 66] (by decide) [2, 1, 3, 1] (by decide)).2 _ (by decide)

end Pi1MHz.Net
