import Pi1MHz.WsChunked

/-!
# The web server: chunked coding

What a stream of chunks says and what the decoder makes of it: a valid encoding gives its payload and leaves what
stands behind it, and a body that is finished was ended by a size line of value zero.
-/

namespace Pi1MHz.Ws

/-! ### Size lines -/

def isHex (c : UInt8) : Bool := (wsHexval c).isSome

def hexFrom (n : Nat) (digits : Str) : Nat := digits.foldl (fun n c => n * 16 + ((wsHexval c).getD 0).toNat) n

def lineValue (line : Str) : Nat := hexFrom 0 (line.takeWhile isHex)

theorem hexFrom_cons {c d : UInt8} (hval : wsHexval c = some d) (n : Nat) (digits : Str) :
    hexFrom n (c :: digits) = hexFrom (n * 16 + d.toNat) digits := by
  unfold hexFrom
  rw [List.foldl_cons, hval]
  rfl

theorem le_hexFrom (n : Nat) (digits : Str) : n ≤ hexFrom n digits := by
  induction digits generalizing n with
  | nil => exact Nat.le_refl n
  | cons c digits ih =>
    have hrest := ih (n * 16 + ((wsHexval c).getD 0).toNat)
    apply Nat.le_trans _ hrest
    omega

theorem wsHexval_lt {c d : UInt8} (h : wsHexval c = some d) : d.toNat < 16 := by
  unfold wsHexval at h
  have h0 : (0x30 : UInt8).toNat = 0x30 := rfl
  have h9 : (0x39 : UInt8).toNat = 0x39 := rfl
  have ha : (0x61 : UInt8).toNat = 0x61 := rfl
  have hf : (0x66 : UInt8).toNat = 0x66 := rfl
  have hA : (0x41 : UInt8).toNat = 0x41 := rfl
  have hF : (0x46 : UInt8).toNat = 0x46 := rfl
  have h10 : (10 : UInt8).toNat = 10 := rfl
  split_ifs at h with hdigit hlow hhigh
  · cases h
    simp only [UInt8.le_iff_toNat_le, UInt8.toNat_sub] at hdigit ⊢
    omega
  · cases h
    simp only [UInt8.le_iff_toNat_le, UInt8.toNat_add, UInt8.toNat_sub] at hlow ⊢
    omega
  · cases h
    simp only [UInt8.le_iff_toNat_le, UInt8.toNat_add, UInt8.toNat_sub] at hhigh ⊢
    omega

theorem chunkSize_some {n v : Nat} {line : Str} (hn : n ≤ 0x7FFFFFFF) (h : chunkSize n line = some v) :
    v = hexFrom n (line.takeWhile isHex) ∧ v ≤ 0x7FFFFFFF ∧ ∀ c ∈ line.head?, isHex c = true ∨ c = 0x3B := by
  induction line generalizing n with
  | nil =>
    cases h
    exact ⟨rfl, hn, nofun⟩
  | cons c line ih =>
    rw [chunkSize] at h
    by_cases hext : c = 0x3B
    · rw [if_pos hext] at h
      cases h
      have hstop : isHex c = false := by
        rw [hext]
        rfl
      rw [List.takeWhile_cons_of_neg (Bool.eq_false_iff.mp hstop)]
      refine ⟨rfl, hn, ?_⟩
      intro d hd
      exact .inr ((Option.some.inj hd).symm.trans hext)
    · rw [if_neg hext] at h
      cases hval : wsHexval c with
      | none =>
        rw [hval] at h
        cases h
      | some d =>
        rw [hval] at h
        simp only at h
        by_cases hbig : (0x7FFFFFFF - d.toNat) / 16 < n
        · rw [if_pos hbig] at h
          cases h
        · rw [if_neg hbig] at h
          have hd := wsHexval_lt hval
          have hhex : isHex c = true := by
            unfold isHex
            rw [hval]
            rfl
          obtain ⟨hv, hle, -⟩ := ih (by omega) h
          rw [List.takeWhile_cons_of_pos hhex]
          refine ⟨?_, hle, ?_⟩
          · rw [hv, hexFrom_cons hval]
          · intro e he
            exact .inl (Option.some.inj he ▸ hhex)

theorem chunkSize_complete {n : Nat} {digits ext : Str} (hdigits : ∀ c ∈ digits, isHex c = true)
    (hext : ∀ c ∈ ext.head?, c = 0x3B) (hfit : hexFrom n digits ≤ 0x7FFFFFFF) :
    chunkSize n (digits ++ ext) = some (hexFrom n digits) := by
  induction digits generalizing n with
  | nil =>
    cases ext with
    | nil => rfl
    | cons c ext =>
      have hc : c = 0x3B := hext c rfl
      rw [List.nil_append, chunkSize, if_pos hc]
      rfl
  | cons c digits ih =>
    obtain ⟨hc, hrest⟩ := List.forall_mem_cons.mp hdigits
    obtain ⟨d, hd⟩ := Option.isSome_iff_exists.mp hc
    have hne : c ≠ 0x3B := by
      rintro rfl
      cases hc
    have hstep := hexFrom_cons hd n digits
    have hgrow := le_hexFrom (n * 16 + d.toNat) digits
    have hsmall : ¬ (0x7FFFFFFF - d.toNat) / 16 < n := by
      have := wsHexval_lt hd
      omega
    rw [List.cons_append, chunkSize, if_neg hne, hd]
    simp only
    rw [if_neg hsmall, hstep]
    exact ih hrest (by omega)

/-! ### Encodings -/

def LineText (line : Str) : Prop := ∀ c ∈ line, c ≠ 0x0D ∧ c ≠ 0x0A

def crlf : Str := [0x0D, 0x0A]

structure SizeLine where
  digits : Str
  ext : Str

def SizeLine.text (l : SizeLine) : Str := l.digits ++ l.ext

/-- A size line of at most 24 characters for `n` bytes; the code takes sizes up to 0x7FFFFFFF. -/
structure SizeLine.Says (l : SizeLine) (n : Nat) : Prop where
  digits : l.digits ≠ [] ∧ ∀ c ∈ l.digits, isHex c = true
  ext : LineText l.ext ∧ ∀ c ∈ l.ext.head?, c = 0x3B
  short : l.text.length ≤ 24
  value : hexFrom 0 l.digits = n
  fits : n ≤ 0x7FFFFFFF

/-- A body in chunked coding: chunks that are not empty, the last chunk, and the trailer's lines. -/
structure Encoding where
  chunks : List (SizeLine × List UInt8)
  last : SizeLine
  trailer : List Str

def chunkBytes (ch : SizeLine × List UInt8) : List UInt8 := ch.1.text ++ crlf ++ ch.2 ++ crlf

def Encoding.bytes (e : Encoding) : List UInt8 :=
  e.chunks.flatMap chunkBytes ++ (e.last.text ++ crlf ++ (e.trailer.flatMap (· ++ crlf) ++ crlf))

def Encoding.payload (e : Encoding) : List UInt8 := e.chunks.flatMap Prod.snd

structure Encoding.Valid (e : Encoding) : Prop where
  chunks : ∀ ch ∈ e.chunks, ch.2 ≠ [] ∧ ch.1.Says ch.2.length
  last : e.last.Says 0
  trailer : ∀ line ∈ e.trailer, line ≠ [] ∧ LineText line

theorem isHex_lineText {c : UInt8} (h : isHex c = true) : c ≠ 0x0D ∧ c ≠ 0x0A := by
  constructor
  · rintro rfl
    cases h
  · rintro rfl
    cases h

theorem SizeLine.Says.lineText {l : SizeLine} {n : Nat} (h : l.Says n) : LineText l.text := by
  intro c hc
  rcases List.mem_append.mp hc with hdigit | hext
  · exact isHex_lineText (h.digits.2 c hdigit)
  · exact h.ext.1 c hext

theorem feed_text {d : ChunkDecoder} (hphase : d.phase = .size ∨ d.phase = .trailer) {line : Str}
    (htext : LineText line) (rest : List UInt8) :
    ∃ d' : ChunkDecoder, d.feed (line ++ (crlf ++ rest)) = d'.feed (0x0A :: rest) ∧ d'.phase = d.phase ∧
      d'.remaining = d.remaining ∧ (d'.line = [] ↔ d.line = [] ∧ line = []) ∧
      (d.line.length + line.length ≤ 24 → d'.line = d.line ++ line ∧ d'.overflow = d.overflow) := by
  have hbyte : ∀ (d : ChunkDecoder), d.phase = .size ∨ d.phase = .trailer → ∀ ch ≠ (0x0A : UInt8), ∀ rest,
      d.feed (ch :: rest) = (d.lineByte ch).feed rest := by
    intro d hphase ch hch rest
    have hone : d.byte ch = (d.lineByte ch, [], .more) := by
      unfold ChunkDecoder.byte
      rcases hphase with h | h
      · rw [h]
        exact if_neg hch
      · rw [h]
        exact if_neg hch
    rw [ChunkDecoder.feed, hone, if_pos rfl, behind_nil]
  induction line generalizing d with
  | nil =>
    refine ⟨d, ?_, rfl, rfl, ?_, ?_⟩
    · show d.feed (0x0D :: 0x0A :: rest) = _
      rw [hbyte d hphase 0x0D (by decide)]
      rfl
    · exact ⟨fun h => ⟨h, rfl⟩, And.left⟩
    · intro _
      exact ⟨(List.append_nil _).symm, rfl⟩
  | cons ch line ih =>
    obtain ⟨hch, hline⟩ := List.forall_mem_cons.mp htext
    have hphase' : (d.lineByte ch).phase = .size ∨ (d.lineByte ch).phase = .trailer := by
      rw [lineByte_phase]
      exact hphase
    obtain ⟨d', hfeed, hsame, hleft, hempty, hfits⟩ := ih hphase' hline
    have hput : d.lineByte ch =
        if d.line.length < 24 then { d with line := d.line ++ [ch] } else { d with overflow := true } :=
      if_neg hch.1
    refine ⟨d', ?_, hsame.trans (lineByte_phase d ch), ?_, ?_, ?_⟩
    · rw [List.cons_append, hbyte d hphase ch hch.2, hfeed]
    · rw [hleft, hput]
      split <;> rfl
    · rw [hempty]
      refine iff_of_false ?_ fun h => List.cons_ne_nil _ _ h.2
      rintro ⟨hnone, -⟩
      rw [hput] at hnone
      split at hnone
      · exact List.append_ne_nil_of_right_ne_nil _ (List.cons_ne_nil _ _) hnone
      · rename_i hfull
        rw [show d.line = [] from hnone] at hfull
        exact hfull (by decide)
    · intro hroom
      rw [List.length_cons] at hroom
      rw [if_pos (by omega)] at hput
      rw [hput] at hfits
      obtain ⟨hgot, hover⟩ := hfits (by rw [List.length_append, List.length_singleton]; omega)
      refine ⟨?_, hover⟩
      rw [hgot, List.append_assoc]
      rfl

theorem feed_lf {d : ChunkDecoder} (hphase : d.phase = .size ∨ d.phase = .trailer) (rest : List UInt8) :
    d.feed (0x0A :: rest) =
      if d.lineEnd.2 = .more then d.lineEnd.1.feed rest else ⟨[], .chunked d.lineEnd.1, d.lineEnd.2, rest⟩ := by
  have hone : d.byte 0x0A = (d.lineEnd.1, [], d.lineEnd.2) := by
    unfold ChunkDecoder.byte
    rcases hphase with h | h
    · rw [h]
      rfl
    · rw [h]
      rfl
  rw [ChunkDecoder.feed, hone]
  simp only [behind_nil]

theorem feed_sizeLine {l : SizeLine} {n : Nat} (h : l.Says n) (rest : List UInt8) :
    ChunkDecoder.feed {} (l.text ++ (crlf ++ rest)) =
      ChunkDecoder.feed { phase := if n = 0 then .trailer else .data, remaining := n } rest := by
  obtain ⟨d, hfeed, hphase, -, -, hfits⟩ := feed_text (d := {}) (.inl rfl) h.lineText rest
  obtain ⟨hline, hover⟩ := hfits (by rw [List.length_nil, Nat.zero_add]; exact h.short)
  rw [List.nil_append] at hline
  have hsome : chunkSize 0 d.line = some n := by
    rw [hline, SizeLine.text, chunkSize_complete h.digits.2 h.ext.2 (by rw [h.value]; exact h.fits), h.value]
  have hne : ¬ (d.line = [] ∨ d.overflow = true) := by
    rw [hline, hover]
    refine not_or.mpr ⟨?_, Bool.false_ne_true⟩
    exact List.append_ne_nil_of_left_ne_nil h.digits.1 _
  have hend : d.lineEnd = ({ phase := if n = 0 then .trailer else .data, remaining := n }, .more) := by
    unfold ChunkDecoder.lineEnd
    simp only [hphase, reduceCtorEq, if_false, if_neg hne, hsome]
    cases n <;> rfl
  rw [hfeed, feed_lf (.inl hphase), hend]
  rfl

theorem feed_chunk {l : SizeLine} {data : List UInt8} (hne : data ≠ []) (h : l.Says data.length)
    (rest : List UInt8) :
    ChunkDecoder.feed {} (chunkBytes (l, data) ++ rest) = (ChunkDecoder.feed {} rest).behind data := by
  have hpos : data.length ≠ 0 := fun hzero => hne (List.length_eq_zero_iff.mp hzero)
  have hbytes : chunkBytes (l, data) ++ rest = l.text ++ (crlf ++ (data ++ (crlf ++ rest))) := by
    unfold chunkBytes
    simp only [List.append_assoc]
  rw [hbytes, feed_sizeLine h, if_neg hpos, feed_data rfl data _ hne (Nat.le_refl _)]
  have htook : (ChunkDecoder.mk .data data.length [] false).took data.length = { phase := .dataCrlf } := by
    unfold ChunkDecoder.took
    simp only [Nat.sub_self, if_true]
  rw [htook, feed_crlf rfl crlf rest nofun (by decide)]
  rfl

theorem feed_trailer {trailer : List Str} (h : ∀ line ∈ trailer, line ≠ [] ∧ LineText line) (rest : List UInt8)
    {d : ChunkDecoder} (hphase : d.phase = .trailer) (hline : d.line = []) :
    ∃ d', d.feed (trailer.flatMap (· ++ crlf) ++ (crlf ++ rest)) = ⟨[], .chunked d', .done, rest⟩ := by
  induction trailer generalizing d with
  | nil =>
    have hnoText : LineText [] := nofun
    obtain ⟨d', hfeed, hsame, -, hempty, -⟩ := feed_text (.inr hphase) hnoText rest
    have hblank : d'.line = [] := hempty.mpr ⟨hline, rfl⟩
    have hend : d'.lineEnd.2 = .done := by
      unfold ChunkDecoder.lineEnd
      simp only [hsame.trans hphase, if_true, hblank]
    refine ⟨d'.lineEnd.1, ?_⟩
    show d.feed ([] ++ (crlf ++ rest)) = _
    rw [hfeed, feed_lf (.inr (hsame.trans hphase)), hend]
    rfl
  | cons line trailer ih =>
    obtain ⟨⟨hne, htext⟩, hrest⟩ := List.forall_mem_cons.mp h
    obtain ⟨d', hfeed, hsame, -, hempty, -⟩ :=
      feed_text (.inr hphase) htext (trailer.flatMap (· ++ crlf) ++ (crlf ++ rest))
    have hfull : d'.line ≠ [] := fun hnone => hne (hempty.mp hnone).2
    have hend : d'.lineEnd = ({ d' with line := [], overflow := false }, .more) := by
      unfold ChunkDecoder.lineEnd
      simp only [hsame.trans hphase, if_true, if_neg hfull]
    obtain ⟨d'', hlast⟩ := ih hrest (d := d'.lineEnd.1) (by rw [hend]; exact hsame.trans hphase) (by rw [hend])
    refine ⟨d'', ?_⟩
    have hbytes : (line :: trailer).flatMap (· ++ crlf) ++ (crlf ++ rest) =
        line ++ (crlf ++ (trailer.flatMap (· ++ crlf) ++ (crlf ++ rest))) := by
      rw [List.flatMap_cons]
      simp only [List.append_assoc]
    rw [hbytes, hfeed, feed_lf (.inr (hsame.trans hphase)), hend, if_pos rfl, ← hlast, hend]

theorem feed_encoding {e : Encoding} (h : e.Valid) (rest : List UInt8) :
    ∃ d', ChunkDecoder.feed {} (e.bytes ++ rest) = ⟨e.payload, .chunked d', .done, rest⟩ := by
  obtain ⟨chunks, last, trailer⟩ := e
  obtain ⟨hchunks, hlast, htrailer⟩ := h
  simp only at hchunks hlast htrailer
  unfold Encoding.bytes Encoding.payload
  simp only
  induction chunks with
  | nil =>
    obtain ⟨d', hend⟩ := feed_trailer htrailer rest (d := { phase := .trailer }) rfl rfl
    refine ⟨d', ?_⟩
    have hbytes : ([] : List (SizeLine × List UInt8)).flatMap chunkBytes ++
        (last.text ++ crlf ++ (trailer.flatMap (· ++ crlf) ++ crlf)) ++ rest =
        last.text ++ (crlf ++ (trailer.flatMap (· ++ crlf) ++ (crlf ++ rest))) := by
      simp only [List.flatMap_nil, List.nil_append, List.append_assoc]
    rw [hbytes, feed_sizeLine hlast, if_pos rfl, hend]
    rfl
  | cons ch chunks ih =>
    obtain ⟨⟨hne, hsays⟩, hrest⟩ := List.forall_mem_cons.mp hchunks
    obtain ⟨d', hend⟩ := ih hrest
    refine ⟨d', ?_⟩
    rw [List.flatMap_cons, List.flatMap_cons, List.append_assoc, List.append_assoc,
      ← List.append_assoc (chunks.flatMap chunkBytes), feed_chunk hne hsays, hend]
    rfl

/-! ### The size lines of a stream -/

def ChunkDecoder.gathered (d : ChunkDecoder) (raw : Str) (ch : UInt8) : Str :=
  if d.phase = .size ∧ ch ≠ 0x0A then raw ++ [ch] else []

/-- The size lines as they are sent, each up to its line feed; `raw` is what has come of the one at hand. -/
def ChunkDecoder.sizeLines : ChunkDecoder → Str → List UInt8 → List Str
  | _, _, [] => []
  | d, raw, ch :: rest =>
    (if d.phase = .size ∧ ch = 0x0A then [raw] else []) ++
      if (d.byte ch).2.2 = .more then (d.byte ch).1.sizeLines (d.gathered raw ch) rest else []

def kept (raw : Str) : Str := raw.filter (· ≠ 0x0D)

def seen (raw : Str) : Str × Bool := ((kept raw).take 24, decide (24 < (kept raw).length))

def Refused (l : Str × Bool) : Prop := l.1 = [] ∨ l.2 = true ∨ chunkSize 0 l.1 = none

instance (l : Str × Bool) : Decidable (Refused l) := inferInstanceAs (Decidable (_ ∨ _ ∨ _))

/-- A size line that begins with its extension or with a carriage return, and is taken all the same. -/
def Misread (raw : Str) : Prop := (raw.head? = some 0x3B ∨ raw.head? = some 0x0D) ∧ ¬ Refused (seen raw)

instance (raw : Str) : Decidable (Misread raw) := inferInstanceAs (Decidable (_ ∧ _))

structure ChunkDecoder.Reads (d : ChunkDecoder) (raw : Str) : Prop where
  line : d.phase ≠ .trailer → (d.line, d.overflow) = seen raw
  idle : d.phase ≠ .size → raw = []

theorem ChunkDecoder.Reads.line_size {d : ChunkDecoder} {raw : Str} (h : d.Reads raw) (hsize : d.phase = .size) :
    (d.line, d.overflow) = seen raw := by
  apply h.line
  rw [hsize]
  decide

theorem lineByte_seen {d : ChunkDecoder} {raw : Str} (h : (d.line, d.overflow) = seen raw) (ch : UInt8) :
    ((d.lineByte ch).line, (d.lineByte ch).overflow) = seen (raw ++ [ch]) := by
  obtain ⟨hline, hover⟩ := Prod.mk.inj h
  unfold ChunkDecoder.lineByte
  by_cases hcr : ch = 0x0D
  · rw [if_pos hcr, h, hcr, seen, seen, kept, kept, List.filter_append]
    simp
  have hkept : kept (raw ++ [ch]) = kept raw ++ [ch] := by
    rw [kept, List.filter_append, List.filter_singleton, decide_eq_true hcr]
    rfl
  rw [if_neg hcr, seen, hkept, hline, List.length_take, List.length_append, List.length_singleton]
  by_cases hroom : (kept raw).length < 24
  · rw [if_pos (by omega), List.take_of_length_le (by omega), List.take_of_length_le (by simp; omega), hover,
      decide_eq_false (by omega), decide_eq_false (by omega)]
  · rw [if_neg (by omega), List.take_append_of_le_length (by omega), decide_eq_true (by omega)]

theorem lineEnd_blank (d : ChunkDecoder) : (d.lineEnd.1.line, d.lineEnd.1.overflow) = seen [] := by
  unfold ChunkDecoder.lineEnd
  simp only
  by_cases htrailer : d.phase = .trailer
  · rw [if_pos htrailer]
    rfl
  · rw [if_neg htrailer]
    split <;> rfl

theorem ChunkDecoder.Reads.byte {d : ChunkDecoder} {raw : Str} (h : d.Reads raw) (ch : UInt8) :
    (d.byte ch).1.Reads (d.gathered raw ch) := by
  unfold ChunkDecoder.byte ChunkDecoder.gathered
  cases hphase : d.phase with
  | size =>
    have hseen := h.line (by rw [hphase]; nofun)
    by_cases hlf : ch = 0x0A
    · simp only [hlf, if_true, ne_eq, not_true_eq_false, and_false, if_false]
      exact ⟨fun _ => lineEnd_blank d, fun _ => rfl⟩
    · simp only [hlf, if_false, ne_eq, not_false_eq_true, and_true, if_true]
      exact ⟨fun _ => lineByte_seen hseen ch, fun hother => absurd ((lineByte_phase d ch).trans hphase) hother⟩
  | trailer =>
    simp only [reduceCtorEq, false_and, if_false]
    refine ⟨fun hother => ?_, fun _ => rfl⟩
    by_cases hlf : ch = 0x0A
    · rw [if_pos hlf]
      exact lineEnd_blank d
    · rw [if_neg hlf] at hother
      exact absurd ((lineByte_phase d ch).trans hphase) hother
  | data | dataCrlf =>
    have hseen := h.line (by rw [hphase]; nofun)
    rw [h.idle (by rw [hphase]; nofun)] at hseen
    simp only [reduceCtorEq, false_and, if_false]
    exact ⟨fun _ => hseen, fun _ => rfl⟩

theorem hexFrom_le_kept (n : Nat) (raw : Str) :
    hexFrom n (raw.takeWhile isHex) ≤ hexFrom n ((kept raw).takeWhile isHex) := by
  induction raw generalizing n with
  | nil => exact Nat.le_refl _
  | cons c raw ih =>
    by_cases hhex : isHex c = true
    · have hkept : kept (c :: raw) = c :: kept raw :=
        List.filter_cons_of_pos (decide_eq_true (isHex_lineText hhex).1)
      rw [hkept, List.takeWhile_cons_of_pos hhex, List.takeWhile_cons_of_pos hhex]
      exact ih _
    · rw [List.takeWhile_cons_of_neg hhex]
      exact le_hexFrom n _

theorem byte_lf_size {d : ChunkDecoder} (hphase : d.phase = .size) :
    d.byte 0x0A = (d.lineEnd.1, [], d.lineEnd.2) := by
  unfold ChunkDecoder.byte
  rw [hphase]
  rfl

theorem lineEnd_size {d : ChunkDecoder} (hphase : d.phase = .size) :
    (Refused (d.line, d.overflow) ∧ d.lineEnd.2 = .malformed ∧ d.lineEnd.1.phase = .size) ∨
      (d.line ≠ [] ∧ d.overflow = false ∧ d.lineEnd.2 = .more ∧
        ((chunkSize 0 d.line = some 0 ∧ d.lineEnd.1.phase = .trailer) ∨
          ∃ n, chunkSize 0 d.line = some (n + 1) ∧ d.lineEnd.1.phase = .data)) := by
  unfold ChunkDecoder.lineEnd Refused
  simp only [hphase, reduceCtorEq, if_false]
  by_cases hbad : d.line = [] ∨ d.overflow = true
  · left
    simp only [if_pos hbad]
    exact ⟨hbad.imp_right .inl, trivial, trivial⟩
  · obtain ⟨hline, hover⟩ := not_or.mp hbad
    simp only [if_neg hbad]
    cases hsize : chunkSize 0 d.line with
    | none => exact .inl ⟨.inr (.inr rfl), rfl, rfl⟩
    | some n =>
      right
      refine ⟨hline, Bool.eq_false_iff.mpr hover, ?_⟩
      cases n with
      | zero => exact ⟨rfl, .inl ⟨rfl, rfl⟩⟩
      | succ n => exact ⟨rfl, .inr ⟨n, rfl, rfl⟩⟩

theorem byte_ends (d : ChunkDecoder) (ch : UInt8) :
    ((d.byte ch).2.2 = .done → d.phase = .trailer) ∧
      ((d.byte ch).2.2 = .malformed ↔ d.phase = .size ∧ ch = 0x0A ∧ Refused (d.line, d.overflow)) ∧
      ((d.byte ch).1.phase = .trailer → d.phase = .trailer ∨
        (d.phase = .size ∧ ch = 0x0A ∧ d.line ≠ [] ∧ d.overflow = false ∧ chunkSize 0 d.line = some 0)) := by
  cases hphase : d.phase with
  | size =>
    by_cases hlf : ch = 0x0A
    · rw [hlf, byte_lf_size hphase]
      rcases lineEnd_size hphase with ⟨hrefused, hend, hnext⟩ | ⟨hline, hover, hend, hnext⟩
      · rw [hend, hnext]
        exact ⟨nofun, iff_of_true rfl ⟨rfl, rfl, hrefused⟩, nofun⟩
      · rw [hend]
        refine ⟨nofun, iff_of_false nofun ?_, ?_⟩
        · rintro ⟨-, -, hrefused⟩
          rcases hrefused with hnone | hlong | hbad
          · exact hline hnone
          · rw [hover] at hlong
            cases hlong
          · rcases hnext with ⟨hzero, -⟩ | ⟨n, hsize, -⟩
            · rw [hzero] at hbad
              cases hbad
            · rw [hsize] at hbad
              cases hbad
        · intro htrailer
          rcases hnext with ⟨hzero, -⟩ | ⟨n, -, hdata⟩
          · exact .inr ⟨rfl, rfl, hline, hover, hzero⟩
          · rw [hdata] at htrailer
            cases htrailer
    · have hone : d.byte ch = (d.lineByte ch, [], .more) := by
        unfold ChunkDecoder.byte
        rw [hphase]
        exact if_neg hlf
      rw [hone]
      refine ⟨nofun, iff_of_false nofun fun h => hlf h.2.1, ?_⟩
      intro htrailer
      rw [lineByte_phase, hphase] at htrailer
      cases htrailer
  | trailer =>
    refine ⟨fun _ => rfl, iff_of_false ?_ nofun, fun _ => .inl rfl⟩
    unfold ChunkDecoder.byte ChunkDecoder.lineEnd
    simp only [hphase, if_true]
    split
    · split <;> nofun
    · nofun
  | data =>
    unfold ChunkDecoder.byte
    simp only [hphase]
    refine ⟨nofun, iff_of_false nofun nofun, ?_⟩
    by_cases hlast : d.remaining - 1 = 0
    · rw [if_pos hlast]
      nofun
    · rw [if_neg hlast]
      nofun
  | dataCrlf =>
    unfold ChunkDecoder.byte
    simp only [hphase]
    refine ⟨nofun, iff_of_false nofun nofun, ?_⟩
    generalize (if d.remaining = 0 then 2 else d.remaining) - 1 = left
    by_cases hlast : left = 0
    · rw [if_pos hlast]
      nofun
    · rw [if_neg hlast]
      nofun

theorem getLast?_append_later {α : Type*} {here later : List α} {l : α} (h : later.getLast? = some l) :
    (here ++ later).getLast? = some l := by
  rw [List.getLast?_append, h]
  rfl

section Lines

variable {d : ChunkDecoder} {raw : Str} {s : List UInt8}

theorem not_line_of_trailer (h : d.phase = .trailer) (ch : UInt8) : ¬ (d.phase = .size ∧ ch = 0x0A) := by
  rintro ⟨hsize, -⟩
  rw [h] at hsize
  cases hsize

theorem sizeLines_done (hr : d.Reads raw) (h : (d.feed s).ends = .done) :
    (d.phase = .trailer ∧ d.sizeLines raw s = []) ∨
      ∃ line, (d.sizeLines raw s).getLast? = some line ∧ ¬ Refused (seen line) ∧
        chunkSize 0 (seen line).1 = some 0 := by
  induction s generalizing d raw with
  | nil => cases h
  | cons ch s ih =>
    obtain ⟨hdone, -, htrailer⟩ := byte_ends d ch
    rw [ChunkDecoder.feed] at h
    rw [ChunkDecoder.sizeLines]
    by_cases hmore : (d.byte ch).2.2 = .more
    · rw [if_pos hmore] at h ⊢
      rcases ih (hr.byte ch) h with ⟨hphase, hnone⟩ | ⟨line, hlast, hline⟩
      · rw [hnone, List.append_nil]
        rcases htrailer hphase with hhere | ⟨hsize, hlf, hline, hover, hzero⟩
        · exact .inl ⟨hhere, if_neg (not_line_of_trailer hhere ch)⟩
        · right
          refine ⟨raw, by rw [if_pos ⟨hsize, hlf⟩]; rfl, ?_⟩
          rw [← hr.line_size hsize]
          refine ⟨?_, hzero⟩
          rintro (hnone | hlong | hbad)
          · exact hline hnone
          · exact Bool.false_ne_true (hover.symm.trans hlong)
          · cases hzero.symm.trans hbad
      · exact .inr ⟨line, getLast?_append_later hlast, hline⟩
    · rw [if_neg hmore] at h ⊢
      have hphase := hdone h
      rw [List.append_nil]
      exact .inl ⟨hphase, if_neg (not_line_of_trailer hphase ch)⟩

theorem sizeLines_malformed (hr : d.Reads raw) (h : (d.feed s).ends = .malformed) :
    ∃ line, (d.sizeLines raw s).getLast? = some line ∧ Refused (seen line) := by
  induction s generalizing d raw with
  | nil => cases h
  | cons ch s ih =>
    obtain ⟨-, hmalformed, -⟩ := byte_ends d ch
    rw [ChunkDecoder.feed] at h
    rw [ChunkDecoder.sizeLines]
    by_cases hmore : (d.byte ch).2.2 = .more
    · rw [if_pos hmore] at h ⊢
      obtain ⟨line, hlast, hrefused⟩ := ih (hr.byte ch) h
      exact ⟨line, getLast?_append_later hlast, hrefused⟩
    · rw [if_neg hmore] at h ⊢
      obtain ⟨hsize, hlf, hrefused⟩ := hmalformed.mp h
      rw [hr.line_size hsize] at hrefused
      rw [if_pos ⟨hsize, hlf⟩]
      exact ⟨raw, rfl, hrefused⟩

theorem sizeLines_refused (hr : d.Reads raw) {line : Str} (hmem : line ∈ d.sizeLines raw s)
    (hrefused : Refused (seen line)) :
    (d.feed s).ends = .malformed ∧ (d.sizeLines raw s).getLast? = some line := by
  induction s generalizing d raw with
  | nil => cases hmem
  | cons ch s ih =>
    obtain ⟨-, hmalformed, -⟩ := byte_ends d ch
    rw [ChunkDecoder.feed]
    rw [ChunkDecoder.sizeLines] at hmem ⊢
    rcases List.mem_append.mp hmem with hhere | hlater
    · by_cases hline : d.phase = .size ∧ ch = 0x0A
      · rw [if_pos hline] at hhere ⊢
        obtain rfl := List.mem_singleton.mp hhere
        rw [← hr.line_size hline.1] at hrefused
        have hend := hmalformed.mpr ⟨hline.1, hline.2, hrefused⟩
        have hstop : ¬ (d.byte ch).2.2 = .more := by
          rw [hend]
          intro h
          cases h
        rw [if_neg hstop, if_neg hstop]
        exact ⟨hend, rfl⟩
      · rw [if_neg hline] at hhere
        cases hhere
    · by_cases hmore : (d.byte ch).2.2 = .more
      · rw [if_pos hmore] at hlater
        rw [if_pos hmore, if_pos hmore]
        obtain ⟨hend, hlast⟩ := ih (hr.byte ch) hlater
        exact ⟨hend, getLast?_append_later hlast⟩
      · rw [if_neg hmore] at hlater
        cases hlater

end Lines

/-! ### What is asked of the decoder -/

def StartsHex (line : Str) : Prop := ∃ c ∈ line.head?, isHex c = true

theorem not_startsHex {line : Str} {c : UInt8} (hhead : line.head? = some c) (hc : isHex c = false) :
    ¬ StartsHex line := by
  rintro ⟨c', hc', hhex⟩
  obtain rfl := Option.some.inj (hhead.symm.trans hc')
  exact Bool.false_ne_true (hc.symm.trans hhex)

/-- For this stream: cuts do not matter; what a valid encoding carries is handed on, `dav_put_finish` is called and
the bytes behind it are left; it is called only after a size line with a number of value zero; and a size line
without a number at its front, or with one that is too large, is refused. -/
structure Decodes (f : WriteFault) (c : ChunkedPut) (s : List UInt8) : Prop where
  cuts : ∀ pieces : List (List UInt8), pieces.flatten = s →
    (consumeSegments f c pieces).1.handed = (davPutConsumeChunked f c s).c.handed ∧
      (consumeSegments f c pieces).2.1 = (davPutConsumeChunked f c s).verdict ∧
      (consumeSegments f c pieces).2.2 = s.length - (davPutConsumeChunked f c s).rest.length
  valid : ∀ (e : Encoding) (rest : List UInt8), e.Valid → s = e.bytes ++ rest →
    (davPutConsumeChunked f c s).verdict = .finish ∧ (davPutConsumeChunked f c s).rest = rest ∧
      (davPutConsumeChunked f c s).c.handed = c.handed ++ e.payload ∧
      (c.isOpen = true → (davPutConsumeChunked f c s).c.sink.all = c.sink.all ++ e.payload)
  finishes : (davPutConsumeChunked f c s).verdict = .finish →
    ∃ line, (c.d.sizeLines [] s).getLast? = some line ∧ StartsHex line ∧ lineValue line = 0
  refuses : ∀ line ∈ c.d.sizeLines [] s, ¬ StartsHex line ∨ 0x7FFFFFFF < lineValue line →
    (davPutConsumeChunked f c s).verdict = .malformed ∧ (c.d.sizeLines [] s).getLast? = some line

theorem of_eq_finish {ends : BodyEnd} : ChunkVerdict.of ends = .finish ↔ ends = .done := by
  cases ends <;> decide

theorem of_eq_malformed {ends : BodyEnd} : ChunkVerdict.of ends = .malformed ↔ ends = .malformed := by
  cases ends <;> decide

theorem not_refused {raw : Str} (hread : ¬ Misread raw) (h : ¬ Refused (seen raw)) :
    StartsHex raw ∧ chunkSize 0 (seen raw).1 = some (lineValue (kept raw)) ∧ lineValue (kept raw) ≤ 0x7FFFFFFF := by
  have hfirst := not_or.mp fun hfirst => hread ⟨hfirst, h⟩
  obtain ⟨hline, hrest⟩ := not_or.mp h
  obtain ⟨hover, hsize⟩ := not_or.mp hrest
  have hall : (seen raw).1 = kept raw :=
    List.take_of_length_le (Nat.not_lt.mp fun hlong => hover (decide_eq_true hlong))
  rw [hall] at hline hsize ⊢
  obtain ⟨v, hv⟩ := Option.ne_none_iff_exists'.mp hsize
  obtain ⟨hvalue, hfits, hhead⟩ := chunkSize_some (Nat.zero_le _) hv
  rw [hvalue] at hv hfits
  refine ⟨?_, hv, hfits⟩
  cases raw with
  | nil => exact absurd rfl hline
  | cons c rest =>
    have hkept : kept (c :: rest) = c :: kept rest :=
      List.filter_cons_of_pos (decide_eq_true fun hcr => hfirst.2 (congrArg some hcr))
    refine ⟨c, rfl, (hhead c (by rw [hkept]; rfl)).resolve_right ?_⟩
    exact fun hext => hfirst.1 (congrArg some hext)

end Pi1MHz.Ws
