import Mathlib.Data.Bool.AllAny
import Pi1MHz.WsChunkCoding
import Pi1MHz.WsUpload

/-!
# The web server: the body of a form

A form with one file, as a browser sends it: the boundary, the header of the part, the bytes of the file, and the
boundary again with two hyphens behind it.
-/

namespace Pi1MHz.Ws

open Server (childPath partPath WS_UPLOAD_HEAD_MAX wsFindHeaderEnd uploadName wsAfter wsExtractFilename wsBasename)

def BoundaryText (boundary : Str) : Prop :=
  1 ≤ boundary.length ∧ boundary.length ≤ 127 ∧ LineText boundary

def formHead (boundary : Str) (lines : List Str) : List UInt8 :=
  [0x2D, 0x2D] ++ boundary ++ (crlf ++ (lines.flatMap (· ++ crlf) ++ crlf))

def formDelim (boundary : Str) : List UInt8 := [0x0D, 0x0A, 0x2D, 0x2D] ++ boundary

theorem formHead_last (boundary : Str) (lines : List Str) : (formHead boundary lines).getLast? = some 0x0A := by
  have hend : formHead boundary lines =
      ([0x2D, 0x2D] ++ boundary ++ (crlf ++ (lines.flatMap (· ++ crlf) ++ [0x0D]))) ++ [0x0A] := by
    unfold formHead
    simp only [List.append_assoc]
    rfl
  rw [hend]
  exact List.getLast?_concat

/-! ### The header -/

theorem findHeaderEnd_text {text : Str} (htext : LineText text) (t : List UInt8) :
    wsFindHeaderEnd (text ++ t) = (wsFindHeaderEnd t).map (· + text.length) := by
  induction text with
  | nil => simp
  | cons c text ih =>
    obtain ⟨⟨hcr, hlf⟩, hrest⟩ := List.forall_mem_cons.mp htext
    have hno : ¬ [0x0A, 0x0A].isPrefixOf (c :: (text ++ t)) = true := by
      intro h
      exact hlf (List.cons_prefix_cons.mp (List.isPrefixOf_iff_prefix.mp h)).1.symm
    have hno' : ¬ [0x0D, 0x0A, 0x0D, 0x0A].isPrefixOf (c :: (text ++ t)) = true := by
      intro h
      exact hcr (List.cons_prefix_cons.mp (List.isPrefixOf_iff_prefix.mp h)).1.symm
    rw [List.cons_append, wsFindHeaderEnd, if_neg hno, if_neg hno', ih hrest, Option.map_map]
    rfl

theorem findHeaderEnd_line {line : Str} (hne : line ≠ []) (htext : LineText line) (t : List UInt8) :
    wsFindHeaderEnd (crlf ++ (line ++ t)) = (wsFindHeaderEnd t).map (· + (line.length + 2)) := by
  obtain ⟨c, rest, rfl⟩ := List.exists_cons_of_ne_nil hne
  obtain ⟨⟨hcr, hlf⟩, -⟩ := List.forall_mem_cons.mp htext
  have hfirst : wsFindHeaderEnd (0x0D :: 0x0A :: c :: (rest ++ t)) =
      (wsFindHeaderEnd (0x0A :: c :: (rest ++ t))).map (· + 1) := by
    have hno : ¬ [0x0D, 0x0A, 0x0D, 0x0A].isPrefixOf (0x0D :: 0x0A :: c :: (rest ++ t)) = true := by
      intro h
      have hp := List.isPrefixOf_iff_prefix.mp h
      rw [List.cons_prefix_cons, List.cons_prefix_cons, List.cons_prefix_cons] at hp
      exact hcr hp.2.2.1.symm
    have hno' : ¬ [0x0A, 0x0A].isPrefixOf ((0x0D : UInt8) :: 0x0A :: c :: (rest ++ t)) = true := Bool.false_ne_true
    rw [wsFindHeaderEnd, if_neg hno', if_neg hno]
  have hsecond : wsFindHeaderEnd (0x0A :: c :: (rest ++ t)) = (wsFindHeaderEnd (c :: (rest ++ t))).map (· + 1) := by
    have hno : ¬ [0x0A, 0x0A].isPrefixOf (0x0A :: c :: (rest ++ t)) = true := by
      intro h
      have hp := List.isPrefixOf_iff_prefix.mp h
      rw [List.cons_prefix_cons, List.cons_prefix_cons] at hp
      exact hlf hp.2.1.symm
    have hno' : ¬ [0x0D, 0x0A, 0x0D, 0x0A].isPrefixOf ((0x0A : UInt8) :: c :: (rest ++ t)) = true :=
      Bool.false_ne_true
    rw [wsFindHeaderEnd, if_neg hno, if_neg hno']
  have hline := findHeaderEnd_text htext t
  rw [List.cons_append] at hline
  show wsFindHeaderEnd (0x0D :: 0x0A :: c :: (rest ++ t)) = _
  rw [hfirst, hsecond, hline, Option.map_map, Option.map_map]
  rfl

theorem findHeaderEnd_lines {lines : List Str} (h : ∀ line ∈ lines, line ≠ [] ∧ LineText line) (t : List UInt8) :
    wsFindHeaderEnd (crlf ++ (lines.flatMap (· ++ crlf) ++ (crlf ++ t))) =
      some ((crlf ++ (lines.flatMap (· ++ crlf) ++ crlf)).length) := by
  induction lines with
  | nil => rfl
  | cons line lines ih =>
    obtain ⟨⟨hne, htext⟩, hrest⟩ := List.forall_mem_cons.mp h
    have hbytes : crlf ++ ((line :: lines).flatMap (· ++ crlf) ++ (crlf ++ t)) =
        crlf ++ (line ++ (crlf ++ (lines.flatMap (· ++ crlf) ++ (crlf ++ t)))) := by
      rw [List.flatMap_cons]
      simp only [List.append_assoc]
    have hcrlf : crlf.length = 2 := rfl
    rw [hbytes, findHeaderEnd_line hne htext, ih hrest, Option.map_some, List.flatMap_cons]
    apply congrArg some
    simp only [List.length_append, hcrlf]
    omega

theorem findHeaderEnd_form {boundary : Str} (hboundary : LineText boundary) {lines : List Str}
    (hlines : ∀ line ∈ lines, line ≠ [] ∧ LineText line) (t : List UInt8) :
    wsFindHeaderEnd (formHead boundary lines ++ t) = some (formHead boundary lines).length := by
  have htext : LineText ([0x2D, 0x2D] ++ boundary) := by
    intro c hc
    rcases List.mem_append.mp hc with hhyphen | hin
    · rw [List.mem_cons, List.mem_singleton, or_self] at hhyphen
      rw [hhyphen]
      decide
    · exact hboundary c hin
  have hbytes : formHead boundary lines ++ t =
      ([0x2D, 0x2D] ++ boundary) ++ (crlf ++ (lines.flatMap (· ++ crlf) ++ (crlf ++ t))) := by
    unfold formHead
    simp only [List.append_assoc]
  rw [hbytes, findHeaderEnd_text htext, findHeaderEnd_lines hlines]
  unfold formHead
  rw [Option.map_some]
  apply congrArg some
  simp only [List.length_append]
  omega

theorem findHeaderEnd_append {s : List UInt8} {k : Nat} (h : wsFindHeaderEnd s = some k) (t : List UInt8) :
    wsFindHeaderEnd (s ++ t) = some k ∧ 2 ≤ k ∧ k ≤ s.length ∧ s[k - 1]? = some 0x0A ∧ (k = 2 → s[0]? = some 0x0A) := by
  induction s generalizing k with
  | nil => cases h
  | cons b s ih =>
    rw [wsFindHeaderEnd] at h
    rw [List.cons_append, wsFindHeaderEnd]
    by_cases hlf : [0x0A, 0x0A].isPrefixOf (b :: s) = true
    · rw [if_pos hlf] at h
      cases h
      obtain ⟨rest, hrest⟩ := List.isPrefixOf_iff_prefix.mp hlf
      have hlonger : [0x0A, 0x0A].isPrefixOf (b :: (s ++ t)) = true := by
        rw [← List.cons_append, ← hrest]
        rfl
      rw [if_pos hlonger, ← hrest]
      exact ⟨rfl, Nat.le_refl _, Nat.le_add_left _ _, rfl, fun _ => rfl⟩
    rw [if_neg hlf] at h
    by_cases hcrlf : [0x0D, 0x0A, 0x0D, 0x0A].isPrefixOf (b :: s) = true
    · rw [if_pos hcrlf] at h
      cases h
      obtain ⟨rest, hrest⟩ := List.isPrefixOf_iff_prefix.mp hcrlf
      have hlonger : [0x0D, 0x0A, 0x0D, 0x0A].isPrefixOf (b :: (s ++ t)) = true := by
        rw [← List.cons_append, ← hrest]
        rfl
      have hno : ¬ [0x0A, 0x0A].isPrefixOf (b :: (s ++ t)) = true := by
        rw [← List.cons_append, ← hrest]
        exact Bool.false_ne_true
      rw [if_neg hno, if_pos hlonger, ← hrest]
      exact ⟨rfl, by decide, Nat.le_add_left _ _, rfl, fun hk => absurd hk (by decide)⟩
    · rw [if_neg hcrlf] at h
      obtain ⟨q, hq, rfl⟩ := Option.map_eq_some_iff.mp h
      obtain ⟨hlater, htwo, hle, hend, hshort⟩ := ih hq
      obtain ⟨c, d, s', rfl⟩ : ∃ c d s', s = c :: d :: s' := by
        cases s with
        | nil => exact absurd hle (by rw [List.length_nil]; omega)
        | cons c s =>
          cases s with
          | nil => exact absurd hle (by rw [List.length_singleton]; omega)
          | cons d s => exact ⟨c, d, s, rfl⟩
      have hno : ¬ [0x0A, 0x0A].isPrefixOf (b :: (c :: d :: s' ++ t)) = true := by
        intro hp
        apply hlf
        have hp := List.isPrefixOf_iff_prefix.mp hp
        rw [List.cons_append, List.cons_prefix_cons, List.cons_prefix_cons] at hp
        apply List.isPrefixOf_iff_prefix.mpr
        rw [List.cons_prefix_cons, List.cons_prefix_cons]
        exact ⟨hp.1, hp.2.1, List.nil_prefix⟩
      have hno' : ¬ [0x0D, 0x0A, 0x0D, 0x0A].isPrefixOf (b :: (c :: d :: s' ++ t)) = true := by
        intro hp
        have hp := List.isPrefixOf_iff_prefix.mp hp
        rw [List.cons_append, List.cons_append, List.cons_prefix_cons, List.cons_prefix_cons, List.cons_prefix_cons] at hp
        obtain ⟨hb, hc, hd, hlast⟩ := hp
        cases s' with
        | cons e s' =>
          apply hcrlf
          rw [List.cons_append, List.cons_prefix_cons] at hlast
          apply List.isPrefixOf_iff_prefix.mpr
          rw [List.cons_prefix_cons, List.cons_prefix_cons, List.cons_prefix_cons, List.cons_prefix_cons]
          exact ⟨hb, hc, hd, hlast.1, List.nil_prefix⟩
        | nil =>
          -- two bytes are left, so they are the blank line, and the second is no carriage return
          have hq : q = 2 := Nat.le_antisymm hle htwo
          rw [hq] at hend
          have hlfd : d = 0x0A := Option.some.inj hend
          rw [hlfd] at hd
          cases hd
      rw [if_neg hno, if_neg hno', hlater]
      refine ⟨rfl, by omega, Nat.succ_le_succ hle, ?_, fun hk => absurd hk (by omega)⟩
      obtain ⟨q', rfl⟩ : ∃ q', q = q' + 1 := ⟨q - 1, by omega⟩
      exact hend

/-! ### The name of the file -/

theorem wsPrefixCi_length {s key : Str} (h : wsPrefixCi s key = true) : key.length ≤ s.length := by
  induction key generalizing s with
  | nil => exact Nat.zero_le _
  | cons p key ih =>
    cases s with
    | nil => cases h
    | cons c s =>
      rw [wsPrefixCi, Bool.and_eq_true] at h
      exact Nat.succ_le_succ (ih h.2)

theorem wsPrefixCi_append {s key : Str} (h : key.length ≤ s.length) (m : Str) :
    wsPrefixCi (s ++ m) key = wsPrefixCi s key := by
  induction key generalizing s with
  | nil =>
    unfold wsPrefixCi
    rfl
  | cons p key ih =>
    cases s with
    | nil => cases h
    | cons c s =>
      rw [List.cons_append, wsPrefixCi, wsPrefixCi, ih (Nat.le_of_succ_le_succ h)]

theorem wsAfter_append {key s f : Str} (h : wsAfter key s = some f) (m : Str) :
    wsAfter key (s ++ m) = some (f ++ m) ∧ key.length ≤ s.length ∧ f <:+ s := by
  induction s with
  | nil => cases h
  | cons c s ih =>
    rw [wsAfter] at h
    rw [List.cons_append, wsAfter]
    by_cases hkey : wsPrefixCi (c :: s) key = true
    · rw [if_pos hkey] at h
      cases h
      have hfits := wsPrefixCi_length hkey
      have hlonger : wsPrefixCi (c :: (s ++ m)) key = true := by
        rw [← List.cons_append, wsPrefixCi_append hfits, hkey]
      rw [if_pos hlonger, ← List.cons_append, List.drop_append_of_le_length hfits]
      exact ⟨rfl, hfits, List.drop_suffix _ _⟩
    · rw [if_neg hkey] at h
      obtain ⟨hlater, hfits, hsuffix⟩ := ih h
      have hno : ¬ wsPrefixCi (c :: (s ++ m)) key = true := by
        rw [← List.cons_append, wsPrefixCi_append (Nat.le_succ_of_le hfits)]
        exact hkey
      rw [if_neg hno]
      exact ⟨hlater, Nat.le_succ_of_le hfits, hsuffix.trans (List.suffix_cons c s)⟩

theorem cstr_append (head more : List UInt8) :
    ∃ m, cstr (head ++ more) = cstr head ++ m ∧ (m = [] ∨ cstr head = head) := by
  unfold cstr
  by_cases hnul : ∀ c ∈ head, decide (c ≠ 0) = true
  · refine ⟨more.takeWhile (· ≠ 0), ?_, .inr (List.takeWhile_eq_self_iff.mpr hnul)⟩
    rw [List.takeWhile_append_of_pos hnul, List.takeWhile_eq_self_iff.mpr hnul]
  · refine ⟨[], ?_, .inl rfl⟩
    rw [List.append_nil, List.takeWhile_append, if_neg]
    intro hlength
    apply hnul
    rw [← List.takeWhile_eq_self_iff]
    exact (List.takeWhile_prefix _).eq_of_length hlength

theorem basename_lf {raw : Str} (h : raw.getLast? = some 0x0A) : (wsBasename raw).all (0x20 ≤ ·) = false := by
  obtain ⟨raw, rfl⟩ := List.getLast?_eq_some_iff.mp h
  have hname : wsBasename (raw ++ [0x0A]) = wsBasename raw ++ [0x0A] := List.rtakeWhile_concat_pos _ _ _ (by decide)
  rw [hname, List.all_append]
  exact Bool.and_false _

theorem uploadName_append {head : List UInt8} {name : Str} (hname : uploadName head = some name)
    (hend : head.getLast? = some 0x0A) (more : List UInt8) : uploadName (head ++ more) = some name := by
  suffices h : wsExtractFilename (head ++ more) = wsExtractFilename head by
    unfold uploadName at hname ⊢
    rw [h]
    exact hname
  have hgood : ∀ raw, wsExtractFilename head = some raw → (wsBasename raw).all (0x20 ≤ ·) = true := by
    intro raw hraw
    unfold uploadName at hname
    rw [hraw] at hname
    by_contra hbad
    have hguard : ¬ (wsBasename raw ≠ [] ∧ wsBasename raw ≠ [0x2E] ∧ wsBasename raw ≠ [0x2E, 0x2E] ∧
        (wsBasename raw).all (0x20 ≤ ·) = true) := fun h => hbad h.2.2.2
    simp only [Option.map_some, Option.bind_eq_bind, Option.bind_some, guard, if_neg hguard] at hname
    cases hname
  cases hraw : wsExtractFilename head with
  | none =>
    unfold uploadName at hname
    rw [hraw] at hname
    cases hname
  | some raw =>
    have hclean := hgood raw hraw
    unfold wsExtractFilename at hraw ⊢
    obtain ⟨f, hf, hraw⟩ := Option.bind_eq_some_iff.mp hraw
    obtain ⟨m, hm, hcases⟩ := cstr_append head more
    obtain ⟨hlater, -, hsuffix⟩ := wsAfter_append hf m
    rw [hm, hlater]
    simp only [Option.bind_eq_bind, Option.bind_some] at hraw ⊢
    by_cases hquote : f.headD 0 = 0x22
    · cases f with
      | nil => cases hquote
      | cons q g =>
        have hq : q = 0x22 := hquote
        rw [hq] at hraw hsuffix ⊢
        have hin : raw = (g.takeWhile (· ≠ 0x22)).take 255 := (Option.some.inj hraw).symm
        show some (((g ++ m).takeWhile (· ≠ 0x22)).take 255) = some raw
        apply congrArg some
        rw [hin]
        rcases hcases with hm | hwhole
        · rw [hm, List.append_nil]
        by_cases hclosed : ∀ c ∈ g, decide (c ≠ 0x22) = true
        · rw [List.takeWhile_append_of_pos hclosed, List.takeWhile_eq_self_iff.mpr hclosed]
          by_cases hlong : 255 ≤ g.length
          · exact List.take_append_of_le_length hlong
          · -- the quotation is not closed, so the name would reach to the end of the header
            exfalso
            rw [List.takeWhile_eq_self_iff.mpr hclosed, List.take_of_length_le (by omega)] at hin
            have hlast : g.getLast? = some 0x0A := by
              rw [hwhole] at hsuffix
              obtain ⟨before, hbefore⟩ := hsuffix
              rw [← hbefore, List.getLast?_append, List.getLast?_cons] at hend
              cases g with
              | nil => cases hend
              | cons d g => exact hend
            rw [← hin] at hlast
            rw [basename_lf hlast] at hclean
            cases hclean
        · rw [List.takeWhile_append, if_neg]
          intro hlength
          apply hclosed
          rw [← List.takeWhile_eq_self_iff]
          exact (List.takeWhile_prefix _).eq_of_length hlength
    · simp only [guard, if_neg hquote] at hraw
      cases hraw

/-! ### The boundary -/

/-- The boundary behind a file that does not contain it is found where it stands: it begins with the only carriage
return it has, so it cannot begin earlier. -/
theorem find_delim {boundary : Str} (htext : LineText boundary) {content : List UInt8}
    (hcontent : ¬ formDelim boundary <:+: content) (after : List UInt8) :
    wsMemfind (formDelim boundary) (content ++ (formDelim boundary ++ after)) = some content.length := by
  have hstart : wsMemfind (formDelim boundary) (formDelim boundary ++ after) = some 0 :=
    wsMemfind_start (List.prefix_append _ _) nofun
  rw [wsMemfind_append, hstart, Option.map_some, Nat.zero_add]
  intro i hi hstarts
  by_cases hinside : i + (formDelim boundary).length ≤ content.length
  · apply hcontent
    rw [List.drop_append_of_le_length (Nat.le_of_lt hi)] at hstarts
    have hprefix : formDelim boundary <+: content.drop i := by
      refine List.prefix_of_prefix_length_le hstarts (List.prefix_append _ _) ?_
      rw [List.length_drop]
      omega
    exact hprefix.isInfix.trans (List.drop_suffix i content).isInfix
  · -- the byte of the boundary that stands where it begins again
    obtain ⟨rest, hrest⟩ := hstarts
    have hlt : content.length - i < (formDelim boundary).length := by omega
    have hcr : (formDelim boundary)[content.length - i]? = some 0x0D := by
      have hat := congrArg (·[content.length - i]?) hrest
      rw [List.getElem?_append_left hlt, List.getElem?_drop, Nat.add_sub_cancel' (Nat.le_of_lt hi),
        List.getElem?_append_right (Nat.le_refl _), Nat.sub_self] at hat
      exact hat
    have hne : ∀ k, 0 < k → (formDelim boundary)[k]? ≠ some 0x0D := by
      intro k hk hat
      unfold formDelim at hat
      match k with
      | 1 => cases hat
      | 2 => cases hat
      | 3 => cases hat
      | k + 4 =>
        have hmem : (0x0D : UInt8) ∈ boundary := List.mem_of_getElem? (i := k) hat
        exact (htext _ hmem).1 rfl
    exact hne _ (Nat.sub_pos_of_lt hi) hcr

theorem afterBoundary_hyphens (rest : List UInt8) : afterBoundary (0x2D :: 0x2D :: rest) = .closing := by
  have hlong : ¬ ((0x2D : UInt8) :: 0x2D :: rest).length < 2 := Nat.not_lt.mpr (Nat.le_add_left _ _)
  unfold afterBoundary
  rw [if_neg hlong]
  rfl

theorem afterBoundary_open {after : List UInt8} (h : after.take 2 ≠ [0x2D, 0x2D]) : afterBoundary after ≠ .closing := by
  unfold afterBoundary
  rw [if_neg h]
  split
  · nofun
  · nofun

theorem partOf_form {boundary : Str} (htext : LineText boundary) {content : List UInt8}
    (hcontent : ¬ formDelim boundary <:+: content) (after : List UInt8) :
    (partOf (formDelim boundary) (content ++ (formDelim boundary ++ after))).out = content ∧
      (partOf (formDelim boundary) (content ++ (formDelim boundary ++ after))).ends = afterBoundary after := by
  have hdrop : (content ++ (formDelim boundary ++ after)).drop (content.length + (formDelim boundary).length) = after := by
    rw [← List.append_assoc, ← List.length_append, List.drop_left]
  rw [partOf_found (find_delim htext hcontent after), hdrop]
  exact ⟨List.take_left, rfl⟩

theorem bounded_delim {boundary : Str} (h : BoundaryText boundary) :
    UploadConn.Bounded (formDelim boundary) := by
  obtain ⟨hpos, hle, -⟩ := h
  unfold UploadConn.Bounded formDelim WS_BOUNDARY_MAX
  rw [List.length_append]
  constructor
  · exact Nat.lt_add_right _ (by decide)
  · have hfour : ([0x0D, 0x0A, 0x2D, 0x2D] : List UInt8).length = 4 := rfl
    omega

/-! ### Segments -/

namespace UploadConn

def streamOf (segments : List (UploadEnv × List UInt8)) : List UInt8 := segments.flatMap Prod.snd

theorem uploadSegments_cons (c : UploadConn) (seg : UploadEnv × List UInt8) (segs : List (UploadEnv × List UInt8)) :
    c.uploadSegments (seg :: segs) = (c.uploadConsume seg.1 seg.2).bind (·.uploadSegments segs) := by
  unfold uploadSegments
  rw [List.foldlM_cons]
  rfl

theorem uploadConsume_body {c : UploadConn} (h : c.state ≠ .partHeader) (env : UploadEnv) (data : List UInt8) :
    c.uploadConsume env data = c.uploadBody env data := if_pos (.inr h)

theorem progress_state {quiet calm : Prop} {c c' : UploadConn} {z : List UInt8} (hstate : c.state = .data)
    (h : Progress quiet calm c z c') : c'.state ≠ .partHeader := by
  cases h with
  | feeding hends hall =>
    show c.state ≠ .partHeader
    rw [hstate]
    decide
  | failed hanother =>
    rw [uploadFail_failed]
    decide
  | finished hclosing hall hq hc =>
    rename_i env sink
    rcases uploadFinish_over env { c with sink := sink, tail := [] } with hover | hover
    · rw [hover]
      decide
    · rw [hover]
      decide

theorem segments_body {quiet calm : Prop} {c : UploadConn} (hopen : c.fileOpen = true) (hstate : c.state = .data)
    (hdelim : Bounded c.delim) (segs : List (UploadEnv × List UInt8)) {z : List UInt8} {c' : UploadConn}
    (h : Progress quiet calm c z c') (henv : ∀ seg ∈ segs, (quiet → Quiet seg.1) ∧ (calm → Calm seg.1)) :
    ∃ c'', c'.uploadSegments segs = some c'' ∧ Progress quiet calm c (z ++ streamOf segs) c'' := by
  induction segs generalizing z c' with
  | nil => exact ⟨c', rfl, by rw [show streamOf [] = [] from rfl, List.append_nil]; exact h⟩
  | cons seg segs ih =>
    obtain ⟨⟨hquiet, hcalm⟩, hrest⟩ := List.forall_mem_cons.mp henv
    obtain ⟨c1, hbody, hprogress⟩ := uploadBody_progress hopen hstate hdelim h hquiet hcalm seg.2
    obtain ⟨c2, hsegs, hlast⟩ := ih hprogress hrest
    refine ⟨c2, ?_, ?_⟩
    · rw [uploadSegments_cons, uploadConsume_body (progress_state hstate h), hbody]
      exact hsegs
    · rw [List.append_assoc] at hlast
      exact hlast

theorem segments_failed {c : UploadConn} (h : c.state = .failed) (segs : List (UploadEnv × List UInt8)) :
    c.uploadSegments segs = some c := by
  induction segs with
  | nil => rfl
  | cons seg segs ih =>
    have hconsume : c.uploadConsume seg.1 seg.2 = some c := by
      rw [uploadConsume_body (by rw [h]; decide), uploadBody, if_neg (by rw [h]; decide)]
    rw [uploadSegments_cons, hconsume]
    exact ih

def begun (c : UploadConn) : UploadConn := { c with state := .data, tail := [] }

theorem progress_begun {quiet calm : Prop} {c : UploadConn} (hsink : c.sink = {}) :
    Progress quiet calm c.begun [] c.begun := by
  have hpart : partOf c.begun.delim [] = ⟨[], [], .more⟩ := by
    rw [partOf_none rfl, List.take_nil, List.drop_nil]
  have hsame : c.begun = { c.begun with sink := c.sink, tail := (partOf c.begun.delim []).tail } := by
    rw [hpart]
    rfl
  have hfeeding : Progress quiet calm c.begun [] { c.begun with sink := c.sink, tail := (partOf c.begun.delim []).tail } :=
    .feeding (by rw [hpart]) (by rw [hpart, hsink]; rfl)
  rw [← hsame] at hfeeding
  exact hfeeding

/-- The blank line is in the segment: the part begins with what the header's buffer has behind it, and goes on with
the rest of the segment. -/
theorem uploadConsume_begins {env : UploadEnv} {c : UploadConn} {data : List UInt8} {bodyAt : Nat} (hdata : data ≠ [])
    (hstate : c.state = .partHeader) (hroom : c.head.length ≤ WS_UPLOAD_HEAD_MAX)
    (hfind : wsFindHeaderEnd (c.head ++ data.take (WS_UPLOAD_HEAD_MAX - c.head.length)) = some bodyAt) :
    c.uploadConsume env data =
      let b := uploadBeginPart env { c with head := c.head ++ data.take (WS_UPLOAD_HEAD_MAX - c.head.length) }
      if b.state = .failed then some b
      else (b.begun.uploadBody env (b.head.drop bodyAt)).bind
        (·.uploadBody env (data.drop (WS_UPLOAD_HEAD_MAX - c.head.length))) := by
  have hgo : ¬ (data = [] ∨ c.state ≠ .partHeader) := not_or.mpr ⟨hdata, not_not.mpr hstate⟩
  have hfits : c.head.length + min data.length (WS_UPLOAD_HEAD_MAX - c.head.length) ≤ WS_UPLOAD_HEAD_MAX := by omega
  rw [uploadConsume, if_neg hgo]
  simp only [guard_eq_true hfits, take_slice, drop_slice, pure_bind, hfind]
  rfl

theorem uploadConsume_waits {env : UploadEnv} {c : UploadConn} {data : List UInt8} (hdata : data ≠ [])
    (hstate : c.state = .partHeader) (hroom : c.head.length ≤ WS_UPLOAD_HEAD_MAX)
    (hfind : wsFindHeaderEnd (c.head ++ data.take (WS_UPLOAD_HEAD_MAX - c.head.length)) = none) :
    c.uploadConsume env data =
      let c := { c with head := c.head ++ data.take (WS_UPLOAD_HEAD_MAX - c.head.length) }
      if WS_UPLOAD_HEAD_MAX ≤ c.head.length then some c.uploadFail else some c := by
  have hgo : ¬ (data = [] ∨ c.state ≠ .partHeader) := not_or.mpr ⟨hdata, not_not.mpr hstate⟩
  have hfits : c.head.length + min data.length (WS_UPLOAD_HEAD_MAX - c.head.length) ≤ WS_UPLOAD_HEAD_MAX := by omega
  rw [uploadConsume, if_neg hgo]
  simp only [guard_eq_true hfits, take_slice, pure_bind, hfind]
  rfl

theorem begun_of {env : UploadEnv} {c b : UploadConn} (hb : uploadBeginPart env c = b) (hgoes : b.state ≠ .failed) :
    b.begun.fileOpen = true ∧ b.begun.delim = c.delim ∧ b.head = c.head ∧ b.sink = {} := by
  rcases uploadBeginPart_cases env c with ⟨name, -, -, -, hbegun⟩ | ⟨hfailed, -⟩
  · rw [← hb, hbegun]
    exact ⟨rfl, rfl, rfl, rfl⟩
  · rw [hb] at hfailed
    exact absurd hfailed hgoes

def Outcome (quiet calm : Prop) (c : UploadConn) (head body : List UInt8) (envs : List UploadEnv)
    (c' : UploadConn) : Prop :=
  ∃ env ∈ envs, ∃ more, ∃ b, b = uploadBeginPart env { c with head := head ++ more } ∧
    (b.state = .failed ∧ c' = b ∨ b.state ≠ .failed ∧ Progress quiet calm b.begun body c')

theorem segments_form {quiet calm : Prop} {boundary : Str} (hboundary : BoundaryText boundary) {lines : List Str}
    (hlines : ∀ line ∈ lines, line ≠ [] ∧ LineText line) (hfits : (formHead boundary lines).length ≤ WS_UPLOAD_HEAD_MAX)
    (body : List UInt8) (segs : List (UploadEnv × List UInt8)) {c : UploadConn} (hstate : c.state = .partHeader)
    (hdelim : c.delim = formDelim boundary) (hshort : c.head.length < (formHead boundary lines).length)
    (hstream : c.head ++ streamOf segs = formHead boundary lines ++ body)
    (henv : ∀ seg ∈ segs, (quiet → Quiet seg.1) ∧ (calm → Calm seg.1)) :
    ∃ c', c.uploadSegments segs = some c' ∧
      Outcome quiet calm c (formHead boundary lines) body (segs.map Prod.fst) c' := by
  induction segs generalizing c with
  | nil =>
    have hlength := congrArg List.length hstream
    rw [show streamOf [] = [] from rfl, List.append_nil, List.length_append] at hlength
    omega
  | cons seg segs ih =>
    obtain ⟨env, data⟩ := seg
    obtain ⟨⟨hquiet, hcalm⟩, hrest⟩ := List.forall_mem_cons.mp henv
    have hsplit : streamOf ((env, data) :: segs) = data ++ streamOf segs := List.flatMap_cons
    rw [hsplit] at hstream
    rw [uploadSegments_cons]
    have hroom : c.head.length ≤ WS_UPLOAD_HEAD_MAX := by omega
    have hlater : ∀ c', Outcome quiet calm c (formHead boundary lines) body (segs.map Prod.fst) c' →
        Outcome quiet calm c (formHead boundary lines) body (((env, data) :: segs).map Prod.fst) c' := by
      rintro c' ⟨env', hmem, hout⟩
      exact ⟨env', List.mem_cons_of_mem _ hmem, hout⟩
    by_cases hdata : data = []
    · have hsame : c.uploadConsume env data = some c := by
        rw [uploadConsume, if_pos (.inl hdata), uploadBody, if_neg (by rw [hstate]; decide)]
      rw [hdata, List.nil_append] at hstream
      obtain ⟨c', hsegs, hout⟩ := ih hstate hdelim hshort hstream hrest
      refine ⟨c', ?_, hlater c' hout⟩
      rw [hsame]
      exact hsegs
    generalize hn : WS_UPLOAD_HEAD_MAX - c.head.length = n
    have htakeDrop := List.take_append_drop n data
    by_cases hwhole : (formHead boundary lines).length ≤ (c.head ++ data.take n).length
    · -- the header is complete in this segment
      have hin : c.head ++ data.take n <+: formHead boundary lines ++ body := by
        refine ⟨data.drop n ++ streamOf segs, ?_⟩
        rw [List.append_assoc, ← List.append_assoc (data.take n), htakeDrop, hstream]
      have hprefix : formHead boundary lines <+: c.head ++ data.take n :=
        List.prefix_of_prefix_length_le (List.prefix_append _ body) hin hwhole
      obtain ⟨more, hmore⟩ := hprefix
      have hfind : wsFindHeaderEnd (c.head ++ data.take n) = some (formHead boundary lines).length := by
        rw [← hmore]
        exact findHeaderEnd_form hboundary.2.2 hlines more
      have hbody : more ++ (data.drop n ++ streamOf segs) = body := by
        have hboth : formHead boundary lines ++ (more ++ (data.drop n ++ streamOf segs)) =
            formHead boundary lines ++ body := by
          rw [← List.append_assoc, hmore, List.append_assoc, ← List.append_assoc (data.take n), htakeDrop, hstream]
        exact List.append_cancel_left hboth
      rw [← hn] at hfind
      rw [uploadConsume_begins hdata hstate hroom hfind]
      simp only [hn, ← hmore]
      generalize hb : uploadBeginPart env { c with head := formHead boundary lines ++ more } = b
      by_cases hfailed : b.state = .failed
      · rw [if_pos hfailed]
        refine ⟨b, segments_failed hfailed segs, env, List.mem_cons_self, more, b, hb.symm, ?_⟩
        exact .inl ⟨hfailed, rfl⟩
      rw [if_neg hfailed]
      obtain ⟨hopen, hsame, hkept, hsink⟩ := begun_of hb hfailed
      have hbounded : Bounded b.begun.delim := by
        rw [hsame]
        show Bounded c.delim
        rw [hdelim]
        exact bounded_delim hboundary
      have hhead : b.head.drop (formHead boundary lines).length = more := by
        rw [hkept]
        exact List.drop_left
      obtain ⟨c1, hfirst, hprogress1⟩ :=
        uploadBody_progress hopen rfl hbounded (progress_begun hsink) hquiet hcalm more
      obtain ⟨c2, hsecond, hprogress2⟩ :=
        uploadBody_progress hopen rfl hbounded hprogress1 hquiet hcalm (data.drop n)
      obtain ⟨c3, hthird, hprogress3⟩ := segments_body hopen rfl hbounded segs hprogress2 hrest
      rw [List.nil_append, List.append_assoc, hbody] at hprogress3
      refine ⟨c3, ?_, env, List.mem_cons_self, more, b, hb.symm, .inr ⟨hfailed, hprogress3⟩⟩
      rw [hhead, hfirst, Option.bind_some, hsecond]
      exact hthird
    · -- it is not, so the buffer took the whole segment
      have hall : data.take n = data := by
        apply List.take_of_length_le
        rw [List.length_append, List.length_take] at hwhole
        omega
      have hfind : wsFindHeaderEnd (c.head ++ data.take n) = none := by
        cases hfound : wsFindHeaderEnd (c.head ++ data.take n) with
        | none => rfl
        | some k =>
          obtain ⟨hlater', -, hle, -⟩ := findHeaderEnd_append hfound (streamOf segs)
          rw [hall, List.append_assoc, hstream, findHeaderEnd_form hboundary.2.2 hlines] at hlater'
          rw [← Option.some.inj hlater'] at hle
          exact absurd hle hwhole
      rw [← hn] at hfind
      rw [uploadConsume_waits hdata hstate hroom hfind]
      simp only [hn, hall]
      rw [hall, List.length_append] at hwhole
      have hnotFull : ¬ WS_UPLOAD_HEAD_MAX ≤ (c.head ++ data).length := by
        rw [List.length_append]
        omega
      rw [if_neg hnotFull]
      obtain ⟨c', hsegs, env', hmem, more, hout⟩ := ih (c := { c with head := c.head ++ data }) hstate hdelim
        (by rw [List.length_append]; omega) (by rw [List.append_assoc]; exact hstream) hrest
      exact ⟨c', hsegs, env', List.mem_cons_of_mem _ hmem, more, hout⟩

/-! ### Every stream -/

def Sound (c : UploadConn) : Prop :=
  (c.state = .partHeader ∧ c.head.length ≤ WS_UPLOAD_HEAD_MAX) ∨ c.state = .failed ∨
    ∃ b z, b.fileOpen = true ∧ b.state = .data ∧ Bounded b.delim ∧ Progress False False b z c

theorem sound_body {c : UploadConn} (h : Sound c) (hstate : c.state ≠ .partHeader) (env : UploadEnv)
    (data : List UInt8) : ∃ c', c.uploadBody env data = some c' ∧ Sound c' ∧ c'.state ≠ .partHeader := by
  rcases h with ⟨hheader, -⟩ | hfailed | ⟨b, z, hopen, hdata, hdelim, hprogress⟩
  · exact absurd hheader hstate
  · refine ⟨c, ?_, .inr (.inl hfailed), hstate⟩
    rw [uploadBody, if_neg (by rw [hfailed]; decide)]
  · have hquiet : False → Quiet env := False.elim
    have hcalm : False → Calm env := False.elim
    obtain ⟨c', hbody, hnext⟩ := uploadBody_progress hopen hdata hdelim hprogress hquiet hcalm data
    exact ⟨c', hbody, .inr (.inr ⟨b, _, hopen, hdata, hdelim, hnext⟩), progress_state hdata hnext⟩

theorem uploadConsume_sound {c : UploadConn} (h : Sound c) (hdelim : c.state = .partHeader → Bounded c.delim)
    (env : UploadEnv) (data : List UInt8) :
    ∃ c', c.uploadConsume env data = some c' ∧ Sound c' ∧ (c'.state = .partHeader → Bounded c'.delim) := by
  by_cases hgo : data = [] ∨ c.state ≠ .partHeader
  · rw [uploadConsume, if_pos hgo]
    by_cases hstate : c.state = .partHeader
    · refine ⟨c, ?_, h, hdelim⟩
      rw [uploadBody, if_neg (by rw [hstate]; decide)]
    · obtain ⟨c', hbody, hsound, hnot⟩ := sound_body h hstate env data
      exact ⟨c', hbody, hsound, fun hheader => absurd hheader hnot⟩
  obtain ⟨hdata, hstate⟩ := not_or.mp hgo
  have hstate := not_not.mp hstate
  have hbounded := hdelim hstate
  have hroom : c.head.length ≤ WS_UPLOAD_HEAD_MAX := by
    rcases h with ⟨-, hle⟩ | hfailed | ⟨b, z, -, hopenState, -, hprogress⟩
    · exact hle
    · rw [hstate] at hfailed
      cases hfailed
    · exact absurd hstate (progress_state hopenState hprogress)
  cases hfind : wsFindHeaderEnd (c.head ++ data.take (WS_UPLOAD_HEAD_MAX - c.head.length)) with
  | none =>
    rw [uploadConsume_waits hdata hstate hroom hfind]
    simp only
    split
    · exact ⟨_, rfl, .inr (.inl (uploadFail_failed _)), fun hheader => absurd hheader (by rw [uploadFail_failed]; decide)⟩
    · rename_i hnotFull
      exact ⟨_, rfl, .inl ⟨hstate, Nat.le_of_not_le hnotFull⟩, fun _ => hbounded⟩
  | some bodyAt =>
    rw [uploadConsume_begins hdata hstate hroom hfind]
    simp only
    generalize hb : uploadBeginPart env { c with head := c.head ++ data.take (WS_UPLOAD_HEAD_MAX - c.head.length) } = b
    by_cases hfailed : b.state = .failed
    · rw [if_pos hfailed]
      exact ⟨b, rfl, .inr (.inl hfailed), fun hheader => absurd hheader (by rw [hfailed]; decide)⟩
    rw [if_neg hfailed]
    obtain ⟨hopen, hsame, -, hsink⟩ := begun_of hb hfailed
    have hsound : Sound b.begun := by
      refine .inr (.inr ⟨b.begun, [], hopen, rfl, ?_, progress_begun hsink⟩)
      rw [hsame]
      exact hbounded
    have hbegan : b.begun.state ≠ .partHeader := show UpState.data ≠ .partHeader by decide
    obtain ⟨c1, hfirst, hsound1, hnot1⟩ := sound_body hsound hbegan env (b.head.drop bodyAt)
    obtain ⟨c2, hsecond, hsound2, hnot2⟩ :=
      sound_body hsound1 hnot1 env (data.drop (WS_UPLOAD_HEAD_MAX - c.head.length))
    refine ⟨c2, ?_, hsound2, fun hheader => absurd hheader hnot2⟩
    rw [hfirst, Option.bind_some, hsecond]

theorem uploadSegments_sound (segs : List (UploadEnv × List UInt8)) {c : UploadConn} (h : Sound c)
    (hdelim : c.state = .partHeader → Bounded c.delim) : ∃ c', c.uploadSegments segs = some c' := by
  induction segs generalizing c with
  | nil => exact ⟨c, rfl⟩
  | cons seg segs ih =>
    obtain ⟨c1, hconsume, hsound, hdelim1⟩ := uploadConsume_sound h hdelim seg.1 seg.2
    obtain ⟨c2, hsegs⟩ := ih hsound hdelim1
    refine ⟨c2, ?_⟩
    rw [uploadSegments_cons, hconsume]
    exact hsegs

/-! ### The target -/

def Named (dir name : Str) (c : UploadConn) : Prop := c.dir = dir ∧ c.name = name

theorem uploadFail_named {dir name : Str} {c : UploadConn} (h : Named dir name c) : Named dir name c.uploadFail := by
  unfold uploadFail uploadDiscardTemp
  simp only
  split
  · split
    · exact h
    · exact h
  · split
    · exact h
    · exact h

theorem succeed_named {dir name : Str} {c : UploadConn} (h : Named dir name c) : Named dir name c.succeed := by
  unfold succeed
  split
  · exact h
  · exact h

theorem promote_named {dir name : Str} {c : UploadConn} (h : Named dir name c) (env : UploadEnv) :
    Named dir name (c.promote env) := by
  unfold promote
  split
  · exact h
  split
  · exact uploadFail_named h
  split
  · exact uploadFail_named (c := { c.setFile c.full none with tempExists := false }) h
  · exact h

theorem uploadFinish_named {dir name : Str} {c : UploadConn} (h : Named dir name c) (env : UploadEnv) :
    Named dir name (c.uploadFinish env) := by
  unfold uploadFinish
  simp only
  split
  · split
    · rename_i e _
      apply uploadFail_named
      exact uploadFail_named (c := { c with finishes := c.finishes + 1, sink := ⟨[], e.part⟩ }) h
    · rename_i sink _
      have hclosed : Named dir name (closeFile { c with finishes := c.finishes + 1, sink := sink }) := h
      split
      · exact uploadFail_named hclosed
      · exact succeed_named (promote_named hclosed env)
  · exact succeed_named (promote_named (c := { c with finishes := c.finishes + 1 }) h env)

theorem Named.paths {dir name : Str} {c c' : UploadConn} (h : Named dir name c) (h' : Named dir name c') :
    c'.full = c.full ∧ c'.temp = c.temp := by
  have hfull : c'.full = c.full := by
    unfold full
    rw [h.1, h.2, h'.1, h'.2]
  refine ⟨hfull, ?_⟩
  unfold temp
  rw [hfull]

/-! ### The form -/

theorem progress_untouched {quiet calm : Prop} {files : Str → Option (List UInt8)} {c c' : UploadConn}
    {z : List UInt8} (hbase : Untouched files c) (hopen : (partOf c.delim z).ends ≠ .closing)
    (h : Progress quiet calm c z c') : Untouched files c' := by
  cases h with
  | feeding hends hall => exact ⟨hbase.finishes, hbase.files⟩
  | failed hanother => exact uploadFail_untouched ⟨hbase.finishes, hbase.files⟩
  | finished hclosing hall hq hc => exact absurd hclosing hopen

theorem progress_closing {calm : Prop} {c c' : UploadConn} {z : List UInt8} (h : Progress True calm c z c')
    (hends : (partOf c.delim z).ends = .closing) :
    ∃ env sink, sink.all = (partOf c.delim z).out ∧ Quiet env ∧ (calm → Calm env) ∧
      c' = uploadFinish env { c with sink := sink, tail := [] } := by
  cases h with
  | feeding hmore hall =>
    rw [hends] at hmore
    cases hmore
  | failed hanother =>
    have hother := hanother trivial
    rw [hends] at hother
    cases hother
  | finished hclosing hall hq hc =>
    rename_i env sink
    exact ⟨env, sink, hall, hq trivial, hc, rfl⟩

structure Fine (env : UploadEnv) : Prop extends Quiet env where
  busyAtBegin : env.busyAtBegin = false
  createFails : env.createFails = false

theorem uploadBeginPart_fine {env : UploadEnv} (hfine : Fine env) {c : UploadConn} {name : Str}
    (hname : uploadName c.head = some name) :
    c.uploadBeginPart env = { setFile { c with name := name } ({ c with name := name } : UploadConn).temp (some []) with
      tempExists := true, fileOpen := true, sink := {} } := by
  unfold uploadBeginPart
  simp only [hname, hfine.busyAtBegin, hfine.createFails, Bool.false_eq_true, if_false]

theorem start_short (dir boundary : Str) (files : Str → Option (List UInt8)) (lines : List Str) :
    (start dir boundary files).head.length < (formHead boundary lines).length := Nat.succ_pos _

section Form

variable (dir : Str) (files : Str → Option (List UInt8)) {boundary : Str} (hboundary : BoundaryText boundary)
  {lines : List Str} (hlines : ∀ line ∈ lines, line ≠ [] ∧ LineText line)
  (hfits : (formHead boundary lines).length ≤ WS_UPLOAD_HEAD_MAX) {content : List UInt8}
  (hcontent : ¬ formDelim boundary <:+: content)

include hboundary hlines hfits hcontent

theorem form_closed {name : Str} (hname : uploadName (formHead boundary lines) = some name) {rest : List UInt8}
    {segs : List (UploadEnv × List UInt8)}
    (hstream : streamOf segs = formHead boundary lines ++ (content ++ (formDelim boundary ++ 0x2D :: 0x2D :: rest)))
    (hfine : ∀ seg ∈ segs, Fine seg.1) :
    ∃ c', (start dir boundary files).uploadSegments segs = some c' ∧ c'.name = name ∧ c'.finishes = 1 ∧
      c'.sink.written = content ∧
      ((∀ seg ∈ segs, Calm seg.1) → c'.state = .epilogue ∧ c'.replies = [200] ∧ c'.files c'.full = some content ∧
        c'.files c'.temp = none ∧ ∀ p, p ≠ c'.full → p ≠ c'.temp → c'.files p = files p) := by
  have henv : ∀ seg ∈ segs, (True → Quiet seg.1) ∧ ((∀ seg ∈ segs, Calm seg.1) → Calm seg.1) :=
    fun seg hseg => ⟨fun _ => (hfine seg hseg).toQuiet, fun hcalm => hcalm seg hseg⟩
  obtain ⟨c', hsegs, env, hmem, more, b, hb, hout⟩ :=
    segments_form hboundary hlines hfits _ segs (c := start dir boundary files) rfl rfl (start_short ..) hstream henv
  refine ⟨c', hsegs, ?_⟩
  obtain ⟨seg, hseg, rfl⟩ := List.mem_map.mp hmem
  have hclear := hfine seg hseg
  have hnameMore := uploadName_append hname (formHead_last boundary lines) more
  rw [uploadBeginPart_fine hclear hnameMore] at hb
  have hprogress : Progress True (∀ seg ∈ segs, Calm seg.1) b.begun
      (content ++ (formDelim boundary ++ 0x2D :: 0x2D :: rest)) c' := by
    rcases hout with ⟨hfailed, -⟩ | ⟨-, hprogress⟩
    · rw [hb] at hfailed
      cases hfailed
    · exact hprogress
  obtain ⟨hpartOut, hpartEnds⟩ := partOf_form hboundary.2.2 hcontent (0x2D :: 0x2D :: rest)
  have hdelim : b.begun.delim = formDelim boundary := by
    rw [hb]
    rfl
  have hends : (partOf b.begun.delim (content ++ (formDelim boundary ++ 0x2D :: 0x2D :: rest))).ends = .closing := by
    rw [hdelim, hpartEnds, afterBoundary_hyphens]
  obtain ⟨env, sink, hall, hquiet, hcalm, hend⟩ := progress_closing hprogress hends
  rw [hdelim, hpartOut] at hall
  have hopen : ({ b.begun with sink := sink, tail := [] } : UploadConn).fileOpen = true := by rw [hb]; rfl
  have htemp : ({ b.begun with sink := sink, tail := [] } : UploadConn).tempExists = true := by rw [hb]; rfl
  have hnamed : Named dir name { b.begun with sink := sink, tail := [] } := by
    rw [hb]
    exact ⟨rfl, rfl⟩
  have hfinished := uploadFinish_named hnamed env
  obtain ⟨hfull, htempEq⟩ := hnamed.paths hfinished
  obtain ⟨hfinishes, hwritten, hdone⟩ := uploadFinish_done hopen htemp rfl hquiet
  rw [← hend] at hfinished hfull htempEq hfinishes hwritten hdone
  refine ⟨hfinished.2, ?_, hwritten.trans hall, ?_⟩
  · rw [hfinishes, hb]
    rfl
  · intro hcalms
    obtain ⟨hstate, hreplies, hfile, hgone, hothers⟩ := hdone (hcalm hcalms)
    rw [hfull, htempEq]
    refine ⟨hstate, ?_, ?_, hgone, ?_⟩
    · rw [hreplies, hb]
      rfl
    · rw [hfile]
      exact congrArg some hall
    · intro p hp hp'
      rw [hothers p hp hp']
      have hpTemp : p ≠ b.temp := hp'
      rw [hb] at hpTemp ⊢
      exact setFile_files hpTemp _

theorem form_open {after : List UInt8} (hafter : after.take 2 ≠ [0x2D, 0x2D])
    {segs : List (UploadEnv × List UInt8)}
    (hstream : streamOf segs = formHead boundary lines ++ (content ++ (formDelim boundary ++ after))) :
    ∃ c', (start dir boundary files).uploadSegments segs = some c' ∧ c'.finishes = 0 ∧
      c'.files c'.full = files c'.full ∧ ∀ p, p ≠ c'.temp → c'.files p = files p := by
  obtain ⟨c', hsegs, env, hmem, more, b, hb, hout⟩ :=
    segments_form hboundary hlines hfits _ segs (c := start dir boundary files) rfl rfl (start_short ..) hstream
      (fun _ _ => ⟨False.elim, False.elim⟩)
  refine ⟨c', hsegs, ?_⟩
  suffices h : Untouched files c' from ⟨h.finishes, h.files _ (temp_ne_full c').symm, h.files⟩
  rcases uploadBeginPart_cases env { start dir boundary files with head := formHead boundary lines ++ more } with
    ⟨name, -, -, -, hbegun⟩ | ⟨hfailed, -, huntouched⟩
  · rw [hbegun] at hb
    rcases hout with ⟨hfailed, -⟩ | ⟨-, hprogress⟩
    · rw [hb] at hfailed
      cases hfailed
    · have hbase : Untouched files b.begun := by
        rw [hb]
        exact ⟨rfl, fun p hp => setFile_files hp _⟩
      apply progress_untouched hbase _ hprogress
      have hdelim : b.begun.delim = formDelim boundary := by
        rw [hb]
        rfl
      rw [hdelim, (partOf_form hboundary.2.2 hcontent after).2]
      exact afterBoundary_open hafter
  · rw [← hb] at hfailed huntouched
    rcases hout with ⟨-, rfl⟩ | ⟨hnot, -⟩
    · exact huntouched files ⟨rfl, fun _ _ => rfl⟩ fun _ => rfl
    · exact absurd hfailed hnot

/-- A form, for every boundary, header, file and cutting: with two hyphens behind the boundary the temporary file gets
the bytes of the file, the upload is finished once, and if nothing fails then the file is there under its name;
without them nothing but the temporary file has been touched.  No stream at all leads outside a buffer. -/
theorem upload_form :
    (∀ name rest segs, uploadName (formHead boundary lines) = some name →
        streamOf segs = formHead boundary lines ++ (content ++ (formDelim boundary ++ 0x2D :: 0x2D :: rest)) →
        (∀ seg ∈ segs, Fine seg.1) →
        ∃ c', (start dir boundary files).uploadSegments segs = some c' ∧ c'.name = name ∧ c'.finishes = 1 ∧
          c'.sink.written = content ∧
          ((∀ seg ∈ segs, Calm seg.1) → c'.state = .epilogue ∧ c'.replies = [200] ∧ c'.files c'.full = some content ∧
            c'.files c'.temp = none ∧ ∀ p, p ≠ c'.full → p ≠ c'.temp → c'.files p = files p)) ∧
      (∀ after segs, after.take 2 ≠ [0x2D, 0x2D] →
        streamOf segs = formHead boundary lines ++ (content ++ (formDelim boundary ++ after)) →
        ∃ c', (start dir boundary files).uploadSegments segs = some c' ∧ c'.finishes = 0 ∧
          c'.files c'.full = files c'.full ∧ ∀ p, p ≠ c'.temp → c'.files p = files p) ∧
      ∀ segs, ∃ c', (start dir boundary files).uploadSegments segs = some c' := by
  refine ⟨?_, ?_, ?_⟩
  · intro name rest segs hname hstream hfine
    exact form_closed dir files hboundary hlines hfits hcontent hname hstream hfine
  · intro after segs hafter hstream
    exact form_open dir files hboundary hlines hfits hcontent hafter hstream
  · intro segs
    exact uploadSegments_sound segs (.inl ⟨rfl, Nat.zero_le _⟩) fun _ => bounded_delim hboundary

end Form

def namesFile : Str := lit ['f', 'i', 'l', 'e', 'n', 'a', 'm', 'e', '=', '"', 'f', '"']

def cutForm (content after : List UInt8) : List (UploadEnv × List UInt8) :=
  let head := formHead [0x62] [namesFile]
  let tail := content ++ (formDelim [0x62] ++ after)
  [({}, head.take 7), ({}, head.drop 7 ++ tail.take 5), ({}, (tail.drop 5).take 1), ({}, tail.drop 6)]

theorem upload_form_cut :
    (∃ c', (start [0x2F] [0x62] fun _ => none).uploadSegments (cutForm [1, 2, 0x0D, 0x0A] [0x2D, 0x2D]) = some c' ∧
        c'.name = [0x66] ∧ c'.finishes = 1 ∧ c'.sink.written = [1, 2, 0x0D, 0x0A] ∧ c'.state = .epilogue ∧
        c'.files c'.full = some [1, 2, 0x0D, 0x0A] ∧ c'.files c'.temp = none) ∧
      ∃ c', (start [0x2F] [0x62] fun _ => none).uploadSegments (cutForm [1, 2] [0x2E, 0x2D]) = some c' ∧
        c'.finishes = 0 ∧ c'.files c'.full = none := by
  have hboundary : BoundaryText [0x62] := ⟨by decide, by decide, List.all_iff_forall_prop.mp (by decide)⟩
  have hlines : ∀ line ∈ [namesFile], line ≠ [] ∧ LineText line :=
    List.forall_mem_singleton.mpr ⟨by decide, List.all_iff_forall_prop.mp (by decide)⟩
  have hname : uploadName (formHead [0x62] [namesFile]) = some [0x66] := by decide +kernel
  have hfine : Fine {} := { started := rfl, fails := fun _ => rfl, busyAtBegin := rfl, createFails := rfl }
  have hcalm : Calm {} := ⟨rfl, rfl, rfl⟩
  have hsame : ∀ content after, ∀ seg ∈ cutForm content after, seg.1 = {} := by
    intro content after seg hseg
    unfold cutForm at hseg
    simp only [List.mem_cons, List.not_mem_nil, or_false] at hseg
    rcases hseg with rfl | rfl | rfl | rfl
    all_goals rfl
  obtain ⟨hclosed, -, -⟩ := upload_form [0x2F] (fun _ => none) hboundary hlines (by decide)
    (show ¬ formDelim [0x62] <:+: [1, 2, 0x0D, 0x0A] by decide)
  obtain ⟨-, hopen, -⟩ := upload_form [0x2F] (fun _ => none) hboundary hlines (by decide)
    (show ¬ formDelim [0x62] <:+: [1, 2] by decide)
  constructor
  · obtain ⟨c', hsegs, hnamed, hfinishes, hwritten, hdone⟩ :=
      hclosed [0x66] [] (cutForm [1, 2, 0x0D, 0x0A] [0x2D, 0x2D]) hname (by decide)
        fun seg hseg => by rw [hsame _ _ seg hseg]; exact hfine
    obtain ⟨hstate, -, hfile, hgone, -⟩ := hdone fun seg hseg => by rw [hsame _ _ seg hseg]; exact hcalm
    exact ⟨c', hsegs, hnamed, hfinishes, hwritten, hstate, hfile, hgone⟩
  · obtain ⟨c', hsegs, hfinishes, hfull, -⟩ :=
      hopen [0x2E, 0x2D] (cutForm [1, 2] [0x2E, 0x2D]) (by decide) (by decide)
    exact ⟨c', hsegs, hfinishes, hfull⟩

/-- A part without the name of a file is refused. -/
theorem nameless_part_refused :
    BoundaryText [0x62] ∧ (formHead [0x62] [[0x78]]).length ≤ WS_UPLOAD_HEAD_MAX ∧
      ¬ formDelim [0x62] <:+: [1, 2, 3] ∧
      ((start [0x2F] [0x62] fun _ => none).uploadSegments
          [({}, formHead [0x62] [[0x78]] ++ ([1, 2, 3] ++ (formDelim [0x62] ++ [0x2D, 0x2D])))]).map
        (fun c => (c.state, c.finishes, c.sink.written)) = some (.failed, 0, []) := by
  refine ⟨⟨by decide, by decide, List.all_iff_forall_prop.mp (by decide)⟩, by decide, by decide, by decide +kernel⟩

end UploadConn

end Pi1MHz.Ws
