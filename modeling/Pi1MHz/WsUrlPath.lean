import Pi1MHz.WsSpelling

/-!
# The web server: canonical paths

What `ws_normalize_path` makes of a path whose canonical form fits its buffer, and `sb_urlpath`, which writes a path
into a link or an href: `dav_url_to_sdpath` reads back what it wrote.
-/

namespace Pi1MHz.Ws

open FinSizes

def wsIsUnreserved (c : UInt8) : Bool :=
  (0x41 ≤ c && c ≤ 0x5A) || (0x61 ≤ c && c ≤ 0x7A) || (0x30 ≤ c && c ≤ 0x39)
    || c == 0x2D || c == 0x5F || c == 0x2E || c == 0x7E

/-- A digit of the table `hex` of `sb_urlpath`. -/
def hexUpper (n : UInt8) : UInt8 := if n < 10 then 0x30 + n else 0x37 + n

/-- What `sb_urlpath` appends for a byte. -/
def urlByte (c : UInt8) : Str :=
  if wsIsUnreserved c || c == 0x2F then [c] else [0x25, hexUpper (c >>> 4), hexUpper (c &&& 0x0F)]

def sbUrlpath (s : Str) : Str := s.flatMap urlByte

/-! ### Canonical paths -/

structure CanonicalPath (p : Str) : Prop where
  slash : p.head? = some 0x2F
  segments : p ≠ [0x2F] → ∀ s ∈ (p.drop 1).splitOnP (· == 0x2F), s ≠ [] ∧ s ≠ [0x2E]
  backslash : 0x5C ∉ p
  trailing : p ≠ [0x2F] → p.getLast? ≠ some 0x2F

theorem isSep_slash : isSep 0x2F = true := rfl

theorem splitOnP_slash {s : Str} (h : 0x5C ∉ s) : s.splitOnP (· == 0x2F) = s.splitOnP isSep := by
  induction s with
  | nil => rfl
  | cons c s ih =>
    obtain ⟨hc, hs⟩ := not_or.mp (mt List.mem_cons.mpr h)
    have hsame : isSep c = (c == 0x2F) := by
      unfold isSep
      rw [beq_false_of_ne (Ne.symm hc : c ≠ 0x5C), Bool.or_false]
    rw [List.splitOnP_cons_eq_if_modifyHead, List.splitOnP_cons_eq_if_modifyHead, hsame, ih hs]

theorem joinNames_splitOnP {q : Str} (h : 0x5C ∉ q) : joinNames (q.splitOnP isSep) = 0x2F :: q := by
  induction q with
  | nil => rfl
  | cons c q ih =>
    obtain ⟨hc, hq⟩ := not_or.mp (mt List.mem_cons.mpr h)
    obtain ⟨s, segs, hsplit⟩ := List.exists_cons_of_ne_nil (List.splitOnP_ne_nil isSep q)
    have hjoin := ih hq
    rw [hsplit] at hjoin
    rw [List.splitOnP_cons_eq_if_modifyHead, hsplit]
    by_cases hsep : isSep c = true
    · have hslash : c = 0x2F := by
        unfold isSep at hsep
        rw [beq_false_of_ne (Ne.symm hc : c ≠ 0x5C), Bool.or_false] at hsep
        exact beq_iff_eq.mp hsep
      rw [if_pos hsep, joinNames_cons, hjoin, hslash]
      rfl
    · rw [if_neg hsep, List.modifyHead_cons, joinNames_cons]
      rw [joinNames_cons] at hjoin
      exact congrArg (fun rest => 0x2F :: c :: rest) (List.cons.inj hjoin).2

theorem mem_joinNames {names : List Str} {c : UInt8} (h : c ∈ joinNames names) : c = 0x2F ∨ ∃ s ∈ names, c ∈ s := by
  obtain ⟨s, hs, hc⟩ := List.mem_flatMap.mp h
  rcases List.mem_cons.mp hc with heq | hin
  · exact .inl heq
  · exact .inr ⟨s, hs, hin⟩

theorem canonicalPath_namedPath {names : List Str} (h : ProperNames names) : CanonicalPath (namedPath names) := by
  unfold namedPath
  by_cases hne : names = []
  · rw [if_pos hne]
    exact ⟨rfl, fun hroot => absurd rfl hroot, by decide, fun hroot => absurd rfl hroot⟩
  rw [if_neg hne]
  have hback : 0x5C ∉ joinNames names := by
    intro hmem
    rcases mem_joinNames hmem with heq | ⟨s, hs, hin⟩
    · cases heq
    · exact Bool.false_ne_true (((h s hs).2 _ hin).symm.trans rfl)
  have hsplit : (joinNames names).splitOnP isSep = [] :: names := splitOnP_joinNames fun s hs => (h s hs).2
  obtain ⟨pre, c, hjoin, hc⟩ := joinNames_last hne h
  refine ⟨?_, ?_, hback, ?_⟩
  · rw [hjoin]
    rfl
  · intro _ s hs
    rw [splitOnP_slash fun hmem => hback (List.mem_of_mem_drop hmem)] at hs
    rw [hjoin] at hs hsplit
    rw [List.cons_append, List.splitOnP_cons_eq_if_modifyHead, if_pos isSep_slash] at hsplit
    have hnames : (pre ++ [c]).splitOnP isSep = names := (List.cons.inj hsplit).2
    rw [List.cons_append, List.drop_succ_cons, List.drop_zero, hnames] at hs
    have hname := (h s hs).1
    unfold isName at hname
    rw [Bool.and_eq_true, decide_eq_true_eq, decide_eq_true_eq] at hname
    exact hname
  · intro _ hlast
    rw [hjoin, List.getLast?_concat] at hlast
    rw [Option.some.inj hlast] at hc
    cases hc

theorem canonical_of_canonicalPath {p : Str} (h : CanonicalPath p) : canonical p = p := by
  by_cases hroot : p = [0x2F]
  · rw [hroot]
    rfl
  obtain ⟨q, rfl⟩ : ∃ q, p = 0x2F :: q := by
    have hslash := h.slash
    cases p with
    | nil => cases hslash
    | cons c q => exact ⟨q, congrArg (· :: q) (Option.some.inj hslash)⟩
  have hback : 0x5C ∉ q := fun hmem => h.backslash (List.mem_cons_of_mem _ hmem)
  have hsegments := h.segments hroot
  rw [List.drop_succ_cons, List.drop_zero, splitOnP_slash hback] at hsegments
  have hnames : pathNames (0x2F :: q) = q.splitOnP isSep := by
    unfold pathNames
    rw [List.splitOnP_cons_eq_if_modifyHead, if_pos isSep_slash, List.filter_cons_of_neg (by decide), List.filter_eq_self]
    intro s hs
    obtain ⟨hne, hdot⟩ := hsegments s hs
    unfold isName
    rw [Bool.and_eq_true, decide_eq_true_eq, decide_eq_true_eq]
    exact ⟨hne, hdot⟩
  unfold canonical namedPath
  rw [hnames, if_neg (List.splitOnP_ne_nil isSep q), joinNames_splitOnP hback]

theorem pathNames_namedPath {names : List Str} (h : ProperNames names) : pathNames (namedPath names) = names := by
  unfold namedPath
  by_cases hne : names = []
  · rw [if_pos hne, hne]
    rfl
  rw [if_neg hne, pathNames_joinNames fun s hs => (h s hs).2, List.filter_eq_self]
  exact fun s hs => (h s hs).1

/-! ### Encoding and decoding -/

/-- A byte that `ws_url_decode` does not replace. -/
def Printable (c : UInt8) : Prop := wsPrintable c = c

theorem wsPrintable_printable : ∀ c : UInt8, Printable (wsPrintable c) :=
  forall_byte (by unfold Printable; decide +kernel)

theorem wsHexval_hexUpper : ∀ c : UInt8, wsHexval (hexUpper (c >>> 4)) = some (c >>> 4) ∧
    wsHexval (hexUpper (c &&& 0x0F)) = some (c &&& 0x0F) ∧ ((c >>> 4) <<< 4) ||| (c &&& 0x0F) = c :=
  forall_byte (by decide +kernel)

theorem wsUnescape_plain {c : UInt8} (h : c ≠ 0x25) (rest : Str) : wsUnescape c rest = (c, rest) := by
  unfold wsUnescape
  split
  · exact absurd rfl h
  · rfl

theorem wsUrlDecode_urlByte {c : UInt8} (h : Printable c) (room : Nat) (rest : Str) :
    wsUrlDecode (room + 1) (urlByte c ++ rest) = (c :: (wsUrlDecode room rest).1, (wsUrlDecode room rest).2) := by
  unfold urlByte
  by_cases hplain : (wsIsUnreserved c || c == 0x2F) = true
  · have hne : c ≠ 0x25 := by
      intro heq
      rw [heq] at hplain
      exact absurd hplain (by decide)
    rw [if_pos hplain, List.singleton_append, wsUrlDecode, wsUnescape_plain hne, h]
  · obtain ⟨hhigh, hlow, hbyte⟩ := wsHexval_hexUpper c
    have hescaped : wsUnescape 0x25 (hexUpper (c >>> 4) :: hexUpper (c &&& 0x0F) :: rest) = (c, rest) := by
      simp only [wsUnescape, hhigh, hlow, hbyte]
    rw [if_neg hplain]
    show wsUrlDecode (room + 1) (0x25 :: hexUpper (c >>> 4) :: hexUpper (c &&& 0x0F) :: rest) = _
    rw [wsUrlDecode, hescaped, h]

theorem wsUrlDecode_sbUrlpath {p : Str} (h : ∀ c ∈ p, Printable c) {room : Nat} (hfits : p.length ≤ room) :
    wsUrlDecode room (sbUrlpath p) = (p, true) := by
  induction p generalizing room with
  | nil =>
    cases room with
    | zero => rfl
    | succ room => rfl
  | cons c p ih =>
    obtain ⟨room, rfl⟩ : ∃ n, room = n + 1 := ⟨room - 1, by rw [List.length_cons] at hfits; omega⟩
    obtain ⟨hc, hp⟩ := List.forall_mem_cons.mp h
    have hrest := ih hp (Nat.le_of_succ_le_succ hfits)
    show wsUrlDecode (room + 1) (urlByte c ++ sbUrlpath p) = _
    rw [wsUrlDecode_urlByte hc, hrest]

theorem wsUrlDecode_printable (room : Nat) (s : Str) : ∀ c ∈ (wsUrlDecode room s).1, Printable c := by
  induction room generalizing s with
  | zero =>
    cases s with
    | nil => nofun
    | cons d s => nofun
  | succ room ih =>
    cases s with
    | nil => nofun
    | cons d s =>
      intro c hc
      rw [wsUrlDecode] at hc
      rcases List.mem_cons.mp hc with rfl | hlater
      · exact wsPrintable_printable _
      · exact ih _ c hlater

theorem wsNormalizeFrom_mem {osz : Nat} {raw out : Str} {c : UInt8} (h : c ∈ wsNormalizeFrom osz out raw) :
    c ∈ out ∨ ∃ d ∈ raw, c = wsSlash d := by
  induction raw generalizing out with
  | nil => exact .inl h
  | cons d raw ih =>
    have hlater : ∀ out', c ∈ wsNormalizeFrom osz out' raw → (c ∈ out' → c ∈ out ∨ c = wsSlash d) →
        c ∈ out ∨ ∃ d' ∈ d :: raw, c = wsSlash d' := by
      intro out' hmem hout
      rcases ih hmem with hin | ⟨d', hd', heq⟩
      · rcases hout hin with hin | heq
        · exact .inl hin
        · exact .inr ⟨d, List.mem_cons_self, heq⟩
      · exact .inr ⟨d', List.mem_cons_of_mem _ hd', heq⟩
    rw [wsNormalizeFrom] at h
    split at h
    · exact hlater out h .inl
    split at h
    · exact hlater out h .inl
    split at h
    · apply hlater _ h
      intro hin
      rcases List.mem_append.mp hin with hin | hlast
      · exact .inl hin
      · exact .inr (List.mem_singleton.mp hlast)
    · exact hlater out h .inl

theorem wsNormalizePath_mem {raw : Str} {osz : Nat} {c : UInt8} (h : c ∈ wsNormalizePath raw osz) :
    c = 0x2F ∨ c ∈ raw := by
  have hslash : ∀ d ∈ raw, c = wsSlash d → c = 0x2F ∨ c ∈ raw := by
    intro d hd heq
    unfold wsSlash at heq
    split at heq
    · exact .inl heq
    · rw [heq]
      exact .inr hd
  unfold wsNormalizePath at h
  generalize hstart : (if raw.head?.any isSep = false ∧ 1 < osz then [0x2F] else [] : Str) = start at h
  have hin : ∀ d ∈ start, d = 0x2F := by
    rw [← hstart]
    split
    · exact fun d hd => List.mem_singleton.mp hd
    · nofun
  by_cases hroot : raw = [] ∨ wsStripSlashes (wsNormalizeFrom osz start raw) = []
  · rw [if_pos hroot] at h
    exact .inl (List.mem_singleton.mp h)
  · rw [if_neg hroot] at h
    have hloop : c ∈ wsNormalizeFrom osz start raw := by
      rcases List.mem_append.mp h with hfirst | hrest
      · exact List.mem_of_mem_take hfirst
      · exact List.mem_of_mem_drop ((List.rdropWhile_prefix _ _).subset hrest)
    rcases wsNormalizeFrom_mem hloop with hslashes | ⟨d, hd, heq⟩
    · exact .inl (hin c hslashes)
    · exact hslash d hd heq

theorem davUrlToSdpath_result {raw p : Str} (h : davUrlToSdpath raw WS_PATH_MAX = some p) :
    (∀ c ∈ p, Printable c) ∧ p.length < WS_PATH_MAX ∧ wsPathIsSafe p = true := by
  unfold davUrlToSdpath at h
  simp only at h
  split at h
  · cases h
  split at h
  · rename_i hsafe
    cases h
    refine ⟨?_, ?_, hsafe⟩
    · intro c hc
      rcases wsNormalizePath_mem hc with heq | hin
      · rw [heq]
        rfl
      · exact wsUrlDecode_printable _ _ c hin
    · rw [wsNormalizePath_eq _ (by decide)]
      have hle := length_wsStripSlashes_le
        ((normalizedText (wsUrlDecode (WS_PATH_MAX - 1) raw).1).take (WS_PATH_MAX - 1))
      rw [List.length_take] at hle
      have hpos : 0 < WS_PATH_MAX := by decide
      omega
  · cases h

/-- A path whose canonical form fits the buffer gets that form: it is canonical, names what the path named with both
separators, and normalising it again changes nothing.  And a canonical path that `dav_url_to_sdpath` returned comes
back from the text `sb_urlpath` writes for it. -/
theorem canonical_paths :
    (∀ raw osz, (canonical raw).length < osz →
        CanonicalPath (wsNormalizePath raw osz) ∧
          wsNormalizePath (wsNormalizePath raw osz) osz = wsNormalizePath raw osz ∧
          pathNames (wsNormalizePath raw osz) = pathNames raw) ∧
      ∀ raw p, davUrlToSdpath raw WS_PATH_MAX = some p → CanonicalPath p →
        davUrlToSdpath (sbUrlpath p) WS_PATH_MAX = some p := by
  constructor
  · intro raw osz hfits
    have hproper : ProperNames (pathNames raw) := fun s hs => of_mem_pathNames hs
    have hcanonical : CanonicalPath (canonical raw) := canonicalPath_namedPath hproper
    have hpos : 0 < (canonical raw).length := by
      apply List.length_pos_iff.mpr
      intro hnil
      have hslash := hcanonical.slash
      rw [hnil] at hslash
      cases hslash
    have hosz : 1 < osz := by omega
    have hnormal := (wsNormalizePath_canonical_iff raw hosz).mpr hfits
    rw [hnormal]
    refine ⟨hcanonical, ?_, pathNames_namedPath hproper⟩
    have hagain := canonical_of_canonicalPath hcanonical
    have hsame := (wsNormalizePath_canonical_iff (canonical raw) hosz).mpr (by rw [hagain]; exact hfits)
    rw [hsame, hagain]
  · intro raw p hreturned hcanonical
    obtain ⟨hprintable, hfits, hsafe⟩ := davUrlToSdpath_result hreturned
    have hdecoded := wsUrlDecode_sbUrlpath hprintable (Nat.le_sub_one_of_lt hfits)
    have hagain := canonical_of_canonicalPath hcanonical
    have hroom : 1 < WS_PATH_MAX := by decide
    have hsame := (wsNormalizePath_canonical_iff p hroom).mpr (by rw [hagain]; exact hfits)
    rw [hagain] at hsame
    unfold davUrlToSdpath
    rw [hdecoded]
    simp only [Bool.true_eq_false, if_false, hsame, hsafe, if_true]

theorem canonical_paths_blank :
    (CanonicalPath (wsNormalizePath [0x61, 0x5C, 0x2E, 0x2F, 0x62] 5) ∧
        wsNormalizePath (wsNormalizePath [0x61, 0x5C, 0x2E, 0x2F, 0x62] 5) 5 =
          wsNormalizePath [0x61, 0x5C, 0x2E, 0x2F, 0x62] 5 ∧
        pathNames (wsNormalizePath [0x61, 0x5C, 0x2E, 0x2F, 0x62] 5) = pathNames [0x61, 0x5C, 0x2E, 0x2F, 0x62]) ∧
      davUrlToSdpath (sbUrlpath [0x2F, 0x20]) WS_PATH_MAX = some [0x2F, 0x20] := by
  have hcanonical : CanonicalPath [0x2F, 0x20] :=
    { slash := rfl, segments := fun _ => by decide, backslash := by decide, trailing := fun _ => by decide }
  obtain ⟨hnormal, hround⟩ := canonical_paths
  exact ⟨hnormal _ 5 (by decide), hround [0x2F, 0x20] _ (by decide +kernel) hcanonical⟩

end Pi1MHz.Ws
