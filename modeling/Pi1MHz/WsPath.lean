import Mathlib.Data.List.DropRight
import Pi1MHz.WsText

/-!
# The web server: SD paths

`ws_normalize_path`, `ws_path_is_safe` and `dav_url_to_sdpath`, which turn the path of a request
into a path on the card.

The purpose of the normaliser is the canonical form of a path: its segments, less the empty and
the `.` ones, each after one slash.
-/

namespace Pi1MHz.Ws

def isSep (c : UInt8) : Bool := c == 0x2F || c == 0x5C

/-- A byte as `ws_normalize_path` reads it. -/
def wsSlash (c : UInt8) : UInt8 := if c = 0x5C then 0x2F else c

def wsSegmentEnd : Str → Bool
  | [] => true
  | c :: _ => isSep c

/-- The loop of `ws_normalize_path` over a buffer of `osz` bytes that holds `out`. -/
def wsNormalizeFrom (osz : Nat) : Str → Str → Str
  | out, [] => out
  | out, c :: rest =>
      let ch := wsSlash c
      if ch = 0x2F ∧ out.getLast? = some 0x2F then wsNormalizeFrom osz out rest
      else if ch = 0x2E ∧ out.getLast? = some 0x2F ∧ wsSegmentEnd rest then
        wsNormalizeFrom osz out rest
      else if out.length + 1 < osz then wsNormalizeFrom osz (out ++ [ch]) rest
      else wsNormalizeFrom osz out rest

def wsStripSlashes (out : Str) : Str := out.take 1 ++ (out.drop 1).rdropWhile (· == 0x2F)

def wsNormalizePath (raw : Str) (osz : Nat) : Str :=
  let start : Str := if raw.head?.any isSep = false ∧ 1 < osz then [0x2F] else []
  let out := wsStripSlashes (wsNormalizeFrom osz start raw)
  if raw = [] ∨ out = [] then [0x2F] else out

def wsPathIsSafe (p : Str) : Bool :=
  p.all (0x20 ≤ ·) && (p.splitOnP (· == 0x2F)).all (· ≠ [0x2E, 0x2E])

def wsIsRoot (p : Str) : Bool := p == [0x2F]

def davUrlToSdpath (rawpath : Str) (sdpathSz : Nat) : Option Str :=
  let decoded := wsUrlDecode (WS_PATH_MAX - 1) rawpath
  if decoded.2 = false then none
  else
    let sdpath := wsNormalizePath decoded.1 sdpathSz
    if wsPathIsSafe sdpath then some sdpath else none

def isName (s : Str) : Bool := s ≠ [] && s ≠ [0x2E]

def pathNames (raw : Str) : List Str := (raw.splitOnP isSep).filter isName

def joinNames (names : List Str) : Str := names.flatMap fun s => 0x2F :: s

def namedPath (names : List Str) : Str := if names = [] then [0x2F] else joinNames names

def canonical (raw : Str) : Str := namedPath (pathNames raw)

def urlDecoded (s : Str) : Str := (wsUrlDecode s.length s).1

theorem isSep_wsSlash (c : UInt8) : wsSlash c = 0x2F ↔ isSep c = true := by
  unfold wsSlash isSep
  by_cases h : c = 0x5C
  · simp [h]
  · simp [h]

theorem wsSlash_of_not_sep {c : UInt8} (h : isSep c = false) : wsSlash c = c := by
  unfold wsSlash
  rw [if_neg]
  rintro rfl
  cases h

/-! ### The loop without a buffer -/

/-- What the loop appends; `atSep` says that the text before ends in a slash. -/
def normalizeFrom : Bool → Str → Str
  | _, [] => []
  | atSep, c :: rest =>
      if isSep c then
        if atSep then normalizeFrom true rest else 0x2F :: normalizeFrom true rest
      else if c = 0x2E ∧ atSep ∧ wsSegmentEnd rest then normalizeFrom true rest
      else c :: normalizeFrom false rest

theorem wsNormalizeFrom_eq (osz : Nat) (out rest : Str) :
    wsNormalizeFrom osz out rest
      = out ++ (normalizeFrom (out.getLast? = some 0x2F) rest).take (osz - 1 - out.length) := by
  induction rest generalizing out with
  | nil => simp [wsNormalizeFrom, normalizeFrom]
  | cons c rest ih =>
    -- a byte that is appended, when the buffer has room for it and when it has not
    have happend : ∀ ch : UInt8,
        (if out.length + 1 < osz then wsNormalizeFrom osz (out ++ [ch]) rest
          else wsNormalizeFrom osz out rest)
          = out ++ (ch :: normalizeFrom (ch = 0x2F) rest).take (osz - 1 - out.length) := by
      intro ch
      split
      · next hroom =>
        obtain ⟨room, hr⟩ : ∃ room, osz - 1 - out.length = room + 1 :=
          ⟨osz - 1 - out.length - 1, by omega⟩
        have hrest : osz - 1 - (out ++ [ch]).length = room := by
          rw [List.length_append]
          simp only [List.length_cons, List.length_nil]
          omega
        rw [ih (out ++ [ch]), hrest, hr, List.getLast?_concat, List.take_succ_cons]
        simp
      · next hfull =>
        rw [ih out, show osz - 1 - out.length = 0 by omega]
        simp
    by_cases hsep : isSep c = true
    · have hslash : wsSlash c = 0x2F := (isSep_wsSlash c).mpr hsep
      by_cases hlast : out.getLast? = some 0x2F
      · simp [wsNormalizeFrom, normalizeFrom, hslash, hsep, hlast, ih out]
      · have h := happend 0x2F
        simp only [wsNormalizeFrom, normalizeFrom, hslash, hsep, hlast] at h ⊢
        simpa using h
    · rw [Bool.not_eq_true] at hsep
      have hslash : wsSlash c = c := wsSlash_of_not_sep hsep
      have hne : c ≠ 0x2F := by
        rintro rfl
        cases hsep
      by_cases hdot : c = 0x2E ∧ out.getLast? = some 0x2F ∧ wsSegmentEnd rest = true
      · obtain ⟨rfl, hlast, hend⟩ := hdot
        have hnot : ¬(0x2E : UInt8) = 0x2F := by decide
        simp [wsNormalizeFrom, normalizeFrom, hslash, hsep, hlast, hend, hnot, ih out]
      · have h := happend c
        simp only [wsNormalizeFrom, normalizeFrom, hslash, hsep, hne, false_and, if_false, hdot,
          decide_eq_true_eq, decide_false] at h ⊢
        simpa using h

/-! ### Segments -/

def segmentText : List Str → Str
  | [] => []
  | [s] => if isName s then s else []
  | s :: t :: segs =>
      if isName s then s ++ 0x2F :: segmentText (t :: segs) else segmentText (t :: segs)

def segmentTail : List Str → Str
  | [] => []
  | [s] => s
  | s :: t :: segs => s ++ 0x2F :: segmentText (t :: segs)

theorem segmentText_of_name {s : Str} (h : isName s = true) (segs : List Str) :
    segmentText (s :: segs) = segmentTail (s :: segs) := by
  cases segs with
  | nil => simp [segmentText, segmentTail, h]
  | cons t segs => simp [segmentText, segmentTail, h]

theorem segmentText_skip {s : Str} (h : isName s = false) (t : Str) (segs : List Str) :
    segmentText (s :: t :: segs) = segmentText (t :: segs) := by
  simp [segmentText, h]

theorem segmentTail_cons (c : UInt8) (s : Str) (segs : List Str) :
    segmentTail ((c :: s) :: segs) = c :: segmentTail (s :: segs) := by
  cases segs with
  | nil => rfl
  | cons t segs => rfl

theorem segmentText_skip_eq {s t : Str} (hs : isName s = false) (ht : isName t = false)
    (segs : List Str) : segmentText (s :: segs) = segmentText (t :: segs) := by
  cases segs with
  | nil => simp [segmentText, hs, ht]
  | cons u segs => rw [segmentText_skip hs, segmentText_skip ht]

theorem wsSegmentEnd_iff {rest s : Str} {segs : List Str}
    (h : rest.splitOnP isSep = s :: segs) : wsSegmentEnd rest = true ↔ s = [] := by
  cases rest with
  | nil =>
    cases h
    simp [wsSegmentEnd]
  | cons c rest =>
    rw [List.splitOnP_cons_eq_if_modifyHead] at h
    by_cases hsep : isSep c = true
    · rw [if_pos hsep] at h
      cases h
      simp [wsSegmentEnd, hsep]
    · obtain ⟨t, segs', hsplit⟩ := List.exists_cons_of_ne_nil (List.splitOnP_ne_nil isSep rest)
      rw [if_neg hsep, hsplit] at h
      cases h
      simp [wsSegmentEnd, hsep]

theorem normalizeFrom_eq (rest : Str) :
    normalizeFrom true rest = segmentText (rest.splitOnP isSep) ∧
      normalizeFrom false rest = segmentTail (rest.splitOnP isSep) := by
  induction rest with
  | nil => exact ⟨rfl, rfl⟩
  | cons c rest ih =>
    obtain ⟨s, segs, hsplit⟩ := List.exists_cons_of_ne_nil (List.splitOnP_ne_nil isSep rest)
    rw [hsplit] at ih
    rw [List.splitOnP_cons_eq_if_modifyHead, hsplit]
    by_cases hsep : isSep c = true
    · simp only [normalizeFrom, hsep, if_true, Bool.false_eq_true, if_false, ih.1]
      exact ⟨(segmentText_skip rfl s segs).symm, rfl⟩
    · rw [if_neg hsep, List.modifyHead_cons]
      have hfalse : normalizeFrom false (c :: rest) = segmentTail ((c :: s) :: segs) := by
        rw [segmentTail_cons, ← ih.2]
        simp [normalizeFrom, hsep]
      refine ⟨?_, hfalse⟩
      -- the segment is a single dot exactly when nothing of it follows the dot
      by_cases hdot : c = 0x2E ∧ s = []
      · obtain ⟨rfl, rfl⟩ := hdot
        have hend : wsSegmentEnd rest = true := (wsSegmentEnd_iff hsplit).mpr rfl
        have hskip : normalizeFrom true (0x2E :: rest) = normalizeFrom true rest := by
          simp [normalizeFrom, hsep, hend]
        rw [hskip, ih.1]
        exact segmentText_skip_eq rfl rfl segs
      · have hname : isName (c :: s) = true := by
          simpa [isName] using not_and_or.mp hdot
        rw [segmentText_of_name hname, ← hfalse]
        simp only [normalizeFrom, hsep, Bool.false_eq_true, if_false, false_and, and_false, true_and]
        rw [if_neg]
        rintro ⟨hc, hend⟩
        exact hdot ⟨hc, (wsSegmentEnd_iff hsplit).mp hend⟩

theorem not_sep_of_mem_split {rest s : Str} (h : s ∈ rest.splitOnP isSep) :
    ∀ c ∈ s, isSep c = false := by
  induction rest generalizing s with
  | nil =>
    rw [List.splitOnP_nil, List.mem_singleton] at h
    rw [h]
    nofun
  | cons c rest ih =>
    obtain ⟨t, segs, hsplit⟩ := List.exists_cons_of_ne_nil (List.splitOnP_ne_nil isSep rest)
    rw [hsplit] at ih
    rw [List.splitOnP_cons_eq_if_modifyHead, hsplit] at h
    by_cases hsep : isSep c = true
    · rw [if_pos hsep] at h
      rcases List.mem_cons.mp h with rfl | h
      · nofun
      · exact ih h
    · rw [if_neg hsep, List.modifyHead_cons] at h
      rcases List.mem_cons.mp h with rfl | h
      · intro d hd
        rcases List.mem_cons.mp hd with rfl | hd
        · exact Bool.not_eq_true _ ▸ hsep
        · exact ih (List.mem_cons_self ..) d hd
      · exact ih (List.mem_cons_of_mem _ h)

theorem of_mem_pathNames {raw s : Str} (h : s ∈ pathNames raw) :
    isName s = true ∧ ∀ c ∈ s, isSep c = false :=
  ⟨(List.mem_filter.mp h).2, not_sep_of_mem_split (List.mem_filter.mp h).1⟩

@[simp] theorem joinNames_nil : joinNames [] = [] := rfl

@[simp] theorem joinNames_cons (s : Str) (names : List Str) :
    joinNames (s :: names) = 0x2F :: s ++ joinNames names := rfl

theorem joinNames_append (ns ms : List Str) :
    joinNames (ns ++ ms) = joinNames ns ++ joinNames ms := List.flatMap_append

theorem segmentText_join (segs : List Str) : ∃ t : Str,
    0x2F :: segmentText segs = joinNames (segs.filter isName) ++ t ∧
      (t = [0x2F] ∨ t = [] ∧ segs.filter isName ≠ []) := by
  induction segs using segmentText.induct with
  | case1 => exact ⟨[0x2F], rfl, .inl rfl⟩
  | case2 s hname =>
    refine ⟨[], ?_, .inr ⟨rfl, ?_⟩⟩
    · simp [segmentText, hname]
    · simp [hname]
  | case3 s hname =>
    refine ⟨[0x2F], ?_, .inl rfl⟩
    simp [segmentText, hname]
  | case4 s t segs hname ih =>
    obtain ⟨tail, hjoin, htail⟩ := ih
    refine ⟨tail, ?_, ?_⟩
    · simp only [segmentText, hname, if_true, List.filter_cons_of_pos, joinNames_cons,
        List.append_assoc, ← hjoin, List.cons_append]
    · rcases htail with rfl | ⟨rfl, -⟩
      · exact .inl rfl
      · exact .inr ⟨rfl, by simp [hname]⟩
  | case5 s t segs hname ih =>
    obtain ⟨tail, hjoin, htail⟩ := ih
    have hfilter : (s :: t :: segs).filter isName = (t :: segs).filter isName :=
      List.filter_cons_of_neg hname
    rw [hfilter]
    refine ⟨tail, ?_, htail⟩
    rw [← hjoin]
    simp [segmentText, hname]

theorem joinNames_concat (ns : List Str) (pre : Str) (c : UInt8) :
    ∃ pre', joinNames (ns ++ [pre ++ [c]]) = 0x2F :: pre' ++ [c] := by
  cases ns with
  | nil => exact ⟨pre, by simp⟩
  | cons n ns => exact ⟨n ++ joinNames ns ++ 0x2F :: pre, by simp [joinNames_append]⟩

theorem joinNames_last {names : List Str} (hne : names ≠ [])
    (h : ∀ s ∈ names, isName s = true ∧ ∀ c ∈ s, isSep c = false) :
    ∃ (pre : Str) (c : UInt8), joinNames names = 0x2F :: pre ++ [c] ∧ isSep c = false := by
  obtain ⟨ns, s, rfl⟩ : ∃ ns s, names = ns ++ [s] :=
    ⟨_, _, (List.dropLast_append_getLast hne).symm⟩
  obtain ⟨hname, hsep⟩ := h s (by simp)
  have hs : s ≠ [] := by
    rintro rfl
    cases hname
  obtain ⟨pre, c, rfl⟩ : ∃ pre c, s = pre ++ [c] := ⟨_, _, (List.dropLast_append_getLast hs).symm⟩
  obtain ⟨pre', hjoin⟩ := joinNames_concat ns pre c
  exact ⟨pre', c, hjoin, hsep c (by simp)⟩

/-! ### The result -/

theorem wsStripSlashes_concat (pre : Str) {c : UInt8} (hc : isSep c = false) :
    wsStripSlashes (0x2F :: pre ++ [c]) = 0x2F :: pre ++ [c] ∧
      wsStripSlashes (0x2F :: pre ++ [c] ++ [0x2F]) = 0x2F :: pre ++ [c] := by
  have hne : ¬(c == 0x2F) = true := by
    intro h
    rw [beq_iff_eq.mp h] at hc
    cases hc
  have hkeep : (pre ++ [c]).rdropWhile (· == 0x2F) = pre ++ [c] :=
    List.rdropWhile_concat_neg (· == 0x2F) pre c hne
  have hdrop : (pre ++ [c] ++ [0x2F]).rdropWhile (· == 0x2F) = pre ++ [c] :=
    (List.rdropWhile_concat_pos (· == 0x2F) (pre ++ [c]) 0x2F (by rfl)).trans hkeep
  constructor
  · change 0x2F :: (pre ++ [c]).rdropWhile (· == 0x2F) = _
    rw [hkeep]
    rfl
  · change 0x2F :: (pre ++ [c] ++ [0x2F]).rdropWhile (· == 0x2F) = _
    rw [hdrop]
    rfl

def normalizedText (raw : Str) : Str := 0x2F :: segmentText (raw.splitOnP isSep)

theorem normalizedText_cases (raw : Str) :
    (normalizedText raw = canonical raw ∨ normalizedText raw = canonical raw ++ [0x2F]) ∧
      wsStripSlashes (canonical raw) = canonical raw ∧
      wsStripSlashes (normalizedText raw) = canonical raw := by
  obtain ⟨t, htext, ht⟩ := segmentText_join (raw.splitOnP isSep)
  rw [normalizedText, htext]
  by_cases hnames : pathNames raw = []
  · have hcanonical : canonical raw = [0x2F] := by simp [canonical, namedPath, hnames]
    change (pathNames raw) = _ at hnames
    rw [pathNames] at hnames
    rcases ht with rfl | ⟨-, hne⟩
    · rw [hcanonical, hnames]
      exact ⟨.inl rfl, rfl, rfl⟩
    · exact absurd hnames hne
  · have hcanonical : canonical raw = joinNames (pathNames raw) := by
      simp [canonical, namedPath, hnames]
    obtain ⟨pre, c, hjoin, hc⟩ := joinNames_last hnames fun s hs => of_mem_pathNames hs
    obtain ⟨hkeep, hdrop⟩ := wsStripSlashes_concat pre hc
    rw [pathNames] at hjoin hcanonical
    rw [hcanonical, hjoin]
    rcases ht with rfl | ⟨rfl, -⟩
    · exact ⟨.inr rfl, hkeep, hdrop⟩
    · rw [List.append_nil]
      exact ⟨.inl rfl, hkeep, hkeep⟩

theorem wsNormalizeFrom_start (raw : Str) (room : Nat) :
    wsNormalizeFrom (room + 2) (if raw.head?.any isSep = false then [0x2F] else []) raw
      = (normalizedText raw).take (room + 1) := by
  by_cases hsep : raw.head?.any isSep = false
  · rw [if_pos hsep, wsNormalizeFrom_eq]
    change 0x2F :: (normalizeFrom true raw).take room = _
    rw [(normalizeFrom_eq raw).1]
    rfl
  · rw [if_neg hsep, wsNormalizeFrom_eq]
    cases raw with
    | nil => exact absurd rfl hsep
    | cons c rest =>
      have hc : isSep c = true := by simpa using hsep
      obtain ⟨s, segs, hsplit⟩ := List.exists_cons_of_ne_nil (List.splitOnP_ne_nil isSep rest)
      change (normalizeFrom false (c :: rest)).take (room + 1) = _
      rw [normalizedText, List.splitOnP_cons_eq_if_modifyHead, if_pos hc, hsplit,
        segmentText_skip rfl, ← hsplit, ← (normalizeFrom_eq rest).1]
      simp [normalizeFrom, hc]

theorem wsNormalizePath_eq (raw : Str) {osz : Nat} (hosz : 1 < osz) :
    wsNormalizePath raw osz = wsStripSlashes ((normalizedText raw).take (osz - 1)) := by
  obtain ⟨room, rfl⟩ : ∃ room, osz = room + 2 := ⟨osz - 2, by omega⟩
  have hloop := wsNormalizeFrom_start raw room
  simp only [wsNormalizePath, hosz, and_true, hloop]
  split
  · next h =>
    rcases h with rfl | h
    · simp [normalizedText, segmentText, isName, wsStripSlashes]
    · simp [normalizedText, wsStripSlashes] at h
  · rfl

theorem length_wsStripSlashes_le (out : Str) : (wsStripSlashes out).length ≤ out.length := by
  have hdrop := (List.rdropWhile_prefix (· == 0x2F) (out.drop 1)).length_le
  have hsplit := congrArg List.length (List.take_append_drop 1 out)
  rw [List.length_append] at hsplit
  rw [wsStripSlashes, List.length_append]
  omega

theorem wsNormalizePath_canonical_iff (raw : Str) {osz : Nat} (hosz : 1 < osz) :
    wsNormalizePath raw osz = canonical raw ↔ (canonical raw).length < osz := by
  obtain ⟨htext, hkeep, hstrip⟩ := normalizedText_cases raw
  rw [wsNormalizePath_eq raw hosz]
  constructor
  · intro h
    have hlen := length_wsStripSlashes_le ((normalizedText raw).take (osz - 1))
    rw [h, List.length_take] at hlen
    omega
  · intro hfits
    rcases htext with htext | htext
    · rw [htext, List.take_of_length_le (by omega), hkeep]
    · by_cases hlong : (canonical raw).length = osz - 1
      · rw [htext, ← hlong, List.take_left, hkeep]
      · have hall : (normalizedText raw).length ≤ osz - 1 := by
          rw [htext, List.length_append]
          simp only [List.length_cons, List.length_nil]
          omega
        rw [List.take_of_length_le hall, hstrip]

/-! ### The shape of a normalised path -/

def ProperNames (names : List Str) : Prop :=
  ∀ s ∈ names, isName s = true ∧ ∀ c ∈ s, isSep c = false

theorem take_joinNames {names : List Str} (h : ProperNames names) {t : Str}
    (ht : t = [0x2F] ∨ t = []) (n : Nat) : ∃ ns last, ProperNames ns ∧
      (joinNames names ++ t).take n = joinNames ns ++ last ∧
      (last = [] ∨ last = [0x2F] ∨ ∃ s, last = 0x2F :: s ∧ s ≠ [] ∧ ∀ c ∈ s, isSep c = false) := by
  induction names generalizing n with
  | nil =>
    refine ⟨[], t.take n, nofun, rfl, ?_⟩
    rcases ht with rfl | rfl
    · cases n with
      | zero => exact .inl rfl
      | succ n => exact .inr (.inl (by simp))
    · exact .inl (List.take_nil)
  | cons s names ih =>
    cases n with
    | zero => exact ⟨[], [], nofun, rfl, .inl rfl⟩
    | succ n =>
      have hsplit : (joinNames (s :: names) ++ t).take (n + 1)
          = 0x2F :: (s.take n ++ (joinNames names ++ t).take (n - s.length)) := by
        rw [joinNames_cons, List.cons_append, List.cons_append, List.take_succ_cons,
          List.append_assoc, List.take_append]
      rw [hsplit]
      by_cases hlong : s.length ≤ n
      · obtain ⟨ns, last, hns, heq, hlast⟩ :=
          ih (fun x hx => h x (List.mem_cons_of_mem s hx)) (n - s.length)
        refine ⟨s :: ns, last, ?_, ?_, hlast⟩
        · intro x hx
          rcases List.mem_cons.mp hx with rfl | hx
          · exact h x (List.mem_cons_self ..)
          · exact hns x hx
        · rw [List.take_of_length_le hlong, heq]
          simp
      · refine ⟨[], 0x2F :: s.take n, nofun, ?_, ?_⟩
        · rw [show n - s.length = 0 by omega]
          simp
        · by_cases hn : s.take n = []
          · exact .inr (.inl (by rw [hn]))
          · exact .inr (.inr ⟨s.take n, rfl, hn, fun c hc =>
              (h s (List.mem_cons_self ..)).2 c (List.mem_of_mem_take hc)⟩)

theorem wsNormalizePath_shape (raw : Str) {osz : Nat} (hosz : 1 < osz) :
    wsNormalizePath raw osz = [0x2F] ∨ ∃ ns s, wsNormalizePath raw osz = joinNames (ns ++ [s]) ∧
      ProperNames ns ∧ s ≠ [] ∧ (∀ c ∈ s, isSep c = false) ∧
      (isName s = true ∨ (wsNormalizePath raw osz).length = osz - 1) := by
  -- a path that ends in a whole name
  have hwhole : ∀ names : List Str, ProperNames names → names ≠ [] →
      ∃ ns s, joinNames names = joinNames (ns ++ [s]) ∧ ProperNames ns ∧ s ≠ [] ∧
        (∀ c ∈ s, isSep c = false) ∧ isName s = true := by
    intro names hnames hne
    obtain ⟨ns, s, rfl⟩ : ∃ ns s, names = ns ++ [s] :=
      ⟨_, _, (List.dropLast_append_getLast hne).symm⟩
    obtain ⟨hname, hsep⟩ := hnames s (by simp)
    refine ⟨ns, s, rfl, fun x hx => hnames x (by simp [hx]), ?_, hsep, hname⟩
    rintro rfl
    cases hname
  obtain ⟨hcases, hkeep, hstrip⟩ := normalizedText_cases raw
  rw [wsNormalizePath_eq raw hosz]
  by_cases hfits : (normalizedText raw).length ≤ osz - 1
  · rw [List.take_of_length_le hfits, hstrip, canonical, namedPath]
    by_cases hnames : pathNames raw = []
    · exact .inl (if_pos hnames)
    · obtain ⟨ns, s, heq, hns, hs, hsep, hname⟩ := hwhole _ (fun _ h => of_mem_pathNames h) hnames
      rw [if_neg hnames]
      exact .inr ⟨ns, s, heq, hns, hs, hsep, .inl hname⟩
  · obtain ⟨t, htext, ht⟩ := segmentText_join (raw.splitOnP isSep)
    obtain ⟨ns, last, hns, heq, hlast⟩ :=
      take_joinNames (fun _ hs => of_mem_pathNames hs) (ht.imp_right And.left) (osz - 1)
    rw [pathNames, ← htext, ← normalizedText] at heq
    have hlen : (joinNames ns ++ last).length = osz - 1 := by
      rw [← heq, List.length_take]
      omega
    rw [heq]
    rcases hlast with rfl | rfl | ⟨s, rfl, hs, hsep⟩
    · rw [List.append_nil] at hlen ⊢
      have hne : ns ≠ [] := by
        rintro rfl
        simp only [joinNames_nil, List.length_nil] at hlen
        omega
      obtain ⟨pre, c, hjoin, hc⟩ := joinNames_last hne hns
      obtain ⟨ns', s, heq', hns', hs, hsep, hname⟩ := hwhole ns hns hne
      rw [hjoin, (wsStripSlashes_concat pre hc).1, ← hjoin]
      exact .inr ⟨ns', s, heq', hns', hs, hsep, .inl hname⟩
    · by_cases hne : ns = []
      · subst hne
        exact .inl rfl
      · obtain ⟨pre, c, hjoin, hc⟩ := joinNames_last hne hns
        obtain ⟨ns', s, heq', hns', hs, hsep, hname⟩ := hwhole ns hns hne
        rw [hjoin, (wsStripSlashes_concat pre hc).2, ← hjoin]
        exact .inr ⟨ns', s, heq', hns', hs, hsep, .inl hname⟩
    · obtain ⟨pre, c, rfl⟩ : ∃ pre c, s = pre ++ [c] :=
        ⟨_, _, (List.dropLast_append_getLast hs).symm⟩
      have hjoin : joinNames ns ++ 0x2F :: (pre ++ [c]) = joinNames (ns ++ [pre ++ [c]]) := by
        rw [joinNames_append]
        simp
      obtain ⟨pre', hpre⟩ := joinNames_concat ns pre c
      rw [hjoin] at hlen ⊢
      have hc : isSep c = false := hsep c (by simp)
      have hsame : wsStripSlashes (joinNames (ns ++ [pre ++ [c]])) = joinNames (ns ++ [pre ++ [c]]) := by
        rw [hpre, (wsStripSlashes_concat pre' hc).1]
      rw [hsame]
      exact .inr ⟨ns, pre ++ [c], rfl, hns, hs, hsep, .inr hlen⟩

theorem splitOnP_append_of_not_sep {s : Str} (hs : ∀ c ∈ s, isSep c = false) (rest : Str) :
    (s ++ rest).splitOnP isSep = (rest.splitOnP isSep).modifyHead (s ++ ·) := by
  induction s with
  | nil =>
    obtain ⟨t, segs, hsplit⟩ := List.exists_cons_of_ne_nil (List.splitOnP_ne_nil isSep rest)
    simp [hsplit]
  | cons c s ih =>
    obtain ⟨t, segs, hsplit⟩ := List.exists_cons_of_ne_nil (List.splitOnP_ne_nil isSep rest)
    have hc : isSep c = false := hs c (List.mem_cons_self ..)
    rw [List.cons_append, List.splitOnP_cons_eq_if_modifyHead, hc,
      ih fun x hx => hs x (List.mem_cons_of_mem c hx), hsplit]
    simp

theorem splitOnP_joinNames {segs : List Str} (h : ∀ s ∈ segs, ∀ c ∈ s, isSep c = false) :
    (joinNames segs).splitOnP isSep = [] :: segs := by
  induction segs with
  | nil => rfl
  | cons s segs ih =>
    rw [joinNames_cons, List.cons_append, List.splitOnP_cons_eq_if_modifyHead,
      splitOnP_append_of_not_sep (h s (List.mem_cons_self ..)),
      ih fun x hx => h x (List.mem_cons_of_mem s hx)]
    simp [isSep]

theorem pathNames_joinNames {segs : List Str} (h : ∀ s ∈ segs, ∀ c ∈ s, isSep c = false) :
    pathNames (joinNames segs) = segs.filter isName := by
  rw [pathNames, splitOnP_joinNames h]
  rfl

/-! ### Decoding -/

theorem length_wsUnescape_le (c : UInt8) (rest : Str) :
    (wsUnescape c rest).2.length ≤ rest.length := by
  unfold wsUnescape
  split
  · next hi lo tail =>
    split
    · simp only [List.length_cons]
      omega
    · exact le_rfl
  · exact le_rfl

theorem wsUrlDecode_of_le {s : Str} {room : Nat} (h : s.length ≤ room) :
    wsUrlDecode room s = (urlDecoded s, true) := by
  have hstable : ∀ (n m : Nat) (s : Str), s.length ≤ n → s.length ≤ m →
      wsUrlDecode n s = wsUrlDecode m s ∧ (wsUrlDecode n s).2 = true := by
    intro n
    induction n with
    | zero =>
      intro m s hn _
      rw [List.length_eq_zero_iff.mp (Nat.le_zero.mp hn)]
      cases m <;> exact ⟨rfl, rfl⟩
    | succ n ih =>
      intro m s hn hm
      cases s with
      | nil => cases m <;> exact ⟨rfl, rfl⟩
      | cons c rest =>
        cases m with
        | zero => exact absurd hm (by simp)
        | succ m =>
          have hrest := length_wsUnescape_le c rest
          rw [List.length_cons] at hn hm
          obtain ⟨heq, hok⟩ := ih m (wsUnescape c rest).2 (by omega) (by omega)
          simp only [wsUrlDecode]
          rw [heq]
          exact ⟨rfl, heq ▸ hok⟩
  obtain ⟨heq, hok⟩ := hstable room s.length s h le_rfl
  rw [urlDecoded, ← heq, ← hok]

theorem davUrlToSdpath_some {raw sdpath : Str} {osz : Nat}
    (h : davUrlToSdpath raw osz = some sdpath) (hraw : raw.length < WS_PATH_MAX) :
    sdpath = wsNormalizePath (urlDecoded raw) osz ∧ wsPathIsSafe sdpath = true := by
  have hdecode : wsUrlDecode (WS_PATH_MAX - 1) raw = (urlDecoded raw, true) :=
    wsUrlDecode_of_le (by omega)
  simp only [davUrlToSdpath, hdecode, Bool.true_eq_false, if_false] at h
  split at h
  · next hsafe =>
    cases h
    exact ⟨rfl, hsafe⟩
  · cases h

end Pi1MHz.Ws
