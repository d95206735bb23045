import Pi1MHz.WsDigest
import Pi1MHz.WsUrlPath

/-!
# The web server: the resource a request names

The front of `process_request`: the request line, authorisation and the choice of a handler, with
the SD path that the handler is given.

`request_acts_on_named_iff` says when a request acts on the resource it names.
-/

namespace Pi1MHz.Ws

/-! ### Methods, pages and handlers -/

inductive Handler where
  | propfind | proppatch | put | delete | mkcol | move | copy | lock | getFile | filesGet | upload
deriving DecidableEq, Repr

/-- What `process_request` decides to do with an authorised request. -/
inductive Route where
  | refuse (status : Nat)
  | page
  | resource (handler : Handler) (rawpath : Str)
deriving DecidableEq, Repr

/-- The scan of `ws_query_param`; `start` says that a pair starts here. -/
def wsQueryParamFrom (key : Str) (osz : Nat) : Bool → Str → Option Str
  | _, [] => none
  | start, c :: rest =>
      if start && wsPrefixCi (c :: rest) key && (c :: rest).getD key.length 0 == 0x3D then
        some ((((c :: rest).drop (key.length + 1)).takeWhile (· ≠ 0x26)).take (osz - 1))
      else wsQueryParamFrom key osz (c == 0x26) rest

def wsQueryParam (query key : Str) (osz : Nat) : Option Str := wsQueryParamFrom key osz true query

def davPutQueryOk : Option Str → Bool
  | none => true
  | some query =>
      match wsQueryParam query (lit ['o', 'f', 'f', 's', 'e', 't']) 16 with
      | some off => off ≠ [] && off.all isDigit
      | none => query.isEmpty

def davVerbs : List (Str × Handler) :=
  [(lit ['P', 'R', 'O', 'P', 'F', 'I', 'N', 'D'], .propfind),
    (lit ['P', 'R', 'O', 'P', 'P', 'A', 'T', 'C', 'H'], .proppatch),
    (lit ['P', 'U', 'T'], .put), (lit ['D', 'E', 'L', 'E', 'T', 'E'], .delete),
    (lit ['M', 'K', 'C', 'O', 'L'], .mkcol), (lit ['M', 'O', 'V', 'E'], .move),
    (lit ['C', 'O', 'P', 'Y'], .copy), (lit ['L', 'O', 'C', 'K'], .lock)]

def getPages : List Str :=
  [lit ['/'], lit ['/', 's', 't', 'a', 't', 'u', 's'],
    lit ['/', 'b', 'e', 'n', 'c', 'h', '.', 'b', 'i', 'n'], lit ['/', 'a', 'u', 'n'],
    lit ['/', 'f', 'r', 'a', 'm', 'e', 'b', 'u', 'f', 'f', 'e', 'r'],
    lit ['/', 'f', 'r', 'a', 'm', 'e', 'b', 'u', 'f', 'f', 'e', 'r', '.', 'b', 'm', 'p'],
    lit ['/', 'r', 'e', 'b', 'o', 'o', 't']]

def filesPrefix : Str := lit ['/', 'f', 'i', 'l', 'e', 's']

/-- `/files` and everything below it. -/
def isFilesPath (path : Str) : Bool := path == filesPrefix || (filesPrefix ++ [0x2F]).isPrefixOf path

/-- The tail of `process_request`. -/
def wsRoute (method path : Str) (query : Option Str) : Route :=
  if method = lit ['O', 'P', 'T', 'I', 'O', 'N', 'S'] ∨ method = lit ['U', 'N', 'L', 'O', 'C', 'K'] then
    .page
  else
    match davVerbs.lookup method with
    | some .put => if davPutQueryOk query then .resource .put path else .refuse 400
    | some handler => .resource handler path
    | none =>
        if method = lit ['G', 'E', 'T'] ∨ method = lit ['H', 'E', 'A', 'D'] then
          if path ∈ getPages then .page
          else if isFilesPath path then .resource .filesGet path
          else .resource .getFile path
        else if method = lit ['P', 'O', 'S', 'T'] then
          if path = lit ['/', 'r', 'e', 'b', 'o', 'o', 't'] then .page
          else if isFilesPath path then .resource .upload path
          else .refuse 404
        else .refuse 405

/-- The part of the path that a handler maps to the card: the `/files` pages skip their prefix. -/
def Handler.named : Handler → Str → Str
  | .filesGet, path | .upload, path => path.drop 6
  | _, path => path

def Handler.sdPath (h : Handler) (rawpath : Str) : Option Str :=
  davUrlToSdpath (h.named rawpath) WS_PATH_MAX

def Handler.badPath : Handler → Nat
  | .getFile => 404
  | _ => 400

/-! ### A request -/

inductive Outcome where
  | refused (status : Nat)
  | page
  | acts (handler : Handler) (sdpath : Str)
deriving DecidableEq, Repr

/-- The server's digest state and the clock, as `ws_digest_verify` sees them. -/
structure AuthState where
  cfg : WebdavConfig
  g : Digest := {}
  now : UInt32 := 0

def AuthState.authorised (a : AuthState) (req : AuthRequest) : Bool :=
  a.cfg.user == [] || a.cfg.password == [] || wsDigestVerify a.cfg a.now a.g req == .ok

def splitQuery (rawpath : Str) : Str × Option Str :=
  (rawpath.takeWhile (· ≠ 0x3F), (rawpath.dropWhile (· ≠ 0x3F)).tail?)

/-- The request line as `process_request` keeps it: method and target. -/
def requestLine (hdr : List UInt8) : Option (Str × Str) :=
  wsParseRequestLine (cstr hdr) 12 WS_PATH_MAX

def authRequest (hdr : List UInt8) (method rawpath : Str) : AuthRequest where
  method := method
  path := (splitQuery rawpath).1
  query := (splitQuery rawpath).2
  header := hdr

def requestRoute (method rawpath : Str) : Route :=
  wsRoute method (splitQuery rawpath).1 (splitQuery rawpath).2

def processRequest (a : AuthState) (hdr : List UInt8) : Outcome :=
  match requestLine hdr with
  | none => .refused 400
  | some (method, rawpath) =>
      if a.authorised (authRequest hdr method rawpath) = false then .refused 401
      else
        match requestRoute method rawpath with
        | .refuse status => .refused status
        | .page => .page
        | .resource h path =>
            match h.sdPath path with
            | none => .refused h.badPath
            | some sdpath => .acts h sdpath

/-! ### What the request names -/

def wsTarget (hdr : List UInt8) : Str :=
  (((cstr hdr).dropWhile wsTokenByte).dropWhile (· = 0x20)).takeWhile wsTokenByte

def namedResource (hdr : List UInt8) (h : Handler) : Str :=
  canonical (urlDecoded (h.named (splitQuery (wsTarget hdr)).1))

def ActsOnNamed (hdr : List UInt8) : Outcome → Prop
  | .refused status => 400 ≤ status ∧ status < 500
  | .page => (wsTarget hdr).length < WS_PATH_MAX
  | .acts h sdpath => sdpath = namedResource hdr h ∧ (wsTarget hdr).length < WS_PATH_MAX

/-- The method as it is kept, in a buffer of 12 bytes. -/
def keptMethod (hdr : List UInt8) : Str := ((cstr hdr).takeWhile wsTokenByte).take 11

/-- The first 511 bytes of the target. -/
def keptTarget (hdr : List UInt8) : Str := (wsTarget hdr).take (WS_PATH_MAX - 1)

/-- The request line has a blank behind the method, and a target. -/
def LineOk (hdr : List UInt8) : Prop := ((cstr hdr).dropWhile wsTokenByte).head? = some 0x20 ∧ wsTarget hdr ≠ []

instance (hdr : List UInt8) : Decidable (LineOk hdr) := inferInstanceAs (Decidable (_ ∧ _))

/-- A segment of the decoded path, of which 511 bytes in canonical form are looked at, is `..`. -/
def Climbs (h : Handler) (path : Str) : Prop :=
  [0x2E, 0x2E] ∈ ((normalizedText (urlDecoded (h.named path))).take (WS_PATH_MAX - 1)).splitOnP (· == 0x2F)

/-- There is a reason to refuse the request that is not its length: the line is malformed, the digest is not good, the
method or the page is not known, or the path has a `..` in it. -/
def RefusedAnyway (a : AuthState) (hdr : List UInt8) : Prop :=
  ¬LineOk hdr ∨ a.authorised (authRequest hdr (keptMethod hdr) (keptTarget hdr)) = false ∨
    match requestRoute (keptMethod hdr) (keptTarget hdr) with
    | .refuse _ => True
    | .page => False
    | .resource h path => Climbs h path

def TargetFits (hdr : List UInt8) : Prop :=
  (wsTarget hdr).length < WS_PATH_MAX ∧
    match requestRoute (keptMethod hdr) (wsTarget hdr) with
    | .resource h _ => (namedResource hdr h).length < WS_PATH_MAX
    | _ => True

theorem requestLine_eq (hdr : List UInt8) :
    requestLine hdr = if LineOk hdr then some (keptMethod hdr, keptTarget hdr) else none := by
  have hempty : keptTarget hdr = [] ↔ wsTarget hdr = [] := by
    unfold keptTarget
    rw [List.take_eq_nil_iff]
    exact or_iff_right (by decide)
  unfold requestLine wsParseRequestLine
  change (if _ then _ else if keptTarget hdr = [] then none else some (keptMethod hdr, keptTarget hdr)) = _
  by_cases hline : LineOk hdr
  · rw [if_neg (not_not.mpr hline.1), if_neg (mt hempty.mp hline.2), if_pos hline]
  · rw [if_neg hline]
    split
    · rfl
    · next hblank =>
      rw [if_pos]
      by_contra htarget
      exact hline ⟨not_not.mp hblank, mt hempty.mpr htarget⟩

theorem splitOnP_concat_slash (s : Str) :
    (s ++ [0x2F]).splitOnP (· == 0x2F) = s.splitOnP (· == 0x2F) ++ [[]] := by
  induction s with
  | nil => rfl
  | cons c s ih =>
    rw [List.cons_append, List.splitOnP_cons_eq_if_modifyHead, List.splitOnP_cons_eq_if_modifyHead, ih]
    split
    · rfl
    · obtain ⟨name, names, hsplit⟩ := List.exists_cons_of_ne_nil (List.splitOnP_ne_nil (· == 0x2F) s)
      rw [hsplit]
      rfl

theorem dotdot_rdropWhile (s : Str) :
    [0x2E, 0x2E] ∈ (s.rdropWhile (· == 0x2F)).splitOnP (· == 0x2F) ↔ [0x2E, 0x2E] ∈ s.splitOnP (· == 0x2F) := by
  induction s using List.reverseRecOn with
  | nil => rfl
  | append_singleton s c ih =>
    by_cases hc : c = 0x2F
    · rw [hc, List.rdropWhile_concat_pos _ _ _ rfl, ih, splitOnP_concat_slash, List.mem_append]
      exact (or_iff_left (by decide)).symm
    · rw [List.rdropWhile_concat_neg _ _ _ (by simpa using hc)]

theorem dotdot_wsStripSlashes {s rest : Str} (hs : s = 0x2F :: rest) :
    [0x2E, 0x2E] ∈ (wsStripSlashes s).splitOnP (· == 0x2F) ↔ [0x2E, 0x2E] ∈ s.splitOnP (· == 0x2F) := by
  rw [hs]
  change _ ∈ (0x2F :: rest.rdropWhile (· == 0x2F)).splitOnP (· == 0x2F) ↔ _
  rw [List.splitOnP_cons_eq_if_modifyHead, List.splitOnP_cons_eq_if_modifyHead]
  simp only [beq_self_eq_true, if_true, List.mem_cons, dotdot_rdropWhile]

theorem Printable.blank_le : ∀ {c : UInt8}, Printable c → 0x20 ≤ c := by
  intro c hc
  by_contra hlow
  have hcontrol : wsPrintable c = 0x5F := if_pos (.inl (UInt8.not_le.mp hlow))
  rw [Printable, hcontrol] at hc
  rw [← hc] at hlow
  exact hlow (by decide)

/-- `dav_url_to_sdpath` refuses a path that fits its buffer for a `..` only. -/
theorem Handler.sdPath_eq_none_iff (h : Handler) {path : Str} (hfits : (h.named path).length < WS_PATH_MAX) :
    h.sdPath path = none ↔ Climbs h path := by
  have hdecode : wsUrlDecode (WS_PATH_MAX - 1) (h.named path) = (urlDecoded (h.named path), true) :=
    wsUrlDecode_of_le (by omega)
  have hprintable : (wsNormalizePath (urlDecoded (h.named path)) WS_PATH_MAX).all (0x20 ≤ ·) = true := by
    rw [List.all_eq_true]
    intro c hc
    rw [decide_eq_true_eq]
    rcases wsNormalizePath_mem hc with rfl | hin
    · decide
    · exact (wsUrlDecode_printable _ _ c hin).blank_le
  have hsafe : wsPathIsSafe (wsNormalizePath (urlDecoded (h.named path)) WS_PATH_MAX) = true ↔ ¬Climbs h path := by
    obtain ⟨rest, hrest⟩ : ∃ rest, (normalizedText (urlDecoded (h.named path))).take (WS_PATH_MAX - 1) = 0x2F :: rest :=
      ⟨_, List.take_succ_cons⟩
    unfold wsPathIsSafe Climbs
    rw [hprintable, Bool.true_and, wsNormalizePath_eq _ (by decide), ← dotdot_wsStripSlashes hrest, List.all_eq_true]
    constructor
    · intro hall hmem
      exact absurd (hall _ hmem) (by decide)
    · intro hnot s hs
      rw [decide_eq_true_eq]
      rintro rfl
      exact hnot hs
  unfold Handler.sdPath davUrlToSdpath
  rw [hdecode]
  simp only [Bool.true_eq_false, if_false]
  split
  · next hok => exact iff_of_false (Option.some_ne_none _) (hsafe.mp hok)
  · next hbad => exact iff_of_true rfl (not_not.mp (mt hsafe.mpr hbad))

theorem wsRoute_refuse {method path : Str} {query : Option Str} {status : Nat}
    (h : wsRoute method path query = .refuse status) : 400 ≤ status ∧ status < 500 := by
  unfold wsRoute at h
  grind

theorem wsRoute_resource {method path path' : Str} {query : Option Str} {h : Handler}
    (hroute : wsRoute method path query = .resource h path') : path' = path := by
  unfold wsRoute at hroute
  grind

theorem Handler.length_named_le (h : Handler) (raw : Str) : (h.named raw).length ≤ raw.length := by
  cases h with
  | filesGet | upload =>
    change (raw.drop 6).length ≤ raw.length
    rw [List.length_drop]
    omega
  | _ => exact le_rfl

theorem Handler.sdPath_named_iff {h : Handler} {hdr : List UInt8} {sdpath : Str}
    (hpath : h.sdPath (splitQuery (wsTarget hdr)).1 = some sdpath)
    (hfits : (wsTarget hdr).length < WS_PATH_MAX) :
    sdpath = namedResource hdr h ↔ (namedResource hdr h).length < WS_PATH_MAX := by
  have hquery : (splitQuery (wsTarget hdr)).1.length ≤ (wsTarget hdr).length :=
    (List.takeWhile_prefix _).length_le
  have hnamed := h.length_named_le (splitQuery (wsTarget hdr)).1
  obtain ⟨rfl, -⟩ := davUrlToSdpath_some hpath (by omega)
  exact wsNormalizePath_canonical_iff _ (by decide)

/-- A request acts on the resource its whole target names, and a target too long for a buffer is
refused, exactly when the target fits or the request is refused for another reason. -/
theorem request_acts_on_named_iff (a : AuthState) (hdr : List UInt8) :
    ActsOnNamed hdr (processRequest a hdr) ↔ RefusedAnyway a hdr ∨ TargetFits hdr := by
  unfold processRequest RefusedAnyway TargetFits
  rw [requestLine_eq]
  by_cases hline : LineOk hdr
  swap
  · rw [if_neg hline]
    exact iff_of_true ⟨by decide, by decide⟩ (.inl (.inl hline))
  rw [if_pos hline]
  simp only [hline, not_true_eq_false, false_or]
  by_cases hauth : a.authorised (authRequest hdr (keptMethod hdr) (keptTarget hdr)) = false
  · simp [hauth, ActsOnNamed]
  rw [if_neg hauth]
  simp only [hauth, Bool.true_eq_false, false_or]
  -- the request line keeps the whole of a target that fits
  have hkept : (wsTarget hdr).length < WS_PATH_MAX → keptTarget hdr = wsTarget hdr :=
    fun hfits => List.take_of_length_le (by omega)
  cases hroute : requestRoute (keptMethod hdr) (keptTarget hdr) with
  | refuse status => simp [ActsOnNamed, wsRoute_refuse hroute]
  | page =>
    simp only [ActsOnNamed, false_or]
    refine (and_iff_left_of_imp fun hfits => ?_).symm
    rw [← hkept hfits, hroute]
    trivial
  | resource h path =>
    obtain rfl := wsRoute_resource hroute
    have hshort : (h.named (splitQuery (keptTarget hdr)).1).length < WS_PATH_MAX := by
      have hcut : (keptTarget hdr).length ≤ WS_PATH_MAX - 1 := List.length_take_le _ _
      have hquery : (splitQuery (keptTarget hdr)).1.length ≤ (keptTarget hdr).length :=
        (List.takeWhile_prefix _).length_le
      have hnamed := h.length_named_le (splitQuery (keptTarget hdr)).1
      have hpos : 0 < WS_PATH_MAX := by decide
      omega
    have hclimbs := h.sdPath_eq_none_iff hshort
    cases hpath : h.sdPath (splitQuery (keptTarget hdr)).1 with
    | none =>
      have hstatus : 400 ≤ h.badPath ∧ h.badPath < 500 := by
        cases h <;> decide
      simp only [hpath]
      exact iff_of_true hstatus (.inl (hclimbs.mp hpath))
    | some sdpath =>
      have hnot : ¬Climbs h (splitQuery (keptTarget hdr)).1 := by
        rw [← hclimbs, hpath]
        exact Option.some_ne_none _
      simp only [hpath, ActsOnNamed, hnot, false_or]
      rw [and_comm]
      refine and_congr_right fun hfits => ?_
      rw [hkept hfits] at hpath hroute
      rw [hroute]
      exact Handler.sdPath_named_iff hpath hfits

theorem processRequest_acts {a : AuthState} {hdr : List UInt8} {method rawpath path sdpath : Str}
    {h : Handler} (hline : requestLine hdr = some (method, rawpath))
    (hauth : a.authorised (authRequest hdr method rawpath) = true)
    (hroute : requestRoute method rawpath = .resource h path) (hpath : h.sdPath path = some sdpath) :
    processRequest a hdr = .acts h sdpath := by
  simp [processRequest, hline, hauth, hroute, hpath]

def longDelete : List UInt8 :=
  lit ['D', 'E', 'L', 'E', 'T', 'E', ' ', '/'] ++ List.replicate 511 0x61
    ++ lit [' ', 'H', 'T', 'T', 'P', '/', '1', '.', '1', '\r', '\n', '\r', '\n']

def shortenedPath : Str := 0x2F :: List.replicate 510 0x61

theorem delete_sdPath_shortened : Handler.delete.sdPath shortenedPath = some shortenedPath := by
  have hdecode : wsUrlDecode (WS_PATH_MAX - 1) shortenedPath = (shortenedPath, true) := by
    decide +kernel
  have hcanonical : canonical shortenedPath = shortenedPath := by decide +kernel
  have hnorm : wsNormalizePath shortenedPath WS_PATH_MAX = shortenedPath := by
    rw [(wsNormalizePath_canonical_iff shortenedPath (by decide)).mpr (by decide +kernel), hcanonical]
  have hsafe : wsPathIsSafe shortenedPath = true := by decide +kernel
  simp [Handler.sdPath, Handler.named, davUrlToSdpath, hdecode, hnorm, hsafe]

/-- The DELETE of one file deletes another, whose name is one letter shorter. -/
theorem long_target_shortened :
    processRequest ⟨⟨[], [], []⟩, {}, 0⟩ longDelete = .acts .delete shortenedPath ∧
      namedResource longDelete .delete = 0x2F :: List.replicate 511 0x61 ∧
      ¬ActsOnNamed longDelete (processRequest ⟨⟨[], [], []⟩, {}, 0⟩ longDelete) := by
  have hline : requestLine longDelete
      = some (lit ['D', 'E', 'L', 'E', 'T', 'E'], shortenedPath) := by decide +kernel
  have hroute : requestRoute (lit ['D', 'E', 'L', 'E', 'T', 'E']) shortenedPath
      = .resource .delete shortenedPath := by decide +kernel
  have hacts : processRequest ⟨⟨[], [], []⟩, {}, 0⟩ longDelete = .acts .delete shortenedPath := by
    exact processRequest_acts hline rfl hroute delete_sdPath_shortened
  have hlong : ¬(wsTarget longDelete).length < WS_PATH_MAX := by decide +kernel
  have hnamed : namedResource longDelete .delete = 0x2F :: List.replicate 511 0x61 := by
    decide +kernel
  refine ⟨hacts, hnamed, ?_⟩
  rw [hacts]
  exact fun h => hlong h.2

end Pi1MHz.Ws
