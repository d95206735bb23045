import Pi1MHz.WsDigest

/-!
# The web server: what a digest is bound to

A header that `ws_digest_verify` accepts is good for one path: the part of its `uri` before a query.  The hash that is
compared is computed over the fields of the header, each cut to the buffer it was copied to.
-/

namespace Pi1MHz.Ws

theorem path_of_uriMatches {uri path : Str} {query : Option Str} (h : wsDigestUriMatches uri path query = true)
    (hpath : 0x3F ∉ path) : path = (wsAbsPath uri).takeWhile (· ≠ 0x3F) := by
  unfold wsDigestUriMatches at h
  simp only at h
  split at h
  · cases h
  rename_i hprefix
  obtain ⟨rest, hrest⟩ := List.isPrefixOf_iff_prefix.mp (Bool.not_eq_false _ ▸ hprefix)
  have hplain : ∀ c ∈ path, decide (c ≠ 0x3F) = true := by
    intro c hc
    apply decide_eq_true
    rintro rfl
    exact hpath hc
  rw [← hrest, List.drop_left] at h
  rw [← hrest, List.takeWhile_append_of_pos hplain]
  split at h
  · rw [List.takeWhile_nil, List.append_nil]
  · rename_i c tail q
    rw [Bool.and_eq_true, beq_iff_eq] at h
    rw [h.1, List.takeWhile_cons_of_neg (by decide), List.append_nil]
  · cases h

/-! ### The fields -/

def authorizationName : Str := lit ['A', 'u', 't', 'h', 'o', 'r', 'i', 'z', 'a', 't', 'i', 'o', 'n']

def authorization (req : AuthRequest) : Option Str := wsFindHeader req.header authorizationName 640

def authorizationText (req : AuthRequest) : Option Str :=
  wsFindHeader req.header authorizationName (req.header.length + 1)

/-- The fields behind `Digest`. -/
def digestFields (authz : Str) : Str := (authz.drop 7).dropWhile wsBlank

def digestText (fields key : Str) : Option Str := wsDigestField fields key (fields.length + 1)

theorem wsFieldValue_cut {p : Str} {n : Nat} (hn : p.length ≤ n) (osz : Nat) :
    wsFieldValue osz p = (wsFieldValue (n + 1) p).take (osz - 1) := by
  cases p with
  | nil => exact List.take_nil.symm
  | cons c rest =>
    rw [List.length_cons] at hn
    rw [wsFieldValue, wsFieldValue]
    by_cases hquote : c = 0x22
    · have hle : (rest.takeWhile (· ≠ 0x22)).length ≤ n := by
        have hprefix := (List.takeWhile_prefix (· ≠ (0x22 : UInt8)) (l := rest)).length_le
        omega
      rw [if_pos hquote, if_pos hquote, Nat.add_sub_cancel, List.take_of_length_le hle]
    · have hle : ((c :: rest).takeWhile fun c => !wsFieldSep c).length ≤ n := by
        have hprefix := (List.takeWhile_prefix (fun c => !wsFieldSep c) (l := c :: rest)).length_le
        rw [List.length_cons] at hprefix
        omega
      rw [if_neg hquote, if_neg hquote, Nat.add_sub_cancel, List.take_of_length_le hle]

theorem length_wsSkipPair_le (quoted : Bool) (s : Str) : (wsSkipPair quoted s).length ≤ s.length := by
  induction s generalizing quoted with
  | nil =>
    cases quoted with
    | false => exact Nat.le_refl _
    | true => exact Nat.le_refl _
  | cons c s ih =>
    cases quoted with
    | false =>
      rw [wsSkipPair]
      split
      · exact Nat.le_refl _
      · exact Nat.le_succ_of_le (ih _)
    | true =>
      rw [wsSkipPair]
      exact Nat.le_succ_of_le (ih _)

theorem wsDigestFieldFrom_cut (key : Str) (fuel : Nat) {s : Str} {n : Nat} (hn : s.length ≤ n) (osz : Nat) :
    wsDigestFieldFrom key osz fuel s = (wsDigestFieldFrom key (n + 1) fuel s).map (·.take (osz - 1)) := by
  induction fuel generalizing s with
  | zero => rfl
  | succ fuel ih =>
    have hdrop := (List.dropWhile_suffix wsFieldSep (l := s)).length_le
    have hle : (s.dropWhile wsFieldSep).length ≤ n := Nat.le_trans hdrop hn
    rw [wsDigestFieldFrom, wsDigestFieldFrom]
    by_cases hempty : s.dropWhile wsFieldSep = []
    · rw [if_pos hempty, if_pos hempty]
      rfl
    rw [if_neg hempty, if_neg hempty]
    by_cases hkey : (wsPrefixCi (s.dropWhile wsFieldSep) key && (s.dropWhile wsFieldSep).getD key.length 0 == 0x3D) = true
    · rw [if_pos hkey, if_pos hkey, Option.map_some, wsFieldValue_cut _ osz]
      rw [List.length_drop]
      omega
    · rw [if_neg hkey, if_neg hkey]
      exact ih (Nat.le_trans (length_wsSkipPair_le false _) hle)

theorem wsDigestField_cut (fields key : Str) (osz : Nat) :
    wsDigestField fields key osz = (digestText fields key).map (·.take (osz - 1)) :=
  wsDigestFieldFrom_cut key _ (Nat.le_refl _) osz

theorem authorization_cut (req : AuthRequest) : authorization req = (authorizationText req).map (·.take 639) :=
  wsFindHeaderFrom_cut authorizationName false (Nat.le_refl _) 640

/-! ### The hash -/

def fieldOr (fields key : Str) : Str := (digestText fields key).getD []

def responseOver (cfg : WebdavConfig) (method uri nonce qop nc cnonce : Str) : Str :=
  if qop = [] then wsDigestComputeResponseLegacy (wsDigestComputeHa1 cfg) nonce (wsDigestComputeHa2 method uri)
  else wsDigestComputeResponse (wsDigestComputeHa1 cfg) nonce nc cnonce qop (wsDigestComputeHa2 method uri)

def usernameKey : Str := lit ['u', 's', 'e', 'r', 'n', 'a', 'm', 'e']
def realmKey : Str := lit ['r', 'e', 'a', 'l', 'm']
def nonceKey : Str := lit ['n', 'o', 'n', 'c', 'e']
def uriKey : Str := lit ['u', 'r', 'i']
def responseKey : Str := lit ['r', 'e', 's', 'p', 'o', 'n', 's', 'e']
def qopKey : Str := lit ['q', 'o', 'p']
def ncKey : Str := lit ['n', 'c']
def cnonceKey : Str := lit ['c', 'n', 'o', 'n', 'c', 'e']

def digestBuffers : List (Str × Nat) :=
  [(usernameKey, 64), (realmKey, 64), (nonceKey, 32), (uriKey, 511), (responseKey, 32), (qopKey, 15), (ncKey, 15),
    (cnonceKey, 63)]

/-- What was compared when a header with these fields is accepted, each field being read as `read` says. -/
structure Compared (cfg : WebdavConfig) (method : Str) (nonceInUse : Str) (fields : Str) (read : Str → Str) : Prop where
  present : ∀ key ∈ [usernameKey, nonceKey, uriKey, responseKey], (digestText fields key).isSome
  presentQop : read qopKey ≠ [] → ∀ key ∈ [ncKey, cnonceKey], (digestText fields key).isSome
  username : read usernameKey = cfg.user
  realm : (digestText fields realmKey).isSome → read realmKey = cfg.realm
  nonce : read nonceKey = nonceInUse
  response : wsHexEqCi
    (responseOver cfg method (read uriKey) (read nonceKey) (read qopKey) (read ncKey) (read cnonceKey))
    (read responseKey) = true

def cutField (fields key : Str) : Str := (fieldOr fields key).take ((digestBuffers.lookup key).getD 0)

theorem wsDigestField_some {fields key v : Str} {osz : Nat} (h : wsDigestField fields key osz = some v) :
    (digestText fields key).isSome ∧ v = (fieldOr fields key).take (osz - 1) := by
  rw [wsDigestField_cut] at h
  obtain ⟨text, htext, rfl⟩ := Option.map_eq_some_iff.mp h
  unfold fieldOr
  rw [htext]
  exact ⟨rfl, rfl⟩

theorem wsDigestField_or (fields key : Str) (osz : Nat) :
    (wsDigestField fields key osz).getD [] = (fieldOr fields key).take (osz - 1) := by
  rw [wsDigestField_cut]
  unfold fieldOr
  cases digestText fields key with
  | none => exact List.take_nil.symm
  | some text => rfl

theorem wsDigestExpected_some {cfg : WebdavConfig} {req : AuthRequest} {fields uri nonce expected : Str}
    (h : wsDigestExpected cfg req fields uri nonce = some expected) :
    (cutField fields qopKey ≠ [] → ∀ key ∈ [ncKey, cnonceKey], (digestText fields key).isSome) ∧
      expected = responseOver cfg req.method uri nonce (cutField fields qopKey) (cutField fields ncKey)
        (cutField fields cnonceKey) := by
  unfold wsDigestExpected at h
  have hqop : (wsDigestField fields (lit ['q', 'o', 'p']) 16).getD [] = cutField fields qopKey :=
    wsDigestField_or fields qopKey 16
  simp only [hqop] at h
  unfold responseOver
  by_cases hlegacy : cutField fields qopKey = []
  · rw [if_pos hlegacy] at h
    rw [if_pos hlegacy]
    exact ⟨fun hne => absurd hlegacy hne, (Option.some.inj h).symm⟩
  · rw [if_neg hlegacy] at h
    rw [if_neg hlegacy]
    split at h
    · rename_i nc cnonce hnc hcnonce
      obtain ⟨hncThere, hncCut⟩ := wsDigestField_some hnc
      obtain ⟨hcnonceThere, hcnonceCut⟩ := wsDigestField_some hcnonce
      refine ⟨fun _ => ?_, ?_⟩
      · simp only [List.forall_mem_cons, List.not_mem_nil, false_imp_iff, implies_true, and_true]
        exact ⟨hncThere, hcnonceThere⟩
      · rw [← Option.some.inj h, hncCut, hcnonceCut]
        rfl
    · cases h

theorem goodNonce_compared {cfg : WebdavConfig} {req : AuthRequest} {nonce : Str}
    (h : wsDigestGoodNonce cfg req = some nonce) : ∃ authz, authorization req = some authz ∧
      Compared cfg req.method nonce (digestFields authz) (cutField (digestFields authz)) ∧
      wsDigestUriMatches (cutField (digestFields authz) uriKey) req.path req.query = true := by
  unfold wsDigestGoodNonce at h
  obtain ⟨authz, hauthz, h⟩ := Option.bind_eq_some_iff.mp h
  refine ⟨authz, hauthz, ?_⟩
  obtain ⟨-, h⟩ := Option.ite_none_left_eq_some.mp h
  obtain ⟨username, husername, h⟩ := Option.bind_eq_some_iff.mp h
  obtain ⟨nonce', hnonce, h⟩ := Option.bind_eq_some_iff.mp h
  obtain ⟨uri, huri, h⟩ := Option.bind_eq_some_iff.mp h
  obtain ⟨response, hresponse, h⟩ := Option.bind_eq_some_iff.mp h
  obtain ⟨hrealm, h⟩ := Option.ite_none_left_eq_some.mp h
  obtain ⟨huser, h⟩ := Option.ite_none_left_eq_some.mp h
  obtain ⟨hmatch, h⟩ := Option.ite_none_left_eq_some.mp h
  obtain ⟨expected, hexpected, h⟩ := Option.bind_eq_some_iff.mp h
  split at h
  · rename_i hequal
    cases h
    obtain ⟨husernameThere, husernameCut⟩ := wsDigestField_some husername
    obtain ⟨hnonceThere, hnonceCut⟩ := wsDigestField_some hnonce
    obtain ⟨huriThere, huriCut⟩ := wsDigestField_some huri
    obtain ⟨hresponseThere, hresponseCut⟩ := wsDigestField_some hresponse
    obtain ⟨hqop, hexpectedCut⟩ := wsDigestExpected_some hexpected
    refine ⟨?_, ?_⟩
    · constructor
      · simp only [List.forall_mem_cons, List.not_mem_nil, false_imp_iff, implies_true, and_true]
        exact ⟨husernameThere, hnonceThere, huriThere, hresponseThere⟩
      · exact hqop
      · exact husernameCut.symm.trans (not_not.mp huser)
      · intro hthere
        obtain ⟨text, htext⟩ := Option.isSome_iff_exists.mp hthere
        have hread : wsDigestField ((authz.drop 7).dropWhile wsBlank) (lit ['r', 'e', 'a', 'l', 'm']) 65 =
            some (text.take 64) := by
          rw [wsDigestField_cut]
          exact congrArg (Option.map (·.take 64)) htext
        rw [hread, Option.any_some, decide_eq_true_eq] at hrealm
        have hcut : cutField (digestFields authz) realmKey = text.take 64 := by
          unfold cutField fieldOr
          rw [htext]
          rfl
        rw [hcut]
        exact not_not.mp hrealm
      · exact hnonceCut.symm
      · rw [hexpectedCut, huriCut, hnonceCut, hresponseCut] at hequal
        exact hequal
    · rw [huriCut] at hmatch
      exact Bool.not_eq_false _ ▸ hmatch
  · cases h

def Fits (fields : Str) : Prop := ∀ entry ∈ digestBuffers, (fieldOr fields entry.1).length ≤ entry.2

theorem cutField_of_fits {fields : Str} (h : Fits fields) {entry : Str × Nat} (hentry : entry ∈ digestBuffers) :
    cutField fields entry.1 = fieldOr fields entry.1 := by
  have hsizes : ∀ entry ∈ digestBuffers, (digestBuffers.lookup entry.1).getD 0 = entry.2 := by decide
  unfold cutField
  rw [hsizes entry hentry]
  exact List.take_of_length_le (h entry hentry)

theorem Compared.congr {cfg : WebdavConfig} {method nonceInUse fields : Str} {read read' : Str → Str}
    (h : Compared cfg method nonceInUse fields read) (hread : ∀ entry ∈ digestBuffers, read entry.1 = read' entry.1) :
    Compared cfg method nonceInUse fields read' := by
  unfold digestBuffers at hread
  simp only [List.forall_mem_cons, List.not_mem_nil, false_imp_iff, implies_true, and_true] at hread
  obtain ⟨husername, hrealm, hnonce, huri, hresponse, hqop, hnc, hcnonce⟩ := hread
  constructor
  · exact h.present
  · rw [← hqop]
    exact h.presentQop
  · rw [← husername]
    exact h.username
  · rw [← hrealm]
    exact h.realm
  · rw [← hnonce]
    exact h.nonce
  · rw [← huri, ← hnonce, ← hqop, ← hnc, ← hcnonce, ← hresponse]
    exact h.response

/-- A digest binds to one target: two requests with the same `Authorization` header that are both accepted have the same
path.  And what is compared when a header is accepted is the hash over its fields, each cut to its buffer, in the value
cut to its own; where all of it fits, over exactly the text of the header. -/
theorem digest_binds (cfg : WebdavConfig) (g : Digest) :
    (∀ now₁ now₂ req₁ req₂, authorization req₁ = authorization req₂ → 0x3F ∉ req₁.path → 0x3F ∉ req₂.path →
        wsDigestVerify cfg now₁ g req₁ = .ok → wsDigestVerify cfg now₂ g req₂ = .ok → req₁.path = req₂.path) ∧
      ∀ now req, wsDigestVerify cfg now g req = .ok → ∃ text, authorizationText req = some text ∧
        Compared cfg req.method g.nonce (digestFields (text.take 639)) (cutField (digestFields (text.take 639))) ∧
        (text.length ≤ 639 → Fits (digestFields text) →
          Compared cfg req.method g.nonce (digestFields text) (fieldOr (digestFields text))) := by
  refine ⟨?_, ?_⟩
  · intro now₁ now₂ req₁ req₂ hsame hpath₁ hpath₂ hok₁ hok₂
    obtain ⟨authz₁, hauthz₁, -, hmatch₁⟩ := goodNonce_compared (wsDigestVerify_ok hok₁).1
    obtain ⟨authz₂, hauthz₂, -, hmatch₂⟩ := goodNonce_compared (wsDigestVerify_ok hok₂).1
    rw [hsame, hauthz₂] at hauthz₁
    cases hauthz₁
    rw [path_of_uriMatches hmatch₁ hpath₁, path_of_uriMatches hmatch₂ hpath₂]
  · intro now req hok
    obtain ⟨authz, hauthz, hcompared, -⟩ := goodNonce_compared (wsDigestVerify_ok hok).1
    rw [authorization_cut] at hauthz
    obtain ⟨text, htext, rfl⟩ := Option.map_eq_some_iff.mp hauthz
    refine ⟨text, htext, hcompared, ?_⟩
    intro hlength hfits
    rw [List.take_of_length_le hlength] at hcompared
    exact hcompared.congr fun entry hentry => cutField_of_fits hfits hentry

/-- The same credentials in a header with another line. -/
def longerRequest : AuthRequest := requestWith exampleNonce (lit ['\n', 'A', ':'])

/-- The example's header is good for `/`, with another line too, and all of it fits. -/
theorem digest_binds_root :
    exampleRequest.path = longerRequest.path ∧ ∃ text, authorizationText exampleRequest = some text ∧
      Compared exampleConfig exampleRequest.method exampleNonce (digestFields text) (fieldOr (digestFields text)) := by
  have hok : wsDigestVerify exampleConfig 0 (wsDigestRefreshNonce 0 7 {}) exampleRequest = .ok := by decide +kernel
  have hlonger : wsDigestVerify exampleConfig 1000 (wsDigestRefreshNonce 0 7 {}) longerRequest = .ok := by
    decide +kernel
  obtain ⟨hbinds, hcompares⟩ := digest_binds exampleConfig (wsDigestRefreshNonce 0 7 {})
  refine ⟨hbinds 0 1000 exampleRequest longerRequest (by decide +kernel) (by decide) (by decide) hok hlonger, ?_⟩
  obtain ⟨text, htext, -, hwhole⟩ := hcompares 0 exampleRequest hok
  have hsizes : (authorizationText exampleRequest).map (fun text => decide (text.length ≤ 639) &&
      digestBuffers.all fun entry => decide ((fieldOr (digestFields text) entry.1).length ≤ entry.2)) = some true := by
    decide +kernel
  rw [htext, Option.map_some, Option.some.injEq, Bool.and_eq_true, decide_eq_true_eq, List.all_eq_true] at hsizes
  have hfits : Fits (digestFields text) := fun entry hentry => of_decide_eq_true (hsizes.2 entry hentry)
  exact ⟨text, htext, hwhole hsizes.1 hfits⟩

/-- A nonce of 33 characters, the first 32 of which are the one issued. -/
def longNonceRequest : AuthRequest := requestWith (exampleNonce ++ [0x30]) []

/-- It is accepted, and the hash was not computed over the nonce in its header. -/
theorem long_nonce_accepted :
    wsDigestVerify exampleConfig 0 (wsDigestRefreshNonce 0 7 {}) longNonceRequest = .ok ∧
      ∃ text, authorizationText longNonceRequest = some text ∧
        digestText (digestFields text) nonceKey = some (exampleNonce ++ [0x30]) ∧
        ¬ Compared exampleConfig longNonceRequest.method exampleNonce (digestFields text)
          (fieldOr (digestFields text)) := by
  have hread : ((authorizationText longNonceRequest).map fun text => digestText (digestFields text) nonceKey) =
      some (some (exampleNonce ++ [0x30])) := by decide +kernel
  obtain ⟨text, htext, hfield⟩ := Option.map_eq_some_iff.mp hread
  refine ⟨by decide +kernel, text, htext, hfield, ?_⟩
  intro hcompared
  have hnonce := hcompared.nonce
  unfold fieldOr at hnonce
  rw [hfield] at hnonce
  exact absurd (List.append_right_eq_self.mp hnonce) (List.cons_ne_nil _ _)

end Pi1MHz.Ws
