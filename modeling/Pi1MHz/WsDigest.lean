import Pi1MHz.History
import Pi1MHz.WrapClock
import Pi1MHz.WsMd5

/-!
# The web server: digest authentication

The rolling nonce and `ws_digest_verify`.  A nonce is good for five minutes after it was issued,
and a new one is made when a challenge is built and the old one has run out; both tests subtract
32-bit microsecond times.
-/

namespace Pi1MHz.Ws

def WS_NONCE_MAX_AGE_US : UInt32 := 5 * 60 * 1000000

def MD5_HEX_LEN : Nat := 32

/-- `g_ws_nonce` and its companions; an empty nonce is none. -/
structure Digest where
  nonce : Str := []
  issuedUs : UInt32 := 0
  counter : UInt32 := 0
  secret : UInt32 := 0
  secretInitialised : Bool := false

/-- The secret is set up on first use; `seed` is what `ws_seed_secret` mixes. -/
def wsDigestSecret (g : Digest) (seed : UInt32) : Digest :=
  if g.secretInitialised then g else { g with secret := seed, secretInitialised := true }

def wsNonceYoung (g : Digest) (now : UInt32) : Bool :=
  g.nonce ≠ [] && now - g.issuedUs < WS_NONCE_MAX_AGE_US

def wsDigestRefreshNonce (now seed : UInt32) (g : Digest) : Digest :=
  let g := wsDigestSecret g seed
  if wsNonceYoung g now then g
  else
    let counter := g.counter + 1
    { g with
      counter := counter
      nonce := md5HexCat [md5StoreLe32 now, md5StoreLe32 g.secret, md5StoreLe32 counter]
      issuedUs := now }

def wsDigestNonceCurrent (now : UInt32) (g : Digest) (nonce : Str) : Bool :=
  decide (nonce = g.nonce) && wsNonceYoung g now

/-! ### The Authorization header -/

def wsFieldSep (c : UInt8) : Bool := c == 0x20 || c == 0x09 || c == 0x2C

/-- Step over a `key=value` pair; `quoted` says that a quote is open. -/
def wsSkipPair : Bool → Str → Str
  | _, [] => []
  | false, c :: rest => if c = 0x2C then c :: rest else wsSkipPair (c == 0x22) rest
  | true, c :: rest => wsSkipPair (c != 0x22) rest

/-- The value after `key=`, in a buffer of `osz` bytes. -/
def wsFieldValue (osz : Nat) : Str → Str
  | [] => []
  | c :: rest =>
      if c = 0x22 then (rest.takeWhile (· ≠ 0x22)).take (osz - 1)
      else ((c :: rest).takeWhile fun c => !wsFieldSep c).take (osz - 1)

/-- `ws_digest_field`, pair by pair. -/
def wsDigestFieldFrom (key : Str) (osz : Nat) : Nat → Str → Option Str
  | 0, _ => none
  | fuel + 1, hdr =>
      let p := hdr.dropWhile wsFieldSep
      if p = [] then none
      else if wsPrefixCi p key && p.getD key.length 0 == 0x3D then
        some (wsFieldValue osz (p.drop (key.length + 1)))
      else wsDigestFieldFrom key osz fuel (wsSkipPair false p)

def wsDigestField (hdr key : Str) (osz : Nat) : Option Str :=
  wsDigestFieldFrom key osz (hdr.length + 1) hdr

/-- The text after the first `://`. -/
def wsAfterScheme : Str → Option Str
  | [] => none
  | c :: rest =>
      if (c :: rest).take 3 = [0x3A, 0x2F, 0x2F] then some (rest.drop 2) else wsAfterScheme rest

def wsAbsPath (uri : Str) : Str :=
  match wsAfterScheme uri with
  | none => uri
  | some rest =>
      let path := rest.dropWhile (· ≠ 0x2F)
      if path = [] then [0x2F] else path

def wsDigestUriMatches (uri path : Str) (query : Option Str) : Bool :=
  let uri := wsAbsPath uri
  if path.isPrefixOf uri = false then false
  else
    match uri.drop path.length, query with
    | [], _ => true
    | c :: rest, some q => c == 0x3F && decide (rest = q)
    | _ :: _, none => false

structure WebdavConfig where
  user : Str
  realm : Str
  password : Str

def wsDigestComputeHa1 (cfg : WebdavConfig) : Str :=
  md5HexCat [cfg.user, [0x3A], cfg.realm, [0x3A], cfg.password]

def wsDigestComputeHa2 (method uri : Str) : Str := md5HexCat [method, [0x3A], uri]

def wsDigestComputeResponse (ha1 nonce nc cnonce qop ha2 : Str) : Str :=
  md5HexCat [ha1, [0x3A], nonce, [0x3A], nc, [0x3A], cnonce, [0x3A], qop, [0x3A], ha2]

def wsDigestComputeResponseLegacy (ha1 nonce ha2 : Str) : Str :=
  md5HexCat [ha1, [0x3A], nonce, [0x3A], ha2]

def wsHexEqCi (expected received : Str) : Bool :=
  decide (received.length = MD5_HEX_LEN) && decide (expected.map wsLc = received.map wsLc)

inductive WsAuth where
  | ok | required | stale
deriving DecidableEq, Repr

/-- What `ws_digest_verify` looks at of a request. -/
structure AuthRequest where
  method : Str
  path : Str
  query : Option Str
  /-- The bytes `header_block[0..header_limit)`. -/
  header : List UInt8

def wsDigestExpected (cfg : WebdavConfig) (req : AuthRequest) (fields uri nonce : Str) :
    Option Str :=
  let ha1 := wsDigestComputeHa1 cfg
  let ha2 := wsDigestComputeHa2 req.method uri
  let qop := (wsDigestField fields (lit ['q', 'o', 'p']) 16).getD []
  if qop = [] then some (wsDigestComputeResponseLegacy ha1 nonce ha2)
  else
    match wsDigestField fields (lit ['n', 'c']) 16,
      wsDigestField fields (lit ['c', 'n', 'o', 'n', 'c', 'e']) 64 with
    | some nc, some cnonce => some (wsDigestComputeResponse ha1 nonce nc cnonce qop ha2)
    | _, _ => none

def wsDigestGoodNonce (cfg : WebdavConfig) (req : AuthRequest) : Option Str :=
  (wsFindHeader req.header (lit ['A', 'u', 't', 'h', 'o', 'r', 'i', 'z', 'a', 't', 'i', 'o', 'n'])
    640).bind fun authz =>
  if wsPrefixCi authz (lit ['D', 'i', 'g', 'e', 's', 't', ' ']) = false then none
  else
    let fields := (authz.drop 7).dropWhile wsBlank
    (wsDigestField fields (lit ['u', 's', 'e', 'r', 'n', 'a', 'm', 'e']) 65).bind fun username =>
    (wsDigestField fields (lit ['n', 'o', 'n', 'c', 'e']) (MD5_HEX_LEN + 1)).bind fun nonce =>
    (wsDigestField fields (lit ['u', 'r', 'i']) WS_PATH_MAX).bind fun uri =>
    (wsDigestField fields (lit ['r', 'e', 's', 'p', 'o', 'n', 's', 'e']) (MD5_HEX_LEN + 1)).bind
      fun response =>
    if (wsDigestField fields (lit ['r', 'e', 'a', 'l', 'm']) 65).any (· ≠ cfg.realm) then none
    else if username ≠ cfg.user then none
    else if wsDigestUriMatches uri req.path req.query = false then none
    else
      (wsDigestExpected cfg req fields uri nonce).bind fun expected =>
      if wsHexEqCi expected response then some nonce else none

def wsDigestVerify (cfg : WebdavConfig) (now : UInt32) (g : Digest) (req : AuthRequest) : WsAuth :=
  match wsDigestGoodNonce cfg req with
  | none => .required
  | some nonce => if wsDigestNonceCurrent now g nonce then .ok else .stale

/-! ### Runs in real time -/

/-- The server's digest state, with the real time in microseconds and a record of the nonces
issued and when. -/
structure DigestRun where
  g : Digest := {}
  now : Nat := 0
  issued : List (Str × Nat) := []

/-- `dt` microseconds pass, then a challenge is built or a request is checked. -/
inductive DigestEvent where
  | challenge (dt : Nat) (seed : UInt32)
  | verify (dt : Nat) (req : AuthRequest)

def DigestRun.step (r : DigestRun) : DigestEvent → DigestRun
  | .challenge dt seed =>
      let now := r.now + dt
      let g := wsDigestRefreshNonce (UInt32.ofNat now) seed r.g
      { g := g
        now := now
        issued := if g.counter = r.g.counter then r.issued else r.issued ++ [(g.nonce, now)] }
  | .verify dt _ => { r with now := r.now + dt }

def DigestRun.age (r : DigestRun) (now : Nat) : Nat := now - (r.issued.getLast?.elim 0 Prod.snd)

/-- No request is checked within the lifetime of a nonce after the clock has come round since it
was issued. -/
def Unwrapped (r : DigestRun) : DigestEvent → Prop
  | .verify dt _ =>
      2 ^ 32 ≤ r.age (r.now + dt) → WS_NONCE_MAX_AGE_US.toNat ≤ r.age (r.now + dt) % 2 ^ 32
  | .challenge .. => True

instance (r : DigestRun) (e : DigestEvent) : Decidable (Unwrapped r e) :=
  match e with
  | .verify .. => inferInstanceAs (Decidable (_ → _))
  | .challenge .. => isTrue trivial

structure DigestRun.Inv (r : DigestRun) : Prop where
  issued : r.g.nonce ≠ [] → ∃ t, r.issued.getLast? = some (r.g.nonce, t) ∧
    r.g.issuedUs = UInt32.ofNat t ∧ t ≤ r.now

theorem succ_ne_self (c : UInt32) : c + 1 ≠ c := by
  intro h
  have hone : (1 : UInt32) = 0 := by
    calc (1 : UInt32) = c + 1 - c := by rw [UInt32.add_comm, UInt32.add_sub_cancel]
      _ = 0 := by rw [h, UInt32.sub_self]
  cases hone

theorem wsDigestRefreshNonce_cases (now seed : UInt32) (g : Digest) :
    ((wsDigestRefreshNonce now seed g).counter = g.counter ∧
        (wsDigestRefreshNonce now seed g).nonce = g.nonce ∧
        (wsDigestRefreshNonce now seed g).issuedUs = g.issuedUs) ∨
      ((wsDigestRefreshNonce now seed g).counter ≠ g.counter ∧
        (wsDigestRefreshNonce now seed g).issuedUs = now) := by
  have hsecret : (wsDigestSecret g seed).counter = g.counter ∧
      (wsDigestSecret g seed).nonce = g.nonce ∧ (wsDigestSecret g seed).issuedUs = g.issuedUs := by
    unfold wsDigestSecret
    split
    · exact ⟨rfl, rfl, rfl⟩
    · exact ⟨rfl, rfl, rfl⟩
  simp only [wsDigestRefreshNonce]
  split
  · exact .inl hsecret
  · refine .inr ⟨?_, rfl⟩
    rw [hsecret.1]
    exact succ_ne_self g.counter

theorem DigestRun.step_inv {r : DigestRun} (h : r.Inv) (e : DigestEvent) : (r.step e).Inv := by
  cases e with
  | verify dt req =>
    refine ⟨fun hn => ?_⟩
    obtain ⟨t, hlast, hus, hle⟩ := h.issued hn
    exact ⟨t, hlast, hus, Nat.le_trans hle (Nat.le_add_right _ _)⟩
  | challenge dt seed =>
    refine ⟨fun hn => ?_⟩
    simp only [DigestRun.step] at hn ⊢
    rcases wsDigestRefreshNonce_cases (UInt32.ofNat (r.now + dt)) seed r.g with
      ⟨hcounter, hnonce, hus⟩ | ⟨hcounter, hus⟩
    · rw [if_pos hcounter, hnonce, hus]
      rw [hnonce] at hn
      obtain ⟨t, hlast, hstamp, hle⟩ := h.issued hn
      exact ⟨t, hlast, hstamp, Nat.le_trans hle (Nat.le_add_right _ _)⟩
    · rw [if_neg hcounter, hus]
      exact ⟨r.now + dt, List.getLast?_concat, rfl, le_rfl⟩

theorem wsDigestVerify_ok {cfg : WebdavConfig} {now : UInt32} {g : Digest} {req : AuthRequest}
    (h : wsDigestVerify cfg now g req = .ok) :
    wsDigestGoodNonce cfg req = some g.nonce ∧ g.nonce ≠ [] ∧
      now - g.issuedUs < WS_NONCE_MAX_AGE_US := by
  unfold wsDigestVerify at h
  split at h
  · cases h
  · next nonce hnonce =>
    split at h
    · next hcurrent =>
      simp only [wsDigestNonceCurrent, wsNonceYoung, Bool.and_eq_true, decide_eq_true_eq]
        at hcurrent
      obtain ⟨rfl, hne, hyoung⟩ := hcurrent
      exact ⟨hnonce, hne, hyoung⟩
    · cases h

/-- In every run in which no request is checked just after the clock has come round, a request is
let in only with a nonce issued less than the maximal age before, in real time. -/
theorem digest_nonce_expires (cfg : WebdavConfig) (ops : List DigestEvent)
    (hclock : ∀ st ∈ History.history DigestRun.step {} ops, Unwrapped st.pre st.op) :
    ∀ st ∈ History.history DigestRun.step {} ops, ∀ dt req, st.op = .verify dt req →
      wsDigestVerify cfg (UInt32.ofNat (st.pre.now + dt)) st.pre.g req = .ok →
      ∃ nonce t, wsDigestGoodNonce cfg req = some nonce ∧ (nonce, t) ∈ st.pre.issued ∧
        t ≤ st.pre.now + dt ∧ st.pre.now + dt - t < WS_NONCE_MAX_AGE_US.toNat := by
  intro st hst dt req hop hok
  have hinv : st.pre.Inv :=
    ((History.guarded_induction DigestRun.step DigestRun.Inv (fun _ _ => True)
      ⟨fun hn => absurd rfl hn⟩
      (fun r e h _ => DigestRun.step_inv h e) ops (fun _ _ => trivial)).2 st hst).1
  obtain ⟨hnonce, hne, hyoung⟩ := wsDigestVerify_ok hok
  obtain ⟨t, hlast, hus, hle⟩ := hinv.issued hne
  have hle : t ≤ st.pre.now + dt := Nat.le_trans hle (Nat.le_add_right _ _)
  refine ⟨st.pre.g.nonce, t, hnonce, List.mem_of_getLast? hlast, hle, ?_⟩
  rw [hus, UInt32.lt_iff_toNat_lt, WrapClock.age_eq hle] at hyoung
  have hunwrapped := hclock st hst
  rw [hop] at hunwrapped
  have hage : st.pre.age (st.pre.now + dt) = st.pre.now + dt - t := by
    rw [DigestRun.age, hlast]
    rfl
  simp only [Unwrapped, hage] at hunwrapped
  by_cases hwrap : 2 ^ 32 ≤ st.pre.now + dt - t
  · exact absurd hyoung (not_lt.mpr (hunwrapped hwrap))
  · rwa [Nat.mod_eq_of_lt (not_le.mp hwrap)] at hyoung

def exampleConfig : WebdavConfig := ⟨[0x75], [0x72], [0x70]⟩

def exampleNonce : Str := (wsDigestRefreshNonce 0 7 {}).nonce

/-- A GET of `/` whose header gives `nonce` and ends in `more`, with the response for the example's nonce. -/
def requestWith (nonce more : Str) : AuthRequest where
  method := lit ['G', 'E', 'T']
  path := [0x2F]
  query := none
  header :=
    lit ['G', 'E', 'T', ' ', '/', '\n', 'A', 'u', 't', 'h', 'o', 'r', 'i', 'z', 'a', 't', 'i', 'o', 'n',
      ':', ' ', 'D', 'i', 'g', 'e', 's', 't', ' ', 'u', 's', 'e', 'r', 'n', 'a', 'm', 'e', '=', 'u', ',',
      'u', 'r', 'i', '=', '/', ',', 'n', 'o', 'n', 'c', 'e', '=']
      ++ nonce ++ lit [',', 'r', 'e', 's', 'p', 'o', 'n', 's', 'e', '=']
      ++ wsDigestComputeResponseLegacy (wsDigestComputeHa1 exampleConfig) exampleNonce
        (wsDigestComputeHa2 (lit ['G', 'E', 'T']) [0x2F])
      ++ more ++ lit ['\n', '\n']

def exampleRequest : AuthRequest := requestWith exampleNonce []

theorem digest_nonce_expires_at_once :
    ∃ nonce t, wsDigestGoodNonce exampleConfig exampleRequest = some nonce ∧
      (nonce, t) ∈ (DigestRun.step {} (.challenge 0 7)).issued ∧ t ≤ 1000000 ∧
      1000000 - t < WS_NONCE_MAX_AGE_US.toNat :=
  digest_nonce_expires exampleConfig [.challenge 0 7, .verify 1000000 exampleRequest]
    (by decide +kernel) ⟨DigestRun.step {} (.challenge 0 7), .verify 1000000 exampleRequest, _⟩
    (List.mem_cons_of_mem _ (List.mem_cons_self ..)) 1000000 exampleRequest rfl (by decide +kernel)

/-- A header captured at boot is let in again when the clock has come round. -/
theorem nonce_valid_after_wrap :
    let r := History.final DigestRun.step {} [.challenge 0 7]
    r.issued = [(exampleNonce, 0)] ∧
      wsDigestVerify exampleConfig (UInt32.ofNat (2 ^ 32 - 1)) r.g exampleRequest = .stale ∧
      wsDigestVerify exampleConfig (UInt32.ofNat (2 ^ 32 + 1)) r.g exampleRequest = .ok := by
  decide +kernel

end Pi1MHz.Ws
