import Mathlib.Data.Bool.AllAny
import Mathlib.Data.List.Nodup
import Mathlib.Data.List.TakeWhile
import Mathlib.Tactic.Common
import Pi1MHz.NetUrl

/-!
# The grammar of URLs

What `net_url_parse` accepts, as a grammar: a scheme in any case of its letters, a host, a port where the scheme
has none of its own, and a path.  The parser takes the first `://` of the text and lets each part end where the
next begins, so a text has its parts in one way only.
-/

namespace Pi1MHz.Net

def EitherCase (c lit : UInt8) : Prop := c = lit ∨ c = lit + 0x20

def urlSchemes : List (List UInt8 × UrlAdapter × UInt16) :=
  [(chars ['H', 'T', 'T', 'P'], .http, 80), (chars ['T', 'C', 'P'], .tcp, 0), (chars ['U', 'D', 'P'], .udp, 0),
    (chars ['T', 'N', 'F', 'S'], .tnfs, TNFS_PORT), (chars ['T', 'E', 'L', 'N', 'E', 'T'], .telnet, TELNET_PORT)]

structure UrlText where
  scheme : List UInt8
  host : List UInt8
  port : Option (List UInt8)
  path : Option (List UInt8)

def colonSlashes : List UInt8 := [0x3A, 0x2F, 0x2F]

def UrlText.tail (u : UrlText) : List UInt8 := u.port.elim [] (0x3A :: ·) ++ u.path.getD []

def UrlText.bytes (u : UrlText) : List UInt8 := u.scheme ++ (colonSlashes ++ (u.host ++ u.tail))

def decimalFrom (n : Nat) (digits : List UInt8) : Nat := digits.foldl (fun n d => n * 10 + (d.toNat - 0x30)) n

def UrlText.fullPath (u : UrlText) : List UInt8 := u.path.getD [0x2F]

structure UrlText.Good (hostSz pathSz : Nat) (u : UrlText) (adapter : UrlAdapter) (port : UInt16) : Prop where
  scheme : ∃ name dflt, (name, adapter, dflt) ∈ urlSchemes ∧ List.Forall₂ EitherCase u.scheme name ∧
    (u.port = none → port = dflt)
  hostRoom : u.host ≠ [] ∧ u.host.length < hostSz
  host : ∀ c ∈ u.host, c ≠ 0x3A ∧ c ≠ 0x2F ∧ isControl c = false
  digits : ∀ digits, u.port = some digits → (∀ d ∈ digits, isDigit d = true) ∧ decimalFrom 0 digits = port.toNat
  portGiven : port ≠ 0
  pathText : ∀ p, u.path = some p → p.head? = some 0x2F ∧ ∀ c ∈ p, isControl c = false
  pathRoom : u.fullPath.length < pathSz

/-! ### The scheme -/

theorem splitScheme_sound {s scheme rest : List UInt8} (h : splitScheme s = some (scheme, rest)) :
    s = scheme ++ (colonSlashes ++ rest) := by
  induction s generalizing scheme with
  | nil => cases h
  | cons c s ih =>
    unfold splitScheme at h
    by_cases hsep : c = 0x3A ∧ s.take 2 = [0x2F, 0x2F]
    · rw [if_pos hsep] at h
      cases h
      rw [List.nil_append, hsep.1]
      have htake := List.take_append_drop 2 s
      rw [hsep.2] at htake
      exact congrArg _ htake.symm
    · rw [if_neg hsep] at h
      obtain ⟨p, hp, heq⟩ := Option.map_eq_some_iff.mp h
      cases heq
      rw [ih hp]
      rfl

theorem splitScheme_complete {scheme : List UInt8} (hcolon : ∀ c ∈ scheme, c ≠ 0x3A) (rest : List UInt8) :
    splitScheme (scheme ++ (colonSlashes ++ rest)) = some (scheme, rest) := by
  induction scheme with
  | nil => rfl
  | cons c scheme ih =>
    have hc : c ≠ 0x3A := hcolon c List.mem_cons_self
    rw [List.cons_append, splitScheme, if_neg fun hsep => hc hsep.1,
      ih fun d hd => hcolon d (List.mem_cons_of_mem c hd)]
    rfl

theorem upper_eq_iff {c lit : UInt8} (hlit : 0x41 ≤ lit ∧ lit ≤ 0x5A) : upper c = lit ↔ EitherCase c lit := by
  unfold upper EitherCase
  constructor
  · intro h
    split at h
    · exact .inr (by rw [← h, UInt8.sub_add_cancel])
    · exact .inl h
  · rintro (rfl | rfl)
    · have hcap : ¬ (0x61 ≤ c ∧ c ≤ 0x7A) := by
        rintro ⟨hlow, -⟩
        exact absurd (UInt8.le_trans hlow hlit.2) (by decide)
      exact if_neg hcap
    · have hlow : 0x61 ≤ lit + 0x20 ∧ lit + 0x20 ≤ 0x7A := by
        simp only [UInt8.le_iff_toNat_le, UInt8.toNat_add] at hlit ⊢
        have h1 : (0x41 : UInt8).toNat = 0x41 := rfl
        have h2 : (0x5A : UInt8).toNat = 0x5A := rfl
        have h3 : (0x61 : UInt8).toNat = 0x61 := rfl
        have h4 : (0x7A : UInt8).toNat = 0x7A := rfl
        have h5 : (0x20 : UInt8).toNat = 0x20 := rfl
        omega
      rw [if_pos hlow]
      exact UInt8.add_sub_cancel lit 0x20

theorem netCiEq_iff {lit : List UInt8} (hlit : ∀ c ∈ lit, 0x41 ≤ c ∧ c ≤ 0x5A) (s : List UInt8) :
    netCiEq s lit = true ↔ List.Forall₂ EitherCase s lit := by
  unfold netCiEq
  rw [beq_iff_eq]
  induction s generalizing lit with
  | nil =>
    cases lit with
    | nil => exact iff_of_true rfl .nil
    | cons d lit => exact iff_of_false nofun nofun
  | cons c s ih =>
    cases lit with
    | nil => exact iff_of_false nofun nofun
    | cons d lit =>
      rw [List.map_cons, List.cons.injEq, List.forall₂_cons, upper_eq_iff (hlit d List.mem_cons_self),
        ih fun e he => hlit e (List.mem_cons_of_mem d he)]

theorem urlSchemes_capital : ∀ e ∈ urlSchemes, ∀ c ∈ e.1, 0x41 ≤ c ∧ c ≤ 0x5A := by
  have hall : (urlSchemes.all fun e => e.1.all fun c => decide (0x41 ≤ c ∧ c ≤ 0x5A)) = true := by decide
  intro e he
  exact List.all_iff_forall_prop.mp (List.all_eq_true.mp hall e he)

theorem urlSchemes_nodup : (urlSchemes.map Prod.fst).Nodup := by
  decide

theorem urlScheme_find (s : List UInt8) :
    urlScheme s = (urlSchemes.find? fun e => netCiEq s e.1).map Prod.snd := by
  unfold urlScheme urlSchemes
  simp only [List.find?]
  split_ifs <;> simp_all

theorem urlScheme_eq_some_iff (s : List UInt8) (adapter : UrlAdapter) (dflt : UInt16) :
    urlScheme s = some (adapter, dflt) ↔
      ∃ name, (name, adapter, dflt) ∈ urlSchemes ∧ List.Forall₂ EitherCase s name := by
  rw [urlScheme_find, Option.map_eq_some_iff]
  constructor
  · rintro ⟨⟨name, info⟩, hfind, rfl⟩
    have hmem := List.mem_of_find?_eq_some hfind
    have hname : netCiEq s name = true :=
      List.find?_some (p := fun e : List UInt8 × UrlAdapter × UInt16 => netCiEq s e.1) hfind
    exact ⟨name, hmem, (netCiEq_iff (urlSchemes_capital _ hmem) s).mp hname⟩
  · rintro ⟨name, hmem, hcase⟩
    have hname : netCiEq s name = true := (netCiEq_iff (urlSchemes_capital _ hmem) s).mpr hcase
    cases hfind : urlSchemes.find? fun e => netCiEq s e.1 with
    | none => exact absurd hname (by simpa using List.find?_eq_none.mp hfind _ hmem)
    | some e =>
      have hother : netCiEq s e.1 = true :=
        List.find?_some (p := fun e : List UInt8 × UrlAdapter × UInt16 => netCiEq s e.1) hfind
      have hsame : e.1 = name := by
        unfold netCiEq at hname hother
        rw [beq_iff_eq] at hname hother
        exact hother.symm.trans hname
      have hinj := List.inj_on_of_nodup_map urlSchemes_nodup (List.mem_of_find?_eq_some hfind) hmem hsame
      exact ⟨e, rfl, congrArg Prod.snd hinj⟩

theorem scheme_no_colon {s name : List UInt8} (hcase : List.Forall₂ EitherCase s name)
    (hname : ∀ c ∈ name, 0x41 ≤ c ∧ c ≤ 0x5A) : ∀ c ∈ s, c ≠ 0x3A := by
  induction hcase with
  | nil => exact nofun
  | cons hone _ ih =>
    obtain ⟨hlit, hrest⟩ := List.forall_mem_cons.mp hname
    refine List.forall_mem_cons.mpr ⟨?_, ih hrest⟩
    rintro rfl
    rcases hone with hsame | hlow
    · rw [← hsame] at hlit
      exact absurd hlit (by decide)
    · have hcap : _ = (0x3A : UInt8) - 0x20 := (UInt8.sub_eq_iff_eq_add.mpr hlow).symm
      rw [hcap] at hlit
      exact absurd hlit (by decide)

/-! ### The port -/

theorem le_decimalFrom (n : Nat) (digits : List UInt8) : n ≤ decimalFrom n digits := by
  induction digits generalizing n with
  | nil => exact Nat.le_refl n
  | cons d digits ih =>
    have hrest := ih (n * 10 + (d.toNat - 0x30))
    apply le_trans _ hrest
    omega

theorem urlPortFrom_sound {s rest : List UInt8} {n port : Nat} (hn : n ≤ 65535)
    (h : urlPortFrom s n = some (port, rest)) :
    ∃ digits, s = digits ++ rest ∧ (∀ d ∈ digits, isDigit d = true) ∧ port = decimalFrom n digits ∧ port ≤ 65535 := by
  induction s generalizing n with
  | nil =>
    cases h
    exact ⟨[], rfl, nofun, rfl, hn⟩
  | cons c s ih =>
    unfold urlPortFrom at h
    by_cases hdigit : isDigit c = true
    · rw [if_pos hdigit] at h
      simp only at h
      by_cases hbig : n * 10 + (c.toNat - 0x30) > 65535
      · rw [if_pos hbig] at h
        cases h
      · rw [if_neg hbig] at h
        obtain ⟨digits, hs, hall, hport, hfit⟩ := ih (Nat.le_of_not_lt hbig) h
        refine ⟨c :: digits, congrArg (c :: ·) hs, ?_, hport, hfit⟩
        exact List.forall_mem_cons.mpr ⟨hdigit, hall⟩
    · rw [if_neg hdigit] at h
      cases h
      exact ⟨[], rfl, nofun, rfl, hn⟩

theorem urlPortFrom_complete {digits rest : List UInt8} {n : Nat} (hall : ∀ d ∈ digits, isDigit d = true)
    (hrest : ∀ c ∈ rest.head?, isDigit c = false) (hfit : decimalFrom n digits ≤ 65535) :
    urlPortFrom (digits ++ rest) n = some (decimalFrom n digits, rest) := by
  induction digits generalizing n with
  | nil =>
    rw [List.nil_append]
    cases rest with
    | nil => rfl
    | cons c rest =>
      have hc : isDigit c = false := hrest c rfl
      rw [urlPortFrom, if_neg (Bool.eq_false_iff.mp hc)]
      rfl
  | cons d digits ih =>
    obtain ⟨hd, hdigits⟩ := List.forall_mem_cons.mp hall
    have hsmall : ¬ n * 10 + (d.toNat - 0x30) > 65535 := by
      have hgrow : n * 10 + (d.toNat - 0x30) ≤ decimalFrom n (d :: digits) := le_decimalFrom _ digits
      exact Nat.not_lt_of_le (hgrow.trans hfit)
    rw [List.cons_append, urlPortFrom, if_pos hd]
    simp only
    rw [if_neg hsmall]
    exact ih hdigits hfit

def SlashOrEnd (rest : List UInt8) : Prop := ∀ c ∈ rest.head?, c = 0x2F

theorem urlPort_sound {dflt port : UInt16} {s rest : List UInt8} (h : urlPort dflt s = some (port, rest)) :
    ∃ text : Option (List UInt8), s = text.elim [] (0x3A :: ·) ++ rest ∧ (text = none → port = dflt) ∧
      ∀ digits, text = some digits → (∀ d ∈ digits, isDigit d = true) ∧ decimalFrom 0 digits = port.toNat := by
  cases s with
  | nil =>
    cases h
    exact ⟨none, rfl, fun _ => rfl, nofun⟩
  | cons c s =>
    rw [urlPort] at h
    by_cases hcolon : c = 0x3A
    · rw [if_pos hcolon] at h
      obtain ⟨⟨n, rest'⟩, hfrom, hgiven⟩ := Option.bind_eq_some_iff.mp h
      simp only at hgiven
      by_cases hzero : n = 0
      · rw [if_pos hzero] at hgiven
        cases hgiven
      · rw [if_neg hzero] at hgiven
        cases hgiven
        obtain ⟨digits, hs, hall, hport, hfit⟩ := urlPortFrom_sound (Nat.zero_le _) hfrom
        refine ⟨some digits, ?_, nofun, ?_⟩
        · rw [hcolon, hs]
          rfl
        · intro text htext
          cases htext
          refine ⟨hall, ?_⟩
          rw [← hport, UInt16.toNat_ofNat_of_lt' (Nat.lt_succ_of_le hfit)]
    · rw [if_neg hcolon] at h
      cases h
      exact ⟨none, rfl, fun _ => rfl, nofun⟩

theorem urlPort_complete {dflt port : UInt16} {text : Option (List UInt8)} {rest : List UInt8}
    (hrest : SlashOrEnd rest) (hgiven : port ≠ 0) (hnone : text = none → port = dflt)
    (hsome : ∀ digits, text = some digits → (∀ d ∈ digits, isDigit d = true) ∧ decimalFrom 0 digits = port.toNat) :
    urlPort dflt (text.elim [] (0x3A :: ·) ++ rest) = some (port, rest) := by
  cases text with
  | none =>
    rw [hnone rfl]
    cases rest with
    | nil => rfl
    | cons c rest =>
      have hc : c = 0x2F := hrest c rfl
      rw [hc]
      rfl
  | some digits =>
    obtain ⟨hall, hvalue⟩ := hsome digits rfl
    have hfit : decimalFrom 0 digits ≤ 65535 := by
      rw [hvalue]
      exact Nat.le_of_lt_succ port.toNat_lt
    have hstop : ∀ c ∈ rest.head?, isDigit c = false := by
      intro c hc
      rw [hrest c hc]
      rfl
    have hnonzero : decimalFrom 0 digits ≠ 0 := by
      intro hzero
      apply hgiven
      apply UInt16.toNat_inj.mp
      rw [← hvalue, hzero]
      rfl
    show urlPort dflt (0x3A :: (digits ++ rest)) = _
    rw [urlPort, if_pos rfl, urlPortFrom_complete hall hstop hfit, Option.bind_some, if_neg hnonzero, hvalue,
      UInt16.ofNat_toNat]

/-! ### The path -/

theorem no_control_iff (s : List UInt8) : s.any isControl = false ↔ ∀ c ∈ s, isControl c = false := by
  simp only [List.any_eq_false, Bool.not_eq_true]

theorem urlPath_sound {pathSz : Nat} {s path : List UInt8} (h : urlPath pathSz s = some path) :
    ∃ text : Option (List UInt8), s = text.getD [] ∧ path = text.getD [0x2F] ∧ path.length < pathSz ∧
      ∀ p, text = some p → p.head? = some 0x2F ∧ ∀ c ∈ p, isControl c = false := by
  cases s with
  | nil =>
    rw [urlPath] at h
    by_cases hroom : pathSz < 2
    · rw [if_pos hroom] at h
      cases h
    · rw [if_neg hroom] at h
      cases h
      exact ⟨none, rfl, rfl, Nat.lt_of_succ_le (Nat.le_of_not_lt hroom), nofun⟩
  | cons c s =>
    rw [urlPath] at h
    by_cases hslash : c = 0x2F
    · rw [if_pos hslash] at h
      by_cases hroom : (c :: s).length ≥ pathSz
      · rw [if_pos hroom] at h
        cases h
      · rw [if_neg hroom] at h
        by_cases hcontrol : (c :: s).any isControl = true
        · rw [if_pos hcontrol] at h
          cases h
        · rw [if_neg hcontrol] at h
          cases h
          refine ⟨some (c :: s), rfl, rfl, Nat.lt_of_not_le hroom, ?_⟩
          intro p hp
          cases hp
          exact ⟨congrArg some hslash, (no_control_iff _).mp (Bool.eq_false_iff.mpr hcontrol)⟩
    · rw [if_neg hslash] at h
      cases h

theorem urlPath_complete {pathSz : Nat} {text : Option (List UInt8)} (hroom : (text.getD [0x2F]).length < pathSz)
    (hgood : ∀ p, text = some p → p.head? = some 0x2F ∧ ∀ c ∈ p, isControl c = false) :
    urlPath pathSz (text.getD []) = some (text.getD [0x2F]) := by
  cases text with
  | none => exact if_neg (Nat.not_lt_of_le (Nat.succ_le_of_lt hroom))
  | some p =>
    obtain ⟨hslash, hcontrol⟩ := hgood p rfl
    cases p with
    | nil => cases hslash
    | cons c p =>
      have hc : c = 0x2F := Option.some.inj hslash
      have hany : (c :: p).any isControl = false := (no_control_iff _).mpr hcontrol
      show urlPath pathSz (c :: p) = some (c :: p)
      have hfits : ¬ (c :: p).length ≥ pathSz := Nat.not_le_of_lt hroom
      rw [urlPath, if_pos hc, if_neg hfits, if_neg (Bool.eq_false_iff.mp hany)]

/-! ### The parser -/

def isHostByte (c : UInt8) : Bool := c ≠ 0x3A && c ≠ 0x2F

theorem isHostByte_iff (c : UInt8) : isHostByte c = true ↔ c ≠ 0x3A ∧ c ≠ 0x2F := by
  simp [isHostByte]

theorem slashOrEnd_path {path : Option (List UInt8)} (hpath : ∀ p, path = some p → p.head? = some 0x2F) :
    SlashOrEnd (path.getD []) := by
  cases path with
  | none => exact nofun
  | some p =>
    intro c hc
    rw [Option.getD_some, hpath p rfl] at hc
    exact (Option.some.inj hc).symm

theorem head_tail {u : UrlText} (hpath : ∀ p, u.path = some p → p.head? = some 0x2F) :
    ∀ c ∈ u.tail.head?, isHostByte c = false := by
  unfold UrlText.tail
  cases u.port with
  | some digits =>
    intro c hc
    have hcolon : (0x3A : UInt8) = c := Option.some.inj hc
    rw [← hcolon]
    rfl
  | none =>
    intro c hc
    rw [slashOrEnd_path hpath c hc]
    rfl

theorem takeWhile_host {host tail : List UInt8} (hhost : ∀ c ∈ host, isHostByte c = true)
    (htail : ∀ c ∈ tail.head?, isHostByte c = false) :
    (host ++ tail).takeWhile isHostByte = host ∧ (host ++ tail).dropWhile isHostByte = tail := by
  have hstop : tail.takeWhile isHostByte = [] ∧ tail.dropWhile isHostByte = tail := by
    cases tail with
    | nil => exact ⟨rfl, rfl⟩
    | cons c tail =>
      have hc : isHostByte c = false := htail c rfl
      have hno := Bool.eq_false_iff.mp hc
      exact ⟨List.takeWhile_cons_of_neg hno, List.dropWhile_cons_of_neg hno⟩
  rw [List.takeWhile_append_of_pos hhost, List.dropWhile_append_of_pos hhost, hstop.1, hstop.2]
  exact ⟨List.append_nil _, rfl⟩

theorem netUrlParse_eq (url : List UInt8) (hostSz pathSz : Nat) :
    netUrlParse url hostSz pathSz =
      (splitScheme url).bind fun p => (urlScheme p.1).bind fun q =>
        if p.2.takeWhile isHostByte = [] ∨ (p.2.takeWhile isHostByte).length ≥ hostSz then none
        else if (p.2.takeWhile isHostByte).any isControl then none
        else (urlPort q.2 (p.2.dropWhile isHostByte)).bind fun r =>
          if r.1 = 0 then none else (urlPath pathSz r.2).map fun path => ⟨q.1, r.1, p.2.takeWhile isHostByte, path⟩ :=
  rfl

theorem netUrlParse_sound {url : List UInt8} {hostSz pathSz : Nat} {r : Url}
    (h : netUrlParse url hostSz pathSz = some r) :
    ∃ u : UrlText, u.bytes = url ∧ u.Good hostSz pathSz r.adapter r.port ∧ r.host = u.host ∧ r.path = u.fullPath := by
  rw [netUrlParse_eq] at h
  obtain ⟨⟨scheme, rest⟩, hsplit, h⟩ := Option.bind_eq_some_iff.mp h
  obtain ⟨⟨adapter, dflt⟩, hscheme, h⟩ := Option.bind_eq_some_iff.mp h
  simp only at h
  by_cases hroom : rest.takeWhile isHostByte = [] ∨ (rest.takeWhile isHostByte).length ≥ hostSz
  · rw [if_pos hroom] at h
    cases h
  rw [if_neg hroom] at h
  by_cases hcontrol : (rest.takeWhile isHostByte).any isControl = true
  · rw [if_pos hcontrol] at h
    cases h
  rw [if_neg hcontrol] at h
  obtain ⟨⟨port, after⟩, hport, h⟩ := Option.bind_eq_some_iff.mp h
  simp only at h
  by_cases hgiven : port = 0
  · rw [if_pos hgiven] at h
    cases h
  rw [if_neg hgiven] at h
  obtain ⟨path, hpath, heq⟩ := Option.map_eq_some_iff.mp h
  cases heq
  obtain ⟨portText, htail, hnone, hdigits⟩ := urlPort_sound hport
  obtain ⟨pathText, hafter, hfull, hfits, hclean⟩ := urlPath_sound hpath
  obtain ⟨name, hmem, hcase⟩ := (urlScheme_eq_some_iff scheme adapter dflt).mp hscheme
  obtain ⟨hnonempty, hshort⟩ := not_or.mp hroom
  refine ⟨⟨scheme, rest.takeWhile isHostByte, portText, pathText⟩, ?_, ?_, rfl, hfull⟩
  · show scheme ++ (colonSlashes ++ (rest.takeWhile isHostByte ++
      (portText.elim [] (0x3A :: ·) ++ pathText.getD []))) = _
    rw [← hafter, ← htail, List.takeWhile_append_dropWhile, splitScheme_sound hsplit]
  · constructor
    · exact ⟨name, dflt, hmem, hcase, hnone⟩
    · exact ⟨hnonempty, Nat.lt_of_not_le hshort⟩
    · intro c hc
      have hbyte := (isHostByte_iff c).mp (List.mem_takeWhile_imp hc)
      exact ⟨hbyte.1, hbyte.2, (no_control_iff _).mp (Bool.eq_false_iff.mpr hcontrol) c hc⟩
    · exact hdigits
    · exact hgiven
    · exact hclean
    · unfold UrlText.fullPath
      rw [← hfull]
      exact hfits

theorem netUrlParse_complete {u : UrlText} {hostSz pathSz : Nat} {adapter : UrlAdapter} {port : UInt16}
    (h : u.Good hostSz pathSz adapter port) :
    netUrlParse u.bytes hostSz pathSz = some ⟨adapter, port, u.host, u.fullPath⟩ := by
  obtain ⟨name, dflt, hmem, hcase, hnone⟩ := h.scheme
  have hsplit := splitScheme_complete (scheme_no_colon hcase (urlSchemes_capital _ hmem)) (u.host ++ u.tail)
  have hscheme := (urlScheme_eq_some_iff u.scheme adapter dflt).mpr ⟨name, hmem, hcase⟩
  have hslash : ∀ p, u.path = some p → p.head? = some 0x2F := fun p hp => (h.pathText p hp).1
  have hhost : ∀ c ∈ u.host, isHostByte c = true := by
    intro c hc
    obtain ⟨hcolon, hslash, -⟩ := h.host c hc
    exact (isHostByte_iff c).mpr ⟨hcolon, hslash⟩
  obtain ⟨htake, hdrop⟩ := takeWhile_host hhost (head_tail hslash)
  have hclean : u.host.any isControl = false := (no_control_iff _).mpr fun c hc => (h.host c hc).2.2
  have hroom : ¬ (u.host = [] ∨ u.host.length ≥ hostSz) :=
    not_or.mpr ⟨h.hostRoom.1, Nat.not_le_of_lt h.hostRoom.2⟩
  have hport := urlPort_complete (slashOrEnd_path hslash) h.portGiven hnone h.digits
  have hpath := urlPath_complete h.pathRoom h.pathText
  rw [netUrlParse_eq, UrlText.bytes, hsplit, Option.bind_some, hscheme, Option.bind_some]
  simp only
  rw [htake, hdrop, if_neg hroom, if_neg (Bool.eq_false_iff.mp hclean)]
  unfold UrlText.tail UrlText.fullPath
  rw [hport, Option.bind_some]
  simp only
  rw [if_neg h.portGiven, hpath]
  rfl

/-! ### The buffers -/

def putAt (buf : List UInt8) (i : Nat) (c : UInt8) : Option (List UInt8) :=
  if i < buf.length then some (buf.set i c) else none

def copyHost : List UInt8 → Nat → List UInt8 → Option (Bool × List UInt8)
  | [], i, buf => (putAt buf i 0).map fun buf => (true, buf)
  | c :: rest, i, buf => if isControl c then some (false, buf) else (putAt buf i c).bind (copyHost rest (i + 1))

/-- `strcpy`. -/
def copyString : List UInt8 → Nat → List UInt8 → Option (List UInt8)
  | [], i, buf => putAt buf i 0
  | c :: rest, i, buf => (putAt buf i c).bind (copyString rest (i + 1))

def copyPath (path : List UInt8) : List UInt8 → Option (Bool × List UInt8)
  | [] =>
    if path.length < 2 then some (false, path)
    else ((putAt path 0 0x2F).bind fun path => putAt path 1 0).map fun path => (true, path)
  | c :: rest =>
    if c = 0x2F then
      if (c :: rest).length ≥ path.length then some (false, path)
      else if (c :: rest).any isControl then some (false, path)
      else (copyString (c :: rest) 0 path).map fun path => (true, path)
    else some (false, path)

/-- `net_url_parse` on buffers for host and path; a write outside them would be no result. -/
def netUrlParseInto (url host path : List UInt8) :
    Option (Option (UrlAdapter × UInt16) × List UInt8 × List UInt8) :=
  match splitScheme url with
  | none => some (none, host, path)
  | some (scheme, rest) =>
    match urlScheme scheme with
    | none => some (none, host, path)
    | some (adapter, dflt) =>
      let name := rest.takeWhile isHostByte
      let rest := rest.dropWhile isHostByte
      if name = [] ∨ name.length ≥ host.length then some (none, host, path)
      else
        (copyHost name 0 host).bind fun (ok, host) =>
          if ok = false then some (none, host, path)
          else
            match urlPort dflt rest with
            | none => some (none, host, path)
            | some (port, rest) =>
              if port = 0 then some (none, host, path)
              else
                (copyPath path rest).map fun (ok, path) => (if ok then some (adapter, port) else none, host, path)

def cString (buf : List UInt8) : List UInt8 := buf.takeWhile (· ≠ 0)

theorem putAt_some {buf : List UInt8} {i : Nat} (h : i < buf.length) (c : UInt8) :
    putAt buf i c = some (buf.take i ++ c :: buf.drop (i + 1)) := by
  unfold putAt
  rw [if_pos h, List.set_eq_take_append_cons_drop, if_pos h]

theorem copyString_eq (s before after : List UInt8) (h : s.length < after.length) :
    copyString s before.length (before ++ after) = some (before ++ s ++ 0 :: after.drop (s.length + 1)) := by
  induction s generalizing before after with
  | nil =>
    have hroom : before.length < (before ++ after).length := by
      rw [List.length_append]
      exact Nat.lt_add_of_pos_right h
    rw [copyString, putAt_some hroom, List.take_left, List.drop_append, List.append_nil]
    simp
  | cons c s ih =>
    cases after with
    | nil => cases h
    | cons d after =>
      have hput : putAt (before ++ d :: after) before.length c = some ((before ++ [c]) ++ after) := by
        unfold putAt
        simp
      have hrest := ih (before ++ [c]) after (Nat.lt_of_succ_lt_succ h)
      rw [List.length_append, List.length_singleton] at hrest
      rw [copyString, hput, Option.bind_some, hrest]
      simp

theorem copyHost_clean {s : List UInt8} (hclean : s.any isControl = false) (i : Nat) (buf : List UInt8) :
    copyHost s i buf = (copyString s i buf).map fun buf => (true, buf) := by
  induction s generalizing i buf with
  | nil => rfl
  | cons c s ih =>
    obtain ⟨hc, hs⟩ := Bool.or_eq_false_iff.mp hclean
    rw [copyHost, if_neg (Bool.eq_false_iff.mp hc), copyString]
    cases putAt buf i c with
    | none => rfl
    | some buf => exact ih hs (i + 1) buf

theorem copyHost_inside (s : List UInt8) (i : Nat) (buf : List UInt8) (h : i + s.length < buf.length) :
    ∃ buf', copyHost s i buf = some (!s.any isControl, buf') ∧ buf'.length = buf.length := by
  induction s generalizing i buf with
  | nil =>
    refine ⟨buf.set i 0, ?_, List.length_set⟩
    rw [copyHost, putAt, if_pos (show i < buf.length from h)]
    rfl
  | cons c s ih =>
    rw [List.length_cons] at h
    by_cases hc : isControl c = true
    · refine ⟨buf, ?_, rfl⟩
      rw [copyHost, if_pos hc, List.any_cons, hc]
      rfl
    · have hput : putAt buf i c = some (buf.set i c) := if_pos (by omega)
      obtain ⟨buf', hcopy, hlength⟩ := ih (i + 1) (buf.set i c) (by rw [List.length_set]; omega)
      refine ⟨buf', ?_, hlength.trans List.length_set⟩
      rw [copyHost, if_neg hc, hput, Option.bind_some, hcopy, List.any_cons, Bool.eq_false_iff.mpr hc]
      rfl

theorem cString_copied {s : List UInt8} (hclean : ∀ c ∈ s, isControl c = false) (rest : List UInt8) :
    cString (s ++ 0 :: rest) = s := by
  unfold cString
  rw [List.takeWhile_append_of_pos]
  · simp
  · intro c hc
    have hcontrol := hclean c hc
    apply decide_eq_true
    rintro rfl
    cases hcontrol

theorem copyString_fits {s buf : List UInt8} (hclean : ∀ c ∈ s, isControl c = false) (h : s.length < buf.length) :
    ∃ buf', copyString s 0 buf = some buf' ∧ buf'.length = buf.length ∧ cString buf' = s := by
  have hcopy := copyString_eq s [] buf h
  rw [List.length_nil, List.nil_append, List.nil_append] at hcopy
  refine ⟨_, hcopy, ?_, cString_copied hclean _⟩
  rw [List.length_append, List.length_cons, List.length_drop]
  omega

theorem copyPath_inside (path rest : List UInt8) :
    ∃ path', copyPath path rest = some ((urlPath path.length rest).isSome, path') ∧ path'.length = path.length ∧
      ∀ p, urlPath path.length rest = some p → cString path' = p := by
  cases rest with
  | nil =>
    rw [copyPath, urlPath]
    by_cases hroom : path.length < 2
    · rw [if_pos hroom, if_pos hroom]
      exact ⟨path, rfl, rfl, (by intro a h; cases h)⟩
    · have hslash : ∀ c ∈ ([0x2F] : List UInt8), isControl c = false := List.forall_mem_singleton.mpr rfl
      have htwo : ([0x2F] : List UInt8).length < path.length := Nat.le_of_not_lt hroom
      obtain ⟨path', hpath, hlength, hstring⟩ := copyString_fits hslash htwo
      rw [if_neg hroom, if_neg hroom]
      refine ⟨path', ?_, hlength, ?_⟩
      · show Option.map _ (copyString [0x2F] 0 path) = _
        rw [hpath]
        rfl
      · intro p hp
        cases hp
        exact hstring
  | cons c rest =>
    rw [copyPath, urlPath]
    by_cases hslash : c = 0x2F
    · rw [if_pos hslash, if_pos hslash]
      by_cases hroom : (c :: rest).length ≥ path.length
      · rw [if_pos hroom, if_pos hroom]
        exact ⟨path, rfl, rfl, (by intro a h; cases h)⟩
      rw [if_neg hroom, if_neg hroom]
      by_cases hcontrol : (c :: rest).any isControl = true
      · rw [if_pos hcontrol, if_pos hcontrol]
        exact ⟨path, rfl, rfl, (by intro a h; cases h)⟩
      obtain ⟨path', hpath, hlength, hstring⟩ := copyString_fits
        ((no_control_iff (c :: rest)).mp (Bool.eq_false_iff.mpr hcontrol)) (Nat.lt_of_not_le hroom)
      rw [if_neg hcontrol, if_neg hcontrol, hpath]
      refine ⟨path', rfl, hlength, ?_⟩
      intro p hp
      cases hp
      exact hstring
    · rw [if_neg hslash, if_neg hslash]
      exact ⟨path, rfl, rfl, (by intro a h; cases h)⟩

/-- Whatever the text and however short the buffers, the copying parser stays inside them; it accepts what the
parser accepts, and leaves it host and path. -/
theorem netUrlParseInto_eq (url host path : List UInt8) :
    ∃ host' path', netUrlParseInto url host path =
        some ((netUrlParse url host.length path.length).map fun r => (r.adapter, r.port), host', path') ∧
      host'.length = host.length ∧ path'.length = path.length ∧
      ∀ r, netUrlParse url host.length path.length = some r → cString host' = r.host ∧ cString path' = r.path := by
  rw [netUrlParseInto, netUrlParse_eq]
  cases splitScheme url with
  | none => exact ⟨host, path, rfl, rfl, rfl, nofun⟩
  | some p =>
    obtain ⟨scheme, rest⟩ := p
    simp only [Option.bind_some]
    cases urlScheme scheme with
    | none => exact ⟨host, path, rfl, rfl, rfl, nofun⟩
    | some q =>
      obtain ⟨adapter, dflt⟩ := q
      simp only [Option.bind_some]
      by_cases hroom : rest.takeWhile isHostByte = [] ∨ (rest.takeWhile isHostByte).length ≥ host.length
      · rw [if_pos hroom, if_pos hroom]
        exact ⟨host, path, rfl, rfl, rfl, nofun⟩
      have hshort := Nat.lt_of_not_le (not_or.mp hroom).2
      rw [if_neg hroom, if_neg hroom]
      obtain ⟨host', hcopy, hlength⟩ :=
        copyHost_inside (rest.takeWhile isHostByte) 0 host (by rw [Nat.zero_add]; exact hshort)
      rw [hcopy, Option.bind_some]
      simp only
      by_cases hcontrol : (rest.takeWhile isHostByte).any isControl = true
      · rw [if_pos hcontrol, hcontrol]
        exact ⟨host', path, rfl, hlength, rfl, nofun⟩
      have hclean := Bool.eq_false_iff.mpr hcontrol
      have hhost : cString host' = rest.takeWhile isHostByte := by
        obtain ⟨buf, hbuf, -, hstring⟩ := copyString_fits ((no_control_iff _).mp hclean) hshort
        rw [copyHost_clean hclean, hbuf] at hcopy
        obtain ⟨-, rfl⟩ := Prod.mk.inj (Option.some.inj hcopy)
        exact hstring
      rw [if_neg hcontrol, hclean]
      simp only [Bool.not_false, Bool.true_eq_false, if_false]
      cases urlPort dflt (rest.dropWhile isHostByte) with
      | none => exact ⟨host', path, rfl, hlength, rfl, nofun⟩
      | some r =>
        obtain ⟨port, after⟩ := r
        simp only [Option.bind_some]
        by_cases hgiven : port = 0
        · rw [if_pos hgiven, if_pos hgiven]
          exact ⟨host', path, rfl, hlength, rfl, nofun⟩
        rw [if_neg hgiven, if_neg hgiven]
        obtain ⟨path', hpath, hpathLength, hpathString⟩ := copyPath_inside path after
        rw [hpath]
        refine ⟨host', path', ?_, hlength, hpathLength, ?_⟩
        · cases urlPath path.length after <;> rfl
        · intro r hr
          obtain ⟨p, hp, rfl⟩ := Option.map_eq_some_iff.mp hr
          exact ⟨hhost, hpathString p hp⟩

/-- The parser accepts the texts of the grammar and gives back their parts, and the buffers it fills hold them and
are written nowhere else. -/
theorem url_grammar (url : List UInt8) (hostSz pathSz : Nat) :
    (∀ r, netUrlParse url hostSz pathSz = some r ↔ ∃ u : UrlText, u.bytes = url ∧
        u.Good hostSz pathSz r.adapter r.port ∧ r.host = u.host ∧ r.path = u.path.getD [0x2F]) ∧
      ∀ host path : List UInt8, host.length = hostSz → path.length = pathSz →
        ∃ host' path', netUrlParseInto url host path =
            some ((netUrlParse url hostSz pathSz).map fun r => (r.adapter, r.port), host', path') ∧
          host'.length = hostSz ∧ path'.length = pathSz ∧
          ∀ r, netUrlParse url hostSz pathSz = some r → cString host' = r.host ∧ cString path' = r.path := by
  constructor
  · intro r
    constructor
    · exact netUrlParse_sound
    · rintro ⟨u, rfl, hgood, hhost, hpath⟩
      rw [netUrlParse_complete hgood]
      apply congrArg some
      cases r
      cases hhost
      cases hpath
      rfl
  · rintro host path rfl rfl
    exact netUrlParseInto_eq url host path

/-- HTTP://a needs room for the slash that it does not have. -/
theorem url_no_path_room :
    let u : UrlText := ⟨chars ['H', 'T', 'T', 'P'], [0x61], none, none⟩
    (u.path.getD []).length < 1 ∧ netUrlParse u.bytes 64 1 = none ∧
      netUrlParse u.bytes 64 2 = some ⟨.http, 80, [0x61], [0x2F]⟩ := by
  decide

end Pi1MHz.Net
