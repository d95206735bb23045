import Pi1MHz.WsRange
import Pi1MHz.WsServer

/-!
# The web server: the numbers of a ranged PUT

The offset and the `Content-Length` of a PUT are read by two loops, out of buffers that keep the beginning
of a text only.  The header fields are looked for in all that has come in, the first bytes of the body
included.
-/

namespace Pi1MHz.Ws.RangedPut

open Server

/-! ### The numbers -/

def UINT32_MAX : Nat := 0xFFFFFFFF

def offsetKey : Str := lit ['o', 'f', 'f', 's', 'e', 't']

def contentLengthName : Str :=
  lit ['C', 'o', 'n', 't', 'e', 'n', 't', '-', 'L', 'e', 'n', 'g', 't', 'h']

def transferEncodingName : Str :=
  lit ['T', 'r', 'a', 'n', 's', 'f', 'e', 'r', '-', 'E', 'n', 'c', 'o', 'd', 'i', 'n', 'g']

/-- The loop over `off_str`: "Saturate rather than reject". -/
def readOffset : Nat → Str → Option Nat
  | offset, [] => some offset
  | offset, c :: rest =>
      if isDigit c then
        readOffset
          (if (UINT32_MAX - 9) / 10 < offset then UINT32_MAX else offset * 10 + (c.toNat - 0x30)) rest
      else none

/-- The loop over `len_hdr`. -/
def readLength : Nat → Str → Except Nat Nat
  | len, [] => .ok len
  | len, c :: rest =>
      if isDigit c = false then .error 400
      else if (0x7FFFFFFF - 9) / 10 < len then .error 413
      else readLength (len * 10 + (c.toNat - 0x30)) rest

/-- The query of a PUT; `off_str` has 16 bytes. -/
def putQuery : Option Str → Except Nat (Option Nat)
  | none => .ok none
  | some query =>
      match wsQueryParam query offsetKey 16 with
      | some text =>
          if text = [] then .error 400
          else
            match readOffset 0 text with
            | some offset => .ok (some offset)
            | none => .error 400
      | none => if query = [] then .ok none else .error 400

/-- The header fields are looked for in all that has come in; `te_hdr` has 32 bytes. -/
def putChunked (hdr : List UInt8) : Bool :=
  (wsFindHeader hdr transferEncodingName 32).any fun te =>
    wsStrcasestr te (lit ['c', 'h', 'u', 'n', 'k', 'e', 'd'])

/-- `len_hdr` has 24 bytes. -/
def putContentLength (hdr : List UInt8) : Except Nat Nat :=
  match wsFindHeader hdr contentLengthName 24 with
  | some text => readLength 0 text
  | none => .error 411

/-- A PUT whose header is `head`, with what came in behind it. -/
def putRequest (rawpath : Str) (query : Option Str) (head already : List UInt8) : PutRequest where
  rawpath := rawpath
  query := putQuery query
  chunked := putChunked (head ++ already)
  contentLength := putContentLength (head ++ already)
  already := already

/-! ### What is asked for -/

def decimalOf (text : Str) : Option Nat :=
  if text ≠ [] ∧ text.all isDigit then some (digitsValue text) else none

def offsetText (query : Str) : Option Str := wsQueryParam query offsetKey (query.length + 1)

/-- The whole text of the `Content-Length`. -/
def lengthText (head : List UInt8) : Option Str := wsFindHeader head contentLengthName (head.length + 1)

def askedOffset (query : Str) : Option Nat := (offsetText query).bind decimalOf

def askedLength (head : List UInt8) : Option Nat := (lengthText head).bind decimalOf

/-- The number in what `off_str` keeps of a text. -/
def keptOffset (text : Str) : Option Nat := if text = [] then none else readOffset 0 (text.take 15)

/-- The number in what `len_hdr` keeps of a text. -/
def keptLength (text : Str) : Except Nat Nat := readLength 0 (text.take 23)

section Texts

variable {text : Str} {n : Nat}

theorem queryParam_cut (key : Str) (osz : Nat) (start : Bool) (query : Str) (h : query.length ≤ n) :
    wsQueryParamFrom key osz start query =
      (wsQueryParamFrom key (n + 1) start query).map (·.take (osz - 1)) := by
  induction query generalizing start with
  | nil => rfl
  | cons c rest ih =>
    rw [wsQueryParamFrom, wsQueryParamFrom]
    split
    · have hshort : (((c :: rest).drop (key.length + 1)).takeWhile (· ≠ 0x26)).length ≤ n := by
        have hdrop := (List.drop_sublist (key.length + 1) (c :: rest)).length_le
        have htake := (List.takeWhile_sublist (fun b : UInt8 => b ≠ 0x26)
          (l := (c :: rest).drop (key.length + 1))).length_le
        omega
      rw [Option.map_some, Nat.add_sub_cancel, List.take_of_length_le hshort]
    · exact ih _ (by rw [List.length_cons] at h; omega)

end Texts

/-! ### A header that is complete -/

section Complete

variable {name line rest : List UInt8} {osz : Nat}

def NoFeed (name : Str) : Prop := ∀ c ∈ name, wsLc c ≠ 0x0A

theorem wsLc_feed {c : UInt8} (h : wsLc 0x0A = wsLc c) : wsLc c = 0x0A := h.symm.trans (by decide)

theorem prefixCi_append (hname : NoFeed name) (hline : line.getLast? = some 0x0A) :
    (wsPrefixCi (line ++ rest) name = true ↔ wsPrefixCi line name = true ∧ name.length < line.length) := by
  induction name generalizing line with
  | nil =>
    have hpos : 0 < line.length := by
      rcases line with _ | ⟨c, line⟩
      · exact absurd hline (by simp)
      · exact Nat.succ_pos _
    simp [wsPrefixCi, hpos]
  | cons p name ih =>
    obtain ⟨hp, hname⟩ := List.forall_mem_cons.mp hname
    rcases line with _ | ⟨c, line⟩
    · exact absurd hline (by simp)
    · rw [List.cons_append, wsPrefixCi, wsPrefixCi, Bool.and_eq_true, Bool.and_eq_true, beq_iff_eq,
        List.length_cons, List.length_cons, Nat.add_lt_add_iff_right]
      rcases line with _ | ⟨d, line⟩
      · obtain rfl : c = 0x0A := by simpa using hline
        constructor
        · rintro ⟨hc, -⟩
          exact absurd (wsLc_feed hc) hp
        · rintro ⟨-, hlt⟩
          exact absurd hlt (Nat.not_lt_zero _)
      · rw [ih hname (by simpa using hline)]
        exact (and_assoc).symm

theorem headerAt_append (hname : NoFeed name) (hline : line.getLast? = some 0x0A) :
    wsHeaderAt name (line ++ rest) = wsHeaderAt name line := by
  have hmatch : wsHeaderAt name (line ++ rest) = true ↔ wsHeaderAt name line = true := by
    simp only [wsHeaderAt, Bool.and_eq_true, decide_eq_true_eq, prefixCi_append hname hline,
      List.length_append]
    constructor
    · rintro ⟨⟨-, hci, hlt⟩, hcolon⟩
      rw [List.getD_append _ _ _ _ hlt] at hcolon
      exact ⟨⟨hlt, hci⟩, hcolon⟩
    · rintro ⟨⟨hlt, hci⟩, hcolon⟩
      rw [List.getD_append _ _ _ _ hlt]
      exact ⟨⟨Nat.lt_add_right _ hlt, hci, hlt⟩, hcolon⟩
  exact Bool.eq_iff_iff.mpr hmatch

theorem takeWhile_stops {p : UInt8 → Bool} {l : List UInt8} (h : ∃ c ∈ l, p c = false) (rest : List UInt8) :
    (l ++ rest).takeWhile p = l.takeWhile p := by
  induction l with
  | nil =>
    obtain ⟨c, hc, -⟩ := h
    exact absurd hc List.not_mem_nil
  | cons c l ih =>
    rw [List.cons_append, List.takeWhile_cons, List.takeWhile_cons]
    split
    · next hp =>
      obtain ⟨d, hd, hdp⟩ := h
      rcases List.mem_cons.mp hd with rfl | hmem
      · exact absurd (hp.symm.trans hdp) (by decide)
      · rw [ih ⟨d, hmem, hdp⟩]
    · rfl

theorem dropWhile_stops {p : UInt8 → Bool} {l : List UInt8} (h : ∃ c ∈ l, p c = false) (rest : List UInt8) :
    (l ++ rest).dropWhile p = l.dropWhile p ++ rest ∧ ∀ c ∈ l, p c = false → c ∈ l.dropWhile p := by
  induction l with
  | nil =>
    obtain ⟨c, hc, -⟩ := h
    exact absurd hc List.not_mem_nil
  | cons c l ih =>
    rw [List.cons_append, List.dropWhile_cons, List.dropWhile_cons]
    split
    · next hp =>
      have hrest : ∃ d ∈ l, p d = false := by
        obtain ⟨d, hd, hdp⟩ := h
        rcases List.mem_cons.mp hd with rfl | hmem
        · exact absurd (hp.symm.trans hdp) (by decide)
        · exact ⟨d, hmem, hdp⟩
      obtain ⟨heq, hmem⟩ := ih hrest
      refine ⟨heq, fun d hd hdp => ?_⟩
      rcases List.mem_cons.mp hd with rfl | hd
      · exact absurd (hp.symm.trans hdp) (by decide)
      · exact hmem d hd hdp
    · exact ⟨rfl, fun d hd _ => hd⟩

theorem headerValue_append (hline : line.getLast? = some 0x0A) (hat : wsHeaderAt name line = true) :
    wsHeaderValue name osz (line ++ rest) = wsHeaderValue name osz line := by
  simp only [wsHeaderAt, Bool.and_eq_true, decide_eq_true_eq, beq_iff_eq] at hat
  obtain ⟨⟨hlt, -⟩, hcolon⟩ := hat
  have hmem : (0x0A : UInt8) ∈ line.drop (name.length + 1) := by
    have hlast : line.drop name.length ≠ [] := by
      rw [Ne, List.drop_eq_nil_iff]
      omega
    have hcons : line.drop name.length = 0x3A :: line.drop (name.length + 1) := by
      rw [List.drop_eq_getElem_cons hlt]
      rw [List.getD_eq_getElem _ _ hlt] at hcolon
      rw [hcolon]
    have hend : (line.drop name.length).getLast? = some 0x0A := by
      rw [List.getLast?_drop, if_neg (by omega)]
      exact hline
    rw [hcons] at hend
    rcases hdrop : line.drop (name.length + 1) with _ | ⟨d, tail⟩
    · rw [hdrop] at hend
      exact absurd hend (by decide)
    · rw [hdrop, List.getLast?_cons_cons] at hend
      exact List.mem_of_getLast? hend
  have hblank : wsBlank 0x0A = false := by decide
  have hstop : (fun c : UInt8 => c ≠ 0x0D && c ≠ 0x0A) 0x0A = false := by decide
  obtain ⟨hskip, hkeep⟩ := dropWhile_stops (p := wsBlank) ⟨0x0A, hmem, hblank⟩ rest
  rw [wsHeaderValue, wsHeaderValue, List.drop_append_of_le_length (by omega), hskip,
    takeWhile_stops ⟨0x0A, hkeep _ hmem hblank, hstop⟩]

theorem findHeader_append (hname : NoFeed name) (start : Bool) {head : List UInt8} {v : Str}
    (hend : head.getLast? = some 0x0A) (h : wsFindHeaderFrom name osz start head = some v) :
    wsFindHeaderFrom name osz start (head ++ rest) = some v := by
  induction head generalizing start with
  | nil => exact absurd hend (by decide)
  | cons c head ih =>
    rw [wsFindHeaderFrom] at h
    rw [List.cons_append, wsFindHeaderFrom, ← List.cons_append, headerAt_append hname hend]
    split at h
    · next hat =>
      rw [if_pos hat, headerValue_append hend (Bool.and_eq_true_iff.mp hat).2]
      exact h
    · next hat =>
      rw [if_neg hat]
      rcases head with _ | ⟨d, head⟩
      · exact absurd h (by simp [wsFindHeaderFrom])
      · exact ih _ (by rw [List.getLast?_cons_cons] at hend; exact hend) h

end Complete

/-! ### The loops over the digits -/

section Digits

variable {text : Str} {acc n : Nat}

def digitsFrom (acc : Nat) (text : Str) : Nat := text.foldl (fun n c => n * 10 + (c.toNat - 0x30)) acc

theorem readOffset_digits {r : Nat} (h : readOffset acc text = some r) : text.all isDigit = true := by
  induction text generalizing acc with
  | nil => rfl
  | cons c text ih =>
    rw [readOffset] at h
    split at h
    · next hc =>
      rw [List.all_cons, hc, ih h]
      rfl
    · exact absurd h (Option.some_ne_none r).symm

theorem readOffset_saturated {r : Nat} (h : readOffset UINT32_MAX text = some r) : r = UINT32_MAX := by
  induction text with
  | nil => exact (Option.some.inj h).symm
  | cons c text ih =>
    rw [readOffset] at h
    split at h
    · exact ih h
    · exact absurd h (Option.some_ne_none r).symm

theorem readOffset_exact {r : Nat} (h : readOffset acc text = some r) :
    r = digitsFrom acc text ∨ r = UINT32_MAX := by
  induction text generalizing acc with
  | nil => exact .inl (Option.some.inj h).symm
  | cons c text ih =>
    rw [readOffset] at h
    split at h
    · split at h
      · exact .inr (readOffset_saturated h)
      · exact ih h
    · exact absurd h (Option.some_ne_none r).symm

theorem readLength_exact {r : Nat} (h : readLength acc text = .ok r) :
    text.all isDigit = true ∧ r = digitsFrom acc text := by
  induction text generalizing acc with
  | nil =>
    rw [readLength] at h
    exact ⟨rfl, (Except.ok.inj h).symm⟩
  | cons c text ih =>
    rw [readLength] at h
    split at h
    · exact absurd h (by nofun)
    · next hc =>
      split at h
      · exact absurd h (by nofun)
      · obtain ⟨hall, hr⟩ := ih h
        rw [List.all_cons, Bool.not_eq_false _ |>.mp hc, hall]
        exact ⟨rfl, hr⟩

end Digits

def headChunked (head : List UInt8) : Prop := putChunked head = true

/-- Where what the buffers keep of the two texts would do as an offset and a length, it says the same
numbers as the whole texts. -/
def KeptNumbers (query : Str) (head : List UInt8) : Prop :=
  ∀ text lenText offset len, ¬ headChunked head → offsetText query = some text →
    lengthText head = some lenText → keptOffset text = some offset → keptLength lenText = .ok len →
    offset + len ≤ UINT32_MAX →
    (decimalOf text = none → len = 0) ∧
      ∀ N L, decimalOf text = some N → decimalOf lenText = some L → len = L ∧ (0 < L → offset = N)

theorem keptNumbers_of_short {query : Str} {head : List UInt8}
    (hoffset : ∀ text, offsetText query = some text → text.length ≤ 15)
    (hlen : ∀ text, lengthText head = some text → text.length ≤ 23) : KeptNumbers query head := by
  intro text lenText offset len _ htext hlenText hkept hkept' hfits
  rw [keptOffset, List.take_of_length_le (hoffset text htext)] at hkept
  rw [keptLength, List.take_of_length_le (hlen lenText hlenText)] at hkept'
  split at hkept
  · exact absurd hkept (Option.some_ne_none offset).symm
  · next hne =>
    have hdecimal : decimalOf text = some (digitsValue text) := if_pos ⟨hne, readOffset_digits hkept⟩
    refine ⟨fun hnone => absurd (hdecimal.symm.trans hnone) (Option.some_ne_none _), fun N L hN hL => ?_⟩
    obtain rfl := Option.some.inj (hdecimal.symm.trans hN)
    obtain ⟨hall, hvalue⟩ := readLength_exact hkept'
    rw [decimalOf] at hL
    split at hL
    · obtain rfl := Option.some.inj hL
      refine ⟨hvalue, fun hpos => ?_⟩
      rcases readOffset_exact hkept with hexact | hsat
      · exact hexact
      · -- a saturated offset leaves no room for a byte
        have hvalue' : len = digitsValue lenText := hvalue
        omega
    · exact absurd hL (Option.some_ne_none L).symm

/-! ### Which numbers are used -/

section Numbers

variable {query : Str} {head : List UInt8}

theorem noFeed_of_all {name : Str} (h : name.all (fun c => wsLc c != 0x0A) = true) : NoFeed name :=
  fun c hc => bne_iff_ne.mp (List.all_eq_true.mp h c hc)

theorem noFeed_contentLength : NoFeed contentLengthName := noFeed_of_all (by decide)

theorem noFeed_transferEncoding : NoFeed transferEncodingName := noFeed_of_all (by decide)

theorem putChunked_append (hend : head.getLast? = some 0x0A) (h : headChunked head) (rest : List UInt8) :
    putChunked (head ++ rest) = true := by
  rw [headChunked, putChunked] at h
  rcases hte : wsFindHeader head transferEncodingName 32 with _ | te
  · rw [hte] at h
    exact absurd h (by nofun)
  · rw [hte] at h
    rw [putChunked, wsFindHeader, findHeader_append noFeed_transferEncoding false hend hte]
    exact h

theorem putQuery_some (hne : query ≠ []) : putQuery (some query) =
    match offsetText query with
    | some text =>
        match keptOffset text with
        | some offset => .ok (some offset)
        | none => .error 400
    | none => .error 400 := by
  have hcut : wsQueryParam query offsetKey 16 = (offsetText query).map (·.take 15) :=
    queryParam_cut offsetKey 16 true query (Nat.le_refl _)
  rw [putQuery]
  simp only [hcut]
  rcases offsetText query with _ | text
  · exact if_neg hne
  · simp only [Option.map_some]
    rw [keptOffset]
    by_cases htext : text = []
    · rw [htext]
      rfl
    · have htake : text.take 15 ≠ [] := by
        rw [Ne, List.take_eq_nil_iff, not_or]
        exact ⟨by decide, htext⟩
      rw [if_neg htake, if_neg htext]

theorem putContentLength_append (hend : head.getLast? = some 0x0A) {lenText : Str}
    (h : lengthText head = some lenText) (rest : List UInt8) :
    putContentLength (head ++ rest) = keptLength lenText := by
  have hcut : wsFindHeader head contentLengthName 24 = (lengthText head).map (·.take 23) :=
    wsFindHeaderFrom_cut contentLengthName false (Nat.le_refl _) 24
  rw [h, Option.map_some] at hcut
  rw [putContentLength, wsFindHeader, findHeader_append noFeed_contentLength false hend hcut]
  rfl

theorem readLength_error {acc : Nat} {text : Str} {status : Nat} (h : readLength acc text = .error status) :
    400 ≤ status := by
  induction text generalizing acc with
  | nil => exact absurd h (by nofun)
  | cons c text ih =>
    rw [readLength] at h
    split at h
    · exact (Except.error.inj h).le
    · split at h
      · rw [← Except.error.inj h]
        decide
      · exact ih h

theorem putContentLength_error {hdr : List UInt8} {status : Nat} (h : putContentLength hdr = .error status) :
    400 ≤ status := by
  rw [putContentLength] at h
  split at h
  · exact readLength_error h
  · rw [← Except.error.inj h]
    decide

theorem putQuery_error (hne : query ≠ []) {status : Nat} (h : putQuery (some query) = .error status) :
    400 ≤ status := by
  rw [putQuery_some hne] at h
  split at h
  · split at h
    · exact absurd h (by nofun)
    · exact (Except.error.inj h).le
  · exact (Except.error.inj h).le

theorem putQuery_ne_none (hne : query ≠ []) : putQuery (some query) ≠ .ok none := by
  rw [putQuery_some hne]
  split
  · split
    · nofun
    · nofun
  · nofun

end Numbers

end Pi1MHz.Ws.RangedPut
