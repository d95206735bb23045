import Mathlib.Algebra.Order.Group.Nat
import Pi1MHz.FileParserScan
import Pi1MHz.FinSizes

/-!
# Attribute files: writing and reading again

A file with values written over its texts differs from the original in these texts only, as long as the
buffer holds it.  Read again it gives the values back, where the keys are words and a separator stands
between a key and its value: then the scanner cuts the new file as it has cut the old one.
-/

namespace Pi1MHz.FileParser

open FinSizes

/-! ### The file with its texts rewritten -/

def newText (k : ParserKey) (v : ParserKeyValue) (text : List UInt8) : List UInt8 :=
  if v.length = 0 then text
  else
    match k.type with
    | .numString => hexText (v.string.take v.length)
    | .string => v.string.take v.length
    | .integer => integerText v.integer

def Line.rewrite (values : Nat → ParserKeyValue) : Line → Line
  | plain bytes => plain bytes
  | bare i bytes => bare i bytes
  | field name seps i k text after => field name seps i k (newText k (values i) text) after

def rewritten (keys : List ParserKey) (values : Nat → ParserKeyValue) (file : List UInt8) : List UInt8 :=
  (fileLines keys file).flatMap fun l => (l.rewrite values).bytes

/-- What a line needs of the buffer behind `n` bytes; `snprintf` wants room for its NUL. -/
def Line.Fits (cap : Nat) (values : Nat → ParserKeyValue) (n : Nat) : Line → Prop
  | plain bytes => n + bytes.length ≤ cap
  | bare _ bytes => n + bytes.length ≤ cap
  | field name seps i k text after =>
      n + (name.length + seps.length + (newText k (values i) text).length + after.length) ≤ cap ∧
        ((values i).length ≠ 0 → k.type = .integer →
          n + (name.length + seps.length + (newText k (values i) text).length) < cap)

def LinesFit (cap : Nat) (values : Nat → ParserKeyValue) : Nat → List Line → Prop
  | _, [] => True
  | n, l :: lines => l.Fits cap values n ∧ LinesFit cap values (n + (l.rewrite values).bytes.length) lines

section Fits

variable {cap : Nat} {values : Nat → ParserKeyValue} {out text : List UInt8} {k : ParserKey}
  {v : ParserKeyValue} {l : Line}

theorem integerText_pos (n : Int) : 0 < (integerText n).length := by
  have hdigits : ∀ m, 0 < (digitsText m).length := by
    intro m
    rw [digitsText, List.length_map]
    exact Nat.length_toDigits_pos
  rcases n with n | n
  · exact hdigits n
  · exact Nat.succ_pos _

theorem putValue_length (cap : Nat) (k : ParserKey) (v : ParserKeyValue) (out text : List UInt8) :
    (putValue cap k v out text).length ≤ out.length + (newText k v text).length := by
  rw [putValue, newText]
  split
  · exact outPuts_length _ _ _
  · rcases k.type with _ | _ | _
    · exact outPuts_length _ _ _
    · exact outPuts_length _ _ _
    · simp only
      split
      · exact List.length_append.le
      · exact Nat.le_add_right _ _

theorem putValue_bound (h : out.length ≤ cap) : (putValue cap k v out text).length ≤ cap := by
  rw [putValue]
  split
  · exact outPuts_bound h
  · rcases k.type with _ | _ | _
    · exact outPuts_bound h
    · exact outPuts_bound h
    · simp only
      split
      · rw [List.length_append]
        omega
      · exact h

theorem putValue_room (h : out.length + (newText k v text).length ≤ cap)
    (hnul : v.length ≠ 0 → k.type = .integer → out.length + (newText k v text).length < cap) :
    putValue cap k v out text = out ++ newText k v text := by
  rw [newText] at h hnul ⊢
  rw [putValue]
  by_cases hgiven : v.length = 0
  · rw [if_pos hgiven] at h ⊢
    rw [if_pos hgiven]
    exact outPuts_room h
  · rw [if_neg hgiven] at h hnul ⊢
    rw [if_neg hgiven]
    rcases htype : k.type with _ | _ | _ <;> rw [htype] at h hnul
    · exact outPuts_room h
    · exact outPuts_room h
    · have hroom := hnul hgiven rfl
      simp only at hroom ⊢
      rw [if_pos (by omega)]

theorem putValue_full (hgiven : v.length ≠ 0) (htype : k.type = .integer)
    (h : (putValue cap k v out text).length = out.length + (newText k v text).length) :
    out.length + (newText k v text).length < cap := by
  have hpos := integerText_pos v.integer
  rw [newText, if_neg hgiven, htype] at h ⊢
  rw [putValue, if_neg hgiven, htype] at h
  simp only at h ⊢
  split at h
  · omega
  · omega

theorem put_length (cap : Nat) (values : Nat → ParserKeyValue) (out : List UInt8) (l : Line) :
    (l.put cap values out).length ≤ out.length + (l.rewrite values).bytes.length := by
  rcases l with bytes | ⟨i, bytes⟩ | ⟨name, seps, i, k, text, after⟩
  · exact outPuts_length _ _ _
  · exact outPuts_length _ _ _
  · have hname := outPuts_length cap out name
    have hseps := outPuts_length cap (outPuts cap out name) seps
    have htext := putValue_length cap k (values i) (outPuts cap (outPuts cap out name) seps) text
    have hafter := outPuts_length cap
      (putValue cap k (values i) (outPuts cap (outPuts cap out name) seps) text) after
    simp only [Line.put, Line.rewrite, Line.bytes, List.length_append]
    omega

theorem put_bound (h : out.length ≤ cap) : (l.put cap values out).length ≤ cap := by
  rcases l with bytes | ⟨i, bytes⟩ | ⟨name, seps, i, k, text, after⟩
  · exact outPuts_bound h
  · exact outPuts_bound h
  · exact outPuts_bound (putValue_bound (outPuts_bound (outPuts_bound h)))

theorem put_fits (h : l.Fits cap values out.length) : l.put cap values out = out ++ (l.rewrite values).bytes := by
  rcases l with bytes | ⟨i, bytes⟩ | ⟨name, seps, i, k, text, after⟩
  · exact outPuts_room h
  · exact outPuts_room h
  · obtain ⟨hroom, hnul⟩ := h
    have hname : outPuts cap out name = out ++ name := outPuts_room (by omega)
    have hseps : outPuts cap (out ++ name) seps = out ++ name ++ seps :=
      outPuts_room (by rw [List.length_append]; omega)
    have hlen : (out ++ name ++ seps).length = out.length + (name.length + seps.length) := by
      rw [List.length_append, List.length_append, Nat.add_assoc]
    have htext : putValue cap k (values i) (out ++ name ++ seps) text =
        out ++ name ++ seps ++ newText k (values i) text := by
      apply putValue_room
      · omega
      · intro hgiven htype
        have hlt := hnul hgiven htype
        omega
    rw [Line.put, hname, hseps, htext, outPuts_room (by rw [List.length_append]; omega)]
    simp [Line.rewrite, Line.bytes]

theorem fits_of_length (h : out.length ≤ cap)
    (hlen : (l.put cap values out).length = out.length + (l.rewrite values).bytes.length) :
    l.Fits cap values out.length := by
  have hbound := @put_bound cap values out l h
  rcases l with bytes | ⟨i, bytes⟩ | ⟨name, seps, i, k, text, after⟩
  · rw [hlen] at hbound
    exact hbound
  · rw [hlen] at hbound
    exact hbound
  · have hname := outPuts_length cap out name
    have hseps := outPuts_length cap (outPuts cap out name) seps
    have htext := putValue_length cap k (values i) (outPuts cap (outPuts cap out name) seps) text
    have hafter := outPuts_length cap
      (putValue cap k (values i) (outPuts cap (outPuts cap out name) seps) text) after
    rw [hlen] at hbound
    simp only [Line.put, Line.rewrite, Line.bytes, List.length_append] at hlen hbound
    constructor
    · omega
    · intro hgiven htype
      have hlt := putValue_full hgiven htype (le_antisymm htext (by omega))
      omega

theorem puts_length (cap : Nat) (values : Nat → ParserKeyValue) (lines : List Line) (out : List UInt8) :
    (lines.foldl (Line.put cap values) out).length ≤
      out.length + (lines.flatMap fun l => (l.rewrite values).bytes).length := by
  induction lines generalizing out with
  | nil => exact Nat.le_refl _
  | cons l lines ih =>
    have hline := put_length cap values out l
    have hrest := ih (l.put cap values out)
    rw [List.foldl_cons, List.flatMap_cons, List.length_append]
    omega

theorem puts_eq_iff {lines : List Line} (h : out.length ≤ cap) :
    lines.foldl (Line.put cap values) out = out ++ lines.flatMap (fun l => (l.rewrite values).bytes) ↔
      LinesFit cap values out.length lines := by
  induction lines generalizing out with
  | nil => exact iff_of_true (List.append_nil out).symm trivial
  | cons l lines ih =>
    rw [List.foldl_cons, List.flatMap_cons, LinesFit]
    constructor
    · intro heq
      have hfit : l.Fits cap values out.length := by
        apply fits_of_length h
        have hlen := congrArg List.length heq
        have hline := put_length cap values out l
        have hrest := puts_length cap values lines (l.put cap values out)
        simp only [List.length_append] at hlen
        omega
      have hput := put_fits hfit
      have hbound := @put_bound cap values out l h
      rw [hput] at heq hbound
      rw [← List.append_assoc] at heq
      rw [← List.length_append]
      exact ⟨hfit, (ih hbound).mp heq⟩
    · rintro ⟨hfit, hrest⟩
      have hput := put_fits hfit
      have hbound := @put_bound cap values out l h
      rw [hput] at hbound ⊢
      rw [← List.length_append] at hrest
      rw [(ih hbound).mpr hrest, List.append_assoc]

end Fits

/-! ### Keys that are words -/

def WordKeys (keys : List ParserKey) : Prop := ∀ k ∈ keys, ∀ c ∈ k.key, endsKey c = false

def wordByte (c : UInt8) : Bool := !endsKey c

section Words

variable {keys : List ParserKey} {a b x r : List UInt8} {p : UInt8 → Bool} {i : Nat} {k : ParserKey}

theorem endsKey_tolower : ∀ c, endsKey (tolower c) = endsKey c := forall_byte (by decide +kernel)

theorem localstrcasecmp_word {key : List UInt8} (hkey : ∀ c ∈ key, endsKey c = false) (r : List UInt8) :
    localstrcasecmp key r = localstrcasecmp key (r.takeWhile wordByte) := by
  induction key generalizing r with
  | nil =>
    rcases r with _ | ⟨c, r⟩
    · rfl
    · rw [List.takeWhile_cons, wordByte, localstrcasecmp]
      rcases hends : endsKey c with _ | _
      · exact hends.symm
      · rfl
  | cons d key ih =>
    rcases r with _ | ⟨c, r⟩
    · rfl
    · rw [List.takeWhile_cons, wordByte]
      rcases hends : endsKey c with _ | _
      · rw [Bool.not_false, if_pos rfl, localstrcasecmp, localstrcasecmp,
          ih fun e he => hkey e (List.mem_cons_of_mem d he)]
      · have hne : (tolower d == tolower c) = false := by
          rw [beq_eq_false_iff_ne]
          intro heq
          have hd := hkey d List.mem_cons_self
          rw [← endsKey_tolower, heq, endsKey_tolower, hends] at hd
          exact Bool.noConfusion hd
        rw [localstrcasecmp, hne]
        rfl

theorem takeWhile_stops (ha : Stops p a) (hb : Stops p b) (x : List UInt8) :
    (x ++ a).takeWhile p = (x ++ b).takeWhile p := by
  rw [List.takeWhile_append, List.takeWhile_append, ha.takeWhile, hb.takeWhile]

theorem findindex_word (hwords : WordKeys keys) (ha : Stops wordByte a) (hb : Stops wordByte b)
    (x : List UInt8) : parseFindindex keys (x ++ a) = parseFindindex keys (x ++ b) := by
  rw [parseFindindex, parseFindindex]
  induction keys with
  | nil => rfl
  | cons k keys ih =>
    have hword := hwords k List.mem_cons_self
    have hmatch : localstrcasecmp k.key (x ++ a) = localstrcasecmp k.key (x ++ b) := by
      rw [localstrcasecmp_word hword, takeWhile_stops ha hb x, ← localstrcasecmp_word hword]
    rw [List.findIdx?_cons, List.findIdx?_cons, hmatch, ih fun k' hk' => hwords k' (List.mem_cons_of_mem k hk')]

theorem Keyed.congr {word : List UInt8} (h : Keyed keys (word ++ a) i k word) (hwords : WordKeys keys)
    (ha : Stops wordByte a) (hb : Stops wordByte b) (hhead : (word ++ a).head? = (word ++ b).head?) :
    Keyed keys (word ++ b) i k word := by
  obtain ⟨⟨c, hc, hline⟩, hfound, hkey, hlength⟩ := h
  exact ⟨⟨c, hhead.symm.trans hc, hline⟩, (findindex_word hwords ha hb word).symm.trans hfound, hkey, hlength⟩

theorem AtEol.stopsWord (h : AtEol r) : Stops wordByte r := by
  intro c hc
  have heol := h c hc
  rw [notEol, Bool.not_eq_false'] at heol
  rw [wordByte, endsKey, heol, Bool.or_true, Bool.true_or, Bool.true_or]
  rfl

theorem separator_endsKey {c : UInt8} (h : isSeparator c = true) : wordByte c = false := by
  rw [wordByte, endsKey, h, Bool.or_true, Bool.true_or]
  rfl

theorem BareTail.stopsWord {seps tail rest : List UInt8} (h : BareTail tail rest)
    (hseps : ∀ c ∈ seps, isSeparator c = true) : Stops wordByte (seps ++ (tail ++ rest)) := by
  apply Stops.append
  · intro c hc
    exact separator_endsKey (hseps c (List.mem_of_head? hc))
  · rintro rfl
    rcases h with ⟨rfl, rfl⟩ | ⟨hhead, -, -⟩ | ⟨c, rfl, heol⟩
    · exact stops_nil
    · apply Stops.append
      · intro c hc
        obtain rfl := Option.some.inj (hhead.symm.trans hc)
        rfl
      · rintro rfl
        exact absurd hhead (by nofun)
    · intro d hd
      obtain rfl := Option.some.inj hd
      exact AtEol.stopsWord (r := [c]) (fun e he => by
        obtain rfl := Option.some.inj he
        rw [notEol, heol]
        rfl) c rfl

theorem head?_append_congr (x : List UInt8) (h : a.head? = b.head?) : (x ++ a).head? = (x ++ b).head? := by
  rw [List.head?_append, List.head?_append, h]

end Words

/-! ### The texts that are written -/

def ValueFits (k : ParserKey) (v : ParserKeyValue) : Prop :=
  match k.type with
  | .numString => v.length ≤ v.string.length ∧ (v.length : Int) ≤ k.max
  | .string =>
      (v.length ≤ v.string.length ∧ (v.length : Int) ≤ k.max) ∧
        Starts valueByte (v.string.take v.length) ∧ ∀ c ∈ v.string.take v.length, strByte c = true
  | .integer => -0x80000000 ≤ v.integer ∧ v.integer ≤ 0x7FFFFFFF

section Texts

variable {k : ParserKey} {v : ParserKeyValue} {bytes text : List UInt8}

theorem nibbleText_hex : ∀ c : UInt8, isHexDigit (nibbleText (c >>> 4 &&& 0x0F)) = true ∧
    isHexDigit (nibbleText (c &&& 0x0F)) = true ∧
    hexDigit (nibbleText (c >>> 4 &&& 0x0F)) <<< 4 ||| hexDigit (nibbleText (c &&& 0x0F)) = c :=
  forall_byte (by decide +kernel)

theorem hexDigit_bytes : ∀ c : UInt8, isHexDigit c = true →
    numByte c = true ∧ strByte c = true ∧ valueByte c = true ∧ isSpace c = false ∧ c ≠ 0x2D ∧ c ≠ 0x2B ∧
      c ≠ 0x78 ∧ c ≠ 0x58 := forall_byte (by decide +kernel)

theorem hexText_hex (bytes : List UInt8) : ∀ c ∈ hexText bytes, isHexDigit c = true := by
  intro c hc
  obtain ⟨b, -, hb⟩ := List.mem_flatMap.mp hc
  obtain ⟨hhi, hlo, -⟩ := nibbleText_hex b
  rcases List.mem_cons.mp hb with rfl | hb
  · exact hhi
  · rw [List.mem_singleton] at hb
    rw [hb]
    exact hlo

theorem hexText_length (bytes : List UInt8) : (hexText bytes).length = 2 * bytes.length := by
  induction bytes with
  | nil => rfl
  | cons b bytes ih =>
    rw [hexText, List.flatMap_cons, List.length_append, List.length_cons, ← hexText, ih]
    exact Nat.add_comm 2 _

theorem starts_of_all {p : UInt8 → Bool} (hall : ∀ c ∈ bytes, p c = true) (hne : bytes ≠ []) :
    Starts p bytes := by
  rcases bytes with _ | ⟨c, bytes⟩
  · exact absurd rfl hne
  · exact ⟨c, rfl, hall c List.mem_cons_self⟩

theorem digitsText_step (n : Nat) :
    digitsText n = if n < 10 then [UInt8.ofNat (0x30 + n)] else digitsText (n / 10) ++ [UInt8.ofNat (0x30 + n % 10)] := by
  have hchar : ∀ d < 10, UInt8.ofNat (Nat.digitChar d).toNat = UInt8.ofNat (0x30 + d) := by decide
  rw [digitsText, Nat.toDigits_eq_if (by decide)]
  split
  next hlt => exact congrArg (fun c => [c]) (hchar n hlt)
  next =>
    rw [List.map_append, digitsText]
    exact congrArg (fun c => _ ++ [c]) (hchar (n % 10) (Nat.mod_lt n (by decide)))

theorem digit_bytes : ∀ d < 10, isHexDigit (UInt8.ofNat (0x30 + d)) = true ∧
    (hexDigit (UInt8.ofNat (0x30 + d))).toNat = d ∧ (UInt8.ofNat (0x30 + d) = 0x30 → d = 0) := by decide

theorem digitsText_hex (n : Nat) : ∀ c ∈ digitsText n, isHexDigit c = true := by
  induction n using Nat.strong_induction_on with
  | h n ih =>
    intro c hc
    rw [digitsText_step] at hc
    split at hc
    next hlt =>
      rw [List.mem_singleton] at hc
      rw [hc]
      exact (digit_bytes n hlt).1
    next hge =>
      rcases List.mem_append.mp hc with hc | hc
      · exact ih (n / 10) (Nat.div_lt_self (by omega) (by decide)) c hc
      · rw [List.mem_singleton] at hc
        rw [hc]
        exact (digit_bytes (n % 10) (Nat.mod_lt n (by decide))).1

theorem digitsText_ne_nil (n : Nat) : digitsText n ≠ [] := List.length_pos_iff.mp (integerText_pos n)

theorem integerText_bytes (n : Int) :
    Starts valueByte (integerText n) ∧ ∀ c ∈ integerText n, strByte c = true := by
  rcases n with n | n
  · have hall := digitsText_hex n
    refine ⟨starts_of_all (fun c hc => (hexDigit_bytes c (hall c hc)).2.2.1) (digitsText_ne_nil n), ?_⟩
    exact fun c hc => (hexDigit_bytes c (hall c hc)).2.1
  · refine ⟨⟨0x2D, rfl, rfl⟩, fun c hc => ?_⟩
    rcases List.mem_cons.mp hc with rfl | hc
    · rfl
    · exact (hexDigit_bytes c (digitsText_hex (n + 1) c hc)).2.1

theorem newText_bytes (hgiven : v.length ≠ 0) (hfit : ValueFits k v) (text : List UInt8) :
    Starts valueByte (newText k v text) ∧ ∀ c ∈ newText k v text, textByte k c = true := by
  rw [newText, if_neg hgiven, textByte]
  rw [ValueFits] at hfit
  revert hfit
  rcases k.type with _ | _ | _
  · intro hfit
    have hall := hexText_hex (v.string.take v.length)
    have hne : hexText (v.string.take v.length) ≠ [] := by
      apply List.length_pos_iff.mp
      rw [hexText_length, List.length_take_of_le hfit.1]
      omega
    refine ⟨starts_of_all (fun c hc => (hexDigit_bytes c (hall c hc)).2.2.1) hne, ?_⟩
    exact fun c hc => (hexDigit_bytes c (hall c hc)).1
  · exact fun hfit => hfit.2
  · exact fun _ => integerText_bytes v.integer

end Texts

/-! ### The lines of the new file -/

def Line.Apart : Line → Prop
  | field _ seps _ _ _ _ => seps ≠ []
  | _ => True

def ValuesFit (keys : List ParserKey) (values : Nat → ParserKeyValue) : Prop :=
  ∀ i k, keys[i]? = some k → (values i).length ≠ 0 → ValueFits k (values i)

section NewLines

variable {keys : List ParserKey} {values : Nat → ParserKeyValue} {rest rest' new : List UInt8} {l : Line}

theorem head?_append_first {x a b : List UInt8} (h : x ≠ []) : (x ++ a).head? = (x ++ b).head? := by
  rcases x with _ | ⟨c, x⟩
  · exact absurd rfl h
  · rfl

theorem Next.head? (h : Next keys rest l rest') (hapart : l.Apart) (hne : rest ≠ []) :
    ((l.rewrite values).bytes ++ new).head? = rest.head? := by
  have hbytes := h.bytes
  have hlt := h.shorter hne
  have hfirst : l.bytes ≠ [] := by
    intro hnil
    rw [hnil, List.nil_append] at hbytes
    rw [hbytes] at hlt
    exact Nat.lt_irrefl _ hlt
  rw [← hbytes]
  rcases l with bytes | ⟨i, bytes⟩ | ⟨name, seps, i, k, text, after⟩
  · exact head?_append_first hfirst
  · exact head?_append_first hfirst
  · simp only [Line.rewrite, Line.bytes, List.append_assoc]
    exact head?_append_congr name (head?_append_first hapart)

theorem Next.rewrite (h : Next keys rest l rest') (hwords : WordKeys keys) (hvalues : ValuesFit keys values)
    (hapart : l.Apart) (hhead : new.head? = rest'.head?) :
    Next keys ((l.rewrite values).bytes ++ new) (l.rewrite values) new := by
  have hnil : rest' = [] → new = [] := by
    rintro rfl
    exact List.head?_eq_none_iff.mp hhead
  have heol : AtEol rest' → AtEol new := fun h => h.congr hhead.symm
  cases h with
  | blank _ hbl =>
    obtain rfl := hnil rfl
    rw [Line.rewrite, Line.bytes, List.append_nil]
    exact .blank _ hbl
  | skip bl body _ hbl hskip hline hend =>
    have hend' := heol hend
    rw [Line.rewrite, Line.bytes, List.append_assoc]
    refine .skip bl body new hbl (hskip.imp_right fun hboth => ⟨hboth.1, ?_⟩) hline hend'
    rw [findindex_word hwords hend'.stopsWord hend.stopsWord]
    exact hboth.2
  | bare bl word seps tail _ i k hbl hkey hseps htail =>
    have htail' : BareTail tail new := by
      rcases htail with ⟨rfl, hrest⟩ | ⟨hcomment, hline, hend⟩ | hlast
      · exact .inl ⟨rfl, hnil hrest⟩
      · exact .inr (.inl ⟨hcomment, hline, heol hend⟩)
      · exact .inr (.inr hlast)
    have hkey' := hkey.congr hwords (htail.stopsWord hseps) (htail'.stopsWord hseps)
      (head?_append_congr word (head?_append_congr seps (head?_append_congr tail hhead.symm)))
    have hall := Next.bare bl word seps tail new i k hbl hkey' hseps htail'
    simp only [Line.rewrite, Line.bytes, List.append_assoc]
    simp only [List.append_assoc] at hall
    exact hall
  | field bl word seps text after _ i k hbl hkey hseps hfirst htext hstop hafter hend =>
    have hsep : ∀ r, Stops wordByte (seps ++ r) := by
      intro r c hc
      rw [head?_append_first (b := []) hapart, List.append_nil] at hc
      exact separator_endsKey (hseps c (List.mem_of_head? hc))
    have hkey' := hkey.congr hwords (hsep _) (hsep (newText k (values i) text ++ (after ++ new)))
      (head?_append_congr word (head?_append_first hapart))
    have hstop' : Stops (textByte k) (after ++ new) :=
      hstop.congr (head?_append_congr after hhead.symm)
    have hnew : Starts valueByte (newText k (values i) text ++ (after ++ new)) ∧
        ∀ c ∈ newText k (values i) text, textByte k c = true := by
      by_cases hgiven : (values i).length = 0
      · rw [newText, if_pos hgiven]
        obtain ⟨c, hc, hvalue⟩ := hfirst
        refine ⟨⟨c, ?_, hvalue⟩, htext⟩
        rw [head?_append_congr text (head?_append_congr after hhead)]
        exact hc
      · obtain ⟨hfirst', htext'⟩ := newText_bytes hgiven (hvalues i k hkey.key hgiven) text
        exact ⟨hfirst'.append _, htext'⟩
    have hall := Next.field bl word seps (newText k (values i) text) after new i k hbl hkey' hseps hnew.1
      hnew.2 hstop' hafter (heol hend)
    simp only [Line.rewrite, Line.bytes, List.append_assoc]
    exact hall

theorem rewritten_next (h : Next keys rest l rest') (hne : rest ≠ []) :
    rewritten keys values rest = (l.rewrite values).bytes ++ rewritten keys values rest' := by
  rw [rewritten, fileLines_next h hne, List.flatMap_cons]
  rfl

theorem rewritten_head? {file : List UInt8} (hapart : ∀ l ∈ fileLines keys file, l.Apart) :
    (rewritten keys values file).head? = file.head? := by
  by_cases hne : file = []
  · obtain rfl := hne
    rfl
  · have hcut := nextLine_next keys file
    rw [fileLines_next hcut hne] at hapart
    rw [rewritten_next hcut hne]
    exact hcut.head? (hapart _ List.mem_cons_self) hne

theorem fileLines_rewritten (hwords : WordKeys keys) (hvalues : ValuesFit keys values) {file : List UInt8}
    (hapart : ∀ l ∈ fileLines keys file, l.Apart) :
    fileLines keys (rewritten keys values file) = (fileLines keys file).map (Line.rewrite values) := by
  induction file using file_induction keys with
  | hnil => rfl
  | hnext rest l rest' hne hcut ih =>
    rw [fileLines_next hcut hne] at hapart ⊢
    have hrest := ih fun l' hl' => hapart l' (List.mem_cons_of_mem l hl')
    have hhead := @rewritten_head? keys values rest' fun l' hl' => hapart l' (List.mem_cons_of_mem l hl')
    have hl := hapart l List.mem_cons_self
    have hnew := hcut.rewrite hwords hvalues hl hhead
    have hstarts := @Next.head? keys values _ _ (rewritten keys values rest') _ hcut hl hne
    rw [rewritten_next hcut hne, List.map_cons, ← hrest]
    apply fileLines_next hnew
    intro hnil
    rw [hnil] at hstarts
    exact hne (List.head?_eq_none_iff.mp hstarts.symm)

end NewLines

/-! ### Reading the new texts -/

def Reread (k : ParserKey) (v w : ParserKeyValue) : Prop :=
  match k.type with
  | .integer => w.length ≠ 0 ∧ w.integer = clamp k v.integer
  | _ => w.length = v.length ∧ w.string.take w.length = v.string.take v.length

section Reading

variable {k : ParserKey} {v w : ParserKeyValue} {bytes text rest : List UInt8}

theorem numStrlen_hex (hall : ∀ c ∈ bytes, isHexDigit c = true) (hstop : Stops numByte rest) (n : Nat) :
    numStrlen n 0 (bytes ++ rest) = (n + bytes.length, 0) := by
  induction bytes generalizing n with
  | nil =>
    rcases rest with _ | ⟨c, rest⟩
    · rfl
    · rw [List.nil_append, numStrlen, hstop c rfl]
      rfl
  | cons c bytes ih =>
    have hc := hall c List.mem_cons_self
    rw [List.cons_append, numStrlen, (hexDigit_bytes c hc).1, if_pos rfl, if_pos hc,
      ih (fun d hd => hall d (List.mem_cons_of_mem c hd)), List.length_cons, Nat.add_assoc, Nat.add_comm 1]

theorem hexBytes_hexText (bytes rest : List UInt8) : hexBytes bytes.length (hexText bytes ++ rest) = bytes := by
  induction bytes with
  | nil => rfl
  | cons b bytes ih =>
    have hb := (nibbleText_hex b).2.2
    rw [hexText, List.flatMap_cons, List.length_cons, ← hexText]
    simp only [List.cons_append, List.nil_append, hexBytes, hb, ih]

theorem readNumString_hexText (hmax : (bytes.length : Int) ≤ k.max) (hstop : Stops numByte rest) :
    (readNumString k w (hexText bytes ++ rest)).length = bytes.length ∧
      (readNumString k w (hexText bytes ++ rest)).string.take bytes.length = bytes := by
  have hlen : parseNumstrlen (hexText bytes ++ rest) = ((hexText bytes).length, 0) := by
    rw [parseNumstrlen, numStrlen_hex (hexText_hex bytes) hstop, Nat.zero_add]
  have hdigits : paddedDigits (hexText bytes ++ rest) = hexText bytes := by
    rw [paddedDigits, hlen]
    have hplain : ¬(0 : Int) = 1 := by decide
    simp only [List.take_left, if_neg hplain]
    rw [if_neg (by rw [hexText_length]; omega)]
  have hbytes := hexBytes_hexText bytes []
  rw [List.append_nil] at hbytes
  have hmin : min ((hexText bytes).length / 2) k.max.toNat = bytes.length := by
    rw [hexText_length]
    omega
  rw [readNumString, if_neg (by rw [hlen]; omega)]
  simp only [hdigits, hmin, hbytes]
  exact ⟨trivial, List.take_left⟩

theorem readString_text (hmax : (bytes.length : Int) ≤ k.max) (hall : ∀ c ∈ bytes, strByte c = true)
    (hstop : Stops strByte rest) :
    (readString k w (bytes ++ rest)).length = bytes.length ∧
      (readString k w (bytes ++ rest)).string.take bytes.length = bytes := by
  have hlen : parseStrlen (bytes ++ rest) = bytes.length := by rw [parseStrlen, takeWhile_run hall hstop]
  rw [readString]
  simp only [hlen]
  rw [if_neg (by omega), List.take_left, List.take_length]
  exact ⟨rfl, rfl⟩

theorem digitsOf_digitsText (n : Nat) (rest : List UInt8) :
    digitsOf 10 0 (digitsText n ++ rest) = digitsOf 10 n rest := by
  have hdigit : ∀ acc, ∀ d < 10, ∀ r, digitsOf 10 acc (UInt8.ofNat (0x30 + d) :: r) = digitsOf 10 (acc * 10 + d) r := by
    intro acc d hd r
    obtain ⟨hhex, hvalue, -⟩ := digit_bytes d hd
    rw [digitsOf, digitValue, if_pos hhex]
    simp only [hvalue]
    rw [if_pos hd]
  induction n using Nat.strong_induction_on generalizing rest with
  | h n ih =>
    rw [digitsText_step]
    split
    next hlt => rw [List.singleton_append, hdigit 0 n hlt, Nat.zero_mul, Nat.zero_add]
    next hge =>
      rw [List.append_assoc, ih (n / 10) (Nat.div_lt_self (by omega) (by decide)), List.singleton_append,
        hdigit _ (n % 10) (Nat.mod_lt n (by decide)), Nat.mul_comm, Nat.div_add_mod]

theorem strByte_digit : ∀ c, strByte c = false → digitValue c = none ∧ c ≠ 0x78 ∧ c ≠ 0x58 :=
  forall_byte (by decide +kernel)

theorem digitsOf_stops (hstop : Stops strByte rest) (base n : Nat) : digitsOf base n rest = n := by
  rcases rest with _ | ⟨c, rest⟩
  · rfl
  · rw [digitsOf, (strByte_digit c (hstop c rfl)).1]

theorem digitsText_first (n : Nat) (hpos : 0 < n) : ∃ c text, digitsText n = c :: text ∧ c ≠ 0x30 := by
  induction n using Nat.strong_induction_on with
  | h n ih =>
    rw [digitsText_step]
    split
    next hlt =>
      refine ⟨_, [], rfl, fun hzero => ?_⟩
      exact absurd ((digit_bytes n hlt).2.2 hzero) (by omega)
    next hge =>
      obtain ⟨c, text, htext, hc⟩ := ih (n / 10) (Nat.div_lt_self hpos (by decide)) (by omega)
      rw [htext]
      exact ⟨c, _, rfl, hc⟩

theorem unsignedOf_digitsText (hstop : Stops strByte rest) (n : Nat) : unsignedOf (digitsText n ++ rest) = n := by
  by_cases hpos : 0 < n
  · have hdigits := digitsOf_digitsText n rest
    rw [digitsOf_stops hstop] at hdigits
    obtain ⟨c, text, htext, hc⟩ := digitsText_first n hpos
    rw [htext, List.cons_append] at hdigits ⊢
    rw [unsignedOf]
    · exact hdigits
    · intro _ _ _ heq
      exact hc (List.cons.inj heq).1
    · intro _ heq
      exact hc (List.cons.inj heq).1
  · obtain rfl : n = 0 := by omega
    have hzero : digitsText 0 = [0x30] := by decide
    rw [hzero, List.singleton_append]
    rcases rest with _ | ⟨x, _ | ⟨d, rest⟩⟩
    · rfl
    · rw [unsignedOf]
      · exact digitsOf_stops hstop 8 0
      · nofun
    · obtain ⟨-, hx, hX⟩ := strByte_digit x (hstop x rfl)
      rw [unsignedOf, if_neg fun h => h.1.elim hx hX]
      exact digitsOf_stops hstop 8 0

theorem strtol_integerText (hstop : Stops strByte rest) {n : Int} (hlow : -0x80000000 ≤ n)
    (hhigh : n ≤ 0x7FFFFFFF) : strtol (integerText n ++ rest) = n := by
  have hunsigned := unsignedOf_digitsText hstop
  rcases n with n | n
  · obtain ⟨c, text, htext⟩ := List.exists_cons_of_ne_nil (digitsText_ne_nil n)
    have hc := digitsText_hex n c (by rw [htext]; exact List.mem_cons_self)
    obtain ⟨-, -, -, hspace, hminus, hplus, -⟩ := hexDigit_bytes c hc
    have hn := hunsigned n
    rw [integerText, strtol]
    rw [htext, List.cons_append] at hn ⊢
    rw [List.dropWhile_cons, hspace]
    simp only [Bool.false_eq_true, if_false]
    split
    next heq => exact absurd (List.cons.inj heq).1 hminus
    next heq => exact absurd (List.cons.inj heq).1 hplus
    next =>
      rw [hn]
      exact min_eq_right hhigh
  · have hn := hunsigned (n + 1)
    rw [integerText, strtol, List.cons_append, List.dropWhile_cons, if_neg (by decide)]
    simp only [hn]
    rw [max_eq_right]
    · rfl
    · exact hlow

theorem readValue_newText (hgiven : v.length ≠ 0) (hfit : ValueFits k v) (hstop : Stops (textByte k) rest)
    (text : List UInt8) : Reread k v (readValue k w (newText k v text ++ rest)) := by
  rw [ValueFits] at hfit
  rw [textByte] at hstop
  rw [Reread, readValue, newText, if_neg hgiven]
  revert hfit hstop
  rcases k.type with _ | _ | _
  · rintro ⟨hlen, hmax⟩ hstop
    have htake := List.length_take_of_le hlen
    have hread := @readNumString_hexText k w (v.string.take v.length) rest
      (by rw [htake]; exact hmax) hstop
    simp only
    rw [hread.1, htake]
    rw [htake] at hread
    exact ⟨rfl, hread.2⟩
  · rintro ⟨⟨hlen, hmax⟩, -, hall⟩ hstop
    have htake := List.length_take_of_le hlen
    have hread := @readString_text k w (v.string.take v.length) rest
      (by rw [htake]; exact hmax) hall hstop
    simp only
    rw [hread.1, htake]
    rw [htake] at hread
    exact ⟨rfl, hread.2⟩
  · rintro ⟨hlow, hhigh⟩ hstop
    refine ⟨Nat.one_ne_zero, ?_⟩
    rw [readInteger]
    exact congrArg (clamp k) (strtol_integerText hstop hlow hhigh)

end Reading

/-! ### The round trip -/

def Line.Names (i : Nat) : Line → Prop
  | plain _ => False
  | bare j _ => j = i
  | field _ _ j _ _ _ => j = i

def Line.HasText (i : Nat) : Line → Prop
  | field _ _ j _ _ _ => j = i
  | _ => False

def Yields (k : ParserKey) (v w : ParserKeyValue) : Prop :=
  match k.type with
  | .integer => w.length ≠ 0 ∧ w.integer = v.integer
  | _ => w.length = v.length ∧ w.string.take w.length = v.string.take v.length

/-- Values are written into a file: nothing but the texts of these values changes, and for the keys that the
file names what is written is read again. -/
def RoundTrip (keys : List ParserKey) (values : Nat → ParserKeyValue) (file : List UInt8) : Prop :=
  ∃ out, parseReadfile file.length keys values true file = some ⟨1, values, some out⟩ ∧
    out = rewritten keys values file ∧
    ∃ read, parseReadfile out.length keys (fun _ => {}) false out = some ⟨1, read, none⟩ ∧
      ∀ i k, keys[i]? = some k → (∃ l ∈ fileLines keys file, l.Names i) → (values i).length ≠ 0 →
        Yields k (values i) (read i)

section RoundTrip

variable {keys : List ParserKey} {values vals : Nat → ParserKeyValue} {file : List UInt8} {i : Nat}
  {k : ParserKey}

theorem Next.field_stops {rest rest' name seps text after : List UInt8}
    (h : Next keys rest (.field name seps i k text after) rest') :
    keys[i]? = some k ∧ Stops (textByte k) (after ++ rest') := by
  cases h with
  | field bl word _ _ _ _ _ _ _ hkey _ _ _ hstop _ _ => exact ⟨hkey.key, hstop⟩

theorem readLines_rewritten (hwords : WordKeys keys) (hvalues : ValuesFit keys values)
    (hapart : ∀ l ∈ fileLines keys file, l.Apart) (hkey : keys[i]? = some k) (hgiven : (values i).length ≠ 0) :
    ((∀ l ∈ fileLines keys file, ¬l.HasText i) →
        readLines vals (fileLines keys (rewritten keys values file)) i = vals i) ∧
      ((∃ l ∈ fileLines keys file, l.HasText i) →
        Reread k (values i) (readLines vals (fileLines keys (rewritten keys values file)) i)) := by
  induction file using file_induction keys generalizing vals with
  | hnil => exact ⟨fun _ => rfl, fun ⟨l, hl, _⟩ => absurd hl List.not_mem_nil⟩
  | hnext rest l rest' hne hcut ih =>
    rw [fileLines_rewritten hwords hvalues hapart]
    rw [fileLines_next hcut hne] at hapart ⊢
    have htail : ∀ l' ∈ fileLines keys rest', l'.Apart := fun l' hl' => hapart l' (List.mem_cons_of_mem l hl')
    have hl := hapart l List.mem_cons_self
    have hnew := hcut.rewrite hwords hvalues hl (@rewritten_head? keys values rest' htail)
    have hbytes := fileLines_bytes keys (rewritten keys values rest')
    have hrest := @ih ((l.rewrite values).read vals (rewritten keys values rest')) htail
    rw [fileLines_rewritten hwords hvalues htail] at hbytes hrest
    obtain ⟨hnone, hsome⟩ := hrest
    rw [List.map_cons, readLines, hbytes]
    -- the value after the first line
    have hfirst : (¬l.HasText i → (l.rewrite values).read vals (rewritten keys values rest') i = vals i) ∧
        (l.HasText i → Reread k (values i) ((l.rewrite values).read vals (rewritten keys values rest') i)) := by
      rcases l with bytes | ⟨j, bytes⟩ | ⟨name, seps, j, k', text, after⟩
      · exact ⟨fun _ => rfl, False.elim⟩
      · exact ⟨fun _ => rfl, False.elim⟩
      · constructor
        · intro hother
          exact Function.update_of_ne (Ne.symm hother) _ _
        · rintro rfl
          obtain ⟨hkey', hstop⟩ := hnew.field_stops
          obtain rfl := Option.some.inj (hkey'.symm.trans hkey)
          rw [Line.rewrite, Line.read, Function.update_self]
          exact readValue_newText hgiven (hvalues j _ hkey hgiven) hstop text
    constructor
    · intro hall
      rw [hnone fun l' hl' => hall l' (List.mem_cons_of_mem l hl')]
      exact hfirst.1 (hall l List.mem_cons_self)
    · rintro ⟨l', hl', htext⟩
      by_cases hlater : ∃ l' ∈ fileLines keys rest', l'.HasText i
      · exact hsome hlater
      · rw [hnone fun l' hl' htext' => hlater ⟨l', hl', htext'⟩]
        rcases List.mem_cons.mp hl' with rfl | hl'
        · exact hfirst.2 htext
        · exact absurd ⟨l', hl', htext⟩ hlater

theorem parseReadfile_write (hne : file ≠ []) (hsize : file.length ≤ PARSE_MAX_FILE_SIZE) :
    parseReadfile file.length keys values true file =
      some ⟨1, values, some ((fileLines keys file).foldl (Line.put (4 * file.length) values) [])⟩ := by
  have hloop := @parseLoop_write (4 * file.length) keys file.length ⟨file, [], values⟩ (Nat.le_refl _)
  rw [parseReadfile, if_neg (not_or.mpr ⟨hne, Nat.not_lt.mpr hsize⟩), hloop]
  rfl

theorem parseReadfile_read (hne : file ≠ []) (hsize : file.length ≤ PARSE_MAX_FILE_SIZE) :
    parseReadfile file.length keys vals false file = some ⟨1, readLines vals (fileLines keys file), none⟩ := by
  obtain ⟨out, hloop⟩ := @parseLoop_read (4 * file.length) keys file.length ⟨file, [], vals⟩ (Nat.le_refl _)
  rw [parseReadfile, if_neg (not_or.mpr ⟨hne, Nat.not_lt.mpr hsize⟩), hloop]
  rfl

theorem yields_iff {w : ParserKeyValue} (h : Reread k (values i) w) :
    Yields k (values i) w ↔ (k.type = .integer → clamp k (values i).integer = (values i).integer) := by
  rw [Reread] at h
  rw [Yields]
  revert h
  rcases k.type with _ | _ | _
  · exact fun h => iff_of_true h nofun
  · exact fun h => iff_of_true h nofun
  · rintro ⟨hlen, hinteger⟩
    simp only
    rw [hinteger]
    exact ⟨fun h _ => h.2, fun h => ⟨hlen, h trivial⟩⟩

theorem not_yields_unread (hgiven : (values i).length ≠ 0) : ¬Yields k (values i) {} := by
  rw [Yields]
  rcases k.type with _ | _ | _
  · exact fun h => hgiven h.1.symm
  · exact fun h => hgiven h.1.symm
  · exact fun h => absurd (show ({} : ParserKeyValue).length = 0 from rfl) h.1

/-- A file of the keys' words can always be written, and its lines are the whole of it.  What was written
is as wanted and gives the values back exactly if every line finds room in the buffer, the new file is not
too large, every key that the file names has a text somewhere in it, and a number is within its range. -/
theorem round_trip_iff (keys : List ParserKey) (values : Nat → ParserKeyValue) (file : List UInt8)
    (hne : file ≠ []) (hsize : file.length ≤ PARSE_MAX_FILE_SIZE) (hwords : WordKeys keys)
    (hvalues : ValuesFit keys values) (hapart : ∀ l ∈ fileLines keys file, l.Apart) :
    (∃ out, parseReadfile file.length keys values true file = some ⟨1, values, some out⟩) ∧
      (fileLines keys file).flatMap Line.bytes = file ∧
      (RoundTrip keys values file ↔
        LinesFit (4 * file.length) values 0 (fileLines keys file) ∧
          (rewritten keys values file).length ≤ PARSE_MAX_FILE_SIZE ∧
          ∀ i k, keys[i]? = some k → (∃ l ∈ fileLines keys file, l.Names i) → (values i).length ≠ 0 →
            (∃ l ∈ fileLines keys file, l.HasText i) ∧
              (k.type = .integer → clamp k (values i).integer = (values i).integer)) := by
  have hwrite := @parseReadfile_write keys values file hne hsize
  have hputs := @puts_eq_iff (4 * file.length) values [] (fileLines keys file) (Nat.zero_le _)
  rw [List.nil_append] at hputs
  have hne' : rewritten keys values file ≠ [] := by
    intro hnil
    have hhead := @rewritten_head? keys values file hapart
    rw [hnil] at hhead
    exact hne (List.head?_eq_none_iff.mp hhead.symm)
  -- a key that was given and is named is read back if it has a text
  have hvalue : ∀ i k, keys[i]? = some k → (values i).length ≠ 0 →
      (Yields k (values i) (readLines (fun _ => {}) (fileLines keys (rewritten keys values file)) i) ↔
        (∃ l ∈ fileLines keys file, l.HasText i) ∧
          (k.type = .integer → clamp k (values i).integer = (values i).integer)) := by
    intro i k hkey hgiven
    obtain ⟨hnone, hsome⟩ := @readLines_rewritten keys values (fun _ => {}) file i k hwords hvalues hapart hkey hgiven
    by_cases htext : ∃ l ∈ fileLines keys file, l.HasText i
    · rw [yields_iff (hsome htext)]
      exact ⟨fun h => ⟨htext, h⟩, fun h => h.2⟩
    · rw [hnone fun l hl h => htext ⟨l, hl, h⟩]
      exact iff_of_false (not_yields_unread hgiven) fun h => htext h.1
  refine ⟨⟨_, hwrite⟩, fileLines_bytes keys file, ?_, ?_⟩
  · rintro ⟨out, hout, rfl, read, hread, hyields⟩
    have hfits : LinesFit (4 * file.length) values 0 (fileLines keys file) := by
      rw [hwrite] at hout
      exact hputs.mp (Option.some.inj (congrArg Parsed.written (Option.some.inj hout)))
    have hsize' : (rewritten keys values file).length ≤ PARSE_MAX_FILE_SIZE := by
      apply Nat.le_of_not_lt
      intro hlarge
      rw [parseReadfile, if_pos (.inr hlarge)] at hread
      exact absurd (congrArg Parsed.result (Option.some.inj hread)) (show (0 : Int) ≠ 1 by decide)
    refine ⟨hfits, hsize', fun i k hkey hnames hgiven => ?_⟩
    rw [parseReadfile_read hne' hsize'] at hread
    obtain rfl := congrArg Parsed.values (Option.some.inj hread)
    exact (hvalue i k hkey hgiven).mp (hyields i k hkey hnames hgiven)
  · rintro ⟨hfits, hsize', hgood⟩
    refine ⟨rewritten keys values file, ?_, rfl, _, parseReadfile_read hne' hsize', ?_⟩
    · rw [hwrite, hputs.mpr hfits]
      rfl
    · intro i k hkey hnames hgiven
      exact (hvalue i k hkey hgiven).mpr (hgood i k hkey hnames hgiven)

end RoundTrip

section Examples

def titleKey : ParserKey := ⟨[0x6B], 0, 2, .numString⟩

def titleValue : Nat → ParserKeyValue := fun _ => ⟨1, [0xAB], 0⟩

theorem titleValue_fits : ValuesFit [titleKey] titleValue := by
  rintro (_ | i) k hkey -
  · obtain rfl := Option.some.inj hkey
    exact ⟨Nat.le_refl 1, by decide⟩
  · exact absurd hkey nofun

/-- `k=` has no text that a value could be written over: it is lost. -/
theorem value_without_text_lost :
    ValuesFit [titleKey] titleValue ∧ ¬RoundTrip [titleKey] titleValue [0x6B, 0x3D, 0x0A] := by
  refine ⟨titleValue_fits, ?_⟩
  rintro ⟨out, -, rfl, read, hread, hyields⟩
  have hlost := hyields 0 titleKey rfl ⟨_, List.mem_cons_self, rfl⟩ Nat.one_ne_zero
  have hzero : (parseReadfile 3 [titleKey] (fun _ => {}) false [0x6B, 0x3D, 0x0A]).map
      (fun r => (r.values 0).length) = some 0 := by decide
  have hvalue := (congrArg (Option.map fun r => (r.values 0).length) hread).symm.trans hzero
  exact absurd (hlost.1.symm.trans (Option.some.inj hvalue)) (by decide)

/-- `k=1` is rewritten as `k=AB`. -/
theorem round_trip_title : RoundTrip [titleKey] titleValue [0x6B, 0x3D, 0x31, 0x0A] := by
  have hlines : fileLines [titleKey] [0x6B, 0x3D, 0x31, 0x0A] =
      [.field [0x6B] [0x3D] 0 titleKey [0x31] [], .plain [0x0A]] := rfl
  have hall := round_trip_iff [titleKey] titleValue [0x6B, 0x3D, 0x31, 0x0A] (List.cons_ne_nil _ _) (by decide)
    (List.forall_mem_singleton.mpr (List.forall_mem_singleton.mpr rfl)) titleValue_fits
    (by
      rw [hlines]
      exact List.forall_mem_cons.mpr ⟨List.cons_ne_nil _ _, List.forall_mem_singleton.mpr trivial⟩)
  apply hall.2.2.mpr
  refine ⟨?_, by decide, ?_⟩
  · rw [hlines]
    exact ⟨⟨by decide, fun _ htype => absurd htype (by decide)⟩, show _ ≤ _ by decide, trivial⟩
  · rintro (_ | i) k hkey - -
    · obtain rfl := Option.some.inj hkey
      exact ⟨⟨_, List.mem_cons_self, rfl⟩, fun htype => absurd htype (by decide)⟩
    · exact absurd hkey nofun

end Examples

end Pi1MHz.FileParser
