import Pi1MHz.FileParser

/-!
# Attribute files: lines

A file cut up as the scanner of `parse_readfile` cuts it: into comments and unknown lines, which are copied,
keys without a value, and keys with one.
-/

namespace Pi1MHz.FileParser

/-- In a line with a value the key, with the blank lines before it, is followed by separators, the text of
the value, and what stands behind that. -/
inductive Line
  | plain (bytes : List UInt8)
  | bare (i : Nat) (bytes : List UInt8)
  | field (name seps : List UInt8) (i : Nat) (k : ParserKey) (text after : List UInt8)

def skipLine (blanks r : List UInt8) : Line × List UInt8 :=
  (.plain (blanks ++ r.takeWhile notEol), r.dropWhile notEol)

def keyLine (i : Nat) (k : ParserKey) (name seps v : List UInt8) : Line × List UInt8 :=
  match v with
  | [] => (.bare i (name ++ seps), [])
  | c :: _ =>
      if c = 0x23 then (.bare i (name ++ seps ++ v.takeWhile notEol), v.dropWhile notEol)
      else if isEol c then (.bare i (name ++ seps ++ v.take 1), v.drop 1)
      else
        (.field name seps i k (v.take (valueLen k v)) ((v.drop (valueLen k v)).takeWhile notEol),
          (v.drop (valueLen k v)).dropWhile notEol)

def nextLine (keys : List ParserKey) (rest : List UInt8) : Line × List UInt8 :=
  match rest.dropWhile isBlank with
  | [] => (.plain (rest.takeWhile isBlank), [])
  | c :: _ =>
      if c = 0x23 then skipLine (rest.takeWhile isBlank) (rest.dropWhile isBlank)
      else
        match parseFindindex keys (rest.dropWhile isBlank) with
        | none => skipLine (rest.takeWhile isBlank) (rest.dropWhile isBlank)
        | some i =>
            match keys[i]? with
            | none => (.plain (rest.takeWhile isBlank), rest.dropWhile isBlank)
            | some k =>
                keyLine i k (rest.takeWhile isBlank ++ (rest.dropWhile isBlank).take k.key.length)
                  (((rest.dropWhile isBlank).drop k.key.length).takeWhile isSeparator)
                  (((rest.dropWhile isBlank).drop k.key.length).dropWhile isSeparator)

/-! ### The bytes of a value -/

def textByte (k : ParserKey) : UInt8 → Bool :=
  match k.type with
  | .numString => numByte
  | _ => strByte

section Text

variable {k : ParserKey} {p : UInt8 → Bool} {c : UInt8} {a b l v : List UInt8}

theorem numStrlen_length (n : Nat) (nonnumber : Int) (l : List UInt8) :
    (numStrlen n nonnumber l).1 = n + (l.takeWhile numByte).length := by
  induction l generalizing n nonnumber with
  | nil => rfl
  | cons c l ih =>
    rw [numStrlen, List.takeWhile_cons]
    split
    · rw [ih, List.length_cons]
      omega
    · rfl

theorem valueLen_eq (k : ParserKey) (l : List UInt8) : valueLen k l = (l.takeWhile (textByte k)).length := by
  rw [valueLen, textByte]
  rcases k.type with _ | _ | _
  · exact (numStrlen_length 0 0 l).trans (Nat.zero_add _)
  · rfl
  · rfl

theorem take_valueLen (k : ParserKey) (l : List UInt8) : l.take (valueLen k l) = l.takeWhile (textByte k) := by
  rw [valueLen_eq]
  exact (List.prefix_iff_eq_take.mp (List.takeWhile_prefix _)).symm

theorem drop_valueLen (k : ParserKey) (l : List UInt8) : l.drop (valueLen k l) = l.dropWhile (textByte k) := by
  have hall := @List.drop_left _ (l.takeWhile (textByte k)) (l.dropWhile (textByte k))
  rw [List.takeWhile_append_dropWhile] at hall
  rw [valueLen_eq]
  exact hall

theorem not_blank_of_eol (h : isEol c = true) : isBlank c = true := by
  rw [isEol, Bool.or_eq_true, beq_iff_eq, beq_iff_eq] at h
  rcases h with rfl | rfl
  · rfl
  · rfl

end Text

/-! ### Where a run of bytes ends -/

def Stops (p : UInt8 → Bool) (l : List UInt8) : Prop := ∀ c, l.head? = some c → p c = false

def Starts (p : UInt8 → Bool) (l : List UInt8) : Prop := ∃ c, l.head? = some c ∧ p c = true

def AtEol (l : List UInt8) : Prop := Stops notEol l

section Spans

variable {p q : UInt8 → Bool} {a b l : List UInt8}

theorem stops_nil : Stops p [] := nofun

theorem stops_dropWhile (p : UInt8 → Bool) (l : List UInt8) : Stops p (l.dropWhile p) := by
  intro c hc
  have hnot := List.head?_dropWhile_not p l
  rw [hc] at hnot
  exact hnot

theorem all_takeWhile (p : UInt8 → Bool) (l : List UInt8) : ∀ c ∈ l.takeWhile p, p c = true :=
  fun _ hc => List.mem_takeWhile_imp hc

theorem Stops.takeWhile (h : Stops p l) : l.takeWhile p = [] := by
  rcases l with _ | ⟨c, l⟩
  · rfl
  · rw [List.takeWhile_cons, h c rfl]
    rfl

theorem Stops.dropWhile (h : Stops p l) : l.dropWhile p = l := by
  rcases l with _ | ⟨c, l⟩
  · rfl
  · rw [List.dropWhile_cons, h c rfl]
    rfl

theorem takeWhile_run (ha : ∀ c ∈ a, p c = true) (hb : Stops p b) : (a ++ b).takeWhile p = a := by
  rw [List.takeWhile_append_of_pos ha, hb.takeWhile, List.append_nil]

theorem dropWhile_run (ha : ∀ c ∈ a, p c = true) (hb : Stops p b) : (a ++ b).dropWhile p = b := by
  rw [List.dropWhile_append_of_pos ha, hb.dropWhile]

theorem Stops.append (ha : Stops p a) (hb : a = [] → Stops p b) : Stops p (a ++ b) := by
  rcases a with _ | ⟨c, a⟩
  · exact hb rfl
  · exact ha

theorem Starts.append (h : Starts p a) (b : List UInt8) : Starts p (a ++ b) := by
  obtain ⟨c, hc, hp⟩ := h
  rcases a with _ | ⟨d, a⟩
  · exact absurd hc (by nofun)
  · exact ⟨c, hc, hp⟩

theorem Starts.stops (h : Starts p l) (hpq : ∀ c, p c = true → q c = false) : Stops q l := by
  obtain ⟨c, hc, hp⟩ := h
  intro d hd
  obtain rfl := Option.some.inj (hc.symm.trans hd)
  exact hpq c hp

theorem Starts.ne_nil (h : Starts p l) : l ≠ [] := by
  rintro rfl
  obtain ⟨c, hc, -⟩ := h
  exact absurd hc (by nofun)

theorem Stops.congr (h : Stops p a) (hab : a.head? = b.head?) : Stops p b := by
  intro c hc
  exact h c (hab.trans hc)

end Spans

/-! ### The forms of a line -/

def lineByte (c : UInt8) : Bool := !isBlank c && c != 0x23

def valueByte (c : UInt8) : Bool := !isSeparator c && c != 0x23 && notEol c

structure Keyed (keys : List ParserKey) (r : List UInt8) (i : Nat) (k : ParserKey) (word : List UInt8) :
    Prop where
  first : Starts lineByte r
  found : parseFindindex keys r = some i
  key : keys[i]? = some k
  length : word.length = k.key.length

def BareTail (tail rest : List UInt8) : Prop :=
  (tail = [] ∧ rest = []) ∨ (tail.head? = some 0x23 ∧ (∀ c ∈ tail, notEol c = true) ∧ AtEol rest) ∨
    ∃ c, tail = [c] ∧ isEol c = true

inductive Next (keys : List ParserKey) : List UInt8 → Line → List UInt8 → Prop
  | blank (bl : List UInt8) (hbl : ∀ c ∈ bl, isBlank c = true) : Next keys bl (.plain bl) []
  | skip (bl body rest : List UInt8) (hbl : ∀ c ∈ bl, isBlank c = true)
      (hskip : body.head? = some 0x23 ∨
        Starts lineByte body ∧ parseFindindex keys (body ++ rest) = none)
      (hline : ∀ c ∈ body, notEol c = true) (hend : AtEol rest) :
      Next keys (bl ++ (body ++ rest)) (.plain (bl ++ body)) rest
  | bare (bl word seps tail rest : List UInt8) (i : Nat) (k : ParserKey) (hbl : ∀ c ∈ bl, isBlank c = true)
      (hkey : Keyed keys (word ++ (seps ++ (tail ++ rest))) i k word)
      (hseps : ∀ c ∈ seps, isSeparator c = true) (htail : BareTail tail rest) :
      Next keys (bl ++ (word ++ (seps ++ (tail ++ rest)))) (.bare i (bl ++ word ++ seps ++ tail)) rest
  | field (bl word seps text after rest : List UInt8) (i : Nat) (k : ParserKey)
      (hbl : ∀ c ∈ bl, isBlank c = true)
      (hkey : Keyed keys (word ++ (seps ++ (text ++ (after ++ rest)))) i k word)
      (hseps : ∀ c ∈ seps, isSeparator c = true) (hfirst : Starts valueByte (text ++ (after ++ rest)))
      (htext : ∀ c ∈ text, textByte k c = true) (hstop : Stops (textByte k) (after ++ rest))
      (hafter : ∀ c ∈ after, notEol c = true) (hend : AtEol rest) :
      Next keys (bl ++ (word ++ (seps ++ (text ++ (after ++ rest)))))
        (.field (bl ++ word) seps i k text after) rest

section Forms

variable {keys : List ParserKey} {rest rest' bl r v : List UInt8} {l : Line} {i : Nat} {k : ParserKey}

theorem findindex_key (h : parseFindindex keys r = some i) : ∃ k, keys[i]? = some k := by
  have hlt := (List.findIdx?_eq_some_iff_getElem.mp h).1
  exact ⟨keys[i], List.getElem?_eq_getElem hlt⟩

theorem localstrcasecmp_length {key r : List UInt8} (h : localstrcasecmp key r = true) :
    key.length ≤ r.length := by
  induction key generalizing r with
  | nil => exact Nat.zero_le _
  | cons c key ih =>
    rcases r with _ | ⟨d, r⟩
    · exact absurd h (by nofun)
    · rw [localstrcasecmp, Bool.and_eq_true] at h
      exact Nat.succ_le_succ (ih h.2)

theorem keyed_take (hfirst : Starts lineByte r) (hfound : parseFindindex keys r = some i)
    (hkey : keys[i]? = some k) : Keyed keys r i k (r.take k.key.length) := by
  refine ⟨hfirst, hfound, hkey, List.length_take_of_le ?_⟩
  obtain ⟨hlt, hmatch, -⟩ := List.findIdx?_eq_some_iff_getElem.mp hfound
  rw [List.getElem?_eq_getElem hlt] at hkey
  obtain rfl := Option.some.inj hkey
  exact localstrcasecmp_length hmatch

theorem next_skipLine (hbl : ∀ c ∈ bl, isBlank c = true) (hfirst : Starts notEol r)
    (hskip : r.head? = some 0x23 ∨ Starts lineByte r ∧ parseFindindex keys r = none) :
    Next keys (bl ++ r) (skipLine bl r).1 (skipLine bl r).2 := by
  have hsplit := List.takeWhile_append_dropWhile (p := notEol) (l := r)
  have hhead : (r.takeWhile notEol).head? = r.head? := by
    obtain ⟨c, hc, hnot⟩ := hfirst
    rcases r with _ | ⟨d, r⟩
    · rfl
    · obtain rfl := Option.some.inj hc
      rw [List.takeWhile_cons, hnot]
      rfl
  have hall := @Next.skip keys bl (r.takeWhile notEol) (r.dropWhile notEol) hbl ?_
    (all_takeWhile _ _) (stops_dropWhile _ _)
  · rw [hsplit] at hall
    exact hall
  · rw [hsplit, hhead]
    refine hskip.imp_right fun ⟨⟨c, hc, hp⟩, hnone⟩ => ⟨⟨c, hhead.trans hc, hp⟩, hnone⟩

theorem next_keyLine {word : List UInt8} (hbl : ∀ c ∈ bl, isBlank c = true)
    (hkey : Keyed keys (word ++ v) i k word) :
    Next keys (bl ++ (word ++ v)) (keyLine i k (bl ++ word) (v.takeWhile isSeparator) (v.dropWhile isSeparator)).1
      (keyLine i k (bl ++ word) (v.takeWhile isSeparator) (v.dropWhile isSeparator)).2 := by
  have hseps := all_takeWhile isSeparator v
  have hstop := stops_dropWhile isSeparator v
  obtain ⟨seps, hsepsEq⟩ : ∃ seps, seps = v.takeWhile isSeparator := ⟨_, rfl⟩
  obtain ⟨w, hwEq⟩ : ∃ w, w = v.dropWhile isSeparator := ⟨_, rfl⟩
  have hv : v = seps ++ w := by rw [hsepsEq, hwEq, List.takeWhile_append_dropWhile]
  rw [← hsepsEq] at hseps ⊢
  rw [← hwEq] at hstop ⊢
  rw [hv] at hkey ⊢
  rcases w with _ | ⟨c, w⟩
  · have hall := Next.bare bl word seps [] [] i k hbl hkey hseps (.inl ⟨rfl, rfl⟩)
    rw [List.append_nil (bl ++ word ++ seps)] at hall
    exact hall
  · rw [keyLine]
    by_cases hcomment : c = 0x23
    · rw [if_pos hcomment]
      have hsplit := List.takeWhile_append_dropWhile (p := notEol) (l := c :: w)
      have hhead : ((c :: w).takeWhile notEol).head? = some 0x23 := by
        rw [hcomment]
        rfl
      have hall := Next.bare bl word seps ((c :: w).takeWhile notEol) ((c :: w).dropWhile notEol) i k hbl
        (by rw [hsplit]; exact hkey) hseps (.inr (.inl ⟨hhead, all_takeWhile _ _, stops_dropWhile _ _⟩))
      rw [hsplit] at hall
      exact hall
    rw [if_neg hcomment]
    by_cases heol : isEol c = true
    · rw [if_pos heol]
      exact .bare bl word seps [c] w i k hbl hkey hseps (.inr (.inr ⟨c, rfl, heol⟩))
    rw [if_neg heol]
    have hfirst : Starts valueByte (c :: w) := by
      refine ⟨c, rfl, ?_⟩
      rw [valueByte, Bool.and_eq_true, Bool.and_eq_true, bne_iff_ne, notEol, Bool.not_eq_true',
        Bool.not_eq_true']
      exact ⟨⟨hstop c rfl, hcomment⟩, Bool.eq_false_iff.mpr heol⟩
    rw [take_valueLen, drop_valueLen]
    have hsplit := List.takeWhile_append_dropWhile (p := textByte k) (l := c :: w)
    have hsplit' := List.takeWhile_append_dropWhile (p := notEol) (l := (c :: w).dropWhile (textByte k))
    have hall := Next.field bl word seps ((c :: w).takeWhile (textByte k))
      (((c :: w).dropWhile (textByte k)).takeWhile notEol) (((c :: w).dropWhile (textByte k)).dropWhile notEol)
      i k hbl (by rw [hsplit', hsplit]; exact hkey) hseps (by rw [hsplit', hsplit]; exact hfirst)
      (all_takeWhile _ _) (by rw [hsplit']; exact stops_dropWhile _ _) (all_takeWhile _ _) (stops_dropWhile _ _)
    rw [hsplit', hsplit] at hall
    exact hall

theorem nextLine_next (keys : List ParserKey) (rest : List UInt8) :
    Next keys rest (nextLine keys rest).1 (nextLine keys rest).2 := by
  have hbl := all_takeWhile isBlank rest
  have hstop := stops_dropWhile isBlank rest
  obtain ⟨bl, hblEq⟩ : ∃ bl, bl = rest.takeWhile isBlank := ⟨_, rfl⟩
  obtain ⟨r, hrEq⟩ : ∃ r, r = rest.dropWhile isBlank := ⟨_, rfl⟩
  have hrest : rest = bl ++ r := by rw [hblEq, hrEq, List.takeWhile_append_dropWhile]
  rw [nextLine, ← hblEq, ← hrEq]
  rw [← hblEq] at hbl
  rw [← hrEq] at hstop
  rw [hrest]
  rcases r with _ | ⟨c, r⟩
  · rw [List.append_nil]
    exact .blank bl hbl
  · have hfirst : notEol c = true := by
      rw [notEol, Bool.not_eq_true']
      rcases heol : isEol c with _ | _
      · rfl
      · exact absurd ((not_blank_of_eol heol).symm.trans (hstop c rfl)) (by decide)
    simp only
    by_cases hcomment : c = 0x23
    · rw [if_pos hcomment]
      exact next_skipLine hbl ⟨c, rfl, hfirst⟩ (.inl (by rw [hcomment]; rfl))
    rw [if_neg hcomment]
    have hline : Starts lineByte (c :: r) := by
      refine ⟨c, rfl, ?_⟩
      rw [lineByte, hstop c rfl, bne_iff_ne.mpr hcomment]
      rfl
    rcases hfound : parseFindindex keys (c :: r) with _ | i
    · exact next_skipLine hbl ⟨c, rfl, hfirst⟩ (.inr ⟨hline, hfound⟩)
    · obtain ⟨k, hk⟩ := findindex_key hfound
      have hkeyed := keyed_take hline hfound hk
      have hall := next_keyLine (v := (c :: r).drop k.key.length) hbl (by rw [List.take_append_drop]; exact hkeyed)
      rw [List.take_append_drop] at hall
      simp only [hk]
      exact hall

end Forms

/-! ### Lines are determined by their form -/

section Determined

variable {keys : List ParserKey} {rest rest' r : List UInt8} {l : Line} {i : Nat} {k : ParserKey}

theorem lineByte_notBlank {c : UInt8} (h : lineByte c = true) : isBlank c = false := by
  rw [lineByte, Bool.and_eq_true, Bool.not_eq_true'] at h
  exact h.1

theorem lineByte_noComment {c : UInt8} (h : lineByte c = true) : c ≠ 0x23 := by
  rw [lineByte, Bool.and_eq_true, bne_iff_ne] at h
  exact h.2

theorem skipLine_run {bl body : List UInt8} (hline : ∀ c ∈ body, notEol c = true) (hend : AtEol rest) :
    skipLine bl (body ++ rest) = (.plain (bl ++ body), rest) := by
  rw [skipLine, takeWhile_run hline hend, dropWhile_run hline hend]

theorem nextLine_keyed {bl word seps v : List UInt8} (hbl : ∀ c ∈ bl, isBlank c = true)
    (hkey : Keyed keys (word ++ (seps ++ v)) i k word) (hseps : ∀ c ∈ seps, isSeparator c = true)
    (hv : Stops isSeparator v) :
    nextLine keys (bl ++ (word ++ (seps ++ v))) = keyLine i k (bl ++ word) seps v := by
  obtain ⟨hfirst, hfound, hk, hlength⟩ := hkey
  have hstop : Stops isBlank (word ++ (seps ++ v)) := hfirst.stops fun c => lineByte_notBlank
  obtain ⟨c, hc, hline⟩ := hfirst
  rw [nextLine, takeWhile_run hbl hstop, dropWhile_run hbl hstop]
  obtain ⟨r, hr⟩ : ∃ r, r = word ++ (seps ++ v) := ⟨_, rfl⟩
  have htake : r.take k.key.length = word := by rw [hr, ← hlength, List.take_left]
  have hdrop : r.drop k.key.length = seps ++ v := by rw [hr, ← hlength, List.drop_left]
  rw [← hr] at hc hfound ⊢
  rcases r with _ | ⟨d, r⟩
  · exact absurd hc (by nofun)
  · obtain rfl := Option.some.inj hc
    simp only [if_neg (lineByte_noComment hline), hfound, hk, htake, hdrop]
    rw [takeWhile_run hseps hv, dropWhile_run hseps hv]

theorem valueByte_notSeparator {c : UInt8} (h : valueByte c = true) : isSeparator c = false := by
  rw [valueByte, Bool.and_eq_true, Bool.and_eq_true, Bool.not_eq_true'] at h
  exact h.1.1

theorem eol_notSeparator {c : UInt8} (h : isEol c = true) : isSeparator c = false := by
  rw [isEol, Bool.or_eq_true, beq_iff_eq, beq_iff_eq] at h
  rcases h with rfl | rfl
  · rfl
  · rfl

theorem Next.eq (h : Next keys rest l rest') : nextLine keys rest = (l, rest') := by
  cases h with
  | blank _ hbl =>
    have htake := takeWhile_run (b := []) hbl stops_nil
    have hdrop := dropWhile_run (b := []) hbl stops_nil
    rw [List.append_nil] at htake hdrop
    rw [nextLine, htake, hdrop]
  | skip bl body _ hbl hskip hline hend =>
    have hfirst : Stops isBlank (body ++ rest') ∧ body ≠ [] := by
      rcases hskip with hhead | ⟨hfirst, -⟩
      · have hstart : Starts (· == 0x23) body := ⟨0x23, hhead, rfl⟩
        refine ⟨(hstart.append rest').stops fun c hc => ?_, hstart.ne_nil⟩
        rw [beq_iff_eq.mp hc]
        rfl
      · exact ⟨(hfirst.append rest').stops fun c => lineByte_notBlank, hfirst.ne_nil⟩
    obtain ⟨hstop, hne⟩ := hfirst
    rw [nextLine, takeWhile_run hbl hstop, dropWhile_run hbl hstop]
    rcases body with _ | ⟨c, body⟩
    · exact absurd rfl hne
    · rw [List.cons_append]
      simp only
      rw [← List.cons_append, skipLine_run hline hend]
      rcases hskip with hhead | ⟨-, hnone⟩
      · rw [if_pos (Option.some.inj hhead)]
      · rw [hnone]
        exact ite_self _
  | bare bl word seps tail _ i k hbl hkey hseps htail =>
    rcases htail with ⟨rfl, rfl⟩ | ⟨hhead, hline, hend⟩ | ⟨c, rfl, heol⟩
    · rw [List.append_nil (bl ++ word ++ seps)]
      exact nextLine_keyed hbl hkey hseps stops_nil
    · rcases tail with _ | ⟨c, tail⟩
      · exact absurd hhead (by nofun)
      · obtain rfl := Option.some.inj hhead
        have hv : Stops isSeparator (0x23 :: tail ++ rest') := by
          intro d hd
          obtain rfl := Option.some.inj hd
          rfl
        rw [nextLine_keyed hbl hkey hseps hv, List.cons_append, keyLine, if_pos rfl, ← List.cons_append,
          takeWhile_run hline hend, dropWhile_run hline hend]
    · have hv : Stops isSeparator ([c] ++ rest') := by
        intro d hd
        obtain rfl := Option.some.inj hd
        exact eol_notSeparator heol
      have hcomment : c ≠ 0x23 := by
        rintro rfl
        exact absurd heol (by decide)
      rw [nextLine_keyed hbl hkey hseps hv, List.singleton_append, keyLine, if_neg hcomment, if_pos heol]
      rfl
  | field bl word seps text after _ i k hbl hkey hseps hfirst htext hstop hafter hend =>
    rw [nextLine_keyed hbl hkey hseps (hfirst.stops fun c => valueByte_notSeparator)]
    have htake := takeWhile_run htext hstop
    have hdrop := dropWhile_run htext hstop
    obtain ⟨v, hv⟩ : ∃ v, v = text ++ (after ++ rest') := ⟨_, rfl⟩
    rw [← hv] at hfirst htake hdrop ⊢
    obtain ⟨c, hc, hvalue⟩ := hfirst
    rw [valueByte, Bool.and_eq_true, Bool.and_eq_true, bne_iff_ne, notEol, Bool.not_eq_true',
      Bool.not_eq_true'] at hvalue
    obtain ⟨⟨-, hcomment⟩, heol⟩ := hvalue
    rcases v with _ | ⟨d, v⟩
    · exact absurd hc (by nofun)
    · obtain rfl := Option.some.inj hc
      rw [keyLine, if_neg hcomment, if_neg (by rw [heol]; exact Bool.false_ne_true), take_valueLen,
        drop_valueLen, htake, hdrop, takeWhile_run hafter hend, dropWhile_run hafter hend]

def Line.bytes : Line → List UInt8
  | plain bytes => bytes
  | bare _ bytes => bytes
  | field name seps _ _ text after => name ++ (seps ++ (text ++ after))

theorem Next.bytes (h : Next keys rest l rest') : l.bytes ++ rest' = rest := by
  cases h with
  | blank => exact List.append_nil _
  | skip => simp [Line.bytes]
  | bare => simp [Line.bytes]
  | field => simp [Line.bytes]

theorem Next.shorter (h : Next keys rest l rest') (hne : rest ≠ []) : rest'.length < rest.length := by
  have hbytes := h.bytes
  have hpos : 0 < l.bytes.length := by
    cases h with
    | blank _ _ => exact List.length_pos_iff.mpr hne
    | skip bl body _ _ hskip _ _ =>
      have hbody : body ≠ [] := by
        rintro rfl
        rcases hskip with hhead | ⟨hfirst, -⟩
        · exact absurd hhead (by nofun)
        · exact hfirst.ne_nil rfl
      have hlen := List.length_pos_iff.mpr hbody
      rw [Line.bytes, List.length_append]
      omega
    | bare bl word seps tail _ i k _ hkey _ htail =>
      rw [Line.bytes, List.length_append, List.length_append, List.length_append]
      rcases htail with ⟨rfl, rfl⟩ | ⟨hhead, -, -⟩ | ⟨c, rfl, -⟩
      · have hlen := List.length_pos_iff.mpr hkey.first.ne_nil
        rw [List.append_nil, List.append_nil, List.length_append] at hlen
        omega
      · rcases tail with _ | ⟨c, tail⟩
        · exact absurd hhead (by nofun)
        · rw [List.length_cons]
          omega
      · rw [List.length_singleton]
        omega
    | field bl word seps text after _ i k _ _ _ hfirst _ _ hafter hend =>
      have hvalue : text ++ after ≠ [] := by
        intro hnil
        obtain ⟨rfl, rfl⟩ := List.append_eq_nil_iff.mp hnil
        obtain ⟨c, hc, hvalue⟩ := hfirst
        have heol := hend c hc
        rw [valueByte, heol, Bool.and_false] at hvalue
        exact absurd hvalue Bool.false_ne_true
      have hlen := List.length_pos_iff.mpr hvalue
      simp only [Line.bytes, List.length_append] at hlen ⊢
      omega
  rw [← hbytes, List.length_append]
  omega

end Determined

/-! ### A file, line by line -/

def cutLines (keys : List ParserKey) : Nat → List UInt8 → List Line
  | 0, _ => []
  | fuel + 1, rest =>
      if rest = [] then [] else (nextLine keys rest).1 :: cutLines keys fuel (nextLine keys rest).2

def fileLines (keys : List ParserKey) (rest : List UInt8) : List Line := cutLines keys rest.length rest

theorem fileLines_nil (keys : List ParserKey) : fileLines keys [] = [] := rfl

theorem cutLines_enough {keys : List ParserKey} {fuel : Nat} {rest : List UInt8} (h : rest.length ≤ fuel) :
    cutLines keys fuel rest = fileLines keys rest := by
  suffices hboth : ∀ fuel' fuel rest, rest.length ≤ fuel → rest.length ≤ fuel' →
      cutLines keys fuel rest = cutLines keys fuel' rest from hboth rest.length fuel rest h (Nat.le_refl _)
  intro fuel'
  induction fuel' with
  | zero =>
    intro fuel rest _ hzero
    obtain rfl := List.length_eq_zero_iff.mp (Nat.le_zero.mp hzero)
    rcases fuel with _ | fuel
    · rfl
    · rfl
  | succ fuel' ih =>
    intro fuel rest hfuel hfuel'
    by_cases hne : rest = []
    · obtain rfl := hne
      rcases fuel with _ | fuel
      · rfl
      · rfl
    · have hshort := (nextLine_next keys rest).shorter hne
      rcases fuel with _ | fuel
      · exact absurd (List.length_eq_zero_iff.mp (Nat.le_zero.mp hfuel)) hne
      · rw [cutLines, cutLines, if_neg hne, if_neg hne, ih fuel _ (by omega) (by omega)]

theorem fileLines_next {keys : List ParserKey} {rest rest' : List UInt8} {l : Line}
    (h : Next keys rest l rest') (hne : rest ≠ []) : fileLines keys rest = l :: fileLines keys rest' := by
  have hshort := h.shorter hne
  obtain ⟨n, hn⟩ := Nat.exists_eq_succ_of_ne_zero (Nat.ne_zero_of_lt hshort)
  rw [fileLines, hn, cutLines, if_neg hne, h.eq]
  exact congrArg _ (cutLines_enough (Nat.le_of_lt_succ (hn ▸ hshort)))

theorem file_induction (keys : List ParserKey) {P : List UInt8 → Prop} (hnil : P [])
    (hnext : ∀ rest l rest', rest ≠ [] → Next keys rest l rest' → P rest' → P rest) (file : List UInt8) :
    P file := by
  induction hn : file.length using Nat.strong_induction_on generalizing file with
  | h n ih =>
    by_cases hne : file = []
    · rw [hne]
      exact hnil
    · have hcut := nextLine_next keys file
      have hlt := hcut.shorter hne
      exact hnext file _ _ hne hcut (ih _ (by omega) _ rfl)

theorem fileLines_bytes (keys : List ParserKey) (file : List UInt8) :
    (fileLines keys file).flatMap Line.bytes = file := by
  induction file using file_induction keys with
  | hnil => rw [fileLines_nil]; rfl
  | hnext rest l rest' hne hcut ih =>
    rw [fileLines_next hcut hne, List.flatMap_cons, ih]
    exact hcut.bytes

end Pi1MHz.FileParser
