import Pi1MHz.FileParserLines
import Mathlib.Logic.Function.Basic

/-!
# Attribute files: the turns of the scanner

What a turn of the scanner writes and reads is what belongs to the line that it passes.  With as many turns
as a file has bytes the scanner comes to its end.
-/

namespace Pi1MHz.FileParser

/-! ### The buffer of the output -/

section Buffer

variable {cap : Nat} {out bytes : List UInt8}

theorem outPuts_append (cap : Nat) (out a b : List UInt8) :
    outPuts cap out (a ++ b) = outPuts cap (outPuts cap out a) b := List.foldl_append

theorem outPuts_room (h : out.length + bytes.length ≤ cap) : outPuts cap out bytes = out ++ bytes := by
  induction bytes generalizing out with
  | nil => exact (List.append_nil out).symm
  | cons c bytes ih =>
    rw [List.length_cons] at h
    have hrest := @ih (out ++ [c]) (by rw [List.length_append, List.length_singleton]; omega)
    rw [List.append_assoc] at hrest
    rw [outPuts, List.foldl_cons, outPutc, if_pos (by omega)]
    exact hrest

theorem outPuts_length (cap : Nat) (out bytes : List UInt8) :
    (outPuts cap out bytes).length ≤ out.length + bytes.length := by
  induction bytes generalizing out with
  | nil => exact Nat.le_refl _
  | cons c bytes ih =>
    have hrest := ih (outPutc cap out c)
    have hone : (outPutc cap out c).length ≤ out.length + 1 := by
      rw [outPutc]
      split
      · rw [List.length_append, List.length_singleton]
      · exact Nat.le_succ _
    rw [outPuts, List.foldl_cons, List.length_cons]
    rw [outPuts] at hrest
    omega

theorem outPuts_bound (h : out.length ≤ cap) : (outPuts cap out bytes).length ≤ cap := by
  induction bytes generalizing out with
  | nil => exact h
  | cons c bytes ih =>
    apply ih
    rw [outPutc]
    split
    · rw [List.length_append, List.length_singleton]
      omega
    · exact h

end Buffer

/-! ### What is written for a line -/

def putValue (cap : Nat) (k : ParserKey) (v : ParserKeyValue) (out text : List UInt8) : List UInt8 :=
  if v.length = 0 then outPuts cap out text
  else
    match k.type with
    | .numString => outPuts cap out (hexText (v.string.take v.length))
    | .string => outPuts cap out (v.string.take v.length)
    | .integer =>
        if (integerText v.integer).length < cap - out.length then out ++ integerText v.integer else out

def Line.put (cap : Nat) (values : Nat → ParserKeyValue) (out : List UInt8) : Line → List UInt8
  | plain bytes => outPuts cap out bytes
  | bare _ bytes => outPuts cap out bytes
  | field name seps i k text after =>
      outPuts cap (putValue cap k (values i) (outPuts cap (outPuts cap out name) seps) text) after

section Write

variable {cap : Nat} {keys : List ParserKey} {values : Nat → ParserKeyValue}

theorem keyLine_put (i : Nat) (k : ParserKey) (name seps v out : List UInt8) :
    (keyLine i k name seps v).1.put cap values out =
      (keyLine i k [] seps v).1.put cap values (outPuts cap out name) := by
  rcases v with _ | ⟨c, v⟩
  · exact outPuts_append cap out name seps
  · rw [keyLine, keyLine]
    split
    · rw [Line.put, Line.put, List.append_assoc, outPuts_append]
      rfl
    · split
      · rw [Line.put, Line.put, List.append_assoc, outPuts_append]
        rfl
      · rfl

theorem keyLine_rest (i : Nat) (k : ParserKey) (name seps v : List UInt8) :
    (keyLine i k name seps v).2 = (keyLine i k [] seps v).2 := by
  rcases v with _ | ⟨c, v⟩
  · rfl
  · rw [keyLine, keyLine]
    split
    · rfl
    · split
      · rfl
      · rfl

theorem textByte_notEol {k : ParserKey} {c : UInt8} (h : textByte k c = true) : notEol c = true := by
  rw [notEol, Bool.not_eq_true']
  rcases heol : isEol c with _ | _
  · rfl
  · rw [isEol, Bool.or_eq_true, beq_iff_eq, beq_iff_eq] at heol
    rw [textByte] at h
    rcases htype : k.type with _ | _ | _ <;> rw [htype] at h <;> rcases heol with rfl | rfl <;>
      exact absurd h (by decide)

theorem takeWhile_notEol_text (k : ParserKey) (w : List UInt8) :
    w.takeWhile notEol = w.take (valueLen k w) ++ (w.drop (valueLen k w)).takeWhile notEol ∧
      w.dropWhile notEol = (w.drop (valueLen k w)).dropWhile notEol := by
  have hsplit := List.takeWhile_append_dropWhile (p := textByte k) (l := w)
  have hline : ∀ c ∈ w.takeWhile (textByte k), notEol c = true := fun c hc =>
    textByte_notEol (all_takeWhile (textByte k) w c hc)
  rw [take_valueLen, drop_valueLen]
  constructor
  · conv_lhs => rw [← hsplit]
    exact List.takeWhile_append_of_pos hline
  · conv_lhs => rw [← hsplit]
    exact List.dropWhile_append_of_pos hline

theorem writeValue_line (k : ParserKey) (v : ParserKeyValue) (s : Scan) :
    (s.writeValue cap k v).copyWhile cap notEol =
      { s with
        rest := (s.rest.drop (valueLen k s.rest)).dropWhile notEol
        out := outPuts cap (putValue cap k v s.out (s.rest.take (valueLen k s.rest)))
          ((s.rest.drop (valueLen k s.rest)).takeWhile notEol) } := by
  rw [Scan.writeValue, putValue]
  split
  · obtain ⟨htake, hdrop⟩ := takeWhile_notEol_text k s.rest
    rw [Scan.copyWhile, htake, hdrop, outPuts_append]
  · have hlen : ∀ t, k.type = t → valueLen k s.rest =
        if t = .numString then (parseNumstrlen s.rest).1 else parseStrlen s.rest := by
      rintro _ rfl
      unfold valueLen
      cases k.type <;> rfl
    rcases ht : k.type with _ | _ | _
    · rw [hlen _ ht]
      rfl
    · rw [hlen _ ht]
      rfl
    · rw [hlen _ ht]
      rfl

theorem afterKey_write (i : Nat) (k : ParserKey) (s : Scan) :
    (if (s.afterKey cap).2 = false then (s.afterKey cap).1
      else ((s.afterKey cap).1.writeValue cap k ((s.afterKey cap).1.values i)).copyWhile cap notEol) =
      { s with
        rest := (keyLine i k [] (s.rest.takeWhile isSeparator) (s.rest.dropWhile isSeparator)).2
        out := (keyLine i k [] (s.rest.takeWhile isSeparator) (s.rest.dropWhile isSeparator)).1.put cap s.values
          s.out } := by
  rw [Scan.afterKey, Scan.copyWhile]
  rcases hw : s.rest.dropWhile isSeparator with _ | ⟨c, w⟩
  · rfl
  · simp only
    rw [keyLine]
    by_cases hcomment : c = 0x23
    · simp only [if_pos hcomment, if_true, Scan.copyWhile, Line.put, List.nil_append, outPuts_append]
    · by_cases heol : isEol c = true
      · simp only [if_neg hcomment, if_pos heol, if_true, Scan.copy, Line.put, List.nil_append, outPuts_append]
      · simp only [if_neg hcomment, if_neg heol, Bool.true_eq_false, if_false]
        exact writeValue_line k (s.values i) _

theorem parseLine_write (keys : List ParserKey) (s : Scan) :
    s.parseLine cap true keys =
      { s with rest := (nextLine keys s.rest).2, out := (nextLine keys s.rest).1.put cap s.values s.out } := by
  rw [Scan.parseLine, Scan.copyWhile, nextLine]
  rcases hw : s.rest.dropWhile isBlank with _ | ⟨c, w⟩
  · rfl
  · simp only
    by_cases hcomment : c = 0x23
    · simp only [if_pos hcomment, Scan.copyWhile, skipLine, Line.put, outPuts_append]
    · simp only [if_neg hcomment]
      rcases hfound : parseFindindex keys (c :: w) with _ | i
      · simp only [Scan.copyWhile, skipLine, Line.put, outPuts_append]
      · simp only
        rcases hk : keys[i]? with _ | k
        · rfl
        · simp only [if_true]
          rw [afterKey_write, keyLine_rest i k (_ ++ _), keyLine_put i k (_ ++ _), outPuts_append]
          rfl

end Write

/-! ### What is read from a line -/

def Line.read (values : Nat → ParserKeyValue) (rest : List UInt8) : Line → Nat → ParserKeyValue
  | plain _ => values
  | bare _ _ => values
  | field _ _ i k text after => Function.update values i (readValue k (values i) (text ++ (after ++ rest)))

section Read

variable {cap : Nat} {keys : List ParserKey} {values : Nat → ParserKeyValue}

theorem keyLine_read (i : Nat) (k : ParserKey) (name seps v rest : List UInt8) :
    (keyLine i k name seps v).1.read values rest = (keyLine i k [] seps v).1.read values rest := by
  rcases v with _ | ⟨c, v⟩
  · rfl
  · rw [keyLine, keyLine]
    split
    · rfl
    · split
      · rfl
      · rfl

theorem afterKey_read (i : Nat) (k : ParserKey) (s : Scan) :
    ∃ out, (if (s.afterKey cap).2 = false then (s.afterKey cap).1
      else ((s.afterKey cap).1.readInto k i).copyWhile cap notEol) =
      ⟨(keyLine i k [] (s.rest.takeWhile isSeparator) (s.rest.dropWhile isSeparator)).2, out,
        (keyLine i k [] (s.rest.takeWhile isSeparator) (s.rest.dropWhile isSeparator)).1.read s.values
          (keyLine i k [] (s.rest.takeWhile isSeparator) (s.rest.dropWhile isSeparator)).2⟩ := by
  rw [Scan.afterKey, Scan.copyWhile]
  rcases hw : s.rest.dropWhile isSeparator with _ | ⟨c, w⟩
  · exact ⟨_, rfl⟩
  · simp only
    rw [keyLine]
    by_cases hcomment : c = 0x23
    · simp only [if_pos hcomment, if_true]
      exact ⟨_, rfl⟩
    · by_cases heol : isEol c = true
      · simp only [if_neg hcomment, if_pos heol, if_true]
        exact ⟨_, rfl⟩
      · simp only [if_neg hcomment, if_neg heol, Bool.true_eq_false, if_false, Line.read]
        rw [List.takeWhile_append_dropWhile, List.take_append_drop]
        exact ⟨_, rfl⟩

theorem parseLine_read (keys : List ParserKey) (s : Scan) :
    ∃ out, s.parseLine cap false keys =
      ⟨(nextLine keys s.rest).2, out, (nextLine keys s.rest).1.read s.values (nextLine keys s.rest).2⟩ := by
  rw [Scan.parseLine, Scan.copyWhile, nextLine]
  rcases hw : s.rest.dropWhile isBlank with _ | ⟨c, w⟩
  · exact ⟨_, rfl⟩
  · simp only
    by_cases hcomment : c = 0x23
    · simp only [if_pos hcomment]
      exact ⟨_, rfl⟩
    · simp only [if_neg hcomment]
      rcases hfound : parseFindindex keys (c :: w) with _ | i
      · exact ⟨_, rfl⟩
      · simp only
        rcases hk : keys[i]? with _ | k
        · exact ⟨_, rfl⟩
        · simp only [Bool.false_eq_true, if_false]
          rw [keyLine_read, keyLine_rest]
          exact afterKey_read i k _

end Read

/-! ### A whole file -/

def readLines (values : Nat → ParserKeyValue) : List Line → Nat → ParserKeyValue
  | [] => values
  | l :: lines => readLines (l.read values (lines.flatMap Line.bytes)) lines

section File

variable {cap : Nat} {keys : List ParserKey}

theorem nextLine_length {rest : List UInt8} {fuel : Nat} (hne : rest ≠ []) (h : rest.length ≤ fuel + 1) :
    (nextLine keys rest).2.length ≤ fuel := by
  have hlt := (nextLine_next keys rest).shorter hne
  omega

theorem parseLoop_write {fuel : Nat} {s : Scan} (h : s.rest.length ≤ fuel) :
    Scan.parseLoop cap true keys fuel s =
      some { s with rest := [], out := (fileLines keys s.rest).foldl (Line.put cap s.values) s.out } := by
  induction fuel generalizing s with
  | zero =>
    have hnil : s.rest = [] := List.length_eq_zero_iff.mp (Nat.le_zero.mp h)
    rw [Scan.parseLoop, if_pos hnil, hnil, fileLines_nil, List.foldl_nil, ← hnil]
  | succ fuel ih =>
    by_cases hnil : s.rest = []
    · rw [Scan.parseLoop, if_pos hnil, hnil, fileLines_nil, List.foldl_nil, ← hnil]
    · rw [Scan.parseLoop, if_neg hnil, parseLine_write, ih (nextLine_length hnil h),
        fileLines_next (nextLine_next keys s.rest) hnil]
      rfl

theorem parseLoop_read {fuel : Nat} {s : Scan} (h : s.rest.length ≤ fuel) :
    ∃ out, Scan.parseLoop cap false keys fuel s =
      some ⟨[], out, readLines s.values (fileLines keys s.rest)⟩ := by
  induction fuel generalizing s with
  | zero =>
    have hnil : s.rest = [] := List.length_eq_zero_iff.mp (Nat.le_zero.mp h)
    refine ⟨s.out, ?_⟩
    rw [Scan.parseLoop, if_pos hnil, hnil, fileLines_nil, ← hnil]
    rfl
  | succ fuel ih =>
    by_cases hnil : s.rest = []
    · refine ⟨s.out, ?_⟩
      rw [Scan.parseLoop, if_pos hnil, hnil, fileLines_nil, ← hnil]
      rfl
    · obtain ⟨out, hline⟩ := @parseLine_read cap keys s
      rw [Scan.parseLoop, if_neg hnil, hline, fileLines_next (nextLine_next keys s.rest) hnil, readLines,
        fileLines_bytes]
      exact ih (nextLine_length hnil h)

end File

end Pi1MHz.FileParser
