import Mathlib.Data.List.Basic
import Pi1MHz.WsText

/-!
# The web server: request bodies

How the body of an upload is taken apart as it arrives: by length, by chunks, or as one part of a
form; and how its bytes are staged and written in bursts.
-/

namespace Pi1MHz.Ws

def WS_FILE_CHUNK : Nat := 32768

/-! ### Chunked coding -/

/-- `dav_chunk_state`. -/
inductive ChunkPhase where
  | size
  | data
  | dataCrlf
  | trailer
deriving DecidableEq, Repr

/-- The decoder of `dav_put_consume_chunked` between two bytes. -/
structure ChunkDecoder where
  phase : ChunkPhase := .size
  /-- `dav_chunk_remaining`. -/
  remaining : Nat := 0
  /-- `dav_chunk_linebuf`, which holds 24 bytes. -/
  line : Str := []
  overflow : Bool := false
deriving DecidableEq, Repr

inductive BodyEnd where
  | more
  | done
  | malformed
deriving DecidableEq, Repr

/-- The size on a chunk's first line, up to the extension; `none` is a malformed one. -/
def chunkSize : Nat → Str → Option Nat
  | size, [] => some size
  | size, h :: rest =>
      if h = 0x3B then some size
      else
        match wsHexval h with
        | none => none
        | some d => if (0x7FFFFFFF - d.toNat) / 16 < size then none else chunkSize (size * 16 + d.toNat) rest

def ChunkDecoder.lineEnd (d : ChunkDecoder) : ChunkDecoder × BodyEnd :=
  let d' := { d with line := [], overflow := false }
  if d.phase = .trailer then (d', if d.line = [] then .done else .more)
  else
    match if d.line = [] ∨ d.overflow then none else chunkSize 0 d.line with
    | none => (d', .malformed)
    | some 0 => ({ d' with remaining := 0, phase := .trailer }, .more)
    | some n => ({ d' with remaining := n, phase := .data }, .more)

def ChunkDecoder.lineByte (d : ChunkDecoder) (ch : UInt8) : ChunkDecoder :=
  if ch = 0x0D then d
  else if d.line.length < 24 then { d with line := d.line ++ [ch] }
  else { d with overflow := true }

def ChunkDecoder.byte (d : ChunkDecoder) (ch : UInt8) : ChunkDecoder × List UInt8 × BodyEnd :=
  match d.phase with
  | .size | .trailer =>
      if ch = 0x0A then ((d.lineEnd).1, [], (d.lineEnd).2) else (d.lineByte ch, [], .more)
  | .data =>
      let left := d.remaining - 1
      ({ d with remaining := left, phase := if left = 0 then .dataCrlf else .data }, [ch], .more)
  | .dataCrlf =>
      let left := (if d.remaining = 0 then 2 else d.remaining) - 1
      ({ d with remaining := left, phase := if left = 0 then .size else .dataCrlf }, [], .more)

/-! ### The body of a PUT -/

/-- The state of `dav_put_consume` or `dav_put_consume_chunked`. -/
inductive Body where
  | fixed (remaining : Nat)
  | chunked (d : ChunkDecoder)
deriving DecidableEq, Repr

/-- What a segment gave: the data in it, the state after it, whether the body ended, and the bytes
behind that. -/
structure Decoded where
  out : List UInt8
  body : Body
  ends : BodyEnd
  rest : List UInt8
deriving DecidableEq, Repr

def Decoded.behind (out : List UInt8) (r : Decoded) : Decoded := { r with out := out ++ r.out }

/-- `dav_put_consume_chunked`, a byte at a time; data is handed on in slices there. -/
def ChunkDecoder.feed : ChunkDecoder → List UInt8 → Decoded
  | d, [] => ⟨[], .chunked d, .more, []⟩
  | d, ch :: rest =>
      if (d.byte ch).2.2 = .more then
        (ChunkDecoder.feed (d.byte ch).1 rest).behind (d.byte ch).2.1
      else ⟨(d.byte ch).2.1, .chunked (d.byte ch).1, (d.byte ch).2.2, rest⟩

def Body.feed : Body → List UInt8 → Decoded
  | .fixed remaining, bytes =>
      ⟨bytes.take remaining, .fixed (remaining - bytes.length),
        if remaining ≤ bytes.length then .done else .more, bytes.drop remaining⟩
  | .chunked d, bytes => d.feed bytes

theorem ChunkDecoder.feed_append (d : ChunkDecoder) (a b : List UInt8)
    (hmore : (d.feed a).ends = .more) :
    d.feed (a ++ b) = ((d.feed a).body.feed b).behind (d.feed a).out := by
  induction a generalizing d with
  | nil => rfl
  | cons ch a ih =>
    rw [List.cons_append, ChunkDecoder.feed, ChunkDecoder.feed]
    rw [ChunkDecoder.feed] at hmore
    split at hmore
    · next hbyte =>
      rw [if_pos hbyte, if_pos hbyte, ih _ hmore]
      simp [Decoded.behind]
    · next hbyte => exact absurd hmore hbyte

/-! ### One part of a form -/

def WS_UPLOAD_WORK : Nat := 2048

def wsMemfind (need : List UInt8) : List UInt8 → Option Nat
  | [] => none
  | b :: hay =>
      if need.isPrefixOf (b :: hay) then some 0 else (wsMemfind need hay).map (· + 1)

/-- What `upload_feed_data` found. -/
inductive PartEnd where
  | more
  | closing
  | another
deriving DecidableEq, Repr

structure PartScan where
  out : List UInt8
  tail : List UInt8
  ends : PartEnd
deriving DecidableEq, Repr

def afterBoundary (after : List UInt8) : PartEnd :=
  if after.length < 2 then .more else if after.take 2 = [0x2D, 0x2D] then .closing else .another

/-- One round of `upload_feed_data` over the working buffer; `rest` is what the segment has behind
it. -/
def uploadScan (delim work rest : List UInt8) : PartScan :=
  match wsMemfind delim work with
  | some found =>
      let after := work.drop (found + delim.length) ++ rest
      ⟨work.take found, delim ++ after.take 2, afterBoundary after⟩
  | none =>
      let writeable := work.length - (delim.length - 1)
      ⟨work.take writeable, work.drop writeable, .more⟩

/-- `upload_feed_data`; every round takes a byte at least. -/
def uploadFeed (delim : List UInt8) : Nat → List UInt8 → List UInt8 → PartScan
  | 0, tail, _ => ⟨[], tail, .more⟩
  | fuel + 1, tail, data =>
      if data = [] then ⟨[], tail, .more⟩
      else
        let work := tail ++ data.take (WS_UPLOAD_WORK - tail.length)
        let rest := data.drop (WS_UPLOAD_WORK - tail.length)
        let scan := uploadScan delim work rest
        if (wsMemfind delim work).isSome then scan
        else
          let r := uploadFeed delim fuel scan.tail rest
          { r with out := scan.out ++ r.out }

def partOf (delim stream : List UInt8) : PartScan := uploadScan delim stream []

theorem wsMemfind_some {need hay : List UInt8} {p : Nat} (h : wsMemfind need hay = some p) :
    need <+: hay.drop p ∧ p < hay.length := by
  induction hay generalizing p with
  | nil => cases h
  | cons b hay ih =>
    rw [wsMemfind] at h
    split at h
    · next hfound =>
      cases h
      exact ⟨List.isPrefixOf_iff_prefix.mp hfound, by simp⟩
    · obtain ⟨q, hq, rfl⟩ := Option.map_eq_some_iff.mp h
      exact ⟨(ih hq).1, by simpa using (ih hq).2⟩

theorem wsMemfind_none {need hay : List UInt8} (h : wsMemfind need hay = none) {i : Nat}
    (hi : i < hay.length) : ¬need <+: hay.drop i := by
  induction hay generalizing i with
  | nil => exact absurd hi (Nat.not_lt_zero i)
  | cons b hay ih =>
    rw [wsMemfind] at h
    split at h
    · cases h
    · next hfound =>
      cases i with
      | zero => exact fun hp => hfound (List.isPrefixOf_iff_prefix.mpr hp)
      | succ i => exact ih (Option.map_eq_none_iff.mp h) (by simpa using hi)

theorem wsMemfind_append {need w hay : List UInt8}
    (h : ∀ i < w.length, ¬need <+: (w ++ hay).drop i) :
    wsMemfind need (w ++ hay) = (wsMemfind need hay).map (· + w.length) := by
  induction w with
  | nil => simp
  | cons b w ih =>
    have hhead : ¬need.isPrefixOf (b :: (w ++ hay)) = true := fun hp =>
      h 0 (by simp) (List.isPrefixOf_iff_prefix.mp hp)
    have htail : ∀ i < w.length, ¬need <+: (w ++ hay).drop i := fun i hi =>
      h (i + 1) (by simpa using hi)
    rw [List.cons_append, wsMemfind, if_neg hhead, ih htail, Option.map_map]
    rfl

theorem not_starts {delim w tail hay : List UInt8} (hfind : wsMemfind delim (w ++ tail) = none)
    (htail : w = [] ∨ delim.length ≤ tail.length + 1) :
    ∀ i < w.length, ¬delim <+: (w ++ (tail ++ hay)).drop i := by
  intro i hi hstarts
  rcases htail with rfl | htail
  · exact absurd hi (Nat.not_lt_zero i)
  · -- the boundary would lie within what was searched
    have hlen : (w ++ tail).length = w.length + tail.length := List.length_append
    refine wsMemfind_none hfind (Nat.lt_of_lt_of_le hi (by omega)) ?_
    rw [← List.append_assoc, List.drop_append_of_le_length (by omega)] at hstarts
    refine List.prefix_of_prefix_length_le hstarts (List.prefix_append _ _) ?_
    rw [List.length_drop]
    omega

theorem wsMemfind_append_right {need hay : List UInt8} {p : Nat} (h : wsMemfind need hay = some p)
    (more : List UInt8) : wsMemfind need (hay ++ more) = some p := by
  induction hay generalizing p with
  | nil => cases h
  | cons b hay ih =>
    rw [wsMemfind] at h
    rw [List.cons_append, wsMemfind]
    split at h
    · next hfound =>
      have hlonger : need <+: b :: (hay ++ more) :=
        (List.isPrefixOf_iff_prefix.mp hfound).trans (List.prefix_append (b :: hay) more)
      rw [if_pos (List.isPrefixOf_iff_prefix.mpr hlonger)]
      exact h
    · next hfound =>
      obtain ⟨q, hq, rfl⟩ := Option.map_eq_some_iff.mp h
      have hshort : ¬need.isPrefixOf (b :: (hay ++ more)) = true := by
        intro hp
        -- the needle fits into what is there, as it stands further on
        have hfits := (wsMemfind_some hq).1.length_le
        rw [List.length_drop] at hfits
        refine hfound (List.isPrefixOf_iff_prefix.mpr ?_)
        refine List.prefix_of_prefix_length_le (List.isPrefixOf_iff_prefix.mp hp)
          (List.prefix_append (b :: hay) more) ?_
        rw [List.length_cons]
        omega
      rw [if_neg hshort, ih hq]
      rfl

theorem found_fits {need hay : List UInt8} {p : Nat} (h : wsMemfind need hay = some p) :
    p + need.length ≤ hay.length := by
  obtain ⟨hstarts, hlt⟩ := wsMemfind_some h
  have hle := hstarts.length_le
  rw [List.length_drop] at hle
  omega

theorem wsMemfind_start {need hay : List UInt8} (h : need <+: hay) (hne : hay ≠ []) :
    wsMemfind need hay = some 0 := by
  obtain ⟨b, hay, rfl⟩ := List.exists_cons_of_ne_nil hne
  rw [wsMemfind, if_pos (List.isPrefixOf_iff_prefix.mpr h)]

theorem partOf_found {delim stream : List UInt8} {p : Nat} (h : wsMemfind delim stream = some p) :
    partOf delim stream = ⟨stream.take p, delim ++ (stream.drop (p + delim.length)).take 2,
      afterBoundary (stream.drop (p + delim.length))⟩ := by
  simp only [partOf, uploadScan, h, List.append_nil]

theorem partOf_none {delim stream : List UInt8} (h : wsMemfind delim stream = none) :
    partOf delim stream = ⟨stream.take (stream.length - (delim.length - 1)),
      stream.drop (stream.length - (delim.length - 1)), .more⟩ := by
  simp only [partOf, uploadScan, h]

theorem afterBoundary_more {after : List UInt8} (h : afterBoundary after = .more) :
    after.length < 2 := by
  unfold afterBoundary at h
  split at h
  · assumption
  · split at h <;> cases h

theorem length_partOf_tail {delim stream : List UInt8} (hmore : (partOf delim stream).ends = .more) :
    (partOf delim stream).tail.length ≤ delim.length + 1 := by
  cases hfind : wsMemfind delim stream with
  | some p =>
    rw [partOf_found hfind] at hmore ⊢
    have hlt := afterBoundary_more hmore
    simp only [List.length_append, List.length_take]
    omega
  | none =>
    rw [partOf_none hfind]
    simp only [List.length_drop]
    omega

theorem uploadScan_waiting {delim stream slice rest : List UInt8} {p : Nat}
    (hfind : wsMemfind delim stream = some p) (hne : slice ≠ []) :
    wsMemfind delim (delim ++ stream.drop (p + delim.length) ++ slice) = some 0 ∧
      uploadScan delim (delim ++ stream.drop (p + delim.length) ++ slice) rest
        = ⟨[], (partOf delim (stream ++ (slice ++ rest))).tail,
          (partOf delim (stream ++ (slice ++ rest))).ends⟩ ∧
      (partOf delim (stream ++ (slice ++ rest))).out = stream.take p := by
  have hstart : wsMemfind delim (delim ++ stream.drop (p + delim.length) ++ slice) = some 0 := by
    rw [List.append_assoc]
    apply wsMemfind_start (List.prefix_append _ _)
    simp [hne]
  have hfits := found_fits hfind
  rw [partOf_found (wsMemfind_append_right hfind (slice ++ rest))]
  refine ⟨hstart, ?_, List.take_append_of_le_length (by omega)⟩
  have hdrop : (stream ++ (slice ++ rest)).drop (p + delim.length)
      = stream.drop (p + delim.length) ++ (slice ++ rest) :=
    List.drop_append_of_le_length hfits
  rw [uploadScan, hstart]
  simp only [hdrop, List.take_zero, Nat.zero_add, List.append_assoc, List.drop_left]

theorem uploadScan_searching {delim stream slice : List UInt8}
    (hfind : wsMemfind delim stream = none) :
    let w := stream.take (stream.length - (delim.length - 1))
    let work := stream.drop (stream.length - (delim.length - 1)) ++ slice
    stream ++ slice = w ++ work ∧ (w = [] ∨ delim.length ≤ work.length + 1) ∧
      wsMemfind delim (stream ++ slice) = (wsMemfind delim work).map (· + w.length) := by
  have hstream := List.take_append_drop (stream.length - (delim.length - 1)) stream
  have hheld : stream.take (stream.length - (delim.length - 1)) = [] ∨
      delim.length ≤ (stream.drop (stream.length - (delim.length - 1))).length + 1 := by
    by_cases hshort : stream.length ≤ delim.length - 1
    · left
      rw [Nat.sub_eq_zero_of_le hshort, List.take_zero]
    · right
      rw [List.length_drop]
      omega
  have happend : stream ++ slice = stream.take (stream.length - (delim.length - 1)) ++
      (stream.drop (stream.length - (delim.length - 1)) ++ slice) := by
    rw [← List.append_assoc, hstream]
  refine ⟨happend, ?_, ?_⟩
  · refine hheld.imp_right fun h => ?_
    rw [List.length_append]
    omega
  · rw [happend]
    apply wsMemfind_append
    apply not_starts _ hheld
    rw [hstream]
    exact hfind

theorem uploadFeed_partOf {delim : List UInt8} (hdelim : delim.length + 1 < WS_UPLOAD_WORK)
    (fuel : Nat) (stream data : List UInt8) (hfuel : data.length ≤ fuel)
    (hmore : (partOf delim stream).ends = .more) :
    let r := uploadFeed delim fuel (partOf delim stream).tail data
    { r with out := (partOf delim stream).out ++ r.out } = partOf delim (stream ++ data) := by
  induction fuel generalizing stream data with
  | zero =>
    obtain rfl := List.length_eq_zero_iff.mp (Nat.le_zero.mp hfuel)
    simp only [uploadFeed, List.append_nil, ← hmore]
  | succ fuel ih =>
    by_cases hdata : data = []
    · simp only [uploadFeed, hdata, if_true, List.append_nil, ← hmore]
    · have htail := length_partOf_tail hmore
      have hpos : 0 < data.length := List.length_pos_iff.mpr hdata
      rw [uploadFeed, if_neg hdata]
      generalize hn : WS_UPLOAD_WORK - (partOf delim stream).tail.length = n
      have hsplit : data.take n ++ data.drop n = data := List.take_append_drop n data
      have hslice : data.take n ≠ [] := by
        simp only [ne_eq, List.take_eq_nil_iff, not_or]
        exact ⟨by omega, hdata⟩
      cases hfind : wsMemfind delim stream with
      | some p =>
        have hlt : (stream.drop (p + delim.length)).length < 2 := by
          rw [partOf_found hfind] at hmore
          exact afterBoundary_more hmore
        obtain ⟨hstart, hscan, hout⟩ := @uploadScan_waiting delim stream (data.take n) (data.drop n) p hfind hslice
        have htail' : (partOf delim stream).tail = delim ++ stream.drop (p + delim.length) := by
          rw [partOf_found hfind]
          simp only [List.take_of_length_le (Nat.le_of_lt hlt)]
        rw [hsplit] at hscan hout
        simp only [htail', hstart, Option.isSome_some, if_true, hscan, List.append_nil]
        rw [partOf_found hfind, ← hout]
      | none =>
        obtain ⟨happend, hheld, hsearch⟩ := @uploadScan_searching delim stream (data.take n) hfind
        rw [partOf_none hfind]
        simp only at happend hheld hsearch ⊢
        have hstream : stream ++ data = (stream ++ data.take n) ++ data.drop n := by
          rw [List.append_assoc, hsplit]
        generalize stream.take (stream.length - (delim.length - 1)) = w at *
        generalize stream.drop (stream.length - (delim.length - 1)) ++ data.take n = work at *
        cases hwork : wsMemfind delim work with
        | some p =>
          -- the boundary is in this slice
          rw [hwork] at hsearch
          have hfits := found_fits hwork
          have hdrop : (w ++ work ++ data.drop n).drop (p + w.length + delim.length)
              = work.drop (p + delim.length) ++ data.drop n := by
            rw [List.append_assoc, List.drop_append, List.drop_eq_nil_of_le (by omega),
              List.nil_append, show p + w.length + delim.length - w.length = p + delim.length by omega,
              List.drop_append_of_le_length hfits]
          have htake : (w ++ work ++ data.drop n).take (p + w.length) = w ++ work.take p := by
            rw [List.append_assoc, List.take_append, List.take_of_length_le (by omega),
              Nat.add_sub_cancel, List.take_append_of_le_length (by omega)]
          rw [hstream, partOf_found (wsMemfind_append_right hsearch (data.drop n)), happend, hdrop,
            htake]
          simp only [Option.isSome_some, if_true, uploadScan, hwork]
        | none =>
          rw [hwork] at hsearch
          have hscan : partOf delim (stream ++ data.take n)
              = ⟨w ++ (uploadScan delim work (data.drop n)).out,
                (uploadScan delim work (data.drop n)).tail, .more⟩ := by
            rw [partOf_none hsearch, happend]
            simp only [uploadScan, hwork, List.length_append]
            rcases hheld with rfl | hheld
            · simp
            · rw [show w.length + work.length - (delim.length - 1)
                = w.length + (work.length - (delim.length - 1)) by omega, List.take_length_add_append,
                List.drop_length_add_append]
          have hrest := ih (stream ++ data.take n) (data.drop n) (by rw [List.length_drop]; omega)
            (by rw [hscan])
          rw [hstream, ← hrest, hscan]
          simp only [Option.isSome_none, Bool.false_eq_true, if_false, List.append_assoc]

/-! ### Staging -/

/-- `dl_buf` and what `f_write` was given before it. -/
structure Sink where
  buf : List UInt8 := []
  written : List UInt8 := []
deriving DecidableEq, Repr

/-- What can stop a burst: the Beeb holds the file (in-place mode only), or the write fails, or is
short, after so many bytes.  Bursts are told apart by where in the file they start. -/
structure WriteFault where
  busy : Bool := false
  fails : Nat → Option Nat := fun _ => none

structure Stopped where
  status : Nat
  part : List UInt8
deriving DecidableEq, Repr

/-- `dav_put_flush` and `upload_flush`. -/
def Sink.flush (f : WriteFault) (s : Sink) : Except Stopped Sink :=
  if s.buf = [] then .ok s
  else if f.busy then .error ⟨423, s.written⟩
  else
    match f.fails s.written.length with
    | some n => .error ⟨507, s.written ++ s.buf.take n⟩
    | none => .ok ⟨[], s.written ++ s.buf⟩

/-- `dav_put_write_bytes` and `upload_write`, a byte at a time: a full buffer is flushed. -/
def Sink.write (f : WriteFault) : Sink → List UInt8 → Except Stopped Sink
  | s, [] => .ok s
  | s, b :: bytes =>
      let s' : Sink := { s with buf := s.buf ++ [b] }
      if s'.buf.length = WS_FILE_CHUNK then
        match s'.flush f with
        | .ok s'' => Sink.write f s'' bytes
        | .error e => .error e
      else Sink.write f s' bytes

def Sink.all (s : Sink) : List UInt8 := s.written ++ s.buf

theorem Sink.flush_ok {f : WriteFault} {s s' : Sink} (h : s.flush f = .ok s') :
    s'.buf = [] ∧ s'.written = s.all := by
  unfold Sink.flush at h
  split at h
  · next hbuf =>
    cases h
    exact ⟨hbuf, by rw [Sink.all, hbuf, List.append_nil]⟩
  · split at h
    · cases h
    · split at h
      · cases h
      · cases h
        exact ⟨rfl, rfl⟩

theorem Sink.write_ok {f : WriteFault} {s s' : Sink} {bytes : List UInt8}
    (h : s.write f bytes = .ok s') : s'.all = s.all ++ bytes := by
  induction bytes generalizing s with
  | nil =>
    cases h
    rw [List.append_nil]
  | cons b bytes ih =>
    rw [Sink.write] at h
    have hall : ({ s with buf := s.buf ++ [b] } : Sink).all = s.all ++ [b] := by
      rw [Sink.all, Sink.all, List.append_assoc]
    simp only at h
    split at h
    · split at h
      · next s'' hflush =>
        obtain ⟨hbuf, hwritten⟩ := Sink.flush_ok hflush
        have hall' : s''.all = s.all ++ [b] := by
          rw [Sink.all, hbuf, hwritten, List.append_nil, hall]
        rw [ih h, hall', List.append_assoc]
        rfl
      · cases h
    · rw [ih h, hall, List.append_assoc]
      rfl

def WriteFault.Never (f : WriteFault) : Prop := f.busy = false ∧ ∀ n, f.fails n = none

theorem Sink.flush_never {f : WriteFault} (hf : f.Never) (s : Sink) : ∃ s', s.flush f = .ok s' := by
  unfold Sink.flush
  by_cases hempty : s.buf = []
  · exact ⟨s, if_pos hempty⟩
  · rw [if_neg hempty, hf.1, if_neg Bool.false_ne_true, hf.2]
    exact ⟨_, rfl⟩

theorem Sink.write_never {f : WriteFault} (hf : f.Never) (s : Sink) (bytes : List UInt8) :
    ∃ s', s.write f bytes = .ok s' := by
  induction bytes generalizing s with
  | nil => exact ⟨s, rfl⟩
  | cons b bytes ih =>
    rw [Sink.write]
    simp only
    split
    · obtain ⟨s', hs'⟩ := Sink.flush_never hf { s with buf := s.buf ++ [b] }
      rw [hs']
      exact ih s'
    · exact ih _

end Pi1MHz.Ws
