import Mathlib.Tactic.Common
import Pi1MHz.WsBody

/-!
# The web server: chunked bodies

The decoder of `dav_put_consume_chunked` as the code runs it, in slices of the segment: a line up to its line
feed, then as much of the chunk as the segment has.
-/

namespace Pi1MHz.Ws

def WS_DRAIN_MAX_BYTES : Nat := 64 * 1024 * 1024

/-! ### The code -/

/-- What `dav_put_consume_chunked` keeps between two segments; `handed` is what it has passed to
`dav_put_write_bytes` so far. -/
structure ChunkedPut where
  d : ChunkDecoder := {}
  draining : Bool := false
  drained : Nat := 0
  isOpen : Bool := true
  sink : Sink := {}
  handed : List UInt8 := []
deriving DecidableEq, Repr

/-- How a call ends: more is wanted, `dav_put_finish` was called, the size line was refused, more was drained than
is allowed, or `dav_put_write_bytes` failed. -/
inductive ChunkVerdict where
  | more
  | finish
  | malformed
  | tooLarge
  | writeFailed
deriving DecidableEq, Repr

structure ChunkedCall where
  c : ChunkedPut
  verdict : ChunkVerdict
  rest : List UInt8
deriving DecidableEq, Repr

def ChunkDecoder.lineLoop (d : ChunkDecoder) : List UInt8 → ChunkDecoder × BodyEnd × List UInt8
  | [] => (d, .more, [])
  | ch :: rest => if ch = 0x0A then (d.lineEnd.1, d.lineEnd.2, rest) else (d.lineByte ch).lineLoop rest

def davPutWriteBytes (f : WriteFault) (c : ChunkedPut) (bytes : List UInt8) : Option ChunkedPut :=
  if c.isOpen = false ∨ bytes = [] then some { c with handed := c.handed ++ bytes }
  else
    match c.sink.write f bytes with
    | .ok sink => some { c with sink := sink, handed := c.handed ++ bytes }
    | .error _ => none

def ChunkDecoder.took (d : ChunkDecoder) (take : Nat) : ChunkDecoder :=
  { d with
    remaining := d.remaining - take
    phase := if d.remaining - take = 0 then .dataCrlf else .data }

def ChunkDecoder.skipped (d : ChunkDecoder) (len : Nat) : ChunkDecoder × Nat :=
  let remaining := if d.remaining = 0 then 2 else d.remaining
  let take := min len remaining
  ({ d with
      remaining := remaining - take
      phase := if remaining - take = 0 then .size else .dataCrlf }, take)

/-- The loop of `dav_put_consume_chunked`. -/
def consumeLoop (f : WriteFault) : Nat → ChunkedPut → List UInt8 → ChunkedCall
  | 0, c, data => ⟨c, .more, data⟩
  | fuel + 1, c, data =>
    if data = [] then ⟨c, .more, []⟩
    else
      match c.d.phase with
      | .size | .trailer =>
        match c.d.lineLoop data with
        | (d, .more, rest) => consumeLoop f fuel { c with d := d } rest
        | (d, .done, rest) => ⟨{ c with d := d }, .finish, rest⟩
        | (d, .malformed, rest) => ⟨{ c with d := d }, .malformed, rest⟩
      | .data =>
        let take := min data.length c.d.remaining
        if c.draining = true ∧ c.drained + take > WS_DRAIN_MAX_BYTES then ⟨c, .tooLarge, data⟩
        else
          let c := if c.draining then { c with drained := c.drained + take } else c
          match davPutWriteBytes f c (data.take take) with
          | none => ⟨c, .writeFailed, data⟩
          | some c => consumeLoop f fuel { c with d := c.d.took take } (data.drop take)
      | .dataCrlf =>
        consumeLoop f fuel { c with d := (c.d.skipped data.length).1 } (data.drop (c.d.skipped data.length).2)

def davPutConsumeChunked (f : WriteFault) (c : ChunkedPut) (data : List UInt8) : ChunkedCall :=
  consumeLoop f data.length c data

/-- The segments one after the other, until a call ends the body: the state, the verdict, and how many bytes were
consumed. -/
def consumeSegments (f : WriteFault) : ChunkedPut → List (List UInt8) → ChunkedPut × ChunkVerdict × Nat
  | c, [] => (c, .more, 0)
  | c, p :: ps =>
    let r := davPutConsumeChunked f c p
    if r.verdict = .more then
      let r' := consumeSegments f r.c ps
      (r'.1, r'.2.1, (p.length - r.rest.length) + r'.2.2)
    else (r.c, r.verdict, p.length - r.rest.length)

/-! ### Slices and bytes -/

def ChunkDecoder.Ok (d : ChunkDecoder) : Prop := d.phase = .data → 0 < d.remaining

def ChunkVerdict.of : BodyEnd → ChunkVerdict
  | .more => .more
  | .done => .finish
  | .malformed => .malformed

theorem lineByte_phase (d : ChunkDecoder) (ch : UInt8) : (d.lineByte ch).phase = d.phase := by
  unfold ChunkDecoder.lineByte
  split_ifs <;> rfl

theorem lineEnd_ok (d : ChunkDecoder) : d.phase = .size ∨ d.phase = .trailer → d.lineEnd.1.Ok := by
  intro hphase hdata
  unfold ChunkDecoder.lineEnd at hdata ⊢
  by_cases htrailer : d.phase = .trailer
  · simp only [if_pos htrailer] at hdata
    rw [htrailer] at hdata
    cases hdata
  · simp only [if_neg htrailer] at hdata ⊢
    have hsize : d.phase = .size := hphase.resolve_right htrailer
    split at hdata
    · rw [hsize] at hdata
      cases hdata
    · cases hdata
    · rename_i n hne hmatch
      exact Nat.pos_of_ne_zero hne

theorem feed_line {d : ChunkDecoder} (hphase : d.phase = .size ∨ d.phase = .trailer) (data : List UInt8) :
    d.feed data =
      if (d.lineLoop data).2.1 = .more then (d.lineLoop data).1.feed (d.lineLoop data).2.2
      else ⟨[], .chunked (d.lineLoop data).1, (d.lineLoop data).2.1, (d.lineLoop data).2.2⟩ := by
  induction data generalizing d with
  | nil => rfl
  | cons ch data ih =>
    have hbyte : d.byte ch = if ch = 0x0A then ((d.lineEnd).1, [], (d.lineEnd).2) else (d.lineByte ch, [], .more) := by
      unfold ChunkDecoder.byte
      rcases hphase with hphase | hphase
      · rw [hphase]
      · rw [hphase]
    rw [ChunkDecoder.feed, hbyte, ChunkDecoder.lineLoop]
    by_cases hlf : ch = 0x0A
    · rw [if_pos hlf, if_pos hlf]
      rfl
    · rw [if_neg hlf, if_neg hlf]
      simp only [if_true]
      rw [← lineByte_phase d ch] at hphase
      rw [ih hphase]
      split_ifs <;> rfl

theorem behind_nil (r : Decoded) : r.behind [] = r := rfl

theorem behind_behind (r : Decoded) (a b : List UInt8) : (r.behind b).behind a = r.behind (a ++ b) := by
  unfold Decoded.behind
  simp only [List.append_assoc]

theorem feed_data {d : ChunkDecoder} (hphase : d.phase = .data) (bytes rest : List UInt8) (hpos : bytes ≠ [])
    (hfit : bytes.length ≤ d.remaining) :
    d.feed (bytes ++ rest) = ((d.took bytes.length).feed rest).behind bytes := by
  induction bytes generalizing d with
  | nil => exact absurd rfl hpos
  | cons ch bytes ih =>
    have hbyte : d.byte ch = (d.took 1, [ch], .more) := by
      unfold ChunkDecoder.byte
      rw [hphase]
      rfl
    rw [List.cons_append, ChunkDecoder.feed, hbyte, if_pos rfl]
    by_cases hlast : bytes = []
    · rw [hlast]
      rfl
    · rw [List.length_cons] at hfit ⊢
      have hmore : 0 < bytes.length := List.length_pos_iff.mpr hlast
      have hleft : (d.took 1).remaining = d.remaining - 1 := rfl
      have hdata : (d.took 1).phase = .data := if_neg (by omega)
      have htook : (d.took 1).took bytes.length = d.took (bytes.length + 1) := by
        unfold ChunkDecoder.took
        simp only [Nat.sub_sub, Nat.add_comm 1]
      rw [ih hdata hlast (by omega), htook, behind_behind]
      rfl

theorem feed_crlf {d : ChunkDecoder} (hphase : d.phase = .dataCrlf) (bytes rest : List UInt8) (hpos : bytes ≠ [])
    (hfit : bytes.length ≤ if d.remaining = 0 then 2 else d.remaining) :
    d.feed (bytes ++ rest) = (d.skipped bytes.length).1.feed rest := by
  induction bytes generalizing d with
  | nil => exact absurd rfl hpos
  | cons ch bytes ih =>
    have hbyte : d.byte ch = ((d.skipped 1).1, [], .more) := by
      have hone : min 1 (if d.remaining = 0 then 2 else d.remaining) = 1 := by
        split <;> omega
      unfold ChunkDecoder.byte ChunkDecoder.skipped
      rw [hphase]
      simp only [hone]
    rw [List.cons_append, ChunkDecoder.feed, hbyte, if_pos rfl, behind_nil]
    by_cases hlast : bytes = []
    · rw [hlast]
      rfl
    · rw [List.length_cons] at hfit ⊢
      have hmore : 0 < bytes.length := List.length_pos_iff.mpr hlast
      generalize hwait : (if d.remaining = 0 then 2 else d.remaining) = wait at hfit
      have hskip : ∀ n, n ≤ wait → d.skipped n = ({ d with
          remaining := wait - n, phase := if wait - n = 0 then .size else .dataCrlf }, n) := by
        intro n hn
        unfold ChunkDecoder.skipped
        simp only [hwait, Nat.min_eq_left hn]
      have hone := hskip 1 (by omega)
      have hcrlf : (d.skipped 1).1.phase = .dataCrlf := by
        rw [hone]
        exact if_neg (by omega)
      have hleft : (d.skipped 1).1.remaining = wait - 1 := by rw [hone]
      have hnext : (if (d.skipped 1).1.remaining = 0 then 2 else (d.skipped 1).1.remaining) = wait - 1 := by
        rw [hleft]
        exact if_neg (by omega)
      have hboth : ((d.skipped 1).1.skipped bytes.length).1 = (d.skipped (bytes.length + 1)).1 := by
        rw [hskip _ hfit]
        unfold ChunkDecoder.skipped at hnext ⊢
        simp only at hnext ⊢
        simp only [hwait] at hnext ⊢
        rw [Nat.min_eq_left (by omega)] at hnext ⊢
        rw [hnext, Nat.min_eq_left (by omega), Nat.sub_sub, Nat.add_comm 1]
      rw [ih hcrlf hlast (by rw [hnext]; omega), hboth]

theorem davPutWriteBytes_some {f : WriteFault} (hf : f.Never) (c : ChunkedPut) (bytes : List UInt8) :
    ∃ sink, davPutWriteBytes f c bytes = some { c with sink := sink, handed := c.handed ++ bytes } ∧
      (c.isOpen = true → sink.all = c.sink.all ++ bytes) := by
  unfold davPutWriteBytes
  split
  · rename_i hskip
    refine ⟨c.sink, rfl, ?_⟩
    intro hopen
    have hempty : bytes = [] := hskip.resolve_left (by rw [hopen]; exact Bool.false_ne_true.symm)
    rw [hempty, List.append_nil]
  · obtain ⟨sink, hsink⟩ := Sink.write_never hf c.sink bytes
    rw [hsink]
    exact ⟨sink, rfl, fun _ => Sink.write_ok hsink⟩

theorem lineLoop_ok {d : ChunkDecoder} (hphase : d.phase = .size ∨ d.phase = .trailer) (data : List UInt8) :
    (d.lineLoop data).1.Ok ∧ (d.lineLoop data).2.2.length ≤ data.length - 1 := by
  induction data generalizing d with
  | nil =>
    refine ⟨?_, Nat.le_refl _⟩
    intro hdata
    rcases hphase with h | h
    · exact absurd (hdata.symm.trans h) (by decide)
    · exact absurd (hdata.symm.trans h) (by decide)
  | cons ch data ih =>
    rw [ChunkDecoder.lineLoop]
    split
    · exact ⟨lineEnd_ok d hphase, Nat.le_refl _⟩
    · rw [← lineByte_phase d ch] at hphase
      obtain ⟨hok, hle⟩ := ih hphase
      exact ⟨hok, Nat.le_trans hle (Nat.sub_le _ _)⟩

def ChunkedPut.Roomy (c : ChunkedPut) (stream : List UInt8) : Prop :=
  c.draining = true → c.drained + (c.d.feed stream).out.length ≤ WS_DRAIN_MAX_BYTES

structure Agrees (c : ChunkedPut) (e : Decoded) (r : ChunkedCall) : Prop where
  handed : r.c.handed = c.handed ++ e.out
  verdict : r.verdict = .of e.ends
  rest : r.rest = e.rest
  body : e.body = .chunked r.c.d
  ok : r.c.d.Ok
  draining : r.c.draining = c.draining
  isOpen : r.c.isOpen = c.isOpen
  drained : c.draining = true → r.c.drained = c.drained + e.out.length
  file : c.isOpen = true → r.c.sink.all = c.sink.all ++ e.out

theorem Agrees.behind {c c' : ChunkedPut} {e : Decoded} {r : ChunkedCall} {out : List UInt8} (h : Agrees c' e r)
    (hhanded : c'.handed = c.handed ++ out) (hdraining : c'.draining = c.draining) (hopen : c'.isOpen = c.isOpen)
    (hdrained : c.draining = true → c'.drained = c.drained + out.length)
    (hfile : c.isOpen = true → c'.sink.all = c.sink.all ++ out) : Agrees c (e.behind out) r := by
  refine { h with handed := ?_, draining := ?_, isOpen := ?_, drained := ?_, file := ?_ }
  · rw [h.handed, hhanded, List.append_assoc]
    rfl
  · exact h.draining.trans hdraining
  · exact h.isOpen.trans hopen
  · intro hdrain
    have hout : (e.behind out).out = out ++ e.out := rfl
    rw [h.drained (hdraining.trans hdrain), hdrained hdrain, hout, List.length_append, Nat.add_assoc]
  · intro hisOpen
    rw [h.file (hopen.trans hisOpen), hfile hisOpen, List.append_assoc]
    rfl

theorem agrees_stop {c : ChunkedPut} {d : ChunkDecoder} (hok : d.Ok) (ends : BodyEnd) (rest : List UInt8) :
    Agrees c ⟨[], .chunked d, ends, rest⟩ ⟨{ c with d := d }, .of ends, rest⟩ := by
  constructor
  · exact (List.append_nil _).symm
  · rfl
  · rfl
  · rfl
  · exact hok
  · rfl
  · rfl
  · exact fun _ => rfl
  · exact fun _ => (List.append_nil _).symm

theorem consumeLoop_agrees {f : WriteFault} (hf : f.Never) (fuel : Nat) (c : ChunkedPut) (data : List UInt8)
    (hfuel : data.length ≤ fuel) (hok : c.d.Ok) (hroom : c.Roomy data) :
    Agrees c (c.d.feed data) (consumeLoop f fuel c data) := by
  induction fuel generalizing c data with
  | zero =>
    obtain rfl := List.length_eq_zero_iff.mp (Nat.le_zero.mp hfuel)
    exact agrees_stop hok .more []
  | succ fuel ih =>
    rw [consumeLoop]
    by_cases hempty : data = []
    · rw [if_pos hempty, hempty]
      exact agrees_stop hok .more []
    rw [if_neg hempty]
    have hlength : 0 < data.length := List.length_pos_iff.mpr hempty
    have hline : c.d.phase = .size ∨ c.d.phase = .trailer → Agrees c (c.d.feed data)
        (match c.d.lineLoop data with
          | (d, .more, rest) => consumeLoop f fuel { c with d := d } rest
          | (d, .done, rest) => ⟨{ c with d := d }, .finish, rest⟩
          | (d, .malformed, rest) => ⟨{ c with d := d }, .malformed, rest⟩) := by
      intro hphase
      have hfeed := feed_line hphase data
      obtain ⟨hokLine, hshort⟩ := lineLoop_ok hphase data
      generalize c.d.lineLoop data = line at hfeed hokLine hshort ⊢
      obtain ⟨d, ends, rest⟩ := line
      have hle : rest.length ≤ data.length - 1 := hshort
      cases ends with
      | more =>
        rw [if_pos rfl] at hfeed
        rw [ChunkedPut.Roomy, hfeed] at hroom
        rw [hfeed]
        have hrest := ih { c with d := d } rest (by omega) hokLine hroom
        exact Agrees.behind (c := c) hrest (List.append_nil _).symm rfl rfl (fun _ => rfl)
          fun _ => (List.append_nil _).symm
      | done =>
        rw [if_neg nofun] at hfeed
        rw [hfeed]
        exact agrees_stop hokLine .done rest
      | malformed =>
        rw [if_neg nofun] at hfeed
        rw [hfeed]
        exact agrees_stop hokLine .malformed rest
    cases hphase : c.d.phase with
    | size => exact hline (.inl hphase)
    | trailer => exact hline (.inr hphase)
    | data =>
      have hleft := hok hphase
      generalize htake : min data.length c.d.remaining = take
      have htakePos : 0 < take := by omega
      have htakeLength : (data.take take).length = take := by
        rw [List.length_take]
        omega
      have hslice : data.take take ≠ [] := List.length_pos_iff.mp (by omega)
      have hfeed := feed_data hphase (data.take take) (data.drop take) hslice (by omega)
      rw [List.take_append_drop, htakeLength] at hfeed
      have hcap : ¬ (c.draining = true ∧ c.drained + take > WS_DRAIN_MAX_BYTES) := by
        rintro ⟨hdrain, hover⟩
        have hlimit := hroom hdrain
        have hout : ((c.d.took take).feed (data.drop take)).behind (data.take take) =
            c.d.feed data := hfeed.symm
        have hlen : (c.d.feed data).out.length =
            take + ((c.d.took take).feed (data.drop take)).out.length := by
          rw [← hout]
          show (data.take take ++ _).length = _
          rw [List.length_append, htakeLength]
        omega
      rw [if_neg hcap]
      have hcount : ∀ b : Bool, c.draining = b → ∃ drained,
          (if c.draining then { c with drained := c.drained + take } else c) = { c with drained := drained } ∧
            (c.draining = true → drained = c.drained + take) := by
        intro b hb
        cases b with
        | true => exact ⟨c.drained + take, if_pos hb, fun _ => rfl⟩
        | false =>
          refine ⟨c.drained, if_neg (by rw [hb]; exact Bool.false_ne_true), ?_⟩
          intro hdrain
          rw [hb] at hdrain
          cases hdrain
      obtain ⟨drained, hcounted, hdrained⟩ := hcount c.draining rfl
      simp only [hcounted]
      obtain ⟨sink, hwrite, hfile⟩ := davPutWriteBytes_some hf { c with drained := drained } (data.take take)
      rw [hwrite, hfeed]
      have hokTook : (c.d.took take).Ok := by
        intro hdata
        unfold ChunkDecoder.took at hdata ⊢
        simp only at hdata ⊢
        by_contra hzero
        rw [if_pos (Nat.eq_zero_of_not_pos hzero)] at hdata
        cases hdata
      have hroomTook : ChunkedPut.Roomy { c with
          drained := drained, sink := sink, handed := c.handed ++ data.take take, d := c.d.took take }
          (data.drop take) := by
        intro hdrain
        have hlimit := hroom hdrain
        have hlen : (c.d.feed data).out.length = take + ((c.d.took take).feed (data.drop take)).out.length := by
          rw [hfeed]
          show (data.take take ++ _).length = _
          rw [List.length_append, htakeLength]
        show drained + ((c.d.took take).feed (data.drop take)).out.length ≤ _
        rw [hdrained hdrain]
        omega
      have hrest := ih { c with
          drained := drained, sink := sink, handed := c.handed ++ data.take take, d := c.d.took take }
        (data.drop take) (by rw [List.length_drop]; omega) hokTook hroomTook
      refine hrest.behind rfl rfl rfl ?_ hfile
      intro hdrain
      rw [htakeLength]
      exact hdrained hdrain
    | dataCrlf =>
      simp only
      generalize hwait : (if c.d.remaining = 0 then 2 else c.d.remaining) = wait
      have hwaitPos : 0 < wait := by
        rw [← hwait]
        split <;> omega
      have hskipped : (c.d.skipped data.length).2 = min data.length wait := by
        rw [← hwait]
        rfl
      have htakeLength : (data.take (min data.length wait)).length = min data.length wait := by
        rw [List.length_take]
        omega
      have hslice : data.take (min data.length wait) ≠ [] := List.length_pos_iff.mp (by omega)
      have hfeed := feed_crlf hphase (data.take (min data.length wait)) (data.drop (min data.length wait)) hslice
        (by rw [hwait]; omega)
      have hsame : (c.d.skipped (min data.length wait)).1 = (c.d.skipped data.length).1 := by
        unfold ChunkDecoder.skipped
        simp only [hwait, Nat.min_assoc, Nat.min_self]
      rw [List.take_append_drop, htakeLength, hsame] at hfeed
      rw [hskipped, hfeed]
      have hokSkipped : (c.d.skipped data.length).1.Ok := by
        intro hdata
        unfold ChunkDecoder.skipped at hdata
        simp only at hdata
        generalize (if c.d.remaining = 0 then 2 else c.d.remaining) - min data.length
          (if c.d.remaining = 0 then 2 else c.d.remaining) = left at hdata
        by_cases hlast : left = 0
        · rw [if_pos hlast] at hdata
          cases hdata
        · rw [if_neg hlast] at hdata
          cases hdata
      rw [ChunkedPut.Roomy, hfeed] at hroom
      have hrest := ih { c with d := (c.d.skipped data.length).1 } (data.drop (min data.length wait))
        (by rw [List.length_drop]; omega) hokSkipped hroom
      exact Agrees.behind (c := c) hrest (List.append_nil _).symm rfl rfl (fun _ => rfl)
        fun _ => (List.append_nil _).symm

theorem consumeChunked_agrees {f : WriteFault} (hf : f.Never) {c : ChunkedPut} {data : List UInt8} (hok : c.d.Ok)
    (hroom : c.Roomy data) : Agrees c (c.d.feed data) (davPutConsumeChunked f c data) :=
  consumeLoop_agrees hf data.length c data (Nat.le_refl _) hok hroom

/-! ### Segments -/

theorem feed_append_stop (d : ChunkDecoder) (a b : List UInt8) (hstop : (d.feed a).ends ≠ .more) :
    d.feed (a ++ b) = { d.feed a with rest := (d.feed a).rest ++ b } := by
  induction a generalizing d with
  | nil => exact absurd rfl hstop
  | cons ch a ih =>
    rw [List.cons_append, ChunkDecoder.feed, ChunkDecoder.feed]
    rw [ChunkDecoder.feed] at hstop
    by_cases hbyte : (d.byte ch).2.2 = .more
    · rw [if_pos hbyte] at hstop
      rw [if_pos hbyte, if_pos hbyte, ih _ hstop]
      rfl
    · rw [if_neg hbyte, if_neg hbyte]

theorem feed_rest_length (d : ChunkDecoder) (data : List UInt8) : (d.feed data).rest.length ≤ data.length := by
  induction data generalizing d with
  | nil => exact Nat.le_refl _
  | cons ch data ih =>
    rw [ChunkDecoder.feed]
    split
    · exact Nat.le_trans (ih _) (Nat.le_succ _)
    · exact Nat.le_succ _

theorem feed_rest_more (d : ChunkDecoder) (data : List UInt8) (hmore : (d.feed data).ends = .more) :
    (d.feed data).rest = [] := by
  induction data generalizing d with
  | nil => rfl
  | cons ch data ih =>
    rw [ChunkDecoder.feed] at hmore ⊢
    by_cases hbyte : (d.byte ch).2.2 = .more
    · rw [if_pos hbyte] at hmore ⊢
      exact ih _ hmore
    · rw [if_neg hbyte] at hmore
      exact absurd hmore hbyte

theorem of_eq_more {ends : BodyEnd} : ChunkVerdict.of ends = .more ↔ ends = .more := by
  cases ends <;> decide

theorem consumeSegments_agrees {f : WriteFault} (hf : f.Never) (pieces : List (List UInt8)) {c : ChunkedPut}
    (hok : c.d.Ok) (hroom : c.Roomy pieces.flatten) :
    (consumeSegments f c pieces).1.handed = c.handed ++ (c.d.feed pieces.flatten).out ∧
      (consumeSegments f c pieces).2.1 = .of (c.d.feed pieces.flatten).ends ∧
      (consumeSegments f c pieces).2.2 = pieces.flatten.length - (c.d.feed pieces.flatten).rest.length ∧
      (c.isOpen = true →
        (consumeSegments f c pieces).1.sink.all = c.sink.all ++ (c.d.feed pieces.flatten).out) := by
  induction pieces generalizing c with
  | nil => exact ⟨(List.append_nil _).symm, rfl, rfl, fun _ => (List.append_nil _).symm⟩
  | cons p ps ih =>
    rw [List.flatten_cons] at hroom ⊢
    by_cases hmore : (c.d.feed p).ends = .more
    · have hfeed := ChunkDecoder.feed_append c.d p ps.flatten hmore
      have hfirstRoom : c.Roomy p := by
        intro hdrain
        have hlimit := hroom hdrain
        have hout : (c.d.feed (p ++ ps.flatten)).out =
            (c.d.feed p).out ++ ((c.d.feed p).body.feed ps.flatten).out := congrArg Decoded.out hfeed
        rw [hout, List.length_append] at hlimit
        omega
      have hfirst := consumeChunked_agrees hf hok hfirstRoom
      have hverdict : (davPutConsumeChunked f c p).verdict = .more := by
        rw [hfirst.verdict]
        exact of_eq_more.mpr hmore
      have hrest : (davPutConsumeChunked f c p).rest = [] := by
        rw [hfirst.rest]
        exact feed_rest_more c.d p hmore
      rw [hfirst.body] at hfeed
      have hlaterRoom : (davPutConsumeChunked f c p).c.Roomy ps.flatten := by
        intro hdrain
        rw [hfirst.draining] at hdrain
        have hlimit := hroom hdrain
        have hout : (c.d.feed (p ++ ps.flatten)).out = (c.d.feed p).out ++
            ((davPutConsumeChunked f c p).c.d.feed ps.flatten).out := congrArg Decoded.out hfeed
        rw [hout, List.length_append] at hlimit
        rw [hfirst.drained hdrain]
        omega
      obtain ⟨hhanded, hends, hcount, hfile⟩ := ih hfirst.ok hlaterRoom
      have hshort := feed_rest_length (davPutConsumeChunked f c p).c.d ps.flatten
      rw [consumeSegments]
      simp only
      rw [if_pos hverdict, hfeed]
      refine ⟨?_, hends, ?_, ?_⟩
      · rw [hhanded, hfirst.handed, List.append_assoc]
        rfl
      · show _ + (consumeSegments f (davPutConsumeChunked f c p).c ps).2.2 = _ -
          ((davPutConsumeChunked f c p).c.d.feed ps.flatten).rest.length
        rw [hcount, hrest, List.length_append, List.length_nil]
        omega
      · intro hopen
        rw [hfile (hfirst.isOpen.trans hopen), hfirst.file hopen, List.append_assoc]
        rfl
    · have hfeed := feed_append_stop c.d p ps.flatten hmore
      have hfirstRoom : c.Roomy p := by
        intro hdrain
        have hlimit := hroom hdrain
        rw [hfeed] at hlimit
        exact hlimit
      have hfirst := consumeChunked_agrees hf hok hfirstRoom
      have hverdict : (davPutConsumeChunked f c p).verdict ≠ .more := by
        rw [hfirst.verdict]
        exact fun h => hmore (of_eq_more.mp h)
      have hshort := feed_rest_length c.d p
      rw [consumeSegments]
      simp only
      rw [if_neg hverdict, hfeed]
      refine ⟨hfirst.handed, hfirst.verdict, ?_, hfirst.file⟩
      show p.length - (davPutConsumeChunked f c p).rest.length = _ - ((c.d.feed p).rest ++ ps.flatten).length
      rw [hfirst.rest, List.length_append, List.length_append]
      omega

end Pi1MHz.Ws
