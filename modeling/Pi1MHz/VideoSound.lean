import Pi1MHz.VideoStill
import Pi1MHz.CounterRing

/-!
# The sound of the video player

The audio ring of `videoplayer.c`: feeding a frame writes the sound of its record into the ring before the access
unit is submitted, and the pump takes pairs of samples out of it while the player plays.

Left out: the words for the PWM, which `PwmAudio` has.
-/

namespace Pi1MHz.VideoPlayer

open CounterRing (Masked)
open History (final)

def AUDIO_RING_FRAMES : UInt32 := 8

def H264DEC_INPUT_BUF_SIZE : UInt32 := 512 * 1024

def DMA_BUFFER_SIZE : Nat := 448

/-- What `pvf_record_t` says of a frame, and its sound. -/
structure Record where
  videoLen : UInt32
  audio : List UInt8

abbrev Pair := Int16 × Int16

/-- The sound of the player; `present` is `audio_present` and `audio_inited`, which are set together.  Nothing uses the
ring of a player without sound. -/
structure Audio where
  present : Bool := false
  onLeft : Bool := false
  onRight : Bool := false
  ring : Masked UInt8 := ⟨fun _ => 0, 1, 0, 0⟩
  submitted : List UInt32 := []
  taken : List Pair := []
  heard : List Pair := []
  touched : List Nat := []

def audioRingWrite (data : List UInt8) (q : Audio) : Audio :=
  { q with
    ring := q.ring.pushAll data
    touched := q.touched ++ (List.range data.length).map fun i => q.ring.index (q.ring.wr + UInt32.ofNat i) }

def audioRingReset (q : Audio) : Audio := { q with ring := q.ring.clear, submitted := [], taken := [] }

/-- `(int16_t)(low | (high << 8))`. -/
def sample (low high : UInt8) : Int16 := (low.toUInt16 ||| (high.toUInt16 <<< 8)).toInt16

def takePair (q : Audio) : Pair × Audio :=
  let rd := q.ring.index q.ring.rd
  let pair := (sample (q.ring.buf rd) (q.ring.buf (rd + 1)), sample (q.ring.buf (rd + 2)) (q.ring.buf (rd + 3)))
  (pair, { q with
    ring := q.ring.skip 4
    taken := q.taken ++ [pair]
    touched := q.touched ++ [rd, rd + 1, rd + 2, rd + 3] })

/-- A round of the loop of `audio_pump`. -/
def pumpPair (playing : Bool) (q : Audio) : Audio :=
  let t := if playing = true ∧ 4 ≤ q.ring.level then takePair q else ((0, 0), q)
  { t.2 with heard := t.2.heard ++ [(if q.onLeft = true then t.1.1 else 0, if q.onRight = true then t.1.2 else 0)] }

/-- `audio_pump`, with the number of DMA buffers that are free; one is filled when the player does not play. -/
def audioPump (playing : Bool) (buffers : Nat) (q : Audio) : Audio :=
  if q.present = false then q
  else Nat.iterate (pumpPair playing) (DMA_BUFFER_SIZE / 2 * if playing = true then buffers else min buffers 1) q

/-- What feeding a frame finds: whether an input buffer is free and the record and its access unit can be read,
whether its sound can, and how the submission goes. -/
structure Feeding where
  prepared : Bool
  audioRead : Bool
  submit : Call

def Feeding.call (x : Feeding) : Call where
  arrivals := if x.prepared = true then x.submit.arrivals else []
  ok := x.prepared && x.submit.ok

section

variable (file : UInt32 → Record)

def putsAudio (x : Feeding) (frame : UInt32) (withAudio : Bool) (q : Audio) : Bool :=
  let len := (file frame).audio.length
  let vlen := ((file frame).videoLen + 3) &&& 0xFFFFFFFC
  withAudio && q.present && decide (len ≠ 0) && decide (len ≤ (q.ring.size - q.ring.level).toNat) &&
    decide (len ≤ (H264DEC_INPUT_BUF_SIZE - vlen).toNat) && x.audioRead

/-- `feed_frame`. -/
def feedFrameSound (x : Feeding) (frame : UInt32) (withAudio : Bool) (s : Video) (q : Audio) : Audio :=
  if s.vp.frameCount ≤ frame ∨ x.prepared = false then q
  else
    let q := if putsAudio file x frame withAudio q = true then audioRingWrite (file frame).audio q else q
    if x.submit.ok = true then { q with submitted := q.submitted ++ [frame] } else q

end

/-! ### videoplayer.c -/

structure SoundPoll where
  dec : DecoderPoll
  pumpFirst : Nat
  seekFlush : Flush
  seekFeed : Feeding
  seekUs : UInt32
  feeds : Nat → Feeding
  dueUs : UInt32
  endFlush : Flush
  pumpLast : Nat

def SoundPoll.pictures (a : SoundPoll) : PlayerPoll :=
  ⟨a.dec, a.seekFlush, a.seekFeed.call, a.seekUs, fun k => (a.feeds k).call, a.dueUs, a.endFlush⟩

def seekPlays (s : Video) : Bool := s.vp.seekOp == 'N' || (s.vp.seekOp == 'Q' && s.vp.prevMode == .play)

/-- What the set-up of the sound finds: the rate and the size in the header, whether the PWM is another's, and the
memory of the ring, if it could be had. -/
structure InitSound where
  audioRate : UInt32
  audioBytesPerFrame : UInt32
  pwmOwned : Bool
  memory : Option (Nat → UInt8)

/-- The loop that doubles `audio_ring_size`. -/
def ringSize (need : UInt32) : Nat → UInt32 → UInt32
  | 0, size => size
  | n + 1, size => if size < need then ringSize need n (size <<< 1) else size

def initSound (a : InitSound) : Audio :=
  if a.audioRate = 0 ∨ a.pwmOwned = true then {}
  else
    match a.memory with
    | none => {}
    | some buf => {
      present := true
      onLeft := true
      onRight := true
      ring := ⟨buf, ringSize (a.audioBytesPerFrame * AUDIO_RING_FRAMES) 31 1, 0, 0⟩ }

def videoplayerAudioEnable (channel : Int) (on : Bool) (q : Audio) : Audio :=
  if channel = 0 then { q with onLeft := on } else if channel = 1 then { q with onRight := on } else q

section

variable (M : Machine) (file : UInt32 → Record)

def seekSound (a : SoundPoll) (s : Video) (q : Audio) : Audio :=
  match s.vp.seekFrame with
  | none => q
  | some target =>
    feedFrameSound file a.seekFeed target (seekPlays s) (seekFlushed M a.pictures s).landed (audioRingReset q)

def feedLoopSound (feeds : Nat → Feeding) (limit : UInt32) : Nat → Nat → Video → Audio → Audio
  | 0, _, _, q => q
  | n + 1, k, s, q =>
    if s.vp.inFlight < 2 ∧ s.vp.nextFrame < limit then
      let fed := feedFrameSound file (feeds k) s.vp.nextFrame true s q
      match feedFrame M (feeds k).call s.vp.nextFrame s with
      | (false, _) => fed
      | (true, s) =>
        feedLoopSound feeds limit n (k + 1) { s with vp := { s.vp with nextFrame := s.vp.nextFrame + 1 } } fed
    else q

def modeSound (a : SoundPoll) (s : Video) (q : Audio) : Audio :=
  match s.vp.mode with
  | .play => feedLoopSound M file a.feeds (playLimit s) (playLimit s - s.vp.nextFrame).toNat 0 s q
  | .playRev =>
    let t := flipPending M s
    if WrapClock.reached a.dueUs t.vp.nextFrameDue = true ∧ t.vp.inFlight = 0 ∧ 1 < t.vp.curPicture then
      feedFrameSound file (a.feeds 0) (t.vp.curPicture - 2) false t q
    else q
  | .still | .idle => q

def pollSound (a : SoundPoll) (s : Video) (q : Audio) : Audio :=
  if s.vp.isOpen = false then q
  else
    let polled := h264decPoll M a.dec s
    let q := audioPump (polled.vp.mode == .play) a.pumpFirst q
    let q := seekSound M file a polled q
    let q := modeSound M file a (seekPending M a.pictures polled) q
    audioPump ((videoplayerPoll M a.pictures s).vp.mode == .play) a.pumpLast q

def playFwdSound (s : Video) (q : Audio) : Audio :=
  if s.vp.isOpen = false ∨ s.vp.mode = .play then q else audioRingReset q

inductive AvEvent where
  | init (a : InitAnswer) (sound : InitSound)
  | poll (a : SoundPoll)
  | goto (picture : UInt32) (op : Char)
  | playFwd (a : Flush) (nowUs : UInt32)
  | playRev (a : Flush) (nowUs : UInt32)
  | halt
  | pause
  | stepBy (delta : Int32)
  | audioEnable (channel : Int) (on : Bool)

def AvEvent.pictures : AvEvent → Option Event
  | .init a _ => some (.init a)
  | .poll a => some (.poll a.pictures)
  | .goto picture op => some (.goto picture op)
  | .playFwd a nowUs => some (.playFwd a nowUs)
  | .playRev a nowUs => some (.playRev a nowUs)
  | .halt => some .halt
  | .pause => some .pause
  | .stepBy delta => some (.stepBy delta)
  | .audioEnable _ _ => none

structure Av where
  video : Video := {}
  audio : Audio := {}

def avVideo (s : Video) (e : AvEvent) : Video :=
  match e.pictures with
  | none => s
  | some e => step M s e

def avAudio (s : Av) : AvEvent → Audio
  | .init a sound => if (videoplayerInit M a s.video).vp.isOpen = true then initSound sound else {}
  | .poll a => pollSound M file a s.video s.audio
  | .playFwd _ _ => playFwdSound s.video s.audio
  | .audioEnable channel on => videoplayerAudioEnable channel on s.audio
  | .goto _ _ | .playRev _ _ | .halt | .pause | .stepBy _ => s.audio

def avStep (s : Av) (e : AvEvent) : Av where
  video := avVideo M s.video e
  audio := avAudio M file s e

def pairs : List UInt8 → List Pair
  | a :: b :: c :: d :: rest => (sample a b, sample c d) :: pairs rest
  | _ => []

/-- Since the ring was reset the pairs taken, and behind them those that lie in the ring, are the sound of different
records, one behind the other in the order in which their access units were submitted; the ring holds no more than
its size, and no place outside it was used. -/
structure InStep (q : Audio) : Prop where
  taken : ∃ chosen, List.Sublist chosen q.submitted ∧ chosen.Nodup ∧
    q.taken ++ pairs q.ring.contents = pairs (chosen.flatMap fun frame => (file frame).audio)
  level : q.ring.level ≤ q.ring.size
  touched : ∀ i ∈ q.touched, i < q.ring.size.toNat

def Feeding.Taken (x : Feeding) : Prop := x.prepared = true → x.audioRead = true → x.submit.ok = true

def AvEvent.Taken : AvEvent → Prop
  | .poll a => a.seekFeed.Taken ∧ ∀ k, (a.feeds k).Taken
  | _ => True

end
section

variable {M : Machine}

theorem feedFrame_fst (x : Feeding) (frame : UInt32) (s : Video) :
    (feedFrame M x.call frame s).1 = true ↔ ¬s.vp.frameCount ≤ frame ∧ x.prepared = true ∧ x.submit.ok = true := by
  rw [feedFrame]
  by_cases hcount : s.vp.frameCount ≤ frame
  · simp [hcount]
  · rw [if_neg hcount]
    cases hprepared : x.prepared <;> cases hok : x.submit.ok <;> simp [Feeding.call, hprepared, hok, hcount]

end

theorem pairs_append {xs : List UInt8} (h : 4 ∣ xs.length) (ys : List UInt8) :
    pairs (xs ++ ys) = pairs xs ++ pairs ys := by
  obtain ⟨k, hk⟩ := h
  induction k generalizing xs with
  | zero =>
    obtain rfl := List.eq_nil_of_length_eq_zero (show xs.length = 0 by omega)
    rfl
  | succ k ih =>
    match xs, hk with
    | a :: b :: c :: d :: rest, hk =>
      have hrest : rest.length = 4 * k := by
        simp only [List.length_cons] at hk
        omega
      exact congrArg _ (ih hrest)

theorem pairs_front {xs : List UInt8} {a b c d : UInt8} (ha : xs[0]? = some a) (hb : xs[1]? = some b)
    (hc : xs[2]? = some c) (hd : xs[3]? = some d) : pairs xs = (sample a b, sample c d) :: pairs (xs.drop 4) := by
  match xs with
  | [] => cases ha
  | [_] => cases hb
  | [_, _] => cases hc
  | [_, _, _] => cases hd
  | _ :: _ :: _ :: _ :: rest =>
    obtain rfl := Option.some.inj ha
    obtain rfl := Option.some.inj hb
    obtain rfl := Option.some.inj hc
    obtain rfl := Option.some.inj hd
    rfl

/-! ### The ring keeps step -/

section

variable {file : UInt32 → Record} {next : UInt32} {q : Audio}

/-- What was taken and what lies in the ring are the sound of different records before the next one. -/
structure AudioInv (file : UInt32 → Record) (next : UInt32) (q : Audio) : Prop where
  well : q.ring.WellFormed
  read : 4 ∣ q.ring.rd.toNat
  level : 4 ∣ q.ring.level.toNat
  touched : ∀ i ∈ q.touched, i < q.ring.size.toNat
  chosen : ∃ chosen, List.Sublist chosen q.submitted ∧ chosen.Nodup ∧ (∀ f ∈ chosen, f.toNat < next.toNat) ∧
    q.taken ++ pairs q.ring.contents = pairs (chosen.flatMap fun frame => (file frame).audio)

theorem AudioInv.inStep (h : AudioInv file next q) : InStep file q where
  taken := by
    obtain ⟨chosen, hsub, hnodup, -, hpairs⟩ := h.chosen
    exact ⟨chosen, hsub, hnodup, hpairs⟩
  level := UInt32.le_iff_toNat_le.mpr h.well.level
  touched := h.touched

theorem four_dvd_size (h : q.ring.WellFormed) (hlevel : 4 ≤ q.ring.level.toNat) : 4 ∣ q.ring.size.toNat := by
  obtain ⟨k, -, hk⟩ := h.size
  have hsize := h.level
  rw [hk] at hsize ⊢
  have htwo : 2 ≤ k := by
    by_contra hsmall
    have hle : 2 ^ k ≤ 2 ^ 1 := Nat.pow_le_pow_right (by decide) (by omega)
    omega
  exact Nat.pow_dvd_pow 2 htwo

theorem pair_places (h : AudioInv file next q) (hlevel : 4 ≤ q.ring.level.toNat) {i : Nat} (hi : i < 4) :
    q.ring.index q.ring.rd + i < q.ring.size.toNat ∧
      q.ring.contents[i]? = some (q.ring.buf (q.ring.index q.ring.rd + i)) := by
  obtain ⟨k, hk⟩ := four_dvd_size h.well hlevel
  obtain ⟨m, hm⟩ := h.read
  have hpos := h.well.pos
  have hindex : q.ring.index q.ring.rd = 4 * (m % k) := by
    rw [CounterRing.index_eq h.well, hk, hm, Nat.mul_mod_mul_left]
  have hlt : m % k < k := Nat.mod_lt _ (by omega)
  have hinside : q.ring.index q.ring.rd + i < q.ring.size.toNat := by omega
  refine ⟨hinside, ?_⟩
  rw [CounterRing.read_eq q.ring (by omega)]
  have hplace : (q.ring.rd.toNat + i) % q.ring.size.toNat = q.ring.index q.ring.rd + i := by
    rw [CounterRing.index_eq h.well] at hinside ⊢
    rw [← Nat.mod_add_mod, Nat.mod_eq_of_lt hinside]
  rw [hplace]

theorem AudioInv.takePair (h : AudioInv file next q) (hlevel : 4 ≤ q.ring.level) :
    AudioInv file next (takePair q).2 := by
  have hfour : 4 ≤ q.ring.level.toNat := UInt32.le_iff_toNat_le.mp hlevel
  have hskipped := CounterRing.level_skip hlevel
  have hfourNat : (4 : UInt32).toNat = 4 := rfl
  obtain ⟨k, hk⟩ := h.level
  obtain ⟨m, hm⟩ := h.read
  constructor
  · exact h.well.skip hlevel
  · show 4 ∣ (q.ring.rd + 4).toNat
    rw [UInt32.toNat_add, hm]
    omega
  · show 4 ∣ (q.ring.skip 4).level.toNat
    rw [hskipped, hfourNat]
    omega
  · intro i hi
    rcases List.mem_append.mp hi with hi | hi
    · exact h.touched i hi
    · simp only [List.mem_cons, List.not_mem_nil, or_false] at hi
      rcases hi with rfl | rfl | rfl | rfl
      · exact (pair_places h hfour (show 0 < 4 by decide)).1
      · exact (pair_places h hfour (show 1 < 4 by decide)).1
      · exact (pair_places h hfour (show 2 < 4 by decide)).1
      · exact (pair_places h hfour (show 3 < 4 by decide)).1
  · obtain ⟨chosen, hsub, hnodup, hbefore, hpairs⟩ := h.chosen
    refine ⟨chosen, hsub, hnodup, hbefore, ?_⟩
    have hfront := pairs_front (pair_places h hfour (show 0 < 4 by decide)).2
      (pair_places h hfour (show 1 < 4 by decide)).2 (pair_places h hfour (show 2 < 4 by decide)).2
      (pair_places h hfour (show 3 < 4 by decide)).2
    have hcontents : (q.ring.skip 4).contents = q.ring.contents.drop 4 := CounterRing.contents_skip h.well hlevel
    rw [← hpairs, hfront]
    show (q.taken ++ [_]) ++ pairs (q.ring.skip 4).contents = _
    rw [hcontents, List.append_assoc]
    rfl

theorem AudioInv.pump (h : AudioInv file next q) (playing : Bool) (buffers : Nat) :
    AudioInv file next (audioPump playing buffers q) := by
  have hpair : ∀ q, AudioInv file next q → AudioInv file next (pumpPair playing q) := by
    intro q h
    have htaken : AudioInv file next
        (if playing = true ∧ 4 ≤ q.ring.level then VideoPlayer.takePair q else ((0, 0), q)).2 := by
      split
      · next hmore => exact h.takePair hmore.2
      · exact h
    exact { htaken with }
  have hiterate : ∀ n q, AudioInv file next q → AudioInv file next (Nat.iterate (pumpPair playing) n q) := by
    intro n
    induction n with
    | zero => exact fun q h => h
    | succ n ih => exact fun q h => ih _ (hpair q h)
  rw [audioPump]
  split
  · exact h
  · exact hiterate _ _ h

theorem AudioInv.reset (h : AudioInv file next q) (next' : UInt32) : AudioInv file next' (audioRingReset q) where
  well := h.well.clear
  read := Nat.dvd_zero 4
  level := by
    show 4 ∣ q.ring.clear.level.toNat
    rw [CounterRing.level_clear]
    exact Nat.dvd_zero 4
  touched := h.touched
  chosen := by
    refine ⟨[], List.Sublist.refl _, List.nodup_nil, nofun, ?_⟩
    show [] ++ pairs q.ring.clear.contents = []
    rw [CounterRing.contents_clear]
    rfl

end
/-! ### Feeding keeps step -/

section

variable {M : Machine} {file : UInt32 → Record} {next : UInt32} {s : Video} {q : Audio}

theorem flat_dvd (haudio : ∀ frame, 4 ∣ (file frame).audio.length) (frames : List UInt32) :
    4 ∣ (frames.flatMap fun frame => (file frame).audio).length := by
  induction frames with
  | nil => exact Nat.dvd_zero 4
  | cons frame frames ih =>
    rw [List.flatMap_cons, List.length_append]
    exact Nat.dvd_add (haudio frame) ih

theorem AudioInv.put (h : AudioInv file next q) (x : Feeding) (withAudio : Bool)
    (haudio : ∀ frame, 4 ∣ (file frame).audio.length) (hputs : putsAudio file x next withAudio q = true)
    (hnext : next.toNat + 1 < 2 ^ 32) :
    AudioInv file (next + 1) { audioRingWrite (file next).audio q with submitted := q.submitted ++ [next] } := by
  simp only [putsAudio, Bool.and_eq_true, decide_eq_true_eq] at hputs
  have hroom := hputs.1.1.2
  rw [UInt32.toNat_sub_of_le _ _ (UInt32.le_iff_toNat_le.mpr h.well.level)] at hroom
  have hlevel := h.well.level
  have hfits : q.ring.level.toNat + (file next).audio.length ≤ q.ring.size.toNat := by omega
  obtain ⟨hwell, hcontents⟩ := CounterRing.pushAll_spec h.well (file next).audio hfits
  have hsame := CounterRing.pushAll_same q.ring (file next).audio
  have hcount := congrArg List.length hcontents
  rw [List.length_append, CounterRing.contents_length, CounterRing.contents_length] at hcount
  have hsucc : (next + 1).toNat = next.toNat + 1 := by
    rw [UInt32.toNat_add]
    simp only [UInt32.reduceToNat]
    omega
  constructor
  · exact hwell
  · show 4 ∣ (q.ring.pushAll (file next).audio).rd.toNat
    rw [hsame.1]
    exact h.read
  · show 4 ∣ (q.ring.pushAll (file next).audio).level.toNat
    rw [hcount]
    exact Nat.dvd_add h.level (haudio next)
  · intro i hi
    show i < (q.ring.pushAll (file next).audio).size.toNat
    rw [hsame.2]
    rcases List.mem_append.mp hi with hi | hi
    · exact h.touched i hi
    · obtain ⟨k, -, rfl⟩ := List.mem_map.mp hi
      exact CounterRing.index_lt h.well _
  · obtain ⟨chosen, hsub, hnodup, hbefore, hpairs⟩ := h.chosen
    have hnew : next ∉ chosen := fun hmem => absurd (hbefore next hmem) (Nat.lt_irrefl _)
    refine ⟨chosen ++ [next], hsub.append_right [next], ?_, ?_, ?_⟩
    · rw [List.nodup_append]
      refine ⟨hnodup, List.pairwise_singleton _ next, ?_⟩
      intro f hf g hg heq
      rw [List.mem_singleton] at hg
      exact hnew (hg ▸ heq ▸ hf)
    · intro f hf
      rw [hsucc]
      rcases List.mem_append.mp hf with hf | hf
      · exact Nat.lt_succ_of_lt (hbefore f hf)
      · rw [List.mem_singleton.mp hf]
        exact Nat.lt_succ_self _
    · have hlength : 4 ∣ q.ring.contents.length := by
        rw [CounterRing.contents_length]
        exact h.level
      have hflat : 4 ∣ (chosen.flatMap fun frame => (file frame).audio).length := flat_dvd haudio chosen
      show q.taken ++ pairs (q.ring.pushAll (file next).audio).contents = _
      rw [hcontents, pairs_append hlength, ← List.append_assoc, hpairs, List.flatMap_append, pairs_append hflat]
      simp

theorem AudioInv.silent (h : AudioInv file next q) (frame : UInt32) (next' : UInt32) (hle : next.toNat ≤ next'.toNat) :
    AudioInv file next' { q with submitted := q.submitted ++ [frame] } where
  well := h.well
  read := h.read
  level := h.level
  touched := h.touched
  chosen := by
    obtain ⟨chosen, hsub, hnodup, hbefore, hpairs⟩ := h.chosen
    exact ⟨chosen, hsub.trans (List.sublist_append_left _ _), hnodup, fun f hf => Nat.lt_of_lt_of_le (hbefore f hf) hle,
      hpairs⟩

theorem AudioInv.feedSilent (h : AudioInv file next q) (x : Feeding) (frame : UInt32) :
    AudioInv file next (feedFrameSound file x frame false s q) := by
  have hputs : putsAudio file x frame false q = false := rfl
  simp only [feedFrameSound, hputs, Bool.false_eq_true, if_false]
  split
  · exact h
  · split
    · exact h.silent frame next (Nat.le_refl _)
    · exact h

theorem feedFrameSound_failed {x : Feeding} (hx : x.Taken) {frame : UInt32} {withAudio : Bool}
    (hfail : (feedFrame M x.call frame s).1 = false) : feedFrameSound file x frame withAudio s q = q := by
  have hfst := feedFrame_fst (M := M) x frame s
  rw [hfail] at hfst
  by_cases hready : s.vp.frameCount ≤ frame ∨ x.prepared = false
  · rw [feedFrameSound, if_pos hready]
  · have hready' := not_or.mp hready
    have hprepared := Bool.eq_true_of_not_eq_false hready'.2
    have hrefused : ¬x.submit.ok = true := fun hok => Bool.false_ne_true (hfst.mpr ⟨hready'.1, hprepared, hok⟩)
    have hunread : ¬x.audioRead = true := fun hread => hrefused (hx hprepared hread)
    have hputs : ¬putsAudio file x frame withAudio q = true := by simp [putsAudio, hunread]
    simp only [feedFrameSound, if_neg hready, if_neg hputs, if_neg hrefused]

theorem AudioInv.feed (h : AudioInv file next q) (haudio : ∀ frame, 4 ∣ (file frame).audio.length) {x : Feeding}
    {withAudio : Bool} (hfed : (feedFrame M x.call next s).1 = true) :
    AudioInv file (next + 1) (feedFrameSound file x next withAudio s q) := by
  obtain ⟨hcount, hprepared, hok⟩ := (feedFrame_fst x next s).mp hfed
  have hlt : next.toNat + 1 < 2 ^ 32 := by
    have hbound := s.vp.frameCount.toNat_lt
    rw [UInt32.le_iff_toNat_le] at hcount
    omega
  have hsucc : (next + 1).toNat = next.toNat + 1 := by
    rw [UInt32.toNat_add]
    simp only [UInt32.reduceToNat]
    omega
  rw [feedFrameSound, if_neg (by simp [hcount, hprepared])]
  dsimp only
  rw [if_pos hok]
  by_cases hputs : putsAudio file x next withAudio q = true
  · rw [if_pos hputs]
    exact h.put x withAudio haudio hputs hlt
  · rw [if_neg hputs]
    exact h.silent next (next + 1) (by omega)

/-! ### A poll keeps step -/

theorem AudioInv.seek (h : AudioInv file next q) (haudio : ∀ frame, 4 ∣ (file frame).audio.length) (a : SoundPoll)
    (ha : a.seekFeed.Taken) (hnext : s.vp.nextFrame = next) :
    AudioInv file (seekPending M a.pictures s).vp.nextFrame (seekSound M file a s q) := by
  rw [seekPending, seekSound]
  cases hseek : s.vp.seekFrame with
  | none =>
    rw [← hnext] at h
    exact h
  | some target =>
    dsimp only
    have hflushed : (seekFlushed M a.pictures s).landed.vp.nextFrame = s.vp.nextFrame := by
      show (seekFlushed M a.pictures s).vp.nextFrame = s.vp.nextFrame
      rw [seekFlushed]
      split
      · exact (resume_steady _ _).nextFrame
      · rfl
    have hsame : feedFrame M a.pictures.seekFeed target { (if s.vp.inFlight ≠ 0 then
          h264decResume M a.pictures.seekFlush s else s) with vp := { (if s.vp.inFlight ≠ 0 then
          h264decResume M a.pictures.seekFlush s else s).vp with inFlight := 0 } } =
        feedFrame M a.seekFeed.call target (seekFlushed M a.pictures s).landed := rfl
    rw [hsame]
    cases hfeed : feedFrame M a.seekFeed.call target (seekFlushed M a.pictures s).landed with
    | mk fed s' =>
      have hs' : s'.vp.nextFrame = s.vp.nextFrame := by
        have hkept := (feedFrame_steady (M := M) a.seekFeed.call target (seekFlushed M a.pictures s).landed).nextFrame
        rw [hfeed] at hkept
        exact hkept.trans hflushed
      cases fed with
      | false =>
        rw [feedFrameSound_failed ha (M := M) (by rw [hfeed])]
        exact h.reset _
      | true => exact (h.reset target).feed haudio (M := M) (by rw [hfeed])

theorem AudioInv.loop (haudio : ∀ frame, 4 ∣ (file frame).audio.length) {feeds : Nat → Feeding}
    (hfeeds : ∀ k, (feeds k).Taken) (limit : UInt32) (n k : Nat) (h : AudioInv file s.vp.nextFrame q) :
    AudioInv file (feedLoop M (fun k => (feeds k).call) limit n k s).vp.nextFrame
      (feedLoopSound M file feeds limit n k s q) := by
  induction n generalizing k s q with
  | zero => exact h
  | succ n ih =>
    rw [feedLoop, feedLoopSound]
    split
    · cases hfeed : feedFrame M (feeds k).call s.vp.nextFrame s with
      | mk fed s' =>
        have hs' : s'.vp.nextFrame = s.vp.nextFrame := by
          have hkept := (feedFrame_steady (M := M) (feeds k).call s.vp.nextFrame s).nextFrame
          rw [hfeed] at hkept
          exact hkept
        cases fed with
        | false =>
          dsimp only
          rw [feedFrameSound_failed (hfeeds k) (M := M) (by rw [hfeed]), hs']
          exact h
        | true =>
          dsimp only
          apply ih
          show AudioInv file (s'.vp.nextFrame + 1) _
          rw [hs']
          exact h.feed haudio (M := M) (by rw [hfeed])
    · exact h

theorem pollPlay_nextFrame (a : PlayerPoll) (s : Video) :
    (pollPlay M a s).vp.nextFrame = (playFed M a s).vp.nextFrame := by
  have hshown : (playShown M a (playFed M a s)).vp.nextFrame = (playFed M a s).vp.nextFrame := by
    rw [playShown]
    split
    · dsimp only
      exact (flip_steady _).nextFrame
    · rfl
  rw [← hshown, pollPlay_eq]
  split
  · exact (resume_steady _ _).nextFrame
  · rfl

theorem pollPlayRev_nextFrame (a : PlayerPoll) (s : Video) :
    (pollPlayRev M a s).vp.nextFrame = s.vp.nextFrame := by
  rw [pollPlayRev]
  dsimp only
  split
  · split
    · have hkept := ((flip_steady s).trans (feedFrame_steady (M := M) (a.feeds 0) ((flipPending M s).vp.curPicture - 2)
        (flipPending M s))).nextFrame
      split
      · next h =>
        rw [h] at hkept
        exact hkept
      · next h =>
        rw [h] at hkept
        exact hkept
    · exact (flip_steady s).nextFrame
  · exact (flip_steady s).nextFrame

theorem AudioInv.poll (h : AudioInv file s.vp.nextFrame q) (haudio : ∀ frame, 4 ∣ (file frame).audio.length)
    (a : SoundPoll) (ha : AvEvent.Taken (.poll a)) :
    AudioInv file (videoplayerPoll M a.pictures s).vp.nextFrame (pollSound M file a s q) := by
  rw [pollSound]
  split
  · next hclosed =>
    rw [videoplayerPoll, if_pos hclosed]
    exact h
  · next hopen =>
    dsimp only
    apply AudioInv.pump
    have hpolled := (decoderPoll_steady (M := M) a.dec s).nextFrame
    have hseek := AudioInv.seek (M := M) (s := h264decPoll M a.dec s)
      (h.pump ((h264decPoll M a.dec s).vp.mode == .play) a.pumpFirst) haudio a ha.1 hpolled
    generalize seekSound M file a (h264decPoll M a.dec s)
      (audioPump ((h264decPoll M a.dec s).vp.mode == .play) a.pumpFirst q) = r at hseek ⊢
    rw [videoplayerPoll, if_neg hopen]
    show AudioInv file _ (modeSound M file a (seekPending M a.pictures (h264decPoll M a.dec s)) r)
    have hdec : a.pictures.dec = a.dec := rfl
    rw [hdec]
    generalize seekPending M a.pictures (h264decPoll M a.dec s) = t at hseek ⊢
    rw [modeSound]
    cases hmode : t.vp.mode with
    | play =>
      simp only [hmode]
      rw [pollPlay_nextFrame]
      exact AudioInv.loop haudio ha.2 _ _ _ hseek
    | playRev =>
      simp only [hmode]
      rw [pollPlayRev_nextFrame]
      split
      · exact hseek.feedSilent _ _
      · exact hseek
    | still =>
      simp only [hmode]
      rw [(flip_steady t).nextFrame]
      exact hseek
    | idle =>
      simp only [hmode]
      rw [(flip_steady t).nextFrame]
      exact hseek

end
/-! ### Every event keeps step -/

section

variable {M : Machine} {file : UInt32 → Record} {next : UInt32} {q : Audio}

theorem ringSize_pow (need : UInt32) {n k : Nat} {size : UInt32} (hsize : size.toNat = 2 ^ k) (hfuel : k + n < 32) :
    ∃ k', k' < 32 ∧ (ringSize need n size).toNat = 2 ^ k' := by
  induction n generalizing k size with
  | zero => exact ⟨k, hfuel, hsize⟩
  | succ n ih =>
    rw [ringSize]
    split
    · have hpow : 2 ^ (k + 1) < 2 ^ 32 := Nat.pow_lt_pow_right (by decide) (by omega)
      have hdouble : (size <<< 1).toNat = 2 ^ (k + 1) := by
        rw [UInt32.toNat_shiftLeft, hsize]
        show 2 ^ k <<< 1 % 2 ^ 32 = 2 ^ (k + 1)
        rw [Nat.shiftLeft_eq, pow_one, ← Nat.pow_succ, Nat.mod_eq_of_lt hpow]
      exact ih hdouble (by omega)
    · exact ⟨k, by omega, hsize⟩

theorem AudioInv.unused {buf : Nat → UInt8} {size : UInt32} (hring : q.ring = ⟨buf, size, 0, 0⟩)
    (hsize : ∃ k, k < 32 ∧ size.toNat = 2 ^ k) (htaken : q.taken = []) (htouched : q.touched = []) :
    AudioInv file next q := by
  have hclear : q.ring = Masked.clear ⟨buf, size, 0, 0⟩ := hring
  have hlevel : q.ring.level = 0 := by
    rw [hclear]
    exact CounterRing.level_clear _
  constructor
  · constructor
    · rw [hring]
      exact hsize
    · rw [hlevel]
      exact Nat.zero_le _
  · rw [hring]
    exact Nat.dvd_zero 4
  · rw [hlevel]
    exact Nat.dvd_zero 4
  · intro i hi
    rw [htouched] at hi
    cases hi
  · refine ⟨[], List.nil_sublist _, List.nodup_nil, nofun, ?_⟩
    rw [htaken, hclear, CounterRing.contents_clear]
    rfl

theorem AudioInv.none : AudioInv file next {} := AudioInv.unused rfl ⟨0, by decide, rfl⟩ rfl rfl

theorem AudioInv.init (a : InitSound) : AudioInv file next (initSound a) := by
  rw [initSound]
  split
  · exact AudioInv.none
  · split
    · exact AudioInv.none
    · exact AudioInv.unused rfl (ringSize_pow _ (k := 0) rfl (by decide)) rfl rfl

theorem videoplayerGoto_nextFrame (picture : UInt32) (op : Char) (s : Video) :
    (videoplayerGoto picture op s).vp.nextFrame = s.vp.nextFrame := by
  rw [videoplayerGoto]
  split
  · rfl
  · dsimp only
    split
    · rfl
    · split
      · rfl
      · split
        · rfl
        · rfl

theorem videoplayerPlayRev_nextFrame (a : Flush) (nowUs : UInt32) (s : Video) :
    (videoplayerPlayRev M a nowUs s).vp.nextFrame = s.vp.nextFrame := by
  rw [videoplayerPlayRev]
  split
  · rfl
  · dsimp only
    split
    · exact (resume_steady _ _).nextFrame
    · rfl

theorem videoplayerHalt_nextFrame (s : Video) : (videoplayerHalt s).vp.nextFrame = s.vp.nextFrame := by
  rw [videoplayerHalt]
  split
  · rfl
  · rfl

theorem videoplayerStep_nextFrame (delta : Int32) (s : Video) :
    (videoplayerStep delta s).vp.nextFrame = s.vp.nextFrame := by
  rw [videoplayerStep]
  split
  · rfl
  · exact videoplayerGoto_nextFrame _ _ _

theorem AudioInv.playFwd {s : Video} (h : AudioInv file s.vp.nextFrame q) (a : Flush) (nowUs : UInt32) :
    AudioInv file (videoplayerPlayFwd M a nowUs s).vp.nextFrame (playFwdSound s q) := by
  rw [videoplayerPlayFwd, playFwdSound]
  split
  · exact h
  · exact h.reset _

theorem AudioInv.enable (h : AudioInv file next q) (channel : Int) (on : Bool) :
    AudioInv file next (videoplayerAudioEnable channel on q) := by
  rw [videoplayerAudioEnable]
  split
  · exact { h with }
  · split
    · exact { h with }
    · exact h

theorem AudioInv.step {s : Av} (h : AudioInv file s.video.vp.nextFrame s.audio)
    (haudio : ∀ frame, 4 ∣ (file frame).audio.length) (e : AvEvent) (he : e.Taken) :
    AudioInv file (avStep M file s e).video.vp.nextFrame (avStep M file s e).audio := by
  cases e with
  | init a sound =>
    show AudioInv file _ (if (videoplayerInit M a s.video).vp.isOpen = true then initSound sound else {})
    split
    · exact AudioInv.init sound
    · exact AudioInv.none
  | poll a => exact h.poll haudio a he
  | goto picture op =>
    show AudioInv file (videoplayerGoto picture op s.video).vp.nextFrame s.audio
    rw [videoplayerGoto_nextFrame]
    exact h
  | playFwd a nowUs => exact h.playFwd a nowUs
  | playRev a nowUs =>
    show AudioInv file (videoplayerPlayRev M a nowUs s.video).vp.nextFrame s.audio
    rw [videoplayerPlayRev_nextFrame]
    exact h
  | halt =>
    show AudioInv file (videoplayerHalt s.video).vp.nextFrame s.audio
    rw [videoplayerHalt_nextFrame]
    exact h
  | pause =>
    show AudioInv file (videoplayerHalt s.video).vp.nextFrame s.audio
    rw [videoplayerHalt_nextFrame]
    exact h
  | stepBy delta =>
    show AudioInv file (videoplayerStep delta s.video).vp.nextFrame s.audio
    rw [videoplayerStep_nextFrame]
    exact h
  | audioEnable channel on => exact h.enable channel on

theorem AudioInv.run {s : Av} (h : AudioInv file s.video.vp.nextFrame s.audio)
    (haudio : ∀ frame, 4 ∣ (file frame).audio.length) (events : List AvEvent) (htaken : ∀ e ∈ events, e.Taken) :
    AudioInv file (final (avStep M file) s events).video.vp.nextFrame (final (avStep M file) s events).audio := by
  induction events generalizing s with
  | nil => exact h
  | cons e rest ih =>
    rw [List.forall_mem_cons] at htaken
    exact ih (h.step haudio e htaken.1) htaken.2

end

/-- Sound is played once and in step, in every run in which no submission is refused after the sound of its record
was read. -/
theorem sound_in_step (M : Machine) (file : UInt32 → Record) (haudio : ∀ frame, 4 ∣ (file frame).audio.length)
    (events : List AvEvent) (htaken : ∀ e ∈ events, e.Taken) :
    InStep file (final (avStep M file) {} events).audio :=
  (AudioInv.none.run haudio events htaken).inStep

/-! ### A refusal -/

def pairFile (frame : UInt32) : Record := ⟨8, [frame.toUInt8, 0, frame.toUInt8, 0]⟩

def emptyFlush : Flush := ⟨[], []⟩

def quietReconfigure : Reconfigure := ⟨⟨[], true⟩, ⟨[], true⟩, ⟨[], true⟩, ⟨[], true⟩⟩

def soundPoll (feeding : Feeding) : SoundPoll where
  dec := ⟨[], quietReconfigure, []⟩
  pumpFirst := 1
  seekFlush := emptyFlush
  seekFeed := ⟨true, true, ⟨[], true⟩⟩
  seekUs := 0
  feeds := fun _ => feeding
  dueUs := 0
  endFlush := emptyFlush
  pumpLast := 1

def soundInit : AvEvent :=
  .init ⟨⟨[], [], []⟩, true, 32, 16, 4, 40000, true, 0x1000, 0x2000⟩ ⟨44100, 8, false, some fun _ => 0⟩

def refusedRun : List AvEvent :=
  [soundInit, .goto 1 'N', .poll (soundPoll ⟨true, true, ⟨[], false⟩⟩), .poll (soundPoll ⟨true, true, ⟨[], true⟩⟩)]

def takenRun : List AvEvent :=
  [soundInit, .goto 1 'N', .poll (soundPoll ⟨false, false, ⟨[], false⟩⟩), .poll (soundPoll ⟨true, true, ⟨[], true⟩⟩)]

theorem sound_in_step_taken :
    InStep pairFile (final (avStep ⟨fun _ => true⟩ pairFile) {} takenRun).audio := by
  apply sound_in_step
  · intro frame
    exact Nat.dvd_refl 4
  · intro e he
    simp only [takenRun, List.mem_cons, List.not_mem_nil, or_false] at he
    rcases he with rfl | rfl | rfl | rfl
    · trivial
    · trivial
    · exact ⟨fun _ _ => rfl, fun _ hprepared => nomatch hprepared⟩
    · exact ⟨fun _ _ => rfl, fun _ _ _ => rfl⟩

theorem refusedRun_audio : (final (avStep ⟨fun _ => true⟩ pairFile) {} refusedRun).audio.submitted = [0, 1] ∧
    (final (avStep ⟨fun _ => true⟩ pairFile) {} refusedRun).audio.taken = [(0, 0), (1, 1), (1, 1)] := by
  decide +kernel

theorem sound_played_twice :
    ¬∀ (M : Machine) (file : UInt32 → Record), (∀ frame, 4 ∣ (file frame).audio.length) → ∀ events,
      InStep file (final (avStep M file) {} events).audio := by
  intro hall
  have hstep := hall ⟨fun _ => true⟩ pairFile (fun _ => Nat.dvd_refl 4) refusedRun
  obtain ⟨chosen, hsub, -, hpairs⟩ := hstep.taken
  obtain ⟨hsubmitted, htaken⟩ := refusedRun_audio
  rw [hsubmitted] at hsub
  rw [htaken] at hpairs
  have hcount : ∀ frames : List UInt32,
      (pairs (frames.flatMap fun frame => (pairFile frame).audio)).length = frames.length := by
    intro frames
    induction frames with
    | nil => rfl
    | cons frame frames ih => exact congrArg (· + 1) ih
  have hlength := congrArg List.length hpairs
  rw [hcount, List.length_append] at hlength
  have hle := hsub.length_le
  simp only [List.length_cons, List.length_nil] at hlength hle
  omega

end Pi1MHz.VideoPlayer
