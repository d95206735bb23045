import Pi1MHz.PwmAudio
import Pi1MHz.MemoryText

/-!
# The Music 5000

`M5000_emulator.c`: two synthesisers whose registers and waveforms lie in JIM RAM, the mixing of their thirty-two
channels for the PWM, and the recording of what is played into JIM RAM.  A value of an `int` that 32 bits do not
hold has no meaning here.

Left out: messages, and the file names tried.
-/

namespace Pi1MHz.M5000

open CheckedInt MemoryText

def M5000_DIVIDER : Int := 1024

def DEFAULT_GAIN : Int := 3

def JIM_RAM_STEP : Nat := 16 * 1024 * 1024

def M5000_REC_BASE : Nat := 0x100000

/-- `DISC_RAM_SIZE`. -/
def M5000_REC_END : Nat := 2 * JIM_RAM_STEP

def I_WFTOP : Nat := 0x0E00

/-- `struct synth`; `ram` is an address in JIM RAM. -/
structure Synth where
  phaseRAM : Fin 16 → UInt32
  sleft : Int
  sright : Int
  amplitude : Fin 16 → UInt8
  ram : Nat
  modulate : UInt8

/-- A channel's sample as it is recorded: what was to be scaled, by which gain, and the value stored. -/
structure Kept where
  sample : Int
  gain : Int
  value : UInt16
  deriving DecidableEq

structure File where
  pairs : Nat
  bytes : List UInt8

/-- The statics of the emulator, JIM RAM, and the logs.  `fx` is `fx_register[fx_pointer]`. -/
structure State where
  jim : Nat → UInt8
  jimRamSize : UInt8
  m5000 : Synth
  m3000 : Synth
  stereo : Bool := false
  gain : Int := 0
  autorange : Bool := false
  leftError : Int := 0
  rightError : Int := 0
  audioRange : Int := 0
  fx : UInt8 := 0
  record : Bool := false
  recStarted : Bool := false
  audioIndex : Nat := 0
  ramMax : Nat := 0
  words : List UInt32 := []
  kept : List Kept := []
  stored : List Nat := []
  pairs : Nat := 0
  files : List File := []

/-! ### The channels -/

/-- `antilogtable`. -/
def antilog (n : Nat) : Int := 2 ^ (n / 16) * (2 * (n % 16) + 33) - 33

def PanArray : List Int := [0, 0, 0, 0, 0, 0, 0, 0, 6, 6, 6, 5, 4, 3, 2, 1]

section

variable (jim : Nat → UInt8) (c : Nat)

def FREQ : UInt32 :=
  (jim c).toUInt32 ||| ((jim (c + 0x10)).toUInt32 <<< 8) ||| ((jim (c + 0x20)).toUInt32 <<< 16)

def PHASESET : Bool := jim c &&& 1 != 0

def WAVESEL : Nat := (jim (c + 0x50)).toNat / 16

def AMP : UInt8 := jim (c + 0x60)

def MODULATE : Bool := jim (c + 0x70) &&& 0x20 != 0

def INVERT : Bool := jim (c + 0x70) &&& 0x10 != 0

def PAN : Nat := (jim (c + 0x70) &&& 0xF).toNat

end

def I_WAVEFORM (n a : Nat) : Nat := (n <<< 8) ||| ((n <<< 7) &&& 128) ||| a

structure Mix where
  synth : Synth
  sleft : Int
  sright : Int
  modulate : UInt8

/-- What a channel reads from its wave table: where its registers are, the sign, and the sum with its amplitude. -/
structure Tone where
  c : Nat
  sign : Bool
  sample : Nat

def playChannel (jim : Nat → UInt8) (t : Mix) (i : Fin 16) : Tone × Mix :=
  let s := t.synth
  let c := s.ram + I_WFTOP + t.modulate.toNat + i
  let sum := FREQ jim c + s.phaseRAM i
  let c4d := !PHASESET jim c && sum &&& 0x1000000 != 0
  let phase := if PHASESET jim c = true then FREQ jim c else sum &&& 0xFFFFFF
  -- only a waveform crossing changes the amplitude
  let amplitude := if c4d = true then AMP jim c else s.amplitude i
  let wave := jim (s.ram + I_WAVEFORM (WAVESEL jim c) (phase >>> 17).toNat)
  let sign := wave &&& 0x80 != 0
  ({ c, sign, sample := wave.toNat + amplitude.toNat }, { t with
    synth := { s with
      phaseRAM := Function.update s.phaseRAM i phase
      amplitude := Function.update s.amplitude i amplitude }
    modulate := if (MODULATE jim c && (sign || c4d)) = true then 128 else 0 })

def linearSample (jim : Nat → UInt8) (tone : Tone) : Int :=
  if (tone.sign != INVERT jim tone.c) = true then -antilog (tone.sample % 128) else antilog (tone.sample % 128)

def mixChannel (jim : Nat → UInt8) (tone : Tone) (t : Mix) : Option Mix :=
  if (tone.sign != tone.sample.testBit 7) = true then do
    let pan := PanArray.getD (PAN jim tone.c) 0
    let sample ← int32 (linearSample jim tone)
    let left ← int32 (sample * pan)
    let sleft ← int32 (t.sleft + left)
    let right ← int32 (sample * (6 - pan))
    let sright ← int32 (t.sright + right)
    return { t with sleft, sright }
  else return t

/-- A round of `update_channels`. -/
def updateChannel (jim : Nat → UInt8) (t : Mix) (i : Fin 16) : Option Mix :=
  let played := playChannel jim t i
  mixChannel jim played.1 played.2

def updateChannels (jim : Nat → UInt8) (s : Synth) : Option Synth := do
  let t ← (List.finRange 16).foldlM (updateChannel jim) { synth := s, sleft := 0, sright := 0, modulate := s.modulate }
  return { t.synth with sleft := t.sleft, sright := t.sright, modulate := t.modulate }

/-- A side of `music5000_store_sample`: its word, the error that is carried, and whether it was clipped. -/
structure Scaled where
  word : UInt32
  error : Int
  clip : Bool

def scale (range gain error v : Int) : Option Scaled := do
  let product ← int32 (v * gain)
  let centred ← int32 (product + range / 2)
  let x ← int32 (centred + error)
  let low := if x < 0 then 0 else x
  let high := if range < low then range else low
  return {
    word := (high / M5000_DIVIDER).toNat.toUInt32
    error := x.tmod M5000_DIVIDER
    clip := decide (x < 0) || decide (range < x) }

def music5000StoreSample (sl sr : Int) (s : State) : Option State := do
  let both ← int32 (if s.stereo = true then 0 else sl + sr)
  let left ← scale s.audioRange s.gain s.leftError (if s.stereo = true then sl else both)
  let right ← scale s.audioRange s.gain s.rightError (if s.stereo = true then sr else both)
  let s := { s with leftError := left.error, rightError := right.error, words := s.words ++ [left.word, right.word] }
  if ((left.clip || right.clip) && s.autorange) = true then
    return { s with leftError := 0, rightError := 0, gain := if 1 < s.gain then s.gain.tdiv 2 else s.gain }
  else return s

/-! ### Recording -/

structure Card where
  writeProtected : Bool
  opens : Bool

def wavfmt : List UInt8 :=
  [0x52, 0x49, 0x46, 0x46, 0, 0, 0, 0, 0x57, 0x41, 0x56, 0x45, 0x66, 0x6D, 0x74, 0x20, 0x10, 0, 0, 0, 1, 0, 2, 0,
    0x1B, 0xB7, 0, 0, 0x6C, 0xDC, 2, 0, 4, 0, 0x10, 0, 0x64, 0x61, 0x74, 0x61, 0, 0, 0, 0, 0, 0, 0, 0]

def le16 (v : UInt16) : List UInt8 := [v.toUInt8, (v >>> 8).toUInt8]

def le32 (v : UInt32) : List UInt8 := [v.toUInt8, (v >>> 8).toUInt8, (v >>> 16).toUInt8, (v >>> 24).toUInt8]

/-- Bytes are stored at `a` for the recording. -/
def State.put (a : Nat) (bytes : List UInt8) (s : State) : State :=
  { s with
    jim := fun k => if a ≤ k ∧ k < a + bytes.length then bytes.getD (k - a) 0 else s.jim k
    stored := s.stored ++ List.range' a bytes.length }

def music5000RecStart (s : State) : State :=
  let s := { s with audioIndex := M5000_REC_BASE + wavfmt.length, recStarted := false, pairs := 0 }
  if s.jimRamSize.toNat ≤ M5000_REC_END / JIM_RAM_STEP then s
  else { s with ramMax := s.jimRamSize.toNat * JIM_RAM_STEP - M5000_REC_END, record := true }

def putHeader (s : State) : State :=
  let size := s.audioIndex - M5000_REC_BASE
  let s := s.put M5000_REC_BASE wavfmt
  let s := s.put (M5000_REC_BASE + 4) (le32 (UInt32.ofNat size - 8))
  s.put (M5000_REC_BASE + 40) (le32 (UInt32.ofNat size - 44))

def writeFile (s : State) : State :=
  let s := putHeader s
  { s with files := s.files ++ [{ pairs := s.pairs, bytes := slice s.jim M5000_REC_BASE s.audioIndex }] }

def music5000RecStop (card : Card) (s : State) : State :=
  let s := if card.writeProtected = true ∨ card.opens = false then s else writeFile s
  { s with record := false, fx := 0 }

/-- A side of what `store_samples` scales. -/
def scaleRecord (gain v : Int) : Option Int := do
  let product ← int32 (v * gain)
  let twelve ← int32 (product * 12)
  return twelve.tdiv 1024

def storeSamples (card : Card) (sl sr : Int) (s : State) : Option State :=
  if s.recStarted = true ∨ sl ≠ 0 ∨ sr ≠ 0 then do
    let left ← scaleRecord s.gain sl
    let right ← scaleRecord s.gain sr
    if s.ramMax ≤ s.audioIndex + 4 then return music5000RecStop card s
    else
      let l := (Int16.ofInt left).toUInt16
      let r := (Int16.ofInt right).toUInt16
      let s := (s.put s.audioIndex (le16 l)).put (s.audioIndex + 2) (le16 r)
      return { s with
        audioIndex := s.audioIndex + 4
        recStarted := true
        pairs := s.pairs + 1
        kept := s.kept ++ [{ sample := sl, gain := s.gain, value := l }, { sample := sr, gain := s.gain, value := r }] }
  else return s

/-! ### The emulator -/

def playSample (s : State) : Option (Int × Int × State) := do
  let m5000 ← updateChannels s.jim s.m5000
  let m3000 ← updateChannels s.jim s.m3000
  let sl ← int32 (m5000.sleft + m3000.sleft)
  let sr ← int32 (m5000.sright + m3000.sright)
  let s ← music5000StoreSample sl sr { s with m5000, m3000 }
  return (sl, sr, s)

/-- A round of the loop of `music5000_emulate`. -/
def emulateSample (card : Card) (s : State) : Option State := do
  let (sl, sr, s) ← playSample s
  if s.record = true then storeSamples card sl sr s else return s

/-- What `music5000_emulate` begins with. -/
def control (card : Card) (s : State) : State :=
  let s := if s.record = false ∧ s.fx ≠ 0 then music5000RecStart s else s
  if s.record = true ∧ s.fx = 0 then music5000RecStop card s else s

def emulateSamples (card : Card) : Nat → State → Option State
  | 0, s => some s
  | n + 1, s => (emulateSample card s).bind (emulateSamples card n)

def music5000Emulate (card : Card) (space : Nat) (s : State) : Option State :=
  emulateSamples card (space / 2) (control card s)

/-- `M5000_gain`: the gain, and whether it adapts; `config` is the number in the configuration. -/
def m5000Gain (config : Option Int) : Int × Bool :=
  let gain := config.getD DEFAULT_GAIN
  if 1000 < gain then (gain - 1000, false) else (gain, true)

/-- `synth_reset`, but for the memory. -/
def Synth.reset (ram : Nat) (s : Synth) : Synth := { s with ram, modulate := 0, amplitude := fun _ => 0 }

/-- The registers of a synthesiser, which `synth_reset` clears. -/
def registersAt (ram k : Nat) : Prop := ram + I_WFTOP ≤ k ∧ k < ram + I_WFTOP + 128

instance (ram k : Nat) : Decidable (registersAt ram k) := inferInstanceAs (Decidable (_ ∧ _))

def m5000EmulatorInit (config : Option Int) (beebMuted : Bool) (card : Card) (s : State) : Option State := do
  let s := if s.record = true then music5000RecStop card s else s
  let range ← PwmAudio.rpiAudioInit 46875
  let audioRange ← int32 (range.toNat * M5000_DIVIDER)
  return { s with
    fx := 0
    gain := (m5000Gain config).1
    autorange := (m5000Gain config).2
    stereo := beebMuted
    jim := fun k => if registersAt 0x3000 k ∨ registersAt 0x5000 k then 0 else s.jim k
    m5000 := s.m5000.reset 0x3000
    m3000 := s.m3000.reset 0x5000
    audioRange }

def boot (jim : Nat → UInt8) (jimRamSize : UInt8) (m5000 m3000 : Synth) : State := { jim, jimRamSize, m5000, m3000 }
/-! ### What the channels add up to -/

theorem antilog_range {n : Nat} (h : n < 128) : 0 ≤ antilog n ∧ antilog n ≤ 8031 := by
  revert n
  decide +kernel

theorem pan_range (p : Nat) : 0 ≤ PanArray.getD p 0 ∧ PanArray.getD p 0 ≤ 6 := by
  by_cases h : p < 16
  · revert p
    decide
  · have hlength : PanArray.length ≤ p := Nat.not_lt.mp h
    simp [List.getD, List.getElem?_eq_none hlength]

/-- Bounds on both sides of a mix, and on their sum: a channel's two shares add up to six times its sample. -/
structure Balanced (b sleft sright : Int) : Prop where
  left : Within b sleft
  right : Within b sright
  both : Within b (sleft + sright)

theorem Balanced.mono {a b sleft sright : Int} (h : Balanced a sleft sright) (hab : a ≤ b) : Balanced b sleft sright :=
  ⟨h.left.mono hab, h.right.mono hab, h.both.mono hab⟩

theorem Balanced.channel {b sleft sright linear pan : Int} (h : Balanced b sleft sright) (hlinear : Within 8031 linear)
    (hpan : Within 6 pan) (hrest : Within 6 (6 - pan)) :
    Balanced (b + 48186) (sleft + linear * pan) (sright + linear * (6 - pan)) where
  left := h.left.add (hlinear.mul hpan)
  right := h.right.add (hlinear.mul hrest)
  both := by
    have hsum : sleft + linear * pan + (sright + linear * (6 - pan)) = sleft + sright + linear * 6 := by ring
    have hsix : Within 6 6 := by decide
    rw [hsum]
    exact h.both.add (hlinear.mul hsix)

theorem linearSample_within (jim : Nat → UInt8) (tone : Tone) : Within 8031 (linearSample jim tone) := by
  have hantilog : Within 8031 (antilog (tone.sample % 128)) := by
    have hrange := antilog_range (Nat.mod_lt tone.sample (show 0 < 128 by decide))
    constructor <;> omega
  rw [linearSample]
  split
  · exact hantilog.neg
  · exact hantilog

theorem mixChannel_spec (jim : Nat → UInt8) (tone : Tone) {b : Int} {t : Mix} (h : Balanced b t.sleft t.sright)
    (hb : b + 48186 ≤ 2147483647) :
    ∃ t', mixChannel jim tone t = some t' ∧ Balanced (b + 48186) t'.sleft t'.sright := by
  have hsample := linearSample_within jim tone
  have hrange := pan_range (PAN jim tone.c)
  rw [mixChannel]
  by_cases hsign : (tone.sign != tone.sample.testBit 7) = true
  · rw [if_pos hsign]
    generalize linearSample jim tone = sample at hsample ⊢
    generalize PanArray.getD (PAN jim tone.c) 0 = pan at hrange ⊢
    have hpan : Within 6 pan := by constructor <;> omega
    have hrest : Within 6 (6 - pan) := by constructor <;> omega
    have hnext := h.channel hsample hpan hrest
    simp only [int32_ok (hsample.inInt (by decide)), int32_ok ((hsample.mul hpan).inInt (by decide)),
      int32_ok (hnext.left.inInt hb), int32_ok ((hsample.mul hrest).inInt (by decide)),
      int32_ok (hnext.right.inInt hb), Option.bind_eq_bind, Option.bind_some]
    exact ⟨_, rfl, hnext⟩
  · rw [if_neg hsign]
    exact ⟨t, rfl, h.mono (by omega)⟩

theorem updateChannel_spec (jim : Nat → UInt8) {b : Int} {t : Mix} (i : Fin 16) (h : Balanced b t.sleft t.sright)
    (hb : b + 48186 ≤ 2147483647) :
    ∃ t', updateChannel jim t i = some t' ∧ Balanced (b + 48186) t'.sleft t'.sright :=
  mixChannel_spec jim (playChannel jim t i).1 h hb

theorem updateChannel_foldlM (jim : Nat → UInt8) (channels : List (Fin 16)) {b : Int} {t : Mix}
    (h : Balanced b t.sleft t.sright) (hb : b + 48186 * channels.length ≤ 2147483647) :
    ∃ t', channels.foldlM (updateChannel jim) t = some t' ∧
      Balanced (b + 48186 * channels.length) t'.sleft t'.sright := by
  induction channels generalizing b t with
  | nil => exact ⟨t, rfl, by simpa using h⟩
  | cons i channels ih =>
    rw [List.length_cons] at hb ⊢
    obtain ⟨t', hround, hnext⟩ := updateChannel_spec jim i h (by omega)
    obtain ⟨t'', hrest, hall⟩ := ih hnext (by omega)
    have hbound : b + 48186 + 48186 * (channels.length : Int) = b + 48186 * ((channels.length + 1 : Nat) : Int) := by
      push_cast
      ring
    rw [hbound] at hall
    refine ⟨t'', ?_, hall⟩
    rw [List.foldlM_cons, hround]
    exact hrest

theorem updateChannels_spec (jim : Nat → UInt8) (s : Synth) :
    ∃ s', updateChannels jim s = some s' ∧ Balanced 770976 s'.sleft s'.sright := by
  have hstart : Balanced 0 0 0 := by constructor <;> decide
  obtain ⟨t, hfold, hsum⟩ := updateChannel_foldlM jim (List.finRange 16)
    (t := { synth := s, sleft := 0, sright := 0, modulate := s.modulate }) hstart (by decide)
  rw [updateChannels, hfold]
  exact ⟨_, rfl, hsum⟩

/-! ### What a sample becomes -/

theorem Scaled.word_le {range high : Int} (hhigh : 0 ≤ high ∧ high ≤ range) (hrange : range < 2147483648) :
    ((high / M5000_DIVIDER).toNat.toUInt32.toNat : Int) ≤ range / M5000_DIVIDER := by
  have hdiv : high / M5000_DIVIDER ≤ range / M5000_DIVIDER := Int.ediv_le_ediv (by decide) hhigh.2
  have hlow : 0 ≤ high / M5000_DIVIDER := Int.ediv_nonneg hhigh.1 (by decide)
  have hsmall : high / M5000_DIVIDER ≤ high := Int.ediv_le_self _ hhigh.1
  rw [Nat.toUInt32, UInt32.toNat_ofNat', Nat.mod_eq_of_lt (by omega), Int.toNat_of_nonneg hlow]
  exact hdiv

theorem scale_spec {range gain error v : Int} (hrange : 0 ≤ range ∧ range ≤ 5460992) (hgain : Within 1000 gain)
    (herror : Within 1023 error) (hv : Within 1541952 v) : ∃ r, scale range gain error v = some r ∧
      (r.word.toNat : Int) ≤ range / M5000_DIVIDER ∧ Within 1023 r.error := by
  have hproduct : Within (1541952 * 1000) (v * gain) := hv.mul hgain
  have hhalf : Within 5460992 (range / 2) := by constructor <;> omega
  have hcentred := hproduct.add hhalf
  have hx := hcentred.add herror
  rw [scale]
  simp only [int32_ok (hproduct.inInt (by decide)), int32_ok (hcentred.inInt (by decide)),
    int32_ok (hx.inInt (by decide)), Option.bind_eq_bind, Option.bind_some]
  refine ⟨_, rfl, ?_, ?_⟩
  · apply Scaled.word_le _ (by omega)
    generalize v * gain + range / 2 + error = x
    constructor
    · split <;> split <;> omega
    · split <;> split <;> omega
  · have hlt := Int.tmod_lt_of_pos (v * gain + range / 2 + error) (show 0 < M5000_DIVIDER by decide)
    have hgt := Int.lt_tmod_of_pos (v * gain + range / 2 + error) (show 0 < M5000_DIVIDER by decide)
    rw [M5000_DIVIDER] at hlt hgt
    constructor
    · show -1023 ≤ (v * gain + range / 2 + error).tmod 1024
      omega
    · show (v * gain + range / 2 + error).tmod 1024 ≤ 1023
      omega

structure Tuned (s : State) : Prop where
  range : s.audioRange = 5460992
  gain : 1 ≤ s.gain ∧ s.gain ≤ 1000
  left : Within 1023 s.leftError
  right : Within 1023 s.rightError
  words : ∀ w ∈ s.words, (w.toNat : Int) ≤ s.audioRange / M5000_DIVIDER

structure SameRecording (s s' : State) : Prop where
  jim : s'.jim = s.jim
  jimRamSize : s'.jimRamSize = s.jimRamSize
  record : s'.record = s.record
  recStarted : s'.recStarted = s.recStarted
  audioIndex : s'.audioIndex = s.audioIndex
  ramMax : s'.ramMax = s.ramMax
  kept : s'.kept = s.kept
  stored : s'.stored = s.stored
  pairs : s'.pairs = s.pairs
  files : s'.files = s.files

theorem half_gain {gain : Int} (h : 1 ≤ gain) :
    1 ≤ (if 1 < gain then gain.tdiv 2 else gain) ∧ (if 1 < gain then gain.tdiv 2 else gain) ≤ gain := by
  have hhalf : gain.tdiv 2 = gain / 2 := Int.tdiv_eq_ediv_of_nonneg (by omega)
  rw [hhalf]
  split <;> omega

theorem music5000StoreSample_spec {s : State} (h : Tuned s) {sl sr : Int} (hmix : Balanced 1541952 sl sr) :
    ∃ s', music5000StoreSample sl sr s = some s' ∧ Tuned s' ∧ s'.gain ≤ s.gain ∧ SameRecording s s' := by
  have hboth : Within 1541952 (if s.stereo = true then 0 else sl + sr) := by
    split
    · decide
    · exact hmix.both
  have hrange : 0 ≤ s.audioRange ∧ s.audioRange ≤ 5460992 := by
    rw [h.range]
    decide
  have hgain : Within 1000 s.gain := ⟨by linarith [h.gain.1], h.gain.2⟩
  have hl : Within 1541952 (if s.stereo = true then sl else if s.stereo = true then 0 else sl + sr) := by
    by_cases hstereo : s.stereo = true
    · rw [if_pos hstereo]
      exact hmix.left
    · rw [if_neg hstereo]
      exact hboth
  have hr : Within 1541952 (if s.stereo = true then sr else if s.stereo = true then 0 else sl + sr) := by
    by_cases hstereo : s.stereo = true
    · rw [if_pos hstereo]
      exact hmix.right
    · rw [if_neg hstereo]
      exact hboth
  obtain ⟨left, hleft, hleftWord, hleftError⟩ := scale_spec hrange hgain h.left hl
  obtain ⟨right, hright, hrightWord, hrightError⟩ := scale_spec hrange hgain h.right hr
  have hwords : ∀ w ∈ s.words ++ [left.word, right.word], (w.toNat : Int) ≤ s.audioRange / M5000_DIVIDER := by
    intro w hw
    simp only [List.mem_append, List.mem_cons, List.not_mem_nil, or_false] at hw
    rcases hw with hw | rfl | rfl
    · exact h.words w hw
    · exact hleftWord
    · exact hrightWord
  have hzero : Within 1023 0 := by decide
  have hhalf := half_gain h.gain.1
  simp only [music5000StoreSample, int32_ok (hboth.inInt (by decide)), Option.bind_eq_bind, Option.bind_some, hleft,
    hright]
  split
  · refine ⟨_, rfl, ⟨h.range, ⟨hhalf.1, hhalf.2.trans h.gain.2⟩, hzero, hzero, hwords⟩, hhalf.2, ?_⟩
    constructor <;> rfl
  · refine ⟨_, rfl, ⟨h.range, h.gain, hleftError, hrightError, hwords⟩, le_refl _, ?_⟩
    constructor <;> rfl

theorem playSample_spec {s : State} (h : Tuned s) : ∃ sl sr s', playSample s = some (sl, sr, s') ∧ Tuned s' ∧
    s'.gain ≤ s.gain ∧ SameRecording s s' := by
  obtain ⟨a, ha, hfirst⟩ := updateChannels_spec s.jim s.m5000
  obtain ⟨b, hb, hsecond⟩ := updateChannels_spec s.jim s.m3000
  have hleft := hfirst.left.add hsecond.left
  have hright := hfirst.right.add hsecond.right
  have hmix : Balanced 1541952 (a.sleft + b.sleft) (a.sright + b.sright) := by
    refine ⟨hleft, hright, ?_⟩
    have hboth := hfirst.both.add hsecond.both
    rw [add_add_add_comm] at hboth
    exact hboth
  have htuned : Tuned { s with m5000 := a, m3000 := b } := { h with }
  obtain ⟨s', hstore, hafter, hgain, hsame⟩ := music5000StoreSample_spec htuned hmix
  refine ⟨a.sleft + b.sleft, a.sright + b.sright, s', ?_, hafter, hgain, ?_⟩
  · simp only [playSample, ha, hb, Option.bind_eq_bind, Option.bind_some, int32_ok (hleft.inInt (by decide)),
      int32_ok (hright.inInt (by decide)), hstore]
    rfl
  · exact { hsame with }

end Pi1MHz.M5000
