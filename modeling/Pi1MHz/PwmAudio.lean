import Pi1MHz.CheckedInt
import Pi1MHz.ErrorFeedback
import Mathlib.Tactic.Ring

/-!
# Samples for the PWM

The sound output of `rpi/audio.c` under the video player: the player opens a file whose header says the sample
rate, `rpi_audio_init` makes the number of PWM steps of that rate, and `rpi_audio_pack` turns each sample into a
word for the PWM, carrying what a word cannot show into the next sample.

Left out: the registers, the DMA chain and its clocks, none of which a word depends on.
-/

namespace Pi1MHz.PwmAudio

open CheckedInt ErrorFeedback

/-- The fields of `pvf_header_t` that opening and sound read. -/
structure PvfHeader where
  magic : UInt32
  version : UInt32
  width : UInt32
  height : UInt32
  fpsNum : UInt32
  fpsDen : UInt32
  frameCount : UInt32
  audioRate : UInt32
  audioBytesPerFrame : UInt32
  deriving DecidableEq

def PVF_MAGIC : UInt32 := 0x31465650

def PVF_VERSION : UInt32 := 1

/-- The checks of `pvf_open_file` on a header. -/
def PvfHeader.ok (h : PvfHeader) : Bool :=
  !(h.magic != PVF_MAGIC || h.version != PVF_VERSION || h.frameCount == 0 || h.frameCount > 400000 ||
    h.fpsNum == 0 || h.fpsDen == 0 || h.audioBytesPerFrame > 65536 || h.width == 0 || h.width > 1920 ||
    h.height == 0 || h.height > 1088)

/-- What opening a file finds: the header, if one could be read in full, the memory and the index. -/
structure OpenAnswer where
  opens : Bool
  header : Option PvfHeader
  memory : Bool
  index : Bool

def pvfOpenFile (a : OpenAnswer) : Option PvfHeader :=
  if a.opens = false then none
  else
    match a.header with
    | none => none
    | some h =>
      if h.ok = false then none
      else if a.memory = false then none
      else if a.index = false then none
      else some h

/-- The range that `rpi_audio_init` sets and returns, unless it divides by zero. -/
def rpiAudioInit (samplerate : UInt32) : Option UInt32 :=
  if 2 * samplerate = 0 then none else some (500000000 / (2 * samplerate))

def DMA_BUFFER_SIZE : Nat := 448

def initDmaBuffer (bufferInit : UInt32) : List UInt32 :=
  let error := bufferInit &&& 1
  (List.replicate (DMA_BUFFER_SIZE / 4)
    [bufferInit >>> 1, bufferInit >>> 1, (bufferInit >>> 1) + error, (bufferInit >>> 1) + error]).flatten

/-- `rpi_audio_pack`: the word and the error that is carried, unless an `int32_t` does not hold a value. -/
def rpiAudioPack (audioRange : UInt32) (sample : Int16) (error : Int) : Option (UInt32 × Int) := do
  let range := audioRange.toInt32.toInt
  let product ← int32 (sample.toInt * range)
  let centre ← int32 (range * 2 ^ 15)
  let sum ← int32 (product + centre)
  let acc ← int32 (sum + error)
  let out := acc / 2 ^ 16
  let whole ← int32 (out * 2 ^ 16)
  let rest ← int32 (acc - whole)
  if out < 0 then return (0, 0)
  else if range < out then return (audioRange, 0)
  else return (out.toNat.toUInt32, rest)

def packAll (audioRange : UInt32) : List Int16 → Int → Option (List UInt32 × Int)
  | [], error => some ([], error)
  | sample :: rest, error => do
    let next ← rpiAudioPack audioRange sample error
    let later ← packAll audioRange rest next.2
    return (next.1 :: later.1, later.2)

def exactSteps (audioRange : UInt32) (sample : Int16) : Int := (sample.toInt + 32768) * audioRange.toNat

def Clamped (audioRange : UInt32) (sample : Int16) (error : Int) : Prop :=
  exactSteps audioRange sample + error < 0 ∨
    (audioRange.toNat : Int) < (exactSteps audioRange sample + error) / 65536

def Unclamped (audioRange : UInt32) : List Int16 → Int → Prop
  | [], _ => True
  | sample :: rest, error =>
    ¬Clamped audioRange sample error ∧ ∀ next ∈ rpiAudioPack audioRange sample error, Unclamped audioRange rest next.2

/-- The sound of a rate is right: there is a range, the words that the buffers start with and those of every run
lie in it, no value of a run overflows, and between any two points of a run without clamping the words miss the
exact sum by the difference of the carried errors, which is less than a step. -/
structure Right (samplerate audioRange : UInt32) : Prop where
  init : rpiAudioInit samplerate = some audioRange
  first : ∀ w ∈ initDmaBuffer audioRange, w ≤ audioRange
  packs : ∀ samples, ∃ words error, packAll audioRange samples 0 = some (words, error) ∧ ∀ w ∈ words, w ≤ audioRange
  inStep : ∀ before run words₀ error₀ words error, packAll audioRange before 0 = some (words₀, error₀) →
    packAll audioRange run error₀ = some (words, error) → Unclamped audioRange run error₀ →
    (run.map (exactSteps audioRange)).sum - 65536 * (words.map fun w => (w.toNat : Int)).sum = error - error₀ ∧
      |error - error₀| < 65536

def SoundRight (samplerate : UInt32) : Prop := ∃ audioRange, Right samplerate audioRange
/-! ### One sample -/

section

variable {r : UInt32} {sample : Int16} {error : Int}

theorem sample_range (sample : Int16) : -32768 ≤ sample.toInt ∧ sample.toInt ≤ 32767 :=
  ⟨Int16.le_toInt sample, Int16.toInt_le sample⟩

theorem range_toInt (h : r.toNat < 2 ^ 31) : r.toInt32.toInt = r.toNat := by
  have hbits : r.toInt32.toInt = (r.toNat : Int).bmod (2 ^ 32) := by
    rw [← Int32.toInt_toBitVec, UInt32.toBitVec_toInt32, BitVec.toInt_eq_toNat_bmod, UInt32.toNat_toBitVec]
  rw [hbits]
  apply Int.bmod_eq_of_le <;> omega

theorem exactSteps_range (r : UInt32) (sample : Int16) :
    0 ≤ exactSteps r sample ∧ exactSteps r sample ≤ 65535 * r.toNat := by
  have hsample := sample_range sample
  have hr : (0 : Int) ≤ r.toNat := Int.natCast_nonneg _
  constructor
  · exact Int.mul_nonneg (by omega) hr
  · exact Int.mul_le_mul_of_nonneg_right (by omega) hr

theorem acc_eq (r : UInt32) (sample : Int16) (error : Int) :
    sample.toInt * r.toNat + (r.toNat : Int) * 2 ^ 15 + error = exactSteps r sample + error := by
  rw [exactSteps]
  ring

theorem rpiAudioPack_eq (sample : Int16) (hr : r.toNat ≤ 32767) (he : 0 ≤ error ∧ error < 65536) :
    rpiAudioPack r sample error = some (((exactSteps r sample + error) / 65536).toNat.toUInt32,
      (exactSteps r sample + error) % 65536) ∧
    0 ≤ (exactSteps r sample + error) / 65536 ∧ (exactSteps r sample + error) / 65536 ≤ r.toNat := by
  have hsteps := exactSteps_range r sample
  have hwithin : Within 32768 sample.toInt := by
    have hsample := sample_range sample
    constructor <;> omega
  have hrange : Within 32767 (r.toNat : Int) := by constructor <;> omega
  have hproduct : InInt (sample.toInt * r.toNat) := (hwithin.mul hrange).inInt (by decide)
  have hcentre : InInt ((r.toNat : Int) * 2 ^ 15) := by constructor <;> omega
  have hsum : InInt (sample.toInt * r.toNat + (r.toNat : Int) * 2 ^ 15) := by
    have hacc := acc_eq r sample 0
    constructor <;> omega
  have hacc : InInt (exactSteps r sample + error) := by constructor <;> omega
  have hlow : 0 ≤ (exactSteps r sample + error) / 65536 := by omega
  have hhigh : (exactSteps r sample + error) / 65536 ≤ r.toNat := by omega
  have hwhole : InInt ((exactSteps r sample + error) / 65536 * 65536) := by constructor <;> omega
  have hrest : exactSteps r sample + error - (exactSteps r sample + error) / 65536 * 65536 =
      (exactSteps r sample + error) % 65536 := by omega
  have hrestInt : InInt ((exactSteps r sample + error) % 65536) := by constructor <;> omega
  refine ⟨?_, hlow, hhigh⟩
  simp only [rpiAudioPack, range_toInt (show r.toNat < 2 ^ 31 by omega), int32_ok hproduct, int32_ok hcentre,
    int32_ok hsum, Option.bind_eq_bind, Option.bind_some, acc_eq, int32_ok hacc]
  norm_num only [int32_ok hwhole, Option.bind_some, hrest, int32_ok hrestInt, not_lt.mpr hlow, not_lt.mpr hhigh,
    if_false, pure]

end

/-! ### Runs -/

theorem packAll_eq {r : UInt32} (hr : r.toNat ≤ 32767) (samples : List Int16) {error : Int}
    (he : 0 ≤ error ∧ error < 65536) :
    ∃ words, packAll r samples error = some (words, (quantise 65536 error (samples.map (exactSteps r))).2) ∧
      words.map (fun w => (w.toNat : Int)) = (quantise 65536 error (samples.map (exactSteps r))).1 ∧
      ∀ w ∈ words, w ≤ r := by
  induction samples generalizing error with
  | nil => exact ⟨[], rfl, rfl, by simp⟩
  | cons sample rest ih =>
    obtain ⟨hpack, hlow, hhigh⟩ := rpiAudioPack_eq sample hr he
    have hnext : 0 ≤ (exactSteps r sample + error) % 65536 ∧ (exactSteps r sample + error) % 65536 < 65536 := by omega
    obtain ⟨words, hrun, hvalues, hwords⟩ := ih hnext
    have hword : (((exactSteps r sample + error) / 65536).toNat.toUInt32.toNat : Int) =
        (exactSteps r sample + error) / 65536 := by
      rw [Nat.toUInt32, UInt32.toNat_ofNat', Nat.mod_eq_of_lt (by omega), Int.toNat_of_nonneg hlow]
    refine ⟨((exactSteps r sample + error) / 65536).toNat.toUInt32 :: words, ?_, ?_, ?_⟩
    · simp only [packAll, hpack, Option.bind_eq_bind, Option.bind_some, hrun, List.map_cons, quantise, pure]
    · rw [List.map_cons, hvalues, hword]
      rfl
    · intro w hw
      rcases List.mem_cons.mp hw with rfl | hw
      · rw [UInt32.le_iff_toNat_le]
        omega
      · exact hwords w hw

theorem initDmaBuffer_le (r : UInt32) : ∀ w ∈ initDmaBuffer r, w ≤ r := by
  have hhalf : (r >>> 1).toNat = r.toNat / 2 := by
    simp [Nat.shiftRight_eq_div_pow]
  have hodd : (r &&& 1).toNat = r.toNat % 2 := by simp
  have hlt := r.toNat_lt
  have hup : ((r >>> 1) + (r &&& 1)).toNat = r.toNat / 2 + r.toNat % 2 := by
    rw [UInt32.toNat_add, hhalf, hodd]
    omega
  intro w hw
  simp only [initDmaBuffer, List.mem_flatten, List.mem_replicate] at hw
  obtain ⟨round, ⟨-, rfl⟩, hw⟩ := hw
  rw [UInt32.le_iff_toNat_le]
  simp only [List.mem_cons, List.not_mem_nil, or_false, or_self_left] at hw
  rcases hw with rfl | rfl | rfl <;> omega

theorem no_error : 0 ≤ (0 : Int) ∧ (0 : Int) < 65536 := by decide

theorem right_of_le {samplerate r : UInt32} (hinit : rpiAudioInit samplerate = some r) (hr : r.toNat ≤ 32767) :
    Right samplerate r where
  init := hinit
  first := initDmaBuffer_le r
  packs samples := by
    obtain ⟨words, hrun, -, hwords⟩ := packAll_eq hr samples no_error
    exact ⟨words, _, hrun, hwords⟩
  inStep before run words₀ error₀ words error hbefore hrun _ := by
    obtain ⟨_, hbefore', -, -⟩ := packAll_eq hr before no_error
    rw [hbefore] at hbefore'
    cases hbefore'
    have herror := quantise_remainder (show (0 : Int) < 65536 by decide) 0 (before.map (exactSteps r))
      no_error
    obtain ⟨_, hrun', hvalues, -⟩ := packAll_eq hr run herror
    rw [hrun] at hrun'
    cases hrun'
    have hend := quantise_remainder (show (0 : Int) < 65536 by decide) _ (run.map (exactSteps r)) herror
    have hsum := quantise_sum 65536 (quantise 65536 0 (before.map (exactSteps r))).2 (run.map (exactSteps r))
    rw [hvalues]
    constructor
    · linarith
    · exact abs_sub_lt_iff.mpr ⟨by linarith [hend.2, herror.1], by linarith [hend.1, herror.2]⟩
/-! ### Which rates are right -/

theorem rpiAudioPack_some {r : UInt32} {sample : Int16} {error : Int} {next : UInt32 × Int} (hr : r.toNat < 2 ^ 31)
    (h : rpiAudioPack r sample error = some next) : exactSteps r sample + error ≤ 2147483647 := by
  simp only [rpiAudioPack, range_toInt hr, Option.bind_eq_bind] at h
  obtain ⟨-, h⟩ := int32_bind_some h
  obtain ⟨-, h⟩ := int32_bind_some h
  obtain ⟨-, h⟩ := int32_bind_some h
  obtain ⟨hacc, -⟩ := int32_bind_some h
  rw [acc_eq] at hacc
  exact hacc.2

theorem le_of_right {samplerate r : UInt32} (hr : r.toNat < 2 ^ 31) (h : Right samplerate r) : r.toNat ≤ 32767 := by
  obtain ⟨words, error, hrun, -⟩ := h.packs [32767, 32767]
  have hsteps : exactSteps r 32767 = 65535 * r.toNat := rfl
  obtain ⟨first, hfirst, hrest⟩ := Option.bind_eq_some_iff.mp hrun
  have hone := rpiAudioPack_some hr hfirst
  obtain ⟨later, hlater, -⟩ := Option.bind_eq_some_iff.mp hrest
  obtain ⟨second, hsecond, -⟩ := Option.bind_eq_some_iff.mp hlater
  have htwo := rpiAudioPack_some hr hsecond
  by_contra hlarge
  have hexact : r.toNat = 32768 := by omega
  obtain rfl : r = 32768 := UInt32.toNat_inj.mp hexact
  have hcarried : rpiAudioPack 32768 32767 0 = some (32767, 32768) := by decide
  rw [hcarried] at hfirst
  cases hfirst
  revert htwo
  decide

theorem twice_toNat (samplerate : UInt32) : (2 * samplerate).toNat = 2 * (samplerate.toNat % 2 ^ 31) := by
  rw [UInt32.toNat_mul]
  simp only [UInt32.reduceToNat]
  omega

theorem rpiAudioInit_some {samplerate r : UInt32} (h : rpiAudioInit samplerate = some r) :
    samplerate.toNat % 2 ^ 31 ≠ 0 ∧ r.toNat = 500000000 / (2 * (samplerate.toNat % 2 ^ 31)) := by
  rw [rpiAudioInit] at h
  split at h
  · cases h
  · rename_i hzero
    obtain rfl := Option.some.inj h
    rw [UInt32.toNat_div, twice_toNat]
    refine ⟨?_, rfl⟩
    intro hmod
    apply hzero
    rw [← UInt32.toNat_inj, twice_toNat, hmod]
    rfl

theorem rpiAudioInit_of_ne {samplerate : UInt32} (h : samplerate.toNat % 2 ^ 31 ≠ 0) :
    rpiAudioInit samplerate = some (500000000 / (2 * samplerate)) := by
  apply if_neg
  intro hzero
  have htwice := twice_toNat samplerate
  rw [hzero] at htwice
  simp only [UInt32.reduceToNat] at htwice
  omega

theorem range_le_iff {d : Nat} (hd : d ≠ 0) : 500000000 / (2 * d) ≤ 32767 ↔ 7630 ≤ d := by
  rw [← Nat.lt_succ_iff, Nat.div_lt_iff_lt_mul (by omega)]
  omega

theorem soundRight_iff (samplerate : UInt32) : SoundRight samplerate ↔ 7630 ≤ samplerate.toNat % 2 ^ 31 := by
  constructor
  · rintro ⟨r, h⟩
    obtain ⟨hd, hr⟩ := rpiAudioInit_some h.init
    have hle : r.toNat ≤ 500000000 := by
      rw [hr]
      exact Nat.div_le_self _ _
    rw [← range_le_iff hd, ← hr]
    exact le_of_right (by omega) h
  · intro hrate
    have hd : samplerate.toNat % 2 ^ 31 ≠ 0 := by omega
    have hinit := rpiAudioInit_of_ne hd
    refine ⟨_, right_of_le hinit ?_⟩
    rw [(rpiAudioInit_some hinit).2]
    exact (range_le_iff hd).mpr hrate

/-- The sound of every file that opens and has sound is right exactly if its rate, less the top bit, is at least
7630 samples in a second. -/
theorem opened_sound_right_iff (a : OpenAnswer) (h : PvfHeader) (_hopen : pvfOpenFile a = some h)
    (_hsound : h.audioRate ≠ 0) : SoundRight h.audioRate ↔ 7630 ≤ h.audioRate.toNat % 2 ^ 31 :=
  soundRight_iff h.audioRate

def domesdayHeader (audioRate : UInt32) : PvfHeader where
  magic := PVF_MAGIC
  version := PVF_VERSION
  width := 768
  height := 576
  fpsNum := 25
  fpsDen := 1
  frameCount := 54000
  audioRate := audioRate
  audioBytesPerFrame := 7500

theorem domesday_opens (audioRate : UInt32) :
    pvfOpenFile ⟨true, some (domesdayHeader audioRate), true, true⟩ = some (domesdayHeader audioRate) := by
  have hok : (domesdayHeader audioRate).ok = true := by
    simp [PvfHeader.ok, domesdayHeader]
  simp [pvfOpenFile, hok]

theorem native_rate_right : SoundRight (domesdayHeader 46875).audioRate := by
  apply (opened_sound_right_iff ⟨true, some (domesdayHeader 46875), true, true⟩ (domesdayHeader 46875)
    (domesday_opens 46875) (by decide)).mpr
  have hrate : (domesdayHeader 46875).audioRate.toNat = 46875 := rfl
  rw [hrate]
  norm_num

/-- A rate of 2147483648 passes every check of the header, and the divisor is zero. -/
theorem top_bit_divides_by_zero : ¬∀ (a : OpenAnswer) (h : PvfHeader), pvfOpenFile a = some h → h.audioRate ≠ 0 →
    SoundRight h.audioRate := by
  intro hclaim
  obtain ⟨r, h⟩ := hclaim _ _ (domesday_opens 2147483648) (by decide)
  have hzero : rpiAudioInit 2147483648 = none := by decide
  have hinit := h.init
  rw [show (domesdayHeader 2147483648).audioRate = 2147483648 from rfl, hzero] at hinit
  cases hinit

end Pi1MHz.PwmAudio
