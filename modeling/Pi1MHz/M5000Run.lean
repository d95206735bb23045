import Pi1MHz.M5000

/-!
# Runs of the Music 5000

Samples, the Beeb's writes to JIM RAM and to the recording switch, and resets, in any order: a poll of
`music5000_emulate` is a run of these.  The gain only falls, the words and the carried errors keep their bounds,
and the recording stays in its part of JIM RAM with the sizes of its header right.
-/

namespace Pi1MHz.M5000

open CheckedInt MemoryText

inductive Step where
  | beeb (jim : Nat → UInt8) (fx : UInt8)
  | control (card : Card)
  | sample (card : Card)
  | init (beebMuted : Bool) (card : Card)

def Step.isInit : Step → Bool
  | .init _ _ => true
  | _ => false

def step (config : Option Int) (s : State) : Step → Option State
  | .beeb jim fx => some { s with jim, fx }
  | .control card => some (control card s)
  | .sample card => emulateSample card s
  | .init beebMuted card => m5000EmulatorInit config beebMuted card s

def run (config : Option Int) : State → List Step → Option State
  | s, [] => some s
  | s, x :: steps => (step config s x).bind fun t => run config t steps

theorem run_append (config : Option Int) (s : State) (xs ys : List Step) :
    run config s (xs ++ ys) = (run config s xs).bind fun t => run config t ys := by
  induction xs generalizing s with
  | nil => rfl
  | cons x xs ih =>
    rw [List.cons_append, run, run, Option.bind_assoc]
    exact congrArg _ (funext fun t => ih t)

theorem music5000Emulate_eq_run (config : Option Int) (card : Card) (space : Nat) (s : State) :
    music5000Emulate card space s = run config s (.control card :: List.replicate (space / 2) (.sample card)) := by
  have hsamples : ∀ n s, emulateSamples card n s = run config s (List.replicate n (.sample card)) := by
    intro n
    induction n with
    | zero => exact fun s => rfl
    | succ n ih =>
      intro s
      rw [emulateSamples, List.replicate_succ, run]
      exact congrArg _ (funext ih)
  exact hsamples _ _

def recMax (jimRamSize : UInt8) : Nat := jimRamSize.toNat * JIM_RAM_STEP - M5000_REC_END

/-- The 32 bits at `o`. -/
def readLe32 (bytes : List UInt8) (o : Nat) : Nat :=
  (bytes.getD o 0).toNat + 256 * (bytes.getD (o + 1) 0).toNat + 65536 * (bytes.getD (o + 2) 0).toNat +
    16777216 * (bytes.getD (o + 3) 0).toNat

/-- The sizes in the header are those of the file: 44 bytes, the dummy sample, and a pair of samples in 4 bytes. -/
structure File.Headed (f : File) : Prop where
  length : f.bytes.length = 48 + 4 * f.pairs
  riff : readLe32 f.bytes 4 + 8 = f.bytes.length
  data : readLe32 f.bytes 40 + 44 = f.bytes.length

def scaled (gain v : Int) : Int := (v * gain * 12).tdiv 1024

structure Kept.Saturated (k : Kept) : Prop where
  value : k.value.toInt16.toInt = max (-32768) (min 32767 (scaled k.gain k.sample))
  positive : 0 ≤ k.sample → 0 ≤ k.value.toInt16.toInt
  negative : k.sample ≤ 0 → k.value.toInt16.toInt ≤ 0

structure Sound (s : State) : Prop where
  tuned : Tuned s
  kept : ∀ k ∈ s.kept, k.Saturated
  stored : ∀ a ∈ s.stored, M5000_REC_BASE ≤ a ∧ a < recMax s.jimRamSize
  files : ∀ f ∈ s.files, f.Headed

structure Lawful (config : Option Int) (s : State) (steps : List Step) : Prop where
  sound : ∃ t, run config s steps = some t ∧ Sound t
  gain : ∀ xs ys, steps = xs ++ ys → (∀ y ∈ ys, y.isInit = false) → ∀ t u, run config s xs = some t →
    run config t ys = some u → u.gain ≤ t.gain

def Fits (gain v : Int) : Prop := -2796287 ≤ v * gain ∧ v * gain ≤ 2796202

instance (gain v : Int) : Decidable (Fits gain v) := inferInstanceAs (Decidable (_ ∧ _))

/-- What `store_samples` is given fits. -/
def Recordable (s : State) : Prop :=
  s.record = true → ∀ r ∈ playSample s, Fits r.2.2.gain r.1 ∧ Fits r.2.2.gain r.2.1

instance (s : State) : Decidable (Recordable s) := inferInstanceAs (Decidable (_ → _))

def Step.Allowed (s : State) : Step → Prop
  | .sample _ => Recordable s
  | _ => True

instance (s : State) : ∀ x : Step, Decidable (x.Allowed s)
  | .sample _ => inferInstanceAs (Decidable (Recordable s))
  | .beeb _ _ => isTrue trivial
  | .control _ => isTrue trivial
  | .init _ _ => isTrue trivial

def Meets (config : Option Int) : State → List Step → Prop
  | _, [] => True
  | s, x :: steps => x.Allowed s ∧ ∀ t ∈ step config s x, Meets config t steps

instance meetsDecidable (config : Option Int) : ∀ s steps, Decidable (Meets config s steps)
  | _, [] => isTrue trivial
  | s, x :: steps =>
    haveI : ∀ t, Decidable (Meets config t steps) := fun t => meetsDecidable config t steps
    inferInstanceAs (Decidable (x.Allowed s ∧ ∀ t ∈ step config s x, Meets config t steps))

/-! ### A file's header -/

theorem put_byte (a : Nat) (bytes : List UInt8) (s : State) (k : Nat) :
    (s.put a bytes).jim k = if a ≤ k ∧ k < a + bytes.length then bytes.getD (k - a) 0 else s.jim k := rfl

theorem slice_getD (M : Nat → UInt8) {i e k : Nat} (h : k < e - i) : (slice M i e).getD k 0 = M (i + k) := by
  rw [List.getD_eq_getElem?_getD, slice, List.getElem?_map, List.getElem?_range' h]
  simp

theorem readLe32_le32 {bytes : List UInt8} {o : Nat} {v : UInt32}
    (h : ∀ k < 4, bytes.getD (o + k) 0 = (le32 v).getD k 0) :
    readLe32 bytes o = v.toNat := by
  have h0 := h 0 (by decide)
  have h1 := h 1 (by decide)
  have h2 := h 2 (by decide)
  have h3 := h 3 (by decide)
  have hv := v.toNat_lt
  rw [Nat.add_zero] at h0
  rw [readLe32, h0, h1, h2, h3]
  simp only [le32, List.getD_cons_zero, List.getD_cons_succ, UInt32.toNat_toUInt8, UInt32.toNat_shiftRight,
    UInt32.reduceToNat, Nat.shiftRight_eq_div_pow, Nat.reduceMod, Nat.reducePow]
  omega

theorem wavfmt_length : wavfmt.length = 48 := by decide

theorem le32_length (v : UInt32) : (le32 v).length = 4 := rfl

theorem size_sub {n : Nat} {k : UInt32} (hk : k.toNat ≤ n) (hn : n < 2 ^ 32) :
    (UInt32.ofNat n - k).toNat + k.toNat = n := by
  have hofNat : (UInt32.ofNat n).toNat = n := UInt32.toNat_ofNat_of_lt hn
  rw [UInt32.toNat_sub_of_le, hofNat]
  · omega
  · rw [UInt32.le_iff_toNat_le, hofNat]
    exact hk

/-- A recording that goes on: it has room for its header, and its place is behind the pairs stored so far. -/
structure Recording (s : State) : Prop where
  room : M5000_REC_END / JIM_RAM_STEP < s.jimRamSize.toNat
  ramMax : s.ramMax = recMax s.jimRamSize
  place : s.audioIndex = M5000_REC_BASE + 48 + 4 * s.pairs
  inside : s.audioIndex < s.ramMax

theorem recMax_room {jimRamSize : UInt8} (h : M5000_REC_END / JIM_RAM_STEP < jimRamSize.toNat) :
    M5000_REC_BASE + 48 < recMax jimRamSize ∧ recMax jimRamSize < 2 ^ 32 := by
  have hbyte := jimRamSize.toNat_lt
  have htwo : M5000_REC_END / JIM_RAM_STEP = 2 := by decide
  rw [recMax, M5000_REC_END, JIM_RAM_STEP, M5000_REC_BASE]
  omega

theorem writeFile_headed {s : State} (h : Recording s) : File.Headed {
    pairs := (putHeader s).pairs
    bytes := slice (putHeader s).jim M5000_REC_BASE (putHeader s).audioIndex } := by
  have hindex : (putHeader s).audioIndex = s.audioIndex := rfl
  have hpairs : (putHeader s).pairs = s.pairs := rfl
  rw [hindex, hpairs, putHeader]
  have hroom := (recMax_room h.room).2
  have hplace := h.place
  have hinside := h.inside
  rw [h.ramMax] at hinside
  generalize hsize : s.audioIndex - M5000_REC_BASE = size at *
  have hsmall : size < 2 ^ 32 := by omega
  have hlong : 48 ≤ size := by omega
  have h8 : (8 : UInt32).toNat = 8 := rfl
  have h44 : (44 : UInt32).toNat = 44 := rfl
  generalize M5000_REC_BASE = base at *
  have hlength : (slice (((s.put base wavfmt).put (base + 4) (le32 (UInt32.ofNat size - 8))).put (base + 40)
      (le32 (UInt32.ofNat size - 44))).jim base s.audioIndex).length = size := by
    rw [slice_length, hsize]
  constructor
  · show (slice _ _ _).length = 48 + 4 * s.pairs
    rw [hlength]
    omega
  · show readLe32 (slice _ _ _) 4 + 8 = (slice _ _ _).length
    rw [hlength, readLe32_le32 (v := UInt32.ofNat size - 8)]
    · have hsum := size_sub (h8.symm ▸ (by omega : 8 ≤ size)) hsmall
      rw [h8] at hsum
      exact hsum
    · intro k hk
      rw [slice_getD _ (by omega), put_byte, if_neg, put_byte, if_pos]
      · have hindex : base + (4 + k) - (base + 4) = k := by omega
        rw [hindex]
      · rw [le32_length]
        omega
      · rw [le32_length]
        omega
  · show readLe32 (slice _ _ _) 40 + 44 = (slice _ _ _).length
    rw [hlength, readLe32_le32 (v := UInt32.ofNat size - 44)]
    · have hsum := size_sub (h44.symm ▸ (by omega : 44 ≤ size)) hsmall
      rw [h44] at hsum
      exact hsum
    · intro k hk
      rw [slice_getD _ (by omega), put_byte, if_pos]
      · have hindex : base + (40 + k) - (base + 40) = k := by omega
        rw [hindex]
      · rw [le32_length]
        omega

/-! ### A recorded value -/

theorem scaled_fits {gain v : Int} (h : Fits gain v) : -32768 ≤ scaled gain v ∧ scaled gain v ≤ 32767 := by
  obtain ⟨hlow, hhigh⟩ := h
  rw [scaled]
  rcases Int.le_total 0 (v * gain * 12) with hsign | hsign
  · rw [Int.tdiv_eq_ediv_of_nonneg hsign]
    omega
  · have hneg : (v * gain * 12).tdiv 1024 = -(-(v * gain * 12) / 1024) := by
      rw [← Int.tdiv_eq_ediv_of_nonneg (by omega), Int.neg_tdiv, Int.neg_neg]
    rw [hneg]
    omega

theorem scaleRecord_fits {gain v : Int} (h : Fits gain v) : scaleRecord gain v = some (scaled gain v) := by
  have hproduct : InInt (v * gain) := ⟨by linarith [h.1], by linarith [h.2]⟩
  have htwelve : InInt (v * gain * 12) := ⟨by linarith [h.1], by linarith [h.2]⟩
  simp only [scaleRecord, int32_ok hproduct, int32_ok htwelve, Option.bind_eq_bind, Option.bind_some]
  rfl

theorem scaled_sign {gain : Int} (hgain : 1 ≤ gain) (v : Int) :
    (0 ≤ v → 0 ≤ scaled gain v) ∧ (v ≤ 0 → scaled gain v ≤ 0) := by
  constructor
  · intro hv
    exact Int.tdiv_nonneg (Int.mul_nonneg (Int.mul_nonneg hv (by omega)) (by decide)) (by decide)
  · intro hv
    have hproduct : v * gain ≤ 0 := Int.mul_nonpos_of_nonpos_of_nonneg hv (by omega)
    have hneg : scaled gain v = -(-(v * gain * 12)).tdiv 1024 := by
      rw [Int.neg_tdiv, Int.neg_neg, scaled]
    have hquotient : 0 ≤ (-(v * gain * 12)).tdiv 1024 := Int.tdiv_nonneg (by omega) (by decide)
    omega

theorem kept_saturated {gain v : Int} (hgain : 1 ≤ gain) (h : Fits gain v) :
    Kept.Saturated { sample := v, gain, value := (Int16.ofInt (scaled gain v)).toUInt16 } := by
  have hrange := scaled_fits h
  have hvalue : (Int16.ofInt (scaled gain v)).toUInt16.toInt16.toInt = scaled gain v := by
    rw [Int16.toInt16_toUInt16]
    exact Int16.toInt_ofInt_of_le (by omega) (by omega)
  obtain ⟨hpositive, hnegative⟩ := scaled_sign hgain v
  constructor
  · show (Int16.ofInt (scaled gain v)).toUInt16.toInt16.toInt = max (-32768) (min 32767 (scaled gain v))
    rw [hvalue]
    omega
  · intro hv
    exact hvalue.symm ▸ hpositive hv
  · intro hv
    exact hvalue.symm ▸ hnegative hv
/-! ### Steps -/

structure Inv (s : State) : Prop where
  sound : Sound s
  recording : s.record = true → Recording s

section

variable {s s' : State}

theorem Inv.play (h : Inv s) (hsame : SameRecording s s') (htuned : Tuned s') : Inv s' where
  sound := by
    refine ⟨htuned, ?_, ?_, ?_⟩
    · rw [hsame.kept]
      exact h.sound.kept
    · rw [hsame.stored, hsame.jimRamSize]
      exact h.sound.stored
    · rw [hsame.files]
      exact h.sound.files
  recording := by
    intro hrecord
    rw [hsame.record] at hrecord
    obtain ⟨hroom, hmax, hplace, hinside⟩ := h.recording hrecord
    constructor
    · rw [hsame.jimRamSize]
      exact hroom
    · rw [hsame.ramMax, hsame.jimRamSize]
      exact hmax
    · rw [hsame.audioIndex, hsame.pairs]
      exact hplace
    · rw [hsame.audioIndex, hsame.ramMax]
      exact hinside

theorem recStart_inv (h : Inv s) : Inv (music5000RecStart s) := by
  have hsound : Sound { s with
      audioIndex := M5000_REC_BASE + wavfmt.length, recStarted := false, pairs := 0 } :=
    ⟨⟨h.sound.tuned.range, h.sound.tuned.gain, h.sound.tuned.left, h.sound.tuned.right, h.sound.tuned.words⟩,
      h.sound.kept, h.sound.stored, h.sound.files⟩
  rw [music5000RecStart]
  dsimp only
  split
  · next hsmall =>
    refine ⟨hsound, fun hrecord => ?_⟩
    exact absurd (h.recording hrecord).room (Nat.not_lt.mpr hsmall)
  · next hlarge =>
    have hroom := Nat.not_le.mp hlarge
    refine ⟨⟨⟨h.sound.tuned.range, h.sound.tuned.gain, h.sound.tuned.left, h.sound.tuned.right,
      h.sound.tuned.words⟩, h.sound.kept, h.sound.stored, h.sound.files⟩, fun _ => ⟨hroom, rfl, ?_, ?_⟩⟩
    · show M5000_REC_BASE + wavfmt.length = M5000_REC_BASE + 48 + 4 * 0
      rw [wavfmt_length]
    · show M5000_REC_BASE + wavfmt.length < recMax s.jimRamSize
      rw [wavfmt_length]
      exact (recMax_room hroom).1

theorem recStop_inv (card : Card) (h : Inv s) (hrecord : s.record = true) : Inv (music5000RecStop card s) := by
  have hrecording := h.recording hrecord
  have hend := (recMax_room hrecording.room).1
  rw [music5000RecStop]
  split
  · exact ⟨⟨⟨h.sound.tuned.range, h.sound.tuned.gain, h.sound.tuned.left, h.sound.tuned.right, h.sound.tuned.words⟩,
      h.sound.kept, h.sound.stored, h.sound.files⟩, nofun⟩
  · refine ⟨⟨⟨h.sound.tuned.range, h.sound.tuned.gain, h.sound.tuned.left, h.sound.tuned.right, h.sound.tuned.words⟩,
      h.sound.kept, ?_, ?_⟩, nofun⟩
    · intro a ha
      simp only [writeFile, putHeader, State.put, List.mem_append, List.mem_range'_1, wavfmt_length, le32_length] at ha
      rcases ha with ((ha | ha) | ha) | ha
      · exact h.sound.stored a ha
      all_goals
        constructor
        · omega
        · show a < recMax s.jimRamSize
          omega
    · intro f hf
      rcases List.mem_append.mp hf with hf | hf
      · exact h.sound.files f hf
      · obtain rfl := List.mem_singleton.mp hf
        exact writeFile_headed hrecording

theorem control_inv (card : Card) (h : Inv s) : Inv (control card s) := by
  have hstart : Inv (if s.record = false ∧ s.fx ≠ 0 then music5000RecStart s else s) := by
    split
    · exact recStart_inv h
    · exact h
  rw [control]
  generalize (if s.record = false ∧ s.fx ≠ 0 then music5000RecStart s else s) = t at hstart ⊢
  split
  · next hstop => exact recStop_inv card hstart hstop.1
  · exact hstart

theorem storeSamples_inv (card : Card) {sl sr : Int} (h : Inv s) (hrecord : s.record = true) (hl : Fits s.gain sl)
    (hr : Fits s.gain sr) : ∃ s', storeSamples card sl sr s = some s' ∧ Inv s' ∧ s'.gain = s.gain := by
  have hrecording := h.recording hrecord
  rw [storeSamples]
  split
  · simp only [scaleRecord_fits hl, scaleRecord_fits hr, Option.bind_eq_bind, Option.bind_some]
    split
    · refine ⟨_, rfl, recStop_inv card h hrecord, ?_⟩
      rw [music5000RecStop]
      dsimp only
      split <;> rfl
    · next hroom =>
      have hinside : s.audioIndex + 4 < s.ramMax := Nat.not_le.mp hroom
      refine ⟨_, rfl, ⟨⟨⟨h.sound.tuned.range, h.sound.tuned.gain, h.sound.tuned.left, h.sound.tuned.right,
        h.sound.tuned.words⟩, ?_, ?_, h.sound.files⟩, fun _ => ⟨hrecording.room, hrecording.ramMax, ?_, hinside⟩⟩, rfl⟩
      · intro k hk
        simp only [List.mem_append, List.mem_cons, List.not_mem_nil, or_false] at hk
        rcases hk with hk | rfl | rfl
        · exact h.sound.kept k hk
        · exact kept_saturated h.sound.tuned.gain.1 hl
        · exact kept_saturated h.sound.tuned.gain.1 hr
      · intro a ha
        have hplace := hrecording.place
        have hmax := hrecording.ramMax
        simp only [State.put, List.mem_append, List.mem_range'_1, le16, List.length_cons, List.length_nil] at ha
        show M5000_REC_BASE ≤ a ∧ a < recMax s.jimRamSize
        rcases ha with (ha | ha) | ha
        · exact h.sound.stored a ha
        · omega
        · omega
      · show s.audioIndex + 4 = M5000_REC_BASE + 48 + 4 * (s.pairs + 1)
        rw [hrecording.place]
        omega
  · exact ⟨s, rfl, h, rfl⟩

theorem emulateSample_inv (card : Card) (h : Inv s) (hfits : Recordable s) :
    ∃ s', emulateSample card s = some s' ∧ Inv s' ∧ s'.gain ≤ s.gain := by
  obtain ⟨sl, sr, s', hplay, htuned, hgain, hsame⟩ := playSample_spec h.sound.tuned
  have hinv := h.play hsame htuned
  by_cases hrecord : s.record = true
  · obtain ⟨hl, hr⟩ := hfits hrecord _ hplay
    have hrecord' : s'.record = true := hsame.record.trans hrecord
    obtain ⟨t, hstore, ht, hsameGain⟩ := storeSamples_inv card hinv hrecord' hl hr
    refine ⟨t, ?_, ht, hsameGain.le.trans hgain⟩
    simp only [emulateSample, hplay, Option.bind_eq_bind, Option.bind_some, if_pos hrecord']
    exact hstore
  · refine ⟨s', ?_, hinv, hgain⟩
    simp only [emulateSample, hplay, Option.bind_eq_bind, Option.bind_some, hsame.record, if_neg hrecord]
    rfl

theorem init_inv {config : Option Int} (hconfig : 1 ≤ (m5000Gain config).1 ∧ (m5000Gain config).1 ≤ 1000)
    (beebMuted : Bool) (card : Card) (hkept : ∀ k ∈ s.kept, k.Saturated)
    (hstored : ∀ a ∈ s.stored, M5000_REC_BASE ≤ a ∧ a < recMax s.jimRamSize) (hfiles : ∀ f ∈ s.files, f.Headed)
    (hleft : Within 1023 s.leftError) (hright : Within 1023 s.rightError) (hwords : ∀ w ∈ s.words, w.toNat ≤ 5333)
    (hrecord : s.record = false) :
    ∃ s', m5000EmulatorInit config beebMuted card s = some s' ∧ Inv s' := by
  have hinit : PwmAudio.rpiAudioInit 46875 = some 5333 := by decide
  have hrange : InInt ((5333 : UInt32).toNat * M5000_DIVIDER) := by decide
  rw [m5000EmulatorInit, if_neg (by simp [hrecord])]
  simp only [hinit, Option.bind_eq_bind, Option.bind_some, int32_ok hrange]
  refine ⟨_, rfl, ⟨⟨rfl, hconfig, hleft, hright, ?_⟩, hkept, hstored, hfiles⟩, ?_⟩
  · intro w hw
    have hle := hwords w hw
    show (w.toNat : Int) ≤ 5460992 / 1024
    omega
  · intro hrecord'
    exact absurd (hrecord.symm.trans hrecord') Bool.false_ne_true

end
/-! ### Runs -/

section

variable {config : Option Int} {s t u : State}

theorem control_gain (card : Card) (s : State) : (control card s).gain = s.gain := by
  have hstop : ∀ s, (music5000RecStop card s).gain = s.gain := by
    intro s
    rw [music5000RecStop]
    split <;> rfl
  have hstart : (music5000RecStart s).gain = s.gain := by
    rw [music5000RecStart]
    dsimp only
    split <;> rfl
  have hfirst : (if s.record = false ∧ s.fx ≠ 0 then music5000RecStart s else s).gain = s.gain := by
    split
    · exact hstart
    · rfl
  rw [control]
  generalize (if s.record = false ∧ s.fx ≠ 0 then music5000RecStart s else s) = t at hfirst ⊢
  split
  · exact (hstop t).trans hfirst
  · exact hfirst

theorem reset_inv (hconfig : 1 ≤ (m5000Gain config).1 ∧ (m5000Gain config).1 ≤ 1000) (beebMuted : Bool) (card : Card)
    (h : Inv s) : ∃ t, m5000EmulatorInit config beebMuted card s = some t ∧ Inv t := by
  have hwords : ∀ {s}, Inv s → ∀ w ∈ s.words, w.toNat ≤ 5333 := by
    intro s h w hw
    have hle := h.sound.tuned.words w hw
    rw [h.sound.tuned.range, M5000_DIVIDER] at hle
    omega
  by_cases hrecord : s.record = true
  · have hstop := recStop_inv card h hrecord
    have hsame : m5000EmulatorInit config beebMuted card s =
        m5000EmulatorInit config beebMuted card (music5000RecStop card s) := by
      rw [m5000EmulatorInit, if_pos hrecord]
      rfl
    rw [hsame]
    exact init_inv hconfig beebMuted card hstop.sound.kept hstop.sound.stored hstop.sound.files
      hstop.sound.tuned.left hstop.sound.tuned.right (hwords hstop) rfl
  · exact init_inv hconfig beebMuted card h.sound.kept h.sound.stored h.sound.files h.sound.tuned.left
      h.sound.tuned.right (hwords h) (Bool.eq_false_of_not_eq_true hrecord)

theorem step_inv (hconfig : 1 ≤ (m5000Gain config).1 ∧ (m5000Gain config).1 ≤ 1000) (h : Inv s) (x : Step)
    (hmeets : Meets config s [x]) :
    ∃ t, step config s x = some t ∧ Inv t ∧ (x.isInit = false → t.gain ≤ s.gain) := by
  cases x with
  | beeb jim fx =>
    refine ⟨_, rfl, ⟨⟨⟨h.sound.tuned.range, h.sound.tuned.gain, h.sound.tuned.left, h.sound.tuned.right,
      h.sound.tuned.words⟩, h.sound.kept, h.sound.stored, h.sound.files⟩, ?_⟩, fun _ => le_refl _⟩
    intro hrecord
    obtain ⟨hroom, hmax, hplace, hinside⟩ := h.recording hrecord
    exact ⟨hroom, hmax, hplace, hinside⟩
  | control card => exact ⟨_, rfl, control_inv card h, fun _ => (control_gain card s).le⟩
  | sample card =>
    obtain ⟨t, hstep, ht, hgain⟩ := emulateSample_inv card h hmeets.1
    exact ⟨t, hstep, ht, fun _ => hgain⟩
  | init beebMuted card =>
    obtain ⟨t, hstep, ht⟩ := reset_inv hconfig beebMuted card h
    exact ⟨t, hstep, ht, nofun⟩

theorem meets_first {x : Step} {steps : List Step} (h : Meets config s (x :: steps)) : Meets config s [x] :=
  ⟨h.1, fun _ _ => trivial⟩

theorem run_inv (hconfig : 1 ≤ (m5000Gain config).1 ∧ (m5000Gain config).1 ≤ 1000) {steps : List Step} (h : Inv s)
    (hmeets : Meets config s steps) : ∃ t, run config s steps = some t ∧ Inv t ∧
      ((∀ x ∈ steps, x.isInit = false) → t.gain ≤ s.gain) := by
  induction steps generalizing s with
  | nil => exact ⟨s, rfl, h, fun _ => le_refl _⟩
  | cons x steps ih =>
    obtain ⟨t, hstep, ht, hgain⟩ := step_inv hconfig h x (meets_first hmeets)
    obtain ⟨u, hrun, hu, hrest⟩ := ih ht (hmeets.2 t hstep)
    refine ⟨u, ?_, hu, ?_⟩
    · rw [run, hstep]
      exact hrun
    · intro hno
      exact (hrest fun y hy => hno y (List.mem_cons_of_mem x hy)).trans (hgain (hno x List.mem_cons_self))

theorem meets_append {xs ys : List Step} (h : Meets config s (xs ++ ys)) :
    Meets config s xs ∧ ∀ t, run config s xs = some t → Meets config t ys := by
  induction xs generalizing s with
  | nil =>
    refine ⟨trivial, ?_⟩
    intro t ht
    obtain rfl := Option.some.inj ht
    exact h
  | cons x xs ih =>
    constructor
    · exact ⟨h.1, fun t ht => (ih (h.2 t ht)).1⟩
    · intro t ht
      obtain ⟨u, hu, hrun⟩ := Option.bind_eq_some_iff.mp ht
      exact (ih (h.2 u hu)).2 t hrun

theorem start_inv (hconfig : 1 ≤ (m5000Gain config).1 ∧ (m5000Gain config).1 ≤ 1000) (jim : Nat → UInt8)
    (jimRamSize : UInt8) (m5000 m3000 : Synth) (beebMuted : Bool) (card : Card) :
    ∃ t, m5000EmulatorInit config beebMuted card (boot jim jimRamSize m5000 m3000) = some t ∧ Inv t := by
  have hzero : Within 1023 0 := by decide
  exact init_inv hconfig beebMuted card nofun nofun nofun hzero hzero nofun rfl

end

/-- In every run whose recorded samples fit, nothing fails, what is stored is saturated and inside the record area, the
files have their header, and the gain never grows: for all contents of JIM RAM, all that the synthesisers' memory
held, stereo or mono, and every gain up to 1000, adaptive or not. -/
theorem music5000_lawful (config : Option Int) (hconfig : 1 ≤ (m5000Gain config).1 ∧ (m5000Gain config).1 ≤ 1000)
    (jim : Nat → UInt8) (jimRamSize : UInt8) (m5000 m3000 : Synth) (beebMuted : Bool) (card : Card)
    (steps : List Step)
    (hmeets : Meets config (boot jim jimRamSize m5000 m3000) (.init beebMuted card :: steps)) :
    Lawful config (boot jim jimRamSize m5000 m3000) (.init beebMuted card :: steps) := by
  obtain ⟨s, hinit, hs⟩ := start_inv hconfig jim jimRamSize m5000 m3000 beebMuted card
  constructor
  · obtain ⟨t, hrun, ht, -⟩ := run_inv hconfig hs (hmeets.2 s hinit)
    refine ⟨t, ?_, ht.sound⟩
    rw [run, step, hinit]
    exact hrun
  · intro xs ys hsteps hno t u ht hu
    cases xs with
    | nil =>
      rw [List.nil_append] at hsteps
      have hfirst := hno (.init beebMuted card) (hsteps ▸ List.mem_cons_self)
      cases hfirst
    | cons x xs =>
      rw [List.cons_append] at hsteps
      obtain ⟨rfl, rfl⟩ := List.cons.inj hsteps
      obtain ⟨s', hs', hrun⟩ := Option.bind_eq_some_iff.mp ht
      obtain rfl := Option.some.inj (hinit.symm.trans hs')
      obtain ⟨hmeetsXs, hmeetsYs⟩ := meets_append (hmeets.2 s hinit)
      obtain ⟨t', hrun', ht', -⟩ := run_inv hconfig hs hmeetsXs
      obtain rfl := Option.some.inj (hrun.symm.trans hrun')
      obtain ⟨u', hrunYs, -, hgain⟩ := run_inv hconfig ht' (hmeetsYs t hrun)
      obtain rfl := Option.some.inj (hu.symm.trans hrunYs)
      exact hgain hno

/-! ### A loud chord -/

def loudJim (a : Nat) : UInt8 :=
  if a % 0x1000 < I_WFTOP then 0x7F
  else
    match (a / 0x10) % 8 with
    | 0 => 0xFE
    | 1 => 0xFF
    | 2 => 0xFF
    | 6 => 0x80
    | 7 => 0x08
    | _ => 0

def readySynth : Synth where
  phaseRAM := fun _ => 2
  sleft := 0
  sright := 0
  amplitude := fun _ => 0
  ram := 0
  modulate := 0

def readyCard : Card := { writeProtected := false, opens := true }

def loudSteps : List Step := [.init true readyCard, .beeb loudJim 1, .control readyCard, .sample readyCard]

/-- With a gain of 1 the loudest chord is recorded as it is. -/
theorem quiet_chord_lawful : Lawful (some 1) (boot loudJim 3 readySynth readySynth) loudSteps :=
  music5000_lawful (some 1) (by decide) loudJim 3 readySynth readySynth true readyCard _
    (by decide +kernel)

/-- With a gain of 4, halved to 2, the loudest positive sum is recorded as a negative value. -/
theorem loud_chord_wraps : ¬∀ (config : Option Int) (jim : Nat → UInt8) (jimRamSize : UInt8) (m5000 m3000 : Synth)
    (beebMuted : Bool) (card : Card) (steps : List Step),
    1 ≤ (m5000Gain config).1 ∧ (m5000Gain config).1 ≤ 1000 →
    Lawful config (boot jim jimRamSize m5000 m3000) (.init beebMuted card :: steps) := by
  intro hclaim
  obtain ⟨t, hrun, ht⟩ := (hclaim (some 4) loudJim 3 readySynth readySynth true readyCard
    [.beeb loudJim 1, .control readyCard, .sample readyCard] (by decide)).sound
  have hkept : (run (some 4) (boot loudJim 3 readySynth readySynth) loudSteps).map State.kept =
      some [⟨1541952, 2, 36139⟩, ⟨0, 2, 0⟩] := by decide +kernel
  have hkeptRun := congrArg (Option.map State.kept) hrun
  rw [show Step.init true readyCard :: [.beeb loudJim 1, .control readyCard, .sample readyCard] = loudSteps from rfl,
    hkept] at hkeptRun
  have hkeptState : [⟨1541952, 2, 36139⟩, ⟨0, 2, 0⟩] = t.kept := Option.some.inj hkeptRun
  have hsaturated := ht.kept ⟨1541952, 2, 36139⟩ (hkeptState ▸ List.mem_cons_self)
  exact absurd (hsaturated.positive (by decide)) (by decide)

end Pi1MHz.M5000
