import Pi1MHz.SdioEvents
import Pi1MHz.WrapClock

/-!
# The link gate of a secured network

`sdio_runtime_link_is_up` holds the link down until the keys are installed or three seconds have passed.
It reads flags that received events set, and the stamp of the grace, which a rejoin leaves alone; and the
last stage of a join may raise the link for an event that was received before it.
-/

namespace Pi1MHz.SdioLink

open History (final history)

def Runtime.upHeard (s : Runtime) : Bool := (s.received.drop s.joined).any Received.up

def Runtime.keysHeard (s : Runtime) : Bool := (s.received.drop s.joined).any Received.keyed

/-- The link may be announced: it came up in this join, and the keys are installed or the grace is over. -/
structure Earned (s : Runtime) : Prop where
  up : s.upHeard = true
  keyed : s.keysHeard = true ∨ s.upSince + SDIO_PSK_KEYED_GRACE_US.toNat ≤ s.clock

def Honest (st : History.Step Runtime Event) : Prop :=
  match st.op with
  | .query restUs => (sdioRuntimeLinkIsUp true restUs st.pre).1 = true → Earned st.post
  | _ => True

instance (s : Runtime) : Decidable (Earned s) :=
  decidable_of_iff (s.upHeard = true ∧
    (s.keysHeard = true ∨ s.upSince + SDIO_PSK_KEYED_GRACE_US.toNat ≤ s.clock))
    ⟨fun h => ⟨h.1, h.2⟩, fun h => ⟨h.up, h.keyed⟩⟩

instance (st : History.Step Runtime Event) : Decidable (Honest st) := by
  unfold Honest
  cases st.op <;> infer_instance

def Clean (s : Runtime) : Event → Prop
  | .tick a =>
    (s.stage = .queryMac → a.result ≠ .waiting →
      (drainFrames SDIO_RUNTIME_MAX_RX_FRAMES_PER_POLL a.frames s).linkUp = false ∧
        (drainFrames SDIO_RUNTIME_MAX_RX_FRAMES_PER_POLL a.frames s).pskKeyed = false) ∧
    (s.stage = .sweepRx →
      let swept := sdioProbeSweepRxFrames a.sweepLimit a.sweep s
      sdioEventIsLinkUp swept.brcmEventType swept.brcmEventStatus swept.brcmEventReason = true →
        swept.upHeard = true)
  | .query restUs => s.started = true → s.linkUp = true → s.pskKeyed = false → s.linkUpUs ≠ 0 →
      s.stampedAt.isSome = true ∨
        UInt32.ofNat (s.clock + restUs) - s.linkUpUs < SDIO_PSK_KEYED_GRACE_US
  | _ => True

instance (s : Runtime) (e : Event) : Decidable (Clean s e) := by
  unfold Clean
  cases e <;> infer_instance

/-! ### The invariant -/

structure Inv (s : Runtime) : Prop where
  joined : s.joined ≤ s.received.length
  up : s.linkUp = true → s.upHeard = true
  keyed : s.pskKeyed = true → s.keysHeard = true
  since : s.upSince ≤ s.clock
  stamp : ∀ t, s.stampedAt = some t → s.linkUpUs = 0 ∨
    (s.linkUp = true ∧ s.upSince ≤ t ∧ t ≤ s.clock ∧ s.linkUpUs = UInt32.ofNat t)

variable {s : Runtime}

theorem any_drop_snoc {p : Received → Bool} {received : List Received} {joined : Nat} {r : Received}
    (hle : joined ≤ received.length) :
    ((received ++ [r]).drop joined).any p = ((received.drop joined).any p || p r) := by
  rw [List.drop_append_of_le_length hle, List.any_append]
  simp

theorem Inv.noteBrcm (hi : Inv s) (e : BrcmEvent) : Inv (noteBrcm e s) := by
  constructor
  · exact Nat.le_trans hi.joined (by simp [SdioLink.noteBrcm])
  · unfold Runtime.upHeard SdioLink.noteBrcm
    simp only
    rw [any_drop_snoc hi.joined]
    intro hup
    have hup := Bool.and_eq_true_iff.mp hup
    rcases Bool.or_eq_true_iff.mp hup.1 with hold | hnew
    · exact Bool.or_eq_true_iff.mpr (.inl (hi.up hold))
    · exact Bool.or_eq_true_iff.mpr (.inr (Bool.and_eq_true_iff.mpr ⟨hnew, hup.2⟩))
  · unfold Runtime.keysHeard SdioLink.noteBrcm
    simp only
    rw [any_drop_snoc hi.joined]
    intro hkeyed
    rcases Bool.or_eq_true_iff.mp (Bool.and_eq_true_iff.mp hkeyed).1 with hold | hnew
    · exact Bool.or_eq_true_iff.mpr (.inl (hi.keyed hold))
    · exact Bool.or_eq_true_iff.mpr (.inr hnew)
  · unfold SdioLink.noteBrcm
    simp only
    split
    · exact Nat.le_refl _
    · exact hi.since
  · intro t ht
    unfold SdioLink.noteBrcm
    simp only
    split
    · exact .inl rfl
    · rename_i hdown
      rcases hi.stamp t ht with hzero | ⟨hup, hsince, hclock, hstamp⟩
      · exact .inl hzero
      · rw [hup, Bool.eq_false_iff.mpr hdown]
        refine .inr ⟨rfl, ?_, hclock, hstamp⟩
        rw [if_neg (by simp)]
        exact hsince

theorem Inv.rememberEvent (hi : Inv s) (e : BrcmEvent) : Inv (rememberEvent e s) where
  joined := Nat.le_trans hi.joined (by simp [SdioLink.rememberEvent])
  up hup := by
    unfold Runtime.upHeard SdioLink.rememberEvent
    simp only
    rw [any_drop_snoc hi.joined]
    exact Bool.or_eq_true_iff.mpr (.inl (hi.up hup))
  keyed hkeyed := by
    unfold Runtime.keysHeard SdioLink.rememberEvent
    simp only
    rw [any_drop_snoc hi.joined]
    exact Bool.or_eq_true_iff.mpr (.inl (hi.keyed hkeyed))
  since := hi.since
  stamp := hi.stamp

/-! ### Frames -/

theorem inv_noteEvent (hi : Inv s) (b : Bytes) (total off : Nat) : Inv (sdioRuntimeNoteEvent b total off s) := by
  unfold sdioRuntimeNoteEvent
  split_ifs
  · exact hi
  · exact hi
  · exact hi.noteBrcm _

theorem inv_noteChannelEvent (hi : Inv s) (b : Bytes) (total : Nat) : Inv (noteChannelEvent b total s) := by
  unfold noteChannelEvent sdioRuntimeNoteEventBare
  simp only
  split_ifs
  · exact inv_noteEvent hi _ _ _
  · exact hi
  · exact hi
  · exact hi.noteBrcm _
  · exact hi

theorem inv_read (hi : Inv s) (capacity : Nat) (f : Frame) : Inv (completeReadEthernetFrame capacity f s).2 := by
  unfold completeReadEthernetFrame
  split
  · exact hi
  · cases f.body with
    | none => exact hi
    | some b =>
      simp only
      split_ifs
      · exact hi
      · exact inv_noteChannelEvent hi _ _
      · exact hi
      · exact hi
      · exact inv_noteEvent hi _ _ _
      · exact hi
      · exact hi
      · exact hi

theorem inv_drain (n : Nat) (frames : List Frame) (hi : Inv s) : Inv (drainFrames n frames s) := by
  induction n generalizing frames s with
  | zero =>
    unfold drainFrames
    exact hi
  | succ n ih =>
    cases frames with
    | nil => exact hi
    | cons f rest => exact ih rest (inv_read hi _ f)

theorem inv_poll (capacity n : Nat) (frames : List Frame) (hi : Inv s) :
    Inv (pollFrames capacity n frames s).2 := by
  induction n generalizing frames s with
  | zero =>
    unfold pollFrames
    exact hi
  | succ n ih =>
    cases frames with
    | nil => exact hi
    | cons f rest =>
      have hread := inv_read hi capacity f
      unfold pollFrames
      rcases hone : completeReadEthernetFrame capacity f s with ⟨out, after⟩
      rw [hone] at hread
      cases out with
      | none => exact ih rest hread
      | some => exact hread

theorem inv_sweep (n : Nat) (frames : List SweepFrame) (hi : Inv s) :
    Inv (sdioProbeSweepRxFrames n frames s) := by
  induction n generalizing frames s with
  | zero =>
    unfold sdioProbeSweepRxFrames
    exact hi
  | succ n ih =>
    cases frames with
    | nil => exact hi
    | cons f rest =>
      have hframe : Inv (sdioProbeReadFrameHeader f s) := by
        unfold sdioProbeReadFrameHeader
        cases f.event with
        | none => exact hi
        | some e => exact hi.rememberEvent e
      unfold sdioProbeSweepRxFrames
      split
      · exact hframe
      · exact ih rest hframe

/-! ### Stages -/

theorem Inv.beginJoin (hi : Inv s) (hup : s.linkUp = false) (hkeyed : s.pskKeyed = false) :
    Inv s.beginJoin where
  joined := Nat.le_refl _
  up h := by
    change s.linkUp = true at h
    rw [hup] at h
    cases h
  keyed h := by
    change s.pskKeyed = true at h
    rw [hkeyed] at h
    cases h
  since := hi.since
  stamp _ h := by cases h

theorem Inv.enterStage (hi : Inv s) {stage : Stage} {started emulator : Bool} :
    Inv { s with stage := stage, started := started, emulatorMode := emulator } :=
  { hi with }

theorem inv_start (opened : Bool) (s : Runtime) : Inv (sdioRuntimeStart opened s) where
  joined := Nat.le_refl _
  up h := by cases h
  keyed h := by cases h
  since := Nat.zero_le _
  stamp _ h := by cases h

theorem inv_rejoin (commands : Bool) (hi : Inv s) : Inv (sdioRuntimeRejoinStart commands s).2 := by
  unfold sdioRuntimeRejoinStart
  split
  · exact hi
  · exact ⟨Nat.le_refl _, nofun, nofun, hi.since, nofun⟩

theorem inv_enter {stage : Stage} (hi : Inv s)
    (hclean : stage = .join → s.linkUp = false ∧ s.pskKeyed = false) : Inv (s.enter stage) := by
  unfold Runtime.enter
  split
  · rename_i hjoin
    obtain ⟨hup, hkeyed⟩ := hclean hjoin
    exact (hi.beginJoin hup hkeyed).enterStage
  · exact hi.enterStage

theorem inv_sweepStage (a : TickAnswer) (hi : Inv s)
    (hclean : sdioEventIsLinkUp (sdioProbeSweepRxFrames a.sweepLimit a.sweep s).brcmEventType
        (sdioProbeSweepRxFrames a.sweepLimit a.sweep s).brcmEventStatus
        (sdioProbeSweepRxFrames a.sweepLimit a.sweep s).brcmEventReason = true →
      (sdioProbeSweepRxFrames a.sweepLimit a.sweep s).upHeard = true) : Inv (sweepStage a s) := by
  have hswept := inv_sweep a.sweepLimit a.sweep hi
  unfold sweepStage
  generalize sdioProbeSweepRxFrames a.sweepLimit a.sweep s = swept at hclean hswept ⊢
  simp only
  constructor
  · exact hswept.joined
  · intro hup
    rcases Bool.or_eq_true_iff.mp hup with hold | hnew
    · exact hswept.up hold
    · exact hclean hnew
  · exact hswept.keyed
  · simp only
    split
    · exact Nat.le_refl _
    · exact hswept.since
  · intro t ht
    rcases hswept.stamp t ht with hzero | ⟨hup, hsince, hrest⟩
    · exact .inl hzero
    · simp only
      rw [hup, if_neg (by simp)]
      exact .inr ⟨rfl, hsince, hrest⟩

theorem inv_commandStage (a : TickAnswer) (hi : Inv s)
    (hclean : s.stage.next = .join → a.result ≠ .waiting →
      (drainFrames SDIO_RUNTIME_MAX_RX_FRAMES_PER_POLL a.frames s).linkUp = false ∧
        (drainFrames SDIO_RUNTIME_MAX_RX_FRAMES_PER_POLL a.frames s).pskKeyed = false) :
    Inv (commandStage a s).2 := by
  have hdrained := inv_drain SDIO_RUNTIME_MAX_RX_FRAMES_PER_POLL a.frames hi
  unfold commandStage
  simp only
  split
  · exact hdrained
  · rename_i hwaiting
    exact inv_enter hdrained fun hnext => hclean hnext hwaiting

theorem inv_bringUpStage (a : TickAnswer) (hi : Inv s) : Inv (bringUpStage a s).2 := by
  unfold bringUpStage
  cases a.result with
  | failed => exact hi.enterStage
  | waiting => exact hi.enterStage
  | advanced => exact hi.enterStage

theorem inv_tick (a : TickAnswer) (hi : Inv s) (hclean : Clean s (.tick a)) : Inv (sdioRuntimeTick a s).2 := by
  obtain ⟨hjoin, hsweep⟩ := hclean
  have hnext : s.stage.next = .join → s.stage = .queryMac := by
    cases s.stage <;> decide
  have hcommands := inv_commandStage a hi fun h => hjoin (hnext h)
  have hbringUp := inv_bringUpStage a hi
  unfold sdioRuntimeTick
  cases hstage : s.stage with
  | idle => exact hi
  | done => exact hi
  | error => exact hi
  | prepareJoin =>
    simp only
    split
    · exact hi.enterStage
    · exact inv_enter hi fun hno => absurd hno (by decide : Stage.clmDownload ≠ .join)
  | clmDownload => exact hcommands
  | setMac => exact hcommands
  | queryMac => exact hcommands
  | join => exact hcommands
  | sweepRx => exact inv_sweepStage a hi (hsweep hstage)
  | _ => exact hbringUp

/-! ### The gate -/

theorem grace_over {start time : Nat} (hle : start ≤ time)
    (hgrace : ¬UInt32.ofNat time - UInt32.ofNat start < SDIO_PSK_KEYED_GRACE_US) :
    start + SDIO_PSK_KEYED_GRACE_US.toNat ≤ time := by
  have hage := WrapClock.age_eq hle
  have hlong : SDIO_PSK_KEYED_GRACE_US.toNat ≤ (UInt32.ofNat time - UInt32.ofNat start).toNat :=
    UInt32.le_iff_toNat_le.mp (UInt32.not_lt.mp hgrace)
  rw [hage] at hlong
  have hmod := Nat.mod_le (time - start) (2 ^ 32)
  omega

theorem query_spec (restUs : Nat) (hi : Inv s) (hclean : Clean s (.query restUs)) :
    Inv (sdioRuntimeLinkIsUp true restUs s).2 ∧
      ((sdioRuntimeLinkIsUp true restUs s).1 = true → Earned (sdioRuntimeLinkIsUp true restUs s).2) := by
  unfold sdioRuntimeLinkIsUp
  by_cases hdown : s.started = false ∨ s.linkUp = false
  · rw [if_pos hdown]
    exact ⟨hi, nofun⟩
  rw [if_neg hdown]
  rw [not_or, Bool.not_eq_false, Bool.not_eq_false] at hdown
  obtain ⟨hstarted, hup⟩ := hdown
  by_cases hgate : true = true ∧ s.pskKeyed = false
  · rw [if_pos hgate]
    have hafter : ∀ (stampUs : UInt32) (t : Nat), s.upSince ≤ t → t ≤ s.clock → stampUs = UInt32.ofNat t →
        ∀ stamped : Option Nat, (∀ t', stamped = some t' → t' = t) →
        Inv { s with linkUpUs := stampUs, stampedAt := stamped, clock := s.clock + restUs } ∧
          ((!decide (UInt32.ofNat (s.clock + restUs) - stampUs < SDIO_PSK_KEYED_GRACE_US)) = true →
            Earned { s with linkUpUs := stampUs, stampedAt := stamped, clock := s.clock + restUs }) := by
      rintro stampUs t hsince hclock rfl stamped hstamped
      refine ⟨⟨hi.joined, hi.up, hi.keyed, Nat.le_add_right_of_le hi.since, ?_⟩, ?_⟩
      · intro t' ht'
        rw [hstamped t' ht']
        exact .inr ⟨hup, hsince, Nat.le_add_right_of_le hclock, rfl⟩
      · intro hanswer
        rw [Bool.not_eq_true', decide_eq_false_iff_not] at hanswer
        have hover := grace_over (Nat.le_add_right_of_le hclock) hanswer
        exact ⟨hi.up hup, .inr (Nat.le_trans (Nat.add_le_add_right hsince _) hover)⟩
    by_cases hzero : s.linkUpUs = 0
    · simp only
      rw [if_pos hzero]
      exact hafter s.systemTime s.clock hi.since (Nat.le_refl _) rfl (some s.clock)
        fun t' ht' => (Option.some.inj ht').symm
    · simp only
      rw [if_neg hzero]
      cases hstamp : s.stampedAt with
      | some t =>
        rcases hi.stamp t hstamp with hno | ⟨-, hsince, hclock, hvalue⟩
        · exact absurd hno hzero
        · exact hafter s.linkUpUs t hsince hclock hvalue (some t) fun t' ht' => (Option.some.inj ht').symm
      | none =>
        refine ⟨⟨hi.joined, hi.up, hi.keyed, Nat.le_add_right_of_le hi.since, ?_⟩, ?_⟩
        · intro t' ht'
          cases ht'
        · intro hanswer
          rw [Bool.not_eq_true', decide_eq_false_iff_not] at hanswer
          rcases hclean hstarted hup hgate.2 hzero with hsome | hearly
          · rw [hstamp] at hsome
            cases hsome
          · exact absurd hearly hanswer
  · rw [if_neg hgate]
    have hkeyed : s.pskKeyed = true := by
      cases hpsk : s.pskKeyed with
      | true => rfl
      | false => exact absurd ⟨rfl, hpsk⟩ hgate
    exact ⟨hi, fun _ => ⟨hi.up hup, .inl (hi.keyed hkeyed)⟩⟩

theorem inv_step (event : Event) (hi : Inv s) (hclean : Clean s event) : Inv (step true s event) := by
  cases event with
  | wait us =>
    refine ⟨hi.joined, hi.up, hi.keyed, Nat.le_add_right_of_le hi.since, ?_⟩
    intro t ht
    rcases hi.stamp t ht with hzero | ⟨hup, hsince, hclock, hvalue⟩
    · exact .inl hzero
    · exact .inr ⟨hup, hsince, Nat.le_add_right_of_le hclock, hvalue⟩
  | start opened => exact inv_start opened s
  | rejoin commands => exact inv_rejoin commands hi
  | tick a => exact inv_tick a hi hclean
  | poll capacity frames =>
    change Inv (sdioRuntimePollEthernetFrame capacity frames s).2
    unfold sdioRuntimePollEthernetFrame
    split
    · exact hi
    · exact inv_poll _ _ _ hi
  | query restUs => exact (query_spec restUs hi hclean).1

/-- In a run in which nothing is left over from before the join where a step looks at it, the link of a
secured network is announced only where that is earned. -/
theorem link_gate (events : List Event) (hclean : ∀ st ∈ history (step true) {} events, Clean st.pre st.op) :
    ∀ st ∈ history (step true) {} events, Honest st := by
  have hstart : Inv {} := ⟨Nat.le_refl _, nofun, nofun, Nat.le_refl _, nofun⟩
  obtain ⟨-, hall⟩ := History.guarded_induction (step true) Inv Clean hstart
    (fun _ event hi hop => inv_step event hi hop) events hclean
  intro st hst
  obtain ⟨hpre, hpost⟩ := hall st hst
  have hop := hclean st hst
  unfold Honest
  rcases st with ⟨pre, op, post⟩
  cases op with
  | query restUs =>
    simp only at hpre hpost hop ⊢
    rw [hpost]
    exact (query_spec restUs hpre hop).2
  | _ => trivial

def eventFrame (type status : UInt8) : Bytes
  | 5 => 1
  | 7 => 14
  | 30 => 0x88
  | 31 => 0x6c
  | 38 => 0x10
  | 39 => 0x18
  | 45 => 1
  | 49 => type
  | 53 => status
  | _ => 0

def associated : List Event :=
  bringUp ++ [.wait 1000, received90 (eventFrame 16 0), .query 0, received90 (eventFrame 46 6), .query 0]

def rejoined : List Event :=
  associated ++ [.start true] ++ bringUp.tail ++ [.wait 5000, received90 (eventFrame 16 0), .query 0,
    .wait 3000000, .query 0, .rejoin true, .tick ⟨.advanced, false, true, [], [], 4⟩, .query 0]

theorem link_gate_restarted :
    (∃ st ∈ history (step true) {} rejoined, (sdioRuntimeLinkIsUp true 0 st.pre).1 = true) ∧
      ∀ st ∈ history (step true) {} rejoined, Honest st :=
  ⟨by decide +kernel, link_gate rejoined (by decide +kernel)⟩

/-- After a rejoin the stamp of the association before is ten seconds old, and the link is announced as soon
as it is associated, before the keys. -/
theorem stamp_outlives_rejoin :
    ¬∀ st ∈ history (step true) {} (associated ++ [.wait 10000000, .rejoin true,
        .tick ⟨.advanced, false, true, [], [], 4⟩, .tick ⟨.advanced, false, true, [], [], 4⟩,
        received90 (eventFrame 16 0), .query 0]), Honest st := by
  decide +kernel

end Pi1MHz.SdioLink
