import Mathlib.Tactic.IntervalCases
import Pi1MHz.ScsiTarget

/-!
# BeebSCSI: how a command ends

A handler writes data, uses the state of its own LUN and may set the sense data of it; then it ends
in the status phase, or, where it has found the reset line active, on a free bus.
-/

namespace Pi1MHz.ScsiTarget

open StateRules

variable {σ α : Type}

/-! ### What happens on the way -/

def Phase.isData : Phase → Bool
  | .dataOut | .dataIn | .command => true
  | .status | .messageOut | .messageIn => false

def senseCode (v : UInt32) : UInt8 := (v >>> 24).toUInt8

def Event.Quiet (lun : UInt8) : Event → Prop
  | .wrote p _ => p.isData = true
  | .lun i => i = lun ∨ i.toNat < MAX_LUNS
  | .sense i v => i = lun ∧ senseCode v ≠ 0
  | .free | .rst | .reset => False

def applySense (r : UInt8 → UInt32) : Event → UInt8 → UInt32
  | .sense i v => fun j => if j = i then v else r j
  | .reset => fun _ => NO_ERROR
  | .wrote .. | .free | .rst | .lun _ => r

structure Frame (t t' : Target σ) : Prop where
  lun : t'.targetLUN = t.targetLUN
  past : t'.past = t.past
  current : t'.current = t.current
  polls : t'.polls = t.polls
  freeState : t'.freeState = t.freeState

theorem Frame.refl (t : Target σ) : Frame t t := ⟨rfl, rfl, rfl, rfl, rfl⟩

theorem Frame.trans {t t' t'' : Target σ} (h : Frame t t') (h' : Frame t' t'') : Frame t t'' where
  lun := h'.lun.trans h.lun
  past := h'.past.trans h.past
  current := h'.current.trans h.current
  polls := h'.polls.trans h.polls
  freeState := h'.freeState.trans h.freeState

structure Added (t t' : Target σ) (evs : List Event) : Prop where
  events : t'.events = t.events ++ evs
  sense : t'.requestSenseData = evs.foldl applySense t.requestSenseData

theorem Added.trans {t t' t'' : Target σ} {l l' : List Event} (h : Added t t' l) (h' : Added t' t'' l') :
    Added t t'' (l ++ l') where
  events := by rw [h'.events, h.events, List.append_assoc]
  sense := by rw [h'.sense, h.sense, List.foldl_append]

structure QuietTo (t t' : Target σ) : Prop where
  frame : Frame t t'
  status : t'.status = t.status
  phase : t'.phase.isData = true
  added : ∃ evs, Added t t' evs ∧ ∀ e ∈ evs, e.Quiet t.targetLUN

def Quiet (t t' : Target σ) : Prop := t.phase.isData = true → QuietTo t t'

instance : IsPreorder (Target σ) Quiet where
  refl t h := ⟨Frame.refl t, rfl, h, [], ⟨(List.append_nil _).symm, rfl⟩, nofun⟩
  trans t t' t'' h h' hp := by
    obtain ⟨hf, hs, hp', l, hl, hq⟩ := h hp
    obtain ⟨hf', hs', hp'', l', hl', hq'⟩ := h' hp'
    refine ⟨hf.trans hf', hs'.trans hs, hp'', l ++ l', hl.trans hl', ?_⟩
    intro e he
    rcases List.mem_append.mp he with he | he
    · exact hq e he
    · rw [← hf.lun]
      exact hq' e he

theorem quiet_note {t : Target σ} {e : Event} (he : t.phase.isData = true → e.Quiet t.targetLUN)
    (hs : ∀ i v, e ≠ .sense i v) : Quiet t { t with events := t.events ++ [e] } := by
  intro hp
  refine ⟨⟨rfl, rfl, rfl, rfl, rfl⟩, rfl, hp, [e], ⟨rfl, ?_⟩, ?_⟩
  · have hq := he hp
    cases e with
    | sense i v => exact absurd rfl (hs i v)
    | reset => exact hq.elim
    | wrote p b => rfl
    | free => rfl
    | rst => rfl
    | lun i => rfl
  · intro e' he'
    rw [List.mem_singleton.mp he']
    exact he hp

theorem quiet_same {t t' : Target σ} (hf : Frame t t') (hst : t'.status = t.status)
    (hp : t.phase.isData = true → t'.phase.isData = true) (he : t'.events = t.events)
    (hs : t'.requestSenseData = t.requestSenseData) : Quiet t t' := by
  intro h
  refine ⟨hf, hst, hp h, [], ⟨?_, hs⟩, nofun⟩
  rw [he, List.append_nil]

/-! ### The host adapter -/

theorem keeps_get : Keeps Quiet (get : Action σ (Target σ)) := ⟨fun t => refl_of Quiet t⟩

theorem keeps_phase {p : Phase} (hp : p.isData = true) :
    Keeps Quiet (scsiInformationTransferPhase p : Action σ Unit) :=
  ⟨fun _ => quiet_same ⟨rfl, rfl, rfl, rfl, rfl⟩ rfl (fun _ => hp) rfl rfl⟩

theorem keeps_waitAck : Keeps Quiet (waitAck : Action σ (Option UInt8)) := by
  constructor
  intro t
  unfold waitAck
  split
  · exact quiet_same ⟨rfl, rfl, rfl, rfl, rfl⟩ rfl id rfl rfl
  · exact refl_of Quiet t

theorem keeps_readByte : Keeps Quiet (hostadapterReadByte : Action σ UInt8) :=
  Keeps.bind keeps_waitAck fun _ => Keeps.bind keeps_get fun _ => Keeps.pure _

theorem keeps_readBytes (n : Nat) : Keeps Quiet (hostadapterReadBytes n : Action σ (List UInt8)) := by
  induction n with
  | zero => exact Keeps.pure _
  | succ n ih =>
    apply Keeps.bind keeps_readByte
    intro b
    exact Keeps.bind ih fun _ => Keeps.pure _

theorem keeps_putByte (b : UInt8) : Keeps Quiet (putByte b : Action σ Unit) :=
  ⟨fun _ => quiet_note id (fun _ _ => nofun)⟩

theorem keeps_writeByte (b : UInt8) : Keeps Quiet (hostadapterWriteByte b : Action σ Unit) :=
  Keeps.bind (keeps_putByte b) fun _ => Keeps.bind keeps_waitAck fun _ => Keeps.pure _

theorem keeps_writeBytes (l : List UInt8) : Keeps Quiet (hostadapterWriteBytes l : Action σ Unit) :=
  Keeps.forM fun b _ => keeps_writeByte b

theorem keeps_readDMA (l : List UInt8) : Keeps Quiet (hostadapterPerformReadDMA l : Action σ Unit) := by
  induction l with
  | nil => exact Keeps.pure _
  | cons b l ih =>
    apply Keeps.bind (keeps_putByte b)
    intro _
    apply Keeps.bind keeps_waitAck
    intro a
    cases a with
    | some _ => exact ih
    | none => exact Keeps.pure _

theorem keeps_writeDMA (n : Nat) : Keeps Quiet (hostadapterPerformWriteDMA n : Action σ (List UInt8)) := by
  induction n with
  | zero => exact Keeps.pure _
  | succ n ih =>
    apply Keeps.bind keeps_waitAck
    intro a
    cases a with
    | some b => exact Keeps.bind ih fun _ => Keeps.pure _
    | none => exact Keeps.pure _

theorem keeps_note {i : UInt8} (hi : i.toNat < MAX_LUNS) : Keeps Quiet (note (.lun i) : Action σ Unit) :=
  ⟨fun _ => quiet_note (fun _ => Or.inr hi) (fun _ _ => nofun)⟩

theorem keeps_useLun : Keeps Quiet (useLun : Action σ Unit) :=
  ⟨fun _ => quiet_note (fun _ => Or.inl rfl) (fun _ _ => nofun)⟩

theorem keeps_fs (f : σ → σ) : Keeps Quiet (changeFs f) :=
  ⟨fun _ => quiet_same ⟨rfl, rfl, rfl, rfl, rfl⟩ rfl id rfl rfl⟩

theorem keeps_tryFs (f : σ → α × σ) : Keeps Quiet (tryFs f) :=
  ⟨fun _ => quiet_same ⟨rfl, rfl, rfl, rfl, rfl⟩ rfl id rfl rfl⟩

theorem keeps_askLun (f : σ → UInt8 → α) : Keeps Quiet (askLun f) :=
  Keeps.bind keeps_useLun fun _ => Keeps.bind keeps_get fun _ => Keeps.pure _

theorem keeps_changeLun (f : σ → UInt8 → σ) : Keeps Quiet (changeLun f) := by
  apply Keeps.bind keeps_useLun
  intro _
  constructor
  intro t
  exact quiet_same ⟨rfl, rfl, rfl, rfl, rfl⟩ rfl id rfl rfl

theorem keeps_tryLun (f : σ → UInt8 → α × σ) : Keeps Quiet (tryLun f) := by
  apply Keeps.bind keeps_useLun
  intro _
  constructor
  intro t
  exact quiet_same ⟨rfl, rfl, rfl, rfl, rfl⟩ rfl id rfl rfl

/-! ### Exits -/

inductive Outcome (lun : UInt8) (status : UInt8) : ScsiState → List Event → Prop
  | ok (evs : List Event) (hq : ∀ e ∈ evs, e.Quiet lun) (hs : status = SCSI_STATUS_OK) :
      Outcome lun status .status evs
  | check (evs : List Event) (hq : ∀ e ∈ evs, e.Quiet lun) (hv : ∃ v, Event.sense lun v ∈ evs)
      (hs : status = SCSI_STATUS_CHECK_COND) : Outcome lun status .status evs
  | cut (before after : List Event) (hq : ∀ e ∈ before, e.Quiet lun) (hq' : ∀ e ∈ after, e.Quiet lun) :
      Outcome lun status .busFree (before ++ Event.rst :: after)

structure EndedTo (t : Target σ) (s : ScsiState) (t' : Target σ) : Prop where
  frame : Frame t t'
  added : ∃ evs, Added t t' evs ∧ Outcome t.targetLUN t'.status s evs

def Ended (t : Target σ) (s : ScsiState) (t' : Target σ) : Prop := t.phase.isData = true → EndedTo t s t'

theorem ends_good : Ends Quiet Ended (good : Action σ ScsiState) := by
  constructor
  intro t₀ t h hp
  obtain ⟨hf, -, -, l, hl, hq⟩ := h hp
  exact ⟨hf.trans ⟨rfl, rfl, rfl, rfl, rfl⟩, l, ⟨hl.events, hl.sense⟩, Outcome.ok l hq rfl⟩

theorem ends_fail {v : UInt32} {tidy : Action σ Unit} (hv : senseCode v ≠ 0) (ht : Keeps Quiet tidy) :
    Ends Quiet Ended (fail v tidy) := by
  constructor
  intro t₀ t h hp
  obtain ⟨hf, -, hphase, l, hl, hq⟩ := h hp
  -- the state in which it is tidied up
  let u : Target σ :=
    { t with status := SCSI_STATUS_CHECK_COND
             events := t.events ++ [.sense t.targetLUN v]
             requestSenseData := fun i => if i = t.targetLUN then v else t.requestSenseData i }
  have hfu : Frame t u := ⟨rfl, rfl, rfl, rfl, rfl⟩
  have hu : Added t u [.sense t.targetLUN v] := ⟨rfl, rfl⟩
  obtain ⟨hf', hst, -, l', hl', hq'⟩ := ht.run u hphase
  refine ⟨hf.trans (hfu.trans hf'), l ++ ([Event.sense t.targetLUN v] ++ l'), hl.trans (hu.trans hl'), ?_⟩
  apply Outcome.check
  · intro e he
    simp only [List.mem_append, List.mem_singleton] at he
    rcases he with he | rfl | he
    · exact hq e he
    · exact ⟨hf.lun, hv⟩
    · rw [← hf.lun]
      exact hq' e he
  · refine ⟨v, ?_⟩
    rw [← hf.lun]
    simp
  · exact hst

theorem unlessReset_run (tidy : Action σ Unit) (x : Action σ ScsiState) (t : Target σ) :
    (∃ u : Target σ, Quiet t u ∧ u.fs = t.fs ∧ unlessReset tidy x t = x u) ∨
      ∃ rst, t.rst = true :: rst ∧
        unlessReset tidy x t = (.busFree, (tidy { t with rst := rst, events := t.events ++ [.rst] }).2) := by
  cases hr : t.rst with
  | nil =>
    left
    refine ⟨t, refl_of Quiet t, rfl, ?_⟩
    simp only [unlessReset, bind, StateT.bind, hostadapterReadResetFlag, hr]
    rfl
  | cons b rst =>
    cases b with
    | false =>
      left
      refine ⟨{ t with rst := rst }, quiet_same ⟨rfl, rfl, rfl, rfl, rfl⟩ rfl id rfl rfl, rfl, ?_⟩
      simp only [unlessReset, bind, StateT.bind, hostadapterReadResetFlag, hr]
      rfl
    | true =>
      right
      refine ⟨rst, rfl, ?_⟩
      simp only [unlessReset, bind, StateT.bind, hostadapterReadResetFlag, hr]
      rfl

theorem ended_cut {tidy : Action σ Unit} (ht : Keeps Quiet tidy) {t₀ t : Target σ} (h : Quiet t₀ t)
    {rst : List Bool} :
    Ended t₀ .busFree (tidy { t with rst := rst, events := t.events ++ [.rst] }).2 := by
  intro hp
  let u : Target σ := { t with rst := rst, events := t.events ++ [.rst] }
  have hfu : Frame t u := ⟨rfl, rfl, rfl, rfl, rfl⟩
  have hu : Added t u [.rst] := ⟨rfl, rfl⟩
  obtain ⟨hf, -, hphase, l, hl, hq⟩ := h hp
  obtain ⟨hf', -, -, l', hl', hq'⟩ := ht.run u hphase
  refine ⟨hf.trans (hfu.trans hf'), l ++ ([.rst] ++ l'), hl.trans (hu.trans hl'), ?_⟩
  apply Outcome.cut l l' hq
  rw [← hf.lun]
  exact hq'

theorem ends_unlessReset {tidy : Action σ Unit} {x : Action σ ScsiState} (ht : Keeps Quiet tidy)
    (hx : Ends Quiet Ended x) : Ends Quiet Ended (unlessReset tidy x) := by
  constructor
  intro t₀ t h hp
  rcases unlessReset_run tidy x t with ⟨u, hu, -, hrun⟩ | ⟨rst, -, hrun⟩
  · rw [hrun]
    exact hx.run t₀ u (trans_of Quiet h hu) hp
  · rw [hrun]
    exact ended_cut ht h hp

/-! ### The handlers -/

variable (fs : FileSystem σ)

theorem keeps_nothing : Keeps Quiet (pure () : Action σ Unit) := Keeps.pure ()

theorem ends_ifStarted {v : UInt32} (hv : senseCode v ≠ 0) : Ends Quiet Ended (ifStarted fs v) :=
  Ends.bind (keeps_askLun _) fun _ => Ends.ite ends_good (ends_fail hv keeps_nothing)

theorem ends_autoStart {x : Action σ ScsiState} (hx : Ends Quiet Ended x) :
    Ends Quiet Ended (autoStart fs x) := by
  apply Ends.bind (keeps_askLun _)
  intro _
  apply Ends.ite hx
  apply Ends.bind (keeps_changeLun _)
  intro _
  apply Ends.bind (keeps_tryLun _)
  intro _
  exact Ends.ite hx (ends_fail (by decide) keeps_nothing)

theorem keeps_readDefectList (o : UInt8) : Keeps Quiet (readDefectList o : Action σ Unit) := by
  apply Keeps.ite
  · apply Keeps.bind (keeps_phase rfl)
    intro _
    apply Keeps.bind (keeps_readBytes 4)
    intro _
    exact Keeps.bind (keeps_readBytes _) fun _ => Keeps.pure _
  · exact Keeps.pure _

theorem ends_formatLun : Ends Quiet Ended (formatLun fs) := by
  apply Ends.bind keeps_get
  intro _
  apply Ends.bind (keeps_readDefectList _)
  intro _
  apply Ends.bind (keeps_tryLun _)
  intro _
  apply Ends.ite
  · exact Ends.bind (keeps_tryLun _) fun _ => ends_good
  · exact ends_fail (by decide) (keeps_changeLun _)

theorem ends_format : Ends Quiet Ended (scsiCommandFormat fs) := by
  apply Ends.bind (keeps_askLun _)
  intro _
  apply Ends.ite (ends_formatLun fs)
  apply Ends.bind (keeps_tryLun _)
  intro _
  exact Ends.ite (ends_formatLun fs) (ends_fail (by decide) (keeps_changeLun _))

theorem ends_reassignLoop (size n : Nat) : Ends Quiet Ended (reassignLoop size n : Action σ ScsiState) := by
  induction n with
  | zero => exact ends_good
  | succ n ih =>
    apply ends_unlessReset keeps_nothing
    exact Ends.bind (keeps_readBytes size) fun _ => ih

theorem ends_reassignBlocks : Ends Quiet Ended (scsiCommandReassignBlocks : Action σ ScsiState) := by
  apply Ends.bind keeps_get
  intro _
  apply Ends.bind (keeps_phase rfl)
  intro _
  apply Ends.bind (keeps_readBytes 4)
  intro _
  exact ends_reassignLoop _ _

theorem ends_readLoop (n : Nat) : Ends Quiet Ended (readLoop fs n) := by
  induction n with
  | zero => exact ends_good
  | succ n ih =>
    apply Ends.bind (keeps_tryLun _)
    intro sector
    cases sector with
    | none => exact ends_fail (by decide) (keeps_changeLun _)
    | some sector =>
      apply Ends.bind (keeps_readDMA sector)
      intro _
      exact ends_unlessReset (keeps_changeLun _) ih

theorem ends_read6 : Ends Quiet Ended (scsiCommandRead6 fs) := by
  apply ends_autoStart
  apply Ends.bind keeps_get
  intro _
  apply Ends.bind (keeps_phase rfl)
  intro _
  apply Ends.bind (keeps_tryLun _)
  intro _
  exact Ends.ite (ends_readLoop fs _) (ends_fail (by decide) (keeps_changeLun _))

theorem ends_writeLoop (n : Nat) : Ends Quiet Ended (writeLoop fs n) := by
  induction n with
  | zero => exact ends_good
  | succ n ih =>
    apply Ends.bind (keeps_writeDMA 256)
    intro _
    apply ends_unlessReset (keeps_changeLun _)
    apply Ends.bind (keeps_tryLun _)
    intro _
    exact Ends.ite ih (ends_fail (by decide) (keeps_changeLun _))

theorem ends_write6 : Ends Quiet Ended (scsiCommandWrite6 fs) := by
  apply ends_autoStart
  apply Ends.bind keeps_get
  intro _
  apply Ends.bind (keeps_phase rfl)
  intro _
  apply Ends.bind (keeps_tryLun _)
  intro _
  exact Ends.ite (ends_writeLoop fs _) (ends_fail (by decide) (keeps_changeLun _))

theorem ends_translate : Ends Quiet Ended (scsiCommandTranslate fs) := by
  apply ends_autoStart
  apply Ends.bind keeps_get
  intro _
  apply Ends.bind (keeps_tryLun _)
  intro _
  apply Ends.ite
  · apply Ends.bind (keeps_askLun _)
    intro _
    apply Ends.bind (keeps_askLun _)
    intro _
    apply Ends.bind (keeps_askLun _)
    intro _
    apply Ends.bind (keeps_phase rfl)
    intro _
    apply Ends.bind (keeps_writeBytes _)
    intro _
    apply Ends.bind (keeps_writeByte _)
    intro _
    exact Ends.bind (keeps_writeBytes _) fun _ => ends_good
  · exact ends_fail (by decide) keeps_nothing

theorem keeps_copyIfPage4 (page : UInt8) : Keeps Quiet (copyIfPage4 fs page) :=
  Keeps.ite (keeps_changeLun _) (Keeps.pure _)

theorem keeps_writePages (n : Nat) (l : List UInt8) : Keeps Quiet (writePages fs n l) := by
  induction n generalizing l with
  | zero => exact Keeps.pure _
  | succ n ih =>
    match l with
    | [] => exact Keeps.pure _
    | [_] => exact Keeps.pure _
    | [_, _] => exact Keeps.pure _
    | code :: len :: third :: rest =>
      apply Keeps.ite (Keeps.pure _)
      apply Keeps.bind (keeps_changeLun _)
      intro _
      exact Keeps.bind (keeps_copyIfPage4 fs _) fun _ => ih _

theorem keeps_takeParameters (params : List UInt8) : Keeps Quiet (takeParameters fs params) := by
  apply Keeps.ite
  · apply Keeps.bind (keeps_changeLun _)
    intro _
    exact Keeps.bind (keeps_changeLun _) fun _ => Keeps.pure _
  · exact keeps_writePages fs _ _

theorem ends_modeSelect : Ends Quiet Ended (modeSelect fs) := by
  apply Ends.bind keeps_get
  intro _
  apply Ends.bind (keeps_phase rfl)
  intro _
  apply Ends.bind (keeps_readBytes _)
  intro params
  apply Ends.bind (keeps_takeParameters fs params)
  intro _
  apply Ends.ite
  · apply Ends.bind (keeps_changeLun _)
    intro _
    apply Ends.bind (keeps_tryLun _)
    intro _
    exact Ends.ite ends_good (ends_fail (by decide) keeps_nothing)
  · exact ends_fail (by decide) keeps_nothing

theorem ends_modeSelect6 : Ends Quiet Ended (scsiCommandModeSelect6 fs) := by
  apply Ends.bind keeps_get
  intro _
  apply Ends.ite (ends_fail (by decide) keeps_nothing)
  apply Ends.bind (keeps_tryLun _)
  intro _
  apply Ends.ite (ends_modeSelect fs)
  apply Ends.bind (keeps_tryLun _)
  intro _
  exact Ends.ite (ends_modeSelect fs) (ends_fail (by decide) keeps_nothing)

theorem ends_modeSense6 : Ends Quiet Ended (scsiCommandModeSense6 fs) := by
  apply Ends.bind keeps_get
  intro _
  apply Ends.bind (keeps_tryLun _)
  intro _
  apply Ends.bind (keeps_askLun _)
  intro header
  apply Ends.bind (keeps_askLun _)
  intro lba
  apply Ends.bind (keeps_askLun _)
  intro mode
  split
  · apply Ends.ite ends_good
    apply Ends.bind (keeps_phase rfl)
    intro _
    exact Ends.bind (keeps_writeBytes _) fun _ => ends_good
  · exact ends_fail (by decide) keeps_nothing

theorem ends_startStop : Ends Quiet Ended (scsiCommandStartStop fs) := by
  apply Ends.bind keeps_get
  intro _
  apply Ends.ite
  · exact Ends.bind (keeps_changeLun _) fun _ => ends_good
  · apply Ends.bind (keeps_changeLun _)
    intro _
    apply Ends.bind (keeps_tryLun _)
    intro _
    exact Ends.ite ends_good (ends_fail (by decide) keeps_nothing)

theorem ends_sendDiagnostic : Ends Quiet Ended (scsiCommandSendDiagnostic : Action σ ScsiState) := by
  apply Ends.bind keeps_get
  intro _
  apply Ends.bind (keeps_phase rfl)
  intro _
  exact Ends.bind (keeps_readBytes _) fun _ => ends_good

theorem ends_writeFCode : Ends Quiet Ended (scsiWriteFCode fs) := by
  apply Ends.bind (keeps_askLun _)
  intro _
  apply Ends.ite
  · apply Ends.bind (keeps_phase rfl)
    intro _
    apply Ends.bind (keeps_writeDMA 256)
    intro _
    apply ends_unlessReset keeps_nothing
    exact Ends.bind (keeps_changeLun _) fun _ => ends_good
  · exact ends_fail (by decide) keeps_nothing

theorem ends_readFCode : Ends Quiet Ended (scsiReadFCode fs) := by
  apply Ends.bind (keeps_askLun _)
  intro _
  apply Ends.ite
  · apply Ends.bind (keeps_phase rfl)
    intro _
    apply Ends.bind keeps_get
    intro _
    apply Ends.bind (keeps_readDMA _)
    intro _
    apply Ends.bind (keeps_fs _)
    intro _
    exact ends_unlessReset keeps_nothing ends_good
  · exact ends_fail (by decide) keeps_nothing

theorem ofNat_lt_luns {i : Nat} (h : i < MAX_LUNS) : (UInt8.ofNat i).toNat < MAX_LUNS := by
  have hmax : MAX_LUNS = 16 := rfl
  rw [UInt8.toNat_ofNat']
  omega

theorem ends_beebScsiSense : Ends Quiet Ended (scsiBeebScsiSense fs) := by
  apply Ends.bind keeps_get
  intro _
  apply Ends.ite (ends_fail (by decide) keeps_nothing)
  apply Ends.bind (keeps_phase rfl)
  intro _
  have hloop : Keeps Quiet ((List.range 8).forM fun i => (note (.lun (UInt8.ofNat i)) : Action σ Unit)) := by
    apply Keeps.forM
    intro i hi
    exact keeps_note (ofNat_lt_luns (lt_trans (List.mem_range.mp hi) (by decide)))
  apply Ends.bind hloop
  intro _
  apply Ends.bind keeps_get
  intro _
  exact Ends.bind (keeps_writeBytes _) fun _ => ends_good

theorem keeps_anyStarted {l : List Nat} (hl : ∀ i ∈ l, i < MAX_LUNS) : Keeps Quiet (anyStarted fs l) := by
  induction l with
  | nil => exact Keeps.pure _
  | cons i l ih =>
    apply Keeps.bind (keeps_note (ofNat_lt_luns (hl i List.mem_cons_self)))
    intro _
    apply Keeps.bind keeps_get
    intro _
    exact Keeps.ite (Keeps.pure _) (ih fun j hj => hl j (List.mem_cons_of_mem i hj))

theorem keeps_jukebox (lun : UInt8) : Keeps Quiet (scsiJukebox fs lun) := by
  apply Keeps.bind (keeps_anyStarted fs fun i hi => List.mem_range.mp hi)
  intro _
  apply Keeps.ite (Keeps.pure _)
  apply Keeps.bind keeps_get
  intro _
  exact Keeps.bind (keeps_fs _) fun _ => Keeps.pure _

theorem ends_beebScsiSelect : Ends Quiet Ended (scsiBeebScsiSelect fs) := by
  apply Ends.bind keeps_get
  intro _
  apply Ends.ite (ends_fail (by decide) keeps_nothing)
  apply Ends.bind (keeps_phase rfl)
  intro _
  apply Ends.bind (keeps_readBytes 8)
  intro _
  apply Ends.bind (keeps_jukebox fs _)
  intro _
  exact Ends.ite ends_good (ends_fail (by decide) keeps_nothing)

theorem ends_fatPath : Ends Quiet Ended (scsiBeebScsiFatPath fs) := by
  apply Ends.bind (keeps_phase rfl)
  intro _
  apply Ends.bind (keeps_writeDMA 256)
  intro _
  apply ends_unlessReset keeps_nothing
  exact Ends.bind (keeps_fs _) fun _ => ends_good

theorem ends_fatInfo : Ends Quiet Ended (scsiBeebScsiFatInfo fs) := by
  apply Ends.bind keeps_get
  intro _
  apply Ends.bind (keeps_phase rfl)
  intro _
  apply Ends.bind (keeps_tryFs _)
  intro buffer
  cases buffer with
  | none => exact ends_fail (by decide) keeps_nothing
  | some buffer =>
    apply Ends.bind (keeps_readDMA buffer)
    intro _
    exact ends_unlessReset keeps_nothing ends_good

/-! ### The handlers with an exit that sets no sense data -/

theorem senseCode_illegal (lba : UInt32) : senseCode (ILLEGAL_ADDR ||| (lba &&& 0x00FFFFFF)) ≠ 0 := by
  have h : senseCode (ILLEGAL_ADDR ||| (lba &&& 0x00FFFFFF)) = 0xA1 := by
    apply UInt8.toBitVec_inj.mp
    ext i hi
    interval_cases i <;> simp [senseCode, ILLEGAL_ADDR]
  rw [h]
  decide

theorem ends_verifyStarted : Ends Quiet Ended (verifyStarted fs) := by
  apply Ends.bind keeps_get
  intro _
  apply Ends.bind (keeps_askLun _)
  intro _
  exact Ends.ite (ends_fail (senseCode_illegal _) keeps_nothing) ends_good

theorem ends_capacityStarted : Ends Quiet Ended (capacityStarted fs) := by
  apply Ends.bind keeps_get
  intro _
  apply Ends.ite (ends_fail (by decide) keeps_nothing)
  apply Ends.bind (keeps_askLun _)
  intro _
  apply Ends.bind (keeps_phase rfl)
  intro _
  apply Ends.bind (keeps_writeBytes _)
  intro _
  apply Ends.bind (keeps_askLun _)
  intro _
  exact Ends.bind (keeps_writeBytes _) fun _ => ends_good

theorem ends_defectsStarted : Ends Quiet Ended (defectsStarted : Action σ ScsiState) := by
  apply Ends.bind keeps_get
  intro _
  apply Ends.bind (keeps_phase rfl)
  intro _
  exact Ends.bind (keeps_writeBytes _) fun _ => ends_good

theorem ends_sendInquiry (buf : List UInt8) : Ends Quiet Ended (sendInquiry buf : Action σ ScsiState) := by
  apply Ends.bind keeps_get
  intro _
  apply Ends.bind (keeps_phase rfl)
  intro _
  exact Ends.bind (keeps_writeBytes _) fun _ => ends_good

theorem ended_started {x y : Action σ ScsiState} (hx : Ends Quiet Ended x) {t : Target σ}
    (hs : fs.readLunStatus t.fs t.targetLUN = true) :
    let r := (do if ← askLun fs.readLunStatus then x else y : Action σ ScsiState) t
    Ended t r.1 r.2 := by
  have hrun : (do if ← askLun fs.readLunStatus then x else y : Action σ ScsiState) t
      = x (askLun fs.readLunStatus t).2 := by
    show (if fs.readLunStatus t.fs t.targetLUN = true then x else y) (askLun fs.readLunStatus t).2 = _
    rw [if_pos hs]
  simp only [hrun]
  exact hx.run t _ ((keeps_askLun fs.readLunStatus).run t)

theorem ended_inquiry {t : Target σ} (h : fs.inquiryData t.fs t.targetLUN ≠ none) :
    Ended t (scsiCommandInquiry fs t).1 (scsiCommandInquiry fs t).2 := by
  obtain ⟨buf, hbuf⟩ := Option.ne_none_iff_exists'.mp h
  have hrun : scsiCommandInquiry fs t = sendInquiry buf (askLun fs.inquiryData t).2 := by
    have hask : askLun fs.inquiryData t = (some buf, (askLun fs.inquiryData t).2) := Prod.ext hbuf rfl
    rw [scsiCommandInquiry, bind_apply, hask]
  rw [hrun]
  exact (ends_sendInquiry buf).run t _ ((keeps_askLun fs.inquiryData).run t)

def FatReadable : Nat → σ → Prop
  | 0, _ => True
  | n + 1, s => (fs.readNextFatBlock s).1 ≠ none ∧ FatReadable n (fs.readNextFatBlock s).2

instance FatReadable.decide : (n : Nat) → (s : σ) → Decidable (FatReadable fs n s)
  | 0, _ => isTrue trivial
  | n + 1, s =>
    have := FatReadable.decide n (fs.readNextFatBlock s).2
    inferInstanceAs (Decidable (_ ∧ _))

def SameFs (t t' : Target σ) : Prop := t'.fs = t.fs

instance : IsPreorder (Target σ) SameFs where
  refl _ := rfl
  trans _ _ _ h h' := h'.trans h

theorem waitAck_fs : Keeps SameFs (waitAck : Action σ (Option UInt8)) := by
  constructor
  intro t
  unfold waitAck
  split
  · rfl
  · rfl

theorem readDMA_fs (l : List UInt8) : Keeps SameFs (hostadapterPerformReadDMA l : Action σ Unit) := by
  induction l with
  | nil => exact Keeps.pure _
  | cons b l ih =>
    have hput : Keeps SameFs (putByte b : Action σ Unit) := ⟨fun _ => rfl⟩
    apply Keeps.bind hput
    intro _
    apply Keeps.bind waitAck_fs
    intro a
    cases a with
    | some _ => exact ih
    | none => exact Keeps.pure _

theorem ended_fatReadLoop {n : Nat} {t₀ t : Target σ} (hq : Quiet t₀ t) (h : FatReadable fs n t.fs) :
    Ended t₀ (fatReadLoop fs n t).1 (fatReadLoop fs n t).2 := by
  induction n generalizing t with
  | zero => exact (Ends.bind (keeps_fs _) fun _ => ends_good).run t₀ t hq
  | succ n ih =>
    obtain ⟨hread, hrest⟩ := h
    obtain ⟨buffer, hbuf⟩ := Option.ne_none_iff_exists'.mp hread
    -- the block has been read and sent, and the reset line is looked at
    let u := (hostadapterPerformReadDMA buffer (tryFs fs.readNextFatBlock t).2).2
    have hu : Quiet t₀ u := by
      apply trans_of Quiet hq
      apply trans_of Quiet ((keeps_tryFs fs.readNextFatBlock).run t)
      exact (keeps_readDMA buffer).run _
    have hfs : u.fs = (fs.readNextFatBlock t.fs).2 := (readDMA_fs buffer).run _
    have hrun : fatReadLoop fs (n + 1) t
        = unlessReset (changeFs fs.closeFatForRead) (fatReadLoop fs n) u := by
      have hblock : tryFs fs.readNextFatBlock t = (some buffer, (tryFs fs.readNextFatBlock t).2) := Prod.ext hbuf rfl
      rw [fatReadLoop, bind_apply, hblock]
      rfl
    rw [hrun]
    rcases unlessReset_run (changeFs fs.closeFatForRead) (fatReadLoop fs n) u with
      ⟨w, hw, hwfs, hrun'⟩ | ⟨rst, -, hrun'⟩
    · rw [hrun']
      apply ih (trans_of Quiet hu hw)
      rw [hwfs, hfs]
      exact hrest
    · rw [hrun']
      exact ended_cut (keeps_fs _) hu

def FatReadOk (d : Vector UInt8 10) (s : σ) : Prop :=
  (fs.openFatForRead s (byte5 d).toUInt32 (lba21 d)).1 = true →
    FatReadable fs (byte4 d).toNat (fs.openFatForRead s (byte5 d).toUInt32 (lba21 d)).2

instance (d : Vector UInt8 10) (s : σ) : Decidable (FatReadOk fs d s) :=
  inferInstanceAs (Decidable (_ → _))

theorem ended_fatRead {t : Target σ} (h : FatReadOk fs t.data t.fs) :
    Ended t (scsiBeebScsiFatRead fs t).1 (scsiBeebScsiFatRead fs t).2 := by
  let u : Target σ := { t with phase := .dataIn, fs := (fs.openFatForRead t.fs t.data[5].toUInt32 (lba21 t.data)).2 }
  have hu : Quiet t u := quiet_same ⟨rfl, rfl, rfl, rfl, rfl⟩ rfl (fun _ => rfl) rfl rfl
  have hrun : scsiBeebScsiFatRead fs t
      = (if (fs.openFatForRead t.fs t.data[5].toUInt32 (lba21 t.data)).1 = true then
          fatReadLoop fs t.data[4].toNat else fail DRIVE_NOT_READY (pure ())) u := rfl
  rw [hrun]
  split
  · next hopen => exact ended_fatReadLoop fs hu (h hopen)
  · exact (ends_fail (by decide) keeps_nothing).run t u hu

end Pi1MHz.ScsiTarget
