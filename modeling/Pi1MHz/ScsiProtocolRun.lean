import Pi1MHz.ScsiProtocol

/-!
# BeebSCSI: the protocol over a run

Where the target is in a command, for each state it can be in, and that every step leads from one
such place to the next.
-/

namespace Pi1MHz.ScsiTarget

open StateRules

variable {σ : Type}

/-- Where the target is.  `e` is the exchange that is under way, or the last one. -/
inductive Stage (t : Target σ) : Prop where
  | fresh (hcur : t.current = none) (hpast : t.past = [])
      (hsense : t.requestSenseData = fun _ => NO_ERROR)
      (hst : t.scsiState = .busFree ∨ t.scsiState = .command ∧ t.freeState = false)
  | begun (hcur : t.current = some (t.targetLUN, t.data)) (hev : t.events = []) (hpolls : t.polls = 0)
      (hphase : t.phase = .command) (hlun : t.targetLUN.toNat < MAX_LUNS) (hfree : t.freeState = false)
      (hop : ∃ id, decode id t.data[0] = some t.scsiState)
  | status (e : Exchange) (hhead : t.head = some e) (hst : t.scsiState = .status)
      (hsound : Sound t.past e) (hbus : e.bus = []) (hpolls : e.polls ≤ 1) (hfree : t.freeState = false)
      (hcheck : t.status = SCSI_STATUS_CHECK_COND → ∃ v, e.sense? = some v ∧ senseCode v ≠ 0)
      (hrep : e.cdb[0] = 0x03 → e.dataIn = senseBytes (senseAfter t.past e.lun))
  | message (e : Exchange) (hhead : t.head = some e) (hst : t.scsiState = .message)
      (hsound : Sound t.past e) (s : UInt8) (hbus : e.bus = [.wrote .status s]) (hpolls : e.polls ≤ 2)
      (hfree : t.freeState = false)
  | ending (e : Exchange) (hhead : t.head = some e) (hst : t.scsiState = .busFree)
      (hsound : Sound t.past e) (s : UInt8) (hbus : e.bus = [.wrote .status s, .wrote .messageIn 0])
      (hpolls : e.polls ≤ 3) (hfree : t.freeState = false)
  | ended (e : Exchange) (hhead : t.head = some e) (hsound : Sound t.past e) (hover : Over e)
      (hst : t.scsiState = .command ∧ t.freeState = false ∨
        t.scsiState = .busFree ∧ (t.freeState = true ∨ e.wasReset = true))

structure Inv (t : Target σ) : Prop where
  sounds : Sounds t.past
  ended : ∀ e ∈ t.past, Over e
  stage : Stage t
  sense : t.current ≠ none → t.requestSenseData = t.events.foldl applySense (senseAfter t.past)

/-! ### A handler -/

theorem sound_left {earlier : List Exchange} {lun : UInt8} {cdb : Vector UInt8 10} {evs : List Event}
    {n : Nat} (hlun : lun.toNat < MAX_LUNS) (hq : ∀ e ∈ evs, e = .rst ∨ e.Quiet lun)
    (hstatus : (⟨lun, cdb, evs, n⟩ : Exchange).status? = none)
    (hclear : (⟨lun, cdb, evs, n⟩ : Exchange).clear = []) :
    Sound earlier ⟨lun, cdb, evs, n⟩ where
  framed := by
    refine ⟨0, ?_⟩
    rw [hclear]
    exact List.nil_prefix
  own i v h := by
    rcases hq _ h with h | h
    · cases h
    · exact h.1
  index i h := by
    rcases h with h | ⟨v, h⟩
    · rcases hq _ h with h | h
      · cases h
      · rcases h with rfl | h
        · exact hlun
        · exact h
    · rcases hq _ h with h | h
      · cases h
      · rw [h.1]
        exact hlun
  checked h := by
    rw [hstatus] at h
    cases h
  reported _ h := absurd hstatus h

theorem sense_of_quiet {lun : UInt8} {evs : List Event} (hq : ∀ e ∈ evs, e.Quiet lun)
    (h : ∃ v, Event.sense lun v ∈ evs) :
    ∃ v, (evs.filterMap Event.sense?).getLast? = some v ∧ senseCode v ≠ 0 := by
  obtain ⟨v, hv⟩ := h
  have hmem : v ∈ evs.filterMap Event.sense? := List.mem_filterMap.mpr ⟨_, hv, rfl⟩
  have hne : evs.filterMap Event.sense? ≠ [] := List.ne_nil_of_mem hmem
  refine ⟨_, List.getLast?_eq_some_getLast hne, ?_⟩
  obtain ⟨ev, hev, hsome⟩ := List.mem_filterMap.mp (List.getLast_mem hne)
  cases ev with
  | sense i w =>
    obtain rfl := Option.some.inj hsome
    exact (hq _ hev).2
  | wrote p b => cases hsome
  | free => cases hsome
  | rst => cases hsome
  | reset => cases hsome
  | lun i => cases hsome

variable (fs : FileSystem σ)

theorem stage_of_ended {t u : Target σ} {s : ScsiState} (hcur : t.current = some (t.targetLUN, t.data))
    (hev : t.events = []) (hpolls : t.polls = 1) (hphase : t.phase = .command)
    (hlun : t.targetLUN.toNat < MAX_LUNS) (hfree : t.freeState = false) (hop : t.data[0] ≠ 0x03)
    (h : Ended t s u) : Stage ({ u with scsiState := s } : Target σ) := by
  obtain ⟨hf, evs, hadd, hout⟩ := h (by rw [hphase]; rfl)
  have hevents : u.events = evs := by rw [hadd.events, hev, List.nil_append]
  have hhead : ({ u with scsiState := s } : Target σ).head = some ⟨t.targetLUN, t.data, evs, 1⟩ := by
    simp only [Target.head, hf.current, hcur, hevents, hf.polls, hpolls, Option.map_some]
  have hquiet : ∀ evs' : List Event, (∀ e ∈ evs', e.Quiet t.targetLUN) →
      (⟨t.targetLUN, t.data, evs', 1⟩ : Exchange).bus = [] := fun _ hq => bus_of_quiet hq
  cases hout with
  | ok _ hq hs =>
    have hbus := hquiet evs hq
    have hstatus := status_none_of_bus (e := ⟨t.targetLUN, t.data, evs, 1⟩) (by rw [hbus]; exact nofun)
    refine Stage.status _ hhead rfl ?_ hbus le_rfl (hf.freeState.trans hfree) ?_ ?_
    · apply sound_left hlun (fun e he => Or.inr (hq e he)) hstatus
      rw [Exchange.clear, hbus]
      rfl
    · intro hcheck
      rw [hs] at hcheck
      cases hcheck
    · intro h3
      exact absurd h3 hop
  | check _ hq hv hs =>
    have hbus := hquiet evs hq
    have hstatus := status_none_of_bus (e := ⟨t.targetLUN, t.data, evs, 1⟩) (by rw [hbus]; exact nofun)
    refine Stage.status _ hhead rfl ?_ hbus le_rfl (hf.freeState.trans hfree) ?_ ?_
    · apply sound_left hlun (fun e he => Or.inr (hq e he)) hstatus
      rw [Exchange.clear, hbus]
      rfl
    · intro _
      exact sense_of_quiet hq hv
    · intro h3
      exact absurd h3 hop
  | cut before after hq hq' =>
    have hbus : (⟨t.targetLUN, t.data, before ++ Event.rst :: after, 1⟩ : Exchange).bus = [.rst] := by
      simp only [Exchange.bus, List.filter_append, bus_of_quiet hq, List.nil_append]
      rw [List.filter_cons_of_pos rfl, bus_of_quiet hq']
    refine Stage.ended _ hhead ?_ ?_ ?_
    · apply sound_left hlun
      · intro e he
        simp only [List.mem_append, List.mem_cons] at he
        rcases he with he | rfl | he
        · exact Or.inr (hq e he)
        · exact Or.inl rfl
        · exact Or.inr (hq' e he)
      · apply status_none_of_bus
        rw [hbus]
        simp
      · rw [Exchange.clear, hbus]
        rfl
    · left
      simp [Exchange.wasReset, Event.isReset]
    · right
      refine ⟨rfl, Or.inr ?_⟩
      simp [Exchange.wasReset, Event.isReset]

theorem decode_handler {id first : UInt8} {s : ScsiState}
    (hs : s = .busFree ∨ s = .command ∨ s = .status ∨ s = .message) : decode id first ≠ some s := by
  intro heq
  unfold decode at heq
  simp only at heq
  split at heq <;> rcases hs with rfl | rfl | rfl | rfl <;> simp at heq

theorem ended_handler {t : Target σ} (p : Poll) {id : UInt8} (hop : decode id (byte0 t.data) = some t.scsiState)
    (h3 : t.scsiState ≠ .requestSense) (h : t.Followed fs (.poll p)) :
    Ended (t.begin p) (scsiProcess fs p.sel t.scsiState (t.begin p)).1
      (scsiProcess fs p.sel t.scsiState (t.begin p)).2 := by
  obtain ⟨-, hstarted, hinquiry, hfat⟩ := h
  cases hst : t.scsiState with
  | busFree => exact absurd (hst ▸ hop) (decode_handler (by simp))
  | command => exact absurd (hst ▸ hop) (decode_handler (by simp))
  | status => exact absurd (hst ▸ hop) (decode_handler (by simp))
  | message => exact absurd (hst ▸ hop) (decode_handler (by simp))
  | requestSense => exact absurd hst h3
  | testUnitReady => exact (ends_ifStarted fs (by decide)).here _
  | rezeroUnit => exact (ends_ifStarted fs (by decide)).here _
  | seek => exact (ends_ifStarted fs (by decide)).here _
  | format => exact (ends_format fs).here _
  | reassignBlocks => exact ends_reassignBlocks.here _
  | read6 => exact (ends_read6 fs).here _
  | write6 => exact (ends_write6 fs).here _
  | translate => exact (ends_translate fs).here _
  | modeSelect6 => exact (ends_modeSelect6 fs).here _
  | modeSense6 => exact (ends_modeSense6 fs).here _
  | startStop => exact (ends_startStop fs).here _
  | verify => exact ended_started fs (ends_verifyStarted fs) (hstarted (Or.inl hst))
  | readCapacity => exact ended_started fs (ends_capacityStarted fs) (hstarted (Or.inr (Or.inl hst)))
  | readDefectData10 => exact ended_started fs ends_defectsStarted (hstarted (Or.inr (Or.inr hst)))
  | inquiry => exact ended_inquiry fs (hinquiry hst)
  | sendDiagnostic => exact ends_sendDiagnostic.here _
  | writeFCode => exact (ends_writeFCode fs).here _
  | readFCode => exact (ends_readFCode fs).here _
  | beebScsiSense => exact (ends_beebScsiSense fs).here _
  | beebScsiSelect => exact (ends_beebScsiSelect fs).here _
  | beebScsiFatPath => exact (ends_fatPath fs).here _
  | beebScsiFatInfo => exact (ends_fatInfo fs).here _
  | beebScsiFatRead => exact ended_fatRead fs (hfat hst)
  | certify => exact ends_good.here _

def SameButHost (t t' : Target σ) : Prop :=
  ∃ acks databus, t' = { t with acks := acks, databus := databus }

theorem waitAck_run (t : Target σ) : SameButHost t (waitAck t).2 := by
  unfold waitAck
  split
  · exact ⟨_, _, rfl⟩
  · exact ⟨t.acks, t.databus, rfl⟩

theorem writeBytes_run (l : List UInt8) (t : Target σ) :
    SameButHost { t with events := t.events ++ l.map (Event.wrote t.phase) } (hostadapterWriteBytes l t).2 := by
  induction l generalizing t with
  | nil => exact ⟨t.acks, t.databus, by simp [hostadapterWriteBytes]; rfl⟩
  | cons b l ih =>
    let u : Target σ := { t with events := t.events ++ [.wrote t.phase b] }
    have hrun : hostadapterWriteBytes (b :: l) t = hostadapterWriteBytes l (waitAck u).2 := rfl
    obtain ⟨acks, databus, hack⟩ := waitAck_run u
    obtain ⟨acks', databus', hih⟩ := ih (waitAck u).2
    rw [hrun, hih, hack]
    refine ⟨acks', databus', ?_⟩
    simp [u]

theorem requestSense_run (t : Target σ) :
    ∃ acks databus, scsiCommandRequestSense t = (.status,
      { t with phase := .dataIn
               status := SCSI_STATUS_OK
               acks := acks
               databus := databus
               events := t.events ++ ([.lun t.targetLUN] ++
                 (senseBytes (t.requestSenseData t.targetLUN)).map (Event.wrote .dataIn) ++
                 [.sense t.targetLUN NO_ERROR])
               requestSenseData := fun i => if i = t.targetLUN then NO_ERROR else t.requestSenseData i }) := by
  let u : Target σ := { t with phase := .dataIn, events := t.events ++ [.lun t.targetLUN] }
  obtain ⟨acks, databus, h⟩ := writeBytes_run (senseBytes (t.requestSenseData t.targetLUN)) u
  refine ⟨acks, databus, ?_⟩
  simp only [scsiCommandRequestSense, bind_apply, scsiInformationTransferPhase, useLun, modify_apply,
    get_apply, setSense, good, setStatus, pure_apply]
  rw [h]
  simp only [u, List.append_assoc]

/-! ### One poll -/

theorem sense_of_added {t u : Target σ} {evs : List Event} {s : ScsiState}
    (hs : t.requestSenseData = t.events.foldl applySense (senseAfter t.past)) (hp : u.past = t.past)
    (h : Added t u evs) :
    ({ u with scsiState := s } : Target σ).requestSenseData
      = u.events.foldl applySense (senseAfter u.past) := by
  rw [hp, h.events, List.foldl_append, ← hs]
  exact h.sense

theorem poll_eq {t u : Target σ} {p : Poll} {x : Action σ ScsiState} {s : ScsiState}
    (hx : scsiProcess fs p.sel t.scsiState = x) (h : x (t.begin p) = (s, u)) :
    t.poll fs p = { u with scsiState := s } := by
  rw [Target.poll, hx, h]

theorem inv_handler {t : Target σ} {p : Poll} (h : Inv t) (hcur : t.current = some (t.targetLUN, t.data))
    (hev : t.events = []) (hpolls : t.polls = 0) (hphase : t.phase = .command)
    (hlun : t.targetLUN.toNat < MAX_LUNS) (hfree : t.freeState = false) {id : UInt8}
    (hop : decode id t.data[0] = some t.scsiState) (hfol : t.Followed fs (.poll p)) :
    Inv (t.poll fs p) := by
  have hsense := h.sense (by rw [hcur]; exact nofun)
  by_cases h3 : t.scsiState = .requestSense
  · obtain ⟨acks, databus, hrun⟩ := requestSense_run (t.begin p)
    have hx : scsiProcess fs p.sel t.scsiState = scsiCommandRequestSense := by rw [h3]; rfl
    rw [poll_eq fs hx hrun]
    -- the events of this exchange: the index, the four bytes, the clearing
    have hdata : t.requestSenseData t.targetLUN = senseAfter t.past t.targetLUN := by
      rw [hsense, hev]
      rfl
    constructor
    · exact h.sounds
    · exact h.ended
    · refine Stage.status ⟨t.targetLUN, t.data, [.lun t.targetLUN] ++
        (senseBytes (t.requestSenseData t.targetLUN)).map (Event.wrote .dataIn) ++
          [.sense t.targetLUN NO_ERROR], 1⟩ ?_ rfl ?_ rfl le_rfl hfree nofun ?_
      · simp only [Target.head, Target.begin, hcur, hev, hpolls, Option.map_some, List.nil_append]
      · constructor
        · exact ⟨0, List.nil_prefix⟩
        · intro i v hm
          simp [senseBytes] at hm
          exact hm.1
        · intro i hm
          simp [senseBytes] at hm
          rw [hm]
          exact hlun
        · exact nofun
        · exact fun _ hne => absurd rfl hne
      · intro _
        simp only [hdata]
        rfl
    · intro _
      simp only [Target.begin, hev, List.nil_append]
      rw [hsense, hev]
      rfl
  · have hended := ended_handler fs p hop h3 hfol
    have hop3 : t.data[0] ≠ 0x03 := by
      intro heq
      rw [heq] at hop
      exact h3 (Option.some.inj hop).symm
    obtain ⟨hf, evs, hadd, -⟩ := hended (by simp only [Target.begin, hphase]; rfl)
    constructor
    · have hpast : (t.poll fs p).past = t.past := hf.past
      rw [hpast]
      exact h.sounds
    · have hpast : (t.poll fs p).past = t.past := hf.past
      rw [hpast]
      exact h.ended
    · apply stage_of_ended (t := t.begin p) hcur hev _ hphase hlun hfree hop3 hended
      simp only [Target.begin, hpolls]
    · intro _
      exact sense_of_added (t := t.begin p) hsense hf.past hadd

theorem status_run (t : Target σ) :
    ∃ acks databus, scsiEmulationStatus t = (.message,
      { t with phase := .status, acks := acks, databus := databus
               events := t.events ++ [.wrote .status t.status] }) := by
  let u : Target σ := { t with phase := .status, events := t.events ++ [.wrote .status t.status] }
  obtain ⟨acks, databus, h⟩ := waitAck_run u
  refine ⟨acks, databus, ?_⟩
  simp only [scsiEmulationStatus, bind_apply, scsiInformationTransferPhase, modify_apply, get_apply,
    hostadapterWriteByte, putByte, pure_apply]
  rw [h]

theorem message_run (t : Target σ) :
    ∃ acks databus, scsiEmulationMessage t = (.busFree,
      { t with phase := .messageIn, acks := acks, databus := databus
               events := t.events ++ [.wrote .messageIn 0] }) := by
  let u : Target σ := { t with phase := .messageIn, events := t.events ++ [.wrote .messageIn 0] }
  obtain ⟨acks, databus, h⟩ := waitAck_run u
  refine ⟨acks, databus, ?_⟩
  simp only [scsiEmulationMessage, bind_apply, scsiInformationTransferPhase, modify_apply,
    hostadapterWriteByte, putByte, pure_apply]
  rw [h]

theorem head_add {t u : Target σ} {e : Exchange} {ev : Event} {n : Nat} (h : t.head = some e)
    (hc : u.current = t.current) (he : u.events = t.events ++ [ev]) (hp : u.polls = n) :
    u.head = some (e.add ev n) := by
  obtain ⟨c, hcur, rfl⟩ := Option.map_eq_some_iff.mp h
  simp only [Target.head, hc, hcur, he, hp, Option.map_some, Exchange.add]

theorem head_polls {t : Target σ} {e : Exchange} (h : t.head = some e) : t.polls = e.polls := by
  obtain ⟨c, -, rfl⟩ := Option.map_eq_some_iff.mp h
  rfl

theorem current_of_head {t : Target σ} {e : Exchange} (h : t.head = some e) : t.current ≠ none := by
  intro hnone
  simp [Target.head, hnone] at h

theorem inv_status {t : Target σ} {p : Poll} (h : Inv t) {e : Exchange} (hhead : t.head = some e)
    (hst : t.scsiState = .status) (hsound : Sound t.past e) (hbus : e.bus = []) (hpolls : e.polls ≤ 1)
    (hfree : t.freeState = false)
    (hcheck : t.status = SCSI_STATUS_CHECK_COND → ∃ v, e.sense? = some v ∧ senseCode v ≠ 0)
    (hrep : e.cdb[0] = 0x03 → e.dataIn = senseBytes (senseAfter t.past e.lun)) : Inv (t.poll fs p) := by
  obtain ⟨acks, databus, hrun⟩ := status_run (t.begin p)
  have hx : scsiProcess fs p.sel t.scsiState = scsiEmulationStatus := by rw [hst]; rfl
  rw [poll_eq fs hx hrun]
  have hbus' : (e.add (.wrote .status t.status) (e.polls + 1)).bus = [.wrote .status t.status] := by
    rw [Exchange.bus_add rfl, hbus]
    rfl
  have hstatus : (e.add (.wrote .status t.status) (e.polls + 1)).status? = some t.status := by
    have hnil : e.events.filterMap Event.status? = [] := by
      have hnone := status_none_of_bus (e := e) (by rw [hbus]; intro a h; cases h)
      exact List.head?_eq_none_iff.mp hnone
    simp [Exchange.status?, Exchange.add, hnil, Event.status?]
  constructor
  · exact h.sounds
  · exact h.ended
  · refine Stage.message (e.add (.wrote .status t.status) (e.polls + 1)) ?_ rfl ?_ t.status hbus' ?_ hfree
    · apply head_add hhead
      · rfl
      · rfl
      · simp only [Target.begin, head_polls hhead]
    · constructor
      · refine ⟨t.status, ?_⟩
        rw [Exchange.clear, hbus']
        simp [ending, Event.isReset]
      · intro i v hm
        have hne : Event.sense i v ≠ .wrote .status t.status := by intro h; cases h
        exact hsound.own i v (Exchange.mem_add hne hm)
      · intro i hm
        apply hsound.index i
        rcases hm with hm | ⟨v, hm⟩
        · have hne : Event.lun i ≠ .wrote .status t.status := by intro h; cases h
          exact Or.inl (Exchange.mem_add hne hm)
        · have hne : Event.sense i v ≠ .wrote .status t.status := by intro h; cases h
          exact Or.inr ⟨v, Exchange.mem_add hne hm⟩
      · intro hc
        rw [hstatus] at hc
        obtain ⟨v, hv, hcode⟩ := hcheck (Option.some.inj hc)
        refine ⟨v, ?_, hcode⟩
        simpa [Exchange.sense?, Exchange.add, Event.sense?] using hv
      · intro h3 _
        have hdata : (e.add (.wrote .status t.status) (e.polls + 1)).dataIn = e.dataIn := by
          simp [Exchange.dataIn, Exchange.add, List.filterMap_cons, Event.dataIn?]
        rw [hdata]
        exact hrep h3
    · simp only [Exchange.add]
      omega
  · intro _
    have hsense := h.sense (current_of_head hhead)
    simp only [Target.begin, List.foldl_append, ← hsense]
    rfl

theorem inv_message {t : Target σ} {p : Poll} (h : Inv t) {e : Exchange} (hhead : t.head = some e)
    (hst : t.scsiState = .message) (hsound : Sound t.past e) {s : UInt8} (hbus : e.bus = [.wrote .status s])
    (hpolls : e.polls ≤ 2) (hfree : t.freeState = false) : Inv (t.poll fs p) := by
  obtain ⟨acks, databus, hrun⟩ := message_run (t.begin p)
  have hx : scsiProcess fs p.sel t.scsiState = scsiEmulationMessage := by rw [hst]; rfl
  rw [poll_eq fs hx hrun]
  have hbus' : (e.add (.wrote .messageIn 0) (e.polls + 1)).bus
      = [.wrote .status s, .wrote .messageIn 0] := by
    rw [Exchange.bus_add rfl, hbus]
    rfl
  constructor
  · exact h.sounds
  · exact h.ended
  · refine Stage.ending (e.add (.wrote .messageIn 0) (e.polls + 1)) ?_ rfl ?_ s hbus' ?_ hfree
    · apply head_add hhead
      · rfl
      · rfl
      · simp only [Target.begin, head_polls hhead]
    · apply hsound.add (plain_message 0)
      refine ⟨s, ?_⟩
      rw [Exchange.clear, hbus']
      simp [ending, Event.isReset]
    · simp only [Exchange.add]
      omega
  · intro _
    have hsense := h.sense (current_of_head hhead)
    simp only [Target.begin, List.foldl_append, ← hsense]
    rfl

/-! ### The free bus -/

theorem awaitSelection_run (sel : Option UInt8) (t : Target σ) :
    ∃ id free, (awaitSelection sel t).2 = { t with scsiHostID := id, freeState := free } ∧
      ((awaitSelection sel t).1 = .busFree ∧ free = t.freeState ∨
        (awaitSelection sel t).1 = .command ∧ free = false) := by
  cases sel with
  | none => exact ⟨t.scsiHostID, t.freeState, rfl, Or.inl ⟨rfl, rfl⟩⟩
  | some id =>
    have hrun : awaitSelection (some id) t
        = (if t.ourscsiid ≠ 0 ∧ id ≠ t.ourscsiid then pure .busFree
          else do
            modify fun t => { t with freeState := false }
            return .command : Action σ ScsiState) { t with scsiHostID := id } := rfl
    rw [hrun]
    split
    · exact ⟨id, t.freeState, rfl, Or.inl ⟨rfl, rfl⟩⟩
    · exact ⟨id, false, rfl, Or.inr ⟨rfl, rfl⟩⟩

theorem releaseBus_free {t : Target σ} (h : t.freeState = true) : (releaseBus t).2 = t := by
  simp only [releaseBus, bind_apply, get_apply, h, if_true]
  rfl

theorem releaseBus_held {t : Target σ} (h : t.freeState = false) :
    (releaseBus t).2 = { t with phase := .dataOut, events := t.events ++ [.free], freeState := true } := by
  simp only [releaseBus, bind_apply, get_apply, h, Bool.false_eq_true, if_false]
  rfl

theorem busFree_run (sel : Option UInt8) (t : Target σ) :
    ∃ s u, scsiEmulationBusFree sel t = (s, u) ∧ u.past = t.past ∧ u.current = t.current ∧
      u.polls = t.polls ∧ u.requestSenseData = t.requestSenseData ∧
      u.events = t.events ++ (if t.freeState then [] else [.free]) ∧
      (s = .command ∧ u.freeState = false ∨ s = .busFree ∧ u.freeState = true) := by
  have hrun : scsiEmulationBusFree sel t = awaitSelection sel (releaseBus t).2 := rfl
  obtain ⟨id, free, hu, hs⟩ := awaitSelection_run sel (releaseBus t).2
  refine ⟨(awaitSelection sel (releaseBus t).2).1, (awaitSelection sel (releaseBus t).2).2, hrun, ?_⟩
  rw [hu]
  cases hfree : t.freeState with
  | true =>
    rw [releaseBus_free hfree] at hs ⊢
    refine ⟨rfl, rfl, rfl, rfl, ?_, ?_⟩
    · simp
    · rcases hs with ⟨hs, hf⟩ | ⟨hs, hf⟩
      · exact Or.inr ⟨hs, hf.trans hfree⟩
      · exact Or.inl ⟨hs, hf⟩
  | false =>
    rw [releaseBus_held hfree] at hs ⊢
    refine ⟨rfl, rfl, rfl, rfl, ?_, ?_⟩
    · simp
    · rcases hs with ⟨hs, hf⟩ | ⟨hs, hf⟩
      · exact Or.inr ⟨hs, hf⟩
      · exact Or.inl ⟨hs, hf⟩

theorem sense_of_free {r : UInt8 → UInt32} {evs : List Event} {b : Bool} :
    (evs ++ (if b then [] else [Event.free])).foldl applySense r = evs.foldl applySense r := by
  cases b with
  | true => simp
  | false =>
    rw [List.foldl_append]
    rfl

theorem inv_busFree {t : Target σ} {p : Poll} (h : Inv t) (hst : t.scsiState = .busFree) :
    Inv (t.poll fs p) := by
  obtain ⟨s, u, hrun, hpast, hcur, hpolls, hsense, hev, hs⟩ := busFree_run p.sel (t.begin p)
  have hx : scsiProcess fs p.sel t.scsiState = scsiEmulationBusFree p.sel := by rw [hst]; rfl
  have hpolls' : u.polls = t.polls + 1 := hpolls
  rw [poll_eq fs hx hrun]
  have hstate : s = .busFree ∨ s = .command ∧ u.freeState = false := by
    rcases hs with hs | ⟨hs, -⟩
    · exact Or.inr hs
    · exact Or.inl hs
  constructor
  · simp only [hpast]
    exact h.sounds
  · simp only [hpast]
    exact h.ended
  · cases h.stage with
    | fresh hc hp hz _ => exact Stage.fresh (hcur.trans hc) (hpast.trans hp) (hsense.trans hz) hstate
    | begun _ _ _ _ _ _ hop =>
      obtain ⟨id, hop⟩ := hop
      rw [hst] at hop
      exact absurd hop (decode_handler (Or.inl rfl))
    | status e _ hst' => rw [hst] at hst'; cases hst'
    | message e _ hst' => rw [hst] at hst'; cases hst'
    | ending e hhead _ hsound sb hbus hpl hfree =>
      have hev' : u.events = t.events ++ [.free] := by
        rw [hev]
        simp only [Target.begin, hfree, Bool.false_eq_true, if_false]
      have hbus' : (e.add .free (t.polls + 1)).bus = ScsiTarget.ending sb := by
        rw [Exchange.bus_add rfl, hbus]
        rfl
      refine Stage.ended (e.add .free (t.polls + 1)) (head_add hhead hcur hev' hpolls') ?_ ?_ ?_
      · simp only [hpast]
        apply hsound.add plain_free
        refine ⟨sb, ?_⟩
        rw [Exchange.clear, hbus']
        simp [ScsiTarget.ending, Event.isReset]
      · exact Or.inr ⟨sb, hbus'⟩
      · rcases hs with hs | ⟨hs, hf⟩
        · exact Or.inl hs
        · exact Or.inr ⟨hs, Or.inl hf⟩
    | ended e hhead hsound hover hst' =>
      cases hfree : t.freeState with
      | true =>
        -- nothing is added
        have hev' : u.events = t.events := by
          rw [hev]
          simp [Target.begin, hfree]
        obtain ⟨c, hc, rfl⟩ := Option.map_eq_some_iff.mp hhead
        refine Stage.ended ⟨c.1, c.2, t.events, t.polls + 1⟩ ?_ ?_ hover ?_
        · simp only [Target.head, hcur, hev', hpolls']
          simp only [Target.begin, hc, Option.map_some]
        · simp only [hpast]
          obtain ⟨h1, h2, h3, h4, h5⟩ := hsound
          exact ⟨h1, h2, h3, h4, h5⟩
        · rcases hs with hs | ⟨hs, hf⟩
          · exact Or.inl hs
          · exact Or.inr ⟨hs, Or.inl hf⟩
      | false =>
        -- a reset has come, and the bus is found free
        have hreset : e.wasReset = true := by
          rcases hst' with ⟨hst', -⟩ | ⟨-, hf | hr⟩
          · rw [hst] at hst'
            cases hst'
          · rw [hfree] at hf
            cases hf
          · exact hr
        have hev' : u.events = t.events ++ [.free] := by
          rw [hev]
          simp only [Target.begin, hfree, Bool.false_eq_true, if_false]
        refine Stage.ended (e.add .free (t.polls + 1)) (head_add hhead hcur hev' hpolls') ?_ ?_ ?_
        · simp only [hpast]
          apply hsound.add plain_free
          rw [clear_add_of_reset rfl hreset]
          exact hsound.framed
        · left
          rw [wasReset_add, hreset]
          rfl
        · rcases hs with hs | ⟨hs, hf⟩
          · exact Or.inl hs
          · exact Or.inr ⟨hs, Or.inl hf⟩
  · intro hne
    have hcur' : t.current ≠ none := by
      intro hnone
      exact hne (hcur.trans hnone)
    simp only [hsense, hev, hpast]
    rw [sense_of_free]
    exact h.sense hcur'

/-! ### A command block -/

theorem readByte_run (t : Target σ) :
    SameButHost t (hostadapterReadByte t).2 ∧ (hostadapterReadByte t).1 = (waitAck t).2.databus :=
  ⟨waitAck_run t, rfl⟩

theorem SameButHost.trans {t t' t'' : Target σ} (h : SameButHost t t') (h' : SameButHost t' t'') :
    SameButHost t t'' := by
  obtain ⟨a, d, rfl⟩ := h
  obtain ⟨a', d', rfl⟩ := h'
  exact ⟨a', d', rfl⟩

theorem readBytes_run (n : Nat) (t : Target σ) : SameButHost t (hostadapterReadBytes n t).2 := by
  induction n generalizing t with
  | zero => exact ⟨t.acks, t.databus, rfl⟩
  | succ n ih => exact (readByte_run t).1.trans (ih (hostadapterReadByte t).2)

theorem firstByte_eq (t : Target σ) (p : Poll) (u : Target σ) (hd : u.databus = t.databus)
    (ha : u.acks = p.acks) : (hostadapterReadByte u).1 = t.firstByte p := by
  rw [(readByte_run u).2, waitAck, Target.firstByte, ha]
  cases p.acks with
  | nil => exact hd
  | cons a acks =>
    simp only [hd]

theorem lun_lt (id lun : UInt8) :
    ((scsiTransformLUNid id lun &&& 0x1E0) >>> 5).toUInt8.toNat < MAX_LUNS := by
  have hle : (scsiTransformLUNid id lun &&& 0x1E0).toNat ≤ 0x1E0 := by
    rw [UInt32.toNat_and]
    exact Nat.and_le_right
  have hshift : ((scsiTransformLUNid id lun &&& 0x1E0) >>> 5).toNat
      = (scsiTransformLUNid id lun &&& 0x1E0).toNat / 32 := by
    rw [UInt32.toNat_shiftRight, Nat.shiftRight_eq_div_pow]
    rfl
  rw [UInt32.toNat_toUInt8, hshift]
  show _ < 16
  omega

theorem command_run {t : Target σ} (p : Poll) (hop : decode t.scsiHostID (t.firstByte p) ≠ none) :
    ∃ s u, scsiEmulationCommand (t.begin p) = (s, u) ∧ decode t.scsiHostID (byte0 u.data) = some s ∧
      u.current = some (u.targetLUN, u.data) ∧ u.events = [] ∧ u.polls = 0 ∧ u.phase = .command ∧
      u.targetLUN.toNat < MAX_LUNS ∧ u.freeState = t.freeState ∧ u.past = (t.begin p).exchanges ∧
      u.requestSenseData = t.requestSenseData := by
  let u₁ : Target σ := { t.begin p with phase := .command }
  let first := (hostadapterReadByte u₁).1
  let rest := hostadapterReadBytes (cdbLength first - 1) (hostadapterReadByte u₁).2
  have hfirst : first = t.firstByte p := firstByte_eq t p u₁ rfl rfl
  have hsame : SameButHost u₁ rest.2 := (readByte_run u₁).1.trans (readBytes_run _ _)
  obtain ⟨acks, databus, hrest⟩ := hsame
  obtain ⟨s, hs⟩ := Option.ne_none_iff_exists'.mp hop
  have hdec : decode (openExchange (first :: rest.1) rest.2).2.scsiHostID first = some s := by
    rw [hfirst, hrest]
    exact hs
  have hrun : scsiEmulationCommand (t.begin p) = (s, (openExchange (first :: rest.1) rest.2).2) :=
    scsiEmulationCommand_some hdec
  refine ⟨s, (openExchange (first :: rest.1) rest.2).2, hrun, ?_, rfl, rfl, rfl, ?_, lun_lt _ _, ?_, ?_, ?_⟩
  · simp only [openExchange, modify_apply]
    show decode t.scsiHostID ((cdbOf _ (first :: rest.1)).set 1 _)[0] = some s
    have hfirstByte : ∀ (old : Vector UInt8 10) (x : UInt8), ((cdbOf old (first :: rest.1)).set 1 x)[0] = first := by
      simp [cdbOf]
    rw [hfirstByte, hfirst]
    exact hs
  · rw [hrest]
    rfl
  · rw [hrest]
    rfl
  · rw [hrest]
    rfl
  · rw [hrest]
    rfl

theorem Sound.polls {earlier : List Exchange} {e : Exchange} (h : Sound earlier e) (n : Nat) :
    Sound earlier { e with polls := n } := by
  obtain ⟨h1, h2, h3, h4, h5⟩ := h
  exact ⟨h1, h2, h3, h4, h5⟩

theorem inv_command {t : Target σ} {p : Poll} (h : Inv t) (hst : t.scsiState = .command)
    (hop : decode t.scsiHostID (t.firstByte p) ≠ none) : Inv (t.poll fs p) := by
  obtain ⟨s, u, hrun, hdec, hcur, hev, hpolls, hphase, hlun, hfree, hpast, hsense⟩ := command_run p hop
  have hx : scsiProcess fs p.sel t.scsiState = scsiEmulationCommand := by rw [hst]; rfl
  rw [poll_eq fs hx hrun]
  -- what is past now, and that the bus was held
  have hold : t.freeState = false ∧ Sounds u.past ∧ (∀ e ∈ u.past, Over e) ∧
      t.requestSenseData = senseAfter u.past := by
    rw [hpast]
    cases h.stage with
    | fresh hc hp hz hst' =>
      have hxs : (t.begin p).exchanges = [] := by
        simp only [Target.exchanges, Target.begin, hc]
        exact hp
      rw [hxs]
      refine ⟨?_, trivial, (by intro a h; cases h), hz⟩
      rcases hst' with hst' | ⟨-, hf⟩
      · rw [hst] at hst'
        cases hst'
      · exact hf
    | begun _ _ _ _ _ _ hop' =>
      obtain ⟨id, hop'⟩ := hop'
      rw [hst] at hop'
      exact absurd hop' (decode_handler (Or.inr (Or.inl rfl)))
    | status e _ hst' => rw [hst] at hst'; cases hst'
    | message e _ hst' => rw [hst] at hst'; cases hst'
    | ending e _ hst' => rw [hst] at hst'; cases hst'
    | ended e hhead hsound hover hst' =>
      have hsense' := h.sense (current_of_head hhead)
      obtain ⟨c, hc, rfl⟩ := Option.map_eq_some_iff.mp hhead
      have hxs : (t.begin p).exchanges = ⟨c.1, c.2, t.events, t.polls + 1⟩ :: t.past := by
        simp only [Target.exchanges, Target.begin, hc]
      rw [hxs]
      refine ⟨?_, ⟨hsound.polls (t.polls + 1), h.sounds⟩, ?_, hsense'⟩
      · rcases hst' with ⟨-, hf⟩ | ⟨hst', -⟩
        · exact hf
        · rw [hst] at hst'
          cases hst'
      · intro e he
        rcases List.mem_cons.mp he with rfl | he
        · exact hover
        · exact h.ended e he
  obtain ⟨hheld, hsounds, hover, hafter⟩ := hold
  constructor
  · exact hsounds
  · exact hover
  · exact Stage.begun hcur hev hpolls hphase hlun (hfree.trans hheld) ⟨t.scsiHostID, hdec⟩
  · intro _
    simp only [hev, List.foldl_nil]
    exact hsense.trans hafter

/-! ### Resets and runs -/

theorem inv_reset {t : Target σ} (h : Inv t) (scsiid : UInt8) : Inv (t.scsiReset fs scsiid) := by
  have hzero : ∀ (evs : List Event) (r : UInt8 → UInt32),
      (evs ++ [Event.reset]).foldl applySense r = fun _ => NO_ERROR := by
    intro evs r
    rw [List.foldl_append]
    rfl
  constructor
  · exact h.sounds
  · exact h.ended
  · by_cases hcur : t.current = none
    · cases h.stage with
      | fresh _ hp _ _ => exact Stage.fresh hcur hp rfl (Or.inl rfl)
      | begun hc => rw [hcur] at hc; cases hc
      | status e hhead => exact absurd hcur (current_of_head hhead)
      | message e hhead => exact absurd hcur (current_of_head hhead)
      | ending e hhead => exact absurd hcur (current_of_head hhead)
      | ended e hhead => exact absurd hcur (current_of_head hhead)
    · -- whatever the exchange was at, the reset is the end of it
      have hsound : ∃ e, t.head = some e ∧ Sound t.past e := by
        cases h.stage with
        | fresh hc => exact absurd hc hcur
        | begun hc hev hpolls _ hlun =>
          refine ⟨⟨t.targetLUN, t.data, [], 0⟩, ?_, ?_⟩
          · simp only [Target.head, hc, hev, hpolls, Option.map_some]
          · exact sound_left hlun (by intro a h; cases h) rfl rfl
        | status e hhead _ hs => exact ⟨e, hhead, hs⟩
        | message e hhead _ hs => exact ⟨e, hhead, hs⟩
        | ending e hhead _ hs => exact ⟨e, hhead, hs⟩
        | ended e hhead hs => exact ⟨e, hhead, hs⟩
      obtain ⟨e, hhead, hs⟩ := hsound
      have hreset : (e.add .reset t.polls).wasReset = true := by
        rw [wasReset_add]
        simp [Event.isReset]
      refine Stage.ended (e.add .reset t.polls) (head_add hhead rfl rfl rfl) ?_ (Or.inl hreset)
        (Or.inr ⟨rfl, Or.inr hreset⟩)
      apply hs.add plain_reset
      rw [clear_add_reset]
      exact hs.framed
  · intro _
    exact (hzero t.events _).symm

theorem inv_step {t : Target σ} {step : Step σ} (h : Inv t) (hf : t.Followed fs step) :
    Inv (t.step fs step) := by
  cases step with
  | poll p =>
    cases h.stage with
    | fresh _ _ _ hst =>
      rcases hst with hst | ⟨hst, -⟩
      · exact inv_busFree fs h hst
      · exact inv_command fs h hst (hf.1 hst)
    | begun hcur hev hpolls hphase hlun hfree hop =>
      obtain ⟨id, hop⟩ := hop
      exact inv_handler fs h hcur hev hpolls hphase hlun hfree hop hf
    | status e hhead hst hsound hbus hpolls hfree hcheck hrep =>
      exact inv_status fs h hhead hst hsound hbus hpolls hfree hcheck hrep
    | message e hhead hst hsound s hbus hpolls hfree =>
      exact inv_message fs h hhead hst hsound hbus hpolls hfree
    | ending e hhead hst => exact inv_busFree fs h hst
    | ended e hhead hsound hover hst =>
      rcases hst with ⟨hst, -⟩ | ⟨hst, -⟩
      · exact inv_command fs h hst (hf.1 hst)
      · exact inv_busFree fs h hst
  | reset scsiid => exact inv_reset fs h scsiid
  | other s =>
    obtain ⟨h1, h2, h3, h4⟩ := h
    refine ⟨h1, h2, ?_, h4⟩
    show Stage { t with fs := s }
    cases h3 with
    | fresh a b c d => exact Stage.fresh a b c d
    | begun a b c d e f g => exact Stage.begun a b c d e f g
    | status e a b c d f g i j => exact Stage.status e a b c d f g i j
    | message e a b c s d f g => exact Stage.message e a b c s d f g
    | ending e a b c s d f g => exact Stage.ending e a b c s d f g
    | ended e a b c d => exact Stage.ended e a b c d

theorem inv_initial (s : σ) : Inv (Target.initial s) where
  sounds := trivial
  ended := nofun
  stage := Stage.fresh rfl rfl rfl (Or.inl rfl)
  sense h := absurd rfl h

theorem inv_run {steps : List (Step σ)} {t : Target σ} (h : Inv t) (hf : t.AllFollowed fs steps) :
    Inv (t.run fs steps) := by
  induction steps generalizing t with
  | nil => exact h
  | cons step steps ih => exact ih (inv_step fs h hf.1) hf.2

theorem Inv.protocol {t : Target σ} (h : Inv t) : Protocol t.exchanges := by
  -- the exchange under way is sound, and over if it has had its polls
  have hof : ∀ e, t.head = some e → Sound t.past e → (4 ≤ e.polls → Over e) → Protocol t.exchanges := by
    intro e hhead hs hover
    rw [exchanges_of_head hhead]
    have hsounds : Sounds (e :: t.past) := ⟨hs, h.sounds⟩
    apply protocol_of_sounds hsounds
    intro later e' earlier hxs hcond
    cases later with
    | nil =>
      obtain ⟨rfl, rfl⟩ := List.cons.inj hxs
      rcases hcond with hne | hpolls
      · exact absurd rfl hne
      · exact hover hpolls
    | cons c later =>
      obtain ⟨rfl, hpast⟩ := List.cons.inj hxs
      apply h.ended e'
      rw [hpast]
      exact List.mem_append_right later List.mem_cons_self
  cases h.stage with
  | fresh hc hp =>
    have hxs : t.exchanges = [] := by
      simp only [Target.exchanges, hc]
      exact hp
    rw [hxs]
    have hsounds : Sounds [] := trivial
    apply protocol_of_sounds hsounds
    intro later e earlier hxs
    exact absurd hxs (by simp)
  | begun hc hev hpolls _ hlun =>
    apply hof ⟨t.targetLUN, t.data, [], 0⟩
    · simp only [Target.head, hc, hev, hpolls, Option.map_some]
    · exact sound_left hlun (by intro a h; cases h) rfl rfl
    · intro hp
      cases hp
  | status e hhead _ hs _ hpolls => exact hof e hhead hs fun hp => by omega
  | message e hhead _ hs s _ hpolls => exact hof e hhead hs fun hp => by omega
  | ending e hhead _ hs s _ hpolls => exact hof e hhead hs fun hp => by omega
  | ended e hhead hs hover => exact hof e hhead hs fun _ => hover

theorem scsi_protocol {s : σ} {steps : List (Step σ)} (h : (Target.initial s).AllFollowed fs steps) :
    Protocol ((Target.initial s).run fs steps).exchanges :=
  (inv_run fs (inv_initial s) h).protocol

/-! ### A card without images -/

def bareCard : FileSystem Unit where
  readLunStatus _ _ := false
  setLunStatus _ _ start := (!start, ())
  hostRevokeLun _ _ := ()
  checkLunImage _ _ := (false, ())
  createLunImage _ _ := (false, ())
  createLunDescriptor _ _ := (false, ())
  readLunDescriptor _ _ := (false, ())
  formatLun _ _ _ := (false, ())
  openLunForRead _ _ _ _ := (false, ())
  readNextSector _ _ := (none, ())
  closeLunForRead _ _ := ()
  openLunForWrite _ _ _ _ := (false, ())
  writeNextSector _ _ _ := (false, ())
  closeLunForWrite _ _ := ()
  headsPerCylinder _ _ := 0
  lunSPTSize _ _ := 0
  lunBlockSize _ _ := 0
  lunTotalSectors _ _ := 0
  writeModePageData _ _ _ _ := ()
  copyPage0toPage4 _ _ := ()
  copyPage4toPage0 _ _ := ()
  configToLunGeometry _ _ := ()
  writeAttributes _ _ := (false, ())
  modeParamHeaderData _ _ := none
  lbaDescriptorData _ _ := none
  modePageData _ _ _ := none
  inquiryData _ _ := none
  lunDirectory _ := 0
  setLunDirectory _ _ _ := ()
  setFatDirectory _ _ := ()
  fatFileInfo _ _ := (none, ())
  openFatForRead _ _ _ := (false, ())
  readNextFatBlock _ := (none, ())
  closeFatForRead _ := ()
  fcodeWriteBuffer _ _ _ := ()
  fcodeReadBuffer _ := []
  fcodeClearBuffer _ := ()

def commandSteps (cdb : List UInt8) : List (Step Unit) :=
  [.poll ⟨some 1, [], []⟩, .poll ⟨none, cdb.map some, []⟩, .poll ⟨none, [], []⟩, .poll ⟨none, [], []⟩,
    .poll ⟨none, [], []⟩]

/-- TEST UNIT READY for a LUN that is stopped, then REQUEST SENSE. -/
theorem scsi_protocol_not_ready :
    Protocol ((Target.initial ()).run bareCard
      (commandSteps [0x00, 0, 0, 0, 0, 0] ++ commandSteps [0x03, 0, 0, 0, 4, 0])).exchanges := by
  apply scsi_protocol
  decide +kernel

/-- VERIFY for a LUN that is stopped ends in CHECK CONDITION, and REQUEST SENSE reports no error. -/
theorem verify_stopped_no_sense :
    ¬ ∀ steps : List (Step Unit), Protocol ((Target.initial ()).run bareCard steps).exchanges := by
  intro h
  have hxs : ((Target.initial ()).run bareCard
      (commandSteps [0x2F, 0, 0, 0, 0, 0, 0, 0, 0, 0] ++ commandSteps [0x03, 0, 0, 0, 4, 0])).exchanges
      = [⟨0, #v[0x03, 0, 0, 0, 4, 0, 0, 0, 0, 0],
          [.lun 0, .wrote .dataIn 0, .wrote .dataIn 0, .wrote .dataIn 0, .wrote .dataIn 0, .sense 0 0,
            .wrote .status 0, .wrote .messageIn 0], 3⟩,
        ⟨0, #v[0x2F, 0, 0, 0, 0, 0, 0, 0, 0, 0],
          [.lun 0, .wrote .status 2, .wrote .messageIn 0, .free], 5⟩] := by decide +kernel
  have hsense := (h _).sense [] _ [] _ [] hxs rfl rfl rfl nofun (by simp [Exchange.wasReset, Event.isReset]) nofun
  obtain ⟨v, hv, -⟩ := hsense
  cases hv

end Pi1MHz.ScsiTarget
