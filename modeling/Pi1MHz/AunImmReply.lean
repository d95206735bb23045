import Pi1MHz.AunEmulator
import Pi1MHz.AunImmediateOnce

/-!
# A reply goes to the immediate the host polled

The host takes a held immediate with IMM_POLL, executes it and posts its answer with
IMM_REPLY, any number of events later.  By then the immediate may have been reaped, INIT
may have wiped the slot, and other immediates may have been through it.
-/

namespace Pi1MHz.Aun

open History (Step)

variable (T : Transport) (J : Board)

/-! ### What one event does to the slot -/

def Inert (h h' : HostImm) : Prop := h' = h ∨ h' = h.release ∨ h' = HostImm.zero

theorem Inert.refl (h : HostImm) : Inert h h := Or.inl rfl

theorem Inert.of_eq {h h' : HostImm} (heq : h' = h) : Inert h h' := Or.inl heq

theorem Inert.trans {h₁ h₂ h₃ : HostImm} (a : Inert h₁ h₂) (b : Inert h₂ h₃) : Inert h₁ h₃ := by
  rcases b with rfl | rfl | rfl
  · exact a
  · rcases a with rfl | rfl | rfl
    · exact Or.inr (Or.inl rfl)
    · exact Or.inr (Or.inl rfl)
    · exact Or.inr (Or.inr rfl)
  · exact Or.inr (Or.inr rfl)

structure Fills (h h' : HostImm) : Prop where
  free : h.active = false
  held : h'.active = true
  gen : h'.gen = h.gen + 1
  polledGen : h'.polledGen = h.polledGen

theorem HimmStep.slot {e e' : Engine} {op : Op} (hs : HimmStep T e op e') :
    Inert e.himm e'.himm ∨ (∃ ipBe port buf, op = .udpInput ipBe port buf) ∧ Fills e.himm e'.himm := by
  cases hs with
  | kept hsame => exact Or.inl (.of_eq hsame.himm)
  | reset hhimm => exact Or.inl (Or.inr (Or.inr hhimm))
  | switched hhimm => exact Or.inl (Or.inr (Or.inl hhimm))
  | replied _ hhimm => exact Or.inl (Or.inr (Or.inl hhimm))
  | reaped _ _ hhimm => exact Or.inl (Or.inr (Or.inl hhimm))
  | held _ _ hidle _ hhimm =>
    exact Or.inr ⟨⟨_, _, _, rfl⟩, hidle, by rw [hhimm]; rfl, by rw [hhimm]; rfl, by rw [hhimm]; rfl⟩
  | replayed _ _ _ _ hhimm => exact Or.inl (.of_eq hhimm)

theorem exec_inert (e : Engine) (op : Op) (hop : ∀ ipBe port buf, op ≠ .udpInput ipBe port buf) :
    Inert e.himm (exec T e op).2.himm := by
  rcases (exec_himm T e op).slot T with h | ⟨⟨ipBe, port, buf, hin⟩, -⟩
  · exact h
  · exact absurd hin (hop ipBe port buf)

@[simp] theorem jimStore_himm (e : Engine) (off : UInt32) (bytes : List UInt8) :
    (jimStore J e off bytes).himm = e.himm := rfl

@[simp] theorem jimWrite32_himm (e : Engine) (off v : UInt32) : (jimWrite32 J e off v).himm = e.himm :=
  rfl

theorem aunMapAdd_himm (e : Engine) (net stn : UInt8) (ipBe : UInt32) (udpPort : UInt16) :
    (aunMapAdd e net stn ipBe udpPort).2.himm = e.himm := by
  rw [aunMapAdd_eq]
  rfl

theorem addMapEntries_himm (e : Engine) (entries : List (UInt8 × UInt8 × UInt32 × UInt16)) :
    (addMapEntries e entries).himm = e.himm := by
  induction entries generalizing e with
  | nil => rfl
  | cons entry rest ih =>
    obtain ⟨net, stn, ipBe, udpPort⟩ := entry
    have hadd := aunMapAdd_himm e net stn ipBe udpPort
    simp only [addMapEntries]
    split_ifs
    · exact (ih _).trans hadd
    · exact hadd

theorem initEngine_himm (e : Engine) (env : Surroundings) (stn net : UInt8) (hostImm : Bool) :
    (initEngine e env stn net hostImm).himm = HostImm.zero := by
  have haddr : ∀ e, (initAddressing e env).himm = e.himm := by
    intro e
    unfold initAddressing
    split_ifs <;> rfl
  simp only [initEngine, haddr, addMapEntries_himm]
  cases env.machine <;> rfl

theorem cmdInit_inert (em : Emulator) (env : Surroundings) (cp : UInt32) :
    Inert em.aun.himm (cmdInit J em env cp).2.aun.himm := by
  unfold cmdInit
  dsimp only
  split_ifs
  · exact .refl _
  · exact .refl _
  · exact Or.inr (Or.inr (initEngine_himm _ _ _ _ _))

theorem cmdRxPoll_himm (e : Engine) (cp : UInt32) : (cmdRxPoll T J e cp).2.himm = e.himm := by
  have hpoll := (aunRxPoll_rest T e (jimRam J e (cp + 1))).toSameHimm.himm
  unfold cmdRxPoll
  dsimp only
  split
  · exact hpoll
  · exact hpoll

theorem cmdImmReply_inert (e : Engine) (cp : UInt32) :
    Inert e.himm (cmdImmReply T J e cp).2.himm := by
  unfold cmdImmReply
  dsimp only
  split_ifs
  · exact .refl _
  · exact exec_inert T e (.himmReply _) (by simp)
  · exact .refl _

theorem cmdTx_inert (e : Engine) (cp : UInt32) : Inert e.himm (cmdTx T J e cp).2.himm := by
  unfold cmdTx
  dsimp only
  split_ifs
  · exact .refl _
  · exact exec_inert T e (.txStart _ _ _ _ _) (by simp)

theorem cmdRxOpen_inert (e : Engine) (cp : UInt32) : Inert e.himm (cmdRxOpen J e cp).2.himm := by
  unfold cmdRxOpen
  dsimp only
  split_ifs
  · exact .refl _
  · exact .of_eq (aunRxOpen_rest e _ _ _ _ _ _).toSameHimm.himm

theorem cmdBcast_inert (e : Engine) (cp : UInt32) : Inert e.himm (cmdBcast T J e cp).2.himm := by
  unfold cmdBcast
  dsimp only
  split_ifs
  · exact .refl _
  · exact exec_inert T e (.broadcast _ _ _) (by simp)

theorem cmdImmediate_inert (e : Engine) (cp : UInt32) :
    Inert e.himm (cmdImmediate T J e cp).2.himm := by
  unfold cmdImmediate
  dsimp only
  split_ifs
  · exact .refl _
  · exact exec_inert T e (.immediate _ _ _ _ _ _) (by simp)

theorem cmdTxPoll_inert (e : Engine) (cp : UInt32) : Inert e.himm (cmdTxPoll J e cp).2.himm := by
  unfold cmdTxPoll
  dsimp only
  split_ifs
  · exact .of_eq (jimWrite32_himm J e _ _)
  · exact .refl _

theorem cmdStatus_inert (e : Engine) (env : Surroundings) (cp : UInt32) :
    Inert e.himm (cmdStatus J e env cp).2.himm := by
  refine .of_eq ?_
  simp [cmdStatus]

def HostImm.polled (h : HostImm) : HostImm := { h with polledGen := h.gen }

def Emulator.posted (em : Emulator) : Option Command :=
  if em.pending then Command.ofByte (jimRam J em.aun em.pendingCp) else none

def takesImm (em : Emulator) (ev : Event) : Bool :=
  match ev with
  | .poll _ => decide (em.posted J = some .immPoll) && em.aun.himm.active
  | _ => false

theorem himmPolled_polled (e : Engine) : (himmPolled e).himm = e.himm.polled := rfl

theorem cmdImmPoll_himm (e : Engine) (cp : UInt32) :
    (cmdImmPoll J e cp).2.himm = if e.himm.active then e.himm.polled else e.himm := by
  unfold cmdImmPoll
  cases hact : e.himm.active with
  | false => rw [if_pos rfl, if_neg (by decide)]
  | true => rw [if_neg (by decide), if_pos rfl, himmPolled_polled, jimStore_himm, jimWrite32_himm,
      jimStore_himm]

theorem executeCommand_inert (em : Emulator) (env : Surroundings) (cp : UInt32)
    (cmd : Option Command) (hcmd : cmd ≠ some .immPoll) :
    Inert em.aun.himm (executeCommand T J em env cp cmd).2.aun.himm := by
  cases cmd with
  | none => exact .refl _
  | some cmd =>
    cases cmd with
    | init => exact cmdInit_inert J em env cp
    | status => exact cmdStatus_inert J em.aun env cp
    | tx => exact cmdTx_inert _ J em.aun cp
    | txPoll => exact cmdTxPoll_inert J em.aun cp
    | rxOpen => exact cmdRxOpen_inert J em.aun cp
    | rxPoll => exact .of_eq (cmdRxPoll_himm _ J em.aun cp)
    | rxClose => exact .of_eq (aunRxClose_rest em.aun _).toSameHimm.himm
    | bcast => exact cmdBcast_inert _ J em.aun cp
    | immediate => exact cmdImmediate_inert _ J em.aun cp
    | mapAdd => exact .of_eq (aunMapAdd_himm em.aun _ _ _ _)
    | test => exact .refl _
    | setMachine => exact .refl _
    | rxDone => exact .of_eq (aunRxCollect_rest _ em.aun _ _).toSameHimm.himm
    | immPoll => exact absurd rfl hcmd
    | immReply => exact cmdImmReply_inert _ J em.aun cp

theorem serveMailbox_slot (em : Emulator) (env : Surroundings) :
    Inert (if decide (em.posted J = some .immPoll) && em.aun.himm.active then em.aun.himm.polled
        else em.aun.himm)
      (serveMailbox T J em env).aun.himm := by
  unfold serveMailbox Emulator.posted
  split_ifs with hpending htakes
  · simp only [Bool.and_eq_true, decide_eq_true_eq] at htakes
    simp only [aunExecute, htakes.1]
    refine .of_eq ((cmdImmPoll_himm J em.aun em.pendingCp).trans ?_)
    rw [if_pos htakes.2]
  · by_cases hcmd : Command.ofByte (jimRam J em.aun em.pendingCp) = some .immPoll
    · simp only [aunExecute, hcmd]
      refine .of_eq ((cmdImmPoll_himm J em.aun em.pendingCp).trans ?_)
      rw [if_neg]
      simpa [hcmd] using htakes
    · exact executeCommand_inert T J { em with pending := false } env em.pendingCp _ hcmd
  · simp_all
  · exact .refl _

theorem pollEngine_inert (em : Emulator) : Inert em.aun.himm (pollEngine T em).aun.himm := by
  have hpoll := exec_inert (T.through em.pcb) em.aun .poll (by simp)
  unfold pollEngine aunIrqUpdate
  split_ifs
  · exact hpoll.trans (exec_inert T _ (.rxReady 0) (by simp))
  · exact hpoll

theorem emulatorStep_slot (em : Emulator) (ev : Event) :
    Inert (if takesImm J em ev then em.aun.himm.polled else em.aun.himm)
        (emulatorStep T J em ev).aun.himm ∨
      Fills em.aun.himm (emulatorStep T J em ev).aun.himm := by
  cases ev with
  | reset => exact Or.inl (.refl _)
  | write off bytes => exact Or.inl (.refl _)
  | command cp addr => exact Or.inl (.refl _)
  | poll env =>
    exact Or.inl ((serveMailbox_slot T J em.beginEvent env).trans (pollEngine_inert T _))
  | recv ipBe port buf =>
    simp only [takesImm, Bool.false_eq_true, if_false, emulatorStep, handle, aunUdpRecv]
    split_ifs
    · rcases (exec_himm (T.through em.pcb) em.aun.beginCall (.udpInput ipBe port buf)).slot _ with
        h | ⟨-, h⟩
      · exact Or.inl h
      · exact Or.inr h
    · exact Or.inl (.refl _)

/-! ### How far the slot has moved on -/

/-- `gen` is ahead of `polledGen` by `k`, one for each of at most `n` immediates held
    since, and by at least one if one of them is still in the slot. -/
def Ahead (n : Nat) (h : HostImm) : Prop :=
  ∃ k ≤ n, h.gen = h.polledGen + UInt32.ofNat k ∧ (h.active = true → 1 ≤ k)

theorem Ahead.mono {n n' : Nat} {h : HostImm} (ha : Ahead n h) (hn : n ≤ n') : Ahead n' h := by
  obtain ⟨k, hk, hgen, hact⟩ := ha
  exact ⟨k, hk.trans hn, hgen, hact⟩

theorem ahead_zero {h : HostImm} (hgen : h.gen = h.polledGen) (hact : h.active = false) :
    Ahead 0 h := by
  refine ⟨0, le_rfl, by simpa using hgen, fun h' => ?_⟩
  rw [hact] at h'
  cases h'

theorem Ahead.inert {n : Nat} {h h' : HostImm} (ha : Ahead n h) (hi : Inert h h') : Ahead n h' := by
  rcases hi with rfl | rfl | rfl
  · exact ha
  · obtain ⟨k, hk, hgen, -⟩ := ha
    exact ⟨k, hk, hgen, fun hact => by cases hact⟩
  · exact (ahead_zero rfl rfl).mono (Nat.zero_le n)

theorem Ahead.fills {n : Nat} {h h' : HostImm} (ha : Ahead n h) (hf : Fills h h') :
    Ahead (n + 1) h' := by
  obtain ⟨k, hk, hgen, -⟩ := ha
  refine ⟨k + 1, by omega, ?_, fun _ => by omega⟩
  rw [hf.gen, hf.polledGen, hgen, UInt32.ofNat_add, UInt32.add_assoc]
  rfl

theorem Ahead.not_polled {n : Nat} {h : HostImm} (ha : Ahead n h) (hn : n < 2 ^ 32) :
    ¬(h.active = true ∧ h.gen = h.polledGen) := by
  rintro ⟨hact, heq⟩
  obtain ⟨k, hk, hgen, hpos⟩ := ha
  have hzero : UInt32.ofNat k = 0 := by
    rw [hgen] at heq
    simpa using heq
  have hk0 : k = 0 := by
    have := congrArg UInt32.toNat hzero
    rw [UInt32.toNat_ofNat_of_lt' (by simp [UInt32.size]; omega)] at this
    simpa using this
  have := hpos hact
  omega

/-! ### A reply and the poll it answers -/

def replyFits (e : Engine) (cp : UInt32) : Bool :=
  aunBufferOk (jimRead32 J e (cp + 8)) (jimRead32 J e (cp + 12)) &&
    decide ((jimRead32 J e (cp + 12)).toNat ≤ AUN_HIMM_MAX)

/-- An IMM_POLL that succeeds and an IMM_REPLY posted as its answer, with the events
    before and in between; `pollEnv` and `replyEnv` are the surroundings in which the
    main loop executes the two. -/
structure HostReply where
  before : List Event
  pollEnv : Surroundings
  between : List Event
  replyEnv : Surroundings

namespace HostReply

variable (mem : Nat → UInt8) (x : HostReply)

def pollState : Emulator := History.final (emulatorStep T J) (Emulator.boot mem) x.before

def imm : HostImm := (x.pollState T J mem).aun.himm

def takenState : Emulator := emulatorStep T J (x.pollState T J mem) (.poll x.pollEnv)

def replyState : Emulator := History.final (emulatorStep T J) (x.takenState T J mem) x.between

def steps : List (Step Emulator Event) :=
  History.history (emulatorStep T J) (x.takenState T J mem) x.between

def served : Emulator := serveMailbox T J (x.replyState T J mem).beginEvent x.replyEnv

def payload : List UInt8 :=
  discBytes J (x.replyState T J mem).aun
    (jimRead32 J (x.replyState T J mem).aun ((x.replyState T J mem).pendingCp + 8))
    (jimRead32 J (x.replyState T J mem).aun ((x.replyState T J mem).pendingCp + 12))

def Fits : Prop :=
  replyFits J (x.replyState T J mem).aun (x.replyState T J mem).pendingCp = true

def StillHeld : Prop :=
  (x.takenState T J mem).aun.himm.active = true ∧
    ∀ st ∈ x.steps T J mem, st.post.aun.himm.active = true

def heldSince : Nat :=
  (x.steps T J mem).countP fun st => !st.pre.aun.himm.active && st.post.aun.himm.active

/-- The poll succeeds, it is the last one that does before the reply, and the reply is in
    the mailbox. -/
structure Posted : Prop where
  took : takesImm J (x.pollState T J mem) (.poll x.pollEnv) = true
  latest : ∀ st ∈ x.steps T J mem, takesImm J st.pre st.op = false
  posted : (x.replyState T J mem).posted J = some .immReply

end HostReply

theorem slot_since_poll (em : Emulator) {h : HostImm} (ops : List Event)
    (hstart : Inert h.polled em.aun.himm) (hheld : h.active = true)
    (hnone : ∀ st ∈ History.history (emulatorStep T J) em ops, takesImm J st.pre st.op = false) :
    ((em.aun.himm.active = true ∧
        ∀ st ∈ History.history (emulatorStep T J) em ops, st.post.aun.himm.active = true) →
      (History.final (emulatorStep T J) em ops).aun.himm = h.polled) ∧
    (¬(em.aun.himm.active = true ∧
        ∀ st ∈ History.history (emulatorStep T J) em ops, st.post.aun.himm.active = true) →
      Ahead ((History.history (emulatorStep T J) em ops).countP fun st =>
          !st.pre.aun.himm.active && st.post.aun.himm.active)
        (History.final (emulatorStep T J) em ops).aun.himm) := by
  induction ops using List.reverseRecOn with
  | nil =>
    simp only [History.history_nil, History.final_nil, List.not_mem_nil, false_implies,
      implies_true, and_true, List.countP_nil]
    rcases hstart with hsame | hrel | hzero
    · exact ⟨fun _ => hsame, fun hgone => absurd (by rw [hsame]; exact hheld) hgone⟩
    · refine ⟨fun hact => ?_, fun _ => ahead_zero (by rw [hrel]; rfl) (by rw [hrel]; rfl)⟩
      rw [hrel] at hact
      cases hact
    · refine ⟨fun hact => ?_, fun _ => ahead_zero (by rw [hzero]; rfl) (by rw [hzero]; rfl)⟩
      rw [hzero] at hact
      cases hact
  | append_singleton ops ev ih =>
    rw [History.history_snoc] at hnone
    obtain ⟨ihHeld, ihGone⟩ := ih fun st hst => hnone st (List.mem_append_left _ hst)
    have hlast := hnone _ (List.mem_append_right _ (List.mem_singleton_self _))
    rw [History.history_snoc, History.final_snoc]
    generalize History.final (emulatorStep T J) em ops = t at *
    have hslot := emulatorStep_slot T J t ev
    rw [hlast] at hslot
    simp only [Bool.false_eq_true, if_false] at hslot
    simp only [List.mem_append, List.mem_singleton, List.countP_append, List.countP_singleton]
    constructor
    · rintro ⟨hact, hall⟩
      have hbefore := ihHeld ⟨hact, fun st hst => hall st (Or.inl hst)⟩
      have hafter := hall _ (Or.inr rfl)
      rcases hslot with (hsame | hrel | hzero) | hfill
      · rw [hsame, hbefore]
      · rw [hrel] at hafter
        cases hafter
      · rw [hzero] at hafter
        cases hafter
      · -- a slot in use is not filled
        have hfree := hfill.free
        rw [hbefore] at hfree
        exact absurd (hheld.symm.trans hfree) (by decide)
    · intro hgone
      by_cases hwas : em.aun.himm.active = true ∧
          ∀ st ∈ History.history (emulatorStep T J) em ops, st.post.aun.himm.active = true
      · -- this is the event with which it leaves
        have hbefore := ihHeld hwas
        rcases hslot with (hsame | hrel | hzero) | hfill
        · refine absurd ⟨hwas.1, ?_⟩ hgone
          rintro st (hst | rfl)
          · exact hwas.2 st hst
          · rw [hsame, hbefore]
            exact hheld
        · rw [hrel, hbefore]
          exact (ahead_zero rfl rfl).mono (Nat.zero_le _)
        · rw [hzero]
          exact (ahead_zero rfl rfl).mono (Nat.zero_le _)
        · have hfree := hfill.free
          rw [hbefore] at hfree
          exact absurd (hheld.symm.trans hfree) (by decide)
      · rcases hslot with hinert | hfill
        · exact ((ihGone hwas).inert hinert).mono (Nat.le_add_right _ _)
        · refine ((ihGone hwas).fills hfill).mono ?_
          simp [hfill.free, hfill.held]

/-! ### Where a reply goes -/

theorem aunHimmReply_out (e : Engine) (data : List UInt8) (hact : e.himm.active = true) :
    ∃ ok, (aunHimmReply T e data).io.out =
      e.io.out ++ [.sent e.himm.ipBe e.himm.port (e.himm.replyDgram data) ok] := by
  refine ⟨udpSendOk T e, ?_⟩
  unfold aunHimmReply HostImm.replyDgram
  rw [if_neg (by rw [hact]; decide)]
  split_ifs <;> simp

theorem serveMailbox_immReply (em : Emulator) (env : Surroundings)
    (hposted : em.posted J = some .immReply) :
    (serveMailbox T J em env).aun = (cmdImmReply (T.through em.pcb) J em.aun em.pendingCp).2 := by
  unfold Emulator.posted at hposted
  split_ifs at hposted with hpending
  simp only [serveMailbox, hpending, if_true, aunExecute, hposted]
  rfl

theorem cmdImmReply_dropped (e : Engine) (cp : UInt32)
    (hstale : ¬(e.himm.active = true ∧ e.himm.gen = e.himm.polledGen)) :
    (cmdImmReply T J e cp).2 = e := by
  unfold cmdImmReply
  dsimp only
  split_ifs
  · rfl
  · rfl

theorem cmdImmReply_out (e : Engine) (cp : UInt32) (hact : e.himm.active = true)
    (hgen : e.himm.gen = e.himm.polledGen) :
    (replyFits J e cp = true →
      ∃ ok, (cmdImmReply T J e cp).2.io.out = e.io.out ++
        [.sent e.himm.ipBe e.himm.port
          (e.himm.replyDgram
            (discBytes J e (jimRead32 J e (cp + 8)) (jimRead32 J e (cp + 12)))) ok]) ∧
    (¬replyFits J e cp = true → (cmdImmReply T J e cp).2 = e) := by
  have hcheck : replyFits J e cp = true ↔
      ¬(aunBufferOk (jimRead32 J e (cp + 8)) (jimRead32 J e (cp + 12)) = false ∨
        (jimRead32 J e (cp + 12)).toNat > AUN_HIMM_MAX) := by
    simp [replyFits]
  unfold cmdImmReply
  dsimp only
  refine ⟨fun hfits => ?_, fun hfits => ?_⟩
  · rw [if_neg (hcheck.mp hfits), if_pos ⟨hact, hgen⟩]
    exact aunHimmReply_out T e _ hact
  · rw [if_pos (not_not.mp (mt hcheck.mpr hfits))]

/-- A reply is sent only while the immediate of the host's last successful IMM_POLL is
    still held, and then to the address and sequence of that immediate; once it has been
    reaped, answered or wiped by INIT, and whatever has been held since, a reply leaves
    the engine as it is. -/
theorem reply_answers_polled (mem : Nat → UInt8) (x : HostReply) (hx : x.Posted T J mem)
    (hfew : x.heldSince T J mem < 2 ^ 32) :
    (x.StillHeld T J mem → x.Fits T J mem →
      ∃ ok, (x.served T J mem).aun.io.out =
        [.sent (x.imm T J mem).ipBe (x.imm T J mem).port
          ((x.imm T J mem).replyDgram (x.payload T J mem)) ok]) ∧
    (¬(x.StillHeld T J mem ∧ x.Fits T J mem) →
      (x.served T J mem).aun = (x.replyState T J mem).aun.beginCall) := by
  have htook := hx.took
  have hslot := emulatorStep_slot T J (x.pollState T J mem) (.poll x.pollEnv)
  rw [htook] at hslot
  simp only [takesImm, Bool.and_eq_true] at htook
  have hstart : Inert (x.imm T J mem).polled (x.takenState T J mem).aun.himm := by
    rcases hslot with h | h
    · exact h
    · exact absurd (htook.2.symm.trans h.free) (by decide)
  obtain ⟨hheld, hgone⟩ := slot_since_poll T J (x.takenState T J mem) x.between hstart htook.2
    hx.latest
  have hserved : (x.served T J mem).aun =
      (cmdImmReply (T.through (x.replyState T J mem).pcb) J (x.replyState T J mem).aun.beginCall
        (x.replyState T J mem).pendingCp).2 :=
    serveMailbox_immReply T J _ _ hx.posted
  rw [hserved]
  by_cases hstill : x.StillHeld T J mem
  · have hfrom : (x.replyState T J mem).aun.beginCall.himm = (x.imm T J mem).polled := hheld hstill
    have hout := cmdImmReply_out (T.through (x.replyState T J mem).pcb) J
      (x.replyState T J mem).aun.beginCall (x.replyState T J mem).pendingCp
      (by rw [hfrom]; exact htook.2) (by rw [hfrom]; rfl)
    rw [hfrom] at hout
    refine ⟨fun _ hfits => hout.1 hfits, fun hnot => hout.2 ?_⟩
    exact fun hfits => hnot ⟨hstill, hfits⟩
  · exact ⟨fun h => absurd h hstill,
      fun _ => cmdImmReply_dropped _ J _ _ ((hgone hstill).not_polled hfew)⟩

def Board.small : Board := ⟨1, 2⟩

def Surroundings.plain : Surroundings :=
  ⟨true, true, 0, 0, true, false, none, none, none, [], none⟩

def runCommand (block : List UInt8) : List Event :=
  [.write 0x10000 block, .command 0x10000 0, .poll .plain]

def firstImmediate : List Event :=
  runCommand [30, 1, 0, 0, 0, 0, 0, 0, 2] ++ [.recv 0x0100007F 32768 [5, 0, 6, 0, 4, 0, 0, 0]]

def replyBlock : List UInt8 := [44, 0, 0, 0, 0, 0, 0, 0, 0, 0, 0, 0, 0, 0, 0, 0]

def answeredOnce : HostReply where
  before := firstImmediate ++ [.write 0x10000 [43], .command 0x10000 0]
  pollEnv := .plain
  between := [.write 0x10000 replyBlock, .command 0x10000 0]
  replyEnv := .plain

/-- The reply reaches the sender under the immediate's sequence. -/
theorem reply_answers_polled_once :
    (answeredOnce.imm .steady .small fun _ => 0).ipBe = 0x0100007F ∧
      (answeredOnce.imm .steady .small fun _ => 0).seq = 4 ∧
      ∃ ok, (answeredOnce.served .steady .small fun _ => 0).aun.io.out =
        [.sent (answeredOnce.imm .steady .small fun _ => 0).ipBe
          (answeredOnce.imm .steady .small fun _ => 0).port
          ((answeredOnce.imm .steady .small fun _ => 0).replyDgram
            (answeredOnce.payload .steady .small fun _ => 0)) ok] :=
  ⟨by decide +kernel, by decide +kernel,
    (reply_answers_polled .steady .small (fun _ => 0) answeredOnce
      ⟨by decide +kernel, by decide +kernel, by decide +kernel⟩ (by decide +kernel)).1
      ⟨by decide +kernel, by decide +kernel⟩ (by unfold HostReply.Fits; decide +kernel)⟩

/-! ### The generation count wraps -/

/-- Six seconds between two clock reads: a held immediate is reaped at the next poll, and
    its cached outcome has expired by the next arrival. -/
def Transport.slow : Transport := ⟨fun k => 6000 * k, fun _ => true⟩

structure Waiting (em : Emulator) (gen polledGen : UInt32) : Prop where
  pcb : em.pcb = true
  idle : em.pending = false
  noIrq : em.irqEnabled = false
  ready : em.aun.initialised = true
  enabled : em.aun.hostImmEnabled = true
  noTx : em.aun.tx.state ≠ .pending
  free : em.aun.himm.active = false
  expired : WrapClock.reached (Transport.slow.now em.aun.io.reads) em.aun.himmCache.dueMs = true
  gen : em.aun.himm.gen = gen
  polledGen : em.aun.himm.polledGen = polledGen

/-- An emulator that holds an immediate since clock read `k`. -/
structure Holding (em : Emulator) (h : HostImm) (k : Nat) : Prop where
  pcb : em.pcb = true
  idle : em.pending = false
  noIrq : em.irqEnabled = false
  ready : em.aun.initialised = true
  enabled : em.aun.hostImmEnabled = true
  noTx : em.aun.tx.state ≠ .pending
  himm : em.aun.himm = h
  reads : em.aun.io.reads = k + 1

theorem slow_reached (k ttl : Nat) (hle : ttl ≤ 6000) :
    WrapClock.reached (Transport.slow.now (k + 1)) (Transport.slow.now k + UInt32.ofNat ttl) = true := by
  unfold Transport.now
  refine (WrapClock.reached_of_elapsed _ _ _ ?_).mpr ?_
  · simp only [Transport.slow]
    omega
  · simp only [Transport.slow]
    omega

section

variable {em : Emulator} {g p : UInt32} {ipBe : UInt32} {port : UInt16} {buf : List UInt8}
  {aunPort ctrl : UInt8} {seq : UInt32} {data : List UInt8}

theorem Waiting.hold {e : Engine} (hw : Waiting em g p) (hready : e.initialised = em.aun.initialised)
    (henabled : e.hostImmEnabled = em.aun.hostImmEnabled) (htx : e.tx = em.aun.tx)
    (hhimm : e.himm = em.aun.himm) :
    Holding (em.withAun (himmHold (Transport.slow.through em.pcb) e false ctrl seq ipBe port data))
      (em.aun.himm.hold false ctrl seq ipBe port (Transport.slow.now e.io.reads) data)
      e.io.reads where
  pcb := by simpa using hw.pcb
  idle := by simpa using hw.idle
  noIrq := by simpa using hw.noIrq
  ready := by simpa using hready.trans hw.ready
  enabled := by simpa using henabled.trans hw.enabled
  noTx := by simpa [htx] using hw.noTx
  himm := by simp [hhimm, HostImm.hold, nowMs, Transport.now, Transport.through]
  reads := by simp

theorem Waiting.recv (hw : Waiting em g p) (ipBe : UInt32) (port : UInt16) (hd : ImmData buf false aunPort ctrl seq data)
    (hlen : buf.length ≤ AUN_HDR_SIZE + AUN_MAX_DATA) (hwant : data.length ≤ AUN_HIMM_MAX)
    (hok : himmLenOk ctrl data = true) :
    ∃ k, Holding (emulatorStep .slow J em (.recv ipBe port buf))
      (em.aun.himm.hold false ctrl seq ipBe port (Transport.slow.now k) data) k := by
  have hstep : emulatorStep .slow J em (.recv ipBe port buf) =
      em.withAun (immFresh (Transport.slow.through em.pcb) (countImm em.aun.beginCall) ipBe port
        aunPort ctrl seq data) := by
    have hwanted : immWanted em.aun.beginCall ctrl data = true := by
      have henabled : em.aun.beginCall.hostImmEnabled = true := hw.enabled
      simp [immWanted, henabled, hwant, hok]
    have hfree : em.aun.beginCall.himm.active = false := hw.free
    have hin : aunUdpInput (Transport.slow.through em.pcb) em.aun.beginCall ipBe port buf =
        inputImmediate (Transport.slow.through em.pcb) em.aun.beginCall ipBe port aunPort ctrl seq
          data := aunUdpInput_imm5 _ hw.ready hd
    simp only [emulatorStep, handle, aunUdpRecv]
    rw [if_pos ⟨hw.pcb, hlen⟩]
    simp only [Emulator.beginEvent, Emulator.withAun] at hin ⊢
    rw [hin, inputImmediate, if_neg hd.kind.2, if_pos hwanted, hfree]
    rfl
  rw [hstep]
  unfold immFresh
  split_ifs with harmed hhit
  · -- the cached outcome has expired
    have hlive : himmCacheHit (countImm em.aun.beginCall)
        (nowMs (Transport.slow.through em.pcb) (countImm em.aun.beginCall)) ipBe port seq = false := by
      have hexpired : WrapClock.reached (nowMs (Transport.slow.through em.pcb)
          (countImm em.aun.beginCall)) (countImm em.aun.beginCall).himmCache.dueMs = true :=
        hw.expired
      rw [himmCacheHit, hexpired]
      rfl
    rw [hlive] at hhit
    cases hhit
  · exact ⟨_, hw.hold rfl rfl rfl rfl⟩
  · exact ⟨_, hw.hold rfl rfl rfl rfl⟩

theorem Holding.poll {h : HostImm} {k : Nat} (hh : Holding em h k) (hact : h.active = true)
    (hdue : h.dueMs = Transport.slow.now k + AUN_HIMM_TIMEOUT_MS) (env : Surroundings) :
    Waiting (emulatorStep .slow J em (.poll env)) h.gen h.polledGen := by
  have hreap : aunPoll (Transport.slow.through em.pcb) em.aun.beginCall =
      himmExpire (Transport.slow.through em.pcb) (tick em.aun.beginCall) := by
    have hready : em.aun.beginCall.initialised = true := hh.ready
    have hheld : em.aun.beginCall.himm.active = true := by
      rw [show em.aun.beginCall.himm = h from hh.himm, hact]
    have hreached : WrapClock.reached (nowMs (Transport.slow.through em.pcb) em.aun.beginCall)
        em.aun.beginCall.himm.dueMs = true := by
      rw [show em.aun.beginCall.himm = h from hh.himm, hdue, nowMs,
        show em.aun.beginCall.io.reads = k + 1 from hh.reads]
      exact slow_reached k 1000 (by decide)
    have htx : (himmExpire (Transport.slow.through em.pcb) (tick em.aun.beginCall)).tx.state ≠
        .pending := by
      have htx : em.aun.beginCall.tx.state ≠ .pending := hh.noTx
      simpa [himmExpire] using htx
    rw [aunPoll, hready, if_neg (by decide), himmReap, if_pos hheld, if_pos hreached, txPoll,
      if_pos htx]
  have hstep : emulatorStep .slow J em (.poll env) =
      { em.withAun (himmExpire (Transport.slow.through em.pcb) (tick em.aun.beginCall)) with
        irqState := 0 } := by
    have hidle : em.beginEvent.pending = false := hh.idle
    have hnoIrq : em.beginEvent.irqEnabled = false := hh.noIrq
    rw [← hreap]
    simp only [emulatorStep, handle, aunEmulatorPoll, serveMailbox, hidle, Bool.false_eq_true,
      if_false, pollEngine, aunIrqUpdate]
    rw [if_neg (by simpa using hnoIrq)]
    rfl
  have hready : em.aun.beginCall.initialised = true := hh.ready
  have henabled : em.aun.beginCall.hostImmEnabled = true := hh.enabled
  have htx : em.aun.beginCall.tx.state ≠ .pending := hh.noTx
  have hhimm : em.aun.beginCall.himm = h := hh.himm
  have hexpired := slow_reached (em.aun.beginCall.io.reads + 1) 6000 le_rfl
  generalize em.aun.beginCall = e at *
  rw [hstep]
  exact {
    pcb := by simpa using hh.pcb
    idle := by simpa using hh.idle
    noIrq := by simpa using hh.noIrq
    ready := by simpa [himmExpire] using hready
    enabled := by simpa [himmExpire] using henabled
    noTx := by simpa [himmExpire] using htx
    free := by simp [himmExpire]
    expired := by
      simpa [himmExpire, nowMs, Transport.now, Transport.through, AUN_HIMM_CACHE_MS] using hexpired
    gen := by simp [himmExpire, hhimm]
    polledGen := by simp [himmExpire, hhimm] }

end

/-- Another peer's immediate is held and reaped, `n` times over. -/
def reapedTimes : Nat → List Event
  | 0 => []
  | n + 1 => .recv 0x0200007F 32768 [5, 0, 6, 0, 8, 0, 0, 0] :: .poll .plain :: reapedTimes n

theorem otherImmediate : ImmData [5, 0, 6, 0, 8, 0, 0, 0] false 0 6 8 [] :=
  ⟨by decide, by decide, by decide, by decide, by decide, by decide⟩

theorem Waiting.reaped {em : Emulator} {g p : UInt32} (hw : Waiting em g p) (n : Nat) :
    Waiting (History.final (emulatorStep .slow J) em (reapedTimes n)) (g + UInt32.ofNat n) p ∧
      ∀ st ∈ History.history (emulatorStep .slow J) em (reapedTimes n),
        takesImm J st.pre st.op = false := by
  induction n generalizing em g with
  | zero => exact ⟨by simpa [reapedTimes] using hw, by simp [reapedTimes]⟩
  | succ n ih =>
    obtain ⟨k, hheld⟩ := hw.recv J 0x0200007F 32768 otherImmediate
      (by decide) (by decide) (by decide)
    have hnext := hheld.poll J rfl rfl .plain
    rw [HostImm.hold_gen, HostImm.hold_polledGen, hw.gen, hw.polledGen] at hnext
    obtain ⟨hfinal, hnone⟩ := ih hnext
    have hgen : g + 1 + UInt32.ofNat n = g + UInt32.ofNat (n + 1) := by
      rw [UInt32.ofNat_add, UInt32.add_assoc, UInt32.add_comm 1]
      rfl
    rw [hgen] at hfinal
    refine ⟨hfinal, ?_⟩
    simp only [reapedTimes, History.history, List.mem_cons]
    rintro st (rfl | rfl | hst)
    · rfl
    · have hidle := hheld.idle
      simp [takesImm, Emulator.posted, hidle]
    · exact hnone st hst

/-- The events up to an answer posted when `n` more immediates have been reaped and
    another one is held. -/
def lateReply (n : Nat) : List Event :=
  reapedTimes n ++
    [.recv 0x0300007F 32768 [5, 0, 6, 0, 12, 0, 0, 0], .write 0x10000 replyBlock,
      .command 0x10000 0]

/-- The host polls the first immediate, which is then reaped; it posts its answer when
    `n` more have been reaped and another one is held. -/
def answeredAfter (n : Nat) : HostReply where
  before := firstImmediate ++ [.write 0x10000 [43], .command 0x10000 0]
  pollEnv := .plain
  between := lateReply n
  replyEnv := .plain

theorem answeredAfter_waiting (n : Nat) :
    Waiting ((answeredAfter n).takenState .slow .small fun _ => 0) 1 1 := by
  change Waiting ((answeredAfter 0).takenState .slow .small fun _ => 0) 1 1
  constructor <;> decide +kernel

theorem lateImmediate : ImmData [5, 0, 6, 0, 12, 0, 0, 0] false 0 6 12 [] :=
  ⟨by decide, by decide, by decide, by decide, by decide, by decide⟩

def Emulator.withReply (em : Emulator) : Emulator :=
  History.final (emulatorStep .slow .small) em [.write 0x10000 replyBlock, .command 0x10000 0]

theorem withReply_mem (em : Emulator) :
    em.withReply.aun.io.mem = writeMem em.aun.io.mem 65537 replyBlock := rfl

theorem withReply_himm (em : Emulator) : em.withReply.aun.himm = em.aun.himm := by
  simp only [Emulator.withReply, History.final_cons, History.final_nil, emulatorStep, handle,
    aunEmulatorCommand, Emulator.beginEvent, Emulator.withAun_aun, Engine.beginCall, jimStore_himm]

theorem withReply_cp (em : Emulator) : em.withReply.pendingCp = 0x10000 := rfl

theorem withReply_posted (em : Emulator) : em.withReply.posted .small = some .immReply := by
  have hpending : em.withReply.pending = true := rfl
  have haddr : Board.small.addr 0x10000 = 65537 := by decide
  have hbyte : jimRam .small em.withReply.aun em.withReply.pendingCp = 44 := by
    rw [jimRam, withReply_cp, haddr, withReply_mem]
    simp [writeMem, replyBlock]
  rw [Emulator.posted, hpending, if_pos rfl, hbyte]
  decide

theorem withReply_block (em : Emulator) :
    jimRead32 .small em.withReply.aun (em.withReply.pendingCp + 8) = 0 ∧
      jimRead32 .small em.withReply.aun (em.withReply.pendingCp + 12) = 0 := by
  have haddr : Board.small.addr (0x10000 + 8) = 65545 := by decide
  have haddr' : Board.small.addr (0x10000 + 12) = 65549 := by decide
  rw [jimRead32, jimRead32, withReply_cp, haddr, haddr', withReply_mem]
  simp [readMem, writeMem, replyBlock, List.range_succ, rd32le]

theorem withReply_out (em : Emulator) (env : Surroundings) (hact : em.aun.himm.active = true)
    (hgen : em.aun.himm.gen = em.aun.himm.polledGen) :
    ∃ ok, (serveMailbox .slow .small em.withReply.beginEvent env).aun.io.out =
      [.sent em.aun.himm.ipBe em.aun.himm.port (em.aun.himm.replyDgram []) ok] := by
  obtain ⟨hoff, hlen⟩ := withReply_block em
  have hbytes : discBytes .small em.withReply.aun.beginCall 0 0 = [] := rfl
  have hhimm : em.withReply.aun.beginCall.himm = em.aun.himm := withReply_himm em
  have hnone : em.withReply.aun.beginCall.io.out = [] := rfl
  have hfits : replyFits .small em.withReply.aun.beginCall em.withReply.pendingCp = true := by
    change replyFits .small em.withReply.aun em.withReply.pendingCp = true
    rw [replyFits, hoff, hlen]
    decide
  obtain ⟨ok, hout⟩ := (cmdImmReply_out (Transport.slow.through em.withReply.pcb) .small
    em.withReply.aun.beginCall em.withReply.pendingCp hact hgen).1 hfits
  refine ⟨ok, ?_⟩
  rw [serveMailbox_immReply .slow .small em.withReply.beginEvent env (withReply_posted em)]
  refine hout.trans ?_
  rw [show jimRead32 .small em.withReply.aun.beginCall (em.withReply.pendingCp + 8) = 0 from hoff,
    show jimRead32 .small em.withReply.aun.beginCall (em.withReply.pendingCp + 12) = 0 from hlen,
    hbytes, hhimm, hnone, List.nil_append]

theorem final_lateReply (em : Emulator) (n : Nat) :
    History.final (emulatorStep .slow .small) em (lateReply n) =
      (emulatorStep .slow .small (History.final (emulatorStep .slow .small) em (reapedTimes n))
        (.recv 0x0300007F 32768 [5, 0, 6, 0, 12, 0, 0, 0])).withReply := by
  rw [lateReply, History.final_append, History.final_cons, Emulator.withReply]

theorem Waiting.lateReply_none {em : Emulator} {g p : UInt32} (hw : Waiting em g p) (n : Nat) :
    ∀ st ∈ History.history (emulatorStep .slow .small) em (lateReply n),
      takesImm .small st.pre st.op = false := by
  intro st hst
  rw [lateReply, History.history_append, List.mem_append] at hst
  rcases hst with hst | hst
  · exact (hw.reaped .small n).2 st hst
  · simp only [History.history, List.mem_cons, List.not_mem_nil, or_false] at hst
    rcases hst with rfl | rfl | rfl <;> rfl

theorem Waiting.lateReply_out {em : Emulator} {g : UInt32} (hw : Waiting em g g) (n : Nat)
    (hn : UInt32.ofNat n + 1 = 0) (env : Surroundings) :
    ∃ ok, (serveMailbox .slow .small (History.final (emulatorStep .slow .small) em
        (lateReply n)).beginEvent env).aun.io.out =
      [.sent 0x0300007F 32768 [6, 0, 6, 0, 12, 0, 0, 0] ok] := by
  obtain ⟨hwait, -⟩ := hw.reaped .small n
  obtain ⟨k, hheld⟩ := hwait.recv .small 0x0300007F 32768 lateImmediate
    (by decide) (by decide) (by decide)
  have hhimm := hheld.himm
  have hround : (History.final (emulatorStep .slow .small) em (reapedTimes n)).aun.himm.gen + 1 =
      (History.final (emulatorStep .slow .small) em (reapedTimes n)).aun.himm.polledGen := by
    rw [hwait.gen, hwait.polledGen, UInt32.add_assoc, hn, UInt32.add_zero]
  obtain ⟨ok, hout⟩ := withReply_out _ env (by rw [hhimm]; rfl) (by rw [hhimm]; exact hround)
  rw [final_lateReply]
  refine ⟨ok, ?_⟩
  rw [hout, hhimm]
  simp only [HostImm.replyDgram, HostImm.hold_ipBe, HostImm.hold_port, HostImm.hold_fromData,
    HostImm.hold_ctrl, HostImm.hold_seq, Bool.false_eq_true, if_false, List.take_nil,
    List.append_nil, List.cons.injEq, Effect.sent.injEq, true_and, and_true]
  decide

theorem answeredAfter_posted (n : Nat) : (answeredAfter n).Posted .slow .small (fun _ => 0) where
  took := by
    change takesImm .small ((answeredAfter 0).pollState .slow .small fun _ => 0)
      (.poll (answeredAfter 0).pollEnv) = true
    decide +kernel
  latest := (answeredAfter_waiting n).lateReply_none n
  posted := by
    unfold HostReply.replyState
    have hend := final_lateReply ((answeredAfter n).takenState .slow .small fun _ => 0) n
    rw [show (answeredAfter n).between = lateReply n from rfl, hend]
    exact withReply_posted _

theorem answeredAfter_out (n : Nat) (hn : UInt32.ofNat n + 1 = 0) :
    ∃ ok, ((answeredAfter n).served .slow .small fun _ => 0).aun.io.out =
      [.sent 0x0300007F 32768 [6, 0, 6, 0, 12, 0, 0, 0] ok] :=
  (answeredAfter_waiting n).lateReply_out n hn .plain

theorem answeredAfter_imm (n : Nat) :
    ((answeredAfter n).imm .slow .small fun _ => 0).ipBe = 0x0100007F ∧
      ((answeredAfter n).imm .slow .small fun _ => 0).seq = 4 := by
  change ((answeredAfter 0).imm .slow .small fun _ => 0).ipBe = 0x0100007F ∧
    ((answeredAfter 0).imm .slow .small fun _ => 0).seq = 4
  decide +kernel

/-- The reply to an immediate that was reaped long ago goes to the sender of the one that
    is held when the 32-bit count has come round. -/
theorem stale_reply_sent :
    (answeredAfter (2 ^ 32 - 1)).Posted .slow .small (fun _ => 0) ∧
      ¬(answeredAfter (2 ^ 32 - 1)).StillHeld .slow .small (fun _ => 0) ∧
      ((answeredAfter (2 ^ 32 - 1)).imm .slow .small fun _ => 0).ipBe = 0x0100007F ∧
      ((answeredAfter (2 ^ 32 - 1)).imm .slow .small fun _ => 0).seq = 4 ∧
      ∃ ok, ((answeredAfter (2 ^ 32 - 1)).served .slow .small fun _ => 0).aun.io.out =
        [.sent 0x0300007F 32768 [6, 0, 6, 0, 12, 0, 0, 0] ok] := by
  have hround : UInt32.ofNat (2 ^ 32 - 1) + 1 = 0 := by decide
  generalize 2 ^ 32 - 1 = n at *
  refine ⟨answeredAfter_posted n, fun hstill => ?_, (answeredAfter_imm n).1,
    (answeredAfter_imm n).2, answeredAfter_out n hround⟩
  exact absurd ((answeredAfter_waiting n).free.symm.trans hstill.1) (by decide)

end Pi1MHz.Aun
