import Pi1MHz.Video
import Pi1MHz.FinSizes

/-!
# The ownership of the frame buffers

Every registered buffer is with the decoder, pending, displayed or idle, and never two of these; the one
on the display is not given to the decoder.
-/

namespace Pi1MHz.VideoPlayer

open FinSizes

open History (final history)

variable {M : Machine} {s : Video}

/-! ### Moments -/

def held (log : List Moment) (i : Fin 3) : Bool :=
  log.foldl (fun out m =>
    match m with
    | .submitted j _ => out || j == i
    | .returned j => out && j != i
    | .flipped _ => out) false

def shown (log : List Moment) : Option UInt32 :=
  log.foldl (fun last m =>
    match m with
    | .flipped phys => some phys
    | .submitted .. | .returned _ => last) none

/-- No buffer is submitted while the decoder has it, nor the one that was last put on the display. -/
inductive LogOk : List Moment → Prop
  | nil : LogOk []
  | submitted {log : List Moment} {i : Fin 3} {phys : UInt32} (hlog : LogOk log) (hheld : held log i = false)
      (hshown : shown log ≠ some phys) : LogOk (log ++ [.submitted i phys])
  | returned {log : List Moment} {i : Fin 3} (hlog : LogOk log) : LogOk (log ++ [.returned i])
  | flipped {log : List Moment} {phys : UInt32} (hlog : LogOk log) : LogOk (log ++ [.flipped phys])

@[simp] theorem held_submitted (log : List Moment) (i j : Fin 3) (phys : UInt32) :
    held (log ++ [.submitted i phys]) j = (held log j || i == j) := by
  simp [held]

@[simp] theorem held_returned (log : List Moment) (i j : Fin 3) :
    held (log ++ [.returned i]) j = (held log j && i != j) := by
  simp [held]

@[simp] theorem held_flipped (log : List Moment) (j : Fin 3) (phys : UInt32) :
    held (log ++ [.flipped phys]) j = held log j := by
  simp [held]

@[simp] theorem shown_submitted (log : List Moment) (i : Fin 3) (phys : UInt32) :
    shown (log ++ [.submitted i phys]) = shown log := by
  simp [shown]

@[simp] theorem shown_returned (log : List Moment) (i : Fin 3) :
    shown (log ++ [.returned i]) = shown log := by
  simp [shown]

@[simp] theorem shown_flipped (log : List Moment) (phys : UInt32) :
    shown (log ++ [.flipped phys]) = some phys := by
  simp [shown]

def Slot.withDecoder (o : Slot) : Bool := o.withComponent || o.inFlight

def states (s : Video) (i : Fin 3) : List Bool :=
  [(s.dec.out i).withDecoder, (s.dec.out i).phys == s.vp.pendingPhys, (s.dec.out i).phys == s.vp.displayedPhys,
    (s.dec.out i).idle]

structure Owned (M : Machine) (s : Video) : Prop where
  one : ∀ i, (s.dec.out i).registered = true → (states s i).count true = 1
  remembered : ∀ i, (s.dec.out i).registered = true → (s.dec.out i).withCaller = true →
    (s.dec.out i).phys = s.vp.pendingPhys ∨ (s.dec.out i).phys = s.vp.displayedPhys
  log : LogOk s.log
  /-- the next poll leaves no idle buffer, unless the output is down or it ends with a refused submission -/
  rearmed : ∀ a, (h264decPoll M a s).dec.outputEnabled = true →
    (∀ i, ((h264decPoll M a s).dec.out i).idle = false) ∨
      ∃ n, s.attempts ≤ n ∧ (h264decPoll M a s).attempts = n + 1 ∧ M.accepts n = false

def InitAnswer.memory (a : InitAnswer) : List UInt32 :=
  if a.file = false ∨ a.buffer0 = 0 then []
  else if a.buffer1 = 0 then [a.buffer0] else [a.buffer0, a.buffer1]

def Fresh (s : Video) : Event → Prop
  | .init a => a.memory.Nodup ∧
    (s.vp.isOpen = false → s.dec.running = true → s.dec.frameBytes ≤ a.frameBytes →
      ∀ i, (s.dec.out i).registered = true → (s.dec.out i).phys ∉ a.memory)
  | _ => True

instance (s : Video) (e : Event) : Decidable (Fresh s e) := by
  unfold Fresh
  cases e <;> infer_instance

structure Sound (s : Video) : Prop where
  apart : ∀ i j, (s.dec.out i).registered = true → (s.dec.out j).registered = true →
    (s.dec.out i).phys = (s.dec.out j).phys → i = j
  somewhere : ∀ i, (s.dec.out i).registered = true → (s.dec.out i).phys ≠ 0
  caller : ∀ i, (s.dec.out i).withCaller = true → (s.dec.out i).registered = true ∧
    (s.dec.out i).withComponent = false ∧ (s.dec.out i).inFlight = false
  component : ∀ i, (s.dec.out i).withComponent = true → (s.dec.out i).inFlight = true
  flight : ∀ i, (s.dec.out i).inFlight = true → (s.dec.out i).registered = true
  held : ∀ i, held s.log i = (s.dec.out i).inFlight
  shown : ∀ phys, shown s.log = some phys → ∃ i, (s.dec.out i).registered = true ∧
    (s.dec.out i).phys = phys ∧ (s.dec.out i).withCaller = true
  log : LogOk s.log

structure Remembers (s : Video) : Prop where
  caller : ∀ i, (s.dec.out i).registered = true → ((s.dec.out i).withCaller = true ↔
    (s.dec.out i).phys = s.vp.pendingPhys ∨ (s.dec.out i).phys = s.vp.displayedPhys)
  pending : s.vp.pendingPhys ≠ 0 → ∃ i, (s.dec.out i).registered = true ∧ (s.dec.out i).phys = s.vp.pendingPhys
  distinct : s.vp.pendingPhys ≠ 0 → s.vp.pendingPhys ≠ s.vp.displayedPhys
  shown : VideoPlayer.shown s.log = if s.vp.displayedPhys = 0 then none else some s.vp.displayedPhys

structure Live (s : Video) : Prop where
  sound : Sound s
  remembers : Remembers s
  isOpen : s.vp.isOpen = true
  running : s.dec.running = true

structure Shut (s : Video) : Prop where
  sound : Sound s
  isOpen : s.vp.isOpen = false
  outputEnabled : s.dec.outputEnabled = false
  home : ∀ i, (s.dec.out i).inFlight = false ∧ (s.dec.out i).withCaller = false
  pending : s.vp.pendingPhys = 0
  displayed : s.vp.displayedPhys = 0
  log : s.log = []

@[simp] theorem setSlot_self (i : Fin 3) (o : Slot) (s : Video) : (s.setSlot i o).dec.out i = o :=
  Function.update_self _ _ _

theorem setSlot_ne {i j : Fin 3} (h : j ≠ i) (o : Slot) (s : Video) :
    (s.setSlot i o).dec.out j = s.dec.out j :=
  Function.update_of_ne h _ _

/-! ### Arming -/

structure Kept (s s' : Video) : Prop where
  vp : s'.vp = s.vp
  running : s'.dec.running = s.dec.running
  outputEnabled : s'.dec.outputEnabled = s.dec.outputEnabled
  slots : ∀ i, (s'.dec.out i).phys = (s.dec.out i).phys ∧
    (s'.dec.out i).registered = (s.dec.out i).registered ∧
    (s'.dec.out i).withCaller = (s.dec.out i).withCaller
  shown : shown s'.log = shown s.log

theorem Kept.refl (s : Video) : Kept s s := ⟨rfl, rfl, rfl, fun _ => ⟨rfl, rfl, rfl⟩, rfl⟩

theorem Kept.trans {s' s'' : Video} (h : Kept s s') (h' : Kept s' s'') : Kept s s'' where
  vp := h'.vp.trans h.vp
  running := h'.running.trans h.running
  outputEnabled := h'.outputEnabled.trans h.outputEnabled
  slots i := ⟨(h'.slots i).1.trans (h.slots i).1, (h'.slots i).2.1.trans (h.slots i).2.1,
    (h'.slots i).2.2.trans (h.slots i).2.2⟩
  shown := h'.shown.trans h.shown

theorem Slot.idle_iff (o : Slot) : o.idle = true ↔
    o.registered = true ∧ o.withComponent = false ∧ o.withCaller = false ∧ o.inFlight = false := by
  simp [Slot.idle, and_assoc]

def Video.submit (i : Fin 3) (s : Video) : Video :=
  { s.setSlot i { s.dec.out i with inFlight := true, withComponent := true } with
    attempts := s.attempts + 1
    log := s.log ++ [.submitted i (s.dec.out i).phys] }

theorem armFrom_cons (i : Fin 3) (rest : List (Fin 3)) (s : Video) :
    armFrom M (i :: rest) s =
      if (s.dec.out i).idle = false then armFrom M rest s
      else if M.accepts s.attempts = true then armFrom M rest (s.submit i)
      else { s with attempts := s.attempts + 1 } := by
  rw [armFrom]
  split
  · rfl
  · unfold submitBuffer
    by_cases haccepts : M.accepts s.attempts = true
    · rw [if_pos haccepts, if_pos haccepts]
      simp only [Video.submit, Video.setSlot, Function.update_self, Function.update_idem]
    · rw [if_neg haccepts, if_neg haccepts]

theorem Sound.attempts (hs : Sound s) {n : Nat} : Sound { s with attempts := n } :=
  { hs with }

theorem submit_slots (i : Fin 3) (s : Video) (j : Fin 3) :
    ((s.submit i).dec.out j).phys = (s.dec.out j).phys ∧
      ((s.submit i).dec.out j).registered = (s.dec.out j).registered ∧
      ((s.submit i).dec.out j).withCaller = (s.dec.out j).withCaller := by
  by_cases hj : j = i
  · subst hj
    simp [Video.submit, Video.setSlot]
  · simp [Video.submit, Video.setSlot, Function.update_of_ne hj]

theorem submit_kept (i : Fin 3) (s : Video) : Kept s (s.submit i) where
  vp := rfl
  running := rfl
  outputEnabled := rfl
  slots := submit_slots i s
  shown := shown_submitted _ _ _

theorem Sound.submit (hs : Sound s) {i : Fin 3} (hidle : (s.dec.out i).idle = true) : Sound (s.submit i) := by
  rw [Slot.idle_iff] at hidle
  obtain ⟨hreg, hcomponent, hcaller, hflight⟩ := hidle
  have hslots := submit_slots i s
  have hother : ∀ j, j ≠ i → (s.submit i).dec.out j = s.dec.out j := fun j hj => setSlot_ne hj _ _
  have hself : (s.submit i).dec.out i = { s.dec.out i with inFlight := true, withComponent := true } :=
    setSlot_self _ _ _
  constructor
  · intro j k hj hk hphys
    rw [(hslots j).2.1] at hj
    rw [(hslots k).2.1] at hk
    rw [(hslots j).1, (hslots k).1] at hphys
    exact hs.apart j k hj hk hphys
  · intro j hj
    rw [(hslots j).2.1] at hj
    rw [(hslots j).1]
    exact hs.somewhere j hj
  · intro j hj
    rw [(hslots j).2.2] at hj
    have hne : j ≠ i := by
      rintro rfl
      rw [hcaller] at hj
      cases hj
    rw [hother j hne]
    exact hs.caller j hj
  · intro j hj
    by_cases hji : j = i
    · rw [hji, hself]
    · rw [hother j hji] at hj ⊢
      exact hs.component j hj
  · intro j hj
    rw [(hslots j).2.1]
    by_cases hji : j = i
    · rw [hji]
      exact hreg
    · rw [hother j hji] at hj
      exact hs.flight j hj
  · intro j
    change VideoPlayer.held (s.log ++ [.submitted i (s.dec.out i).phys]) j = _
    rw [held_submitted, hs.held j]
    by_cases hji : j = i
    · rw [hji, hself]
      simp
    · rw [hother j hji, beq_eq_false_iff_ne.mpr (Ne.symm hji), Bool.or_false]
  · intro phys hphys
    change VideoPlayer.shown (s.log ++ [.submitted i (s.dec.out i).phys]) = some phys at hphys
    rw [shown_submitted] at hphys
    obtain ⟨j, hj⟩ := hs.shown phys hphys
    refine ⟨j, ?_⟩
    rw [(hslots j).1, (hslots j).2.1, (hslots j).2.2]
    exact hj
  · refine hs.log.submitted ((hs.held i).trans hflight) ?_
    intro hshown
    obtain ⟨j, hj, hphys, hkept⟩ := hs.shown _ hshown
    have hji := hs.apart j i hj hreg hphys
    rw [hji, hcaller] at hkept
    cases hkept

theorem armFrom_spec (l : List (Fin 3)) (hs : Sound s) : Sound (armFrom M l s) ∧ Kept s (armFrom M l s) := by
  induction l generalizing s with
  | nil => exact ⟨hs, Kept.refl s⟩
  | cons i rest ih =>
    rw [armFrom_cons]
    split_ifs with hidle haccepts
    · exact ih hs
    · obtain ⟨hsound, hkept⟩ := ih (hs.submit (eq_true_of_ne_false hidle))
      exact ⟨hsound, (submit_kept i s).trans hkept⟩
    · exact ⟨hs.attempts, rfl, rfl, rfl, fun _ => ⟨rfl, rfl, rfl⟩, rfl⟩

theorem arm_spec (hs : Sound s) : Sound (armOutputBuffers M s) ∧ Kept s (armOutputBuffers M s) := by
  unfold armOutputBuffers
  split
  · exact ⟨hs, Kept.refl s⟩
  · exact armFrom_spec _ hs

theorem armFrom_idle (l : List (Fin 3)) (hrest : ∀ i, i ∉ l → (s.dec.out i).idle = false) :
    (∀ i, ((armFrom M l s).dec.out i).idle = false) ∨
      ∃ n, s.attempts ≤ n ∧ (armFrom M l s).attempts = n + 1 ∧ M.accepts n = false := by
  induction l generalizing s with
  | nil => exact .inl fun i => hrest i List.not_mem_nil
  | cons i rest ih =>
    rw [armFrom_cons]
    split_ifs with hidle haccepts
    · apply ih
      intro j hj
      by_cases hji : j = i
      · rw [hji]
        exact hidle
      · exact hrest j fun hmem => (List.mem_cons.mp hmem).elim hji hj
    · have harmed : ∀ j, j ∉ rest → ((s.submit i).dec.out j).idle = false := by
        intro j hj
        by_cases hji : j = i
        · rw [hji]
          simp [Video.submit, Video.setSlot, Slot.idle]
        · have hout : (s.submit i).dec.out j = s.dec.out j := setSlot_ne hji _ _
          rw [hout]
          exact hrest j fun hmem => (List.mem_cons.mp hmem).elim hji hj
      rcases ih harmed with hnone | ⟨n, hle, hn, hrefused⟩
      · exact .inl hnone
      · exact .inr ⟨n, Nat.le_trans (Nat.le_succ _) hle, hn, hrefused⟩
    · exact .inr ⟨s.attempts, Nat.le_refl _, rfl, Bool.eq_false_iff.mpr haccepts⟩

theorem mem_slots : ∀ i : Fin 3, i ∈ ([0, 1, 2] : List (Fin 3)) := by decide

theorem arm_idle (henabled : (armOutputBuffers M s).dec.outputEnabled = true) :
    (∀ i, ((armOutputBuffers M s).dec.out i).idle = false) ∨
      ∃ n, s.attempts ≤ n ∧ (armOutputBuffers M s).attempts = n + 1 ∧ M.accepts n = false := by
  unfold armOutputBuffers at henabled ⊢
  split
  · rename_i hoff
    rw [if_pos hoff, hoff] at henabled
    cases henabled
  · exact armFrom_idle _ fun i hi => absurd (mem_slots i) hi

/-! ### Recycling -/

structure Recycled (phys : UInt32) (s s' : Video) : Prop where
  sound : Sound s'
  vp : s'.vp = s.vp
  running : s'.dec.running = s.dec.running
  slots : ∀ i, (s'.dec.out i).phys = (s.dec.out i).phys ∧
    (s'.dec.out i).registered = (s.dec.out i).registered
  caller : ∀ i, (s.dec.out i).registered = true → ((s'.dec.out i).withCaller = true ↔
    (s.dec.out i).withCaller = true ∧ (s.dec.out i).phys ≠ phys)
  shown : shown s'.log = shown s.log

theorem sound_release (hs : Sound s) {i : Fin 3} (hshown : shown s.log ≠ some (s.dec.out i).phys) :
    Sound (s.setSlot i { s.dec.out i with withCaller := false }) := by
  have hslots : ∀ j, ((s.setSlot i { s.dec.out i with withCaller := false }).dec.out j) =
      { s.dec.out j with withCaller := (s.dec.out j).withCaller && decide (j ≠ i) } := by
    intro j
    by_cases hji : j = i
    · rw [hji, setSlot_self]
      simp
    · rw [setSlot_ne hji]
      simp [hji]
  constructor
  · intro j k hj hk hphys
    rw [hslots] at hj hk hphys
    rw [hslots] at hphys
    exact hs.apart j k hj hk hphys
  · intro j hj
    rw [hslots] at hj ⊢
    exact hs.somewhere j hj
  · intro j hj
    rw [hslots] at hj ⊢
    exact hs.caller j (Bool.and_eq_true_iff.mp hj).1
  · intro j hj
    rw [hslots] at hj ⊢
    exact hs.component j hj
  · intro j hj
    rw [hslots] at hj ⊢
    exact hs.flight j hj
  · intro j
    rw [hslots]
    exact hs.held j
  · intro phys hphys
    obtain ⟨j, hj, hjphys, hcaller⟩ := hs.shown phys hphys
    have hji : j ≠ i := by
      rintro rfl
      exact hshown (hphys.trans (congrArg some hjphys.symm))
    refine ⟨j, ?_⟩
    rw [hslots]
    exact ⟨hj, hjphys, by simp [hcaller, hji]⟩
  · exact hs.log

theorem recycle_spec (hs : Sound s) {phys : UInt32} (hshown : shown s.log ≠ some phys) :
    Recycled phys s (h264decRecycleOutput M phys s) := by
  unfold h264decRecycleOutput
  cases hfind : [0, 1, 2].find? fun i => (s.dec.out i).registered && (s.dec.out i).phys == phys with
  | none =>
    refine ⟨hs, rfl, rfl, fun _ => ⟨rfl, rfl⟩, ?_, rfl⟩
    intro j hj
    have hnone := List.find?_eq_none.mp hfind j (mem_slots j)
    simp only [hj, Bool.true_and, beq_iff_eq] at hnone
    exact ⟨fun h => ⟨h, hnone⟩, fun h => h.1⟩
  | some i =>
    have hfound := List.find?_some hfind
    rw [Bool.and_eq_true, beq_iff_eq] at hfound
    obtain ⟨hreg, hphys⟩ := hfound
    simp only
    split
    · obtain ⟨hsound, hkept⟩ := arm_spec (M := M) (sound_release hs (by rw [hphys]; exact hshown))
      refine ⟨hsound, hkept.vp, hkept.running, ?_, ?_, hkept.shown⟩
      · intro j
        obtain ⟨h1, h2, -⟩ := hkept.slots j
        rw [h1, h2]
        by_cases hji : j = i
        · rw [hji, setSlot_self]
          exact ⟨rfl, rfl⟩
        · rw [setSlot_ne hji]
          exact ⟨rfl, rfl⟩
      · intro j hj
        rw [(hkept.slots j).2.2]
        by_cases hji : j = i
        · rw [hji, setSlot_self, hphys]
          exact ⟨nofun, fun h => absurd rfl h.2⟩
        · rw [setSlot_ne hji]
          exact ⟨fun h => ⟨h, fun heq => hji (hs.apart j i hj hreg (heq.trans hphys.symm))⟩, fun h => h.1⟩
    · rename_i hcaller
      refine ⟨hs, rfl, rfl, fun _ => ⟨rfl, rfl⟩, ?_, rfl⟩
      intro j hj
      refine ⟨fun h => ⟨h, fun heq => ?_⟩, fun h => h.1⟩
      rw [hs.apart j i hj hreg (heq.trans hphys.symm)] at h
      exact hcaller h

/-! ### Arrivals -/

theorem Sound.withPlayer (hs : Sound s) {v : Player} : Sound { s with vp := v } :=
  { hs with }

theorem Sound.flags (hs : Sound s) {running enabled pending : Bool} {frameBytes frames : UInt32} :
    Sound { s with dec := ⟨running, enabled, pending, frameBytes, frames, s.dec.out⟩ } :=
  { hs with }

theorem Live.flags (hl : Live s) {enabled pending : Bool} {frameBytes frames : UInt32} :
    Live { s with dec := ⟨s.dec.running, enabled, pending, frameBytes, frames, s.dec.out⟩ } :=
  ⟨hl.sound.flags, ⟨hl.remembers.caller, hl.remembers.pending, hl.remembers.distinct, hl.remembers.shown⟩,
    hl.isOpen, hl.running⟩

theorem Live.withPlayer (hl : Live s) {v : Player} (hpending : v.pendingPhys = s.vp.pendingPhys)
    (hdisplayed : v.displayedPhys = s.vp.displayedPhys) (hopen : v.isOpen = s.vp.isOpen) :
    Live { s with vp := v } where
  sound := hl.sound.withPlayer
  remembers := by
    have hr := hl.remembers
    constructor
    · simp only [hpending, hdisplayed]
      exact hr.caller
    · simp only [hpending]
      exact hr.pending
    · simp only [hpending, hdisplayed]
      exact hr.distinct
    · simp only [hdisplayed]
      exact hr.shown
  isOpen := hopen.trans hl.isOpen
  running := hl.running

theorem Live.kept (hl : Live s) {s' : Video} (hs : Sound s') (hk : Kept s s') : Live s' where
  sound := hs
  remembers := by
    have hr := hl.remembers
    constructor
    · intro i hi
      rw [(hk.slots i).2.1] at hi
      rw [(hk.slots i).1, (hk.slots i).2.2, hk.vp]
      exact hr.caller i hi
    · rw [hk.vp]
      intro hne
      obtain ⟨i, hi⟩ := hr.pending hne
      refine ⟨i, ?_⟩
      rw [(hk.slots i).1, (hk.slots i).2.1]
      exact hi
    · rw [hk.vp]
      exact hr.distinct
    · rw [hk.shown, hk.vp]
      exact hr.shown
  isOpen := by
    rw [hk.vp]
    exact hl.isOpen
  running := hk.running.trans hl.running

theorem live_arm (hl : Live s) : Live (armOutputBuffers M s) :=
  hl.kept (arm_spec hl.sound).1 (arm_spec hl.sound).2

theorem live_complete (hl : Live s) (i : Fin 3) : Live (completeBuffer i s) := by
  have hs := hl.sound
  have hr := hl.remembers
  have hslots : ∀ j, (completeBuffer i s).dec.out j =
      { s.dec.out j with
        inFlight := (s.dec.out j).inFlight && decide (j ≠ i)
        withComponent := (s.dec.out j).withComponent && decide (j ≠ i) } := by
    intro j
    by_cases hji : j = i
    · subst hji
      simp [completeBuffer, Video.setSlot]
    · simp [completeBuffer, Video.setSlot, hji]
  have hlog : (completeBuffer i s).log = s.log ++ [.returned i] := rfl
  have hsound : Sound (completeBuffer i s) := by
    constructor
    · intro j k hj hk hphys
      simp only [hslots] at hj hk hphys
      exact hs.apart j k hj hk hphys
    · intro j hj
      simp only [hslots] at hj ⊢
      exact hs.somewhere j hj
    · intro j hj
      simp only [hslots] at hj ⊢
      obtain ⟨h1, h2, h3⟩ := hs.caller j hj
      exact ⟨h1, by rw [h2, Bool.false_and], by rw [h3, Bool.false_and]⟩
    · intro j hj
      simp only [hslots] at hj ⊢
      obtain ⟨h1, h2⟩ := Bool.and_eq_true_iff.mp hj
      rw [hs.component j h1, h2, Bool.and_self]
    · intro j hj
      simp only [hslots] at hj ⊢
      exact hs.flight j (Bool.and_eq_true_iff.mp hj).1
    · intro j
      simp only [hslots]
      rw [hlog, held_returned, hs.held j]
      by_cases hji : j = i
      · rw [hji]
        simp
      · simp [hji, Ne.symm hji]
    · intro phys hphys
      simp only [hslots]
      rw [hlog, shown_returned] at hphys
      exact hs.shown phys hphys
    · rw [hlog]
      exact hs.log.returned
  refine ⟨hsound, ?_, hl.isOpen, hl.running⟩
  constructor
  · intro j hj
    simp only [hslots] at hj ⊢
    exact hr.caller j hj
  · intro hne
    simp only [hslots]
    exact hr.pending hne
  · exact hr.distinct
  · rw [hlog, shown_returned]
    exact hr.shown

theorem live_frame (hl : Live s) {i : Fin 3} (hreg : (s.dec.out i).registered = true)
    (hcomponent : (s.dec.out i).withComponent = false) (hflight : (s.dec.out i).inFlight = false)
    (hcaller : (s.dec.out i).withCaller = false) (pts : UInt64) (eos : Bool) :
    Live (frameDecoded M (s.dec.out i).phys pts eos
      (s.setSlot i { s.dec.out i with withCaller := true })) := by
  have hs := hl.sound
  have hr := hl.remembers
  have hphys := hs.somewhere i hreg
  obtain ⟨hnotPending, hnotShown⟩ : (s.dec.out i).phys ≠ s.vp.pendingPhys ∧
      (s.dec.out i).phys ≠ s.vp.displayedPhys := by
    rw [← not_or, ← hr.caller i hreg, hcaller]
    exact Bool.false_ne_true
  have hslots : ∀ j, ((s.setSlot i { s.dec.out i with withCaller := true }).dec.out j) =
      { s.dec.out j with withCaller := (s.dec.out j).withCaller || decide (j = i) } := by
    intro j
    by_cases hji : j = i
    · rw [hji, setSlot_self]
      simp
    · rw [setSlot_ne hji]
      simp [hji]
  have hmarked : Sound (s.setSlot i { s.dec.out i with withCaller := true }) := by
    constructor
    · intro j k hj hk heq
      rw [hslots] at hj hk heq
      rw [hslots] at heq
      exact hs.apart j k hj hk heq
    · intro j hj
      rw [hslots] at hj ⊢
      exact hs.somewhere j hj
    · intro j hj
      rw [hslots] at hj ⊢
      rcases Bool.or_eq_true_iff.mp hj with hold | hnew
      · exact hs.caller j hold
      · rw [of_decide_eq_true hnew]
        exact ⟨hreg, hcomponent, hflight⟩
    · intro j hj
      rw [hslots] at hj ⊢
      exact hs.component j hj
    · intro j hj
      rw [hslots] at hj ⊢
      exact hs.flight j hj
    · intro j
      rw [hslots]
      exact hs.held j
    · intro phys hshown
      obtain ⟨j, h1, h2, h3⟩ := hs.shown phys hshown
      refine ⟨j, ?_⟩
      rw [hslots]
      exact ⟨h1, h2, by simp [h3]⟩
    · exact hs.log
  -- whatever is left of the pending frame before, the new one takes its place
  have hfinish : ∀ t : Video, Sound t → t.dec.running = true → t.vp.isOpen = true →
      t.vp.displayedPhys = s.vp.displayedPhys → VideoPlayer.shown t.log = VideoPlayer.shown s.log →
      (∀ j, (t.dec.out j).phys = (s.dec.out j).phys ∧ (t.dec.out j).registered = (s.dec.out j).registered) →
      (∀ j, (s.dec.out j).registered = true → ((t.dec.out j).withCaller = true ↔
        ((s.dec.out j).withCaller = true ∨ j = i) ∧ (s.dec.out j).phys ≠ s.vp.pendingPhys)) →
      Live { t with vp := { t.vp with pendingPhys := (s.dec.out i).phys, pendingPts := pts } } := by
    intro t ht hrunning hopen hdisplayed hshown hsame hkeep
    refine ⟨ht.withPlayer, ?_, hopen, hrunning⟩
    constructor
    · intro j hj
      simp only [(hsame j).2] at hj
      simp only [(hsame j).1, hdisplayed]
      rw [hkeep j hj, hr.caller j hj]
      constructor
      · rintro ⟨(hpend | hdisp) | rfl, hne⟩
        · exact absurd hpend hne
        · exact .inr hdisp
        · exact .inl rfl
      · rintro (heq | hdisp)
        · rw [hs.apart j i hj hreg heq]
          exact ⟨.inr rfl, hnotPending⟩
        · refine ⟨.inl (.inr hdisp), ?_⟩
          intro hpend
          have hne : s.vp.pendingPhys ≠ 0 := hpend ▸ hs.somewhere j hj
          exact hr.distinct hne (hpend.symm.trans hdisp)
    · intro _
      exact ⟨i, (hsame i).2.trans hreg, (hsame i).1⟩
    · intro _
      simp only [hdisplayed]
      exact hnotShown
    · simp only [hdisplayed]
      rw [hshown]
      exact hr.shown
  unfold frameDecoded
  rw [if_neg (fun h => hphys h.2)]
  simp only
  by_cases hpending : s.vp.pendingPhys = 0
  · rw [if_neg (fun h => h.1 hpending)]
    refine hfinish _ hmarked.withPlayer hl.running hl.isOpen rfl rfl ?_ ?_
    · intro j
      simp only [hslots]
      exact ⟨trivial, trivial⟩
    · intro j hj
      simp only [hslots, Bool.or_eq_true, decide_eq_true_eq]
      rw [hpending]
      exact ⟨fun h => ⟨h, hs.somewhere j hj⟩, fun h => h.1⟩
  · rw [if_pos ⟨hpending, hr.distinct hpending⟩]
    have hsafe : VideoPlayer.shown s.log ≠ some s.vp.pendingPhys := by
      rw [hr.shown]
      split
      · exact nofun
      · exact fun h => hr.distinct hpending (Option.some.inj h).symm
    have hrecycled := recycle_spec (M := M) (hmarked.withPlayer (v := s.vp.frameBack)) hsafe
    refine hfinish _ hrecycled.sound (hrecycled.running.trans hl.running) ?_ ?_ hrecycled.shown ?_ ?_
    · exact (congrArg Player.isOpen hrecycled.vp).trans hl.isOpen
    · have hdisplayed := congrArg Player.displayedPhys hrecycled.vp
      exact hdisplayed
    · intro j
      obtain ⟨h1, h2⟩ := hrecycled.slots j
      simp only [hslots] at h1 h2
      exact ⟨h1, h2⟩
    · intro j hj
      have hcall := hrecycled.caller j (by simp only [hslots]; exact hj)
      simp only [hslots, Bool.or_eq_true, decide_eq_true_eq] at hcall
      exact hcall

theorem live_bufferDone (hl : Live s) {i : Fin 3} (hreg : (s.dec.out i).registered = true)
    (hcomponent : (s.dec.out i).withComponent = false) (hflight : (s.dec.out i).inFlight = false)
    (hcaller : (s.dec.out i).withCaller = false) (length : UInt32) (eos : Bool) (pts : UInt64) :
    Live (onBufferDone M i length eos pts s) := by
  have hcounted : Live (countFrame s) := hl.flags
  unfold onBufferDone
  split
  · exact live_frame hcounted hreg hcomponent hflight hcaller pts eos
  · split
    · unfold frameDecoded
      rw [if_pos ⟨rfl, rfl⟩]
      exact hl
    · exact hl

theorem live_arrive (hl : Live s) (e : Arrival) : Live (arrive M s e) := by
  cases e with
  | returned i length eos pts =>
    change Live (if (s.dec.out i).inFlight = true then onBufferDone M i length eos pts (completeBuffer i s) else s)
    split
    · rename_i hflight
      have hcaller : (s.dec.out i).withCaller = false := by
        rw [Bool.eq_false_iff]
        intro hmarked
        rw [(hl.sound.caller i hmarked).2.2] at hflight
        cases hflight
      have hout : (completeBuffer i s).dec.out i =
          { s.dec.out i with inFlight := false, withComponent := false } := setSlot_self _ _ _
      refine live_bufferDone (live_complete hl i) ?_ ?_ ?_ ?_ length eos pts
      · rw [hout]
        exact hl.sound.flight i hflight
      · rw [hout]
      · rw [hout]
      · rw [hout]
        exact hcaller
    · exact hl
  | formatChanged => exact hl.flags

theorem live_arriveAll (arrivals : List Arrival) (hl : Live s) : Live (arriveAll M arrivals s) := by
  induction arrivals generalizing s with
  | nil => exact hl
  | cons e rest ih => exact ih (live_arrive hl e)

/-! ### The decoder layer -/

theorem live_withdrawn (hl : Live s) : Live { s with dec := { s.dec with
    outputEnabled := false
    out := fun i => { s.dec.out i with withComponent := false } } } where
  sound := by
    have hs := hl.sound
    refine { hs with caller := ?_, component := ?_ }
    · intro i hi
      obtain ⟨hreg, -, hflight⟩ := hs.caller i hi
      exact ⟨hreg, rfl, hflight⟩
    · exact nofun
  remembers := ⟨hl.remembers.caller, hl.remembers.pending, hl.remembers.distinct, hl.remembers.shown⟩
  isOpen := hl.isOpen
  running := hl.running

theorem live_disable (c : Call) (hl : Live s) : Live (disableOutput M c s) := by
  unfold disableOutput
  split
  · exact live_withdrawn (live_arriveAll c.arrivals hl)
  · exact hl

theorem live_reconfigure (a : Reconfigure) (hl : Live s) : Live (reconfigureOutput M a s).2 := by
  have hinfo : Live (arriveAll M a.info.arrivals (disableOutput M a.disable s)) :=
    live_arriveAll _ (live_disable a.disable hl)
  unfold reconfigureOutput
  simp only
  generalize arriveAll M a.info.arrivals (disableOutput M a.disable s) = down at hinfo ⊢
  by_cases hok : a.info.ok = false
  · rw [if_pos hok]
    exact hinfo
  rw [if_neg hok]
  have hset := live_arriveAll (M := M) a.setFormat.arrivals hinfo
  generalize arriveAll M a.setFormat.arrivals down = set at hset ⊢
  by_cases hok : a.setFormat.ok = false
  · rw [if_pos hok]
    exact hset
  rw [if_neg hok]
  have henable := live_arriveAll (M := M) a.enable.arrivals hset
  generalize arriveAll M a.enable.arrivals set = up at henable ⊢
  by_cases hok : a.enable.ok = false
  · rw [if_pos hok]
    exact henable
  rw [if_neg hok]
  have henabled : Live { up with dec := { up.dec with outputEnabled := true } } := henable.flags
  exact live_arm henabled

theorem live_reconfigureIfPending (a : Reconfigure) (hl : Live s) : Live (reconfigureIfPending M a s) := by
  unfold reconfigureIfPending
  split
  · have hdone : Live (reconfigureOutput M a { s with dec := { s.dec with reconfigurePending := false } }).2 :=
      live_reconfigure a hl.flags
    split
    · rename_i heq
      rw [heq] at hdone
      exact hdone
    · rename_i heq
      rw [heq] at hdone
      exact hdone.flags
  · exact hl

theorem live_resume (a : Flush) (hl : Live s) : Live (h264decResume M a s) := by
  unfold h264decResume
  split
  · exact hl
  · have hinput := live_arriveAll (M := M) a.input hl
    apply live_arm
    split
    · exact live_arriveAll a.output hinput
    · exact hinput

theorem live_decoderPoll (a : DecoderPoll) (hl : Live s) : Live (h264decPoll M a s) := by
  unfold h264decPoll
  split
  · exact hl
  · exact live_arm (live_arriveAll a.eos (live_reconfigureIfPending a.reconfigure (live_arriveAll a.arrivals hl)))

/-! ### The player -/

theorem live_flip (hl : Live s) : Live (flipPending M s) := by
  have hs := hl.sound
  have hr := hl.remembers
  unfold flipPending
  simp only
  by_cases hnone : s.vp.pendingPhys = 0
  · rw [if_pos hnone]
    exact hl
  rw [if_neg hnone]
  obtain ⟨i, hreg, hphys⟩ := hr.pending hnone
  have hflipped : Sound { s with
      vp := { s.vp with pendingPhys := 0 }
      log := s.log ++ [.flipped s.vp.pendingPhys] } := by
    refine { hs with held := ?_, shown := ?_, log := ?_ }
    · intro j
      rw [held_flipped]
      exact hs.held j
    · intro phys hshown
      rw [shown_flipped] at hshown
      cases hshown
      exact ⟨i, hreg, hphys, (hr.caller i hreg).mpr (.inl hphys)⟩
    · exact hs.log.flipped
  -- whether or not there was one on the display
  have hfinish : ∀ t : Video, Sound t → t.dec.running = true → t.vp.isOpen = true → t.vp.pendingPhys = 0 →
      VideoPlayer.shown t.log = some s.vp.pendingPhys →
      (∀ j, (t.dec.out j).phys = (s.dec.out j).phys ∧ (t.dec.out j).registered = (s.dec.out j).registered) →
      (∀ j, (s.dec.out j).registered = true → ((t.dec.out j).withCaller = true ↔
        (s.dec.out j).withCaller = true ∧ (s.dec.out j).phys ≠ s.vp.displayedPhys)) →
      Live { t with vp := { t.vp with
        displayedPhys := s.vp.pendingPhys
        curPicture := t.vp.pendingPts.toUInt32 + 1 } } := by
    intro t ht hrunning hopen hpending hshown hsame hkeep
    refine ⟨ht.withPlayer, ?_, hopen, hrunning⟩
    constructor
    · intro j hj
      simp only [(hsame j).2] at hj
      simp only [(hsame j).1, hpending]
      rw [hkeep j hj, hr.caller j hj]
      constructor
      · rintro ⟨hpend | hdisp, hne⟩
        · exact .inr hpend
        · exact absurd hdisp hne
      · rintro (hzero | hpend)
        · exact absurd hzero (hs.somewhere j hj)
        · exact ⟨.inl hpend, fun hdisp => hr.distinct hnone (hpend.symm.trans hdisp)⟩
    · exact fun hne => absurd hpending hne
    · exact fun hne => absurd hpending hne
    · simp only
      rw [hshown, if_neg hnone]
  by_cases hdisplayed : s.vp.displayedPhys = 0
  · rw [if_neg (fun h => h.1 hdisplayed)]
    refine hfinish _ hflipped hl.running hl.isOpen rfl (shown_flipped _ _) (fun _ => ⟨rfl, rfl⟩) ?_
    intro j hj
    rw [hdisplayed]
    exact ⟨fun h => ⟨h, hs.somewhere j hj⟩, fun h => h.1⟩
  · have hne : s.vp.displayedPhys ≠ s.vp.pendingPhys := fun h => hr.distinct hnone h.symm
    rw [if_pos ⟨hdisplayed, hne⟩]
    have hsafe : VideoPlayer.shown (s.log ++ [.flipped s.vp.pendingPhys]) ≠ some s.vp.displayedPhys := by
      rw [shown_flipped]
      exact fun h => hne (Option.some.inj h).symm
    have hrecycled := recycle_spec (M := M) hflipped hsafe
    refine hfinish _ hrecycled.sound (hrecycled.running.trans hl.running) ?_ ?_ ?_ hrecycled.slots hrecycled.caller
    · exact (congrArg Player.isOpen hrecycled.vp).trans hl.isOpen
    · have hpending := congrArg Player.pendingPhys hrecycled.vp
      exact hpending
    · exact hrecycled.shown.trans (shown_flipped _ _)

theorem live_feedFrame (c : Call) (frame : UInt32) (hl : Live s) : Live (feedFrame M c frame s).2 := by
  unfold feedFrame
  split
  · exact hl
  · have hfed := live_arriveAll (M := M) c.arrivals hl
    simp only
    split
    · exact hfed
    · exact hfed.withPlayer rfl rfl rfl

theorem live_feedLoop (feeds : Nat → Call) (limit : UInt32) (n k : Nat) (hl : Live s) :
    Live (feedLoop M feeds limit n k s) := by
  induction n generalizing k s with
  | zero => exact hl
  | succ n ih =>
    rw [feedLoop]
    split
    · have hfed := live_feedFrame (M := M) (feeds k) s.vp.nextFrame hl
      split
      · rename_i heq
        rw [heq] at hfed
        exact hfed
      · rename_i heq
        rw [heq] at hfed
        exact ih (k + 1) (hfed.withPlayer rfl rfl rfl)
    · exact hl

theorem live_seek (a : PlayerPoll) (hl : Live s) : Live (seekPending M a s) := by
  unfold seekPending
  split
  · exact hl
  · rename_i target _
    simp only
    have hflushed : Live (if s.vp.inFlight ≠ 0 then h264decResume M a.seekFlush s else s) := by
      split
      · exact live_resume a.seekFlush hl
      · exact hl
    have hfed := live_feedFrame (M := M) a.seekFeed target
      (hflushed.withPlayer (v := { (if s.vp.inFlight ≠ 0 then h264decResume M a.seekFlush s else s).vp with
        inFlight := 0 }) rfl rfl rfl)
    split
    · rename_i heq
      rw [heq] at hfed
      exact hfed
    · rename_i heq
      rw [heq] at hfed
      exact hfed.withPlayer rfl rfl rfl

theorem live_pollPlay (a : PlayerPoll) (hl : Live s) : Live (pollPlay M a s) := by
  unfold pollPlay
  simp only
  generalize (if s.vp.stopPicture ≠ 0 then s.vp.stopPicture else s.vp.frameCount) = limit
  have hprimed := live_feedLoop (M := M) a.feeds limit (limit - s.vp.nextFrame).toNat 0 hl
  generalize feedLoop M a.feeds limit (limit - s.vp.nextFrame).toNat 0 s = primed at hprimed ⊢
  have hflipped : Live (if primed.vp.pendingPhys ≠ 0 ∧ WrapClock.reached a.dueUs primed.vp.nextFrameDue = true then
      { flipPending M primed with vp := { (flipPending M primed).vp with
        nextFrameDue := (flipPending M primed).vp.nextFrameDue + (flipPending M primed).vp.framePeriodUs } }
      else primed) := by
    split
    · exact (live_flip hprimed).withPlayer rfl rfl rfl
    · exact hprimed
  generalize (if primed.vp.pendingPhys ≠ 0 ∧ WrapClock.reached a.dueUs primed.vp.nextFrameDue = true then
      { flipPending M primed with vp := { (flipPending M primed).vp with
        nextFrameDue := (flipPending M primed).vp.nextFrameDue + (flipPending M primed).vp.framePeriodUs } }
      else primed) = flipped at hflipped ⊢
  split
  · exact live_resume a.endFlush (hflipped.withPlayer rfl rfl rfl)
  · exact hflipped

theorem live_pollPlayRev (a : PlayerPoll) (hl : Live s) : Live (pollPlayRev M a s) := by
  have hflipped := live_flip (M := M) hl
  unfold pollPlayRev
  simp only
  split
  · split
    · have hfed := live_feedFrame (M := M) (a.feeds 0) ((flipPending M s).vp.curPicture - 2) hflipped
      split
      · rename_i heq
        rw [heq] at hfed
        exact hfed
      · rename_i heq
        rw [heq] at hfed
        exact hfed.withPlayer rfl rfl rfl
    · exact hflipped.withPlayer rfl rfl rfl
  · exact hflipped

theorem live_poll (a : PlayerPoll) (hl : Live s) : Live (videoplayerPoll M a s) := by
  unfold videoplayerPoll
  rw [if_neg (by simp [hl.isOpen])]
  have hsought := live_seek (M := M) a (live_decoderPoll (M := M) a.dec hl)
  simp only
  split
  · exact live_pollPlay a hsought
  · exact live_pollPlayRev a hsought
  · exact live_flip hsought
  · exact live_flip hsought

theorem live_goto (picture : UInt32) (op : Char) (hl : Live s) : Live (videoplayerGoto picture op s) := by
  unfold videoplayerGoto
  split
  · exact hl
  · simp only
    generalize (if s.vp.frameCount < picture then s.vp.frameCount else picture) = target
    by_cases hstop : op = 'S'
    · rw [if_pos hstop]
      exact hl.withPlayer rfl rfl rfl
    rw [if_neg hstop]
    by_cases hinfo : op = 'I'
    · rw [if_pos hinfo]
      exact hl.withPlayer rfl rfl rfl
    rw [if_neg hinfo]
    split
    · exact hl.withPlayer rfl rfl rfl
    · exact hl

theorem live_playFwd (a : Flush) (nowUs : UInt32) (hl : Live s) : Live (videoplayerPlayFwd M a nowUs s) := by
  unfold videoplayerPlayFwd
  split
  · exact hl
  · have hflushed : Live (h264decResume M a { s with vp := { s.vp with
        nextFrame := s.vp.curPicture
        inFlight := 0 } }) := live_resume a (hl.withPlayer rfl rfl rfl)
    exact hflushed.withPlayer rfl rfl rfl

theorem live_playRev (a : Flush) (nowUs : UInt32) (hl : Live s) : Live (videoplayerPlayRev M a nowUs s) := by
  unfold videoplayerPlayRev
  split
  · exact hl
  · have hflushed : Live (if s.vp.inFlight ≠ 0 then h264decResume M a s else s) := by
      split
      · exact live_resume a hl
      · exact hl
    exact hflushed.withPlayer rfl rfl rfl

theorem live_halt (hl : Live s) : Live (videoplayerHalt s) := by
  unfold videoplayerHalt
  split
  · exact hl
  · exact hl.withPlayer rfl rfl rfl

theorem live_step (delta : Int32) (hl : Live s) : Live (videoplayerStep delta s) := by
  unfold videoplayerStep
  split
  · exact hl
  · exact live_goto _ 'R' hl

/-! ### Submissions are counted -/

theorem attempts_armFrom (l : List (Fin 3)) (s : Video) : s.attempts ≤ (armFrom M l s).attempts := by
  induction l generalizing s with
  | nil => exact Nat.le_refl _
  | cons i rest ih =>
    rw [armFrom_cons]
    split_ifs
    · exact ih s
    · exact Nat.le_trans (Nat.le_succ _) (ih (s.submit i))
    · exact Nat.le_succ _

theorem attempts_arm (s : Video) : s.attempts ≤ (armOutputBuffers M s).attempts := by
  unfold armOutputBuffers
  split
  · exact Nat.le_refl _
  · exact attempts_armFrom _ s

theorem attempts_recycle (phys : UInt32) (s : Video) : s.attempts ≤ (h264decRecycleOutput M phys s).attempts := by
  unfold h264decRecycleOutput
  split
  · exact Nat.le_refl _
  · split
    · exact attempts_arm (M := M) (s.setSlot _ _)
    · exact Nat.le_refl _

theorem attempts_frame (phys : UInt32) (pts : UInt64) (eos : Bool) (s : Video) :
    s.attempts ≤ (frameDecoded M phys pts eos s).attempts := by
  unfold frameDecoded
  split
  · exact Nat.le_refl _
  · simp only
    split
    · exact attempts_recycle (M := M) s.vp.frameBack.pendingPhys { s with vp := s.vp.frameBack }
    · exact Nat.le_refl _

theorem attempts_arrive (s : Video) (e : Arrival) : s.attempts ≤ (arrive M s e).attempts := by
  cases e with
  | returned i length eos pts =>
    change s.attempts ≤ (if (s.dec.out i).inFlight = true then
      onBufferDone M i length eos pts (completeBuffer i s) else s).attempts
    split
    · unfold onBufferDone
      split
      · exact attempts_frame (M := M) _ pts eos ((countFrame (completeBuffer i s)).setSlot i _)
      · split
        · exact attempts_frame (M := M) 0 pts true (completeBuffer i s)
        · exact Nat.le_refl _
    · exact Nat.le_refl _
  | formatChanged => exact Nat.le_refl _

theorem attempts_arriveAll (arrivals : List Arrival) (s : Video) :
    s.attempts ≤ (arriveAll M arrivals s).attempts := by
  induction arrivals generalizing s with
  | nil => exact Nat.le_refl _
  | cons e rest ih => exact Nat.le_trans (attempts_arrive s e) (ih (arrive M s e))

theorem attempts_disable (c : Call) (s : Video) : s.attempts ≤ (disableOutput M c s).attempts := by
  unfold disableOutput
  split
  · exact attempts_arriveAll c.arrivals s
  · exact Nat.le_refl _

theorem attempts_reconfigure (a : Reconfigure) (s : Video) :
    s.attempts ≤ (reconfigureOutput M a s).2.attempts := by
  have hinfo := Nat.le_trans (attempts_disable (M := M) a.disable s) (attempts_arriveAll (M := M) a.info.arrivals _)
  have hset := Nat.le_trans hinfo (attempts_arriveAll (M := M) a.setFormat.arrivals _)
  have henable := Nat.le_trans hset (attempts_arriveAll (M := M) a.enable.arrivals _)
  unfold reconfigureOutput
  simp only
  by_cases hok : a.info.ok = false
  · rw [if_pos hok]
    exact hinfo
  rw [if_neg hok]
  by_cases hok : a.setFormat.ok = false
  · rw [if_pos hok]
    exact hset
  rw [if_neg hok]
  by_cases hok : a.enable.ok = false
  · rw [if_pos hok]
    exact henable
  rw [if_neg hok]
  generalize arriveAll M a.enable.arrivals (arriveAll M a.setFormat.arrivals
    (arriveAll M a.info.arrivals (disableOutput M a.disable s))) = up at henable ⊢
  exact Nat.le_trans henable (attempts_arm (M := M) { up with dec := { up.dec with outputEnabled := true } })

theorem attempts_reconfigureIfPending (a : Reconfigure) (s : Video) :
    s.attempts ≤ (reconfigureIfPending M a s).attempts := by
  unfold reconfigureIfPending
  split
  · have hdone := attempts_reconfigure (M := M) a { s with dec := { s.dec with reconfigurePending := false } }
    split
    · rename_i heq
      rw [heq] at hdone
      exact hdone
    · rename_i heq
      rw [heq] at hdone
      exact hdone
  · exact Nat.le_refl _

theorem poll_rearms (hoff : s.dec.running = false → s.dec.outputEnabled = false) (a : DecoderPoll)
    (henabled : (h264decPoll M a s).dec.outputEnabled = true) :
    (∀ i, ((h264decPoll M a s).dec.out i).idle = false) ∨
      ∃ n, s.attempts ≤ n ∧ (h264decPoll M a s).attempts = n + 1 ∧ M.accepts n = false := by
  unfold h264decPoll at henabled ⊢
  split
  · rename_i hstopped
    rw [if_pos hstopped, hoff hstopped] at henabled
    cases henabled
  · rename_i hrunning
    rw [if_neg hrunning] at henabled
    rcases arm_idle henabled with hnone | ⟨n, hle, hn, hrefused⟩
    · exact .inl hnone
    · have hpolled := Nat.le_trans (attempts_arriveAll (M := M) a.arrivals s)
        (Nat.le_trans (attempts_reconfigureIfPending (M := M) a.reconfigure _) (attempts_arriveAll (M := M) a.eos _))
      exact .inr ⟨n, Nat.le_trans hpolled hle, hn, hrefused⟩

/-! ### Setting up -/

theorem arriveAll_quiet (arrivals : List Arrival) (hquiet : ∀ i, (s.dec.out i).inFlight = false) :
    (arriveAll M arrivals s).dec.out = s.dec.out ∧
      (arriveAll M arrivals s).dec.outputEnabled = s.dec.outputEnabled := by
  induction arrivals generalizing s with
  | nil => exact ⟨rfl, rfl⟩
  | cons e rest ih =>
    cases e with
    | returned i length eos pts =>
      have hnothing : arrive M s (.returned i length eos pts) = s := by
        apply if_neg
        rw [hquiet i]
        exact Bool.false_ne_true
      change (arriveAll M rest (arrive M s _)).dec.out = _ ∧ (arriveAll M rest (arrive M s _)).dec.outputEnabled = _
      rw [hnothing]
      exact ih hquiet
    | formatChanged => exact ih (s := arrive M s .formatChanged) hquiet

def Empty (s : Video) : Prop :=
  ∀ i, (s.dec.out i).registered = false ∧ (s.dec.out i).withComponent = false ∧
    (s.dec.out i).withCaller = false ∧ (s.dec.out i).inFlight = false

theorem sound_empty (hempty : Empty s) (hlog : s.log = []) : Sound s := by
  have hnone : ∀ {b : Bool}, b = false → ∀ {p : Prop}, b = true → p := fun h _ h' =>
    absurd (h.symm.trans h') Bool.false_ne_true
  constructor
  · exact fun i _ hi _ _ => hnone (hempty i).1 hi
  · exact fun i hi => hnone (hempty i).1 hi
  · exact fun i hi => hnone (hempty i).2.2.1 hi
  · exact fun i hi => hnone (hempty i).2.1 hi
  · exact fun i hi => hnone (hempty i).2.2.2 hi
  · intro i
    rw [hlog, (hempty i).2.2.2]
    rfl
  · intro phys hphys
    rw [hlog] at hphys
    cases hphys
  · rw [hlog]
    exact .nil

theorem reset_empty (a : Reset) (hrunning : s.dec.running = true) :
    Empty (h264decReset M a s) ∧ (h264decReset M a s).dec.outputEnabled = false := by
  unfold h264decReset
  rw [if_neg (by simp [hrunning])]
  simp only
  generalize arriveAll M a.disableIn s = t
  have hdown : (if t.dec.outputEnabled = true then
      { arriveAll M a.disableOut t with
        dec := { (arriveAll M a.disableOut t).dec with outputEnabled := false } }
      else t).dec.outputEnabled = false := by
    split
    · rfl
    · rename_i hoff
      exact Bool.eq_false_iff.mpr hoff
  generalize (if t.dec.outputEnabled = true then
      { arriveAll M a.disableOut t with
        dec := { (arriveAll M a.disableOut t).dec with outputEnabled := false } }
      else t) = down at hdown ⊢
  have hquiet := arriveAll_quiet (M := M) (s := { down with dec := { down.dec with
    out := fun i => { phys := (down.dec.out i).phys } } }) a.enableIn fun _ => rfl
  constructor
  · intro i
    have hi := congrFun hquiet.1 i
    exact ⟨congrArg Slot.registered hi, congrArg Slot.withComponent hi, congrArg Slot.withCaller hi,
      congrArg Slot.inFlight hi⟩
  · exact hquiet.2.trans hdown

theorem shut_tearDown (a : InitAnswer) (hs : Live s ∨ Shut s) :
    Shut (tearDown M a s) ∧ (Empty (tearDown M a s) ∨ s.vp.isOpen = false ∧ (tearDown M a s).dec = s.dec) := by
  unfold tearDown
  simp only
  rcases hs with hl | hs
  · rw [if_pos hl.isOpen]
    obtain ⟨hempty, hoff⟩ := reset_empty (M := M) a.reset hl.running
    refine ⟨⟨sound_empty hempty rfl, rfl, hoff, ?_, rfl, rfl, rfl⟩, .inl hempty⟩
    exact fun i => ⟨(hempty i).2.2.2, (hempty i).2.2.1⟩
  · rw [if_neg (by simp [hs.isOpen])]
    refine ⟨⟨?_, rfl, hs.outputEnabled, hs.home, rfl, rfl, rfl⟩, .inr ⟨hs.isOpen, rfl⟩⟩
    have hsound : Sound { s with vp := {} } := hs.sound.withPlayer
    rw [← hs.log]
    exact hsound

theorem Shut.withPlayer (hs : Shut s) {v : Player} (hopen : v.isOpen = false) (hpending : v.pendingPhys = 0)
    (hdisplayed : v.displayedPhys = 0) : Shut { s with vp := v } :=
  ⟨hs.sound.withPlayer, hopen, hs.outputEnabled, hs.home, hpending, hdisplayed, hs.log⟩

theorem shut_decoder (width height : UInt32) (ok : Bool) (hs : Shut s) :
    Shut (h264decInit width height ok s).2 ∧ (h264decInit width height ok s).2.vp = s.vp ∧
      ((h264decInit width height ok s).1 = true → (h264decInit width height ok s).2.dec.running = true ∧
        ((s.dec.running = true ∧ (h264decInit width height ok s).2 = s) ∨ Empty (h264decInit width height ok s).2)) := by
  unfold h264decInit
  by_cases hrunning : s.dec.running = true
  · rw [if_pos hrunning]
    exact ⟨hs, rfl, fun _ => ⟨hrunning, .inl ⟨hrunning, rfl⟩⟩⟩
  rw [if_neg hrunning]
  split
  · exact ⟨hs, rfl, nofun⟩
  · have hempty : Empty { s with dec := { running := ok, frameBytes := width * height * 3 / 2 } } :=
      fun _ => ⟨rfl, rfl, rfl, rfl⟩
    refine ⟨⟨sound_empty hempty hs.log, hs.isOpen, rfl, fun _ => ⟨rfl, rfl⟩, hs.pending, hs.displayed, hs.log⟩, rfl, ?_⟩
    exact fun hok => ⟨hok, .inr hempty⟩

theorem shut_add {phys : UInt32} (size : UInt32) (hs : Shut s) (hphys : phys ≠ 0)
    (hfresh : s.dec.frameBytes ≤ size → ∀ i, (s.dec.out i).registered = true → (s.dec.out i).phys ≠ phys) :
    Shut (h264decAddOutputBuffer M phys size s).2 ∧
      (h264decAddOutputBuffer M phys size s).2.vp = s.vp ∧
      (h264decAddOutputBuffer M phys size s).2.dec.running = s.dec.running ∧
      (h264decAddOutputBuffer M phys size s).2.dec.frameBytes = s.dec.frameBytes ∧
      ∀ i, ((h264decAddOutputBuffer M phys size s).2.dec.out i).registered = true →
        ((s.dec.out i).registered = true ∧
          ((h264decAddOutputBuffer M phys size s).2.dec.out i).phys = (s.dec.out i).phys) ∨
        ((h264decAddOutputBuffer M phys size s).2.dec.out i).phys = phys := by
  unfold h264decAddOutputBuffer
  split
  · exact ⟨hs, rfl, rfl, rfl, fun i hi => .inl ⟨hi, rfl⟩⟩
  · rename_i hsize
    replace hfresh := hfresh (UInt32.not_lt.mp hsize)
    split
    · exact ⟨hs, rfl, rfl, rfl, fun i hi => .inl ⟨hi, rfl⟩⟩
    · rename_i i hfind
      have hunused : (s.dec.out i).registered = false := by
        have hfound := List.find?_some hfind
        rw [Bool.not_eq_true'] at hfound
        exact hfound
      have harm : armOutputBuffers M (s.setSlot i { s.dec.out i with phys := phys, registered := true }) =
          s.setSlot i { s.dec.out i with phys := phys, registered := true } := if_pos hs.outputEnabled
      simp only
      rw [harm]
      have hsound := hs.sound
      have hslots : ∀ j, (s.setSlot i { s.dec.out i with phys := phys, registered := true }).dec.out j =
          { s.dec.out j with
            phys := if j = i then phys else (s.dec.out j).phys
            registered := (s.dec.out j).registered || decide (j = i) } := by
        intro j
        by_cases hji : j = i
        · rw [hji, setSlot_self]
          simp
        · rw [setSlot_ne hji]
          simp [hji]
      refine ⟨⟨?_, hs.isOpen, hs.outputEnabled, ?_, hs.pending, hs.displayed, hs.log⟩, rfl, rfl, rfl, ?_⟩
      · constructor
        · intro j k hj hk hsamePhys
          simp only [hslots, Bool.or_eq_true, decide_eq_true_eq] at hj hk hsamePhys
          by_cases hji : j = i
          · by_cases hki : k = i
            · exact hji.trans hki.symm
            · rw [if_pos hji, if_neg hki] at hsamePhys
              exact absurd hsamePhys.symm (hfresh k (hk.resolve_right hki))
          · by_cases hki : k = i
            · rw [if_neg hji, if_pos hki] at hsamePhys
              exact absurd hsamePhys (hfresh j (hj.resolve_right hji))
            · rw [if_neg hji, if_neg hki] at hsamePhys
              exact hsound.apart j k (hj.resolve_right hji) (hk.resolve_right hki) hsamePhys
        · intro j hj
          simp only [hslots, Bool.or_eq_true, decide_eq_true_eq] at hj ⊢
          by_cases hji : j = i
          · rw [if_pos hji]
            exact hphys
          · rw [if_neg hji]
            exact hsound.somewhere j (hj.resolve_right hji)
        · intro j hj
          simp only [hslots] at hj
          rw [(hs.home j).2] at hj
          cases hj
        · intro j hj
          simp only [hslots] at hj ⊢
          exact hsound.component j hj
        · intro j hj
          simp only [hslots] at hj
          rw [(hs.home j).1] at hj
          cases hj
        · intro j
          simp only [hslots]
          exact hsound.held j
        · intro shownPhys hshown
          change VideoPlayer.shown s.log = some shownPhys at hshown
          rw [hs.log] at hshown
          cases hshown
        · exact hsound.log
      · intro j
        simp only [hslots]
        exact hs.home j
      · intro j hj
        simp only [hslots, Bool.or_eq_true, decide_eq_true_eq] at hj ⊢
        by_cases hji : j = i
        · rw [if_pos hji]
          exact .inr rfl
        · rw [if_neg hji]
          exact .inl ⟨hj.resolve_right hji, rfl⟩

theorem live_open (hs : Shut s) (hrunning : s.dec.running = true) {v : Player} (hopen : v.isOpen = true)
    (hpending : v.pendingPhys = 0) (hdisplayed : v.displayedPhys = 0) : Live { s with vp := v } where
  sound := hs.sound.withPlayer
  remembers := by
    constructor
    · intro i hi
      simp only [hpending, hdisplayed, (hs.home i).2]
      constructor
      · exact nofun
      · rintro (hzero | hzero)
        · exact absurd hzero (hs.sound.somewhere i hi)
        · exact absurd hzero (hs.sound.somewhere i hi)
    · exact fun hne => absurd hpending hne
    · exact fun hne => absurd hpending hne
    · simp only [hdisplayed]
      rw [hs.log]
      rfl
  isOpen := hopen
  running := hrunning

theorem shut_buffers {a : InitAnswer} (hs : Shut s) (hrunning : s.dec.running = true) (hfile : a.file ≠ false)
    (hbytes : s.vp.frameBytes = a.frameBytes) (hnodup : a.memory.Nodup)
    (hfresh : s.dec.frameBytes ≤ a.frameBytes →
      ∀ i, (s.dec.out i).registered = true → (s.dec.out i).phys ∉ a.memory) :
    Live (setUpBuffers M a s) ∨ Shut (setUpBuffers M a s) := by
  unfold setUpBuffers
  by_cases hfirst : a.buffer0 = 0
  · rw [if_pos hfirst]
    exact .inr hs
  rw [if_neg hfirst]
  simp only
  have hmem : a.buffer0 ∈ a.memory := by
    unfold InitAnswer.memory
    rw [if_neg (not_or.mpr ⟨hfile, hfirst⟩)]
    split
    · exact List.mem_singleton_self _
    · exact List.mem_cons_self
  obtain ⟨hone, hvp, hrunning', hframe, hregistered⟩ := shut_add (M := M) s.vp.frameBytes hs hfirst
    fun hsize i hi heq => hfresh (hbytes ▸ hsize) i hi (heq ▸ hmem)
  generalize (h264decAddOutputBuffer M a.buffer0 s.vp.frameBytes s).2 = one at hone hvp hrunning' hframe hregistered ⊢
  by_cases hsecond : a.buffer1 = 0
  · rw [if_pos hsecond]
    exact .inr hone
  rw [if_neg hsecond]
  have hboth : a.memory = [a.buffer0, a.buffer1] := by
    unfold InitAnswer.memory
    rw [if_neg (not_or.mpr ⟨hfile, hfirst⟩), if_neg hsecond]
  rw [hboth] at hnodup
  have hne : a.buffer0 ≠ a.buffer1 := fun heq => (List.nodup_cons.mp hnodup).1 (List.mem_singleton.mpr heq)
  have hother : one.dec.frameBytes ≤ one.vp.frameBytes →
      ∀ i, (one.dec.out i).registered = true → (one.dec.out i).phys ≠ a.buffer1 := by
    intro hsize i hi heq
    rw [hframe, hvp, hbytes] at hsize
    rcases hregistered i hi with ⟨hold, hphys⟩ | hphys
    · apply hfresh hsize i hold
      rw [← hphys, heq, hboth]
      exact List.mem_cons_of_mem _ List.mem_cons_self
    · exact hne (hphys.symm.trans heq)
  obtain ⟨htwo, hvp', hrunning'', -, -⟩ := shut_add (M := M) one.vp.frameBytes hone hsecond hother
  exact .inl (live_goto 1 'R' (live_open htwo (hrunning''.trans (hrunning'.trans hrunning)) rfl htwo.pending
    htwo.displayed))

theorem init_kept (a : InitAnswer) (hs : Live s ∨ Shut s) (hfresh : Fresh s (.init a)) :
    Live (videoplayerInit M a s) ∨ Shut (videoplayerInit M a s) := by
  obtain ⟨hnodup, hfresh⟩ := hfresh
  obtain ⟨hshut, hleft⟩ := shut_tearDown (M := M) a hs
  unfold videoplayerInit
  simp only
  generalize tearDown M a s = t at hshut hleft ⊢
  by_cases hfile : a.file = false
  · rw [if_pos hfile]
    exact .inr hshut
  rw [if_neg hfile]
  have hprepared : Shut { t with vp := { t.vp with
      frameCount := a.frameCount
      frameBytes := a.frameBytes
      framePeriodUs := a.framePeriodUs } } := hshut.withPlayer hshut.isOpen hshut.pending hshut.displayed
  obtain ⟨hdecoder, hvp, hran⟩ := shut_decoder a.width a.height a.decoder hprepared
  split
  · rename_i heq
    rw [heq] at hdecoder
    exact .inr hdecoder
  · rename_i heq
    rw [heq] at hdecoder hvp hran
    obtain ⟨hrunning, hsame⟩ := hran rfl
    refine shut_buffers hdecoder hrunning hfile ?_ hnodup ?_
    · rw [hvp]
    · intro hsize i hi
      have hnot : ∀ {u : Video}, Empty u → ¬ (u.dec.out i).registered = true := fun hempty h =>
        absurd ((hempty i).1.symm.trans h) Bool.false_ne_true
      rcases hsame with ⟨hold, rfl⟩ | hempty
      · rcases hleft with hempty | ⟨hclosed, hdec⟩
        · exact absurd hi (hnot hempty)
        · simp only [hdec] at hold hsize hi ⊢
          exact hfresh hclosed hold hsize i hi
      · exact absurd hi (hnot hempty)

/-! ### Every run -/

theorem step_closed (hclosed : s.vp.isOpen = false) (e : Event) : step M s e = s ∨ ∃ a, e = .init a := by
  cases e with
  | init a => exact .inr ⟨a, rfl⟩
  | poll a => exact .inl (if_pos hclosed)
  | goto picture op => exact .inl (if_pos (.inl hclosed))
  | playFwd a nowUs => exact .inl (if_pos (.inl hclosed))
  | playRev a nowUs => exact .inl (if_pos hclosed)
  | halt => exact .inl (if_pos hclosed)
  | pause => exact .inl (if_pos hclosed)
  | stepBy delta => exact .inl (if_pos (.inl hclosed))

theorem step_kept (e : Event) (hs : Live s ∨ Shut s) (hfresh : Fresh s e) : Live (step M s e) ∨ Shut (step M s e) := by
  rcases hs with hl | hs
  · cases e with
    | init a => exact init_kept a (.inl hl) hfresh
    | poll a => exact .inl (live_poll a hl)
    | goto picture op => exact .inl (live_goto picture op hl)
    | playFwd a nowUs => exact .inl (live_playFwd a nowUs hl)
    | playRev a nowUs => exact .inl (live_playRev a nowUs hl)
    | halt => exact .inl (live_halt hl)
    | pause => exact .inl (live_halt hl)
    | stepBy delta => exact .inl (live_step delta hl)
  · rcases step_closed (M := M) hs.isOpen e with hsame | ⟨a, rfl⟩
    · rw [hsame]
      exact .inr hs
    · exact init_kept a (.inr hs) hfresh

theorem owned_of_live (hl : Live s) : Owned M s := by
  have hs := hl.sound
  have hr := hl.remembers
  constructor
  · intro i hreg
    unfold states
    by_cases hcaller : (s.dec.out i).withCaller = true
    · obtain ⟨-, hcomponent, hflight⟩ := hs.caller i hcaller
      have hdecoder : (s.dec.out i).withDecoder = false := by simp [Slot.withDecoder, hcomponent, hflight]
      have hidle : (s.dec.out i).idle = false := by simp [Slot.idle, hcaller]
      rw [hdecoder, hidle]
      rcases (hr.caller i hreg).mp hcaller with hpending | hdisplayed
      · have hne : (s.dec.out i).phys ≠ s.vp.displayedPhys := fun h =>
          hr.distinct (hpending ▸ hs.somewhere i hreg) (hpending.symm.trans h)
        rw [beq_iff_eq.mpr hpending, beq_eq_false_iff_ne.mpr hne]
        rfl
      · have hne : (s.dec.out i).phys ≠ s.vp.pendingPhys := fun h =>
          hr.distinct (h ▸ hs.somewhere i hreg) (h.symm.trans hdisplayed)
        rw [beq_iff_eq.mpr hdisplayed, beq_eq_false_iff_ne.mpr hne]
        rfl
    · obtain ⟨hpending, hdisplayed⟩ := not_or.mp (mt (hr.caller i hreg).mpr hcaller)
      rw [beq_eq_false_iff_ne.mpr hpending, beq_eq_false_iff_ne.mpr hdisplayed]
      have hidle : (s.dec.out i).idle = !(s.dec.out i).withDecoder := by
        simp [Slot.idle, Slot.withDecoder, hreg, hcaller]
      rw [hidle]
      cases (s.dec.out i).withDecoder
      · rfl
      · rfl
  · exact fun i hreg hcaller => (hr.caller i hreg).mp hcaller
  · exact hs.log
  · exact poll_rearms fun hstopped => absurd (hl.running.symm.trans hstopped) (by decide)

theorem owned_of_shut (hs : Shut s) : Owned M s := by
  constructor
  · intro i hreg
    obtain ⟨hflight, hcaller⟩ := hs.home i
    have hcomponent : (s.dec.out i).withComponent = false := by
      rw [Bool.eq_false_iff]
      intro h
      rw [hs.sound.component i h] at hflight
      cases hflight
    have hidle : (s.dec.out i).idle = true := (s.dec.out i).idle_iff.mpr ⟨hreg, hcomponent, hcaller, hflight⟩
    have hne := hs.sound.somewhere i hreg
    unfold states Slot.withDecoder
    rw [hs.pending, hs.displayed, beq_eq_false_iff_ne.mpr hne, hidle, hcomponent, hflight]
    rfl
  · intro i _ hcaller
    rw [(hs.home i).2] at hcaller
    cases hcaller
  · exact hs.sound.log
  · exact poll_rearms fun _ => hs.outputEnabled

/-- In every run whose set-ups are given fresh memory, every registered buffer is in one state at every
moment. -/
theorem frame_buffers_owned (M : Machine) (events : List Event)
    (hfresh : ∀ st ∈ History.history (step M) {} events, Fresh st.pre st.op) :
    ∀ st ∈ History.history (step M) {} events, Owned M st.post := by
  have hstart : Shut {} :=
    ⟨sound_empty (fun _ => ⟨rfl, rfl, rfl, rfl⟩) rfl, rfl, rfl, fun _ => ⟨rfl, rfl⟩, rfl, rfl, rfl⟩
  intro st hst
  have hall := (History.guarded_induction (step M) (fun t => Live t ∨ Shut t) Fresh (.inr hstart)
    (fun t e ht he => step_kept e ht he) events hfresh).2 st hst
  rw [hall.2]
  rcases step_kept (M := M) st.op hall.1 (hfresh st hst) with hl | hs
  · exact owned_of_live hl
  · exact owned_of_shut hs

/-- A set-up that gets `buffer0` and `buffer1`, for a picture of 32 by 16. -/
def setUp (buffer0 buffer1 : UInt32) : Event :=
  .init ⟨⟨[], [], []⟩, true, 32, 16, 10, 40000, true, buffer0, buffer1⟩

def pollWith (arrivals : List Arrival) : Event :=
  .poll ⟨⟨arrivals, ⟨⟨[], true⟩, ⟨[], true⟩, ⟨[], true⟩, ⟨[], true⟩⟩, []⟩, ⟨[], []⟩, ⟨[], true⟩, 0, fun _ => ⟨[], true⟩,
    0, ⟨[], []⟩⟩

def showing : List Event :=
  [setUp 0x1000 0x2000, pollWith [.formatChanged], pollWith [.returned 0 768 true 0],
    pollWith [.returned 1 768 true 1, .formatChanged], pollWith [.returned 0 0 false 0, .returned 0 768 true 2],
    setUp 0x1000 0x2000, pollWith []]

theorem frame_buffers_owned_showing :
    (∃ st ∈ History.history (step ⟨fun n => n % 3 != 2⟩) {} showing, st.post.vp.displayedPhys ≠ 0) ∧
      ∀ st ∈ History.history (step ⟨fun n => n % 3 != 2⟩) {} showing, Owned ⟨fun n => n % 3 != 2⟩ st.post :=
  ⟨by decide +kernel, frame_buffers_owned ⟨fun n => n % 3 != 2⟩ showing (by decide +kernel)⟩

/-- The first set-up gets one buffer only and gives it back, and the second one is given the same memory: the
decoder has the buffer that is on the display. -/
theorem frame_buffer_shared :
    ∃ st ∈ History.history (step ⟨fun _ => true⟩) {}
        [setUp 0x1000 0, setUp 0x1000 0x2000, pollWith [.formatChanged], pollWith [.returned 1 768 true 0]],
      ¬ Owned ⟨fun _ => true⟩ st.post := by
  have hshared : ∃ st ∈ History.history (step ⟨fun _ => true⟩) {}
      [setUp 0x1000 0, setUp 0x1000 0x2000, pollWith [.formatChanged], pollWith [.returned 1 768 true 0]],
      (st.post.dec.out 0).registered = true ∧ (states st.post 0).count true ≠ 1 := by
    decide +kernel
  obtain ⟨st, hst, hreg, hcount⟩ := hshared
  exact ⟨st, hst, fun howned => hcount (howned.one 0 hreg)⟩

end Pi1MHz.VideoPlayer
