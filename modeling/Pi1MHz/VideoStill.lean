import Pi1MHz.VideoSteady
import Pi1MHz.FinSizes

/-!
# Still pictures

Which picture the player shows, over a decoder that gives back what it is sent in order, unless it is flushed.
The model of `Video` lets any frame arrive at any time; here the access units that go to the decoder and come
back from it are read off a run, in the order in which they do, so that a run over such a decoder can be told
from others.
-/

namespace Pi1MHz.VideoPlayer

open FinSizes

open History (final)

/-- An access unit goes to the decoder, its picture comes back in the buffer at an address, or all that the
decoder has is thrown away. -/
inductive Traffic where
  | sent (pts : UInt64)
  | back (phys : UInt32) (pts : UInt64)
  | flushed
  deriving DecidableEq

structure Pipeline where
  queue : List UInt64
  picture : UInt32 → UInt64

def Pipeline.note (p : Pipeline) : Traffic → Option Pipeline
  | .sent pts => some { p with queue := p.queue ++ [pts] }
  | .back phys pts =>
    match p.queue with
    | [] => none
    | oldest :: queue => if oldest = pts then some ⟨queue, Function.update p.picture phys pts⟩ else none
  | .flushed => some { p with queue := [] }

def Pipeline.noteAll : Pipeline → List Traffic → Option Pipeline
  | p, [] => some p
  | p, t :: rest => (p.note t).bind fun p => p.noteAll rest

theorem Pipeline.noteAll_append (p : Pipeline) (l l' : List Traffic) :
    p.noteAll (l ++ l') = (p.noteAll l).bind fun p => p.noteAll l' := by
  induction l generalizing p with
  | nil => rfl
  | cons t l ih =>
    rw [List.cons_append, Pipeline.noteAll, Pipeline.noteAll]
    cases p.note t with
    | none => rfl
    | some p => exact ih p

/-! ### The traffic of a run -/

section

variable (M : Machine)

def arriveTraffic (s : Video) : Arrival → List Traffic
  | .returned i length _ pts =>
    if (s.dec.out i).inFlight = true ∧ s.dec.frameBytes ≤ length then [.back (s.dec.out i).phys pts] else []
  | .formatChanged => []

def arrivalsTraffic : List Arrival → Video → List Traffic
  | [], _ => []
  | e :: rest, s => arriveTraffic s e ++ arrivalsTraffic rest (arrive M s e)

def disableTraffic (c : Call) (s : Video) : List Traffic :=
  if s.dec.outputEnabled = true then arrivalsTraffic M c.arrivals s else []

def reconfigureTraffic (a : Reconfigure) (s : Video) : List Traffic :=
  let down := disableOutput M a.disable s
  let known := arriveAll M a.info.arrivals down
  let set := arriveAll M a.setFormat.arrivals known
  disableTraffic M a.disable s ++ arrivalsTraffic M a.info.arrivals down ++
    if a.info.ok = false then []
    else arrivalsTraffic M a.setFormat.arrivals known ++
      if a.setFormat.ok = false then [] else arrivalsTraffic M a.enable.arrivals set

def reconfigureIfPendingTraffic (a : Reconfigure) (s : Video) : List Traffic :=
  if s.dec.reconfigurePending = true then
    reconfigureTraffic M a { s with dec := { s.dec with reconfigurePending := false } }
  else []

def h264decPollTraffic (a : DecoderPoll) (s : Video) : List Traffic :=
  let polled := arriveAll M a.arrivals s
  if s.dec.running = false then []
  else arrivalsTraffic M a.arrivals s ++ reconfigureIfPendingTraffic M a.reconfigure polled ++
    arrivalsTraffic M a.eos (reconfigureIfPending M a.reconfigure polled)

def h264decResumeTraffic (a : Flush) (s : Video) : List Traffic :=
  if s.dec.running = false then []
  else
    let emptied := arriveAll M a.input s
    arrivalsTraffic M a.input s ++
      (if emptied.dec.outputEnabled = true then arrivalsTraffic M a.output emptied else []) ++ [.flushed]

/-- The picture may come back before the call that sends its access unit returns, and after all earlier ones. -/
def feedFrameTraffic (c : Call) (frame : UInt32) (s : Video) : List Traffic :=
  if s.vp.frameCount ≤ frame then []
  else (if c.ok = true then [.sent frame.toUInt64] else []) ++ arrivalsTraffic M c.arrivals s

def seekFlushed (a : PlayerPoll) (s : Video) : Video :=
  if s.vp.inFlight ≠ 0 then h264decResume M a.seekFlush s else s

def Video.landed (s : Video) : Video := { s with vp := { s.vp with inFlight := 0 } }

def seekPendingTraffic (a : PlayerPoll) (s : Video) : List Traffic :=
  match s.vp.seekFrame with
  | none => []
  | some target =>
    (if s.vp.inFlight ≠ 0 then h264decResumeTraffic M a.seekFlush s else []) ++
      feedFrameTraffic M a.seekFeed target (seekFlushed M a s).landed

def feedLoopTraffic (feeds : Nat → Call) (limit : UInt32) : Nat → Nat → Video → List Traffic
  | 0, _, _ => []
  | n + 1, k, s =>
    if s.vp.inFlight < 2 ∧ s.vp.nextFrame < limit then
      feedFrameTraffic M (feeds k) s.vp.nextFrame s ++
        match feedFrame M (feeds k) s.vp.nextFrame s with
        | (false, _) => []
        | (true, s) =>
          feedLoopTraffic feeds limit n (k + 1) { s with vp := { s.vp with nextFrame := s.vp.nextFrame + 1 } }
    else []

/-- What `pollPlay` reads as the end. -/
def playLimit (s : Video) : UInt32 := if s.vp.stopPicture ≠ 0 then s.vp.stopPicture else s.vp.frameCount

def playFed (a : PlayerPoll) (s : Video) : Video :=
  feedLoop M a.feeds (playLimit s) (playLimit s - s.vp.nextFrame).toNat 0 s

def playShown (a : PlayerPoll) (s : Video) : Video :=
  if s.vp.pendingPhys ≠ 0 ∧ WrapClock.reached a.dueUs s.vp.nextFrameDue = true then
    { flipPending M s with vp := { (flipPending M s).vp with
      nextFrameDue := (flipPending M s).vp.nextFrameDue + (flipPending M s).vp.framePeriodUs } }
  else s

def Video.ended (s : Video) : Video :=
  { s with vp := { s.vp with
    mode := .still
    stopPicture := if s.vp.stopPicture ≠ 0 ∧ s.vp.stopPicture ≤ s.vp.curPicture then 0 else s.vp.stopPicture } }

def pollPlayTraffic (a : PlayerPoll) (s : Video) : List Traffic :=
  let t := playShown M a (playFed M a s)
  feedLoopTraffic M a.feeds (playLimit s) (playLimit s - s.vp.nextFrame).toNat 0 s ++
    if playLimit s ≤ t.vp.curPicture ∧ t.vp.inFlight = 0 ∧ t.vp.pendingPhys = 0 then
      h264decResumeTraffic M a.endFlush t.ended
    else []

def pollPlayRevTraffic (a : PlayerPoll) (s : Video) : List Traffic :=
  let t := flipPending M s
  if WrapClock.reached a.dueUs t.vp.nextFrameDue = true ∧ t.vp.inFlight = 0 ∧ 1 < t.vp.curPicture then
    feedFrameTraffic M (a.feeds 0) (t.vp.curPicture - 2) t
  else []

def videoplayerPollTraffic (a : PlayerPoll) (s : Video) : List Traffic :=
  if s.vp.isOpen = false then []
  else
    let polled := h264decPoll M a.dec s
    let sought := seekPending M a polled
    h264decPollTraffic M a.dec s ++ seekPendingTraffic M a polled ++
      match sought.vp.mode with
      | .play => pollPlayTraffic M a sought
      | .playRev => pollPlayRevTraffic M a sought
      | .still | .idle => []

def videoplayerPlayFwdTraffic (a : Flush) (s : Video) : List Traffic :=
  if s.vp.isOpen = false ∨ s.vp.mode = .play then []
  else h264decResumeTraffic M a { s with vp := { s.vp with nextFrame := s.vp.curPicture, inFlight := 0 } }

def videoplayerPlayRevTraffic (a : Flush) (s : Video) : List Traffic :=
  if s.vp.isOpen = false ∨ s.vp.inFlight = 0 then [] else h264decResumeTraffic M a s

def Event.operates : Event → Bool
  | .init _ => false
  | _ => true

def stepTraffic (s : Video) : Event → List Traffic
  | .poll a => videoplayerPollTraffic M a s
  | .playFwd a _ => videoplayerPlayFwdTraffic M a s
  | .playRev a _ => videoplayerPlayRevTraffic M a s
  | _ => []

def runTraffic : Video → List Event → List Traffic
  | _, [] => []
  | s, e :: rest => stepTraffic M s e ++ runTraffic (step M s e) rest

end

/-! ### What the player is about to show -/

/-- The most that `pvf_open_file` takes. -/
def PVF_MAX_FRAMES : Nat := 400000

/-- The length of the file that `pvf_open_file` checks. -/
def FileLength (n : UInt32) : Prop := 1 ≤ n.toNat ∧ n.toNat ≤ PVF_MAX_FRAMES

/-- Whatever is shown, wanted or under way is in a file of `n` pictures, and the buffers hold what the player takes
them to hold. -/
structure Fits (n : UInt32) (p : Pipeline) (s : Video) : Prop where
  live : Live s
  length : FileLength n
  count : s.vp.frameCount = n
  queue : ∀ pts ∈ p.queue, pts.toNat < n.toNat
  seek : ∀ target, s.vp.seekFrame = some target → target.toNat < n.toNat
  current : 1 ≤ s.vp.curPicture.toNat ∧ s.vp.curPicture.toNat ≤ n.toNat
  pending : s.vp.pendingPhys ≠ 0 →
    s.vp.pendingPts.toNat < n.toNat ∧ p.picture s.vp.pendingPhys = s.vp.pendingPts
  displayed : s.vp.displayedPhys ≠ 0 → (p.picture s.vp.displayedPhys).toNat + 1 = s.vp.curPicture.toNat

/-- The picture that stays if nothing more is sent: the last one in the decoder, or else the pending one, or else
the one on the display. -/
def Latest (p : Pipeline) (s : Video) (pts : UInt64) : Prop :=
  p.queue.getLast? = some pts ∨
    (p.queue = [] ∧ s.vp.pendingPhys ≠ 0 ∧ s.vp.pendingPts = pts) ∨
    p.queue = [] ∧ s.vp.pendingPhys = 0 ∧ s.vp.displayedPhys ≠ 0 ∧ p.picture s.vp.displayedPhys = pts

structure Asked (s s' : Video) : Prop where
  frame : s'.vp.seekFrame = s.vp.seekFrame
  op : s'.vp.seekOp = s.vp.seekOp

theorem Asked.refl (s : Video) : Asked s s := ⟨rfl, rfl⟩

theorem Asked.trans {s s' s'' : Video} (h : Asked s s') (h' : Asked s' s'') : Asked s s'' :=
  ⟨h'.frame.trans h.frame, h'.op.trans h.op⟩

structure Passes (n : UInt32) (p : Pipeline) (s : Video) (p' : Pipeline) (s' : Video) : Prop where
  fits : Fits n p' s'
  asked : Asked s s'
  mode : s'.vp.mode = s.vp.mode
  latest : ∀ pts, Latest p s pts → Latest p' s' pts

section

variable {M : Machine} {n : UInt32} {p p' p'' : Pipeline} {s s' s'' : Video}

theorem Passes.refl (h : Fits n p s) : Passes n p s p s := ⟨h, Asked.refl s, rfl, fun _ h => h⟩

theorem Passes.trans (h : Passes n p s p' s') (h' : Passes n p' s' p'' s'') : Passes n p s p'' s'' :=
  ⟨h'.fits, h.asked.trans h'.asked, h'.mode.trans h.mode, fun pts hpts => h'.latest pts (h.latest pts hpts)⟩

theorem noteAll_split {l l' : List Traffic} (h : p.noteAll (l ++ l') = some p') :
    ∃ q, p.noteAll l = some q ∧ q.noteAll l' = some p' := by
  rw [Pipeline.noteAll_append] at h
  exact Option.bind_eq_some_iff.mp h

theorem Fits.player (h : Fits n p s) {v : Player} (hopen : v.isOpen = s.vp.isOpen)
    (hcount : v.frameCount = s.vp.frameCount) (hcurrent : v.curPicture = s.vp.curPicture)
    (hpending : v.pendingPhys = s.vp.pendingPhys) (hpts : v.pendingPts = s.vp.pendingPts)
    (hdisplayed : v.displayedPhys = s.vp.displayedPhys)
    (hseek : ∀ target, v.seekFrame = some target → target.toNat < n.toNat) : Fits n p { s with vp := v } where
  live := h.live.withPlayer hpending hdisplayed hopen
  length := h.length
  count := hcount.trans h.count
  queue := h.queue
  seek := hseek
  current := by
    simp only [hcurrent]
    exact h.current
  pending := by
    simp only [hpending, hpts]
    exact h.pending
  displayed := by
    simp only [hdisplayed, hcurrent]
    exact h.displayed

theorem Passes.decoder (h : Fits n p s) (hl : Live s') (hvp : s'.vp = s.vp) : Passes n p s p s' where
  fits := by
    have hcurrent := h.current
    have hpending := h.pending
    have hdisplayed := h.displayed
    rw [← hvp] at hcurrent hpending hdisplayed
    exact ⟨hl, h.length, hvp ▸ h.count, h.queue, hvp ▸ h.seek, hcurrent, hpending, hdisplayed⟩
  asked := ⟨congrArg Player.seekFrame hvp, congrArg Player.seekOp hvp⟩
  mode := congrArg Player.mode hvp
  latest := by
    intro pts hpts
    rw [Latest, hvp]
    exact hpts

theorem armFrom_vp (l : List (Fin 3)) (s : Video) : (armFrom M l s).vp = s.vp := by
  induction l generalizing s with
  | nil => rfl
  | cons i rest ih =>
    rw [armFrom_cons]
    split
    · exact ih s
    · split
      · exact ih _
      · rfl

theorem arm_vp (s : Video) : (armOutputBuffers M s).vp = s.vp := by
  rw [armOutputBuffers]
  split
  · rfl
  · exact armFrom_vp _ s

theorem recycle_vp (phys : UInt32) (s : Video) : (h264decRecycleOutput M phys s).vp = s.vp := by
  rw [h264decRecycleOutput]
  split
  · rfl
  · split
    · exact arm_vp _
    · rfl

/-! ### Invariants of the pipeline -/

structure Carried (M : Machine) (I : Pipeline → Video → Prop) : Prop where
  live : ∀ {p s}, I p s → Live s
  arrive : ∀ {p s e p'}, I p s → p.noteAll (arriveTraffic s e) = some p' → I p' (arrive M s e)
  decoder : ∀ {p s s'}, I p s → Live s' → s'.vp = s.vp →
    (∀ i, (s'.dec.out i).registered = (s.dec.out i).registered) → I p s'

section

variable {I : Pipeline → Video → Prop}

theorem Carried.arrivals (hI : Carried M I) (arrivals : List Arrival) (h : I p s)
    (hp : p.noteAll (arrivalsTraffic M arrivals s) = some p') : I p' (arriveAll M arrivals s) := by
  induction arrivals generalizing p s with
  | nil =>
    cases hp
    exact h
  | cons e rest ih =>
    obtain ⟨q, hq, hrest⟩ := noteAll_split hp
    exact ih (hI.arrive h hq) hrest

theorem Carried.arm (hI : Carried M I) (h : I p s) : I p (armOutputBuffers M s) :=
  hI.decoder h (live_arm (hI.live h)) (arm_vp s) (arm_steady s).registered

theorem Carried.disable (hI : Carried M I) (c : Call) (h : I p s) (hp : p.noteAll (disableTraffic M c s) = some p') :
    I p' (disableOutput M c s) := by
  have hl := live_disable (M := M) c (hI.live h)
  rw [disableTraffic] at hp
  rw [disableOutput] at hl ⊢
  split at hp
  · next henabled =>
    rw [if_pos henabled] at hl ⊢
    exact hI.decoder (hI.arrivals c.arrivals h hp) hl rfl fun _ => rfl
  · next hdisabled =>
    rw [if_neg hdisabled]
    cases hp
    exact h

theorem Carried.reconfigure (hI : Carried M I) (a : Reconfigure) (h : I p s)
    (hp : p.noteAll (reconfigureTraffic M a s) = some p') : I p' (reconfigureOutput M a s).2 := by
  obtain ⟨q, hq, hrest⟩ := noteAll_split hp
  obtain ⟨q', hdown, hinfo⟩ := noteAll_split hq
  have hknown := hI.arrivals a.info.arrivals (hI.disable a.disable h hdown) hinfo
  simp only [reconfigureOutput]
  by_cases hok : a.info.ok = false
  · rw [if_pos hok] at hrest ⊢
    cases hrest
    exact hknown
  · rw [if_neg hok] at hrest ⊢
    obtain ⟨q'', hset, hrest⟩ := noteAll_split hrest
    have hset := hI.arrivals a.setFormat.arrivals hknown hset
    by_cases hformat : a.setFormat.ok = false
    · rw [if_pos hformat] at hrest ⊢
      cases hrest
      exact hset
    · rw [if_neg hformat] at hrest ⊢
      have henable := hI.arrivals a.enable.arrivals hset hrest
      split
      · exact henable
      · dsimp only
        apply hI.arm
        exact hI.decoder henable (hI.live henable).flags rfl fun _ => rfl

theorem Carried.reconfigureIfPending (hI : Carried M I) (a : Reconfigure) (h : I p s)
    (hp : p.noteAll (reconfigureIfPendingTraffic M a s) = some p') : I p' (reconfigureIfPending M a s) := by
  rw [reconfigureIfPendingTraffic] at hp
  rw [VideoPlayer.reconfigureIfPending]
  by_cases hpending : s.dec.reconfigurePending = true
  · rw [if_pos hpending] at hp ⊢
    have hcleared : I p { s with dec := { s.dec with reconfigurePending := false } } :=
      hI.decoder h (hI.live h).flags rfl fun _ => rfl
    have hset := hI.reconfigure a hcleared hp
    cases hresult : reconfigureOutput M a { s with dec := { s.dec with reconfigurePending := false } } with
    | mk ok t =>
      rw [hresult] at hset
      cases ok with
      | true => exact hset
      | false => exact hI.decoder hset (hI.live hset).flags rfl fun _ => rfl
  · rw [if_neg hpending] at hp ⊢
    cases hp
    exact h

theorem Carried.decoderPoll (hI : Carried M I) (a : DecoderPoll) (h : I p s)
    (hp : p.noteAll (h264decPollTraffic M a s) = some p') : I p' (h264decPoll M a s) := by
  have hrunning : ¬s.dec.running = false := ne_false_of_eq_true (hI.live h).running
  simp only [h264decPollTraffic, if_neg hrunning] at hp
  simp only [h264decPoll, if_neg hrunning]
  obtain ⟨q, hq, heos⟩ := noteAll_split hp
  obtain ⟨q', hpolled, hreconfigure⟩ := noteAll_split hq
  exact hI.arm (hI.arrivals a.eos (hI.reconfigureIfPending a.reconfigure (hI.arrivals a.arrivals h hpolled)
    hreconfigure) heos)

theorem Carried.resume (hI : Carried M I) (a : Flush) (h : I p s)
    (hp : p.noteAll (h264decResumeTraffic M a s) = some p') :
    ∃ q, I q (h264decResume M a s) ∧ p' = { q with queue := [] } := by
  have hrunning : ¬s.dec.running = false := ne_false_of_eq_true (hI.live h).running
  simp only [h264decResumeTraffic, if_neg hrunning] at hp
  simp only [h264decResume, if_neg hrunning]
  obtain ⟨q, hq, hflush⟩ := noteAll_split hp
  obtain ⟨q', hinput, houtput⟩ := noteAll_split hq
  have hfirst := hI.arrivals a.input h hinput
  cases hflush
  refine ⟨q, hI.arm ?_, rfl⟩
  by_cases henabled : (arriveAll M a.input s).dec.outputEnabled = true
  · rw [if_pos henabled] at houtput ⊢
    exact hI.arrivals a.output hfirst houtput
  · rw [if_neg henabled] at houtput ⊢
    cases houtput
    exact hfirst

end

/-! ### Arrivals -/

def Player.takes (v : Player) (phys : UInt32) (pts : UInt64) : Player :=
  { v.frameBack with pendingPhys := phys, pendingPts := pts }

theorem frameDecoded_vp {phys : UInt32} (hphys : phys ≠ 0) (pts : UInt64) (eos : Bool) (s : Video) :
    (frameDecoded M phys pts eos s).vp = s.vp.takes phys pts := by
  rw [frameDecoded, if_neg fun h => hphys h.2]
  dsimp only
  split
  · rw [recycle_vp]
    rfl
  · rfl

theorem arrive_vp (hl : Live s) (i : Fin 3) (length : UInt32) (eos : Bool) (pts : UInt64) :
    (arrive M s (.returned i length eos pts)).vp =
      if (s.dec.out i).inFlight = true ∧ s.dec.frameBytes ≤ length then s.vp.takes (s.dec.out i).phys pts
      else s.vp := by
  by_cases hflight : (s.dec.out i).inFlight = true
  · have hphys : (s.dec.out i).phys ≠ 0 := hl.sound.somewhere i (hl.sound.flight i hflight)
    have hout : (completeBuffer i s).dec.out i =
        { s.dec.out i with inFlight := false, withComponent := false } := setSlot_self _ _ _
    have hbytes : (completeBuffer i s).dec.frameBytes = s.dec.frameBytes := rfl
    simp only [arrive, if_pos hflight, onBufferDone, hout, hbytes]
    by_cases hlong : s.dec.frameBytes ≤ length
    · rw [if_pos hlong, if_pos ⟨hflight, hlong⟩, frameDecoded_vp hphys]
      rfl
    · have hshort : ¬((s.dec.out i).inFlight = true ∧ s.dec.frameBytes ≤ length) := fun h => hlong h.2
      rw [if_neg hlong, if_neg hshort]
      split
      · rw [frameDecoded, if_pos ⟨rfl, rfl⟩]
        rfl
      · rfl
  · have hnone : ¬((s.dec.out i).inFlight = true ∧ s.dec.frameBytes ≤ length) := fun h => hflight h.1
    rw [if_neg hnone, arrive, if_neg hflight]

theorem latest_back {pts : UInt64} {queue : List UInt64} {phys : UInt32} (hqueue : p.queue = pts :: queue)
    (hphys : phys ≠ 0) (hvp : s'.vp = s.vp.takes phys pts) {latest : UInt64} (h : Latest p s latest) :
    Latest ⟨queue, Function.update p.picture phys pts⟩ s' latest := by
  rcases h with hlast | ⟨hempty, -⟩ | ⟨hempty, -⟩
  · rw [hqueue] at hlast
    cases queue with
    | nil =>
      refine Or.inr (Or.inl ⟨rfl, ?_, ?_⟩)
      · rw [hvp]
        exact hphys
      · rw [hvp]
        exact Option.some.inj hlast
    | cons next rest =>
      rw [List.getLast?_cons_cons] at hlast
      exact Or.inl hlast
  · rw [hqueue] at hempty
    cases hempty
  · rw [hqueue] at hempty
    cases hempty

theorem fits_back {i : Fin 3} {pts : UInt64} {queue : List UInt64} (h : Fits n p s)
    (hflight : (s.dec.out i).inFlight = true) (hqueue : p.queue = pts :: queue) (hl : Live s')
    (hvp : s'.vp = s.vp.takes (s.dec.out i).phys pts) :
    Fits n ⟨queue, Function.update p.picture (s.dec.out i).phys pts⟩ s' where
  live := hl
  length := h.length
  count := by
    rw [hvp]
    exact h.count
  queue := by
    intro q hq
    apply h.queue
    rw [hqueue]
    exact List.mem_cons_of_mem _ hq
  seek := by
    rw [hvp]
    exact h.seek
  current := by
    rw [hvp]
    exact h.current
  pending := by
    intro _
    rw [hvp]
    refine ⟨h.queue pts ?_, Function.update_self _ _ _⟩
    rw [hqueue]
    exact List.mem_cons_self
  displayed := by
    rw [hvp]
    intro hdisplayed
    -- a buffer that is on the display is not with the decoder
    have hother : s.vp.displayedPhys ≠ (s.dec.out i).phys := by
      intro hsame
      have hcaller := (h.live.remembers.caller i (h.live.sound.flight i hflight)).mpr (Or.inr hsame.symm)
      rw [(h.live.sound.caller i hcaller).2.2] at hflight
      cases hflight
    refine Eq.trans ?_ (h.displayed hdisplayed)
    exact congrArg (fun pts : UInt64 => pts.toNat + 1) (Function.update_of_ne hother _ _)

theorem arrive_passes (h : Fits n p s) (e : Arrival) (hp : p.noteAll (arriveTraffic s e) = some p') :
    Passes n p s p' (arrive M s e) := by
  have hl := live_arrive (M := M) h.live e
  cases e with
  | formatChanged =>
    cases hp
    exact Passes.decoder h hl rfl
  | returned i length eos pts =>
    have hvp := arrive_vp (M := M) h.live i length eos pts
    rw [arriveTraffic] at hp
    by_cases hframe : (s.dec.out i).inFlight = true ∧ s.dec.frameBytes ≤ length
    · rw [if_pos hframe] at hp hvp
      cases hqueue : p.queue with
      | nil =>
        rw [Pipeline.noteAll, Pipeline.note, hqueue] at hp
        cases hp
      | cons oldest queue =>
        rw [Pipeline.noteAll, Pipeline.note, hqueue] at hp
        by_cases hsame : oldest = pts
        · simp only [if_pos hsame] at hp
          subst hsame
          cases hp
          have hphys := h.live.sound.somewhere i (h.live.sound.flight i hframe.1)
          exact
            { fits := fits_back h hframe.1 hqueue hl hvp
              asked := ⟨(congrArg Player.seekFrame hvp).trans rfl, (congrArg Player.seekOp hvp).trans rfl⟩
              mode := (congrArg Player.mode hvp).trans rfl
              latest := fun _ => latest_back hqueue hphys hvp }
        · simp only [if_neg hsame] at hp
          cases hp
    · rw [if_neg hframe] at hp hvp
      cases hp
      exact Passes.decoder h hl hvp

theorem passes_carried : Carried M (Passes n p s) where
  live h := h.fits.live
  arrive h hp := h.trans (arrive_passes h.fits _ hp)
  decoder h hl hvp _ := h.trans (Passes.decoder h.fits hl hvp)

theorem arrivals_pass (arrivals : List Arrival) (h : Fits n p s)
    (hp : p.noteAll (arrivalsTraffic M arrivals s) = some p') : Passes n p s p' (arriveAll M arrivals s) :=
  passes_carried.arrivals arrivals (Passes.refl h) hp

end

section

variable {M : Machine} {n : UInt32} {p p' : Pipeline} {s : Video}

theorem decoderPoll_passes (a : DecoderPoll) (h : Fits n p s) (hp : p.noteAll (h264decPollTraffic M a s) = some p') :
    Passes n p s p' (h264decPoll M a s) := passes_carried.decoderPoll a (Passes.refl h) hp

theorem resume_fits (a : Flush) (h : Fits n p s) (hp : p.noteAll (h264decResumeTraffic M a s) = some p') :
    Fits n p' (h264decResume M a s) ∧ Asked s (h264decResume M a s) := by
  obtain ⟨q, hpass, rfl⟩ := passes_carried.resume a (Passes.refl h) hp
  have hfits := hpass.fits
  exact ⟨⟨hfits.live, hfits.length, hfits.count, nofun, hfits.seek, hfits.current, hfits.pending, hfits.displayed⟩,
    hpass.asked⟩

/-! ### The display -/

theorem flip_vp (hpending : s.vp.pendingPhys ≠ 0) :
    (flipPending M s).vp = { s.vp with
      pendingPhys := 0
      displayedPhys := s.vp.pendingPhys
      curPicture := s.vp.pendingPts.toUInt32 + 1 } := by
  simp only [flipPending, if_neg hpending]
  split
  · simp only [recycle_vp]
  · rfl

theorem shown_number {pts : UInt64} (hlength : FileLength n) (h : pts.toNat < n.toNat) :
    (pts.toUInt32 + 1).toNat = pts.toNat + 1 := by
  have hmost : n.toNat ≤ 400000 := hlength.2
  have hone : (1 : UInt32).toNat = 1 := rfl
  rw [UInt32.toNat_add, UInt64.toNat_toUInt32, hone]
  omega

theorem flip_passes (h : Fits n p s) : Passes n p s p (flipPending M s) := by
  have hl := live_flip (M := M) h.live
  by_cases hpending : s.vp.pendingPhys = 0
  · rw [flipPending, if_pos hpending]
    exact Passes.refl h
  · have hvp := flip_vp (M := M) hpending
    obtain ⟨hpts, hholds⟩ := h.pending hpending
    have hnumber := shown_number h.length hpts
    generalize flipPending M s = t at hl hvp ⊢
    constructor
    · constructor
      · exact hl
      · exact h.length
      · rw [hvp]
        exact h.count
      · exact h.queue
      · rw [hvp]
        exact h.seek
      · rw [hvp]
        simp only [hnumber]
        omega
      · rw [hvp]
        intro hnone
        exact absurd rfl hnone
      · rw [hvp]
        intro _
        simp only [hnumber, hholds]
    · exact ⟨(congrArg Player.seekFrame hvp).trans rfl, (congrArg Player.seekOp hvp).trans rfl⟩
    · exact (congrArg Player.mode hvp).trans rfl
    · intro pts hlatest
      rcases hlatest with hlast | ⟨hempty, -, hsame⟩ | ⟨-, hnone, -⟩
      · exact Or.inl hlast
      · refine Or.inr (Or.inr ⟨hempty, ?_, ?_, ?_⟩)
        · rw [hvp]
        · rw [hvp]
          exact hpending
        · rw [hvp]
          exact hholds.trans hsame
      · exact absurd hnone hpending

theorem flip_pending : (flipPending M s).vp.pendingPhys = 0 := by
  by_cases hpending : s.vp.pendingPhys = 0
  · rw [flipPending, if_pos hpending]
    exact hpending
  · rw [flip_vp hpending]

/-! ### Feeding -/

theorem Fits.sent (h : Fits n p s) {frame : UInt32} (hframe : frame.toUInt64.toNat < n.toNat) :
    Fits n { p with queue := p.queue ++ [frame.toUInt64] } s :=
  { h with
    queue := by
      intro pts hpts
      rcases List.mem_append.mp hpts with hold | hnew
      · exact h.queue pts hold
      · rw [List.mem_singleton.mp hnew]
        exact hframe }

theorem feed_fits (c : Call) (frame : UInt32) (h : Fits n p s)
    (hp : p.noteAll (feedFrameTraffic M c frame s) = some p') :
    Fits n p' (feedFrame M c frame s).2 ∧ Asked s (feedFrame M c frame s).2 ∧
      ((feedFrame M c frame s).1 = true → Latest p' (feedFrame M c frame s).2 frame.toUInt64) := by
  rw [feedFrameTraffic] at hp
  by_cases hend : s.vp.frameCount ≤ frame
  · rw [if_pos hend] at hp
    rw [feedFrame, if_pos hend]
    cases hp
    exact ⟨h, Asked.refl s, (by intro h; cases h)⟩
  · rw [if_neg hend] at hp
    obtain ⟨q, hsent, harrivals⟩ := noteAll_split hp
    simp only [feedFrame, if_neg hend]
    by_cases hok : c.ok = true
    · rw [if_pos hok] at hsent
      cases hsent
      have hframe : frame.toUInt64.toNat < n.toNat := by
        rw [UInt32.toNat_toUInt64, ← h.count]
        exact Nat.lt_of_not_le hend
      have hpass := arrivals_pass c.arrivals (h.sent hframe) harrivals
      have hlatest := hpass.latest frame.toUInt64 (Or.inl (List.getLast?_concat ..))
      rw [if_neg (ne_false_of_eq_true hok)]
      exact ⟨hpass.fits.player rfl rfl rfl rfl rfl rfl hpass.fits.seek, ⟨hpass.asked.frame, hpass.asked.op⟩,
        fun _ => hlatest⟩
    · rw [if_neg hok] at hsent
      cases hsent
      have hpass := arrivals_pass c.arrivals h harrivals
      rw [if_pos (eq_false_of_ne_true hok)]
      exact ⟨hpass.fits, hpass.asked, (by intro h; cases h)⟩

theorem feedFrame_ok {c : Call} {frame : UInt32} (h : frame < s.vp.frameCount) :
    (feedFrame M c frame s).1 = c.ok := by
  have hend : ¬s.vp.frameCount ≤ frame := UInt32.not_le.mpr h
  simp only [feedFrame, if_neg hend]
  split
  · next hok => exact hok.symm
  · next hok => exact (eq_true_of_ne_false hok).symm

theorem feedLoop_fits (feeds : Nat → Call) (limit : UInt32) (m k : Nat) (h : Fits n p s)
    (hp : p.noteAll (feedLoopTraffic M feeds limit m k s) = some p') :
    Fits n p' (feedLoop M feeds limit m k s) ∧ Asked s (feedLoop M feeds limit m k s) := by
  induction m generalizing p k s with
  | zero =>
    cases hp
    exact ⟨h, Asked.refl s⟩
  | succ m ih =>
    rw [feedLoopTraffic] at hp
    rw [feedLoop]
    by_cases hmore : s.vp.inFlight < 2 ∧ s.vp.nextFrame < limit
    · rw [if_pos hmore] at hp ⊢
      obtain ⟨q, hfed, hrest⟩ := noteAll_split hp
      have hfeed := feed_fits (M := M) (feeds k) s.vp.nextFrame h hfed
      cases hresult : feedFrame M (feeds k) s.vp.nextFrame s with
      | mk ok t =>
        rw [hresult] at hfeed hrest
        obtain ⟨hfits, hasked, -⟩ := hfeed
        cases ok with
        | false =>
          cases hrest
          exact ⟨hfits, hasked⟩
        | true =>
          dsimp only at hrest hfits hasked ⊢
          have hstart : Fits n q { t with vp := { t.vp with nextFrame := t.vp.nextFrame + 1 } } :=
            hfits.player rfl rfl rfl rfl rfl rfl hfits.seek
          have hnext := ih (k + 1) hstart hrest
          exact ⟨hnext.1, hasked.trans ⟨hnext.2.frame, hnext.2.op⟩⟩
    · rw [if_neg hmore] at hp ⊢
      cases hp
      exact ⟨h, Asked.refl s⟩

end

/-! ### Requests and polls -/

/-- The picture that is asked for with a still, from 1 on and within the file; 0 is no picture, and a sum that is
no `int` is none. -/
def requested (s : Video) : Event → Option Nat
  | .goto picture op =>
    if op = 'R' ∧ picture ≠ 0 then some (min picture.toNat s.vp.frameCount.toNat) else none
  | .stepBy delta =>
    let target := (s.vp.curPicture.toNat : Int) + delta.toInt
    if target < 2147483648 then some (min (max 1 target).toNat s.vp.frameCount.toNat) else none
  | _ => none

structure Wanted (target : UInt32) (s : Video) : Prop where
  frame : s.vp.seekFrame = some target
  op : s.vp.seekOp = 'R'

structure Sent (target : UInt32) (p : Pipeline) (s : Video) : Prop where
  frame : s.vp.seekFrame = none
  mode : s.vp.mode = .still
  pending : s.vp.pendingPhys = 0
  latest : Latest p s target.toUInt64

section

variable {M : Machine} {n : UInt32} {p p' : Pipeline} {s s' : Video}

theorem Wanted.asked {target : UInt32} (h : Wanted target s) (hasked : Asked s s') : Wanted target s' :=
  ⟨hasked.frame.trans h.frame, hasked.op.trans h.op⟩

theorem seekPending_none (a : PlayerPoll) (h : s.vp.seekFrame = none) : seekPending M a s = s := by
  rw [seekPending, h]

theorem seekFlushed_fits (a : PlayerPoll) (h : Fits n p s)
    (hp : p.noteAll (if s.vp.inFlight ≠ 0 then h264decResumeTraffic M a.seekFlush s else []) = some p') :
    Fits n p' (seekFlushed M a s).landed ∧ Asked s (seekFlushed M a s).landed := by
  have hflushed : Fits n p' (seekFlushed M a s) ∧ Asked s (seekFlushed M a s) := by
    rw [seekFlushed]
    by_cases hflight : s.vp.inFlight ≠ 0
    · rw [if_pos hflight] at hp ⊢
      exact resume_fits a.seekFlush h hp
    · rw [if_neg hflight] at hp ⊢
      cases hp
      exact ⟨h, Asked.refl s⟩
  obtain ⟨hfits, hasked⟩ := hflushed
  exact ⟨hfits.player rfl rfl rfl rfl rfl rfl hfits.seek, ⟨hasked.frame, hasked.op⟩⟩

theorem seekPending_some (a : PlayerPoll) {target : UInt32} (h : s.vp.seekFrame = some target) :
    seekPending M a s =
      match feedFrame M a.seekFeed target (seekFlushed M a s).landed with
      | (false, t) => t
      | (true, t) =>
        { t with vp := { t.vp with
          seekFrame := none
          nextFrame := target + 1
          mode := if (seekFlushed M a s).vp.seekOp == 'N' ||
            ((seekFlushed M a s).vp.seekOp == 'Q' && (seekFlushed M a s).vp.prevMode == .play) then .play else .still
          nextFrameDue := a.seekUs + t.vp.framePeriodUs } } := by
  rw [seekPending, h]
  rfl

theorem seek_fits (a : PlayerPoll) (h : Fits n p s) (hp : p.noteAll (seekPendingTraffic M a s) = some p') :
    Fits n p' (seekPending M a s) := by
  rw [seekPendingTraffic] at hp
  cases hseek : s.vp.seekFrame with
  | none =>
    rw [hseek] at hp
    cases hp
    rw [seekPending_none a hseek]
    exact h
  | some target =>
    rw [hseek] at hp
    obtain ⟨q, hflush, hfeed⟩ := noteAll_split hp
    obtain ⟨hflushed, -⟩ := seekFlushed_fits a h hflush
    obtain ⟨hfed, -, -⟩ := feed_fits (M := M) a.seekFeed target hflushed hfeed
    rw [seekPending_some a hseek]
    split
    · next hresult =>
      rw [hresult] at hfed
      exact hfed
    · next hresult =>
      rw [hresult] at hfed
      exact hfed.player rfl rfl rfl rfl rfl rfl nofun

theorem seek_wanted (a : PlayerPoll) {target : UInt32} (h : Fits n p s) (hw : Wanted target s)
    (hp : p.noteAll (seekPendingTraffic M a s) = some p') :
    if a.seekFeed.ok = true then
      (seekPending M a s).vp.seekFrame = none ∧ (seekPending M a s).vp.mode = .still ∧
        Latest p' (seekPending M a s) target.toUInt64
    else Wanted target (seekPending M a s) := by
  rw [seekPendingTraffic, hw.frame] at hp
  obtain ⟨q, hflush, hfeed⟩ := noteAll_split hp
  obtain ⟨hflushed, hasked⟩ := seekFlushed_fits a h hflush
  obtain ⟨-, hkept, hlatest⟩ := feed_fits (M := M) a.seekFeed target hflushed hfeed
  have hop : (seekFlushed M a s).vp.seekOp = 'R' := (hw.asked hasked).op
  have hinside : target < (seekFlushed M a s).landed.vp.frameCount := by
    rw [hflushed.count]
    exact h.seek target hw.frame
  have hok := feedFrame_ok (M := M) (c := a.seekFeed) hinside
  have hresult := seekPending_some (M := M) a hw.frame
  cases hfed : feedFrame M a.seekFeed target (seekFlushed M a s).landed with
  | mk ok t =>
    rw [hfed] at hkept hlatest hok hresult
    dsimp only at hkept hlatest hok hresult
    rw [← hok, hresult]
    cases ok with
    | true =>
      rw [if_pos rfl]
      refine ⟨rfl, ?_, hlatest rfl⟩
      simp only [hop]
      rfl
    | false =>
      rw [if_neg Bool.false_ne_true]
      exact (hw.asked hasked).asked hkept

theorem playShown_passes (a : PlayerPoll) (h : Fits n p s) : Passes n p s p (playShown M a s) := by
  have hflip := flip_passes (M := M) h
  rw [playShown]
  split
  · exact ⟨hflip.fits.player rfl rfl rfl rfl rfl rfl hflip.fits.seek, ⟨hflip.asked.frame, hflip.asked.op⟩, hflip.mode,
      hflip.latest⟩
  · exact Passes.refl h

theorem pollPlay_eq (a : PlayerPoll) (s : Video) :
    pollPlay M a s =
      if playLimit s ≤ (playShown M a (playFed M a s)).vp.curPicture ∧
          (playShown M a (playFed M a s)).vp.inFlight = 0 ∧ (playShown M a (playFed M a s)).vp.pendingPhys = 0 then
        h264decResume M a.endFlush (playShown M a (playFed M a s)).ended
      else playShown M a (playFed M a s) := by
  unfold pollPlay playShown playFed playLimit Video.ended
  rfl

theorem asked_ended (s : Video) : Asked s s.ended := ⟨rfl, rfl⟩

theorem ended_fits (h : Fits n p s) : Fits n p s.ended := h.player rfl rfl rfl rfl rfl rfl h.seek

theorem pollPlay_fits (a : PlayerPoll) (h : Fits n p s) (hp : p.noteAll (pollPlayTraffic M a s) = some p') :
    Fits n p' (pollPlay M a s) ∧ Asked s (pollPlay M a s) := by
  obtain ⟨q, hloop, hend⟩ := noteAll_split hp
  obtain ⟨hfed, hasked⟩ := feedLoop_fits (M := M) a.feeds (playLimit s) _ 0 h hloop
  have hshown : Passes n q (playFed M a s) q (playShown M a (playFed M a s)) := playShown_passes a hfed
  have hasked := hasked.trans hshown.asked
  rw [pollPlay_eq]
  have hfits := hshown.fits
  clear hshown hfed hloop hp
  generalize playShown M a (playFed M a s) = t at hasked hfits hend ⊢
  by_cases hdone : playLimit s ≤ t.vp.curPicture ∧ t.vp.inFlight = 0 ∧ t.vp.pendingPhys = 0
  · rw [if_pos hdone] at hend ⊢
    obtain ⟨hresumed, hkept⟩ := resume_fits (M := M) a.endFlush (ended_fits hfits) hend
    exact ⟨hresumed, hasked.trans ((asked_ended t).trans hkept)⟩
  · rw [if_neg hdone] at hend ⊢
    cases hend
    exact ⟨hfits, hasked⟩

theorem pollPlayRev_fits (a : PlayerPoll) (h : Fits n p s) (hp : p.noteAll (pollPlayRevTraffic M a s) = some p') :
    Fits n p' (pollPlayRev M a s) ∧ Asked s (pollPlayRev M a s) := by
  have hflip := flip_passes (M := M) h
  simp only [pollPlayRevTraffic] at hp
  simp only [pollPlayRev]
  by_cases hdue : WrapClock.reached a.dueUs (flipPending M s).vp.nextFrameDue = true ∧
      (flipPending M s).vp.inFlight = 0
  · rw [if_pos hdue]
    by_cases hmore : 1 < (flipPending M s).vp.curPicture
    · rw [if_pos ⟨hdue.1, hdue.2, hmore⟩] at hp
      rw [if_pos hmore]
      obtain ⟨hfed, hasked, -⟩ := feed_fits (M := M) (a.feeds 0) _ hflip.fits hp
      have hasked := hflip.asked.trans hasked
      split
      · next hresult =>
        rw [hresult] at hfed hasked
        exact ⟨hfed, hasked⟩
      · next hresult =>
        rw [hresult] at hfed hasked
        exact ⟨hfed.player rfl rfl rfl rfl rfl rfl hfed.seek, ⟨hasked.frame, hasked.op⟩⟩
    · rw [if_neg fun hall => hmore hall.2.2] at hp
      cases hp
      rw [if_neg hmore]
      exact ⟨hflip.fits.player rfl rfl rfl rfl rfl rfl hflip.fits.seek, ⟨hflip.asked.frame, hflip.asked.op⟩⟩
  · rw [if_neg fun hall => hdue ⟨hall.1, hall.2.1⟩] at hp
    cases hp
    rw [if_neg hdue]
    exact ⟨hflip.fits, hflip.asked⟩

/-- What `videoplayer_poll` does for the mode that it is in. -/
def pollMode (a : PlayerPoll) (s : Video) : Video :=
  match s.vp.mode with
  | .play => pollPlay M a s
  | .playRev => pollPlayRev M a s
  | .still | .idle => flipPending M s

def pollModeTraffic (a : PlayerPoll) (s : Video) : List Traffic :=
  match s.vp.mode with
  | .play => pollPlayTraffic M a s
  | .playRev => pollPlayRevTraffic M a s
  | .still | .idle => []

theorem pollMode_fits (a : PlayerPoll) (h : Fits n p s) (hp : p.noteAll (pollModeTraffic (M := M) a s) = some p') :
    Fits n p' (pollMode (M := M) a s) ∧ Asked s (pollMode (M := M) a s) := by
  have hflip := flip_passes (M := M) h
  rw [pollModeTraffic] at hp
  rw [pollMode]
  cases hmode : s.vp.mode with
  | play =>
    rw [hmode] at hp
    exact pollPlay_fits a h hp
  | playRev =>
    rw [hmode] at hp
    exact pollPlayRev_fits a h hp
  | still =>
    rw [hmode] at hp
    cases hp
    exact ⟨hflip.fits, hflip.asked⟩
  | idle =>
    rw [hmode] at hp
    cases hp
    exact ⟨hflip.fits, hflip.asked⟩

theorem poll_parts (a : PlayerPoll) (h : Fits n p s) (hp : p.noteAll (videoplayerPollTraffic M a s) = some p') :
    ∃ q q', Passes n p s q (h264decPoll M a.dec s) ∧
      q.noteAll (seekPendingTraffic M a (h264decPoll M a.dec s)) = some q' ∧
      Fits n q' (seekPending M a (h264decPoll M a.dec s)) ∧
      q'.noteAll (pollModeTraffic (M := M) a (seekPending M a (h264decPoll M a.dec s))) = some p' ∧
      videoplayerPoll M a s = pollMode (M := M) a (seekPending M a (h264decPoll M a.dec s)) := by
  have hopen : ¬s.vp.isOpen = false := ne_false_of_eq_true h.live.isOpen
  simp only [videoplayerPollTraffic, if_neg hopen] at hp
  obtain ⟨q', hfirst, hmode⟩ := noteAll_split hp
  obtain ⟨q, hdecoder, hseek⟩ := noteAll_split hfirst
  have hpolled := decoderPoll_passes a.dec h hdecoder
  refine ⟨q, q', hpolled, hseek, seek_fits a hpolled.fits hseek, hmode, ?_⟩
  rw [videoplayerPoll, if_neg hopen]
  rfl

theorem poll_fits (a : PlayerPoll) (h : Fits n p s) (hp : p.noteAll (videoplayerPollTraffic M a s) = some p') :
    Fits n p' (videoplayerPoll M a s) := by
  obtain ⟨q, q', -, -, hsought, hmode, hpoll⟩ := poll_parts a h hp
  rw [hpoll]
  exact (pollMode_fits a hsought hmode).1

theorem pollMode_still (a : PlayerPoll) (h : s.vp.mode = .still) :
    pollMode (M := M) a s = flipPending M s ∧ pollModeTraffic (M := M) a s = [] := by
  rw [pollMode, pollModeTraffic, h]
  exact ⟨rfl, rfl⟩

theorem sent_flip (a : PlayerPoll) {target : UInt32} (h : Fits n p s) (hframe : s.vp.seekFrame = none)
    (hstill : s.vp.mode = .still) (hlatest : Latest p s target.toUInt64)
    (hp : p.noteAll (pollModeTraffic (M := M) a s) = some p') : Sent target p' (pollMode (M := M) a s) := by
  have hflip := flip_passes (M := M) h
  rw [(pollMode_still a hstill).2] at hp
  cases hp
  rw [(pollMode_still a hstill).1]
  exact ⟨hflip.asked.frame.trans hframe, hflip.mode.trans hstill, flip_pending, hflip.latest _ hlatest⟩

theorem poll_sent (a : PlayerPoll) {target : UInt32} (h : Fits n p s) (hs : Sent target p s)
    (hp : p.noteAll (videoplayerPollTraffic M a s) = some p') : Sent target p' (videoplayerPoll M a s) := by
  obtain ⟨q, q', hpolled, hseek, hsought, hmode, hpoll⟩ := poll_parts a h hp
  have hnone : (h264decPoll M a.dec s).vp.seekFrame = none := hpolled.asked.frame.trans hs.frame
  rw [seekPendingTraffic, hnone] at hseek
  cases hseek
  rw [seekPending_none a hnone] at hsought hmode hpoll
  rw [hpoll]
  exact sent_flip a hsought hnone (hpolled.mode.trans hs.mode) (hpolled.latest _ hs.latest) hmode

theorem poll_wanted (a : PlayerPoll) {target : UInt32} (h : Fits n p s) (hw : Wanted target s)
    (hp : p.noteAll (videoplayerPollTraffic M a s) = some p') :
    if a.seekFeed.ok = true then Sent target p' (videoplayerPoll M a s) else Wanted target (videoplayerPoll M a s) := by
  obtain ⟨q, q', hpolled, hseek, hsought, hmode, hpoll⟩ := poll_parts a h hp
  have hstep := seek_wanted (M := M) a hpolled.fits (hw.asked hpolled.asked) hseek
  rw [hpoll]
  by_cases hok : a.seekFeed.ok = true
  · rw [if_pos hok] at hstep ⊢
    obtain ⟨hframe, hstill, hlatest⟩ := hstep
    exact sent_flip a hsought hframe hstill hlatest hmode
  · rw [if_neg hok] at hstep ⊢
    exact hstep.asked (pollMode_fits a hsought hmode).2

/-! ### Operations -/

/-- What `videoplayer_goto` clips a picture number to. -/
def clipped (picture count : UInt32) : UInt32 := if count < picture then count else picture

theorem clipped_toNat (picture count : UInt32) : (clipped picture count).toNat = min picture.toNat count.toNat := by
  rw [clipped]
  split
  · next hlt =>
    have hlt := UInt32.lt_iff_toNat_lt.mp hlt
    omega
  · next hle =>
    have hle := UInt32.le_iff_toNat_le.mp (UInt32.not_lt.mp hle)
    omega

theorem clipped_pred {picture : UInt32} (hlength : FileLength n) (hpicture : picture ≠ 0) :
    (clipped picture n - 1).toNat + 1 = min picture.toNat n.toNat := by
  have hpositive : 0 < picture.toNat := Nat.pos_of_ne_zero fun hzero => hpicture (UInt32.toNat_inj.mp hzero)
  have hone := hlength.1
  have hmin := clipped_toNat picture n
  have hle : (1 : UInt32) ≤ clipped picture n := by
    rw [UInt32.le_iff_toNat_le, hmin]
    exact Nat.le_min.mpr ⟨hpositive, hone⟩
  rw [UInt32.toNat_sub_of_le _ _ hle, hmin]
  exact Nat.sub_add_cancel (Nat.le_min.mpr ⟨hpositive, hone⟩)

theorem goto_fits (picture : UInt32) (op : Char) (h : Fits n p s) : Fits n p (videoplayerGoto picture op s) := by
  rw [videoplayerGoto]
  split
  · exact h
  · next hon =>
    have hpicture : picture ≠ 0 := fun hzero => hon (Or.inr hzero)
    dsimp only
    split
    · exact h.player rfl rfl rfl rfl rfl rfl h.seek
    · split
      · exact h.player rfl rfl rfl rfl rfl rfl h.seek
      · split
        · refine h.player rfl rfl rfl rfl rfl rfl ?_
          intro target htarget
          have hsame : clipped picture s.vp.frameCount - 1 = target := Option.some.inj htarget
          have hnumber := clipped_pred h.length hpicture
          rw [← hsame, h.count]
          omega
        · exact h

theorem goto_wanted {picture : UInt32} (h : Fits n p s) (hpicture : picture ≠ 0) :
    Wanted (clipped picture n - 1) (videoplayerGoto picture 'R' s) := by
  have hon : ¬(s.vp.isOpen = false ∨ picture = 0) := by
    rintro (hclosed | hzero)
    · exact ne_false_of_eq_true h.live.isOpen hclosed
    · exact hpicture hzero
  rw [videoplayerGoto, if_neg hon, h.count]
  exact ⟨rfl, rfl⟩

end

section

variable {M : Machine} {n : UInt32} {p p' : Pipeline} {s : Video}

theorem toNat_of_toInt {x : Int32} (h : 0 ≤ x.toInt) : (x.toUInt32.toNat : Int) = x.toInt := by
  have hint : x.toInt = x.toBitVec.toInt := rfl
  have hnat : x.toUInt32.toNat = x.toBitVec.toNat := rfl
  have hlt := x.toBitVec.isLt
  rw [hint, BitVec.toInt_eq_toNat_cond] at h
  rw [hint, hnat, BitVec.toInt_eq_toNat_cond]
  split at h <;> omega

theorem step_sum {current : UInt32} {delta : Int32} (hcurrent : current.toNat ≤ PVF_MAX_FRAMES)
    (hint : (current.toNat : Int) + delta.toInt < 2147483648) :
    (current.toInt32 + delta).toInt = current.toNat + delta.toInt := by
  have hmost : current.toNat ≤ 400000 := hcurrent
  have hnumber : current.toInt32.toInt = current.toNat := by
    have hbits : current.toInt32.toInt = current.toBitVec.toInt := rfl
    have hnat : current.toNat = current.toBitVec.toNat := rfl
    rw [hbits, BitVec.toInt_eq_toNat_cond, ← hnat]
    omega
  have hleast := Int32.le_toInt delta
  rw [Int32.toInt_add, hnumber, Int.bmod_eq_of_le]
  · omega
  · omega

theorem step_target {current : UInt32} {delta : Int32} (hcurrent : current.toNat ≤ PVF_MAX_FRAMES)
    (hint : (current.toNat : Int) + delta.toInt < 2147483648) :
    (if current.toInt32 + delta < 1 then 1 else current.toInt32 + delta).toUInt32.toNat =
      (max 1 ((current.toNat : Int) + delta.toInt)).toNat := by
  have hsum := step_sum hcurrent hint
  have hone : (1 : Int32).toInt = 1 := rfl
  split
  · next hless =>
    rw [Int32.lt_iff_toInt_lt, hsum, hone] at hless
    have hfirst : (1 : Int32).toUInt32.toNat = 1 := rfl
    omega
  · next hmore =>
    rw [Int32.lt_iff_toInt_lt, hsum, hone] at hmore
    have hnumber := toNat_of_toInt (x := current.toInt32 + delta) (by omega)
    omega

theorem goto_requested {picture : UInt32} (h : Fits n p s) (hpicture : picture ≠ 0) :
    ∃ target, Wanted target (videoplayerGoto picture 'R' s) ∧ target.toNat + 1 = min picture.toNat n.toNat :=
  ⟨_, goto_wanted h hpicture, clipped_pred h.length hpicture⟩

theorem request_wanted {e : Event} {picture : Nat} (h : Fits n p s) (hrequest : requested s e = some picture) :
    ∃ target, Wanted target (step M s e) ∧ target.toNat + 1 = picture := by
  cases e with
  | goto number op =>
    rw [requested] at hrequest
    split at hrequest
    · next hstill =>
      obtain ⟨rfl, hnumber⟩ := hstill
      have hpicture := Option.some.inj hrequest
      rw [h.count] at hpicture
      rw [← hpicture]
      exact goto_requested h hnumber
    · cases hrequest
  | stepBy delta =>
    simp only [requested] at hrequest
    split at hrequest
    · next hint =>
      have hpicture := Option.some.inj hrequest
      have hmost := le_trans h.current.2 h.length.2
      have htarget := step_target hmost hint
      rw [h.count, ← htarget] at hpicture
      have hon : ¬(s.vp.isOpen = false ∨ s.vp.curPicture = 0) := by
        rintro (hclosed | hzero)
        · exact ne_false_of_eq_true h.live.isOpen hclosed
        · have hfirst := h.current.1
          rw [hzero] at hfirst
          exact absurd hfirst (by decide)
      rw [step, videoplayerStep, if_neg hon, ← hpicture]
      apply goto_requested h
      intro hzero
      rw [hzero] at htarget
      have hnone : (0 : UInt32).toNat = 0 := rfl
      omega
    · cases hrequest
  | init => cases hrequest
  | poll => cases hrequest
  | playFwd => cases hrequest
  | playRev => cases hrequest
  | halt => cases hrequest
  | pause => cases hrequest

theorem halt_fits (h : Fits n p s) : Fits n p (videoplayerHalt s) := by
  rw [videoplayerHalt]
  split
  · exact h
  · exact h.player rfl rfl rfl rfl rfl rfl h.seek

theorem playFwd_fits (a : Flush) (nowUs : UInt32) (h : Fits n p s)
    (hp : p.noteAll (videoplayerPlayFwdTraffic M a s) = some p') : Fits n p' (videoplayerPlayFwd M a nowUs s) := by
  rw [videoplayerPlayFwdTraffic] at hp
  rw [videoplayerPlayFwd]
  split at hp
  · next hoff =>
    rw [if_pos hoff]
    cases hp
    exact h
  · next hon =>
    rw [if_neg hon]
    have hstart : Fits n p { s with vp := { s.vp with nextFrame := s.vp.curPicture, inFlight := 0 } } :=
      h.player rfl rfl rfl rfl rfl rfl h.seek
    have hresume := (resume_fits (M := M) a hstart hp).1
    exact hresume.player rfl rfl rfl rfl rfl rfl hresume.seek

theorem playRev_fits (a : Flush) (nowUs : UInt32) (h : Fits n p s)
    (hp : p.noteAll (videoplayerPlayRevTraffic M a s) = some p') : Fits n p' (videoplayerPlayRev M a nowUs s) := by
  rw [videoplayerPlayRevTraffic] at hp
  rw [videoplayerPlayRev, if_neg (ne_false_of_eq_true h.live.isOpen)]
  by_cases hflight : s.vp.inFlight = 0
  · rw [if_pos (Or.inr hflight)] at hp
    cases hp
    simp only [if_neg (not_not.mpr hflight)]
    exact h.player rfl rfl rfl rfl rfl rfl h.seek
  · have hon : ¬(s.vp.isOpen = false ∨ s.vp.inFlight = 0) := by
      rintro (hclosed | hnone)
      · exact ne_false_of_eq_true h.live.isOpen hclosed
      · exact hflight hnone
    rw [if_neg hon] at hp
    simp only [if_pos hflight]
    have hresume := (resume_fits (M := M) a h hp).1
    exact hresume.player rfl rfl rfl rfl rfl rfl hresume.seek

theorem step_fits (e : Event) (he : e.operates = true) (h : Fits n p s) (hp : p.noteAll (stepTraffic M s e) = some p') :
    Fits n p' (step M s e) := by
  cases e with
  | init => cases he
  | poll a => exact poll_fits a h hp
  | playFwd a nowUs => exact playFwd_fits a nowUs h hp
  | playRev a nowUs => exact playRev_fits a nowUs h hp
  | goto picture op =>
    cases hp
    exact goto_fits picture op h
  | halt =>
    cases hp
    exact halt_fits h
  | pause =>
    cases hp
    exact halt_fits h
  | stepBy delta =>
    cases hp
    rw [step, videoplayerStep]
    split
    · exact h
    · exact goto_fits _ 'R' h

/-! ### Runs -/

theorem runTraffic_append (events events' : List Event) (s : Video) :
    runTraffic M s (events ++ events') = runTraffic M s events ++ runTraffic M (final (step M) s events) events' := by
  induction events generalizing s with
  | nil => rfl
  | cons e rest ih => rw [List.cons_append, runTraffic, runTraffic, ih, List.append_assoc, History.final_cons]

theorem run_fits (events : List Event) (hops : ∀ e ∈ events, e.operates = true) (h : Fits n p s)
    (hp : p.noteAll (runTraffic M s events) = some p') : Fits n p' (final (step M) s events) := by
  induction events generalizing p s with
  | nil =>
    cases hp
    exact h
  | cons e rest ih =>
    obtain ⟨q, hfirst, hrest⟩ := noteAll_split hp
    have hnext := step_fits e (hops e List.mem_cons_self) h hfirst
    exact ih (fun e he => hops e (List.mem_cons_of_mem _ he)) hnext hrest

theorem polls_sent (polls : List PlayerPoll) {target : UInt32} (h : Fits n p s) (hs : Sent target p s)
    (hp : p.noteAll (runTraffic M s (polls.map .poll)) = some p') :
    Sent target p' (final (step M) s (polls.map .poll)) := by
  induction polls generalizing p s with
  | nil =>
    cases hp
    exact hs
  | cons a rest ih =>
    obtain ⟨q, hfirst, hrest⟩ := noteAll_split hp
    exact ih (poll_fits a h hfirst) (poll_sent a h hs hfirst) hrest

theorem polls_wanted (polls : List PlayerPoll) {target : UInt32} (h : Fits n p s) (hw : Wanted target s)
    (hroom : ∃ a ∈ polls, a.seekFeed.ok = true) (hp : p.noteAll (runTraffic M s (polls.map .poll)) = some p') :
    Sent target p' (final (step M) s (polls.map .poll)) := by
  induction polls generalizing p s with
  | nil =>
    obtain ⟨a, ha, -⟩ := hroom
    cases ha
  | cons a rest ih =>
    obtain ⟨q, hfirst, hrest⟩ := noteAll_split hp
    have hfits := poll_fits a h hfirst
    have hstep := poll_wanted a h hw hfirst
    by_cases hok : a.seekFeed.ok = true
    · rw [if_pos hok] at hstep
      exact polls_sent rest hfits hstep hrest
    · rw [if_neg hok] at hstep
      refine ih hfits hstep ?_ hrest
      obtain ⟨a', ha', hok'⟩ := hroom
      rcases List.mem_cons.mp ha' with rfl | hlater
      · exact absurd hok' hok
      · exact ⟨a', hlater, hok'⟩

theorem sent_shown {target : UInt32} (h : Fits n p s) (hs : Sent target p s) (hempty : p.queue = []) :
    s.vp.curPicture.toNat = target.toNat + 1 ∧ p.picture s.vp.displayedPhys = target.toUInt64 := by
  rcases hs.latest with hlast | ⟨-, hpending, -⟩ | ⟨-, -, hdisplayed, hsame⟩
  · rw [hempty] at hlast
    cases hlast
  · exact absurd hs.pending hpending
  · have hnumber := h.displayed hdisplayed
    rw [hsame, UInt32.toNat_toUInt64] at hnumber
    exact ⟨hnumber.symm, hsame⟩

end

/-! ### An open file -/

section

variable {M : Machine}

theorem add_vp (phys size : UInt32) (s : Video) : (h264decAddOutputBuffer M phys size s).2.vp = s.vp := by
  rw [h264decAddOutputBuffer]
  split
  · rfl
  · split
    · rfl
    · exact arm_vp _

theorem decoder_vp (width height : UInt32) (ok : Bool) (s : Video) : (h264decInit width height ok s).2.vp = s.vp := by
  rw [h264decInit]
  split
  · rfl
  · split <;> rfl

/-- The player once `videoplayer_init` has opened a file. -/
structure JustOpened (n : UInt32) (v : Player) : Prop where
  count : v.frameCount = n
  current : v.curPicture = 1
  pending : v.pendingPhys = 0
  displayed : v.displayedPhys = 0
  seek : v.seekFrame = some (clipped 1 n - 1)

theorem buffers_opened {a : InitAnswer} {s : Video} (hcount : s.vp.frameCount = a.frameCount)
    (hpending : s.vp.pendingPhys = 0) (hdisplayed : s.vp.displayedPhys = 0) (hclosed : s.vp.isOpen = false)
    (hopen : (setUpBuffers M a s).vp.isOpen = true) : JustOpened a.frameCount (setUpBuffers M a s).vp := by
  simp only [setUpBuffers] at hopen ⊢
  by_cases hnone : a.buffer0 = 0
  · rw [if_pos hnone, hclosed] at hopen
    cases hopen
  · rw [if_neg hnone] at hopen ⊢
    have hvp := add_vp (M := M) a.buffer0 s.vp.frameBytes s
    generalize (h264decAddOutputBuffer M a.buffer0 s.vp.frameBytes s).2 = t at hvp hopen ⊢
    by_cases hone : a.buffer1 = 0
    · rw [if_pos hone, hvp, hclosed] at hopen
      cases hopen
    · rw [if_neg hone]
      have hvp' := (add_vp (M := M) a.buffer1 t.vp.frameBytes t).trans hvp
      generalize (h264decAddOutputBuffer M a.buffer1 t.vp.frameBytes t).2 = u at hvp' ⊢
      have hon : ¬(true = false ∨ (1 : UInt32) = 0) := by decide
      simp only [videoplayerGoto, if_neg hon, hvp']
      exact ⟨hcount, rfl, hpending, hdisplayed, congrArg (fun n => some (clipped 1 n - 1)) hcount⟩

theorem init_opened (a : InitAnswer) (s : Video) (hopen : (videoplayerInit M a s).vp.isOpen = true) :
    JustOpened a.frameCount (videoplayerInit M a s).vp := by
  have htorn : (tearDown M a s).vp = {} := rfl
  simp only [videoplayerInit] at hopen ⊢
  generalize tearDown M a s = t at htorn hopen ⊢
  by_cases hfile : a.file = false
  · rw [if_pos hfile, htorn] at hopen
    cases hopen
  · rw [if_neg hfile] at hopen ⊢
    have hvp := decoder_vp a.width a.height a.decoder { t with vp := { t.vp with
      frameCount := a.frameCount
      frameBytes := a.frameBytes
      framePeriodUs := a.framePeriodUs } }
    generalize h264decInit a.width a.height a.decoder { t with vp := { t.vp with
      frameCount := a.frameCount
      frameBytes := a.frameBytes
      framePeriodUs := a.framePeriodUs } } = result at hvp hopen ⊢
    obtain ⟨ok, u⟩ := result
    dsimp only at hvp
    cases ok with
    | false =>
      dsimp only at hopen
      rw [hvp, htorn] at hopen
      cases hopen
    | true =>
      dsimp only at hopen ⊢
      apply buffers_opened _ _ _ _ hopen
      · rw [hvp]
      · rw [hvp, htorn]
      · rw [hvp, htorn]
      · rw [hvp, htorn]

theorem opened_fits {n : UInt32} {s : Video} (hl : Live s) (hlength : FileLength n) (h : JustOpened n s.vp)
    (picture : UInt32 → UInt64) : Fits n ⟨[], picture⟩ s where
  live := hl
  length := hlength
  count := h.count
  queue := nofun
  seek := by
    intro target htarget
    rw [h.seek] at htarget
    have hnumber := clipped_pred hlength (show (1 : UInt32) ≠ 0 by decide)
    rw [← Option.some.inj htarget]
    omega
  current := by
    rw [h.current]
    exact ⟨le_refl 1, hlength.1⟩
  pending := fun hpending => absurd h.pending hpending
  displayed := fun hdisplayed => absurd h.displayed hdisplayed

theorem run_opened (earlier : List Event) (a : InitAnswer) (picture : UInt32 → UInt64)
    (hfresh : ∀ st ∈ History.history (step M) {} (earlier ++ [.init a]), Fresh st.pre st.op)
    (hopen : (final (step M) {} (earlier ++ [.init a])).vp.isOpen = true) (hlength : FileLength a.frameCount) :
    Fits a.frameCount ⟨[], picture⟩ (final (step M) {} (earlier ++ [.init a])) := by
  have hstart : Shut {} :=
    ⟨sound_empty (fun _ => ⟨rfl, rfl, rfl, rfl⟩) rfl, rfl, rfl, fun _ => ⟨rfl, rfl⟩, rfl, rfl, rfl⟩
  have hall := (History.guarded_induction (step M) (fun t => Live t ∨ Shut t) Fresh (.inr hstart)
    (fun t e ht he => step_kept e ht he) _ hfresh).1
  have hl : Live (final (step M) {} (earlier ++ [.init a])) := by
    rcases hall with hl | hs
    · exact hl
    · rw [hs.isOpen] at hopen
      cases hopen
  rw [History.final_snoc] at hl hopen ⊢
  exact opened_fits hl hlength (init_opened a _ hopen) picture

end

/-- With an open file and a decoder that gives back in order what it is sent and what is not flushed: the current
picture is in the file after every run of operations and polls.  After a request for a still, or a step, and polls
alone, of which one has found room in the decoder, once the decoder is empty the picture that was asked for is on
the display, and the player is in still mode. -/
theorem still_pictures (M : Machine) (earlier : List Event) (a : InitAnswer) (picture : UInt32 → UInt64)
    (hfresh : ∀ st ∈ History.history (step M) {} (earlier ++ [.init a]), Fresh st.pre st.op)
    (hopen : (final (step M) {} (earlier ++ [.init a])).vp.isOpen = true) (hlength : FileLength a.frameCount)
    (events : List Event) (hops : ∀ e ∈ events, e.operates = true) (p : Pipeline)
    (horder : Pipeline.noteAll ⟨[], picture⟩
      (runTraffic M (final (step M) {} (earlier ++ [.init a])) events) = some p) :
    let opened := final (step M) {} (earlier ++ [.init a])
    let now := final (step M) opened events
    (1 ≤ now.vp.curPicture.toNat ∧ now.vp.curPicture.toNat ≤ a.frameCount.toNat) ∧
      ∀ (before : List Event) (request : Event) (polls : List PlayerPoll) (number : Nat),
        events = before ++ request :: polls.map .poll →
        requested (final (step M) opened before) request = some number →
        (∃ poll ∈ polls, poll.seekFeed.ok = true) → p.queue = [] →
        now.vp.curPicture.toNat = number ∧ (p.picture now.vp.displayedPhys).toNat + 1 = number ∧
          now.vp.mode = .still := by
  intro opened now
  have hopened : Fits a.frameCount ⟨[], picture⟩ opened := run_opened earlier a picture hfresh hopen hlength
  have hnow := run_fits events hops hopened horder
  refine ⟨hnow.current, ?_⟩
  intro before request polls number hevents hrequest hroom hempty
  subst hevents
  rw [runTraffic_append] at horder
  obtain ⟨q, hbefore, hrest⟩ := noteAll_split horder
  obtain ⟨q', hasked, hpolls⟩ := noteAll_split hrest
  have hbeforeFits : Fits a.frameCount q (final (step M) opened before) :=
    run_fits before (fun e he => hops e (List.mem_append_left _ he)) hopened hbefore
  have hrequestFits := step_fits request (hops request (List.mem_append_right _ List.mem_cons_self)) hbeforeFits hasked
  obtain ⟨target, hwanted, hnumber⟩ := request_wanted (M := M) hbeforeFits hrequest
  have hsent := polls_wanted polls hrequestFits hwanted hroom hpolls
  have hfinal : now = final (step M) (step M (final (step M) opened before) request) (polls.map .poll) :=
    (History.final_append ..).trans (History.final_cons ..)
  rw [← hfinal] at hsent
  obtain ⟨hcurrent, hpicture⟩ := sent_shown hnow hsent hempty
  refine ⟨hcurrent.trans hnumber, ?_, hsent.mode⟩
  rw [hpicture, UInt32.toNat_toUInt64]
  exact hnumber

def tenPictures : InitAnswer := ⟨⟨[], [], []⟩, true, 32, 16, 10, 40000, true, 0x1000, 0x2000⟩

def quietPoll (arrivals : List Arrival) : PlayerPoll :=
  ⟨⟨arrivals, ⟨⟨[], true⟩, ⟨[], true⟩, ⟨[], true⟩, ⟨[], true⟩⟩, []⟩, ⟨[], []⟩, ⟨[], true⟩, 0, fun _ => ⟨[], true⟩, 0,
    ⟨[], []⟩⟩

def showThird : List Event :=
  [.poll (quietPoll [.formatChanged]), .poll (quietPoll [.returned 0 768 true 0])] ++
    .goto 3 'R' :: [quietPoll [], quietPoll [.returned 1 768 true 2]].map .poll

theorem still_pictures_third :
    (final (step ⟨fun _ => true⟩) {} (.init tenPictures :: showThird)).vp.curPicture.toNat = 3 := by
  have horder : (Pipeline.noteAll ⟨[], fun _ => 0⟩ (runTraffic ⟨fun _ => true⟩
      (final (step ⟨fun _ => true⟩) {} ([] ++ [.init tenPictures])) showThird)).map Pipeline.queue = some [] := by
    decide +kernel
  obtain ⟨p, hp, hempty⟩ := Option.map_eq_some_iff.mp horder
  exact ((still_pictures ⟨fun _ => true⟩ [] tenPictures (fun _ => 0) (by decide +kernel) (by decide +kernel)
    ⟨by decide, by decide⟩ showThird (by decide) p hp).2 _ (.goto 3 'R')
      [quietPoll [], quietPoll [.returned 1 768 true 2]] 3 rfl (by decide +kernel) ⟨quietPoll [], by simp, rfl⟩
      hempty).1

/-- A goto to picture 0 leaves the player as it is. -/
theorem videoplayerGoto_zero (op : Char) (s : Video) : videoplayerGoto 0 op s = s := by
  rw [videoplayerGoto, if_pos (.inr rfl)]

/-- A still of picture 0 is not carried out: the third picture stays on the display, and the player goes on
playing backwards. -/
theorem goto_zero_ignored :
    let opened := final (step ⟨fun _ => true⟩) {} [.init tenPictures]
    let events := showThird ++ [.playRev ⟨[], []⟩ 0, .goto 0 'R', .poll (quietPoll [])]
    (Pipeline.noteAll ⟨[], fun _ => 0⟩ (runTraffic ⟨fun _ => true⟩ opened events)).map Pipeline.queue = some [] ∧
      (final (step ⟨fun _ => true⟩) opened events).vp.curPicture = 3 ∧
      (final (step ⟨fun _ => true⟩) opened events).vp.mode = .playRev := by
  decide +kernel

end Pi1MHz.VideoPlayer
