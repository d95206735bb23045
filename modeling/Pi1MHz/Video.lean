import Pi1MHz.History
import Pi1MHz.WrapClock
import Pi1MHz.FinSizes

/-!
# Frame buffers between the decoder and the display

The video player of `videoplayer.c` over the decoder layer `h264dec.c`.  A frame buffer is owned by three
flags of its slot in the decoder layer and by two addresses in the player.

Left out: the input buffers, of which only the outcome of feeding a frame remains, and sound.
-/

namespace Pi1MHz.VideoPlayer

open FinSizes

open History (final history)

structure Machine where
  accepts : Nat → Bool

/-! ### State -/

/-- `output_slot_t`; `phys` is `busaddr & 0x3FFFFFFF`. -/
structure Slot where
  phys : UInt32 := 0
  registered : Bool := false
  withComponent : Bool := false
  withCaller : Bool := false
  inFlight : Bool := false
  deriving DecidableEq

/-- The statics of `h264dec.c`. -/
structure Decoder where
  running : Bool := false
  outputEnabled : Bool := false
  reconfigurePending : Bool := false
  frameBytes : UInt32 := 0
  frames : UInt32 := 0
  out : Fin 3 → Slot := fun _ => {}

/-- `vp_mode_t`. -/
inductive Mode where
  | idle
  | still
  | play
  | playRev
  deriving DecidableEq, Repr

/-- The statics of `videoplayer.c`. -/
structure Player where
  isOpen : Bool := false
  frameCount : UInt32 := 0
  frameBytes : UInt32 := 0
  framePeriodUs : UInt32 := 0
  displayedPhys : UInt32 := 0
  pendingPhys : UInt32 := 0
  pendingPts : UInt64 := 0
  mode : Mode := .idle
  prevMode : Mode := .idle
  curPicture : UInt32 := 0
  nextFrame : UInt32 := 0
  stopPicture : UInt32 := 0
  infoPicture : UInt32 := 0
  inFlight : Int := 0
  seekFrame : Option UInt32 := none
  seekOp : Char := '\x00'
  nextFrameDue : UInt32 := 0

inductive Moment where
  | submitted (i : Fin 3) (phys : UInt32)
  | returned (i : Fin 3)
  | flipped (phys : UInt32)
  deriving DecidableEq

structure Video where
  dec : Decoder := {}
  vp : Player := {}
  attempts : Nat := 0
  log : List Moment := []

def Video.setSlot (i : Fin 3) (o : Slot) (s : Video) : Video :=
  { s with dec := { s.dec with out := Function.update s.dec.out i o } }

inductive Arrival where
  | returned (i : Fin 3) (length : UInt32) (eos : Bool) (pts : UInt64)
  | formatChanged

section

variable (M : Machine)

/-! ### h264dec.c -/

/-- `mmal_vc_submit_buffer`, for an output buffer. -/
def submitBuffer (i : Fin 3) (s : Video) : Bool × Video :=
  if M.accepts s.attempts = true then
    (true, { s.setSlot i { s.dec.out i with inFlight := true } with
      attempts := s.attempts + 1
      log := s.log ++ [.submitted i (s.dec.out i).phys] })
  else (false, { s with attempts := s.attempts + 1 })

def Slot.idle (o : Slot) : Bool := o.registered && !o.withComponent && !o.withCaller && !o.inFlight

def armFrom : List (Fin 3) → Video → Video
  | [], s => s
  | i :: rest, s =>
    if (s.dec.out i).idle = false then armFrom rest s
    else
      match submitBuffer M i s with
      | (true, s) => armFrom rest (s.setSlot i { s.dec.out i with withComponent := true })
      | (false, s) => s

def armOutputBuffers (s : Video) : Video := if s.dec.outputEnabled = false then s else armFrom M [0, 1, 2] s

def h264decRecycleOutput (phys : UInt32) (s : Video) : Video :=
  match [0, 1, 2].find? fun i => (s.dec.out i).registered && (s.dec.out i).phys == phys with
  | none => s
  | some i =>
    if (s.dec.out i).withCaller = true then
      armOutputBuffers M (s.setSlot i { s.dec.out i with withCaller := false })
    else s

def Player.frameBack (v : Player) : Player := { v with inFlight := if 0 < v.inFlight then v.inFlight - 1 else v.inFlight }

def frameDecoded (phys : UInt32) (pts : UInt64) (eos : Bool) (s : Video) : Video :=
  if eos = true ∧ phys = 0 then s
  else
    let s := { s with vp := s.vp.frameBack }
    let s := if s.vp.pendingPhys ≠ 0 ∧ s.vp.pendingPhys ≠ s.vp.displayedPhys then
        h264decRecycleOutput M s.vp.pendingPhys s
      else s
    { s with vp := { s.vp with pendingPhys := phys, pendingPts := pts } }

/-- `complete_buffer`, and what `on_buffer_done` begins with for an output buffer. -/
def completeBuffer (i : Fin 3) (s : Video) : Video :=
  { s.setSlot i { s.dec.out i with inFlight := false, withComponent := false } with
    log := s.log ++ [.returned i] }

def countFrame (s : Video) : Video := { s with dec := { s.dec with frames := s.dec.frames + 1 } }

def onBufferDone (i : Fin 3) (length : UInt32) (eos : Bool) (pts : UInt64) (s : Video) : Video :=
  if s.dec.frameBytes ≤ length then
    frameDecoded M (s.dec.out i).phys pts eos
      ((countFrame s).setSlot i { s.dec.out i with withCaller := true })
  else if eos = true ∧ length = 0 then frameDecoded M 0 pts true s
  else s

def arrive (s : Video) : Arrival → Video
  | .returned i length eos pts =>
    if (s.dec.out i).inFlight = true then onBufferDone M i length eos pts (completeBuffer i s) else s
  | .formatChanged => { s with dec := { s.dec with reconfigurePending := true } }

def arriveAll (arrivals : List Arrival) (s : Video) : Video := arrivals.foldl (arrive M) s

structure Call where
  arrivals : List Arrival
  ok : Bool

/-- The calls of `reconfigure_output`. -/
structure Reconfigure where
  disable : Call
  info : Call
  setFormat : Call
  enable : Call

def disableOutput (c : Call) (s : Video) : Video :=
  if s.dec.outputEnabled = true then
    let s := arriveAll M c.arrivals s
    { s with dec := { s.dec with
      outputEnabled := false
      out := fun i => { s.dec.out i with withComponent := false } } }
  else s

def reconfigureOutput (a : Reconfigure) (s : Video) : Bool × Video :=
  let s := arriveAll M a.info.arrivals (disableOutput M a.disable s)
  if a.info.ok = false then (false, s)
  else
    let s := arriveAll M a.setFormat.arrivals s
    if a.setFormat.ok = false then (false, s)
    else
      let s := arriveAll M a.enable.arrivals s
      if a.enable.ok = false then (false, s)
      else (true, armOutputBuffers M { s with dec := { s.dec with outputEnabled := true } })

/-- `h264dec_init`: the dimensions are checked, and a decoder that runs is left as it is. -/
def h264decInit (width height : UInt32) (ok : Bool) (s : Video) : Bool × Video :=
  if s.dec.running = true then (true, s)
  else if width &&& 31 ≠ 0 ∨ height &&& 15 ≠ 0 then (false, s)
  else (ok, { s with dec := { running := ok, frameBytes := width * height * 3 / 2 } })

def h264decAddOutputBuffer (phys size : UInt32) (s : Video) : Bool × Video :=
  if size < s.dec.frameBytes then (false, s)
  else
    match [0, 1, 2].find? fun i => !(s.dec.out i).registered with
    | none => (false, s)
    | some i => (true, armOutputBuffers M (s.setSlot i { s.dec.out i with phys := phys, registered := true }))

/-- The two ports that `h264dec_resume` flushes. -/
structure Flush where
  input : List Arrival
  output : List Arrival

def h264decResume (a : Flush) (s : Video) : Video :=
  if s.dec.running = false then s
  else
    let s := arriveAll M a.input s
    let s := if s.dec.outputEnabled = true then arriveAll M a.output s else s
    armOutputBuffers M s

/-- What arrives during the calls of `h264dec_reset`. -/
structure Reset where
  disableIn : List Arrival
  disableOut : List Arrival
  enableIn : List Arrival

def h264decReset (a : Reset) (s : Video) : Video :=
  if s.dec.running = false then s
  else
    let wasEnabled := s.dec.outputEnabled
    let s := arriveAll M a.disableIn s
    let s := if s.dec.outputEnabled = true then
        let s := arriveAll M a.disableOut s
        { s with dec := { s.dec with outputEnabled := false } }
      else s
    let s := { s with dec := { s.dec with out := fun i => { phys := (s.dec.out i).phys } } }
    let s := arriveAll M a.enableIn s
    { s with dec := { s.dec with reconfigurePending := wasEnabled } }

/-- What `h264dec_poll` finds; `eos` arrives while an end marker that is owed is sent. -/
structure DecoderPoll where
  arrivals : List Arrival
  reconfigure : Reconfigure
  eos : List Arrival

def reconfigureIfPending (a : Reconfigure) (s : Video) : Video :=
  if s.dec.reconfigurePending = true then
    match reconfigureOutput M a { s with dec := { s.dec with reconfigurePending := false } } with
    | (true, s) => s
    | (false, s) => { s with dec := { s.dec with reconfigurePending := true } }
  else s

def h264decPoll (a : DecoderPoll) (s : Video) : Video :=
  if s.dec.running = false then s
  else armOutputBuffers M (arriveAll M a.eos (reconfigureIfPending M a.reconfigure (arriveAll M a.arrivals s)))

/-! ### videoplayer.c -/

/-- `feed_frame`: what arrives while the frame is submitted, and whether it could be read and was taken. -/
def feedFrame (c : Call) (frame : UInt32) (s : Video) : Bool × Video :=
  if s.vp.frameCount ≤ frame then (false, s)
  else
    let s := arriveAll M c.arrivals s
    if c.ok = false then (false, s) else (true, { s with vp := { s.vp with inFlight := s.vp.inFlight + 1 } })

def flipPending (s : Video) : Video :=
  let phys := s.vp.pendingPhys
  if phys = 0 then s
  else
    let s := { s with vp := { s.vp with pendingPhys := 0 }, log := s.log ++ [.flipped phys] }
    let s := if s.vp.displayedPhys ≠ 0 ∧ s.vp.displayedPhys ≠ phys then
        h264decRecycleOutput M s.vp.displayedPhys s
      else s
    { s with vp := { s.vp with displayedPhys := phys, curPicture := s.vp.pendingPts.toUInt32 + 1 } }

structure PlayerPoll where
  dec : DecoderPoll
  seekFlush : Flush
  seekFeed : Call
  seekUs : UInt32
  feeds : Nat → Call
  dueUs : UInt32
  endFlush : Flush

def seekPending (a : PlayerPoll) (s : Video) : Video :=
  match s.vp.seekFrame with
  | none => s
  | some target =>
    let s := if s.vp.inFlight ≠ 0 then h264decResume M a.seekFlush s else s
    let s := { s with vp := { s.vp with inFlight := 0 } }
    let play := s.vp.seekOp == 'N' || (s.vp.seekOp == 'Q' && s.vp.prevMode == .play)
    match feedFrame M a.seekFeed target s with
    | (false, s) => s
    | (true, s) =>
      { s with vp := { s.vp with
        seekFrame := none
        nextFrame := target + 1
        mode := if play then .play else .still
        nextFrameDue := a.seekUs + s.vp.framePeriodUs } }

def feedLoop (feeds : Nat → Call) (limit : UInt32) : Nat → Nat → Video → Video
  | 0, _, s => s
  | n + 1, k, s =>
    if s.vp.inFlight < 2 ∧ s.vp.nextFrame < limit then
      match feedFrame M (feeds k) s.vp.nextFrame s with
      | (false, s) => s
      | (true, s) => feedLoop feeds limit n (k + 1) { s with vp := { s.vp with nextFrame := s.vp.nextFrame + 1 } }
    else s

def pollPlay (a : PlayerPoll) (s : Video) : Video :=
  let limit := if s.vp.stopPicture ≠ 0 then s.vp.stopPicture else s.vp.frameCount
  let s := feedLoop M a.feeds limit (limit - s.vp.nextFrame).toNat 0 s
  let s := if s.vp.pendingPhys ≠ 0 ∧ WrapClock.reached a.dueUs s.vp.nextFrameDue = true then
      let s := flipPending M s
      { s with vp := { s.vp with nextFrameDue := s.vp.nextFrameDue + s.vp.framePeriodUs } }
    else s
  if limit ≤ s.vp.curPicture ∧ s.vp.inFlight = 0 ∧ s.vp.pendingPhys = 0 then
    h264decResume M a.endFlush { s with vp := { s.vp with
      mode := .still
      stopPicture := if s.vp.stopPicture ≠ 0 ∧ s.vp.stopPicture ≤ s.vp.curPicture then 0 else s.vp.stopPicture } }
  else s

def pollPlayRev (a : PlayerPoll) (s : Video) : Video :=
  let s := flipPending M s
  if WrapClock.reached a.dueUs s.vp.nextFrameDue = true ∧ s.vp.inFlight = 0 then
    if 1 < s.vp.curPicture then
      match feedFrame M (a.feeds 0) (s.vp.curPicture - 2) s with
      | (false, s) => s
      | (true, s) => { s with vp := { s.vp with nextFrameDue := s.vp.nextFrameDue + s.vp.framePeriodUs } }
    else { s with vp := { s.vp with mode := .still } }
  else s

def videoplayerPoll (a : PlayerPoll) (s : Video) : Video :=
  if s.vp.isOpen = false then s
  else
    let s := seekPending M a (h264decPoll M a.dec s)
    match s.vp.mode with
    | .play => pollPlay M a s
    | .playRev => pollPlayRev M a s
    | .still | .idle => flipPending M s

def videoplayerGoto (picture : UInt32) (op : Char) (s : Video) : Video :=
  if s.vp.isOpen = false ∨ picture = 0 then s
  else
    let picture := if s.vp.frameCount < picture then s.vp.frameCount else picture
    if op = 'S' then { s with vp := { s.vp with stopPicture := picture } }
    else if op = 'I' then { s with vp := { s.vp with infoPicture := picture } }
    else if op = 'R' ∨ op = 'N' ∨ op = 'Q' then
      { s with vp := { s.vp with
        prevMode := if s.vp.mode = .play then .play else .still
        seekFrame := some (picture - 1)
        seekOp := op } }
    else s

def videoplayerPlayFwd (a : Flush) (nowUs : UInt32) (s : Video) : Video :=
  if s.vp.isOpen = false ∨ s.vp.mode = .play then s
  else
    let s := h264decResume M a { s with vp := { s.vp with nextFrame := s.vp.curPicture, inFlight := 0 } }
    { s with vp := { s.vp with mode := .play, nextFrameDue := nowUs + s.vp.framePeriodUs } }

def videoplayerPlayRev (a : Flush) (nowUs : UInt32) (s : Video) : Video :=
  if s.vp.isOpen = false then s
  else
    let s := if s.vp.inFlight ≠ 0 then h264decResume M a s else s
    { s with vp := { s.vp with inFlight := 0, mode := .playRev, nextFrameDue := nowUs + s.vp.framePeriodUs } }

def videoplayerHalt (s : Video) : Video :=
  if s.vp.isOpen = false then s else { s with vp := { s.vp with mode := .still } }

def videoplayerStep (delta : Int32) (s : Video) : Video :=
  if s.vp.isOpen = false ∨ s.vp.curPicture = 0 then s
  else
    let target := s.vp.curPicture.toInt32 + delta
    videoplayerGoto (if target < 1 then 1 else target).toUInt32 'R' s

/-- What the set-up of the player finds: the file, the decoder, and the memory that the GPU gives. -/
structure InitAnswer where
  reset : Reset
  file : Bool
  width : UInt32
  height : UInt32
  frameCount : UInt32
  framePeriodUs : UInt32
  decoder : Bool
  buffer0 : UInt32
  buffer1 : UInt32

def InitAnswer.frameBytes (a : InitAnswer) : UInt32 := a.width * a.height * 3 / 2

/-- What `videoplayer_init` begins with. -/
def tearDown (a : InitAnswer) (s : Video) : Video :=
  let s := if s.vp.isOpen = true then h264decReset M a.reset s else s
  { s with vp := {}, log := [] }

/-- It ends with the frame buffers.  An address of 0 is memory that could not be had; what was allocated is
given back then. -/
def setUpBuffers (a : InitAnswer) (s : Video) : Video :=
  if a.buffer0 = 0 then s
  else
    let s := (h264decAddOutputBuffer M a.buffer0 s.vp.frameBytes s).2
    if a.buffer1 = 0 then s
    else
      let s := (h264decAddOutputBuffer M a.buffer1 s.vp.frameBytes s).2
      videoplayerGoto 1 'R' { s with vp := { s.vp with isOpen := true, mode := .still, curPicture := 1 } }

def videoplayerInit (a : InitAnswer) (s : Video) : Video :=
  let s := tearDown M a s
  if a.file = false then s
  else
    let s := { s with vp := { s.vp with
      frameCount := a.frameCount
      frameBytes := a.frameBytes
      framePeriodUs := a.framePeriodUs } }
    match h264decInit a.width a.height a.decoder s with
    | (false, s) => s
    | (true, s) => setUpBuffers M a s

inductive Event where
  | init (a : InitAnswer)
  | poll (a : PlayerPoll)
  | goto (picture : UInt32) (op : Char)
  | playFwd (a : Flush) (nowUs : UInt32)
  | playRev (a : Flush) (nowUs : UInt32)
  | halt
  | pause
  | stepBy (delta : Int32)

def step (s : Video) : Event → Video
  | .init a => videoplayerInit M a s
  | .poll a => videoplayerPoll M a s
  | .goto picture op => videoplayerGoto picture op s
  | .playFwd a nowUs => videoplayerPlayFwd M a nowUs s
  | .playRev a nowUs => videoplayerPlayRev M a nowUs s
  | .halt => videoplayerHalt s
  | .pause => videoplayerHalt s
  | .stepBy delta => videoplayerStep delta s

end

end Pi1MHz.VideoPlayer
