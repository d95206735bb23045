import Mathlib.Data.List.Forall2
import Pi1MHz.History

/-!
# Firmware events and the link state

What the Wi-Fi chip says of the link comes in event frames, on a channel of their own or on the data
channel under the Ethernet type of the chip's maker.  The rest of a frame's treatment, the credit window and
the replies to commands among it, is not modelled here.
-/

namespace Pi1MHz.SdioLink

open History (final history)

def SDPCM_CONTROL_CHANNEL : UInt8 := 0
def SDPCM_EVENT_CHANNEL : UInt8 := 1
def SDPCM_DATA_CHANNEL : UInt8 := 2
def SDPCM_DATA_HEADER_LENGTH : Nat := 14
def SDPCM_PREFIX_LENGTH : Nat := 4
def BDC_PROTOCOL_VERSION : UInt8 := 2
def CDC_HEADER_LENGTH : Nat := 16
def ETHERNET_HEADER_LENGTH : Nat := 14
def ETHER_TYPE_BRCM : UInt16 := 0x886c
def BRCM_EVENT_VERSION : UInt8 := 2
def BRCM_EVENT_HEADER_LENGTH : Nat := 10
def BRCM_EVENT_MSG_LENGTH : Nat := 48
def SDIO_RUNTIME_MAX_FRAME_SIZE : Nat := 1600
def SDIO_RUNTIME_MAX_RX_FRAMES_PER_POLL : Nat := 8
def SDIO_PSK_KEYED_GRACE_US : UInt32 := 3000000

/-! ### State -/

/-- The stages of `sdio_runtime_tick`. -/
inductive Stage where
  | idle
  | openHost
  | identifyCard
  | readCccr
  | enableFunctions
  | requestAlp
  | readPower
  | wakeKso
  | bootFirmware
  | readMailbox
  | ackInterrupts
  | writeIntrMask
  | prepareJoin
  | clmDownload
  | setMac
  | queryMac
  | join
  | sweepRx
  | done
  | error
  deriving DecidableEq, Repr

structure Received where
  up : Bool
  keyed : Bool
  deriving DecidableEq

/-- The statics that the link state is made of.  The clock does not wrap; the ones below it are history: the
events so far, how many there were when the latest join began, when the link last came up, and when its
stamp was set, if that was since then. -/
structure Runtime where
  stage : Stage := .idle
  started : Bool := false
  emulatorMode : Bool := false
  linkUp : Bool := false
  pskKeyed : Bool := false
  linkUpUs : UInt32 := 0
  linkFlagTrusted : Bool := false
  brcmEventType : UInt32 := 0
  brcmEventStatus : UInt32 := 0
  brcmEventReason : UInt32 := 0
  clock : Nat := 0
  received : List Received := []
  joined : Nat := 0
  upSince : Nat := 0
  stampedAt : Option Nat := none
  deriving DecidableEq

/-- `RPI_GetSystemTime`. -/
def Runtime.systemTime (s : Runtime) : UInt32 := UInt32.ofNat s.clock

/-! ### Events -/

abbrev Bytes := Nat → UInt8

def be16 (b : Bytes) (i : Nat) : UInt16 := (b i).toUInt16 <<< 8 ||| (b (i + 1)).toUInt16

def be32 (b : Bytes) (i : Nat) : UInt32 :=
  (b i).toUInt32 <<< 24 ||| (b (i + 1)).toUInt32 <<< 16 ||| (b (i + 2)).toUInt32 <<< 8 |||
    (b (i + 3)).toUInt32

/-- The fields of `event_msg` that the driver looks at. -/
structure BrcmEvent where
  type : UInt32
  status : UInt32
  reason : UInt32
  flags : UInt16
  deriving DecidableEq

def brcmEvent (b : Bytes) (off : Nat) : BrcmEvent :=
  ⟨be32 b (off + 4), be32 b (off + 8), be32 b (off + 12), be16 b (off + 2)⟩

def sdioEventIsLinkUp (type status reason : UInt32) : Bool := type == 16 && status == 0 && reason == 0

def sdioEventIsPskKeyed (type status : UInt32) : Bool := type == 46 && status == 6

/-- `WLC_EVENT_MSG_LINK`. -/
def BrcmEvent.linkFlag (e : BrcmEvent) : Bool := e.flags &&& 1 != 0

def sdioEventIsLinkDown (trusted : Bool) (e : BrcmEvent) : Bool :=
  if e.type = 16 then trusted && !e.linkFlag
  else e.type == 5 || e.type == 6 || e.type == 11 || e.type == 12

def noteBrcm (e : BrcmEvent) (s : Runtime) : Runtime :=
  let trusted := s.linkFlagTrusted || (e.type == 16 && e.linkFlag)
  let keyed := sdioEventIsPskKeyed e.type e.status
  let up := sdioEventIsLinkUp e.type e.status e.reason
  let down := sdioEventIsLinkDown trusted e
  { s with
    brcmEventType := e.type
    brcmEventStatus := e.status
    brcmEventReason := e.reason
    linkFlagTrusted := trusted
    linkUp := (s.linkUp || up) && !down
    pskKeyed := (s.pskKeyed || keyed) && !down
    linkUpUs := if down then 0 else s.linkUpUs
    upSince := if up && !s.linkUp then s.clock else s.upSince
    received := s.received ++ [⟨up && !down, keyed⟩] }

def sdioRuntimeNoteEventBare (payload : Bytes) (payloadLength : Nat) (s : Runtime) : Runtime :=
  if payloadLength < BRCM_EVENT_MSG_LENGTH then s
  else if 255 < (brcmEvent payload 0).type then s
  else noteBrcm (brcmEvent payload 0) s

/-- The maker's identifier, `BRCM_OUI0` to `BRCM_OUI2`. -/
def brcmOui (b : Bytes) (off : Nat) : Bool := b (off + 5) == 0 && b (off + 6) == 0x10 && b (off + 7) == 0x18

def sdioRuntimeNoteEvent (frame : Bytes) (frameLength ethernetOffset : Nat) (s : Runtime) : Runtime :=
  if frameLength < ethernetOffset + ETHERNET_HEADER_LENGTH + BRCM_EVENT_HEADER_LENGTH + BRCM_EVENT_MSG_LENGTH
  then s
  else if brcmOui frame (ethernetOffset + ETHERNET_HEADER_LENGTH) = false then s
  else noteBrcm (brcmEvent frame (ethernetOffset + ETHERNET_HEADER_LENGTH + BRCM_EVENT_HEADER_LENGTH)) s

/-! ### Received frames -/

/-- A frame from function 2: the hardware tag, and the frame buffer where the rest could be read. -/
structure Frame where
  tag0 : UInt16
  tag1 : UInt16
  body : Option Bytes

def Frame.total (f : Frame) : Nat := f.tag0.toNat

/-- `frame_buffer[5] & SDPCM_CHANNEL_MASK`. -/
def channelOf (b : Bytes) : UInt8 := b 5 &&& 0x0f

def headerLength (b : Bytes) : Nat := (b 7).toNat

def ethOffset (b : Bytes) : Nat := headerLength b + 4 + (b (headerLength b + 3)).toNat * 4

def ethertype (b : Bytes) : UInt16 := be16 b (ethOffset b + 12)

def noteChannelEvent (b : Bytes) (total : Nat) (s : Runtime) : Runtime :=
  let payloadLength := total - headerLength b
  if 4 ≤ payloadLength ∧ ethOffset b + 14 ≤ total ∧ ethertype b = ETHER_TYPE_BRCM then
    sdioRuntimeNoteEvent b total (ethOffset b) s
  else if BRCM_EVENT_MSG_LENGTH ≤ payloadLength then
    sdioRuntimeNoteEventBare (fun i => b (headerLength b + i)) payloadLength s
  else s

/-- `sdio_runtime_complete_read_ethernet_frame_timeout`: the Ethernet frame for the caller, if it is one. -/
def completeReadEthernetFrame (capacity : Nat) (f : Frame) (s : Runtime) : Option (List UInt8) × Runtime :=
  if f.tag0 ^^^ f.tag1 ≠ 0xffff ∨ f.total < 12 ∨ SDIO_RUNTIME_MAX_FRAME_SIZE < f.total then (none, s)
  else
    match f.body with
    | none => (none, s)
    | some b =>
      if channelOf b = SDPCM_CONTROL_CHANNEL ∧ headerLength b + CDC_HEADER_LENGTH ≤ f.total then (none, s)
      else if channelOf b = SDPCM_EVENT_CHANNEL then (none, noteChannelEvent b f.total s)
      else if channelOf b ≠ SDPCM_DATA_CHANNEL ∨ headerLength b < SDPCM_DATA_HEADER_LENGTH ∨
          f.total ≤ headerLength b + 4 then (none, s)
      else if f.total < ethOffset b + 14 then (none, s)
      else if ethertype b = ETHER_TYPE_BRCM then (none, sdioRuntimeNoteEvent b f.total (ethOffset b) s)
      else if b (headerLength b) >>> 4 ≠ BDC_PROTOCOL_VERSION then (none, s)
      else if capacity < f.total - ethOffset b then (none, s)
      else (some ((List.range (f.total - ethOffset b)).map fun i => b (ethOffset b + i)), s)

/-- `sdio_drain_fn2_responses`: frames are read and thrown away. -/
def drainFrames : Nat → List Frame → Runtime → Runtime
  | 0, _, s => s
  | _, [], s => s
  | n + 1, f :: rest, s =>
    drainFrames n rest (completeReadEthernetFrame SDIO_RUNTIME_MAX_FRAME_SIZE f s).2

/-- The loop of `sdio_runtime_poll_ethernet_frame`, up to the first frame for the caller. -/
def pollFrames (capacity : Nat) : Nat → List Frame → Runtime → Option (List UInt8) × Runtime
  | 0, _, s => (none, s)
  | _, [], s => (none, s)
  | n + 1, f :: rest, s =>
    match completeReadEthernetFrame capacity f s with
    | (some delivered, s) => (some delivered, s)
    | (none, s) => pollFrames capacity n rest s

def sdioRuntimePollEthernetFrame (capacity : Nat) (frames : List Frame) (s : Runtime) :
    Option (List UInt8) × Runtime :=
  if s.started = false ∨ s.emulatorMode = true then (none, s)
  else pollFrames capacity SDIO_RUNTIME_MAX_RX_FRAMES_PER_POLL frames s

/-! ### The sweep -/

/-- A frame as the sweep reads it, a piece at a time: what each read gives, where it is made and does not
fail. -/
structure SweepFrame where
  tag0 : UInt16
  tag1 : UInt16
  header : Option Bytes
  fore : Option Bytes
  type : Option Bytes
  oui : Option Bytes
  message : Option Bytes
  aborted : Bool

def SweepFrame.afterBdc (f : SweepFrame) : Nat :=
  f.tag0.toNat - SDPCM_DATA_HEADER_LENGTH - SDPCM_PREFIX_LENGTH

def SweepFrame.onData (f : SweepFrame) (header : Bytes) : Bool :=
  header 1 &&& 0x0f == SDPCM_DATA_CHANNEL && decide (12 ≤ (header 3).toNat) &&
    decide ((header 3).toNat ≤ f.tag0.toNat) && decide (20 ≤ f.tag0.toNat)

/-- `sdpcm_bdc_data_offset_bytes`, eight bits wide, where the Ethernet type can be read behind them. -/
def SweepFrame.dataOffset (f : SweepFrame) : Option Nat :=
  match f.header, f.fore with
  | some header, some fore =>
    if f.tag0 ^^^ f.tag1 = 0xffff ∧ 12 ≤ f.tag0 ∧ f.onData header = true ∧
        fore 2 >>> 4 = BDC_PROTOCOL_VERSION ∧
        (fore 5 <<< 2).toNat + ETHERNET_HEADER_LENGTH ≤ f.afterBdc ∧
        (fore 5 <<< 2).toNat + ETHERNET_HEADER_LENGTH ≤ 128 then some (fore 5 <<< 2).toNat
    else none
  | _, _ => none

/-- `sdpcm_data_ethertype`, with the offset it was read at. -/
def SweepFrame.ethertype (f : SweepFrame) : Option (Nat × UInt16) :=
  match f.dataOffset, f.type with
  | some off, some b => some (off, be16 b (off + 12))
  | _, _ => none

/-- The event that `sdio_probe_read_post_header_prefix` decodes. -/
def SweepFrame.event (f : SweepFrame) : Option BrcmEvent :=
  match f.ethertype, f.oui, f.message with
  | some (off, type), some oui, some message =>
    if type = ETHER_TYPE_BRCM ∧ off + ETHERNET_HEADER_LENGTH + BRCM_EVENT_HEADER_LENGTH ≤ f.afterBdc ∧
        off + ETHERNET_HEADER_LENGTH + BRCM_EVENT_HEADER_LENGTH ≤ 128 ∧
        brcmOui oui (off + ETHERNET_HEADER_LENGTH) = true ∧
        oui (off + ETHERNET_HEADER_LENGTH + 4) = BRCM_EVENT_VERSION ∧
        off + ETHERNET_HEADER_LENGTH + BRCM_EVENT_HEADER_LENGTH + BRCM_EVENT_MSG_LENGTH ≤ f.afterBdc ∧
        off + ETHERNET_HEADER_LENGTH + BRCM_EVENT_HEADER_LENGTH + BRCM_EVENT_MSG_LENGTH ≤ 128 then
      some (brcmEvent message (off + ETHERNET_HEADER_LENGTH + BRCM_EVENT_HEADER_LENGTH))
    else none
  | _, _, _ => none

def rememberEvent (e : BrcmEvent) (s : Runtime) : Runtime :=
  { s with
    brcmEventType := e.type
    brcmEventStatus := e.status
    brcmEventReason := e.reason
    received := s.received ++
      [⟨sdioEventIsLinkUp e.type e.status e.reason && !sdioEventIsLinkDown s.linkFlagTrusted e,
        sdioEventIsPskKeyed e.type e.status⟩] }

def sdioProbeReadFrameHeader (f : SweepFrame) (s : Runtime) : Runtime :=
  match f.event with
  | some e => rememberEvent e s
  | none => s

def sdioProbeSweepRxFrames : Nat → List SweepFrame → Runtime → Runtime
  | 0, _, s => s
  | _, [], s => s
  | n + 1, f :: rest, s =>
    if f.aborted = false ∨ (f.tag0 = 0 ∧ f.tag1 = 0) then sdioProbeReadFrameHeader f s
    else sdioProbeSweepRxFrames n rest (sdioProbeReadFrameHeader f s)

/-! ### Bring-up, join and rejoin -/

inductive StepResult where
  | failed
  | waiting
  | advanced
  deriving DecidableEq, Repr

/-- What a tick finds: the result of its stage, the emulator's fallback taken in it, a network name and join
commands, the frames that are drained after a command, and those that the sweep finds. -/
structure TickAnswer where
  result : StepResult
  emulator : Bool
  ssid : Bool
  frames : List Frame
  sweep : List SweepFrame
  sweepLimit : Nat

def Stage.next : Stage → Stage
  | .openHost => .identifyCard
  | .identifyCard => .readCccr
  | .readCccr => .enableFunctions
  | .enableFunctions => .requestAlp
  | .requestAlp => .readPower
  | .readPower => .wakeKso
  | .wakeKso => .bootFirmware
  | .bootFirmware => .readMailbox
  | .readMailbox => .ackInterrupts
  | .ackInterrupts => .writeIntrMask
  | .writeIntrMask => .prepareJoin
  | .prepareJoin => .clmDownload
  | .clmDownload => .setMac
  | .setMac => .queryMac
  | .queryMac => .join
  | .join => .sweepRx
  | .sweepRx => .done
  | .idle => .idle
  | .done => .done
  | .error => .error

def Runtime.beginJoin (s : Runtime) : Runtime := { s with joined := s.received.length, stampedAt := none }

def Runtime.enter (stage : Stage) (s : Runtime) : Runtime :=
  if stage = .join then { s.beginJoin with stage } else { s with stage }

/-- `SDIO_RUNTIME_STAGE_SWEEP_RX`. -/
def sweepStage (a : TickAnswer) (s : Runtime) : Runtime :=
  let s := sdioProbeSweepRxFrames a.sweepLimit a.sweep s
  let up := sdioEventIsLinkUp s.brcmEventType s.brcmEventStatus s.brcmEventReason
  { s with
    linkUp := s.linkUp || up
    upSince := if up && !s.linkUp then s.clock else s.upSince
    stage := .done }

def sdioRuntimeStart (opened : Bool) (s : Runtime) : Runtime where
  stage := if opened then .openHost else .error
  clock := s.clock
  received := s.received
  joined := s.received.length

def commandStage (a : TickAnswer) (s : Runtime) : Bool × Runtime :=
  let drained := drainFrames SDIO_RUNTIME_MAX_RX_FRAMES_PER_POLL a.frames s
  (true, if a.result = .waiting then drained else drained.enter s.stage.next)

def bringUpStage (a : TickAnswer) (s : Runtime) : Bool × Runtime :=
  let emulatorMode := s.emulatorMode || (decide (s.stage = .bootFirmware) && a.emulator)
  match a.result with
  | .failed => (false, { s with emulatorMode, stage := .error })
  | .waiting => (true, { s with emulatorMode })
  | .advanced =>
    (true, { s with
      emulatorMode
      started := s.started || decide (s.stage = .writeIntrMask)
      stage := s.stage.next })

def sdioRuntimeTick (a : TickAnswer) (s : Runtime) : Bool × Runtime :=
  match s.stage with
  | .idle | .done | .error => (false, s)
  | .prepareJoin =>
    if a.ssid = false ∨ s.emulatorMode = true then (false, { s with stage := .done })
    else (true, s.enter .clmDownload)
  | .clmDownload | .setMac | .queryMac | .join => commandStage a s
  | .sweepRx => (false, sweepStage a s)
  | _ => bringUpStage a s

def sdioRuntimeRejoinStart (commands : Bool) (s : Runtime) : Bool × Runtime :=
  if s.started = false ∨ s.emulatorMode = true ∨ s.stage ≠ .done ∨ commands = false then (false, s)
  else (true, { s.beginJoin with linkUp := false, pskKeyed := false, stage := .join })

/-- `sdio_runtime_link_is_up`; the clock moves on by `restUs` between its two readings. -/
def sdioRuntimeLinkIsUp (secured : Bool) (restUs : Nat) (s : Runtime) : Bool × Runtime :=
  if s.started = false ∨ s.linkUp = false then (false, s)
  else if secured = true ∧ s.pskKeyed = false then
    let s := if s.linkUpUs = 0 then { s with linkUpUs := s.systemTime, stampedAt := some s.clock } else s
    let s := { s with clock := s.clock + restUs }
    (!decide (s.systemTime - s.linkUpUs < SDIO_PSK_KEYED_GRACE_US), s)
  else (true, s)

inductive Event where
  | wait (us : Nat)
  | start (opened : Bool)
  | rejoin (commands : Bool)
  | tick (a : TickAnswer)
  | poll (capacity : Nat) (frames : List Frame)
  | query (restUs : Nat)

def step (secured : Bool) (s : Runtime) : Event → Runtime
  | .wait us => { s with clock := s.clock + us }
  | .start opened => sdioRuntimeStart opened s
  | .rejoin commands => (sdioRuntimeRejoinStart commands s).2
  | .tick a => (sdioRuntimeTick a s).2
  | .poll capacity frames => (sdioRuntimePollEthernetFrame capacity frames s).2
  | .query restUs => (sdioRuntimeLinkIsUp secured restUs s).2

/-! ### Two runs -/

def SameHeaders (b b' : Bytes) : Prop :=
  channelOf b = SDPCM_DATA_CHANNEL ∧ ∀ i < max 12 (ethOffset b), b' i = b i

instance (b b' : Bytes) : Decidable (SameHeaders b b') :=
  inferInstanceAs (Decidable (channelOf b = SDPCM_DATA_CHANNEL ∧ ∀ i < max 12 (ethOffset b), b' i = b i))

/-- The same frame, or two that differ only in the Ethernet contents on the data channel and are not of
the maker's type. -/
inductive Frame.Similar : Frame → Frame → Prop
  | same (f : Frame) : Frame.Similar f f
  | contents (tag0 tag1 : UInt16) {b b' : Bytes} (hheaders : SameHeaders b b')
      (hplain : ethertype b ≠ ETHER_TYPE_BRCM) (hplain' : ethertype b' ≠ ETHER_TYPE_BRCM) :
      Frame.Similar ⟨tag0, tag1, some b⟩ ⟨tag0, tag1, some b'⟩

def SweepFrame.Plain (f : SweepFrame) : Prop := ∀ off, f.ethertype ≠ some (off, ETHER_TYPE_BRCM)

inductive SweepFrame.Similar : SweepFrame → SweepFrame → Prop
  | same (f : SweepFrame) : SweepFrame.Similar f f
  | contents {f f' : SweepFrame} (htag0 : f'.tag0 = f.tag0) (htag1 : f'.tag1 = f.tag1)
      (hheader : f'.header = f.header) (haborted : f'.aborted = f.aborted) (hplain : f.Plain)
      (hplain' : f'.Plain) : SweepFrame.Similar f f'

inductive Event.Similar : Event → Event → Prop
  | same (e : Event) : Event.Similar e e
  | tick {a a' : TickAnswer} (hresult : a'.result = a.result) (hemulator : a'.emulator = a.emulator)
      (hssid : a'.ssid = a.ssid) (hlimit : a'.sweepLimit = a.sweepLimit)
      (hframes : List.Forall₂ Frame.Similar a.frames a'.frames)
      (hsweep : List.Forall₂ SweepFrame.Similar a.sweep a'.sweep) : Event.Similar (.tick a) (.tick a')
  | poll (capacity : Nat) {frames frames' : List Frame}
      (hframes : List.Forall₂ Frame.Similar frames frames') :
      Event.Similar (.poll capacity frames) (.poll capacity frames')

variable {s : Runtime}

theorem SameHeaders.fields {b b' : Bytes} (h : SameHeaders b b') :
    channelOf b' = channelOf b ∧ headerLength b' = headerLength b ∧ ethOffset b' = ethOffset b ∧
      b' (headerLength b) = b (headerLength b) := by
  obtain ⟨-, hbytes⟩ := h
  have hoffset : headerLength b + 4 ≤ ethOffset b := Nat.le_add_right _ _
  have hlength : headerLength b' = headerLength b := by
    unfold headerLength
    rw [hbytes 7 (by omega)]
  refine ⟨?_, hlength, ?_, hbytes _ (by omega)⟩
  · unfold channelOf
    rw [hbytes 5 (by omega)]
  · unfold ethOffset
    rw [hlength, hbytes _ (by omega)]

theorem read_contents (capacity : Nat) (tag0 tag1 : UInt16) {b : Bytes}
    (hchannel : channelOf b = SDPCM_DATA_CHANNEL) (hplain : ethertype b ≠ ETHER_TYPE_BRCM) (s : Runtime) :
    (completeReadEthernetFrame capacity ⟨tag0, tag1, some b⟩ s).2 = s ∧
      ((completeReadEthernetFrame capacity ⟨tag0, tag1, some b⟩ s).1.isSome = true ↔
        tag0 ^^^ tag1 = 0xffff ∧ 12 ≤ tag0.toNat ∧ tag0.toNat ≤ SDIO_RUNTIME_MAX_FRAME_SIZE ∧
          SDPCM_DATA_HEADER_LENGTH ≤ headerLength b ∧ headerLength b + 4 < tag0.toNat ∧
          ethOffset b + 14 ≤ tag0.toNat ∧ b (headerLength b) >>> 4 = BDC_PROTOCOL_VERSION ∧
          tag0.toNat - ethOffset b ≤ capacity) := by
  have hcontrol : ¬(channelOf b = SDPCM_CONTROL_CHANNEL ∧ headerLength b + CDC_HEADER_LENGTH ≤ tag0.toNat) := by
    rw [hchannel]
    rintro ⟨hno, -⟩
    exact absurd hno (by decide)
  have hevent : ¬channelOf b = SDPCM_EVENT_CHANNEL := by
    rw [hchannel]
    decide
  unfold completeReadEthernetFrame Frame.total
  simp only
  rw [if_neg hcontrol, if_neg hevent, if_neg hplain]
  split_ifs with htag hshort hfits hversion hroom
  · refine ⟨rfl, iff_of_false Bool.false_ne_true ?_⟩
    rintro ⟨hxor, hmin, hmax, -⟩
    rcases htag with hbad | hbad | hbad
    · exact hbad hxor
    · omega
    · omega
  · refine ⟨rfl, iff_of_false Bool.false_ne_true ?_⟩
    rintro ⟨-, -, -, hheader, hlong, -⟩
    rcases hshort with hbad | hbad | hbad
    · exact hbad hchannel
    · omega
    · omega
  · refine ⟨rfl, iff_of_false Bool.false_ne_true ?_⟩
    rintro ⟨-, -, -, -, -, hoffset, -⟩
    omega
  · refine ⟨rfl, iff_of_false Bool.false_ne_true ?_⟩
    rintro ⟨-, -, -, -, -, -, hsame, -⟩
    exact hversion hsame
  · refine ⟨rfl, iff_of_false Bool.false_ne_true ?_⟩
    rintro ⟨-, -, -, -, -, -, -, hcapacity⟩
    omega
  · refine ⟨rfl, iff_of_true rfl ?_⟩
    obtain ⟨hxor, htagRange⟩ := not_or.mp htag
    obtain ⟨hmin, hmax⟩ := not_or.mp htagRange
    obtain ⟨-, hheaders⟩ := not_or.mp hshort
    obtain ⟨hheader, hlong⟩ := not_or.mp hheaders
    exact ⟨not_not.mp hxor, Nat.le_of_not_lt hmin, Nat.le_of_not_lt hmax, Nat.le_of_not_lt hheader,
      Nat.lt_of_not_le hlong, by omega, not_not.mp hversion, by omega⟩

theorem read_similar (capacity : Nat) {f f' : Frame} (h : Frame.Similar f f') (s : Runtime) :
    (completeReadEthernetFrame capacity f' s).2 = (completeReadEthernetFrame capacity f s).2 ∧
      (completeReadEthernetFrame capacity f' s).1.isSome =
        (completeReadEthernetFrame capacity f s).1.isSome := by
  cases h with
  | same => exact ⟨rfl, rfl⟩
  | contents tag0 tag1 hheaders hplain hplain' =>
    obtain ⟨hchannel, hlength, hoffset, hversion⟩ := hheaders.fields
    obtain ⟨hstate, hsome⟩ := read_contents capacity tag0 tag1 hheaders.1 hplain s
    obtain ⟨hstate', hsome'⟩ := read_contents capacity tag0 tag1 (hchannel.trans hheaders.1) hplain' s
    refine ⟨hstate'.trans hstate.symm, Bool.eq_iff_iff.mpr ?_⟩
    rw [hsome, hsome', hlength, hoffset, hversion]

theorem drain_similar (n : Nat) {frames frames' : List Frame} (h : List.Forall₂ Frame.Similar frames frames')
    (s : Runtime) : drainFrames n frames' s = drainFrames n frames s := by
  induction h generalizing n s with
  | nil => rfl
  | cons hhead _ ih =>
    cases n with
    | zero => rfl
    | succ n =>
      unfold drainFrames
      rw [(read_similar _ hhead s).1, ih]

theorem poll_similar (capacity n : Nat) {frames frames' : List Frame}
    (h : List.Forall₂ Frame.Similar frames frames') (s : Runtime) :
    (pollFrames capacity n frames' s).2 = (pollFrames capacity n frames s).2 := by
  induction h generalizing n s with
  | nil => rfl
  | @cons f f' _ _ hhead _ ih =>
    cases n with
    | zero => rfl
    | succ n =>
      obtain ⟨hstate, hsome⟩ := read_similar capacity hhead s
      unfold pollFrames
      rcases hone : completeReadEthernetFrame capacity f s with ⟨out, after⟩
      rcases htwo : completeReadEthernetFrame capacity f' s with ⟨out', after'⟩
      rw [hone, htwo] at hstate hsome
      cases hstate
      cases out with
      | none =>
        cases out' with
        | none => exact ih n after
        | some => cases hsome
      | some =>
        cases out' with
        | none => cases hsome
        | some => rfl

theorem SweepFrame.Plain.event {f : SweepFrame} (h : f.Plain) : f.event = none := by
  unfold SweepFrame.event
  split
  · rename_i off type oui message htype _ _
    rw [if_neg]
    rintro ⟨rfl, -⟩
    exact h off htype
  · rfl

theorem sweep_similar (n : Nat) {frames frames' : List SweepFrame}
    (h : List.Forall₂ SweepFrame.Similar frames frames') (s : Runtime) :
    sdioProbeSweepRxFrames n frames' s = sdioProbeSweepRxFrames n frames s := by
  induction h generalizing n s with
  | nil => rfl
  | @cons f f' _ _ hhead _ ih =>
    cases n with
    | zero => rfl
    | succ n =>
      have hframe : sdioProbeReadFrameHeader f' s = sdioProbeReadFrameHeader f s ∧
          f'.aborted = f.aborted ∧ f'.tag0 = f.tag0 ∧ f'.tag1 = f.tag1 := by
        cases hhead with
        | same => exact ⟨rfl, rfl, rfl, rfl⟩
        | contents htag0 htag1 _ haborted hplain hplain' =>
          refine ⟨?_, haborted, htag0, htag1⟩
          unfold sdioProbeReadFrameHeader
          rw [hplain.event, hplain'.event]
      unfold sdioProbeSweepRxFrames
      rw [hframe.1, hframe.2.1, hframe.2.2.1, hframe.2.2.2, ih]

theorem step_similar (secured : Bool) {e e' : Event} (h : Event.Similar e e') (s : Runtime) :
    step secured s e' = step secured s e := by
  cases h with
  | same => rfl
  | @tick a a' hresult hemulator hssid hlimit hframes hsweep =>
    have hdrain := drain_similar SDIO_RUNTIME_MAX_RX_FRAMES_PER_POLL hframes s
    have hswept : sweepStage a' s = sweepStage a s := by
      unfold sweepStage
      rw [hlimit, sweep_similar _ hsweep]
    change (sdioRuntimeTick a' s).2 = (sdioRuntimeTick a s).2
    unfold sdioRuntimeTick commandStage bringUpStage
    rw [hresult, hemulator, hssid, hdrain, hswept]
  | poll capacity hframes =>
    change (sdioRuntimePollEthernetFrame capacity _ s).2 = (sdioRuntimePollEthernetFrame capacity _ s).2
    unfold sdioRuntimePollEthernetFrame
    split
    · rfl
    · exact poll_similar _ _ hframes s

def observed (secured : Bool) (s : Runtime) : Bool × Bool × Bool × (Nat → Bool) :=
  (s.linkUp, s.pskKeyed, s.linkFlagTrusted, fun restUs => (sdioRuntimeLinkIsUp secured restUs s).1)

/-- Two runs that differ only in the Ethernet contents of frames on the data channel, none of them of the
maker's type, have the same link state after every step. -/
theorem link_state_unforged (secured : Bool) (s : Runtime) {events events' : List Event}
    (h : List.Forall₂ Event.Similar events events') :
    (history (step secured) s events').map (fun st => observed secured st.post) =
      (history (step secured) s events).map (fun st => observed secured st.post) := by
  induction h generalizing s with
  | nil => rfl
  | cons hhead _ ih =>
    rw [History.history, History.history, List.map_cons, List.map_cons, step_similar secured hhead s, ih]

def bringUp : List Event := .start true :: List.replicate 17 (.tick ⟨.advanced, false, true, [], [], 4⟩)

def dataFrame (type : UInt16) (oui : UInt8) : Bytes
  | 5 => 2
  | 7 => 14
  | 14 => 0x20
  | 30 => (type >>> 8).toUInt8
  | 31 => type.toUInt8
  | 38 => oui
  | 39 => 0x18
  | 45 => 1
  | 49 => 16
  | _ => 0

def received90 (b : Bytes) : Event := .poll 1600 [⟨90, 0xffa5, some b⟩]

theorem link_state_unforged_ipv4 :
    (history (step true) {} (bringUp ++ [received90 (dataFrame 0x800 0)])).map
        (fun st => observed true st.post) =
      (history (step true) {} (bringUp ++ [received90 (dataFrame 0x806 0x10)])).map
        (fun st => observed true st.post) := by
  refine link_state_unforged true {} (List.rel_append ?_ (.cons (.poll _ (.cons ?_ .nil)) .nil))
  · exact List.forall₂_same.mpr fun e _ => .same e
  · exact .contents _ _ (by decide +kernel) (by decide +kernel) (by decide +kernel)

/-- A frame from the air of the maker's type has the link come up. -/
theorem link_state_forged :
    SameHeaders (dataFrame 0x800 0x10) (dataFrame ETHER_TYPE_BRCM 0x10) ∧
      (final (step true) {} (bringUp ++ [received90 (dataFrame 0x800 0x10)])).linkUp = false ∧
      (final (step true) {} (bringUp ++ [received90 (dataFrame ETHER_TYPE_BRCM 0x10)])).linkUp = true := by
  decide +kernel

end Pi1MHz.SdioLink
