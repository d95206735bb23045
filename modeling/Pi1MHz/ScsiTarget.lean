import Pi1MHz.StateRules
import Mathlib.Algebra.Order.Ring.Nat
import Mathlib.Data.List.Basic

/-!
# BeebSCSI: the target

The state machine of `scsi.c`: bus free, the command phase, one state for each command, the status
and the message phase.  A step is one call of `scsiProcessEmulation` from the poll loop; the host's
part of it is a list of handshakes, each with or without a byte, and the samples of the reset line.
-/

namespace Pi1MHz.ScsiTarget

/-- What `scsi.c` calls.  A function that answers a success flag gives it first. -/
structure FileSystem (σ : Type) where
  readLunStatus : σ → UInt8 → Bool
  setLunStatus : σ → UInt8 → Bool → Bool × σ
  hostRevokeLun : σ → UInt8 → σ
  checkLunImage : σ → UInt8 → Bool × σ
  createLunImage : σ → UInt8 → Bool × σ
  createLunDescriptor : σ → UInt8 → Bool × σ
  readLunDescriptor : σ → UInt8 → Bool × σ
  formatLun : σ → UInt8 → UInt8 → Bool × σ
  openLunForRead : σ → UInt8 → UInt32 → UInt32 → Bool × σ
  readNextSector : σ → UInt8 → Option (List UInt8) × σ
  closeLunForRead : σ → UInt8 → σ
  openLunForWrite : σ → UInt8 → UInt32 → UInt32 → Bool × σ
  writeNextSector : σ → UInt8 → List UInt8 → Bool × σ
  closeLunForWrite : σ → UInt8 → σ
  headsPerCylinder : σ → UInt8 → UInt32
  lunSPTSize : σ → UInt8 → UInt32
  lunBlockSize : σ → UInt8 → UInt32
  lunTotalSectors : σ → UInt8 → UInt32
  writeModePageData : σ → UInt8 → UInt8 → List UInt8 → σ
  copyPage0toPage4 : σ → UInt8 → σ
  copyPage4toPage0 : σ → UInt8 → σ
  configToLunGeometry : σ → UInt8 → σ
  writeAttributes : σ → UInt8 → Bool × σ
  modeParamHeaderData : σ → UInt8 → Option (List UInt8)
  lbaDescriptorData : σ → UInt8 → Option (List UInt8)
  modePageData : σ → UInt8 → UInt8 → Option (List UInt8)
  inquiryData : σ → UInt8 → Option (List UInt8)
  lunDirectory : σ → UInt8
  setLunDirectory : σ → UInt8 → UInt8 → σ
  setFatDirectory : σ → List UInt8 → σ
  fatFileInfo : σ → UInt32 → Option (List UInt8) × σ
  openFatForRead : σ → UInt32 → UInt32 → Bool × σ
  readNextFatBlock : σ → Option (List UInt8) × σ
  closeFatForRead : σ → σ
  fcodeWriteBuffer : σ → UInt8 → List UInt8 → σ
  fcodeReadBuffer : σ → List UInt8
  fcodeClearBuffer : σ → σ

/-! ### The state -/

def MAX_LUNS : Nat := 16

def NO_ERROR : UInt32 := (0x00 : UInt32) <<< 24
def UNIT_NOT_READY : UInt32 := (0x02 : UInt32) <<< 24
def DRIVE_NOT_READY : UInt32 := (0x04 : UInt32) <<< 24
def BAD_FORMAT : UInt32 := (0x1C : UInt32) <<< 24
def ILLEGAL_ADDR : UInt32 := (0xA1 : UInt32) <<< 24
def BAD_ARG : UInt32 := (0x24 : UInt32) <<< 24

def SCSI_STATUS_OK : UInt8 := 0x00
def SCSI_STATUS_CHECK_COND : UInt8 := 0x02

inductive Phase where
  | dataOut | dataIn | command | status | messageOut | messageIn
deriving DecidableEq, Repr

inductive ScsiState where
  | busFree | command | status | message
  | testUnitReady | rezeroUnit | requestSense | format | reassignBlocks | read6 | write6 | seek
  | translate | modeSelect6 | modeSense6 | startStop | verify | readCapacity | readDefectData10
  | inquiry | sendDiagnostic | writeFCode | readFCode
  | beebScsiSense | beebScsiSelect | beebScsiFatPath | beebScsiFatInfo | beebScsiFatRead | certify
deriving DecidableEq, Repr

/-- What is seen of a command: a byte for the host, the bus becoming free, the reset line found
active, a reset of the target, an index into the state of a LUN, an assignment to the sense data. -/
inductive Event where
  | wrote (phase : Phase) (b : UInt8)
  | free
  | rst
  | reset
  | lun (i : UInt8)
  | sense (i : UInt8) (v : UInt32)
deriving DecidableEq, Repr

/-- A command: the LUN and the block that was read, what has happened since, and how often the poll
loop has come by. -/
structure Exchange where
  lun : UInt8
  cdb : Vector UInt8 10
  events : List Event
  polls : Nat
deriving DecidableEq, Repr

/-- `freeState` is the static variable of `scsiEmulationBusFree`.  `acks` and `rst` are the host's
part of the poll; `past`, `current`, `events` and `polls` are what has been seen, the latest
exchange first. -/
structure Target (σ : Type) where
  fs : σ
  scsiState : ScsiState
  freeState : Bool
  requestSenseData : UInt8 → UInt32
  data : Vector UInt8 10
  targetLUN : UInt8
  status : UInt8
  scsiHostID : UInt8
  ourscsiid : UInt8
  phase : Phase
  databus : UInt8
  acks : List (Option UInt8)
  rst : List Bool
  past : List Exchange
  current : Option (UInt8 × Vector UInt8 10)
  events : List Event
  polls : Nat

def Target.exchanges {σ : Type} (t : Target σ) : List Exchange :=
  match t.current with
  | some (lun, cdb) => ⟨lun, cdb, t.events, t.polls⟩ :: t.past
  | none => t.past

abbrev Action (σ α : Type) := StateM (Target σ) α

variable {σ α : Type}

/-! ### The host adapter -/

def note (e : Event) : Action σ Unit := modify fun t => { t with events := t.events ++ [e] }

def scsiInformationTransferPhase (p : Phase) : Action σ Unit := modify fun t => { t with phase := p }

/-- `hd_wait_ack`: the byte that came with the acknowledge, or none after the time-out. -/
def waitAck : Action σ (Option UInt8) := fun t =>
  match t.acks with
  | a :: acks => (a, { t with acks := acks, databus := a.getD t.databus })
  | [] => (none, t)

def hostadapterReadByte : Action σ UInt8 := do
  let _ ← waitAck
  return (← get).databus

def hostadapterReadBytes : Nat → Action σ (List UInt8)
  | 0 => return []
  | n + 1 => do
    let b ← hostadapterReadByte
    let rest ← hostadapterReadBytes n
    return b :: rest

def putByte (b : UInt8) : Action σ Unit :=
  modify fun t => { t with events := t.events ++ [.wrote t.phase b] }

def hostadapterWriteByte (b : UInt8) : Action σ Unit := do
  putByte b
  let _ ← waitAck

def hostadapterWriteBytes (l : List UInt8) : Action σ Unit := l.forM hostadapterWriteByte

def hostadapterPerformReadDMA : List UInt8 → Action σ Unit
  | [] => return ()
  | b :: l => do
    putByte b
    match ← waitAck with
    | some _ => hostadapterPerformReadDMA l
    | none => return ()

def hostadapterPerformWriteDMA : Nat → Action σ (List UInt8)
  | 0 => return []
  | n + 1 => do
    match ← waitAck with
    | some b =>
      let rest ← hostadapterPerformWriteDMA n
      return b :: rest
    | none => return []

def hostadapterReadResetFlag : Action σ Bool := fun t =>
  match t.rst with
  | true :: rst => (true, { t with rst := rst, events := t.events ++ [.rst] })
  | false :: rst => (false, { t with rst := rst })
  | [] => (false, t)

/-! ### The state of a LUN -/

/-- Says that the state of the selected LUN is used. -/
def useLun : Action σ Unit := modify fun t => { t with events := t.events ++ [.lun t.targetLUN] }

def askLun (f : σ → UInt8 → α) : Action σ α := do
  useLun
  let t ← get
  return f t.fs t.targetLUN

def changeLun (f : σ → UInt8 → σ) : Action σ Unit := do
  useLun
  modify fun t => { t with fs := f t.fs t.targetLUN }

def tryLun (f : σ → UInt8 → α × σ) : Action σ α := do
  useLun
  modifyGet fun t => ((f t.fs t.targetLUN).1, { t with fs := (f t.fs t.targetLUN).2 })

def tryFs (f : σ → α × σ) : Action σ α := modifyGet fun t => ((f t.fs).1, { t with fs := (f t.fs).2 })

def changeFs (f : σ → σ) : Action σ Unit := modify fun t => { t with fs := f t.fs }

def setSense (v : UInt32) : Action σ Unit := modify fun t =>
  { t with events := t.events ++ [.sense t.targetLUN v]
           requestSenseData := fun i => if i = t.targetLUN then v else t.requestSenseData i }

def setStatus (s : UInt8) : Action σ Unit := modify fun t => { t with status := s }

def good : Action σ ScsiState := do
  setStatus SCSI_STATUS_OK
  return .status

/-- CHECK CONDITION with sense data. -/
def fail (v : UInt32) (tidy : Action σ Unit) : Action σ ScsiState := do
  setStatus SCSI_STATUS_CHECK_COND
  setSense v
  tidy
  return .status

def failSilently : Action σ ScsiState := do
  setStatus SCSI_STATUS_CHECK_COND
  return .status

/-- A reset by the host ends the command. -/
def unlessReset (tidy : Action σ Unit) (x : Action σ ScsiState) : Action σ ScsiState := do
  if ← hostadapterReadResetFlag then
    tidy
    return .busFree
  else x

/-! ### The commands -/

variable (fs : FileSystem σ)

/-- Bytes of a command by their place. -/
abbrev byte0 (d : Vector UInt8 10) : UInt8 := d[0]

abbrev byte4 (d : Vector UInt8 10) : UInt8 := d[4]

abbrev byte5 (d : Vector UInt8 10) : UInt8 := d[5]

abbrev byte8 (d : Vector UInt8 10) : UInt8 := d[8]

def lba21 (d : Vector UInt8 10) : UInt32 :=
  ((d[1].toUInt32 &&& 0x1F) <<< 16) ||| (d[2].toUInt32 <<< 8) ||| d[3].toUInt32

def lba32 (d : Vector UInt8 10) : UInt32 :=
  (d[2].toUInt32 <<< 24) ||| (d[3].toUInt32 <<< 16) ||| (d[4].toUInt32 <<< 8) ||| d[5].toUInt32

def blockCount (b : UInt8) : UInt32 := if b = 0 then 256 else b.toUInt32

def ifStarted (v : UInt32) : Action σ ScsiState := do
  if ← askLun fs.readLunStatus then good else fail v (pure ())

def scsiCommandTestUnitReady : Action σ ScsiState := ifStarted fs UNIT_NOT_READY

def scsiCommandRezeroUnit : Action σ ScsiState := ifStarted fs UNIT_NOT_READY

def scsiCommandSeek : Action σ ScsiState := ifStarted fs DRIVE_NOT_READY

def senseBytes (v : UInt32) : List UInt8 :=
  [((v &&& 0xFF000000) >>> 24).toUInt8, ((v &&& 0x1F0000) >>> 16).toUInt8,
    ((v &&& 0x00FF00) >>> 8).toUInt8, (v &&& 0x0000FF).toUInt8]

def scsiCommandRequestSense : Action σ ScsiState := do
  scsiInformationTransferPhase .dataIn
  useLun
  let t ← get
  hostadapterWriteBytes (senseBytes (t.requestSenseData t.targetLUN))
  setSense NO_ERROR
  good

/-- The LUN is started if it is not.  What follows is `x`. -/
def autoStart (x : Action σ ScsiState) : Action σ ScsiState := do
  if ← askLun fs.readLunStatus then x
  else
    changeLun fs.hostRevokeLun
    if ← tryLun fun s lun => fs.setLunStatus s lun true then x else fail BAD_FORMAT (pure ())

def readDefectList (formatOptions : UInt8) : Action σ Unit :=
  if formatOptions = 28 ∨ formatOptions = 30 then do
    scsiInformationTransferPhase .dataOut
    let header ← hostadapterReadBytes 4
    let records := ((header.getD 2 0).toNat * 256 + (header.getD 3 0).toNat) / 8
    let _ ← hostadapterReadBytes (8 * records)
  else return ()

def formatLun : Action σ ScsiState := do
  let d := (← get).data
  readDefectList (d[1] &&& 0x1F)
  if ← tryLun fun s lun => fs.formatLun s lun d[2] then
    let _ ← tryLun fun s lun => fs.setLunStatus s lun true
    good
  else fail BAD_FORMAT (changeLun fun s lun => (fs.setLunStatus s lun false).2)

def scsiCommandFormat : Action σ ScsiState := do
  if ← askLun fs.readLunStatus then formatLun fs
  else if ← tryLun fs.createLunImage then formatLun fs
  else fail BAD_FORMAT (changeLun fun s lun => (fs.setLunStatus s lun false).2)

/-- The list of defective blocks, `size` bytes each. -/
def reassignLoop (size : Nat) : Nat → Action σ ScsiState
  | 0 => good
  | n + 1 => unlessReset (pure ()) do
    let _ ← hostadapterReadBytes size
    reassignLoop size n

def scsiCommandReassignBlocks : Action σ ScsiState := do
  let longlist := (← get).data[1] &&& 1 = 1
  let size := if longlist then 8 else 4
  scsiInformationTransferPhase .dataOut
  let header ← hostadapterReadBytes 4
  let low := (header.getD 2 0).toNat * 256 + (header.getD 3 0).toNat
  let list_length :=
    if longlist then (header.getD 0 0).toNat * 2 ^ 24 + (header.getD 1 0).toNat * 2 ^ 16 + low else low
  reassignLoop size (list_length / size)

/-- Sector by sector; a reset in between ends it. -/
def readLoop : Nat → Action σ ScsiState
  | 0 => good
  | n + 1 => do
    match ← tryLun fs.readNextSector with
    | none => fail DRIVE_NOT_READY (changeLun fs.closeLunForRead)
    | some sector =>
      hostadapterPerformReadDMA sector
      unlessReset (changeLun fs.closeLunForRead) (readLoop n)

def scsiCommandRead6 : Action σ ScsiState := autoStart fs do
  let d := (← get).data
  let numberOfBlocks := blockCount d[4]
  scsiInformationTransferPhase .dataIn
  if ← tryLun fun s lun => fs.openLunForRead s lun (lba21 d) numberOfBlocks then
    readLoop fs numberOfBlocks.toNat
  else fail DRIVE_NOT_READY (changeLun fs.closeLunForRead)

def writeLoop : Nat → Action σ ScsiState
  | 0 => good
  | n + 1 => do
    let buffer ← hostadapterPerformWriteDMA 256
    unlessReset (changeLun fs.closeLunForWrite) do
      if ← tryLun fun s lun => fs.writeNextSector s lun buffer then writeLoop n
      else fail DRIVE_NOT_READY (changeLun fs.closeLunForWrite)

def scsiCommandWrite6 : Action σ ScsiState := autoStart fs do
  let d := (← get).data
  let numberOfBlocks := blockCount d[4]
  scsiInformationTransferPhase .dataOut
  if ← tryLun fun s lun => fs.openLunForWrite s lun (lba21 d) numberOfBlocks then
    writeLoop fs numberOfBlocks.toNat
  else fail DRIVE_NOT_READY (changeLun fs.closeLunForWrite)

def bytes4 (v : UInt32) : List UInt8 :=
  [(v >>> 24).toUInt8, (v >>> 16).toUInt8, (v >>> 8).toUInt8, v.toUInt8]

def bytes3 (v : UInt32) : List UInt8 := [(v >>> 16).toUInt8, (v >>> 8).toUInt8, v.toUInt8]

def scsiCommandTranslate : Action σ ScsiState := autoStart fs do
  let lba := lba21 (← get).data
  if ← tryLun fs.readLunDescriptor then
    let heads ← askLun fs.headsPerCylinder
    let sectors ← askLun fs.lunSPTSize
    let size ← askLun fs.lunBlockSize
    scsiInformationTransferPhase .dataIn
    hostadapterWriteBytes (bytes3 (lba / (heads * sectors)))
    hostadapterWriteByte (lba / sectors % heads).toUInt8
    hostadapterWriteBytes (bytes4 ((lba % sectors + 1) * size))
    good
  else fail DRIVE_NOT_READY (pure ())

def copyIfPage4 (page : UInt8) : Action σ Unit :=
  if page = 4 then changeLun fs.copyPage4toPage0 else return ()

def writePages : Nat → List UInt8 → Action σ Bool
  | left + 1, code :: len :: third :: rest =>
    let page := code &&& 0x3F
    let b := page :: len :: third :: rest
    if b.length < len.toNat + 2 then return false
    else do
      changeLun fun s lun => fs.writeModePageData s lun page (b.take (len.toNat + 2))
      copyIfPage4 fs page
      writePages left (b.drop (len.toNat + 2))
  | _, _ => return true

def takeParameters (params : List UInt8) : Action σ Bool := do
  if params.length = 22 ∧ params.getD 3 0 = 8 then
    changeLun fun s lun => fs.writeModePageData s lun 0 (params.drop 12)
    changeLun fs.copyPage0toPage4
    return true
  else writePages fs params.length (params.drop 4)

def modeSelect : Action σ ScsiState := do
  let length := (← get).data[4]
  scsiInformationTransferPhase .dataOut
  let params ← hostadapterReadBytes length.toNat
  if ← takeParameters fs params then
    changeLun fs.configToLunGeometry
    if ← tryLun fs.writeAttributes then good else fail DRIVE_NOT_READY (pure ())
  else fail BAD_ARG (pure ())

def scsiCommandModeSelect6 : Action σ ScsiState := do
  if (← get).data[4] < 4 then fail BAD_ARG (pure ())
  else if ← tryLun fs.checkLunImage then modeSelect fs
  else if ← tryLun fs.createLunDescriptor then modeSelect fs
  else fail DRIVE_NOT_READY (pure ())

/-- What MODE SENSE sends: the lengths are the code's `int`. -/
def sensePages (page size : UInt8) (header lba mode : List UInt8) : List UInt8 :=
  let length : Int := min (header.length + lba.length + mode.length) size.toNat
  let sendlen : Int := min (header.length - 1) (length - 1)
  let left := length - (sendlen + 1)
  let lbalen : Int := min lba.length left
  let left' := left - lbalen
  let modelen : Int := min mode.length left'
  (if page = 0 then 0 else UInt8.ofInt (length - 1)) :: (header.drop 1).take sendlen.toNat
    ++ lba.take lbalen.toNat ++ mode.take modelen.toNat
    ++ List.replicate (left' - modelen).toNat 0

def scsiCommandModeSense6 : Action σ ScsiState := do
  let d := (← get).data
  let _ ← tryLun fs.readLunDescriptor
  let header ← askLun fs.modeParamHeaderData
  let lba ← askLun fs.lbaDescriptorData
  let mode ← askLun fun s lun => fs.modePageData s lun d[2]
  match header, lba, mode with
  | some header, some lba, some mode =>
    if d[4] = 0 then good
    else
      scsiInformationTransferPhase .dataIn
      hostadapterWriteBytes (sensePages d[2] d[4] header lba mode)
      good
  | _, _, _ => fail DRIVE_NOT_READY (pure ())

def scsiCommandStartStop : Action σ ScsiState := do
  if (← get).data[4] &&& 0x01 = 0 then
    changeLun fun s lun => (fs.setLunStatus s lun false).2
    good
  else
    changeLun fs.hostRevokeLun
    if ← tryLun fun s lun => fs.setLunStatus s lun true then good else fail BAD_ARG (pure ())

def verifyStarted : Action σ ScsiState := do
  let lba := lba32 (← get).data
  let size ← askLun fs.lunTotalSectors
  if size ≤ lba then fail (ILLEGAL_ADDR ||| (lba &&& 0x00FFFFFF)) (pure ()) else good

def scsiCommandVerify : Action σ ScsiState := do
  if ← askLun fs.readLunStatus then verifyStarted fs else failSilently

def capacityStarted : Action σ ScsiState := do
  let d := (← get).data
  if d[8] ≠ 0 ∧ d[8] ≠ 1 then fail BAD_ARG (pure ())
  else
    let size ← askLun fs.lunTotalSectors
    scsiInformationTransferPhase .dataIn
    hostadapterWriteBytes (bytes4 (size - 1))
    let block ← askLun fs.lunBlockSize
    hostadapterWriteBytes (bytes4 block)
    good

def scsiCommandReadCapacity : Action σ ScsiState := do
  if ← askLun fs.readLunStatus then capacityStarted fs else failSilently

def defectsStarted : Action σ ScsiState := do
  let d := (← get).data
  scsiInformationTransferPhase .dataIn
  hostadapterWriteBytes [0, d[2], 0, 0]
  good

def scsiCommandReadDefectData10 : Action σ ScsiState := do
  if ← askLun fs.readLunStatus then defectsStarted else failSilently

def sendInquiry (buf : List UInt8) : Action σ ScsiState := do
  let length := (← get).data[4]
  scsiInformationTransferPhase .dataIn
  hostadapterWriteBytes ((List.range length.toNat).map fun i => buf.getD i 0)
  good

def scsiCommandInquiry : Action σ ScsiState := do
  match ← askLun fs.inquiryData with
  | some buf => sendInquiry buf
  | none => failSilently

def scsiCommandSendDiagnostic : Action σ ScsiState := do
  let d := (← get).data
  scsiInformationTransferPhase .dataOut
  let _ ← hostadapterReadBytes (d[3].toNat * 256 + d[4].toNat)
  good

def scsiWriteFCode : Action σ ScsiState := do
  if ← askLun fs.readLunStatus then
    scsiInformationTransferPhase .dataOut
    let buffer ← hostadapterPerformWriteDMA 256
    unlessReset (pure ()) do
      changeLun fun s lun => fs.fcodeWriteBuffer s lun buffer
      good
  else fail DRIVE_NOT_READY (pure ())

def scsiReadFCode : Action σ ScsiState := do
  if ← askLun fs.readLunStatus then
    scsiInformationTransferPhase .dataIn
    hostadapterPerformReadDMA (fs.fcodeReadBuffer (← get).fs)
    changeFs fs.fcodeClearBuffer
    unlessReset (pure ()) good
  else fail DRIVE_NOT_READY (pure ())

def FIRMWARE_MAJOR : UInt8 := 0x03

def FIRMWARE_MINOR : UInt8 := 0x01

def lunStatusByte (s : σ) : UInt8 :=
  (List.range 8).foldl (fun b i =>
    if fs.readLunStatus s (UInt8.ofNat i) then b ||| UInt8.ofNat (2 ^ i) else b) 0

def scsiBeebScsiSense : Action σ ScsiState := do
  if (← get).data[4] ≠ 8 then fail BAD_ARG (pure ())
  else
    scsiInformationTransferPhase .dataIn
    (List.range 8).forM fun i => note (.lun (UInt8.ofNat i))
    let t ← get
    hostadapterWriteBytes [lunStatusByte fs t.fs, fs.lunDirectory t.fs,
      if t.scsiHostID ≠ 16 then 0x00 else 0x01, FIRMWARE_MAJOR, FIRMWARE_MINOR, 0x00, 0x00, 0x00]
    good

def anyStarted : List Nat → Action σ Bool
  | [] => return false
  | i :: l => do
    note (.lun (UInt8.ofNat i))
    if fs.readLunStatus (← get).fs (UInt8.ofNat i) then return true else anyStarted l

def scsiJukebox (lun : UInt8) : Action σ Bool := do
  if ← anyStarted fs (List.range MAX_LUNS) then return false
  else
    let hostID := (← get).scsiHostID
    changeFs fun s => fs.setLunDirectory s hostID lun
    return true

def scsiBeebScsiSelect : Action σ ScsiState := do
  if (← get).data[4] ≠ 8 then fail BAD_ARG (pure ())
  else
    scsiInformationTransferPhase .dataOut
    let buffer ← hostadapterReadBytes 8
    if ← scsiJukebox fs (buffer.getD 0 0) then good else fail UNIT_NOT_READY (pure ())

def scsiBeebScsiFatPath : Action σ ScsiState := do
  scsiInformationTransferPhase .dataOut
  let buffer ← hostadapterPerformWriteDMA 256
  unlessReset (pure ()) do
    changeFs fun s => fs.setFatDirectory s (buffer.take 255)
    good

def scsiBeebScsiFatInfo : Action σ ScsiState := do
  let fatFileId := (← get).data[5].toUInt32
  scsiInformationTransferPhase .dataIn
  match ← tryFs fun s => fs.fatFileInfo s fatFileId with
  | none => fail DRIVE_NOT_READY (pure ())
  | some buffer =>
    hostadapterPerformReadDMA buffer
    unlessReset (pure ()) good

def fatReadLoop : Nat → Action σ ScsiState
  | 0 => do
    changeFs fs.closeFatForRead
    good
  | n + 1 => do
    match ← tryFs fs.readNextFatBlock with
    | none =>
      changeFs fs.closeFatForRead
      return .busFree
    | some buffer =>
      hostadapterPerformReadDMA buffer
      unlessReset (changeFs fs.closeFatForRead) (fatReadLoop n)

def scsiBeebScsiFatRead : Action σ ScsiState := do
  let d := (← get).data
  scsiInformationTransferPhase .dataIn
  if ← tryFs fun s => fs.openFatForRead s d[5].toUInt32 (lba21 d) then fatReadLoop fs d[4].toNat
  else fail DRIVE_NOT_READY (pure ())

def scsiCommandCertify : Action σ ScsiState := good

/-! ### The bus -/

def cdbLength (first : UInt8) : Nat := if (first &&& 0xE0) >>> 5 = 1 then 10 else 6

def decode (hostID first : UInt8) : Option ScsiState :=
  let opCode := first &&& 0x1F
  match ((first &&& 0xE0) >>> 5).toNat, opCode.toNat with
  | 0, 0x00 => some .testUnitReady
  | 0, 0x01 => some .rezeroUnit
  | 0, 0x03 => some .requestSense
  | 0, 0x04 => some .format
  | 0, 0x07 => some .reassignBlocks
  | 0, 0x08 => some .read6
  | 0, 0x0A => some .write6
  | 0, 0x0B => some .seek
  | 0, 0x0F => some .translate
  | 0, 0x12 => some .inquiry
  | 0, 0x15 => some .modeSelect6
  | 0, 0x1A => some .modeSense6
  | 0, 0x1B => some .startStop
  | 0, 0x1D => some .sendDiagnostic
  | 1, 0x05 => some .readCapacity
  | 1, 0x0F => some .verify
  | 1, 0x17 => some .readDefectData10
  | 6, 0x0A => if hostID = 16 then some .writeFCode else none
  | 6, 0x08 => if hostID = 16 then some .readFCode else none
  | 6, 0x10 => some .beebScsiSense
  | 6, 0x11 => some .beebScsiSelect
  | 6, 0x12 => some .beebScsiFatPath
  | 6, 0x13 => some .beebScsiFatInfo
  | 6, 0x14 => some .beebScsiFatRead
  | 7, 0x02 => some .certify
  | _, _ => none

def scsiTransformLUNid (hostID lun : UInt8) : UInt32 :=
  match hostID.toNat with
  | 2 => (32 ||| (lun &&& 0x1F)).toUInt32
  | 4 => (64 ||| (lun &&& 0x1F)).toUInt32
  | 8 => (96 ||| (lun &&& 0x1F)).toUInt32
  | 16 => lun.toUInt32 ||| 256
  | _ => lun.toUInt32

def cdbOf (old : Vector UInt8 10) (bytes : List UInt8) : Vector UInt8 10 :=
  Vector.ofFn fun i => bytes.getD i old[i]

def openExchange (bytes : List UInt8) : Action σ Unit := modify fun t =>
  let data := cdbOf t.data bytes
  let newLUN := scsiTransformLUNid t.scsiHostID data[1]
  let data := data.set 1 (newLUN &&& 0xFF).toUInt8
  let lun := ((newLUN &&& 0x1E0) >>> 5).toUInt8
  { t with data := data, targetLUN := lun, past := t.exchanges, current := some (lun, data)
           events := [], polls := 0 }

def scsiEmulationCommand : Action σ ScsiState := do
  scsiInformationTransferPhase .command
  let first ← hostadapterReadByte
  let rest ← hostadapterReadBytes (cdbLength first - 1)
  openExchange (first :: rest)
  match decode (← get).scsiHostID first with
  | some s => return s
  | none => failSilently

theorem scsiEmulationCommand_some {t : Target σ} {s : ScsiState}
    (h : let first := hostadapterReadByte { t with phase := .command }
      let rest := hostadapterReadBytes (cdbLength first.1 - 1) first.2
      decode (openExchange (first.1 :: rest.1) rest.2).2.scsiHostID first.1 = some s) :
    let first := hostadapterReadByte { t with phase := .command }
    let rest := hostadapterReadBytes (cdbLength first.1 - 1) first.2
    scsiEmulationCommand t = (s, (openExchange (first.1 :: rest.1) rest.2).2) := by
  intro first rest
  show (match decode (openExchange (first.1 :: rest.1) rest.2).2.scsiHostID first.1 with
    | some s => pure s
    | none => failSilently : Action σ ScsiState) (openExchange (first.1 :: rest.1) rest.2).2 = _
  rw [h]
  rfl

def scsiEmulationStatus : Action σ ScsiState := do
  scsiInformationTransferPhase .status
  hostadapterWriteByte (← get).status
  return .message

def scsiEmulationMessage : Action σ ScsiState := do
  scsiInformationTransferPhase .messageIn
  hostadapterWriteByte 0x00
  return .busFree

def releaseBus : Action σ Unit := do
  if (← get).freeState then return ()
  else
    scsiInformationTransferPhase .dataOut
    note .free
    modify fun t => { t with freeState := true }

/-- `sel` is the select flag with the byte on the bus. -/
def awaitSelection : Option UInt8 → Action σ ScsiState
  | none => return .busFree
  | some id => do
    modify fun t => { t with scsiHostID := id }
    let ours := (← get).ourscsiid
    if ours ≠ 0 ∧ id ≠ ours then return .busFree
    else
      modify fun t => { t with freeState := false }
      return .command

def scsiEmulationBusFree (sel : Option UInt8) : Action σ ScsiState := do
  releaseBus
  awaitSelection sel

/-- `scsiProcessEmulation` on the state it finds. -/
def scsiProcess (sel : Option UInt8) : ScsiState → Action σ ScsiState
  | .busFree => scsiEmulationBusFree sel
  | .command => scsiEmulationCommand
  | .status => scsiEmulationStatus
  | .message => scsiEmulationMessage
  | .testUnitReady => scsiCommandTestUnitReady fs
  | .rezeroUnit => scsiCommandRezeroUnit fs
  | .requestSense => scsiCommandRequestSense
  | .format => scsiCommandFormat fs
  | .reassignBlocks => scsiCommandReassignBlocks
  | .read6 => scsiCommandRead6 fs
  | .write6 => scsiCommandWrite6 fs
  | .seek => scsiCommandSeek fs
  | .translate => scsiCommandTranslate fs
  | .modeSelect6 => scsiCommandModeSelect6 fs
  | .modeSense6 => scsiCommandModeSense6 fs
  | .startStop => scsiCommandStartStop fs
  | .verify => scsiCommandVerify fs
  | .readCapacity => scsiCommandReadCapacity fs
  | .readDefectData10 => scsiCommandReadDefectData10 fs
  | .inquiry => scsiCommandInquiry fs
  | .sendDiagnostic => scsiCommandSendDiagnostic
  | .writeFCode => scsiWriteFCode fs
  | .readFCode => scsiReadFCode fs
  | .beebScsiSense => scsiBeebScsiSense fs
  | .beebScsiSelect => scsiBeebScsiSelect fs
  | .beebScsiFatPath => scsiBeebScsiFatPath fs
  | .beebScsiFatInfo => scsiBeebScsiFatInfo fs
  | .beebScsiFatRead => scsiBeebScsiFatRead fs
  | .certify => scsiCommandCertify

/-! ### Runs -/

structure Poll where
  sel : Option UInt8
  acks : List (Option UInt8)
  rst : List Bool

inductive Step (σ : Type) where
  | poll (p : Poll)
  | reset (scsiid : UInt8)
  | other (fs : σ)

def Target.initial (s : σ) : Target σ where
  fs := s
  scsiState := .busFree
  freeState := false
  requestSenseData _ := NO_ERROR
  data := Vector.replicate 10 0
  targetLUN := 0
  status := SCSI_STATUS_OK
  scsiHostID := 0
  ourscsiid := 0
  phase := .dataOut
  databus := 0
  acks := []
  rst := []
  past := []
  current := none
  events := []
  polls := 0

def Target.begin (t : Target σ) (p : Poll) : Target σ :=
  { t with acks := p.acks, rst := p.rst, polls := t.polls + 1 }

def Target.poll (t : Target σ) (p : Poll) : Target σ :=
  let r := scsiProcess fs p.sel t.scsiState (t.begin p)
  { r.2 with scsiState := r.1 }

def Target.scsiReset (t : Target σ) (scsiid : UInt8) : Target σ :=
  { t with requestSenseData := fun _ => NO_ERROR
           ourscsiid := scsiid
           fs := fs.fcodeClearBuffer t.fs
           scsiState := .busFree
           events := t.events ++ [.reset] }

def Target.step (t : Target σ) : Step σ → Target σ
  | .poll p => t.poll fs p
  | .reset scsiid => t.scsiReset fs scsiid
  | .other s => { t with fs := s }

def Target.run (t : Target σ) (steps : List (Step σ)) : Target σ := steps.foldl (Target.step fs) t

end Pi1MHz.ScsiTarget
