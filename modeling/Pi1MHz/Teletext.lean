import Pi1MHz.History
import Pi1MHz.RingStream
import Pi1MHz.FinSizes

/-!
# The teletext adapter

`teletext_emulator.c`: four TCP streams of fields, each of 16 lines of 42 bytes, with a ring for
each, and the field state machine that hands a field of the selected channel to the Beeb and drives
the status byte and nIRQ.
-/

namespace Pi1MHz.Teletext

open RingStream FinSizes

def TTX_ROWS : Nat := 16
def TTX_ROW_BYTES : Nat := 42
def TTX_FIELD_BYTES : Nat := TTX_ROWS * TTX_ROW_BYTES
def TTX_RING_FIELDS : Nat := 6
def TTX_RING_BYTES : Nat := TTX_FIELD_BYTES * TTX_RING_FIELDS

instance : NeZero TTX_RING_BYTES := ⟨by decide⟩

def TTX_ST_LINKS : UInt8 := 0x0F
def TTX_ST_FSYNC : UInt8 := 0x10
def TTX_ST_DEW : UInt8 := 0x20
def TTX_ST_DOR : UInt8 := 0x40
def TTX_ST_INT : UInt8 := 0x80
def TTX_ST_CLEARABLE : UInt8 := TTX_ST_INT ||| TTX_ST_DOR ||| TTX_ST_FSYNC

def TTX_CTL_CHAN : UInt8 := 0x03
def TTX_CTL_ENABLE : UInt8 := 0x04
def TTX_CTL_INTEN : UInt8 := 0x08

def TTX_US_FSYNC_EVEN : UInt32 := 290
def TTX_US_FSYNC_ODD : UInt32 := 320
def TTX_US_DEW : UInt32 := 1088
def TTX_US_FIELD_EVEN : UInt32 := 18592
def TTX_US_FIELD_ODD : UInt32 := 18622
def TTX_US_RECONNECT : UInt32 := 2000000

inductive Phase where
  | field
  | fsync
  | dew
deriving DecidableEq, Repr

structure Chan where
  configured : Bool
  pcb : Bool
  connected : Bool
  reconnectAtUs : UInt32
  ring : Ring UInt8 TTX_RING_BYTES

structure Adapter where
  status : UInt8
  statusDEW : UInt8
  intsEnabled : Bool
  enable : Bool
  channel : Fin 4
  rowPtr : UInt8
  colPtr : UInt8
  row : Fin 16 → Fin 64 → UInt8
  phase : Phase
  nextUs : UInt32
  fieldParity : Bool
  chan : Fin 4 → Chan
  /-- The bytes at offsets 0 and 2 that the Beeb reads, and the adapter's part of nIRQ. -/
  statusByte : UInt8
  dataByte : UInt8
  nIRQ : Bool

def ringPush (r : Ring UInt8 TTX_RING_BYTES) (d : List UInt8) : Ring UInt8 TTX_RING_BYTES :=
  -- keep only the newest bytes
  let d := if TTX_RING_BYTES ≤ d.length then d.drop (d.length - TTX_RING_BYTES) else d
  let r :=
    if TTX_RING_BYTES < r.count + d.length then
      let drop := r.count + d.length - TTX_RING_BYTES
      { r with tail := (r.tail + drop) % TTX_RING_BYTES, count := r.count - drop }
    else r
  r.write 32 d

def ringPopField (r : Ring UInt8 TTX_RING_BYTES) : Option (List UInt8) × Ring UInt8 TTX_RING_BYTES :=
  if r.count < TTX_FIELD_BYTES then (none, r)
  else (some (r.front TTX_FIELD_BYTES), r.skip 32 TTX_FIELD_BYTES)

/-! ### The network -/

def Adapter.setChan (a : Adapter) (ch : Fin 4) (c : Chan) : Adapter :=
  { a with chan := Function.update a.chan ch c }

def ttxDisconnect (c : Chan) (now : UInt32) : Chan :=
  { c with pcb := false
           connected := false
           ring := c.ring.clear
           reconnectAtUs := now + TTX_US_RECONNECT }

/-- What lwIP reports on a channel: a chain of pbufs, the end of the stream or an error, or that a
connection is made. -/
inductive Report where
  | recv (p : List (List UInt8))
  | closed (now : UInt32)
  | connected
  | failed (now : UInt32)

def Report.possible (c : Chan) : Report → Bool
  | .recv _ => c.connected
  | .connected => c.pcb && !c.connected
  | .closed _ | .failed _ => c.pcb

def ttxReport (c : Chan) : Report → Chan
  | .recv p => { c with ring := p.foldl ringPush c.ring }
  | .closed now => ttxDisconnect c now
  | .connected => { c with connected := true }
  | .failed now => ttxDisconnect c now

/-- What an attempt to connect comes to. -/
inductive Attempt where
  | noPcb
  | refused
  | started

def ttxConnect (c : Chan) (now : UInt32) : Attempt → Chan
  | .noPcb => { c with reconnectAtUs := now + TTX_US_RECONNECT }
  | .refused => ttxDisconnect c now
  | .started => { c with pcb := true }

def ttxNetPoll (a : Adapter) (now : UInt32) (attempt : Fin 4 → Attempt) : Adapter :=
  { a with chan := fun ch =>
      let c := a.chan ch
      if ¬ c.configured ∨ c.pcb then c
      else if (now - c.reconnectAtUs).toInt32 < 0 then c
      else ttxConnect c now (attempt ch) }

def isChannelOpen (a : Adapter) (ch : Fin 4) : Bool := (a.chan ch).connected

/-! ### The callbacks -/

def ttxPreload (a : Adapter) : UInt8 :=
  if h : a.rowPtr.toNat < 16 then a.row ⟨a.rowPtr.toNat, h⟩ (Fin.ofNat 64 a.colPtr.toNat) else 0

def ttxPreloadData (a : Adapter) : Adapter := { a with dataByte := ttxPreload a }

def ttxUpdateIrq (a : Adapter) : Adapter :=
  { a with nIRQ := a.intsEnabled && a.status &&& TTX_ST_INT != 0 }

def ttxStatusWrite (a : Adapter) : Adapter := { a with statusByte := a.status ||| a.statusDEW }

inductive Fiq where
  | control (v : UInt8)
  | writeRow (v : UInt8)
  | readData
  | writeData (v : UInt8)
  | clear

def ttxWControl (a : Adapter) (v : UInt8) : Adapter :=
  ttxUpdateIrq
    { a with intsEnabled := v &&& TTX_CTL_INTEN != 0
             enable := v &&& TTX_CTL_ENABLE != 0
             channel := Fin.ofNat 4 (v &&& TTX_CTL_CHAN).toNat }

def ttxWRow (a : Adapter) (v : UInt8) : Adapter := ttxPreloadData { a with rowPtr := v, colPtr := 0 }

def ttxRData (a : Adapter) : Adapter := ttxPreloadData { a with colPtr := (a.colPtr + 1) &&& 0x3F }

def Adapter.storeRow (a : Adapter) (row : Fin 16) (col : Fin 64) (v : UInt8) : Adapter :=
  { a with row := Function.update a.row row (Function.update (a.row row) col v) }

def ttxWData (a : Adapter) (v : UInt8) : Adapter :=
  let a :=
    if h : a.rowPtr.toNat < 16 then a.storeRow ⟨a.rowPtr.toNat, h⟩ (Fin.ofNat 64 a.colPtr.toNat) v else a
  ttxPreloadData { a with colPtr := (a.colPtr + 1) &&& 0x3F }

def ttxClear (a : Adapter) : Adapter :=
  { ttxStatusWrite { a with status := a.status &&& ~~~TTX_ST_CLEARABLE } with nIRQ := false }

def callback (a : Adapter) : Fiq → Adapter
  | .control v => ttxWControl a v
  | .writeRow v => ttxWRow a v
  | .readData => ttxRData a
  | .writeData v => ttxWData a v
  | .clear => ttxClear a

/-! ### The main loop -/

/-- The next step of the main loop: nothing is in progress, or it is in `teletext_poll` or in
`teletext_emulator_init`. -/
inductive Main where
  | idle
  | fsyncOpen
  | fsyncSet
  | dewOpen
  | dewLatch
  | dewSet
  | loadOpen
  | loadPop
  | loadEnable (field : List UInt8)
  | loadRow (field : List UInt8) (i : Nat)
  | loadRowPtr
  | loadColPtr
  | loadPreload
  | dewClear
  | intOpen
  | intLoad
  | intStore (t : UInt8)
  | intEnabled
  | intAssert
  | statusLoad
  | statusStore (v : UInt8)
  | initStatus
  | initEnabled
  | initEnable
  | initChannel
  | initRow
  | initCol
  | initLoad
  | initStore (v : UInt8)
  | initData
  | initIrq
deriving DecidableEq, Repr

structure Machine where
  adapter : Adapter
  main : Main

/-- `teletext_poll` up to the test of the channel. -/
def startPoll (a : Adapter) (now : UInt32) (attempt : Option (Fin 4 → Attempt)) : Machine :=
  let a := (attempt.map (ttxNetPoll a now)).getD a
  if (now - a.nextUs).toInt32 < 0 then ⟨a, .idle⟩
  else
    match a.phase with
    | .field =>
      ⟨{ a with phase := .fsync
                nextUs := now + if a.fieldParity then TTX_US_FSYNC_ODD else TTX_US_FSYNC_EVEN }, .fsyncOpen⟩
    | .fsync => ⟨{ a with phase := .dew, nextUs := now + TTX_US_DEW }, .dewOpen⟩
    | .dew =>
      ⟨{ a with phase := .field
                fieldParity := !a.fieldParity
                nextUs := now + if !a.fieldParity then TTX_US_FIELD_ODD else TTX_US_FIELD_EVEN }, .dewClear⟩

/-- `teletext_emulator_init` up to its first store to a shared variable. -/
def startInit (a : Adapter) (now : UInt32) : Machine :=
  ⟨{ a with phase := .field, fieldParity := false, nextUs := now + 64 }, .initStatus⟩

/-- A line that begins with zero leaves its row as it is. -/
def loadLine (a : Adapter) (field : List UInt8) (i : Nat) : Adapter :=
  let line := (field.drop (i * TTX_ROW_BYTES)).take TTX_ROW_BYTES
  if h : i < 16 ∧ line.head? ≠ some 0 then
    { a with row := Function.update a.row ⟨i, h.1⟩ fun col =>
        if col.val = 0 then 0x27 else line.getD (col.val - 1) (a.row ⟨i, h.1⟩ col) }
  else a

/-- What the main loop does up to its next shared access. -/
def runMain (m : Machine) : Machine :=
  let a := m.adapter
  match m.main with
  | .idle => m
  | .fsyncOpen => ⟨a, if isChannelOpen a a.channel then .fsyncSet else .statusLoad⟩
  | .fsyncSet => ⟨{ a with status := a.status ||| TTX_ST_FSYNC }, .statusLoad⟩
  | .dewOpen => ⟨a, if isChannelOpen a a.channel then .dewLatch else .loadOpen⟩
  | .dewLatch =>
    ⟨{ a with status := (a.status &&& ~~~TTX_ST_DOR) ||| ((a.status &&& TTX_ST_INT) >>> 1) }, .dewSet⟩
  | .dewSet => ⟨{ a with statusDEW := TTX_ST_DEW }, .loadOpen⟩
  | .loadOpen => ⟨a, if isChannelOpen a a.channel then .loadPop else .statusLoad⟩
  | .loadPop =>
    let r := ringPopField (a.chan a.channel).ring
    let a := a.setChan a.channel { a.chan a.channel with ring := r.2 }
    match r.1 with
    | none => ⟨a, .statusLoad⟩
    | some field => ⟨a, .loadEnable field⟩
  | .loadEnable field => ⟨a, if a.enable then .loadRow field 0 else .statusLoad⟩
  | .loadRow field i => ⟨loadLine a field i, if i + 1 < TTX_ROWS then .loadRow field (i + 1) else .loadRowPtr⟩
  | .loadRowPtr => ⟨{ a with rowPtr := 0 }, .loadColPtr⟩
  | .loadColPtr => ⟨{ a with colPtr := 0 }, .loadPreload⟩
  | .loadPreload => ⟨ttxPreloadData a, .statusLoad⟩
  | .dewClear => ⟨{ a with statusDEW := 0 }, .intOpen⟩
  | .intOpen => ⟨a, if isChannelOpen a a.channel then .intLoad else .statusLoad⟩
  | .intLoad => ⟨a, .intStore a.status⟩
  | .intStore t => ⟨{ a with status := t ||| TTX_ST_INT }, .intEnabled⟩
  | .intEnabled => ⟨a, if a.intsEnabled then .intAssert else .statusLoad⟩
  | .intAssert => ⟨{ a with nIRQ := true }, .statusLoad⟩
  | .statusLoad => ⟨a, .statusStore (a.status ||| a.statusDEW)⟩
  | .statusStore v => ⟨{ a with statusByte := v }, .idle⟩
  | .initStatus => ⟨{ a with status := TTX_ST_LINKS }, .initEnabled⟩
  | .initEnabled => ⟨{ a with intsEnabled := false }, .initEnable⟩
  | .initEnable => ⟨{ a with enable := false }, .initChannel⟩
  | .initChannel => ⟨{ a with channel := 0 }, .initRow⟩
  | .initRow => ⟨{ a with rowPtr := 0 }, .initCol⟩
  | .initCol => ⟨{ a with colPtr := 0 }, .initLoad⟩
  | .initLoad => ⟨a, .initStore (a.status ||| a.statusDEW)⟩
  | .initStore v => ⟨{ a with statusByte := v }, .initData⟩
  | .initData => ⟨{ a with dataByte := 0 }, .initIrq⟩
  | .initIrq => ⟨{ a with nIRQ := false }, .idle⟩

/-- What happens next: a callback at any time, and, with nothing in progress, a report of lwIP or
the start of a poll or of an init. -/
inductive Event where
  | fiq (f : Fiq)
  | main
  | report (ch : Fin 4) (r : Report)
  | poll (now : UInt32) (attempt : Option (Fin 4 → Attempt))
  | init (now : UInt32)

def step (m : Machine) : Event → Machine
  | .fiq f => { m with adapter := callback m.adapter f }
  | .main => runMain m
  | .report ch r =>
    if m.main = .idle ∧ r.possible (m.adapter.chan ch) then
      { m with adapter := m.adapter.setChan ch (ttxReport (m.adapter.chan ch) r) }
    else m
  | .poll now attempt => if m.main = .idle then startPoll m.adapter now attempt else m
  | .init now => if m.main = .idle then startInit m.adapter now else m

def Machine.initial (configured : Fin 4 → Bool) (now : UInt32) : Machine where
  adapter :=
    { status := TTX_ST_LINKS
      statusDEW := 0
      intsEnabled := false
      enable := false
      channel := 0
      rowPtr := 0
      colPtr := 0
      row := fun _ _ => 0
      phase := .field
      nextUs := now + 64
      fieldParity := false
      chan := fun ch => ⟨configured ch, false, false, 0, ⟨fun _ => 0, 0, 0, 0⟩⟩
      statusByte := TTX_ST_LINKS
      dataByte := 0
      nIRQ := false }
  main := .idle

end Pi1MHz.Teletext
