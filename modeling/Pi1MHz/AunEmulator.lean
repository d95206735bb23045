import Pi1MHz.AunRun

/-!
# The AUN command interface

`aun_emulator.c`: the Beeb builds a command block in JIM RAM and writes its page to the
services port; the FIQ handler only records the request in a one-slot mailbox, and the
poll hook of the main loop executes it against the engine and writes the result byte.
-/

namespace Pi1MHz.Aun

open History (Step)

/-- The `AUN_CMD_*` commands; `code` is the first byte of the command block. -/
inductive Command where
  | init | status | tx | txPoll | rxOpen | rxPoll | rxClose | bcast | immediate | mapAdd | test
  | setMachine | rxDone | immPoll | immReply
deriving DecidableEq, Repr

def Command.code : Command → UInt8
  | .init => 30
  | .status => 31
  | .tx => 32
  | .txPoll => 33
  | .rxOpen => 34
  | .rxPoll => 35
  | .rxClose => 36
  | .bcast => 37
  | .immediate => 38
  | .mapAdd => 39
  | .test => 40
  | .setMachine => 41
  | .rxDone => 42
  | .immPoll => 43
  | .immReply => 44

def Command.ofByte (b : UInt8) : Option Command :=
  [Command.init, .status, .tx, .txPoll, .rxOpen, .rxPoll, .rxClose, .bcast, .immediate, .mapAdd,
    .test, .setMachine, .rxDone, .immPoll, .immReply].find? fun c => c.code == b

def JIM_RAM_STEP : UInt32 := 16 * 1024 * 1024
def DISC_RAM_SIZE : UInt32 := 2 * JIM_RAM_STEP

def AUN_DEFAULT_STATION : UInt8 := 32
def AUN_DEFAULT_NET : UInt8 := 0

def IMM_DATA_OFFSET : UInt32 := 0xFEA000

/-! ### State -/

structure Board where
  jimRam : Nat
  jimRamSize : UInt8

def Board.discRamBase (J : Board) : UInt32 := J.jimRamSize.toUInt32 * JIM_RAM_STEP - DISC_RAM_SIZE

/-- What a command finds outside: the state of the network stack, whether `udp_new` and
    `udp_bind` succeed, whether this build and configuration install the trace hook, and
    the values the parsers of `aun_config.c` get from `Pi1MHz.cfg`. -/
structure Surroundings where
  addressReady : Bool
  netifAdded : Bool
  ip : UInt32
  netmask : UInt32
  bindOk : Bool
  traceHook : Bool
  /-- `aun_station_is_ip`: the net, and whether the net comes from the IP too. -/
  stationIsIp : Option (UInt8 × Bool)
  /-- `aun_parse_station`: net and station. -/
  station : Option (UInt8 × UInt8)
  machine : Option (List UInt8)
  /-- The well-formed entries of `aun_map` before the first bad one. -/
  map : List (UInt8 × UInt8 × UInt32 × UInt16)
  learn : Option UInt8

/-- The statics of `aun_emulator.c`, with the FRED page the result byte is written to. -/
structure Emulator where
  aun : Engine
  pcb : Bool
  pending : Bool
  pendingCp : UInt32
  pendingAddr : UInt32
  irqEnabled : Bool
  irqState : UInt8
  fred : UInt32 → UInt8

@[simps -fullyApplied] def Emulator.withAun (em : Emulator) (e : Engine) : Emulator :=
  { em with aun := e }

def Emulator.boot (mem : Nat → UInt8) : Emulator where
  aun := Engine.zero ⟨mem, 0, 0, []⟩
  pcb := false
  pending := false
  pendingCp := 0
  pendingAddr := 0
  irqEnabled := false
  irqState := 0
  fred := fun _ => 0

variable (T : Transport) (J : Board)

/-- `aun_udp_send` refuses everything when there is no control block. -/
def Transport.through (pcb : Bool) : Transport := ⟨T.clock, fun k => pcb && T.udpSend k⟩

def Board.addr (off : UInt32) : Nat := J.jimRam + off.toNat

def jimRam (e : Engine) (off : UInt32) : UInt8 := e.io.mem (J.addr off)

def jimRead32 (e : Engine) (off : UInt32) : UInt32 := rd32le (readMem e.io.mem (J.addr off) 4)

def jimStore (e : Engine) (off : UInt32) (bytes : List UInt8) : Engine :=
  e.storeMem (J.addr off) bytes

def jimWrite32 (e : Engine) (off v : UInt32) : Engine := jimStore J e off (wr32le v)

def discBytes (e : Engine) (off len : UInt32) : List UInt8 :=
  readMem e.io.mem (J.addr (J.discRamBase + off)) len.toNat

def aunBufferOk (offset length : UInt32) : Bool :=
  if offset > DISC_RAM_SIZE then false else decide (length ≤ DISC_RAM_SIZE - offset)

/-! ### INIT -/

def initStation (env : Surroundings) (stn net : UInt8) : UInt8 × UInt8 :=
  if stn = 0 then
    let r : UInt8 × UInt8 :=
      match env.stationIsIp with
      | some (cfgNet, netFromIp) =>
          ((env.ip >>> 24).toUInt8, if netFromIp then (env.ip >>> 16).toUInt8 else cfgNet)
      | none =>
          match env.station with
          | some (cfgNet, cfgStn) => (cfgStn, cfgNet)
          | none => (AUN_DEFAULT_STATION, AUN_DEFAULT_NET)
    if r.1 = 0 ∨ r.1 = 0xFF then (AUN_DEFAULT_STATION, AUN_DEFAULT_NET) else r
  else (stn, net)

/-- `aun_parse_map` stops at the first entry the station map does not take. -/
def addMapEntries (e : Engine) : List (UInt8 × UInt8 × UInt32 × UInt16) → Engine
  | [] => e
  | (net, stn, ipBe, udpPort) :: rest =>
      let r := aunMapAdd e net stn ipBe udpPort
      if r.1 then addMapEntries r.2 rest else r.2

def initAddressing (e : Engine) (env : Surroundings) : Engine :=
  if env.netifAdded ∧ env.ip ≠ 0 ∧ env.netmask ≠ 0 then
    aunSetAddressing e ((env.ip &&& env.netmask) ||| ~~~env.netmask) env.ip env.netmask
      (env.learn.getD 0xFF)
  else e

def initEngine (e : Engine) (env : Surroundings) (stn net : UInt8) (hostImm : Bool) : Engine :=
  let e := aunSetTrace (aunSetHostImm (aunInit e stn net) hostImm) env.traceHook
  let e :=
    match env.machine with
    | some id => aunSetMachineId e id
    | none => e
  initAddressing (addMapEntries e env.map) env

def cmdInit (em : Emulator) (env : Surroundings) (cp : UInt32) : Status × Emulator :=
  let e := em.aun
  if env.addressReady = false then (.errNotReady, em)
  else if env.bindOk = false then (.netError, { em with pcb := false })
  else
    let s := initStation env (jimRam J e (cp + 1)) (jimRam J e (cp + 2))
    let flags := jimRam J e (cp + 8)
    (.ok, { em with
      pcb := true
      irqEnabled := flags &&& 1 != 0
      aun := initEngine e env s.1 s.2 (flags &&& 2 != 0) })

/-! ### The other commands -/

def statusCounters (c : Counters) : List UInt32 :=
  [c.txOk, c.txFail, c.rxData, c.rxBroadcast, c.rxImm, c.rxDup, c.rxNoBlock, c.rxUnknownSource,
    c.rxTooBig, c.ackSent, c.nakSent]

def cmdStatus (e : Engine) (env : Surroundings) (cp : UInt32) : Status × Engine :=
  let ready : UInt8 := (if env.addressReady then 1 else 0) ||| (if e.initialised then 2 else 0)
  let ip := if env.netifAdded then env.ip else 0
  let counters := statusCounters e.counters
  let e := jimStore J e (cp + 4) [e.station, e.net, ready]
  let e := jimWrite32 J e (cp + 8) ip
  (.ok, jimStore J e (cp + 12) (counters.flatMap wr32le))

def cmdTx (e : Engine) (cp : UInt32) : Status × Engine :=
  let off := jimRead32 J e (cp + 8)
  let len := jimRead32 J e (cp + 12)
  if aunBufferOk off len = false then (.errParam, e)
  else
    aunTxStart T e (jimRam J e (cp + 5)) (jimRam J e (cp + 4)) (jimRam J e (cp + 2))
      (jimRam J e (cp + 3)) (.bytes (discBytes J e off len))

def cmdTxPoll (e : Engine) (cp : UInt32) : Status × Engine :=
  (aunTxStatus e,
    if aunTxStatus e = .ok then jimWrite32 J e (cp + 8) (UInt32.ofNat (aunTxReplyLen e)) else e)

def cmdRxOpen (e : Engine) (cp : UInt32) : Status × Engine :=
  let off := jimRead32 J e (cp + 8)
  let size := jimRead32 J e (cp + 12)
  if aunBufferOk off size = false then (.errParam, e)
  else
    aunRxOpen e (jimRam J e (cp + 1)) (jimRam J e (cp + 2)) (jimRam J e (cp + 4))
      (jimRam J e (cp + 5)) (J.addr (J.discRamBase + off)) size.toNat

def cmdRxPoll (e : Engine) (cp : UInt32) : Status × Engine :=
  let r := aunRxPoll T e (jimRam J e (cp + 1))
  match r.1, r.2.1 with
  | .ok, some info =>
      let e := jimStore J r.2.2 (cp + 2) [info.ctrl, info.port, info.srcStn, info.srcNet]
      (.ok, jimWrite32 J e (cp + 12) (UInt32.ofNat info.len))
  | status, _ => (status, r.2.2)

@[simps! -fullyApplied himm himmCache hostImmEnabled initialised io]
def himmPolled (e : Engine) : Engine := e.withHimm { e.himm with polledGen := e.himm.gen }

def cmdImmPoll (e : Engine) (cp : UInt32) : Status × Engine :=
  if e.himm.active = false then (.pending, e)
  else
    let e' := jimStore J e (cp + 2) [e.himm.ctrl]
    let e' := jimWrite32 J e' (cp + 12) (UInt32.ofNat e.himm.len)
    (.ok, himmPolled (jimStore J e' (J.discRamBase + IMM_DATA_OFFSET) e.himm.data))

def cmdImmReply (e : Engine) (cp : UInt32) : Status × Engine :=
  let off := jimRead32 J e (cp + 8)
  let len := jimRead32 J e (cp + 12)
  if aunBufferOk off len = false ∨ len.toNat > AUN_HIMM_MAX then (.errParam, e)
  else
    -- only the immediate the host took with its IMM_POLL is answered
    (.ok,
      if e.himm.active ∧ e.himm.gen = e.himm.polledGen then aunHimmReply T e (discBytes J e off len)
      else e)

def cmdBcast (e : Engine) (cp : UInt32) : Status × Engine :=
  let off := jimRead32 J e (cp + 8)
  let len := jimRead32 J e (cp + 12)
  if aunBufferOk off len = false then (.errParam, e)
  else aunBroadcast T e (jimRam J e (cp + 2)) (jimRam J e (cp + 3)) (.bytes (discBytes J e off len))

def cmdImmediate (e : Engine) (cp : UInt32) : Status × Engine :=
  let off := jimRead32 J e (cp + 8)
  let len := jimRead32 J e (cp + 12)
  let replyOff := jimRead32 J e (cp + 16)
  let replyMax := jimRead32 J e (cp + 20)
  if aunBufferOk off len = false ∨ aunBufferOk replyOff replyMax = false then (.errParam, e)
  else
    aunImmediate T e (jimRam J e (cp + 5)) (jimRam J e (cp + 4)) (jimRam J e (cp + 2))
      (.bytes (discBytes J e off len)) (J.addr (J.discRamBase + replyOff)) replyMax.toNat

def cmdMapAdd (e : Engine) (cp : UInt32) : Status × Engine :=
  let r := aunMapAdd e (jimRam J e (cp + 2)) (jimRam J e (cp + 1)) (jimRead32 J e (cp + 4))
    (jimRead32 J e (cp + 8)).toUInt16
  (if r.1 then .ok else .errParam, r.2)

/-- The switch of `aun_execute`; an unknown command is `AUN_ERR_PARAM`. -/
def executeCommand (em : Emulator) (env : Surroundings) (cp : UInt32) :
    Option Command → Status × Emulator
  | some .init => cmdInit J em env cp
  | some .status => (cmdStatus J em.aun env cp).map id em.withAun
  | some .tx => (cmdTx (T.through em.pcb) J em.aun cp).map id em.withAun
  | some .txPoll => (cmdTxPoll J em.aun cp).map id em.withAun
  | some .rxOpen => (cmdRxOpen J em.aun cp).map id em.withAun
  | some .rxPoll => (cmdRxPoll (T.through em.pcb) J em.aun cp).map id em.withAun
  | some .rxClose => (aunRxClose em.aun (jimRam J em.aun (cp + 1))).map id em.withAun
  | some .immPoll => (cmdImmPoll J em.aun cp).map id em.withAun
  | some .immReply => (cmdImmReply (T.through em.pcb) J em.aun cp).map id em.withAun
  | some .rxDone =>
      (aunRxCollect (T.through em.pcb) em.aun (jimRam J em.aun (cp + 1))
        (jimRam J em.aun (cp + 2) == 0)).map id em.withAun
  | some .bcast => (cmdBcast (T.through em.pcb) J em.aun cp).map id em.withAun
  | some .immediate => (cmdImmediate (T.through em.pcb) J em.aun cp).map id em.withAun
  | some .mapAdd => (cmdMapAdd J em.aun cp).map id em.withAun
  | some .test =>
      (.ok, em.withAun (aunTestResponder em.aun (jimRam J em.aun (cp + 1) != 0)
        (jimRam J em.aun (cp + 2)) (jimRam J em.aun (cp + 3))))
  | some .setMachine =>
      (.ok, em.withAun (aunSetMachineId em.aun (readMem em.aun.io.mem (J.addr (cp + 4)) 4)))
  | none => (.errParam, em)

def aunExecute (em : Emulator) (env : Surroundings) (cp addr : UInt32) : Emulator :=
  let r := executeCommand T J em env cp (Command.ofByte (jimRam J em.aun cp))
  { r.2 with fred := Function.update r.2.fred addr r.1.code }

def aunEmulatorInit (em : Emulator) : Emulator :=
  { em with pending := false, irqEnabled := false, irqState := 0 }

def aunEmulatorCommand (em : Emulator) (cp addr : UInt32) : Emulator :=
  { em with pendingCp := cp, pendingAddr := addr, pending := true }

def aunIrqUpdate (em : Emulator) : Emulator :=
  if em.irqEnabled then
    let r := aunRxReady T em.aun 0
    let st : UInt8 :=
      if r.1 ≠ 0 then 0x80 ||| (if r.1 > 0x3F then 0x3F else UInt8.ofNat r.1) else 0
    { em with aun := r.2, irqState := if r.2.himm.active then st ||| 0x40 else st }
  else { em with irqState := 0 }

/-- The first half of `aun_emulator_poll`: the slot is cleared, then the command run. -/
def serveMailbox (em : Emulator) (env : Surroundings) : Emulator :=
  if em.pending then
    aunExecute T J { em with pending := false } env em.pendingCp em.pendingAddr
  else em

def pollEngine (em : Emulator) : Emulator :=
  aunIrqUpdate T (em.withAun (aunPoll (T.through em.pcb) em.aun))

def aunEmulatorPoll (em : Emulator) (env : Surroundings) : Emulator :=
  pollEngine T (serveMailbox T J em env)

def aunUdpRecv (em : Emulator) (ipBe : UInt32) (port : UInt16) (buf : List UInt8) : Emulator :=
  if em.pcb ∧ buf.length ≤ AUN_HDR_SIZE + AUN_MAX_DATA then
    em.withAun (aunUdpInput (T.through em.pcb) em.aun ipBe port buf)
  else em

inductive Event where
  | reset
  | write (off : UInt32) (bytes : List UInt8)
  | command (cp addr : UInt32)
  | poll (env : Surroundings)
  | recv (ipBe : UInt32) (port : UInt16) (buf : List UInt8)

def Emulator.beginEvent (em : Emulator) : Emulator := em.withAun em.aun.beginCall

def handle (em : Emulator) : Event → Emulator
  | .reset => aunEmulatorInit em
  | .write off bytes => em.withAun (jimStore J em.aun off bytes)
  | .command cp addr => aunEmulatorCommand em cp addr
  | .poll env => aunEmulatorPoll T J em env
  | .recv ipBe port buf => aunUdpRecv T em ipBe port buf

def emulatorStep (em : Emulator) (ev : Event) : Emulator := handle T J em.beginEvent ev

end Pi1MHz.Aun
