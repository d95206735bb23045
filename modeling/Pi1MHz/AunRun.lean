import Pi1MHz.AunInput
import Pi1MHz.History

/-!
# Runs of the AUN engine

The calls an engine can receive, what each does, and the runs they make up.  A
run starts at `aun_init` and is an arbitrary list of calls; the clock and the
stack behave as the transport `T` says, so every interleaving of calls, clock
advances and send failures is some run.
-/

namespace Pi1MHz.Aun

open History (Step)

inductive Op where
  | init (station net : UInt8)
  | mapAdd (net stn : UInt8) (ipBe : UInt32) (udpPort : UInt16)
  | setAddressing (broadcastIpBe subnetBaseBe maskBe : UInt32) (learnNet : UInt8)
  | testResponder (enable : Bool) (stn net : UInt8)
  | setMachineId (id : List UInt8)
  | setTrace (installed : Bool)
  | setHostImm (enable : Bool)
  | himmReply (data : List UInt8)
  | rxOpen (handle port stn net : UInt8) (buf bufSize : Nat)
  | rxPoll (handle : UInt8)
  | rxReady (handle : UInt8)
  | rxCollect (handle : UInt8) (accept : Bool)
  | rxClose (handle : UInt8)
  | txStart (destNet destStn ctrl port : UInt8) (data : Payload)
  | immediate (destNet destStn ctrl : UInt8) (data : Payload) (replyBuf replyMax : Nat)
  | broadcast (ctrl port : UInt8) (data : Payload)
  | udpInput (ipBe : UInt32) (port : UInt16) (buf : List UInt8)
  | poll
deriving DecidableEq, Repr

variable (T : Transport)

/-- One call and its result; calls that return nothing report `ok`. -/
def exec (e : Engine) : Op → Status × Engine
  | .init station net => (.ok, aunInit e station net)
  | .mapAdd net stn ipBe udpPort =>
      let r := aunMapAdd e net stn ipBe udpPort
      (if r.1 then .ok else .errParam, r.2)
  | .setAddressing broadcastIpBe subnetBaseBe maskBe learnNet =>
      (.ok, aunSetAddressing e broadcastIpBe subnetBaseBe maskBe learnNet)
  | .testResponder enable stn net => (.ok, aunTestResponder e enable stn net)
  | .setMachineId id => (.ok, aunSetMachineId e id)
  | .setTrace installed => (.ok, aunSetTrace e installed)
  | .setHostImm enable => (.ok, aunSetHostImm e enable)
  | .himmReply data => (.ok, aunHimmReply T e data)
  | .rxOpen handle port stn net buf bufSize => aunRxOpen e handle port stn net buf bufSize
  | .rxPoll handle => ((aunRxPoll T e handle).1, (aunRxPoll T e handle).2.2)
  | .rxReady handle => (.ok, (aunRxReady T e handle).2)
  | .rxCollect handle accept => aunRxCollect T e handle accept
  | .rxClose handle => aunRxClose e handle
  | .txStart destNet destStn ctrl port data => aunTxStart T e destNet destStn ctrl port data
  | .immediate destNet destStn ctrl data replyBuf replyMax =>
      aunImmediate T e destNet destStn ctrl data replyBuf replyMax
  | .broadcast ctrl port data => aunBroadcast T e ctrl port data
  | .udpInput ipBe port buf => (.ok, aunUdpInput T e ipBe port buf)
  | .poll => (.ok, aunPoll T e)

def Engine.beginCall (e : Engine) : Engine := { e with io := { e.io with out := [] } }

def step (e : Engine) (op : Op) : Engine := (exec T e.beginCall op).2

def result (e : Engine) (op : Op) : Status := (exec T e.beginCall op).1

/-- A freshly initialised engine over host memory `mem`. -/
def start (mem : Nat → UInt8) (station net : UInt8) : Engine :=
  aunInit (Engine.zero ⟨mem, 0, 0, []⟩) station net

/-- The state after a run from `aun_init`. -/
def runState (mem : Nat → UInt8) (station net : UInt8) (ops : List Op) : Engine :=
  History.final (step T) (start mem station net) ops

/-- The steps of a run from `aun_init`. -/
def runSteps (mem : Nat → UInt8) (station net : UInt8) (ops : List Op) : List (Step Engine Op) :=
  History.history (step T) (start mem station net) ops

theorem runState_snoc (mem : Nat → UInt8) (station net : UInt8) (ops : List Op) (op : Op) :
    runState T mem station net (ops ++ [op]) = step T (runState T mem station net ops) op :=
  History.final_snoc _ _ _ _

theorem runSteps_snoc (mem : Nat → UInt8) (station net : UInt8) (ops : List Op) (op : Op) :
    runSteps T mem station net (ops ++ [op]) = runSteps T mem station net ops ++
      [⟨runState T mem station net ops, op, step T (runState T mem station net ops) op⟩] :=
  History.history_snoc _ _ _ _

/-- A transport for examples: one millisecond between two clock reads, and a stack
    that takes every datagram. -/
def Transport.steady : Transport := ⟨fun k => k, fun _ => true⟩

end Pi1MHz.Aun
