import Pi1MHz.History
import Pi1MHz.NetUrlCommands
import Pi1MHz.FinSizes

/-!
# The net service: dispatch and runs

The service as one state machine.  A step is a command the poll dispatches, the teardown a reset
asks for, or one lwIP callback; the Beeb chooses commands and block contents, lwIP chooses which
callback comes next and what its calls answer.
-/

namespace Pi1MHz.Net

open FinSizes

structure Service where
  h : Fin NET_MAX_HANDLES → Handle
  irqArmed : Bool
  stack : Stack

/-- `DISC_RAM_BASE` and `net_enable`. -/
structure Config where
  base : Nat
  enabled : Bool

def Service.boot (rings : Fin NET_MAX_HANDLES → Fin NET_RX_RING_SIZE → UInt8) : Service :=
  { h := fun i => { ring := ⟨rings i, 0, 0, 0⟩ }, irqArmed := false, stack := {} }

def Service.setH (n : Service) (i : Fin NET_MAX_HANDLES) (h : Handle) : Service :=
  { n with h := Function.update n.h i h }

/-! ### Dispatch -/

/-- `NET_CMD_*`; `close` is also `NET_CMD_URL_CLOSE`. -/
inductive Command where
  | open | dns | connect | bind | listen | send | recv | recvAvail | close | status
  | udpSendto | udpRecvfrom | irq | urlOpen | urlRead | urlWrite | urlStatus
deriving DecidableEq, Repr

def Command.ofByte (b : UInt8) : Option Command :=
  match b.toNat with
  | 45 => some .open
  | 46 => some .dns
  | 47 => some .connect
  | 48 => some .bind
  | 49 => some .listen
  | 50 => some .send
  | 51 => some .recv
  | 52 => some .recvAvail
  | 53 => some .close
  | 54 => some .status
  | 55 => some .udpSendto
  | 56 => some .udpRecvfrom
  | 57 => some .irq
  | 60 => some .urlOpen
  | 61 => some .urlRead
  | 62 => some .urlWrite
  | 63 => some .close
  | 64 => some .urlStatus
  | _ => none

/-- One command on handle `i`; arming the nIRQ touches no handle. -/
def runCommand (base : Nat) (a : Answers) (i : Fin NET_MAX_HANDLES) (cp : Nat) (c : Ctx) :
    Command → Result × Ctx
  | .open => doOpen a i cp c
  | .dns => doDns base a i cp c
  | .connect => doConnect a i cp c
  | .bind => doBind a cp c
  | .listen => doListen a i cp c
  | .send => doSend base a cp c
  | .recv => doRecv base cp c
  | .recvAvail => doRecvAvail cp c
  | .close => doClose a c
  | .status => doStatus cp c
  | .udpSendto => doUdpSendto base a cp c
  | .udpRecvfrom => doUdpRecvfrom base cp c
  | .irq => (.ok, c)
  | .urlOpen => doUrlOpen base a i cp c
  | .urlRead => doUrlRead base a cp c
  | .urlWrite => doUrlWrite base a cp c
  | .urlStatus => doUrlStatus cp c

def handleOf (data : UInt8) : Option (Fin NET_MAX_HANDLES) :=
  if h : (data &&& 0x0F).toNat < NET_MAX_HANDLES then some ⟨(data &&& 0x0F).toNat, h⟩ else none

def issued (cfg : Config) (jim : Jim) (cp : Nat) (data : UInt8) :
    Option (Fin NET_MAX_HANDLES × Command) :=
  if cfg.enabled = false then none
  else (handleOf data).bind fun i => (Command.ofByte (jim cp)).map fun cmd => (i, cmd)

def netDispatch (cfg : Config) (a : Answers) (n : Service) (jim : Jim) (cp : Nat) (data : UInt8) :
    Result × Jim × Service :=
  if cfg.enabled = false then (.errDisabled, jim, n)
  else
    match handleOf data with
    | none => (.errParam, jim, n)
    | some i =>
        match Command.ofByte (jim cp) with
        | none => (.errUnsupported, jim, n)
        | some cmd =>
            let r := runCommand cfg.base a i cp ⟨jim, n.h i, n.stack⟩ cmd
            (r.1, r.2.jim,
              { h := Function.update n.h i r.2.h
                irqArmed := if cmd = .irq then jim (cp + 1) ≠ 0 else n.irqArmed
                stack := r.2.stack })

/-- `net_tcp_accept` with a connection: refused, or given the first free handle. -/
def netTcpAccept (n : Service) (lh : Fin NET_MAX_HANDLES) (ip : Ip) (port : UInt16) : Service :=
  let newpcb := n.stack.nextPcb
  let refused : Service := { n with stack := (n.stack.add ⟨.tcp, none⟩).free newpcb }
  if (n.h lh).acceptReady then refused
  else
    match firstFree n.h with
    | none => refused
    | some idx =>
        let n : Service := { n with stack := n.stack.add ⟨.tcp, some idx⟩ }
        let n := n.setH idx (acceptedHandle (n.h idx) newpcb ip port)
        n.setH lh { n.h lh with acceptReady := true, acceptH := idx }

def resetAll (n : Service) : Service :=
  { h := fun i => (netPcbRelease (n.h i) n.stack).1.reset
    irqArmed := false
    stack := (List.finRange NET_MAX_HANDLES).foldl (fun s i => (netPcbRelease (n.h i) s).2) n.stack }

/-! ### Steps -/

inductive Event where
  | command (a : Answers) (jim : Jim) (cp : Nat) (data : UInt8)
  | reset
  | udpRecv (p : Nat) (d : Chain) (addr : Ip) (port : UInt16)
  | tcpRecv (a : Answers) (p : Nat) (seg : Option Chain) (ok : Bool)
  | tcpErr (p : Nat)
  | tcpConnected (p : Nat) (ok : Bool)
  | tcpAccept (lp : Nat) (ok : Bool) (ip : Ip) (port : UInt16)
  | dnsFound (q : Nat) (ip : Option Ip)

def Stack.owner (s : Stack) (kind : PcbKind) (p : Nat) : Option (Fin NET_MAX_HANDLES) :=
  match s.pcbs p with
  | some q => if q.kind = kind then q.arg else none
  | none => none

variable (cfg : Config)

def step (n : Service) : Event → Service
  | .command a jim cp data => (netDispatch cfg a n jim cp data).2.2
  | .reset => resetAll n
  | .udpRecv p d addr port =>
      match n.stack.owner .udp p with
      | none => n
      | some i => n.setH i (netUdpRecv (n.h i) d addr port)
  | .tcpRecv a p seg ok =>
      match n.stack.owner .tcp p with
      | none => n
      | some i =>
          let r := netTcpRecv a (n.h i) n.stack seg ok
          { n.setH i r.2.1 with stack := r.2.2 }
  | .tcpErr p =>
      match n.stack.owner .tcp p with
      | none => n
      | some i => { n.setH i (netTcpErr (n.h i)) with stack := n.stack.free p }
  | .tcpConnected p ok =>
      match n.stack.owner .tcp p with
      | none => n
      | some i =>
          { n.setH i (netTcpConnected (n.h i) ok) with
            stack := if ok then n.stack else n.stack.free p }
  | .tcpAccept lp ok ip port =>
      match n.stack.owner .listen lp with
      | none => n
      | some lh => if ok then netTcpAccept n lh ip port else n
  | .dnsFound q ip =>
      match n.stack.queries q with
      | none => n
      | some query =>
          { n.setH query.arg (netDnsFound (n.h query.arg) ip) with stack := n.stack.answered q }

end Pi1MHz.Net
