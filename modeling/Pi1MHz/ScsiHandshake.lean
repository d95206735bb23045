import Pi1MHz.BusMemory
import Pi1MHz.History

/-!
# The SCSI handshake

The host adapter of `harddisc_emulator.c`: a byte is passed with REQ and ACK, the routines of the
target in the main loop and the accesses of the host in FIQ.  `Main` says which load or store of a
routine comes next, and a callback may come before any of them; `MemoryWrite` is broken up as well, as
the data and the status byte are the two halves of one word.

Left out: the choice of the phases, what the commands do, and `harddisc_emulator_init` on a reset.  The
address is that of the default configuration.
-/

namespace Pi1MHz.Handshake

def HD_ADDR : Nat := 0x40
def STATUS_ADDR : Nat := HD_ADDR + 1

def STATUS_CND : BitVec 8 := 0x80
def STATUS_INO : BitVec 8 := 0x40
def STATUS_REQ : BitVec 8 := 0x20
def STATUS_IRQ : BitVec 8 := 0x10
def STATUS_BSY : BitVec 8 := 0x02
def STATUS_MSG : BitVec 8 := 0x01

structure Adapter where
  hdAck : Bool
  hdData : BitVec 8
  hdSel : Bool
  hdIrqEnable : Bool
  hdStatus : BitVec 8
  hdIrq : BitVec 8
  nIrq : Bool
  bus : Bus.Memory

def Adapter.shown (a : Adapter) : BitVec 8 := a.hdStatus ||| a.hdIrq

def hd_emulator_write_data (a : Adapter) (data : BitVec 8) : Adapter :=
  { a with hdData := data, bus := a.bus.memoryWrite HD_ADDR data, hdAck := true }

def hd_emulator_read_data (a : Adapter) : Adapter := { a with hdAck := true }

def hd_emulator_nSEL (a : Adapter) (data : BitVec 8) : Adapter := { a with hdData := data, hdSel := true }

def hd_emulator_IRQ (a : Adapter) (enable : Bool) : Adapter :=
  if enable then
    let a := { a with hdIrqEnable := true }
    if a.hdStatus &&& STATUS_REQ ≠ 0 then
      { a with nIrq := true, hdIrq := STATUS_IRQ
               bus := a.bus.memoryWrite STATUS_ADDR (a.hdStatus ||| STATUS_IRQ) }
    else a
  else
    { a with hdIrqEnable := false, nIrq := false, hdIrq := 0
             bus := a.bus.memoryWrite STATUS_ADDR a.hdStatus }

/-! ### The main loop -/

inductive Kind where
  | cdb
  /-- So many calls of `hostadapterReadByte`. -/
  | parameters (n : Nat)
  /-- `hostadapterPerformWriteDMA` into a buffer with something in it. -/
  | sector (buffer : List (BitVec 8))

abbrev Tagged := Nat × BitVec 8

inductive Transfer where
  | take (kind : Kind) (got : List Tagged)
  | give (dma : Bool) (bytes : List (BitVec 8))

/-- What comes once the status is written: more flags, and `HD_SEL` is cleared with BSY; the test for
the interrupt; or the byte that REQ was for. -/
inductive After where
  | flags (ops : List (BitVec 8 × Bool)) (clearSel : Bool)
  | raised (t : Transfer)
  | lowered (t : Transfer)

/-- Where `Pi1MHz_MemoryWrite` is: before it loads the other half of the word, with it, or before the
shadow is stored. -/
inductive Stage where
  | load
  | vpu (other : BitVec 8)
  | shadow

inductive Main where
  | idle
  | start (t : Transfer)
  | data (v : BitVec 8) (st : Stage) (t : Transfer)
  | ackClear (t : Transfer)
  /-- `HD_status` is stored, then `HD_status | HD_IRQ` loaded, then written. -/
  | status (v : BitVec 8) (after : After)
  | argument (after : After)
  | publish (v : BitVec 8) (st : Stage) (after : After)
  /-- `if (HD_IRQ_ENABLE)`, nIRQ, `HD_IRQ` and the status byte. -/
  | test (t : Transfer)
  | assertIrq (t : Transfer)
  | setIrq (t : Transfer)
  | argumentIrq (t : Transfer)
  | publishIrq (v : BitVec 8) (st : Stage) (t : Transfer)
  /-- The test of the loop of `hd_wait_ack`, and its body. -/
  | wait (t : Transfer)
  | body (t : Transfer)
  /-- `HD_DATA` is read: before REQ is cleared for a sector, after it for a single byte. -/
  | taken (buffer : List (BitVec 8)) (got : List Tagged)
  | got (kind : Kind) (got : List Tagged)

structure Host where
  seen : Option Nat
  answered : Nat

structure World where
  hd : Adapter
  main : Main
  host : Host
  raised : Nat
  inView : Nat
  asked : List Nat
  sent : List Tagged
  stored : List Tagged
  done : List (Kind × List Tagged)

inductive Routine where
  | take (kind : Kind)
  | give (dma : Bool) (bytes : List (BitVec 8))
  /-- `hostadapterWriteDataPhaseFlags`, `hostadapterWriteBusyFlag` and clearing REQ. -/
  | phase (message commandNotData inputNotOutput : Bool)
  | busy (flagState : Bool)
  | clearRequest

def cdbLength (opcode : BitVec 8) : Nat := if opcode >>> 5 = 1 then 10 else 6

def complete : Kind → List Tagged → Bool
  | .cdb, [] => false
  | .cdb, b :: got => (b :: got).length = cdbLength b.2
  | .parameters n, got => got.length = n
  | .sector _, got => got.length = 256

def hd_emulator_status (status bit : BitVec 8) (state : Bool) : BitVec 8 :=
  if state then status ||| bit else status &&& ~~~bit

/-- The next call of `hd_emulator_status`. -/
def World.flags (w : World) (clearSel : Bool) : List (BitVec 8 × Bool) → World
  | [] => { w with hd := { w.hd with hdSel := w.hd.hdSel && !clearSel }, main := .idle }
  | (bit, state) :: ops =>
    { w with main := .status (hd_emulator_status w.hd.hdStatus bit state) (.flags ops clearSel) }

def World.lower (w : World) (t : Transfer) : World :=
  { w with main := .status (hd_emulator_status w.hd.hdStatus STATUS_REQ false) (.lowered t) }

def World.finish (w : World) (kind : Kind) (got : List Tagged) (rst : Bool) : World :=
  match kind, rst with
  | .sector _, true => { w with main := .idle }
  | _, _ => { w with main := .idle, done := w.done ++ [(kind, got)] }

def World.proceed (w : World) (kind : Kind) (got : List Tagged) (rst : Bool) : World :=
  if complete kind got then w.finish kind got rst else { w with main := .start (.take kind got) }

/-- `HD_DATA` is stored. -/
def World.store (w : World) (got : List Tagged) : World × List Tagged :=
  ({ w with stored := w.stored ++ [(w.raised, w.hd.hdData)] }, got ++ [(w.raised, w.hd.hdData)])

/-- `hd_wait_ack` returns true, or its result is not looked at. -/
def World.leave (w : World) (t : Transfer) : World :=
  match t with
  | .take (.sector buffer) got => { w with main := .taken buffer got }
  | _ => w.lower t

/-- `hd_wait_ack` returns false. -/
def World.timeout (w : World) (t : Transfer) (rst : Bool) : World :=
  match t with
  | .take (.sector buffer) got =>
    -- the count is returned and not looked at
    w.finish (.sector buffer) (got ++ (buffer.drop got.length).map (0, ·)) rst
  | .give true _ => { w with main := .idle }
  | _ => w.leave t

def World.next (w : World) (after : After) (rst : Bool) : World :=
  match after with
  | .flags ops clearSel => w.flags clearSel ops
  | .raised t => { w with main := .test t }
  | .lowered (.take (.sector buffer) got) => w.proceed (.sector buffer) got rst
  | .lowered (.take kind got) => { w with main := .got kind got }
  | .lowered (.give dma bytes) =>
    match bytes.tail with
    | [] => { w with main := .idle }
    | bytes => { w with main := .start (.give dma bytes) }

def World.show (w : World) (after : After) : World :=
  match after with
  | .raised _ => { w with inView := w.raised }
  | _ => w

/-- The main loop goes on; `rst` is whether the Beeb is being reset, where that is looked at. -/
def World.advance (w : World) (rst : Bool) : World :=
  match w.main with
  | .idle => w
  | .start (.take kind got) => { w with main := .ackClear (.take kind got) }
  | .start (.give _ []) => { w with main := .idle }
  | .start (.give dma (v :: bytes)) => { w with main := .data v .load (.give dma (v :: bytes)) }
  | .data v .load t => { w with main := .data v (.vpu (w.hd.bus.shadow (HD_ADDR ^^^ 1))) t }
  | .data v (.vpu other) t =>
    { w with hd := { w.hd with bus := w.hd.bus.storeVpu (HD_ADDR / 2) (Bus.byteWord HD_ADDR v (Bus.driven other)) }
             main := .data v .shadow t }
  | .data v .shadow t =>
    { w with hd := { w.hd with bus := w.hd.bus.storeShadow HD_ADDR v }, main := .ackClear t }
  | .ackClear t =>
    { w with
      hd := { w.hd with hdAck := false }
      raised := w.raised + 1
      asked := match t with
        | .take .. => w.asked ++ [w.raised + 1]
        | .give .. => w.asked
      main := .status (hd_emulator_status w.hd.hdStatus STATUS_REQ true) (.raised t) }
  | .status v after => { w with hd := { w.hd with hdStatus := v }, main := .argument after }
  | .argument after => { w with main := .publish w.hd.shown .load after }
  | .publish v .load after => { w with main := .publish v (.vpu (w.hd.bus.shadow (STATUS_ADDR ^^^ 1))) after }
  | .publish v (.vpu other) after =>
    { w with hd := { w.hd with
                       bus := w.hd.bus.storeVpu (STATUS_ADDR / 2) (Bus.byteWord STATUS_ADDR v (Bus.driven other)) }
             main := .publish v .shadow after }.show after
  | .publish v .shadow after =>
    { w with hd := { w.hd with bus := w.hd.bus.storeShadow STATUS_ADDR v } }.next after rst
  | .test t => if w.hd.hdIrqEnable then { w with main := .assertIrq t } else { w with main := .wait t }
  | .assertIrq t => { w with hd := { w.hd with nIrq := true }, main := .setIrq t }
  | .setIrq t => { w with hd := { w.hd with hdIrq := STATUS_IRQ }, main := .argumentIrq t }
  | .argumentIrq t => { w with main := .publishIrq (w.hd.hdStatus ||| STATUS_IRQ) .load t }
  | .publishIrq v .load t => { w with main := .publishIrq v (.vpu (w.hd.bus.shadow (STATUS_ADDR ^^^ 1))) t }
  | .publishIrq v (.vpu other) t =>
    { w with hd := { w.hd with
                       bus := w.hd.bus.storeVpu (STATUS_ADDR / 2) (Bus.byteWord STATUS_ADDR v (Bus.driven other)) }
             main := .publishIrq v .shadow t }
  | .publishIrq v .shadow t =>
    { w with hd := { w.hd with bus := w.hd.bus.storeShadow STATUS_ADDR v }, main := .wait t }
  | .wait t => if w.hd.hdAck || rst then w.leave t else { w with main := .body t }
  | .body t => { w with main := .wait t }
  | .taken buffer got =>
    let r := w.store got
    r.1.lower (.take (.sector buffer) r.2)
  | .got kind got =>
    let r := w.store got
    r.1.proceed kind r.2 rst

def World.call (w : World) (r : Routine) : World :=
  match w.main with
  | .idle =>
    match r with
    | .take (.parameters 0) => w.finish (.parameters 0) [] false
    | .take kind => { w with main := .start (.take kind []) }
    | .give dma bytes => { w with main := .start (.give dma bytes) }
    | .phase message commandNotData inputNotOutput =>
      w.flags false [(STATUS_MSG, message), (STATUS_CND, commandNotData), (STATUS_INO, inputNotOutput)]
    | .busy flagState => w.flags flagState [(STATUS_BSY, flagState)]
    | .clearRequest => w.flags false [(STATUS_REQ, false)]
  | _ => w

/-- The host looks at the status byte.  A request is in view from the main loop's own store of that byte on, not
from one in which `hd_emulator_IRQ` shows it earlier. -/
def World.see (w : World) : World :=
  if w.hd.bus.presented STATUS_ADDR &&& STATUS_REQ ≠ 0 ∧ w.host.answered < w.inView then
    { w with host := { w.host with seen := some w.inView } }
  else w

def World.answer (w : World) (k : Nat) : World := { w with host := ⟨none, k⟩ }

inductive Event where
  | call (r : Routine)
  | advance (rst : Bool)
  | timeout (rst : Bool)
  | see
  | write (data : BitVec 8)
  | read
  | select (data : BitVec 8)
  | irq (enable : Bool)

def World.step (w : World) : Event → World
  | .call r => w.call r
  | .advance rst => w.advance rst
  | .timeout rst =>
    match w.main with
    | .body t => w.timeout t rst
    | _ => w
  | .see => w.see
  | .write data =>
    match w.host.seen with
    | some k => { w with hd := hd_emulator_write_data w.hd data, sent := w.sent ++ [(k, data)] }.answer k
    | none => w
  | .read =>
    match w.host.seen with
    | some k => { w with hd := hd_emulator_read_data w.hd }.answer k
    | none => w
  | .select data => { w with hd := hd_emulator_nSEL w.hd data }
  | .irq enable => { w with hd := hd_emulator_IRQ w.hd enable }

/-- After `harddisc_emulator_init`. -/
def World.initial (data : BitVec 8) : World where
  hd :=
    { hdAck := false
      hdData := data
      hdSel := false
      hdIrqEnable := false
      hdStatus := 0
      hdIrq := 0
      nIrq := false
      bus := Bus.Memory.cleared.memoryWrite STATUS_ADDR 0 }
  main := .idle
  host := ⟨none, 0⟩
  raised := 0
  inView := 0
  asked := []
  sent := []
  stored := []
  done := []

/-! ### No phantom bytes -/

inductive Role where
  | free
  /-- From `HD_ACK = CLEAR` to the end of the wait. -/
  | waiting (t : Transfer)
  | holding

def After.role : After → Role
  | .flags .. => .free
  | .raised t => .waiting t
  | .lowered (.take (.sector _) _) => .free
  | .lowered (.take ..) => .holding
  | .lowered (.give ..) => .free

def Main.role : Main → Role
  | .status _ after | .argument after | .publish _ _ after => after.role
  | .test t | .assertIrq t | .setIrq t | .argumentIrq t | .publishIrq _ _ t | .wait t | .body t => .waiting t
  | .taken .. | .got .. => .holding
  | .idle | .start _ | .data .. | .ackClear _ => .free

def World.genuine (w : World) : List Tagged := w.sent.filter fun p => p.1 ∈ w.asked

/-- What is stored was written in answer to the REQ it is stored for, in order, once and without a gap,
and every block that is used is made of that. -/
structure NoPhantom (w : World) : Prop where
  inOrder : w.stored <+: w.genuine
  once : (w.stored.map Prod.fst).Pairwise (· < ·)
  all : w.main.role = .free → w.stored = w.genuine
  blocks : (w.done.flatMap Prod.snd).Sublist w.stored
  whole : ∀ b ∈ w.done, complete b.1 b.2 = true

def Main.updating : Main → Bool
  | .argument _ | .publish .. | .setIrq _ | .argumentIrq _ | .publishIrq .. | .data .. => true
  | _ => false

structure Settled (w : World) : Prop where
  status : w.main.updating = false → w.hd.bus.presented STATUS_ADDR = w.hd.shown
  nIrq : w.hd.nIrq = true → w.hd.hdIrqEnable = true

def Main.admits (a : Adapter) (enable : Bool) : Main → Prop
  | .assertIrq _ => enable = true
  | .publish .. | .publishIrq .. | .argumentIrq _ | .data _ (.vpu _) _ =>
    (hd_emulator_IRQ a enable).hdIrq = a.hdIrq
  | _ => True

def Main.admitsWrite (a : Adapter) : Main → Prop
  | .publish v .shadow _ | .publishIrq v .shadow _ => a.bus.shadow STATUS_ADDR = v
  | _ => True

def Main.admitsAdvance (hdAck rst : Bool) : Main → Prop
  | .wait (.take ..) => hdAck = false → rst = false
  | _ => True

def Main.admitsTimeout : Main → Prop
  | .body (.take ..) => False
  | _ => True

/-- An answer to REQ `k` is one to the REQ that is waited for. -/
def Role.admitsAnswer (raised k : Nat) : Role → Prop
  | .waiting _ => k = raised
  | .holding => False
  | .free => True

def Role.admitsRead (raised k : Nat) : Role → Prop
  | .waiting (.take ..) => False
  | .waiting (.give ..) => k = raised
  | .holding | .free => True

def Role.admitsSelect (hdAck : Bool) : Role → Prop
  | .waiting (.take ..) => hdAck = false
  | .holding => False
  | .waiting (.give ..) | .free => True

/-- An input wait ends with ACK, the host answers the REQ that is waited for, with a write where a byte
is asked for, does not select while a byte is passed, and no callback changes the status byte while a
routine writes it. -/
def Plain (w : World) : Event → Prop
  | .call _ | .see => True
  | .advance rst => w.main.admitsAdvance w.hd.hdAck rst
  | .timeout _ => w.main.admitsTimeout
  | .write _ => ∀ k, w.host.seen = some k → w.main.role.admitsAnswer w.raised k ∧ w.main.admitsWrite w.hd
  | .read => ∀ k, w.host.seen = some k → w.main.role.admitsRead w.raised k
  | .select _ => w.main.role.admitsSelect w.hd.hdAck
  | .irq enable => w.main.admits w.hd enable

end Pi1MHz.Handshake
