import Pi1MHz.History
import Pi1MHz.Vchiq
import Pi1MHz.FinSizes

/-!
# VCHIQ: the transmit stream

`queue_message_raw` and `reserve_space`, cut at every access to the memory shared with the VideoCore.
The VideoCore reads what is published, in order, and recycles the slots it has read past whenever it
likes and in whatever order.
-/

namespace Pi1MHz.Vchiq

open SlotMemory FinSizes

/-- The slots of the transmit side, as `vchiq_init` splits them. -/
def slave_slots : List UInt32 := (List.range' 18 15).map UInt32.ofNat

/-- The transmitting part of `vc`, and the shared memory: `slot_queue`, `slot_queue_recycle` and
`tx_pos` are those of `vc.local`. -/
structure Tx where
  mem : Memory UInt32
  slotQueue : Fin 64 → UInt32
  slotQueueRecycle : UInt32
  sharedTxPos : UInt32
  txPos : UInt32
  slotQueueAvailable : UInt32

structure Message where
  msgid : UInt32
  size : UInt32
  payload : List UInt8
deriving DecidableEq, Repr

def Message.isPadding (m : Message) : Bool := VCHIQ_MSG_TYPE m.msgid = VCHIQ_MSG_PADDING

/-- The arguments of `queue_message_raw`. -/
structure Request where
  msgid : UInt32
  p1 : List UInt8
  p2 : List UInt8
  fits : p1.length + p2.length ≤ SLOT

/-- `s1 + s2`. -/
def Request.size (m : Request) : UInt32 := UInt32.ofNat m.p1.length + UInt32.ofNat m.p2.length

def Request.message (m : Request) : Message := ⟨m.msgid, m.size, m.p1 ++ m.p2⟩

structure Store where
  slot : UInt32
  offset : Nat
  bytes : List UInt8

def Store.apply (mem : Memory UInt32) (st : Store) : Memory UInt32 :=
  storeBytes mem st.slot st.offset st.bytes

/-- Where `queue_message_raw` is; `pos` is the local `tx_pos` of `reserve_space`, and `stores` are the
stores that are still to come. -/
inductive Call where
  | idle
  | start (m : Request)
  | pad (m : Request) (stores : List Store)
  | check (m : Request) (pos : UInt32)
  | refresh (m : Request) (pos : UInt32)
  | recheck (m : Request) (pos : UInt32)
  | place (m : Request) (pos : UInt32)
  | write (m : Request) (stores : List Store)

/-- The VideoCore: how far it has read, what it has read, and the slots that it has read past and not
recycled. -/
structure VideoCore where
  read : Nat
  messages : List Message
  held : List UInt32

structure World where
  tx : Tx
  call : Call
  vc : VideoCore
  results : List (Request × Bool)

def Tx.slotSpace (s : Tx) : UInt32 := VCHIQ_SLOT_SIZE - (s.txPos &&& VCHIQ_SLOT_MASK)

def Tx.slotOf (s : Tx) (pos : UInt32) : UInt32 := s.slotQueue (queueIndex pos)

def Tx.padStores (s : Tx) : List Store :=
  let slot := s.slotOf s.txPos
  let offset := (s.txPos &&& VCHIQ_SLOT_MASK).toNat
  [⟨slot, offset + 4, wordBytes (s.slotSpace - VCHIQ_HEADER_SIZE)⟩,
    ⟨slot, offset, wordBytes (VCHIQ_MAKE_MSG VCHIQ_MSG_PADDING 0 0)⟩]

def Tx.messageStores (s : Tx) (m : Request) (pos : UInt32) : List Store :=
  let slot := s.slotOf pos
  let offset := (pos &&& VCHIQ_SLOT_MASK).toNat
  let dst := offset + HEADER
  [⟨slot, dst, m.p1⟩, ⟨slot, dst + m.p1.length, m.p2⟩, ⟨slot, offset + 4, wordBytes m.size⟩,
    ⟨slot, offset, wordBytes m.msgid⟩]

def Tx.consumed (s : Tx) (pos : UInt32) : Prop := pos = s.slotQueueAvailable * VCHIQ_SLOT_SIZE

instance (s : Tx) (pos : UInt32) : Decidable (s.consumed pos) :=
  inferInstanceAs (Decidable (pos = s.slotQueueAvailable * VCHIQ_SLOT_SIZE))

def World.finish (w : World) (m : Request) (ok : Bool) : World :=
  { w with call := .idle, results := w.results ++ [(m, ok)] }

/-- `queue_message_raw` goes on by one access. -/
def World.advance (w : World) : World :=
  match w.call with
  | .idle => w
  | .start m =>
    if VCHIQ_SLOT_SIZE < CALC_STRIDE m.size then w.finish m false
    else if w.tx.slotSpace < CALC_STRIDE m.size then { w with call := .pad m w.tx.padStores }
    else { w with call := .check m w.tx.txPos }
  | .pad m (st :: stores) =>
    { w with tx := { w.tx with mem := st.apply w.tx.mem }, call := .pad m stores }
  | .pad m [] => { w with call := .check m (w.tx.txPos + w.tx.slotSpace) }
  | .check m pos =>
    if pos &&& VCHIQ_SLOT_MASK = 0 ∧ w.tx.consumed pos then { w with call := .refresh m pos }
    else { w with call := .place m pos }
  | .refresh m pos =>
    { w with tx := { w.tx with slotQueueAvailable := w.tx.slotQueueRecycle }, call := .recheck m pos }
  | .recheck m pos =>
    if w.tx.consumed pos then w.finish m false
    else { w with call := .place m pos }
  | .place m pos =>
    { w with tx := { w.tx with txPos := pos + CALC_STRIDE m.size }
             call := .write m (w.tx.messageStores m pos) }
  | .write m (st :: stores) =>
    { w with tx := { w.tx with mem := st.apply w.tx.mem }, call := .write m stores }
  | .write m [] =>
    { w with tx := { w.tx with sharedTxPos := w.tx.txPos } }.finish m true

def Tx.messageAt (s : Tx) (pos : Nat) : Message :=
  let slot := s.slotQueue (Fin.ofNat 64 (pos / SLOT))
  let size := load32 s.mem slot (pos % SLOT + 4)
  ⟨load32 s.mem slot (pos % SLOT), size, loadBytes s.mem slot (pos % SLOT + HEADER) size.toNat⟩

def World.read (w : World) : World :=
  if UInt32.ofNat w.vc.read = w.tx.sharedTxPos then w
  else
    let m := w.tx.messageAt w.vc.read
    let pos := w.vc.read + stride m.size.toNat
    let slot := w.tx.slotQueue (Fin.ofNat 64 (w.vc.read / SLOT))
    { w with vc :=
        { read := pos
          messages := w.vc.messages ++ [m]
          held := if pos % SLOT = 0 then slot :: w.vc.held else w.vc.held } }

def World.recycle (w : World) (slot : UInt32) : World :=
  if slot ∈ w.vc.held then
    let r := w.tx.slotQueueRecycle
    { w with tx := { w.tx with slotQueue := Function.update w.tx.slotQueue (Fin.ofNat 64 (r &&& 63).toNat) slot
                               slotQueueRecycle := r + 1 }
             vc := { w.vc with held := w.vc.held.erase slot } }
  else w

inductive Event where
  | call (m : Request)
  | advance
  | read
  | recycle (slot : UInt32)

def World.step (w : World) : Event → World
  | .call m =>
    match w.call with
    | .idle => { w with call := .start m }
    | _ => w
  | .advance => w.advance
  | .read => w.read
  | .recycle slot => w.recycle slot

/-- `vchiq_init` has filled the queue, over whatever is in the slots. -/
def World.initial (mem : Memory UInt32) : World where
  tx :=
    { mem := mem
      slotQueue := fun i => slave_slots.getD i 0
      slotQueueRecycle := 15
      sharedTxPos := 0
      txPos := 0
      slotQueueAvailable := 15 }
  call := .idle
  vc := ⟨0, [], []⟩
  results := []

def World.accepted (w : World) : List Message :=
  (w.results.filter fun r => r.2).map fun r => r.1.message

def World.published (w : World) : Nat := w.vc.read + (w.tx.sharedTxPos - UInt32.ofNat w.vc.read).toNat

/-- The slots that are in the VideoCore's hands: published to their end and not read past, or read past
and not recycled. -/
def World.inFlight (w : World) : List UInt32 :=
  (List.range' (w.vc.read / SLOT) (w.published / SLOT - w.vc.read / SLOT)).map
    (fun j => w.tx.slotQueue (Fin.ofNat 64 j)) ++ w.vc.held

def World.storeSlot (w : World) : Event → Option UInt32
  | .advance =>
    match w.call with
    | .pad _ (st :: _) => some st.slot
    | .write _ (st :: _) => some st.slot
    | _ => none
  | _ => none

structure World.Delivered (w : World) : Prop where
  inOrder : w.vc.messages.filter (fun m => !m.isPadding) <+: w.accepted.filter (fun m => !m.isPadding)
  all : UInt32.ofNat w.vc.read = w.tx.sharedTxPos →
    w.vc.messages.filter (fun m => !m.isPadding) = w.accepted.filter (fun m => !m.isPadding)

structure Owned (st : History.Step World Event) : Prop where
  published : st.post.tx.sharedTxPos ≠ st.pre.tx.sharedTxPos →
    ∃ m, st.post.results = st.pre.results ++ [(m, true)]
  stored : ∀ slot, st.pre.storeSlot st.op = some slot → slot ∈ slave_slots ∧ slot ∉ st.pre.inFlight

end Pi1MHz.Vchiq
