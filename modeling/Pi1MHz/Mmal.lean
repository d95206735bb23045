import Pi1MHz.History
import Pi1MHz.RingQueue
import Pi1MHz.Vchiq
import Pi1MHz.FinSizes

/-!
# MMAL over VCHIQ: messages and their bulk transfers

The client `mmal_vc.c` with the sending half of `vchiq.c` below it.  The program has one thread: it polls,
or is in a loop that polls, whenever a message of the VideoCore is handled, and the VideoCore gives back
transmit slots at any time, which shows where `slot_queue_recycle` is read.

Left out: the replies to synchronous calls beyond their arrival, the player's callbacks, and the opening
of the service.
-/

namespace Pi1MHz.Mmal

open FinSizes

open Vchiq (VCHIQ_SLOT_SIZE VCHIQ_SLOT_MASK CALC_STRIDE)

def BULK_QUEUE_DEPTH : UInt32 := 4
def MMAL_VC_SHORT_DATA : UInt32 := 128
def MMAL_WORKER_EVENT_SPACE : UInt32 := 256
def MMAL_BUFFER_HEADER_FLAG_EOS : UInt32 := 1
def MMAL_BUFFER_HEADER_FLAG_TRANSMISSION_FAILED : UInt32 := 0x400

/-- `sizeof(mmal_worker_buffer_from_host_t)`. -/
def BUFFER_MESSAGE_SIZE : UInt32 := 296

/-- The end of the dummy transfers, and what `slot_queue_recycle` is when it is read for the `n`-th time. -/
structure Machine where
  dummyBus : UInt32
  slotQueueRecycle : Nat → UInt32

/-! ### vchiq.c -/

inductive Direction where
  | tx
  | rx
deriving DecidableEq

/-- `PAGELIST_WRITE` and `PAGELIST_READ`. -/
def Direction.pagelistType : Direction → UInt32
  | .tx => 0
  | .rx => 1

/-- `vchiq_pagelist_t`, of one run. -/
structure Pagelist where
  length : UInt32
  type : UInt32
  offset : UInt32
  addr : UInt32
deriving DecidableEq

def pagelist (dir : Direction) (busaddr size : UInt32) : Pagelist :=
  let xfer := (size + 31) &&& ~~~31
  let offset := busaddr &&& 0xFFF
  let npages := (offset + xfer + 4095) / 4096
  { length := xfer
    type := dir.pagelistType
    offset := offset
    addr := (busaddr &&& ~~~0xFFF) ||| (npages - 1) }

structure Transfer where
  index : Fin 4
  pagelist : Pagelist
  user : UInt32
deriving DecidableEq

/-- `bulk_queue_t` with the pagelists of its direction; `retired` counts the transfers that are done. -/
structure BulkQueue where
  pend : Fin 4 → UInt32
  pagelists : Fin 4 → Pagelist
  head : UInt32
  tail : UInt32
  retired : Nat

structure Buffer where
  busaddr : UInt32
  allocSize : UInt32
  length : UInt32
  offset : UInt32
  flags : UInt32
  pts : UInt64
  cmd : UInt32
  port : UInt32
  inFlight : Bool
deriving DecidableEq

inductive Sent where
  /-- `BUFFER_FROM_HOST`, or `BUFFER_FROM_HOST_ZEROLEN`, for the buffer at `context` as it is then. -/
  | bufferFromHost (zeroLength : Bool) (context : UInt32) (buf : Buffer)
  | portFlush
  | call (size : UInt32)
  /-- `BULK_TX` and `BULK_RX`. -/
  | bulk (dir : Direction) (t : Transfer)
  | close
  | pause
  | resume
deriving DecidableEq

def Sent.size : Sent → UInt32
  | .bufferFromHost .. | .portFlush => BUFFER_MESSAGE_SIZE
  | .call size => size
  | .bulk .. => 8
  | .close | .pause | .resume => 0

structure Vc where
  serviceOpen : Bool
  txPos : UInt32
  slotQueueAvailable : UInt32
  /-- How often `slot_queue_recycle` was read. -/
  reads : Nat
  bulkTx : BulkQueue
  bulkRx : BulkQueue
  sent : List Sent

section Vchiq

variable (M : Machine) (s : Vc)

def Vc.refresh_tx_slots : Vc :=
  { s with slotQueueAvailable := M.slotQueueRecycle s.reads, reads := s.reads + 1 }

def Vc.slotSpace : UInt32 := VCHIQ_SLOT_SIZE - (s.txPos &&& VCHIQ_SLOT_MASK)

/-- The local `tx_pos` of `reserve_space`, after the padding. -/
def Vc.padded (stride : UInt32) : UInt32 := if s.slotSpace < stride then s.txPos + s.slotSpace else s.txPos

def Vc.consumed (pos : UInt32) : Bool := pos = s.slotQueueAvailable * VCHIQ_SLOT_SIZE

def Vc.reserve_space (stride : UInt32) : Vc × Bool :=
  let pos := s.padded stride
  if pos &&& VCHIQ_SLOT_MASK = 0 ∧ s.consumed pos then
    let s := s.refresh_tx_slots M
    if s.consumed pos then (s, false) else ({ s with txPos := pos + stride }, true)
  else ({ s with txPos := pos + stride }, true)

def Vc.queue_message_raw (msg : Sent) : Vc × Bool :=
  let stride := CALC_STRIDE msg.size
  if VCHIQ_SLOT_SIZE < stride then (s, false)
  else
    let r := s.reserve_space M stride
    if r.2 then ({ r.1 with sent := r.1.sent ++ [msg] }, true) else r

def Vc.vchiq_queue_message (msg : Sent) : Vc × Bool :=
  if s.serviceOpen then s.queue_message_raw M msg else (s, false)

def Vc.queue : Direction → BulkQueue
  | .tx => s.bulkTx
  | .rx => s.bulkRx

def Vc.setQueue (q : BulkQueue) : Direction → Vc
  | .tx => { s with bulkTx := q }
  | .rx => { s with bulkRx := q }

/-- `vchiq_bulk_tx_space` and `vchiq_bulk_rx_space`. -/
def Vc.bulkSpace (dir : Direction) : Bool :=
  s.serviceOpen && (s.queue dir).tail - (s.queue dir).head < BULK_QUEUE_DEPTH

def entry (n : UInt32) : Fin 4 := Fin.ofNat 4 (n &&& (BULK_QUEUE_DEPTH - 1)).toNat

def BulkQueue.writePagelist (q : BulkQueue) (pl : Pagelist) : BulkQueue :=
  { q with pagelists := Function.update q.pagelists (entry q.tail) pl }

def BulkQueue.claim (q : BulkQueue) (user : UInt32) : BulkQueue :=
  { q with pend := Function.update q.pend (entry q.tail) user, tail := q.tail + 1 }

/-- The transfer that `queue_bulk` sets up. -/
def Vc.nextTransfer (dir : Direction) (busaddr size user : UInt32) : Transfer :=
  ⟨entry (s.queue dir).tail, pagelist dir busaddr size, user⟩

def Vc.queue_bulk (dir : Direction) (busaddr size user : UInt32) : Vc × Bool :=
  if s.bulkSpace dir then
    let t := s.nextTransfer dir busaddr size user
    let q := (s.queue dir).writePagelist t.pagelist
    let r := (s.setQueue q dir).queue_message_raw M (.bulk dir t)
    -- when it is not sent the entry stays free
    if r.2 then (r.1.setQueue (q.claim user) dir, true) else r
  else (s, false)

def Vc.vchiq_bulk_transmit (busaddr size user : UInt32) : Vc × Bool := s.queue_bulk M .tx busaddr size user

def Vc.vchiq_bulk_receive (busaddr size user : UInt32) : Vc × Bool := s.queue_bulk M .rx busaddr size user

def Vc.bulk_done (dir : Direction) : Vc × Option UInt32 :=
  let q := s.queue dir
  if q.head = q.tail then (s, none)
  else (s.setQueue { q with head := q.head + 1, retired := q.retired + 1 } dir, some (q.pend (entry q.head)))

end Vchiq

/-! ### mmal_vc.c -/

/-- `BUFFER_TO_HOST`. -/
structure BufferToHost where
  clientContext : UInt32
  cmd : UInt32
  offset : UInt32
  length : UInt32
  flags : UInt32
  pts : UInt64
  isZeroCopy : UInt32
  payloadInMessage : UInt32

inductive Data where
  | bad
  | bufferToHost (msg : BufferToHost)
  | eventToHost (length : UInt32)
  | reply (context : UInt32)

inductive Incoming where
  | openAck
  | close
  | data (d : Data)
  | bulkTxDone (actual : Int32)
  | bulkRxDone (actual : Int32)
  | pause
  | other

inductive Main where
  | idle
  /-- `sendwait`, as long as there is no slot. -/
  | sendwait (size : UInt32)
  /-- `mmal_vc_port_flush`, as long as there is no bulk entry, and then no slot. -/
  | flushSpace
  | flushMessage
  | reply
deriving DecidableEq

structure World where
  vc : Vc
  buffers : UInt32 → Buffer
  inited : Bool
  waitContext : UInt32
  replyReady : Bool
  nextContext : UInt32
  main : Main
  /-- The buffers that have been announced with a bulk payload, and the receive that each asks for. -/
  announced : List (UInt32 × Pagelist)
  /-- The buffers that `buffer_done` was called with. -/
  completed : List UInt32

section

variable (M : Machine) (w : World)

def World.setBuffer (p : UInt32) (buf : Buffer) : World :=
  { w with buffers := Function.update w.buffers p buf }

def World.complete_buffer (p : UInt32) : World :=
  { w.setBuffer p { w.buffers p with inFlight := false } with completed := w.completed ++ [p] }

def World.failBuffer (p : UInt32) : World :=
  let buf := w.buffers p
  (w.setBuffer p { buf with
    length := 0, flags := buf.flags ||| MMAL_BUFFER_HEADER_FLAG_TRANSMISSION_FAILED }).complete_buffer p

def BufferToHost.announces (msg : BufferToHost) : Bool :=
  msg.isZeroCopy = 0 && (msg.length ≠ 0 || msg.flags &&& MMAL_BUFFER_HEADER_FLAG_EOS ≠ 0) &&
    msg.payloadInMessage = 0

def BufferToHost.bulkLength (msg : BufferToHost) : UInt32 :=
  let len := (msg.length + 3) &&& ~~~3
  if len = 0 then 8 else len

def World.announcement (msg : BufferToHost) : UInt32 × Pagelist :=
  (msg.clientContext,
    pagelist .rx ((w.buffers msg.clientContext).busaddr + msg.offset) msg.bulkLength)

def World.announce (msg : BufferToHost) : World :=
  if msg.announces then { w with announced := w.announced ++ [w.announcement msg] } else w

def World.handle_buffer_to_host (msg : BufferToHost) : World :=
  let p := msg.clientContext
  if p = 0 then w
  else
    let w := w.setBuffer p { w.buffers p with
      cmd := msg.cmd, offset := msg.offset, length := msg.length, flags := msg.flags, pts := msg.pts }
    let buf := w.buffers p
    if buf.allocSize < msg.offset + msg.length then w.failBuffer p
    else if msg.isZeroCopy = 0 ∧ (msg.length ≠ 0 ∨ msg.flags &&& MMAL_BUFFER_HEADER_FLAG_EOS ≠ 0) then
      if msg.payloadInMessage = 0 then
        let r := w.vc.vchiq_bulk_receive M (buf.busaddr + msg.offset) msg.bulkLength p
        if r.2 then { w with vc := r.1 } else { w with vc := r.1 }.failBuffer p
      else if msg.payloadInMessage ≤ MMAL_VC_SHORT_DATA then
        (w.setBuffer p { buf with offset := 0, length := msg.payloadInMessage }).complete_buffer p
      else w.failBuffer p
    else w.complete_buffer p

def World.on_data : Data → World
  | .bad => w
  | .bufferToHost msg => (w.announce msg).handle_buffer_to_host M msg
  | .eventToHost length =>
    if MMAL_WORKER_EVENT_SPACE < length then
      let len := (length + 3) &&& ~~~3
      -- the result is not looked at
      { w with vc := (w.vc.vchiq_bulk_receive M M.dummyBus (if 4096 < len then 4096 else len) 0).1 }
    else w
  | .reply context =>
    if w.waitContext ≠ 0 ∧ context = w.waitContext then { w with replyReady := true } else w

def World.bulk_rx_done (p : UInt32) (actual : Int32) : World :=
  if p = 0 then w
  else if actual < 0 then w.failBuffer p
  else w.complete_buffer p

def World.parse_message : Incoming → World
  | .openAck => { w with vc := { w.vc with serviceOpen := true } }
  | .close => { w with vc := { (w.vc.queue_message_raw M .close).1 with serviceOpen := false } }
  | .data d => w.on_data M d
  | .bulkTxDone _ => { w with vc := (w.vc.bulk_done .tx).1 }
  | .bulkRxDone actual =>
    let r := w.vc.bulk_done .rx
    match r.2 with
    | none => { w with vc := r.1 }
    | some p => { w with vc := r.1 }.bulk_rx_done p actual
  | .pause => { w with vc := ((w.vc.queue_message_raw M .pause).1.queue_message_raw M .resume).1 }
  | .other => w

def World.startCall : World :=
  let c := w.nextContext + 1
  let c := if c = 0 then 1 else c
  { w with nextContext := c, waitContext := c, replyReady := false }

def Buffer.zeroLength (buf : Buffer) : Bool :=
  buf.length = 0 && buf.flags &&& MMAL_BUFFER_HEADER_FLAG_EOS ≠ 0

def Buffer.needsBulk (buf : Buffer) : Bool := buf.length ≠ 0 || buf.zeroLength

def World.mmal_vc_submit_buffer (port p : UInt32) : World × Bool :=
  let buf := w.buffers p
  if w.inited = false then (w, false)
  else if buf.needsBulk ∧ ¬ w.vc.bulkSpace .tx then (w, false)
  else
    let r := w.vc.vchiq_queue_message M (.bufferFromHost buf.zeroLength p buf)
    if r.2 then
      let vc :=
        -- the results are not looked at
        if buf.length ≠ 0 then (r.1.vchiq_bulk_transmit M (buf.busaddr + buf.offset) buf.length p).1
        else if buf.zeroLength then (r.1.vchiq_bulk_transmit M M.dummyBus 8 0).1
        else r.1
      ({ w with vc := vc }.setBuffer p { buf with port := port, inFlight := true }, true)
    else ({ w with vc := r.1 }, false)

def World.turn : World :=
  match w.main with
  | .idle => w
  | .sendwait size =>
    let r := w.vc.vchiq_queue_message M (.call size)
    { w with vc := r.1, main := if r.2 then .reply else .sendwait size }
  | .flushSpace => if w.vc.bulkSpace .tx then { w with main := .flushMessage } else w
  | .flushMessage =>
    let r := w.vc.vchiq_queue_message M .portFlush
    if r.2 then { w with vc := (r.1.vchiq_bulk_transmit M M.dummyBus 8 0).1, main := .reply }
    else { w with vc := r.1 }
  | .reply => if w.replyReady then { w with waitContext := 0, main := .idle } else w

inductive Event where
  | fill (p : UInt32) (buf : Buffer)
  | submit (port p : UInt32)
  | flush
  | call (size : UInt32)
  | turn
  | timeout
  /-- `vchiq_poll` finds a message. -/
  | incoming (m : Incoming)

def World.step : Event → World
  | .fill p buf => w.setBuffer p buf
  | .submit port p =>
    match w.main with
    | .idle => (w.mmal_vc_submit_buffer M port p).1
    -- in a `vchiq_poll` of a waiting call only `arm_output_buffers` submits, and no payload
    | _ => if (w.buffers p).needsBulk then w else (w.mmal_vc_submit_buffer M port p).1
  | .flush =>
    match w.main with
    | .idle => { w.startCall with main := .flushSpace }
    | _ => w
  | .call size =>
    match w.main, w.inited with
    | .idle, true => { w.startCall with main := .sendwait size }
    | _, _ => w
  | .turn => w.turn M
  | .timeout =>
    match w.main with
    | .idle => w
    | _ => { w with waitContext := 0, main := .idle }
  | .incoming m => w.parse_message M m

end

/-- `vchiq_open_service` has opened the service, with the stream at `txPos`. -/
def World.initial (txPos slotQueueAvailable : UInt32) (buffers : UInt32 → Buffer)
    (pagelists : Direction → Fin 4 → Pagelist) :
    World where
  vc :=
    { serviceOpen := true
      txPos := txPos
      slotQueueAvailable := slotQueueAvailable
      reads := 0
      bulkTx := ⟨fun _ => 0, pagelists .tx, 0, 0, 0⟩
      bulkRx := ⟨fun _ => 0, pagelists .rx, 0, 0, 0⟩
      sent := [] }
  buffers := buffers
  inited := true
  waitContext := 0
  replyReady := false
  nextContext := 0
  main := .idle
  announced := []
  completed := []

/-! ### What is to be shown -/

section

variable (M : Machine)

def Sent.payload : Sent → Option Pagelist
  | .bufferFromHost _ _ buf =>
    if buf.length ≠ 0 then some (pagelist .tx (buf.busaddr + buf.offset) buf.length)
    else if buf.zeroLength then some (pagelist .tx M.dummyBus 8)
    else none
  | .portFlush => some (pagelist .tx M.dummyBus 8)
  | _ => none

def Sent.transfer (dir : Direction) : Sent → Option Transfer
  | .bulk d t => if d = dir then some t else none
  | _ => none

def Vc.transfers (s : Vc) (dir : Direction) : List Transfer := s.sent.filterMap (Sent.transfer dir)

def Followed : List Sent → Prop
  | [] => True
  | m :: rest =>
    (∀ pl, m.payload M = some pl → ∃ t rest', rest = .bulk .tx t :: rest' ∧ t.pagelist = pl) ∧ Followed rest

def Vc.outstanding (s : Vc) (dir : Direction) : List Transfer := (s.transfers dir).drop (s.queue dir).retired

def Vc.received (s : Vc) : List (UInt32 × Pagelist) :=
  ((s.transfers .rx).filter fun t => t.user ≠ 0).map fun t => (t.user, t.pagelist)

structure Paired (w : World) : Prop where
  transmit : Followed M w.vc.sent
  receive : w.vc.received = w.announced
  /-- The pagelist of an outstanding transfer is what it was sent with, and its own. -/
  intact : ∀ dir, ∀ t ∈ w.vc.outstanding dir, (w.vc.queue dir).pagelists t.index = t.pagelist
  apart : ∀ dir, ((w.vc.outstanding dir).map Transfer.index).Nodup

def Vc.hasRoom (s : Vc) (size : UInt32) : Bool := (s.reserve_space M (CALC_STRIDE size)).2

/-- If there is a slot for the message there is one for the `BULK_TX` after it. -/
def Vc.RoomForBoth (s : Vc) : Prop :=
  s.hasRoom M BUFFER_MESSAGE_SIZE = true →
    (s.reserve_space M (CALC_STRIDE BUFFER_MESSAGE_SIZE)).1.hasRoom M 8 = true

/-- A message and its transmit find room together, and an announced receive can be queued: it is for a
buffer, fits into it, and there is an entry and a slot for it. -/
def Plain (w : World) : Event → Prop
  | .submit _ p => (w.buffers p).needsBulk = true → w.vc.RoomForBoth M
  | .turn => w.main = .flushMessage → w.vc.RoomForBoth M
  | .incoming (.data (.bufferToHost msg)) =>
    msg.announces = true →
      msg.clientContext ≠ 0 ∧ msg.offset + msg.length ≤ (w.buffers msg.clientContext).allocSize ∧
        w.vc.bulkSpace .rx = true ∧ w.vc.hasRoom M 8 = true
  | _ => True

/-- When `mmal_vc_submit_buffer` returns false neither the message nor its transmit was sent. -/
def RefusedUnsent (st : History.Step World Event) : Prop :=
  ∀ port p, st.op = .submit port p → (st.pre.mmal_vc_submit_buffer M port p).2 = false →
    st.post.vc.sent = st.pre.vc.sent

end

end Pi1MHz.Mmal
