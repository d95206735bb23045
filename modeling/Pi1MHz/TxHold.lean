import Pi1MHz.RingQueue
import Pi1MHz.Sdpcm

/-!
# Frames held for the Wi-Fi chip

`wifi_lwip_link_output` sends a frame at once or holds it behind the frames that the chip would not take
before; `wifi_lwip_tx_hold_flush` sends what is held, in order, and drops what has become stale.
-/

namespace Pi1MHz.TxHold

open History (final history)
open RingQueue (contents slot)
open Sdpcm (Answer Sent sdioRuntimeSendEthernetFrame)

/-! ### State -/

def WIFI_LWIP_RX_FRAME_MAX_LEN : Nat := 1600
def WIFI_LWIP_TX_HOLD_MAX_AGE_US : UInt32 := 250000
def WIFI_LWIP_TX_QUEUE_DEPTH : Nat := 16
def WIFI_LWIP_TX_QUEUE_TCP_MAX : Nat := 12

/-- `wifi_lwip_tx_slot_t`; `id` is the frame's place among the accepted ones. -/
structure TxSlot where
  stampUs : UInt32 := 0
  isTcp : Bool := false
  data : List UInt8 := []
  id : Nat := 0

/-- A frame that the chip may have; `done` where the bus said so. -/
structure Given where
  id : Nat
  frame : List UInt8
  done : Bool
  deriving DecidableEq

structure Stale where
  id : Nat
  ageUs : UInt32
  deriving DecidableEq

/-- What has happened to the frames: the ones lwIP was told are taken, the ones the chip was given, the
ones that were dropped for their age, and how often one was offered. -/
structure Account where
  accepted : List (List UInt8) := []
  given : List Given := []
  stale : List Stale := []
  offers : Nat := 0

structure Hold where
  queue : Fin 16 → TxSlot := fun _ => {}
  head : Nat := 0
  count : Nat := 0
  tcpCount : Nat := 0
  flushBlocked : Bool := false
  flushRxStamp : UInt32 := 0
  queued : UInt32 := 0
  droppedStale : UInt32 := 0
  directFail : UInt32 := 0
  holdMaxUs : UInt32 := 0
  droppedFull : UInt32 := 0
  chip : Sdpcm.Runtime
  account : Account := {}

structure Pass where
  ageUs : UInt32
  sentUs : UInt32
  answer : Answer

def Hold.held (h : Hold) : List TxSlot := contents h.queue h.head h.count

def Hold.front (h : Hold) : TxSlot := h.queue (slot 16 h.head 0)

/-! ### The source's functions -/

def holdPop (h : Hold) : Hold :=
  { h with
    tcpCount := if h.front.isTcp = true ∧ 0 < h.tcpCount then h.tcpCount - 1 else h.tcpCount
    head := (h.head + 1) % WIFI_LWIP_TX_QUEUE_DEPTH
    count := h.count - 1 }

def Account.record (sent : Sent) (id : Nat) (frame : List UInt8) (a : Account) : Account :=
  { a with
    offers := a.offers + 1
    given := if sent.frame.isSome then a.given ++ [⟨id, frame, sent.ok⟩] else a.given }

def Hold.age (h : Hold) (nowUs : UInt32) : UInt32 := nowUs - h.front.stampUs

def Hold.paced (h : Hold) (rxStamp : UInt32) : Bool := h.flushBlocked && rxStamp == h.flushRxStamp

def flushPass (rxStamp : UInt32) (p : Pass) (h : Hold) : Bool × Hold :=
  if WIFI_LWIP_TX_HOLD_MAX_AGE_US < h.age p.ageUs then
    (true, holdPop { h with
      droppedStale := h.droppedStale + 1
      account := { h.account with stale := h.account.stale ++ [⟨h.front.id, h.age p.ageUs⟩] } })
  else if h.paced rxStamp then (false, h)
  else
    let sent := sdioRuntimeSendEthernetFrame p.answer h.front.data h.chip
    let h := { h with chip := sent.runtime, account := h.account.record sent h.front.id h.front.data }
    if sent.ok then
      let waited := h.age p.sentUs
      (true, holdPop { h with
        holdMaxUs := if h.holdMaxUs < waited then waited else h.holdMaxUs
        flushBlocked := false })
    else (false, { h with flushBlocked := true, flushRxStamp := rxStamp })

def flushLoop (rxStamp : UInt32) (passes : Nat → Pass) : Nat → Nat → Hold → Bool × Hold
  | 0, _, h => (true, { h with flushBlocked := false })
  | n + 1, k, h =>
    match flushPass rxStamp (passes k) h with
    | (true, h) => flushLoop rxStamp passes n (k + 1) h
    | (false, h) => (false, h)

/-- `wifi_lwip_tx_hold_flush`: every round but the last takes a frame from the queue. -/
def holdFlush (passes : Nat → Pass) (h : Hold) : Bool × Hold :=
  flushLoop h.chip.lastAnyRxUs passes h.count 0 h

/-- `wifi_lwip_frame_self_retries`: TCP over IPv4. -/
def frameSelfRetries (frame : List UInt8) : Bool :=
  decide (34 ≤ frame.length) && (frame.getD 12 0 == 0x08 && frame.getD 13 0 == 0x00) &&
    frame.getD 23 0 == 6

def holdPush (nowUs : UInt32) (frame : List UInt8) (isTcp : Bool) (h : Hold) : Bool × Hold :=
  if WIFI_LWIP_TX_QUEUE_DEPTH ≤ h.count then (false, h)
  else if isTcp = true ∧ WIFI_LWIP_TX_QUEUE_TCP_MAX ≤ h.tcpCount then (false, h)
  else
    (true, { h with
      queued := h.queued + 1
      queue := Function.update h.queue (slot 16 h.head h.count) ⟨nowUs, isTcp, frame, h.account.accepted.length⟩
      tcpCount := if isTcp then h.tcpCount + 1 else h.tcpCount
      count := h.count + 1
      account := { h.account with accepted := h.account.accepted ++ [frame] } })

def holdOrFail (nowUs : UInt32) (frame : List UInt8) (h : Hold) : Bool × Hold :=
  match holdPush nowUs frame (frameSelfRetries frame) h with
  | (true, h) => (true, h)
  | (false, h) => (false, if frameSelfRetries frame then h else { h with droppedFull := h.droppedFull + 1 })

def sendDirect (direct : Answer) (nowUs : UInt32) (frame : List UInt8) (h : Hold) : Bool × Hold :=
  let sent := sdioRuntimeSendEthernetFrame direct frame h.chip
  let h := { h with
    chip := sent.runtime
    account := h.account.record sent h.account.accepted.length frame }
  if sent.ok = false then holdOrFail nowUs frame { h with directFail := h.directFail + 1 }
  else (true, { h with account := { h.account with accepted := h.account.accepted ++ [frame] } })

/-- `wifi_lwip_link_output`: true for `ERR_OK`.  The packet is the chain of its buffers, whose lengths add
up to `tot_len`. -/
def linkOutput (passes : Nat → Pass) (direct : Answer) (nowUs : UInt32) (p : Option (List (List UInt8)))
    (h : Hold) : Bool × Hold :=
  match p with
  | none => (false, h)
  | some chain =>
    let frame := chain.flatten
    if WIFI_LWIP_RX_FRAME_MAX_LEN < frame.length then (false, h)
    else
      match holdFlush passes h with
      | (false, h) => holdOrFail nowUs frame h
      | (true, h) => sendDirect direct nowUs frame h

inductive Event where
  | output (passes : Nat → Pass) (direct : Answer) (nowUs : UInt32) (p : Option (List (List UInt8)))
  | flush (passes : Nat → Pass)
  | chip (s : Sdpcm.Runtime)

def step (h : Hold) : Event → Hold
  | .output passes direct nowUs p => (linkOutput passes direct nowUs p h).2
  | .flush passes => (holdFlush passes h).2
  | .chip s => { h with chip := s }

structure TxOk (h : Hold) : Prop where
  ordered : h.account.given.Pairwise fun g g' => g.id < g'.id ∨ (g.id = g'.id ∧ g.done = false)
  genuine : ∀ g ∈ h.account.given, h.account.accepted[g.id]? = some g.frame
  kept : ∀ i < h.account.accepted.length, (∃ g ∈ h.account.given, g.id = i ∧ g.done = true) ∨
    (∃ s ∈ h.account.stale, s.id = i) ∨ ∃ s ∈ h.held, s.id = i
  aged : ∀ s ∈ h.account.stale, WIFI_LWIP_TX_HOLD_MAX_AGE_US < s.ageUs
  count : h.count ≤ WIFI_LWIP_TX_QUEUE_DEPTH
  tcpCount : h.tcpCount = h.held.countP fun s => frameSelfRetries s.data
  tcpLimit : h.tcpCount ≤ WIFI_LWIP_TX_QUEUE_TCP_MAX

/-! ### The invariant -/

def Hold.base (h : Hold) : Nat := h.account.accepted.length - h.count

structure Inv (h : Hold) : Prop where
  count : h.count ≤ WIFI_LWIP_TX_QUEUE_DEPTH
  accepted : h.count ≤ h.account.accepted.length
  ids : h.held.map TxSlot.id = List.range' h.base h.count
  data : ∀ s ∈ h.held, h.account.accepted[s.id]? = some s.data ∧ s.isTcp = frameSelfRetries s.data
  tcpCount : h.tcpCount = h.held.countP fun s => frameSelfRetries s.data
  tcpLimit : h.tcpCount ≤ WIFI_LWIP_TX_QUEUE_TCP_MAX
  ordered : h.account.given.Pairwise fun g g' => g.id < g'.id ∨ (g.id = g'.id ∧ g.done = false)
  genuine : ∀ g ∈ h.account.given, h.account.accepted[g.id]? = some g.frame
  front : ∀ g ∈ h.account.given, g.id < h.base ∨ (g.id = h.base ∧ g.done = false)
  gone : ∀ i < h.base, (∃ g ∈ h.account.given, g.id = i ∧ g.done = true) ∨
    ∃ s ∈ h.account.stale, s.id = i
  aged : ∀ s ∈ h.account.stale, WIFI_LWIP_TX_HOLD_MAX_AGE_US < s.ageUs

variable {h : Hold} {frame : List UInt8} {chip : Sdpcm.Runtime}

theorem inv_empty (chip : Sdpcm.Runtime) : Inv { chip } where
  count := Nat.zero_le _
  accepted := Nat.zero_le _
  ids := rfl
  data _ hs := absurd hs List.not_mem_nil
  tcpCount := rfl
  tcpLimit := Nat.zero_le _
  ordered := List.Pairwise.nil
  genuine _ hg := absurd hg List.not_mem_nil
  front _ hg := absurd hg List.not_mem_nil
  gone i hi := absurd hi (Nat.not_lt_zero i)
  aged _ hs := absurd hs List.not_mem_nil

theorem Inv.txOk (hi : Inv h) : TxOk h :=
  { hi with
    kept i hlt := by
      by_cases hleft : i < h.base
      · rcases hi.gone i hleft with hgiven | hstale
        · exact .inl hgiven
        · exact .inr (.inl hstale)
      · have hin : i ∈ h.held.map TxSlot.id := by
          rw [hi.ids, List.mem_range'_1]
          have hall := hi.accepted
          unfold Hold.base at hleft ⊢
          omega
        obtain ⟨s, hs, hid⟩ := List.mem_map.mp hin
        exact .inr (.inr ⟨s, hs, hid⟩) }

/-! ### The frame in front -/

theorem held_eq_cons (hc : 0 < h.count) : h.held = h.front :: (holdPop h).held := by
  have hpop : (holdPop h).held = h.held.tail := by
    have hcontents := RingQueue.contents_pop h.queue h.head h.count
    rw [List.eraseIdx_zero] at hcontents
    exact hcontents
  have hfirst : h.held[0]? = some h.front := by
    unfold Hold.held Hold.front
    rw [RingQueue.getElem?_contents, if_pos hc]
  rw [hpop]
  cases hheld : h.held with
  | nil =>
    rw [hheld] at hfirst
    cases hfirst
  | cons s rest =>
    rw [hheld] at hfirst
    rw [Option.some.inj hfirst]
    rfl

theorem Inv.front_id (hi : Inv h) (hc : 0 < h.count) : h.front.id = h.base := by
  have hids := hi.ids
  obtain ⟨n, hn⟩ : ∃ n, h.count = n + 1 := ⟨h.count - 1, by omega⟩
  rw [held_eq_cons hc, hn, List.range'_succ, List.map_cons] at hids
  exact (List.cons.inj hids).1

theorem Inv.front_data (hi : Inv h) (hc : 0 < h.count) :
    h.account.accepted[h.base]? = some h.front.data := by
  have hmem : h.front ∈ h.held := by
    rw [held_eq_cons hc]
    exact List.mem_cons_self
  rw [← hi.front_id hc]
  exact (hi.data _ hmem).1

theorem Inv.pop (hi : Inv h) (hc : 0 < h.count) {given : List Given} {stale : List Stale}
    (hordered : given.Pairwise fun g g' => g.id < g'.id ∨ (g.id = g'.id ∧ g.done = false))
    (hgenuine : ∀ g ∈ given, h.account.accepted[g.id]? = some g.frame)
    (hfront : ∀ g ∈ given, g.id < h.base + 1)
    (hgone : ∀ i < h.base + 1, (∃ g ∈ given, g.id = i ∧ g.done = true) ∨ ∃ s ∈ stale, s.id = i)
    (haged : ∀ s ∈ stale, WIFI_LWIP_TX_HOLD_MAX_AGE_US < s.ageUs)
    {chip : Sdpcm.Runtime} {dropped longest : UInt32} {blocked : Bool} {offers : Nat} :
    Inv (holdPop { h with
      chip := chip, droppedStale := dropped, holdMaxUs := longest, flushBlocked := blocked
      account := ⟨h.account.accepted, given, stale, offers⟩ }) := by
  have hcons := held_eq_cons hc
  have hall := hi.accepted
  have hbase : h.account.accepted.length - (h.count - 1) = h.base + 1 := by
    unfold Hold.base
    omega
  have hids : (holdPop h).held.map TxSlot.id = List.range' (h.base + 1) (h.count - 1) := by
    have hwhole := hi.ids
    obtain ⟨n, hn⟩ : ∃ n, h.count = n + 1 := ⟨h.count - 1, by omega⟩
    rw [hcons, hn, List.range'_succ, List.map_cons] at hwhole
    rw [hn]
    exact (List.cons.inj hwhole).2
  have hrest : ∀ s ∈ (holdPop h).held, s ∈ h.held := by
    intro s hs
    rw [hcons]
    exact List.mem_cons_of_mem _ hs
  have htcp : (holdPop h).tcpCount = (holdPop h).held.countP fun s => frameSelfRetries s.data := by
    have hwhole := hi.tcpCount
    have hflag := (hi.data h.front (by rw [hcons]; exact List.mem_cons_self)).2
    rw [hcons, List.countP_cons, ← hflag] at hwhole
    change (if h.front.isTcp = true ∧ 0 < h.tcpCount then h.tcpCount - 1 else h.tcpCount) = _
    cases hkind : h.front.isTcp with
    | true =>
      rw [hkind, if_pos rfl] at hwhole
      rw [if_pos ⟨rfl, by omega⟩]
      omega
    | false =>
      rw [hkind] at hwhole
      rw [if_neg (by rintro ⟨hyes, -⟩; cases hyes)]
      simpa using hwhole
  have hlimit : (holdPop h).tcpCount ≤ WIFI_LWIP_TX_QUEUE_TCP_MAX := by
    have hle := hi.tcpLimit
    change (if h.front.isTcp = true ∧ 0 < h.tcpCount then h.tcpCount - 1 else h.tcpCount) ≤ _
    split_ifs <;> omega
  constructor
  · exact Nat.le_trans (Nat.sub_le _ _) hi.count
  · exact Nat.le_trans (Nat.sub_le _ _) hi.accepted
  · change (holdPop h).held.map TxSlot.id =
      List.range' (h.account.accepted.length - (h.count - 1)) (h.count - 1)
    rw [hbase]
    exact hids
  · exact fun s hs => hi.data s (hrest s hs)
  · exact htcp
  · exact hlimit
  · exact hordered
  · exact hgenuine
  · intro g hg
    change g.id < h.account.accepted.length - (h.count - 1) ∨ _
    rw [hbase]
    exact .inl (hfront g hg)
  · intro i hlt
    change i < h.account.accepted.length - (h.count - 1) at hlt
    rw [hbase] at hlt
    exact hgone i hlt
  · exact haged

theorem Inv.lt_next (hi : Inv h) : ∀ g ∈ h.account.given, g.id < h.base + 1 := by
  intro g hg
  rcases hi.front g hg with hlt | ⟨heq, -⟩
  · exact Nat.lt_succ_of_lt hlt
  · exact heq ▸ Nat.lt_succ_self _

theorem Inv.ordered_snoc (hi : Inv h) (frame : List UInt8) (done : Bool) :
    (h.account.given ++ [(⟨h.base, frame, done⟩ : Given)]).Pairwise
      fun g g' => g.id < g'.id ∨ (g.id = g'.id ∧ g.done = false) := by
  refine List.pairwise_append.mpr ⟨hi.ordered, List.pairwise_singleton _ _, ?_⟩
  intro g hg g' hg'
  rw [List.mem_singleton.mp hg']
  exact hi.front g hg

theorem Inv.genuine_snoc (hi : Inv h) (hc : 0 < h.count) (done : Bool) :
    ∀ g ∈ h.account.given ++ [(⟨h.base, h.front.data, done⟩ : Given)],
      h.account.accepted[g.id]? = some g.frame := by
  intro g hg
  rcases List.mem_append.mp hg with hold | hnew
  · exact hi.genuine g hold
  · rw [List.mem_singleton.mp hnew]
    exact hi.front_data hc

theorem Inv.lt_snoc (hi : Inv h) (frame : List UInt8) (done : Bool) :
    ∀ g ∈ h.account.given ++ [(⟨h.base, frame, done⟩ : Given)], g.id < h.base + 1 := by
  intro g hg
  rcases List.mem_append.mp hg with hold | hnew
  · exact hi.lt_next g hold
  · rw [List.mem_singleton.mp hnew]
    exact Nat.lt_succ_self _

theorem Inv.gone_snoc (hi : Inv h) (frame : List UInt8) :
    ∀ i < h.base + 1, (∃ g ∈ h.account.given ++ [(⟨h.base, frame, true⟩ : Given)], g.id = i ∧ g.done = true) ∨
      ∃ s ∈ h.account.stale, s.id = i := by
  intro i hlt
  rcases Nat.lt_succ_iff_lt_or_eq.mp hlt with hless | rfl
  · rcases hi.gone i hless with ⟨g, hg, hid, hdone⟩ | hstale
    · exact .inl ⟨g, List.mem_append_left _ hg, hid, hdone⟩
    · exact .inr hstale
  · exact .inl ⟨_, List.mem_append_right _ (List.mem_singleton_self _), rfl, rfl⟩

theorem Inv.dropStale (hi : Inv h) (hc : 0 < h.count) {nowUs : UInt32}
    (hage : WIFI_LWIP_TX_HOLD_MAX_AGE_US < h.age nowUs) :
    Inv (holdPop { h with
      droppedStale := h.droppedStale + 1
      account := { h.account with stale := h.account.stale ++ [⟨h.front.id, h.age nowUs⟩] } }) := by
  refine hi.pop hc hi.ordered hi.genuine hi.lt_next ?_ ?_
  · intro i hlt
    rcases Nat.lt_succ_iff_lt_or_eq.mp hlt with hless | rfl
    · rcases hi.gone i hless with hgiven | ⟨s, hs, hid⟩
      · exact .inl hgiven
      · exact .inr ⟨s, List.mem_append_left _ hs, hid⟩
    · exact .inr ⟨_, List.mem_append_right _ (List.mem_singleton_self _), hi.front_id hc⟩
  · intro s hs
    rcases List.mem_append.mp hs with hold | hnew
    · exact hi.aged s hold
    · rw [List.mem_singleton.mp hnew]
      exact hage

theorem Inv.giveDone (hi : Inv h) (hc : 0 < h.count) {longest : UInt32} {offers : Nat} :
    Inv (holdPop { h with
      chip := chip, holdMaxUs := longest, flushBlocked := false
      account := { h.account with
        given := h.account.given ++ [⟨h.base, h.front.data, true⟩]
        offers := offers } }) :=
  hi.pop hc (hi.ordered_snoc _ _) (hi.genuine_snoc hc _) (hi.lt_snoc _ _) (hi.gone_snoc _) hi.aged

theorem Inv.giveFailed (hi : Inv h) (hc : 0 < h.count) :
    Inv { h with account :=
      { h.account with given := h.account.given ++ [⟨h.base, h.front.data, false⟩] } } :=
  { hi with
    ordered := hi.ordered_snoc _ _
    genuine := hi.genuine_snoc hc _
    front g hg := by
      rcases List.mem_append.mp hg with hold | hnew
      · exact hi.front g hold
      · rw [List.mem_singleton.mp hnew]
        exact .inr ⟨rfl, rfl⟩
    gone i hlt := by
      rcases hi.gone i hlt with ⟨g, hg, hid, hdone⟩ | hstale
      · exact .inl ⟨g, List.mem_append_left _ hg, hid, hdone⟩
      · exact .inr hstale }

theorem Inv.same (hi : Inv h) {queued stale fail longest full stamp : UInt32} {blocked : Bool}
    {offers : Nat} :
    Inv { h with
      chip := chip, queued := queued, droppedStale := stale, directFail := fail, holdMaxUs := longest
      droppedFull := full, flushRxStamp := stamp, flushBlocked := blocked
      account := { h.account with offers := offers } } :=
  { hi with }

/-! ### Flushing -/

theorem send_record (a : Answer) (frame : List UInt8) (s : Sdpcm.Runtime) (id : Nat) (account : Account) :
    ((sdioRuntimeSendEthernetFrame a frame s).ok = false ∧
        account.record (sdioRuntimeSendEthernetFrame a frame s) id frame =
          { account with offers := account.offers + 1 }) ∨
      account.record (sdioRuntimeSendEthernetFrame a frame s) id frame =
        { account with
          given := account.given ++ [⟨id, frame, (sdioRuntimeSendEthernetFrame a frame s).ok⟩]
          offers := account.offers + 1 } := by
  unfold Account.record
  rcases Sdpcm.send_cases a frame s with ⟨hok, hframe, -⟩ | ⟨-, hframe, -, -⟩
  · rw [hframe]
    exact .inl ⟨hok, rfl⟩
  · rw [hframe]
    exact .inr rfl

theorem flushPass_spec (hi : Inv h) (hc : 0 < h.count) (rxStamp : UInt32) (p : Pass) :
    Inv (flushPass rxStamp p h).2 ∧ (flushPass rxStamp p h).2.account.accepted = h.account.accepted ∧
      ((flushPass rxStamp p h).1 = true → (flushPass rxStamp p h).2.count = h.count - 1) := by
  unfold flushPass
  by_cases hage : WIFI_LWIP_TX_HOLD_MAX_AGE_US < h.age p.ageUs
  · rw [if_pos hage]
    exact ⟨hi.dropStale hc hage, rfl, fun _ => rfl⟩
  rw [if_neg hage]
  by_cases hpaced : h.paced rxStamp = true
  · rw [if_pos hpaced]
    exact ⟨hi, rfl, nofun⟩
  rw [if_neg hpaced]
  simp only
  have hrecord := send_record p.answer h.front.data h.chip h.front.id h.account
  rw [hi.front_id hc] at hrecord ⊢
  cases hok : (sdioRuntimeSendEthernetFrame p.answer h.front.data h.chip).ok with
  | true =>
    rw [hok] at hrecord
    rcases hrecord with ⟨hno, -⟩ | hgiven
    · cases hno
    · rw [if_pos rfl, hgiven]
      exact ⟨hi.giveDone hc, rfl, fun _ => rfl⟩
  | false =>
    rw [hok] at hrecord
    rw [if_neg Bool.false_ne_true]
    rcases hrecord with ⟨-, hsame⟩ | hgiven
    · rw [hsame]
      exact ⟨hi.same, rfl, nofun⟩
    · rw [hgiven]
      exact ⟨(hi.giveFailed hc).same, rfl, nofun⟩

theorem flushLoop_spec (rxStamp : UInt32) (passes : Nat → Pass) (n k : Nat) {h : Hold} (hi : Inv h)
    (hn : h.count = n) :
    Inv (flushLoop rxStamp passes n k h).2 ∧
      (flushLoop rxStamp passes n k h).2.account.accepted = h.account.accepted ∧
      ((flushLoop rxStamp passes n k h).1 = true → (flushLoop rxStamp passes n k h).2.count = 0) := by
  induction n generalizing k h with
  | zero => exact ⟨hi.same, rfl, fun _ => hn⟩
  | succ n ih =>
    have hpass := flushPass_spec hi (by omega) rxStamp (passes k)
    unfold flushLoop
    rcases hround : flushPass rxStamp (passes k) h with ⟨goes, after⟩
    rw [hround] at hpass
    obtain ⟨hinv, haccepted, hleft⟩ := hpass
    cases goes with
    | true =>
      have hrest := ih (k + 1) hinv (by rw [hleft rfl, hn]; rfl)
      rw [haccepted] at hrest
      exact hrest
    | false => exact ⟨hinv, haccepted, nofun⟩

theorem holdFlush_spec (hi : Inv h) (passes : Nat → Pass) :
    Inv (holdFlush passes h).2 ∧ (holdFlush passes h).2.account.accepted = h.account.accepted ∧
      ((holdFlush passes h).1 = true → (holdFlush passes h).2.count = 0) :=
  flushLoop_spec h.chip.lastAnyRxUs passes h.count 0 hi rfl

/-! ### Holding a frame -/

theorem Inv.push (hi : Inv h) {nowUs : UInt32} {frame : List UInt8} {given : List Given}
    (hroom : h.count < WIFI_LWIP_TX_QUEUE_DEPTH)
    (hcap : frameSelfRetries frame = true → h.tcpCount < WIFI_LWIP_TX_QUEUE_TCP_MAX)
    (hgiven : given = h.account.given ∨
      h.count = 0 ∧ given = h.account.given ++ [⟨h.base, frame, false⟩])
    {queued fail : UInt32} {offers : Nat} :
    Inv { h with
      chip := chip, queued := queued, directFail := fail
      queue := Function.update h.queue (slot 16 h.head h.count)
        ⟨nowUs, frameSelfRetries frame, frame, h.account.accepted.length⟩
      tcpCount := if frameSelfRetries frame then h.tcpCount + 1 else h.tcpCount
      count := h.count + 1
      account := ⟨h.account.accepted ++ [frame], given, h.account.stale, offers⟩ } := by
  have hall := hi.accepted
  have hlength : (h.account.accepted ++ [frame]).length = h.account.accepted.length + 1 := by simp
  have hbase : (h.account.accepted ++ [frame]).length - (h.count + 1) = h.base := by
    unfold Hold.base
    omega
  have hheld : RingQueue.contents (Function.update h.queue (slot 16 h.head h.count)
      ⟨nowUs, frameSelfRetries frame, frame, h.account.accepted.length⟩) h.head (h.count + 1) =
      RingQueue.contents h.queue h.head h.count ++
        [⟨nowUs, frameSelfRetries frame, frame, h.account.accepted.length⟩] :=
    RingQueue.contents_push h.queue _ hroom
  have hold : ∀ (i : Nat) (data : List UInt8), h.account.accepted[i]? = some data →
      (h.account.accepted ++ [frame])[i]? = some data := by
    intro i data hdata
    rw [List.getElem?_append_left (List.getElem?_eq_some_iff.mp hdata).1]
    exact hdata
  have hnew : (h.account.accepted ++ [frame])[h.account.accepted.length]? = some frame := by
    simp
  constructor
  · exact hroom
  · change h.count + 1 ≤ (h.account.accepted ++ [frame]).length
    omega
  · change (contents _ h.head (h.count + 1)).map TxSlot.id =
      List.range' ((h.account.accepted ++ [frame]).length - (h.count + 1)) (h.count + 1)
    rw [hheld, hbase, List.map_append, List.range'_concat]
    refine congrArg₂ _ hi.ids ?_
    change [h.account.accepted.length] = [h.base + 1 * h.count]
    unfold Hold.base
    congr 1
    omega
  · change ∀ s ∈ contents _ h.head (h.count + 1), _
    rw [hheld]
    intro s hs
    rcases List.mem_append.mp hs with hin | hlast
    · exact ⟨hold _ _ (hi.data s hin).1, (hi.data s hin).2⟩
    · rw [List.mem_singleton.mp hlast]
      exact ⟨hnew, rfl⟩
  · change _ = (contents _ h.head (h.count + 1)).countP fun s : TxSlot => frameSelfRetries s.data
    rw [hheld, List.countP_append]
    have hwhole := hi.tcpCount
    unfold Hold.held at hwhole
    rw [← hwhole]
    cases hkind : frameSelfRetries frame with
    | true => simp [hkind]
    | false => simp [hkind]
  · change (if frameSelfRetries frame then h.tcpCount + 1 else h.tcpCount) ≤ _
    split_ifs with htcp
    · exact hcap htcp
    · exact hi.tcpLimit
  · rcases hgiven with rfl | ⟨-, rfl⟩
    · exact hi.ordered
    · exact hi.ordered_snoc _ _
  · intro g hg
    rcases hgiven with rfl | ⟨hzero, rfl⟩
    · exact hold _ _ (hi.genuine g hg)
    · rcases List.mem_append.mp hg with hin | hlast
      · exact hold _ _ (hi.genuine g hin)
      · rw [List.mem_singleton.mp hlast]
        change (h.account.accepted ++ [frame])[h.account.accepted.length - h.count]? = _
        rw [hzero]
        exact hnew
  · intro g hg
    change g.id < (h.account.accepted ++ [frame]).length - (h.count + 1) ∨
      (g.id = (h.account.accepted ++ [frame]).length - (h.count + 1) ∧ _)
    rw [hbase]
    rcases hgiven with rfl | ⟨-, rfl⟩
    · exact hi.front g hg
    · rcases List.mem_append.mp hg with hin | hlast
      · exact hi.front g hin
      · rw [List.mem_singleton.mp hlast]
        exact .inr ⟨rfl, rfl⟩
  · intro i hlt
    change i < (h.account.accepted ++ [frame]).length - (h.count + 1) at hlt
    rw [hbase] at hlt
    rcases hi.gone i hlt with ⟨g, hg, hid, hdone⟩ | hstale
    · refine .inl ⟨g, ?_, hid, hdone⟩
      rcases hgiven with rfl | ⟨-, rfl⟩
      · exact hg
      · exact List.mem_append_left _ hg
    · exact .inr hstale
  · exact hi.aged

theorem Inv.tcpCount_zero (hi : Inv h) (hzero : h.count = 0) : h.tcpCount = 0 := by
  rw [hi.tcpCount, Hold.held, hzero]
  rfl

def Takes (h : Hold) (frame : List UInt8) (out : Bool × Hold) : Prop :=
  Inv out.2 ∧ out.2.account.accepted = h.account.accepted ++ if out.1 then [frame] else []

theorem holdOrFail_spec (hi : Inv h) (nowUs : UInt32) (frame : List UInt8) {given : List Given}
    (hgiven : given = h.account.given ∨
      h.count = 0 ∧ given = h.account.given ++ [⟨h.base, frame, false⟩])
    {fail : UInt32} {offers : Nat} :
    Takes h frame (holdOrFail nowUs frame { h with
      chip := chip, directFail := fail
      account := { h.account with given := given, offers := offers } }) := by
  unfold Takes holdOrFail holdPush
  by_cases hfull : WIFI_LWIP_TX_QUEUE_DEPTH ≤ h.count
  · rw [if_pos hfull]
    rcases hgiven with rfl | ⟨hzero, -⟩
    · refine ⟨?_, ?_⟩
      · simp only
        split
        · exact hi.same
        · exact hi.same
      · simp only
        split
        · exact (List.append_nil _).symm
        · exact (List.append_nil _).symm
    · rw [hzero] at hfull
      exact absurd hfull (by decide)
  rw [if_neg hfull]
  by_cases hcap : frameSelfRetries frame = true ∧ WIFI_LWIP_TX_QUEUE_TCP_MAX ≤ h.tcpCount
  · rw [if_pos hcap]
    rcases hgiven with rfl | ⟨hzero, -⟩
    · simp only [hcap.1, if_true]
      exact ⟨hi.same, (List.append_nil _).symm⟩
    · have hle := hcap.2
      rw [hi.tcpCount_zero hzero] at hle
      exact absurd hle (by decide)
  · rw [if_neg hcap]
    exact ⟨hi.push (Nat.lt_of_not_le hfull) (fun htcp => Nat.lt_of_not_le fun hle => hcap ⟨htcp, hle⟩) hgiven,
      rfl⟩

/-! ### Sending a frame -/

theorem Inv.direct (hi : Inv h) (hzero : h.count = 0) {offers : Nat} :
    Inv { h with
      chip := chip
      account := ⟨h.account.accepted ++ [frame], h.account.given ++ [⟨h.base, frame, true⟩],
        h.account.stale, offers⟩ } := by
  have hbase : h.base = h.account.accepted.length := by
    unfold Hold.base
    rw [hzero]
    rfl
  have hnext : (h.account.accepted ++ [frame]).length - h.count = h.base + 1 := by
    rw [hzero, List.length_append, hbase]
    rfl
  have hempty : h.held = [] := by
    unfold Hold.held
    rw [hzero]
    rfl
  refine { hi with
      accepted := ?_, ids := ?_, data := ?_, ordered := ?_, genuine := ?_, front := ?_, gone := ?_ }
  · change h.count ≤ (h.account.accepted ++ [frame]).length
    rw [hzero]
    exact Nat.zero_le _
  · change h.held.map TxSlot.id = List.range' _ h.count
    rw [hempty, hzero]
    rfl
  · change ∀ s ∈ h.held, _
    rw [hempty]
    exact fun s hs => absurd hs List.not_mem_nil
  · exact hi.ordered_snoc _ _
  · intro g hg
    rcases List.mem_append.mp hg with hold | hnew
    · have hgenuine := hi.genuine g hold
      change (h.account.accepted ++ [frame])[g.id]? = some g.frame
      rw [List.getElem?_append_left (List.getElem?_eq_some_iff.mp hgenuine).1]
      exact hgenuine
    · rw [List.mem_singleton.mp hnew, hbase]
      simp
  · intro g hg
    change g.id < (h.account.accepted ++ [frame]).length - h.count ∨ _
    rw [hnext]
    exact .inl (hi.lt_snoc frame _ g hg)
  · intro i hlt
    change i < (h.account.accepted ++ [frame]).length - h.count at hlt
    rw [hnext] at hlt
    exact hi.gone_snoc frame i hlt

theorem sendDirect_spec (hi : Inv h) (hzero : h.count = 0) (direct : Answer) (nowUs : UInt32)
    (frame : List UInt8) : Takes h frame (sendDirect direct nowUs frame h) := by
  have hbase : h.account.accepted.length = h.base := by
    unfold Hold.base
    rw [hzero]
    rfl
  have hrecord := send_record direct frame h.chip h.account.accepted.length h.account
  unfold sendDirect
  simp only
  by_cases hok : (sdioRuntimeSendEthernetFrame direct frame h.chip).ok = false
  · rw [if_pos hok]
    rcases hrecord with ⟨-, hsame⟩ | hgiven
    · rw [hsame]
      exact holdOrFail_spec hi nowUs frame (.inl rfl)
    · rw [hgiven, hok]
      exact holdOrFail_spec hi nowUs frame (.inr ⟨hzero, by rw [hbase]⟩)
  · rw [if_neg hok]
    rcases hrecord with ⟨hno, -⟩ | hgiven
    · exact absurd hno hok
    · have hsent : Inv { h with
          chip := (sdioRuntimeSendEthernetFrame direct frame h.chip).runtime
          account := ⟨h.account.accepted ++ [frame], h.account.given ++ [⟨h.base, frame, true⟩],
            h.account.stale, h.account.offers + 1⟩ } := hi.direct hzero
      rw [← hbase] at hsent
      rw [hgiven, Bool.eq_true_of_not_eq_false hok]
      exact ⟨hsent, rfl⟩

theorem linkOutput_spec (hi : Inv h) (passes : Nat → Pass) (direct : Answer) (nowUs : UInt32)
    (p : Option (List (List UInt8))) :
    Takes h (p.getD []).flatten (linkOutput passes direct nowUs p h) := by
  unfold linkOutput
  cases p with
  | none => exact ⟨hi, (List.append_nil _).symm⟩
  | some chain =>
    simp only
    by_cases hlong : WIFI_LWIP_RX_FRAME_MAX_LEN < chain.flatten.length
    · rw [if_pos hlong]
      exact ⟨hi, (List.append_nil _).symm⟩
    rw [if_neg hlong]
    have hflush := holdFlush_spec hi passes
    rcases hdrained : holdFlush passes h with ⟨drained, after⟩
    rw [hdrained] at hflush
    obtain ⟨hafter, haccepted, hzero⟩ := hflush
    have htakes : ∀ {out}, Takes after chain.flatten out → Takes h chain.flatten out := by
      intro out hout
      exact ⟨hout.1, haccepted ▸ hout.2⟩
    apply htakes
    cases drained with
    | false => exact holdOrFail_spec hafter nowUs chain.flatten (.inl rfl)
    | true => exact sendDirect_spec hafter (hzero rfl) direct nowUs chain.flatten

def answered (h : Hold) : Event → List (List UInt8)
  | .output passes direct nowUs p =>
    if (linkOutput passes direct nowUs p h).1 then [(p.getD []).flatten] else []
  | .flush _ => []
  | .chip _ => []

theorem step_spec (hi : Inv h) (event : Event) :
    Inv (step h event) ∧
      (step h event).account.accepted = h.account.accepted ++ answered h event := by
  cases event with
  | output passes direct nowUs p => exact linkOutput_spec hi passes direct nowUs p
  | flush passes =>
    have hflush := holdFlush_spec hi passes
    exact ⟨hflush.1, hflush.2.1.trans (List.append_nil _).symm⟩
  | chip s => exact ⟨hi.same, (List.append_nil _).symm⟩

/-- Whatever is sent, flushed and received, the chip is given accepted frames in their order, each again
only where the bus failed; a frame is accepted exactly where the call says so, and what is accepted is
given, held or dropped for its age; the counts are those of the queue and stay within their limits. -/
theorem hold_queue (chip : Sdpcm.Runtime) (events : List Event) :
    ∀ st ∈ history step { chip } events, TxOk st.pre ∧ TxOk st.post ∧
      st.post.account.accepted = st.pre.account.accepted ++ answered st.pre st.op := by
  intro st hst
  obtain ⟨-, hall⟩ := History.guarded_induction step Inv (fun _ _ => True) (inv_empty chip)
    (fun _ event hi _ => (step_spec hi event).1) events fun _ _ => trivial
  obtain ⟨hpre, hpost⟩ := hall st hst
  obtain ⟨hinv, haccepted⟩ := step_spec hpre st.op
  rw [hpost]
  exact ⟨hpre.txOk, hinv.txOk, haccepted⟩

def answering (bus : Sdpcm.Bus) : Answer := ⟨0, 0, true, bus⟩

def sending (bus : Sdpcm.Bus) (frame : List (List UInt8)) : Event :=
  .output (fun _ => ⟨0, 0, answering .written⟩) (answering bus) 0 (some frame)

def heldRun : List Event :=
  [sending .precommand [[1], [2, 3]], .chip { started := true, lastAnyRxUs := 1 }, sending .written [[4]]]

/-- The first frame fails before its write and is held; the next call sends both. -/
theorem hold_queue_heldRun :
    ∃ st ∈ history step { chip := { started := true } } heldRun,
      st.pre.held.map TxSlot.data = [[1, 2, 3]] ∧ st.post.held.length = 0 ∧
      st.post.account.given.map Given.frame = [[1, 2, 3], [4]] ∧ answered st.pre st.op = [[4]] ∧
      TxOk st.pre ∧ TxOk st.post ∧
      st.post.account.accepted = st.pre.account.accepted ++ answered st.pre st.op := by
  refine ⟨_, List.mem_cons_of_mem _ (List.mem_cons_of_mem _ List.mem_cons_self), ?_, ?_, ?_, ?_,
    hold_queue { started := true } heldRun _ (List.mem_cons_of_mem _ (List.mem_cons_of_mem _ List.mem_cons_self))⟩
  all_goals decide +kernel

end Pi1MHz.TxHold
