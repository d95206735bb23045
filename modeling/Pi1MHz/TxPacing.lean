import Pi1MHz.TxHold

/-!
# Pacing and the idle resync

A shut window that nothing contradicts is dropped by the next frame offered 20 ms into the stall.  A flush
that was refused does not offer again until something arrives, and a frame is dropped after 250 ms.
-/

namespace Pi1MHz.TxPacing

open History (final history)
open Sdpcm (Answer Bus Runtime SDIO_RUNTIME_MAX_FRAME_SIZE SDPCM_TX_STALL_IDLE_RESYNC_US resyncWait
  sdioRuntimeSendEthernetFrame sdioRuntimeTxWindowShut startShutClock txGate)
open TxHold

/-! ### The watch -/

/-- What a round of the flush reads: the times at which it looks at the age, offers the frame and is done,
and what becomes of the write. -/
structure Round where
  checkedUs : Nat
  offeredUs : Nat
  writtenUs : Nat
  sentUs : Nat
  awake : Bool
  bus : Bus

def Round.answer (r : Round) : Answer :=
  ⟨UInt32.ofNat r.offeredUs, UInt32.ofNat r.writtenUs, r.awake, r.bus⟩

def Round.pass (r : Round) : Pass := ⟨UInt32.ofNat r.checkedUs, UInt32.ofNat r.sentUs, r.answer⟩

/-- A frame that was dropped for its age while the window was shut.  What happened: whether a frame had been
offered late enough in that stall, and whether a stop alone still shut the window of an idle link.  What
could have: whether a call had come that late which nothing kept from offering, and whether one had come
that the resync would have used, where a stop was asked for at all. -/
structure Drop where
  late : Bool
  stuck : Bool
  chance : Bool
  spared : Bool
  deriving DecidableEq

/-- The hold queue; when something was last received, whether its header asked for a stop, and whether a call
has come since at which the resync was due; and of the stall that lasts, when it began, and the two questions
about it so far. -/
structure Watch where
  hold : Hold
  heardUs : Nat := 0
  stop : Bool
  due : Bool := false
  began : Option Nat := none
  late : Bool := false
  chance : Bool := false
  drops : List Drop := []

def Watch.start (chip : Runtime) : Watch where
  hold := { chip }
  stop := decide (chip.wlanFlowControl ≠ 0)

def Watch.lateAt (offeredUs : Nat) (w : Watch) : Bool :=
  match w.began with
  | none => false
  | some t => decide (t + SDPCM_TX_STALL_IDLE_RESYNC_US.toNat ≤ offeredUs)

/-- Nothing has been received for as long as the idle resync waits. -/
def Watch.idle (nowUs : Nat) (w : Watch) : Bool :=
  decide (w.heardUs + SDPCM_TX_STALL_IDLE_RESYNC_US.toNat ≤ nowUs)

/-- The window would be shut without a stop too. -/
def outOfCredit (s : Runtime) : Bool := sdioRuntimeTxWindowShut { s with wlanFlowControl := 0 }

def Watch.drop (nowUs : Nat) (w : Watch) : Drop where
  late := w.late
  stuck := w.idle nowUs && !outOfCredit w.hold.chip && decide (w.hold.chip.wlanFlowControl ≠ 0)
  chance := w.chance
  spared := !(w.idle nowUs && !outOfCredit w.hold.chip && (w.stop && !w.due))

/-- The gate gets to see the frame, and the stall has lasted as long as it waits before it drops a stop. -/
def gateWaited (nowUs : UInt32) (s : Runtime) : Bool :=
  sdioRuntimeTxWindowShut s && s.txStalled && decide (resyncWait s ≤ nowUs - s.txStallSinceUs)

def resyncDue (nowUs : UInt32) (frame : List UInt8) (s : Runtime) : Bool :=
  s.started && !frame.isEmpty && decide (frame.length ≤ SDIO_RUNTIME_MAX_FRAME_SIZE - 18) && gateWaited nowUs s

/-- An open window ends the stall. -/
def Watch.settle (w : Watch) : Watch :=
  if sdioRuntimeTxWindowShut w.hold.chip then w else { w with began := none, late := false, chance := false }

def Watch.look (r : Round) (ready : Bool) (frame : List UInt8) (hold : Hold) (w : Watch) : Watch :=
  let offered := decide (w.hold.account.offers < hold.account.offers)
  let dropped := decide (w.hold.account.stale.length < hold.account.stale.length)
  Watch.settle { w with
    hold
    drops := if dropped && sdioRuntimeTxWindowShut w.hold.chip then w.drops ++ [w.drop r.checkedUs] else w.drops
    due := w.due || (ready && resyncDue (UInt32.ofNat r.offeredUs) frame w.hold.chip)
    began := if offered && hold.chip.txStalled then some (w.began.getD r.offeredUs) else w.began
    late := w.late || (offered && w.lateAt r.offeredUs)
    chance := w.chance || (ready && w.lateAt r.offeredUs) }

/-- The chip's side changes: a frame is received, most of the time. -/
def Watch.hear (nowUs : Nat) (s : Runtime) (w : Watch) : Watch :=
  Watch.settle { w with
    hold := { w.hold with chip := s }
    heardUs := if s.lastAnyRxUs = w.hold.chip.lastAnyRxUs then w.heardUs else nowUs
    stop := decide (s.wlanFlowControl ≠ 0)
    due := false }

/-- Nothing keeps the round from offering the frame in front: it is not stale, and no flush has been refused
since the last arrival. -/
def ready (rxStamp : UInt32) (checkedUs : Nat) (h : Hold) : Bool :=
  decide (h.age (UInt32.ofNat checkedUs) ≤ WIFI_LWIP_TX_HOLD_MAX_AGE_US) && !h.paced rxStamp

def watchPass (rxStamp : UInt32) (r : Round) (w : Watch) : Bool × Watch :=
  let out := flushPass rxStamp r.pass w.hold
  (out.1, w.look r (ready rxStamp r.checkedUs w.hold) w.hold.front.data out.2)

def watchLoop (rxStamp : UInt32) (rounds : Nat → Round) : Nat → Nat → Watch → Bool × Watch
  | 0, _, w => (true, { w with hold := { w.hold with flushBlocked := false } })
  | n + 1, k, w =>
    match watchPass rxStamp (rounds k) w with
    | (true, w) => watchLoop rxStamp rounds n (k + 1) w
    | (false, w) => (false, w)

def watchFlush (rounds : Nat → Round) (w : Watch) : Bool × Watch :=
  watchLoop w.hold.chip.lastAnyRxUs rounds w.hold.count 0 w

/-- A call of the output function; `last` is the direct transmission, where it comes to that. -/
def watchOutput (rounds : Nat → Round) (last : Round) (p : Option (List (List UInt8))) (w : Watch) : Watch :=
  match p with
  | none => w
  | some chain =>
    if WIFI_LWIP_RX_FRAME_MAX_LEN < chain.flatten.length then w
    else
      match watchFlush rounds w with
      | (false, w) => { w with hold := (holdOrFail (UInt32.ofNat last.sentUs) chain.flatten w.hold).2 }
      | (true, w) =>
        w.look last true chain.flatten (sendDirect last.answer (UInt32.ofNat last.sentUs) chain.flatten w.hold).2

inductive Event where
  | output (rounds : Nat → Round) (last : Round) (p : Option (List (List UInt8)))
  | flush (rounds : Nat → Round)
  | chip (nowUs : Nat) (s : Runtime)

def Event.plain : Event → TxHold.Event
  | .output rounds last p => .output (fun k => (rounds k).pass) last.answer (UInt32.ofNat last.sentUs) p
  | .flush rounds => .flush fun k => (rounds k).pass
  | .chip _ s => .chip s

def step (w : Watch) : Event → Watch
  | .output rounds last p => watchOutput rounds last p w
  | .flush rounds => (watchFlush rounds w).2
  | .chip nowUs s => w.hear nowUs s

/-- No frame is dropped before one was offered late enough, nor on an idle link while a stop alone shuts the
window. -/
def Resynced (w : Watch) : Prop := ∀ d ∈ w.drops, d.late = true ∧ d.stuck = false

/-- No frame is dropped before a call has come, at least 20 ms into the stall, while the frame in front is
not stale yet and no flush has been refused since the last arrival; nor, where the last header asked for a
stop, before such a call has come since it, with the wait of the resync over. -/
def Unpaced (w : Watch) : Prop := ∀ d ∈ w.drops, d.chance = true ∧ d.spared = true

instance (w : Watch) : Decidable (Resynced w) :=
  inferInstanceAs (Decidable (∀ d ∈ w.drops, d.late = true ∧ d.stuck = false))

instance (w : Watch) : Decidable (Unpaced w) :=
  inferInstanceAs (Decidable (∀ d ∈ w.drops, d.chance = true ∧ d.spared = true))

/-! ### The watch follows the queue -/

variable {w : Watch} {r : Round} {free : Bool} {frame : List UInt8} {hold : Hold}

theorem settle_cases (w : Watch) :
    w.settle = w ∨ w.settle = { w with began := none, late := false, chance := false } := by
  unfold Watch.settle
  split
  · exact .inl rfl
  · exact .inr rfl

@[simp] theorem settle_hold (w : Watch) : w.settle.hold = w.hold := by
  rcases settle_cases w with h | h <;> rw [h]

@[simp] theorem look_hold : (w.look r free frame hold).hold = hold := settle_hold _

theorem watchLoop_hold (rxStamp : UInt32) (rounds : Nat → Round) (n k : Nat) (w : Watch) :
    (watchLoop rxStamp rounds n k w).1 = (flushLoop rxStamp (fun k => (rounds k).pass) n k w.hold).1 ∧
      (watchLoop rxStamp rounds n k w).2.hold =
        (flushLoop rxStamp (fun k => (rounds k).pass) n k w.hold).2 := by
  induction n generalizing k w with
  | zero => exact ⟨rfl, rfl⟩
  | succ n ih =>
    unfold watchLoop flushLoop watchPass
    rcases flushPass rxStamp (rounds k).pass w.hold with ⟨goes, after⟩
    cases goes with
    | true =>
      have hrest := ih (k + 1)
        (w.look (rounds k) (ready rxStamp (rounds k).checkedUs w.hold) w.hold.front.data after)
      rw [look_hold] at hrest
      exact hrest
    | false => exact ⟨rfl, look_hold⟩

theorem watchFlush_hold (rounds : Nat → Round) (w : Watch) :
    (watchFlush rounds w).1 = (holdFlush (fun k => (rounds k).pass) w.hold).1 ∧
      (watchFlush rounds w).2.hold = (holdFlush (fun k => (rounds k).pass) w.hold).2 :=
  watchLoop_hold _ rounds _ 0 w

theorem watchOutput_hold (rounds : Nat → Round) (last : Round) (p : Option (List (List UInt8))) (w : Watch) :
    (watchOutput rounds last p w).hold =
      (linkOutput (fun k => (rounds k).pass) last.answer (UInt32.ofNat last.sentUs) p w.hold).2 := by
  unfold watchOutput linkOutput
  cases p with
  | none => rfl
  | some chain =>
    simp only
    by_cases hlong : WIFI_LWIP_RX_FRAME_MAX_LEN < chain.flatten.length
    · rw [if_pos hlong, if_pos hlong]
    rw [if_neg hlong, if_neg hlong]
    have hflush := watchFlush_hold rounds w
    rcases hwatch : watchFlush rounds w with ⟨drained, after⟩
    rcases hplain : holdFlush (fun k => (rounds k).pass) w.hold with ⟨drained', hold⟩
    rw [hwatch, hplain] at hflush
    obtain ⟨rfl, rfl⟩ := hflush
    cases drained with
    | false => rfl
    | true => exact look_hold

theorem step_hold (w : Watch) (event : Event) : (step w event).hold = TxHold.step w.hold event.plain := by
  cases event with
  | output rounds last p => exact watchOutput_hold rounds last p w
  | flush rounds => exact (watchFlush_hold rounds w).2
  | chip nowUs s => exact settle_hold _

theorem final_hold (w : Watch) (events : List Event) :
    (final step w events).hold = final TxHold.step w.hold (events.map Event.plain) := by
  induction events generalizing w with
  | nil => rfl
  | cons event events ih =>
    rw [History.final_cons, List.map_cons, History.final_cons, ih, step_hold]

/-! ### The resync -/

@[simp] theorem startShutClock_flow (nowUs : UInt32) (s : Runtime) :
    (startShutClock nowUs s).wlanFlowControl = s.wlanFlowControl := by
  unfold startShutClock
  split <;> rfl

theorem gate_flow (a : Answer) (s : Runtime) : (txGate a s).2.wlanFlowControl =
    if gateWaited a.nowUs s then 0 else s.wlanFlowControl := by
  unfold txGate gateWaited
  by_cases hshut : sdioRuntimeTxWindowShut s = true
  · rw [if_pos hshut, hshut, Bool.true_and]
    by_cases hstall : s.txStalled = false
    · rw [if_pos hstall, hstall]
      exact startShutClock_flow _ _
    rw [if_neg hstall, Bool.eq_true_of_not_eq_false hstall, Bool.true_and]
    by_cases hwait : a.nowUs - s.txStallSinceUs < resyncWait s
    · rw [if_pos hwait, decide_eq_false (UInt32.not_le.mpr hwait)]
      rfl
    · rw [if_neg hwait, decide_eq_true (UInt32.not_lt.mp hwait)]
      simp only
      split <;> rfl
  · rw [if_neg hshut, Bool.eq_false_iff.mpr hshut]
    rfl

/-- Transmitting clears a stop exactly where the resync is due. -/
theorem send_flow (a : Answer) (frame : List UInt8) (s : Runtime) :
    (sdioRuntimeSendEthernetFrame a frame s).runtime.wlanFlowControl =
      if resyncDue a.nowUs frame s then 0 else s.wlanFlowControl := by
  have hgate := gate_flow a s
  unfold sdioRuntimeSendEthernetFrame resyncDue
  by_cases hready : s.started = false ∨ frame = []
  · rw [if_pos hready]
    rcases hready with h | h <;> simp [h]
  rw [if_neg hready]
  obtain ⟨hstarted, hframe⟩ := not_or.mp hready
  have hsome : frame.isEmpty = false := by simpa using hframe
  rw [Bool.eq_true_of_not_eq_false hstarted, hsome]
  by_cases hlong : SDIO_RUNTIME_MAX_FRAME_SIZE - 18 < frame.length
  · rw [if_pos hlong, decide_eq_false (Nat.not_le.mpr hlong)]
    rfl
  rw [if_neg hlong, decide_eq_true (Nat.not_lt.mp hlong)]
  simp only [Bool.true_and, Bool.not_false]
  rw [← hgate]
  rcases txGate a s with ⟨room, s'⟩
  cases room with
  | false => rfl
  | true =>
    simp only
    by_cases hawake : a.awake = false
    · rw [if_pos hawake]
    · rw [if_neg hawake]
      cases a.bus with
      | written => rfl
      | precommand => exact startShutClock_flow _ _
      | afterCommand => exact startShutClock_flow _ _

/-! ### Offers and chances -/

/-- What a round does to the two things that are asked: it offers a frame exactly if nothing keeps it from
that, and then a stop is cleared exactly where the resync is due. -/
structure Offers (free : Bool) (offeredUs : Nat) (frame : List UInt8) (h h' : Hold) : Prop where
  offered : free = decide (h.account.offers < h'.account.offers)
  flow : h'.chip.wlanFlowControl =
    if free && resyncDue (UInt32.ofNat offeredUs) frame h.chip then 0 else h.chip.wlanFlowControl

theorem flushPass_offers (rxStamp : UInt32) (r : Round) (h : Hold) :
    Offers (ready rxStamp r.checkedUs h) r.offeredUs h.front.data h (flushPass rxStamp r.pass h).2 := by
  have hsend := send_flow r.answer h.front.data h.chip
  unfold ready flushPass
  by_cases hage : WIFI_LWIP_TX_HOLD_MAX_AGE_US < h.age r.pass.ageUs
  · rw [if_pos hage]
    have hstale : ¬h.age (UInt32.ofNat r.checkedUs) ≤ WIFI_LWIP_TX_HOLD_MAX_AGE_US :=
      fun hle => absurd hage (UInt32.not_lt.mpr hle)
    rw [decide_eq_false hstale]
    exact ⟨(decide_eq_false (Nat.lt_irrefl _)).symm, rfl⟩
  rw [if_neg hage]
  have hfresh : h.age (UInt32.ofNat r.checkedUs) ≤ WIFI_LWIP_TX_HOLD_MAX_AGE_US := UInt32.not_lt.mp hage
  rw [decide_eq_true hfresh, Bool.true_and]
  by_cases hpaced : h.paced rxStamp = true
  · rw [if_pos hpaced, hpaced]
    exact ⟨(decide_eq_false (Nat.lt_irrefl _)).symm, rfl⟩
  · rw [if_neg hpaced, Bool.eq_false_iff.mpr hpaced]
    simp only
    split
    · exact ⟨(decide_eq_true (Nat.lt_succ_self _)).symm, hsend⟩
    · exact ⟨(decide_eq_true (Nat.lt_succ_self _)).symm, hsend⟩

theorem holdOrFail_same (nowUs : UInt32) (frame : List UInt8) (h : Hold) :
    (holdOrFail nowUs frame h).2.account.offers = h.account.offers ∧
      (holdOrFail nowUs frame h).2.chip = h.chip := by
  unfold holdOrFail holdPush
  split_ifs <;> exact ⟨rfl, rfl⟩

theorem sendDirect_offers (r : Round) (frame : List UInt8) (h : Hold) :
    Offers true r.offeredUs frame h (sendDirect r.answer (UInt32.ofNat r.sentUs) frame h).2 := by
  have hsend := send_flow r.answer frame h.chip
  unfold sendDirect
  simp only
  split
  · constructor
    · rw [(holdOrFail_same _ _ _).1]
      exact (decide_eq_true (Nat.lt_succ_self _)).symm
    · rw [(holdOrFail_same _ _ _).2]
      exact hsend
  · exact ⟨(decide_eq_true (Nat.lt_succ_self _)).symm, hsend⟩

/-- What happened agrees with what could have, and a stop lasts until the resync is due. -/
structure Even (w : Watch) : Prop where
  late : w.late = w.chance
  flow : decide (w.hold.chip.wlanFlowControl ≠ 0) = (w.stop && !w.due)
  drops : ∀ d ∈ w.drops, d.late = d.chance ∧ d.stuck = !d.spared

theorem Even.settle (he : Even w) : Even w.settle := by
  rcases settle_cases w with h | h <;> rw [h]
  · exact he
  · exact ⟨rfl, he.flow, he.drops⟩

theorem Even.look (he : Even w) (ho : Offers free r.offeredUs frame w.hold hold) :
    Even (w.look r free frame hold) := by
  apply Even.settle
  constructor
  · change (w.late || _) = (w.chance || _)
    rw [he.late, ho.offered]
  · change decide (hold.chip.wlanFlowControl ≠ 0) = (w.stop && !(w.due || _))
    rw [ho.flow]
    cases free && resyncDue (UInt32.ofNat r.offeredUs) frame w.hold.chip with
    | true => simp
    | false => simpa using he.flow
  · intro d hd
    simp only at hd
    split at hd
    · rcases List.mem_append.mp hd with hold | hnew
      · exact he.drops d hold
      · rw [List.mem_singleton.mp hnew]
        refine ⟨he.late, ?_⟩
        change (_ && decide (w.hold.chip.wlanFlowControl ≠ 0)) = !!(_ && _)
        rw [he.flow, Bool.not_not]
    · exact he.drops d hd

theorem Even.hear (he : Even w) (nowUs : Nat) (s : Runtime) : Even (w.hear nowUs s) :=
  Even.settle ⟨he.late, (Bool.and_true _).symm, he.drops⟩

theorem even_loop (rxStamp : UInt32) (rounds : Nat → Round) (n k : Nat) {w : Watch} (he : Even w) :
    Even (watchLoop rxStamp rounds n k w).2 := by
  induction n generalizing k w with
  | zero => exact { he with }
  | succ n ih =>
    have hlook := he.look (flushPass_offers rxStamp (rounds k) w.hold)
    unfold watchLoop watchPass
    rcases hround : flushPass rxStamp (rounds k).pass w.hold with ⟨goes, after⟩
    rw [hround] at hlook
    cases goes with
    | true => exact ih (k + 1) hlook
    | false => exact hlook

theorem even_step {w : Watch} (he : Even w) (event : Event) : Even (step w event) := by
  cases event with
  | output rounds last p =>
    change Even (watchOutput rounds last p w)
    unfold watchOutput
    cases p with
    | none => exact he
    | some chain =>
      simp only
      split
      · exact he
      · have hflush := even_loop w.hold.chip.lastAnyRxUs rounds w.hold.count 0 he
        rcases hwatch : watchFlush rounds w with ⟨drained, after⟩
        change Even (watchFlush rounds w).2 at hflush
        rw [hwatch] at hflush
        cases drained with
        | false =>
          refine ⟨hflush.late, ?_, hflush.drops⟩
          simp only [(holdOrFail_same _ _ _).2]
          exact hflush.flow
        | true => exact hflush.look (sendDirect_offers _ _ _)
  | flush rounds => exact even_loop _ rounds _ 0 he
  | chip nowUs s => exact he.hear nowUs s

def stopped : Runtime where
  started := true
  maxSeq := 10
  maxSeqValid := true
  wlanFlowControl := 1
  lastAnyRxUs := 1

def refused : Runtime := { stopped with txStalled := true, txStallSinceUs := 1000, txShutSinceUs := 1000 }

def roundAt (nowUs : Nat) : Round := ⟨nowUs, nowUs, nowUs, nowUs, true, .written⟩

end Pi1MHz.TxPacing
