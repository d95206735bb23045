import Mathlib.Data.List.Basic
import Pi1MHz.History
import Pi1MHz.WrapClock

/-!
# SDPCM transmit: sequence numbers and credit

Every frame to the Wi-Fi chip carries an eight-bit sequence number, and every frame from it the first
number that it will not take yet.  `sdio_runtime_send_ethernet_frame` keeps data frames inside that window
and takes a number back only where the bus proves that nothing reached the chip.
-/

namespace Pi1MHz.Sdpcm

open History (final history)
open WrapClock (reached)

def SDIO_RUNTIME_MAX_FRAME_SIZE : Nat := 1600
def SDPCM_DATA_CHANNEL : UInt8 := 2
def SDPCM_DATA_HEADER_LENGTH : UInt8 := 14
def SDPCM_TX_STALL_IDLE_RESYNC_US : UInt32 := 20000
def SDPCM_TX_STALL_RESYNC_US : UInt32 := 1000000

/-- The statics of `sdio.c` that transmitting reads or sets. -/
structure Runtime where
  started : Bool := false
  txSequence : UInt8 := 0
  maxSeq : UInt8 := 0
  maxSeqValid : Bool := false
  wlanFlowControl : UInt8 := 0
  txStalled : Bool := false
  txStallSinceUs : UInt32 := 0
  txShutSinceUs : UInt32 := 0
  lastAnyRxUs : UInt32 := 0
  busActiveUs : UInt32 := 0
  txResyncCount : UInt32 := 0
  txFrameCount : UInt32 := 0
  error : String := ""
  deriving DecidableEq

/-- What becomes of a write: it is done, it times out in the command phase, or it fails after that, where
the chip may have it. -/
inductive Bus where
  | written
  | precommand
  | afterCommand
  deriving DecidableEq, Repr

/-- What one transmission finds outside: the clock, as it is read, the bus awake or not, and the write. -/
structure Answer where
  nowUs : UInt32
  laterUs : UInt32
  awake : Bool
  bus : Bus
  deriving DecidableEq

def sdioRuntimeStart (nowUs : UInt32) : Runtime where
  lastAnyRxUs := nowUs ||| 1

/-! ### Transmitting -/

def sdioNextSdpcmSequence (s : Runtime) : UInt8 × Runtime :=
  (s.txSequence, { s with txSequence := s.txSequence + 1 })

def sdioRuntimeTxWindowShut (s : Runtime) : Bool :=
  s.maxSeqValid && (decide (s.wlanFlowControl ≠ 0) || decide (0 ≤ (s.txSequence - s.maxSeq).toInt8.toInt))

def startShutClock (nowUs : UInt32) (s : Runtime) : Runtime :=
  if s.txShutSinceUs = 0 then { s with txShutSinceUs := if nowUs = 0 then 1 else nowUs } else s

def resyncWait (s : Runtime) : UInt32 :=
  if reached s.lastAnyRxUs s.txStallSinceUs = false then SDPCM_TX_STALL_IDLE_RESYNC_US
  else SDPCM_TX_STALL_RESYNC_US

def txGate (a : Answer) (s : Runtime) : Bool × Runtime :=
  if sdioRuntimeTxWindowShut s then
    if s.txStalled = false then
      (false, startShutClock a.nowUs { s with txStalled := true, txStallSinceUs := a.nowUs })
    else if a.nowUs - s.txStallSinceUs < resyncWait s then (false, s)
    else
      -- a stop that nothing contradicts any more is dropped, and the window is asked again
      let s := { s with wlanFlowControl := 0, txStallSinceUs := a.nowUs }
      if sdioRuntimeTxWindowShut s then (false, s)
      else (true, { s with txResyncCount := s.txResyncCount + 1 })
  else (true, { s with txStalled := false })

def txFrame (sequence : UInt8) (frame : List UInt8) : List UInt8 :=
  let total := UInt16.ofNat (18 + frame.length)
  [total.toUInt8, (total >>> 8).toUInt8, (~~~total).toUInt8, (~~~total >>> 8).toUInt8,
    sequence, SDPCM_DATA_CHANNEL, 0, SDPCM_DATA_HEADER_LENGTH, 0, 0, 0, 0, 0, 0, 0x20, 0, 0, 0] ++ frame

structure Sent where
  ok : Bool
  frame : Option (List UInt8)
  runtime : Runtime

def sdioRuntimeSendEthernetFrame (a : Answer) (frame : List UInt8) (s : Runtime) : Sent :=
  if s.started = false ∨ frame = [] then
    ⟨false, none, { s with error := "WiFi SDIO runtime is not ready for transmit" }⟩
  else if SDIO_RUNTIME_MAX_FRAME_SIZE - 18 < frame.length then
    ⟨false, none, { s with error := "Ethernet frame exceeds SDIO transmit buffer" }⟩
  else
    match txGate a s with
    | (false, s) => ⟨false, none, s⟩
    | (true, s) =>
      if a.awake = false then ⟨false, none, s⟩
      else
        match sdioNextSdpcmSequence s with
        | (sequence, s) =>
          match a.bus with
          | .written =>
            ⟨true, some (txFrame sequence frame),
              { s with txFrameCount := s.txFrameCount + 1, busActiveUs := a.laterUs }⟩
          | .precommand =>
            ⟨false, none, startShutClock a.laterUs
              { s with
                txSequence := s.txSequence - 1
                error := "Failed to write Ethernet frame over SDIO" }⟩
          | .afterCommand =>
            ⟨false, some (txFrame sequence frame), startShutClock a.laterUs
              { s with error := "Failed to write Ethernet frame over SDIO" }⟩

/-- `sdio_probe_send_single_tx_control_template` and the CLM chunks: the number of a control frame that
the chip may have.  The rest of such a frame does not matter here. -/
def sendControl (bus : Bus) (s : Runtime) : Option UInt8 × Runtime :=
  match sdioNextSdpcmSequence s with
  | (sequence, s) =>
    match bus with
    | .written | .afterCommand => (some sequence, s)
    | .precommand => (none, { s with txSequence := s.txSequence - 1 })

def noteWindow (flow limit : UInt8) (nowUs : UInt32) (s : Runtime) : Runtime :=
  let s := { s with wlanFlowControl := flow, maxSeq := limit, maxSeqValid := true }
  { s with
    txShutSinceUs := if sdioRuntimeTxWindowShut s then s.txShutSinceUs else 0
    lastAnyRxUs := nowUs ||| 1 }

/-! ### The gate -/

variable {a : Answer} {s : Runtime} {frame : List UInt8}

theorem txWindowShut_iff : sdioRuntimeTxWindowShut s = true ↔
    s.maxSeqValid = true ∧ (s.wlanFlowControl ≠ 0 ∨ (s.txSequence - s.maxSeq).toNat < 128) := by
  have hint : (s.txSequence - s.maxSeq).toInt8.toInt = (s.txSequence - s.maxSeq).toBitVec.toInt := rfl
  have hnat : (s.txSequence - s.maxSeq).toNat = (s.txSequence - s.maxSeq).toBitVec.toNat := rfl
  have hlt := (s.txSequence - s.maxSeq).toBitVec.isLt
  have hsign : 0 ≤ (s.txSequence - s.maxSeq).toInt8.toInt ↔ (s.txSequence - s.maxSeq).toNat < 128 := by
    rw [hint, hnat, BitVec.toInt_eq_toNat_cond]
    split <;> omega
  unfold sdioRuntimeTxWindowShut
  rw [Bool.and_eq_true, Bool.or_eq_true, decide_eq_true_iff, decide_eq_true_iff, hsign]

structure SameNumbers (s s' : Runtime) : Prop where
  started : s'.started = s.started
  txSequence : s'.txSequence = s.txSequence
  maxSeq : s'.maxSeq = s.maxSeq
  maxSeqValid : s'.maxSeqValid = s.maxSeqValid

theorem SameNumbers.refl (s : Runtime) : SameNumbers s s := ⟨rfl, rfl, rfl, rfl⟩

theorem startShutClock_numbers (nowUs : UInt32) (s : Runtime) : SameNumbers s (startShutClock nowUs s) := by
  unfold startShutClock
  split
  · exact ⟨rfl, rfl, rfl, rfl⟩
  · exact SameNumbers.refl s

theorem txGate_numbers (a : Answer) (s : Runtime) : SameNumbers s (txGate a s).2 := by
  unfold txGate
  split_ifs with hshut hstall hwait
  · have hclock := startShutClock_numbers a.nowUs { s with txStalled := true, txStallSinceUs := a.nowUs }
    exact { hclock with }
  · exact SameNumbers.refl s
  · simp only
    split_ifs with hagain
    · exact ⟨rfl, rfl, rfl, rfl⟩
    · exact ⟨rfl, rfl, rfl, rfl⟩
  · exact ⟨rfl, rfl, rfl, rfl⟩

theorem txGate_open (hopen : (txGate a s).1 = true) : sdioRuntimeTxWindowShut (txGate a s).2 = false := by
  unfold txGate at hopen ⊢
  by_cases hshut : sdioRuntimeTxWindowShut s = true
  · rw [if_pos hshut] at hopen ⊢
    by_cases hstall : s.txStalled = false
    · rw [if_pos hstall] at hopen
      cases hopen
    rw [if_neg hstall] at hopen ⊢
    by_cases hwait : a.nowUs - s.txStallSinceUs < resyncWait s
    · rw [if_pos hwait] at hopen
      cases hopen
    rw [if_neg hwait] at hopen ⊢
    simp only at hopen ⊢
    by_cases hagain : sdioRuntimeTxWindowShut
        { s with wlanFlowControl := 0, txStallSinceUs := a.nowUs } = true
    · rw [if_pos hagain] at hopen
      cases hopen
    · rw [if_neg hagain]
      exact Bool.eq_false_iff.mpr hagain
  · rw [if_neg hshut]
    exact Bool.eq_false_iff.mpr hshut

theorem send_cases (a : Answer) (frame : List UInt8) (s : Runtime) :
    ((sdioRuntimeSendEthernetFrame a frame s).ok = false ∧
        (sdioRuntimeSendEthernetFrame a frame s).frame = none ∧
        SameNumbers s (sdioRuntimeSendEthernetFrame a frame s).runtime) ∨
      ((sdioRuntimeSendEthernetFrame a frame s).ok = decide (a.bus = .written) ∧
        (sdioRuntimeSendEthernetFrame a frame s).frame = some (txFrame s.txSequence frame) ∧
        SameNumbers { s with txSequence := s.txSequence + 1 }
          (sdioRuntimeSendEthernetFrame a frame s).runtime ∧
        (s.maxSeqValid = true → 128 ≤ (s.txSequence - s.maxSeq).toNat)) := by
  have hgate := txGate_numbers a s
  unfold sdioRuntimeSendEthernetFrame
  by_cases hready : s.started = false ∨ frame = []
  · rw [if_pos hready]
    exact .inl ⟨rfl, rfl, rfl, rfl, rfl, rfl⟩
  rw [if_neg hready]
  by_cases hlong : SDIO_RUNTIME_MAX_FRAME_SIZE - 18 < frame.length
  · rw [if_pos hlong]
    exact .inl ⟨rfl, rfl, rfl, rfl, rfl, rfl⟩
  rw [if_neg hlong]
  cases hanswer : txGate a s with
  | mk room s' =>
    rw [hanswer] at hgate
    cases room with
    | false => exact .inl ⟨rfl, rfl, hgate⟩
    | true =>
      have hopen := txGate_open (a := a) (s := s) (by rw [hanswer])
      rw [hanswer] at hopen
      have hroom : s.maxSeqValid = true → 128 ≤ (s.txSequence - s.maxSeq).toNat := by
        intro hvalid
        by_contra hfew
        have hshut : sdioRuntimeTxWindowShut s' = true := by
          rw [txWindowShut_iff, hgate.maxSeqValid, hgate.txSequence, hgate.maxSeq]
          exact ⟨hvalid, .inr (by omega)⟩
        rw [hopen] at hshut
        cases hshut
      simp only
      by_cases hawake : a.awake = false
      · rw [if_pos hawake]
        exact .inl ⟨rfl, rfl, hgate⟩
      rw [if_neg hawake]
      unfold sdioNextSdpcmSequence
      simp only
      have hnext : SameNumbers { s with txSequence := s.txSequence + 1 }
          { s' with txSequence := s'.txSequence + 1 } :=
        ⟨hgate.started, congrArg (· + 1) hgate.txSequence, hgate.maxSeq, hgate.maxSeqValid⟩
      cases a.bus with
      | written =>
        exact .inr ⟨rfl, by rw [hgate.txSequence], { hnext with }, hroom⟩
      | precommand =>
        have hclock := startShutClock_numbers a.laterUs
          { s' with
            txSequence := s'.txSequence + 1 - 1
            error := "Failed to write Ethernet frame over SDIO" }
        exact .inl ⟨rfl, rfl, hclock.started.trans hgate.started,
          hclock.txSequence.trans ((UInt8.add_sub_cancel _ _).trans hgate.txSequence),
          hclock.maxSeq.trans hgate.maxSeq, hclock.maxSeqValid.trans hgate.maxSeqValid⟩
      | afterCommand =>
        have hclock := startShutClock_numbers a.laterUs
          { s' with
            txSequence := s'.txSequence + 1
            error := "Failed to write Ethernet frame over SDIO" }
        exact .inr ⟨rfl, by rw [hgate.txSequence], ⟨hclock.started.trans hnext.started,
          hclock.txSequence.trans hnext.txSequence, hclock.maxSeq.trans hnext.maxSeq,
          hclock.maxSeqValid.trans hnext.maxSeqValid⟩, hroom⟩

/-! ### Runs -/

structure Written where
  sequence : UInt8
  data : Bool
  limit : Option Nat
  deriving DecidableEq

/-- The runtime between two calls of `sdio_runtime_start`.  A frame's place in `written` is its number,
and `limit` the chip's, both unbounded. -/
structure Link where
  runtime : Runtime
  limit : Option Nat := none
  written : List Written := []

inductive Event where
  | started
  | data (a : Answer) (frame : List UInt8)
  | control (bus : Bus)
  | receive (flow : UInt8) (more : Nat) (nowUs : UInt32)

def Link.step (l : Link) : Event → Link
  | .started => { l with runtime := { l.runtime with started := true } }
  | .data a frame =>
    let sent := sdioRuntimeSendEthernetFrame a frame l.runtime
    { l with
      runtime := sent.runtime
      written :=
        match sent.frame with
        | some bytes => l.written ++ [⟨bytes.getD 4 0, true, l.limit⟩]
        | none => l.written }
  | .control bus =>
    match sendControl bus l.runtime with
    | (some sequence, s) => { l with runtime := s, written := l.written ++ [⟨sequence, false, l.limit⟩] }
    | (none, s) => { l with runtime := s }
  | .receive flow more nowUs =>
    -- the limit never moves backwards
    let limit := l.limit.getD 0 + more
    { l with runtime := noteWindow flow (UInt8.ofNat limit) nowUs l.runtime, limit := some limit }

def Link.initial (nowUs : UInt32) : Link where
  runtime := sdioRuntimeStart nowUs

structure InWindow (l : Link) : Prop where
  consecutive : ∀ i (w : Written), l.written[i]? = some w → w.sequence = UInt8.ofNat i
  credited : ∀ i (w : Written) limit, l.written[i]? = some w → w.data = true → w.limit = some limit → i < limit

def Fits (l : Link) : Event → Prop
  | .data .. => ∀ limit ∈ l.limit,
      limit ≤ l.written.length → (l.written.length - limit) % 256 < 128
  | _ => True

structure Inv (l : Link) : Prop extends InWindow l where
  next : l.runtime.txSequence = UInt8.ofNat l.written.length
  unknown : l.limit = none → l.runtime.maxSeqValid = false
  known : ∀ limit, l.limit = some limit →
    l.runtime.maxSeqValid = true ∧ l.runtime.maxSeq = UInt8.ofNat limit

variable {l : Link}

theorem inv_initial (nowUs : UInt32) : Inv (Link.initial nowUs) where
  consecutive i w h := by cases h
  credited i w limit h := by cases h
  next := rfl
  unknown _ := rfl
  known limit h := by cases h

theorem Inv.same (h : Inv l) {s : Runtime} (hs : SameNumbers l.runtime s) : Inv { l with runtime := s } where
  toInWindow := ⟨h.consecutive, h.credited⟩
  next := hs.txSequence.trans h.next
  unknown hnone := hs.maxSeqValid.trans (h.unknown hnone)
  known limit hlimit :=
    ⟨hs.maxSeqValid.trans (h.known limit hlimit).1, hs.maxSeq.trans (h.known limit hlimit).2⟩

theorem getElem?_snoc {ws : List Written} {x w : Written} {i : Nat} (h : (ws ++ [x])[i]? = some w) :
    ws[i]? = some w ∨ i = ws.length ∧ x = w := by
  by_cases hi : i < ws.length
  · rw [List.getElem?_append_left hi] at h
    exact .inl h
  · rw [List.getElem?_append_right (Nat.le_of_not_lt hi), List.getElem?_singleton] at h
    split_ifs at h with hlast
    exact .inr ⟨by omega, Option.some.inj h⟩

theorem Inv.write (h : Inv l) {s : Runtime}
    (hs : SameNumbers { l.runtime with txSequence := l.runtime.txSequence + 1 } s) {data : Bool}
    (hroom : data = true → ∀ limit, l.limit = some limit → l.written.length < limit) :
    Inv { l with runtime := s, written := l.written ++ [⟨l.runtime.txSequence, data, l.limit⟩] } where
  consecutive i w hw := by
    rcases getElem?_snoc hw with hold | ⟨rfl, rfl⟩
    · exact h.consecutive i w hold
    · exact h.next
  credited i w limit hw hdata hlimit := by
    rcases getElem?_snoc hw with hold | ⟨rfl, rfl⟩
    · exact h.credited i w limit hold hdata hlimit
    · exact hroom hdata limit hlimit
  next := by
    rw [hs.txSequence]
    change l.runtime.txSequence + 1 = _
    rw [h.next, List.length_append, UInt8.ofNat_add]
    rfl
  unknown hnone := hs.maxSeqValid.trans (h.unknown hnone)
  known limit hlimit :=
    ⟨hs.maxSeqValid.trans (h.known limit hlimit).1, hs.maxSeq.trans (h.known limit hlimit).2⟩

theorem Inv.below (h : Inv l) {limit : Nat} (hlimit : l.limit = some limit)
    (hfits : limit ≤ l.written.length → (l.written.length - limit) % 256 < 128)
    (hroom : l.runtime.maxSeqValid = true → 128 ≤ (l.runtime.txSequence - l.runtime.maxSeq).toNat) :
    l.written.length < limit := by
  obtain ⟨hvalid, hmax⟩ := h.known limit hlimit
  have hfar := hroom hvalid
  by_contra hpast
  have hnear := hfits (Nat.le_of_not_lt hpast)
  rw [h.next, hmax] at hfar
  simp only [UInt8.toNat_sub, UInt8.toNat_ofNat'] at hfar
  omega

theorem Inv.step (h : Inv l) {e : Event} (hfits : Fits l e) : Inv (l.step e) := by
  cases e with
  | started => exact ⟨⟨h.consecutive, h.credited⟩, h.next, h.unknown, h.known⟩
  | data a frame =>
    unfold Link.step
    rcases send_cases a frame l.runtime with ⟨-, hnone, hsame⟩ | ⟨-, hsome, hsame, hroom⟩
    · simp only [hnone]
      exact h.same hsame
    · simp only [hsome]
      exact h.write hsame fun _ limit hlimit => h.below hlimit (hfits limit hlimit) hroom
  | control bus =>
    unfold Link.step sendControl sdioNextSdpcmSequence
    cases bus with
    | written => exact h.write ⟨rfl, rfl, rfl, rfl⟩ nofun
    | afterCommand => exact h.write ⟨rfl, rfl, rfl, rfl⟩ nofun
    | precommand => exact h.same ⟨rfl, UInt8.add_sub_cancel _ _, rfl, rfl⟩
  | receive flow more nowUs =>
    refine ⟨⟨h.consecutive, h.credited⟩, h.next, nofun, ?_⟩
    intro limit hlimit
    cases hlimit
    exact ⟨rfl, rfl⟩

/-- While no data frame is offered half a turn past the limit, the numbers are consecutive and the data
frames stay below the limit. -/
theorem sequence_and_credit (nowUs : UInt32) (es : List Event)
    (hfits : ∀ st ∈ history Link.step (Link.initial nowUs) es, Fits st.pre st.op) :
    ∀ st ∈ history Link.step (Link.initial nowUs) es, InWindow st.pre ∧ InWindow st.post := by
  obtain ⟨-, hall⟩ := History.guarded_induction Link.step Inv Fits (inv_initial nowUs)
    (fun _ _ h hop => h.step hop) es hfits
  intro st hst
  obtain ⟨hpre, hpost⟩ := hall st hst
  refine ⟨hpre.toInWindow, ?_⟩
  rw [hpost]
  exact (hpre.step (hfits st hst)).toInWindow

instance (l : Link) : ∀ e, Decidable (Fits l e)
  | .data .. => inferInstanceAs (Decidable (∀ _ ∈ _, _))
  | .started => isTrue trivial
  | .control _ => isTrue trivial
  | .receive .. => isTrue trivial

def taken : Answer := ⟨0, 0, true, .written⟩

def threeCredits : List Event :=
  [.started, .receive 0 3 0, .data taken [1], .control .afterCommand, .control .precommand,
    .data taken [2], .data taken [3]]

theorem sequence_and_credit_three :
    (∀ st ∈ history Link.step (Link.initial 0) threeCredits, InWindow st.pre ∧ InWindow st.post) ∧
      (final Link.step (Link.initial 0) threeCredits).written =
        [⟨0, true, some 3⟩, ⟨1, false, some 3⟩, ⟨2, true, some 3⟩] :=
  ⟨sequence_and_credit 0 threeCredits (by decide +kernel), by decide +kernel⟩

def uncredited : List Event :=
  [.started, .receive 0 1 0, .data taken [1]] ++ List.replicate 128 (.control .written) ++
    [.data taken [2]]

theorem window_reopens : ¬InWindow (final Link.step (Link.initial 0) uncredited) := by
  intro h
  have hlast := h.credited 129 ⟨129, true, some 1⟩ 1 (by decide +kernel) rfl rfl
  omega

end Pi1MHz.Sdpcm
