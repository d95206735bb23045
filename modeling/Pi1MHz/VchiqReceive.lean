import Pi1MHz.History
import Pi1MHz.Vchiq
import Pi1MHz.FinSizes

/-!
# VCHIQ: the receive stream

`vchiq_poll`: the messages that the VideoCore has published are read from its slots, one after the
other, and a slot that has been read to its end is handed back.
-/

namespace Pi1MHz.Vchiq

open SlotMemory FinSizes

inductive Output where
  | parsed (slot : UInt32) (offset : Nat) (msgid size : UInt32)
  | onData (slot : UInt32) (start : Nat) (size : UInt32)
  | bulkTxDone (actual : UInt32)
  | bulkRxDone (actual : UInt32)
  | send (msgid : UInt32)
  | recycled (slot : UInt32)
deriving DecidableEq, Repr

/-- The receiving part of `vc`, and the VideoCore's side of the shared memory. -/
structure Rx where
  inited : Bool
  connected : Bool
  isOpen : Bool
  /-- Whether `vc.cb` has an `on_data`. -/
  callback : Bool
  localport : UInt32
  remoteport : UInt32
  rxPos : UInt32
  remoteTxPos : UInt32
  slotQueue : Fin 64 → UInt32
  slotQueueRecycle : UInt32
  mem : Memory UInt32

def recycleSlot (s : Rx) (slot : UInt32) : Rx × List Output :=
  let r := s.slotQueueRecycle
  ({ s with slotQueue := Function.update s.slotQueue (Fin.ofNat 64 (r &&& 63).toNat) slot
            slotQueueRecycle := r + 1 },
    [.recycled slot])

def parseMessage (s : Rx) (slot : UInt32) (offset : Nat) : Rx × List Output :=
  let msgid := load32 s.mem slot offset
  let size := load32 s.mem slot (offset + 4)
  let type := VCHIQ_MSG_TYPE msgid
  let r : Rx × List Output :=
    if type = VCHIQ_MSG_PADDING then (s, [])
    else if type = VCHIQ_MSG_CONNECT then ({ s with connected := true }, [])
    else if type = VCHIQ_MSG_OPENACK then
      if VCHIQ_MSG_DSTPORT msgid = s.localport then
        ({ s with remoteport := VCHIQ_MSG_SRCPORT msgid, isOpen := true }, [])
      else (s, [])
    else if type = VCHIQ_MSG_CLOSE then
      ({ s with isOpen := false },
        [.send (VCHIQ_MAKE_MSG VCHIQ_MSG_CLOSE s.localport (VCHIQ_MSG_SRCPORT msgid))])
    else if type = VCHIQ_MSG_DATA then
      if VCHIQ_MSG_DSTPORT msgid = s.localport ∧ s.callback then
        (s, [.onData slot (offset + HEADER) size])
      else (s, [])
    else if type = VCHIQ_MSG_BULK_TX_DONE then (s, [.bulkTxDone (load32 s.mem slot (offset + HEADER))])
    else if type = VCHIQ_MSG_BULK_RX_DONE then (s, [.bulkRxDone (load32 s.mem slot (offset + HEADER))])
    else if type = VCHIQ_MSG_PAUSE then
      (s, [.send (VCHIQ_MAKE_MSG VCHIQ_MSG_PAUSE 0 0), .send (VCHIQ_MAKE_MSG VCHIQ_MSG_RESUME 0 0)])
    else (s, [])
  (r.1, .parsed slot offset msgid size :: r.2)

/-- The body of the loop of `vchiq_poll`. -/
def pollIteration (s : Rx) : Rx × List Output :=
  let rxPos := s.rxPos
  let slotIndex := s.slotQueue (queueIndex rxPos)
  let offset := (rxPos &&& VCHIQ_SLOT_MASK).toNat
  let stride := CALC_STRIDE (load32 s.mem slotIndex (offset + 4))
  if VCHIQ_SLOT_SIZE - (rxPos &&& VCHIQ_SLOT_MASK) < stride then ({ s with inited := false }, [])
  else
    let p := parseMessage s slotIndex offset
    let s := { p.1 with rxPos := rxPos + stride }
    if s.rxPos &&& VCHIQ_SLOT_MASK = 0 then
      let r := recycleSlot s slotIndex
      (r.1, p.2 ++ r.2)
    else (s, p.2)

def Rx.unread (s : Rx) : Nat := (s.remoteTxPos - s.rxPos).toNat

inductive RxEvent where
  | publish (mem : Memory UInt32) (bytes : Nat)
  | iterate

structure Received where
  rx : Rx
  out : List Output

def Received.step (s : Received) : RxEvent → Received
  | .publish mem bytes =>
    -- what is published stays ahead of `rx_pos`
    if s.rx.unread + bytes < 2 ^ 32 then
      { s with rx := { s.rx with mem := mem, remoteTxPos := s.rx.remoteTxPos + UInt32.ofNat bytes } }
    else s
  | .iterate =>
    if s.rx.inited ∧ s.rx.rxPos ≠ s.rx.remoteTxPos then
      let r := pollIteration s.rx
      ⟨r.1, s.out ++ r.2⟩
    else s

def Received.initial (slotQueue : Fin 64 → UInt32) (mem : Memory UInt32) (callback : Bool)
    (localport : UInt32) : Received where
  rx :=
    { inited := true
      connected := false
      isOpen := false
      callback := callback
      localport := localport
      remoteport := 0
      rxPos := 0
      remoteTxPos := 0
      slotQueue := slotQueue
      slotQueueRecycle := 15
      mem := mem }
  out := []

/-- The slot of the stream's slot `j`: the 15 go round. -/
def slotAt (slotQueue : Fin 64 → UInt32) (j : Nat) : UInt32 := slotQueue (Fin.ofNat 64 (j % 15))

/-- What is left of the outputs of the messages from `pos` on: each is parsed, and a slot is handed
back when its last byte has been. -/
inductive Read (slotQueue : Fin 64 → UInt32) : Nat → Nat → List Output → Prop where
  | done (pos : Nat) : Read slotQueue pos pos []
  | message {pos last : Nat} {rest : List Output} (msgid size : UInt32)
      (hinside : pos % SLOT + HEADER + size.toNat ≤ SLOT)
      (hrest : Read slotQueue (pos + stride size.toNat) last rest) :
      Read slotQueue pos last
        (.parsed (slotAt slotQueue (pos / SLOT)) (pos % SLOT) msgid size ::
          ((if (pos + stride size.toNat) % SLOT = 0 then [.recycled (slotAt slotQueue (pos / SLOT))] else []) ++
            rest))

def Output.isRead : Output → Bool
  | .parsed .. | .recycled _ => true
  | _ => false

structure Progress (s : Rx) : Prop where
  advances : (pollIteration s).1.inited = false ∨
    ∃ d, 0 < d ∧ 8 ∣ d ∧ s.rxPos.toNat % SLOT + d ≤ SLOT ∧
      (pollIteration s).1.rxPos = s.rxPos + UInt32.ofNat d
  inside : ∀ slot start size, .onData slot start size ∈ (pollIteration s).2 → start + size.toNat ≤ SLOT

def Plain (s : Received) : RxEvent → Prop
  | .publish .. => True
  | .iterate =>
    s.rx.inited = true → s.rx.rxPos ≠ s.rx.remoteTxPos →
      let size := load32 s.rx.mem (s.rx.slotQueue (queueIndex s.rx.rxPos))
        ((s.rx.rxPos &&& VCHIQ_SLOT_MASK).toNat + 4)
      size.toNat + 15 < 2 ^ 32 ∧
        (s.rx.rxPos.toNat % SLOT + stride size.toNat ≤ SLOT → stride size.toNat ≤ s.rx.unread)

structure SameStream (s s' : Rx) : Prop where
  inited : s'.inited = s.inited
  remoteTxPos : s'.remoteTxPos = s.remoteTxPos
  slotQueue : s'.slotQueue = s.slotQueue
  slotQueueRecycle : s'.slotQueueRecycle = s.slotQueueRecycle

theorem parseMessage_spec (s : Rx) (slot : UInt32) (offset : Nat) :
    SameStream s (parseMessage s slot offset).1 ∧
      (parseMessage s slot offset).2.filter Output.isRead
        = [.parsed slot offset (load32 s.mem slot offset) (load32 s.mem slot (offset + 4))] ∧
      ∀ slot' start size, .onData slot' start size ∈ (parseMessage s slot offset).2 →
        start = offset + HEADER ∧ size = load32 s.mem slot (offset + 4) := by
  simp only [parseMessage]
  generalize hr : (if VCHIQ_MSG_TYPE (load32 s.mem slot offset) = VCHIQ_MSG_PADDING then _ else _) = r
  repeat' split at hr
  all_goals
    subst hr
    refine ⟨⟨rfl, rfl, rfl, rfl⟩, rfl, ?_⟩
    intro slot' start size hmem
    simp at hmem
  obtain ⟨-, hstart, hsize⟩ := hmem
  exact ⟨hstart, hsize⟩

/-! ### The invariant -/

theorem Read.snoc {slotQueue : Fin 64 → UInt32} {pos last : Nat} {out : List Output}
    (h : Read slotQueue pos last out) (msgid size : UInt32)
    (hinside : last % SLOT + HEADER + size.toNat ≤ SLOT) :
    Read slotQueue pos (last + stride size.toNat)
      (out ++ (.parsed (slotAt slotQueue (last / SLOT)) (last % SLOT) msgid size ::
        if (last + stride size.toNat) % SLOT = 0 then [.recycled (slotAt slotQueue (last / SLOT))] else [])) := by
  induction h with
  | done pos =>
    have hone : Read slotQueue pos _ _ := Read.message msgid size hinside (Read.done _)
    rw [List.append_nil] at hone
    exact hone
  | message msgid' size' hinside' hrest ih =>
    have hnext := Read.message msgid' size' hinside' (ih hinside)
    simp only [List.cons_append, List.append_assoc]
    exact hnext

/-- At position `pos` of the stream. -/
structure RxInv (slotQueue : Fin 64 → UInt32) (pos : Nat) (s : Received) : Prop where
  rxPos : s.rx.rxPos = UInt32.ofNat pos
  aligned : 8 ∣ pos
  recycle : s.rx.slotQueueRecycle = UInt32.ofNat (pos / SLOT + 15)
  queue : ∀ j, pos / SLOT ≤ j → j < pos / SLOT + 15 →
    s.rx.slotQueue (Fin.ofNat 64 j) = slotAt slotQueue j
  read : Read slotQueue 0 pos (s.out.filter Output.isRead)

theorem toNat_ofNat (n : Nat) : (UInt32.ofNat n).toNat = n % 2 ^ 32 := UInt32.toNat_ofNat'

theorem queueIndex_ofNat (pos : Nat) : queueIndex (UInt32.ofNat pos) = Fin.ofNat 64 (pos / SLOT) := by
  apply Fin.ext
  rw [queueIndex_val, toNat_ofNat, Fin.val_ofNat]
  have hslot : SLOT = 4096 := rfl
  rw [hslot]
  omega

theorem offset_ofNat (pos : Nat) : (UInt32.ofNat pos &&& VCHIQ_SLOT_MASK).toNat = pos % SLOT := by
  rw [toNat_and_mask, toNat_ofNat]
  have hslot : SLOT = 4096 := rfl
  rw [hslot]
  omega

theorem room_ofNat (pos : Nat) :
    (VCHIQ_SLOT_SIZE - (UInt32.ofNat pos &&& VCHIQ_SLOT_MASK)).toNat = SLOT - pos % SLOT := by
  have hoffset := offset_ofNat pos
  have hlt : pos % SLOT < SLOT := Nat.mod_lt pos (Nat.succ_pos 4095)
  have hle : UInt32.ofNat pos &&& VCHIQ_SLOT_MASK ≤ VCHIQ_SLOT_SIZE := by
    rw [UInt32.le_iff_toNat_le, hoffset, toNat_slotSize]
    exact Nat.le_of_lt hlt
  rw [UInt32.toNat_sub_of_le _ _ hle, hoffset, toNat_slotSize]

theorem and_mask_eq_zero (pos : Nat) : UInt32.ofNat pos &&& VCHIQ_SLOT_MASK = 0 ↔ pos % SLOT = 0 := by
  rw [← UInt32.toNat_inj, offset_ofNat]
  rfl

theorem recycle_queue {slotQueue q : Fin 64 → UInt32} {j : Nat}
    (h : ∀ i, j ≤ i → i < j + 15 → q (Fin.ofNat 64 i) = slotAt slotQueue i) (i : Nat) (hlo : j + 1 ≤ i)
    (hhi : i < j + 1 + 15) :
    Function.update q (Fin.ofNat 64 (j + 15)) (slotAt slotQueue j) (Fin.ofNat 64 i) = slotAt slotQueue i := by
  by_cases hlast : i = j + 15
  · subst hlast
    rw [Function.update_self]
    unfold slotAt
    rw [Nat.add_mod_right]
  · have hne : Fin.ofNat 64 i ≠ Fin.ofNat 64 (j + 15) := by
      intro heq
      have hval : i % 64 = (j + 15) % 64 := congrArg Fin.val heq
      omega
    rw [Function.update_of_ne hne]
    exact h i (by omega) (by omega)

theorem pollIteration_spec {slotQueue : Fin 64 → UInt32} {pos : Nat} {s : Received}
    (h : RxInv slotQueue pos s) (hinited : s.rx.inited = true) {size : UInt32}
    (hsize : load32 s.rx.mem (slotAt slotQueue (pos / SLOT)) (pos % SLOT + 4) = size)
    (hplain : size.toNat + 15 < 2 ^ 32) :
    pollIteration s.rx = ({ s.rx with inited := false }, []) ∨
    (pos % SLOT + stride size.toNat ≤ SLOT ∧ (pollIteration s.rx).1.inited = true ∧
      (pollIteration s.rx).1.remoteTxPos = s.rx.remoteTxPos ∧
      RxInv slotQueue (pos + stride size.toNat) ⟨(pollIteration s.rx).1, s.out ++ (pollIteration s.rx).2⟩ ∧
      ∀ slot start size', .onData slot start size' ∈ (pollIteration s.rx).2 → start + size'.toNat ≤ SLOT) := by
  have hstride := toNat_calcStride hplain
  obtain ⟨hdvd, hheader, -⟩ := stride_spec size.toNat
  have hlt : pos % SLOT < SLOT := Nat.mod_lt pos (Nat.succ_pos 4095)
  have hlookup : s.rx.slotQueue (queueIndex (UInt32.ofNat pos)) = slotAt slotQueue (pos / SLOT) := by
    rw [queueIndex_ofNat]
    exact h.queue _ (Nat.le_refl _) (by omega)
  have hcorrupt : VCHIQ_SLOT_SIZE - (UInt32.ofNat pos &&& VCHIQ_SLOT_MASK) < CALC_STRIDE size ↔
      SLOT < pos % SLOT + stride size.toNat := by
    rw [UInt32.lt_iff_toNat_lt, room_ofNat, hstride]
    omega
  have hsum : UInt32.ofNat pos + CALC_STRIDE size = UInt32.ofNat (pos + stride size.toNat) := by
    rw [← UInt32.toNat_inj, UInt32.toNat_add, toNat_ofNat, toNat_ofNat, hstride]
    omega
  obtain ⟨hsame, hout, hdata⟩ := parseMessage_spec s.rx (slotAt slotQueue (pos / SLOT)) (pos % SLOT)
  rw [hsize] at hout hdata
  simp only [pollIteration, h.rxPos, hlookup, offset_ofNat, hsize, hcorrupt, hsum, and_mask_eq_zero]
  by_cases hfit : SLOT < pos % SLOT + stride size.toNat
  · left
    rw [if_pos hfit]
  · right
    have hfit' : pos % SLOT + stride size.toNat ≤ SLOT := Nat.le_of_not_lt hfit
    have hinside : pos % SLOT + HEADER + size.toNat ≤ SLOT := by
      have h8 : HEADER = 8 := rfl
      omega
    have hpayload : ∀ slot start size', .onData slot start size' ∈
        (parseMessage s.rx (slotAt slotQueue (pos / SLOT)) (pos % SLOT)).2 → start + size'.toNat ≤ SLOT := by
      intro slot start size' hmem
      obtain ⟨rfl, rfl⟩ := hdata slot start size' hmem
      exact hinside
    have hread := h.read.snoc (load32 s.rx.mem (slotAt slotQueue (pos / SLOT)) (pos % SLOT)) size hinside
    have haligned : 8 ∣ pos + stride size.toNat := Nat.dvd_add h.aligned hdvd
    rw [if_neg hfit]
    by_cases hend : (pos + stride size.toNat) % SLOT = 0
    · -- the slot has been read to its end
      rw [if_pos hend]
      have hslot : SLOT = 4096 := rfl
      have hnext : (pos + stride size.toNat) / SLOT = pos / SLOT + 1 := by
        rw [hslot] at hend hfit' hlt ⊢
        omega
      have hindex : Fin.ofNat 64 (UInt32.ofNat (pos / SLOT + 15) &&& 63).toNat
          = Fin.ofNat 64 (pos / SLOT + 15) := by
        apply Fin.ext
        have h63 : (63 : UInt32).toNat = 2 ^ 6 - 1 := by decide
        rw [UInt32.toNat_and, h63, Nat.and_two_pow_sub_one_eq_mod, toNat_ofNat, Fin.val_ofNat, Fin.val_ofNat]
        omega
      refine ⟨hfit', hsame.inited.trans hinited, hsame.remoteTxPos, ?_, ?_⟩
      · constructor
        · rfl
        · exact haligned
        · simp only [recycleSlot, hsame.slotQueueRecycle, h.recycle, hnext]
          rw [← UInt32.toNat_inj, UInt32.toNat_add, toNat_ofNat, toNat_ofNat]
          have h1 : (1 : UInt32).toNat = 1 := by decide
          rw [h1]
          omega
        · rw [hnext]
          intro j hlo hhi
          simp only [recycleSlot, hsame.slotQueueRecycle, hsame.slotQueue, h.recycle, hindex]
          exact recycle_queue h.queue j hlo hhi
        · rw [if_pos hend] at hread
          rw [List.filter_append, List.filter_append, hout]
          exact hread
      · intro slot start size' hmem
        rcases List.mem_append.mp hmem with hmem | hmem
        · exact hpayload slot start size' hmem
        · simp [recycleSlot] at hmem
    · rw [if_neg hend]
      have hslot : SLOT = 4096 := rfl
      have hnext : (pos + stride size.toNat) / SLOT = pos / SLOT := by
        rw [hslot] at hend hfit' hlt ⊢
        omega
      refine ⟨hfit', hsame.inited.trans hinited, hsame.remoteTxPos, ?_, hpayload⟩
      constructor
      · rfl
      · exact haligned
      · rw [hnext]
        exact hsame.slotQueueRecycle.trans h.recycle
      · rw [hnext]
        simp only [hsame.slotQueue]
        exact h.queue
      · rw [if_neg hend] at hread
        rw [List.filter_append, hout]
        exact hread

theorem unread_advance {rxPos remoteTxPos : UInt32} {d : Nat} (h : d ≤ (remoteTxPos - rxPos).toNat) :
    (remoteTxPos - (rxPos + UInt32.ofNat d)).toNat = (remoteTxPos - rxPos).toNat - d := by
  have htx := remoteTxPos.toNat_lt
  have hrx := rxPos.toNat_lt
  rw [UInt32.toNat_sub] at h ⊢
  rw [UInt32.toNat_sub, UInt32.toNat_add, toNat_ofNat]
  omega

theorem RxInv.iterate {slotQueue : Fin 64 → UInt32} {pos : Nat} {s : Received} (h : RxInv slotQueue pos s)
    (hinited : s.rx.inited = true) (hne : s.rx.rxPos ≠ s.rx.remoteTxPos) (hp : Plain s .iterate) :
    Progress s.rx ∧ (∃ pos', RxInv slotQueue pos' ⟨(pollIteration s.rx).1, s.out ++ (pollIteration s.rx).2⟩) ∧
      ((pollIteration s.rx).1.inited = false ∨ (pollIteration s.rx).1.unread + 8 ≤ s.rx.unread) := by
  obtain ⟨hplain, hfits⟩ := hp hinited hne
  have hlt : pos % SLOT < SLOT := Nat.mod_lt pos (Nat.succ_pos 4095)
  have hlookup : s.rx.slotQueue (queueIndex s.rx.rxPos) = slotAt slotQueue (pos / SLOT) := by
    rw [h.rxPos, queueIndex_ofNat]
    exact h.queue _ (Nat.le_refl _) (by omega)
  have hoffset : (s.rx.rxPos &&& VCHIQ_SLOT_MASK).toNat = pos % SLOT := by
    rw [h.rxPos, offset_ofNat]
  have hpos : s.rx.rxPos.toNat % SLOT = pos % SLOT := by
    rw [← toNat_and_mask, hoffset]
  rw [hlookup, hoffset] at hplain hfits
  rw [hpos] at hfits
  generalize hsize : load32 s.rx.mem (slotAt slotQueue (pos / SLOT)) (pos % SLOT + 4) = size at hplain hfits
  obtain ⟨hdvd, hheader, -⟩ := stride_spec size.toNat
  rcases pollIteration_spec h hinited hsize hplain with hstop | ⟨hfit, hgo, htx, hinv, hpayload⟩
  · rw [hstop, List.append_nil]
    refine ⟨⟨.inl ?_, ?_⟩, ⟨pos, h.rxPos, h.aligned, h.recycle, h.queue, h.read⟩, .inl rfl⟩
    · rw [hstop]
    · rw [hstop]
      exact nofun
  · have hadvance : (pollIteration s.rx).1.rxPos = s.rx.rxPos + UInt32.ofNat (stride size.toNat) := by
      rw [hinv.rxPos, h.rxPos, UInt32.ofNat_add]
    refine ⟨⟨.inr ⟨stride size.toNat, by omega, hdvd, ?_, hadvance⟩, hpayload⟩, ⟨_, hinv⟩, .inr ?_⟩
    · rw [hpos]
      exact hfit
    · have hle := hfits hfit
      have hless : (pollIteration s.rx).1.unread = s.rx.unread - stride size.toNat := by
        unfold Rx.unread
        rw [htx, hadvance]
        exact unread_advance hle
      omega

/-! ### A run -/

theorem RxInv.step {slotQueue : Fin 64 → UInt32} {s : Received} (h : ∃ pos, RxInv slotQueue pos s)
    {e : RxEvent} (hp : Plain s e) : ∃ pos, RxInv slotQueue pos (s.step e) := by
  obtain ⟨pos, h⟩ := h
  cases e with
  | publish mem bytes =>
    simp only [Received.step]
    split
    · exact ⟨pos, h.rxPos, h.aligned, h.recycle, h.queue, h.read⟩
    · exact ⟨pos, h⟩
  | iterate =>
    simp only [Received.step]
    split
    · next hgo => exact (h.iterate hgo.1 hgo.2 hp).2.1
    · exact ⟨pos, h⟩

theorem RxInv.initial (slotQueue : Fin 64 → UInt32) (mem : Memory UInt32) (callback : Bool)
    (localport : UInt32) : RxInv slotQueue 0 (Received.initial slotQueue mem callback localport) where
  rxPos := rfl
  aligned := Nat.dvd_zero 8
  recycle := rfl
  queue := by
    intro j _ hj
    have hlt : j < 15 := by
      have hzero : 0 / SLOT = 0 := rfl
      omega
    unfold slotAt
    rw [Nat.mod_eq_of_lt hlt]
    rfl
  read := Read.done 0

def Over (s : Received) : Prop := s.rx.inited = false ∨ s.rx.rxPos = s.rx.remoteTxPos

theorem final_of_over {s : Received} (h : Over s) (n : Nat) :
    History.final Received.step s (List.replicate n .iterate) = s := by
  induction n with
  | zero => rfl
  | succ n ih =>
    have hstay : s.step .iterate = s := by
      simp only [Received.step]
      rw [if_neg]
      rintro ⟨hinited, hne⟩
      rcases h with hstop | hread
      · rw [hstop] at hinited
        cases hinited
      · exact hne hread
    rw [List.replicate_succ, History.final_cons, hstay, ih]

theorem loop_ends {slotQueue : Fin 64 → UInt32} {s : Received} (h : ∃ pos, RxInv slotQueue pos s) (n : Nat)
    (hp : ∀ st ∈ History.history Received.step s (List.replicate n .iterate), Plain st.pre st.op)
    (hn : s.rx.unread ≤ 8 * n) : Over (History.final Received.step s (List.replicate n .iterate)) := by
  induction n generalizing s with
  | zero =>
    right
    have hzero : (s.rx.remoteTxPos - s.rx.rxPos).toNat = 0 := Nat.le_zero.mp hn
    have htx := s.rx.remoteTxPos.toNat_lt
    have hrx := s.rx.rxPos.toNat_lt
    rw [UInt32.toNat_sub] at hzero
    have heq : s.rx.rxPos.toNat = s.rx.remoteTxPos.toNat := by omega
    exact UInt32.toNat_inj.mp heq
  | succ n ih =>
    by_cases hover : Over s
    · rw [final_of_over hover]
      exact hover
    · rw [List.replicate_succ, History.history] at hp
      obtain ⟨hhead, htail⟩ := List.forall_mem_cons.mp hp
      have hgo : s.rx.inited = true ∧ s.rx.rxPos ≠ s.rx.remoteTxPos :=
        ⟨Bool.not_eq_false _ ▸ fun hc => hover (.inl hc), fun hc => hover (.inr hc)⟩
      have hnext := RxInv.step h hhead
      have hstep : s.step .iterate = ⟨(pollIteration s.rx).1, s.out ++ (pollIteration s.rx).2⟩ := by
        simp only [Received.step, if_pos hgo]
      rw [List.replicate_succ, History.final_cons]
      obtain ⟨pos, h⟩ := h
      rcases (h.iterate hgo.1 hgo.2 hhead).2.2 with hstop | hless
      · have hover' : Over (s.step .iterate) := by
          rw [hstep]
          exact .inl hstop
        rw [final_of_over hover']
        exact hover'
      · apply ih hnext htail
        rw [hstep]
        exact (by omega : (pollIteration s.rx).1.unread ≤ 8 * n)

/-- In every run whose headers are plain: each iteration stops or makes progress, with payloads that
lie in the slot; the messages are parsed in order, once each, and each slot is handed back once, when
its last byte is read; and the loop ends. -/
theorem receive_stream (slotQueue : Fin 64 → UInt32) (mem : Memory UInt32) (callback : Bool)
    (localport : UInt32) (es : List RxEvent)
    (hp : ∀ st ∈ History.history Received.step (Received.initial slotQueue mem callback localport) es,
      Plain st.pre st.op) :
    (∀ st ∈ History.history Received.step (Received.initial slotQueue mem callback localport) es,
      st.op = .iterate → st.pre.rx.inited = true → st.pre.rx.rxPos ≠ st.pre.rx.remoteTxPos →
        Progress st.pre.rx) ∧
    (∃ pos, (History.final Received.step (Received.initial slotQueue mem callback localport) es).rx.rxPos
        = UInt32.ofNat pos ∧
      Read slotQueue 0 pos
        ((History.final Received.step (Received.initial slotQueue mem callback localport) es).out.filter
          Output.isRead)) ∧
    ∀ before n, es = before ++ List.replicate n .iterate →
      (History.final Received.step (Received.initial slotQueue mem callback localport) before).rx.unread ≤ 8 * n →
        Over (History.final Received.step (Received.initial slotQueue mem callback localport) es) := by
  have hrun := fun es hp => History.guarded_induction Received.step (fun s => ∃ pos, RxInv slotQueue pos s)
    Plain ⟨0, RxInv.initial slotQueue mem callback localport⟩ (fun _ _ h hp => RxInv.step h hp) es hp
  obtain ⟨⟨pos, hfinal⟩, hall⟩ := hrun es hp
  refine ⟨?_, ⟨pos, hfinal.rxPos, hfinal.read⟩, ?_⟩
  · intro st hst hop hinited hne
    obtain ⟨pos', hpre⟩ := (hall st hst).1
    have hplain := hp st hst
    rw [hop] at hplain
    exact (hpre.iterate hinited hne hplain).1
  · rintro before n rfl hn
    rw [History.history_append] at hp
    rw [History.final_append]
    have hbefore := (hrun before fun st hst => hp st (List.mem_append_left _ hst)).1
    exact loop_ends hbefore n (fun st hst => hp st (List.mem_append_right _ hst)) hn

def twoMessages : List RxEvent :=
  .publish (fun _ i => [1, 0, 0, 5, 8].getD (i % 16) 0) 32 :: List.replicate 4 .iterate

/-- Two messages of 8 bytes for our port are published together and read one after the other. -/
theorem receive_stream_twoMessages :
    (History.final Received.step (Received.initial (fun _ => 2) (fun _ _ => 0) true 1) twoMessages).out =
        [.parsed 2 0 0x05000001 8, .onData 2 8 8, .parsed 2 16 0x05000001 8, .onData 2 24 8] ∧
      Over (History.final Received.step (Received.initial (fun _ => 2) (fun _ _ => 0) true 1) twoMessages) := by
  refine ⟨by decide +kernel, (receive_stream (fun _ => 2) (fun _ _ => 0) true 1 twoMessages ?_).2.2
    [twoMessages.head (List.cons_ne_nil _ _)] 4 rfl (by decide +kernel)⟩
  intro st hst
  simp only [twoMessages, List.replicate, History.history, List.mem_cons, List.not_mem_nil, or_false] at hst
  rcases hst with rfl | rfl | rfl | rfl | rfl
  · trivial
  · exact fun _ _ => by decide +kernel
  · exact fun _ _ => by decide +kernel
  · exact fun _ hne => absurd (by decide +kernel) hne
  · exact fun _ hne => absurd (by decide +kernel) hne

/-- A size of `&FFFFFFF1`: the stride wraps to zero, and the loop parses the same header for ever. -/
theorem stride_wraps :
    ¬ Progress (Received.step (Received.initial (fun _ => 2) (fun _ _ => 0) true 1)
      (.publish (fun _ i => if i = 4 then 0xF1 else 0xFF) 16)).rx := by
  intro h
  have hinited : (pollIteration (Received.step (Received.initial (fun _ => 2) (fun _ _ => 0) true 1)
      (.publish (fun _ i => if i = 4 then 0xF1 else 0xFF) 16)).rx).1.inited = true := by
    decide +kernel
  have hstay : (pollIteration (Received.step (Received.initial (fun _ => 2) (fun _ _ => 0) true 1)
      (.publish (fun _ i => if i = 4 then 0xF1 else 0xFF) 16)).rx).1.rxPos = 0 := by
    decide +kernel
  rcases h.advances with hstop | ⟨d, hpos, -, hfit, hmove⟩
  · rw [hinited] at hstop
    cases hstop
  · rw [hstay] at hmove
    have hzero := congrArg UInt32.toNat hmove
    have hstart : (Received.step (Received.initial (fun _ => 2) (fun _ _ => 0) true 1)
        (.publish (fun _ i => if i = 4 then 0xF1 else 0xFF) 16)).rx.rxPos = 0 := by
      decide +kernel
    rw [hstart] at hzero hfit
    have h0 : (0 : UInt32).toNat = 0 := by decide
    rw [UInt32.toNat_add, toNat_ofNat, h0] at hzero
    have hslot : SLOT = 4096 := rfl
    omega

end Pi1MHz.Vchiq
