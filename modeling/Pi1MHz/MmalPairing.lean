import Mathlib.Data.List.Nodup
import Pi1MHz.Mmal

/-!
# MMAL over VCHIQ: the pairing

The two queues of bulk transfers are rings whose counters wrap; what is in a ring is what is sent and not
done.  A message and its transmit are sent in one step, so that the invariant can say that nothing stands
between them.
-/

namespace Pi1MHz.Mmal

open History (history final)
open Vchiq (VCHIQ_SLOT_SIZE VCHIQ_SLOT_MASK CALC_STRIDE)
open RingQueue (slot contents contents_write contents_push contents_pop)

/-! ### A queue of transfers -/

def BulkQueue.count (q : BulkQueue) : Nat := (q.tail - q.head).toNat

def BulkQueue.transfer (q : BulkQueue) (i : Fin 4) : Transfer := ⟨i, q.pagelists i, q.pend i⟩

structure BulkQueue.Holds (q : BulkQueue) (out : List Transfer) : Prop where
  depth : q.count ≤ 4
  ring : contents q.transfer (q.head.toNat % 4) q.count = out

theorem entry_val (n : UInt32) : (entry n).val = n.toNat % 4 := by
  have h3 : (BULK_QUEUE_DEPTH - 1).toNat = 2 ^ 2 - 1 := by decide
  rw [entry, Fin.val_ofNat, UInt32.toNat_and, h3, Nat.and_two_pow_sub_one_eq_mod]
  exact Nat.mod_mod _ _

section

variable {q : BulkQueue}

theorem BulkQueue.entry_tail (q : BulkQueue) : entry q.tail = slot 4 (q.head.toNat % 4) q.count := by
  apply Fin.ext
  have htail := q.tail.toNat_lt
  have hhead := q.head.toNat_lt
  rw [entry_val, RingQueue.slot_val, BulkQueue.count, UInt32.toNat_sub]
  omega

theorem BulkQueue.transfer_writePagelist (q : BulkQueue) (pl : Pagelist) :
    (q.writePagelist pl).transfer =
      Function.update q.transfer (entry q.tail) ⟨entry q.tail, pl, q.pend (entry q.tail)⟩ := by
  funext i
  by_cases hi : i = entry q.tail
  · subst hi
    simp only [BulkQueue.transfer, BulkQueue.writePagelist, Function.update_self]
  · simp only [BulkQueue.transfer, BulkQueue.writePagelist, Function.update_of_ne hi]

theorem BulkQueue.transfer_claim (q : BulkQueue) (pl : Pagelist) (user : UInt32) :
    ((q.writePagelist pl).claim user).transfer =
      Function.update q.transfer (entry q.tail) ⟨entry q.tail, pl, user⟩ := by
  funext i
  by_cases hi : i = entry q.tail
  · subst hi
    simp only [BulkQueue.transfer, BulkQueue.writePagelist, BulkQueue.claim, Function.update_self]
  · simp only [BulkQueue.transfer, BulkQueue.writePagelist, BulkQueue.claim, Function.update_of_ne hi]

theorem BulkQueue.count_lt (hroom : q.tail - q.head < BULK_QUEUE_DEPTH) : q.count < 4 :=
  UInt32.lt_iff_toNat_lt.mp hroom

theorem BulkQueue.Holds.write {out : List Transfer} (h : q.Holds out)
    (hroom : q.tail - q.head < BULK_QUEUE_DEPTH) (pl : Pagelist) : (q.writePagelist pl).Holds out := by
  constructor
  · exact h.depth
  · rw [q.transfer_writePagelist, q.entry_tail]
    exact (contents_write q.transfer _ (count_lt hroom)).trans h.ring

theorem BulkQueue.Holds.claim {out : List Transfer} (h : q.Holds out)
    (hroom : q.tail - q.head < BULK_QUEUE_DEPTH) (pl : Pagelist) (user : UInt32) :
    ((q.writePagelist pl).claim user).Holds (out ++ [⟨entry q.tail, pl, user⟩]) := by
  have hlt := count_lt hroom
  have htail := q.tail.toNat_lt
  have hhead := q.head.toNat_lt
  have hcount : ((q.writePagelist pl).claim user).count = q.count + 1 := by
    have hone : (1 : UInt32).toNat = 1 := by decide
    simp only [BulkQueue.count, BulkQueue.claim, BulkQueue.writePagelist, UInt32.toNat_sub, UInt32.toNat_add,
      hone] at hlt ⊢
    omega
  constructor
  · rw [hcount]
    exact hlt
  · rw [hcount, q.transfer_claim, ← h.ring]
    rw [q.entry_tail]
    exact contents_push q.transfer _ hlt

theorem BulkQueue.Holds.length {out : List Transfer} (h : q.Holds out) : out.length = q.count := by
  rw [← h.ring]
  exact RingQueue.length_contents _ _ _

theorem BulkQueue.holds_fresh (pend : Fin 4 → UInt32) (pagelists : Fin 4 → Pagelist) :
    BulkQueue.Holds ⟨pend, pagelists, 0, 0, 0⟩ [] := by
  have hcount : BulkQueue.count ⟨pend, pagelists, 0, 0, 0⟩ = 0 := by
    rw [BulkQueue.count, UInt32.sub_self]
    rfl
  constructor
  · rw [hcount]
    exact Nat.zero_le 4
  · rw [hcount]
    exact RingQueue.contents_zero _ _

theorem BulkQueue.count_pos (hne : q.head ≠ q.tail) : 0 < q.count := by
  have htail := q.tail.toNat_lt
  have hhead := q.head.toNat_lt
  have hvalues : q.head.toNat ≠ q.tail.toNat := fun heq => hne (UInt32.toNat_inj.mp heq)
  rw [BulkQueue.count, UInt32.toNat_sub]
  omega

theorem BulkQueue.count_retire (hne : q.head ≠ q.tail) : (q.tail - (q.head + 1)).toNat = q.count - 1 := by
  have htail := q.tail.toNat_lt
  have hhead := q.head.toNat_lt
  have hvalues : q.head.toNat ≠ q.tail.toNat := fun heq => hne (UInt32.toNat_inj.mp heq)
  have hone : (1 : UInt32).toNat = 1 := by decide
  rw [BulkQueue.count, UInt32.toNat_sub, UInt32.toNat_sub, UInt32.toNat_add, hone]
  omega

theorem BulkQueue.Holds.retire {out : List Transfer} (h : q.Holds out) (hne : q.head ≠ q.tail) (n : Nat) :
    BulkQueue.Holds { q with head := q.head + 1, retired := n } out.tail := by
  have hhead := q.head.toNat_lt
  have hone : (1 : UInt32).toNat = 1 := by decide
  have hnext : (q.head + 1).toNat % 4 = (q.head.toNat % 4 + 1) % 4 := by
    rw [UInt32.toNat_add, hone]
    omega
  have hcount : BulkQueue.count { q with head := q.head + 1, retired := n } = q.count - 1 := count_retire hne
  constructor
  · rw [hcount]
    exact Nat.le_trans (Nat.sub_le _ _) h.depth
  · rw [hcount, ← List.eraseIdx_zero, ← h.ring]
    simp only [hnext]
    exact contents_pop q.transfer _ _

theorem BulkQueue.Holds.intact {out : List Transfer} (h : q.Holds out) :
    (∀ t ∈ out, q.pagelists t.index = t.pagelist) ∧ (out.map Transfer.index).Nodup := by
  rw [← h.ring]
  constructor
  · intro t ht
    obtain ⟨i, -, rfl⟩ := RingQueue.mem_contents.mp ht
    rfl
  · have hslots : (contents q.transfer (q.head.toNat % 4) q.count).map Transfer.index =
        (List.range q.count).map (slot 4 (q.head.toNat % 4)) := by
      rw [RingQueue.contents, List.map_map]
      rfl
    rw [hslots]
    apply List.Nodup.map_on _ List.nodup_range
    intro i hi j hj heq
    have hi' := List.mem_range.mp hi
    have hj' := List.mem_range.mp hj
    exact RingQueue.slot_inj (Nat.lt_of_lt_of_le hi' h.depth) (Nat.lt_of_lt_of_le hj' h.depth) heq

end

/-! ### What is sent -/

section

variable {M : Machine} {s : Vc}

structure SameBulk (s s' : Vc) : Prop where
  serviceOpen : s'.serviceOpen = s.serviceOpen
  bulkTx : s'.bulkTx = s.bulkTx
  bulkRx : s'.bulkRx = s.bulkRx

theorem SameBulk.queue {s s' : Vc} (h : SameBulk s s') (dir : Direction) : s'.queue dir = s.queue dir := by
  cases dir with
  | tx => exact h.bulkTx
  | rx => exact h.bulkRx

theorem SameBulk.bulkSpace {s s' : Vc} (h : SameBulk s s') (dir : Direction) :
    s'.bulkSpace dir = s.bulkSpace dir := by
  rw [Vc.bulkSpace, Vc.bulkSpace, h.serviceOpen, h.queue]

theorem reserve_space_same (M : Machine) (s : Vc) (stride : UInt32) :
    SameBulk s (s.reserve_space M stride).1 ∧ (s.reserve_space M stride).1.sent = s.sent := by
  by_cases hfresh : s.padded stride &&& VCHIQ_SLOT_MASK = 0 ∧ s.consumed (s.padded stride) = true
  · by_cases hagain : (s.refresh_tx_slots M).consumed (s.padded stride) = true
    · simp only [Vc.reserve_space, if_pos hfresh, if_pos hagain]
      exact ⟨⟨rfl, rfl, rfl⟩, rfl⟩
    · simp only [Vc.reserve_space, if_pos hfresh, if_neg hagain]
      exact ⟨⟨rfl, rfl, rfl⟩, rfl⟩
  · simp only [Vc.reserve_space, if_neg hfresh, and_true]
    exact ⟨rfl, rfl, rfl⟩

theorem hasRoom_iff (M : Machine) (s : Vc) (size : UInt32) :
    s.hasRoom M size = true ↔
      ¬ (s.padded (CALC_STRIDE size) &&& VCHIQ_SLOT_MASK = 0 ∧ s.consumed (s.padded (CALC_STRIDE size)) = true ∧
        (s.refresh_tx_slots M).consumed (s.padded (CALC_STRIDE size)) = true) := by
  by_cases hfresh : s.padded (CALC_STRIDE size) &&& VCHIQ_SLOT_MASK = 0 ∧
      s.consumed (s.padded (CALC_STRIDE size)) = true
  · by_cases hagain : (s.refresh_tx_slots M).consumed (s.padded (CALC_STRIDE size)) = true
    · simp only [Vc.hasRoom, Vc.reserve_space, if_pos hfresh, if_pos hagain, Bool.false_eq_true, false_iff,
        not_not]
      exact ⟨hfresh.1, hfresh.2, hagain⟩
    · simp only [Vc.hasRoom, Vc.reserve_space, if_pos hfresh, if_neg hagain, true_iff]
      exact fun h => hagain h.2.2
  · simp only [Vc.hasRoom, Vc.reserve_space, if_neg hfresh, true_iff]
    exact fun h => hfresh ⟨h.1, h.2.1⟩

theorem hasRoom_congr {s s' : Vc} (hpos : s'.txPos = s.txPos)
    (havailable : s'.slotQueueAvailable = s.slotQueueAvailable) (hreads : s'.reads = s.reads) (size : UInt32) :
    s'.hasRoom M size = s.hasRoom M size := by
  cases s
  cases s'
  simp only at hpos havailable hreads
  subst hpos havailable hreads
  apply Bool.eq_iff_iff.mpr
  rw [hasRoom_iff, hasRoom_iff]
  exact Iff.rfl

theorem hasRoom_setQueue (s : Vc) (q : BulkQueue) (dir : Direction) (size : UInt32) :
    (s.setQueue q dir).hasRoom M size = s.hasRoom M size := by
  cases dir with
  | tx =>
    apply hasRoom_congr
    · rfl
    · rfl
    · rfl
  | rx =>
    apply hasRoom_congr
    · rfl
    · rfl
    · rfl

theorem queue_message_raw_same (M : Machine) (s : Vc) (msg : Sent) :
    SameBulk s (s.queue_message_raw M msg).1 ∧
      (s.queue_message_raw M msg).1.sent = s.sent ++ if (s.queue_message_raw M msg).2 then [msg] else [] := by
  obtain ⟨hsame, hsent⟩ := reserve_space_same M s (CALC_STRIDE msg.size)
  by_cases hsize : VCHIQ_SLOT_SIZE < CALC_STRIDE msg.size
  · simp only [Vc.queue_message_raw, if_pos hsize, Bool.false_eq_true, if_false, List.append_nil, and_true]
    exact ⟨rfl, rfl, rfl⟩
  · cases hroom : (s.reserve_space M (CALC_STRIDE msg.size)).2 with
    | true =>
      simp only [Vc.queue_message_raw, if_neg hsize, hroom, if_true, hsent, and_true]
      exact { hsame with }
    | false =>
      simp only [Vc.queue_message_raw, if_neg hsize, hroom, Bool.false_eq_true, if_false, List.append_nil]
      exact ⟨hsame, hsent⟩

section

variable {msg : Sent} (hsize : CALC_STRIDE msg.size ≤ VCHIQ_SLOT_SIZE)

include hsize

theorem queue_message_raw_room : (s.queue_message_raw M msg).2 = s.hasRoom M msg.size := by
  cases hroom : (s.reserve_space M (CALC_STRIDE msg.size)).2 with
  | true => simp only [Vc.queue_message_raw, Vc.hasRoom, if_neg (UInt32.not_lt.mpr hsize), hroom, if_true]
  | false =>
    simp only [Vc.queue_message_raw, Vc.hasRoom, if_neg (UInt32.not_lt.mpr hsize), hroom, Bool.false_eq_true,
      if_false]

theorem queue_message_raw_positions (size : UInt32) :
    (s.queue_message_raw M msg).1.hasRoom M size =
      (s.reserve_space M (CALC_STRIDE msg.size)).1.hasRoom M size := by
  cases hroom : (s.reserve_space M (CALC_STRIDE msg.size)).2 with
  | true =>
    simp only [Vc.queue_message_raw, if_neg (UInt32.not_lt.mpr hsize), hroom, if_true]
    apply hasRoom_congr
    · rfl
    · rfl
    · rfl
  | false =>
    simp only [Vc.queue_message_raw, if_neg (UInt32.not_lt.mpr hsize), hroom, Bool.false_eq_true, if_false]

end

theorem followed_append {l l' : List Sent} (h : Followed M l) (h' : Followed M l') : Followed M (l ++ l') := by
  induction l with
  | nil => exact h'
  | cons m rest ih =>
    constructor
    · intro pl hpl
      obtain ⟨t, rest', rfl, ht⟩ := h.1 pl hpl
      exact ⟨t, rest' ++ l', rfl, ht⟩
    · exact ih h.2

theorem followed_single {msg : Sent} (h : msg.payload M = none) : Followed M [msg] := by
  constructor
  · intro pl hpl
    rw [h] at hpl
    exact absurd hpl (Option.some_ne_none pl).symm
  · exact trivial

theorem followed_pair {msg : Sent} {pl : Pagelist} (h : msg.payload M = some pl) {t : Transfer}
    (ht : t.pagelist = pl) : Followed M [msg, .bulk .tx t] := by
  constructor
  · intro pl' hpl
    exact ⟨t, [], rfl, ht.trans (Option.some.inj (h.symm.trans hpl))⟩
  · exact followed_single rfl

structure BulkInv (s : Vc) (announced : List (UInt32 × Pagelist)) : Prop where
  received : s.received = announced
  retired : ∀ dir, (s.queue dir).retired ≤ (s.transfers dir).length
  holds : ∀ dir, (s.queue dir).Holds (s.outstanding dir)

variable {announced : List (UInt32 × Pagelist)}

theorem BulkInv.congr {s' : Vc} (h : BulkInv s announced) (hsame : ∀ dir, s'.queue dir = s.queue dir)
    (hsent : ∀ dir, s'.transfers dir = s.transfers dir) : BulkInv s' announced := by
  constructor
  · rw [← h.received, Vc.received, hsent, Vc.received]
  · intro dir
    rw [hsame, hsent]
    exact h.retired dir
  · intro dir
    rw [Vc.outstanding, hsame, hsent]
    exact h.holds dir

theorem transfers_snoc {s s' : Vc} {msg : Sent} (hsent : s'.sent = s.sent ++ [msg]) (dir : Direction) :
    s'.transfers dir = s.transfers dir ++ (msg.transfer dir).toList := by
  rw [Vc.transfers, hsent, List.filterMap_append, Vc.transfers]
  cases hm : msg.transfer dir with
  | none => simp only [List.filterMap_cons, hm, List.filterMap_nil, Option.toList_none]
  | some t => simp only [List.filterMap_cons, hm, List.filterMap_nil, Option.toList_some]

theorem BulkInv.message (h : BulkInv s announced) {msg : Sent} (hmsg : ∀ dir, msg.transfer dir = none) :
    BulkInv (s.queue_message_raw M msg).1 announced := by
  obtain ⟨hsame, hsent⟩ := queue_message_raw_same M s msg
  apply h.congr hsame.queue
  intro dir
  cases hok : (s.queue_message_raw M msg).2 with
  | true =>
    rw [hok] at hsent
    rw [transfers_snoc hsent, hmsg]
    exact List.append_nil _
  | false =>
    rw [hok] at hsent
    rw [Vc.transfers, hsent, Vc.transfers]
    exact congrArg _ (List.append_nil _)

/-! ### queue_bulk -/

theorem setQueue_queue (s : Vc) (q : BulkQueue) (dir : Direction) : (s.setQueue q dir).queue dir = q := by
  cases dir with
  | tx => rfl
  | rx => rfl

theorem setQueue_other (s : Vc) (q : BulkQueue) {dir d : Direction} (hne : d ≠ dir) :
    (s.setQueue q dir).queue d = s.queue d := by
  cases dir with
  | tx =>
    cases d with
    | tx => exact absurd rfl hne
    | rx => rfl
  | rx =>
    cases d with
    | tx => rfl
    | rx => exact absurd rfl hne

theorem setQueue_sent (s : Vc) (q : BulkQueue) (dir : Direction) : (s.setQueue q dir).sent = s.sent := by
  cases dir with
  | tx => rfl
  | rx => rfl

theorem bulkSpace_iff {dir : Direction} :
    s.bulkSpace dir = true ↔
      s.serviceOpen = true ∧ (s.queue dir).tail - (s.queue dir).head < BULK_QUEUE_DEPTH := by
  rw [Vc.bulkSpace, Bool.and_eq_true, decide_eq_true_iff]

theorem bulk_room (M : Machine) (s : Vc) (dir : Direction) (t : Transfer) :
    (s.queue_message_raw M (.bulk dir t)).2 = s.hasRoom M 8 := by
  have hsize : (Sent.bulk dir t).size = 8 := rfl
  rw [queue_message_raw_room, hsize]
  rw [hsize]
  decide

section

variable {dir : Direction} {busaddr size user : UInt32}

theorem queue_bulk_ok (hspace : s.bulkSpace dir = true) (hroom : s.hasRoom M 8 = true) :
    (s.queue_bulk M dir busaddr size user).2 = true := by
  let t := s.nextTransfer dir busaddr size user
  have hsent : ((s.setQueue ((s.queue dir).writePagelist t.pagelist) dir).queue_message_raw M
      (.bulk dir t)).2 = true := by
    rw [bulk_room, hasRoom_setQueue]
    exact hroom
  simp only [Vc.queue_bulk, if_pos hspace]
  rw [if_pos hsent]

/-- What `queue_bulk` has done to a queue and to the stream. -/
inductive Queued (s : Vc) (dir : Direction) (t : Transfer) : Vc × Bool → Prop where
  | refused {s' : Vc} (hsent : s'.sent = s.sent)
      (hqueue : s'.queue dir = s.queue dir ∨
        (s.queue dir).tail - (s.queue dir).head < BULK_QUEUE_DEPTH ∧
          s'.queue dir = (s.queue dir).writePagelist t.pagelist) : Queued s dir t (s', false)
  | sent {s' : Vc} (hsent : s'.sent = s.sent ++ [.bulk dir t])
      (hroom : (s.queue dir).tail - (s.queue dir).head < BULK_QUEUE_DEPTH)
      (hqueue : s'.queue dir = ((s.queue dir).writePagelist t.pagelist).claim t.user) : Queued s dir t (s', true)

theorem queue_bulk_queued (M : Machine) (s : Vc) (dir : Direction) (busaddr size user : UInt32) :
    Queued s dir (s.nextTransfer dir busaddr size user) (s.queue_bulk M dir busaddr size user) ∧
      ∀ d, d ≠ dir → (s.queue_bulk M dir busaddr size user).1.queue d = s.queue d := by
  by_cases hspace : s.bulkSpace dir = true
  · let t := s.nextTransfer dir busaddr size user
    let s₁ := s.setQueue ((s.queue dir).writePagelist t.pagelist) dir
    have hfree : (s.queue dir).tail - (s.queue dir).head < BULK_QUEUE_DEPTH :=
      (bulkSpace_iff.mp hspace).2
    obtain ⟨hsame, hsent⟩ := queue_message_raw_same M s₁ (.bulk dir t)
    cases hok : (s₁.queue_message_raw M (.bulk dir t)).2 with
    | true =>
      have hresult : s.queue_bulk M dir busaddr size user =
          ((s₁.queue_message_raw M (.bulk dir t)).1.setQueue
            (((s.queue dir).writePagelist t.pagelist).claim user) dir, true) := by
        simp only [Vc.queue_bulk, if_pos hspace]
        exact if_pos hok
      rw [hresult]
      rw [hok, setQueue_sent] at hsent
      constructor
      · apply Queued.sent
        · rw [setQueue_sent]
          exact hsent
        · exact hfree
        · exact setQueue_queue _ _ dir
      · intro d hne
        rw [setQueue_other _ _ hne, hsame.queue, setQueue_other _ _ hne]
    | false =>
      have hresult : s.queue_bulk M dir busaddr size user =
          ((s₁.queue_message_raw M (.bulk dir t)).1, false) := by
        simp only [Vc.queue_bulk, if_pos hspace]
        exact (if_neg (ne_true_of_eq_false hok)).trans (Prod.ext rfl hok)
      rw [hresult]
      rw [hok, setQueue_sent] at hsent
      constructor
      · apply Queued.refused
        · exact hsent.trans (List.append_nil _)
        · right
          refine ⟨hfree, ?_⟩
          rw [hsame.queue]
          exact setQueue_queue _ _ dir
      · intro d hne
        rw [hsame.queue, setQueue_other _ _ hne]
  · have hresult : s.queue_bulk M dir busaddr size user = (s, false) := by
      simp only [Vc.queue_bulk, if_neg hspace]
    rw [hresult]
    exact ⟨.refused rfl (.inl rfl), fun d _ => rfl⟩

end

theorem Queued.stream {dir : Direction} {t : Transfer} {r : Vc × Bool} (h : Queued s dir t r) :
    r.1.sent = s.sent ++ if r.2 then [.bulk dir t] else [] := by
  cases h with
  | refused hsent hqueue => exact hsent.trans (List.append_nil _).symm
  | sent hsent hroom hqueue => exact hsent

def Transfer.awaited (t : Transfer) : Direction → List (UInt32 × Pagelist)
  | .tx => []
  | .rx => if t.user ≠ 0 then [(t.user, t.pagelist)] else []

theorem received_snoc {s s' : Vc} {dir : Direction} {t : Transfer} (hsent : s'.sent = s.sent ++ [.bulk dir t]) :
    s'.received = s.received ++ t.awaited dir := by
  rw [Vc.received, transfers_snoc hsent, List.filter_append, List.map_append, Vc.received]
  congr 1
  cases dir with
  | tx => rfl
  | rx =>
    simp only [Sent.transfer, Transfer.awaited, if_true, Option.toList_some]
    by_cases huser : t.user ≠ 0
    · have hfilter : [t].filter (fun t => t.user ≠ 0) = [t] := List.filter_cons_of_pos (decide_eq_true huser)
      rw [hfilter, if_pos huser]
      rfl
    · have hfilter : [t].filter (fun t => t.user ≠ 0) = [] := List.filter_cons_of_neg (by simpa using huser)
      rw [hfilter, if_neg huser]
      rfl

theorem BulkInv.queued {dir : Direction} {t : Transfer} {r : Vc × Bool} (h : BulkInv s announced)
    (hq : Queued s dir t r) (hindex : t.index = entry (s.queue dir).tail)
    (hother : ∀ d, d ≠ dir → r.1.queue d = s.queue d) :
    BulkInv r.1 (announced ++ if r.2 then t.awaited dir else []) := by
  cases hq with
  | @refused s' hsent hqueue =>
    rw [if_neg Bool.false_ne_true, List.append_nil]
    have htransfers : ∀ d, s'.transfers d = s.transfers d := by
      intro d
      rw [Vc.transfers, hsent, Vc.transfers]
    constructor
    · rw [← h.received, Vc.received, htransfers, Vc.received]
    · intro d
      rw [htransfers]
      by_cases hd : d = dir
      · subst hd
        rcases hqueue with hsame | ⟨-, hwrite⟩
        · rw [hsame]
          exact h.retired d
        · rw [hwrite]
          exact h.retired d
      · rw [hother d hd]
        exact h.retired d
    · intro d
      rw [Vc.outstanding, htransfers]
      by_cases hd : d = dir
      · subst hd
        rcases hqueue with hsame | ⟨hroom, hwrite⟩
        · rw [hsame]
          exact h.holds d
        · rw [hwrite]
          exact (h.holds d).write hroom t.pagelist
      · rw [hother d hd]
        exact h.holds d
  | @sent s' hsent hroom hqueue =>
    rw [if_pos rfl]
    constructor
    · rw [received_snoc hsent, h.received]
    · intro d
      rw [transfers_snoc hsent, List.length_append]
      apply Nat.le_trans _ (Nat.le_add_right _ _)
      by_cases hd : d = dir
      · subst hd
        rw [hqueue]
        exact h.retired d
      · rw [hother d hd]
        exact h.retired d
    · intro d
      rw [Vc.outstanding, transfers_snoc hsent]
      by_cases hd : d = dir
      · subst hd
        have hclaim := (h.holds d).claim hroom t.pagelist t.user
        have hretired : (s'.queue d).retired = (s.queue d).retired := by
          rw [hqueue]
          rfl
        have hself : Sent.transfer d (.bulk d t) = some t := if_pos rfl
        rw [← hindex] at hclaim
        rw [hretired, List.drop_append_of_le_length (h.retired d), hself, hqueue]
        exact hclaim
      · have hnone : Sent.transfer d (.bulk dir t) = none := if_neg (Ne.symm hd)
        rw [hother d hd, hnone, Option.toList_none, List.append_nil]
        exact h.holds d

theorem BulkInv.queue_bulk (h : BulkInv s announced) (M : Machine) (dir : Direction) (busaddr size user : UInt32) :
    BulkInv (s.queue_bulk M dir busaddr size user).1
      (announced ++ if (s.queue_bulk M dir busaddr size user).2
        then (s.nextTransfer dir busaddr size user).awaited dir else []) := by
  obtain ⟨hqueued, hother⟩ := queue_bulk_queued M s dir busaddr size user
  exact h.queued hqueued rfl hother

theorem BulkInv.queue_unawaited (h : BulkInv s announced) {dir : Direction} {user : UInt32}
    (hnone : dir = .tx ∨ user = 0) (busaddr size : UInt32) :
    BulkInv (s.queue_bulk M dir busaddr size user).1 announced := by
  have hempty : (s.nextTransfer dir busaddr size user).awaited dir = [] := by
    rcases hnone with rfl | rfl
    · rfl
    · cases dir with
      | tx => rfl
      | rx => simp only [Vc.nextTransfer, Transfer.awaited, ne_eq, not_true_eq_false, if_false]
  have hqueued := h.queue_bulk M dir busaddr size user
  rw [hempty, ite_self, List.append_nil] at hqueued
  exact hqueued

theorem BulkInv.done (h : BulkInv s announced) (dir : Direction) : BulkInv (s.bulk_done dir).1 announced := by
  by_cases hempty : (s.queue dir).head = (s.queue dir).tail
  · simp only [Vc.bulk_done, if_pos hempty]
    exact h
  · simp only [Vc.bulk_done, if_neg hempty]
    have htransfers : ∀ q d, (s.setQueue q dir).transfers d = s.transfers d := by
      intro q d
      rw [Vc.transfers, setQueue_sent, Vc.transfers]
    have hpos := BulkQueue.count_pos hempty
    have hlength := (h.holds dir).length
    rw [Vc.outstanding, List.length_drop] at hlength
    constructor
    · rw [← h.received, Vc.received, htransfers, Vc.received]
    · intro d
      rw [htransfers]
      by_cases hd : d = dir
      · subst hd
        rw [setQueue_queue]
        show (s.queue d).retired + 1 ≤ _
        omega
      · rw [setQueue_other _ _ hd]
        exact h.retired d
    · intro d
      rw [Vc.outstanding, htransfers]
      by_cases hd : d = dir
      · subst hd
        rw [setQueue_queue, ← List.tail_drop]
        exact (h.holds d).retire hempty _
      · rw [setQueue_other _ _ hd]
        exact h.holds d

end

/-! ### The client -/

def Vc.hasEntry (s : Vc) : Prop := s.bulkTx.tail - s.bulkTx.head < BULK_QUEUE_DEPTH

structure Inv (M : Machine) (s : Vc) (announced : List (UInt32 × Pagelist)) (main : Main) : Prop where
  transmit : Followed M s.sent
  bulk : BulkInv s announced
  secured : main = .flushMessage → s.hasEntry

section

variable {M : Machine} {s : Vc} {announced : List (UInt32 × Pagelist)} {main : Main}

theorem Inv.message (h : Inv M s announced main) {msg : Sent} (hpayload : msg.payload M = none)
    (htransfer : ∀ dir, msg.transfer dir = none) : Inv M (s.queue_message_raw M msg).1 announced main := by
  obtain ⟨hsame, hsent⟩ := queue_message_raw_same M s msg
  constructor
  · rw [hsent]
    apply followed_append h.transmit
    split
    · exact followed_single hpayload
    · exact trivial
  · exact h.bulk.message htransfer
  · intro hmain
    rw [Vc.hasEntry, hsame.bulkTx]
    exact h.secured hmain

theorem Inv.queue_message (h : Inv M s announced main) {msg : Sent} (hpayload : msg.payload M = none)
    (htransfer : ∀ dir, msg.transfer dir = none) : Inv M (s.vchiq_queue_message M msg).1 announced main := by
  unfold Vc.vchiq_queue_message
  split
  · exact h.message hpayload htransfer
  · exact h

theorem queue_message_refused {msg : Sent} (hrefused : (s.vchiq_queue_message M msg).2 = false) :
    SameBulk s (s.vchiq_queue_message M msg).1 ∧ (s.vchiq_queue_message M msg).1.sent = s.sent := by
  unfold Vc.vchiq_queue_message at hrefused ⊢
  by_cases hopen : s.serviceOpen = true
  · rw [if_pos hopen] at hrefused ⊢
    obtain ⟨hsame, hsent⟩ := queue_message_raw_same M s msg
    rw [hrefused] at hsent
    exact ⟨hsame, hsent.trans (List.append_nil _)⟩
  · rw [if_neg hopen]
    exact ⟨⟨rfl, rfl, rfl⟩, rfl⟩

theorem Inv.refused (h : Inv M s announced main) {msg : Sent}
    (hrefused : (s.vchiq_queue_message M msg).2 = false) :
    Inv M (s.vchiq_queue_message M msg).1 announced main := by
  obtain ⟨hsame, hsent⟩ := queue_message_refused hrefused
  constructor
  · rw [hsent]
    exact h.transmit
  · apply h.bulk.congr hsame.queue
    intro dir
    rw [Vc.transfers, hsent, Vc.transfers]
  · intro hmain
    rw [Vc.hasEntry, hsame.bulkTx]
    exact h.secured hmain

theorem Inv.receive (h : Inv M s announced main) (busaddr size user : UInt32) :
    Inv M (s.vchiq_bulk_receive M busaddr size user).1
      (announced ++ if (s.vchiq_bulk_receive M busaddr size user).2
        then (s.nextTransfer .rx busaddr size user).awaited .rx else []) main := by
  obtain ⟨hqueued, hother⟩ := queue_bulk_queued M s .rx busaddr size user
  constructor
  · rw [Vc.vchiq_bulk_receive, hqueued.stream]
    apply followed_append h.transmit
    split
    · exact followed_single rfl
    · exact trivial
  · exact h.bulk.queue_bulk M .rx busaddr size user
  · intro hmain
    have htx : (s.vchiq_bulk_receive M busaddr size user).1.bulkTx = s.bulkTx := hother .tx nofun
    rw [Vc.hasEntry, htx]
    exact h.secured hmain

theorem Inv.done (h : Inv M s announced main) (dir : Direction) : Inv M (s.bulk_done dir).1 announced main := by
  have hbulk := h.bulk.done dir
  by_cases hempty : (s.queue dir).head = (s.queue dir).tail
  · simp only [Vc.bulk_done, if_pos hempty]
    exact h
  · simp only [Vc.bulk_done, if_neg hempty] at hbulk ⊢
    constructor
    · rw [setQueue_sent]
      exact h.transmit
    · exact hbulk
    · intro hmain
      have hentry := h.secured hmain
      cases dir with
      | rx => exact hentry
      | tx =>
        have hlt := BulkQueue.count_lt hentry
        have hcount := BulkQueue.count_retire hempty
        apply UInt32.lt_iff_toNat_lt.mpr
        exact hcount.trans_lt (Nat.lt_of_le_of_lt (Nat.sub_le _ _) hlt)

theorem buffer_room (hopen : s.serviceOpen = true) {msg : Sent} (hsize : msg.size = BUFFER_MESSAGE_SIZE) :
    (s.vchiq_queue_message M msg).2 = s.hasRoom M BUFFER_MESSAGE_SIZE ∧
      ∀ size, (s.vchiq_queue_message M msg).1.hasRoom M size =
        (s.reserve_space M (CALC_STRIDE BUFFER_MESSAGE_SIZE)).1.hasRoom M size := by
  have hstride : CALC_STRIDE msg.size ≤ VCHIQ_SLOT_SIZE := by
    rw [hsize]
    decide
  rw [Vc.vchiq_queue_message, if_pos hopen]
  rw [← hsize]
  exact ⟨queue_message_raw_room hstride, queue_message_raw_positions hstride⟩

theorem Inv.pair (h : Inv M s announced main) (hspace : s.bulkSpace .tx = true) (hroom : s.RoomForBoth M)
    {msg : Sent} {busaddr size : UInt32} (hsize : msg.size = BUFFER_MESSAGE_SIZE)
    (hpayload : msg.payload M = some (pagelist .tx busaddr size)) (htransfer : ∀ dir, msg.transfer dir = none)
    (hok : (s.vchiq_queue_message M msg).2 = true) (user : UInt32) {main' : Main} (hmain : main' ≠ .flushMessage) :
    Inv M ((s.vchiq_queue_message M msg).1.vchiq_bulk_transmit M busaddr size user).1 announced main' := by
  have hopen := (bulkSpace_iff.mp hspace).1
  obtain ⟨hfirst, hpositions⟩ := buffer_room (M := M) hopen hsize
  have hsecond : (s.vchiq_queue_message M msg).1.hasRoom M 8 = true := by
    rw [hpositions]
    exact hroom (hfirst.symm.trans hok)
  have hraw : s.vchiq_queue_message M msg = s.queue_message_raw M msg := if_pos hopen
  obtain ⟨hsame, hsent⟩ := queue_message_raw_same M s msg
  rw [hraw] at hok hsecond ⊢
  rw [hok, if_pos rfl] at hsent
  have hsent' := (queue_bulk_queued M (s.queue_message_raw M msg).1 .tx busaddr size user).1.stream
  have hspace' : (s.queue_message_raw M msg).1.bulkSpace .tx = true := by
    rw [hsame.bulkSpace]
    exact hspace
  rw [queue_bulk_ok hspace' hsecond, if_pos rfl, hsent, List.append_assoc] at hsent'
  constructor
  · rw [Vc.vchiq_bulk_transmit, hsent']
    exact followed_append h.transmit (followed_pair hpayload rfl)
  · exact (h.bulk.message htransfer).queue_unawaited (.inl rfl) busaddr size
  · intro hm
    exact absurd hm hmain

end

/-! ### Steps of the world -/

def World.Inv (M : Machine) (w : World) : Prop := Mmal.Inv M w.vc w.announced w.main

section

variable {M : Machine} {w : World}

theorem announces_iff (msg : BufferToHost) :
    msg.announces = true ↔
      (msg.isZeroCopy = 0 ∧ (msg.length ≠ 0 ∨ msg.flags &&& MMAL_BUFFER_HEADER_FLAG_EOS ≠ 0)) ∧
        msg.payloadInMessage = 0 := by
  simp only [BufferToHost.announces, Bool.and_eq_true, Bool.or_eq_true, decide_eq_true_iff, ne_eq]

theorem handle_buffer_to_host_vc (M : Machine) (w : World) (msg : BufferToHost) :
    (w.handle_buffer_to_host M msg).announced = w.announced ∧ (w.handle_buffer_to_host M msg).main = w.main ∧
      (w.handle_buffer_to_host M msg).vc =
        if msg.announces = true ∧ msg.clientContext ≠ 0 ∧
            ¬ (w.buffers msg.clientContext).allocSize < msg.offset + msg.length
        then (w.vc.vchiq_bulk_receive M ((w.buffers msg.clientContext).busaddr + msg.offset) msg.bulkLength
          msg.clientContext).1
        else w.vc := by
  by_cases hzero : msg.clientContext = 0
  · rw [if_neg fun h => h.2.1 hzero]
    simp only [World.handle_buffer_to_host, if_pos hzero, and_self]
  by_cases hbig : (w.buffers msg.clientContext).allocSize < msg.offset + msg.length
  · rw [if_neg fun h => h.2.2 hbig]
    simp only [World.handle_buffer_to_host, if_neg hzero, World.setBuffer, Function.update_self, if_pos hbig]
    exact ⟨rfl, rfl, rfl⟩
  by_cases hdata : msg.isZeroCopy = 0 ∧ (msg.length ≠ 0 ∨ msg.flags &&& MMAL_BUFFER_HEADER_FLAG_EOS ≠ 0)
  · by_cases hbulk : msg.payloadInMessage = 0
    · rw [if_pos ⟨(announces_iff msg).mpr ⟨hdata, hbulk⟩, hzero, hbig⟩]
      simp only [World.handle_buffer_to_host, if_neg hzero, World.setBuffer, Function.update_self, if_neg hbig,
        if_pos hdata, if_pos hbulk]
      split
      · exact ⟨rfl, rfl, rfl⟩
      · exact ⟨rfl, rfl, rfl⟩
    · rw [if_neg fun h => hbulk ((announces_iff msg).mp h.1).2]
      simp only [World.handle_buffer_to_host, if_neg hzero, World.setBuffer, Function.update_self, if_neg hbig,
        if_pos hdata, if_neg hbulk]
      split
      · exact ⟨rfl, rfl, rfl⟩
      · exact ⟨rfl, rfl, rfl⟩
  · rw [if_neg fun h => hdata ((announces_iff msg).mp h.1).1]
    simp only [World.handle_buffer_to_host, if_neg hzero, World.setBuffer, Function.update_self, if_neg hbig,
      if_neg hdata]
    exact ⟨rfl, rfl, rfl⟩

theorem World.Inv.bufferToHost (h : w.Inv M) {msg : BufferToHost}
    (hp : Plain M w (.incoming (.data (.bufferToHost msg)))) : (w.on_data M (.bufferToHost msg)).Inv M := by
  obtain ⟨hannounced, hmain, hvc⟩ := handle_buffer_to_host_vc M (w.announce msg) msg
  unfold World.Inv World.on_data
  rw [hannounced, hmain, hvc]
  by_cases hann : msg.announces = true
  · obtain ⟨hctx, hfits, hspace, hroom⟩ := hp hann
    have hworld : w.announce msg = { w with announced := w.announced ++ [w.announcement msg] } := if_pos hann
    have hreceive := Mmal.Inv.receive h ((w.buffers msg.clientContext).busaddr + msg.offset) msg.bulkLength
      msg.clientContext
    have hok : (w.vc.vchiq_bulk_receive M ((w.buffers msg.clientContext).busaddr + msg.offset) msg.bulkLength
        msg.clientContext).2 = true := queue_bulk_ok hspace hroom
    have hawaited : (w.vc.nextTransfer .rx ((w.buffers msg.clientContext).busaddr + msg.offset) msg.bulkLength
        msg.clientContext).awaited .rx = [w.announcement msg] := if_pos hctx
    rw [hok, if_pos rfl, hawaited] at hreceive
    rw [hworld, if_pos ⟨hann, hctx, UInt32.not_lt.mpr hfits⟩]
    exact hreceive
  · have hworld : w.announce msg = w := if_neg hann
    rw [hworld, if_neg fun hc => hann hc.1]
    exact h

theorem World.Inv.turn (h : w.Inv M) (hp : Plain M w .turn) : (w.turn M).Inv M := by
  cases hm : w.main with
  | idle =>
    simp only [World.turn, hm]
    exact h
  | sendwait size =>
    simp only [World.turn, hm]
    have hsent : Mmal.Inv M (w.vc.vchiq_queue_message M (.call size)).1 w.announced w.main :=
      Inv.queue_message h rfl fun _ => rfl
    constructor
    · exact hsent.transmit
    · exact hsent.bulk
    · intro hmain
      simp only at hmain
      split at hmain
      · exact absurd hmain nofun
      · exact absurd hmain nofun
  | flushSpace =>
    simp only [World.turn, hm]
    split
    · rename_i hspace
      exact ⟨h.transmit, h.bulk, fun _ => (bulkSpace_iff.mp hspace).2⟩
    · exact h
  | flushMessage =>
    simp only [World.turn, hm]
    split
    · rename_i hok
      have hopen : w.vc.serviceOpen = true := by
        cases hopen : w.vc.serviceOpen with
        | true => rfl
        | false =>
          simp only [Vc.vchiq_queue_message, hopen, Bool.false_eq_true, if_false] at hok
      have hspace : w.vc.bulkSpace .tx = true := bulkSpace_iff.mpr ⟨hopen, h.secured hm⟩
      exact Mmal.Inv.pair h hspace (hp hm) rfl rfl (fun _ => rfl) hok 0 nofun
    · rename_i hok
      have hrefused := Mmal.Inv.refused h (Bool.eq_false_iff.mpr hok)
      rw [hm] at hrefused
      exact hrefused
  | reply =>
    simp only [World.turn, hm]
    split
    · exact ⟨h.transmit, h.bulk, nofun⟩
    · exact h

theorem bufferFromHost_payload {buf : Buffer} {zeroLength : Bool} {p : UInt32} (hneeds : buf.needsBulk = true) :
    (buf.length ≠ 0 ∧ (Sent.bufferFromHost zeroLength p buf).payload M =
        some (pagelist .tx (buf.busaddr + buf.offset) buf.length)) ∨
      (buf.length = 0 ∧ buf.zeroLength = true ∧
        (Sent.bufferFromHost zeroLength p buf).payload M = some (pagelist .tx M.dummyBus 8)) := by
  by_cases hlength : buf.length = 0
  · right
    have hzero : buf.zeroLength = true := by
      simpa only [Buffer.needsBulk, hlength, ne_eq, not_true_eq_false, decide_false, Bool.false_or] using hneeds
    refine ⟨hlength, hzero, ?_⟩
    simp only [Sent.payload, hlength, ne_eq, not_true_eq_false, if_false, hzero, if_true]
  · exact .inl ⟨hlength, if_pos hlength⟩

theorem World.Inv.submit (h : w.Inv M) {port p : UInt32}
    (hmain : (w.buffers p).needsBulk = true → w.main ≠ .flushMessage)
    (hp : Plain M w (.submit port p)) : (w.mmal_vc_submit_buffer M port p).1.Inv M := by
  by_cases hinited : w.inited = false
  · simp only [World.mmal_vc_submit_buffer, if_pos hinited]
    exact h
  by_cases hfull : (w.buffers p).needsBulk = true ∧ ¬ w.vc.bulkSpace .tx = true
  · simp only [World.mmal_vc_submit_buffer, if_neg hinited, if_pos hfull]
    exact h
  cases hok : (w.vc.vchiq_queue_message M
      (.bufferFromHost (w.buffers p).zeroLength p (w.buffers p))).2 with
  | false =>
    simp only [World.mmal_vc_submit_buffer, if_neg hinited, if_neg hfull, hok, Bool.false_eq_true, if_false]
    exact Mmal.Inv.refused h hok
  | true =>
    simp only [World.mmal_vc_submit_buffer, if_neg hinited, if_neg hfull, hok, if_true]
    by_cases hneeds : (w.buffers p).needsBulk = true
    · have hspace : w.vc.bulkSpace .tx = true := by
        by_contra hnot
        exact hfull ⟨hneeds, hnot⟩
      rcases bufferFromHost_payload (M := M) (p := p) hneeds with ⟨hlength, hpayload⟩ | ⟨hlength, hzero, hpayload⟩
      · rw [if_pos hlength]
        exact Mmal.Inv.pair h hspace (hp hneeds) rfl hpayload (fun _ => rfl) hok p (hmain hneeds)
      · rw [if_neg fun hne => hne hlength, if_pos hzero]
        exact Mmal.Inv.pair h hspace (hp hneeds) rfl hpayload (fun _ => rfl) hok 0 (hmain hneeds)
    · have hnone : (w.buffers p).length = 0 ∧ (w.buffers p).zeroLength = false := by
        simpa only [Buffer.needsBulk, Bool.or_eq_true, decide_eq_true_iff, not_or, ne_eq, not_not,
          Bool.not_eq_true] using hneeds
      have hzero : ¬ (w.buffers p).zeroLength = true := by
        rw [hnone.2]
        exact Bool.false_ne_true
      rw [if_neg fun hne => hne hnone.1, if_neg hzero]
      apply Mmal.Inv.queue_message h
      · exact (if_neg fun hne => hne hnone.1).trans (if_neg hzero)
      · exact fun _ => rfl

theorem World.Inv.rxDone (h : w.Inv M) (actual : Int32) : (w.parse_message M (.bulkRxDone actual)).Inv M := by
  have hdone := Mmal.Inv.done h .rx
  cases hr : (w.vc.bulk_done .rx).2 with
  | none =>
    simp only [World.parse_message, hr]
    exact hdone
  | some p =>
    simp only [World.parse_message, hr]
    unfold World.bulk_rx_done
    split
    · exact hdone
    · split
      · exact hdone
      · exact hdone

theorem World.Inv.incoming (h : w.Inv M) {m : Incoming} (hp : Plain M w (.incoming m)) :
    (w.parse_message M m).Inv M := by
  cases m with
  | openAck => exact ⟨h.transmit, h.bulk.congr (fun dir => by cases dir <;> rfl) (fun _ => rfl), h.secured⟩
  | close =>
    have hsent : Mmal.Inv M (w.vc.queue_message_raw M .close).1 w.announced w.main :=
      Inv.message h rfl fun _ => rfl
    exact ⟨hsent.transmit, hsent.bulk.congr (fun dir => by cases dir <;> rfl) (fun _ => rfl), hsent.secured⟩
  | data d =>
    cases d with
    | bad => exact h
    | bufferToHost msg => exact h.bufferToHost hp
    | eventToHost length =>
      simp only [World.parse_message, World.on_data]
      split
      · have hreceive := Mmal.Inv.receive (M := M) h M.dummyBus
          (if 4096 < (length + 3) &&& ~~~3 then 4096 else (length + 3) &&& ~~~3) 0
        have hnone : (w.vc.nextTransfer .rx M.dummyBus
            (if 4096 < (length + 3) &&& ~~~3 then 4096 else (length + 3) &&& ~~~3) 0).awaited .rx = [] := rfl
        rw [hnone, ite_self, List.append_nil] at hreceive
        exact hreceive
      · exact h
    | reply context =>
      simp only [World.parse_message, World.on_data]
      split
      · exact h
      · exact h
  | bulkTxDone actual => exact Mmal.Inv.done h .tx
  | bulkRxDone actual => exact h.rxDone actual
  | pause =>
    have hpause : Mmal.Inv M (w.vc.queue_message_raw M .pause).1 w.announced w.main :=
      Inv.message h rfl fun _ => rfl
    exact Mmal.Inv.message hpause rfl fun _ => rfl
  | other => exact h

theorem World.Inv.step (h : w.Inv M) {e : Event} (hp : Plain M w e) : (w.step M e).Inv M := by
  cases e with
  | fill p buf => exact h
  | submit port p =>
    cases hm : w.main with
    | idle =>
      simp only [World.step, hm]
      exact h.submit (fun _ => by rw [hm]; exact nofun) hp
    | _ =>
      simp only [World.step, hm]
      split
      · exact h
      · rename_i hnone
        exact h.submit (fun hneeds => absurd hneeds hnone) hp
  | flush =>
    cases hm : w.main with
    | idle =>
      simp only [World.step, hm]
      exact ⟨h.transmit, h.bulk, nofun⟩
    | _ =>
      simp only [World.step, hm]
      exact h
  | call size =>
    cases hm : w.main with
    | idle =>
      cases hi : w.inited with
      | true =>
        simp only [World.step, hm, hi]
        exact ⟨h.transmit, h.bulk, nofun⟩
      | false =>
        simp only [World.step, hm, hi]
        exact h
    | _ =>
      simp only [World.step, hm]
      exact h
  | turn => exact h.turn hp
  | timeout =>
    cases hm : w.main with
    | idle =>
      simp only [World.step, hm]
      exact h
    | _ =>
      simp only [World.step, hm]
      exact ⟨h.transmit, h.bulk, nofun⟩
  | incoming m => exact h.incoming hp

end

/-! ### A run -/

section

variable {M : Machine}

theorem Inv.initial (txPos available : UInt32) (buffers : UInt32 → Buffer)
    (pagelists : Direction → Fin 4 → Pagelist) : (World.initial txPos available buffers pagelists).Inv M := by
  have hempty : ∀ dir, ((World.initial txPos available buffers pagelists).vc.queue dir).Holds [] := by
    intro dir
    cases dir with
    | tx => exact BulkQueue.holds_fresh _ _
    | rx => exact BulkQueue.holds_fresh _ _
  constructor
  · exact trivial
  · constructor
    · rfl
    · intro dir
      cases dir with
      | tx => exact Nat.le_refl 0
      | rx => exact Nat.le_refl 0
    · intro dir
      have hnone : (World.initial txPos available buffers pagelists).vc.outstanding dir = [] := List.drop_nil
      rw [hnone]
      exact hempty dir
  · exact nofun

theorem World.Inv.paired {w : World} (h : w.Inv M) : Paired M w := by
  constructor
  · exact h.transmit
  · exact h.bulk.received
  · exact fun dir => (h.bulk.holds dir).intact.1
  · exact fun dir => (h.bulk.holds dir).intact.2

theorem submit_refused {w : World} {port p : UInt32} (hrefused : (w.mmal_vc_submit_buffer M port p).2 = false) :
    (w.mmal_vc_submit_buffer M port p).1.vc.sent = w.vc.sent := by
  by_cases hinited : w.inited = false
  · simp only [World.mmal_vc_submit_buffer, if_pos hinited]
  by_cases hfull : (w.buffers p).needsBulk = true ∧ ¬ w.vc.bulkSpace .tx = true
  · simp only [World.mmal_vc_submit_buffer, if_neg hinited, if_pos hfull]
  cases hok : (w.vc.vchiq_queue_message M
      (.bufferFromHost (w.buffers p).zeroLength p (w.buffers p))).2 with
  | false =>
    simp only [World.mmal_vc_submit_buffer, if_neg hinited, if_neg hfull, hok, Bool.false_eq_true, if_false]
    exact (queue_message_refused hok).2
  | true =>
    simp only [World.mmal_vc_submit_buffer, if_neg hinited, if_neg hfull, hok, if_true] at hrefused
    exact absurd hrefused.symm Bool.false_ne_true

theorem refusedUnsent (w : World) (e : Event) : RefusedUnsent M ⟨w, e, w.step M e⟩ := by
  rintro port p rfl hrefused
  cases hm : w.main with
  | idle =>
    simp only [World.step, hm]
    exact submit_refused hrefused
  | _ =>
    simp only [World.step, hm]
    split
    · rfl
    · exact submit_refused hrefused

theorem mmal_pairing (M : Machine) (txPos available : UInt32) (buffers : UInt32 → Buffer)
    (pagelists : Direction → Fin 4 → Pagelist) (events : List Event)
    (hplain : ∀ st ∈ history (World.step M) (World.initial txPos available buffers pagelists) events,
      Plain M st.pre st.op) :
    Paired M (final (World.step M) (World.initial txPos available buffers pagelists) events) ∧
      ∀ st ∈ history (World.step M) (World.initial txPos available buffers pagelists) events,
        RefusedUnsent M st := by
  constructor
  · have hinv := (History.guarded_induction (World.step M) (World.Inv M) (Plain M)
      (Inv.initial txPos available buffers pagelists) (fun w e h hp => World.Inv.step h hp) events hplain).1
    exact hinv.paired
  · intro st hst
    obtain ⟨before, op, after, -, rfl⟩ := History.mem_history (World.step M) hst
    exact refusedUnsent _ op

instance (M : Machine) (s : Vc) : Decidable (s.RoomForBoth M) := inferInstanceAs (Decidable (_ → _))

instance (M : Machine) (w : World) : (e : Event) → Decidable (Plain M w e)
  | .submit .. | .turn => inferInstanceAs (Decidable (_ → _))
  | .incoming (.data (.bufferToHost _)) => inferInstanceAs (Decidable (_ → _))
  | .fill .. | .flush | .call _ | .timeout | .incoming .openAck | .incoming .close | .incoming (.data .bad)
  | .incoming (.data (.eventToHost _)) | .incoming (.data (.reply _)) | .incoming (.bulkTxDone _)
  | .incoming (.bulkRxDone _) | .incoming .pause | .incoming .other => inferInstanceAs (Decidable True)

end

def noneBack : Machine := ⟨0xC1000000, fun _ => 15⟩

def blank : Buffer := ⟨0, 0, 0, 0, 0, 0, 0, 0, false⟩

def fiveBytes : Buffer := { blank with busaddr := 0xC2000000, allocSize := 4096, length := 5 }

def exchange : List Event :=
  [.fill 256 fiveBytes, .submit 1 256, .incoming (.bulkTxDone 5), .flush, .turn, .turn, .incoming (.data (.reply 1)),
    .turn, .incoming (.data (.bufferToHost ⟨256, 0, 0, 4, 0, 0, 0, 0⟩)), .incoming (.bulkRxDone 4)]

theorem mmal_pairing_exchange :
    (Paired noneBack
        (final (World.step noneBack) (World.initial 0 15 (fun _ => blank) fun _ _ => ⟨0, 0, 0, 0⟩) exchange) ∧
      ∀ st ∈ history (World.step noneBack) (World.initial 0 15 (fun _ => blank) fun _ _ => ⟨0, 0, 0, 0⟩) exchange,
        RefusedUnsent noneBack st) ∧
      (final (World.step noneBack) (World.initial 0 15 (fun _ => blank) fun _ _ => ⟨0, 0, 0, 0⟩)
        exchange).vc.sent.length = 5 :=
  ⟨mmal_pairing noneBack 0 15 _ _ exchange (by decide +kernel), by decide +kernel⟩

/-- The last 304 bytes of the slots are taken by the message; it is sent, `mmal_vc_submit_buffer` returns true,
and its payload is never announced. -/
theorem message_without_bulk :
    ¬ Paired noneBack (final (World.step noneBack)
      (World.initial (15 * 4096 - 304) 15 (fun _ => blank) fun _ _ => ⟨0, 0, 0, 0⟩)
      [.fill 256 fiveBytes, .submit 1 256]) := by
  intro h
  have hsent : (final (World.step noneBack)
      (World.initial (15 * 4096 - 304) 15 (fun _ => blank) fun _ _ => ⟨0, 0, 0, 0⟩)
      [.fill 256 fiveBytes, .submit 1 256]).vc.sent = [.bufferFromHost false 256 fiveBytes] := by decide +kernel
  have hfollowed := h.transmit
  rw [hsent] at hfollowed
  obtain ⟨t, rest, hrest, -⟩ := hfollowed.1 (pagelist .tx (0xC2000000 + 0) 5) rfl
  exact absurd hrest nofun

end Pi1MHz.Mmal
