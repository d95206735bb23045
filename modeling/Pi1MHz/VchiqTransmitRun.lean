import Mathlib.Data.List.Nodup
import Pi1MHz.VchiqReceive
import Pi1MHz.VchiqTransmit
import Pi1MHz.FinSizes

/-!
# VCHIQ: what the VideoCore reads

The positions of both sides are counted without wrapping: the stream is published up to `T`, the
VideoCore has granted `G` slots and `queue_message_raw` knows of `A` of them.
-/

namespace Pi1MHz.Vchiq

open SlotMemory History FinSizes

/-! ### A flat stream -/

def Tx.flat (s : Tx) : Memory Unit := fun _ x =>
  s.mem (s.slotQueue (Fin.ofNat 64 (x / SLOT))) (x % SLOT)

def Agree (f g : Memory Unit) (lo hi : Nat) : Prop := ∀ x, lo ≤ x → x < hi → g () x = f () x

structure Holds (f : Memory Unit) (pos : Nat) (m : Message) : Prop where
  inside : pos % SLOT + stride m.size.toNat ≤ SLOT
  msgid : load32 f () pos = m.msgid
  size : load32 f () (pos + 4) = m.size
  payload : loadBytes f () (pos + HEADER) m.size.toNat = m.payload

inductive Stream (f : Memory Unit) : Nat → Nat → List Message → Prop where
  | done (pos : Nat) : Stream f pos pos []
  | message {pos last : Nat} {m : Message} {ms : List Message} (hm : Holds f pos m)
      (hrest : Stream f (pos + stride m.size.toNat) last ms) : Stream f pos last (m :: ms)

theorem Agree.mono {f g : Memory Unit} {lo hi lo' hi' : Nat} (h : Agree f g lo hi) (hlo : lo ≤ lo')
    (hhi : hi' ≤ hi) : Agree f g lo' hi' := by
  intro x hx hx'
  exact h x (Nat.le_trans hlo hx) (Nat.lt_of_lt_of_le hx' hhi)

theorem Holds.congr {f g : Memory Unit} {pos : Nat} {m : Message} (h : Holds f pos m)
    (hfg : Agree f g pos (pos + stride m.size.toNat)) : Holds g pos m := by
  obtain ⟨-, hroom, -⟩ := stride_spec m.size.toNat
  have h8 : HEADER = 8 := rfl
  constructor
  · exact h.inside
  · rw [← h.msgid]
    apply load32_congr
    intro i hi
    apply hfg <;> omega
  · rw [← h.size]
    apply load32_congr
    intro i hi
    apply hfg <;> omega
  · refine Eq.trans (loadBytes_congr ?_) h.payload
    intro i hi
    apply hfg <;> omega

theorem Stream.le {f : Memory Unit} {pos last : Nat} {ms : List Message} (h : Stream f pos last ms) :
    pos ≤ last := by
  induction h with
  | done pos => exact Nat.le_refl pos
  | message hm hrest ih => exact Nat.le_trans (Nat.le_add_right _ _) ih

theorem Stream.congr {f g : Memory Unit} {pos last : Nat} {ms : List Message} (h : Stream f pos last ms)
    (hfg : Agree f g pos last) : Stream g pos last ms := by
  induction h with
  | done pos => exact .done pos
  | message hm hrest ih =>
    have hle := hrest.le
    apply Stream.message
    · exact hm.congr (hfg.mono (Nat.le_refl _) hle)
    · exact ih (hfg.mono (Nat.le_add_right _ _) (Nat.le_refl _))

theorem Stream.append {f : Memory Unit} {pos mid last : Nat} {ms ms' : List Message}
    (h : Stream f pos mid ms) (h' : Stream f mid last ms') : Stream f pos last (ms ++ ms') := by
  induction h with
  | done pos => exact h'
  | message hm hrest ih => exact .message hm (ih h')

theorem Holds.stream {f : Memory Unit} {pos : Nat} {m : Message} (h : Holds f pos m) :
    Stream f pos (pos + stride m.size.toNat) [m] := .message h (.done _)

/-! ### Stores that are still to come -/

abbrev Piece := Nat × List UInt8

def Piece.apply (pos : Nat) (f : Memory Unit) (p : Piece) : Memory Unit := storeBytes f () (pos + p.1) p.2

def Piece.store (slot : UInt32) (pos : Nat) (p : Piece) : Store := ⟨slot, pos % SLOT + p.1, p.2⟩

theorem storeBytes_at (f : Memory Unit) (o : Nat) (d : List UInt8) (x : Nat) :
    storeBytes f () o d () x = if o ≤ x ∧ x < o + d.length then d.getD (x - o) 0 else f () x := by
  rw [storeBytes, Function.update_self]

theorem Piece.apply_agree {f g : Memory Unit} {lo hi : Nat} (h : Agree f g lo hi) (pos : Nat) (p : Piece) :
    Agree (p.apply pos f) (p.apply pos g) lo hi := by
  intro x hlo hhi
  unfold Piece.apply
  rw [storeBytes_at, storeBytes_at, h x hlo hhi]

theorem Piece.foldl_agree {f g : Memory Unit} {lo hi : Nat} (h : Agree f g lo hi) (pos : Nat)
    (ps : List Piece) : Agree (ps.foldl (Piece.apply pos) f) (ps.foldl (Piece.apply pos) g) lo hi := by
  induction ps generalizing f g with
  | nil => exact h
  | cons p ps ih => exact ih (Piece.apply_agree h pos p)

theorem Piece.apply_below (f : Memory Unit) (lo pos : Nat) (p : Piece) : Agree f (p.apply pos f) lo pos := by
  intro x _ hx
  unfold Piece.apply
  exact storeBytes_out f () p.2 (.inl (by omega))

structure Pending (s : Tx) (pos : Nat) (m : Message) (stores : List Store) (ps : List Piece) : Prop where
  stores : stores = ps.map (Piece.store (s.slotQueue (Fin.ofNat 64 (pos / SLOT))) pos)
  inside : ∀ p ∈ ps, p.1 + p.2.length ≤ stride m.size.toNat
  message : Holds (ps.foldl (Piece.apply pos) s.flat) pos m

/-- The store that is due is that of a piece of the message. -/
theorem Pending.first {s : Tx} {pos : Nat} {m : Message} {st : Store} {stores : List Store} {ps : List Piece}
    (h : Pending s pos m (st :: stores) ps) :
    ∃ p ∈ ps, st = p.store (s.slotQueue (Fin.ofNat 64 (pos / SLOT))) pos := by
  have hmem : st ∈ ps.map (Piece.store (s.slotQueue (Fin.ofNat 64 (pos / SLOT))) pos) := by
    rw [← h.stores]
    exact List.mem_cons_self
  obtain ⟨p, hp, hst⟩ := List.mem_map.mp hmem
  exact ⟨p, hp, hst.symm⟩

theorem flat_store {s : Tx} {lo hi pos : Nat}
    (hinj : ∀ i j, lo ≤ i → i < hi → lo ≤ j → j < hi →
      s.slotQueue (Fin.ofNat 64 i) = s.slotQueue (Fin.ofNat 64 j) → i = j)
    (hlo : lo ≤ pos / SLOT) (hhi : pos / SLOT < hi) {p : Piece}
    (hinside : pos % SLOT + p.1 + p.2.length ≤ SLOT) :
    Agree (p.apply pos s.flat)
      { s with mem := (p.store (s.slotQueue (Fin.ofNat 64 (pos / SLOT))) pos).apply s.mem : Tx }.flat
      (SLOT * lo) (SLOT * hi) := by
  intro x hxlo hxhi
  simp only [Piece.apply, storeBytes_at, Tx.flat, Store.apply, Piece.store]
  simp only [SLOT] at *
  by_cases hslot : x / 4096 = pos / 4096
  · rw [storeBytes, hslot, Function.update_self]
    have hcond : pos % 4096 + p.1 ≤ x % 4096 ∧ x % 4096 < pos % 4096 + p.1 + p.2.length ↔
        pos + p.1 ≤ x ∧ x < pos + p.1 + p.2.length := by
      omega
    have hindex : x % 4096 - (pos % 4096 + p.1) = x - (pos + p.1) := by omega
    simp only [hcond, hindex]
  · have hne : s.slotQueue (Fin.ofNat 64 (x / 4096)) ≠ s.slotQueue (Fin.ofNat 64 (pos / 4096)) := by
      intro heq
      exact hslot (hinj _ _ (by omega) (by omega) hlo hhi heq)
    rw [storeBytes_slot _ _ _ hne, if_neg (by omega)]

/-! ### The invariant -/

def Request.stride (m : Request) : Nat := Vchiq.stride (m.p1.length + m.p2.length)

/-- Room for a message has been found at `pos`, past messages that only pad. -/
structure Reserved (T pos : Nat) (s : Tx) (m : Request) (pads : List Message) : Prop where
  inside : pos % SLOT + m.stride ≤ SLOT
  aligned : 8 ∣ pos
  stream : Stream s.flat T pos pads
  padding : ∀ p ∈ pads, p.isPadding = true

/-- Where `queue_message_raw` is; the stream is published up to `T`, and `A` slots are known. -/
def CallInv (T A : Nat) (s : Tx) : Call → Prop
  | .idle => s.txPos = UInt32.ofNat T
  | .start _ => s.txPos = UInt32.ofNat T
  | .pad m stores =>
    s.txPos = UInt32.ofNat T ∧ m.stride ≤ SLOT ∧ T < SLOT * A ∧
      ∃ p ps, p.isPadding = true ∧ T % SLOT + stride p.size.toNat = SLOT ∧ Pending s T p stores ps
  | .check m pos | .refresh m pos | .recheck m pos =>
    s.txPos = UInt32.ofNat T ∧ ∃ X pads, pos = UInt32.ofNat X ∧ X ≤ SLOT * A ∧ Reserved T X s m pads
  | .place m pos => ∃ X pads, pos = UInt32.ofNat X ∧ X < SLOT * A ∧ Reserved T X s m pads
  | .write m stores =>
    ∃ X pads ps, s.txPos = UInt32.ofNat (X + m.stride) ∧ X < SLOT * A ∧ Reserved T X s m pads ∧
      Pending s X m.message stores ps

def World.unread (w : World) (G : Nat) : List UInt32 :=
  (List.range' (w.vc.read / SLOT) (G - w.vc.read / SLOT)).map fun j => w.tx.slotQueue (Fin.ofNat 64 j)

def unpadded (ms : List Message) : List Message := ms.filter fun m => !m.isPadding

/-- `rest` is published and not read. -/
structure TxInv (T G A : Nat) (rest : List Message) (w : World) : Prop where
  shared : w.tx.sharedTxPos = UInt32.ofNat T
  recycle : w.tx.slotQueueRecycle = UInt32.ofNat G
  available : w.tx.slotQueueAvailable = UInt32.ofNat A
  aligned : 8 ∣ T
  known : A ≤ G
  consumed : T ≤ SLOT * A
  slots : (w.unread G ++ w.vc.held).Perm slave_slots
  stream : Stream w.tx.flat w.vc.read T rest
  whole : unpadded (w.vc.messages ++ rest) = unpadded w.accepted
  call : CallInv T A w.tx w.call

theorem nodup_slave_slots : slave_slots.Nodup := by decide

theorem length_slave_slots : slave_slots.length = 15 := by decide

theorem Request.toNat_size (m : Request) : m.size.toNat = m.p1.length + m.p2.length := by
  have hfits := m.fits
  have hslot : SLOT = 4096 := rfl
  rw [Request.size, UInt32.toNat_add, toNat_ofNat, toNat_ofNat]
  omega

theorem Request.toNat_calcStride (m : Request) : (CALC_STRIDE m.size).toNat = m.stride := by
  have hfits := m.fits
  have hslot : SLOT = 4096 := rfl
  have hsize := m.toNat_size
  rw [Vchiq.toNat_calcStride (by omega), hsize, Request.stride]

theorem Request.stride_spec (m : Request) :
    8 ∣ m.stride ∧ m.p1.length + m.p2.length + 8 ≤ m.stride := by
  obtain ⟨hdvd, hroom, -⟩ := Vchiq.stride_spec (m.p1.length + m.p2.length)
  exact ⟨hdvd, hroom⟩

theorem Request.stride_message (m : Request) : Vchiq.stride m.message.size.toNat = m.stride := by
  simp only [Request.message, m.toNat_size, Request.stride]

section

variable {T G A : Nat} {rest : List Message} {w : World}

theorem TxInv.read_le (h : TxInv T G A rest w) : w.vc.read ≤ T := h.stream.le

theorem TxInv.bounds (h : TxInv T G A rest w) :
    w.vc.read / SLOT ≤ A ∧ G - w.vc.read / SLOT + w.vc.held.length = 15 := by
  have hread := h.read_le
  have hconsumed := h.consumed
  have hlen := h.slots.length_eq
  rw [length_slave_slots, List.length_append, World.unread, List.length_map, List.length_range'] at hlen
  constructor
  · apply Nat.div_le_of_le_mul
    exact Nat.le_trans hread hconsumed
  · exact hlen

theorem TxInv.injective (h : TxInv T G A rest w) (i j : Nat) (hilo : w.vc.read / SLOT ≤ i) (hihi : i < G)
    (hjlo : w.vc.read / SLOT ≤ j) (hjhi : j < G)
    (heq : w.tx.slotQueue (Fin.ofNat 64 i) = w.tx.slotQueue (Fin.ofNat 64 j)) : i = j := by
  have hnodup : (w.unread G).Nodup := (h.slots.nodup_iff.mpr nodup_slave_slots).of_append_left
  apply List.inj_on_of_nodup_map hnodup
  · rw [List.mem_range'_1]
    omega
  · rw [List.mem_range'_1]
    omega
  · exact heq

theorem TxInv.owned (h : TxInv T G A rest w) {j : Nat} (hlo : T / SLOT ≤ j) (hhi : j < A) :
    w.tx.slotQueue (Fin.ofNat 64 j) ∈ slave_slots ∧ w.tx.slotQueue (Fin.ofNat 64 j) ∉ w.inFlight := by
  have hread : w.vc.read / SLOT ≤ T / SLOT := Nat.div_le_div_right h.read_le
  have hknown := h.known
  have hmem : w.tx.slotQueue (Fin.ofNat 64 j) ∈ w.unread G := by
    apply List.mem_map_of_mem
    rw [List.mem_range'_1]
    omega
  constructor
  · exact h.slots.subset (List.mem_append_left _ hmem)
  · intro hflight
    have hpublished : w.published = T := by
      obtain ⟨hle, hheld⟩ := h.bounds
      have hreadT := h.read_le
      have hconsumed := h.consumed
      rw [World.published, h.shared, UInt32.toNat_sub, toNat_ofNat, toNat_ofNat]
      simp only [SLOT] at *
      omega
    rw [World.inFlight, hpublished] at hflight
    rcases List.mem_append.mp hflight with hfull | hheld
    · obtain ⟨i, hi, heq⟩ := List.mem_map.mp hfull
      rw [List.mem_range'_1] at hi
      have hij := h.injective i j hi.1 (by omega) (by omega) (by omega) heq
      omega
    · have hnodup := h.slots.nodup_iff.mpr nodup_slave_slots
      exact List.disjoint_of_nodup_append hnodup hmem hheld

end

/-! ### What is stored is a message -/

theorem length_wordBytes (w : UInt32) : (wordBytes w).length = 4 := rfl

theorem header_stores (f : Memory Unit) (pos : Nat) (msgid size : UInt32) {n : Nat} {payload : List UInt8}
    (hpayload : loadBytes f () (pos + HEADER) n = payload) (hn : n = size.toNat)
    (hinside : pos % SLOT + stride size.toNat ≤ SLOT) :
    Holds (storeBytes (storeBytes f () (pos + 4) (wordBytes size)) () pos (wordBytes msgid)) pos
      ⟨msgid, size, payload⟩ := by
  have h8 : HEADER = 8 := rfl
  constructor
  · exact hinside
  · exact load32_store32 _ () pos msgid
  · refine Eq.trans (load32_congr ?_) (load32_store32 f () (pos + 4) size)
    intro i hi
    apply storeBytes_out
    rw [length_wordBytes]
    omega
  · rw [← hpayload, hn]
    apply loadBytes_congr
    intro i hi
    rw [storeBytes_out, storeBytes_out]
    · rw [length_wordBytes]
      omega
    · rw [length_wordBytes]
      omega

section

variable {T A : Nat} {s : Tx}

theorem pending_pad (htx : s.txPos = UInt32.ofNat T) (haligned : 8 ∣ T) :
    ∃ p ps, p.isPadding = true ∧ T % SLOT + stride p.size.toNat = SLOT ∧
      Pending s T p s.padStores ps := by
  have hlt : T % SLOT < SLOT := Nat.mod_lt T (Nat.succ_pos 4095)
  have hmod : T % SLOT % 8 = 0 ∧ T % SLOT + 8 ≤ SLOT := by
    simp only [SLOT]
    omega
  have hroom : s.slotSpace.toNat = SLOT - T % SLOT := by
    rw [Tx.slotSpace, htx, room_ofNat]
  have hsize : (s.slotSpace - VCHIQ_HEADER_SIZE).toNat = SLOT - T % SLOT - 8 := by
    have h8 : VCHIQ_HEADER_SIZE.toNat = 8 := by decide
    have hle : VCHIQ_HEADER_SIZE ≤ s.slotSpace := by
      rw [UInt32.le_iff_toNat_le, hroom, h8]
      omega
    rw [UInt32.toNat_sub_of_le _ _ hle, hroom, h8]
  have hend : T % SLOT + stride (s.slotSpace - VCHIQ_HEADER_SIZE).toNat = SLOT := by
    rw [hsize, stride]
    simp only [SLOT] at *
    omega
  refine ⟨⟨VCHIQ_MAKE_MSG VCHIQ_MSG_PADDING 0 0, s.slotSpace - VCHIQ_HEADER_SIZE,
      loadBytes s.flat () (T + HEADER) (s.slotSpace - VCHIQ_HEADER_SIZE).toNat⟩,
    [(4, wordBytes (s.slotSpace - VCHIQ_HEADER_SIZE)), (0, wordBytes (VCHIQ_MAKE_MSG VCHIQ_MSG_PADDING 0 0))],
    ?_, hend, ?_⟩
  · have htype : VCHIQ_MSG_TYPE (VCHIQ_MAKE_MSG VCHIQ_MSG_PADDING 0 0) = VCHIQ_MSG_PADDING := by decide
    exact decide_eq_true htype
  · constructor
    · simp only [Tx.padStores, Tx.slotOf, htx, queueIndex_ofNat, offset_ofNat]
      rfl
    · intro p hp
      rcases List.mem_cons.mp hp with rfl | hp
      · rw [length_wordBytes]
        simp only
        omega
      · rw [List.mem_singleton.mp hp, length_wordBytes]
        simp only
        omega
    · exact header_stores s.flat T _ _ rfl rfl (Nat.le_of_eq hend)

theorem pending_message {X : Nat} (m : Request) (hinside : X % SLOT + m.stride ≤ SLOT) :
    ∃ ps, Pending s X m.message (s.messageStores m (UInt32.ofNat X)) ps := by
  have h8 : HEADER = 8 := rfl
  obtain ⟨-, hroom⟩ := m.stride_spec
  refine ⟨[(HEADER, m.p1), (HEADER + m.p1.length, m.p2), (4, wordBytes m.size), (0, wordBytes m.msgid)],
    ?_, ?_, ?_⟩
  · simp only [Tx.messageStores, Tx.slotOf, queueIndex_ofNat, offset_ofNat]
    simp only [List.map_cons, List.map_nil, Piece.store, Nat.add_assoc]
    rfl
  · rw [m.stride_message]
    intro p hp
    simp only [List.mem_cons, List.not_mem_nil, or_false] at hp
    rcases hp with rfl | rfl | rfl | rfl
    · simp only
      omega
    · simp only
      omega
    · rw [length_wordBytes]
      simp only
      omega
    · rw [length_wordBytes]
      simp only
      omega
  · have hpayload : loadBytes (storeBytes (storeBytes s.flat () (X + HEADER) m.p1) ()
        (X + HEADER + m.p1.length) m.p2) () (X + HEADER) (m.p1.length + m.p2.length) = m.p1 ++ m.p2 := by
      rw [storeBytes_append, ← List.length_append]
      exact loadBytes_storeBytes _ _ _ _
    have hstored := header_stores _ X m.msgid m.size hpayload m.toNat_size.symm
      (by rw [m.toNat_size]; exact hinside)
    simp only [List.foldl_cons, List.foldl_nil, Piece.apply, ← Nat.add_assoc]
    exact hstored

theorem Pending.congr {s' : Tx} {pos : Nat} {m : Message} {stores : List Store} {ps : List Piece}
    (h : Pending s pos m stores ps)
    (hq : s'.slotQueue (Fin.ofNat 64 (pos / SLOT)) = s.slotQueue (Fin.ofNat 64 (pos / SLOT)))
    (hflat : Agree s.flat s'.flat pos (pos + stride m.size.toNat)) : Pending s' pos m stores ps := by
  constructor
  · rw [hq]
    exact h.stores
  · exact h.inside
  · exact h.message.congr (Piece.foldl_agree hflat pos ps)

theorem Reserved.congr {s' : Tx} {X : Nat} {m : Request} {pads : List Message} (h : Reserved T X s m pads)
    (hflat : Agree s.flat s'.flat T X) : Reserved T X s' m pads := by
  exact { h with stream := h.stream.congr hflat }

theorem end_le {X n : Nat} (hX : X < SLOT * A) (hinside : X % SLOT + n ≤ SLOT) : X + n ≤ SLOT * A := by
  simp only [SLOT] at *
  omega

theorem CallInv.congr {s' : Tx} {c : Call} (h : CallInv T A s c) (htx : s'.txPos = s.txPos)
    (hflat : Agree s.flat s'.flat T (SLOT * A))
    (hq : ∀ j, T / SLOT ≤ j → j < A →
      s'.slotQueue (Fin.ofNat 64 j) = s.slotQueue (Fin.ofNat 64 j)) : CallInv T A s' c := by
  have hslot : SLOT = 4096 := rfl
  cases c with
  | idle => exact htx.trans h
  | start m => exact htx.trans h
  | pad m stores =>
    obtain ⟨hT, hm, hlt, p, ps, hp, hend, hpending⟩ := h
    refine ⟨htx.trans hT, hm, hlt, p, ps, hp, hend, hpending.congr ?_ ?_⟩
    · apply hq
      · exact Nat.le_refl _
      · exact Nat.div_lt_of_lt_mul hlt
    · exact hflat.mono (Nat.le_refl _) (end_le hlt (Nat.le_of_eq hend))
  | check m pos | refresh m pos | recheck m pos =>
    obtain ⟨hT, X, pads, hpos, hle, hres⟩ := h
    exact ⟨htx.trans hT, X, pads, hpos, hle, hres.congr (hflat.mono (Nat.le_refl _) hle)⟩
  | place m pos =>
    obtain ⟨X, pads, hpos, hlt, hres⟩ := h
    exact ⟨X, pads, hpos, hlt, hres.congr (hflat.mono (Nat.le_refl _) (Nat.le_of_lt hlt))⟩
  | write m stores =>
    obtain ⟨X, pads, ps, hT, hlt, hres, hpending⟩ := h
    refine ⟨X, pads, ps, htx.trans hT, hlt, hres.congr (hflat.mono (Nat.le_refl _) (Nat.le_of_lt hlt)),
      hpending.congr ?_ ?_⟩
    · apply hq
      · exact Nat.div_le_div_right hres.stream.le
      · exact Nat.div_lt_of_lt_mul hlt
    · apply hflat.mono hres.stream.le
      rw [m.stride_message]
      exact end_le hlt hres.inside

end

/-! ### `queue_message_raw` -/

section

variable {T G A : Nat} {rest : List Message} {w : World}

theorem TxInv.goto (h : TxInv T G A rest w) {c : Call} (hc : CallInv T A w.tx c) :
    TxInv T G A rest { w with call := c } := by
  exact { h with call := hc }

theorem TxInv.refuse (h : TxInv T G A rest w) (m : Request) (htx : w.tx.txPos = UInt32.ofNat T) :
    TxInv T G A rest (w.finish m false) := by
  have haccepted : (w.finish m false).accepted = w.accepted := by
    simp [World.accepted, World.finish]
  refine { h with whole := ?_, call := ?_ }
  · rw [haccepted]
    exact h.whole
  · exact htx

theorem TxInv.flat_stored (h : TxInv T G A rest w) {X : Nat} {p : Piece} (hlo : T ≤ X) (hhi : X < SLOT * A)
    (hinside : X % SLOT + p.1 + p.2.length ≤ SLOT) :
    Agree (p.apply X w.tx.flat)
      { w.tx with mem := (p.store (w.tx.slotQueue (Fin.ofNat 64 (X / SLOT))) X).apply w.tx.mem : Tx }.flat
      w.vc.read (SLOT * A) := by
  have hread := h.read_le
  have hknown := h.known
  have hindex : X / SLOT < A := Nat.div_lt_of_lt_mul hhi
  have hflat := flat_store h.injective (Nat.div_le_div_right (Nat.le_trans hread hlo))
    (Nat.lt_of_lt_of_le hindex hknown) hinside
  exact hflat.mono (Nat.mul_div_le _ _) (Nat.mul_le_mul_left _ hknown)

theorem Pending.next {s : Tx} (s' : Tx) {X : Nat} {m : Message} {st : Store} {stores : List Store} {ps : List Piece}
    (h : Pending s X m (st :: stores) ps) (hq : s'.slotQueue = s.slotQueue)
    (hflat : ∀ p : Piece, st = p.store (s.slotQueue (Fin.ofNat 64 (X / SLOT))) X →
      X % SLOT + p.1 + p.2.length ≤ SLOT →
      Agree (p.apply X s.flat) s'.flat X (X + stride m.size.toNat)) :
    ∃ ps', Pending s' X m stores ps' := by
  cases ps with
  | nil => exact absurd h.stores (List.cons_ne_nil _ _)
  | cons p ps =>
    have hstores := h.stores
    rw [List.map_cons, List.cons.injEq] at hstores
    have hin := h.inside p (List.mem_cons_self ..)
    have hslot := h.message.inside
    have hagree := hflat p hstores.1 (by omega)
    refine ⟨ps, ?_, ?_, ?_⟩
    · rw [hq]
      exact hstores.2
    · intro q hmem
      exact h.inside q (List.mem_cons_of_mem p hmem)
    · exact h.message.congr (Piece.foldl_agree hagree X ps)

theorem TxInv.store (h : TxInv T G A rest w) {X : Nat} {m : Message} {st : Store} {stores : List Store}
    {ps : List Piece} (hpending : Pending w.tx X m (st :: stores) ps) (hlo : T ≤ X) (hhi : X < SLOT * A)
    (c : Call)
    (hc : ∀ (s : Tx) (ps' : List Piece), s.txPos = w.tx.txPos → Agree w.tx.flat s.flat T X →
      Pending s X m stores ps' → CallInv T A s c) :
    TxInv T G A rest { w with tx := { w.tx with mem := st.apply w.tx.mem }, call := c } := by
  have hread := h.read_le
  have hinside := hpending.message.inside
  have hend := end_le hhi hinside
  have hagree : ∀ p : Piece, st = p.store (w.tx.slotQueue (Fin.ofNat 64 (X / SLOT))) X →
      X % SLOT + p.1 + p.2.length ≤ SLOT →
      Agree (p.apply X w.tx.flat) { w.tx with mem := st.apply w.tx.mem : Tx }.flat w.vc.read (SLOT * A) := by
    rintro p rfl hp
    exact h.flat_stored hlo hhi hp
  have hbelow : Agree w.tx.flat { w.tx with mem := st.apply w.tx.mem : Tx }.flat w.vc.read X := by
    obtain ⟨p, hp, hstore⟩ := hpending.first
    have hin := hpending.inside p hp
    intro x hx hxX
    rw [hagree p hstore (by omega) x hx (Nat.lt_trans hxX hhi)]
    exact p.apply_below w.tx.flat w.vc.read X x hx hxX
  obtain ⟨ps', hnext⟩ := hpending.next { w.tx with mem := st.apply w.tx.mem } rfl
    (fun p heq hp => (hagree p heq hp).mono (Nat.le_trans hread hlo) hend)
  refine { h with stream := ?_, call := ?_ }
  · exact h.stream.congr (hbelow.mono (Nat.le_refl _) hlo)
  · exact hc _ ps' rfl (hbelow.mono hread (Nat.le_refl _)) hnext

theorem TxInv.start (h : TxInv T G A rest w) {m : Request} (hcall : w.call = .start m) :
    TxInv T G A rest w.advance := by
  have htx : w.tx.txPos = UInt32.ofNat T := by
    have hc := h.call
    rw [hcall] at hc
    exact hc
  have hlarge : VCHIQ_SLOT_SIZE < CALC_STRIDE m.size ↔ SLOT < m.stride := by
    rw [UInt32.lt_iff_toNat_lt, toNat_slotSize, m.toNat_calcStride]
  have hroom : w.tx.slotSpace < CALC_STRIDE m.size ↔ SLOT - T % SLOT < m.stride := by
    rw [UInt32.lt_iff_toNat_lt, m.toNat_calcStride, Tx.slotSpace, htx, room_ofNat]
  have hlt : T % SLOT < SLOT := Nat.mod_lt T (Nat.succ_pos 4095)
  simp only [World.advance, hcall, hlarge, hroom]
  by_cases hbig : SLOT < m.stride
  · rw [if_pos hbig]
    exact h.refuse m htx
  · rw [if_neg hbig]
    by_cases hpad : SLOT - T % SLOT < m.stride
    · rw [if_pos hpad]
      obtain ⟨p, ps, hp, hend, hpending⟩ := pending_pad htx h.aligned
      have hmid : T < SLOT * A := by
        apply Nat.lt_of_le_of_ne h.consumed
        intro heq
        rw [heq, Nat.mul_mod_right] at hpad
        exact hbig hpad
      exact h.goto ⟨htx, Nat.le_of_not_lt hbig, hmid, p, ps, hp, hend, hpending⟩
    · rw [if_neg hpad]
      have hres : Reserved T T w.tx m [] := by
        constructor
        · omega
        · exact h.aligned
        · exact .done T
        · exact nofun
      exact h.goto ⟨htx, T, [], htx, h.consumed, hres⟩

theorem TxInv.pad (h : TxInv T G A rest w) {m : Request} {stores : List Store}
    (hcall : w.call = .pad m stores) : TxInv T G A rest w.advance := by
  have hc := h.call
  rw [hcall] at hc
  obtain ⟨htx, hm, hlt, p, ps, hp, hend, hpending⟩ := hc
  cases stores with
  | cons st stores =>
    simp only [World.advance, hcall]
    apply h.store hpending (Nat.le_refl T) hlt
    intro s ps' hs _ hnext
    exact ⟨hs.trans htx, hm, hlt, p, ps', hp, hend, hnext⟩
  | nil =>
    simp only [World.advance, hcall]
    have hps : ps = [] := List.map_eq_nil_iff.mp hpending.stores.symm
    subst hps
    have hnext : w.tx.txPos + w.tx.slotSpace = UInt32.ofNat (T + stride p.size.toNat) := by
      have hroom : w.tx.slotSpace.toNat = stride p.size.toNat := by
        rw [Tx.slotSpace, htx, room_ofNat]
        omega
      rw [htx, ← UInt32.toNat_inj, UInt32.toNat_add, toNat_ofNat, toNat_ofNat, hroom]
      omega
    have hzero : (T + stride p.size.toNat) % SLOT = 0 := by
      simp only [SLOT] at *
      omega
    have hres : Reserved T (T + stride p.size.toNat) w.tx m [p] := by
      constructor
      · omega
      · exact Nat.dvd_add h.aligned (stride_spec _).1
      · exact hpending.message.stream
      · intro q hq
        rw [List.mem_singleton.mp hq]
        exact hp
    exact h.goto ⟨htx, _, [p], hnext, end_le hlt (Nat.le_of_eq hend), hres⟩

theorem TxInv.lt_of_not_consumed (h : TxInv T G A rest w) {X : Nat} (hle : X ≤ SLOT * A)
    (hnot : ¬ (UInt32.ofNat X &&& VCHIQ_SLOT_MASK = 0 ∧ w.tx.consumed (UInt32.ofNat X))) :
    X < SLOT * A := by
  apply Nat.lt_of_le_of_ne hle
  rintro rfl
  apply hnot
  constructor
  · rw [and_mask_eq_zero, Nat.mul_mod_right]
  · rw [Tx.consumed, h.available, ← UInt32.toNat_inj, UInt32.toNat_mul, toNat_ofNat, toNat_ofNat,
      toNat_slotSize, Nat.mul_comm SLOT A, Nat.mod_mul_mod]

theorem TxInv.check (h : TxInv T G A rest w) {m : Request} {pos : UInt32}
    (hcall : w.call = .check m pos) : TxInv T G A rest w.advance := by
  have hc := h.call
  rw [hcall] at hc
  simp only [World.advance, hcall]
  split
  · exact h.goto hc
  · obtain ⟨-, X, pads, rfl, hle, hres⟩ := hc
    rename_i hnot
    exact h.goto ⟨X, pads, rfl, h.lt_of_not_consumed hle hnot, hres⟩

theorem TxInv.refresh (h : TxInv T G A rest w) {m : Request} {pos : UInt32}
    (hcall : w.call = .refresh m pos) : TxInv T G G rest w.advance := by
  have hc := h.call
  rw [hcall] at hc
  obtain ⟨htx, X, pads, hpos, hle, hres⟩ := hc
  have hmono : SLOT * A ≤ SLOT * G := Nat.mul_le_mul_left _ h.known
  simp only [World.advance, hcall]
  refine { h with available := ?_, known := ?_, consumed := ?_, call := ?_ }
  · exact h.recycle
  · exact Nat.le_refl G
  · exact Nat.le_trans h.consumed hmono
  · exact ⟨htx, X, pads, hpos, Nat.le_trans hle hmono, hres.congr fun x _ _ => rfl⟩

theorem TxInv.recheck (h : TxInv T G A rest w) {m : Request} {pos : UInt32}
    (hcall : w.call = .recheck m pos) : TxInv T G A rest w.advance := by
  have hc := h.call
  rw [hcall] at hc
  obtain ⟨htx, X, pads, rfl, hle, hres⟩ := hc
  simp only [World.advance, hcall]
  split
  · exact h.refuse m htx
  · rename_i hnot
    exact h.goto ⟨X, pads, rfl, h.lt_of_not_consumed hle fun hboth => hnot hboth.2, hres⟩

theorem TxInv.place (h : TxInv T G A rest w) {m : Request} {pos : UInt32}
    (hcall : w.call = .place m pos) : TxInv T G A rest w.advance := by
  have hc := h.call
  rw [hcall] at hc
  obtain ⟨X, pads, rfl, hlt, hres⟩ := hc
  obtain ⟨ps, hpending⟩ := pending_message (s := w.tx) m hres.inside
  have hsum : UInt32.ofNat X + CALC_STRIDE m.size = UInt32.ofNat (X + m.stride) := by
    rw [← UInt32.toNat_inj, UInt32.toNat_add, toNat_ofNat, toNat_ofNat, m.toNat_calcStride]
    omega
  simp only [World.advance, hcall, hsum]
  refine { h with call := ?_ }
  · exact ⟨X, pads, ps, rfl, hlt, hres.congr fun x _ _ => rfl, hpending.congr rfl fun x _ _ => rfl⟩

theorem unpadded_append (ms ms' : List Message) : unpadded (ms ++ ms') = unpadded ms ++ unpadded ms' :=
  List.filter_append ..

theorem unpadded_pads {pads : List Message} (h : ∀ p ∈ pads, p.isPadding = true) : unpadded pads = [] := by
  apply List.filter_eq_nil_iff.mpr
  intro p hp
  rw [h p hp]
  exact Bool.false_ne_true

theorem accepted_finish (w : World) (m : Request) : (w.finish m true).accepted = w.accepted ++ [m.message] := by
  simp [World.accepted, World.finish]

theorem TxInv.write (h : TxInv T G A rest w) {m : Request} {stores : List Store}
    (hcall : w.call = .write m stores) : ∃ T' rest', TxInv T' G A rest' w.advance := by
  have hc := h.call
  rw [hcall] at hc
  obtain ⟨X, pads, ps, htx, hlt, hres, hpending⟩ := hc
  cases stores with
  | cons st stores =>
    refine ⟨T, rest, ?_⟩
    simp only [World.advance, hcall]
    apply h.store hpending hres.stream.le hlt
    intro s ps' hs hagree hnext
    exact ⟨X, pads, ps', hs.trans htx, hlt, hres.congr hagree, hnext⟩
  | nil =>
    refine ⟨X + m.stride, rest ++ (pads ++ [m.message]), ?_⟩
    have hps : ps = [] := List.map_eq_nil_iff.mp hpending.stores.symm
    subst hps
    have hmessage := hpending.message.stream
    rw [m.stride_message] at hmessage
    simp only [World.advance, hcall]
    refine { h with shared := ?_, aligned := ?_, consumed := ?_, stream := ?_, whole := ?_, call := ?_ }
    · exact htx
    · exact Nat.dvd_add hres.aligned m.stride_spec.1
    · exact end_le hlt hres.inside
    · exact h.stream.append (hres.stream.append hmessage)
    · have hwhole := h.whole
      rw [unpadded_append] at hwhole
      refine Eq.trans ?_ (congrArg unpadded (accepted_finish _ m)).symm
      rw [unpadded_append, unpadded_append, unpadded_append, unpadded_append, unpadded_pads hres.padding,
        List.nil_append, ← List.append_assoc]
      exact congrArg (· ++ unpadded [m.message]) hwhole
    · exact htx

theorem TxInv.advance (h : TxInv T G A rest w) : ∃ T' A' rest', TxInv T' G A' rest' w.advance := by
  cases hcall : w.call with
  | idle =>
    refine ⟨T, A, rest, ?_⟩
    simp only [World.advance, hcall]
    exact h
  | start m => exact ⟨T, A, rest, h.start hcall⟩
  | pad m stores => exact ⟨T, A, rest, h.pad hcall⟩
  | check m pos => exact ⟨T, A, rest, h.check hcall⟩
  | refresh m pos => exact ⟨T, G, rest, h.refresh hcall⟩
  | recheck m pos => exact ⟨T, A, rest, h.recheck hcall⟩
  | place m pos => exact ⟨T, A, rest, h.place hcall⟩
  | write m stores =>
    obtain ⟨T', rest', h'⟩ := h.write hcall
    exact ⟨T', A, rest', h'⟩

end

/-! ### The VideoCore -/

theorem flat_at (s : Tx) {pos i : Nat} (h : pos % SLOT + i < SLOT) :
    s.flat () (pos + i) = s.mem (s.slotQueue (Fin.ofNat 64 (pos / SLOT))) (pos % SLOT + i) := by
  have hdiv : (pos + i) / SLOT = pos / SLOT := by
    simp only [SLOT] at *
    omega
  have hmod : (pos + i) % SLOT = pos % SLOT + i := by
    simp only [SLOT] at *
    omega
  rw [Tx.flat, hdiv, hmod]

theorem Holds.messageAt {s : Tx} {pos : Nat} {m : Message} (h : Holds s.flat pos m) : s.messageAt pos = m := by
  obtain ⟨-, hroom, -⟩ := stride_spec m.size.toNat
  have hinside := h.inside
  have h8 : HEADER = 8 := rfl
  have hword : ∀ k, k + 4 ≤ 8 →
      load32 s.mem (s.slotQueue (Fin.ofNat 64 (pos / SLOT))) (pos % SLOT + k) = load32 s.flat () (pos + k) := by
    intro k hk
    simp only [load32, Nat.add_assoc]
    rw [flat_at s (by omega), flat_at s (by omega), flat_at s (by omega), flat_at s (by omega)]
  have hmsgid := hword 0 (by omega)
  have hsize := hword 4 (by omega)
  rw [Nat.add_zero, Nat.add_zero, h.msgid] at hmsgid
  rw [h.size] at hsize
  have hpayload : loadBytes s.mem (s.slotQueue (Fin.ofNat 64 (pos / SLOT))) (pos % SLOT + HEADER) m.size.toNat
      = m.payload := by
    rw [← h.payload]
    apply List.map_congr_left
    intro i hi
    have hi' := List.mem_range.mp hi
    rw [Nat.add_assoc, Nat.add_assoc, flat_at s (by omega)]
  simp only [Tx.messageAt, hmsgid, hsize, hpayload]

section

variable {T G A : Nat} {rest : List Message} {w : World}

theorem TxInv.caughtUp (h : TxInv T G A rest w) : UInt32.ofNat w.vc.read = w.tx.sharedTxPos ↔ w.vc.read = T := by
  obtain ⟨hle, hheld⟩ := h.bounds
  have hread := h.read_le
  have hconsumed := h.consumed
  have hknown := h.known
  rw [h.shared, ← UInt32.toNat_inj, toNat_ofNat, toNat_ofNat]
  simp only [SLOT] at *
  omega

theorem TxInv.slots_read (h : TxInv T G A rest w) {n : Nat} (hlt : w.vc.read < SLOT * A)
    (hinside : w.vc.read % SLOT + n ≤ SLOT) (hn : 0 < n) {vc : VideoCore} (hread : vc.read = w.vc.read + n)
    (hheld : vc.held = if (w.vc.read + n) % SLOT = 0 then
      w.tx.slotQueue (Fin.ofNat 64 (w.vc.read / SLOT)) :: w.vc.held else w.vc.held) :
    (World.unread { w with vc := vc } G ++ vc.held).Perm slave_slots := by
  have hknown := h.known
  have hindex : w.vc.read / SLOT < A := Nat.div_lt_of_lt_mul hlt
  refine List.Perm.trans ?_ h.slots
  simp only [World.unread, hread, hheld]
  by_cases hend : (w.vc.read + n) % SLOT = 0
  · have hdiv : (w.vc.read + n) / SLOT = w.vc.read / SLOT + 1 := by
      simp only [SLOT] at *
      omega
    have hlen : G - w.vc.read / SLOT = (G - (w.vc.read / SLOT + 1)) + 1 := by omega
    rw [if_pos hend, hdiv, hlen, List.range'_succ, List.map_cons, List.cons_append]
    exact List.perm_middle
  · have hdiv : (w.vc.read + n) / SLOT = w.vc.read / SLOT := by
      simp only [SLOT] at *
      omega
    rw [if_neg hend, hdiv]

theorem TxInv.read (h : TxInv T G A rest w) : ∃ rest', TxInv T G A rest' w.read := by
  by_cases hcaught : UInt32.ofNat w.vc.read = w.tx.sharedTxPos
  · refine ⟨rest, ?_⟩
    rw [World.read, if_pos hcaught]
    exact h
  · have hne : w.vc.read ≠ T := fun heq => hcaught (h.caughtUp.mpr heq)
    have hstream := h.stream
    have hwhole := h.whole
    have hlt : w.vc.read < SLOT * A :=
      Nat.lt_of_lt_of_le (Nat.lt_of_le_of_ne h.read_le hne) h.consumed
    cases hstream with
    | done => exact absurd rfl hne
    | @message _ _ m ms hm hrest =>
      refine ⟨ms, ?_⟩
      have hmessage := hm.messageAt
      obtain ⟨-, hroom, -⟩ := stride_spec m.size.toNat
      simp only [World.read, if_neg hcaught, hmessage]
      refine { h with slots := ?_, stream := ?_, whole := ?_ }
      · exact h.slots_read hlt hm.inside (by omega) rfl rfl
      · exact hrest
      · exact Eq.trans (congrArg unpadded (List.append_assoc ..)) hwhole

theorem TxInv.entry_ne (h : TxInv T G A rest w) (hheld : 0 < w.vc.held.length) {j : Nat}
    (hlo : w.vc.read / SLOT ≤ j) (hhi : j < G) : Fin.ofNat 64 j ≠ Fin.ofNat 64 G := by
  obtain ⟨-, hcount⟩ := h.bounds
  intro heq
  have hval : j % 64 = G % 64 := congrArg Fin.val heq
  omega

theorem TxInv.recycled (h : TxInv T G A rest w) (slot : UInt32) :
    ∃ G', TxInv T G' A rest (w.recycle slot) := by
  by_cases hmem : slot ∈ w.vc.held
  · refine ⟨G + 1, ?_⟩
    have hread := h.read_le
    have hknown := h.known
    obtain ⟨hgranted, hcount⟩ := h.bounds
    have hpos : 0 < w.vc.held.length := List.length_pos_of_mem hmem
    have hindex : Fin.ofNat 64 (w.tx.slotQueueRecycle &&& 63).toNat = Fin.ofNat 64 G := by
      apply Fin.ext
      have h63 : (63 : UInt32).toNat = 2 ^ 6 - 1 := by decide
      rw [h.recycle, UInt32.toNat_and, h63, Nat.and_two_pow_sub_one_eq_mod, toNat_ofNat, Fin.val_ofNat,
        Fin.val_ofNat]
      omega
    have hq : ∀ j, w.vc.read / SLOT ≤ j → j < G →
        Function.update w.tx.slotQueue (Fin.ofNat 64 G) slot (Fin.ofNat 64 j)
          = w.tx.slotQueue (Fin.ofNat 64 j) := by
      intro j hlo hhi
      exact Function.update_of_ne (h.entry_ne hpos hlo hhi) _ _
    have hflat : ∀ r, Agree w.tx.flat
        { w.tx with slotQueue := Function.update w.tx.slotQueue (Fin.ofNat 64 G) slot
                    slotQueueRecycle := r : Tx }.flat w.vc.read (SLOT * A) := by
      intro r x hlo hhi
      have hx : x / SLOT < A := Nat.div_lt_of_lt_mul hhi
      simp only [Tx.flat]
      rw [hq _ (Nat.div_le_div_right hlo) (by omega)]
    simp only [World.recycle, if_pos hmem, hindex]
    refine { h with recycle := ?_, known := ?_, slots := ?_, stream := ?_, call := ?_ }
    · simp only [h.recycle]
      exact (UInt32.ofNat_add G 1).symm
    · omega
    · have hlen : G + 1 - w.vc.read / SLOT = G - w.vc.read / SLOT + 1 := by omega
      have hlast : w.vc.read / SLOT + (G - w.vc.read / SLOT) = G := by omega
      have hold : (List.range' (w.vc.read / SLOT) (G - w.vc.read / SLOT)).map
          (fun j => Function.update w.tx.slotQueue (Fin.ofNat 64 G) slot (Fin.ofNat 64 j)) = w.unread G := by
        apply List.map_congr_left
        intro j hj
        rw [List.mem_range'_1] at hj
        exact hq j hj.1 (by omega)
      refine List.Perm.trans ?_ h.slots
      simp only [World.unread] at hold ⊢
      rw [hlen, List.range'_concat, List.map_append, hold, List.map_singleton, Nat.one_mul, hlast,
        Function.update_self, List.append_assoc, List.singleton_append]
      exact (List.perm_cons_erase hmem).symm.append_left _
    · exact h.stream.congr ((hflat _).mono (Nat.le_refl _) h.consumed)
    · apply h.call.congr
      · rfl
      · exact (hflat _).mono hread (Nat.le_refl _)
      · intro j hlo hhi
        have hdiv : w.vc.read / SLOT ≤ T / SLOT := Nat.div_le_div_right hread
        exact hq j (by omega) (by omega)
  · refine ⟨G, ?_⟩
    rw [World.recycle, if_neg hmem]
    exact h

end

/-! ### A run -/

theorem World.step_inv {w : World} (h : ∃ T G A rest, TxInv T G A rest w) (e : Event) :
    ∃ T G A rest, TxInv T G A rest (w.step e) := by
  obtain ⟨T, G, A, rest, h⟩ := h
  cases e with
  | call m =>
    refine ⟨T, G, A, rest, ?_⟩
    cases hcall : w.call with
    | idle =>
      simp only [World.step, hcall]
      have hc := h.call
      rw [hcall] at hc
      exact h.goto hc
    | _ =>
      simp only [World.step, hcall]
      exact h
  | advance =>
    obtain ⟨T', A', rest', h'⟩ := h.advance
    exact ⟨T', G, A', rest', h'⟩
  | read =>
    obtain ⟨rest', h'⟩ := h.read
    exact ⟨T, G, A, rest', h'⟩
  | recycle slot =>
    obtain ⟨G', h'⟩ := h.recycled slot
    exact ⟨T, G', A, rest, h'⟩

theorem TxInv.initial (mem : Memory UInt32) : TxInv 0 15 15 [] (World.initial mem) := by
  constructor
  · rfl
  · rfl
  · rfl
  · exact Nat.dvd_zero 8
  · exact Nat.le_refl 15
  · exact Nat.zero_le _
  · have hslots : (World.initial mem).unread 15 ++ (World.initial mem).vc.held = slave_slots := by
      simp only [World.unread, World.initial]
      decide
    rw [hslots]
  · exact .done 0
  · rfl
  · rfl

theorem TxInv.delivered {T G A : Nat} {rest : List Message} {w : World} (h : TxInv T G A rest w) :
    w.Delivered := by
  have hwhole := h.whole
  rw [unpadded_append] at hwhole
  constructor
  · exact ⟨unpadded rest, hwhole⟩
  · intro hcaught
    have hstream := h.stream
    rw [h.caughtUp.mp hcaught] at hstream
    cases hstream with
    | done =>
      rw [show unpadded [] = [] from rfl, List.append_nil] at hwhole
      exact hwhole
    | @message _ _ m ms hm hrest =>
      obtain ⟨-, hroom, -⟩ := stride_spec m.size.toNat
      have hle := hrest.le
      omega

theorem World.step_published (w : World) (e : Event)
    (h : (w.step e).tx.sharedTxPos ≠ w.tx.sharedTxPos) :
    ∃ m, (w.step e).results = w.results ++ [(m, true)] := by
  cases e with
  | call m =>
    simp only [World.step] at h
    split at h
    · exact absurd rfl h
    · exact absurd rfl h
  | read =>
    simp only [World.step, World.read] at h
    split at h
    · exact absurd rfl h
    · exact absurd rfl h
  | recycle slot =>
    simp only [World.step, World.recycle] at h
    split at h
    · exact absurd rfl h
    · exact absurd rfl h
  | advance =>
    simp only [World.step, World.advance] at h ⊢
    split at h
    case h_10 m hcall =>
      exact ⟨m, rfl⟩
    all_goals
      repeat' split at h
      all_goals exact absurd rfl h

theorem World.step_stored {w : World} (h : ∃ T G A rest, TxInv T G A rest w) {e : Event} {slot : UInt32}
    (hslot : w.storeSlot e = some slot) : slot ∈ slave_slots ∧ slot ∉ w.inFlight := by
  obtain ⟨T, G, A, rest, h⟩ := h
  cases e with
  | advance =>
    have hc := h.call
    simp only [World.storeSlot] at hslot
    split at hslot
    · rename_i m st stores hcall
      rw [hcall] at hc
      obtain ⟨-, -, hlt, p, ps, -, -, hpending⟩ := hc
      obtain ⟨q, -, hstore⟩ := hpending.first
      obtain rfl : st.slot = slot := Option.some.inj hslot
      rw [hstore]
      exact h.owned (Nat.le_refl _) (Nat.div_lt_of_lt_mul hlt)
    · rename_i m st stores hcall
      rw [hcall] at hc
      obtain ⟨X, pads, ps, -, hlt, hres, hpending⟩ := hc
      obtain ⟨q, -, hstore⟩ := hpending.first
      obtain rfl : st.slot = slot := Option.some.inj hslot
      rw [hstore]
      exact h.owned (Nat.div_le_div_right hres.stream.le) (Nat.div_lt_of_lt_mul hlt)
    · exact absurd hslot (Option.some_ne_none slot).symm
  | _ => exact absurd hslot (Option.some_ne_none slot).symm

theorem transmit_stream (mem : Memory UInt32) (events : List Event) :
    (final World.step (World.initial mem) events).Delivered ∧
      ∀ st ∈ history World.step (World.initial mem) events, Owned st := by
  have hinv : ∀ before, ∃ T G A rest, TxInv T G A rest (final World.step (World.initial mem) before) :=
    final_induction World.step (fun w => ∃ T G A rest, TxInv T G A rest w)
      ⟨0, 15, 15, [], .initial mem⟩ (fun w e h => World.step_inv h e)
  constructor
  · obtain ⟨T, G, A, rest, h⟩ := hinv events
    exact h.delivered
  · intro st hst
    obtain ⟨before, e, after, -, rfl⟩ := mem_history World.step hst
    constructor
    · exact World.step_published _ e
    · intro slot hslot
      exact World.step_stored (hinv before) hslot

end Pi1MHz.Vchiq
