import Pi1MHz.AunAckHonesty

/-!
# At most once, over a lossy network

Any number of mapped peers send DATA to the engine, each by stop-and-wait: it sends and
retransmits the datagram it has outstanding, and goes on to the next one when it has heard
an ACK.  The network loses and duplicates what the peers send but keeps each peer's
datagrams in order; ACKs it loses, duplicates and delays at will.
-/

namespace Pi1MHz.Aun

open History (Step)

/-! ### Peers and network -/

structure Peer where
  ipBe : UInt32
  port : UInt16
  script : List (List UInt8)

def Peer.seqs (p : Peer) : List UInt32 := p.script.map fun buf => rd32le (buf.drop 4)

structure Peer.Sender (p : Peer) : Prop where
  data : ∀ buf ∈ p.script, AUN_HDR_SIZE ≤ buf.length ∧ buf.getD 0 0 = AUN_TYPE_DATA
  distinct : p.seqs.Nodup

/-- The engine, the datagram each peer has outstanding, its datagrams on the wire, oldest
    first, and the sequences of the ACKs sent to it. -/
structure Network (ι : Type*) where
  engine : Engine
  next : ι → Nat
  wire : ι → List Nat
  acks : ι → List UInt32

inductive Move (ι : Type*) where
  | send (p : ι)
  | lose (p : ι) (n : Nat)
  | duplicate (p : ι) (n : Nat)
  | deliver (p : ι)
  | ackArrives (p : ι) (seq : UInt32)
  | call (op : Op)

/-- The calls that leave the receive blocks open and the station map alone; DATA comes from
    the peers only. -/
def Op.leavesSetup : Op → Bool
  | .init _ _ => false
  | .mapAdd _ _ _ _ => false
  | .rxOpen _ _ _ _ _ _ => false
  | .rxClose _ => false
  | .udpInput _ _ buf => buf.getD 0 0 != AUN_TYPE_DATA
  | _ => true

def Op.configures : Op → Bool
  | .mapAdd _ _ _ _ => true
  | .setAddressing _ _ _ _ => true
  | .testResponder _ _ _ => true
  | .setMachineId _ => true
  | .setTrace _ => true
  | .setHostImm _ => true
  | .rxOpen _ _ _ _ _ _ => true
  | _ => false

def ackedBy (p : Peer) (out : List Effect) : List UInt32 :=
  out.filterMap fun
    | .sent ipBe port dgram ok =>
        if ok ∧ ipBe = p.ipBe ∧ port = p.port ∧ dgram.getD 0 0 = AUN_TYPE_ACK then
          some (rd32le (dgram.drop 4))
        else none
    | .traced _ _ _ _ _ => none

variable {ι : Type*} [DecidableEq ι] (T : Transport) (peers : ι → Peer)

def Network.call (s : Network ι) (op : Op) : Network ι :=
  { s with
    engine := step T s.engine op
    acks := fun p => s.acks p ++ ackedBy (peers p) (step T s.engine op).io.out }

def Network.withWire (s : Network ι) (p : ι) (wire : List Nat) : Network ι :=
  { s with wire := Function.update s.wire p wire }

def netStep (s : Network ι) : Move ι → Network ι
  | .send p =>
      if s.next p < (peers p).script.length then s.withWire p (s.wire p ++ [s.next p]) else s
  | .lose p n => s.withWire p ((s.wire p).eraseIdx n)
  | .duplicate p n =>
      match (s.wire p)[n]? with
      | some k => s.withWire p ((s.wire p).insertIdx n k)
      | none => s
  | .deliver p =>
      match s.wire p with
      | [] => s
      | k :: rest =>
          (s.withWire p rest).call T peers
            (.udpInput (peers p).ipBe (peers p).port ((peers p).script.getD k []))
  | .ackArrives p seq =>
      if seq ∈ s.acks p ∧ (peers p).seqs[s.next p]? = some seq then
        { s with next := Function.update s.next p (s.next p + 1) }
      else s
  | .call op => if op.leavesSetup then s.call T peers op else s

def netStart (mem : Nat → UInt8) (station net : UInt8) (setup : List Op) : Network ι where
  engine := runState T mem station net setup
  next := fun _ => 0
  wire := fun _ => []
  acks := fun _ => []

def takenIn (p : Peer) (st : Step (Network ι) (Move ι)) : Option (Fate × UInt32) :=
  match st.op with
  | .call op => if op.leavesSetup then takenSeq T p.ipBe p.port st.pre.engine op else none
  | _ => none

def takenOf (p : Peer) (hist : List (Step (Network ι) (Move ι))) : List UInt32 :=
  hist.filterMap fun st => (takenIn T p st).map Prod.snd

def acceptedOf (p : Peer) (hist : List (Step (Network ι) (Move ι))) : List UInt32 :=
  hist.filterMap fun st =>
    match takenIn T p st with
    | some (.accepted, seq) => some seq
    | _ => none

structure PeerInv (p : Peer) (taken : List UInt32) (next : Nat) (wire : List Nat) (e : Engine)
    (acks : List UInt32) : Prop where
  inOrder : taken = p.seqs.take taken.length
  window : next ≤ taken.length ∧ taken.length ≤ next + 1
  sorted : wire.Pairwise (· ≤ ·)
  onWire : ∀ k ∈ wire, taken.length ≤ k + 1 ∧ k ≤ next ∧ k < p.seqs.length
  queued : ∀ seq, ¬Unqueued e ⟨p.ipBe, p.port, seq⟩ → p.seqs[taken.length]? = some seq ∧
    taken.length ≤ next ∧ ∀ k ∈ wire, taken.length ≤ k
  filter : lastSeq e.map p.ipBe p.port = taken.getLast?
  mapped : (mapFindByIp e.map p.ipBe p.port).isSome = true
  acked : ∀ seq ∈ acks, seq ∈ taken

section

variable {p : Peer} {taken : List UInt32} {next : Nat} {wire : List Nat} {e : Engine}
  {acks : List UInt32}

theorem PeerInv.nodup (h : PeerInv p taken next wire e acks) (hp : p.Sender) : taken.Nodup := by
  rw [h.inOrder]
  exact hp.distinct.sublist (List.take_sublist _ _)

theorem PeerInv.getElem?_taken (h : PeerInv p taken next wire e acks) {k : Nat}
    (hk : k < taken.length) : taken[k]? = p.seqs[k]? := by
  conv_lhs => rw [h.inOrder]
  rw [List.getElem?_take, if_pos hk]

theorem seqs_inj (hp : p.Sender) {i j : Nat} {seq : UInt32} (hi : p.seqs[i]? = some seq)
    (hj : p.seqs[j]? = some seq) : i = j := by
  obtain ⟨hi', hi⟩ := List.getElem?_eq_some_iff.mp hi
  obtain ⟨hj', hj⟩ := List.getElem?_eq_some_iff.mp hj
  exact (hp.distinct.getElem_inj_iff).mp (hi.trans hj.symm)

/-! ### The peers and the network -/

theorem PeerInv.send (h : PeerInv p taken next wire e acks) (hlt : next < p.seqs.length) :
    PeerInv p taken next (wire ++ [next]) e acks := by
  refine { h with sorted := ?_, onWire := ?_, queued := ?_ }
  · rw [List.pairwise_append]
    refine ⟨h.sorted, List.pairwise_singleton _ _, ?_⟩
    intro a ha b hb
    rw [List.mem_singleton.mp hb]
    exact (h.onWire a ha).2.1
  · intro k hk
    rcases List.mem_append.mp hk with hk | hk
    · exact h.onWire k hk
    · rw [List.mem_singleton.mp hk]
      exact ⟨h.window.2, le_rfl, hlt⟩
  · intro seq hq
    obtain ⟨hseq, hle, hold⟩ := h.queued seq hq
    refine ⟨hseq, hle, fun k hk => ?_⟩
    rcases List.mem_append.mp hk with hk | hk
    · exact hold k hk
    · rw [List.mem_singleton.mp hk]
      exact hle

theorem PeerInv.rewire {wire' : List Nat} (h : PeerInv p taken next wire e acks)
    (hsorted : wire'.Pairwise (· ≤ ·)) (hmem : ∀ k ∈ wire', k ∈ wire) :
    PeerInv p taken next wire' e acks :=
  { h with
    sorted := hsorted
    onWire := fun k hk => h.onWire k (hmem k hk)
    queued := fun seq hq => by
      obtain ⟨hseq, hle, hold⟩ := h.queued seq hq
      exact ⟨hseq, hle, fun k hk => hold k (hmem k hk)⟩ }

theorem mem_insertIdx_self {l : List Nat} {n k j : Nat} (hn : l[n]? = some k)
    (hj : j ∈ l.insertIdx n k) : j ∈ l := by
  rcases List.eq_or_mem_of_mem_insertIdx hj with rfl | hj
  · exact List.mem_of_getElem? hn
  · exact hj

theorem pairwise_insertIdx_self {l : List Nat} {n k : Nat} (h : l.Pairwise (· ≤ ·))
    (hn : l[n]? = some k) : (l.insertIdx n k).Pairwise (· ≤ ·) := by
  induction l generalizing n with
  | nil => simp at hn
  | cons x l ih =>
    rw [List.pairwise_cons] at h
    cases n with
    | zero =>
      obtain rfl : x = k := by simpa using hn
      rw [List.insertIdx_zero, List.pairwise_cons, List.pairwise_cons]
      refine ⟨?_, h⟩
      intro j hj
      rcases List.mem_cons.mp hj with rfl | hj
      · exact le_rfl
      · exact h.1 j hj
    | succ n =>
      have hn' : l[n]? = some k := by simpa using hn
      rw [List.insertIdx_succ_cons, List.pairwise_cons]
      exact ⟨fun j hj => h.1 j (mem_insertIdx_self hn' hj), ih h.2 hn'⟩

theorem PeerInv.ackArrives (h : PeerInv p taken next wire e acks) (hp : p.Sender) {seq : UInt32}
    (hack : seq ∈ acks) (hseq : p.seqs[next]? = some seq) :
    PeerInv p taken (next + 1) wire e acks := by
  obtain ⟨j, hj⟩ := List.mem_iff_getElem?.mp (h.acked seq hack)
  obtain ⟨hjlt, -⟩ := List.getElem?_eq_some_iff.mp hj
  have hjn : j = next := seqs_inj hp ((h.getElem?_taken hjlt).symm.trans hj) hseq
  subst hjn
  refine { h with window := ⟨hjlt, by have := h.window.2; omega⟩, onWire := ?_, queued := ?_ }
  · intro k hk
    obtain ⟨h1, h2, h3⟩ := h.onWire k hk
    exact ⟨h1, by omega, h3⟩
  · intro a ha
    obtain ⟨h1, h2, h3⟩ := h.queued a ha
    exact ⟨h1, by omega, h3⟩

/-! ### The engine -/

theorem PeerInv.call (h : PeerInv p taken next wire e acks) (hip : p.ipBe ≠ 0) (hinv : RxInv e)
    (hkeys : KeysDistinct e) {op : Op} (hremap : remapped e op = e.map)
    (hforeign : ∀ buf, op = .udpInput p.ipBe p.port buf → isFunnel buf = false) :
    PeerInv p (taken ++ ((takenSeq T p.ipBe p.port e op).map Prod.snd).toList) next wire
      (step T e op) acks := by
  have hsource : SourceStep T p.ipBe p.port e.beginCall op (step T e op) :=
    step_source T e op hinv hkeys hip
  have hmap' : remapped e.beginCall op = e.map := (remapped_beginCall e op).trans hremap
  cases hsource with
  | @took fate seq hev hwas hnow hqueue hmap =>
    change takenSeq T p.ipBe p.port e op = some (fate, seq) at hev
    obtain ⟨hseq, hle, hold⟩ := h.queued seq hwas
    rw [hev]
    simp only [Option.map_some, Option.toList_some]
    refine ⟨?_, ?_, h.sorted, ?_, ?_, ?_, ?_, ?_⟩
    · rw [List.length_append, List.length_singleton, List.take_add_one, ← h.inOrder, hseq]
      rfl
    · rw [List.length_append, List.length_singleton]
      have := h.window
      omega
    · intro k hk
      have := hold k hk
      rw [List.length_append, List.length_singleton]
      exact ⟨by omega, (h.onWire k hk).2⟩
    · -- the frame taken was the only one of the peer
      intro a ha
      have hwas' : ¬Unqueued e ⟨p.ipBe, p.port, a⟩ := fun hfree => ha (hqueue a hfree)
      have heq : a = seq := Option.some.inj ((h.queued a hwas').1.symm.trans hseq)
      rw [heq] at ha
      exact absurd hnow ha
    · rw [hmap, List.getLast?_append, List.getLast?_singleton, Option.some_or]
      exact (lastSeq_stampMap_self _ _ _ _).trans (if_pos h.mapped)
    · rw [hmap, mapFindByIp_stampMap]
      exact h.mapped
    · intro a ha
      exact List.mem_append_left _ (h.acked a ha)
  | arrived hno hop hd =>
    exact absurd (hforeign _ hop) (by rw [hd.isFunnel]; decide)
  | other hno hqueue hmap =>
    change takenSeq T p.ipBe p.port e op = none at hno
    have hentry : SameEntry p.ipBe p.port e.map (step T e op).map := by
      rcases hmap with hsame | hmap
      · exact hsame
      · rw [hmap, hmap']
        exact ⟨rfl, rfl⟩
    rw [hno]
    simp only [Option.map_none, Option.toList_none, List.append_nil]
    exact {
      inOrder := h.inOrder
      window := h.window
      sorted := h.sorted
      onWire := h.onWire
      queued := fun a ha => h.queued a fun hfree => ha (hqueue a hfree)
      filter := hentry.2.trans h.filter
      mapped := by rw [hentry.1]; exact h.mapped
      acked := h.acked }

theorem PeerInv.deliver {k : Nat} {buf : List UInt8} (h : PeerInv p taken next (k :: wire) e acks)
    (hip : p.ipBe ≠ 0) (hinv : RxInv e) (hkeys : KeysDistinct e)
    (hbuf : p.script[k]? = some buf) :
    PeerInv p taken next wire (step T e (.udpInput p.ipBe p.port buf)) acks := by
  have hk : p.seqs[k]? = some (rd32le (buf.drop 4)) := by simp [Peer.seqs, hbuf]
  obtain ⟨hlow, hhigh, -⟩ := h.onWire k (List.mem_cons_self ..)
  have hwindow := h.window
  obtain ⟨hafter, hsorted⟩ := List.pairwise_cons.mp h.sorted
  have hrest : PeerInv p taken next wire e acks :=
    h.rewire hsorted fun j hj => List.mem_cons_of_mem k hj
  have hattr : (attributeSource e p.ipBe p.port).2.map = e.map := by
    obtain ⟨j, hj⟩ := Option.isSome_iff_exists.mp h.mapped
    simp [attributeSource, hj]
  have hremap : remapped e (.udpInput p.ipBe p.port buf) = e.map := by
    simp [remapped, hattr]
  have hsource : SourceStep T p.ipBe p.port e.beginCall (.udpInput p.ipBe p.port buf)
      (step T e (.udpInput p.ipBe p.port buf)) := step_source T e _ hinv hkeys hip
  have hmap' := (remapped_beginCall e (.udpInput p.ipBe p.port buf)).trans hremap
  cases hsource with
  | took hev => cases hev
  | @arrived buf' aunPort ctrl seq data hno hop hd hnew hqueue hmap =>
    obtain ⟨-, -, rfl⟩ := Op.udpInput.inj hop
    rw [hd.seq] at hk
    rw [hmap, hmap', h.filter] at hnew
    -- the datagram taken last would have been recognised
    have hkL : k = taken.length := by
      by_contra hne
      refine hnew ?_
      rw [List.getLast?_eq_getElem?, h.getElem?_taken (by omega),
        show taken.length - 1 = k by omega, hk]
    refine { hrest with queued := ?_, filter := ?_, mapped := ?_ }
    · intro a ha
      by_cases hcase : a = seq
      · subst hcase
        rw [← hkL]
        exact ⟨hk, hhigh, hafter⟩
      · exact hrest.queued a fun hfree => ha (hqueue a hcase hfree)
    · rw [hmap, hmap']
      exact h.filter
    · rw [hmap, hmap']
      exact h.mapped
  | other hno hqueue hmap =>
    have hentry : SameEntry p.ipBe p.port e.map
        (step T e (.udpInput p.ipBe p.port buf)).map := by
      rcases hmap with hsame | hmap
      · exact hsame
      · rw [hmap, hmap']
        exact ⟨rfl, rfl⟩
    exact { hrest with
      queued := fun a ha => hrest.queued a fun hfree => ha (hqueue a hfree)
      filter := hentry.2.trans h.filter
      mapped := by rw [hentry.1]; exact h.mapped }

end

/-! ### The ACKs -/

def NoDataImm (e : Engine) : Prop := e.himm.active = true → e.himm.fromData = false

def Op.bringsNoImm4 (op : Op) : Prop :=
  ∀ ipBe port buf aunPort ctrl seq data, op = .udpInput ipBe port buf →
    ¬ImmData buf true aunPort ctrl seq data

theorem NoDataImm.step {e : Engine} {op : Op} (h : NoDataImm e) (hop : op.bringsNoImm4) :
    NoDataImm (Aun.step T e op) := by
  have hs := step_himm T e op
  unfold NoDataImm
  cases hs with
  | kept hsame =>
    rw [hsame.himm]
    exact h
  | reset hhimm =>
    rw [hhimm]
    intro hact
    cases hact
  | switched hhimm =>
    rw [hhimm]
    intro hact
    cases hact
  | replied _ hhimm =>
    rw [hhimm]
    intro hact
    cases hact
  | reaped _ _ hhimm =>
    rw [hhimm]
    intro hact
    cases hact
  | @held ipBe port buf fromData aunPort ctrl seq data k _ hd _ _ _ hhimm =>
    rw [hhimm]
    intro _
    cases fromData with
    | false => rfl
    | true => exact absurd hd (hop _ _ _ _ _ _ _ rfl)
  | replayed _ _ _ _ hhimm =>
    rw [hhimm]
    exact h

theorem acked_taken {p : Peer} {e : Engine} {op : Op} (htx : e.tx.datagram.getD 0 0 ≠ AUN_TYPE_ACK)
    (himm : NoDataImm e) (hop : op.bringsNoImm4) (hremap : remapped e op = e.map) {seq : UInt32}
    (hack : seq ∈ ackedBy p (step T e op).io.out) :
    lastSeq e.map p.ipBe p.port = some seq ∨
      ∃ fate, takenSeq T p.ipBe p.port e op = some (fate, seq) := by
  obtain ⟨x, hx, hseq⟩ := List.mem_filterMap.mp hack
  have hemit := step_out T e op hx
  have hack' : ∀ {ipBe port aunPort ctrl s ok}, x = ackEffect ipBe port aunPort ctrl s ok →
      ipBe = p.ipBe ∧ port = p.port ∧ s = seq := by
    intro ipBe port aunPort ctrl s ok hxe
    rw [hxe] at hseq
    simp only [ackEffect] at hseq
    split_ifs at hseq with hif
    have hs := buildHeader_seq AUN_TYPE_ACK aunPort ctrl s []
    rw [List.append_nil] at hs
    exact ⟨hif.2.1, hif.2.2.1, hs.symm.trans (Option.some.inj hseq)⟩
  have htype : ∀ {ipBe port dgram ok}, x = .sent ipBe port dgram ok →
      dgram.getD 0 0 = AUN_TYPE_ACK := by
    intro ipBe port dgram ok hxe
    rw [hxe] at hseq
    dsimp only at hseq
    split_ifs at hseq with hif
    exact hif.2.2.2
  cases hemit with
  | plain h =>
    cases x with
    | sent ipBe port dgram ok => exact absurd (congrArg some (htype rfl)) h.1
    | traced _ _ _ _ _ => cases hseq
  | transmit hmay h =>
    have hd := htype rfl
    rw [hd] at h
    rcases h with h | h | ⟨-, h⟩
    · exact absurd h (by decide)
    · exact absurd h (by decide)
    · exact absurd (h ▸ hd) htx
  | himmAck hact hfrom =>
    have hno := himm hact
    change e.himm.fromData = true at hfrom
    rw [hfrom] at hno
    cases hno
  | imm4Ack hd => exact absurd hd (hop _ _ _ _ _ _ _ rfl)
  | @dupAck ipBe port buf aunPort ctrl s data m ok hd hm hnew hvalid hlast =>
    obtain ⟨rfl, rfl, rfl⟩ := hack' rfl
    left
    have hattr : (attributeSource e p.ipBe p.port).2.map = e.map := by
      rw [remapped, if_pos hd.isFunnel] at hremap
      exact hremap
    rw [sourceEntry_beginCall] at hm
    have hentry := lastSeq_attributeSource hm
    rw [hattr, hvalid, if_pos rfl, ← hlast] at hentry
    exact hentry
  | @takenAck handle accept i off f ok hc hip hwhy =>
    obtain ⟨hfip, hfport, rfl⟩ := hack' rfl
    right
    refine ⟨collectFate T e.beginCall i off accept, ?_⟩
    have hfate : collectFate T e.beginCall i off accept = .accepted ∨
        collectFate T e.beginCall i off accept = .shed := by
      rw [← hc.frame] at hip hwhy
      unfold collectFate
      cases accept with
      | true => exact Or.inl rfl
      | false =>
        have hbudget := hwhy.resolve_left (by decide)
        simp [hip, hbudget]
    rw [← takenSeq_beginCall T p.ipBe p.port e]
    simp [takenSeq, hc.event, hc.frame, hfip, hfport, hfate]

structure EngineInv (e : Engine) : Prop where
  rx : RxInv e
  keys : KeysDistinct e
  tx : e.tx.datagram.getD 0 0 ≠ AUN_TYPE_ACK
  imm : NoDataImm e

theorem EngineInv.step {e : Engine} {op : Op} (h : EngineInv e) (hop : op.bringsNoImm4) :
    EngineInv (Aun.step T e op) := by
  have hrx := step_rx T e op
  exact ⟨hrx.inv T h.rx.beginCall, hrx.keys T h.rx.beginCall ⟨h.keys.nodup, h.keys.apart⟩,
    (step_tx T e op).not_ack T h.tx, h.imm.step T hop⟩

theorem PeerInv.acknowledge {p : Peer} {taken taken' : List UInt32} {next : Nat} {wire : List Nat}
    {e : Engine} {acks : List UInt32} {op : Op} (hlast : lastSeq e.map p.ipBe p.port = taken.getLast?)
    (htaken : taken' = taken ++ ((takenSeq T p.ipBe p.port e op).map Prod.snd).toList)
    (h : PeerInv p taken' next wire (Aun.step T e op) acks) (heng : EngineInv e)
    (hop : op.bringsNoImm4) (hremap : remapped e op = e.map) :
    PeerInv p taken' next wire (Aun.step T e op) (acks ++ ackedBy p (Aun.step T e op).io.out) := by
  refine { h with acked := ?_ }
  intro seq hseq
  rcases List.mem_append.mp hseq with hseq | hseq
  · exact h.acked seq hseq
  · rw [htaken]
    rcases acked_taken T heng.tx heng.imm hop hremap hseq with hold | ⟨fate, hnew⟩
    · rw [hlast] at hold
      exact List.mem_append_left _ (List.mem_of_getLast? hold)
    · simp [hnew]

/-! ### The network -/

structure NetInv (hist : List (Step (Network ι) (Move ι))) (s : Network ι) : Prop where
  engine : EngineInv s.engine
  peer : ∀ p, PeerInv (peers p) (takenOf T (peers p) hist) (s.next p) (s.wire p) s.engine (s.acks p)

variable {T peers}

omit [DecidableEq ι] in
theorem takenOf_snoc (p : Peer) (hist : List (Step (Network ι) (Move ι)))
    (st : Step (Network ι) (Move ι)) :
    takenOf T p (hist ++ [st]) = takenOf T p hist ++ ((takenIn T p st).map Prod.snd).toList := by
  cases h : (takenIn T p st).map Prod.snd <;> simp [takenOf, h]

omit [DecidableEq ι] in
theorem takenOf_snoc_none {p : Peer} {hist : List (Step (Network ι) (Move ι))}
    {st : Step (Network ι) (Move ι)} (h : takenIn T p st = none) :
    takenOf T p (hist ++ [st]) = takenOf T p hist := by
  rw [takenOf_snoc, h]
  simp

theorem Op.leavesSetup_imm4 {op : Op} (h : op.leavesSetup = true) : op.bringsNoImm4 := by
  rintro ipBe port buf aunPort ctrl seq data rfl hd
  have htype : buf.getD 0 0 = AUN_TYPE_DATA := hd.kind.1
  simp only [Op.leavesSetup, htype, bne_self_eq_false] at h
  cases h

theorem Op.leavesSetup_map {op : Op} (e : Engine) (h : op.leavesSetup = true) :
    remapped e op = e.map := by
  cases op with
  | init station net => cases h
  | mapAdd net stn ipBe udpPort => cases h
  | udpInput ipBe port buf =>
    have hdata : (buf.getD 0 0 == AUN_TYPE_DATA) = false := by
      simpa [Op.leavesSetup] using h
    simp only [remapped, isFunnel, hdata, Bool.and_false, Bool.false_and]
    rfl
  | _ => rfl

theorem remapped_udpInput {e : Engine} {ipBe : UInt32} {port : UInt16}
    (h : (mapFindByIp e.map ipBe port).isSome = true) (buf : List UInt8) :
    remapped e (.udpInput ipBe port buf) = e.map := by
  obtain ⟨j, hj⟩ := Option.isSome_iff_exists.mp h
  have hattr : (attributeSource e ipBe port).2.map = e.map := by simp [attributeSource, hj]
  simp [remapped, hattr]

theorem isFunnel_imm4 {ipBe : UInt32} {port : UInt16} {buf : List UInt8}
    (h : isFunnel buf = true) : (Op.udpInput ipBe port buf).bringsNoImm4 := by
  rintro ipBe' port' buf' aunPort ctrl seq data hop hd
  obtain ⟨-, -, rfl⟩ := Op.udpInput.inj hop
  obtain ⟨-, hport, hctrl⟩ := hd.kind
  rw [← hd.aunPortEq] at hport
  rw [← hd.ctrlEq] at hctrl
  simp only [isFunnel, hport, hctrl, beq_self_eq_true, Bool.and_self, Bool.not_true,
    Bool.and_false] at h
  cases h

section

variable {hist : List (Step (Network ι) (Move ι))} {s : Network ι}

theorem NetInv.withWire {p : ι} {wire : List Nat} {move : Move ι}
    (h : NetInv T peers hist s)
    (hwire : PeerInv (peers p) (takenOf T (peers p) hist) (s.next p) wire s.engine (s.acks p))
    (hno : ∀ q, takenIn T (peers q) ⟨s, move, s.withWire p wire⟩ = none) :
    NetInv T peers (hist ++ [⟨s, move, s.withWire p wire⟩]) (s.withWire p wire) := by
  refine ⟨h.engine, fun q => ?_⟩
  rw [takenOf_snoc_none (hno q)]
  by_cases hq : q = p
  · subst hq
    simpa [Network.withWire] using hwire
  · simpa [Network.withWire, hq] using h.peer q

omit [DecidableEq ι] in
theorem NetInv.stay {move : Move ι} (h : NetInv T peers hist s)
    (hno : ∀ q, takenIn T (peers q) ⟨s, move, s⟩ = none) :
    NetInv T peers (hist ++ [⟨s, move, s⟩]) s := by
  refine ⟨h.engine, fun q => ?_⟩
  rw [takenOf_snoc_none (hno q)]
  exact h.peer q

omit [DecidableEq ι] in
theorem NetInv.call {op : Op} (h : NetInv T peers hist s) (hip : ∀ p, (peers p).ipBe ≠ 0)
    (hop : op.leavesSetup = true) :
    NetInv T peers (hist ++ [⟨s, .call op, s.call T peers op⟩]) (s.call T peers op) := by
  have himm := Op.leavesSetup_imm4 hop
  have hmap := Op.leavesSetup_map s.engine hop
  refine ⟨h.engine.step T himm, fun p => ?_⟩
  have hforeign : ∀ buf, op = .udpInput (peers p).ipBe (peers p).port buf → isFunnel buf = false := by
    rintro buf rfl
    have hdata : (buf.getD 0 0 == AUN_TYPE_DATA) = false := by
      simpa [Op.leavesSetup] using hop
    simp only [isFunnel, hdata, Bool.and_false, Bool.false_and]
  have htaken : takenOf T (peers p) (hist ++ [⟨s, .call op, s.call T peers op⟩]) =
      takenOf T (peers p) hist ++
        ((takenSeq T (peers p).ipBe (peers p).port s.engine op).map Prod.snd).toList := by
    rw [takenOf_snoc]
    simp only [takenIn, hop, if_true]
  have hcall := (h.peer p).call T (hip p) h.engine.rx h.engine.keys hmap hforeign
  rw [← htaken] at hcall
  exact hcall.acknowledge T (h.peer p).filter htaken h.engine himm hmap

theorem NetInv.deliver {p : ι} {k : Nat} {rest : List Nat} {buf : List UInt8}
    (h : NetInv T peers hist s) (hip : ∀ p, (peers p).ipBe ≠ 0)
    (hapart : ∀ p q, (peers p).ipBe = (peers q).ipBe → (peers p).port = (peers q).port → p = q)
    (hwire : s.wire p = k :: rest) (hbuf : (peers p).script[k]? = some buf)
    (hfunnel : isFunnel buf = true) {s' : Network ι}
    (hs' : s' = (s.withWire p rest).call T peers (.udpInput (peers p).ipBe (peers p).port buf)) :
    NetInv T peers (hist ++ [⟨s, .deliver p, s'⟩]) s' := by
  subst hs'
  have himm : (Op.udpInput (peers p).ipBe (peers p).port buf).bringsNoImm4 := isFunnel_imm4 hfunnel
  have hmap := remapped_udpInput (h.peer p).mapped buf
  have hno : ∀ q, takenSeq T (peers q).ipBe (peers q).port s.engine
      (.udpInput (peers p).ipBe (peers p).port buf) = none := fun q => rfl
  refine ⟨h.engine.step T himm, fun q => ?_⟩
  rw [takenOf_snoc_none rfl]
  have htaken : takenOf T (peers q) hist = takenOf T (peers q) hist ++
      ((takenSeq T (peers q).ipBe (peers q).port s.engine
        (.udpInput (peers p).ipBe (peers p).port buf)).map Prod.snd).toList := by
    rw [hno q]
    simp
  have hinv : PeerInv (peers q) (takenOf T (peers q) hist) (s.next q)
      ((s.withWire p rest).wire q)
      (Aun.step T s.engine (.udpInput (peers p).ipBe (peers p).port buf)) (s.acks q) := by
    have hq := h.peer q
    by_cases hqp : q = p
    · subst hqp
      rw [hwire] at hq
      have := hq.deliver T (hip q) h.engine.rx h.engine.keys hbuf
      simpa [Network.withWire] using this
    · have hforeign : ∀ buf', Op.udpInput (peers p).ipBe (peers p).port buf =
          .udpInput (peers q).ipBe (peers q).port buf' → isFunnel buf' = false := by
        intro buf' hop
        obtain ⟨h1, h2, -⟩ := Op.udpInput.inj hop
        exact absurd (hapart p q h1 h2).symm hqp
      have := hq.call T (hip q) h.engine.rx h.engine.keys hmap hforeign
      rw [← htaken] at this
      simpa [Network.withWire, hqp] using this
  exact hinv.acknowledge T (h.peer q).filter htaken h.engine himm hmap

theorem NetInv.ackArrives {p : ι} {seq : UInt32} (h : NetInv T peers hist s)
    (hp : (peers p).Sender) (hack : seq ∈ s.acks p) (hseq : (peers p).seqs[s.next p]? = some seq)
    {s' : Network ι} (hs' : s' = { s with next := Function.update s.next p (s.next p + 1) }) :
    NetInv T peers (hist ++ [⟨s, .ackArrives p seq, s'⟩]) s' := by
  subst hs'
  refine ⟨h.engine, fun q => ?_⟩
  rw [takenOf_snoc_none rfl]
  by_cases hq : q = p
  · subst hq
    simpa using (h.peer q).ackArrives hp hack hseq
  · simpa [hq] using h.peer q

theorem NetInv.step (h : NetInv T peers hist s) (hsender : ∀ p, (peers p).Sender)
    (hapart : ∀ p q, (peers p).ipBe = (peers q).ipBe → (peers p).port = (peers q).port → p = q)
    (hip : ∀ p, (peers p).ipBe ≠ 0) (hfunnel : ∀ p, ∀ buf ∈ (peers p).script, isFunnel buf = true)
    (move : Move ι) :
    NetInv T peers (hist ++ [⟨s, move, netStep T peers s move⟩]) (netStep T peers s move) := by
  cases move with
  | send p =>
    rw [netStep]
    split_ifs with hlt
    · exact h.withWire ((h.peer p).send (by simpa [Peer.seqs] using hlt)) fun q => rfl
    · exact h.stay fun q => rfl
  | lose p n =>
    have hsub : ((s.wire p).eraseIdx n).Sublist (s.wire p) := List.eraseIdx_sublist ..
    exact h.withWire ((h.peer p).rewire ((h.peer p).sorted.sublist hsub) fun k hk => hsub.subset hk)
      fun q => rfl
  | duplicate p n =>
    rw [netStep]
    cases hn : (s.wire p)[n]? with
    | none => exact h.stay fun q => rfl
    | some k =>
      exact h.withWire ((h.peer p).rewire (pairwise_insertIdx_self (h.peer p).sorted hn)
        fun j hj => mem_insertIdx_self hn hj) fun q => rfl
  | deliver p =>
    rw [netStep]
    cases hwire : s.wire p with
    | nil => exact h.stay fun q => rfl
    | cons k rest =>
      have hk : k < (peers p).script.length := by
        have hon := (h.peer p).onWire k (by simp [hwire])
        simpa [Peer.seqs] using hon.2.2
      have hbuf : (peers p).script[k]? = some ((peers p).script.getD k []) := by
        simp [List.getElem?_eq_getElem hk]
      exact h.deliver hip hapart hwire hbuf (hfunnel p _ (List.mem_of_getElem? hbuf)) rfl
  | ackArrives p seq =>
    rw [netStep]
    split_ifs with hack
    · exact h.ackArrives (hsender p) hack.1 hack.2 rfl
    · exact h.stay fun q => rfl
  | call op =>
    rw [netStep]
    split_ifs with hop
    · exact h.call hip hop
    · refine h.stay fun q => ?_
      simp [takenIn, hop]

end

/-! ### An engine that has just been set up -/

structure Fresh (e : Engine) : Prop where
  queues : ∀ i, (e.rx i).queue = []
  stamps : ∀ m ∈ e.map, m.seqValid = false
  idle : e.himm.active = false

theorem Fresh.mapAdd {e : Engine} (h : Fresh e) (net stn : UInt8) (ipBe : UInt32) (port : UInt16) :
    Fresh (aunMapAdd e net stn ipBe port).2 := by
  unfold aunMapAdd
  dsimp only
  generalize (if port = 0 then AUN_DEFAULT_UDP_PORT else port) = udpPort
  cases mapFindByAddr e.map net stn with
  | some i =>
    refine ⟨h.queues, ?_, h.idle⟩
    intro m hm
    obtain ⟨j, hj⟩ := List.mem_iff_getElem?.mp hm
    simp only [Engine.withMap, List.getElem?_modify] at hj
    obtain ⟨m', hm', hpoint⟩ := Option.map_eq_some_iff.mp hj
    have hold := h.stamps m' (List.mem_of_getElem? hm')
    split_ifs at hpoint with hij
    · rw [← hpoint]
      rfl
    · rw [← hpoint]
      exact hold
  | none =>
    dsimp only
    split_ifs
    · exact h
    · refine ⟨h.queues, ?_, h.idle⟩
      intro m hm
      rcases List.mem_append.mp hm with hm | hm
      · exact h.stamps m hm
      · rw [List.mem_singleton.mp hm]

theorem Fresh.rxOpen {e : Engine} (h : Fresh e) (handle port stn net : UInt8) (buf bufSize : Nat) :
    Fresh (aunRxOpen e handle port stn net buf bufSize).2 := by
  unfold aunRxOpen
  cases rxHandle handle with
  | none =>
    dsimp only
    split_ifs <;> exact h
  | some i =>
    dsimp only
    split_ifs
    · exact h
    · exact h
    · refine ⟨fun j => ?_, h.stamps, h.idle⟩
      by_cases hj : j = i
      · subst hj
        simp [Engine.setBlock, RxBlock.queue, RxBlock.zero]
      · simpa [Engine.setBlock, hj] using h.queues j

theorem Fresh.step {e : Engine} {op : Op} (h : Fresh e) (hop : op.configures = true) :
    Fresh (Aun.step T e op) := by
  have hb : Fresh e.beginCall := { h with }
  cases op with
  | mapAdd net stn ipBe udpPort => exact hb.mapAdd net stn ipBe udpPort
  | rxOpen handle port stn net buf bufSize => exact hb.rxOpen handle port stn net buf bufSize
  | setAddressing a b c d => exact { h with }
  | testResponder a b c => exact { h with }
  | setMachineId id => exact { h with }
  | setTrace installed => exact { h with }
  | setHostImm enable => exact ⟨h.queues, h.stamps, rfl⟩
  | _ => cases hop

theorem fresh_setup (mem : Nat → UInt8) (station net : UInt8) {setup : List Op}
    (hsetup : ∀ op ∈ setup, op.configures = true) : Fresh (runState T mem station net setup) := by
  induction setup using List.reverseRecOn with
  | nil => exact ⟨fun i => rfl, by rintro m ⟨⟩, rfl⟩
  | append_singleton setup op ih =>
    rw [runState_snoc]
    refine (ih fun op' hop' => hsetup op' ?_).step (hsetup op ?_)
    · exact List.mem_append_left _ hop'
    · exact List.mem_append_right _ (List.mem_singleton_self op)

omit [DecidableEq ι] in
theorem netInv_start {mem : Nat → UInt8} {station net : UInt8} {setup : List Op}
    (hsetup : ∀ op ∈ setup, op.configures = true)
    (hmapped : ∀ p, (mapFindByIp (runState T mem station net setup).map (peers p).ipBe
      (peers p).port).isSome = true) :
    NetInv T peers [] (netStart T mem station net setup : Network ι) := by
  have hfresh : Fresh (runState T mem station net setup) := fresh_setup mem station net hsetup
  have hack := ackInv_run T mem station net setup
  refine ⟨⟨hack.rx, hack.keys, hack.tx, fun hact => ?_⟩, fun p => ?_⟩
  · change (runState T mem station net setup).himm.active = true at hact
    rw [hfresh.idle] at hact
    cases hact
  · refine ⟨rfl, ⟨le_rfl, Nat.zero_le _⟩, List.Pairwise.nil, by simp [netStart], ?_, ?_, hmapped p,
      by simp [netStart]⟩
    · intro seq hq
      refine absurd (fun i f hf => ?_) hq
      change f ∈ ((runState T mem station net setup).rx i).queue at hf
      rw [hfresh.queues i] at hf
      cases hf
    · obtain ⟨j, hj⟩ := Option.isSome_iff_exists.mp (hmapped p)
      obtain ⟨m, hm, -⟩ := mapFindByIp_some hj
      have hstamp := hfresh.stamps m (List.mem_of_getElem? hm)
      change lastSeq (runState T mem station net setup).map _ _ = none
      simp [lastSeq, hj, hm, hstamp]

omit [DecidableEq ι] in
theorem acceptedOf_sublist (p : Peer) (hist : List (Step (Network ι) (Move ι))) :
    (acceptedOf T p hist).Sublist (takenOf T p hist) := by
  unfold acceptedOf takenOf
  induction hist with
  | nil => exact List.Sublist.slnil
  | cons st hist ih =>
    rw [List.filterMap_cons, List.filterMap_cons]
    cases h : takenIn T p st with
    | none => exact ih
    | some taken =>
      obtain ⟨fate, seq⟩ := taken
      cases fate with
      | accepted => exact ih.cons_cons seq
      | _ => exact ih.cons seq

/-- Over every run of the network, the host accepts no datagram of a peer twice, and a
    datagram that was ACKed was taken exactly once. -/
theorem at_most_once (mem : Nat → UInt8) (station net : UInt8) (setup : List Op)
    (hsetup : ∀ op ∈ setup, op.configures = true) (hsender : ∀ p, (peers p).Sender)
    (hapart : ∀ p q, (peers p).ipBe = (peers q).ipBe → (peers p).port = (peers q).port → p = q)
    (hmapped : ∀ p, (mapFindByIp (runState T mem station net setup).map (peers p).ipBe
      (peers p).port).isSome = true)
    (hip : ∀ p, (peers p).ipBe ≠ 0) (hfunnel : ∀ p, ∀ buf ∈ (peers p).script, isFunnel buf = true)
    (moves : List (Move ι)) (p : ι) :
    (acceptedOf T (peers p)
        (History.history (netStep T peers) (netStart T mem station net setup) moves)).Nodup ∧
      ∀ seq ∈ (History.final (netStep T peers) (netStart T mem station net setup) moves).acks p,
        (takenOf T (peers p)
          (History.history (netStep T peers) (netStart T mem station net setup) moves)).count seq =
            1 := by
  have hinv := History.history_induction (netStep T peers) (NetInv T peers)
    (netInv_start hsetup hmapped) (fun hist s move h => h.step hsender hapart hip hfunnel move) moves
  have hnodup := (hinv.peer p).nodup (hsender p)
  refine ⟨hnodup.sublist (acceptedOf_sublist _ _), fun seq hseq => ?_⟩
  exact List.count_eq_one_of_mem hnodup ((hinv.peer p).acked seq hseq)

def onePeer (ipBe : UInt32) (buf : List UInt8) : Unit → Peer := fun _ => ⟨ipBe, 32768, [buf]⟩

theorem onePeer_sender (ipBe : UInt32) {buf : List UInt8} (hlen : AUN_HDR_SIZE ≤ buf.length)
    (hdata : buf.getD 0 0 = AUN_TYPE_DATA) : ∀ p, (onePeer ipBe buf p).Sender := by
  refine fun p => ⟨fun buf' hbuf' => ?_, List.nodup_singleton _⟩
  rw [List.mem_singleton.mp hbuf']
  exact ⟨hlen, hdata⟩

/-- The peer sends its frame, the host accepts it, and the peer, which has not heard the ACK,
    sends it again. -/
def sentTwice : List (Move Unit) :=
  [.send (), .duplicate () 0, .deliver (), .call (.rxCollect 0 true), .lose () 0, .send (),
    .deliver (), .call (.rxCollect 0 true)]

theorem at_most_once_sent_twice :
    (acceptedOf .steady (onePeer 0x0100007F [2, 0x99, 0, 0, 4, 0, 0, 0, 7] ())
        (History.history (netStep .steady (onePeer 0x0100007F [2, 0x99, 0, 0, 4, 0, 0, 0, 7]))
          (netStart .steady (fun _ => 0) 1 0
            [.mapAdd 0 5 0x0100007F 0, .rxOpen 0 0 0xFF 0xFF 1000 16]) sentTwice)).Nodup :=
  (at_most_once (fun _ => 0) 1 0 _ (by decide) (onePeer_sender _ (by decide) (by decide))
    (fun _ _ _ _ => rfl) (by decide) (by decide) (by decide) sentTwice ()).1

/-- Two kinds of peers the filters do not cover.  The address 0.0.0.0 marks a frame as local
    or broadcast, so a peer that has it is not remembered and its retransmit is accepted
    again; and DATA to port 0 that is a 4-way immediate is ACKed without being queued. -/
theorem unfiltered_peers :
    (let peers := onePeer 0 [2, 0x99, 0, 0, 4, 0, 0, 0, 7]
     let setup := [Op.mapAdd 0 5 0 0, .rxOpen 0 0 0xFF 0xFF 1000 16]
     (∀ op ∈ setup, op.configures = true) ∧ (∀ p, (peers p).Sender) ∧
      (mapFindByIp (runState .steady (fun _ => 0) 1 0 setup).map 0 32768).isSome = true ∧
      ¬(acceptedOf .steady (peers ()) (History.history (netStep .steady peers)
        (netStart .steady (fun _ => 0) 1 0 setup) sentTwice)).Nodup) ∧
    (let peers := onePeer 0x0100007F [2, 0, 3, 0, 4, 0, 0, 0, 1, 2, 3, 4]
     let setup := [Op.mapAdd 0 5 0x0100007F 0, .setHostImm true]
     let moves := [Move.send (), .deliver (), .call (.himmReply [])]
     (∀ op ∈ setup, op.configures = true) ∧ (∀ p, (peers p).Sender) ∧
      (mapFindByIp (runState .steady (fun _ => 0) 1 0 setup).map 0x0100007F 32768).isSome = true ∧
      (4 ∈ (History.final (netStep .steady peers)
        (netStart .steady (fun _ => 0) 1 0 setup) moves).acks ()) ∧
      (takenOf .steady (peers ()) (History.history (netStep .steady peers)
        (netStart .steady (fun _ => 0) 1 0 setup) moves)).count 4 = 0) := by
  refine ⟨⟨by decide, onePeer_sender _ (by decide) (by decide), by decide, by decide +kernel⟩,
    by decide, onePeer_sender _ (by decide) (by decide), by decide, by decide +kernel, by decide +kernel⟩

end Pi1MHz.Aun
