import Pi1MHz.AunInvariant

/-!
# Frames taken from a queue

A frame of the receive funnel is known by its source address, source port and
sequence.  This module says when `aun_rx_collect` takes such a frame (`Taken`), what
the queues hold afterwards, and that no two frames waiting anywhere in the engine ever
share an identity.
-/

namespace Pi1MHz.Aun

open DeadlineTable (own)
open History (Step)
open WrapClock (reached)

variable (T : Transport)

structure FrameKey where
  ipBe : UInt32
  port : UInt16
  seq : UInt32
deriving DecidableEq, Repr

def RxFrame.key (f : RxFrame) : FrameKey := ⟨f.srcIpBe, f.srcPort, f.seq⟩

/-- A stream is under a live condemnation at clock read `k`. -/
def CondemnedAt (e : Engine) (stream : Stream) (k : Nat) : Prop :=
  ∃ s, own e.condemned stream = some s ∧ reached (T.now k) (e.condemned s).due = false

def BudgetSpent (st : Step Engine Op) (f : RxFrame) : Prop :=
  AUN_DEFER_RETRIES ≤ f.rejects ∨
    (AUN_CONDEMN_RETRIES ≤ f.rejects ∧
      ∃ k, st.pre.io.reads ≤ k ∧ k < st.post.io.reads ∧ CondemnedAt T st.pre f.stream k)

/-- A step in which `aun_rx_collect` takes the frame `f` from a queue: accepted, or
    with its reject budget spent. -/
def Taken (st : Step Engine Op) (f : RxFrame) : Prop :=
  ∃ handle accept i off, st.op = .rxCollect handle accept ∧ openBlock st.pre handle = some i ∧
    (st.pre.rx i).queue[off]? = some f ∧
    (st.post.rx i).queue = (st.pre.rx i).queue.eraseIdx off ∧
    (accept = true ∨ BudgetSpent T st f)

/-! ### What a collect that takes a frame leaves behind -/

theorem collectScan_queue (e : Engine) (i : Fin AUN_RX_BLOCKS) :
    (collectScan T e i).block.queue = (e.rx i).queue := by
  rw [collectScan_block]
  rfl

theorem Collects.eq {e : Engine} {handle : UInt8} {i : Fin AUN_RX_BLOCKS} {off : Nat} {f : RxFrame}
    (hc : Collects T e handle i off f) (accept : Bool) :
    aunRxCollect T e handle accept = (.ok, unpresent
      (if accept then collectAccept T (scanned T e i) i off
        else collectReject T (scanned T e i) i off) i) := by
  simp [aunRxCollect, hc.opened, hc.nonempty, collectFrame, hc.found]

section

variable {e : Engine} {handle : UInt8} {i : Fin AUN_RX_BLOCKS} {off : Nat} {f : RxFrame}
  {accept : Bool}

theorem Collects.queued (hc : Collects T e handle i off f) (hinv : RxInv e) :
    off < (e.rx i).count := by
  have hfree := (collectScan_free T (hinv.blocks i) hc.found).queued
  rw [collectScan_block] at hfree
  exact hfree

theorem Collects.getElem? (hc : Collects T e handle i off f) (hinv : RxInv e) :
    (e.rx i).queue[off]? = some f := by
  rw [RxBlock.getElem?_queue, if_pos (hc.queued T hinv), hc.frame]

theorem Collects.taken_rx (hc : Collects T e handle i off f) (hip : f.srcIpBe ≠ 0)
    (hwhy : accept = true ∨ rejectBudget (collectCondemned T e i f.stream).hit ≤ f.rejects) :
    (aunRxCollect T e handle accept).2.rx = Function.update e.rx i
      (rxRemoveAt (collectScan T e i).block off).unpresented := by
  rw [hc.eq]
  obtain rfl := hc.frame
  apply unpresent_update
  cases accept with
  | true =>
    simp only [if_true, collectAccept_rx, scanned_rx]
    simp
  | false =>
    have hbudget := hwhy.resolve_left (by decide)
    simp [collectReject_shed T hip hbudget, collectShed_rx, scanned_rx]

theorem Collects.taken_map (hc : Collects T e handle i off f) (hip : f.srcIpBe ≠ 0)
    (hwhy : accept = true ∨ rejectBudget (collectCondemned T e i f.stream).hit ≤ f.rejects) :
    (aunRxCollect T e handle accept).2.map = stampMap e.map f.srcIpBe f.srcPort f.seq := by
  rw [hc.eq]
  obtain rfl := hc.frame
  rw [unpresent_map]
  cases accept with
  | true => simp [collectAccept_map, hip]
  | false =>
    have hbudget := hwhy.resolve_left (by decide)
    simp [collectReject_shed T hip hbudget, collectShed]

theorem Collects.taken_queue (hc : Collects T e handle i off f) (hinv : RxInv e)
    (hip : f.srcIpBe ≠ 0)
    (hwhy : accept = true ∨ rejectBudget (collectCondemned T e i f.stream).hit ≤ f.rejects) :
    ((aunRxCollect T e handle accept).2.rx i).queue = (e.rx i).queue.eraseIdx off := by
  rw [hc.taken_rx T hip hwhy, Function.update_self, ← collectScan_queue T e i]
  have hq := rxRemoveAt_queue (collectScan_free T (hinv.blocks i) hc.found).queued
    (collectScan_inv T (hinv.blocks i)).count
  exact hq

theorem Collects.budgetSpent (hc : Collects T e handle i off f) (hip : f.srcIpBe ≠ 0)
    (hbudget : rejectBudget (collectCondemned T e i f.stream).hit ≤ f.rejects) :
    AUN_DEFER_RETRIES ≤ f.rejects ∨ (AUN_CONDEMN_RETRIES ≤ f.rejects ∧
      ∃ k, e.io.reads ≤ k ∧ k < (aunRxCollect T e handle false).2.io.reads ∧
        CondemnedAt T e f.stream k) := by
  unfold rejectBudget at hbudget
  cases hhit : (collectCondemned T e i f.stream).hit with
  | none => exact Or.inl (by simpa [hhit] using hbudget)
  | some s =>
    obtain ⟨hown, hlive, -, hreads⟩ := DeadlineTable.find_hit hhit
    refine Or.inr ⟨by simpa [hhit] using hbudget, (collectScan T e i).reads,
      collectScan_reads T e i, ?_, s, hown, hlive⟩
    rw [hc.eq]
    obtain rfl := hc.frame
    have hbudget' : rejectBudget (collectCondemned T e i ((e.rx i).frameAt off).stream).hit ≤
        ((e.rx i).frameAt off).rejects := by simpa [rejectBudget, hhit] using hbudget
    have hplace : (collectCondemned T e i ((e.rx i).frameAt off).stream).reads ≤
        (condemnSlot T (collectCondemned T e i ((e.rx i).frameAt off).stream)
          ((e.rx i).frameAt off).stream).2 := DeadlineTable.place_reads_le _ _ _ _
    have hfound : (collectScan T e i).reads ≤
        (collectCondemned T e i ((e.rx i).frameAt off).stream).reads :=
      DeadlineTable.find_reads_le _ _ _ _
    simp only [Bool.false_eq_true, if_false, unpresent_io, collectReject_shed T hip hbudget',
      collectShed_reads]
    omega

theorem Collects.taken (hc : Collects T e.beginCall handle i off f) (hinv : RxInv e)
    (hip : f.srcIpBe ≠ 0) (hwhy : accept = true ∨
      rejectBudget (collectCondemned T e.beginCall i f.stream).hit ≤ f.rejects) :
    Taken T ⟨e, .rxCollect handle accept, step T e (.rxCollect handle accept)⟩ f := by
  refine ⟨handle, accept, i, off, rfl, hc.opened, hc.getElem? T hinv.beginCall,
    hc.taken_queue T hinv.beginCall hip hwhy, ?_⟩
  cases accept with
  | true => exact Or.inl rfl
  | false => exact Or.inr (hc.budgetSpent T hip (hwhy.resolve_left (by decide)))

end

/-! ### Wire identities in the queues -/

def wireKeys (q : List RxFrame) : List FrameKey :=
  (q.map RxFrame.key).filter fun k => k.ipBe ≠ 0

theorem mem_wireKeys {q : List RxFrame} {k : FrameKey} :
    k ∈ wireKeys q ↔ k.ipBe ≠ 0 ∧ ∃ f ∈ q, f.key = k := by
  simp [wireKeys, and_comm]

@[simp] theorem wireKeys_singleton {f : RxFrame} :
    wireKeys [f] = if f.srcIpBe ≠ 0 then [f.key] else [] := by
  by_cases hip : f.srcIpBe = 0 <;> simp [wireKeys, RxFrame.key, hip]

theorem wireKeys_append (q r : List RxFrame) : wireKeys (q ++ r) = wireKeys q ++ wireKeys r := by
  simp [wireKeys]

theorem wireKeys_eraseIdx_perm {q : List RxFrame} {off : Nat} {f : RxFrame}
    (h : q[off]? = some f) (hip : f.srcIpBe ≠ 0) :
    (f.key :: wireKeys (q.eraseIdx off)).Perm (wireKeys q) := by
  obtain ⟨hlt, hget⟩ := List.getElem?_eq_some_iff.mp h
  have hperm := List.getElem_cons_eraseIdx_perm hlt
  rw [hget] at hperm
  have hkeys := (hperm.map RxFrame.key).filter fun k => k.ipBe ≠ 0
  rwa [List.map_cons, List.filter_cons_of_pos (by simp [RxFrame.key, hip])] at hkeys

theorem wireKeys_eraseIdx_sublist (q : List RxFrame) (off : Nat) :
    (wireKeys (q.eraseIdx off)).Sublist (wireKeys q) :=
  ((List.eraseIdx_sublist q off).map _).filter _

structure KeysDistinct (e : Engine) : Prop where
  nodup : ∀ i, (wireKeys (e.rx i).queue).Nodup
  apart : ∀ i j, i ≠ j → ∀ k ∈ wireKeys (e.rx i).queue, k ∉ wireKeys (e.rx j).queue

theorem keysDistinct_start (mem : Nat → UInt8) (station net : UInt8) :
    KeysDistinct (start mem station net) := by
  refine ⟨fun i => List.nodup_nil, fun i j _ k hk => ?_⟩
  cases hk

/-- No queue of `e'` holds an identity that was not in that queue in `e`. -/
def NoNewKeys (e e' : Engine) : Prop :=
  ∀ i, (wireKeys (e'.rx i).queue).Sublist (wireKeys (e.rx i).queue)

theorem noNewKeys_of_update {e e' : Engine} {i : Fin AUN_RX_BLOCKS} {b : RxBlock}
    (hrx : e'.rx = Function.update e.rx i b)
    (hsub : (wireKeys b.queue).Sublist (wireKeys (e.rx i).queue)) : NoNewKeys e e' := by
  intro j
  rw [hrx]
  by_cases hj : j = i
  · subst hj
    rwa [Function.update_self]
  · rw [Function.update_of_ne hj]

theorem noNewKeys_of_eq {e e' : Engine} (hrx : e'.rx = e.rx) : NoNewKeys e e' := by
  intro i
  rw [hrx]

theorem noNewKeys_of_empty {e e' : Engine} {i : Fin AUN_RX_BLOCKS} {b : RxBlock}
    (hrx : e'.rx = Function.update e.rx i b) (hcount : b.count = 0) : NoNewKeys e e' := by
  have hnil : b.queue = [] := List.length_eq_zero_iff.mp (by rw [RxBlock.length_queue, hcount])
  exact noNewKeys_of_update hrx (by rw [hnil]; exact List.nil_sublist _)

theorem KeysDistinct.shrink {e e' : Engine} (h : KeysDistinct e) (hsub : NoNewKeys e e') :
    KeysDistinct e' :=
  ⟨fun j => (h.nodup j).sublist (hsub j),
    fun j k hjk key hkey hk => h.apart j k hjk key ((hsub j).subset hkey) ((hsub k).subset hk)⟩

theorem KeysDistinct.push {e e' : Engine} {i : Fin AUN_RX_BLOCKS} {f : RxFrame}
    (h : KeysDistinct e) (hrx : e'.rx = Function.update e.rx i ((e.rx i).push f))
    (hroom : (e.rx i).count < AUN_RX_QUEUE) (hfresh : ∀ j, f.key ∉ wireKeys (e.rx j).queue) :
    KeysDistinct e' := by
  have hself : (wireKeys (e'.rx i).queue).Sublist (wireKeys (e.rx i).queue ++ [f.key]) := by
    rw [hrx, Function.update_self, RxBlock.push_queue f hroom, wireKeys_append, wireKeys_singleton]
    apply List.Sublist.append_left
    split_ifs
    · exact List.Sublist.refl _
    · exact List.nil_sublist _
  have hother : ∀ j, j ≠ i → e'.rx j = e.rx j := by
    intro j hj
    rw [hrx, Function.update_of_ne hj]
  have hmem : ∀ j, ∀ k ∈ wireKeys (e'.rx j).queue, k ∈ wireKeys (e.rx j).queue ∨ j = i ∧ k = f.key := by
    intro j k hk
    by_cases hj : j = i
    · subst hj
      rcases List.mem_append.mp (hself.subset hk) with hk | hk
      · exact Or.inl hk
      · exact Or.inr ⟨rfl, List.mem_singleton.mp hk⟩
    · rw [hother j hj] at hk
      exact Or.inl hk
  refine ⟨?_, ?_⟩
  · intro j
    by_cases hj : j = i
    · subst hj
      refine List.Nodup.sublist hself ?_
      rw [List.nodup_append]
      refine ⟨h.nodup j, List.nodup_singleton _, ?_⟩
      intro a ha b hb hab
      rw [List.mem_singleton.mp hb] at hab
      exact hfresh j (hab ▸ ha)
    · rw [hother j hj]
      exact h.nodup j
  · intro j k hjk key hj hk
    rcases hmem j key hj with hj | ⟨rfl, rfl⟩
    · rcases hmem k key hk with hk | ⟨rfl, rfl⟩
      · exact h.apart j k hjk key hj hk
      · exact hfresh j hj
    · rcases hmem k f.key hk with hk | ⟨rfl, -⟩
      · exact hfresh k hk
      · exact hjk rfl

theorem not_mem_of_rxSeqPending {e : Engine} (hinv : RxInv e) {ipBe : UInt32} {port : UInt16}
    {seq : UInt32} (h : rxSeqPending e ipBe port seq = false) (i : Fin AUN_RX_BLOCKS) :
    (⟨ipBe, port, seq⟩ : FrameKey) ∉ wireKeys (e.rx i).queue := by
  intro hmem
  obtain ⟨-, f, hf, hkey⟩ := mem_wireKeys.mp hmem
  have hopen : (e.rx i).isOpen = true := by
    cases ho : (e.rx i).isOpen with
    | true => rfl
    | false =>
      have hlen := (e.rx i).length_queue
      rw [(hinv.blocks i).closed ho] at hlen
      rw [List.length_eq_zero_iff.mp hlen] at hf
      cases hf
  simp only [RxFrame.key, FrameKey.mk.injEq] at hkey
  obtain ⟨rfl, rfl, rfl⟩ := hkey
  have htrue : rxSeqPending e f.srcIpBe f.srcPort f.seq = true := by
    unfold rxSeqPending
    rw [List.any_eq_true]
    refine ⟨i, List.mem_finRange i, ?_⟩
    rw [hopen, Bool.true_and, List.any_eq_true]
    exact ⟨f, hf, by simp⟩
  rw [h] at htrue
  cases htrue

theorem rxFirstEligible_queue (b : RxBlock) (reads : Nat) :
    (rxFirstEligible T.now b reads).block.queue = b.queue := by
  rw [rxFirstEligible, rxScan_block]
  rfl

theorem RxStep.noNewKeys {e e' : Engine} {op : Op} (hs : RxStep T e op e') (hinv : RxInv e) :
    NoNewKeys e e' ∨ ∃ ipBe port buf aunPort ctrl seq data m i, op = .udpInput ipBe port buf ∧
      FunnelData buf aunPort ctrl seq data ∧ sourceEntry e ipBe port = some m ∧
      rxSeqPending e ipBe port seq = false ∧ ¬(m.seqValid ∧ seq = m.lastRxSeq) ∧
      (e.rx i).count < AUN_RX_QUEUE ∧
      e'.rx = Function.update e.rx i
        ((e.rx i).push ⟨m.stn, m.net, aunPort, ctrl ||| 0x80, 0, seq, ipBe, port, data⟩) ∧
      e'.map = (attributeSource e ipBe port).2.map := by
  have hkept : ∀ {b : RxBlock} {i : Fin AUN_RX_BLOCKS}, b.queue = (e.rx i).queue →
      (wireKeys b.queue).Sublist (wireKeys (e.rx i).queue) := by
    intro b i heq
    rw [heq]
  have herase : ∀ {i : Fin AUN_RX_BLOCKS} {off : Nat}, (collectScan T e i).off = some off →
      (wireKeys (rxRemoveAt (collectScan T e i).block off).unpresented.queue).Sublist
        (wireKeys (e.rx i).queue) := by
    intro i off hoff
    have hq : (rxRemoveAt (collectScan T e i).block off).unpresented.queue =
        (collectScan T e i).block.queue.eraseIdx off :=
      rxRemoveAt_queue (collectScan_free T (hinv.blocks i) hoff).queued
        (collectScan_inv T (hinv.blocks i)).count
    rw [hq, collectScan_queue]
    exact wireKeys_eraseIdx_sublist _ _
  cases hs with
  | kept hsame => exact Or.inl (noNewKeys_of_eq hsame.rx)
  | reset hrx =>
    refine Or.inl fun i => ?_
    rw [hrx]
    exact List.nil_sublist _
  | mapped hrx => exact Or.inl (noNewKeys_of_eq hrx)
  | opened hi hbuf hsize hrx => exact Or.inl (noNewKeys_of_empty hrx rfl)
  | closed hi hrx => exact Or.inl (noNewKeys_of_empty hrx rfl)
  | presented hi hcount hpres hoff hrx =>
    exact Or.inl (noNewKeys_of_update hrx (hkept (rxFirstEligible_queue T _ _)))
  | counted hi hrx =>
    obtain ⟨t, ht, -⟩ := rxCountReady_block T.now (e.rx _).count 0 (e.rx _) e.io.reads
    exact Or.inl (noNewKeys_of_update hrx (hkept (by rw [ht]; rfl)))
  | idle hi hnone hrx => exact Or.inl (noNewKeys_of_update hrx (hkept rfl))
  | accepted hc hrx => exact Or.inl (noNewKeys_of_update hrx (herase hc.found))
  | dropped hc hip hrx => exact Or.inl (noNewKeys_of_update hrx (herase hc.found))
  | shed hc hip hbudget hrx => exact Or.inl (noNewKeys_of_update hrx (herase hc.found))
  | deferred hc hip hbudget hrx =>
    refine Or.inl (noNewKeys_of_update hrx ?_)
    have hq := burn_map RxFrame.key (fun _ _ => rfl)
      (collectScan_free T (hinv.blocks _) hc.found).queued
      (collectScan_inv T (hinv.blocks _)).count
    unfold wireKeys
    rw [← collectScan_queue T e, ← hq]
    exact List.Sublist.refl _
  | learned hd hrx => exact Or.inl (noNewKeys_of_eq hrx)
  | arrived hd hm hnew hdup hst hrx hmap =>
    exact Or.inr ⟨_, _, _, _, _, _, _, _, _, rfl, hd, hm, hnew, hdup, hst.room, hrx, hmap⟩
  | arrivedLocal hst hrx =>
    refine Or.inl (noNewKeys_of_update hrx ?_)
    rw [RxBlock.push_queue _ hst.room, wireKeys_append, wireKeys_singleton]
    simp [localFrame]

theorem RxStep.keys {e e' : Engine} {op : Op} (hs : RxStep T e op e') (hinv : RxInv e)
    (h : KeysDistinct e) : KeysDistinct e' := by
  rcases hs.noNewKeys T hinv with hsub | ⟨_, _, _, _, _, _, _, _, _, -, -, -, hnew, -, hroom, hrx, -⟩
  · exact h.shrink hsub
  · exact h.push hrx hroom fun j => not_mem_of_rxSeqPending hinv hnew j

end Pi1MHz.Aun
