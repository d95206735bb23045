import Pi1MHz.AunRxSteps

/-!
# The representation invariant of the receive side

`BlockInv` is what every receive block satisfies in every reachable state.  The part
that carries the argument is `deferred`: a valid deferral always belongs to a stream
with a frame in the queue.
-/

namespace Pi1MHz.Aun

open DeadlineTable (Entry own Unique)
open WrapClock (reached)

variable (T : Transport)

structure BlockInv (b : RxBlock) : Prop where
  head : b.head < AUN_RX_QUEUE
  count : b.count ≤ AUN_RX_QUEUE
  closed : b.isOpen = false → b.count = 0
  presOff : b.presented = true → b.presOff < b.count
  presFree : b.presented = true →
    (b.frameAt b.presOff).srcIpBe = 0 ∨ own b.defer (b.frameAt b.presOff).stream = none
  frames : ∀ f ∈ b.queue, f.len ≤ b.bufSize ∧ f.len ≤ AUN_MAX_DATA ∧ f.rejects ≤ AUN_DEFER_RETRIES
  unique : Unique b.defer
  deferred : ∀ s, (b.defer s).valid = true →
    ∃ f ∈ b.queue, f.srcIpBe ≠ 0 ∧ f.stream = (b.defer s).key

/-! ### Blocks -/

theorem blockInv_empty {b : RxBlock} (hhead : b.head = 0) (hcount : b.count = 0)
    (hpres : b.presented = false) (hdefer : ∀ s, (b.defer s).valid = false) : BlockInv b where
  head := by rw [hhead]; decide
  count := by rw [hcount]; exact Nat.zero_le _
  closed _ := hcount
  presOff h := by simp [hpres] at h
  presFree h := by simp [hpres] at h
  frames f hf := by
    obtain ⟨off, hoff, -⟩ := RxBlock.mem_queue.mp hf
    omega
  unique i j hi := by simp [hdefer] at hi
  deferred s hs := by simp [hdefer] at hs

theorem blockInv_zero : BlockInv RxBlock.zero := blockInv_empty rfl rfl rfl fun _ => rfl

theorem blockInv_fresh (port stn net : UInt8) (buf bufSize : Nat) :
    BlockInv (freshBlock port stn net buf bufSize) :=
  blockInv_empty rfl rfl rfl fun _ => rfl

theorem BlockInv.unpresented {b : RxBlock} (h : BlockInv b) :
    BlockInv b.unpresented :=
  { h with
    presOff hp := by simp at hp
    presFree hp := by simp at hp }

theorem own_none_of_cleared {b : RxBlock} {t : Fin AUN_RX_DEFER_SLOTS → Entry Stream}
    (ht : ∀ s, (t s).valid = true → t s = b.defer s) {stream : Stream}
    (h : own b.defer stream = none) : own t stream = none := by
  rw [DeadlineTable.own_eq_none_iff] at h ⊢
  intro s hs
  have heq := ht s hs
  rw [heq] at hs ⊢
  exact h s hs

theorem BlockInv.withDefer {b : RxBlock} (h : BlockInv b)
    {t : Fin AUN_RX_DEFER_SLOTS → Entry Stream}
    (ht : ∀ s, (t s).valid = true → t s = b.defer s) : BlockInv (b.withDefer t) where
  head := h.head
  count := h.count
  closed := h.closed
  presOff := h.presOff
  presFree hp := (h.presFree hp).imp id (own_none_of_cleared ht)
  frames := h.frames
  unique i j hi hj hkey := by
    simp only [RxBlock.withDefer_defer] at hi hj hkey
    rw [ht i hi, ht j hj] at hkey
    rw [ht i hi] at hi
    rw [ht j hj] at hj
    exact h.unique i j hi hj hkey
  deferred s hs := by
    simp only [RxBlock.withDefer_defer] at hs ⊢
    have heq := ht s hs
    rw [heq] at hs ⊢
    exact h.deferred s hs

theorem BlockInv.push {b : RxBlock} (h : BlockInv b) {f : RxFrame} (hopen : b.isOpen = true)
    (hroom : b.count < AUN_RX_QUEUE) (hfit : f.len ≤ b.bufSize) (hmax : f.len ≤ AUN_MAX_DATA)
    (hfresh : f.rejects = 0) : BlockInv (b.push f) where
  head := h.head
  count := hroom
  closed hc := by simp [hopen] at hc
  presOff hp := Nat.lt_succ_of_lt (h.presOff hp)
  presFree hp := by
    rw [RxBlock.push_presOff, RxBlock.push_frameAt f (h.presOff hp) hroom]
    exact h.presFree hp
  frames g hg := by
    rw [RxBlock.push_queue f hroom] at hg
    rcases List.mem_append.mp hg with hold | hnew
    · exact h.frames g hold
    · rw [List.mem_singleton.mp hnew]
      exact ⟨hfit, hmax, by omega⟩
  unique := h.unique
  deferred s hs := by
    obtain ⟨g, hg, hip, hkey⟩ := h.deferred s hs
    rw [RxBlock.push_queue f hroom]
    exact ⟨g, List.mem_append_left _ hg, hip, hkey⟩

/-! ### The frame a collect acts on -/

/-- The frame at `off` may leave: it is queued and its stream is not deferred. -/
structure Free (b : RxBlock) (off : Nat) : Prop where
  queued : off < b.count
  free : (b.frameAt off).srcIpBe = 0 ∨ own b.defer (b.frameAt off).stream = none

theorem rxFirstEligible_free {b : RxBlock} (h : BlockInv b) {reads off : Nat}
    (hoff : (rxFirstEligible T.now b reads).off = some off) :
    Free (rxFirstEligible T.now b reads).block off := by
  obtain ⟨-, hlt, -, helig⟩ := rxScan_some T.now _ _ _ _ _ hoff
  have hb := rxScan_block T.now b.count 0 b reads
  have hcount : (rxFirstEligible T.now b reads).block.count = b.count := by
    rw [rxFirstEligible, hb]
    rfl
  have hframe : (rxFirstEligible T.now b reads).block.frameAt off = b.frameAt off := by
    rw [rxFirstEligible, hb]
    rfl
  refine ⟨by omega, ?_⟩
  rw [hframe]
  by_cases hip : (b.frameAt off).srcIpBe = 0
  · exact Or.inl hip
  · right
    have hfree := rxFrameEligible_true T.now h.unique (congrArg Prod.fst helig) hip
    rw [helig] at hfree
    exact hfree

theorem rxFirstEligible_inv {b : RxBlock} (h : BlockInv b) (reads : Nat) :
    BlockInv (rxFirstEligible T.now b reads).block := by
  rw [rxFirstEligible, rxScan_block]
  exact h.withDefer fun s hs => rxScan_defer T.now hs

theorem collectScan_inv {e : Engine} {i : Fin AUN_RX_BLOCKS} (h : BlockInv (e.rx i)) :
    BlockInv (collectScan T e i).block := by
  unfold collectScan
  split
  · exact h
  · exact rxFirstEligible_inv T h _

theorem collectScan_free {e : Engine} {i : Fin AUN_RX_BLOCKS} (h : BlockInv (e.rx i)) {off : Nat}
    (hoff : (collectScan T e i).off = some off) : Free (collectScan T e i).block off := by
  unfold collectScan at hoff ⊢
  split at hoff
  · rename_i hp
    simp only [Option.some.injEq] at hoff
    subst hoff
    simp only [hp, if_true]
    exact ⟨h.presOff hp, h.presFree hp⟩
  · rename_i hp
    simp only [hp]
    exact rxFirstEligible_free T h hoff

theorem mem_eraseIdx_of_ne {α : Type*} {l : List α} {x : α} {k : Nat} (hx : x ∈ l)
    (hne : l[k]? ≠ some x) : x ∈ l.eraseIdx k := by
  obtain ⟨n, hn, rfl⟩ := List.mem_iff_getElem.mp hx
  rw [List.mem_eraseIdx_iff_getElem?]
  refine ⟨n, ?_, by simp [hn]⟩
  rintro rfl
  exact hne (List.getElem?_eq_getElem hn)

theorem BlockInv.remove {b : RxBlock} (h : BlockInv b) {off : Nat} (hf : Free b off) :
    BlockInv (rxRemoveAt b off).unpresented := by
  obtain ⟨hopen, hsize, -, hdefer⟩ := rxRemoveAt_rest b off
  have hqueue : (rxRemoveAt b off).unpresented.queue =
      b.queue.eraseIdx off := rxRemoveAt_queue hf.queued h.count
  constructor
  · exact rxRemoveAt_head_lt off h.head
  · change (rxRemoveAt b off).count ≤ AUN_RX_QUEUE
    have := h.count
    rw [rxRemoveAt_count]
    omega
  · intro hc
    change (rxRemoveAt b off).isOpen = false at hc
    change (rxRemoveAt b off).count = 0
    rw [rxRemoveAt_count, h.closed (hopen ▸ hc)]
  · intro hp
    simp at hp
  · intro hp
    simp at hp
  · intro g hg
    rw [hqueue] at hg
    change g.len ≤ (rxRemoveAt b off).bufSize ∧ _
    rw [hsize]
    exact h.frames g (List.mem_of_mem_eraseIdx hg)
  · change Unique (rxRemoveAt b off).defer
    rw [hdefer]
    exact h.unique
  · intro s hs
    change ((rxRemoveAt b off).defer s).valid = true at hs
    change ∃ f : RxFrame, f ∈ _ ∧ f.srcIpBe ≠ 0 ∧ f.stream = ((rxRemoveAt b off).defer s).key
    rw [hdefer] at hs ⊢
    obtain ⟨g, hg, hip, hkey⟩ := h.deferred s hs
    refine ⟨g, ?_, hip, hkey⟩
    rw [hqueue]
    apply mem_eraseIdx_of_ne hg
    rw [RxBlock.getElem?_queue, if_pos hf.queued]
    -- the leaving frame is local or its stream has no deferral, so it is not `g`
    intro heq
    simp only [Option.some.injEq] at heq
    rcases hf.free with hloc | hnone
    · exact hip (heq ▸ hloc)
    · rw [heq] at hnone
      exact DeadlineTable.own_eq_none_iff.mp hnone s hs hkey.symm

/-! ### Rejects -/

theorem burn_queue {b : RxBlock} {off : Nat} (hoff : off < b.count)
    (hcap : b.count ≤ AUN_RX_QUEUE) : (b.burn off).queue = b.queue.set off
      { b.frameAt off with rejects := ((b.frameAt off).rejects + 1) % 256 } :=
  RingQueue.contents_set b.q _ hoff hcap

theorem burn_map {α : Type*} (g : RxFrame → α) (hg : ∀ f r, g { f with rejects := r } = g f)
    {b : RxBlock} {off : Nat} (hoff : off < b.count) (hcap : b.count ≤ AUN_RX_QUEUE) :
    (b.burn off).queue.map g = b.queue.map g := by
  rw [burn_queue hoff hcap, List.map_set]
  apply List.ext_getElem?
  intro k
  rw [List.getElem?_set]
  split_ifs with hk hlen
  · subst hk
    rw [List.getElem?_map, RxBlock.getElem?_queue, if_pos hoff]
    exact congrArg some (hg _ _)
  · subst hk
    simp only [List.length_map, RxBlock.length_queue] at hlen
    omega
  · rfl

theorem BlockInv.defer_mem {b : RxBlock} (h : BlockInv b) {s} (hs : (b.defer s).valid = true) :
    (b.defer s).key ∈ b.queue.map RxFrame.stream := by
  obtain ⟨f, hf, -, hkey⟩ := h.deferred s hs
  exact List.mem_map.mpr ⟨f, hf, hkey⟩

/-- The slot a deferral is written to is the stream's own, a free one, or one whose
    deadline has passed: no live deferral of another stream is lost. -/
theorem BlockInv.place_not_live {b : RxBlock} (h : BlockInv b) {off : Nat} (hoff : off < b.count)
    (reads : Nat) :
    let slot := DeadlineTable.place T.now b.defer (b.frameAt off).stream reads
    (b.defer slot.1).valid = false ∨ (b.defer slot.1).key = (b.frameAt off).stream ∨
      ∃ k, reads ≤ k ∧ k < slot.2 ∧ reached (T.now k) (b.defer slot.1).due = true := by
  intro slot
  cases ho : own b.defer (b.frameAt off).stream with
  | some s =>
    have hslot : slot = (s, reads) := DeadlineTable.place_own ho
    rw [hslot]
    exact Or.inr (Or.inl (DeadlineTable.own_some ho).2)
  | none =>
    have hfree := DeadlineTable.exists_free h.unique (fun s hs => h.defer_mem hs)
      (List.mem_map.mpr ⟨_, b.frameAt_mem hoff, rfl⟩) ho (by simpa using h.count)
    obtain ⟨s, hs⟩ := hfree
    have hslot : slot = DeadlineTable.victim T.now b.defer (List.finRange _) reads 0 := by
      simp only [slot, DeadlineTable.place, ho]
    rw [hslot]
    rcases DeadlineTable.victim_not_live T.now b.defer (List.finRange _) reads 0
      ⟨s, List.mem_finRange s, hs⟩ with hv | hk
    · exact Or.inl hv
    · exact Or.inr (Or.inr hk)

theorem BlockInv.defer {b : RxBlock} (h : BlockInv b) {off : Nat} (hoff : off < b.count)
    (hip : (b.frameAt off).srcIpBe ≠ 0) (hbudget : (b.frameAt off).rejects < AUN_DEFER_RETRIES)
    (reads : Nat) : BlockInv (deferredBlock T b off reads).unpresented := by
  set f : RxFrame := { b.frameAt off with rejects := ((b.frameAt off).rejects + 1) % 256 } with hf
  have hqueue : (deferredBlock T b off reads).unpresented.queue =
      b.queue.set off f := burn_queue hoff h.count
  refine { h with presOff := ?_, presFree := ?_, frames := ?_, unique := ?_, deferred := ?_ }
  · intro hp
    simp at hp
  · intro hp
    simp at hp
  · intro g hg
    rw [hqueue] at hg
    rcases List.mem_or_eq_of_mem_set hg with hold | rfl
    · exact h.frames g hold
    · obtain ⟨hfit, hmax, -⟩ := h.frames _ (b.frameAt_mem hoff)
      refine ⟨hfit, hmax, ?_⟩
      have hlt : (b.frameAt off).rejects + 1 < 256 := by
        have : AUN_DEFER_RETRIES = 250 := rfl
        omega
      change ((b.frameAt off).rejects + 1) % 256 ≤ AUN_DEFER_RETRIES
      rw [Nat.mod_eq_of_lt hlt]
      omega
  · exact DeadlineTable.place_unique _ _ _ h.unique
  · intro s hs
    have hkey : ((deferredBlock T b off reads).defer s).key ∈ b.queue.map RxFrame.stream ∧
        ((deferredBlock T b off reads).defer s).key.srcIpBe ≠ 0 := by
      change ((deferredBlock T b off reads).defer s).valid = true at hs
      rw [deferredBlock_defer] at hs ⊢
      by_cases hslot : s = (deferSlot T b off reads).1
      · rw [hslot, Function.update_self]
        exact ⟨List.mem_map.mpr ⟨_, b.frameAt_mem hoff, rfl⟩, hip⟩
      · rw [Function.update_of_ne hslot] at hs ⊢
        obtain ⟨g, hg, hne, hgs⟩ := h.deferred s hs
        exact ⟨h.defer_mem hs, by rw [← hgs]; exact hne⟩
    rw [← burn_map RxFrame.stream (fun _ _ => rfl) hoff h.count] at hkey
    obtain ⟨hmem, hne⟩ := hkey
    obtain ⟨g, hg, hgs⟩ := List.mem_map.mp hmem
    exact ⟨g, hg, by rw [← hgs] at hne; exact hne, hgs⟩

/-! ### The station map -/

def MapEntry.addr (m : MapEntry) : UInt8 × UInt8 := (m.net, m.stn)

theorem map_addr_modify (map : List MapEntry) (j : Nat) (g : MapEntry → MapEntry)
    (hg : ∀ m, (g m).addr = m.addr) :
    (map.modify j g).map MapEntry.addr = map.map MapEntry.addr := by
  apply List.ext_getElem?
  intro k
  simp only [List.getElem?_map, List.getElem?_modify]
  cases map[k]? with
  | none => rfl
  | some m =>
    split
    · exact congrArg some (hg m)
    · rfl

@[simp] theorem stampMap_addr (map : List MapEntry) (ipBe : UInt32) (port : UInt16) (seq : UInt32) :
    (stampMap map ipBe port seq).map MapEntry.addr = map.map MapEntry.addr := by
  unfold stampMap
  cases mapFindByIp map ipBe port with
  | none => rfl
  | some j => exact map_addr_modify map j _ fun _ => rfl

structure MapInv (map : List MapEntry) : Prop where
  size : map.length ≤ AUN_MAP_MAX
  nodup : (map.map MapEntry.addr).Nodup

theorem MapInv.of_addr {map map' : List MapEntry} (h : MapInv map)
    (heq : map'.map MapEntry.addr = map.map MapEntry.addr) : MapInv map' := by
  have hlen : map'.length = map.length := by simpa using congrArg List.length heq
  exact ⟨hlen ▸ h.size, heq ▸ h.nodup⟩

theorem MapInv.stamp {map : List MapEntry} (h : MapInv map) (ipBe : UInt32) (port : UInt16)
    (seq : UInt32) : MapInv (stampMap map ipBe port seq) :=
  h.of_addr (stampMap_addr map ipBe port seq)

theorem MapInv.add {e : Engine} (h : MapInv e.map) (net stn : UInt8) (ipBe : UInt32)
    (port : UInt16) : MapInv (aunMapAdd e net stn ipBe port).2.map := by
  unfold aunMapAdd
  dsimp only
  cases hfind : mapFindByAddr e.map net stn with
  | some j => exact h.of_addr (map_addr_modify e.map j _ fun _ => rfl)
  | none =>
    by_cases hfull : e.map.length ≥ AUN_MAP_MAX
    · simp only [hfull, if_true]
      exact h
    · simp only [hfull, if_false]
      -- a station without an entry gets the next one
      have hnot : ∀ m ∈ e.map, ¬(m.net = net ∧ m.stn = stn) := by
        simpa [mapFindByAddr, List.findIdx?_eq_none_iff] using hfind
      constructor
      · simp only [Engine.withMap_map, List.length_append, List.length_singleton]
        omega
      · simp only [Engine.withMap_map, List.map_append, List.map_singleton]
        rw [List.nodup_append]
        refine ⟨h.nodup, List.nodup_singleton _, ?_⟩
        intro a ha b hb hab
        obtain ⟨m, hm, rfl⟩ := List.mem_map.mp ha
        rw [List.mem_singleton.mp hb] at hab
        simp only [MapEntry.addr, Prod.mk.injEq] at hab
        exact hnot m hm hab

theorem MapInv.attribute {e : Engine} (h : MapInv e.map) (ipBe : UInt32) (port : UInt16) :
    MapInv (attributeSource e ipBe port).2.map := by
  unfold attributeSource
  cases mapFindByIp e.map ipBe port with
  | some j => exact h
  | none =>
    cases learnAttribute e ipBe port with
    | none => exact h
    | some a => exact h.add a.1 a.2 ipBe port

/-! ### The engine -/

structure RxInv (e : Engine) : Prop where
  blocks : ∀ i, BlockInv (e.rx i)
  map : MapInv e.map
  condemned : Unique e.condemned

theorem rxInv_start (mem : Nat → UInt8) (station net : UInt8) : RxInv (start mem station net) where
  blocks _ := blockInv_zero
  map := ⟨Nat.zero_le _, List.nodup_nil⟩
  condemned i j hi := by simp [start, aunInit, Engine.zero, zeroEntry] at hi

theorem RxInv.beginCall {e : Engine} (h : RxInv e) : RxInv e.beginCall :=
  { h with }

theorem RxInv.update {e : Engine} (h : RxInv e) {i : Fin AUN_RX_BLOCKS} {b : RxBlock}
    (hb : BlockInv b) : ∀ j, BlockInv (Function.update e.rx i b j) := by
  intro j
  by_cases hj : j = i
  · subst hj
    rw [Function.update_self]
    exact hb
  · rw [Function.update_of_ne hj]
    exact h.blocks j

theorem liftedTable_valid {found : DeadlineTable.Found Stream AUN_CONDEMN_SLOTS}
    {s : Fin AUN_CONDEMN_SLOTS} (h : (liftedTable found s).valid = true) :
    liftedTable found s = found.table s := by
  unfold liftedTable at h ⊢
  cases hhit : found.hit with
  | none => rfl
  | some c =>
    simp only [hhit] at h ⊢
    by_cases hsc : s = c
    · subst hsc
      simp at h
    · rw [Function.update_of_ne hsc]

theorem liftedTable_unique {found : DeadlineTable.Found Stream AUN_CONDEMN_SLOTS}
    (h : Unique found.table) : Unique (liftedTable found) := by
  intro i j hi hj hkey
  have hi' := liftedTable_valid hi
  have hj' := liftedTable_valid hj
  rw [hi'] at hi hkey
  rw [hj'] at hj hkey
  exact h i j hi hj hkey

theorem rxCountReady_block (now : Nat → UInt32) : ∀ (left i : Nat) (b : RxBlock) (k : Nat),
    ∃ t, (rxCountReady now left i b k).2.1 = b.withDefer t ∧
      ∀ s, (t s).valid = true → t s = b.defer s := by
  intro left
  induction left with
  | zero => intro i b k; exact ⟨b.defer, rfl, fun _ _ => rfl⟩
  | succ left ih =>
    intro i b k
    rw [rxCountReady]
    dsimp only
    have hb := rxFrameEligible_block now b (b.frameAt i) k
    obtain ⟨t, ht, hclear⟩ := ih (i + 1) (rxFrameEligible now b (b.frameAt i) k).2.1
      (rxFrameEligible now b (b.frameAt i) k).2.2
    refine ⟨t, ?_, ?_⟩
    · rw [ht, hb]
      rfl
    · intro s hs
      have heq := hclear s hs
      rw [heq] at hs
      exact heq.trans (rxFrameEligible_defer now hs)

theorem BlockInv.present {b : RxBlock} (h : BlockInv b) {off : Nat} (hf : Free b off) :
    BlockInv { b with presOff := off, presented := true } :=
  { h with
    presOff _ := hf.queued
    presFree _ := hf.free }

theorem rejectBudget_le (hit : Option (Fin AUN_CONDEMN_SLOTS)) :
    rejectBudget hit ≤ AUN_DEFER_RETRIES := by
  unfold rejectBudget
  split <;> decide

theorem RxStep.inv {e e' : Engine} {op : Op} (hs : RxStep T e op e') (h : RxInv e) : RxInv e' := by
  cases hs with
  | kept hsame =>
    exact ⟨by rw [hsame.rx]; exact h.blocks, by rw [hsame.map]; exact h.map,
      by rw [hsame.condemned]; exact h.condemned⟩
  | reset hrx hmap hcond =>
    refine ⟨fun i => ?_, ?_, ?_⟩
    · rw [hrx]
      exact blockInv_zero
    · rw [hmap]
      exact ⟨Nat.zero_le _, List.nodup_nil⟩
    · rw [hcond]
      intro i j hi
      simp [zeroEntry] at hi
  | mapped hrx hcond hmap =>
    exact ⟨by rw [hrx]; exact h.blocks, by rw [hmap]; exact h.map.add _ _ _ _,
      by rw [hcond]; exact h.condemned⟩
  | opened hi hbuf hsize hrx hmap hcond =>
    exact ⟨by rw [hrx]; exact h.update (blockInv_fresh _ _ _ _ _), by rw [hmap]; exact h.map,
      by rw [hcond]; exact h.condemned⟩
  | closed hi hrx hmap hcond =>
    exact ⟨by rw [hrx]; exact h.update blockInv_zero, by rw [hmap]; exact h.map,
      by rw [hcond]; exact h.condemned⟩
  | presented hi hcount hpres hoff hrx hmap hcond =>
    refine ⟨?_, by rw [hmap]; exact h.map, by rw [hcond]; exact h.condemned⟩
    rw [hrx]
    exact h.update ((rxFirstEligible_inv T (h.blocks _) _).present
      (rxFirstEligible_free T (h.blocks _) hoff))
  | counted hi hrx hmap hcond =>
    refine ⟨?_, by rw [hmap]; exact h.map, by rw [hcond]; exact h.condemned⟩
    rw [hrx]
    apply h.update
    obtain ⟨t, ht, hclear⟩ := rxCountReady_block T.now (e.rx _).count 0 (e.rx _) e.io.reads
    rw [ht]
    exact (h.blocks _).withDefer hclear
  | idle hi hnone hrx hmap hcond =>
    exact ⟨by rw [hrx]; exact h.update (h.blocks _).unpresented, by rw [hmap]; exact h.map,
      by rw [hcond]; exact h.condemned⟩
  | accepted hc hrx hmap hcond hreads =>
    refine ⟨?_, ?_, ?_⟩
    · rw [hrx]
      exact h.update ((collectScan_inv T (h.blocks _)).remove
        (collectScan_free T (h.blocks _) hc.found))
    · rw [hmap]
      split
      · exact h.map.stamp _ _ _
      · exact h.map
    · rw [hcond]
      split
      · exact liftedTable_unique (DeadlineTable.find_unique _ _ h.condemned)
      · exact h.condemned
  | dropped hc hip hrx hmap hcond hreads =>
    refine ⟨?_, by rw [hmap]; exact h.map, by rw [hcond]; exact h.condemned⟩
    rw [hrx]
    exact h.update ((collectScan_inv T (h.blocks _)).remove
      (collectScan_free T (h.blocks _) hc.found))
  | shed hc hip hbudget hrx hmap hcond hreads =>
    refine ⟨?_, by rw [hmap]; exact h.map.stamp _ _ _, ?_⟩
    · rw [hrx]
      exact h.update ((collectScan_inv T (h.blocks _)).remove
        (collectScan_free T (h.blocks _) hc.found))
    · rw [hcond]
      exact DeadlineTable.place_unique _ _ _ (DeadlineTable.find_unique _ _ h.condemned)
  | deferred hc hip hbudget hrx hmap hcond hreads =>
    refine ⟨?_, by rw [hmap]; exact h.map, by
      rw [hcond]; exact DeadlineTable.find_unique _ _ h.condemned⟩
    rw [hrx]
    have hframe := hc.frame
    rw [← collectScan_frameAt T] at hframe
    refine h.update ((collectScan_inv T (h.blocks _)).defer T
      (collectScan_free T (h.blocks _) hc.found).queued ?_ ?_ _)
    · rw [hframe]
      exact hip
    · rw [hframe]
      exact Nat.lt_of_lt_of_le hbudget (rejectBudget_le _)
  | learned hd hrx hmap hcond =>
    exact ⟨by rw [hrx]; exact h.blocks, by rw [hmap]; exact h.map.attribute _ _,
      by rw [hcond]; exact h.condemned⟩
  | arrived hd hm hnew hdup hst hrx hmap hcond =>
    refine ⟨?_, by rw [hmap]; exact h.map.attribute _ _, by rw [hcond]; exact h.condemned⟩
    rw [hrx]
    exact h.update ((h.blocks _).push hst.isOpen hst.room hst.fits hst.max hst.fresh)
  | arrivedLocal hst hrx hmap hcond =>
    refine ⟨?_, by rw [hmap]; exact h.map, by rw [hcond]; exact h.condemned⟩
    rw [hrx]
    exact h.update ((h.blocks _).push hst.isOpen hst.room hst.fits hst.max hst.fresh)

theorem rxInv_run (mem : Nat → UInt8) (station net : UInt8) (ops : List Op) :
    RxInv (runState T mem station net ops) :=
  History.final_induction (step T) RxInv (rxInv_start mem station net)
    (fun e op h => (step_rx T e op).inv T h.beginCall) ops

end Pi1MHz.Aun
