import Pi1MHz.AunHimmSteps
import Pi1MHz.AunTaken

/-!
# Verdicts with a time limit

The engine keeps two verdicts for a limited time: the outcome of the last immediate
resolved, replayed to retransmits for `AUN_HIMM_CACHE_MS`, and the condemnation of a
stream, which shortens the reject budget of its frames for `AUN_CONDEMN_TTL_MS`.
-/

namespace Pi1MHz.Aun

open DeadlineTable (own)
open History (Along Step latest)
open WrapClock (reached)

variable (T : Transport)

def recordRead (st : Step Engine Op) : Option Nat :=
  if st.pre.himm.active && !st.post.himm.active then
    match st.op with
    | .himmReply _ => some st.pre.io.reads
    | .poll => some (st.pre.io.reads + 1)
    | _ => none
  else none

def shedFrame (st : Step Engine Op) : Option RxFrame :=
  match st.op with
  | .rxCollect handle false =>
      (openBlock st.pre handle).bind fun i =>
        if (st.post.rx i).count < (st.pre.rx i).count then
          ((collectScan T st.pre i).off.map (st.pre.rx i).frameAt).filter fun f => f.srcIpBe ≠ 0
        else none
  | _ => none

def condemnRead (stream : Stream) (st : Step Engine Op) : Option Nat :=
  (shedFrame T st).bind fun f => if f.stream = stream then some (st.post.io.reads - 1) else none

def Replays (st : Step Engine Op) : Prop :=
  (∃ ipBe port buf, st.op = .udpInput ipBe port buf) ∧
    st.post.counters.himmReplay = st.pre.counters.himmReplay + 1

/-- The verdicts a call acts on are not over: less real time than the limit has passed
    since each was given. -/
structure VerdictsLive (before : List (Step Engine Op)) (st : Step Engine Op) : Prop where
  replay : Replays st → ∃ r, latest recordRead before = some r ∧
    T.clock st.pre.io.reads < T.clock r + AUN_HIMM_CACHE_MS.toNat
  shed : ∀ handle i f, st.op = .rxCollect handle false → openBlock st.pre handle = some i →
    shedFrame T st = some f → f.rejects < AUN_DEFER_RETRIES →
      ∃ r, latest (condemnRead T f.stream) before = some r ∧
        T.clock (collectScan T st.pre i).reads < T.clock r + AUN_CONDEMN_TTL_MS.toNat

/-! ### When a deadline has wrapped -/

/-- A verdict given at read `r` for `ttl` is over at read `k`, and by so much that its
    32-bit deadline looks as if it were still to come. -/
def Wrapped (ttl r k : Nat) : Prop :=
  T.clock r + ttl ≤ T.clock k ∧ 2 ^ 31 ≤ (T.clock k - (T.clock r + ttl)) % 2 ^ 32

theorem lt_of_not_reached {ttl r k : Nat} (hw : ¬Wrapped T ttl r k)
    (h : reached (T.now k) (T.now r + UInt32.ofNat ttl) = false) : T.clock k < T.clock r + ttl := by
  by_contra hle
  have hpast : T.clock r + ttl ≤ T.clock k := Nat.not_lt.mp hle
  have hiff := WrapClock.reached_of_elapsed (T.clock r) ttl (T.clock k) hpast
  have hnot : ¬(T.clock k - (T.clock r + ttl)) % 2 ^ 32 < 2 ^ 31 := by
    intro hlt
    have htrue := hiff.mpr hlt
    rw [show reached (UInt32.ofNat (T.clock k)) (UInt32.ofNat (T.clock r) + UInt32.ofNat ttl) = false
      from h] at htrue
    cases htrue
  exact hw ⟨hpast, Nat.not_lt.mp hnot⟩

theorem not_wrapped_of_lt (hclock : ∀ k, T.clock k < 2 ^ 31) (ttl r k : Nat) : ¬Wrapped T ttl r k := by
  rintro ⟨hle, hwrap⟩
  have hk := hclock k
  rw [Nat.mod_eq_of_lt (by omega)] at hwrap
  omega

structure Repeats (e : Engine) (ipBe : UInt32) (port : UInt16) (buf : List UInt8) (fromData : Bool)
    (ctrl : UInt8) (seq : UInt32) (data : List UInt8) : Prop where
  imm : ∃ aunPort, ImmData buf fromData aunPort ctrl seq data
  wanted : himmWanted e fromData ctrl data = true
  idle : fromData = false → e.himm.active = false
  armed : himmCacheArmed e fromData = true
  same : e.himmCache.ipBe = ipBe ∧ e.himmCache.port = port ∧ e.himmCache.seq = seq

/-- A frame between the two budgets is rejected while its stream has a condemnation on
    record. -/
structure Doubtful (e : Engine) (handle : UInt8) (i : Fin AUN_RX_BLOCKS) (f : RxFrame) : Prop where
  collects : ∃ off, Collects T e handle i off f
  wire : f.srcIpBe ≠ 0
  onRecord : (own e.condemned f.stream).isSome = true
  mini : AUN_CONDEMN_RETRIES ≤ f.rejects
  full : f.rejects < AUN_DEFER_RETRIES

structure Unwrapped (before : List (Step Engine Op)) (st : Step Engine Op) : Prop where
  cache : ∀ ipBe port buf fromData ctrl seq data r, st.op = .udpInput ipBe port buf →
    Repeats st.pre ipBe port buf fromData ctrl seq data → latest recordRead before = some r →
      ¬Wrapped T AUN_HIMM_CACHE_MS.toNat r st.pre.io.reads
  condemned : ∀ handle i f r, st.op = .rxCollect handle false → Doubtful T st.pre handle i f →
    latest (condemnRead T f.stream) before = some r →
      ¬Wrapped T AUN_CONDEMN_TTL_MS.toNat r (collectScan T st.pre i).reads

/-! ### The deadlines in the engine -/

structure TimeInv (hist : List (Step Engine Op)) (e : Engine) : Prop where
  rx : RxInv e
  cache : e.himmCache.valid = true → ∃ r, latest recordRead hist = some r ∧
    e.himmCache.dueMs = T.now r + AUN_HIMM_CACHE_MS
  condemned : ∀ s, (e.condemned s).valid = true →
    ∃ r, latest (condemnRead T (e.condemned s).key) hist = some r ∧
      (e.condemned s).due = T.now r + AUN_CONDEMN_TTL_MS

theorem recordRead_kept {e e' : Engine} (op : Op) (h : e'.himm.active = e.himm.active) :
    recordRead ⟨e, op, e'⟩ = none := by
  unfold recordRead
  rw [h]
  cases e.himm.active <;> rfl

theorem HimmStep.time {e e' : Engine} {op : Op} {hist : List (Step Engine Op)}
    (hs : HimmStep T e.beginCall op e')
    (h : e.himmCache.valid = true → ∃ r, latest recordRead hist = some r ∧
      e.himmCache.dueMs = T.now r + AUN_HIMM_CACHE_MS) :
    e'.himmCache.valid = true → ∃ r, latest recordRead (hist ++ [⟨e, op, e'⟩]) = some r ∧
      e'.himmCache.dueMs = T.now r + AUN_HIMM_CACHE_MS := by
  have hkept : recordRead ⟨e, op, e'⟩ = none → e'.himmCache = e.himmCache →
      e'.himmCache.valid = true → ∃ r, latest recordRead (hist ++ [⟨e, op, e'⟩]) = some r ∧
        e'.himmCache.dueMs = T.now r + AUN_HIMM_CACHE_MS := by
    intro hnone hcache
    rw [History.latest_snoc, hnone, hcache]
    exact h
  cases hs with
  | kept hsame => exact hkept (recordRead_kept op (by rw [hsame.himm]; rfl)) hsame.cache
  | reset hhimm hcache =>
    rw [hcache]
    intro hv
    cases hv
  | switched hhimm hcache =>
    rw [hcache]
    intro hv
    cases hv
  | @replied data _ hact hhimm hcache =>
    intro _
    have hread : recordRead ⟨e, .himmReply data, e'⟩ = some e.io.reads := by
      have hact' : e.himm.active = true := hact
      simp [recordRead, hact', hhimm]
    rw [History.latest_snoc, hread, hcache]
    exact ⟨_, rfl, rfl⟩
  | reaped hact hdue hhimm hcache =>
    intro _
    have hread : recordRead ⟨e, .poll, e'⟩ = some (e.io.reads + 1) := by
      have hact' : e.himm.active = true := hact
      simp [recordRead, hact', hhimm]
    rw [History.latest_snoc, hread, hcache]
    exact ⟨_, rfl, rfl⟩
  | held hd hwant hidle hmiss hhimm hcache =>
    refine hkept ?_ hcache
    unfold recordRead
    split <;> rfl
  | replayed hd hwant hidle hhit hhimm hcache =>
    exact hkept (recordRead_kept _ (by rw [hhimm]; rfl)) hcache

theorem count_le_of_update {e e' : Engine} {k : Fin AUN_RX_BLOCKS} {b : RxBlock}
    (hrx : e'.rx = Function.update e.rx k b) (hle : (e.rx k).count ≤ b.count) (i : Fin AUN_RX_BLOCKS) :
    (e.rx i).count ≤ (e'.rx i).count := by
  rw [hrx]
  by_cases hk : i = k
  · subst hk
    rwa [Function.update_self]
  · rw [Function.update_of_ne hk]

theorem shedFrame_none {e e' : Engine} (op : Op) (h : ∀ i, (e.rx i).count ≤ (e'.rx i).count) :
    shedFrame T ⟨e, op, e'⟩ = none := by
  unfold shedFrame
  split
  · rw [Option.bind_eq_none_iff]
    intro i _
    rw [if_neg (Nat.not_lt.mpr (h i))]
  · rfl

theorem shedFrame_removed {e e' : Engine} {handle : UInt8} {i : Fin AUN_RX_BLOCKS} {off : Nat}
    {f : RxFrame} (hc : Collects T e handle i off f) (hinv : RxInv e)
    (hrx : e'.rx = Function.update e.rx i
      (rxRemoveAt (collectScan T e i).block off).unpresented) :
    shedFrame T ⟨e, .rxCollect handle false, e'⟩ = if f.srcIpBe ≠ 0 then some f else none := by
  have hlt : (e'.rx i).count < (e.rx i).count := by
    have hoff := hc.queued T hinv
    have hcount : (e'.rx i).count = (collectScan T e i).block.count - 1 := by
      rw [hrx, Function.update_self]
      exact rxRemoveAt_count _ _
    rw [collectScan_block] at hcount
    change _ = (e.rx i).count - 1 at hcount
    omega
  simp only [shedFrame, hc.opened, Option.bind_some, hlt, if_true, hc.found, Option.map_some, hc.frame]
  by_cases hip : f.srcIpBe = 0 <;> simp [hip, Option.filter]

theorem RxStep.time {e e' : Engine} {op : Op} {hist : List (Step Engine Op)}
    (hs : RxStep T e.beginCall op e') (hinv : RxInv e)
    (h : ∀ s, (e.condemned s).valid = true →
      ∃ r, latest (condemnRead T (e.condemned s).key) hist = some r ∧
        (e.condemned s).due = T.now r + AUN_CONDEMN_TTL_MS) :
    ∀ s, (e'.condemned s).valid = true →
      ∃ r, latest (condemnRead T (e'.condemned s).key) (hist ++ [⟨e, op, e'⟩]) = some r ∧
        (e'.condemned s).due = T.now r + AUN_CONDEMN_TTL_MS := by
  -- entries that were there before, in a call that condemns nothing
  have hold : shedFrame T ⟨e, op, e'⟩ = none →
      (∀ s, (e'.condemned s).valid = true → e'.condemned s = e.condemned s) →
      ∀ s, (e'.condemned s).valid = true →
        ∃ r, latest (condemnRead T (e'.condemned s).key) (hist ++ [⟨e, op, e'⟩]) = some r ∧
          (e'.condemned s).due = T.now r + AUN_CONDEMN_TTL_MS := by
    intro hnone hsame s hv
    have heq := hsame s hv
    rw [heq] at hv ⊢
    have hread : condemnRead T (e.condemned s).key ⟨e, op, e'⟩ = none := by
      simp [condemnRead, hnone]
    rw [History.latest_snoc, hread]
    exact h s hv
  cases hs with
  | kept hsame =>
    refine hold (shedFrame_none T op fun i => ?_) fun s _ => by rw [hsame.condemned]; rfl
    rw [hsame.rx]
    exact Nat.le_refl _
  | reset hrx hmap hcond =>
    intro s hv
    rw [hcond] at hv
    cases hv
  | mapped hrx hcond => exact hold rfl fun s _ => by rw [hcond]; rfl
  | opened hi hbuf hsize hrx hmap hcond => exact hold rfl fun s _ => by rw [hcond]; rfl
  | closed hi hrx hmap hcond => exact hold rfl fun s _ => by rw [hcond]; rfl
  | presented hi hcount hpres hoff hrx hmap hcond => exact hold rfl fun s _ => by rw [hcond]; rfl
  | counted hi hrx hmap hcond => exact hold rfl fun s _ => by rw [hcond]; rfl
  | idle hi hnone hrx hmap hcond =>
    exact hold (shedFrame_none T _ (count_le_of_update hrx (Nat.le_refl _))) fun s _ => by rw [hcond]; rfl
  | accepted hc hrx hmap hcond =>
    refine hold rfl fun s hv => ?_
    rw [hcond] at hv ⊢
    split at hv
    · rename_i hip
      simp only [hip, ne_eq, not_false_eq_true, if_true]
      have hlift := liftedTable_valid hv
      rw [hlift] at hv ⊢
      exact DeadlineTable.find_table hv
    · rename_i hip
      simp only [hip, if_false]
      rfl
  | dropped hc hip hrx hmap hcond =>
    refine hold ?_ fun s _ => by rw [hcond]; rfl
    have hshed := shedFrame_removed T hc hinv.beginCall hrx
    rw [if_neg (by simp [hip])] at hshed
    exact hshed
  | @shed handle i off f _ hc hip hbudget hrx hmap hcond hreads =>
    have hshed : shedFrame T ⟨e, .rxCollect handle false, e'⟩ = some f := by
      have hshed := shedFrame_removed T hc hinv.beginCall hrx
      rw [if_pos hip] at hshed
      exact hshed
    intro s hv
    rw [hcond] at hv ⊢
    unfold condemnedTable at hv ⊢
    by_cases hslot : s = (condemnSlot T (collectCondemned T e.beginCall i f.stream) f.stream).1
    · rw [hslot, Function.update_self]
      have hread : condemnRead T f.stream ⟨e, .rxCollect handle false, e'⟩ =
          some (condemnSlot T (collectCondemned T e.beginCall i f.stream) f.stream).2 := by
        simp [condemnRead, hshed, hreads]
      rw [History.latest_snoc, hread]
      exact ⟨_, rfl, rfl⟩
    · rw [Function.update_of_ne hslot] at hv ⊢
      have hother := DeadlineTable.place_other
        (DeadlineTable.find_unique f.stream _ hinv.condemned) hslot hv
      have hsame := DeadlineTable.find_table hv
      change (collectCondemned T e.beginCall i f.stream).table s = e.condemned s at hsame
      change ((collectCondemned T e.beginCall i f.stream).table s).key ≠ f.stream at hother
      rw [hsame] at hv hother ⊢
      have hread : condemnRead T (e.condemned s).key ⟨e, .rxCollect handle false, e'⟩ = none := by
        simp [condemnRead, hshed, Ne.symm hother]
      rw [History.latest_snoc, hread]
      exact h s hv
  | deferred hc hip hbudget hrx hmap hcond =>
    refine hold (shedFrame_none T _ (count_le_of_update hrx ?_)) fun s hv => ?_
    · rw [collectScan_block]
      exact Nat.le_refl _
    · rw [hcond] at hv ⊢
      exact DeadlineTable.find_table hv
  | learned hd hrx hmap hcond => exact hold rfl fun s _ => by rw [hcond]; rfl
  | arrived hd hm hnew hdup hst hrx hmap hcond => exact hold rfl fun s _ => by rw [hcond]; rfl
  | arrivedLocal hst hrx hmap hcond =>
    exact hold (shedFrame_none T op (count_le_of_update hrx (Nat.le_succ _))) fun s _ => by rw [hcond]; rfl

theorem timeInv_run (mem : Nat → UInt8) (station net : UInt8) (ops : List Op) :
    TimeInv T (runSteps T mem station net ops) (runState T mem station net ops) := by
  refine History.history_induction (step T) (TimeInv T) ?_ ?_ ops
  · refine ⟨rxInv_start mem station net, ?_, ?_⟩
    · intro hv
      cases hv
    · intro s hv
      cases hv
  · intro hist e op h
    exact ⟨(step_rx T e op).inv T h.rx.beginCall, (step_himm T e op).time T h.cache,
      (step_rx T e op).time T h.rx h.condemned⟩

/-! ### The verdicts of a run -/

theorem TimeInv.replay {hist : List (Step Engine Op)} {e : Engine} {op : Op} (h : TimeInv T hist e)
    (hu : Unwrapped T hist ⟨e, op, step T e op⟩) (hrep : Replays ⟨e, op, step T e op⟩) :
    ∃ r, latest recordRead hist = some r ∧
      T.clock e.io.reads < T.clock r + AUN_HIMM_CACHE_MS.toNat := by
  obtain ⟨⟨ipBe, port, buf, hop⟩, hcount⟩ := hrep
  have hop' : op = .udpInput ipBe port buf := hop
  subst hop'
  have hstays : (step T e (.udpInput ipBe port buf)).counters.himmReplay ≠
      e.counters.himmReplay := by
    intro heq
    have hc : (step T e (.udpInput ipBe port buf)).counters.himmReplay =
        e.counters.himmReplay + 1 := hcount
    rw [heq] at hc
    have := congrArg UInt32.toNat hc
    simp only [UInt32.toNat_add] at this
    have hlt := e.counters.himmReplay.toNat_lt
    have hone : (1 : UInt32).toNat = 1 := rfl
    omega
  have hs := step_himm T e (.udpInput ipBe port buf)
  cases hs with
  | kept hsame => exact absurd hsame.replays hstays
  | held _ _ _ _ _ _ _ hrep => exact absurd hrep hstays
  | @replayed _ _ _ fromData aunPort ctrl seq data _ hd hwant hidle hhit =>
    simp only [himmReplays, Bool.and_eq_true] at hhit
    obtain ⟨harmed, hhit⟩ := hhit
    simp only [himmCacheHit, Bool.and_eq_true, Bool.not_eq_true', beq_iff_eq] at hhit
    obtain ⟨⟨⟨hlive, hip⟩, hport⟩, hseq⟩ := hhit
    have hvalid : e.himmCache.valid = true := by
      simp only [himmCacheArmed, Bool.and_eq_true] at harmed
      exact harmed.1
    obtain ⟨r, hr, hdue⟩ := h.cache hvalid
    have hw := hu.cache ipBe port buf fromData ctrl seq data r rfl
      ⟨⟨aunPort, hd⟩, hwant, hidle, harmed, hip, hport, hseq⟩ hr
    refine ⟨r, hr, lt_of_not_reached T hw ?_⟩
    rw [UInt32.ofNat_toNat, ← hdue]
    exact hlive

theorem TimeInv.shed {hist : List (Step Engine Op)} {e : Engine} {handle : UInt8}
    {i : Fin AUN_RX_BLOCKS} {f : RxFrame} (h : TimeInv T hist e)
    (hu : Unwrapped T hist ⟨e, .rxCollect handle false, step T e (.rxCollect handle false)⟩)
    (hi : openBlock e handle = some i)
    (hshed : shedFrame T ⟨e, .rxCollect handle false, step T e (.rxCollect handle false)⟩ = some f)
    (hrej : f.rejects < AUN_DEFER_RETRIES) :
    ∃ r, latest (condemnRead T f.stream) hist = some r ∧
      T.clock (collectScan T e i).reads < T.clock r + AUN_CONDEMN_TTL_MS.toNat := by
  have hnot : shedFrame T ⟨e, .rxCollect handle false, step T e (.rxCollect handle false)⟩ ≠ none := by
    rw [hshed]
    simp
  cases step_rx T e (.rxCollect handle false) with
  | kept hsame =>
    refine absurd (shedFrame_none T _ fun i => ?_) hnot
    rw [hsame.rx]
    exact Nat.le_refl _
  | idle _ _ hrx => exact (hnot (shedFrame_none T _ (count_le_of_update hrx (Nat.le_refl _)))).elim
  | dropped hc hip hrx =>
    have hnone := shedFrame_removed T hc h.rx.beginCall hrx
    rw [if_neg (by simp [hip])] at hnone
    exact absurd hnone hnot
  | @shed _ k off g _ hc hip hbudget hrx =>
    have hsome := shedFrame_removed T hc h.rx.beginCall hrx
    rw [if_pos hip] at hsome
    obtain rfl : g = f := Option.some.inj (hsome.symm.trans hshed)
    obtain rfl : k = i := Option.some.inj (hc.opened.symm.trans hi)
    -- below the full budget only a live condemnation can have shed the frame
    cases hhit : (collectCondemned T e.beginCall k g.stream).hit with
    | none =>
      rw [rejectBudget, hhit] at hbudget
      simp only [Option.isSome_none, Bool.false_eq_true, if_false] at hbudget
      omega
    | some s =>
      obtain ⟨hown, hlive, -, -⟩ := DeadlineTable.find_hit hhit
      obtain ⟨hvalid, hkey⟩ := DeadlineTable.own_some hown
      obtain ⟨r, hr, hdue⟩ := h.condemned s hvalid
      change (e.condemned s).key = g.stream at hkey
      rw [hkey] at hr
      rw [rejectBudget, hhit] at hbudget
      simp only [Option.isSome_some, if_true] at hbudget
      have hdoubt : Doubtful T e handle k g :=
        ⟨⟨off, hc.opened, hc.nonempty, hc.found, hc.frame⟩, hip, by
          change own e.condemned g.stream = some s at hown
          rw [hown]
          rfl, hbudget, hrej⟩
      refine ⟨r, hr, lt_of_not_reached T (hu.condemned handle k g r rfl hdoubt hr) ?_⟩
      rw [UInt32.ofNat_toNat, ← hdue]
      exact hlive
  | deferred hc hip hbudget hrx =>
    refine (hnot (shedFrame_none T _ (count_le_of_update hrx ?_))).elim
    rw [collectScan_block]
    exact Nat.le_refl _
  | arrivedLocal hst hrx =>
    exact (hnot (shedFrame_none T _ (count_le_of_update hrx (Nat.le_succ _)))).elim

/-- In every run in which no verdict is looked up while its deadline is wrapped, a cached
    outcome is replayed only within `AUN_HIMM_CACHE_MS` of real time, and a frame is shed on
    the mini-budget only within `AUN_CONDEMN_TTL_MS` of real time. -/
theorem verdicts_expire (mem : Nat → UInt8) (station net : UInt8) (ops : List Op)
    (hlooked : Along (Unwrapped T) (runSteps T mem station net ops)) :
    Along (VerdictsLive T) (runSteps T mem station net ops) := by
  intro before st after hsplit
  have hu := hlooked before st after hsplit
  obtain ⟨opsBefore, -, -, hbefore, hpre, hpost⟩ := History.history_split (step T) hsplit
  have hinv : TimeInv T before st.pre := by
    rw [hbefore, hpre]
    exact timeInv_run T mem station net opsBefore
  obtain ⟨e, op, e'⟩ := st
  obtain rfl : e' = step T e op := hpost
  refine ⟨hinv.replay T hu, ?_⟩
  rintro handle i f rfl hi hshed hrej
  exact hinv.shed T hu hi hshed hrej

/-- An immediate is answered and its retransmit replayed, on a clock that has not reached
    `2 ^ 31`. -/
theorem verdicts_expire_replay :
    Along (VerdictsLive ⟨fun k => min k 5000, fun _ => true⟩)
      (runSteps ⟨fun k => min k 5000, fun _ => true⟩ (fun _ => 0) 1 0
        [.setHostImm true, .udpInput 0x0100007F 32768 [5, 0, 6, 0, 4, 0, 0, 0], .himmReply [1, 2],
          .udpInput 0x0100007F 32768 [5, 0, 6, 0, 4, 0, 0, 0]]) := by
  have hclock : ∀ k, Transport.clock ⟨fun k => min k 5000, fun _ => true⟩ k < 2 ^ 31 := by
    intro k
    change min k 5000 < 2 ^ 31
    omega
  refine verdicts_expire _ (fun _ => 0) 1 0 _ fun before st after _ => ⟨?_, ?_⟩
  · intro _ _ _ _ _ _ _ _ _ _ _
    exact not_wrapped_of_lt _ hclock _ _ _
  · intro _ _ _ _ _ _ _
    exact not_wrapped_of_lt _ hclock _ _ _

/-- An immediate is answered at time 1.  Nobody asks again for `2 ^ 31 + 7001` ms; then a
    retransmit is replayed out of the cache. -/
theorem stale_outcome_replayed :
    Monotone (fun k => if k < 2 then k else 2 ^ 31 + 7000 + k) ∧
      ¬Along (VerdictsLive ⟨fun k => if k < 2 then k else 2 ^ 31 + 7000 + k, fun _ => true⟩)
        (runSteps ⟨fun k => if k < 2 then k else 2 ^ 31 + 7000 + k, fun _ => true⟩ (fun _ => 0) 1 0
          [.setHostImm true, .udpInput 0x0100007F 32768 [5, 0, 6, 0, 4, 0, 0, 0], .himmReply [1, 2],
            .udpInput 0x0100007F 32768 [5, 0, 6, 0, 4, 0, 0, 0]]) := by
  constructor
  · intro a b hab
    dsimp only
    split_ifs <;> omega
  · intro h
    have hlive := h _ _ _ (runSteps_snoc ⟨fun k => if k < 2 then k else 2 ^ 31 + 7000 + k, fun _ => true⟩
      (fun _ => 0) 1 0
      [.setHostImm true, .udpInput 0x0100007F 32768 [5, 0, 6, 0, 4, 0, 0, 0], .himmReply [1, 2]]
      (.udpInput 0x0100007F 32768 [5, 0, 6, 0, 4, 0, 0, 0]))
    obtain ⟨r, hr, hlt⟩ := hlive.replay ⟨⟨_, _, _, rfl⟩, by decide +kernel⟩
    have hone : r = 1 := Option.some.inj (hr.symm.trans (by decide +kernel))
    subst hone
    exact absurd hlt (by decide +kernel)

end Pi1MHz.Aun
