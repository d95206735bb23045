import Pi1MHz.AunAckHonesty

/-!
# The duplicate filter of one source

A sender that did not hear an ACK sends the frame again.  When the host has accepted a
frame of a source and nothing the source sent after it, a retransmit of that frame must be
ACKed again and must not be queued again.
-/

namespace Pi1MHz.Aun

open History (Along Step)

variable (T : Transport) (ipBe : UInt32) (port : UInt16)

def acceptedSeq (st : Step Engine Op) : Option UInt32 :=
  match takenSeq T ipBe port st.pre st.op with
  | some (.accepted, s) => some s
  | _ => none

def acceptedSeqs (hist : List (Step Engine Op)) : List UInt32 :=
  hist.filterMap (acceptedSeq T ipBe port)

/-- A retransmit of an accepted frame, no frame with a later sequence having been accepted,
    is re-ACKed and not queued. -/
def FilterLaw (before : List (Step Engine Op)) (st : Step Engine Op) : Prop :=
  ∀ buf aunPort ctrl seq data, st.op = .udpInput ipBe port buf →
    FunnelData buf aunPort ctrl seq data → seq ∈ acceptedSeqs T ipBe port before →
    (∀ s ∈ acceptedSeqs T ipBe port before, s ≤ seq) →
    (∃ ok, .sent ipBe port (buildHeader AUN_TYPE_ACK aunPort ctrl seq) ok ∈ st.post.io.out) ∧
      ∀ i, (st.post.rx i).queue = (st.pre.rx i).queue

/-- A step that keeps the filter on the newest accepted frame: a frame of the source that is
    accepted was sent after those accepted before and the source is in the station map, none
    is shed after an acceptance, and INIT, MAP_ADD and learning leave what the source's
    entry remembers. -/
structure FilterKept (before : List (Step Engine Op)) (st : Step Engine Op) : Prop where
  newer : ∀ s, takenSeq T ipBe port st.pre st.op = some (.accepted, s) →
    (mapFindByIp st.pre.map ipBe port).isSome ∧ ∀ s' ∈ acceptedSeqs T ipBe port before, s' < s
  unshed : ∀ s, takenSeq T ipBe port st.pre st.op = some (.shed, s) →
    acceptedSeqs T ipBe port before = []
  mapped : acceptedSeqs T ipBe port before ≠ [] →
    lastSeq (remapped st.pre st.op) ipBe port = lastSeq st.pre.map ipBe port

/-- The conditions of `FilterKept` on a taken frame, as a test. -/
def takesInOrder (mapped : Bool) (accepted : List UInt32) : Option (Fate × UInt32) → Bool
  | some (.accepted, s) => mapped && accepted.all fun s' => decide (s' < s)
  | some (.shed, _) => accepted.isEmpty
  | _ => true

theorem filterKept_iff (before : List (Step Engine Op)) (st : Step Engine Op) :
    FilterKept T ipBe port before st ↔
      takesInOrder (mapFindByIp st.pre.map ipBe port).isSome (acceptedSeqs T ipBe port before)
          (takenSeq T ipBe port st.pre st.op) = true ∧
        (acceptedSeqs T ipBe port before ≠ [] →
          lastSeq (remapped st.pre st.op) ipBe port = lastSeq st.pre.map ipBe port) := by
  constructor
  · rintro ⟨hnewer, hunshed, hmap⟩
    refine ⟨?_, hmap⟩
    unfold takesInOrder
    split
    · rename_i s hs
      simpa using hnewer s hs
    · rename_i s hs
      simpa using hunshed s hs
    · rfl
  · rintro ⟨htaken, hmap⟩
    refine ⟨fun s hs => ?_, fun s hs => ?_, hmap⟩
    · rw [hs] at htaken
      simpa [takesInOrder] using htaken
    · rw [hs] at htaken
      simpa [takesInOrder] using htaken

instance (before : List (Step Engine Op)) (st : Step Engine Op) :
    Decidable (FilterKept T ipBe port before st) :=
  decidable_of_iff _ (filterKept_iff T ipBe port before st).symm

structure FilterInv (hist : List (Step Engine Op)) (e : Engine) : Prop where
  rx : RxInv e
  keys : KeysDistinct e
  newest : ∀ s, (acceptedSeqs T ipBe port hist).getLast? = some s →
    lastSeq e.map ipBe port = some s ∧ Unqueued e ⟨ipBe, port, s⟩ ∧
      ∀ s' ∈ acceptedSeqs T ipBe port hist, s' ≤ s

variable {T ipBe port}

theorem acceptedSeqs_snoc (hist : List (Step Engine Op)) (st : Step Engine Op) :
    acceptedSeqs T ipBe port (hist ++ [st]) =
      acceptedSeqs T ipBe port hist ++ (acceptedSeq T ipBe port st).toList := by
  cases h : acceptedSeq T ipBe port st <;> simp [acceptedSeqs, h]

theorem FilterInv.step {hist : List (Step Engine Op)} {e : Engine} {op : Op}
    (h : FilterInv T ipBe port hist e) (hip : ipBe ≠ 0)
    (hkept : FilterKept T ipBe port hist ⟨e, op, Aun.step T e op⟩) :
    FilterInv T ipBe port (hist ++ [⟨e, op, Aun.step T e op⟩]) (Aun.step T e op) := by
  have hrx := step_rx T e op
  refine ⟨hrx.inv T h.rx.beginCall, hrx.keys T h.rx.beginCall ⟨h.keys.nodup, h.keys.apart⟩, ?_⟩
  have hsource : SourceStep T ipBe port e.beginCall op (Aun.step T e op) :=
    step_source T e op h.rx h.keys hip
  -- a step that takes no frame of the source keeps what the filter remembers
  have hlast : takenSeq T ipBe port e op = none →
      (SameEntry ipBe port e.beginCall.map (Aun.step T e op).map ∨
        (Aun.step T e op).map = remapped e.beginCall op) →
      ∀ s, (acceptedSeqs T ipBe port hist).getLast? = some s →
        lastSeq (Aun.step T e op).map ipBe port = lastSeq e.map ipBe port := by
    rintro - (hsame | hmap) s hs
    · exact hsame.2
    · rw [hmap, remapped_beginCall]
      apply hkept.mapped
      intro hnil
      rw [hnil] at hs
      cases hs
  rw [acceptedSeqs_snoc]
  cases hsource with
  | @took fate s hev hwas hnow hqueue hmap =>
    change takenSeq T ipBe port e op = some (fate, s) at hev
    cases fate with
    | accepted =>
      obtain ⟨hmapped, hnewer⟩ := hkept.newer s hev
      have hseq : acceptedSeq T ipBe port ⟨e, op, Aun.step T e op⟩ = some s := by
        simp [acceptedSeq, hev]
      rw [hseq, Option.toList_some, List.getLast?_append, List.getLast?_singleton, Option.some_or]
      rintro s' hs'
      obtain rfl := Option.some.inj hs'
      refine ⟨?_, hnow, ?_⟩
      · rw [hmap]
        exact (lastSeq_stampMap_self _ _ _ _).trans (if_pos hmapped)
      · intro s' hs'
        rcases List.mem_append.mp hs' with hs' | hs'
        · exact UInt32.le_of_lt (hnewer s' hs')
        · exact UInt32.le_of_eq (List.mem_singleton.mp hs')
    | shed =>
      rw [hkept.unshed s hev]
      have hseq : acceptedSeq T ipBe port ⟨e, op, Aun.step T e op⟩ = none := by
        simp [acceptedSeq, hev]
      rw [hseq]
      simp
    | dropped => exact absurd hev (takenSeq_fate T (by decide) (by decide))
    | deferred => exact absurd hev (takenSeq_fate T (by decide) (by decide))
  | @arrived buf aunPort ctrl s data hno hop hd hnew hqueue hmap =>
    change takenSeq T ipBe port e op = none at hno
    have hseq : acceptedSeq T ipBe port ⟨e, op, Aun.step T e op⟩ = none := by
      simp [acceptedSeq, hno]
    rw [hseq, Option.toList_none, List.append_nil]
    intro s' hs'
    obtain ⟨hold, hfree, hmax⟩ := h.newest s' hs'
    have hkeep := (hlast hno (Or.inr hmap) s' hs').trans hold
    refine ⟨hkeep, hqueue s' ?_ hfree, hmax⟩
    rintro rfl
    exact hnew hkeep
  | other hno hqueue hmap =>
    change takenSeq T ipBe port e op = none at hno
    have hseq : acceptedSeq T ipBe port ⟨e, op, Aun.step T e op⟩ = none := by
      simp [acceptedSeq, hno]
    rw [hseq, Option.toList_none, List.append_nil]
    intro s' hs'
    obtain ⟨hold, hfree, hmax⟩ := h.newest s' hs'
    exact ⟨(hlast hno hmap s' hs').trans hold, hqueue s' hfree, hmax⟩

theorem filterInv_run (mem : Nat → UInt8) (station net : UInt8) (ops : List Op) (hip : ipBe ≠ 0)
    (hkept : Along (FilterKept T ipBe port) (runSteps T mem station net ops)) :
    FilterInv T ipBe port (runSteps T mem station net ops) (runState T mem station net ops) := by
  refine History.history_induction (Aun.step T)
    (fun hist e => Along (FilterKept T ipBe port) hist → FilterInv T ipBe port hist e) ?_ ?_ ops hkept
  · intro _
    refine ⟨rxInv_start mem station net, keysDistinct_start mem station net, ?_⟩
    intro s hs
    cases hs
  · intro hist e op ih hall
    obtain ⟨hbefore, hlast⟩ := History.along_snoc hall
    exact (ih hbefore).step hip hlast

/-- In every run whose steps keep the filter, it is right at every step: a retransmit of the
    newest accepted frame is re-ACKed and not queued again. -/
theorem filter_never_forgets (mem : Nat → UInt8) (station net : UInt8) (ops : List Op)
    (hip : ipBe ≠ 0) (hkept : Along (FilterKept T ipBe port) (runSteps T mem station net ops)) :
    Along (FilterLaw T ipBe port) (runSteps T mem station net ops) := by
  intro before st after hsplit buf aunPort ctrl seq data hop hd hmem hmax
  obtain ⟨opsBefore, -, -, hbefore, hpre, hpost⟩ := History.history_split (Aun.step T) hsplit
  have hinv : FilterInv T ipBe port before st.pre := by
    rw [hbefore, hpre]
    refine filterInv_run mem station net opsBefore hip ?_
    intro b s a heq
    refine hkept b s (a ++ st :: after) ?_
    rw [hsplit, hbefore]
    change runSteps T mem station net opsBefore ++ _ = _
    rw [heq, List.append_assoc, List.cons_append]
  have hready : st.pre.initialised = true := by
    rw [hpre]
    exact initialised_run T mem station net opsBefore
  -- the frame accepted last is the newest, so it is the one retransmitted
  obtain ⟨s, hs⟩ : ∃ s, (acceptedSeqs T ipBe port before).getLast? = some s := by
    cases hl : (acceptedSeqs T ipBe port before).getLast? with
    | some s => exact ⟨s, rfl⟩
    | none =>
      rw [List.getLast?_eq_none_iff.mp hl] at hmem
      cases hmem
  obtain ⟨hlast, hfree, hle⟩ := hinv.newest s hs
  have hseq : s = seq :=
    UInt32.le_antisymm (hmax s (List.mem_of_getLast? hs)) (hle seq hmem)
  subst hseq
  rw [hpost, hop]
  obtain ⟨hrx, ok, hsent⟩ := udpInput_dup T (e := st.pre.beginCall) hready hd hlast hfree
  refine ⟨⟨ok, hsent⟩, fun i => ?_⟩
  change ((aunUdpInput T st.pre.beginCall ipBe port buf).rx i).queue = _
  rw [hrx]
  rfl

def Transport.brisk : Transport := ⟨fun k => 4 * k, fun _ => true⟩

/-- A source sends a frame to port `&99` and one to port `&90`; both are queued. -/
def twoStreams : List Op :=
  [.mapAdd 0 5 0x0100007F 0, .rxOpen 0 0 0xFF 0xFF 1000 16,
    .udpInput 0x0100007F 32768 [2, 0x99, 0, 0, 4, 0, 0, 0, 7],
    .udpInput 0x0100007F 32768 [2, 0x90, 0, 0, 8, 0, 0, 0, 9]]

/-- The host accepts both in the order they came, and the second one is sent again. -/
theorem filter_never_forgets_in_order :
    Along (FilterLaw .brisk 0x0100007F 32768)
      (runSteps .brisk (fun _ => 0) 1 0 (twoStreams ++
        [.rxCollect 0 true, .rxCollect 0 true,
          .udpInput 0x0100007F 32768 [2, 0x90, 0, 0, 8, 0, 0, 0, 9]])) :=
  filter_never_forgets (fun _ => 0) 1 0 _ (by decide) (by decide +kernel)

/-- The host rejects the first frame, accepts the second and then the first.  The second one,
    sent again because its ACK was lost, is queued again and not ACKed. -/
theorem accepted_frame_queued_again :
    ¬Along (FilterLaw .brisk 0x0100007F 32768)
      (runSteps .brisk (fun _ => 0) 1 0 ((twoStreams ++
        [.rxCollect 0 false, .rxCollect 0 true, .rxCollect 0 true]) ++
          [.udpInput 0x0100007F 32768 [2, 0x90, 0, 0, 8, 0, 0, 0, 9]])) := by
  intro h
  rw [runSteps_snoc] at h
  obtain ⟨-, hlaw⟩ := History.along_snoc h
  have haccepted : acceptedSeqs .brisk 0x0100007F 32768 (runSteps .brisk (fun _ => 0) 1 0
      (twoStreams ++ [.rxCollect 0 false, .rxCollect 0 true, .rxCollect 0 true])) = [8, 4] := by
    decide +kernel
  obtain ⟨-, hqueue⟩ := hlaw [2, 0x90, 0, 0, 8, 0, 0, 0, 9] 0x90 0 8 [9] rfl
    ⟨by decide, by decide, by decide, by decide, by decide, by decide, by decide⟩
    (by rw [haccepted]; simp) (by rw [haccepted]; simp)
  have hcount := congrArg List.length (hqueue 0)
  revert hcount
  decide +kernel

end Pi1MHz.Aun
