import Pi1MHz.AunAckHonesty

/-!
# The verdict on an inbound DATA frame

What `aun_udp_input` owes a fresh DATA frame from a known source: a place at the tail
of an open matching block that can hold it, silence when every such block is full, and
a NAK only when no open matching block could ever hold it.
-/

namespace Pi1MHz.Aun

variable (T : Transport)

/-! ### Which block `rx_match` picks -/

def Listens (e : Engine) (f : RxFrame) (i : Fin AUN_RX_BLOCKS) : Prop :=
  (e.rx i).accepts f.port f.srcStn f.srcNet = true

structure CanHold (e : Engine) (f : RxFrame) (i : Fin AUN_RX_BLOCKS) : Prop where
  listens : Listens e f i
  size : f.len ≤ (e.rx i).bufSize
  max : f.len ≤ AUN_MAX_DATA

def HasRoom (e : Engine) (i : Fin AUN_RX_BLOCKS) : Prop := (e.rx i).count < AUN_RX_QUEUE

structure FirstWithRoom (e : Engine) (f : RxFrame) (i : Fin AUN_RX_BLOCKS) : Prop where
  listens : Listens e f i
  room : HasRoom e i
  first : ∀ j, j < i → Listens e f j → ¬HasRoom e j

instance (e : Engine) (f : RxFrame) (i : Fin AUN_RX_BLOCKS) : Decidable (Listens e f i) :=
  inferInstanceAs (Decidable (_ = true))

instance (e : Engine) (i : Fin AUN_RX_BLOCKS) : Decidable (HasRoom e i) :=
  inferInstanceAs (Decidable (_ < _))

instance (e : Engine) (f : RxFrame) (i : Fin AUN_RX_BLOCKS) : Decidable (CanHold e f i) :=
  decidable_of_iff (Listens e f i ∧ f.len ≤ (e.rx i).bufSize ∧ f.len ≤ AUN_MAX_DATA)
    ⟨fun h => ⟨h.1, h.2.1, h.2.2⟩, fun h => ⟨h.listens, h.size, h.max⟩⟩

instance (e : Engine) (f : RxFrame) (i : Fin AUN_RX_BLOCKS) : Decidable (FirstWithRoom e f i) :=
  decidable_of_iff
    (Listens e f i ∧ HasRoom e i ∧ ∀ j, j < i → Listens e f j → ¬HasRoom e j)
    ⟨fun h => ⟨h.1, h.2.1, h.2.2⟩, fun h => ⟨h.listens, h.room, h.first⟩⟩

theorem rxMatchFrom_spec (e : Engine) (f : RxFrame) :
    ∀ (blocks : List (Fin AUN_RX_BLOCKS)) (sawFull : Bool),
      (∃ before i after, blocks = before ++ i :: after ∧ Listens e f i ∧ HasRoom e i ∧
        (∀ j ∈ before, Listens e f j → ¬HasRoom e j) ∧
        (rxMatchFrom e f.port f.srcStn f.srcNet blocks sawFull).1 = some i) ∨
      ((∀ j ∈ blocks, Listens e f j → ¬HasRoom e j) ∧
        rxMatchFrom e f.port f.srcStn f.srcNet blocks sawFull =
          (none, sawFull || decide (∃ j ∈ blocks, Listens e f j))) := by
  intro blocks
  induction blocks with
  | nil =>
    intro sawFull
    right
    refine ⟨by simp, ?_⟩
    simp [rxMatchFrom]
  | cons k blocks ih =>
    intro sawFull
    by_cases hlisten : Listens e f k
    · have hacc : (e.rx k).accepts f.port f.srcStn f.srcNet = true := hlisten
      by_cases hroom : HasRoom e k
      · left
        refine ⟨[], k, blocks, rfl, hlisten, hroom, by simp, ?_⟩
        have hnot : ¬(e.rx k).count ≥ AUN_RX_QUEUE := Nat.not_le.mpr hroom
        simp [rxMatchFrom, hacc, hnot]
      · have hfull : (e.rx k).count ≥ AUN_RX_QUEUE := Nat.not_lt.mp hroom
        have hstep : rxMatchFrom e f.port f.srcStn f.srcNet (k :: blocks) sawFull =
            rxMatchFrom e f.port f.srcStn f.srcNet blocks true := by
          simp [rxMatchFrom, hacc, hfull]
        rw [hstep]
        rcases ih true with ⟨before, i, after, rfl, hi, hr, hbefore, heq⟩ | ⟨hnone, heq⟩
        · left
          refine ⟨k :: before, i, after, rfl, hi, hr, ?_, heq⟩
          intro j hj
          rcases List.mem_cons.mp hj with rfl | hj
          · exact fun _ => hroom
          · exact hbefore j hj
        · right
          refine ⟨?_, ?_⟩
          · intro j hj
            rcases List.mem_cons.mp hj with rfl | hj
            · exact fun _ => hroom
            · exact hnone j hj
          · rw [heq]
            simp [hlisten]
    · have hacc : (e.rx k).accepts f.port f.srcStn f.srcNet = false := by
        simpa [Listens] using hlisten
      have hstep : rxMatchFrom e f.port f.srcStn f.srcNet (k :: blocks) sawFull =
          rxMatchFrom e f.port f.srcStn f.srcNet blocks sawFull := by
        simp [rxMatchFrom, hacc]
      rw [hstep]
      rcases ih sawFull with ⟨before, i, after, rfl, hi, hr, hbefore, heq⟩ | ⟨hnone, heq⟩
      · left
        refine ⟨k :: before, i, after, rfl, hi, hr, ?_, heq⟩
        intro j hj hl
        rcases List.mem_cons.mp hj with rfl | hj
        · exact absurd hl hlisten
        · exact hbefore j hj hl
      · right
        refine ⟨?_, ?_⟩
        · intro j hj hl
          rcases List.mem_cons.mp hj with rfl | hj
          · exact absurd hl hlisten
          · exact hnone j hj hl
        · rw [heq]
          simp [hlisten]

theorem rxMatch_spec (e : Engine) (f : RxFrame) :
    (∃ i, FirstWithRoom e f i ∧ (rxMatch e f.port f.srcStn f.srcNet).1 = some i) ∨
      ((∀ j, Listens e f j → ¬HasRoom e j) ∧
        rxMatch e f.port f.srcStn f.srcNet = (none, decide (∃ j, Listens e f j))) := by
  rcases rxMatchFrom_spec e f (List.finRange AUN_RX_BLOCKS) false with
    ⟨before, i, after, hsplit, hi, hr, hbefore, heq⟩ | ⟨hnone, heq⟩
  · left
    refine ⟨i, ⟨hi, hr, ?_⟩, heq⟩
    intro j hj
    -- a smaller index stands before `i` in the scan order
    have hsorted : (before ++ i :: after).Pairwise (· < ·) := by
      rw [← hsplit]
      exact List.pairwise_lt_finRange AUN_RX_BLOCKS
    have hmem : j ∈ before ++ i :: after := by
      rw [← hsplit]
      exact List.mem_finRange j
    rcases List.mem_append.mp hmem with hb | ha
    · exact hbefore j hb
    · rcases List.mem_cons.mp ha with rfl | ha
      · exact absurd hj (lt_irrefl _)
      · have hlt := List.rel_of_pairwise_cons (List.pairwise_append.mp hsorted).2.1 ha
        exact absurd hj (lt_asymm hlt)
  · right
    refine ⟨fun j => hnone j (List.mem_finRange j), ?_⟩
    have hall : (∃ j ∈ List.finRange AUN_RX_BLOCKS, Listens e f j) ↔ ∃ j, Listens e f j := by
      simp
    rw [rxMatch, heq]
    simp only [Bool.false_or, hall]

def wireFrame (m : MapEntry) (ipBe : UInt32) (port : UInt16) (aunPort ctrl : UInt8) (seq : UInt32)
    (data : List UInt8) : RxFrame :=
  ⟨m.stn, m.net, aunPort, ctrl ||| 0x80, 0, seq, ipBe, port, data⟩

def Sends (e' : Engine) (type : UInt8) : Prop :=
  ∃ x ∈ e'.io.out, x.type = some type

def Silent (e' : Engine) : Prop := ∀ x ∈ e'.io.out, x.type = none

/-- What the engine owes a fresh DATA frame `f`: `e` before the call, `e'` after it. -/
structure VerdictLaw (e e' : Engine) (f : RxFrame) : Prop where
  queued : (∃ i, CanHold e f i ∧ HasRoom e i) →
    ∃ i, CanHold e f i ∧ HasRoom e i ∧ (e'.rx i).queue = (e.rx i).queue ++ [f] ∧
      ∀ j, j ≠ i → (e'.rx j).queue = (e.rx j).queue
  silent : (∃ i, CanHold e f i) → (∀ i, CanHold e f i → ¬HasRoom e i) → Silent e'
  nak : Sends e' AUN_TYPE_NAK → ∀ i, ¬CanHold e f i

def FirstFits (e : Engine) (f : RxFrame) : Prop :=
  ∀ i, FirstWithRoom e f i → CanHold e f i ∨ ∀ j, ¬CanHold e f j

instance (e : Engine) (f : RxFrame) : Decidable (FirstFits e f) :=
  inferInstanceAs (Decidable (∀ i, FirstWithRoom e f i → CanHold e f i ∨ ∀ j, ¬CanHold e f j))

/-! ### What the call does -/

theorem traceData_out (e : Engine) (dp : Option (Fin AUN_DBG_PREV_SLOTS)) (verdict : RxVerdict)
    (same : Bool) (ipBe : UInt32) (port : UInt16) (aunPort : UInt8) (seq : UInt32)
    (data : List UInt8) :
    ∃ l, (traceData e dp verdict same ipBe port aunPort seq data).io.out = e.io.out ++ l ∧
      ∀ x ∈ l, x.type = none := by
  unfold traceData
  split_ifs
  · refine ⟨[.traced seq aunPort verdict same data], ?_, ?_⟩
    · rw [(dbgRemember_same (e.emit (.traced seq aunPort verdict same data)) dp ipBe port aunPort
        data).2.2]
      simp
    · intro x hx
      rw [List.mem_singleton.mp hx]
      rfl
  · exact ⟨[], by simp, fun x hx => by cases hx⟩

/-- The engine's answer to a fresh frame, by the block `rx_match` picks. -/
inductive FreshOutcome (e e' : Engine) (f : RxFrame) : Prop
  | queued {i} (hfirst : FirstWithRoom e f i) (hold : CanHold e f i)
      (hrx : e'.rx = Function.update e.rx i ((e.rx i).push f)) (hout : Silent e')
  | tooBig {i} (hfirst : FirstWithRoom e f i) (hsmall : ¬CanHold e f i) (hrx : e'.rx = e.rx)
      (hout : Sends e' AUN_TYPE_NAK)
  | full (hnone : ∀ j, Listens e f j → ¬HasRoom e j) (hsome : ∃ j, Listens e f j)
      (hrx : e'.rx = e.rx) (hout : Silent e')
  | deaf (hnone : ∀ j, ¬Listens e f j) (hrx : e'.rx = e.rx) (hout : Sends e' AUN_TYPE_NAK)

theorem FreshOutcome.law {e e' : Engine} {f : RxFrame} (h : FreshOutcome e e' f) :
    VerdictLaw e e' f ↔ FirstFits e f := by
  have hsilent : Silent e' → ¬Sends e' AUN_TYPE_NAK := by
    rintro hs ⟨x, hx, htype⟩
    rw [hs x hx] at htype
    cases htype
  -- two blocks cannot both be the first with room
  have huniq : ∀ {i j}, FirstWithRoom e f i → FirstWithRoom e f j → i = j := by
    intro i j hi hj
    rcases lt_trichotomy i j with hlt | heq | hlt
    · exact absurd hi.room (hj.first i hlt hi.listens)
    · exact heq
    · exact absurd hj.room (hi.first j hlt hj.listens)
  cases h with
  | queued hfirst hold hrx hout =>
    refine ⟨fun _ i hi => ?_, fun _ => ⟨fun _ => ?_, fun _ _ => hout, fun hn => ?_⟩⟩
    · rw [huniq hi hfirst]
      exact Or.inl hold
    · refine ⟨_, hold, hfirst.room, ?_, ?_⟩
      · rw [hrx, Function.update_self, RxBlock.push_queue f hfirst.room]
      · intro j hj
        rw [hrx, Function.update_of_ne hj]
    · exact absurd hn (hsilent hout)
  | tooBig hfirst hsmall hrx hout =>
    refine ⟨fun hlaw i hi => Or.inr (hlaw.nak hout), fun hfits => ?_⟩
    have hnone := (hfits _ hfirst).resolve_left hsmall
    exact ⟨fun ⟨i, hi, _⟩ => absurd hi (hnone i), fun ⟨i, hi⟩ => absurd hi (hnone i), fun _ => hnone⟩
  | full hnone hsome hrx hout =>
    refine ⟨fun _ i hi => absurd hi.room (hnone i hi.listens), fun _ => ⟨?_, fun _ _ => hout, ?_⟩⟩
    · rintro ⟨i, hi, hr⟩
      exact absurd hr (hnone i hi.listens)
    · exact fun hn => absurd hn (hsilent hout)
  | deaf hnone hrx hout =>
    refine ⟨fun _ i hi => absurd hi.listens (hnone i), fun _ => ⟨?_, ?_, ?_⟩⟩
    · exact fun ⟨i, hi, _⟩ => absurd hi.listens (hnone i)
    · exact fun ⟨i, hi⟩ => absurd hi.listens (hnone i)
    · exact fun _ i hi => hnone i hi.listens

theorem FreshOutcome.traced {e e₁ e' : Engine} {f : RxFrame} {l : List Effect}
    (h : FreshOutcome e e₁ f) (hrx : e'.rx = e₁.rx) (hout : e'.io.out = e₁.io.out ++ l)
    (hl : ∀ x ∈ l, x.type = none) : FreshOutcome e e' f := by
  have hsilent : Silent e₁ → Silent e' := by
    intro hs x hx
    rw [hout] at hx
    rcases List.mem_append.mp hx with hx | hx
    · exact hs x hx
    · exact hl x hx
  have hsends : Sends e₁ AUN_TYPE_NAK → Sends e' AUN_TYPE_NAK := by
    rintro ⟨x, hx, htype⟩
    exact ⟨x, by rw [hout]; exact List.mem_append_left _ hx, htype⟩
  cases h with
  | queued hfirst hold hrx₁ hout₁ => exact .queued hfirst hold (hrx.trans hrx₁) (hsilent hout₁)
  | tooBig hfirst hsmall hrx₁ hout₁ => exact .tooBig hfirst hsmall (hrx.trans hrx₁) (hsends hout₁)
  | full hnone hsome hrx₁ hout₁ => exact .full hnone hsome (hrx.trans hrx₁) (hsilent hout₁)
  | deaf hnone hrx₁ hout₁ => exact .deaf hnone (hrx.trans hrx₁) (hsends hout₁)

theorem dataDeliver_outcome {e e₀ : Engine} (hrx : e₀.rx = e.rx) (hquiet : e₀.io.out = [])
    (ipBe : UInt32) (port : UInt16) (aunPort ctrl : UInt8) (seq : UInt32) (m : MapEntry)
    (data : List UInt8) :
    FreshOutcome e (dataDeliver T e₀ ipBe port aunPort ctrl seq m data).2
      (wireFrame m ipBe port aunPort ctrl seq data) := by
  set f := wireFrame m ipBe port aunPort ctrl seq data with hf
  have hmatch : rxMatch e₀ aunPort m.stn m.net = rxMatch e f.port f.srcStn f.srcNet :=
    rxMatchFrom_congr hrx _ _ _ _ _
  have hsilent : ∀ e₁ : Engine, e₁.io.out = e₀.io.out → Silent e₁ := by
    intro e₁ heq x hx
    rw [heq, hquiet] at hx
    cases hx
  have hnak : ∀ c, Sends (sendAckNak T (e₀.count c) ipBe port AUN_TYPE_NAK aunPort ctrl seq)
      AUN_TYPE_NAK := by
    intro c
    refine ⟨.sent ipBe port (buildHeader AUN_TYPE_NAK aunPort ctrl seq) (udpSendOk T (e₀.count c)),
      ?_, rfl⟩
    rw [sendAckNak_out]
    exact List.mem_append_right _ (List.mem_singleton.mpr rfl)
  unfold dataDeliver rxDeliver
  rw [hmatch]
  rcases rxMatch_spec e f with ⟨i, hfirst, hsome⟩ | ⟨hnone, heq⟩
  · obtain ⟨sawFull, heq⟩ : ∃ b, rxMatch e f.port f.srcStn f.srcNet = (some i, b) :=
      ⟨_, Prod.ext hsome rfl⟩
    rw [heq]
    dsimp only
    by_cases hbig : data.length > (e₀.rx i).bufSize ∨ data.length > AUN_MAX_DATA
    · simp only [hbig, if_true]
      refine .tooBig hfirst ?_ (by simpa using hrx) (hnak _)
      rintro ⟨-, hsize, hmax⟩
      rw [hrx] at hbig
      have hlen : f.len = data.length := rfl
      omega
    · simp only [hbig, if_false]
      have hlen : f.len = data.length := rfl
      refine .queued hfirst ⟨hfirst.listens, ?_, ?_⟩ ?_ (hsilent _ (by simp))
      · rw [← hrx]
        omega
      · omega
      · simp [hrx, RxBlock.push, hf, wireFrame]
  · rw [heq]
    by_cases hsome : ∃ j, Listens e f j
    · simp only [hsome, decide_true]
      exact .full hnone hsome (by simpa using hrx) (hsilent _ (by simp))
    · simp only [hsome, decide_false]
      exact .deaf (fun j hj => hsome ⟨j, hj⟩) (by simpa using hrx) (hnak _)

theorem udpInput_outcome {e : Engine} {ipBe : UInt32} {port : UInt16} {buf : List UInt8}
    {aunPort ctrl : UInt8} {seq : UInt32} {data : List UInt8} {m : MapEntry}
    (hready : e.initialised = true) (hd : FunnelData buf aunPort ctrl seq data)
    (hm : sourceEntry e ipBe port = some m) (hnew : rxSeqPending e ipBe port seq = false)
    (hdup : ¬(m.seqValid = true ∧ seq = m.lastRxSeq)) :
    FreshOutcome e (step T e (.udpInput ipBe port buf))
      (wireFrame m ipBe port aunPort ctrl seq data) := by
  have hstep : step T e (.udpInput ipBe port buf) =
      inputFunnelData T e.beginCall ipBe port aunPort ctrl seq data :=
    aunUdpInput_funnel T hready hd
  have hattr := attributeSource_eq e.beginCall ipBe port
  have hverdict : dataVerdict T e.beginCall ipBe port aunPort ctrl seq data =
      dataDeliver T (attributeSource e.beginCall ipBe port).2 ipBe port aunPort ctrl seq m data := by
    have hpend : rxSeqPending (attributeSource e.beginCall ipBe port).2 ipBe port seq = false := by
      rw [hattr]
      exact hnew
    have hm' := (sourceEntry_beginCall e ipBe port).trans hm
    rw [dataVerdict_eq T hm', dataFrom, if_neg (by simp [hpend]), if_neg hdup]
  have hrx : (attributeSource e.beginCall ipBe port).2.rx = e.rx := by
    rw [hattr]
    rfl
  have hquiet : (attributeSource e.beginCall ipBe port).2.io.out = [] := by
    rw [hattr]
    rfl
  have hdeliver := dataDeliver_outcome T hrx hquiet ipBe port aunPort ctrl seq m data
  rw [hstep]
  unfold inputFunnelData
  rw [hverdict]
  obtain ⟨l, hl, hnone⟩ := traceData_out
    (dataDeliver T (attributeSource e.beginCall ipBe port).2 ipBe port aunPort ctrl seq m data).2
    (dbgFind e.beginCall ipBe port aunPort)
    (dataDeliver T (attributeSource e.beginCall ipBe port).2 ipBe port aunPort ctrl seq m data).1
    (sameAsPrev e.beginCall (dbgFind e.beginCall ipBe port aunPort) data) ipBe port aunPort seq data
  exact hdeliver.traced (traceData_same _ _ _ _ _ _ _ _ _).1.rx hl hnone

/-- In every reachable state a fresh DATA frame from a mapped or learnable source gets
    the verdict it is owed exactly when the first open matching block with room is large
    enough for it, or no open matching block is. -/
theorem data_verdict_law (mem : Nat → UInt8) (station net : UInt8) (ops : List Op) {ipBe : UInt32}
    {port : UInt16} {buf : List UInt8} {aunPort ctrl : UInt8} {seq : UInt32} {data : List UInt8}
    {m : MapEntry} (hd : FunnelData buf aunPort ctrl seq data)
    (hm : sourceEntry (runState T mem station net ops) ipBe port = some m)
    (hnew : rxSeqPending (runState T mem station net ops) ipBe port seq = false)
    (hdup : ¬(m.seqValid = true ∧ seq = m.lastRxSeq)) :
    VerdictLaw (runState T mem station net ops)
        (runState T mem station net (ops ++ [.udpInput ipBe port buf]))
        (wireFrame m ipBe port aunPort ctrl seq data) ↔
      FirstFits (runState T mem station net ops)
        (wireFrame m ipBe port aunPort ctrl seq data) := by
  have hready := initialised_run T mem station net ops
  rw [runState_snoc]
  exact (udpInput_outcome T hready hd hm hnew hdup).law

/-- A frame for the only open block, which is large enough. -/
theorem data_verdict_law_one_block :
    VerdictLaw
      (runState .steady (fun _ => 0) 1 0
        [.mapAdd 0 5 0x0100007F 0, .rxOpen 0 0x99 0xFF 0xFF 1000 16])
      (runState .steady (fun _ => 0) 1 0
        [.mapAdd 0 5 0x0100007F 0, .rxOpen 0 0x99 0xFF 0xFF 1000 16,
          .udpInput 0x0100007F 32768 [2, 0x99, 0, 0, 4, 0, 0, 0, 7]])
      ⟨5, 0, 0x99, 0x80, 0, 4, 0x0100007F, 32768, [7]⟩ := by
  have hd : FunnelData [2, 0x99, 0, 0, 4, 0, 0, 0, 7] 0x99 0 4 [7] :=
    ⟨by decide, by decide, rfl, rfl, rfl, by decide, rfl⟩
  have hm : sourceEntry (runState .steady (fun _ => 0) 1 0
      [.mapAdd 0 5 0x0100007F 0, .rxOpen 0 0x99 0xFF 0xFF 1000 16]) 0x0100007F 32768 =
      some ⟨0, 5, 0x0100007F, 32768, 0, false⟩ := by decide +kernel
  exact (data_verdict_law .steady (fun _ => 0) 1 0 _ hd hm (by decide +kernel) (by decide)).mpr
    (by decide +kernel)

/-- Two open blocks match a five-byte frame.  The first takes four bytes and the second
    sixteen; both are empty, and the frame is NAKed. -/
theorem small_block_first_naked :
    ∃ e e', e = runState .steady (fun _ => 0) 1 0
        [.mapAdd 0 5 0x0100007F 0, .rxOpen 0 0x99 0xFF 0xFF 1000 4,
          .rxOpen 1 0x99 0xFF 0xFF 2000 16] ∧
      e' = step .steady e (.udpInput 0x0100007F 32768 [2, 0x99, 0, 0, 4, 0, 0, 0, 1, 2, 3, 4, 5]) ∧
      FunnelData [2, 0x99, 0, 0, 4, 0, 0, 0, 1, 2, 3, 4, 5] 0x99 0 4 [1, 2, 3, 4, 5] ∧
      sourceEntry e 0x0100007F 32768 = some ⟨0, 5, 0x0100007F, 32768, 0, false⟩ ∧
      rxSeqPending e 0x0100007F 32768 4 = false ∧
      ¬VerdictLaw e e' ⟨5, 0, 0x99, 0x80, 0, 4, 0x0100007F, 32768, [1, 2, 3, 4, 5]⟩ := by
  refine ⟨_, _, rfl, rfl, ⟨by decide, by decide, rfl, rfl, rfl, by decide, rfl⟩,
    by decide +kernel, by decide +kernel, fun hlaw => ?_⟩
  have hnak : Sends (step .steady (runState .steady (fun _ => 0) 1 0
      [.mapAdd 0 5 0x0100007F 0, .rxOpen 0 0x99 0xFF 0xFF 1000 4, .rxOpen 1 0x99 0xFF 0xFF 2000 16])
      (.udpInput 0x0100007F 32768 [2, 0x99, 0, 0, 4, 0, 0, 0, 1, 2, 3, 4, 5])) AUN_TYPE_NAK :=
    ⟨.sent 0x0100007F 32768 [4, 0x99, 0, 0, 4, 0, 0, 0] true, by decide +kernel, rfl⟩
  exact hlaw.nak hnak 1 (by decide +kernel)

end Pi1MHz.Aun
