import Pi1MHz.AunRun

/-!
# What each part of the engine leaves alone

The engine's state falls into three parts that mostly change independently: the
receive side (blocks, station map, condemned streams), the host-immediate slot
with its cache, and the outstanding transmit with its two counters.
-/

namespace Pi1MHz.Aun

variable (T : Transport)

structure SameRx (e e' : Engine) : Prop where
  rx : e'.rx = e.rx
  map : e'.map = e.map
  condemned : e'.condemned = e.condemned

/-- The host-immediate slot, its cache and its switch are as before, and so is the
    mark `aun_init` sets. -/
structure SameHimm (e e' : Engine) : Prop where
  himm : e'.himm = e.himm
  cache : e'.himmCache = e.himmCache
  enabled : e'.hostImmEnabled = e.hostImmEnabled
  replays : e'.counters.himmReplay = e.counters.himmReplay
  ready : e'.initialised = e.initialised

structure SameTx (e e' : Engine) : Prop where
  tx : e'.tx = e.tx
  txOk : e'.counters.txOk = e.counters.txOk
  txFail : e'.counters.txFail = e.counters.txFail

theorem SameRx.refl (e : Engine) : SameRx e e := ⟨rfl, rfl, rfl⟩

theorem SameRx.trans {e e' e'' : Engine} (h : SameRx e e') (h' : SameRx e' e'') :
    SameRx e e'' :=
  ⟨h'.rx.trans h.rx, h'.map.trans h.map, h'.condemned.trans h.condemned⟩

theorem SameHimm.refl (e : Engine) : SameHimm e e := ⟨rfl, rfl, rfl, rfl, rfl⟩

theorem SameHimm.trans {e e' e'' : Engine} (h : SameHimm e e') (h' : SameHimm e' e'') :
    SameHimm e e'' :=
  ⟨h'.himm.trans h.himm, h'.cache.trans h.cache, h'.enabled.trans h.enabled,
    h'.replays.trans h.replays, h'.ready.trans h.ready⟩

theorem SameTx.refl (e : Engine) : SameTx e e := ⟨rfl, rfl, rfl⟩

theorem SameTx.trans {e e' e'' : Engine} (h : SameTx e e') (h' : SameTx e' e'') :
    SameTx e e'' :=
  ⟨h'.tx.trans h.tx, h'.txOk.trans h.txOk, h'.txFail.trans h.txFail⟩

@[simp] theorem Counters.ackNak_txOk (c : Counters) (ok : Bool) (type : UInt8) :
    (c.ackNak ok type).txOk = c.txOk := by
  unfold Counters.ackNak
  split_ifs <;> rfl

@[simp] theorem Counters.ackNak_txFail (c : Counters) (ok : Bool) (type : UInt8) :
    (c.ackNak ok type).txFail = c.txFail := by
  unfold Counters.ackNak
  split_ifs <;> rfl

@[simp] theorem Counters.ackNak_himmReplay (c : Counters) (ok : Bool) (type : UInt8) :
    (c.ackNak ok type).himmReplay = c.himmReplay := by
  unfold Counters.ackNak
  split_ifs <;> rfl

@[simp] theorem Counters.ackNak_rxParkedDrop (c : Counters) (ok : Bool) (type : UInt8) :
    (c.ackNak ok type).rxParkedDrop = c.rxParkedDrop := by
  unfold Counters.ackNak
  split_ifs <;> rfl

section

variable (e : Engine) (ipBe : UInt32) (port : UInt16)

theorem sendAckNak_sameRx (type aunPort ctrl : UInt8) (seq : UInt32) :
    SameRx e (sendAckNak T e ipBe port type aunPort ctrl seq) :=
  ⟨by simp, by simp, by simp⟩

theorem sendAckNak_sameHimm (type aunPort ctrl : UInt8) (seq : UInt32) :
    SameHimm e (sendAckNak T e ipBe port type aunPort ctrl seq) :=
  ⟨by simp, by simp, by simp, by simp, by simp⟩

theorem sendAckNak_sameTx (type aunPort ctrl : UInt8) (seq : UInt32) :
    SameTx e (sendAckNak T e ipBe port type aunPort ctrl seq) :=
  ⟨by simp, by simp, by simp⟩

/-! ### The receive side is untouched by transmits, immediates and timers -/

theorem inputAckNak_sameRx (type : UInt8) (seq : UInt32) :
    SameRx e (inputAckNak T e ipBe port type seq) := by
  unfold inputAckNak txRejected
  split_ifs
  · exact ⟨by simp, by simp, by simp⟩
  · exact ⟨by simp, by simp, by simp⟩
  · exact ⟨by simp, by simp, by simp⟩
  · exact SameRx.refl e
  · exact SameRx.refl e

theorem storeReply_sameRx (data : List UInt8) : SameRx e (storeReply e data) := by
  unfold storeReply
  dsimp only
  split_ifs <;> exact ⟨by simp, by simp, by simp⟩

theorem inputImmReply_sameRx (seq : UInt32) (data : List UInt8) :
    SameRx e (inputImmReply e ipBe port seq data) := by
  unfold inputImmReply
  split_ifs
  · exact (storeReply_sameRx e data).trans ⟨by simp, by simp, by simp⟩
  · exact SameRx.refl e

theorem himmHold_sameRx (fromData : Bool) (ctrl : UInt8) (seq : UInt32) (data : List UInt8) :
    SameRx e (himmHold T e fromData ctrl seq ipBe port data) :=
  ⟨by simp, by simp, by simp⟩

theorem tick_sameRx : SameRx e (tick e) := ⟨by simp, by simp, by simp⟩

theorem countImm_sameRx : SameRx e (countImm e) := ⟨by simp, by simp, by simp⟩

theorem imm4Fresh_sameRx (ctrl : UInt8) (seq : UInt32) (data : List UInt8) :
    SameRx e (imm4Fresh T e ipBe port ctrl seq data) := by
  unfold imm4Fresh
  split_ifs
  · exact SameRx.refl e
  · exact himmHold_sameRx T e ipBe port _ _ _ _

theorem imm4Checked_sameRx (ctrl : UInt8) (seq : UInt32) (data : List UInt8) :
    SameRx e (imm4Checked T e ipBe port ctrl seq data) := by
  unfold imm4Checked imm4Replay
  split_ifs
  · exact ⟨by simp, by simp, by simp⟩
  · exact ⟨by simp, by simp, by simp⟩
  · exact (tick_sameRx e).trans (imm4Fresh_sameRx T _ ipBe port ctrl seq data)
  · exact imm4Fresh_sameRx T e ipBe port ctrl seq data

theorem rxImm4Data_sameRx (ctrl : UInt8) (seq : UInt32) (data : List UInt8) :
    SameRx e (rxImm4Data T e ipBe port ctrl seq data) := by
  unfold rxImm4Data
  split_ifs
  · exact (countImm_sameRx e).trans (imm4Checked_sameRx T _ ipBe port ctrl seq data)
  · exact (countImm_sameRx e).trans (sendAckNak_sameRx T _ _ _ _ _ _ _)

theorem immReplay_sameRx (aunPort ctrl : UInt8) (seq : UInt32) :
    SameRx e (immReplay T e ipBe port aunPort ctrl seq) := by
  unfold immReplay
  split_ifs <;> exact ⟨by simp, by simp, by simp⟩

theorem immFresh_sameRx (aunPort ctrl : UInt8) (seq : UInt32) (data : List UInt8) :
    SameRx e (immFresh T e ipBe port aunPort ctrl seq data) := by
  unfold immFresh
  split_ifs
  · exact (tick_sameRx e).trans (immReplay_sameRx T _ ipBe port aunPort ctrl seq)
  · exact (tick_sameRx e).trans (himmHold_sameRx T _ ipBe port _ _ _ _)
  · exact himmHold_sameRx T e ipBe port _ _ _ _

theorem inputImmediate_sameRx (aunPort ctrl : UInt8) (seq : UInt32) (data : List UInt8) :
    SameRx e (inputImmediate T e ipBe port aunPort ctrl seq data) := by
  unfold inputImmediate
  split_ifs
  · exact (countImm_sameRx e).trans ⟨by simp, by simp, by simp⟩
  · exact countImm_sameRx e
  · exact (countImm_sameRx e).trans (sendAckNak_sameRx T _ _ _ _ _ _ _)
  · exact (countImm_sameRx e).trans (immFresh_sameRx T _ ipBe port aunPort ctrl seq data)
  · exact (countImm_sameRx e).trans (sendAckNak_sameRx T _ _ _ _ _ _ _)

end

theorem aunHimmReply_sameRx (e : Engine) (data : List UInt8) :
    SameRx e (aunHimmReply T e data) := by
  unfold aunHimmReply
  split_ifs
  · exact SameRx.refl e
  · exact ⟨by simp, by simp, by simp⟩
  · exact ⟨by simp, by simp, by simp⟩

theorem himmReap_sameRx (e : Engine) : SameRx e (himmReap T e) := by
  unfold himmReap himmExpire
  split_ifs
  · exact ⟨by simp, by simp, by simp⟩
  · exact tick_sameRx e
  · exact SameRx.refl e

theorem txSend_sameRx (e : Engine) : SameRx e (txSend T e) := by
  unfold txSend
  dsimp only
  split_ifs <;> exact ⟨by simp, by simp, by simp⟩

theorem txPoll_sameRx (e : Engine) : SameRx e (txPoll T e) := by
  have hset : ∀ e tx, SameRx e (Engine.withTx e tx) := fun e tx => ⟨rfl, rfl, rfl⟩
  unfold txPoll txTimeout
  split_ifs
  · exact SameRx.refl e
  · exact tick_sameRx e
  · exact (tick_sameRx e).trans ((hset _ _).trans (txSend_sameRx T _))
  · exact (tick_sameRx e).trans ⟨by simp, by simp, by simp⟩
  · exact (tick_sameRx e).trans ((hset _ _).trans (txSend_sameRx T _))

theorem aunPoll_sameRx (e : Engine) : SameRx e (aunPoll T e) := by
  unfold aunPoll
  split_ifs
  · exact SameRx.refl e
  · exact (himmReap_sameRx T e).trans (txPoll_sameRx T _)

theorem txLaunch_sameRx (e : Engine) (wireType ctrl port : UInt8) (data : List UInt8)
    (replyBuf replyMax : Nat) (destIp : UInt32) (destPort : UInt16) :
    SameRx e (txLaunch T e wireType ctrl port data replyBuf replyMax destIp destPort) := by
  unfold txLaunch
  exact SameRx.trans ⟨by simp, by simp, by simp⟩ (txSend_sameRx T _)

theorem sendToMap_same (e : Engine) (dgram : List UInt8) (map : List MapEntry) :
    SameRx e (sendToMap T e dgram map) ∧ SameHimm e (sendToMap T e dgram map) ∧
      SameTx e (sendToMap T e dgram map) := by
  unfold sendToMap
  induction map generalizing e with
  | nil => exact ⟨SameRx.refl e, SameHimm.refl e, SameTx.refl e⟩
  | cons m map ih =>
    obtain ⟨hrx, hhimm, htx⟩ := ih (udpSend T e m.ipBe m.udpPort dgram)
    rw [List.foldl_cons]
    exact ⟨SameRx.trans ⟨by simp, by simp, by simp⟩ hrx,
      SameHimm.trans ⟨by simp, by simp, by simp, by simp, by simp⟩ hhimm,
      SameTx.trans ⟨by simp, by simp, by simp⟩ htx⟩

theorem aunBroadcast_same (e : Engine) (ctrl port : UInt8) (data : Payload) :
    SameRx e (aunBroadcast T e ctrl port data).2 ∧ SameHimm e (aunBroadcast T e ctrl port data).2 ∧
      SameTx e (aunBroadcast T e ctrl port data).2 := by
  unfold aunBroadcast
  split_ifs
  · exact ⟨SameRx.refl e, SameHimm.refl e, SameTx.refl e⟩
  · exact ⟨SameRx.refl e, SameHimm.refl e, SameTx.refl e⟩
  · dsimp only
    obtain ⟨hrx, hhimm, htx⟩ := sendToMap_same T (e.withNextSeq (e.nextSeq + 4))
      (buildHeader AUN_TYPE_BROADCAST port ctrl e.nextSeq ++ data.toList) e.map
    have hrx₀ : SameRx e (e.withNextSeq (e.nextSeq + 4)) := ⟨rfl, rfl, rfl⟩
    have hhimm₀ : SameHimm e (e.withNextSeq (e.nextSeq + 4)) := ⟨rfl, rfl, rfl, rfl, rfl⟩
    have htx₀ : SameTx e (e.withNextSeq (e.nextSeq + 4)) := ⟨rfl, rfl, rfl⟩
    have hrx' := hrx₀.trans hrx
    have hhimm' := hhimm₀.trans hhimm
    have htx' := htx₀.trans htx
    split_ifs
    · exact ⟨hrx'.trans ⟨by simp, by simp, by simp⟩,
        hhimm'.trans ⟨by simp, by simp, by simp, by simp, by simp⟩,
        htx'.trans ⟨by simp, by simp, by simp⟩⟩
    · exact ⟨hrx', hhimm', htx'⟩

/-! ### The receive functions keep the host immediates and the transmit -/

structure SameRest (e e' : Engine) : Prop extends SameHimm e e', SameTx e e'

theorem SameRest.refl (e : Engine) : SameRest e e := ⟨SameHimm.refl e, rfl, rfl, rfl⟩

theorem SameRest.trans {e e' e'' : Engine} (h : SameRest e e') (h' : SameRest e' e'') :
    SameRest e e'' :=
  ⟨h.toSameHimm.trans h'.toSameHimm, h'.tx.trans h.tx, h'.txOk.trans h.txOk,
    h'.txFail.trans h.txFail⟩

theorem aunMapAdd_eq (e : Engine) (net stn : UInt8) (ipBe : UInt32) (port : UInt16) :
    (aunMapAdd e net stn ipBe port).2 = e.withMap (aunMapAdd e net stn ipBe port).2.map := by
  unfold aunMapAdd
  dsimp only
  split
  · rfl
  · split_ifs <;> rfl

theorem attributeSource_eq (e : Engine) (ipBe : UInt32) (port : UInt16) :
    (attributeSource e ipBe port).2 = e.withMap (attributeSource e ipBe port).2.map := by
  unfold attributeSource
  cases mapFindByIp e.map ipBe port with
  | some j => rfl
  | none =>
    cases learnAttribute e ipBe port with
    | none => rfl
    | some a => exact aunMapAdd_eq e a.1 a.2 ipBe port

theorem dbgRemember_same (e : Engine) (dp : Option (Fin AUN_DBG_PREV_SLOTS)) (ipBe : UInt32)
    (port : UInt16) (aunPort : UInt8) (data : List UInt8) :
    SameRx e (dbgRemember e dp ipBe port aunPort data) ∧
      SameRest e (dbgRemember e dp ipBe port aunPort data) ∧
      (dbgRemember e dp ipBe port aunPort data).io = e.io := by
  unfold dbgRemember
  split_ifs
  · cases dp with
    | none => exact ⟨⟨rfl, rfl, rfl⟩, ⟨⟨rfl, rfl, rfl, rfl, rfl⟩, rfl, rfl, rfl⟩, rfl⟩
    | some i => exact ⟨⟨rfl, rfl, rfl⟩, ⟨⟨rfl, rfl, rfl, rfl, rfl⟩, rfl, rfl, rfl⟩, rfl⟩
  · exact ⟨SameRx.refl e, SameRest.refl e, rfl⟩

theorem traceData_same (e : Engine) (dp : Option (Fin AUN_DBG_PREV_SLOTS)) (verdict : RxVerdict)
    (same : Bool) (ipBe : UInt32) (port : UInt16) (aunPort : UInt8) (seq : UInt32)
    (data : List UInt8) :
    SameRx e (traceData e dp verdict same ipBe port aunPort seq data) ∧
      SameRest e (traceData e dp verdict same ipBe port aunPort seq data) := by
  unfold traceData
  split_ifs
  · obtain ⟨hrx, hrest, -⟩ := dbgRemember_same
      (e.emit (.traced seq aunPort verdict same data)) dp ipBe port aunPort data
    exact ⟨SameRx.trans ⟨by simp, by simp, by simp⟩ hrx,
      SameRest.trans ⟨⟨by simp, by simp, by simp, by simp, by simp⟩, by simp, by simp, by simp⟩ hrest⟩
  · exact ⟨SameRx.refl e, SameRest.refl e⟩

theorem collectAccept_rest (e : Engine) (i : Fin AUN_RX_BLOCKS) (off : Nat) :
    SameRest e (collectAccept T e i off) := by
  unfold collectAccept
  dsimp only
  split_ifs <;> exact ⟨⟨by simp, by simp, by simp, by simp, by simp⟩, by simp, by simp, by simp⟩

theorem collectReject_rest (e : Engine) (i : Fin AUN_RX_BLOCKS) (off : Nat) :
    SameRest e (collectReject T e i off) := by
  unfold collectReject collectShed collectDefer
  dsimp only
  split_ifs <;> exact ⟨⟨by simp, by simp, by simp, by simp, by simp⟩, by simp, by simp, by simp⟩

theorem scanned_rest (e : Engine) (i : Fin AUN_RX_BLOCKS) : SameRest e (scanned T e i) :=
  ⟨⟨by simp [scanned], by simp [scanned], by simp [scanned], by simp [scanned], by simp [scanned]⟩,
    by simp [scanned], by simp [scanned], by simp [scanned]⟩

theorem unpresent_rest (e : Engine) (i : Fin AUN_RX_BLOCKS) : SameRest e (unpresent e i) :=
  ⟨⟨by simp, by simp, by simp, by simp, by simp⟩, by simp, by simp, by simp⟩

theorem collectFrame_rest (e : Engine) (i : Fin AUN_RX_BLOCKS) (accept : Bool) :
    SameRest e (collectFrame T e i accept) := by
  unfold collectFrame
  split
  · exact scanned_rest T e i
  · split_ifs
    · exact (scanned_rest T e i).trans (collectAccept_rest T _ _ _)
    · exact (scanned_rest T e i).trans (collectReject_rest T _ _ _)

theorem aunRxCollect_rest (e : Engine) (handle : UInt8) (accept : Bool) :
    SameRest e (aunRxCollect T e handle accept).2 := by
  unfold aunRxCollect
  split
  · exact SameRest.refl e
  · split_ifs
    · exact (collectFrame_rest T e _ accept).trans (unpresent_rest _ _)
    · exact unpresent_rest _ _

theorem aunRxPoll_rest (e : Engine) (handle : UInt8) : SameRest e (aunRxPoll T e handle).2.2 := by
  unfold aunRxPoll
  split
  · exact SameRest.refl e
  · dsimp only
    split_ifs
    · exact SameRest.refl e
    · exact SameRest.refl e
    · split <;> exact ⟨⟨by simp, by simp, by simp, by simp, by simp⟩, by simp, by simp, by simp⟩

theorem aunRxReady_rest (e : Engine) (handle : UInt8) : SameRest e (aunRxReady T e handle).2 := by
  unfold aunRxReady
  split
  · exact SameRest.refl e
  · exact ⟨⟨by simp, by simp, by simp, by simp, by simp⟩, by simp, by simp, by simp⟩

theorem aunRxOpen_rest (e : Engine) (handle port stn net : UInt8) (buf bufSize : Nat) :
    SameRest e (aunRxOpen e handle port stn net buf bufSize).2 := by
  unfold aunRxOpen
  split_ifs
  · exact SameRest.refl e
  · split <;> exact SameRest.refl e
  · split
    · exact SameRest.refl e
    · exact ⟨⟨by simp, by simp, by simp, by simp, by simp⟩, by simp, by simp, by simp⟩

theorem aunRxClose_rest (e : Engine) (handle : UInt8) : SameRest e (aunRxClose e handle).2 := by
  unfold aunRxClose
  split
  · exact SameRest.refl e
  · exact ⟨⟨by simp, by simp, by simp, by simp, by simp⟩, by simp, by simp, by simp⟩

theorem rxDeliver_rest (e : Engine) (port ctrl srcStn srcNet : UInt8) (data : List UInt8) :
    SameRest e (rxDeliver e port ctrl srcStn srcNet data).2 := by
  unfold rxDeliver
  split
  · exact SameRest.refl e
  · exact ⟨⟨by simp, by simp, by simp, by simp, by simp⟩, by simp, by simp, by simp⟩
  · dsimp only
    split_ifs <;> exact ⟨⟨by simp, by simp, by simp, by simp, by simp⟩, by simp, by simp, by simp⟩

theorem inputBroadcast_rest (e : Engine) (ipBe : UInt32) (port : UInt16) (aunPort ctrl : UInt8)
    (data : List UInt8) : SameRest e (inputBroadcast e ipBe port aunPort ctrl data) := by
  unfold inputBroadcast
  dsimp only
  have hdel := rxDeliver_rest e aunPort ctrl (broadcastSource e ipBe port).1
    (broadcastSource e ipBe port).2 data
  split
  · exact hdel.trans ⟨⟨by simp, by simp, by simp, by simp, by simp⟩, by simp, by simp, by simp⟩
  · exact hdel

theorem sendAckNak_rest (e : Engine) (ipBe : UInt32) (port : UInt16) (type aunPort ctrl : UInt8)
    (seq : UInt32) : SameRest e (sendAckNak T e ipBe port type aunPort ctrl seq) :=
  ⟨⟨by simp, by simp, by simp, by simp, by simp⟩, by simp, by simp, by simp⟩

theorem dataFrom_rest (e : Engine) (ipBe : UInt32) (port : UInt16) (aunPort ctrl : UInt8)
    (seq : UInt32) (m : MapEntry) (data : List UInt8) :
    SameRest e (dataFrom T e ipBe port aunPort ctrl seq m data).2 := by
  have hcount : SameRest e (countDup e) :=
    ⟨⟨by simp, by simp, by simp, by simp, by simp⟩, by simp, by simp, by simp⟩
  unfold dataFrom dataDeliver
  split_ifs
  · exact hcount
  · exact hcount.trans (sendAckNak_rest T _ _ _ _ _ _ _)
  · dsimp only
    have hdel := rxDeliver_rest e aunPort ctrl m.stn m.net data
    split
    · exact hdel.trans ⟨⟨by simp, by simp, by simp, by simp, by simp⟩, by simp, by simp, by simp⟩
    · exact hdel.trans ⟨⟨by simp, by simp, by simp, by simp, by simp⟩, by simp, by simp, by simp⟩
    · exact hdel.trans (sendAckNak_rest T _ _ _ _ _ _ _)

theorem attributeSource_rest (e : Engine) (ipBe : UInt32) (port : UInt16) :
    SameRest e (attributeSource e ipBe port).2 := by
  rw [attributeSource_eq]
  exact ⟨⟨rfl, rfl, rfl, rfl, rfl⟩, rfl, rfl, rfl⟩

theorem inputFunnelData_rest (e : Engine) (ipBe : UInt32) (port : UInt16) (aunPort ctrl : UInt8)
    (seq : UInt32) (data : List UInt8) :
    SameRest e (inputFunnelData T e ipBe port aunPort ctrl seq data) := by
  unfold inputFunnelData dataVerdict
  dsimp only
  refine SameRest.trans ?_ (traceData_same _ _ _ _ _ _ _ _ _).2
  have ha := attributeSource_rest e ipBe port
  split
  · exact ha.trans ⟨⟨by simp, by simp, by simp, by simp, by simp⟩, by simp, by simp, by simp⟩
  · exact ha.trans (dataFrom_rest T _ _ _ _ _ _ _ _)

end Pi1MHz.Aun
