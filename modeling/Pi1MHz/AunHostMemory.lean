import Pi1MHz.AunInvariant
import Pi1MHz.AunTxSteps

/-!
# Host memory

The engine writes the caller's memory at three places: a poll copies the frame it
presents into the block's buffer, a reply to an immediate goes to the buffer the caller
passed with it, and a loopback immediate is answered on the spot.
-/

namespace Pi1MHz.Aun

open History (Step)

variable (T : Transport)

def Apart (a n b m : Nat) : Prop := a + n ≤ b ∨ b + m ≤ a

theorem readMem_writeMem_apart (mem : Nat → UInt8) {a n b : Nat} {bytes : List UInt8}
    (h : Apart a n b bytes.length) : readMem (writeMem mem b bytes) a n = readMem mem a n := by
  apply List.map_congr_left
  intro i hi
  have hlt : i < n := List.mem_range.mp hi
  have hout : ¬(b ≤ a + i ∧ a + i < b + bytes.length) := by
    rcases h with h | h <;> omega
  exact if_neg hout

theorem readMem_writeMem_self (mem : Nat → UInt8) (a : Nat) (bytes : List UInt8) :
    readMem (writeMem mem a bytes) a bytes.length = bytes := by
  apply List.ext_getElem?
  intro i
  by_cases hi : i < bytes.length
  · have hin : a ≤ a + i ∧ a + i < a + bytes.length := by omega
    simp [readMem, writeMem, hi]
  · simp [readMem, hi]

theorem Apart.mono {a n b m n' m' : Nat} (h : Apart a n b m) (hn : n' ≤ n) (hm : m' ≤ m) :
    Apart a n' b m' := by
  rcases h with h | h
  · exact Or.inl (by omega)
  · exact Or.inr (by omega)

inductive MemStep (e : Engine) : Op → Engine → Prop
  | kept {op e'} (hmem : e'.io.mem = e.io.mem)
      (hop : (∀ handle, op ≠ .rxPoll handle) ∨ e'.rx = e.rx) : MemStep e op e'
  | presented {handle i off e'} (hi : openBlock e handle = some i)
      (hoff : (rxFirstEligible T.now (e.rx i) e.io.reads).off = some off)
      (hrx : e'.rx = Function.update e.rx i
        { (rxFirstEligible T.now (e.rx i) e.io.reads).block with
          presOff := off, presented := true })
      (hmem : e'.io.mem = writeMem e.io.mem (e.rx i).buf ((e.rx i).frameAt off).data) :
      MemStep e (.rxPoll handle) e'
  | replied {ipBe port buf bytes e'} (hpend : e.tx.state = .pending) (hbuf : e.tx.replyBuf ≠ 0)
      (hlen : bytes.length ≤ e.tx.replyMax)
      (hmem : e'.io.mem = writeMem e.io.mem e.tx.replyBuf bytes) :
      MemStep e (.udpInput ipBe port buf) e'
  | looped {destNet destStn ctrl data replyBuf replyMax bytes e'} (hbuf : replyBuf ≠ 0)
      (hlen : bytes.length ≤ replyMax)
      (hmem : e'.io.mem = writeMem e.io.mem replyBuf bytes) :
      MemStep e (.immediate destNet destStn ctrl data replyBuf replyMax) e'

/-! ### Functions that leave host memory alone -/

section

variable (e : Engine)

theorem collectFrame_mem (i : Fin AUN_RX_BLOCKS) (accept : Bool) :
    (collectFrame T e i accept).io.mem = e.io.mem := by
  unfold collectFrame
  split
  · simp [scanned]
  · split_ifs
    · unfold collectAccept
      dsimp only
      split_ifs <;> simp [scanned]
    · unfold collectReject
      dsimp only
      split_ifs <;> simp [scanned, collectShed, collectDefer]

theorem aunRxCollect_mem (handle : UInt8) (accept : Bool) :
    (aunRxCollect T e handle accept).2.io.mem = e.io.mem := by
  unfold aunRxCollect
  split
  · rfl
  · split_ifs
    · simp [collectFrame_mem]
    · simp

theorem aunRxReady_mem (handle : UInt8) : (aunRxReady T e handle).2.io.mem = e.io.mem := by
  unfold aunRxReady
  split
  · rfl
  · simp

theorem aunRxOpen_mem (handle port stn net : UInt8) (buf bufSize : Nat) :
    (aunRxOpen e handle port stn net buf bufSize).2.io.mem = e.io.mem := by
  unfold aunRxOpen
  cases rxHandle handle with
  | none => split_ifs <;> rfl
  | some i =>
    dsimp only
    split_ifs <;> simp

theorem aunRxClose_mem (handle : UInt8) : (aunRxClose e handle).2.io.mem = e.io.mem := by
  unfold aunRxClose
  split <;> simp

theorem txSend_mem : (txSend T e).io.mem = e.io.mem := by
  unfold txSend
  dsimp only
  split_ifs <;> simp

theorem sendToMap_mem (dgram : List UInt8) :
    ∀ (map : List MapEntry) (e : Engine), (sendToMap T e dgram map).io.mem = e.io.mem := by
  intro map
  induction map with
  | nil => intro e; rfl
  | cons m map ih =>
    intro e
    exact (ih _).trans (by simp)

theorem aunBroadcast_mem (ctrl port : UInt8) (data : Payload) :
    (aunBroadcast T e ctrl port data).2.io.mem = e.io.mem := by
  unfold aunBroadcast
  split_ifs
  · rfl
  · rfl
  · dsimp only
    split_ifs <;> simp [sendToMap_mem]

theorem rxImm4Data_mem (ipBe : UInt32) (port : UInt16) (ctrl : UInt8) (seq : UInt32)
    (data : List UInt8) : (rxImm4Data T e ipBe port ctrl seq data).io.mem = e.io.mem := by
  unfold rxImm4Data imm4Checked imm4Replay imm4Fresh
  split_ifs <;> simp

theorem inputImmediate_mem (ipBe : UInt32) (port : UInt16) (aunPort ctrl : UInt8) (seq : UInt32)
    (data : List UInt8) : (inputImmediate T e ipBe port aunPort ctrl seq data).io.mem = e.io.mem := by
  unfold inputImmediate immFresh immReplay
  split_ifs <;> simp

theorem aunHimmReply_mem (data : List UInt8) : (aunHimmReply T e data).io.mem = e.io.mem := by
  unfold aunHimmReply
  split_ifs <;> simp

theorem dataVerdict_mem (ipBe : UInt32) (port : UInt16) (aunPort ctrl : UInt8) (seq : UInt32)
    (data : List UInt8) : (dataVerdict T e ipBe port aunPort ctrl seq data).2.io.mem = e.io.mem := by
  unfold dataVerdict
  dsimp only
  rw [attributeSource_eq]
  split
  · simp
  · unfold dataFrom dataDeliver
    split_ifs
    · simp
    · simp
    · dsimp only
      split <;> simp [rxDeliver_out]

theorem inputFunnelData_mem (ipBe : UInt32) (port : UInt16) (aunPort ctrl : UInt8) (seq : UInt32)
    (data : List UInt8) : (inputFunnelData T e ipBe port aunPort ctrl seq data).io.mem = e.io.mem := by
  unfold inputFunnelData traceData
  dsimp only
  split_ifs
  · rw [(dbgRemember_same _ _ _ _ _ _).2.2]
    simp [dataVerdict_mem]
  · exact dataVerdict_mem T e _ _ _ _ _ _

theorem inputBroadcast_mem (ipBe : UInt32) (port : UInt16) (aunPort ctrl : UInt8)
    (data : List UInt8) : (inputBroadcast e ipBe port aunPort ctrl data).io.mem = e.io.mem := by
  unfold inputBroadcast
  dsimp only
  split <;> simp [rxDeliver_out]

theorem inputAckNak_mem (ipBe : UInt32) (port : UInt16) (type : UInt8) (seq : UInt32) :
    (inputAckNak T e ipBe port type seq).io.mem = e.io.mem := by
  unfold inputAckNak txRejected
  split_ifs <;> simp

theorem himmReap_mem : (himmReap T e).io.mem = e.io.mem := by
  unfold himmReap himmExpire
  split_ifs <;> simp

theorem aunPoll_mem : (aunPoll T e).io.mem = e.io.mem := by
  unfold aunPoll txPoll txTimeout
  split_ifs <;> simp [himmReap_mem, txSend_mem]

end

/-! ### The list is complete -/

theorem aunRxPoll_memStep (e : Engine) (handle : UInt8) :
    MemStep T e (.rxPoll handle) (aunRxPoll T e handle).2.2 := by
  unfold aunRxPoll
  cases hi : openBlock e handle with
  | none => exact .kept rfl (Or.inr rfl)
  | some i =>
    dsimp only
    split_ifs with hcount hpres
    · exact .kept rfl (Or.inr rfl)
    · exact .kept rfl (Or.inr rfl)
    · cases hoff : (rxFirstEligible T.now (e.rx i) e.io.reads).off with
      | none =>
        have hb := (rxScan_none T.now _ _ _ _ hoff).2.1
        refine .kept (by simp) (Or.inr ?_)
        simp only [Engine.atRead_rx, Engine.setBlock_rx]
        exact Function.update_eq_self_iff.mpr hb
      | some off =>
        have hblock := rxScan_block T.now (e.rx i).count 0 (e.rx i) e.io.reads
        refine .presented hi hoff (by simp) ?_
        -- the scan moved neither the buffer nor the frames
        have hbuf : (rxFirstEligible T.now (e.rx i) e.io.reads).block.buf = (e.rx i).buf := by
          rw [rxFirstEligible, hblock]
          rfl
        have hframe : (rxFirstEligible T.now (e.rx i) e.io.reads).block.frameAt off =
            (e.rx i).frameAt off := by
          rw [rxFirstEligible, hblock]
          rfl
        simp [hbuf, hframe]

theorem inputImmReply_memStep {e : Engine} (ipBe : UInt32) (port : UInt16) (seq : UInt32)
    (buf data : List UInt8) :
    MemStep T e (.udpInput ipBe port buf) (inputImmReply e ipBe port seq data) := by
  unfold inputImmReply
  split_ifs with hans
  · simp only [answersTx, Bool.and_eq_true, decide_eq_true_eq] at hans
    unfold storeReply
    dsimp only
    split_ifs with hlt hwrite hwrite
    · have hlen : (data.take data.length).length ≤ e.tx.replyMax := by
        rw [List.length_take]
        omega
      exact .replied hans.1.1.1.1 hwrite.1 hlen (by simp)
    · exact .kept (by simp) (Or.inl (by simp))
    · have hlen : (data.take e.tx.replyMax).length ≤ e.tx.replyMax := by
        rw [List.length_take]
        omega
      exact .replied hans.1.1.1.1 hwrite.1 hlen (by simp)
    · exact .kept (by simp) (Or.inl (by simp))
  · exact .kept rfl (Or.inl (by simp))

theorem aunUdpInput_memStep (e : Engine) (ipBe : UInt32) (port : UInt16) (buf : List UInt8) :
    MemStep T e (.udpInput ipBe port buf) (aunUdpInput T e ipBe port buf) := by
  unfold aunUdpInput
  dsimp only
  split_ifs
  · exact .kept (by simp) (Or.inl (by simp))
  · exact .kept (inputAckNak_mem T e _ _ _ _) (Or.inl (by simp))
  · exact inputImmReply_memStep T _ _ _ _ _
  · unfold inputData
    split_ifs
    · exact .kept (rxImm4Data_mem T e _ _ _ _ _) (Or.inl (by simp))
    · exact .kept (inputFunnelData_mem T e _ _ _ _ _ _) (Or.inl (by simp))
  · exact .kept (inputBroadcast_mem e _ _ _ _ _) (Or.inl (by simp))
  · exact .kept (inputImmediate_mem T e _ _ _ _ _ _) (Or.inl (by simp))
  · exact .kept (by simp) (Or.inl (by simp))

@[simp] theorem txCountDone_io (e : Engine) : (txCountDone e).io = e.io := by
  unfold txCountDone
  split_ifs <;> simp

theorem loopbackDeliver_io (e : Engine) (ctrl port : UInt8) (data : List UInt8) :
    (loopbackDeliver e ctrl port data).io = e.io := by
  unfold loopbackDeliver
  dsimp only
  split <;> simp [rxDeliver_out]

theorem txLoopback_mem (e : Engine) (wireType ctrl port : UInt8) (data : List UInt8)
    (replyBuf replyMax : Nat) :
    (txLoopback e wireType ctrl port data replyBuf replyMax).io.mem = e.io.mem ∨
      (replyBuf ≠ 0 ∧ ∃ bytes : List UInt8, bytes.length ≤ replyMax ∧
        (txLoopback e wireType ctrl port data replyBuf replyMax).io.mem =
          writeMem e.io.mem replyBuf bytes) := by
  unfold txLoopback
  dsimp only
  split_ifs
  · unfold loopbackImmediate
    dsimp only
    by_cases hbuf : replyBuf = 0
    · left
      simp [hbuf]
    · right
      refine ⟨hbuf, e.machineId.take (if replyMax < 4 then replyMax else 4), ?_, by simp [hbuf]⟩
      rw [List.length_take]
      split_ifs <;> omega
  · left
    simp
  · left
    simp [loopbackDeliver_io]

theorem txLaunch_mem (e : Engine) (wireType ctrl port : UInt8) (data : List UInt8)
    (replyBuf replyMax : Nat) (destIp : UInt32) (destPort : UInt16) :
    (txLaunch T e wireType ctrl port data replyBuf replyMax destIp destPort).io.mem = e.io.mem := by
  unfold txLaunch
  rw [txSend_mem]
  rfl

theorem txBegin_mem (e : Engine) (wireType destNet destStn ctrl port : UInt8) (data : Payload)
    (replyBuf replyMax : Nat) :
    (txBegin T e wireType destNet destStn ctrl port data replyBuf replyMax).2.io.mem = e.io.mem ∨
      (replyBuf ≠ 0 ∧ ∃ bytes : List UInt8, bytes.length ≤ replyMax ∧
        (txBegin T e wireType destNet destStn ctrl port data replyBuf replyMax).2.io.mem =
          writeMem e.io.mem replyBuf bytes) := by
  unfold txBegin
  split_ifs
  · exact Or.inl rfl
  · exact Or.inl rfl
  · exact Or.inl rfl
  · exact txLoopback_mem e _ _ _ _ _ _
  · split
    · exact Or.inl rfl
    · exact Or.inl (txLaunch_mem T e _ _ _ _ _ _ _ _)

theorem txStart_mem (e : Engine) (wireType destNet destStn ctrl port : UInt8) (data : Payload) :
    (txBegin T e wireType destNet destStn ctrl port data 0 0).2.io.mem = e.io.mem := by
  rcases txBegin_mem T e wireType destNet destStn ctrl port data 0 0 with h | ⟨h, -⟩
  · exact h
  · exact absurd rfl h

theorem aunImmediate_memStep (e : Engine) (destNet destStn ctrl : UInt8) (data : Payload)
    (replyBuf replyMax : Nat) :
    MemStep T e (.immediate destNet destStn ctrl data replyBuf replyMax)
      (aunImmediate T e destNet destStn ctrl data replyBuf replyMax).2 := by
  unfold aunImmediate
  dsimp only
  split_ifs
  · exact .kept rfl (Or.inl (by simp))
  · exact .kept (txStart_mem T e _ _ _ _ _ _) (Or.inl (by simp))
  · exact .kept (txStart_mem T e _ _ _ _ _ _) (Or.inl (by simp))
  · rcases txBegin_mem T e AUN_TYPE_IMMEDIATE destNet destStn ctrl 0 data replyBuf replyMax with
      h | ⟨hbuf, bytes, hlen, h⟩
    · exact .kept h (Or.inl (by simp))
    · exact .looped hbuf hlen h

theorem exec_mem (e : Engine) (op : Op) : MemStep T e op (exec T e op).2 := by
  cases op with
  | init station net => exact .kept rfl (Or.inl (by simp))
  | mapAdd net stn ipBe port =>
    refine .kept ?_ (Or.inl (by simp))
    change (aunMapAdd e net stn ipBe port).2.io.mem = e.io.mem
    rw [aunMapAdd_eq]
    rfl
  | setAddressing b s m l => exact .kept rfl (Or.inl (by simp))
  | testResponder enable stn net => exact .kept rfl (Or.inl (by simp))
  | setMachineId id => exact .kept rfl (Or.inl (by simp))
  | setTrace installed => exact .kept rfl (Or.inl (by simp))
  | setHostImm enable => exact .kept rfl (Or.inl (by simp))
  | himmReply data => exact .kept (aunHimmReply_mem T e data) (Or.inl (by simp))
  | rxOpen handle port stn net buf bufSize =>
    exact .kept (aunRxOpen_mem e handle port stn net buf bufSize) (Or.inl (by simp))
  | rxPoll handle => exact aunRxPoll_memStep T e handle
  | rxReady handle => exact .kept (aunRxReady_mem T e handle) (Or.inl (by simp))
  | rxCollect handle accept => exact .kept (aunRxCollect_mem T e handle accept) (Or.inl (by simp))
  | rxClose handle => exact .kept (aunRxClose_mem e handle) (Or.inl (by simp))
  | txStart destNet destStn ctrl port data =>
    exact .kept (txStart_mem T e _ _ _ _ _ _) (Or.inl (by simp))
  | immediate destNet destStn ctrl data replyBuf replyMax => exact aunImmediate_memStep T e _ _ _ _ _ _
  | broadcast ctrl port data => exact .kept (aunBroadcast_mem T e ctrl port data) (Or.inl (by simp))
  | udpInput ipBe port buf => exact aunUdpInput_memStep T e ipBe port buf
  | poll => exact .kept (aunPoll_mem T e) (Or.inl (by simp))

end Pi1MHz.Aun
