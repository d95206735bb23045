import Pi1MHz.NetOwnership

/-!
# TNFS transactions

A request of the TNFS engine from `net_tnfs_start` to its end, over datagrams that arrive and polls at any
reading of the clock.  Two budgets bound it: a busy reply takes one of its own and gives back all of the
other, so together they are one number that every poll lowers which resends or backs off.
-/

namespace Pi1MHz.Net

open History (final history)

/-! ### Reading a datagram -/

def byteAt (b : List UInt8) (k : Nat) : Option UInt8 := b[k]?

def wordAt (b : List UInt8) (k : Nat) : Option UInt16 := do
  let lo ← byteAt b k
  let hi ← byteAt b (k + 1)
  return rd16 lo hi

/-- `tnfs_parse_reply`, where a read outside the datagram would be no result. -/
def parseReplyWithin (pkt : List UInt8) (wantSeq wantCmd : UInt8) : Option (Option TnfsReply) :=
  if pkt.length < TNFS_HDR_LEN + 1 then some none
  else do
    let seq ← byteAt pkt 2
    if seq ≠ wantSeq then return none
    else
      let cmd ← byteAt pkt 3
      if cmd ≠ wantCmd then return none
      else
        let connid ← wordAt pkt 0
        let status ← byteAt pkt 4
        let body := pkt.drop 5
        let backoffMs ← if status = TNFS_EAGAIN ∧ 2 ≤ body.length then wordAt body 0 else some 0
        return some ⟨connid, seq, cmd, status, body, backoffMs⟩

/-- `tnfs_reply_mount`: the version of the server, and the retry time. -/
def replyMountWithin (r : TnfsReply) : Option (Option (UInt16 × UInt16)) :=
  if r.status ≠ TNFS_OK ∨ r.body.length < 4 then some none
  else do
    let version ← wordAt r.body 0
    let retryMs ← wordAt r.body 2
    return some (version, retryMs)

/-- `tnfs_reply_open` and `tnfs_reply_opendir`. -/
def replyOpenWithin (r : TnfsReply) : Option (Option UInt8) :=
  if r.status ≠ TNFS_OK ∨ r.body.length < 1 then some none
  else do
    let fd ← byteAt r.body 0
    return some fd

/-- `tnfs_reply_write`. -/
def replyWriteWithin (r : TnfsReply) : Option (Option UInt16) :=
  if r.status ≠ TNFS_OK ∨ r.body.length < 2 then some none
  else do
    let written ← wordAt r.body 0
    return some written

/-- `n` bytes from `k` on. -/
def bytesAt (b : List UInt8) (k n : Nat) : Option (List UInt8) := (List.range n).mapM fun j => byteAt b (k + j)

/-- `tnfs_reply_read`, and its data as the caller copies it. -/
def replyReadWithin (r : TnfsReply) : Option (Option (List UInt8)) :=
  if r.status ≠ TNFS_OK ∨ r.body.length < 2 then some none
  else do
    let n ← wordAt r.body 0
    if n.toNat + 2 > r.body.length then return none
    else
      let data ← bytesAt r.body 2 n.toNat
      return some data

/-- The string that begins at `k`, read until its NUL. -/
def stringAt (b : List UInt8) : Nat → Nat → Option (List UInt8)
  | 0, _ => none
  | fuel + 1, k => do
    let c ← byteAt b k
    if c = 0 then return []
    else
      let rest ← stringAt b fuel (k + 1)
      return c :: rest

/-- `tnfs_reply_readdir`, and its name as the caller reads it. -/
def replyReaddirWithin (r : TnfsReply) : Option (Option (List UInt8)) :=
  if r.status ≠ TNFS_OK ∨ r.body.length < 1 then some none
  else if (0 : UInt8) ∈ r.body then do
    let name ← stringAt r.body (r.body.length + 1) 0
    return some name
  else some none

/-- `tnfs_reply_stat_size`. -/
def replyStatSizeWithin (r : TnfsReply) : Option (Option UInt32) :=
  if r.status ≠ TNFS_OK ∨ r.body.length < 10 then some none
  else do
    let b0 ← byteAt r.body 6
    let b1 ← byteAt r.body 7
    let b2 ← byteAt r.body 8
    let b3 ← byteAt r.body 9
    return some (b0.toUInt32 ||| (b1.toUInt32 <<< 8) ||| (b2.toUInt32 <<< 16) ||| (b3.toUInt32 <<< 24))

theorem byteAt_eq {b : List UInt8} {k : Nat} (h : k < b.length) : byteAt b k = some (b.getD k 0) := by
  unfold byteAt
  rw [List.getElem?_eq_getElem h, List.getD_eq_getElem?_getD, List.getElem?_eq_getElem h]
  rfl

theorem wordAt_eq {b : List UInt8} {k : Nat} (h : k + 1 < b.length) : wordAt b k = some (rdU16 b k) := by
  unfold wordAt
  rw [byteAt_eq (Nat.lt_of_succ_lt h), byteAt_eq h]
  rfl

theorem parseReplyWithin_eq (pkt : List UInt8) (wantSeq wantCmd : UInt8) :
    parseReplyWithin pkt wantSeq wantCmd = some (tnfsParseReply pkt wantSeq wantCmd) := by
  unfold parseReplyWithin tnfsParseReply
  by_cases hshort : pkt.length < TNFS_HDR_LEN + 1
  · rw [if_pos hshort, if_pos hshort]
  have hlong : 5 ≤ pkt.length := Nat.le_of_not_lt hshort
  rw [if_neg hshort, if_neg hshort, byteAt_eq (by omega), byteAt_eq (by omega), wordAt_eq (by omega),
    byteAt_eq (by omega)]
  simp only [Option.bind_eq_bind, Option.bind_some]
  by_cases hseq : pkt.getD 2 0 ≠ wantSeq
  · rw [if_pos hseq, if_pos (.inl hseq)]
    rfl
  by_cases hcmd : pkt.getD 3 0 ≠ wantCmd
  · rw [if_neg hseq, if_pos hcmd, if_pos (.inr hcmd)]
    rfl
  rw [if_neg hseq, if_neg hcmd, if_neg (not_or.mpr ⟨hseq, hcmd⟩)]
  by_cases hback : pkt.getD 4 0 = TNFS_EAGAIN ∧ 2 ≤ (pkt.drop 5).length
  · rw [if_pos hback, wordAt_eq hback.2]
    simp only [if_pos hback]
    rfl
  · rw [if_neg hback]
    simp only [if_neg hback]
    rfl

theorem replyMountWithin_eq (r : TnfsReply) :
    (replyMountWithin r).map (·.map Prod.snd) = some (tnfsReplyMount r) := by
  unfold replyMountWithin tnfsReplyMount
  split
  · rfl
  · rename_i hlong
    rw [wordAt_eq (by omega), wordAt_eq (by omega)]
    rfl

theorem replyOpenWithin_eq (r : TnfsReply) : replyOpenWithin r = some (tnfsReplyOpen r) := by
  unfold replyOpenWithin tnfsReplyOpen
  split
  · rfl
  · rename_i hlong
    rw [byteAt_eq (by omega)]
    rfl

theorem replyWriteWithin_eq (r : TnfsReply) : replyWriteWithin r = some (tnfsReplyWrite r) := by
  unfold replyWriteWithin tnfsReplyWrite
  split
  · rfl
  · rename_i hlong
    rw [wordAt_eq (by omega)]
    rfl

theorem bytesAt_eq {b : List UInt8} {k n : Nat} (h : k + n ≤ b.length) :
    bytesAt b k n = some ((b.drop k).take n) := by
  induction n with
  | zero => simp [bytesAt]
  | succ n ih =>
    have hbefore := ih (by omega)
    unfold bytesAt at hbefore ⊢
    rw [List.range_succ, List.mapM_append, hbefore, List.take_add_one]
    have hlast : (b.drop k)[n]? = some (b.getD (k + n) 0) := by
      rw [List.getElem?_drop]
      exact byteAt_eq (by omega)
    simp [byteAt_eq (show k + n < b.length by omega), hlast]

theorem replyReadWithin_eq (r : TnfsReply) : replyReadWithin r = some (tnfsReplyRead r) := by
  unfold replyReadWithin tnfsReplyRead
  split
  · rfl
  · rename_i hlong
    rw [wordAt_eq (by omega)]
    simp only [Option.bind_eq_bind, Option.bind_some]
    split
    · rfl
    · rw [bytesAt_eq (by omega)]
      rfl

theorem stringAt_eq {b : List UInt8} {fuel k : Nat} (hfuel : b.length < k + fuel) (hend : (0 : UInt8) ∈ b.drop k) :
    stringAt b fuel k = some ((b.drop k).takeWhile (· ≠ 0)) := by
  induction fuel generalizing k with
  | zero =>
    rw [List.drop_eq_nil_of_le (by omega)] at hend
    cases hend
  | succ fuel ih =>
    have hk : k < b.length := by
      by_contra hge
      rw [List.drop_eq_nil_of_le (by omega)] at hend
      cases hend
    have hdrop := List.drop_eq_getElem_cons hk
    have hbyte : byteAt b k = some b[k] := List.getElem?_eq_getElem hk
    unfold stringAt
    rw [hbyte, hdrop]
    simp only [Option.bind_eq_bind, Option.bind_some]
    by_cases hnul : b[k] = 0
    · rw [if_pos hnul, hnul]
      rfl
    · rw [hdrop] at hend
      have hrest : (0 : UInt8) ∈ b.drop (k + 1) := (List.mem_cons.mp hend).resolve_left (Ne.symm hnul)
      rw [if_neg hnul, ih (by omega) hrest, List.takeWhile_cons_of_pos (by simpa using hnul)]
      rfl

theorem replyReaddirWithin_eq (r : TnfsReply) : replyReaddirWithin r = some (tnfsReplyReaddir r) := by
  unfold replyReaddirWithin tnfsReplyReaddir
  split
  · rfl
  · split
    · rename_i hend
      rw [stringAt_eq (by omega) (by rw [List.drop_zero]; exact hend), List.drop_zero]
      rfl
    · rfl

theorem replyStatSizeWithin_isSome (r : TnfsReply) : (replyStatSizeWithin r).isSome = true := by
  unfold replyStatSizeWithin
  split
  · rfl
  · rename_i hlong
    rw [byteAt_eq (by omega), byteAt_eq (by omega), byteAt_eq (by omega), byteAt_eq (by omega)]
    rfl

/-! ### Transactions -/

structure Transaction where
  h : Handle
  stack : Stack
  outcome : TnfsPoll

inductive Turn where
  | datagram (d : Chain) (ip : Ip) (port : UInt16)
  | poll (a : Answers)

def Transaction.step (x : Transaction) : Turn → Transaction
  | .datagram d ip port => { x with h := netUdpRecv x.h d ip port }
  | .poll a =>
    if x.outcome = .pending then
      let r := netTnfsPoll a x.h x.stack
      ⟨r.2.1, r.2.2, r.1⟩
    else x

/-- `net_tnfs_start` with a request that was built. -/
def Transaction.start (a : Answers) (h : Handle) (s : Stack) (phase : TnfsPhase) (req : List UInt8) : Transaction :=
  let r := netTnfsStart a h s phase (some req)
  ⟨r.2.1, r.2.2, .pending⟩

def Handle.budget (h : Handle) : Nat := h.tnfsEagain * (TNFS_RETRIES + 1) + h.tnfsRetries

def TNFS_SENDS : Nat := (TNFS_EAGAIN_MAX + 1) * (TNFS_RETRIES + 1)

def Handle.next (h : Handle) : List UInt8 := if 8 ≤ h.ring.count then (netUdpPop h TNFS_PKT_MAX).1 else []

/-- It is not a reply to the request: too short, another sequence number, another command, or another
connection id once there is one. -/
def Foreign (h : Handle) : Prop :=
  h.next.length < TNFS_HDR_LEN + 1 ∨ h.next.getD 2 0 ≠ h.tnfsSeq ∨ h.next.getD 3 0 ≠ h.tnfsReq.getD 3 0 ∨
    (h.tnfsConnid ≠ 0 ∧ rdU16 h.next 0 ≠ h.tnfsConnid)

def Handle.busy (h : Handle) : Bool :=
  match tnfsMatch h h.next with
  | some rep => rep.status == TNFS_EAGAIN
  | none => false

def due (a : Answers) (h : Handle) : Bool := decide (a.nowMs 0 - h.tnfsDeadline < 0x80000000)

def Spends (st : History.Step Transaction Turn) : Bool :=
  match st.op with
  | .datagram .. => false
  | .poll a => decide (st.pre.outcome = .pending) && (st.pre.h.busy || due a st.pre.h)

def Handle.popped (h : Handle) : Handle := if 8 ≤ h.ring.count then (netUdpPop h TNFS_PKT_MAX).2 else h

theorem tnfsMatch_nil (h : Handle) : tnfsMatch h [] = none := if_pos rfl

theorem netTnfsPoll_eq (a : Answers) (h : Handle) (s : Stack) :
    netTnfsPoll a h s =
      match tnfsMatch h h.next with
      | some rep =>
        if rep.status = TNFS_EAGAIN then ((tnfsBackOff a h.popped rep).1, (tnfsBackOff a h.popped rep).2, s)
        else (.reply rep, h.popped, s)
      | none => tnfsTimeout a h.popped s := by
  unfold netTnfsPoll Handle.next Handle.popped
  by_cases hsome : 8 ≤ h.ring.count
  · cases hmatch : tnfsMatch h (netUdpPop h TNFS_PKT_MAX).1 <;> simp only [if_pos hsome, hmatch]
  · simp only [if_neg hsome]
    rw [tnfsMatch_nil]

theorem popped_eq (h : Handle) : h.popped = { h with ring := h.popped.ring } := by
  unfold Handle.popped netUdpPop ringDiscardRest ringDiscard ringGetMem
  split_ifs <;> rfl

theorem netUdpRecv_eq (h : Handle) (d : Chain) (ip : Ip) (port : UInt16) :
    netUdpRecv h d ip port = { h with ring := (netUdpRecv h d ip port).ring } := by
  unfold netUdpRecv ringPutPbuf ringPutMem
  split <;> rfl

theorem tnfsMatch_some {h : Handle} {pkt : List UInt8} {rep : TnfsReply} (hmatch : tnfsMatch h pkt = some rep) :
    TNFS_HDR_LEN + 1 ≤ pkt.length ∧ pkt.getD 2 0 = h.tnfsSeq ∧ pkt.getD 3 0 = h.tnfsReq.getD 3 0 ∧
      (h.tnfsConnid = 0 ∨ rdU16 pkt 0 = h.tnfsConnid) := by
  unfold tnfsMatch at hmatch
  split at hmatch
  · cases hmatch
  split at hmatch
  · cases hmatch
  rename_i rep' hparse
  unfold tnfsParseReply at hparse
  by_cases hshort : pkt.length < TNFS_HDR_LEN + 1
  · rw [if_pos hshort] at hparse
    cases hparse
  rw [if_neg hshort] at hparse
  by_cases hother : pkt.getD 2 0 ≠ h.tnfsSeq ∨ pkt.getD 3 0 ≠ h.tnfsReq.getD 3 0
  · rw [if_pos hother] at hparse
    cases hparse
  rw [if_neg hother] at hparse
  obtain ⟨hseq, hcmd⟩ := not_or.mp hother
  cases hparse
  refine ⟨Nat.le_of_not_lt hshort, not_not.mp hseq, not_not.mp hcmd, ?_⟩
  by_contra hconn
  rw [if_neg hconn] at hmatch
  cases hmatch

theorem tnfsMatch_none_of_foreign {h : Handle} (hforeign : Foreign h) : tnfsMatch h h.next = none := by
  cases hmatch : tnfsMatch h h.next with
  | none => rfl
  | some rep =>
    obtain ⟨hlong, hseq, hcmd, hconn⟩ := tnfsMatch_some hmatch
    rcases hforeign with hshort | hother | hother | ⟨hid, hother⟩
    · exact absurd hshort (Nat.not_lt_of_le hlong)
    · exact absurd hseq hother
    · exact absurd hcmd hother
    · rcases hconn with hzero | hsame
      · exact absurd hzero hid
      · exact absurd hsame hother

theorem not_foreign_of_match {h : Handle} {rep : TnfsReply} (hmatch : tnfsMatch h h.next = some rep) :
    ¬ Foreign h := by
  intro hforeign
  rw [tnfsMatch_none_of_foreign hforeign] at hmatch
  cases hmatch

theorem tnfsTimeout_ring (a : Answers) (h : Handle) (s : Stack) (r : RingStream.Ring UInt8 NET_RX_RING_SIZE) :
    tnfsTimeout a { h with ring := r } s =
      ((tnfsTimeout a h s).1, { (tnfsTimeout a h s).2.1 with ring := r }, (tnfsTimeout a h s).2.2) := by
  unfold tnfsTimeout netTnfsFire netTnfsSendRaw
  simp only
  split_ifs <;> rfl

theorem poll_foreign {h : Handle} (hforeign : Foreign h) (a : Answers) (s : Stack) :
    netTnfsPoll a h s = ((netTnfsPoll a { h with ring := h.ring.clear } s).1,
      { (netTnfsPoll a { h with ring := h.ring.clear } s).2.1 with ring := h.popped.ring },
      (netTnfsPoll a { h with ring := h.ring.clear } s).2.2) := by
  have hempty : netTnfsPoll a { h with ring := h.ring.clear } s = tnfsTimeout a { h with ring := h.ring.clear } s :=
    if_neg (by simp [RingStream.Ring.clear])
  have hpopped := tnfsTimeout_ring a h s h.popped.ring
  rw [← popped_eq] at hpopped
  have hclear := tnfsTimeout_ring a h s h.ring.clear
  rw [netTnfsPoll_eq, tnfsMatch_none_of_foreign hforeign, hempty, hclear]
  exact hpopped

/-! ### The budget -/

theorem netTnfsSendRaw_out (a : Answers) (k : Nat) (h : Handle) (s : Stack) (req : List UInt8) :
    ∃ sent : List Output, (netTnfsSendRaw a k h s req).out = s.out ++ sent ∧ sent.length ≤ 1 ∧
      ∀ o ∈ sent, ∃ pcb, o = .udp pcb h.remoteIp h.remotePort req := by
  have hnone : ∃ sent : List Output, s.out = s.out ++ sent ∧ sent.length ≤ 1 ∧
      ∀ o ∈ sent, ∃ pcb, o = .udp pcb h.remoteIp h.remotePort req :=
    ⟨[], (List.append_nil _).symm, Nat.zero_le _, nofun⟩
  unfold netTnfsSendRaw
  split
  · exact hnone
  · rename_i pcb _
    split
    · exact hnone
    · unfold udpSendto
      split_ifs
      · exact hnone
      · exact hnone
      · refine ⟨[.udp pcb h.remoteIp h.remotePort req], rfl, Nat.le_refl _, ?_⟩
        intro o ho
        exact ⟨pcb, List.mem_singleton.mp ho⟩

structure SameRequest (h h' : Handle) : Prop where
  req : h'.tnfsReq = h.tnfsReq
  remoteIp : h'.remoteIp = h.remoteIp
  remotePort : h'.remotePort = h.remotePort

theorem sameRequest_ring (h : Handle) (r : RingStream.Ring UInt8 NET_RX_RING_SIZE) :
    SameRequest h { h with ring := r } ∧ ({ h with ring := r } : Handle).budget = h.budget :=
  ⟨⟨rfl, rfl, rfl⟩, rfl⟩

structure Waited (a : Answers) (h : Handle) (s : Stack) (h' : Handle) (s' : Stack) : Prop where
  same : SameRequest h h'
  sent : ∃ sent : List Output, s'.out = s.out ++ sent ∧ sent.length + h'.budget ≤ h.budget ∧
    ∀ o ∈ sent, ∃ pcb, o = .udp pcb h.remoteIp h.remotePort h.tnfsReq
  spent : (h.busy || due a h) = true → h'.budget < h.budget

theorem poll_waited (a : Answers) (h : Handle) (s : Stack) (hpending : (netTnfsPoll a h s).1 = .pending) :
    Waited a h s (netTnfsPoll a h s).2.1 (netTnfsPoll a h s).2.2 := by
  have hpopped := popped_eq h
  obtain ⟨hsame, hbudget⟩ := sameRequest_ring h h.popped.ring
  rw [← hpopped] at hsame hbudget
  have hdue : due a h.popped = due a h := by rw [hpopped]; rfl
  rw [netTnfsPoll_eq] at hpending ⊢
  cases hmatch : tnfsMatch h h.next with
  | some rep =>
    rw [hmatch] at hpending
    simp only at hpending ⊢
    by_cases hbusy : rep.status = TNFS_EAGAIN
    · rw [if_pos hbusy] at hpending ⊢
      unfold tnfsBackOff at hpending ⊢
      simp only at hpending ⊢
      by_cases hspent : h.popped.tnfsEagain = 0
      · rw [if_pos hspent] at hpending
        cases hpending
      · rw [if_neg hspent]
        have hless : ∀ d, ({ h.popped with
            tnfsEagain := h.popped.tnfsEagain - 1, tnfsRetries := TNFS_RETRIES, tnfsDeadline := d } : Handle).budget <
              h.budget := by
          intro d
          rw [← hbudget]
          unfold Handle.budget TNFS_RETRIES
          simp only
          omega
        exact ⟨{ hsame with },
          ⟨[], (List.append_nil _).symm, by rw [List.length_nil, Nat.zero_add]; exact (hless _).le, nofun⟩,
          fun _ => hless _⟩
    · rw [if_neg hbusy] at hpending
      cases hpending
  | none =>
    rw [hmatch] at hpending
    simp only at hpending ⊢
    have hidle : h.busy = false := by
      unfold Handle.busy
      rw [hmatch]
    have hlate : (h.busy || due a h) = due a h.popped := by rw [hidle, Bool.false_or, hdue]
    unfold tnfsTimeout at hpending ⊢
    by_cases hpassed : a.nowMs 0 - h.popped.tnfsDeadline < 0x80000000
    · rw [if_pos hpassed] at hpending ⊢
      by_cases hout : h.popped.tnfsRetries = 0
      · rw [if_pos hout] at hpending
        cases hpending
      · rw [if_neg hout]
        unfold netTnfsFire
        simp only
        obtain ⟨sent, hsent, hone, hall⟩ := netTnfsSendRaw_out a 0
          { h.popped with tnfsRetries := h.popped.tnfsRetries - 1 } s h.popped.tnfsReq
        have hless : ∀ d, ({ h.popped with
            tnfsRetries := h.popped.tnfsRetries - 1, tnfsDeadline := d } : Handle).budget + 1 = h.budget := by
          intro d
          rw [← hbudget]
          unfold Handle.budget
          simp only
          omega
        refine ⟨{ hsame with }, ⟨sent, hsent, ?_, ?_⟩, ?_⟩
        · apply (Nat.add_le_add_right hone _).trans
          rw [Nat.add_comm]
          exact (hless _).le
        · intro o ho
          obtain ⟨pcb, rfl⟩ := hall o ho
          rw [← hsame.req, ← hsame.remoteIp, ← hsame.remotePort]
          exact ⟨pcb, rfl⟩
        · intro _
          exact Nat.lt_of_succ_le (hless _).le
    · rw [if_neg hpassed]
      refine ⟨hsame, ⟨[], (List.append_nil _).symm, ?_, nofun⟩, ?_⟩
      · rw [List.length_nil, Nat.zero_add]
        exact hbudget.le
      · intro hnow
        rw [hlate] at hnow
        exact absurd (of_decide_eq_true hnow) hpassed

theorem poll_ended (a : Answers) (h : Handle) (s : Stack) (hended : (netTnfsPoll a h s).1 ≠ .pending) :
    SameRequest h (netTnfsPoll a h s).2.1 ∧ (netTnfsPoll a h s).2.2 = s := by
  have hsame : SameRequest h h.popped := by
    rw [popped_eq]
    exact (sameRequest_ring h h.popped.ring).1
  rw [netTnfsPoll_eq] at hended ⊢
  cases hmatch : tnfsMatch h h.next with
  | some rep =>
    rw [hmatch] at hended
    simp only at hended ⊢
    by_cases hbusy : rep.status = TNFS_EAGAIN
    · rw [if_pos hbusy] at hended ⊢
      unfold tnfsBackOff at hended ⊢
      simp only at hended ⊢
      by_cases hspent : h.popped.tnfsEagain = 0
      · rw [if_pos hspent]
        exact ⟨hsame, trivial⟩
      · rw [if_neg hspent] at hended
        exact absurd rfl hended
    · rw [if_neg hbusy]
      exact ⟨hsame, rfl⟩
  | none =>
    rw [hmatch] at hended
    simp only at hended ⊢
    unfold tnfsTimeout at hended ⊢
    by_cases hpassed : a.nowMs 0 - h.popped.tnfsDeadline < 0x80000000
    · rw [if_pos hpassed] at hended ⊢
      by_cases hout : h.popped.tnfsRetries = 0
      · rw [if_pos hout]
        exact ⟨hsame, rfl⟩
      · rw [if_neg hout] at hended
        exact absurd rfl hended
    · rw [if_neg hpassed] at hended
      exact absurd rfl hended

theorem poll_reply {a : Answers} {h : Handle} {s : Stack} {rep : TnfsReply}
    (hreply : (netTnfsPoll a h s).1 = .reply rep) :
    tnfsMatch h h.next = some rep ∧ rep.status ≠ TNFS_EAGAIN ∧ ¬ Foreign h := by
  rw [netTnfsPoll_eq] at hreply
  cases hmatch : tnfsMatch h h.next with
  | some rep' =>
    rw [hmatch] at hreply
    simp only at hreply
    by_cases hbusy : rep'.status = TNFS_EAGAIN
    · rw [if_pos hbusy] at hreply
      unfold tnfsBackOff at hreply
      simp only at hreply
      split at hreply <;> cases hreply
    · rw [if_neg hbusy] at hreply
      cases hreply
      exact ⟨rfl, hbusy, not_foreign_of_match hmatch⟩
  | none =>
    rw [hmatch] at hreply
    unfold tnfsTimeout at hreply
    simp only at hreply
    split at hreply
    · split at hreply <;> cases hreply
    · cases hreply

/-- A transaction that began with request `req` to `ip` and `port`, when `out` had been sent: what it has sent since,
and what is left of the budget after the steps `hist`. -/
structure Underway (ip : Ip) (port : UInt16) (req : List UInt8) (out : List Output)
    (hist : List (History.Step Transaction Turn)) (x : Transaction) : Prop where
  request : x.h.tnfsReq = req
  remoteIp : x.h.remoteIp = ip
  remotePort : x.h.remotePort = port
  sent : ∃ sent : List Output, x.stack.out = out ++ sent ∧
    sent.length + (if x.outcome = .pending then x.h.budget else 0) ≤ TNFS_SENDS ∧
    ∀ o ∈ sent, ∃ pcb, o = .udp pcb ip port req
  spent : x.outcome = .pending → hist.countP Spends + x.h.budget < TNFS_SENDS

theorem start_underway (a : Answers) (h : Handle) (s : Stack) (phase : TnfsPhase) (req : List UInt8) :
    Underway h.remoteIp h.remotePort req s.out [] (Transaction.start a h s phase req) := by
  obtain ⟨sent, hsent, hone, hall⟩ := netTnfsSendRaw_out a 0 { h with
    tnfsReq := req, tnfsPhase := phase, tnfsRetries := TNFS_RETRIES, tnfsEagain := TNFS_EAGAIN_MAX } s req
  have hbudget : (Transaction.start a h s phase req).h.budget + 1 = TNFS_SENDS := rfl
  have hpending : (Transaction.start a h s phase req).outcome = .pending := rfl
  refine ⟨rfl, rfl, rfl, ⟨sent, hsent, ?_, hall⟩, ?_⟩
  · rw [if_pos hpending]
    omega
  · intro _
    rw [List.countP_nil]
    omega

theorem step_underway {ip : Ip} {port : UInt16} {req : List UInt8} {out : List Output}
    (hist : List (History.Step Transaction Turn)) (x : Transaction) (t : Turn) (hx : Underway ip port req out hist x) :
    Underway ip port req out (hist ++ [⟨x, t, x.step t⟩]) (x.step t) := by
  have hcount : ∀ spends : Bool, Spends ⟨x, t, x.step t⟩ = spends →
      (hist ++ [(⟨x, t, x.step t⟩ : History.Step Transaction Turn)]).countP Spends =
        hist.countP Spends + spends.toNat := by
    intro spends hspends
    rw [List.countP_append, List.countP_singleton, hspends]
    cases spends <;> rfl
  obtain ⟨hreq, hip, hport, ⟨sent, hsent, hroom, hall⟩, hspent⟩ := hx
  cases t with
  | datagram d sender senderPort =>
    have hring := netUdpRecv_eq x.h d sender senderPort
    obtain ⟨hsame, hbudget⟩ := sameRequest_ring x.h (netUdpRecv x.h d sender senderPort).ring
    rw [← hring] at hsame hbudget
    refine ⟨hsame.req.trans hreq, hsame.remoteIp.trans hip, hsame.remotePort.trans hport, ⟨sent, hsent, ?_, hall⟩, ?_⟩
    · show _ + (if x.outcome = .pending then (netUdpRecv x.h d sender senderPort).budget else 0) ≤ _
      rw [hbudget]
      exact hroom
    · intro hpending
      rw [hcount false rfl]
      show _ + (netUdpRecv x.h d sender senderPort).budget < _
      rw [hbudget]
      exact hspent hpending
  | poll a =>
    by_cases hpending : x.outcome = .pending
    · have hstep : x.step (.poll a) = ⟨(netTnfsPoll a x.h x.stack).2.1, (netTnfsPoll a x.h x.stack).2.2,
        (netTnfsPoll a x.h x.stack).1⟩ := if_pos hpending
      have hspends : Spends ⟨x, .poll a, x.step (.poll a)⟩ = (x.h.busy || due a x.h) := by
        simp only [Spends, hpending, decide_true, Bool.true_and]
      have hnow := hcount _ hspends
      rw [hstep] at hnow ⊢
      rw [if_pos hpending] at hroom
      have hleft := hspent hpending
      by_cases hmore : (netTnfsPoll a x.h x.stack).1 = .pending
      · obtain ⟨hsame, ⟨more, hout, hcost, hmoreAll⟩, hless⟩ := poll_waited a x.h x.stack hmore
        refine ⟨hsame.req.trans hreq, hsame.remoteIp.trans hip, hsame.remotePort.trans hport,
          ⟨sent ++ more, ?_, ?_, ?_⟩, ?_⟩
        · rw [hout, hsent, List.append_assoc]
        · rw [if_pos hmore, List.length_append]
          simp only
          omega
        · intro o ho
          rcases List.mem_append.mp ho with hbefore | hlast
          · exact hall o hbefore
          · obtain ⟨pcb, rfl⟩ := hmoreAll o hlast
            rw [hreq, hip, hport]
            exact ⟨pcb, rfl⟩
        · intro _
          rw [hnow]
          cases hcost' : (x.h.busy || due a x.h) with
          | true =>
            have := hless hcost'
            simp only [Bool.toNat_true]
            omega
          | false =>
            simp only [Bool.toNat_false]
            omega
      · obtain ⟨hsame, hstack⟩ := poll_ended a x.h x.stack hmore
        refine ⟨hsame.req.trans hreq, hsame.remoteIp.trans hip, hsame.remotePort.trans hport,
          ⟨sent, ?_, ?_, hall⟩, fun hnow => absurd hnow hmore⟩
        · rw [hstack]
          exact hsent
        · rw [if_neg hmore]
          omega
    · have hstep : x.step (.poll a) = x := if_neg hpending
      have hspends : Spends ⟨x, .poll a, x.step (.poll a)⟩ = false := by
        simp only [Spends, hpending, decide_false, Bool.false_and]
      rw [hstep]
      exact ⟨hreq, hip, hport, ⟨sent, hsent, hroom, hall⟩, fun hnow => absurd hnow hpending⟩

theorem run_underway (a : Answers) (h : Handle) (s : Stack) (phase : TnfsPhase) (req : List UInt8)
    (turns : List Turn) :
    Underway h.remoteIp h.remotePort req s.out (history Transaction.step (.start a h s phase req) turns)
      (final Transaction.step (.start a h s phase req) turns) :=
  History.history_induction Transaction.step (Underway h.remoteIp h.remotePort req s.out)
    (start_underway a h s phase req) step_underway turns

/-- A poll that takes a foreign datagram does what it would have done without it: it waits, and resends or gives
up if and only if the deadline has passed. -/
theorem poll_foreign_waits {h : Handle} (hforeign : Foreign h) (a : Answers) (s : Stack)
    (hearly : due a h = false) : netTnfsPoll a h s = (.pending, h.popped, s) := by
  have hlate : ¬ a.nowMs 0 - h.popped.tnfsDeadline < 0x80000000 := by
    rw [popped_eq]
    exact of_decide_eq_false hearly
  rw [netTnfsPoll_eq, tnfsMatch_none_of_foreign hforeign]
  exact if_neg hlate

/-- A transaction, whatever arrives and whatever the clock reads: it sends its request at most `TNFS_SENDS` times,
the same bytes every time; when polls have found the server busy or the deadline passed so many times, it has
ended; it ends with a reply only when a reply to the request came; and a foreign datagram changes nothing but
the ring. -/
theorem tnfs_transaction (a : Answers) (h : Handle) (s : Stack) (phase : TnfsPhase) (req : List UInt8)
    (turns : List Turn) :
    ((∃ sent : List Output, (final Transaction.step (.start a h s phase req) turns).stack.out = s.out ++ sent ∧
        sent.length ≤ (TNFS_EAGAIN_MAX + 1) * (TNFS_RETRIES + 1) ∧
        ∀ o ∈ sent, ∃ pcb, o = .udp pcb h.remoteIp h.remotePort req) ∧
      ((TNFS_EAGAIN_MAX + 1) * (TNFS_RETRIES + 1) ≤
          (history Transaction.step (.start a h s phase req) turns).countP Spends →
        (final Transaction.step (.start a h s phase req) turns).outcome ≠ .pending)) ∧
      (∀ (a : Answers) (h : Handle) (s : Stack),
        (∀ rep, (netTnfsPoll a h s).1 = .reply rep → tnfsMatch h h.next = some rep ∧ rep.status ≠ TNFS_EAGAIN) ∧
        (Foreign h →
          (∀ rep, (netTnfsPoll a h s).1 ≠ .reply rep) ∧
          (due a h = false → netTnfsPoll a h s = (.pending, { h with ring := h.popped.ring }, s)) ∧
          netTnfsPoll a h s = ((netTnfsPoll a { h with ring := h.ring.clear } s).1,
            { (netTnfsPoll a { h with ring := h.ring.clear } s).2.1 with ring := h.popped.ring },
            (netTnfsPoll a { h with ring := h.ring.clear } s).2.2))) ∧
      (∀ (pkt : List UInt8) (wantSeq wantCmd : UInt8) (r : TnfsReply),
        parseReplyWithin pkt wantSeq wantCmd = some (tnfsParseReply pkt wantSeq wantCmd) ∧
        (replyMountWithin r).map (·.map Prod.snd) = some (tnfsReplyMount r) ∧
        replyOpenWithin r = some (tnfsReplyOpen r) ∧
        replyWriteWithin r = some (tnfsReplyWrite r) ∧
        replyReadWithin r = some (tnfsReplyRead r) ∧
        replyReaddirWithin r = some (tnfsReplyReaddir r) ∧
        (replyStatSizeWithin r).isSome = true) := by
  have hrun := run_underway a h s phase req turns
  refine ⟨⟨?_, ?_⟩, ?_, ?_⟩
  · obtain ⟨sent, hsent, hroom, hall⟩ := hrun.sent
    exact ⟨sent, hsent, (Nat.le_add_right _ _).trans hroom, hall⟩
  · intro hmany hpending
    have hleft := hrun.spent hpending
    exact absurd hmany (Nat.not_le_of_lt ((Nat.le_add_right _ _).trans_lt hleft))
  · intro a h s
    constructor
    · intro rep hreply
      obtain ⟨hmatch, hbusy, _⟩ := poll_reply hreply
      exact ⟨hmatch, hbusy⟩
    · intro hforeign
      refine ⟨?_, ?_, poll_foreign hforeign a s⟩
      · intro rep hreply
        exact (poll_reply hreply).2.2 hforeign
      · intro hearly
        rw [← popped_eq]
        exact poll_foreign_waits hforeign a s hearly
  · intro pkt wantSeq wantCmd r
    exact ⟨parseReplyWithin_eq pkt wantSeq wantCmd, replyMountWithin_eq r, replyOpenWithin_eq r,
      replyWriteWithin_eq r, replyReadWithin_eq r, replyReaddirWithin_eq r, replyStatSizeWithin_isSome r⟩

def tnfsUrl : List UInt8 :=
  [0x54, 0x4E, 0x46, 0x53, 0x3A, 0x2F, 0x2F, 0x31, 0x30, 0x2E, 0x30, 0x2E, 0x30, 0x2E, 0x31, 0x2F, 0x61, 0]

def zeroIdRun : List Event :=
  [issue 0 ([60, 0] ++ tnfsUrl), .udpRecv 0 ⟨[[0, 0, 1, 0, 0, 0, 1, 0, 1]], by decide⟩ 0x0100000A 16384,
    issue 0 ([60, 0] ++ tnfsUrl), .udpRecv 0 ⟨[[5, 0, 2, 0x29, 0, 7]], by decide⟩ 0x0100000A 16384]

/-- An id of 0 counts as none, so the OPEN is completed by a reply for another connection. -/
theorem tnfs_zero_id_matches_any :
    let n := final (step ⟨0, true⟩) (Service.boot fun _ _ => 0) zeroIdRun
    (n.h 0).tnfsPhase = .open ∧ (n.h 0).tnfsConnid = 0 ∧
      (netTnfsPoll {} (n.h 0) n.stack).1 = .reply ⟨5, 2, TNFS_CMD_OPEN, TNFS_OK, [7], 0⟩ := by
  decide

end Pi1MHz.Net
