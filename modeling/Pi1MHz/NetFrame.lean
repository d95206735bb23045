import Pi1MHz.NetService

/-!
# What a command can touch

Most commands move bytes and nothing else: the handle's `Link` and the stack's `Live` part stay
as they are.  Those commands are `quiet`.
-/

namespace Pi1MHz.Net

/-! ### The ring and the TNFS engine -/

section

variable (a : Answers) (h : Handle) (s : Stack)

@[simp] theorem link_ringGetMem (k : Nat) : (ringGetMem h k).2.toLink = h.toLink := rfl

@[simp] theorem link_ringGet (k : Nat) : (ringGet h k).2.toLink = h.toLink := rfl

@[simp] theorem link_ringDiscardRest (dglen copy : Nat) :
    (ringDiscardRest h dglen copy).toLink = h.toLink := by
  unfold ringDiscardRest
  split <;> rfl

@[simp] theorem link_takeRecord (max : Nat) : (takeRecord h max).2.2.toLink = h.toLink := by
  unfold takeRecord
  rw [link_ringDiscardRest, link_ringGet, link_ringGetMem]

@[simp] theorem link_netUdpPop (cap : Nat) : (netUdpPop h cap).2.toLink = h.toLink := by
  unfold netUdpPop
  split
  · rfl
  · rw [link_ringDiscardRest, link_ringGetMem, link_ringGetMem]

@[simp] theorem live_udpSendto (k pcb : Nat) (ip : Ip) (port : UInt16) (payload : List UInt8) :
    (udpSendto a k s pcb ip port payload).2.toLive = s.toLive := by
  unfold udpSendto
  split
  · rfl
  · split <;> rfl

@[simp] theorem live_netTnfsSendRaw (k : Nat) (req : List UInt8) :
    (netTnfsSendRaw a k h s req).toLive = s.toLive := by
  unfold netTnfsSendRaw
  split
  · rfl
  · split
    · rfl
    · exact live_udpSendto ..

@[simp] theorem live_netTnfsFire (k : Nat) : (netTnfsFire a k h s).2.toLive = s.toLive :=
  live_netTnfsSendRaw ..

@[simp] theorem link_netTnfsStart (phase : TnfsPhase) (req : Option (List UInt8)) :
    (netTnfsStart a h s phase req).2.1.toLink = h.toLink := by
  cases req <;> rfl

@[simp] theorem live_netTnfsStart (phase : TnfsPhase) (req : Option (List UInt8)) :
    (netTnfsStart a h s phase req).2.2.toLive = s.toLive := by
  cases req with
  | none => rfl
  | some req => exact live_netTnfsFire ..

@[simp] theorem link_tnfsBackOff (rep : TnfsReply) : (tnfsBackOff a h rep).2.toLink = h.toLink := by
  simp only [tnfsBackOff]
  split <;> rfl

theorem tnfsTimeout_frame :
    (tnfsTimeout a h s).2.1.toLink = h.toLink ∧ (tnfsTimeout a h s).2.2.toLive = s.toLive := by
  unfold tnfsTimeout
  split
  · split
    · exact ⟨rfl, rfl⟩
    · exact ⟨rfl, live_netTnfsFire ..⟩
  · exact ⟨rfl, rfl⟩

theorem netTnfsPoll_frame :
    (netTnfsPoll a h s).2.1.toLink = h.toLink ∧ (netTnfsPoll a h s).2.2.toLive = s.toLive := by
  unfold netTnfsPoll
  split
  · dsimp only
    split
    · split
      · exact ⟨by simp, rfl⟩
      · exact ⟨by simp, rfl⟩
    · obtain ⟨hlink, hlive⟩ := tnfsTimeout_frame a (netUdpPop h TNFS_PKT_MAX).2 s
      exact ⟨hlink.trans (link_netUdpPop h _), hlive⟩
  · exact tnfsTimeout_frame a h s

end

/-! ### Quiet commands -/

def SameLink (c c' : Ctx) : Prop := c'.h.toLink = c.h.toLink ∧ c'.stack.toLive = c.stack.toLive

def Command.quiet : Command → Bool
  | .open | .dns | .connect | .listen | .close | .urlOpen => false
  | _ => true

section

variable (base : Nat) (a : Answers) (i : Fin NET_MAX_HANDLES) (cp : Nat) (c : Ctx)

theorem doBind_frame : SameLink c (doBind a cp c).2 := by
  simp only [doBind]
  split
  · exact ⟨rfl, rfl⟩
  · split <;> exact ⟨rfl, rfl⟩

theorem doSend_frame : SameLink c (doSend base a cp c).2 := by
  simp only [doSend]
  split
  · repeat' split
    all_goals exact ⟨rfl, rfl⟩
  · exact ⟨rfl, rfl⟩

theorem streamRead_frame (jimoff max : Nat) : SameLink c (streamRead base cp c jimoff max).2 :=
  ⟨rfl, rfl⟩

theorem doRecv_frame : SameLink c (doRecv base cp c).2 := by
  simp only [doRecv]
  split
  · exact ⟨rfl, rfl⟩
  · split
    · exact ⟨rfl, rfl⟩
    · exact streamRead_frame ..

theorem doRecvAvail_frame : SameLink c (doRecvAvail cp c).2 := by
  simp only [doRecvAvail]
  split <;> exact ⟨rfl, rfl⟩

theorem doUdpSendto_frame : SameLink c (doUdpSendto base a cp c).2 := by
  simp only [doUdpSendto]
  split
  · split
    · exact ⟨rfl, rfl⟩
    · split
      · exact ⟨rfl, rfl⟩
      · split <;> exact ⟨rfl, live_udpSendto ..⟩
  · exact ⟨rfl, rfl⟩

theorem doUdpRecvfrom_frame : SameLink c (doUdpRecvfrom base cp c).2 := by
  simp only [doUdpRecvfrom]
  split
  · exact ⟨rfl, rfl⟩
  · split
    · exact ⟨rfl, rfl⟩
    · split
      · exact ⟨rfl, rfl⟩
      · exact ⟨link_takeRecord .., rfl⟩

theorem urlReadTnfsStart_frame (max : Nat) : SameLink c (urlReadTnfsStart a c max).2 := by
  unfold urlReadTnfsStart
  split
  · exact ⟨rfl, rfl⟩
  · exact ⟨link_netTnfsStart .., live_netTnfsStart ..⟩

theorem urlReadTnfsReply_frame (rep : TnfsReply) (jimoff max : Nat) :
    SameLink c (urlReadTnfsReply base cp c rep jimoff max).2 := by
  unfold urlReadTnfsReply
  split
  · exact ⟨rfl, rfl⟩
  · split
    · exact ⟨rfl, rfl⟩
    · split <;> exact ⟨rfl, rfl⟩

theorem urlReadTnfs_frame (jimoff max : Nat) :
    SameLink c (urlReadTnfs base a cp c jimoff max).2 := by
  have hpoll := netTnfsPoll_frame a c.h c.stack
  simp only [urlReadTnfs]
  split
  · exact urlReadTnfsStart_frame a (c.withJim (c.jim.wr24 (cp + 1) 0)) max
  · split
    · exact ⟨rfl, rfl⟩
    · split
      · exact hpoll
      · exact hpoll
      · next rep _ =>
        have hover : SameLink c ((c.withJim (c.jim.wr24 (cp + 1) 0)).tnfsOver
          (netTnfsPoll a c.h c.stack).2.1 (netTnfsPoll a c.h c.stack).2.2) := hpoll
        obtain ⟨hlink, hlive⟩ := urlReadTnfsReply_frame base cp _ rep jimoff max
        exact ⟨hlink.trans hover.1, hlive.trans hover.2⟩

theorem urlReadUdp_frame (jimoff max : Nat) : SameLink c (urlReadUdp base cp c jimoff max).2 := by
  simp only [urlReadUdp]
  split
  · exact ⟨rfl, rfl⟩
  · exact ⟨link_takeRecord .., rfl⟩

theorem urlReadHttpWait_frame : SameLink c (urlReadHttpWait cp c).2 := by
  simp only [urlReadHttpWait]
  split
  · exact ⟨rfl, rfl⟩
  · split
    · exact ⟨rfl, rfl⟩
    · split <;> exact ⟨rfl, rfl⟩

theorem doUrlRead_frame : SameLink c (doUrlRead base a cp c).2 := by
  simp only [doUrlRead]
  split
  · exact ⟨rfl, rfl⟩
  · split
    · exact ⟨rfl, rfl⟩
    · split
      · exact urlReadTnfs_frame ..
      · exact urlReadUdp_frame ..
      · split
        · exact streamRead_frame ..
        · split
          · exact urlReadHttpWait_frame ..
          · exact streamRead_frame base cp (c.withH (httpEatHeaders c.h _)) _ _
      · exact streamRead_frame ..

theorem urlWriteTnfsStart_frame (jimoff len : Nat) :
    SameLink c (urlWriteTnfsStart base a c jimoff len).2 := by
  simp only [urlWriteTnfsStart]
  generalize (if len > TNFS_WRITE_CHUNK then TNFS_WRITE_CHUNK else len) = want
  split
  · exact ⟨rfl, rfl⟩
  · exact ⟨link_netTnfsStart .., live_netTnfsStart ..⟩

theorem urlWriteTnfs_frame : SameLink c (urlWriteTnfs base a cp c).2 := by
  have hpoll := netTnfsPoll_frame a c.h c.stack
  simp only [urlWriteTnfs]
  split
  · exact ⟨rfl, rfl⟩
  · split
    · exact ⟨rfl, rfl⟩
    · split
      · exact urlWriteTnfsStart_frame base a (c.withJim (c.jim.wr24 (cp + 1) 0)) _ _
      · split
        · exact ⟨rfl, rfl⟩
        · split
          · exact hpoll
          · exact hpoll
          · unfold urlWriteTnfsReply
            split <;> exact hpoll

theorem urlWriteTelnet_frame : SameLink c (urlWriteTelnet base a cp c).2 := by
  simp only [urlWriteTelnet]
  split
  · repeat' split
    all_goals exact ⟨rfl, rfl⟩
  · exact ⟨rfl, rfl⟩

theorem urlWriteUdp_frame : SameLink c (urlWriteUdp base a cp c).2 := by
  simp only [urlWriteUdp]
  split
  · exact ⟨rfl, rfl⟩
  · split
    · exact ⟨rfl, rfl⟩
    · split <;> exact ⟨rfl, live_udpSendto ..⟩

theorem doUrlWrite_frame : SameLink c (doUrlWrite base a cp c).2 := by
  simp only [doUrlWrite]
  split
  · exact urlWriteTnfs_frame ..
  · exact urlWriteTelnet_frame ..
  · split
    · exact urlWriteUdp_frame ..
    · exact doSend_frame ..

theorem runCommand_quiet {cmd : Command} (hq : cmd.quiet = true) :
    SameLink c (runCommand base a i cp c cmd).2 := by
  cases cmd with
  | bind => exact doBind_frame ..
  | send => exact doSend_frame ..
  | recv => exact doRecv_frame ..
  | recvAvail => exact doRecvAvail_frame ..
  | status => exact ⟨rfl, rfl⟩
  | udpSendto => exact doUdpSendto_frame ..
  | udpRecvfrom => exact doUdpRecvfrom_frame ..
  | irq => exact ⟨rfl, rfl⟩
  | urlRead => exact doUrlRead_frame ..
  | urlWrite => exact doUrlWrite_frame ..
  | urlStatus => exact ⟨rfl, rfl⟩
  | _ => cases hq

/-! ### The other commands -/

theorem doOpen_cases :
    SameLink c (doOpen a i cp c).2 ∨
      c.h.state = .free ∧ (doOpen a i cp c).2.h.ring = c.h.ring.clear ∧
        ((doOpen a i cp c).2.h.toLink = { type := .tcp, state := .idle } ∧
            (doOpen a i cp c).2.stack.toLive = c.stack.toLive ∨
          (doOpen a i cp c).2.h.toLink =
              { type := .udp, state := .idle, upcb := some c.stack.nextPcb } ∧
            (doOpen a i cp c).2.stack.toLive = c.stack.toLive.add ⟨.udp, some i⟩ ∨
          (doOpen a i cp c).2.h.toLink = {} ∧
            (doOpen a i cp c).2.stack.toLive = c.stack.toLive) := by
  unfold doOpen
  split
  · exact .inl ⟨rfl, rfl⟩
  · next hfree =>
    have hfree := not_not.mp hfree
    split
    · exact .inl ⟨rfl, rfl⟩
    · exact .inr ⟨hfree, rfl, .inl ⟨rfl, rfl⟩⟩
    · split
      · exact .inr ⟨hfree, rfl, .inr (.inr ⟨rfl, rfl⟩)⟩
      · exact .inr ⟨hfree, rfl, .inr (.inl ⟨rfl, rfl⟩)⟩

theorem doListen_cases :
    (doListen a i cp c).1 ≠ .ok ∧ SameLink c (doListen a i cp c).2 ∨
      (c.h.state = .listening ∧ c.h.acceptReady = true ∧ (doListen a i cp c).1 = .ok ∧
        (doListen a i cp c).2.jim = c.jim.store (cp + 1) [UInt8.ofNat c.h.acceptH.val] ∧
        (doListen a i cp c).2.h.toLink = { c.h.toLink with acceptReady := false } ∧
        (doListen a i cp c).2.stack.toLive = c.stack.toLive) ∨
      (doListen a i cp c).1 ≠ .ok ∧ c.h.type = .tcp ∧ c.h.state = .idle ∧
        ((doListen a i cp c).2.h.toLink =
              { c.h.toLink with tpcb := some (c.stack.nextPcb + 1), state := .listening } ∧
            (doListen a i cp c).2.stack.toLive =
              ((c.stack.toLive.add ⟨.tcp, none⟩).free c.stack.nextPcb).add ⟨.listen, some i⟩ ∨
          ((doListen a i cp c).2.h.toLink = c.h.toLink ∨
              (doListen a i cp c).2.h.toLink = { c.h.toLink with tpcb := none }) ∧
            (doListen a i cp c).2.stack.toLive =
              (c.stack.toLive.add ⟨.tcp, none⟩).free c.stack.nextPcb) := by
  unfold doListen
  split
  · exact .inl ⟨nofun, rfl, rfl⟩
  · next htype =>
    have htcp : c.h.type = .tcp := by
      by_contra hne
      exact htype (.inl hne)
    split
    · next hidle =>
      split
      · exact .inl ⟨nofun, rfl, rfl⟩
      · dsimp only
        split
        · exact .inr (.inr ⟨nofun, htcp, hidle, .inr ⟨.inl rfl, rfl⟩⟩)
        · split
          · exact .inr (.inr ⟨nofun, htcp, hidle, .inr ⟨.inr rfl, rfl⟩⟩)
          · exact .inr (.inr ⟨nofun, htcp, hidle, .inl ⟨rfl, rfl⟩⟩)
    · split
      · next hlisten =>
        split
        · next hready => exact .inr (.inl ⟨hlisten, hready, rfl, rfl, rfl, rfl⟩)
        · exact .inl ⟨nofun, rfl, rfl⟩
      · exact .inl ⟨nofun, rfl, rfl⟩

theorem doDns_cases :
    SameLink c (doDns base a i cp c).2 ∧ (doDns base a i cp c).1 ≠ .ok ∨
      (c.h.state ≠ .free ∧ c.h.state ≠ .resolving ∧ c.h.dnsDone = true ∧
        (doDns base a i cp c).2.h.toLink = { c.h.toLink with dnsDone := false } ∧
        (doDns base a i cp c).2.stack.toLive = c.stack.toLive ∧
        ((doDns base a i cp c).1 = .ok →
          c.h.dnsOk = true ∧ (doDns base a i cp c).2.jim = c.jim.ipToWire (cp + 4) c.h.dnsIp)) ∨
      (c.h.state ≠ .free ∧ c.h.state ≠ .resolving ∧ c.h.dnsDone = false ∧
        ∃ name, netString base c.jim (cp + 1) = some name ∧
          ((∃ ip, a.dns = .cached ip ∧
              (doDns base a i cp c).2.jim = c.jim.ipToWire (cp + 4) ip ∧
              (doDns base a i cp c).2.h.toLink = { c.h.toLink with dnsIp := ip } ∧
              (doDns base a i cp c).2.stack.toLive = c.stack.toLive) ∨
            (a.dns = .inProgress ∧ (doDns base a i cp c).1 = .pending ∧
              (doDns base a i cp c).2.h.toLink = { c.h.toLink with state := .resolving } ∧
              (doDns base a i cp c).2.stack.toLive = c.stack.toLive.ask ⟨name, i⟩))) := by
  unfold doDns
  split
  · exact .inl ⟨⟨rfl, rfl⟩, nofun⟩
  · next hfree =>
    split
    · exact .inl ⟨⟨rfl, rfl⟩, nofun⟩
    · next hres =>
      split
      · next hdone =>
        split
        · exact .inr (.inl ⟨hfree, hres, hdone, rfl, rfl, nofun⟩)
        · next hok =>
          exact .inr (.inl ⟨hfree, hres, hdone, rfl, rfl, fun _ =>
            ⟨by simpa using hok, rfl⟩⟩)
      · next hdone =>
        have hdone : c.h.dnsDone = false := by simpa using hdone
        split
        · exact .inl ⟨⟨rfl, rfl⟩, nofun⟩
        · next name hname =>
          split
          · next ip hdns =>
            exact .inr (.inr ⟨hfree, hres, hdone, name, hname, .inl ⟨ip, hdns, rfl, rfl, rfl⟩⟩)
          · next hdns =>
            exact .inr (.inr ⟨hfree, hres, hdone, name, hname, .inr ⟨hdns, rfl, rfl, rfl⟩⟩)
          · exact .inl ⟨⟨rfl, rfl⟩, nofun⟩

theorem netStartConnect_cases (h : Handle) (s : Stack) :
    ((netStartConnect a i h s).1 = .errNomem ∧
        (netStartConnect a i h s).2.1.toLink = { h.toLink with tpcb := none } ∧
        (netStartConnect a i h s).2.2.toLive = s.toLive) ∨
      ((netStartConnect a i h s).1 = .errConn ∧
        (netStartConnect a i h s).2.1.toLink =
          { h.toLink with tpcb := none, upcb := none, state := .error } ∧
        (netStartConnect a i h s).2.2.toLive =
          ((s.toLive.add ⟨.tcp, some i⟩).free s.nextPcb).freeAll h.upcb) ∨
      ((netStartConnect a i h s).1 = .pending ∧
        (netStartConnect a i h s).2.1.toLink =
          { h.toLink with tpcb := some s.nextPcb, state := .connecting } ∧
        (netStartConnect a i h s).2.2.toLive = s.toLive.add ⟨.tcp, some i⟩) := by
  unfold netStartConnect
  split
  · exact .inl ⟨rfl, rfl, rfl⟩
  · dsimp only
    split
    · exact .inr (.inl ⟨rfl, rfl, rfl⟩)
    · exact .inr (.inr ⟨rfl, rfl, rfl⟩)

theorem doConnect_cases :
    SameLink c (doConnect a i cp c).2 ∨
      c.h.type = .tcp ∧ c.h.state = .idle ∧
        ∃ ip port,
          (doConnect a i cp c).2.h =
              (netStartConnect a i { c.h with remoteIp := ip, remotePort := port } c.stack).2.1 ∧
            (doConnect a i cp c).2.stack =
              (netStartConnect a i { c.h with remoteIp := ip, remotePort := port } c.stack).2.2 := by
  unfold doConnect
  split
  · exact .inl ⟨rfl, rfl⟩
  · next htype =>
    have htcp : c.h.type = .tcp := by
      by_contra hne
      exact htype (.inl hne)
    split
    · exact .inl ⟨rfl, rfl⟩
    · split
      · exact .inl ⟨rfl, rfl⟩
      · split
        · exact .inl ⟨rfl, rfl⟩
        · split
          · exact .inl ⟨rfl, rfl⟩
          · next hidle =>
            split
            · exact .inl ⟨rfl, rfl⟩
            · exact .inr ⟨htcp, not_not.mp hidle, _, _, rfl, rfl⟩

theorem tnfsTeardown_frame (h : Handle) (s : Stack) :
    (tnfsTeardown a h s).1.toLink = h.toLink ∧ (tnfsTeardown a h s).2.toLive = s.toLive := by
  have hclose : (tnfsTeardownClose a h s).1.toLink = h.toLink ∧
      (tnfsTeardownClose a h s).2.toLive = s.toLive := by
    unfold tnfsTeardownClose
    split
    · exact ⟨rfl, live_netTnfsSendRaw ..⟩
    · exact ⟨rfl, rfl⟩
  unfold tnfsTeardown
  split
  · exact ⟨hclose.1, (live_netTnfsSendRaw ..).trans hclose.2⟩
  · exact ⟨rfl, rfl⟩

theorem doClose_cases :
    (c.h.state = .free ∧ (doClose a c).2.h.toLink = { c.h.toLink with urlPhase := .start } ∧
        (doClose a c).2.stack.toLive = c.stack.toLive) ∨
      (c.h.state ≠ .free ∧ (doClose a c).2.h.toLink = {} ∧
        (doClose a c).2.stack.toLive =
          (c.stack.toLive.freeAll c.h.tpcb).freeAll c.h.upcb) := by
  unfold doClose
  split
  · next hfree => exact .inl ⟨hfree, rfl, rfl⟩
  · next hopen =>
    obtain ⟨hlink, hlive⟩ := tnfsTeardown_frame a c.h c.stack
    refine .inr ⟨hopen, rfl, ?_⟩
    change ((tnfsTeardown a c.h c.stack).2.toLive.freeAll (tnfsTeardown a c.h c.stack).1.tpcb).freeAll
      (tnfsTeardown a c.h c.stack).1.upcb = _
    rw [hlink, hlive]

/-! ### url_open -/

theorem netUdpUrlReady_cases (h : Handle) (s : Stack) (hu : h.upcb = none) :
    ((netUdpUrlReady a i h s).2.1.toLink = { h.toLink with urlPhase := .fail } ∧
        ((netUdpUrlReady a i h s).2.2.toLive = s.toLive ∨
          (netUdpUrlReady a i h s).2.2.toLive =
            (s.toLive.add ⟨.udp, some i⟩).free s.nextPcb)) ∨
      ((netUdpUrlReady a i h s).2.1.toLink =
          { h.toLink with upcb := some s.nextPcb, state := .connected, urlPhase := .ready } ∧
        (netUdpUrlReady a i h s).2.2.toLive = s.toLive.add ⟨.udp, some i⟩) := by
  have hnull : { h.toLink with upcb := none, urlPhase := .fail } =
      { h.toLink with urlPhase := .fail } := by rw [← hu]
  unfold netUdpUrlReady
  split
  · exact .inl ⟨hnull, .inl rfl⟩
  · dsimp only
    split
    · exact .inl ⟨hnull, .inr rfl⟩
    · split
      · exact .inl ⟨hnull, .inr rfl⟩
      · exact .inr ⟨rfl, rfl⟩

theorem netTnfsBegin_cases (h : Handle) (s : Stack) (hu : h.upcb = none) :
    ((netTnfsBegin a i h s).2.1.toLink = { h.toLink with urlPhase := .fail } ∧
        ((netTnfsBegin a i h s).2.2.toLive = s.toLive ∨
          (netTnfsBegin a i h s).2.2.toLive = (s.toLive.add ⟨.udp, some i⟩).free s.nextPcb)) ∨
      ((netTnfsBegin a i h s).2.1.toLink =
          { h.toLink with
            upcb := some s.nextPcb, type := .udp, state := .connected, urlPhase := .connecting } ∧
        (netTnfsBegin a i h s).2.2.toLive = s.toLive.add ⟨.udp, some i⟩) := by
  have hnull : { h.toLink with upcb := none, urlPhase := .fail } =
      { h.toLink with urlPhase := .fail } := by rw [← hu]
  have hmount : ∃ req, tnfsBuildMount TNFS_REQ_MAX 1 [0x2F] [] [] = some req := ⟨_, rfl⟩
  obtain ⟨req, hreq⟩ := hmount
  unfold netTnfsBegin
  split
  · exact .inl ⟨hnull, .inl rfl⟩
  · dsimp only
    split
    · exact .inl ⟨hnull, .inr rfl⟩
    · rw [hreq]
      exact .inr ⟨link_netTnfsStart .., live_netTnfsStart ..⟩

theorem urlBeginConnect_frame (h : Handle) (s : Stack) :
    (urlBeginConnect a i h s).2.1.toLink =
        { (netStartConnect a i h s).2.1.toLink with
          urlPhase := if (netStartConnect a i h s).1 = .pending then .connecting else .fail } ∧
      (urlBeginConnect a i h s).2.2 = (netStartConnect a i h s).2.2 := by
  simp only [urlBeginConnect]
  split <;> exact ⟨rfl, rfl⟩

theorem urlAfterResolve_cases (h : Handle) (s : Stack) (ht : h.tpcb = none) (hu : h.upcb = none) :
    ((∃ st, (st = h.state ∨ st = .error) ∧
        (urlAfterResolve a i h s).2.1.toLink = { h.toLink with urlPhase := .fail, state := st }) ∧
        ((urlAfterResolve a i h s).2.2.toLive = s.toLive ∨
          ∃ k, (urlAfterResolve a i h s).2.2.toLive =
            (s.toLive.add ⟨k, some i⟩).free s.nextPcb)) ∨
      (∃ ty ph, (ty = .udp ∨ ty = h.type) ∧ (ph = .ready ∨ ph = .connecting) ∧
        (urlAfterResolve a i h s).2.1.toLink =
          { h.toLink with
            upcb := some s.nextPcb, type := ty, state := .connected, urlPhase := ph } ∧
        (urlAfterResolve a i h s).2.2.toLive = s.toLive.add ⟨.udp, some i⟩) ∨
      ((urlAfterResolve a i h s).2.1.toLink =
          { h.toLink with
            tpcb := some s.nextPcb, state := .connecting, urlPhase := .connecting } ∧
        (urlAfterResolve a i h s).2.2.toLive = s.toLive.add ⟨.tcp, some i⟩) := by
  unfold urlAfterResolve
  split
  · rcases netUdpUrlReady_cases a i h s hu with ⟨hl, hs⟩ | ⟨hl, hs⟩
    · exact .inl ⟨⟨h.state, .inl rfl, hl⟩, hs.imp_right fun hs => ⟨_, hs⟩⟩
    · exact .inr (.inl ⟨h.type, .ready, .inr rfl, .inl rfl, hl, hs⟩)
  · rcases netTnfsBegin_cases a i h s hu with ⟨hl, hs⟩ | ⟨hl, hs⟩
    · exact .inl ⟨⟨h.state, .inl rfl, hl⟩, hs.imp_right fun hs => ⟨_, hs⟩⟩
    · exact .inr (.inl ⟨.udp, .connecting, .inl rfl, .inr rfl, hl, hs⟩)
  · obtain ⟨hlink, hstack⟩ := urlBeginConnect_frame a i h s
    rw [hlink, hstack]
    rcases netStartConnect_cases a i h s with ⟨hr, hl, hs⟩ | ⟨hr, hl, hs⟩ | ⟨hr, hl, hs⟩
    · rw [hr, hl, if_neg nofun]
      exact .inl ⟨⟨h.state, .inl rfl, by rw [← ht]⟩, .inl hs⟩
    · rw [hr, hl, hs, hu, if_neg nofun]
      exact .inl ⟨⟨.error, .inr rfl, by simp only [ht, hu]⟩, .inr ⟨.tcp, rfl⟩⟩
    · rw [hr, hl, if_pos rfl]
      exact .inr (.inr ⟨rfl, hs⟩)

def PhaseMoved (h h' : Handle) (s s' : Stack) : Prop :=
  (∃ ph, (ph = h.urlPhase ∨ ph = .connecting ∨ ph = .ready ∨ ph = .fail) ∧
    h'.toLink = { h.toLink with urlPhase := ph }) ∧ s'.toLive = s.toLive

theorem tnfsMounted_moved (h : Handle) (s : Stack) (rep : TnfsReply) (mode : UInt8)
    (path : List UInt8) :
    PhaseMoved h (tnfsMounted a h s rep mode path).2.1 s (tnfsMounted a h s rep mode path).2.2 := by
  simp only [tnfsMounted]
  split
  · exact ⟨⟨.fail, .inr (.inr (.inr rfl)), rfl⟩, rfl⟩
  · exact ⟨⟨h.urlPhase, .inl rfl, link_netTnfsStart ..⟩, live_netTnfsStart ..⟩

theorem urlOpenTnfs_moved (h : Handle) (s : Stack) (mode : UInt8) (path : List UInt8) :
    PhaseMoved h (urlOpenTnfs a h s mode path).2.1 s (urlOpenTnfs a h s mode path).2.2 := by
  obtain ⟨hlink, hlive⟩ := netTnfsPoll_frame a h s
  simp only [urlOpenTnfs]
  split
  · exact ⟨⟨h.urlPhase, .inl rfl, hlink⟩, hlive⟩
  · refine ⟨⟨.fail, .inr (.inr (.inr rfl)), ?_⟩, hlive⟩
    rw [← hlink]
    rfl
  · split
    · refine ⟨⟨.fail, .inr (.inr (.inr rfl)), ?_⟩, hlive⟩
      rw [← hlink]
      rfl
    · split
      · next rep _ _ _ =>
        obtain ⟨⟨ph, hph, hl⟩, hs⟩ :=
          tnfsMounted_moved a (netTnfsPoll a h s).2.1 (netTnfsPoll a h s).2.2 rep mode path
        rw [hlink] at hl hph
        exact ⟨⟨ph, hph, hl⟩, hs.trans hlive⟩
      · refine ⟨⟨.ready, .inr (.inr (.inl rfl)), ?_⟩, hlive⟩
        rw [← hlink]
        rfl

theorem live_netHttpSendRequest (h : Handle) (s : Stack) (host path : List UInt8) :
    (netHttpSendRequest a h s host path).2.toLive = s.toLive := by
  unfold netHttpSendRequest
  split
  · rfl
  · split
    · rfl
    · split <;> rfl

theorem urlOpenStream_moved (h : Handle) (s : Stack) (host path : List UInt8) :
    PhaseMoved h (urlOpenStream a h s host path).2.1 s (urlOpenStream a h s host path).2.2 := by
  have hlive := live_netHttpSendRequest a h s host path
  simp only [urlOpenStream]
  split
  · exact ⟨⟨_, .inl rfl, rfl⟩, rfl⟩
  · split
    · exact ⟨⟨.fail, .inr (.inr (.inr rfl)), rfl⟩, rfl⟩
    · split
      · split
        · split
          · exact ⟨⟨.fail, .inr (.inr (.inr rfl)), rfl⟩, hlive⟩
          · exact ⟨⟨.ready, .inr (.inr (.inl rfl)), rfl⟩, hlive⟩
        · exact ⟨⟨.ready, .inr (.inr (.inl rfl)), rfl⟩, rfl⟩
      · exact ⟨⟨_, .inl rfl, rfl⟩, rfl⟩

/-- A free handle is claimed for a URL whose host needs no callback: `ip` is its dotted quad or
what the resolver had cached, and the connection is begun. -/
structure ClaimedAt (c : Ctx) (r : Result × Handle × Stack) : Prop where
  free : c.h.state = .free
  attached : ∃ u mode ip ip', (netParseDotted u.host = some ip ∨ a.dns = .cached ip ∧ ip' = ip) ∧
    r = urlAfterResolve a i { urlClaim c.h u mode with dnsIp := ip', remoteIp := ip } c.stack

theorem doUrlOpen_cases :
    PhaseMoved c.h (doUrlOpen base a i cp c).2.h c.stack (doUrlOpen base a i cp c).2.stack ∨
      (∃ r, ClaimedAt a i c r ∧ doUrlOpen base a i cp c = (r.1, ⟨c.jim, r.2.1, r.2.2⟩)) ∨
      (c.h.state = .free ∧ ∃ u mode,
        ((doUrlOpen base a i cp c).2.h.toLink =
              { (urlClaim c.h u mode).toLink with urlPhase := .resolving, state := .resolving } ∧
            (doUrlOpen base a i cp c).2.stack.toLive = c.stack.toLive.ask ⟨u.host, i⟩ ∨
          (doUrlOpen base a i cp c).2.h.toLink =
              { (urlClaim c.h u mode).toLink with urlPhase := .fail } ∧
            (doUrlOpen base a i cp c).2.stack.toLive = c.stack.toLive)) ∨
      (c.h.urlPhase = .resolving ∧ c.h.dnsDone = true ∧
        ((doUrlOpen base a i cp c).2.h.toLink =
              { c.h.toLink with dnsDone := false, urlPhase := .fail } ∧
            (doUrlOpen base a i cp c).2.stack.toLive = c.stack.toLive ∨
          c.h.dnsOk = true ∧ ∃ r, r = urlAfterResolve a i
              { c.h with dnsDone := false, remoteIp := c.h.dnsIp, state := .idle } c.stack ∧
            doUrlOpen base a i cp c = (r.1, ⟨c.jim, r.2.1, r.2.2⟩))) := by
  have hsame : PhaseMoved c.h c.h c.stack c.stack := ⟨⟨c.h.urlPhase, .inl rfl, rfl⟩, rfl⟩
  unfold doUrlOpen
  split
  · exact .inl hsame
  split
  · exact .inl hsame
  split
  · exact .inl hsame
  split
  · split
    · exact .inl ⟨⟨.fail, .inr (.inr (.inr rfl)), rfl⟩, rfl⟩
    · exact .inl hsame
  next u hurl =>
  dsimp only
  unfold urlOpenStep
  split
  · -- START
    simp only [urlOpenStart]
    split
    · exact .inl hsame
    next hfree =>
    have hfree := not_not.mp hfree
    split
    · exact .inl hsame
    split
    · next ip hip => exact .inr (.inl ⟨_, ⟨hfree, u, _, ip, _, .inl hip, rfl⟩, rfl⟩)
    · split
      · next ip hip => exact .inr (.inl ⟨_, ⟨hfree, u, _, ip, ip, .inr ⟨hip, rfl⟩, rfl⟩, rfl⟩)
      · exact .inr (.inr (.inl ⟨hfree, u, _, .inl ⟨rfl, rfl⟩⟩))
      · exact .inr (.inr (.inl ⟨hfree, u, _, .inr ⟨rfl, rfl⟩⟩))
  · -- RESOLVING
    next hphase =>
    simp only [urlOpenResolving]
    split
    · exact .inl hsame
    next hdone =>
    have hdone : c.h.dnsDone = true := by simpa using hdone
    split
    · exact .inr (.inr (.inr ⟨hphase, hdone, .inl ⟨rfl, rfl⟩⟩))
    · next hok =>
      exact .inr (.inr (.inr ⟨hphase, hdone, .inr ⟨by simpa using hok, _, rfl, rfl⟩⟩))
  · -- CONNECTING
    split
    · exact .inl (urlOpenTnfs_moved ..)
    · exact .inl (urlOpenStream_moved ..)
  · exact .inl hsame

/-! ### Dispatch and callbacks -/

theorem netDispatch_cases (cfg : Config) (a : Answers) (n : Service) (jim : Jim) (cp : Nat)
    (data : UInt8) :
    issued cfg jim cp data = none ∧ (netDispatch cfg a n jim cp data).1 ≠ .ok ∧
        (netDispatch cfg a n jim cp data).2 = (jim, n) ∨
      ∃ i cmd irq r, issued cfg jim cp data = some (i, cmd) ∧
        r = runCommand cfg.base a i cp ⟨jim, n.h i, n.stack⟩ cmd ∧
        netDispatch cfg a n jim cp data =
          (r.1, r.2.jim, ⟨Function.update n.h i r.2.h, irq, r.2.stack⟩) := by
  unfold netDispatch issued
  split
  · exact .inl ⟨rfl, nofun, rfl⟩
  · split
    · next hi => exact .inl ⟨by rw [hi]; rfl, nofun, rfl⟩
    · next i hi =>
      split
      · next hcmd => exact .inl ⟨by rw [hi, hcmd]; rfl, nofun, rfl⟩
      · next cmd hcmd => exact .inr ⟨i, cmd, _, _, by rw [hi, hcmd]; rfl, rfl, rfl⟩

@[simp] theorem link_netUdpRecv (h : Handle) (p : Chain) (addr : Ip) (port : UInt16) :
    (netUdpRecv h p addr port).toLink = h.toLink := by
  unfold netUdpRecv
  split <;> rfl

theorem telnetSegment_frame (fuel k : Nat) (bytes : List UInt8) (h : Handle) (s : Stack) :
    (telnetSegment a fuel k bytes h s).1.toLink = h.toLink ∧
      (telnetSegment a fuel k bytes h s).2.toLive = s.toLive := by
  induction fuel generalizing k bytes h s with
  | zero => exact ⟨rfl, rfl⟩
  | succ fuel ih =>
    unfold telnetSegment
    split
    · exact ⟨rfl, rfl⟩
    · dsimp only
      obtain ⟨hlink, hlive⟩ := ih (k + 1) (bytes.drop 256)
        (ringPutMem { h with telnet := (telnetFilter h.telnet (bytes.take 256) 256 300).ctx }
          (telnetFilter h.telnet (bytes.take 256) 256 300).out) _
      refine ⟨hlink, hlive.trans ?_⟩
      split
      · split <;> rfl
      · rfl

theorem netTcpRecv_frame (h : Handle) (s : Stack) (p : Option Chain) (ok : Bool) :
    (netTcpRecv a h s p ok).2.1.toLink =
        (if ok then h.toLink else { h.toLink with state := .error }) ∧
      (netTcpRecv a h s p ok).2.2.toLive = s.toLive := by
  cases ok with
  | false => exact ⟨rfl, rfl⟩
  | true =>
    unfold netTcpRecv
    cases p with
    | none => exact ⟨rfl, rfl⟩
    | some p =>
      simp only [Bool.true_eq_false, if_false, if_true]
      split
      · exact ⟨rfl, rfl⟩
      · split
        · exact telnetSegment_frame ..
        · exact ⟨rfl, rfl⟩

theorem link_netDnsFound (h : Handle) (ip : Option Ip) :
    (netDnsFound h ip).toLink =
      { h.toLink with
        dnsDone := true, dnsOk := ip.isSome, dnsIp := ip.getD h.dnsIp
        state := if h.state = .resolving then .idle else h.state } := by
  cases ip with
  | none =>
    simp only [netDnsFound]
    split
    · rfl
    · rfl
  | some ip =>
    simp only [netDnsFound]
    split
    · rfl
    · rfl

end

end Pi1MHz.Net
