import Pi1MHz.NetCommands

/-!
# The net service: the N: device

The URL commands of `net_service.c`: the open state machine with its five adapters, and the
TNFS engine, which turns one logical read or write into a request, its retransmissions and the
reply, spread over as many commands as the Beeb needs to collect it.
-/

namespace Pi1MHz.Net

section

variable (base : Nat) (a : Answers) (i : Fin NET_MAX_HANDLES) (cp : Nat)

def urlFail (h : Handle) (r : Result) : Handle := { h with urlPhase := .fail, lastErr := r }

def urlBeginConnect (h : Handle) (s : Stack) : Result × Handle × Stack :=
  let r := netStartConnect a i h s
  if r.1 = .pending then (r.1, { r.2.1 with urlPhase := .connecting }, r.2.2)
  else (r.1, urlFail r.2.1 r.1, r.2.2)

def netUdpUrlReady (h : Handle) (s : Stack) : Result × Handle × Stack :=
  if a.udpNew = false then (.errNomem, urlFail { h with upcb := none } .errNomem, s)
  else
    let p := s.nextPcb
    let s := s.add ⟨.udp, some i⟩
    if a.udpBind = false then (.errConn, urlFail { h with upcb := none } .errConn, s.free p)
    else if a.udpConnect = false then (.errConn, urlFail { h with upcb := none } .errConn, s.free p)
    else (.ok, { h with upcb := some p, state := .connected, urlPhase := .ready }, s)

/-! ### The TNFS engine -/

/-- Pop one datagram's payload, at most `cap` bytes of it. -/
def netUdpPop (h : Handle) (cap : Nat) : List UInt8 × Handle :=
  if h.ring.count < 8 then ([], h)
  else
    let got := ringGetMem (ringGetMem h 8).2 (recordCopy h cap)
    (got.1, ringDiscardRest got.2 (recordLen h) (recordCopy h cap))

def netTnfsFire (k : Nat) (h : Handle) (s : Stack) : Handle × Stack :=
  ({ h with
      tnfsDeadline :=
        a.nowMs k + (if h.tnfsRetryMs ≠ 0 then h.tnfsRetryMs else TNFS_TIMEOUT_MS).toUInt32 },
    netTnfsSendRaw a 0 h s h.tnfsReq)

/-- `net_tnfs_start` on the request just built; `none` is one that did not fit. -/
def netTnfsStart (h : Handle) (s : Stack) (phase : TnfsPhase) (req : Option (List UInt8)) :
    Result × Handle × Stack :=
  match req with
  | none => (.errParam, h, s)
  | some req =>
      let r := netTnfsFire a 0
        { h with
          tnfsReq := req, tnfsPhase := phase, tnfsRetries := TNFS_RETRIES
          tnfsEagain := TNFS_EAGAIN_MAX } s
      (.pending, r.1, r.2)

inductive TnfsPoll where
  | reply (rep : TnfsReply)
  | pending
  | gaveUp
deriving DecidableEq, Repr

def tnfsMatch (h : Handle) (pkt : List UInt8) : Option TnfsReply :=
  if pkt = [] then none
  else
    match tnfsParseReply pkt h.tnfsSeq (h.tnfsReq.getD 3 0) with
    | none => none
    | some rep => if h.tnfsConnid = 0 ∨ rep.connid = h.tnfsConnid then some rep else none

def tnfsBackOff (h : Handle) (rep : TnfsReply) : TnfsPoll × Handle :=
  let back := if rep.backoffMs ≠ 0 then rep.backoffMs else h.tnfsRetryMs
  if h.tnfsEagain = 0 then (.gaveUp, h)
  else
    (.pending,
      { h with
        tnfsEagain := h.tnfsEagain - 1
        tnfsRetries := TNFS_RETRIES
        tnfsDeadline := a.nowMs 0 + (if back ≠ 0 then back else TNFS_TIMEOUT_MS).toUInt32 })

def tnfsTimeout (h : Handle) (s : Stack) : TnfsPoll × Handle × Stack :=
  if a.nowMs 0 - h.tnfsDeadline < 0x80000000 then
    if h.tnfsRetries = 0 then (.gaveUp, h, s)
    else
      let r := netTnfsFire a 1 { h with tnfsRetries := h.tnfsRetries - 1 } s
      (.pending, r.1, r.2)
  else (.pending, h, s)

def netTnfsPoll (h : Handle) (s : Stack) : TnfsPoll × Handle × Stack :=
  if 8 ≤ h.ring.count then
    let pop := netUdpPop h TNFS_PKT_MAX
    match tnfsMatch h pop.1 with
    | some rep =>
        if rep.status = TNFS_EAGAIN then
          let r := tnfsBackOff a pop.2 rep
          (r.1, r.2, s)
        else (.reply rep, pop.2, s)
    | none => tnfsTimeout a pop.2 s
  else tnfsTimeout a h s

def netTnfsStatus (status : UInt8) : Result :=
  if status = TNFS_OK then .ok else if status = TNFS_EOF then .eof else .errConn

def netTnfsBegin (h : Handle) (s : Stack) : Result × Handle × Stack :=
  if a.udpNew = false then (.errNomem, urlFail { h with upcb := none } .errNomem, s)
  else
    let p := s.nextPcb
    let s := s.add ⟨.udp, some i⟩
    if a.udpBind = false then (.errConn, urlFail { h with upcb := none } .errConn, s.free p)
    else
      let h :=
        { h with
          upcb := some p, type := .udp, state := .connected
          tnfsRetryMs := TNFS_TIMEOUT_MS, tnfsSeq := 1 }
      match tnfsBuildMount TNFS_REQ_MAX h.tnfsSeq [0x2F] [] [] with
      | none => (.errParam, urlFail h .errParam, s)
      | some req => netTnfsStart a { h with urlPhase := .connecting } s .mount (some req)

def urlAfterResolve (h : Handle) (s : Stack) : Result × Handle × Stack :=
  match h.urlAdapter with
  | .udp => netUdpUrlReady a i h s
  | .tnfs => netTnfsBegin a i h s
  | _ => urlBeginConnect a i h s

/-! ### url_open -/

def tnfsOpenFlags (mode : UInt8) (wr : Bool) : UInt16 :=
  if mode = NET_OPEN_RW then TNFS_O_RDWR ||| TNFS_O_CREAT
  else if wr then TNFS_O_WRONLY ||| TNFS_O_CREAT ||| TNFS_O_TRUNC
  else TNFS_O_RDONLY

/-- The OPEN or OPENDIR of a handle whose `tnfsIsDir` and sequence are set. -/
def tnfsOpenRequest (h : Handle) (mode : UInt8) (path : List UInt8) : Option (List UInt8) :=
  if h.tnfsIsDir then tnfsBuildOpendir TNFS_REQ_MAX h.tnfsConnid h.tnfsSeq path
  else
    tnfsBuildOpen TNFS_REQ_MAX h.tnfsConnid h.tnfsSeq (tnfsOpenFlags mode h.tnfsWr)
      (if h.tnfsWr then 0x01A4 else 0) path

def tnfsMounted (h : Handle) (s : Stack) (rep : TnfsReply) (mode : UInt8) (path : List UInt8) :
    Result × Handle × Stack :=
  let rms := (tnfsReplyMount rep).getD 0
  let h :=
    { h with
      tnfsConnid := rep.connid
      tnfsRetryMs := if 100 ≤ rms ∧ rms ≤ 5000 then rms else h.tnfsRetryMs
      tnfsIsDir := path.getLast? = some 0x2F ∨ mode = NET_OPEN_DIR
      tnfsSeq := h.tnfsSeq + 1 }
  match tnfsOpenRequest h mode path with
  | none => (.errParam, urlFail h .errParam, s)
  | some req => netTnfsStart a h s .open (some req)

def tnfsOpened (h : Handle) (rep : TnfsReply) : Handle :=
  { h with
    tnfsFd := (if h.tnfsIsDir then tnfsReplyOpendir rep else tnfsReplyOpen rep).getD h.tnfsFd
    tnfsPhase := .ready
    urlPhase := .ready }

/-- `URL_CONNECTING` of a TNFS URL. -/
def urlOpenTnfs (h : Handle) (s : Stack) (mode : UInt8) (path : List UInt8) :
    Result × Handle × Stack :=
  let r := netTnfsPoll a h s
  match r.1 with
  | .pending => (.pending, r.2)
  | .gaveUp => (.errConn, urlFail r.2.1 .errConn, r.2.2)
  | .reply rep =>
      if rep.status ≠ TNFS_OK then
        (netTnfsStatus rep.status, urlFail r.2.1 (netTnfsStatus rep.status), r.2.2)
      else if r.2.1.tnfsPhase = .mount then tnfsMounted a r.2.1 r.2.2 rep mode path
      else (.ok, tnfsOpened r.2.1 rep, r.2.2)

def netHttpSendRequest (h : Handle) (s : Stack) (host path : List UInt8) : Result × Stack :=
  match httpRequest host path with
  | none => (.errParam, s)
  | some req =>
      match h.tpcb with
      | none => (.errConn, s)
      | some pcb => if a.tcpWrite 0 ≠ .ok then (.errNomem, s) else (.ok, s.emit (.tcp pcb req))

/-- `URL_CONNECTING` of the TCP adapters. -/
def urlOpenStream (h : Handle) (s : Stack) (host path : List UInt8) : Result × Handle × Stack :=
  if h.state = .connecting then (.pending, h, s)
  else if h.state = .error then (.errConn, urlFail h .errConn, s)
  else if h.state = .connected then
    if h.urlAdapter = .http then
      let r := netHttpSendRequest a h s host path
      if r.1 ≠ .ok then (r.1, urlFail h r.1, r.2) else (.ok, { h with urlPhase := .ready }, r.2)
    else (.ok, { h with urlPhase := .ready }, s)
  else (.pending, h, s)

def urlClaim (h : Handle) (u : Url) (mode : UInt8) : Handle :=
  { h.reset with
    isUrl := true, urlAdapter := u.adapter
    tnfsWr := mode = NET_OPEN_WRITE ∨ mode = NET_OPEN_RW
    type := if u.adapter = .udp then .udp else .tcp
    state := .idle, remotePort := u.port }

/-- `URL_START`: the handle is claimed and the host is turned into an address. -/
def urlOpenStart (h : Handle) (s : Stack) (u : Url) (mode : UInt8) : Result × Handle × Stack :=
  if h.state ≠ .free then (.errInuse, h, s)
  else if a.addressReady = false then (.pending, h, s)
  else
    let h := urlClaim h u mode
    match netParseDotted u.host with
    | some ip => urlAfterResolve a i { h with remoteIp := ip } s
    | none =>
        match a.dns with
        | .cached ip => urlAfterResolve a i { h with dnsIp := ip, remoteIp := ip } s
        | .inProgress =>
            (.pending, { h with urlPhase := .resolving, state := .resolving },
              s.ask ⟨u.host, i⟩)
        | .failed => (.errDns, urlFail h .errDns, s)

/-- `URL_RESOLVING`. -/
def urlOpenResolving (h : Handle) (s : Stack) : Result × Handle × Stack :=
  if h.dnsDone = false then (.pending, h, s)
  else if h.dnsOk = false then (.errDns, urlFail { h with dnsDone := false } .errDns, s)
  else urlAfterResolve a i { h with dnsDone := false, remoteIp := h.dnsIp, state := .idle } s

def urlOpenStep (h : Handle) (s : Stack) (u : Url) (mode : UInt8) : Result × Handle × Stack :=
  match h.urlPhase with
  | .start => urlOpenStart a i h s u mode
  | .resolving => urlOpenResolving a i h s
  | .connecting =>
      if h.urlAdapter = .tnfs then urlOpenTnfs a h s mode u.path
      else urlOpenStream a h s u.host u.path
  | _ => (.pending, h, s)

def doUrlOpen (c : Ctx) : Result × Ctx :=
  if c.h.urlPhase = .ready then (.ok, c)
  else if c.h.urlPhase = .fail then (c.h.lastErr.orConn, c)
  else
    match netString base c.jim (cp + 2) with
    | none => (.errParam, c)
    | some url =>
        match netUrlParse url NET_MAX_HOSTNAME 192 with
        | none =>
            -- only an open that owns the handle latches the failure
            (.errParam, if c.h.state ≠ .free then c.withH (urlFail c.h .errParam) else c)
        | some u =>
            let r := urlOpenStep a i c.h c.stack u (c.jim (cp + 1))
            (r.1, { c with h := r.2.1, stack := r.2.2 })

/-! ### url_read -/

/-- The READ or READDIR of a `url_read` with room for `max` bytes. -/
def tnfsReadRequest (h : Handle) (max : Nat) : Option (List UInt8) :=
  if h.tnfsIsDir then tnfsBuildReaddir TNFS_REQ_MAX h.tnfsConnid h.tnfsSeq h.tnfsFd
  else
    tnfsBuildRead TNFS_REQ_MAX h.tnfsConnid h.tnfsSeq h.tnfsFd
      (UInt16.ofNat (if max > TNFS_READ_CHUNK then TNFS_READ_CHUNK else max))

def tnfsReadData (h : Handle) (rep : TnfsReply) : Option (List UInt8) :=
  if h.tnfsIsDir then tnfsReplyReaddir rep else tnfsReplyRead rep

def urlReadTnfsStart (c : Ctx) (max : Nat) : Result × Ctx :=
  if max = 0 then (.ok, c)
  else
    let h := { c.h with tnfsSeq := c.h.tnfsSeq + 1 }
    let r := netTnfsStart a h c.stack .reading (tnfsReadRequest h max)
    (r.1, { c with h := r.2.1, stack := r.2.2 })

def urlReadTnfsReply (c : Ctx) (rep : TnfsReply) (jimoff max : Nat) : Result × Ctx :=
  if rep.status = TNFS_EOF then (.eof, c)
  else if rep.status ≠ TNFS_OK then (netTnfsStatus rep.status, c)
  else
    match tnfsReadData c.h rep with
    | none => (.errConn, c)
    | some data =>
        (.ok,
          c.withJim ((c.jim.store (jimoff + base) (data.take max)).wr24 (cp + 1)
            (data.take max).length))

def Ctx.tnfsOver (c : Ctx) (h : Handle) (s : Stack) : Ctx :=
  { c with h := { h with tnfsPhase := .ready }, stack := s }

/-- `url_read` of a TNFS URL; the length field is zeroed before anything else. -/
def urlReadTnfs (c : Ctx) (jimoff max : Nat) : Result × Ctx :=
  let c := c.withJim (c.jim.wr24 (cp + 1) 0)
  if c.h.tnfsPhase = .ready then urlReadTnfsStart a c max
  else if c.h.tnfsPhase ≠ .reading then (.errNotopen, c)
  else
    let r := netTnfsPoll a c.h c.stack
    match r.1 with
    | .pending => (.pending, { c with h := r.2.1, stack := r.2.2 })
    | .gaveUp => (.errConn, c.tnfsOver r.2.1 r.2.2)
    | .reply rep => urlReadTnfsReply base cp (c.tnfsOver r.2.1 r.2.2) rep jimoff max

/-- `url_read` of a UDP URL: one datagram's payload. -/
def urlReadUdp (c : Ctx) (jimoff max : Nat) : Result × Ctx :=
  if c.h.ring.count < 8 then (.ok, c.withJim (c.jim.wr24 (cp + 1) 0))
  else
    let r := takeRecord c.h max
    (.ok,
      (c.withH r.2.2).withJim
        ((c.jim.store (jimoff + base) r.2.1).wr24 (cp + 1) (recordCopy c.h max)))

def urlReadHttpWait (c : Ctx) : Result × Ctx :=
  let c := c.withJim (c.jim.wr24 (cp + 1) 0)
  if c.h.rxParked ∨ NET_RX_RING_SIZE - 1 ≤ c.h.ring.count then
    (.errConn, c.withH { c.h with lastErr := .errConn })
  else if c.h.rxEof then (.eof, c)
  else if c.h.state = .error then (c.h.lastErr.orConn, c)
  else (.ok, c)

def httpEatHeaders (h : Handle) (hdr : Nat) : Handle :=
  { ringDiscard (netHttpParseStatus h) hdr with httpHdrDone := true }

def doUrlRead (c : Ctx) : Result × Ctx :=
  let max := c.jim.rd24 (cp + 1)
  let jimoff := c.jim.rd32 (cp + 4)
  if c.h.state = .free then (.errNotopen, c)
  else if netBufferOk jimoff max = false then (.errParam, c)
  else
    match c.h.urlAdapter with
    | .tnfs => urlReadTnfs base a cp c jimoff max
    | .udp => urlReadUdp base cp c jimoff max
    | .http =>
        if c.h.httpHdrDone then streamRead base cp c jimoff max
        else
          let hdr := netHttpFindHeaders c.h
          if hdr = 0 then urlReadHttpWait cp c
          else streamRead base cp (c.withH (httpEatHeaders c.h hdr)) jimoff max
    | _ => streamRead base cp c jimoff max

/-! ### url_write -/

def urlWriteTnfsStart (c : Ctx) (jimoff len : Nat) : Result × Ctx :=
  let want := if len > TNFS_WRITE_CHUNK then TNFS_WRITE_CHUNK else len
  if want = 0 then (.ok, c)
  else
    let h := { c.h with tnfsSeq := c.h.tnfsSeq + 1 }
    let req := tnfsBuildWrite TNFS_REQ_MAX h.tnfsConnid h.tnfsSeq h.tnfsFd
      (c.jim.load (jimoff + base) want)
    let r := netTnfsStart a h c.stack .writing req
    (r.1, { c with h := r.2.1, stack := r.2.2 })

def urlWriteTnfsReply (c : Ctx) (rep : TnfsReply) : Result × Ctx :=
  if rep.status ≠ TNFS_OK then
    (netTnfsStatus rep.status, c.withJim (c.jim.wr24 (cp + 1) 0))
  else
    let wrote := ((tnfsReplyWrite rep).getD 0).toNat
    (.ok,
      c.withJim (c.jim.wr24 (cp + 1)
        (if wrote > TNFS_WRITE_CHUNK then TNFS_WRITE_CHUNK else wrote)))

/-- `url_write` of a TNFS URL. -/
def urlWriteTnfs (c : Ctx) : Result × Ctx :=
  let len := c.jim.rd24 (cp + 1)
  let jimoff := c.jim.rd32 (cp + 4)
  let zero := c.jim.wr24 (cp + 1) 0
  if c.h.tnfsWr = false then (.errNotopen, c)
  else if netBufferOk jimoff len = false then (.errParam, c)
  else if c.h.tnfsPhase = .ready then urlWriteTnfsStart base a (c.withJim zero) jimoff len
  else if c.h.tnfsPhase ≠ .writing then (.errNotopen, c.withJim zero)
  else
    let r := netTnfsPoll a c.h c.stack
    match r.1 with
    | .pending => (.pending, ⟨zero, r.2.1, r.2.2⟩)
    | .gaveUp => (.errConn, (c.tnfsOver r.2.1 r.2.2).withJim zero)
    | .reply rep => urlWriteTnfsReply cp (c.tnfsOver r.2.1 r.2.2) rep

/-- `url_write` of a TELNET URL: escaped, then sent. -/
def urlWriteTelnet (c : Ctx) : Result × Ctx :=
  let len := c.jim.rd24 (cp + 1)
  let jimoff := c.jim.rd32 (cp + 4)
  match c.h.type, c.h.tpcb, c.h.state with
  | .tcp, some pcb, .connected =>
      if netBufferOk jimoff len = false then (.errParam, c)
      else
        let oc := if a.sndbuf.toNat < 512 then a.sndbuf.toNat else 512
        if oc = 0 then (.ok, c.withJim (c.jim.wr24 (cp + 1) 0))
        else
          let e := telnetEscape oc (c.jim.load (jimoff + base) len) []
          if e.1 = [] then (.ok, c.withJim (c.jim.wr24 (cp + 1) e.2))
          else
            match a.tcpWrite 0 with
            | .mem => (.ok, c.withJim (c.jim.wr24 (cp + 1) 0))
            | .other => (.errConn, c)
            | .ok =>
                (.ok,
                  (c.withStack (c.stack.emit (.tcp pcb e.1))).withJim (c.jim.wr24 (cp + 1) e.2))
  | _, _, _ => (.errNotopen, c)

/-- `url_write` of a UDP handle. -/
def urlWriteUdp (c : Ctx) : Result × Ctx :=
  let len := c.jim.rd24 (cp + 1)
  let jimoff := c.jim.rd32 (cp + 4)
  match c.h.upcb with
  | none => (.errNotopen, c)
  | some pcb =>
      if len > 0xFFFF ∨ netBufferOk jimoff len = false then (.errParam, c)
      else
        let r := udpSendto a 0 c.stack pcb c.h.remoteIp c.h.remotePort
          (c.jim.load (jimoff + base) len)
        if r.1 ≠ .ok then (r.1, c.withStack r.2)
        else (.ok, (c.withStack r.2).withJim (c.jim.wr24 (cp + 1) len))

def doUrlWrite (c : Ctx) : Result × Ctx :=
  match c.h.urlAdapter with
  | .tnfs => urlWriteTnfs base a cp c
  | .telnet => urlWriteTelnet base a cp c
  | _ => if c.h.type = .udp then urlWriteUdp base a cp c else doSend base a cp c

def doUrlStatus (c : Ctx) : Result × Ctx :=
  let failed := c.h.urlPhase = .fail ∨ c.h.state = .error
  let flags :=
    (if c.h.urlPhase = .ready then NET_FLAG_CONNECTED else 0)
      ||| (if c.h.rxEof then NET_FLAG_RX_EOF else 0)
      ||| (if failed then NET_FLAG_ERROR else 0)
      ||| (if c.h.ring.count ≠ 0 then NET_FLAG_RX_READY else 0)
  let err := if failed then c.h.lastErr.orConn.code else 0
  (.ok,
    c.withJim (c.jim.store (cp + 1)
      (le16 (UInt16.ofNat c.h.ring.count)
        ++ [if c.h.urlPhase = .ready then 1 else 0, err, c.h.state.code, flags]
        ++ le16 c.h.httpCode)))

end

end Pi1MHz.Net
