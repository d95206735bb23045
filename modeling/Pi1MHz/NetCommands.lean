import Pi1MHz.NetUrl

/-!
# The net service: raw sockets

The commands of `net_service.c` on one raw TCP or UDP handle, and the lwIP callbacks.  A command
sees the JIM memory, its own handle and the stack, and changes nothing else; `i` is the handle's
index, which is what a pcb is given as callback argument.
-/

namespace Pi1MHz.Net

structure Ctx where
  jim : Jim
  h : Handle
  stack : Stack

def Ctx.withH (c : Ctx) (h : Handle) : Ctx := { c with h := h }

def Ctx.withJim (c : Ctx) (jim : Jim) : Ctx := { c with jim := jim }

def Ctx.withStack (c : Ctx) (s : Stack) : Ctx := { c with stack := s }

/-! ### lwIP callbacks -/

/-- `net_pcb_release`.  A pcb that cannot be closed is aborted, so it is gone either way. -/
def netPcbRelease (h : Handle) (s : Stack) : Handle × Stack :=
  ({ h with tpcb := none, upcb := none }, (s.freeAll h.tpcb).freeAll h.upcb)

def udpHeader (ip : Ip) (port : UInt16) (len : Nat) : List UInt8 :=
  ipBytes ip ++ le16 port ++ le16 (UInt16.ofNat len)

def netUdpRecv (h : Handle) (p : Chain) (addr : Ip) (port : UInt16) : Handle :=
  if p.totLen + 8 ≤ ringFree h then ringPutPbuf (ringPutMem h (udpHeader addr port p.totLen)) p
  else h

inductive RecvErr where
  | ok | mem
deriving DecidableEq, Repr

/-- A TELNET segment, 256 bytes at a time: the text goes to the ring, the replies of each piece
straight back to the server.  `k` numbers the pieces. -/
def telnetSegment (a : Answers) : Nat → Nat → List UInt8 → Handle → Stack → Handle × Stack
  | 0, _, _, h, s => (h, s)
  | fuel + 1, k, bytes, h, s =>
      if bytes = [] then (h, s)
      else
        let r := telnetFilter h.telnet (bytes.take 256) 256 300
        let h := ringPutMem { h with telnet := r.ctx } r.out
        let s :=
          match h.tpcb with
          | some p => if r.rep ≠ [] ∧ a.tcpWrite k = .ok then s.emit (.tcp p r.rep) else s
          | none => s
        telnetSegment a fuel (k + 1) (bytes.drop 256) h s

def netTcpRecv (a : Answers) (h : Handle) (s : Stack) (p : Option Chain) (ok : Bool) :
    RecvErr × Handle × Stack :=
  if ok = false then (.ok, { h with lastErr := .errConn, state := .error }, s)
  else
    match p with
    | none => (.ok, { h with rxEof := true }, s)
    | some p =>
        if p.totLen > ringFree h then (.mem, { h with rxParked := true }, s)
        else if h.isUrl ∧ h.urlAdapter = .telnet then
          let r := telnetSegment a p.totLen 0 p.bytes h s
          (.ok, { r.1 with rxParked := false }, r.2)
        else (.ok, { ringPutPbuf h p with rxParked := false }, s)

def netTcpErr (h : Handle) : Handle :=
  { h with tpcb := none, lastErr := .errConn, state := .error }

def netTcpConnected (h : Handle) (ok : Bool) : Handle :=
  if ok then { h with state := .connected } else netTcpErr h

def acceptedHandle (nh : Handle) (newpcb : Nat) (ip : Ip) (port : UInt16) : Handle :=
  { nh.reset with
    type := .tcp, tpcb := some newpcb, state := .connected, remoteIp := ip, remotePort := port }

def firstFree (hs : Fin NET_MAX_HANDLES → Handle) : Option (Fin NET_MAX_HANDLES) :=
  (List.finRange NET_MAX_HANDLES).find? fun i => (hs i).state = .free

def netDnsFound (h : Handle) (ip : Option Ip) : Handle :=
  let h :=
    match ip with
    | some ip => { h with dnsDone := true, dnsIp := ip, dnsOk := true }
    | none => { h with dnsDone := true, dnsOk := false }
  if h.state = .resolving then { h with state := .idle } else h

/-! ### Commands -/

section

variable (base : Nat) (a : Answers) (i : Fin NET_MAX_HANDLES) (cp : Nat) (c : Ctx)

def doOpen : Result × Ctx :=
  if c.h.state ≠ .free then (.errInuse, c)
  else
    match NetType.ofByte (c.jim (cp + 1)) with
    | none => (.errParam, c)
    | some .tcp => (.ok, c.withH { c.h.reset with type := .tcp, state := .idle })
    | some .udp =>
        if a.udpNew = false then (.errNomem, c.withH c.h.reset)
        else
          (.ok,
            { c with
              h := { c.h.reset with type := .udp, state := .idle, upcb := some c.stack.nextPcb }
              stack := c.stack.add ⟨.udp, some i⟩ })

def doBind : Result × Ctx :=
  if c.h.state = .free then (.errNotopen, c)
  else
    let c' := c.withH { c.h with bindPort := c.jim.rd16 (cp + 1) }
    if c.h.type = .udp ∧ (c.h.upcb = none ∨ a.udpBind = false) then (.errConn, c') else (.ok, c')

/-- `altcp_listen` consumes the pcb it is given and returns another. -/
def doListen : Result × Ctx :=
  if c.h.type ≠ .tcp ∨ c.h.state = .free then (.errNotopen, c)
  else if c.h.state = .idle then
    if a.tcpNew = false then (.errNomem, c)
    else
      let lp := c.stack.nextPcb
      let s := c.stack.add ⟨.tcp, none⟩
      if a.tcpBind = false then (.errConn, c.withStack (s.free lp))
      else if a.tcpListen = false then
        (.errNomem, (c.withH { c.h with tpcb := none }).withStack (s.free lp))
      else
        let s := s.free lp
        (.pending,
          (c.withH { c.h with tpcb := some s.nextPcb, state := .listening }).withStack
            (s.add ⟨.listen, some i⟩))
  else if c.h.state = .listening then
    if c.h.acceptReady then
      (.ok,
        (c.withH { c.h with acceptReady := false }).withJim
          (c.jim.store (cp + 1) [UInt8.ofNat c.h.acceptH.val]))
    else (.pending, c)
  else (.errNotopen, c)

/-- `pbuf_alloc`, `pbuf_take` and `udp_sendto`, call number `k`: was there a buffer, and did the
stack take the datagram? -/
def udpSendto (k : Nat) (s : Stack) (pcb : Nat) (ip : Ip) (port : UInt16) (payload : List UInt8) :
    Result × Stack :=
  if a.pbufAlloc k = false then (.errNomem, s)
  else if a.udpSendto k = false then (.errConn, s)
  else (.ok, s.emit (.udp pcb ip port payload))

def doUdpSendto : Result × Ctx :=
  let len := c.jim.rd24 (cp + 7)
  let jimoff := c.jim.rd32 (cp + 10)
  match c.h.type, c.h.upcb with
  | .udp, some pcb =>
      if len > 0xFFFF ∨ netBufferOk jimoff len = false then (.errParam, c)
      else if a.addressReady = false then (.pending, c)
      else
        let r := udpSendto a 0 c.stack pcb (c.jim.ipFromWire (cp + 1)) (c.jim.rd16 (cp + 5))
          (c.jim.load (jimoff + base) len)
        if r.1 ≠ .ok then (r.1, c.withStack r.2)
        else (.ok, (c.withStack r.2).withJim (c.jim.wr24 (cp + 7) len))
  | _, _ => (.errNotopen, c)

def recordLen (h : Handle) : Nat := (rdU16 (ringGetMem h 8).1 6).toNat

/-- How many bytes of the record at the front a reader with room for `max` is told of. -/
def recordCopy (h : Handle) (max : Nat) : Nat := if recordLen h < max then recordLen h else max

/-- Take the oldest record off the ring, `max` bytes of its payload: the header, the bytes and
the handle after. -/
def takeRecord (h : Handle) (max : Nat) : List UInt8 × List UInt8 × Handle :=
  let got := ringGet (ringGetMem h 8).2 (recordCopy h max)
  ((ringGetMem h 8).1, got.1, ringDiscardRest got.2 (recordLen h) (recordCopy h max))

def doUdpRecvfrom : Result × Ctx :=
  let jimoff := c.jim.rd32 (cp + 10)
  let maxlen := c.jim.rd24 (cp + 7)
  if c.h.type ≠ .udp then (.errNotopen, c)
  else if netBufferOk jimoff maxlen = false then (.errParam, c)
  else if c.h.ring.count < 8 then (.ok, c.withJim (c.jim.wr24 (cp + 7) 0))
  else
    let r := takeRecord c.h maxlen
    let jim := c.jim.store (cp + 1) (r.1.take 6)
    let jim := jim.store (jimoff + base) r.2.1
    (.ok, (c.withH r.2.2).withJim (jim.wr24 (cp + 7) (recordCopy c.h maxlen)))

def doDns : Result × Ctx :=
  if c.h.state = .free then (.errNotopen, c)
  else if c.h.state = .resolving then (.pending, c)
  else if c.h.dnsDone then
    if c.h.dnsOk = false then (.errDns, c.withH { c.h with dnsDone := false })
    else
      (.ok,
        (c.withH { c.h with dnsDone := false }).withJim (c.jim.ipToWire (cp + 4) c.h.dnsIp))
  else
    match netString base c.jim (cp + 1) with
    | none => (.errParam, c)
    | some name =>
        match a.dns with
        | .cached ip =>
            (.ok, (c.withH { c.h with dnsIp := ip }).withJim (c.jim.ipToWire (cp + 4) ip))
        | .inProgress =>
            (.pending,
              (c.withH { c.h with state := .resolving }).withStack (c.stack.ask ⟨name, i⟩))
        | .failed => (.errDns, c)

/-- `net_start_connect`: a pcb with this handle's callbacks, and a connect on it. -/
def netStartConnect (h : Handle) (s : Stack) : Result × Handle × Stack :=
  if a.tcpNew = false then (.errNomem, { h with tpcb := none }, s)
  else
    let h := { h with tpcb := some s.nextPcb }
    let s := s.add ⟨.tcp, some i⟩
    if a.tcpConnect = false then
      let r := netPcbRelease h s
      (.errConn, { r.1 with state := .error, lastErr := .errConn }, r.2)
    else (.pending, { h with state := .connecting }, s)

def doConnect : Result × Ctx :=
  if c.h.type ≠ .tcp ∨ c.h.state = .free then (.errNotopen, c)
  else if c.h.state = .connected then (.ok, c)
  else if c.h.state = .error then (.errConn, c)
  else if c.h.state = .connecting then (.pending, c)
  else if c.h.state ≠ .idle then (.errNotopen, c)
  else if a.addressReady = false then (.pending, c)
  else
    let h :=
      { c.h with remoteIp := c.jim.ipFromWire (cp + 1), remotePort := c.jim.rd16 (cp + 5) }
    let r := netStartConnect a i h c.stack
    (r.1, { c with h := r.2.1, stack := r.2.2 })

def doSend : Result × Ctx :=
  let len := c.jim.rd24 (cp + 1)
  let jimoff := c.jim.rd32 (cp + 4)
  match c.h.type, c.h.tpcb, c.h.state with
  | .tcp, some pcb, .connected =>
      if netBufferOk jimoff len = false then (.errParam, c)
      else
        let want := if len > a.sndbuf.toNat then a.sndbuf.toNat else len
        if want = 0 then (.ok, c.withJim (c.jim.wr24 (cp + 1) 0))
        else
          match a.tcpWrite 0 with
          | .mem => (.ok, c.withJim (c.jim.wr24 (cp + 1) 0))
          | .other => (.errConn, c)
          | .ok =>
              (.ok,
                (c.withStack (c.stack.emit (.tcp pcb (c.jim.load (jimoff + base) want)))).withJim
                  (c.jim.wr24 (cp + 1) want))
  | _, _, _ => (.errNotopen, c)

def streamEnd (h : Handle) (got : Nat) : Result :=
  if got = 0 ∧ h.ring.count = 0 then
    if h.rxEof then .eof else if h.state = .error then h.lastErr.orConn else .ok
  else .ok

/-- Hand over what the ring holds, up to `max` bytes. -/
def streamRead (c : Ctx) (jimoff max : Nat) : Result × Ctx :=
  let r := ringGet c.h max
  (streamEnd r.2 r.1.length,
    (c.withH r.2).withJim ((c.jim.store (jimoff + base) r.1).wr24 (cp + 1) r.1.length))

def doRecv : Result × Ctx :=
  let max := c.jim.rd24 (cp + 1)
  let jimoff := c.jim.rd32 (cp + 4)
  if c.h.state = .free then (.errNotopen, c)
  else if netBufferOk jimoff max = false then (.errParam, c)
  else streamRead base cp c jimoff max

def doRecvAvail : Result × Ctx :=
  if c.h.state = .free then (.errNotopen, c)
  else (.ok, c.withJim (c.jim.wr24 (cp + 1) c.h.ring.count))

def doStatus : Result × Ctx :=
  let flags :=
    (if c.h.state = .connected then NET_FLAG_CONNECTED else 0)
      ||| (if c.h.rxEof then NET_FLAG_RX_EOF else 0)
      ||| (if c.h.state = .error then NET_FLAG_ERROR else 0)
      ||| (if c.h.ring.count ≠ 0 then NET_FLAG_RX_READY else 0)
  let jim := c.jim.store (cp + 1) [c.h.state.code, flags]
  let jim := jim.ipToWire (cp + 3) (if 3 ≤ c.h.state.code then c.h.remoteIp else 0)
  let jim := jim.store (cp + 7) (le16 c.h.remotePort)
  (.ok, c.withJim (jim.wr24 (cp + 9) c.h.ring.count))

def netTnfsSendRaw (k : Nat) (h : Handle) (s : Stack) (req : List UInt8) : Stack :=
  match h.upcb with
  | none => s
  | some pcb =>
      if req = [] then s else (udpSendto a k s pcb h.remoteIp h.remotePort req).2

/-- The descriptor close of a TNFS teardown, if the phase says something is open: the handle
with its sequence advanced, and the stack. -/
def tnfsTeardownClose (h : Handle) (s : Stack) : Handle × Stack :=
  if h.tnfsPhase = .ready ∨ h.tnfsPhase = .reading then
    let h := { h with tnfsSeq := h.tnfsSeq + 1 }
    let req :=
      if h.tnfsIsDir then tnfsBuildClosedir 16 h.tnfsConnid h.tnfsSeq h.tnfsFd
      else tnfsBuildClose 16 h.tnfsConnid h.tnfsSeq h.tnfsFd
    (h, netTnfsSendRaw a 0 h s (req.getD []))
  else (h, s)

def tnfsTeardown (h : Handle) (s : Stack) : Handle × Stack :=
  if h.isUrl ∧ h.urlAdapter = .tnfs ∧ h.upcb.isSome ∧ h.tnfsConnid ≠ 0 then
    let r := tnfsTeardownClose a h s
    let h := { r.1 with tnfsSeq := r.1.tnfsSeq + 1 }
    (h, netTnfsSendRaw a 1 h r.2 ((tnfsBuildUmount 16 h.tnfsConnid h.tnfsSeq).getD []))
  else (h, s)

def doClose : Result × Ctx :=
  if c.h.state = .free then (.ok, c.withH { c.h with urlPhase := .start, lastErr := .ok })
  else
    let t := tnfsTeardown a c.h c.stack
    let r := netPcbRelease t.1 t.2
    (.ok, { c with h := r.1.reset, stack := r.2 })

end

end Pi1MHz.Net
