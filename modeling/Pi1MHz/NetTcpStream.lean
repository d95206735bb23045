import Pi1MHz.History
import Pi1MHz.NetRing
import Pi1MHz.FinSizes

/-!
# The receive stream of a raw TCP handle

lwIP cuts the peer's bytes into chains and presents them one after another; a chain refused with
`ERR_MEM` is presented again before anything later, and the FIN comes when no chain is left.
lwIP calls the receive callback with `ERR_OK` only, and presents nothing once it has freed the
pcb.
-/

namespace Pi1MHz.Net

open FinSizes

structure FreshTcp (h : Handle) : Prop where
  state : h.state = .connected
  raw : h.isUrl = false
  ring : h.ring.WellFormed
  empty : h.ring.count = 0
  noEof : h.rxEof = false

structure TcpLink where
  h : Handle
  stack : Stack
  unsent : List Chain
  delivered : List UInt8

inductive TcpLinkOp where
  | present (a : Answers)
  | err
  /-- The Beeb issues `recv`. -/
  | recv (jim : Jim) (cp : Nat)

variable (base : Nat)

/-- What a `recv` writes to the Beeb's buffer. -/
def recvWritten (h : Handle) (jim : Jim) (cp : Nat) : List UInt8 :=
  if h.state = .free then []
  else if netBufferOk (jim.rd32 (cp + 4)) (jim.rd24 (cp + 1)) = false then []
  else (ringGet h (jim.rd24 (cp + 1))).1

def TcpLink.present (l : TcpLink) (a : Answers) : TcpLink :=
  if l.h.tpcb = none then l
  else
    match l.unsent with
    | [] =>
        let r := netTcpRecv a l.h l.stack none true
        { l with h := r.2.1, stack := r.2.2 }
    | p :: rest =>
        let r := netTcpRecv a l.h l.stack (some p) true
        { l with h := r.2.1, stack := r.2.2, unsent := if r.1 = .ok then rest else p :: rest }

def TcpLink.step (l : TcpLink) : TcpLinkOp → TcpLink
  | .present a => l.present a
  | .err => { l with h := netTcpErr l.h }
  | .recv jim cp =>
      { l with
        h := (doRecv base cp ⟨jim, l.h, l.stack⟩).2.h
        delivered := l.delivered ++ recvWritten l.h jim cp }

def bytesOf (chains : List Chain) : List UInt8 := (chains.map Chain.bytes).flatten

structure TcpLink.Inv (stream : List UInt8) (l : TcpLink) : Prop where
  raw : l.h.isUrl = false
  ring : l.h.ring.WellFormed
  conserved : l.delivered ++ l.h.ring.contents ++ bytesOf l.unsent = stream
  eof : l.h.rxEof = true → l.unsent = []
  err : l.h.state = .error → l.h.lastErr = .errConn

theorem netTcpRecv_raw (a : Answers) {h : Handle} (s : Stack)
    (hraw : ¬(h.isUrl = true ∧ h.urlAdapter = .telnet)) (hw : h.ring.WellFormed) (p : Chain) :
    netTcpRecv a h s (some p) true =
      if p.totLen > NET_RX_RING_SIZE - h.ring.count then (.mem, { h with rxParked := true }, s)
      else (.ok, { ringPutMem h p.bytes with rxParked := false }, s) := by
  simp only [netTcpRecv, Bool.true_eq_false, if_false, ringFree_eq hw.count, ringPutPbuf_eq hw,
    if_neg hraw]

section

variable {l : TcpLink} {stream : List UInt8}

theorem TcpLink.Inv.present (hi : l.Inv stream) (a : Answers) : (l.present a).Inv stream := by
  obtain ⟨hraw, hw, hcons, heof, herr⟩ := hi
  unfold TcpLink.present
  split
  · exact ⟨hraw, hw, hcons, heof, herr⟩
  · split
    · next hnil => exact ⟨hraw, hw, hcons, fun _ => hnil, herr⟩
    · next p rest hunsent =>
      rw [netTcpRecv_raw a l.stack (by simp [hraw]) hw p]
      have hnoEof : l.h.rxEof = true → False := fun h => by
        simpa [hunsent] using heof h
      split
      · -- refused: lwIP keeps the chain
        exact ⟨hraw, hw, hunsent ▸ hcons, fun h => (hnoEof h).elim, herr⟩
      · next hfit =>
        have hcount := hw.count
        have hroom : l.h.ring.count + p.bytes.length ≤ NET_RX_RING_SIZE := by
          change ¬p.bytes.length > NET_RX_RING_SIZE - l.h.ring.count at hfit
          omega
        refine ⟨hraw, ringPutMem_wellFormed hw hroom, ?_, fun h => (hnoEof h).elim, herr⟩
        change l.delivered ++ (ringPutMem l.h p.bytes).ring.contents ++ bytesOf rest = stream
        rw [contents_ringPutMem hw hroom, ← hcons, hunsent]
        simp [bytesOf]

/-! ### One `recv` -/

theorem doRecv_cases (h : Handle) (s : Stack) (jim : Jim) (cp : Nat) :
    (recvWritten h jim cp = [] ∧ (doRecv base cp ⟨jim, h, s⟩).1 ≠ .eof ∧
        (doRecv base cp ⟨jim, h, s⟩).2 = ⟨jim, h, s⟩) ∨
      (recvWritten h jim cp = (ringGet h (jim.rd24 (cp + 1))).1 ∧
        doRecv base cp ⟨jim, h, s⟩ =
          streamRead base cp ⟨jim, h, s⟩ (jim.rd32 (cp + 4)) (jim.rd24 (cp + 1))) := by
  simp only [doRecv, recvWritten]
  split
  · exact .inl ⟨rfl, nofun, rfl⟩
  · split
    · exact .inl ⟨rfl, nofun, rfl⟩
    · exact .inr ⟨rfl, rfl⟩

theorem TcpLink.Inv.recv (hi : l.Inv stream) (jim : Jim) (cp : Nat) :
    (l.step base (.recv jim cp)).Inv stream := by
  obtain ⟨hraw, hw, hcons, heof, herr⟩ := hi
  unfold TcpLink.step
  dsimp only
  rcases doRecv_cases base l.h l.stack jim cp with ⟨hwritten, -, hc⟩ | ⟨hwritten, hc⟩
  · rw [hc, hwritten, List.append_nil]
    exact ⟨hraw, hw, hcons, heof, herr⟩
  · rw [hc, hwritten]
    refine ⟨hraw, ringGet_wellFormed hw _, ?_, heof, herr⟩
    change l.delivered ++ (ringGet l.h (jim.rd24 (cp + 1))).1 ++
      (ringGet l.h (jim.rd24 (cp + 1))).2.ring.contents ++ bytesOf l.unsent = stream
    rw [ringGet_fst, contents_ringGet hw, ← hcons, List.append_assoc l.delivered,
      List.take_append_drop]

theorem doRecv_eof {h : Handle} {s : Stack} {jim : Jim} {cp : Nat} (hw : h.ring.WellFormed)
    (herr : h.state = .error → h.lastErr = .errConn)
    (heof : (doRecv base cp ⟨jim, h, s⟩).1 = .eof) : h.rxEof = true ∧ h.ring.contents = [] := by
  rcases doRecv_cases base h s jim cp with ⟨-, hne, -⟩ | ⟨-, hc⟩
  · exact absurd heof hne
  have hcount := count_ringGet hw (jim.rd24 (cp + 1))
  have hlen := congrArg List.length (ringGet_fst (h := h) (jim.rd24 (cp + 1)))
  rw [List.length_take, RingStream.Ring.length_contents] at hlen
  simp only [hc, streamRead, streamEnd] at heof
  split at heof
  · next hend =>
    split at heof
    · next hfin =>
      refine ⟨hfin, List.eq_nil_of_length_eq_zero ?_⟩
      rw [RingStream.Ring.length_contents]
      omega
    · split at heof
      · -- a broken connection has its own code
        next hstate =>
        have hlast : (ringGet h (jim.rd24 (cp + 1))).2.lastErr = .errConn := herr hstate
        rw [hlast] at heof
        cases heof
      · cases heof
  · cases heof

end

theorem TcpLink.Inv.step {l : TcpLink} {stream : List UInt8} (hi : l.Inv stream) (op : TcpLinkOp) :
    (l.step base op).Inv stream := by
  cases op with
  | present a => exact hi.present a
  | err => exact ⟨hi.raw, hi.ring, hi.conserved, hi.eof, fun _ => rfl⟩
  | recv jim cp => exact hi.recv base jim cp

theorem FreshTcp.inv {h : Handle} (hf : FreshTcp h) (s : Stack) (chains : List Chain) :
    TcpLink.Inv (bytesOf chains) ⟨h, s, chains, []⟩ := by
  have hnil : h.ring.contents = [] :=
    List.eq_nil_of_length_eq_zero (by rw [RingStream.Ring.length_contents, hf.empty])
  refine ⟨hf.raw, hf.ring, ?_, ?_, ?_⟩
  · change [] ++ h.ring.contents ++ bytesOf chains = bytesOf chains
    rw [hnil]
    rfl
  · intro heof
    rw [hf.noEof] at heof
    cases heof
  · intro herr
    rw [hf.state] at herr
    cases herr

theorem TcpLink.Inv.run {l : TcpLink} {stream : List UInt8} (hi : l.Inv stream)
    (ops : List TcpLinkOp) : (History.final (TcpLink.step base) l ops).Inv stream := by
  induction ops generalizing l with
  | nil => exact hi
  | cons op ops ih => exact ih (hi.step base op)

theorem acceptedHandle_fresh (nh : Handle) (newpcb : Nat) (ip : Ip) (port : UInt16) :
    FreshTcp (acceptedHandle nh newpcb ip port) :=
  ⟨rfl, rfl, RingStream.Ring.WellFormed.clear nh.ring, rfl, rfl⟩

/-! ### The stream -/

/-- However the stream is cut into chains and the reads are sized, what the Beeb was given is a
prefix of it, EOF comes after all of it, and the ring's count is that of head and tail. -/
theorem tcp_receive_stream (h : Handle) (hf : FreshTcp h) (s : Stack) (chains : List Chain)
    (ops : List TcpLinkOp) :
    let l := History.final (TcpLink.step base) ⟨h, s, chains, []⟩ ops
    l.delivered <+: bytesOf chains ∧
      l.delivered ++ l.h.ring.contents ++ bytesOf l.unsent = bytesOf chains ∧
      l.h.ring.count ≤ NET_RX_RING_SIZE ∧
      (l.h.ring.count = (l.h.ring.head + NET_RX_RING_SIZE - l.h.ring.tail) % NET_RX_RING_SIZE ∨
        l.h.ring.count = NET_RX_RING_SIZE ∧ l.h.ring.head = l.h.ring.tail) ∧
      ∀ jim cp, ((doRecv base cp ⟨jim, l.h, l.stack⟩).1 = .eof → l.delivered = bytesOf chains) ∧
        (recvWritten l.h jim cp ≠ [] →
          (doRecv base cp ⟨jim, l.h, l.stack⟩).2.jim =
            (jim.store (jim.rd32 (cp + 4) + base) (recvWritten l.h jim cp)).wr24 (cp + 1)
              (recvWritten l.h jim cp).length) := by
  intro l
  have hi : l.Inv (bytesOf chains) := (hf.inv s chains).run base ops
  refine ⟨?_, hi.conserved, hi.ring.count, hi.ring.count_eq, fun jim cp => ⟨?_, ?_⟩⟩
  · rw [← hi.conserved, List.append_assoc]
    exact List.prefix_append _ _
  · intro heof
    obtain ⟨hfin, hempty⟩ := doRecv_eof base hi.ring hi.err heof
    have hcons := hi.conserved
    rwa [hempty, hi.eof hfin, List.append_nil, bytesOf, List.map_nil, List.flatten_nil,
      List.append_nil] at hcons
  · intro hwritten
    rcases doRecv_cases base l.h l.stack jim cp with ⟨hnil, -⟩ | ⟨hsome, hc⟩
    · exact absurd hnil hwritten
    · rw [hc, hsome]
      rfl

def exampleLink : TcpLink :=
  ⟨acceptedHandle { ring := ⟨fun _ => 0, 0, 0, 0⟩ } 0 0 80, {}, [⟨[[1, 2], [3]], by decide⟩], []⟩

/-- A `recv` of two bytes. -/
def recvTwo : TcpLinkOp := .recv (fun x => if x = 1 then 2 else 0) 0

theorem tcp_receive_stream_accepted :
    (History.final (TcpLink.step 64) exampleLink [.present {}, recvTwo]).delivered = [1, 2] ∧
      (History.final (TcpLink.step 64) exampleLink [.present {}, recvTwo]).delivered <+:
        bytesOf exampleLink.unsent :=
  ⟨by decide,
    (tcp_receive_stream 64 exampleLink.h (acceptedHandle_fresh _ _ _ _) {} exampleLink.unsent
      [.present {}, recvTwo]).1⟩

end Pi1MHz.Net
