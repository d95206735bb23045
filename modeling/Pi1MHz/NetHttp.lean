import Mathlib.Tactic.IntervalCases
import Pi1MHz.NetTcpStream
import Pi1MHz.NetUrlCommands
import Pi1MHz.FinSizes

/-!
# The body of an HTTP response

`do_url_read` of an HTTP URL.  Nothing is handed over until the ring holds the first CRLFCRLF; then the
status code is read off the front of the ring, the headers are dropped, and what follows is handed over as
the Beeb reads.  lwIP presents the response as it presents any stream (`TcpLink`).
-/

namespace Pi1MHz.Net

open FinSizes

/-! ### The end of the headers -/

def crlfcrlf : List UInt8 := [0x0D, 0x0A, 0x0D, 0x0A]

/-- The first CRLFCRLF of a stream starts at `n`. -/
structure HeaderEnd (stream : List UInt8) (n : Nat) : Prop where
  ends : (stream.drop n).take 4 = crlfcrlf
  first : ∀ j < n, (stream.drop j).take 4 ≠ crlfcrlf

theorem HeaderEnd.length {stream : List UInt8} {n : Nat} (h : HeaderEnd stream n) : n + 4 ≤ stream.length := by
  have hlen := congrArg List.length h.ends
  rw [List.length_take, List.length_drop] at hlen
  have hfour : crlfcrlf.length = 4 := rfl
  omega

theorem httpHeadersEnd_cons (c : UInt8) (rest : List UInt8) (i : Nat) :
    httpHeadersEnd (c :: rest) i =
      if ((c :: rest).drop 0).take 4 = crlfcrlf then i + 4 else httpHeadersEnd rest (i + 1) := rfl

theorem httpHeadersEnd_found {xs : List UInt8} {n : Nat} (h : HeaderEnd xs n) (i : Nat) :
    httpHeadersEnd xs i = i + n + 4 := by
  induction xs generalizing n i with
  | nil => cases h.length
  | cons c rest ih =>
    rw [httpHeadersEnd_cons]
    cases n with
    | zero => rw [if_pos h.ends, Nat.add_zero]
    | succ n =>
      rw [if_neg (h.first 0 (Nat.succ_pos n)), ih ⟨h.ends, fun j hj => h.first (j + 1) (Nat.succ_lt_succ hj)⟩]
      omega

theorem httpHeadersEnd_none {xs : List UInt8} (h : ∀ j, (xs.drop j).take 4 ≠ crlfcrlf) (i : Nat) :
    httpHeadersEnd xs i = 0 := by
  induction xs generalizing i with
  | nil => rfl
  | cons c rest ih =>
    rw [httpHeadersEnd_cons, if_neg (h 0)]
    exact ih (fun j => h (j + 1)) (i + 1)

theorem httpHeadersEnd_take {stream : List UInt8} {n : Nat} (h : HeaderEnd stream n) (m : Nat) :
    httpHeadersEnd (stream.take m) 0 = if n + 4 ≤ m then n + 4 else 0 := by
  have hpart : ∀ j, ((stream.take m).drop j).take 4 = ((stream.drop j).take 4).take (m - j) := by
    intro j
    rw [List.drop_take, List.take_take, List.take_take, Nat.min_comm]
  have hlong : ∀ j, j + 4 ≤ m → ((stream.take m).drop j).take 4 = (stream.drop j).take 4 := by
    intro j hj
    rw [hpart, List.take_take, Nat.min_eq_right (by omega)]
  have hshort : ∀ j, m < j + 4 → ((stream.take m).drop j).take 4 ≠ crlfcrlf := by
    intro j hj heq
    have hlen := congrArg List.length heq
    rw [hpart, List.length_take] at hlen
    have hfour : crlfcrlf.length = 4 := rfl
    omega
  by_cases hm : n + 4 ≤ m
  · rw [if_pos hm, httpHeadersEnd_found (n := n) ⟨(hlong n hm).trans h.ends, ?_⟩, Nat.zero_add]
    intro j hj
    rw [hlong j (by omega)]
    exact h.first j hj
  · rw [if_neg hm]
    apply httpHeadersEnd_none
    intro j
    by_cases hj : j + 4 ≤ m
    · rw [hlong j hj]
      exact h.first j (by omega)
    · exact hshort j (by omega)

/-! ### The status code -/

theorem httpStatus_stop {xs : List UInt8} {after : Bool} (h : after = true ∨ (0x20 : UInt8) ∈ xs) {c : UInt8}
    (hc : isDigit c = false) (ys : List UInt8) (code : UInt16) :
    httpStatus (xs ++ c :: ys) after code = httpStatus xs after code := by
  induction xs generalizing after code with
  | nil =>
    rcases h with rfl | hmem
    · simp only [List.nil_append, httpStatus, Bool.true_eq_false, Bool.false_eq_true, if_false, hc]
    · cases hmem
  | cons x xs ih =>
    rw [List.cons_append, httpStatus, httpStatus]
    cases after with
    | false =>
      simp only [if_true]
      apply ih
      rcases h with hfalse | hmem
      · cases hfalse
      · rcases List.mem_cons.mp hmem with hx | hxs
        · left
          rw [← hx]
          rfl
        · exact .inr hxs
    | true =>
      simp only [Bool.true_eq_false, if_false]
      split
      · exact ih (.inl rfl) _
      · rfl

def CodeInHeaders (stream : List UInt8) (n : Nat) : Prop := 64 ≤ n + 4 ∨ (0x20 : UInt8) ∈ stream.take n

theorem httpStatus_take {stream : List UInt8} {n : Nat} (h : HeaderEnd stream n) (hcode : CodeInHeaders stream n)
    {m : Nat} (hm : n + 4 ≤ m) :
    httpStatus ((stream.take m).take 64) false 0 = httpStatus (stream.take 64) false 0 := by
  by_cases hlong : 64 ≤ n + 4
  · rw [List.take_take, Nat.min_eq_left (by omega)]
  · have hblank := hcode.resolve_left hlong
    have hlen := h.length
    -- the carriage return that ends the headers ends the code
    have hcr : stream.drop n = 0x0D :: stream.drop (n + 1) := by
      have hends := h.ends
      rw [← List.getElem_cons_drop (show n < stream.length by omega)] at hends ⊢
      rw [List.take_succ_cons, crlfcrlf, List.cons.injEq] at hends
      rw [hends.1]
    have hcut : ∀ k, n < k → httpStatus (stream.take k) false 0 = httpStatus (stream.take n) false 0 := by
      intro k hk
      have hsplit : stream.take k = stream.take n ++ 0x0D :: (stream.drop (n + 1)).take (k - n - 1) := by
        obtain ⟨d, rfl⟩ := Nat.exists_eq_add_of_lt hk
        rw [show n + d + 1 - n - 1 = d from by omega, show n + d + 1 = n + (d + 1) from rfl, List.take_add, hcr,
          List.take_succ_cons]
      rw [hsplit]
      exact httpStatus_stop (.inr hblank) (by decide) _ _
    rw [List.take_take, hcut (min 64 m) (by omega), hcut 64 (by omega)]

/-! ### One `url_read` -/

structure FreshHttp (h : Handle) : Prop where
  state : h.state = .connected
  url : h.isUrl = true
  adapter : h.urlAdapter = .http
  ring : h.ring.WellFormed
  empty : h.ring.count = 0
  noEof : h.rxEof = false
  noHeaders : h.httpHdrDone = false
  notParked : h.rxParked = false

section

variable (base : Nat)

def httpBody (h : Handle) : Option Handle :=
  if h.httpHdrDone then some h
  else if netHttpFindHeaders h = 0 then none
  else some (httpEatHeaders h (netHttpFindHeaders h))

/-- The block of a `url_read` names a buffer, and the handle is open. -/
def urlReadGood (h : Handle) (jim : Jim) (cp : Nat) : Prop :=
  h.state ≠ .free ∧ netBufferOk (jim.rd32 (cp + 4)) (jim.rd24 (cp + 1)) = true

instance (h : Handle) (jim : Jim) (cp : Nat) : Decidable (urlReadGood h jim cp) :=
  inferInstanceAs (Decidable (_ ∧ _))

/-- What a `url_read` of an HTTP URL writes to the Beeb's buffer. -/
def urlReadWritten (h : Handle) (jim : Jim) (cp : Nat) : List UInt8 :=
  if urlReadGood h jim cp then
    match httpBody h with
    | none => []
    | some h => (ringGet h (jim.rd24 (cp + 1))).1
  else []

theorem doUrlRead_http (a : Answers) {h : Handle} (hhttp : h.urlAdapter = .http) (s : Stack) (jim : Jim) (cp : Nat) :
    doUrlRead base a cp ⟨jim, h, s⟩ =
      if urlReadGood h jim cp then
        match httpBody h with
        | none => urlReadHttpWait cp ⟨jim, h, s⟩
        | some h => streamRead base cp ⟨jim, h, s⟩ (jim.rd32 (cp + 4)) (jim.rd24 (cp + 1))
      else (if h.state = .free then .errNotopen else .errParam, ⟨jim, h, s⟩) := by
  unfold doUrlRead urlReadGood httpBody
  dsimp only
  by_cases hfree : h.state = .free
  · simp only [hfree, ne_eq, not_true, false_and, if_true, if_false]
  · by_cases hbuf : netBufferOk (jim.rd32 (cp + 4)) (jim.rd24 (cp + 1)) = true
    · simp only [hbuf, ne_eq, hfree, not_false_eq_true, true_and, if_true, Bool.true_eq_false, if_false, hhttp]
      by_cases hdone : h.httpHdrDone = true
      · simp only [if_pos hdone]
      · simp only [if_neg hdone]
        by_cases hfind : netHttpFindHeaders h = 0
        · simp only [if_pos hfind]
        · simp only [if_neg hfind]
          rfl
    · rw [Bool.not_eq_true] at hbuf
      simp only [if_neg hfree, hbuf, Bool.false_eq_true, and_false, if_true, if_false]

theorem urlReadHttpWait_fst (h : Handle) (s : Stack) (jim : Jim) (cp : Nat) :
    (urlReadHttpWait cp ⟨jim, h, s⟩).1 =
      if h.rxParked = true ∨ NET_RX_RING_SIZE - 1 ≤ h.ring.count then .errConn
      else if h.rxEof = true then .eof
      else if h.state = .error then h.lastErr.orConn
      else .ok := by
  unfold urlReadHttpWait
  dsimp only [Ctx.withJim, Ctx.withH]
  split
  · rfl
  · split
    · rfl
    · split
      · rfl
      · rfl

/-! ### The response on its way -/

inductive HttpLinkOp where
  | present (a : Answers)
  | err
  /-- The Beeb issues `url_read`. -/
  | read (a : Answers) (jim : Jim) (cp : Nat)

def TcpLink.httpStep (l : TcpLink) : HttpLinkOp → TcpLink
  | .present a => l.present a
  | .err => { l with h := netTcpErr l.h }
  | .read a jim cp =>
      { l with
        h := (doUrlRead base a cp ⟨jim, l.h, l.stack⟩).2.h
        delivered := l.delivered ++ urlReadWritten l.h jim cp }

/-- While the headers are incomplete nothing has left the ring, and a chain that is refused does not fit
behind what has come. -/
structure Waiting (chains : List Chain) (l : TcpLink) (k : Nat) : Prop where
  nothing : l.delivered = []
  arrived : l.h.ring.contents = bytesOf (chains.take k)
  rest : l.unsent = chains.drop k
  parked : l.h.rxParked = true → NET_RX_RING_SIZE < (bytesOf (chains.take (k + 1))).length

structure TcpLink.HttpInv (chains : List Chain) (n : Nat) (l : TcpLink) : Prop where
  url : l.h.isUrl = true
  adapter : l.h.urlAdapter = .http
  ring : l.h.ring.WellFormed
  state : l.h.state = .connected ∨ l.h.state = .error
  eof : l.h.rxEof = true → l.unsent = []
  err : l.h.state = .error → l.h.lastErr = .errConn
  before : l.h.httpHdrDone = false → ∃ k, Waiting chains l k
  after : l.h.httpHdrDone = true →
    l.delivered ++ l.h.ring.contents ++ bytesOf l.unsent = (bytesOf chains).drop (n + 4)
  code : l.h.httpHdrDone = true → CodeInHeaders (bytesOf chains) n →
    l.h.httpCode = httpStatus ((bytesOf chains).take 64) false 0

variable {l : TcpLink} {chains : List Chain} {n : Nat}

theorem bytesOf_append (xs ys : List Chain) : bytesOf (xs ++ ys) = bytesOf xs ++ bytesOf ys := by
  rw [bytesOf, bytesOf, bytesOf, List.map_append, List.flatten_append]

theorem bytesOf_take_drop (chains : List Chain) (k : Nat) :
    bytesOf (chains.take k) ++ bytesOf (chains.drop k) = bytesOf chains := by
  rw [← bytesOf_append, List.take_append_drop]

theorem Waiting.front {k : Nat} (h : Waiting chains l k) :
    l.h.ring.contents = (bytesOf chains).take l.h.ring.count := by
  have hlen := congrArg List.length h.arrived
  rw [RingStream.Ring.length_contents] at hlen
  rw [← bytesOf_take_drop chains k, hlen, List.take_left, h.arrived]

theorem netHttpFindHeaders_eq (hend : HeaderEnd (bytesOf chains) n) {k : Nat} (h : Waiting chains l k) :
    netHttpFindHeaders l.h = if n + 4 ≤ l.h.ring.count then n + 4 else 0 := by
  rw [netHttpFindHeaders, RingStream.Ring.front_eq (Nat.le_refl _), h.front, List.take_take, Nat.min_self]
  exact httpHeadersEnd_take hend _

theorem TcpLink.HttpInv.present (hi : l.HttpInv chains n) (a : Answers) : (l.present a).HttpInv chains n := by
  unfold TcpLink.present
  split
  · exact hi
  · split
    · next hnil =>
      refine ⟨hi.url, hi.adapter, hi.ring, hi.state, fun _ => hnil, hi.err, ?_, hi.after, hi.code⟩
      intro hdone
      obtain ⟨k, hw⟩ := hi.before hdone
      exact ⟨k, hw.nothing, hw.arrived, hw.rest, hw.parked⟩
    · next p rest hunsent =>
      have hplain : ¬(l.h.isUrl = true ∧ l.h.urlAdapter = .telnet) := by
        rw [hi.adapter]
        exact fun h => absurd h.2 (by simp)
      have hnoEof : l.h.rxEof = true → False := by
        intro h
        have hnil := hi.eof h
        rw [hunsent] at hnil
        cases hnil
      have hnext : ∀ k, Waiting chains l k → rest = chains.drop (k + 1) ∧
          bytesOf (chains.take (k + 1)) = l.h.ring.contents ++ p.bytes := by
        intro k hw
        have hdrop := hw.rest
        rw [hunsent] at hdrop
        have hget : chains[k]? = some p := by
          rw [← List.head?_drop, ← hdrop]
          rfl
        constructor
        · rw [← List.tail_drop, ← hdrop]
          rfl
        · rw [List.take_add_one, hget, bytesOf_append, ← hw.arrived]
          simp only [bytesOf, Option.toList, List.map_cons, List.map_nil, List.flatten_cons, List.flatten_nil,
            List.append_nil]
      rw [netTcpRecv_raw a l.stack hplain hi.ring p]
      split
      · next hfull =>
        -- refused: lwIP keeps the chain
        refine ⟨hi.url, hi.adapter, hi.ring, hi.state, fun h => (hnoEof h).elim, hi.err, ?_,
          hunsent ▸ hi.after, hi.code⟩
        intro hdone
        obtain ⟨k, hw⟩ := hi.before hdone
        refine ⟨k, hw.nothing, hw.arrived, hunsent ▸ hw.rest, ?_⟩
        intro _
        rw [(hnext k hw).2, List.length_append, RingStream.Ring.length_contents]
        change p.bytes.length > NET_RX_RING_SIZE - l.h.ring.count at hfull
        omega
      · next hfit =>
        have hcount := hi.ring.count
        have hroom : l.h.ring.count + p.bytes.length ≤ NET_RX_RING_SIZE := by
          change ¬p.bytes.length > NET_RX_RING_SIZE - l.h.ring.count at hfit
          omega
        have hcontents := contents_ringPutMem hi.ring hroom
        refine ⟨hi.url, hi.adapter, ringPutMem_wellFormed hi.ring hroom, hi.state, fun h => (hnoEof h).elim,
          hi.err, ?_, ?_, hi.code⟩
        · intro hdone
          obtain ⟨k, hw⟩ := hi.before hdone
          obtain ⟨hrest, hbytes⟩ := hnext k hw
          exact ⟨k + 1, hw.nothing, hcontents.trans hbytes.symm, hrest, (by intro h; cases h)⟩
        · intro hdone
          rw [← hi.after hdone, hunsent]
          change l.delivered ++ (ringPutMem l.h p.bytes).ring.contents ++ bytesOf rest = _
          rw [hcontents]
          simp only [bytesOf, List.map_cons, List.flatten_cons, List.append_assoc]

theorem httpBody_none (hi : l.HttpInv chains n) (hend : HeaderEnd (bytesOf chains) n)
    (hbody : httpBody l.h = none) : (∃ k, Waiting chains l k) ∧ l.h.ring.count < n + 4 := by
  unfold httpBody at hbody
  by_cases hdone : l.h.httpHdrDone = true
  · rw [if_pos hdone] at hbody
    cases hbody
  · obtain ⟨k, hw⟩ := hi.before (Bool.eq_false_iff.mpr hdone)
    refine ⟨⟨k, hw⟩, ?_⟩
    by_contra hshort
    have hm : n + 4 ≤ l.h.ring.count := Nat.le_of_not_lt hshort
    rw [if_neg hdone, netHttpFindHeaders_eq hend hw, if_pos hm, if_neg (Nat.succ_ne_zero _)] at hbody
    cases hbody

theorem TcpLink.HttpInv.body (hi : l.HttpInv chains n) (hend : HeaderEnd (bytesOf chains) n) {h : Handle}
    (hbody : httpBody l.h = some h) : ({ l with h := h } : TcpLink).HttpInv chains n ∧ h.httpHdrDone = true := by
  unfold httpBody at hbody
  by_cases hdone : l.h.httpHdrDone = true
  · rw [if_pos hdone, Option.some.injEq] at hbody
    subst hbody
    exact ⟨hi, hdone⟩
  · obtain ⟨k, hw⟩ := hi.before (Bool.eq_false_iff.mpr hdone)
    rw [if_neg hdone, netHttpFindHeaders_eq hend hw] at hbody
    by_cases hm : n + 4 ≤ l.h.ring.count
    · rw [if_pos hm, if_neg (by omega), Option.some.injEq] at hbody
      subst hbody
      refine ⟨⟨hi.url, hi.adapter, ringGetMem_wellFormed hi.ring hm, hi.state, hi.eof, hi.err, nofun, ?_, ?_⟩, rfl⟩
      · intro _
        change l.delivered ++ (ringGetMem l.h (n + 4)).2.ring.contents ++ bytesOf l.unsent = _
        rw [contents_ringGetMem hi.ring hm, hw.nothing, List.nil_append, hw.rest, ← bytesOf_take_drop chains k,
          List.drop_append_of_le_length, hw.arrived]
        rw [← hw.arrived, RingStream.Ring.length_contents]
        exact hm
      · intro _ hcode
        change httpStatus (l.h.ring.front (min l.h.ring.count 64)) false 0 = _
        rw [RingStream.Ring.front_eq (Nat.min_le_left _ _), hw.front, List.take_take,
          ← httpStatus_take hend hcode hm, List.take_take]
        congr 2
        omega
    · rw [if_neg hm, if_pos rfl] at hbody
      cases hbody

theorem TcpLink.HttpInv.take (hi : l.HttpInv chains n) (hdone : l.h.httpHdrDone = true) (max : Nat) :
    ({ l with h := (ringGet l.h max).2, delivered := l.delivered ++ (ringGet l.h max).1 } : TcpLink).HttpInv
      chains n := by
  refine ⟨hi.url, hi.adapter, ringGet_wellFormed hi.ring max, hi.state, hi.eof, hi.err, ?_, ?_, hi.code⟩
  · intro hnot
    have hsame : (ringGet l.h max).2.httpHdrDone = l.h.httpHdrDone := rfl
    rw [hsame, hdone] at hnot
    cases hnot
  · intro _
    change l.delivered ++ (ringGet l.h max).1 ++ (ringGet l.h max).2.ring.contents ++ bytesOf l.unsent = _
    rw [ringGet_fst, contents_ringGet hi.ring, List.append_assoc l.delivered, List.take_append_drop]
    exact hi.after hdone

theorem TcpLink.HttpInv.read (hi : l.HttpInv chains n) (hend : HeaderEnd (bytesOf chains) n) (a : Answers)
    (jim : Jim) (cp : Nat) : (l.httpStep base (.read a jim cp)).HttpInv chains n := by
  unfold TcpLink.httpStep urlReadWritten
  dsimp only
  rw [doUrlRead_http base a hi.adapter]
  by_cases hgood : urlReadGood l.h jim cp
  · simp only [if_pos hgood]
    cases hbody : httpBody l.h with
    | none =>
      simp only [List.append_nil]
      have hkeep : ∀ h : Handle, h = l.h ∨ h = { l.h with lastErr := .errConn } →
          ({ l with h := h } : TcpLink).HttpInv chains n := by
        rintro h (rfl | rfl)
        · exact hi
        · refine ⟨hi.url, hi.adapter, hi.ring, hi.state, hi.eof, fun _ => rfl, ?_, hi.after, hi.code⟩
          intro hdone
          obtain ⟨k, hw⟩ := hi.before hdone
          exact ⟨k, hw.nothing, hw.arrived, hw.rest, hw.parked⟩
      apply hkeep
      unfold urlReadHttpWait
      dsimp only [Ctx.withJim, Ctx.withH]
      split
      · exact .inr rfl
      · split
        · exact .inl rfl
        · split
          · exact .inl rfl
          · exact .inl rfl
    | some h =>
      obtain ⟨hbodyInv, hdone⟩ := hi.body hend hbody
      exact hbodyInv.take hdone _
  · simp only [if_neg hgood, List.append_nil]
    exact hi

theorem TcpLink.HttpInv.step (hi : l.HttpInv chains n) (hend : HeaderEnd (bytesOf chains) n) (op : HttpLinkOp) :
    (l.httpStep base op).HttpInv chains n := by
  cases op with
  | present a => exact hi.present a
  | err =>
    refine ⟨hi.url, hi.adapter, hi.ring, .inr rfl, hi.eof, fun _ => rfl, ?_, hi.after, hi.code⟩
    intro hdone
    obtain ⟨k, hw⟩ := hi.before hdone
    exact ⟨k, hw.nothing, hw.arrived, hw.rest, hw.parked⟩
  | read a jim cp => exact hi.read base hend a jim cp

theorem FreshHttp.inv {h : Handle} (hf : FreshHttp h) (s : Stack) (chains : List Chain) (n : Nat) :
    TcpLink.HttpInv chains n ⟨h, s, chains, []⟩ := by
  refine ⟨hf.url, hf.adapter, hf.ring, .inl hf.state, ?_, ?_, ?_, ?_, ?_⟩
  · intro heof
    rw [hf.noEof] at heof
    cases heof
  · intro herr
    rw [hf.state] at herr
    cases herr
  · intro _
    refine ⟨0, rfl, ?_, rfl, ?_⟩
    · exact List.eq_nil_of_length_eq_zero (by rw [RingStream.Ring.length_contents, hf.empty])
    · intro hparked
      rw [hf.notParked] at hparked
      cases hparked
  · intro hdone
    rw [hf.noHeaders] at hdone
    cases hdone
  · intro hdone
    rw [hf.noHeaders] at hdone
    cases hdone

def httpLink (h : Handle) (s : Stack) (chains : List Chain) (ops : List HttpLinkOp) : TcpLink :=
  History.final (TcpLink.httpStep base) ⟨h, s, chains, []⟩ ops

theorem httpLink_inv {h : Handle} (hf : FreshHttp h) (s : Stack) (hend : HeaderEnd (bytesOf chains) n)
    (ops : List HttpLinkOp) : (httpLink base h s chains ops).HttpInv chains n :=
  History.final_induction (TcpLink.httpStep base) (fun l => l.HttpInv chains n) (hf.inv s chains n)
    (fun _ op hi => hi.step base hend op) ops

/-! ### What a read answers -/

theorem TcpLink.HttpInv.read_eof (hi : l.HttpInv chains n) (hend : HeaderEnd (bytesOf chains) n) (a : Answers)
    (jim : Jim) (cp : Nat) (heof : (doUrlRead base a cp ⟨jim, l.h, l.stack⟩).1 = .eof) :
    l.delivered = (bytesOf chains).drop (n + 4) := by
  rw [doUrlRead_http base a hi.adapter] at heof
  by_cases hgood : urlReadGood l.h jim cp
  · simp only [if_pos hgood] at heof
    cases hbody : httpBody l.h with
    | none =>
      -- the FIN is in, so all of the response has arrived, and the end of its headers with it
      exfalso
      simp only [hbody] at heof
      rw [urlReadHttpWait_fst] at heof
      obtain ⟨⟨k, hw⟩, hshort⟩ := httpBody_none hi hend hbody
      by_cases hparked : l.h.rxParked = true ∨ NET_RX_RING_SIZE - 1 ≤ l.h.ring.count
      · rw [if_pos hparked] at heof
        cases heof
      · rw [if_neg hparked] at heof
        by_cases hfin : l.h.rxEof = true
        · have hall := bytesOf_take_drop chains k
          rw [← hw.arrived, ← hw.rest, hi.eof hfin] at hall
          have hlen := congrArg List.length hall
          rw [List.length_append, RingStream.Ring.length_contents] at hlen
          have hlong := hend.length
          have hnil : (bytesOf []).length = 0 := rfl
          omega
        · rw [if_neg hfin] at heof
          by_cases hbroken : l.h.state = .error
          · rw [if_pos hbroken, hi.err hbroken] at heof
            cases heof
          · rw [if_neg hbroken] at heof
            cases heof
    | some h =>
      simp only [hbody] at heof
      obtain ⟨hb, hdone⟩ := hi.body hend hbody
      have hcount := count_ringGet (h := h) hb.ring (jim.rd24 (cp + 1))
      have hgot := congrArg List.length (ringGet_fst (h := h) (jim.rd24 (cp + 1)))
      rw [List.length_take, RingStream.Ring.length_contents] at hgot
      simp only [streamRead, streamEnd] at heof
      by_cases hempty : (ringGet h (jim.rd24 (cp + 1))).1.length = 0 ∧
          (ringGet h (jim.rd24 (cp + 1))).2.ring.count = 0
      · rw [if_pos hempty] at heof
        by_cases hfin : h.rxEof = true
        · have hnothing : h.ring.contents = [] := by
            apply List.eq_nil_of_length_eq_zero
            rw [RingStream.Ring.length_contents]
            omega
          have hall := hb.after hdone
          have hunsent : l.unsent = [] := hb.eof hfin
          rw [hnothing, hunsent, List.append_nil] at hall
          rw [← hall]
          exact (List.append_nil _).symm
        · have hsame : (ringGet h (jim.rd24 (cp + 1))).2.rxEof = h.rxEof := rfl
          rw [hsame, if_neg hfin] at heof
          by_cases hbroken : (ringGet h (jim.rd24 (cp + 1))).2.state = .error
          · have hlast : (ringGet h (jim.rd24 (cp + 1))).2.lastErr = .errConn := hb.err hbroken
            rw [if_pos hbroken, hlast] at heof
            cases heof
          · rw [if_neg hbroken] at heof
            cases heof
      · rw [if_neg hempty] at heof
        cases heof
  · simp only [if_neg hgood] at heof
    split at heof <;> cases heof

/-- The headers, and the rest of the segment that they end in, fit into the ring, and no segment before it
ends at the ring's last byte but one. -/
def HeadersFit (chains : List Chain) (n : Nat) : Prop :=
  ∀ k, (bytesOf (chains.take k)).length < n + 4 →
    (bytesOf (chains.take k)).length < NET_RX_RING_SIZE - 1 ∧
      (bytesOf (chains.take (k + 1))).length ≤ NET_RX_RING_SIZE

theorem TcpLink.HttpInv.read_ok (hi : l.HttpInv chains n) (hend : HeaderEnd (bytesOf chains) n)
    (hfit : HeadersFit chains n) (a : Answers) (jim : Jim) (cp : Nat) (hgood : urlReadGood l.h jim cp)
    (hup : l.h.state ≠ .error) :
    (doUrlRead base a cp ⟨jim, l.h, l.stack⟩).1 = .ok ∨ (doUrlRead base a cp ⟨jim, l.h, l.stack⟩).1 = .eof := by
  rw [doUrlRead_http base a hi.adapter, if_pos hgood]
  cases hbody : httpBody l.h with
  | none =>
    simp only
    rw [urlReadHttpWait_fst]
    obtain ⟨⟨k, hw⟩, hshort⟩ := httpBody_none hi hend hbody
    have hcount := congrArg List.length hw.arrived
    rw [RingStream.Ring.length_contents] at hcount
    obtain ⟨hroom, hnext⟩ := hfit k (by omega)
    have hnot : ¬(l.h.rxParked = true ∨ NET_RX_RING_SIZE - 1 ≤ l.h.ring.count) := by
      rintro (hparked | hfull)
      · have htoo := hw.parked hparked
        omega
      · omega
    rw [if_neg hnot, if_neg hup]
    split
    · exact .inr rfl
    · exact .inl rfl
  | some h =>
    simp only [streamRead, streamEnd]
    obtain ⟨hb, -⟩ := hi.body hend hbody
    have hstate : (ringGet h (jim.rd24 (cp + 1))).2.state ≠ .error := by
      have hsame : h.state = l.h.state := by
        unfold httpBody at hbody
        split at hbody
        · cases hbody
          rfl
        · split at hbody
          · cases hbody
          · cases hbody
            rfl
      change h.state ≠ .error
      rw [hsame]
      exact hup
    split
    · split
      · exact .inr rfl
      · exact .inl rfl
    · exact .inl rfl

/-! ### A segment that is never taken -/

structure Stuck (n : Nat) (l : TcpLink) : Prop where
  incomplete : l.h.httpHdrDone = false
  parked : l.h.rxParked = true
  short : l.h.ring.count < n + 4
  big : ∃ p rest, l.unsent = p :: rest ∧ NET_RX_RING_SIZE - l.h.ring.count < p.totLen

theorem Stuck.read (hs : Stuck n l) (hi : l.HttpInv chains n) (hend : HeaderEnd (bytesOf chains) n) (a : Answers)
    (jim : Jim) (cp : Nat) :
    urlReadWritten l.h jim cp = [] ∧
      (urlReadGood l.h jim cp → (doUrlRead base a cp ⟨jim, l.h, l.stack⟩).1 = .errConn) ∧
      Stuck n { l with h := (doUrlRead base a cp ⟨jim, l.h, l.stack⟩).2.h } := by
  have hbody : httpBody l.h = none := by
    obtain ⟨k, hw⟩ := hi.before hs.incomplete
    unfold httpBody
    rw [if_neg (Bool.eq_false_iff.mp hs.incomplete), netHttpFindHeaders_eq hend hw,
      if_neg (Nat.not_le_of_lt hs.short), if_pos rfl]
  unfold urlReadWritten
  rw [doUrlRead_http base a hi.adapter]
  by_cases hgood : urlReadGood l.h jim cp
  · simp only [if_pos hgood, hbody]
    have hh : (urlReadHttpWait cp ⟨jim, l.h, l.stack⟩).2.h = { l.h with lastErr := .errConn } := by
      unfold urlReadHttpWait
      dsimp only [Ctx.withJim, Ctx.withH]
      rw [if_pos (.inl hs.parked)]
    refine ⟨trivial, ?_, ?_⟩
    · intro _
      rw [urlReadHttpWait_fst, if_pos (.inl hs.parked)]
    · rw [hh]
      exact { hs with }
  · simp only [if_neg hgood]
    exact ⟨trivial, fun h => absurd h hgood, hs⟩

theorem Stuck.step (hs : Stuck n l) (hi : l.HttpInv chains n) (hend : HeaderEnd (bytesOf chains) n)
    (op : HttpLinkOp) :
    Stuck n (l.httpStep base op) ∧ (l.httpStep base op).delivered = l.delivered := by
  cases op with
  | present a =>
    change Stuck n (l.present a) ∧ (l.present a).delivered = l.delivered
    unfold TcpLink.present
    obtain ⟨p, rest, hunsent, hbig⟩ := hs.big
    split
    · exact ⟨hs, rfl⟩
    · rw [hunsent]
      have hplain : ¬(l.h.isUrl = true ∧ l.h.urlAdapter = .telnet) := by
        rw [hi.adapter]
        exact fun h => absurd h.2 (by simp)
      simp only [netTcpRecv_raw a l.stack hplain hi.ring p, if_pos hbig]
      exact ⟨⟨hs.incomplete, rfl, hs.short, p, rest, rfl, hbig⟩, trivial⟩
  | err => exact ⟨{ hs with }, rfl⟩
  | read a jim cp =>
    obtain ⟨hnothing, -, hstuck⟩ := hs.read base hi hend a jim cp
    refine ⟨{ hstuck with }, ?_⟩
    change l.delivered ++ urlReadWritten l.h jim cp = l.delivered
    rw [hnothing, List.append_nil]

theorem Stuck.run (hs : Stuck n l) (hi : l.HttpInv chains n) (hend : HeaderEnd (bytesOf chains) n)
    (ops : List HttpLinkOp) :
    let l' := History.final (TcpLink.httpStep base) l ops
    Stuck n l' ∧ l'.HttpInv chains n ∧ l'.delivered = l.delivered := by
  induction ops generalizing l with
  | nil => exact ⟨hs, hi, rfl⟩
  | cons op ops ih =>
    obtain ⟨hstep, hsame⟩ := hs.step base hi hend op
    obtain ⟨hstuck, hinv, hrest⟩ := ih hstep (hi.step base hend op)
    exact ⟨hstuck, hinv, hrest.trans hsame⟩

end

/-! ### The response -/

theorem Jim.store_at (jim : Jim) (off : Nat) (bytes : List UInt8) {k : Nat} (hk : k < bytes.length) :
    jim.store off bytes (off + k) = bytes.getD k 0 := by
  rw [Jim.store, if_pos ⟨Nat.le_add_right _ _, Nat.add_lt_add_left hk _⟩, Nat.add_sub_cancel_left]

theorem rd16_le16 (v : UInt16) : rd16 v.toUInt8 (v >>> 8).toUInt8 = v := by
  apply UInt16.toBitVec_inj.mp
  simp only [rd16, UInt16.toBitVec_or, UInt16.toBitVec_shiftLeft, UInt8.toBitVec_toUInt16,
    UInt16.toBitVec_toUInt8, UInt16.toBitVec_shiftRight]
  apply BitVec.eq_of_getLsbD_eq
  intro i hi
  simp only [BitVec.getLsbD_or, BitVec.getLsbD_setWidth, BitVec.shiftLeft_eq',
    BitVec.getLsbD_shiftLeft, BitVec.ushiftRight_eq', BitVec.getLsbD_ushiftRight]
  interval_cases i <;> simp

theorem doUrlStatus_code (cp : Nat) (c : Ctx) : (doUrlStatus cp c).2.jim.rd16 (cp + 7) = c.h.httpCode := by
  unfold doUrlStatus Jim.rd16
  dsimp only [Ctx.withJim]
  rw [show cp + 7 = cp + 1 + 6 from rfl, show cp + 1 + 6 + 1 = cp + 1 + 7 from rfl,
    Jim.store_at _ _ _ (show 6 < 8 by decide), Jim.store_at _ _ _ (show 7 < 8 by decide)]
  exact rd16_le16 _

/-- However a response is cut into segments and the reads are sized: what the Beeb was given is a prefix of
what follows the first CRLFCRLF, nothing before the headers are in, and EOF comes after all of it; the code
reported once the headers are in is that of the response, if they hold a blank or fill the part that is
searched for it; and if they fit with the segment they end in, no read fails while the connection is up. -/
theorem http_body (base : Nat) (h : Handle) (hf : FreshHttp h) (s : Stack) (chains : List Chain) (n : Nat)
    (hend : HeaderEnd (bytesOf chains) n) (ops : List HttpLinkOp) :
    let l := httpLink base h s chains ops
    let body := (bytesOf chains).drop (n + 4)
    l.delivered <+: body ∧
      (l.h.httpHdrDone = false → l.delivered = []) ∧
      (l.h.httpHdrDone = true → l.delivered ++ l.h.ring.contents ++ bytesOf l.unsent = body) ∧
      (l.h.httpHdrDone = true → CodeInHeaders (bytesOf chains) n → ∀ cp jim,
        (doUrlStatus cp ⟨jim, l.h, l.stack⟩).2.jim.rd16 (cp + 7) =
          httpStatus ((bytesOf chains).take 64) false 0) ∧
      ∀ a jim cp,
        let r := doUrlRead base a cp ⟨jim, l.h, l.stack⟩
        (r.1 = .eof → l.delivered = body) ∧
          (urlReadWritten l.h jim cp ≠ [] →
            r.2.jim = (jim.store (jim.rd32 (cp + 4) + base) (urlReadWritten l.h jim cp)).wr24 (cp + 1)
              (urlReadWritten l.h jim cp).length) ∧
          (HeadersFit chains n → urlReadGood l.h jim cp → l.h.state ≠ .error → r.1 = .ok ∨ r.1 = .eof) := by
  intro l body
  have hi : l.HttpInv chains n := httpLink_inv base hf s hend ops
  have hnothing : l.h.httpHdrDone = false → l.delivered = [] := by
    intro hdone
    obtain ⟨k, hw⟩ := hi.before hdone
    exact hw.nothing
  refine ⟨?_, hnothing, hi.after, ?_, ?_⟩
  · cases hdone : l.h.httpHdrDone with
    | false =>
      rw [hnothing hdone]
      exact List.nil_prefix
    | true =>
      have hall := hi.after hdone
      rw [List.append_assoc] at hall
      exact ⟨_, hall⟩
  · intro hdone hcode cp jim
    rw [doUrlStatus_code]
    exact hi.code hdone hcode
  · intro a jim cp r
    refine ⟨hi.read_eof base hend a jim cp, ?_, fun hfit hgood hup => hi.read_ok base hend hfit a jim cp hgood hup⟩
    intro hwritten
    change (doUrlRead base a cp ⟨jim, l.h, l.stack⟩).2.jim = _
    rw [doUrlRead_http base a hi.adapter]
    unfold urlReadWritten at hwritten ⊢
    by_cases hgood : urlReadGood l.h jim cp
    · simp only [if_pos hgood] at hwritten ⊢
      cases hbody : httpBody l.h with
      | none =>
        simp only [hbody] at hwritten
        exact absurd rfl hwritten
      | some h => rfl
    · rw [if_neg hgood] at hwritten
      exact absurd rfl hwritten

/-- A connection that has come up for an `http` URL. -/
def exampleHttp : Handle :=
  { ring := ⟨fun _ => 0, 8190, 8190, 0⟩, isUrl := true, urlAdapter := .http, state := .connected, tpcb := some 0 }

theorem exampleHttp_fresh : FreshHttp exampleHttp :=
  ⟨rfl, rfl, rfl, ⟨by decide, by decide, by decide⟩, rfl, rfl, rfl, rfl⟩

/-- A response in two segments, the second after the end of the ring's memory and in the middle of the
CRLFCRLF. -/
def exampleResponse : List Chain :=
  [⟨[[0x20, 0x32, 0x0D, 0x0A]], by decide⟩, ⟨[[0x0D], [0x0A, 0x58, 0x59]], by decide⟩]

/-- A `url_read` of one byte. -/
def readOne : HttpLinkOp := .read {} (fun x => if x = 1 then 1 else 0) 0

theorem http_body_wrapped :
    (httpLink 64 exampleHttp {} exampleResponse [.present {}, readOne, .present {}, readOne]).delivered = [0x58] ∧
      (httpLink 64 exampleHttp {} exampleResponse [.present {}, readOne, .present {}, readOne]).delivered <+:
        (bytesOf exampleResponse).drop (2 + 4) :=
  ⟨by decide,
    (http_body 64 exampleHttp exampleHttp_fresh {} exampleResponse 2 ⟨by decide, by decide⟩
      [.present {}, readOne, .present {}, readOne]).1⟩

def longChain : Chain where
  pbufs := [crlfcrlf, List.replicate 8188 0x58]
  fits := by
    rw [List.flatten_cons, List.flatten_cons, List.length_append, List.length_append, List.length_replicate]
    decide

theorem longChain_totLen : longChain.totLen = 8192 := by
  rw [Chain.totLen, Chain.bytes, longChain, List.flatten_cons, List.flatten_cons, List.length_append,
    List.length_append, List.length_replicate]
  rfl

def longResponse : List Chain := [⟨[[0x48]], by decide⟩, longChain]

theorem longResponse_end : HeaderEnd (bytesOf longResponse) 1 := ⟨by decide, by decide⟩

theorem longResponse_stuck :
    Stuck 1 (httpLink 64 exampleHttp {} longResponse [.present {}, .present {}]) := by
  have hone : httpLink 64 exampleHttp {} longResponse [.present {}] =
      ⟨ringPutMem exampleHttp [0x48], {}, [longChain], []⟩ := rfl
  have htwo : httpLink 64 exampleHttp {} longResponse [.present {}, .present {}] =
      TcpLink.httpStep 64 (httpLink 64 exampleHttp {} longResponse [.present {}]) (.present {}) :=
    History.final_snoc (TcpLink.httpStep 64) _ [.present {}] (.present {})
  have hring : (ringPutMem exampleHttp [0x48]).ring.WellFormed :=
    ringPutMem_wellFormed exampleHttp_fresh.ring (by decide)
  have hfull : longChain.totLen > NET_RX_RING_SIZE - (ringPutMem exampleHttp [0x48]).ring.count := by
    rw [longChain_totLen]
    decide
  rw [htwo, hone]
  simp only [TcpLink.httpStep, TcpLink.present]
  rw [if_neg (by decide), netTcpRecv_raw _ _ (by decide) hring, if_pos hfull]
  exact ⟨rfl, rfl, by decide, longChain, [], rfl, hfull⟩

/-- The headers are five bytes long, and the body is never handed over. -/
theorem headers_never_found :
    HeaderEnd (bytesOf longResponse) 1 ∧ 1 + 4 ≤ NET_RX_RING_SIZE ∧
      ∀ ops : List HttpLinkOp,
        let l := httpLink 64 exampleHttp {} longResponse ([.present {}, .present {}] ++ ops)
        l.delivered = [] ∧
          ∀ a jim cp, urlReadGood l.h jim cp → (doUrlRead 64 a cp ⟨jim, l.h, l.stack⟩).1 = .errConn := by
  refine ⟨longResponse_end, by decide, ?_⟩
  intro ops l
  have hrun := longResponse_stuck.run 64 (httpLink_inv 64 exampleHttp_fresh {} longResponse_end _) longResponse_end ops
  rw [httpLink, ← History.final_append] at hrun
  obtain ⟨hstuck, hinv, hnothing⟩ := hrun
  refine ⟨hnothing, ?_⟩
  intro a jim cp hgood
  exact (hstuck.read 64 hinv longResponse_end a jim cp).2.1 hgood

end Pi1MHz.Net
