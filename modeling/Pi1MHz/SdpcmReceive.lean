import Pi1MHz.Sdpcm
import Pi1MHz.SdioEvents

/-!
# SDPCM receive: decoding a frame

`sdio_runtime_complete_read_ethernet_frame_timeout` with every look it takes at its frame buffer: the reply to
a command on the control channel, an event, or an Ethernet frame for the caller.
-/

namespace Pi1MHz.SdpcmReceive

open SdioLink (BrcmEvent noteBrcm SDPCM_CONTROL_CHANNEL SDPCM_EVENT_CHANNEL SDPCM_DATA_CHANNEL
  SDPCM_DATA_HEADER_LENGTH BDC_PROTOCOL_VERSION CDC_HEADER_LENGTH ETHERNET_HEADER_LENGTH ETHER_TYPE_BRCM
  BRCM_EVENT_HEADER_LENGTH BRCM_EVENT_MSG_LENGTH SDIO_RUNTIME_MAX_FRAME_SIZE)

structure Look (α : Type) where
  run : (Nat → UInt8) → α × List Nat

instance : Monad Look where
  pure a := ⟨fun _ => (a, [])⟩
  bind r f := ⟨fun b => (((f (r.run b).1).run b).1, (r.run b).2 ++ ((f (r.run b).1).run b).2)⟩

def look (i : Nat) : Look UInt8 := ⟨fun b => (b i, [i])⟩

/-- `n` bytes from `i` on. -/
def lookRange (i n : Nat) : Look (List UInt8) :=
  ⟨fun b => ((List.range n).map fun j => b (i + j), (List.range n).map fun j => i + j)⟩

/-- The cast to `uint16_t`. -/
def u16 (n : Nat) : Nat := n % 65536

def look16 (i : Nat) : Look UInt16 := do
  let h ← look i
  let l ← look (i + 1)
  return h.toUInt16 <<< 8 ||| l.toUInt16

def look32 (i : Nat) : Look UInt32 := do
  let a ← look i
  let b ← look (i + 1)
  let c ← look (i + 2)
  let d ← look (i + 3)
  return a.toUInt32 <<< 24 ||| b.toUInt32 <<< 16 ||| c.toUInt32 <<< 8 ||| d.toUInt32

def sdioLoadU32Le (i : Nat) : Look UInt32 := do
  let a ← look i
  let b ← look (i + 1)
  let c ← look (i + 2)
  let d ← look (i + 3)
  return a.toUInt32 ||| b.toUInt32 <<< 8 ||| c.toUInt32 <<< 16 ||| d.toUInt32 <<< 24

def WLC_GET_RATE : UInt32 := 12
def WLC_GET_PM : UInt32 := 85
def WLC_GET_RSSI : UInt32 := 127
def WLC_GET_PKTCNTS : UInt32 := 137
def WLC_GET_VAR : UInt32 := 262
def WLC_SET_VAR : UInt32 := 263
def WLC_PKTCNTS_BYTES : Nat := 20
def CDCF_IOC_ERROR : UInt32 := 1
def BDC_VERSION_SHIFT : UInt8 := 4
def SDIO_PROBE_FUNCTION2_BLOCK_SIZE : Nat := 512

structure Request (α : Type) where
  pending : Bool
  requestId : UInt16
  valid : Bool
  value : α

structure Globals where
  window : Sdpcm.Runtime
  link : SdioLink.Runtime
  mac : Request (List UInt8)
  setMac : Request UInt32
  rssi : Request Int32
  pm : Request Int32
  pktcnt : Request (List UInt32)
  rate : Request Int32
  rxFrameCount : UInt32
  lastRxUs : UInt32

/-! ### Replies to commands -/

structure Cdc where
  command : UInt32
  flags : UInt32
  status : UInt32

/-- `(cdc_flags & CDCF_IOC_ID_MASK) >> CDCF_IOC_ID_SHIFT`. -/
def Cdc.requestId (c : Cdc) : UInt16 := (c.flags >>> 16).toUInt16

/-- A reply that is waited for, without an error, and long enough for its `bytes` of data. -/
def noteReply {α : Type} (command : UInt32) (bytes : Nat) (read : Nat → Look α) (total header : Nat) (c : Cdc)
    (q : Request α) : Look (Request α) :=
  if q.pending = true ∧ c.command = command ∧ c.requestId = q.requestId ∧ c.flags &&& CDCF_IOC_ERROR = 0 ∧
      u16 (header + CDC_HEADER_LENGTH + bytes) ≤ total then do
    let value ← read (header + CDC_HEADER_LENGTH)
    return { q with value, valid := true, pending := false }
  else return q

def noteMac : Nat → Nat → Cdc → Request (List UInt8) → Look (Request (List UInt8)) :=
  noteReply WLC_GET_VAR 6 fun i => lookRange i 6

def lookSigned (i : Nat) : Look Int32 := do
  let v ← sdioLoadU32Le i
  return v.toInt32

def noteRssi : Nat → Nat → Cdc → Request Int32 → Look (Request Int32) := noteReply WLC_GET_RSSI 4 lookSigned

def notePm : Nat → Nat → Cdc → Request Int32 → Look (Request Int32) := noteReply WLC_GET_PM 4 lookSigned

def noteRate : Nat → Nat → Cdc → Request Int32 → Look (Request Int32) := noteReply WLC_GET_RATE 4 lookSigned

def lookCounters (i : Nat) : Look (List UInt32) := do
  let a ← sdioLoadU32Le i
  let b ← sdioLoadU32Le (i + 4)
  let c ← sdioLoadU32Le (i + 8)
  let d ← sdioLoadU32Le (i + 12)
  let e ← sdioLoadU32Le (i + 16)
  return [a, b, c, d, e]

def notePktcnt : Nat → Nat → Cdc → Request (List UInt32) → Look (Request (List UInt32)) :=
  noteReply WLC_GET_PKTCNTS WLC_PKTCNTS_BYTES lookCounters

/-- The ack of a MAC address that was set is taken with whatever status it has; `valid` says it was seen. -/
def noteSetMac (c : Cdc) (q : Request UInt32) : Request UInt32 :=
  if q.pending = true ∧ c.command = WLC_SET_VAR ∧ c.requestId = q.requestId then
    { q with value := c.status, valid := true, pending := false }
  else q

def noteControl (total header : Nat) (s : Globals) : Look Globals := do
  let command ← sdioLoadU32Le header
  let flags ← sdioLoadU32Le (header + 8)
  let status ← sdioLoadU32Le (header + 12)
  let c : Cdc := ⟨command, flags, status⟩
  let mac ← noteMac total header c s.mac
  let rssi ← noteRssi total header c s.rssi
  let pm ← notePm total header c s.pm
  let pktcnt ← notePktcnt total header c s.pktcnt
  let rate ← noteRate total header c s.rate
  return { s with mac, setMac := noteSetMac c s.setMac, rssi, pm, pktcnt, rate }

/-! ### Events -/

/-- The fields of `event_msg` at a place. -/
def lookEvent (i : Nat) : Look BrcmEvent := do
  let flags ← look16 (i + 2)
  let type ← look32 (i + 4)
  let status ← look32 (i + 8)
  let reason ← look32 (i + 12)
  return ⟨type, status, reason, flags⟩

def sdioRuntimeNoteEventBare (i payloadLength : Nat) (s : Globals) : Look Globals :=
  if payloadLength < BRCM_EVENT_MSG_LENGTH then return s
  else do
    let e ← lookEvent i
    if 255 < e.type then return s else return { s with link := noteBrcm e s.link }

/-- The maker's identifier is looked at as far as it is right; where it is not, it is logged with the version
in front of it. -/
def sdioRuntimeNoteEvent (frameLength ethernetOffset : Nat) (s : Globals) : Look Globals :=
  if frameLength <
      u16 (ethernetOffset + ETHERNET_HEADER_LENGTH + BRCM_EVENT_HEADER_LENGTH + BRCM_EVENT_MSG_LENGTH) then
    return s
  else do
    let eventOffset := u16 (ethernetOffset + ETHERNET_HEADER_LENGTH)
    let oui0 ← look (eventOffset + 5)
    let oui1 ← look (eventOffset + 6)
    let oui2 ← look (eventOffset + 7)
    let _version ← look (eventOffset + 4)
    if oui0 ≠ 0x00 ∨ oui1 ≠ 0x10 ∨ oui2 ≠ 0x18 then return s
    else do
      let e ← lookEvent (u16 (eventOffset + BRCM_EVENT_HEADER_LENGTH))
      return { s with link := noteBrcm e s.link }

def ethernetOffset (header : Nat) (dataOffset : UInt8) : Nat := u16 (header + 4 + dataOffset.toNat * 4)

def noteBare (header payloadLength : Nat) (s : Globals) : Look Globals :=
  if BRCM_EVENT_MSG_LENGTH ≤ payloadLength then sdioRuntimeNoteEventBare header payloadLength s else return s

def noteChannelEvent (total header : Nat) (s : Globals) : Look Globals :=
  let payloadLength := if header < total then u16 (total - header) else 0
  if 4 ≤ payloadLength then do
    let dataOffset ← look (header + 3)
    let offset := ethernetOffset header dataOffset
    if u16 (offset + 14) ≤ total then do
      let type ← look16 (offset + 12)
      if type = ETHER_TYPE_BRCM then sdioRuntimeNoteEvent total offset s else noteBare header payloadLength s
    else noteBare header payloadLength s
  else noteBare header payloadLength s

/-! ### The frame -/

/-- What the caller gives and the clock says: a buffer or none, its size, and the time at two places. -/
structure Call where
  buffer : Bool
  frameCapacity : Nat
  nowUs : UInt32
  laterUs : UInt32

def Globals.setError (message : String) (s : Globals) : Globals :=
  { s with window := { s.window with error := message } }

def readData (k : Call) (total header : Nat) (s : Globals) : Look (Option (List UInt8) × Globals) := do
  let dataOffset ← look (header + 3)
  let offset := ethernetOffset header dataOffset
  if total < u16 (offset + 14) then return (none, s)
  else do
    let type ← look16 (offset + 12)
    if type = ETHER_TYPE_BRCM then do
      let s ← sdioRuntimeNoteEvent total offset s
      return (none, s)
    else do
      let version ← look (UInt8.ofNat header).toNat
      if version >>> BDC_VERSION_SHIFT ≠ BDC_PROTOCOL_VERSION then return (none, s)
      else if k.buffer = false ∨ k.frameCapacity < u16 (total - offset) then
        return (none, s.setError "Ethernet frame exceeds receive buffer")
      else do
        let frame ← lookRange offset (u16 (total - offset))
        return (some frame,
          { s with
            window := { s.window with busActiveUs := k.laterUs }
            rxFrameCount := s.rxFrameCount + 1
            lastRxUs := k.laterUs })

def readFrame (k : Call) (total : Nat) (s : Globals) : Look (Option (List UInt8) × Globals) := do
  let channel ← look 5
  let header ← look 7
  let flow ← look 8
  let limit ← look 9
  let s := { s with window := Sdpcm.noteWindow flow limit k.nowUs s.window }
  if channel &&& 0x0f = SDPCM_CONTROL_CHANNEL ∧ u16 (header.toNat + CDC_HEADER_LENGTH) ≤ total then do
    let s ← noteControl total header.toNat s
    return (none, s)
  else if channel &&& 0x0f = SDPCM_EVENT_CHANNEL then do
    let s ← noteChannelEvent total header.toNat s
    return (none, s)
  else if channel &&& 0x0f ≠ SDPCM_DATA_CHANNEL ∨ header.toNat < SDPCM_DATA_HEADER_LENGTH ∨
      total ≤ u16 (header.toNat + 4) then
    return (none, s)
  else readData k total header.toNat s

/-- The bytes that `sdio_function2_transfer_timeout` moves for a length: whole blocks where it is long. -/
def function2Bytes (length : Nat) : Nat :=
  if SDIO_PROBE_FUNCTION2_BLOCK_SIZE < length then
    SDIO_PROBE_FUNCTION2_BLOCK_SIZE *
      min 511 (u16 ((length + SDIO_PROBE_FUNCTION2_BLOCK_SIZE - 1) / SDIO_PROBE_FUNCTION2_BLOCK_SIZE))
  else length

def frameBuffer (tag0 tag1 : UInt16) (body : Nat → UInt8) (i : Nat) : UInt8 :=
  if i < 4 then [tag0.toUInt8, (tag0 >>> 8).toUInt8, tag1.toUInt8, (tag1 >>> 8).toUInt8].getD i 0
  else if i < 4 + function2Bytes (u16 (tag0.toNat - 4)) then body (i - 4)
  else 0

/-- What is delivered, the places of the frame buffer that were looked at, and the state after it. -/
structure Received where
  frame : Option (List UInt8)
  looked : List Nat
  globals : Globals

/-- `sdio_runtime_complete_read_ethernet_frame_timeout`; the body is missing where the transfer fails. -/
def completeReadEthernetFrame (k : Call) (tag0 tag1 : UInt16) (body : Option (Nat → UInt8)) (s : Globals) :
    Received :=
  if tag0 ^^^ tag1 ≠ 0xffff ∨ tag0.toNat < 12 ∨ SDIO_RUNTIME_MAX_FRAME_SIZE < tag0.toNat then ⟨none, [], s⟩
  else
    match body with
    | none => ⟨none, [], s.setError "Failed to read SDPCM frame body"⟩
    | some body =>
      let r := (readFrame k tag0.toNat s).run (frameBuffer tag0 tag1 body)
      ⟨r.1.1, r.2, r.1.2⟩

/-! ### Places that are looked at -/

section Inside

variable {α β : Type} {n : Nat}

/-- Nothing at or beyond `n` is looked at. -/
def Inside (n : Nat) (r : Look α) : Prop := ∀ b, ∀ i ∈ (r.run b).2, i < n

theorem inside_pure (a : α) : Inside n (pure a : Look α) := fun _ _ hi => absurd hi List.not_mem_nil

theorem Inside.bind {r : Look α} {f : α → Look β} (h : Inside n r) (hf : ∀ a, Inside n (f a)) :
    Inside n (r >>= f) := by
  intro b i hi
  rcases List.mem_append.mp hi with hr | hrest
  · exact h b i hr
  · exact hf _ b i hrest

theorem Inside.ite {c : Prop} [Decidable c] {r r' : Look α} (h : c → Inside n r) (h' : ¬c → Inside n r') :
    Inside n (if c then r else r') := by
  split
  · next hc => exact h hc
  · next hc => exact h' hc

theorem inside_look {i : Nat} (h : i < n) : Inside n (look i) := by
  intro b j hj
  rw [List.mem_singleton.mp hj]
  exact h

theorem inside_lookRange {i m : Nat} (h : i + m ≤ n) : Inside n (lookRange i m) := by
  intro b j hj
  obtain ⟨k, hk, rfl⟩ := List.mem_map.mp hj
  have := List.mem_range.mp hk
  omega

theorem inside_look16 {i : Nat} (h : i + 2 ≤ n) : Inside n (look16 i) :=
  (inside_look (by omega)).bind fun _ => (inside_look (by omega)).bind fun _ => inside_pure _

theorem inside_look32 {i : Nat} (h : i + 4 ≤ n) : Inside n (look32 i) :=
  (inside_look (by omega)).bind fun _ => (inside_look (by omega)).bind fun _ =>
    (inside_look (by omega)).bind fun _ => (inside_look (by omega)).bind fun _ => inside_pure _

theorem inside_sdioLoadU32Le {i : Nat} (h : i + 4 ≤ n) : Inside n (sdioLoadU32Le i) :=
  (inside_look (by omega)).bind fun _ => (inside_look (by omega)).bind fun _ =>
    (inside_look (by omega)).bind fun _ => (inside_look (by omega)).bind fun _ => inside_pure _

theorem inside_lookSigned {i : Nat} (h : i + 4 ≤ n) : Inside n (lookSigned i) :=
  (inside_sdioLoadU32Le h).bind fun _ => inside_pure _

theorem inside_lookCounters {i : Nat} (h : i + 20 ≤ n) : Inside n (lookCounters i) :=
  (inside_sdioLoadU32Le (by omega)).bind fun _ => (inside_sdioLoadU32Le (by omega)).bind fun _ =>
    (inside_sdioLoadU32Le (by omega)).bind fun _ => (inside_sdioLoadU32Le (by omega)).bind fun _ =>
      (inside_sdioLoadU32Le (by omega)).bind fun _ => inside_pure _

theorem inside_lookEvent {i : Nat} (h : i + 16 ≤ n) : Inside n (lookEvent i) :=
  (inside_look16 (by omega)).bind fun _ => (inside_look32 (by omega)).bind fun _ =>
    (inside_look32 (by omega)).bind fun _ => (inside_look32 (by omega)).bind fun _ => inside_pure _

end Inside

theorem u16_of_lt {n : Nat} (h : n < 65536) : u16 n = n := Nat.mod_eq_of_lt h

theorem ethernetOffset_eq {header : Nat} (h : header < 256) (d : UInt8) :
    ethernetOffset header d = header + 4 + d.toNat * 4 := by
  have hd := d.toNat_lt
  exact u16_of_lt (by omega)

section Frames

variable {total header : Nat}

theorem inside_noteReply {α : Type} {command : UInt32} {bytes : Nat} {read : Nat → Look α} (hheader : header < 256)
    (hbytes : bytes ≤ 20) (hread : ∀ i, i + bytes ≤ total → Inside total (read i)) (c : Cdc) (q : Request α) :
    Inside total (noteReply command bytes read total header c q) := by
  apply Inside.ite
  · rintro ⟨-, -, -, -, hlong⟩
    rw [u16_of_lt (by simp only [CDC_HEADER_LENGTH]; omega)] at hlong
    exact (hread _ hlong).bind fun _ => inside_pure _
  · intro _
    exact inside_pure _

theorem inside_noteControl (hheader : header < 256) (hlong : header + CDC_HEADER_LENGTH ≤ total) (s : Globals) :
    Inside total (noteControl total header s) := by
  simp only [CDC_HEADER_LENGTH] at hlong
  refine (inside_sdioLoadU32Le (by omega)).bind fun command => ?_
  refine (inside_sdioLoadU32Le (by omega)).bind fun flags => ?_
  refine (inside_sdioLoadU32Le (by omega)).bind fun status => ?_
  refine (inside_noteReply hheader (by decide) (fun i h => inside_lookRange h) _ _).bind fun mac => ?_
  refine (inside_noteReply hheader (by decide) (fun i h => inside_lookSigned h) _ _).bind fun rssi => ?_
  refine (inside_noteReply hheader (by decide) (fun i h => inside_lookSigned h) _ _).bind fun pm => ?_
  refine (inside_noteReply hheader (by decide) (fun i h => inside_lookCounters h) _ _).bind fun pktcnt => ?_
  exact (inside_noteReply hheader (by decide) (fun i h => inside_lookSigned h) _ _).bind fun rate => inside_pure _

theorem inside_noteEvent {offset : Nat} (hoffset : offset < 2048) (s : Globals) :
    Inside total (sdioRuntimeNoteEvent total offset s) := by
  have hlength : u16 (offset + ETHERNET_HEADER_LENGTH + BRCM_EVENT_HEADER_LENGTH + BRCM_EVENT_MSG_LENGTH) =
      offset + 72 := u16_of_lt (show offset + 72 < 65536 by omega)
  have hevent : u16 (offset + ETHERNET_HEADER_LENGTH) = offset + 14 := u16_of_lt (show offset + 14 < 65536 by omega)
  have hmessage : u16 (offset + 14 + BRCM_EVENT_HEADER_LENGTH) = offset + 24 :=
    u16_of_lt (show offset + 24 < 65536 by omega)
  simp only [sdioRuntimeNoteEvent, hlength, hevent, hmessage]
  apply Inside.ite
  · intro _
    exact inside_pure _
  · intro hlong
    refine (inside_look (by omega)).bind fun oui0 => ?_
    refine (inside_look (by omega)).bind fun oui1 => ?_
    refine (inside_look (by omega)).bind fun oui2 => ?_
    refine (inside_look (by omega)).bind fun version => ?_
    apply Inside.ite
    · intro _
      exact inside_pure _
    · intro _
      exact (inside_lookEvent (by omega)).bind fun e => inside_pure _

theorem inside_noteBare {payloadLength : Nat} (h : header + payloadLength ≤ total ∨ payloadLength = 0)
    (s : Globals) : Inside total (noteBare header payloadLength s) := by
  apply Inside.ite
  · intro hlong
    simp only [BRCM_EVENT_MSG_LENGTH] at hlong
    apply Inside.ite
    · intro _
      exact inside_pure _
    · intro _
      refine (inside_lookEvent (by omega)).bind fun e => ?_
      exact Inside.ite (fun _ => inside_pure _) fun _ => inside_pure _
  · intro _
    exact inside_pure _

theorem inside_noteChannelEvent (hheader : header < 256) (htotal : total < 65536) (s : Globals) :
    Inside total (noteChannelEvent total header s) := by
  have hpayload : header + (if header < total then u16 (total - header) else 0) ≤ total ∨
      (if header < total then u16 (total - header) else 0) = 0 := by
    split
    · rw [u16_of_lt (by omega)]
      omega
    · exact Or.inr rfl
  simp only [noteChannelEvent]
  apply Inside.ite
  · intro hlong
    refine (inside_look (by omega)).bind fun dataOffset => ?_
    have hd := dataOffset.toNat_lt
    rw [ethernetOffset_eq hheader]
    apply Inside.ite
    · intro hshort
      rw [u16_of_lt (by omega)] at hshort
      refine (inside_look16 (by omega)).bind fun type => ?_
      apply Inside.ite
      · intro _
        exact inside_noteEvent (by omega) s
      · intro _
        exact inside_noteBare hpayload s
    · intro _
      exact inside_noteBare hpayload s
  · intro _
    exact inside_noteBare hpayload s

theorem inside_readData (k : Call) (hheader : header < 256) (htotal : total < 65536) (hlong : header + 4 < total)
    (s : Globals) : Inside total (readData k total header s) := by
  refine (inside_look (by omega)).bind fun dataOffset => ?_
  have hd := dataOffset.toNat_lt
  simp only [ethernetOffset_eq hheader]
  apply Inside.ite
  · intro _
    exact inside_pure _
  · intro hfits
    rw [u16_of_lt (by omega)] at hfits
    refine (inside_look16 (by omega)).bind fun type => ?_
    apply Inside.ite
    · intro _
      exact (inside_noteEvent (by omega) s).bind fun s => inside_pure _
    · intro _
      have hindex : (UInt8.ofNat header).toNat = header := UInt8.toNat_ofNat_of_lt hheader
      refine (inside_look (by omega)).bind fun version => ?_
      apply Inside.ite
      · intro _
        exact inside_pure _
      · intro _
        apply Inside.ite
        · intro _
          exact inside_pure _
        · intro _
          refine (inside_lookRange ?_).bind fun frame => inside_pure _
          rw [u16_of_lt (by omega)]
          omega

theorem inside_readFrame (k : Call) (hshort : 12 ≤ total) (htotal : total < 65536) (s : Globals) :
    Inside total (readFrame k total s) := by
  refine (inside_look (by omega)).bind fun channel => ?_
  refine (inside_look (by omega)).bind fun header => ?_
  refine (inside_look (by omega)).bind fun flow => ?_
  refine (inside_look (by omega)).bind fun limit => ?_
  have hheader := header.toNat_lt
  apply Inside.ite
  · rintro ⟨-, hlong⟩
    rw [u16_of_lt (by simp only [CDC_HEADER_LENGTH]; omega)] at hlong
    exact (inside_noteControl hheader hlong _).bind fun s => inside_pure _
  · intro _
    apply Inside.ite
    · intro _
      exact (inside_noteChannelEvent hheader htotal _).bind fun s => inside_pure _
    · intro _
      apply Inside.ite
      · intro _
        exact inside_pure _
      · intro hdata
        have hlong : ¬total ≤ u16 (header.toNat + 4) := fun h => hdata (Or.inr (Or.inr h))
        rw [u16_of_lt (by omega)] at hlong
        exact inside_readData k hheader htotal (by omega) _

end Frames

/-! ### What is delivered -/

section Values

variable {α β : Type} {b : Nat → UInt8}

theorem value_pure (a : α) : ((pure a : Look α).run b).1 = a := rfl

theorem value_bind (r : Look α) (f : α → Look β) : ((r >>= f).run b).1 = ((f (r.run b).1).run b).1 := rfl

theorem value_ite {c : Prop} [Decidable c] (r r' : Look α) :
    ((if c then r else r').run b).1 = if c then (r.run b).1 else (r'.run b).1 := by
  split <;> rfl

-- not by `rfl`: the simplifier would then leave the old terms in the instances of the conditions
theorem value_look (i : Nat) : ((look i).run b).1 = b i := by simp only [look]

theorem value_look16 (i : Nat) : ((look16 i).run b).1 = SdioLink.be16 b i := by
  simp only [look16, value_bind, value_look, value_pure, SdioLink.be16]

theorem value_look32 (i : Nat) : ((look32 i).run b).1 = SdioLink.be32 b i := by
  simp only [look32, value_bind, value_look, value_pure, SdioLink.be32]

theorem value_lookEvent (i : Nat) : ((lookEvent i).run b).1 = SdioLink.brcmEvent b i := by
  simp only [lookEvent, value_bind, value_look16, value_look32, value_pure, SdioLink.brcmEvent]

theorem value_lookRange (i n : Nat) : ((lookRange i n).run b).1 = (List.range n).map fun j => b (i + j) := rfl

end Values

structure DataFrame (total : Nat) (b : Nat → UInt8) : Prop where
  channel : SdioLink.channelOf b = SDPCM_DATA_CHANNEL
  header : SDPCM_DATA_HEADER_LENGTH ≤ SdioLink.headerLength b
  length : SdioLink.headerLength b + 4 + 4 * (b (SdioLink.headerLength b + 3)).toNat + 14 ≤ total
  version : b (SdioLink.headerLength b) >>> BDC_VERSION_SHIFT = BDC_PROTOCOL_VERSION
  type : SdioLink.be16 b (SdioLink.headerLength b + 4 + 4 * (b (SdioLink.headerLength b + 3)).toNat + 12) ≠
    ETHER_TYPE_BRCM

/-- The bytes of the frame buffer from `i` up to `n`. -/
def bytesFrom (b : Nat → UInt8) (i n : Nat) : List UInt8 := (List.range (n - i)).map fun j => b (i + j)

def payload (total : Nat) (b : Nat → UInt8) : List UInt8 :=
  bytesFrom b (SdioLink.headerLength b + 4 + 4 * (b (SdioLink.headerLength b + 3)).toNat) total

theorem ethOffset_eq (b : Nat → UInt8) :
    SdioLink.ethOffset b = SdioLink.headerLength b + 4 + 4 * (b (SdioLink.headerLength b + 3)).toNat := by
  rw [SdioLink.ethOffset, Nat.mul_comm]

section Deliver

variable {b : Nat → UInt8} {total : Nat} {frame : List UInt8}

theorem readData_value (k : Call) (htotal : total < 65536) (s : Globals) :
    ((readData k total (SdioLink.headerLength b) s).run b).1.1 = some frame ↔
      ((SdioLink.ethOffset b + 14 ≤ total ∧ SdioLink.ethertype b ≠ ETHER_TYPE_BRCM) ∧
          b (SdioLink.headerLength b) >>> BDC_VERSION_SHIFT = BDC_PROTOCOL_VERSION) ∧
        (k.buffer = true ∧ total - SdioLink.ethOffset b ≤ k.frameCapacity) ∧
          frame = bytesFrom b (SdioLink.ethOffset b) total := by
  have hlt : SdioLink.headerLength b < 256 := (b 7).toNat_lt
  have hd := (b (SdioLink.headerLength b + 3)).toNat_lt
  have hoffset : ethernetOffset (SdioLink.headerLength b) (b (SdioLink.headerLength b + 3)) = SdioLink.ethOffset b :=
    ethernetOffset_eq hlt _
  have hsmall : SdioLink.ethOffset b < 2048 := by
    simp only [SdioLink.ethOffset]
    omega
  have hend : u16 (SdioLink.ethOffset b + 14) = SdioLink.ethOffset b + 14 := u16_of_lt (by omega)
  have hrest : u16 (total - SdioLink.ethOffset b) = total - SdioLink.ethOffset b := u16_of_lt (by omega)
  have hindex : (UInt8.ofNat (SdioLink.headerLength b)).toNat = SdioLink.headerLength b :=
    UInt8.toNat_ofNat_of_lt hlt
  simp only [readData, value_bind, value_ite, value_pure]
  simp only [value_look, hoffset, hend, value_look16, hindex, hrest, value_lookRange]
  by_cases hshort : total < SdioLink.ethOffset b + 14
  · rw [if_pos hshort]
    exact ⟨nofun, fun h => absurd h.1.1.1 (by omega)⟩
  · rw [if_neg hshort]
    by_cases htype : SdioLink.be16 b (SdioLink.ethOffset b + 12) = ETHER_TYPE_BRCM
    · rw [if_pos htype]
      exact ⟨nofun, fun h => absurd htype h.1.1.2⟩
    · rw [if_neg htype]
      by_cases hversion : b (SdioLink.headerLength b) >>> BDC_VERSION_SHIFT ≠ BDC_PROTOCOL_VERSION
      · rw [if_pos hversion]
        exact ⟨nofun, fun h => absurd h.1.2 hversion⟩
      · rw [if_neg hversion]
        by_cases hroom : k.buffer = false ∨ k.frameCapacity < total - SdioLink.ethOffset b
        · rw [if_pos hroom]
          refine ⟨nofun, ?_⟩
          rintro ⟨-, ⟨hbuffer, hcapacity⟩, -⟩
          rcases hroom with hnone | hsmall
          · rw [hbuffer] at hnone
            cases hnone
          · omega
        · rw [if_neg hroom, Option.some.injEq]
          have hbuffer : k.buffer = true := by
            cases hk : k.buffer with
            | true => rfl
            | false => exact absurd (Or.inl hk) hroom
          constructor
          · rintro rfl
            exact ⟨⟨⟨by omega, htype⟩, not_not.mp hversion⟩, ⟨hbuffer, by omega⟩, rfl⟩
          · rintro ⟨-, -, rfl⟩
            rfl

theorem readFrame_value (k : Call) (htotal : total < 65536) (s : Globals) :
    ((readFrame k total s).run b).1.1 = some frame ↔
      DataFrame total b ∧ (k.buffer = true ∧ (payload total b).length ≤ k.frameCapacity) ∧
        frame = payload total b := by
  have hlt := (b 7).toNat_lt
  have hlength : (payload total b).length = total - SdioLink.ethOffset b := by
    rw [payload, bytesFrom, List.length_map, List.length_range, ethOffset_eq]
  simp only [readFrame, value_bind, value_ite, value_pure]
  simp only [value_look]
  by_cases hcontrol : b 5 &&& 0x0f = SDPCM_CONTROL_CHANNEL ∧ u16 ((b 7).toNat + CDC_HEADER_LENGTH) ≤ total
  · rw [if_pos hcontrol]
    refine ⟨nofun, fun h => absurd (hcontrol.1.symm.trans h.1.channel) (by decide)⟩
  · rw [if_neg hcontrol]
    by_cases hevent : b 5 &&& 0x0f = SDPCM_EVENT_CHANNEL
    · rw [if_pos hevent]
      exact ⟨nofun, fun h => absurd (hevent.symm.trans h.1.channel) (by decide)⟩
    · rw [if_neg hevent]
      by_cases hdata : b 5 &&& 0x0f ≠ SDPCM_DATA_CHANNEL ∨ (b 7).toNat < SDPCM_DATA_HEADER_LENGTH ∨
          total ≤ u16 ((b 7).toNat + 4)
      · rw [if_pos hdata]
        refine ⟨nofun, ?_⟩
        rintro ⟨⟨hchannel, hheader, hlong, -, -⟩, -, -⟩
        simp only [SdioLink.headerLength] at hheader hlong
        rcases hdata with hother | hshort | hend
        · exact absurd hchannel hother
        · omega
        · rw [u16_of_lt (by omega)] at hend
          omega
      · rw [if_neg hdata]
        have hchannel : SdioLink.channelOf b = SDPCM_DATA_CHANNEL := not_not.mp fun h => hdata (Or.inl h)
        have hheader : SDPCM_DATA_HEADER_LENGTH ≤ SdioLink.headerLength b :=
          Nat.le_of_not_lt fun h => hdata (Or.inr (Or.inl h))
        refine (readData_value k htotal _).trans ?_
        rw [hlength, payload, ethOffset_eq, SdioLink.ethertype, ethOffset_eq]
        constructor
        · rintro ⟨⟨⟨hlong, htype⟩, hversion⟩, hfits, hframe⟩
          exact ⟨⟨hchannel, hheader, hlong, hversion, htype⟩, hfits, hframe⟩
        · rintro ⟨⟨-, -, hlong, hversion, htype⟩, hfits, hframe⟩
          exact ⟨⟨⟨hlong, htype⟩, hversion⟩, hfits, hframe⟩

end Deliver

def TagsRight (tag0 tag1 : UInt16) : Prop :=
  tag0 ^^^ tag1 = 0xffff ∧ 12 ≤ tag0.toNat ∧ tag0.toNat ≤ SDIO_RUNTIME_MAX_FRAME_SIZE

theorem tags_iff (tag0 tag1 : UInt16) :
    (tag0 ^^^ tag1 ≠ 0xffff ∨ tag0.toNat < 12 ∨ SDIO_RUNTIME_MAX_FRAME_SIZE < tag0.toNat) ↔
      ¬TagsRight tag0 tag1 := by
  rw [TagsRight, not_and_or, not_and_or, Nat.not_le, Nat.not_le]

/-! ### What was sent -/

def tagWord (lo hi : UInt8) : UInt16 := UInt16.ofNat (lo.toNat + 256 * hi.toNat)

def frameType (frame : List UInt8) : UInt16 := SdioLink.be16 (fun i => frame.getD i 0) 12

def readBack (k : Call) (bytes : List UInt8) (behind : Nat → UInt8) (s : Globals) : Received :=
  completeReadEthernetFrame k (tagWord (bytes.getD 0 0) (bytes.getD 1 0)) (tagWord (bytes.getD 2 0) (bytes.getD 3 0))
    (some fun i => (bytes[i + 4]?).getD (behind i)) s

section RoundTrip

variable {frame : List UInt8} {sequence : UInt8}

theorem sent_frame {a : Sdpcm.Answer} {t : Sdpcm.Runtime} {bytes : List UInt8}
    (h : (Sdpcm.sdioRuntimeSendEthernetFrame a frame t).frame = some bytes) :
    ∃ sequence, bytes = Sdpcm.txFrame sequence frame := by
  rw [Sdpcm.sdioRuntimeSendEthernetFrame] at h
  split at h
  · cases h
  · split at h
    · cases h
    · split at h
      · cases h
      · split at h
        · cases h
        · split at h
          split at h
          · cases h
            exact ⟨_, rfl⟩
          · cases h
          · cases h
            exact ⟨_, rfl⟩

theorem tagWord_bytes (v : UInt16) : tagWord v.toUInt8 (v >>> 8).toUInt8 = v := by
  have hv := v.toNat_lt
  apply UInt16.toNat_inj.mp
  rw [tagWord, UInt16.toNat_ofNat', UInt16.toNat_toUInt8, UInt16.toNat_toUInt8, UInt16.toNat_shiftRight,
    Nat.shiftRight_eq_div_pow]
  have height : (8 : UInt16).toNat % 16 = 8 := rfl
  rw [height]
  omega

theorem txFrame_get (i : Nat) : (Sdpcm.txFrame sequence frame)[i + 18]? = frame[i]? := by
  rw [Sdpcm.txFrame, List.getElem?_append_right (by simp)]
  simp

theorem function2Bytes_ge {n : Nat} (h : n ≤ SDIO_RUNTIME_MAX_FRAME_SIZE) : n ≤ function2Bytes n := by
  have hsmall : n ≤ 1600 := h
  rw [function2Bytes]
  by_cases hlong : SDIO_PROBE_FUNCTION2_BLOCK_SIZE < n
  · rw [if_pos hlong]
    simp only [SDIO_PROBE_FUNCTION2_BLOCK_SIZE, u16]
    omega
  · rw [if_neg hlong]

theorem frameBuffer_sent (hlong : frame.length ≤ SDIO_RUNTIME_MAX_FRAME_SIZE - 18) (behind : Nat → UInt8) {i : Nat}
    (hi : i < 18 + frame.length) {c : UInt8} (hc : (Sdpcm.txFrame sequence frame)[i]? = some c) :
    frameBuffer (UInt16.ofNat (18 + frame.length)) (~~~UInt16.ofNat (18 + frame.length))
      (fun j => ((Sdpcm.txFrame sequence frame)[j + 4]?).getD (behind j)) i = c := by
  simp only [SDIO_RUNTIME_MAX_FRAME_SIZE] at hlong
  have htotal : (UInt16.ofNat (18 + frame.length)).toNat = 18 + frame.length :=
    UInt16.toNat_ofNat_of_lt (show _ < 65536 by omega)
  rw [frameBuffer]
  by_cases h4 : i < 4
  · rw [if_pos h4]
    have hcases : i = 0 ∨ i = 1 ∨ i = 2 ∨ i = 3 := by omega
    rcases hcases with rfl | rfl | rfl | rfl
    · exact Option.some.inj hc
    · exact Option.some.inj hc
    · exact Option.some.inj hc
    · exact Option.some.inj hc
  · have hmoved := @function2Bytes_ge (18 + frame.length - 4) (by simp only [SDIO_RUNTIME_MAX_FRAME_SIZE]; omega)
    have hback : i - 4 + 4 = i := by omega
    rw [if_neg h4, htotal, u16_of_lt (by omega), if_pos (by omega), hback, hc]
    rfl

theorem readBack_sent (k : Call) (hshort : 14 ≤ frame.length)
    (hlong : frame.length ≤ SDIO_RUNTIME_MAX_FRAME_SIZE - 18) (htype : frameType frame ≠ ETHER_TYPE_BRCM)
    (hbuffer : k.buffer = true) (hcapacity : frame.length ≤ k.frameCapacity) (behind : Nat → UInt8) (s : Globals) :
    (readBack k (Sdpcm.txFrame sequence frame) behind s).frame = some frame := by
  have hsmall : frame.length ≤ 1582 := hlong
  have htotal : (UInt16.ofNat (18 + frame.length)).toNat = 18 + frame.length :=
    UInt16.toNat_ofNat_of_lt (show _ < 65536 by omega)
  have htags : TagsRight (UInt16.ofNat (18 + frame.length)) (~~~UInt16.ofNat (18 + frame.length)) := by
    refine ⟨?_, ?_, ?_⟩
    · rw [UInt16.xor_not, UInt16.xor_self]
      decide
    · rw [htotal]
      omega
    · rw [htotal]
      exact Nat.add_comm 18 _ ▸ (show frame.length + 18 ≤ 1600 by omega)
  have hfirst : tagWord ((Sdpcm.txFrame sequence frame).getD 0 0) ((Sdpcm.txFrame sequence frame).getD 1 0) =
      UInt16.ofNat (18 + frame.length) := tagWord_bytes _
  have hsecond : tagWord ((Sdpcm.txFrame sequence frame).getD 2 0) ((Sdpcm.txFrame sequence frame).getD 3 0) =
      ~~~UInt16.ofNat (18 + frame.length) := tagWord_bytes _
  simp only [readBack, hfirst, hsecond, completeReadEthernetFrame]
  rw [if_neg (mt (tags_iff _ _).mp (not_not.mpr htags)), htotal]
  generalize hb : frameBuffer (UInt16.ofNat (18 + frame.length)) (~~~UInt16.ofNat (18 + frame.length))
    (fun i => ((Sdpcm.txFrame sequence frame)[i + 4]?).getD (behind i)) = b
  have hget : ∀ {i : Nat} {c : UInt8},
      i < 18 + frame.length → (Sdpcm.txFrame sequence frame)[i]? = some c → b i = c := by
    intro i c hi hc
    rw [← hb]
    exact frameBuffer_sent hlong behind hi hc
  have hheader : SdioLink.headerLength b = 14 := by
    rw [SdioLink.headerLength, hget (by omega) rfl]
    rfl
  have hoffset : (b 17).toNat = 0 := by
    rw [hget (by omega) rfl]
    rfl
  have hframe (i : Nat) (hi : i < frame.length) : b (18 + i) = frame.getD i 0 := by
    apply hget (by omega)
    rw [Nat.add_comm, txFrame_get, List.getD_eq_getElem?_getD, List.getElem?_eq_getElem hi]
    rfl
  have hpayload : payload (18 + frame.length) b = frame := by
    simp only [payload, hheader, hoffset, bytesFrom]
    apply List.ext_getElem
    · simp
    · intro i hi hi'
      simp only [List.getElem_map, List.getElem_range]
      rw [hframe i hi', List.getD_eq_getElem?_getD, List.getElem?_eq_getElem hi']
      rfl
  refine (readFrame_value k (by omega) s).mpr ⟨⟨?_, ?_, ?_, ?_, ?_⟩, ⟨hbuffer, ?_⟩, hpayload.symm⟩
  · rw [SdioLink.channelOf, hget (by omega) rfl]
    decide
  · rw [hheader]
    exact Nat.le_refl 14
  · rw [hheader]
    simp only [hoffset]
    omega
  · rw [hheader, hget (by omega) rfl]
    decide
  · simp only [hheader, hoffset]
    have h12 := hframe 12 (by omega)
    have h13 := hframe 13 (by omega)
    simp only [frameType, SdioLink.be16] at htype
    simp only [SdioLink.be16]
    rw [h12, h13]
    exact htype
  · rw [hpayload]
    exact hcapacity

end RoundTrip

/-- For any tag and any body: nothing at or beyond the length in the tag is looked at; no more is delivered than
the caller's buffer holds; what is delivered are the bytes of an Ethernet frame behind its headers and padding, and
nothing else is; and the bytes that are sent for a frame are decoded to that frame. -/
theorem receive_exact (k : Call) (tag0 tag1 : UInt16) (body : Option (Nat → UInt8)) (s : Globals) :
    (∀ i ∈ (completeReadEthernetFrame k tag0 tag1 body s).looked, i < tag0.toNat) ∧
      (∀ frame, (completeReadEthernetFrame k tag0 tag1 body s).frame = some frame →
        frame.length ≤ k.frameCapacity) ∧
      (∀ frame, (completeReadEthernetFrame k tag0 tag1 body s).frame = some frame ↔
        TagsRight tag0 tag1 ∧ ∃ bytes, body = some bytes ∧
          DataFrame tag0.toNat (frameBuffer tag0 tag1 bytes) ∧
          (k.buffer = true ∧ (payload tag0.toNat (frameBuffer tag0 tag1 bytes)).length ≤ k.frameCapacity) ∧
          frame = payload tag0.toNat (frameBuffer tag0 tag1 bytes)) ∧
      ∀ (frame : List UInt8) (a : Sdpcm.Answer) (t : Sdpcm.Runtime) (sent : List UInt8) (behind : Nat → UInt8),
        14 ≤ frame.length → frame.length ≤ SDIO_RUNTIME_MAX_FRAME_SIZE - 18 → frameType frame ≠ ETHER_TYPE_BRCM →
        (Sdpcm.sdioRuntimeSendEthernetFrame a frame t).frame = some sent →
        k.buffer = true → frame.length ≤ k.frameCapacity →
        (readBack k sent behind s).frame = some frame := by
  have hdelivered (frame : List UInt8) : (completeReadEthernetFrame k tag0 tag1 body s).frame = some frame ↔
      TagsRight tag0 tag1 ∧ ∃ bytes, body = some bytes ∧
        DataFrame tag0.toNat (frameBuffer tag0 tag1 bytes) ∧
        (k.buffer = true ∧ (payload tag0.toNat (frameBuffer tag0 tag1 bytes)).length ≤ k.frameCapacity) ∧
        frame = payload tag0.toNat (frameBuffer tag0 tag1 bytes) := by
    simp only [completeReadEthernetFrame]
    by_cases htags : TagsRight tag0 tag1
    · rw [if_neg (mt (tags_iff _ _).mp (not_not.mpr htags))]
      cases body with
      | none => exact ⟨nofun, fun ⟨_, _, h, _⟩ => nomatch h⟩
      | some bytes =>
        refine (readFrame_value k tag0.toNat_lt s).trans ?_
        constructor
        · intro h
          exact ⟨htags, bytes, rfl, h⟩
        · rintro ⟨-, bytes', hbytes, h⟩
          cases hbytes
          exact h
    · rw [if_pos ((tags_iff _ _).mpr htags)]
      exact ⟨nofun, fun h => absurd h.1 htags⟩
  refine ⟨?_, ?_, hdelivered, ?_⟩
  · simp only [completeReadEthernetFrame]
    by_cases htags : TagsRight tag0 tag1
    · rw [if_neg (mt (tags_iff _ _).mp (not_not.mpr htags))]
      cases body with
      | none => exact fun i hi => absurd hi List.not_mem_nil
      | some bytes => exact inside_readFrame k htags.2.1 tag0.toNat_lt s _
    · rw [if_pos ((tags_iff _ _).mpr htags)]
      exact fun i hi => absurd hi List.not_mem_nil
  · intro frame hframe
    obtain ⟨-, bytes, -, -, ⟨-, hfits⟩, rfl⟩ := (hdelivered frame).mp hframe
    exact hfits
  · intro frame a t sent behind hshort hlong htype hsent hbuffer hcapacity
    obtain ⟨sequence, rfl⟩ := sent_frame hsent
    exact readBack_sent k hshort hlong htype hbuffer hcapacity behind s

/-- A frame of twenty bytes that is sent is received. -/
theorem receive_exact_sent :
    ∃ (s : Globals) (sent : List UInt8),
      (Sdpcm.sdioRuntimeSendEthernetFrame ⟨0, 0, true, .written⟩ (List.replicate 20 7) { started := true }).frame =
        some sent ∧ (readBack ⟨true, 1500, 0, 0⟩ sent (fun _ => 0) s).frame = some (List.replicate 20 7) := by
  refine ⟨⟨{}, {}, ⟨false, 0, false, []⟩, ⟨false, 0, false, 0⟩, ⟨false, 0, false, 0⟩, ⟨false, 0, false, 0⟩,
    ⟨false, 0, false, []⟩, ⟨false, 0, false, 0⟩, 0, 0⟩, Sdpcm.txFrame 0 (List.replicate 20 7), rfl, ?_⟩
  exact (receive_exact ⟨true, 1500, 0, 0⟩ 0 0 none _).2.2.2 _ ⟨0, 0, true, .written⟩ { started := true } _ _
    (by decide) (by decide) (by decide) rfl rfl (by decide)

end Pi1MHz.SdpcmReceive
