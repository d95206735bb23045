import Pi1MHz.MtpCache

/-!
# MTP: reading an object

`fs_get_object` and `fs_get_partial_object` of `mtp_fs.c` with the state they share, and the callbacks
that let go of it.  The USB driver is not part of the repository: of it the model has what it calls
and when, and `sends` is what goes over the wire of a buffer that is handed to it.
-/

namespace Pi1MHz.MtpRead

open Ws (Str)
open Mtp (CacheEntry fsGetEntryByHandle)

structure FatFile where
  bytes : List UInt8
  small : bytes.length < 2 ^ 32

/-- A `FIL` that has been opened for reading. -/
structure Fil where
  file : FatFile
  fptr : Nat

def fRead (f : Fil) (btr : Nat) : List UInt8 × Fil :=
  let data := (f.file.bytes.drop f.fptr).take btr
  (data, { f with fptr := f.fptr + data.length })

structure Volume where
  cache : Option (List CacheEntry)
  fOpen : List Str → Option FatFile

structure Disk where
  seekFails : Bool
  readFails : Bool

def Disk.good : Disk := ⟨false, false⟩

/-! ### The read state -/

/-- `read_state_t`; `file` stands for `file_open` and the `FIL`. -/
structure ReadState where
  active : Bool
  file : Option Fil
  handle : UInt32
  transferred : UInt32
  size : UInt32

def fsReleaseReadState : ReadState := ⟨false, none, 0, 0, 0⟩

/-- `mtp_container_info_t`: the length in the header, and the room for a payload with what it holds. -/
structure Container where
  len : UInt32
  payload : List UInt8

inductive Refusal
  | invalidObjectHandle
  | invalidObjectFormatCode
  | generalError
deriving DecidableEq, Repr

/-- How a callback returns.  `sent` says whether `tud_mtp_data_send` has been called. -/
structure Called where
  read : ReadState
  io : Container
  sent : Bool
  refusal : Option Refusal

def CONTAINER_HEADER : UInt32 := 12

def tuMin32 (x y : UInt32) : UInt32 := if x < y then x else y

def fsReadPrepare (g : ReadState) (objHandle totalSize : UInt32) (io : Container) :
    ReadState × Container :=
  ({ g with active := true, handle := objHandle, transferred := 0, size := totalSize },
    { io with len := CONTAINER_HEADER + totalSize })

def fsReadSendNext (disk : Disk) (g : ReadState) (io : Container) (sendWhenEmpty : Bool) : Called :=
  let remain := if g.transferred < g.size then g.size - g.transferred else 0
  let xactLen := min remain.toNat io.payload.length
  if 0 < xactLen then
    match g.file with
    | none => ⟨fsReleaseReadState, io, false, some .generalError⟩
    | some f =>
      let r := fRead f xactLen
      if disk.readFails ∨ r.1.length ≠ xactLen then ⟨fsReleaseReadState, io, false, some .generalError⟩
      else
        ⟨{ g with file := some r.2, transferred := g.transferred + UInt32.ofNat r.1.length },
          { io with payload := r.1 ++ io.payload.drop xactLen }, true, none⟩
  else ⟨g, io, sendWhenEmpty, none⟩

inductive Phase
  | command (volume : Volume)
  | data

/-- The checks of both commands, up to `f_open`. -/
def openObject (volume : Volume) (handle : UInt32) : Except Refusal FatFile :=
  match volume.cache.bind fun cache => fsGetEntryByHandle cache handle with
  | none => .error .invalidObjectHandle
  | some e =>
    if e.isDir then .error .invalidObjectFormatCode
    else match volume.fOpen e.path with
      | none => .error .generalError
      | some f => .ok f

/-- What is left of the read state when `openObject` refuses: a failed `f_open` has let go of it. -/
def refused (g : ReadState) (io : Container) (r : Refusal) : Called :=
  ⟨if r = .generalError then fsReleaseReadState else g, io, false, some r⟩

def fsGetObject (disk : Disk) (phase : Phase) (handle : UInt32) (g : ReadState) (io : Container) : Called :=
  match phase with
  | .command volume =>
    match openObject volume handle with
    | .error r => refused g io r
    | .ok f =>
      let actualSize := UInt32.ofNat f.bytes.length
      let p := fsReadPrepare { fsReleaseReadState with file := some ⟨f, 0⟩ } handle actualSize io
      fsReadSendNext disk p.1 p.2 true
  | .data =>
    if g.active = false ∨ g.handle ≠ handle then ⟨g, io, false, some .generalError⟩
    else fsReadSendNext disk g io false

def fsGetPartialObject (disk : Disk) (phase : Phase) (handle offset maxBytes : UInt32) (g : ReadState)
    (io : Container) : Called :=
  match phase with
  | .command volume =>
    match openObject volume handle with
    | .error r => refused g io r
    | .ok f =>
      let actualSize := UInt32.ofNat f.bytes.length
      let start := tuMin32 offset actualSize
      let remain := actualSize - start
      let reqSize := if maxBytes = 0 then remain else tuMin32 maxBytes remain
      if disk.seekFails then ⟨fsReleaseReadState, io, false, some .generalError⟩
      else
        let p := fsReadPrepare { fsReleaseReadState with file := some ⟨f, start.toNat⟩ } handle reqSize io
        fsReadSendNext disk p.1 p.2 true
  | .data =>
    if g.active = false ∨ g.handle ≠ handle then ⟨g, io, false, some .generalError⟩
    else fsReadSendNext disk g io false

/-- A read operation; `part` has the offset and the length of GetPartialObject. -/
structure Op where
  handle : UInt32
  part : Option (UInt32 × UInt32)

def fsDispatchOp (disk : Disk) (phase : Phase) (op : Op) (g : ReadState) (io : Container) : Called :=
  match op.part with
  | none => fsGetObject disk phase op.handle g io
  | some (offset, maxBytes) => fsGetPartialObject disk phase op.handle offset maxBytes g io

/-! ### The operations, one after the other -/

/-- A data phase.  `object` is the file that the handle stood for when the command came. -/
structure Transfer where
  op : Op
  object : FatFile
  announced : UInt32
  delivered : List UInt8

structure Answer where
  transfer : Transfer
  ok : Bool
  count : Option UInt32

structure System where
  read : ReadState
  transfer : Option Transfer
  answers : List Answer

def start : System := ⟨fsReleaseReadState, none, []⟩

/-- The calls of the driver.  `complete` has the result of the USB transfer. -/
inductive Event
  | command (volume : Volume) (disk : Disk) (op : Op) (io : Container)
  | data (disk : Disk) (io : Container)
  | complete (success : Bool)
  | cancel
  | deviceReset
  | closeSession (opened : Bool)
  | other

section Run

variable (sends : Nat → List UInt8 → List UInt8)

/-- What goes out of a container, of `left` bytes that are still announced. -/
def Called.wire (c : Called) (left : Nat) : List UInt8 := if c.sent then sends left c.io.payload else []

def step (s : System) : Event → System
  | .command volume disk op io =>
    let c := fsDispatchOp disk (.command volume) op s.read io
    match c.refusal, openObject volume op.handle with
    | none, .ok f => { s with
        read := c.read
        transfer := some ⟨op, f, c.io.len, c.wire sends (c.io.len.toNat - 12)⟩ }
    | _, _ => { s with read := c.read, transfer := none }
  | .data disk io =>
    match s.transfer with
    | none => s
    | some t =>
      let c := fsDispatchOp disk .data t.op s.read io
      match c.refusal with
      | some _ => { read := c.read, transfer := none, answers := s.answers ++ [⟨t, false, none⟩] }
      | none => { s with
          read := c.read
          transfer := some { t with
            delivered := t.delivered ++ c.wire sends (t.announced.toNat - 12 - t.delivered.length) } }
  | .complete success =>
    match s.transfer with
    | none => s
    | some t =>
      { read := fsReleaseReadState
        transfer := none
        answers := s.answers ++ [⟨t, success, t.op.part.map fun _ => s.read.transferred⟩] }
  | .cancel => { s with read := fsReleaseReadState, transfer := none }
  | .deviceReset => { s with transfer := none }
  | .closeSession opened =>
    { s with read := if opened then fsReleaseReadState else s.read, transfer := none }
  | .other => { s with transfer := none }

def run (s : System) : List Event → System
  | [] => s
  | e :: es => run (step sends s e) es

def Allowed (s : System) : Event → Prop
  | .complete true => ∀ t, s.transfer = some t → t.announced.toNat = 12 + t.delivered.length
  | _ => True

def AllAllowed (s : System) : List Event → Prop
  | [] => True
  | e :: es => Allowed s e ∧ AllAllowed (step sends s e) es

end Run

def TakesAnnounced (sends : Nat → List UInt8 → List UInt8) : Prop :=
  ∀ left payload, sends left payload = payload.take left

def Op.start (op : Op) (object : List UInt8) : Nat :=
  match op.part with
  | none => 0
  | some (offset, _) => min offset.toNat object.length

def Op.wanted (op : Op) (object : List UInt8) : List UInt8 :=
  match op.part with
  | none => object
  | some (offset, maxBytes) =>
    if maxBytes = 0 then object.drop offset.toNat else (object.drop offset.toNat).take maxBytes.toNat

def Transfer.wanted (t : Transfer) : List UInt8 := t.op.wanted t.object.bytes

def Transfer.Short (t : Transfer) : Prop := t.wanted.length + 12 < 2 ^ 32

structure Delivers (sends : Nat → List UInt8 → List UInt8) (s : System) : Prop where
  underway : ∀ t, s.transfer = some t → t.Short →
    t.announced.toNat = 12 + t.wanted.length ∧ t.delivered <+: t.wanted
  ended : ∀ a ∈ s.answers, a.transfer.Short →
    a.transfer.announced.toNat = 12 + a.transfer.wanted.length ∧
      a.transfer.delivered <+: a.transfer.wanted ∧
      (a.ok = true → a.transfer.delivered = a.transfer.wanted ∧
        a.count = a.transfer.op.part.map fun _ => UInt32.ofNat a.transfer.wanted.length)
  begins : ∀ volume op io f, openObject volume op.handle = .ok f →
    ∃ t, (step sends s (.command volume .good op io)).transfer = some t ∧ t.op = op ∧ t.object = f
  proceeds : ∀ t, s.transfer = some t → t.Short → ∀ ios : List Container,
    (run sends s (ios.map (.data .good))).transfer =
      some { t with delivered :=
        t.wanted.take (t.delivered.length + (ios.map fun io => io.payload.length).sum) }

/-! ### The bytes of an operation -/

section Bytes

theorem toNat_tuMin32 (x y : UInt32) : (tuMin32 x y).toNat = min x.toNat y.toNat := by
  rw [tuMin32]
  split
  · next h =>
    have := UInt32.lt_iff_toNat_lt.mp h
    omega
  · next h =>
    have := mt UInt32.lt_iff_toNat_lt.mpr h
    omega

theorem FatFile.toNat_size (f : FatFile) : (UInt32.ofNat f.bytes.length).toNat = f.bytes.length := by
  rw [UInt32.toNat_ofNat', Nat.mod_eq_of_lt f.small]

theorem drop_min (l : List UInt8) (n : Nat) : l.drop (min n l.length) = l.drop n := by
  rcases Nat.le_total n l.length with h | h
  · rw [Nat.min_eq_left h]
  · rw [Nat.min_eq_right h, List.drop_length, List.drop_eq_nil_of_le h]

theorem Op.wanted_eq (op : Op) (object : List UInt8) :
    op.wanted object = (object.drop (op.start object)).take (op.wanted object).length := by
  apply List.prefix_iff_eq_take.mp
  rw [Op.wanted, Op.start]
  split
  · exact List.prefix_rfl
  · simp only [drop_min]
    split
    · exact List.prefix_rfl
    · exact List.take_prefix _ _

theorem part_size (f : FatFile) {op : Op} {offset maxBytes : UInt32} (h : op.part = some (offset, maxBytes)) :
    (tuMin32 offset (UInt32.ofNat f.bytes.length)).toNat = op.start f.bytes ∧
      (if maxBytes = 0 then UInt32.ofNat f.bytes.length - tuMin32 offset (UInt32.ofNat f.bytes.length)
        else tuMin32 maxBytes
          (UInt32.ofNat f.bytes.length - tuMin32 offset (UInt32.ofNat f.bytes.length))).toNat =
      (op.wanted f.bytes).length := by
  have hstart : (tuMin32 offset (UInt32.ofNat f.bytes.length)).toNat = min offset.toNat f.bytes.length := by
    rw [toNat_tuMin32, f.toNat_size]
  have hremain : (UInt32.ofNat f.bytes.length - tuMin32 offset (UInt32.ofNat f.bytes.length)).toNat =
      f.bytes.length - offset.toNat := by
    rw [UInt32.toNat_sub_of_le _ _ (UInt32.le_iff_toNat_le.mpr (by rw [hstart, f.toNat_size]; omega)),
      hstart, f.toNat_size]
    omega
  constructor
  · rw [hstart, Op.start, h]
  · simp only [Op.wanted, h]
    split
    · rw [hremain, List.length_drop]
    · rw [toNat_tuMin32, hremain, List.length_take, List.length_drop]

end Bytes

/-! ### One callback -/

structure Reading (g : ReadState) (t : Transfer) : Prop where
  active : g.active = true
  handle : g.handle = t.op.handle
  size : g.size.toNat = t.wanted.length
  announced : t.announced = CONTAINER_HEADER + g.size
  reached : g.transferred.toNat ≤ t.wanted.length
  file : g.file = some ⟨t.object, t.op.start t.object.bytes + g.transferred.toNat⟩
  delivered : t.Short → t.delivered = t.wanted.take g.transferred.toNat

section Callback

variable {sends : Nat → List UInt8 → List UInt8} {g : ReadState} {t : Transfer}

def Transfer.more (t : Transfer) (bytes : List UInt8) : Transfer := { t with delivered := t.delivered ++ bytes }

namespace Reading

theorem announced_toNat (h : Reading g t) (hs : t.Short) : t.announced.toNat = 12 + t.wanted.length := by
  have hs' : t.wanted.length + 12 < 2 ^ 32 := hs
  have hheader : CONTAINER_HEADER.toNat = 12 := rfl
  rw [h.announced, UInt32.toNat_add, hheader, h.size]
  omega

theorem delivered_length (h : Reading g t) (hs : t.Short) : t.delivered.length = g.transferred.toNat := by
  rw [h.delivered hs, List.length_take]
  exact Nat.min_eq_left h.reached

theorem left (h : Reading g t) (hs : t.Short) :
    t.announced.toNat - 12 - t.delivered.length = t.wanted.length - g.transferred.toNat := by
  rw [h.announced_toNat hs, h.delivered_length hs]
  omega

theorem fRead_eq {n : Nat} (hn : n ≤ t.wanted.length - g.transferred.toNat) :
    fRead ⟨t.object, t.op.start t.object.bytes + g.transferred.toNat⟩ n =
      ((t.wanted.drop g.transferred.toNat).take n,
        ⟨t.object, t.op.start t.object.bytes + (g.transferred.toNat + n)⟩) := by
  have hbytes : (t.object.bytes.drop (t.op.start t.object.bytes + g.transferred.toNat)).take n =
      (t.wanted.drop g.transferred.toNat).take n := by
    rw [Transfer.wanted, t.op.wanted_eq t.object.bytes, List.drop_take, List.drop_drop, List.take_take]
    rw [Transfer.wanted] at hn
    rw [Nat.min_eq_left hn]
  have hlen : ((t.wanted.drop g.transferred.toNat).take n).length = n := by
    rw [List.length_take, List.length_drop]
    exact Nat.min_eq_left hn
  simp only [fRead, hbytes, hlen, Nat.add_assoc]

theorem remain_toNat (h : Reading g t) :
    (if g.transferred < g.size then g.size - g.transferred else 0).toNat =
      t.wanted.length - g.transferred.toNat := by
  have hsize := h.size
  have hreached := h.reached
  split
  · next hlt =>
    have hle := UInt32.le_iff_toNat_le.mpr (Nat.le_of_lt (UInt32.lt_iff_toNat_lt.mp hlt))
    rw [UInt32.toNat_sub_of_le _ _ hle, hsize]
  · next hge =>
    have hnot := mt UInt32.lt_iff_toNat_lt.mpr hge
    rw [UInt32.toNat_zero]
    omega

theorem stay (h : Reading g t) {bytes : List UInt8} (hnone : t.Short → bytes = []) :
    Reading g (t.more bytes) :=
  { h with
    delivered hs := by
      show t.delivered ++ bytes = _
      rw [hnone hs, List.append_nil]
      exact h.delivered hs }

theorem advance (h : Reading g t) {n : Nat} (hn : n ≤ t.wanted.length - g.transferred.toNat)
    {bytes : List UInt8} (hbytes : t.Short → bytes = (t.wanted.drop g.transferred.toNat).take n) :
    (g.transferred + UInt32.ofNat n).toNat = g.transferred.toNat + n ∧
    Reading { g with
        file := some ⟨t.object, t.op.start t.object.bytes + (g.transferred.toNat + n)⟩
        transferred := g.transferred + UInt32.ofNat n } (t.more bytes) := by
  have hsize := h.size
  have hreached := h.reached
  have hlt := g.size.toNat_lt
  have hsum : (g.transferred + UInt32.ofNat n).toNat = g.transferred.toNat + n := by
    rw [UInt32.toNat_add, UInt32.toNat_ofNat']
    omega
  refine ⟨hsum, h.active, h.handle, h.size, h.announced, ?_, ?_, fun hs => ?_⟩
  · show (g.transferred + UInt32.ofNat n).toNat ≤ t.wanted.length
    omega
  · show some _ = some (Fil.mk t.object (_ + (g.transferred + UInt32.ofNat n).toNat))
    rw [hsum]
    rfl
  · show t.delivered ++ bytes = t.wanted.take (g.transferred + UInt32.ofNat n).toNat
    rw [hsum, hbytes hs, h.delivered hs, List.take_add]

theorem send (h : Reading g t) (hsends : TakesAnnounced sends) (disk : Disk) (io : Container)
    (empty : Bool) : ∃ c, fsReadSendNext disk g io empty = c ∧ c.io.len = io.len ∧
      (disk.readFails = false → c.refusal = none) ∧
      (c.refusal = none →
        c.read.transferred.toNat = min t.wanted.length (g.transferred.toNat + io.payload.length) ∧
        Reading c.read (t.more (c.wire sends (t.announced.toNat - 12 - t.delivered.length)))) := by
  have hreached := h.reached
  obtain ⟨n, hn⟩ : ∃ n, n = min (t.wanted.length - g.transferred.toNat) io.payload.length := ⟨_, rfl⟩
  refine ⟨_, rfl, ?_⟩
  simp only [fsReadSendNext, h.remain_toNat, ← hn, h.file]
  rcases Nat.eq_zero_or_pos n with hzero | hpos
  · rw [if_neg (by omega)]
    refine ⟨rfl, fun _ => rfl, fun _ => ⟨by simp only; omega, h.stay fun hs => ?_⟩⟩
    rw [Called.wire, h.left hs]
    split
    · rw [hsends]
      apply List.eq_nil_of_length_eq_zero
      rw [List.length_take, ← hn, hzero]
    · rfl
  · rw [if_pos hpos, fRead_eq (by omega)]
    have hlen : ((t.wanted.drop g.transferred.toNat).take n).length = n := by
      rw [List.length_take, List.length_drop]
      omega
    simp only [hlen, ne_eq, not_true_eq_false, or_false]
    rcases Bool.eq_false_or_eq_true disk.readFails with hfails | hfails
    · rw [if_pos hfails]
      exact ⟨rfl, fun hgood => absurd (hfails.symm.trans hgood) (by decide), nofun⟩
    · rw [if_neg (by rw [hfails]; exact Bool.false_ne_true)]
      refine ⟨rfl, fun _ => rfl, fun _ => ?_⟩
      have hbytes (hs : t.Short) : sends (t.announced.toNat - 12 - t.delivered.length)
          ((t.wanted.drop g.transferred.toNat).take n ++ io.payload.drop n) =
          (t.wanted.drop g.transferred.toNat).take n := by
        rw [hsends, h.left hs]
        -- either all that is left goes out, or the room is used up
        rcases Nat.le_total (t.wanted.length - g.transferred.toNat) io.payload.length with hle | hle
        · rw [List.take_append_of_le_length (by omega), List.take_of_length_le (by omega)]
        · rw [List.drop_eq_nil_of_le (by omega : io.payload.length ≤ n), List.append_nil,
            List.take_of_length_le (by omega)]
      have hnext := h.advance (by omega : n ≤ _) hbytes
      refine ⟨?_, hnext.2⟩
      show (g.transferred + UInt32.ofNat n).toNat = _
      rw [hnext.1]
      omega

end Reading

theorem prepared (op : Op) (f : FatFile) {total : UInt32} (io : Container)
    (htotal : total.toNat = (op.wanted f.bytes).length) {fptr : Nat} (hfptr : fptr = op.start f.bytes) :
    Reading (fsReadPrepare { fsReleaseReadState with file := some ⟨f, fptr⟩ } op.handle total io).1
      ⟨op, f, CONTAINER_HEADER + total, []⟩ where
  active := rfl
  handle := rfl
  size := htotal
  announced := rfl
  reached := Nat.zero_le _
  file := by rw [hfptr]; rfl
  delivered _ := rfl

theorem prepared_send (hsends : TakesAnnounced sends) (disk : Disk) (op : Op) (f : FatFile) {total : UInt32}
    (io : Container) (htotal : total.toNat = (op.wanted f.bytes).length) {fptr : Nat}
    (hfptr : fptr = op.start f.bytes) :
    ∃ c, fsReadSendNext disk
        (fsReadPrepare { fsReleaseReadState with file := some ⟨f, fptr⟩ } op.handle total io).1
        { io with len := CONTAINER_HEADER + total } true = c ∧
      (disk.readFails = false → c.refusal = none) ∧
      (c.refusal = none → Reading c.read ⟨op, f, c.io.len, c.wire sends (c.io.len.toNat - 12)⟩) := by
  obtain ⟨c, hc, hlen, hgood, hread⟩ := (prepared op f io htotal hfptr).send hsends disk
    { io with len := CONTAINER_HEADER + total } true
  refine ⟨c, hc, hgood, fun hok => ?_⟩
  rw [hlen]
  exact (hread hok).2

theorem dispatch_command (hsends : TakesAnnounced sends) {volume : Volume} (disk : Disk) {op : Op}
    (io : Container) {f : FatFile} (hopen : openObject volume op.handle = .ok f) (g : ReadState) :
    ∃ c, fsDispatchOp disk (.command volume) op g io = c ∧ (disk = .good → c.refusal = none) ∧
      (c.refusal = none → Reading c.read ⟨op, f, c.io.len, c.wire sends (c.io.len.toNat - 12)⟩) := by
  rcases hpart : op.part with _ | ⟨offset, maxBytes⟩
  · have htotal : (UInt32.ofNat f.bytes.length).toNat = (op.wanted f.bytes).length := by
      rw [f.toNat_size, Op.wanted, hpart]
    have hfptr : 0 = op.start f.bytes := by rw [Op.start, hpart]
    obtain ⟨c, hc, hgood, hread⟩ := prepared_send hsends disk op f io htotal hfptr
    refine ⟨c, ?_, fun h => hgood (by rw [h]; rfl), hread⟩
    rw [fsDispatchOp, hpart]
    simp only [fsGetObject, hopen]
    exact hc
  · obtain ⟨hfptr, htotal⟩ := part_size f hpart
    obtain ⟨c, hc, hgood, hread⟩ := prepared_send hsends disk op f io htotal hfptr
    rw [fsDispatchOp, hpart]
    simp only [fsGetPartialObject, hopen]
    rcases Bool.eq_false_or_eq_true disk.seekFails with hseek | hseek
    · refine ⟨_, if_pos hseek, fun h => ?_, nofun⟩
      rw [h] at hseek
      exact absurd hseek (by decide)
    · exact ⟨c, (if_neg (by rw [hseek]; exact Bool.false_ne_true)).trans hc,
        fun h => hgood (by rw [h]; rfl), hread⟩

theorem Reading.dispatch_data (h : Reading g t) (disk : Disk) (io : Container) :
    fsDispatchOp disk .data t.op g io = fsReadSendNext disk g io false := by
  have hgo : ¬ (g.active = false ∨ g.handle ≠ t.op.handle) := by
    rw [h.active, h.handle]
    simp
  rw [fsDispatchOp]
  split
  · exact if_neg hgo
  · exact if_neg hgo

end Callback

/-! ### Runs -/

section Runs

variable {sends : Nat → List UInt8 → List UInt8} {s : System}

structure Ended (a : Answer) : Prop where
  announced : a.transfer.announced.toNat = 12 + a.transfer.wanted.length
  delivered : a.transfer.delivered <+: a.transfer.wanted
  whole : a.ok = true → a.transfer.delivered = a.transfer.wanted ∧
    a.count = a.transfer.op.part.map fun _ => UInt32.ofNat a.transfer.wanted.length

structure Inv (s : System) : Prop where
  reading : ∀ t, s.transfer = some t → Reading s.read t
  ended : ∀ a ∈ s.answers, a.transfer.Short → Ended a

namespace Reading

variable {g : ReadState} {t : Transfer}

theorem prefix_wanted (h : Reading g t) (hs : t.Short) : t.delivered <+: t.wanted := by
  rw [h.delivered hs]
  exact List.take_prefix _ _

theorem cut_off (h : Reading g t) (hs : t.Short) : Ended ⟨t, false, none⟩ :=
  ⟨h.announced_toNat hs, h.prefix_wanted hs, nofun⟩

theorem completed (h : Reading g t) (hs : t.Short) {ok : Bool}
    (hall : ok = true → t.announced.toNat = 12 + t.delivered.length) :
    Ended ⟨t, ok, t.op.part.map fun _ => g.transferred⟩ := by
  refine ⟨h.announced_toNat hs, h.prefix_wanted hs, fun hok => ?_⟩
  have hlen := h.announced_toNat hs
  have hcount : g.transferred.toNat = t.wanted.length := by
    rw [← h.delivered_length hs]
    have := hall hok
    omega
  constructor
  · show t.delivered = t.wanted
    rw [h.delivered hs, hcount, List.take_length]
  · show (t.op.part.map fun _ => g.transferred) = t.op.part.map fun _ => UInt32.ofNat t.wanted.length
    rw [← hcount, UInt32.ofNat_toNat]

end Reading

theorem inv_start : Inv start := ⟨nofun, nofun⟩

theorem Inv.step (h : Inv s) (hsends : TakesAnnounced sends) {e : Event} (ha : Allowed s e) :
    Inv (step sends s e) := by
  cases e with
  | command volume disk op io =>
    rw [MtpRead.step]
    split
    · next f hok hopen =>
      obtain ⟨_, rfl, -, hread⟩ := dispatch_command hsends disk io hopen s.read
      refine ⟨fun t ht => ?_, h.ended⟩
      cases ht
      exact hread hok
    · exact ⟨nofun, h.ended⟩
  | data disk io =>
    rcases htransfer : s.transfer with _ | t
    · rw [MtpRead.step, htransfer]
      exact h
    · have hr := h.reading t htransfer
      obtain ⟨c, hc, -, -, hread⟩ := hr.send hsends disk io false
      simp only [MtpRead.step, htransfer, hr.dispatch_data, hc]
      rcases hrefusal : c.refusal with _ | r
      · refine ⟨fun t' ht => ?_, h.ended⟩
        cases ht
        exact (hread hrefusal).2
      · refine ⟨nofun, fun a hmem hshort => ?_⟩
        rcases List.mem_append.mp hmem with hold | hnew
        · exact h.ended a hold hshort
        · rw [List.mem_singleton.mp hnew] at hshort ⊢
          exact hr.cut_off hshort
  | complete success =>
    rcases htransfer : s.transfer with _ | t
    · rw [MtpRead.step, htransfer]
      exact h
    · rw [MtpRead.step, htransfer]
      refine ⟨nofun, fun a hmem hshort => ?_⟩
      rcases List.mem_append.mp hmem with hold | hnew
      · exact h.ended a hold hshort
      · rw [List.mem_singleton.mp hnew] at hshort ⊢
        refine (h.reading t htransfer).completed hshort fun hok => ?_
        subst hok
        exact ha t htransfer
  | cancel => exact ⟨nofun, h.ended⟩
  | deviceReset => exact ⟨nofun, h.ended⟩
  | closeSession opened => exact ⟨nofun, h.ended⟩
  | other => exact ⟨nofun, h.ended⟩

theorem Inv.run (h : Inv s) (hsends : TakesAnnounced sends) {es : List Event}
    (ha : AllAllowed sends s es) : Inv (run sends s es) := by
  induction es generalizing s with
  | nil => exact h
  | cons e es ih => exact ih (h.step hsends ha.1) ha.2

theorem command_begins (hsends : TakesAnnounced sends) (s : System) {volume : Volume} {op : Op}
    (io : Container) {f : FatFile} (hopen : openObject volume op.handle = .ok f) :
    ∃ t, (step sends s (.command volume .good op io)).transfer = some t ∧ t.op = op ∧ t.object = f := by
  obtain ⟨c, hc, hgood, -⟩ := dispatch_command hsends .good io hopen s.read
  simp only [step, hc, hgood rfl, hopen]
  exact ⟨_, rfl, rfl, rfl⟩

theorem Inv.data (h : Inv s) (hsends : TakesAnnounced sends) {t : Transfer} (ht : s.transfer = some t)
    (hs : t.Short) (io : Container) :
    (MtpRead.step sends s (.data .good io)).transfer =
      some { t with delivered := t.wanted.take (t.delivered.length + io.payload.length) } := by
  have hr := h.reading t ht
  obtain ⟨c, hc, -, hgood, hread⟩ := hr.send hsends .good io false
  obtain ⟨hcount, hmore⟩ := hread (hgood rfl)
  have hbytes := hmore.delivered hs
  have htake : t.wanted.take (min t.wanted.length (t.delivered.length + io.payload.length)) =
      t.wanted.take (t.delivered.length + io.payload.length) := by
    rw [Nat.min_comm, ← List.take_take, List.take_length]
  rw [hcount, ← hr.delivered_length hs] at hbytes
  simp only [MtpRead.step, ht, hr.dispatch_data, hc, hgood rfl]
  refine congrArg some (congrArg (Transfer.mk t.op t.object t.announced) ?_)
  exact hbytes.trans htake

theorem Inv.proceeds (h : Inv s) (hsends : TakesAnnounced sends) {t : Transfer} (ht : s.transfer = some t)
    (hs : t.Short) (ios : List Container) :
    (MtpRead.run sends s (ios.map (.data .good))).transfer =
      some { t with delivered :=
        t.wanted.take (t.delivered.length + (ios.map fun io => io.payload.length).sum) } := by
  induction ios generalizing s t with
  | nil =>
    refine ht.trans (congrArg some (congrArg (Transfer.mk t.op t.object t.announced) ?_))
    exact List.prefix_iff_eq_take.mp ((h.reading t ht).prefix_wanted hs)
  | cons io ios ih =>
    have hnext := h.data hsends ht hs io
    have hgoes : Allowed s (.data .good io) := trivial
    have hrest := ih (h.step hsends hgoes) hnext hs
    refine hrest.trans (congrArg some (congrArg (Transfer.mk t.op t.object t.announced) ?_))
    show t.wanted.take ((t.wanted.take (t.delivered.length + io.payload.length)).length + _) =
      t.wanted.take (t.delivered.length + (io.payload.length + _))
    -- when the object has been used up, more room brings nothing
    rw [List.length_take]
    rcases Nat.le_total (t.delivered.length + io.payload.length) t.wanted.length with hle | hle
    · rw [Nat.min_eq_left hle, Nat.add_assoc]
      rfl
    · rw [Nat.min_eq_right hle, List.take_of_length_le (Nat.le_add_right _ _),
        List.take_of_length_le (by omega)]

end Runs

/-- Reads deliver the object, in every run of commands, data phases and what breaks them off. -/
theorem reads_deliver {sends : Nat → List UInt8 → List UInt8} (hsends : TakesAnnounced sends)
    (es : List Event) (ha : AllAllowed sends start es) : Delivers sends (run sends start es) := by
  have h := inv_start.run hsends ha
  constructor
  · intro t ht hs
    have hr := h.reading t ht
    exact ⟨hr.announced_toNat hs, hr.prefix_wanted hs⟩
  · intro a hmem hs
    have hend := h.ended a hmem hs
    exact ⟨hend.announced, hend.delivered, hend.whole⟩
  · intro volume op io f hopen
    exact command_begins hsends _ io hopen
  · intro t ht hs ios
    exact h.proceeds hsends ht hs ios

def oneFile : Volume where
  cache := some [⟨5, 0, false, 3, 0, 0, [[65]]⟩]
  fOpen := fun _ => some ⟨[65, 66, 67], by decide⟩

def partRun : List Event :=
  [.command oneFile .good ⟨5, some (1, 9)⟩ ⟨0, [0]⟩, .data .good ⟨0, [0, 0]⟩, .complete true]

theorem partRun_allowed : AllAllowed (fun left payload => payload.take left) start partRun := by
  refine ⟨trivial, trivial, fun t ht => ?_, trivial⟩
  rw [← Option.some.inj ht]
  decide

theorem reads_deliver_part :
    Delivers (fun left payload => payload.take left) (run (fun left payload => payload.take left) start partRun) :=
  reads_deliver (fun _ _ => rfl) partRun partRun_allowed

def emptyPartRun : List Event := [.command oneFile .good ⟨5, some (1, 0)⟩ ⟨0, [0, 0]⟩, .complete true]

/-- Asked for no bytes, GetPartialObject brings the rest of the object. -/
theorem length_zero_brings_rest :
    (run (fun left payload => payload.take left) start emptyPartRun).answers.map
        (fun a => (a.ok, a.transfer.delivered, a.count)) = [(true, [66, 67], some 2)] ∧
      AllAllowed (fun left payload => payload.take left) start emptyPartRun ∧
      ([65, 66, 67].drop 1).take 0 ≠ ([66, 67] : List UInt8) := by
  refine ⟨by decide, ⟨trivial, fun t ht => ?_, trivial⟩, by decide⟩
  rw [← Option.some.inj ht]
  decide

end Pi1MHz.MtpRead
