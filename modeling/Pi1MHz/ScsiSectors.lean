import Pi1MHz.Splice

/-!
# BeebSCSI: a LUN as an array of sectors

READ6 and WRITE6 with the 64-sector buffer of `filesystem.c`, over an image that FatFs keeps.  A
file is its bytes; `f_read` stops at the end, `f_lseek` without a link map extends the file with
whatever is on the card, with one it stops at the end, and `f_write` with a link map stops at the
end of the clusters it has.
-/

namespace Pi1MHz.ScsiSectors

open Splice

/-- An open image: its bytes, the file pointer, whether there is a link map, and whether the last
seek found the card full. -/
structure Fil where
  content : List UInt8
  fptr : Nat
  fast : Bool
  full : Bool

/-- The answer to a seek: an error, how far the file can be extended, and what is in the clusters. -/
structure Seek where
  err : Bool
  room : Nat
  junk : Nat → UInt8

def fLseek (f : Fil) (a : Seek) (ofs : Nat) : Bool × Fil :=
  if a.err then (false, f)
  else if f.fast then (true, { f with fptr := min ofs f.content.length })
  else if ofs ≤ f.content.length then (true, { f with fptr := ofs })
  else
    let new := min ofs (max f.content.length a.room)
    (true,
      { f with content := f.content ++ (List.range (new - f.content.length)).map fun i =>
                 a.junk (f.content.length + i)
               fptr := new
               full := decide (new < ofs) })

def fRead (f : Fil) (err : Bool) (n : Nat) : Option (List UInt8) × Fil :=
  if err then (none, f)
  else
    let data := (f.content.drop f.fptr).take n
    (some data, { f with fptr := f.fptr + data.length })

def fWrite (f : Fil) (err : Bool) (room : Nat) (data : List UInt8) : Bool × Nat × Fil :=
  let n := if f.full then 0 else min room data.length
  (!err, n, { f with content := splice f.content f.fptr (data.take n), fptr := f.fptr + n })

structure Lun where
  started : Bool
  file : Fil

structure Disc where
  luns : Fin 8 → Lun
  sectorBuffer : Nat → UInt8
  sectorsInBuffer : Nat
  currentBufferSector : Nat
  sectorsRemaining : Nat

def SECTOR_BUFFER_LENGTH : Nat := 64

def Disc.setFile (d : Disc) (lun : Fin 8) (f : Fil) : Disc :=
  { d with luns := Function.update d.luns lun { d.luns lun with file := f } }

/-- `filesystemSetLunStatus` to started: whether the image opens, and whether it gets a link map. -/
def startLun (d : Disc) (lun : Fin 8) (opens linkmap : Bool) : Bool × Disc :=
  if (d.luns lun).started then (true, d)
  else if opens then
    (true,
      { d with luns := Function.update d.luns lun
                 ⟨true, ⟨(d.luns lun).file.content, 0, linkmap, false⟩⟩ })
  else (false, d)

/-- `filesystemSetLunStatus` to stopped. -/
def stopLun (d : Disc) (lun : Fin 8) : Disc :=
  { d with luns := Function.update d.luns lun { d.luns lun with started := false } }

def filesystemOpenLunForRead (d : Disc) (lun : Fin 8) (a : Seek) (startSector count : Nat) : Bool × Disc :=
  let f := (d.luns lun).file
  let seekPoint := min (startSector * 256) f.content.length
  let r := fLseek f a seekPoint
  if r.1 then (true, { d.setFile lun r.2 with sectorsRemaining := count, sectorsInBuffer := 0 })
  else (false, d.setFile lun r.2)

def fillBuffer (d : Disc) (lun : Fin 8) (err : Bool) : Bool × Disc :=
  let sectorsToRead := min d.sectorsRemaining SECTOR_BUFFER_LENGTH
  let r := fRead (d.luns lun).file err (sectorsToRead * 256)
  match r.1 with
  | none => (false, d.setFile lun r.2)
  | some data =>
    (true,
      { d.setFile lun r.2 with
        sectorBuffer := fun q => if q < sectorsToRead * 256 then data.getD q 0 else d.sectorBuffer q
        sectorsInBuffer := sectorsToRead
        currentBufferSector := 0
        sectorsRemaining := d.sectorsRemaining - sectorsToRead })

def sectorOf (buffer : Nat → UInt8) (n : Nat) : List UInt8 :=
  (List.range 256).map fun j => buffer (n * 256 + j)

def filesystemReadNextSector (d : Disc) (lun : Fin 8) (err : Bool) : Option (List UInt8) × Disc :=
  let r := if d.sectorsInBuffer = 0 then fillBuffer d lun err else (true, d)
  if r.1 then
    (some (sectorOf r.2.sectorBuffer r.2.currentBufferSector),
      { r.2 with currentBufferSector := r.2.currentBufferSector + 1
                 sectorsInBuffer := r.2.sectorsInBuffer - 1 })
  else (none, r.2)

/-! ### Writing -/

structure OpenWrite where
  grow : Seek
  linkmap : Bool
  seek : Seek

def filesystemOpenLunForWrite (d : Disc) (lun : Fin 8) (a : OpenWrite) (startSector count : Nat) :
    Bool × Disc :=
  let f := (d.luns lun).file
  let grown : Bool × Fil :=
    if f.fast ∧ f.content.length < startSector * 256 then
      let r := fLseek { f with fast := false } a.grow (startSector * 256)
      (r.1 && decide (r.2.fptr = startSector * 256), { r.2 with fast := a.linkmap })
    else (true, f)
  if grown.1 then
    let r := fLseek grown.2 a.seek (startSector * 256)
    if r.1 then (true, { d.setFile lun r.2 with sectorsRemaining := count, currentBufferSector := 0 })
    else (false, d.setFile lun r.2)
  else (false, d.setFile lun grown.2)

/-- The answers to the writing of a buffer: errors, what fits in the clusters there are, what the
card has room for, and whether there is a link map after the image has grown. -/
structure Flush where
  err : Bool
  chain : Nat
  err2 : Bool
  room : Nat
  linkmap : Bool

def writeOut (f : Fil) (a : Flush) (data : List UInt8) : Bool × Fil :=
  let w := fWrite f a.err (if f.fast then a.chain else a.room) data
  if w.1 && w.2.1 != data.length && f.fast then
    let w2 := fWrite { w.2.2 with fast := false } a.err2 a.room (data.drop w.2.1)
    (w2.1 && decide (w.2.1 + w2.2.1 = data.length), { w2.2.2 with fast := a.linkmap })
  else (w.1 && decide (w.2.1 = data.length), w.2.2)

def filesystemWriteNextSector (d : Disc) (lun : Fin 8) (a : Flush) (buffer : Nat → UInt8) : Bool × Disc :=
  let cur := d.currentBufferSector
  let d := { d with
    sectorBuffer := fun q =>
      if cur * 256 ≤ q ∧ q < (cur + 1) * 256 then buffer (q - cur * 256) else d.sectorBuffer q
    currentBufferSector := cur + 1 }
  if d.currentBufferSector = SECTOR_BUFFER_LENGTH ∨ d.currentBufferSector = d.sectorsRemaining then
    let sectorsToWrite :=
      if d.currentBufferSector = SECTOR_BUFFER_LENGTH then SECTOR_BUFFER_LENGTH else d.sectorsRemaining
    let r := writeOut (d.luns lun).file a ((List.range (sectorsToWrite * 256)).map d.sectorBuffer)
    if r.1 then
      (true, { d.setFile lun r.2 with currentBufferSector := 0
                                      sectorsRemaining := d.sectorsRemaining - sectorsToWrite })
    else (false, d.setFile lun r.2)
  else (true, d)

/-! ### The commands -/

inductive Ending where
  | good
  | check
  | reset
deriving DecidableEq, Repr

/-- What happens around a sector of a READ6: an error of the card, how many of the bytes the host
takes before the time-out, and whether the reset line is found active. -/
structure ReadBlock where
  err : Bool
  taken : Nat
  rst : Bool

structure ReadAnswers where
  opens : Bool
  linkmap : Bool
  seek : Seek
  block : Nat → ReadBlock

/-- The sectors from block `i` on; what has been delivered of each. -/
def readLoop (lun : Fin 8) (block : Nat → ReadBlock) : Nat → Nat → Disc → Ending × List (List UInt8) × Disc
  | 0, _, d => (.good, [], d)
  | n + 1, i, d =>
    let r := filesystemReadNextSector d lun (block i).err
    match r.1 with
    | none => (.check, [], stopLun r.2 lun)
    | some sector =>
      let sent := sector.take (block i).taken
      if (block i).rst then (.reset, [sent], stopLun r.2 lun)
      else
        let rest := readLoop lun block n (i + 1) r.2
        (rest.1, sent :: rest.2.1, rest.2.2)

def blockCount (count : UInt8) : Nat := if count = 0 then 256 else count.toNat

def scsiCommandRead6 (d : Disc) (lun : Fin 8) (lba : Fin (2 ^ 21)) (count : UInt8) (a : ReadAnswers) :
    Ending × List (List UInt8) × Disc :=
  let s := startLun d lun a.opens a.linkmap
  if s.1 then
    let o := filesystemOpenLunForRead s.2 lun a.seek lba.val (blockCount count)
    if o.1 then readLoop lun a.block (blockCount count) 0 o.2 else (.check, [], stopLun o.2 lun)
  else (.check, [], s.2)

/-- What happens around a sector of a WRITE6: the bytes that the host transfers before the time-out,
what is on the stack where the others belong, the reset line, and the card. -/
structure WriteBlock where
  host : List UInt8
  stack : Nat → UInt8
  rst : Bool
  flush : Flush

def WriteBlock.buffer (b : WriteBlock) (j : Nat) : UInt8 := b.host.getD j (b.stack j)

structure WriteAnswers where
  opens : Bool
  linkmap : Bool
  seek : OpenWrite
  block : Nat → WriteBlock

def writeLoop (lun : Fin 8) (block : Nat → WriteBlock) : Nat → Nat → Disc → Ending × Disc
  | 0, _, d => (.good, d)
  | n + 1, i, d =>
    if (block i).rst then (.reset, stopLun d lun)
    else
      let r := filesystemWriteNextSector d lun (block i).flush (block i).buffer
      if r.1 then writeLoop lun block n (i + 1) r.2 else (.check, stopLun r.2 lun)

def scsiCommandWrite6 (d : Disc) (lun : Fin 8) (lba : Fin (2 ^ 21)) (count : UInt8) (a : WriteAnswers) :
    Ending × Disc :=
  let s := startLun d lun a.opens a.linkmap
  if s.1 then
    let o := filesystemOpenLunForWrite s.2 lun a.seek lba.val (blockCount count)
    if o.1 then writeLoop lun a.block (blockCount count) 0 o.2 else (.check, stopLun o.2 lun)
  else (.check, s.2)

inductive Command where
  | read (lun : Fin 8) (lba : Fin (2 ^ 21)) (count : UInt8) (a : ReadAnswers)
  | write (lun : Fin 8) (lba : Fin (2 ^ 21)) (count : UInt8) (a : WriteAnswers)
  | start (lun : Fin 8) (opens linkmap : Bool)
  | stop (lun : Fin 8)

def exec (d : Disc) : Command → Ending × List (List UInt8) × Disc
  | .read lun lba count a => scsiCommandRead6 d lun lba count a
  | .write lun lba count a =>
    let r := scsiCommandWrite6 d lun lba count a
    (r.1, [], r.2)
  | .start lun opens linkmap =>
    let r := startLun d lun opens linkmap
    (if r.1 then .good else .check, [], r.2)
  | .stop lun => (.good, [], stopLun d lun)

def run (d : Disc) (cs : List Command) : Disc := cs.foldl (fun d c => (exec d c).2.2) d

def Disc.initial (images : Fin 8 → List UInt8) : Disc where
  luns lun := ⟨false, ⟨images lun, 0, false, false⟩⟩
  sectorBuffer _ := 0
  sectorsInBuffer := 0
  currentBufferSector := 0
  sectorsRemaining := 0

def stored (block : Nat → WriteBlock) (start n : Nat) (m : Nat → UInt8) (p : Nat) : UInt8 :=
  if start ≤ p ∧ p < start + n * 256 then (block ((p - start) / 256)).host.getD ((p - start) % 256) 0
  else m p

def store (m : Fin 8 → Nat → UInt8) (ending : Ending) : Command → Fin 8 → Nat → UInt8
  | .write lun lba count a =>
    if ending = .good then
      Function.update m lun (stored a.block (lba.val * 256) (blockCount count) (m lun))
    else m
  | .read .. | .start .. | .stop _ => m

def arrays (d : Disc) (m : Fin 8 → Nat → UInt8) : List Command → Fin 8 → Nat → UInt8
  | [] => m
  | c :: cs => arrays (exec d c).2.2 (store m (exec d c).1 c) cs

def imageArray (images : Fin 8 → List UInt8) : Fin 8 → Nat → UInt8 := fun lun p => (images lun).getD p 0

end Pi1MHz.ScsiSectors
