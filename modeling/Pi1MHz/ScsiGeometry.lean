import Mathlib.Data.Nat.Basic
import Mathlib.Tactic.Ring
import Pi1MHz.FinSizes

/-!
# BeebSCSI: the geometry of a LUN

The numbers of cylinders and heads of a LUN are kept in three places: the cached geometry, mode
page 0 and mode page 4.  This module has the functions of `filesystem.c` that read them from the
files of the card and copy them from one place to another, and MODE SELECT of `scsi.c`.
-/

namespace Pi1MHz.Scsi

open FinSizes

/-! ### The data -/

/-- `struct HDGeometry`. -/
structure HDGeometry where
  blockSize : UInt32
  cylinders : UInt32
  heads : UInt8
  sectorsPerTrack : UInt16
deriving DecidableEq, Repr

def DEFAULT_SECTORS_PER_TRACK : UInt16 := 33

def DEFAULT_BLOCK_SIZE : UInt32 := 256

abbrev MODE_PAGE_0_SIZE : Nat := 10

/-- The keys of a `.cfg` file that the geometry comes from. -/
structure Config where
  lbaDescriptor : Option (Vector UInt8 8)
  modePage0 : Option (Vector UInt8 MODE_PAGE_0_SIZE)
  modePage3 : Option (Vector UInt8 23)
  writPage3 : Option (List UInt8)
  modePage4 : Option (Vector UInt8 6)
deriving DecidableEq, Repr

def Config.empty : Config := ⟨none, none, none, none, none⟩

/-- The files of a LUN: the keys of its `.cfg`, its `.dsc` and the size of its image. -/
structure LunFiles where
  cfg : Option Config
  dsc : Option (Vector UInt8 22)
  dat : Option UInt32
deriving DecidableEq, Repr

/-- The card; `luns` has the files of each LUN of each jukebox directory. -/
structure Card where
  defscsi : Option Config
  luns : Bool → UInt8 → Fin 8 → LunFiles

/-- What is kept for a LUN.  `size` is that of the open image.  Two fields are not the code's:
`bare` is the size of the image if the descriptor was last read where there is no `.cfg` and no
`.dsc`, and `wrapped` says that the division of an image into tracks has wrapped since the start. -/
structure Lun where
  started : Bool
  size : UInt32
  keys : Config
  geometry : HDGeometry
  bare : Option UInt32
  wrapped : Bool

/-! ### From one place to another -/

def word (hi lo : UInt8) : UInt32 := (hi.toUInt32 <<< 8) + lo.toUInt32

def word24 (hi mid lo : UInt8) : UInt32 := (hi.toUInt32 <<< 16) + (mid.toUInt32 <<< 8) + lo.toUInt32

def cylHi (g : HDGeometry) : UInt8 := (g.cylinders >>> 8).toUInt8

def cylLo (g : HDGeometry) : UInt8 := g.cylinders.toUInt8

def page0Of (g : HDGeometry) : Vector UInt8 MODE_PAGE_0_SIZE :=
  #v[1, cylHi g, cylLo g, g.heads, 0x00, 0x80, 0x00, 0x80, 0x00, 0x01]

def page4Of (g : HDGeometry) : Vector UInt8 6 := #v[4, 4, 0, cylHi g, cylLo g, g.heads]

def filesystemLunToconfigGeometry (l : Lun) : Lun :=
  { l with keys := { l.keys with modePage0 := some (page0Of l.geometry)
                                 modePage4 := some (page4Of l.geometry) } }

/-- The loop over `heads`, from the value given down. -/
def headsFrom (tracks : UInt32) : Nat → Nat
  | 0 => 0
  | h + 1 => if tracks.toNat % (h + 1) ≠ 0 ∧ 1 < h + 1 then headsFrom tracks h else h + 1

def trackBytes (g : HDGeometry) : UInt32 := g.sectorsPerTrack.toUInt32 * g.blockSize

def filesytemdattoconfigGeometry (l : Lun) : Lun :=
  let tracks := l.size / trackBytes l.geometry
  let heads := headsFrom tracks 16
  filesystemLunToconfigGeometry
    { l with geometry := { l.geometry with cylinders := tracks / UInt32.ofNat heads
                                           heads := UInt8.ofNat heads }
             wrapped := l.wrapped ||
               decide (2 ^ 32 ≤ l.geometry.sectorsPerTrack.toNat * l.geometry.blockSize.toNat) }

def filesystemCopyPage0toPage4 (l : Lun) : Lun :=
  match l.keys.modePage0 with
  | some p =>
    let g := { l.geometry with cylinders := word p[1] p[2], heads := p[3] }
    { l with geometry := g
             keys := { l.keys with modePage4 := l.keys.modePage4.map fun q =>
               #v[q[0], q[1], 0, cylHi g, cylLo g, g.heads] } }
  | none => l

def filesystemCopyPage4toPage0 (l : Lun) : Lun :=
  match l.keys.modePage4 with
  | some p =>
    let g := { l.geometry with cylinders := word p[3] p[4], heads := p[5] }
    { l with geometry := g
             keys := { l.keys with modePage0 := l.keys.modePage0.map fun q =>
               #v[q[0], cylHi g, cylLo g, g.heads, q[4], q[5], q[6], q[7], q[8], q[9]] } }
  | none => l

def blockSizeOf (k : Config) : UInt32 :=
  match k.lbaDescriptor with
  | some p => if word24 p[5] p[6] p[7] = 0 then DEFAULT_BLOCK_SIZE else word24 p[5] p[6] p[7]
  | none => DEFAULT_BLOCK_SIZE

def sectorsOf (k : Config) : UInt16 :=
  match k.modePage3 with
  | some p =>
    if (word p[10] p[11]).toUInt16 = 0 then DEFAULT_SECTORS_PER_TRACK else (word p[10] p[11]).toUInt16
  | none => DEFAULT_SECTORS_PER_TRACK

def defaultDescriptor : Vector UInt8 8 := #v[0, 0, 0, 0, 0, 0, 1, 0]

def filesystemConfigToLunGeometry (l : Lun) : Lun :=
  let l := { l with geometry := { l.geometry with blockSize := blockSizeOf l.keys
                                                  sectorsPerTrack := sectorsOf l.keys }
                    keys := { l.keys with
                      lbaDescriptor := some (l.keys.lbaDescriptor.getD defaultDescriptor) } }
  match l.keys.modePage0 with
  | some p => { l with geometry := { l.geometry with cylinders := word p[1] p[2], heads := p[3] } }
  | none =>
    match l.keys.modePage4 with
    | some _ => filesystemCopyPage4toPage0 l
    | none => filesytemdattoconfigGeometry l

def filesystemCheckExtAttributes (defscsi : Option Config) (f : LunFiles) (l : Lun) : Lun × Bool :=
  match f.cfg with
  | some k => (filesystemConfigToLunGeometry { l with keys := k }, true)
  | none => (filesystemConfigToLunGeometry { l with keys := defscsi.getD Config.empty }, false)

/-- The geometry in a `.dsc`. -/
def geometryOfDsc (b : Vector UInt8 22) : HDGeometry where
  blockSize := word24 b[9] b[10] b[11]
  cylinders := word b[13] b[14]
  heads := b[15]
  sectorsPerTrack := DEFAULT_SECTORS_PER_TRACK

def filesystemReadLunDescriptor (defscsi : Option Config) (f : LunFiles) (l : Lun) : Lun × Bool :=
  let r := filesystemCheckExtAttributes defscsi f l
  if r.2 then ({ r.1 with bare := none }, true)
  else
    match f.dsc with
    | some b => (filesystemLunToconfigGeometry { r.1 with geometry := geometryOfDsc b, bare := none }, true)
    | none => ({ r.1 with bare := some l.size }, false)

def filesystemCheckLunImage (defscsi : Option Config) (f : LunFiles) (l : Lun) : Lun × Bool :=
  if l.started then (l, true)
  else
    match f.dat with
    | none => (l, false)
    | some size =>
      let r := filesystemReadLunDescriptor defscsi f { l with started := true, size := size, wrapped := false }
      (if r.2 then r.1 else filesytemdattoconfigGeometry r.1, true)

/-- `filesystemSetLunStatus` to stopped. -/
def stop (l : Lun) : Lun := if l.started then { l with started := false, keys := Config.empty } else l

/-! ### MODE SELECT -/

def padded (n : Nat) (b : List UInt8) : Vector UInt8 n := Vector.ofFn fun i => b.getD i 0

def masked (mask b : List UInt8) (p : Vector UInt8 23) : Vector UInt8 23 :=
  Vector.ofFn fun i =>
    if i.val < b.length ∧ i.val < mask.length then
      (b.getD i 0 &&& mask.getD i 0) ||| (p[i] &&& ~~~(mask.getD i 0))
    else p[i]

/-- `filesystemWriteModePageData`; pages that the geometry does not come from are left out. -/
def filesystemWriteModePageData (k : Config) (page : UInt8) (b : List UInt8) : Config :=
  if page = 0 then { k with modePage0 := some (padded MODE_PAGE_0_SIZE b) }
  else if page = 3 then
    match k.modePage3, k.writPage3 with
    | some p, some mask => { k with modePage3 := some (masked mask b p) }
    | _, _ => { k with modePage3 := some (padded 23 b) }
  else if page = 4 then { k with modePage4 := some (padded 6 b) }
  else k

def selectPage (l : Lun) (page : UInt8) (b : List UInt8) : Lun :=
  let l := { l with keys := filesystemWriteModePageData l.keys page b }
  if page = 4 then filesystemCopyPage4toPage0 l else l

def pagesOf : Nat → List UInt8 → List (UInt8 × List UInt8) × Bool
  | left + 1, code :: len :: third :: rest =>
    let page := code &&& 0x3F
    let b := page :: len :: third :: rest
    if b.length < len.toNat + 2 then ([], false)
    else
      let r := pagesOf left (b.drop (len.toNat + 2))
      ((page, b.take (len.toNat + 2)) :: r.1, r.2)
  | _, _ => ([], true)

def selectParameters (params : List UInt8) (l : Lun) : Lun :=
  if params.length = 22 ∧ params.getD 3 0 = 8 then
    filesystemConfigToLunGeometry (filesystemCopyPage0toPage4
      { l with keys := filesystemWriteModePageData l.keys 0 (params.drop 12), bare := none })
  else
    let pages := pagesOf params.length (params.drop 4)
    let l := pages.1.foldl (fun l p => selectPage l p.1 p.2) { l with bare := none }
    if pages.2 then filesystemConfigToLunGeometry l else l

/-- `scsiCommandModeSelect6`.  Where there is no image, the descriptor is read, or made from the
default, and the LUN stays stopped. -/
def scsiCommandModeSelect6 (defscsi : Option Config) (f : LunFiles) (params : List UInt8) (l : Lun) :
    Lun :=
  if params.length < 4 then l
  else
    let r := filesystemCheckLunImage defscsi f l
    if r.2 then selectParameters params r.1
    else
      match f.cfg, defscsi with
      | some k, _ => selectParameters params { r.1 with keys := k }
      | none, some k => selectParameters params { r.1 with keys := k }
      | none, none => { r.1 with keys := Config.empty }

def filesystemGetLunTotalBytes (g : HDGeometry) : UInt32 :=
  g.heads.toUInt32 * g.cylinders * g.sectorsPerTrack.toUInt32 * g.blockSize

def filesystemGetLunTotalSectors (g : HDGeometry) : UInt32 :=
  g.cylinders * g.heads.toUInt32 * g.sectorsPerTrack.toUInt32

def capacity (g : HDGeometry) : UInt32 := filesystemGetLunTotalSectors g - 1

/-- What TRANSLATE makes of an address: cylinder, head and bytes from the index.  There is none
where it divides by zero. -/
def translate (g : HDGeometry) (lba : UInt32) : Option (UInt32 × UInt32 × UInt32) :=
  let headsPerCylinder := g.heads.toUInt32
  let sectorsperTrack := g.sectorsPerTrack.toUInt32
  if headsPerCylinder * sectorsperTrack = 0 ∨ sectorsperTrack = 0 ∨ headsPerCylinder = 0 then none
  else
    some (lba / (headsPerCylinder * sectorsperTrack), lba / sectorsperTrack % headsPerCylinder,
      (lba % sectorsperTrack + 1) * g.blockSize)

/-! ### The drive -/

structure Drive where
  lunDirectory : UInt8
  lunDirectoryVFS : UInt8
  luns : Fin 16 → Lun

/-- `fsLunGeometry` and the rest are zero when the machine starts. -/
def Lun.initial : Lun := ⟨false, 0, Config.empty, ⟨0, 0, 0, 0⟩, none, false⟩

def Drive.initial : Drive := ⟨0, 0, fun _ => Lun.initial⟩

def Drive.files (d : Drive) (card : Card) (lun : Fin 16) : LunFiles :=
  if lun.val < 8 then card.luns false d.lunDirectory (Fin.ofNat 8 lun.val)
  else card.luns true d.lunDirectoryVFS (Fin.ofNat 8 lun.val)

/-- What can happen to a LUN.  `reread` is MODE SENSE, and TRANSLATE once the LUN is started; FORMAT
is a start, a stop and a start with another image. -/
inductive LunOp where
  | start
  | stop
  | reread
  | modeSelect (params : List UInt8)
  | grow (size : UInt32)

inductive Op where
  | lun (lun : Fin 16) (op : LunOp) (card : Card)
  | jukebox (vfs : Bool) (directory : UInt8)

def Lun.step (defscsi : Option Config) (f : LunFiles) (l : Lun) : LunOp → Lun
  | .start => (filesystemCheckLunImage defscsi f l).1
  | .stop => Scsi.stop l
  | .reread => (filesystemReadLunDescriptor defscsi f l).1
  | .modeSelect params => scsiCommandModeSelect6 defscsi f params l
  | .grow size => if l.size ≤ size then { l with size := size } else l

/-- `scsiJukebox` waits until every LUN is stopped. -/
def Drive.step (d : Drive) : Op → Drive
  | .lun lun op card =>
    { d with luns := Function.update d.luns lun ((d.luns lun).step card.defscsi (d.files card lun) op) }
  | .jukebox vfs directory =>
    if ∃ lun, (d.luns lun).started = true then d
    else if vfs then { d with lunDirectoryVFS := directory }
    else { d with lunDirectory := directory }

def Drive.run (d : Drive) (ops : List Op) : Drive := ops.foldl Drive.step d

/-! ### Bytes and words -/

theorem pow_shift_8 : 2 ^ ((8 : UInt32).toNat % 32) = 256 := by decide

theorem pow_shift_16 : 2 ^ ((16 : UInt32).toNat % 32) = 65536 := by decide

theorem word_toNat (hi lo : UInt8) : (word hi lo).toNat = hi.toNat * 256 + lo.toNat := by
  have hhi := hi.toNat_lt
  have hlo := lo.toNat_lt
  simp only [word, UInt32.toNat_add, UInt32.toNat_shiftLeft, UInt8.toNat_toUInt32]
  rw [Nat.shiftLeft_eq, pow_shift_8]
  omega

theorem word_lt (hi lo : UInt8) : (word hi lo).toNat < 2 ^ 16 := by
  have hhi := hi.toNat_lt
  have hlo := lo.toNat_lt
  rw [word_toNat]
  omega

theorem word_cyl {g : HDGeometry} (h : g.cylinders.toNat < 2 ^ 16) :
    word (cylHi g) (cylLo g) = g.cylinders := by
  apply UInt32.toNat_inj.mp
  rw [word_toNat]
  simp only [cylHi, cylLo, UInt32.toNat_toUInt8, UInt32.toNat_shiftRight]
  rw [Nat.shiftRight_eq_div_pow, pow_shift_8]
  omega

theorem word24_toNat (hi mid lo : UInt8) :
    (word24 hi mid lo).toNat = hi.toNat * 65536 + mid.toNat * 256 + lo.toNat := by
  have hhi := hi.toNat_lt
  have hmid := mid.toNat_lt
  have hlo := lo.toNat_lt
  simp only [word24, UInt32.toNat_add, UInt32.toNat_shiftLeft, UInt8.toNat_toUInt32]
  rw [Nat.shiftLeft_eq, Nat.shiftLeft_eq, pow_shift_8, pow_shift_16]
  omega

theorem word24_zero (mid lo : UInt8) : word24 0 mid lo = word mid lo := by
  apply UInt32.toNat_inj.mp
  rw [word24_toNat, word_toNat]
  simp

theorem headsFrom_spec (tracks : UInt32) {h : Nat} (hpos : 0 < h) :
    0 < headsFrom tracks h ∧ headsFrom tracks h ≤ h ∧ headsFrom tracks h ∣ tracks.toNat := by
  induction h with
  | zero => omega
  | succ h ih =>
    rw [headsFrom]
    split
    · next hgo =>
      obtain ⟨h1, h2, h3⟩ := ih (by omega)
      exact ⟨h1, by omega, h3⟩
    · next hstop =>
      refine ⟨by omega, le_rfl, ?_⟩
      by_cases hone : h = 0
      · rw [hone]
        exact Nat.one_dvd _
      · by_contra hdvd
        exact hstop ⟨fun hmod => hdvd (Nat.dvd_of_mod_eq_zero hmod), by omega⟩

/-! ### When a geometry is one -/

structure Counts (c h s b : Nat) : Prop where
  cylinders : 1 ≤ c
  heads : 1 ≤ h
  sectors : c * h * s < 2 ^ 32
  bytes : c * h * s * b < 2 ^ 32

/-- The whole tracks of an image of `size` bytes are those of the geometry. -/
def HDGeometry.Covers (g : HDGeometry) (size : UInt32) : Prop :=
  g.cylinders.toNat * g.heads.toNat * g.sectorsPerTrack.toNat * g.blockSize.toNat ≤ size.toNat ∧
    size.toNat < g.cylinders.toNat * g.heads.toNat * g.sectorsPerTrack.toNat * g.blockSize.toNat
      + g.sectorsPerTrack.toNat * g.blockSize.toNat

/-- The three places agree, nothing is cut, a geometry that is computed
from an image is that of the image, and no command wraps or divides by zero. -/
structure OneGeometry (l : Lun) : Prop where
  page0 : ∀ p, l.keys.modePage0 = some p →
    word p[1] p[2] = l.geometry.cylinders ∧ p[3] = l.geometry.heads
  page4 : ∀ p, l.keys.modePage4 = some p →
    word24 p[2] p[3] p[4] = l.geometry.cylinders ∧ p[5] = l.geometry.heads
  fits : l.geometry.cylinders.toNat < 2 ^ 16
  image : ∀ size, l.bare = some size → l.geometry.Covers size
  tracks : l.wrapped = false
  sectors : (filesystemGetLunTotalSectors l.geometry).toNat
    = l.geometry.cylinders.toNat * l.geometry.heads.toNat * l.geometry.sectorsPerTrack.toNat
  bytes : (filesystemGetLunTotalBytes l.geometry).toNat
    = l.geometry.cylinders.toNat * l.geometry.heads.toNat * l.geometry.sectorsPerTrack.toNat
      * l.geometry.blockSize.toNat
  capacity : (capacity l.geometry).toNat + 1
    = l.geometry.cylinders.toNat * l.geometry.heads.toNat * l.geometry.sectorsPerTrack.toNat
  translate : ∀ lba : UInt32, ∃ cylinder head index, translate l.geometry lba = some (cylinder, head, index) ∧
    index.toNat = (lba.toNat % l.geometry.sectorsPerTrack.toNat + 1) * l.geometry.blockSize.toNat

structure Good (l : Lun) : Prop where
  page : l.keys.modePage0 ≠ none ∨ l.keys.modePage4 ≠ none
  page0 : ∀ p, l.keys.modePage0 = some p →
    word p[1] p[2] = l.geometry.cylinders ∧ p[3] = l.geometry.heads
  page4 : ∀ p, l.keys.modePage4 = some p →
    p[2] = 0 ∧ word p[3] p[4] = l.geometry.cylinders ∧ p[5] = l.geometry.heads
  sectors : 1 ≤ l.geometry.sectorsPerTrack.toNat
  counts : Counts l.geometry.cylinders.toNat l.geometry.heads.toNat
    l.geometry.sectorsPerTrack.toNat l.geometry.blockSize.toNat
  image : ∀ size, l.bare = some size → l.geometry.Covers size
  tracks : l.wrapped = false

theorem Counts.total_sectors {g : HDGeometry}
    (h : Counts g.cylinders.toNat g.heads.toNat g.sectorsPerTrack.toNat g.blockSize.toNat)
    (hs : 1 ≤ g.sectorsPerTrack.toNat) :
    (filesystemGetLunTotalSectors g).toNat
      = g.cylinders.toNat * g.heads.toNat * g.sectorsPerTrack.toNat := by
  have hlt := h.sectors
  have hch : g.cylinders.toNat * g.heads.toNat < 2 ^ 32 :=
    (Nat.le_mul_of_pos_right _ hs).trans_lt hlt
  simp only [filesystemGetLunTotalSectors, UInt32.toNat_mul, UInt8.toNat_toUInt32,
    UInt16.toNat_toUInt32]
  rw [Nat.mod_eq_of_lt hch, Nat.mod_eq_of_lt hlt]

theorem Counts.total_bytes {g : HDGeometry}
    (h : Counts g.cylinders.toNat g.heads.toNat g.sectorsPerTrack.toNat g.blockSize.toNat)
    (hs : 1 ≤ g.sectorsPerTrack.toNat) :
    (filesystemGetLunTotalBytes g).toNat
      = g.cylinders.toNat * g.heads.toNat * g.sectorsPerTrack.toNat * g.blockSize.toNat := by
  have hlt := h.sectors
  have hch : g.cylinders.toNat * g.heads.toNat < 2 ^ 32 :=
    (Nat.le_mul_of_pos_right _ hs).trans_lt hlt
  simp only [filesystemGetLunTotalBytes, UInt32.toNat_mul, UInt8.toNat_toUInt32,
    UInt16.toNat_toUInt32]
  rw [Nat.mul_comm g.heads.toNat, Nat.mod_eq_of_lt hch, Nat.mod_eq_of_lt hlt,
    Nat.mod_eq_of_lt h.bytes]

theorem Counts.track_lt {c h s b : Nat} (hc : Counts c h s b) : s * b < 2 ^ 32 := by
  have hpos : 0 < c * h := Nat.mul_pos hc.cylinders hc.heads
  calc s * b ≤ c * h * (s * b) := Nat.le_mul_of_pos_left _ hpos
    _ = c * h * s * b := by ring
    _ < 2 ^ 32 := hc.bytes

theorem Counts.translated {g : HDGeometry}
    (h : Counts g.cylinders.toNat g.heads.toNat g.sectorsPerTrack.toNat g.blockSize.toNat)
    (hs : 1 ≤ g.sectorsPerTrack.toNat) (lba : UInt32) :
    ∃ cylinder head index, translate g lba = some (cylinder, head, index) ∧
      index.toNat = (lba.toNat % g.sectorsPerTrack.toNat + 1) * g.blockSize.toNat := by
  have hheads := h.heads
  have hspt := g.sectorsPerTrack.toNat_lt
  have hhl := g.heads.toNat_lt
  have hsne : g.sectorsPerTrack.toUInt32 ≠ 0 := by
    intro heq
    have := congrArg UInt32.toNat heq
    simp only [UInt16.toNat_toUInt32, UInt32.toNat_zero] at this
    omega
  have hhne : g.heads.toUInt32 ≠ 0 := by
    intro heq
    have := congrArg UInt32.toNat heq
    simp only [UInt8.toNat_toUInt32, UInt32.toNat_zero] at this
    omega
  have hprod : g.heads.toUInt32 * g.sectorsPerTrack.toUInt32 ≠ 0 := by
    intro heq
    have := congrArg UInt32.toNat heq
    have hlt : g.heads.toNat * g.sectorsPerTrack.toNat < 2 ^ 32 := by
      calc g.heads.toNat * g.sectorsPerTrack.toNat
          ≤ 255 * 65535 := Nat.mul_le_mul (by omega) (by omega)
        _ < 2 ^ 32 := by decide
    simp only [UInt32.toNat_mul, UInt8.toNat_toUInt32, UInt16.toNat_toUInt32, UInt32.toNat_zero] at this
    rw [Nat.mod_eq_of_lt hlt] at this
    have := Nat.mul_pos hheads hs
    omega
  refine ⟨_, _, _, if_neg (by simp [hprod, hsne, hhne]), ?_⟩
  have hmod : lba.toNat % g.sectorsPerTrack.toNat < g.sectorsPerTrack.toNat := Nat.mod_lt _ hs
  have hle : (lba.toNat % g.sectorsPerTrack.toNat + 1) * g.blockSize.toNat
      ≤ g.sectorsPerTrack.toNat * g.blockSize.toNat := Nat.mul_le_mul_right _ hmod
  have htrack := h.track_lt
  simp only [UInt32.toNat_mul, UInt32.toNat_add, UInt32.toNat_mod, UInt16.toNat_toUInt32, UInt32.toNat_one]
  rw [Nat.mod_eq_of_lt (show lba.toNat % g.sectorsPerTrack.toNat + 1 < 2 ^ 32 by omega),
    Nat.mod_eq_of_lt (by omega)]

theorem Good.agrees {l : Lun} (h : Good l) : OneGeometry l where
  page0 := h.page0
  page4 p hp := by
    obtain ⟨htop, hcyl, hheads⟩ := h.page4 p hp
    rw [htop, word24_zero]
    exact ⟨hcyl, hheads⟩
  fits := by
    rcases h.page with hp | hp
    · obtain ⟨p, hp⟩ := Option.ne_none_iff_exists'.mp hp
      rw [← (h.page0 p hp).1]
      exact word_lt _ _
    · obtain ⟨p, hp⟩ := Option.ne_none_iff_exists'.mp hp
      rw [← (h.page4 p hp).2.1]
      exact word_lt _ _
  image := h.image
  tracks := h.tracks
  sectors := h.counts.total_sectors h.sectors
  bytes := h.counts.total_bytes h.sectors
  capacity := by
    have hpos : 0 < l.geometry.cylinders.toNat * l.geometry.heads.toNat
        * l.geometry.sectorsPerTrack.toNat :=
      Nat.mul_pos (Nat.mul_pos h.counts.cylinders h.counts.heads) h.sectors
    have htotal := h.counts.total_sectors h.sectors
    have hle : (1 : UInt32) ≤ filesystemGetLunTotalSectors l.geometry := by
      rw [UInt32.le_iff_toNat_le, htotal]
      exact hpos
    rw [Scsi.capacity, UInt32.toNat_sub_of_le _ _ hle, htotal, UInt32.toNat_one]
    omega
  translate := h.counts.translated h.sectors

/-! ### The condition -/

structure ImageOk (size : UInt32) (s : UInt16) (b : UInt32) : Prop where
  track : s.toNat * b.toNat < 2 ^ 32
  one : s.toNat * b.toNat ≤ size.toNat
  fits : size.toNat / (s.toNat * b.toNat) / headsFrom (size / (s.toUInt32 * b)) 16 < 2 ^ 16

structure Agree (k : Config) : Prop where
  top : ∀ q, k.modePage4 = some q → q[2] = 0
  counts : ∀ p q, k.modePage0 = some p → k.modePage4 = some q →
    word p[1] p[2] = word q[3] q[4] ∧ p[3] = q[5]

def countsOf (k : Config) : Option (UInt32 × UInt8) :=
  match k.modePage0, k.modePage4 with
  | some p, _ => some (word p[1] p[2], p[3])
  | none, some q => some (word q[3] q[4], q[5])
  | none, none => none

structure ConfigOk (k : Config) (size : UInt32) : Prop where
  agree : Agree k
  counts : ∀ c h, countsOf k = some (c, h) →
    Counts c.toNat h.toNat (sectorsOf k).toNat (blockSizeOf k).toNat
  image : countsOf k = none → ImageOk size (sectorsOf k) (blockSizeOf k)

def Describes (k : Config) (size : UInt32) : Prop :=
  ∀ c h, countsOf k = some (c, h) →
    c.toNat * h.toNat * (sectorsOf k).toNat * (blockSizeOf k).toNat ≤ size.toNat ∧
      size.toNat < c.toNat * h.toNat * (sectorsOf k).toNat * (blockSizeOf k).toNat
        + (sectorsOf k).toNat * (blockSizeOf k).toNat

/-- What is read describes a drive.  Without a `.cfg` and a `.dsc` a LUN that is being started gets
its geometry from the image; one that is started gets it from the default keys. -/
def ReadOk (defscsi : Option Config) (f : LunFiles) (size : UInt32) (starting : Bool) : Prop :=
  match f.cfg with
  | some k => ConfigOk k size
  | none =>
    (countsOf (defscsi.getD Config.empty) = none →
      (sectorsOf (defscsi.getD Config.empty)).toNat * (blockSizeOf (defscsi.getD Config.empty)).toNat
        < 2 ^ 32) ∧
    match f.dsc with
    | some b => Counts (geometryOfDsc b).cylinders.toNat (geometryOfDsc b).heads.toNat
        (geometryOfDsc b).sectorsPerTrack.toNat (geometryOfDsc b).blockSize.toNat
    | none =>
      if starting then
        ImageOk size (sectorsOf (defscsi.getD Config.empty)) (blockSizeOf (defscsi.getD Config.empty))
      else
        ConfigOk (defscsi.getD Config.empty) size ∧ Describes (defscsi.getD Config.empty) size

def page4Counts (q : Vector UInt8 6) : UInt32 × UInt8 := (word q[3] q[4], q[5])

def selectedCounts (c : UInt32 × UInt8) (pages : List (UInt8 × List UInt8)) : UInt32 × UInt8 :=
  pages.foldl (fun c p => if p.1 = 4 then page4Counts (padded 6 p.2) else c) c

def selectedKeys (k : Config) (pages : List (UInt8 × List UInt8)) : Config :=
  pages.foldl (fun k p => filesystemWriteModePageData k p.1 p.2) k

/-- The parameters describe a drive.  Page 0 is sent only in the list of 22 bytes; the other form
does not copy it to page 4. -/
def SelectOk (l : Lun) (params : List UInt8) : Prop :=
  if params.length = 22 ∧ params.getD 3 0 = 8 then
    Counts (word (padded MODE_PAGE_0_SIZE (params.drop 12))[1] (padded MODE_PAGE_0_SIZE (params.drop 12))[2]).toNat
      (padded MODE_PAGE_0_SIZE (params.drop 12))[3].toNat (sectorsOf l.keys).toNat (blockSizeOf l.keys).toNat
  else
    (∀ p ∈ (pagesOf params.length (params.drop 4)).1, p.1 ≠ 0 ∧ (p.1 = 4 → (padded 6 p.2)[2] = 0)) ∧
    let c := selectedCounts (l.geometry.cylinders, l.geometry.heads) (pagesOf params.length (params.drop 4)).1
    let k := selectedKeys l.keys (pagesOf params.length (params.drop 4)).1
    if (pagesOf params.length (params.drop 4)).2 then
      Counts c.1.toNat c.2.toNat (sectorsOf k).toNat (blockSizeOf k).toNat
    else
      Counts c.1.toNat c.2.toNat l.geometry.sectorsPerTrack.toNat l.geometry.blockSize.toNat

def StartOk (defscsi : Option Config) (f : LunFiles) (l : Lun) : Prop :=
  l.started = false → ∀ size, f.dat = some size → ReadOk defscsi f size true

def Lun.Followed (defscsi : Option Config) (f : LunFiles) (l : Lun) : LunOp → Prop
  | .start => StartOk defscsi f l
  | .stop => True
  | .reread => l.started = true → ReadOk defscsi f l.size false
  | .modeSelect params => 4 ≤ params.length → StartOk defscsi f l ∧
      ((filesystemCheckLunImage defscsi f l).2 = true →
        SelectOk (filesystemCheckLunImage defscsi f l).1 params)
  | .grow _ => True

def Drive.Followed (d : Drive) : Op → Prop
  | .lun lun op card => (d.luns lun).Followed card.defscsi (d.files card lun) op
  | .jukebox .. => True

def Drive.AllFollowed (d : Drive) : List Op → Prop
  | [] => True
  | op :: ops => d.Followed op ∧ (d.step op).AllFollowed ops

theorem sectorsOf_pos (k : Config) : 1 ≤ (sectorsOf k).toNat := by
  have hpos : ∀ x : UInt16, x ≠ 0 → 1 ≤ x.toNat := by
    intro x hx
    by_contra hlt
    exact hx (UInt16.toNat_inj.mp (by rw [UInt16.toNat_zero]; omega))
  unfold sectorsOf
  split
  · split
    · decide
    · next hne => exact hpos _ hne
  · decide

theorem blockSizeOf_pos (k : Config) : 1 ≤ (blockSizeOf k).toNat := by
  have hpos : ∀ x : UInt32, x ≠ 0 → 1 ≤ x.toNat := by
    intro x hx
    by_contra hlt
    exact hx (UInt32.toNat_inj.mp (by rw [UInt32.toNat_zero]; omega))
  unfold blockSizeOf
  split
  · split
    · decide
    · next hne => exact hpos _ hne
  · decide

/-! ### The geometry of an image -/

theorem good_of_made {l : Lun} (hfits : l.geometry.cylinders.toNat < 2 ^ 16)
    (hs : 1 ≤ l.geometry.sectorsPerTrack.toNat)
    (hc : Counts l.geometry.cylinders.toNat l.geometry.heads.toNat
      l.geometry.sectorsPerTrack.toNat l.geometry.blockSize.toNat)
    (himage : ∀ size, l.bare = some size → l.geometry.Covers size)
    (hw : l.wrapped = false) : Good (filesystemLunToconfigGeometry l) where
  page := Or.inl nofun
  page0 p hp := by
    obtain rfl := Option.some.inj hp
    exact ⟨word_cyl hfits, rfl⟩
  page4 p hp := by
    obtain rfl := Option.some.inj hp
    exact ⟨rfl, word_cyl hfits, rfl⟩
  sectors := hs
  counts := hc
  image := himage
  tracks := hw

theorem good_dat {l : Lun} (hb : 1 ≤ l.geometry.blockSize.toNat)
    (hs : 1 ≤ l.geometry.sectorsPerTrack.toNat)
    (hok : ImageOk l.size l.geometry.sectorsPerTrack l.geometry.blockSize)
    (hbare : ∀ size, l.bare = some size → size = l.size) (hw : l.wrapped = false) :
    Good (filesytemdattoconfigGeometry l) := by
  have hpos : 0 < l.geometry.sectorsPerTrack.toNat * l.geometry.blockSize.toNat := Nat.mul_pos hs hb
  have htrack : (trackBytes l.geometry).toNat
      = l.geometry.sectorsPerTrack.toNat * l.geometry.blockSize.toNat := by
    rw [trackBytes, UInt32.toNat_mul, UInt16.toNat_toUInt32, Nat.mod_eq_of_lt hok.track]
  have htracks : (l.size / trackBytes l.geometry).toNat
      = l.size.toNat / (l.geometry.sectorsPerTrack.toNat * l.geometry.blockSize.toNat) := by
    rw [UInt32.toNat_div, htrack]
  obtain ⟨hh, hh16, hdvd⟩ := headsFrom_spec (l.size / trackBytes l.geometry) (by decide : 0 < 16)
  have hheads : (UInt8.ofNat (headsFrom (l.size / trackBytes l.geometry) 16)).toNat
      = headsFrom (l.size / trackBytes l.geometry) 16 := by
    rw [UInt8.toNat_ofNat']
    omega
  have hcyl : (l.size / trackBytes l.geometry
        / UInt32.ofNat (headsFrom (l.size / trackBytes l.geometry) 16)).toNat
      = (l.size / trackBytes l.geometry).toNat
        / headsFrom (l.size / trackBytes l.geometry) 16 := by
    rw [UInt32.toNat_div, UInt32.toNat_ofNat', Nat.mod_eq_of_lt (by omega)]
  -- cylinders and heads multiply to the tracks again
  have hmul : (l.size / trackBytes l.geometry).toNat / headsFrom (l.size / trackBytes l.geometry) 16
      * headsFrom (l.size / trackBytes l.geometry) 16 = (l.size / trackBytes l.geometry).toNat :=
    Nat.div_mul_cancel hdvd
  have hone : 1 ≤ (l.size / trackBytes l.geometry).toNat := by
    rw [htracks]
    exact Nat.div_pos hok.one hpos
  have hle : (l.size / trackBytes l.geometry).toNat
      * (l.geometry.sectorsPerTrack.toNat * l.geometry.blockSize.toNat) ≤ l.size.toNat := by
    rw [htracks]
    exact Nat.div_mul_le_self _ _
  have hlt : l.size.toNat < (l.size / trackBytes l.geometry).toNat
      * (l.geometry.sectorsPerTrack.toNat * l.geometry.blockSize.toNat)
      + l.geometry.sectorsPerTrack.toNat * l.geometry.blockSize.toNat := by
    rw [htracks]
    exact Nat.lt_div_mul_add hpos
  have hsize := l.size.toNat_lt
  apply good_of_made
  · simp only [hcyl, htracks]
    exact hok.fits
  · exact hs
  · simp only [hcyl, hheads]
    constructor
    · exact Nat.div_pos (Nat.le_of_dvd hone hdvd) hh
    · exact hh
    · rw [hmul]
      calc (l.size / trackBytes l.geometry).toNat * l.geometry.sectorsPerTrack.toNat
          ≤ (l.size / trackBytes l.geometry).toNat
            * (l.geometry.sectorsPerTrack.toNat * l.geometry.blockSize.toNat) :=
            Nat.mul_le_mul_left _ (Nat.le_mul_of_pos_right _ hb)
        _ ≤ l.size.toNat := hle
        _ < 2 ^ 32 := hsize
    · rw [hmul, Nat.mul_assoc]
      omega
  · intro size hsome
    rw [hbare size hsome]
    simp only [HDGeometry.Covers, hcyl, hheads]
    rw [hmul, Nat.mul_assoc]
    exact ⟨hle, hlt⟩
  · simp only [hw, Bool.false_or, decide_eq_false_iff_not]
    exact Nat.not_le.mpr hok.track

/-! ### The keys and the geometry -/

theorem good_config {l : Lun} (h : ConfigOk l.keys l.size)
    (hbare : ∀ size, l.bare = some size → size = l.size ∧ Describes l.keys size)
    (hw : l.wrapped = false) : Good (filesystemConfigToLunGeometry l) := by
  have hs := sectorsOf_pos l.keys
  have hb := blockSizeOf_pos l.keys
  unfold filesystemConfigToLunGeometry
  simp only
  cases hp0 : l.keys.modePage0 with
  | some p =>
    have hcounts : countsOf l.keys = some (word p[1] p[2], p[3]) := by simp [countsOf, hp0]
    constructor
    · exact Or.inl nofun
    · intro q hq
      rw [Option.some.inj hq]
      exact ⟨rfl, rfl⟩
    · intro q hq
      obtain ⟨hc, hh⟩ := h.agree.counts p q hp0 hq
      exact ⟨h.agree.top q hq, hc.symm, hh.symm⟩
    · exact hs
    · exact h.counts _ _ hcounts
    · intro size hsome
      exact (hbare size hsome).2 _ _ hcounts
    · exact hw
  | none =>
    cases hp4 : l.keys.modePage4 with
    | some q =>
      have hcounts : countsOf l.keys = some (word q[3] q[4], q[5]) := by rw [countsOf, hp0, hp4]
      simp only [filesystemCopyPage4toPage0, Option.map_none]
      constructor
      · exact Or.inr nofun
      · exact nofun
      · intro r hr
        rw [← Option.some.inj hr]
        exact ⟨h.agree.top q hp4, rfl, rfl⟩
      · exact hs
      · exact h.counts _ _ hcounts
      · intro size hsome
        exact (hbare size hsome).2 _ _ hcounts
      · exact hw
    | none =>
      have hcounts : countsOf l.keys = none := by simp [countsOf, hp0, hp4]
      apply good_dat
      · exact hb
      · exact hs
      · exact h.image hcounts
      · exact fun size hsome => (hbare size hsome).1
      · exact hw

theorem config_frame (l : Lun) :
    (filesystemConfigToLunGeometry l).started = l.started ∧
      (filesystemConfigToLunGeometry l).size = l.size ∧
      (filesystemConfigToLunGeometry l).bare = l.bare := by
  unfold filesystemConfigToLunGeometry
  simp only
  split
  · exact ⟨rfl, rfl, rfl⟩
  · split
    · unfold filesystemCopyPage4toPage0
      split
      · exact ⟨rfl, rfl, rfl⟩
      · exact ⟨rfl, rfl, rfl⟩
    · exact ⟨rfl, rfl, rfl⟩

theorem config_bare (l : Lun) (b : Option UInt32) :
    ({ filesystemConfigToLunGeometry l with bare := b } : Lun)
      = filesystemConfigToLunGeometry { l with bare := b } := by
  cases l with
  | mk started size keys geometry bare wrapped =>
    cases keys with
    | mk lba p0 p3 w3 p4 =>
      cases p0 <;> cases p4 <;> rfl

theorem config_geometry (l : Lun) :
    (filesystemConfigToLunGeometry l).geometry.sectorsPerTrack = sectorsOf l.keys ∧
      (filesystemConfigToLunGeometry l).geometry.blockSize = blockSizeOf l.keys := by
  unfold filesystemConfigToLunGeometry
  simp only
  split
  · exact ⟨rfl, rfl⟩
  · split
    · unfold filesystemCopyPage4toPage0
      split
      · exact ⟨rfl, rfl⟩
      · exact ⟨rfl, rfl⟩
    · exact ⟨rfl, rfl⟩

theorem config_wrapped {l : Lun} (hw : l.wrapped = false)
    (h : countsOf l.keys = none → (sectorsOf l.keys).toNat * (blockSizeOf l.keys).toNat < 2 ^ 32) :
    (filesystemConfigToLunGeometry l).wrapped = false := by
  unfold filesystemConfigToLunGeometry
  simp only
  split
  · exact hw
  · next hp0 =>
    split
    · unfold filesystemCopyPage4toPage0
      split
      · exact hw
      · exact hw
    · next hp4 =>
      have hnone : countsOf l.keys = none := by simp [countsOf, hp0, hp4]
      simp only [filesytemdattoconfigGeometry, filesystemLunToconfigGeometry, hw, Bool.false_or,
        decide_eq_false_iff_not]
      exact Nat.not_le.mpr (h hnone)

/-! ### Reading the files -/

variable {defscsi : Option Config} {f : LunFiles}

theorem geometryOfDsc_fits (b : Vector UInt8 22) : (geometryOfDsc b).cylinders.toNat < 2 ^ 16 :=
  word_lt _ _

theorem good_reread {l : Lun} (h : ReadOk defscsi f l.size false) (hw : l.wrapped = false) :
    Good (filesystemReadLunDescriptor defscsi f l).1 := by
  unfold ReadOk at h
  cases hcfg : f.cfg with
  | some k =>
    simp only [hcfg] at h
    have hgood : Good (filesystemConfigToLunGeometry { l with keys := k, bare := none }) :=
      good_config h (by intro a h; cases h) hw
    simp only [filesystemReadLunDescriptor, filesystemCheckExtAttributes, hcfg, if_true]
    rw [show ({ filesystemConfigToLunGeometry { l with keys := k } with bare := none } : Lun)
      = filesystemConfigToLunGeometry { l with keys := k, bare := none } from config_bare _ _]
    exact hgood
  | none =>
    simp only [hcfg] at h
    obtain ⟨hpass, h⟩ := h
    simp only [filesystemReadLunDescriptor, filesystemCheckExtAttributes, hcfg, Bool.false_eq_true,
      if_false]
    cases hdsc : f.dsc with
    | some b =>
      simp only [hdsc] at h
      apply good_of_made
      · exact geometryOfDsc_fits b
      · exact (by decide : 1 ≤ DEFAULT_SECTORS_PER_TRACK.toNat)
      · exact h
      · intro a h
        cases h
      · exact config_wrapped hw hpass
    | none =>
      simp only [hdsc, Bool.false_eq_true, if_false] at h
      have hgood : Good (filesystemConfigToLunGeometry
          { l with keys := defscsi.getD Config.empty, bare := some l.size }) := by
        apply good_config h.1
        · intro size hsome
          obtain rfl := Option.some.inj hsome
          exact ⟨rfl, h.2⟩
        · exact hw
      rw [show ({ filesystemConfigToLunGeometry { l with keys := defscsi.getD Config.empty }
            with bare := some l.size } : Lun)
        = filesystemConfigToLunGeometry
            { l with keys := defscsi.getD Config.empty, bare := some l.size } from config_bare _ _]
      exact hgood

theorem good_started {l : Lun} (hl : l.started = true → Good l) (h : StartOk defscsi f l)
    (hs : (filesystemCheckLunImage defscsi f l).1.started = true) :
    Good (filesystemCheckLunImage defscsi f l).1 := by
  unfold filesystemCheckLunImage at hs ⊢
  cases hst : l.started with
  | true =>
    simp only [if_true]
    exact hl hst
  | false =>
    simp only [hst, Bool.false_eq_true, if_false] at hs ⊢
    cases hdat : f.dat with
    | none =>
      simp only [hdat] at hs
      rw [hst] at hs
      cases hs
    | some size =>
      simp only
      have hread := h hst size hdat
      cases hfound : (filesystemReadLunDescriptor defscsi f
          { l with started := true, size := size, wrapped := false }).2 with
      | true =>
        simp only [if_true]
        apply good_reread _ rfl
        -- a descriptor was found, so nothing hangs on where the LUN is in its start
        unfold ReadOk at hread ⊢
        cases hcfg : f.cfg with
        | some k =>
          simp only [hcfg] at hread ⊢
          exact hread
        | none =>
          cases hdsc : f.dsc with
          | some b =>
            simp only [hcfg, hdsc] at hread ⊢
            exact hread
          | none => simp [filesystemReadLunDescriptor, filesystemCheckExtAttributes, hcfg, hdsc] at hfound
      | false =>
        simp only [Bool.false_eq_true, if_false]
        have hcfg : f.cfg = none := by
          by_contra hne
          obtain ⟨k, hk⟩ := Option.ne_none_iff_exists'.mp hne
          simp [filesystemReadLunDescriptor, filesystemCheckExtAttributes, hk] at hfound
        have hdsc : f.dsc = none := by
          by_contra hne
          obtain ⟨b, hb⟩ := Option.ne_none_iff_exists'.mp hne
          simp [filesystemReadLunDescriptor, filesystemCheckExtAttributes, hcfg, hb] at hfound
        unfold ReadOk at hread
        simp only [hcfg, hdsc, if_true] at hread
        obtain ⟨hpass, himage⟩ := hread
        simp only [filesystemReadLunDescriptor, filesystemCheckExtAttributes, hcfg, hdsc,
          Bool.false_eq_true, if_false]
        have hgeo := config_geometry
          { l with started := true, size := size, wrapped := false, keys := defscsi.getD Config.empty }
        have hframe := config_frame
          { l with started := true, size := size, wrapped := false, keys := defscsi.getD Config.empty }
        apply good_dat
        · simp only [hgeo.2]
          exact blockSizeOf_pos _
        · simp only [hgeo.1]
          exact sectorsOf_pos _
        · simp only [hgeo.1, hgeo.2, hframe.2.1]
          exact himage
        · intro n hn
          simp only [hframe.2.1]
          exact (Option.some.inj hn).symm
        · exact config_wrapped rfl hpass

/-! ### MODE SELECT -/

structure Loose (l : Lun) : Prop where
  page : l.keys.modePage0 ≠ none ∨ l.keys.modePage4 ≠ none
  page0 : ∀ p, l.keys.modePage0 = some p →
    word p[1] p[2] = l.geometry.cylinders ∧ p[3] = l.geometry.heads
  page4 : ∀ p, l.keys.modePage4 = some p →
    p[2] = 0 ∧ word p[3] p[4] = l.geometry.cylinders ∧ p[5] = l.geometry.heads
  tracks : l.wrapped = false
  bare : l.bare = none

def SameRest (k k' : Config) : Prop :=
  k.lbaDescriptor = k'.lbaDescriptor ∧ k.modePage3 = k'.modePage3 ∧ k.writPage3 = k'.writPage3

theorem SameRest.numbers {k k' : Config} (h : SameRest k k') :
    sectorsOf k = sectorsOf k' ∧ blockSizeOf k = blockSizeOf k' := by
  obtain ⟨hlba, h3, -⟩ := h
  constructor
  · simp only [sectorsOf, h3]
  · simp only [blockSizeOf, hlba]

theorem SameRest.write {k k' : Config} (h : SameRest k k') (page : UInt8) (b : List UInt8) :
    SameRest (filesystemWriteModePageData k page b) (filesystemWriteModePageData k' page b) := by
  obtain ⟨hlba, h3, hw⟩ := h
  unfold filesystemWriteModePageData
  split
  · exact ⟨hlba, h3, hw⟩
  · split
    · rw [h3, hw]
      split
      · exact ⟨hlba, rfl, rfl⟩
      · exact ⟨hlba, rfl, rfl⟩
    · split
      · exact ⟨hlba, h3, hw⟩
      · exact ⟨hlba, h3, hw⟩

theorem copy4_rest (l : Lun) : SameRest (filesystemCopyPage4toPage0 l).keys l.keys := by
  unfold filesystemCopyPage4toPage0
  split
  · exact ⟨rfl, rfl, rfl⟩
  · exact ⟨rfl, rfl, rfl⟩

theorem selectPage_spec {l : Lun} (h : Loose l) {page : UInt8} {b : List UInt8} (hpage : page ≠ 0)
    (htop : page = 4 → (padded 6 b)[2] = 0) :
    Loose (selectPage l page b) ∧
      ((selectPage l page b).geometry.cylinders, (selectPage l page b).geometry.heads)
        = (if page = 4 then page4Counts (padded 6 b) else (l.geometry.cylinders, l.geometry.heads)) ∧
      (selectPage l page b).geometry.sectorsPerTrack = l.geometry.sectorsPerTrack ∧
      (selectPage l page b).geometry.blockSize = l.geometry.blockSize ∧
      SameRest (selectPage l page b).keys (filesystemWriteModePageData l.keys page b) := by
  by_cases h4 : page = 4
  · have hkeys : filesystemWriteModePageData l.keys page b
        = { l.keys with modePage4 := some (padded 6 b) } := by
      rw [filesystemWriteModePageData, if_neg hpage, if_neg (by rw [h4]; decide), if_pos h4]
    have hsel : selectPage l page b
        = filesystemCopyPage4toPage0 { l with keys := { l.keys with modePage4 := some (padded 6 b) } } := by
      rw [selectPage, if_pos h4, hkeys]
    rw [hsel, hkeys, if_pos h4]
    refine ⟨?_, rfl, rfl, rfl, copy4_rest _⟩
    constructor
    · exact Or.inr nofun
    · intro p hp
      simp only [filesystemCopyPage4toPage0, Option.map_eq_some_iff] at hp
      obtain ⟨q, -, rfl⟩ := hp
      exact ⟨word_cyl (word_lt _ _), rfl⟩
    · intro p hp
      obtain rfl := Option.some.inj hp
      exact ⟨htop h4, rfl, rfl⟩
    · exact h.tracks
    · exact h.bare
  · have hsel : selectPage l page b = { l with keys := filesystemWriteModePageData l.keys page b } := by
      rw [selectPage, if_neg h4]
    have hsame : (filesystemWriteModePageData l.keys page b).modePage0 = l.keys.modePage0 ∧
        (filesystemWriteModePageData l.keys page b).modePage4 = l.keys.modePage4 := by
      unfold filesystemWriteModePageData
      rw [if_neg hpage, if_neg h4]
      split
      · split
        · exact ⟨rfl, rfl⟩
        · exact ⟨rfl, rfl⟩
      · exact ⟨rfl, rfl⟩
    rw [hsel, if_neg h4]
    refine ⟨?_, rfl, rfl, rfl, rfl, rfl, rfl⟩
    constructor
    · simp only [hsame.1, hsame.2]
      exact h.page
    · simp only [hsame.1]
      exact h.page0
    · simp only [hsame.2]
      exact h.page4
    · exact h.tracks
    · exact h.bare

theorem selectPages_spec {pages : List (UInt8 × List UInt8)} {l : Lun} {k : Config} (h : Loose l)
    (hrest : SameRest l.keys k)
    (hpages : ∀ p ∈ pages, p.1 ≠ 0 ∧ (p.1 = 4 → (padded 6 p.2)[2] = 0)) :
    let l' := pages.foldl (fun l p => selectPage l p.1 p.2) l
    Loose l' ∧
      (l'.geometry.cylinders, l'.geometry.heads)
        = selectedCounts (l.geometry.cylinders, l.geometry.heads) pages ∧
      l'.geometry.sectorsPerTrack = l.geometry.sectorsPerTrack ∧
      l'.geometry.blockSize = l.geometry.blockSize ∧ SameRest l'.keys (selectedKeys k pages) := by
  induction pages generalizing l k with
  | nil => exact ⟨h, rfl, rfl, rfl, hrest⟩
  | cons p pages ih =>
    obtain ⟨hp0, hp4⟩ := hpages p List.mem_cons_self
    obtain ⟨hl, hc, hs, hb, hr⟩ := selectPage_spec h hp0 hp4
    have hrest' : SameRest (selectPage l p.1 p.2).keys (filesystemWriteModePageData k p.1 p.2) := by
      obtain ⟨h1, h2, h3⟩ := hr
      obtain ⟨g1, g2, g3⟩ := hrest.write p.1 p.2
      exact ⟨h1.trans g1, h2.trans g2, h3.trans g3⟩
    obtain ⟨hl', hc', hs', hb', hr'⟩ := ih hl hrest' fun q hq => hpages q (List.mem_cons_of_mem p hq)
    refine ⟨hl', ?_, hs'.trans hs, hb'.trans hb, hr'⟩
    rw [hc] at hc'
    exact hc'

theorem Loose.countsOf {l : Lun} (h : Loose l) :
    countsOf l.keys = some (l.geometry.cylinders, l.geometry.heads) := by
  cases hp : l.keys.modePage0 with
  | some p =>
    obtain ⟨hc, hh⟩ := h.page0 p hp
    simp only [Scsi.countsOf, hp, hc, hh]
  | none =>
    cases hq : l.keys.modePage4 with
    | some q =>
      obtain ⟨-, hc, hh⟩ := h.page4 q hq
      simp only [Scsi.countsOf, hp, hq, hc, hh]
    | none =>
      rcases h.page with hne | hne
      · exact absurd hp hne
      · exact absurd hq hne

theorem Loose.agree {l : Lun} (h : Loose l) : Agree l.keys where
  top q hq := (h.page4 q hq).1
  counts p q hp hq := by
    obtain ⟨hc, hh⟩ := h.page0 p hp
    obtain ⟨-, hc', hh'⟩ := h.page4 q hq
    exact ⟨hc.trans hc'.symm, hh.trans hh'.symm⟩

theorem Loose.good_config {l : Lun} (h : Loose l)
    (hc : Counts l.geometry.cylinders.toNat l.geometry.heads.toNat (sectorsOf l.keys).toNat
      (blockSizeOf l.keys).toNat) : Good (filesystemConfigToLunGeometry l) := by
  apply Scsi.good_config
  · constructor
    · exact h.agree
    · intro c n hcn
      rw [h.countsOf] at hcn
      obtain ⟨rfl, rfl⟩ := Prod.mk.inj (Option.some.inj hcn)
      exact hc
    · intro hnone
      rw [h.countsOf] at hnone
      cases hnone
  · intro size hsome
    rw [h.bare] at hsome
    cases hsome
  · exact h.tracks

theorem good_select {l : Lun} {params : List UInt8} (hg : Good l) (h : SelectOk l params) :
    Good (selectParameters params l) := by
  unfold SelectOk at h
  unfold selectParameters
  split
  · next hform =>
    rw [if_pos hform] at h
    have hkeys : filesystemWriteModePageData l.keys 0 (params.drop 12)
        = { l.keys with modePage0 := some (padded MODE_PAGE_0_SIZE (params.drop 12)) } := if_pos rfl
    rw [hkeys]
    apply Loose.good_config
    · constructor
      · exact Or.inl nofun
      · intro p hp
        obtain rfl := Option.some.inj hp
        exact ⟨rfl, rfl⟩
      · intro q hq
        simp only [filesystemCopyPage0toPage4, Option.map_eq_some_iff] at hq
        obtain ⟨r, -, rfl⟩ := hq
        exact ⟨rfl, word_cyl (word_lt _ _), rfl⟩
      · exact hg.tracks
      · rfl
    · exact h
  · next hform =>
    rw [if_neg hform] at h
    obtain ⟨hpages, h⟩ := h
    have hloose : Loose { l with bare := none } := ⟨hg.page, hg.page0, hg.page4, hg.tracks, rfl⟩
    obtain ⟨hl, hc, hs, hb, hr⟩ :=
      selectPages_spec (k := l.keys) hloose ⟨rfl, rfl, rfl⟩ hpages
    obtain ⟨hsec, hblk⟩ := hr.numbers
    simp only at h hc ⊢
    rw [← hc] at h
    split
    · next hend =>
      rw [if_pos hend] at h
      apply hl.good_config
      rw [hsec, hblk]
      exact h
    · next hend =>
      rw [if_neg hend] at h
      refine { hl with sectors := ?_, counts := ?_, image := ?_ }
      · rw [hs]
        exact hg.sectors
      · rw [hs, hb]
        exact h
      · intro size hsome
        rw [hl.bare] at hsome
        cases hsome

/-! ### Runs -/

theorem select_started (params : List UInt8) (l : Lun) :
    (selectParameters params l).started = l.started := by
  have hfold : ∀ (pages : List (UInt8 × List UInt8)) (l : Lun),
      (pages.foldl (fun l p => selectPage l p.1 p.2) l).started = l.started := by
    intro pages
    induction pages with
    | nil => intro l; rfl
    | cons p pages ih =>
      intro l
      rw [List.foldl_cons, ih]
      unfold selectPage
      simp only
      split
      · unfold filesystemCopyPage4toPage0
        split
        · rfl
        · rfl
      · rfl
  unfold selectParameters
  split
  · rw [(config_frame _).1]
    rfl
  · simp only
    split
    · rw [(config_frame _).1, hfold]
    · rw [hfold]

theorem reread_started (l : Lun) :
    (filesystemReadLunDescriptor defscsi f l).1.started = l.started := by
  unfold filesystemReadLunDescriptor filesystemCheckExtAttributes
  cases f.cfg with
  | some k => exact (config_frame _).1
  | none =>
    cases f.dsc with
    | some b => exact (config_frame _).1
    | none => exact (config_frame _).1

theorem check_started (l : Lun) :
    (filesystemCheckLunImage defscsi f l).1.started = (filesystemCheckLunImage defscsi f l).2 := by
  unfold filesystemCheckLunImage
  cases hst : l.started with
  | true => exact hst
  | false =>
    simp only [Bool.false_eq_true, if_false]
    cases f.dat with
    | none => exact hst
    | some size =>
      simp only
      split
      · exact reread_started _
      · exact reread_started _

theorem Lun.step_good {l : Lun} {op : LunOp} (hl : l.started = true → Good l)
    (h : l.Followed defscsi f op) (hs : (l.step defscsi f op).started = true) :
    Good (l.step defscsi f op) := by
  cases op with
  | start => exact good_started hl h hs
  | stop =>
    simp only [Lun.step, Scsi.stop] at hs
    split at hs
    · cases hs
    · next hne => exact absurd hs hne
  | reread =>
    have hst : l.started = true := (reread_started l).symm.trans hs
    exact good_reread (h hst) (hl hst).tracks
  | modeSelect params =>
    simp only [Lun.step, scsiCommandModeSelect6] at hs ⊢
    split at hs
    · next hshort =>
      rw [if_pos hshort]
      exact hl hs
    · next hlong =>
      rw [if_neg hlong]
      obtain ⟨hstart, hsel⟩ := h (by omega)
      cases hc : (filesystemCheckLunImage defscsi f l).2 with
      | true =>
        rw [if_pos rfl]
        have hgood := good_started hl hstart ((check_started l).trans hc)
        exact good_select hgood (hsel hc)
      | false =>
        -- without an image the parameters are taken, but the LUN stays stopped
        have hoff : (filesystemCheckLunImage defscsi f l).1.started = false :=
          (check_started l).trans hc
        rw [hc, if_neg Bool.false_ne_true] at hs
        split at hs
        · rw [select_started] at hs
          exact absurd (hoff.symm.trans hs) Bool.false_ne_true
        · rw [select_started] at hs
          exact absurd (hoff.symm.trans hs) Bool.false_ne_true
        · exact absurd (hoff.symm.trans hs) Bool.false_ne_true
  | grow size =>
    simp only [Lun.step] at hs ⊢
    split
    · next hle =>
      rw [if_pos hle] at hs
      obtain ⟨h1, h2, h3, h4, h5, h6, h7⟩ := hl hs
      exact ⟨h1, h2, h3, h4, h5, h6, h7⟩
    · next hgt =>
      rw [if_neg hgt] at hs
      exact hl hs

def Drive.Good (d : Drive) : Prop := ∀ lun, (d.luns lun).started = true → Scsi.Good (d.luns lun)

theorem Drive.step_good {d : Drive} {op : Op} (hd : d.Good) (h : d.Followed op) : (d.step op).Good := by
  cases op with
  | lun lun op card =>
    intro other hs
    simp only [Drive.step] at hs ⊢
    by_cases heq : other = lun
    · subst heq
      simp only [Function.update_self] at hs ⊢
      exact Lun.step_good (hd other) h hs
    · simp only [Function.update_of_ne heq] at hs ⊢
      exact hd other hs
  | jukebox vfs directory =>
    simp only [Drive.step]
    split
    · exact hd
    · split
      · exact hd
      · exact hd

theorem Drive.run_good {ops : List Op} {d : Drive} (hd : d.Good) (h : d.AllFollowed ops) :
    (d.run ops).Good := by
  induction ops generalizing d with
  | nil => exact hd
  | cons op ops ih => exact ih (Drive.step_good hd h.1) h.2

theorem one_geometry {ops : List Op} (h : Drive.initial.AllFollowed ops) (lun : Fin 16)
    (hs : ((Drive.initial.run ops).luns lun).started = true) :
    OneGeometry ((Drive.initial.run ops).luns lun) := by
  have hgood : Drive.initial.Good := fun _ h => absurd h Bool.false_ne_true
  exact (Drive.run_good hgood h lun hs).agrees

/-- The keys of the `defscsi.cfg` that comes with the code. -/
def shippedConfig : Config where
  lbaDescriptor := some #v[0x00, 0x00, 0x00, 0x00, 0x00, 0x00, 0x01, 0x00]
  modePage0 := some #v[0x01, 0x01, 0x32, 0x04, 0x00, 0x80, 0x00, 0x80, 0x00, 0x01]
  modePage3 := some #v[0x03, 0x15, 0x01, 0x32, 0x01, 0x32, 0x00, 0x06, 0x00, 0x06, 0x00, 0x21, 0x01, 0x00,
    0x00, 0x08, 0x00, 0x00, 0x00, 0x00, 0x80, 0x00, 0x00]
  writPage3 := some [0x00, 0x00, 0x00, 0x00, 0x00, 0x00, 0x00, 0x00, 0x00, 0x00, 0x00, 0x00, 0xFF, 0xFF,
    0x00, 0x00, 0x00, 0x00, 0x00, 0x00, 0x00, 0x00, 0x00]
  modePage4 := some #v[0x04, 0x06, 0x00, 0x01, 0x32, 0x04]

/-- A card with one image in every directory; `described` is whether the keys stand beside it. -/
def cardWith (described : Bool) (size : UInt32) : Card where
  defscsi := some shippedConfig
  luns _ _ lun :=
    if lun = 0 then ⟨if described then some shippedConfig else none, none, some size⟩ else ⟨none, none, none⟩

/-- Started, asked for its pages, and given 512 cylinders of 8 heads. -/
theorem one_geometry_selected :
    let ops : List Op :=
      [.lun 0 .start (cardWith true 10340352), .lun 0 .reread (cardWith true 10340352),
        .lun 0 (.modeSelect [0, 0, 0, 8, 0, 0, 0, 0, 0, 0, 1, 0, 1, 2, 0, 8, 0, 128, 0, 128, 0, 1])
          (cardWith true 10340352)]
    OneGeometry ((Drive.initial.run ops).luns 0) := by
  intro ops
  have hcfg : ConfigOk shippedConfig 10340352 := by
    constructor
    · constructor
      · rintro q ⟨⟩
        rfl
      · rintro p q ⟨⟩ ⟨⟩
        exact ⟨rfl, rfl⟩
    · rintro c h ⟨⟩
      constructor
      all_goals decide
    · exact nofun
  apply one_geometry
  · refine ⟨?_, ?_, ?_, trivial⟩
    · intro _ size hsize
      obtain rfl := Option.some.inj hsize
      exact hcfg
    · intro _
      exact hcfg
    · intro _
      constructor
      · intro hst
        exact absurd hst (by decide +kernel)
      · intro _
        show SelectOk _ _
        unfold SelectOk
        rw [if_pos (by decide)]
        constructor
        all_goals decide +kernel
  · decide +kernel

/-- An image of one track, and nothing beside it.  MODE SENSE reads the default keys, and the LUN
is one of 306 cylinders then. -/
theorem reread_not_of_image :
    ¬ ∀ (ops : List Op) (lun : Fin 16), ((Drive.initial.run ops).luns lun).started = true →
      OneGeometry ((Drive.initial.run ops).luns lun) := by
  intro h
  have hone := h [.lun 0 .start (cardWith false 8448), .lun 0 .reread (cardWith false 8448)] 0
    (by decide +kernel)
  have himage := (hone.image 8448 (by decide +kernel)).1
  exact absurd himage (by decide +kernel)

end Pi1MHz.Scsi
