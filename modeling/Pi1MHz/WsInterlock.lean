import Mathlib.Data.Fintype.Basic
import Pi1MHz.WsPath

/-!
# The web server: files the Beeb holds

`ws_beeb_path_busy` keeps the web server away from a file while the Beeb has it open, as the image
of a started LUN or through the FAT service.  It compares strings: `filesystemHostPathBusy` with
the names that `filesystemCheckLunImage` opens, `fat_service_file_in_use` with the names the Beeb
opened.
-/

namespace Pi1MHz.Ws

def fatUpper (c : UInt8) : UInt8 := if 0x61 ≤ c ∧ c ≤ 0x7A then c - 32 else c

/-! ### The LUNs -/

/-- `MAX_LUNS`. -/
abbrev Lun := Fin 16

/-- What `filesystem.c` keeps that the interlock reads. -/
structure LunState where
  /-- `fsLunStatus`: the LUN is started and its image open. -/
  started : Lun → Bool := fun _ => false
  lunDirectory : UInt8 := 0
  lunDirectoryVFS : UInt8 := 0
  /-- `hostLockMask`: the image is being written by the host. -/
  hostLock : Lun → Bool := fun _ => false
  /-- `hostRevokeMask`: the Beeb took the LUN back. -/
  hostRevoke : Lun → Bool := fun _ => false

/-- The digits that `%d` prints. -/
def decimal (n : Nat) : Str := lit (Nat.toDigits 10 n)

/-- The directory of `fsHostLunNames`. -/
def fsHostLunDir (s : LunState) (lun : Lun) : Str :=
  if lun.val < 8 then lit ['/', 'B', 'e', 'e', 'b', 'S', 'C', 'S', 'I'] ++ decimal s.lunDirectory.toNat
  else lit ['/', 'B', 'e', 'e', 'b', 'V', 'F', 'S'] ++ decimal s.lunDirectoryVFS.toNat

def lunFileStem (lun : Lun) : Str := lit ['s', 'c', 's', 'i'] ++ decimal (lun.val % 8) ++ [0x2E]

/-- The stem of `fsHostLunNames`. -/
def fsHostLunStem (s : LunState) (lun : Lun) : Str := fsHostLunDir s lun ++ 0x2F :: lunFileStem lun

/-- The image that `filesystemCheckLunImage` opens. -/
def lunImage (s : LunState) (lun : Lun) : Str := fsHostLunStem s lun ++ lit ['d', 'a', 't']

def fsHostNameEqual : Nat → Str → Str → Bool
  | 0, _, _ => true
  | n + 1, a, b =>
      if fatUpper (a.headD 0) ≠ fatUpper (b.headD 0) then false
      else if fatUpper (a.headD 0) = 0 then true
      else fsHostNameEqual n a.tail b.tail

def hostPathLen (path : Str) : Nat := (wsStripSlashes path).length

def fsHostPathOfLun (s : LunState) (lun : Lun) (path : Str) : Bool :=
  let pathLen := hostPathLen path
  let stem := fsHostLunStem s lun
  let dir := fsHostLunDir s lun
  (decide (stem.length ≤ pathLen) && fsHostNameEqual stem.length path stem) ||
    (decide (pathLen ≤ dir.length) && fsHostNameEqual pathLen path dir
      && (dir.getD pathLen 0 == 0 || dir.getD pathLen 0 == 0x2F))

def filesystemHostPathBusy (s : LunState) (path : Str) : Bool :=
  path ≠ [] && (List.finRange 16).any fun lun =>
    (s.started lun || s.hostLock lun) && fsHostPathOfLun s lun path

def FAT_OPEN_PATH_MAX : Nat := 130

/-- A path that `fat_open_record` keeps: it is absolute and short enough. -/
structure OpenPath where
  path : Str
  absolute : path.head? = some 0x2F
  fits : path.length < FAT_OPEN_PATH_MAX

/-- What `fat_service.c` keeps that the interlock reads. -/
structure FatState where
  open_ : Fin 16 → Option OpenPath := fun _ => none
  rawSectorSeen : Bool := false

def fatPathNorm (p : Str) : Str :=
  (if [0x30, 0x3A].isPrefixOf p then p.drop 2 else p).dropWhile (· == 0x2F)

def fatOpenMatches (p q : Str) : Bool :=
  decide ((p.take q.length).map fatUpper = q.map fatUpper) &&
    (p.getD q.length 0 == 0 || p.getD q.length 0 == 0x2F || q.isEmpty)

def isMmb (q : Str) : Bool :=
  q.isEmpty || (q.rtakeWhile (· ≠ 0x2F)).map fatUpper == lit ['B', 'E', 'E', 'B', '.', 'M', 'M', 'B']

def fatServiceFileInUse (f : FatState) (path : Str) : Bool :=
  let q := fatPathNorm path
  (f.rawSectorSeen && isMmb q) ||
    (List.finRange 16).any fun i =>
      (f.open_ i).any fun p => fatOpenMatches (fatPathNorm p.path) q

structure BeebState where
  luns : LunState := {}
  fat : FatState := {}

def wsBeebPathBusy (s : BeebState) (path : Str) : Bool :=
  filesystemHostPathBusy s.luns path || fatServiceFileInUse s.fat path

end Pi1MHz.Ws
