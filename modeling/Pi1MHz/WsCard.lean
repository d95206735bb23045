import Pi1MHz.FileTree
import Pi1MHz.WsSpelling

/-!
# The web server: the card

The FatFs calls of the web server, over a tree of files whose paths are the names as FatFs compares
them.  Two spellings of one directory entry are one path here, so a call that is given either does
the same.
-/

namespace Pi1MHz.Ws

open FileTree

/-- `fdate` and `ftime` of a directory entry. -/
structure Stamp where
  fdate : UInt16
  ftime : UInt16
deriving DecidableEq, Repr

abbrev Card := Files Str Stamp

def nortcStamp : Stamp := ⟨0x5C44, 0⟩

/-- The directory entry of a path that names one other than the root; short names are set aside, as in
`fatResolve`. -/
def fatObject (path : Str) : Option (List Str) := (fatResolve path).filter (· ≠ [])

def fStat (c : Card) (path : Str) : Option (Entry Stamp) := (fatObject path).bind c.get

def canUnlink (c : Card) (k : List Str) : Bool :=
  match c.get k with
  | some (.file _ _ readOnly) => !readOnly
  | some (.dir _) => !c.hasChildren k
  | none => false

def fUnlink (c : Card) (path : Str) : Card :=
  match fatObject path with
  | some k => if canUnlink c k then c.remove k else c
  | none => c

/-- Nothing is at the new path yet, and there is a directory to put it in; or the new path is
another spelling of the old. -/
def canRename (c : Card) (s d : List Str) : Bool :=
  (c.get s).isSome && (s == d || (c.get d).isNone && c.isDir d.dropLast)

def fRename (fails : Bool) (c : Card) (src dst : Str) : Card × Bool :=
  match fatObject src, fatObject dst with
  | some s, some d =>
      if fails || !canRename c s d then (c, false)
      else if s = d then (c, true)
      else (c.move s d, true)
  | _, _ => (c, false)

/-- The bytes of a file that `f_open` can open for reading. -/
def fOpenRead (fails : Bool) (c : Card) (path : Str) : Option (List UInt8) :=
  if fails then none else (fStat c path).bind Entry.content

def canCreate (c : Card) (k : List Str) : Bool :=
  match c.get k with
  | some (.file _ _ readOnly) => !readOnly
  | some (.dir _) => false
  | none => c.isDir k.dropLast

/-- `f_open` with `FA_CREATE_ALWAYS`: the path of the empty file. -/
def fCreate (fails : Bool) (c : Card) (path : Str) : Option (List Str) :=
  if fails then none else (fatObject path).filter (canCreate c)

def WellFormed (c : Card) : Prop :=
  ∀ k, k ≠ [] → (c.get k).isSome = true → c.isDir k.dropLast = true

theorem fatObject_ne_nil {path : Str} {k : List Str} (h : fatObject path = some k) : k ≠ [] := by
  unfold fatObject at h
  have := (Option.filter_eq_some_iff.mp h).2
  simpa using this

theorem dropLast_ne_self {k : List Str} (h : k ≠ []) : k.dropLast ≠ k := by
  intro heq
  have hlen := congrArg List.length heq
  rw [List.length_dropLast] at hlen
  have := List.length_pos_iff.mpr h
  omega

theorem isDir_congr {c c' : Card} {k : List Str} (h : c'.get k = c.get k) : c'.isDir k = c.isDir k := by
  rw [Files.isDir, Files.isDir, h]

end Pi1MHz.Ws
