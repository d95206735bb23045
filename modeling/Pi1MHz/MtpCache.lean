import Pi1MHz.PathTree
import Pi1MHz.SortedTable
import Pi1MHz.WsSpelling

/-!
# MTP: the object table

`fs_cache_ensure` of `mtp_fs.c`: the walk over the card, the handles it gives out and the repair of
those that two paths share; and the functions that look a handle up and list a folder.
-/

namespace Pi1MHz.Mtp

open Ws (Str namedPath)
open PathTree SortedTable

/-! ### The card -/

structure Item where
  path : List Str
  isDir : Bool
  size : UInt32
  mdate : UInt16
  mtime : UInt16
  readOnly : Bool
deriving DecidableEq, Repr

abbrev Card := List Item

/-- `f_readdir` from the first entry of a directory to the last. -/
def readdir (card : Card) (dir : List Str) : List Item :=
  card.filter fun it => it.path ≠ [] ∧ it.path.dropLast = dir

def NameOk (n : Str) : Prop :=
  Ws.fatNameOk n = true ∧ n.rdropWhile Ws.fatSkip = n ∧ ∀ c ∈ n, Ws.isSep c = false ∧ 0x20 ≤ c

def folded (path : List Str) : List Str := path.map Ws.fatNameOf

structure WellFormed (card : Card) : Prop where
  distinct : (card.map fun it => folded it.path).Nodup
  ne_nil : ∀ it ∈ card, it.path ≠ []
  parent : ∀ it ∈ card, it.path.dropLast ≠ [] →
    ∃ d ∈ card, d.isDir = true ∧ d.path = it.path.dropLast
  names : ∀ it ∈ card, ∀ n ∈ it.path, NameOk n

theorem WellFormed.nodup {card : Card} (h : WellFormed card) : (card.map Item.path).Nodup := by
  apply List.Nodup.of_map folded
  rw [List.map_map]
  exact h.distinct

theorem WellFormed.closed {card : Card} (h : WellFormed card) : Closed Item.path card where
  nodup := h.nodup
  ne_nil := h.ne_nil
  parent it hit hne := by
    obtain ⟨d, hd, -, hpath⟩ := h.parent it hit hne
    exact ⟨d, hd, hpath⟩

theorem WellFormed.lists {card : Card} (h : WellFormed card) :
    Lists Item.path card (readdir card) where
  mem p it := by
    simp only [readdir, List.mem_filter, decide_eq_true_eq]
    constructor
    · exact fun hit => ⟨hit.1, hit.2.2⟩
    · exact fun hit => ⟨hit.1, h.ne_nil it hit.1, hit.2⟩
  nodup _ := h.nodup.of_map.filter _

theorem WellFormed.readdir_file {card : Card} (h : WellFormed card) {it : Item} (hit : it ∈ card)
    (hfile : it.isDir = false) : readdir card it.path = [] := by
  apply List.eq_nil_iff_forall_not_mem.mpr
  intro v hv
  obtain ⟨hv, hdrop⟩ := (h.lists.mem it.path v).mp hv
  obtain ⟨d, hd, hdir, hpath⟩ := h.parent v hv (hdrop ▸ h.ne_nil it hit)
  obtain rfl := h.closed.inj hd hit (hpath.trans hdrop)
  rw [hfile] at hdir
  cases hdir

/-! ### The code -/

/-- `fs_cache_entry_t`. -/
structure CacheEntry where
  handle : UInt32
  parent : UInt32
  isDir : Bool
  size : UInt32
  mdate : UInt16
  mtime : UInt16
  path : List Str
deriving DecidableEq, Repr

/-- What `fs_cache_cmp_handle` compares. -/
def CacheEntry.key (e : CacheEntry) : Nat := e.handle.toNat

def FS_PATH_MAX : Nat := 512

def MTP_WALK_MAX_DEPTH : Nat := 16

/-- The loop of `fs_hash_path_seeded`. -/
def fnv1a (path : Str) (seed : UInt32) : UInt32 :=
  path.foldl (fun hash c => (hash ^^^ c.toUInt32) * 16777619) seed

section Code

variable (fnv : Str → UInt32 → UInt32)

def fsHashPathSeeded (path : Str) (seed : UInt32) : UInt32 :=
  let hash := fnv path seed
  if hash = 0 ∨ hash = 0xFFFFFFFF then hash ^^^ 0xA5A5A5A5 else hash

def fsHandleFromPath (path : List Str) : UInt32 := fsHashPathSeeded fnv (namedPath path) 2166136261

/-- The entry `fs_walk_tree_recursive` makes of what it reads from a directory. -/
def walkEntry (parent : UInt32) (it : Item) : CacheEntry where
  handle := fsHandleFromPath fnv it.path
  parent := parent
  isDir := it.isDir
  size := it.size
  mdate := it.mdate
  mtime := it.mtime
  path := it.path

/-- `"."` and `".."`. -/
def isDots (path : List Str) : Bool :=
  path.getLast? = some [0x2E] || path.getLast? = some [0x2E, 0x2E]

/-- With `left` levels to the limit.  An entry whose path does not fit is passed over. -/
def fsWalkTreeRecursive (card : Card) : Nat → List Str → UInt32 → Option (List CacheEntry)
  | 0, _, _ => none
  | left + 1, dir, parent => do
    let found ← (readdir card dir).mapM fun it =>
      if isDots it.path || FS_PATH_MAX ≤ (namedPath it.path).length then some []
      else
        let entry := walkEntry fnv parent it
        if it.isDir then
          (fsWalkTreeRecursive card left it.path entry.handle).map (entry :: ·)
        else some [entry]
    some found.flatten

def fsWalkTree (card : Card) : Option (List CacheEntry) :=
  fsWalkTreeRecursive fnv card MTP_WALK_MAX_DEPTH [] 0

def attemptSeed (attempt : UInt32) : UInt32 := 2166136261 + attempt * 0x9E3779B9

def rehash (attempt : UInt32) (path : List Str) : UInt32 :=
  fsHashPathSeeded fnv (namedPath path) (attemptSeed attempt)

def repairAttempt (attempt : UInt32) (l : List CacheEntry) : List CacheEntry × Bool :=
  separate CacheEntry.key (fun _ e => { e with handle := rehash fnv attempt e.path }) l

def repairSynthetic (l : List CacheEntry) : List CacheEntry :=
  (separate CacheEntry.key (fun i e => { e with handle := 0x80000001 + UInt32.ofNat i }) l).1

variable (qsort : Sorter CacheEntry.key)

def repairFrom : List UInt32 → List CacheEntry → List CacheEntry
  | [], l => qsort.run (repairSynthetic l)
  | attempt :: attempts, l =>
    let r := repairAttempt fnv attempt l
    if r.2 then repairFrom attempts (qsort.run r.1) else l

def repairAttempts : List UInt32 := [1, 2, 3, 4, 5, 6, 7, 8]

def fsCacheRepairCollisions (l : List CacheEntry) : List CacheEntry :=
  repairFrom fnv qsort repairAttempts l

/-- `fs_cache_ensure` where the table is not valid: the new table, unless the walk fails. -/
def fsCacheBuild (card : Card) : Option (List CacheEntry) :=
  (fsWalkTree fnv card).map fun entries =>
    if 1 < entries.length then fsCacheRepairCollisions fnv qsort (qsort.run entries) else entries

end Code

def fsGetEntryByHandle (cache : List CacheEntry) (handle : UInt32) : Option CacheEntry :=
  if handle = 0 then none else bsearch CacheEntry.key handle.toNat cache

/-- `fs_collect_handles` with no object format to filter by. -/
def fsCollectHandles (cache : List CacheEntry) (parentFilter : UInt32) : List UInt32 :=
  (cache.filter fun e =>
    if parentFilter = 0xFFFFFFFF then e.parent = 0 else e.parent = parentFilter).map CacheEntry.handle

def MAX_HANDLES : Nat := (2048 - 12 - 4 - 1) / 4

/-- `fs_get_object_handles`; there is no answer where the parent is not a folder. -/
def fsGetObjectHandles (cache : List CacheEntry) (parent : UInt32) : Option (List UInt32) :=
  if parent ≠ 0 ∧ parent ≠ 0xFFFFFFFF ∧ ((fsGetEntryByHandle cache parent).all (!·.isDir)) then none
  else some ((fsCollectHandles cache parent).take MAX_HANDLES)

def listing (cache : List CacheEntry) : Nat → UInt32 → List UInt32
  | 0, _ => []
  | left + 1, parent =>
    ((fsGetObjectHandles cache parent).getD []).flatMap fun h => h :: listing cache left h

variable {fnv : Str → UInt32 → UInt32}

theorem CacheEntry.key_inj {a b : CacheEntry} : a.key = b.key ↔ a.handle = b.handle :=
  UInt32.toNat_inj

theorem fsHashPathSeeded_ne (path : Str) (seed : UInt32) :
    fsHashPathSeeded fnv path seed ≠ 0 ∧ fsHashPathSeeded fnv path seed ≠ 0xFFFFFFFF := by
  simp only [fsHashPathSeeded]
  split
  · next h =>
    rcases h with h | h
    · rw [h]
      decide
    · rw [h]
      decide
  · next h => exact not_or.mp h

def handleFor (fnv : Str → UInt32 → UInt32) (dir : List Str) : UInt32 :=
  if dir = [] then 0 else fsHandleFromPath fnv dir

def entryOf (fnv : Str → UInt32 → UInt32) (it : Item) : CacheEntry :=
  walkEntry fnv (handleFor fnv it.path.dropLast) it

/-! ### The walk -/

theorem mapM_some_of {α β : Type} {f : α → Option β} {g : α → β} {l : List α}
    (h : ∀ x ∈ l, f x = some (g x)) : l.mapM f = some (l.map g) := by
  induction l with
  | nil => rfl
  | cons x l ih =>
    rw [List.mapM_cons, h x List.mem_cons_self, ih fun y hy => h y (List.mem_cons_of_mem x hy)]
    rfl

theorem isDots_of_names {path : List Str} (h : ∀ n ∈ path, NameOk n) : isDots path = false := by
  have hlast : ∀ s : Str, s.rdropWhile Ws.fatSkip ≠ s → path.getLast? ≠ some s := by
    intro s hs heq
    exact hs (h s (List.mem_of_getLast? heq)).2.1
  unfold isDots
  rw [decide_eq_false (hlast _ (by decide)), decide_eq_false (hlast _ (by decide))]
  rfl

def Shallow (card : Card) : Prop :=
  ∀ it ∈ card, it.isDir = true → it.path.length < MTP_WALK_MAX_DEPTH

def Short (card : Card) : Prop := ∀ it ∈ card, (namedPath it.path).length < FS_PATH_MAX

instance (card : Card) : Decidable (Shallow card) :=
  inferInstanceAs (Decidable (∀ it ∈ card, it.isDir = true → it.path.length < MTP_WALK_MAX_DEPTH))

instance (card : Card) : Decidable (Short card) :=
  inferInstanceAs (Decidable (∀ it ∈ card, (namedPath it.path).length < FS_PATH_MAX))

theorem walk_eq {card : Card} (hw : WellFormed card) (hshort : Short card) {left : Nat}
    {dir : List Str} (hleft : 0 < left)
    (hdepth : ∀ it ∈ card, it.isDir = true → dir <+: it.path → it.path.length < dir.length + left) :
    fsWalkTreeRecursive fnv card left dir (handleFor fnv dir)
      = some ((enumerate Item.path (readdir card) left dir).map (entryOf fnv)) := by
  induction left generalizing dir with
  | zero => omega
  | succ left ih =>
    have hkid : ∀ it ∈ readdir card dir,
        (if isDots it.path || FS_PATH_MAX ≤ (namedPath it.path).length then some []
          else
            if it.isDir then
              (fsWalkTreeRecursive fnv card left it.path
                (walkEntry fnv (handleFor fnv dir) it).handle).map
                  (walkEntry fnv (handleFor fnv dir) it :: ·)
            else some [walkEntry fnv (handleFor fnv dir) it])
          = some ((it :: enumerate Item.path (readdir card) left it.path).map (entryOf fnv)) := by
      intro it hkid
      obtain ⟨hit, hdrop⟩ := (hw.lists.mem dir it).mp hkid
      have hne := hw.ne_nil it hit
      have hfits : ¬FS_PATH_MAX ≤ (namedPath it.path).length := Nat.not_le.mpr (hshort it hit)
      have hentry : walkEntry fnv (handleFor fnv dir) it = entryOf fnv it := by
        rw [entryOf, hdrop]
      have hlen : it.path.length = dir.length + 1 := by
        have hpos := List.length_pos_iff.mpr hne
        rw [← hdrop, List.length_dropLast]
        omega
      have hbelow : dir <+: it.path := hdrop ▸ List.dropLast_prefix _
      rw [isDots_of_names (hw.names it hit), decide_eq_false hfits, hentry]
      simp only [Bool.or_self, Bool.false_eq_true, if_false]
      cases hdir : it.isDir with
      | true =>
        have hroom := hdepth it hit hdir hbelow
        have hhandle : (entryOf fnv it).handle = handleFor fnv it.path := by
          rw [handleFor, if_neg hne]
          rfl
        rw [if_pos rfl, hhandle, ih (by omega)]
        · rfl
        · intro jt hjt hjdir hpre
          have := hdepth jt hjt hjdir (hbelow.trans hpre)
          omega
      | false =>
        have hnone : enumerate Item.path (readdir card) left it.path = [] := by
          cases left with
          | zero => rfl
          | succ left => rw [enumerate, hw.readdir_file hit hdir, List.flatMap_nil]
        rw [if_neg (by decide), hnone]
        rfl
    simp only [fsWalkTreeRecursive]
    rw [mapM_some_of hkid]
    simp only [enumerate, Option.bind_eq_bind, Option.bind_some, Option.some.injEq]
    rw [← List.flatMap_def, List.map_flatMap]

theorem length_path_le {card : Card} (hw : WellFormed card) (hshallow : Shallow card) {it : Item}
    (hit : it ∈ card) : it.path.length ≤ MTP_WALK_MAX_DEPTH := by
  by_cases htop : it.path.dropLast = []
  · have := congrArg List.length htop
    rw [List.length_dropLast, List.length_nil] at this
    unfold MTP_WALK_MAX_DEPTH
    omega
  · -- the folder it lies in is above the limit
    obtain ⟨d, hd, hdir, hpath⟩ := hw.parent it hit htop
    have := hshallow d hd hdir
    rw [hpath, List.length_dropLast] at this
    omega

theorem fsWalkTree_perm (fnv : Str → UInt32 → UInt32) {card : Card} (hw : WellFormed card) (hshort : Short card)
    (hshallow : Shallow card) :
    ∃ entries, fsWalkTree fnv card = some entries ∧ entries.Perm (card.map (entryOf fnv)) := by
  have heq : fsWalkTree fnv card
      = some ((enumerate Item.path (readdir card) MTP_WALK_MAX_DEPTH []).map (entryOf fnv)) :=
    walk_eq hw hshort (by decide) fun it hit hdir _ => by simpa using hshallow it hit hdir
  refine ⟨_, heq, ?_⟩
  apply List.Perm.map
  exact enumerate_perm hw.closed hw.lists fun _ hit => length_path_le hw hshallow hit

end Pi1MHz.Mtp
