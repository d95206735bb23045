import Pi1MHz.MtpVolume

/-!
# MTP: the table and the card over a run

The operations of `mtp_fs.c` that look at the object table or change the card, as steps of a state
machine, with the places where the table is dropped (`fs_cache_invalidate`).
-/

namespace Pi1MHz.Mtp

open Ws (Str namedPath lit)
open SortedTable

/-! ### The code -/

/-- `write_state_t` of a file whose temporary is on the card. -/
structure Upload where
  path : List Str
  size : Option UInt32
  stamp : Option Stamp
  transferred : UInt32
  failed : Bool
deriving DecidableEq, Repr

/-- `"%s.part"`. -/
def partName (path : List Str) : List Str :=
  path.dropLast ++ [path.getLast?.getD [] ++ lit ['.', 'p', 'a', 'r', 't']]

def Upload.tmp (u : Upload) : List Str := partName u.path

def Upload.full (u : Upload) : Bool := u.size.all (· = u.transferred)

structure State where
  card : Card
  cache : Option (List CacheEntry)
  session : Bool
  upload : Option Upload

structure ObjectInfo where
  parent : UInt32
  name : Str
  isDir : Bool
  size : Option UInt32
  stamp : Option Stamp

/-- The operations.  `busy` says that the Beeb uses one of the paths concerned. -/
inductive Op where
  | openSession
  | closeSession
  | lookup (handle : UInt32)
  | list (parent : UInt32)
  | delete (handle : UInt32) (busy : Bool)
  | move (handle : UInt32) (parent : UInt32) (busy : Bool)
  | rename (handle : UInt32) (name : Str) (busy : Bool)
  | sendObjectInfo (info : Option ObjectInfo) (busy : Bool)
  | data (count : UInt32) (fails : Bool)
  | complete (busy : Bool) (flushFails : Bool)
  | cancel

def fsNameIsSafe (name : Str) : Bool :=
  name ≠ [] && name ≠ [0x2E] && name ≠ [0x2E, 0x2E]
    && name.all fun c =>
      decide (0x20 ≤ c) && !Ws.isSep c && !(lit [':', '*', '?', '"', '<', '>', '|']).contains c

def kernelNow : Str := lit ['k', 'e', 'r', 'n', 'e', 'l', '.', 'n', 'o', 'w']

def rebootNow : Str := lit ['r', 'e', 'b', 'o', 'o', 't', '.', 'n', 'o', 'w']

namespace State

variable (fnv : Str → UInt32 → UInt32) (qsort : Sorter CacheEntry.key)

def fsCacheInvalidate (s : State) : State := { s with cache := none }

def fsCacheEnsure (fl : Faults) (s : State) : State :=
  match s.cache with
  | some _ => s
  | none => { s with cache := if fl.mount || fl.walk then none else fsCacheBuild fnv qsort s.card }

/-- `fs_get_entry_by_handle` once the table has been ensured. -/
def entry (s : State) (handle : UInt32) : Option CacheEntry :=
  s.cache.bind fun cache => fsGetEntryByHandle cache handle

/-- `fs_get_parent_path` once the table has been ensured. -/
def parentPath (s : State) (parent : UInt32) : Option (List Str) :=
  if parent = 0 ∨ parent = 0xFFFFFFFF then some []
  else ((s.entry parent).filter CacheEntry.isDir).map CacheEntry.path

def fsReleaseWriteState (fl : Faults) (s : State) : State :=
  match s.upload with
  | some u =>
    let card := fClose s.card u.tmp fl.flushed
    { s with card := (fUnlink fl card u.tmp).getD card, upload := none }
  | none => s

def fsRenameEntryTo (fl : Faults) (s : State) (e : CacheEntry) (parent : UInt32) (name : Str)
    (busy : Bool) : State :=
  match s.parentPath parent with
  | some dir =>
    let dst := dir ++ [name]
    if FS_PATH_MAX ≤ (namedPath dst).length ∨ dst = e.path ∨ busy = true then s
    else
      match fRename fl s.card e.path dst with
      | some card => { s with card := card }.fsCacheInvalidate
      | none => s
  | none => s

/-- `fs_delete_object` for an entry. -/
def fsDeleteEntry (fl : Faults) (s : State) (e : CacheEntry) : State :=
  if e.isDir then
    let r := fsDeleteTree fl MTP_DELETE_MAX_DEPTH s.card e.path
    if r.1 then { s with card := r.2 }.fsCacheInvalidate else { s with card := r.2 }
  else
    match fUnlink fl s.card e.path with
    | some card => { s with card := card }.fsCacheInvalidate
    | none => s

def makeFolder (fl : Faults) (s : State) (path : List Str) (stamp : Option Stamp) : State :=
  match fMkdir fl s.card path with
  | some card =>
    match stamp with
    | some stamp =>
      match fUtime fl card path stamp with
      | some card => { s with card := card }.fsCacheInvalidate
      | none => { s with card := card }
    | none => { s with card := card }.fsCacheInvalidate
  | none => s

def openTemp (fl : Faults) (s : State) (u : Upload) : State :=
  match fCreate fl s.card u.tmp with
  | some card => { s with card := card, upload := some u }.fsCacheInvalidate
  | none => s

/-- `fs_send_object_info` after the release, with a dataset that could be read.  A name of
`reboot.now` starts the machine again; `kernel.now` stays in memory. -/
def fsSendObjectInfo (fl : Faults) (s : State) (info : ObjectInfo) (busy : Bool) : State :=
  let s := if info.parent = 0 ∨ info.parent = 0xFFFFFFFF then s else s.fsCacheEnsure fnv qsort fl
  match s.parentPath info.parent with
  | some dir =>
    let path := dir ++ [info.name]
    if fsNameIsSafe info.name = false then s
    else if info.name = rebootNow then { card := s.card, cache := none, session := false, upload := none }
    else if info.name = kernelNow then s
    else if FS_PATH_MAX ≤ (namedPath path).length then s
    else if info.isDir then s.makeFolder fl path info.stamp
    else if busy then s
    else s.openTemp fl ⟨path, info.size, info.stamp, 0, false⟩
  | none => s

def fsSendObject (s : State) (count : UInt32) (fails : Bool) : State :=
  match s.upload with
  | some u =>
    if u.failed then s
    else if fails || u.size.any (· < u.transferred + count) then
      { s with upload := some { u with failed := true } }
    else { s with upload := some { u with transferred := u.transferred + count } }
  | none => s

def readied (fl : Faults) (s : State) (u : Upload) : Card :=
  let card := fClose s.card u.tmp u.transferred
  (fUnlink fl card u.path).getD card

def setTime (fl : Faults) (card : Card) (u : Upload) : Option Card :=
  match u.stamp with
  | some stamp => fUtime fl card u.path stamp
  | none => some card

/-- `tud_mtp_data_complete_cb` for SendObject. -/
def dataComplete (fl : Faults) (s : State) (busy flushFails : Bool) : State :=
  match s.upload with
  | some u =>
    if u.failed || flushFails || !u.full || busy then s.fsReleaseWriteState fl
    else
      match fRename fl (readied fl s u) u.tmp u.path with
      | none => { s with card := readied fl s u, upload := none }
      | some card =>
        match setTime fl card u with
        | none => { s with card := card, upload := none }
        | some card =>
          if fl.stat || (find card u.path).isNone then { s with card := card, upload := none }
          else { s with card := card, upload := none }.fsCacheInvalidate
  | none => s

def step (s : State) (op : Op) (fl : Faults) : State :=
  match op with
  | .openSession =>
    if s.session then s else { s with session := true }.fsCacheInvalidate.fsCacheEnsure fnv qsort fl
  | .closeSession =>
    if s.session then ({ s with session := false }.fsReleaseWriteState fl).fsCacheInvalidate else s
  | .lookup _ => s.fsCacheEnsure fnv qsort fl
  | .list _ => s.fsCacheEnsure fnv qsort fl
  | .delete handle busy =>
    if s.session then
      let s := s.fsCacheEnsure fnv qsort fl
      match s.entry handle with
      | some e => if busy then s else s.fsDeleteEntry fl e
      | none => s
    else s
  | .move handle parent busy =>
    if s.session then
      let s := s.fsCacheEnsure fnv qsort fl
      match s.entry handle with
      | some e => s.fsRenameEntryTo fl e parent (e.path.getLast?.getD []) busy
      | none => s
    else s
  | .rename handle name busy =>
    if s.session then
      let s := s.fsCacheEnsure fnv qsort fl
      match s.entry handle with
      | some e => if fsNameIsSafe name then s.fsRenameEntryTo fl e e.parent name busy else s
      | none => s
    else s
  | .sendObjectInfo info busy =>
    if s.session && !fl.mount then
      let s := s.fsReleaseWriteState fl
      match info with
      | some info => s.fsSendObjectInfo fnv qsort fl info busy
      | none => s
    else s
  | .data count fails => s.fsSendObject count fails
  | .complete busy flushFails => s.dataComplete fl busy flushFails
  | .cancel => s.fsReleaseWriteState fl

def run (s : State) : List (Op × Faults) → State
  | [] => s
  | (op, fl) :: ops => (step fnv qsort s op fl).run ops

end State

def start (card : Card) : State := ⟨card, none, false, none⟩

/-! ### When a step keeps the table true -/

section Condition

variable (fnv : Str → UInt32 → UInt32) (qsort : Sorter CacheEntry.key)

def Lookable (s : State) : Prop := s.cache = none → Repairable fnv s.card

def Removable (fl : Faults) (card : Card) (path : List Str) : Prop :=
  (∃ it ∈ card, it.path = path ∧ refused fl (firstRemoved card MTP_DELETE_MAX_DEPTH it) = true) ∨
    ∀ it ∈ card, path <+: it.path → refused fl it = false

def Finishes (fl : Faults) (s : State) (u : Upload) (busy flushFails : Bool) : Prop :=
  u.failed = false ∧ flushFails = false ∧ u.full = true ∧ busy = false ∧ fl.stat = false ∧
    ∃ card, fRename fl (s.readied fl u) u.tmp u.path = some card ∧
      ∃ card', State.setTime fl card u = some card' ∧ (find card' u.path).isSome = true

/-- No table is built from a card that it cannot show; and where an operation changes the card and
then fails, there is no table. -/
def Followed (s : State) (op : Op) (fl : Faults) : Prop :=
  match op with
  | .openSession => s.session = false → Repairable fnv s.card
  | .closeSession => True
  | .lookup _ => Lookable fnv s
  | .list _ => Lookable fnv s
  | .delete handle busy => s.session = true → Lookable fnv s ∧
      (busy = false → ∀ e, (s.fsCacheEnsure fnv qsort fl).entry handle = some e → e.isDir = true →
        Removable fl s.card e.path)
  | .move .. => s.session = true → Lookable fnv s
  | .rename .. => s.session = true → Lookable fnv s
  | .sendObjectInfo info _ => s.session = true → fl.mount = false →
      (s.upload ≠ none → s.cache = none) ∧
        ∀ i, info = some i →
          (i.parent ≠ 0 → i.parent ≠ 0xFFFFFFFF → Lookable fnv (s.fsReleaseWriteState fl)) ∧
            (i.isDir = true → i.stamp ≠ none → fl.utime = false)
  | .data .. => True
  | .complete busy flushFails => ∀ u, s.upload = some u → s.cache ≠ none →
      Finishes fl s u busy flushFails
  | .cancel => s.upload ≠ none → s.cache = none

def AllFollowed (s : State) : List (Op × Faults) → Prop
  | [] => True
  | (op, fl) :: ops => Followed fnv qsort s op fl ∧ AllFollowed (s.step fnv qsort op fl) ops

end Condition

/-! ### The invariant -/

variable {fnv : Str → UInt32 → UInt32} {qsort : Sorter CacheEntry.key} {s : State} {fl : Faults}

structure Inv (fnv : Str → UInt32 → UInt32) (qsort : Sorter CacheEntry.key) (s : State) : Prop where
  wf : WellFormed s.card
  valid : ∀ cache, s.cache = some cache →
    fsCacheBuild fnv qsort s.card = some cache ∧ Repairable fnv s.card

theorem inv_of_none (hw : WellFormed s.card) (h : s.cache = none) : Inv fnv qsort s where
  wf := hw
  valid cache hc := by
    rw [h] at hc
    cases hc

theorem Inv.congr (h : Inv fnv qsort s) {s' : State} (hcard : s'.card = s.card)
    (hcache : s'.cache = s.cache) : Inv fnv qsort s' where
  wf := hcard ▸ h.wf
  valid cache hc := by
    rw [hcard]
    exact h.valid cache (hcache ▸ hc)

theorem fsCacheEnsure_card (s : State) : (s.fsCacheEnsure fnv qsort fl).card = s.card := by
  unfold State.fsCacheEnsure
  split
  · rfl
  · rfl

theorem Inv.ensure (h : Inv fnv qsort s) (hl : Lookable fnv s) :
    Inv fnv qsort (s.fsCacheEnsure fnv qsort fl) := by
  refine ⟨(fsCacheEnsure_card s).symm ▸ h.wf, ?_⟩
  intro cache hc
  rw [fsCacheEnsure_card]
  unfold State.fsCacheEnsure at hc
  split at hc
  · exact h.valid cache hc
  · next hnone =>
    simp only at hc
    split at hc
    · cases hc
    · exact ⟨hc, hl hnone⟩

theorem Inv.item_of_entry (h : Inv fnv qsort s) {handle : UInt32} {e : CacheEntry}
    (he : s.entry handle = some e) :
    Repairable fnv s.card ∧ ∃ it ∈ s.card, it.path = e.path ∧ it.isDir = e.isDir := by
  obtain ⟨cache, hcache, hget⟩ := Option.bind_eq_some_iff.mp he
  obtain ⟨hbuild, hr⟩ := h.valid cache hcache
  obtain ⟨cache', hbuild', htable⟩ := table_of_build qsort h.wf hr
  obtain rfl : cache = cache' := Option.some.inj (hbuild.symm.trans hbuild')
  have hmem : e ∈ cache := by
    unfold fsGetEntryByHandle at hget
    split at hget
    · cases hget
    · exact (bsearch_some hget).1
  obtain ⟨it, hit, hfact⟩ :=
    List.mem_map.mp (htable.reflects.subset (List.mem_map_of_mem hmem))
  exact ⟨hr, it, hit, congrArg Fact.path hfact, congrArg Fact.isDir hfact⟩

theorem fUnlink_getD_wf {card : Card} (hw : WellFormed card) (p : List Str) :
    WellFormed ((fUnlink fl card p).getD card) := by
  cases h : fUnlink fl card p with
  | none => exact hw
  | some card' => exact fUnlink_wf hw h

theorem Inv.release (h : Inv fnv qsort s) (hc : s.upload ≠ none → s.cache = none) :
    Inv fnv qsort (s.fsReleaseWriteState fl) := by
  unfold State.fsReleaseWriteState
  split
  · next u hu =>
    apply inv_of_none
    · exact fUnlink_getD_wf (fClose_wf h.wf _ _) _
    · exact hc (by rw [hu]; nofun)
  · exact h

theorem fsReleaseWriteState_wf (hw : WellFormed s.card) :
    WellFormed (s.fsReleaseWriteState fl).card := by
  unfold State.fsReleaseWriteState
  split
  · exact fUnlink_getD_wf (fClose_wf hw _ _) _
  · exact hw

theorem Inv.renameEntry (h : Inv fnv qsort s) (e : CacheEntry) (parent : UInt32) (name : Str)
    (busy : Bool) : Inv fnv qsort (s.fsRenameEntryTo fl e parent name busy) := by
  unfold State.fsRenameEntryTo
  split
  · simp only
    split
    · exact h
    · split
      · next hren => exact inv_of_none (fRename_wf h.wf hren) rfl
      · exact h
  · exact h

theorem Inv.deleteEntry (h : Inv fnv qsort s) {handle : UInt32} {e : CacheEntry}
    (he : s.entry handle = some e) (hr : e.isDir = true → Removable fl s.card e.path) :
    Inv fnv qsort (s.fsDeleteEntry fl e) := by
  obtain ⟨hrep, it, hit, hpath, hdir⟩ := h.item_of_entry he
  unfold State.fsDeleteEntry
  split
  · next hedir =>
    rcases hr hedir with ⟨jt, hjt, hjpath, hfirst⟩ | hall
    · have hsame := fsDeleteTree_first h.wf hjt hfirst
      rw [hjpath] at hsame
      simp only [hsame, Bool.false_eq_true, if_false]
      exact h.congr rfl rfl
    · have hgone : fsDeleteTree fl MTP_DELETE_MAX_DEPTH s.card it.path
          = (true, s.card.filter fun x => ¬it.path <+: x.path) :=
        fsDeleteTree_all h.wf hrep.short hit (hdir.trans hedir) (by decide)
          (fun x hx hxdir _ => (hrep.shallow x hx hxdir).trans_le (Nat.le_add_left _ _))
          (fun x hx hpre => hall x hx (hpath ▸ hpre))
      rw [hpath] at hgone
      simp only [hgone, if_true]
      exact inv_of_none (h.wf.remove e.path) rfl
  · split
    · next hun => exact inv_of_none (fUnlink_wf h.wf hun) rfl
    · exact h

theorem Inv.makeFolder (h : Inv fnv qsort s) (path : List Str) (stamp : Option Stamp)
    (hu : stamp ≠ none → fl.utime = false) : Inv fnv qsort (s.makeFolder fl path stamp) := by
  unfold State.makeFolder
  split
  · next card hmk =>
    have hwf := fMkdir_wf h.wf hmk
    split
    · next st =>
      split
      · next hut => exact inv_of_none (fUtime_wf hwf hut) rfl
      · next hut =>
        -- the folder is there, so its time can be set
        have hfound := find_fMkdir hmk
        rw [fUtime, hu nofun, if_neg (by decide), Option.map_eq_none_iff] at hut
        rw [hut] at hfound
        cases hfound
    · exact inv_of_none hwf rfl
  · exact h

theorem Inv.openTemp (h : Inv fnv qsort s) (u : Upload) : Inv fnv qsort (s.openTemp fl u) := by
  unfold State.openTemp
  split
  · next hcr => exact inv_of_none (fCreate_wf h.wf hcr) rfl
  · exact h

theorem Inv.sendObjectInfo (h : Inv fnv qsort s) (info : ObjectInfo) (busy : Bool)
    (hl : info.parent ≠ 0 → info.parent ≠ 0xFFFFFFFF → Lookable fnv s)
    (hu : info.isDir = true → info.stamp ≠ none → fl.utime = false) :
    Inv fnv qsort (s.fsSendObjectInfo fnv qsort fl info busy) := by
  unfold State.fsSendObjectInfo
  have hs : Inv fnv qsort (if info.parent = 0 ∨ info.parent = 0xFFFFFFFF then s
      else s.fsCacheEnsure fnv qsort fl) := by
    split
    · exact h
    · next hp =>
      obtain ⟨h0, hf⟩ := not_or.mp hp
      exact h.ensure (hl h0 hf)
  generalize (if info.parent = 0 ∨ info.parent = 0xFFFFFFFF then s
    else s.fsCacheEnsure fnv qsort fl) = s' at hs
  simp only
  split
  · next dir hdir =>
    by_cases hsafe : fsNameIsSafe info.name = false
    · rw [if_pos hsafe]
      exact hs
    rw [if_neg hsafe]
    by_cases hreboot : info.name = rebootNow
    · rw [if_pos hreboot]
      exact inv_of_none hs.wf rfl
    rw [if_neg hreboot]
    by_cases hkernel : info.name = kernelNow
    · rw [if_pos hkernel]
      exact hs
    rw [if_neg hkernel]
    by_cases hlong : FS_PATH_MAX ≤ (namedPath (dir ++ [info.name])).length
    · rw [if_pos hlong]
      exact hs
    rw [if_neg hlong]
    split
    · next hisdir => exact hs.makeFolder _ _ (hu hisdir)
    · split
      · exact hs
      · exact hs.openTemp _
  · exact hs

theorem setTime_wf {card card' : Card} (hw : WellFormed card) {u : Upload}
    (h : State.setTime fl card u = some card') : WellFormed card' := by
  unfold State.setTime at h
  split at h
  · exact fUtime_wf hw h
  · exact Option.some.inj h ▸ hw

theorem Inv.dataComplete (h : Inv fnv qsort s) (busy flushFails : Bool)
    (hf : ∀ u, s.upload = some u → s.cache ≠ none → Finishes fl s u busy flushFails) :
    Inv fnv qsort (s.dataComplete fl busy flushFails) := by
  unfold State.dataComplete
  split
  · next u hu =>
    by_cases hcache : s.cache = none
    · -- no table, so nothing can be stale
      have hready : WellFormed (s.readied fl u) := fUnlink_getD_wf (fClose_wf h.wf _ _) _
      split
      · exact h.release fun _ => hcache
      · split
        · exact inv_of_none hready hcache
        · next hren =>
          have hwf := fRename_wf hready hren
          split
          · exact inv_of_none hwf hcache
          · next hset =>
            have hwf' := setTime_wf hwf hset
            split
            · exact inv_of_none hwf' hcache
            · exact inv_of_none hwf' rfl
    · obtain ⟨hfail, hflush, hfull, hbusy, hstat, card, hren, card', hset, hfind⟩ := hf u hu hcache
      have hready : WellFormed (s.readied fl u) := fUnlink_getD_wf (fClose_wf h.wf _ _) _
      have hwf := setTime_wf (fRename_wf hready hren) hset
      have hsome : (find card' u.path).isNone = false := by
        rw [Option.isNone_eq_false_iff]
        exact hfind
      rw [if_neg (by simp [hfail, hflush, hfull, hbusy]), hren]
      simp only [hset, hstat, hsome, Bool.or_self, Bool.false_eq_true, if_false]
      exact inv_of_none hwf rfl
  · exact h

theorem Inv.step (h : Inv fnv qsort s) (op : Op) (hop : Followed fnv qsort s op fl) :
    Inv fnv qsort (s.step fnv qsort op fl) := by
  cases op with
  | openSession =>
    simp only [State.step]
    split
    · exact h
    · next hs =>
      have hbase : Inv fnv qsort ({ s with session := true } : State).fsCacheInvalidate :=
        inv_of_none h.wf rfl
      exact hbase.ensure fun _ => hop (Bool.eq_false_iff.mpr hs)
  | closeSession =>
    simp only [State.step]
    split
    · exact inv_of_none (fsReleaseWriteState_wf h.wf) rfl
    · exact h
  | lookup handle => exact h.ensure hop
  | list parent => exact h.ensure hop
  | delete handle busy =>
    simp only [State.step]
    split
    · next hs =>
      obtain ⟨hl, hrem⟩ := hop hs
      have hens : Inv fnv qsort (s.fsCacheEnsure fnv qsort fl) := h.ensure hl
      split
      · next e he =>
        split
        · exact hens
        · next hb =>
          apply hens.deleteEntry he
          rw [fsCacheEnsure_card]
          exact hrem (Bool.eq_false_iff.mpr hb) e he
      · exact hens
    · exact h
  | move handle parent busy =>
    simp only [State.step]
    split
    · next hs =>
      have hens : Inv fnv qsort (s.fsCacheEnsure fnv qsort fl) := h.ensure (hop hs)
      split
      · exact hens.renameEntry _ _ _ _
      · exact hens
    · exact h
  | rename handle name busy =>
    simp only [State.step]
    split
    · next hs =>
      have hens : Inv fnv qsort (s.fsCacheEnsure fnv qsort fl) := h.ensure (hop hs)
      split
      · split
        · exact hens.renameEntry _ _ _ _
        · exact hens
      · exact hens
    · exact h
  | sendObjectInfo info busy =>
    simp only [State.step]
    split
    · next hs =>
      simp only [Bool.and_eq_true, Bool.not_eq_true'] at hs
      obtain ⟨hrel, hinfo⟩ := hop hs.1 hs.2
      have hrel : Inv fnv qsort (s.fsReleaseWriteState fl) := h.release hrel
      split
      · next i => exact hrel.sendObjectInfo i busy (hinfo i rfl).1 (hinfo i rfl).2
      · exact hrel
    · exact h
  | data count fails =>
    simp only [State.step, State.fsSendObject]
    split
    · split
      · exact h
      · split
        · exact h.congr rfl rfl
        · exact h.congr rfl rfl
    · exact h
  | complete busy flushFails => exact h.dataComplete busy flushFails hop
  | cancel => exact h.release hop

theorem Inv.run (h : Inv fnv qsort s) (ops : List (Op × Faults)) (hops : AllFollowed fnv qsort s ops) :
    Inv fnv qsort (s.run fnv qsort ops) := by
  induction ops generalizing s with
  | nil => exact h
  | cons op ops ih => exact ih (h.step op.1 hops.1) hops.2

theorem Inv.table (h : Inv fnv qsort s) {cache : List CacheEntry} (hc : s.cache = some cache) :
    Table s.card cache := by
  obtain ⟨hbuild, hr⟩ := h.valid cache hc
  obtain ⟨cache', hbuild', htable⟩ := table_of_build qsort h.wf hr
  obtain rfl : cache = cache' := Option.some.inj (hbuild.symm.trans hbuild')
  exact htable

/-- Whatever the hashes of the paths are: in a run in which no table is built from a card that it
cannot show, and no operation changes the card and then fails beside a table, every valid table is
sound and shows the card; and so does the table that the next lookup uses. -/
theorem mtp_table_sound (fnv : Str → UInt32 → UInt32) (qsort : Sorter CacheEntry.key) (card : Card)
    (hw : WellFormed card) (ops : List (Op × Faults))
    (hops : AllFollowed fnv qsort (start card) ops) :
    (∀ cache, ((start card).run fnv qsort ops).cache = some cache →
      Table ((start card).run fnv qsort ops).card cache) ∧
    (∀ fl : Faults, fl.mount = false → fl.walk = false →
      Lookable fnv ((start card).run fnv qsort ops) →
        ∃ cache, (((start card).run fnv qsort ops).fsCacheEnsure fnv qsort fl).cache = some cache ∧
          Table ((start card).run fnv qsort ops).card cache) := by
  have hinv : Inv fnv qsort ((start card).run fnv qsort ops) :=
    Inv.run (inv_of_none hw rfl) ops hops
  generalize (start card).run fnv qsort ops = s at hinv
  refine ⟨fun cache hc => hinv.table hc, ?_⟩
  intro fl hmount hwalk hl
  have hens : Inv fnv qsort (s.fsCacheEnsure fnv qsort fl) := hinv.ensure hl
  have hsome : ∃ cache, (s.fsCacheEnsure fnv qsort fl).cache = some cache := by
    cases hcache : s.cache with
    | some cache => exact ⟨cache, by simp [State.fsCacheEnsure, hcache]⟩
    | none =>
      obtain ⟨cache, hbuild, -⟩ := table_of_build qsort hinv.wf (hl hcache)
      exact ⟨cache, by simp [State.fsCacheEnsure, hcache, hmount, hwalk, hbuild]⟩
  obtain ⟨cache, hc⟩ := hsome
  refine ⟨cache, hc, ?_⟩
  rw [← fsCacheEnsure_card s]
  exact hens.table hc

/-! ### A folder that cannot be removed in full -/

theorem repairable_of_distinct {card : Card} (hw : WellFormed card) (hshallow : Shallow card)
    (hshort : Short card) (hlen : card.length ≤ 256)
    (hnodup : (card.map fun it => fsHandleFromPath fnv it.path).Nodup) : Repairable fnv card := by
  have hnone : ∀ it ∈ card, ¬Colliding fnv card it.path := by
    rintro it hit ⟨jt, hjt, hne, heq⟩
    exact hne (congrArg Item.path (List.inj_on_of_nodup_map hnodup hjt hit heq))
  constructor
  · exact hshallow
  · exact hshort
  · intro dir
    have := List.length_filter_le (fun it : Item => it.path ≠ [] ∧ it.path.dropLast = dir) card
    unfold readdir MAX_HANDLES
    omega
  · exact fun h => List.countP_le_length.trans hlen
  · intro it hit hne
    obtain ⟨d, hd, -, hpath⟩ := hw.parent it hit hne
    rw [← hpath]
    exact hnone d hd
  · exact fun it hit hcol => absurd hcol (hnone it hit)
  · exact fun it hit hcol => absurd hcol (hnone it hit)

def noFaults : Faults := ⟨false, false, fun _ => false, false, false, false, false, false, 0⟩

def file (path : List Str) (readOnly : Bool) : Item := ⟨path, false, 0, 0x5C44, 0, readOnly⟩

def folder (path : List Str) : Item := ⟨path, true, 0, 0x5C44, 0, false⟩

def folderCard (readOnly : Bool) : Card :=
  [folder [lit ['D']], file [lit ['D'], lit ['A']] false, file [lit ['D'], lit ['B']] readOnly]

def deleteFolder : List (Op × Faults) :=
  [(.openSession, noFaults), (.delete (fsHandleFromPath fnv1a [lit ['D']]) false, noFaults)]

def deleteFile : List (Op × Faults) :=
  [(.openSession, noFaults), (.delete (fsHandleFromPath fnv1a [lit ['D'], lit ['A']]) false, noFaults)]

def fileB : Item := file [lit ['D'], lit ['B']] false

def insertion : Sorter CacheEntry.key := Sorter.insertion CacheEntry.key

theorem wellFormed_folderCard (readOnly : Bool) : WellFormed (folderCard readOnly) where
  distinct := by cases readOnly <;> decide
  ne_nil := by cases readOnly <;> decide
  parent := by cases readOnly <;> decide
  names it hit n hn := by
    have hall : ∀ it ∈ folderCard readOnly, ∀ n ∈ it.path,
        storable n = true ∧ n.rdropWhile Ws.fatSkip = n := by
      cases readOnly <;> decide
    obtain ⟨hst, hsame⟩ := hall it hit n hn
    exact hsame ▸ nameOk_stored hst

theorem shallow_folderCard (readOnly : Bool) : Shallow (folderCard readOnly) := by
  cases readOnly <;> decide

theorem repairable_folderCard (readOnly : Bool) : Repairable fnv1a (folderCard readOnly) := by
  apply repairable_of_distinct (wellFormed_folderCard readOnly) (shallow_folderCard readOnly)
  · cases readOnly <;> decide
  · cases readOnly <;> decide
  · cases readOnly <;> decide +kernel

/-- A file is deleted from a folder with two: the next table lists the folder and the other file. -/
theorem mtp_table_sound_deleted :
    ((start (folderCard false)).run fnv1a insertion deleteFile).card = [folder [lit ['D']], fileB] ∧
      ∃ cache, (((start (folderCard false)).run fnv1a insertion deleteFile).fsCacheEnsure
        fnv1a insertion noFaults).cache = some cache ∧ Table [folder [lit ['D']], fileB] cache := by
  have hcard : ((start (folderCard false)).step fnv1a insertion .openSession noFaults).card
      = folderCard false := by decide +kernel
  have hcache : ((start (folderCard false)).step fnv1a insertion .openSession noFaults).cache
      ≠ none := by decide +kernel
  have hall : AllFollowed fnv1a insertion (start (folderCard false)) deleteFile := by
    refine ⟨fun _ => repairable_folderCard false, ?_, trivial⟩
    intro _
    refine ⟨fun h => absurd h hcache, ?_⟩
    intro _ e _ _
    right
    rw [hcard]
    intro it hit _
    have : ∀ it ∈ folderCard false, refused noFaults it = false := by decide
    exact this it hit
  have hend : ((start (folderCard false)).run fnv1a insertion deleteFile).card =
      [folder [lit ['D']], fileB] := by
    decide +kernel
  have hw := (Inv.run (inv_of_none (wellFormed_folderCard false) rfl) _ hall).wf
  refine ⟨hend, ?_⟩
  have hsound := (mtp_table_sound fnv1a insertion (folderCard false) (wellFormed_folderCard false)
    deleteFile hall).2 noFaults rfl rfl
  rw [hend] at hsound hw
  apply hsound
  intro _
  rw [hend]
  apply repairable_of_distinct hw
  all_goals decide +kernel

/-- The second file is read-only: the first is removed, the deletion fails, and the table goes on
listing what is gone. -/
theorem deleted_file_still_listed :
    ¬∀ (fnv : Str → UInt32 → UInt32) (qsort : Sorter CacheEntry.key) (card : Card),
      WellFormed card → Shallow card → ∀ ops cache,
        ((start card).run fnv qsort ops).cache = some cache →
          Table ((start card).run fnv qsort ops).card cache := by
  intro hclaim
  have hlen : (((start (folderCard true)).run fnv1a insertion deleteFolder).cache.map List.length)
      = some 3 := by decide +kernel
  have hcard : ((start (folderCard true)).run fnv1a insertion deleteFolder).card.length = 2 := by
    decide +kernel
  obtain ⟨cache, hcache, hthree⟩ := Option.map_eq_some_iff.mp hlen
  have htable := hclaim fnv1a insertion (folderCard true) (wellFormed_folderCard true)
    (shallow_folderCard true) deleteFolder cache hcache
  have := htable.reflects.length_eq
  rw [List.length_map, List.length_map, hthree, hcard] at this
  cases this

end Pi1MHz.Mtp
