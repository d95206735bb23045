import Pi1MHz.MtpCache

/-!
# MTP: the handles of the table

What the repair of shared handles achieves.  The entries keep everything but their handle; a handle
is the hash of the path, or, where another path has that hash too, the hash under one of the eight
other seeds.
-/

namespace Pi1MHz.Mtp

open Ws (Str namedPath)
open PathTree SortedTable

variable {fnv : Str → UInt32 → UInt32} {card : Card}

def Colliding (fnv : Str → UInt32 → UInt32) (card : Card) (p : List Str) : Prop :=
  ∃ it ∈ card, it.path ≠ p ∧ fsHandleFromPath fnv it.path = fsHandleFromPath fnv p

/-- The cards whose table comes out sound: every folder is above the limit of the walk, every path
fits, no folder has more entries than one answer holds; at most 256 paths share a hash and none of
these is a folder with something in it; and what the repair gives to such a path is no hash of
another, nor given to another. -/
structure Repairable (fnv : Str → UInt32 → UInt32) (card : Card) : Prop where
  shallow : Shallow card
  short : Short card
  narrow : ∀ dir, (readdir card dir).length ≤ MAX_HANDLES
  few : ∀ h, (card.countP fun it => fsHandleFromPath fnv it.path = h) ≤ 256
  leaves : ∀ it ∈ card, it.path.dropLast ≠ [] → ¬Colliding fnv card it.path.dropLast
  fresh : ∀ it ∈ card, Colliding fnv card it.path → ∀ a ∈ repairAttempts,
    ∀ jt ∈ card, rehash fnv a it.path ≠ fsHandleFromPath fnv jt.path
  apart : ∀ it ∈ card, Colliding fnv card it.path → ∀ jt ∈ card, Colliding fnv card jt.path →
    ∀ a ∈ repairAttempts, ∀ b ∈ repairAttempts,
      rehash fnv a it.path = rehash fnv b jt.path → it.path = jt.path

/-! ### What the repair keeps -/

def CacheEntry.bare (e : CacheEntry) : CacheEntry := { e with handle := 0 }

structure Assigned (fnv : Str → UInt32 → UInt32) (card : Card) (l : List CacheEntry) : Prop where
  bare : (l.map CacheEntry.bare).Perm ((card.map (entryOf fnv)).map CacheEntry.bare)
  handle : ∀ e ∈ l, e.handle = fsHandleFromPath fnv e.path ∨
    Colliding fnv card e.path ∧ ∃ a ∈ repairAttempts, e.handle = rehash fnv a e.path

namespace Assigned

variable {l : List CacheEntry}

theorem perm {l' : List CacheEntry} (h : Assigned fnv card l) (hp : l'.Perm l) :
    Assigned fnv card l' where
  bare := (hp.map _).trans h.bare
  handle e he := h.handle e (hp.subset he)

theorem item (h : Assigned fnv card l) {e : CacheEntry} (he : e ∈ l) :
    ∃ it ∈ card, e.bare = (entryOf fnv it).bare ∧ e.path = it.path := by
  have hmem := h.bare.subset (List.mem_map_of_mem he)
  simp only [List.map_map, List.mem_map, Function.comp_apply] at hmem
  obtain ⟨it, hit, heq⟩ := hmem
  exact ⟨it, hit, heq.symm, congrArg CacheEntry.path heq.symm⟩

theorem entry (h : Assigned fnv card l) {it : Item} (hit : it ∈ card) :
    ∃ e ∈ l, e.bare = (entryOf fnv it).bare ∧ e.path = it.path := by
  have hmem := h.bare.symm.subset (List.mem_map_of_mem (List.mem_map_of_mem hit))
  obtain ⟨e, he, heq⟩ := List.mem_map.mp hmem
  exact ⟨e, he, heq, congrArg CacheEntry.path heq⟩

theorem paths (h : Assigned fnv card l) : (l.map CacheEntry.path).Perm (card.map Item.path) := by
  have := h.bare.map CacheEntry.path
  rw [List.map_map, List.map_map, List.map_map] at this
  exact this

theorem nodup (h : Assigned fnv card l) (hw : WellFormed card) : (l.map CacheEntry.path).Nodup :=
  h.paths.nodup_iff.mpr hw.nodup

theorem inj (h : Assigned fnv card l) (hw : WellFormed card) {a b : CacheEntry} (ha : a ∈ l)
    (hb : b ∈ l) (heq : a.path = b.path) : a = b :=
  List.inj_on_of_nodup_map (h.nodup hw) ha hb heq

variable (hr : Repairable fnv card)

include hr

theorem path_of_rehash (h : Assigned fnv card l) {e : CacheEntry} (he : e ∈ l) {it : Item}
    (hit : it ∈ card) (hcol : Colliding fnv card it.path) {a : UInt32} (ha : a ∈ repairAttempts)
    (heq : e.handle = rehash fnv a it.path) : e.path = it.path := by
  obtain ⟨jt, hjt, -, hpath⟩ := h.item he
  rcases h.handle e he with hprim | ⟨hcol', b, hb, hre⟩
  · rw [hprim, hpath] at heq
    exact absurd heq.symm (hr.fresh it hit hcol a ha jt hjt)
  · rw [hre, hpath] at heq
    rw [hpath] at hcol' ⊢
    exact hr.apart jt hjt hcol' it hit hcol b hb a ha heq

theorem shared (h : Assigned fnv card l) {a b : CacheEntry} (ha : a ∈ l) (hb : b ∈ l)
    (hne : a.path ≠ b.path) (heq : a.handle = b.handle) :
    Colliding fnv card b.path ∧ b.handle = fsHandleFromPath fnv b.path := by
  obtain ⟨it, hit, -, hita⟩ := h.item ha
  obtain ⟨jt, hjt, -, hjtb⟩ := h.item hb
  rcases h.handle b hb with hprim | ⟨hcol, s, hs, hre⟩
  · rcases h.handle a ha with hprima | ⟨hcol, s, hs, hre⟩
    · refine ⟨⟨it, hit, hita ▸ hne, ?_⟩, hprim⟩
      rw [← hita, ← hprima, heq, hprim]
    · have := h.path_of_rehash hr hb hit (hita ▸ hcol) hs (by rw [← heq, hre, hita])
      exact absurd (hita.trans this.symm) hne
  · have := h.path_of_rehash hr ha hjt (hjtb ▸ hcol) hs (by rw [heq, hre, hjtb])
    exact absurd (this.trans hjtb.symm) hne

theorem separable (h : Assigned fnv card l) (hw : WellFormed card)
    (hsorted : l.Pairwise fun a b => a.key ≤ b.key) {s : UInt32} (hs : s ∈ repairAttempts) :
    Separable CacheEntry.key (fun _ e => { e with handle := rehash fnv s e.path })
      (fun e => Colliding fnv card e.path ∧ e.handle = fsHandleFromPath fnv e.path) l where
  sorted := hsorted
  pairs := by
    have hpaths : l.Pairwise fun a b => a.path ≠ b.path := List.pairwise_map.mp (h.nodup hw)
    apply hpaths.imp_of_mem
    intro a b ha hb hne heq
    exact h.shared hr ha hb hne (CacheEntry.key_inj.mp heq)
  fresh a ha hC _ b hb heq := by
    have hhandle : rehash fnv s a.path = b.handle := UInt32.toNat_inj.mp heq
    obtain ⟨it, hit, -, hpath⟩ := h.item ha
    rw [hpath] at hC hhandle
    have hb' := h.path_of_rehash hr hb hit hC.1 hs hhandle.symm
    -- the entry itself has the hash of its path, which the repair gives to none
    obtain rfl := h.inj hw ha hb (hpath.trans hb'.symm)
    rw [hC.2] at hhandle
    exact hr.fresh it hit hC.1 s hs it hit hhandle

theorem attempt (h : Assigned fnv card l) (hw : WellFormed card)
    (hsorted : l.Pairwise fun a b => a.key ≤ b.key) {s : UInt32} (hs : s ∈ repairAttempts) :
    Assigned fnv card (repairAttempt fnv s l).1 := by
  constructor
  · rw [repairAttempt, map_separate]
    · exact h.bare
    · exact fun _ _ => rfl
  · intro e' he'
    rcases mem_separate (h.separable hr hw hsorted hs) he' with he | ⟨e, -, hC, -, rfl⟩
    · exact h.handle e' he
    · exact Or.inr ⟨hC.1, s, hs, rfl⟩

theorem keyCount_rehash (h : Assigned fnv card l) (hw : WellFormed card) {it : Item}
    (hit : it ∈ card) (hcol : Colliding fnv card it.path) {a : UInt32} (ha : a ∈ repairAttempts) :
    keyCount CacheEntry.key (rehash fnv a it.path).toNat l ≤ 1 := by
  calc keyCount CacheEntry.key (rehash fnv a it.path).toNat l
      ≤ l.countP fun e => e.path = it.path := by
        apply List.countP_mono_left
        intro e he hkey
        simp only [decide_eq_true_eq] at hkey ⊢
        exact h.path_of_rehash hr he hit hcol ha (UInt32.toNat_inj.mp hkey)
    _ = (l.map CacheEntry.path).count it.path := by
        rw [List.count, List.countP_map]
        apply List.countP_congr
        intro e _
        simp
    _ ≤ 1 := List.nodup_iff_count_le_one.mp (h.nodup hw) it.path

theorem keyCount_attempt (h : Assigned fnv card l) (hw : WellFormed card)
    (hsorted : l.Pairwise fun a b => a.key ≤ b.key) {s : UInt32} (hs : s ∈ repairAttempts)
    {bound : Nat} (hpos : 0 < bound) (hbound : ∀ k, keyCount CacheEntry.key k l ≤ 2 * bound) (k : Nat) :
    keyCount CacheEntry.key k (repairAttempt fnv s l).1 ≤ bound := by
  by_cases hk : ∃ it ∈ card, Colliding fnv card it.path ∧ (rehash fnv s it.path).toNat = k
  · obtain ⟨it, hit, hcol, rfl⟩ := hk
    exact ((h.attempt hr hw hsorted hs).keyCount_rehash hr hw hit hcol hs).trans hpos
  · have := keyCount_separate_le (k := k) (h.separable hr hw hsorted hs) (by
      intro e he hC _ heq
      obtain ⟨it, hit, -, hpath⟩ := h.item he
      exact hk ⟨it, hit, hpath ▸ hC.1, hpath ▸ heq⟩)
    have := hbound k
    simp only [repairAttempt]
    omega

end Assigned

/-! ### The whole repair -/

structure Repaired (fnv : Str → UInt32 → UInt32) (card : Card) (l : List CacheEntry) : Prop where
  assigned : Assigned fnv card l
  strict : l.Pairwise fun a b => a.key < b.key

variable {qsort : Sorter CacheEntry.key}

theorem repairFrom_repaired (hw : WellFormed card) (hr : Repairable fnv card)
    {attempts : List UInt32} (hsub : ∀ s ∈ attempts, s ∈ repairAttempts) {l : List CacheEntry}
    (h : Assigned fnv card l) (hsorted : l.Pairwise fun a b => a.key ≤ b.key)
    (hbound : ∀ k, keyCount CacheEntry.key k l ≤ 2 ^ attempts.length) :
    Repaired fnv card (repairFrom fnv qsort attempts l) := by
  induction attempts generalizing l with
  | nil =>
    have hstrict := strict_of_keyCount hsorted hbound
    have hsame : repairSynthetic l = l := by
      rw [repairSynthetic, separate_of_strict hstrict]
    rw [repairFrom, hsame]
    constructor
    · exact h.perm (qsort.perm l)
    · apply strict_of_keyCount (qsort.sorted l)
      intro k
      rw [keyCount_perm (qsort.perm l)]
      exact hbound k
  | cons s attempts ih =>
    have hs := hsub s List.mem_cons_self
    simp only [repairFrom]
    split
    · apply ih fun a ha => hsub a (List.mem_cons_of_mem s ha)
      · exact (h.attempt hr hw hsorted hs).perm (qsort.perm _)
      · exact qsort.sorted _
      · intro k
        rw [keyCount_perm (qsort.perm _)]
        apply h.keyCount_attempt hr hw hsorted hs (Nat.two_pow_pos _)
        intro k
        have := hbound k
        rw [List.length_cons, Nat.pow_succ] at this
        omega
    · next hquiet => exact ⟨h, (separate_quiet (Bool.eq_false_iff.mpr hquiet) hsorted).2⟩

theorem assigned_entries {entries : List CacheEntry}
    (h : entries.Perm (card.map (entryOf fnv))) : Assigned fnv card entries where
  bare := h.map _
  handle e he := by
    obtain ⟨it, -, rfl⟩ := List.mem_map.mp (h.subset he)
    exact Or.inl rfl

theorem fsCacheBuild_repaired (qsort : Sorter CacheEntry.key) (hw : WellFormed card) (hr : Repairable fnv card) :
    ∃ cache, fsCacheBuild fnv qsort card = some cache ∧ Repaired fnv card cache := by
  obtain ⟨entries, hwalk, hperm⟩ := fsWalkTree_perm fnv hw hr.short hr.shallow
  have hassigned := assigned_entries hperm
  simp only [fsCacheBuild, hwalk, Option.map_some]
  refine ⟨_, rfl, ?_⟩
  split
  · apply repairFrom_repaired hw hr (fun _ hs => hs) (hassigned.perm (qsort.perm entries))
      (qsort.sorted entries)
    intro k
    rw [keyCount_perm ((qsort.perm entries).trans hperm), keyCount, List.countP_map]
    by_cases hk : ∃ h : UInt32, h.toNat = k
    · obtain ⟨h, rfl⟩ := hk
      apply (List.countP_mono_left _).trans (hr.few h)
      intro it _ heq
      simp only [Function.comp_apply, decide_eq_true_eq] at heq ⊢
      exact UInt32.toNat_inj.mp heq
    · rw [List.countP_eq_zero.mpr]
      · exact Nat.zero_le _
      · intro it _ heq
        simp only [Function.comp_apply, decide_eq_true_eq] at heq
        exact hk ⟨_, heq⟩
  · next hlen =>
    refine ⟨hassigned, ?_⟩
    rcases entries with _ | ⟨_, _ | ⟨_, _⟩⟩
    · exact List.Pairwise.nil
    · exact List.pairwise_singleton _ _
    · simp at hlen

/-! ### The table -/

structure Fact where
  path : List Str
  isDir : Bool
  size : UInt32
  mdate : UInt16
  mtime : UInt16
deriving DecidableEq, Repr

def Item.fact (it : Item) : Fact := ⟨it.path, it.isDir, it.size, it.mdate, it.mtime⟩

def CacheEntry.fact (e : CacheEntry) : Fact := ⟨e.path, e.isDir, e.size, e.mdate, e.mtime⟩

structure Table (card : Card) (cache : List CacheEntry) : Prop where
  distinct : (cache.map CacheEntry.handle).Nodup
  reserved : ∀ e ∈ cache, e.handle ≠ 0 ∧ e.handle ≠ 0xFFFFFFFF
  found : ∀ e ∈ cache, fsGetEntryByHandle cache e.handle = some e
  top : ∀ e ∈ cache, e.path.dropLast = [] → e.parent = 0
  parent : ∀ e ∈ cache, e.path.dropLast ≠ [] →
    ∃ d ∈ cache, d.isDir = true ∧ d.path = e.path.dropLast ∧ e.parent = d.handle
  listed : (listing cache MTP_WALK_MAX_DEPTH 0xFFFFFFFF).Perm (cache.map CacheEntry.handle)
  reflects : (cache.map CacheEntry.fact).Perm (card.map Item.fact)

namespace Repaired

variable {cache : List CacheEntry}

theorem distinct (h : Repaired fnv card cache) : (cache.map CacheEntry.handle).Nodup := by
  apply List.pairwise_map.mpr
  apply h.strict.imp
  intro a b hlt heq
  exact hlt.ne (congrArg UInt32.toNat heq)

theorem inj_handle (h : Repaired fnv card cache) {a b : CacheEntry} (ha : a ∈ cache)
    (hb : b ∈ cache) (heq : a.handle = b.handle) : a = b :=
  List.inj_on_of_nodup_map h.distinct ha hb heq

theorem reserved (h : Repaired fnv card cache) {e : CacheEntry} (he : e ∈ cache) :
    e.handle ≠ 0 ∧ e.handle ≠ 0xFFFFFFFF := by
  rcases h.assigned.handle e he with hprim | ⟨-, a, -, hre⟩
  · rw [hprim]
    exact fsHashPathSeeded_ne _ _
  · rw [hre]
    exact fsHashPathSeeded_ne _ _

theorem found (h : Repaired fnv card cache) {e : CacheEntry} (he : e ∈ cache) :
    fsGetEntryByHandle cache e.handle = some e := by
  rw [fsGetEntryByHandle, if_neg (h.reserved he).1]
  exact bsearch_mem h.strict he

theorem top (h : Repaired fnv card cache) {e : CacheEntry} (he : e ∈ cache)
    (htop : e.path.dropLast = []) : e.parent = 0 := by
  obtain ⟨it, -, hbare, hpath⟩ := h.assigned.item he
  have hparent : e.parent = handleFor fnv it.path.dropLast := congrArg CacheEntry.parent hbare
  rw [hparent, ← hpath, htop, handleFor, if_pos rfl]

theorem parent (h : Repaired fnv card cache) (hw : WellFormed card) (hr : Repairable fnv card)
    {e : CacheEntry} (he : e ∈ cache) (hne : e.path.dropLast ≠ []) :
    ∃ d ∈ cache, d.isDir = true ∧ d.path = e.path.dropLast ∧ e.parent = d.handle := by
  obtain ⟨it, hit, hbare, hpath⟩ := h.assigned.item he
  rw [hpath] at hne ⊢
  obtain ⟨dt, hdt, hdir, hdpath⟩ := hw.parent it hit hne
  obtain ⟨d, hd, hdbare, hdeq⟩ := h.assigned.entry hdt
  refine ⟨d, hd, (congrArg CacheEntry.isDir hdbare).trans hdir, hdeq.trans hdpath, ?_⟩
  have hparent : e.parent = handleFor fnv it.path.dropLast := congrArg CacheEntry.parent hbare
  rw [hparent, handleFor, if_neg hne, ← hdpath, ← hdeq]
  -- the folder has not been given another handle
  rcases h.assigned.handle d hd with hprim | ⟨hcol, -⟩
  · exact hprim.symm
  · rw [hdeq, hdpath] at hcol
    exact absurd hcol (hr.leaves it hit hne)

theorem closed (h : Repaired fnv card cache) (hw : WellFormed card) (hr : Repairable fnv card) :
    Closed CacheEntry.path cache where
  nodup := h.assigned.nodup hw
  ne_nil e he := by
    obtain ⟨it, hit, -, hpath⟩ := h.assigned.item he
    rw [hpath]
    exact hw.ne_nil it hit
  parent e he hne := by
    obtain ⟨d, hd, -, hpath, -⟩ := h.parent hw hr he hne
    exact ⟨d, hd, hpath⟩

def kids (cache : List CacheEntry) (p : List Str) : List CacheEntry :=
  cache.filter fun e => e.path.dropLast = p

theorem lists (h : Repaired fnv card cache) (hw : WellFormed card) :
    Lists CacheEntry.path cache (kids cache) where
  mem p e := by simp [kids]
  nodup _ := (h.assigned.nodup hw).of_map.filter _

theorem length_kids (h : Repaired fnv card cache) (hw : WellFormed card) (hr : Repairable fnv card)
    (p : List Str) : (kids cache p).length ≤ MAX_HANDLES := by
  have hcount : ((cache.map CacheEntry.path).countP fun q => q.dropLast = p)
      = (card.map Item.path).countP fun q => q.dropLast = p := h.assigned.paths.countP_eq _
  rw [List.countP_map, List.countP_map, List.countP_eq_length_filter] at hcount
  calc (kids cache p).length
      = (cache.filter ((fun q => decide (q.dropLast = p)) ∘ CacheEntry.path)).length := rfl
    _ = card.countP ((fun q => decide (q.dropLast = p)) ∘ Item.path) := hcount
    _ = (readdir card p).length := by
        rw [readdir, ← List.countP_eq_length_filter]
        apply List.countP_congr
        intro it hit
        simp [hw.ne_nil it hit]
    _ ≤ MAX_HANDLES := hr.narrow p

theorem parent_eq_iff (h : Repaired fnv card cache) (hw : WellFormed card)
    (hr : Repairable fnv card) {e d : CacheEntry} (he : e ∈ cache) (hd : d ∈ cache) :
    e.parent = d.handle ↔ e.path.dropLast = d.path := by
  constructor
  · intro heq
    have hne : e.path.dropLast ≠ [] := by
      intro htop
      rw [h.top he htop] at heq
      exact (h.reserved hd).1 heq.symm
    obtain ⟨d', hd', -, hpath, hparent⟩ := h.parent hw hr he hne
    obtain rfl := h.inj_handle hd' hd (hparent.symm.trans heq)
    exact hpath.symm
  · intro hpath
    have hne : e.path.dropLast ≠ [] := by
      rw [hpath]
      exact (h.closed hw hr).ne_nil d hd
    obtain ⟨d', hd', -, hpath', hparent⟩ := h.parent hw hr he hne
    obtain rfl := (h.closed hw hr).inj hd' hd (hpath'.trans hpath)
    exact hparent

theorem parent_eq_zero_iff (h : Repaired fnv card cache) (hw : WellFormed card)
    (hr : Repairable fnv card) {e : CacheEntry} (he : e ∈ cache) :
    e.parent = 0 ↔ e.path.dropLast = [] := by
  constructor
  · intro hzero
    by_contra hne
    obtain ⟨d, hd, -, -, hparent⟩ := h.parent hw hr he hne
    exact (h.reserved hd).1 (hparent.symm.trans hzero)
  · exact h.top he

theorem handles_root (h : Repaired fnv card cache) (hw : WellFormed card)
    (hr : Repairable fnv card) :
    fsGetObjectHandles cache 0xFFFFFFFF = some ((kids cache []).map CacheEntry.handle) := by
  have hfilter : fsCollectHandles cache 0xFFFFFFFF = (kids cache []).map CacheEntry.handle := by
    rw [fsCollectHandles, kids]
    congr 1
    apply List.filter_congr
    intro e he
    simp [h.parent_eq_zero_iff hw hr he]
  rw [fsGetObjectHandles, if_neg (by simp), hfilter, List.take_of_length_le]
  rw [List.length_map]
  exact h.length_kids hw hr []

theorem handles_entry (h : Repaired fnv card cache) (hw : WellFormed card)
    (hr : Repairable fnv card) {d : CacheEntry} (hd : d ∈ cache) :
    (fsGetObjectHandles cache d.handle).getD [] = (kids cache d.path).map CacheEntry.handle := by
  have hres := h.reserved hd
  rw [fsGetObjectHandles, h.found hd]
  cases hdir : d.isDir with
  | false =>
    rw [if_pos ⟨hres.1, hres.2, by simp [hdir]⟩]
    have hnone : kids cache d.path = [] := by
      apply List.eq_nil_iff_forall_not_mem.mpr
      intro e he
      obtain ⟨he, hdrop⟩ := ((h.lists hw).mem d.path e).mp he
      obtain ⟨d', hd', hdir', hpath, -⟩ :=
        h.parent hw hr he (hdrop ▸ (h.closed hw hr).ne_nil d hd)
      obtain rfl := (h.closed hw hr).inj hd' hd (hpath.trans hdrop)
      rw [hdir] at hdir'
      cases hdir'
    rw [hnone]
    rfl
  | true =>
    rw [if_neg (by simp [hdir])]
    have hfilter : fsCollectHandles cache d.handle = (kids cache d.path).map CacheEntry.handle := by
      rw [fsCollectHandles, kids]
      congr 1
      apply List.filter_congr
      intro e he
      simp [hres.2, h.parent_eq_iff hw hr he hd]
    rw [Option.getD_some, hfilter, List.take_of_length_le]
    rw [List.length_map]
    exact h.length_kids hw hr d.path

theorem listing_entry (h : Repaired fnv card cache) (hw : WellFormed card)
    (hr : Repairable fnv card) {left : Nat} {d : CacheEntry} (hd : d ∈ cache) :
    listing cache left d.handle
      = (enumerate CacheEntry.path (kids cache) left d.path).map CacheEntry.handle := by
  induction left generalizing d with
  | zero => rfl
  | succ left ih =>
    rw [listing, h.handles_entry hw hr hd, enumerate, List.flatMap_map, List.map_flatMap]
    apply List.flatMap_congr
    intro e he
    rw [ih (((h.lists hw).mem d.path e).mp he).1, List.map_cons]

theorem listed (h : Repaired fnv card cache) (hw : WellFormed card) (hr : Repairable fnv card) :
    (listing cache MTP_WALK_MAX_DEPTH 0xFFFFFFFF).Perm (cache.map CacheEntry.handle) := by
  have heq : listing cache MTP_WALK_MAX_DEPTH 0xFFFFFFFF
      = (enumerate CacheEntry.path (kids cache) MTP_WALK_MAX_DEPTH []).map CacheEntry.handle := by
    rw [MTP_WALK_MAX_DEPTH, listing, h.handles_root hw hr, enumerate, Option.getD_some,
      List.flatMap_map, List.map_flatMap]
    apply List.flatMap_congr
    intro e he
    rw [h.listing_entry hw hr (((h.lists hw).mem [] e).mp he).1, List.map_cons]
  rw [heq]
  apply List.Perm.map
  apply enumerate_perm (h.closed hw hr) (h.lists hw)
  intro e he
  obtain ⟨it, hit, -, hpath⟩ := h.assigned.item he
  rw [hpath]
  exact length_path_le hw hr.shallow hit

theorem reflects (h : Repaired fnv card cache) :
    (cache.map CacheEntry.fact).Perm (card.map Item.fact) := by
  have := h.assigned.bare.map CacheEntry.fact
  rw [List.map_map, List.map_map, List.map_map] at this
  exact this

theorem table (h : Repaired fnv card cache) (hw : WellFormed card) (hr : Repairable fnv card) :
    Table card cache where
  distinct := h.distinct
  reserved _ he := h.reserved he
  found _ he := h.found he
  top _ he := h.top he
  parent _ he := h.parent hw hr he
  listed := h.listed hw hr
  reflects := h.reflects

end Repaired

theorem table_of_build (qsort : Sorter CacheEntry.key) (hw : WellFormed card) (hr : Repairable fnv card) :
    ∃ cache, fsCacheBuild fnv qsort card = some cache ∧ Table card cache := by
  obtain ⟨cache, hbuild, hrepaired⟩ := fsCacheBuild_repaired qsort hw hr
  exact ⟨cache, hbuild, hrepaired.table hw hr⟩

end Pi1MHz.Mtp
