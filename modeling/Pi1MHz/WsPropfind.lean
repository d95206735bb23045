import Pi1MHz.WsServer

/-!
# The web server: PROPFIND reports what is there

A directory walk fills a cache that later requests of any connection read.  It has to be dropped
by whatever changes the card, at the moment the change lands, and it is aged with a clock of 32
bits.
-/

namespace Pi1MHz.Ws

open FileTree History Server

abbrev WebStep := Step Server Event

def WebOp.lasts : WebOp → Bool
  | .put | .rangedPut | .copy | .upload => true
  | _ => false

/-- An operation that is complete with this step changed the resource.  One that took several
events is taken to have changed every resource: it may have done so in an earlier step. -/
def ChangedBy (st : WebStep) (path : Str) : Prop :=
  ∃ r op, st.pre.reply st.op = some r ∧ r.done = some op ∧
    (op.lasts = true ∨ fInfo st.pre.disk.card path ≠ fInfo st.post.disk.card path)

/-- What is reported was on the card at a moment within the time to live, and no operation that
changed it was completed after that. -/
def Current (before : List WebStep) (st : WebStep) (path : Str) (info : FileInfo) : Prop :=
  ∃ earlier m since, before ++ [st] = earlier ++ m :: since ∧
    st.pre.now ≤ m.pre.now + WS_PROPFIND_CACHE_TTL_US ∧
    fInfo m.pre.disk.card path = some info ∧ ∀ x ∈ m :: since, ¬ChangedBy x path

def ReportsCurrent (before : List WebStep) (st : WebStep) : Prop :=
  ∀ r, st.pre.reply st.op = some r → ∀ e ∈ r.report, Current before st e.1 e.2

/-- The path and the date of the `f_utime` in a PROPPATCH. -/
def stamping (s : Server) : Event → Option (Str × Stamp)
  | .request i (.proppatch rawpath already 0) _ =>
      match s.jobs i with
      | .none => do
          let sdpath ← davUrlToSdpath rawpath WS_PATH_MAX
          let stamp ← davWin32Mtime s.utcOffset already
          return (sdpath, stamp)
      | _ => none
  | .data i bytes _ =>
      match s.jobs i with
      | .capture path remaining body =>
          if bytes.length < remaining then none
          else (davWin32Mtime s.utcOffset ((body ++ bytes.take remaining).take WS_FILE_CHUNK)).map
            fun stamp => (path, stamp)
      | _ => none
  | _ => none

def CacheLive (s : Server) : Prop :=
  s.cache.valid = true ∧ s.now - s.cache.atUs < WS_PROPFIND_CACHE_TTL_US

def Restamps (s : Server) (e : Event) : Prop :=
  CacheLive s ∧ ∃ path stamp, stamping s e = some (path, stamp) ∧
    ∃ q ∈ s.cache.entries, fatObject q.1 = fatObject path ∧
      ∃ entry, fStat s.disk.card path = some entry ∧ entry.info ≠ stamp

def WrappedLookup (s : Server) (e : Event) : Prop :=
  s.cache.valid = true ∧ (∃ i rawpath depth1 names f, e = .request i (.propfind rawpath depth1 names) f) ∧
    WS_PROPFIND_CACHE_TTL_US ≤ s.now - s.cache.atUs ∧
    (s.now - s.cache.atUs) % 2 ^ 32 < WS_PROPFIND_CACHE_TTL_US

/-! ### What the handlers do to the cache -/

/-- A step that is not a PROPFIND: it reports nothing, and completes an operation only when it drops
the cache. -/
structure Steady (s : Server) (x : Server × Option Reply) : Prop where
  now : x.1.now = s.now
  silent : ∀ r, x.2 = some r → r.report = []
  cache : x.1.cache.valid = false ∨ x.1.cache = s.cache ∧ ∀ r, x.2 = some r → r.done = none

section Frame

variable (s : Server) (i : Nat)

@[simp] theorem wsFsMutated_valid : s.wsFsMutated.cache.valid = false := rfl

@[simp] theorem wsCopySlotRelease_now : (s.wsCopySlotRelease i).now = s.now := by
  unfold wsCopySlotRelease
  split <;> rfl

@[simp] theorem wsCopySlotRelease_cache : (s.wsCopySlotRelease i).cache = s.cache := by
  unfold wsCopySlotRelease
  split <;> rfl

end Frame

section Steadiness

variable {s : Server} {i : Nat} {x : Server × Option Reply}

theorem Steady.answer (status : Nat) : Steady s (s.answer i status) where
  now := rfl
  silent := by
    rintro r ⟨⟩
    rfl
  cache := .inr ⟨rfl, by rintro r ⟨⟩; rfl⟩

theorem Steady.complete (status : Nat) (op : WebOp) :
    Steady s (s.wsFsMutated.complete i status op) where
  now := rfl
  silent := by
    rintro r ⟨⟩
    rfl
  cache := .inl rfl

theorem Steady.wait (j : Job) : Steady s (s.setJob i j, none) where
  now := rfl
  silent := nofun
  cache := .inr ⟨rfl, nofun⟩

theorem Steady.idle : Steady s (s, none) where
  now := rfl
  silent := nofun
  cache := .inr ⟨rfl, nofun⟩

theorem Steady.after {t : Server} (h : Steady s (t, none)) (hx : Steady t x) : Steady s x where
  now := hx.now.trans h.now
  silent := hx.silent
  cache := by
    rcases hx.cache with hx | ⟨hx, hdone⟩
    · exact .inl hx
    · rcases h.cache with h | ⟨h, -⟩
      · exact .inl (by rw [hx, h])
      · exact .inr ⟨hx.trans h, hdone⟩

theorem Steady.onDisk {d : Disk} (h : Steady (s.onDisk d) x) : Steady s x :=
  .after (t := s.onDisk d) ⟨rfl, nofun, .inr ⟨rfl, nofun⟩⟩ h

theorem Steady.mutated (h : Steady s.wsFsMutated x) : Steady s x :=
  .after (t := s.wsFsMutated) ⟨rfl, nofun, .inl rfl⟩ h

theorem Steady.released (h : Steady (s.wsCopySlotRelease i) x) : Steady s x :=
  .after ⟨wsCopySlotRelease_now s i, nofun, .inr ⟨wsCopySlotRelease_cache s i, nofun⟩⟩ h

theorem Steady.complete_dropped {d : Disk} (h : s.cache.valid = false) (status : Nat) (op : WebOp) :
    Steady s ((s.onDisk d).complete i status op) where
  now := rfl
  silent := by
    rintro r ⟨⟩
    rfl
  cache := .inl h

end Steadiness

section Handlers

variable (s : Server) (i : Nat) (f : Faults)

theorem davPutFinish_steady (j : PutJob) : Steady s (s.davPutFinish i j f) := by
  unfold davPutFinish
  split
  · exact .onDisk (.answer _)
  · split
    · exact .onDisk (.answer _)
    · split
      · exact .onDisk (.complete _ _)
      · simp only
        split
        · exact .onDisk (.answer _)
        · split
          · exact .onDisk (.answer _)
          · exact .onDisk (.complete _ _)

theorem davPutConsume_steady (j : PutJob) (bytes : List UInt8) :
    Steady s (s.davPutConsume i j bytes f) := by
  unfold davPutConsume
  simp only
  split
  · exact .onDisk (.answer _)
  · split
    · exact .onDisk (.wait _)
    · exact ⟨rfl, by rintro r ⟨⟩; rfl, .inr ⟨rfl, by rintro r ⟨⟩; rfl⟩⟩
    · exact .onDisk (davPutFinish_steady _ _ _ _)

theorem putInPlace_steady (r : PutRequest) (sdpath : Str) (offset len : Nat) :
    Steady s (s.putInPlace i r sdpath offset len f) := by
  unfold putInPlace
  repeat' split
  all_goals first
    | exact .answer _
    | exact .wait _
    | exact davPutConsume_steady _ _ _ _ _

theorem putTemp_steady (r : PutRequest) (sdpath : Str) (len : Nat) :
    Steady s (s.putTemp i r sdpath len f) := by
  unfold putTemp
  simp only
  split
  · exact .answer _
  · split
    · exact .answer _
    · split
      · exact .onDisk (.wait _)
      · exact .onDisk (davPutConsume_steady _ _ _ _ _)

theorem routeDavPut_steady (r : PutRequest) : Steady s (s.routeDavPut i r f) := by
  unfold routeDavPut
  split
  · exact .answer _
  · apply Steady.mutated
    simp only
    repeat' split
    all_goals first
      | exact .answer _
      | exact putInPlace_steady _ _ _ _ _ _ _
      | exact putTemp_steady _ _ _ _ _ _

theorem uploadFail_steady (dir : Str) (part : UploadPart) (written : List UInt8) :
    Steady s (s.uploadFail i dir part written) :=
  .onDisk (.answer _)

theorem uploadFinish_steady (u : UploadJob) (part : UploadPart) :
    Steady s (s.uploadFinish i u part f) := by
  unfold uploadFinish
  simp only
  split
  · exact uploadFail_steady _ _ _ _ _
  · split
    · exact uploadFail_steady _ _ _ _ _
    · split
      · exact .onDisk (.mutated (.answer _))
      · exact .onDisk (.complete _ _)

theorem uploadFeedData_steady (u : UploadJob) (part : UploadPart) (bytes : List UInt8) :
    Steady s (s.uploadFeedData i u part bytes f) := by
  unfold uploadFeedData
  simp only
  split
  · exact uploadFail_steady _ _ _ _ _
  · split
    · exact uploadFail_steady _ _ _ _ _
    · split
      · exact uploadFail_steady _ _ _ _ _
      · split
        · exact uploadFinish_steady _ _ _ _ _
        · exact .wait _

theorem uploadConsume_steady (u : UploadJob) (bytes : List UInt8) :
    Steady s (s.uploadConsume i u bytes f) := by
  unfold uploadConsume
  split
  · exact uploadFeedData_steady _ _ _ _ _ _
  · simp only
    split
    · split
      · exact .answer _
      · exact .wait _
    · split
      · exact .answer _
      · next d part _ =>
        apply Steady.onDisk (d := d)
        have hfirst := fun u' data => uploadFeedData_steady (s.onDisk d) i f u' part data
        split
        · next hnone _ =>
          split
          · exact hfirst _ _
          · refine .after ?_ (uploadFeedData_steady _ _ _ _ _ _)
            rw [← hnone]
            exact hfirst _ _
        · exact hfirst _ _

theorem routeUpload_steady (rawpath : Str) (ctype : Option Str) (already : List UInt8) :
    Steady s (s.routeUpload i rawpath ctype already f) := by
  unfold routeUpload
  simp only
  repeat' split
  all_goals first
    | exact .answer _
    | exact .wait _
    | exact uploadConsume_steady _ _ _ _ _

theorem routeDavDelete_steady (rawpath : Str) (names : Str → List Str) :
    Steady s (s.routeDavDelete i rawpath names) := by
  unfold routeDavDelete
  apply Steady.mutated
  simp only
  split
  · exact .answer _
  · split
    · exact .answer _
    · split
      · exact .answer _
      · split
        · exact .answer _
        · repeat' split
          all_goals first
            | exact .complete_dropped (wsFsMutated_valid s) _ _
            | exact .onDisk (.answer _)

theorem routeDavMkcol_steady (rawpath : Str) (body : Bool) :
    Steady s (s.routeDavMkcol i rawpath body f) := by
  unfold routeDavMkcol
  apply Steady.mutated
  simp only
  repeat' split
  all_goals first
    | exact .answer _
    | exact .complete_dropped (wsFsMutated_valid s) _ _

theorem copyStart_steady (r : MoveCopy) (existed : Bool) (source : Entry Stamp) :
    Steady s (s.copyStart i r existed source f) := by
  unfold copyStart
  repeat' split
  · exact .answer _
  · exact .answer _
  · exact .answer _
  · exact .answer _
  · exact ⟨rfl, nofun, .inr ⟨rfl, nofun⟩⟩

theorem routeDavMoveOrCopy_steady (isMove : Bool) (hdr : List UInt8) (rawpath : Str) :
    Steady s (Server.routeDavMoveOrCopy s i isMove hdr rawpath f) := by
  unfold Server.routeDavMoveOrCopy
  apply Steady.mutated
  simp only
  split
  · exact .answer _
  · split
    · exact .answer _
    · apply Steady.onDisk (d := s.wsFsMutated.disk.clear _)
      cases isMove with
      | true =>
        simp only [if_true, moveNow]
        split
        · apply Steady.complete_dropped
          exact wsFsMutated_valid s
        · exact .answer _
      | false =>
        simp only [Bool.false_eq_true, if_false]
        exact copyStart_steady _ _ _ _ _ _

theorem wsCopyStep_steady (p : CopyChunk) : Steady s (s.wsCopyStep p) := by
  unfold wsCopyStep
  split
  · exact .idle
  · split
    · split
      · exact .onDisk (.released (.mutated (.answer _)))
      · split
        · exact .onDisk (.released (.answer _))
        · simp only
          split
          · exact .onDisk (.released (.answer _))
          · split
            · exact .onDisk (.released (.complete _ _))
            · exact .onDisk (.wait _)
    · exact .idle

theorem releaseFiles_steady : Steady s (s.releaseFiles i, none) := by
  unfold releaseFiles
  simp only
  split
  · exact .onDisk (.released (.wait _))
  · exact .onDisk (.released (.wait _))
  · exact .onDisk (.released (.wait _))
  · exact .released (.wait _)

end Handlers

theorem fInfo_utime {d : Disk} {path q : Str} {stamp : Stamp}
    (h : fInfo d.card q ≠ fInfo (d.utime path stamp).card q) :
    fatObject q = fatObject path ∧ ∃ entry, fStat d.card path = some entry ∧ entry.info ≠ stamp := by
  unfold fInfo at h
  split at h
  · exact absurd rfl h
  · cases hq : fatObject q with
    | none => simp [fStat, hq] at h
    | some k =>
      simp only [fStat, hq, Option.bind_some, get_utime] at h
      by_cases hpath : fatObject path = some k
      · rw [if_pos hpath] at h
        refine ⟨hpath.symm, ?_⟩
        cases hget : d.card.get k with
        | none => simp [hget] at h
        | some entry =>
          refine ⟨entry, by simp [fStat, hpath, hget], ?_⟩
          rintro rfl
          rw [hget, Option.map_some, Option.map_some, Entry.setInfo_self] at h
          exact h rfl
      · rw [if_neg hpath] at h
        exact absurd rfl h

/-! ### What a step does to the cache -/

structure Leaves (s : Server) (e : Event) (x : Server × Option Reply) : Prop where
  now : s.now ≤ x.1.now
  silent : ∀ r, x.2 = some r → r.report = []
  cache : x.1.cache.valid = false ∨ x.1.cache = s.cache ∧
    ∀ r op, x.2 = some r → r.done = some op → op.lasts = false ∧
      ∀ q, fInfo s.disk.card q ≠ fInfo x.1.disk.card q →
        ∃ path stamp, stamping s e = some (path, stamp) ∧ fatObject q = fatObject path ∧
          ∃ entry, fStat s.disk.card path = some entry ∧ entry.info ≠ stamp

theorem Steady.leaves {s : Server} {x : Server × Option Reply} (h : Steady s x) (e : Event) :
    Leaves s e x where
  now := h.now.ge
  silent := h.silent
  cache := h.cache.imp_right fun ⟨hcache, hdone⟩ => ⟨hcache, fun r op hr hop => by
    rw [hdone r hr] at hop
    cases hop⟩

theorem routeDavLock_leaves (s : Server) (i : Nat) (rawpath : Str) (f : Faults) (e : Event) :
    Leaves s e (s.routeDavLock i rawpath f) := by
  unfold routeDavLock
  split
  · exact (Steady.answer _).leaves e
  · split
    · -- the resource exists: nothing happens to it
      refine ⟨le_rfl, by rintro r ⟨⟩; rfl, .inr ⟨rfl, ?_⟩⟩
      rintro r op ⟨⟩ ⟨⟩
      exact ⟨rfl, fun q hq => absurd rfl hq⟩
    · split
      · exact (Steady.answer _).leaves e
      · split
        · exact (Steady.onDisk (.answer _)).leaves e
        · exact (Steady.onDisk (.complete _ _)).leaves e

theorem davApplyWin32Mtime_leaves (s : Server) (i : Nat) (path : Str) (body : List UInt8) (e : Event)
    (h : stamping s e = (davWin32Mtime s.utcOffset body).map fun stamp => (path, stamp)) (status : Nat) :
    Leaves s e ((s.davApplyWin32Mtime path body).complete i status .proppatch) := by
  unfold davApplyWin32Mtime
  cases hstamp : davWin32Mtime s.utcOffset body with
  | none =>
    refine ⟨le_rfl, by rintro r ⟨⟩; rfl, .inr ⟨rfl, ?_⟩⟩
    rintro r op ⟨⟩ ⟨⟩
    exact ⟨rfl, fun q hq => absurd rfl hq⟩
  | some stamp =>
    refine ⟨le_rfl, by rintro r ⟨⟩; rfl, .inr ⟨rfl, ?_⟩⟩
    rintro r op ⟨⟩ ⟨⟩
    refine ⟨rfl, fun q hq => ⟨path, stamp, ?_, fInfo_utime hq⟩⟩
    rw [h, hstamp]
    rfl

theorem routeDavProppatch_leaves (s : Server) (i : Nat) (rawpath : Str) (already : List UInt8)
    (remaining : Nat) (f : Faults) (hidle : s.jobs i = .none) :
    Leaves s (.request i (.proppatch rawpath already remaining) f)
      (s.routeDavProppatch i rawpath already remaining) := by
  unfold routeDavProppatch
  split
  · exact (Steady.answer _).leaves _
  · next sdpath hpath =>
    split
    · next hzero =>
      subst hzero
      apply davApplyWin32Mtime_leaves
      simp only [stamping, hidle, hpath, Option.bind_eq_bind, Option.bind_some]
      cases davWin32Mtime s.utcOffset already <;> rfl
    · refine ⟨le_rfl, by rintro r ⟨⟩; rfl, .inr ⟨rfl, ?_⟩⟩
      rintro r op ⟨⟩ ⟨⟩

theorem drainCapture_leaves (s : Server) (i : Nat) (path : Str) (remaining : Nat)
    (body bytes : List UInt8) (f : Faults) (hjob : s.jobs i = .capture path remaining body) :
    Leaves s (.data i bytes f) (s.drainCapture i path remaining body bytes) := by
  unfold drainCapture
  simp only
  split
  · exact (Steady.wait _).leaves _
  · next hlast =>
    apply davApplyWin32Mtime_leaves s i
    simp only [stamping, hjob, if_neg hlast]

theorem react_leaves (s : Server) (e : Event)
    (h : ∀ i rawpath depth1 names f, e ≠ .request i (.propfind rawpath depth1 names) f) :
    Leaves s e (s.react e) := by
  cases e with
  | elapse us => exact ⟨Nat.le_add_right _ _, nofun, .inr ⟨rfl, nofun⟩⟩
  | outside card => exact ⟨le_rfl, nofun, .inr ⟨rfl, nofun⟩⟩
  | beeb b => exact ⟨le_rfl, nofun, .inr ⟨rfl, nofun⟩⟩
  | request i r f =>
    simp only [react]
    split
    · next hidle =>
      cases r with
      | propfind rawpath depth1 names => exact absurd rfl (h i rawpath depth1 names f)
      | put r => exact (routeDavPut_steady s i f r).leaves _
      | delete rawpath names => exact (routeDavDelete_steady s i rawpath names).leaves _
      | mkcol rawpath body => exact (routeDavMkcol_steady s i f rawpath body).leaves _
      | moveOrCopy isMove hdr rawpath =>
        exact (routeDavMoveOrCopy_steady s i f isMove hdr rawpath).leaves _
      | lock rawpath => exact routeDavLock_leaves s i rawpath f _
      | proppatch rawpath already remaining =>
        exact routeDavProppatch_leaves s i rawpath already remaining f hidle
      | upload rawpath ctype already => exact (routeUpload_steady s i f rawpath ctype already).leaves _
    · exact Steady.idle.leaves _
  | data i bytes f =>
    simp only [react, consume]
    split
    · split
      · exact Steady.idle.leaves _
      · exact (davPutConsume_steady s i f _ bytes).leaves _
    · exact (uploadConsume_steady s i f _ bytes).leaves _
    · next hjob => exact drainCapture_leaves s i _ _ _ bytes f hjob
    · exact Steady.idle.leaves _
  | poll p => exact (wsCopyStep_steady s p).leaves _
  | close i => exact (releaseFiles_steady s i).leaves _
  | reset i => exact (releaseFiles_steady s i).leaves _
  | err i => exact (releaseFiles_steady s i).leaves _

/-! ### PROPFIND -/

theorem wsPropfindCacheLookup_cases (c : PropfindCache) (now : Nat) (path : Str) :
    ((wsPropfindCacheLookup c now path).1 = c ∨ (wsPropfindCacheLookup c now path).1.valid = false) ∧
      ∀ info, (wsPropfindCacheLookup c now path).2 = some info →
        c.valid = true ∧ c.expired now = false ∧ (path, info) ∈ c.entries := by
  unfold wsPropfindCacheLookup
  split
  · exact ⟨.inl rfl, nofun⟩
  · next hvalid =>
    split
    · exact ⟨.inr rfl, nofun⟩
    · next hexpired =>
      refine ⟨.inl rfl, fun info hinfo => ?_⟩
      obtain ⟨⟨p, info⟩, hfind, rfl⟩ := Option.map_eq_some_iff.mp hinfo
      have hp := List.find?_some hfind
      obtain rfl : p = path := by simpa using hp
      exact ⟨by simpa using hvalid, by simpa using hexpired, List.mem_of_find?_eq_some hfind⟩

theorem cacheWalk_entries (cache : PropfindCache) (now : Nat) (children : List (Str × FileInfo)) :
    ∀ q ∈ (cacheWalk cache now children).entries, q ∈ children := by
  have hfold : ∀ (l : List (Str × FileInfo)) (c : PropfindCache),
      ∀ q ∈ (l.foldl (fun c e => if e.1.length < WS_PATH_MAX then wsPropfindCacheAdd c e.1 e.2 else c)
        c).entries, q ∈ c.entries ∨ q ∈ l := by
    intro l
    induction l with
    | nil => exact fun c q hq => .inl hq
    | cons e l ih =>
      intro c q hq
      rcases ih _ q hq with hq | hq
      · have hadd : q ∈ c.entries ∨ q = e := by
          simp only at hq
          split at hq
          · unfold wsPropfindCacheAdd at hq
            split at hq
            · exact .inl hq
            · rcases List.mem_append.mp hq with hq | hq
              · exact .inl hq
              · exact .inr (List.mem_singleton.mp hq)
          · exact .inl hq
        rcases hadd with hq | rfl
        · exact .inl hq
        · exact .inr (List.mem_cons_self ..)
      · exact .inr (List.mem_cons_of_mem e hq)
  intro q hq
  exact (hfold children _ q hq).resolve_left (List.not_mem_nil)

theorem mem_listing {c : Card} {dir : Str} {names : List Str} {q : Str × FileInfo}
    (h : q ∈ listing c dir names) : fInfo c q.1 = some q.2 := by
  obtain ⟨name, -, hname⟩ := List.mem_filterMap.mp h
  obtain ⟨info, hinfo, rfl⟩ := Option.map_eq_some_iff.mp hname
  exact hinfo

/-- What PROPFIND does: the card stays, the cache stays or is dropped or filled anew, and what is
reported is on the card or in a cache that does not look old. -/
structure Looks (s : Server) (x : Server × Option Reply) : Prop where
  now : x.1.now = s.now
  disk : x.1.disk = s.disk
  cache : x.1.cache.valid = false ∨ x.1.cache = s.cache ∨
    x.1.cache.atUs = s.now ∧ ∀ q ∈ x.1.cache.entries, fInfo s.disk.card q.1 = some q.2
  reports : ∀ r, x.2 = some r → r.done = none ∧ ∀ q ∈ r.report, fInfo s.disk.card q.1 = some q.2 ∨
    s.cache.valid = true ∧ s.cache.expired s.now = false ∧ q ∈ s.cache.entries

theorem Looks.refused {s t : Server} (i status : Nat) (hnow : t.now = s.now) (hdisk : t.disk = s.disk)
    (hcache : t.cache = s.cache ∨ t.cache.valid = false) : Looks s (t.answer i status) where
  now := hnow
  disk := hdisk
  cache := hcache.elim (fun h => .inr (.inl h)) .inl
  reports := by
    rintro r ⟨⟩
    exact ⟨rfl, nofun⟩

theorem routeDavPropfind_looks (s : Server) (i : Nat) (rawpath : Str) (depth1 : Bool)
    (names : List Str) : Looks s (s.routeDavPropfind i rawpath depth1 names) := by
  unfold routeDavPropfind
  split
  · exact .refused i 400 rfl rfl (.inl rfl)
  · next sdpath _ =>
    generalize hlooked : (if wsIsRoot sdpath = true then (s.cache, none)
      else wsPropfindCacheLookup s.cache s.now sdpath) = looked
    have hcase : (looked.1 = s.cache ∨ looked.1.valid = false) ∧ ∀ info, looked.2 = some info →
        s.cache.valid = true ∧ s.cache.expired s.now = false ∧ (sdpath, info) ∈ s.cache.entries := by
      subst hlooked
      split
      · exact ⟨.inl rfl, nofun⟩
      · exact wsPropfindCacheLookup_cases _ _ _
    simp only
    split
    · exact .refused i 404 rfl rfl hcase.1
    · next info hinfo =>
      have hself : fInfo s.disk.card sdpath = some info ∨
          s.cache.valid = true ∧ s.cache.expired s.now = false ∧ (sdpath, info) ∈ s.cache.entries := by
        cases h : looked.2 with
        | none =>
          rw [h, Option.none_or] at hinfo
          exact .inl hinfo
        | some info' =>
          rw [h, Option.some_or] at hinfo
          cases hinfo
          exact .inr (hcase.2 info h)
      have hchildren : ∀ q ∈ (if (depth1 && info.isDir) = true then listing s.disk.card sdpath names
          else []), fInfo s.disk.card q.1 = some q.2 := by
        intro q hq
        split at hq
        · exact mem_listing hq
        · cases hq
      refine ⟨by split <;> rfl, by split <;> rfl, ?_, ?_⟩
      · split
        · exact .inr (.inr ⟨rfl, fun q hq =>
            mem_listing (cacheWalk_entries looked.1 s.now (listing s.disk.card sdpath names) q hq)⟩)
        · exact hcase.1.elim (fun h => .inr (.inl h)) .inl
      · rintro r ⟨⟩
        refine ⟨rfl, fun q hq => ?_⟩
        rcases List.mem_cons.mp hq with rfl | hq
        · exact hself
        · exact .inl (hchildren q hq)

/-! ### Runs -/

def CacheInv (h : List WebStep) (s : Server) : Prop :=
  s.cache.valid = true → s.cache.atUs ≤ s.now ∧
    (CacheLive s → ∃ earlier m since, h = earlier ++ m :: since ∧ m.pre.now = s.cache.atUs ∧
      ∀ q ∈ s.cache.entries, fInfo m.pre.disk.card q.1 = some q.2 ∧ ∀ x ∈ m :: since, ¬ChangedBy x q.1)

theorem CacheInv.stay {h : List WebStep} {s : Server} (hs : CacheInv h s) {st : WebStep}
    (hcache : st.post.cache = s.cache) (hnow : s.now ≤ st.post.now)
    (hkeep : CacheLive s → ∀ q ∈ s.cache.entries, ¬ChangedBy st q.1) :
    CacheInv (h ++ [st]) st.post := by
  intro hvalid
  rw [hcache] at hvalid
  obtain ⟨hle, hlive⟩ := hs hvalid
  refine ⟨by rw [hcache]; omega, fun ⟨_, hage⟩ => ?_⟩
  rw [hcache] at hage ⊢
  have hlive' : CacheLive s := ⟨hvalid, by omega⟩
  obtain ⟨earlier, m, since, rfl, hm, hall⟩ := hlive hlive'
  refine ⟨earlier, m, since ++ [st], by simp, hm, fun q hq => ⟨(hall q hq).1, ?_⟩⟩
  intro x hx
  rw [← List.cons_append, List.mem_append, List.mem_singleton] at hx
  rcases hx with hx | rfl
  · exact (hall q hq).2 x hx
  · exact hkeep hlive' q hq

theorem not_changedBy_of_done {st : WebStep} (h : ∀ r, st.pre.reply st.op = some r → r.done = none)
    (path : Str) : ¬ChangedBy st path := by
  rintro ⟨r, op, hr, hop, -⟩
  rw [h r hr] at hop
  cases hop

theorem react_looks (s : Server) (i : Nat) (rawpath : Str) (depth1 : Bool) (names : List Str)
    (f : Faults) : Looks s (s.react (.request i (.propfind rawpath depth1 names) f)) := by
  simp only [react]
  split
  · exact routeDavPropfind_looks s i rawpath depth1 names
  · exact ⟨rfl, rfl, .inr (.inl rfl), nofun⟩

theorem step_cacheInv {h : List WebStep} {s : Server} (hs : CacheInv h s) (e : Event)
    (hstamp : ¬Restamps s e) : CacheInv (h ++ [⟨s, e, s.step e⟩]) (s.step e) := by
  by_cases hfind : ∃ i rawpath depth1 names f, e = .request i (.propfind rawpath depth1 names) f
  · obtain ⟨i, rawpath, depth1, names, f, he⟩ := hfind
    have hlooks := react_looks s.untouched i rawpath depth1 names f
    rw [← he] at hlooks
    have hquiet : ∀ path, ¬ChangedBy ⟨s, e, s.step e⟩ path :=
      not_changedBy_of_done fun r hr => (hlooks.reports r hr).1
    rcases hlooks.cache with hdrop | hsame | ⟨hat, hall⟩
    · exact fun hvalid => absurd hvalid (by rw [Server.step, hdrop]; decide)
    · exact hs.stay hsame hlooks.now.ge fun _ q _ => hquiet q.1
    · -- the cache was filled in this step
      intro _
      refine ⟨?_, fun _ => ⟨h, _, [], rfl, hat.symm, fun q hq => ⟨hall q hq, ?_⟩⟩⟩
      · rw [Server.step, hat, hlooks.now]
      · intro x hx
        rw [List.mem_singleton.mp hx]
        exact hquiet q.1
  · have hleaves := react_leaves s.untouched e fun i rawpath depth1 names f he =>
      hfind ⟨i, rawpath, depth1, names, f, he⟩
    rcases hleaves.cache with hdrop | ⟨hsame, hdone⟩
    · exact fun hvalid => absurd hvalid (by rw [Server.step, hdrop]; decide)
    · refine hs.stay hsame hleaves.now fun hlive q hq => ?_
      rintro ⟨r, op, hr, hop, hchanged⟩
      obtain ⟨hlasts, hinfo⟩ := hdone r op hr hop
      rcases hchanged with hchanged | hchanged
      · rw [hlasts] at hchanged
        cases hchanged
      · obtain ⟨path, stamp, hst, hobj, hentry⟩ := hinfo q.1 hchanged
        exact hstamp ⟨hlive, path, stamp, hst, q, hq, hobj, hentry⟩

theorem cacheLive_of_not_expired {s : Server} (hle : s.cache.atUs ≤ s.now)
    (hvalid : s.cache.valid = true) (hexpired : s.cache.expired s.now = false)
    (hwrap : WS_PROPFIND_CACHE_TTL_US ≤ s.now - s.cache.atUs →
      ¬(s.now - s.cache.atUs) % 2 ^ 32 < WS_PROPFIND_CACHE_TTL_US) : CacheLive s := by
  refine ⟨hvalid, Nat.lt_of_not_le fun hold => hwrap hold ?_⟩
  rw [← WrapClock.age_eq hle]
  simpa [PropfindCache.expired] using hexpired

theorem step_reports {h : List WebStep} {s : Server} (hs : CacheInv h s) (e : Event)
    (hwrap : ¬WrappedLookup s e) : ReportsCurrent h ⟨s, e, s.step e⟩ := by
  intro r hr q hq
  by_cases hfind : ∃ i rawpath depth1 names f, e = .request i (.propfind rawpath depth1 names) f
  · have hlooks : Looks s.untouched (s.untouched.react e) := by
      obtain ⟨i, rawpath, depth1, names, f, rfl⟩ := hfind
      exact react_looks s.untouched i rawpath depth1 names f
    have hquiet : ∀ path, ¬ChangedBy ⟨s, e, s.step e⟩ path :=
      not_changedBy_of_done fun r hr => (hlooks.reports r hr).1
    rcases (hlooks.reports r hr).2 q hq with hcard | ⟨hvalid, hexpired, hmem⟩
    · refine ⟨h, _, [], rfl, Nat.le_add_right _ _, hcard, fun x hx => ?_⟩
      rw [List.mem_singleton.mp hx]
      exact hquiet q.1
    · obtain ⟨hle, hinv⟩ := hs hvalid
      have hlive := cacheLive_of_not_expired hle hvalid hexpired fun hold hlt =>
        hwrap ⟨hvalid, hfind, hold, hlt⟩
      obtain ⟨earlier, m, since, rfl, hm, hall⟩ := hinv hlive
      refine ⟨earlier, m, since ++ [⟨s, e, s.step e⟩], by simp, ?_, (hall q hmem).1, ?_⟩
      · have hage := hlive.2
        simp only [hm]
        omega
      · intro x hx
        rw [← List.cons_append, List.mem_append, List.mem_singleton] at hx
        rcases hx with hx | rfl
        · exact (hall q hmem).2 x hx
        · exact hquiet q.1
  · have hleaves := react_leaves s.untouched e fun i rawpath depth1 names f he =>
      hfind ⟨i, rawpath, depth1, names, f, he⟩
    rw [hleaves.silent r hr] at hq
    cases hq

theorem not_restamps {s : Server} {e : Event} (h : stamping s e = none) : ¬Restamps s e := by
  rintro ⟨-, path, stamp, hst, -⟩
  rw [h] at hst
  cases hst

/-- A server with the one file `/A.TXT` on its card. -/
def oneFileServer : Server := { disk := { card := oneFileCard } }

def walkRoot : Event := .request 0 (.propfind [0x2F] true [lit ['A', '.', 'T', 'X', 'T']]) {}

def findFile : Event := .request 0 (.propfind (lit ['/', 'A', '.', 'T', 'X', 'T']) false []) {}

def dateFile : Event :=
  .request 0 (.proppatch (lit ['/', 'A', '.', 'T', 'X', 'T']) (lit ['W', 'i', 'n', '3', '2', 'L', 'a', 's',
    't', 'M', 'o', 'd', 'i', 'f', 'i', 'e', 'd', 'T', 'i', 'm', 'e', '>', 'W', 'e', 'd', ',', ' ', '2', '2',
    ' ', 'J', 'u', 'l', ' ', '2', '0', '2', '6', ' ', '0', '9', ':', '0', '0', ':', '0', '0', ' ', 'G', 'M',
    'T', '<']) 0) {}

end Pi1MHz.Ws
