import Pi1MHz.WsCard
import Pi1MHz.WsRequest

/-!
# The web server: MOVE and COPY

`route_dav_move_or_copy` and the chunk-by-chunk copy of `ws_copy_step`, up to the response.  An
existing destination file is unlinked first, and several tests and calls that can still refuse the
request come after that.
-/

namespace Pi1MHz.Ws

open FileTree

def WS_READ_CHUNK : Nat := 8192

def davDestinationSdpath (dest : Str) : Option Str :=
  let p :=
    if wsPrefixCi dest (lit ['h', 't', 't', 'p', ':', '/', '/']) then dest.drop 7
    else if wsPrefixCi dest (lit ['h', 't', 't', 'p', 's', ':', '/', '/']) then dest.drop 8
    else dest
  let path := p.dropWhile (· ≠ 0x2F)
  if path = [] then none else davUrlToSdpath path WS_PATH_MAX

structure MoveCopy where
  src : Str
  dst : Str
  overwrite : Bool
deriving DecidableEq

def parseMoveCopy (hdr : List UInt8) (rawpath : Str) : Except Nat MoveCopy :=
  match davUrlToSdpath rawpath WS_PATH_MAX with
  | none => .error 400
  | some src =>
      match wsFindHeader hdr (lit ['D', 'e', 's', 't', 'i', 'n', 'a', 't', 'i', 'o', 'n'])
        (WS_PATH_MAX + 32) with
      | none => .error 400
      | some dest =>
          match davDestinationSdpath dest with
          | none => .error 400
          | some dst =>
              let overHdr := wsFindHeader hdr (lit ['O', 'v', 'e', 'r', 'w', 'r', 'i', 't', 'e']) 8
              let overwrite := overHdr.all fun v => v.headD 0 == 0x54 || v.headD 0 == 0x74
              if wsIsRoot src || wsIsRoot dst then .error 403 else .ok ⟨src, dst, overwrite⟩

def checkMoveCopy (s : BeebState) (c : Card) (r : MoveCopy) : Except Nat (Entry Stamp) :=
  if wsBeebPathBusy s r.src || wsBeebPathBusy s r.dst then .error 423
  else
    match fStat c r.src with
    | none => .error 404
    | some source =>
        if (fStat c r.dst).isSome && !r.overwrite then .error 412
        else if (fStat c r.dst).any Entry.isDir then .error 409
        else .ok source

/-- A poll of a copy.  `closeFails` is what the destination holds after an `f_close` that fails; no path
looks at its result. -/
structure CopyStep where
  revoked : Bool := false
  readFails : Bool := false
  writeFails : Option Nat := none
  closeFails : Option (List UInt8) := none

/-- What is at the destination when it is closed with `data` written. -/
def CopyStep.closed (step : CopyStep) (data : List UInt8) : Option (List UInt8) :=
  some (step.closeFails.getD data)

/-- Where a copy stands: the answer, if it was given, and what the destination holds (nothing if it
was unlinked). -/
structure CopyEnd where
  status : Option Nat
  data : Option (List UInt8)

/-- `ws_copy_step`, poll after poll: `rest` is still to be read and `out` is written.  `held` says
that the destination is a LUN's image, and `existed` that there was a destination before. -/
def wsCopySteps (held existed : Bool) (rest out : List UInt8) : List CopyStep → CopyEnd
  | [] => ⟨none, some out⟩
  | step :: steps =>
      let chunk := rest.take WS_READ_CHUNK
      if held && step.revoked then ⟨some 423, none⟩
      else if step.readFails then ⟨some 500, step.closed out⟩
      else if chunk ≠ [] ∧ step.writeFails.isSome then
        ⟨some 507, step.closed (out ++ chunk.take (step.writeFails.getD 0))⟩
      else if chunk.length < WS_READ_CHUNK then
        ⟨some (if existed then 204 else 201), step.closed (out ++ chunk)⟩
      else wsCopySteps held existed (rest.drop WS_READ_CHUNK) (out ++ chunk) steps

/-- `filesystemLunFromHostPath` names a LUN. -/
def lunOfHostPath (s : LunState) (path : Str) : Bool :=
  (List.finRange 16).any fun lun =>
    fsHostNameEqual (fsHostLunStem s lun).length path (fsHostLunStem s lun)

/-! ### The handler -/

structure MoveCopyEnv where
  beeb : BeebState := {}
  copyActive : Bool := false
  renameFails : Bool := false
  openSrcFails : Bool := false
  openDstFails : Bool := false
  steps : List CopyStep := []

abbrev Answer := Option Nat × Card

def copyLeaves (c : Card) (k : List Str) : Option (List UInt8) → Card
  | some data => c.put k (.file data nortcStamp false)
  | none => c.remove k

def davCopy (e : MoveCopyEnv) (c : Card) (r : MoveCopy) (existed : Bool) (source : Entry Stamp) :
    Answer :=
  if source.isDir then (some 501, c)
  else if e.copyActive then (some 503, c)
  else
    match fOpenRead e.openSrcFails c r.src with
    | none => (some 500, c)
    | some data =>
        match fCreate e.openDstFails c r.dst with
        | none => (some 500, c)
        | some k =>
            let ended := wsCopySteps (lunOfHostPath e.beeb.luns r.dst) existed data [] e.steps
            (ended.status, copyLeaves c k ended.data)

def davMove (e : MoveCopyEnv) (c : Card) (r : MoveCopy) (existed : Bool) : Answer :=
  let renamed := fRename e.renameFails c r.src r.dst
  if renamed.2 then (some (if existed then 204 else 201), renamed.1) else (some 500, c)

def unlinked (c : Card) (r : MoveCopy) : Card :=
  if (fStat c r.dst).isSome then fUnlink c r.dst else c

def routeDavMoveOrCopy (e : MoveCopyEnv) (isMove : Bool) (hdr : List UInt8) (rawpath : Str)
    (c : Card) : Answer :=
  match parseMoveCopy hdr rawpath with
  | .error status => (some status, c)
  | .ok r =>
      match checkMoveCopy e.beeb c r with
      | .error status => (some status, c)
      | .ok source =>
          let existed := (fStat c r.dst).isSome
          let c₁ := unlinked c r
          if isMove then davMove e c₁ r existed else davCopy e c₁ r existed source

def contents (c : Card) (k : List Str) : Option (Option (List UInt8)) :=
  (c.get k).map Entry.content

def Untouched (c c' : Card) : Prop := ∀ k, contents c' k = contents c k

/-- What was at and below `s` is at and below `d`, and no third file changed. -/
def Moved (c c' : Card) (s d : List Str) : Prop :=
  (∀ k, contents c' (d ++ k) = contents c (s ++ k)) ∧
    ∀ k, ¬s <+: k → ¬d <+: k → contents c' k = contents c k

/-- What is at `s` is also at `d`, and nothing else changed. -/
def Copied (c c' : Card) (s d : List Str) : Prop :=
  contents c' d = contents c s ∧ ∀ k, k ≠ d → contents c' k = contents c k

/-- The contract of a MOVE or COPY of a card with the answer `a`. -/
def Atomic (isMove : Bool) (r : Except Nat MoveCopy) (c : Card) (a : Answer) : Prop :=
  ∀ status, a.1 = some status →
    if 200 ≤ status ∧ status < 300 then
      ∃ q s d, r = .ok q ∧ fatObject q.src = some s ∧ fatObject q.dst = some d ∧
        if isMove then Moved c a.2 s d else Copied c a.2 s d
    else Untouched c a.2

/-! ### When it is broken -/

def Replaces (c : Card) (r : MoveCopy) : Prop :=
  ∃ data stamp, fStat c r.dst = some (.file data stamp false)

instance (c : Card) (r : MoveCopy) : Decidable (Replaces c r) :=
  match h : fStat c r.dst with
  | some (.file data stamp false) => isTrue ⟨data, stamp, h⟩
  | some (.file data stamp true) => isFalse fun ⟨_, _, h'⟩ => by cases h.symm.trans h'
  | some (.dir _) => isFalse fun ⟨_, _, h'⟩ => by cases h.symm.trans h'
  | none => isFalse fun ⟨_, _, h'⟩ => by cases h.symm.trans h'

def DstFree (c : Card) (d : List Str) : Prop := c.get d = none ∧ c.isDir d.dropLast = true

/-- The destination is a file that is replaced, and the rename then fails, as it does when the
source is the same file; or a directory is moved below itself. -/
def MoveSpoils (e : MoveCopyEnv) (c : Card) (r : MoveCopy) : Prop :=
  (Replaces c r ∧ (fatObject r.src = fatObject r.dst ∨ e.renameFails = true)) ∨
    (e.renameFails = false ∧ ∃ s d, fatObject r.src = some s ∧ fatObject r.dst = some d ∧
      s <+: d ∧ s ≠ d ∧ (Replaces c r ∨ DstFree c d))

def firstFault (held : Bool) (len done : Nat) : List CopyStep → Option (Nat × CopyStep)
  | [] => none
  | step :: steps =>
      if (held && step.revoked) || step.readFails || (decide (0 < len) && step.writeFails.isSome) then
        some (done, step)
      else if len < WS_READ_CHUNK then none
      else firstFault held (len - WS_READ_CHUNK) (done + WS_READ_CHUNK) steps

/-- What is left at the destination by a copy of `data` that fails so. -/
def leftBehind (held : Bool) (data : List UInt8) (done : Nat) (step : CopyStep) :
    Option (List UInt8) :=
  if held && step.revoked then none
  else if step.readFails then step.closed (data.take done)
  else step.closed (data.take done ++
    ((data.drop done).take WS_READ_CHUNK).take (step.writeFails.getD 0))

/-- The `f_close` that a copy of `len` bytes ends with, if nothing fails before it. -/
def lastClose (len : Nat) : List CopyStep → Option (List UInt8)
  | [] => none
  | step :: steps =>
      if len < WS_READ_CHUNK then step.closeFails else lastClose (len - WS_READ_CHUNK) steps

/-- The destination is a file that is replaced, and a test or a call after that refuses; or the
copy fails part way and what it leaves is not what was there; or nothing fails but the last
`f_close`, and what that leaves is not the source's content. -/
def CopySpoils (e : MoveCopyEnv) (c : Card) (r : MoveCopy) (source : Entry Stamp) : Prop :=
  (Replaces c r ∧ (source.isDir = true ∨ e.copyActive = true ∨ fatObject r.src = fatObject r.dst ∨
      e.openSrcFails = true ∨ e.openDstFails = true)) ∨
    (e.copyActive = false ∧ e.openSrcFails = false ∧ e.openDstFails = false ∧
      fatObject r.src ≠ fatObject r.dst ∧
      ∃ data d, source.content = some data ∧ fatObject r.dst = some d ∧
        (Replaces c r ∨ DstFree c d) ∧
        match firstFault (lunOfHostPath e.beeb.luns r.dst) data.length 0 e.steps with
        | some (done, step) =>
            contents c d ≠ (leftBehind (lunOfHostPath e.beeb.luns r.dst) data done step).map some
        | none => (lastClose data.length e.steps).getD data ≠ data)

/-! ### The copy, step by step -/

theorem wsCopySteps_eq (held existed : Bool) (data : List UInt8) (steps : List CopyStep) :
    ∀ done, done ≤ data.length →
      match firstFault held (data.length - done) done steps with
      | some (done', step) =>
          (∃ status, (wsCopySteps held existed (data.drop done) (data.take done) steps).status
              = some status ∧ ¬(200 ≤ status ∧ status < 300)) ∧
            (wsCopySteps held existed (data.drop done) (data.take done) steps).data
              = leftBehind held data done' step
      | none =>
          match (wsCopySteps held existed (data.drop done) (data.take done) steps).status with
          | none => lastClose (data.length - done) steps = none
          | some status =>
              (200 ≤ status ∧ status < 300) ∧
                (wsCopySteps held existed (data.drop done) (data.take done) steps).data =
                  some ((lastClose (data.length - done) steps).getD data) := by
  induction steps with
  | nil => exact fun _ _ => rfl
  | cons step steps ih =>
    intro done hdone
    simp only [firstFault, lastClose, wsCopySteps]
    by_cases hrevoked : (held && step.revoked) = true
    · simp [hrevoked, leftBehind]
    · by_cases hread : step.readFails = true
      · simp [hrevoked, hread, leftBehind]
      · have hchunk : (data.drop done).take WS_READ_CHUNK ≠ [] ↔ 0 < data.length - done := by
          rw [ne_eq, List.take_eq_nil_iff, List.drop_eq_nil_iff]
          simp only [WS_READ_CHUNK]
          omega
        by_cases hwrite : 0 < data.length - done ∧ step.writeFails.isSome = true
        · have hw := hchunk.mpr hwrite.1
          simp [hrevoked, hread, hwrite, hw, leftBehind]
        · -- nothing fails at this step: it is the last, or one of more
          have hfault : ((held && step.revoked) || step.readFails
              || (decide (0 < data.length - done) && step.writeFails.isSome)) = false := by
            simpa [hrevoked, hread] using hwrite
          have hskip : ¬((data.drop done).take WS_READ_CHUNK ≠ [] ∧ step.writeFails.isSome = true) := by
            rwa [hchunk]
          have hlen : ((data.drop done).take WS_READ_CHUNK).length < WS_READ_CHUNK
              ↔ data.length - done < WS_READ_CHUNK := by
            rw [List.length_take, List.length_drop]
            omega
          rw [if_neg (Bool.eq_false_iff.mp hfault), if_neg hrevoked, if_neg hread, if_neg hskip]
          by_cases hlast : data.length - done < WS_READ_CHUNK
          · rw [if_pos hlast, if_pos (hlen.mpr hlast), if_pos hlast]
            have hall : (data.drop done).take WS_READ_CHUNK = data.drop done :=
              List.take_of_length_le (by rw [List.length_drop]; omega)
            rw [hall, List.take_append_drop]
            exact ⟨by split <;> decide, rfl⟩
          · rw [if_neg hlast, if_neg (mt hlen.mp hlast), if_neg hlast, List.drop_drop, ← List.take_add,
              Nat.sub_sub]
            exact ih (done + WS_READ_CHUNK) (by omega)

/-! ### The handler, case by case -/

theorem parseMoveCopy_error {hdr : List UInt8} {rawpath : Str} {status : Nat}
    (h : parseMoveCopy hdr rawpath = .error status) : ¬(200 ≤ status ∧ status < 300) := by
  revert h
  fun_cases parseMoveCopy hdr rawpath
  all_goals
    rintro ⟨⟩
    try decide

theorem checkMoveCopy_error {s : BeebState} {c : Card} {r : MoveCopy} {status : Nat}
    (h : checkMoveCopy s c r = .error status) : ¬(200 ≤ status ∧ status < 300) := by
  revert h
  fun_cases checkMoveCopy s c r
  all_goals
    rintro ⟨⟩
    try decide

theorem checkMoveCopy_ok {s : BeebState} {c : Card} {r : MoveCopy} {source : Entry Stamp}
    (h : checkMoveCopy s c r = .ok source) :
    fStat c r.src = some source ∧ (fStat c r.dst).any Entry.isDir = false := by
  unfold checkMoveCopy at h
  split at h
  · cases h
  · split at h
    · cases h
    · next hsrc =>
      split at h
      · cases h
      · split at h
        · cases h
        · next hdir =>
          cases h
          exact ⟨hsrc, by simpa using hdir⟩

theorem unlinked_cases {c : Card} {r : MoveCopy} (hdir : (fStat c r.dst).any Entry.isDir = false) :
    (¬Replaces c r ∧ unlinked c r = c) ∨
      ∃ d, Replaces c r ∧ fatObject r.dst = some d ∧ unlinked c r = c.remove d := by
  unfold unlinked
  cases hstat : fStat c r.dst with
  | none =>
    refine .inl ⟨?_, rfl⟩
    rintro ⟨data, stamp, h⟩
    cases hstat.symm.trans h
  | some entry =>
    obtain ⟨d, hd, hget⟩ := Option.bind_eq_some_iff.mp hstat
    cases entry with
    | dir info =>
      rw [hstat] at hdir
      cases hdir
    | file data info readOnly =>
      cases readOnly with
      | true =>
        refine .inl ⟨?_, by simp [fUnlink, hd, canUnlink, hget]⟩
        rintro ⟨data', stamp, h⟩
        cases hstat.symm.trans h
      | false => exact .inr ⟨d, ⟨data, info, hstat⟩, hd, by simp [fUnlink, hd, canUnlink, hget]⟩

theorem not_untouched_remove {c : Card} {r : MoveCopy} {d : List Str} (hrep : Replaces c r)
    (hd : fatObject r.dst = some d) : ¬Untouched c (c.remove d) := by
  intro h
  obtain ⟨data, stamp, hstat⟩ := hrep
  have hget : c.get d = some (.file data stamp false) := by
    simpa [fStat, hd] using hstat
  have hat := h d
  rw [contents, contents, Files.get_remove, if_pos rfl, hget] at hat
  cases hat

theorem dstFree_remove {c : Card} {r : MoveCopy} {d : List Str} (hwf : WellFormed c)
    (hrep : Replaces c r) (hd : fatObject r.dst = some d) : DstFree (c.remove d) d := by
  have hne := fatObject_ne_nil hd
  obtain ⟨data, stamp, hstat⟩ := hrep
  have hget : c.get d = some (.file data stamp false) := by
    simpa [fStat, hd] using hstat
  refine ⟨by rw [Files.get_remove, if_pos rfl], ?_⟩
  have hparent : (c.remove d).get d.dropLast = c.get d.dropLast := by
    rw [Files.get_remove, if_neg (dropLast_ne_self hne)]
  rw [isDir_congr hparent]
  exact hwf d hne (by rw [hget]; rfl)

theorem moved_iff {c c₁ : Card} {s d : List Str} (hsrc : (c.get s).isSome = true)
    (hsame : ∀ k, k ≠ d → c₁.get k = c.get k) (hne : s ≠ d) :
    Moved c (c₁.move s d) s d ↔ ¬s <+: d := by
  constructor
  · rintro ⟨hdest, -⟩ hbelow
    have hnot : ¬d <+: s := fun h => hne (hbelow.eq_of_length_le h.length_le)
    have hat := hdest []
    rw [List.append_nil, List.append_nil, contents, contents,
      Files.get_move_source c₁ hnot hbelow] at hat
    rw [Option.map_none, eq_comm, Option.map_eq_none_iff] at hat
    rw [hat] at hsrc
    cases hsrc
  · intro hbelow
    refine ⟨fun k => ?_, fun k hs hd => ?_⟩
    · have hkd : s ++ k ≠ d := by
        rintro rfl
        exact hbelow (List.prefix_append s k)
      rw [contents, contents, Files.get_move_dest c₁ hbelow, hsame _ hkd]
    · have hkd : k ≠ d := by
        rintro rfl
        exact hd (List.prefix_refl k)
      rw [contents, contents, Files.get_move_other c₁ hs hd, hsame _ hkd]

theorem unlinked_of_none {c : Card} {r : MoveCopy} (hdir : (fStat c r.dst).any Entry.isDir = false)
    (hd : fatObject r.dst = none) : ¬Replaces c r ∧ unlinked c r = c := by
  rcases unlinked_cases hdir with h | ⟨d, -, hd', -⟩
  · exact h
  · cases hd.symm.trans hd'

theorem unlinked_spec {c : Card} {r : MoveCopy} {d : List Str} (hwf : WellFormed c)
    (hdir : (fStat c r.dst).any Entry.isDir = false) (hd : fatObject r.dst = some d) :
    (∀ k, k ≠ d → (unlinked c r).get k = c.get k) ∧
      (Untouched c (unlinked c r) ↔ ¬Replaces c r) ∧
      (DstFree (unlinked c r) d ↔ Replaces c r ∨ DstFree c d) := by
  rcases unlinked_cases hdir with ⟨hrep, heq⟩ | ⟨d', hrep, hd', heq⟩
  · rw [heq]
    exact ⟨fun _ _ => rfl, iff_of_true (fun _ => rfl) hrep, by simp [hrep]⟩
  · obtain rfl := Option.some.inj (hd.symm.trans hd')
    rw [heq]
    refine ⟨fun k hk => by rw [Files.get_remove, if_neg hk], ?_, ?_⟩
    · exact iff_of_false (not_untouched_remove hrep hd) (not_not_intro hrep)
    · exact iff_of_true (dstFree_remove hwf hrep hd) (.inl hrep)

section Contract

variable {isMove : Bool} {q : Except Nat MoveCopy} {r : MoveCopy} {c c' : Card} {status : Nat}

theorem atomic_refused (h : ¬(200 ≤ status ∧ status < 300)) :
    Atomic isMove q c (some status, c') ↔ Untouched c c' := by
  constructor
  · intro ha
    simpa [h] using ha status rfl
  · rintro hu _ ⟨⟩
    rwa [if_neg h]

theorem atomic_done {s d : List Str} (h : 200 ≤ status ∧ status < 300) (hq : q = .ok r)
    (hs : fatObject r.src = some s) (hd : fatObject r.dst = some d) :
    Atomic isMove q c (some status, c') ↔ if isMove then Moved c c' s d else Copied c c' s d := by
  subst hq
  constructor
  · intro ha
    have hdone := ha status rfl
    rw [if_pos h] at hdone
    obtain ⟨_, s', d', ⟨⟩, hs', hd', hdone⟩ := hdone
    obtain rfl := Option.some.inj (hs.symm.trans hs')
    obtain rfl := Option.some.inj (hd.symm.trans hd')
    exact hdone
  · rintro hdone _ ⟨⟩
    rw [if_pos h]
    exact ⟨r, s, d, rfl, hs, hd, hdone⟩

end Contract

theorem created_or_replaced (existed : Bool) :
    200 ≤ (if existed then 204 else 201) ∧ (if existed then 204 else 201) < 300 := by
  cases existed <;> decide

section Handler

variable {e : MoveCopyEnv} {c : Card} {r : MoveCopy} {source : Entry Stamp}

theorem davMove_atomic (hwf : WellFormed c) (hsrc : fStat c r.src = some source)
    (hdir : (fStat c r.dst).any Entry.isDir = false) (existed : Bool) :
    Atomic true (.ok r) c (davMove e (unlinked c r) r existed) ↔ ¬MoveSpoils e c r := by
  obtain ⟨s, hs, hget⟩ := Option.bind_eq_some_iff.mp hsrc
  cases hd : fatObject r.dst with
  | none =>
    -- there is no such place: the rename fails, and nothing was unlinked
    obtain ⟨hrep, hun⟩ := unlinked_of_none hdir hd
    have hmove : davMove e (unlinked c r) r existed = (some 500, c) := by
      simp [davMove, fRename, hd, hs, hun]
    rw [hmove, atomic_refused (by decide)]
    refine iff_of_true (fun _ => rfl) ?_
    rintro (⟨h, -⟩ | ⟨-, _, d, -, h, -⟩)
    · exact hrep h
    · cases hd.symm.trans h
  | some d =>
    obtain ⟨hsame, htouched, hfree⟩ := unlinked_spec hwf hdir hd
    have hfails : (e.renameFails || !canRename (unlinked c r) s d) = true →
        davMove e (unlinked c r) r existed = (some 500, unlinked c r) := by
      intro h
      simp [davMove, fRename, hd, hs, h]
    by_cases hsd : s = d
    · subst hsd
      -- both names are one directory entry
      have hspoils : MoveSpoils e c r ↔ Replaces c r := by
        constructor
        · rintro (⟨h, -⟩ | ⟨-, s', d', hs', hd', -, hne, -⟩)
          · exact h
          · exact absurd (Option.some.inj (hs'.symm.trans (hs.trans (hd.symm.trans hd')))) hne
        · exact fun h => .inl ⟨h, .inl (hs.trans hd.symm)⟩
      rcases unlinked_cases hdir with ⟨hrep, hun⟩ | ⟨d', hrep, hd', hun⟩
      · refine iff_of_true ?_ (mt hspoils.mp hrep)
        by_cases hren : e.renameFails = true
        · rw [hfails (by simp [hren]), atomic_refused (by decide)]
          exact htouched.mpr hrep
        · have hmove : davMove e (unlinked c r) r existed
              = (some (if existed then 204 else 201), c) := by
            simp [davMove, fRename, hd, hs, hun, hren, canRename, hget]
          rw [hmove, atomic_done (created_or_replaced existed) rfl hs hd]
          exact ⟨fun _ => rfl, fun _ _ _ => rfl⟩
      · obtain rfl := Option.some.inj (hd.symm.trans hd')
        refine iff_of_false ?_ (not_not_intro (hspoils.mpr hrep))
        have hgone : (unlinked c r).get s = none := by
          rw [hun, Files.get_remove, if_pos rfl]
        rw [hfails (by simp [canRename, hgone]), atomic_refused (by decide)]
        exact fun h => htouched.mp h hrep
    · have hsrc' : ((unlinked c r).get s).isSome = true := by
        rw [hsame s hsd, hget]
        rfl
      have hcan : canRename (unlinked c r) s d = true ↔ Replaces c r ∨ DstFree c d := by
        rw [← hfree]
        simp [canRename, hsrc', hsd, DstFree]
      by_cases hren : e.renameFails = true
      · rw [hfails (by simp [hren]), atomic_refused (by decide), htouched]
        simp [MoveSpoils, hren]
      · by_cases hplace : Replaces c r ∨ DstFree c d
        · have hmove : davMove e (unlinked c r) r existed
              = (some (if existed then 204 else 201), (unlinked c r).move s d) := by
            simp [davMove, fRename, hd, hs, hren, hcan.mpr hplace, hsd]
          rw [hmove, atomic_done (created_or_replaced existed) rfl hs hd, if_pos rfl,
            moved_iff (by rw [hget]; rfl) hsame hsd]
          simp [MoveSpoils, hren, hs, hd, hsd, hplace]
        · rw [hfails (by simp [mt hcan.mp hplace]), atomic_refused (by decide), htouched]
          simp only [not_or] at hplace
          simp [MoveSpoils, hs, hd, hplace]

theorem untouched_copyLeaves {c₁ : Card} {d : List Str} (hsame : ∀ k, k ≠ d → c₁.get k = c.get k)
    (data : Option (List UInt8)) :
    Untouched c (copyLeaves c₁ d data) ↔ contents c d = data.map some := by
  have hat : contents (copyLeaves c₁ d data) d = data.map some := by
    cases data <;> simp [copyLeaves, contents, Files.get_put, Files.get_remove, Entry.content]
  constructor
  · intro h
    rw [← h d, hat]
  · intro h k
    by_cases hk : k = d
    · rw [hk, hat, h]
    · cases data <;>
        simp [copyLeaves, contents, Files.get_put, Files.get_remove, hk, hsame k hk]

theorem copySteps_atomic {c₁ : Card} {s d : List Str} {data : List UInt8} {held : Bool}
    (hs : fatObject r.src = some s) (hd : fatObject r.dst = some d)
    (hget : c.get s = some source) (hdata : source.content = some data)
    (hsame : ∀ k, k ≠ d → c₁.get k = c.get k) (existed : Bool) (steps : List CopyStep) :
    Atomic false (.ok r) c ((wsCopySteps held existed data [] steps).status,
        copyLeaves c₁ d (wsCopySteps held existed data [] steps).data) ↔
      ¬match firstFault held data.length 0 steps with
        | some (done, step) => contents c d ≠ (leftBehind held data done step).map some
        | none => (lastClose data.length steps).getD data ≠ data := by
  have hspec := wsCopySteps_eq held existed data steps 0 (Nat.zero_le _)
  simp only [List.drop_zero, List.take_zero, Nat.sub_zero] at hspec
  cases hfault : firstFault held data.length 0 steps with
  | some fault =>
    obtain ⟨done, step⟩ := fault
    rw [hfault] at hspec
    obtain ⟨⟨status, hstatus, hrange⟩, hleft⟩ := hspec
    rw [hstatus, hleft, atomic_refused hrange, untouched_copyLeaves hsame]
    exact not_ne_iff.symm
  | none =>
    rw [hfault] at hspec
    cases hstatus : (wsCopySteps held existed data [] steps).status with
    | none =>
      rw [hstatus] at hspec
      exact iff_of_true (fun _ h => nomatch h) (by rw [hspec]; simp)
    | some status =>
      rw [hstatus] at hspec
      obtain ⟨hrange, hall⟩ := hspec
      rw [hall, atomic_done hrange rfl hs hd, if_neg Bool.false_ne_true]
      simp only [copyLeaves, ne_eq, Decidable.not_not]
      constructor
      · rintro ⟨hat, -⟩
        rw [contents, contents, Files.get_put, if_pos rfl, hget, Option.map_some, Option.map_some, hdata] at hat
        exact Option.some.inj (Option.some.inj hat)
      · intro hkept
        rw [hkept]
        constructor
        · simp only [contents, Files.get_put, if_pos, hget, Option.map_some, hdata]
          rfl
        · intro k hk
          simp [contents, Files.get_put, hk, hsame k hk]

theorem canCreate_unlinked {d : List Str} (hwf : WellFormed c)
    (hdir : (fStat c r.dst).any Entry.isDir = false) (hd : fatObject r.dst = some d) :
    canCreate (unlinked c r) d = true ↔ Replaces c r ∨ DstFree c d := by
  obtain ⟨-, -, hfree⟩ := unlinked_spec hwf hdir hd
  rw [← hfree]
  rcases unlinked_cases hdir with ⟨hrep, hun⟩ | ⟨d', hrep, hd', hun⟩
  · rw [hun, canCreate, DstFree]
    cases hget : c.get d with
    | none => simp
    | some entry =>
      cases entry with
      | dir info => simp
      | file data stamp readOnly =>
        cases readOnly with
        | true => simp
        | false => exact absurd ⟨data, stamp, by rw [fStat, hd]; exact hget⟩ hrep
  · have hplace := hfree.mpr (.inl hrep)
    refine iff_of_true ?_ hplace
    rw [canCreate, hplace.1]
    exact hplace.2

theorem davCopy_alias {s : List Str} {data : List UInt8} {stamp : Stamp} {readOnly : Bool}
    (hs : fatObject r.src = some s) (hd : fatObject r.dst = some s)
    (hget : c.get s = some (.file data stamp readOnly))
    (hdir : (fStat c r.dst).any Entry.isDir = false) (hactive : ¬e.copyActive = true)
    (existed : Bool) :
    davCopy e (unlinked c r) r existed (.file data stamp readOnly) = (some 500, unlinked c r) := by
  rcases unlinked_cases hdir with ⟨hrep, hun⟩ | ⟨d', hrep, hd', hun⟩
  · have hcreate : canCreate c s = false := by
      cases readOnly with
      | true => simp [canCreate, hget]
      | false => exact absurd ⟨data, stamp, by rw [fStat, hd]; exact hget⟩ hrep
    rw [hun]
    simp only [davCopy, Entry.isDir, hactive, Bool.false_eq_true, if_false]
    split
    · rfl
    · simp [fCreate, hd, Option.filter, hcreate]
  · obtain rfl := Option.some.inj (hd.symm.trans hd')
    have hgone : (unlinked c r).get s = none := by
      rw [hun, Files.get_remove, if_pos rfl]
    simp [davCopy, Entry.isDir, hactive, fOpenRead, fStat, hs, hgone]

theorem davCopy_atomic (hwf : WellFormed c) (hsrc : fStat c r.src = some source)
    (hdir : (fStat c r.dst).any Entry.isDir = false) (existed : Bool) :
    Atomic false (.ok r) c (davCopy e (unlinked c r) r existed source)
      ↔ ¬CopySpoils e c r source := by
  obtain ⟨s, hs, hget⟩ := Option.bind_eq_some_iff.mp hsrc
  cases hd : fatObject r.dst with
  | none =>
    obtain ⟨hrep, hun⟩ := unlinked_of_none hdir hd
    refine iff_of_true ?_ (by simp [CopySpoils, hrep, hd])
    have hcopy : ∃ status, davCopy e c r existed source = (some status, c)
        ∧ ¬(200 ≤ status ∧ status < 300) := by
      unfold davCopy
      split
      · exact ⟨501, rfl, by decide⟩
      · split
        · exact ⟨503, rfl, by decide⟩
        · split
          · exact ⟨500, rfl, by decide⟩
          · exact ⟨500, by simp [fCreate, hd], by decide⟩
    obtain ⟨status, hstatus, hrange⟩ := hcopy
    rw [hun, hstatus, atomic_refused hrange]
    exact fun _ => rfl
  | some d =>
    obtain ⟨hsame, htouched, hfree⟩ := unlinked_spec hwf hdir hd
    have hrefused : ∀ status, ¬(200 ≤ status ∧ status < 300) →
        davCopy e (unlinked c r) r existed source = (some status, unlinked c r) →
          (Atomic false (.ok r) c (davCopy e (unlinked c r) r existed source) ↔ ¬Replaces c r) := by
      intro status hrange h
      rw [h, atomic_refused hrange, htouched]
    cases source with
    | dir info =>
      rw [hrefused 501 (by decide) (by simp [davCopy, Entry.isDir])]
      simp [CopySpoils, Entry.isDir, Entry.content]
    | file data stamp readOnly =>
      by_cases hactive : e.copyActive = true
      · rw [hrefused 503 (by decide) (by simp [davCopy, Entry.isDir, hactive])]
        simp [CopySpoils, hactive]
      · by_cases hsd : s = d
        · subst hsd
          have heq := hs.trans hd.symm
          rw [hrefused 500 (by decide) (davCopy_alias hs hd hget hdir hactive existed)]
          simp [CopySpoils, heq]
        · have hget' := (hsame s hsd).trans hget
          by_cases hsrcFails : e.openSrcFails = true
          · rw [hrefused 500 (by decide) (by simp [davCopy, Entry.isDir, hactive, fOpenRead, hsrcFails])]
            simp [CopySpoils, hsrcFails]
          · by_cases hdstFails : e.openDstFails = true
            · rw [hrefused 500 (by decide) (by
                simp [davCopy, Entry.isDir, hactive, fOpenRead, hsrcFails, fStat, hs, hget', fCreate,
                  hdstFails, Entry.content])]
              simp [CopySpoils, hdstFails]
            · have hcan := canCreate_unlinked hwf hdir hd
              by_cases hplace : Replaces c r ∨ DstFree c d
              · have hcopy : davCopy e (unlinked c r) r existed (.file data stamp readOnly)
                    = ((wsCopySteps (lunOfHostPath e.beeb.luns r.dst) existed data [] e.steps).status,
                      copyLeaves (unlinked c r) d
                        (wsCopySteps (lunOfHostPath e.beeb.luns r.dst) existed data [] e.steps).data) := by
                  simp [davCopy, Entry.isDir, hactive, fOpenRead, hsrcFails, fStat, hs, hget', fCreate,
                    hdstFails, Entry.content, hd, Option.filter, hcan.mpr hplace]
                rw [hcopy, copySteps_atomic hs hd hget rfl hsame existed e.steps]
                simp [CopySpoils, hactive, hsrcFails, hdstFails, hs, hd, hsd, hplace, Entry.isDir,
                  Entry.content]
              · rw [hrefused 500 (by decide) (by
                  simp [davCopy, Entry.isDir, hactive, fOpenRead, hsrcFails, fStat, hs, hget', fCreate,
                    hdstFails, Entry.content, hd, Option.filter, mt hcan.mp hplace])]
                simp only [not_or] at hplace
                simp [CopySpoils, hplace, hd]

end Handler

def Spoils (e : MoveCopyEnv) (isMove : Bool) (hdr : List UInt8) (rawpath : Str) (c : Card) : Prop :=
  ∃ r source, parseMoveCopy hdr rawpath = .ok r ∧ checkMoveCopy e.beeb c r = .ok source ∧
    if isMove then MoveSpoils e c r else CopySpoils e c r source

/-- A card with the one file `/A.TXT`. -/
def oneFileCard : Card := [([lit ['A', '.', 'T', 'X', 'T']], .file [0x31] nortcStamp false)]

theorem wellFormed_oneFileCard : WellFormed oneFileCard := by
  intro k _ h
  have hk : k = [lit ['A', '.', 'T', 'X', 'T']] := by
    by_contra hne
    have hget : oneFileCard.get k = Files.get [] k :=
      (Files.get_put [] _ _ k).trans (if_neg hne)
    rw [hget] at h
    cases h
  rw [hk]
  decide

/-- A request that gives `name` as its destination. -/
def withDestination (name : List Char) : List UInt8 :=
  lit (['M', 'O', 'V', 'E', ' ', '/', 'a', '.', 't', 'x', 't', ' ', 'H', 'T', 'T', 'P', '/', '1', '.',
    '1', '\r', '\n', 'D', 'e', 's', 't', 'i', 'n', 'a', 't', 'i', 'o', 'n', ':', ' ', '/']
    ++ name ++ ['\r', '\n', '\r', '\n'])

end Pi1MHz.Ws
