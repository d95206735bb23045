import Mathlib.Tactic.Common
import Pi1MHz.WsServer

/-!
# The web server: browser uploads

`upload_consume` and `upload_feed_data` as the code runs them, in slices of the segment through the working
buffer, with the bytes that may be the beginning of a boundary held back in `up_tail`.
-/

namespace Pi1MHz.Ws

open Server (childPath partPath WS_UPLOAD_HEAD_MAX wsFindHeaderEnd uploadName)

/-! ### The code -/

def WS_BOUNDARY_MAX : Nat := 128

/-- The size of `up_tail`. -/
def UP_TAIL_SIZE : Nat := WS_BOUNDARY_MAX + 8

/-- `up_state`. -/
inductive UpState where
  | partHeader
  | data
  | epilogue
  | failed
deriving DecidableEq, Repr

/-- What can go wrong: the Beeb holds the target when the part begins or when it ends, has started the drive, or a
call of FatFs fails. -/
structure UploadEnv where
  busyAtBegin : Bool := false
  createFails : Bool := false
  started : Bool := false
  fails : Nat → Option Nat := fun _ => none
  closeFails : Bool := false
  busyAtEnd : Bool := false
  renameFails : Bool := false

/-- An upload: `up_*` of its connection, the files of the card, the answers that were queued, and how often
`upload_finish` was called. -/
structure UploadConn where
  dir : Str
  delim : List UInt8
  state : UpState := .partHeader
  head : List UInt8 := []
  tail : List UInt8 := []
  name : Str := []
  fileOpen : Bool := false
  tempExists : Bool := false
  sink : Sink := {}
  complete : Bool := false
  replies : List Nat := []
  finishes : Nat := 0
  files : Str → Option (List UInt8)

namespace UploadConn

def full (c : UploadConn) : Str := childPath c.dir c.name

def temp (c : UploadConn) : Str := partPath c.full

def setFile (c : UploadConn) (path : Str) (data : Option (List UInt8)) : UploadConn :=
  { c with files := Function.update c.files path data }

/-- `f_close` of the temporary file. -/
def closeFile (c : UploadConn) : UploadConn := { c.setFile c.temp (some c.sink.written) with fileOpen := false }

def uploadDiscardTemp (c : UploadConn) : UploadConn :=
  if c.tempExists then { c.setFile c.temp none with tempExists := false } else c

def uploadFail (c : UploadConn) : UploadConn :=
  let c := if c.fileOpen then c.closeFile else c
  let c := c.uploadDiscardTemp
  { c with state := .failed, replies := c.replies ++ [400] }

def uploadWrite (env : UploadEnv) (c : UploadConn) (bytes : List UInt8) : UploadConn :=
  if bytes = [] ∨ c.fileOpen = false then c
  else if env.started then uploadFail { c with sink := { c.sink with buf := [] } }
  else
    match c.sink.write ⟨false, env.fails⟩ bytes with
    | .ok sink => { c with sink := sink }
    | .error e => uploadFail { c with sink := ⟨[], e.part⟩ }

def promote (env : UploadEnv) (c : UploadConn) : UploadConn :=
  if c.tempExists = false then c
  else if env.busyAtEnd then c.uploadFail
  else if env.renameFails then uploadFail { c.setFile c.full none with tempExists := false }
  else { (c.setFile c.full (c.files c.temp)).setFile c.temp none with tempExists := false }

def succeed (c : UploadConn) : UploadConn :=
  if c.state = .failed then c
  else { c with complete := true, state := .epilogue, replies := c.replies ++ [200] }

/-- `upload_finish`.  A last burst that fails has been answered, and the file closed, when the file is closed again. -/
def uploadFinish (env : UploadEnv) (c : UploadConn) : UploadConn :=
  let c := { c with finishes := c.finishes + 1 }
  if c.fileOpen then
    match c.sink.flush ⟨false, env.fails⟩ with
    | .error e => uploadFail (uploadFail { c with sink := ⟨[], e.part⟩ })
    | .ok sink =>
      let c := closeFile { c with sink := sink }
      if env.closeFails then c.uploadFail else (c.promote env).succeed
  else (c.promote env).succeed

def uploadBeginPart (env : UploadEnv) (c : UploadConn) : UploadConn :=
  match uploadName c.head with
  | none => c.uploadFail
  | some name =>
    let c := { c with name := name }
    if env.busyAtBegin then c.uploadFail
    else if env.createFails then c.uploadFail
    else { c.setFile c.temp (some []) with tempExists := true, fileOpen := true, sink := {} }

def uploadFeedData (env : UploadEnv) : Nat → UploadConn → List UInt8 → Option UploadConn
  | 0, c, _ => some c
  | fuel + 1, c, data =>
    if data = [] ∨ c.state ≠ .data then some c
    else do
      guard (c.tail.length ≤ WS_UPLOAD_WORK)
      let slice := min data.length (WS_UPLOAD_WORK - c.tail.length)
      guard (c.tail.length + slice ≤ WS_UPLOAD_WORK)
      let work := c.tail ++ data.take slice
      let rest := data.drop slice
      match wsMemfind c.delim work with
      | some found =>
        let inWork := (work.drop (found + c.delim.length)).take 2
        let peek := inWork ++ rest.take (2 - inWork.length)
        if peek.length < 2 then
          let c := c.uploadWrite env (work.take found)
          if c.state ≠ .data then return c
          else
            guard (found + c.delim.length ≤ work.length)
            guard (c.delim.length + peek.length ≤ UP_TAIL_SIZE)
            return { c with tail := (work.drop found).take c.delim.length ++ peek }
        else if peek ≠ [0x2D, 0x2D] then return c.uploadFail
        else
          let c := c.uploadWrite env (work.take found)
          if c.state ≠ .data then return c else return uploadFinish env { c with tail := [] }
      | none =>
        let writeable := work.length - (c.delim.length - 1)
        let c := c.uploadWrite env (work.take writeable)
        if c.state ≠ .data then return c
        else
          guard (work.length - writeable ≤ UP_TAIL_SIZE)
          uploadFeedData env fuel { c with tail := work.drop writeable } rest

def uploadBody (env : UploadEnv) (c : UploadConn) (data : List UInt8) : Option UploadConn :=
  if c.state = .data then c.uploadFeedData env data.length data else some c

def uploadConsume (env : UploadEnv) (c : UploadConn) (data : List UInt8) : Option UploadConn :=
  if data = [] ∨ c.state ≠ .partHeader then c.uploadBody env data
  else do
    let take := min data.length (WS_UPLOAD_HEAD_MAX - c.head.length)
    guard (c.head.length + take ≤ WS_UPLOAD_HEAD_MAX)
    let c := { c with head := c.head ++ data.take take }
    match wsFindHeaderEnd c.head with
    | some bodyAt =>
      let c := c.uploadBeginPart env
      if c.state = .failed then return c
      else
        let c ← uploadBody env { c with state := .data, tail := [] } (c.head.drop bodyAt)
        c.uploadBody env (data.drop take)
    | none => if WS_UPLOAD_HEAD_MAX ≤ c.head.length then return c.uploadFail else return c

def uploadSegments (c : UploadConn) (segments : List (UploadEnv × List UInt8)) : Option UploadConn :=
  segments.foldlM (fun c seg => c.uploadConsume seg.1 seg.2) c

/-- `route_upload`, when the boundary is known. -/
def start (dir boundary : Str) (files : Str → Option (List UInt8)) : UploadConn :=
  { dir := dir, delim := [0x0D, 0x0A, 0x2D, 0x2D] ++ boundary, files := files }

/-! ### Rounds -/

structure Quiet (env : UploadEnv) : Prop where
  started : env.started = false
  fails : ∀ n, env.fails n = none

theorem uploadFail_failed (c : UploadConn) : c.uploadFail.state = .failed := rfl

theorem uploadFail_ne_data (c : UploadConn) : c.uploadFail.state ≠ .data := by
  rw [uploadFail_failed]
  decide

theorem uploadWrite_cases (env : UploadEnv) (c : UploadConn) (hopen : c.fileOpen = true) (bytes : List UInt8) :
    (∃ sink, c.uploadWrite env bytes = { c with sink := sink } ∧ sink.all = c.sink.all ++ bytes) ∨
      ∃ sink, c.uploadWrite env bytes = uploadFail { c with sink := sink } ∧ ¬ Quiet env := by
  unfold uploadWrite
  by_cases hempty : bytes = [] ∨ c.fileOpen = false
  · rw [if_pos hempty]
    have hnil : bytes = [] := hempty.resolve_right (by rw [hopen]; exact Bool.true_eq_false.mp)
    exact .inl ⟨c.sink, rfl, by rw [hnil, List.append_nil]⟩
  rw [if_neg hempty]
  by_cases hstarted : env.started = true
  · rw [if_pos hstarted]
    right
    refine ⟨_, rfl, ?_⟩
    intro hquiet
    rw [hquiet.started] at hstarted
    cases hstarted
  rw [if_neg hstarted]
  cases hwrite : c.sink.write ⟨false, env.fails⟩ bytes with
  | ok sink => exact .inl ⟨sink, rfl, Sink.write_ok hwrite⟩
  | error e =>
    right
    refine ⟨_, rfl, ?_⟩
    intro hquiet
    obtain ⟨sink, hsink⟩ := Sink.write_never (f := ⟨false, env.fails⟩) ⟨rfl, hquiet.fails⟩ c.sink bytes
    rw [hwrite] at hsink
    cases hsink

/-- What `upload_feed_data` makes of bytes that are taken apart into `r`. -/
inductive Fed (env : UploadEnv) (c : UploadConn) (r : PartScan) : UploadConn → Prop
  | more {sink : Sink} : r.ends = .more → sink.all = c.sink.all ++ r.out →
      Fed env c r { c with sink := sink, tail := r.tail }
  | failed {sink : Sink} {tail : List UInt8} : (Quiet env → r.ends = .another) →
      Fed env c r (uploadFail { c with sink := sink, tail := tail })
  | closing {sink : Sink} : r.ends = .closing → sink.all = c.sink.all ++ r.out →
      Fed env c r (uploadFinish env { c with sink := sink, tail := [] })

theorem Fed.behind {env : UploadEnv} {c c' : UploadConn} {r : PartScan} {out tail : List UInt8} {sink : Sink}
    (hsink : sink.all = c.sink.all ++ out) (h : Fed env { c with sink := sink, tail := tail } r c') :
    Fed env c { r with out := out ++ r.out } c' := by
  cases h with
  | more hends hall => exact .more hends (by rw [hall, hsink, List.append_assoc])
  | failed hquiet => exact .failed hquiet
  | closing hends hall => exact .closing hends (by rw [hall, hsink, List.append_assoc])

theorem Fed.stopped {env : UploadEnv} {c : UploadConn} {sink : Sink} (hquiet : ¬ Quiet env) (r : PartScan) :
    Fed env c r (uploadFail { c with sink := sink }) := by
  have hfailed : Fed env c r (uploadFail { c with sink := sink, tail := c.tail }) := by
    apply Fed.failed
    intro h
    exact absurd h hquiet
  exact hfailed

theorem take_slice (data : List UInt8) (n : Nat) : data.take (min data.length n) = data.take n := by
  rw [← List.take_take]
  exact List.take_of_length_le (List.length_take_le' n data)

theorem drop_slice (data : List UInt8) (n : Nat) : data.drop (min data.length n) = data.drop n := by
  rcases Nat.le_total data.length n with hle | hle
  · rw [Nat.min_eq_left hle, List.drop_length, List.drop_of_length_le hle]
  · rw [Nat.min_eq_right hle]

theorem guard_eq_true {p : Prop} [Decidable p] (h : p) : (guard p : Option Unit) = pure () := if_pos h

theorem peek_eq (a b : List UInt8) : a.take 2 ++ b.take (2 - (a.take 2).length) = (a ++ b).take 2 := by
  rw [List.take_append, List.length_take]
  congr 2
  omega

theorem afterBoundary_eq (after : List UInt8) :
    ((after.take 2).length < 2 → afterBoundary after = .more ∧ after.take 2 = after) ∧
      (¬ (after.take 2).length < 2 →
        afterBoundary after = if after.take 2 = [0x2D, 0x2D] then .closing else .another) := by
  rw [List.length_take]
  unfold afterBoundary
  constructor
  · intro hshort
    have hlt : after.length < 2 := by omega
    exact ⟨if_pos hlt, List.take_of_length_le (by omega)⟩
  · intro hlong
    exact if_neg (by omega)

def Bounded (delim : List UInt8) : Prop := 0 < delim.length ∧ delim.length < WS_BOUNDARY_MAX + 4

theorem uploadFeedData_fed (env : UploadEnv) (fuel : Nat) (c : UploadConn) (data : List UInt8)
    (hopen : c.fileOpen = true) (hstate : c.state = .data) (hdelim : Bounded c.delim)
    (htail : c.tail.length ≤ c.delim.length + 1) (hfuel : data.length ≤ fuel) :
    ∃ c', c.uploadFeedData env fuel data = some c' ∧ Fed env c (uploadFeed c.delim fuel c.tail data) c' := by
  obtain ⟨hpos, hlen⟩ := hdelim
  induction fuel generalizing c data with
  | zero => exact ⟨c, rfl, .more rfl (List.append_nil _).symm⟩
  | succ fuel ih =>
    rw [uploadFeedData, uploadFeed]
    by_cases hempty : data = []
    · rw [if_pos (.inl hempty), if_pos hempty]
      exact ⟨c, rfl, .more rfl (List.append_nil _).symm⟩
    have hgo : ¬ (data = [] ∨ c.state ≠ .data) := not_or.mpr ⟨hempty, not_not.mpr hstate⟩
    have hroom : c.tail.length < WS_UPLOAD_WORK := by
      unfold WS_UPLOAD_WORK
      unfold WS_BOUNDARY_MAX at hlen
      omega
    have hdata : 0 < data.length := List.length_pos_iff.mpr hempty
    generalize hn : WS_UPLOAD_WORK - c.tail.length = n
    have hfits : c.tail.length + min data.length n ≤ WS_UPLOAD_WORK := by omega
    rw [if_neg hgo, if_neg hempty, guard_eq_true (Nat.le_of_lt hroom)]
    simp only [pure_bind, take_slice, drop_slice, uploadScan, guard_eq_true hfits]
    generalize hw : c.tail ++ data.take n = work
    cases hfind : wsMemfind c.delim work with
    | some found =>
      simp only [Option.isSome_some, if_true, peek_eq]
      generalize hafter : work.drop (found + c.delim.length) ++ data.drop n = after
      obtain ⟨hshort, hlong⟩ := afterBoundary_eq after
      have hstarts := (wsMemfind_some hfind).1
      have hfits := found_fits hfind
      have hdelimAt : (work.drop found).take c.delim.length = c.delim :=
        (List.prefix_iff_eq_take.mp hstarts).symm
      by_cases hpeek : (after.take 2).length < 2
      · obtain ⟨hends, htake⟩ := hshort hpeek
        rw [if_pos hpeek]
        rcases uploadWrite_cases env c hopen (work.take found) with ⟨sink, hwrite, hall⟩ | ⟨sink, hwrite, hquiet⟩
        · rw [hwrite, if_neg (not_not.mpr hstate)]
          have htailFits : c.delim.length + (after.take 2).length ≤ UP_TAIL_SIZE := by
            unfold UP_TAIL_SIZE
            omega
          rw [guard_eq_true hfits, guard_eq_true htailFits]
          refine ⟨_, rfl, ?_⟩
          rw [hdelimAt]
          exact .more hends hall
        · rw [hwrite, if_pos (uploadFail_ne_data _)]
          exact ⟨_, rfl, .stopped hquiet _⟩
      · rw [if_neg hpeek]
        have hends := hlong hpeek
        by_cases hclosing : after.take 2 = [0x2D, 0x2D]
        · rw [if_pos hclosing] at hends
          rw [if_neg (not_not.mpr hclosing)]
          rcases uploadWrite_cases env c hopen (work.take found) with ⟨sink, hwrite, hall⟩ | ⟨sink, hwrite, hquiet⟩
          · rw [hwrite, if_neg (not_not.mpr hstate)]
            exact ⟨_, rfl, .closing hends hall⟩
          · rw [hwrite, if_pos (uploadFail_ne_data _)]
            exact ⟨_, rfl, .stopped hquiet _⟩
        · rw [if_neg hclosing] at hends
          rw [if_pos hclosing]
          have hfailed : Fed env c ⟨work.take found, c.delim ++ after.take 2, afterBoundary after⟩
              (uploadFail { c with sink := c.sink, tail := c.tail }) := .failed fun _ => hends
          exact ⟨_, rfl, hfailed⟩
    | none =>
      simp only [Option.isSome_none, Bool.false_eq_true, if_false]
      rcases uploadWrite_cases env c hopen (work.take (work.length - (c.delim.length - 1))) with
        ⟨sink, hwrite, hall⟩ | ⟨sink, hwrite, hquiet⟩
      · rw [hwrite, if_neg (not_not.mpr hstate)]
        have hheld : work.length - (work.length - (c.delim.length - 1)) ≤ UP_TAIL_SIZE := by
          unfold UP_TAIL_SIZE
          omega
        rw [guard_eq_true hheld]
        have hnext := ih { c with sink := sink, tail := work.drop (work.length - (c.delim.length - 1)) }
          (data.drop n) hopen hstate (by simp only [List.length_drop]; omega)
          (by rw [List.length_drop]; omega) hpos hlen
        obtain ⟨c', hfeed, hfed⟩ := hnext
        exact ⟨c', hfeed, hfed.behind hall⟩
      · rw [hwrite, if_pos (uploadFail_ne_data _)]
        exact ⟨_, rfl, .stopped hquiet _⟩

/-! ### The whole part -/

theorem partOf_stop {delim z : List UInt8} (hstop : (partOf delim z).ends ≠ .more) (y : List UInt8) :
    (partOf delim (z ++ y)).ends = (partOf delim z).ends ∧ (partOf delim (z ++ y)).out = (partOf delim z).out := by
  cases hfind : wsMemfind delim z with
  | none =>
    rw [partOf_none hfind] at hstop
    exact absurd rfl hstop
  | some found =>
    have hfits := found_fits hfind
    have hdrop : (z ++ y).drop (found + delim.length) = z.drop (found + delim.length) ++ y :=
      List.drop_append_of_le_length hfits
    rw [partOf_found hfind] at hstop
    rw [partOf_found hfind, partOf_found (wsMemfind_append_right hfind y), hdrop]
    have hlong : ¬ (z.drop (found + delim.length)).length < 2 := fun hlt => hstop (if_pos hlt)
    constructor
    · show afterBoundary _ = afterBoundary _
      unfold afterBoundary
      rw [if_neg hlong, if_neg (by rw [List.length_append]; omega), List.take_append_of_le_length (by omega)]
    · exact List.take_append_of_le_length (by omega)

structure Calm (env : UploadEnv) : Prop where
  closeFails : env.closeFails = false
  busyAtEnd : env.busyAtEnd = false
  renameFails : env.renameFails = false

/-- An upload whose part began as `c`, with `z` behind the header so far; nothing has stopped a write if `quiet`, and
nothing the end of the part if `calm`. -/
inductive Progress (quiet calm : Prop) (c : UploadConn) (z : List UInt8) : UploadConn → Prop
  | feeding {sink : Sink} : (partOf c.delim z).ends = .more → sink.all = (partOf c.delim z).out →
      Progress quiet calm c z { c with sink := sink, tail := (partOf c.delim z).tail }
  | failed {sink : Sink} {tail : List UInt8} : (quiet → (partOf c.delim z).ends = .another) →
      Progress quiet calm c z (uploadFail { c with sink := sink, tail := tail })
  | finished {env : UploadEnv} {sink : Sink} : (partOf c.delim z).ends = .closing →
      sink.all = (partOf c.delim z).out → (quiet → Quiet env) → (calm → Calm env) →
      Progress quiet calm c z (uploadFinish env { c with sink := sink, tail := [] })

theorem uploadFinish_over (env : UploadEnv) (c : UploadConn) :
    (c.uploadFinish env).state = .failed ∨ (c.uploadFinish env).state = .epilogue := by
  have hsucceed : ∀ c : UploadConn, c.succeed.state = .failed ∨ c.succeed.state = .epilogue := by
    intro c
    unfold succeed
    by_cases hfailed : c.state = .failed
    · rw [if_pos hfailed]
      exact .inl hfailed
    · rw [if_neg hfailed]
      exact .inr rfl
  unfold uploadFinish
  simp only
  split
  · split
    · exact .inl rfl
    · split
      · exact .inl rfl
      · exact hsucceed _
  · exact hsucceed _

theorem uploadBody_progress {quiet calm : Prop} {c : UploadConn} (hopen : c.fileOpen = true) (hstate : c.state = .data)
    (hdelim : Bounded c.delim) {z : List UInt8} {c' : UploadConn} (h : Progress quiet calm c z c') {env : UploadEnv}
    (hquiet : quiet → Quiet env) (hcalm : calm → Calm env) (data : List UInt8) :
    ∃ c'', c'.uploadBody env data = some c'' ∧ Progress quiet calm c (z ++ data) c'' := by
  cases h with
  | feeding hends hall =>
    rename_i sink
    have htail := length_partOf_tail hends
    have hsmall : c.delim.length + 1 < WS_UPLOAD_WORK := by
      have hlen := hdelim.2
      unfold WS_BOUNDARY_MAX at hlen
      unfold WS_UPLOAD_WORK
      omega
    have hwhole := uploadFeed_partOf hsmall data.length z data (Nat.le_refl _) hends
    obtain ⟨c'', hfeed, hfed⟩ := uploadFeedData_fed env data.length
      { c with sink := sink, tail := (partOf c.delim z).tail } data hopen hstate hdelim htail (Nat.le_refl _)
    refine ⟨c'', ?_, ?_⟩
    · rw [uploadBody, if_pos hstate]
      exact hfeed
    · simp only at hwhole hfed
      have hendsWhole : (partOf c.delim (z ++ data)).ends =
          (uploadFeed c.delim data.length (partOf c.delim z).tail data).ends := by rw [← hwhole]
      have htailWhole : (partOf c.delim (z ++ data)).tail =
          (uploadFeed c.delim data.length (partOf c.delim z).tail data).tail := by rw [← hwhole]
      have houtWhole : (partOf c.delim (z ++ data)).out = (partOf c.delim z).out ++
          (uploadFeed c.delim data.length (partOf c.delim z).tail data).out := by rw [← hwhole]
      cases hfed with
      | more hmore hsink =>
        simp only
        rw [← htailWhole]
        exact .feeding (hendsWhole.trans hmore) (by rw [hsink, houtWhole, hall])
      | failed hanother => exact .failed fun hq => hendsWhole.trans (hanother (hquiet hq))
      | closing hclosing hsink =>
        exact .finished (hendsWhole.trans hclosing) (by rw [hsink, houtWhole, hall]) hquiet hcalm
  | failed hanother =>
    refine ⟨_, if_neg (uploadFail_ne_data _), .failed ?_⟩
    intro hq
    have hends := hanother hq
    exact (partOf_stop (by rw [hends]; decide) data).1.trans hends
  | finished hclosing hall hq hc =>
    rename_i env' sink
    obtain ⟨hends, hout⟩ := partOf_stop (by rw [hclosing]; decide) data
    refine ⟨_, if_neg ?_, .finished (hends.trans hclosing) (by rw [hall, hout]) hq hc⟩
    rcases uploadFinish_over env' { c with sink := sink, tail := [] } with hover | hover
    · rw [hover]
      decide
    · rw [hover]
      decide

/-! ### Beginning and end -/

structure Untouched (files : Str → Option (List UInt8)) (c' : UploadConn) : Prop where
  finishes : c'.finishes = 0
  files : ∀ p, p ≠ c'.temp → c'.files p = files p

theorem setFile_files {c : UploadConn} {path p : Str} (hp : p ≠ path) (data : Option (List UInt8)) :
    (c.setFile path data).files p = c.files p := Function.update_of_ne hp _ _

theorem uploadFail_untouched {files : Str → Option (List UInt8)} {c : UploadConn} (h : Untouched files c) :
    Untouched files c.uploadFail := by
  obtain ⟨hfinishes, hfiles⟩ := h
  unfold uploadFail uploadDiscardTemp
  simp only
  by_cases hopen : c.fileOpen = true
  · rw [if_pos hopen]
    by_cases htemp : c.closeFile.tempExists = true
    · rw [if_pos htemp]
      refine ⟨hfinishes, fun p hp => ?_⟩
      exact (setFile_files hp none).trans ((setFile_files hp _).trans (hfiles p hp))
    · rw [if_neg htemp]
      exact ⟨hfinishes, fun p hp => (setFile_files hp _).trans (hfiles p hp)⟩
  · rw [if_neg hopen]
    by_cases htemp : c.tempExists = true
    · rw [if_pos htemp]
      exact ⟨hfinishes, fun p hp => (setFile_files hp none).trans (hfiles p hp)⟩
    · rw [if_neg htemp]
      exact ⟨hfinishes, hfiles⟩

theorem uploadBeginPart_cases (env : UploadEnv) (c : UploadConn) :
    (∃ name, uploadName c.head = some name ∧ env.busyAtBegin = false ∧ env.createFails = false ∧
        c.uploadBeginPart env = { setFile { c with name := name } ({ c with name := name } : UploadConn).temp
          (some []) with
          tempExists := true, fileOpen := true, sink := {} }) ∨
      ((c.uploadBeginPart env).state = .failed ∧
        (uploadName c.head = none ∨ env.busyAtBegin = true ∨ env.createFails = true) ∧
        ∀ files, Untouched files c → (∀ p, c.files p = files p) → Untouched files (c.uploadBeginPart env)) := by
  unfold uploadBeginPart
  cases hname : uploadName c.head with
  | none => exact .inr ⟨rfl, .inl rfl, fun files h _ => uploadFail_untouched h⟩
  | some name =>
    simp only
    by_cases hbusy : env.busyAtBegin = true
    · rw [if_pos hbusy]
      exact .inr ⟨rfl, .inr (.inl hbusy), fun files h hall => uploadFail_untouched ⟨h.finishes, fun p _ => hall p⟩⟩
    rw [if_neg hbusy]
    by_cases hcreate : env.createFails = true
    · rw [if_pos hcreate]
      exact .inr ⟨rfl, .inr (.inr hcreate), fun files h hall => uploadFail_untouched ⟨h.finishes, fun p _ => hall p⟩⟩
    · rw [if_neg hcreate]
      exact .inl ⟨name, rfl, Bool.eq_false_iff.mpr hbusy, Bool.eq_false_iff.mpr hcreate, rfl⟩

theorem temp_ne_full (c : UploadConn) : c.temp ≠ c.full := by
  intro h
  have hlength := congrArg List.length h
  unfold temp partPath at hlength
  rw [List.length_append] at hlength
  exact absurd hlength (by simp [lit])

theorem uploadFail_closed {c : UploadConn} (hclosed : c.fileOpen = false) :
    c.uploadFail.finishes = c.finishes ∧ c.uploadFail.sink = c.sink := by
  unfold uploadFail uploadDiscardTemp
  simp only [hclosed, Bool.false_eq_true, if_false]
  by_cases htemp : c.tempExists = true
  · rw [if_pos htemp]
    exact ⟨rfl, rfl⟩
  · rw [if_neg htemp]
    exact ⟨rfl, rfl⟩

theorem succeed_kept (c : UploadConn) : c.succeed.finishes = c.finishes ∧ c.succeed.sink = c.sink := by
  unfold succeed
  by_cases hfailed : c.state = .failed
  · rw [if_pos hfailed]
    exact ⟨rfl, rfl⟩
  · rw [if_neg hfailed]
    exact ⟨rfl, rfl⟩

theorem promote_kept (env : UploadEnv) {c : UploadConn} (hclosed : c.fileOpen = false) :
    (c.promote env).finishes = c.finishes ∧ (c.promote env).sink = c.sink := by
  unfold promote
  by_cases htemp : c.tempExists = false
  · rw [if_pos htemp]
    exact ⟨rfl, rfl⟩
  rw [if_neg htemp]
  by_cases hbusy : env.busyAtEnd = true
  · rw [if_pos hbusy]
    exact uploadFail_closed hclosed
  rw [if_neg hbusy]
  by_cases hrename : env.renameFails = true
  · rw [if_pos hrename]
    exact uploadFail_closed hclosed
  · rw [if_neg hrename]
    exact ⟨rfl, rfl⟩

theorem promote_calm {env : UploadEnv} (hcalm : Calm env) {c : UploadConn} (htemp : c.tempExists = true) :
    c.promote env = { (c.setFile c.full (c.files c.temp)).setFile c.temp none with tempExists := false } := by
  unfold promote
  rw [if_neg (by rw [htemp]; exact Bool.true_eq_false.mp), if_neg (by rw [hcalm.busyAtEnd]; exact Bool.false_ne_true),
    if_neg (by rw [hcalm.renameFails]; exact Bool.false_ne_true)]

theorem promoted_files (c : UploadConn) :
    ((c.setFile c.full (c.files c.temp)).setFile c.temp none).files c.full = c.files c.temp ∧
      ((c.setFile c.full (c.files c.temp)).setFile c.temp none).files c.temp = none ∧
      ∀ p, p ≠ c.full → p ≠ c.temp → ((c.setFile c.full (c.files c.temp)).setFile c.temp none).files p = c.files p := by
  refine ⟨?_, Function.update_self .., ?_⟩
  · exact (setFile_files (temp_ne_full c).symm none).trans (Function.update_self ..)
  · intro p hfull hp
    exact (setFile_files hp none).trans (setFile_files hfull _)

theorem uploadFinish_flushed {env : UploadEnv} {c : UploadConn} (hopen : c.fileOpen = true) {sink : Sink}
    (hsink : c.sink.flush ⟨false, env.fails⟩ = .ok sink) {c' : UploadConn}
    (hc' : closeFile { c with finishes := c.finishes + 1, sink := sink } = c') :
    c.uploadFinish env = if env.closeFails then c'.uploadFail else (c'.promote env).succeed := by
  unfold uploadFinish
  simp only [hopen, if_true, hsink, ← hc']

theorem uploadFinish_done {env : UploadEnv} {c : UploadConn} (hopen : c.fileOpen = true) (htemp : c.tempExists = true)
    (hstate : c.state = .data) (hquiet : Quiet env) :
    (c.uploadFinish env).finishes = c.finishes + 1 ∧ (c.uploadFinish env).sink.written = c.sink.all ∧
      (Calm env → (c.uploadFinish env).state = .epilogue ∧ (c.uploadFinish env).replies = c.replies ++ [200] ∧
        (c.uploadFinish env).files c.full = some c.sink.all ∧ (c.uploadFinish env).files c.temp = none ∧
        ∀ p, p ≠ c.full → p ≠ c.temp → (c.uploadFinish env).files p = c.files p) := by
  obtain ⟨sink, hsink⟩ := Sink.flush_never (f := ⟨false, env.fails⟩) ⟨rfl, hquiet.fails⟩ c.sink
  obtain ⟨-, hwritten⟩ := Sink.flush_ok hsink
  -- the upload with its last burst written and its file closed
  generalize hc' : closeFile { c with finishes := c.finishes + 1, sink := sink } = c'
  rw [uploadFinish_flushed hopen hsink hc']
  have hclosed : c'.fileOpen = false := by rw [← hc']; rfl
  have hfinishes : c'.finishes = c.finishes + 1 := by rw [← hc']; rfl
  have hsame : c'.sink.written = c.sink.all := by rw [← hc']; exact hwritten
  by_cases hclose : env.closeFails = true
  · rw [if_pos hclose]
    obtain ⟨hcount, hkept⟩ := uploadFail_closed hclosed
    refine ⟨hcount.trans hfinishes, by rw [hkept, hsame], ?_⟩
    intro hcalm
    rw [hcalm.closeFails] at hclose
    cases hclose
  rw [if_neg hclose]
  obtain ⟨hcount, hkept⟩ := promote_kept env hclosed
  obtain ⟨hcount', hkept'⟩ := succeed_kept (c'.promote env)
  refine ⟨hcount'.trans (hcount.trans hfinishes), by rw [hkept', hkept, hsame], ?_⟩
  intro hcalm
  have hpromoted := promote_calm hcalm (c := c') (by rw [← hc']; exact htemp)
  have hgoes : (c'.promote env).state ≠ .failed := by
    rw [hpromoted, ← hc']
    intro hfailed
    exact absurd (hstate.symm.trans hfailed) (by decide)
  obtain ⟨hfull, hgone, hothers⟩ := promoted_files c'
  rw [succeed, if_neg hgoes, hpromoted]
  have htempFile : ∀ p, p ≠ c.temp → c'.files p = c.files p := by
    intro p hp
    rw [← hc']
    exact setFile_files hp _
  subst hc'
  refine ⟨rfl, rfl, ?_, hgone, ?_⟩
  · rw [← hwritten]
    exact hfull.trans (Function.update_self ..)
  · intro p hp hp'
    exact (hothers p hp hp').trans (htempFile p hp')

end UploadConn

end Pi1MHz.Ws
