import Pi1MHz.WsPutNumbers

/-!
# The web server: writing into a file

A PUT with `?offset=N` writes its body into the file that is there, from the offset on.  The body goes to
the card in bursts of 32768 bytes, and the Beeb is asked for the file before each.
-/

namespace Pi1MHz.Ws.RangedPut

open FileTree Server

/-! ### The bytes of the target -/

def content (d : Disk) (k : List Str) : Option (List UInt8) := (d.card.get k).bind Entry.content

section Patches

variable {old w w' : List UInt8} {N : Nat} {d : Disk} {k : List Str} {path : Str}

theorem patch_nil (old : List UInt8) (N : Nat) : patch old N [] = old := by
  rw [patch, List.append_nil, List.length_nil, Nat.add_zero, List.take_append_drop]

theorem patch_patch (hN : N ≤ old.length) (h : w <+: w') : patch (patch old N w) N w' = patch old N w' := by
  have hle := h.length_le
  have htake : (old.take N).length = N := List.length_take_of_le hN
  have hfirst : (patch old N w).take N = old.take N := by
    rw [patch, List.append_assoc, List.take_append_of_le_length (by omega), List.take_take, Nat.min_self]
  have hlast : (patch old N w).drop (N + w'.length) = old.drop (N + w'.length) := by
    rw [patch, List.drop_append, List.length_append, htake, List.drop_drop,
      List.drop_eq_nil_of_le (by rw [List.length_append, htake]; omega), List.nil_append]
    congr 1
    omega
  rw [patch, hfirst, hlast]
  rfl

theorem patch_spec (h : N + w.length ≤ old.length) : (patch old N w).length = old.length ∧
    (∀ p < w.length, (patch old N w)[N + p]? = w[p]?) ∧
    ∀ p, p < N ∨ N + w.length ≤ p → (patch old N w)[p]? = old[p]? := by
  have htake : (old.take N).length = N := List.length_take_of_le (by omega)
  refine ⟨?_, fun p hp => ?_, fun p hp => ?_⟩
  · rw [patch, List.length_append, List.length_append, htake, List.length_drop]
    omega
  · rw [patch, List.getElem?_append_left (by rw [List.length_append, htake]; omega),
      List.getElem?_append_right (by omega), htake, Nat.add_sub_cancel_left]
  · rcases hp with hp | hp
    · rw [patch, List.append_assoc, List.getElem?_append_left (by omega), List.getElem?_take, if_pos hp]
    · rw [patch, List.getElem?_append_right (by rw [List.length_append, htake]; omega), List.length_append,
        htake, List.getElem?_drop]
      congr 1
      omega

theorem content_utime (d : Disk) (path : Str) (stamp : Stamp) (k : List Str) :
    content (d.utime path stamp) k = content d k := by
  rw [content, content, get_utime]
  split
  · rcases d.card.get k with _ | ⟨info⟩ | ⟨data, info, readOnly⟩
    · rfl
    · rfl
    · rfl
  · rfl

theorem content_patchFile (hpath : fatObject path = some k) (hold : content d k = some old) :
    content (d.patchFile path N w) k = some (patch old N w) := by
  rw [Disk.patchFile]
  simp only [hpath]
  rw [content] at hold
  rcases hget : d.card.get k with _ | ⟨info⟩ | ⟨data, info, readOnly⟩
  · rw [hget] at hold
    cases hold
  · rw [hget] at hold
    cases hold
  · rw [hget] at hold
    obtain rfl := Option.some.inj hold
    simp only [content, Files.get_put, if_true]
    rfl

end Patches

section Bursts

variable {d : Disk} {j : PutJob} {k : List Str} {old w : List UInt8} {N : Nat} {stamp : Stamp}

variable (hplace : j.inPlace = some (N, stamp)) (hpath : fatObject j.target = some k) (hN : N ≤ old.length)

include hplace hpath hN

theorem content_putBurst (hold : content d k = some (patch old N j.sink.written)) (h : j.sink.written <+: w) :
    content (putBurst d j w) k = some (patch old N w) := by
  rw [putBurst]
  split
  · next hle =>
    rw [← h.eq_of_length_le hle]
    exact hold
  · rw [hplace]
    simp only
    rw [content_patchFile hpath hold, patch_patch hN h]

theorem content_putClose {w' : List UInt8} (hold : content d k = some (patch old N w)) (h : w <+: w') :
    content (putClose d j w') k = some (patch old N w') := by
  rw [putClose, hplace]
  simp only
  split
  · next hnil =>
    rw [hnil] at h ⊢
    rw [List.prefix_nil.mp h] at hold
    exact hold
  · rw [content_utime, content_patchFile hpath hold, patch_patch hN h]

theorem content_putDiscard {w' : List UInt8} (hold : content d k = some (patch old N w)) (h : w <+: w') :
    content (putDiscard d j w') k = some (patch old N w') := by
  have hclose := content_putClose (d := d) hplace hpath hN hold h
  rw [putDiscard]
  simp only [hplace, Option.isSome_some, if_true]
  exact hclose

end Bursts

/-! ### Staging -/

section Staging

variable {f : WriteFault} {s s' : Sink} {e : Stopped} {bytes : List UInt8}

theorem flush_first (h : s.flush f = .ok s') : s.written <+: s'.written := by
  rw [(Sink.flush_ok h).2]
  exact List.prefix_append _ _

theorem flush_error (h : s.flush f = .error e) : s.written <+: e.part ∧ e.part <+: s.all := by
  rw [Sink.flush] at h
  split at h
  · cases h
  · split at h
    · obtain rfl := Except.error.inj h
      exact ⟨List.prefix_refl _, List.prefix_append _ _⟩
    · split at h
      · obtain rfl := Except.error.inj h
        exact ⟨List.prefix_append _ _, (List.prefix_append_right_inj _).mpr (List.take_prefix _ _)⟩
      · cases h

theorem write_first (h : s.write f bytes = .ok s') : s.written <+: s'.written := by
  induction bytes generalizing s with
  | nil =>
    obtain rfl := Except.ok.inj h
    exact List.prefix_refl _
  | cons b bytes ih =>
    rw [Sink.write] at h
    simp only at h
    split at h
    · split at h
      · next s'' hflush => exact (flush_first hflush).trans (ih h)
      · cases h
    · have hnext := ih h
      exact hnext

theorem write_error (h : s.write f bytes = .error e) : s.written <+: e.part ∧ e.part <+: s.all ++ bytes := by
  induction bytes generalizing s with
  | nil => cases h
  | cons b bytes ih =>
    have hall : ({ s with buf := s.buf ++ [b] } : Sink).all ++ bytes = s.all ++ b :: bytes := by
      simp [Sink.all]
    rw [Sink.write] at h
    simp only at h
    rw [← hall]
    split at h
    · split at h
      · next s'' hflush =>
        obtain ⟨hbuf, hwritten⟩ := Sink.flush_ok hflush
        obtain ⟨hfirst, hlast⟩ := ih h
        have hall' : s''.all = ({ s with buf := s.buf ++ [b] } : Sink).all := by
          rw [Sink.all, hbuf, hwritten, List.append_nil]
        rw [hall'] at hlast
        exact ⟨(flush_first hflush).trans hfirst, hlast⟩
      · next hflush =>
        obtain rfl := Except.error.inj h
        obtain ⟨hfirst, hlast⟩ := flush_error hflush
        exact ⟨hfirst, hlast.trans (List.prefix_append _ _)⟩
    · exact ih h

end Staging

/-! ### A transfer -/

structure Quiet (f : Faults) : Prop where
  opens : f.openFails = false
  seeks : f.seekFails = false
  closes : f.closeFails = false
  writes : f.fails = fun _ => none

section Transfer

variable (i : Nat) (k : List Str) (sdpath : Str)

/-- A run of a PUT on connection `i`, seen from its target: the server, what has come in of the body, and
that nothing has stopped the transfer.  Whatever else happens leaves the target and the connection
alone. -/
inductive Transfer (s : Server) (r : PutRequest) (L : Nat) : Server → List UInt8 → Prop → Prop
  | request (f : Faults) : Transfer s r L (s.step (.request i (.put r) f)) r.already
      (Quiet f ∧ ∀ a, s.reply (.request i (.put r) f) = some a → a.status < 400)
  | data {t body free} (h : Transfer s r L t body free) (bytes : List UInt8) (f : Faults) :
      Transfer s r L (t.step (.data i bytes f)) (body ++ bytes)
        (free ∧ Quiet f ∧ wsBeebPathBusy t.beeb sdpath = false)
  | ends {t body free} (h : Transfer s r L t body free) (e : Event)
      (he : e = .close i ∨ e = .reset i ∨ e = .err i) :
      Transfer s r L (t.step e) body (free ∧ L ≤ body.length)
  | elsewhere {t body free} (h : Transfer s r L t body free) (e : Event)
      (hfile : content (t.step e).disk k = content t.disk k) (hjob : (t.step e).jobs i = t.jobs i) :
      Transfer s r L (t.step e) body free

/-- The first `m` bytes of the body are in the file from `N` on, and the rest is as it was. -/
structure Patched (old new body : List UInt8) (N m : Nat) : Prop where
  size : new.length = old.length
  written : ∀ p < m, new[N + p]? = body[p]?
  others : ∀ p, p < N ∨ N + m ≤ p → new[p]? = old[p]?

def Framed (head already : List UInt8) : Prop :=
  lengthText head = none → ¬ headChunked head → already = []

end Transfer

/-- Where a ranged PUT begins: connection `i` is idle, and the target is a file. -/
structure Begins (s : Server) (i : Nat) (rawpath sdpath : Str) (k : List Str) (old : List UInt8) : Prop where
  idle : s.jobs i = .none
  path : davUrlToSdpath rawpath WS_PATH_MAX = some sdpath
  entry : fatObject sdpath = some k
  file : content s.disk k = some old
  size : old.length ≤ UINT32_MAX

structure NoFile (s : Server) (i : Nat) (rawpath sdpath : Str) (k : List Str) : Prop where
  idle : s.jobs i = .none
  path : davUrlToSdpath rawpath WS_PATH_MAX = some sdpath
  entry : fatObject sdpath = some k
  file : content s.disk k = none

/-- A query that is no offset never changes the target, and none makes a file; with an offset and a length,
first bytes of the body get to where they belong, all `L` of them if the request is accepted, the body
complete and nothing stops the transfer. -/
def RangedExact (query : Str) (head : List UInt8) : Prop :=
  (∀ s i rawpath sdpath k already, NoFile s i rawpath sdpath k → ∀ L t body free,
    Transfer i k sdpath s (putRequest rawpath (some query) head already) L t body free →
      content t.disk k = none) ∧
  ∀ s i rawpath sdpath k old already, Begins s i rawpath sdpath k old → Framed head already →
    (askedOffset query = none → ∀ L t body free,
      Transfer i k sdpath s (putRequest rawpath (some query) head already) L t body free →
        content t.disk k = some old) ∧
    ∀ N L, askedOffset query = some N → askedLength head = some L → ∀ t body free,
      Transfer i k sdpath s (putRequest rawpath (some query) head already) L t body free →
        ∃ new m, content t.disk k = some new ∧ m ≤ L ∧ m ≤ body.length ∧ Patched old new body N m ∧
          (free → L ≤ body.length → m = L)

section Steps

variable {i : Nat} {k : List Str} {sdpath : Str} {old body bytes : List UInt8} {N L : Nat} {s t : Server}
  {j : PutJob} {f : Faults} {free : Prop} {r : PutRequest}

structure Staged (k : List Str) (sdpath : Str) (old : List UInt8) (N L : Nat) (t : Server) (body : List UInt8)
    (j : PutJob) : Prop where
  target : j.target = sdpath
  inPlace : ∃ stamp, j.inPlace = some (N, stamp)
  answered : j.answered = false
  left : j.body = .fixed (L - body.length)
  more : body.length < L
  staged : j.sink.all = body
  fits : N + L ≤ old.length
  file : content t.disk k = some (patch old N j.sink.written)

/-- A transfer that is over, with `m` bytes of the body in the file. -/
structure Over (i : Nat) (k : List Str) (old : List UInt8) (N L : Nat) (t : Server) (body : List UInt8)
    (free : Prop) (m : Nat) : Prop where
  job : t.jobs i = .none
  short : m ≤ L ∧ m ≤ body.length
  fits : m = 0 ∨ N + L ≤ old.length
  file : content t.disk k = some (patch old N (body.take m))
  whole : free → m = L

def Held (i : Nat) (k : List Str) (sdpath : Str) (old : List UInt8) (N L : Nat) (t : Server)
    (body : List UInt8) (free : Prop) : Prop :=
  (∃ j, t.jobs i = .put j ∧ Staged k sdpath old N L t body j) ∨ ∃ m, Over i k old N L t body free m

theorem answer_job (s : Server) (i status : Nat) : (s.answer i status).1.jobs i = .none := if_pos rfl

theorem complete_job (s : Server) (i status : Nat) (op : WebOp) :
    (s.complete i status op).1.jobs i = .none := if_pos rfl

theorem Over.of_first {w : List UInt8} (hjob : t.jobs i = .none) (hw : w <+: body) (hle : w.length ≤ L)
    (hfits : N + L ≤ old.length) (hfile : content t.disk k = some (patch old N w))
    (hwhole : free → w.length = L) : Over i k old N L t body free w.length := by
  refine ⟨hjob, ⟨hle, hw.length_le⟩, .inr hfits, ?_, hwhole⟩
  rw [← List.prefix_iff_eq_take.mp hw]
  exact hfile

theorem Staged.finish (hpath : fatObject sdpath = some k) (htarget : j.target = sdpath) {stamp : Stamp}
    (hplace : j.inPlace = some (N, stamp)) (hfits : N + L ≤ old.length)
    (hfile : content s.disk k = some (patch old N j.sink.written)) (hall : j.sink.all = body.take L)
    (hbody : L ≤ body.length) :
    ∃ m, Over i k old N L (s.davPutFinish i j f).1 body
      (Quiet f ∧ wsBeebPathBusy s.beeb sdpath = false) m := by
  have hpath' : fatObject j.target = some k := by rw [htarget]; exact hpath
  have hN : N ≤ old.length := (Nat.le_add_right N L).trans hfits
  have hlen : (body.take L).length = L := List.length_take_of_le hbody
  rw [davPutFinish]
  rcases hflush : j.sink.flush ⟨j.inPlace.isSome && wsBeebPathBusy s.beeb j.target, f.fails⟩ with e | sink
  · obtain ⟨hfirst, hlast⟩ := flush_error hflush
    rw [hall] at hlast
    refine ⟨e.part.length, .of_first (answer_job _ _ _) (hlast.trans (List.take_prefix _ _))
      (hlast.length_le.trans hlen.le) hfits (content_putDiscard hplace hpath' hN hfile hfirst) fun hfree => ?_⟩
    have hnever : WriteFault.Never ⟨j.inPlace.isSome && wsBeebPathBusy s.beeb j.target, f.fails⟩ := by
      refine ⟨?_, fun n => by rw [hfree.1.writes]⟩
      rw [htarget, hfree.2, Bool.and_false]
    obtain ⟨sink, hsink⟩ := Sink.flush_never hnever j.sink
    exact absurd (hflush.symm.trans hsink) (by nofun)
  · have hwritten : sink.written = body.take L := (Sink.flush_ok hflush).2.trans hall
    have hclose := content_putClose hplace hpath' hN hfile (flush_first hflush)
    simp only
    split
    · refine ⟨sink.written.length, .of_first (answer_job _ _ _) ?_ ?_ hfits
        (content_putDiscard hplace hpath' hN hfile (flush_first hflush)) fun _ => ?_⟩
      · rw [hwritten]
        exact List.take_prefix _ _
      · rw [hwritten, hlen]
      · rw [hwritten, hlen]
    · rw [hplace]
      simp only
      refine ⟨sink.written.length, .of_first (complete_job _ _ _ _) ?_ ?_ hfits ?_ fun _ => ?_⟩
      · rw [hwritten]
        exact List.take_prefix _ _
      · rw [hwritten, hlen]
      · exact (content_utime _ _ _ _).trans hclose
      · rw [hwritten, hlen]

theorem Staged.consume (h : Staged k sdpath old N L s body j) (hpath : fatObject sdpath = some k) :
    Held i k sdpath old N L (s.davPutConsume i j bytes f).1 (body ++ bytes)
      (Quiet f ∧ wsBeebPathBusy s.beeb sdpath = false) := by
  obtain ⟨htarget, ⟨stamp, hplace⟩, hanswered, hleft, hmore, hstaged, hfits, hfile⟩ := h
  have hpath' : fatObject j.target = some k := by rw [htarget]; exact hpath
  have hN : N ≤ old.length := (Nat.le_add_right N L).trans hfits
  have hfeed : body ++ bytes.take (L - body.length) = (body ++ bytes).take L := by
    rw [List.take_append, List.take_of_length_le hmore.le]
  rw [davPutConsume]
  simp only [hleft, Body.feed]
  rcases hwrite : j.sink.write ⟨j.inPlace.isSome && wsBeebPathBusy s.beeb j.target, f.fails⟩
    (bytes.take (L - body.length)) with e | sink
  · obtain ⟨hfirst, hlast⟩ := write_error hwrite
    rw [hstaged, hfeed] at hlast
    refine .inr ⟨e.part.length, .of_first (answer_job _ _ _) (hlast.trans (List.take_prefix _ _))
      (hlast.length_le.trans (List.length_take_le _ _)) hfits
      (content_putDiscard hplace hpath' hN hfile hfirst) fun hfree => ?_⟩
    have hnever : WriteFault.Never ⟨j.inPlace.isSome && wsBeebPathBusy s.beeb j.target, f.fails⟩ := by
      refine ⟨?_, fun n => by rw [hfree.1.writes]⟩
      rw [htarget, hfree.2, Bool.and_false]
    obtain ⟨sink, hsink⟩ := Sink.write_never hnever j.sink (bytes.take (L - body.length))
    cases hwrite.symm.trans hsink
  · have hall : sink.all = (body ++ bytes).take L := by
      rw [Sink.write_ok hwrite, hstaged, hfeed]
    have hburst := content_putBurst hplace hpath' hN hfile (write_first hwrite)
    simp only
    by_cases hdone : L - body.length ≤ bytes.length
    · rw [if_pos hdone]
      refine .inr (Staged.finish (s := s.onDisk _) hpath htarget hplace hfits hburst hall ?_)
      rw [List.length_append]
      omega
    · rw [if_neg hdone]
      refine .inl ⟨_, if_pos rfl, htarget, ⟨stamp, hplace⟩, hanswered, ?_, ?_, ?_, hfits, hburst⟩
      · rw [List.length_append]
        simp only
        congr 1
        omega
      · rw [List.length_append]
        omega
      · rw [hall]
        exact List.take_of_length_le (by rw [List.length_append]; omega)

end Steps

section Runs

variable {i : Nat} {k : List Str} {sdpath : Str} {old body bytes : List UInt8} {N L L' : Nat} {s t : Server}
  {f : Faults} {free free' : Prop} {r : PutRequest} {e : Event}

theorem Held.mono (h : Held i k sdpath old N L t body free) (hfree : free' → free) :
    Held i k sdpath old N L t body free' := by
  rcases h with hgoing | ⟨m, hjob, hshort, hfits, hfile, hwhole⟩
  · exact .inl hgoing
  · exact .inr ⟨m, hjob, hshort, hfits, hfile, fun h => hwhole (hfree h)⟩

theorem Held.data (h : Held i k sdpath old N L t body free) (hpath : fatObject sdpath = some k) :
    Held i k sdpath old N L (t.step (.data i bytes f)) (body ++ bytes)
      (free ∧ Quiet f ∧ wsBeebPathBusy t.beeb sdpath = false) := by
  rw [Server.step, Server.react, Server.consume]
  have hjobs : t.untouched.jobs i = t.jobs i := rfl
  rcases h with ⟨j, hjob, hgoing⟩ | ⟨m, hjob, hshort, hfits, hfile, hwhole⟩
  · have hstaged : Staged k sdpath old N L t.untouched body j :=
      { hgoing with }
    have hgo : ¬ j.answered = true := Bool.eq_false_iff.mp hgoing.answered
    simp only [hjobs, hjob]
    rw [if_neg hgo]
    exact (hstaged.consume hpath).mono And.right
  · simp only [hjobs, hjob]
    refine .inr ⟨m, hjob, ⟨hshort.1, ?_⟩, hfits, ?_, fun hfree => hwhole hfree.1⟩
    · rw [List.length_append]
      exact Nat.le_add_right_of_le hshort.2
    · rw [List.take_append_of_le_length hshort.2]
      exact hfile

theorem release_disk (s : Server) (i : Nat) : (s.wsCopySlotRelease i).disk = s.disk := by
  rw [wsCopySlotRelease]
  split
  · rfl
  · rfl

theorem Held.release (h : Held i k sdpath old N L t body free) (hpath : fatObject sdpath = some k)
    (hle : L ≤ L') : Held i k sdpath old N L (t.releaseFiles i) body (free ∧ L' ≤ body.length) := by
  have hjob : (t.releaseFiles i).jobs i = .none := if_pos rfl
  rcases h with ⟨j, hput, hgoing⟩ | ⟨m, hnone, hshort, hfits, hfile, hwhole⟩
  · obtain ⟨stamp, hplace⟩ := hgoing.inPlace
    have hpath' : fatObject j.target = some k := by rw [hgoing.target]; exact hpath
    have hN : N ≤ old.length := (Nat.le_add_right N L).trans hgoing.fits
    have hwritten : j.sink.written <+: body := by
      rw [← hgoing.staged]
      exact List.prefix_append _ _
    refine .inr ⟨j.sink.written.length, .of_first hjob hwritten (hwritten.length_le.trans hgoing.more.le)
      hgoing.fits ?_ fun hfree => ?_⟩
    · have hdisk : (t.releaseFiles i).disk = putDiscard t.disk j j.sink.written := by
        rw [releaseFiles]
        simp only [hput]
        exact release_disk _ i
      rw [hdisk]
      exact content_putDiscard hplace hpath' hN hgoing.file (List.prefix_refl _)
    · exact absurd (hle.trans hfree.2) (Nat.not_le_of_lt hgoing.more)
  · refine .inr ⟨m, hjob, hshort, hfits, ?_, fun hfree => hwhole hfree.1⟩
    have hdisk : (t.releaseFiles i).disk = t.disk := by
      rw [releaseFiles]
      simp only [hnone]
      exact release_disk _ i
    rw [hdisk]
    exact hfile

theorem Held.ends (h : Held i k sdpath old N L t body free) (hpath : fatObject sdpath = some k)
    (hle : L ≤ L') (he : e = .close i ∨ e = .reset i ∨ e = .err i) :
    Held i k sdpath old N L (t.step e) body (free ∧ L' ≤ body.length) := by
  have hbefore : Held i k sdpath old N L t.untouched body free := by
    rcases h with ⟨j, hjob, hgoing⟩ | ⟨m, hover⟩
    · exact .inl ⟨j, hjob, hgoing.target, hgoing.inPlace, hgoing.answered, hgoing.left, hgoing.more,
        hgoing.staged, hgoing.fits, hgoing.file⟩
    · exact .inr ⟨m, hover.job, hover.short, hover.fits, hover.file, hover.whole⟩
  rcases he with rfl | rfl | rfl
  · exact hbefore.release hpath hle
  · exact hbefore.release hpath hle
  · exact hbefore.release hpath hle

theorem Held.elsewhere (h : Held i k sdpath old N L t body free)
    (hfile : content (t.step e).disk k = content t.disk k) (hjob : (t.step e).jobs i = t.jobs i) :
    Held i k sdpath old N L (t.step e) body free := by
  rcases h with ⟨j, hput, hgoing⟩ | ⟨m, hover⟩
  · exact .inl ⟨j, hjob.trans hput, hgoing.target, hgoing.inPlace, hgoing.answered, hgoing.left, hgoing.more,
      hgoing.staged, hgoing.fits, hfile.trans hgoing.file⟩
  · exact .inr ⟨m, hjob.trans hover.job, hover.short, hover.fits, hfile.trans hover.file, hover.whole⟩

theorem transfer_held (hpath : fatObject sdpath = some k) (hle : L ≤ L')
    (hstart : ∀ f, Held i k sdpath old N L (s.step (.request i (.put r) f)) r.already
      (Quiet f ∧ ∀ a, s.reply (.request i (.put r) f) = some a → a.status < 400))
    (h : Transfer i k sdpath s r L' t body free) : Held i k sdpath old N L t body free := by
  induction h with
  | request f => exact hstart f
  | data _ bytes f ih => exact ih.data hpath
  | ends _ e he ih => exact ih.ends hpath hle he
  | elsewhere _ e hfile hjob ih => exact ih.elsewhere hfile hjob

theorem Held.patched (h : Held i k sdpath old N L t body free) :
    ∃ new m, content t.disk k = some new ∧ m ≤ L ∧ m ≤ body.length ∧ Patched old new body N m ∧
      (free → L ≤ body.length → m = L) := by
  have hpatched (m : Nat) (hL : m ≤ L) (hbody : m ≤ body.length) (hfits : m = 0 ∨ N + L ≤ old.length) :
      Patched old (patch old N (body.take m)) body N m := by
    rcases Nat.eq_zero_or_pos m with rfl | hpos
    · rw [List.take_zero, patch_nil]
      exact ⟨rfl, fun p hp => absurd hp (Nat.not_lt_zero p), fun _ _ => rfl⟩
    · have hlen : (body.take m).length = m := List.length_take_of_le hbody
      have hroom : N + (body.take m).length ≤ old.length := by
        rw [hlen]
        exact (Nat.add_le_add_left hL N).trans (hfits.resolve_left hpos.ne')
      obtain ⟨hsize, hwritten, hothers⟩ := patch_spec hroom
      rw [hlen] at hwritten hothers
      refine ⟨hsize, fun p hp => ?_, hothers⟩
      rw [hwritten p hp, List.getElem?_take, if_pos hp]
  rcases h with ⟨j, hput, hgoing⟩ | ⟨m, hover⟩
  · have hwritten : j.sink.written <+: body := by
      rw [← hgoing.staged]
      exact List.prefix_append _ _
    have hle := hwritten.length_le.trans hgoing.more.le
    refine ⟨_, j.sink.written.length, hgoing.file, hle, hwritten.length_le, ?_, fun _ hbody => ?_⟩
    · have hall := hpatched _ hle hwritten.length_le (.inr hgoing.fits)
      rw [← List.prefix_iff_eq_take.mp hwritten] at hall
      exact hall
    · exact absurd hbody (Nat.not_le_of_lt hgoing.more)
  · exact ⟨_, m, hover.file, hover.short.1, hover.short.2, hpatched m hover.short.1 hover.short.2 hover.fits,
      fun hfree _ => hover.whole hfree⟩

end Runs

/-! ### The request -/

section Request

variable {i : Nat} {k : List Str} {rawpath sdpath : Str} {old : List UInt8} {N L : Nat} {s : Server}
  {f : Faults} {r : PutRequest}

/-- The request is taken as an in-place write of `L` bytes from `N` on. -/
structure Accepts (s : Server) (r : PutRequest) (sdpath : Str) (old : List UInt8) (N L : Nat) : Prop where
  query : r.query = .ok (some N)
  unheld : wsBeebPathBusy s.beeb sdpath = false
  sized : r.chunked = false
  length : r.contentLength = .ok L
  fits : N + L ≤ old.length

theorem not_root (h : fatObject sdpath = some k) : wsIsRoot sdpath = false := by
  rw [wsIsRoot, beq_eq_false_iff_ne]
  rintro rfl
  have hnone : fatObject [0x2F] = none := by decide
  exact absurd (hnone.symm.trans h) (by nofun)

theorem Begins.entry_file (h : Begins s i rawpath sdpath k old) :
    ∃ stamp readOnly, fStat s.disk.card sdpath = some (.file old stamp readOnly) := by
  have hfile := h.file
  rw [fStat, h.entry, Option.bind_some]
  rw [content] at hfile
  rcases hget : s.disk.card.get k with _ | ⟨info⟩ | ⟨data, info, readOnly⟩
  · rw [hget] at hfile
    cases hfile
  · rw [hget] at hfile
    cases hfile
  · rw [hget] at hfile
    obtain rfl := Option.some.inj hfile
    exact ⟨info, readOnly, rfl⟩

theorem step_request (hidle : s.jobs i = .none) :
    s.step (.request i (.put r) f) = (s.untouched.routeDavPut i r f).1 ∧
      s.reply (.request i (.put r) f) = (s.untouched.routeDavPut i r f).2 := by
  have hidle' : s.untouched.jobs i = .none := hidle
  simp only [Server.step, Server.reply, Server.react, Server.route, hidle', and_self]

theorem Over.refused {t : Server} {body : List UInt8} {free : Prop} (hjob : t.jobs i = .none)
    (hfile : content t.disk k = some old) (hrefused : ¬ free) : Over i k old N L t body free 0 := by
  refine ⟨hjob, ⟨Nat.zero_le _, Nat.zero_le _⟩, .inl rfl, ?_, fun hfree => absurd hfree hrefused⟩
  rw [List.take_zero, patch_nil]
  exact hfile

theorem request_held (hb : Begins s i rawpath sdpath k old) (hr : r.rawpath = rawpath)
    (h : Accepts s r sdpath old N L) (f : Faults) :
    Held i k sdpath old N L (s.step (.request i (.put r) f)) r.already
      (Quiet f ∧ ∀ a, s.reply (.request i (.put r) f) = some a → a.status < 400) := by
  obtain ⟨hstep, hreply⟩ := step_request (r := r) (f := f) hb.idle
  obtain ⟨stamp, readOnly, hstat⟩ := hb.entry_file
  have hstat' : fStat s.untouched.wsFsMutated.disk.card sdpath = some (.file old stamp readOnly) := hstat
  have hunheld : wsBeebPathBusy s.untouched.wsFsMutated.beeb sdpath = false := h.unheld
  have hfile : content s.disk k = some old := hb.file
  have hfits := h.fits
  have hroute : s.untouched.routeDavPut i r f =
      s.untouched.wsFsMutated.putInPlace i r sdpath N L f := by
    rw [routeDavPut]
    simp only [h.query, hr, hb.path, not_root hb.entry, hunheld, h.sized, h.length, hstat', Option.any_some,
      Entry.isDir, Bool.false_eq_true, if_false]
  rw [hstep, hreply, hroute, putInPlace]
  simp only [hstat', h.sized, Bool.false_eq_true, if_false]
  have hroom : ¬ (old.length < N ∨ old.length - N < L) := by omega
  rw [if_neg hroom]
  by_cases hzero : L = 0
  · rw [if_pos hzero]
    refine .inr ⟨0, answer_job _ _ _, ⟨Nat.zero_le _, Nat.zero_le _⟩, .inl rfl, ?_, fun _ => hzero.symm⟩
    rw [List.take_zero, patch_nil]
    exact hfile
  rw [if_neg hzero]
  by_cases hopen : (f.openFails || readOnly) = true
  · rw [if_pos hopen]
    exact .inr ⟨0, .refused (answer_job _ _ _) hfile fun hfree => absurd (hfree.2 _ rfl) (by decide)⟩
  rw [if_neg hopen]
  by_cases hseek : f.seekFails = true
  · rw [if_pos hseek]
    exact .inr ⟨0, .refused (answer_job _ _ _) hfile fun hfree => absurd (hfree.2 _ rfl) (by decide)⟩
  rw [if_neg hseek]
  have hstaged : Staged k sdpath old N L s.untouched.wsFsMutated []
      { target := sdpath, tmppath := [], inPlace := some (N, stamp), body := .fixed L, status := 204 } := by
    refine ⟨rfl, ⟨stamp, rfl⟩, rfl, rfl, Nat.pos_of_ne_zero hzero, rfl, hfits, ?_⟩
    rw [patch_nil]
    exact hfile
  by_cases hnone : r.already = []
  · rw [if_pos hnone, hnone]
    exact .inl ⟨_, if_pos rfl, ⟨rfl, ⟨stamp, rfl⟩, rfl, rfl, hstaged.more, rfl, hfits, hstaged.file⟩⟩
  · rw [if_neg hnone]
    have hall := @Staged.consume i _ _ _ _ r.already _ _ _ _ f hstaged hb.entry
    rw [List.nil_append] at hall
    exact hall.mono fun hfree => ⟨hfree.1, hunheld⟩

theorem request_refused (hb : Begins s i rawpath sdpath k old) (hr : r.rawpath = rawpath)
    (hquery : r.query ≠ .ok none) (herror : ∀ status, r.query = .error status → 400 ≤ status)
    (hlength : ∀ status, r.contentLength = .error status → 400 ≤ status)
    (h : ¬ ∃ N L, Accepts s r sdpath old N L) (f : Faults) (N L : Nat) :
    Held i k sdpath old N L (s.step (.request i (.put r) f)) r.already
      (Quiet f ∧ ∀ a, s.reply (.request i (.put r) f) = some a → a.status < 400) := by
  obtain ⟨hstep, hreply⟩ := step_request (r := r) (f := f) hb.idle
  obtain ⟨stamp, readOnly, hstat⟩ := hb.entry_file
  have hstat' : fStat s.untouched.wsFsMutated.disk.card sdpath = some (.file old stamp readOnly) := hstat
  have hanswer (u : Server) (status : Nat) (hdisk : u.disk = s.untouched.disk) (hstatus : 400 ≤ status)
      (hroute : s.untouched.routeDavPut i r f = u.answer i status) :
      Held i k sdpath old N L (s.step (.request i (.put r) f)) r.already
        (Quiet f ∧ ∀ a, s.reply (.request i (.put r) f) = some a → a.status < 400) := by
    rw [hstep, hreply, hroute]
    refine .inr ⟨0, .refused (answer_job _ _ _) ?_ fun hfree => absurd (hfree.2 _ rfl) (Nat.not_lt.mpr hstatus)⟩
    have hsame : (u.answer i status).1.disk = s.untouched.disk := hdisk
    rw [hsame]
    exact hb.file
  rcases hq : r.query with status | _ | offset
  · refine hanswer s.untouched status rfl (herror status hq) ?_
    rw [routeDavPut]
    simp only [hq]
  · exact absurd hq hquery
  have hunheld : wsBeebPathBusy s.untouched.wsFsMutated.beeb sdpath = wsBeebPathBusy s.beeb sdpath := rfl
  rcases hbusy : wsBeebPathBusy s.beeb sdpath with _ | _
  · rcases hchunked : r.chunked with _ | _
    · rcases hlen : r.contentLength with status | len
      · refine hanswer s.untouched.wsFsMutated status rfl (hlength status hlen) ?_
        rw [routeDavPut]
        simp only [hq, hr, hb.path, not_root hb.entry, hunheld, hbusy, hchunked, hlen, Bool.false_eq_true,
          if_false]
      · refine hanswer s.untouched.wsFsMutated 416 rfl (by decide) ?_
        have hpast : old.length < offset ∨ old.length - offset < len := by
          by_contra hfits
          exact h ⟨offset, len, hq, hbusy, hchunked, hlen, by omega⟩
        rw [routeDavPut]
        simp only [hq, hr, hb.path, not_root hb.entry, hunheld, hbusy, hchunked, hlen, hstat',
          Option.any_some, Entry.isDir, Bool.false_eq_true, if_false]
        rw [putInPlace]
        simp only [hstat', hchunked, Bool.false_eq_true, if_false]
        exact if_pos hpast
    · refine hanswer s.untouched.wsFsMutated 400 rfl (by decide) ?_
      rw [routeDavPut]
      simp only [hq, hr, hb.path, not_root hb.entry, hunheld, hbusy, hchunked, hstat', Option.any_some,
        Entry.isDir, Bool.false_eq_true, if_false, if_true]
      rw [putInPlace]
      simp only [hstat', hchunked, if_true]
  · refine hanswer s.untouched.wsFsMutated 423 rfl (by decide) ?_
    rw [routeDavPut]
    simp only [hq, hr, hb.path, not_root hb.entry, hunheld, hbusy, Bool.false_eq_true, if_false, if_true]

theorem noFile_refused (hb : NoFile s i rawpath sdpath k) (hr : r.rawpath = rawpath)
    (hquery : r.query ≠ .ok none) (f : Faults) :
    ∃ (u : Server) (status : Nat),
      u.disk = s.untouched.disk ∧ s.untouched.routeDavPut i r f = u.answer i status := by
  rw [routeDavPut]
  rcases hq : r.query with status | _ | offset
  · exact ⟨s.untouched, status, rfl, rfl⟩
  · exact absurd hq hquery
  simp only [hr, hb.path, not_root hb.entry, Bool.false_eq_true, if_false]
  by_cases hbusy : wsBeebPathBusy s.untouched.wsFsMutated.beeb sdpath = true
  · rw [if_pos hbusy]
    exact ⟨s.untouched.wsFsMutated, 423, rfl, rfl⟩
  rw [if_neg hbusy]
  rcases hlen : (if r.chunked = true then .ok 0 else r.contentLength : Except Nat Nat) with status | len
  · exact ⟨s.untouched.wsFsMutated, status, rfl, rfl⟩
  simp only
  by_cases hdir : (fStat s.untouched.wsFsMutated.disk.card sdpath).any Entry.isDir = true
  · rw [if_pos hdir]
    exact ⟨s.untouched.wsFsMutated, 409, rfl, rfl⟩
  rw [if_neg hdir, putInPlace]
  split
  · next data stamp readOnly hstat =>
    have hfile := hb.file
    have hget : s.disk.card.get k = some (.file data stamp readOnly) := by
      rw [fStat, hb.entry] at hstat
      exact hstat
    rw [content, hget] at hfile
    cases hfile
  · exact ⟨s.untouched.wsFsMutated, _, rfl, rfl⟩

theorem transfer_noFile (hb : NoFile s i rawpath sdpath k) (hr : r.rawpath = rawpath)
    (hquery : r.query ≠ .ok none) {t : Server} {body : List UInt8} {free : Prop}
    (h : Transfer i k sdpath s r L t body free) : t.jobs i = .none ∧ content t.disk k = none := by
  induction h with
  | request f =>
    obtain ⟨u, status, hdisk, hroute⟩ := noFile_refused hb hr hquery f
    have hsame : (u.answer i status).1.disk = s.untouched.disk := hdisk
    rw [(step_request hb.idle).1, hroute, hsame]
    exact ⟨answer_job _ _ _, hb.file⟩
  | @data t body free _ bytes f ih =>
    have hjob : t.untouched.jobs i = .none := ih.1
    rw [Server.step, Server.react, Server.consume]
    simp only [hjob, true_and]
    exact ih.2
  | @ends t body free _ e he ih =>
    have hrelease : (t.untouched.releaseFiles i).jobs i = .none ∧
        content (t.untouched.releaseFiles i).disk k = none := by
      have hjob : t.untouched.jobs i = .none := ih.1
      have hdisk : (t.untouched.releaseFiles i).disk = t.untouched.disk := by
        rw [releaseFiles]
        simp only [hjob]
        exact release_disk _ i
      rw [hdisk]
      exact ⟨if_pos rfl, ih.2⟩
    rcases he with rfl | rfl | rfl
    · exact hrelease
    · exact hrelease
    · exact hrelease
  | elsewhere _ e hfile hjob ih => exact ⟨hjob.trans ih.1, hfile.trans ih.2⟩

end Request

/-! ### The same numbers -/

section Exact

variable {i : Nat} {k : List Str} {rawpath query sdpath : Str} {head already old new body : List UInt8}
  {N m : Nat}

theorem accepts_kept {s : Server} {L : Nat} (hend : head.getLast? = some 0x0A) (hne : query ≠ [])
    (hframed : Framed head already)
    (h : Accepts s (putRequest rawpath (some query) head already) sdpath old N L) :
    ¬ headChunked head ∧ ∃ text lenText, offsetText query = some text ∧ lengthText head = some lenText ∧
      keptOffset text = some N ∧ keptLength lenText = .ok L := by
  have hnot : ¬ headChunked head := by
    intro hchunked
    have hall := putChunked_append hend hchunked already
    exact absurd (h.sized.symm.trans hall) (by decide)
  have hquery : putQuery (some query) = .ok (some N) := h.query
  have hlength : putContentLength (head ++ already) = .ok L := h.length
  rw [putQuery_some hne] at hquery
  rcases htext : offsetText query with _ | text
  · rw [htext] at hquery
    cases hquery
  rw [htext] at hquery
  simp only at hquery
  rcases hkept : keptOffset text with _ | offset
  · rw [hkept] at hquery
    cases hquery
  rw [hkept] at hquery
  obtain rfl : offset = N := Option.some.inj (Except.ok.inj hquery)
  rcases hlen : lengthText head with _ | lenText
  · -- nothing in the header, and nothing behind it
    have hcut : wsFindHeader head contentLengthName 24 = (lengthText head).map (·.take 23) :=
      wsFindHeaderFrom_cut contentLengthName false (Nat.le_refl _) 24
    rw [hframed hlen hnot, List.append_nil, putContentLength, hcut, hlen] at hlength
    cases hlength
  · rw [putContentLength_append hend hlen] at hlength
    exact ⟨hnot, text, lenText, rfl, rfl, hkept, hlength⟩

theorem Patched.unchanged (h : Patched old new body N 0) : new = old := by
  apply List.ext_getElem?
  intro p
  exact h.others p (Nat.lt_or_ge p N)

theorem patched_none (old body : List UInt8) (N : Nat) : Patched old old body N 0 :=
  ⟨rfl, fun p hp => absurd hp (Nat.not_lt_zero p), fun _ _ => rfl⟩

theorem exact_of_kept (hend : head.getLast? = some 0x0A) (hne : query ≠ []) (h : KeptNumbers query head) :
    RangedExact query head := by
  have hquery := putQuery_ne_none hne
  refine ⟨fun s i rawpath sdpath k already hb L t body free hrun => (transfer_noFile hb rfl hquery hrun).2, ?_⟩
  intro s i rawpath sdpath k old already hb hframed
  by_cases haccepts : ∃ N L, Accepts s (putRequest rawpath (some query) head already) sdpath old N L
  · obtain ⟨offset, len, haccepts⟩ := haccepts
    obtain ⟨hchunked, text, lenText, htext, hlenText, hkept, hkept'⟩ := accepts_kept hend hne hframed haccepts
    obtain ⟨hmalformed, hnumbers⟩ := h text lenText offset len hchunked htext hlenText hkept hkept'
      (haccepts.fits.trans hb.size)
    have hstart := request_held hb rfl haccepts
    constructor
    · intro hnone L t body free hrun
      rw [askedOffset, htext, Option.bind_some] at hnone
      obtain rfl := hmalformed hnone
      obtain ⟨new, m, hfile, hm, -, hpatched, -⟩ :=
        (transfer_held hb.entry (Nat.zero_le L) hstart hrun).patched
      obtain rfl := Nat.le_zero.mp hm
      rw [hpatched.unchanged] at hfile
      exact hfile
    · intro N L hN hL t body free hrun
      rw [askedOffset, htext, Option.bind_some] at hN
      rw [askedLength, hlenText, Option.bind_some] at hL
      obtain ⟨rfl, hoffset⟩ := hnumbers N L hN hL
      have hheld := (transfer_held hb.entry (Nat.le_refl _) hstart hrun).patched
      rcases Nat.eq_zero_or_pos len with rfl | hpos
      · obtain ⟨new, m, hfile, hm, hbody, hpatched, hwhole⟩ := hheld
        obtain rfl := Nat.le_zero.mp hm
        refine ⟨new, 0, hfile, hm, hbody, ?_, hwhole⟩
        rw [hpatched.unchanged]
        exact patched_none old body N
      · rw [← hoffset hpos]
        exact hheld
  · have hstart := request_refused hb (r := putRequest rawpath (some query) head already) rfl hquery
      (fun _ => putQuery_error hne) (fun _ => putContentLength_error) haccepts
    constructor
    · intro _ L t body free hrun
      obtain ⟨new, m, hfile, hm, -, hpatched, -⟩ :=
        (transfer_held hb.entry (Nat.zero_le L) (fun f => hstart f 0 0) hrun).patched
      obtain rfl := Nat.le_zero.mp hm
      rw [hpatched.unchanged] at hfile
      exact hfile
    · intro N L _ _ t body free hrun
      exact (transfer_held hb.entry (Nat.le_refl _) (fun f => hstart f N L) hrun).patched

end Exact

/-! ### Other numbers -/

section Converse

variable {s : Server} {i : Nat} {k : List Str} {rawpath sdpath : Str} {old : List UInt8} {N L : Nat}

/-- A card with the file `/A`. -/
def cardWith (data : List UInt8) : Server where
  disk := { card := [([lit ['A']], .file data nortcStamp false)] }

def pathA : Str := lit ['/', 'A']

theorem begins_cardWith {data : List UInt8} (hsize : data.length ≤ UINT32_MAX) :
    Begins (cardWith data) 0 pathA pathA [lit ['A']] data := by
  have hpath : davUrlToSdpath pathA WS_PATH_MAX = some pathA := by decide +kernel
  have hentry : fatObject pathA = some [lit ['A']] := by decide +kernel
  exact ⟨rfl, hpath, hentry, by simp [content, cardWith, Files.get, Entry.content], hsize⟩

theorem unheld_cardWith (data : List UInt8) : wsBeebPathBusy (cardWith data).beeb pathA = false := by
  have hfree : wsBeebPathBusy {} pathA = false := by decide +kernel
  exact hfree

theorem quiet_none : Quiet {} := ⟨rfl, rfl, rfl, rfl⟩

theorem request_taken {data : List UInt8} {r : PutRequest} (hb : Begins (cardWith data) 0 pathA pathA
      [lit ['A']] data) (hr : r.rawpath = pathA) (hnone : r.already = [])
    (h : Accepts (cardWith data) r pathA data N L) :
    (∀ a, (cardWith data).reply (.request 0 (.put r) {}) = some a → a.status < 400) ∧
      ((cardWith data).step (.request 0 (.put r) {})).beeb = (cardWith data).beeb := by
  obtain ⟨hstep, hreply⟩ := step_request (s := cardWith data) (r := r) (f := {}) rfl
  have hstat : fStat (cardWith data).untouched.wsFsMutated.disk.card pathA =
      some (.file data nortcStamp false) := by
    rw [fStat, hb.entry]
    simp [cardWith, untouched, Server.wsFsMutated, onDisk, Files.get]
  have hunheld : wsBeebPathBusy (cardWith data).untouched.wsFsMutated.beeb pathA = false := h.unheld
  have hroom : ¬ (data.length < N ∨ data.length - N < L) := by
    have hfits := h.fits
    omega
  have hroute : (cardWith data).untouched.routeDavPut 0 r {} =
      (cardWith data).untouched.wsFsMutated.putInPlace 0 r pathA N L {} := by
    rw [routeDavPut]
    simp only [h.query, hr, hb.path, not_root hb.entry, hunheld, h.sized, h.length, hstat, Option.any_some,
      Entry.isDir, Bool.false_eq_true, if_false]
  rw [hstep, hreply, hroute, putInPlace]
  simp only [hstat, h.sized, Bool.false_eq_true, if_false, Bool.or_false]
  rw [if_neg hroom]
  by_cases hzero : L = 0
  · rw [if_pos hzero]
    refine ⟨fun a ha => ?_, rfl⟩
    obtain rfl := Option.some.inj ha
    exact (by decide : 204 < 400)
  · rw [if_neg hzero, if_pos hnone]
    exact ⟨(by intro a h; cases h), rfl⟩

theorem ones_iff {S n m : Nat} {new : List UInt8}
    (h : Patched (List.replicate S 0) new (List.replicate n 1) N m) (hm : m ≤ n) (p : Nat) :
    new[p]? = some 1 ↔ N ≤ p ∧ p < N + m := by
  by_cases hin : N ≤ p ∧ p < N + m
  · have hone := h.written (p - N) (by omega)
    rw [Nat.add_sub_cancel' hin.1, List.getElem?_replicate, if_pos (by omega)] at hone
    exact ⟨fun _ => hin, fun _ => hone⟩
  · have hzero := h.others p (by omega)
    rw [List.getElem?_replicate] at hzero
    refine ⟨fun hone => ?_, fun h => absurd h hin⟩
    rw [hone] at hzero
    split at hzero
    · exact absurd (Option.some.inj hzero) (by decide)
    · exact absurd hzero (Option.some_ne_none _)

theorem run_of_ones {query : Str} {head : List UInt8} {offset len : Nat}
    (h : Accepts (cardWith (List.replicate (offset + len) 0))
      (putRequest pathA (some query) head []) pathA (List.replicate (offset + len) 0) offset len)
    (hsize : offset + len ≤ UINT32_MAX) (L : Nat) :
    ∃ t free, Transfer 0 [lit ['A']] pathA (cardWith (List.replicate (offset + len) 0))
        (putRequest pathA (some query) head []) L t (List.replicate (max L len) 1) free ∧ free ∧
      ∃ new, content t.disk [lit ['A']] = some new ∧
        Patched (List.replicate (offset + len) 0) new (List.replicate (max L len) 1) offset len := by
  have hb := @begins_cardWith (List.replicate (offset + len) 0) (by rw [List.length_replicate]; exact hsize)
  obtain ⟨htaken, hbeeb⟩ := request_taken hb rfl rfl h
  have hbegun : Transfer 0 [lit ['A']] pathA (cardWith (List.replicate (offset + len) 0))
      (putRequest pathA (some query) head []) L _ _ _ := .request {}
  have hrun := hbegun.data (List.replicate (max L len) 1) {}
  have hheld := @Held.data 0 _ _ _ _ (List.replicate (max L len) 1) _ _ _ {} _ (request_held hb rfl h {}) hb.entry
  have hbody : (putRequest pathA (some query) head []).already ++ List.replicate (max L len) 1 =
      List.replicate (max L len) 1 := List.nil_append _
  rw [hbody] at hrun hheld
  have hfree : wsBeebPathBusy ((cardWith (List.replicate (offset + len) 0)).step
      (.request 0 (.put (putRequest pathA (some query) head [])) {})).beeb pathA = false := by
    rw [hbeeb]
    exact unheld_cardWith _
  refine ⟨_, _, hrun, ⟨⟨quiet_none, htaken⟩, quiet_none, hfree⟩, ?_⟩
  obtain ⟨new, m, hfile, -, -, hpatched, hwhole⟩ := hheld.patched
  have hm := hwhole ⟨⟨quiet_none, htaken⟩, quiet_none, hfree⟩
    (by rw [List.length_replicate]; exact Nat.le_max_right _ _)
  rw [hm] at hpatched
  exact ⟨new, hfile, hpatched⟩

theorem kept_of_exact {query : Str} {head : List UInt8} (hne : query ≠ []) (hend : head.getLast? = some 0x0A)
    (h : RangedExact query head) : KeptNumbers query head := by
  intro text lenText offset len hchunked htext hlenText hkept hkept' hfits
  have haccepts : Accepts (cardWith (List.replicate (offset + len) 0))
      (putRequest pathA (some query) head []) pathA (List.replicate (offset + len) 0) offset len := by
    refine ⟨?_, unheld_cardWith _, ?_, ?_, ?_⟩
    · show putQuery (some query) = _
      rw [putQuery_some hne, htext]
      simp only [hkept]
    · show putChunked (head ++ []) = false
      rw [List.append_nil]
      exact Bool.eq_false_iff.mpr hchunked
    · exact (putContentLength_append hend hlenText []).trans hkept'
    · rw [List.length_replicate]
  have hb := @begins_cardWith (List.replicate (offset + len) 0) (by rw [List.length_replicate]; exact hfits)
  obtain ⟨hmalformed, hexact⟩ := h.2 _ 0 pathA pathA [lit ['A']] _ [] hb fun _ _ => rfl
  constructor
  · intro hnone
    have hasked : askedOffset query = none := by
      rw [askedOffset, htext]
      exact hnone
    obtain ⟨t, free, hrun, -, new, hfile, hpatched⟩ := run_of_ones haccepts hfits 0
    have hsame := hmalformed hasked 0 t _ free hrun
    obtain rfl := Option.some.inj (hfile.symm.trans hsame)
    by_contra hpos
    have hone := (ones_iff hpatched (Nat.le_max_right _ _) offset).mpr ⟨Nat.le_refl _, by omega⟩
    have hzero := (ones_iff (patched_none _ (List.replicate (max 0 len) 1) offset) (Nat.zero_le _) offset).mp hone
    omega
  · intro N L hN hL
    have hasked : askedOffset query = some N := by
      rw [askedOffset, htext]
      exact hN
    have hasked' : askedLength head = some L := by
      rw [askedLength, hlenText]
      exact hL
    obtain ⟨t, free, hrun, hfree, new, hfile, hpatched⟩ := run_of_ones haccepts hfits L
    obtain ⟨new', m, hfile', -, -, hpatched', hwhole⟩ := hexact N L hasked hasked' t _ free hrun
    obtain rfl := Option.some.inj (hfile.symm.trans hfile')
    rw [hwhole hfree (by rw [List.length_replicate]; exact Nat.le_max_left _ _)] at hpatched'
    have hsame (p : Nat) : offset ≤ p ∧ p < offset + len ↔ N ≤ p ∧ p < N + L :=
      (ones_iff hpatched (Nat.le_max_right _ _) p).symm.trans (ones_iff hpatched' (Nat.le_max_left _ _) p)
    have hfirst := hsame offset
    have hbehind := hsame (offset + len)
    have hfirst' := hsame N
    have hbehind' := hsame (N + L)
    omega

end Converse

/-- In every run a ranged PUT changes just the bytes it asks for, and a query that is no offset changes
nothing, if and only if what the buffers keep of the offset and of the length says the same numbers. -/
theorem ranged_put_iff (query : Str) (head : List UInt8) (hne : query ≠ [])
    (hend : head.getLast? = some 0x0A) : RangedExact query head ↔ KeptNumbers query head :=
  ⟨kept_of_exact hne hend, exact_of_kept hend hne⟩

def oneByteHead : List UInt8 :=
  lit ['P', 'U', 'T', ' ', '/', 'A', ' ', 'H', 'T', 'T', 'P', '/', '1', '.', '1', '\r', '\n',
    'C', 'o', 'n', 't', 'e', 'n', 't', '-', 'L', 'e', 'n', 'g', 't', 'h', ':', ' ', '1', '\r', '\n', '\r', '\n']

theorem lengthText_oneByte : lengthText oneByteHead = some (lit ['1']) := by decide +kernel

/-- An offset of few digits. -/
theorem ranged_put_short : RangedExact (lit ['o', 'f', 'f', 's', 'e', 't', '=', '1']) oneByteHead := by
  have htext : offsetText (lit ['o', 'f', 'f', 's', 'e', 't', '=', '1']) = some (lit ['1']) := by
    decide +kernel
  refine (ranged_put_iff _ oneByteHead (by decide) (by decide +kernel)).mpr
    (keptNumbers_of_short (fun text h => ?_) fun text h => ?_)
  · obtain rfl := Option.some.inj (htext.symm.trans h)
    decide
  · obtain rfl := Option.some.inj (lengthText_oneByte.symm.trans h)
    decide

/-- Sixteen digits: the last is cut off, and byte 0 is written where byte 1 was meant. -/
theorem long_offset_cut :
    ¬ RangedExact (lit ['o', 'f', 'f', 's', 'e', 't', '='] ++ List.replicate 15 0x30 ++ [0x31]) oneByteHead := by
  intro h
  have htext : offsetText (lit ['o', 'f', 'f', 's', 'e', 't', '='] ++ List.replicate 15 0x30 ++ [0x31]) =
      some (List.replicate 15 0x30 ++ [0x31]) := by decide +kernel
  have hplain : ¬ headChunked oneByteHead := by
    rw [headChunked]
    decide +kernel
  have hkept : keptOffset (List.replicate 15 0x30 ++ [0x31]) = some 0 := by decide +kernel
  have hkept' : keptLength (lit ['1']) = .ok 1 := by rfl
  have hall := (kept_of_exact (by decide) (by decide +kernel) h) _ _ 0 1 hplain htext lengthText_oneByte hkept
    hkept' (by decide)
  exact absurd ((hall.2 1 1 (by decide +kernel) (by decide +kernel)).2 Nat.one_pos) (by decide)

end Pi1MHz.Ws.RangedPut
