import Mathlib.Data.List.GetD
import Pi1MHz.WsInterlock
import Pi1MHz.FinSizes

/-!
# The web server: spellings of one file

FatFs finds a file under many spellings of its path: either slash separates names, empty names and
`.` are skipped, letter case does not matter, and dots and spaces at the end of a name are
dropped.
-/

namespace Pi1MHz.Ws

open FinSizes

/-- What `create_name` snips off the end of a name. -/
def fatSkip (c : UInt8) : Bool := c == 0x20 || c == 0x2E

def fatNameOf (s : Str) : Str := (s.rdropWhile fatSkip).map fatUpper

def fatIllegal : Str := lit ['*', ':', '<', '>', '|', '"', '?'] ++ [0x7F]

/-- `create_name` takes the name. -/
def fatNameOk (s : Str) : Bool :=
  s.all (fun c => !fatIllegal.contains c) && decide (s.length ≤ 255)
    && s.rdropWhile fatSkip ≠ []

/-- The directory entry that a path without `..` leads to, as the long names along it.  `dir_find` also
finds an entry by its short name; such aliases (`BEEBSC~1` for `BeebSCSI0`) are set aside, so no name of a
path is taken for the generated short name of an entry with another long name. -/
def fatResolve (path : Str) : Option (List Str) :=
  if (pathNames path).all fatNameOk then some ((pathNames path).map fatNameOf) else none

/-! ### Case -/

def upper (s : Str) : Str := s.map fatUpper

theorem fatUpper_eq_slash (c : UInt8) : fatUpper c = 0x2F ↔ c = 0x2F :=
  forall_byte (P := fun c => fatUpper c = 0x2F ↔ c = 0x2F) (by decide +kernel) c

theorem fatUpper_eq_zero (c : UInt8) : fatUpper c = 0 ↔ c = 0 :=
  forall_byte (P := fun c => fatUpper c = 0 ↔ c = 0) (by decide +kernel) c

theorem fsHostNameEqual_upper (n : Nat) {a a' : Str} (h : upper a = upper a') (b : Str) :
    fsHostNameEqual n a b = fsHostNameEqual n a' b := by
  induction n generalizing a a' b with
  | zero => rfl
  | succ n ih =>
    have hhead : fatUpper (a.headD 0) = fatUpper (a'.headD 0) := by
      cases a <;> cases a' <;> simp_all [upper]
    have htail : upper a.tail = upper a'.tail := by
      cases a <;> cases a' <;> simp_all [upper]
    simp only [fsHostNameEqual, hhead, ih htail]

theorem fsHostNameEqual_iff {n : Nat} {a b : Str} (ha : ∀ c ∈ a, c ≠ 0) (hb : ∀ c ∈ b, c ≠ 0) :
    fsHostNameEqual n a b = true ↔ upper (a.take n) = upper (b.take n) := by
  induction n generalizing a b with
  | zero => simp [fsHostNameEqual]
  | succ n ih =>
    cases a with
    | nil =>
      cases b with
      | nil => simp [fsHostNameEqual, fatUpper]
      | cons d b =>
        have hd : fatUpper d ≠ 0 := mt (fatUpper_eq_zero d).mp (hb d (by simp))
        simp [fsHostNameEqual, upper, hd.symm, show fatUpper 0 = 0 from rfl]
    | cons c a =>
      have hc : fatUpper c ≠ 0 := mt (fatUpper_eq_zero c).mp (ha c (by simp))
      cases b with
      | nil => simp [fsHostNameEqual, upper, hc, show fatUpper 0 = 0 from rfl]
      | cons d b =>
        have htail := ih (fun x hx => ha x (List.mem_cons_of_mem c hx))
          (fun x hx => hb x (List.mem_cons_of_mem d hx))
        simp only [fsHostNameEqual, List.headD_cons, List.tail_cons, List.take_succ_cons, upper,
          List.map_cons, List.cons.injEq, hc, if_false]
        by_cases heq : fatUpper c = fatUpper d
        · simp [heq, htail, upper]
        · simp [heq]

/-! ### Accepted paths -/

/-- What `dav_url_to_sdpath` lets through: the root, or names each after a slash and perhaps a last
segment that was cut off. -/
structure SdPath (p : Str) : Prop where
  shape : p = [0x2F] ∨ ∃ ns s, p = joinNames (ns ++ [s]) ∧ ProperNames ns ∧ s ≠ [] ∧
    (∀ c ∈ s, isSep c = false) ∧ (isName s = true ∨ p.length = WS_PATH_MAX - 1)
  noNul : ∀ c ∈ p, c ≠ 0

theorem sdPath_of_davUrlToSdpath {raw p : Str} (h : davUrlToSdpath raw WS_PATH_MAX = some p) :
    SdPath p := by
  simp only [davUrlToSdpath] at h
  split at h
  · cases h
  · split at h
    · next hsafe =>
      cases h
      refine ⟨wsNormalizePath_shape _ (by decide), ?_⟩
      rintro c hc rfl
      have hall := (Bool.and_eq_true_iff.mp hsafe).1
      exact absurd (List.all_eq_true.mp hall 0 hc) (by decide)
    · cases h

theorem SdPath.slash {p : Str} (hp : SdPath p) :
    (∃ q, p = 0x2F :: q ∧ q.head? ≠ some 0x2F) ∧ wsStripSlashes p = p := by
  rcases hp.shape with rfl | ⟨ns, s, rfl, hns, hs, hsep, -⟩
  · exact ⟨⟨[], rfl, nofun⟩, rfl⟩
  · obtain ⟨pre, c, rfl⟩ : ∃ pre c, s = pre ++ [c] :=
      ⟨_, _, (List.dropLast_append_getLast hs).symm⟩
    have hc : isSep c = false := hsep c (by simp)
    obtain ⟨pre', hjoin⟩ := joinNames_concat ns pre c
    have hstrip := (wsStripSlashes_concat pre' hc).1
    rw [← hjoin] at hstrip
    refine ⟨?_, hstrip⟩
    -- the first segment is not empty, and has no slash in it
    have hfirst : ∀ (t : Str) (segs : List Str), t ≠ [] → (∀ c ∈ t, isSep c = false) →
        ∃ q, joinNames (t :: segs) = 0x2F :: q ∧ q.head? ≠ some 0x2F := by
      intro t segs ht hsep
      obtain ⟨d, t, rfl⟩ := List.exists_cons_of_ne_nil ht
      refine ⟨d :: t ++ joinNames segs, rfl, ?_⟩
      intro hd
      have := hsep d (List.mem_cons_self ..)
      cases Option.some.inj hd
      cases this
    cases ns with
    | nil => exact hfirst _ [] hs hsep
    | cons n ns =>
      obtain ⟨hname, hnsep⟩ := hns n (List.mem_cons_self ..)
      refine hfirst n _ ?_ hnsep
      rintro rfl
      cases hname

theorem SdPath.hostPathLen_eq {p : Str} (hp : SdPath p) : hostPathLen p = p.length := by
  rw [hostPathLen, hp.slash.2]

theorem SdPath.ne_nil {p : Str} (hp : SdPath p) : p ≠ [] := by
  obtain ⟨⟨q, rfl, -⟩, -⟩ := hp.slash
  exact List.cons_ne_nil _ _

theorem SdPath.fatPathNorm_eq {p : Str} (hp : SdPath p) :
    p = 0x2F :: fatPathNorm p := by
  obtain ⟨⟨q, rfl, hq⟩, -⟩ := hp.slash
  have hprefix : [0x30, 0x3A].isPrefixOf ((0x2F : UInt8) :: q) = false := rfl
  have hdrop : q.dropWhile (· == 0x2F) = q := by
    cases q with
    | nil => rfl
    | cons d q =>
      have hd : ¬(d == 0x2F) = true := by
        intro h
        exact hq (by rw [List.head?_cons, beq_iff_eq.mp h])
      exact List.dropWhile_cons_of_neg (p := (· == 0x2F)) hd
  simp [fatPathNorm, hprefix, hdrop]

/-! ### One verdict -/

theorem upper_length (s : Str) : (upper s).length = s.length := List.length_map _

theorem length_eq_of_upper {a b : Str} (h : upper a = upper b) : a.length = b.length := by
  rw [← upper_length a, h, upper_length]

theorem upper_rtakeWhile (q : Str) :
    (q.rtakeWhile (· ≠ 0x2F)).map fatUpper = (upper q).rtakeWhile (· ≠ 0x2F) := by
  have hcomp : ((fun c => decide (c ≠ 0x2F)) ∘ fatUpper) = fun c : UInt8 => decide (c ≠ 0x2F) := by
    funext c
    simp [fatUpper_eq_slash]
  rw [List.rtakeWhile, List.rtakeWhile, upper, ← List.map_reverse, List.takeWhile_map, hcomp,
    List.map_reverse]

theorem isMmb_upper {q q' : Str} (h : upper q = upper q') : isMmb q = isMmb q' := by
  have hempty : q.isEmpty = q'.isEmpty := by
    cases q <;> cases q' <;> simp_all [upper]
  rw [isMmb, isMmb, upper_rtakeWhile, upper_rtakeWhile, h, hempty]

theorem fatOpenMatches_upper (p : Str) {q q' : Str} (h : upper q = upper q') :
    fatOpenMatches p q = fatOpenMatches p q' := by
  have hempty : q.isEmpty = q'.isEmpty := by
    cases q <;> cases q' <;> simp_all [upper]
  have hmap : q.map fatUpper = q'.map fatUpper := h
  simp only [fatOpenMatches, length_eq_of_upper h, hmap, hempty]

theorem wsBeebPathBusy_upper {p p' : Str} (hp : SdPath p) (hp' : SdPath p')
    (h : upper p = upper p') (s : BeebState) : wsBeebPathBusy s p = wsBeebPathBusy s p' := by
  have hlen := length_eq_of_upper h
  have hq : upper (fatPathNorm p) = upper (fatPathNorm p') := by
    rw [hp.fatPathNorm_eq, hp'.fatPathNorm_eq] at h
    exact (List.cons.inj h).2
  have hlun : ∀ lun, fsHostPathOfLun s.luns lun p = fsHostPathOfLun s.luns lun p' := by
    intro lun
    simp only [fsHostPathOfLun, hp.hostPathLen_eq, hp'.hostPathLen_eq, hlen,
      fsHostNameEqual_upper _ h]
  simp only [wsBeebPathBusy, filesystemHostPathBusy, fatServiceFileInUse, hlun, isMmb_upper hq,
    fatOpenMatches_upper _ hq, ne_eq, hp.ne_nil, hp'.ne_nil, not_false_eq_true]

def recorded (r : OpenPath) : BeebState where
  fat := { open_ := fun i => if i = 0 then some r else none }

/-- The state in which one LUN is started, in the directories of `st`. -/
def onlyStarted (st : LunState) (lun : Lun) : BeebState where
  luns := { st with started := fun l => l == lun, hostLock := fun _ => false }

theorem filesystemHostPathBusy_idle (path : Str) : filesystemHostPathBusy {} path = false := by
  simp [filesystemHostPathBusy]

theorem fatServiceFileInUse_idle (path : Str) : fatServiceFileInUse {} path = false := by
  simp [fatServiceFileInUse]

theorem busy_recorded (r : OpenPath) (path : Str) :
    wsBeebPathBusy (recorded r) path = fatOpenMatches (fatPathNorm r.path) (fatPathNorm path) := by
  have hluns : (recorded r).luns = {} := rfl
  rw [wsBeebPathBusy, hluns, filesystemHostPathBusy_idle, Bool.false_or]
  rw [Bool.eq_iff_iff]
  simp only [fatServiceFileInUse, recorded, Bool.false_and, Bool.false_or, List.any_eq_true,
    List.mem_finRange, true_and, Option.any_eq_true, Option.ite_none_right_eq_some,
    Option.some.injEq]
  constructor
  · rintro ⟨i, r', ⟨-, rfl⟩, hmatch⟩
    exact hmatch
  · intro hmatch
    exact ⟨0, r, ⟨rfl, rfl⟩, hmatch⟩

theorem busy_onlyStarted (st : LunState) (lun : Lun) {path : Str} (hne : path ≠ []) :
    wsBeebPathBusy (onlyStarted st lun) path = fsHostPathOfLun st lun path := by
  have hfat : (onlyStarted st lun).fat = {} := rfl
  rw [wsBeebPathBusy, hfat, fatServiceFileInUse_idle, Bool.or_false]
  rw [Bool.eq_iff_iff]
  simp only [filesystemHostPathBusy, hne, List.any_eq_true, List.mem_finRange, true_and,
    onlyStarted, Bool.or_false, Bool.and_eq_true, decide_eq_true_eq, beq_iff_eq, ne_eq,
    not_false_eq_true]
  constructor
  · rintro ⟨l, rfl, h⟩
    exact h
  · intro h
    exact ⟨lun, rfl, h⟩

theorem busy_rawSectors (path : Str) :
    wsBeebPathBusy { fat := { rawSectorSeen := true } } path = isMmb (fatPathNorm path) := by
  have hluns : ({ fat := { rawSectorSeen := true } } : BeebState).luns = {} := rfl
  rw [wsBeebPathBusy, hluns, filesystemHostPathBusy_idle, Bool.false_or]
  simp [fatServiceFileInUse]

def SameVerdict (p₁ p₂ : Str) : Prop := ∀ s, wsBeebPathBusy s p₁ = wsBeebPathBusy s p₂

/-- The two paths differ only in letter case; or both are too long for a record of the FAT
service, and they agree on the LUNs whose files they name and on being the image store. -/
def SameSpelling (p₁ p₂ : Str) : Prop :=
  upper p₁ = upper p₂ ∨
    FAT_OPEN_PATH_MAX ≤ p₁.length ∧ FAT_OPEN_PATH_MAX ≤ p₂.length ∧
      (∀ st lun, fsHostPathOfLun st lun p₁ = fsHostPathOfLun st lun p₂) ∧
      isMmb (fatPathNorm p₁) = isMmb (fatPathNorm p₂)

theorem upper_eq_of_sameVerdict {p₁ p₂ : Str} (h₁ : SdPath p₁) (h₂ : SdPath p₂)
    (hlen : p₁.length ≤ p₂.length) (hfits : p₁.length < FAT_OPEN_PATH_MAX)
    (h : SameVerdict p₁ p₂) : upper p₁ = upper p₂ := by
  have habs : p₁.head? = some 0x2F := by
    rw [h₁.fatPathNorm_eq]
    rfl
  have hverdict := h (recorded ⟨p₁, habs, hfits⟩)
  rw [busy_recorded, busy_recorded] at hverdict
  have hself : fatOpenMatches (fatPathNorm p₁) (fatPathNorm p₁) = true := by
    simp [fatOpenMatches]
  rw [hself] at hverdict
  have hprefix : upper ((fatPathNorm p₁).take (fatPathNorm p₂).length) = upper (fatPathNorm p₂) :=
    of_decide_eq_true (Bool.and_eq_true_iff.mp hverdict.symm).1
  have hlen₁ := congrArg List.length h₁.fatPathNorm_eq
  have hlen₂ := congrArg List.length h₂.fatPathNorm_eq
  rw [List.length_cons] at hlen₁ hlen₂
  rw [List.take_of_length_le (by omega)] at hprefix
  rw [h₁.fatPathNorm_eq, h₂.fatPathNorm_eq]
  exact congrArg (fatUpper 0x2F :: ·) hprefix

theorem fatOpenMatches_long (r : OpenPath) {q : Str} (h : FAT_OPEN_PATH_MAX ≤ q.length + 1) :
    fatOpenMatches (fatPathNorm r.path) q = false := by
  have hlen : (fatPathNorm r.path).length < q.length := by
    obtain ⟨path, habs, hfits⟩ := r
    obtain ⟨t, rfl⟩ : ∃ t, path = 0x2F :: t := by
      cases path with
      | nil => cases habs
      | cons c t =>
        cases Option.some.inj habs
        exact ⟨t, rfl⟩
    have hprefix : [0x30, 0x3A].isPrefixOf ((0x2F : UInt8) :: t) = false := rfl
    have hdrop := (List.dropWhile_sublist (l := t) fun c => c == 0x2F).length_le
    rw [List.length_cons] at hfits
    simp only [fatPathNorm, hprefix, Bool.false_eq_true, if_false, List.dropWhile_cons, beq_self_eq_true,
      if_true]
    omega
  rw [fatOpenMatches, Bool.and_eq_false_iff]
  left
  rw [decide_eq_false_iff_not]
  intro heq
  have := length_eq_of_upper heq
  rw [List.length_take] at this
  omega

theorem sameVerdict_iff {p₁ p₂ : Str} (h₁ : SdPath p₁) (h₂ : SdPath p₂) :
    SameVerdict p₁ p₂ ↔ SameSpelling p₁ p₂ := by
  constructor
  · intro h
    by_cases hupper : upper p₁ = upper p₂
    · exact .inl hupper
    · right
      have hlong : FAT_OPEN_PATH_MAX ≤ p₁.length ∧ FAT_OPEN_PATH_MAX ≤ p₂.length := by
        by_contra hshort
        apply hupper
        rcases Nat.le_total p₁.length p₂.length with hle | hle
        · exact upper_eq_of_sameVerdict h₁ h₂ hle (by omega) h
        · exact (upper_eq_of_sameVerdict h₂ h₁ hle (by omega) fun s => (h s).symm).symm
      refine ⟨hlong.1, hlong.2, ?_, ?_⟩
      · intro st lun
        rw [← busy_onlyStarted st lun h₁.ne_nil, ← busy_onlyStarted st lun h₂.ne_nil]
        exact h _
      · rw [← busy_rawSectors, ← busy_rawSectors]
        exact h _
  · rintro (hupper | ⟨hlong₁, hlong₂, hlun, hmmb⟩) s
    · exact wsBeebPathBusy_upper h₁ h₂ hupper s
    · have hrecord : ∀ {p : Str}, SdPath p → FAT_OPEN_PATH_MAX ≤ p.length → ∀ i,
          ((s.fat.open_ i).any fun r => fatOpenMatches (fatPathNorm r.path) (fatPathNorm p)) = false := by
        intro p hp hlong i
        have hlen := congrArg List.length hp.fatPathNorm_eq
        rw [List.length_cons] at hlen
        cases s.fat.open_ i with
        | none => rfl
        | some r => exact fatOpenMatches_long r (by omega)
      simp only [wsBeebPathBusy, filesystemHostPathBusy, fatServiceFileInUse, hlun, hmmb,
        hrecord h₁ hlong₁, hrecord h₂ hlong₂, ne_eq, h₁.ne_nil, h₂.ne_nil, not_false_eq_true]

/-! ### Images and the directories above them -/

def lunDirName (st : LunState) (lun : Lun) : Str :=
  if lun.val < 8 then lit ['B', 'e', 'e', 'b', 'S', 'C', 'S', 'I'] ++ decimal st.lunDirectory.toNat
  else lit ['B', 'e', 'e', 'b', 'V', 'F', 'S'] ++ decimal st.lunDirectoryVFS.toNat

def lunFile (lun : Lun) : Str := lunFileStem lun ++ lit ['d', 'a', 't']

def isPlain (s : Str) : Bool :=
  isName s && s.all (fun c => !isSep c && c != 0) && fatNameOk s && s.rdropWhile fatSkip == s

def isAlnum (c : UInt8) : Bool := isDigit c || 0x41 ≤ fatUpper c && fatUpper c ≤ 0x5A

theorem isAlnum_plain (c : UInt8) :
    isAlnum c = true → isSep c = false ∧ c ≠ 0 ∧ fatIllegal.contains c = false ∧ fatSkip c = false :=
  forall_byte (P := fun c => isAlnum c = true →
    isSep c = false ∧ c ≠ 0 ∧ fatIllegal.contains c = false ∧ fatSkip c = false) (by decide +kernel) c

theorem isPlain_of_alnum {s : Str} (hne : s ≠ []) (hlen : s.length ≤ 255)
    (h : ∀ c ∈ s, isAlnum c = true) : isPlain s = true := by
  have hkeep : s.rdropWhile fatSkip = s := by
    rw [List.rdropWhile_eq_self_iff]
    intro hl
    have := (isAlnum_plain _ (h _ (List.getLast_mem hl))).2.2.2
    simp [this]
  have hname : isName s = true := by
    have hdot : s ≠ [0x2E] := by
      rintro rfl
      exact absurd (h 0x2E (by simp)) (by decide)
    simp [isName, hne, hdot]
  have hbytes : s.all (fun c => !isSep c && c != 0) = true := by
    rw [List.all_eq_true]
    intro c hc
    have := isAlnum_plain c (h c hc)
    simp [this]
  have hlegal : s.all (fun c => !fatIllegal.contains c) = true := by
    rw [List.all_eq_true]
    intro c hc
    rw [(isAlnum_plain c (h c hc)).2.2.1]
    rfl
  have hok : fatNameOk s = true := by
    simp only [fatNameOk, hlegal, hkeep, hne, hlen, ne_eq, not_false_eq_true, decide_true,
      Bool.and_self]
  simp only [isPlain, hname, hbytes, hok, hkeep, beq_self_eq_true, Bool.and_self]

theorem decimal_byte (d : UInt8) :
    (∀ c ∈ decimal d.toNat, isAlnum c = true) ∧ (decimal d.toNat).length ≤ 3 := by
  have h : ∀ d < 256, (decimal d).all isAlnum = true ∧ (decimal d).length ≤ 3 := by decide +kernel
  obtain ⟨hall, hlen⟩ := h d.toNat d.toNat_lt
  exact ⟨List.all_eq_true.mp hall, hlen⟩

theorem isPlain_append_decimal {pre : Str} (hne : pre ≠ []) (hlen : pre.length ≤ 252)
    (h : ∀ c ∈ pre, isAlnum c = true) (d : UInt8) : isPlain (pre ++ decimal d.toNat) = true := by
  obtain ⟨hall, hshort⟩ := decimal_byte d
  apply isPlain_of_alnum
  · simp [hne]
  · rw [List.length_append]
    omega
  · intro c hc
    rcases List.mem_append.mp hc with hc | hc
    · exact h c hc
    · exact hall c hc

theorem isPlain_lunDirName (st : LunState) (lun : Lun) : isPlain (lunDirName st lun) = true := by
  unfold lunDirName
  split
  · exact isPlain_append_decimal (by decide) (by decide) (List.all_eq_true.mp (by decide)) _
  · exact isPlain_append_decimal (by decide) (by decide) (List.all_eq_true.mp (by decide)) _

theorem isPlain_lunFile (lun : Lun) : isPlain (lunFile lun) = true := by
  revert lun
  decide +kernel

theorem fsHostLunDir_eq (st : LunState) (lun : Lun) :
    fsHostLunDir st lun = 0x2F :: lunDirName st lun := by
  unfold fsHostLunDir lunDirName
  split <;> rfl

theorem plain_cases {s : Str} (h : isPlain s = true) :
    isName s = true ∧ (∀ c ∈ s, isSep c = false ∧ c ≠ 0) ∧ fatNameOk s = true ∧
      fatNameOf s = upper s := by
  simp only [isPlain, Bool.and_eq_true, List.all_eq_true, Bool.not_eq_true', bne_iff_ne,
    beq_iff_eq] at h
  obtain ⟨⟨⟨hname, hall⟩, hok⟩, hkeep⟩ := h
  exact ⟨hname, hall, hok, by rw [fatNameOf, hkeep, upper]⟩

theorem lunImage_eq (st : LunState) (lun : Lun) :
    lunImage st lun = joinNames [lunDirName st lun, lunFile lun] := by
  simp [lunImage, fsHostLunStem, fsHostLunDir_eq, lunFile]

theorem fatResolve_lunImage (st : LunState) (lun : Lun) :
    fatResolve (lunImage st lun) = some [upper (lunDirName st lun), upper (lunFile lun)] := by
  obtain ⟨hname, hall, hok, hof⟩ := plain_cases (isPlain_lunDirName st lun)
  obtain ⟨hname', hall', hok', hof'⟩ := plain_cases (isPlain_lunFile lun)
  have hnames : pathNames (lunImage st lun) = [lunDirName st lun, lunFile lun] := by
    rw [lunImage_eq, pathNames_joinNames]
    · simp [hname, hname']
    · intro s hs c hc
      rcases List.mem_cons.mp hs with rfl | hs
      · exact (hall c hc).1
      · rw [List.mem_singleton] at hs
        subst hs
        exact (hall' c hc).1
  simp [fatResolve, hnames, hok, hok', hof, hof']

theorem slash_not_mem_upper {s : Str} (h : ∀ c ∈ s, isSep c = false) : (0x2F : UInt8) ∉ upper s := by
  intro hmem
  obtain ⟨c, hc, hup⟩ := List.mem_map.mp hmem
  rw [(fatUpper_eq_slash c).mp hup] at hc
  cases h _ hc

theorem segment_prefix_iff {D N F rest : Str} (hD : (0x2F : UInt8) ∉ D) (hN : (0x2F : UInt8) ∉ N)
    (hrest : rest = [] ∨ ∃ R, rest = 0x2F :: R) :
    D ++ 0x2F :: F <+: N ++ rest ↔ D = N ∧ ∃ R, rest = 0x2F :: R ∧ F <+: R := by
  induction D generalizing N with
  | nil =>
    cases N with
    | nil =>
      rcases hrest with rfl | ⟨R, rfl⟩
      · simp
      · simp
    | cons n N =>
      have hne : (0x2F : UInt8) ≠ n := fun h => hN (h ▸ List.mem_cons_self ..)
      simp [hne]
  | cons d D ih =>
    cases N with
    | nil =>
      have hne : d ≠ 0x2F := fun h => hD (h ▸ List.mem_cons_self ..)
      rcases hrest with rfl | ⟨R, rfl⟩
      · simp
      · simp [hne]
    | cons n N =>
      have hih := ih (N := N) (fun h => hD (List.mem_cons_of_mem d h))
        fun h => hN (List.mem_cons_of_mem n h)
      simp only [List.cons_append, List.cons_prefix_cons, hih, List.cons.injEq]
      tauto

theorem fsHostPathOfLun_iff {p : Str} (hp : SdPath p) (st : LunState) (lun : Lun) :
    fsHostPathOfLun st lun p = true ↔
      upper (fsHostLunStem st lun) <+: upper p ∨ upper p = upper (fsHostLunDir st lun) := by
  obtain ⟨-, hall, -, -⟩ := plain_cases (isPlain_lunDirName st lun)
  obtain ⟨-, hall', -, -⟩ := plain_cases (isPlain_lunFile lun)
  have hdir : ∀ c ∈ fsHostLunDir st lun, c ≠ 0 := by
    rw [fsHostLunDir_eq]
    intro c hc
    rcases List.mem_cons.mp hc with rfl | hc
    · decide
    · exact (hall c hc).2
  have hstem : ∀ c ∈ fsHostLunStem st lun, c ≠ 0 := by
    intro c hc
    rcases List.mem_append.mp hc with hc | hc
    · exact hdir c hc
    · rcases List.mem_cons.mp hc with rfl | hc
      · decide
      · exact (hall' c (List.mem_append_left _ hc)).2
  have hend : ∀ n, 0 < n → n < (fsHostLunDir st lun).length →
      (fsHostLunDir st lun).getD n 0 ≠ 0 ∧ (fsHostLunDir st lun).getD n 0 ≠ 0x2F := by
    intro n hpos hn
    obtain ⟨n, rfl⟩ : ∃ m, n = m + 1 := ⟨n - 1, by omega⟩
    rw [fsHostLunDir_eq] at hn ⊢
    have hn' : n < (lunDirName st lun).length := by simpa using hn
    have hmem : (lunDirName st lun).getD n 0 ∈ lunDirName st lun := by
      rw [List.getD_eq_getElem _ _ hn']
      exact List.getElem_mem hn'
    rw [List.getD_cons_succ]
    refine ⟨(hall _ hmem).2, fun h => ?_⟩
    have := (hall _ hmem).1
    rw [h] at this
    cases this
  have hpos : 0 < p.length := List.length_pos_iff.mpr hp.ne_nil
  simp only [fsHostPathOfLun, hp.hostPathLen_eq, Bool.or_eq_true, Bool.and_eq_true,
    decide_eq_true_eq, beq_iff_eq, fsHostNameEqual_iff hp.noNul hstem,
    fsHostNameEqual_iff hp.noNul hdir, List.take_length]
  refine or_congr ?_ ?_
  · -- the stem is in front of the path
    rw [List.prefix_iff_eq_take, upper_length, upper, upper, upper, List.map_take]
    constructor
    · rintro ⟨-, h⟩
      exact h.symm
    · intro h
      refine ⟨?_, h.symm⟩
      have hlen := congrArg List.length h
      simp only [List.length_map, List.length_take] at hlen
      omega
  · constructor
    · rintro ⟨⟨hle, heq⟩, hnul⟩
      have hlen : p.length = (fsHostLunDir st lun).length := by
        by_contra hne
        obtain ⟨h0, hslash⟩ := hend p.length hpos (by omega)
        exact hnul.elim h0 hslash
      rwa [hlen, List.take_length] at heq
    · intro heq
      have hlen := length_eq_of_upper heq
      refine ⟨⟨hlen.le, ?_⟩, .inl ?_⟩
      · rw [hlen, List.take_length]
        exact heq
      · rw [hlen]
        exact List.getD_eq_default _ _ le_rfl

theorem lunFileStem_begins {lun : Lun} {s : Str} (h : fatNameOf s = upper (lunFile lun)) :
    upper (lunFileStem lun) <+: upper s := by
  have hsplit : upper s = fatNameOf s ++ upper (s.rtakeWhile fatSkip) := by
    rw [fatNameOf, upper, upper, ← List.map_append, List.rdropWhile_append_rtakeWhile]
  have hfile : upper (lunFile lun) = upper (lunFileStem lun) ++ upper (lit ['d', 'a', 't']) :=
    List.map_append
  rw [hsplit, h, hfile, List.append_assoc]
  exact List.prefix_append _ _

theorem eq_dot_of_not_name {s : Str} (hne : s ≠ []) (h : ¬isName s = true) : s = [0x2E] := by
  simpa [isName, hne] using h

theorem fatResolve_some {p : Str} {ns : List Str} (h : fatResolve p = some ns) :
    ns = (pathNames p).map fatNameOf ∧ ∀ s ∈ pathNames p, s.length ≤ 255 := by
  unfold fatResolve at h
  split at h
  · next hok =>
    cases h
    refine ⟨rfl, fun s hs => ?_⟩
    have := List.all_eq_true.mp hok s hs
    simp only [fatNameOk, Bool.and_eq_true, decide_eq_true_eq] at this
    exact this.1.2
  · cases h

theorem fsHostPathOfLun_named {p : Str} (hp : SdPath p) {st : LunState} {lun : Lun}
    {ns rest : List Str} (hn : fatResolve p = some ns)
    (himage : fatResolve (lunImage st lun) = some (ns ++ rest)) (hne : ns ≠ []) :
    ∃ nm tail, pathNames p = nm :: tail ∧ fatNameOf nm = upper (lunDirName st lun) ∧
      (fsHostPathOfLun st lun p = true ↔ upper nm = upper (lunDirName st lun)) := by
  obtain ⟨hns, hshort⟩ := fatResolve_some hn
  have himage : [upper (lunDirName st lun), upper (lunFile lun)] = ns ++ rest :=
    Option.some.inj ((fatResolve_lunImage st lun).symm.trans himage)
  have hD : (0x2F : UInt8) ∉ upper (lunDirName st lun) :=
    slash_not_mem_upper fun c hc => ((plain_cases (isPlain_lunDirName st lun)).2.1 c hc).1
  have hstem : upper (fsHostLunStem st lun)
      = 0x2F :: (upper (lunDirName st lun) ++ 0x2F :: upper (lunFileStem lun)) := by
    rw [fsHostLunStem, fsHostLunDir_eq]
    simp [upper, show fatUpper 0x2F = 0x2F from rfl]
  have hdir : upper (fsHostLunDir st lun) = 0x2F :: upper (lunDirName st lun) := by
    rw [fsHostLunDir_eq]
    rfl
  rw [fsHostPathOfLun_iff hp, hstem, hdir]
  rcases hp.shape with rfl | ⟨ms, s, rfl, hms, hs, hsep, hcut⟩
  · exact absurd (hns.trans rfl) hne
  · have hsegs : ∀ x ∈ ms ++ [s], ∀ c ∈ x, isSep c = false := by
      intro x hx
      rcases List.mem_append.mp hx with hx | hx
      · exact (hms x hx).2
      · rw [List.mem_singleton.mp hx]
        exact hsep
    have hnames : pathNames (joinNames (ms ++ [s])) = ms ++ [s].filter isName := by
      rw [pathNames_joinNames hsegs, List.filter_append,
        List.filter_eq_self.mpr fun x hx => (hms x hx).1]
    rw [hnames] at hns hshort ⊢
    cases ms with
    | nil =>
      -- a path of one segment spells the directory
      have hname : isName s = true := by
        by_contra hname
        rw [eq_dot_of_not_name hs hname] at hcut
        exact hcut.elim nofun nofun
      have hfilter : [s].filter isName = [s] := by simp [hname]
      rw [hfilter] at hns ⊢
      subst hns
      obtain ⟨hof, -⟩ := List.cons.inj himage
      refine ⟨s, [], rfl, hof.symm, ?_⟩
      have hN : (0x2F : UInt8) ∉ upper s := slash_not_mem_upper hsep
      have hupper : upper (joinNames ([] ++ [s])) = 0x2F :: (upper s ++ []) := by
        simp [upper, show fatUpper 0x2F = 0x2F from rfl]
      rw [hupper, List.cons_prefix_cons, segment_prefix_iff hD hN (.inl rfl)]
      simp
    | cons m ms =>
      obtain ⟨hof, himage'⟩ : upper (lunDirName st lun) = fatNameOf m ∧
          [upper (lunFile lun)] = (ms ++ [s].filter isName).map fatNameOf ++ rest := by
        subst hns
        exact List.cons.inj himage
      refine ⟨m, ms ++ [s].filter isName, rfl, hof.symm, ?_⟩
      have hN : (0x2F : UInt8) ∉ upper m :=
        slash_not_mem_upper fun c hc => (hms m (List.mem_cons_self ..)).2 c hc
      -- the second segment is the image's name, if there is one
      obtain ⟨x, tail, hjoin, hfile⟩ : ∃ x tail, joinNames (ms ++ [s]) = 0x2F :: (x ++ tail) ∧
          fatNameOf x = upper (lunFile lun) := by
        cases ms with
        | nil =>
          have hname : isName s = true := by
            by_contra hname
            have hdot := eq_dot_of_not_name hs hname
            subst hdot
            have hm := hshort m (by simp)
            have hlen := hcut.resolve_left hname
            simp [joinNames, WS_PATH_MAX] at hlen
            omega
          rw [show [s].filter isName = [s] by simp [hname]] at himage'
          exact ⟨s, [], by simp, (List.cons.inj himage').1.symm⟩
        | cons m₂ ms =>
          exact ⟨m₂, joinNames (ms ++ [s]), rfl, (List.cons.inj himage').1.symm⟩
      have hupper : upper (joinNames (m :: ms ++ [s]))
          = 0x2F :: (upper m ++ 0x2F :: upper (x ++ tail)) := by
        rw [List.cons_append, joinNames_cons, hjoin]
        simp [upper, show fatUpper 0x2F = 0x2F from rfl]
      rw [hupper, List.cons_prefix_cons, segment_prefix_iff hD hN (.inr ⟨_, rfl⟩)]
      constructor
      · rintro (⟨-, heq, -⟩ | heq)
        · exact heq.symm
        · exact absurd ((List.cons.inj heq).2 ▸ by simp) hD
      · intro heq
        refine .inl ⟨rfl, heq.symm, _, rfl, ?_⟩
        have happend : upper (x ++ tail) = upper x ++ upper tail := List.map_append
        rw [happend]
        exact (lunFileStem_begins hfile).trans (List.prefix_append _ _)

/-! ### The interlock and spelling -/

def LeadToImage (names : List Str) (st : LunState) (lun : Lun) : Prop :=
  ∃ rest, fatResolve (lunImage st lun) = some (names ++ rest)

def FirstPlain (p : Str) : Prop := ∀ nm ∈ (pathNames p).head?, nm.rdropWhile fatSkip = nm

def ReportsImages (names : List Str) (p : Str) : Prop :=
  ∀ s lun, s.luns.started lun = true → LeadToImage names s.luns lun → wsBeebPathBusy s p = true

theorem SdPath.eq_root {p : Str} (hp : SdPath p) (hn : fatResolve p = some []) : p = [0x2F] := by
  have hnil : pathNames p = [] := List.map_eq_nil_iff.mp (fatResolve_some hn).1.symm
  rcases hp.shape with h | ⟨ms, s, rfl, hms, hs, hsep, hcut⟩
  · exact h
  · have hsegs : ∀ x ∈ ms ++ [s], ∀ c ∈ x, isSep c = false := by
      intro x hx
      rcases List.mem_append.mp hx with hx | hx
      · exact (hms x hx).2
      · rw [List.mem_singleton.mp hx]
        exact hsep
    rw [pathNames_joinNames hsegs, List.filter_eq_nil_iff] at hnil
    have hms' : ms = [] := List.eq_nil_iff_forall_not_mem.mpr fun x hx =>
      hnil x (by simp [hx]) (hms x hx).1
    subst hms'
    have hname := hnil s (by simp)
    rw [eq_dot_of_not_name hs hname] at hcut
    exact hcut.elim nofun nofun

theorem busy_of_started {s : BeebState} {lun : Lun} {p : Str} (hne : p ≠ [])
    (hstarted : s.luns.started lun = true) (h : fsHostPathOfLun s.luns lun p = true) :
    wsBeebPathBusy s p = true := by
  have hany : ((List.finRange 16).any fun l =>
      (s.luns.started l || s.luns.hostLock l) && fsHostPathOfLun s.luns l p) = true :=
    List.any_eq_true.mpr ⟨lun, List.mem_finRange lun, by simp [hstarted, h]⟩
  simp [wsBeebPathBusy, filesystemHostPathBusy, hne, hany]

theorem reportsImages_iff {p : Str} (hp : SdPath p) {names : List Str}
    (hn : fatResolve p = some names) :
    ReportsImages names p ↔
      names ≠ [] ∧ ((∃ st lun, LeadToImage names st lun) → FirstPlain p) := by
  constructor
  · intro h
    have hne : names ≠ [] := by
      rintro rfl
      obtain rfl := hp.eq_root hn
      have hbusy := h (onlyStarted {} 0) 0 rfl ⟨_, fatResolve_lunImage _ _⟩
      rw [busy_onlyStarted {} 0 (List.cons_ne_nil _ _)] at hbusy
      exact absurd hbusy (by decide)
    refine ⟨hne, ?_⟩
    rintro ⟨st, lun, rest, himage⟩ nm hnm
    obtain ⟨first, tail, hnames, hof, hiff⟩ := fsHostPathOfLun_named hp hn himage hne
    rw [hnames, List.head?_cons] at hnm
    obtain rfl : first = nm := Option.some.inj hnm
    have hbusy := h (onlyStarted st lun) lun (by simp [onlyStarted]) ⟨rest, himage⟩
    rw [busy_onlyStarted st lun hp.ne_nil] at hbusy
    have hupper : upper (first.rdropWhile fatSkip) = upper first := hof.trans (hiff.mp hbusy).symm
    exact (List.rdropWhile_prefix fatSkip first).eq_of_length (length_eq_of_upper hupper)
  · rintro ⟨hne, hplain⟩ s lun hstarted ⟨rest, himage⟩
    obtain ⟨nm, tail, hnames, hof, hiff⟩ := fsHostPathOfLun_named hp hn himage hne
    have hkeep : nm.rdropWhile fatSkip = nm :=
      hplain ⟨_, _, rest, himage⟩ nm (by rw [hnames]; rfl)
    rw [fatNameOf, hkeep] at hof
    exact busy_of_started hp.ne_nil hstarted (hiff.mpr hof)

/-- For two accepted spellings of one directory entry, the interlock gives one verdict in every
state and reports every started image that the entry leads to, exactly when the spellings differ
only in case, the entry is not the root, and a LUN's directory is spelled as it stands. -/
theorem interlock_spelling_iff {raw₁ raw₂ p₁ p₂ : Str} {names : List Str}
    (h₁ : davUrlToSdpath raw₁ WS_PATH_MAX = some p₁)
    (h₂ : davUrlToSdpath raw₂ WS_PATH_MAX = some p₂)
    (hn₁ : fatResolve p₁ = some names) (hn₂ : fatResolve p₂ = some names) :
    (SameVerdict p₁ p₂ ∧ ReportsImages names p₁ ∧ ReportsImages names p₂) ↔
      SameSpelling p₁ p₂ ∧ names ≠ [] ∧
        ((∃ st lun, LeadToImage names st lun) → FirstPlain p₁ ∧ FirstPlain p₂) := by
  have hp₁ := sdPath_of_davUrlToSdpath h₁
  have hp₂ := sdPath_of_davUrlToSdpath h₂
  rw [sameVerdict_iff hp₁ hp₂, reportsImages_iff hp₁ hn₁, reportsImages_iff hp₂ hn₂]
  constructor
  · rintro ⟨hsame, ⟨hne, hplain₁⟩, -, hplain₂⟩
    exact ⟨hsame, hne, fun hlead => ⟨hplain₁ hlead, hplain₂ hlead⟩⟩
  · rintro ⟨hsame, hne, hplain⟩
    exact ⟨hsame, ⟨hne, fun hlead => (hplain hlead).1⟩, hne, fun hlead => (hplain hlead).2⟩

def imagePath : Str := lunImage {} 0

def imagePathUpper : Str := upper imagePath

def imagePathDotted : Str := fsHostLunDir {} 0 ++ 0x2E :: 0x2F :: lunFile 0

theorem firstPlain_of {p nm : Str} {tail : List Str} (hnames : pathNames p = nm :: tail)
    (hkeep : nm.rdropWhile fatSkip = nm) : FirstPlain p := by
  intro x hx
  rw [hnames, List.head?_cons] at hx
  cases hx
  exact hkeep

theorem interlock_spelling_capitals :
    SameVerdict imagePath imagePathUpper ∧
      ReportsImages [upper (lunDirName {} 0), upper (lunFile 0)] imagePath ∧
      ReportsImages [upper (lunDirName {} 0), upper (lunFile 0)] imagePathUpper := by
  have hcase : upper imagePath = upper imagePathUpper := by decide +kernel
  have hplain : FirstPlain imagePath :=
    @firstPlain_of _ (lunDirName {} 0) [lunFile 0] (by decide +kernel) (by decide +kernel)
  have hplain' : FirstPlain imagePathUpper :=
    @firstPlain_of _ (upper (lunDirName {} 0)) [upper (lunFile 0)] (by decide +kernel)
      (by decide +kernel)
  exact (@interlock_spelling_iff imagePath imagePathUpper _ _ _ (by decide +kernel)
    (by decide +kernel) (by decide +kernel) (by decide +kernel)).mpr
    ⟨.inl hcase, nofun, fun _ => ⟨hplain, hplain'⟩⟩

/-- A dot after a directory's name gets past the interlock of a started LUN. -/
theorem dotted_image_not_busy :
    davUrlToSdpath imagePath WS_PATH_MAX = some imagePath ∧
      davUrlToSdpath imagePathDotted WS_PATH_MAX = some imagePathDotted ∧
      fatResolve imagePathDotted = fatResolve imagePath ∧
      wsBeebPathBusy (onlyStarted {} 0) imagePath = true ∧
      wsBeebPathBusy (onlyStarted {} 0) imagePathDotted = false := by
  decide +kernel

end Pi1MHz.Ws
