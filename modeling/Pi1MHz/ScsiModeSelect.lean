import Pi1MHz.ScsiGeometry
import Pi1MHz.ScsiHandlers

/-!
# BeebSCSI: the mode pages and MODE SELECT

The mode pages of a LUN as `filesystem.c` keeps them, every page that `scsiattributes` has a key for,
with the write mask of page 3 and the geometry that is derived from the pages.
-/

namespace Pi1MHz.ScsiPages

open StateRules
open Scsi (HDGeometry word word24 headsFrom trackBytes cylHi cylLo pagesOf DEFAULT_BLOCK_SIZE
  DEFAULT_SECTORS_PER_TRACK)
open ScsiTarget (Target FileSystem Action ScsiState Phase Event SCSI_STATUS_OK SCSI_STATUS_CHECK_COND
  BAD_ARG DRIVE_NOT_READY)

/-! ### The keys of a LUN -/

/-- The pages that `filesystemPagetoIndex` finds a key for. -/
def modePages : List UInt8 := [0, 1, 3, 4, 32, 33, 35, 36, 37, 38]

/-- The keys of a LUN that MODE SELECT works on, its geometry, and the size of its image.  A value is
given by its bytes; what is allocated behind them is zero. -/
structure Stored where
  modeParamHeader : Option (List UInt8)
  lbaDescriptor : Option (List UInt8)
  page : UInt8 → Option (List UInt8)
  writPage3 : Option (List UInt8)
  geometry : HDGeometry
  size : UInt32

namespace Stored

def setPage (k : Stored) (page : UInt8) (b : List UInt8) : Stored :=
  { k with page := Function.update k.page page (some b) }

end Stored

def overwrite (p : List UInt8) (i : Nat) (b : List UInt8) : List UInt8 :=
  List.ofFn (n := max p.length (i + b.length)) fun j =>
    if i ≤ j.val ∧ j.val < i + b.length then b.getD (j.val - i) 0 else p.getD j.val 0

/-- A value with the bits of `b` that the mask lets through. -/
def writeMasked (mask b p : List UInt8) : List UInt8 :=
  List.ofFn (n := max p.length (min b.length mask.length)) fun j =>
    if j.val < min b.length mask.length then
      (b.getD j.val 0 &&& mask.getD j.val 0) ||| (p.getD j.val 0 &&& ~~~(mask.getD j.val 0))
    else p.getD j.val 0

/-- `filesystemWritetoIndex`: page 3 is the only one with a mask. -/
def Stored.mask (k : Stored) (page : UInt8) : Option (List UInt8) :=
  if page = 3 then k.writPage3 else none

def filesystemWriteModePageData (k : Stored) (page : UInt8) (b : List UInt8) : Stored :=
  if page ∉ modePages then k
  else
    match k.mask page, k.page page with
    | some mask, some p => k.setPage page (writeMasked mask b p)
    | _, _ => k.setPage page b

def filesystemLunToconfigGeometry (k : Stored) : Stored :=
  let g := k.geometry
  (k.setPage 0 (overwrite ((k.page 0).getD []) 0
      [1, cylHi g, cylLo g, g.heads, 0x00, 0x80, 0x00, 0x80, 0x00, 0x01])).setPage 4
    (overwrite ((k.page 4).getD []) 0 [4, 4, 0, cylHi g, cylLo g, g.heads])

def filesytemdattoconfigGeometry (k : Stored) : Stored :=
  let tracks := k.size / trackBytes k.geometry
  let heads := headsFrom tracks 16
  filesystemLunToconfigGeometry
    { k with geometry := { k.geometry with cylinders := tracks / UInt32.ofNat heads
                                           heads := UInt8.ofNat heads } }

def filesystemCopyPage0toPage4 (k : Stored) : Stored :=
  match k.page 0 with
  | some p =>
    let g := { k.geometry with cylinders := word (p.getD 1 0) (p.getD 2 0), heads := p.getD 3 0 }
    let k := { k with geometry := g }
    match k.page 4 with
    | some q => k.setPage 4 (overwrite q 2 [0, cylHi g, cylLo g, g.heads])
    | none => k
  | none => k

def filesystemCopyPage4toPage0 (k : Stored) : Stored :=
  match k.page 4 with
  | some p =>
    let g := { k.geometry with cylinders := word (p.getD 3 0) (p.getD 4 0), heads := p.getD 5 0 }
    let k := { k with geometry := g }
    match k.page 0 with
    | some q => k.setPage 0 (overwrite q 1 [cylHi g, cylLo g, g.heads])
    | none => k
  | none => k

def blockSizeOf (lbaDescriptor : Option (List UInt8)) : UInt32 :=
  match lbaDescriptor with
  | some p =>
    let size := word24 (p.getD 5 0) (p.getD 6 0) (p.getD 7 0)
    if size = 0 then DEFAULT_BLOCK_SIZE else size
  | none => DEFAULT_BLOCK_SIZE

def sectorsOf (page3 : Option (List UInt8)) : UInt16 :=
  match page3 with
  | some p =>
    let sectors := (word (p.getD 10 0) (p.getD 11 0)).toUInt16
    if sectors = 0 then DEFAULT_SECTORS_PER_TRACK else sectors
  | none => DEFAULT_SECTORS_PER_TRACK

def filesystemConfigToLunGeometry (k : Stored) : Stored :=
  let k := { k with
    modeParamHeader := some (k.modeParamHeader.getD [0, 0, 0, 8])
    lbaDescriptor := some (k.lbaDescriptor.getD [0, 0, 0, 0, 0, 0, 1, 0])
    geometry := { k.geometry with blockSize := blockSizeOf k.lbaDescriptor
                                  sectorsPerTrack := sectorsOf (k.page 3) } }
  match k.page 0 with
  | some p =>
    { k with geometry := { k.geometry with cylinders := word (p.getD 1 0) (p.getD 2 0)
                                           heads := p.getD 3 0 } }
  | none =>
    match k.page 4 with
    | some _ => filesystemCopyPage4toPage0 k
    | none => filesytemdattoconfigGeometry k

def isDescriptor (params : List UInt8) : Bool := params.length = 22 ∧ params.getD 3 0 = 8

def selectPage (k : Stored) (p : UInt8 × List UInt8) : Stored :=
  let k := filesystemWriteModePageData k p.1 p.2
  if p.1 = 4 then filesystemCopyPage4toPage0 k else k

def pagesIn (params : List UInt8) : List (UInt8 × List UInt8) :=
  if isDescriptor params then [(0, params.drop 12)] else (pagesOf params.length (params.drop 4)).1

def wellFormed (params : List UInt8) : Bool :=
  isDescriptor params || (pagesOf params.length (params.drop 4)).2

def selected (k : Stored) (params : List UInt8) : Stored :=
  if isDescriptor params then
    filesystemCopyPage0toPage4 (filesystemWriteModePageData k 0 (params.drop 12))
  else (pagesIn params).foldl selectPage k

variable {σ φ : Type}

/-- The file system keeps the keys of a LUN as above; `file` is the attributes file.  A LUN that is
started is found so. -/
structure HasPages (fs : FileSystem σ) (stored : σ → UInt8 → Stored) (file : σ → UInt8 → φ) : Prop where
  check : ∀ s lun, fs.readLunStatus s lun = true → fs.checkLunImage s lun = (true, s)
  write : ∀ s lun page b, stored (fs.writeModePageData s lun page b) lun =
    filesystemWriteModePageData (stored s lun) page b
  copy0 : ∀ s lun, stored (fs.copyPage0toPage4 s lun) lun = filesystemCopyPage0toPage4 (stored s lun)
  copy4 : ∀ s lun, stored (fs.copyPage4toPage0 s lun) lun = filesystemCopyPage4toPage0 (stored s lun)
  config : ∀ s lun, stored (fs.configToLunGeometry s lun) lun =
    filesystemConfigToLunGeometry (stored s lun)
  attributes : ∀ s lun, stored (fs.writeAttributes s lun).2 lun = stored s lun
  fileWrite : ∀ s lun page b, file (fs.writeModePageData s lun page b) lun = file s lun
  fileCopy0 : ∀ s lun, file (fs.copyPage0toPage4 s lun) lun = file s lun
  fileCopy4 : ∀ s lun, file (fs.copyPage4toPage0 s lun) lun = file s lun

def received (t : Target σ) : List UInt8 := (ScsiTarget.hostadapterReadBytes (ScsiTarget.byte4 t.data).toNat t).1

def refused (t : Target σ) : Prop :=
  t.status = SCSI_STATUS_CHECK_COND ∧ t.requestSenseData t.targetLUN = BAD_ARG

structure OnlyWhatItMay (params : List UInt8) (isRefused : Prop) (before after : Stored) (sameFile : Prop) :
    Prop where
  masked : ∀ p mask, before.page 3 = some p → before.writPage3 = some mask →
    ∃ p', after.page 3 = some p' ∧
      ∀ i, p'.getD i 0 &&& ~~~(mask.getD i 0) = p.getD i 0 &&& ~~~(mask.getD i 0)
  mask : after.writPage3 = before.writPage3
  unnamed : ∀ page, page ∉ (pagesIn params).map Prod.fst → page ≠ 0 → page ≠ 4 →
    after.page page = before.page page
  mirror : 0 ∉ (pagesIn params).map Prod.fst → 4 ∉ (pagesIn params).map Prod.fst →
    before.page 0 ≠ none ∨ before.page 4 ≠ none →
      after.page 0 = before.page 0 ∧ after.page 4 = before.page 4
  allOrNothing : isRefused → after = before ∧ sameFile

/-! ### What the functions leave alone -/

section Frames

variable (k : Stored)

theorem Stored.setPage_page (p : UInt8) (b : List UInt8) {q : UInt8} (h : q ≠ p) :
    (k.setPage p b).page q = k.page q := Function.update_of_ne h _ _

theorem write_page {page q : UInt8} (b : List UInt8) (h : q ≠ page) :
    (filesystemWriteModePageData k page b).page q = k.page q := by
  rw [filesystemWriteModePageData]
  split
  · rfl
  · split
    · exact k.setPage_page _ _ h
    · exact k.setPage_page _ _ h

theorem write_mask (page : UInt8) (b : List UInt8) :
    (filesystemWriteModePageData k page b).writPage3 = k.writPage3 := by
  rw [filesystemWriteModePageData]
  split
  · rfl
  · split
    · rfl
    · rfl

theorem copy0_page {q : UInt8} (h : q ≠ 4) : (filesystemCopyPage0toPage4 k).page q = k.page q := by
  rw [filesystemCopyPage0toPage4]
  split
  · simp only
    split
    · exact Stored.setPage_page _ _ _ h
    · rfl
  · rfl

theorem copy4_page {q : UInt8} (h : q ≠ 0) : (filesystemCopyPage4toPage0 k).page q = k.page q := by
  rw [filesystemCopyPage4toPage0]
  split
  · simp only
    split
    · exact Stored.setPage_page _ _ _ h
    · rfl
  · rfl

theorem copy0_mask : (filesystemCopyPage0toPage4 k).writPage3 = k.writPage3 := by
  rw [filesystemCopyPage0toPage4]
  split
  · simp only
    split
    · rfl
    · rfl
  · rfl

theorem copy4_mask : (filesystemCopyPage4toPage0 k).writPage3 = k.writPage3 := by
  rw [filesystemCopyPage4toPage0]
  split
  · simp only
    split
    · rfl
    · rfl
  · rfl

structure Untouched (touched : UInt8 → Prop) (k k' : Stored) : Prop where
  page : ∀ q, ¬ touched q → k'.page q = k.page q
  mask : k'.writPage3 = k.writPage3

theorem Untouched.trans {touched : UInt8 → Prop} {k k' k'' : Stored} (h : Untouched touched k k')
    (h' : Untouched touched k' k'') : Untouched touched k k'' where
  page q hq := (h'.page q hq).trans (h.page q hq)
  mask := h'.mask.trans h.mask

theorem Untouched.mono {touched touched' : UInt8 → Prop} {k k' : Stored} (h : Untouched touched k k')
    (hle : ∀ q, touched q → touched' q) : Untouched touched' k k' where
  page q hq := h.page q fun ht => hq (hle q ht)
  mask := h.mask

theorem selectPage_untouched (p : UInt8 × List UInt8) :
    Untouched (fun q => q = p.1 ∨ q = 0 ∧ p.1 = 4) k (selectPage k p) := by
  rw [selectPage]
  split
  · next h4 =>
    constructor
    · intro q hq
      obtain ⟨hne, h0⟩ := not_or.mp hq
      exact (copy4_page _ fun hq0 => h0 ⟨hq0, h4⟩).trans (write_page k p.2 hne)
    · exact (copy4_mask _).trans (write_mask k p.1 p.2)
  · constructor
    · intro q hq
      exact write_page k p.2 fun h => hq (Or.inl h)
    · exact write_mask k p.1 p.2

theorem foldl_untouched (l : List (UInt8 × List UInt8)) (k : Stored) :
    Untouched (fun q => q ∈ l.map Prod.fst ∨ q = 0 ∧ 4 ∈ l.map Prod.fst) k (l.foldl selectPage k) := by
  induction l generalizing k with
  | nil => exact ⟨fun _ _ => rfl, rfl⟩
  | cons p l ih =>
    refine ((selectPage_untouched k p).mono ?_).trans ((ih (selectPage k p)).mono ?_)
    · rintro q (rfl | ⟨h0, h4⟩)
      · exact Or.inl List.mem_cons_self
      · exact Or.inr ⟨h0, h4 ▸ List.mem_cons_self⟩
    · rintro q (hq | ⟨h0, h4⟩)
      · exact Or.inl (List.mem_cons_of_mem _ hq)
      · exact Or.inr ⟨h0, List.mem_cons_of_mem _ h4⟩

theorem selected_untouched (params : List UInt8) :
    Untouched (fun q => q ∈ (pagesIn params).map Prod.fst ∨ q = 0 ∧ 4 ∈ (pagesIn params).map Prod.fst ∨
      q = 4 ∧ 0 ∈ (pagesIn params).map Prod.fst) k (selected k params) := by
  rw [selected]
  split
  · next hdesc =>
    have hpages : (pagesIn params).map Prod.fst = [0] := by
      rw [pagesIn, if_pos hdesc]
      rfl
    rw [hpages]
    constructor
    · intro q hq
      obtain ⟨h0, hrest⟩ := not_or.mp hq
      have hq0 : q ≠ 0 := fun h => h0 (List.mem_singleton.mpr h)
      have hq4 : q ≠ 4 := fun h => hrest (Or.inr ⟨h, List.mem_cons_self⟩)
      exact (copy0_page _ hq4).trans (write_page k _ hq0)
    · exact (copy0_mask _).trans (write_mask k _ _)
  · refine (foldl_untouched (pagesIn params) k).mono ?_
    rintro q (hq | hq)
    · exact Or.inl hq
    · exact Or.inr (Or.inl hq)

theorem config_untouched :
    Untouched (fun q => (q = 0 ∨ q = 4) ∧ k.page 0 = none ∧ k.page 4 = none) k
      (filesystemConfigToLunGeometry k) := by
  rw [filesystemConfigToLunGeometry]
  cases h0 : k.page 0 with
  | some p => exact ⟨fun _ _ => rfl, rfl⟩
  | none =>
    cases h4 : k.page 4 with
    | some p =>
      constructor
      · intro q _
        simp only [filesystemCopyPage4toPage0, h0, h4]
      · exact copy4_mask _
    | none =>
      constructor
      · intro q hq
        have hq' : q ≠ 0 ∧ q ≠ 4 := not_or.mp fun h => hq ⟨h, rfl, rfl⟩
        exact ((Stored.setPage_page _ _ _ hq'.2).trans (Stored.setPage_page _ _ _ hq'.1))
      · rfl

/-! ### The write mask -/

theorem outside_mask (b m p : UInt8) : ((b &&& m) ||| (p &&& ~~~m)) &&& ~~~m = p &&& ~~~m := by
  apply UInt8.eq_of_toBitVec_eq
  ext i hi
  simp only [UInt8.toBitVec_and, UInt8.toBitVec_or, UInt8.toBitVec_not, BitVec.getElem_and,
    BitVec.getElem_or, BitVec.getElem_not]
  cases b.toBitVec[i] <;> cases m.toBitVec[i] <;> cases p.toBitVec[i] <;> rfl

def MaskedFrom (k k' : Stored) : Prop :=
  ∀ p mask, k.page 3 = some p → k.writPage3 = some mask →
    ∃ p', k'.page 3 = some p' ∧
      ∀ i, p'.getD i 0 &&& ~~~(mask.getD i 0) = p.getD i 0 &&& ~~~(mask.getD i 0)

theorem maskedFrom_same {k k' : Stored} (h : k'.page 3 = k.page 3) : MaskedFrom k k' :=
  fun p _ hp _ => ⟨p, h.trans hp, fun _ => rfl⟩

theorem MaskedFrom.trans {k k' k'' : Stored} (h : MaskedFrom k k') (hm : k'.writPage3 = k.writPage3)
    (h' : MaskedFrom k' k'') : MaskedFrom k k'' := by
  intro p mask hp hmask
  obtain ⟨p', hp', hbits⟩ := h p mask hp hmask
  obtain ⟨p'', hp'', hbits'⟩ := h' p' mask hp' (hm.trans hmask)
  exact ⟨p'', hp'', fun i => (hbits' i).trans (hbits i)⟩

theorem getD_ofFn {n : Nat} (f : Fin n → UInt8) (i : Nat) :
    (List.ofFn f).getD i 0 = if h : i < n then f ⟨i, h⟩ else 0 := by
  rw [List.getD_eq_getElem?_getD, List.getElem?_ofFn]
  split
  · rfl
  · rfl

theorem writeMasked_bits (mask b p : List UInt8) (i : Nat) :
    (writeMasked mask b p).getD i 0 &&& ~~~(mask.getD i 0) = p.getD i 0 &&& ~~~(mask.getD i 0) := by
  rw [writeMasked, getD_ofFn]
  by_cases hi : i < max p.length (min b.length mask.length)
  · rw [dif_pos hi]
    simp only
    by_cases hmask : i < min b.length mask.length
    · rw [if_pos hmask]
      exact outside_mask _ _ _
    · rw [if_neg hmask]
  · have hend : p.getD i 0 = 0 := by
      rw [List.getD_eq_getElem?_getD, List.getElem?_eq_none (by omega)]
      rfl
    rw [dif_neg hi, hend]

theorem write_masked (page : UInt8) (b : List UInt8) :
    MaskedFrom k (filesystemWriteModePageData k page b) := by
  by_cases h3 : page = 3
  · subst h3
    intro p mask hp hmask
    refine ⟨writeMasked mask b p, ?_, writeMasked_bits mask b p⟩
    have hmask' : k.mask 3 = some mask := hmask
    rw [filesystemWriteModePageData, if_neg (by decide), hmask', hp]
    exact Function.update_self (3 : UInt8) (some (writeMasked mask b p)) k.page
  · exact maskedFrom_same (write_page k b fun h => h3 h.symm)

theorem selectPage_masked (p : UInt8 × List UInt8) : MaskedFrom k (selectPage k p) := by
  rw [selectPage]
  split
  · exact (write_masked k p.1 p.2).trans (write_mask k _ _) (maskedFrom_same (copy4_page _ (by decide)))
  · exact write_masked k p.1 p.2

theorem selected_masked (params : List UInt8) : MaskedFrom k (selected k params) := by
  rw [selected]
  split
  · exact (write_masked k _ _).trans (write_mask k _ _) (maskedFrom_same (copy0_page _ (by decide)))
  · have hfold : ∀ (l : List (UInt8 × List UInt8)) (k : Stored), MaskedFrom k (l.foldl selectPage k) := by
      intro l
      induction l with
      | nil => exact fun k => maskedFrom_same rfl
      | cons p l ih =>
        intro k
        exact (selectPage_masked k p).trans (selectPage_untouched k p).mask (ih _)
    exact hfold _ _

end Frames

/-! ### Running the command -/

section Runs

open ScsiTarget (hostadapterReadByte hostadapterReadBytes waitAck writePages copyIfPage4 takeParameters
  modeSelect scsiCommandModeSelect6 askLun changeLun tryLun)

variable {fs : FileSystem σ} {stored : σ → UInt8 → Stored} {file : σ → UInt8 → φ}

theorem readByte_run {t u : Target σ} (hacks : u.acks = t.acks) (hbus : u.databus = t.databus) :
    (hostadapterReadByte u).1 = (hostadapterReadByte t).1 ∧
      (hostadapterReadByte u).2.acks = (hostadapterReadByte t).2.acks ∧
      (hostadapterReadByte u).2.databus = (hostadapterReadByte t).2.databus ∧
      ∃ acks databus, (hostadapterReadByte u).2 = { u with acks := acks, databus := databus } := by
  have hread : ∀ v : Target σ, hostadapterReadByte v = ((waitAck v).2.databus, (waitAck v).2) :=
    fun _ => rfl
  rw [hread, hread, waitAck, waitAck, hacks]
  cases t.acks with
  | nil => exact ⟨hbus, hacks ▸ rfl, hbus, u.acks, u.databus, rfl⟩
  | cons a acks =>
    rw [hbus]
    exact ⟨rfl, rfl, rfl, _, _, rfl⟩

theorem readBytes_run (n : Nat) {t u : Target σ} (hacks : u.acks = t.acks) (hbus : u.databus = t.databus) :
    (hostadapterReadBytes n u).1 = (hostadapterReadBytes n t).1 ∧
      ∃ acks databus, (hostadapterReadBytes n u).2 = { u with acks := acks, databus := databus } := by
  induction n generalizing t u with
  | zero => exact ⟨rfl, u.acks, u.databus, rfl⟩
  | succ n ih =>
    obtain ⟨hb, ha, hd, acks, databus, hu⟩ := readByte_run hacks hbus
    obtain ⟨hrest, acks', databus', hu'⟩ := ih ha hd
    have hrun : ∀ v : Target σ, hostadapterReadBytes (n + 1) v =
        ((hostadapterReadByte v).1 :: (hostadapterReadBytes n (hostadapterReadByte v).2).1,
          (hostadapterReadBytes n (hostadapterReadByte v).2).2) := fun _ => rfl
    rw [hrun, hrun]
    constructor
    · simp only [hb, hrest]
    · refine ⟨acks', databus', ?_⟩
      rw [hu', hu]

structure Did (stored : σ → UInt8 → Stored) (file : σ → UInt8 → φ) (t u : Target σ) (k : Stored) : Prop where
  lun : u.targetLUN = t.targetLUN
  keys : stored u.fs u.targetLUN = k
  file : file u.fs u.targetLUN = file t.fs t.targetLUN

theorem selectPage_run (hp : HasPages fs stored file) (page : UInt8) (b : List UInt8) (t : Target σ) :
    Did stored file t
      (copyIfPage4 fs page (changeLun (fun s lun => fs.writeModePageData s lun page b) t).2).2
      (selectPage (stored t.fs t.targetLUN) (page, b)) := by
  rw [copyIfPage4, selectPage]
  by_cases h4 : page = 4
  · rw [if_pos h4, if_pos h4]
    exact ⟨rfl, (hp.copy4 _ _).trans (congrArg _ (hp.write _ _ _ _)),
      (hp.fileCopy4 _ _).trans (hp.fileWrite _ _ _ _)⟩
  · rw [if_neg h4, if_neg h4]
    exact ⟨rfl, hp.write _ _ _ _, hp.fileWrite _ _ _ _⟩

theorem writePages_run (hp : HasPages fs stored file) (n : Nat) (l : List UInt8) (t : Target σ) :
    (writePages fs n l t).1 = (pagesOf n l).2 ∧
      Did stored file t (writePages fs n l t).2
        ((pagesOf n l).1.foldl selectPage (stored t.fs t.targetLUN)) := by
  induction n generalizing l t with
  | zero => exact ⟨rfl, rfl, rfl, rfl⟩
  | succ n ih =>
    match l with
    | [] => exact ⟨rfl, rfl, rfl, rfl⟩
    | [_] => exact ⟨rfl, rfl, rfl, rfl⟩
    | [_, _] => exact ⟨rfl, rfl, rfl, rfl⟩
    | code :: len :: third :: rest =>
      by_cases hcut : ((code &&& 0x3F) :: len :: third :: rest).length < len.toNat + 2
      · have hrun : writePages fs (n + 1) (code :: len :: third :: rest) t = (false, t) := by
          rw [writePages, if_pos hcut]
          rfl
        rw [hrun, pagesOf, if_pos hcut]
        exact ⟨rfl, rfl, rfl, rfl⟩
      · obtain ⟨b, hb⟩ : ∃ b, b = (code &&& 0x3F) :: len :: third :: rest := ⟨_, rfl⟩
        obtain ⟨u, hu⟩ : ∃ u, u = (copyIfPage4 fs (code &&& 0x3F) (changeLun (fun s lun =>
          fs.writeModePageData s lun (code &&& 0x3F) (b.take (len.toNat + 2))) t).2).2 := ⟨_, rfl⟩
        have hrun : writePages fs (n + 1) (code :: len :: third :: rest) t =
            writePages fs n (b.drop (len.toNat + 2)) u := by
          rw [writePages, if_neg hcut, hu, hb]
          rfl
        have hpages : pagesOf (n + 1) (code :: len :: third :: rest) =
            ((code &&& 0x3F, b.take (len.toNat + 2)) :: (pagesOf n (b.drop (len.toNat + 2))).1,
              (pagesOf n (b.drop (len.toNat + 2))).2) := by
          rw [pagesOf, if_neg hcut, hb]
        have hone := selectPage_run hp (code &&& 0x3F) (b.take (len.toNat + 2)) t
        rw [← hu] at hone
        obtain ⟨hok, hlun, hkeys, hfile⟩ := ih (b.drop (len.toNat + 2)) u
        rw [hrun, hpages]
        refine ⟨hok, hlun.trans hone.lun, ?_, hfile.trans hone.file⟩
        rw [hkeys, hone.keys]
        rfl

theorem takeParameters_run (hp : HasPages fs stored file) (params : List UInt8) (t : Target σ) :
    (takeParameters fs params t).1 = wellFormed params ∧
      Did stored file t (takeParameters fs params t).2 (selected (stored t.fs t.targetLUN) params) := by
  by_cases hdesc : isDescriptor params = true
  · have hcond : params.length = 22 ∧ params.getD 3 0 = 8 := of_decide_eq_true hdesc
    rw [takeParameters, if_pos hcond, wellFormed, hdesc, selected, if_pos hdesc]
    exact ⟨rfl, rfl, (hp.copy0 _ _).trans (congrArg _ (hp.write _ _ _ _)),
      (hp.fileCopy0 _ _).trans (hp.fileWrite _ _ _ _)⟩
  · have hcond : ¬ (params.length = 22 ∧ params.getD 3 0 = 8) := fun h => hdesc (decide_eq_true h)
    rw [takeParameters, if_neg hcond, wellFormed, Bool.eq_false_iff.mpr hdesc, selected, if_neg hdesc,
      pagesIn, if_neg hdesc]
    exact writePages_run hp _ _ t

structure Leaves (stored : σ → UInt8 → Stored) (file : σ → UInt8 → φ) (t u : Target σ) (isRefused : Bool)
    (k : Stored) : Prop where
  lun : u.targetLUN = t.targetLUN
  refused : refused u ↔ isRefused = true
  keys : stored u.fs u.targetLUN = k
  file : isRefused = true → file u.fs u.targetLUN = file t.fs t.targetLUN

theorem modeSelect_run (hp : HasPages fs stored file) {t : Target σ} {params : List UInt8}
    (hparams : params = received t) :
    Leaves stored file t (modeSelect fs t).2 (!wellFormed params)
      (if wellFormed params then filesystemConfigToLunGeometry (selected (stored t.fs t.targetLUN) params)
        else selected (stored t.fs t.targetLUN) params) := by
  let u : Target σ := { t with phase := .dataOut }
  obtain ⟨hread, acks, databus, hu⟩ := readBytes_run t.data[4].toNat (t := t) (u := u) rfl rfl
  obtain ⟨v, hv⟩ : ∃ v : Target σ, v = { u with acks := acks, databus := databus } := ⟨_, rfl⟩
  obtain ⟨hok, hdid⟩ := takeParameters_run hp params v
  have hrun : modeSelect fs t =
      (if (takeParameters fs params v).1 then
        (do changeLun fs.configToLunGeometry
            if ← tryLun fs.writeAttributes then ScsiTarget.good
            else ScsiTarget.fail DRIVE_NOT_READY (pure ()))
      else ScsiTarget.fail BAD_ARG (pure ())) (takeParameters fs params v).2 := by
    rw [hparams, received, ← hread, hv, ← hu]
    rfl
  have hstart : stored v.fs v.targetLUN = stored t.fs t.targetLUN := by rw [hv]
  have hfile0 : file v.fs v.targetLUN = file t.fs t.targetLUN := by rw [hv]
  have hlun0 : v.targetLUN = t.targetLUN := by rw [hv]
  rw [hrun, hok]
  cases hwf : wellFormed params with
  | true =>
    rw [if_pos rfl, if_pos rfl, bind_apply]
    obtain ⟨w, hw⟩ : ∃ w, w = (takeParameters fs params v).2 := ⟨_, rfl⟩
    rw [← hw] at hdid ⊢
    have hkeys : stored (fs.writeAttributes (fs.configToLunGeometry w.fs w.targetLUN) w.targetLUN).2
        w.targetLUN = filesystemConfigToLunGeometry (selected (stored t.fs t.targetLUN) params) := by
      rw [hp.attributes, hp.config, hdid.keys, hstart]
    rw [bind_apply]
    by_cases hwrite : (fs.writeAttributes (fs.configToLunGeometry w.fs w.targetLUN) w.targetLUN).1 = true
    · have hgood : ∀ x y : Action σ ScsiState,
          (if (tryLun fs.writeAttributes (changeLun fs.configToLunGeometry w).2).1 = true then x else y) = x :=
        fun x y => if_pos hwrite
      rw [hgood]
      refine ⟨hdid.lun.trans hlun0, iff_of_false ?_ (by intro h; cases h), hkeys, by intro h; cases h⟩
      rintro ⟨hstatus, -⟩
      cases hstatus
    · have hbad : ∀ x y : Action σ ScsiState,
          (if (tryLun fs.writeAttributes (changeLun fs.configToLunGeometry w).2).1 = true then x else y) = y :=
        fun x y => if_neg hwrite
      rw [hbad]
      refine ⟨hdid.lun.trans hlun0, iff_of_false ?_ (by intro h; cases h), hkeys, by intro h; cases h⟩
      rintro ⟨-, hsense⟩
      have hnew : (if w.targetLUN = w.targetLUN then DRIVE_NOT_READY
          else w.requestSenseData w.targetLUN) = BAD_ARG := hsense
      rw [if_pos rfl] at hnew
      exact absurd hnew (by decide)
  | false =>
    rw [if_neg Bool.false_ne_true, if_neg Bool.false_ne_true]
    refine ⟨hdid.lun.trans hlun0, iff_of_true ⟨rfl, if_pos rfl⟩ rfl, ?_, fun _ => ?_⟩
    · exact hdid.keys.trans (congrArg (selected · params) hstart)
    · exact hdid.file.trans hfile0

def tooShort (t : Target σ) : Bool := ScsiTarget.byte4 t.data < 4

theorem modeSelect6_run (hp : HasPages fs stored file) {t : Target σ}
    (hstarted : tooShort t = false → fs.readLunStatus t.fs t.targetLUN = true) :
    Leaves stored file t (scsiCommandModeSelect6 fs t).2 (tooShort t || !wellFormed (received t))
      (if tooShort t then stored t.fs t.targetLUN
        else if wellFormed (received t) then
          filesystemConfigToLunGeometry (selected (stored t.fs t.targetLUN) (received t))
        else selected (stored t.fs t.targetLUN) (received t)) := by
  rw [scsiCommandModeSelect6, bind_apply, get_apply]
  by_cases hshort : t.data[4] < 4
  · have htoo : tooShort t = true := decide_eq_true hshort
    rw [if_pos hshort, htoo]
    exact ⟨rfl, iff_of_true ⟨rfl, if_pos rfl⟩ rfl, rfl, fun _ => rfl⟩
  · have htoo : tooShort t = false := decide_eq_false hshort
    rw [if_neg hshort, htoo, bind_apply]
    obtain ⟨u, hu⟩ : ∃ u : Target σ, u = { t with events := t.events ++ [.lun t.targetLUN] } := ⟨_, rfl⟩
    have hcheck : tryLun fs.checkLunImage t = (true, u) := by
      rw [hu]
      show ((fs.checkLunImage t.fs t.targetLUN).1, _) = _
      rw [hp.check _ _ (hstarted htoo)]
    rw [hcheck, if_pos rfl]
    have hreceived : received t = received u := by
      have hread := readBytes_run t.data[4].toNat (t := t) (u := u) (by rw [hu]) (by rw [hu])
      have hdata : u.data = t.data := by rw [hu]
      rw [received, received, hdata, hread.1]
    have hmode := modeSelect_run hp (t := u) hreceived
    rw [hu] at hmode ⊢
    exact { hmode with }

end Runs

/-! ### A card that keeps the keys -/

def keysCard : FileSystem Stored where
  readLunStatus _ _ := true
  setLunStatus s _ _ := (true, s)
  hostRevokeLun s _ := s
  checkLunImage s _ := (true, s)
  createLunImage s _ := (false, s)
  createLunDescriptor s _ := (false, s)
  readLunDescriptor s _ := (true, s)
  formatLun s _ _ := (false, s)
  openLunForRead s _ _ _ := (false, s)
  readNextSector s _ := (none, s)
  closeLunForRead s _ := s
  openLunForWrite s _ _ _ := (false, s)
  writeNextSector s _ _ := (false, s)
  closeLunForWrite s _ := s
  headsPerCylinder s _ := s.geometry.heads.toUInt32
  lunSPTSize s _ := s.geometry.sectorsPerTrack.toUInt32
  lunBlockSize s _ := s.geometry.blockSize
  lunTotalSectors s _ := Scsi.filesystemGetLunTotalSectors s.geometry
  writeModePageData s _ := filesystemWriteModePageData s
  copyPage0toPage4 s _ := filesystemCopyPage0toPage4 s
  copyPage4toPage0 s _ := filesystemCopyPage4toPage0 s
  configToLunGeometry s _ := filesystemConfigToLunGeometry s
  writeAttributes s _ := (true, s)
  modeParamHeaderData s _ := s.modeParamHeader
  lbaDescriptorData s _ := s.lbaDescriptor
  modePageData s _ := s.page
  inquiryData _ _ := none
  lunDirectory _ := 0
  setLunDirectory s _ _ := s
  setFatDirectory s _ := s
  fatFileInfo s _ := (none, s)
  openFatForRead s _ _ := (false, s)
  readNextFatBlock s := (none, s)
  closeFatForRead s := s
  fcodeWriteBuffer s _ _ := s
  fcodeReadBuffer _ := []
  fcodeClearBuffer s := s

theorem keysCard_hasPages : HasPages keysCard (fun s _ => s) fun _ _ => () where
  check _ _ _ := rfl
  write _ _ _ _ := rfl
  copy0 _ _ := rfl
  copy4 _ _ := rfl
  config _ _ := rfl
  attributes _ _ := rfl
  fileWrite _ _ _ _ := rfl
  fileCopy0 _ _ := rfl
  fileCopy4 _ _ := rfl

def someKeys : Stored where
  modeParamHeader := some [0, 0, 0, 8]
  lbaDescriptor := some [0, 0, 0, 0, 0, 0, 1, 0]
  page p := if p = 3 then some [3, 4, 0, 1, 0, 2] else if p = 35 then some [35, 1, 0] else none
  writPage3 := some [0, 0, 0, 0, 0xFF]
  geometry := ⟨256, 306, 4, 33⟩
  size := 0

def selecting (params : List UInt8) : Target Stored :=
  { Target.initial someKeys with data := #v[0x15, 0, 0, 0, UInt8.ofNat params.length, 0, 0, 0, 0, 0]
                                 acks := params.map some }

end Pi1MHz.ScsiPages
