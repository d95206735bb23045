import Mathlib.Data.List.GetD
import Pi1MHz.ScsiSectors

/-!
# BeebSCSI: READ6 and WRITE6 keep the array

The image of a LUN is, byte for byte, the array that the writes have made of it, as long as no write
begins past the end of the image, the host takes and gives every byte, and a write that does not end
with GOOD has not reached the card.
-/

namespace Pi1MHz.ScsiSectors

open Splice

/-! ### The property and its condition -/

def Disc.image (d : Disc) (lun : Fin 8) : List UInt8 := (d.luns lun).file.content

/-- What a command does to the images, and what it delivers of the array `m`. -/
structure Honest (d : Disc) (m : Fin 8 → Nat → UInt8) (c : Command) : Prop where
  write : ∀ lun lba count a, c = .write lun lba count a → (exec d c).1 = .good →
    ∀ i < blockCount count, ∀ j < 256,
      ((exec d c).2.2.image lun)[(lba.val + i) * 256 + j]? = (a.block i).host[j]?
  nowhere : ∀ lun lba count a, c = .write lun lba count a → (exec d c).1 = .good →
    ∀ other p, other ≠ lun ∨ p < lba.val * 256 ∨ (lba.val + blockCount count) * 256 ≤ p →
      ((exec d c).2.2.image other)[p]? = (d.image other)[p]?
  read : ∀ lun lba count a, c = .read lun lba count a → (exec d c).1 = .good →
    (exec d c).2.1 = (List.range (blockCount count)).map fun i =>
      (List.range 256).map fun j => m lun ((lba.val + i) * 256 + j)
  length : ∀ lun lba count a, c = .read lun lba count a →
    ∀ other, ((exec d c).2.2.image other).length = (d.image other).length

structure Takes (a : Flush) : Prop where
  err : a.err = false
  err2 : a.err2 = false
  room : SECTOR_BUFFER_LENGTH * 256 ≤ a.room

structure Refuses (a : Flush) : Prop where
  chain : a.chain = 0
  room : a.room = 0

def Flushes (n i : Nat) : Prop := i % SECTOR_BUFFER_LENGTH = SECTOR_BUFFER_LENGTH - 1 ∨ i + 1 = n

def Followed (d : Disc) : Command → Prop
  | .read _ _ count a => ∀ i < blockCount count, 256 ≤ (a.block i).taken
  | .write lun lba count a =>
    lba.val * 256 ≤ (d.image lun).length ∧
    (∀ i < blockCount count, (a.block i).host.length = 256) ∧
    (∀ i < blockCount count, SECTOR_BUFFER_LENGTH ≤ i → (a.block i).rst = false) ∧
    ∀ i < blockCount count, Flushes (blockCount count) i →
      Takes (a.block i).flush ∨ i < SECTOR_BUFFER_LENGTH ∧ Refuses (a.block i).flush
  | .start .. | .stop _ => True

def AllFollowed (d : Disc) : List Command → Prop
  | [] => True
  | c :: cs => Followed d c ∧ AllFollowed (exec d c).2.2 cs

structure Inv (d : Disc) (m : Fin 8 → Nat → UInt8) : Prop where
  image : ∀ lun p, (d.image lun).getD p 0 = m lun p
  full : ∀ lun, (d.luns lun).file.full = false

/-! ### Starting and stopping -/

theorem image_setFile_self (d : Disc) (lun : Fin 8) (f : Fil) : (d.setFile lun f).image lun = f.content := by
  simp [Disc.setFile, Disc.image]

theorem image_setFile_of_ne {d : Disc} {lun other : Fin 8} (f : Fil) (h : other ≠ lun) :
    (d.setFile lun f).luns other = d.luns other := by
  simp [Disc.setFile, h]

theorem startLun_image (d : Disc) (lun : Fin 8) (opens linkmap : Bool) (other : Fin 8) :
    (startLun d lun opens linkmap).2.image other = d.image other := by
  unfold startLun
  split
  · rfl
  · split
    · by_cases h : other = lun
      · subst h
        simp [Disc.image]
      · simp [Disc.image, h]
    · rfl

theorem startLun_full {d : Disc} (h : ∀ lun, (d.luns lun).file.full = false) (lun : Fin 8)
    (opens linkmap : Bool) (other : Fin 8) :
    ((startLun d lun opens linkmap).2.luns other).file.full = false := by
  unfold startLun
  split
  · exact h other
  · split
    · by_cases heq : other = lun
      · subst heq
        simp
      · simp only [ne_eq, heq, not_false_eq_true, Function.update_of_ne]
        exact h other
    · exact h other

theorem stopLun_file (d : Disc) (lun other : Fin 8) :
    ((stopLun d lun).luns other).file = (d.luns other).file := by
  by_cases h : other = lun
  · subst h
    simp [stopLun]
  · simp [stopLun, h]

theorem stopLun_image (d : Disc) (lun other : Fin 8) : (stopLun d lun).image other = d.image other := by
  simp only [Disc.image, stopLun_file]

/-! ### Reading -/

theorem getD_read (C : List UInt8) (P : Nat) {T q : Nat} (hq : q < T) :
    ((C.drop (min P C.length)).take T).getD q 0 = C.getD (P + q) 0 := by
  rw [List.getD_eq_getElem?_getD, List.getElem?_take_of_lt hq, List.getElem?_drop,
    ← List.getD_eq_getElem?_getD]
  by_cases h : P ≤ C.length
  · rw [Nat.min_eq_left h]
  · rw [Nat.min_eq_right (by omega), List.getD_eq_default _ _ (by omega),
      List.getD_eq_default _ _ (by omega)]

/-- Before block `i` of a READ6, with `n` blocks to come; `C` is the image and `P` its first byte. -/
structure ReadAt (lun : Fin 8) (C : List UInt8) (P i n : Nat) (d : Disc) : Prop where
  content : (d.luns lun).file.content = C
  inBuffer : d.sectorsInBuffer ≤ n
  remaining : d.sectorsRemaining = n - d.sectorsInBuffer
  fptr : (d.luns lun).file.fptr = min (P + (i + d.sectorsInBuffer) * 256) C.length
  buffer : ∀ k < d.sectorsInBuffer, ∀ j < 256,
    d.sectorBuffer ((d.currentBufferSector + k) * 256 + j) = C.getD (P + (i + k) * 256 + j) 0

structure SameFiles (d d' : Disc) : Prop where
  image : ∀ lun, d'.image lun = d.image lun
  full : ∀ lun, (d'.luns lun).file.full = (d.luns lun).file.full

theorem SameFiles.refl (d : Disc) : SameFiles d d := ⟨fun _ => rfl, fun _ => rfl⟩

theorem SameFiles.trans {d d' d'' : Disc} (h : SameFiles d d') (h' : SameFiles d' d'') :
    SameFiles d d'' where
  image lun := (h'.image lun).trans (h.image lun)
  full lun := (h'.full lun).trans (h.full lun)

theorem sameFiles_stop (d : Disc) (lun : Fin 8) : SameFiles d (stopLun d lun) where
  image := stopLun_image d lun
  full other := by rw [stopLun_file]

theorem sameFiles_setFile (d : Disc) (lun : Fin 8) {f : Fil} (hc : f.content = d.image lun)
    (hf : f.full = (d.luns lun).file.full) : SameFiles d (d.setFile lun f) where
  image other := by
    by_cases h : other = lun
    · subst h
      rw [image_setFile_self, hc]
    · simp only [Disc.image, image_setFile_of_ne f h]
  full other := by
    by_cases h : other = lun
    · subst h
      simpa [Disc.setFile] using hf
    · rw [image_setFile_of_ne f h]

theorem fRead_file (f : Fil) (err : Bool) (n : Nat) :
    (fRead f err n).2.content = f.content ∧ (fRead f err n).2.full = f.full := by
  unfold fRead
  split
  · exact ⟨rfl, rfl⟩
  · exact ⟨rfl, rfl⟩

theorem fillBuffer_files (d : Disc) (lun : Fin 8) (err : Bool) : SameFiles d (fillBuffer d lun err).2 := by
  obtain ⟨hc, hf⟩ := fRead_file (d.luns lun).file err (min d.sectorsRemaining SECTOR_BUFFER_LENGTH * 256)
  have hset := sameFiles_setFile d lun hc hf
  unfold fillBuffer
  simp only
  split
  · exact hset
  · exact ⟨hset.image, hset.full⟩

theorem readNextSector_files (d : Disc) (lun : Fin 8) (err : Bool) :
    SameFiles d (filesystemReadNextSector d lun err).2 := by
  have hfill := fillBuffer_files d lun err
  unfold filesystemReadNextSector
  simp only
  split
  · split
    · exact ⟨hfill.image, hfill.full⟩
    · exact hfill
  · exact ⟨fun _ => rfl, fun _ => rfl⟩

theorem fptr_after_read (C : List UInt8) (P T : Nat) :
    min P C.length + ((C.drop (min P C.length)).take T).length = min (P + T) C.length := by
  rw [List.length_take, List.length_drop]
  omega

theorem fillBuffer_spec {lun : Fin 8} {C : List UInt8} {P i n : Nat} {d : Disc}
    (h : ReadAt lun C P i (n + 1) d) (hempty : d.sectorsInBuffer = 0) :
    (fillBuffer d lun false).1 = true ∧ ReadAt lun C P i (n + 1) (fillBuffer d lun false).2 ∧
      0 < (fillBuffer d lun false).2.sectorsInBuffer := by
  have hrem : d.sectorsRemaining = n + 1 := by rw [h.remaining, hempty]; rfl
  have hfptr : (d.luns lun).file.fptr = min (P + i * 256) C.length := by
    rw [h.fptr, hempty]
    rfl
  have hlen : SECTOR_BUFFER_LENGTH = 64 := rfl
  simp only [fillBuffer, fRead, Bool.false_eq_true, if_false, hrem, h.content, hfptr]
  refine ⟨trivial, ?_, ?_⟩
  · constructor
    · simp [Disc.setFile]
    · exact Nat.min_le_left _ _
    · rfl
    · have hp : P + (i + min (n + 1) SECTOR_BUFFER_LENGTH) * 256
          = P + i * 256 + min (n + 1) SECTOR_BUFFER_LENGTH * 256 := by
        rw [Nat.add_mul, Nat.add_assoc]
      simp only [Disc.setFile, Function.update_self]
      rw [hp]
      exact fptr_after_read C (P + i * 256) _
    · intro k hk j hj
      have hq : (0 + k) * 256 + j < min (n + 1) SECTOR_BUFFER_LENGTH * 256 := by
        calc (0 + k) * 256 + j < (k + 1) * 256 := by omega
          _ ≤ min (n + 1) SECTOR_BUFFER_LENGTH * 256 := Nat.mul_le_mul_right 256 hk
      have hpos : P + i * 256 + ((0 + k) * 256 + j) = P + (i + k) * 256 + j := by omega
      have hread := getD_read C (P + i * 256) hq
      rw [hpos] at hread
      exact (if_pos hq).trans hread
  · simp only [hlen]
    omega

theorem readNextSector_spec {lun : Fin 8} {C : List UInt8} {P i n : Nat} {d : Disc}
    (h : ReadAt lun C P i (n + 1) d) {err : Bool} {sector : List UInt8}
    (hs : (filesystemReadNextSector d lun err).1 = some sector) :
    sector = ((List.range 256).map fun j => C.getD (P + i * 256 + j) 0) ∧
      ReadAt lun C P (i + 1) n (filesystemReadNextSector d lun err).2 := by
  -- with something in the buffer, the next sector is taken from it
  have htake : ∀ d' : Disc, ReadAt lun C P i (n + 1) d' → 0 < d'.sectorsInBuffer →
      sectorOf d'.sectorBuffer d'.currentBufferSector
          = ((List.range 256).map fun j => C.getD (P + i * 256 + j) 0) ∧
        ReadAt lun C P (i + 1) n
          { d' with currentBufferSector := d'.currentBufferSector + 1
                    sectorsInBuffer := d'.sectorsInBuffer - 1 } := by
    intro d' h' hpos
    constructor
    · apply List.map_congr_left
      intro j hj
      exact h'.buffer 0 hpos j (List.mem_range.mp hj)
    · have hin := h'.inBuffer
      constructor
      · exact h'.content
      · simp only
        omega
      · simp only
        rw [h'.remaining]
        omega
      · simp only
        rw [h'.fptr]
        have hi : i + d'.sectorsInBuffer = i + 1 + (d'.sectorsInBuffer - 1) := by omega
        rw [hi]
      · intro k hk j hj
        have hk' : k + 1 < d'.sectorsInBuffer := by
          simp only at hk
          omega
        have hbuf := h'.buffer (k + 1) hk' j hj
        have hcur : d'.currentBufferSector + 1 + k = d'.currentBufferSector + (k + 1) := by omega
        have hik : i + 1 + k = i + (k + 1) := by omega
        simp only [hcur, hik]
        exact hbuf
  unfold filesystemReadNextSector at hs ⊢
  by_cases hempty : d.sectorsInBuffer = 0
  · cases err with
    | false =>
      obtain ⟨hok, hat, hpos⟩ := fillBuffer_spec h hempty
      obtain ⟨hsec, hnext⟩ := htake _ hat hpos
      simp only [hempty, if_true, hok] at hs ⊢
      exact ⟨(Option.some.inj hs).symm.trans hsec, hnext⟩
    | true => simp [hempty, fillBuffer, fRead] at hs
  · obtain ⟨hsec, hnext⟩ := htake d h (by omega)
    simp only [hempty, if_false, if_true] at hs ⊢
    exact ⟨(Option.some.inj hs).symm.trans hsec, hnext⟩

theorem readLoop_files (lun : Fin 8) (block : Nat → ReadBlock) (n i : Nat) (d : Disc) :
    SameFiles d (readLoop lun block n i d).2.2 := by
  induction n generalizing i d with
  | zero => exact SameFiles.refl d
  | succ n ih =>
    have hnext := readNextSector_files d lun (block i).err
    simp only [readLoop]
    split
    · exact hnext.trans (sameFiles_stop _ lun)
    · split
      · exact hnext.trans (sameFiles_stop _ lun)
      · exact hnext.trans (ih (i + 1) _)

theorem readLoop_spec {lun : Fin 8} {C : List UInt8} {P : Nat} {block : Nat → ReadBlock} {n i : Nat} {d : Disc}
    (h : ReadAt lun C P i n d) (htaken : ∀ k, i ≤ k → k < i + n → 256 ≤ (block k).taken)
    (hgood : (readLoop lun block n i d).1 = .good) :
    (readLoop lun block n i d).2.1 = (List.range n).map fun k =>
      (List.range 256).map fun j => C.getD (P + (i + k) * 256 + j) 0 := by
  induction n generalizing i d with
  | zero => rfl
  | succ n ih =>
    simp only [readLoop] at hgood ⊢
    cases hs : (filesystemReadNextSector d lun (block i).err).1 with
    | none => simp [hs] at hgood
    | some sector =>
      obtain ⟨hsec, hnext⟩ := readNextSector_spec h hs
      simp only [hs] at hgood ⊢
      split at hgood
      · cases hgood
      · next hrst =>
        rw [if_neg hrst]
        have hwhole : sector.take (block i).taken = sector := by
          apply List.take_of_length_le
          rw [hsec, List.length_map, List.length_range]
          exact htaken i (Nat.le_refl i) (by omega)
        have hrest := ih hnext (fun k hk hk' => htaken k (by omega) (by omega)) hgood
        simp only [hwhole]
        have hrange : List.range (n + 1) = 0 :: (List.range n).map Nat.succ := List.range_succ_eq_map
        have hmap : (List.range n).map (fun k => (List.range 256).map fun j =>
              C.getD (P + (i + 1 + k) * 256 + j) 0)
            = (List.range n).map ((fun k => (List.range 256).map fun j =>
              C.getD (P + (i + k) * 256 + j) 0) ∘ Nat.succ) := by
          apply List.map_congr_left
          intro k _
          have hik : i + 1 + k = i + (k + 1) := by omega
          simp only [Function.comp, hik, Nat.succ_eq_add_one]
        rw [hrest, hmap, hrange, List.map_cons, List.map_map, hsec]
        rfl

theorem fLseek_within {f : Fil} {a : Seek} {ofs : Nat} (h : ofs ≤ f.content.length) :
    (fLseek f a ofs).2.content = f.content ∧ (fLseek f a ofs).2.full = f.full ∧
      ((fLseek f a ofs).1 = true → (fLseek f a ofs).2.fptr = ofs) := by
  unfold fLseek
  split
  · exact ⟨rfl, rfl, nofun⟩
  · split
    · exact ⟨rfl, rfl, fun _ => Nat.min_eq_left h⟩
    · exact ⟨rfl, rfl, fun _ => rfl⟩

theorem openLunForRead_spec (d : Disc) (lun : Fin 8) (a : Seek) (startSector n : Nat) :
    SameFiles d (filesystemOpenLunForRead d lun a startSector n).2 ∧
      ((filesystemOpenLunForRead d lun a startSector n).1 = true →
        ReadAt lun (d.image lun) (startSector * 256) 0 n
          (filesystemOpenLunForRead d lun a startSector n).2) := by
  obtain ⟨hc, hf, hp⟩ := fLseek_within (f := (d.luns lun).file) (a := a)
    (Nat.min_le_right (startSector * 256) (d.luns lun).file.content.length)
  have hset := sameFiles_setFile d lun hc hf
  unfold filesystemOpenLunForRead
  simp only
  split
  · next hok =>
    refine ⟨⟨hset.image, hset.full⟩, fun _ => ?_⟩
    constructor
    · simp only [Disc.setFile, Function.update_self]
      exact hc
    · exact Nat.zero_le n
    · rfl
    · simp only [Disc.setFile, Function.update_self]
      rw [hp hok]
      simp [Disc.image]
    · exact nofun
  · exact ⟨hset, nofun⟩

theorem sameFiles_start {d : Disc} (h : ∀ lun, (d.luns lun).file.full = false) (lun : Fin 8)
    (opens linkmap : Bool) : SameFiles d (startLun d lun opens linkmap).2 where
  image := startLun_image d lun opens linkmap
  full other := by rw [startLun_full h, h]

theorem read6_files {d : Disc} (h : ∀ lun, (d.luns lun).file.full = false) (lun : Fin 8)
    (lba : Fin (2 ^ 21)) (count : UInt8) (a : ReadAnswers) :
    SameFiles d (scsiCommandRead6 d lun lba count a).2.2 := by
  have hstart := sameFiles_start h lun a.opens a.linkmap
  have hopen := (openLunForRead_spec (startLun d lun a.opens a.linkmap).2 lun a.seek lba.val
    (blockCount count)).1
  unfold scsiCommandRead6
  simp only
  split
  · split
    · exact (hstart.trans hopen).trans (readLoop_files _ _ _ _ _)
    · exact (hstart.trans hopen).trans (sameFiles_stop _ lun)
  · exact hstart

theorem read6_spec {d : Disc} {m : Fin 8 → Nat → UInt8} (h : Inv d m) {lun : Fin 8} {lba : Fin (2 ^ 21)}
    {count : UInt8} {a : ReadAnswers} (htaken : ∀ i < blockCount count, 256 ≤ (a.block i).taken)
    (hgood : (scsiCommandRead6 d lun lba count a).1 = .good) :
    (scsiCommandRead6 d lun lba count a).2.1 = (List.range (blockCount count)).map fun i =>
      (List.range 256).map fun j => m lun ((lba.val + i) * 256 + j) := by
  have hstart := sameFiles_start h.full lun a.opens a.linkmap
  have hopen := (openLunForRead_spec (startLun d lun a.opens a.linkmap).2 lun a.seek lba.val
    (blockCount count)).2
  unfold scsiCommandRead6 at hgood ⊢
  simp only at hgood ⊢
  split at hgood
  · next hs =>
    rw [if_pos hs]
    split at hgood
    · next ho =>
      rw [if_pos ho]
      have hat := hopen ho
      rw [hstart.image lun] at hat
      rw [readLoop_spec hat (fun k _ hk => htaken k (by omega)) hgood]
      apply List.map_congr_left
      intro i _
      apply List.map_congr_left
      intro j _
      have hpos : lba.val * 256 + (0 + i) * 256 + j = (lba.val + i) * 256 + j := by omega
      rw [hpos]
      exact h.image lun _
    · cases hgood
  · cases hgood

/-! ### Writing -/

/-- The bytes of the blocks from `i` on, `n` of them. -/
def bytesOf (block : Nat → WriteBlock) (i n : Nat) : List UInt8 :=
  (List.range (n * 256)).map fun q => (block (i + q / 256)).buffer (q % 256)

theorem length_bytesOf (block : Nat → WriteBlock) (i n : Nat) : (bytesOf block i n).length = n * 256 := by
  simp [bytesOf]

theorem getElem?_bytesOf (block : Nat → WriteBlock) (i : Nat) {n q : Nat} (h : q < n * 256) :
    (bytesOf block i n)[q]? = some ((block (i + q / 256)).buffer (q % 256)) := by
  simp [bytesOf, h]

theorem bytesOf_append (block : Nat → WriteBlock) (i n k : Nat) :
    bytesOf block i n ++ bytesOf block (i + n) k = bytesOf block i (n + k) := by
  apply List.ext_getElem?
  intro q
  have hsum : (n + k) * 256 = n * 256 + k * 256 := Nat.add_mul n k 256
  by_cases hq : q < n * 256
  · have hq' : q < (n + k) * 256 :=
      Nat.lt_of_lt_of_le hq (Nat.mul_le_mul_right 256 (Nat.le_add_right n k))
    rw [List.getElem?_append_left (by rw [length_bytesOf]; exact hq), getElem?_bytesOf _ _ hq,
      getElem?_bytesOf _ _ hq']
  · have hge : n * 256 ≤ q := Nat.le_of_not_lt hq
    rw [List.getElem?_append_right (by rw [length_bytesOf]; exact hge), length_bytesOf]
    by_cases hq' : q < (n + k) * 256
    · have hlast : q - n * 256 < k * 256 := by omega
      have hdiv : i + n + (q - n * 256) / 256 = i + q / 256 := by omega
      have hmod : (q - n * 256) % 256 = q % 256 := by omega
      rw [getElem?_bytesOf _ _ hq', getElem?_bytesOf _ _ hlast, hdiv, hmod]
    · have hend : (n + k) * 256 ≤ q := Nat.le_of_not_lt hq'
      have hlast : k * 256 ≤ q - n * 256 := by
        apply Nat.le_sub_of_add_le
        rw [Nat.add_comm, ← hsum]
        exact hend
      rw [List.getElem?_eq_none (by rw [length_bytesOf]; exact hlast),
        List.getElem?_eq_none (by rw [length_bytesOf]; exact hend)]

theorem writeOut_takes {f : Fil} {a : Flush} {data : List UInt8} (h : Takes a) (hfull : f.full = false)
    (hlen : data.length ≤ SECTOR_BUFFER_LENGTH * 256) (hp : f.fptr ≤ f.content.length) :
    (writeOut f a data).1 = true ∧ (writeOut f a data).2.content = splice f.content f.fptr data ∧
      (writeOut f a data).2.fptr = f.fptr + data.length ∧ (writeOut f a data).2.full = false := by
  have hroom : min a.room data.length = data.length := Nat.min_eq_right (Nat.le_trans hlen h.room)
  cases hfast : f.fast with
  | false => simp [writeOut, fWrite, hfast, hfull, h.err, hroom]
  | true =>
    by_cases hchain : data.length ≤ a.chain
    · have hall : min a.chain data.length = data.length := Nat.min_eq_right hchain
      simp [writeOut, fWrite, hfast, hfull, h.err, hall]
    · -- the clusters end before the data do
      have hpart : min a.chain data.length = a.chain := Nat.min_eq_left (by omega)
      have hne : (a.chain != data.length) = true := by
        simp only [bne_iff_ne, ne_eq]
        omega
      have hrest : min a.room (data.length - a.chain) = data.length - a.chain :=
        Nat.min_eq_right (by have := h.room; omega)
      have hlen1 : (data.take a.chain).length = a.chain := by
        rw [List.length_take]
        omega
      have hjoin := splice_append hp (data.take a.chain) (data.drop a.chain)
      rw [hlen1, List.take_append_drop] at hjoin
      have hdrop : (data.drop a.chain).take (data.length - a.chain) = data.drop a.chain := by
        have hlen2 : (data.drop a.chain).length = data.length - a.chain := List.length_drop
        exact List.take_of_length_le (Nat.le_of_eq hlen2)
      simp only [writeOut, fWrite, hfast, hfull, h.err, h.err2, if_true, Bool.false_eq_true, if_false,
        Bool.not_false, hpart, hne, Bool.and_self, Bool.true_and, List.length_drop, hrest, hdrop, hjoin,
        decide_eq_true_eq]
      refine ⟨by omega, trivial, by omega, trivial⟩

theorem writeOut_refuses {f : Fil} {a : Flush} {data : List UInt8} (h : Refuses a) (hpos : 0 < data.length) :
    (writeOut f a data).1 = false ∧ (writeOut f a data).2.content = f.content ∧
      (writeOut f a data).2.full = f.full := by
  have hne : ¬ 0 = data.length := by omega
  cases hfast : f.fast with
  | false => simp [writeOut, fWrite, hfast, h.room, hne]
  | true =>
    cases herr : a.err with
    | false => simp [writeOut, fWrite, hfast, h.room, h.chain, herr, hne]
    | true => simp [writeOut, fWrite, hfast, h.chain, herr, hne]

/-- Before block `pre + k` of a WRITE6, with `n` blocks to come: `pre` blocks are in the file, whose
content was `C`, from `start` on, and `k` are in the buffer. -/
structure WriteAt (lun : Fin 8) (block : Nat → WriteBlock) (C : List UInt8) (start pre k n : Nat) (d : Disc) :
    Prop where
  within : start ≤ C.length
  whole : n ≠ 0 → pre % SECTOR_BUFFER_LENGTH = 0
  small : k < SECTOR_BUFFER_LENGTH
  last : n = 0 → k = 0
  current : d.currentBufferSector = k
  remaining : d.sectorsRemaining = n + k
  content : (d.luns lun).file.content = splice C start (bytesOf block 0 pre)
  fptr : (d.luns lun).file.fptr = start + pre * 256
  full : (d.luns lun).file.full = false
  buffer : ∀ q < k * 256, d.sectorBuffer q = (block (pre + q / 256)).buffer (q % 256)

theorem writeNextSector_other {d : Disc} {lun other : Fin 8} (a : Flush) (buffer : Nat → UInt8)
    (h : other ≠ lun) : (filesystemWriteNextSector d lun a buffer).2.luns other = d.luns other := by
  simp only [filesystemWriteNextSector, apply_ite Prod.snd]
  repeat' split
  all_goals simp [Disc.setFile, h]

theorem buffer_next {block : Nat → WriteBlock} {pre k : Nat} {b : Nat → UInt8}
    (h : ∀ q < k * 256, b q = (block (pre + q / 256)).buffer (q % 256)) (q : Nat) (hq : q < (k + 1) * 256) :
    (if k * 256 ≤ q ∧ q < (k + 1) * 256 then (block (pre + k)).buffer (q - k * 256) else b q)
      = (block (pre + q / 256)).buffer (q % 256) := by
  by_cases hk : k * 256 ≤ q
  · have hdiv : q / 256 = k := by omega
    have hmod : q % 256 = q - k * 256 := by omega
    rw [if_pos ⟨hk, hq⟩, hdiv, hmod]
  · rw [if_neg (fun hc => hk hc.1)]
    exact h q (Nat.lt_of_not_le hk)

theorem writeNextSector_spec {lun : Fin 8} {block : Nat → WriteBlock} {C : List UInt8}
    {start pre k n : Nat} {d : Disc} (h : WriteAt lun block C start pre k (n + 1) d)
    (hcard : k + 1 = SECTOR_BUFFER_LENGTH ∨ n = 0 →
      Takes (block (pre + k)).flush ∨ pre = 0 ∧ Refuses (block (pre + k)).flush) :
    ((filesystemWriteNextSector d lun (block (pre + k)).flush (block (pre + k)).buffer).1 = true ∧
      ∃ pre' k', pre' + k' = pre + k + 1 ∧ WriteAt lun block C start pre' k' n
        (filesystemWriteNextSector d lun (block (pre + k)).flush (block (pre + k)).buffer).2) ∨
    ((filesystemWriteNextSector d lun (block (pre + k)).flush (block (pre + k)).buffer).1 = false ∧
      (filesystemWriteNextSector d lun (block (pre + k)).flush (block (pre + k)).buffer).2.image lun = C ∧
      ((filesystemWriteNextSector d lun (block (pre + k)).flush
        (block (pre + k)).buffer).2.luns lun).file.full = false) := by
  have hbuf := buffer_next h.buffer
  have hsmall := h.small
  simp only [filesystemWriteNextSector, h.current, h.remaining]
  by_cases hflush : k + 1 = SECTOR_BUFFER_LENGTH ∨ k + 1 = n + 1 + k
  · -- the buffer goes to the file
    have hdue : k + 1 = SECTOR_BUFFER_LENGTH ∨ n = 0 := hflush.imp_right fun hn => by omega
    rw [if_pos hflush]
    have hcount : (if k + 1 = SECTOR_BUFFER_LENGTH then SECTOR_BUFFER_LENGTH else n + 1 + k) = k + 1 := by
      rcases hdue with hk | rfl
      · rw [if_pos hk, hk]
      · split
        · next hk => exact hk.symm
        · rw [Nat.zero_add, Nat.add_comm]
    have hdata : (List.range ((k + 1) * 256)).map (fun q =>
          if k * 256 ≤ q ∧ q < (k + 1) * 256 then (block (pre + k)).buffer (q - k * 256)
          else d.sectorBuffer q) = bytesOf block pre (k + 1) := by
      apply List.map_congr_left
      intro q hq
      exact hbuf q (List.mem_range.mp hq)
    rw [hcount, hdata]
    have hwithin : (d.luns lun).file.fptr ≤ (d.luns lun).file.content.length := by
      rw [h.fptr, h.content, length_splice h.within, length_bytesOf]
      exact Nat.le_max_right _ _
    rcases hcard hdue with htakes | ⟨rfl, hrefuses⟩
    · left
      have hlen : (bytesOf block pre (k + 1)).length ≤ SECTOR_BUFFER_LENGTH * 256 := by
        rw [length_bytesOf]
        exact Nat.mul_le_mul_right 256 hsmall
      obtain ⟨hok, hcontent, hfptr, hfull⟩ := writeOut_takes htakes h.full hlen hwithin
      rw [if_pos hok]
      refine ⟨rfl, pre + k + 1, 0, rfl, ?_⟩
      constructor
      · exact h.within
      · intro hn
        have hk : k + 1 = SECTOR_BUFFER_LENGTH := hdue.resolve_right hn
        rw [Nat.add_assoc, hk, Nat.add_mod_right]
        exact h.whole (Nat.succ_ne_zero n)
      · exact Nat.zero_lt_of_lt hsmall
      · exact fun _ => rfl
      · rfl
      · change n + 1 + k - (k + 1) = n + 0
        omega
      · have hjoin := splice_append h.within (bytesOf block 0 pre) (bytesOf block pre (k + 1))
        have hbytes := bytesOf_append block 0 pre (k + 1)
        rw [Nat.zero_add] at hbytes
        rw [hbytes, length_bytesOf] at hjoin
        simp only [Disc.setFile, Function.update_self]
        rw [hcontent, h.content, h.fptr, hjoin, Nat.add_assoc]
      · simp only [Disc.setFile, Function.update_self]
        rw [hfptr, h.fptr, length_bytesOf, Nat.add_assoc, ← Nat.add_mul, Nat.add_assoc]
      · simp only [Disc.setFile, Function.update_self]
        exact hfull
      · intro q hq
        rw [Nat.zero_mul] at hq
        exact absurd hq (Nat.not_lt_zero q)
    · right
      have hpos : 0 < (bytesOf block 0 (k + 1)).length := by
        rw [length_bytesOf]
        exact Nat.mul_pos (Nat.succ_pos k) (Nat.succ_pos 255)
      obtain ⟨hfail, hcontent, hfull⟩ := writeOut_refuses (f := (d.luns lun).file) hrefuses hpos
      rw [if_neg (by rw [hfail]; exact Bool.false_ne_true)]
      refine ⟨rfl, ?_, ?_⟩
      · rw [image_setFile_self, hcontent, h.content]
        exact splice_nil C start
      · simp only [Disc.setFile, Function.update_self]
        rw [hfull, h.full]
  · -- it stays in the buffer
    left
    rw [if_neg hflush]
    refine ⟨rfl, pre, k + 1, rfl, ?_⟩
    refine { h with whole := ?_, small := ?_, last := ?_, current := ?_, remaining := ?_, buffer := ?_ }
    · exact fun _ => h.whole (Nat.succ_ne_zero n)
    · omega
    · omega
    · rfl
    · change n + 1 + k = n + (k + 1)
      omega
    · exact hbuf

theorem writeLoop_spec {lun : Fin 8} {block : Nat → WriteBlock} {C : List UInt8} {start count : Nat}
    (hrst : ∀ i < count, SECTOR_BUFFER_LENGTH ≤ i → (block i).rst = false)
    (hcard : ∀ i < count, Flushes count i →
      Takes (block i).flush ∨ i < SECTOR_BUFFER_LENGTH ∧ Refuses (block i).flush)
    {n pre k : Nat} {d : Disc} (hn : pre + k + n = count) (h : WriteAt lun block C start pre k n d) :
    (writeLoop lun block n (pre + k) d).2.image lun
        = (if (writeLoop lun block n (pre + k) d).1 = .good then splice C start (bytesOf block 0 count) else C) ∧
      ((writeLoop lun block n (pre + k) d).2.luns lun).file.full = false := by
  induction n generalizing pre k d with
  | zero =>
    have hk := h.last rfl
    subst hk
    simp only [writeLoop, if_true]
    have hcount : pre = count := hn
    rw [← hcount]
    exact ⟨h.content, h.full⟩
  | succ n ih =>
    -- the first 64 blocks stay in the buffer until the last of them
    have hfirst : pre + k < SECTOR_BUFFER_LENGTH → pre = 0 := by
      intro hlt
      have hwhole := h.whole (Nat.succ_ne_zero n)
      rw [Nat.mod_eq_of_lt (Nat.lt_of_le_of_lt (Nat.le_add_right pre k) hlt)] at hwhole
      exact hwhole
    have hlt : pre + k < count := by omega
    simp only [writeLoop]
    by_cases hreset : (block (pre + k)).rst = true
    · have hzero : pre = 0 := by
        apply hfirst
        apply Nat.lt_of_not_le
        intro hge
        rw [hrst _ hlt hge] at hreset
        cases hreset
      subst hzero
      rw [if_pos hreset, if_neg (by simp), stopLun_image, stopLun_file]
      refine ⟨?_, h.full⟩
      rw [Disc.image, h.content]
      exact splice_nil C start
    · rw [if_neg hreset]
      have hdue : k + 1 = SECTOR_BUFFER_LENGTH ∨ n = 0 →
          Takes (block (pre + k)).flush ∨ pre = 0 ∧ Refuses (block (pre + k)).flush := by
        intro hdue
        have hfl : Flushes count (pre + k) := by
          rcases hdue with hk | rfl
          · left
            have hwhole := h.whole (Nat.succ_ne_zero n)
            rw [Nat.add_mod, hwhole, Nat.zero_add, Nat.mod_mod, Nat.mod_eq_of_lt h.small]
            exact Nat.eq_sub_of_add_eq hk
          · right
            exact hn
        rcases hcard _ hlt hfl with htakes | ⟨hsmall, hrefuses⟩
        · exact .inl htakes
        · exact .inr ⟨hfirst hsmall, hrefuses⟩
      rcases writeNextSector_spec h hdue with ⟨hok, pre', k', hpos, hnext⟩ | ⟨hfail, hcontent, hfull⟩
      · rw [if_pos hok, ← hpos]
        exact ih (by omega) hnext
      · rw [if_neg (by rw [hfail]; exact Bool.false_ne_true), if_neg (by simp), stopLun_image, stopLun_file]
        exact ⟨hcontent, hfull⟩

theorem writeLoop_other {lun other : Fin 8} (block : Nat → WriteBlock) (h : other ≠ lun) (n i : Nat)
    (d : Disc) : ((writeLoop lun block n i d).2.luns other).file = (d.luns other).file := by
  induction n generalizing i d with
  | zero => rfl
  | succ n ih =>
    have hnext := writeNextSector_other (d := d) (block i).flush (block i).buffer h
    simp only [writeLoop]
    split
    · exact stopLun_file d lun other
    · split
      · rw [ih, hnext]
      · rw [stopLun_file, hnext]

theorem openLunForWrite_spec {d : Disc} (lun : Fin 8) (a : OpenWrite) {startSector n : Nat}
    (hfull : (d.luns lun).file.full = false) (hwithin : startSector * 256 ≤ (d.image lun).length)
    (block : Nat → WriteBlock) :
    (filesystemOpenLunForWrite d lun a startSector n).2.image lun = d.image lun ∧
      ((filesystemOpenLunForWrite d lun a startSector n).2.luns lun).file.full = false ∧
      (∀ other, other ≠ lun →
        (filesystemOpenLunForWrite d lun a startSector n).2.luns other = d.luns other) ∧
      ((filesystemOpenLunForWrite d lun a startSector n).1 = true →
        WriteAt lun block (d.image lun) (startSector * 256) 0 0 n
          (filesystemOpenLunForWrite d lun a startSector n).2) := by
  obtain ⟨hc, hf, hp⟩ := fLseek_within (a := a.seek) hwithin
  have hgrow : ¬ ((d.luns lun).file.fast = true ∧
      (d.luns lun).file.content.length < startSector * 256) := fun hg => Nat.not_lt_of_le hwithin hg.2
  simp only [filesystemOpenLunForWrite, if_neg hgrow, if_true]
  by_cases hok : (fLseek (d.luns lun).file a.seek (startSector * 256)).1 = true
  · rw [if_pos hok]
    refine ⟨?_, ?_, fun other h => image_setFile_of_ne _ h, fun _ => ?_⟩
    · exact (image_setFile_self d lun _).trans hc
    · simp only [Disc.setFile, Function.update_self]
      rw [hf, hfull]
    · constructor
      · exact hwithin
      · exact fun _ => rfl
      · exact Nat.succ_pos 63
      · exact fun _ => rfl
      · rfl
      · rfl
      · simp only [Disc.setFile, Function.update_self]
        exact hc.trans (splice_nil _ _).symm
      · simp only [Disc.setFile, Function.update_self]
        rw [hp hok, Nat.zero_mul, Nat.add_zero]
      · simp only [Disc.setFile, Function.update_self]
        rw [hf, hfull]
      · intro q hq
        rw [Nat.zero_mul] at hq
        exact absurd hq (Nat.not_lt_zero q)
  · rw [if_neg hok]
    refine ⟨?_, ?_, fun other h => image_setFile_of_ne _ h, nofun⟩
    · exact (image_setFile_self d lun _).trans hc
    · simp only [Disc.setFile, Function.update_self]
      rw [hf, hfull]

structure Wrote (d d' : Disc) (lun : Fin 8) (start : Nat) (data : List UInt8) (ending : Ending) : Prop where
  image : d'.image lun = if ending = .good then splice (d.image lun) start data else d.image lun
  other : ∀ other, other ≠ lun → d'.image other = d.image other
  full : ∀ any, (d'.luns any).file.full = false

theorem write6_spec {d : Disc} (hfull : ∀ lun, (d.luns lun).file.full = false) {lun : Fin 8}
    {lba : Fin (2 ^ 21)} {count : UInt8} {a : WriteAnswers} (h : Followed d (.write lun lba count a)) :
    Wrote d (scsiCommandWrite6 d lun lba count a).2 lun (lba.val * 256) (bytesOf a.block 0 (blockCount count))
      (scsiCommandWrite6 d lun lba count a).1 := by
  obtain ⟨hwithin, -, hrst, hcard⟩ := h
  have hstart := sameFiles_start hfull lun a.opens a.linkmap
  have hsfull := startLun_full hfull lun a.opens a.linkmap
  -- a command that stops there has written nothing
  have hnone : ∀ d', SameFiles d d' → Wrote d d' lun (lba.val * 256) (bytesOf a.block 0 (blockCount count))
      .check := by
    intro d' hsame
    constructor
    · exact hsame.image lun
    · exact fun other _ => hsame.image other
    · intro any
      rw [hsame.full, hfull]
  rw [← hstart.image lun] at hwithin
  obtain ⟨himage, hofull, hother, hat⟩ := openLunForWrite_spec lun a.seek (hsfull lun) hwithin a.block
  unfold scsiCommandWrite6
  simp only
  split
  · have hopen : SameFiles d (filesystemOpenLunForWrite (startLun d lun a.opens a.linkmap).2 lun a.seek
        lba.val (blockCount count)).2 := by
      apply hstart.trans
      constructor
      · intro other
        by_cases heq : other = lun
        · rw [heq, himage]
        · rw [Disc.image, hother other heq, Disc.image]
      · intro other
        by_cases heq : other = lun
        · rw [heq, hofull, hsfull]
        · rw [hother other heq]
    split
    · next ho =>
      have hloop := writeLoop_spec hrst hcard (Nat.zero_add _) (hat ho)
      have hrest := fun other (hne : other ≠ lun) => writeLoop_other a.block hne (blockCount count) 0
        (filesystemOpenLunForWrite (startLun d lun a.opens a.linkmap).2 lun a.seek lba.val
          (blockCount count)).2
      constructor
      · rw [← hstart.image lun]
        exact hloop.1
      · intro other hne
        rw [Disc.image, hrest other hne]
        exact hopen.image other
      · intro any
        by_cases heq : any = lun
        · rw [heq]
          exact hloop.2
        · rw [hrest any heq, hopen.full, hfull]
    · exact hnone _ (hopen.trans (sameFiles_stop _ lun))
  · exact hnone _ hstart

theorem buffer_host {b : WriteBlock} (h : b.host.length = 256) {j : Nat} (hj : j < 256) :
    b.host[j]? = some (b.buffer j) ∧ b.host.getD j 0 = b.buffer j := by
  have hin : j < b.host.length := by
    rw [h]
    exact hj
  simp [WriteBlock.buffer, hin]

/-! ### A run -/

theorem write_honest {d : Disc} {m : Fin 8 → Nat → UInt8} (h : Inv d m) {lun : Fin 8} {lba : Fin (2 ^ 21)}
    {count : UInt8} {a : WriteAnswers} (hc : Followed d (.write lun lba count a)) :
    Honest d m (.write lun lba count a) := by
  have hw := write6_spec h.full hc
  obtain ⟨hwithin, hhost, -, -⟩ := hc
  constructor
  · intro lun' lba' count' a' heq hgood i hi j hj
    cases heq
    change (scsiCommandWrite6 d lun lba count a).1 = .good at hgood
    have himage := hw.image
    rw [if_pos hgood] at himage
    change ((scsiCommandWrite6 d lun lba count a).2.image lun)[(lba.val + i) * 256 + j]? = _
    have hpos : (lba.val + i) * 256 + j = lba.val * 256 + (i * 256 + j) := by
      rw [Nat.add_mul, Nat.add_assoc]
    have hq : i * 256 + j < blockCount count * 256 := by
      calc i * 256 + j < (i + 1) * 256 := by omega
        _ ≤ blockCount count * 256 := Nat.mul_le_mul_right 256 hi
    have hdiv : (i * 256 + j) / 256 = i := by omega
    have hmod : (i * 256 + j) % 256 = j := by omega
    rw [himage, hpos, getElem?_splice_in hwithin _ (by rw [length_bytesOf]; exact hq),
      getElem?_bytesOf _ _ hq, hdiv, hmod, Nat.zero_add, (buffer_host (hhost i hi) hj).1]
  · intro lun' lba' count' a' heq hgood other p hout
    cases heq
    change (scsiCommandWrite6 d lun lba count a).1 = .good at hgood
    change ((scsiCommandWrite6 d lun lba count a).2.image other)[p]? = _
    by_cases hne : other = lun
    · have himage := hw.image
      rw [if_pos hgood] at himage
      rw [hne, himage]
      apply getElem?_splice_out hwithin
      rw [length_bytesOf, ← Nat.add_mul]
      rcases hout with hother | hbefore | hafter
      · exact absurd hne hother
      · exact .inl hbefore
      · exact .inr hafter
    · rw [hw.other other hne]
  · exact nofun
  · exact nofun

theorem write_inv {d : Disc} {m : Fin 8 → Nat → UInt8} (h : Inv d m) {lun : Fin 8} {lba : Fin (2 ^ 21)}
    {count : UInt8} {a : WriteAnswers} (hc : Followed d (.write lun lba count a)) :
    Inv (scsiCommandWrite6 d lun lba count a).2
      (store m (scsiCommandWrite6 d lun lba count a).1 (.write lun lba count a)) := by
  have hw := write6_spec h.full hc
  obtain ⟨hwithin, hhost, -, -⟩ := hc
  constructor
  · intro any p
    by_cases hne : any = lun
    · subst hne
      have himage := hw.image
      by_cases hgood : (scsiCommandWrite6 d any lba count a).1 = .good
      · rw [if_pos hgood] at himage
        simp only [store, if_pos hgood, Function.update_self, stored]
        rw [himage, List.getD_eq_getElem?_getD]
        split
        · next hin =>
          obtain ⟨hlo, hhi⟩ := hin
          obtain ⟨q, rfl⟩ : ∃ q, p = lba.val * 256 + q := ⟨p - lba.val * 256, (Nat.add_sub_of_le hlo).symm⟩
          have hq : q < blockCount count * 256 := Nat.lt_of_add_lt_add_left hhi
          have hi : q / 256 < blockCount count := Nat.div_lt_of_lt_mul (by rw [Nat.mul_comm]; exact hq)
          have hj : q % 256 < 256 := Nat.mod_lt q (Nat.succ_pos 255)
          rw [getElem?_splice_in hwithin _ (by rw [length_bytesOf]; exact hq), getElem?_bytesOf _ _ hq,
            Nat.add_sub_cancel_left, Nat.zero_add, (buffer_host (hhost _ hi) hj).2]
          exact Option.getD_some
        · next hout =>
          have hpart : p < lba.val * 256 ∨ lba.val * 256 + (bytesOf a.block 0 (blockCount count)).length ≤ p := by
            rw [length_bytesOf]
            by_cases hlo : lba.val * 256 ≤ p
            · exact .inr (Nat.le_of_not_lt fun hhi => hout ⟨hlo, hhi⟩)
            · exact .inl (Nat.lt_of_not_le hlo)
          rw [getElem?_splice_out hwithin _ hpart, ← List.getD_eq_getElem?_getD]
          exact h.image any p
      · rw [if_neg hgood] at himage
        simp only [store, if_neg hgood]
        rw [himage, h.image]
    · have hstore : store m (scsiCommandWrite6 d lun lba count a).1 (.write lun lba count a) any = m any := by
        simp only [store]
        split
        · exact Function.update_of_ne hne _ _
        · rfl
      rw [hstore, hw.other any hne, h.image]
  · exact hw.full

theorem Inv.step {d : Disc} {m : Fin 8 → Nat → UInt8} (h : Inv d m) {c : Command} (hc : Followed d c) :
    Honest d m c ∧ Inv (exec d c).2.2 (store m (exec d c).1 c) := by
  cases c with
  | read lun lba count a =>
    have hfiles := read6_files h.full lun lba count a
    constructor
    · constructor
      · exact nofun
      · exact nofun
      · intro lun' lba' count' a' heq hgood
        cases heq
        exact read6_spec h hc hgood
      · intro lun' lba' count' a' heq other
        cases heq
        exact congrArg List.length (hfiles.image other)
    · constructor
      · intro any p
        change ((scsiCommandRead6 d lun lba count a).2.2.image any).getD p 0 = m any p
        rw [hfiles.image, h.image]
      · intro any
        change ((scsiCommandRead6 d lun lba count a).2.2.luns any).file.full = false
        rw [hfiles.full, h.full]
  | write lun lba count a => exact ⟨write_honest h hc, write_inv h hc⟩
  | start lun opens linkmap =>
    constructor
    · constructor <;> exact nofun
    · constructor
      · intro any p
        change ((startLun d lun opens linkmap).2.image any).getD p 0 = m any p
        rw [startLun_image, h.image]
      · exact startLun_full h.full lun opens linkmap
  | stop lun =>
    constructor
    · constructor <;> exact nofun
    · constructor
      · intro any p
        change ((stopLun d lun).image any).getD p 0 = m any p
        rw [stopLun_image, h.image]
      · intro any
        change ((stopLun d lun).luns any).file.full = false
        rw [stopLun_file, h.full]

theorem Inv.initial (images : Fin 8 → List UInt8) : Inv (Disc.initial images) (imageArray images) where
  image _ _ := rfl
  full _ := rfl

theorem Inv.run {d : Disc} {m : Fin 8 → Nat → UInt8} (h : Inv d m) {cs : List Command}
    (hc : AllFollowed d cs) : Inv (run d cs) (arrays d m cs) := by
  induction cs generalizing d m with
  | nil => exact h
  | cons c cs ih => exact ih (h.step hc.1).2 hc.2

theorem AllFollowed.append {d : Disc} {cs : List Command} {c : Command} {after : List Command}
    (h : AllFollowed d (cs ++ c :: after)) : AllFollowed d cs ∧ Followed (run d cs) c := by
  induction cs generalizing d with
  | nil => exact ⟨trivial, h.1⟩
  | cons c' cs ih => exact ⟨⟨h.1, (ih h.2).1⟩, (ih h.2).2⟩

/-- A LUN is an array of sectors: in every run whose commands meet the condition, every command
stores what the host has sent and delivers what the array holds. -/
theorem lun_is_array (images : Fin 8 → List UInt8) (cs : List Command)
    (h : AllFollowed (Disc.initial images) cs) (before : List Command) (c : Command) (after : List Command)
    (hcs : cs = before ++ c :: after) :
    Honest (run (Disc.initial images) before) (arrays (Disc.initial images) (imageArray images) before) c := by
  subst hcs
  obtain ⟨hbefore, hc⟩ := h.append
  exact (((Inv.initial images).run hbefore).step hc).1

/-- A card that takes everything; where it extends a file, its clusters hold `&E5`. -/
def readyCard (host : List UInt8) : WriteAnswers where
  opens := true
  linkmap := true
  seek := ⟨⟨false, 65536, fun _ => 0xE5⟩, true, ⟨false, 65536, fun _ => 0xE5⟩⟩
  block _ := ⟨host, fun _ => 0, false, ⟨false, 0, false, 65536, true⟩⟩

def readyHost : ReadAnswers where
  opens := true
  linkmap := true
  seek := ⟨false, 65536, fun _ => 0xE5⟩
  block _ := ⟨false, 256, false⟩

def threeSectors : List Command :=
  [.write 0 0 1 (readyCard (List.replicate 256 65)), .write 0 1 2 (readyCard (List.replicate 256 66))]

/-- An empty image is written and extended, and all of it is read back. -/
theorem lun_is_array_threeSectors :
    Honest (run (Disc.initial fun _ => []) threeSectors)
      (arrays (Disc.initial fun _ => []) (imageArray fun _ => []) threeSectors) (.read 0 0 3 readyHost) := by
  apply lun_is_array _ (threeSectors ++ [.read 0 0 3 readyHost]) _ threeSectors _ [] rfl
  refine ⟨⟨Nat.zero_le _, ?_, fun _ _ _ => rfl, fun _ _ _ => .inl ⟨rfl, rfl, Nat.le_of_ble_eq_true rfl⟩⟩,
    ⟨by decide +kernel, ?_, fun _ _ _ => rfl, fun _ _ _ => .inl ⟨rfl, rfl, Nat.le_of_ble_eq_true rfl⟩⟩, ?_, trivial⟩
  · exact fun _ _ => List.length_replicate
  · exact fun _ _ => List.length_replicate
  · exact fun _ _ => Nat.le_refl 256

/-- A write past the end leaves a hole, and what is on the card there is read back: not zeros. -/
theorem hole_not_zeros :
    (exec (run (Disc.initial fun _ => []) [.write 0 1 1 (readyCard (List.replicate 256 65))])
        (.read 0 0 1 readyHost)).1 = .good ∧
      (exec (run (Disc.initial fun _ => []) [.write 0 1 1 (readyCard (List.replicate 256 65))])
        (.read 0 0 1 readyHost)).2.1 = [List.replicate 256 0xE5] ∧
      ¬ Honest (run (Disc.initial fun _ => []) [.write 0 1 1 (readyCard (List.replicate 256 65))])
        (arrays (Disc.initial fun _ => []) (imageArray fun _ => [])
          [.write 0 1 1 (readyCard (List.replicate 256 65))]) (.read 0 0 1 readyHost) := by
  have hgood : (exec (run (Disc.initial fun _ => []) [.write 0 1 1 (readyCard (List.replicate 256 65))])
      (.read 0 0 1 readyHost)).1 = .good := by decide +kernel
  have hdata : (exec (run (Disc.initial fun _ => []) [.write 0 1 1 (readyCard (List.replicate 256 65))])
      (.read 0 0 1 readyHost)).2.1 = [List.replicate 256 0xE5] := by decide +kernel
  refine ⟨hgood, hdata, fun h => ?_⟩
  have hread := h.read 0 0 1 readyHost rfl hgood
  rw [hdata] at hread
  revert hread
  decide +kernel

end Pi1MHz.ScsiSectors
