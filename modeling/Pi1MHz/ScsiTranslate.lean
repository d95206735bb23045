import Pi1MHz.ScsiGeometry
import Pi1MHz.ScsiProtocolRun

/-!
# BeebSCSI: TRANSLATE, VERIFY and READ CAPACITY

The three commands that tell the host where a block lies and how many there are.  TRANSLATE sends a
cylinder, a head and a count of bytes in fields of three, one and four bytes, computed in 32 bits;
VERIFY and READ CAPACITY take the number of blocks from the geometry, a product of 32 bits.
-/

namespace Pi1MHz.ScsiTarget

open StateRules
open Scsi (HDGeometry filesystemGetLunTotalSectors)

variable {σ : Type}

def sentBy (x : Action σ ScsiState) (t : Target σ) : List UInt8 :=
  ((x t).2.events.drop t.events.length).filterMap Event.dataIn?

def field (l : List UInt8) : Nat := l.foldl (fun n b => n * 256 + b.toNat) 0

structure Reports (fs : FileSystem σ) (s : σ) (lun : UInt8) (g : HDGeometry) : Prop where
  heads : fs.headsPerCylinder s lun = g.heads.toUInt32
  sectors : fs.lunSPTSize s lun = g.sectorsPerTrack.toUInt32
  block : fs.lunBlockSize s lun = g.blockSize
  total : fs.lunTotalSectors s lun = filesystemGetLunTotalSectors g

/-- The LUN is started with the geometry `g`; its descriptor, where it can be read again, gives `r`. -/
structure StartedWith (fs : FileSystem σ) (t : Target σ) (g r : HDGeometry) : Prop where
  started : fs.readLunStatus t.fs t.targetLUN = true
  cached : Reports fs t.fs t.targetLUN g
  reread : (fs.readLunDescriptor t.fs t.targetLUN).1 = true →
    Reports fs (fs.readLunDescriptor t.fs t.targetLUN).2 t.targetLUN r

/-- The eight bytes of TRANSLATE name the place of block `lba`. -/
structure Located (g : HDGeometry) (lba : Nat) (l : List UInt8) : Prop where
  length : l.length = 8
  cylinder : field (l.take 3) < g.cylinders.toNat
  head : field ((l.drop 3).take 1) < g.heads.toNat
  sector : ∃ k, 1 ≤ k ∧ k ≤ g.sectorsPerTrack.toNat ∧ field (l.drop 4) = k * g.blockSize.toNat ∧
    (field (l.take 3) * g.heads.toNat + field ((l.drop 3).take 1)) * g.sectorsPerTrack.toNat + k - 1 = lba

def blocks (g : HDGeometry) : Nat := g.cylinders.toNat * g.heads.toNat * g.sectorsPerTrack.toNat

/-- The numbers of the two geometries divide every block of the disc that TRANSLATE can name alike.  They do when the
geometries are the same. -/
def SamePlaces (g r : HDGeometry) : Prop :=
  ∀ lba < blocks g, lba < 2 ^ 21 →
    lba / (r.heads.toNat * r.sectorsPerTrack.toNat) = lba / (g.heads.toNat * g.sectorsPerTrack.toNat) ∧
    lba / r.sectorsPerTrack.toNat % r.heads.toNat = lba / g.sectorsPerTrack.toNat % g.heads.toNat ∧
    (lba % r.sectorsPerTrack.toNat + 1) * r.blockSize.toNat % 2 ^ 32 =
      (lba % g.sectorsPerTrack.toNat + 1) * g.blockSize.toNat % 2 ^ 32

def Target.given (t : Target σ) (d : Vector UInt8 10) : Target σ := { t with data := d }

structure GeometryAnswers (fs : FileSystem σ) (t : Target σ) (g : HDGeometry) : Prop where
  located : ∀ d, (lba21 d).toNat < blocks g →
    Located g (lba21 d).toNat (sentBy (scsiCommandTranslate fs) (t.given d))
  injective : ∀ d d', (lba21 d).toNat < blocks g → (lba21 d').toNat < blocks g →
    sentBy (scsiCommandTranslate fs) (t.given d) = sentBy (scsiCommandTranslate fs) (t.given d') →
      lba21 d = lba21 d'
  last : ∀ d d', byte8 d = 0 ∨ byte8 d = 1 →
    ((scsiCommandVerify fs (t.given d')).2.status = SCSI_STATUS_OK ↔
      (lba32 d').toNat ≤ field ((sentBy (scsiCommandReadCapacity fs) (t.given d)).take 4))

/-! ### Running the commands -/

section Runs

variable (fs : FileSystem σ) {t : Target σ} {g r : HDGeometry}

theorem writeByte_run (b : UInt8) (t : Target σ) :
    SameButHost { t with events := t.events ++ [.wrote t.phase b] } (hostadapterWriteByte b t).2 :=
  waitAck_run _

theorem dataIn_wrote (l : List UInt8) : (l.map (Event.wrote .dataIn)).filterMap Event.dataIn? = l := by
  induction l with
  | nil => rfl
  | cons b l ih =>
    simp only [List.map_cons, List.filterMap_cons, Event.dataIn?]
    rw [ih]

theorem askLun_apply {α : Type} (f : σ → UInt8 → α) (t : Target σ) :
    askLun f t = (f t.fs t.targetLUN, { t with events := t.events ++ [.lun t.targetLUN] }) := rfl

theorem tryLun_apply {α : Type} (f : σ → UInt8 → α × σ) (t : Target σ) :
    tryLun f t = ((f t.fs t.targetLUN).1,
      { t with fs := (f t.fs t.targetLUN).2, events := t.events ++ [.lun t.targetLUN] }) := rfl

theorem phase_apply (p : Phase) (t : Target σ) :
    scsiInformationTransferPhase p t = (⟨⟩, { t with phase := p }) := rfl

/-- A descriptor that cannot be read again is all there is to say. -/
theorem translate_unread (h : StartedWith fs t g r) (hnone : (fs.readLunDescriptor t.fs t.targetLUN).1 = false) :
    sentBy (scsiCommandTranslate fs) t = [] := by
  have hevents : (scsiCommandTranslate fs t).2.events =
      t.events ++ [.lun t.targetLUN, .lun t.targetLUN, .sense t.targetLUN DRIVE_NOT_READY] := by
    simp only [scsiCommandTranslate, autoStart, bind_apply, askLun_apply, get_apply, h.started, if_true, tryLun_apply,
      hnone, Bool.false_eq_true, if_false, fail, setStatus, setSense, modify_apply, pure_apply, List.append_assoc]
    rfl
  rw [sentBy, hevents, List.drop_left]
  rfl

theorem translate_sent (h : StartedWith fs t g r) (hfound : (fs.readLunDescriptor t.fs t.targetLUN).1 = true) :
    sentBy (scsiCommandTranslate fs) t =
      bytes3 (lba21 t.data / (r.heads.toUInt32 * r.sectorsPerTrack.toUInt32)) ++
        [(lba21 t.data / r.sectorsPerTrack.toUInt32 % r.heads.toUInt32).toUInt8] ++
          bytes4 ((lba21 t.data % r.sectorsPerTrack.toUInt32 + 1) * r.blockSize) := by
  have hread := h.reread hfound
  -- the state in which the bytes are sent
  let uses : List Event := List.replicate 5 (.lun t.targetLUN)
  let u : Target σ := { t with fs := (fs.readLunDescriptor t.fs t.targetLUN).2, phase := .dataIn,
                               events := t.events ++ uses }
  let cyl := bytes3 (lba21 t.data / (r.heads.toUInt32 * r.sectorsPerTrack.toUInt32))
  let head := (lba21 t.data / r.sectorsPerTrack.toUInt32 % r.heads.toUInt32).toUInt8
  let index := bytes4 ((lba21 t.data % r.sectorsPerTrack.toUInt32 + 1) * r.blockSize)
  have hrun : scsiCommandTranslate fs t =
      (hostadapterWriteBytes cyl >>= fun _ => hostadapterWriteByte head >>= fun _ =>
        hostadapterWriteBytes index >>= fun _ => good) u := by
    simp only [scsiCommandTranslate, autoStart, bind_apply, askLun_apply, get_apply, h.started, if_true,
      tryLun_apply, hfound, phase_apply, hread.heads, hread.sectors, hread.block, List.append_assoc]
    rfl
  obtain ⟨acks1, databus1, h1⟩ := writeBytes_run cyl u
  obtain ⟨acks2, databus2, h2⟩ := writeByte_run head (hostadapterWriteBytes cyl u).2
  obtain ⟨acks3, databus3, h3⟩ := writeBytes_run index
    (hostadapterWriteByte head (hostadapterWriteBytes cyl u).2).2
  have hevents : (scsiCommandTranslate fs t).2.events =
      t.events ++ (uses ++ (cyl ++ [head] ++ index).map (Event.wrote .dataIn)) := by
    rw [hrun]
    simp only [bind_apply, good, setStatus, modify_apply, pure_apply]
    rw [h3, h2, h1]
    simp only [u, List.map_append, List.map_cons, List.map_nil, List.append_assoc]
  rw [sentBy, hevents, List.drop_left, List.filterMap_append, dataIn_wrote]
  rfl

theorem capacity_sent (h : StartedWith fs t g r) (hpmi : byte8 t.data = 0 ∨ byte8 t.data = 1) :
    sentBy (scsiCommandReadCapacity fs) t =
      bytes4 (filesystemGetLunTotalSectors g - 1) ++ bytes4 g.blockSize := by
  let total := bytes4 (filesystemGetLunTotalSectors g - 1)
  let block := bytes4 g.blockSize
  let u : Target σ := { t with phase := .dataIn, events := t.events ++ List.replicate 2 (.lun t.targetLUN) }
  have hgood : ¬ (t.data[8] ≠ 0 ∧ t.data[8] ≠ 1) := by
    rintro ⟨h0, h1⟩
    rcases hpmi with h | h
    · exact h0 h
    · exact h1 h
  have hrun : scsiCommandReadCapacity fs t =
      (hostadapterWriteBytes total >>= fun _ => askLun fs.lunBlockSize >>= fun b =>
        hostadapterWriteBytes (bytes4 b) >>= fun _ => good) u := by
    have hstart : scsiCommandReadCapacity fs t =
        capacityStarted fs { t with events := t.events ++ [.lun t.targetLUN] } := by
      simp only [scsiCommandReadCapacity, bind_apply, askLun_apply, h.started, if_true]
    rw [hstart, capacityStarted, bind_apply, get_apply, if_neg hgood, bind_apply, askLun_apply,
      h.cached.total, bind_apply, phase_apply]
    simp only [u, List.append_assoc]
    rfl
  obtain ⟨acks1, databus1, h1⟩ := writeBytes_run total u
  let v : Target σ := { u with events := u.events ++ total.map (.wrote .dataIn) ++ [.lun t.targetLUN],
                               acks := acks1, databus := databus1 }
  obtain ⟨acks2, databus2, h2⟩ := writeBytes_run block v
  have hevents : (scsiCommandReadCapacity fs t).2.events =
      t.events ++ (List.replicate 2 (.lun t.targetLUN) ++ total.map (Event.wrote .dataIn) ++
        [.lun t.targetLUN] ++ block.map (Event.wrote .dataIn)) := by
    have hblock : fs.lunBlockSize t.fs t.targetLUN = g.blockSize := h.cached.block
    rw [hrun]
    simp only [bind_apply, good, setStatus, modify_apply, pure_apply, askLun_apply]
    rw [h1]
    simp only [u, hblock]
    rw [h2]
    simp only [v, u, List.append_assoc]
  rw [sentBy, hevents, List.drop_left, List.filterMap_append, List.filterMap_append,
    List.filterMap_append, dataIn_wrote, dataIn_wrote]
  rfl

theorem verify_status (h : StartedWith fs t g r) :
    (scsiCommandVerify fs t).2.status = SCSI_STATUS_OK ↔
      (lba32 t.data).toNat < (filesystemGetLunTotalSectors g).toNat := by
  have hrun : scsiCommandVerify fs t =
      (if fs.lunTotalSectors t.fs t.targetLUN ≤ lba32 t.data then
        fail (ILLEGAL_ADDR ||| (lba32 t.data &&& 0x00FFFFFF)) (pure ()) else good)
        { t with events := t.events ++ [.lun t.targetLUN] ++ [.lun t.targetLUN] } := by
    simp only [scsiCommandVerify, bind_apply, askLun_apply, h.started, if_true]
    rfl
  rw [hrun, h.cached.total]
  by_cases hle : filesystemGetLunTotalSectors g ≤ lba32 t.data
  · rw [if_pos hle]
    constructor
    · intro hok
      cases hok
    · intro hlt
      exact absurd hlt (Nat.not_lt.mpr (UInt32.le_iff_toNat_le.mp hle))
  · rw [if_neg hle]
    refine iff_of_true rfl ?_
    exact Nat.lt_of_not_le fun h => hle (UInt32.le_iff_toNat_le.mpr h)

end Runs

/-! ### The numbers in the fields -/

theorem field_bytes4 (v : UInt32) : field (bytes4 v) = v.toNat := by
  have hv := v.toNat_lt
  simp only [field, bytes4, List.foldl_cons, List.foldl_nil, UInt32.toNat_toUInt8, UInt32.toNat_shiftRight,
    Nat.shiftRight_eq_div_pow, UInt32.toNat_ofNat, Nat.reducePow, Nat.reduceMod]
  omega

theorem field_bytes3 {v : UInt32} (h : v.toNat < 2 ^ 24) : field (bytes3 v) = v.toNat := by
  simp only [field, bytes3, List.foldl_cons, List.foldl_nil, UInt32.toNat_toUInt8, UInt32.toNat_shiftRight,
    Nat.shiftRight_eq_div_pow, UInt32.toNat_ofNat, Nat.reducePow, Nat.reduceMod]
  omega

theorem field_byte (b : UInt8) : field [b] = b.toNat := Nat.zero_add _

theorem lba21_lt (d : Vector UInt8 10) : (lba21 d).toNat < 2 ^ 21 := by
  have h2 := d[2].toNat_lt
  have h3 := d[3].toNat_lt
  have h1 : d[1].toNat &&& 31 ≤ 31 := Nat.and_le_right
  have hor : ∀ {a b : Nat}, a < 2 ^ 21 → b < 2 ^ 21 → a ||| b < 2 ^ 21 := Nat.or_lt_two_pow
  simp only [lba21, UInt32.toNat_or, UInt32.toNat_shiftLeft, UInt32.toNat_and, UInt8.toNat_toUInt32,
    UInt32.toNat_ofNat, Nat.shiftLeft_eq, Nat.reducePow, Nat.reduceMod]
  apply hor
  · apply hor
    · omega
    · omega
  · omega

theorem exists_lba21 {n : Nat} (h : n < 2 ^ 21) : ∃ d, (lba21 d).toNat = n := by
  refine ⟨#v[0, UInt8.ofNat (n / 65536), UInt8.ofNat (n / 256), UInt8.ofNat n, 0, 0, 0, 0, 0, 0], ?_⟩
  have hhi : n / 65536 % 256 &&& 31 = n / 65536 := by
    rw [show 31 = 2 ^ 5 - 1 from rfl, Nat.and_two_pow_sub_one_eq_mod]
    omega
  have hlo : n / 256 % 256 * 256 % 4294967296 ||| n % 256 = n % 65536 := by
    rw [Nat.mod_eq_of_lt (by omega), Nat.mul_comm, ← Nat.two_pow_add_eq_or_of_lt (i := 8) (by omega)]
    omega
  have htop : n / 65536 * 65536 % 4294967296 ||| n % 65536 = n := by
    rw [Nat.mod_eq_of_lt (by omega), Nat.mul_comm, ← Nat.two_pow_add_eq_or_of_lt (i := 16) (by omega)]
    omega
  change (((UInt8.ofNat (n / 65536)).toUInt32 &&& 31) <<< 16 ||| (UInt8.ofNat (n / 256)).toUInt32 <<< 8 |||
    (UInt8.ofNat n).toUInt32).toNat = n
  simp only [UInt32.toNat_or, UInt32.toNat_shiftLeft, UInt32.toNat_and, UInt8.toNat_toUInt32,
    UInt32.toNat_ofNat, UInt8.toNat_ofNat', Nat.shiftLeft_eq, Nat.or_assoc, Nat.reducePow, Nat.reduceMod,
    hhi, hlo, htop]

section Numbers

variable {g r : HDGeometry}

theorem total_toNat (g : HDGeometry) : (filesystemGetLunTotalSectors g).toNat = blocks g % 2 ^ 32 := by
  simp only [filesystemGetLunTotalSectors, UInt32.toNat_mul, UInt8.toNat_toUInt32, UInt16.toNat_toUInt32,
    blocks]
  rw [Nat.mod_mul_mod]

theorem translate_fields (hheads : 0 < r.heads.toNat) {fs : FileSystem σ} {t : Target σ}
    (h : StartedWith fs t g r) (hfound : (fs.readLunDescriptor t.fs t.targetLUN).1 = true) :
    (sentBy (scsiCommandTranslate fs) t).length = 8 ∧
    field ((sentBy (scsiCommandTranslate fs) t).take 3) =
      (lba21 t.data).toNat / (r.heads.toNat * r.sectorsPerTrack.toNat) ∧
    field (((sentBy (scsiCommandTranslate fs) t).drop 3).take 1) =
      (lba21 t.data).toNat / r.sectorsPerTrack.toNat % r.heads.toNat ∧
    field ((sentBy (scsiCommandTranslate fs) t).drop 4) =
      ((lba21 t.data).toNat % r.sectorsPerTrack.toNat + 1) * r.blockSize.toNat % 2 ^ 32 := by
  have hlba := lba21_lt t.data
  have hH := r.heads.toNat_lt
  have hS := r.sectorsPerTrack.toNat_lt
  have hHS : r.heads.toNat * r.sectorsPerTrack.toNat < 2 ^ 8 * 2 ^ 16 := Nat.mul_lt_mul'' hH hS
  have hprod : (r.heads.toUInt32 * r.sectorsPerTrack.toUInt32).toNat =
      r.heads.toNat * r.sectorsPerTrack.toNat := by
    rw [UInt32.toNat_mul, UInt8.toNat_toUInt32, UInt16.toNat_toUInt32]
    exact Nat.mod_eq_of_lt (by omega)
  rw [translate_sent fs h hfound]
  refine ⟨rfl, ?_, ?_, ?_⟩
  · have hcyl : (lba21 t.data / (r.heads.toUInt32 * r.sectorsPerTrack.toUInt32)).toNat =
        (lba21 t.data).toNat / (r.heads.toNat * r.sectorsPerTrack.toNat) := by
      rw [UInt32.toNat_div, hprod]
    have hle := Nat.div_le_self (lba21 t.data).toNat (r.heads.toNat * r.sectorsPerTrack.toNat)
    rw [← hcyl]
    apply field_bytes3
    omega
  · have hhead := Nat.mod_lt ((lba21 t.data).toNat / r.sectorsPerTrack.toNat) hheads
    refine (field_byte _).trans ?_
    rw [UInt32.toNat_toUInt8, UInt32.toNat_mod, UInt32.toNat_div, UInt8.toNat_toUInt32,
      UInt16.toNat_toUInt32]
    exact Nat.mod_eq_of_lt (by omega)
  · have hrest := Nat.mod_le (lba21 t.data).toNat r.sectorsPerTrack.toNat
    refine (field_bytes4 _).trans ?_
    rw [UInt32.toNat_mul, UInt32.toNat_add, UInt32.toNat_mod, UInt16.toNat_toUInt32]
    congr 2
    exact Nat.mod_eq_of_lt (by simp; omega)

/-- The place of a block is the one that the divisions by the geometry's numbers give. -/
theorem located_iff (hheads : 0 < g.heads.toNat) (hsectors : 0 < g.sectorsPerTrack.toNat)
    {lba : Nat} (hlba : lba < blocks g) (l : List UInt8) :
    Located g lba l ↔ l.length = 8 ∧ field (l.take 3) = lba / (g.heads.toNat * g.sectorsPerTrack.toNat) ∧
      field ((l.drop 3).take 1) = lba / g.sectorsPerTrack.toNat % g.heads.toNat ∧
      field (l.drop 4) = (lba % g.sectorsPerTrack.toNat + 1) * g.blockSize.toNat := by
  have htrack : lba / (g.heads.toNat * g.sectorsPerTrack.toNat) * g.heads.toNat +
      lba / g.sectorsPerTrack.toNat % g.heads.toNat = lba / g.sectorsPerTrack.toNat := by
    rw [Nat.mul_comm g.heads.toNat, ← Nat.div_div_eq_div_mul]
    exact Nat.div_add_mod' _ _
  have hlba' := Nat.div_add_mod' lba g.sectorsPerTrack.toNat
  constructor
  · intro hloc
    obtain ⟨k, hk, hkS, hfield, hplace⟩ := hloc.sector
    have hhead := hloc.head
    generalize field (l.take 3) = c at hplace ⊢
    generalize field ((l.drop 3).take 1) = m at hplace hhead ⊢
    -- the tracks before the block, and the sectors before it on its own
    have hsum : lba = (c * g.heads.toNat + m) * g.sectorsPerTrack.toNat + (k - 1) := by omega
    have hquot : lba / g.sectorsPerTrack.toNat = c * g.heads.toNat + m := by
      rw [hsum, Nat.mul_comm, Nat.mul_add_div hsectors, Nat.div_eq_of_lt (by omega), Nat.add_zero]
    have hrest : lba % g.sectorsPerTrack.toNat = k - 1 := by
      rw [hsum, Nat.mul_comm, Nat.mul_add_mod, Nat.mod_eq_of_lt (by omega)]
    refine ⟨hloc.length, ?_, ?_, ?_⟩
    · rw [Nat.mul_comm g.heads.toNat, ← Nat.div_div_eq_div_mul, hquot, Nat.mul_comm, Nat.mul_add_div hheads,
        Nat.div_eq_of_lt hhead, Nat.add_zero]
    · rw [hquot, Nat.mul_comm, Nat.mul_add_mod, Nat.mod_eq_of_lt hhead]
    · rw [hrest, Nat.sub_add_cancel hk, hfield]
  · rintro ⟨hlen, hcyl, hhead, hindex⟩
    constructor
    · exact hlen
    · rw [hcyl]
      apply Nat.div_lt_of_lt_mul
      rw [Nat.mul_comm, ← Nat.mul_assoc]
      exact hlba
    · rw [hhead]
      exact Nat.mod_lt _ hheads
    · refine ⟨lba % g.sectorsPerTrack.toNat + 1, by omega, Nat.mod_lt _ hsectors, hindex, ?_⟩
      rw [hcyl, hhead, htrack]
      omega

theorem Located.inj (hblock : 0 < g.blockSize.toNat) {m n : Nat} {l : List UInt8} (h : Located g m l)
    (h' : Located g n l) : m = n := by
  obtain ⟨k, -, -, hk, rfl⟩ := h.sector
  obtain ⟨k', -, -, hk', rfl⟩ := h'.sector
  rw [Nat.eq_of_mul_eq_mul_right hblock (hk.symm.trans hk')]

end Numbers

/-! ### When the answers are right -/

theorem StartedWith.given {fs : FileSystem σ} {t : Target σ} {g r : HDGeometry} (h : StartedWith fs t g r)
    (d : Vector UInt8 10) : StartedWith fs (t.given d) g r :=
  { h with }

/-- A LUN's geometry is answered for when the descriptor can be read again and names the same places, a track has less
than 2^32 bytes, and the number of blocks is no multiple of 2^32; and only then. -/
theorem geometry_answers_iff {fs : FileSystem σ} {t : Target σ} {g r : HDGeometry}
    (hcylinders : 0 < g.cylinders.toNat) (hheads : 0 < g.heads.toNat)
    (hsectors : 0 < g.sectorsPerTrack.toNat) (hblock : 0 < g.blockSize.toNat)
    (hrheads : 0 < r.heads.toNat) (h : StartedWith fs t g r) :
    GeometryAnswers fs t g ↔
      ((fs.readLunDescriptor t.fs t.targetLUN).1 = true ∧ SamePlaces g r) ∧
        g.sectorsPerTrack.toNat * g.blockSize.toNat < 2 ^ 32 ∧ ¬ 2 ^ 32 ∣ blocks g := by
  have htotal := total_toNat g
  have hS := g.sectorsPerTrack.toNat_lt
  have hle : 1 * g.sectorsPerTrack.toNat ≤ g.cylinders.toNat * g.heads.toNat * g.sectorsPerTrack.toNat :=
    Nat.mul_le_mul_right _ (Nat.mul_pos hcylinders hheads)
  constructor
  · intro hans
    have hfound : (fs.readLunDescriptor t.fs t.targetLUN).1 = true := by
      by_contra hnone
      obtain ⟨d, hd⟩ := exists_lba21 (n := 0) (by decide)
      have hloc := hans.located d (by rw [hd, blocks]; omega)
      rw [translate_unread fs (h.given d) (Bool.eq_false_iff.mpr hnone)] at hloc
      exact absurd hloc.length (by decide)
    have hplaces : ∀ d, (lba21 d).toNat < blocks g → _ := fun d hd =>
      (located_iff hheads hsectors hd _).mp (hans.located d hd)
    refine ⟨⟨hfound, ?_⟩, ?_, ?_⟩
    · intro lba hlba hcdb
      obtain ⟨d, rfl⟩ := exists_lba21 hcdb
      obtain ⟨-, hcyl, hhead, hindex⟩ := hplaces d hlba
      obtain ⟨-, hcyl', hhead', hindex'⟩ := translate_fields hrheads (h.given d) hfound
      refine ⟨hcyl'.symm.trans hcyl, hhead'.symm.trans hhead, ?_⟩
      have hwhole := hindex'.symm.trans hindex
      exact hwhole.trans (Nat.mod_eq_of_lt (hwhole ▸ Nat.mod_lt _ (by decide))).symm
    · -- the last sector of the first track
      obtain ⟨d, hd⟩ := exists_lba21 (n := g.sectorsPerTrack.toNat - 1) (by omega)
      obtain ⟨-, -, -, hindex⟩ := hplaces d (by rw [hd, blocks]; omega)
      obtain ⟨-, -, -, hindex'⟩ := translate_fields hrheads (h.given d) hfound
      rw [hd, Nat.mod_eq_of_lt (by omega), Nat.sub_add_cancel hsectors] at hindex
      rw [← hindex, hindex']
      exact Nat.mod_lt _ (by decide)
    · -- with no block to count, all of them would be accepted
      intro hdvd
      have hzero : (filesystemGetLunTotalSectors g).toNat = 0 := by
        rw [htotal]
        exact Nat.mod_eq_zero_of_dvd hdvd
      have hlast := hans.last (Vector.replicate 10 0) (Vector.replicate 10 0) (Or.inl rfl)
      rw [verify_status fs (h.given _), hzero] at hlast
      exact absurd (hlast.mpr (Nat.zero_le _)) (Nat.not_lt_zero _)
  · rintro ⟨⟨hfound, hsame⟩, htrack, hdvd⟩
    have hlocated : ∀ d, (lba21 d).toNat < blocks g →
        Located g (lba21 d).toNat (sentBy (scsiCommandTranslate fs) (t.given d)) := by
      intro d hd
      obtain ⟨hlen, hcyl, hhead, hindex⟩ := translate_fields hrheads (h.given d) hfound
      obtain ⟨hcyl', hhead', hindex'⟩ := hsame _ hd (lba21_lt d)
      refine (located_iff hheads hsectors hd _).mpr ⟨hlen, hcyl.trans hcyl', hhead.trans hhead', ?_⟩
      refine (hindex.trans hindex').trans (Nat.mod_eq_of_lt ?_)
      exact Nat.lt_of_le_of_lt (Nat.mul_le_mul_right _ (Nat.mod_lt _ hsectors)) htrack
    constructor
    · exact hlocated
    · intro d d' hd hd' heq
      have hloc := hlocated d hd
      rw [heq] at hloc
      exact UInt32.toNat_inj.mp (hloc.inj hblock (hlocated d' hd'))
    · intro d d' hpmi
      have hpos : 0 < (filesystemGetLunTotalSectors g).toNat := by
        rw [htotal]
        exact Nat.pos_of_ne_zero fun hzero => hdvd (Nat.dvd_of_mod_eq_zero hzero)
      have hone : (filesystemGetLunTotalSectors g - 1).toNat = (filesystemGetLunTotalSectors g).toNat - 1 :=
        UInt32.toNat_sub_of_le _ _ (UInt32.le_iff_toNat_le.mpr hpos)
      rw [verify_status fs (h.given d'), capacity_sent fs (h.given d) hpmi]
      have hfield : field ((bytes4 (filesystemGetLunTotalSectors g - 1) ++ bytes4 g.blockSize).take 4) =
          (filesystemGetLunTotalSectors g).toNat - 1 := (field_bytes4 _).trans hone
      rw [hfield]
      exact Nat.lt_iff_le_pred hpos

theorem SamePlaces.refl (g : HDGeometry) : SamePlaces g g := fun _ _ _ => ⟨rfl, rfl, rfl⟩

def cardOf (g : HDGeometry) : FileSystem Unit :=
  { bareCard with
    readLunStatus := fun _ _ => true
    readLunDescriptor := fun _ _ => (true, ())
    headsPerCylinder := fun _ _ => g.heads.toUInt32
    lunSPTSize := fun _ _ => g.sectorsPerTrack.toUInt32
    lunBlockSize := fun _ _ => g.blockSize
    lunTotalSectors := fun _ _ => filesystemGetLunTotalSectors g }

theorem cardOf_started (g : HDGeometry) : StartedWith (cardOf g) (Target.initial ()) g g :=
  ⟨rfl, ⟨rfl, rfl, rfl, rfl⟩, fun _ => ⟨rfl, rfl, rfl, rfl⟩⟩

/-- A drive of 306 cylinders and 4 heads. -/
theorem geometry_answers_20MB :
    GeometryAnswers (cardOf ⟨256, 306, 4, 33⟩) (Target.initial ()) ⟨256, 306, 4, 33⟩ :=
  (geometry_answers_iff (by decide) (by decide) (by decide) (by decide) (by decide) (cardOf_started _)).mpr
    ⟨⟨rfl, SamePlaces.refl _⟩, by decide⟩

/-- The longest block that a descriptor can state, and 257 of them on a track: the last one has a
count of bytes that does not fit. -/
theorem track_too_long :
    ¬ GeometryAnswers (cardOf ⟨0xFFFFFF, 1, 1, 257⟩) (Target.initial ()) ⟨0xFFFFFF, 1, 1, 257⟩ := by
  intro h
  have hloc := h.located #v[0x0F, 0, 1, 0, 0, 0, 0, 0, 0, 0] (by decide)
  have hsent : sentBy (scsiCommandTranslate (cardOf ⟨0xFFFFFF, 1, 1, 257⟩))
      ((Target.initial ()).given #v[0x0F, 0, 1, 0, 0, 0, 0, 0, 0, 0]) =
        [0, 0, 0, 0, 0, 0xFF, 0xFE, 0xFF] := by decide +kernel
  rw [hsent] at hloc
  obtain ⟨k, -, -, hfield, -⟩ := hloc.sector
  have hcount : field (([0, 0, 0, 0, 0, 0xFF, 0xFE, 0xFF] : List UInt8).drop 4) = 16776959 := by decide
  have hblock : (HDGeometry.mk 0xFFFFFF 1 1 257).blockSize.toNat = 16777215 := rfl
  rw [hcount, hblock] at hfield
  omega

end Pi1MHz.ScsiTarget
