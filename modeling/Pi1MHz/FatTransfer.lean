import Mathlib.Tactic.IntervalCases
import Pi1MHz.ServicesPort

/-!
# The FAT service: reading and writing an open file

Commands 4 and 5 of `fat_service.c`.  The command block and the window that the bytes go to or come
from lie in one buffer of JIM RAM, and the count of bytes that were moved is written back into the
block.
-/

namespace Pi1MHz.FatTransfer

open Services (discRamSize)

abbrev Ram := Nat → UInt8

/-! ### FatFs -/

/-- A file object that is open.  `limit` is how long the chain of clusters can become, and `stale` is
what the clusters hold where nothing has been written. -/
structure Fil where
  content : List UInt8
  fptr : Nat
  canRead : Bool
  canWrite : Bool
  limit : Nat
  stale : Nat → UInt8
  fits : content.length ≤ limit
  inside : fptr ≤ content.length

def FR_OK : UInt8 := 0
def FR_DENIED : UInt8 := 7
def FR_INVALID_PARAMETER : UInt8 := 19

def Fil.grown (f : Fil) (n : Nat) : List UInt8 :=
  (List.range (n - f.content.length)).map fun i => f.stale (f.content.length + i)

/-- `f_lseek`: in write mode the chain is stretched, as far as there are clusters. -/
def fLseek (f : Fil) (ofs : Nat) : Fil :=
  if f.content.length < ofs ∧ f.canWrite = false then
    { f with fptr := f.content.length, inside := le_rfl }
  else
    { f with
      content := f.content ++ f.grown (min ofs f.limit)
      fptr := min ofs f.limit
      fits := by
        have := f.fits
        simp only [Fil.grown, List.length_append, List.length_map, List.length_range]
        omega
      inside := by
        simp only [Fil.grown, List.length_append, List.length_map, List.length_range]
        omega }

def fRead (f : Fil) (btr : Nat) : UInt8 × List UInt8 × Fil :=
  if f.canRead = false then (FR_DENIED, [], f)
  else
    let data := (f.content.drop f.fptr).take btr
    (FR_OK, data, { f with fptr := f.fptr + data.length
                           inside := by
                             have := f.inside
                             simp only [data, List.length_take, List.length_drop]
                             omega })

def unwrapped (fptr btw : Nat) : Nat := if (fptr + btw) % 2 ^ 32 < fptr then 0xFFFFFFFF - fptr else btw

def fWrite (f : Fil) (data : List UInt8) : UInt8 × Nat × Fil :=
  if f.canWrite = false then (FR_DENIED, 0, f)
  else
    let n := min (unwrapped f.fptr data.length) (f.limit - f.fptr)
    let put := data.take n
    (FR_OK, put.length,
      { f with
        content := f.content.take f.fptr ++ put ++ f.content.drop (f.fptr + put.length)
        fptr := f.fptr + put.length
        fits := by
          have := f.fits
          have := f.inside
          simp only [put, n, List.length_append, List.length_take, List.length_drop]
          omega
        inside := by
          have := f.inside
          simp only [List.length_append, List.length_take, List.length_drop]
          omega })

/-! ### JIM RAM -/

def jimRead32 (ram : Ram) (off : Nat) : Nat :=
  (ram off).toNat + 2 ^ 8 * (ram (off + 1)).toNat + 2 ^ 16 * (ram (off + 2)).toNat
    + 2 ^ 24 * (ram (off + 3)).toNat

def store (ram : Ram) (a : Nat) (data : List UInt8) : Ram := fun i =>
  if a ≤ i ∧ i < a + data.length then data.getD (i - a) 0 else ram i

def jimWrite32 (ram : Ram) (off v : Nat) : Ram :=
  store ram off [UInt8.ofNat v, UInt8.ofNat (v / 2 ^ 8), UInt8.ofNat (v / 2 ^ 16), UInt8.ofNat (v / 2 ^ 24)]

def discaccessBufferOk (offset length : Nat) : Bool :=
  if discRamSize < offset then false else length ≤ discRamSize - offset

structure Block where
  bufOff : Nat
  bufLen : Nat
  ofs : Nat

def blockAt (ram : Ram) (cp : Nat) : Block where
  bufOff := jimRead32 ram (cp + 4)
  bufLen := jimRead32 ram cp / 2 ^ 8
  ofs := jimRead32 ram (cp + 8)

structure Done where
  status : UInt8
  ram : Ram
  file : Fil

def finish (ram : Ram) (cp : Nat) (result : UInt8) (length bufLen : Nat) (f : Fil) : Done where
  status := if result ≠ FR_OK then result else if length < bufLen then 20 else FR_OK
  ram := jimWrite32 ram cp (length * 2 ^ 8 + (ram cp).toNat)
  file := f

def fatServiceRead (base cp : Nat) (ram : Ram) (f : Fil) : Done :=
  let b := blockAt ram cp
  if discaccessBufferOk b.bufOff b.bufLen = false then ⟨FR_INVALID_PARAMETER, ram, f⟩
  else
    let r := fRead (fLseek f b.ofs) b.bufLen
    finish (store ram (base + b.bufOff) r.2.1) cp r.1 r.2.1.length b.bufLen r.2.2

def window (ram : Ram) (a n : Nat) : List UInt8 := (List.range n).map fun i => ram (a + i)

def fatServiceWrite (writeProtected : Bool) (base cp : Nat) (ram : Ram) (f : Fil) : Done :=
  let b := blockAt ram cp
  if discaccessBufferOk b.bufOff b.bufLen = false then ⟨FR_INVALID_PARAMETER, ram, f⟩
  else if writeProtected then finish ram cp FR_OK b.bufLen b.bufLen f
  else
    let r := fWrite (fLseek f b.ofs) (window ram (base + b.bufOff) b.bufLen)
    finish ram cp r.1 r.2.1 b.bufLen r.2.2

/-! ### What the commands should do -/

def Block.readable (b : Block) (f : Fil) : Nat := min b.bufLen (f.content.length - b.ofs)

def Block.writable (b : Block) (f : Fil) : Nat := min b.bufLen (min f.limit (2 ^ 32 - 1) - b.ofs)

def Block.ok (b : Block) : Bool := discaccessBufferOk b.bufOff b.bufLen

/-- Outside the `n` bytes of the window and the count in the block, the RAM is as it was. -/
def OnlyWindow (base cp : Nat) (b : Block) (n : Nat) (ram ram' : Ram) : Prop :=
  ∀ a, a < base + b.bufOff ∨ base + b.bufOff + n ≤ a → a < cp + 1 ∨ cp + 3 < a → ram' a = ram a

structure Reported (d : Done) (cp n bufLen : Nat) : Prop where
  count : jimRead32 d.ram cp / 2 ^ 8 = n
  status : d.status = 20 ↔ n < bufLen

structure ReadExact (base cp : Nat) (ram : Ram) (f : Fil) (d : Done) : Prop where
  refused : (blockAt ram cp).ok = false → d = ⟨FR_INVALID_PARAMETER, ram, f⟩
  file : d.file.content = f.content
  stored : (blockAt ram cp).ok = true → ∀ i < (blockAt ram cp).readable f,
    d.ram (base + (blockAt ram cp).bufOff + i) = f.content.getD ((blockAt ram cp).ofs + i) 0
  frame : (blockAt ram cp).ok = true →
    OnlyWindow base cp (blockAt ram cp) ((blockAt ram cp).readable f) ram d.ram
  reported : (blockAt ram cp).ok = true →
    Reported d cp ((blockAt ram cp).readable f) (blockAt ram cp).bufLen

/-- An exact write: of the bytes the file had, those from the offset on change, as many as it can
take, and it does not become longer than that. -/
structure WriteExact (base cp : Nat) (ram : Ram) (f : Fil) (d : Done) : Prop where
  refused : (blockAt ram cp).ok = false → d = ⟨FR_INVALID_PARAMETER, ram, f⟩
  written : (blockAt ram cp).ok = true → ∀ i < (blockAt ram cp).writable f,
    d.file.content.getD ((blockAt ram cp).ofs + i) 0 = ram (base + (blockAt ram cp).bufOff + i)
  kept : ∀ i < f.content.length,
    i < (blockAt ram cp).ofs ∨ (blockAt ram cp).ofs + (blockAt ram cp).writable f ≤ i →
      d.file.content.getD i 0 = f.content.getD i 0
  longer : f.content.length ≤ d.file.content.length ∧
    d.file.content.length ≤ max f.content.length ((blockAt ram cp).ofs + (blockAt ram cp).writable f)
  frame : (blockAt ram cp).ok = true → OnlyWindow base cp (blockAt ram cp) 0 ram d.ram
  reported : (blockAt ram cp).ok = true →
    Reported d cp ((blockAt ram cp).writable f) (blockAt ram cp).bufLen

def CountApart (base cp : Nat) (b : Block) (f : Fil) : Prop :=
  ∀ i < b.readable f, ∀ j < 3, base + b.bufOff + i = cp + 1 + j →
    f.content.getD (b.ofs + i) 0 = UInt8.ofNat (b.readable f / 2 ^ (8 * j))

/-! ### RAM -/

section Ram

variable {ram : Ram} {a i : Nat} {data : List UInt8}

theorem store_of_mem (h : i < data.length) : store ram a data (a + i) = data.getD i 0 := by
  rw [store, if_pos ⟨by omega, by omega⟩, Nat.add_sub_cancel_left]

theorem store_of_not_mem (h : i < a ∨ a + data.length ≤ i) : store ram a data i = ram i :=
  if_neg (by omega)

theorem finish_ram (ram : Ram) (cp : Nat) (result : UInt8) (length bufLen : Nat) (f : Fil) (i : Nat) :
    (finish ram cp result length bufLen f).ram i =
      if cp + 1 ≤ i ∧ i ≤ cp + 3 then UInt8.ofNat (length / 2 ^ (8 * (i - (cp + 1)))) else ram i := by
  have hcmd := (ram cp).toNat_lt
  show store ram cp _ i = _
  by_cases hin : cp + 1 ≤ i ∧ i ≤ cp + 3
  · rw [if_pos hin]
    obtain ⟨j, hj, rfl⟩ : ∃ j < 3, i = cp + (j + 1) := ⟨i - (cp + 1), by omega, by omega⟩
    rw [store_of_mem (by simp; omega)]
    have hsub : cp + (j + 1) - (cp + 1) = j := by omega
    rw [hsub]
    apply UInt8.toNat_inj.mp
    interval_cases j
    · simp only [List.getD_cons_succ, List.getD_cons_zero, UInt8.toNat_ofNat']
      omega
    · simp only [List.getD_cons_succ, List.getD_cons_zero, UInt8.toNat_ofNat']
      omega
    · simp only [List.getD_cons_succ, List.getD_cons_zero, UInt8.toNat_ofNat']
      omega
  · rw [if_neg hin]
    by_cases hcp : i = cp
    · subst hcp
      have hbyte : store ram i [UInt8.ofNat (length * 2 ^ 8 + (ram i).toNat),
          UInt8.ofNat ((length * 2 ^ 8 + (ram i).toNat) / 2 ^ 8),
          UInt8.ofNat ((length * 2 ^ 8 + (ram i).toNat) / 2 ^ 16),
          UInt8.ofNat ((length * 2 ^ 8 + (ram i).toNat) / 2 ^ 24)] (i + 0) =
          UInt8.ofNat (length * 2 ^ 8 + (ram i).toNat) := store_of_mem (Nat.succ_pos _)
      refine hbyte.trans (UInt8.toNat_inj.mp ?_)
      rw [UInt8.toNat_ofNat']
      omega
    · exact store_of_not_mem (by simp; omega)

theorem finish_count (ram : Ram) (cp : Nat) (result : UInt8) {length : Nat} (h : length < 2 ^ 24)
    (bufLen : Nat) (f : Fil) :
    jimRead32 (finish ram cp result length bufLen f).ram cp / 2 ^ 8 = length := by
  have hcmd := (ram cp).toNat_lt
  simp only [jimRead32, finish_ram ram cp result length bufLen f]
  rw [if_neg (by omega), if_pos (by omega), if_pos (by omega), if_pos (by omega)]
  have h1 : cp + 1 - (cp + 1) = 0 := by omega
  have h2 : cp + 2 - (cp + 1) = 1 := by omega
  have h3 : cp + 3 - (cp + 1) = 2 := by omega
  simp only [h1, h2, h3, UInt8.toNat_ofNat']
  omega

theorem bufLen_lt (ram : Ram) (cp : Nat) : (blockAt ram cp).bufLen < 2 ^ 24 := by
  have h0 := (ram cp).toNat_lt
  have h1 := (ram (cp + 1)).toNat_lt
  have h2 := (ram (cp + 2)).toNat_lt
  have h3 := (ram (cp + 3)).toNat_lt
  simp only [blockAt, jimRead32]
  omega

theorem ofs_lt (ram : Ram) (cp : Nat) : (blockAt ram cp).ofs < 2 ^ 32 := by
  have h0 := (ram (cp + 8)).toNat_lt
  have h1 := (ram (cp + 8 + 1)).toNat_lt
  have h2 := (ram (cp + 8 + 2)).toNat_lt
  have h3 := (ram (cp + 8 + 3)).toNat_lt
  simp only [blockAt, jimRead32]
  omega

end Ram

/-! ### Seeking -/

section Seek

variable {f : Fil} {ofs : Nat}

def Stretched (f : Fil) (ofs : Nat) : Prop := f.canWrite = true ∧ f.content.length < min ofs f.limit

theorem fLseek_length (f : Fil) (ofs : Nat) : (fLseek f ofs).content.length =
    if f.canWrite = true then max f.content.length (min ofs f.limit) else f.content.length := by
  rw [fLseek]
  split
  · next h => rw [if_neg (by rw [h.2]; exact Bool.false_ne_true)]
  · next h =>
    simp only [Fil.grown, List.length_append, List.length_map, List.length_range]
    by_cases hw : f.canWrite = true
    · rw [if_pos hw]
      omega
    · have hle : ofs ≤ f.content.length := by
        by_contra hlt
        exact h ⟨by omega, Bool.eq_false_iff.mpr hw⟩
      rw [if_neg hw]
      omega

theorem fLseek_kept (h : ¬ Stretched f ofs) :
    (fLseek f ofs).content = f.content ∧ (fLseek f ofs).fptr = min ofs f.content.length := by
  have hfits := f.fits
  rw [fLseek]
  split
  · next hclip => exact ⟨rfl, by simp only; omega⟩
  · next hclip =>
    have hle : min ofs f.limit ≤ f.content.length := by
      by_cases hw : f.canWrite = true
      · by_contra hlt
        exact h ⟨hw, by omega⟩
      · have hofs : ofs ≤ f.content.length := by
          by_contra hlt
          exact hclip ⟨by omega, Bool.eq_false_iff.mpr hw⟩
        omega
    have hnone : f.grown (min ofs f.limit) = [] := by
      rw [Fil.grown, Nat.sub_eq_zero_of_le hle]
      rfl
    simp only [hnone, List.append_nil, true_and]
    omega

theorem fLseek_write (h : f.canWrite = true) :
    (fLseek f ofs).content = f.content ++ f.grown (min ofs f.limit) ∧
      (fLseek f ofs).fptr = min ofs f.limit := by
  rw [fLseek, if_neg (by rw [h]; exact fun hc => Bool.noConfusion hc.2)]
  exact ⟨rfl, rfl⟩

theorem fLseek_modes (f : Fil) (ofs : Nat) : (fLseek f ofs).canRead = f.canRead ∧
    (fLseek f ofs).canWrite = f.canWrite ∧ (fLseek f ofs).limit = f.limit := by
  rw [fLseek]
  split
  · exact ⟨rfl, rfl, rfl⟩
  · exact ⟨rfl, rfl, rfl⟩

end Seek

/-! ### Reading -/

section Read

variable {base cp ofs : Nat} {ram : Ram} {f : Fil}

theorem fRead_done (h : f.canRead = true) (btr : Nat) :
    (fRead f btr).1 = FR_OK ∧ (fRead f btr).2.1 = (f.content.drop f.fptr).take btr ∧
      (fRead f btr).2.2.content = f.content := by
  rw [fRead, if_neg (by rw [h]; exact nofun)]
  exact ⟨rfl, rfl, rfl⟩

theorem fRead_denied (h : f.canRead = false) (btr : Nat) : fRead f btr = (FR_DENIED, [], f) := if_pos h

theorem ok_iff (b : Block) : b.ok = true ↔ ¬ discaccessBufferOk b.bufOff b.bufLen = false := by
  rw [Block.ok, Bool.not_eq_false]

theorem read_done (hok : (blockAt ram cp).ok = true) (hread : f.canRead = true)
    (hkept : ¬ Stretched f (blockAt ram cp).ofs) :
    ∃ g : Fil, g.content = f.content ∧
      fatServiceRead base cp ram f =
        finish (store ram (base + (blockAt ram cp).bufOff)
            ((f.content.drop (blockAt ram cp).ofs).take (blockAt ram cp).bufLen))
          cp FR_OK ((blockAt ram cp).readable f) (blockAt ram cp).bufLen g := by
  obtain ⟨hcontent, hfptr⟩ := fLseek_kept hkept
  have hmode := (fLseek_modes f (blockAt ram cp).ofs).1
  have hdrop : f.content.drop (min (blockAt ram cp).ofs f.content.length) =
      f.content.drop (blockAt ram cp).ofs := by
    rcases Nat.le_total (blockAt ram cp).ofs f.content.length with hle | hle
    · rw [Nat.min_eq_left hle]
    · rw [Nat.min_eq_right hle, List.drop_length, List.drop_eq_nil_of_le hle]
  have hlen : ((f.content.drop (blockAt ram cp).ofs).take (blockAt ram cp).bufLen).length =
      (blockAt ram cp).readable f := by
    rw [List.length_take, List.length_drop]
    rfl
  have hread' : (fLseek f (blockAt ram cp).ofs).canRead = true := hmode.trans hread
  obtain ⟨hresult, hdata, hsame⟩ := fRead_done hread' (blockAt ram cp).bufLen
  rw [hcontent, hfptr, hdrop] at hdata
  refine ⟨(fRead (fLseek f (blockAt ram cp).ofs) (blockAt ram cp).bufLen).2.2, hsame.trans hcontent, ?_⟩
  rw [fatServiceRead, if_neg ((ok_iff _).mp hok)]
  simp only [hdata, hresult, hlen]

theorem readable_lt (ram : Ram) (cp : Nat) (f : Fil) : (blockAt ram cp).readable f < 2 ^ 24 :=
  Nat.lt_of_le_of_lt (Nat.min_le_left _ _) (bufLen_lt ram cp)

theorem read_denied (hok : (blockAt ram cp).ok = true) (hread : f.canRead = false) :
    fatServiceRead base cp ram f =
      finish ram cp FR_DENIED 0 (blockAt ram cp).bufLen (fLseek f (blockAt ram cp).ofs) := by
  have hread' : (fLseek f (blockAt ram cp).ofs).canRead = false := (fLseek_modes f _).1.trans hread
  have hnone (a : Nat) : store ram a [] = ram := funext fun i => store_of_not_mem (Nat.lt_or_ge i a)
  rw [fatServiceRead, if_neg ((ok_iff _).mp hok)]
  simp only [fRead_denied hread', hnone, List.length_nil]

theorem read_file (hok : (blockAt ram cp).ok = true) : (fatServiceRead base cp ram f).file.content =
    (fLseek f (blockAt ram cp).ofs).content := by
  rw [fatServiceRead, if_neg ((ok_iff _).mp hok)]
  rcases Bool.eq_false_or_eq_true (fLseek f (blockAt ram cp).ofs).canRead with hread | hread
  · exact (fRead_done hread _).2.2
  · show (fRead (fLseek f (blockAt ram cp).ofs) _).2.2.content = _
    rw [fRead_denied hread]

theorem status_short (ram : Ram) (cp n bufLen : Nat) (g : Fil) :
    (finish ram cp FR_OK n bufLen g).status = 20 ↔ n < bufLen := by
  show (if n < bufLen then 20 else FR_OK) = (20 : UInt8) ↔ _
  split
  · next h => exact iff_of_true rfl h
  · next h => exact iff_of_false (by decide) h

theorem denied_reported {ram' : Ram} {n bufLen : Nat} {g : Fil} (hn : n ≤ bufLen) :
    Reported (finish ram' cp FR_DENIED 0 bufLen g) cp n bufLen ↔ bufLen = 0 := by
  have hcount := finish_count ram' cp FR_DENIED (Nat.two_pow_pos 24) bufLen g
  constructor
  · intro h
    have hzero : n = 0 := h.count.symm.trans hcount
    by_contra hlen
    have hstatus : FR_DENIED = (20 : UInt8) := h.status.mpr (by omega)
    exact absurd hstatus (by decide)
  · rintro rfl
    refine ⟨hcount.trans (Nat.le_zero.mp hn).symm, iff_of_false ?_ (Nat.not_lt_zero n)⟩
    show ¬ FR_DENIED = (20 : UInt8)
    decide

theorem readable_le (b : Block) (f : Fil) : b.readable f ≤ b.bufLen := Nat.min_le_left _ _

theorem getD_slice {content : List UInt8} {ofs len i : Nat} (hi : i < len) :
    ((content.drop ofs).take len).getD i 0 = content.getD (ofs + i) 0 := by
  rw [List.getD_eq_getElem?_getD, List.getD_eq_getElem?_getD, List.getElem?_take_of_lt hi,
    List.getElem?_drop]

theorem stretched_longer (h : Stretched f ofs) : (fLseek f ofs).content ≠ f.content := by
  intro hsame
  have hlen := congrArg List.length hsame
  rw [fLseek_length, if_pos h.1] at hlen
  have hlt := h.2
  omega

theorem read_ram {g : Fil} (i : Nat) :
    (finish (store ram (base + (blockAt ram cp).bufOff)
        ((f.content.drop (blockAt ram cp).ofs).take (blockAt ram cp).bufLen))
      cp FR_OK ((blockAt ram cp).readable f) (blockAt ram cp).bufLen g).ram i =
    if cp + 1 ≤ i ∧ i ≤ cp + 3 then
      UInt8.ofNat ((blockAt ram cp).readable f / 2 ^ (8 * (i - (cp + 1))))
    else if base + (blockAt ram cp).bufOff ≤ i ∧
        i < base + (blockAt ram cp).bufOff + (blockAt ram cp).readable f then
      f.content.getD ((blockAt ram cp).ofs + (i - (base + (blockAt ram cp).bufOff))) 0
    else ram i := by
  have hlen : ((f.content.drop (blockAt ram cp).ofs).take (blockAt ram cp).bufLen).length =
      (blockAt ram cp).readable f := by
    rw [List.length_take, List.length_drop]
    rfl
  rw [finish_ram]
  refine if_congr Iff.rfl rfl ?_
  by_cases hin : base + (blockAt ram cp).bufOff ≤ i ∧
      i < base + (blockAt ram cp).bufOff + (blockAt ram cp).readable f
  · obtain ⟨k, rfl⟩ := Nat.exists_eq_add_of_le hin.1
    have hk : k < (blockAt ram cp).readable f := by omega
    rw [if_pos hin, Nat.add_sub_cancel_left, store_of_mem (by rw [hlen]; exact hk)]
    exact getD_slice (Nat.lt_of_lt_of_le hk (readable_le _ _))
  · rw [if_neg hin]
    exact store_of_not_mem (by rw [hlen]; omega)

theorem read_done_exact (hok : (blockAt ram cp).ok = true) (hread : f.canRead = true)
    (hkept : ¬ Stretched f (blockAt ram cp).ofs) :
    ReadExact base cp ram f (fatServiceRead base cp ram f) ↔
      CountApart base cp (blockAt ram cp) f := by
  obtain ⟨g, hg, hdone⟩ := @read_done base cp ram f hok hread hkept
  rw [hdone]
  constructor
  · intro h i hi j hj hat
    have hstored := h.stored hok i hi
    rw [read_ram, hat, if_pos (by omega), Nat.add_sub_cancel_left] at hstored
    exact hstored.symm
  · intro hapart
    refine ⟨fun h => absurd (hok.symm.trans h) (by decide), hg, fun _ i hi => ?_, fun _ i hout hcp => ?_,
      fun _ => ⟨finish_count _ _ _ (readable_lt ram cp f) _ _, status_short _ _ _ _ _⟩⟩
    · rw [read_ram]
      split
      · next hcount =>
        rw [hapart i hi (base + (blockAt ram cp).bufOff + i - (cp + 1)) (by omega) (by omega)]
      · rw [if_pos (by omega), Nat.add_sub_cancel_left]
    · rw [read_ram, if_neg (by omega), if_neg (by omega)]

/-- A read is exact when the file is open for reading, the seek leaves it as it is, and the count does
not come to lie on other bytes. -/
theorem read_exact_iff : ReadExact base cp ram f (fatServiceRead base cp ram f) ↔
    ((blockAt ram cp).ok = true →
      (f.canRead = true ∨ (blockAt ram cp).bufLen = 0) ∧ ¬ Stretched f (blockAt ram cp).ofs ∧
        CountApart base cp (blockAt ram cp) f) := by
  by_cases hok : (blockAt ram cp).ok = true
  · rw [iff_comm, forall_prop_of_true hok]
    by_cases hkept : Stretched f (blockAt ram cp).ofs
    · exact iff_of_false (fun h => h.2.1 hkept)
        fun h => stretched_longer hkept ((read_file hok).symm.trans h.file)
    · rcases Bool.eq_false_or_eq_true f.canRead with hread | hread
      · rw [read_done_exact hok hread hkept]
        exact ⟨fun h => h.2.2, fun h => ⟨.inl hread, hkept, h⟩⟩
      · have hfile := (fLseek_kept hkept).1
        rw [read_denied hok hread]
        constructor
        · rintro ⟨hopen | hlen, -, -⟩
          · exact absurd (hread.symm.trans hopen) (by decide)
          · have hnone : (blockAt ram cp).readable f = 0 := by rw [Block.readable, hlen, Nat.zero_min]
            refine ⟨fun h => absurd (hok.symm.trans h) (by decide), hfile, fun _ i hi => ?_,
              fun _ i _ hcp => ?_, fun _ => (denied_reported (readable_le _ _)).mpr hlen⟩
            · exact absurd hi (by omega)
            · rw [finish_ram, if_neg (by omega)]
        · intro h
          have hlen := (denied_reported (readable_le _ _)).mp (h.reported hok)
          have hnone : (blockAt ram cp).readable f = 0 := by rw [Block.readable, hlen, Nat.zero_min]
          exact ⟨.inr hlen, hkept, fun i hi => absurd hi (by omega)⟩
  · have hrefused : fatServiceRead base cp ram f = ⟨FR_INVALID_PARAMETER, ram, f⟩ :=
      if_pos (not_not.mp fun h => hok ((ok_iff _).mpr h))
    rw [hrefused]
    refine iff_of_true ?_ (fun h => absurd h hok)
    exact ⟨fun _ => rfl, rfl, fun h => absurd h hok, fun h => absurd h hok, fun h => absurd h hok⟩

end Read

/-! ### Writing -/

section Write

variable {base cp : Nat} {ram : Ram} {f : Fil}

theorem overwrite_getD {content put : List UInt8} {p : Nat} (hp : p ≤ content.length) (i : Nat) :
    (content.take p ++ put ++ content.drop (p + put.length)).getD i 0 =
      if p ≤ i ∧ i < p + put.length then put.getD (i - p) 0 else content.getD i 0 := by
  have hlen : (content.take p ++ put).length = p + put.length := by
    rw [List.length_append, List.length_take, Nat.min_eq_left hp]
  simp only [List.getD_eq_getElem?_getD]
  rcases Nat.lt_or_ge i (p + put.length) with hin | hbehind
  · rw [List.getElem?_append_left (by omega)]
    rcases Nat.lt_or_ge i p with hbefore | hfrom
    · rw [if_neg (by omega), List.getElem?_append_left (by rw [List.length_take]; omega),
        List.getElem?_take_of_lt hbefore]
    · rw [if_pos ⟨hfrom, hin⟩, List.getElem?_append_right (by rw [List.length_take]; omega),
        List.length_take, Nat.min_eq_left hp]
  · rw [if_neg (by omega), List.getElem?_append_right (by omega), hlen, List.getElem?_drop,
      Nat.add_sub_cancel' hbehind]

theorem window_getD {a n i : Nat} (hi : i < n) : (window ram a n).getD i 0 = ram (a + i) := by
  rw [window, List.getD_eq_getElem?_getD, List.getElem?_map, List.getElem?_range hi]
  rfl

theorem unwrapped_eq {fptr btw : Nat} (hfptr : fptr < 2 ^ 32) (hbtw : btw < 2 ^ 32) :
    unwrapped fptr btw = min btw (2 ^ 32 - 1 - fptr) := by
  rw [unwrapped]
  split
  · next hwrap => omega
  · next hwrap => omega

theorem fWrite_done {g : Fil} (h : g.canWrite = true) (data : List UInt8) :
    ∃ put : List UInt8, put = data.take (min (unwrapped g.fptr data.length) (g.limit - g.fptr)) ∧
      (fWrite g data).1 = FR_OK ∧ (fWrite g data).2.1 = put.length ∧
      (fWrite g data).2.2.content =
        g.content.take g.fptr ++ put ++ g.content.drop (g.fptr + put.length) := by
  rw [fWrite, if_neg (by rw [h]; exact nofun)]
  exact ⟨_, rfl, rfl, rfl, rfl⟩

theorem write_done (hok : (blockAt ram cp).ok = true) (hwrite : f.canWrite = true) :
    ∃ g put : _, put = (window ram (base + (blockAt ram cp).bufOff) (blockAt ram cp).bufLen).take
        ((blockAt ram cp).writable f) ∧
      put.length = (blockAt ram cp).writable f ∧
      fatServiceWrite false base cp ram f =
        finish ram cp FR_OK ((blockAt ram cp).writable f) (blockAt ram cp).bufLen g ∧
      g.content = (fLseek f (blockAt ram cp).ofs).content.take (min (blockAt ram cp).ofs f.limit) ++
        put ++ (fLseek f (blockAt ram cp).ofs).content.drop
          (min (blockAt ram cp).ofs f.limit + put.length) := by
  obtain ⟨-, hfptr⟩ := @fLseek_write f (blockAt ram cp).ofs hwrite
  obtain ⟨-, hmode, hlimit⟩ := fLseek_modes f (blockAt ram cp).ofs
  have hofs := ofs_lt ram cp
  have hbuf := bufLen_lt ram cp
  have hwin : (window ram (base + (blockAt ram cp).bufOff) (blockAt ram cp).bufLen).length =
      (blockAt ram cp).bufLen := by rw [window, List.length_map, List.length_range]
  obtain ⟨put, hput, hresult, hcount, hcontent⟩ := @fWrite_done (fLseek f (blockAt ram cp).ofs)
    (hmode.trans hwrite) (window ram (base + (blockAt ram cp).bufOff) (blockAt ram cp).bufLen)
  have hn : min (unwrapped (min (blockAt ram cp).ofs f.limit) (blockAt ram cp).bufLen)
      (f.limit - min (blockAt ram cp).ofs f.limit) = (blockAt ram cp).writable f := by
    rw [unwrapped_eq (by omega) (by omega), Block.writable]
    omega
  rw [hwin, hfptr, hlimit, hn] at hput
  have hlen : put.length = (blockAt ram cp).writable f := by
    rw [hput, List.length_take, hwin]
    exact Nat.min_eq_left (Nat.min_le_left _ _)
  rw [hfptr] at hcontent
  refine ⟨_, put, hput, hlen, ?_, hcontent⟩
  rw [fatServiceWrite, if_neg ((ok_iff _).mp hok), if_neg nofun]
  simp only [hresult, hcount, hlen]

theorem write_denied (hok : (blockAt ram cp).ok = true) (hwrite : f.canWrite = false) :
    fatServiceWrite false base cp ram f =
      finish ram cp FR_DENIED 0 (blockAt ram cp).bufLen (fLseek f (blockAt ram cp).ofs) := by
  have hwrite' : (fLseek f (blockAt ram cp).ofs).canWrite = false := (fLseek_modes f _).2.1.trans hwrite
  have hnothing : fWrite (fLseek f (blockAt ram cp).ofs)
      (window ram (base + (blockAt ram cp).bufOff) (blockAt ram cp).bufLen) =
      (FR_DENIED, 0, fLseek f (blockAt ram cp).ofs) := if_pos hwrite'
  rw [fatServiceWrite, if_neg ((ok_iff _).mp hok), if_neg nofun]
  simp only [hnothing]

theorem writable_lt (ram : Ram) (cp : Nat) (f : Fil) : (blockAt ram cp).writable f < 2 ^ 24 :=
  Nat.lt_of_le_of_lt (Nat.min_le_left _ _) (bufLen_lt ram cp)

theorem write_done_exact (hok : (blockAt ram cp).ok = true) (hwrite : f.canWrite = true) :
    WriteExact base cp ram f (fatServiceWrite false base cp ram f) := by
  obtain ⟨g, put, hput, hlen, hdone, hcontent⟩ := @write_done base cp ram f hok hwrite
  obtain ⟨hseek, -⟩ := @fLseek_write f (blockAt ram cp).ofs hwrite
  have hseekLen := fLseek_length f (blockAt ram cp).ofs
  rw [if_pos hwrite] at hseekLen
  have hfits := f.fits
  have hroom : (blockAt ram cp).writable f ≤ f.limit - (blockAt ram cp).ofs :=
    (Nat.min_le_right _ _).trans (Nat.sub_le_sub_right (Nat.min_le_left _ _) _)
  have hget (i : Nat) : g.content.getD i 0 =
      if min (blockAt ram cp).ofs f.limit ≤ i ∧ i < min (blockAt ram cp).ofs f.limit + put.length
      then put.getD (i - min (blockAt ram cp).ofs f.limit) 0
      else (fLseek f (blockAt ram cp).ofs).content.getD i 0 := by
    rw [hcontent]
    exact overwrite_getD (by omega) i
  have hglen : g.content.length = max (fLseek f (blockAt ram cp).ofs).content.length
      (min (blockAt ram cp).ofs f.limit + put.length) := by
    rw [hcontent, List.length_append, List.length_append, List.length_take, List.length_drop]
    omega
  rw [hdone]
  refine ⟨fun h => absurd (hok.symm.trans h) (by decide), fun _ i hi => ?_, fun i hi hout => ?_,
    ?_, fun _ i _ hcp => ?_,
    fun _ => ⟨finish_count _ _ _ (writable_lt ram cp f) _ _, status_short _ _ _ _ _⟩⟩
  · have hofs : min (blockAt ram cp).ofs f.limit = (blockAt ram cp).ofs := by omega
    have hbuf : i < (blockAt ram cp).bufLen := Nat.lt_of_lt_of_le hi (Nat.min_le_left _ _)
    rw [finish, hget, hofs, if_pos (by omega), Nat.add_sub_cancel_left, hput,
      List.getD_eq_getElem?_getD, List.getElem?_take_of_lt hi, ← List.getD_eq_getElem?_getD,
      window_getD hbuf]
  · rw [finish, hget, if_neg (by omega), hseek, List.getD_append _ _ _ _ hi]
  · show f.content.length ≤ g.content.length ∧ g.content.length ≤ _
    rw [hglen, hseekLen]
    omega
  · rw [finish_ram, if_neg (by omega)]

theorem write_exact_iff : WriteExact base cp ram f (fatServiceWrite false base cp ram f) ↔
    ((blockAt ram cp).ok = true → f.canWrite = true ∨ (blockAt ram cp).bufLen = 0) := by
  by_cases hok : (blockAt ram cp).ok = true
  · rw [iff_comm, forall_prop_of_true hok]
    rcases Bool.eq_false_or_eq_true f.canWrite with hwrite | hwrite
    · exact iff_of_true (.inl hwrite) (write_done_exact hok hwrite)
    · have hkept : (fLseek f (blockAt ram cp).ofs).content = f.content :=
        (fLseek_kept fun h => absurd (hwrite.symm.trans h.1) (by decide)).1
      rw [write_denied hok hwrite]
      constructor
      · rintro (hopen | hlen)
        · exact absurd (hwrite.symm.trans hopen) (by decide)
        · have hnone : (blockAt ram cp).writable f = 0 := by rw [Block.writable, hlen, Nat.zero_min]
          refine ⟨fun h => absurd (hok.symm.trans h) (by decide), fun _ i hi => ?_, fun i _ _ => ?_,
            ?_, fun _ i _ hcp => ?_, fun _ => (denied_reported (Nat.min_le_left _ _)).mpr hlen⟩
          · exact absurd hi (by omega)
          · rw [finish, hkept]
          · rw [finish, hkept]
            exact ⟨le_rfl, Nat.le_max_left _ _⟩
          · rw [finish_ram, if_neg (by omega)]
      · intro h
        exact .inr ((denied_reported (Nat.min_le_left _ _)).mp (h.reported hok))
  · have hrefused : fatServiceWrite false base cp ram f = ⟨FR_INVALID_PARAMETER, ram, f⟩ :=
      if_pos (not_not.mp fun h => hok ((ok_iff _).mpr h))
    rw [hrefused]
    refine iff_of_true ?_ (fun h => absurd h hok)
    exact ⟨fun _ => rfl, fun h => absurd h hok, fun _ _ _ => rfl, ⟨le_rfl, Nat.le_max_left _ _⟩,
      fun h => absurd h hok, fun h => absurd h hok⟩

end Write

/-- When the two commands move exactly what they are asked to. -/
theorem transfers_exact_iff (base cp : Nat) (ram : Ram) (f : Fil) :
    (ReadExact base cp ram f (fatServiceRead base cp ram f) ↔
      ((blockAt ram cp).ok = true →
        (f.canRead = true ∨ (blockAt ram cp).bufLen = 0) ∧ ¬ Stretched f (blockAt ram cp).ofs ∧
          CountApart base cp (blockAt ram cp) f)) ∧
    (WriteExact base cp ram f (fatServiceWrite false base cp ram f) ↔
      ((blockAt ram cp).ok = true → f.canWrite = true ∨ (blockAt ram cp).bufLen = 0)) :=
  ⟨read_exact_iff, write_exact_iff⟩

def updateFile : Fil where
  content := [65, 66, 67, 68]
  fptr := 0
  canRead := true
  canWrite := true
  limit := 4096
  stale := fun _ => 0
  fits := by decide
  inside := by decide

def behindEnd : Ram := fun a => if a = 0xFF0001 then 1 else if a = 0xFF0008 then 8 else 0

/-- Asked for a byte behind the end, the command makes the file twice as long. -/
theorem read_lengthens :
    (fatServiceRead 0 0xFF0000 behindEnd updateFile).file.content = [65, 66, 67, 68, 0, 0, 0, 0] ∧
      ¬ ReadExact 0 0xFF0000 behindEnd updateFile
        (fatServiceRead 0 0xFF0000 behindEnd updateFile) := by
  have hlonger : (fatServiceRead 0 0xFF0000 behindEnd updateFile).file.content =
      [65, 66, 67, 68, 0, 0, 0, 0] := by decide +kernel
  refine ⟨hlonger, fun h => ?_⟩
  have hsame := hlonger.symm.trans h.file
  exact absurd hsame (by decide)

end Pi1MHz.FatTransfer
