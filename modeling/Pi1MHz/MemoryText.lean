import Mathlib.Data.List.DropRight
import Mathlib.Logic.Function.Basic

/-!
# Text in a memory of bytes

A memory read as text: the bytes between two addresses (`slice`), the scans of a parser as what they skip of such
a slice, and strings that end at a NUL.  A parser that keeps strings where they stand and cuts them with NULs is
then a parser of lists, as long as what it writes stays away from the strings that it keeps (`CString.frame`).
-/

namespace Pi1MHz.MemoryText

/-- The bytes from `i` up to `e`. -/
def slice (M : Nat → UInt8) (i e : Nat) : List UInt8 := (List.range' i (e - i)).map M

section

variable {M M' : Nat → UInt8} {i k e a : Nat}

theorem slice_nil (M : Nat → UInt8) (h : e ≤ i) : slice M i e = [] := by
  rw [slice, Nat.sub_eq_zero_of_le h]
  rfl

theorem slice_cons (M : Nat → UInt8) (h : i < e) : slice M i e = M i :: slice M (i + 1) e := by
  have hlength : e - i = e - (i + 1) + 1 := by omega
  rw [slice, slice, hlength, List.range'_succ, List.map_cons]

@[simp] theorem slice_length (M : Nat → UInt8) (i e : Nat) : (slice M i e).length = e - i := by simp [slice]

theorem slice_append (M : Nat → UInt8) (hik : i ≤ k) (hke : k ≤ e) : slice M i k ++ slice M k e = slice M i e := by
  have hlength : e - i = k - i + (e - k) := by omega
  have hstart : i + (k - i) = k := by omega
  rw [slice, slice, slice, ← List.map_append, hlength, ← List.range'_append_1, hstart]

theorem slice_congr (h : ∀ a, i ≤ a → a < e → M a = M' a) : slice M i e = slice M' i e := by
  apply List.map_congr_left
  intro a ha
  rw [List.mem_range'_1] at ha
  exact h a ha.1 (by omega)

theorem slice_base (M : Nat → UInt8) (base i e : Nat) :
    slice (fun k => M (base + k)) i e = slice M (base + i) (base + e) := by
  have hlength : base + e - (base + i) = e - i := by omega
  rw [slice, slice, hlength, ← List.map_add_range', List.map_map]
  rfl

end

/-! ### Scans -/

def skipFor (p : UInt8 → Bool) (M : Nat → UInt8) : Nat → Nat → Nat
  | 0, i => i
  | n + 1, i => if p (M i) = true then skipFor p M n (i + 1) else i

/-- The first address from `i` on whose byte is not one to skip, at most `e`. -/
def skipWhile (p : UInt8 → Bool) (M : Nat → UInt8) (e i : Nat) : Nat := skipFor p M (e - i) i

def trimFor (p : UInt8 → Bool) (M : Nat → UInt8) (a : Nat) : Nat → Nat
  | 0 => a
  | n + 1 => if p (M (a + n)) = true then trimFor p M a n else a + n + 1

/-- The last address down from `e` before which there is no byte to drop, at least `a`. -/
def trimWhile (p : UInt8 → Bool) (M : Nat → UInt8) (a e : Nat) : Nat := trimFor p M a (e - a)

section

variable {p : UInt8 → Bool} {M M' : Nat → UInt8} {i e a : Nat}

theorem skipFor_spec (p : UInt8 → Bool) (M : Nat → UInt8) (n i : Nat) :
    i ≤ skipFor p M n i ∧ skipFor p M n i ≤ i + n ∧
      slice M i (skipFor p M n i) = (slice M i (i + n)).takeWhile p ∧
      slice M (skipFor p M n i) (i + n) = (slice M i (i + n)).dropWhile p := by
  induction n generalizing i with
  | zero => simp [skipFor, slice]
  | succ n ih =>
    have hcons := slice_cons M (show i < i + (n + 1) by omega)
    rw [skipFor, hcons]
    by_cases hp : p (M i) = true
    · obtain ⟨hlow, hhigh, htake, hdrop⟩ := ih (i + 1)
      have hend : i + 1 + n = i + (n + 1) := by omega
      rw [hend] at hhigh htake hdrop
      rw [if_pos hp, List.takeWhile_cons_of_pos hp, List.dropWhile_cons_of_pos hp]
      refine ⟨by omega, hhigh, ?_, hdrop⟩
      rw [slice_cons M (show i < skipFor p M n (i + 1) by omega), htake]
    · rw [if_neg hp, List.takeWhile_cons_of_neg hp, List.dropWhile_cons_of_neg hp]
      exact ⟨Nat.le_refl i, by omega, slice_nil M (Nat.le_refl i), hcons⟩

theorem skipWhile_le (p : UInt8 → Bool) (M : Nat → UInt8) (h : i ≤ e) :
    i ≤ skipWhile p M e i ∧ skipWhile p M e i ≤ e := by
  have hspec := skipFor_spec p M (e - i) i
  have hend : i + (e - i) = e := by omega
  rw [hend] at hspec
  exact ⟨hspec.1, hspec.2.1⟩

theorem slice_skipWhile (p : UInt8 → Bool) (M : Nat → UInt8) (h : i ≤ e) :
    slice M i (skipWhile p M e i) = (slice M i e).takeWhile p := by
  have hspec := skipFor_spec p M (e - i) i
  have hend : i + (e - i) = e := by omega
  rw [hend] at hspec
  exact hspec.2.2.1

theorem slice_from_skipWhile (p : UInt8 → Bool) (M : Nat → UInt8) (h : i ≤ e) :
    slice M (skipWhile p M e i) e = (slice M i e).dropWhile p := by
  have hspec := skipFor_spec p M (e - i) i
  have hend : i + (e - i) = e := by omega
  rw [hend] at hspec
  exact hspec.2.2.2

theorem skipWhile_stop (h : i ≤ e) (hstop : skipWhile p M e i < e) : p (M (skipWhile p M e i)) = false := by
  have hrest := slice_from_skipWhile p M h
  rw [slice_cons M hstop] at hrest
  have hhead := List.head?_dropWhile_not p (slice M i e)
  rw [← hrest] at hhead
  exact Bool.not_eq_true _ ▸ fun htrue => by simp [htrue] at hhead

theorem trimFor_spec (p : UInt8 → Bool) (M : Nat → UInt8) (a n : Nat) :
    a ≤ trimFor p M a n ∧ trimFor p M a n ≤ a + n ∧
      slice M a (trimFor p M a n) = (slice M a (a + n)).rdropWhile p := by
  induction n with
  | zero => simp [trimFor, slice]
  | succ n ih =>
    obtain ⟨hlow, hhigh, hslice⟩ := ih
    have hlast : slice M a (a + (n + 1)) = slice M a (a + n) ++ [M (a + n)] := by
      rw [← slice_append M (show a ≤ a + n by omega) (show a + n ≤ a + (n + 1) by omega),
        slice_cons M (show a + n < a + (n + 1) by omega), slice_nil M (show a + (n + 1) ≤ a + n + 1 by omega)]
    rw [trimFor, hlast]
    by_cases hp : p (M (a + n)) = true
    · rw [if_pos hp, List.rdropWhile_concat_pos _ _ _ hp]
      exact ⟨hlow, by omega, hslice⟩
    · rw [if_neg hp, List.rdropWhile_concat_neg _ _ _ hp]
      exact ⟨by omega, by omega, hlast⟩

theorem trimWhile_spec (p : UInt8 → Bool) (M : Nat → UInt8) (h : a ≤ e) :
    a ≤ trimWhile p M a e ∧ trimWhile p M a e ≤ e ∧
      slice M a (trimWhile p M a e) = (slice M a e).rdropWhile p := by
  have hspec := trimFor_spec p M a (e - a)
  have hend : a + (e - a) = e := by omega
  rw [hend] at hspec
  exact hspec

end

/-! ### Strings that end at a NUL -/

/-- The string at `a`. -/
def CString (M : Nat → UInt8) (a : Nat) : List UInt8 → Prop
  | [] => M a = 0
  | c :: s => M a = c ∧ c ≠ 0 ∧ CString M (a + 1) s

def cut (s : List UInt8) : List UInt8 := s.takeWhile (· != 0)

section

variable {M M' : Nat → UInt8} {a e : Nat} {s t : List UInt8}

theorem CString.unique (hs : CString M a s) (ht : CString M a t) : s = t := by
  induction s generalizing a t with
  | nil =>
    cases t with
    | nil => rfl
    | cons c t => exact absurd (ht.1.symm.trans hs) ht.2.1
  | cons c s ih =>
    cases t with
    | nil => exact absurd (hs.1.symm.trans ht) hs.2.1
    | cons d t => rw [← hs.1, ← ht.1, ih hs.2.2 ht.2.2]

theorem CString.frame (hs : CString M a s) (hkept : ∀ b, a ≤ b → b ≤ a + s.length → M' b = M b) : CString M' a s := by
  induction s generalizing a with
  | nil => exact (hkept a (Nat.le_refl a) (by simp)).trans hs
  | cons c s ih =>
    refine ⟨(hkept a (Nat.le_refl a) (by omega)).trans hs.1, hs.2.1, ih hs.2.2 ?_⟩
    intro b hlow hhigh
    apply hkept b (by omega)
    rw [List.length_cons]
    omega

theorem cString_slice (hae : a ≤ e) (hnul : M e = 0) : CString M a (cut (slice M a e)) := by
  induction hn : e - a generalizing a with
  | zero =>
    obtain rfl : a = e := by omega
    rw [slice_nil M hae]
    exact hnul
  | succ n ih =>
    have hlt : a < e := by omega
    rw [slice_cons M hlt, cut]
    by_cases hzero : M a = 0
    · rw [List.takeWhile_cons_of_neg (by simp [hzero])]
      exact hzero
    · rw [List.takeWhile_cons_of_pos (by simp [hzero])]
      exact ⟨rfl, hzero, ih hlt (by omega)⟩

theorem cut_length (s : List UInt8) : (cut s).length ≤ s.length := (List.takeWhile_prefix _).length_le

end

end Pi1MHz.MemoryText
