import Mathlib.Logic.Function.Basic
import Mathlib.Data.List.GetD

/-!
# Memory in slots

Byte memory that is divided into slots, with words stored low byte first.  What is stored is read
back, and a store changes nothing outside the bytes it covers.
-/

namespace Pi1MHz.SlotMemory

variable {σ : Type} [DecidableEq σ]

abbrev Memory (σ : Type) := σ → Nat → UInt8

def storeBytes (m : Memory σ) (s : σ) (o : Nat) (d : List UInt8) : Memory σ :=
  Function.update m s fun i => if o ≤ i ∧ i < o + d.length then d.getD (i - o) 0 else m s i

def loadBytes (m : Memory σ) (s : σ) (o n : Nat) : List UInt8 := (List.range n).map fun i => m s (o + i)

def wordBytes (w : UInt32) : List UInt8 :=
  [UInt8.ofNat w.toNat, UInt8.ofNat (w.toNat / 256), UInt8.ofNat (w.toNat / 65536),
    UInt8.ofNat (w.toNat / 16777216)]

def store32 (m : Memory σ) (s : σ) (o : Nat) (w : UInt32) : Memory σ := storeBytes m s o (wordBytes w)

def load32 (m : Memory σ) (s : σ) (o : Nat) : UInt32 :=
  UInt32.ofNat ((m s o).toNat + 256 * (m s (o + 1)).toNat + 65536 * (m s (o + 2)).toNat +
    16777216 * (m s (o + 3)).toNat)

theorem storeBytes_slot (m : Memory σ) {s s' : σ} (o : Nat) (d : List UInt8) (h : s' ≠ s) :
    storeBytes m s o d s' = m s' := Function.update_of_ne h _ _

theorem storeBytes_out (m : Memory σ) (s : σ) {o i : Nat} (d : List UInt8) (h : i < o ∨ o + d.length ≤ i) :
    storeBytes m s o d s i = m s i := by
  rw [storeBytes, Function.update_self, if_neg (by omega)]

theorem storeBytes_in (m : Memory σ) (s : σ) {o i : Nat} {d : List UInt8} (h : i < d.length) :
    storeBytes m s o d s (o + i) = d[i] := by
  rw [storeBytes, Function.update_self, if_pos (by omega), Nat.add_sub_cancel_left,
    List.getD_eq_getElem d 0 h]

theorem storeBytes_append (m : Memory σ) (s : σ) (o : Nat) (d d' : List UInt8) :
    storeBytes (storeBytes m s o d) s (o + d.length) d' = storeBytes m s o (d ++ d') := by
  funext s' i
  by_cases hs : s' = s
  · subst hs
    simp only [storeBytes, Function.update_self, List.length_append]
    by_cases hlo : i < o + d.length
    · rw [if_neg (by omega)]
      by_cases ho : o ≤ i
      · rw [if_pos ⟨ho, hlo⟩, if_pos (by omega), List.getD_append _ _ _ _ (by omega)]
      · rw [if_neg (by omega), if_neg (by omega)]
    · by_cases hhi : i < o + d.length + d'.length
      · rw [if_pos (by omega), if_pos (by omega), List.getD_append_right _ _ _ _ (by omega), Nat.sub_sub]
      · rw [if_neg (by omega), if_neg (by omega), if_neg (by omega)]
  · rw [storeBytes_slot _ _ _ hs, storeBytes_slot _ _ _ hs, storeBytes_slot _ _ _ hs]

omit [DecidableEq σ] in
theorem loadBytes_congr {m m' : Memory σ} {s : σ} {o n : Nat}
    (h : ∀ i < n, m' s (o + i) = m s (o + i)) : loadBytes m' s o n = loadBytes m s o n := by
  apply List.map_congr_left
  intro i hi
  exact h i (List.mem_range.mp hi)

omit [DecidableEq σ] in
theorem load32_congr {m m' : Memory σ} {s : σ} {o : Nat}
    (h : ∀ i < 4, m' s (o + i) = m s (o + i)) : load32 m' s o = load32 m s o := by
  have h0 := h 0 (by omega)
  rw [Nat.add_zero] at h0
  rw [load32, load32, h0, h 1 (by omega), h 2 (by omega), h 3 (by omega)]

theorem loadBytes_storeBytes (m : Memory σ) (s : σ) (o : Nat) (d : List UInt8) :
    loadBytes (storeBytes m s o d) s o d.length = d := by
  apply List.ext_getElem
  · rw [loadBytes, List.length_map, List.length_range]
  · intro i hi hd
    simp only [loadBytes, List.getElem_map, List.getElem_range]
    exact storeBytes_in m s hd

theorem load32_store32 (m : Memory σ) (s : σ) (o : Nat) (w : UInt32) :
    load32 (store32 m s o w) s o = w := by
  have hlen : (wordBytes w).length = 4 := rfl
  have h0 : store32 m s o w s (o + 0) = UInt8.ofNat w.toNat := storeBytes_in m s (d := wordBytes w) (by omega)
  have h1 : store32 m s o w s (o + 1) = UInt8.ofNat (w.toNat / 256) :=
    storeBytes_in m s (d := wordBytes w) (by omega)
  have h2 : store32 m s o w s (o + 2) = UInt8.ofNat (w.toNat / 65536) :=
    storeBytes_in m s (d := wordBytes w) (by omega)
  have h3 : store32 m s o w s (o + 3) = UInt8.ofNat (w.toNat / 16777216) :=
    storeBytes_in m s (d := wordBytes w) (by omega)
  have hw := w.toNat_lt
  rw [Nat.add_zero] at h0
  rw [load32, h0, h1, h2, h3]
  simp only [UInt8.toNat_ofNat']
  have hsum : w.toNat % 2 ^ 8 + 256 * (w.toNat / 256 % 2 ^ 8) + 65536 * (w.toNat / 65536 % 2 ^ 8) +
      16777216 * (w.toNat / 16777216 % 2 ^ 8) = w.toNat := by
    omega
  rw [hsum, UInt32.ofNat_toNat]

end Pi1MHz.SlotMemory
