import Pi1MHz.NetCommands

/-!
# What the ring helpers do

A handle's ring as a queue of bytes.  All of it rests on two checks of the callers: a chain is
put only when `ring_free` says it fits, and no more is taken than the count says there is.
-/

namespace Pi1MHz.Net

open RingStream (Ring)
open RingStream.Ring

theorem ring_lt_word : NET_RX_RING_SIZE < 2 ^ 16 := by decide

variable {h : Handle}

theorem ringFree_eq (hc : h.ring.count ≤ NET_RX_RING_SIZE) :
    ringFree h = NET_RX_RING_SIZE - h.ring.count := by
  have hmod : h.ring.count % 2 ^ 16 = h.ring.count :=
    Nat.mod_eq_of_lt (Nat.lt_of_le_of_lt hc ring_lt_word)
  have hsize : NET_RX_RING_SIZE = 8192 := rfl
  rw [ringFree, hmod]
  omega

theorem ringPutPbuf_eq (hw : h.ring.WellFormed) (p : Chain) :
    ringPutPbuf h p = ringPutMem h p.bytes := by
  have hcount : h.ring.count < 2 ^ 16 := Nat.lt_of_le_of_lt hw.count ring_lt_word
  rw [ringPutPbuf, ringPutMem, foldl_write p.pbufs hcount]
  rfl

theorem ringPutMem_wellFormed (hw : h.ring.WellFormed) {xs : List UInt8}
    (hfit : h.ring.count + xs.length ≤ NET_RX_RING_SIZE) : (ringPutMem h xs).ring.WellFormed :=
  hw.write ring_lt_word hfit

theorem contents_ringPutMem (hw : h.ring.WellFormed) {xs : List UInt8}
    (hfit : h.ring.count + xs.length ≤ NET_RX_RING_SIZE) :
    (ringPutMem h xs).ring.contents = h.ring.contents ++ xs :=
  contents_write hw ring_lt_word hfit

/-! ### Taking -/

section

variable {k : Nat}

theorem ringGetMem_fst (hk : k ≤ h.ring.count) : (ringGetMem h k).1 = h.ring.contents.take k :=
  front_eq hk

theorem ringGetMem_wellFormed (hw : h.ring.WellFormed) (hk : k ≤ h.ring.count) :
    (ringGetMem h k).2.ring.WellFormed :=
  hw.skip ring_lt_word hk

theorem contents_ringGetMem (hw : h.ring.WellFormed) (hk : k ≤ h.ring.count) :
    (ringGetMem h k).2.ring.contents = h.ring.contents.drop k :=
  contents_skip hw ring_lt_word hk

theorem ringGet_eq (max : Nat) : ringGet h max = ringGetMem h (min max h.ring.count) := by
  rw [ringGet]
  congr 1
  split <;> omega

theorem ringGet_fst (max : Nat) : (ringGet h max).1 = h.ring.contents.take max := by
  rw [ringGet_eq, ringGetMem_fst (Nat.min_le_right _ _), List.take_eq_take_iff,
    RingStream.Ring.length_contents]
  omega

theorem ringGet_wellFormed (hw : h.ring.WellFormed) (max : Nat) :
    (ringGet h max).2.ring.WellFormed := by
  rw [ringGet_eq]
  exact ringGetMem_wellFormed hw (Nat.min_le_right _ _)

theorem contents_ringGet (hw : h.ring.WellFormed) (max : Nat) :
    (ringGet h max).2.ring.contents = h.ring.contents.drop max := by
  rw [ringGet_eq, contents_ringGetMem hw (Nat.min_le_right _ _)]
  by_cases hmax : max ≤ h.ring.count
  · rw [Nat.min_eq_left hmax]
  · have hlen := RingStream.Ring.length_contents h.ring
    rw [List.drop_eq_nil_of_le (by omega), List.drop_eq_nil_of_le (by omega)]

theorem count_ringGet (hw : h.ring.WellFormed) (max : Nat) :
    (ringGet h max).2.ring.count = h.ring.count - max := by
  have hlen := congrArg List.length (contents_ringGet hw max)
  simpa only [RingStream.Ring.length_contents, List.length_drop] using hlen

end

end Pi1MHz.Net
