import Pi1MHz.VideoOwnership

/-!
# What the decoder leaves alone

Pictures that come back, the work of the decoder layer and the display change only a few fields of the player, and
none of them registers a buffer.
-/

namespace Pi1MHz.VideoPlayer

def Player.core (v : Player) : Player :=
  { v with pendingPhys := 0, pendingPts := 0, inFlight := 0, displayedPhys := 0, curPicture := 0 }

structure Steady (s s' : Video) : Prop where
  core : s'.vp.core = s.vp.core
  registered : ∀ i, (s'.dec.out i).registered = (s.dec.out i).registered

section

variable {M : Machine} {s s' s'' : Video}

theorem Steady.refl (s : Video) : Steady s s := ⟨rfl, fun _ => rfl⟩

theorem Steady.trans (h : Steady s s') (h' : Steady s' s'') : Steady s s'' :=
  ⟨h'.core.trans h.core, fun i => (h'.registered i).trans (h.registered i)⟩

theorem Steady.nextFrame (h : Steady s s') : s'.vp.nextFrame = s.vp.nextFrame := by
  have hfield := congrArg Player.nextFrame h.core
  exact hfield

theorem setSlot_steady {i : Fin 3} {o : Slot} (ho : o.registered = (s.dec.out i).registered) :
    Steady s (s.setSlot i o) := by
  refine ⟨rfl, fun j => ?_⟩
  by_cases hj : j = i
  · subst hj
    rw [setSlot_self]
    exact ho
  · rw [setSlot_ne hj]

/-! ### The decoder layer -/

theorem submit_steady (i : Fin 3) (s : Video) : Steady s (s.submit i) :=
  ⟨rfl, fun j => (submit_slots i s j).2.1⟩

theorem armFrom_steady (l : List (Fin 3)) (s : Video) : Steady s (armFrom M l s) := by
  induction l generalizing s with
  | nil => exact Steady.refl s
  | cons i rest ih =>
    rw [armFrom_cons]
    split
    · exact ih s
    · split
      · exact (submit_steady i s).trans (ih _)
      · exact ⟨rfl, fun _ => rfl⟩

theorem arm_steady (s : Video) : Steady s (armOutputBuffers M s) := by
  rw [armOutputBuffers]
  split
  · exact Steady.refl s
  · exact armFrom_steady _ s

theorem recycle_steady (phys : UInt32) (s : Video) : Steady s (h264decRecycleOutput M phys s) := by
  rw [h264decRecycleOutput]
  split
  · exact Steady.refl s
  · next i _ =>
    split
    · have hset : Steady s (s.setSlot i { s.dec.out i with withCaller := false }) := setSlot_steady rfl
      exact hset.trans (arm_steady _)
    · exact Steady.refl s

theorem frameDecoded_steady (phys : UInt32) (pts : UInt64) (eos : Bool) (s : Video) :
    Steady s (frameDecoded M phys pts eos s) := by
  have hback : Steady s { s with vp := s.vp.frameBack } := ⟨rfl, fun _ => rfl⟩
  rw [frameDecoded]
  split
  · exact Steady.refl s
  · dsimp only
    split
    · have hrecycled := hback.trans (recycle_steady (M := M) s.vp.frameBack.pendingPhys _)
      exact ⟨hrecycled.core, hrecycled.registered⟩
    · exact ⟨rfl, fun _ => rfl⟩

theorem arrive_steady (s : Video) (e : Arrival) : Steady s (arrive M s e) := by
  cases e with
  | formatChanged => exact ⟨rfl, fun _ => rfl⟩
  | returned i length eos pts =>
    rw [arrive]
    split
    · have hset : Steady s (s.setSlot i { s.dec.out i with inFlight := false, withComponent := false }) :=
        setSlot_steady rfl
      have hdone : Steady s (completeBuffer i s) := ⟨hset.core, hset.registered⟩
      refine hdone.trans ?_
      rw [onBufferDone]
      split
      · refine Steady.trans ?_ (frameDecoded_steady _ _ _ _)
        have hcounted : Steady (completeBuffer i s) (countFrame (completeBuffer i s)) := ⟨rfl, fun _ => rfl⟩
        exact hcounted.trans (setSlot_steady rfl)
      · split
        · exact frameDecoded_steady _ _ _ _
        · exact Steady.refl _
    · exact Steady.refl s

theorem arriveAll_steady (arrivals : List Arrival) (s : Video) : Steady s (arriveAll M arrivals s) := by
  induction arrivals generalizing s with
  | nil => exact Steady.refl s
  | cons e rest ih => exact (arrive_steady s e).trans (ih (arrive M s e))

theorem disable_steady (c : Call) (s : Video) : Steady s (disableOutput M c s) := by
  rw [disableOutput]
  split
  · have harrived := arriveAll_steady (M := M) c.arrivals s
    exact ⟨harrived.core, harrived.registered⟩
  · exact Steady.refl s

theorem reconfigure_steady (a : Reconfigure) (s : Video) : Steady s (reconfigureOutput M a s).2 := by
  have hinfo := (disable_steady (M := M) a.disable s).trans (arriveAll_steady (M := M) a.info.arrivals _)
  have hformat := hinfo.trans (arriveAll_steady (M := M) a.setFormat.arrivals _)
  have henable := hformat.trans (arriveAll_steady (M := M) a.enable.arrivals _)
  rw [reconfigureOutput]
  dsimp only
  split
  · exact hinfo
  · split
    · exact hformat
    · split
      · exact henable
      · dsimp only
        refine Steady.trans ?_ (arm_steady _)
        exact ⟨henable.core, henable.registered⟩

theorem reconfigureIfPending_steady (a : Reconfigure) (s : Video) : Steady s (reconfigureIfPending M a s) := by
  have hset := reconfigure_steady (M := M) a { s with dec := { s.dec with reconfigurePending := false } }
  rw [reconfigureIfPending]
  split
  · cases hresult : reconfigureOutput M a { s with dec := { s.dec with reconfigurePending := false } } with
    | mk ok t =>
      rw [hresult] at hset
      cases ok with
      | true => exact ⟨hset.core, hset.registered⟩
      | false => exact ⟨hset.core, hset.registered⟩
  · exact Steady.refl s

theorem decoderPoll_steady (a : DecoderPoll) (s : Video) : Steady s (h264decPoll M a s) := by
  rw [h264decPoll]
  split
  · exact Steady.refl s
  · have harrived := arriveAll_steady (M := M) a.arrivals s
    have hset := harrived.trans (reconfigureIfPending_steady (M := M) a.reconfigure _)
    have heos := hset.trans (arriveAll_steady (M := M) a.eos _)
    exact heos.trans (arm_steady _)

theorem resume_steady (a : Flush) (s : Video) : Steady s (h264decResume M a s) := by
  rw [h264decResume]
  split
  · exact Steady.refl s
  · have hinput := arriveAll_steady (M := M) a.input s
    dsimp only
    split
    · exact (hinput.trans (arriveAll_steady a.output _)).trans (arm_steady _)
    · exact hinput.trans (arm_steady _)

theorem feedFrame_steady (c : Call) (frame : UInt32) (s : Video) : Steady s (feedFrame M c frame s).2 := by
  have harrived := arriveAll_steady (M := M) c.arrivals s
  rw [feedFrame]
  split
  · exact Steady.refl s
  · dsimp only
    split
    · exact harrived
    · exact ⟨harrived.core, harrived.registered⟩

theorem flip_steady (s : Video) : Steady s (flipPending M s) := by
  rw [flipPending]
  dsimp only
  split
  · exact Steady.refl s
  · split
    · have hrecycled := recycle_steady (M := M) s.vp.displayedPhys
        { s with vp := { s.vp with pendingPhys := 0 }, log := s.log ++ [.flipped s.vp.pendingPhys] }
      exact ⟨hrecycled.core, hrecycled.registered⟩
    · exact ⟨rfl, fun _ => rfl⟩

end

end Pi1MHz.VideoPlayer
