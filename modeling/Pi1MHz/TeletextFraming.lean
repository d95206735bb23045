import Mathlib.Tactic.IntervalCases
import Pi1MHz.Teletext
import Pi1MHz.FinSizes

/-!
# The teletext adapter: framing

A field that is handed to the Beeb begins where a field of the stream begins, as long as what a
full ring drops is whole fields.  The ring holds the end of the stream, and what is before it is
what was dropped or taken; that is a number of whole fields.
-/

namespace Pi1MHz.Teletext

open RingStream FinSizes

/-! ### Pushing and popping -/

theorem ring_lt_word : TTX_RING_BYTES < 2 ^ 32 := by decide

theorem skip_write {r : Ring UInt8 TTX_RING_BYTES} (h : r.WellFormed) {k : Nat} (hk : k ≤ r.count)
    {d : List UInt8} (hroom : r.count - k + d.length ≤ TTX_RING_BYTES) :
    ((r.skip 32 k).write 32 d).WellFormed ∧
      ((r.skip 32 k).write 32 d).contents = r.contents.drop k ++ d ∧
      ((r.skip 32 k).write 32 d).count = r.count - k + d.length := by
  have hskip := h.skip ring_lt_word hk
  have hcount : (r.skip 32 k).count = r.count - k := by
    rw [Ring.skip_eq h ring_lt_word hk]
  have hroom' : (r.skip 32 k).count + d.length ≤ TTX_RING_BYTES := by
    rw [hcount]
    exact hroom
  refine ⟨hskip.write ring_lt_word hroom', ?_, ?_⟩
  · rw [Ring.contents_write hskip ring_lt_word hroom', Ring.contents_skip h ring_lt_word hk]
  · rw [Ring.count_write ring_lt_word hroom', hcount]

structure Pushed (r : Ring UInt8 TTX_RING_BYTES) (d : List UInt8) (r' : Ring UInt8 TTX_RING_BYTES) : Prop where
  wellFormed : r'.WellFormed
  contents : r'.contents = (r.contents ++ d).drop (r.count + d.length - TTX_RING_BYTES)
  count : r'.count = min (r.count + d.length) TTX_RING_BYTES

theorem ringPush_pushed {r : Ring UInt8 TTX_RING_BYTES} (h : r.WellFormed) (d : List UInt8) :
    Pushed r d (ringPush r d) := by
  have hcount := h.count
  have hlen : r.contents.length = r.count := Ring.length_contents r
  -- with `k` bytes dropped from the ring and `j` from the block
  have hpush : ∀ j k, j ≤ d.length → k ≤ r.count → j + k = r.count + d.length - TTX_RING_BYTES →
      (j ≠ 0 → k = r.count) → r.count - k + (d.length - j) ≤ TTX_RING_BYTES →
      Pushed r d ((r.skip 32 k).write 32 (d.drop j)) := by
    intro j k hj hk hsum hall hroom
    obtain ⟨hwell, hcontents, hcount'⟩ := skip_write h hk (d := d.drop j) (by rw [List.length_drop]; exact hroom)
    constructor
    · exact hwell
    · rw [hcontents, ← hsum]
      by_cases hzero : j = 0
      · subst hzero
        rw [List.drop_zero, Nat.zero_add, List.drop_append_of_le_length (by omega)]
      · have hkall := hall hzero
        have hnone : r.contents.drop r.count = [] := List.drop_eq_nil_of_le (Nat.le_of_eq hlen)
        have hnone' : r.contents.drop (j + r.count) = [] := List.drop_eq_nil_of_le (by omega)
        have hj' : j + r.count - r.contents.length = j := by omega
        rw [hkall, List.drop_append, hnone, hnone', hj']
    · rw [hcount', List.length_drop]
      omega
  unfold ringPush
  by_cases hlong : TTX_RING_BYTES ≤ d.length
  · have hdrop : (d.drop (d.length - TTX_RING_BYTES)).length = TTX_RING_BYTES := by
      rw [List.length_drop]
      omega
    simp only [hlong, if_true, hdrop]
    by_cases hfull : TTX_RING_BYTES < r.count + TTX_RING_BYTES
    · have h1 := hpush (d.length - TTX_RING_BYTES) r.count (by omega) (Nat.le_refl _) (by omega)
        (fun _ => rfl) (by omega)
      rw [Ring.skip_eq h ring_lt_word (Nat.le_refl _)] at h1
      have hk : r.count + TTX_RING_BYTES - TTX_RING_BYTES = r.count := by omega
      simp only [hfull, if_true, hk]
      exact h1
    · have hzero : r.count = 0 := by omega
      have h1 := hpush (d.length - TTX_RING_BYTES) 0 (by omega) (by omega) (by omega)
        (fun _ => hzero.symm) (by omega)
      rw [Ring.skip_eq h ring_lt_word (Nat.zero_le _), Nat.add_zero, Nat.mod_eq_of_lt h.tail] at h1
      simp only [hfull, if_false]
      exact h1
  · simp only [hlong, if_false]
    by_cases hfull : TTX_RING_BYTES < r.count + d.length
    · have h1 := hpush 0 (r.count + d.length - TTX_RING_BYTES) (by omega) (by omega) (by omega)
        (fun hne => absurd rfl hne) (by omega)
      rw [Ring.skip_eq h ring_lt_word (by omega), List.drop_zero] at h1
      simp only [hfull, if_true]
      exact h1
    · have h1 := hpush 0 0 (by omega) (by omega) (by omega) (fun hne => absurd rfl hne) (by omega)
      rw [Ring.skip_eq h ring_lt_word (Nat.zero_le _), List.drop_zero, Nat.add_zero,
        Nat.mod_eq_of_lt h.tail] at h1
      simp only [hfull, if_false]
      exact h1

theorem ringPopField_spec {r : Ring UInt8 TTX_RING_BYTES} (h : r.WellFormed) :
    (ringPopField r).2.WellFormed ∧
      ((ringPopField r).1 = none ∧ (ringPopField r).2 = r ∨
        TTX_FIELD_BYTES ≤ r.count ∧ (ringPopField r).1 = some (r.contents.take TTX_FIELD_BYTES) ∧
          (ringPopField r).2.contents = r.contents.drop TTX_FIELD_BYTES ∧
          (ringPopField r).2.count = r.count - TTX_FIELD_BYTES) := by
  unfold ringPopField
  split
  · exact ⟨h, .inl ⟨rfl, rfl⟩⟩
  · next hlt =>
    have hle : TTX_FIELD_BYTES ≤ r.count := Nat.le_of_not_lt hlt
    refine ⟨h.skip ring_lt_word hle, .inr ⟨hle, ?_, Ring.contents_skip h ring_lt_word hle, ?_⟩⟩
    · rw [Ring.front_eq hle]
    · rw [Ring.skip_eq h ring_lt_word hle]

/-! ### The streams -/

structure Heard where
  machine : Machine
  stream : Fin 4 → List UInt8

def hear (stream : List UInt8) : Report → List UInt8
  | .recv p => stream ++ p.flatten
  | .connected | .closed _ | .failed _ => []

def Heard.step (h : Heard) (e : Event) : Heard where
  machine := Teletext.step h.machine e
  stream :=
    match e with
    | .report ch r =>
      if h.machine.main = .idle ∧ r.possible (h.machine.adapter.chan ch) then
        Function.update h.stream ch (hear (h.stream ch) r)
      else h.stream
    | .fiq _ | .main | .poll .. | .init _ => h.stream

def Heard.initial (configured : Fin 4 → Bool) (now : UInt32) : Heard where
  machine := Machine.initial configured now
  stream _ := []

/-- Field `k` of a stream: 16 whole lines. -/
def IsField (stream : List UInt8) (k : Nat) (field : List UInt8) : Prop :=
  (k + 1) * TTX_FIELD_BYTES ≤ stream.length ∧
    field = (stream.drop (k * TTX_FIELD_BYTES)).take TTX_FIELD_BYTES

def Counted (h : Heard) : Prop :=
  ∀ ch, (h.machine.adapter.chan ch).ring.count ≤ TTX_RING_BYTES ∧
    ((h.machine.adapter.chan ch).ring.count
        = ((h.machine.adapter.chan ch).ring.head + TTX_RING_BYTES - (h.machine.adapter.chan ch).ring.tail)
          % TTX_RING_BYTES ∨
      (h.machine.adapter.chan ch).ring.count = TTX_RING_BYTES ∧
        (h.machine.adapter.chan ch).ring.head = (h.machine.adapter.chan ch).ring.tail)

/-- A field that is about to be taken is one of the selected channel's, and so is one on its way to
the Beeb of some channel's. -/
structure Framed (h : Heard) : Prop where
  taken : ∀ field, h.machine.main = .loadPop → (runMain h.machine).main = .loadEnable field →
    ∃ k, IsField (h.stream h.machine.adapter.channel) k field
  handed : ∀ field i, h.machine.main = .loadRow field i → ∃ ch k, IsField (h.stream ch) k field

def DropsFields (r : Ring UInt8 TTX_RING_BYTES) : List (List UInt8) → Prop
  | [] => True
  | d :: p =>
    (r.count + d.length ≤ TTX_RING_BYTES ∨ TTX_FIELD_BYTES ∣ r.count + d.length) ∧
      DropsFields (ringPush r d) p

def Follows (h : Heard) : Event → Prop
  | .report ch (.recv p) => DropsFields (h.machine.adapter.chan ch).ring p
  | .report .. | .fiq _ | .main | .poll .. | .init _ => True

/-! ### The invariant -/

structure Holds (r : Ring UInt8 TTX_RING_BYTES) (stream : List UInt8) : Prop where
  wellFormed : r.WellFormed
  short : r.count ≤ stream.length
  contents : r.contents = stream.drop (stream.length - r.count)

def Aligned (r : Ring UInt8 TTX_RING_BYTES) (stream : List UInt8) : Prop :=
  TTX_FIELD_BYTES ∣ stream.length - r.count

theorem Holds.clear (r : Ring UInt8 TTX_RING_BYTES) : Holds r.clear [] where
  wellFormed := Ring.WellFormed.clear r
  short := Nat.le_refl 0
  contents := Ring.contents_clear r

theorem Holds.push {r : Ring UInt8 TTX_RING_BYTES} {stream : List UInt8} (h : Holds r stream) (d : List UInt8) :
    Holds (ringPush r d) (stream ++ d) := by
  obtain ⟨hwell, hcontents, hcount⟩ := ringPush_pushed h.wellFormed d
  have hshort := h.short
  have hfit := h.wellFormed.count
  constructor
  · exact hwell
  · rw [hcount, List.length_append]
    omega
  · have hwhole : r.contents ++ d = (stream ++ d).drop (stream.length - r.count) := by
      rw [List.drop_append_of_le_length (Nat.sub_le _ _), h.contents]
    have hindex : stream.length - r.count + (r.count + d.length - TTX_RING_BYTES)
        = stream.length + d.length - min (r.count + d.length) TTX_RING_BYTES := by
      omega
    rw [hcontents, hwhole, List.drop_drop, hcount, List.length_append, hindex]

theorem Aligned.push {r : Ring UInt8 TTX_RING_BYTES} {stream d : List UInt8} (h : Holds r stream)
    (ha : Aligned r stream)
    (hd : r.count + d.length ≤ TTX_RING_BYTES ∨ TTX_FIELD_BYTES ∣ r.count + d.length) :
    Aligned (ringPush r d) (stream ++ d) := by
  have hcount := (ringPush_pushed h.wellFormed d).count
  have hshort := h.short
  have hsplit : (stream ++ d).length - (ringPush r d).count
      = stream.length - r.count + (r.count + d.length - min (r.count + d.length) TTX_RING_BYTES) := by
    rw [hcount, List.length_append]
    omega
  have hring : TTX_FIELD_BYTES ∣ TTX_RING_BYTES := Nat.dvd_mul_right _ _
  unfold Aligned
  rw [hsplit]
  apply Nat.dvd_add ha
  rcases hd with hfit | hwhole
  · rw [Nat.min_eq_left hfit, Nat.sub_self]
    exact Nat.dvd_zero _
  · by_cases hfit : r.count + d.length ≤ TTX_RING_BYTES
    · rw [Nat.min_eq_left hfit, Nat.sub_self]
      exact Nat.dvd_zero _
    · rw [Nat.min_eq_right (by omega)]
      exact Nat.dvd_sub hwhole hring

theorem Holds.pushAll {r : Ring UInt8 TTX_RING_BYTES} {stream : List UInt8} (h : Holds r stream)
    (p : List (List UInt8)) : Holds (p.foldl ringPush r) (stream ++ p.flatten) := by
  induction p generalizing r stream with
  | nil => simpa using h
  | cons d p ih =>
    have hnext := ih (h.push d)
    rw [List.append_assoc] at hnext
    simpa using hnext

theorem Aligned.pushAll {r : Ring UInt8 TTX_RING_BYTES} {stream : List UInt8} (h : Holds r stream)
    (ha : Aligned r stream) {p : List (List UInt8)} (hp : DropsFields r p) :
    Aligned (p.foldl ringPush r) (stream ++ p.flatten) := by
  induction p generalizing r stream with
  | nil => simpa using ha
  | cons d p ih =>
    have hnext := ih (h.push d) (ha.push h hp.1) hp.2
    rw [List.append_assoc] at hnext
    simpa using hnext

theorem Holds.pop {r : Ring UInt8 TTX_RING_BYTES} {stream : List UInt8} (h : Holds r stream) :
    Holds (ringPopField r).2 stream ∧
      (Aligned r stream → Aligned (ringPopField r).2 stream ∧
        ∀ field, (ringPopField r).1 = some field → ∃ k, IsField stream k field) := by
  have hshort := h.short
  obtain ⟨hwell, ⟨hnone, hsame⟩ | ⟨hle, hsome, hcontents, hcount⟩⟩ := ringPopField_spec h.wellFormed
  · rw [hsame]
    refine ⟨h, fun ha => ⟨ha, fun field hf => ?_⟩⟩
    rw [hnone] at hf
    cases hf
  · have hrest : stream.length - (r.count - TTX_FIELD_BYTES) = stream.length - r.count + TTX_FIELD_BYTES := by
      omega
    refine ⟨⟨hwell, by omega, ?_⟩, fun ha => ⟨?_, ?_⟩⟩
    · rw [hcontents, h.contents, List.drop_drop, hcount, hrest]
    · unfold Aligned
      rw [hcount, hrest]
      exact Nat.dvd_add ha (Nat.dvd_refl _)
    · intro field hf
      obtain ⟨k, hk⟩ := ha
      rw [hsome] at hf
      cases hf
      refine ⟨k, ?_, ?_⟩
      · rw [Nat.add_mul, Nat.one_mul, Nat.mul_comm k]
        omega
      · rw [h.contents, hk, Nat.mul_comm k]

structure Kept (c : Chan) (stream : List UInt8) : Prop where
  holds : Holds c.ring stream
  pcb : c.connected = true → c.pcb = true
  closed : c.connected = false → stream = []

def Inv (h : Heard) : Prop := ∀ ch, Kept (h.machine.adapter.chan ch) (h.stream ch)

structure Whole (h : Heard) : Prop where
  aligned : ∀ ch, Aligned (h.machine.adapter.chan ch).ring (h.stream ch)
  loading : ∀ field, h.machine.main = .loadEnable field ∨ (∃ i, h.machine.main = .loadRow field i) →
    ∃ ch k, IsField (h.stream ch) k field

theorem Kept.disconnect {c : Chan} (now : UInt32) : Kept (ttxDisconnect c now) [] where
  holds := Holds.clear c.ring
  pcb := nofun
  closed _ := rfl

theorem Aligned.nil {r : Ring UInt8 TTX_RING_BYTES} : Aligned r [] := by
  unfold Aligned
  rw [List.length_nil, Nat.zero_sub]
  exact Nat.dvd_zero _

theorem Kept.report {c : Chan} {stream : List UInt8} (h : Kept c stream) {r : Report}
    (hr : r.possible c = true) : Kept (ttxReport c r) (hear stream r) := by
  cases r with
  | recv p =>
    have hopen : c.connected = true := hr
    refine ⟨h.holds.pushAll p, h.pcb, fun hc => ?_⟩
    have hshut : c.connected = false := hc
    rw [hopen] at hshut
    cases hshut
  | closed now => exact Kept.disconnect now
  | failed now => exact Kept.disconnect now
  | connected =>
    simp only [Report.possible, Bool.and_eq_true, Bool.not_eq_true'] at hr
    have hnil := h.closed hr.2
    subst hnil
    exact ⟨h.holds, fun _ => hr.1, fun _ => rfl⟩

theorem Kept.netPoll {a : Adapter} {ch : Fin 4} {stream : List UInt8} (h : Kept (a.chan ch) stream)
    (now : UInt32) (attempt : Fin 4 → Attempt) : Kept ((ttxNetPoll a now attempt).chan ch) stream := by
  simp only [ttxNetPoll]
  split
  · exact h
  · next hidle =>
    have hpcb : (a.chan ch).connected = false := by
      cases hc : (a.chan ch).connected with
      | false => rfl
      | true => exact absurd (.inr (h.pcb hc)) hidle
    split
    · exact h
    · have hnil := h.closed hpcb
      subst hnil
      cases attempt ch with
      | noPcb =>
        simp only [ttxConnect]
        exact ⟨h.holds, h.pcb, fun _ => rfl⟩
      | refused => exact Kept.disconnect now
      | started => exact ⟨h.holds, fun _ => rfl, h.closed⟩

theorem callback_chan (a : Adapter) (f : Fiq) : (callback a f).chan = a.chan := by
  cases f with
  | writeData v =>
    simp only [callback, ttxWData, ttxPreloadData, Adapter.storeRow]
    split
    · rfl
    · rfl
  | control | writeRow | readData | clear => rfl

theorem runMain_chan {m : Machine} (h : m.main ≠ .loadPop) : (runMain m).adapter.chan = m.adapter.chan := by
  rcases m with ⟨a, main⟩
  cases main with
  | loadPop => exact absurd rfl h
  | loadRow field i =>
    simp only [runMain, loadLine]
    split
    · rfl
    · rfl
  | _ => rfl

theorem runMain_pop {m : Machine} (h : m.main = .loadPop) (ch : Fin 4) :
    (runMain m).adapter.chan ch
      = if ch = m.adapter.channel then
          { m.adapter.chan ch with ring := (ringPopField (m.adapter.chan ch).ring).2 }
        else m.adapter.chan ch := by
  have hset : (runMain m).adapter.chan = Function.update m.adapter.chan m.adapter.channel
      { m.adapter.chan m.adapter.channel with
        ring := (ringPopField (m.adapter.chan m.adapter.channel).ring).2 } := by
    simp only [runMain, h]
    split
    · rfl
    · rfl
  rw [hset, Function.update_apply]
  split
  · next heq => rw [heq]
  · rfl

theorem runMain_taken {m : Machine} {field : List UInt8} (h : m.main = .loadPop)
    (hsome : (ringPopField (m.adapter.chan m.adapter.channel).ring).1 = some field) :
    (runMain m).main = .loadEnable field := by
  simp only [runMain, h, hsome]

theorem startPoll_kept {a : Adapter} {ch : Fin 4} {stream : List UInt8} (h : Kept (a.chan ch) stream)
    (now : UInt32) (attempt : Option (Fin 4 → Attempt)) :
    Kept ((startPoll a now attempt).adapter.chan ch) stream := by
  have hnet : Kept (((attempt.map (ttxNetPoll a now)).getD a).chan ch) stream := by
    cases attempt with
    | none => exact h
    | some attempt => exact h.netPoll now attempt
  simp only [startPoll]
  split
  · exact hnet
  · split
    · exact hnet
    · exact hnet
    · exact hnet

theorem Inv.step {h : Heard} (hi : Inv h) (e : Event) : Inv (h.step e) := by
  intro ch
  have hk := hi ch
  cases e with
  | fiq f =>
    simp only [Heard.step, Teletext.step, callback_chan]
    exact hk
  | main =>
    simp only [Heard.step, Teletext.step]
    by_cases hpop : h.machine.main = .loadPop
    · rw [runMain_pop hpop]
      split
      · exact ⟨hk.holds.pop.1, hk.pcb, hk.closed⟩
      · exact hk
    · rw [runMain_chan hpop]
      exact hk
  | report ch' r =>
    simp only [Heard.step, Teletext.step]
    split
    · next hr =>
      by_cases heq : ch = ch'
      · subst heq
        simp only [Adapter.setChan, Function.update_self]
        exact hk.report hr.2
      · simp only [Adapter.setChan, Function.update_of_ne heq]
        exact hk
    · exact hk
  | poll now attempt =>
    simp only [Heard.step, Teletext.step]
    split
    · exact startPoll_kept hk now attempt
    · exact hk
  | init now =>
    simp only [Heard.step, Teletext.step]
    split
    · exact hk
    · exact hk

theorem Aligned.report {c : Chan} {stream : List UInt8} (h : Kept c stream) (ha : Aligned c.ring stream)
    {r : Report} (hr : ∀ p, r = .recv p → DropsFields c.ring p) :
    Aligned (ttxReport c r).ring (hear stream r) := by
  cases r with
  | recv p => exact ha.pushAll h.holds (hr p rfl)
  | closed | failed | connected => exact Aligned.nil

theorem Aligned.netPoll {a : Adapter} {ch : Fin 4} {stream : List UInt8} (h : Kept (a.chan ch) stream)
    (ha : Aligned (a.chan ch).ring stream) (now : UInt32) (attempt : Fin 4 → Attempt) :
    Aligned ((ttxNetPoll a now attempt).chan ch).ring stream := by
  simp only [ttxNetPoll]
  split
  · exact ha
  · next hidle =>
    have hpcb : (a.chan ch).connected = false := by
      cases hc : (a.chan ch).connected with
      | false => rfl
      | true => exact absurd (.inr (h.pcb hc)) hidle
    split
    · exact ha
    · rw [h.closed hpcb]
      exact Aligned.nil

theorem loading_of_runMain {m : Machine} {field : List UInt8}
    (h : (runMain m).main = .loadEnable field ∨ ∃ i, (runMain m).main = .loadRow field i) :
    m.main = .loadPop ∧ (ringPopField (m.adapter.chan m.adapter.channel).ring).1 = some field ∨
      m.main = .loadEnable field ∨ ∃ i, m.main = .loadRow field i := by
  rcases m with ⟨a, main⟩
  cases main with
  | loadPop =>
    left
    refine ⟨rfl, ?_⟩
    simp only [runMain] at h
    cases hpop : (ringPopField (a.chan a.channel).ring).1 with
    | none => simp [hpop] at h
    | some field' => simpa [hpop] using h
  | loadEnable field' =>
    right
    left
    simp only [runMain] at h
    rcases h with h | ⟨i, h⟩
    · split at h <;> cases h
    · split at h
      · cases h
        rfl
      · cases h
  | loadRow field' i' =>
    right
    right
    refine ⟨i', ?_⟩
    simp only [runMain] at h
    rcases h with h | ⟨i, h⟩
    · split at h <;> cases h
    · split at h
      · cases h
        rfl
      · cases h
  | fsyncOpen | dewOpen | loadOpen | intOpen | intEnabled =>
    simp only [runMain] at h
    rcases h with h | ⟨i, h⟩
    · split at h <;> cases h
    · split at h <;> cases h
  | _ =>
    rcases h with h | ⟨i, h⟩
    · cases h
    · cases h

theorem startPoll_not_loading (a : Adapter) (now : UInt32) (attempt : Option (Fin 4 → Attempt))
    (field : List UInt8) :
    (startPoll a now attempt).main ≠ .loadEnable field ∧
      ∀ i, (startPoll a now attempt).main ≠ .loadRow field i := by
  simp only [startPoll]
  split
  · exact ⟨nofun, nofun⟩
  · split
    · exact ⟨nofun, nofun⟩
    · exact ⟨nofun, nofun⟩
    · exact ⟨nofun, nofun⟩

theorem Whole.step {h : Heard} (hi : Inv h) (hw : Whole h) {e : Event} (hf : Follows h e) :
    Whole (h.step e) := by
  cases e with
  | fiq f =>
    constructor
    · intro ch
      simp only [Heard.step, Teletext.step, callback_chan]
      exact hw.aligned ch
    · exact hw.loading
  | main =>
    have hpopped : h.machine.main = .loadPop → ∀ field,
        (ringPopField (h.machine.adapter.chan h.machine.adapter.channel).ring).1 = some field →
          ∃ k, IsField (h.stream h.machine.adapter.channel) k field :=
      fun _ => ((hi _).holds.pop.2 (hw.aligned _)).2
    constructor
    · intro ch
      simp only [Heard.step, Teletext.step]
      by_cases hpop : h.machine.main = .loadPop
      · rw [runMain_pop hpop]
        split
        · exact ((hi ch).holds.pop.2 (hw.aligned ch)).1
        · exact hw.aligned ch
      · rw [runMain_chan hpop]
        exact hw.aligned ch
    · intro field hfield
      rcases loading_of_runMain hfield with ⟨hpop, hsome⟩ | hbefore
      · obtain ⟨k, hk⟩ := hpopped hpop field hsome
        exact ⟨_, k, hk⟩
      · exact hw.loading field hbefore
  | report ch r =>
    simp only [Heard.step, Teletext.step]
    split
    · next hr =>
      constructor
      · intro ch'
        by_cases heq : ch' = ch
        · subst heq
          simp only [Adapter.setChan, Function.update_self]
          apply (hw.aligned ch').report (hi ch')
          rintro p rfl
          exact hf
        · simp only [Adapter.setChan, Function.update_of_ne heq]
          exact hw.aligned ch'
      · intro field hfield
        simp only [hr.1] at hfield
        rcases hfield with hfield | ⟨i, hfield⟩
        · cases hfield
        · cases hfield
    · exact hw
  | poll now attempt =>
    simp only [Heard.step, Teletext.step]
    split
    · constructor
      · intro ch
        have hnet : Aligned (((attempt.map (ttxNetPoll h.machine.adapter now)).getD
            h.machine.adapter).chan ch).ring (h.stream ch) := by
          cases attempt with
          | none => exact hw.aligned ch
          | some attempt => exact (hw.aligned ch).netPoll (hi ch) now attempt
        simp only [startPoll]
        split
        · exact hnet
        · split
          · exact hnet
          · exact hnet
          · exact hnet
      · intro field hfield
        obtain ⟨hno, hno'⟩ := startPoll_not_loading h.machine.adapter now attempt field
        rcases hfield with hfield | ⟨i, hfield⟩
        · exact absurd hfield hno
        · exact absurd hfield (hno' i)
    · exact hw
  | init now =>
    simp only [Heard.step, Teletext.step]
    split
    · constructor
      · exact hw.aligned
      · intro field hfield
        rcases hfield with hfield | ⟨i, hfield⟩
        · cases hfield
        · cases hfield
    · exact hw

/-! ### Every run -/

theorem inv_initial (configured : Fin 4 → Bool) (now : UInt32) : Inv (Heard.initial configured now) :=
  fun _ => ⟨Holds.clear ⟨fun _ => 0, 0, 0, 0⟩, nofun, fun _ => rfl⟩

theorem whole_initial (configured : Fin 4 → Bool) (now : UInt32) : Whole (Heard.initial configured now) where
  aligned _ := Aligned.nil
  loading := by
    rintro field (h | ⟨i, h⟩)
    · cases h
    · cases h

theorem Inv.counted {h : Heard} (hi : Inv h) : Counted h :=
  fun ch => ⟨(hi ch).holds.wellFormed.count, (hi ch).holds.wellFormed.count_eq⟩

theorem Whole.framed {h : Heard} (hi : Inv h) (hw : Whole h) : Framed h where
  taken field hpop hload := by
    rcases loading_of_runMain (.inl hload) with ⟨-, hsome⟩ | hload' | ⟨i, hrow⟩
    · exact ((hi _).holds.pop.2 (hw.aligned _)).2 field hsome
    · rw [hpop] at hload'
      cases hload'
    · rw [hpop] at hrow
      cases hrow
  handed field i hrow := hw.loading field (.inr ⟨i, hrow⟩)

/-- The counts are right in every state; and where full rings have dropped whole fields only, every
field for the Beeb is 16 whole lines of its stream. -/
theorem teletext_framing (configured : Fin 4 → Bool) (now : UInt32) (es : List Event) :
    Counted (History.final Heard.step (Heard.initial configured now) es) ∧
      ((∀ st ∈ History.history Heard.step (Heard.initial configured now) es, Follows st.pre st.op) →
        Framed (History.final Heard.step (Heard.initial configured now) es)) := by
  have hinv : Inv (History.final Heard.step (Heard.initial configured now) es) :=
    History.final_induction Heard.step Inv (inv_initial configured now) (fun _ e h => h.step e) es
  refine ⟨hinv.counted, fun hf => ?_⟩
  obtain ⟨⟨-, hw⟩, -⟩ := History.guarded_induction Heard.step (fun h => Inv h ∧ Whole h) Follows
    ⟨inv_initial configured now, whole_initial configured now⟩
    (fun h e hi hf => ⟨hi.1.step e, hi.2.step hi.1 hf⟩) es hf
  exact hw.framed hinv

/-- Channel 0 is connected and is sent `p`; the poll goes on until it takes a field. -/
def fieldRun (p : List (List UInt8)) : List Event :=
  [.poll 0 (some fun _ => .started), .report 0 .connected, .report 0 (.recv p), .fiq (.control 0x0C),
    .poll 64 none, .main, .main, .main, .main, .poll 354 none, .main, .main, .main, .main]

def sevenFields : List (List UInt8) := [List.replicate 4032 0x31, List.replicate 672 0x32]

/-- Seven fields come in at once: the first is dropped whole. -/
theorem teletext_framing_fields :
    Framed (History.final Heard.step (Heard.initial (fun _ => true) 0) (fieldRun sevenFields)) := by
  apply (teletext_framing (fun _ => true) 0 (fieldRun sevenFields)).2
  intro st hst
  simp only [fieldRun, History.history, List.mem_cons, List.not_mem_nil, or_false] at hst
  rcases hst with rfl | rfl | rfl | rfl | rfl | rfl | rfl | rfl | rfl | rfl | rfl | rfl | rfl | rfl
  on_goal 3 => exact ⟨.inl (by decide +kernel), .inr (by decide +kernel), trivial⟩
  all_goals trivial

def tooMuch : List (List UInt8) :=
  let field : List UInt8 := 1 :: List.replicate 671 0
  [field ++ field, field ++ field, field ++ field, [1]]

/-- The byte more drops one byte of the first field: the field for the Beeb begins at the second byte
of the stream. -/
theorem field_torn :
    ∃ field, (runMain (History.final Heard.step (Heard.initial (fun _ => true) 0)
        (fieldRun tooMuch)).machine).main = .loadEnable field ∧
      ∀ k, ¬ IsField ((History.final Heard.step (Heard.initial (fun _ => true) 0)
        (fieldRun tooMuch)).stream 0) k field := by
  generalize hfinal : History.final Heard.step (Heard.initial (fun _ => true) 0) (fieldRun tooMuch) = h
  have hinv : Inv h := by
    rw [← hfinal]
    exact History.final_induction Heard.step Inv (inv_initial _ _) (fun _ e h => h.step e) _
  have hcount : (h.machine.adapter.chan 0).ring.count = TTX_RING_BYTES := by
    rw [← hfinal]
    decide +kernel
  have hchannel : h.machine.adapter.channel = 0 := by
    rw [← hfinal]
    decide +kernel
  have hmain : h.machine.main = .loadPop := by
    rw [← hfinal]
    decide +kernel
  have hstream : h.stream 0 = tooMuch.flatten := by
    rw [← hfinal]
    decide +kernel
  obtain ⟨hwell, -, hcontents⟩ := (hinv 0).holds
  obtain ⟨-, ⟨hnone, -⟩ | ⟨-, hsome, -⟩⟩ := ringPopField_spec hwell
  · simp only [ringPopField, hcount] at hnone
    split at hnone
    · next hlt => exact absurd hlt (by decide)
    · cases hnone
  · refine ⟨_, runMain_taken hmain (by rw [hchannel]; exact hsome), ?_⟩
    rintro k ⟨hlen, hfield⟩
    rw [hstream] at hlen
    rw [hcontents, hcount, hstream] at hfield
    have hk : k < 6 := by
      have hlong : tooMuch.flatten.length = 4033 := by decide +kernel
      have hbytes : TTX_FIELD_BYTES = 672 := rfl
      rw [hlong, hbytes] at hlen
      omega
    -- a field of the stream begins with a one, this one with a zero
    have hhead := congrArg List.head? hfield
    revert hhead
    interval_cases k <;> decide +kernel

end Pi1MHz.Teletext
