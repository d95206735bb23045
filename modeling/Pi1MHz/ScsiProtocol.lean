import Mathlib.Data.List.Induction
import Pi1MHz.ScsiHandlers

/-!
# BeebSCSI: the protocol of the target

Every command ends with a status byte, a message byte and a free bus, unless a reset cuts it short;
a command that ends in CHECK CONDITION has set the sense data that the next REQUEST SENSE reports;
and no index reaches past the LUNs.
-/

namespace Pi1MHz.ScsiTarget

open StateRules

variable {σ : Type}

/-! ### The property -/

def Event.isBus : Event → Bool
  | .wrote p _ => !p.isData
  | .free | .rst | .reset => true
  | .lun _ | .sense .. => false

def Event.isReset : Event → Bool
  | .rst | .reset => true
  | .wrote .. | .free | .lun _ | .sense .. => false

def Event.status? : Event → Option UInt8
  | .wrote .status b => some b
  | _ => none

def Event.sense? : Event → Option UInt32
  | .sense _ v => some v
  | _ => none

def Event.dataIn? : Event → Option UInt8
  | .wrote .dataIn b => some b
  | _ => none

def Exchange.bus (e : Exchange) : List Event := e.events.filter Event.isBus

def Exchange.wasReset (e : Exchange) : Bool := e.events.any Event.isReset

def Exchange.clear (e : Exchange) : List Event := e.bus.takeWhile fun v => !v.isReset

def Exchange.status? (e : Exchange) : Option UInt8 := (e.events.filterMap Event.status?).head?

def Exchange.sense? (e : Exchange) : Option UInt32 := (e.events.filterMap Event.sense?).getLast?

def Exchange.dataIn (e : Exchange) : List UInt8 := e.events.filterMap Event.dataIn?

def ending (s : UInt8) : List Event := [.wrote .status s, .wrote .messageIn 0, .free]

/-- The protocol, over the exchanges of a run, the latest first.  After four polls a command is
over. -/
structure Protocol (xs : List Exchange) : Prop where
  framed : ∀ e ∈ xs, ∃ s, e.clear <+: ending s
  whole : ∀ later e earlier, xs = later ++ e :: earlier → later ≠ [] ∨ 4 ≤ e.polls →
    e.wasReset = true ∨ ∃ s, e.bus = ending s
  sense : ∀ later b mid a earlier, xs = later ++ b :: (mid ++ a :: earlier) →
    a.status? = some SCSI_STATUS_CHECK_COND → byte0 b.cdb = 0x03 → b.lun = a.lun →
    (∀ c ∈ mid, c.lun ≠ a.lun) → (∀ c ∈ a :: mid, c.wasReset = false) → b.status? ≠ none →
    ∃ v, a.sense? = some v ∧ senseCode v ≠ 0 ∧ b.dataIn = senseBytes v
  index : ∀ e ∈ xs, ∀ i, Event.lun i ∈ e.events ∨ (∃ v, Event.sense i v ∈ e.events) →
    i.toNat < MAX_LUNS

def Target.firstByte (t : Target σ) (p : Poll) : UInt8 :=
  match p.acks with
  | a :: _ => a.getD t.databus
  | [] => t.databus

variable (fs : FileSystem σ)

def Target.Followed (t : Target σ) : Step σ → Prop
  | .poll p =>
    (t.scsiState = .command → decode t.scsiHostID (t.firstByte p) ≠ none) ∧
    (t.scsiState = .verify ∨ t.scsiState = .readCapacity ∨ t.scsiState = .readDefectData10 →
      fs.readLunStatus t.fs t.targetLUN = true) ∧
    (t.scsiState = .inquiry → fs.inquiryData t.fs t.targetLUN ≠ none) ∧
    (t.scsiState = .beebScsiFatRead → FatReadOk fs t.data t.fs)
  | .reset _ | .other _ => True

def Target.AllFollowed (t : Target σ) : List (Step σ) → Prop
  | [] => True
  | step :: steps => t.Followed fs step ∧ (t.step fs step).AllFollowed steps

instance Target.decideFollowed (t : Target σ) : (step : Step σ) → Decidable (t.Followed fs step)
  | .poll _ => inferInstanceAs (Decidable (_ ∧ _ ∧ _ ∧ _))
  | .reset _ | .other _ => isTrue trivial

instance Target.decideAllFollowed (t : Target σ) : (steps : List (Step σ)) → Decidable (t.AllFollowed fs steps)
  | [] => isTrue trivial
  | step :: steps =>
    have := Target.decideAllFollowed (t.step fs step) steps
    inferInstanceAs (Decidable (_ ∧ _))

/-! ### The sense data by the exchanges -/

def senseAfter : List Exchange → UInt8 → UInt32
  | [] => fun _ => NO_ERROR
  | e :: es => e.events.foldl applySense (senseAfter es)

structure Sound (earlier : List Exchange) (e : Exchange) : Prop where
  framed : ∃ s, e.clear <+: ending s
  own : ∀ i v, Event.sense i v ∈ e.events → i = e.lun
  index : ∀ i, Event.lun i ∈ e.events ∨ (∃ v, Event.sense i v ∈ e.events) → i.toNat < MAX_LUNS
  checked : e.status? = some SCSI_STATUS_CHECK_COND → ∃ v, e.sense? = some v ∧ senseCode v ≠ 0
  reported : byte0 e.cdb = 0x03 → e.status? ≠ none → e.dataIn = senseBytes (senseAfter earlier e.lun)

def Over (e : Exchange) : Prop := e.wasReset = true ∨ ∃ s, e.bus = ending s

def Sounds : List Exchange → Prop
  | [] => True
  | e :: es => Sound es e ∧ Sounds es

theorem applySense_other {evs : List Event} {r : UInt8 → UInt32} {l : UInt8}
    (hr : evs.any Event.isReset = false) (hs : ∀ i v, Event.sense i v ∈ evs → i ≠ l) :
    evs.foldl applySense r l = r l := by
  induction evs generalizing r with
  | nil => rfl
  | cons e evs ih =>
    simp only [List.any_cons, Bool.or_eq_false_iff] at hr
    rw [List.foldl_cons, ih hr.2 fun i v h => hs i v (List.mem_cons_of_mem e h)]
    cases e with
    | sense i v => exact if_neg fun h => hs i v List.mem_cons_self h.symm
    | reset => simp [Event.isReset] at hr
    | wrote p b => rfl
    | free => rfl
    | rst => rfl
    | lun i => rfl

theorem applySense_last {evs : List Event} {r : UInt8 → UInt32} {l : UInt8} {v : UInt32}
    (hr : evs.any Event.isReset = false) (hs : ∀ i v, Event.sense i v ∈ evs → i = l)
    (hv : (evs.filterMap Event.sense?).getLast? = some v) : evs.foldl applySense r l = v := by
  induction evs using List.reverseRecOn with
  | nil => simp at hv
  | append_singleton evs e ih =>
    simp only [List.any_append, Bool.or_eq_false_iff] at hr
    have hs' : ∀ i v, Event.sense i v ∈ evs → i = l :=
      fun i v h => hs i v (List.mem_append_left _ h)
    rw [List.foldl_append]
    rw [List.filterMap_append] at hv
    cases e with
    | sense i w =>
      have hw : w = v := by simpa [Event.sense?] using hv
      have hi := hs i w (List.mem_append_right _ List.mem_cons_self)
      rw [← hw]
      exact if_pos hi.symm
    | reset => simp [Event.isReset] at hr
    | wrote p b => exact ih hr.1 hs' (by simpa [Event.sense?] using hv)
    | free => exact ih hr.1 hs' (by simpa [Event.sense?] using hv)
    | rst => simp [Event.isReset] at hr
    | lun i => exact ih hr.1 hs' (by simpa [Event.sense?] using hv)

theorem senseAfter_between {mid earlier : List Exchange} {a : Exchange} {v : UInt32}
    (hmid : ∀ c ∈ mid, (∀ i v, Event.sense i v ∈ c.events → i = c.lun) ∧ c.lun ≠ a.lun ∧ c.wasReset = false)
    (hown : ∀ i v, Event.sense i v ∈ a.events → i = a.lun) (ha : a.wasReset = false)
    (hv : a.sense? = some v) : senseAfter (mid ++ a :: earlier) a.lun = v := by
  induction mid with
  | nil => exact applySense_last ha hown hv
  | cons c mid ih =>
    obtain ⟨hc, hne, hr⟩ := hmid c List.mem_cons_self
    have hother : ∀ i v, Event.sense i v ∈ c.events → i ≠ a.lun := by
      intro i v h
      rw [hc i v h]
      exact hne
    rw [List.cons_append, senseAfter, applySense_other hr hother]
    exact ih fun d hd => hmid d (List.mem_cons_of_mem c hd)

theorem Sounds.split {later earlier : List Exchange} {e : Exchange} (h : Sounds (later ++ e :: earlier)) :
    Sound earlier e ∧ Sounds earlier := by
  induction later with
  | nil => exact h
  | cons c later ih => exact ih h.2

theorem protocol_of_sounds {xs : List Exchange} (h : Sounds xs)
    (hover : ∀ later e earlier, xs = later ++ e :: earlier → later ≠ [] ∨ 4 ≤ e.polls → Over e) :
    Protocol xs := by
  have hmem : ∀ e ∈ xs, ∃ earlier, Sound earlier e := by
    intro e he
    obtain ⟨later, earlier, rfl⟩ := List.append_of_mem he
    exact ⟨earlier, h.split.1⟩
  constructor
  · intro e he
    obtain ⟨earlier, hs⟩ := hmem e he
    exact hs.framed
  · exact hover
  · intro later b mid a earlier hxs hcheck hop hlun hmid hreset hdone
    subst hxs
    obtain ⟨hb, hrest⟩ := h.split
    obtain ⟨ha, -⟩ := hrest.split
    obtain ⟨v, hv, hcode⟩ := ha.checked hcheck
    refine ⟨v, hv, hcode, ?_⟩
    rw [hb.reported hop hdone, hlun, senseAfter_between _ ha.own (hreset a List.mem_cons_self) hv]
    intro c hc
    obtain ⟨l1, l2, rfl⟩ := List.append_of_mem hc
    rw [List.append_assoc, List.cons_append] at hrest
    exact ⟨hrest.split.1.own, hmid c hc, hreset c (List.mem_cons_of_mem a hc)⟩
  · intro e he i hi
    obtain ⟨earlier, hs⟩ := hmem e he
    exact hs.index i hi

/-! ### Events and exchanges -/

def Target.head (t : Target σ) : Option Exchange :=
  t.current.map fun c => ⟨c.1, c.2, t.events, t.polls⟩

theorem exchanges_of_head {t : Target σ} {e : Exchange} (h : t.head = some e) :
    t.exchanges = e :: t.past := by
  obtain ⟨c, hc, rfl⟩ := Option.map_eq_some_iff.mp h
  simp only [Target.exchanges, hc]

theorem Event.Quiet.not_bus {lun : UInt8} {e : Event} (h : e.Quiet lun) : e.isBus = false := by
  cases e with
  | wrote p b =>
    have hp : p.isData = true := h
    simp [Event.isBus, hp]
  | free => exact h.elim
  | rst => exact h.elim
  | reset => exact h.elim
  | lun i => rfl
  | sense i v => rfl

theorem bus_of_quiet {lun : UInt8} {evs : List Event} (h : ∀ e ∈ evs, e.Quiet lun) :
    evs.filter Event.isBus = [] := by
  rw [List.filter_eq_nil_iff]
  intro e he
  rw [(h e he).not_bus]
  exact Bool.false_ne_true

theorem status_none_of_bus {e : Exchange} (h : ∀ b, Event.wrote .status b ∉ e.bus) : e.status? = none := by
  have hnil : e.events.filterMap Event.status? = [] := by
    rw [List.filterMap_eq_nil_iff]
    intro ev hev
    cases ev with
    | wrote p b =>
      cases p with
      | status => exact absurd (List.mem_filter.mpr ⟨hev, rfl⟩) (h b)
      | dataOut => rfl
      | dataIn => rfl
      | command => rfl
      | messageOut => rfl
      | messageIn => rfl
    | free => rfl
    | rst => rfl
    | reset => rfl
    | lun i => rfl
    | sense i v => rfl
  simp only [Exchange.status?, hnil, List.head?_nil]

def Exchange.add (e : Exchange) (ev : Event) (polls : Nat) : Exchange :=
  { e with events := e.events ++ [ev], polls := polls }

structure Event.Plain (ev : Event) : Prop where
  bus : ev.isBus = true
  status : ev.status? = none
  sense : ev.sense? = none
  data : ev.dataIn? = none
  lun : ∀ i, ev ≠ .lun i
  set : ∀ i v, ev ≠ .sense i v

theorem plain_free : Event.Plain .free := ⟨rfl, rfl, rfl, rfl, nofun, nofun⟩

theorem plain_reset : Event.Plain .reset := ⟨rfl, rfl, rfl, rfl, nofun, nofun⟩

theorem plain_message (b : UInt8) : Event.Plain (.wrote .messageIn b) :=
  ⟨rfl, rfl, rfl, rfl, nofun, nofun⟩

theorem Exchange.bus_add {e : Exchange} {ev : Event} {n : Nat} (h : ev.isBus = true) :
    (e.add ev n).bus = e.bus ++ [ev] := by
  simp [Exchange.bus, Exchange.add, h]

theorem Exchange.mem_add {e : Exchange} {ev x : Event} {n : Nat} (hx : x ≠ ev)
    (h : x ∈ (e.add ev n).events) : x ∈ e.events := by
  rcases List.mem_append.mp h with h | h
  · exact h
  · exact absurd (List.mem_singleton.mp h) hx

theorem Sound.add {earlier : List Exchange} {e : Exchange} (h : Sound earlier e) {ev : Event}
    (hev : ev.Plain) {n : Nat}
    (hf : ∃ s, (e.add ev n).clear <+: ending s) :
    Sound earlier (e.add ev n) := by
  have hstatus : (e.add ev n).status? = e.status? := by
    simp [Exchange.status?, Exchange.add, hev.status]
  have hsense : (e.add ev n).sense? = e.sense? := by
    simp [Exchange.sense?, Exchange.add, hev.sense]
  have hdata : (e.add ev n).dataIn = e.dataIn := by
    simp [Exchange.dataIn, Exchange.add, hev.data]
  constructor
  · exact hf
  · intro i v hm
    exact h.own i v (Exchange.mem_add (hev.set i v).symm hm)
  · intro i hm
    apply h.index i
    rcases hm with hm | ⟨v, hm⟩
    · exact Or.inl (Exchange.mem_add (hev.lun i).symm hm)
    · exact Or.inr ⟨v, Exchange.mem_add (hev.set i v).symm hm⟩
  · rw [hstatus, hsense]
    exact h.checked
  · rw [hstatus, hdata]
    exact h.reported

theorem clear_add_of_reset {e : Exchange} {ev : Event} {n : Nat} (hev : ev.isBus = true)
    (hr : e.wasReset = true) : (e.add ev n).clear = e.clear := by
  obtain ⟨x, hx, hxr⟩ := List.any_eq_true.mp hr
  have hbus : x ∈ e.bus := by
    apply List.mem_filter.mpr
    refine ⟨hx, ?_⟩
    cases x with
    | rst => rfl
    | reset => rfl
    | wrote p b => cases hxr
    | free => cases hxr
    | lun i => cases hxr
    | sense i v => cases hxr
  have hstop : ∀ l : List Event, x ∈ l →
      (l ++ [ev]).takeWhile (fun v => !v.isReset) = l.takeWhile fun v => !v.isReset := by
    intro l
    induction l with
    | nil => exact nofun
    | cons y l ih =>
      intro hmem
      rw [List.cons_append, List.takeWhile_cons, List.takeWhile_cons]
      split
      · next hy =>
        rcases List.mem_cons.mp hmem with rfl | hmem
        · rw [hxr] at hy
          cases hy
        · rw [ih hmem]
      · rfl
  rw [Exchange.clear, Exchange.bus_add hev, hstop e.bus hbus]
  rfl

theorem clear_add_reset {e : Exchange} {n : Nat} : (e.add .reset n).clear = e.clear := by
  have hstop : ∀ l : List Event,
      (l ++ [Event.reset]).takeWhile (fun v => !v.isReset) = l.takeWhile fun v => !v.isReset := by
    intro l
    induction l with
    | nil => rfl
    | cons y l ih => rw [List.cons_append, List.takeWhile_cons, List.takeWhile_cons, ih]
  rw [Exchange.clear, Exchange.bus_add rfl, hstop]
  rfl

theorem wasReset_add {e : Exchange} {ev : Event} {n : Nat} :
    (e.add ev n).wasReset = (e.wasReset || ev.isReset) := by
  simp [Exchange.wasReset, Exchange.add]

end Pi1MHz.ScsiTarget
