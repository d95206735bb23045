import Pi1MHz.NetService

/-!
# The command mailbox

A command reaches the service through three latch fields and a flag that the FIQ handler writes
and the poll reads, and its result goes back through a register that both of them write.
-/

namespace Pi1MHz.Net

def NET_BUSY : UInt8 := 0x80

/-! ### The two sides -/

structure Latch where
  cp : Nat
  addr : Nat
  data : UInt8
deriving DecidableEq, Repr

inductive Main where
  | idle
  -- `net_service_poll`: the reset branch
  | resetTest | teardown | resetDone
  -- and the dispatch of a latched command
  | test | loadCp | loadAddr (cp : Nat) | loadData (cp addr : Nat)
  | clear (l : Latch) | dispatch (l : Latch) | write (addr : Nat) (r : UInt8)
  -- `net_service_init`
  | initReset
deriving DecidableEq, Repr

def Main.busy : Main → Bool
  | .loadCp | .loadAddr _ | .loadData .. | .clear _ | .dispatch _ | .write .. => true
  | _ => false

/-- The mailbox, and from `readClear` on a record of what went through it. -/
structure Mailbox where
  net : Service
  /-- `net_pending_cp`, `net_pending_addr` and `net_pending_data`. -/
  latch : Latch
  pending : Bool
  resetPending : Bool
  register : Nat → UInt8
  main : Main
  readClear : Bool
  wasReset : Bool
  latched : List Latch
  dispatched : List (Latch × Result)
  clean : Bool
  settled : Bool

def Mailbox.boot (rings : Fin NET_MAX_HANDLES → Fin NET_RX_RING_SIZE → UInt8) : Mailbox where
  net := Service.boot rings
  latch := ⟨0, 0, 0⟩
  pending := false
  resetPending := true
  register := fun _ => 0
  main := .idle
  readClear := false
  wasReset := true
  latched := []
  dispatched := []
  clean := false
  settled := false

inductive MailboxEvent where
  /-- `net_service_command`, in FIQ. -/
  | latch (l : Latch)
  | read (addr : Nat)
  /-- The main loop enters the poll, or the init of a reset, if it is in neither. -/
  | poll
  | init
  | main (a : Answers) (jim : Jim)

variable (cfg : Config)

def netServiceCommand (m : Mailbox) (l : Latch) : Mailbox :=
  { m with
    latch := l
    pending := true
    register := Function.update m.register l.addr NET_BUSY
    readClear := false
    wasReset := false
    latched := m.latched ++ [l]
    clean := false
    settled := false }

def Mailbox.pollDone (m : Mailbox) : Mailbox :=
  { m with main := .idle, settled := m.settled || m.clean }

def mainStep (a : Answers) (jim : Jim) (m : Mailbox) : Mailbox :=
  match m.main with
  | .idle => m
  | .resetTest => { m with main := if m.resetPending then .teardown else .test }
  | .teardown => { m with net := resetAll m.net, main := .resetDone }
  | .resetDone => { m with resetPending := false, main := .test }
  | .test => if m.pending then { m with main := .loadCp } else m.pollDone
  | .loadCp => { m with main := .loadAddr m.latch.cp }
  | .loadAddr cp => { m with main := .loadData cp m.latch.addr }
  | .loadData cp addr => { m with main := .clear ⟨cp, addr, m.latch.data⟩ }
  | .clear l => { m with pending := false, main := .dispatch l }
  | .dispatch l =>
      let r := netDispatch cfg a m.net jim l.cp l.data
      { m with
        net := r.2.2
        dispatched := m.dispatched ++ [(l, r.1)]
        main := .write l.addr r.1.code }
  | .write addr r => { m with register := Function.update m.register addr r }.pollDone
  | .initReset => { m with resetPending := true, wasReset := true, main := .idle }

def Mailbox.readsClear (m : Mailbox) (addr : Nat) : Bool :=
  m.register addr &&& 0x80 == 0 && m.latched.getLast?.all fun l => l.addr == addr

def Mailbox.step (m : Mailbox) : MailboxEvent → Mailbox
  | .latch l => netServiceCommand m l
  | .read addr => { m with readClear := m.readClear || m.readsClear addr }
  | .poll => if m.main = .idle then { m with main := .resetTest, clean := true } else m
  | .init => if m.main = .idle then { m with main := .initReset } else m
  | .main a jim => mainStep cfg a jim m

def Mailbox.Quiet (m : Mailbox) : Prop := m.pending = false ∧ m.main.busy = false

instance (m : Mailbox) : Decidable m.Quiet := inferInstanceAs (Decidable (_ ∧ _))

def Disciplined (m : Mailbox) : MailboxEvent → Prop
  | .latch _ => m.readClear = true ∨ m.wasReset = true
  | _ => True

def Careful (m : Mailbox) : MailboxEvent → Prop
  | .latch _ => m.readClear = true ∨ m.wasReset = true ∧ m.Quiet
  | _ => True

instance (m : Mailbox) (e : MailboxEvent) : Decidable (Disciplined m e) :=
  match e with
  | .latch _ => inferInstanceAs (Decidable (_ ∨ _))
  | .read _ | .poll | .init | .main .. => isTrue trivial

instance (m : Mailbox) (e : MailboxEvent) : Decidable (Careful m e) :=
  match e with
  | .latch _ => inferInstanceAs (Decidable (_ ∨ _))
  | .read _ | .poll | .init | .main .. => isTrue trivial

/-! ### The invariant -/

def Mailbox.Flow (m : Mailbox) : Prop :=
  match m.main with
  | .loadCp => m.pending = true
  | .loadAddr cp => m.pending = true ∧ cp = m.latch.cp
  | .loadData cp addr => m.pending = true ∧ cp = m.latch.cp ∧ addr = m.latch.addr
  | .clear l => m.pending = true ∧ l = m.latch
  | .dispatch l => m.pending = false ∧ l = m.latch
  | .write addr r =>
      m.pending = false ∧ addr = m.latch.addr ∧
        ∃ res, m.dispatched.getLast? = some (m.latch, res) ∧ r = res.code
  | _ => True

def Mailbox.waiting (m : Mailbox) : List Latch :=
  match m.main with
  | .dispatch l => [l]
  | _ => if m.pending then [m.latch] else []

structure Mailbox.Inv (m : Mailbox) : Prop where
  flow : m.Flow
  all : m.latched = m.dispatched.map Prod.fst ++ m.waiting
  busy : ¬ m.Quiet → m.latched.getLast? = some m.latch ∧ m.register m.latch.addr = NET_BUSY
  answered : m.Quiet → ∀ l r, m.dispatched.getLast? = some (l, r) → m.register l.addr = r.code
  read : m.readClear = true → m.Quiet
  settled : m.settled = true → m.Quiet

theorem Result.code_clear (r : Result) : r.code &&& 0x80 = 0 := by
  cases r <;> decide

section

variable {m : Mailbox}

theorem Mailbox.flow_of_not_busy (h : m.main.busy = false) : m.Flow := by
  unfold Mailbox.Flow
  cases hm : m.main <;> first | trivial | (rw [hm] at h; cases h)

theorem Mailbox.waiting_of_not_busy (h : m.main.busy = false) :
    m.waiting = if m.pending then [m.latch] else [] := by
  unfold Mailbox.waiting
  split
  · next l hmain =>
    rw [hmain] at h
    cases h
  · rfl

theorem Mailbox.Quiet.waiting_nil (h : m.Quiet) : m.waiting = [] := by
  rw [Mailbox.waiting_of_not_busy h.2, h.1]
  rfl

theorem Mailbox.Inv.readsClear_quiet (h : m.Inv) {addr : Nat} (hread : m.readsClear addr = true) :
    m.Quiet := by
  by_contra hnot
  obtain ⟨hlast, hbusy⟩ := h.busy hnot
  simp only [Mailbox.readsClear, hlast, Option.all_some, Bool.and_eq_true, beq_iff_eq] at hread
  obtain ⟨hclear, haddr⟩ := hread
  rw [← haddr, hbusy] at hclear
  exact absurd hclear (by decide)

theorem Mailbox.Inv.latch (h : m.Inv) (hquiet : m.Quiet) (l : Latch) :
    (netServiceCommand m l).Inv := by
  have hmain : (netServiceCommand m l).main.busy = false := hquiet.2
  have hnot : ¬ (netServiceCommand m l).Quiet := fun hq => Bool.noConfusion hq.1
  refine ⟨Mailbox.flow_of_not_busy hmain, ?_, ?_, fun hq => absurd hq hnot, nofun, nofun⟩
  · rw [Mailbox.waiting_of_not_busy hmain]
    change m.latched ++ [l] = m.dispatched.map Prod.fst ++ [l]
    rw [h.all, hquiet.waiting_nil, List.append_nil]
  · intro _
    constructor
    · exact List.getLast?_concat
    · exact Function.update_self ..

theorem Mailbox.Inv.aside (h : m.Inv) {m' : Mailbox} (hmain : m.main.busy = false)
    (hmain' : m'.main.busy = false) (hlatch : m'.latch = m.latch) (hpending : m'.pending = m.pending)
    (hregister : m'.register = m.register) (hread : m'.readClear = m.readClear)
    (hlatched : m'.latched = m.latched) (hdispatched : m'.dispatched = m.dispatched)
    (hsettled : m'.settled = true → m.Quiet) : m'.Inv := by
  have hquiet : m'.Quiet ↔ m.Quiet := by
    unfold Mailbox.Quiet
    rw [hpending, hmain, hmain']
  refine ⟨Mailbox.flow_of_not_busy hmain', ?_, ?_, ?_, ?_, fun hs => hquiet.mpr (hsettled hs)⟩
  · rw [Mailbox.waiting_of_not_busy hmain', hlatched, hdispatched, hpending, hlatch, h.all,
      Mailbox.waiting_of_not_busy hmain]
  · intro hnot
    rw [hlatched, hlatch, hregister]
    exact h.busy fun hq => hnot (hquiet.mpr hq)
  · intro hq l r hlast
    rw [hregister]
    exact h.answered (hquiet.mp hq) l r (hdispatched ▸ hlast)
  · intro hr
    exact hquiet.mpr (h.read (hread ▸ hr))

theorem Mailbox.Inv.within (h : m.Inv) {m' : Mailbox} (hbusy : ¬ m.Quiet) (hbusy' : ¬ m'.Quiet)
    (hflow : m'.Flow) (hall : m'.latched = m'.dispatched.map Prod.fst ++ m'.waiting)
    (hlatch : m'.latch = m.latch) (hregister : m'.register = m.register)
    (hread : m'.readClear = m.readClear) (hlatched : m'.latched = m.latched)
    (hsettled : m'.settled = m.settled) : m'.Inv := by
  refine ⟨hflow, hall, ?_, fun hq => absurd hq hbusy', ?_, ?_⟩
  · intro _
    rw [hlatched, hlatch, hregister]
    exact h.busy hbusy
  · intro hr
    exact absurd (h.read (hread ▸ hr)) hbusy
  · intro hs
    exact absurd (h.settled (hsettled ▸ hs)) hbusy

theorem Mailbox.not_quiet_of_busy (h : m.main.busy = true) : ¬ m.Quiet := by
  intro hq
  have hnot := hq.2
  rw [h] at hnot
  cases hnot

theorem Mailbox.not_quiet_of_pending (h : m.pending = true) : ¬ m.Quiet := by
  intro hq
  have hnot := hq.1
  rw [h] at hnot
  cases hnot

theorem mainStep_inv (h : m.Inv) (a : Answers) (jim : Jim) : (mainStep cfg a jim m).Inv := by
  have hflow := h.flow
  have hall := h.all
  unfold Mailbox.Flow at hflow
  unfold Mailbox.waiting at hall
  unfold mainStep
  split
  · exact h
  · next hm =>
    rw [hm] at hflow hall
    have hmain : m.main.busy = false := by rw [hm]; rfl
    refine h.aside hmain ?_ rfl rfl rfl rfl rfl rfl h.settled
    dsimp only
    split
    · rfl
    · rfl
  · next hm =>
    have hmain : m.main.busy = false := by rw [hm]; rfl
    exact h.aside hmain rfl rfl rfl rfl rfl rfl rfl h.settled
  · next hm =>
    have hmain : m.main.busy = false := by rw [hm]; rfl
    exact h.aside hmain rfl rfl rfl rfl rfl rfl rfl h.settled
  · next hm =>
    have hmain : m.main.busy = false := by rw [hm]; rfl
    split
    · next hpending =>
      rw [hm] at hall
      exact h.within (Mailbox.not_quiet_of_pending hpending) (Mailbox.not_quiet_of_busy rfl)
        hpending hall rfl rfl rfl rfl rfl
    · next hpending =>
      have hquiet : m.Quiet := ⟨by simpa using hpending, hmain⟩
      exact h.aside hmain rfl rfl rfl rfl rfl rfl rfl fun _ => hquiet
  -- the command in the latch is copied field by field: nothing is latched meanwhile
  · next hm =>
    rw [hm] at hflow hall
    exact h.within (Mailbox.not_quiet_of_pending hflow) (Mailbox.not_quiet_of_busy rfl)
      ⟨hflow, rfl⟩ hall rfl rfl rfl rfl rfl
  · next cp hm =>
    rw [hm] at hflow hall
    exact h.within (Mailbox.not_quiet_of_pending hflow.1) (Mailbox.not_quiet_of_busy rfl)
      ⟨hflow.1, hflow.2, rfl⟩ hall rfl rfl rfl rfl rfl
  · next cp addr hm =>
    rw [hm] at hflow hall
    obtain ⟨hpending, rfl, rfl⟩ := hflow
    exact h.within (Mailbox.not_quiet_of_pending hpending) (Mailbox.not_quiet_of_busy rfl)
      ⟨hpending, rfl⟩ hall rfl rfl rfl rfl rfl
  · next l hm =>
    rw [hm] at hflow hall
    obtain ⟨hpending, rfl⟩ := hflow
    dsimp only at hall
    rw [if_pos hpending] at hall
    exact h.within (Mailbox.not_quiet_of_pending hpending) (Mailbox.not_quiet_of_busy rfl)
      ⟨rfl, rfl⟩ hall rfl rfl rfl rfl rfl
  · next l hm =>
    rw [hm] at hflow hall
    obtain ⟨hpending, rfl⟩ := hflow
    have hbusy : m.main.busy = true := by rw [hm]; rfl
    refine h.within (Mailbox.not_quiet_of_busy hbusy) (Mailbox.not_quiet_of_busy rfl)
      ⟨hpending, rfl, _, List.getLast?_concat, rfl⟩ ?_ rfl rfl rfl rfl rfl
    unfold Mailbox.waiting
    dsimp only at hall ⊢
    rw [hpending, if_neg Bool.false_ne_true, List.map_append, List.append_nil]
    exact hall
  · next addr r hm =>
    rw [hm] at hflow hall
    obtain ⟨hpending, rfl, res, hlast, rfl⟩ := hflow
    have hbusy : ¬ m.Quiet := Mailbox.not_quiet_of_busy (by rw [hm]; rfl)
    have hquiet : Mailbox.Quiet
        { m with register := Function.update m.register m.latch.addr res.code }.pollDone :=
      ⟨hpending, rfl⟩
    refine ⟨Mailbox.flow_of_not_busy rfl, ?_, fun hn => absurd hquiet hn, ?_,
      fun _ => hquiet, fun _ => hquiet⟩
    · rw [hquiet.waiting_nil]
      dsimp only at hall
      rw [hpending, if_neg Bool.false_ne_true] at hall
      exact hall
    · intro _ l r hl
      have hsame : some (l, r) = some (m.latch, res) := hl.symm.trans hlast
      cases hsame
      exact Function.update_self ..
  · next hm =>
    have hmain : m.main.busy = false := by rw [hm]; rfl
    exact h.aside hmain rfl rfl rfl rfl rfl rfl rfl h.settled

theorem Mailbox.step_inv (h : m.Inv) {e : MailboxEvent} (hcareful : Careful m e) :
    (m.step cfg e).Inv := by
  cases e with
  | latch l => exact h.latch (hcareful.elim h.read fun hr => hr.2) l
  | read addr =>
    refine ⟨h.flow, h.all, h.busy, h.answered, fun hr => ?_, h.settled⟩
    rcases Bool.or_eq_true_iff.mp hr with hold | hnew
    · exact h.read hold
    · exact h.readsClear_quiet hnew
  | poll =>
    simp only [Mailbox.step]
    split
    · next hidle => exact h.aside (by rw [hidle]; rfl) rfl rfl rfl rfl rfl rfl rfl h.settled
    · exact h
  | init =>
    simp only [Mailbox.step]
    split
    · next hidle => exact h.aside (by rw [hidle]; rfl) rfl rfl rfl rfl rfl rfl rfl h.settled
    · exact h
  | main a jim => exact mainStep_inv cfg h a jim

theorem Mailbox.boot_inv (rings : Fin NET_MAX_HANDLES → Fin NET_RX_RING_SIZE → UInt8) :
    (Mailbox.boot rings).Inv :=
  ⟨trivial, rfl, fun hn => absurd ⟨rfl, rfl⟩ hn, nofun, nofun, nofun⟩

end

/-! ### Runs -/

/-- In every run in which a command issued on the strength of a reset finds the mailbox quiet,
the commands are dispatched in the order they were latched, each once and as it was latched; one
that is not dispatched yet is still in the mailbox; and once a poll has run after the last
command, its result is in its register. -/
theorem mailbox_dispatches_once (rings : Fin NET_MAX_HANDLES → Fin NET_RX_RING_SIZE → UInt8)
    (ops : List MailboxEvent)
    (hcareful : ∀ st ∈ History.history (Mailbox.step cfg) (Mailbox.boot rings) ops,
      Careful st.pre st.op) :
    let m := History.final (Mailbox.step cfg) (Mailbox.boot rings) ops
    (m.latched = m.dispatched.map Prod.fst ∨
        ∃ l, m.latched = m.dispatched.map Prod.fst ++ [l] ∧
          (m.pending = true ∧ m.latch = l ∨ m.main = .dispatch l)) ∧
      (m.settled = true → m.latched = m.dispatched.map Prod.fst ∧
        ∀ l, m.latched.getLast? = some l → ∃ r, m.dispatched.getLast? = some (l, r) ∧
          m.register l.addr = r.code ∧ m.register l.addr &&& 0x80 = 0) := by
  intro m
  obtain ⟨hm, -⟩ := History.guarded_induction (Mailbox.step cfg) Mailbox.Inv Careful
    (Mailbox.boot_inv rings) (fun _ _ h hc => Mailbox.step_inv cfg h hc) ops hcareful
  constructor
  · have hall := hm.all
    unfold Mailbox.waiting at hall
    split at hall
    · next l hmain => exact .inr ⟨l, hall, .inr hmain⟩
    · split at hall
      · next hpending => exact .inr ⟨_, hall, .inl ⟨hpending, rfl⟩⟩
      · exact .inl (hall.trans (List.append_nil _))
  · intro hsettled
    have hquiet := hm.settled hsettled
    have hall := hm.all
    rw [hquiet.waiting_nil, List.append_nil] at hall
    refine ⟨hall, fun l hl => ?_⟩
    rw [hall, List.getLast?_map] at hl
    cases hlast : m.dispatched.getLast? with
    | none =>
      rw [hlast] at hl
      cases hl
    | some lr =>
      obtain ⟨l', r⟩ := lr
      rw [hlast] at hl
      cases hl
      have hreg := hm.answered hquiet l' r hlast
      refine ⟨r, rfl, hreg, ?_⟩
      rw [hreg]
      exact r.code_clear

/-- The main loop takes `k` steps. -/
def mainSteps (k : Nat) : List MailboxEvent := List.replicate k (.main {} fun _ => 45)

def firstLatch : Latch := ⟨0, 170, 0⟩

def secondLatch : Latch := ⟨256, 170, 1⟩

theorem mailbox_dispatches_once_two :
    let m := History.final (Mailbox.step ⟨0, true⟩) (Mailbox.boot fun _ _ => 0)
      ([.latch firstLatch, .poll] ++ mainSteps 10 ++ [.read 170, .latch secondLatch, .poll]
        ++ mainSteps 8)
    m.settled = true ∧ m.latched = m.dispatched.map Prod.fst ∧
      m.latched = [firstLatch, secondLatch] :=
  ⟨by decide, ((mailbox_dispatches_once ⟨0, true⟩ (fun _ _ => 0) _ (by decide)).2 (by decide)).1,
    by decide⟩

/-- After a reset a second command comes in while the poll is copying the first: what is
dispatched is the block of one on the handle of the other, and neither is left to dispatch. -/
theorem mailbox_tears_after_reset :
    let ops := [.latch firstLatch, .init] ++ mainSteps 1 ++ [.poll] ++ mainSteps 5
      ++ [.latch secondLatch] ++ mainSteps 5
    let m := History.final (Mailbox.step ⟨0, true⟩) (Mailbox.boot fun _ _ => 0) ops
    (∀ st ∈ History.history (Mailbox.step ⟨0, true⟩) (Mailbox.boot fun _ _ => 0) ops,
        Disciplined st.pre st.op) ∧
      m.latched = [firstLatch, secondLatch] ∧ m.dispatched.map Prod.fst = [⟨0, 170, 1⟩] ∧
      m.pending = false ∧ m.main = .idle := by
  decide

end Pi1MHz.Net
