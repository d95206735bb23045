import Pi1MHz.History
import Pi1MHz.WrapClock

/-!
# The recovery of the Wi-Fi link

`wifi_lwip_rejoin_service` runs with every lwIP poll.  While the link is unhealthy it rejoins on a
schedule that backs off to a minute, and re-powers the chip when rejoining is no use or no longer
possible.
-/

namespace Pi1MHz.WifiRecovery

open History (final history)
open WrapClock (reached)

/-! ### The runtime -/

/-- `g_runtime_stage`: the stages up to the interrupt mask are `bringUp`, those from there to the join
`prepareJoin`. -/
inductive RuntimeStage where
  | idle
  | bringUp
  | prepareJoin
  | join
  | sweepRx
  | done
  | error
  deriving DecidableEq, Repr

inductive TickResult where
  | more
  | next
  | failed
  deriving DecidableEq, Repr

structure Runtime where
  stage : RuntimeStage
  started : Bool
  emulatorMode : Bool
  rejoinCount : UInt32
  deriving DecidableEq, Repr

/-- What the service finds when it runs.  `emulated` says that a firmware that came up is only assumed
to, `hostOpen` that `sdio_host_open_start` succeeds. -/
structure Reading where
  tick : TickResult
  emulated : Bool
  linkUp : Bool
  rxIdleUs : UInt32
  txDeadUs : UInt32
  preload : Bool
  hostOpen : Bool

def sdioRuntimeReady (rt : Runtime) : Bool := rt.stage = .done

def sdioRuntimeRejoinBusy (rt : Runtime) : Bool := rt.stage = .join || rt.stage = .sweepRx

def sdioRuntimeStart (r : Reading) (rt : Runtime) : Bool × Runtime :=
  let rt := { rt with started := false, emulatorMode := false, rejoinCount := 0 }
  if r.hostOpen = false then (false, { rt with stage := .error }) else (true, { rt with stage := .bringUp })

/-- `allow` is `allow_emulator_fallback`. -/
def sdioRuntimeTick (allow : Bool) (r : Reading) (rt : Runtime) : Bool × Runtime :=
  match rt.stage with
  | .bringUp =>
    match r.tick with
    | .more => (true, rt)
    | .failed => (false, { rt with stage := .error })
    | .next =>
      (true, { rt with
        started := true
        emulatorMode := rt.emulatorMode || allow && r.emulated
        stage := .prepareJoin })
  | .prepareJoin =>
    if rt.emulatorMode then (false, { rt with stage := .done })
    else
      match r.tick with
      | .more => (true, rt)
      | .next | .failed => (true, { rt with stage := .join })
  | .join =>
    match r.tick with
    | .more => (true, rt)
    -- a join that fails is tolerated
    | .next | .failed => (true, { rt with stage := .sweepRx })
  | .sweepRx => (false, { rt with stage := .done })
  | .idle | .done | .error => (false, rt)

def Runtime.RejoinPermitted (rt : Runtime) : Prop :=
  rt.started = true ∧ rt.emulatorMode = false ∧ rt.stage = .done

instance (rt : Runtime) : Decidable rt.RejoinPermitted := inferInstanceAs (Decidable (_ ∧ _))

def sdioRuntimeRejoinStart (rt : Runtime) : Bool × Runtime :=
  if rt.RejoinPermitted then (true, { rt with stage := .join, rejoinCount := rt.rejoinCount + 1 })
  else (false, rt)

/-! ### The service -/

def WIFI_LWIP_LINK_TIMEOUT_US : UInt32 := 30000000
def WIFI_LWIP_REJOIN_FIRST_US : UInt32 := 2000000
def WIFI_LWIP_RX_SILENCE_LIMIT_US : UInt32 := 45000000
def WIFI_LWIP_TX_DEAD_LIMIT_US : UInt32 := 8000000
def WIFI_LWIP_TX_DEAD_RESTART_US : UInt32 := 25000000
def WIFI_LWIP_HEALTH_DWELL_US : UInt32 := 50000000
def WIFI_LWIP_REJOIN_MAX_US : UInt32 := 60000000
def RESTART_GRACE_US : UInt32 := 20000000

/-- The statics of the service, with the two fields of the lwIP context it reads.  `dueAt` and
`healthyAt` are `s_rejoin_due_us` and `s_healthy_since_us` in microseconds since power-up, and
`readyRestarts` counts the full restarts started with the runtime ready since health was last proven;
nothing in the source reads these three. -/
structure Ladder where
  runtime : Runtime
  linkEstablished : Bool := false
  initAt : Nat
  fullRestartActive : Bool := false
  rejoinsSinceHealthy : UInt8 := 0
  fullRestartsSinceHealthy : UInt8 := 0
  healthySinceUs : UInt32 := 0
  rejoinIntervalUs : UInt32 := WIFI_LWIP_REJOIN_FIRST_US
  rejoinDueUs : UInt32 := 0
  rejoinScheduled : Bool := false
  dueAt : Nat := 0
  healthyAt : Nat := 0
  readyRestarts : Nat := 0

def Healthy (r : Reading) : Prop :=
  r.linkUp = true ∧ r.rxIdleUs < WIFI_LWIP_RX_SILENCE_LIMIT_US ∧ r.txDeadUs < WIFI_LWIP_TX_DEAD_LIMIT_US

instance (r : Reading) : Decidable (Healthy r) := inferInstanceAs (Decidable (_ ∧ _))

def scheduleNextRejoin (t : Nat) (l : Ladder) : Ladder :=
  { l with
    rejoinDueUs := UInt32.ofNat t + l.rejoinIntervalUs
    dueAt := t + l.rejoinIntervalUs.toNat
    rejoinIntervalUs :=
      if l.rejoinIntervalUs < WIFI_LWIP_REJOIN_MAX_US then
        if WIFI_LWIP_REJOIN_MAX_US < l.rejoinIntervalUs * 2 then WIFI_LWIP_REJOIN_MAX_US
        else l.rejoinIntervalUs * 2
      else l.rejoinIntervalUs }

def Ladder.RestartPermitted (l : Ladder) (r : Reading) : Prop :=
  (sdioRuntimeReady l.runtime = false ∨ WIFI_LWIP_TX_DEAD_RESTART_US ≤ r.txDeadUs ∨
      3 ≤ l.rejoinsSinceHealthy) ∧
    (l.fullRestartsSinceHealthy < 3 ∨ sdioRuntimeReady l.runtime = false)

instance (l : Ladder) (r : Reading) : Decidable (l.RestartPermitted r) :=
  inferInstanceAs (Decidable (_ ∧ _))

def attempt (t : Nat) (r : Reading) (l : Ladder) : Ladder :=
  if l.RestartPermitted r then
    if r.preload = false then scheduleNextRejoin t l
    else
      match sdioRuntimeStart r l.runtime with
      | (true, rt) =>
        { l with
          runtime := rt
          fullRestartActive := true
          fullRestartsSinceHealthy := l.fullRestartsSinceHealthy + 1
          readyRestarts := l.readyRestarts + (sdioRuntimeReady l.runtime).toNat }
      | (false, rt) => scheduleNextRejoin t { l with runtime := rt }
  else
    match sdioRuntimeRejoinStart l.runtime with
    | (true, rt) =>
      scheduleNextRejoin t { l with runtime := rt, rejoinsSinceHealthy := l.rejoinsSinceHealthy + 1 }
    | (false, _) => scheduleNextRejoin t l

def noteHealthy (t : Nat) (l : Ladder) : Ladder :=
  let now := UInt32.ofNat t
  let since := if l.healthySinceUs = 0 then (if now = 0 then 1 else now) else l.healthySinceUs
  let sinceAt := if l.healthySinceUs = 0 then t else l.healthyAt
  { l with
    rejoinIntervalUs := WIFI_LWIP_REJOIN_FIRST_US
    rejoinScheduled := false
    rejoinsSinceHealthy := 0
    healthySinceUs := since
    healthyAt := sinceAt
    fullRestartsSinceHealthy :=
      if WIFI_LWIP_HEALTH_DWELL_US ≤ now - since then 0 else l.fullRestartsSinceHealthy
    readyRestarts := if sinceAt + WIFI_LWIP_HEALTH_DWELL_US.toNat ≤ t then 0 else l.readyRestarts }

def firstSchedule (t : Nat) (l : Ladder) : Ladder :=
  let start := if l.linkEstablished then t else l.initAt
  let wait := if l.linkEstablished then l.rejoinIntervalUs else WIFI_LWIP_LINK_TIMEOUT_US
  { l with
    rejoinDueUs := UInt32.ofNat start + wait
    dueAt := start + wait.toNat
    rejoinScheduled := true }

def ladderService (allow : Bool) (t : Nat) (r : Reading) (l : Ladder) : Ladder :=
  if sdioRuntimeRejoinBusy l.runtime then { l with runtime := (sdioRuntimeTick allow r l.runtime).2 }
  else if Healthy r then noteHealthy t l
  else
    let l := { l with healthySinceUs := 0 }
    if l.rejoinScheduled = false then firstSchedule t l
    else if reached (UInt32.ofNat t) l.rejoinDueUs = false then l
    else attempt t r l

def restartComplete (t : Nat) (l : Ladder) : Ladder :=
  { l with
    fullRestartActive := false
    rejoinIntervalUs := WIFI_LWIP_REJOIN_FIRST_US
    rejoinScheduled := true
    rejoinDueUs := UInt32.ofNat t + RESTART_GRACE_US
    dueAt := t + RESTART_GRACE_US.toNat
    rejoinsSinceHealthy := 0 }

def wifiLwipRejoinService (allow : Bool) (t : Nat) (r : Reading) (l : Ladder) : Ladder :=
  -- `link_established` was latched with `link_up`
  let l := { l with linkEstablished := l.linkEstablished || r.linkUp }
  if l.fullRestartActive then
    match sdioRuntimeTick allow r l.runtime with
    | (true, rt) => { l with runtime := rt }
    | (false, rt) =>
      if sdioRuntimeReady rt = false then
        scheduleNextRejoin t { l with runtime := rt, fullRestartActive := false }
      else ladderService allow t r (restartComplete t { l with runtime := rt })
  else ladderService allow t r l

inductive Event where
  | service (elapsed : Nat) (r : Reading)
  | reset

structure Watch where
  clock : Nat
  ladder : Ladder

def step (allow : Bool) (w : Watch) : Event → Watch
  | .service elapsed r =>
    ⟨w.clock + elapsed, wifiLwipRejoinService allow (w.clock + elapsed) r w.ladder⟩
  -- `wifi_init` returns at once: it is done, and the state neither error nor disabled
  | .reset => w

def initial (allow emulated : Bool) (initAt : Nat) : Watch where
  clock := initAt
  ladder := { runtime := ⟨.done, true, allow && emulated, 0⟩, initAt }

def InFlight (l : Ladder) : Prop := l.fullRestartActive = true ∨ sdioRuntimeRejoinBusy l.runtime = true

/-- What a run of the service at time `t` does for a link that is down. -/
structure Recovers (t : Nat) (r : Reading) (l l' : Ladder) : Prop where
  scheduled : ¬Healthy r → ¬InFlight l' →
    l'.rejoinScheduled = true ∧ l'.dueAt ≤ t + WIFI_LWIP_REJOIN_MAX_US.toNat
  due : ¬Healthy r → ¬InFlight l → l.rejoinScheduled = true → l.dueAt ≤ t →
    (l.RestartPermitted r ∧ (r.preload = true → r.hostOpen = true → l'.fullRestartActive = true)) ∨
      (l.runtime.RejoinPermitted ∧ l'.runtime.stage = .join)

structure NoDeadEnd (st : History.Step Watch Event) : Prop where
  recovers : ∀ elapsed r, st.op = .service elapsed r →
    Recovers (st.pre.clock + elapsed) r st.pre.ladder st.post.ladder
  budget : st.post.ladder.readyRestarts ≤ 3

/-- A run of the service at time `t` starts a full restart. -/
def Restarts (t : Nat) (r : Reading) (l : Ladder) : Prop :=
  ¬InFlight l ∧ ¬Healthy r ∧ l.rejoinScheduled = true ∧ l.dueAt ≤ t ∧ l.RestartPermitted r ∧
    r.preload = true ∧ r.hostOpen = true

/-- The service comes in time, the eight-bit count of the restarts does not wrap, and no stretch of
health begins in the microsecond that the clock calls zero. -/
structure Timely (t : Nat) (r : Reading) (l : Ladder) : Prop where
  due : ¬InFlight l → ¬Healthy r → l.rejoinScheduled = true → t < l.dueAt + 2 ^ 31
  count : Restarts t r l → l.fullRestartsSinceHealthy ≠ 255
  zero : l.healthySinceUs = 0 → Healthy r → UInt32.ofNat t ≠ 0

def Fits (w : Watch) : Event → Prop
  | .service elapsed r => Timely (w.clock + elapsed) r w.ladder
  | .reset => True

def StageOk (l : Ladder) : RuntimeStage → Prop
  | .idle => False
  | .bringUp => l.fullRestartActive = true
  | .prepareJoin => l.fullRestartActive = true ∧ l.runtime.started = true
  | .join | .sweepRx => l.rejoinScheduled = true ∧ l.runtime.started = true
  | .done => l.fullRestartActive = false ∧ l.runtime.started = true
  | .error => l.fullRestartActive = false

structure Inv (t : Nat) (l : Ladder) : Prop where
  stage : StageOk l l.runtime.stage
  active : l.fullRestartActive = true → l.rejoinScheduled = true
  real : l.runtime.emulatorMode = false
  interval : l.rejoinIntervalUs ≤ WIFI_LWIP_REJOIN_MAX_US
  due : l.rejoinScheduled = true →
    l.rejoinDueUs = UInt32.ofNat l.dueAt ∧ l.dueAt ≤ t + WIFI_LWIP_REJOIN_MAX_US.toNat
  initAt : l.initAt ≤ t
  health : l.healthySinceUs ≠ 0 → l.healthySinceUs = UInt32.ofNat l.healthyAt ∧ l.healthyAt ≤ t
  counted : l.readyRestarts ≤ l.fullRestartsSinceHealthy.toNat
  budget : l.readyRestarts ≤ 3

variable {t t' : Nat} {r : Reading} {l : Ladder} {w : Watch}

theorem inv_initial (allow : Bool) (initAt : Nat) :
    Inv (initial allow false initAt).clock (initial allow false initAt).ladder where
  stage := ⟨rfl, rfl⟩
  active h := by cases h
  real := Bool.and_false allow
  interval := UInt32.le_iff_toNat_le.mpr (by decide : (2000000 : Nat) ≤ 60000000)
  due h := by cases h
  initAt := Nat.le_refl _
  health h := absurd rfl h
  counted := Nat.zero_le _
  budget := Nat.zero_le 3

theorem Inv.later (h : Inv t l) (hle : t ≤ t') : Inv t' l :=
  { h with
    due := fun hs => ⟨(h.due hs).1, Nat.le_trans (h.due hs).2 (Nat.add_le_add_right hle _)⟩
    initAt := Nat.le_trans h.initAt hle
    health := fun hs => ⟨(h.health hs).1, Nat.le_trans (h.health hs).2 hle⟩ }

/-! ### The schedule -/

theorem ofNat_add_toNat (t : Nat) (d : UInt32) : UInt32.ofNat t + d = UInt32.ofNat (t + d.toNat) := by
  rw [UInt32.ofNat_add, UInt32.ofNat_toNat]

theorem interval_le {d : UInt32} (h : d ≤ WIFI_LWIP_REJOIN_MAX_US) :
    (if d < WIFI_LWIP_REJOIN_MAX_US then
      if WIFI_LWIP_REJOIN_MAX_US < d * 2 then WIFI_LWIP_REJOIN_MAX_US else d * 2
    else d) ≤ WIFI_LWIP_REJOIN_MAX_US := by
  split_ifs with hlt hover
  · exact UInt32.le_refl _
  · exact UInt32.not_lt.mp hover
  · exact h

theorem inv_scheduleNextRejoin (h : Inv t l) : Inv t (scheduleNextRejoin t l) :=
  { h with
    interval := interval_le h.interval
    due _ := ⟨ofNat_add_toNat t _, Nat.add_le_add_left (UInt32.le_iff_toNat_le.mp h.interval) t⟩ }

theorem inv_firstSchedule (h : Inv t l) (hstage : l.runtime.stage = .done ∨ l.runtime.stage = .error) :
    Inv t (firstSchedule t l) := by
  have hdue : (firstSchedule t l).rejoinDueUs = UInt32.ofNat (firstSchedule t l).dueAt ∧
      (firstSchedule t l).dueAt ≤ t + WIFI_LWIP_REJOIN_MAX_US.toNat := by
    refine ⟨ofNat_add_toNat _ _, ?_⟩
    unfold firstSchedule
    cases l.linkEstablished with
    | true => exact Nat.add_le_add_left (UInt32.le_iff_toNat_le.mp h.interval) t
    | false =>
      apply Nat.add_le_add h.initAt
      change (30000000 : Nat) ≤ 60000000
      decide
  have hstage' : StageOk (firstSchedule t l) l.runtime.stage := by
    have hold := h.stage
    rcases hstage with hdone | herror
    · rw [hdone] at hold ⊢
      exact hold
    · rw [herror] at hold ⊢
      exact hold
  exact ⟨hstage', fun _ => rfl, h.real, h.interval, fun _ => hdue, h.initAt, h.health, h.counted, h.budget⟩

theorem inv_restartComplete (h : Inv t l) {rt : Runtime} (hdone : rt.stage = .done)
    (hstarted : rt.started = true) (hreal : rt.emulatorMode = false) :
    Inv t (restartComplete t { l with runtime := rt }) where
  stage := by
    change StageOk _ rt.stage
    rw [hdone]
    exact ⟨rfl, hstarted⟩
  active _ := rfl
  real := hreal
  interval := UInt32.le_iff_toNat_le.mpr (by decide : (2000000 : Nat) ≤ 60000000)
  due _ := ⟨ofNat_add_toNat t _, Nat.add_le_add_left (by decide : (20000000 : Nat) ≤ 60000000) t⟩
  initAt := h.initAt
  health := h.health
  counted := h.counted
  budget := h.budget

/-! ### Ticks -/

theorem tick_cases (h : Inv t l) (r : Reading) :
    (sdioRuntimeTick false r l.runtime).2.emulatorMode = false ∧
      ((sdioRuntimeTick false r l.runtime).1 = true ∧
          StageOk { l with runtime := (sdioRuntimeTick false r l.runtime).2 }
            (sdioRuntimeTick false r l.runtime).2.stage ∨
        (sdioRuntimeTick false r l.runtime).1 = false ∧
          ((sdioRuntimeTick false r l.runtime).2.stage = .done ∧
              (sdioRuntimeTick false r l.runtime).2.started = true ∨
            (sdioRuntimeTick false r l.runtime).2.stage = .error ∧ sdioRuntimeRejoinBusy l.runtime = false)) := by
  have hstage := h.stage
  unfold sdioRuntimeTick sdioRuntimeRejoinBusy
  cases hs : l.runtime.stage with
  | idle =>
    rw [hs] at hstage
    exact hstage.elim
  | bringUp =>
    rw [hs] at hstage
    cases r.tick with
    | more => exact ⟨h.real, .inl ⟨rfl, by rw [hs]; exact hstage⟩⟩
    | failed => exact ⟨h.real, .inr ⟨rfl, .inr ⟨rfl, rfl⟩⟩⟩
    | next => exact ⟨by simp only [h.real, Bool.false_and, Bool.or_false], .inl ⟨rfl, hstage, rfl⟩⟩
  | prepareJoin =>
    rw [hs] at hstage
    simp only [h.real, Bool.false_eq_true, if_false]
    cases r.tick with
    | more => exact ⟨h.real, .inl ⟨rfl, by rw [hs]; exact hstage⟩⟩
    | failed => exact ⟨rfl, .inl ⟨rfl, h.active hstage.1, hstage.2⟩⟩
    | next => exact ⟨rfl, .inl ⟨rfl, h.active hstage.1, hstage.2⟩⟩
  | join =>
    rw [hs] at hstage
    cases r.tick with
    | more => exact ⟨h.real, .inl ⟨rfl, by rw [hs]; exact hstage⟩⟩
    | failed => exact ⟨h.real, .inl ⟨rfl, hstage⟩⟩
    | next => exact ⟨h.real, .inl ⟨rfl, hstage⟩⟩
  | sweepRx =>
    rw [hs] at hstage
    exact ⟨h.real, .inr ⟨rfl, .inl ⟨rfl, hstage.2⟩⟩⟩
  | done =>
    rw [hs] at hstage
    exact ⟨h.real, .inr ⟨rfl, .inl ⟨hs, hstage.2⟩⟩⟩
  | error => exact ⟨h.real, .inr ⟨rfl, .inr ⟨hs, rfl⟩⟩⟩

theorem inv_runtime (h : Inv t l) {rt : Runtime} (hreal : rt.emulatorMode = false)
    (hstage : StageOk { l with runtime := rt } rt.stage) : Inv t { l with runtime := rt } :=
  { h with stage := hstage, real := hreal }

theorem stage_of_not_inFlight (h : Inv t l) (hflight : ¬InFlight l) :
    l.runtime.stage = .done ∧ l.runtime.started = true ∨ l.runtime.stage = .error := by
  obtain ⟨hactive, hbusy⟩ := not_or.mp hflight
  have hstage := h.stage
  unfold sdioRuntimeRejoinBusy at hbusy
  cases hs : l.runtime.stage with
  | idle =>
    rw [hs] at hstage
    exact hstage.elim
  | bringUp =>
    rw [hs] at hstage
    exact absurd hstage hactive
  | prepareJoin =>
    rw [hs] at hstage
    exact absurd hstage.1 hactive
  | join => exact absurd (by rw [hs]; rfl) hbusy
  | sweepRx => exact absurd (by rw [hs]; rfl) hbusy
  | done =>
    rw [hs] at hstage
    exact .inl ⟨rfl, hstage.2⟩
  | error => exact .inr rfl

theorem inv_rejoinTick (h : Inv t l) (hactive : l.fullRestartActive = false)
    (hbusy : sdioRuntimeRejoinBusy l.runtime = true) (r : Reading) :
    Inv t { l with runtime := (sdioRuntimeTick false r l.runtime).2 } := by
  obtain ⟨hreal, ⟨-, hstage⟩ | ⟨-, ⟨hdone, hstarted⟩ | ⟨-, hidle⟩⟩⟩ := tick_cases h r
  · exact inv_runtime h hreal hstage
  · apply inv_runtime h hreal
    rw [hdone]
    exact ⟨hactive, hstarted⟩
  · rw [hidle] at hbusy
    cases hbusy

theorem inv_noteHealthy (h : Inv t l) (hflight : ¬InFlight l)
    (hzero : l.healthySinceUs = 0 → UInt32.ofNat t ≠ 0) : Inv t (noteHealthy t l) := by
  have hhealth : (noteHealthy t l).healthySinceUs = UInt32.ofNat (noteHealthy t l).healthyAt ∧
      (noteHealthy t l).healthyAt ≤ t := by
    unfold noteHealthy
    by_cases hnone : l.healthySinceUs = 0
    · simp only [if_pos hnone, if_neg (hzero hnone)]
      exact ⟨trivial, Nat.le_refl t⟩
    · simp only [if_neg hnone]
      exact h.health hnone
  have hcounted : (noteHealthy t l).readyRestarts ≤ (noteHealthy t l).fullRestartsSinceHealthy.toNat ∧
      (noteHealthy t l).readyRestarts ≤ l.readyRestarts := by
    by_cases hproven : (noteHealthy t l).healthyAt + WIFI_LWIP_HEALTH_DWELL_US.toNat ≤ t
    · have hnone : (noteHealthy t l).readyRestarts = 0 := if_pos hproven
      rw [hnone]
      exact ⟨Nat.zero_le _, Nat.zero_le _⟩
    · have hkept : (noteHealthy t l).readyRestarts = l.readyRestarts := if_neg hproven
      have hsame : (noteHealthy t l).fullRestartsSinceHealthy = l.fullRestartsSinceHealthy := by
        apply if_neg
        change ¬WIFI_LWIP_HEALTH_DWELL_US ≤ UInt32.ofNat t - (noteHealthy t l).healthySinceUs
        rw [hhealth.1, UInt32.le_iff_toNat_le, WrapClock.age_eq hhealth.2]
        have hage := Nat.mod_le (t - (noteHealthy t l).healthyAt) (2 ^ 32)
        omega
      rw [hkept, hsame]
      exact ⟨h.counted, Nat.le_refl _⟩
  have hstage : StageOk (noteHealthy t l) l.runtime.stage := by
    have hold := h.stage
    rcases stage_of_not_inFlight h hflight with ⟨hdone, -⟩ | herror
    · rw [hdone] at hold ⊢
      exact hold
    · rw [herror] at hold ⊢
      exact hold
  refine ⟨hstage, fun hactive => absurd (Or.inl hactive) hflight, h.real,
    UInt32.le_iff_toNat_le.mpr (by decide : (2000000 : Nat) ≤ 60000000), nofun, h.initAt,
    fun _ => hhealth, hcounted.1, Nat.le_trans hcounted.2 h.budget⟩

/-! ### Attempts -/

structure Attempted (r : Reading) (l l' : Ladder) : Prop where
  restarted : l.RestartPermitted r → r.preload = true → r.hostOpen = true → l'.fullRestartActive = true
  rejoined : ¬l.RestartPermitted r → l.runtime.RejoinPermitted ∧ l'.runtime.stage = .join
  scheduled : l'.rejoinScheduled = true

theorem inv_attempt (h : Inv t l) (hflight : ¬InFlight l) (hscheduled : l.rejoinScheduled = true)
    (r : Reading) (hcount : l.RestartPermitted r → r.preload = true → r.hostOpen = true →
      l.fullRestartsSinceHealthy ≠ 255) :
    Inv t (attempt t r l) ∧ Attempted r l (attempt t r l) := by
  have hactive : l.fullRestartActive = false := Bool.eq_false_iff.mpr (not_or.mp hflight).1
  unfold attempt
  by_cases hpermitted : l.RestartPermitted r
  · rw [if_pos hpermitted]
    split_ifs with hpreload
    · exact ⟨inv_scheduleNextRejoin h,
        fun _ hloaded => (by rw [hpreload] at hloaded; cases hloaded), fun hno => absurd hpermitted hno, hscheduled⟩
    unfold sdioRuntimeStart
    simp only
    split_ifs with hopen
    · refine ⟨inv_scheduleNextRejoin { h with stage := hactive, real := rfl }, fun _ _ hopened => ?_,
        fun hno => absurd hpermitted hno, hscheduled⟩
      rw [hopen] at hopened
      cases hopened
    · have hnext : (l.fullRestartsSinceHealthy + 1).toNat = l.fullRestartsSinceHealthy.toNat + 1 := by
        have hne : l.fullRestartsSinceHealthy.toNat ≠ 255 := fun he =>
          hcount hpermitted (Bool.eq_true_of_not_eq_false hpreload) (Bool.eq_true_of_not_eq_false hopen)
            (UInt8.toNat_inj.mp he)
        have hlt := l.fullRestartsSinceHealthy.toNat_lt
        rw [UInt8.toNat_add, UInt8.toNat_one]
        omega
      have hready : l.readyRestarts + (sdioRuntimeReady l.runtime).toNat ≤ 3 := by
        cases hruns : sdioRuntimeReady l.runtime with
        | false => exact h.budget
        | true =>
          rcases hpermitted.2 with hfew | hdead
          · have hlt : l.fullRestartsSinceHealthy.toNat < 3 := UInt8.lt_iff_toNat_lt.mp hfew
            have hle := h.counted
            rw [Bool.toNat_true]
            omega
          · rw [hruns] at hdead
            cases hdead
      have hcounted : l.readyRestarts + (sdioRuntimeReady l.runtime).toNat ≤
          (l.fullRestartsSinceHealthy + 1).toNat := by
        rw [hnext]
        exact Nat.add_le_add h.counted (Bool.toNat_le _)
      exact ⟨{ h with
          stage := rfl, active := fun _ => hscheduled, real := rfl, counted := hcounted, budget := hready },
        fun _ _ _ => rfl, fun hno => absurd hpermitted hno, hscheduled⟩
  · rw [if_neg hpermitted]
    have hrejoin : l.runtime.RejoinPermitted := by
      rcases stage_of_not_inFlight h hflight with ⟨hdone, hstarted⟩ | herror
      · exact ⟨hstarted, h.real, hdone⟩
      · have hdead : sdioRuntimeReady l.runtime = false := by
          unfold sdioRuntimeReady
          rw [herror]
          rfl
        exact absurd ⟨.inl hdead, .inr hdead⟩ hpermitted
    unfold sdioRuntimeRejoinStart
    rw [if_pos hrejoin]
    exact ⟨inv_scheduleNextRejoin { h with stage := ⟨hscheduled, hrejoin.1⟩ },
      fun hyes => absurd hyes hpermitted, fun _ => ⟨hrejoin, rfl⟩, hscheduled⟩

/-! ### The service -/

theorem inv_ladderService (h : Inv t l) (hactive : l.fullRestartActive = false) (htimely : Timely t r l) :
    Inv t (ladderService false t r l) ∧
      (¬Healthy r → ¬InFlight (ladderService false t r l) →
        (ladderService false t r l).rejoinScheduled = true) ∧
      (¬Healthy r → ¬InFlight l → l.rejoinScheduled = true → l.dueAt ≤ t →
        Attempted r l (ladderService false t r l)) := by
  unfold ladderService
  by_cases hbusy : sdioRuntimeRejoinBusy l.runtime = true
  · rw [if_pos hbusy]
    have hscheduled : l.rejoinScheduled = true := by
      have hstage := h.stage
      unfold sdioRuntimeRejoinBusy at hbusy
      rcases (Bool.or_eq_true _ _).mp hbusy with hjoin | hsweep
      · rw [of_decide_eq_true hjoin] at hstage
        exact hstage.1
      · rw [of_decide_eq_true hsweep] at hstage
        exact hstage.1
    exact ⟨inv_rejoinTick h hactive hbusy r, fun _ _ => hscheduled,
      fun _ hflight => absurd (Or.inr hbusy) hflight⟩
  rw [if_neg hbusy]
  have hflight : ¬InFlight l := not_or.mpr ⟨by rw [hactive]; decide, hbusy⟩
  by_cases hhealthy : Healthy r
  · rw [if_pos hhealthy]
    exact ⟨inv_noteHealthy h hflight fun hnone => htimely.zero hnone hhealthy,
      fun hdown => absurd hhealthy hdown, fun hdown => absurd hhealthy hdown⟩
  rw [if_neg hhealthy]
  have hdown : Inv t { l with healthySinceUs := 0 } := { h with health := fun hs => absurd rfl hs }
  simp only
  by_cases hscheduled : l.rejoinScheduled = false
  · rw [if_pos hscheduled]
    have hstage := (stage_of_not_inFlight h hflight).imp_left And.left
    refine ⟨inv_firstSchedule hdown hstage, fun _ _ => rfl, fun _ _ hyes => ?_⟩
    rw [hscheduled] at hyes
    cases hyes
  rw [if_neg hscheduled]
  have hyes : l.rejoinScheduled = true := by simpa using hscheduled
  have hdue : reached (UInt32.ofNat t) l.rejoinDueUs = true ↔ l.dueAt ≤ t := by
    rw [(h.due hyes).1]
    apply WrapClock.reached_iff_le (htimely.due hflight hhealthy hyes)
    exact Nat.le_trans (h.due hyes).2 (Nat.add_le_add_left (by decide : (60000000 : Nat) ≤ 2 ^ 31) t)
  split_ifs with hearly
  · refine ⟨hdown, fun _ _ => hyes, fun _ _ _ hlate => ?_⟩
    rw [hdue.mpr hlate] at hearly
    cases hearly
  · obtain ⟨hinv, hattempted⟩ := inv_attempt hdown hflight hyes r fun hpermitted hloaded hopened =>
      htimely.count ⟨hflight, hhealthy, hyes, hdue.mp (Bool.eq_true_of_not_eq_false hearly), hpermitted, hloaded,
        hopened⟩
    exact ⟨hinv, fun _ _ => hattempted.scheduled,
      fun _ _ _ _ => ⟨hattempted.restarted, hattempted.rejoined, hattempted.scheduled⟩⟩

theorem Timely.restartComplete (hzero : l.healthySinceUs = 0 → Healthy r → UInt32.ofNat t ≠ 0) :
    Timely t r (restartComplete t l) where
  due _ _ _ := by
    change t < t + 20000000 + 2 ^ 31
    omega
  count hstarts := by
    have hlate : t + 20000000 ≤ t := hstarts.2.2.2.1
    omega
  zero := hzero

theorem inv_service (h : Inv t l) (htimely : Timely t r l) :
    Inv t (wifiLwipRejoinService false t r l) ∧ Recovers t r l (wifiLwipRejoinService false t r l) := by
  have hlatched : Inv t { l with linkEstablished := l.linkEstablished || r.linkUp } := { h with }
  have htimely' : Timely t r { l with linkEstablished := l.linkEstablished || r.linkUp } :=
    ⟨htimely.due, htimely.count, htimely.zero⟩
  have hrecovers : ∀ l', Inv t l' → (¬Healthy r → ¬InFlight l' → l'.rejoinScheduled = true) →
      (¬Healthy r → ¬InFlight l → l.rejoinScheduled = true → l.dueAt ≤ t → Attempted r l l') →
      Inv t l' ∧ Recovers t r l l' := by
    intro l' hinv hscheduled hdue
    refine ⟨hinv, fun hdown hflight => ?_, fun hdown hflight hyes hlate => ?_⟩
    · have hyes := hscheduled hdown hflight
      exact ⟨hyes, (hinv.due hyes).2⟩
    · have hattempted := hdue hdown hflight hyes hlate
      by_cases hpermitted : l.RestartPermitted r
      · exact .inl ⟨hpermitted, hattempted.restarted hpermitted⟩
      · exact .inr (hattempted.rejoined hpermitted)
  unfold wifiLwipRejoinService
  simp only
  by_cases hactive : l.fullRestartActive = true
  · rw [if_pos hactive]
    have hinFlight : ∀ l', ¬Healthy r → ¬InFlight l → l.rejoinScheduled = true → l.dueAt ≤ t →
        Attempted r l l' := fun _ _ hflight => absurd (Or.inl hactive) hflight
    have hticked := tick_cases hlatched r
    cases htick : sdioRuntimeTick false r l.runtime with
    | mk busy rt =>
      simp only [htick] at hticked
      obtain ⟨hreal, ⟨rfl, hstage⟩ | ⟨rfl, hover⟩⟩ := hticked
      · exact hrecovers _ (inv_runtime hlatched hreal hstage) (fun _ hflight => absurd (Or.inl hactive) hflight)
          (hinFlight _)
      · rcases hover with ⟨hdone, hstarted⟩ | ⟨herror, -⟩
        · have hready : sdioRuntimeReady rt = true := decide_eq_true hdone
          simp only [hready, Bool.true_eq_false, if_false]
          have hcomplete := inv_restartComplete hlatched hdone hstarted hreal
          have htimely'' := Timely.restartComplete (l := { l with
            linkEstablished := l.linkEstablished || r.linkUp, runtime := rt }) htimely.zero
          obtain ⟨hinv, hscheduled, -⟩ := inv_ladderService hcomplete rfl htimely''
          exact hrecovers _ hinv hscheduled (hinFlight _)
        · have hready : sdioRuntimeReady rt = false := by
            unfold sdioRuntimeReady
            rw [herror]
            rfl
          simp only [hready, if_true]
          refine hrecovers _ (inv_scheduleNextRejoin { hlatched with
            stage := ?_, active := nofun, real := hreal }) (fun _ _ => h.active hactive) (hinFlight _)
          change StageOk _ rt.stage
          rw [herror]
          rfl
  · rw [if_neg hactive]
    obtain ⟨hinv, hscheduled, hdue⟩ := inv_ladderService hlatched (Bool.eq_false_iff.mpr hactive) htimely'
    refine hrecovers _ hinv hscheduled fun hdown hflight hyes hlate => ?_
    obtain ⟨hrestarted, hrejoined, hnext⟩ := hdue hdown hflight hyes hlate
    exact ⟨hrestarted, hrejoined, hnext⟩

theorem step_inv {e : Event} (h : Inv w.clock w.ladder) (hfits : Fits w e) :
    Inv (step false w e).clock (step false w e).ladder := by
  cases e with
  | service elapsed r => exact (inv_service (h.later (Nat.le_add_right _ _)) hfits).1
  | reset => exact h

/-- On the chip itself, an unhealthy link has its next attempt within a minute, one kind of attempt is
permitted when it is due, and no more than three restarts of a ready runtime come between two stretches
of proven health. -/
theorem no_dead_end (initAt : Nat) (es : List Event)
    (hfits : ∀ st ∈ history (step false) (initial false false initAt) es, Fits st.pre st.op) :
    ∀ st ∈ history (step false) (initial false false initAt) es, NoDeadEnd st := by
  obtain ⟨-, hall⟩ := History.guarded_induction (step false) (fun w => Inv w.clock w.ladder) Fits
    (inv_initial false initAt) (fun _ _ h hop => step_inv h hop) es hfits
  intro st hst
  obtain ⟨hpre, hpost⟩ := hall st hst
  have hop := hfits st hst
  constructor
  · intro elapsed r hserve
    rw [hserve] at hop
    rw [hpost, hserve]
    exact (inv_service (hpre.later (Nat.le_add_right _ _)) hop).2
  · rw [hpost]
    exact (step_inv hpre hop).budget

instance (l : Ladder) : Decidable (InFlight l) := inferInstanceAs (Decidable (_ ∨ _))

instance (t : Nat) (r : Reading) (l : Ladder) : Decidable (Restarts t r l) :=
  inferInstanceAs (Decidable (_ ∧ _))

instance (t : Nat) (r : Reading) (l : Ladder) : Decidable (Timely t r l) :=
  decidable_of_iff ((¬InFlight l → ¬Healthy r → l.rejoinScheduled = true → t < l.dueAt + 2 ^ 31) ∧
      (Restarts t r l → l.fullRestartsSinceHealthy ≠ 255) ∧ (l.healthySinceUs = 0 → Healthy r → UInt32.ofNat t ≠ 0))
    ⟨fun h => ⟨h.1, h.2.1, h.2.2⟩, fun h => ⟨h.due, h.count, h.zero⟩⟩

instance (w : Watch) : ∀ e, Decidable (Fits w e)
  | .service elapsed r => inferInstanceAs (Decidable (Timely (w.clock + elapsed) r w.ladder))
  | .reset => isTrue trivial

def outage : Reading where
  tick := .next
  emulated := false
  linkUp := false
  rxIdleUs := 30000000
  txDeadUs := 30000000
  preload := true
  hostOpen := true

theorem no_dead_end_restart :
    (∀ st ∈ history (step false) (initial false false 5)
        [.service 0 outage, .service 30000000 outage, .reset, .service 9 outage], NoDeadEnd st) ∧
      (final (step false) (initial false false 5)
        [.service 0 outage, .service 30000000 outage, .reset, .service 9 outage]).ladder.readyRestarts = 1 :=
  ⟨no_dead_end 5 _ (by decide +kernel), by decide +kernel⟩

/-- Without a chip the link never comes up, and once the boot has had its half minute neither a rejoin
nor a restart may start. -/
theorem emulator_never_rejoins :
    (∀ st ∈ history (step true) (initial true true 5)
        [.service 0 { outage with txDeadUs := 0 }, .service 30000000 { outage with txDeadUs := 0 }],
      Fits st.pre st.op) ∧
    ¬∀ st ∈ history (step true) (initial true true 5)
        [.service 0 { outage with txDeadUs := 0 }, .service 30000000 { outage with txDeadUs := 0 }],
      NoDeadEnd st := by
  refine ⟨by decide +kernel, fun hall => ?_⟩
  have hlast := (hall _ (List.mem_cons_of_mem _ (List.mem_cons_self ..))).recovers 30000000 _ rfl
  rcases hlast.due (by decide +kernel) (by decide +kernel) (by decide +kernel) (by decide +kernel)
    with ⟨hrestart, -⟩ | ⟨hrejoin, -⟩
  · exact absurd hrestart (by decide +kernel)
  · exact absurd hrejoin (by decide +kernel)

end Pi1MHz.WifiRecovery
