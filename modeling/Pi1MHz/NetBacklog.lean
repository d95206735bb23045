import Pi1MHz.NetOwnership

/-!
# The listener's backlog

A listener remembers an accepted connection by the index of the handle it was given, until the
Beeb collects it.  `Watch` adds to the service what the Beeb has been told: which handles are
its own, which connection a backlog entry was made for, which connections were taken in and
which were reported.
-/

namespace Pi1MHz.Net

variable (cfg : Config)

structure Watch where
  net : Service
  mine : Fin NET_MAX_HANDLES → Bool
  /-- The connection a listener's `accept_h` was set for. -/
  backlog : Fin NET_MAX_HANDLES → Option Nat
  accepted : List Nat
  reported : List Nat

def Watch.boot (rings : Fin NET_MAX_HANDLES → Fin NET_RX_RING_SIZE → UInt8) : Watch :=
  ⟨Service.boot rings, fun _ => false, fun _ => none, [], []⟩

def acceptOf (n : Service) : Event → Option (Fin NET_MAX_HANDLES × Fin NET_MAX_HANDLES × Nat)
  | .tcpAccept lp true _ _ =>
      (n.stack.owner .listen lp).bind fun lh =>
        if (n.h lh).acceptReady then none
        else (firstFree n.h).map fun idx => (lh, idx, n.stack.nextPcb)
  | _ => none

/-- The listener a `listen` command that answers OK was issued on. -/
def reportOf (n : Service) : Event → Option (Fin NET_MAX_HANDLES)
  | .command a jim cp data =>
      match issued cfg jim cp data with
      | some (i, .listen) => if (netDispatch cfg a n jim cp data).1 = .ok then some i else none
      | _ => none
  | _ => none

def openOf : Event → Option (Fin NET_MAX_HANDLES)
  | .command _ jim cp data =>
      match issued cfg jim cp data with
      | some (i, .open) => some i
      | some (i, .urlOpen) => some i
      | _ => none
  | _ => none

def Watch.step (w : Watch) (e : Event) : Watch where
  net := Net.step cfg w.net e
  mine i :=
    if (w.net.h i).state = .free then openOf cfg e = some i
    else w.mine i || (reportOf cfg w.net e).any fun l => (w.net.h l).acceptH = i
  backlog :=
    match acceptOf w.net e with
    | some (lh, _, p) => Function.update w.backlog lh (some p)
    | none => w.backlog
  accepted := w.accepted ++ ((acceptOf w.net e).map fun r => r.2.2).toList
  reported := w.reported ++ ((reportOf cfg w.net e).bind w.backlog).toList

structure Stands (l : Link) (s : Live) (p : Nat) : Prop where
  phase : l.urlPhase ≠ .resolving
  pcb : l.tpcb = some p ∨ l.tpcb = none ∧ l.state = .error ∧ s.pcbs p = none

structure Watch.Waiting (w : Watch) (l : Fin NET_MAX_HANDLES) (p : Nat) : Prop where
  state : (w.net.h l).state = .listening
  ready : (w.net.h l).acceptReady = true
  made : w.backlog l = some p
  stands : Stands (w.net.h (w.net.h l).acceptH).toLink w.net.stack.toLive p

structure KeepsCommand (n : Service) (i : Fin NET_MAX_HANDLES) (a : Answers) (cmd : Command) :
    Prop where
  listener : cmd = .close → (n.h i).acceptReady = false
  /-- A handle that waits in a backlog is not closed, and no query is started on it. -/
  waiting : cmd = .close ∨ cmd = .dns ∧ a.dns = .inProgress → ∀ l, (n.h l).acceptReady = true →
    (n.h l).acceptH ≠ i

def KeepsBacklog (n : Service) : Event → Prop
  | .command a jim cp data =>
      ∀ i cmd, issued cfg jim cp data = some (i, cmd) → KeepsCommand n i a cmd
  | _ => True

instance (n : Service) (i : Fin NET_MAX_HANDLES) (a : Answers) (cmd : Command) :
    Decidable (KeepsCommand n i a cmd) :=
  decidable_of_iff
    ((cmd = .close → (n.h i).acceptReady = false) ∧
      (cmd = .close ∨ cmd = .dns ∧ a.dns = .inProgress → ∀ l, (n.h l).acceptReady = true →
        (n.h l).acceptH ≠ i))
    ⟨fun h => ⟨h.1, h.2⟩, fun h => ⟨h.listener, h.waiting⟩⟩

instance (n : Service) (e : Event) : Decidable (KeepsBacklog cfg n e) :=
  match e with
  | .command a jim cp data =>
      match hiss : issued cfg jim cp data with
      | none => isTrue fun i cmd h => by rw [hiss] at h; cases h
      | some (i, cmd) =>
          decidable_of_iff (KeepsCommand n i a cmd)
            ⟨fun h j cmd' h' => by rw [hiss] at h'; cases h'; exact h, fun h => h i cmd hiss⟩
  | .reset | .udpRecv .. | .tcpRecv .. | .tcpErr _ | .tcpConnected .. | .tcpAccept ..
  | .dnsFound .. => isTrue trivial

/-! ### The invariant -/

structure Watch.Inv (w : Watch) : Prop where
  owned : Owned w.net
  listener : ∀ i, (w.net.h i).state = .listening →
    ∃ p, (w.net.h i).tpcb = some p ∧ w.net.stack.pcbs p = some ⟨.listen, some i⟩
  listens : ∀ i p, w.net.stack.pcbs p = some ⟨.listen, some i⟩ → (w.net.h i).state = .listening
  old : ∀ p ∈ w.accepted, p < w.net.stack.nextPcb
  waiting : ∀ l, (w.net.h l).acceptReady = true →
    w.mine (w.net.h l).acceptH = false ∧ ∃ p ∈ w.accepted, p ∉ w.reported ∧ w.Waiting l p
  apart : ∀ l k, (w.net.h l).acceptReady = true → (w.net.h k).acceptReady = true →
    (w.net.h l).acceptH = (w.net.h k).acceptH ∨ w.backlog l = w.backlog k → l = k
  once : w.reported.Nodup
  told : ∀ p ∈ w.reported, p ∈ w.accepted
  kept : ∀ p ∈ w.accepted, p ∈ w.reported ∨
    (∃ l, (w.net.h l).acceptReady = true ∧ w.backlog l = some p) ∨ w.net.stack.pcbs p = none
  known : ∀ i, (w.net.h i).state ≠ .free → w.mine i = true ∨
    ∃ l, (w.net.h l).acceptReady = true ∧ (w.net.h l).acceptH = i

section

variable {w : Watch} {i : Fin NET_MAX_HANDLES}

theorem Stands.not_free {l : Link} {s : Live} {p : Nat} (h : Stands l s p) (ht : Tidy l) :
    l.state ≠ .free := by
  intro hfree
  rcases h.pcb with hp | ⟨-, herr, -⟩
  · rw [(ht.free hfree).1] at hp
    cases hp
  · rw [hfree] at herr
    cases herr

theorem NoneReused.dead {s t : Live} (h : NoneReused s t) {p : Nat} (hp : p < s.nextPcb)
    (hdead : s.pcbs p = none) : t.pcbs p = none := by
  rcases h p hp with hsame | hnone
  · exact hsame.trans hdead
  · exact hnone

theorem Stands.elsewhere {l : Link} {s t : Live} {p : Nat} (h : Stands l s p)
    (hreuse : NoneReused s t) (hp : p < s.nextPcb) : Stands l t p :=
  ⟨h.phase, h.pcb.imp_right fun ⟨ht, he, hd⟩ => ⟨ht, he, hreuse.dead hp hd⟩⟩

/-- Handle `i` may move to these links without disturbing a backlog. -/
structure Steady (w : Watch) (i : Fin NET_MAX_HANDLES) (m : Link) (t : Live) : Prop where
  ready : m.acceptReady = (w.net.h i).acceptReady
  listener : (w.net.h i).acceptReady = true →
    m.acceptH = (w.net.h i).acceptH ∧ m.state = .listening
  listening : m.state = .listening → ∃ p, m.tpcb = some p ∧ t.pcbs p = some ⟨.listen, some i⟩
  listens : ∀ p, t.pcbs p = some ⟨.listen, some i⟩ → m.state = .listening
  stands : ∀ l, (w.net.h l).acceptReady = true → (w.net.h l).acceptH = i → ∀ p ∈ w.accepted,
    Stands (w.net.h i).toLink w.net.stack.toLive p → Stands m t p

theorem Watch.Inv.move (h : w.Inv) {h' : Handle} {st : Stack} {irq : Bool}
    (hland : Landed i w.net.stack.toLive h'.toLink st.toLive)
    (hsteady : Steady w i h'.toLink st.toLive) {asked : Fin NET_MAX_HANDLES → Bool}
    (hopen : (w.net.h i).state = .free → h'.state = .free ∨ asked i = true) :
    Watch.Inv
      { w with
        net := ⟨Function.update w.net.h i h', irq, st⟩
        mine := fun j => if (w.net.h j).state = .free then asked j else w.mine j } := by
  obtain ⟨hready, hacc, hlis, hpcb, hstands⟩ := hsteady
  have hstep := h.owned.set hland irq
  -- the backlog entries are the same ones
  have hentry : ∀ l, (Function.update w.net.h i h' l).acceptReady = (w.net.h l).acceptReady ∧
      ((w.net.h l).acceptReady = true →
        (Function.update w.net.h i h' l).acceptH = (w.net.h l).acceptH) := by
    intro l
    by_cases hl : l = i
    · subst hl
      rw [Function.update_self]
      exact ⟨hready, fun hr => (hacc hr).1⟩
    · rw [Function.update_of_ne hl]
      exact ⟨rfl, fun _ => rfl⟩
  have hentries : ∀ l, (Function.update w.net.h i h' l).acceptReady = true →
      (w.net.h l).acceptReady = true ∧
        (Function.update w.net.h i h' l).acceptH = (w.net.h l).acceptH := fun l hl =>
    ⟨(hentry l).1 ▸ hl, (hentry l).2 ((hentry l).1 ▸ hl)⟩
  refine ⟨hstep.owned, fun j hj => ?_, fun j p hp => ?_,
    fun p hp => (h.old p hp).trans_le hland.next, fun l hl => ?_, fun l k hl hk heq => ?_, h.once, h.told,
    fun p hp => ?_, fun j hj => ?_⟩
  · by_cases hji : j = i
    · subst hji
      simp only [Function.update_self] at hj ⊢
      exact hlis hj
    · simp only [Function.update_of_ne hji] at hj ⊢
      obtain ⟨p, hp, hpcb⟩ := h.listener j hj
      exact ⟨p, hp, (hland.elsewhere p _ fun he => hji (Option.some.inj he)).mpr hpcb⟩
  · by_cases hji : j = i
    · subst hji
      simpa only [Function.update_self] using hpcb p hp
    · simp only [Function.update_of_ne hji]
      exact h.listens j p ((hland.elsewhere p _ fun he => hji (Option.some.inj he)).mp hp)
  · obtain ⟨hl', hH⟩ := hentries l hl
    obtain ⟨hmine, p, hacc', hrep, hwait⟩ := h.waiting l hl'
    have hnotFree := hwait.stands.not_free (h.owned.tidy _)
    refine ⟨?_, p, hacc', hrep, ?_, hl, hwait.made, ?_⟩
    · simp only [hH, if_neg hnotFree, hmine]
    · by_cases hli : l = i
      · subst hli
        simp only [Function.update_self]
        exact (hacc hl').2
      · simp only [Function.update_of_ne hli]
        exact hwait.state
    · simp only [hH]
      by_cases hji : (w.net.h l).acceptH = i
      · rw [hji, Function.update_self]
        exact hstands l hl' hji p hacc' (hji ▸ hwait.stands)
      · rw [Function.update_of_ne hji]
        exact hwait.stands.elsewhere hland.noneReused (h.old p hacc')
  · obtain ⟨hl', hHl⟩ := hentries l hl
    obtain ⟨hk', hHk⟩ := hentries k hk
    refine h.apart l k hl' hk' ?_
    simpa only [hHl, hHk] using heq
  · rcases h.kept p hp with hrep | ⟨l, hl, hb⟩ | hdead
    · exact .inl hrep
    · exact .inr (.inl ⟨l, (hentry l).1.trans hl, hb⟩)
    · exact .inr (.inr (hland.noneReused.dead (h.old p hp) hdead))
  · dsimp only at hj ⊢
    split
    · next hfree =>
      by_cases hji : j = i
      · subst hji
        rw [Function.update_self] at hj
        exact .inl ((hopen hfree).resolve_left hj)
      · rw [Function.update_of_ne hji] at hj
        exact absurd hfree hj
    · next hfree =>
      rcases h.known j hfree with hmine | ⟨l, hl, hH⟩
      · exact .inl hmine
      · exact .inr ⟨l, (hentry l).1.trans hl, ((hentry l).2 hl).trans hH⟩

/-! ### Commands -/

structure Uninvolved (w : Watch) (i : Fin NET_MAX_HANDLES) : Prop where
  listener : (w.net.h i).acceptReady = false
  waiting : ∀ l, (w.net.h l).acceptReady = true → (w.net.h l).acceptH ≠ i

/-- No listener calls back with handle `i`. -/
def NoListener (i : Fin NET_MAX_HANDLES) (s : Live) : Prop :=
  ∀ p, s.pcbs p ≠ some ⟨.listen, some i⟩

theorem Owns.noListener {l : Link} {s : Live} (h : Owns i l s) (htp : l.tpcb = none) :
    NoListener i s := by
  intro p hp
  rcases h.known p _ hp with ht | hu
  · rw [htp] at ht
    cases ht
  · rw [h.udp p hu] at hp
    cases hp

theorem NoListener.add {s : Live} (h : NoListener i s) {k : PcbKind} (hk : k ≠ .listen)
    (o : Option (Fin NET_MAX_HANDLES)) : NoListener i (s.add ⟨k, o⟩) := by
  intro p hp
  rw [add_pcbs, Function.update_apply] at hp
  split at hp
  · cases hp
    exact hk rfl
  · exact h p hp

theorem NoListener.free {s : Live} (h : NoListener i s) (q : Nat) : NoListener i (s.free q) := by
  intro p hp
  rw [free_pcbs, Function.update_apply] at hp
  split at hp
  · cases hp
  · exact h p hp

theorem NoListener.freeAll {s : Live} (h : NoListener i s) (o : Option Nat) :
    NoListener i (s.freeAll o) := by
  cases o with
  | none => exact h
  | some q => exact h.free q

theorem Uninvolved.steady (h : Uninvolved w i) {m : Link} {t : Live} (hready : m.acceptReady = false)
    (hlis : m.state ≠ .listening) (hno : NoListener i t) : Steady w i m t :=
  ⟨hready.trans h.listener.symm, fun hr => absurd (h.listener ▸ hr) nofun,
    fun hl => absurd hl hlis, fun p hp => absurd hp (hno p),
    fun l hl hi => absurd hi (h.waiting l hl)⟩

theorem Watch.Inv.steady (h : w.Inv) {m : Link} {t : Live}
    (hready : m.acceptReady = (w.net.h i).acceptReady) (hH : m.acceptH = (w.net.h i).acceptH)
    (hstate : m.state = (w.net.h i).state) (htp : m.tpcb = (w.net.h i).tpcb)
    (hphase : m.urlPhase = .resolving → (w.net.h i).urlPhase = .resolving)
    (hpcbs : t.pcbs = w.net.stack.pcbs) : Steady w i m t where
  ready := hready
  listener := fun hr => by
    obtain ⟨-, p, -, -, hwait⟩ := h.waiting i hr
    exact ⟨hH, hstate.trans hwait.state⟩
  listening := fun hl => by
    rw [htp, hpcbs]
    exact h.listener i (hstate ▸ hl)
  listens := fun p hp => hstate.trans (h.listens i p (hpcbs ▸ hp))
  stands := fun _ _ _ p _ hs => by
    refine ⟨fun hp => hs.phase (hphase hp), ?_⟩
    rw [htp, hstate, hpcbs]
    exact hs.pcb

theorem Watch.Inv.uninvolved_of_detached (h : w.Inv) (htp : (w.net.h i).tpcb = none)
    (hout : (w.net.h i).state ≠ .error ∨ (w.net.h i).urlPhase = .resolving ∨
      ∀ l, (w.net.h l).acceptReady = true → (w.net.h l).acceptH ≠ i) : Uninvolved w i := by
  constructor
  · by_contra hr
    obtain ⟨-, p, -, -, hwait⟩ := h.waiting i (by simpa using hr)
    obtain ⟨q, hq, -⟩ := h.listener i hwait.state
    rw [htp] at hq
    cases hq
  · intro l hl hi
    obtain ⟨-, p, -, -, hwait⟩ := h.waiting l hl
    have hstands := hwait.stands
    rw [hi] at hstands
    rcases hout with hstate | hphase | hnot
    · rcases hstands.pcb with hp | ⟨-, herr, -⟩
      · rw [htp] at hp
        cases hp
      · exact hstate herr
    · exact hstands.phase hphase
    · exact hnot l hl hi

theorem Watch.Inv.uninvolved_of_free (h : w.Inv) (hfree : (w.net.h i).state = .free) :
    Uninvolved w i :=
  h.uninvolved_of_detached ((h.owned.tidy i).free hfree).1 (.inl (by rw [hfree]; nofun))

variable (base : Nat) (a : Answers) (jim : Jim) (cp : Nat)

/-- Handle `i` as a command finds it. -/
abbrev Watch.ctx (w : Watch) (i : Fin NET_MAX_HANDLES) (jim : Jim) : Ctx :=
  ⟨jim, w.net.h i, w.net.stack⟩

abbrev SteadyCtx (w : Watch) (i : Fin NET_MAX_HANDLES) (c : Ctx) : Prop :=
  Steady w i c.h.toLink c.stack.toLive

theorem SameLink.steady (h : w.Inv) {c : Ctx} (hs : SameLink (w.ctx i jim) c) :
    SteadyCtx w i c := by
  obtain ⟨hl, hv⟩ := hs
  unfold SteadyCtx
  rw [hl, hv]
  exact h.steady rfl rfl rfl rfl id rfl

theorem doOpen_steady (h : w.Inv) : SteadyCtx w i (doOpen a i cp (w.ctx i jim)).2 := by
  rcases doOpen_cases a i cp (w.ctx i jim) with hsame | ⟨hfree, -, hcase⟩
  · exact SameLink.steady jim h hsame
  have hno := (h.owned.owns i).noListener ((h.owned.tidy i).free hfree).1
  have hun := h.uninvolved_of_free hfree
  unfold SteadyCtx
  rcases hcase with ⟨hl, hs⟩ | ⟨hl, hs⟩ | ⟨hl, hs⟩
  · rw [hl, hs]
    exact hun.steady rfl nofun hno
  · rw [hl, hs]
    exact hun.steady rfl nofun (hno.add (by decide) _)
  · rw [hl, hs]
    exact hun.steady rfl nofun hno

theorem Watch.Inv.uninvolved_of_idle (h : w.Inv) (htype : (w.net.h i).type = .tcp)
    (hidle : (w.net.h i).state = .idle) :
    Uninvolved w i ∧ NoListener i w.net.stack.toLive ∧ (w.net.h i).tpcb = none := by
  have htp : (w.net.h i).tpcb = none := (h.owned.tidy i).idle hidle htype
  exact ⟨h.uninvolved_of_detached htp (.inl (by rw [hidle]; nofun)),
    (h.owned.owns i).noListener htp, htp⟩

theorem doListen_steady (h : w.Inv) (hnot : (doListen a i cp (w.ctx i jim)).1 ≠ .ok) :
    SteadyCtx w i (doListen a i cp (w.ctx i jim)).2 := by
  rcases doListen_cases a i cp (w.ctx i jim) with
    ⟨-, hsame⟩ | ⟨-, -, hok, -⟩ | ⟨-, htype, hidle, hcase⟩
  · exact SameLink.steady jim h hsame
  · exact absurd hok hnot
  have hidle : (w.net.h i).state = .idle := hidle
  obtain ⟨hun, hno, -⟩ := h.uninvolved_of_idle htype hidle
  unfold SteadyCtx
  rcases hcase with ⟨hl, hs⟩ | ⟨hl, hs⟩
  · rw [hl, hs]
    exact ⟨rfl, fun hr => absurd (hun.listener ▸ hr) nofun,
      fun _ => ⟨_, rfl, Function.update_self ..⟩, fun _ _ => rfl,
      fun l hl hi => absurd hi (hun.waiting l hl)⟩
  · have hstate : ((doListen a i cp (w.ctx i jim)).2.h).state ≠ .listening ∧
        (doListen a i cp (w.ctx i jim)).2.h.acceptReady = false := by
      rcases hl with hl | hl
      all_goals
        rw [hl]
        exact ⟨by rw [hidle]; nofun, hun.listener⟩
    rw [hs]
    exact hun.steady hstate.2 hstate.1 ((hno.add (by decide) _).free _)

theorem doDns_steady (h : w.Inv) (hord : OrderlyCommand a (w.net.h i).toLink .dns)
    (hkeep : KeepsCommand w.net i a .dns) :
    SteadyCtx w i (doDns base a i cp (w.ctx i jim)).2 := by
  rcases doDns_cases base a i cp (w.ctx i jim) with ⟨hsame, -⟩ | ⟨-, -, -, hl, hs, -⟩ |
    ⟨-, hres, hdone, name, -, ⟨ip, -, -, hl, hs⟩ | ⟨hdns, -, hl, hs⟩⟩
  · exact SameLink.steady jim h hsame
  · unfold SteadyCtx
    rw [hl, hs]
    exact h.steady rfl rfl rfl rfl id rfl
  · unfold SteadyCtx
    rw [hl, hs]
    exact h.steady rfl rfl rfl rfl id rfl
  · have htp := hord.dns rfl hdns hres hdone
    have hun := h.uninvolved_of_detached htp (.inr (.inr (hkeep.waiting (.inr ⟨rfl, hdns⟩))))
    unfold SteadyCtx
    rw [hl, hs]
    exact hun.steady hun.listener nofun ((h.owned.owns i).noListener htp)

theorem doConnect_steady (h : w.Inv) : SteadyCtx w i (doConnect a i cp (w.ctx i jim)).2 := by
  rcases doConnect_cases a i cp (w.ctx i jim) with hsame | ⟨htype, hidle, ip, port, hh, hs⟩
  · exact SameLink.steady jim h hsame
  have hidle : (w.net.h i).state = .idle := hidle
  obtain ⟨hun, hno, -⟩ := h.uninvolved_of_idle htype hidle
  unfold SteadyCtx
  rw [hh, hs]
  rcases netStartConnect_cases a i { w.net.h i with remoteIp := ip, remotePort := port }
    w.net.stack with ⟨-, hl, hs⟩ | ⟨-, hl, hs⟩ | ⟨-, hl, hs⟩
  · rw [hl, hs]
    refine hun.steady hun.listener ?_ hno
    change (w.net.h i).state ≠ .listening
    rw [hidle]
    nofun
  · rw [hl, hs]
    exact hun.steady hun.listener nofun (((hno.add (by decide) _).free _).freeAll _)
  · rw [hl, hs]
    exact hun.steady hun.listener nofun (hno.add (by decide) _)

theorem doClose_steady (h : w.Inv) (hkeep : KeepsCommand w.net i a .close) :
    SteadyCtx w i (doClose a (w.ctx i jim)).2 := by
  have hland := doClose_landed (c := w.ctx i jim) a (h.owned.owns i) (h.owned.tidy i)
  unfold LandedCtx at hland
  unfold SteadyCtx
  rcases doClose_cases a (w.ctx i jim) with ⟨-, hl, hs⟩ | ⟨-, hl, hs⟩
  · rw [hl, hs]
    exact h.steady rfl rfl rfl rfl nofun rfl
  · rw [hl] at hland ⊢
    exact Uninvolved.steady ⟨hkeep.listener rfl, hkeep.waiting (.inl rfl)⟩ rfl nofun
      (hland.owns.noListener rfl)

theorem Uninvolved.steady_afterResolve (h : Uninvolved w i)
    (hfresh : w.net.stack.toLive.Fresh) (hno : NoListener i w.net.stack.toLive) {g : Handle}
    (htp : g.tpcb = none) (hup : g.upcb = none) (hready : g.acceptReady = false)
    (hidle : g.state = .idle) :
    Steady w i (urlAfterResolve a i g w.net.stack).2.1.toLink
      (urlAfterResolve a i g w.net.stack).2.2.toLive := by
  rcases urlAfterResolve_cases a i g w.net.stack htp hup with
    ⟨⟨st, hst, hl⟩, hs⟩ | ⟨ty, ph, -, -, hl, hs⟩ | ⟨hl, hs⟩
  · rw [hl]
    refine h.steady hready ?_ ?_
    · change st ≠ .listening
      rcases hst with rfl | rfl
      · rw [hidle]
        nofun
      · nofun
    · rcases hs with hs | ⟨k, hs⟩
      · rw [hs]
        exact hno
      · intro p
        rw [hs, add_free_pcbs hfresh]
        exact hno p
  · rw [hl, hs]
    exact h.steady hready nofun (hno.add (by decide) _)
  · rw [hl, hs]
    exact h.steady hready nofun (hno.add (by decide) _)

theorem doUrlOpen_steady (h : w.Inv) (hord : OrderlyCommand a (w.net.h i).toLink .urlOpen) :
    SteadyCtx w i (doUrlOpen base a i cp (w.ctx i jim)).2 := by
  unfold SteadyCtx
  rcases doUrlOpen_cases base a i cp (w.ctx i jim) with ⟨⟨ph, hph, hl⟩, hs⟩ |
    ⟨r, ⟨hfree, hatt⟩, hr⟩ | ⟨hfree, u, mode, hcase⟩ | ⟨hphase, hdone, hcase⟩
  · rw [hl, hs]
    refine h.steady rfl rfl rfl rfl (fun hres => ?_) rfl
    have hres : ph = .resolving := hres
    rcases hph with rfl | rfl | rfl | rfl
    · exact hres
    all_goals cases hres
  · obtain ⟨u, mode, ip, ip', -, rfl⟩ := hatt
    have hno := (h.owned.owns i).noListener ((h.owned.tidy i).free hfree).1
    rw [hr]
    exact (h.uninvolved_of_free hfree).steady_afterResolve a (h.owned.owns i).fresh hno rfl rfl
      rfl rfl
  · have hno := (h.owned.owns i).noListener ((h.owned.tidy i).free hfree).1
    have hun := h.uninvolved_of_free hfree
    rcases hcase with ⟨hl, hs⟩ | ⟨hl, hs⟩
    · rw [hl, hs]
      exact hun.steady rfl nofun hno
    · rw [hl, hs]
      exact hun.steady rfl nofun hno
  · rcases hcase with ⟨hl, hs⟩ | ⟨hok, r, rfl, hr⟩
    · rw [hl, hs]
      exact h.steady rfl rfl rfl rfl nofun rfl
    · have htp := hord.urlOpen rfl hphase hdone hok
      have hun := h.uninvolved_of_detached htp (.inr (.inl hphase))
      rw [hr]
      exact hun.steady_afterResolve a (h.owned.owns i).fresh ((h.owned.owns i).noListener htp) htp
        ((h.owned.tidy i).url hphase) hun.listener rfl

theorem runCommand_steady (h : w.Inv) {cmd : Command}
    (hord : OrderlyCommand a (w.net.h i).toLink cmd) (hkeep : KeepsCommand w.net i a cmd)
    (hnot : cmd = .listen → (runCommand base a i cp (w.ctx i jim) cmd).1 ≠ .ok) :
    SteadyCtx w i (runCommand base a i cp (w.ctx i jim) cmd).2 := by
  cases cmd with
  | «open» => exact doOpen_steady a jim cp h
  | dns => exact doDns_steady base a jim cp h hord hkeep
  | connect => exact doConnect_steady a jim cp h
  | listen => exact doListen_steady a jim cp h (hnot rfl)
  | close => exact doClose_steady a jim h hkeep
  | urlOpen => exact doUrlOpen_steady base a jim cp h hord
  | _ => exact SameLink.steady jim h (runCommand_quiet base a i cp (w.ctx i jim) rfl)

/-! ### A report -/

theorem Watch.Inv.report (h : w.Inv) {h' : Handle} {st : Stack} {irq : Bool}
    (hready : (w.net.h i).acceptReady = true)
    (hlink : h'.toLink = { (w.net.h i).toLink with acceptReady := false })
    (hlive : st.toLive = w.net.stack.toLive) :
    Watch.Inv
      { net := ⟨Function.update w.net.h i h', irq, st⟩
        mine := fun j => if (w.net.h j).state = .free then false
          else w.mine j || decide ((w.net.h i).acceptH = j)
        backlog := w.backlog
        accepted := w.accepted
        reported := w.reported ++ (w.backlog i).toList } := by
  obtain ⟨-, p, hacc, hrep, hwait⟩ := h.waiting i hready
  have htidy := h.owned.tidy i
  have hstep : StepOk w.net ⟨Function.update w.net.h i h', irq, st⟩ := by
    refine h.owned.set ?_ irq
    rw [hlink, hlive]
    exact (h.owned.owns i).keep rfl rfl { htidy with } rfl
      le_rfl
  have hself : (Function.update w.net.h i h' i).toLink =
      { (w.net.h i).toLink with acceptReady := false } := by
    rw [Function.update_self]
    exact hlink
  -- the other links, and of this one all but the flag, are untouched
  have hstate : ∀ j, (Function.update w.net.h i h' j).state = (w.net.h j).state ∧
      (Function.update w.net.h i h' j).tpcb = (w.net.h j).tpcb ∧
      (Function.update w.net.h i h' j).acceptH = (w.net.h j).acceptH ∧
      (Function.update w.net.h i h' j).urlPhase = (w.net.h j).urlPhase := by
    intro j
    by_cases hj : j = i
    · subst hj
      rw [hself]
      exact ⟨rfl, rfl, rfl, rfl⟩
    · rw [Function.update_of_ne hj]
      exact ⟨rfl, rfl, rfl, rfl⟩
  have hflag : ∀ l, (Function.update w.net.h i h' l).acceptReady = true →
      l ≠ i ∧ (w.net.h l).acceptReady = true := by
    intro l hl
    by_cases hli : l = i
    · subst hli
      rw [hself] at hl
      cases hl
    · rw [Function.update_of_ne hli] at hl
      exact ⟨hli, hl⟩
  have hpcbs : st.pcbs = w.net.stack.pcbs := by rw [hlive]
  have hnext : st.nextPcb = w.net.stack.nextPcb := by rw [hlive]
  have hmade : (w.backlog i).toList = [p] := by rw [hwait.made]; rfl
  simp only [hmade]
  refine ⟨hstep.owned, fun j hj => ?_, fun j q hq => ?_, fun q hq => ?_, fun l hl => ?_,
    fun l k hl hk heq => ?_, ?_, fun q hq => ?_, fun q hq => ?_, fun j hj => ?_⟩
  · dsimp only at hj ⊢
    rw [(hstate j).1] at hj
    rw [(hstate j).2.1, hpcbs]
    exact h.listener j hj
  · dsimp only at hq ⊢
    rw [(hstate j).1]
    exact h.listens j q (hpcbs ▸ hq)
  · dsimp only
    rw [hnext]
    exact h.old q hq
  · obtain ⟨hli, hl'⟩ := hflag l hl
    obtain ⟨hmine, q, hqacc, hqrep, hqwait⟩ := h.waiting l hl'
    have hnotFree := hqwait.stands.not_free (h.owned.tidy _)
    have hne : (w.net.h i).acceptH ≠ (w.net.h l).acceptH := fun he =>
      hli (h.apart l i hl' hready (.inl he.symm))
    have hqp : q ≠ p := fun he => hli (h.apart l i hl' hready
      (.inr (by rw [hqwait.made, hwait.made, he])))
    refine ⟨?_, q, hqacc, ?_, (hstate l).1.trans hqwait.state, hl, hqwait.made, ?_⟩
    · dsimp only
      rw [(hstate l).2.2.1, if_neg hnotFree, hmine]
      simpa using hne
    · simpa using ⟨hqrep, hqp⟩
    · dsimp only
      rw [(hstate l).2.2.1]
      refine ⟨?_, ?_⟩
      · rw [(hstate _).2.2.2]
        exact hqwait.stands.phase
      · rw [(hstate _).2.1, (hstate _).1, hpcbs]
        exact hqwait.stands.pcb
  · obtain ⟨-, hl'⟩ := hflag l hl
    obtain ⟨-, hk'⟩ := hflag k hk
    dsimp only at heq
    rw [(hstate l).2.2.1, (hstate k).2.2.1] at heq
    exact h.apart l k hl' hk' heq
  · exact List.nodup_append.mpr ⟨h.once, by simp, fun x hx y hy => by
      rw [List.mem_singleton.mp hy]
      exact fun hxp => hrep (hxp ▸ hx)⟩
  · rcases List.mem_append.mp hq with hq | hq
    · exact h.told q hq
    · exact List.mem_singleton.mp hq ▸ hacc
  · rcases h.kept q hq with hq' | ⟨l, hl, hb⟩ | hdead
    · exact .inl (List.mem_append_left _ hq')
    · by_cases hli : l = i
      · subst hli
        rw [hwait.made, Option.some.injEq] at hb
        exact .inl (List.mem_append_right _ (List.mem_singleton.mpr hb.symm))
      · refine .inr (.inl ⟨l, ?_, hb⟩)
        dsimp only
        rw [Function.update_of_ne hli]
        exact hl
    · exact .inr (.inr (by dsimp only; rw [hpcbs]; exact hdead))
  · dsimp only at hj ⊢
    rw [(hstate j).1] at hj
    rw [if_neg hj]
    rcases h.known j hj with hmine | ⟨l, hl, hH⟩
    · exact .inl (by rw [hmine]; rfl)
    · by_cases hli : l = i
      · subst hli
        exact .inl (by rw [hH]; simp)
      · refine .inr ⟨l, ?_, (hstate l).2.2.1.trans hH⟩
        rw [Function.update_of_ne hli]
        exact hl

/-! ### An accept -/

theorem Watch.Inv.accept (h : w.Inv) {lh idx : Fin NET_MAX_HANDLES} {lp : Nat} (ip : Ip)
    (port : UInt16) (hlp : w.net.stack.owner .listen lp = some lh)
    (hready : (w.net.h lh).acceptReady = false) (hidx : firstFree w.net.h = some idx) :
    Watch.Inv
      { net := netTcpAccept w.net lh ip port
        mine := fun j => if (w.net.h j).state = .free then false else w.mine j
        backlog := Function.update w.backlog lh (some w.net.stack.nextPcb)
        accepted := w.accepted ++ [w.net.stack.nextPcb]
        reported := w.reported } := by
  have hok := netTcpAccept_ok h.owned lh ip port
  have hfree := firstFree_free hidx
  have hun := h.uninvolved_of_free hfree
  have hlistening := h.listens lh lp (owner_eq hlp)
  have hne : lh ≠ idx := fun he => by
    rw [he, hfree] at hlistening
    cases hlistening
  rcases netTcpAccept_cases w.net lh ip port with ⟨-, hbusy | hfull⟩ |
    ⟨idx', -, hidx', n₁, rfl, hn⟩
  · rw [hready] at hbusy
    cases hbusy
  · rw [hidx] at hfull
    cases hfull
  rw [hidx, Option.some.injEq] at hidx'
  subst hidx'
  dsimp only at hn
  rw [hn] at hok ⊢
  generalize hh : Function.update _ lh _ = hs at hok ⊢
  -- the new handle, the listener and the rest
  have hnew : hs idx = acceptedHandle (w.net.h idx) w.net.stack.nextPcb ip port := by
    rw [← hh, Function.update_of_ne hne.symm, Function.update_self]
  have hlis : hs lh = { w.net.h lh with acceptReady := true, acceptH := idx } := by
    rw [← hh, Function.update_self, Function.update_of_ne hne]
  have hrest : ∀ j, j ≠ lh → j ≠ idx → hs j = w.net.h j := fun j hj hj' => by
    rw [← hh, Function.update_of_ne hj, Function.update_of_ne hj']
  have hlink : ∀ j, j ≠ idx → (hs j).state = (w.net.h j).state ∧ (hs j).tpcb = (w.net.h j).tpcb ∧
      (hs j).urlPhase = (w.net.h j).urlPhase := by
    intro j hj
    by_cases hjl : j = lh
    · rw [hjl, hlis]
      exact ⟨rfl, rfl, rfl⟩
    · rw [hrest j hjl hj]
      exact ⟨rfl, rfl, rfl⟩
  have hflag : ∀ l, (hs l).acceptReady = true → l = lh ∨
      l ≠ lh ∧ hs l = w.net.h l ∧ (w.net.h l).acceptReady = true := by
    intro l hl
    by_cases hll : l = lh
    · exact .inl hll
    · by_cases hli : l = idx
      · rw [hli, hnew] at hl
        cases hl
      · exact .inr ⟨hll, hrest l hll hli, hrest l hll hli ▸ hl⟩
  have hkeep : ∀ l, (w.net.h l).acceptReady = true → l ≠ lh ∧ hs l = w.net.h l := by
    intro l hl
    have hll : l ≠ lh := fun he => by
      rw [he, hready] at hl
      cases hl
    refine ⟨hll, hrest l hll fun he => ?_⟩
    rw [he, hun.listener] at hl
    cases hl
  have hother : ∀ l p, w.backlog l = some p → l ≠ lh →
      Function.update w.backlog lh (some w.net.stack.nextPcb) l = some p := fun l p hb hl => by
    rw [Function.update_of_ne hl, hb]
  have hpcbs : ∀ q, q ≠ w.net.stack.nextPcb →
      (w.net.stack.add ⟨.tcp, some idx⟩).pcbs q = w.net.stack.pcbs q := fun q hq =>
    Function.update_of_ne hq ..
  refine ⟨hok.owned, fun j hj => ?_, fun j q hq => ?_, fun q hq => ?_, fun l hl => ?_,
    fun l k hl hk heq => ?_, h.once, fun q hq => ?_, fun q hq => ?_, fun j hj => ?_⟩
  · have hj' : j ≠ idx := fun he => by
      rw [he] at hj
      dsimp only at hj
      rw [hnew] at hj
      cases hj
    dsimp only at hj ⊢
    rw [(hlink j hj').1] at hj
    obtain ⟨p, hp, hpcb⟩ := h.listener j hj
    refine ⟨p, (hlink j hj').2.1.trans hp, ?_⟩
    rw [hpcbs p ((h.owned.owns j).lt (.inl hp)).ne]
    exact hpcb
  · dsimp only at hq ⊢
    by_cases hqn : q = w.net.stack.nextPcb
    · rw [hqn] at hq
      cases (Function.update_self w.net.stack.nextPcb _ w.net.stack.pcbs).symm.trans hq
    · rw [hpcbs q hqn] at hq
      have hj := h.listens j q hq
      have hj' : j ≠ idx := fun he => by
        rw [he, hfree] at hj
        cases hj
      exact (hlink j hj').1.trans hj
  · rcases List.mem_append.mp hq with hq | hq
    · exact Nat.lt_succ_of_lt (h.old q hq)
    · rw [List.mem_singleton.mp hq]
      exact Nat.lt_succ_self _
  · rcases hflag l hl with rfl | ⟨hll, hsame, hl'⟩
    · have hH : (hs l).acceptH = idx := by rw [hlis]
      refine ⟨?_, w.net.stack.nextPcb, by simp, ?_, (hlink l hne).1.trans hlistening, hl,
        Function.update_self .., ?_⟩
      · dsimp only
        rw [hH, if_pos hfree]
      · exact fun hrep => (h.old _ (h.told _ hrep)).ne rfl
      · dsimp only
        rw [hH, hnew]
        exact ⟨nofun, .inl rfl⟩
    · obtain ⟨hmine, p, hacc, hrep, hwait⟩ := h.waiting l hl'
      have hnotFree := hwait.stands.not_free (h.owned.tidy _)
      have hnotIdx := hun.waiting l hl'
      have hstands := hwait.stands.elsewhere hok.noneReused (h.old p hacc)
      have hH : (hs l).acceptH = (w.net.h l).acceptH := by rw [hsame]
      refine ⟨?_, p, List.mem_append_left _ hacc, hrep, ?_, hl, hother l p hwait.made hll, ?_⟩
      · dsimp only
        rw [hH, if_neg hnotFree, hmine]
      · dsimp only
        rw [hsame]
        exact hwait.state
      · obtain ⟨hstate, htp, hphase⟩ := hlink _ hnotIdx
        dsimp only
        rw [hH]
        refine ⟨hphase ▸ hstands.phase, ?_⟩
        rw [htp, hstate]
        exact hstands.pcb
  · dsimp only at hl hk heq
    have hnotNew : ∀ k, k ≠ lh → hs k = w.net.h k → (w.net.h k).acceptReady = true →
        ¬ (idx = (hs k).acceptH ∨ some w.net.stack.nextPcb = w.backlog k) := by
      intro k _ hsame hk
      obtain ⟨-, p, hacc, -, hwait⟩ := h.waiting k hk
      rw [hsame, hwait.made, Option.some.injEq]
      exact not_or.mpr ⟨(hun.waiting k hk).symm, (h.old p hacc).ne'⟩
    rcases hflag l hl with rfl | ⟨hll, hsame, hl'⟩
    · rcases hflag k hk with rfl | ⟨hkk, hsame', hk'⟩
      · rfl
      · rw [Function.update_self, Function.update_of_ne hkk, hlis] at heq
        exact absurd heq (hnotNew k hkk hsame' hk')
    · rcases hflag k hk with rfl | ⟨hkk, hsame', hk'⟩
      · rw [Function.update_self, Function.update_of_ne hll, hlis] at heq
        exact absurd (heq.imp Eq.symm Eq.symm) (hnotNew l hll hsame hl')
      · rw [Function.update_of_ne hll, Function.update_of_ne hkk, hsame, hsame'] at heq
        exact h.apart l k hl' hk' heq
  · exact List.mem_append_left _ (h.told q hq)
  · rcases List.mem_append.mp hq with hq | hq
    · rcases h.kept q hq with hrep | ⟨l, hl, hb⟩ | hdead
      · exact .inl hrep
      · obtain ⟨hll, hsame⟩ := hkeep l hl
        refine .inr (.inl ⟨l, ?_, hother l q hb hll⟩)
        dsimp only
        rw [hsame]
        exact hl
      · exact .inr (.inr (hok.noneReused.dead (h.old q hq) hdead))
    · rw [List.mem_singleton.mp hq]
      refine .inr (.inl ⟨lh, ?_, Function.update_self ..⟩)
      dsimp only
      rw [hlis]
  · dsimp only at hj ⊢
    by_cases hji : j = idx
    · exact .inr ⟨lh, by rw [hlis], by rw [hlis, hji]⟩
    · rw [(hlink j hji).1] at hj
      rw [if_neg hj]
      refine (h.known j hj).imp_right fun ⟨l, hl, hH⟩ => ?_
      obtain ⟨-, hsame⟩ := hkeep l hl
      exact ⟨l, by rw [hsame]; exact hl, by rw [hsame]; exact hH⟩

/-! ### Other steps -/

theorem Watch.Inv.stay (h : w.Inv) (st : Stack) (hpcbs : st.pcbs = w.net.stack.pcbs)
    (hnext : w.net.stack.nextPcb ≤ st.nextPcb) (asked : Fin NET_MAX_HANDLES → Bool) :
    Watch.Inv
      { w with
        net := { w.net with stack := st }
        mine := fun j => if (w.net.h j).state = .free then asked j else w.mine j } := by
  have hmove : Watch.Inv
      { w with
        net := ⟨Function.update w.net.h 0 (w.net.h 0), w.net.irqArmed, st⟩
        mine := fun j => if (w.net.h j).state = .free then asked j else w.mine j } :=
    h.move ((h.owned.owns 0).keep rfl rfl (h.owned.tidy 0) hpcbs hnext)
      (h.steady rfl rfl rfl rfl id hpcbs) .inl
  rwa [Function.update_eq_self] at hmove

theorem Watch.Inv.reset (h : w.Inv) (asked : Fin NET_MAX_HANDLES → Bool) :
    Watch.Inv
      { w with
        net := resetAll w.net
        mine := fun j => if (w.net.h j).state = .free then asked j else w.mine j } := by
  have hdead := resetAll_dead h.owned
  have hnext : (resetAll w.net).stack.nextPcb = w.net.stack.nextPcb :=
    (releaseAll_pcbs w.net.h (List.finRange NET_MAX_HANDLES) w.net.stack 0).2.2
  refine ⟨(resetAll_ok h.owned).owned, nofun, fun j p hp => ?_, fun p hp => ?_, nofun, nofun,
    h.once, h.told, fun p _ => .inr (.inr (hdead p)), fun j hj => absurd rfl hj⟩
  · dsimp only at hp
    rw [hdead p] at hp
    cases hp
  · dsimp only
    rw [hnext]
    exact h.old p hp

theorem Watch.Inv.of_tcp (h : w.Inv) {p : Nat} (hp : w.net.stack.owner .tcp p = some i) :
    (w.net.h i).tpcb = some p ∧ (w.net.h i).state ≠ .listening ∧
      (w.net.h i).acceptReady = false ∧ NoListener i w.net.stack.toLive := by
  have hpcb := owner_eq hp
  have howns := h.owned.owns i
  have htp : (w.net.h i).tpcb = some p := by
    refine (howns.known p _ hpcb).resolve_right fun hu => ?_
    have hudp := howns.udp p hu
    rw [hpcb] at hudp
    cases hudp
  have hstate : (w.net.h i).state ≠ .listening := fun hl => by
    obtain ⟨q, hq, hlis⟩ := h.listener i hl
    rw [htp, Option.some.injEq] at hq
    rw [← hq, hpcb] at hlis
    cases hlis
  refine ⟨htp, hstate, ?_, fun q hq => hstate (h.listens i q hq)⟩
  by_contra hready
  obtain ⟨-, q, -, -, hwait⟩ := h.waiting i (by simpa using hready)
  exact hstate hwait.state

theorem Watch.Inv.tcp_steady (h : w.Inv) {p : Nat} (hp : w.net.stack.owner .tcp p = some i)
    {m : Link} {t : Live} (hready : m.acceptReady = (w.net.h i).acceptReady)
    (hphase : m.urlPhase = (w.net.h i).urlPhase) (hstate : m.state ≠ .listening)
    (hno : NoListener i t)
    (hpcb : m.tpcb = some p ∨ m.tpcb = none ∧ m.state = .error ∧ t.pcbs p = none) :
    Steady w i m t := by
  obtain ⟨htp, -, hnot, -⟩ := h.of_tcp hp
  refine ⟨hready, fun hr => ?_, fun hl => absurd hl hstate, fun q hq => absurd hq (hno q),
    fun _ _ _ q _ hs => ⟨by rw [hphase]; exact hs.phase, ?_⟩⟩
  · rw [hnot] at hr
    cases hr
  · rcases hs.pcb with hq | ⟨hnone, -⟩
    · rw [htp, Option.some.injEq] at hq
      exact hq ▸ hpcb
    · rw [htp] at hnone
      cases hnone

def Event.single : Event → Bool
  | .command .. | .reset | .tcpAccept .. => false
  | _ => true

theorem step_callback_inv (h : w.Inv) {e : Event} (he : e.single = true)
    (asked : Fin NET_MAX_HANDLES → Bool) :
    Watch.Inv
      { w with
        net := Net.step cfg w.net e
        mine := fun j => if (w.net.h j).state = .free then asked j else w.mine j } := by
  have hstay := h.stay w.net.stack rfl le_rfl asked
  cases e with
  | command a jim cp data => cases he
  | reset => cases he
  | tcpAccept lp ok ip port => cases he
  | udpRecv p d addr port =>
    simp only [Net.step]
    split
    · exact hstay
    · next i _ =>
      have hlink := link_netUdpRecv (w.net.h i) d addr port
      refine h.move ?_ ?_ fun hf => .inl ?_
      · rw [hlink]
        exact (h.owned.owns i).keep rfl rfl (h.owned.tidy i) rfl le_rfl
      · rw [hlink]
        exact h.steady rfl rfl rfl rfl id rfl
      · rw [hlink]
        exact hf
  | tcpRecv a p seg ok =>
    simp only [Net.step]
    split
    · exact hstay
    · next i hp =>
      obtain ⟨htp, hstate, -, hno⟩ := h.of_tcp hp
      obtain ⟨hlink, hlive⟩ := netTcpRecv_frame a (w.net.h i) w.net.stack seg ok
      have htidy := h.owned.tidy i
      refine h.move ?_ ?_ fun hf => ?_
      · rw [hlink, hlive]
        cases ok with
        | true => exact (h.owned.owns i).keep rfl rfl htidy rfl le_rfl
        | false =>
          exact (h.owned.owns i).keep rfl rfl ⟨fun e => absurd (show NetSt.error = _ from e) (by decide),
            fun e => absurd (show NetSt.error = _ from e) (by decide),
            fun e => absurd (show NetSt.error = _ from e) (by decide), htidy.url⟩ rfl le_rfl
      · rw [hlink, hlive]
        cases ok with
        | true => exact h.steady rfl rfl rfl rfl id rfl
        | false => exact h.tcp_steady hp rfl rfl (show NetSt.error ≠ NetSt.listening by decide) hno (.inl htp)
      · rw [(htidy.free hf).1] at htp
        cases htp
  | tcpErr p =>
    simp only [Net.step]
    split
    · exact hstay
    · next i hp =>
      obtain ⟨htp, -, -, hno⟩ := h.of_tcp hp
      refine h.move (netTcpErr_landed h.owned hp) ?_ fun hf => ?_
      · exact h.tcp_steady hp rfl rfl (show NetSt.error ≠ NetSt.listening by decide) (hno.free p)
          (.inr ⟨rfl, rfl, Function.update_self ..⟩)
      · rw [((h.owned.tidy i).free hf).1] at htp
        cases htp
  | tcpConnected p ok =>
    simp only [Net.step]
    split
    · exact hstay
    · next i hp =>
      obtain ⟨htp, -, -, hno⟩ := h.of_tcp hp
      have hopen : (w.net.h i).state = .free → (netTcpConnected (w.net.h i) ok).state = .free ∨
          asked i = true := fun hf => by
        rw [((h.owned.tidy i).free hf).1] at htp
        cases htp
      cases ok with
      | true =>
        refine h.move ?_ ?_ hopen
        · exact (h.owned.owns i).keep rfl rfl ⟨fun e => absurd (show NetSt.connected = _ from e) (by decide),
            fun e => absurd (show NetSt.connected = _ from e) (by decide),
            fun e => absurd (show NetSt.connected = _ from e) (by decide),
            (h.owned.tidy i).url⟩ rfl le_rfl
        · exact h.tcp_steady hp rfl rfl (show NetSt.connected ≠ NetSt.listening by decide) hno (.inl htp)
      | false =>
        refine h.move (netTcpErr_landed h.owned hp) ?_ hopen
        exact h.tcp_steady hp rfl rfl (show NetSt.error ≠ NetSt.listening by decide) (hno.free p)
          (.inr ⟨rfl, rfl, Function.update_self ..⟩)
  | dnsFound q ip =>
    simp only [Net.step]
    split
    · exact hstay
    · next query _ =>
      have hland := netDnsFound_landed h.owned query.arg q ip
      have htidy := h.owned.tidy query.arg
      have hlink := link_netDnsFound (w.net.h query.arg) ip
      refine h.move hland ?_ fun hf => .inl ?_
      · rw [hlink]
        by_cases hres : (w.net.h query.arg).state = .resolving
        · have htp := htidy.resolving hres
          have hun := h.uninvolved_of_detached htp (.inl (by rw [hres]; decide))
          rw [if_pos hres]
          exact hun.steady hun.listener (show NetSt.idle ≠ NetSt.listening by decide)
            ((h.owned.owns query.arg).noListener htp)
        · rw [if_neg hres]
          exact h.steady rfl rfl rfl rfl id rfl
      · rw [hlink]
        dsimp only
        rw [hf]
        rfl

theorem runCommand_free {i : Fin NET_MAX_HANDLES} {c : Ctx} {cmd : Command}
    (hfree : c.h.state = .free) (hopen : cmd ≠ .open) (hurl : cmd ≠ .urlOpen) :
    (runCommand base a i cp c cmd).2.h.state = .free := by
  by_cases hquiet : cmd.quiet = true
  · rw [(runCommand_quiet base a i cp c hquiet).1]
    exact hfree
  have hsame : ∀ {c' : Ctx}, SameLink c c' → c'.h.state = .free := fun hl => by
    rw [hl.1]
    exact hfree
  cases cmd with
  | «open» => exact absurd rfl hopen
  | urlOpen => exact absurd rfl hurl
  | dns =>
    rcases doDns_cases base a i cp c with ⟨hl, -⟩ | ⟨hnot, -⟩ | ⟨hnot, -⟩
    · exact hsame hl
    all_goals exact absurd hfree hnot
  | connect =>
    rcases doConnect_cases a i cp c with hl | ⟨-, hidle, -⟩
    · exact hsame hl
    · rw [hfree] at hidle
      cases hidle
  | listen =>
    rcases doListen_cases a i cp c with ⟨-, hl⟩ | ⟨hlis, -⟩ | ⟨-, -, hidle, -⟩
    · exact hsame hl
    · rw [hfree] at hlis
      cases hlis
    · rw [hfree] at hidle
      cases hidle
  | close =>
    rcases doClose_cases a c with ⟨-, hl, -⟩ | ⟨hnot, -⟩
    · change (doClose a c).2.h.state = .free
      rw [hl]
      exact hfree
    · exact absurd hfree hnot
  | _ => exact absurd rfl hquiet

theorem Watch.step_quiet {e : Event} (ha : acceptOf w.net e = none)
    (hr : reportOf cfg w.net e = none) :
    w.step cfg e =
      { w with
        net := Net.step cfg w.net e
        mine := fun j =>
          if (w.net.h j).state = .free then decide (openOf cfg e = some j) else w.mine j } := by
  simp [Watch.step, ha, hr]

theorem Watch.step_report {e : Event} (ha : acceptOf w.net e = none)
    (ho : openOf cfg e = none) (hr : reportOf cfg w.net e = some i) :
    w.step cfg e =
      { net := Net.step cfg w.net e
        mine := fun j => if (w.net.h j).state = .free then false
          else w.mine j || decide ((w.net.h i).acceptH = j)
        backlog := w.backlog
        accepted := w.accepted
        reported := w.reported ++ (w.backlog i).toList } := by
  simp [Watch.step, ha, hr, ho]

theorem step_command_inv (h : w.Inv) {data : UInt8} (hord : Orderly cfg w.net (.command a jim cp data))
    (hkeep : KeepsBacklog cfg w.net (.command a jim cp data)) :
    (w.step cfg (.command a jim cp data)).Inv := by
  rcases netDispatch_cases cfg a w.net jim cp data with
    ⟨hiss, hnot, hn⟩ | ⟨i, cmd, irq, r, hiss, hr, hn⟩
  · have hrep : reportOf cfg w.net (.command a jim cp data) = none := by
      simp only [reportOf, hiss]
    rw [Watch.step_quiet cfg rfl hrep]
    simp only [Net.step, hn]
    exact h.stay w.net.stack rfl le_rfl _
  have hrun : reportOf cfg w.net (.command a jim cp data) =
      if cmd = .listen ∧ r.1 = .ok then some i else none := by
    simp only [reportOf, hiss, hn]
    cases cmd <;> simp
  by_cases hok : cmd = .listen ∧ r.1 = .ok
  · rw [if_pos hok] at hrun
    obtain ⟨rfl, hok⟩ := hok
    subst hr
    rcases doListen_cases a i cp (w.ctx i jim) with
      ⟨hnot, -⟩ | ⟨-, hready, -, -, hl, hs⟩ | ⟨hnot, -⟩
    · exact absurd hok hnot
    · have hopen : openOf cfg (.command a jim cp data) = none := by
        simp only [openOf, hiss]
      rw [Watch.step_report cfg rfl hopen hrun]
      simp only [Net.step, hn]
      exact h.report hready hl hs
    · exact absurd hok hnot
  · rw [if_neg hok] at hrun
    have hcmd : cmd = .listen → r.1 ≠ .ok := fun hc hr => hok ⟨hc, hr⟩
    rw [Watch.step_quiet cfg rfl hrun]
    simp only [Net.step, hn]
    subst hr
    refine h.move ?_ ?_ fun hfree => ?_
    · exact runCommand_landed (c := w.ctx i jim) cfg.base a cp (h.owned.owns i) (h.owned.tidy i)
        (hord i cmd hiss)
    · exact runCommand_steady cfg.base a jim cp h (hord i cmd hiss) (hkeep i cmd hiss) hcmd
    · by_cases hop : cmd = .open ∨ cmd = .urlOpen
      · refine .inr ?_
        simp only [openOf, hiss]
        rcases hop with rfl | rfl <;> simp
      · obtain ⟨hnot, hnot'⟩ := not_or.mp hop
        exact .inl (runCommand_free (c := w.ctx i jim) cfg.base a cp hfree hnot hnot')

theorem step_accept_inv (h : w.Inv) (lp : Nat) (ok : Bool) (ip : Ip) (port : UInt16) :
    (w.step cfg (.tcpAccept lp ok ip port)).Inv := by
  have hstay : ∀ st : Stack, st.pcbs = w.net.stack.pcbs → w.net.stack.nextPcb ≤ st.nextPcb →
      Net.step cfg w.net (.tcpAccept lp ok ip port) = { w.net with stack := st } →
      acceptOf w.net (.tcpAccept lp ok ip port) = none →
      (w.step cfg (.tcpAccept lp ok ip port)).Inv := by
    intro st hpcbs hnext hn ha
    rw [Watch.step_quiet cfg ha rfl, hn]
    exact h.stay st hpcbs hnext _
  cases hlp : w.net.stack.owner .listen lp with
  | none =>
    refine hstay w.net.stack rfl le_rfl (by simp only [Net.step, hlp]) ?_
    cases ok <;> simp [acceptOf, hlp]
  | some lh =>
    cases ok with
    | false => exact hstay w.net.stack rfl le_rfl (by simp [Net.step, hlp]) rfl
    | true =>
      have hn : Net.step cfg w.net (.tcpAccept lp true ip port) =
          netTcpAccept w.net lh ip port := by
        simp [Net.step, hlp]
      have hrefuse := netTcpAccept_cases w.net lh ip port
      have hpcbs := add_free_pcbs (h.owned.owns 0).fresh ⟨.tcp, none⟩
      cases hready : (w.net.h lh).acceptReady with
      | true =>
        rcases hrefuse with ⟨hr, -⟩ | ⟨-, hnot, -⟩
        · exact hstay _ hpcbs (Nat.le_succ _) (hn.trans hr) (by simp [acceptOf, hlp, hready])
        · rw [hready] at hnot
          cases hnot
      | false =>
        cases hidx : firstFree w.net.h with
        | none =>
          rcases hrefuse with ⟨hr, -⟩ | ⟨idx, -, hsome, -⟩
          · exact hstay _ hpcbs (Nat.le_succ _) (hn.trans hr) (by simp [acceptOf, hlp, hidx])
          · rw [hidx] at hsome
            cases hsome
        | some idx =>
          have haccept := h.accept ip port hlp hready hidx
          convert haccept using 1
          simp [Watch.step, acceptOf, reportOf, openOf, hlp, hready, hidx, hn]

theorem single_quiet {e : Event} (he : e.single = true) (n : Service) :
    acceptOf n e = none ∧ reportOf cfg n e = none := by
  cases e with
  | command a jim cp data => cases he
  | tcpAccept lp ok ip port => cases he
  | _ => exact ⟨rfl, rfl⟩

theorem Watch.step_inv (h : w.Inv) {e : Event} (hord : Orderly cfg w.net e)
    (hkeep : KeepsBacklog cfg w.net e) : (w.step cfg e).Inv := by
  by_cases hs : e.single = true
  · obtain ⟨ha, hr⟩ := single_quiet cfg hs w.net
    rw [Watch.step_quiet cfg ha hr]
    exact step_callback_inv cfg h hs _
  cases e with
  | command a jim cp data => exact step_command_inv cfg a jim cp h hord hkeep
  | reset =>
    rw [Watch.step_quiet (e := .reset) cfg rfl rfl]
    exact h.reset _
  | tcpAccept lp ok ip port => exact step_accept_inv cfg h lp ok ip port
  | _ => exact absurd rfl hs

end

/-! ### Runs -/

theorem Watch.boot_inv (rings : Fin NET_MAX_HANDLES → Fin NET_RX_RING_SIZE → UInt8) :
    (Watch.boot rings).Inv :=
  ⟨boot_owned rings, nofun, nofun, nofun, nofun, nofun, List.nodup_nil, nofun, nofun,
    fun _ hi => absurd rfl hi⟩

theorem Watch.Inv.reports {w : Watch} (h : w.Inv) {e : Event} {l : Fin NET_MAX_HANDLES}
    (hrep : reportOf cfg w.net e = some l) :
    ∃ p a jim cp data, e = .command a jim cp data ∧
      (netDispatch cfg a w.net jim cp data).2.1 (cp + 1) =
        UInt8.ofNat (w.net.h l).acceptH.val ∧
      w.backlog l = some p ∧ p ∈ w.accepted ∧ p ∉ w.reported ∧
      Stands (w.net.h (w.net.h l).acceptH).toLink w.net.stack.toLive p := by
  cases e with
  | command a jim cp data =>
    rcases netDispatch_cases cfg a w.net jim cp data with
      ⟨hiss, -, -⟩ | ⟨i, cmd, irq, r, hiss, hr, hn⟩
    · simp only [reportOf, hiss] at hrep
      cases hrep
    · have hlisten : cmd = .listen ∧ r.1 = .ok ∧ i = l := by
        simp only [reportOf, hiss, hn] at hrep
        clear hr hn hiss
        cases cmd <;> simp_all
      obtain ⟨rfl, hok, rfl⟩ := hlisten
      subst hr
      rcases doListen_cases a i cp (w.ctx i jim) with
        ⟨hnot, -⟩ | ⟨-, hready, -, hjim, -⟩ | ⟨hnot, -⟩
      · exact absurd hok hnot
      · obtain ⟨-, p, hacc, hfresh, hwait⟩ := h.waiting i hready
        refine ⟨p, a, jim, cp, data, rfl, ?_, hwait.made, hacc, hfresh, hwait.stands⟩
        rw [hn]
        change (doListen a i cp (w.ctx i jim)).2.jim (cp + 1) = _
        rw [hjim]
        simp [Jim.store]
      · exact absurd hok hnot
  | _ => cases hrep

/-- In every run in which the Beeb leaves waiting connections and their listeners alone, a
connection taken in is reported at most once; until then it waits at a live listener or is gone;
a report names the handle that stands for it; and every handle in use is known to the Beeb or
waiting. -/
theorem accepted_reported (rings : Fin NET_MAX_HANDLES → Fin NET_RX_RING_SIZE → UInt8)
    (ops : List Event)
    (hord : ∀ st ∈ History.history (Watch.step cfg) (Watch.boot rings) ops,
      Orderly cfg st.pre.net st.op ∧ KeepsBacklog cfg st.pre.net st.op) :
    let w := History.final (Watch.step cfg) (Watch.boot rings) ops
    w.reported.Nodup ∧ (∀ p ∈ w.reported, p ∈ w.accepted) ∧
      (∀ p ∈ w.accepted, p ∈ w.reported ∨ (∃ l, w.Waiting l p) ∨ w.net.stack.pcbs p = none) ∧
      (∀ i, (w.net.h i).state ≠ .free → w.mine i = true ∨ ∃ l, (w.net.h l).state = .listening ∧
        (w.net.h l).acceptReady = true ∧ (w.net.h l).acceptH = i) ∧
      ∀ st ∈ History.history (Watch.step cfg) (Watch.boot rings) ops, ∀ l,
        reportOf cfg st.pre.net st.op = some l →
        ∃ p a jim cp data, st.op = .command a jim cp data ∧
          (netDispatch cfg a st.pre.net jim cp data).2.1 (cp + 1) =
            UInt8.ofNat (st.pre.net.h l).acceptH.val ∧
          st.pre.backlog l = some p ∧ p ∈ st.pre.accepted ∧ p ∉ st.pre.reported ∧
          Stands (st.pre.net.h (st.pre.net.h l).acceptH).toLink st.pre.net.stack.toLive p := by
  intro w
  obtain ⟨hw, hsteps⟩ := History.guarded_induction (Watch.step cfg) Watch.Inv
    (fun w e => Orderly cfg w.net e ∧ KeepsBacklog cfg w.net e) (Watch.boot_inv rings)
    (fun w e h hc => Watch.step_inv cfg h hc.1 hc.2) ops hord
  refine ⟨hw.once, hw.told, fun p hp => ?_, fun i hi => ?_, fun st hst l hl => ?_⟩
  · refine (hw.kept p hp).imp_right fun hrest => hrest.imp_left fun ⟨l, hl, hb⟩ => ?_
    obtain ⟨-, q, -, -, hwait⟩ := hw.waiting l hl
    have hqp : q = p := Option.some.inj (hwait.made.symm.trans hb)
    exact ⟨l, hqp ▸ hwait⟩
  · refine (hw.known i hi).imp_right fun ⟨l, hl, hH⟩ => ?_
    obtain ⟨-, q, -, -, hwait⟩ := hw.waiting l hl
    exact ⟨l, hwait.state, hl, hH⟩
  · exact (hsteps st hst).1.reports cfg hl

def acceptRun : List Event :=
  [issue 0 [45, 0], issue 0 [49], .tcpAccept 1 true 0x0100000A 1024]

theorem accepted_reported_listen :
    let w := History.final (Watch.step ⟨0, true⟩) (Watch.boot fun _ _ => 0)
      (acceptRun ++ [issue 0 [49]])
    w.mine 1 = true ∨ ∃ l, (w.net.h l).state = .listening ∧ (w.net.h l).acceptReady = true ∧
      (w.net.h l).acceptH = 1 :=
  (accepted_reported ⟨0, true⟩ (fun _ _ => 0) (acceptRun ++ [issue 0 [49]]) (by decide)).2.2.2.1 1
    (by decide)

/-- A listener closed too early leaves a connected handle nobody knows of; a waiting handle that
is closed and opened again for UDP is reported as the connection. -/
theorem waiting_connection_orphaned :
    let w := History.final (Watch.step ⟨0, true⟩) (Watch.boot fun _ _ => 0)
      (acceptRun ++ [issue 0 [53]])
    let v := History.final (Watch.step ⟨0, true⟩) (Watch.boot fun _ _ => 0)
      (acceptRun ++ [issue 1 [53], issue 1 [45, 1]])
    (w.accepted = [2] ∧ w.reported = [] ∧ w.net.stack.pcbs 2 = some ⟨.tcp, some 1⟩ ∧
        (w.net.h 1).state = .connected ∧ w.mine 1 = false ∧
        ∀ l, (w.net.h l).state ≠ .listening) ∧
      reportOf ⟨0, true⟩ v.net (issue 0 [49]) = some 0 ∧ (v.net.h 0).acceptH = 1 ∧
      v.backlog 0 = some 2 ∧ (v.net.h 1).type = .udp ∧ (v.net.h 1).tpcb = none ∧
      (v.net.h 1).state = .idle := by
  decide

end Pi1MHz.Net
