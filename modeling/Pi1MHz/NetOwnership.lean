import Pi1MHz.NetFrame

/-!
# Who owns a pcb

A pcb calls back with the handle it was given, so a handle that forgets its pcb is called back
by a stranger.  The invariant says that the two know of each other, and that the states in which
a command attaches a pcb are states in which none is attached.
-/

namespace Pi1MHz.Net

variable {i : Fin NET_MAX_HANDLES} {l m : Link} {s s' : Live}

def Live.Fresh (s : Live) : Prop := ∀ p, s.nextPcb ≤ p → s.pcbs p = none

@[simp] theorem add_pcbs (p : Pcb) :
    (s.add p).pcbs = Function.update s.pcbs s.nextPcb (some p) := rfl

@[simp] theorem add_nextPcb (p : Pcb) : (s.add p).nextPcb = s.nextPcb + 1 := rfl

@[simp] theorem free_pcbs (p : Nat) : (s.free p).pcbs = Function.update s.pcbs p none := rfl

theorem add_free_pcbs (hf : s.Fresh) (p : Pcb) : ((s.add p).free s.nextPcb).pcbs = s.pcbs := by
  rw [free_pcbs, add_pcbs, Function.update_idem, Function.update_eq_self_iff]
  exact (hf _ le_rfl).symm

theorem Live.Fresh.add (hf : s.Fresh) (p : Pcb) : (s.add p).Fresh := by
  intro q hq
  rw [add_nextPcb] at hq
  rw [add_pcbs, Function.update_of_ne (by omega), hf q (by omega)]

theorem freeAll_nextPcb (o : Option Nat) : (s.freeAll o).nextPcb = s.nextPcb := by
  cases o <;> rfl

theorem freeAll_pcbs (o : Option Nat) (p : Nat) :
    (s.freeAll o).pcbs p = if o = some p then none else s.pcbs p := by
  cases o with
  | none => rfl
  | some q =>
    change Function.update s.pcbs q none p = _
    by_cases hq : p = q
    · simp [hq]
    · rw [Function.update_of_ne hq, if_neg (fun h => hq (Option.some.inj h).symm)]

/-! ### The invariant of one handle -/

/-- Handle `i` and the pcbs that call back with it know of each other. -/
structure Owns (i : Fin NET_MAX_HANDLES) (l : Link) (s : Live) : Prop where
  fresh : s.Fresh
  tcp : ∀ p, l.tpcb = some p → ∃ k, k ≠ .udp ∧ s.pcbs p = some ⟨k, some i⟩
  udp : ∀ p, l.upcb = some p → s.pcbs p = some ⟨.udp, some i⟩
  known : ∀ p k, s.pcbs p = some ⟨k, some i⟩ → l.tpcb = some p ∨ l.upcb = some p

structure Tidy (l : Link) : Prop where
  free : l.state = .free → l.tpcb = none ∧ l.upcb = none
  idle : l.state = .idle → l.type = .tcp → l.tpcb = none
  resolving : l.state = .resolving → l.tpcb = none
  url : l.urlPhase = .resolving → l.upcb = none

def Elsewhere (i : Fin NET_MAX_HANDLES) (s s' : Live) : Prop :=
  ∀ p q, q.arg ≠ some i → (s'.pcbs p = some q ↔ s.pcbs p = some q)

def NoneReused (s s' : Live) : Prop :=
  ∀ p, p < s.nextPcb → s'.pcbs p = s.pcbs p ∨ s'.pcbs p = none

/-- Where a step of handle `i` lands. -/
structure Landed (i : Fin NET_MAX_HANDLES) (s : Live) (m : Link) (s' : Live) : Prop where
  owns : Owns i m s'
  tidy : Tidy m
  elsewhere : Elsewhere i s s'
  noneReused : NoneReused s s'
  next : s.nextPcb ≤ s'.nextPcb

theorem Owns.keep (h : Owns i l s) (ht : m.tpcb = l.tpcb) (hu : m.upcb = l.upcb)
    (htidy : Tidy m) (hpcbs : s'.pcbs = s.pcbs) (hnext : s.nextPcb ≤ s'.nextPcb) :
    Landed i s m s' where
  owns :=
    { fresh := fun p hp => by rw [hpcbs]; exact h.fresh p (hnext.trans hp)
      tcp := fun p hp => by rw [hpcbs]; exact h.tcp p (ht ▸ hp)
      udp := fun p hp => by rw [hpcbs]; exact h.udp p (hu ▸ hp)
      known := fun p k hp => by rw [ht, hu]; exact h.known p k (hpcbs ▸ hp) }
  tidy := htidy
  elsewhere := fun p q _ => by rw [hpcbs]
  noneReused := fun p _ => .inl (by rw [hpcbs])
  next := hnext

theorem Owns.lt (h : Owns i l s) {p : Nat} (hp : l.tpcb = some p ∨ l.upcb = some p) :
    p < s.nextPcb := by
  by_contra hge
  have hnone := h.fresh p (by omega)
  rcases hp with hp | hp
  · obtain ⟨k, -, hk⟩ := h.tcp p hp
    rw [hnone] at hk
    cases hk
  · have hk := h.udp p hp
    rw [hnone] at hk
    cases hk

theorem elsewhere_add (hf : s.Fresh) (k : PcbKind) : Elsewhere i s (s.add ⟨k, some i⟩) := by
  intro p q hq
  rw [add_pcbs]
  by_cases hp : p = s.nextPcb
  · subst hp
    rw [Function.update_self, hf _ le_rfl]
    refine ⟨fun h => ?_, nofun⟩
    cases h
    exact absurd rfl hq
  · rw [Function.update_of_ne hp]

theorem noneReused_add (p : Pcb) : NoneReused s (s.add p) := fun q hq =>
  .inl (by rw [add_pcbs, Function.update_of_ne (by omega)])

theorem Owns.attachTcp (h : Owns i l s) (hnone : l.tpcb = none) {k : PcbKind} (hk : k ≠ .udp)
    (ht : m.tpcb = some s.nextPcb) (hu : m.upcb = l.upcb) (htidy : Tidy m) :
    Landed i s m (s.add ⟨k, some i⟩) where
  owns := by
    refine ⟨h.fresh.add _, fun p hp => ?_, fun p hp => ?_, fun p k' hp => ?_⟩
    · rw [ht, Option.some.injEq] at hp
      subst hp
      exact ⟨k, hk, by rw [add_pcbs, Function.update_self]⟩
    · rw [hu] at hp
      rw [add_pcbs, Function.update_of_ne (h.lt (.inr hp)).ne]
      exact h.udp p hp
    · by_cases hnew : p = s.nextPcb
      · exact .inl (hnew ▸ ht)
      · rw [add_pcbs, Function.update_of_ne hnew] at hp
        have hold := h.known p k' hp
        rw [hnone] at hold
        rw [hu]
        exact .inr (hold.resolve_left nofun)
  tidy := htidy
  elsewhere := elsewhere_add h.fresh k
  noneReused := noneReused_add _
  next := Nat.le_succ _

theorem Owns.attachUdp (h : Owns i l s) (hnone : l.upcb = none)
    (hu : m.upcb = some s.nextPcb) (ht : m.tpcb = l.tpcb) (htidy : Tidy m) :
    Landed i s m (s.add ⟨.udp, some i⟩) where
  owns := by
    refine ⟨h.fresh.add _, fun p hp => ?_, fun p hp => ?_, fun p k hp => ?_⟩
    · rw [ht] at hp
      rw [add_pcbs, Function.update_of_ne (h.lt (.inl hp)).ne]
      exact h.tcp p hp
    · rw [hu, Option.some.injEq] at hp
      rw [← hp, add_pcbs, Function.update_self]
    · by_cases hnew : p = s.nextPcb
      · exact .inr (hnew ▸ hu)
      · rw [add_pcbs, Function.update_of_ne hnew] at hp
        have hold := h.known p k hp
        rw [hnone] at hold
        rw [ht]
        exact .inl (hold.resolve_right nofun)
  tidy := htidy
  elsewhere := elsewhere_add h.fresh _
  noneReused := noneReused_add _
  next := Nat.le_succ _

theorem Owns.release (h : Owns i l s) (ht : m.tpcb = none) (hu : m.upcb = none)
    (htidy : Tidy m) : Landed i s m ((s.freeAll l.tpcb).freeAll l.upcb) := by
  have hpcbs : ∀ p, ((s.freeAll l.tpcb).freeAll l.upcb).pcbs p =
      if l.upcb = some p then none else if l.tpcb = some p then none else s.pcbs p := by
    intro p
    rw [freeAll_pcbs, freeAll_pcbs]
  have hnext : ((s.freeAll l.tpcb).freeAll l.upcb).nextPcb = s.nextPcb := by
    rw [freeAll_nextPcb, freeAll_nextPcb]
  refine ⟨⟨?_, fun p hp => ?_, fun p hp => ?_, fun p k hp => ?_⟩, htidy, ?_, ?_, hnext.ge⟩
  · intro p hp
    rw [hnext] at hp
    rw [hpcbs, h.fresh p hp]
    simp
  · rw [ht] at hp
    cases hp
  · rw [hu] at hp
    cases hp
  · rw [hpcbs] at hp
    split at hp
    · cases hp
    · split at hp
      · cases hp
      · next h1 h2 => exact absurd (h.known p k hp) (not_or.mpr ⟨h2, h1⟩)
  · intro p q hq
    rw [hpcbs]
    split
    · next hup =>
      rw [h.udp p hup]
      refine ⟨nofun, fun he => ?_⟩
      cases he
      exact absurd rfl hq
    · split
      · next htp =>
        obtain ⟨k, -, hk⟩ := h.tcp p htp
        rw [hk]
        refine ⟨nofun, fun he => ?_⟩
        cases he
        exact absurd rfl hq
      · rfl
  · intro p _
    rw [hpcbs]
    split
    · exact .inr rfl
    · split
      · exact .inr rfl
      · exact .inl rfl

/-! ### Commands -/

section

variable {c : Ctx} (base : Nat) (a : Answers) (cp : Nat)

/-- The order of commands the attaching ones rely on: no query is started on a handle with a TCP
pcb, and none is attached while a `url_open` waits for the resolver. -/
structure OrderlyCommand (a : Answers) (l : Link) (cmd : Command) : Prop where
  dns : cmd = .dns → a.dns = .inProgress → l.state ≠ .resolving → l.dnsDone = false →
    l.tpcb = none
  urlOpen : cmd = .urlOpen → l.urlPhase = .resolving → l.dnsDone = true → l.dnsOk = true →
    l.tpcb = none

instance (a : Answers) (l : Link) (cmd : Command) : Decidable (OrderlyCommand a l cmd) :=
  decidable_of_iff
    ((cmd = .dns → a.dns = .inProgress → l.state ≠ .resolving → l.dnsDone = false →
        l.tpcb = none) ∧
      (cmd = .urlOpen → l.urlPhase = .resolving → l.dnsDone = true → l.dnsOk = true →
        l.tpcb = none))
    ⟨fun h => ⟨h.1, h.2⟩, fun h => ⟨h.dns, h.urlOpen⟩⟩

abbrev LandedCtx (i : Fin NET_MAX_HANDLES) (c c' : Ctx) : Prop :=
  Landed i c.stack.toLive c'.h.toLink c'.stack.toLive

theorem SameLink.landed {c' : Ctx} (h : SameLink c c') (ho : Owns i c.h.toLink c.stack.toLive)
    (ht : Tidy c.h.toLink) : LandedCtx i c c' :=
  ho.keep (by rw [h.1]) (by rw [h.1]) (h.1 ▸ ht) (by rw [h.2]) (by rw [h.2])

theorem tidy_nothing (st : NetSt) (ty : NetType) : Tidy { state := st, type := ty } :=
  ⟨fun _ => ⟨rfl, rfl⟩, fun _ _ => rfl, fun _ => rfl, fun _ => rfl⟩

theorem doOpen_landed (ho : Owns i c.h.toLink c.stack.toLive) (ht : Tidy c.h.toLink) :
    LandedCtx i c (doOpen a i cp c).2 := by
  rcases doOpen_cases a i cp c with hsame | ⟨hfree, -, ⟨hl, hs⟩ | ⟨hl, hs⟩ | ⟨hl, hs⟩⟩
  · exact hsame.landed ho ht
  all_goals
    obtain ⟨htp, hup⟩ := ht.free hfree
    unfold LandedCtx
    rw [hl, hs]
  · exact ho.keep htp.symm hup.symm (tidy_nothing _ _) rfl le_rfl
  · exact ho.attachUdp hup rfl htp.symm ⟨nofun, nofun, nofun, nofun⟩
  · exact ho.keep htp.symm hup.symm (tidy_nothing _ _) rfl le_rfl

theorem doListen_landed (ho : Owns i c.h.toLink c.stack.toLive) (ht : Tidy c.h.toLink) :
    LandedCtx i c (doListen a i cp c).2 := by
  rcases doListen_cases a i cp c with ⟨-, hsame⟩ | ⟨-, -, -, -, hl, hs⟩ | ⟨-, htype, hidle, hcase⟩
  · exact hsame.landed ho ht
  · unfold LandedCtx
    rw [hl, hs]
    exact ho.keep rfl rfl { ht with } rfl le_rfl
  have htp := ht.idle hidle htype
  have hpcbs := add_free_pcbs ho.fresh ⟨.tcp, none⟩
  rcases hcase with ⟨hl, hs⟩ | ⟨hl, hs⟩
  · -- the name of the pcb handed to `altcp_listen` is used up, then the listener is attached
    have hkeep := ho.keep rfl rfl ht hpcbs (Nat.le_succ _)
    unfold LandedCtx
    rw [hl, hs]
    have hattach := hkeep.owns.attachTcp htp (k := .listen) (by decide)
      (m := { c.h.toLink with tpcb := some (c.stack.nextPcb + 1), state := .listening }) rfl rfl
      ⟨nofun, nofun, nofun, ht.url⟩
    refine ⟨hattach.owns, hattach.tidy, fun p q hq => ?_, fun p hp => ?_, ?_⟩
    · exact (hattach.elsewhere p q hq).trans (hkeep.elsewhere p q hq)
    · rw [← hpcbs]
      exact hattach.noneReused p (Nat.lt_succ_of_lt hp)
    · exact hkeep.next.trans hattach.next
  · have hlink : (doListen a i cp c).2.h.toLink = c.h.toLink := by
      rcases hl with hl | hl
      · exact hl
      · rw [hl, ← htp]
    unfold LandedCtx
    rw [hlink, hs]
    exact ho.keep rfl rfl ht hpcbs (Nat.le_succ _)

theorem doDns_landed (ho : Owns i c.h.toLink c.stack.toLive) (ht : Tidy c.h.toLink)
    (hord : OrderlyCommand a c.h.toLink .dns) : LandedCtx i c (doDns base a i cp c).2 := by
  rcases doDns_cases base a i cp c with
    ⟨hsame, -⟩ | ⟨-, -, -, hl, hs, -⟩ | ⟨-, hres, hdone, name, -, hcase⟩
  · exact hsame.landed ho ht
  · unfold LandedCtx
    rw [hl, hs]
    exact ho.keep rfl rfl { ht with } rfl le_rfl
  rcases hcase with ⟨ip, -, -, hl, hs⟩ | ⟨hdns, -, hl, hs⟩
  · unfold LandedCtx
    rw [hl, hs]
    exact ho.keep rfl rfl { ht with } rfl le_rfl
  · have htp := hord.dns rfl hdns hres hdone
    unfold LandedCtx
    rw [hl, hs]
    exact ho.keep rfl rfl ⟨nofun, nofun, fun _ => htp, ht.url⟩ rfl le_rfl

theorem doConnect_landed (ho : Owns i c.h.toLink c.stack.toLive) (ht : Tidy c.h.toLink) :
    LandedCtx i c (doConnect a i cp c).2 := by
  rcases doConnect_cases a i cp c with hsame | ⟨htype, hidle, ip, port, hh, hs⟩
  · exact hsame.landed ho ht
  have htp := ht.idle hidle htype
  unfold LandedCtx
  rw [hh, hs]
  rcases netStartConnect_cases a i { c.h with remoteIp := ip, remotePort := port } c.stack with
    ⟨-, hl, hs⟩ | ⟨-, hl, hs⟩ | ⟨-, hl, hs⟩
  · rw [hl, hs]
    refine ho.keep htp.symm rfl ⟨fun h => ?_, fun _ _ => rfl, fun _ => rfl, ht.url⟩ rfl le_rfl
    exact ⟨rfl, (ht.free h).2⟩
  · -- refused on the spot: everything is released, the new pcb among it
    have hpcbs := add_free_pcbs ho.fresh ⟨.tcp, some i⟩
    have hkeep := ho.keep rfl rfl ht hpcbs (Nat.le_succ _)
    have hrel := hkeep.owns.release (m := { c.h.toLink with
      remoteIp := ip, remotePort := port, tpcb := none, upcb := none, state := .error }) rfl rfl
      ⟨nofun, nofun, nofun, fun _ => rfl⟩
    rw [htp] at hrel
    rw [hl, hs]
    refine ⟨hrel.owns, hrel.tidy, fun p q hq => ?_, fun p hp => ?_, hkeep.next.trans hrel.next⟩
    · exact (hrel.elsewhere p q hq).trans (hkeep.elsewhere p q hq)
    · rw [← hpcbs]
      exact hrel.noneReused p (Nat.lt_succ_of_lt hp)
  · rw [hl, hs]
    exact ho.attachTcp htp (by decide) rfl rfl ⟨nofun, nofun, nofun, ht.url⟩

theorem doClose_landed (ho : Owns i c.h.toLink c.stack.toLive) (ht : Tidy c.h.toLink) :
    LandedCtx i c (doClose a c).2 := by
  rcases doClose_cases a c with ⟨-, hl, hs⟩ | ⟨-, hl, hs⟩
  · unfold LandedCtx
    rw [hl, hs]
    exact ho.keep rfl rfl ⟨ht.free, ht.idle, ht.resolving, nofun⟩ rfl le_rfl
  · unfold LandedCtx
    rw [hl, hs]
    exact ho.release rfl rfl (tidy_nothing _ _)

theorem urlAfterResolve_landed {h : Handle} {st : Stack} (ho : Owns i h.toLink st.toLive)
    (htp : h.tpcb = none) (hup : h.upcb = none) :
    Landed i st.toLive (urlAfterResolve a i h st).2.1.toLink
      (urlAfterResolve a i h st).2.2.toLive := by
  rcases urlAfterResolve_cases a i h st htp hup with
    ⟨⟨state, hstate, hl⟩, hs⟩ | ⟨ty, ph, -, hph, hl, hs⟩ | ⟨hl, hs⟩
  · have htidy : Tidy { h.toLink with urlPhase := .fail, state := state } :=
      ⟨fun _ => ⟨htp, hup⟩, fun _ _ => htp, fun _ => htp, nofun⟩
    rw [hl]
    rcases hs with hs | ⟨k, hs⟩
    · rw [hs]
      exact ho.keep rfl rfl htidy rfl le_rfl
    · rw [hs]
      exact ho.keep rfl rfl htidy (add_free_pcbs ho.fresh _) (Nat.le_succ _)
  · rw [hl, hs]
    refine ho.attachUdp hup rfl rfl ⟨nofun, nofun, nofun, fun h => ?_⟩
    rcases hph with rfl | rfl <;> cases h
  · rw [hl, hs]
    exact ho.attachTcp htp (by decide) rfl rfl ⟨nofun, nofun, nofun, nofun⟩

theorem doUrlOpen_landed (ho : Owns i c.h.toLink c.stack.toLive) (ht : Tidy c.h.toLink)
    (hord : OrderlyCommand a c.h.toLink .urlOpen) :
    LandedCtx i c (doUrlOpen base a i cp c).2 := by
  unfold LandedCtx
  rcases doUrlOpen_cases base a i cp c with ⟨⟨ph, hph, hl⟩, hs⟩ | ⟨r, ⟨hfree, hatt⟩, hr⟩ |
    ⟨hfree, u, mode, hcase⟩ | ⟨hphase, hdone, hcase⟩
  · rw [hl, hs]
    refine ho.keep rfl rfl ⟨ht.free, ht.idle, ht.resolving, fun h => ?_⟩ rfl le_rfl
    rcases hph with rfl | rfl | rfl | rfl
    · exact ht.url h
    all_goals cases h
  · obtain ⟨u, mode, ip, ip', -, rfl⟩ := hatt
    obtain ⟨htp, hup⟩ := ht.free hfree
    have hclaimed := ho.keep (m := ({ urlClaim c.h u mode with
      dnsIp := ip', remoteIp := ip } : Handle).toLink) htp.symm hup.symm
      ⟨nofun, fun _ _ => rfl, nofun, nofun⟩ rfl le_rfl
    rw [hr]
    exact urlAfterResolve_landed a hclaimed.owns rfl rfl
  · obtain ⟨htp, hup⟩ := ht.free hfree
    rcases hcase with ⟨hl, hs⟩ | ⟨hl, hs⟩
    · rw [hl, hs]
      exact ho.keep htp.symm hup.symm ⟨nofun, nofun, fun _ => rfl, fun _ => rfl⟩ rfl le_rfl
    · rw [hl, hs]
      exact ho.keep htp.symm hup.symm ⟨nofun, fun _ _ => rfl, nofun, nofun⟩ rfl le_rfl
  · rcases hcase with ⟨hl, hs⟩ | ⟨hok, r, rfl, hr⟩
    · rw [hl, hs]
      exact ho.keep rfl rfl ⟨ht.free, ht.idle, ht.resolving, nofun⟩ rfl le_rfl
    · have htp := hord.urlOpen rfl hphase hdone hok
      have hup := ht.url hphase
      have hidle := ho.keep (m := ({ c.h with
        dnsDone := false, remoteIp := c.h.dnsIp, state := .idle } : Handle).toLink) rfl rfl
        ⟨nofun, fun _ _ => htp, nofun, fun _ => hup⟩ rfl le_rfl
      rw [hr]
      exact urlAfterResolve_landed a hidle.owns htp hup

theorem runCommand_landed {cmd : Command} (ho : Owns i c.h.toLink c.stack.toLive)
    (ht : Tidy c.h.toLink) (hord : OrderlyCommand a c.h.toLink cmd) :
    LandedCtx i c (runCommand base a i cp c cmd).2 := by
  cases cmd with
  | «open» => exact doOpen_landed a cp ho ht
  | dns => exact doDns_landed base a cp ho ht hord
  | connect => exact doConnect_landed a cp ho ht
  | listen => exact doListen_landed a cp ho ht
  | close => exact doClose_landed a ho ht
  | urlOpen => exact doUrlOpen_landed base a cp ho ht hord
  | _ => exact (runCommand_quiet base a i cp c rfl).landed ho ht

end

structure Owned (n : Service) : Prop where
  owns : ∀ i, Owns i (n.h i).toLink n.stack.toLive
  tidy : ∀ i, Tidy (n.h i).toLink
  noStray : ∀ p q, n.stack.pcbs p = some q → q.arg ≠ none

structure StepOk (n n' : Service) : Prop where
  owned : Owned n'
  noneReused : NoneReused n.stack.toLive n'.stack.toLive

theorem Owned.stay {n : Service} (h : Owned n) : StepOk n n := ⟨h, fun _ _ => .inl rfl⟩

theorem Owned.set {n : Service} (h : Owned n) {h' : Handle} {st : Stack}
    (hland : Landed i n.stack.toLive h'.toLink st.toLive) (irq : Bool) :
    StepOk n ⟨Function.update n.h i h', irq, st⟩ := by
  obtain ⟨hown, htidy, helse, hreuse, -⟩ := hland
  refine ⟨⟨fun j => ?_, fun j => ?_, fun p q hp hq => ?_⟩, hreuse⟩
  · by_cases hj : j = i
    · subst hj
      simpa only [Function.update_self] using hown
    · have hold := h.owns j
      have hne : some j ≠ some i := fun h => hj (Option.some.inj h)
      simp only [Function.update_of_ne hj]
      refine ⟨hown.fresh, fun p hp => ?_, fun p hp => ?_, fun p k hp => ?_⟩
      · obtain ⟨k, hk, hpcb⟩ := hold.tcp p hp
        exact ⟨k, hk, (helse p _ hne).mpr hpcb⟩
      · exact (helse p _ hne).mpr (hold.udp p hp)
      · exact hold.known p k ((helse p _ hne).mp hp)
  · by_cases hj : j = i
    · subst hj
      simpa only [Function.update_self] using htidy
    · simpa only [Function.update_of_ne hj] using h.tidy j
  · exact h.noStray p q ((helse p q (by rw [hq]; nofun)).mp hp) hq

/-! ### Steps -/

section

variable (cfg : Config) {n : Service}

def Orderly (n : Service) : Event → Prop
  | .command a jim cp data =>
      ∀ i cmd, issued cfg jim cp data = some (i, cmd) → OrderlyCommand a (n.h i).toLink cmd
  | _ => True

instance (n : Service) (e : Event) : Decidable (Orderly cfg n e) :=
  match e with
  | .command a jim cp data =>
      match hiss : issued cfg jim cp data with
      | none => isTrue fun i cmd h => by rw [hiss] at h; cases h
      | some (i, cmd) =>
          decidable_of_iff (OrderlyCommand a (n.h i).toLink cmd)
            ⟨fun h j cmd' h' => by rw [hiss] at h'; cases h'; exact h, fun h => h i cmd hiss⟩
  | .reset | .udpRecv .. | .tcpRecv .. | .tcpErr _ | .tcpConnected .. | .tcpAccept ..
  | .dnsFound .. => isTrue trivial

theorem owner_eq {st : Stack} {k : PcbKind} {p : Nat} (h : st.owner k p = some i) :
    st.pcbs p = some ⟨k, some i⟩ := by
  unfold Stack.owner at h
  split at h
  · next q hq =>
    split at h
    · next hk => rw [hq, ← hk, ← h]
    · cases h
  · cases h

theorem Owns.lost (h : Owns i l s) {p : Nat} (hp : s.pcbs p = some ⟨.tcp, some i⟩)
    (ht : m.tpcb = none) (hu : m.upcb = l.upcb) (htidy : Tidy m) : Landed i s m (s.free p) := by
  have hnotUdp : l.upcb ≠ some p := fun hup => by
    have hudp := h.udp p hup
    rw [hp] at hudp
    cases hudp
  have htp : l.tpcb = some p := (h.known p _ hp).resolve_right hnotUdp
  refine ⟨⟨fun q hq => ?_, fun q hq => ?_, fun q hq => ?_, fun q k hq => ?_⟩, htidy,
    fun q x hx => ?_, fun q _ => ?_, le_rfl⟩
  · rw [free_pcbs, Function.update_apply]
    split
    · rfl
    · exact h.fresh q hq
  · rw [ht] at hq
    cases hq
  · rw [hu] at hq
    have hne : q ≠ p := fun hqp => hnotUdp (hqp ▸ hq)
    rw [free_pcbs, Function.update_of_ne hne]
    exact h.udp q hq
  · rw [free_pcbs, Function.update_apply] at hq
    split at hq
    · cases hq
    · next hne =>
      rw [hu]
      refine .inr ((h.known q k hq).resolve_left fun hqt => hne ?_)
      rw [htp] at hqt
      exact (Option.some.inj hqt).symm
  · rw [free_pcbs, Function.update_apply]
    split
    · next hqp =>
      subst hqp
      rw [hp]
      refine ⟨nofun, fun he => ?_⟩
      cases he
      exact absurd rfl hx
    · rfl
  · rw [free_pcbs, Function.update_apply]
    split
    · exact .inr rfl
    · exact .inl rfl

theorem netTcpErr_landed (h : Owned n) {p : Nat} (hp : n.stack.owner .tcp p = some i) :
    Landed i n.stack.toLive (netTcpErr (n.h i)).toLink (n.stack.free p).toLive :=
  (h.owns i).lost (owner_eq hp) rfl rfl ⟨nofun, nofun, nofun, (h.tidy i).url⟩

theorem netDnsFound_landed (h : Owned n) (i : Fin NET_MAX_HANDLES) (q : Nat) (ip : Option Ip) :
    Landed i n.stack.toLive (netDnsFound (n.h i) ip).toLink (n.stack.answered q).toLive := by
  have htidy := h.tidy i
  rw [link_netDnsFound]
  refine (h.owns i).keep rfl rfl ⟨fun hf => ?_, fun hi hty => ?_, fun hr => ?_, htidy.url⟩ rfl
    le_rfl
  · dsimp only at hf
    split at hf
    · cases hf
    · exact htidy.free hf
  · dsimp only at hi
    split at hi
    · next hres => exact htidy.resolving hres
    · exact htidy.idle hi hty
  · dsimp only at hr
    split at hr
    · cases hr
    · exact htidy.resolving hr

/-! #### An inbound connection -/

theorem firstFree_free {hs : Fin NET_MAX_HANDLES → Handle} {j : Fin NET_MAX_HANDLES}
    (h : firstFree hs = some j) : (hs j).state = .free := by
  simpa using List.find?_some h

theorem netTcpAccept_cases (n : Service) (lh : Fin NET_MAX_HANDLES) (ip : Ip) (port : UInt16) :
    (netTcpAccept n lh ip port =
        { n with stack := (n.stack.add ⟨.tcp, none⟩).free n.stack.nextPcb } ∧
      ((n.h lh).acceptReady = true ∨ firstFree n.h = none)) ∨
      ∃ idx, (n.h lh).acceptReady = false ∧ firstFree n.h = some idx ∧
        ∃ n₁ : Service, n₁ = ⟨Function.update n.h idx
            (acceptedHandle (n.h idx) n.stack.nextPcb ip port), n.irqArmed,
            n.stack.add ⟨.tcp, some idx⟩⟩ ∧
          netTcpAccept n lh ip port =
            ⟨Function.update n₁.h lh { n₁.h lh with acceptReady := true, acceptH := idx },
              n₁.irqArmed, n₁.stack⟩ := by
  unfold netTcpAccept
  dsimp only
  split
  · next hready => exact .inl ⟨rfl, .inl hready⟩
  · next hready =>
    split
    · next hnone => exact .inl ⟨rfl, .inr hnone⟩
    · next idx hidx => exact .inr ⟨idx, by simpa using hready, hidx, _, rfl, rfl⟩

theorem Owned.addFree (h : Owned n) (p : Pcb) :
    StepOk n { n with stack := (n.stack.add p).free n.stack.nextPcb } := by
  have hpcbs : ((n.stack.toLive.add p).free n.stack.nextPcb).pcbs = n.stack.pcbs :=
    add_free_pcbs (h.owns 0).fresh p
  refine ⟨⟨fun i => ?_, h.tidy, fun q x hq => h.noStray q x (hpcbs ▸ hq)⟩, fun q _ => .inl ?_⟩
  · exact ((h.owns i).keep rfl rfl (h.tidy i) hpcbs (Nat.le_succ _)).owns
  · exact congrFun hpcbs q

theorem netTcpAccept_ok (h : Owned n) (lh : Fin NET_MAX_HANDLES) (ip : Ip) (port : UInt16) :
    StepOk n (netTcpAccept n lh ip port) := by
  rcases netTcpAccept_cases n lh ip port with ⟨hr, -⟩ | ⟨idx, -, hidx, n₁, hn₁, hr⟩
  · rw [hr]
    exact h.addFree _
  · obtain ⟨htp, hup⟩ := (h.tidy idx).free (firstFree_free hidx)
    have hclaimed : StepOk n n₁ := by
      rw [hn₁]
      refine h.set ?_ _
      exact (h.owns idx).attachTcp htp (by decide) rfl hup.symm ⟨nofun, nofun, nofun, nofun⟩
    have htidy := hclaimed.owned.tidy lh
    rw [hr]
    refine ⟨(hclaimed.owned.set ?_ _).owned, hclaimed.noneReused⟩
    exact (hclaimed.owned.owns lh).keep rfl rfl
      { htidy with } rfl le_rfl

/-! #### The teardown of a reset -/

theorem releaseAll_pcbs (hs : Fin NET_MAX_HANDLES → Handle) (L : List (Fin NET_MAX_HANDLES))
    (st : Stack) (p : Nat) :
    ((L.foldl (fun s i => (netPcbRelease (hs i) s).2) st).pcbs p = st.pcbs p ∨
        (L.foldl (fun s i => (netPcbRelease (hs i) s).2) st).pcbs p = none) ∧
      (∀ i ∈ L, ((hs i).tpcb = some p ∨ (hs i).upcb = some p) →
        (L.foldl (fun s i => (netPcbRelease (hs i) s).2) st).pcbs p = none) ∧
      (L.foldl (fun s i => (netPcbRelease (hs i) s).2) st).nextPcb = st.nextPcb := by
  induction L generalizing st with
  | nil => exact ⟨.inl rfl, nofun, rfl⟩
  | cons i L ih =>
    have hone : (netPcbRelease (hs i) st).2.pcbs p =
        if (hs i).upcb = some p then none
        else if (hs i).tpcb = some p then none else st.pcbs p := by
      change ((st.toLive.freeAll _).freeAll _).pcbs p = _
      rw [freeAll_pcbs, freeAll_pcbs]
    have hnext : (netPcbRelease (hs i) st).2.nextPcb = st.nextPcb := by
      change ((st.toLive.freeAll _).freeAll _).nextPcb = _
      rw [freeAll_nextPcb, freeAll_nextPcb]
    obtain ⟨hkeep, hfree, hn⟩ := ih (netPcbRelease (hs i) st).2
    rw [List.foldl_cons]
    refine ⟨?_, ?_, hn.trans hnext⟩
    · rcases hkeep with hkeep | hkeep
      · rw [hkeep, hone]
        split
        · exact .inr rfl
        · split
          · exact .inr rfl
          · exact .inl rfl
      · exact .inr hkeep
    · intro j hj hown
      rcases List.mem_cons.mp hj with rfl | hj
      · have hnone : (netPcbRelease (hs j) st).2.pcbs p = none := by
          rw [hone]
          rcases hown with ht | hu
          · simp [ht]
          · simp [hu]
        rcases hkeep with hkeep | hkeep
        · exact hkeep.trans hnone
        · exact hkeep
      · exact hfree j hj hown

theorem resetAll_dead (h : Owned n) (p : Nat) : (resetAll n).stack.pcbs p = none := by
  obtain ⟨hkeep, hfree, -⟩ := releaseAll_pcbs n.h (List.finRange NET_MAX_HANDLES) n.stack p
  rcases hkeep with hkeep | hkeep
  · cases hp : n.stack.pcbs p with
    | none => exact hkeep.trans hp
    | some q =>
      obtain ⟨k, arg⟩ := q
      cases arg with
      | none => exact absurd rfl (h.noStray p _ hp)
      | some i => exact hfree i (List.mem_finRange i) ((h.owns i).known p k hp)
  · exact hkeep

theorem resetAll_ok (h : Owned n) : StepOk n (resetAll n) := by
  have hdead := resetAll_dead h
  refine ⟨⟨fun i => ⟨fun p _ => hdead p, nofun, nofun, fun p k hp => ?_⟩,
    fun i => tidy_nothing _ _, fun p q hp => ?_⟩, fun p _ => .inr (hdead p)⟩
  · rw [hdead p] at hp
    cases hp
  · rw [hdead p] at hp
    cases hp

/-! #### Any step -/

theorem step_ok (h : Owned n) {e : Event} (hord : Orderly cfg n e) :
    StepOk n (step cfg n e) := by
  cases e with
  | command a jim cp data =>
    change StepOk n (netDispatch cfg a n jim cp data).2.2
    rcases netDispatch_cases cfg a n jim cp data with ⟨-, -, hn⟩ | ⟨i, cmd, irq, r, hiss, rfl, hn⟩
    · rw [hn]
      exact h.stay
    · rw [hn]
      refine h.set ?_ irq
      exact runCommand_landed (c := ⟨jim, n.h i, n.stack⟩) cfg.base a cp (h.owns i) (h.tidy i)
        (hord i cmd hiss)
  | reset => exact resetAll_ok h
  | udpRecv p d addr port =>
    simp only [step]
    split
    · exact h.stay
    · next i _ =>
      refine h.set ?_ _
      rw [link_netUdpRecv]
      exact (h.owns i).keep rfl rfl (h.tidy i) rfl le_rfl
  | tcpRecv a p seg ok =>
    simp only [step]
    split
    · exact h.stay
    · next i _ =>
      obtain ⟨hlink, hlive⟩ := netTcpRecv_frame a (n.h i) n.stack seg ok
      refine h.set ?_ _
      rw [hlink, hlive]
      cases ok with
      | true => exact (h.owns i).keep rfl rfl (h.tidy i) rfl le_rfl
      | false =>
        exact (h.owns i).keep rfl rfl ⟨nofun, nofun, nofun, (h.tidy i).url⟩ rfl le_rfl
  | tcpErr p =>
    simp only [step]
    split
    · exact h.stay
    · next i hp => exact h.set (netTcpErr_landed h hp) _
  | tcpConnected p ok =>
    simp only [step]
    split
    · exact h.stay
    · next i hp =>
      cases ok with
      | true =>
        refine h.set ?_ _
        exact (h.owns i).keep rfl rfl ⟨nofun, nofun, nofun, (h.tidy i).url⟩ rfl le_rfl
      | false => exact h.set (netTcpErr_landed h hp) _
  | tcpAccept lp ok ip port =>
    simp only [step]
    split
    · exact h.stay
    · split
      · exact netTcpAccept_ok h _ ip port
      · exact h.stay
  | dnsFound q ip =>
    simp only [step]
    split
    · exact h.stay
    · next query _ => exact h.set (netDnsFound_landed h query.arg q ip) _

theorem boot_owned (rings : Fin NET_MAX_HANDLES → Fin NET_RX_RING_SIZE → UInt8) :
    Owned (Service.boot rings) :=
  ⟨fun _ => ⟨fun _ _ => rfl, nofun, nofun, nofun⟩, fun _ => tidy_nothing _ _, nofun⟩

def Holds (n : Service) (i : Fin NET_MAX_HANDLES) (p : Nat) : Prop :=
  (n.h i).tpcb = some p ∨ (n.h i).upcb = some p

theorem Owned.holds_pcb (h : Owned n) {p : Nat} (hp : Holds n i p) :
    ∃ k, n.stack.pcbs p = some ⟨k, some i⟩ := by
  rcases hp with hp | hp
  · obtain ⟨k, -, hk⟩ := (h.owns i).tcp p hp
    exact ⟨k, hk⟩
  · exact ⟨.udp, (h.owns i).udp p hp⟩

theorem StepOk.released {n' : Service} (h : Owned n) (hstep : StepOk n n') {p : Nat}
    (hp : Holds n i p) : Holds n' i p ∨ n'.stack.pcbs p = none := by
  obtain ⟨k, hk⟩ := h.holds_pcb hp
  rcases hstep.noneReused p ((h.owns i).lt hp) with hsame | hnone
  · exact .inl ((hstep.owned.owns i).known p k (hsame.trans hk))
  · exact .inr hnone

/-- In every run whose commands come in order, the table and the pcbs agree in every state, and
no step lets go of a pcb without releasing it. -/
theorem pcbs_owned (rings : Fin NET_MAX_HANDLES → Fin NET_RX_RING_SIZE → UInt8)
    (ops : List Event)
    (hord : ∀ st ∈ History.history (step cfg) (Service.boot rings) ops, Orderly cfg st.pre st.op) :
    let n := History.final (step cfg) (Service.boot rings) ops
    (∀ i, (n.h i).state = .free → (n.h i).tpcb = none ∧ (n.h i).upcb = none) ∧
      (∀ i, (n.h i).state = .idle → (n.h i).type = .tcp → (n.h i).tpcb = none) ∧
      (∀ p q i, n.stack.pcbs p = some q → q.arg = some i → Holds n i p) ∧
      (∀ p q, n.stack.pcbs p = some q → ∃ i, q.arg = some i) ∧
      (∀ i j p, Holds n i p → Holds n j p → i = j) ∧
      ∀ st ∈ History.history (step cfg) (Service.boot rings) ops, ∀ i p,
        Holds st.pre i p → Holds st.post i p ∨ st.post.stack.pcbs p = none := by
  intro n
  obtain ⟨hn, hsteps⟩ := History.guarded_induction (step cfg) Owned (Orderly cfg)
    (boot_owned rings) (fun t e h hc => (step_ok cfg h hc).owned) ops hord
  refine ⟨fun i => (hn.tidy i).free, fun i => (hn.tidy i).idle, ?_, ?_, ?_, ?_⟩
  · rintro p ⟨k, arg⟩ i hp rfl
    exact (hn.owns i).known p k hp
  · rintro p ⟨k, arg⟩ hp
    exact Option.ne_none_iff_exists'.mp (hn.noStray p _ hp)
  · intro i j p hi hj
    obtain ⟨k, hk⟩ := hn.holds_pcb hi
    obtain ⟨k', hk'⟩ := hn.holds_pcb hj
    rw [hk] at hk'
    cases hk'
    rfl
  · intro st hst i p hp
    obtain ⟨hpre, hpost⟩ := hsteps st hst
    rw [hpost]
    exact StepOk.released hpre (step_ok cfg hpre (hord st hst)) hp

end

def block (bytes : List UInt8) : Jim := fun x => bytes.getD x 0

def issue (i : UInt8) (bytes : List UInt8) : Event := .command {} (block bytes) 0 i

def connectRun : List Event :=
  [issue 0 [45, 0], issue 0 [47, 10, 0, 0, 1, 80, 0], .tcpConnected 0 true]

def leakRun : List Event :=
  connectRun ++ [issue 0 [46, 97, 0], .dnsFound 0 (some 1), issue 0 [47, 10, 0, 0, 1, 80, 0]]

theorem pcbs_owned_connect :
    Holds (History.final (step ⟨0, true⟩) (Service.boot fun _ _ => 0) connectRun) 0 0 :=
  (pcbs_owned ⟨0, true⟩ (fun _ _ => 0) connectRun (by decide)).2.2.1 0 ⟨.tcp, some 0⟩ 0 (by decide)
    rfl

/-- The first connection is alive and calls back with handle 0, which knows only the second. -/
theorem connected_handle_leaks :
    let n := History.final (step ⟨0, true⟩) (Service.boot fun _ _ => 0) leakRun
    n.stack.pcbs 0 = some ⟨.tcp, some 0⟩ ∧ (n.h 0).tpcb = some 1 ∧ (n.h 0).upcb = none ∧
      let m := History.final (step ⟨0, true⟩) (Service.boot fun _ _ => 0) (leakRun.take 5)
      (m.h 0).state = .idle ∧ (m.h 0).type = .tcp ∧ (m.h 0).tpcb = some 0 := by
  decide

end Pi1MHz.Net
