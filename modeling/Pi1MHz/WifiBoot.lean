import Mathlib.Data.List.Basic
import Pi1MHz.History

/-!
# The staged Wi-Fi boot

`wifi_dispatch_poll` runs one stage of the boot and then the lwIP poll; a BBC reset calls `wifi_init`
again, which starts the boot over from the first stage when the last one failed.  The link recovery, the frames and
the web server's own poll are left out here.
-/

namespace Pi1MHz.Wifi

open History (final history)

/-! ### State -/

inductive WifiState where
  | disabled
  | configured
  | imagesReady
  | sdioReady
  | firmwareReady
  | networkReady
  | httpReady
  | error
  deriving DecidableEq, Repr

inductive BootStage where
  | idle
  | startSdio
  | waitSdio
  | optionalProbe
  | initLwip
  | initWebserver
  | complete
  deriving DecidableEq, Repr

/-- `g_wifi_config` and `g_wifi_network_config`: read from the card once, the same at every reset. -/
structure Config where
  enabled : Bool
  ssid : String
  password : String
  ipConfigValid : Bool
  networkValid : Bool
  useDhcp : Bool
  hasDns : Bool
  sdioProbeEnabled : Bool

/-- `wifi_lwip_context_t`, less the addresses. -/
structure Context where
  prepared : Bool := false
  initialized : Bool := false
  netifAdded : Bool := false
  staticConfigured : Bool := false
  dhcpStarted : Bool := false
  timersRunning : Bool := false
  useDhcp : Bool := false
  hasDns : Bool := false
  linkUp : Bool := false
  linkEstablished : Bool := false
  addressReady : Bool := false
  serviceCalls : UInt32 := 0
  deriving DecidableEq

/-- The statics of `wifi.c`, `wifi_lwip.c`, `webserver.c` and `netname.c` that the boot reads or sets.
The last three count the set-ups of the core, the interfaces in lwIP's list and the name responders. -/
structure Globals where
  state : WifiState := .disabled
  error : String := ""
  bootStage : BootStage := .idle
  imagesPreloaded : Bool := false
  initDone : Bool := false
  context : Context := {}
  lwipCoreUp : Bool := false
  wsReady : Bool := false
  netnameReady : Bool := false
  lwipInits : Nat := 0
  netifs : Nat := 0
  netnames : Nat := 0

structure Outcome where
  sdioStart : Bool
  lastError : String
  preload : Bool
  tick : Bool
  started : Bool
  probe : Bool
  chipMac : Bool
  netifAdd : Bool
  dhcpStart : Bool
  webserver : Bool
  linkIsUp : Bool
  address : Bool

inductive Event where
  | reset
  | poll (o : Outcome)

/-! ### wifi.c -/

def WIFI_ERROR_TEXT_MAX_LEN : Nat := 96

def Globals.Healthy (w : Globals) : Prop := w.state ≠ .disabled ∧ w.state ≠ .error

instance (w : Globals) : Decidable w.Healthy := inferInstanceAs (Decidable (_ ∧ _))

def wifiSetError (message : String) (w : Globals) : Globals :=
  { w with
    state := .error
    error := String.ofList (message.toList.take WIFI_ERROR_TEXT_MAX_LEN) }

def wifiNote (pre post : WifiState) (w : Globals) : Globals :=
  if w.state = pre then { w with state := post } else w

def wifiNoteImagesReady (w : Globals) : Globals := wifiNote .configured .imagesReady w

def wifiNoteSdioReady (w : Globals) : Globals := wifiNote .imagesReady .sdioReady w

def wifiNoteFirmwareReady (w : Globals) : Globals := wifiNote .sdioReady .firmwareReady w

def wifiNoteHttpReady (w : Globals) : Globals := wifiNote .networkReady .httpReady w

def wifiNoteNetworkReady (w : Globals) : Globals :=
  let w := wifiNote .firmwareReady .networkReady w
  if w.wsReady then wifiNote .networkReady .httpReady w else w

def wifiBootFail (message : String) (w : Globals) : Globals :=
  { wifiSetError message w with bootStage := .complete }

def wifiValidateConfig (c : Config) (w : Globals) : Bool × Globals :=
  if c.enabled = false then (false, { w with state := .disabled })
  else if c.ssid = "" then
    (false, wifiSetError "wifi_ssid or SSID missing from Pi1MHz.cfg" w)
  else if c.password = "" then
    (false, wifiSetError "wifi_password or SSIDpassword missing from Pi1MHz.cfg" w)
  else if c.ipConfigValid = false then
    (false, wifiSetError "wifi_ip must be 'dhcp' or a valid IPv4 address" w)
  else if c.networkValid = false then
    (false, wifiSetError "static network config requires a valid wifi_ip and wifi_netmask" w)
  else (true, { w with state := .configured })

def wifiInit (c : Config) (w : Globals) : Globals :=
  if w.initDone = true ∧ w.state ≠ .error ∧ w.state ≠ .disabled then w
  else
    match wifiValidateConfig c { w with bootStage := .idle, imagesPreloaded := false, error := "" } with
    | (false, w) => w
    | (true, w) => { w with bootStage := .startSdio, initDone := true }

def wifiPreloadImages (o : Outcome) (w : Globals) : Bool × Globals :=
  if w.imagesPreloaded then (true, w)
  else if o.preload = false then (false, w)
  else (true, wifiNoteImagesReady { w with imagesPreloaded := true })

/-! ### wifi_lwip.c -/

def wifiLwipUpdateRuntimeState (o : Outcome) (w : Globals) : Globals :=
  let up := w.context.netifAdded && o.linkIsUp
  let ready := w.context.netifAdded && o.address
  let w := { w with context := { w.context with
    linkUp := up
    addressReady := ready
    linkEstablished := w.context.linkEstablished || up } }
  if ready then wifiNoteNetworkReady w else w

def wifiLwipPrepare (c : Config) (w : Globals) : Globals :=
  if w.lwipCoreUp then w
  else
    { w with context :=
        { prepared := c.networkValid
          useDhcp := c.useDhcp
          hasDns := c.networkValid && !c.useDhcp && c.hasDns } }

def netnameInit (w : Globals) : Globals :=
  if w.netnameReady then w else { w with netnameReady := true, netnames := w.netnames + 1 }

def netifAdd (o : Outcome) (w : Globals) : Bool × Globals :=
  if o.chipMac = false then
    (false, wifiSetError "chip MAC unavailable; SDIO QUERY_MAC stage did not complete" w)
  else if o.netifAdd = false then (false, w)
  else (true, { w with netifs := w.netifs + 1 })

/-- The second half of `wifi_lwip_init_stack`, from the netif that has been added. -/
def wifiLwipStartStack (o : Outcome) (w : Globals) : Globals :=
  let w := netnameInit
    { w with lwipCoreUp := true, context := { w.context with netifAdded := true, timersRunning := true } }
  if w.context.useDhcp then
    let w :=
      if o.dhcpStart then { w with context := { w.context with dhcpStarted := true } }
      else wifiSetError "lwIP dhcp_start failed" w
    wifiLwipUpdateRuntimeState o w
  else wifiLwipUpdateRuntimeState o { w with context := { w.context with staticConfigured := true } }

def wifiLwipInitStack (o : Outcome) (w : Globals) : Globals :=
  if w.context.prepared = false then w
  else if w.lwipCoreUp then
    -- a retry: the core and the interface are there, only the address is asked for again
    let w :=
      if w.context.useDhcp = true ∧ w.context.dhcpStarted = false ∧ o.dhcpStart = true then
        { w with context := { w.context with dhcpStarted := true } }
      else w
    wifiLwipUpdateRuntimeState o w
  else
    match netifAdd o
      { w with lwipInits := w.lwipInits + 1, context := { w.context with initialized := true } } with
    | (false, w) => if w.state ≠ .error then wifiSetError "lwIP netif_add failed" w else w
    | (true, w) => wifiLwipStartStack o w

def wifiLwipPoll (o : Outcome) (w : Globals) : Globals :=
  if w.context.timersRunning = false then w
  else if w.state = .error then { w with context := { w.context with timersRunning := false } }
  else
    wifiLwipUpdateRuntimeState o
      { w with context := { w.context with serviceCalls := w.context.serviceCalls + 1 } }

def webserverInit (o : Outcome) (w : Globals) : Globals :=
  if o.webserver then wifiNoteHttpReady { w with wsReady := true } else { w with wsReady := false }

def wifiBoot (c : Config) (o : Outcome) (w : Globals) : Globals :=
  if w.state = .disabled ∨ w.state = .error then w
  else
    match w.bootStage with
    | .startSdio =>
      if o.sdioStart = false then wifiBootFail o.lastError w
      else
        match wifiPreloadImages o w with
        | (false, w) => wifiBootFail "CYW43 firmware preload failed" w
        | (true, w) => { w with bootStage := .waitSdio }
    | .waitSdio =>
      if o.tick then w
      else if o.started then
        { wifiNoteFirmwareReady (wifiNoteSdioReady w) with bootStage := .optionalProbe }
      else wifiBootFail o.lastError w
    | .optionalProbe =>
      let w := if c.sdioProbeEnabled && o.probe then wifiNoteSdioReady w else w
      { w with bootStage := .initLwip }
    | .initLwip => { wifiLwipInitStack o (wifiLwipPrepare c w) with bootStage := .initWebserver }
    | .initWebserver => { webserverInit o w with bootStage := .complete }
    | .idle | .complete => w

def wifiDispatchPoll (c : Config) (o : Outcome) (w : Globals) : Globals := wifiLwipPoll o (wifiBoot c o w)

def step (c : Config) (w : Globals) : Event → Globals
  | .reset => wifiInit c w
  | .poll o => wifiDispatchPoll c o w

structure BootOk (w : Globals) : Prop where
  running : w.bootStage = .complete → w.Healthy → w.context.timersRunning = true ∧ w.netifs = 1
  lwipInits : w.lwipInits ≤ 1
  netifs : w.netifs ≤ 1
  netnames : w.netnames ≤ 1

def SetsUpOnce (w : Globals) : Event → Prop
  | .reset => True
  | .poll _ => w.Healthy → w.bootStage = .initLwip → w.context.initialized = false

instance (w : Globals) : ∀ e, Decidable (SetsUpOnce w e)
  | .reset => isTrue trivial
  | .poll _ => inferInstanceAs (Decidable (_ → _))

/-! ### What only notes progress -/

structure Notes (w w' : Globals) : Prop where
  bootStage : w'.bootStage = w.bootStage
  lwipCoreUp : w'.lwipCoreUp = w.lwipCoreUp
  netnameReady : w'.netnameReady = w.netnameReady
  initialized : w'.context.initialized = w.context.initialized
  timersRunning : w'.context.timersRunning = w.context.timersRunning
  lwipInits : w'.lwipInits = w.lwipInits
  netifs : w'.netifs = w.netifs
  netnames : w'.netnames = w.netnames
  healthy : w'.Healthy ↔ w.Healthy

variable {c : Config} {o : Outcome} {w w' : Globals}

theorem Notes.refl (w : Globals) : Notes w w := ⟨rfl, rfl, rfl, rfl, rfl, rfl, rfl, rfl, Iff.rfl⟩

theorem Notes.trans {w'' : Globals} (h : Notes w w') (h' : Notes w' w'') : Notes w w'' where
  bootStage := h'.bootStage.trans h.bootStage
  lwipCoreUp := h'.lwipCoreUp.trans h.lwipCoreUp
  netnameReady := h'.netnameReady.trans h.netnameReady
  initialized := h'.initialized.trans h.initialized
  timersRunning := h'.timersRunning.trans h.timersRunning
  lwipInits := h'.lwipInits.trans h.lwipInits
  netifs := h'.netifs.trans h.netifs
  netnames := h'.netnames.trans h.netnames
  healthy := h'.healthy.trans h.healthy

theorem wifiNote_notes {pre post : WifiState} (hpre : pre ≠ .disabled ∧ pre ≠ .error)
    (hpost : post ≠ .disabled ∧ post ≠ .error) (w : Globals) : Notes w (wifiNote pre post w) := by
  unfold wifiNote
  split
  · next hst =>
    refine ⟨rfl, rfl, rfl, rfl, rfl, rfl, rfl, rfl, iff_of_true hpost ?_⟩
    unfold Globals.Healthy
    rw [hst]
    exact hpre
  · exact Notes.refl w

theorem wifiNoteSdioReady_notes (w : Globals) : Notes w (wifiNoteSdioReady w) :=
  wifiNote_notes (by decide) (by decide) w

theorem wifiNoteFirmwareReady_notes (w : Globals) : Notes w (wifiNoteFirmwareReady w) :=
  wifiNote_notes (by decide) (by decide) w

theorem wifiNoteNetworkReady_notes (w : Globals) : Notes w (wifiNoteNetworkReady w) := by
  have hnetwork : Notes w (wifiNote .firmwareReady .networkReady w) :=
    wifiNote_notes (by decide) (by decide) w
  unfold wifiNoteNetworkReady
  simp only
  split
  · exact hnetwork.trans (wifiNote_notes (by decide) (by decide) _)
  · exact hnetwork

theorem wifiLwipUpdateRuntimeState_notes (o : Outcome) (w : Globals) :
    Notes w (wifiLwipUpdateRuntimeState o w) := by
  have hlink : ∀ x : Context, x.initialized = w.context.initialized →
      x.timersRunning = w.context.timersRunning → Notes w { w with context := x } :=
    fun x hinit htimers => ⟨rfl, rfl, rfl, hinit, htimers, rfl, rfl, rfl, Iff.rfl⟩
  unfold wifiLwipUpdateRuntimeState
  simp only
  split
  · refine Notes.trans ?_ (wifiNoteNetworkReady_notes _)
    exact hlink _ rfl rfl
  · exact hlink _ rfl rfl

theorem webserverInit_notes (o : Outcome) (w : Globals) : Notes w (webserverInit o w) := by
  unfold webserverInit
  split
  · have hready : Notes w { w with wsReady := true } := ⟨rfl, rfl, rfl, rfl, rfl, rfl, rfl, rfl, Iff.rfl⟩
    exact hready.trans (wifiNote_notes (by decide) (by decide) _)
  · exact ⟨rfl, rfl, rfl, rfl, rfl, rfl, rfl, rfl, Iff.rfl⟩

/-! ### The invariant -/

structure Counted (w : Globals) : Prop where
  core : w.lwipCoreUp = true → w.context.initialized = true
  lwipInits : w.lwipInits = w.context.initialized.toNat
  netifs : w.netifs = w.lwipCoreUp.toNat
  netnames : w.netnames = w.netnameReady.toNat

def Polled (w : Globals) : Prop := w.lwipCoreUp = true ∧ w.context.timersRunning = true

structure Inv (c : Config) (w : Globals) : Prop extends Counted w where
  valid : w.bootStage ≠ .idle → c.networkValid = true
  polled : w.Healthy → w.bootStage = .initWebserver ∨ w.bootStage = .complete → Polled w

theorem counted_powerUp : Counted {} where
  core h := by cases h
  lwipInits := rfl
  netifs := rfl
  netnames := rfl

theorem inv_powerUp (c : Config) : Inv c {} where
  toCounted := counted_powerUp
  valid h := absurd rfl h
  polled _ h := by rcases h with h | h <;> cases h

theorem Counted.notes (h : Counted w) (hn : Notes w w') : Counted w' where
  core hcore := by
    rw [hn.lwipCoreUp] at hcore
    rw [hn.initialized]
    exact h.core hcore
  lwipInits := by rw [hn.lwipInits, hn.initialized, h.lwipInits]
  netifs := by rw [hn.netifs, hn.lwipCoreUp, h.netifs]
  netnames := by rw [hn.netnames, hn.netnameReady, h.netnames]

theorem Polled.notes (h : Polled w) (hn : Notes w w') : Polled w' :=
  ⟨hn.lwipCoreUp.trans h.1, hn.timersRunning.trans h.2⟩

theorem Inv.notes (h : Inv c w) (hn : Notes w w') : Inv c w' where
  toCounted := h.toCounted.notes hn
  valid hstage := h.valid (hn.bootStage ▸ hstage)
  polled hhealthy hstage := by
    rw [hn.bootStage] at hstage
    exact (h.polled (hn.healthy.mp hhealthy) hstage).notes hn

theorem Counted.goto (h : Counted w) {s : WifiState} {t : BootStage} {p i : Bool} {m : String} :
    Counted { w with state := s, bootStage := t, imagesPreloaded := p, initDone := i, error := m } :=
  { h with }

theorem Inv.goto (h : Inv c w) {s : WifiState} {t : BootStage} (hvalid : t ≠ .idle → c.networkValid = true)
    (hearly : (s ≠ .disabled ∧ s ≠ .error) → t ≠ .initWebserver ∧ t ≠ .complete)
    {p i : Bool} {m : String} :
    Inv c { w with state := s, bootStage := t, imagesPreloaded := p, initDone := i, error := m } where
  toCounted := h.toCounted.goto
  valid := hvalid
  polled hhealthy hstage := by
    obtain ⟨hserver, hcomplete⟩ := hearly hhealthy
    rcases hstage with hstage | hstage
    · exact absurd hstage hserver
    · exact absurd hstage hcomplete

theorem Inv.ok (h : Inv c w) : BootOk w where
  running hstage hhealthy := by
    obtain ⟨hcore, htimers⟩ := h.polled hhealthy (.inr hstage)
    rw [h.netifs, hcore]
    exact ⟨htimers, rfl⟩
  lwipInits := h.lwipInits ▸ Bool.toNat_le _
  netifs := h.netifs ▸ Bool.toNat_le _
  netnames := h.netnames ▸ Bool.toNat_le _

/-! ### Steps -/

theorem Inv.bootFail (h : Inv c w) (hvalid : c.networkValid = true) (message : String) :
    Inv c (wifiBootFail message w) :=
  h.goto (fun _ => hvalid) fun hhealthy => absurd rfl hhealthy.2

theorem Inv.wifiInit (h : Inv c w) : Inv c (wifiInit c w) := by
  have hidle : ∀ s : WifiState, ∀ m : String, Inv c { w with
      state := s, bootStage := .idle, imagesPreloaded := false, error := m } := fun s m =>
    h.goto (fun hne => absurd rfl hne) fun _ => ⟨by decide, by decide⟩
  unfold Wifi.wifiInit
  split
  · exact h
  · unfold wifiValidateConfig
    split_ifs with henabled hssid hpassword hip hnetwork
    · exact hidle _ _
    · exact hidle _ _
    · exact hidle _ _
    · exact hidle _ _
    · exact hidle _ _
    · exact h.goto (fun _ => by simpa using hnetwork) fun _ => ⟨by decide, by decide⟩

theorem Inv.wifiPreloadImages (h : Inv c w) (o : Outcome) : Inv c (wifiPreloadImages o w).2 := by
  unfold Wifi.wifiPreloadImages
  split_ifs with hdone hfail
  · exact h
  · exact h
  · apply Inv.notes (w := { w with imagesPreloaded := true })
    · exact ⟨h.toCounted.goto, h.valid, h.polled⟩
    · exact wifiNote_notes (by decide) (by decide) _

theorem Counted.netnameInit (h : Counted w) : Counted (netnameInit w) := by
  unfold Wifi.netnameInit
  split
  · exact h
  · next hready =>
    refine ⟨h.core, h.lwipInits, h.netifs, ?_⟩
    have hnone : w.netnames = 0 := by rw [h.netnames, Bool.eq_false_iff.mpr hready, Bool.toNat_false]
    change w.netnames + 1 = true.toNat
    rw [hnone, Bool.toNat_true]

theorem Polled.netnameInit (h : Polled w) : Polled (netnameInit w) := by
  unfold Wifi.netnameInit
  split
  · exact h
  · exact h

theorem wifiLwipStartStack_spec (o : Outcome)
    (h : Counted { w with
      lwipCoreUp := true
      context := { w.context with netifAdded := true, timersRunning := true } }) :
    Counted (wifiLwipStartStack o w) ∧ Polled (wifiLwipStartStack o w) := by
  have hcounted := h.netnameInit
  have hpolled := Polled.netnameInit (w := { w with
    lwipCoreUp := true
    context := { w.context with netifAdded := true, timersRunning := true } }) ⟨rfl, rfl⟩
  unfold wifiLwipStartStack
  simp only
  generalize Wifi.netnameInit _ = v at hcounted hpolled ⊢
  have hnoted : ∀ x : Context, x.initialized = v.context.initialized →
      x.timersRunning = v.context.timersRunning → Notes v { v with context := x } :=
    fun x hinit htimers => ⟨rfl, rfl, rfl, hinit, htimers, rfl, rfl, rfl, Iff.rfl⟩
  have hupdate : ∀ u : Globals, Counted u → Polled u →
      Counted (wifiLwipUpdateRuntimeState o u) ∧ Polled (wifiLwipUpdateRuntimeState o u) :=
    fun u hu hp => ⟨hu.notes (wifiLwipUpdateRuntimeState_notes o u),
      hp.notes (wifiLwipUpdateRuntimeState_notes o u)⟩
  split_ifs with hdhcp hstart
  · exact hupdate _ (hcounted.notes (hnoted _ rfl rfl)) (hpolled.notes (hnoted _ rfl rfl))
  · exact hupdate _ hcounted.goto hpolled
  · exact hupdate _ (hcounted.notes (hnoted _ rfl rfl)) (hpolled.notes (hnoted _ rfl rfl))

theorem netifAdd_cases (o : Outcome) (w : Globals) :
    netifAdd o w = (true, { w with netifs := w.netifs + 1 }) ∨ netifAdd o w = (false, w) ∨
      ∃ message, netifAdd o w = (false, wifiSetError message w) := by
  unfold netifAdd
  split_ifs with hmac hadd
  · exact .inr (.inr ⟨_, rfl⟩)
  · exact .inr (.inl rfl)
  · exact .inl rfl

theorem wifiLwipInitStack_first (o : Outcome) (hprepared : w.context.prepared = true)
    (hdown : w.lwipCoreUp = false) (hinits : w.lwipInits = 0) (hnetifs : w.netifs = 0)
    (hnames : w.netnames = w.netnameReady.toNat) :
    Counted (wifiLwipInitStack o w) ∧
      ((wifiLwipInitStack o w).Healthy → Polled (wifiLwipInitStack o w)) := by
  unfold wifiLwipInitStack
  rw [if_neg (by rw [hprepared]; decide), if_neg (by rw [hdown]; decide)]
  have hcore : Counted { w with
      lwipInits := w.lwipInits + 1, context := { w.context with initialized := true } } :=
    ⟨fun _ => rfl, congrArg (· + 1) hinits, by rw [hnetifs, hdown]; rfl, hnames⟩
  generalize hv : ({ w with
    lwipInits := w.lwipInits + 1, context := { w.context with initialized := true } } : Globals) = v at hcore ⊢
  have hfailed : ∀ message, Counted (wifiSetError message v) ∧
      ((wifiSetError message v).Healthy → Polled (wifiSetError message v)) :=
    fun message => ⟨hcore.goto, fun hhealthy => absurd rfl hhealthy.2⟩
  rcases netifAdd_cases o v with hadd | hadd | ⟨message, hadd⟩
  · rw [hadd]
    obtain ⟨hcounted, hpolled⟩ := wifiLwipStartStack_spec o (w := { v with netifs := v.netifs + 1 })
      ⟨fun _ => by rw [← hv], by rw [← hv]; exact congrArg (· + 1) hinits,
        by rw [← hv]; exact congrArg (· + 1) hnetifs, hcore.netnames⟩
    exact ⟨hcounted, fun _ => hpolled⟩
  · rw [hadd]
    simp only
    split_ifs with herror
    · exact hfailed _
    · exact ⟨hcore, fun hhealthy => absurd (not_not.mp herror) hhealthy.2⟩
  · rw [hadd]
    simp only
    rw [if_neg (by exact fun hne => hne rfl)]
    exact hfailed message

theorem initLwip_spec (h : Inv c w) (o : Outcome) (hstage : w.bootStage = .initLwip)
    (honce : w.context.initialized = false) :
    Counted (wifiLwipInitStack o (wifiLwipPrepare c w)) ∧
      ((wifiLwipInitStack o (wifiLwipPrepare c w)).Healthy →
        Polled (wifiLwipInitStack o (wifiLwipPrepare c w))) := by
  have hvalid : c.networkValid = true := h.valid (by rw [hstage]; decide)
  have hdown : w.lwipCoreUp = false := by
    by_contra hcore
    rw [h.core (by simpa using hcore)] at honce
    cases honce
  have hprepared : wifiLwipPrepare c w = { w with context :=
      { prepared := c.networkValid
        useDhcp := c.useDhcp
        hasDns := c.networkValid && !c.useDhcp && c.hasDns } } := by
    unfold wifiLwipPrepare
    rw [if_neg (by rw [hdown]; decide)]
  rw [hprepared]
  apply wifiLwipInitStack_first
  · exact hvalid
  · exact hdown
  · rw [h.lwipInits, honce, Bool.toNat_false]
  · rw [h.netifs, hdown, Bool.toNat_false]
  · exact h.netnames

theorem Inv.wifiBoot (h : Inv c w) (o : Outcome)
    (honce : w.Healthy → w.bootStage = .initLwip → w.context.initialized = false) :
    Inv c (wifiBoot c o w) := by
  unfold Wifi.wifiBoot
  by_cases hfailed : w.state = .disabled ∨ w.state = .error
  · rw [if_pos hfailed]
    exact h
  rw [if_neg hfailed]
  obtain ⟨hdisabled, herror⟩ := not_or.mp hfailed
  cases hstage : w.bootStage with
  | idle => exact h
  | complete => exact h
  | startSdio =>
    have hvalid : c.networkValid = true := h.valid (by rw [hstage]; decide)
    simp only
    split_ifs with hsdio
    · exact h.bootFail hvalid _
    · have hpreload := h.wifiPreloadImages o
      cases hloaded : Wifi.wifiPreloadImages o w with
      | mk loaded w' =>
        rw [hloaded] at hpreload
        cases loaded with
        | false => exact hpreload.bootFail hvalid _
        | true => exact hpreload.goto (fun _ => hvalid) fun _ => ⟨by decide, by decide⟩
  | waitSdio =>
    have hvalid : c.networkValid = true := h.valid (by rw [hstage]; decide)
    simp only
    split_ifs with htick hstarted
    · exact h
    · have hnoted := (h.notes (wifiNoteSdioReady_notes w)).notes (wifiNoteFirmwareReady_notes _)
      exact hnoted.goto (fun _ => hvalid) fun _ => ⟨by decide, by decide⟩
    · exact h.bootFail hvalid _
  | optionalProbe =>
    have hvalid : c.networkValid = true := h.valid (by rw [hstage]; decide)
    simp only
    split_ifs with hprobe
    · exact (h.notes (wifiNoteSdioReady_notes w)).goto (fun _ => hvalid) fun _ => ⟨by decide, by decide⟩
    · exact h.goto (fun _ => hvalid) fun _ => ⟨by decide, by decide⟩
  | initLwip =>
    have hvalid : c.networkValid = true := h.valid (by rw [hstage]; decide)
    obtain ⟨hcounted, hpolled⟩ := initLwip_spec h o hstage (honce ⟨hdisabled, herror⟩ hstage)
    exact ⟨hcounted.goto, fun _ => hvalid, fun hhealthy _ => hpolled hhealthy⟩
  | initWebserver =>
    have hnoted := webserverInit_notes o w
    have hpolled := (h.polled ⟨hdisabled, herror⟩ (.inl hstage)).notes hnoted
    exact ⟨(h.toCounted.notes hnoted).goto, fun _ => h.valid (by rw [hstage]; decide),
      fun _ _ => hpolled⟩

theorem Inv.wifiLwipPoll (h : Inv c w) (o : Outcome) : Inv c (wifiLwipPoll o w) := by
  unfold Wifi.wifiLwipPoll
  split_ifs with hoff herror
  · exact h
  · exact ⟨{ h with }, h.valid,
      fun hhealthy => absurd herror hhealthy.2⟩
  · apply Inv.notes (w := w) h
    refine Notes.trans ?_ (wifiLwipUpdateRuntimeState_notes o _)
    exact ⟨rfl, rfl, rfl, rfl, rfl, rfl, rfl, rfl, Iff.rfl⟩

theorem Inv.step (h : Inv c w) {e : Event} (honce : SetsUpOnce w e) : Inv c (step c w e) := by
  cases e with
  | reset => exact h.wifiInit
  | poll o => exact (h.wifiBoot o honce).wifiLwipPoll o

/-- As long as no boot repeats the set-up of the stack, a boot that completes has its stack polled. -/
theorem boot_retry (c : Config) (es : List Event)
    (honce : ∀ st ∈ history (step c) {} es, SetsUpOnce st.pre st.op) :
    ∀ st ∈ history (step c) {} es, BootOk st.pre ∧ BootOk st.post := by
  obtain ⟨-, hall⟩ := History.guarded_induction (step c) (Inv c) SetsUpOnce (inv_powerUp c)
    (fun _ _ h hop => h.step hop) es honce
  intro st hst
  obtain ⟨hpre, hpost⟩ := hall st hst
  refine ⟨hpre.ok, ?_⟩
  rw [hpost]
  exact (hpre.step (honce st hst)).ok

def homeNetwork : Config where
  enabled := true
  ssid := "home"
  password := "secret"
  ipConfigValid := true
  networkValid := true
  useDhcp := true
  hasDns := false
  sdioProbeEnabled := false

def allWell : Outcome where
  sdioStart := true
  lastError := ""
  preload := true
  tick := false
  started := true
  probe := false
  chipMac := true
  netifAdd := true
  dhcpStart := true
  webserver := true
  linkIsUp := true
  address := false

def sdioRetried : List Event :=
  [.reset, .poll { allWell with sdioStart := false }, .reset] ++ List.replicate 5 (.poll allWell)

theorem boot_retry_sdio :
    (∀ st ∈ history (step homeNetwork) {} sdioRetried, BootOk st.pre ∧ BootOk st.post) ∧
      (final (step homeNetwork) {} sdioRetried).bootStage = .complete ∧
      (final (step homeNetwork) {} sdioRetried).Healthy :=
  ⟨boot_retry homeNetwork sdioRetried (by decide +kernel), by decide +kernel, by decide +kernel⟩

def dhcpRetried : List Event :=
  [.reset, .poll allWell, .poll allWell, .poll allWell, .poll { allWell with dhcpStart := false },
    .reset, .poll allWell, .poll allWell, .poll allWell, .poll allWell, .poll allWell]

theorem retried_stack_not_polled : ¬BootOk (final (step homeNetwork) {} dhcpRetried) := by
  intro h
  have hrun := (h.running (by decide +kernel) (by decide +kernel)).1
  revert hrun
  decide +kernel

end Pi1MHz.Wifi
