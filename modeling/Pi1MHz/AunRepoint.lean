import Pi1MHz.AunSource

/-!
# Inbound traffic and the station map

`aun_udp_input` edits the station map in one place: learn mode attributes a datagram from an
unmapped source to a station, and `aun_map_add` enters it.
-/

namespace Pi1MHz.Aun

open History (Step)

variable (T : Transport)

def inbound (d : UInt32 × UInt16 × List UInt8) : Op := .udpInput d.1 d.2.1 d.2.2

/-- A datagram from an unmapped source that learn mode attributes to a station with an entry
    of its own. -/
def takesOver (e : Engine) : Op → Bool
  | .udpInput ipBe port buf =>
      isFunnel buf && (mapFindByIp e.map ipBe port).isNone &&
        match learnAttribute e ipBe port with
        | some (net, stn) => (mapFindByAddr e.map net stn).isSome
        | none => false
  | _ => false

def EntriesKept (map map' : List MapEntry) : Prop :=
  ∀ (i : Nat) (m : MapEntry), map[i]? = some m → ∃ m' : MapEntry, map'[i]? = some m' ∧
    m'.net = m.net ∧ m'.stn = m.stn ∧ m'.ipBe = m.ipBe ∧ m'.udpPort = m.udpPort ∧ m'.seqValid = m.seqValid

theorem EntriesKept.refl (map : List MapEntry) : EntriesKept map map :=
  fun _ m hm => ⟨m, hm, rfl, rfl, rfl, rfl, rfl⟩

theorem EntriesKept.trans {a b c : List MapEntry} (h : EntriesKept a b) (h' : EntriesKept b c) :
    EntriesKept a c := by
  intro i m hm
  obtain ⟨m', hm', h1, h2, h3, h4, h5⟩ := h i m hm
  obtain ⟨m'', hm'', g1, g2, g3, g4, g5⟩ := h' i m' hm'
  exact ⟨m'', hm'', g1.trans h1, g2.trans h2, g3.trans h3, g4.trans h4, g5.trans h5⟩

theorem EntriesKept.append (map new : List MapEntry) : EntriesKept map (map ++ new) := by
  intro i m hm
  refine ⟨m, ?_, rfl, rfl, rfl, rfl, rfl⟩
  rw [List.getElem?_append_left (List.getElem?_eq_some_iff.mp hm).1]
  exact hm

/-! ### The map after a datagram -/

theorem funnelData_of_isFunnel {buf : List UInt8} (h : isFunnel buf = true) :
    FunnelData buf (buf.getD 1 0) (buf.getD 2 0 &&& 0x7F) (rd32le (buf.drop 4))
      (buf.drop AUN_HDR_SIZE) := by
  simp only [isFunnel, Bool.and_eq_true, decide_eq_true_eq, beq_iff_eq, Bool.not_eq_true',
    Bool.and_eq_false_iff, beq_eq_false_iff_ne] at h
  obtain ⟨⟨hlen, htype⟩, hclass⟩ := h
  refine ⟨fun h4 => ?_, hlen, htype, rfl, rfl, rfl, rfl⟩
  rcases hclass with hp | hc
  · exact hp h4.1
  · rw [h4.2] at hc
    cases hc

theorem udpInput_map {e : Engine} (hready : e.initialised = true) (ipBe : UInt32) (port : UInt16)
    (buf : List UInt8) :
    (step T e (.udpInput ipBe port buf)).map = remapped e (.udpInput ipBe port buf) := by
  rw [← remapped_beginCall]
  cases hf : isFunnel buf with
  | true =>
    change (aunUdpInput T e.beginCall ipBe port buf).map = _
    rw [aunUdpInput_funnel T (e := e.beginCall) hready (funnelData_of_isFunnel hf), remapped,
      if_pos hf]
    unfold inputFunnelData dataVerdict
    dsimp only
    rw [(traceData_same _ _ _ _ _ _ _ _ _).1.map]
    split
    · simp
    · rename_i m hm
      rcases dataFrom_rx T (attributeSource e.beginCall ipBe port).2 ipBe port (buf.getD 1 0)
        (buf.getD 2 0 &&& 0x7F) (rd32le (buf.drop 4)) m (buf.drop AUN_HDR_SIZE) with
        hsame | ⟨-, -, i, -, -, hmap, -⟩
      · exact hsame.map
      · exact hmap
  | false =>
    have hkeep : remapped e.beginCall (.udpInput ipBe port buf) = e.map := by
      simp [remapped, hf, Engine.beginCall]
    rw [hkeep]
    have hrx := step_rx T e (.udpInput ipBe port buf)
    generalize step T e (.udpInput ipBe port buf) = e' at hrx
    cases hrx with
    | kept h => exact h.map
    | learned hd => rw [hd.isFunnel] at hf; cases hf
    | arrived hd => rw [hd.isFunnel] at hf; cases hf
    | arrivedLocal hs hrx hmap hcond => exact hmap

theorem mapFindByIp_none {map : List MapEntry} {ipBe : UInt32} {port : UInt16}
    (h : mapFindByIp map ipBe port = none) {m : MapEntry} (hm : m ∈ map) :
    ¬(m.ipBe = ipBe ∧ m.udpPort = port) := by
  have := List.findIdx?_eq_none_iff.mp h m hm
  simpa using this

theorem attributeSource_kept_iff (e : Engine) (ipBe : UInt32) (port : UInt16) {buf : List UInt8}
    (hf : isFunnel buf = true) :
    EntriesKept e.map (attributeSource e ipBe port).2.map ↔
      takesOver e (.udpInput ipBe port buf) = false := by
  unfold attributeSource
  cases hfind : mapFindByIp e.map ipBe port with
  | some j => simp [takesOver, hfind, EntriesKept.refl]
  | none =>
    cases hlearn : learnAttribute e ipBe port with
    | none => simp [takesOver, hlearn, EntriesKept.refl]
    | some a =>
      obtain ⟨net, stn⟩ := a
      simp only [takesOver, hf, hfind, hlearn, Option.isNone_none, Bool.true_and, aunMapAdd]
      generalize hport : (if port = 0 then AUN_DEFAULT_UDP_PORT else port) = port'
      have hport' : port' = port := by
        have hdefault : port = AUN_DEFAULT_UDP_PORT := by
          unfold learnAttribute at hlearn
          split_ifs at hlearn
          all_goals simp_all
        rw [← hport, hdefault]
        decide
      cases haddr : mapFindByAddr e.map net stn with
      | none =>
        simp only [Option.isSome_none, iff_true]
        split_ifs
        · exact EntriesKept.refl _
        · exact EntriesKept.append _ _
      | some i =>
        simp only [Option.isSome_some, Bool.true_eq_false, iff_false]
        intro hkept
        obtain ⟨hlt, -⟩ := List.findIdx?_eq_some_iff_getElem.mp haddr
        have hi : e.map[i]? = some e.map[i] := List.getElem?_eq_getElem hlt
        obtain ⟨m', hm', -, -, hip, hudp, -⟩ := hkept i e.map[i] hi
        simp only [Engine.withMap, List.getElem?_modify, hi] at hm'
        obtain rfl : (e.map[i]).point ipBe port' = m' := by simpa using hm'
        refine mapFindByIp_none hfind (List.getElem_mem hlt) ⟨hip.symm, ?_⟩
        rw [← hport']
        exact hudp.symm

theorem udpInput_kept_iff {e : Engine} (hready : e.initialised = true)
    (d : UInt32 × UInt16 × List UInt8) :
    EntriesKept e.map (step T e (inbound d)).map ↔ takesOver e (inbound d) = false := by
  obtain ⟨ipBe, port, buf⟩ := d
  unfold inbound
  rw [udpInput_map T hready, remapped]
  cases hf : isFunnel buf with
  | true =>
    rw [if_pos rfl]
    exact attributeSource_kept_iff e ipBe port hf
  | false => simp [takesOver, hf, EntriesKept.refl]

/-! ### Whole runs -/

theorem EntriesKept.mapFindByAddr {map map' : List MapEntry} (h : EntriesKept map map')
    {net stn : UInt8} {i : Nat} (hi : mapFindByAddr map net stn = some i) :
    Aun.mapFindByAddr map' net stn = some i := by
  obtain ⟨hlt, hp, hbefore⟩ := List.findIdx?_eq_some_iff_getElem.mp hi
  obtain ⟨m', hm', hnet, hstn, -⟩ := h i map[i] (List.getElem?_eq_getElem hlt)
  obtain ⟨hlt', rfl⟩ := List.getElem?_eq_some_iff.mp hm'
  refine List.findIdx?_eq_some_iff_getElem.mpr ⟨hlt', ?_, fun j hj => ?_⟩
  · rw [hnet, hstn]
    exact hp
  · have hjlt : j < map.length := hj.trans hlt
    obtain ⟨m'', hm'', hnet', hstn', -⟩ := h j map[j] (List.getElem?_eq_getElem hjlt)
    obtain ⟨hjlt', rfl⟩ := List.getElem?_eq_some_iff.mp hm''
    rw [hnet', hstn']
    exact hbefore j hj

theorem EntriesKept.txRoute {e e' : Engine} (h : EntriesKept e.map e'.map) {net stn : UInt8}
    (hmapped : (Aun.mapFindByAddr e.map net stn).isSome = true) :
    Aun.txRoute e' net stn = Aun.txRoute e net stn := by
  obtain ⟨i, hi⟩ := Option.isSome_iff_exists.mp hmapped
  obtain ⟨hlt, -⟩ := List.findIdx?_eq_some_iff_getElem.mp hi
  obtain ⟨m', hm', -, -, hip, hport, -⟩ := h i e.map[i] (List.getElem?_eq_getElem hlt)
  unfold Aun.txRoute
  rw [hi, h.mapFindByAddr hi]
  simp only [hm', List.getElem?_eq_getElem hlt, Option.map_some, hip, hport]

theorem entriesKept_final (e : Engine) (ops : List Op)
    (h : ∀ st ∈ History.history (step T) e ops, EntriesKept st.pre.map st.post.map) :
    EntriesKept e.map (History.final (step T) e ops).map := by
  induction ops generalizing e with
  | nil => exact EntriesKept.refl _
  | cons op ops ih =>
    have hfirst := h ⟨e, op, step T e op⟩ (List.mem_cons_self ..)
    exact hfirst.trans (ih _ fun st hst => h st (List.mem_cons_of_mem _ hst))

/-- From every reachable state, whatever datagrams arrive: they leave every map entry alone
    exactly if none of them is attributed to a station that has an entry at another address,
    and then every mapped station keeps its route. -/
theorem inbound_keeps_map_iff (mem : Nat → UInt8) (station net : UInt8) (ops : List Op)
    (dgrams : List (UInt32 × UInt16 × List UInt8)) :
    let e := runState T mem station net ops
    let hist := History.history (step T) e (dgrams.map inbound)
    ((∀ st ∈ hist, EntriesKept st.pre.map st.post.map) ↔
      ∀ st ∈ hist, takesOver st.pre st.op = false) ∧
    ((∀ st ∈ hist, takesOver st.pre st.op = false) →
      EntriesKept e.map (History.final (step T) e (dgrams.map inbound)).map ∧
      ∀ destNet destStn, (mapFindByAddr e.map destNet destStn).isSome = true →
        txRoute (History.final (step T) e (dgrams.map inbound)) destNet destStn =
          txRoute e destNet destStn) := by
  intro e hist
  have hstep : ∀ st ∈ hist,
      (EntriesKept st.pre.map st.post.map ↔ takesOver st.pre st.op = false) := by
    intro st hst
    obtain ⟨before, op, after, hops, rfl⟩ := History.mem_history (step T) hst
    have hmem : op ∈ dgrams.map inbound := by
      rw [hops]
      simp
    obtain ⟨d, -, rfl⟩ := List.mem_map.mp hmem
    refine udpInput_kept_iff T ?_ d
    change (History.final (step T) (History.final (step T) (start mem station net) ops)
      before).initialised = true
    rw [← History.final_append]
    exact initialised_run T mem station net (ops ++ before)
  have hiff : (∀ st ∈ hist, EntriesKept st.pre.map st.post.map) ↔
      ∀ st ∈ hist, takesOver st.pre st.op = false :=
    ⟨fun h st hst => (hstep st hst).mp (h st hst), fun h st hst => (hstep st hst).mpr (h st hst)⟩
  refine ⟨hiff, fun hno => ?_⟩
  have hkept := entriesKept_final T e (dgrams.map inbound) (hiff.mpr hno)
  exact ⟨hkept, fun destNet destStn hmapped => hkept.txRoute hmapped⟩

/-- Station 2.44 is configured at 192.168.1.44:32769.  A datagram from 192.168.1.44:32768,
    which has no entry, is attributed to it by learn mode and moves it to port 32768. -/
theorem mapped_peer_moved :
    let e := runState .steady (fun _ => 0) 1 0
      [.mapAdd 2 44 0x2C01A8C0 32769, .setAddressing 0xFF01A8C0 0x1401A8C0 0x00FFFFFF 2]
    let e' := step .steady e (inbound (0x2C01A8C0, 32768, [2, 0x55, 0, 0, 8, 0, 0, 0, 7]))
    txRoute e 2 44 = some (0x2C01A8C0, 32769) ∧ txRoute e' 2 44 = some (0x2C01A8C0, 32768) ∧
      ¬EntriesKept e.map e'.map := by
  intro e e'
  have hroute : txRoute e 2 44 = some (0x2C01A8C0, 32769) := by decide +kernel
  have hroute' : txRoute e' 2 44 = some (0x2C01A8C0, 32768) := by decide +kernel
  refine ⟨hroute, hroute', fun hkept => ?_⟩
  have hmapped : (mapFindByAddr e.map 2 44).isSome = true := by decide +kernel
  have hsame := hkept.txRoute hmapped
  rw [hroute, hroute'] at hsame
  exact absurd hsame (by decide)

end Pi1MHz.Aun
