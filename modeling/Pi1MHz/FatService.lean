import Pi1MHz.History
import Pi1MHz.WsSpelling
import Pi1MHz.FinSizes

/-!
# The FAT service: which files the Beeb has open

`fat_service.c` lets the Beeb open files on the card through FatFs and keeps, for each handle, the
path it opened: that is what `fat_service_file_in_use` answers from.
-/

namespace Pi1MHz.Fat

open FinSizes

open Ws (Str isSep isName joinNames namedPath upper fatUpper fatSkip FatState OpenPath fatPathNorm
  fatOpenMatches fatServiceFileInUse FAT_OPEN_PATH_MAX)
open History (final history)

/-- The directories of the card: the entry that a name finds in a directory, each entry and
directory given by the names on the card. -/
structure Card where
  find : List Str → Str → Option Str
  /-- A name on the card is not empty and has no separator and no control code in it. -/
  proper : ∀ dir s n, find dir s = some n → n ≠ [] ∧ ∀ c ∈ n, isSep c = false ∧ 0x20 ≤ c

/-- One name of a path, as `create_name` and `follow_path` take it. -/
def followName (card : Card) (dir : List Str) (s : Str) : Option (List Str) :=
  if s = [] ∨ s = [0x2E] then some dir
  else if s = [0x2E, 0x2E] then some dir.dropLast
  else (card.find dir (s.rdropWhile fatSkip)).map fun n => dir ++ [n]

/-- `get_ldnumber` with one volume: a drive prefix `0:` is taken off, any other is an error. -/
def dropDrive (path : Str) : Option Str :=
  if (0x3A : UInt8) ∈ path then
    if path.take 2 = [0x30, 0x3A] then some (path.drop 2) else none
  else some path

/-- `follow_path`: the path ends at the first control code, starts at the root or at the current
directory, and is cut at either slash. -/
def followPath (card : Card) (cdir : List Str) (path : Str) : Option (List Str) :=
  (dropDrive (path.takeWhile (0x20 ≤ ·))).bind fun p =>
    (p.splitOnP isSep).foldlM (followName card) (if p.head?.any isSep then [] else cdir)

/-! ### The service -/

structure Service where
  /-- `fat_open_path`, `fat_open_valid` and `fat_raw_sector_seen`. -/
  fat : FatState
  /-- `fat_cwd`. -/
  cwd : Str
  cwdKnown : Bool
  /-- The file each of FatFs's file objects is open on, by its names on the card. -/
  opened : Fin 16 → Option (List Str)
  cdir : List Str
  /-- `fsMountState`. -/
  mountState : Bool

/-- The bytes a NUL-terminated path may have to be looked at, `DISC_MAX_PATH`. -/
def DISC_MAX_PATH : Nat := 1024

namespace Service

def root : Str := [0x2F]

/-- The path under which `fat_open_record` keeps a name, if there is one. -/
def recordPath (s : Service) (name : Str) : Option OpenPath :=
  let path := if name.head? = some 0x2F then some name
    else if s.cwdKnown then some ((if s.cwd = root then [] else s.cwd) ++ 0x2F :: name)
    else none
  path.bind fun p =>
    if h : p.head? = some 0x2F ∧ p.length < FAT_OPEN_PATH_MAX then some ⟨p, h.1, h.2⟩ else none

def fatOpenClearAll (s : Service) : Service :=
  { s with fat := {}, cwd := root, cwdKnown := true }

def remounted (s : Service) : Service := { s with opened := fun _ => none, cdir := [] }

def filesystemMount (s : Service) (ok : Bool) : Service :=
  if s.mountState then s else { s.remounted with mountState := ok }

def filesystemDismount (s : Service) : Service :=
  if s.mountState then { s.remounted with mountState := false } else s

end Service

/-- A command with what FatFs answers to it.  A successful one is given with the card as it is
then, a file created by the command included. -/
inductive Command where
  | openFile (handle : Fin 16) (name : Str) (card : Card) (ok : Bool)
  | close (handle : Fin 16) (ok : Bool)
  /-- Command 11, and whether the `f_getcwd` after it meets a disk error. -/
  | chdir (name : Str) (card : Card) (ok : Bool) (diskError : Bool)
  | rename (old new : List Str)
  | mount (ok : Bool)
  | unmount
  /-- The other commands: they read and write files and directories and keep no record. -/
  | other
  /-- A BBC reset: `filesystemReset` from the hard disc emulator, then `fat_service_init`. -/
  | reset (ok : Bool)

def renamed (old new path : List Str) : List Str :=
  if old <+: path then new ++ path.drop old.length else path

def step (s : Service) : Command → Service
  | .openFile h name card ok =>
      if DISC_MAX_PATH ≤ name.length then s
      else
        let file := if ok then followPath card s.cdir name else none
        { s with
          fat := { s.fat with
            open_ := Function.update s.fat.open_ h (if file.isSome then s.recordPath name else none) }
          opened := Function.update s.opened h file }
  | .close h ok =>
      { s with
        fat := { s.fat with open_ := Function.update s.fat.open_ h none }
        opened := if ok then Function.update s.opened h none else s.opened }
  | .chdir name card ok diskError =>
      if DISC_MAX_PATH ≤ name.length then s
      else match (if ok then followPath card s.cdir name else none) with
        | none => s
        | some dir =>
            let known := !diskError && decide ((namedPath dir).length ≤ FAT_OPEN_PATH_MAX)
            { s with cdir := dir, cwdKnown := known, cwd := if known then namedPath dir else [] }
  | .rename old new =>
      { s with
        opened := fun h => (s.opened h).map (renamed old new)
        cdir := renamed old new s.cdir }
  | .mount ok => s.fatOpenClearAll.filesystemMount ok
  | .unmount => s.fatOpenClearAll.filesystemDismount
  | .other => s
  | .reset ok => (s.filesystemDismount.filesystemMount ok).fatOpenClearAll

def start : Service where
  fat := {}
  cwd := Service.root
  cwdKnown := true
  opened _ := none
  cdir := []
  mountState := true

/-! ### Paths and their names -/

def ProperNames (ns : List Str) : Prop := ∀ n ∈ ns, n ≠ [] ∧ ∀ c ∈ n, isSep c = false ∧ 0x20 ≤ c

section Names

variable {ns ms : List Str}

theorem followName_proper {card : Card} {dir : List Str} (hdir : ProperNames dir) {s : Str}
    (h : followName card dir s = some ns) : ProperNames ns := by
  unfold followName at h
  split at h
  · cases h
    exact hdir
  · split at h
    · cases h
      exact fun n hn => hdir n (List.mem_of_mem_dropLast hn)
    · obtain ⟨n, hfind, rfl⟩ := Option.map_eq_some_iff.mp h
      intro n' hn'
      rcases List.mem_append.mp hn' with hold | hnew
      · exact hdir n' hold
      · rw [List.mem_singleton.mp hnew]
        exact card.proper dir _ n hfind

theorem followPath_proper {card : Card} {cdir : List Str} (hdir : ProperNames cdir) {path : Str}
    (h : followPath card cdir path = some ns) : ProperNames ns := by
  obtain ⟨p, -, hfold⟩ := Option.bind_eq_some_iff.mp h
  have hall : ∀ (segs : List Str) (dir : List Str), ProperNames dir →
      segs.foldlM (followName card) dir = some ns → ProperNames ns := by
    intro segs
    induction segs with
    | nil =>
      intro dir hd hf
      cases hf
      exact hd
    | cons s segs ih =>
      intro dir hd hf
      rw [List.foldlM_cons] at hf
      obtain ⟨dir', hname, hrest⟩ := Option.bind_eq_some_iff.mp hf
      exact ih dir' (followName_proper hd hname) hrest
  refine hall _ _ ?_ hfold
  split
  · exact nofun
  · exact hdir

theorem upper_append (a b : Str) : upper (a ++ b) = upper a ++ upper b := List.map_append

theorem upper_joinNames (ns : List Str) : upper (joinNames ns) = joinNames (ns.map upper) := by
  induction ns with
  | nil => rfl
  | cons n ns ih =>
    show upper ((0x2F :: n) ++ joinNames ns) = (0x2F :: upper n) ++ joinNames (ns.map upper)
    rw [upper_append, ih]
    rfl

def Boundary (rest : Str) : Prop := rest = [] ∨ ∃ R, rest = 0x2F :: R

theorem boundary_joinNames (ns : List Str) : Boundary (joinNames ns) := by
  cases ns with
  | nil => exact Or.inl rfl
  | cons n ns => exact Or.inr ⟨_, rfl⟩

theorem first_name_inj {u v rest rest' : Str} (hu : (0x2F : UInt8) ∉ u) (hv : (0x2F : UInt8) ∉ v)
    (hrest : Boundary rest) (hrest' : Boundary rest') (h : u ++ rest = v ++ rest') :
    u = v ∧ rest = rest' := by
  have htake : ∀ (w r : Str), (0x2F : UInt8) ∉ w → Boundary r →
      (w ++ r).takeWhile (· ≠ 0x2F) = w := by
    intro w r hw hr
    rw [List.takeWhile_append_of_pos]
    · rcases hr with rfl | ⟨R, rfl⟩
      · simp
      · simp
    · intro c hc
      exact decide_eq_true fun heq => hw (heq ▸ hc)
  have huv : u = v := by
    rw [← htake u rest hu hrest, h, htake v rest' hv hrest']
  rw [huv] at h
  exact ⟨huv, List.append_cancel_left h⟩

theorem joinNames_prefix_iff (hms : ∀ n ∈ ms, (0x2F : UInt8) ∉ n) (hns : ∀ n ∈ ns, (0x2F : UInt8) ∉ n) :
    (∃ rest, Boundary rest ∧ joinNames ns = joinNames ms ++ rest) ↔ ms <+: ns := by
  constructor
  · rintro ⟨rest, hrest, h⟩
    induction ms generalizing ns with
    | nil => exact List.nil_prefix
    | cons m ms ih =>
      cases ns with
      | nil => cases h
      | cons n ns =>
        obtain ⟨hm, hms'⟩ := List.forall_mem_cons.mp hms
        obtain ⟨hn, hns'⟩ := List.forall_mem_cons.mp hns
        have htail : n ++ joinNames ns = m ++ (joinNames ms ++ rest) := by
          have h' : (0x2F :: n) ++ joinNames ns = (0x2F :: m) ++ joinNames ms ++ rest := h
          rw [List.append_assoc] at h'
          exact (List.cons.inj h').2
        have hbound : Boundary (joinNames ms ++ rest) := by
          cases ms with
          | nil => exact hrest
          | cons m' ms => exact Or.inr ⟨_, rfl⟩
        obtain ⟨rfl, hrest'⟩ := first_name_inj hn hm (boundary_joinNames ns) hbound htail
        exact List.cons_prefix_cons.mpr ⟨rfl, ih hms' hns' hrest'⟩
  · rintro ⟨ws, rfl⟩
    exact ⟨joinNames ws, boundary_joinNames ws, Ws.joinNames_append ms ws⟩

theorem ProperNames.slash_not_mem (h : ProperNames ns) : ∀ n ∈ ns.map upper, (0x2F : UInt8) ∉ n := by
  intro n hn
  obtain ⟨n', hn', rfl⟩ := List.mem_map.mp hn
  exact Ws.slash_not_mem_upper fun c hc => ((h n' hn').2 c hc).1

theorem fatPathNorm_of_upper {P u : Str} {us : List Str} (hu : u ≠ []) (hslash : (0x2F : UInt8) ∉ u)
    (h : upper P = joinNames (u :: us)) : P = 0x2F :: fatPathNorm P := by
  obtain ⟨d, u, rfl⟩ := List.exists_cons_of_ne_nil hu
  cases P with
  | nil => cases h
  | cons c Q =>
    obtain ⟨hc, hQ⟩ := List.cons.inj h
    have hc' : c = 0x2F := (Ws.fatUpper_eq_slash c).mp hc
    subst hc'
    cases Q with
    | nil => cases hQ
    | cons e Q =>
      have he : fatUpper e = d := (List.cons.inj hQ).1
      have hne : ¬ (e == 0x2F) = true := by
        intro heq
        rw [beq_iff_eq.mp heq] at he
        exact hslash (he ▸ List.mem_cons_self ..)
      have hdrop : (e :: Q).dropWhile (· == 0x2F) = e :: Q := List.dropWhile_cons_of_neg hne
      have hdrive : [0x30, 0x3A].isPrefixOf ((0x2F : UInt8) :: e :: Q) = false := rfl
      rw [fatPathNorm, hdrive, if_neg Bool.false_ne_true, List.dropWhile_cons_of_pos rfl, hdrop]

theorem fatOpenMatches_iff {N q : Str} (hN : ∀ c ∈ N, c ≠ 0) (hq : q ≠ []) :
    fatOpenMatches N q = true ↔ ∃ rest, Boundary rest ∧ upper N = upper q ++ rest := by
  have hempty : q.isEmpty = false := by
    cases q with
    | nil => exact absurd rfl hq
    | cons c q => rfl
  simp only [fatOpenMatches, hempty, Bool.or_false, Bool.and_eq_true, decide_eq_true_eq,
    Bool.or_eq_true, beq_iff_eq]
  have hsplit : upper N = upper (N.take q.length) ++ upper (N.drop q.length) := by
    rw [← upper_append, List.take_append_drop]
  constructor
  · rintro ⟨hfront, hnext⟩
    refine ⟨upper (N.drop q.length), ?_, hsplit.trans (congrArg (· ++ _) hfront)⟩
    cases hdrop : N.drop q.length with
    | nil => exact Or.inl rfl
    | cons c R =>
      have hget : N.getD q.length 0 = c := by
        rw [List.getD_eq_getElem?_getD, ← List.head?_drop, hdrop]
        rfl
      have hmem : c ∈ N := List.mem_of_mem_drop (hdrop ▸ List.mem_cons_self ..)
      rw [hget] at hnext
      rw [hnext.resolve_left (hN c hmem)]
      exact Or.inr ⟨_, rfl⟩
  · rintro ⟨rest, hrest, h⟩
    have hlen : (upper (N.take q.length)).length = (upper q).length ∨ N.length < q.length := by
      rw [Ws.upper_length, Ws.upper_length, List.length_take]
      omega
    have hle : q.length ≤ N.length := by
      have hl := congrArg List.length h
      rw [Ws.upper_length, List.length_append, Ws.upper_length] at hl
      omega
    obtain ⟨hfront, hback⟩ := List.append_inj (hsplit.symm.trans h) (hlen.resolve_right (by omega))
    refine ⟨hfront, ?_⟩
    rw [List.getD_eq_getElem?_getD, ← List.head?_drop]
    cases hdrop : N.drop q.length with
    | nil => exact Or.inl rfl
    | cons c R =>
      right
      rcases hrest with rfl | ⟨R', rfl⟩
      · rw [hdrop] at hback
        cases hback
      · rw [hdrop] at hback
        exact (Ws.fatUpper_eq_slash c).mp (List.cons.inj hback).1

theorem record_matches {f : List Str} (hf : ProperNames f) (hne : f ≠ []) (hms : ProperNames ms)
    {P : Str} (hP : upper P = upper (joinNames f)) :
    fatOpenMatches (fatPathNorm P) (fatPathNorm (namedPath ms)) = true ↔
      ms.map upper <+: f.map upper := by
  obtain ⟨n, f, rfl⟩ := List.exists_cons_of_ne_nil hne
  rw [upper_joinNames, List.map_cons] at hP
  have hproper := hf.slash_not_mem
  have hn : upper n ≠ [] := by
    intro h
    exact (hf n (List.mem_cons_self ..)).1 (List.map_eq_nil_iff.mp h)
  have hnorm := fatPathNorm_of_upper hn (hproper _ (List.mem_cons_self ..)) hP
  have hN : ∀ c ∈ fatPathNorm P, c ≠ 0 := by
    intro c hc hzero
    have hmem : fatUpper c ∈ upper P :=
      List.mem_map_of_mem (hnorm ▸ List.mem_cons_of_mem _ hc)
    rw [hP, hzero] at hmem
    obtain ⟨u, hu, hcu⟩ := List.mem_flatMap.mp hmem
    rcases List.mem_cons.mp hcu with heq | hin
    · exact absurd heq (by decide)
    · obtain ⟨n', hn', rfl⟩ := List.mem_map.mp (List.map_cons .. ▸ hu)
      obtain ⟨c', hc', hup⟩ := List.mem_map.mp hin
      have hlow := ((hf n' hn').2 c' hc').2
      rw [(Ws.fatUpper_eq_zero c').mp (hup.trans rfl)] at hlow
      exact absurd hlow (by decide)
  cases ms with
  | nil =>
    refine iff_of_true ?_ List.nil_prefix
    have hroot : fatPathNorm (namedPath []) = [] := rfl
    rw [hroot]
    simp [fatOpenMatches]
  | cons m ms =>
    have hm : upper m ≠ [] := by
      intro h
      exact (hms m (List.mem_cons_self ..)).1 (List.map_eq_nil_iff.mp h)
    have hq : upper (joinNames (m :: ms)) = joinNames (upper m :: ms.map upper) :=
      upper_joinNames (m :: ms)
    have hnormq := fatPathNorm_of_upper hm (hms.slash_not_mem _ (List.mem_cons_self ..)) hq
    have hqne : fatPathNorm (joinNames (m :: ms)) ≠ [] := by
      intro h
      rw [h] at hnormq
      rw [hnormq] at hq
      obtain ⟨d, m', hm'⟩ := List.exists_cons_of_ne_nil hm
      rw [hm'] at hq
      cases (List.cons.inj hq).2
    have hpath : namedPath (m :: ms) = joinNames (m :: ms) := if_neg (List.cons_ne_nil _ _)
    rw [hpath, fatOpenMatches_iff hN hqne]
    rw [← joinNames_prefix_iff hms.slash_not_mem hf.slash_not_mem]
    rw [List.map_cons, List.map_cons, ← hP, ← hq]
    conv_rhs => rw [hnorm, hnormq]
    refine exists_congr fun rest => and_congr_right fun _ => ?_
    show _ ↔ 0x2F :: upper (fatPathNorm P) = 0x2F :: (upper (fatPathNorm (joinNames (m :: ms))) ++ rest)
    rw [List.cons.injEq]
    simp

end Names

/-! ### The record -/

def Spelled (cdir : List Str) (name : Str) (file : List Str) : Prop :=
  ∃ typed found : List Str, typed ≠ [] ∧ typed.map upper = found.map upper ∧
    (name = joinNames typed ∧ file = found ∨ name = (joinNames typed).tail ∧ file = cdir ++ found)

def Service.Unused (s : Service) : Prop := (∀ h, s.opened h = none) ∧ s.cdir = []

/-- Commands that keep to what the record can follow: files are opened under plainly spelled paths,
an entry with an open file or the current directory below it is not renamed, `f_close` and
`f_getcwd` meet no disk error, and the card is neither mounted while it is nor unmounted while it is
not, except when that makes no difference. -/
def Followed (s : Service) : Command → Prop
  | .openFile _ name card ok => ∀ file, ok = true → followPath card s.cdir name = some file →
      Spelled s.cdir name file
  | .close h ok => ok = true ∨ s.opened h = none
  | .chdir _ _ _ diskError => diskError = false
  | .rename old _ => (∀ h f, s.opened h = some f → ¬ old <+: f) ∧ ¬ old <+: s.cdir
  | .mount _ => s.mountState = false ∨ s.Unused
  | .unmount => s.mountState = true ∨ s.Unused
  | .other => True
  | .reset _ => True

def Fits (f : List Str) : Prop := (joinNames f).length < FAT_OPEN_PATH_MAX

structure Recorded (record : Option OpenPath) (file : Option (List Str)) : Prop where
  none : file = none → record = none
  some : ∀ f, file = some f → ProperNames f ∧ f ≠ [] ∧
    (¬ Fits f → record = Option.none) ∧
    (Fits f → ∃ p, record = Option.some p ∧ upper p.path = upper (joinNames f))

structure Inv (s : Service) : Prop where
  rawSectors : s.fat.rawSectorSeen = false
  recorded : ∀ h, Recorded (s.fat.open_ h) (s.opened h)
  cdir : ProperNames s.cdir
  known : s.cwdKnown = true → s.cwd = namedPath s.cdir
  unknown : s.cwdKnown = false → FAT_OPEN_PATH_MAX < (namedPath s.cdir).length

section Steps

variable {s : Service}

theorem recorded_none : Recorded none none := ⟨fun _ => rfl, nofun⟩

theorem inv_start : Inv start where
  rawSectors := rfl
  recorded _ := recorded_none
  cdir := nofun
  known _ := rfl
  unknown := nofun

theorem cwd_text {cdir : List Str} {cwd : Str} (h : cwd = namedPath cdir) (hproper : ProperNames cdir) :
    (if cwd = Service.root then [] else cwd) = joinNames cdir := by
  cases cdir with
  | nil =>
    have hroot : cwd = Service.root := h
    rw [if_pos hroot]
    rfl
  | cons n cdir =>
    have hn := (hproper n (List.mem_cons_self ..)).1
    have hne : joinNames (n :: cdir) ≠ Service.root := by
      obtain ⟨c, n, rfl⟩ := List.exists_cons_of_ne_nil hn
      exact nofun
    rw [h, show namedPath (n :: cdir) = joinNames (n :: cdir) from if_neg (List.cons_ne_nil _ _),
      if_neg hne]

theorem recordPath_spelled (h : Inv s) {name : Str} {file : List Str} (hfile : ProperNames file)
    (hsp : Spelled s.cdir name file) : Recorded (s.recordPath name) (some file) := by
  obtain ⟨typed, found, hne, hcase, hform⟩ := hsp
  have hjoin : upper (joinNames typed) = upper (joinNames found) := by
    rw [upper_joinNames, upper_joinNames, hcase]
  have hfound : found ≠ [] := by
    rintro rfl
    exact hne (List.map_eq_nil_iff.mp hcase)
  -- the text that is kept, whichever way it was put together
  have hkept : ∀ p : Str, p.head? = some 0x2F → upper p = upper (joinNames file) →
      ∀ record, (record = if h : p.head? = some 0x2F ∧ p.length < FAT_OPEN_PATH_MAX
        then some (⟨p, h.1, h.2⟩ : OpenPath) else none) → file ≠ [] → Recorded record (some file) := by
    intro p hhead hupper record hrecord hne
    have hlen : p.length = (joinNames file).length := Ws.length_eq_of_upper hupper
    refine ⟨nofun, ?_⟩
    rintro f ⟨⟩
    refine ⟨hfile, hne, fun hlong => ?_, fun hfits => ?_⟩
    · rw [hrecord, dif_neg]
      rintro ⟨-, hlt⟩
      rw [hlen] at hlt
      exact hlong hlt
    · rw [hrecord, dif_pos ⟨hhead, lt_of_eq_of_lt hlen hfits⟩]
      exact ⟨_, rfl, hupper⟩
  rcases hform with ⟨rfl, rfl⟩ | ⟨rfl, rfl⟩
  · have hhead : (joinNames typed).head? = some 0x2F := by
      obtain ⟨t, typed, rfl⟩ := List.exists_cons_of_ne_nil hne
      rfl
    refine hkept _ hhead hjoin _ ?_ hfound
    simp only [Service.recordPath, if_pos hhead, Option.bind_some]
  · obtain ⟨t, typed, rfl⟩ := List.exists_cons_of_ne_nil hne
    obtain ⟨n, found, rfl⟩ := List.exists_cons_of_ne_nil hfound
    have hrel : (joinNames (t :: typed)).tail.head? ≠ some 0x2F := by
      -- the first byte is that of a name of the card
      have hfirst : upper t = upper n := (List.cons.inj hcase).1
      obtain ⟨hn, hbytes⟩ := hfile n (List.mem_append_right _ (List.mem_cons_self ..))
      obtain ⟨d, n', rfl⟩ := List.exists_cons_of_ne_nil hn
      cases t with
      | nil => cases hfirst
      | cons e t =>
        intro he
        have he' : e = 0x2F := Option.some.inj he
        have hd : fatUpper e = fatUpper d := (List.cons.inj hfirst).1
        have hsep := (hbytes d (List.mem_cons_self ..)).1
        rw [he'] at hd
        rw [(Ws.fatUpper_eq_slash d).mp (hd.symm.trans rfl)] at hsep
        exact absurd hsep (by decide)
    cases hknown : s.cwdKnown with
    | true =>
      have htext := cwd_text (h.known hknown) h.cdir
      have hpath : joinNames s.cdir ++ 0x2F :: (joinNames (t :: typed)).tail =
          joinNames s.cdir ++ joinNames (t :: typed) := rfl
      refine hkept (joinNames s.cdir ++ joinNames (t :: typed)) ?_ ?_ _ ?_ (by simp)
      · cases s.cdir with
        | nil => rfl
        | cons n cdir => rfl
      · rw [upper_append, hjoin, ← upper_append, Ws.joinNames_append]
      · simp only [Service.recordPath, if_neg hrel, hknown, if_true, htext, hpath, Option.bind_some]
    | false =>
      have hlong := h.unknown hknown
      refine ⟨nofun, ?_⟩
      rintro f ⟨⟩
      have hcdir : s.cdir ≠ [] := by
        intro hnil
        rw [hnil] at hlong
        exact absurd hlong (by decide)
      rw [show namedPath s.cdir = joinNames s.cdir from if_neg hcdir] at hlong
      refine ⟨hfile, by simp, fun _ => ?_, fun hfits => ?_⟩
      · simp only [Service.recordPath, if_neg hrel, hknown, Bool.false_eq_true, if_false,
          Option.bind_none]
      · -- the file lies below a directory whose path alone is too long
        rw [Fits, Ws.joinNames_append, List.length_append] at hfits
        omega

theorem inv_openFile (h : Inv s) (handle : Fin 16) (name : Str) (card : Card) (ok : Bool)
    (hok : Followed s (.openFile handle name card ok)) :
    Inv (step s (.openFile handle name card ok)) := by
  by_cases hlong : DISC_MAX_PATH ≤ name.length
  · have hstep : step s (.openFile handle name card ok) = s := if_pos hlong
    rw [hstep]
    exact h
  · -- what FatFs opens, and what is kept of it
    obtain ⟨file, hfile⟩ : ∃ file, file = if ok then followPath card s.cdir name else none := ⟨_, rfl⟩
    have hstep : step s (.openFile handle name card ok) =
        { s with
          fat := { s.fat with
            open_ := Function.update s.fat.open_ handle
              (if file.isSome then s.recordPath name else none) }
          opened := Function.update s.opened handle file } := by
      rw [hfile]
      exact if_neg hlong
    have hnew : Recorded (if file.isSome then s.recordPath name else none) file := by
      cases file with
      | none => exact recorded_none
      | some file =>
        cases ok with
        | false => cases hfile
        | true =>
          have hfollow : followPath card s.cdir name = some file := hfile.symm
          exact recordPath_spelled h (followPath_proper h.cdir hfollow) (hok file rfl hfollow)
    rw [hstep]
    refine { h with recorded := fun i => ?_ }
    by_cases hi : i = handle
    · subst hi
      simpa using hnew
    · simpa [Function.update_of_ne hi] using h.recorded i

theorem inv_close (h : Inv s) (handle : Fin 16) (ok : Bool) (hok : Followed s (.close handle ok)) :
    Inv (step s (.close handle ok)) := by
  refine { h with recorded := ?_ }
  intro i
  show Recorded (Function.update s.fat.open_ handle none i)
    ((if ok then Function.update s.opened handle none else s.opened) i)
  by_cases hi : i = handle
  · have hgone : (if ok then Function.update s.opened handle none else s.opened) i = none := by
      cases ok with
      | true => rw [if_pos rfl, hi, Function.update_self]
      | false =>
        rw [if_neg Bool.false_ne_true, hi]
        exact hok.resolve_left Bool.false_ne_true
    rw [hgone, hi, Function.update_self]
    exact recorded_none
  · have hsame : (if ok then Function.update s.opened handle none else s.opened) i = s.opened i := by
      split
      · rw [Function.update_of_ne hi]
      · rfl
    rw [hsame, Function.update_of_ne hi]
    exact h.recorded i

theorem inv_chdir (h : Inv s) (name : Str) (card : Card) (ok : Bool) :
    Inv (step s (.chdir name card ok false)) := by
  by_cases hlong : DISC_MAX_PATH ≤ name.length
  · have hstep : step s (.chdir name card ok false) = s := if_pos hlong
    rw [hstep]
    exact h
  · cases hdir : (if ok then followPath card s.cdir name else none) with
    | none =>
      have hstep : step s (.chdir name card ok false) = s := by
        simp only [step, if_neg hlong, hdir]
      rw [hstep]
      exact h
    | some dir =>
      obtain ⟨known, hknown⟩ :
          ∃ known, known = decide ((namedPath dir).length ≤ FAT_OPEN_PATH_MAX) := ⟨_, rfl⟩
      have hstep : step s (.chdir name card ok false) =
          { s with cdir := dir, cwdKnown := known, cwd := if known then namedPath dir else [] } := by
        simp only [step, if_neg hlong, hdir, Bool.not_false, Bool.true_and, hknown]
      have hproper : ProperNames dir := by
        cases ok with
        | false => cases hdir
        | true => exact followPath_proper h.cdir hdir
      rw [hstep]
      refine { h with cdir := hproper, known := fun hk => if_pos hk, unknown := fun hk => ?_ }
      have hgt : ¬ (namedPath dir).length ≤ FAT_OPEN_PATH_MAX := by
        apply of_decide_eq_false
        rw [← hknown]
        exact hk
      exact Nat.lt_of_not_le hgt

theorem inv_rename (h : Inv s) (old new : List Str) (hok : Followed s (.rename old new)) :
    Inv (step s (.rename old new)) := by
  obtain ⟨hfiles, hdir⟩ := hok
  have hcdir : renamed old new s.cdir = s.cdir := if_neg hdir
  have hopened : ∀ i, (s.opened i).map (renamed old new) = s.opened i := by
    intro i
    cases hi : s.opened i with
    | none => rfl
    | some f => exact congrArg some (if_neg (hfiles i f hi))
  have hstep : step s (.rename old new) = s := by
    simp only [step, hcdir, hopened]
  rw [hstep]
  exact h

theorem inv_unused {s : Service} (hun : s.Unused) : Inv s.fatOpenClearAll where
  rawSectors := rfl
  recorded i := by
    have hi := hun.1 i
    show Recorded none (s.opened i)
    rw [hi]
    exact recorded_none
  cdir := by
    show ProperNames s.cdir
    rw [hun.2]
    exact nofun
  known _ := by
    show Service.root = namedPath s.cdir
    rw [hun.2]
    rfl
  unknown := nofun

theorem unused_filesystemMount (ok : Bool) (h : s.mountState = false ∨ s.Unused) :
    (s.filesystemMount ok).Unused := by
  unfold Service.filesystemMount
  split
  · next hm =>
    rcases h with hf | hun
    · rw [hm] at hf
      cases hf
    · exact hun
  · exact ⟨fun _ => rfl, rfl⟩

theorem unused_filesystemDismount (h : s.mountState = true ∨ s.Unused) :
    s.filesystemDismount.Unused := by
  unfold Service.filesystemDismount
  split
  · exact ⟨fun _ => rfl, rfl⟩
  · next hm =>
    rcases h with ht | hun
    · exact absurd ht hm
    · exact hun

theorem inv_step (h : Inv s) (c : Command) (hok : Followed s c) : Inv (step s c) := by
  cases c with
  | openFile handle name card ok => exact inv_openFile h handle name card ok hok
  | close handle ok => exact inv_close h handle ok hok
  | chdir name card ok diskError =>
    have hno : diskError = false := hok
    rw [hno]
    exact inv_chdir h name card ok
  | rename old new => exact inv_rename h old new hok
  | mount ok =>
    have heq : step s (.mount ok) = (s.filesystemMount ok).fatOpenClearAll := by
      cases hm : s.mountState <;>
        simp [step, Service.filesystemMount, Service.fatOpenClearAll, Service.remounted, hm]
    rw [heq]
    exact inv_unused (unused_filesystemMount ok hok)
  | unmount =>
    have heq : step s .unmount = s.filesystemDismount.fatOpenClearAll := by
      cases hm : s.mountState <;>
        simp [step, Service.filesystemDismount, Service.fatOpenClearAll, Service.remounted, hm]
    rw [heq]
    exact inv_unused (unused_filesystemDismount hok)
  | other => exact h
  | reset ok =>
    have hm : s.filesystemDismount.mountState = false := by
      unfold Service.filesystemDismount
      split
      · rfl
      · next hm => simpa using hm
    exact inv_unused (unused_filesystemMount ok (Or.inl hm))

theorem inUse_iff (h : Inv s) {ms : List Str} (hms : ProperNames ms) :
    fatServiceFileInUse s.fat (namedPath ms) = true ↔
      ∃ i f, s.opened i = some f ∧ Fits f ∧ ms.map upper <+: f.map upper := by
  simp only [fatServiceFileInUse, h.rawSectors, Bool.false_and, Bool.false_or, List.any_eq_true,
    List.mem_finRange, true_and, Option.any_eq_true_iff_get]
  constructor
  · rintro ⟨i, hsome, hmatch⟩
    cases hfile : s.opened i with
    | none =>
      rw [(h.recorded i).none hfile] at hsome
      cases hsome
    | some f =>
      obtain ⟨hproper, hne, hlong, hkept⟩ := (h.recorded i).some f hfile
      by_cases hfits : Fits f
      · obtain ⟨p, hp, hupper⟩ := hkept hfits
        simp only [hp, Option.get_some] at hmatch
        exact ⟨i, f, hfile, hfits, (record_matches hproper hne hms hupper).mp hmatch⟩
      · rw [hlong hfits] at hsome
        cases hsome
  · rintro ⟨i, f, hfile, hfits, hbelow⟩
    obtain ⟨hproper, hne, -, hkept⟩ := (h.recorded i).some f hfile
    obtain ⟨p, hp, hupper⟩ := hkept hfits
    refine ⟨i, by rw [hp]; rfl, ?_⟩
    simp only [hp, Option.get_some]
    exact (record_matches hproper hne hms hupper).mpr hbelow

end Steps

/-- In every run of commands that keep to what the record can follow, a path is reported in use
exactly when it is that of a file some handle has open and whose path fits in the record, or of a
directory above such a file. -/
theorem file_in_use_iff (commands : List Command)
    (hok : ∀ st ∈ history step start commands, Followed st.pre st.op) (ms : List Str)
    (hms : ProperNames ms) :
    fatServiceFileInUse (final step start commands).fat (namedPath ms) = true ↔
      ∃ i f, (final step start commands).opened i = some f ∧ Fits f ∧
        ms.map upper <+: f.map upper := by
  have hinv := (History.guarded_induction step Inv Followed inv_start
    (fun _ c h hc => inv_step h c hc) commands hok).1
  exact inUse_iff hinv hms

def literalCard : Card where
  find _ s := if s ≠ [] ∧ s.all (fun c => !isSep c && decide (0x20 ≤ c)) then some s else none
  proper := by
    intro dir s n h
    split at h
    · next hs =>
      cases h
      refine ⟨hs.1, fun c hc => ?_⟩
      have hall := List.all_eq_true.mp hs.2 c hc
      simpa using hall
    · cases h

/-- `A` is made the current directory and `b` opened in it. -/
def openBelow : List Command :=
  [.chdir [0x41] literalCard true false, .openFile 3 [0x62] literalCard true]

theorem file_in_use_below :
    fatServiceFileInUse (final step start openBelow).fat (namedPath [[0x41]]) = true ∧
      ¬ fatServiceFileInUse (final step start openBelow).fat (namedPath [[0x62]]) = true := by
  have hok : ∀ st ∈ history step start openBelow, Followed st.pre st.op := by
    intro st hst
    simp only [openBelow, history, List.mem_cons, List.not_mem_nil, or_false] at hst
    rcases hst with rfl | rfl
    · exact rfl
    · intro file _ hfile
      have hpath : followPath literalCard
          (step start (.chdir [0x41] literalCard true false)).cdir [0x62] =
            some ([[0x41]] ++ [[0x62]]) := by decide +kernel
      rw [hpath] at hfile
      cases hfile
      exact ⟨[[0x62]], [[0x62]], by decide, rfl, Or.inr ⟨rfl, rfl⟩⟩
  have hA : ProperNames [[0x41]] := by simp [ProperNames, isSep]
  have hb : ProperNames [[0x62]] := by simp [ProperNames, isSep]
  refine ⟨(file_in_use_iff openBelow hok _ hA).mpr ?_, fun h => ?_⟩
  · exact ⟨3, [[0x41], [0x62]], by decide +kernel, by simp [Fits, joinNames, FAT_OPEN_PATH_MAX],
      by decide +kernel⟩
  · obtain ⟨i, f, hf, -, hbelow⟩ := (file_in_use_iff openBelow hok _ hb).mp h
    have hall : ∀ i : Fin 16, (final step start openBelow).opened i =
        if i = 3 then some [[0x41], [0x62]] else none := by decide +kernel
    rw [hall] at hf
    split at hf
    · cases hf
      exact absurd hbelow (by decide +kernel)
    · cases hf

def longName : Str := List.replicate 129 0x41

/-- The file is open and not reported. -/
theorem long_path_not_reported :
    (final step start [.openFile 0 (0x2F :: longName) literalCard true]).opened 0 = some [longName] ∧
      fatServiceFileInUse (final step start [.openFile 0 (0x2F :: longName) literalCard true]).fat
        (namedPath [longName]) = false := by
  decide +kernel

end Pi1MHz.Fat
