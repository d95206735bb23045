import Pi1MHz.MtpHandles

/-!
# MTP: the calls to FatFs

The FatFs calls by which `mtp_fs.c` changes the card, and `fs_delete_tree`.  A call that fails gives
`none` and has changed nothing.
-/

namespace Pi1MHz.Mtp

open Ws (Str namedPath)
open PathTree

/-- The calls that fail for a reason that is not on the card, and how many bytes of a file that is
given up have been written. -/
structure Faults where
  mount : Bool
  walk : Bool
  unlink : List Str → Bool
  rename : Bool
  mkdir : Bool
  utime : Bool
  stat : Bool
  create : Bool
  flushed : UInt32

structure Stamp where
  mdate : UInt16
  mtime : UInt16
deriving DecidableEq, Repr

def nortcStamp : Stamp := ⟨0x5C44, 0⟩

def Item.setStamp (stamp : Stamp) (it : Item) : Item :=
  { it with mdate := stamp.mdate, mtime := stamp.mtime }

def find (card : Card) (p : List Str) : Option Item :=
  if p.all Ws.fatNameOk then card.find? fun it => folded it.path = folded p else none

def findDir (card : Card) (p : List Str) : Option (List Str) :=
  if p = [] then some [] else ((find card p).filter Item.isDir).map Item.path

def storable (n : Str) : Bool := Ws.fatNameOk n && n.all fun c => !Ws.isSep c && decide (0x20 ≤ c)

def newPath (card : Card) (p : List Str) : Option (List Str) :=
  match p.getLast? with
  | some n =>
    if storable n then (findDir card p.dropLast).map (· ++ [n.rdropWhile Ws.fatSkip]) else none
  | none => none

/-! ### The calls -/

/-- `f_unlink` refuses what is read-only, and a folder that is not empty. -/
def refused (fl : Faults) (it : Item) : Bool := fl.unlink it.path || it.readOnly

def fUnlink (fl : Faults) (card : Card) (p : List Str) : Option Card :=
  match find card p with
  | some it =>
    if refused fl it || (it.isDir && !(readdir card it.path).isEmpty) then none
    else some (card.filter (·.path ≠ it.path))
  | none => none

/-- Where the entry comes to lie when `s` moves to `d`. -/
def moveItem (s d : List Str) (it : Item) : Option Item :=
  if s <+: it.path then
    if s <+: d.dropLast then none else some { it with path := d ++ it.path.drop s.length }
  else some it

def fRename (fl : Faults) (card : Card) (s d : List Str) : Option Card :=
  match find card s, newPath card d with
  | some it, some dst =>
    if fl.rename || card.any (fun x => folded x.path = folded dst && x.path ≠ it.path) then none
    else some (card.filterMap (moveItem it.path dst))
  | _, _ => none

def fMkdir (fl : Faults) (card : Card) (p : List Str) : Option Card :=
  match newPath card p with
  | some q =>
    if card.any fun x => folded x.path = folded q then some card
    else if fl.mkdir then none
    else some (card ++ [⟨q, true, 0, nortcStamp.mdate, nortcStamp.mtime, false⟩])
  | none => none

def update (card : Card) (p : List Str) (f : Item → Item) : Card :=
  card.map fun x => if x.path = p then f x else x

def fUtime (fl : Faults) (card : Card) (p : List Str) (stamp : Stamp) : Option Card :=
  if fl.utime then none
  else (find card p).map fun it => update card it.path (Item.setStamp stamp)

def Item.written (size : UInt32) (it : Item) : Item := { it with size := size }.setStamp nortcStamp

/-- `f_open` with `FA_CREATE_ALWAYS`. -/
def fCreate (fl : Faults) (card : Card) (p : List Str) : Option Card :=
  if fl.create then none
  else
    match newPath card p with
    | some q =>
      match card.find? fun x => folded x.path = folded q with
      | some it => if it.isDir || it.readOnly then none else some (update card it.path (Item.written 0))
      | none => some (card ++ [⟨q, false, 0, nortcStamp.mdate, nortcStamp.mtime, false⟩])
    | none => none

/-- `f_sync` and `f_close` of a file of `size` bytes. -/
def fClose (card : Card) (p : List Str) (size : UInt32) : Card :=
  match find card p with
  | some it => update card it.path (Item.written size)
  | none => card

def MTP_DELETE_MAX_DEPTH : Nat := 16

/-- `fs_delete_tree` with `left` levels to the limit: whether it succeeded, and the card.  The loop
over a directory ends at the first failure. -/
def fsDeleteTree (fl : Faults) : Nat → Card → List Str → Bool × Card
  | 0, card, _ => (false, card)
  | left + 1, card, path =>
    if (find card path).any Item.isDir then
      let r := (readdir card path).foldl (fun (r : Bool × Card) it =>
        if r.1 = false then r
        else if FS_PATH_MAX ≤ (namedPath it.path).length then (false, r.2)
        else if it.isDir then fsDeleteTree fl left r.2 it.path
        else
          match fUnlink fl r.2 it.path with
          | some card => (true, card)
          | none => (false, r.2)) (true, card)
      if r.1 then
        match fUnlink fl r.2 path with
        | some card => (true, card)
        | none => (false, r.2)
      else r
    else (false, card)

/-! ### What is found -/

variable {card : Card} {fl : Faults}

theorem mem_of_find {p : List Str} {it : Item} (h : find card p = some it) : it ∈ card := by
  unfold find at h
  split at h
  · exact List.mem_of_find?_eq_some h
  · cases h

theorem WellFormed.folded_inj (hw : WellFormed card) {a b : Item} (ha : a ∈ card) (hb : b ∈ card)
    (h : folded a.path = folded b.path) : a = b :=
  List.inj_on_of_nodup_map hw.distinct ha hb h

theorem WellFormed.find_path (hw : WellFormed card) {it : Item} (hit : it ∈ card) :
    find card it.path = some it := by
  have hall : it.path.all Ws.fatNameOk = true :=
    List.all_eq_true.mpr fun n hn => (hw.names it hit n hn).1
  rw [find, if_pos hall]
  cases hf : card.find? fun x => folded x.path = folded it.path with
  | none =>
    have := List.find?_eq_none.mp hf it hit
    simp at this
  | some x =>
    have hx := List.mem_of_find?_eq_some hf
    have hfold : folded x.path = folded it.path := by simpa using List.find?_some hf
    rw [hw.folded_inj hx hit hfold]

theorem findDir_some (hw : WellFormed card) {p q : List Str} (h : findDir card p = some q) :
    (q ≠ [] → ∃ d ∈ card, d.isDir = true ∧ d.path = q) ∧ ∀ n ∈ q, NameOk n := by
  unfold findDir at h
  split at h
  · obtain rfl := Option.some.inj h
    exact ⟨fun hne => absurd rfl hne, nofun⟩
  · obtain ⟨d, hd, rfl⟩ := Option.map_eq_some_iff.mp h
    obtain ⟨hfind, hdir⟩ := Option.filter_eq_some_iff.mp hd
    have hmem := mem_of_find hfind
    exact ⟨fun _ => ⟨d, hmem, hdir, rfl⟩, hw.names d hmem⟩

theorem rdropWhile_idem (s : Str) :
    (s.rdropWhile Ws.fatSkip).rdropWhile Ws.fatSkip = s.rdropWhile Ws.fatSkip :=
  List.rdropWhile_idempotent Ws.fatSkip s

theorem nameOk_stored {n : Str} (h : storable n = true) : NameOk (n.rdropWhile Ws.fatSkip) := by
  unfold storable at h
  obtain ⟨hok, hchars⟩ := Bool.and_eq_true_iff.mp h
  have hsub : ∀ c ∈ n.rdropWhile Ws.fatSkip, c ∈ n := (List.rdropWhile_prefix _ n).subset
  unfold Ws.fatNameOk at hok
  simp only [Bool.and_eq_true, decide_eq_true_eq] at hok
  obtain ⟨⟨hlegal, hlen⟩, hne⟩ := hok
  refine ⟨?_, rdropWhile_idem n, ?_⟩
  · unfold Ws.fatNameOk
    simp only [Bool.and_eq_true, decide_eq_true_eq, rdropWhile_idem]
    refine ⟨⟨?_, ?_⟩, hne⟩
    · exact List.all_eq_true.mpr fun c hc => List.all_eq_true.mp hlegal c (hsub c hc)
    · exact ((List.rdropWhile_prefix _ n).length_le).trans hlen
  · intro c hc
    have := List.all_eq_true.mp hchars c (hsub c hc)
    simpa using this

structure Place (card : Card) (q : List Str) : Prop where
  ne_nil : q ≠ []
  parent : q.dropLast ≠ [] → ∃ d ∈ card, d.isDir = true ∧ d.path = q.dropLast
  names : ∀ n ∈ q, NameOk n

theorem place_newPath (hw : WellFormed card) {p q : List Str} (h : newPath card p = some q) :
    Place card q := by
  unfold newPath at h
  split at h
  · next n hn =>
    split at h
    · next hst =>
      obtain ⟨dir, hdir, rfl⟩ := Option.map_eq_some_iff.mp h
      obtain ⟨hparent, hnames⟩ := findDir_some hw hdir
      refine ⟨by simp, by rwa [List.dropLast_concat], ?_⟩
      intro m hm
      rcases List.mem_append.mp hm with hm | hm
      · exact hnames m hm
      · rw [List.mem_singleton.mp hm]
        exact nameOk_stored hst
    · cases h
  · cases h

theorem folded_newPath {p q : List Str} (h : newPath card p = some q) :
    p.all Ws.fatNameOk = true ∧ folded q = folded p := by
  unfold newPath at h
  split at h
  · next n hn =>
    split at h
    · next hst =>
      obtain ⟨dir, hdir, rfl⟩ := Option.map_eq_some_iff.mp h
      have hn' : Ws.fatNameOk n = true := (Bool.and_eq_true_iff.mp hst).1
      have hsplit : p = p.dropLast ++ [n] := (List.dropLast_append_getLast? n hn).symm
      have hdirs : p.dropLast.all Ws.fatNameOk = true ∧ folded dir = folded p.dropLast := by
        unfold findDir at hdir
        split at hdir
        · next hnil =>
          obtain rfl := Option.some.inj hdir
          rw [hnil]
          exact ⟨rfl, rfl⟩
        · obtain ⟨d, hd, rfl⟩ := Option.map_eq_some_iff.mp hdir
          have hfind := (Option.filter_eq_some_iff.mp hd).1
          unfold find at hfind
          split at hfind
          · next hall => exact ⟨hall, by simpa using List.find?_some hfind⟩
          · cases hfind
      have hlast : folded [n.rdropWhile Ws.fatSkip] = folded [n] := by
        simp only [folded, List.map_singleton, Ws.fatNameOf, rdropWhile_idem]
      constructor
      · rw [hsplit, List.all_append, hdirs.1]
        simpa using hn'
      · rw [hsplit, folded, List.map_append]
        change folded dir ++ folded [n.rdropWhile Ws.fatSkip] = _
        rw [hdirs.2, hlast, folded, folded, folded, ← List.map_append, ← hsplit]
    · cases h
  · cases h

theorem find_newPath {p q : List Str} (h : newPath card p = some q) {card' : Card} {it : Item}
    (hit : it ∈ card') (hfold : folded it.path = folded q) : (find card' p).isSome = true := by
  obtain ⟨hall, hq⟩ := folded_newPath h
  rw [find, if_pos hall, List.find?_isSome]
  exact ⟨it, hit, by simpa using hfold.trans hq⟩

/-! ### What a call keeps -/

theorem WellFormed.append (hw : WellFormed card) {it : Item} (hp : Place card it.path)
    (hfree : ∀ x ∈ card, folded x.path ≠ folded it.path) : WellFormed (card ++ [it]) where
  distinct := by
    rw [List.map_append, List.nodup_append]
    refine ⟨hw.distinct, List.nodup_singleton _, ?_⟩
    intro a ha b hb heq
    obtain ⟨x, hx, rfl⟩ := List.mem_map.mp ha
    rw [List.map_singleton, List.mem_singleton] at hb
    exact hfree x hx (heq.trans hb)
  ne_nil x hx := by
    rcases List.mem_append.mp hx with hx | hx
    · exact hw.ne_nil x hx
    · rw [List.mem_singleton.mp hx]
      exact hp.ne_nil
  parent x hx hne := by
    have hold : ∃ d ∈ card, d.isDir = true ∧ d.path = x.path.dropLast := by
      rcases List.mem_append.mp hx with hx | hx
      · exact hw.parent x hx hne
      · rw [List.mem_singleton.mp hx] at hne ⊢
        exact hp.parent hne
    obtain ⟨d, hd, hdir⟩ := hold
    exact ⟨d, List.mem_append_left _ hd, hdir⟩
  names x hx := by
    rcases List.mem_append.mp hx with hx | hx
    · exact hw.names x hx
    · rw [List.mem_singleton.mp hx]
      exact hp.names

theorem WellFormed.filter (hw : WellFormed card) {keep : Item → Bool}
    (h : ∀ it ∈ card, ∀ d ∈ card, keep it = true → d.path = it.path.dropLast → keep d = true) :
    WellFormed (card.filter keep) where
  distinct := hw.distinct.sublist (List.filter_sublist.map _)
  ne_nil it hit := hw.ne_nil it (List.mem_filter.mp hit).1
  parent it hit hne := by
    obtain ⟨hit, hkeep⟩ := List.mem_filter.mp hit
    obtain ⟨d, hd, hdir, hpath⟩ := hw.parent it hit hne
    exact ⟨d, List.mem_filter.mpr ⟨hd, h it hit d hd hkeep hpath⟩, hdir, hpath⟩
  names it hit := hw.names it (List.mem_filter.mp hit).1

theorem WellFormed.update (hw : WellFormed card) (p : List Str) {f : Item → Item}
    (hf : ∀ x, (f x).path = x.path ∧ (f x).isDir = x.isDir) : WellFormed (update card p f) := by
  have hsame : ∀ x : Item, (if x.path = p then f x else x).path = x.path
      ∧ (if x.path = p then f x else x).isDir = x.isDir := by
    intro x
    split
    · exact hf x
    · exact ⟨rfl, rfl⟩
  have hback : ∀ y ∈ Mtp.update card p f, ∃ x ∈ card, y.path = x.path ∧ y.isDir = x.isDir := by
    intro y hy
    obtain ⟨x, hx, rfl⟩ := List.mem_map.mp hy
    exact ⟨x, hx, hsame x⟩
  constructor
  · rw [Mtp.update, List.map_map]
    have heq : ((fun it : Item => folded it.path) ∘ fun x => if x.path = p then f x else x)
        = fun it => folded it.path := funext fun x => congrArg folded (hsame x).1
    rw [heq]
    exact hw.distinct
  · intro y hy
    obtain ⟨x, hx, hpath, -⟩ := hback y hy
    rw [hpath]
    exact hw.ne_nil x hx
  · intro y hy hne
    obtain ⟨x, hx, hpath, -⟩ := hback y hy
    rw [hpath] at hne ⊢
    obtain ⟨d, hd, hdir, hdpath⟩ := hw.parent x hx hne
    refine ⟨_, List.mem_map_of_mem hd, ?_⟩
    exact ⟨(hsame d).2.trans hdir, (hsame d).1.trans hdpath⟩
  · intro y hy
    obtain ⟨x, hx, hpath, -⟩ := hback y hy
    rw [hpath]
    exact hw.names x hx

theorem WellFormed.move (hw : WellFormed card) {s d : List Str} (hd : Place card d)
    (hout : ¬s <+: d.dropLast) (hfree : ∀ x ∈ card, folded x.path = folded d → x.path = s) :
    WellFormed (card.filterMap (moveItem s d)) := by
  have hmoved : ∀ x : Item, s <+: x.path →
      moveItem s d x = some { x with path := d ++ x.path.drop s.length } := by
    intro x hx
    rw [moveItem, if_pos hx, if_neg hout]
  have hkept : ∀ x : Item, ¬s <+: x.path → moveItem s d x = some x := fun x hx => if_neg hx
  -- nothing that stays has a name that is taken by what moves
  have hclash : ∀ x y : Item, y ∈ card → ¬s <+: y.path →
      folded (d ++ x.path.drop s.length) ≠ folded y.path := by
    intro x y hy hny heq
    have hlen := congrArg List.length heq
    simp only [folded, List.length_map, List.length_append] at hlen
    have hpre : folded (y.path.take d.length) = folded d := by
      rw [folded, List.map_take]
      change (folded y.path).take d.length = folded d
      rw [← heq, folded, List.map_append, List.take_left' (List.length_map _)]
      rfl
    have hne : y.path.take d.length ≠ [] := by
      intro hnil
      rw [hnil] at hpre
      exact hd.ne_nil (List.map_eq_nil_iff.mp hpre.symm)
    obtain ⟨u, hu, hupath⟩ := hw.closed.above hy (List.take_prefix _ _) hne
    have := hfree u hu (hupath ▸ hpre)
    exact hny (this ▸ hupath ▸ List.take_prefix _ _)
  have hback : ∀ y ∈ card.filterMap (moveItem s d), ∃ x ∈ card,
      s <+: x.path ∧ y = { x with path := d ++ x.path.drop s.length } ∨ ¬s <+: x.path ∧ y = x := by
    intro y hy
    obtain ⟨x, hx, heq⟩ := List.mem_filterMap.mp hy
    refine ⟨x, hx, ?_⟩
    by_cases hpre : s <+: x.path
    · rw [hmoved x hpre] at heq
      exact Or.inl ⟨hpre, (Option.some.inj heq).symm⟩
    · rw [hkept x hpre] at heq
      exact Or.inr ⟨hpre, (Option.some.inj heq).symm⟩
  constructor
  · apply List.pairwise_map.mpr
    apply List.Pairwise.filterMap _ _ (List.pairwise_map.mp hw.distinct |>.imp_of_mem
      fun {x y} hx hy hne => (⟨hx, hy, hne⟩ : x ∈ card ∧ y ∈ card ∧ folded x.path ≠ folded y.path))
    rintro x y ⟨hx, hy, hne⟩ x' hx' y' hy' heq
    by_cases hpx : s <+: x.path
    · rw [hmoved x hpx] at hx'
      obtain rfl := Option.some.inj hx'
      by_cases hpy : s <+: y.path
      · rw [hmoved y hpy] at hy'
        obtain rfl := Option.some.inj hy'
        simp only [folded, List.map_append, List.append_cancel_left_eq] at heq
        apply hne
        rw [← List.prefix_iff_eq_append.mp hpx, ← List.prefix_iff_eq_append.mp hpy]
        simp only [folded, List.map_append, heq]
      · rw [hkept y hpy] at hy'
        obtain rfl := Option.some.inj hy'
        exact hclash x y hy hpy heq
    · rw [hkept x hpx] at hx'
      obtain rfl := Option.some.inj hx'
      by_cases hpy : s <+: y.path
      · rw [hmoved y hpy] at hy'
        obtain rfl := Option.some.inj hy'
        exact hclash y x hx hpx heq.symm
      · rw [hkept y hpy] at hy'
        obtain rfl := Option.some.inj hy'
        exact hne heq
  · intro y hy
    obtain ⟨x, hx, ⟨-, rfl⟩ | ⟨-, rfl⟩⟩ := hback y hy
    · simp [hd.ne_nil]
    · exact hw.ne_nil y hx
  · intro y hy hne
    obtain ⟨x, hx, ⟨hpre, rfl⟩ | ⟨hpre, rfl⟩⟩ := hback y hy
    · obtain ⟨r, hr⟩ := hpre
      have hdrop : x.path.drop s.length = r := by rw [← hr, List.drop_left]
      simp only [hdrop] at hne ⊢
      by_cases hnil : r = []
      · -- what is moved itself
        rw [hnil, List.append_nil] at hne ⊢
        obtain ⟨e, he, hdir, hpath⟩ := hd.parent hne
        exact ⟨e, List.mem_filterMap.mpr ⟨e, he, hkept e (hpath ▸ hout)⟩, hdir, hpath⟩
      · obtain ⟨e, he, hdir, hpath⟩ := hw.parent x hx (by
          rw [← hr, List.dropLast_append_of_ne_nil hnil]
          intro happ
          obtain ⟨hs, hrd⟩ := List.append_eq_nil_iff.mp happ
          exact hout (hs ▸ List.nil_prefix))
        rw [← hr, List.dropLast_append_of_ne_nil hnil] at hpath
        refine ⟨_, List.mem_filterMap.mpr ⟨e, he, hmoved e (hpath ▸ List.prefix_append _ _)⟩, hdir, ?_⟩
        rw [hpath, List.drop_left, List.dropLast_append_of_ne_nil hnil]
    · obtain ⟨e, he, hdir, hpath⟩ := hw.parent y hx hne
      have hstay : ¬s <+: e.path := by
        intro hs
        rw [hpath] at hs
        exact hpre (hs.trans (List.dropLast_prefix _))
      exact ⟨e, List.mem_filterMap.mpr ⟨e, he, hkept e hstay⟩, hdir, hpath⟩
  · intro y hy n hn
    obtain ⟨x, hx, ⟨-, rfl⟩ | ⟨-, rfl⟩⟩ := hback y hy
    · rcases List.mem_append.mp hn with hn | hn
      · exact hd.names n hn
      · exact hw.names x hx n (List.mem_of_mem_drop hn)
    · exact hw.names y hx n hn

theorem WellFormed.remove (hw : WellFormed card) (p : List Str) :
    WellFormed (card.filter fun x => ¬p <+: x.path) := by
  apply hw.filter
  intro it hit d hd hkeep hpath
  simp only [decide_eq_true_eq] at hkeep ⊢
  intro hp
  rw [hpath] at hp
  exact hkeep (hp.trans (List.dropLast_prefix _))

theorem WellFormed.filter_ne (hw : WellFormed card) {p : List Str}
    (hempty : readdir card p = []) :
    (card.filter fun x => x.path ≠ p) = card.filter fun x => ¬p <+: x.path := by
  apply List.filter_congr
  intro x hx
  simp only [decide_eq_decide]
  constructor
  · intro hne hpre
    obtain ⟨a, ha⟩ := exists_step hpre hne
    obtain ⟨k, hk, hkpath⟩ := hw.closed.above hx ha (by simp)
    have hmem : k ∈ readdir card p :=
      (hw.lists.mem p k).mpr ⟨hk, by rw [hkpath, List.dropLast_concat]⟩
    rw [hempty] at hmem
    cases hmem
  · intro hpre heq
    exact hpre (heq ▸ List.prefix_rfl)

theorem fUnlink_wf (hw : WellFormed card) {p : List Str} {card' : Card}
    (h : fUnlink fl card p = some card') : WellFormed card' := by
  unfold fUnlink at h
  split at h
  · next it hfind =>
    have hit := mem_of_find hfind
    split at h
    · cases h
    · next hok =>
      obtain rfl := Option.some.inj h
      have hempty : readdir card it.path = [] := by
        cases hdir : it.isDir with
        | false => exact hw.readdir_file hit hdir
        | true =>
          by_contra hne
          exact hok (by simp [hdir, hne])
      rw [hw.filter_ne hempty]
      exact hw.remove it.path
  · cases h

theorem fRename_wf (hw : WellFormed card) {p q : List Str} {card' : Card}
    (h : fRename fl card p q = some card') : WellFormed card' := by
  unfold fRename at h
  split at h
  · next it dst hfind hnew =>
    have hplace := place_newPath hw hnew
    split at h
    · cases h
    · next hok =>
      obtain rfl := Option.some.inj h
      have hfree : ∀ x ∈ card, folded x.path = folded dst → x.path = it.path := by
        intro x hx heq
        by_contra hne
        apply hok
        simp only [Bool.or_eq_true, List.any_eq_true]
        exact Or.inr ⟨x, hx, by simp [heq, hne]⟩
      by_cases hin : it.path <+: dst.dropLast
      · have heq : card.filterMap (moveItem it.path dst)
            = card.filter fun x => ¬it.path <+: x.path := by
          rw [← List.filterMap_eq_filter]
          apply List.filterMap_congr
          intro x _
          by_cases hx : it.path <+: x.path
          · simp [moveItem, hx, hin, Option.guard]
          · simp [moveItem, hx, Option.guard]
        rw [heq]
        exact hw.remove it.path
      · exact hw.move hplace hin hfree
  · cases h

theorem fMkdir_wf (hw : WellFormed card) {p : List Str} {card' : Card}
    (h : fMkdir fl card p = some card') : WellFormed card' := by
  unfold fMkdir at h
  split at h
  · next q hnew =>
    split at h
    · exact Option.some.inj h ▸ hw
    · next hfree =>
      split at h
      · cases h
      · obtain rfl := Option.some.inj h
        apply hw.append (place_newPath hw hnew)
        intro x hx heq
        exact hfree (List.any_eq_true.mpr ⟨x, hx, by simpa using heq⟩)
  · cases h

theorem find_fMkdir {p : List Str} {card' : Card} (h : fMkdir fl card p = some card') :
    (find card' p).isSome = true := by
  unfold fMkdir at h
  split at h
  · next q hnew =>
    split at h
    · next hthere =>
      obtain rfl := Option.some.inj h
      obtain ⟨x, hx, hfold⟩ := List.any_eq_true.mp hthere
      exact find_newPath hnew hx (by simpa using hfold)
    · split at h
      · cases h
      · obtain rfl := Option.some.inj h
        exact find_newPath hnew (List.mem_append_right card (List.mem_singleton_self _)) rfl
  · cases h

theorem fUtime_wf (hw : WellFormed card) {p : List Str} {stamp : Stamp} {card' : Card}
    (h : fUtime fl card p stamp = some card') : WellFormed card' := by
  unfold fUtime at h
  split at h
  · cases h
  · obtain ⟨it, -, rfl⟩ := Option.map_eq_some_iff.mp h
    exact hw.update it.path fun x => ⟨rfl, rfl⟩

theorem fCreate_wf (hw : WellFormed card) {p : List Str} {card' : Card}
    (h : fCreate fl card p = some card') : WellFormed card' := by
  unfold fCreate at h
  split at h
  · cases h
  · split at h
    · next q hnew =>
      split at h
      · split at h
        · cases h
        · obtain rfl := Option.some.inj h
          exact hw.update _ fun x => ⟨rfl, rfl⟩
      · next hnone =>
        obtain rfl := Option.some.inj h
        apply hw.append (place_newPath hw hnew)
        intro x hx heq
        have := List.find?_eq_none.mp hnone x hx
        simp [heq] at this
    · cases h

theorem fClose_wf (hw : WellFormed card) (p : List Str) (size : UInt32) :
    WellFormed (fClose card p size) := by
  unfold fClose
  split
  · exact hw.update _ fun x => ⟨rfl, rfl⟩
  · exact hw

/-! ### Deleting a folder -/

/-- What `fs_delete_tree` does with one entry of a directory. -/
def deleteOne (fl : Faults) (left : Nat) (r : Bool × Card) (it : Item) : Bool × Card :=
  if r.1 = false then r
  else if FS_PATH_MAX ≤ (namedPath it.path).length then (false, r.2)
  else if it.isDir then fsDeleteTree fl left r.2 it.path
  else
    match fUnlink fl r.2 it.path with
    | some card => (true, card)
    | none => (false, r.2)

def deleteDir (fl : Faults) (path : List Str) (r : Bool × Card) : Bool × Card :=
  if r.1 then
    match fUnlink fl r.2 path with
    | some card => (true, card)
    | none => (false, r.2)
  else r

theorem fsDeleteTree_succ (left : Nat) (path : List Str) :
    fsDeleteTree fl (left + 1) card path
      = if (find card path).any Item.isDir then
          deleteDir fl path ((readdir card path).foldl (deleteOne fl left) (true, card))
        else (false, card) := by
  rw [fsDeleteTree]
  rfl

theorem foldl_deleteOne_failed (left : Nat) (l : List Item) (c : Card) :
    l.foldl (deleteOne fl left) (false, c) = (false, c) := by
  induction l with
  | nil => rfl
  | cons it l ih => exact ih

def firstRemoved (card : Card) : Nat → Item → Item
  | 0, it => it
  | left + 1, it =>
    match readdir card it.path with
    | [] => it
    | k :: _ => firstRemoved card left k

theorem fUnlink_refused (hw : WellFormed card) {it : Item} (hit : it ∈ card)
    (h : refused fl it = true) : fUnlink fl card it.path = none := by
  simp [fUnlink, hw.find_path hit, h]

theorem fsDeleteTree_first (hw : WellFormed card) {left : Nat} {it : Item} (hit : it ∈ card)
    (h : refused fl (firstRemoved card left it) = true) :
    fsDeleteTree fl left card it.path = (false, card) := by
  induction left generalizing it with
  | zero => rfl
  | succ left ih =>
    rw [fsDeleteTree_succ]
    split
    · cases hkids : readdir card it.path with
      | nil =>
        simp only [firstRemoved, hkids] at h
        simp [deleteDir, fUnlink_refused hw hit h]
      | cons k ks =>
        simp only [firstRemoved, hkids] at h
        have hk : k ∈ card := ((hw.lists.mem it.path k).mp (hkids ▸ List.mem_cons_self)).1
        have hone : deleteOne fl left (true, card) k = (false, card) := by
          unfold deleteOne
          simp only [Bool.true_eq_false, if_false]
          split
          · rfl
          · cases hdir : k.isDir with
            | true =>
              rw [if_pos rfl]
              exact ih hk h
            | false =>
              have hself : firstRemoved card left k = k := by
                cases left with
                | zero => rfl
                | succ left => simp only [firstRemoved, hw.readdir_file hk hdir]
              rw [hself] at h
              simp [fUnlink_refused hw hk h]
        rw [List.foldl_cons, hone, foldl_deleteOne_failed]
        rfl
    · rfl

theorem fUnlink_leaf (hw : WellFormed card) {it : Item} (hit : it ∈ card)
    (hok : refused fl it = false) (hempty : readdir card it.path = []) :
    fUnlink fl card it.path = some (card.filter fun x => ¬it.path <+: x.path) := by
  rw [fUnlink, hw.find_path hit]
  simp only [hok, hempty, List.isEmpty_nil, Bool.not_true, Bool.and_false, Bool.or_self,
    Bool.false_eq_true, if_false]
  rw [hw.filter_ne hempty]

def without (card : Card) (ks : List Item) : Card :=
  card.filter fun x => ∀ k ∈ ks, ¬k.path <+: x.path

theorem without_cons (k : Item) (ks : List Item) :
    without (card.filter fun x => ¬k.path <+: x.path) ks = without card (k :: ks) := by
  rw [without, without, List.filter_filter]
  apply List.filter_congr
  intro x _
  simp [Bool.and_comm]

theorem fsDeleteTree_all {left : Nat} {card : Card} (hw : WellFormed card) (hshort : Short card)
    {it : Item} (hit : it ∈ card) (hdir : it.isDir = true) (hleft : 0 < left)
    (hdepth : ∀ x ∈ card, x.isDir = true → it.path <+: x.path →
      x.path.length < it.path.length + left)
    (hok : ∀ x ∈ card, it.path <+: x.path → refused fl x = false) :
    fsDeleteTree fl left card it.path = (true, card.filter fun x => ¬it.path <+: x.path) := by
  induction left generalizing card it with
  | zero => omega
  | succ left ih =>
    -- the loop over the directory, from any entry on
    have hloop : ∀ (ks : List Item) (c : Card), WellFormed c → Short c → ks.Nodup →
        (∀ k ∈ ks, k ∈ c ∧ k.path.length = it.path.length + 1) →
        (∀ x ∈ c, ∀ k ∈ ks, k.path <+: x.path → refused fl x = false ∧
          (x.isDir = true → x.path.length < it.path.length + 1 + left)) →
        ks.foldl (deleteOne fl left) (true, c) = (true, without c ks) := by
      intro ks
      induction ks with
      | nil =>
        intro c _ _ _ _ _
        simp [without]
      | cons k ks ihk =>
        intro c hcw hcs hnd hks hbelow
        obtain ⟨hk, hklen⟩ := hks k List.mem_cons_self
        have hself := hbelow k hk k List.mem_cons_self List.prefix_rfl
        have hone : deleteOne fl left (true, c) k
            = (true, c.filter fun x => ¬k.path <+: x.path) := by
          unfold deleteOne
          simp only [Bool.true_eq_false, if_false]
          rw [if_neg (Nat.not_le.mpr (hcs k hk))]
          cases hkdir : k.isDir with
          | true =>
            have hroom := hself.2 hkdir
            rw [if_pos rfl]
            apply ih hcw hcs hk hkdir (by omega)
            · intro x hx hxdir hpre
              have := (hbelow x hx k List.mem_cons_self hpre).2 hxdir
              omega
            · exact fun x hx hpre => (hbelow x hx k List.mem_cons_self hpre).1
          | false =>
            have := fUnlink_leaf hcw hk hself.1 (hcw.readdir_file hk hkdir)
            simp [this]
        obtain ⟨hknot, hnd⟩ := List.nodup_cons.mp hnd
        rw [List.foldl_cons, hone, ihk _ (hcw.remove k.path), without_cons]
        · exact fun x hx => hcs x (List.mem_filter.mp hx).1
        · exact hnd
        · intro k' hk'
          obtain ⟨hmem, hlen⟩ := hks k' (List.mem_cons_of_mem k hk')
          refine ⟨List.mem_filter.mpr ⟨hmem, ?_⟩, hlen⟩
          simp only [decide_eq_true_eq]
          intro hpre
          have heq : k.path = k'.path := hpre.eq_of_length (hklen.trans hlen.symm)
          exact hknot (hcw.closed.inj hk hmem heq ▸ hk')
        · exact fun x hx k' hk' => hbelow x (List.mem_filter.mp hx).1 k' (List.mem_cons_of_mem k hk')
    have hkid : ∀ k ∈ readdir card it.path, k ∈ card ∧ k.path.length = it.path.length + 1 := by
      intro k hk
      obtain ⟨hk, hdrop⟩ := (hw.lists.mem it.path k).mp hk
      refine ⟨hk, ?_⟩
      have hpos := List.length_pos_iff.mpr (hw.ne_nil k hk)
      rw [← hdrop, List.length_dropLast]
      omega
    have hpre : ∀ k ∈ readdir card it.path, it.path <+: k.path := by
      intro k hk
      exact ((hw.lists.mem it.path k).mp hk).2 ▸ List.dropLast_prefix _
    have hfold := hloop (readdir card it.path) card hw hshort (hw.lists.nodup it.path) hkid (by
      intro x hx k hk hkx
      have hbelow := (hpre k hk).trans hkx
      refine ⟨hok x hx hbelow, fun hxdir => ?_⟩
      have := hdepth x hx hxdir hbelow
      omega)
    have hcw : WellFormed (without card (readdir card it.path)) := by
      apply hw.filter
      intro x _ d _ hkeep hpath
      simp only [decide_eq_true_eq] at hkeep ⊢
      intro k hk hkd
      rw [hpath] at hkd
      exact hkeep k hk (hkd.trans (List.dropLast_prefix _))
    have hstill : it ∈ without card (readdir card it.path) := by
      apply List.mem_filter.mpr
      refine ⟨hit, ?_⟩
      simp only [decide_eq_true_eq]
      intro k hk hki
      have := hki.length_le
      have := (hkid k hk).2
      omega
    have hempty : readdir (without card (readdir card it.path)) it.path = [] := by
      apply List.eq_nil_iff_forall_not_mem.mpr
      intro k hk
      obtain ⟨hk, hdrop⟩ := (hcw.lists.mem it.path k).mp hk
      obtain ⟨hk, hkeep⟩ := List.mem_filter.mp hk
      simp only [decide_eq_true_eq] at hkeep
      exact hkeep k ((hw.lists.mem it.path k).mpr ⟨hk, hdrop⟩) List.prefix_rfl
    have hlast := fUnlink_leaf hcw hstill (hok it hit List.prefix_rfl) hempty
    rw [fsDeleteTree_succ, if_pos (by simp [hw.find_path hit, hdir]), hfold, deleteDir, if_pos rfl,
      hlast]
    simp only [Prod.mk.injEq, true_and]
    rw [without, List.filter_filter]
    apply List.filter_congr
    intro x hx
    simp only [← Bool.decide_and, decide_eq_decide]
    constructor
    · exact fun h => h.1
    · intro hnot
      refine ⟨hnot, fun k hk hkx => hnot ((hpre k hk).trans hkx)⟩

end Pi1MHz.Mtp
