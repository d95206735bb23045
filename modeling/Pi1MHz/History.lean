import Mathlib.Data.List.Induction

/-!
# Runs of a deterministic transition system

A run is the list of operations applied to a start state; its history is the list
of steps taken, each with the state before and after.  Properties that look back
("every answer sent now was earned earlier in the run") are invariants of the
history and the state together, and `history_induction` is the one rule they are
proved with.
-/

namespace Pi1MHz.History

variable {σ ι : Type*}

structure Step (σ ι : Type*) where
  pre : σ
  op : ι
  post : σ

/-- The state after the operations `ops`. -/
def final (step : σ → ι → σ) (s : σ) (ops : List ι) : σ := ops.foldl step s

/-- The steps taken by the operations `ops`, oldest first. -/
def history (step : σ → ι → σ) : σ → List ι → List (Step σ ι)
  | _, [] => []
  | s, op :: ops => ⟨s, op, step s op⟩ :: history step (step s op) ops

@[simp] theorem final_nil (step : σ → ι → σ) (s : σ) : final step s [] = s := rfl

@[simp] theorem history_nil (step : σ → ι → σ) (s : σ) : history step s [] = [] := rfl

theorem final_cons (step : σ → ι → σ) (s : σ) (op : ι) (ops : List ι) :
    final step s (op :: ops) = final step (step s op) ops := rfl

theorem final_append (step : σ → ι → σ) (s : σ) (ops ops' : List ι) :
    final step s (ops ++ ops') = final step (final step s ops) ops' := by
  simp [final]

@[simp] theorem final_snoc (step : σ → ι → σ) (s : σ) (ops : List ι) (op : ι) :
    final step s (ops ++ [op]) = step (final step s ops) op := by
  simp [final]

theorem history_append (step : σ → ι → σ) (s : σ) (ops ops' : List ι) :
    history step s (ops ++ ops') =
      history step s ops ++ history step (final step s ops) ops' := by
  induction ops generalizing s with
  | nil => rfl
  | cons op ops ih => simp [history, final_cons, ih]

@[simp] theorem history_snoc (step : σ → ι → σ) (s : σ) (ops : List ι) (op : ι) :
    history step s (ops ++ [op]) =
      history step s ops ++ [⟨final step s ops, op, step (final step s ops) op⟩] := by
  rw [history_append]
  rfl

/-- What the last step of a kind reports; `f` says which steps those are. -/
def latest {β : Type*} (f : Step σ ι → Option β) (h : List (Step σ ι)) : Option β :=
  h.reverse.findSome? f

@[simp] theorem latest_snoc {β : Type*} (f : Step σ ι → Option β) (h : List (Step σ ι))
    (st : Step σ ι) : latest f (h ++ [st]) = (f st).or (latest f h) := by
  rw [latest, List.reverse_append]
  cases hf : f st <;> simp [hf, latest]

/-- Every step of a history satisfies `P`, given the steps before it. -/
def Along (P : List (Step σ ι) → Step σ ι → Prop) (h : List (Step σ ι)) : Prop :=
  ∀ before st after, h = before ++ st :: after → P before st

theorem along_iff {P : List (Step σ ι) → Step σ ι → Prop} {h : List (Step σ ι)} :
    Along P h ↔ ∀ n : Fin h.length, P (h.take n) (h.get n) := by
  constructor
  · intro hall n
    refine hall _ _ (h.drop (n + 1)) ?_
    rw [List.get_eq_getElem, ← List.drop_eq_getElem_cons n.isLt, List.take_append_drop]
  · rintro hall before st after rfl
    have hn : before.length < (before ++ st :: after).length := by simp
    simpa using hall ⟨before.length, hn⟩

instance {P : List (Step σ ι) → Step σ ι → Prop} [∀ before st, Decidable (P before st)]
    {h : List (Step σ ι)} : Decidable (Along P h) :=
  decidable_of_iff _ along_iff.symm

theorem along_snoc {P : List (Step σ ι) → Step σ ι → Prop} {h : List (Step σ ι)} {st : Step σ ι}
    (hall : Along P (h ++ [st])) : Along P h ∧ P h st := by
  refine ⟨fun before st' after heq => hall before st' (after ++ [st]) ?_, hall h st [] rfl⟩
  rw [heq, List.append_assoc, List.cons_append]

theorem along_concat {P : List (Step σ ι) → Step σ ι → Prop} {h : List (Step σ ι)} {st : Step σ ι}
    (hall : Along P h) (hst : P h st) : Along P (h ++ [st]) := by
  intro before st' after heq
  rcases List.eq_nil_or_concat after with rfl | ⟨after, x, rfl⟩
  · obtain ⟨rfl, hlast⟩ := List.append_inj' heq rfl
    cases hlast
    exact hst
  · refine hall before st' after ?_
    rw [List.concat_eq_append, ← List.cons_append, ← List.append_assoc] at heq
    exact (List.append_inj' heq rfl).1

theorem history_induction (step : σ → ι → σ) {s : σ} (I : List (Step σ ι) → σ → Prop)
    (hstart : I [] s)
    (hstep : ∀ h t op, I h t → I (h ++ [⟨t, op, step t op⟩]) (step t op)) (ops : List ι) :
    I (history step s ops) (final step s ops) := by
  induction ops using List.reverseRecOn with
  | nil => exact hstart
  | append_singleton ops op ih =>
    rw [history_snoc, final_snoc]
    exact hstep _ _ op ih

theorem final_induction (step : σ → ι → σ) {s : σ} (I : σ → Prop) (hstart : I s)
    (hstep : ∀ t op, I t → I (step t op)) (ops : List ι) : I (final step s ops) :=
  history_induction step (fun _ t => I t) hstart (fun _ t op h => hstep t op h) ops

theorem guarded_induction (step : σ → ι → σ) {s : σ} (I : σ → Prop) (C : σ → ι → Prop)
    (hstart : I s) (hstep : ∀ t op, I t → C t op → I (step t op)) (ops : List ι)
    (hC : ∀ st ∈ history step s ops, C st.pre st.op) :
    I (final step s ops) ∧
      ∀ st ∈ history step s ops, I st.pre ∧ st.post = step st.pre st.op := by
  induction ops generalizing s with
  | nil => exact ⟨hstart, nofun⟩
  | cons op ops ih =>
    rw [history] at hC ⊢
    obtain ⟨hhead, htail⟩ := List.forall_mem_cons.mp hC
    obtain ⟨hfinal, hrest⟩ := ih (hstep s op hstart hhead) htail
    exact ⟨hfinal, List.forall_mem_cons.mpr ⟨⟨hstart, rfl⟩, hrest⟩⟩

theorem guarded_history_induction (step : σ → ι → σ) {s : σ} (I : List (Step σ ι) → σ → Prop)
    (C : σ → ι → Prop) (hstart : I [] s)
    (hstep : ∀ h t op, I h t → C t op → I (h ++ [⟨t, op, step t op⟩]) (step t op)) (ops : List ι)
    (hC : ∀ st ∈ history step s ops, C st.pre st.op) :
    I (history step s ops) (final step s ops) ∧
      Along (fun before st => I before st.pre ∧ C st.pre st.op ∧ st.post = step st.pre st.op)
        (history step s ops) := by
  induction ops using List.reverseRecOn with
  | nil => exact ⟨hstart, fun before st after h => by cases before <;> cases h⟩
  | append_singleton ops op ih =>
    rw [history_snoc] at hC ⊢
    rw [final_snoc]
    obtain ⟨hlast, hall⟩ := ih fun st hst => hC st (List.mem_append_left _ hst)
    have hop : C (final step s ops) op := hC _ (List.mem_append_right _ (List.mem_singleton_self _))
    exact ⟨hstep _ _ _ hlast hop, along_concat hall ⟨hlast, hop, rfl⟩⟩

theorem exact_induction (step : σ → ι → σ) {s : σ} (I : σ → Prop) (C : σ → ι → Prop) (hstart : I s)
    (hstep : ∀ s op, I s → (I (step s op) ↔ C s op)) (ops : List ι) :
    (∀ st ∈ history step s ops, C st.pre st.op) ↔ ∀ st ∈ history step s ops, I st.post := by
  induction ops generalizing s with
  | nil => exact ⟨fun _ _ h => absurd h List.not_mem_nil, fun _ _ h => absurd h List.not_mem_nil⟩
  | cons op ops ih =>
    rw [history, List.forall_mem_cons, List.forall_mem_cons]
    have hone := hstep s op hstart
    constructor
    · rintro ⟨hop, hops⟩
      exact ⟨hone.mpr hop, (ih (hone.mpr hop)).mp hops⟩
    · rintro ⟨hpost, hposts⟩
      exact ⟨hone.mp hpost, (ih hpost).mpr hposts⟩

theorem mem_history (step : σ → ι → σ) {s : σ} {ops : List ι} {st : Step σ ι}
    (h : st ∈ history step s ops) :
    ∃ before op after, ops = before ++ op :: after ∧
      st = ⟨final step s before, op, step (final step s before) op⟩ := by
  induction ops generalizing s with
  | nil => cases h
  | cons op ops ih =>
    rcases List.mem_cons.mp h with rfl | htail
    · exact ⟨[], op, ops, rfl, rfl⟩
    · obtain ⟨before, op', after, rfl, rfl⟩ := ih htail
      exact ⟨op :: before, op', after, rfl, rfl⟩

theorem history_split (step : σ → ι → σ) {s : σ} {ops : List ι} {before after : List (Step σ ι)}
    {st : Step σ ι} (h : history step s ops = before ++ st :: after) :
    ∃ opsBefore opsAfter, ops = opsBefore ++ st.op :: opsAfter ∧
      before = history step s opsBefore ∧ st.pre = final step s opsBefore ∧
      st.post = step st.pre st.op := by
  induction ops generalizing s before with
  | nil => simp at h
  | cons op ops ih =>
    cases before with
    | nil =>
      rw [history, List.nil_append, List.cons.injEq] at h
      obtain ⟨rfl, -⟩ := h
      exact ⟨[], ops, rfl, rfl, rfl, rfl⟩
    | cons st' before =>
      rw [history, List.cons_append, List.cons.injEq] at h
      obtain ⟨rfl, h⟩ := h
      obtain ⟨opsBefore, opsAfter, rfl, rfl, hpre, hpost⟩ := ih h
      exact ⟨op :: opsBefore, opsAfter, rfl, rfl, hpre, hpost⟩

end Pi1MHz.History
