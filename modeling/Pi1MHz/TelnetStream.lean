import Pi1MHz.NetCommands
import Pi1MHz.Transducer

/-!
# TELNET streams

What `net_telnet.c` makes of a whole stream.  The filter is a transducer whose buffers never run out: text
for the Beeb costs a byte that is read, and an answer costs three, of which at most two may have come with
the piece before.
-/

namespace Pi1MHz.Net

/-! ### The filter without buffers -/

inductive Emitted where
  | text (b : UInt8)
  | answer (cmd opt : UInt8)
  deriving DecidableEq

def textOf (os : List Emitted) : List UInt8 :=
  os.flatMap fun
    | .text b => [b]
    | .answer .. => []

def answersOf (os : List Emitted) : List (UInt8 × UInt8) :=
  os.flatMap fun
    | .text _ => []
    | .answer cmd opt => [(cmd, opt)]

def answerBytes (a : UInt8 × UInt8) : List UInt8 := [TN_IAC, a.1, a.2]

def repliesOf (os : List Emitted) : List UInt8 := (answersOf os).flatMap answerBytes

def telnetAnswer (cmd opt : UInt8) : Option UInt8 :=
  if cmd = TN_WILL then some (if opt = TN_OPT_ECHO ∨ opt = TN_OPT_SGA then TN_DO else TN_DONT)
  else if cmd = TN_DO then some TN_WONT
  else none

def telnetOption (t : Telnet) (opt : UInt8) : Telnet × List Emitted :=
  match telnetAnswer t.cmd opt with
  | none => ({ t with state := .data }, [])
  | some cmd =>
    if t.seen opt = true then ({ t with state := .data }, [])
    else ({ t with state := .data, seen := Function.update t.seen opt true }, [.answer cmd opt])

def telnetMove (t : Telnet) (b : UInt8) : Telnet × List Emitted :=
  match t.state with
  | .data =>
    if b = TN_IAC then ({ t with state := .iac }, [])
    else ({ t with state := if b = 0x0D then .cr else .data }, [.text b])
  | .cr =>
    if b = 0x00 then ({ t with state := .data }, [])
    else if b = TN_IAC then ({ t with state := .iac }, [])
    else ({ t with state := if b = 0x0D then .cr else .data }, [.text b])
  | .iac =>
    if b = TN_IAC then ({ t with state := .data }, [.text 0xFF])
    else if b = TN_WILL ∨ b = TN_WONT ∨ b = TN_DO ∨ b = TN_DONT then ({ t with cmd := b, state := .opt }, [])
    else ({ t with state := if b = TN_SB then .sb else .data }, [])
  | .opt => telnetOption t b
  | .sb => ({ t with state := if b = TN_IAC then .sbIac else .sb }, [])
  | .sbIac => ({ t with state := if b = TN_SE then .data else .sb }, [])

def telnetRun (t : Telnet) (input : List UInt8) : Telnet × List Emitted := Transducer.run telnetMove t input

@[simp] theorem telnetRun_nil (t : Telnet) : telnetRun t [] = (t, []) := rfl

theorem telnetRun_cons (t : Telnet) (b : UInt8) (input : List UInt8) :
    telnetRun t (b :: input) = ((telnetRun (telnetMove t b).1 input).1,
      (telnetMove t b).2 ++ (telnetRun (telnetMove t b).1 input).2) := rfl

theorem telnetRun_append (t : Telnet) (xs ys : List UInt8) :
    telnetRun t (xs ++ ys) = ((telnetRun (telnetRun t xs).1 ys).1,
      (telnetRun t xs).2 ++ (telnetRun (telnetRun t xs).1 ys).2) :=
  Transducer.run_append t xs ys

@[simp] theorem textOf_nil : textOf [] = [] := rfl

@[simp] theorem textOf_append (os ps : List Emitted) : textOf (os ++ ps) = textOf os ++ textOf ps :=
  List.flatMap_append

@[simp] theorem textOf_text (b : UInt8) : textOf [.text b] = [b] := rfl

@[simp] theorem textOf_answer (cmd opt : UInt8) : textOf [.answer cmd opt] = [] := rfl

@[simp] theorem answersOf_append (os ps : List Emitted) : answersOf (os ++ ps) = answersOf os ++ answersOf ps :=
  List.flatMap_append

@[simp] theorem repliesOf_nil : repliesOf [] = [] := rfl

@[simp] theorem repliesOf_append (os ps : List Emitted) : repliesOf (os ++ ps) = repliesOf os ++ repliesOf ps := by
  rw [repliesOf, answersOf_append, List.flatMap_append]
  rfl

@[simp] theorem repliesOf_text (b : UInt8) : repliesOf [.text b] = [] := rfl

@[simp] theorem repliesOf_answer (cmd opt : UInt8) : repliesOf [.answer cmd opt] = [TN_IAC, cmd, opt] := rfl

/-! ### Where there is room the filter drops nothing -/

theorem telnetEmit_room {cap : Nat} {buf : List UInt8} (h : buf.length + 1 ≤ cap) (b : UInt8) :
    telnetEmit cap buf b = buf ++ [b] := by
  unfold telnetEmit
  rw [if_pos (by omega)]

theorem telnetReply_room {t : Telnet} {cap : Nat} {rep : List UInt8} (hroom : rep.length + 3 ≤ cap) (cmd opt : UInt8)
    (hnew : t.seen opt = false) :
    telnetReply t cap rep cmd opt =
      ({ t with seen := Function.update t.seen opt true }, rep ++ [TN_IAC, cmd, opt]) := by
  have hone : telnetEmit cap rep TN_IAC = rep ++ [TN_IAC] := telnetEmit_room (by omega) TN_IAC
  have htwo : telnetEmit cap (rep ++ [TN_IAC]) cmd = rep ++ [TN_IAC, cmd] := by
    rw [telnetEmit_room (by rw [List.length_append, List.length_singleton]; omega), List.append_assoc]
    rfl
  have hthree : telnetEmit cap (rep ++ [TN_IAC, cmd]) opt = rep ++ [TN_IAC, cmd, opt] := by
    rw [telnetEmit_room (by rw [List.length_append, List.length_cons, List.length_singleton]; omega),
      List.append_assoc]
    rfl
  unfold telnetReply
  rw [if_neg (by simp [hnew]), if_neg (by omega), hone, htwo, hthree]

theorem telnetByte_opt (outCap repCap : Nat) {r : TelnetRun} (hopt : r.ctx.state = .opt) (b : UInt8) :
    telnetByte outCap repCap r b =
      match telnetAnswer r.ctx.cmd b with
      | none => { r with ctx := { r.ctx with state := .data } }
      | some cmd =>
        { r with
          ctx := { (telnetReply r.ctx repCap r.rep cmd b).1 with state := .data }
          rep := (telnetReply r.ctx repCap r.rep cmd b).2 } := by
  unfold telnetByte telnetAnswer
  rw [hopt]
  by_cases hwill : r.ctx.cmd = TN_WILL
  · simp only [if_pos hwill]
  · by_cases hdo : r.ctx.cmd = TN_DO
    · simp only [if_neg hwill, if_pos hdo]
    · simp only [if_neg hwill, if_neg hdo]

theorem telnetByte_room {outCap repCap : Nat} {r : TelnetRun} (b : UInt8)
    (hout : r.out.length + (textOf (telnetMove r.ctx b).2).length ≤ outCap)
    (hrep : r.rep.length + (repliesOf (telnetMove r.ctx b).2).length ≤ repCap) :
    telnetByte outCap repCap r b =
      ⟨(telnetMove r.ctx b).1, r.out ++ textOf (telnetMove r.ctx b).2, r.rep ++ repliesOf (telnetMove r.ctx b).2⟩ := by
  obtain ⟨⟨st, cmd, seen⟩, out, rep⟩ := r
  cases st with
  | data =>
    simp only [telnetMove] at hout
    simp only [telnetByte, telnetMove]
    split
    · simp
    · rename_i hiac
      rw [if_neg hiac, textOf_text, List.length_singleton] at hout
      by_cases hcr : b = 0x0D
      · rw [if_pos hcr, if_pos hcr, ← hcr, telnetEmit_room hout]
        simp
      · rw [if_neg hcr, if_neg hcr, telnetEmit_room hout]
        simp
  | cr =>
    simp only [telnetMove] at hout
    simp only [telnetByte, telnetMove]
    by_cases hnul : b = 0x00
    · rw [if_pos hnul, if_pos hnul]
      simp
    rw [if_neg hnul, if_neg hnul]
    rw [if_neg hnul] at hout
    by_cases hiac : b = TN_IAC
    · rw [if_pos hiac, if_pos hiac]
      simp
    rw [if_neg hiac, if_neg hiac]
    rw [if_neg hiac, textOf_text, List.length_singleton] at hout
    by_cases hcr : b = 0x0D
    · rw [if_pos hcr, if_pos hcr, ← hcr, telnetEmit_room hout]
      simp
    · rw [if_neg hcr, if_neg hcr, telnetEmit_room hout]
      simp
  | iac =>
    simp only [telnetMove] at hout
    simp only [telnetByte, telnetMove]
    by_cases hiac : b = TN_IAC
    · rw [if_pos hiac, textOf_text, List.length_singleton] at hout
      rw [if_pos hiac, if_pos hiac, telnetEmit_room hout]
      simp
    rw [if_neg hiac, if_neg hiac]
    by_cases hopt : b = TN_WILL ∨ b = TN_WONT ∨ b = TN_DO ∨ b = TN_DONT
    · rw [if_pos hopt, if_pos hopt]
      simp
    rw [if_neg hopt, if_neg hopt]
    by_cases hsb : b = TN_SB
    · rw [if_pos hsb, if_pos hsb]
      simp
    · rw [if_neg hsb, if_neg hsb]
      simp
  | opt =>
    rw [telnetByte_opt outCap repCap rfl]
    simp only [telnetMove, telnetOption] at hrep ⊢
    cases hanswer : telnetAnswer cmd b with
    | none => simp
    | some answer =>
      simp only [hanswer] at hrep
      simp only
      by_cases hseen : seen b = true
      · have hkept : telnetReply ⟨.opt, cmd, seen⟩ repCap rep answer b = (⟨.opt, cmd, seen⟩, rep) := if_pos hseen
        rw [hkept]
        simp [hseen]
      · rw [if_neg hseen, repliesOf_answer] at hrep
        rw [telnetReply_room hrep answer b (Bool.eq_false_iff.mpr hseen)]
        simp [hseen]
  | sb =>
    simp only [telnetByte, telnetMove]
    split
    · simp
    · simp
  | sbIac =>
    simp only [telnetByte, telnetMove]
    split
    · simp
    · simp

theorem telnetFilter_room (t : Telnet) (input : List UInt8) {outCap repCap : Nat}
    (hout : (textOf (telnetRun t input).2).length ≤ outCap)
    (hrep : (repliesOf (telnetRun t input).2).length ≤ repCap) :
    telnetFilter t input outCap repCap =
      ⟨(telnetRun t input).1, textOf (telnetRun t input).2, repliesOf (telnetRun t input).2⟩ := by
  have hgeneral : ∀ r : TelnetRun, r.out.length + (textOf (telnetRun r.ctx input).2).length ≤ outCap →
      r.rep.length + (repliesOf (telnetRun r.ctx input).2).length ≤ repCap →
      input.foldl (telnetByte outCap repCap) r = ⟨(telnetRun r.ctx input).1,
        r.out ++ textOf (telnetRun r.ctx input).2, r.rep ++ repliesOf (telnetRun r.ctx input).2⟩ := by
    clear hout hrep t
    intro r hout hrep
    induction input generalizing r with
    | nil => simp
    | cons b input ih =>
      rw [telnetRun_cons] at hout hrep
      simp only [textOf_append, repliesOf_append, List.length_append] at hout hrep
      have hbyte : telnetByte outCap repCap r b = _ := telnetByte_room b (by omega) (by omega)
      rw [List.foldl_cons, hbyte, ih _ (by simp only [List.length_append]; omega)
        (by simp only [List.length_append]; omega), telnetRun_cons]
      simp only [textOf_append, repliesOf_append, List.append_assoc]
  have hzero := hgeneral ⟨t, [], []⟩ (by simpa using hout) (by simpa using hrep)
  unfold telnetFilter
  rw [hzero]
  rfl

/-! ### How much room there is -/

def TelnetSt.credit : TelnetSt → Nat
  | .iac => 1
  | .opt => 2
  | _ => 0

theorem length_textOf_move (t : Telnet) (b : UInt8) : (textOf (telnetMove t b).2).length ≤ 1 := by
  unfold telnetMove telnetOption
  split
  · split <;> simp
  · split_ifs <;> simp
  · split_ifs <;> simp
  · split
    · simp
    · split <;> simp
  · simp
  · simp

theorem length_textOf_run (t : Telnet) (input : List UInt8) :
    (textOf (telnetRun t input).2).length ≤ input.length := by
  have hbound : (textOf (Transducer.run telnetMove t input).2).length + 0 ≤ 0 + input.length :=
    Transducer.run_bounded (fun os => (textOf os).length) (fun _ => 0) rfl
      (fun os ps => by rw [textOf_append, List.length_append]) (fun t b => by have := length_textOf_move t b; omega)
      t input
  unfold telnetRun
  omega

theorem length_repliesOf_move (t : Telnet) (b : UInt8) :
    (repliesOf (telnetMove t b).2).length + (telnetMove t b).1.state.credit ≤ t.state.credit + 1 := by
  unfold telnetMove telnetOption
  split
  · split
    · simp [TelnetSt.credit]
    · split <;> simp [TelnetSt.credit]
  · split_ifs <;> simp [TelnetSt.credit]
  · rename_i hiac
    rw [hiac]
    split_ifs <;> simp [TelnetSt.credit]
  · rename_i hopt
    rw [hopt]
    split
    · simp [TelnetSt.credit]
    · split <;> simp [TelnetSt.credit]
  · split <;> simp [TelnetSt.credit]
  · split <;> simp [TelnetSt.credit]

theorem length_repliesOf_run (t : Telnet) (input : List UInt8) :
    (repliesOf (telnetRun t input).2).length ≤ input.length + 2 := by
  have hbound : (repliesOf (Transducer.run telnetMove t input).2).length +
      (Transducer.run telnetMove t input).1.state.credit ≤
      t.state.credit + input.length :=
    Transducer.run_bounded (fun os => (repliesOf os).length) (fun t => t.state.credit) rfl
      (fun os ps => by rw [repliesOf_append, List.length_append]) length_repliesOf_move t input
  have hcredit : t.state.credit ≤ 2 := by
    cases t.state <;> decide
  unfold telnetRun
  omega

/-! ### One answer for each option -/

theorem seen_move {t : Telnet} {opt : UInt8} (h : t.seen opt = true) (b : UInt8) :
    (telnetMove t b).1.seen opt = true := by
  unfold telnetMove telnetOption
  split
  · split <;> exact h
  · split_ifs <;> exact h
  · split_ifs <;> exact h
  · split
    · exact h
    · split
      · exact h
      · by_cases hopt : opt = b
        · rw [hopt]
          exact Function.update_self _ _ _
        · exact (Function.update_of_ne hopt _ _).trans h
  · exact h
  · exact h

theorem answersOf_move (t : Telnet) (b : UInt8) :
    answersOf (telnetMove t b).2 = [] ∨
      ∃ cmd, answersOf (telnetMove t b).2 = [(cmd, b)] ∧ t.seen b = false ∧ (telnetMove t b).1.seen b = true := by
  unfold telnetMove telnetOption
  split
  · left
    split <;> rfl
  · left
    split_ifs <;> rfl
  · left
    split_ifs <;> rfl
  · split
    · exact .inl rfl
    · rename_i cmd _
      by_cases hseen : t.seen b = true
      · rw [if_pos hseen]
        exact .inl rfl
      · rw [if_neg hseen]
        exact .inr ⟨cmd, rfl, Bool.eq_false_iff.mpr hseen, Function.update_self _ _ _⟩
  · exact .inl rfl
  · exact .inl rfl

theorem answersOf_run (t : Telnet) (input : List UInt8) :
    ((answersOf (telnetRun t input).2).map Prod.snd).Nodup ∧
      ∀ a ∈ answersOf (telnetRun t input).2, t.seen a.2 = false := by
  induction input generalizing t with
  | nil => exact ⟨List.nodup_nil, nofun⟩
  | cons b input ih =>
    obtain ⟨hnodup, hnew⟩ := ih (telnetMove t b).1
    have hlater : ∀ a ∈ answersOf (telnetRun (telnetMove t b).1 input).2, t.seen a.2 = false := by
      intro a ha
      by_contra hseen
      have hkept := seen_move (Bool.eq_true_of_not_eq_false hseen) b
      rw [hnew a ha] at hkept
      cases hkept
    rw [telnetRun_cons, answersOf_append]
    rcases answersOf_move t b with hnone | ⟨cmd, hone, hfresh, hmarked⟩
    · rw [hnone, List.nil_append]
      exact ⟨hnodup, hlater⟩
    · rw [hone]
      constructor
      · rw [List.singleton_append, List.map_cons, List.nodup_cons]
        refine ⟨?_, hnodup⟩
        rw [List.mem_map]
        rintro ⟨a, ha, heq⟩
        have hseen := hnew a ha
        rw [heq, hmarked] at hseen
        cases hseen
      · intro a ha
        rcases List.mem_cons.mp ha with rfl | ha
        · exact hfresh
        · exact hlater a ha

/-! ### The words of a stream -/

inductive Word where
  | text (b : UInt8)
  | doubled
  | command (b : UInt8)
  | option (cmd opt : UInt8)
  | subneg (body : List UInt8)

/-- No `IAC SE` ends it: every IAC takes the byte after it along. -/
inductive Body : List UInt8 → Prop
  | nil : Body []
  | byte {b : UInt8} {rest : List UInt8} (hb : b ≠ TN_IAC) (hrest : Body rest) : Body (b :: rest)
  | pair {b : UInt8} {rest : List UInt8} (hb : b ≠ TN_SE) (hrest : Body rest) : Body (TN_IAC :: b :: rest)

def isOption (b : UInt8) : Prop := b = TN_WILL ∨ b = TN_WONT ∨ b = TN_DO ∨ b = TN_DONT

instance (b : UInt8) : Decidable (isOption b) := inferInstanceAs (Decidable (_ ∨ _))

def Word.Good : Word → Prop
  | .text b => b ≠ TN_IAC
  | .doubled => True
  | .command b => b ≠ TN_IAC ∧ ¬ isOption b ∧ b ≠ TN_SB
  | .option cmd _ => isOption cmd
  | .subneg body => Body body

def Word.bytes : Word → List UInt8
  | .text b => [b]
  | .doubled => [TN_IAC, TN_IAC]
  | .command b => [TN_IAC, b]
  | .option cmd opt => [TN_IAC, cmd, opt]
  | .subneg body => TN_IAC :: TN_SB :: (body ++ [TN_IAC, TN_SE])

inductive Cut : List UInt8 → Prop
  | whole : Cut []
  | iac : Cut [TN_IAC]
  | option {cmd : UInt8} (hcmd : isOption cmd) : Cut [TN_IAC, cmd]
  | subneg {body : List UInt8} (hbody : Body body) : Cut (TN_IAC :: TN_SB :: body)
  | subnegIac {body : List UInt8} (hbody : Body body) : Cut (TN_IAC :: TN_SB :: (body ++ [TN_IAC]))

def readable : Bool → List Word → List UInt8
  | _, [] => []
  | afterCr, .text b :: ws => if afterCr = true ∧ b = 0x00 then readable false ws else b :: readable (b == 0x0D) ws
  | _, .doubled :: ws => 0xFF :: readable false ws
  | _, _ :: ws => readable false ws

theorem body_split : ∀ s : List UInt8,
    (∃ body rest, Body body ∧ s = body ++ TN_IAC :: TN_SE :: rest) ∨ Body s ∨ ∃ body, Body body ∧ s = body ++ [TN_IAC]
  | [] => .inr (.inl .nil)
  | [b] => by
    by_cases hb : b = TN_IAC
    · exact .inr (.inr ⟨[], .nil, by rw [hb]; rfl⟩)
    · exact .inr (.inl (.byte hb .nil))
  | b :: c :: s => by
    by_cases hb : b = TN_IAC
    · subst hb
      by_cases hc : c = TN_SE
      · exact .inl ⟨[], s, .nil, by rw [hc]; rfl⟩
      · rcases body_split s with ⟨body, rest, hbody, rfl⟩ | hbody | ⟨body, hbody, rfl⟩
        · exact .inl ⟨_, rest, .pair hc hbody, rfl⟩
        · exact .inr (.inl (.pair hc hbody))
        · exact .inr (.inr ⟨_, .pair hc hbody, rfl⟩)
    · rcases body_split (c :: s) with ⟨body, rest, hbody, heq⟩ | hbody | ⟨body, hbody, heq⟩
      · exact .inl ⟨b :: body, rest, .byte hb hbody, by rw [heq]; rfl⟩
      · exact .inr (.inl (.byte hb hbody))
      · exact .inr (.inr ⟨b :: body, .byte hb hbody, by rw [heq]; rfl⟩)

theorem first_word (s : List UInt8) : Cut s ∨ ∃ w : Word, w.Good ∧ ∃ rest, s = w.bytes ++ rest := by
  match s with
  | [] => exact .inl .whole
  | b :: s =>
    by_cases hb : b = TN_IAC
    · subst hb
      match s with
      | [] => exact .inl .iac
      | c :: s =>
        by_cases hiac : c = TN_IAC
        · exact .inr ⟨.doubled, trivial, s, by rw [hiac]; rfl⟩
        by_cases hopt : isOption c
        · match s with
          | [] => exact .inl (.option hopt)
          | o :: s => exact .inr ⟨.option c o, hopt, s, rfl⟩
        by_cases hsb : c = TN_SB
        · subst hsb
          rcases body_split s with ⟨body, rest, hbody, rfl⟩ | hbody | ⟨body, hbody, rfl⟩
          · exact .inr ⟨.subneg body, hbody, rest, by simp [Word.bytes]⟩
          · exact .inl (.subneg hbody)
          · exact .inl (.subnegIac hbody)
        · exact .inr ⟨.command c, ⟨hiac, hopt, hsb⟩, s, rfl⟩
    · exact .inr ⟨.text b, hb, s, rfl⟩

theorem bytes_pos (w : Word) : 0 < w.bytes.length := by
  cases w <;> simp [Word.bytes]

theorem words_split (s : List UInt8) :
    ∃ (ws : List Word) (tail : List UInt8), (∀ w ∈ ws, w.Good) ∧ Cut tail ∧ s = ws.flatMap Word.bytes ++ tail := by
  induction hn : s.length using Nat.strong_induction_on generalizing s with
  | _ n ih =>
    rcases first_word s with hcut | ⟨w, hw, rest, rfl⟩
    · exact ⟨[], s, nofun, hcut, rfl⟩
    · have hlt : rest.length < n := by
        have hpos := bytes_pos w
        rw [← hn, List.length_append]
        omega
      obtain ⟨ws, tail, hws, hcut, rfl⟩ := ih rest.length hlt rest rfl
      refine ⟨w :: ws, tail, ?_, hcut, ?_⟩
      · intro v hv
        rcases List.mem_cons.mp hv with rfl | hv
        · exact hw
        · exact hws v hv
      · rw [List.flatMap_cons, List.append_assoc]

/-! ### What the words put out -/

def Between (t : Telnet) (afterCr : Bool) : Prop := t.state = if afterCr = true then .cr else .data

theorem move_text {t : Telnet} {afterCr : Bool} (h : Between t afterCr) {b : UInt8} (hb : b ≠ TN_IAC) :
    Between (telnetMove t b).1 (b == 0x0D) ∧
      textOf (telnetMove t b).2 = if afterCr = true ∧ b = 0x00 then [] else [b] := by
  unfold Between at h ⊢
  unfold telnetMove
  cases afterCr with
  | false =>
    rw [h]
    simp [hb]
  | true =>
    rw [h]
    by_cases hnul : b = 0x00
    · simp [hnul]
    · simp [hnul, hb]

theorem move_iac {t : Telnet} {afterCr : Bool} (h : Between t afterCr) :
    (telnetMove t TN_IAC).1.state = .iac ∧ textOf (telnetMove t TN_IAC).2 = [] := by
  unfold Between at h
  unfold telnetMove
  cases afterCr with
  | false =>
    rw [h]
    exact ⟨rfl, rfl⟩
  | true =>
    rw [h]
    exact ⟨rfl, rfl⟩

theorem run_body {t : Telnet} (hsb : t.state = .sb) {body : List UInt8} (hbody : Body body) :
    (telnetRun t body).1.state = .sb ∧ (telnetRun t body).2 = [] := by
  induction hbody generalizing t with
  | nil => exact ⟨hsb, rfl⟩
  | @byte b rest hb _ ih =>
    have hmove : telnetMove t b = ({ t with state := .sb }, []) := by
      unfold telnetMove
      rw [hsb]
      simp [hb]
    rw [telnetRun_cons, hmove]
    exact ih rfl
  | @pair b rest hb _ ih =>
    have hmove : telnetMove t TN_IAC = ({ t with state := .sbIac }, []) := by
      unfold telnetMove
      rw [hsb]
      rfl
    have hnext : telnetMove { t with state := .sbIac } b = ({ t with state := .sb }, []) := by
      unfold telnetMove
      simp [hb]
    rw [telnetRun_cons, hmove, telnetRun_cons, hnext]
    exact ih rfl

theorem move_command {t : Telnet} (hiac : t.state = .iac) {cmd : UInt8} (hcmd : isOption cmd) :
    telnetMove t cmd = ({ t with cmd := cmd, state := .opt }, []) := by
  have hne : cmd ≠ TN_IAC := by
    rintro rfl
    revert hcmd
    decide
  unfold telnetMove
  rw [hiac]
  simp only
  rw [if_neg hne]
  exact if_pos hcmd

theorem move_opt {t : Telnet} (hopt : t.state = .opt) (b : UInt8) :
    (telnetMove t b).1.state = .data ∧ textOf (telnetMove t b).2 = [] := by
  unfold telnetMove telnetOption
  rw [hopt]
  simp only
  split
  · exact ⟨rfl, rfl⟩
  · split
    · exact ⟨rfl, rfl⟩
    · exact ⟨rfl, rfl⟩

theorem move_sb {t : Telnet} (hiac : t.state = .iac) : telnetMove t TN_SB = ({ t with state := .sb }, []) := by
  unfold telnetMove
  rw [hiac]
  rfl

theorem run_word {t : Telnet} {afterCr : Bool} (h : Between t afterCr) {w : Word} (hw : w.Good) (ws : List Word) :
    ∃ afterCr', Between (telnetRun t w.bytes).1 afterCr' ∧
      readable afterCr (w :: ws) = textOf (telnetRun t w.bytes).2 ++ readable afterCr' ws := by
  cases w with
  | text b =>
    obtain ⟨hbetween, htext⟩ := move_text h hw
    refine ⟨b == 0x0D, hbetween, ?_⟩
    rw [Word.bytes, telnetRun_cons, telnetRun_nil, List.append_nil, htext, readable]
    split
    · rename_i hnul
      rw [hnul.2]
      rfl
    · rfl
  | doubled =>
    obtain ⟨hiac, htext⟩ := move_iac h
    have hmove : telnetMove (telnetMove t TN_IAC).1 TN_IAC =
        ({ (telnetMove t TN_IAC).1 with state := .data }, [.text 0xFF]) := by
      generalize (telnetMove t TN_IAC).1 = u at hiac
      unfold telnetMove
      rw [hiac]
      rfl
    refine ⟨false, ?_, ?_⟩
    · rw [Word.bytes, telnetRun_cons, telnetRun_cons, hmove]
      rfl
    · rw [Word.bytes, telnetRun_cons, telnetRun_cons, hmove, textOf_append, htext]
      rfl
  | command b =>
    obtain ⟨hiac, htext⟩ := move_iac h
    obtain ⟨hb, hopt, hsb⟩ := hw
    have hmove : telnetMove (telnetMove t TN_IAC).1 b = ({ (telnetMove t TN_IAC).1 with state := .data }, []) := by
      generalize (telnetMove t TN_IAC).1 = u at hiac
      unfold telnetMove
      rw [hiac]
      simp only
      rw [if_neg hb]
      refine (if_neg hopt).trans ?_
      rw [if_neg hsb]
    refine ⟨false, ?_, ?_⟩
    · rw [Word.bytes, telnetRun_cons, telnetRun_cons, hmove]
      rfl
    · rw [Word.bytes, telnetRun_cons, telnetRun_cons, hmove, textOf_append, htext]
      rfl
  | option cmd opt =>
    obtain ⟨hiac, htext⟩ := move_iac h
    have hmove := move_command hiac hw
    obtain ⟨hdata, hnone⟩ := move_opt (t := { (telnetMove t TN_IAC).1 with cmd := cmd, state := .opt }) rfl opt
    refine ⟨false, ?_, ?_⟩
    · rw [Word.bytes, telnetRun_cons, telnetRun_cons, hmove, telnetRun_cons]
      exact hdata
    · rw [Word.bytes, telnetRun_cons, telnetRun_cons, hmove, telnetRun_cons]
      simp only [textOf_append, htext, hnone]
      rfl
  | subneg body =>
    obtain ⟨hiac, htext⟩ := move_iac h
    have hmove := move_sb hiac
    obtain ⟨hsb, hnone⟩ := run_body (t := { (telnetMove t TN_IAC).1 with state := .sb }) rfl hw
    have hend : telnetRun (telnetRun { (telnetMove t TN_IAC).1 with state := .sb } body).1 [TN_IAC, TN_SE] =
        ({ (telnetRun { (telnetMove t TN_IAC).1 with state := .sb } body).1 with state := .data }, []) := by
      generalize (telnetRun { (telnetMove t TN_IAC).1 with state := .sb } body).1 = u at hsb
      simp only [telnetRun_cons, telnetRun_nil]
      unfold telnetMove
      rw [hsb]
      rfl
    refine ⟨false, ?_, ?_⟩
    · rw [Word.bytes, telnetRun_cons, telnetRun_cons, hmove, telnetRun_append, hend]
      rfl
    · rw [Word.bytes, telnetRun_cons, telnetRun_cons, hmove, telnetRun_append, hend]
      simp only [textOf_append, htext, hnone]
      rfl

theorem run_cut {t : Telnet} {afterCr : Bool} (h : Between t afterCr) {tail : List UInt8} (hcut : Cut tail) :
    textOf (telnetRun t tail).2 = [] := by
  obtain ⟨hiac, htext⟩ := move_iac h
  cases hcut with
  | whole => rfl
  | iac => rw [telnetRun_cons, textOf_append, htext]; rfl
  | option hcmd =>
    rw [telnetRun_cons, telnetRun_cons, move_command hiac hcmd, textOf_append, htext]
    rfl
  | subneg hbody =>
    obtain ⟨-, hnone⟩ := run_body (t := { (telnetMove t TN_IAC).1 with state := .sb }) rfl hbody
    rw [telnetRun_cons, telnetRun_cons, move_sb hiac, hnone, textOf_append, htext]
    rfl
  | @subnegIac body hbody =>
    obtain ⟨hsb, hnone⟩ := run_body (t := { (telnetMove t TN_IAC).1 with state := .sb }) rfl hbody
    have hlast : ∀ u : Telnet, u.state = .sb → textOf (telnetMove u TN_IAC).2 = [] := by
      intro u hu
      unfold telnetMove
      rw [hu]
      rfl
    rw [telnetRun_cons, telnetRun_cons, move_sb hiac, telnetRun_append, hnone, telnetRun_cons, telnetRun_nil]
    simp only [textOf_append, htext, hlast _ hsb]
    rfl

theorem run_words {t : Telnet} {afterCr : Bool} (h : Between t afterCr) {ws : List Word}
    (hws : ∀ w ∈ ws, w.Good) {tail : List UInt8} (hcut : Cut tail) :
    textOf (telnetRun t (ws.flatMap Word.bytes ++ tail)).2 = readable afterCr ws := by
  induction ws generalizing t afterCr with
  | nil => exact run_cut h hcut
  | cons w ws ih =>
    obtain ⟨afterCr', hbetween, hread⟩ := run_word h (hws w List.mem_cons_self) ws
    rw [List.flatMap_cons, List.append_assoc, telnetRun_append, textOf_append, hread,
      ih hbetween fun v hv => hws v (List.mem_cons_of_mem w hv)]

/-! ### Streams in pieces -/

/-- The text of a stream that comes in pieces, with the buffers of `net_tcp_recv`. -/
def telnetText : Telnet → List (List UInt8) → Telnet × List UInt8 :=
  Transducer.run fun t piece => ((telnetFilter t piece 256 300).ctx, (telnetFilter t piece 256 300).out)

def telnetReplies : Telnet → List (List UInt8) → Telnet × List UInt8 :=
  Transducer.run fun t piece => ((telnetFilter t piece 256 300).ctx, (telnetFilter t piece 256 300).rep)

theorem telnetFilter_piece (t : Telnet) {piece : List UInt8} (h : piece.length ≤ 256) :
    telnetFilter t piece 256 300 =
      ⟨(telnetRun t piece).1, textOf (telnetRun t piece).2, repliesOf (telnetRun t piece).2⟩ := by
  have htext := length_textOf_run t piece
  have hrep := length_repliesOf_run t piece
  exact telnetFilter_room t piece (by omega) (by omega)

theorem telnetText_eq {pieces : List (List UInt8)} (h : ∀ p ∈ pieces, p.length ≤ 256) (t : Telnet) :
    telnetText t pieces = ((telnetRun t pieces.flatten).1, textOf (telnetRun t pieces.flatten).2) :=
  Transducer.run_pieces _ textOf rfl textOf_append pieces (fun u p hp => by rw [telnetFilter_piece u (h p hp)]; rfl) t

theorem telnetReplies_eq {pieces : List (List UInt8)} (h : ∀ p ∈ pieces, p.length ≤ 256) (t : Telnet) :
    telnetReplies t pieces = ((telnetRun t pieces.flatten).1, repliesOf (telnetRun t pieces.flatten).2) :=
  Transducer.run_pieces _ repliesOf rfl repliesOf_append pieces
    (fun u p hp => by rw [telnetFilter_piece u (h p hp)]; rfl) t

/-- However a stream is cut, its text and its replies are those of the filter that drops nothing: the text is
no longer than the stream and is that of the text words, and no option is answered twice. -/
theorem telnet_stream (t : Telnet) (pieces : List (List UInt8)) (hpieces : ∀ p ∈ pieces, p.length ≤ 256) :
    telnetText t pieces = ((telnetRun t pieces.flatten).1, textOf (telnetRun t pieces.flatten).2) ∧
      telnetReplies t pieces = ((telnetRun t pieces.flatten).1, repliesOf (telnetRun t pieces.flatten).2) ∧
      (∀ others : List (List UInt8), (∀ p ∈ others, p.length ≤ 256) → others.flatten = pieces.flatten →
        telnetText t others = telnetText t pieces ∧ telnetReplies t others = telnetReplies t pieces) ∧
      (telnetText t pieces).2.length ≤ pieces.flatten.length ∧
      (∃ answers : List (UInt8 × UInt8), (telnetReplies t pieces).2 = answers.flatMap answerBytes ∧
        (answers.map Prod.snd).Nodup ∧ ∀ a ∈ answers, t.seen a.2 = false) ∧
      ∀ afterCr, Between t afterCr → ∃ (ws : List Word) (tail : List UInt8), (∀ w ∈ ws, w.Good) ∧ Cut tail ∧
        pieces.flatten = ws.flatMap Word.bytes ++ tail ∧ (telnetText t pieces).2 = readable afterCr ws := by
  have htext := telnetText_eq hpieces t
  have hreplies := telnetReplies_eq hpieces t
  refine ⟨htext, hreplies, ?_, ?_, ?_, ?_⟩
  · intro others hothers hsame
    rw [telnetText_eq hothers, telnetReplies_eq hothers, hsame, htext, hreplies]
    exact ⟨rfl, rfl⟩
  · rw [htext]
    exact length_textOf_run t pieces.flatten
  · obtain ⟨hnodup, hnew⟩ := answersOf_run t pieces.flatten
    rw [hreplies]
    exact ⟨answersOf (telnetRun t pieces.flatten).2, rfl, hnodup, hnew⟩
  · intro afterCr hbetween
    obtain ⟨ws, tail, hws, hcut, hsplit⟩ := words_split pieces.flatten
    refine ⟨ws, tail, hws, hcut, hsplit, ?_⟩
    rw [htext, hsplit]
    exact run_words hbetween hws hcut

/-- `IAC WILL ECHO`, twice and cut in the option, then a line of text. -/
theorem telnet_stream_echo :
    (telnetText {} [[255, 251], [1, 255, 251, 1, 72, 13], [0, 255]]).2.length ≤ 9 ∧
      telnetReplies {} [[255, 251], [1, 255, 251, 1, 72, 13], [0, 255]] =
        ((telnetRun {} [255, 251, 1, 255, 251, 1, 72, 13, 0, 255]).1, [255, 253, 1]) := by
  have hall := telnet_stream {} [[255, 251], [1, 255, 251, 1, 72, 13], [0, 255]] (by decide)
  refine ⟨?_, hall.2.1⟩
  rw [hall.1]
  decide

end Pi1MHz.Net
