import Pi1MHz.History
import Pi1MHz.MirrorRing

/-!
# The VDU queue

`framebuffer.c` takes VDU bytes from the Beeb one at a time in FIQ and whole commands from the Pi's
own code, and executes them from a timer interrupt.
-/

namespace Pi1MHz.Vdu

open History (final history)

def vduQSize : Nat := 8192

def vduBufLen : Nat := 16

/-- The parameter bytes of each command, the `len` column of `vdu_operation_table`. -/
def vduLen (command : UInt8) : Nat :=
  match command.toNat with
  | 1 => 1
  | 17 => 1
  | 18 => 2
  | 19 => 5
  | 22 => 1
  | 23 => 9
  | 24 => 8
  | 25 => 5
  | 27 => 1
  | 28 => 4
  | 29 => 4
  | 31 => 2
  | _ => 0

structure Command where
  head : UInt8
  params : List UInt8
  complete : params.length = vduLen head

def Command.bytes (c : Command) : List UInt8 := c.head :: c.params

inductive Serving where
  | idle
  | handling (needed : Nat)
  | handled (needed : Nat)
deriving DecidableEq

structure Queue where
  ring : MirrorRing UInt8 vduQSize vduBufLen
  /-- `vdu_fiq_cmd_remaining`. -/
  fiqCmdRemaining : Nat
  /-- `drop_remaining` of `fb_emulator_vdu`. -/
  dropRemaining : Nat
  enabled : Bool
  serving : Serving

namespace Queue

def init (memory : Nat → UInt8) : Queue where
  ring := ⟨memory, 0, 0⟩
  fiqCmdRemaining := 0
  dropRemaining := 0
  enabled := true
  serving := .idle

def fbEmulatorVdu (q : Queue) (data : UInt8) : Queue :=
  if q.dropRemaining ≠ 0 then
    { q with dropRemaining := q.dropRemaining - 1 }
  else if q.fiqCmdRemaining = 0 then
    let needed := vduLen data + 1
    if q.ring.space < needed then
      { q with dropRemaining := needed - 1 }
    else
      { q with fiqCmdRemaining := needed - 1, ring := q.ring.put data }
  else
    { q with fiqCmdRemaining := q.fiqCmdRemaining - 1, ring := q.ring.put data }

/-- The loop of `vdu_enqueue`; each round takes at least one byte of `buf`, so as many rounds as
there are bytes are enough. -/
def enqueueRounds (q : Queue) : Nat → List UInt8 → Queue
  | 0, _ => q
  | _ + 1, [] => q
  | rounds + 1, buf =>
      let chunk := buf.take vduBufLen
      if q.ring.space < chunk.length + q.fiqCmdRemaining then q
      else enqueueRounds { q with ring := q.ring.putAll chunk } rounds (buf.drop vduBufLen)

def vduEnqueue (q : Queue) (buf : List UInt8) : Queue := q.enqueueRounds buf.length buf

/-- The head of the loop of `fb_process_vdu_queue`: is there a whole command at the read pointer? -/
def peek (q : Queue) : Queue :=
  match q.serving with
  | .idle =>
      if q.ring.rp = q.ring.wp then q
      else
        let needed := vduLen (q.ring.buf q.ring.rp) + 1
        if q.ring.count < needed then q else { q with serving := .handling needed }
  | _ => q

def executes (q : Queue) : Bool :=
  q.enabled || q.ring.buf q.ring.rp == 6 || q.ring.buf q.ring.rp == 22

/-- What the handlers do to `vdu_enabled`. -/
def enabledAfter (q : Queue) : Bool :=
  if !q.executes then q.enabled
  else match (q.ring.buf q.ring.rp).toNat with
    | 6 => true
    | 21 => false
    | 22 => true
    | _ => q.enabled

def handle (q : Queue) : Queue :=
  match q.serving with
  | .handling needed => { q with serving := .handled needed, enabled := q.enabledAfter }
  | _ => q

def advance (q : Queue) : Queue :=
  match q.serving with
  | .handled needed => { q with serving := .idle, ring := q.ring.skip needed }
  | _ => q

def unserved (q : Queue) : List UInt8 :=
  match q.serving with
  | .handled needed => q.ring.contents.drop needed
  | _ => q.ring.contents

def free (q : Queue) : Nat := vduQSize - 1 - q.ring.contents.length

end Queue

/-! ### What the two sides send and what is executed -/

abbrev Marked := Bool × List UInt8

def marked (l : List Marked) : List (List UInt8) := (l.filter Prod.fst).map Prod.snd

structure Log where
  beeb : List Marked
  sending : Option Marked
  /-- The commands given to `vdu_enqueue`. -/
  enqueued : List Marked
  /-- The commands the consumer took, as the handler finds them; marked when executed. -/
  served : List Marked
deriving DecidableEq

def Log.empty : Log := ⟨[], none, [], []⟩

/-- The command being sent has grown to `now`; a complete one goes on record. -/
def Log.record (l : Log) (now : Marked) : Log :=
  if now.2.length = vduLen (now.2.headD 0) + 1 then
    { l with beeb := l.beeb ++ [now], sending := none }
  else { l with sending := some now }

def Log.send (l : Log) (free : Nat) (data : UInt8) : Log :=
  match l.sending with
  | none => l.record (decide (vduLen data + 1 ≤ free), [data])
  | some (room, bytes) => l.record (room, bytes ++ [data])

def Log.promised (l : Log) : Nat :=
  match l.sending with
  | some (true, bytes) => vduLen (bytes.headD 0) + 1 - bytes.length
  | _ => 0

def Log.begun (l : Log) : List UInt8 :=
  match l.sending with
  | some (true, bytes) => bytes
  | _ => []

structure Run where
  queue : Queue
  log : Log

inductive Event where
  | beeb (data : UInt8)
  | enqueue (command : Command)
  | peek
  | handle
  | advance

def step (r : Run) : Event → Run
  | .beeb data => ⟨r.queue.fbEmulatorVdu data, r.log.send r.queue.free data⟩
  | .enqueue c =>
      ⟨r.queue.vduEnqueue c.bytes,
        { r.log with
          enqueued := r.log.enqueued ++
            [(decide (c.bytes.length + r.log.promised ≤ r.queue.free), c.bytes)] }⟩
  | .peek => ⟨r.queue.peek, r.log⟩
  | .handle =>
      ⟨r.queue.handle,
        match r.queue.serving with
        | .handling needed =>
            { r.log with
              served := r.log.served ++ [(r.queue.executes, r.queue.ring.window needed)] }
        | _ => r.log⟩
  | .advance => ⟨r.queue.advance, r.log⟩

def start (memory : Nat → UInt8) : Run := ⟨Queue.init memory, .empty⟩

inductive Source where
  | beeb
  | pi
deriving DecidableEq

def sentBy (s : Source) (l : List (Source × List UInt8)) : List (List UInt8) :=
  (l.filter (·.1 = s)).map Prod.snd

/-- What the consumer served and what is still queued is one interleaving of the commands of the two
sources for which there was room. -/
def Whole (r : Run) : Prop :=
  ∃ served waiting : List (Source × List UInt8),
    r.log.served.map Prod.snd = served.map Prod.snd ∧
    r.queue.unserved = waiting.flatMap Prod.snd ++ r.log.begun ∧
    sentBy .beeb (served ++ waiting) = marked r.log.beeb ∧
    sentBy .pi (served ++ waiting) = marked r.log.enqueued

/-! ### The invariant -/

def Log.refused (l : Log) : Nat :=
  match l.sending with
  | some (false, bytes) => vduLen (bytes.headD 0) + 1 - bytes.length
  | _ => 0

structure Inv (r : Run) (served waiting : List (Source × List UInt8)) : Prop where
  wellFormed : r.queue.ring.WellFormed
  unserved : r.queue.unserved = waiting.flatMap Prod.snd ++ r.log.begun
  complete : ∀ w ∈ waiting, ∃ c : Command, w.2 = c.bytes
  servedLog : r.log.served.map Prod.snd = served.map Prod.snd
  beeb : sentBy .beeb (served ++ waiting) = marked r.log.beeb
  pi : sentBy .pi (served ++ waiting) = marked r.log.enqueued
  handling : ∀ needed, r.queue.serving = .handling needed →
    ∃ w rest, waiting = w :: rest ∧ needed = w.2.length
  handled : ∀ needed, r.queue.serving = .handled needed → needed ≤ r.queue.ring.contents.length
  sending : ∀ room bytes, r.log.sending = some (room, bytes) →
    ∃ c ps, bytes = c :: ps ∧ ps.length < vduLen c
  remaining : r.queue.fiqCmdRemaining = r.log.promised
  dropping : r.queue.dropRemaining = r.log.refused
  reserved : r.queue.ring.contents.length + r.queue.fiqCmdRemaining ≤ vduQSize - 1

/-- The step is not a `vdu_enqueue` that finds room while a Beeb command is half received. -/
def Undisturbed (r : Run) : Event → Prop
  | .enqueue c => r.queue.fiqCmdRemaining = 0 ∨
      r.queue.free < c.bytes.length + r.queue.fiqCmdRemaining
  | _ => True

section Steps

variable {r : Run} {served waiting : List (Source × List UInt8)}

theorem vduLen_le (c : UInt8) : vduLen c ≤ 9 := by
  unfold vduLen
  split <;> decide

theorem Command.length_bytes (c : Command) : c.bytes.length = vduLen c.head + 1 := by
  rw [Command.bytes, List.length_cons, c.complete]

theorem sentBy_append (s : Source) (l l' : List (Source × List UInt8)) :
    sentBy s (l ++ l') = sentBy s l ++ sentBy s l' := by
  simp [sentBy]

theorem marked_append (l l' : List Marked) : marked (l ++ l') = marked l ++ marked l' := by
  simp [marked]

theorem inv_start (memory : Nat → UInt8) : Inv (start memory) [] [] where
  wellFormed := .empty memory (by decide)
  unserved := MirrorRing.contents_empty memory
  complete := nofun
  servedLog := rfl
  beeb := rfl
  pi := rfl
  handling := nofun
  handled := nofun
  sending := nofun
  remaining := rfl
  dropping := rfl
  reserved := by
    show (MirrorRing.contents ⟨memory, 0, 0⟩).length + 0 ≤ vduQSize - 1
    rw [MirrorRing.contents_empty]
    decide

theorem space_eq_free (h : Inv r served waiting) : r.queue.ring.space = r.queue.free := by
  rw [h.wellFormed.space_eq, Queue.free, MirrorRing.length_contents]

theorem unserved_append {q q' : Queue} {xs : List UInt8} (hserving : q'.serving = q.serving)
    (hcontents : q'.ring.contents = q.ring.contents ++ xs)
    (hle : ∀ needed, q.serving = .handled needed → needed ≤ q.ring.contents.length) :
    q'.unserved = q.unserved ++ xs := by
  unfold Queue.unserved
  rw [hserving, hcontents]
  split
  · next needed hs => rw [List.drop_append_of_le_length (hle needed hs)]
  · rfl

theorem vduEnqueue_command (q : Queue) (c : Command) :
    q.vduEnqueue c.bytes =
      if q.ring.space < c.bytes.length + q.fiqCmdRemaining then q
      else { q with ring := q.ring.putAll c.bytes } := by
  have hlen : c.bytes.length ≤ vduBufLen := by
    rw [c.length_bytes]
    have hle := vduLen_le c.head
    simp only [vduBufLen]
    omega
  have htake : c.bytes.take vduBufLen = c.bytes := List.take_of_length_le hlen
  have hdrop : c.bytes.drop vduBufLen = [] := List.drop_eq_nil_of_le hlen
  have hround : q.vduEnqueue c.bytes =
      if q.ring.space < (c.bytes.take vduBufLen).length + q.fiqCmdRemaining then q
      else Queue.enqueueRounds { q with ring := q.ring.putAll (c.bytes.take vduBufLen) }
        c.params.length (c.bytes.drop vduBufLen) := rfl
  rw [hround, htake, hdrop]
  cases c.params.length <;> rfl

/-! The consumer. -/

theorem buf_rp {q : Queue} (hwf : q.ring.WellFormed) {b : UInt8} {rest : List UInt8}
    (h : q.ring.contents = b :: rest) : q.ring.buf q.ring.rp = b := by
  have hpos : 0 < q.ring.count := by
    rw [← MirrorRing.length_contents, h]
    exact Nat.succ_pos _
  have hwin := hwf.window_eq_take (k := 1) hpos (by decide)
  rw [h] at hwin
  exact (List.cons.inj hwin).1

theorem unserved_of_not_handled {q : Queue} (h : ∀ needed, q.serving ≠ .handled needed) :
    q.unserved = q.ring.contents := by
  unfold Queue.unserved
  split
  · next needed hs => exact absurd hs (h needed)
  · rfl

theorem inv_serving (h : Inv r served waiting) {serving : Serving}
    (hsame : ({ r.queue with serving := serving } : Queue).unserved = r.queue.unserved)
    (hhandling : ∀ needed, serving = .handling needed →
      ∃ w rest, waiting = w :: rest ∧ needed = w.2.length)
    (hhandled : ∀ needed, serving = .handled needed → needed ≤ r.queue.ring.contents.length) :
    Inv ⟨{ r.queue with serving := serving }, r.log⟩ served waiting :=
  { h with unserved := hsame.trans h.unserved, handling := hhandling, handled := hhandled }

theorem inv_peek (h : Inv r served waiting) : Inv (step r .peek) served waiting := by
  have hcount := MirrorRing.length_contents r.queue.ring
  show Inv ⟨r.queue.peek, r.log⟩ served waiting
  unfold Queue.peek
  split
  · next hidle =>
    split
    · exact h
    · next hne =>
      dsimp only
      split
      · exact h
      · next henough =>
        have hcontents : r.queue.ring.contents = waiting.flatMap Prod.snd ++ r.log.begun := by
          rw [← h.unserved, unserved_of_not_handled (by rw [hidle]; exact nofun)]
        cases waiting with
        | nil =>
          -- only part of a Beeb command is there, which is shorter than what it needs
          exfalso
          unfold Log.begun at hcontents
          split at hcontents
          · next bytes hsending =>
            obtain ⟨c, ps, rfl, hlt⟩ := h.sending true bytes hsending
            have hall : r.queue.ring.contents = c :: ps := hcontents
            rw [buf_rp h.wellFormed hall, ← hcount, hall, List.length_cons] at henough
            omega
          · have hempty : r.queue.ring.count = 0 := by
              rw [← hcount, hcontents]
              rfl
            exact hne (h.wellFormed.count_eq_zero_iff.mp hempty)
        | cons w rest =>
          obtain ⟨c, hc⟩ := h.complete w (List.mem_cons_self ..)
          have hhead : r.queue.ring.contents =
              c.head :: (c.params ++ (rest.flatMap Prod.snd ++ r.log.begun)) := by
            rw [hcontents, List.flatMap_cons, hc, List.append_assoc]
            rfl
          refine inv_serving h ?_ ?_ nofun
          · rw [unserved_of_not_handled (fun _ hs => by cases hs),
              unserved_of_not_handled (by rw [hidle]; exact nofun)]
          · rintro needed ⟨⟩
            refine ⟨w, rest, rfl, ?_⟩
            rw [buf_rp h.wellFormed hhead, hc, c.length_bytes]
  · exact h

theorem window_oldest (h : Inv r served waiting) {needed : Nat}
    (hserving : r.queue.serving = .handling needed) :
    ∃ w rest, waiting = w :: rest ∧ needed = w.2.length ∧ r.queue.ring.window needed = w.2 ∧
      needed ≤ r.queue.ring.contents.length ∧
      r.queue.ring.contents.drop needed = rest.flatMap Prod.snd ++ r.log.begun := by
  obtain ⟨w, rest, rfl, rfl⟩ := h.handling needed hserving
  obtain ⟨c, hc⟩ := h.complete w (List.mem_cons_self ..)
  have hcontents : r.queue.ring.contents = w.2 ++ (rest.flatMap Prod.snd ++ r.log.begun) := by
    rw [← unserved_of_not_handled (q := r.queue) (by rw [hserving]; exact nofun), h.unserved,
      List.flatMap_cons, List.append_assoc]
  have hle : w.2.length ≤ r.queue.ring.contents.length := by
    rw [hcontents, List.length_append]
    exact Nat.le_add_right _ _
  refine ⟨w, rest, rfl, rfl, ?_, hle, ?_⟩
  · have hsmall : w.2.length ≤ vduBufLen := by
      have h9 := vduLen_le c.head
      rw [hc, c.length_bytes]
      simp only [vduBufLen]
      omega
    rw [h.wellFormed.window_eq_take (by rw [← MirrorRing.length_contents]; exact hle) hsmall,
      hcontents, List.take_left]
  · rw [hcontents, List.drop_left]

theorem inv_handle (h : Inv r served waiting) :
    ∃ served waiting, Inv (step r .handle) served waiting := by
  cases hs : r.queue.serving with
  | handling needed =>
    obtain ⟨w, rest, rfl, hneeded, hwindow, hle, hdrop⟩ := window_oldest h hs
    refine ⟨served ++ [w], rest, ?_⟩
    have hstep : step r .handle = ⟨{ r.queue with serving := .handled needed,
                                                  enabled := r.queue.enabledAfter },
        { r.log with served := r.log.served ++ [(r.queue.executes, r.queue.ring.window needed)] }⟩ := by
      simp only [step, Queue.handle, hs]
    rw [hstep]
    exact { wellFormed := h.wellFormed
            unserved := hdrop
            complete := fun w hw => h.complete w (List.mem_cons_of_mem _ hw)
            servedLog := by
              show (r.log.served ++ _).map Prod.snd = (served ++ [w]).map Prod.snd
              rw [List.map_append, List.map_append, h.servedLog]
              exact congrArg (served.map Prod.snd ++ [·]) hwindow
            beeb := by
              rw [List.append_assoc]
              exact h.beeb
            pi := by
              rw [List.append_assoc]
              exact h.pi
            handling := nofun
            handled := by
              rintro n ⟨⟩
              exact hle
            sending := h.sending
            remaining := h.remaining
            dropping := h.dropping
            reserved := h.reserved }
  | idle =>
    have hstep : step r .handle = r := by simp only [step, Queue.handle, hs]
    refine ⟨served, waiting, ?_⟩
    rw [hstep]
    exact h
  | handled needed =>
    have hstep : step r .handle = r := by simp only [step, Queue.handle, hs]
    refine ⟨served, waiting, ?_⟩
    rw [hstep]
    exact h

theorem inv_advance (h : Inv r served waiting) : Inv (step r .advance) served waiting := by
  show Inv ⟨r.queue.advance, r.log⟩ served waiting
  unfold Queue.advance
  split
  · next needed hs =>
    have hle := h.handled needed hs
    rw [MirrorRing.length_contents] at hle
    have hcontents := h.wellFormed.contents_skip hle
    exact { h with
            wellFormed := h.wellFormed.skip hle
            unserved := by
              rw [← h.unserved, unserved_of_not_handled (fun _ hs => by cases hs), hcontents,
                Queue.unserved, hs]
            handling := nofun
            handled := nofun
            reserved := by
              have hres := h.reserved
              show (r.queue.ring.skip needed).contents.length + r.queue.fiqCmdRemaining ≤ _
              rw [hcontents, List.length_drop]
              omega }
  · exact h

/-! The producers. -/

theorem promised_le (h : Inv r served waiting) (hsend : r.log.begun ≠ []) :
    0 < r.log.promised := by
  unfold Log.begun at hsend
  unfold Log.promised
  split at hsend
  · next bytes hs =>
    obtain ⟨c, ps, rfl, hlt⟩ := h.sending true bytes hs
    simp only [List.headD_cons, List.length_cons]
    omega
  · exact absurd rfl hsend

theorem inv_enqueue (h : Inv r served waiting) (c : Command) (hok : Undisturbed r (.enqueue c)) :
    ∃ served waiting, Inv (step r (.enqueue c)) served waiting := by
  have hstep : step r (.enqueue c) = ⟨if r.queue.free < c.bytes.length + r.queue.fiqCmdRemaining
        then r.queue else { r.queue with ring := r.queue.ring.putAll c.bytes },
      { r.log with
        enqueued := r.log.enqueued ++
          [(decide (c.bytes.length + r.log.promised ≤ r.queue.free), c.bytes)] }⟩ := by
    rw [← space_eq_free h, ← vduEnqueue_command, space_eq_free h]
    rfl
  rw [hstep, ← h.remaining]
  by_cases hfull : r.queue.free < c.bytes.length + r.queue.fiqCmdRemaining
  · rw [if_pos hfull, decide_eq_false (Nat.not_le.mpr hfull)]
    refine ⟨served, waiting, { h with pi := ?_ }⟩
    rw [marked_append, h.pi]
    exact (List.append_nil _).symm
  · rw [if_neg hfull, decide_eq_true (Nat.not_lt.mp hfull)]
    have hnone : r.queue.fiqCmdRemaining = 0 := hok.resolve_right hfull
    have hbegun : r.log.begun = [] := by
      by_contra hne
      have hpos := promised_le h hne
      rw [← h.remaining, hnone] at hpos
      exact absurd hpos (by decide)
    have hroom : r.queue.ring.count + c.bytes.length < vduQSize := by
      have hcount := MirrorRing.length_contents r.queue.ring
      have hlt := h.wellFormed.count_lt
      simp only [Queue.free] at hfull
      omega
    obtain ⟨hwf, hcontents⟩ := h.wellFormed.putAll c.bytes hroom
    refine ⟨served, waiting ++ [(.pi, c.bytes)], ?_⟩
    exact { wellFormed := hwf
            unserved := by
              have happend : ({ r.queue with ring := r.queue.ring.putAll c.bytes } : Queue).unserved =
                  r.queue.unserved ++ c.bytes := unserved_append rfl hcontents h.handled
              refine happend.trans ?_
              show _ = (waiting ++ [(Source.pi, c.bytes)]).flatMap Prod.snd ++ r.log.begun
              rw [h.unserved, hbegun]
              simp
            complete := by
              intro w hw
              rcases List.mem_append.mp hw with hw | hw
              · exact h.complete w hw
              · rw [List.mem_singleton.mp hw]
                exact ⟨c, rfl⟩
            servedLog := h.servedLog
            beeb := by
              rw [← List.append_assoc, sentBy_append, h.beeb]
              exact List.append_nil _
            pi := by
              rw [← List.append_assoc, sentBy_append, h.pi, marked_append]
              rfl
            handling := by
              intro needed hs
              obtain ⟨w, rest, rfl, hn⟩ := h.handling needed hs
              exact ⟨w, rest ++ [(.pi, c.bytes)], rfl, hn⟩
            handled := by
              intro needed hs
              rw [hcontents, List.length_append]
              exact Nat.le_add_right_of_le (h.handled needed hs)
            sending := h.sending
            remaining := h.remaining
            dropping := h.dropping
            reserved := by
              show (r.queue.ring.putAll c.bytes).contents.length + r.queue.fiqCmdRemaining ≤ _
              have hcount := MirrorRing.length_contents r.queue.ring
              rw [hcontents, List.length_append, hnone]
              omega }

theorem inv_sent (h : Inv r served waiting) (data : UInt8) {q : Queue} {room : Bool}
    {c : UInt8} {ps : List UInt8} (hwf : q.ring.WellFormed) (hserving : q.serving = r.queue.serving)
    (hcontents : q.ring.contents = r.queue.ring.contents ++ if room then [data] else [])
    (hbytes : r.log.begun ++ (if room then [data] else []) = if room then c :: ps else [])
    (hlen : ps.length ≤ vduLen c)
    (hfiq : q.fiqCmdRemaining = if room then vduLen c - ps.length else 0)
    (hdrop : q.dropRemaining = if room then 0 else vduLen c - ps.length)
    (hres : q.ring.contents.length + q.fiqCmdRemaining ≤ vduQSize - 1) :
    ∃ served waiting, Inv ⟨q, r.log.record (room, c :: ps)⟩ served waiting := by
  have hunserved : q.unserved = waiting.flatMap Prod.snd ++ if room then c :: ps else [] := by
    rw [unserved_append hserving hcontents h.handled, h.unserved, List.append_assoc, hbytes]
  have hhandled : ∀ needed, q.serving = .handled needed → needed ≤ q.ring.contents.length := by
    intro needed hs
    rw [hcontents, List.length_append]
    exact Nat.le_add_right_of_le (h.handled needed (hserving ▸ hs))
  unfold Log.record
  by_cases hcomplete : ps.length = vduLen c
  · rw [if_pos (by simp [hcomplete])]
    have hnone : vduLen c - ps.length = 0 := by omega
    rw [hnone] at hfiq hdrop
    -- a complete command that had room is one more in the queue
    refine ⟨served, waiting ++ if room then [(.beeb, c :: ps)] else [], ?_⟩
    exact { wellFormed := hwf
            unserved := by
              rw [hunserved]
              cases room <;> simp [Log.begun]
            complete := by
              intro w hw
              rcases List.mem_append.mp hw with hw | hw
              · exact h.complete w hw
              · cases room with
                | false => cases hw
                | true =>
                  rw [List.mem_singleton.mp hw]
                  exact ⟨⟨c, ps, hcomplete⟩, rfl⟩
            servedLog := h.servedLog
            beeb := by
              rw [← List.append_assoc, sentBy_append, h.beeb, marked_append]
              cases room <;> rfl
            pi := by
              rw [← List.append_assoc, sentBy_append, h.pi]
              cases room <;> simp [sentBy]
            handling := by
              intro needed hs
              obtain ⟨w, rest, rfl, hn⟩ := h.handling needed (hserving ▸ hs)
              exact ⟨w, _, rfl, hn⟩
            handled := hhandled
            sending := nofun
            remaining := by
              rw [hfiq]
              cases room <;> rfl
            dropping := by
              rw [hdrop]
              cases room <;> rfl
            reserved := hres }
  · rw [if_neg (by simp [hcomplete])]
    refine ⟨served, waiting, ?_⟩
    exact { wellFormed := hwf
            unserved := by
              rw [hunserved]
              cases room <;> rfl
            complete := h.complete
            servedLog := h.servedLog
            beeb := h.beeb
            pi := h.pi
            handling := fun needed hs => h.handling needed (hserving ▸ hs)
            handled := hhandled
            sending := by
              rintro room' bytes ⟨⟩
              exact ⟨c, ps, rfl, by omega⟩
            remaining := by
              rw [hfiq]
              cases room <;> simp [Log.promised]
            dropping := by
              rw [hdrop]
              cases room <;> simp [Log.refused]
            reserved := hres }

theorem inv_beeb (h : Inv r served waiting) (data : UInt8) :
    ∃ served waiting, Inv (step r (.beeb data)) served waiting := by
  have hcount := MirrorRing.length_contents r.queue.ring
  have hput : r.queue.ring.count + 1 < vduQSize →
      (r.queue.ring.put data).WellFormed ∧
        (r.queue.ring.put data).contents = r.queue.ring.contents ++ [data] :=
    fun hroom => ⟨h.wellFormed.put data hroom, h.wellFormed.contents_put data hroom⟩
  have hres := h.reserved
  have hsize : vduQSize = 8192 := rfl
  have hrem := h.remaining
  have hdrop := h.dropping
  show ∃ served waiting,
    Inv ⟨r.queue.fbEmulatorVdu data, r.log.send r.queue.free data⟩ served waiting
  cases hsend : r.log.sending with
  | none =>
    have hrem0 : r.queue.fiqCmdRemaining = 0 := by rw [hrem, Log.promised, hsend]
    have hdrop0 : r.queue.dropRemaining = 0 := by rw [hdrop, Log.refused, hsend]
    have hbegun : r.log.begun = [] := by rw [Log.begun, hsend]
    unfold Queue.fbEmulatorVdu Log.send
    rw [if_neg (by rw [hdrop0]; exact fun hne => hne rfl), if_pos hrem0, space_eq_free h, hsend]
    by_cases hfull : r.queue.free < vduLen data + 1
    · simp only [if_pos hfull, decide_eq_false (Nat.not_le.mpr hfull)]
      refine inv_sent h data h.wellFormed rfl (List.append_nil _).symm ?_ (Nat.zero_le _) hrem0 rfl hres
      rw [hbegun]
      rfl
    · simp only [if_neg hfull, decide_eq_true (Nat.not_lt.mp hfull)]
      simp only [Queue.free] at hfull
      obtain ⟨hwf, hcontents⟩ := hput (by omega)
      refine inv_sent h data hwf rfl hcontents ?_ (Nat.zero_le _) rfl hdrop0 ?_
      · rw [hbegun]
        rfl
      · show (r.queue.ring.put data).contents.length + (vduLen data + 1 - 1) ≤ _
        rw [hcontents, List.length_append, List.length_singleton]
        omega
  | some now =>
    obtain ⟨room, bytes⟩ := now
    obtain ⟨c, ps, rfl, hlt⟩ := h.sending room bytes hsend
    have hlen : (ps ++ [data]).length = ps.length + 1 := by simp
    have hle : (ps ++ [data]).length ≤ vduLen c := by omega
    unfold Queue.fbEmulatorVdu Log.send
    simp only [hsend]
    cases room with
    | false =>
      have hrem0 : r.queue.fiqCmdRemaining = 0 := by rw [hrem, Log.promised, hsend]
      have hdrop' : r.queue.dropRemaining = vduLen c + 1 - (ps.length + 1) := by
        rw [hdrop, Log.refused, hsend]
        rfl
      have hbegun : r.log.begun = [] := by rw [Log.begun, hsend]
      rw [if_pos (by omega)]
      refine inv_sent h data h.wellFormed rfl (List.append_nil _).symm ?_ hle hrem0 ?_ hres
      · rw [hbegun]
        rfl
      · show r.queue.dropRemaining - 1 = vduLen c - (ps ++ [data]).length
        omega
    | true =>
      have hdrop0 : r.queue.dropRemaining = 0 := by rw [hdrop, Log.refused, hsend]
      have hrem' : r.queue.fiqCmdRemaining = vduLen c + 1 - (ps.length + 1) := by
        rw [hrem, Log.promised, hsend]
        rfl
      have hbegun : r.log.begun = c :: ps := by rw [Log.begun, hsend]
      rw [if_neg (by rw [hdrop0]; exact fun hne => hne rfl), if_neg (by omega)]
      obtain ⟨hwf, hcontents⟩ := hput (by omega)
      refine inv_sent h data hwf rfl hcontents ?_ hle ?_ hdrop0 ?_
      · rw [hbegun]
        rfl
      · show r.queue.fiqCmdRemaining - 1 = vduLen c - (ps ++ [data]).length
        omega
      · show (r.queue.ring.put data).contents.length + (r.queue.fiqCmdRemaining - 1) ≤ _
        rw [hcontents, List.length_append, List.length_singleton]
        omega

theorem inv_step (h : Inv r served waiting) (e : Event) (hok : Undisturbed r e) :
    ∃ served waiting, Inv (step r e) served waiting := by
  cases e with
  | beeb data => exact inv_beeb h data
  | enqueue c => exact inv_enqueue h c hok
  | peek => exact ⟨served, waiting, inv_peek h⟩
  | handle => exact inv_handle h
  | advance => exact ⟨served, waiting, inv_advance h⟩

end Steps

/-- While no command of the Pi is queued between the bytes of a Beeb command, whatever else
happens in whatever order, the commands executed are whole, in order, and none that there was room
for is lost. -/
theorem vdu_commands_whole (memory : Nat → UInt8) (events : List Event)
    (hok : ∀ st ∈ history step (start memory) events, Undisturbed st.pre st.op) :
    Whole (final step (start memory) events) := by
  obtain ⟨⟨served, waiting, h⟩, -⟩ := History.guarded_induction step
    (fun r => ∃ served waiting, Inv r served waiting) Undisturbed ⟨[], [], inv_start memory⟩
    (fun r e ⟨_, _, h⟩ hok => inv_step h e hok) events hok
  exact ⟨served, waiting, h.servedLog, h.unserved, h.beeb, h.pi⟩

/-- `VDU 17,1` from the Beeb and an `A` from the Pi after it, both executed. -/
def colourThenText : List Event :=
  [.beeb 17, .beeb 1, .enqueue ⟨65, [], rfl⟩, .peek, .handle, .beeb 12, .advance, .peek, .handle]

theorem vdu_commands_whole_colour :
    Whole (final step (start fun _ => 0) colourThenText) ∧
      (final step (start fun _ => 0) colourThenText).log.served = [(true, [17, 1]), (true, [65])] := by
  refine ⟨vdu_commands_whole _ _ ?_, by decide⟩
  intro st hst
  simp only [colourThenText, history, List.mem_cons, List.not_mem_nil, or_false] at hst
  rcases hst with rfl | rfl | rfl | rfl | rfl | rfl | rfl | rfl | rfl <;>
    first
      | exact trivial
      | exact Or.inl (by decide)

/-- The `A` arrives between the Beeb's two bytes and is taken for the colour. -/
def textInsideColour : List Event :=
  [.beeb 17, .enqueue ⟨65, [], rfl⟩, .beeb 1, .peek, .handle]

theorem colour_torn :
    (final step (start fun _ => 0) textInsideColour).log =
        ⟨[(true, [17, 1])], none, [(true, [65])], [(true, [17, 65])]⟩ ∧
      ¬ Whole (final step (start fun _ => 0) textInsideColour) := by
  have hlog : (final step (start fun _ => 0) textInsideColour).log =
      ⟨[(true, [17, 1])], none, [(true, [65])], [(true, [17, 65])]⟩ := by decide +kernel
  refine ⟨hlog, ?_⟩
  rintro ⟨served, waiting, hserved, -, hbeeb, hpi⟩
  rw [hlog] at hserved hbeeb hpi
  obtain ⟨w, hw, hbytes⟩ : ∃ w ∈ served, w.2 = [17, 65] := by
    have hmem : [17, 65] ∈ served.map Prod.snd := by
      rw [← hserved]
      exact List.mem_singleton_self _
    exact List.mem_map.mp hmem
  have hsent : [17, 65] ∈ sentBy w.1 (served ++ waiting) := by
    refine List.mem_map.mpr ⟨w, List.mem_filter.mpr ⟨List.mem_append_left _ hw, ?_⟩, hbytes⟩
    exact decide_eq_true rfl
  cases hsource : w.1 with
  | beeb =>
    rw [hsource, hbeeb] at hsent
    exact absurd hsent (by decide)
  | pi =>
    rw [hsource, hpi] at hsent
    exact absurd hsent (by decide)

end Pi1MHz.Vdu
