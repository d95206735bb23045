import Pi1MHz.VideoSound
import Pi1MHz.ScsiProtocol
import Mathlib.Data.Nat.Digits.Lemmas

/-!
# F-codes

The LV-DOS commands WRITE F-CODE and READ F-CODE: `fcode.c` under the handlers of `ScsiTarget`, over the player of
`Video` and `VideoSound`.  A block of 256 bytes is written, and what the player says to it lies in another until it is
read.

Left out: what the codes write to the log, which is all that most of them do.
-/

namespace Pi1MHz.Fcode

open VideoPlayer (Machine Record Flush Av AvEvent avStep)
open ScsiTarget (FileSystem Target)
open History (final)

/-! ### The buffers -/

abbrev Buffer := Vector UInt8 256

def CR : UInt8 := 0x0D

def load (b : Buffer) (i : Nat) : Option UInt8 := b[i]?

def store (b : Buffer) (i : Nat) (x : UInt8) : Option Buffer := if h : i < 256 then some (b.set i x h) else none

def storeAll (b : Buffer) (i : Nat) : List UInt8 → Option Buffer
  | [] => some b
  | x :: xs => do
    let b ← store b i x
    storeAll b (i + 1) xs

/-- `screen_plane_enable` and `screen_set_palette`. -/
inductive ScreenCall where
  | plane (plane : Nat) (on : Bool)
  | palette (entry physical flags : Nat)
  deriving DecidableEq

/-- The statics of `fcode.c`, and what its functions use: the player, the screen, the LUNs that are started with their
user codes, and what the next command of the player finds. -/
structure Disc where
  scsiFcodeBuffer : Buffer
  scsiFcodeBufferRX : Buffer
  vpMode : UInt8
  av : Av
  screen : List ScreenCall
  started : UInt8 → Bool
  userCode : UInt8 → Option (Vector UInt8 5)
  flush : Flush
  nowUs : UInt32
  outside : Bool

def Disc.active (d : Disc) : Bool := d.av.video.vp.isOpen

def Disc.picture (d : Disc) : UInt32 := d.av.video.vp.curPicture

def Disc.draw (calls : List ScreenCall) (d : Disc) : Disc := { d with screen := d.screen ++ calls }

def Disc.say (text : List UInt8) (d : Disc) : Option Disc := do
  let reply ← storeAll d.scsiFcodeBufferRX 0 text
  return { d with scsiFcodeBufferRX := reply }

def Disc.acknowledge (d : Disc) : Option Disc := d.say [0x41, CR]

/-! ### fcode.c -/

def logBlock (b : Buffer) : Nat → Nat → Option Unit
  | 0, _ => some ()
  | n + 1, byteCounter => do
    if (← load b byteCounter) = CR then some () else logBlock b n (byteCounter + 1)

def onOff (off on : Disc → Option Disc) (d : Disc) : Option Disc := do
  let parameter ← load d.scsiFcodeBuffer 1
  if parameter = 0x30 then off d else if parameter = 0x31 then on d else some d

def isDigit (c : UInt8) : Bool := 0x30 ≤ c && c ≤ 0x39

def readJump (b : Buffer) : Nat → Nat → Nat → Option Nat
  | 0, _, jump => some jump
  | n + 1, byteCounter, jump => do
    let c ← load b byteCounter
    if isDigit c = false then some jump else readJump b n (byteCounter + 1) (jump * 10 + (c - 0x30).toNat)

def readPicture (b : Buffer) : Nat → Nat → UInt32 → Option (Nat × UInt32)
  | 0, byteCounter, pictureNumber => some (byteCounter, pictureNumber)
  | n + 1, byteCounter, pictureNumber => do
    let c ← load b byteCounter
    if c = CR then some (byteCounter, pictureNumber)
    else
      readPicture b n (byteCounter + 1)
        (if isDigit c = true then pictureNumber * 10 + (c - 0x30).toUInt32 else pictureNumber)

def storeDigits : Nat → UInt32 → Buffer → Option Buffer
  | 0, _, b => some b
  | digit + 1, pic, b => do
    let b ← store b (digit + 1) (0x30 + (pic % 10).toUInt8)
    storeDigits digit (pic / 10) b

def filesystemReadLunUserCode (d : Disc) (lunNumber : UInt8) : List UInt8 :=
  match d.userCode lunNumber with
  | some string => string.toList
  | none => [0, 0, 0, 0, 0]

section

variable (M : Machine) (file : UInt32 → Record)

def Disc.operate (e : AvEvent) (d : Disc) : Disc := { d with av := avStep M file d.av e }

def jumpForwards (d : Disc) : Option Disc := do
  let jump ← readJump d.scsiFcodeBuffer 2 1 0
  if jump ≠ 0 ∧ d.active = true then some (d.operate M file (.goto (d.picture + UInt32.ofNat jump) 'Q')) else some d

def jumpBackwards (d : Disc) : Option Disc := do
  let jump ← readJump d.scsiFcodeBuffer 2 1 0
  if jump ≠ 0 ∧ d.active = true ∧ UInt32.ofNat jump < d.picture then
    some (d.operate M file (.goto (d.picture - UInt32.ofNat jump) 'Q'))
  else some d

def request (lunNumber : UInt8) (d : Disc) : Option Disc := do
  match ← load d.scsiFcodeBuffer 1 with
  | 0x46 =>
    if d.active = true then
      let reply ← store d.scsiFcodeBufferRX 0 0x46
      let reply ← storeDigits 5 d.picture reply
      let reply ← store reply 6 CR
      return { d with scsiFcodeBufferRX := reply }
    else some d
  | 0x55 =>
    let reply ← store d.scsiFcodeBufferRX 0 0x55
    let reply ← storeAll reply 1 (filesystemReadLunUserCode d lunNumber)
    let reply ← store reply 6 CR
    return { d with scsiFcodeBufferRX := reply }
  | _ => some d

def gotoPicture (d : Disc) : Option Disc := do
  let (byteCounter, pictureNumber) ← readPicture d.scsiFcodeBuffer 8 0 0
  if byteCounter = 0 ∨ 8 ≤ byteCounter then some d
  else
    let buffer ← store d.scsiFcodeBuffer byteCounter 0
    let d := { d with scsiFcodeBuffer := buffer }
    match ← load buffer (byteCounter - 1) with
    | 0x49 => (d.operate M file (.goto pictureNumber 'I')).say [0x41, 0x33, CR]
    | 0x53 => (d.operate M file (.goto pictureNumber 'S')).say [0x41, 0x32, CR]
    | 0x52 => (d.operate M file (.goto pictureNumber 'R')).say [0x41, 0x30, CR]
    | 0x4E => (d.operate M file (.goto pictureNumber 'N')).say [0x41, 0x31, CR]
    | 0x51 => (d.operate M file (.goto pictureNumber 'Q')).say [0x41, 0x30, CR]
    | _ => d.say [0x41, 0x30, CR]

def videoOverlay (d : Disc) : Option Disc := do
  match ← load d.scsiFcodeBuffer 1 with
  | 0x50 =>
    let mode ← load d.scsiFcodeBuffer 2
    let d := { d with vpMode := mode }
    match mode with
    | 0x31 => some (d.draw [.plane 0 true, .plane 1 false, .plane 2 false])
    | 0x32 => some (d.draw [.palette 1 0 3, .plane 0 false, .plane 1 true, .plane 2 true])
    | 0x33 => some (d.draw [.palette 1 0 2, .plane 0 true, .plane 1 true, .plane 2 true])
    | 0x58 => d.say [0x56, 0x50, d.vpMode, CR]
    | _ => some d
  | _ => some d

def fcodeWriteBuffer (lunNumber : UInt8) (d : Disc) : Option Disc := do
  logBlock d.scsiFcodeBuffer 256 0
  match ← load d.scsiFcodeBuffer 0 with
  | 0x24 => onOff Disc.acknowledge some d
  | 0x2A => some (d.operate M file .halt)
  | 0x2B => jumpForwards M file d
  | 0x2D => jumpBackwards M file d
  | 0x2F => some (d.operate M file .pause)
  | 0x3F => request lunNumber d
  | 0x41 =>
    onOff (fun d => some (d.operate M file (.audioEnable 0 false)))
      (fun d => (d.operate M file (.audioEnable 0 true)).acknowledge) d
  | 0x42 =>
    onOff (fun d => some (d.operate M file (.audioEnable 1 false)))
      (fun d => (d.operate M file (.audioEnable 1 true)).acknowledge) d
  | 0x45 => onOff (fun d => some (d.draw [.plane 0 false])) (fun d => some (d.draw [.plane 0 true])) d
  | 0x46 => gotoPicture M file d
  | 0x49 => onOff Disc.acknowledge some d
  | 0x4A => onOff Disc.acknowledge some d
  | 0x4C => some (d.operate M file (.stepBy 1))
  | 0x4D => some (d.operate M file (.stepBy (-1)))
  | 0x4E => some (d.operate M file (.playFwd d.flush d.nowUs))
  | 0x4F => some (d.operate M file (.playRev d.flush d.nowUs))
  | 0x56 => videoOverlay d
  | _ => some d

def fcodeClearBuffer (d : Disc) : Disc := { d with scsiFcodeBufferRX := d.scsiFcodeBufferRX.set 0 CR }

def received (block : List UInt8) (d : Disc) : Disc :=
  { d with scsiFcodeBuffer := Vector.ofFn fun i => block.getD i d.scsiFcodeBuffer[i] }

/-- The functions of `fcode.c` under the handlers of `scsi.c`, whatever the others are. -/
def fcodeFiles (base : FileSystem Disc) : FileSystem Disc :=
  { base with
    readLunStatus := Disc.started
    fcodeWriteBuffer := fun d lunNumber block =>
      (fcodeWriteBuffer M file lunNumber (received block d)).getD { d with outside := true }
    fcodeReadBuffer := fun d => d.scsiFcodeBufferRX.toList
    fcodeClearBuffer := fcodeClearBuffer }

end

def decimal (n : Nat) : List UInt8 := ((Nat.digits 10 n).reverse.map fun d => 0x30 + UInt8.ofNat d).leftpad 5 0x30

def codeText (b : Buffer) : List UInt8 := b.toList.takeWhile (· ≠ CR)

def gotoReply (op : UInt8) : List UInt8 :=
  [0x41, if op = 0x49 then 0x33 else if op = 0x53 then 0x32 else if op = 0x4E then 0x31 else 0x30]

/-- What the player is to say to a code, without the CR: the picture is the one that is displayed, and the overlay mode
is the last valid one. -/
def replyOf (userCode : List UInt8) (shown : Option UInt32) (overlay : Option UInt8) (b : Buffer) : Option (List UInt8) :=
  if b[0] = 0x24 ∧ b[1] = 0x30 then some [0x41]
  else if b[0] = 0x3F ∧ b[1] = 0x46 then shown.map fun picture => 0x46 :: decimal picture.toNat
  else if b[0] = 0x3F ∧ b[1] = 0x55 then some (0x55 :: userCode)
  else if (b[0] = 0x41 ∨ b[0] = 0x42) ∧ b[1] = 0x31 then some [0x41]
  else if b[0] = 0x46 ∧ (codeText b).length < 8 then some (gotoReply ((codeText b).getLast?.getD 0))
  else if (b[0] = 0x49 ∨ b[0] = 0x4A) ∧ b[1] = 0x30 then some [0x41]
  else if b[0] = 0x56 ∧ b[1] = 0x50 ∧ b[2] = 0x58 then overlay.map fun mode => [0x56, 0x50, mode]
  else none

def overlayAfter (b : Buffer) (overlay : Option UInt8) : Option UInt8 :=
  if b[0] = 0x56 ∧ b[1] = 0x50 ∧ b[2] ≥ 0x31 ∧ b[2] ≤ 0x35 then some b[2] else overlay

/-! ### Runs -/

inductive Command where
  | write (lun : UInt8) (block : Buffer) (flush : Flush) (nowUs : UInt32)
  | read (lun : UInt8)
  | player (e : AvEvent)

/-- The target, the last valid overlay mode, what is to be said to the last code, and the blocks that were read with
what was to be said. -/
structure Session where
  target : Target Disc
  overlay : Option UInt8 := none
  due : Option (List UInt8) := none
  reads : List (Option (List UInt8) × List UInt8) := []

def Disc.shown (d : Disc) : Option UInt32 := if d.active = true then some d.picture else none

def Session.replyTo (s : Session) (lun : UInt8) (block : Buffer) : Option (List UInt8) :=
  replyOf (filesystemReadLunUserCode s.target.fs lun) s.target.fs.shown s.overlay block

section

variable (M : Machine) (file : UInt32 → Record) (base : FileSystem Disc)

def addressed (t : Target Disc) (lun : UInt8) (acks : List (Option UInt8)) : Target Disc :=
  { t with targetLUN := lun, acks := acks, rst := [], events := [] }

def Session.step (s : Session) : Command → Session
  | .write lun block flush nowUs =>
    let t := { s.target with fs := { s.target.fs with flush := flush, nowUs := nowUs } }
    let t := (ScsiTarget.scsiWriteFCode (fcodeFiles M file base) (addressed t lun (block.toList.map some))).2
    if s.target.fs.started lun = true then
      { s with target := t, overlay := overlayAfter block s.overlay, due := s.replyTo lun block }
    else { s with target := t }
  | .read lun =>
    let t := (ScsiTarget.scsiReadFCode (fcodeFiles M file base)
      (addressed s.target lun (List.replicate 256 (some 0)))).2
    if s.target.fs.started lun = true then
      { s with target := t, due := none, reads := s.reads ++ [(s.due, t.events.filterMap ScsiTarget.Event.dataIn?)] }
    else { s with target := t }
  | .player e => { s with target := { s.target with fs := s.target.fs.operate M file e } }

/-- The target after `scsiInitialise`, over any player. -/
def start (av : Av) (started : UInt8 → Bool) (userCode : UInt8 → Option (Vector UInt8 5)) : Session where
  target := Target.initial (fcodeClearBuffer
    { scsiFcodeBuffer := Vector.replicate 256 0
      scsiFcodeBufferRX := Vector.replicate 256 0
      vpMode := 0
      av := av
      screen := []
      started := started
      userCode := userCode
      flush := ⟨[], []⟩
      nowUs := 0
      outside := false })

def Answered (due : Option (List UInt8)) (block : List UInt8) : Prop :=
  [CR] <+: block ∨ ∃ text, due = some text ∧ text ++ [CR] <+: block

def asksOverlay (b : Buffer) : Bool := b[0] == 0x56 && b[1] == 0x50 && b[2] == 0x58

def asksPicture (b : Buffer) : Bool := b[0] == 0x3F && b[1] == 0x46

/-- A code that is answered by nothing is written when no reply waits, the overlay mode is not asked for, and a picture
number only while it has five digits. -/
def Command.Fair (s : Session) : Command → Prop
  | .write lun block _ _ => s.target.fs.started lun = true →
    asksOverlay block = false ∧ (asksPicture block = true → s.target.fs.picture.toNat < 100000) ∧
      (s.replyTo lun block = none → s.target.fs.scsiFcodeBufferRX[0] = CR)
  | .read _ | .player _ => True

def Session.Fair : Session → List Command → Prop
  | _, [] => True
  | s, c :: rest => c.Fair s ∧ Session.Fair (s.step M file base c) rest

end
/-! ### The buffers are kept to -/

section

variable {b : Buffer}

theorem load_eq {i : Nat} (h : i < 256) : load b i = some b[i] := Vector.getElem?_eq_getElem h

theorem store_spec {i : Nat} (h : i < 256) (x : UInt8) :
    ∃ b', store b i x = some b' ∧ b'.toList = b.toList.take i ++ x :: b.toList.drop (i + 1) := by
  refine ⟨b.set i x h, dif_pos h, ?_⟩
  have hlength : i < b.toList.length := by
    rw [Vector.length_toList]
    exact h
  rw [Vector.toList_set, List.set_eq_take_append_cons_drop, if_pos hlength]

theorem storeAll_spec {i : Nat} {xs : List UInt8} (h : i + xs.length ≤ 256) :
    ∃ b', storeAll b i xs = some b' ∧ b'.toList = b.toList.take i ++ xs ++ b.toList.drop (i + xs.length) := by
  induction xs generalizing i b with
  | nil =>
    refine ⟨b, rfl, ?_⟩
    rw [List.append_nil, List.length_nil, Nat.add_zero, List.take_append_drop]
  | cons x xs ih =>
    rw [List.length_cons] at h
    obtain ⟨b₁, hb₁, hlist₁⟩ := store_spec (b := b) (i := i) (by omega) x
    obtain ⟨b₂, hb₂, hlist₂⟩ := ih (b := b₁) (i := i + 1) (by omega)
    refine ⟨b₂, ?_, ?_⟩
    · rw [storeAll, hb₁]
      exact hb₂
    · have hsplit : b₁.toList = (b.toList.take i ++ [x]) ++ b.toList.drop (i + 1) := by
        rw [hlist₁, List.append_assoc]
        rfl
      have hfront : (b.toList.take i ++ [x]).length = i + 1 := by
        rw [List.length_append, List.length_take, Vector.length_toList, List.length_singleton]
        omega
      have htaken : b₁.toList.take (i + 1) = b.toList.take i ++ [x] := by
        rw [hsplit]
        exact List.take_left' hfront
      have hdropped : b₁.toList.drop (i + 1 + xs.length) = b.toList.drop (i + (xs.length + 1)) := by
        rw [hsplit, ← List.drop_drop, List.drop_left' hfront, List.drop_drop]
        congr 1
        omega
      rw [hlist₂, htaken, hdropped, List.append_assoc (b.toList.take i) [x]]
      rfl

theorem logBlock_ok {n i : Nat} (h : i + n ≤ 256) : logBlock b n i = some () := by
  induction n generalizing i with
  | zero => rfl
  | succ n ih =>
    rw [logBlock, load_eq (by omega)]
    show (if b[i] = CR then some () else logBlock b n (i + 1)) = some ()
    split
    · rfl
    · exact ih (by omega)

theorem readJump_ok {n i jump : Nat} (h : i + n ≤ 256) : ∃ jump', readJump b n i jump = some jump' := by
  induction n generalizing i jump with
  | zero => exact ⟨jump, rfl⟩
  | succ n ih =>
    rw [readJump, load_eq (by omega)]
    show ∃ jump', (if isDigit b[i] = false then some jump else readJump b n (i + 1) _) = some jump'
    split
    · exact ⟨jump, rfl⟩
    · exact ih (by omega)

theorem readPicture_spec {n i : Nat} {pictureNumber : UInt32} (h : i + n ≤ 256) :
    ∃ pictureNumber', readPicture b n i pictureNumber =
      some (i + min n ((b.toList.drop i).takeWhile (· ≠ CR)).length, pictureNumber') := by
  induction n generalizing i pictureNumber with
  | zero =>
    refine ⟨pictureNumber, ?_⟩
    rw [Nat.zero_min]
    rfl
  | succ n ih =>
    have hi : i < b.toList.length := by
      rw [Vector.length_toList]
      omega
    have hget : b.toList[i] = b[i] := Vector.getElem_toList _
    rw [readPicture, load_eq (by omega), List.drop_eq_getElem_cons hi, hget]
    by_cases hc : b[i] = CR
    · refine ⟨pictureNumber, ?_⟩
      rw [List.takeWhile_cons_of_neg (by simp [hc])]
      exact if_pos hc
    · obtain ⟨pictureNumber', hread⟩ := @ih (i + 1)
        (if isDigit b[i] = true then pictureNumber * 10 + (b[i] - 0x30).toUInt32 else pictureNumber) (by omega)
      refine ⟨pictureNumber', ?_⟩
      rw [List.takeWhile_cons_of_pos (by simp [hc]), List.length_cons]
      refine (if_neg hc).trans ?_
      rw [hread]
      congr 2
      omega

end

/-! ### Decimal numbers -/

def lastDigits : Nat → Nat → List UInt8
  | 0, _ => []
  | k + 1, n => lastDigits k (n / 10) ++ [0x30 + UInt8.ofNat (n % 10)]

theorem lastDigits_length (k n : Nat) : (lastDigits k n).length = k := by
  induction k generalizing n with
  | zero => rfl
  | succ k ih => rw [lastDigits, List.length_append, ih, List.length_singleton]

theorem leftpad_append_singleton (k : Nat) (a x : UInt8) (l : List UInt8) :
    (l ++ [x]).leftpad (k + 1) a = l.leftpad k a ++ [x] := by
  rw [List.leftpad, List.leftpad, List.length_append, List.length_singleton, Nat.add_sub_add_right, List.append_assoc]

theorem lastDigits_eq {k n : Nat} (h : n < 10 ^ k) :
    ((Nat.digits 10 n).reverse.map fun d => 0x30 + UInt8.ofNat d).leftpad k 0x30 = lastDigits k n := by
  induction k generalizing n with
  | zero =>
    obtain rfl := Nat.lt_one_iff.mp h
    rfl
  | succ k ih =>
    have hnext : n / 10 < 10 ^ k := by
      rw [Nat.div_lt_iff_lt_mul (by decide), ← Nat.pow_succ]
      exact h
    rw [lastDigits, ← ih hnext]
    rcases Nat.eq_zero_or_pos n with rfl | hpos
    · rw [← leftpad_append_singleton]
      simp [List.leftpad, List.replicate_succ']
    · rw [Nat.digits_def' (by decide) hpos, List.reverse_cons, List.map_append]
      exact leftpad_append_singleton _ _ _ _

theorem decimal_eq {n : Nat} (h : n < 100000) : decimal n = lastDigits 5 n := lastDigits_eq h

theorem storeDigits_spec {b : Buffer} {k : Nat} {pic : UInt32} (h : k < 256) :
    ∃ b', storeDigits k pic b = some b' ∧
      b'.toList = b.toList.take 1 ++ lastDigits k pic.toNat ++ b.toList.drop (k + 1) := by
  induction k generalizing pic b with
  | zero =>
    refine ⟨b, rfl, ?_⟩
    rw [lastDigits, List.append_nil, List.take_append_drop]
  | succ k ih =>
    obtain ⟨b₁, hb₁, hlist₁⟩ := store_spec (b := b) (i := k + 1) h (0x30 + (pic % 10).toUInt8)
    obtain ⟨b₂, hb₂, hlist₂⟩ := @ih b₁ (pic / 10) (by omega)
    refine ⟨b₂, ?_, ?_⟩
    · rw [storeDigits, hb₁]
      exact hb₂
    · have htake : (b.toList.take (k + 1)).length = k + 1 := by
        rw [List.length_take, Vector.length_toList]
        omega
      have hdigit : (pic % 10).toUInt8 = UInt8.ofNat (pic.toNat % 10) := by
        apply UInt8.toNat_inj.mp
        rw [UInt32.toNat_toUInt8, UInt32.toNat_mod, UInt8.toNat_ofNat']
        rfl
      have hdiv : (pic / 10).toNat = pic.toNat / 10 := by
        rw [UInt32.toNat_div]
        rfl
      rw [hlist₂, hlist₁, hdiv, hdigit, lastDigits, List.take_append, List.drop_append, htake, List.take_take,
        List.drop_of_length_le (Nat.le_of_eq htake)]
      have hone : min 1 (k + 1) = 1 := by omega
      have hzero : 1 - (k + 1) = 0 := by omega
      rw [hone, hzero, Nat.sub_self, List.take_zero, List.drop_zero, List.append_nil, List.nil_append,
        List.append_assoc, List.append_assoc, List.append_assoc, List.singleton_append]
/-! ### What a code does to the reply -/

def Holds (before after : Buffer) : Option (List UInt8) → Prop
  | some text => text ++ [CR] <+: after.toList
  | none => after = before

structure Outcome (text : Option (List UInt8)) (d d' : Disc) : Prop where
  inside : d'.outside = d.outside
  holds : Holds d.scsiFcodeBufferRX d'.scsiFcodeBufferRX text

section

variable {d : Disc}

theorem Outcome.silent {d' : Disc} (hinside : d'.outside = d.outside)
    (hreply : d'.scsiFcodeBufferRX = d.scsiFcodeBufferRX) : Outcome none d d' := ⟨hinside, hreply⟩

theorem Outcome.refl (d : Disc) : Outcome none d d := Outcome.silent rfl rfl

theorem say_spec (d : Disc) {text : List UInt8} (h : text.length < 256) :
    ∃ d', d.say (text ++ [CR]) = some d' ∧ Outcome (some text) d d' := by
  have hlength : 0 + (text ++ [CR]).length ≤ 256 := by
    rw [List.length_append, List.length_singleton]
    omega
  obtain ⟨reply, hreply, hlist⟩ := storeAll_spec (b := d.scsiFcodeBufferRX) hlength
  refine ⟨{ d with scsiFcodeBufferRX := reply }, ?_, rfl, ?_⟩
  · rw [Disc.say, hreply]
    rfl
  · show text ++ [CR] <+: reply.toList
    rw [hlist, List.take_zero, List.nil_append]
    exact List.prefix_append _ _

theorem say_after {e : Disc} (text : List UInt8) (h : text.length < 256) (hinside : e.outside = d.outside) :
    ∃ d', e.say (text ++ [CR]) = some d' ∧ Outcome (some text) d d' := by
  obtain ⟨d', hd', hkept, hholds⟩ := say_spec e h
  exact ⟨d', hd', hkept.trans hinside, hholds⟩

theorem acknowledge_spec (d : Disc) : ∃ d', d.acknowledge = some d' ∧ Outcome (some [0x41]) d d' :=
  say_spec d (show [0x41].length < 256 by decide)

theorem onOff_spec {off on : Disc → Option Disc} {P : Disc → Prop}
    (hoff : d.scsiFcodeBuffer[1] = 0x30 → ∃ d', off d = some d' ∧ P d')
    (hon : d.scsiFcodeBuffer[1] = 0x31 → ∃ d', on d = some d' ∧ P d')
    (hother : d.scsiFcodeBuffer[1] ≠ 0x30 → d.scsiFcodeBuffer[1] ≠ 0x31 → P d) :
    ∃ d', onOff off on d = some d' ∧ P d' := by
  rw [onOff, load_eq (by decide)]
  show ∃ d', (if d.scsiFcodeBuffer[1] = 0x30 then off d else if d.scsiFcodeBuffer[1] = 0x31 then on d else some d) =
    some d' ∧ P d'
  split
  · next h => exact hoff h
  · next hoff' =>
    split
    · next h => exact hon h
    · next hon' => exact ⟨d, rfl, hother hoff' hon'⟩

theorem answeredOff_spec (d : Disc) : ∃ d', onOff Disc.acknowledge some d = some d' ∧
    Outcome (if d.scsiFcodeBuffer[1] = 0x30 then some [0x41] else none) d d' := by
  apply onOff_spec
  · intro h
    rw [if_pos h]
    exact acknowledge_spec d
  · intro h
    rw [if_neg (by rw [h]; decide)]
    exact ⟨d, rfl, Outcome.refl d⟩
  · intro h _
    rw [if_neg h]
    exact Outcome.refl d

section

variable (M : Machine) (file : UInt32 → Record)

theorem audio_spec (channel : Int) (d : Disc) : ∃ d',
    onOff (fun d => some (d.operate M file (.audioEnable channel false)))
      (fun d => (d.operate M file (.audioEnable channel true)).acknowledge) d = some d' ∧
    Outcome (if d.scsiFcodeBuffer[1] = 0x31 then some [0x41] else none) d d' := by
  apply onOff_spec
  · intro h
    rw [if_neg (by rw [h]; decide)]
    exact ⟨_, rfl, Outcome.silent rfl rfl⟩
  · intro h
    rw [if_pos h]
    exact say_after [0x41] (by decide) rfl
  · intro _ h
    rw [if_neg h]
    exact Outcome.refl d

theorem jumpForwards_spec (d : Disc) : ∃ d', jumpForwards M file d = some d' ∧ Outcome none d d' := by
  obtain ⟨jump, hjump⟩ := @readJump_ok d.scsiFcodeBuffer 2 1 0 (by decide)
  simp only [jumpForwards, hjump, Option.bind_eq_bind, Option.bind_some]
  split
  · exact ⟨_, rfl, Outcome.silent rfl rfl⟩
  · exact ⟨_, rfl, Outcome.refl d⟩

theorem jumpBackwards_spec (d : Disc) : ∃ d', jumpBackwards M file d = some d' ∧ Outcome none d d' := by
  obtain ⟨jump, hjump⟩ := @readJump_ok d.scsiFcodeBuffer 2 1 0 (by decide)
  simp only [jumpBackwards, hjump, Option.bind_eq_bind, Option.bind_some]
  split
  · exact ⟨_, rfl, Outcome.silent rfl rfl⟩
  · exact ⟨_, rfl, Outcome.refl d⟩

theorem codeText_length {b : Buffer} (h : b[0] ≠ CR) : ∃ n, (codeText b).length = n + 1 := by
  have hlength : 0 < b.toList.length := by
    rw [Vector.length_toList]
    decide
  have hsplit : b.toList = b[0] :: b.toList.drop 1 := by
    have hcons := List.drop_eq_getElem_cons hlength
    rw [List.drop_zero, Vector.getElem_toList] at hcons
    exact hcons
  refine ⟨((b.toList.drop 1).takeWhile (· ≠ CR)).length, ?_⟩
  rw [codeText, hsplit, List.takeWhile_cons_of_pos (by simp [h])]
  rfl

theorem codeText_last {b : Buffer} {n : Nat} (h : (codeText b).length = n + 1) (hn : n < 256) :
    (codeText b).getLast?.getD 0 = b[n] := by
  have hlt : n < (codeText b).length := by omega
  have hprefix : codeText b <+: b.toList := List.takeWhile_prefix _
  rw [List.getLast?_eq_getElem?, h, Nat.add_sub_cancel, List.getElem?_eq_getElem hlt, Option.getD_some,
    hprefix.getElem hlt, Vector.getElem_toList]

theorem gotoPicture_spec (d : Disc) (hcode : d.scsiFcodeBuffer[0] = 0x46) : ∃ d', gotoPicture M file d = some d' ∧
    Outcome (if (codeText d.scsiFcodeBuffer).length < 8 then
      some (gotoReply ((codeText d.scsiFcodeBuffer).getLast?.getD 0)) else none) d d' := by
  obtain ⟨pictureNumber, hread⟩ := @readPicture_spec d.scsiFcodeBuffer 8 0 0 (by decide)
  obtain ⟨n, hn⟩ := codeText_length (show d.scsiFcodeBuffer[0] ≠ CR by rw [hcode]; decide)
  have hcount : ((d.scsiFcodeBuffer.toList.drop 0).takeWhile (· ≠ CR)).length = n + 1 := hn
  simp only [gotoPicture, hread, hcount, Nat.zero_add, Option.bind_eq_bind, Option.bind_some]
  by_cases hshort : n + 1 < 8
  · have hmin : min 8 (n + 1) = n + 1 := by omega
    have hstore : store d.scsiFcodeBuffer (n + 1) 0 = some (d.scsiFcodeBuffer.set (n + 1) 0) := dif_pos (by omega)
    have hload : load (d.scsiFcodeBuffer.set (n + 1) 0) (n + 1 - 1) = some d.scsiFcodeBuffer[n] := by
      rw [Nat.add_sub_cancel, load_eq (by omega)]
      exact congrArg some (Vector.getElem_set_ne _ _ (by omega))
    rw [hmin, if_neg (by omega), hstore, hn, if_pos hshort, codeText_last hn (by omega)]
    simp only [Option.bind_some, hload]
    split
    · next h =>
      rw [h]
      exact say_after [0x41, 0x33] (by decide) rfl
    · next h =>
      rw [h]
      exact say_after [0x41, 0x32] (by decide) rfl
    · next h =>
      rw [h]
      exact say_after [0x41, 0x30] (by decide) rfl
    · next h =>
      rw [h]
      exact say_after [0x41, 0x31] (by decide) rfl
    · next h =>
      rw [h]
      exact say_after [0x41, 0x30] (by decide) rfl
    · next h₁ h₂ h₃ h₄ h₅ =>
      rw [gotoReply, if_neg h₁, if_neg h₂, if_neg h₄]
      exact say_after [0x41, 0x30] (by decide) rfl
  · rw [if_pos (by omega), hn, if_neg hshort]
    exact ⟨d, rfl, Outcome.refl d⟩

end

end
/-! ### Every code -/

section

variable {d : Disc}

theorem userCode_length (d : Disc) (lunNumber : UInt8) : (filesystemReadLunUserCode d lunNumber).length = 5 := by
  rw [filesystemReadLunUserCode]
  split
  · exact Vector.length_toList
  · rfl

theorem framed {b b₁ b₂ b₃ : Buffer} {letter : UInt8} {text : List UInt8} (htext : text.length = 5)
    (h₁ : b₁.toList = b.toList.take 0 ++ letter :: b.toList.drop 1)
    (h₂ : b₂.toList = b₁.toList.take 1 ++ text ++ b₁.toList.drop 6)
    (h₃ : b₃.toList = b₂.toList.take 6 ++ CR :: b₂.toList.drop 7) : letter :: text ++ [CR] <+: b₃.toList := by
  have hfront : b₁.toList.take 1 = [letter] := by
    rw [h₁]
    rfl
  have hsix : b₂.toList.take 6 = letter :: text := by
    rw [h₂, hfront]
    exact List.take_left' (by rw [List.length_append, htext]; rfl)
  have hsplit : b₃.toList = letter :: text ++ [CR] ++ b₂.toList.drop 7 := by
    rw [h₃, hsix, List.append_assoc]
    rfl
  rw [hsplit]
  exact List.prefix_append _ _

def requestReply (userCode : List UInt8) (shown : Option UInt32) (b : Buffer) : Option (List UInt8) :=
  if b[1] = 0x46 then shown.map fun picture => 0x46 :: decimal picture.toNat
  else if b[1] = 0x55 then some (0x55 :: userCode)
  else none

theorem request_spec (lunNumber : UInt8) (d : Disc) : ∃ d', request lunNumber d = some d' ∧ d'.outside = d.outside ∧
    ((d.scsiFcodeBuffer[1] = 0x46 → d.picture.toNat < 100000) → Holds d.scsiFcodeBufferRX d'.scsiFcodeBufferRX
      (requestReply (filesystemReadLunUserCode d lunNumber) d.shown d.scsiFcodeBuffer)) := by
  rw [request, load_eq (by decide)]
  simp only [Option.bind_eq_bind, Option.bind_some]
  split
  · next h =>
    by_cases hactive : d.active = true
    · obtain ⟨b₁, hb₁, hlist₁⟩ := store_spec (b := d.scsiFcodeBufferRX) (show 0 < 256 by decide) 0x46
      obtain ⟨b₂, hb₂, hlist₂⟩ := @storeDigits_spec b₁ 5 d.picture (by decide)
      obtain ⟨b₃, hb₃, hlist₃⟩ := store_spec (b := b₂) (show 6 < 256 by decide) CR
      simp only [if_pos hactive, hb₁, hb₂, hb₃, Option.bind_some]
      refine ⟨_, rfl, rfl, ?_⟩
      intro hpicture
      rw [requestReply, if_pos h, Disc.shown, if_pos hactive, Option.map_some, decimal_eq (hpicture h)]
      exact framed (lastDigits_length 5 _) hlist₁ hlist₂ hlist₃
    · rw [if_neg hactive]
      refine ⟨d, rfl, rfl, ?_⟩
      intro _
      rw [requestReply, if_pos h, Disc.shown, if_neg hactive]
      rfl
  · next h =>
    have hlength := userCode_length d lunNumber
    obtain ⟨b₁, hb₁, hlist₁⟩ := store_spec (b := d.scsiFcodeBufferRX) (show 0 < 256 by decide) 0x55
    obtain ⟨b₂, hb₂, hlist₂⟩ := @storeAll_spec b₁ 1 (filesystemReadLunUserCode d lunNumber)
      (by rw [hlength]; decide)
    obtain ⟨b₃, hb₃, hlist₃⟩ := store_spec (b := b₂) (show 6 < 256 by decide) CR
    simp only [hb₁, hb₂, hb₃, Option.bind_some]
    refine ⟨_, rfl, rfl, ?_⟩
    intro _
    rw [hlength] at hlist₂
    rw [requestReply, if_neg (by rw [h]; decide), if_pos h]
    exact framed hlength hlist₁ hlist₂ hlist₃
  · next h₁ h₂ =>
    refine ⟨d, rfl, rfl, ?_⟩
    intro _
    rw [requestReply, if_neg h₁, if_neg h₂]
    rfl

theorem videoOverlay_spec (d : Disc) : ∃ d', videoOverlay d = some d' ∧ d'.outside = d.outside ∧
    (¬(d.scsiFcodeBuffer[1] = 0x50 ∧ d.scsiFcodeBuffer[2] = 0x58) → Outcome none d d') := by
  rw [videoOverlay, load_eq (by decide), load_eq (by decide)]
  simp only [Option.bind_eq_bind, Option.bind_some]
  split
  · next hletter =>
    split
    · exact ⟨_, rfl, rfl, fun _ => Outcome.silent rfl rfl⟩
    · exact ⟨_, rfl, rfl, fun _ => Outcome.silent rfl rfl⟩
    · exact ⟨_, rfl, rfl, fun _ => Outcome.silent rfl rfl⟩
    · next hmode =>
      obtain ⟨d', hd', hsaid⟩ := say_after (d := d) (e := { d with vpMode := d.scsiFcodeBuffer[2] })
        [0x56, 0x50, d.scsiFcodeBuffer[2]] (show 3 < 256 by decide) rfl
      exact ⟨d', hd', hsaid.inside, fun hother => absurd ⟨hletter, hmode⟩ hother⟩
    · exact ⟨_, rfl, rfl, fun _ => Outcome.silent rfl rfl⟩
  · exact ⟨d, rfl, rfl, fun _ => Outcome.refl d⟩

end
section

variable (M : Machine) (file : UInt32 → Record)

/-- No code makes `fcodeWriteBuffer` leave a buffer.  A code that asks for no overlay mode, nor for a picture number of
six digits, leaves the reply that is to be said, or the one from before. -/
theorem fcodeWriteBuffer_spec (lunNumber : UInt8) (overlay : Option UInt8) (d : Disc) :
    ∃ d', fcodeWriteBuffer M file lunNumber d = some d' ∧ d'.outside = d.outside ∧
      (asksOverlay d.scsiFcodeBuffer = false →
        (asksPicture d.scsiFcodeBuffer = true → d.picture.toNat < 100000) →
        Holds d.scsiFcodeBufferRX d'.scsiFcodeBufferRX
          (replyOf (filesystemReadLunUserCode d lunNumber) d.shown overlay d.scsiFcodeBuffer)) := by
  have houtcome : ∀ {text : Option (List UInt8)} {x : Option Disc}, (∃ d', x = some d' ∧ Outcome text d d') →
      replyOf (filesystemReadLunUserCode d lunNumber) d.shown overlay d.scsiFcodeBuffer = text →
      ∃ d', x = some d' ∧ d'.outside = d.outside ∧ (asksOverlay d.scsiFcodeBuffer = false →
        (asksPicture d.scsiFcodeBuffer = true → d.picture.toNat < 100000) →
        Holds d.scsiFcodeBufferRX d'.scsiFcodeBufferRX
          (replyOf (filesystemReadLunUserCode d lunNumber) d.shown overlay d.scsiFcodeBuffer)) := by
    rintro text x ⟨d', hd', hinside, hholds⟩ hreply
    refine ⟨d', hd', hinside, fun _ _ => ?_⟩
    rw [hreply]
    exact hholds
  rw [fcodeWriteBuffer, logBlock_ok (by decide), load_eq (by decide)]
  simp only [Option.bind_eq_bind, Option.bind_some]
  split
  · next h => exact houtcome (answeredOff_spec d) (by simp [replyOf, h])
  · next h => exact houtcome ⟨_, rfl, Outcome.silent rfl rfl⟩ (by simp [replyOf, h])
  · next h => exact houtcome (jumpForwards_spec M file d) (by simp [replyOf, h])
  · next h => exact houtcome (jumpBackwards_spec M file d) (by simp [replyOf, h])
  · next h => exact houtcome ⟨_, rfl, Outcome.silent rfl rfl⟩ (by simp [replyOf, h])
  · next h =>
    obtain ⟨d', hd', hinside, hholds⟩ := request_spec lunNumber d
    refine ⟨d', hd', hinside, fun _ hpicture => ?_⟩
    have hreply : replyOf (filesystemReadLunUserCode d lunNumber) d.shown overlay d.scsiFcodeBuffer =
        requestReply (filesystemReadLunUserCode d lunNumber) d.shown d.scsiFcodeBuffer := by
      simp [replyOf, requestReply, h]
    rw [hreply]
    exact hholds fun hletter => hpicture (by simp [asksPicture, h, hletter])
  · next h => exact houtcome (audio_spec M file 0 d) (by simp [replyOf, h])
  · next h => exact houtcome (audio_spec M file 1 d) (by simp [replyOf, h])
  · next h =>
    refine @houtcome none _ ?_ (by simp [replyOf, h])
    exact onOff_spec (fun _ => ⟨_, rfl, Outcome.silent rfl rfl⟩) (fun _ => ⟨_, rfl, Outcome.silent rfl rfl⟩)
      fun _ _ => Outcome.refl d
  · next h => exact houtcome (gotoPicture_spec M file d h) (by simp [replyOf, h])
  · next h => exact houtcome (answeredOff_spec d) (by simp [replyOf, h])
  · next h => exact houtcome (answeredOff_spec d) (by simp [replyOf, h])
  · next h => exact houtcome ⟨_, rfl, Outcome.silent rfl rfl⟩ (by simp [replyOf, h])
  · next h => exact houtcome ⟨_, rfl, Outcome.silent rfl rfl⟩ (by simp [replyOf, h])
  · next h => exact houtcome ⟨_, rfl, Outcome.silent rfl rfl⟩ (by simp [replyOf, h])
  · next h => exact houtcome ⟨_, rfl, Outcome.silent rfl rfl⟩ (by simp [replyOf, h])
  · next h =>
    obtain ⟨d', hd', hinside, hsilent⟩ := videoOverlay_spec d
    refine ⟨d', hd', hinside, fun hoverlay _ => ?_⟩
    have hother : ¬(d.scsiFcodeBuffer[1] = 0x50 ∧ d.scsiFcodeBuffer[2] = 0x58) := by
      intro hasked
      simp [asksOverlay, h, hasked.1, hasked.2] at hoverlay
    have hreply : replyOf (filesystemReadLunUserCode d lunNumber) d.shown overlay d.scsiFcodeBuffer = none := by
      simp [replyOf, h, hother]
    rw [hreply]
    exact (hsilent hother).holds
  · next h₁ h₂ h₃ h₄ h₅ h₆ h₇ h₈ h₉ h₁₀ h₁₁ h₁₂ h₁₃ h₁₄ h₁₅ h₁₆ h₁₇ =>
    have hreply : replyOf (filesystemReadLunUserCode d lunNumber) d.shown overlay d.scsiFcodeBuffer = none := by
      rw [replyOf, if_neg fun h => h₁ h.1, if_neg fun h => h₆ h.1, if_neg fun h => h₆ h.1,
        if_neg fun h => h.1.elim h₇ h₈, if_neg fun h => h₁₀ h.1, if_neg fun h => h.1.elim h₁₁ h₁₂,
        if_neg fun h => h₁₇ h.1]
    exact houtcome ⟨d, rfl, Outcome.refl d⟩ hreply

end

/-! ### The commands -/

section

open ScsiTarget
open StateRules (bind_apply pure_apply get_apply modify_apply)

variable {σ : Type} (fs : FileSystem σ)

theorem performWriteDMA_all (block : List UInt8) (t : Target σ) (hacks : t.acks = block.map some) :
    ∃ bus, hostadapterPerformWriteDMA block.length t = (block, { t with acks := [], databus := bus }) := by
  induction block generalizing t with
  | nil =>
    refine ⟨t.databus, ?_⟩
    have ht : t = { t with acks := [], databus := t.databus } := by
      rw [← show t.acks = [] from hacks]
    exact congrArg (Prod.mk []) ht
  | cons b block ih =>
    have hwait : waitAck t = (some b, { t with acks := block.map some, databus := b }) := by
      rw [waitAck, hacks]
      rfl
    obtain ⟨bus, hrest⟩ := ih { t with acks := block.map some, databus := b } rfl
    refine ⟨bus, ?_⟩
    rw [List.length_cons, hostadapterPerformWriteDMA, bind_apply, hwait]
    show (hostadapterPerformWriteDMA block.length >>= fun rest => pure (b :: rest)) _ = _
    rw [bind_apply, hrest]
    rfl

theorem performReadDMA_all (block : List UInt8) (t : Target σ)
    (hacks : t.acks = List.replicate block.length (some 0)) :
    ∃ bus, hostadapterPerformReadDMA block t =
      ((), { t with acks := [], databus := bus, events := t.events ++ block.map (Event.wrote t.phase) }) := by
  induction block generalizing t with
  | nil =>
    refine ⟨t.databus, ?_⟩
    have ht : t = { t with acks := [], databus := t.databus, events := t.events ++ [] } := by
      rw [← show t.acks = [] from hacks, List.append_nil]
    exact congrArg (Prod.mk ()) ht
  | cons b block ih =>
    have hput : putByte b t = ((), { t with events := t.events ++ [.wrote t.phase b] }) := rfl
    have hwait : waitAck { t with events := t.events ++ [.wrote t.phase b] } =
        (some 0, { t with
          acks := List.replicate block.length (some 0), databus := 0, events := t.events ++ [.wrote t.phase b] }) := by
      simp only [waitAck, hacks, List.length_cons, List.replicate_succ]
      rfl
    obtain ⟨bus, hrest⟩ := ih { t with
      acks := List.replicate block.length (some 0), databus := 0, events := t.events ++ [.wrote t.phase b] } rfl
    refine ⟨bus, ?_⟩
    rw [hostadapterPerformReadDMA, bind_apply, hput, bind_apply, hwait]
    refine hrest.trans ?_
    rw [List.append_assoc]
    rfl

theorem scsiWriteFCode_fs {block : List UInt8} (hlength : block.length = 256) (t : Target σ)
    (hacks : t.acks = block.map some) (hrst : t.rst = []) :
    (scsiWriteFCode fs t).2.fs =
      if fs.readLunStatus t.fs t.targetLUN = true then fs.fcodeWriteBuffer t.fs t.targetLUN block else t.fs := by
  have hask : askLun fs.readLunStatus t =
      (fs.readLunStatus t.fs t.targetLUN, { t with events := t.events ++ [.lun t.targetLUN] }) := rfl
  rw [scsiWriteFCode, bind_apply, hask]
  cases fs.readLunStatus t.fs t.targetLUN with
  | false => rfl
  | true =>
    obtain ⟨bus, hdma⟩ := performWriteDMA_all block
      { t with events := t.events ++ [.lun t.targetLUN], phase := .dataOut } hacks
    rw [hlength] at hdma
    show (((scsiInformationTransferPhase .dataOut : Action σ Unit) >>= fun _ => _) _).2.fs = _
    rw [bind_apply]
    show ((hostadapterPerformWriteDMA 256 >>= _)
      { t with events := t.events ++ [.lun t.targetLUN], phase := .dataOut }).2.fs = _
    rw [bind_apply, hdma, unlessReset, bind_apply]
    simp only [hostadapterReadResetFlag, hrst]
    rfl

theorem scsiReadFCode_spec (t : Target σ) (hlength : (fs.fcodeReadBuffer t.fs).length = 256)
    (hacks : t.acks = List.replicate 256 (some 0)) (hrst : t.rst = []) (hevents : t.events = [])
    (hstarted : fs.readLunStatus t.fs t.targetLUN = true) :
    (scsiReadFCode fs t).2.fs = fs.fcodeClearBuffer t.fs ∧
      (scsiReadFCode fs t).2.events.filterMap Event.dataIn? = fs.fcodeReadBuffer t.fs := by
  have hask : askLun fs.readLunStatus t = (true, { t with events := t.events ++ [.lun t.targetLUN] }) := by
    rw [← hstarted]
    rfl
  obtain ⟨bus, hdma⟩ := performReadDMA_all (fs.fcodeReadBuffer t.fs)
    { t with events := t.events ++ [.lun t.targetLUN], phase := .dataIn } (by rw [hlength]; exact hacks)
  have hrun : (scsiReadFCode fs t).2 = { t with
      fs := fs.fcodeClearBuffer t.fs
      acks := []
      databus := bus
      phase := .dataIn
      events := t.events ++ [.lun t.targetLUN] ++ (fs.fcodeReadBuffer t.fs).map (Event.wrote .dataIn)
      status := SCSI_STATUS_OK } := by
    rw [scsiReadFCode, bind_apply, hask, if_pos rfl, bind_apply, bind_apply]
    show (((hostadapterPerformReadDMA (fs.fcodeReadBuffer t.fs)) >>= _)
      { t with events := t.events ++ [.lun t.targetLUN], phase := .dataIn }).2 = _
    rw [bind_apply, hdma, bind_apply, unlessReset, bind_apply]
    simp only [hostadapterReadResetFlag, changeFs, modify_apply, hrst]
    rfl
  rw [hrun]
  refine ⟨rfl, ?_⟩
  have hbytes : ∀ l : List UInt8, (l.map (Event.wrote .dataIn)).filterMap Event.dataIn? = l := by
    intro l
    induction l with
    | nil => rfl
    | cons b l ih => exact congrArg (b :: ·) ih
  rw [hevents, List.filterMap_append, hbytes]
  rfl

end
/-! ### Runs keep what is to be said -/

section

variable {M : Machine} {file : UInt32 → Record} {base : FileSystem Disc} {s : Session}

theorem received_spec (block : Buffer) (d : Disc) : received block.toList d = { d with scsiFcodeBuffer := block } := by
  have hall : (Vector.ofFn fun i : Fin 256 => block.toList.getD i d.scsiFcodeBuffer[i]) = block := by
    apply Vector.ext
    intro i hi
    simp
  rw [received, hall]

theorem write_spec (lun : UInt8) (block : Buffer) (flush : Flush) (nowUs : UInt32)
    (hstarted : s.target.fs.started lun = true) :
    (s.step M file base (.write lun block flush nowUs)).target.fs.outside = s.target.fs.outside ∧
      (asksOverlay block = false → (asksPicture block = true → s.target.fs.picture.toNat < 100000) →
        Holds s.target.fs.scsiFcodeBufferRX
          (s.step M file base (.write lun block flush nowUs)).target.fs.scsiFcodeBufferRX (s.replyTo lun block)) := by
  obtain ⟨d', hd', hinside, hholds⟩ := fcodeWriteBuffer_spec M file lun s.overlay
    { s.target.fs with flush := flush, nowUs := nowUs, scsiFcodeBuffer := block }
  have hfs : (s.step M file base (.write lun block flush nowUs)).target.fs = d' := by
    rw [Session.step, if_pos hstarted]
    show (ScsiTarget.scsiWriteFCode (fcodeFiles M file base) (addressed _ lun _)).2.fs = d'
    rw [scsiWriteFCode_fs _ (show block.toList.length = 256 from Vector.length_toList) _ rfl rfl]
    have hfiles : ∀ e, (fcodeFiles M file base).fcodeWriteBuffer e lun block.toList =
        (fcodeWriteBuffer M file lun { e with scsiFcodeBuffer := block }).getD { e with outside := true } := by
      intro e
      simp only [fcodeFiles, received_spec]
    exact (if_pos hstarted).trans ((hfiles _).trans (congrArg (Option.getD · _) hd'))
  rw [hfs]
  exact ⟨hinside, hholds⟩

theorem write_refused (lun : UInt8) (block : Buffer) (flush : Flush) (nowUs : UInt32)
    (hstarted : ¬s.target.fs.started lun = true) :
    (s.step M file base (.write lun block flush nowUs)).target.fs =
      { s.target.fs with flush := flush, nowUs := nowUs } := by
  rw [Session.step, if_neg hstarted]
  show (ScsiTarget.scsiWriteFCode (fcodeFiles M file base) (addressed _ lun _)).2.fs = _
  rw [scsiWriteFCode_fs _ (show block.toList.length = 256 from Vector.length_toList) _ rfl rfl]
  exact if_neg hstarted

theorem read_spec (lun : UInt8) (hstarted : s.target.fs.started lun = true) :
    (s.step M file base (.read lun)).target.fs = fcodeClearBuffer s.target.fs ∧
      (s.step M file base (.read lun)).reads = s.reads ++ [(s.due, s.target.fs.scsiFcodeBufferRX.toList)] := by
  obtain ⟨hfs, hread⟩ := scsiReadFCode_spec (fcodeFiles M file base)
    (addressed s.target lun (List.replicate 256 (some 0))) Vector.length_toList rfl rfl rfl hstarted
  rw [Session.step, if_pos hstarted]
  refine ⟨hfs, ?_⟩
  dsimp only
  rw [hread]
  rfl

theorem read_refused (lun : UInt8) (hstarted : ¬s.target.fs.started lun = true) :
    (s.step M file base (.read lun)).target.fs = s.target.fs := by
  rw [Session.step, if_neg hstarted]
  show (ScsiTarget.scsiReadFCode (fcodeFiles M file base) (addressed s.target lun _)).2.fs = _
  have hask : ScsiTarget.askLun (fcodeFiles M file base).readLunStatus
      (addressed s.target lun (List.replicate 256 (some 0))) =
      (s.target.fs.started lun, { addressed s.target lun (List.replicate 256 (some 0)) with events := [.lun lun] }) := rfl
  rw [ScsiTarget.scsiReadFCode, StateRules.bind_apply, hask, if_neg hstarted]
  rfl

theorem inside_step (h : s.target.fs.outside = false) (c : Command) :
    (s.step M file base c).target.fs.outside = false := by
  cases c with
  | write lun block flush nowUs =>
    by_cases hstarted : s.target.fs.started lun = true
    · exact (write_spec lun block flush nowUs hstarted).1.trans h
    · rw [write_refused lun block flush nowUs hstarted]
      exact h
  | read lun =>
    by_cases hstarted : s.target.fs.started lun = true
    · rw [(read_spec lun hstarted).1]
      exact h
    · rw [read_refused lun hstarted]
      exact h
  | player e => exact h

structure Ready (s : Session) : Prop where
  waits : ∀ text, s.due = some text → text ++ [CR] <+: s.target.fs.scsiFcodeBufferRX.toList
  empty : s.due = none → s.target.fs.scsiFcodeBufferRX[0] = CR
  answered : ∀ r ∈ s.reads, Answered r.1 r.2

theorem prefix_of_first {b : Buffer} (h : b[0] = CR) : [CR] <+: b.toList := by
  have hlength : 0 < b.toList.length := by
    rw [Vector.length_toList]
    decide
  have hcons := List.drop_eq_getElem_cons hlength
  rw [List.drop_zero, Vector.getElem_toList, h] at hcons
  rw [hcons]
  exact List.prefix_append [CR] _

theorem Ready.step (h : Ready s) {c : Command} (hc : c.Fair s) : Ready (s.step M file base c) := by
  cases c with
  | write lun block flush nowUs =>
    by_cases hstarted : s.target.fs.started lun = true
    · obtain ⟨hoverlay, hpicture, hsilent⟩ := hc hstarted
      have hholds := (@write_spec M file base _ lun block flush nowUs hstarted).2 hoverlay hpicture
      have hdue : (s.step M file base (.write lun block flush nowUs)).due = s.replyTo lun block := by
        rw [Session.step, if_pos hstarted]
      have hreads : (s.step M file base (.write lun block flush nowUs)).reads = s.reads := by
        rw [Session.step, if_pos hstarted]
      refine ⟨?_, ?_, ?_⟩
      · intro text htext
        rw [hdue] at htext
        rw [htext] at hholds
        exact hholds
      · intro hnone
        rw [hdue] at hnone
        rw [hnone] at hholds
        have hsame : (s.step M file base (.write lun block flush nowUs)).target.fs.scsiFcodeBufferRX =
            s.target.fs.scsiFcodeBufferRX := hholds
        rw [hsame]
        exact hsilent hnone
      · rw [hreads]
        exact h.answered
    · have hfs := @write_refused M file base _ lun block flush nowUs hstarted
      have hdue : (s.step M file base (.write lun block flush nowUs)).due = s.due := by
        rw [Session.step, if_neg hstarted]
      have hreads : (s.step M file base (.write lun block flush nowUs)).reads = s.reads := by
        rw [Session.step, if_neg hstarted]
      constructor
      · rw [hdue, hfs]
        exact h.waits
      · rw [hdue]
        intro hnone
        have hreply : (s.step M file base (.write lun block flush nowUs)).target.fs.scsiFcodeBufferRX =
            s.target.fs.scsiFcodeBufferRX := by rw [hfs]
        rw [hreply]
        exact h.empty hnone
      · rw [hreads]
        exact h.answered
  | read lun =>
    by_cases hstarted : s.target.fs.started lun = true
    · obtain ⟨hfs, hreads⟩ := @read_spec M file base _ lun hstarted
      have hdue : (s.step M file base (.read lun)).due = none := by
        rw [Session.step, if_pos hstarted]
      constructor
      · intro text htext
        rw [hdue] at htext
        cases htext
      · intro _
        have hreply : (s.step M file base (.read lun)).target.fs.scsiFcodeBufferRX =
            s.target.fs.scsiFcodeBufferRX.set 0 CR := by
          rw [hfs]
          rfl
        rw [hreply]
        exact Vector.getElem_set_self _
      · rw [hreads]
        intro r hr
        rcases List.mem_append.mp hr with hr | hr
        · exact h.answered r hr
        · rw [List.mem_singleton.mp hr]
          cases hwas : s.due with
          | none => exact Or.inl (prefix_of_first (h.empty hwas))
          | some text => exact Or.inr ⟨text, rfl, h.waits text hwas⟩
    · have hfs := @read_refused M file base _ lun hstarted
      have hdue : (s.step M file base (.read lun)).due = s.due := by
        rw [Session.step, if_neg hstarted]
      have hreads : (s.step M file base (.read lun)).reads = s.reads := by
        rw [Session.step, if_neg hstarted]
      constructor
      · rw [hdue, hfs]
        exact h.waits
      · rw [hdue]
        intro hnone
        have hreply : (s.step M file base (.read lun)).target.fs.scsiFcodeBufferRX = s.target.fs.scsiFcodeBufferRX := by
          rw [hfs]
        rw [hreply]
        exact h.empty hnone
      · rw [hreads]
        exact h.answered
  | player e => exact { h with }

theorem inside_run (h : s.target.fs.outside = false) (commands : List Command) :
    (final (Session.step M file base) s commands).target.fs.outside = false := by
  induction commands generalizing s with
  | nil => exact h
  | cons c rest ih => exact ih (inside_step h c)

theorem Ready.run (h : Ready s) {commands : List Command} (hfair : s.Fair M file base commands) :
    Ready (final (Session.step M file base) s commands) := by
  induction commands generalizing s with
  | nil => exact h
  | cons c rest ih => exact ih (h.step hfair.1) hfair.2

theorem ready_start (av : Av) (started : UInt8 → Bool) (userCode : UInt8 → Option (Vector UInt8 5)) :
    Ready (start av started userCode) := ⟨nofun, fun _ => rfl, nofun⟩

end

/-- No block makes the parser leave a buffer, whatever the run; and in a run whose commands are all fair every block
that is read holds a bare CR, or the reply to the last code that was written, which is delivered once. -/
theorem replies_answer (M : Machine) (file : UInt32 → Record) (base : FileSystem Disc) (av : Av)
    (started : UInt8 → Bool) (userCode : UInt8 → Option (Vector UInt8 5)) (commands : List Command) :
    (final (Session.step M file base) (start av started userCode) commands).target.fs.outside = false ∧
      ((start av started userCode).Fair M file base commands →
        ∀ r ∈ (final (Session.step M file base) (start av started userCode) commands).reads, Answered r.1 r.2) :=
  ⟨inside_run rfl commands, fun hfair => ((ready_start av started userCode).run hfair).answered⟩
/-! ### Wrong replies -/

def emptyFiles : FileSystem Disc where
  readLunStatus d _ := d.started 0
  setLunStatus d _ _ := (false, d)
  hostRevokeLun d _ := d
  checkLunImage d _ := (false, d)
  createLunImage d _ := (false, d)
  createLunDescriptor d _ := (false, d)
  readLunDescriptor d _ := (false, d)
  formatLun d _ _ := (false, d)
  openLunForRead d _ _ _ := (false, d)
  readNextSector d _ := (none, d)
  closeLunForRead d _ := d
  openLunForWrite d _ _ _ := (false, d)
  writeNextSector d _ _ := (false, d)
  closeLunForWrite d _ := d
  headsPerCylinder _ _ := 0
  lunSPTSize _ _ := 0
  lunBlockSize _ _ := 0
  lunTotalSectors _ _ := 0
  writeModePageData d _ _ _ := d
  copyPage0toPage4 d _ := d
  copyPage4toPage0 d _ := d
  configToLunGeometry d _ := d
  writeAttributes d _ := (false, d)
  modeParamHeaderData _ _ := none
  lbaDescriptorData _ _ := none
  modePageData _ _ _ := none
  inquiryData _ _ := none
  lunDirectory _ := 0
  setLunDirectory d _ _ := d
  setFatDirectory d _ := d
  fatFileInfo d _ := (none, d)
  openFatForRead d _ _ := (false, d)
  readNextFatBlock d := (none, d)
  closeFatForRead d := d
  fcodeWriteBuffer d _ _ := d
  fcodeReadBuffer _ := []
  fcodeClearBuffer d := d

def codeBlock (code : List UInt8) : Buffer := Vector.ofFn fun i => code.getD i 0

def writeCode (code : List UInt8) : Command := .write 0 (codeBlock (code ++ [CR])) ⟨[], []⟩ 0

def shownAv : Av where
  video := { vp := { isOpen := true, frameCount := 200000, mode := .still, curPicture := 123456 } }

def shownStart : Session := start shownAv (fun _ => true) fun _ => none

def soundless (_ : UInt32) : Record := ⟨0, []⟩

/-- `I0` is answered, and `*` is not. -/
def answeredRun : List Command := [writeCode [0x49, 0x30], .read 0, writeCode [0x2A], .read 0]

theorem answeredRun_fair : shownStart.Fair ⟨fun _ => true⟩ soundless emptyFiles answeredRun := by
  refine ⟨fun _ => ⟨by decide +kernel, fun h => ?_, fun h => ?_⟩, trivial,
    fun _ => ⟨by decide +kernel, fun h => ?_, fun _ => by decide +kernel⟩, trivial, trivial⟩
  · exact absurd h (by decide +kernel)
  · exact absurd h (by decide +kernel)
  · exact absurd h (by decide +kernel)

theorem replies_answer_two :
    answeredRun.length = 4 ∧ ∀ r ∈ (final (Session.step ⟨fun _ => true⟩ soundless emptyFiles) shownStart
      answeredRun).reads, Answered r.1 r.2 :=
  ⟨rfl, (replies_answer ⟨fun _ => true⟩ soundless emptyFiles shownAv (fun _ => true) (fun _ => none) answeredRun).2
    answeredRun_fair⟩

/-- `N` is written before the answer to `I0` is read. -/
def lateRun : List Command := [writeCode [0x49, 0x30], writeCode [0x4E], .read 0]

theorem lateRun_reads :
    ((final (Session.step ⟨fun _ => true⟩ soundless emptyFiles) shownStart lateRun).reads.map fun r =>
      (r.1, r.2.take 2)) = [(none, [0x41, CR])] := by
  decide +kernel

theorem late_reply :
    ¬∀ (M : Machine) (file : UInt32 → Record) (base : FileSystem Disc) (av : Av) (started : UInt8 → Bool)
      (userCode : UInt8 → Option (Vector UInt8 5)) (commands : List Command),
      ∀ r ∈ (final (Session.step M file base) (start av started userCode) commands).reads, Answered r.1 r.2 := by
  intro hall
  have hrun := hall ⟨fun _ => true⟩ soundless emptyFiles shownAv (fun _ => true) (fun _ => none) lateRun
  have hmem : (none, [0x41, CR]) ∈ (final (Session.step ⟨fun _ => true⟩ soundless emptyFiles) shownStart
      lateRun).reads.map fun r => (r.1, r.2.take 2) := by
    rw [lateRun_reads]
    exact List.mem_cons_self
  obtain ⟨r, hr, heq⟩ := List.mem_map.mp hmem
  obtain ⟨hdue, hblock⟩ := Prod.mk.inj heq
  rcases hrun r hr with ⟨rest, hbare⟩ | ⟨text, htext, -⟩
  · rw [← hbare] at hblock
    exact absurd (List.cons.inj hblock).1 (by decide)
  · rw [hdue] at htext
    cases htext

end Pi1MHz.Fcode
