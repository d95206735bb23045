import Pi1MHz.NetState

/-!
# The TELNET filter

`net_telnet.c`: the IAC filter run over what a TELNET server sends, and the escaping of what is
sent to it.  Output buffers have a capacity; what does not fit is dropped, as `emit` does.
-/

namespace Pi1MHz.Net

def TELNET_PORT : UInt16 := 23

def TN_IAC : UInt8 := 255
def TN_DONT : UInt8 := 254
def TN_DO : UInt8 := 253
def TN_WONT : UInt8 := 252
def TN_WILL : UInt8 := 251
def TN_SB : UInt8 := 250
def TN_SE : UInt8 := 240
def TN_OPT_ECHO : UInt8 := 1
def TN_OPT_SGA : UInt8 := 3

/-- `emit`. -/
def telnetEmit (cap : Nat) (buf : List UInt8) (b : UInt8) : List UInt8 :=
  if buf.length < cap then buf ++ [b] else buf

/-- `reply`: at most once per option, and left unmarked while there is no room. -/
def telnetReply (t : Telnet) (cap : Nat) (rep : List UInt8) (cmd opt : UInt8) :
    Telnet × List UInt8 :=
  if t.seen opt then (t, rep)
  else if rep.length + 3 > cap then (t, rep)
  else
    ({ t with seen := Function.update t.seen opt true },
      telnetEmit cap (telnetEmit cap (telnetEmit cap rep TN_IAC) cmd) opt)

structure TelnetRun where
  ctx : Telnet
  out : List UInt8
  rep : List UInt8

def telnetByte (outCap repCap : Nat) (r : TelnetRun) (b : UInt8) : TelnetRun :=
  let goTo (s : TelnetSt) : Telnet := { r.ctx with state := s }
  match r.ctx.state with
  | .data =>
      if b = TN_IAC then { r with ctx := goTo .iac }
      else if b = 0x0D then { r with ctx := goTo .cr, out := telnetEmit outCap r.out 0x0D }
      else { r with out := telnetEmit outCap r.out b }
  | .cr =>
      if b = 0x00 then { r with ctx := goTo .data }
      else if b = TN_IAC then { r with ctx := goTo .iac }
      else if b = 0x0D then { r with out := telnetEmit outCap r.out 0x0D }
      else { r with ctx := goTo .data, out := telnetEmit outCap r.out b }
  | .iac =>
      if b = TN_IAC then { r with ctx := goTo .data, out := telnetEmit outCap r.out 0xFF }
      else if b = TN_WILL ∨ b = TN_WONT ∨ b = TN_DO ∨ b = TN_DONT then
        { r with ctx := { r.ctx with cmd := b, state := .opt } }
      else if b = TN_SB then { r with ctx := goTo .sb }
      else { r with ctx := goTo .data }
  | .opt =>
      let p :=
        if r.ctx.cmd = TN_WILL then
          telnetReply r.ctx repCap r.rep
            (if b = TN_OPT_ECHO ∨ b = TN_OPT_SGA then TN_DO else TN_DONT) b
        else if r.ctx.cmd = TN_DO then telnetReply r.ctx repCap r.rep TN_WONT b
        else (r.ctx, r.rep)
      { r with ctx := { p.1 with state := .data }, rep := p.2 }
  | .sb => if b = TN_IAC then { r with ctx := goTo .sbIac } else r
  | .sbIac => if b = TN_SE then { r with ctx := goTo .data } else { r with ctx := goTo .sb }

def telnetFilter (t : Telnet) (input : List UInt8) (outCap repCap : Nat) : TelnetRun :=
  input.foldl (telnetByte outCap repCap) ⟨t, [], []⟩

def telnetEscape (cap : Nat) : List UInt8 → List UInt8 → List UInt8 × Nat
  | [], out => (out, 0)
  | b :: rest, out =>
      if b = TN_IAC then
        if out.length + 2 > cap then (out, 0)
        else
          let r := telnetEscape cap rest (out ++ [TN_IAC, TN_IAC])
          (r.1, r.2 + 1)
      else if out.length + 1 > cap then (out, 0)
      else
        let r := telnetEscape cap rest (out ++ [b])
        (r.1, r.2 + 1)

end Pi1MHz.Net
