import Pi1MHz.NetState

/-!
# The TNFS wire codec

`net_tnfs.c`: the requests the service builds and the replies it takes apart.  A builder writes
into a buffer of `cap` bytes and answers the length, 0 when it does not fit; here it answers
the bytes, `none` when they do not fit.
-/

namespace Pi1MHz.Net

def TNFS_PORT : UInt16 := 16384
def TNFS_HDR_LEN : Nat := 4
def TNFS_VERSION : UInt16 := 0x0102

def TNFS_CMD_MOUNT : UInt8 := 0x00
def TNFS_CMD_UMOUNT : UInt8 := 0x01
def TNFS_CMD_OPENDIR : UInt8 := 0x10
def TNFS_CMD_READDIR : UInt8 := 0x11
def TNFS_CMD_CLOSEDIR : UInt8 := 0x12
def TNFS_CMD_READ : UInt8 := 0x21
def TNFS_CMD_WRITE : UInt8 := 0x22
def TNFS_CMD_CLOSE : UInt8 := 0x23
def TNFS_CMD_OPEN : UInt8 := 0x29

def TNFS_OK : UInt8 := 0x00
def TNFS_EAGAIN : UInt8 := 0x07
def TNFS_EOF : UInt8 := 0x21

def TNFS_O_RDONLY : UInt16 := 0x0001
def TNFS_O_WRONLY : UInt16 := 0x0002
def TNFS_O_RDWR : UInt16 := 0x0003
def TNFS_O_CREAT : UInt16 := 0x0100
def TNFS_O_TRUNC : UInt16 := 0x0200

/-! ### Requests -/

section

variable (cap : Nat)

/-- `put_bytes`; a request that does not fit is none. -/
def putBytes (bytes b : List UInt8) : Option (List UInt8) :=
  if b.length + bytes.length > cap then none else some (b ++ bytes)

def putHdr (connid : UInt16) (seq cmd : UInt8) : Option (List UInt8) :=
  putBytes cap (le16 connid ++ [seq, cmd]) []

def putU8 (v : UInt8) (b : List UInt8) : Option (List UInt8) := putBytes cap [v] b

def putU16 (v : UInt16) (b : List UInt8) : Option (List UInt8) := putBytes cap (le16 v) b

def putStr (s b : List UInt8) : Option (List UInt8) := putBytes cap (s ++ [0]) b

def tnfsBuildMount (seq : UInt8) (mountpoint user pass : List UInt8) : Option (List UInt8) :=
  (putHdr cap 0 seq TNFS_CMD_MOUNT).bind (putU16 cap TNFS_VERSION) |>.bind (putStr cap mountpoint)
    |>.bind (putStr cap user) |>.bind (putStr cap pass)

def tnfsBuildUmount (connid : UInt16) (seq : UInt8) : Option (List UInt8) :=
  putHdr cap connid seq TNFS_CMD_UMOUNT

def tnfsBuildOpen (connid : UInt16) (seq : UInt8) (flags mode : UInt16) (path : List UInt8) :
    Option (List UInt8) :=
  (putHdr cap connid seq TNFS_CMD_OPEN).bind (putU16 cap flags) |>.bind (putU16 cap mode)
    |>.bind (putStr cap path)

def tnfsBuildRead (connid : UInt16) (seq fd : UInt8) (size : UInt16) : Option (List UInt8) :=
  (putHdr cap connid seq TNFS_CMD_READ).bind (putU8 cap fd) |>.bind (putU16 cap size)

def tnfsBuildWrite (connid : UInt16) (seq fd : UInt8) (data : List UInt8) : Option (List UInt8) :=
  (putHdr cap connid seq TNFS_CMD_WRITE).bind (putU8 cap fd)
    |>.bind (putU16 cap (UInt16.ofNat data.length)) |>.bind (putBytes cap data)

def tnfsBuildFd (cmd : UInt8) (connid : UInt16) (seq fd : UInt8) : Option (List UInt8) :=
  (putHdr cap connid seq cmd).bind (putU8 cap fd)

def tnfsBuildClose : UInt16 → UInt8 → UInt8 → Option (List UInt8) := tnfsBuildFd cap TNFS_CMD_CLOSE

def tnfsBuildReaddir : UInt16 → UInt8 → UInt8 → Option (List UInt8) :=
  tnfsBuildFd cap TNFS_CMD_READDIR

def tnfsBuildClosedir : UInt16 → UInt8 → UInt8 → Option (List UInt8) :=
  tnfsBuildFd cap TNFS_CMD_CLOSEDIR

def tnfsBuildOpendir (connid : UInt16) (seq : UInt8) (path : List UInt8) : Option (List UInt8) :=
  (putHdr cap connid seq TNFS_CMD_OPENDIR).bind (putStr cap path)

end

/-! ### Replies -/

/-- `tnfs_reply_t`; a reply that was not parsed is no value at all, so there is no `ok` field. -/
structure TnfsReply where
  connid : UInt16
  seq : UInt8
  cmd : UInt8
  status : UInt8
  body : List UInt8
  backoffMs : UInt16
deriving DecidableEq, Repr

def rdU16 (b : List UInt8) (k : Nat) : UInt16 := rd16 (b.getD k 0) (b.getD (k + 1) 0)

/-- The reply to one request; another packet is none. -/
def tnfsParseReply (pkt : List UInt8) (wantSeq wantCmd : UInt8) : Option TnfsReply :=
  if pkt.length < TNFS_HDR_LEN + 1 then none
  else if pkt.getD 2 0 ≠ wantSeq ∨ pkt.getD 3 0 ≠ wantCmd then none
  else
    let status := pkt.getD 4 0
    let body := pkt.drop 5
    some
      { connid := rdU16 pkt 0
        seq := pkt.getD 2 0
        cmd := pkt.getD 3 0
        status := status
        body := body
        backoffMs := if status = TNFS_EAGAIN ∧ 2 ≤ body.length then rdU16 body 0 else 0 }

def tnfsReplyMount (r : TnfsReply) : Option UInt16 :=
  if r.status ≠ TNFS_OK ∨ r.body.length < 4 then none else some (rdU16 r.body 2)

def tnfsReplyOpen (r : TnfsReply) : Option UInt8 :=
  if r.status ≠ TNFS_OK ∨ r.body.length < 1 then none else some (r.body.getD 0 0)

def tnfsReplyOpendir : TnfsReply → Option UInt8 := tnfsReplyOpen

def tnfsReplyWrite (r : TnfsReply) : Option UInt16 :=
  if r.status ≠ TNFS_OK ∨ r.body.length < 2 then none else some (rdU16 r.body 0)

def tnfsReplyRead (r : TnfsReply) : Option (List UInt8) :=
  if r.status ≠ TNFS_OK ∨ r.body.length < 2 then none
  else if (rdU16 r.body 0).toNat + 2 > r.body.length then none
  else some ((r.body.drop 2).take (rdU16 r.body 0).toNat)

def tnfsReplyReaddir (r : TnfsReply) : Option (List UInt8) :=
  if r.status ≠ TNFS_OK ∨ r.body.length < 1 then none
  else if (0 : UInt8) ∈ r.body then some (r.body.takeWhile (· ≠ 0)) else none

end Pi1MHz.Net
