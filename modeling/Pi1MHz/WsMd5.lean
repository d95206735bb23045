import Pi1MHz.WsText

/-!
# The web server: MD5

`md5.c`, over a whole message at once.  The four registers move one place round at each step, as
the order of the arguments of `STEP` does; after the 64 steps of a block they are back in place.
-/

namespace Pi1MHz.Ws

abbrev Md5Step := Nat × UInt32 × UInt32

def md5Round1 : List Md5Step :=
  [ (0, 0xd76aa478, 7), (1, 0xe8c7b756, 12), (2, 0x242070db, 17), (3, 0xc1bdceee, 22),
    (4, 0xf57c0faf, 7), (5, 0x4787c62a, 12), (6, 0xa8304613, 17), (7, 0xfd469501, 22),
    (8, 0x698098d8, 7), (9, 0x8b44f7af, 12), (10, 0xffff5bb1, 17), (11, 0x895cd7be, 22),
    (12, 0x6b901122, 7), (13, 0xfd987193, 12), (14, 0xa679438e, 17), (15, 0x49b40821, 22) ]

def md5Round2 : List Md5Step :=
  [ (1, 0xf61e2562, 5), (6, 0xc040b340, 9), (11, 0x265e5a51, 14), (0, 0xe9b6c7aa, 20),
    (5, 0xd62f105d, 5), (10, 0x02441453, 9), (15, 0xd8a1e681, 14), (4, 0xe7d3fbc8, 20),
    (9, 0x21e1cde6, 5), (14, 0xc33707d6, 9), (3, 0xf4d50d87, 14), (8, 0x455a14ed, 20),
    (13, 0xa9e3e905, 5), (2, 0xfcefa3f8, 9), (7, 0x676f02d9, 14), (12, 0x8d2a4c8a, 20) ]

def md5Round3 : List Md5Step :=
  [ (5, 0xfffa3942, 4), (8, 0x8771f681, 11), (11, 0x6d9d6122, 16), (14, 0xfde5380c, 23),
    (1, 0xa4beea44, 4), (4, 0x4bdecfa9, 11), (7, 0xf6bb4b60, 16), (10, 0xbebfbc70, 23),
    (13, 0x289b7ec6, 4), (0, 0xeaa127fa, 11), (3, 0xd4ef3085, 16), (6, 0x04881d05, 23),
    (9, 0xd9d4d039, 4), (12, 0xe6db99e5, 11), (15, 0x1fa27cf8, 16), (2, 0xc4ac5665, 23) ]

def md5Round4 : List Md5Step :=
  [ (0, 0xf4292244, 6), (7, 0x432aff97, 10), (14, 0xab9423a7, 15), (5, 0xfc93a039, 21),
    (12, 0x655b59c3, 6), (3, 0x8f0ccc92, 10), (10, 0xffeff47d, 15), (1, 0x85845dd1, 21),
    (8, 0x6fa87e4f, 6), (15, 0xfe2ce6e0, 10), (6, 0xa3014314, 15), (13, 0x4e0811a1, 21),
    (4, 0xf7537e82, 6), (11, 0xbd3af235, 10), (2, 0x2ad7d2bb, 15), (9, 0xeb86d391, 21) ]

structure Md5State where
  a : UInt32
  b : UInt32
  c : UInt32
  d : UInt32
deriving DecidableEq, Repr

def md5Init : Md5State := ⟨0x67452301, 0xefcdab89, 0x98badcfe, 0x10325476⟩

/-- `ROL`. -/
def md5Rol (v s : UInt32) : UInt32 := (v <<< s) ||| (v >>> (32 - s))

/-- `STEP` with its round function, the registers then moved on. -/
def md5Step (f : UInt32 → UInt32 → UInt32 → UInt32) (x : Nat → UInt32) (s : Md5State)
    (p : Md5Step) : Md5State :=
  ⟨s.d, md5Rol (s.a + (f s.b s.c s.d + x p.1 + p.2.1)) p.2.2 + s.b, s.b, s.c⟩

def md5LoadLe32 (p : List UInt8) : UInt32 :=
  (p.getD 0 0).toUInt32 ||| ((p.getD 1 0).toUInt32 <<< 8) ||| ((p.getD 2 0).toUInt32 <<< 16)
    ||| ((p.getD 3 0).toUInt32 <<< 24)

def md5StoreLe32 (v : UInt32) : List UInt8 :=
  [v.toUInt8, (v >>> 8).toUInt8, (v >>> 16).toUInt8, (v >>> 24).toUInt8]

def md5Transform (s : Md5State) (block : List UInt8) : Md5State :=
  let x (i : Nat) := md5LoadLe32 (block.drop (4 * i))
  let r := md5Round1.foldl (md5Step (fun x y z => (x &&& y) ||| (~~~x &&& z)) x) s
  let r := md5Round2.foldl (md5Step (fun x y z => (x &&& z) ||| (y &&& ~~~z)) x) r
  let r := md5Round3.foldl (md5Step (fun x y z => x ^^^ y ^^^ z) x) r
  let r := md5Round4.foldl (md5Step (fun x y z => y ^^^ (x ||| ~~~z)) x) r
  ⟨s.a + r.a, s.b + r.b, s.c + r.c, s.d + r.d⟩

/-- The message with the padding of `md5_final`. -/
def md5Padded (msg : List UInt8) : List UInt8 :=
  let have64 := msg.length % 64
  let padlen := if have64 < 56 then 56 - have64 else 120 - have64
  let bits := UInt64.ofNat msg.length * 8
  msg ++ 0x80 :: List.replicate (padlen - 1) 0
    ++ (List.range 8).map fun i => (bits >>> (UInt64.ofNat (8 * i))).toUInt8

def md5Blocks : Nat → List UInt8 → Md5State → Md5State
  | 0, _, s => s
  | k + 1, msg, s => md5Blocks k (msg.drop 64) (md5Transform s (msg.take 64))

def md5 (msg : List UInt8) : List UInt8 :=
  let padded := md5Padded msg
  let s := md5Blocks (padded.length / 64) padded md5Init
  md5StoreLe32 s.a ++ md5StoreLe32 s.b ++ md5StoreLe32 s.c ++ md5StoreLe32 s.d

def hexDigit (v : UInt8) : UInt8 := if v < 10 then 0x30 + v else 0x61 + (v - 10)

def md5Hex (digest : List UInt8) : Str :=
  digest.flatMap fun (b : UInt8) => [hexDigit ((b >>> 4) &&& 0x0F), hexDigit (b &&& 0x0F)]

def md5HexCat (parts : List Str) : Str := md5Hex (md5 parts.flatten)

-- The digest of the empty message, from RFC 1321.
example : md5HexCat [] = lit ['d', '4', '1', 'd', '8', 'c', 'd', '9', '8', 'f', '0', '0', 'b', '2',
    '0', '4', 'e', '9', '8', '0', '0', '9', '9', '8', 'e', 'c', 'f', '8', '4', '2', '7', 'e'] := by
  decide +kernel

end Pi1MHz.Ws
