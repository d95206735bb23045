import Pi1MHz.WsBody
import Pi1MHz.WsDate
import Pi1MHz.WsMove

/-!
# The web server: requests that change the card

The web server as one machine: the card, what the Beeb holds, the cache of PROPFIND, and what each
connection is in the middle of.  A request starts a job or is answered at once; the segments of its
body, the polls of a copy, a reset and a lost connection move the job on.
-/

namespace Pi1MHz.Ws

open FileTree

/-! ### The card, with what was touched -/

/-- The bytes of a file with others put in their place from `offset` on. -/
def patch (old : List UInt8) (offset : Nat) (new : List UInt8) : List UInt8 :=
  old.take offset ++ new ++ old.drop (offset + new.length)

structure Disk where
  card : Card
  touched : List (List Str) := []

namespace Disk

def touch (d : Disk) (path : Str) : Disk :=
  { d with touched := (fatObject path).toList ++ d.touched }

/-- `f_unlink`, and whether it succeeded. -/
def unlink (d : Disk) (path : Str) : Disk × Bool :=
  if (fatObject path).any (canUnlink d.card) then
    ({ card := fUnlink d.card path, touched := (d.touch path).touched }, true)
  else (d, false)

def clear (d : Disk) (path : Str) : Disk :=
  if (fStat d.card path).isSome then (d.unlink path).1 else d

/-- `f_rename`, and whether it succeeded. -/
def rename (fails : Bool) (d : Disk) (src dst : Str) : Disk × Bool :=
  if (fRename fails d.card src dst).2 then
    ({ card := (fRename fails d.card src dst).1, touched := ((d.touch src).touch dst).touched }, true)
  else (d, false)

/-- `f_open` with `FA_CREATE_ALWAYS`: the file is there, and empty. -/
def create (fails : Bool) (d : Disk) (path : Str) : Option Disk :=
  (fCreate fails d.card path).map fun k =>
    { card := d.card.put k (.file [] nortcStamp false), touched := (d.touch path).touched }

/-- `f_close` of a file that was written: what it holds and its date reach the directory entry, if
that is still there. -/
def close (d : Disk) (path : Str) (data : List UInt8) : Disk :=
  match fatObject path with
  | none => d
  | some k =>
      match d.card.get k with
      | some (.file _ _ readOnly) =>
          { card := d.card.put k (.file data nortcStamp readOnly), touched := (d.touch path).touched }
      | _ => d

/-- `f_write` into the middle of a file, up to where the last burst ended. -/
def patchFile (d : Disk) (path : Str) (offset : Nat) (new : List UInt8) : Disk :=
  match fatObject path with
  | none => d
  | some k =>
      match d.card.get k with
      | some (.file old stamp readOnly) =>
          { card := d.card.put k (.file (patch old offset new) stamp readOnly),
            touched := (d.touch path).touched }
      | _ => d

/-- `f_utime`. -/
def utime (d : Disk) (path : Str) (stamp : Stamp) : Disk :=
  match fatObject path with
  | none => d
  | some k =>
      match d.card.get k with
      | some entry => { d with card := d.card.put k (entry.setInfo stamp) }
      | none => d

end Disk

theorem get_utime (d : Disk) (path : Str) (stamp : Stamp) (k : List Str) :
    (d.utime path stamp).card.get k =
      if fatObject path = some k then (d.card.get k).map (Entry.setInfo stamp) else d.card.get k := by
  unfold Disk.utime
  cases hpath : fatObject path with
  | none => simp
  | some k' =>
    simp only [Option.some.injEq]
    cases hget : d.card.get k' with
    | none =>
      by_cases hk : k' = k
      · subst hk
        simp [hget]
      · simp [hk]
    | some entry =>
      rw [Files.get_put]
      by_cases hk : k' = k
      · subst hk
        simp [hget]
      · rw [if_neg hk, if_neg (Ne.symm hk)]

/-! ### The PROPFIND cache -/

structure FileInfo where
  size : Nat
  isDir : Bool
  stamp : Stamp
deriving DecidableEq, Repr

def fileInfo : Entry Stamp → FileInfo
  | .dir stamp => ⟨0, true, stamp⟩
  | .file data stamp _ => ⟨data.length, false, stamp⟩

def fInfo (c : Card) (path : Str) : Option FileInfo :=
  if wsIsRoot path then some ⟨0, true, ⟨0, 0⟩⟩ else (fStat c path).map fileInfo

def WS_PROPFIND_CACHE_MAX_CHILDREN : Nat := 128

def WS_PROPFIND_CACHE_TTL_US : Nat := 5000000

/-- `g_ws_propfind_cache_*`; of the time it was filled only the low 32 bits are looked at. -/
structure PropfindCache where
  valid : Bool := false
  atUs : Nat := 0
  entries : List (Str × FileInfo) := []
deriving DecidableEq, Repr

def wsPropfindCacheInvalidate (c : PropfindCache) : PropfindCache :=
  { c with entries := [], valid := false }

def wsPropfindCacheAdd (c : PropfindCache) (path : Str) (info : FileInfo) : PropfindCache :=
  if WS_PROPFIND_CACHE_MAX_CHILDREN ≤ c.entries.length then c
  else { c with entries := c.entries ++ [(path, info)] }

def wsPropfindCacheCommit (c : PropfindCache) (now : Nat) : PropfindCache :=
  { c with atUs := now, valid := true }

def PropfindCache.expired (c : PropfindCache) (now : Nat) : Bool :=
  decide (WS_PROPFIND_CACHE_TTL_US ≤ (UInt32.ofNat now - UInt32.ofNat c.atUs).toNat)

def wsPropfindCacheLookup (c : PropfindCache) (now : Nat) (path : Str) :
    PropfindCache × Option FileInfo :=
  if c.valid = false then (c, none)
  else if c.expired now then (wsPropfindCacheInvalidate c, none)
  else (c, (c.entries.find? fun e => e.1 == path).map Prod.snd)

/-! ### Jobs -/

structure PutJob where
  target : Str
  /-- `dav_put_tmppath`, empty in in-place mode. -/
  tmppath : Str
  inPlace : Option (Nat × Stamp) := none
  body : Body
  sink : Sink := {}
  status : Nat
  answered : Bool := false

structure UploadPart where
  name : Str
  lun : Option Lun
  tail : List UInt8 := []
  sink : Sink := {}

structure UploadJob where
  dir : Str
  delim : List UInt8
  /-- `up_head`. -/
  head : List UInt8 := []
  part : Option UploadPart := none

structure CopyJob where
  target : Str
  existed : Bool
  written : List UInt8 := []

inductive Job where
  | none
  | put (j : PutJob)
  | upload (j : UploadJob)
  | copy (j : CopyJob)
  /-- `pp_capture`: the rest of the body of a PROPPATCH. -/
  | capture (path : Str) (remaining : Nat) (body : List UInt8)

structure Server where
  disk : Disk
  beeb : BeebState := {}
  cache : PropfindCache := {}
  now : Nat := 0
  jobs : Nat → Job := fun _ => .none
  /-- `g_ws_active_copy`. -/
  copyConn : Option Nat := none
  /-- `g_ws_copy_lun`. -/
  copyLun : Option Lun := none
  utcOffset : Int := 0

inductive WebOp where
  | put
  | rangedPut
  | delete
  | mkcol
  | move
  | copy
  | lock
  | proppatch
  | upload
deriving DecidableEq, Repr

/-- What a step does on the wire: the status of an answer, the operation that is complete with it,
and what it reports. -/
structure Reply where
  status : Nat
  done : Option WebOp := none
  report : List (Str × FileInfo) := []

structure Faults where
  openFails : Bool := false
  createFails : Bool := false
  seekFails : Bool := false
  closeFails : Bool := false
  renameFails : Bool := false
  fails : Nat → Option Nat := fun _ => none

namespace Server

def setJob (s : Server) (i : Nat) (j : Job) : Server :=
  { s with jobs := fun k => if k = i then j else s.jobs k }

def onDisk (s : Server) (d : Disk) : Server := { s with disk := d }

def wsFsMutated (s : Server) : Server := { s with cache := wsPropfindCacheInvalidate s.cache }

def answer (s : Server) (i : Nat) (status : Nat) : Server × Option Reply :=
  (s.setJob i .none, some { status := status })

def complete (s : Server) (i : Nat) (status : Nat) (op : WebOp) : Server × Option Reply :=
  (s.setJob i .none, some { status := status, done := some op })

def childPath (dir name : Str) : Str :=
  if wsIsRoot dir then 0x2F :: name else dir ++ 0x2F :: name

/-- The walk over a directory: what `f_readdir` says of a name is what the card holds there. -/
def listing (c : Card) (dir : Str) (names : List Str) : List (Str × FileInfo) :=
  names.filterMap fun name => (fInfo c (childPath dir name)).map fun info => (childPath dir name, info)

def cacheWalk (cache : PropfindCache) (now : Nat) (children : List (Str × FileInfo)) : PropfindCache :=
  let filled := children.foldl
    (fun c e => if e.1.length < WS_PATH_MAX then wsPropfindCacheAdd c e.1 e.2 else c)
    (wsPropfindCacheInvalidate cache)
  wsPropfindCacheCommit filled now

def routeDavPropfind (s : Server) (i : Nat) (rawpath : Str) (depth1 : Bool) (names : List Str) :
    Server × Option Reply :=
  match davUrlToSdpath rawpath WS_PATH_MAX with
  | none => s.answer i 400
  | some sdpath =>
      let looked := if wsIsRoot sdpath then (s.cache, none)
        else wsPropfindCacheLookup s.cache s.now sdpath
      let s := { s with cache := looked.1 }
      match looked.2.or (fInfo s.disk.card sdpath) with
      | none => s.answer i 404
      | some info =>
          let walks := depth1 && info.isDir
          let children := if walks then listing s.disk.card sdpath names else []
          let s := if walks then { s with cache := cacheWalk s.cache s.now children } else s
          (s.setJob i .none, some { status := 207, report := (sdpath, info) :: children })

/-! ### PUT -/

def partPath (target : Str) : Str := target ++ lit ['.', 'p', 'a', 'r', 't']

def putBurst (d : Disk) (j : PutJob) (written : List UInt8) : Disk :=
  if written.length ≤ j.sink.written.length then d
  else
    match j.inPlace with
    | none => d.touch j.tmppath
    | some (offset, _) => d.patchFile j.target offset written

/-- `f_close` of the file of a PUT. -/
def putClose (d : Disk) (j : PutJob) (written : List UInt8) : Disk :=
  match j.inPlace with
  | none => d.close j.tmppath written
  | some (offset, _) =>
      if written = [] then d
      else (d.patchFile j.target offset written).utime j.target nortcStamp

def putDiscard (d : Disk) (j : PutJob) (written : List UInt8) : Disk :=
  let d := putClose d j written
  if j.inPlace.isSome then d else (d.unlink j.tmppath).1

def davPutFinish (s : Server) (i : Nat) (j : PutJob) (f : Faults) : Server × Option Reply :=
  match j.sink.flush ⟨j.inPlace.isSome && wsBeebPathBusy s.beeb j.target, f.fails⟩ with
  | .error e => (s.onDisk (putDiscard s.disk j e.part)).answer i e.status
  | .ok sink =>
      if f.closeFails then (s.onDisk (putDiscard s.disk j sink.written)).answer i 500
      else
        let closed := putClose s.disk j sink.written
        match j.inPlace with
        | some (_, keep) =>
            (s.onDisk (closed.utime j.target keep)).wsFsMutated.complete i j.status .rangedPut
        | none =>
            let old := fStat closed.card j.target
            if wsBeebPathBusy s.beeb j.target then
              (s.onDisk (closed.unlink j.tmppath).1).answer i 423
            else
              let renamed := (closed.unlink j.target).1.rename f.renameFails j.tmppath j.target
              if renamed.2 = false then
                (s.onDisk (renamed.1.unlink j.tmppath).1).answer i 500
              else
                let stamped := match old with
                  | some e => renamed.1.utime j.target e.info
                  | none => renamed.1
                (s.onDisk stamped).wsFsMutated.complete i j.status .put

/-- `dav_put_consume` and `dav_put_consume_chunked`: a segment of the body of a PUT. -/
def davPutConsume (s : Server) (i : Nat) (j : PutJob) (bytes : List UInt8) (f : Faults) :
    Server × Option Reply :=
  let r := j.body.feed bytes
  match j.sink.write ⟨j.inPlace.isSome && wsBeebPathBusy s.beeb j.target, f.fails⟩ r.out with
  | .error e => (s.onDisk (putDiscard s.disk j e.part)).answer i e.status
  | .ok sink =>
      let s := s.onDisk (putBurst s.disk j sink.written)
      let j := { j with sink := sink, body := r.body }
      match r.ends with
      | .more => (s.setJob i (.put j), none)
      | .malformed => (s.setJob i (.put { j with answered := true }), some { status := 400 })
      | .done => davPutFinish s i j f

structure PutRequest where
  rawpath : Str
  /-- The query: nothing, `?offset=N`, or one that is refused. -/
  query : Except Nat (Option Nat) := .ok none
  chunked : Bool := false
  /-- The `Content-Length`, or why there is none. -/
  contentLength : Except Nat Nat := .error 411
  already : List UInt8 := []

/-- The part of `route_dav_put` that patches an existing file. -/
def putInPlace (s : Server) (i : Nat) (r : PutRequest) (sdpath : Str) (offset len : Nat) (f : Faults) :
    Server × Option Reply :=
  match fStat s.disk.card sdpath with
  | some (.file data stamp readOnly) =>
      if r.chunked then s.answer i 400
      else if data.length < offset ∨ data.length - offset < len then s.answer i 416
      else if len = 0 then s.answer i 204
      else if f.openFails || readOnly then s.answer i 409
      else if f.seekFails then s.answer i 500
      else
        let j : PutJob :=
          { target := sdpath, tmppath := [], inPlace := some (offset, stamp), body := .fixed len,
            status := 204 }
        if r.already = [] then (s.setJob i (.put j), none) else davPutConsume s i j r.already f
  | _ => s.answer i (if r.chunked then 400 else 404)

/-- The part of `route_dav_put` that goes through a temporary file. -/
def putTemp (s : Server) (i : Nat) (r : PutRequest) (sdpath : Str) (len : Nat) (f : Faults) :
    Server × Option Reply :=
  let existed := (fStat s.disk.card sdpath).isSome
  if !r.chunked && len = 0 && existed then s.answer i 204
  else
    match s.disk.create f.createFails (partPath sdpath) with
    | none => s.answer i 409
    | some d =>
        let j : PutJob :=
          { target := sdpath, tmppath := partPath sdpath,
            body := if r.chunked then .chunked {} else .fixed len,
            status := if existed then 204 else 201 }
        let s := s.onDisk d
        if r.already = [] ∧ (r.chunked ∨ len ≠ 0) then (s.setJob i (.put j), none)
        else davPutConsume s i j r.already f

def routeDavPut (s : Server) (i : Nat) (r : PutRequest) (f : Faults) : Server × Option Reply :=
  match r.query with
  | .error status => s.answer i status
  | .ok offset =>
      let s := s.wsFsMutated
      match davUrlToSdpath r.rawpath WS_PATH_MAX with
      | none => s.answer i 400
      | some sdpath =>
          if wsIsRoot sdpath then s.answer i 405
          else if wsBeebPathBusy s.beeb sdpath then s.answer i 423
          else
            match if r.chunked then .ok 0 else r.contentLength with
            | .error status => s.answer i status
            | .ok len =>
                if (fStat s.disk.card sdpath).any Entry.isDir then s.answer i 409
                else
                  match offset with
                  | some offset => putInPlace s i r sdpath offset len f
                  | none => putTemp s i r sdpath len f

/-! ### Browser upload -/

def WS_UPLOAD_HEAD_MAX : Nat := 1024

def wsAfter (key : Str) : Str → Option Str
  | [] => none
  | c :: rest => if wsPrefixCi (c :: rest) key then some ((c :: rest).drop key.length) else wsAfter key rest

def wsExtractFilename (parthdr : Str) : Option Str := do
  let f ← wsAfter (lit ['f', 'i', 'l', 'e', 'n', 'a', 'm', 'e', '=']) (cstr parthdr)
  guard (f.headD 0 = 0x22)
  return (f.tail.takeWhile (· ≠ 0x22)).take 255

def wsExtractBoundary (ctype : Str) : Option Str := do
  let b ← wsAfter (lit ['b', 'o', 'u', 'n', 'd', 'a', 'r', 'y', '=']) ctype
  let quoted := b.headD 0 = 0x22
  let boundary := if quoted then b.tail.takeWhile (· ≠ 0x22)
    else b.takeWhile fun c => c ≠ 0x3B ∧ c ≠ 0x20 ∧ c ≠ 0x0D ∧ c ≠ 0x0A
  guard (boundary ≠ [])
  return boundary.take 127

def wsBasename (p : Str) : Str := p.rtakeWhile fun c => !isSep c

def wsFindHeaderEnd : List UInt8 → Option Nat
  | [] => none
  | b :: rest =>
      if [0x0A, 0x0A].isPrefixOf (b :: rest) then some 2
      else if [0x0D, 0x0A, 0x0D, 0x0A].isPrefixOf (b :: rest) then some 4
      else (wsFindHeaderEnd rest).map (· + 1)

def filesystemLunFromHostPath (s : LunState) (path : Str) : Option Lun :=
  (List.finRange 16).find? fun lun =>
    fsHostNameEqual (fsHostLunStem s lun).length path (fsHostLunStem s lun)

def uploadFail (s : Server) (i : Nat) (dir : Str) (part : UploadPart) (written : List UInt8) :
    Server × Option Reply :=
  let tmp := partPath (childPath dir part.name)
  (s.onDisk ((s.disk.close tmp written).unlink tmp).1).answer i 400

def uploadFinish (s : Server) (i : Nat) (u : UploadJob) (part : UploadPart) (f : Faults) :
    Server × Option Reply :=
  let full := childPath u.dir part.name
  match part.sink.flush ⟨false, f.fails⟩ with
  | .error e => uploadFail s i u.dir part e.part
  | .ok sink =>
      if f.closeFails || wsBeebPathBusy s.beeb full then uploadFail s i u.dir part sink.written
      else
        let closed := s.disk.close (partPath full) sink.written
        let renamed := (closed.unlink full).1.rename f.renameFails (partPath full) full
        -- a file that could not be renamed is kept: it is the only copy
        if renamed.2 = false then (s.onDisk renamed.1).wsFsMutated.answer i 400
        else (s.onDisk renamed.1).wsFsMutated.complete i 200 .upload

def uploadFeedData (s : Server) (i : Nat) (u : UploadJob) (part : UploadPart) (bytes : List UInt8)
    (f : Faults) : Server × Option Reply :=
  let r := uploadFeed u.delim bytes.length part.tail bytes
  -- the Beeb started the drive whose image this is to be
  if r.out ≠ [] ∧ part.lun.any s.beeb.luns.started then uploadFail s i u.dir part part.sink.written
  else if r.ends = .another then uploadFail s i u.dir part part.sink.written
  else
    match part.sink.write ⟨false, f.fails⟩ r.out with
    | .error e => uploadFail s i u.dir part e.part
    | .ok sink =>
        let part' := { part with sink := sink, tail := r.tail }
        if r.ends = .closing then uploadFinish s i u part' f
        else (s.setJob i (.upload { u with part := some part' }), none)

def uploadName (head : List UInt8) : Option Str := do
  let name ← (wsExtractFilename head).map wsBasename
  guard (name ≠ [] ∧ name ≠ [0x2E] ∧ name ≠ [0x2E, 0x2E] ∧ name.all (0x20 ≤ ·))
  return name

def uploadBeginPart (s : Server) (u : UploadJob) (f : Faults) : Option (Disk × UploadPart) := do
  let name ← uploadName u.head
  let full := childPath u.dir name
  guard (wsBeebPathBusy s.beeb full = false)
  let d ← s.disk.create f.createFails (partPath full)
  return (d, { name := name, lun := filesystemLunFromHostPath s.beeb.luns full })

def uploadConsume (s : Server) (i : Nat) (u : UploadJob) (bytes : List UInt8) (f : Faults) :
    Server × Option Reply :=
  match u.part with
  | some part => uploadFeedData s i u part bytes f
  | none =>
      let space := WS_UPLOAD_HEAD_MAX - u.head.length
      let u := { u with head := u.head ++ bytes.take space }
      match wsFindHeaderEnd u.head with
      | none =>
          if WS_UPLOAD_HEAD_MAX ≤ u.head.length then s.answer i 400
          else (s.setJob i (.upload u), none)
      | some bodyAt =>
          match uploadBeginPart s u f with
          | none => s.answer i 400
          | some (d, part) =>
              let first := uploadFeedData (s.onDisk d) i u part (u.head.drop bodyAt) f
              -- the rest of the segment follows what was left over from the header
              match first.2, first.1.jobs i with
              | none, .upload { part := some part', .. } =>
                  if bytes.drop space = [] then first
                  else uploadFeedData first.1 i u part' (bytes.drop space) f
              | _, _ => first

def routeUpload (s : Server) (i : Nat) (rawpath : Str) (ctype : Option Str) (already : List UInt8)
    (f : Faults) : Server × Option Reply :=
  match davUrlToSdpath rawpath WS_PATH_MAX with
  | none => s.answer i 400
  | some dir =>
      if !wsIsRoot dir && !(fStat s.disk.card dir).any Entry.isDir then s.answer i 404
      else
        match (ctype.filter (wsPrefixCi · (lit ['m', 'u', 'l', 't', 'i', 'p', 'a', 'r', 't', '/', 'f', 'o',
          'r', 'm', '-', 'd', 'a', 't', 'a']))).bind wsExtractBoundary with
        | none => s.answer i 400
        | some boundary =>
            let u : UploadJob := { dir := dir, delim := [0x0D, 0x0A, 0x2D, 0x2D] ++ boundary }
            if already = [] then (s.setJob i (.upload u), none) else uploadConsume s i u already f

/-! ### DELETE, MKCOL, LOCK and PROPPATCH -/

def DAV_DELETE_MAX_DEPTH : Nat := 16

/-- The loop of `dav_delete_tree` over the names in a directory; `below` empties a directory. -/
def deleteChildren (below : Disk → Str → Disk × Bool) (path : Str) : Disk → List Str → Disk × Bool
  | d, [] => (d, true)
  | d, name :: names =>
      if WS_PATH_MAX < path.length + name.length + 2 then (d, false)
      else
        let child := path ++ 0x2F :: name
        let emptied := if (fStat d.card child).any Entry.isDir then below d child else (d, true)
        if emptied.2 = false then emptied
        else
          let removed := emptied.1.unlink child
          if removed.2 = false then removed else deleteChildren below path removed.1 names

/-- `dav_delete_tree`, with so many levels to go; `names` is what `f_readdir` finds. -/
def davDeleteTree (names : Str → List Str) : Nat → Disk → Str → Disk × Bool
  | 0, d, _ => (d, false)
  | levels + 1, d, path => deleteChildren (davDeleteTree names levels) path d (names path)

def routeDavDelete (s : Server) (i : Nat) (rawpath : Str) (names : Str → List Str) :
    Server × Option Reply :=
  let s := s.wsFsMutated
  match davUrlToSdpath rawpath WS_PATH_MAX with
  | none => s.answer i 400
  | some sdpath =>
      if wsIsRoot sdpath then s.answer i 403
      else if wsBeebPathBusy s.beeb sdpath then s.answer i 423
      else
        match fStat s.disk.card sdpath with
        | none => s.answer i 404
        | some entry =>
            let emptied := if entry.isDir then davDeleteTree names DAV_DELETE_MAX_DEPTH s.disk sdpath
              else (s.disk, true)
            let removed := if emptied.2 then emptied.1.unlink sdpath else emptied
            if removed.2 then (s.onDisk removed.1).complete i 204 .delete
            else (s.onDisk removed.1).answer i 409

def routeDavMkcol (s : Server) (i : Nat) (rawpath : Str) (body : Bool) (f : Faults) :
    Server × Option Reply :=
  let s := s.wsFsMutated
  match davUrlToSdpath rawpath WS_PATH_MAX with
  | none => s.answer i 400
  | some sdpath =>
      if wsIsRoot sdpath then s.answer i 405
      else if body then s.answer i 415
      else if (fStat s.disk.card sdpath).isSome then s.answer i 405
      else
        match fatObject sdpath with
        | none => s.answer i 500
        | some k =>
            if s.disk.card.isDir k.dropLast = false then s.answer i 409
            else if f.createFails then s.answer i 500
            else
              (s.onDisk { s.disk with card := s.disk.card.put k (.dir nortcStamp) }).complete i 201
                .mkcol

def routeDavLock (s : Server) (i : Nat) (rawpath : Str) (f : Faults) : Server × Option Reply :=
  match davUrlToSdpath rawpath WS_PATH_MAX with
  | none => s.answer i 400
  | some sdpath =>
      if (fStat s.disk.card sdpath).isSome then s.complete i 200 .lock
      else
        match s.disk.create f.createFails sdpath with
        | none => s.answer i 409
        | some d =>
            if f.closeFails then (s.onDisk d).answer i 500
            else (s.onDisk d).wsFsMutated.complete i 200 .lock

def davApplyWin32Mtime (s : Server) (sdpath : Str) (body : List UInt8) : Server :=
  match davWin32Mtime s.utcOffset body with
  | none => s
  | some stamp => s.onDisk (s.disk.utime sdpath stamp)

/-- `route_dav_proppatch`: with `remaining` bytes still to come, the rest of the body is captured. -/
def routeDavProppatch (s : Server) (i : Nat) (rawpath : Str) (already : List UInt8) (remaining : Nat) :
    Server × Option Reply :=
  match davUrlToSdpath rawpath WS_PATH_MAX with
  | none => s.answer i 400
  | some sdpath =>
      if remaining = 0 then (s.davApplyWin32Mtime sdpath already).complete i 207 .proppatch
      else
        (s.setJob i (.capture sdpath remaining (already.take WS_FILE_CHUNK)), some { status := 207 })

/-- The drain of `conn_consume`, with the capture in it. -/
def drainCapture (s : Server) (i : Nat) (path : Str) (remaining : Nat) (body bytes : List UInt8) :
    Server × Option Reply :=
  let body := (body ++ bytes.take remaining).take WS_FILE_CHUNK
  if bytes.length < remaining then
    (s.setJob i (.capture path (remaining - bytes.length) body), none)
  else ((s.davApplyWin32Mtime path body).setJob i .none, some { status := 207, done := some .proppatch })

/-! ### MOVE and COPY -/

def filesystemHostLockLun (s : LunState) (lun : Option Lun) (lock : Bool) : LunState :=
  match lun with
  | none => s
  | some lun =>
      { s with
        hostRevoke := fun l => if l = lun then false else s.hostRevoke l
        hostLock := fun l => if l = lun then lock else s.hostLock l }

def setLuns (s : Server) (l : LunState) : Server := { s with beeb := { s.beeb with luns := l } }

def wsCopySlotRelease (s : Server) (i : Nat) : Server :=
  if s.copyConn ≠ some i then s
  else
    { s.setLuns (filesystemHostLockLun s.beeb.luns s.copyLun false) with
      copyConn := none, copyLun := none }

/-- The MOVE part of `route_dav_move_or_copy`. -/
def moveNow (s : Server) (i : Nat) (r : MoveCopy) (existed : Bool) (f : Faults) :
    Server × Option Reply :=
  let renamed := s.disk.rename f.renameFails r.src r.dst
  if renamed.2 then (s.onDisk renamed.1).complete i (if existed then 204 else 201) .move
  else s.answer i 500

def copyStart (s : Server) (i : Nat) (r : MoveCopy) (existed : Bool) (source : Entry Stamp)
    (f : Faults) : Server × Option Reply :=
  if source.isDir then s.answer i 501
  else if s.copyConn.isSome then s.answer i 503
  else if (fOpenRead f.openFails s.disk.card r.src).isNone then s.answer i 500
  else
    match s.disk.create f.createFails r.dst with
    | none => s.answer i 500
    | some d =>
        let lun := filesystemLunFromHostPath s.beeb.luns r.dst
        let s := { s.onDisk d with copyConn := some i, copyLun := lun }
        ((s.setLuns (filesystemHostLockLun s.beeb.luns lun true)).setJob i
          (.copy { target := r.dst, existed := existed }), none)

def routeDavMoveOrCopy (s : Server) (i : Nat) (isMove : Bool) (hdr : List UInt8) (rawpath : Str)
    (f : Faults) : Server × Option Reply :=
  let s := s.wsFsMutated
  match parseMoveCopy hdr rawpath with
  | .error status => s.answer i status
  | .ok r =>
      match checkMoveCopy s.beeb s.disk.card r with
      | .error status => s.answer i status
      | .ok source =>
          let existed := (fStat s.disk.card r.dst).isSome
          let s := s.onDisk (s.disk.clear r.dst)
          if isMove then s.moveNow i r existed f else s.copyStart i r existed source f

/-- What `f_read` and `f_write` do at one poll of a copy. -/
structure CopyChunk where
  chunk : Option (List UInt8)
  writeFails : Option Nat := none

def wsCopyStep (s : Server) (p : CopyChunk) : Server × Option Reply :=
  match s.copyConn with
  | none => (s, none)
  | some i =>
      match s.jobs i with
      | .copy j =>
          if s.copyLun.any s.beeb.luns.hostRevoke then
            ((s.onDisk ((s.disk.close j.target j.written).unlink j.target).1).wsCopySlotRelease
              i).wsFsMutated.answer i 423
          else
            match p.chunk with
            | none => ((s.onDisk (s.disk.close j.target j.written)).wsCopySlotRelease i).answer i 500
            | some bytes =>
                let bytes := bytes.take WS_READ_CHUNK
                let part := bytes.take (p.writeFails.getD bytes.length)
                let d := if bytes = [] then s.disk else s.disk.touch j.target
                if bytes ≠ [] ∧ p.writeFails.isSome then
                  ((s.onDisk (d.close j.target (j.written ++ part))).wsCopySlotRelease i).answer i 507
                else if bytes.length < WS_READ_CHUNK then
                  ((s.onDisk (d.close j.target (j.written ++ bytes))).wsCopySlotRelease
                    i).wsFsMutated.complete i (if j.existed then 204 else 201) .copy
                else ((s.onDisk d).setJob i (.copy { j with written := j.written ++ bytes }), none)
      | _ => (s, none)

def releaseFiles (s : Server) (i : Nat) : Server :=
  let s := match s.jobs i with
    | .put j => s.onDisk (putDiscard s.disk j j.sink.written)
    | .upload { part := some part, dir := dir, .. } =>
        let tmp := partPath (childPath dir part.name)
        s.onDisk ((s.disk.close tmp part.sink.written).unlink tmp).1
    | .copy j => s.onDisk (s.disk.close j.target j.written)
    | _ => s
  (s.wsCopySlotRelease i).setJob i .none

def connClose (s : Server) (i : Nat) : Server := releaseFiles s i

def connResetForNextRequest (s : Server) (i : Nat) : Server := releaseFiles s i

def wsErr (s : Server) (i : Nat) : Server := releaseFiles s i

end Server

/-! ### Events -/

inductive Request where
  | propfind (rawpath : Str) (depth1 : Bool) (names : List Str)
  | put (r : Server.PutRequest)
  | delete (rawpath : Str) (names : Str → List Str)
  | mkcol (rawpath : Str) (body : Bool)
  | moveOrCopy (isMove : Bool) (hdr : List UInt8) (rawpath : Str)
  | lock (rawpath : Str)
  | proppatch (rawpath : Str) (already : List UInt8) (remaining : Nat)
  | upload (rawpath : Str) (ctype : Option Str) (already : List UInt8)

inductive Event where
  | elapse (us : Nat)
  | outside (card : Card)
  | beeb (b : BeebState)
  | request (i : Nat) (r : Request) (f : Faults)
  | data (i : Nat) (bytes : List UInt8) (f : Faults)
  | poll (p : Server.CopyChunk)
  | close (i : Nat)
  | reset (i : Nat)
  | err (i : Nat)

namespace Server

def route (s : Server) (i : Nat) (f : Faults) : Request → Server × Option Reply
  | .propfind rawpath depth1 names => s.routeDavPropfind i rawpath depth1 names
  | .put r => s.routeDavPut i r f
  | .delete rawpath names => s.routeDavDelete i rawpath names
  | .mkcol rawpath body => s.routeDavMkcol i rawpath body f
  | .moveOrCopy isMove hdr rawpath => s.routeDavMoveOrCopy i isMove hdr rawpath f
  | .lock rawpath => s.routeDavLock i rawpath f
  | .proppatch rawpath already remaining => s.routeDavProppatch i rawpath already remaining
  | .upload rawpath ctype already => s.routeUpload i rawpath ctype already f

def consume (s : Server) (i : Nat) (bytes : List UInt8) (f : Faults) : Server × Option Reply :=
  match s.jobs i with
  | .put j => if j.answered then (s, none) else s.davPutConsume i j bytes f
  | .upload u => s.uploadConsume i u bytes f
  | .capture path remaining body => s.drainCapture i path remaining body bytes
  | _ => (s, none)

def react (s : Server) : Event → Server × Option Reply
  | .elapse us => ({ s with now := s.now + us }, none)
  | .outside card => (s.onDisk { s.disk with card := card }, none)
  | .beeb b => ({ s with beeb := b }, none)
  | .request i r f =>
      match s.jobs i with
      | .none => s.route i f r
      | _ => (s, none)
  | .data i bytes f => s.consume i bytes f
  | .poll p => s.wsCopyStep p
  | .close i => (s.connClose i, none)
  | .reset i => (s.connResetForNextRequest i, none)
  | .err i => (s.wsErr i, none)

def untouched (s : Server) : Server := s.onDisk { s.disk with touched := [] }

def step (s : Server) (e : Event) : Server := (s.untouched.react e).1

def reply (s : Server) (e : Event) : Option Reply := (s.untouched.react e).2

end Server

end Pi1MHz.Ws
