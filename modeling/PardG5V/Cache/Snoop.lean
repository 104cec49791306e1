import PardG5V.Cache.State

/-!
# Snoops

The snoop path of `cache_impl.hh`: `handleSnoop`, `recvTimingSnoopReq` and
`recvAtomicSnoop`. What the caches above answer to a forwarded snoop is an input.
-/

namespace PardG5V

/-- What the caches above do to a snoop that is forwarded in timing mode: they set
flags on the forwarded packet. -/
structure SnoopAnswer where
  memInhibit : Bool := false
  shared : Bool := false
deriving DecidableEq, Repr

/-- What the caches above do to a snoop that is forwarded in atomic mode: they set
the shared flag, or answer in the packet with the data they supply. -/
structure AtomicAnswer where
  shared : Bool := false
  supply : Option (List Byte × Bool) := none
deriving DecidableEq, Repr

/-- The snoop packet as the caches above leave it in atomic mode. -/
def AtomicAnswer.apply (answer : AtomicAnswer) (pkt : Packet) : Packet :=
  let pkt := { pkt with shared := pkt.shared || answer.shared }
  match answer.supply with
  | none => pkt
  | some (bytes, exclusive) =>
    { pkt with
      cmd := pkt.cmd.responseCommand
      memInhibit := true
      supplyExclusive := pkt.supplyExclusive || exclusive
      data := some bytes }

namespace CacheM

variable {cfg : CacheConfig}

/-- The first part of `handleSnoop` in timing mode: a copy of the snoop goes up,
and the flags it comes back with are copied. -/
def forwardTiming (cfg : CacheConfig) (pkt : Packet) (above : SnoopAnswer) : Except Abort Packet :=
  if cfg.forwardSnoops then do
    assert (!(above.memInhibit && pkt.memInhibit))
    return { pkt with
      memInhibit := pkt.memInhibit || above.memInhibit, shared := pkt.shared || above.shared }
  else .ok pkt

/-- The first part of `handleSnoop` in atomic mode: the snoop itself goes up. -/
def forwardAtomic (cfg : CacheConfig) (pkt : Packet) (above : AtomicAnswer) : Except Abort Packet :=
  if cfg.forwardSnoops then do
    let answered := above.apply pkt
    assert (pkt.memInhibit || !answered.memInhibit || answered.isResponse)
    return answered
  else .ok pkt

def snoopChecks (pkt : Packet) (isTiming isDeferred pendingInval : Bool) : Except Abort Unit := do
  assert (!(isDeferred && !isTiming))
  assert (!(pendingInval && !isDeferred))
  assert pkt.isRequest

def validBlk (s : Cache cfg) : Option (BlkPtr cfg.assoc) → Option (BlkPtr cfg.assoc)
  | none => none
  | some p => if (s.store.blk p).isValid then some p else none

/-- The last part of `handleSnoop`, for the snoop `fwd` that came back from above. -/
def snoopBlk (fwd pkt : Packet) (blk : Option (BlkPtr cfg.assoc))
    (isTiming isDeferred pendingInval : Bool) (reply : Tick → Packet → CacheM cfg Unit) :
    CacheM cfg Packet := do
  let s ← get
  match validBlk s blk with
  | none => return fwd
  | some p => do
    let (left, response) ← onStore
      (.snoopHit fwd p pkt.isInvalidate pkt.needsExclusive isTiming isDeferred pendingInval)
    match response with
    | none => return left
    | some r => do
      reply s.curTick r
      return left

/-- `handleSnoop` in timing mode; returns the snoop packet. -/
def handleTimingSnoop (pkt : Packet) (blk : Option (BlkPtr cfg.assoc))
    (isDeferred pendingInval : Bool) (above : SnoopAnswer) : CacheM cfg Packet := do
  check (snoopChecks pkt true isDeferred pendingInval)
  let fwd ← check (forwardTiming cfg pkt above)
  snoopBlk fwd pkt blk true isDeferred pendingInval fun now r =>
    schedTimingSnoopResp r (cfg.clockEdge now cfg.hitLatency)

/-- `handleSnoop` in atomic mode; returns the snoop packet. -/
def handleAtomicSnoop (pkt : Packet) (blk : Option (BlkPtr cfg.assoc)) (above : AtomicAnswer) :
    CacheM cfg Packet := do
  check (snoopChecks pkt false false false)
  let fwd ← check (forwardAtomic cfg pkt above)
  snoopBlk fwd pkt blk false false false fun _ r => onStore (.emit (.atomicResp r))

/-- The part of `recvTimingSnoopReq` for a snoop that hits an entry of the write
buffer: the buffered data answers it, and an invalidation discards the entry. -/
def snoopWriteBuffer (pkt : Packet) : CacheM cfg Packet := do
  let s ← get
  match s.writeBuffer.findMatches pkt.guestID (cfg.blkAlign pkt.addr) pkt.isSecure with
  | [] => return pkt
  | i :: rest => do
    let m := s.writeBuffer.registers i
    check (assert rest.isEmpty)
    check (assert (!m.isUncacheable))
    check (assert (m.getNumTargets == 1))
    let target ← check m.getTarget
    check (assert (target.pkt.cmd == .Writeback))
    check (assert (!pkt.memInhibit))
    check (assert (!pkt.needsExclusive || pkt.isInvalidate))
    -- a shared copy is no longer the only one
    let snooped := { pkt with memInhibit := true, shared := pkt.shared || !pkt.needsExclusive }
    let target := { target with pkt := { target.pkt with
      supplyExclusive := target.pkt.supplyExclusive && pkt.needsExclusive } }
    let m := { m with targets := { m.targets with targets := [target] } }
    modify fun s => { s with writeBuffer := s.writeBuffer.setReg i m }
    let bytes ← check target.pkt.getPtr
    let response ← check (CacheBlk.supplyResponse cfg snooped bytes false false)
    schedTimingSnoopResp response (cfg.clockEdge s.curTick cfg.hitLatency)
    Prog.when pkt.isInvalidate (markInService .writeBuffer i target.pkt)
    return snooped

/-- Whether a snoop is looked at: cacheable, not a writeback, and in range. -/
def snoopRelevant (cfg : CacheConfig) (pkt : Packet) : Bool :=
  !pkt.req.uncacheable && pkt.cmd != .Writeback && cfg.addrRanges.any (·.contains pkt.addr)

/-- `recvTimingSnoopReq` behind the filter of private caches. -/
def processTimingSnoop (pkt : Packet) (above : SnoopAnswer) : CacheM cfg Packet := do
  check (assert (!cfg.bypassCaches))
  if snoopRelevant cfg pkt then
    let s ← get
    let hit := s.store.tags.findBlock pkt.guestID pkt.addr pkt.isSecure
    let blk := hit.map (BlkPtr.way (cfg.extractSet pkt.addr))
    match s.mshrQueue.findMatch pkt.guestID (cfg.blkAlign pkt.addr) pkt.isSecure with
    | none => do
      let left ← snoopWriteBuffer pkt
      handleTimingSnoop left blk false false above
    | some i => do
      let (m, left, handled) := (s.mshrQueue.registers i).handleSnoop pkt s.curTick s.order
      modify fun s => { s with mshrQueue := s.mshrQueue.setReg i m, order := s.order + 1 }
      if handled then return left
      else
        let left ← snoopWriteBuffer left
        handleTimingSnoop left blk false false above
  else
    return pkt

/-- `recvTimingSnoopReq`; returns the snoop packet with the flags it is left with. -/
def recvTimingSnoopReq (pkt : Packet) (above : SnoopAnswer) : CacheM cfg Packet :=
  if cfg.isPrivate && pkt.guestID != cfg.guestID then return pkt
  else processTimingSnoop pkt above

/-- `recvAtomicSnoop` behind the filter of private caches. -/
def processAtomicSnoop (pkt : Packet) (above : AtomicAnswer) : CacheM cfg Packet :=
  if pkt.req.uncacheable || pkt.cmd == .Writeback then return pkt
  else do
    let s ← get
    let hit := s.store.tags.findBlock pkt.guestID pkt.addr pkt.isSecure
    handleAtomicSnoop pkt (hit.map (BlkPtr.way (cfg.extractSet pkt.addr))) above

/-- `recvAtomicSnoop`; returns the snoop packet, which may have become a response. -/
def recvAtomicSnoop (pkt : Packet) (above : AtomicAnswer) : CacheM cfg Packet := do
  check (assert (!cfg.bypassCaches))
  if cfg.isPrivate && pkt.guestID != cfg.guestID then return pkt
  else processAtomicSnoop pkt above

end CacheM

end PardG5V
