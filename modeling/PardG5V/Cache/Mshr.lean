import PardG5V.Cache.Blk

/-!
# Miss status registers

`hyper/mem/cache/mshr.hh` and `mshr.cc`. A register holds the requests that wait for one response:
the targets that the response completes, and the deferred ones that need another request.
`downstreamPending` is set and cleared by the cache below; what a register does to the registers
of the caches above is not modelled.
-/

namespace PardG5V

inductive TargetSource
  | fromCPU
  | fromSnoop
  | fromPrefetcher
deriving DecidableEq, Repr

structure Target where
  recvTime : Tick
  readyTime : Tick
  order : Nat
  pkt : Packet
  source : TargetSource
  markedPending : Bool
deriving DecidableEq, Repr

/-- `replaceUpgrade`: an upgrade that saw an invalidation becomes a request for
the block, or a store conditional that will fail. -/
def Packet.replaceUpgrade (pkt : Packet) : Packet :=
  match pkt.cmd with
  | .UpgradeReq => { pkt with cmd := .ReadExReq }
  | .SCUpgradeReq => { pkt with cmd := .SCUpgradeFailReq }
  | .StoreCondReq => { pkt with cmd := .StoreCondFailReq }
  | _ => pkt

structure TargetList where
  targets : List Target := []
  needsExclusive : Bool := false
  hasUpgrade : Bool := false
deriving DecidableEq, Repr

namespace TargetList

def resetFlags (l : TargetList) : TargetList :=
  { l with needsExclusive := false, hasUpgrade := false }

def isReset (l : TargetList) : Bool := !l.needsExclusive && !l.hasUpgrade

def add (l : TargetList) (pkt : Packet) (now readyTime : Tick) (order : Nat)
    (source : TargetSource) (markPending : Bool) : TargetList where
  targets := l.targets ++ [⟨now, readyTime, order, pkt, source, markPending⟩]
  needsExclusive := l.needsExclusive || (source != .fromSnoop && pkt.needsExclusive)
  hasUpgrade := l.hasUpgrade ||
    (source != .fromSnoop && (pkt.isUpgrade || pkt.cmd == .StoreCondReq))

def replaceUpgrades (l : TargetList) : TargetList :=
  if l.hasUpgrade then
    { l with
      targets := l.targets.map fun t => { t with pkt := t.pkt.replaceUpgrade }
      hasUpgrade := false }
  else l

end TargetList

structure MSHR where
  readyTime : Tick := 0
  isUncacheable : Bool := false
  downstreamPending : Bool := false
  pendingDirty : Bool := false
  postInvalidate : Bool := false
  postDowngrade : Bool := false
  order : Nat := 0
  guest : GuestID := 0
  addr : Addr := 0
  size : Nat := 0
  isSecure : Bool := false
  inService : Bool := false
  isForward : Bool := false
  targets : TargetList := {}
  deferredTargets : TargetList := {}
deriving DecidableEq, Repr

namespace MSHR

def needsExclusive (m : MSHR) : Bool := m.targets.needsExclusive

def getNumTargets (m : MSHR) : Nat :=
  m.targets.targets.length + m.deferredTargets.targets.length

def hasPostInvalidate (m : MSHR) : Except Abort Bool := do
  assertOr .notInService m.inService
  return m.postInvalidate

def hasPostDowngrade (m : MSHR) : Except Abort Bool := do
  assertOr .notInService m.inService
  return m.postDowngrade

def getTarget (m : MSHR) : Except Abort Target :=
  match m.targets.targets with
  | t :: _ => .ok t
  | [] => .error .assertion

def isForwardNoResponse (m : MSHR) : Bool :=
  match m.targets.targets with
  | t :: _ => m.getNumTargets == 1 && t.source == .fromCPU && !t.pkt.needsResponse
  | [] => false

def allocate (m : MSHR) (guest : GuestID) (addr : Addr) (size : Nat) (target : Packet)
    (now whenReady : Tick) (order : Nat) : Except Abort MSHR := do
  assert m.targets.isReset
  assert m.deferredTargets.isReset
  let source := if target.cmd = .HardPFReq then TargetSource.fromPrefetcher else .fromCPU
  return { m with
    guest, addr, size, order
    isSecure := target.isSecure
    readyTime := whenReady
    isForward := false
    isUncacheable := target.req.uncacheable
    inService := false
    downstreamPending := false
    targets := m.targets.add target now whenReady order source true }

def popTarget (m : MSHR) : MSHR :=
  { m with targets := { m.targets with targets := m.targets.targets.tail } }

/-- The register while it waits for the response to `pkt`, the packet as the bus
accepted it. -/
def serviced (m : MSHR) (pkt : Packet) : MSHR :=
  { m with
    inService := true
    pendingDirty := m.targets.needsExclusive || (!pkt.shared && pkt.memInhibit)
    postInvalidate := false
    postDowngrade := false }

/-- `markInService`: returns `true` when no response is expected, so that the
register is done. -/
def markInService (m : MSHR) (pkt : Packet) : Except Abort (MSHR × Bool) := do
  assertOr .notInService (!m.inService)
  return if m.isForwardNoResponse then (m.popTarget, true) else (m.serviced pkt, false)

def deallocate (m : MSHR) : Except Abort MSHR := do
  assert m.targets.targets.isEmpty
  assert m.deferredTargets.isReset
  return { m with targets := m.targets.resetFlags, inService := false }

/-- `allocateTarget`: a request that the response in flight cannot serve is
deferred. -/
def allocateTarget (m : MSHR) (pkt : Packet) (now whenReady : Tick) (order : Nat) :
    Except Abort MSHR := do
  assert (pkt.cmd != .HardPFReq)
  return if m.inService && (!m.deferredTargets.targets.isEmpty || m.postInvalidate ||
      (pkt.needsExclusive && (!m.pendingDirty || m.postDowngrade || m.isForward))) then
      let pkt := if m.postInvalidate then pkt.replaceUpgrade else pkt
      { m with deferredTargets := m.deferredTargets.add pkt now whenReady order .fromCPU true }
    else
      { m with targets := m.targets.add pkt now whenReady order .fromCPU (!m.inService) }

/-- Queues a copy of a snoop as a target where the answer has to wait for the
response. -/
def holdSnoop (m : MSHR) (pkt : Packet) (now : Tick) (order : Nat) : MSHR × Packet :=
  if m.pendingDirty || pkt.isInvalidate then
    ({ m with
        targets := m.targets.add (pkt.copy true) now now order .fromSnoop
          (m.downstreamPending && m.targets.needsExclusive)
        postInvalidate := m.postInvalidate || pkt.needsExclusive },
      if m.pendingDirty then { pkt with memInhibit := true, supplyExclusive := true } else pkt)
  else (m, pkt)

/-- The part of `handleSnoop` for a snoop that the request precedes and that
has not been cut off by an earlier invalidation. -/
def queueSnoop (m : MSHR) (pkt : Packet) (now : Tick) (order : Nat) : MSHR × Packet :=
  let held := m.holdSnoop pkt now order
  if pkt.needsExclusive then held
  else ({ held.1 with postDowngrade := true }, { held.2 with shared := true })

/-- `handleSnoop`: the register and the snoop packet it leaves, and whether the
snoop is dealt with. -/
def handleSnoop (m : MSHR) (pkt : Packet) (now : Tick) (order : Nat) : MSHR × Packet × Bool :=
  if !m.inService || (pkt.expressSnoop && m.downstreamPending) then
    -- the snooped request precedes this one, whose upgrades have lost their copy
    if pkt.needsExclusive then
      ({ m with
          targets := m.targets.replaceUpgrades
          deferredTargets := m.deferredTargets.replaceUpgrades }, pkt, false)
    else (m, pkt, false)
  else
    let m := if pkt.needsExclusive then
        { m with deferredTargets := m.deferredTargets.replaceUpgrades } else m
    if m.postInvalidate then (m, pkt, true)
    else
      let (m, pkt) := m.queueSnoop pkt now order
      (m, pkt, true)

/-- `promoteDeferredTargets`, or `none` when nothing was deferred. -/
def promoteDeferredTargets (m : MSHR) (now : Tick) : Except Abort (Option MSHR) := do
  assert m.targets.targets.isEmpty
  return match m.deferredTargets.targets with
    | [] => none
    | t :: _ => some { m with
        targets := m.deferredTargets
        deferredTargets := m.targets.resetFlags
        order := t.order
        readyTime := max now t.readyTime }

/-- `handleFill`: an exclusive response also serves the deferred targets. -/
def handleFill (m : MSHR) (pkt : Packet) : Except Abort MSHR :=
  if pkt.shared then .ok m
  else do
    let inval ← m.hasPostInvalidate
    let downgrade ← m.hasPostDowngrade
    if !(inval || downgrade) && m.deferredTargets.needsExclusive then
      assert (!m.targets.needsExclusive)
      assert (!m.downstreamPending)
      return { m with
        targets := { m.targets with
          needsExclusive := true
          targets := m.targets.targets ++ m.deferredTargets.targets }
        deferredTargets := {} }
    else
      return m

end MSHR

end PardG5V
