import PardG5V.Cache.Store
import PardG5V.Mem.PacketQueue

/-!
# The state of a cache

`hyper/mem/cache/base.hh` and `base.cc`: the two register queues, the ports with
their packet queues, and the back pressure between them. The prefetcher is left
out, since the constructor of `Cache` panics when there is one.
-/

namespace PardG5V

inductive BlockedCause
  | noMSHRs
  | noWBBuffers
  | noTargets
deriving DecidableEq, Repr

def QueueIndex.blockedCause : QueueIndex → BlockedCause
  | .mshrs => .noMSHRs
  | .writeBuffer => .noWBBuffers

/-- `BaseCache::CacheSlavePort`; `retryEvent` is the tick of the retry event. -/
structure CpuSidePort where
  queue : PacketQueue := {}
  blocked : Bool := false
  mustSendRetry : Bool := false
  retryEvent : Option Tick := none
deriving DecidableEq, Repr

namespace CpuSidePort

def setBlocked (port : CpuSidePort) : Except Abort CpuSidePort := do
  assert (!port.blocked)
  return { port with
    blocked := true
    mustSendRetry := port.mustSendRetry || port.retryEvent.isSome
    retryEvent := none }

def clearBlocked (port : CpuSidePort) (now : Tick) : Except Abort CpuSidePort := do
  assert port.blocked
  return if port.mustSendRetry then
      { port with blocked := false, mustSendRetry := false, retryEvent := some (now + 1) }
    else { port with blocked := false }

end CpuSidePort

/-- `Cache`. `outstanding` has the packets that the memory side accepted and has
not answered yet; the source keeps them in the objects below. -/
structure Cache (cfg : CacheConfig) where
  store : Store cfg
  mshrQueue : MSHRQueue
  writeBuffer : MSHRQueue
  cpuSide : CpuSidePort := {}
  memSide : PacketQueue := {}
  blocked : List BlockedCause := []
  order : Nat := 0
  noTargetMSHR : Option Nat := none
  outstanding : List Packet := []
  curTick : Tick := 0

namespace Cache

variable {cfg : CacheConfig}

def initial (cfg : CacheConfig) (waymasks : List (BitVec 64)) : Cache cfg where
  store := .initial cfg waymasks
  mshrQueue := .initial cfg.mshrs 4
  writeBuffer := .initial cfg.writeBuffers (cfg.mshrs + 1000)

def queue (s : Cache cfg) : QueueIndex → MSHRQueue
  | .mshrs => s.mshrQueue
  | .writeBuffer => s.writeBuffer

def setQueue (s : Cache cfg) (q : QueueIndex) (mq : MSHRQueue) : Cache cfg :=
  match q with
  | .mshrs => { s with mshrQueue := mq }
  | .writeBuffer => { s with writeBuffer := mq }

end Cache

abbrev CacheM (cfg : CacheConfig) := Prog Abort (Cache cfg)

namespace CacheM

variable {cfg : CacheConfig} {α : Type} {s s' : Cache cfg} {a : α} {x : Except Abort α}

def onStore (m : StoreM cfg α) : CacheM cfg α :=
  Prog.zoom (·.store) (fun t s => { s with store := t }) m

def check (x : Except Abort α) : CacheM cfg α := liftM x

@[simp] theorem onStore_eq_ok {m : StoreM cfg α} :
    onStore m s = .ok (a, s') ↔ ∃ t, m s.store = .ok (a, t) ∧ { s with store := t } = s' :=
  Prog.zoom_eq_ok

@[simp] theorem check_eq_ok : check x s = .ok (a, s') ↔ x = .ok a ∧ s = s' := Prog.lift_eq_ok

theorem check_bind_eq_ok {β : Type} {f : α → CacheM cfg β}
    {b : β} : (check x >>= f) s = .ok (b, s') ↔ ∃ a, x = .ok a ∧ f a s = .ok (b, s') :=
  Prog.lift_bind_eq_ok

def setBlocked (cause : BlockedCause) : CacheM cfg Unit := do
  let s ← get
  let port ← check (if s.blocked.isEmpty then s.cpuSide.setBlocked else pure s.cpuSide)
  modify fun s => { s with cpuSide := port, blocked := cause :: s.blocked.filter (· != cause) }

def clearBlocked (cause : BlockedCause) : CacheM cfg Unit := do
  let s ← get
  let blocked := s.blocked.filter (· != cause)
  let port ← check (if blocked.isEmpty then s.cpuSide.clearBlocked s.curTick else pure s.cpuSide)
  modify fun s => { s with cpuSide := port, blocked := blocked }

def requestMemSideBus (time : Tick) : CacheM cfg Unit := do
  let s ← get
  let q ← check (s.memSide.schedSendEvent time)
  modify fun s => { s with memSide := q }

def schedTimingResp (pkt : Packet) (tick : Tick) : CacheM cfg Unit := do
  let s ← get
  let q ← check (s.cpuSide.queue.schedSendTiming s.curTick pkt tick false)
  modify fun s => { s with cpuSide := { s.cpuSide with queue := q } }
  onStore (.emit (.cpuResp pkt))

def schedTimingSnoopResp (pkt : Packet) (tick : Tick) : CacheM cfg Unit := do
  let s ← get
  let q ← check (s.memSide.schedSendTiming s.curTick pkt tick true)
  modify fun s => { s with memSide := q }
  onStore (.emit (.snoopResp pkt))

/-- `allocateBufferInternal`, which always requests the bus here. -/
def allocateBufferInternal (q : QueueIndex) (addr : Addr) (size : Nat) (pkt : Packet)
    (time : Tick) : CacheM cfg Unit := do
  let s ← get
  let (mq, _) ← check ((s.queue q).allocate pkt.guestID addr size pkt s.curTick time s.order)
  modify fun s => { s.setQueue q mq with order := s.order + 1 }
  Prog.when mq.isFull (setBlocked q.blockedCause)
  requestMemSideBus time

def allocateMissBuffer (pkt : Packet) (time : Tick) : CacheM cfg Unit := do
  check (assert (!pkt.req.uncacheable))
  allocateBufferInternal .mshrs (cfg.blkAlign pkt.addr) cfg.blkSize pkt time

/-- A register covers some of the bytes from `addr` to `addr + size`, for the same
guest and security. -/
def meets (m : MSHR) (guest : GuestID) (addr : Addr) (size : Nat) (isSecure : Bool) : Bool :=
  m.guest == guest && m.isSecure == isSecure && decide (m.addr.toNat < addr.toNat + size) &&
    decide (addr.toNat < m.addr.toNat + m.size)

/-- A register of the miss queue stands in the way of a write: it covers some of
it, and its request is still to be issued or to be repeated. -/
def standsInWay (m : MSHR) (guest : GuestID) (addr : Addr) (size : Nat) (isSecure : Bool) : Bool :=
  meets m guest addr size isSecure && (!m.inService || !m.deferredTargets.targets.isEmpty)

/-- `allocateWriteBuffer`. The log also says whether an older miss stands in the
way of the write. -/
def allocateWriteBuffer (pkt : Packet) (time : Tick) : CacheM cfg Unit := do
  check (assert (pkt.isWrite && !pkt.isRead))
  let s ← get
  onStore (.emit (.buffered pkt (s.mshrQueue.allocatedList.any fun i =>
    standsInWay (s.mshrQueue.registers i) pkt.guestID pkt.addr pkt.size pkt.isSecure)))
  allocateBufferInternal .writeBuffer pkt.addr pkt.size pkt time

def allocateUncachedReadBuffer (pkt : Packet) (time : Tick) : CacheM cfg Unit := do
  check (assert pkt.req.uncacheable)
  check (assert pkt.isRead)
  allocateBufferInternal .mshrs pkt.addr pkt.size pkt time

def markInService (q : QueueIndex) (i : Nat) (pkt : Packet) : CacheM cfg Unit := do
  let s ← get
  let mq ← check ((s.queue q).markInService i pkt)
  modify fun s => s.setQueue q mq
  Prog.when ((s.queue q).isFull && !mq.isFull) (clearBlocked q.blockedCause)

end CacheM

end PardG5V
