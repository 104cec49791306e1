import PardG5V.Cache.Snoop

/-!
# Timing mode

The request and response paths of `cache_impl.hh` in timing mode, and the send
event of the memory side, which picks the next register to issue. What the
neighbours answer is an input: whether the bus accepts a packet and which flags it
comes back with, and the answers of the caches above to forwarded snoops.
-/

namespace PardG5V

namespace CacheM

variable {cfg : CacheConfig}

/-! ## Requests -/

/-- The miss part of `recvTimingReq` when a register already waits for the block. -/
def joinMiss (i : Nat) (pkt : Packet) (time : Tick) : CacheM cfg Unit := do
  check (assert (pkt.req.masterId < cfg.maxMasters))
  let s ← get
  let m ← check ((s.mshrQueue.registers i).allocateTarget pkt s.curTick time s.order)
  modify fun s => { s with mshrQueue := s.mshrQueue.setReg i m, order := s.order + 1 }
  Prog.when (m.getNumTargets == cfg.numTarget) do
    modify fun s => { s with noTargetMSHR := some i }
    setBlocked .noTargets

/-- The miss part of `recvTimingReq` when no register waits for the block. A block
that is valid but cannot serve the request is made unreadable. -/
def startMiss (pkt : Packet) (hit : Option (Fin cfg.assoc)) (time : Tick) : CacheM cfg Unit := do
  check (assert (pkt.req.masterId < cfg.maxMasters))
  if pkt.cmd = .Writeback then allocateWriteBuffer pkt time
  else
    let s ← get
    match validBlk s (hit.map (BlkPtr.way (cfg.extractSet pkt.addr))) with
    | none => allocateMissBuffer pkt time
    | some p => do
      let blk := s.store.blk p
      check (assert (pkt.needsExclusive && !blk.isWritable))
      onStore (.changeBlk .other p blk.clearReadable none)
      allocateMissBuffer pkt time

def timingMiss (pkt : Packet) (hit : Option (Fin cfg.assoc)) (time : Tick) : CacheM cfg Unit := do
  let pkt := { pkt with busFirstWordDelay := 0, busLastWordDelay := 0 }
  let s ← get
  match s.mshrQueue.findMatch pkt.guestID (cfg.blkAlign pkt.addr) pkt.isSecure with
  | some i => joinMiss i pkt time
  | none => startMiss pkt hit time

def timingHit (pkt : Packet) (lat : Nat) : CacheM cfg Unit :=
  Prog.when pkt.needsResponse do
    let s ← get
    let resp ← check pkt.makeResponse
    schedTimingResp { resp with busFirstWordDelay := 0, busLastWordDelay := 0 }
      (cfg.clockEdge s.curTick lat)

def timingUncacheable (pkt : Packet) (time : Tick) : CacheM cfg Unit := do
  onStore (.uncacheableFlush pkt)
  let pkt := { pkt with busFirstWordDelay := 0, busLastWordDelay := 0 }
  if pkt.isWrite && !pkt.isRead then
    allocateWriteBuffer pkt time
    check (assert pkt.needsResponse)
  else
    allocateUncachedReadBuffer pkt time
    check (assert pkt.needsResponse)

/-- `recvTimingReq` for a request that a cache above answers: it only goes on as
an express snoop, to invalidate copies below. -/
def timingInhibited (pkt : Packet) : CacheM cfg Unit := do
  check (assert (!pkt.req.uncacheable))
  Prog.when (pkt.needsExclusive && !pkt.supplyExclusive) do
    onStore (.emit (.sentTiming { pkt.copy true with
      busFirstWordDelay := 0, busLastWordDelay := 0, expressSnoop := true, memInhibit := true }))

def timingCacheable (pkt : Packet) (time : Tick) : CacheM cfg Unit := do
  let s ← get
  let r ← onStore (.access s.mshrQueue pkt s.curTick)
  if r.satisfied then
    timingHit r.pkt r.lat
    Prog.forEach (fun wb => allocateWriteBuffer wb time) r.writebacks
  else
    timingMiss r.pkt r.blk time
    Prog.forEach (fun wb => allocateWriteBuffer wb time) r.writebacks

def recvTimingReq (pkt : Packet) : CacheM cfg Unit := do
  let s ← get
  let time := cfg.clockEdge s.curTick cfg.hitLatency
  check (assert pkt.isRequest)
  if cfg.bypassCaches then onStore (.emit (.sentTiming pkt))
  else if pkt.memInhibit then timingInhibited pkt
  else if pkt.req.uncacheable then timingUncacheable pkt time
  else timingCacheable pkt time

/-- `CpuSidePort::recvTimingReq`: `false` means that the request was refused. -/
def cpuSideReq (pkt : Packet) : CacheM cfg Bool := do
  let s ← get
  if !pkt.memInhibit && s.cpuSide.blocked then
    check (assert (!cfg.bypassCaches))
    modify fun s => { s with cpuSide := { s.cpuSide with mustSendRetry := true } }
    return false
  else
    recvTimingReq pkt
    return true

/-! ## Responses -/

def isStoreCondKind (cmd : MemCmd) : Bool :=
  cmd == .StoreCondReq || cmd == .StoreCondFailReq || cmd == .SCUpgradeFailReq

/-- How a response answers a target from the CPU side: by the block it filled, as
a failed store conditional, or by forwarding. Also returns the extra delay. -/
def answerTarget (m : MSHR) (pkt : Packet) (isFill : Bool) (blk : Option (BlkPtr cfg.assoc))
    (initialOffset : Nat) (target : Packet) : CacheM cfg (Packet × Nat) :=
  if isFill then do
    let downgrade ← check m.hasPostDowngrade
    match blk with
    | none => check (.error .assertion)
    | some p => do
      let answered ← onStore (.satisfyCpuSideRequest target p true downgrade)
      check (assert (!answered.req.uncacheable))
      check (assert (answered.req.masterId < cfg.maxMasters))
      return (answered, if cfg.extractBlkOffset answered.addr = initialOffset
        then pkt.busFirstWordDelay else pkt.busLastWordDelay)
  else if pkt.cmd = .UpgradeFailResp then do
    check (assertOr .targetKind (isStoreCondKind target.cmd))
    return (target.setExtraData 0, pkt.busLastWordDelay)
  else if pkt.isRead && !pkt.isError then do
    let bytes ← check pkt.getPtr
    let answered ← check (target.setData bytes)
    return (answered, pkt.busLastWordDelay)
  else
    return (target, pkt.busLastWordDelay)

/-- The response command: an error is copied, and a plain read response becomes an
invalidating one when the block is to be given up at once. -/
def respondCmd (m : MSHR) (pkt : Packet) (resp : Packet) : Except Abort Packet := do
  let resp := if pkt.isError then { resp with cmd := pkt.cmd } else resp
  if resp.cmd = .ReadResp then
    let inval ← (if pkt.isInvalidate then pure true else m.hasPostInvalidate)
    return if inval then { resp with cmd := .ReadRespWithInvalidate } else resp
  else
    return resp

/-- A block that was brought in for a prefetch is marked so. -/
def markPrefetched (blk : Option (BlkPtr cfg.assoc)) : CacheM cfg Unit :=
  match blk with
  | none => pure ()
  | some p => do
    let s ← get
    let b := s.store.blk p
    onStore (.changeBlk .other p { b with status := { b.status with hwPrefetched := true } } none)

def completeTarget (m : MSHR) (pkt : Packet) (isFill : Bool) (blk : Option (BlkPtr cfg.assoc))
    (initialOffset : Nat) (above : SnoopAnswer) (t : Target) : CacheM cfg Unit :=
  match t.source with
  | .fromCPU => do
    let (answered, delay) ← answerTarget m pkt isFill blk initialOffset t.pkt
    let resp ← check answered.makeResponse
    let resp ← check (respondCmd m pkt resp)
    let s ← get
    schedTimingResp { resp with busFirstWordDelay := 0, busLastWordDelay := 0 }
      (cfg.clockEdge s.curTick cfg.responseLatency + delay)
  | .fromPrefetcher => do
    check (assert (t.pkt.cmd == .HardPFReq))
    markPrefetched blk
  | .fromSnoop => do
    check (assert (!pkt.isError))
    let inval ← check m.hasPostInvalidate
    check (assert (!(pkt.isInvalidate && !inval)))
    let _ ← handleTimingSnoop t.pkt blk true inval above
    pure ()

/-- The target loop of `recvTimingResp`; `above` has the answers to the snoops
that it forwards, by the number of targets that are left. -/
def completeTargets (m : MSHR) (pkt : Packet) (isFill : Bool) (blk : Option (BlkPtr cfg.assoc))
    (initialOffset : Nat) (above : Nat → SnoopAnswer) : List Target → CacheM cfg Unit
  | [] => pure ()
  | t :: ts => do
    completeTarget m pkt isFill blk initialOffset (above ts.length) t
    completeTargets m pkt isFill blk initialOffset above ts

/-- What `recvTimingResp` does to the block after the targets. -/
def settleBlk (m : MSHR) (pkt : Packet) (blk : Option (BlkPtr cfg.assoc)) : CacheM cfg Unit := do
  let s ← get
  match validBlk s blk with
  | none => pure ()
  | some p => do
    let b := s.store.blk p
    let inval ← check (if pkt.isInvalidate then pure true else m.hasPostInvalidate)
    if inval then
      check (assert (p != .temp))
      onStore (.takeOut (.response pkt) p b none)
    else
      let downgrade ← check m.hasPostDowngrade
      Prog.when downgrade (onStore (.changeBlk .other p b.clearWritable none))

def hideBlk (blk : Option (BlkPtr cfg.assoc)) : CacheM cfg Unit :=
  match blk with
  | none => pure ()
  | some p => do
    let s ← get
    onStore (.changeBlk .other p (s.store.blk p).clearReadable none)

/-- The end of a register in `recvTimingResp`: deferred targets make it pending
again, and otherwise it is freed. -/
def retireMSHR (q : QueueIndex) (i : Nat) (pkt : Packet) (blk : Option (BlkPtr cfg.assoc))
    (wasFull : Bool) : CacheM cfg Unit := do
  let s ← get
  let m := (s.queue q).registers i
  match ← check (m.promoteDeferredTargets s.curTick) with
  | some m' => do
    hideBlk blk
    let mq ← check (((s.queue q).setReg i m').markPending i)
    modify fun s => s.setQueue q mq
    requestMemSideBus (cfg.clockEdge s.curTick 0 + pkt.busLastWordDelay)
  | none => do
    let mq ← check ((s.queue q).deallocate i)
    modify fun s => s.setQueue q mq
    Prog.when (wasFull && !mq.isFull) (clearBlocked q.blockedCause)

/-- The end of `recvTimingResp` for `tempBlock`: it is written back and cleared. -/
def dropTempBlock (blk : Option (BlkPtr cfg.assoc)) (time : Tick) : CacheM cfg Unit :=
  Prog.when (blk == some .temp) do
    let s ← get
    Prog.when s.store.tempBlock.isDirty do
      let writeback ← onStore (.writebackBlk .temp)
      allocateWriteBuffer writeback time
    let s ← get
    onStore (.changeBlk .other .temp s.store.tempBlock.invalidate none)

/-- The fill of `recvTimingResp`: the register, the block and the writebacks. -/
def fillResponse (q : QueueIndex) (i : Nat) (m : MSHR) (pkt : Packet)
    (hit : Option (BlkPtr cfg.assoc)) (isFill : Bool) :
    CacheM cfg (MSHR × Option (BlkPtr cfg.assoc) × List Packet) := do
  if isFill && !pkt.isError then
    let m ← check (m.handleFill pkt)
    modify fun s => s.setQueue q ((s.queue q).setReg i m)
    let s ← get
    let (p, writebacks) ← onStore (.handleFill s.mshrQueue pkt hit s.curTick)
    return (m, some p, writebacks)
  else
    return (m, hit, [])

/-- A response to the register whose target list was full lets requests in again. -/
def releaseTargets (q : QueueIndex) (i : Nat) : CacheM cfg Unit := do
  let s ← get
  Prog.when (q == .mshrs && s.noTargetMSHR == some i) do
    clearBlocked .noTargets
    modify fun s => { s with noTargetMSHR := none }

/-- The end of `recvTimingResp`, when all targets are answered. -/
def finishMSHR (q : QueueIndex) (i : Nat) (m : MSHR) (pkt : Packet)
    (blk : Option (BlkPtr cfg.assoc)) (writebacks : List Packet) (wasFull : Bool) (time : Tick) :
    CacheM cfg Unit := do
  let m := { m with targets := { m.targets with targets := [] } }
  modify fun s => s.setQueue q ((s.queue q).setReg i m)
  settleBlk m pkt blk
  retireMSHR q i pkt blk wasFull
  Prog.forEach (fun wb => allocateWriteBuffer wb time) writebacks
  dropTempBlock blk time

/-- Whether a response brings a block in. -/
def fillsBlock (m : MSHR) (pkt : Packet) : Bool :=
  !m.isForward && (pkt.isRead || pkt.cmd == .UpgradeResp)

def completeMSHR (q : QueueIndex) (i : Nat) (pkt : Packet) (above : Nat → SnoopAnswer) :
    CacheM cfg Unit := do
  let s ← get
  releaseTargets q i
  let m := (s.queue q).registers i
  let first ← check m.getTarget
  check (assert (pkt.req.masterId < cfg.maxMasters))
  let hit := s.store.tags.findBlock pkt.guestID pkt.addr pkt.isSecure
  let isFill := fillsBlock m pkt
  let (m, blk, writebacks) ←
    fillResponse q i m pkt (hit.map (BlkPtr.way (cfg.extractSet pkt.addr))) isFill
  completeTargets m pkt isFill blk (cfg.extractBlkOffset first.pkt.addr) above m.targets.targets
  finishMSHR q i m pkt blk writebacks (s.queue q).isFull (cfg.clockEdge s.curTick cfg.hitLatency)

def recvTimingResp (pkt : Packet) (above : Nat → SnoopAnswer) : CacheM cfg Unit := do
  check (assert pkt.isResponse)
  match pkt.senderState with
  | .mshr q i :: _ => completeMSHR q i pkt above
  | _ => check (.error .assertion)

/-- `recvTimingSnoopResp`: a response from above to a forwarded snoop. -/
def recvTimingSnoopResp (pkt : Packet) (above : Nat → SnoopAnswer) : CacheM cfg Unit := do
  check (assert pkt.isResponse)
  check (assert (!cfg.bypassCaches))
  match pkt.senderState with
  | .forwardResponse :: rest => do
    let s ← get
    schedTimingSnoopResp
      { pkt with senderState := rest, busFirstWordDelay := 0, busLastWordDelay := 0 }
      (cfg.clockEdge s.curTick cfg.hitLatency)
  | _ => do
    check (assert (pkt.cmd == .HardPFResp))
    recvTimingResp pkt above

end CacheM

end PardG5V
