import PardG5V.Cache.Timing

/-!
# Issuing requests

`getNextMSHR`, `getBusPacket`, `getTimingPacket` and the send event of the memory
side of `cache_impl.hh`. The bus accepts or refuses the packet it is offered, and
the caches on it may set flags on an accepted one before it returns.
-/

namespace PardG5V

/-- What the bus does with a packet: whether it accepts it, and the flags that
other caches set on it. -/
structure BusAnswer where
  accepts : Bool
  shared : Bool := false
  memInhibit : Bool := false
deriving DecidableEq, Repr

namespace Cache

variable {cfg : CacheConfig} {s : Cache cfg} {q : QueueIndex} {i : Nat}

/-- The choice of `getNextMSHR` when both queues are ready: a miss goes first unless the write
buffer is full, and conflicts with the other queue are looked for. -/
def chooseMSHR (s : Cache cfg) (miss write : Nat) : QueueIndex × Nat :=
  if s.writeBuffer.isFull && s.writeBuffer.inServiceEntries == 0 then
    let w := s.writeBuffer.registers write
    match s.mshrQueue.findPending w.guest w.addr w.size w.isSecure with
    | none => (.writeBuffer, write)
    | some i => if (s.mshrQueue.registers i).order < w.order then (.mshrs, i)
        else (.writeBuffer, write)
  else
    let m := s.mshrQueue.registers miss
    match s.writeBuffer.findPending m.guest m.addr m.size m.isSecure with
    | none => (.mshrs, miss)
    | some i => (.writeBuffer, i)

def getNextMSHR (s : Cache cfg) : Option (QueueIndex × Nat) :=
  match s.mshrQueue.getNextMSHR s.curTick, s.writeBuffer.getNextMSHR s.curTick with
  | some miss, none => some (.mshrs, miss)
  | none, some write => some (.writeBuffer, write)
  | some miss, some write => some (s.chooseMSHR miss write)
  | none, none => none

theorem getNextMSHR_cases (h : s.getNextMSHR = some (q, i)) :
    (q = .mshrs ∧ s.mshrQueue.getNextMSHR s.curTick = some i ∧
        (s.writeBuffer.getNextMSHR s.curTick = none ∨
          s.writeBuffer.findPending (s.mshrQueue.registers i).guest (s.mshrQueue.registers i).addr
            (s.mshrQueue.registers i).size (s.mshrQueue.registers i).isSecure = none)) ∨
      (q = .mshrs ∧ ∃ w, w ∈ s.writeBuffer.readyList ∧
        s.mshrQueue.findPending (s.writeBuffer.registers w).guest (s.writeBuffer.registers w).addr
          (s.writeBuffer.registers w).size (s.writeBuffer.registers w).isSecure = some i ∧
        (s.mshrQueue.registers i).order < (s.writeBuffer.registers w).order) ∨
      (q = .writeBuffer ∧ i ∈ s.writeBuffer.readyList) := by
  unfold getNextMSHR at h
  cases hmiss : s.mshrQueue.getNextMSHR s.curTick with
  | none =>
    cases hwrite : s.writeBuffer.getNextMSHR s.curTick with
    | none =>
      rw [hmiss, hwrite] at h
      exact nomatch h
    | some write =>
      rw [hmiss, hwrite] at h
      cases h
      exact .inr (.inr ⟨rfl, MSHRQueue.mem_of_getNextMSHR hwrite⟩)
  | some miss =>
    cases hwrite : s.writeBuffer.getNextMSHR s.curTick with
    | none =>
      rw [hmiss, hwrite] at h
      cases h
      exact .inl ⟨rfl, rfl, .inl rfl⟩
    | some write =>
      rw [hmiss, hwrite] at h
      have hchoice : s.chooseMSHR miss write = (q, i) := Option.some.inj h
      unfold chooseMSHR at hchoice
      dsimp only at hchoice
      split at hchoice
      · split at hchoice
        · cases hchoice
          exact .inr (.inr ⟨rfl, MSHRQueue.mem_of_getNextMSHR hwrite⟩)
        · next hpending =>
          split at hchoice
          · next horder =>
            cases hchoice
            exact .inr (.inl ⟨rfl, write, MSHRQueue.mem_of_getNextMSHR hwrite, hpending, horder⟩)
          · cases hchoice
            exact .inr (.inr ⟨rfl, MSHRQueue.mem_of_getNextMSHR hwrite⟩)
      · split at hchoice
        · next hpending =>
          cases hchoice
          exact .inl ⟨rfl, rfl, .inr hpending⟩
        · next hpending =>
          cases hchoice
          exact .inr (.inr ⟨rfl, List.mem_of_find?_eq_some hpending⟩)

theorem mem_of_getNextMSHR (h : s.getNextMSHR = some (q, i)) : i ∈ (s.queue q).readyList := by
  rcases getNextMSHR_cases h with ⟨rfl, hmiss, _⟩ | ⟨rfl, w, _, hpending, _⟩ | ⟨rfl, hwrite⟩
  · exact MSHRQueue.mem_of_getNextMSHR hmiss
  · exact List.mem_of_find?_eq_some hpending
  · exact hwrite

def nextMSHRReadyTime (s : Cache cfg) : Option Tick :=
  PacketQueue.earlier s.mshrQueue.nextMSHRReadyTime s.writeBuffer.nextMSHRReadyTime

end Cache

namespace CacheM

variable {cfg : CacheConfig}

/-- `getBusPacket`: the request for a block that serves a request from above, or
`none` when that is to be forwarded as it is. -/
def getBusPacket (cfg : CacheConfig) (cpuPkt : Packet) (blk : Option CacheBlk)
    (needsExclusive : Bool) : Except Abort (Option Packet) :=
  let valid := blk.any (·.isValid)
  if cpuPkt.req.uncacheable then .ok none
  else if !valid && (cpuPkt.cmd == .Writeback || cpuPkt.isUpgrade) then .ok none
  else do
    assert cpuPkt.needsResponse
    assert (!valid || (needsExclusive && !blk.any (·.isWritable)))
    let cmd : MemCmd :=
      if valid then (if cpuPkt.isLLSC then .SCUpgradeReq else .UpgradeReq)
      else if needsExclusive then .ReadExReq else .ReadReq
    return some (Packet.ofBlock cpuPkt.req cmd cfg.blkSize).allocate

/-- A copy of the target's packet to forward; the target keeps the original for
the response. -/
def forwardCopy (target : Packet) : Except Abort Packet := do
  let pkt := (target.copy false).allocate
  if pkt.isWrite then
    let bytes ← target.getPtr
    pkt.setData bytes
  else
    return pkt

/-- The last branch of `getTimingPacket`: the packet for the register, and the
note in the register whether it is forwarded. -/
def makeBusPacket (q : QueueIndex) (i : Nat) (target : Packet) : CacheM cfg Packet := do
  let s ← get
  let m := (s.queue q).registers i
  let hit := s.store.tags.findBlock m.guest m.addr m.isSecure
  let bus ← check (getBusPacket cfg target
    (hit.map (s.store.tags.blks (cfg.extractSet m.addr))) m.needsExclusive)
  modify fun s => s.setQueue q ((s.queue q).setReg i { m with isForward := bus.isNone })
  match bus with
  | some pkt => return pkt
  | none => check (forwardCopy target)

/-- The upward snoop of `getTimingPacket` before a prefetch is issued: `true` when
a cache above answers it. -/
def prefetchSnoop (q : QueueIndex) (i : Nat) (target : Packet) (above : SnoopAnswer) :
    CacheM cfg Bool :=
  if target.cmd = .HardPFReq then do
    let s ← get
    let m := (s.queue q).registers i
    check (assert (s.store.tags.findBlock m.guest m.addr m.isSecure).isNone)
    if above.memInhibit then
      markInService q i { target.copy true with
        memInhibit := true, shared := above.shared, expressSnoop := true }
      return true
    else
      return false
  else return false

/-- `getTimingPacket`: the register to issue and its packet. A store conditional
that already lost its block is failed here and issues nothing. -/
def getTimingPacket (above : Nat → SnoopAnswer) :
    CacheM cfg (Option (QueueIndex × Nat × Packet)) := do
  let s ← get
  match s.getNextMSHR with
  | none => return none
  | some (q, i) => do
    let m := (s.queue q).registers i
    let target ← check m.getTarget
    let state := SenderState.mshr q i
    if target.pkt.cmd = .SCUpgradeFailReq ∨ target.pkt.cmd = .StoreCondFailReq then
      recvTimingResp { target.pkt.copy false with
        cmd := .UpgradeFailResp, senderState := [state]
        busFirstWordDelay := 0, busLastWordDelay := 0 } above
      return none
    else if m.isForwardNoResponse then
      check (assert (s.store.tags.findBlock m.guest m.addr m.isSecure).isNone)
      return some (q, i, { target.pkt with senderState := [state] })
    else
      let answered ← prefetchSnoop q i target.pkt (above 0)
      if answered then return none
      else
        let pkt ← makeBusPacket q i target.pkt
        return some (q, i, { pkt with senderState := [state] })

def accepted (q : QueueIndex) (i : Nat) (pkt : Packet) : CacheM cfg Unit := do
  let s ← get
  onStore (.emit (.sentTiming pkt))
  markInService q i pkt
  Prog.when (!((s.queue q).registers i).isForwardNoResponse)
    (modify fun s => { s with outstanding := s.outstanding ++ [pkt] })

def issue (bus : BusAnswer) (above : Nat → SnoopAnswer) : CacheM cfg Unit := do
  match ← getTimingPacket above with
  | none => modify fun s => { s with memSide := { s.memSide with waitingOnRetry := false } }
  | some (q, i, pkt) => do
    modify fun s => { s with memSide := { s.memSide with waitingOnRetry := !bus.accepts } }
    Prog.when bus.accepts
      (accepted q i { pkt with shared := pkt.shared || bus.shared,
                               memInhibit := pkt.memInhibit || bus.memInhibit })

/-- Offers the head of the memory side's packet queue to the bus. -/
def sendQueued (bus : BusAnswer) : CacheM cfg Unit := do
  let s ← get
  let (memSide, _) ← check (s.memSide.trySendTiming s.curTick bus.accepts)
  modify fun s => { s with memSide := memSide }

/-- `MemSidePacketQueue::sendDeferredPacket`: a queued snoop response goes first. -/
def sendDeferredPacket (bus : BusAnswer) (above : Nat → SnoopAnswer) : CacheM cfg Unit := do
  let s ← get
  (if s.memSide.deferredPacketReady s.curTick then sendQueued bus else issue bus above)
  let s ← get
  Prog.when (!s.memSide.waitingOnRetry) (modify fun s => { s with
    memSide := s.memSide.scheduleSend s.curTick s.nextMSHRReadyTime })

end CacheM

end PardG5V
