import PardG5V.Dram.Refresh

/-!
# Requests

`recvTimingReq` splits a request into bursts, `decodeAddr` finds the bank and the row of each, and
`addToReadQueue` and `addToWriteQueue` queue those that the write queue does not answer or take
in. The contents of the memory are left out: `accessAndRespond` only sends the response.
-/

namespace PardG5V

open Prog

variable {cfg : DramConfig}

/-! ## Address decoding -/

/-- The digits that an address mapping reads above the burst: bank, rank and row, before
they are narrowed to `uint8_t` and `uint16_t`. -/
def decodeDigits (cfg : DramConfig) (addr : Nat) : Nat × Nat × Nat :=
  match cfg.addrMapping with
  | .RoRaBaChCo =>
    let addr := addr / cfg.columnsPerRowBuffer / cfg.channels
    (addr % cfg.banksPerRank, addr / cfg.banksPerRank % cfg.ranksPerChannel,
      addr / cfg.banksPerRank / cfg.ranksPerChannel % cfg.rowsPerBank)
  | .RoRaBaCoCh =>
    let addr := addr / cfg.channels / cfg.columnsPerRowBuffer
    (addr % cfg.banksPerRank, addr / cfg.banksPerRank % cfg.ranksPerChannel,
      addr / cfg.banksPerRank / cfg.ranksPerChannel % cfg.rowsPerBank)
  | .RoCoRaBaCh =>
    let addr := addr / cfg.channels
    (addr % cfg.banksPerRank, addr / cfg.banksPerRank % cfg.ranksPerChannel,
      addr / cfg.banksPerRank / cfg.ranksPerChannel / cfg.columnsPerRowBuffer % cfg.rowsPerBank)

/-- `decodeAddr`. A geometry with a zero divides by zero. -/
def Dram.decodeAddr (s : Dram cfg) (pkt : Packet) (dramPktAddr : Addr) (size : Nat)
    (isRead : Bool) : Except DramAbort (DRAMPacket cfg) := do
  if cfg.burstSize = 0 ∨ cfg.columnsPerRowBuffer = 0 ∨ cfg.channels = 0 then
    throw .panicked
  let (bank, rank, row) := decodeDigits cfg (dramPktAddr.toNat / cfg.burstSize)
  let rowbuf ← DramM.ofExcept (s.params.selectRowbuf (qosTagToLDomID pkt.qosTag))
  if h : rank % 2 ^ 8 < cfg.ranksPerChannel ∧ bank % 2 ^ 8 < cfg.banksPerRank ∧
      row % 2 ^ 16 < cfg.rowsPerBank ∧ (qosTagToLDomID pkt.qosTag).toNat < paramRows then
    return {
      entryTime := s.curTick
      readyTime := s.curTick
      pkt
      isRead
      bankId := ⟨⟨rank % 2 ^ 8, h.1⟩, ⟨bank % 2 ^ 8, h.2.1⟩⟩
      row := BitVec.ofNat 16 row
      addr := dramPktAddr
      size
      qosTag := pkt.qosTag
      rowbuf
      ldom_lt := h.2.2.2 }
  else throw .assertion

/-! ## Queues -/

namespace Dram

def readQueueFull (s : Dram cfg) (neededEntries : Nat) : Bool :=
  cfg.readBufferSize < s.readQueue.length + s.respQueue.length + neededEntries

def writeQueueFull (s : Dram cfg) (neededEntries : Nat) : Bool :=
  cfg.writeBufferSize < s.writeQueue.length + neededEntries

/-- The end of `accessAndRespond`. -/
def accessAndRespond (s : Dram cfg) (pkt : Packet) (staticLatency : Tick) : Dram cfg :=
  if pkt.needsResponse then s.emit (.respond pkt (s.curTick + staticLatency)) else s

def requestNow (s : Dram cfg) : Dram cfg :=
  match s.nextReqEvent with
  | none => { s with nextReqEvent := some s.curTick }
  | some _ => s

end Dram

def nextBurst (cfg : DramConfig) (addr : Addr) : Addr :=
  (addr ||| BitVec.ofNat 64 (cfg.burstSize - 1)) + 1

/-- The size of the burst of a packet at `addr`, an `unsigned`. -/
def burstLen (cfg : DramConfig) (pkt : Packet) (addr : Addr) : Nat :=
  let last := pkt.addr + BitVec.ofNat 64 pkt.size
  let next := nextBurst cfg addr
  ((if next ≤ last then next else last) - addr).toNat % 2 ^ 32

def endAddr (addr : Addr) (size : Nat) : Addr := addr + BitVec.ofNat 64 size

/-- A read burst is subsumed in an entry of the write queue. -/
def foundInWrQ (writeQueue : List (DRAMPacket cfg)) (addr : Addr) (size : Nat) : Bool :=
  writeQueue.any fun w => decide (w.addr ≤ addr ∧ endAddr addr size ≤ endAddr w.addr w.size)

/-- The loop of `addToReadQueue` over the bursts: the number of bursts that the write
queue answers, and the burst helper of a split packet. -/
def addReadBursts (pkt : Packet) (pktCount : Nat) :
    Nat → Addr → Nat → Option Nat → DramM cfg (Nat × Option Nat)
  | 0, _, serviced, helper => return (serviced, helper)
  | cnt + 1, addr, serviced, helper => do
    let size := burstLen cfg pkt addr
    modify (·.count pkt.qosTag fun stats => { stats with readBursts := stats.readBursts + 1 })
    DramM.perLDom pkt.qosTag
    let s ← get
    if foundInWrQ s.writeQueue addr size then
      modify (·.count pkt.qosTag fun stats =>
        { stats with
          servicedByWrQ := stats.servicedByWrQ + 1
          bytesReadWrQ := stats.bytesReadWrQ + cfg.burstSize })
      addReadBursts pkt pktCount cnt (nextBurst cfg addr) (serviced + 1) helper
    else
      let helper :=
        if 1 < pktCount ∧ helper = none then some s.helpers.length else helper
      when (helper == some s.helpers.length) do
        modify fun s => { s with helpers := s.helpers ++ [⟨pktCount, 0⟩] }
      let dramPkt ← liftM (s.decodeAddr pkt addr size true)
      DramM.check .assertion (!s.readQueueFull 1)
      modify fun s =>
        { s with readQueue := s.readQueue ++ [{ dramPkt with burstHelper := helper }] }
      modify fun s => s.count pkt.qosTag fun stats =>
        { stats with rdQLen := s.readQueue.length + s.respQueue.length }
      addReadBursts pkt pktCount cnt (nextBurst cfg addr) serviced helper

def addToReadQueue (pkt : Packet) (pktCount : Nat) : DramM cfg Unit := do
  DramM.check .assertion (!pkt.isWrite)
  DramM.check .assertion (pktCount != 0)
  let (serviced, helper) ← addReadBursts pkt pktCount pktCount pkt.addr 0 none
  if serviced = pktCount then
    modify (·.accessAndRespond pkt cfg.frontendLatency)
  else
    modify fun s =>
      { s with helpers := match helper with
          | some i => s.helpers.modify i fun h => { h with burstsServiced := serviced }
          | none => s.helpers }
    modify Dram.requestNow

/-- How a write burst is merged with an entry of the write queue, if it can be. -/
def mergeInto (cfg : DramConfig) (addr : Addr) (size : Nat) (w : DRAMPacket cfg) :
    Option (DRAMPacket cfg) :=
  let wEnd := endAddr w.addr w.size
  let last := endAddr addr size
  if addr ≤ w.addr then
    if wEnd ≤ last then some { w with addr, size }
    else if w.addr ≤ last ∧ (wEnd - addr).toNat ≤ cfg.burstSize then
      some { w with addr, size := (wEnd - addr).toNat % 2 ^ 32 }
    else none
  else if last ≤ wEnd then some w
  else if addr ≤ wEnd ∧ (last - w.addr).toNat ≤ cfg.burstSize then
    some { w with size := (last - w.addr).toNat % 2 ^ 32 }
  else none

/-- The write queue with the burst merged into the first entry that takes it. -/
def mergeWrite (cfg : DramConfig) (addr : Addr) (size : Nat) :
    List (DRAMPacket cfg) → Option (List (DRAMPacket cfg))
  | [] => none
  | w :: rest =>
    match mergeInto cfg addr size w with
    | some w' => some (w' :: rest)
    | none => (mergeWrite cfg addr size rest).map (w :: ·)

/-- The loop of `addToWriteQueue` over the bursts. -/
def addWriteBursts (pkt : Packet) : Nat → Addr → DramM cfg Unit
  | 0, _ => pure ()
  | cnt + 1, addr => do
    let size := burstLen cfg pkt addr
    modify (·.count pkt.qosTag fun stats => { stats with writeBursts := stats.writeBursts + 1 })
    DramM.perLDom pkt.qosTag
    let s ← get
    match mergeWrite cfg addr size s.writeQueue with
    | some writeQueue =>
      modify fun s => { s with writeQueue }
      modify (·.count pkt.qosTag fun stats =>
        { stats with mergedWrBursts := stats.mergedWrBursts + 1 })
    | none =>
      let dramPkt ← liftM (s.decodeAddr pkt addr size false)
      DramM.check .assertion (s.writeQueue.length < cfg.writeBufferSize)
      modify fun s => { s with writeQueue := s.writeQueue ++ [dramPkt] }
      modify fun s => s.count pkt.qosTag fun stats =>
        { stats with wrQLen := s.writeQueue.length }
    addWriteBursts pkt cnt (nextBurst cfg addr)

def addToWriteQueue (pkt : Packet) (pktCount : Nat) : DramM cfg Unit := do
  DramM.check .assertion pkt.isWrite
  addWriteBursts pkt pktCount pkt.addr
  modify (·.accessAndRespond pkt cfg.frontendLatency)
  modify Dram.requestNow

/-- The gap since the last request is counted. -/
def Dram.arrived (s : Dram cfg) (pkt : Packet) : Dram cfg :=
  let counted := if s.prevArrival = 0 then s
    else s.count pkt.qosTag fun stats =>
      { stats with totGap := stats.totGap + (s.curTick - s.prevArrival) }
  { counted with prevArrival := s.curTick }

/-- `dram_pkt_count`, an `unsigned`. -/
def dramPktCount (cfg : DramConfig) (pkt : Packet) : Nat :=
  let offset := (pkt.addr &&& BitVec.ofNat 64 (cfg.burstSize - 1)).toNat
  ((offset + pkt.size) % 2 ^ 32 + cfg.burstSize - 1) % 2 ^ 32 / cfg.burstSize

/-- `recvTimingReq`: whether the request is accepted. -/
def recvTimingReq (pkt : Packet) : DramM cfg Bool := do
  if pkt.memInhibit then return true
  modify (·.arrived pkt)
  let s ← get
  let pktCount := dramPktCount cfg pkt
  if pkt.isRead then
    DramM.check .assertion (pkt.size != 0)
    if s.readQueueFull pktCount then
      modify fun s => { s with retryRdReq := true }
      modify (·.count pkt.qosTag fun stats => { stats with numRdRetry := stats.numRdRetry + 1 })
      return false
    else
      addToReadQueue pkt pktCount
      modify (·.count pkt.qosTag fun stats =>
        { stats with
          readReqs := stats.readReqs + 1
          bytesReadSys := stats.bytesReadSys + pkt.size })
      DramM.perLDom pkt.qosTag
      return true
  else if pkt.isWrite then
    DramM.check .assertion (pkt.size != 0)
    if s.writeQueueFull pktCount then
      modify fun s => { s with retryWrReq := true }
      modify (·.count pkt.qosTag fun stats => { stats with numWrRetry := stats.numWrRetry + 1 })
      return false
    else
      addToWriteQueue pkt pktCount
      modify (·.count pkt.qosTag fun stats =>
        { stats with
          writeReqs := stats.writeReqs + 1
          bytesWrittenSys := stats.bytesWrittenSys + pkt.size })
      DramM.perLDom pkt.qosTag
      return true
  else
    modify (·.count pkt.qosTag fun stats =>
      { stats with neitherReadNorWrite := stats.neitherReadNorWrite + 1 })
    modify (·.accessAndRespond pkt 1)
    return true

end PardG5V
