import PardG5V.Dram.Schedule

/-!
# One access to the memory

A row buffer is opened and closed when the access is decided, at modelled ticks that may lie in
the future: these ticks only reach the state through the times at which the bank allows the next
command and through the activate and precharge events.
-/

namespace PardG5V

open Prog

variable {cfg : DramConfig}

/-! ## Activate -/

namespace Bank

def opened (cfg : DramConfig) (bank : Bank) (rowbuf : Fin rowBufferCount) (row : Row)
    (tick : Tick) : Bank :=
  { bank with
    openRow := fun i => if i = rowbuf then some row else bank.openRow i
    numRowsActive := bank.numRowsActive + 1
    colAllowedAt := tick + cfg.tRCD
    preAllowedAt := tick + cfg.tRAS
    rowAccesses := 0
    bytesAccessed := 0 }

def closed (cfg : DramConfig) (bank : Bank) (rowbuf : Fin rowBufferCount) (tick : Tick) : Bank :=
  { bank with
    openRow := fun i => if i = rowbuf then none else bank.openRow i
    numRowsActive := bank.numRowsActive - 1
    preAllowedAt := tick
    actAllowedAt := max bank.actAllowedAt (tick + cfg.tRP) }

/-- The bank after a column command at `cmdAt`, whose burst ends at `readyTime`. -/
def accessed (cfg : DramConfig) (bank : Bank) (isRead : Bool) (cmdAt readyTime : Tick) : Bank :=
  let release := if isRead then cmdAt + cfg.tRTP else readyTime + cfg.tWR
  { bank with
    colAllowedAt := cmdAt + cfg.tBURST
    preAllowedAt := max bank.preAllowedAt release
    bytesAccessed := bank.bytesAccessed + cfg.burstSize
    rowAccesses := bank.rowAccesses + 1 }

def holdActivate (bank : Bank) (tick : Tick) : Bank :=
  { bank with actAllowedAt := max tick bank.actAllowedAt }

end Bank

namespace Dram

def holdRank (s : Dram cfg) (rank : Fin cfg.ranksPerChannel) (tick : Tick) : Dram cfg :=
  { s with banks := fun id => if id.rank = rank then (s.banks id).holdActivate tick
      else s.banks id }

/-- The part of `activateBank` before the activation window: the row buffer is open, and
the rank respects tRRD. -/
def opened (s : Dram cfg) (buf : RowBuf cfg) (row : Row) (tick : Tick) : Dram cfg :=
  let bank := s.banks buf.bank
  let s := s.setBank buf.bank (bank.opened cfg buf.num row tick)
  let s := { s with
    numBanksActive := if bank.numRowsActive = 0 then s.numBanksActive + 1 else s.numBanksActive }
  (s.holdRank buf.bank.rank (tick + cfg.tRRD)).emit (.activate buf row tick)

/-- The oldest activate in the window was less than tXAW ago. The difference is unsigned
in the source. -/
def windowFull (cfg : DramConfig) (window : List Tick) (tick : Tick) : Bool :=
  match window.getLast? with
  | some oldest => oldest != 0 && decide (oldest ≤ tick ∧ tick - oldest < cfg.tXAW)
  | none => false

/-- The activate enters the window of its rank, and the rank respects tXAW. -/
def noteWindow (s : Dram cfg) (rank : Fin cfg.ranksPerChannel) (tick : Tick) : Dram cfg :=
  let window := tick :: (s.actTicks rank).dropLast
  let s := { s with actTicks := fun r => if r = rank then window else s.actTicks r }
  if windowFull cfg window tick then s.holdRank rank (window.getLast?.getD 0 + cfg.tXAW) else s

/-- The activate event is scheduled for the tick, or moved to it when it was later. -/
def activateBy (s : Dram cfg) (tick : Tick) : Dram cfg :=
  { s with activateEvent := match s.activateEvent with
      | none => some tick
      | some t => some (min t tick) }

end Dram

/-- With an activation limit of zero the window is empty, and nothing else is done. -/
def activateBank (tick : Tick) (buf : RowBuf cfg) (row : Row) : DramM cfg Unit := do
  let s ← get
  let window := s.actTicks buf.bank.rank
  DramM.check .assertion (window.length == cfg.activationLimit)
  DramM.check .rowAssertion (s.openRow buf).isNone
  DramM.check .rowAssertion ((s.banks buf.bank).numRowsActive + 1 ≤ rowBufferCount)
  modify (·.opened buf row tick)
  let s ← get
  DramM.check .rowAssertion (s.numBanksActive ≤ cfg.banksPerRank * cfg.ranksPerChannel)
  when (!window.isEmpty) do
    DramM.check .windowPanic (!Dram.windowFull cfg window tick)
    modify fun s => (s.noteWindow buf.bank.rank tick).activateBy tick

/-! ## Precharge -/

namespace Dram

def closed (s : Dram cfg) (buf : RowBuf cfg) (tick : Tick) : Dram cfg :=
  let bank := s.banks buf.bank
  let s := s.setBank buf.bank (bank.closed cfg buf.num tick)
  let s := { s with
    numBanksActive := if bank.numRowsActive = 1 then s.numBanksActive - 1 else s.numBanksActive }
  s.emit (.precharge buf tick)

/-- The precharge event is scheduled for the tick, or moved to it when it was earlier. -/
def prechargeBy (s : Dram cfg) (tick : Tick) : Dram cfg :=
  { s with prechargeEvent := match s.prechargeEvent with
      | none => some tick
      | some t => some (max t tick) }

end Dram

def prechargeBank (buf : RowBuf cfg) (tick : Tick) : DramM cfg Unit := do
  let s ← get
  DramM.check .rowAssertion (s.openRow buf).isSome
  DramM.check .rowAssertion ((s.banks buf.bank).numRowsActive != 0)
  DramM.check .rowAssertion ((s.banks buf.bank).numRowsActive != 1 || s.numBanksActive != 0)
  modify fun s => (s.closed buf tick).prechargeBy (tick + cfg.tRP)

/-! ## The access -/

/-- The row of the packet is opened in its row buffer, which is closed first if another
row is open in it. -/
def openRowFor (pkt : DRAMPacket cfg) : DramM cfg Unit := do
  let s ← get
  when (s.openRow pkt.rowBuf).isSome do
    prechargeBank pkt.rowBuf (max (s.banks pkt.bankId).preAllowedAt s.curTick)
  let s ← get
  activateBank (max (s.banks pkt.bankId).actAllowedAt s.curTick) pkt.rowBuf pkt.row

namespace Dram

/-- The bank and the log after the column command of the packet. -/
def accessed (s : Dram cfg) (pkt : DRAMPacket cfg) (cmdAt readyTime : Tick) : Dram cfg :=
  let bank := (s.banks pkt.bankId).accessed cfg pkt.isRead cmdAt readyTime
  (s.setBank pkt.bankId bank).emit
    (if pkt.isRead then .read pkt.rowBuf cmdAt else .write pkt.rowBuf readyTime)

/-- Whether the access ends with an auto-precharge. `others` are the packets behind it in
its queue. The loop over them stops early only once the answer is settled. -/
def autoPrecharge (s : Dram cfg) (pkt : DRAMPacket cfg) (others : List (DRAMPacket cfg)) : Bool :=
  if cfg.pageMgmt = .closePage ∨ (s.banks pkt.bankId).rowAccesses = cfg.maxAccessesPerRow then true
  else if cfg.pageMgmt = .openAdaptive ∨ cfg.pageMgmt = .closeAdaptive then
    let gotMoreHits := others.any fun q => q.bankId == pkt.bankId && q.row == pkt.row
    let gotBankConflict := others.any fun q => q.bankId == pkt.bankId && q.row != pkt.row
    !gotMoreHits && (gotBankConflict || cfg.pageMgmt == .closeAdaptive)
  else false

def busUsed (s : Dram cfg) (pkt : DRAMPacket cfg) (readyTime : Tick) : Dram cfg :=
  { s with
    busBusyUntil := readyTime
    nextReqTime := readyTime - (cfg.tRP + cfg.tRCD + cfg.tCL)
    readsThisTime := if pkt.isRead then s.readsThisTime + 1 else s.readsThisTime
    writesThisTime := if pkt.isRead then s.writesThisTime else s.writesThisTime + 1 }

end Dram

/-- The column command, the possible auto-precharge and the bus. Returns the tick of the
command and the ready time. -/
def columnAccess (pkt : DRAMPacket cfg) (others : List (DRAMPacket cfg)) (cmdAt : Tick) :
    DramM cfg (Tick × Tick) := do
  let s ← get
  let cmdAt := max cmdAt (s.busBusyUntil - cfg.tCL)
  let readyTime := cmdAt + cfg.tCL + cfg.tBURST
  DramM.check .assertion (cfg.tBURST ≤ readyTime - s.busBusyUntil)
  modify (·.accessed pkt cmdAt readyTime)
  let s ← get
  when (s.autoPrecharge pkt others) do
    prechargeBank pkt.rowBuf (max s.curTick (s.banks pkt.bankId).preAllowedAt)
  modify (·.busUsed pkt readyTime)
  return (cmdAt, readyTime)

/-- The row of the statistics table after an access. -/
def DRAMCtrlStats.accessed (stats : DRAMCtrlStats) (pkt : DRAMPacket cfg) (rowHit : Bool)
    (cmdAt readyTime : Tick) : DRAMCtrlStats :=
  let hits := if rowHit then 1 else 0
  if pkt.isRead then
    { stats with
      readRowHits := stats.readRowHits + hits
      bytesReadDRAM := stats.bytesReadDRAM + cfg.burstSize
      totMemAccLat := stats.totMemAccLat + (readyTime - pkt.entryTime)
      totBusLat := stats.totBusLat + cfg.tBURST
      totQLat := stats.totQLat + (cmdAt - pkt.entryTime) }
  else
    { stats with
      writeRowHits := stats.writeRowHits + hits
      bytesWritten := stats.bytesWritten + cfg.burstSize }

def countAccess (pkt : DRAMPacket cfg) (rowHit : Bool) (cmdAt readyTime : Tick) :
    DramM cfg Unit := do
  when (pkt.isRead || rowHit) (DramM.perLDom pkt.qosTag)
  modify (·.count pkt.qosTag (·.accessed pkt rowHit cmdAt readyTime))

/-- `doDRAMAccess`: returns the packet with its ready time. -/
def doDRAMAccess (pkt : DRAMPacket cfg) (others : List (DRAMPacket cfg)) :
    DramM cfg (DRAMPacket cfg) := do
  let s ← get
  if s.rowHit pkt then
    let (cmdAt, readyTime) ←
      columnAccess pkt others (max (s.banks pkt.bankId).colAllowedAt s.curTick)
    countAccess pkt true cmdAt readyTime
    return { pkt with readyTime }
  else
    openRowFor pkt
    let s ← get
    let (cmdAt, readyTime) ← columnAccess pkt others (s.banks pkt.bankId).colAllowedAt
    countAccess pkt false cmdAt readyTime
    return { pkt with readyTime }

end PardG5V
