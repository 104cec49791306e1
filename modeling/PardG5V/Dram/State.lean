import PardG5V.Dram.Params
import PardG5V.Mem.Packet

/-!
# The state of the memory controller

The parameters of `DRAMCtrl` with what its constructor checks, the banks with their two row
buffers, the packets that wait for a bank, and the state of the controller with the six events
that it schedules. Of the statistics, the table that the control plane reads is kept. The commands
that the source only adds up in statistics are kept in a log with the newest first.
-/

namespace PardG5V

/-! ## Parameters -/

inductive MemSched
  | fcfs
  | frfcfs
deriving DecidableEq, Repr

inductive AddrMap
  | RoRaBaChCo
  | RoRaBaCoCh
  | RoCoRaBaCh
deriving DecidableEq, Repr

inductive PageManage
  | openPage
  | openAdaptive
  | closePage
  | closeAdaptive
deriving DecidableEq, Repr

/-- The parameters of one controller. The geometry and the two write thresholds are the
values that the constructor computes. -/
structure DramConfig where
  burstSize : Nat
  columnsPerRowBuffer : Nat
  ranksPerChannel : Nat
  banksPerRank : Nat
  channels : Nat
  rowsPerBank : Nat
  readBufferSize : Nat
  writeBufferSize : Nat
  writeHighThreshold : Nat
  writeLowThreshold : Nat
  minWritesPerSwitch : Nat
  tWTR : Tick
  tRTW : Tick
  tBURST : Tick
  tRCD : Tick
  tCL : Tick
  tRP : Tick
  tRAS : Tick
  tWR : Tick
  tRTP : Tick
  tRFC : Tick
  tREFI : Tick
  tRRD : Tick
  tXAW : Tick
  activationLimit : Nat
  memSchedPolicy : MemSched
  addrMapping : AddrMap
  pageMgmt : PageManage
  maxAccessesPerRow : Nat
  frontendLatency : Tick
  backendLatency : Tick
  -- the checks of the constructor
  writeLow_le : writeLowThreshold ≤ writeHighThreshold
  tRP_lt : tRP < tREFI
  tRFC_lt : tRFC < tREFI

/-! ## Banks and row buffers -/

/-- The position of a bank: its rank and its number in the rank. -/
structure BankId (cfg : DramConfig) where
  rank : Fin cfg.ranksPerChannel
  bank : Fin cfg.banksPerRank
deriving DecidableEq

namespace BankId

variable {cfg : DramConfig}

/-- `DRAMPacket::bankId`, a `uint16_t`. -/
def num (id : BankId cfg) : Nat := (cfg.banksPerRank * id.rank + id.bank) % 2 ^ 16

def all (cfg : DramConfig) : List (BankId cfg) :=
  (List.finRange cfg.ranksPerChannel).flatMap fun rank =>
    (List.finRange cfg.banksPerRank).map fun bank => ⟨rank, bank⟩

@[simp] theorem mem_all (id : BankId cfg) : id ∈ all cfg := by
  simp only [all, List.mem_flatMap, List.mem_map]
  exact ⟨id.rank, List.mem_finRange _, id.bank, List.mem_finRange _, rfl⟩

end BankId

structure RowBuf (cfg : DramConfig) where
  bank : BankId cfg
  num : Fin rowBufferCount
deriving DecidableEq

abbrev Row := BitVec 16

/-- `DRAMCtrl::Bank`. A row buffer holds `NO_ROW`, or the row that is open in it. -/
structure Bank where
  openRow : Fin rowBufferCount → Option Row := fun _ => none
  numRowsActive : Nat := 0
  colAllowedAt : Tick := 0
  preAllowedAt : Tick := 0
  actAllowedAt : Tick := 0
  rowAccesses : Nat := 0
  bytesAccessed : Nat := 0

/-! ## Packets -/

structure BurstHelper where
  burstCount : Nat
  burstsServiced : Nat := 0
deriving DecidableEq, Repr

/-- `DRAMCtrl::DRAMPacket`. The decoder has found a rank and a bank that exist, and an
LDom that the parameter table covers. `burstHelper` is the number of the helper. -/
structure DRAMPacket (cfg : DramConfig) where
  entryTime : Tick
  readyTime : Tick
  pkt : Packet
  isRead : Bool
  bankId : BankId cfg
  row : Row
  addr : Addr
  size : Nat
  burstHelper : Option Nat := none
  qosTag : BitVec 64
  rowbuf : Fin rowBufferCount
  ldom_lt : (qosTagToLDomID qosTag).toNat < paramRows

namespace DRAMPacket

variable {cfg : DramConfig}

def rowBuf (pkt : DRAMPacket cfg) : RowBuf cfg := ⟨pkt.bankId, pkt.rowbuf⟩

/-- `QOSTAG_TO_LDOMID(qosTag)` as a row of the parameter table. -/
def ldom (pkt : DRAMPacket cfg) : Fin paramRows := ⟨(qosTagToLDomID pkt.qosTag).toNat, pkt.ldom_lt⟩

end DRAMPacket

/-! ## Statistics -/

/-- `DRAMCtrl::DRAMCtrlStats`, without the averages and rates that nothing computes. -/
structure DRAMCtrlStats where
  readReqs : Nat := 0
  writeReqs : Nat := 0
  readBursts : Nat := 0
  writeBursts : Nat := 0
  bytesReadDRAM : Nat := 0
  bytesReadWrQ : Nat := 0
  bytesWritten : Nat := 0
  bytesReadSys : Nat := 0
  bytesWrittenSys : Nat := 0
  servicedByWrQ : Nat := 0
  mergedWrBursts : Nat := 0
  neitherReadNorWrite : Nat := 0
  numRdRetry : Nat := 0
  numWrRetry : Nat := 0
  totGap : Nat := 0
  rdQLen : Nat := 0
  wrQLen : Nat := 0
  totQLat : Nat := 0
  totMemAccLat : Nat := 0
  totBusLat : Nat := 0
  readRowHits : Nat := 0
  writeRowHits : Nat := 0
deriving DecidableEq, Repr

abbrev statsRows : Nat := 32

/-- `StatsTable::getStatsPtr`: the row of an LDom. An LDom without a row is taken for
LDom 0. -/
def statsRow (ldom : LDomID) : Fin statsRows :=
  if h : ldom.toNat < statsRows then ⟨ldom.toNat, h⟩ else 0

/-! ## The controller -/

inductive BusState
  | READ
  | READ_TO_WRITE
  | WRITE
  | WRITE_TO_READ
deriving DecidableEq, Repr

inductive RefreshState
  | REF_IDLE
  | REF_DRAIN
  | REF_PRE
  | REF_RUN
deriving DecidableEq, Repr

/-- `DRAMCtrl::PowerState`, as far as the controller enters it. -/
inductive PowerState
  | PWR_IDLE
  | PWR_REF
  | PWR_ACT
deriving DecidableEq, Repr

/-- A command to a row buffer at a modelled tick (for a write the end of its burst), the start and
the end of a refresh, a response, or a retry. -/
inductive DramEvent (cfg : DramConfig)
  | activate (buf : RowBuf cfg) (row : Row) (tick : Tick)
  | read (buf : RowBuf cfg) (tick : Tick)
  | write (buf : RowBuf cfg) (doneAt : Tick)
  | precharge (buf : RowBuf cfg) (tick : Tick)
  | refreshStart (tick : Tick)
  | refreshEnd (tick : Tick)
  | respond (pkt : Packet) (tick : Tick)
  | retry

/-- `DRAMCtrl`. An event is `none` while it is not scheduled. -/
structure Dram (cfg : DramConfig) where
  curTick : Tick
  params : ParamTable := .initial
  stats : Fin statsRows → DRAMCtrlStats := fun _ => {}
  prevArrival : Tick := 0
  banks : BankId cfg → Bank := fun _ => {}
  actTicks : Fin cfg.ranksPerChannel → List Tick :=
    fun _ => List.replicate cfg.activationLimit 0
  numBanksActive : Nat := 0
  readQueue : List (DRAMPacket cfg) := []
  writeQueue : List (DRAMPacket cfg) := []
  respQueue : List (DRAMPacket cfg) := []
  helpers : List BurstHelper := []
  retryRdReq : Bool := false
  retryWrReq : Bool := false
  busState : BusState := .READ
  busBusyUntil : Tick
  nextReqTime : Tick := 0
  writesThisTime : Nat := 0
  readsThisTime : Nat := 0
  refreshState : RefreshState := .REF_IDLE
  refreshDueAt : Tick := 0
  pwrStateTrans : PowerState := .PWR_IDLE
  pwrState : PowerState := .PWR_IDLE
  draining : Bool := false
  nextReqEvent : Option Tick := none
  respondEvent : Option Tick := none
  activateEvent : Option Tick := none
  prechargeEvent : Option Tick := none
  refreshEvent : Option Tick := none
  powerEvent : Option Tick := none
  log : List (DramEvent cfg) := []

namespace Dram

variable {cfg : DramConfig}

def startup (cfg : DramConfig) (now : Tick) : Dram cfg where
  curTick := now
  busBusyUntil := now + cfg.tRP + cfg.tRCD + cfg.tCL
  refreshEvent := some (now + cfg.tREFI - cfg.tRP)

def openRow (s : Dram cfg) (buf : RowBuf cfg) : Option Row := (s.banks buf.bank).openRow buf.num

def setBank (s : Dram cfg) (id : BankId cfg) (bank : Bank) : Dram cfg :=
  { s with banks := fun id' => if id' = id then bank else s.banks id' }

def emit (s : Dram cfg) (e : DramEvent cfg) : Dram cfg := { s with log := e :: s.log }

/-- `PARD_STATS` and `PARD_STATS_DRAMPKT`: a change in the row of the LDom of a tag. -/
def count (s : Dram cfg) (tag : BitVec 64) (f : DRAMCtrlStats → DRAMCtrlStats) : Dram cfg :=
  { s with stats := fun row =>
      if row = statsRow (qosTagToLDomID tag) then f (s.stats row) else s.stats row }

end Dram

/-! ## Programs -/

/-- The ways a call stops the simulator: an assertion of the refresh and power state machines, the
panic on a second power event, a refresh delayed too long, an assertion on the open rows, the panic
of the activation window, an access outside an array, and any other. -/
inductive DramAbort
  | refreshAssertion
  | powerPending
  | refreshDelayed
  | rowAssertion
  | windowPanic
  | outOfBounds
  | assertion
  | panicked
deriving DecidableEq, Repr

abbrev DramM (cfg : DramConfig) := Prog DramAbort (Dram cfg)

namespace DramM

variable {cfg : DramConfig}

open Prog

def check (abort : DramAbort) (c : Bool) : DramM cfg Unit :=
  if c then pure () else throw abort

@[simp] theorem check_eq_ok {abort : DramAbort} {c : Bool} {u : Unit} {s s' : Dram cfg} :
    check abort c s = .ok (u, s') ↔ c = true ∧ s = s' := by
  cases c with
  | true | false => simp [check]

/-- The number of entries of the vectors `readBurstsPerLDom`, `totQLatPerLDom` and so
on. -/
def perLDomEntries : Nat := 4

/-- The statistics per LDom assert that the LDom has an entry. Their contents are left out, and the
assertion is made once where several are indexed in a row. -/
def perLDom (tag : BitVec 64) : DramM cfg Unit :=
  check .assertion ((qosTagToLDomID tag).toNat < perLDomEntries)

/-- The error of the packet and parameter model as one of the controller. -/
def ofAbort : Abort → DramAbort
  | .outOfBounds => .outOfBounds
  | .assertion => .assertion
  | .targetKind => .assertion
  | .notInService => .assertion
  | .panicked => .panicked
  | .fatal => .panicked

def ofExcept {α : Type} : Except Abort α → Except DramAbort α
  | .ok a => .ok a
  | .error e => .error (ofAbort e)

/-- The tick of an event after `schedule(event, tick)`, which asserts that it is not in
the past and that the event is not scheduled. -/
def schedule (s : Dram cfg) (abort : DramAbort) (event : Option Tick) (tick : Tick) :
    Except DramAbort (Option Tick) :=
  if s.curTick ≤ tick ∧ event = none then .ok (some tick) else .error abort

end DramM

/-! ## A small controller -/

def DramConfig.oneBank : DramConfig where
  burstSize := 64
  columnsPerRowBuffer := 1
  ranksPerChannel := 1
  banksPerRank := 1
  channels := 1
  rowsPerBank := 16
  readBufferSize := 8
  writeBufferSize := 8
  writeHighThreshold := 4
  writeLowThreshold := 0
  minWritesPerSwitch := 1
  tWTR := 1
  tRTW := 1
  tBURST := 1
  tRCD := 2
  tCL := 2
  tRP := 2
  tRAS := 4
  tWR := 20
  tRTP := 1
  tRFC := 5
  tREFI := 100
  tRRD := 1
  tXAW := 4
  activationLimit := 2
  memSchedPolicy := .frfcfs
  addrMapping := .RoRaBaChCo
  pageMgmt := .openPage
  maxAccessesPerRow := 16
  frontendLatency := 1
  backendLatency := 1
  writeLow_le := by decide
  tRP_lt := by decide
  tRFC_lt := by decide

end PardG5V
