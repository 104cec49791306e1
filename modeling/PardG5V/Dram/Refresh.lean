import PardG5V.Dram.Access

/-!
# The refresh and power state machines

A refresh goes through four states. It is due (`REF_IDLE` to `REF_DRAIN`), the request event loop
hands over (`REF_PRE`), all row buffers are precharged and the power state machine is waited for
(`REF_RUN`), and when that machine reaches `PWR_REF` the refresh itself starts and lasts until the
power event that ends it.
-/

namespace PardG5V

open Prog

variable {cfg : DramConfig}

/-! ## Power events -/

def schedulePowerEvent (pwrState : PowerState) (tick : Tick) : DramM cfg Unit := do
  let s ← get
  DramM.check .refreshAssertion (s.curTick ≤ tick)
  DramM.check .powerPending s.powerEvent.isNone
  modify fun s => { s with pwrStateTrans := pwrState, powerEvent := some tick }

def processActivateEvent : DramM cfg Unit := do
  let s ← get
  when (s.pwrState != .PWR_ACT) (schedulePowerEvent .PWR_ACT s.curTick)

def processPrechargeEvent : DramM cfg Unit := do
  let s ← get
  when (s.numBanksActive == 0) (schedulePowerEvent .PWR_IDLE s.curTick)

/-! ## Refresh -/

/-- A row buffer is precharged for the refresh if a row is open in it; the next
precharge of its bank comes after this one. -/
def refreshPrechargeBuf (preAt : Tick) (buf : RowBuf cfg) : DramM cfg Unit := do
  let s ← get
  when (s.openRow buf).isSome do
    prechargeBank buf (max (s.banks buf.bank).preAllowedAt preAt)
    modify fun s =>
      let bank := s.banks buf.bank
      s.setBank buf.bank { bank with preAllowedAt := bank.actAllowedAt }

/-- One bank is precharged for the refresh. The times of a bank with no open row are
only moved. -/
def refreshPrecharge (preAt : Tick) (id : BankId cfg) : DramM cfg Unit := do
  let s ← get
  if (List.finRange rowBufferCount).all fun i => ((s.banks id).openRow i).isNone then
    modify fun s =>
      let bank := s.banks id
      s.setBank id { bank with
        actAllowedAt := max bank.actAllowedAt (preAt + cfg.tRP)
        preAllowedAt := max bank.preAllowedAt preAt }
  else forEach (fun i => refreshPrechargeBuf preAt ⟨id, i⟩) (List.finRange rowBufferCount)

/-- The first tick at which every bank allows a precharge. -/
def Dram.precharge (s : Dram cfg) : Tick :=
  (BankId.all cfg).foldl (fun preAt id => max (s.banks id).preAllowedAt preAt) s.curTick

/-- The step in `REF_PRE`: all row buffers are precharged, or the power state machine
is told to go ahead when it is idle already. -/
def prechargeAll : DramM cfg Unit := do
  let s ← get
  if s.pwrState != .PWR_IDLE then
    forEach (refreshPrecharge s.precharge) (BankId.all cfg)
  else
    schedulePowerEvent .PWR_REF s.curTick
  modify fun s => { s with refreshState := .REF_RUN }
  let s ← get
  DramM.check .refreshAssertion (s.numBanksActive == 0)

/-- The step in `REF_RUN`: the refresh itself. -/
def runRefresh : DramM cfg Unit := do
  let s ← get
  DramM.check .refreshAssertion (s.numBanksActive == 0)
  DramM.check .refreshAssertion (s.pwrState == .PWR_REF)
  let refDoneAt := s.curTick + cfg.tRFC
  modify fun s =>
    { s with banks := fun id => { s.banks id with actAllowedAt := refDoneAt } }
  DramM.check .refreshDelayed (refDoneAt ≤ s.refreshDueAt + cfg.tREFI)
  let refreshEvent ← liftM (DramM.schedule s .refreshAssertion s.refreshEvent
    (s.refreshDueAt + cfg.tREFI - cfg.tRP))
  modify fun s => ({ s with refreshEvent }.emit (.refreshStart s.curTick))
  DramM.check .refreshAssertion s.powerEvent.isNone
  schedulePowerEvent .PWR_IDLE refDoneAt

/-- Whether the request event loop has to be waited for; remembers when the refresh was
due. -/
def Dram.drained (s : Dram cfg) : Dram cfg :=
  let s := if s.refreshState = .REF_IDLE then
      { s with refreshDueAt := s.curTick, refreshState := .REF_DRAIN }
    else s
  if s.refreshState = .REF_DRAIN ∧ s.nextReqEvent = none then { s with refreshState := .REF_PRE }
  else s

def processRefreshEvent : DramM cfg Unit := do
  modify Dram.drained
  let s ← get
  match s.refreshState with
  | .REF_PRE => prechargeAll
  | .REF_RUN => runRefresh
  | _ => pure ()

/-! ## The power state machine -/

/-- A transition to the idle state: it ends a refresh, or it starts one that waits. -/
def enterIdle (prevState : PowerState) : DramM cfg Unit := do
  if prevState = .PWR_REF then
    modify fun s => { s with refreshState := .REF_IDLE }
    let s ← get
    let nextReqEvent ← liftM (DramM.schedule s .refreshAssertion s.nextReqEvent s.curTick)
    modify fun s => ({ s with nextReqEvent }.emit (.refreshEnd s.curTick))
  else
    DramM.check .refreshAssertion (prevState == .PWR_ACT)
    let s ← get
    when (s.refreshState == .REF_RUN) do
      DramM.check .refreshAssertion s.powerEvent.isNone
      modify fun s => { s with pwrState := .PWR_REF }

def processPowerEvent : DramM cfg Unit := do
  let s ← get
  let prevState := s.pwrState
  modify fun s => { s with pwrState := s.pwrStateTrans }
  when (s.pwrStateTrans == .PWR_IDLE) (enterIdle prevState)
  let s ← get
  when (s.pwrState == .PWR_REF) do
    DramM.check .refreshAssertion (s.refreshState == .REF_RUN)
    processRefreshEvent

end PardG5V
