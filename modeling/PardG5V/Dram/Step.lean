import PardG5V.Dram.Request
import PardG5V.Lib.Machine

/-!
# Runs of the memory controller

`processNextReqEvent` and `processRespondEvent`, and the inputs by which a run proceeds: one of
the six events that is due runs, a request or a drain request or a call of the control plane
arrives, or time passes to the next tick at which something is due. Events of one tick run in any
order.
-/

namespace PardG5V

open Prog

variable {cfg : DramConfig}

/-! ## The request event -/

namespace Dram

/-- The bus has turned around since the last request event. -/
def turnedAround (s : Dram cfg) : Dram cfg :=
  match s.busState with
  | .READ_TO_WRITE => { s with readsThisTime := 0, busState := .WRITE }
  | .WRITE_TO_READ => { s with writesThisTime := 0, busState := .READ }
  | _ => s

/-- The bus starts to turn around, which costs it a bubble. -/
def turnTo (s : Dram cfg) (busState : BusState) (bubble : Tick) : Dram cfg :=
  { s with
    busState
    busBusyUntil := s.busBusyUntil + bubble
    nextReqTime := s.busBusyUntil + bubble - (cfg.tRP + cfg.tRCD + cfg.tCL) }

/-- `drainManager->signalDrainDone()` when there is nothing left. -/
def drainDone (s : Dram cfg) : Dram cfg :=
  if s.writeQueue.isEmpty ∧ s.readQueue.isEmpty ∧ s.respQueue.isEmpty then
    { s with draining := false }
  else s

end Dram

/-- A read that was served waits for its ready time. -/
def queueResponse (pkt : DRAMPacket cfg) : DramM cfg Unit := do
  let s ← get
  DramM.check .assertion (pkt.size ≤ cfg.burstSize)
  DramM.check .assertion (s.curTick ≤ pkt.readyTime)
  match s.respQueue.getLast? with
  | none =>
    let respondEvent ← liftM (DramM.schedule s .assertion s.respondEvent pkt.readyTime)
    modify fun s => { s with respondEvent }
  | some last =>
    DramM.check .assertion (last.readyTime ≤ pkt.readyTime)
    DramM.check .assertion s.respondEvent.isSome
  modify fun s => { s with respQueue := s.respQueue ++ [pkt] }

/-- The request event while the bus is in the read state: whether it is scheduled
again. -/
def serveRead : DramM cfg Bool := do
  let s ← get
  match s.chooseNext s.readQueue with
  | [] =>
    if !s.writeQueue.isEmpty && (s.draining || cfg.writeLowThreshold < s.writeQueue.length) then
      modify (·.turnTo .READ_TO_WRITE cfg.tRTW)
      return true
    else
      when s.respQueue.isEmpty (modify fun s => { s with draining := false })
      return false
  | pkt :: rest =>
    modify fun s => { s with readQueue := pkt :: rest }
    let pkt ← doDRAMAccess pkt rest
    modify fun s => { s with readQueue := rest }
    queueResponse pkt
    let s ← get
    when (cfg.writeHighThreshold < s.writeQueue.length) do
      modify (·.turnTo .READ_TO_WRITE cfg.tRTW)
    return true

/-- The request event while the bus is in the write state. -/
def serveWrite : DramM cfg Bool := do
  let s ← get
  match s.chooseNext s.writeQueue with
  | [] => throw .assertion
  | pkt :: rest =>
    modify fun s => { s with writeQueue := pkt :: rest }
    DramM.check .assertion (pkt.size ≤ cfg.burstSize)
    discard (doDRAMAccess pkt rest)
    modify fun s => { s with writeQueue := rest }
    let s ← get
    when (rest.isEmpty ||
        (rest.length + cfg.minWritesPerSwitch < cfg.writeLowThreshold && !s.draining) ||
        (!s.readQueue.isEmpty && cfg.minWritesPerSwitch ≤ s.writesThisTime)) do
      modify (·.turnTo .WRITE_TO_READ (cfg.tWTR + cfg.tCL))
    return true

/-- The end of the request event: it is scheduled again, and a refused write may be
tried again. -/
def requestAgain : DramM cfg Unit := do
  let s ← get
  let nextReqEvent ←
    liftM (DramM.schedule s .assertion s.nextReqEvent (max s.nextReqTime s.curTick))
  modify fun s => { s with nextReqEvent }
  when (s.retryWrReq && decide (s.writeQueue.length < cfg.writeBufferSize)) do
    modify fun s => ({ s with retryWrReq := false }.emit .retry)

/-- The request event hands control to a refresh that waits for it. -/
def handOver : DramM cfg Unit := do
  let s ← get
  let refreshEvent ← liftM (DramM.schedule s .refreshAssertion s.refreshEvent s.curTick)
  modify fun s => { s with refreshState := .REF_PRE, refreshEvent }

def processNextReqEvent : DramM cfg Unit := do
  modify Dram.turnedAround
  let s ← get
  match s.refreshState with
  | .REF_IDLE =>
    let again ← if s.busState = .READ then serveRead else serveWrite
    when again requestAgain
  | .REF_DRAIN => handOver
  | _ => pure ()

/-! ## The response event -/

/-- One burst is done: whether it was the last one of its packet. -/
def burstServiced (pkt : DRAMPacket cfg) : DramM cfg Bool := do
  let s ← get
  match pkt.burstHelper with
  | none => return true
  | some i =>
    match s.helpers[i]? with
    | none => throw .outOfBounds
    | some helper =>
      let serviced := helper.burstsServiced + 1
      modify fun s =>
        { s with helpers := s.helpers.set i { helper with burstsServiced := serviced } }
      return serviced == helper.burstCount

/-- The response event is scheduled for the next response, if there is one. -/
def scheduleResponse : DramM cfg Unit := do
  let s ← get
  match s.respQueue with
  | next :: _ =>
    let respondEvent ← liftM (DramM.schedule s .assertion s.respondEvent next.readyTime)
    modify fun s => { s with respondEvent }
  | [] => modify Dram.drainDone

def processRespondEvent : DramM cfg Unit := do
  let s ← get
  match s.respQueue with
  | [] => throw .outOfBounds
  | pkt :: rest =>
    let complete ← burstServiced pkt
    when complete do
      modify (·.accessAndRespond pkt.pkt (cfg.frontendLatency + cfg.backendLatency))
    modify fun s => { s with respQueue := rest }
    scheduleResponse
    when s.retryRdReq do
      modify fun s => ({ s with retryRdReq := false }.emit .retry)

/-! ## Inputs -/

inductive DramTimer
  | nextReq
  | respond
  | activate
  | precharge
  | refresh
  | power
deriving DecidableEq, Repr

inductive DramInput
  | event (timer : DramTimer)
  | timingReq (pkt : Packet)
  | drain
  | set (call : SetCall)
  | advance (tick : Tick)

def DramInput.runs (timer : DramTimer) : DramInput → Bool
  | .event t => t == timer
  | _ => false

namespace Dram

def timer (s : Dram cfg) : DramTimer → Option Tick
  | .nextReq => s.nextReqEvent
  | .respond => s.respondEvent
  | .activate => s.activateEvent
  | .precharge => s.prechargeEvent
  | .refresh => s.refreshEvent
  | .power => s.powerEvent

/-- The event is no longer scheduled once it runs. -/
def stopTimer (s : Dram cfg) : DramTimer → Dram cfg
  | .nextReq => { s with nextReqEvent := none }
  | .respond => { s with respondEvent := none }
  | .activate => { s with activateEvent := none }
  | .precharge => { s with prechargeEvent := none }
  | .refresh => { s with refreshEvent := none }
  | .power => { s with powerEvent := none }

/-- An event runs at its tick, and time does not pass an event that is due. -/
def Enabled (s : Dram cfg) : DramInput → Prop
  | .event t => s.timer t = some s.curTick
  | .advance tick => s.curTick ≤ tick ∧
      ∀ t ∈ [DramTimer.nextReq, .respond, .activate, .precharge, .refresh, .power],
        ∀ due ∈ s.timer t, tick ≤ due
  | _ => True

instance (s : Dram cfg) : DecidablePred s.Enabled := fun input => by
  cases input <;> unfold Enabled <;> infer_instance

def drain (s : Dram cfg) : Dram cfg :=
  if s.writeQueue.isEmpty ∧ s.readQueue.isEmpty ∧ s.respQueue.isEmpty then s
  else
    let s := { s with draining := true }
    if s.writeQueue.isEmpty then s else s.requestNow

end Dram

def DramTimer.process : DramTimer → DramM cfg Unit
  | .nextReq => processNextReqEvent
  | .respond => processRespondEvent
  | .activate => processActivateEvent
  | .precharge => processPrechargeEvent
  | .refresh => processRefreshEvent
  | .power => processPowerEvent

def DramM.call : DramInput → DramM cfg Unit
  | .event t => do
    modify (·.stopTimer t)
    t.process
  | .timingReq pkt => discard (recvTimingReq pkt)
  | .drain => modify Dram.drain
  | .set call => do
    let s ← get
    let params ← liftM (DramM.ofExcept (call.run s.params))
    modify fun s => { s with params }
  | .advance tick => modify fun s => { s with curTick := tick }

/-! ## Runs -/

namespace Dram

def machine (cfg : DramConfig) : Machine DramAbort (Dram cfg) DramInput where
  start s := ∃ now, s = startup cfg now
  enabled := Enabled
  call := DramM.call

/-- The states of the runs in which every input meets `P` in the state it finds. -/
def Reachable (P : Dram cfg → DramInput → Prop) (s : Dram cfg) : Prop :=
  (machine cfg).ReachableBy P s

theorem Reachable.step {P : Dram cfg → DramInput → Prop} {s s' : Dram cfg} {input : DramInput}
    (h : Reachable P s) (hen : s.Enabled input) (hP : P s input)
    (hcall : DramM.call input s = .ok ((), s')) : Reachable P s' :=
  Machine.ReachableBy.step h hen hP hcall

/-- What holds at startup and is kept by every step holds in every reachable state. -/
theorem Reachable.induct {P : Dram cfg → DramInput → Prop} {I : Dram cfg → Prop} {s : Dram cfg}
    (h : Reachable P s) (hinit : ∀ now, I (Dram.startup cfg now))
    (hstep : ∀ s input s', Reachable P s → I s → s.Enabled input → P s input →
      DramM.call input s = .ok ((), s') → I s') : I s := by
  induction h with
  | startup hstart =>
    obtain ⟨now, rfl⟩ := hstart
    exact hinit now
  | step hs hen hP hcall ih => exact hstep _ _ _ hs ih hen hP hcall

section Runs

variable (P : Dram cfg → DramInput → Prop) [∀ s input, Decidable (P s input)]

instance decidableEnabled (s : Dram cfg) (input : DramInput) :
    Decidable ((machine cfg).enabled s input) :=
  inferInstanceAs (Decidable (s.Enabled input))

variable {P}

/-- A run that can be evaluated leads to a state with `test`. -/
theorem exists_reachable (now : Tick) (inputs : List DramInput) (test : Dram cfg → Prop)
    [DecidablePred test]
    (h : ((machine cfg).replay P (startup cfg now) inputs).any (decide <| test ·) = true) :
    ∃ s : Dram cfg, Reachable P s ∧ test s :=
  Machine.ReachableBy.exists_of_replay (.startup ⟨now, rfl⟩) inputs h

end Runs

end Dram

def ldomReq (cmd : MemCmd) (ldom : Fin 4) (row : Nat) : Packet :=
  .ofRequest { paddr := BitVec.ofNat 64 (64 * row), size := 64, qosTag := BitVec.ofNat 64 ldom } cmd

def rowsReq (cmd : MemCmd) (row rows : Nat) : Packet :=
  .ofRequest { paddr := BitVec.ofNat 64 (64 * row), size := 64 * rows, qosTag := 0 } cmd

end PardG5V
