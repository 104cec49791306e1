import PardG5V.Dev.ChunkGen
import PardG5V.Lib.Machine
import PardG5V.Mem.Packet

/-!
# The DMA port

`hyper/dev/dma_device.cc`: `dmaAction` cuts a transfer into packets of at most a cache line. In
timing mode they are sent one by one, a refused packet waits for the retry of the peer, and a
packet is pending until its response has come. In atomic mode all are answered in the call. The
completion event is scheduled when all bytes of an action are acknowledged.

Actions are numbered. The `DmaReqState` of an action is absent once it was deleted. `actions`,
`acked`, `completions`, `waited` and `signalled` are read by no function.
-/

namespace PardG5V

open Prog

inductive MemMode
  | timing
  | atomic
deriving DecidableEq, Repr

abbrev EventID := Nat

/-- A packet of an action: its part of the region and of the data. -/
structure DmaPacket where
  action : Nat
  cmd : MemCmd
  guestID : GuestID
  addr : Addr
  size : Nat
  dataOffset : Nat
deriving DecidableEq, Repr

structure DmaReqState where
  completionEvent : Option EventID
  totBytes : Nat
  numBytes : Nat := 0
  delay : Tick
deriving DecidableEq, Repr

/-- The clock of the device and the cache line size of the system, a power of two that is an
`int`. -/
structure DmaConfig where
  clockPeriod : Nat
  lineShift : Nat
  clockPeriod_pos : 0 < clockPeriod
  lineShift_le : lineShift ≤ 30

namespace DmaConfig

def clockEdge (cfg : DmaConfig) (now : Tick) (cycles : Nat) : Tick :=
  ((now + cfg.clockPeriod - 1) / cfg.clockPeriod + cycles) * cfg.clockPeriod

def cacheLineSize (cfg : DmaConfig) : Nat := 2 ^ cfg.lineShift

def lines64 : DmaConfig := ⟨1, 6, Nat.one_pos, by decide⟩

end DmaConfig

structure DmaAction where
  cmd : MemCmd
  addr : Addr
  size : BitVec 32
  guestID : GuestID
  event : Option EventID
  delay : Tick := 0
deriving DecidableEq, Repr

/-- `DmaReqState(event, size, delay)`. The size is an `int`: the state has its value as an `Addr`,
and the generator takes it as an `unsigned`. -/
def DmaAction.newState (a : DmaAction) : DmaReqState :=
  { completionEvent := a.event, totBytes := (a.size.signExtend 64).toNat, delay := a.delay }

/-- `PARDg5VDmaPort`, with the packets that the peer has taken and the events of the device. -/
structure DmaPort (cfg : DmaConfig) where
  mode : MemMode
  curTick : Tick := 0
  transmitList : List DmaPacket := []
  inFlight : List DmaPacket := []
  sendEvent : Option Tick := none
  pendingCount : BitVec 32 := 0
  drainManager : Option Nat := none
  inRetry : Bool := false
  states : List (Option DmaReqState) := []
  scheduled : List (EventID × Tick) := []
  actions : List DmaAction := []
  acked : List DmaPacket := []
  completions : List Nat := []
  waited : List Nat := []
  signalled : List Nat := []
deriving DecidableEq, Repr

/-- What the peer answers while a call runs: whether it takes the packet that is sent to it, and
the latency of a packet in atomic mode. -/
structure PeerAnswer where
  accepts : Bool
  latency : DmaPacket → Tick := fun _ => 0

variable {cfg : DmaConfig}

abbrev DmaM (cfg : DmaConfig) := Prog Abort (DmaPort cfg)

namespace DmaPort

/-! ## Responses -/

/-- The state of an action. A state that was deleted is not looked at again. -/
def reqState (s : DmaPort cfg) (action : Nat) : Except Abort DmaReqState :=
  match s.states[action]? with
  | some (some st) => .ok st
  | _ => .error .assertion

/-- `device->schedule(event, when)`: asserts that the event is not scheduled, and not in the
past. -/
def schedule (event : EventID) (tick : Tick) : DmaM cfg Unit := do
  let s ← get
  assert ((s.scheduled.all fun e => e.1 != event) && s.curTick ≤ tick)
  modify fun s => { s with scheduled := (event, tick) :: s.scheduled }

def complete (action : Nat) (st : DmaReqState) (delay : Tick) : DmaM cfg Unit := do
  match st.completionEvent with
  | none => pure ()
  | some event =>
    let s ← get
    schedule event (s.curTick + (delay + st.delay))
    modify fun s => { s with completions := s.completions ++ [action] }
  modify fun s => { s with states := s.states.set action none }

def signalDrain : DmaM cfg Unit := do
  let s ← get
  match s.drainManager with
  | none => pure ()
  | some dm =>
    Prog.when (s.pendingCount == 0) do
      modify fun s => { s with signalled := s.signalled ++ [dm], drainManager := none }

def handleResp (pkt : DmaPacket) (delay : Tick) : DmaM cfg Unit := do
  let s ← get
  let st ← s.reqState pkt.action
  assert (s.pendingCount != 0)
  let st := { st with numBytes := st.numBytes + pkt.size }
  modify fun s => { s with
    pendingCount := s.pendingCount - 1
    states := s.states.set pkt.action (some st)
    acked := s.acked ++ [pkt] }
  assert (st.numBytes ≤ st.totBytes)
  Prog.when (st.totBytes == st.numBytes) (complete pkt.action st delay)
  signalDrain

/-! ## Sending -/

def trySendTimingReq (answer : PeerAnswer) : DmaM cfg Unit := do
  let s ← get
  match s.transmitList with
  | [] => throw .outOfBounds
  | pkt :: rest =>
    if answer.accepts then
      modify fun s => { s with
        inRetry := false, transmitList := rest, inFlight := s.inFlight ++ [pkt] }
      Prog.when (!rest.isEmpty) do
        assert s.sendEvent.isNone
        modify fun s => { s with sendEvent := some (cfg.clockEdge s.curTick 1) }
    else
      modify fun s => { s with inRetry := true }

/-- The loop of atomic mode: every packet is sent and answered. -/
def sendAtomic (answer : PeerAnswer) : List DmaPacket → DmaM cfg Unit
  | [] => pure ()
  | pkt :: rest => do
    modify fun s => { s with transmitList := rest }
    handleResp pkt (answer.latency pkt)
    sendAtomic answer rest

def sendDma (answer : PeerAnswer) : DmaM cfg Unit := do
  let s ← get
  assert (!s.transmitList.isEmpty)
  match s.mode with
  | .timing => Prog.when (!(s.inRetry || s.sendEvent.isSome)) (trySendTimingReq answer)
  | .atomic => sendAtomic answer s.transmitList

def queueDma (pkt : DmaPacket) : DmaM cfg Unit :=
  modify fun s => { s with
    transmitList := s.transmitList ++ [pkt]
    pendingCount := s.pendingCount + 1 }

def packets (cfg : DmaConfig) (action : Nat) (a : DmaAction) : List DmaPacket :=
  (ChunkGen.all a.addr a.size.toNat cfg.cacheLineSize).map fun c =>
    { action, cmd := a.cmd, guestID := a.guestID, addr := c.addr, size := c.size,
      dataOffset := c.complete }

def dmaAction (a : DmaAction) (answer : PeerAnswer) : DmaM cfg Unit := do
  let s ← get
  modify fun s => { s with states := s.states ++ [some a.newState], actions := s.actions ++ [a] }
  forEach queueDma (packets cfg s.states.length a)
  sendDma answer

/-- `drain(dm)`: returns what the port still has to signal. -/
def drain (dm : Nat) : DmaM cfg Nat := do
  let s ← get
  if s.pendingCount == 0 then
    return 0
  else
    modify fun s => { s with drainManager := some dm, waited := s.waited ++ [dm] }
    return 1

def recvTimingResp (pkt : DmaPacket) : DmaM cfg Unit := do
  modify fun s => { s with inFlight := s.inFlight.erase pkt }
  handleResp pkt 0

def recvRetry (answer : PeerAnswer) : DmaM cfg Unit := do
  let s ← get
  assert (!s.transmitList.isEmpty)
  trySendTimingReq answer

end DmaPort

/-! ## Runs -/

/-- The device starts a transfer, the send event runs, the peer asks for a retry or answers a
packet, the system drains or changes its memory mode, a completion event runs, or time passes. -/
inductive DmaInput
  | dmaAction (a : DmaAction) (answer : PeerAnswer)
  | sendEvent (answer : PeerAnswer)
  | recvRetry (answer : PeerAnswer)
  | recvTimingResp (pkt : DmaPacket)
  | drain (dm : Nat)
  | setMode (mode : MemMode)
  | process (event : EventID)
  | advance (tick : Tick)

namespace DmaPort

def call : DmaInput → DmaM cfg Unit
  | .dmaAction a answer => dmaAction a answer
  | .sendEvent answer => do
    modify fun s => { s with sendEvent := none }
    sendDma answer
  | .recvRetry answer => recvRetry answer
  | .recvTimingResp pkt => recvTimingResp pkt
  | .drain dm => discard (drain dm)
  | .setMode mode => modify fun s => { s with mode }
  | .process event =>
    modify fun s => { s with scheduled := s.scheduled.filter fun e => e.1 != event }
  | .advance tick => modify fun s => { s with curTick := tick }

/-- No action that is under way and no scheduled event uses the event. -/
def EventFree (s : DmaPort cfg) (event : EventID) : Prop :=
  (∀ e ∈ s.scheduled, e.1 ≠ event) ∧
    ∀ st ∈ s.states, st.bind DmaReqState.completionEvent ≠ some event
deriving Decidable

/-- The completion event of an action is free, a peer retries what it refused and answers what it
took, and the system drains once at a time and changes its mode only when drained. -/
def Enabled (s : DmaPort cfg) : DmaInput → Prop
  | .dmaAction a _ => ∀ event ∈ a.event, s.EventFree event
  | .sendEvent _ => s.sendEvent = some s.curTick
  | .recvRetry _ => s.inRetry = true
  | .recvTimingResp pkt => pkt ∈ s.inFlight
  | .drain _ => s.drainManager = none
  | .setMode _ => s.pendingCount = 0
  | .process event => (event, s.curTick) ∈ s.scheduled
  | .advance tick => s.curTick ≤ tick ∧ (∀ t ∈ s.sendEvent, tick ≤ t) ∧
      ∀ e ∈ s.scheduled, tick ≤ e.2

instance (s : DmaPort cfg) (input : DmaInput) : Decidable (s.Enabled input) := by
  cases input <;> unfold Enabled <;> infer_instance

def pending (s : DmaPort cfg) : List DmaPacket := s.transmitList ++ s.inFlight

def issued (s : DmaPort cfg) : List (List DmaPacket) :=
  s.actions.mapIdx fun i a => packets cfg i a

def machine : Machine Abort (DmaPort cfg) DmaInput where
  start s := ∃ mode now, s = { mode, curTick := now }
  enabled := Enabled
  call := call

instance (s : DmaPort cfg) (input : DmaInput) : Decidable (machine.enabled s input) :=
  inferInstanceAs (Decidable (s.Enabled input))

theorem startup_reachable (C : DmaPort cfg → DmaInput → Prop) (mode : MemMode) (now : Tick) :
    machine.ReachableBy C ({ mode, curTick := now } : DmaPort cfg) :=
  .startup ⟨mode, now, rfl⟩

end DmaPort

end PardG5V
