import PardG5V.Lib.Machine
import PardG5V.Lib.Outbox
import PardG5V.Mem.Packet

/-!
# The bridge between two buses

`hyper/mem/bridge.cc`. A request that expects a response is accepted only with room for both. The
transmit list and the send event of a port are an `Outbox`. `sendTimingReq` and `sendTimingResp`
call the peer, which may call back before it returns: one input runs `trySendTiming` up to that
call, another one from the answer on, and requests and responses may come in between.

A packet keeps the source that the bus of its side gave it. The bridge numbers the requests that
it accepts, so that a response can be told to belong to one of them.
-/

namespace PardG5V

open Prog

abbrev PortID := BitVec 16

def invalidPortID : PortID := 0xFFFF

/-- A packet with the ports between which a bus routes it, and its number. -/
structure BridgePacket where
  pkt : Packet
  src : PortID
  dest : PortID := invalidPortID
  id : Nat := 0
deriving DecidableEq, Repr

namespace BridgePacket

/-- `pkt->needsResponse() && !pkt->memInhibitAsserted()`. -/
def expectsResponse (p : BridgePacket) : Bool := p.pkt.needsResponse && !p.pkt.memInhibit

def clearDelays (p : BridgePacket) : BridgePacket :=
  { p with pkt := { p.pkt with busFirstWordDelay := 0, busLastWordDelay := 0 } }

def pushRequestState (p : BridgePacket) : BridgePacket :=
  { p with pkt := p.pkt.pushSenderState (.other p.src.toNat) }

/-- `popSenderState()`, which has to be a `RequestState`, and `setDest(origSrc)`. -/
def popRequestState (p : BridgePacket) : Except Abort BridgePacket :=
  match p.pkt.senderState with
  | .other origSrc :: rest =>
    .ok { p with pkt := { p.pkt with senderState := rest }, dest := BitVec.ofNat 16 origSrc }
  | _ => .error .assertion

end BridgePacket

/-- The parameters. A clock cycle is at least one tick. -/
structure BridgeConfig where
  reqQueueLimit : Nat
  respQueueLimit : Nat
  delay : Nat
  clockPeriod : Nat
  clockPeriod_pos : 0 < clockPeriod

def BridgeConfig.clockEdge (cfg : BridgeConfig) (now : Tick) (cycles : Nat) : Tick :=
  ((now + cfg.clockPeriod - 1) / cfg.clockPeriod + cycles) * cfg.clockPeriod

structure Bridge (cfg : BridgeConfig) where
  curTick : Tick := 0
  master : Outbox BridgePacket := {}
  slave : Outbox BridgePacket := {}
  outstandingResponses : Nat := 0
  retryReq : Bool := false
  /-- The calls of `sendRetry()`. -/
  retries : Nat := 0
deriving DecidableEq, Repr

variable {cfg : BridgeConfig}

abbrev BridgeM (cfg : BridgeConfig) := Prog Abort (Bridge cfg)

namespace Bridge

def respQueueFull (b : Bridge cfg) : Bool := b.outstandingResponses == cfg.respQueueLimit

def reqQueueFull (b : Bridge cfg) : Bool := b.master.queue.length == cfg.reqQueueLimit

/-- `schedule(event, when)`: asserts that the event is not scheduled, and not in the past. -/
def canSchedule (b : Bridge cfg) (event : Option Tick) (tick : Tick) : Bool :=
  event.isNone && b.curTick ≤ tick

/-! ## Requests -/

def schedTimingReq (p : BridgePacket) (tick : Tick) : BridgeM cfg Unit := do
  let p := if p.expectsResponse then p.pushRequestState else p
  let b ← get
  Prog.when b.master.queue.isEmpty (assert (b.canSchedule b.master.event tick))
  assert (b.master.queue.length != cfg.reqQueueLimit)
  modify fun b => { b with master := b.master.push p tick }

/-- Space for the response is reserved, if one is expected and there is any. Returns whether
the request can be accepted. -/
def reserveResponse (p : BridgePacket) : BridgeM cfg Bool := do
  let b ← get
  if !p.expectsResponse then
    return true
  else if b.respQueueFull then
    return false
  else
    assert (b.outstandingResponses != cfg.respQueueLimit)
    modify fun b => { b with outstandingResponses := b.outstandingResponses + 1 }
    return true

/-- `BridgeSlavePort::recvTimingReq(pkt)`: returns whether the request is accepted. -/
def recvTimingReq (p : BridgePacket) : BridgeM cfg Bool := do
  let b ← get
  assert (!b.retryReq)
  if b.reqQueueFull then
    modify fun b => { b with retryReq := true }
    return false
  else if ← reserveResponse p then
    let b ← get
    let p := { p with id := b.master.pushed.length }
    schedTimingReq p.clearDelays (cfg.clockEdge b.curTick cfg.delay)
    return true
  else
    modify fun b => { b with retryReq := true }
    return false

/-- `BridgeSlavePort::retryStalledReq()`: after `sendRetry()` the requester may call again. -/
def retryStalledReq : BridgeM cfg Unit :=
  modify fun b => { b with retryReq := false, retries := b.retries + b.retryReq.toNat }

/-! ## Responses -/

def schedTimingResp (p : BridgePacket) (tick : Tick) : BridgeM cfg Unit := do
  let p ← p.popRequestState
  assert (p.dest != invalidPortID)
  let b ← get
  Prog.when b.slave.queue.isEmpty (assert (b.canSchedule b.slave.event tick))
  modify fun b => { b with slave := b.slave.push p tick }

def recvTimingResp (p : BridgePacket) : BridgeM cfg Unit := do
  let b ← get
  schedTimingResp p.clearDelays (cfg.clockEdge b.curTick cfg.delay)

/-! ## Sending -/

/-- `trySendTiming` up to the call of the peer: the front of the list, which has to be ready. -/
def checkFront (b : Bridge cfg) (o : Outbox BridgePacket) : Except Abort BridgePacket :=
  match o.queue with
  | [] => .error .assertion
  | first :: _ => do
    assert (first.1 ≤ b.curTick)
    return first.2

/-- `BridgeMasterPort::trySendTiming()` up to `sendTimingReq`: returns what is sent. -/
def trySendReq : BridgeM cfg BridgePacket := do
  let b ← get
  let p ← checkFront b b.master
  modify fun b => { b with master := b.master.offer }
  return p

/-- The next packet of a list is scheduled, if there is one. -/
def checkNext (b : Bridge cfg) (o : Outbox BridgePacket) : Except Abort Unit :=
  match o.queue.tail with
  | [] => .ok ()
  | next :: _ => assert (b.canSchedule o.event (max next.1 (cfg.clockEdge b.curTick 0)))

/-- `BridgeMasterPort::trySendTiming()` from the answer of `sendTimingReq` on. -/
def sentReq (accepted : Bool) : BridgeM cfg Unit := do
  let b ← get
  if accepted then
    checkNext b b.master
    modify fun b => { b with master := b.master.accept (cfg.clockEdge b.curTick 0) }
    retryStalledReq
  else
    modify fun b => { b with master := b.master.refuse }

/-- `BridgeSlavePort::trySendTiming()` up to `sendTimingResp`: returns what is sent. -/
def trySendResp : BridgeM cfg BridgePacket := do
  let b ← get
  let p ← checkFront b b.slave
  modify fun b => { b with slave := b.slave.offer }
  return p

/-- `BridgeSlavePort::trySendTiming()` from the answer of `sendTimingResp` on. -/
def sentResp (accepted : Bool) : BridgeM cfg Unit := do
  let b ← get
  if accepted then
    assert (b.outstandingResponses != 0)
    checkNext b b.slave
    modify fun b => { b with
      slave := b.slave.accept (cfg.clockEdge b.curTick 0)
      outstandingResponses := b.outstandingResponses - 1 }
    Prog.when (!b.reqQueueFull && b.retryReq) retryStalledReq
  else
    modify fun b => { b with slave := b.slave.refuse }

end Bridge

/-! ## Runs -/

/-- A request or a response comes, a send event runs, the peer asks for a retry or answers a packet,
or time passes. -/
inductive BridgeInput
  | recvTimingReq (p : BridgePacket)
  | recvTimingResp (p : BridgePacket)
  | sendReq
  | sentReq (accepted : Bool)
  | sendResp
  | sentResp (accepted : Bool)
  | advance (tick : Tick)
deriving DecidableEq, Repr

/-- What the bridge answers: whether it takes a request, or the packet that it sends. -/
inductive BridgeAnswer
  | accepted (yes : Bool)
  | offered (p : BridgePacket)
  | done
deriving DecidableEq, Repr

namespace Bridge

def call : BridgeInput → BridgeM cfg BridgeAnswer
  | .recvTimingReq p => .accepted <$> recvTimingReq p
  | .recvTimingResp p => (fun _ => .done) <$> recvTimingResp p
  | .sendReq => .offered <$> trySendReq
  | .sentReq accepted => (fun _ => .done) <$> sentReq accepted
  | .sendResp => .offered <$> trySendResp
  | .sentResp accepted => (fun _ => .done) <$> sentResp accepted
  | .advance tick => (fun _ => .done) <$> modify fun b => { b with curTick := tick }

def accepted (b : Bridge cfg) : List BridgePacket := b.master.pushed

/-- The requests that were forwarded, expect a response and have not got it yet. -/
def pending (b : Bridge cfg) : List BridgePacket :=
  b.master.sent.filter fun q => q.expectsResponse && !b.slave.pushed.any (·.id == q.id)

/-- No call of a peer is under way. -/
def Settled (b : Bridge cfg) : Prop := b.master.peer ≠ .offered ∧ b.slave.peer ≠ .offered
deriving Decidable

/-- The send event of the port is due, or its peer asks for a retry. -/
def Due (b : Bridge cfg) (o : Outbox BridgePacket) : Prop :=
  o.event = some b.curTick ∨ o.peer = .refused
deriving Decidable

/-- A refused requester waits for the retry and has a port of its own, a response answers a pending
request with its sender states, and events run when they are due. -/
def Enabled (b : Bridge cfg) : BridgeInput → Prop
  | .recvTimingReq p => b.retryReq = false ∧ p.src ≠ invalidPortID
  | .recvTimingResp p => ∃ q ∈ b.pending, q.id = p.id ∧ q.pkt.senderState = p.pkt.senderState
  | .sendReq => b.Settled ∧ b.Due b.master
  | .sentReq _ => b.master.peer = .offered
  | .sendResp => b.Settled ∧ b.Due b.slave
  | .sentResp _ => b.slave.peer = .offered
  | .advance tick => b.Settled ∧ b.curTick ≤ tick ∧ (∀ t ∈ b.master.event, tick ≤ t) ∧
      ∀ t ∈ b.slave.event, tick ≤ t

instance (b : Bridge cfg) (input : BridgeInput) : Decidable (b.Enabled input) := by
  cases input <;> unfold Enabled <;> infer_instance

/-- The bridge, with what it was given and what it answered. -/
abbrev machine (cfg : BridgeConfig) :
    Machine Abort (Bridge cfg × List (BridgeInput × BridgeAnswer)) BridgeInput :=
  .recording (fun b => ∃ now, b = { curTick := now }) Enabled call

end Bridge

end PardG5V
