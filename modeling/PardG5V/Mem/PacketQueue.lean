import PardG5V.Mem.Packet

/-!
# Packet queues of the ports

`mem/packet_queue.cc`: packets that wait to be sent, ordered by the tick at which
they may go, and the send event of the queue. A neighbour that refuses a packet
puts the queue into `waitingOnRetry` until it calls back.
-/

namespace PardG5V

structure DeferredPacket where
  tick : Tick
  pkt : Packet
  sendAsSnoop : Bool
deriving DecidableEq, Repr

/-- `PacketQueue`; `sendEvent` is the tick for which the send event is scheduled. -/
structure PacketQueue where
  transmitList : List DeferredPacket := []
  waitingOnRetry : Bool := false
  sendEvent : Option Tick := none
deriving DecidableEq, Repr

namespace PacketQueue

def deferredPacketReady (q : PacketQueue) (now : Tick) : Bool :=
  match q.transmitList with
  | [] => false
  | dp :: _ => decide (dp.tick ≤ now)

/-- `schedSendEvent`: keeps the earlier of two ticks. -/
def schedSendEvent (q : PacketQueue) (tick : Tick) : Except Abort PacketQueue :=
  if q.waitingOnRetry then do
    assert q.sendEvent.isNone
    return q
  else
    match q.sendEvent with
    | none => .ok { q with sendEvent := some tick }
    | some t => .ok { q with sendEvent := some (min t tick) }

/-- The insertion sort of `schedSendTiming` behind the first packet. -/
def insertByTick (dp : DeferredPacket) : List DeferredPacket → List DeferredPacket
  | [] => [dp]
  | d :: ds => if d.tick ≤ dp.tick then d :: insertByTick dp ds else dp :: d :: ds

/-- The end of `schedSendTiming`: the place of a packet in the queue. A packet at
the head schedules the send event. -/
def enqueue (q : PacketQueue) (dp : DeferredPacket) : Except Abort PacketQueue :=
  match q.transmitList with
  | [] => schedSendEvent { q with transmitList := [dp] } dp.tick
  | d :: ds =>
    if dp.tick < d.tick then
      schedSendEvent { q with transmitList := dp :: d :: ds } dp.tick
    else if (List.getLast (d :: ds) (List.cons_ne_nil d ds)).tick ≤ dp.tick then
      .ok { q with transmitList := d :: ds ++ [dp] }
    else
      .ok { q with transmitList := d :: insertByTick dp ds }

def schedSendTiming (q : PacketQueue) (now : Tick) (pkt : Packet) (tick : Tick)
    (sendAsSnoop : Bool) : Except Abort PacketQueue := do
  assert (now ≤ tick)
  assert (!pkt.expressSnoop)
  if 100 < q.transmitList.length then .error .panicked
  else q.enqueue ⟨tick, pkt, sendAsSnoop⟩

/-- The earlier of two ticks, where `none` stands for `MaxTick`. -/
def earlier : Option Tick → Option Tick → Option Tick
  | none, t => t
  | t, none => t
  | some a, some b => some (min a b)

/-- `scheduleSend(time)`: the next send, for a queued packet or for `time`. -/
def scheduleSend (q : PacketQueue) (now : Tick) (time : Option Tick) : PacketQueue :=
  match earlier (q.transmitList.head?.map (·.tick)) time, q.sendEvent with
  | some t, none => { q with sendEvent := some (max t (now + 1)) }
  | _, _ => q

/-- `trySendTiming`: the head of the queue leaves it when the neighbour accepts
it, and stays at the head otherwise. -/
def trySendTiming (q : PacketQueue) (now : Tick) (accepts : Bool) :
    Except Abort (PacketQueue × DeferredPacket) := do
  assert (q.deferredPacketReady now)
  match q.transmitList with
  | [] => .error .assertion
  | dp :: rest =>
    if accepts then return ({ q with transmitList := rest, waitingOnRetry := false }, dp)
    else
      assert q.sendEvent.isNone
      return ({ q with waitingOnRetry := true }, dp)

end PacketQueue

end PardG5V
