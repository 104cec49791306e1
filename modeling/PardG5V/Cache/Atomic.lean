import PardG5V.Cache.Issue

/-!
# Atomic mode

`recvAtomic` of `cache_impl.hh`. The objects below answer a packet in place, so
their reply is an input that says how they leave it.
-/

namespace PardG5V

/-- How the memory side leaves a packet that it answers. -/
structure Reply where
  cmd : MemCmd
  data : Option (List Byte) := none
  shared : Bool := false
  memInhibit : Bool := false
  busFirstWordDelay : Nat := 0
  busLastWordDelay : Nat := 0
deriving DecidableEq, Repr

/-- The answered packet: the reply does not touch the address, the guest, the
security bit or the request. -/
def Reply.apply (reply : Reply) (pkt : Packet) : Packet :=
  { pkt with
    cmd := reply.cmd
    data := reply.data
    shared := reply.shared
    memInhibit := reply.memInhibit
    busFirstWordDelay := reply.busFirstWordDelay
    busLastWordDelay := reply.busLastWordDelay }

namespace CacheM

variable {cfg : CacheConfig}

/-- `recvAtomic` for a request that a cache above answers: an invalidation still
takes this cache's copy. -/
def atomicInhibited (pkt : Packet) : CacheM cfg Unit := do
  check (assert (!pkt.req.uncacheable))
  Prog.when pkt.isInvalidate do
    let s ← get
    let hit := s.store.tags.findBlock pkt.guestID pkt.addr pkt.isSecure
    (match validBlk s (hit.map (BlkPtr.way (cfg.extractSet pkt.addr))) with
      | none => pure ()
      | some p => onStore (.takeOut (.inhibited pkt) p (s.store.blk p) none))
    onStore (.emit (.sentAtomic pkt))

/-- How a reply to the cache's own request answers the request from above. -/
def atomicReply (pkt bus : Packet) (hit : Option (BlkPtr cfg.assoc)) :
    CacheM cfg (Packet × List Packet) :=
  if pkt.needsResponse then do
    check (assert bus.isResponse)
    if bus.isError then
      let resp ← check pkt.makeResponse
      return ({ resp with cmd := bus.cmd }, [])
    else if bus.isRead || bus.cmd == .UpgradeResp then
      let s ← get
      let (p, writebacks) ← onStore (.handleFill s.mshrQueue bus hit s.curTick)
      let answered ← onStore (.satisfyCpuSideRequest pkt p false false)
      return (answered, writebacks)
    else
      let resp ← check pkt.makeResponse
      return (resp, [])
  else return (pkt, [])

def atomicMiss (pkt : Packet) (hit : Option (Fin cfg.assoc)) (reply : Reply) :
    CacheM cfg (Packet × List Packet) := do
  let s ← get
  match ← check (getBusPacket cfg pkt
      (hit.map (s.store.tags.blks (cfg.extractSet pkt.addr))) pkt.needsExclusive) with
  | none => do
    onStore (.emit (.sentAtomic pkt))
    return (reply.apply pkt, [])
  | some bus => do
    onStore (.emit (.sentAtomic bus))
    atomicReply pkt (reply.apply bus) (hit.map (BlkPtr.way (cfg.extractSet pkt.addr)))

/-- The end of `recvAtomic`: the writebacks are performed and the packet is made a
response. -/
def atomicFinish (pkt : Packet) (writebacks : List Packet) : CacheM cfg Packet := do
  Prog.forEach (fun wb => onStore (.emit (.sentAtomic wb))) writebacks
  let resp ← check (if pkt.needsResponse then pkt.makeResponse else pure pkt)
  onStore (.emit (.atomicResp resp))
  return resp

def recvAtomic (pkt : Packet) (reply : Reply) : CacheM cfg Packet :=
  if cfg.bypassCaches then do
    onStore (.emit (.sentAtomic pkt))
    return reply.apply pkt
  else if pkt.memInhibit then do
    atomicInhibited pkt
    return pkt
  else do
    let s ← get
    let r ← onStore (.access s.mshrQueue pkt s.curTick)
    if r.satisfied then atomicFinish r.pkt r.writebacks
    else
      let (answered, writebacks) ← atomicMiss r.pkt r.blk reply
      atomicFinish answered (r.writebacks ++ writebacks)

end CacheM

end PardG5V
