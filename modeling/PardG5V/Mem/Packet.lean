import PardG5V.Basic

/-!
# Commands, requests and packets

`mem/packet.hh`, `mem/packet.cc` and `mem/request.hh`: the command table with its attributes, the
request that travels with a packet, and the packet. A packet is a value here: a function that
changes a packet in place returns the changed one.
-/

namespace PardG5V

/-! ## Commands -/

inductive MemCmd
  | InvalidCmd
  | ReadReq
  | ReadResp
  | ReadRespWithInvalidate
  | WriteReq
  | WriteResp
  | Writeback
  | SoftPFReq
  | HardPFReq
  | SoftPFResp
  | HardPFResp
  | WriteInvalidateReq
  | WriteInvalidateResp
  | UpgradeReq
  | SCUpgradeReq
  | UpgradeResp
  | SCUpgradeFailReq
  | UpgradeFailResp
  | ReadExReq
  | ReadExResp
  | LoadLockedReq
  | StoreCondReq
  | StoreCondFailReq
  | StoreCondResp
  | SwapReq
  | SwapResp
  | MessageReq
  | MessageResp
  | InvalidDestError
  | BadAddressError
  | FunctionalReadError
  | FunctionalWriteError
  | PrintReq
  | FlushReq
  | InvalidationReq
deriving DecidableEq, Repr

inductive Attribute
  | IsRead
  | IsWrite
  | IsUpgrade
  | IsInvalidate
  | NeedsExclusive
  | IsRequest
  | IsResponse
  | NeedsResponse
  | IsSWPrefetch
  | IsHWPrefetch
  | IsLlsc
  | HasData
  | IsError
  | IsPrint
  | IsFlush
deriving DecidableEq, Repr

namespace MemCmd

open Attribute in
def attributes : MemCmd → List Attribute
  | InvalidCmd => []
  | ReadReq => [IsRead, IsRequest, NeedsResponse]
  | ReadResp => [IsRead, IsResponse, HasData]
  | ReadRespWithInvalidate => [IsRead, IsResponse, HasData, IsInvalidate]
  | WriteReq => [IsWrite, NeedsExclusive, IsRequest, NeedsResponse, HasData]
  | WriteResp => [IsWrite, NeedsExclusive, IsResponse]
  | Writeback => [IsWrite, NeedsExclusive, IsRequest, HasData]
  | SoftPFReq => [IsRead, IsRequest, IsSWPrefetch, NeedsResponse]
  | HardPFReq => [IsRead, IsRequest, IsHWPrefetch, NeedsResponse]
  | SoftPFResp => [IsRead, IsResponse, IsSWPrefetch, HasData]
  | HardPFResp => [IsRead, IsResponse, IsHWPrefetch, HasData]
  | WriteInvalidateReq =>
    [IsWrite, NeedsExclusive, IsInvalidate, IsRequest, HasData, NeedsResponse]
  | WriteInvalidateResp => [IsWrite, NeedsExclusive, IsResponse]
  | UpgradeReq => [IsInvalidate, NeedsExclusive, IsUpgrade, IsRequest, NeedsResponse]
  | SCUpgradeReq => [IsInvalidate, NeedsExclusive, IsUpgrade, IsLlsc, IsRequest, NeedsResponse]
  | UpgradeResp => [NeedsExclusive, IsUpgrade, IsResponse]
  | SCUpgradeFailReq => [IsInvalidate, NeedsExclusive, IsLlsc, IsRequest, NeedsResponse]
  | UpgradeFailResp => [NeedsExclusive, IsResponse]
  | ReadExReq => [IsRead, NeedsExclusive, IsInvalidate, IsRequest, NeedsResponse]
  | ReadExResp => [IsRead, NeedsExclusive, IsResponse, HasData]
  | LoadLockedReq => [IsRead, IsLlsc, IsRequest, NeedsResponse]
  | StoreCondReq => [IsWrite, NeedsExclusive, IsLlsc, IsRequest, NeedsResponse, HasData]
  | StoreCondFailReq => [IsWrite, NeedsExclusive, IsLlsc, IsRequest, NeedsResponse, HasData]
  | StoreCondResp => [IsWrite, NeedsExclusive, IsLlsc, IsResponse]
  | SwapReq => [IsRead, IsWrite, NeedsExclusive, IsRequest, HasData, NeedsResponse]
  | SwapResp => [IsRead, IsWrite, NeedsExclusive, IsResponse, HasData]
  | MessageReq => [IsWrite, IsRequest, NeedsResponse, HasData]
  | MessageResp => [IsWrite, IsResponse]
  | InvalidDestError => [IsResponse, IsError]
  | BadAddressError => [IsResponse, IsError]
  | FunctionalReadError => [IsRead, IsResponse, IsError]
  | FunctionalWriteError => [IsWrite, IsResponse, IsError]
  | PrintReq => [IsRequest, IsPrint]
  | FlushReq => [IsRequest, IsFlush, NeedsExclusive]
  | InvalidationReq => [NeedsExclusive, IsInvalidate, IsRequest]

def responseCommand : MemCmd → MemCmd
  | ReadReq => ReadResp
  | WriteReq => WriteResp
  | SoftPFReq => SoftPFResp
  | HardPFReq => HardPFResp
  | WriteInvalidateReq => WriteInvalidateResp
  | UpgradeReq => UpgradeResp
  | SCUpgradeReq => UpgradeResp
  | SCUpgradeFailReq => UpgradeFailResp
  | ReadExReq => ReadExResp
  | LoadLockedReq => ReadResp
  | StoreCondReq => StoreCondResp
  | StoreCondFailReq => StoreCondResp
  | SwapReq => SwapResp
  | MessageReq => MessageResp
  | _ => InvalidCmd

def testCmdAttrib (cmd : MemCmd) (attrib : Attribute) : Bool :=
  cmd.attributes.contains attrib

def isRead (cmd : MemCmd) : Bool := cmd.testCmdAttrib .IsRead
def isWrite (cmd : MemCmd) : Bool := cmd.testCmdAttrib .IsWrite
def isUpgrade (cmd : MemCmd) : Bool := cmd.testCmdAttrib .IsUpgrade
def isRequest (cmd : MemCmd) : Bool := cmd.testCmdAttrib .IsRequest
def isResponse (cmd : MemCmd) : Bool := cmd.testCmdAttrib .IsResponse
def needsExclusive (cmd : MemCmd) : Bool := cmd.testCmdAttrib .NeedsExclusive
def needsResponse (cmd : MemCmd) : Bool := cmd.testCmdAttrib .NeedsResponse
def isInvalidate (cmd : MemCmd) : Bool := cmd.testCmdAttrib .IsInvalidate
def hasData (cmd : MemCmd) : Bool := cmd.testCmdAttrib .HasData
def isLLSC (cmd : MemCmd) : Bool := cmd.testCmdAttrib .IsLlsc
def isError (cmd : MemCmd) : Bool := cmd.testCmdAttrib .IsError
def isPrint (cmd : MemCmd) : Bool := cmd.testCmdAttrib .IsPrint

end MemCmd

/-! ## Requests -/

/-- `Request`: the fields and flags that the modelled components read. `contextId` and `extraData`
are `none` while their valid flag is clear. -/
structure Request where
  paddr : Addr
  size : Nat
  uncacheable : Bool := false
  instFetch : Bool := false
  clearLL : Bool := false
  condSwap : Bool := false
  secure : Bool := false
  masterId : Nat := 0
  taskId : Nat := 1024
  qosTag : BitVec 64
  contextId : Option Int := none
  extraData : Option (BitVec 64) := none
deriving DecidableEq, Repr

namespace Request

def wbMasterId : Nat := 0

def funcMasterId : Nat := 1

def invldMasterId : Nat := 0xFFFF

/-- The QoS tag that `Request::setPhys` gives a physical request. -/
def defaultQosTag : BitVec 64 := 0xFFFFFFFFFFFFFFF

def getContextId (req : Request) : Except Abort Int :=
  match req.contextId with
  | some id => .ok id
  | none => .error .assertion

def getExtraData (req : Request) : Except Abort (BitVec 64) :=
  match req.extraData with
  | some data => .ok data
  | none => .error .assertion

/-- `Request(paddr, size, flags, mid)` with no flags set, through `setPhys`. -/
def phys (paddr : Addr) (size : Nat) (masterId : Nat) : Request :=
  { paddr, size, masterId, qosTag := defaultQosTag }

end Request

/-! ## Packets -/

/-- `memcpy(dst + off, src, |src|)`. -/
def writeBytes (dst : List Byte) (off : Nat) (src : List Byte) : List Byte :=
  dst.take off ++ src ++ dst.drop (off + src.length)

/-- The two queues of miss status registers of a cache, in the order of
`BaseCache::MSHRQueueIndex`. -/
inductive QueueIndex
  | mshrs
  | writeBuffer
deriving DecidableEq, Repr

/-- `Packet::SenderState`: of an address mapper, of a register of a cache, of a snoop that a cache
forwards upwards, or of any other object. -/
inductive SenderState
  | addrMapper (origAddr : Addr)
  | mshr (queue : QueueIndex) (idx : Nat)
  | forwardResponse
  | other (id : Nat)
deriving DecidableEq, Repr

/-- `Packet`. `data` is `none` while the data pointer is `NULL`, `staticData` is the flag
`STATIC_DATA`, and `senderState` lists the stack, the top first. -/
structure Packet where
  cmd : MemCmd
  req : Request
  addr : Addr
  size : Nat
  isSecure : Bool
  qosTag : BitVec 64
  data : Option (List Byte) := none
  staticData : Bool := false
  shared : Bool := false
  expressSnoop : Bool := false
  supplyExclusive : Bool := false
  memInhibit : Bool := false
  bytesValidStart : Nat := 0
  bytesValidEnd : Nat := 0
  busFirstWordDelay : Nat := 0
  busLastWordDelay : Nat := 0
  senderState : List SenderState := []
deriving DecidableEq, Repr

namespace Packet

def isRead (pkt : Packet) : Bool := pkt.cmd.isRead
def isWrite (pkt : Packet) : Bool := pkt.cmd.isWrite
def isUpgrade (pkt : Packet) : Bool := pkt.cmd.isUpgrade
def isRequest (pkt : Packet) : Bool := pkt.cmd.isRequest
def isResponse (pkt : Packet) : Bool := pkt.cmd.isResponse
def needsExclusive (pkt : Packet) : Bool := pkt.cmd.needsExclusive
def needsResponse (pkt : Packet) : Bool := pkt.cmd.needsResponse
def isInvalidate (pkt : Packet) : Bool := pkt.cmd.isInvalidate
def hasData (pkt : Packet) : Bool := pkt.cmd.hasData
def isLLSC (pkt : Packet) : Bool := pkt.cmd.isLLSC
def isError (pkt : Packet) : Bool := pkt.cmd.isError
def isPrint (pkt : Packet) : Bool := pkt.cmd.isPrint

/-- `PARDG5V_PKT_TO_GUESTID`. -/
def guestID (pkt : Packet) : GuestID := qosTagToGuestID pkt.qosTag

def ofRequest (req : Request) (cmd : MemCmd) : Packet :=
  { cmd, req, addr := req.paddr, size := req.size, isSecure := req.secure, qosTag := req.qosTag }

/-- `Packet(req, cmd, blkSize)`: a packet for the whole block of the request. -/
def ofBlock (req : Request) (cmd : MemCmd) (blkSize : Nat) : Packet :=
  { cmd, req, addr := req.paddr &&& ~~~(BitVec.ofNat 64 (blkSize - 1)), size := blkSize,
    isSecure := req.secure, qosTag := req.qosTag }

/-- `Packet(pkt, clearFlags)`: the copy keeps static data only, and the four coherence flags unless
`clearFlags` is set. -/
def copy (pkt : Packet) (clearFlags : Bool) : Packet :=
  { pkt with
    data := if pkt.staticData then pkt.data else none
    shared := pkt.shared && !clearFlags
    expressSnoop := pkt.expressSnoop && !clearFlags
    supplyExclusive := pkt.supplyExclusive && !clearFlags
    memInhibit := pkt.memInhibit && !clearFlags }

/-- `allocate()`: gives the packet data storage when it has none. -/
def allocate (pkt : Packet) : Packet :=
  match pkt.data with
  | some _ => pkt
  | none => { pkt with data := some (List.replicate pkt.size 0) }

def getPtr (pkt : Packet) : Except Abort (List Byte) :=
  match pkt.data with
  | some bytes => .ok bytes
  | none => .error .assertion

/-- `setData(p)`: copies the packet's size in bytes from `bytes` into its storage. -/
def setData (pkt : Packet) (bytes : List Byte) : Except Abort Packet := do
  let old ← pkt.getPtr
  return { pkt with data := some (writeBytes old 0 (bytes.take pkt.size)) }

def setExtraData (pkt : Packet) (data : BitVec 64) : Packet :=
  { pkt with req := { pkt.req with extraData := some data } }

/-- `makeResponse()`, also under the names `makeTimingResponse` and
`makeAtomicResponse`. -/
def makeResponse (pkt : Packet) : Except Abort Packet := do
  assert pkt.needsResponse
  assert pkt.isRequest
  return { pkt with cmd := pkt.cmd.responseCommand, expressSnoop := false }

def pushSenderState (pkt : Packet) (s : SenderState) : Packet :=
  { pkt with senderState := s :: pkt.senderState }

def popSenderState (pkt : Packet) : Except Abort Packet :=
  match pkt.senderState with
  | [] => .error .assertion
  | _ :: rest => .ok { pkt with senderState := rest }

end Packet

end PardG5V
