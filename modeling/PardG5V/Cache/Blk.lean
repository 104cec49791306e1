import PardG5V.Cache.Config
import PardG5V.Mem.Packet

/-!
# Cache blocks

`hyper/mem/cache/blk.hh`: status bits, load locks and the store-conditional check. `sources` is
not in the source. It names the lines under which the bytes of a block were brought in and written
since, and no function reads it.
-/

namespace PardG5V

/-- A line of memory as the cache names it: a guest, a block address and a
security bit. -/
structure Line where
  guest : GuestID
  addr : Addr
  secure : Bool
deriving DecidableEq, Repr

def Packet.line (cfg : CacheConfig) (pkt : Packet) : Line :=
  ⟨pkt.guestID, cfg.blkAlign pkt.addr, pkt.isSecure⟩

namespace Packet

open Prog

variable {pkt : Packet} {bytes : List Byte} {pkt' : Packet}

@[simp] theorem getPtr_eq_ok : pkt.getPtr = .ok bytes ↔ pkt.data = some bytes := by
  unfold getPtr
  cases pkt.data with
  | none | some b => simp

@[simp] theorem setData_eq_ok : pkt.setData bytes = .ok pkt' ↔
      ∃ old, pkt.data = some old ∧
        { pkt with data := some (writeBytes old 0 (bytes.take pkt.size)) } = pkt' := by
  simp [setData]

@[simp] theorem makeResponse_eq_ok :
    pkt.makeResponse = .ok pkt' ↔ pkt.needsResponse = true ∧ pkt.isRequest = true ∧
      { pkt with cmd := pkt.cmd.responseCommand, expressSnoop := false } = pkt' := by
  simp [makeResponse]

theorem allocate_eq :
    pkt.allocate = { pkt with data := some (pkt.data.getD (List.replicate pkt.size 0)) } := by
  cases pkt with
  | mk cmd req addr size isSecure qosTag data =>
    cases data with
    | none | some bytes => rfl

end Packet

/-- The packet is for the line of its own request, as the constructors of `Packet` make it, and a
request for an exclusive copy is not marked shared. -/
@[mk_iff] structure Packet.WellFormed (cfg : CacheConfig) (pkt : Packet) : Prop where
  addr : cfg.blkAlign pkt.addr = cfg.blkAlign pkt.req.paddr
  secure : pkt.isSecure = pkt.req.secure
  guest : pkt.guestID = qosTagToGuestID pkt.req.qosTag
  unshared : pkt.needsExclusive = true → pkt.shared = false

instance (cfg : CacheConfig) : DecidablePred (Packet.WellFormed cfg) := fun pkt =>
  decidable_of_iff _ (Packet.wellFormed_iff cfg pkt).symm

structure BlkStatus where
  valid : Bool := false
  writable : Bool := false
  readable : Bool := false
  dirty : Bool := false
  hwPrefetched : Bool := false
  secure : Bool := false
deriving DecidableEq, Repr

structure Lock where
  contextId : Int
  lowAddr : Addr
  highAddr : Addr
deriving DecidableEq, Repr

namespace Lock

def reqHigh (req : Request) : Addr := req.paddr + BitVec.ofNat 64 req.size - 1

def matchesContext (lock : Lock) (contextId : Int) (req : Request) : Bool :=
  lock.contextId == contextId && decide (lock.lowAddr ≤ req.paddr) &&
    decide (reqHigh req ≤ lock.highAddr)

def overlapping (lock : Lock) (req : Request) : Bool :=
  decide (req.paddr ≤ lock.highAddr) && decide (lock.lowAddr ≤ reqHigh req)

def ofRequest (req : Request) : Except Abort Lock := do
  let contextId ← req.getContextId
  return ⟨contextId, req.paddr, reqHigh req⟩

end Lock

/-- `CacheBlk`. The position of a block is its index in the tag store. -/
structure CacheBlk where
  taskId : Nat := 1024
  tag : Addr := 0
  data : List Byte := []
  status : BlkStatus := {}
  whenReady : Tick := 0
  isTouched : Bool := false
  refCount : Nat := 0
  qosTag : BitVec 32 := -1
  srcMasterId : Nat := Request.invldMasterId
  lockList : List Lock := []
  sources : List Line := []
deriving DecidableEq, Repr

namespace CacheBlk

def isValid (blk : CacheBlk) : Bool := blk.status.valid
def isWritable (blk : CacheBlk) : Bool := blk.status.writable && blk.status.valid
def isReadable (blk : CacheBlk) : Bool := blk.status.readable && blk.status.valid
def isDirty (blk : CacheBlk) : Bool := blk.status.dirty
def isSecure (blk : CacheBlk) : Bool := blk.status.secure

def guestID (blk : CacheBlk) : GuestID := qosTagToGuestID (blk.qosTag.signExtend 64)

def withGuestID (blk : CacheBlk) (guest : GuestID) : CacheBlk :=
  { blk with qosTag := (setGuestID (blk.qosTag.signExtend 64) guest).setWidth 32 }

/-- `blk->qosTag = pkt->getQosTag()`: the tag loses its upper half. -/
def withQosTag (blk : CacheBlk) (qosTag : BitVec 64) : CacheBlk :=
  { blk with qosTag := qosTag.setWidth 32 }

/-- The line that a block in the set `set` stands for. -/
def line (cfg : CacheConfig) (set : Nat) (blk : CacheBlk) : Line :=
  ⟨blk.guestID, cfg.regenerateBlkAddr blk.tag set, blk.isSecure⟩

def invalidate (blk : CacheBlk) : CacheBlk :=
  { blk with status := {}, isTouched := false, lockList := [], sources := [] }

def setDirty (blk : CacheBlk) : CacheBlk :=
  { blk with status := { blk.status with dirty := true } }

def clearDirty (blk : CacheBlk) : CacheBlk :=
  { blk with status := { blk.status with dirty := false } }

def clearReadable (blk : CacheBlk) : CacheBlk :=
  { blk with status := { blk.status with readable := false } }

def clearWritable (blk : CacheBlk) : CacheBlk :=
  { blk with status := { blk.status with writable := false } }

/-! ## Load locks -/

def trackLoadLocked (blk : CacheBlk) (pkt : Packet) : Except Abort CacheBlk := do
  assert pkt.isLLSC
  let lock ← Lock.ofRequest pkt.req
  return { blk with lockList := lock :: blk.lockList }

def clearLoadLocks (blk : CacheBlk) (req : Request) : CacheBlk :=
  { blk with lockList := blk.lockList.filter fun lock => !lock.overlapping req }

/-- The search for a lock of the requesting context, which reads the context id
only when there is a lock. -/
def holdsLock (blk : CacheBlk) (req : Request) : Except Abort Bool :=
  match blk.lockList with
  | [] => .ok false
  | locks => do
    let contextId ← req.getContextId
    return locks.any fun lock => lock.matchesContext contextId req

/-- `checkWrite`: the block and the packet it leaves, and whether the write may
be performed. -/
def checkWrite (blk : CacheBlk) (pkt : Packet) : Except Abort (CacheBlk × Packet × Bool) :=
  if pkt.isLLSC then do
    let success ← blk.holdsLock pkt.req
    return (blk.clearLoadLocks pkt.req, pkt.setExtraData (if success then 1 else 0), success)
  else
    .ok (blk.clearLoadLocks pkt.req, pkt, true)

end CacheBlk

end PardG5V
