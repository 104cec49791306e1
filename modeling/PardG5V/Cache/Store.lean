import PardG5V.Cache.BlkOps
import PardG5V.Cache.MshrQueue
import PardG5V.Cache.Tags

/-!
# The blocks of a cache

The functions of `cache_impl.hh` that work on the tag store and on `tempBlock`. The queue of
misses is only read here, so it is an argument. Every change of a block goes through `changeBlk`,
which also writes it into the log of the cache: what the cache sent and what it did to its blocks.
No function reads the log.
-/

namespace PardG5V

inductive Site
  | request (pkt : Packet)
  | snoop (pkt : Packet) (invalidate : Bool)
  | inhibited (pkt : Packet)
  | response (pkt : Packet)
  | writeback
  | flush
  | other
deriving DecidableEq, Repr

/-- What the cache did. `victim` and `insert` record a guest, its way mask and a set and way;
`change` a block before and after and the packet that carries its data away; the others a packet
that left the cache or went into its write buffer. -/
inductive Event
  | victim (guest : GuestID) (mask : BitVec 64) (set way : Nat)
  | insert (guest : GuestID) (mask : BitVec 64) (set way : Nat)
  | allocated (pkt : Packet)
  | change (site : Site) (before after : CacheBlk) (handed : Option Packet)
  | cpuResp (pkt : Packet)
  | snoopResp (pkt : Packet)
  | atomicResp (pkt : Packet)
  | buffered (pkt : Packet) (blocked : Bool)
  | sentTiming (pkt : Packet)
  | sentAtomic (pkt : Packet)
  | sentFunctional (pkt : Packet)
deriving DecidableEq, Repr

inductive BlkPtr (assoc : Nat)
  | way (set : Nat) (w : Fin assoc)
  | temp
deriving DecidableEq, Repr

/-- The tag store, `tempBlock` with its set number, and the log, newest first. -/
structure Store (cfg : CacheConfig) where
  tags : LRU cfg
  tempBlock : CacheBlk
  tempSet : Nat
  log : List Event

abbrev StoreM (cfg : CacheConfig) := Prog Abort (Store cfg)

namespace Store

variable {cfg : CacheConfig}

def initial (cfg : CacheConfig) (waymasks : List (BitVec 64)) : Store cfg where
  tags := .initial cfg waymasks
  tempBlock := { data := List.replicate cfg.blkSize 0 }
  tempSet := 0
  log := []

def blk (s : Store cfg) : BlkPtr cfg.assoc → CacheBlk
  | .way set w => s.tags.blks set w
  | .temp => s.tempBlock

def setOf (s : Store cfg) : BlkPtr cfg.assoc → Nat
  | .way set _ => set
  | .temp => s.tempSet

def setBlk (s : Store cfg) (p : BlkPtr cfg.assoc) (blk : CacheBlk) : Store cfg :=
  match p with
  | .way set w => { s with tags := s.tags.setBlk set w blk }
  | .temp => { s with tempBlock := blk }

def record (s : Store cfg) (e : Event) : Store cfg := { s with log := e :: s.log }

def changed (s : Store cfg) (site : Site) (p : BlkPtr cfg.assoc) (after : CacheBlk)
    (handed : Option Packet) : Store cfg :=
  (s.setBlk p after).record (.change site (s.blk p) after handed)

section Lemmas

variable (s : Store cfg) (p q : BlkPtr cfg.assoc) (e : Event) (b : CacheBlk)

@[simp] theorem blk_record : (s.record e).blk p = s.blk p := by cases p <;> rfl

@[simp] theorem setOf_record : (s.record e).setOf p = s.setOf p := by cases p <;> rfl

@[simp] theorem blk_setBlk : (s.setBlk p b).blk q = if q = p then b else s.blk q := by
  cases p with
  | temp =>
    cases q with
    | temp => rfl
    | way set w => simp [setBlk, blk]
  | way set w =>
    cases q with
    | temp => simp [setBlk, blk]
    | way set' w' => simp [setBlk, blk, LRU.setBlk]

@[simp] theorem setOf_setBlk : (s.setBlk p b).setOf q = s.setOf q := by
  cases p with
  | temp | way set w => cases q <;> rfl

@[simp] theorem sets_setBlk : (s.setBlk p b).tags.sets = s.tags.sets := by cases p <;> rfl

@[simp] theorem waymasks_setBlk : (s.setBlk p b).tags.waymasks = s.tags.waymasks := by
  cases p <;> rfl

@[simp] theorem log_setBlk : (s.setBlk p b).log = s.log := by cases p <;> rfl

variable (site : Site) (handed : Option Packet)

@[simp] theorem blk_changed : (s.changed site p b handed).blk q = if q = p then b else s.blk q := by
  rw [changed, blk_record, blk_setBlk]

@[simp] theorem setOf_changed : (s.changed site p b handed).setOf q = s.setOf q := by
  rw [changed, setOf_record, setOf_setBlk]

@[simp] theorem sets_changed : (s.changed site p b handed).tags.sets = s.tags.sets :=
  sets_setBlk s p b

@[simp] theorem waymasks_changed : (s.changed site p b handed).tags.waymasks = s.tags.waymasks :=
  waymasks_setBlk s p b

@[simp] theorem log_changed :
    (s.changed site p b handed).log = .change site (s.blk p) b handed :: s.log := by
  simp [changed, record]

theorem tags_blks (set : Nat) (w : Fin cfg.assoc) : s.tags.blks set w = s.blk (.way set w) := rfl

end Lemmas

end Store

namespace StoreM

open Store

variable {cfg : CacheConfig}

def emit (e : Event) : StoreM cfg Unit := modify (·.record e)

/-- Runs a check or computation that does not touch the blocks. -/
def check {α : Type} (x : Except Abort α) : StoreM cfg α := liftM x

def changeBlk (site : Site) (p : BlkPtr cfg.assoc) (after : CacheBlk) (handed : Option Packet) :
    StoreM cfg Unit :=
  modify (·.changed site p after handed)

/-- `tags->invalidate(blk)` for a block of the tag store, then `blk->invalidate()`. -/
def takeOut (site : Site) (p : BlkPtr cfg.assoc) (blk : CacheBlk) (handed : Option Packet) :
    StoreM cfg Unit :=
  match p with
  | .way set w => do
    let s ← get
    let (tags, blk) ← check (s.tags.invalidate set w blk)
    modify fun s => { s with tags := tags }
    changeBlk site p blk.invalidate handed
  | .temp => changeBlk site p blk.invalidate handed

section Inversion

variable {s s' : Store cfg} {u : Unit}

@[simp] theorem check_eq_ok {α : Type} {x : Except Abort α} {a : α} :
    check x s = .ok (a, s') ↔ x = .ok a ∧ s = s' := Prog.lift_eq_ok

@[simp] theorem emit_eq_ok {e : Event} : emit e s = .ok (u, s') ↔ s.record e = s' :=
  Prog.modify_eq_ok

@[simp] theorem changeBlk_eq_ok {site : Site} {p : BlkPtr cfg.assoc} {after : CacheBlk}
    {handed : Option Packet} :
    changeBlk site p after handed s = .ok (u, s') ↔ s.changed site p after handed = s' :=
  Prog.modify_eq_ok

end Inversion

/-! ## Write-outs -/

def writebackBlk (p : BlkPtr cfg.assoc) : StoreM cfg Packet := do
  let s ← get
  let blk := s.blk p
  check (assert (blk.isValid && blk.isDirty))
  let writeback := blk.writebackPkt cfg (s.setOf p)
  changeBlk .writeback p blk.writtenBack (some writeback)
  return writeback

def writebackVisitor (p : BlkPtr cfg.assoc) : StoreM cfg Unit := do
  let s ← get
  let blk := s.blk p
  Prog.when blk.isDirty do
    check (assert blk.isValid)
    let packet := blk.flushPkt cfg (s.setOf p)
    emit (.sentFunctional packet)
    changeBlk .flush p blk.clearDirty (some packet)

def invalidateVisitor (p : BlkPtr cfg.assoc) : StoreM cfg Unit := do
  let s ← get
  let blk := s.blk p
  Prog.when blk.isValid do
    check (assert (!blk.isDirty))
    takeOut .other p blk none

/-- `forEachBlk` over the sets and ways of the tag store. -/
def forEachBlk (visitor : BlkPtr cfg.assoc → StoreM cfg Unit) : StoreM cfg Unit :=
  Prog.forEach
    (fun set => Prog.forEach (fun w => visitor (.way set w)) (List.finRange cfg.assoc))
    (List.range (2 ^ cfg.setBits))

def memWriteback : StoreM cfg Unit := forEachBlk writebackVisitor

def memInvalidate : StoreM cfg Unit := forEachBlk invalidateVisitor

def findBlock (guest : GuestID) (addr : Addr) (isSecure : Bool) :
    StoreM cfg (Option (Fin cfg.assoc)) := do
  let s ← get
  return s.tags.findBlock guest addr isSecure

def uncacheableFlush (pkt : Packet) : StoreM cfg Unit := do
  Prog.when pkt.req.clearLL (modify fun s => { s with tags := s.tags.clearLocks })
  match ← findBlock pkt.guestID pkt.addr pkt.isSecure with
  | none => pure ()
  | some w => do
    writebackVisitor (.way (cfg.extractSet pkt.addr) w)
    invalidateVisitor (.way (cfg.extractSet pkt.addr) w)

/-! ## Requests from the CPU side -/

/-- `satisfyCpuSideRequest`. A response with mem-inhibit set carries the line away. -/
def satisfyCpuSideRequest (pkt : Packet) (p : BlkPtr cfg.assoc)
    (deferredResponse pendingDowngrade : Bool) : StoreM cfg Packet := do
  let s ← get
  let served ← check ((s.blk p).serve cfg pkt deferredResponse pendingDowngrade (p == .temp))
  let handed := if served.pkt.memInhibit then some served.pkt else none
  if served.gaveUp then
    takeOut (.request pkt) p served.blk handed
    return served.pkt
  else
    changeBlk (.request pkt) p served.blk handed
    return served.pkt

/-- `allocateBlock`: the way to use and the writebacks it causes, or no way when
the victim has an upgrade outstanding. -/
def allocateBlock (mq : MSHRQueue) (guest : GuestID) (addr : Addr) :
    StoreM cfg (Option (Fin cfg.assoc) × List Packet) := do
  let s ← get
  let (mask, w) ← check (s.tags.findVictim guest addr)
  let set := cfg.extractSet addr
  emit (.victim guest mask set w)
  let blk := s.tags.blks set w
  if blk.isValid then
    match mq.findMatch blk.guestID (cfg.regenerateBlkAddr blk.tag set) blk.isSecure with
    | some i =>
      check (assert (!blk.isWritable))
      check (assert (mq.registers i).needsExclusive)
      return (none, [])
    | none =>
      if blk.isDirty then
        let writeback ← writebackBlk (.way set w)
        return (some w, [writeback])
      else
        return (some w, [])
  else
    return (some w, [])

/-- `insertBlock` on a block of the set of the packet's address. -/
def insertBlock (guest : GuestID) (pkt : Packet) (w : Fin cfg.assoc) : StoreM cfg Unit := do
  let s ← get
  let set := cfg.extractSet pkt.addr
  let (tags, blk) ← check (s.tags.insertBlock guest pkt (s.tags.blks set w) w)
  modify fun s => { s with tags := tags }
  emit (.insert guest ((s.tags.waymasks[guest.toNat]?).getD 0) set w)
  changeBlk .other (.way set w) blk none

/-- Temporary storage for a response that finds no replaceable block. -/
def useTempBlock (pkt : Packet) : StoreM cfg Unit := do
  let s ← get
  check (assert (!s.tempBlock.isValid))
  modify fun s => { s with tempSet := cfg.extractSet pkt.addr }
  changeBlk .other .temp
    { s.tempBlock.withQosTag pkt.qosTag with tag := cfg.extractTag pkt.addr } none

/-- The first part of `handleFill`: the block that takes a response, and the
writebacks that making room for it causes. -/
def fillPlace (mq : MSHRQueue) (pkt : Packet) (hit : Option (BlkPtr cfg.assoc)) :
    StoreM cfg (BlkPtr cfg.assoc × List Packet) :=
  match hit with
  | some p => do
    let s ← get
    check (assert ((s.blk p).tag == cfg.extractTag pkt.addr))
    check (assert (pkt.hasData || (s.blk p).isValid))
    return (p, [])
  | none => do
    check (assert pkt.hasData)
    match ← allocateBlock mq pkt.guestID pkt.addr with
    | (some w, writebacks) =>
      insertBlock pkt.guestID pkt w
      return (.way (cfg.extractSet pkt.addr) w, writebacks)
    | (none, writebacks) =>
      useTempBlock pkt
      return (.temp, writebacks)

/-- `handleFill`: brings the block of a response in and returns it with the
writebacks that makes. -/
def handleFill (mq : MSHRQueue) (pkt : Packet) (hit : Option (BlkPtr cfg.assoc)) (now : Tick) :
    StoreM cfg (BlkPtr cfg.assoc × List Packet) := do
  let (p, writebacks) ← fillPlace mq pkt hit
  let s ← get
  check (assert (hit.isSome || !(s.blk p).isValid))
  let filled ← check ((s.blk p).fill cfg pkt now)
  changeBlk .other p filled none
  return (p, writebacks)

/-- What `access` leaves: whether the request is satisfied, the block it found,
the latency, the writebacks to perform and the packet. -/
structure Accessed (cfg : CacheConfig) where
  satisfied : Bool
  blk : Option (Fin cfg.assoc)
  lat : Nat
  writebacks : List Packet
  pkt : Packet

/-- The block that takes a writeback from above: the one it hits, or a new one. -/
def writebackPlace (mq : MSHRQueue) (pkt : Packet) (hit : Option (Fin cfg.assoc)) :
    StoreM cfg (Option (Fin cfg.assoc) × List Packet) :=
  match hit with
  | some w => return (some w, [])
  | none => do
    match ← allocateBlock mq pkt.guestID pkt.addr with
    | (none, writebacks) => return (none, writebacks)
    | (some w, writebacks) =>
      insertBlock pkt.guestID pkt w
      emit (.allocated pkt)
      let s ← get
      changeBlk .other (.way (cfg.extractSet pkt.addr) w)
        { s.tags.blks (cfg.extractSet pkt.addr) w with
          status := { valid := true, readable := true } } none
      return (some w, writebacks)

/-- The writeback case of `access`: the block is written into the cache, whether
or not the cache had it. -/
def accessWriteback (mq : MSHRQueue) (pkt : Packet) (hit : Option (Fin cfg.assoc)) (lat : Nat) :
    StoreM cfg (Accessed cfg) := do
  check (assert (cfg.blkSize == pkt.size))
  let (dest, writebacks) ← writebackPlace mq pkt hit
  check (assert (pkt.req.masterId < cfg.maxMasters))
  match dest with
  | none => return ⟨false, none, lat, writebacks, pkt⟩
  | some w => do
    let s ← get
    let blk ← check ((s.tags.blks (cfg.extractSet pkt.addr) w).takeWriteback cfg pkt)
    changeBlk .other (.way (cfg.extractSet pkt.addr) w) blk none
    check (assert (!pkt.needsResponse))
    return ⟨true, some w, lat, writebacks, pkt⟩

/-- The end of `access`, for a request that the block found cannot serve. -/
def accessMiss (mq : MSHRQueue) (pkt : Packet) (hit : Option (Fin cfg.assoc)) (lat : Nat) :
    StoreM cfg (Accessed cfg) :=
  if pkt.cmd = .Writeback then accessWriteback mq pkt hit lat
  else do
    check (assert (pkt.req.masterId < cfg.maxMasters))
    -- a store conditional that finds no block has failed
    return if hit.isNone && pkt.isLLSC && pkt.isWrite then
        ⟨true, none, lat, [], pkt.setExtraData 0⟩
      else ⟨false, hit, lat, [], pkt⟩

/-- The test of `access` for a block that may serve the request. -/
def permits (pkt : Packet) (blk : CacheBlk) : Bool :=
  if pkt.needsExclusive then blk.isWritable else blk.isReadable

def accessCacheable (mq : MSHRQueue) (pkt : Packet) (now : Tick) : StoreM cfg (Accessed cfg) := do
  let s ← get
  let (tags, hit, lat) := s.tags.accessBlock pkt.guestID pkt.addr pkt.isSecure now
  modify fun s => { s with tags := tags }
  match hit with
  | none => accessMiss mq pkt none lat
  | some w =>
    if permits pkt (tags.blks (cfg.extractSet pkt.addr) w) then do
      check (assert (pkt.req.masterId < cfg.maxMasters))
      let pkt ← satisfyCpuSideRequest pkt (.way (cfg.extractSet pkt.addr) w) false false
      return ⟨true, some w, lat, [], pkt⟩
    else accessMiss mq pkt (some w) lat

def access (mq : MSHRQueue) (pkt : Packet) (now : Tick) : StoreM cfg (Accessed cfg) :=
  if pkt.req.uncacheable then do
    uncacheableFlush pkt
    return ⟨false, none, cfg.hitLatency, [], pkt⟩
  else accessCacheable mq pkt now

/-! ## Snoops -/

/-- The snoop hit of `handleSnoop`: the snoop packet it leaves and the response. -/
def snoopHit (pkt : Packet) (p : BlkPtr cfg.assoc)
    (invalidate needsExclusive isTiming isDeferred pendingInval : Bool) :
    StoreM cfg (Packet × Option Packet) := do
  let s ← get
  let r ← check ((s.blk p).snoop cfg pkt invalidate needsExclusive isTiming isDeferred pendingInval)
  if r.gaveUp then
    takeOut (.snoop pkt invalidate) p r.blk r.response
    return (r.pkt, r.response)
  else
    changeBlk (.snoop pkt invalidate) p r.blk r.response
    return (r.pkt, r.response)

end StoreM

end PardG5V
