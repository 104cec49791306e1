import PardG5V.Cache.Blk

/-!
# What the cache does with one block

The parts of `cache_impl.hh` that read and change a single block and the packet at hand. Taking a
block out of the tag store is the caller's work: the functions here only report that the block is
given up.
-/

namespace PardG5V

namespace CacheBlk

open Prog

variable (cfg : CacheConfig)

/-! ## Requests from the CPU side -/

/-- What serving a request leaves: the block, the packet, and whether the cache
gives the block up. -/
structure Served where
  blk : CacheBlk
  pkt : Packet
  gaveUp : Bool := false

/-- Writes the packet's bytes into the block and marks it dirty. -/
def store (blk : CacheBlk) (pkt : Packet) (bytes : List Byte) : CacheBlk :=
  setDirty { blk with
    data := writeBytes blk.data (cfg.extractBlkOffset pkt.addr) (bytes.take pkt.size)
    sources := pkt.line cfg :: blk.sources }

/-- The first `n` bytes of a word in memory order. -/
def leBytes (n : Nat) (word : BitVec 64) : List Byte :=
  (List.range n).map fun i => (word >>> (8 * i)).setWidth 8

/-- Whether a swap overwrites: always, unless it is conditional and the stored
bytes differ from the condition value. -/
def swapOverwrites (pkt : Packet) (stored : List Byte) : Except Abort Bool :=
  if !pkt.req.condSwap then .ok true
  else if pkt.size = 8 ∨ pkt.size = 4 then do
    let condition ← pkt.req.getExtraData
    return leBytes pkt.size condition == stored.take pkt.size
  else .error .panicked

def cmpAndSwap (blk : CacheBlk) (pkt : Packet) : Except Abort Served := do
  assert (pkt.size ≤ 8)
  let value ← pkt.getPtr
  let stored := blk.data.drop (cfg.extractBlkOffset pkt.addr)
  let answer ← pkt.setData stored
  let overwrites ← swapOverwrites pkt stored
  return ⟨if overwrites then blk.store cfg pkt value else blk, answer, false⟩

def serveWrite (blk : CacheBlk) (pkt : Packet) : Except Abort Served := do
  let (blk, pkt, success) ← blk.checkWrite pkt
  if success then
    let bytes ← pkt.getPtr
    return ⟨blk.store cfg pkt bytes, pkt, false⟩
  else
    return ⟨blk, pkt, false⟩

/-- How a read of a whole block shares it with the cache above. -/
def shareBlock (blk : CacheBlk) (pkt : Packet) (deferredResponse pendingDowngrade : Bool) :
    Served :=
  if pkt.needsExclusive then
    -- the reader keeps a dirty line dirty, and this cache gives its copy up
    ⟨blk, { pkt with memInhibit := pkt.memInhibit || blk.isDirty }, true⟩
  else if blk.isWritable && !pendingDowngrade && !pkt.shared && !pkt.req.instFetch then
    if blk.isDirty then
      if !deferredResponse && !cfg.isTopLevel then
        ⟨blk.clearDirty, { pkt with memInhibit := true }, false⟩
      else
        ⟨blk, { pkt with shared := true }, false⟩
    else
      ⟨blk, pkt, false⟩
  else
    ⟨blk, { pkt with shared := true }, false⟩

def serveRead (blk : CacheBlk) (pkt : Packet) (deferredResponse pendingDowngrade : Bool) :
    Except Abort Served := do
  let blk ← (if pkt.isLLSC then blk.trackLoadLocked pkt else pure blk)
  let pkt ← pkt.setData (blk.data.drop (cfg.extractBlkOffset pkt.addr))
  return if pkt.size = cfg.blkSize then shareBlock cfg blk pkt deferredResponse pendingDowngrade
    else ⟨blk, pkt, false⟩

/-- The last branch of `satisfyCpuSideRequest`: an upgrade is acknowledged and
the block given up. -/
def serveUpgrade (blk : CacheBlk) (pkt : Packet) (isTemp : Bool) : Except Abort Served := do
  assert pkt.isUpgrade
  assert (!isTemp)
  return ⟨blk, pkt, true⟩

/-- `satisfyCpuSideRequest` on the block; `isTemp` says that it is `tempBlock`. -/
def serve (blk : CacheBlk) (pkt : Packet) (deferredResponse pendingDowngrade isTemp : Bool) :
    Except Abort Served := do
  assert blk.isValid
  assert (cfg.extractBlkOffset pkt.addr + pkt.size ≤ cfg.blkSize)
  if pkt.cmd = .SwapReq then cmpAndSwap cfg blk pkt
  else if pkt.isWrite then serveWrite cfg blk pkt
  else if pkt.isRead then serveRead cfg blk pkt deferredResponse pendingDowngrade
  else serveUpgrade blk pkt isTemp

/-! ## Fills and writebacks from above -/

/-- The status that a response gives a block: an unshared response makes it
writable, and dirty when another cache supplied it. -/
def filledStatus (status : BlkStatus) (pkt : Packet) : BlkStatus :=
  { status with
    secure := status.secure || pkt.isSecure
    valid := true
    readable := true
    writable := status.writable || !pkt.shared
    dirty := status.dirty || (!pkt.shared && pkt.memInhibit) }

/-- The end of `handleFill`: status, tag and, for a read response, the data. -/
def fill (blk : CacheBlk) (pkt : Packet) (now : Tick) : Except Abort CacheBlk := do
  let blk := { blk.withQosTag pkt.qosTag with
    status := filledStatus blk.status pkt
    whenReady := cfg.clockEdge now 0 + cfg.responseLatency * cfg.clockPeriod +
      pkt.busLastWordDelay }
  if pkt.isRead then
    let bytes ← pkt.getPtr
    return { blk with data := bytes.take cfg.blkSize, sources := [pkt.line cfg] }
  else
    return blk

/-- The end of the writeback case of `access`: the whole block is overwritten. -/
def takeWriteback (blk : CacheBlk) (pkt : Packet) : Except Abort CacheBlk := do
  let bytes ← pkt.getPtr
  return { blk.withQosTag pkt.qosTag with
    data := bytes.take cfg.blkSize
    sources := [pkt.line cfg]
    status := { blk.status with
      dirty := true
      writable := blk.status.writable || pkt.supplyExclusive } }

/-! ## Write-outs -/

def writebackPkt (set : Nat) (blk : CacheBlk) : Packet :=
  let req : Request :=
    { Request.phys (cfg.regenerateBlkAddr blk.tag set) cfg.blkSize Request.wbMasterId with
      qosTag := blk.qosTag.signExtend 64, secure := blk.isSecure, taskId := blk.taskId }
  { Packet.ofRequest req .Writeback with
    supplyExclusive := blk.isWritable, data := some blk.data }

/-- The block once `writebackBlk` made its packet. -/
def writtenBack (blk : CacheBlk) : CacheBlk := clearDirty { blk with taskId := 1024 }

def flushPkt (set : Nat) (blk : CacheBlk) : Packet :=
  let req : Request :=
    { Request.phys (cfg.regenerateBlkAddr blk.tag set) cfg.blkSize Request.funcMasterId with
      taskId := blk.taskId }
  { Packet.ofRequest req .WriteReq with data := some blk.data, staticData := true }

/-! ## Snoops -/

/-- `doTimingSupplyResponse`: the response to a snooped request. -/
def supplyResponse (reqPkt : Packet) (bytes : List Byte) (alreadyCopied pendingInval : Bool) :
    Except Abort Packet := do
  let pkt := if alreadyCopied then reqPkt else reqPkt.copy false
  assert (reqPkt.isInvalidate || pkt.shared)
  let pkt ← pkt.allocate.makeResponse
  let pkt := { pkt with busFirstWordDelay := 0, busLastWordDelay := 0 }
  let pkt ←
    (if pkt.isRead then pkt.setData (bytes.drop (cfg.extractBlkOffset pkt.addr)) else pure pkt)
  return if pkt.cmd = .ReadResp ∧ pendingInval = true then
      { pkt with cmd := .ReadRespWithInvalidate }
    else pkt

/-- What a snoop leaves of a block it hits: the block, the snoop packet, the
response that is sent, and whether the cache gives the block up. -/
structure Snooped where
  blk : CacheBlk
  pkt : Packet
  response : Option Packet
  gaveUp : Bool

/-- A snooped read that does not invalidate takes the exclusive copy away. -/
def downgrade (blk : CacheBlk) (pkt : Packet) (invalidate needsExclusive : Bool) :
    Except Abort (CacheBlk × Packet) :=
  if pkt.isRead && !invalidate then do
    assert (!needsExclusive)
    return (blk.clearWritable, { pkt with shared := true })
  else .ok (blk, pkt)

/-- The owner answers: in timing mode with a response packet of its own, in
atomic mode in the snoop packet. -/
def respond (blk : CacheBlk) (pkt : Packet)
    (haveExclusive isTiming isDeferred pendingInval : Bool) :
    Except Abort (Packet × Option Packet) := do
  assert (!pkt.memInhibit)
  let pkt := { pkt with
    memInhibit := true, supplyExclusive := pkt.supplyExclusive || haveExclusive }
  if isTiming then
    let response ← supplyResponse cfg pkt blk.data isDeferred pendingInval
    return (pkt, some response)
  else
    let pkt ← pkt.makeResponse
    let pkt ← pkt.setData (blk.data.drop (cfg.extractBlkOffset pkt.addr))
    return (pkt, some pkt)

/-- The snoop hit of `handleSnoop`. `invalidate` and `needsExclusive` were read
before the snoop was forwarded, the packet may have become a response since. -/
def snoop (blk : CacheBlk) (pkt : Packet)
    (invalidate needsExclusive isTiming isDeferred pendingInval : Bool) :
    Except Abort Snooped := do
  let responds := blk.isDirty && pkt.needsResponse
  let haveExclusive := blk.isWritable
  let (blk, pkt) ← blk.downgrade pkt invalidate needsExclusive
  let (pkt, response) ←
    (if responds then respond cfg blk pkt haveExclusive isTiming isDeferred pendingInval
      else pure (pkt, none))
  return ⟨blk, pkt, response, invalidate⟩

/-! ## What the operations keep -/

structure Kept (blk blk' : CacheBlk) : Prop where
  tag : blk'.tag = blk.tag
  qosTag : blk'.qosTag = blk.qosTag
  valid : blk'.isValid = blk.isValid
  secure : blk'.isSecure = blk.isSecure

section Spec

variable {cfg} {blk blk' : CacheBlk} {pkt : Packet}
  {deferred downgrade isTemp pendingInval isTiming isDeferred : Bool}

theorem Kept.refl : Kept blk blk := ⟨rfl, rfl, rfl, rfl⟩

theorem Kept.guestID (h : Kept blk blk') : blk'.guestID = blk.guestID := by
  unfold CacheBlk.guestID
  rw [h.qosTag]

theorem Kept.line (h : Kept blk blk') (set : Nat) : blk'.line cfg set = blk.line cfg set := by
  unfold CacheBlk.line
  rw [h.guestID, h.tag, h.secure]

theorem Kept.store (bytes : List Byte) : Kept blk (blk.store cfg pkt bytes) := ⟨rfl, rfl, rfl, rfl⟩

theorem Kept.writtenBack : Kept blk blk.writtenBack := ⟨rfl, rfl, rfl, rfl⟩

theorem checkWrite_spec {pkt' : Packet} {success : Bool}
    (h : blk.checkWrite pkt = .ok (blk', pkt', success)) :
    blk' = blk.clearLoadLocks pkt.req ∧ (pkt' = pkt ∨ ∃ b, pkt' = pkt.setExtraData b) := by
  simp only [checkWrite, except_ite_eq_ok, except_bind_eq_ok, except_pure_eq_ok] at h
  rcases h with ⟨_, found, _, hr⟩ | ⟨_, hr⟩
  · simp only [Prod.mk.injEq] at hr
    exact ⟨hr.1.symm, .inr ⟨_, hr.2.1.symm⟩⟩
  · simp only [Except.ok.injEq, Prod.mk.injEq] at hr
    exact ⟨hr.1.symm, .inl hr.2.1.symm⟩

variable {r : Served}

theorem serveWrite_cases (h : blk.serveWrite cfg pkt = .ok r) :
    r.gaveUp = false ∧ (r.pkt = pkt ∨ ∃ b, r.pkt = pkt.setExtraData b) ∧
      (r.blk = blk.clearLoadLocks pkt.req ∨
        ∃ bytes, r.pkt.data = some bytes ∧
          r.blk = (blk.clearLoadLocks pkt.req).store cfg r.pkt bytes) := by
  have hcases : ∃ blk' pkt', blk.checkWrite pkt = .ok (blk', pkt', false) ∧
      ⟨blk', pkt', false⟩ = r ∨
      blk.checkWrite pkt = .ok (blk', pkt', true) ∧
        ∃ bytes, pkt'.data = some bytes ∧ ⟨blk'.store cfg pkt' bytes, pkt', false⟩ = r := by
    simpa [serveWrite] using h
  obtain ⟨blk', pkt', ⟨hcheck, rfl⟩ | ⟨hcheck, bytes, hdata, rfl⟩⟩ := hcases
  · obtain ⟨rfl, hpkt⟩ := checkWrite_spec hcheck
    exact ⟨rfl, hpkt, .inl rfl⟩
  · obtain ⟨rfl, hpkt⟩ := checkWrite_spec hcheck
    exact ⟨rfl, hpkt, .inr ⟨bytes, hdata, rfl⟩⟩

theorem serveRead_eq_ok : blk.serveRead cfg pkt deferred downgrade = .ok r ↔
    ∃ blk', (pkt.isLLSC = true ∧ blk.trackLoadLocked pkt = .ok blk' ∨
        pkt.isLLSC = false ∧ blk = blk') ∧
      ∃ pkt', pkt.setData (blk'.data.drop (cfg.extractBlkOffset pkt.addr)) = .ok pkt' ∧
        (if pkt'.size = cfg.blkSize then shareBlock cfg blk' pkt' deferred downgrade
          else ⟨blk', pkt', false⟩) = r := by
  simp only [serveRead, except_bind_eq_ok, except_ite_eq_ok, except_pure_eq_ok, Bool.not_eq_true]

theorem serveRead_cases (h : blk.serveRead cfg pkt deferred downgrade = .ok r) :
    ∃ locks old, pkt.data = some old ∧
      r = (let blk' := { blk with lockList := locks }
        let pkt' := { pkt with data := some (writeBytes old 0
          ((blk.data.drop (cfg.extractBlkOffset pkt.addr)).take pkt.size)) }
        if pkt.size = cfg.blkSize then shareBlock cfg blk' pkt' deferred downgrade
        else ⟨blk', pkt', false⟩) := by
  obtain ⟨blk', hlocks, pkt', hset, rfl⟩ := serveRead_eq_ok.mp h
  have hblk : ∃ locks, blk' = { blk with lockList := locks } := by
    rcases hlocks with ⟨_, htrack⟩ | ⟨_, rfl⟩
    · simp only [trackLoadLocked, except_bind_eq_ok, except_pure_eq_ok] at htrack
      obtain ⟨_, _, lock, _, rfl⟩ := htrack
      exact ⟨_, rfl⟩
    · exact ⟨blk.lockList, rfl⟩
  obtain ⟨locks, rfl⟩ := hblk
  obtain ⟨old, hold, rfl⟩ := Packet.setData_eq_ok.mp hset
  exact ⟨locks, old, hold, rfl⟩

def Carries (cfg : CacheConfig) (pkt : Packet) (blk : CacheBlk) : Prop :=
  ∃ bytes, pkt.data = some bytes ∧ blk.data.take cfg.blkSize <+: bytes

/-- The block stays valid and keeps its line, its bytes come from where they came from or from the
request, and a dirty block that is given up or cleaned passes its bytes on, unless the request is an
upgrade. -/
structure ServeSpec (cfg : CacheConfig) (blk : CacheBlk) (pkt : Packet) (r : Served) : Prop where
  valid : blk.isValid = true
  kept : Kept blk r.blk
  sources : r.blk.sources = blk.sources ∨ r.blk.sources = pkt.line cfg :: blk.sources
  line : r.pkt.line cfg = pkt.line cfg
  handOver : blk.isDirty = true → r.gaveUp = true ∨ r.blk.isDirty = false →
    pkt.isUpgrade = true ∨ r.pkt.memInhibit = true ∧ Carries cfg r.pkt blk ∧
      ((pkt.needsExclusive = true → pkt.shared = false) → r.pkt.shared = false)

/-- A request that leaves a dirty block dirty and in place hands nothing over. -/
theorem ServeSpec.ofStays (hvalid : blk.isValid = true) (hkept : Kept blk r.blk)
    (hsources : r.blk.sources = blk.sources ∨ r.blk.sources = pkt.line cfg :: blk.sources)
    (hline : r.pkt.line cfg = pkt.line cfg) (hstays : r.gaveUp = false)
    (hdirty : blk.isDirty = true → r.blk.isDirty = true) : ServeSpec cfg blk pkt r where
  valid := hvalid
  kept := hkept
  sources := hsources
  line := hline
  handOver hd hgone := by
    rw [hstays, hdirty hd] at hgone
    exact absurd hgone (by decide)

theorem cmpAndSwap_spec (hvalid : blk.isValid = true)
    (h : blk.cmpAndSwap cfg pkt = .ok r) : ServeSpec cfg blk pkt r := by
  simp only [cmpAndSwap, except_bind_eq_ok, except_pure_eq_ok] at h
  obtain ⟨_, _, value, _, answer, hset, overwrites, _, rfl⟩ := h
  obtain ⟨old, _, rfl⟩ := Packet.setData_eq_ok.mp hset
  cases overwrites with
  | false => exact .ofStays hvalid .refl (.inl rfl) rfl rfl id
  | true => exact .ofStays hvalid (.store value) (.inr rfl) rfl rfl fun _ => rfl

theorem serveWrite_spec (hvalid : blk.isValid = true)
    (h : blk.serveWrite cfg pkt = .ok r) : ServeSpec cfg blk pkt r := by
  obtain ⟨hstays, hpkt, hblk⟩ := serveWrite_cases h
  have hline : r.pkt.line cfg = pkt.line cfg := by
    rcases hpkt with hpkt | ⟨b, hpkt⟩
    · rw [hpkt]
    · rw [hpkt]
      rfl
  rcases hblk with hblk | ⟨bytes, _, hblk⟩
  · refine .ofStays hvalid ?_ ?_ hline hstays ?_
    · rw [hblk]
      exact ⟨rfl, rfl, rfl, rfl⟩
    · rw [hblk]
      exact .inl rfl
    · rw [hblk]
      exact id
  · refine .ofStays hvalid ?_ ?_ hline hstays ?_
    · rw [hblk]
      exact ⟨rfl, rfl, rfl, rfl⟩
    · rw [hblk, ← hline]
      exact .inr rfl
    · rw [hblk]
      exact fun _ => rfl

theorem serveUpgrade_spec (hvalid : blk.isValid = true)
    (h : blk.serveUpgrade pkt isTemp = .ok r) : ServeSpec cfg blk pkt r := by
  simp only [serveUpgrade, except_bind_eq_ok, except_pure_eq_ok, assert_eq_ok] at h
  obtain ⟨_, hupgrade, _, _, rfl⟩ := h
  exact ⟨hvalid, .refl, .inl rfl, rfl, fun _ _ => .inl hupgrade⟩

theorem shareBlock_spec (deferred downgrade : Bool) (hvalid : blk.isValid = true)
    (hcarries : Carries cfg pkt blk) :
    ServeSpec cfg blk pkt (shareBlock cfg blk pkt deferred downgrade) := by
  unfold shareBlock
  split
  · next hexcl =>
    refine ⟨hvalid, .refl, .inl rfl, rfl, fun hdirty _ => .inr ⟨?_, hcarries, fun h => h hexcl⟩⟩
    simp [hdirty]
  · split
    · next hsole =>
      simp only [Bool.and_eq_true, Bool.not_eq_true'] at hsole
      split
      · split
        · exact ⟨hvalid, ⟨rfl, rfl, rfl, rfl⟩, .inl rfl, rfl,
            fun _ _ => .inr ⟨rfl, hcarries, fun _ => hsole.1.2⟩⟩
        · exact .ofStays hvalid .refl (.inl rfl) rfl rfl id
      · exact .ofStays hvalid .refl (.inl rfl) rfl rfl id
    · exact .ofStays hvalid .refl (.inl rfl) rfl rfl id

theorem serveRead_spec (hvalid : blk.isValid = true)
    (hfits : cfg.extractBlkOffset pkt.addr + pkt.size ≤ cfg.blkSize)
    (h : blk.serveRead cfg pkt deferred downgrade = .ok r) : ServeSpec cfg blk pkt r := by
  obtain ⟨locks, old, hold, rfl⟩ := serveRead_cases h
  dsimp only
  split
  · next hsize =>
    -- a read of the whole block starts at its first byte
    have hoff : cfg.extractBlkOffset pkt.addr = 0 := by omega
    have hcarries : Carries cfg { pkt with data := some (writeBytes old 0
        ((blk.data.drop (cfg.extractBlkOffset pkt.addr)).take pkt.size)) }
        { blk with lockList := locks } := by
      refine ⟨_, rfl, ?_⟩
      rw [hoff, hsize]
      exact List.prefix_append _ _
    have hvalid' : isValid { blk with lockList := locks } = true := hvalid
    obtain ⟨_, ⟨htag, hqos, hval, hsec⟩, hsources, hline, hover⟩ :=
      shareBlock_spec deferred downgrade hvalid' hcarries
    exact ⟨hvalid, ⟨htag, hqos, hval, hsec⟩, hsources, hline, hover⟩
  · exact .ofStays hvalid ⟨rfl, rfl, rfl, rfl⟩ (.inl rfl) rfl rfl id

theorem serve_spec
    (h : blk.serve cfg pkt deferred downgrade isTemp = .ok r) : ServeSpec cfg blk pkt r := by
  simp only [serve, except_bind_eq_ok, except_ite_eq_ok, assert_eq_ok, decide_eq_true_eq] at h
  obtain ⟨_, hvalid, _, hfits, ⟨_, h⟩ | ⟨_, ⟨_, h⟩ | ⟨_, ⟨_, h⟩ | ⟨_, h⟩⟩⟩⟩ := h
  · exact cmpAndSwap_spec hvalid h
  · exact serveWrite_spec hvalid h
  · exact serveRead_spec hvalid hfits h
  · exact serveUpgrade_spec hvalid h

/-- The owner's answer to a snoop: mem-inhibit is set, and a read gets the bytes it
asked for. -/
structure Answers (cfg : CacheConfig) (answer : Packet) (blk : CacheBlk) : Prop where
  memInhibit : answer.memInhibit = true
  bytes : answer.isRead = true → ∃ bytes, answer.data = some bytes ∧
    (blk.data.drop (cfg.extractBlkOffset answer.addr)).take answer.size <+: bytes

theorem writeBytes_zero_prefix {old src : List Byte} : src <+: writeBytes old 0 src :=
  List.prefix_append _ _

theorem supplyResponse_spec {alreadyCopied : Bool} {response : Packet}
    (hown : pkt.memInhibit = true)
    (h : supplyResponse cfg pkt blk.data alreadyCopied pendingInval = .ok response) :
    Answers cfg response blk := by
  simp only [supplyResponse, except_bind_eq_ok, except_ite_eq_ok, except_pure_eq_ok,
    Packet.makeResponse_eq_ok, Packet.setData_eq_ok, Packet.allocate_eq] at h
  obtain ⟨_, _, made, ⟨_, _, rfl⟩, sent, hsent, rfl⟩ := h
  have hcopy : (if alreadyCopied = true then pkt else pkt.copy false).memInhibit = true := by
    split
    · exact hown
    · simp [Packet.copy, hown]
  have hanswers : Answers cfg sent blk := by
    rcases hsent with ⟨_, old, _, rfl⟩ | ⟨hread, rfl⟩
    · exact ⟨hcopy, fun _ => ⟨_, rfl, writeBytes_zero_prefix⟩⟩
    · exact ⟨hcopy, fun h => absurd h hread⟩
  split
  · next hinval =>
    refine ⟨hanswers.memInhibit, fun _ => hanswers.bytes ?_⟩
    rw [Packet.isRead, hinval.1]
    rfl
  · exact hanswers

theorem respond_spec {exclusive : Bool} {left : Packet} {response : Option Packet}
    (h : blk.respond cfg pkt exclusive isTiming isDeferred pendingInval = .ok (left, response)) :
    ∃ answer, response = some answer ∧ Answers cfg answer blk := by
  simp only [respond, except_bind_eq_ok, except_ite_eq_ok, except_pure_eq_ok, Prod.mk.injEq,
    Packet.makeResponse_eq_ok, Packet.setData_eq_ok] at h
  obtain ⟨_, _, ⟨_, answer, hsupply, _, rfl⟩ |
      ⟨_, made, ⟨_, _, rfl⟩, answer, ⟨old, _, rfl⟩, _, rfl⟩⟩ := h
  · exact ⟨answer, rfl, supplyResponse_spec rfl hsupply⟩
  · exact ⟨_, rfl, rfl, fun _ => ⟨_, rfl, writeBytes_zero_prefix⟩⟩

/-- The block keeps its line, its bytes and its dirty bit, it is given up exactly when the snoop
invalidates, and the owner of dirty data answers every snoop that needs a response. -/
structure SnoopSpec (cfg : CacheConfig) (blk : CacheBlk) (pkt : Packet) (invalidate : Bool)
    (r : Snooped) : Prop where
  kept : Kept blk r.blk
  sources : r.blk.sources = blk.sources
  dirty : r.blk.isDirty = blk.isDirty
  gaveUp : r.gaveUp = invalidate
  answers : blk.isDirty = true → pkt.needsResponse = true →
    ∃ answer, r.response = some answer ∧ Answers cfg answer blk

theorem snoop_spec {invalidate needsExclusive : Bool} {r : Snooped}
    (h : blk.snoop cfg pkt invalidate needsExclusive isTiming isDeferred pendingInval = .ok r) :
    SnoopSpec cfg blk pkt invalidate r := by
  simp only [snoop, downgrade, except_bind_eq_ok, except_ite_eq_ok, except_pure_eq_ok,
    Bool.and_eq_true, Except.ok.injEq] at h
  obtain ⟨⟨left, pkt'⟩, hleft, ⟨pkt'', response⟩, hresp, rfl⟩ := h
  have hblk : Kept blk left ∧ left.sources = blk.sources ∧ left.isDirty = blk.isDirty ∧
      left.data = blk.data := by
    rcases hleft with ⟨_, _, _, heq⟩ | ⟨_, heq⟩
    · obtain ⟨rfl, _⟩ := Prod.mk.inj heq
      exact ⟨⟨rfl, rfl, rfl, rfl⟩, rfl, rfl, rfl⟩
    · obtain ⟨rfl, _⟩ := Prod.mk.inj heq
      exact ⟨.refl, rfl, rfl, rfl⟩
  obtain ⟨hkept, hsources, hdirty, hdata⟩ := hblk
  refine ⟨hkept, hsources, hdirty, rfl, fun hd hneeds => ?_⟩
  rcases hresp with ⟨_, hrespond⟩ | ⟨hno, _⟩
  · obtain ⟨answer, rfl, hinhibit, hbytes⟩ := respond_spec hrespond
    exact ⟨answer, rfl, hinhibit, by rwa [hdata] at hbytes⟩
  · exact absurd ⟨hd, hneeds⟩ hno

/-- What a fill does: the block becomes valid, stays dirty if it was, and takes the
packet's guest; a read response also brings the bytes. -/
structure FillSpec (cfg : CacheConfig) (blk : CacheBlk) (pkt : Packet) (filled : CacheBlk) :
    Prop where
  valid : filled.isValid = true
  tag : filled.tag = blk.tag
  guest : filled.guestID = pkt.guestID
  secure : filled.isSecure = (blk.isSecure || pkt.isSecure)
  dirty : blk.isDirty = true → filled.isDirty = true
  sources : filled.sources = if pkt.isRead then [pkt.line cfg] else blk.sources

theorem fill_spec {now : Tick} {filled : CacheBlk} (h : blk.fill cfg pkt now = .ok filled) :
    FillSpec cfg blk pkt filled := by
  simp only [fill, except_bind_eq_ok, except_ite_eq_ok, except_pure_eq_ok] at h
  rcases h with ⟨hread, bytes, _, rfl⟩ | ⟨hread, rfl⟩
  · refine ⟨rfl, rfl, qosTagToGuestID_narrow _, rfl, fun hd => ?_, (if_pos hread).symm⟩
    exact Bool.or_eq_true_iff.mpr (.inl hd)
  · refine ⟨rfl, rfl, qosTagToGuestID_narrow _, rfl, fun hd => ?_, (if_neg hread).symm⟩
    exact Bool.or_eq_true_iff.mpr (.inl hd)

theorem takeWriteback_spec {taken : CacheBlk} (h : blk.takeWriteback cfg pkt = .ok taken) :
    taken.tag = blk.tag ∧ taken.guestID = pkt.guestID ∧ taken.isValid = blk.isValid ∧
      taken.isSecure = blk.isSecure ∧ taken.isDirty = true ∧ taken.sources = [pkt.line cfg] := by
  simp only [takeWriteback, except_bind_eq_ok, except_pure_eq_ok] at h
  obtain ⟨bytes, _, rfl⟩ := h
  exact ⟨rfl, qosTagToGuestID_narrow _, rfl, rfl, rfl, rfl⟩

end Spec

end CacheBlk

end PardG5V
