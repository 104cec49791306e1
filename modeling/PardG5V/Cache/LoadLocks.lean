import PardG5V.Lib.Since
import PardG5V.Cache.Step

/-!
# Load-locked and store-conditional on one block

`trackLoadLocked` adds a lock to a block, `checkWrite` drops those that a store or a store
conditional overlaps, and `invalidate` drops them all. `cmpAndSwap`, the writeback case of
`access` and `handleFill` write bytes too, and do not look at the locks. A history is the list of
what was done to the block, with the block it was done to.

Results: `store_conditional_iff`, `swap_keeps_lock`.
-/

namespace PardG5V

/-! ## Byte ranges -/

namespace Request

def Holds (req : Request) (byte : Nat) : Prop :=
  req.paddr.toNat ≤ byte ∧ byte < req.paddr.toNat + req.size

def Covers (req req' : Request) : Prop := ∀ byte, req'.Holds byte → req.Holds byte

def Overlaps (req req' : Request) : Prop := ∃ byte, req.Holds byte ∧ req'.Holds byte

/-- The request is for at least one byte and does not run past the last address. -/
structure InRange (req : Request) : Prop where
  size_pos : 0 < req.size
  fits : req.paddr.toNat + req.size ≤ 2 ^ 64

theorem covers_iff {req req' : Request} (h' : req'.InRange) :
    req.Covers req' ↔ req.paddr.toNat ≤ req'.paddr.toNat ∧
      req'.paddr.toNat + req'.size ≤ req.paddr.toNat + req.size := by
  have hpos := h'.size_pos
  constructor
  · intro h
    have hfirst := h req'.paddr.toNat ⟨Nat.le_refl _, by omega⟩
    have hlast := h (req'.paddr.toNat + req'.size - 1) ⟨by omega, by omega⟩
    unfold Holds at hfirst hlast
    omega
  · rintro ⟨hlow, hhigh⟩ byte ⟨hle, hlt⟩
    exact ⟨by omega, by omega⟩

theorem overlaps_iff {req req' : Request} (h : req.InRange) (h' : req'.InRange) :
    req.Overlaps req' ↔ req.paddr.toNat < req'.paddr.toNat + req'.size ∧
      req'.paddr.toNat < req.paddr.toNat + req.size := by
  have hpos := h.size_pos
  have hpos' := h'.size_pos
  constructor
  · rintro ⟨byte, ⟨hle, hlt⟩, hle', hlt'⟩
    exact ⟨by omega, by omega⟩
  · rintro ⟨hlow, hhigh⟩
    refine ⟨max req.paddr.toNat req'.paddr.toNat, ⟨by omega, by omega⟩, by omega, by omega⟩

end Request

namespace Lock

variable {lock : Lock} {ll req : Request}

theorem toNat_reqHigh (h : req.InRange) : (reqHigh req).toNat = req.paddr.toNat + req.size - 1 := by
  have hpos := h.size_pos
  have hfits := h.fits
  unfold reqHigh
  rw [BitVec.toNat_sub, BitVec.toNat_add, BitVec.toNat_ofNat]
  have hone : (1 : Addr).toNat = 1 := rfl
  rw [hone]
  omega

theorem ofRequest_eq_ok :
    ofRequest req = .ok lock ↔
      ∃ c, req.contextId = some c ∧ lock = ⟨c, req.paddr, reqHigh req⟩ := by
  unfold ofRequest Request.getContextId
  cases req.contextId with
  | none => simp [bind, Except.bind]
  | some c => simp [bind, Except.bind, pure, Except.pure, eq_comm]

/-- The overlap test of the source, on a lock that a load-locked made. -/
theorem overlapping_iff (hlock : ofRequest ll = .ok lock) (hll : ll.InRange) (hreq : req.InRange) :
    lock.overlapping req = true ↔ ll.Overlaps req := by
  obtain ⟨c, -, rfl⟩ := ofRequest_eq_ok.mp hlock
  have hpos := hll.size_pos
  have hpos' := hreq.size_pos
  simp only [overlapping, Bool.and_eq_true, decide_eq_true_eq, BitVec.le_def, toNat_reqHigh hll,
    toNat_reqHigh hreq, Request.overlaps_iff hll hreq]
  omega

/-- The match test of the source, on a lock that a load-locked made. -/
theorem matchesContext_iff {c : Int} (hlock : ofRequest ll = .ok lock) (hll : ll.InRange)
    (hreq : req.InRange) :
    lock.matchesContext c req = true ↔ ll.contextId = some c ∧ ll.Covers req := by
  obtain ⟨c', hc', rfl⟩ := ofRequest_eq_ok.mp hlock
  have hpos := hll.size_pos
  have hpos' := hreq.size_pos
  simp only [matchesContext, Bool.and_eq_true, decide_eq_true_eq, beq_iff_eq, BitVec.le_def,
    toNat_reqHigh hll, toNat_reqHigh hreq, Request.covers_iff hreq, hc', Option.some.injEq,
    and_assoc]
  refine and_congr Iff.rfl (and_congr Iff.rfl ?_)
  omega

end Lock

/-! ## Histories of a block -/

/-- What can happen to a block: a request from the CPU side is served, the block takes
a writeback from above, a response fills it, or it is invalidated. -/
inductive BlkOp
  | request (pkt : Packet) (deferredResponse pendingDowngrade isTemp : Bool)
  | writeback (pkt : Packet)
  | fill (pkt : Packet) (now : Tick)
  | invalidate

namespace BlkOp

variable (cfg : CacheConfig)

/-- The block afterwards. A block that is given up is invalidated. -/
def run (blk : CacheBlk) : BlkOp → Except Abort CacheBlk
  | .request pkt deferredResponse pendingDowngrade isTemp => do
    let served ← blk.serve cfg pkt deferredResponse pendingDowngrade isTemp
    return if served.gaveUp then served.blk.invalidate else served.blk
  | .writeback pkt => blk.takeWriteback cfg pkt
  | .fill pkt now => blk.fill cfg pkt now
  | .invalidate => .ok blk.invalidate

/-- A load-locked or a write is for the bytes of its own request, at least one, as
`Packet(req, cmd)` makes it. -/
def OwnRange : BlkOp → Prop
  | .request pkt _ _ _ => pkt.isLLSC = true ∨ pkt.isWrite = true →
      pkt.addr = pkt.req.paddr ∧ pkt.size = pkt.req.size ∧ 0 < pkt.size
  | _ => True

def swaps (blk : CacheBlk) (pkt : Packet) : Prop :=
  CacheBlk.swapOverwrites pkt (blk.data.drop (cfg.extractBlkOffset pkt.addr)) = .ok true

/-- A request that writes nothing makes the cache give the block up: an exclusive read
of the whole block, and an upgrade. -/
def takes (pkt : Packet) : Prop :=
  pkt.isRead = true → pkt.size = cfg.blkSize ∧ pkt.needsExclusive = true

/-- What breaks a load-locked of the bytes of `ll`: a write that is performed on some
of them, a store conditional to some of them, and the loss of the block. -/
def Breaks (blk : CacheBlk) (ll : Request) : BlkOp → Prop
  | .request pkt _ _ _ =>
    if pkt.cmd = .SwapReq then swaps cfg blk pkt ∧ ll.Overlaps pkt.req
    else if pkt.isWrite then ll.Overlaps pkt.req
    else takes cfg pkt
  -- a writeback and a response with data replace the whole block
  | .writeback _ => True
  | .fill pkt _ => pkt.isRead = true
  | .invalidate => True

/-- The operation writes no byte of a held lock past `checkWrite`. -/
def Spares (blk : CacheBlk) : BlkOp → Prop
  | .request pkt _ _ _ => pkt.cmd = .SwapReq → swaps cfg blk pkt →
      ∀ lock ∈ blk.lockList, lock.overlapping pkt.req = false
  | .writeback _ => blk.lockList = []
  | .fill pkt _ => pkt.isRead = true → blk.lockList = []
  | .invalidate => True

def Drops (lock : Lock) : BlkOp → Prop
  | .request pkt _ _ _ => pkt.cmd ≠ .SwapReq ∧
      if pkt.isWrite then lock.overlapping pkt.req = true else takes cfg pkt
  | .writeback _ => False
  | .fill _ _ => False
  | .invalidate => True

def Serves (pkt : Packet) : BlkOp → Prop
  | .request pkt' _ _ _ => pkt' = pkt
  | _ => False

end BlkOp

/-- What was done to a block that started with no lock, the newest first, and the block
that is left. Every operation meets `P`. -/
inductive BlkHistory (cfg : CacheConfig) (P : CacheBlk → BlkOp → Prop) :
    List (CacheBlk × BlkOp) → CacheBlk → Prop
  | fresh {blk : CacheBlk} (hfree : blk.lockList = []) : BlkHistory cfg P [] blk
  | step {past : List (CacheBlk × BlkOp)} {blk blk' : CacheBlk} {op : BlkOp}
      (hpast : BlkHistory cfg P past blk) (hop : P blk op) (hrun : op.run cfg blk = .ok blk') :
      BlkHistory cfg P ((blk, op) :: past) blk'

/-- The context did a load-locked that covers the request, and nothing has broken it
since. -/
def Reserved (cfg : CacheConfig) (past : List (CacheBlk × BlkOp)) (contextId : Int)
    (req : Request) : Prop :=
  ∃ ll : Packet, ll.cmd = .LoadLockedReq ∧ ll.req.contextId = some contextId ∧
    ll.req.Covers req ∧
    Since (fun step => step.2.Serves ll) (fun step => step.2.Breaks cfg step.1 ll.req) past

/-! ## What one operation does to the locks -/

namespace LockLemmas

open Prog CacheBlk

variable {cfg : CacheConfig} {blk blk' : CacheBlk} {pkt : Packet} {op : BlkOp} {r : Served}
  {deferred downgrade : Bool}

theorem isLLSC_read {cmd : MemCmd} (hread : cmd.isRead = true) :
    cmd.isLLSC = true ↔ cmd = .LoadLockedReq := by
  cases cmd <;> first | exact absurd hread (by decide) | decide

theorem cmpAndSwap_lockList (h : blk.cmpAndSwap cfg pkt = .ok r) :
    r.blk.lockList = blk.lockList ∧ r.gaveUp = false := by
  simp only [cmpAndSwap, except_bind_eq_ok, except_pure_eq_ok] at h
  obtain ⟨_, _, value, _, answer, _, overwrites, _, rfl⟩ := h
  cases overwrites with
  | true | false => exact ⟨rfl, rfl⟩

theorem serveWrite_lockList (h : blk.serveWrite cfg pkt = .ok r) :
    r.blk.lockList = (blk.clearLoadLocks pkt.req).lockList ∧ r.gaveUp = false := by
  obtain ⟨hstays, -, hblk | ⟨bytes, -, hblk⟩⟩ := serveWrite_cases h
  · exact ⟨by rw [hblk], hstays⟩
  · exact ⟨by rw [hblk]; rfl, hstays⟩

theorem shareBlock_lockList (cfg : CacheConfig) (blk : CacheBlk) (pkt : Packet)
    (deferred downgrade : Bool) :
    (shareBlock cfg blk pkt deferred downgrade).blk.lockList = blk.lockList ∧
      (shareBlock cfg blk pkt deferred downgrade).gaveUp = pkt.needsExclusive := by
  unfold shareBlock
  cases hex : pkt.needsExclusive with
  | true => exact ⟨rfl, rfl⟩
  | false =>
    simp only [Bool.false_eq_true, if_false]
    split
    · split
      · split <;> exact ⟨rfl, rfl⟩
      · exact ⟨rfl, rfl⟩
    · exact ⟨rfl, rfl⟩

theorem trackLoadLocked_lockList (h : blk.trackLoadLocked pkt = .ok blk') :
    ∃ lock, Lock.ofRequest pkt.req = .ok lock ∧ blk'.lockList = lock :: blk.lockList := by
  simp only [trackLoadLocked, except_bind_eq_ok, except_pure_eq_ok] at h
  obtain ⟨_, _, lock, hlock, rfl⟩ := h
  exact ⟨lock, hlock, rfl⟩

theorem serveRead_lockList (hread : pkt.isRead = true)
    (h : blk.serveRead cfg pkt deferred downgrade = .ok r) :
    (r.gaveUp = true ↔ BlkOp.takes cfg pkt) ∧ ∀ lock, lock ∈ r.blk.lockList ↔
      pkt.cmd = .LoadLockedReq ∧ Lock.ofRequest pkt.req = .ok lock ∨ lock ∈ blk.lockList := by
  obtain ⟨blk', hlocks, pkt', hset, rfl⟩ := serveRead_eq_ok.mp h
  have hpkt : pkt'.size = pkt.size ∧ pkt'.needsExclusive = pkt.needsExclusive := by
    obtain ⟨old, -, rfl⟩ := Packet.setData_eq_ok.mp hset
    exact ⟨rfl, rfl⟩
  have hblk : ∀ lock, lock ∈ blk'.lockList ↔
      pkt.cmd = .LoadLockedReq ∧ Lock.ofRequest pkt.req = .ok lock ∨ lock ∈ blk.lockList := by
    intro lock
    rcases hlocks with ⟨hllsc, htrack⟩ | ⟨hllsc, rfl⟩
    · obtain ⟨made, hmade, hlist⟩ := trackLoadLocked_lockList htrack
      rw [hlist, List.mem_cons, hmade, Except.ok.injEq]
      simp [(isLLSC_read hread).mp hllsc, eq_comm]
    · have hcmd : pkt.cmd ≠ .LoadLockedReq := fun hcmd => by
        rw [Packet.isLLSC, (isLLSC_read hread).mpr hcmd] at hllsc
        exact Bool.noConfusion hllsc
      simp [hcmd]
  -- the block changes hands when a whole block is read exclusively
  rw [hpkt.1]
  by_cases hsize : pkt.size = cfg.blkSize
  · obtain ⟨hlist, hgone⟩ := shareBlock_lockList cfg blk' pkt' deferred downgrade
    rw [if_pos hsize, hgone, hlist, hpkt.2]
    exact ⟨⟨fun hex _ => ⟨hsize, hex⟩, fun h => (h hread).2⟩, hblk⟩
  · rw [if_neg hsize]
    exact ⟨⟨fun h => Bool.noConfusion h, fun h => absurd (h hread).1 hsize⟩, hblk⟩

/-- The locks after a request, before a block that is given up is invalidated. -/
theorem serve_lockList {isTemp : Bool} (h : blk.serve cfg pkt deferred downgrade isTemp = .ok r) :
    (r.gaveUp = true ↔ pkt.cmd ≠ .SwapReq ∧ pkt.isWrite = false ∧ BlkOp.takes cfg pkt) ∧
      ∀ lock, lock ∈ r.blk.lockList ↔
        pkt.cmd = .LoadLockedReq ∧ Lock.ofRequest pkt.req = .ok lock ∨
          lock ∈ blk.lockList ∧ ¬ (pkt.cmd ≠ .SwapReq ∧ pkt.isWrite = true ∧
            lock.overlapping pkt.req = true) := by
  simp only [serve, except_bind_eq_ok, except_ite_eq_ok, Bool.not_eq_true] at h
  obtain ⟨_, _, _, _, ⟨hswap, h⟩ | ⟨hswap, ⟨hwrite, h⟩ | ⟨hwrite, ⟨hread, h⟩ | ⟨hread, h⟩⟩⟩⟩ := h
  · obtain ⟨hlist, hstays⟩ := cmpAndSwap_lockList h
    simp [hlist, hstays, hswap]
  · have hcmd : pkt.cmd ≠ .LoadLockedReq := fun hcmd => by
      rw [Packet.isWrite, hcmd] at hwrite
      exact absurd hwrite (by decide)
    obtain ⟨hlist, hstays⟩ := serveWrite_lockList h
    simp [hlist, hstays, hswap, hwrite, hcmd, clearLoadLocks]
  · obtain ⟨hgone, hlist⟩ := serveRead_lockList hread h
    simp [hlist, hgone, hswap, hwrite]
  · have hcmd : pkt.cmd ≠ .LoadLockedReq := fun hcmd => by
      rw [Packet.isRead, hcmd] at hread
      exact absurd hread (by decide)
    simp only [serveUpgrade, except_bind_eq_ok, except_pure_eq_ok] at h
    obtain ⟨_, _, _, _, rfl⟩ := h
    simp [hswap, hwrite, hcmd, BlkOp.takes, hread]

theorem not_takes_loadLocked (h : pkt.cmd = .LoadLockedReq) : ¬ BlkOp.takes cfg pkt := by
  intro htakes
  have hex := (htakes (by rw [Packet.isRead, h]; decide)).2
  rw [Packet.needsExclusive, h] at hex
  exact absurd hex (by decide)

/-- The locks after an operation: those it leaves and the one that a load-locked makes. -/
theorem mem_lockList_run (hrun : op.run cfg blk = .ok blk') (lock : Lock) : lock ∈ blk'.lockList ↔
      (∃ pkt, op.Serves pkt ∧ pkt.cmd = .LoadLockedReq ∧ Lock.ofRequest pkt.req = .ok lock) ∨
        lock ∈ blk.lockList ∧ ¬ op.Drops cfg lock := by
  cases op with
  | request pkt deferred downgrade isTemp =>
    simp only [BlkOp.run, except_bind_eq_ok, except_pure_eq_ok] at hrun
    obtain ⟨r, hserve, rfl⟩ := hrun
    obtain ⟨hgone, hlist⟩ := serve_lockList hserve
    simp only [BlkOp.Serves, exists_eq_left', BlkOp.Drops]
    cases hgave : r.gaveUp with
    | true =>
      obtain ⟨hswap, hwrite, htakes⟩ := hgone.mp hgave
      have hcmd : pkt.cmd ≠ .LoadLockedReq := fun hcmd => not_takes_loadLocked hcmd htakes
      simp [CacheBlk.invalidate, hcmd, hswap, hwrite, htakes]
    | false =>
      rw [if_neg (by decide), hlist]
      refine or_congr_right (and_congr_right fun _ => not_congr (and_congr_right fun hswap => ?_))
      have hstays := hgone.not.mp (by rw [hgave]; decide)
      cases hwrite : pkt.isWrite with
      | true => simp
      | false => simpa [hswap, hwrite] using hstays
  | writeback pkt =>
    simp only [BlkOp.run, takeWriteback, except_bind_eq_ok, except_pure_eq_ok] at hrun
    obtain ⟨bytes, _, rfl⟩ := hrun
    simp [BlkOp.Serves, BlkOp.Drops, withQosTag]
  | fill pkt now =>
    have hkept : blk'.lockList = blk.lockList := by
      simp only [BlkOp.run, CacheBlk.fill, except_ite_eq_ok, except_bind_eq_ok,
        except_pure_eq_ok] at hrun
      obtain ⟨_, bytes, _, rfl⟩ | ⟨_, rfl⟩ := hrun
      · rfl
      · rfl
    simp [BlkOp.Serves, BlkOp.Drops, hkept]
  | invalidate =>
    cases hrun
    simp [BlkOp.Serves, BlkOp.Drops, CacheBlk.invalidate]

theorem extractBlkOffset_eq (cfg : CacheConfig) (addr : Addr) :
    cfg.extractBlkOffset addr = addr.toNat % cfg.blkSize := by
  have hlt : cfg.blkSize - 1 < 2 ^ 64 := by
    have hsize : cfg.blkSize ≤ 2 ^ 64 :=
      Nat.pow_le_pow_right (by decide) (by have := cfg.setShift_lt; omega)
    omega
  unfold CacheConfig.extractBlkOffset CacheConfig.blkMask
  rw [BitVec.toNat_and, BitVec.toNat_ofNat, Nat.mod_eq_of_lt hlt]
  exact Nat.and_two_pow_sub_one_eq_mod _ _

/-- What lies in one block does not run past the last address. -/
theorem toNat_add_le {addr : Addr} {size : Nat}
    (hfits : cfg.extractBlkOffset addr + size ≤ cfg.blkSize) : addr.toNat + size ≤ 2 ^ 64 := by
  rw [extractBlkOffset_eq] at hfits
  obtain ⟨n, hn⟩ : cfg.blkSize ∣ 2 ^ 64 :=
    Nat.pow_dvd_pow 2 (by have := cfg.setShift_lt; omega)
  have hblk : addr.toNat / cfg.blkSize < n := by
    refine Nat.div_lt_of_lt_mul ?_
    rw [← hn]
    exact addr.isLt
  have hsplit := Nat.div_add_mod addr.toNat cfg.blkSize
  calc addr.toNat + size
      ≤ cfg.blkSize * (addr.toNat / cfg.blkSize) + cfg.blkSize := by omega
    _ = cfg.blkSize * (addr.toNat / cfg.blkSize + 1) := by rw [Nat.mul_add, Nat.mul_one]
    _ ≤ cfg.blkSize * n := Nat.mul_le_mul_left _ hblk
    _ = 2 ^ 64 := hn.symm

theorem inRange_of_fits (hown : pkt.addr = pkt.req.paddr ∧ pkt.size = pkt.req.size ∧ 0 < pkt.size)
    (hfits : cfg.extractBlkOffset pkt.addr + pkt.size ≤ cfg.blkSize) : pkt.req.InRange where
  size_pos := hown.2.1 ▸ hown.2.2
  fits := by
    rw [← hown.1, ← hown.2.1]
    exact toNat_add_le hfits

theorem inRange_of_run (hown : op.OwnRange) (hrun : op.run cfg blk = .ok blk')
    (hserves : op.Serves pkt) (hkind : pkt.isLLSC = true ∨ pkt.isWrite = true) :
    pkt.req.InRange := by
  cases op with
  | request pkt' deferred downgrade isTemp =>
    cases hserves
    simp only [BlkOp.run, serve, except_bind_eq_ok, assert_eq_ok, decide_eq_true_eq] at hrun
    obtain ⟨r, ⟨_, _, _, hfits, _⟩, _⟩ := hrun
    exact inRange_of_fits (hown hkind) hfits
  | writeback _ | fill _ _ | invalidate => exact hserves.elim

/-- An operation that spares the held locks breaks a load-locked exactly when the cache
drops its lock. -/
theorem breaks_iff_drops {ll : Request} {lock : Lock} (hlock : Lock.ofRequest ll = .ok lock)
    (hll : ll.InRange) (hheld : lock ∈ blk.lockList) (hown : op.OwnRange)
    (hspares : op.Spares cfg blk) (hrun : op.run cfg blk = .ok blk') :
    op.Breaks cfg blk ll ↔ op.Drops cfg lock := by
  cases op with
  | request pkt deferred downgrade isTemp =>
    have hrange : pkt.isLLSC = true ∨ pkt.isWrite = true → pkt.req.InRange :=
      inRange_of_run hown hrun rfl
    simp only [BlkOp.Breaks, BlkOp.Drops]
    by_cases hswap : pkt.cmd = .SwapReq
    · have hover := Lock.overlapping_iff hlock hll
        (hrange (.inr (by rw [Packet.isWrite, hswap]; decide)))
      simp only [hswap, if_true, ne_eq, not_true_eq_false, false_and, iff_false]
      rintro ⟨hswaps, hoverlaps⟩
      have hclear := hspares hswap hswaps lock hheld
      rw [hover.mpr hoverlaps] at hclear
      exact Bool.noConfusion hclear
    · cases hwrite : pkt.isWrite with
      | true => simp [hswap, Lock.overlapping_iff hlock hll (hrange (.inr hwrite))]
      | false => simp [hswap]
  | writeback pkt =>
    rw [show blk.lockList = [] from hspares] at hheld
    exact absurd hheld (List.not_mem_nil)
  | fill pkt now =>
    refine iff_of_false (fun hread => ?_) id
    rw [hspares hread] at hheld
    exact absurd hheld (List.not_mem_nil)
  | invalidate => exact Iff.rfl

end LockLemmas

open LockLemmas

/-! ## Whole histories -/

/-- The operation is for its own range and spares the held locks. -/
def BlkOp.Regular (cfg : CacheConfig) (blk : CacheBlk) (op : BlkOp) : Prop :=
  op.OwnRange ∧ op.Spares cfg blk

section History

variable {cfg : CacheConfig} {past : List (CacheBlk × BlkOp)} {blk : CacheBlk}

theorem inRange_of_history {P : CacheBlk → BlkOp → Prop} {pkt : Packet}
    {ends : CacheBlk × BlkOp → Prop} (hP : ∀ {blk op}, P blk op → op.OwnRange)
    (h : BlkHistory cfg P past blk) (hkind : pkt.isLLSC = true ∨ pkt.isWrite = true)
    (hserved : Since (fun step => step.2.Serves pkt) ends past) : pkt.req.InRange := by
  induction h with
  | fresh _ => exact absurd hserved Since.not_nil
  | step hpast hop hrun ih =>
    rcases Since.cons_iff.mp hserved with hserves | ⟨hserved, -⟩
    · exact inRange_of_run (hP hop) hrun hserves hkind
    · exact ih hserved

/-- The locks of a block are those of the load-lockeds that nothing has broken. -/
theorem mem_lockList_iff (h : BlkHistory cfg (BlkOp.Regular cfg) past blk) (lock : Lock) :
    lock ∈ blk.lockList ↔ ∃ ll : Packet, ll.cmd = .LoadLockedReq ∧
      Lock.ofRequest ll.req = .ok lock ∧
      Since (fun step => step.2.Serves ll) (fun step => step.2.Breaks cfg step.1 ll.req) past := by
  induction h with
  | fresh hfree => simp [hfree]
  | @step past blk blk' op hpast hop hrun ih =>
    -- the step can only drop a lock whose load-locked it breaks, and the other way round
    have hsame : ∀ ll : Packet, ll.cmd = .LoadLockedReq → Lock.ofRequest ll.req = .ok lock →
        Since (fun step => step.2.Serves ll) (fun step => step.2.Breaks cfg step.1 ll.req) past →
        (op.Breaks cfg blk ll.req ↔ op.Drops cfg lock) := by
      intro ll hcmd hlock hsince
      have hllsc : ll.isLLSC = true := by rw [Packet.isLLSC, hcmd]; decide
      have hrange := inRange_of_history (fun hop => hop.1) hpast (.inl hllsc) hsince
      exact breaks_iff_drops hlock hrange (ih.mpr ⟨ll, hcmd, hlock, hsince⟩) hop.1 hop.2 hrun
    rw [mem_lockList_run hrun lock]
    constructor
    · rintro (⟨ll, hserves, hcmd, hlock⟩ | ⟨hheld, hkept⟩)
      · exact ⟨ll, hcmd, hlock, Since.cons_iff.mpr (.inl hserves)⟩
      · obtain ⟨ll, hcmd, hlock, hsince⟩ := ih.mp hheld
        refine ⟨ll, hcmd, hlock, Since.cons_iff.mpr (.inr ⟨hsince, ?_⟩)⟩
        exact (hsame ll hcmd hlock hsince).not.mpr hkept
    · rintro ⟨ll, hcmd, hlock, hsince⟩
      rcases Since.cons_iff.mp hsince with hserves | ⟨hsince, hunbroken⟩
      · exact .inl ⟨ll, hserves, hcmd, hlock⟩
      · refine .inr ⟨ih.mpr ⟨ll, hcmd, hlock, hsince⟩, ?_⟩
        exact (hsame ll hcmd hlock hsince).not.mp hunbroken

theorem holdsLock_eq {req : Request} {c : Int} (hctx : req.contextId = some c) :
    blk.holdsLock req = .ok (blk.lockList.any fun lock => lock.matchesContext c req) := by
  unfold CacheBlk.holdsLock Request.getContextId
  rw [hctx]
  cases blk.lockList with
  | nil | cons lock locks => rfl

/-- The search of `checkWrite` finds a lock exactly when the context holds a reservation. -/
theorem any_matchesContext_iff (h : BlkHistory cfg (BlkOp.Regular cfg) past blk) {req : Request}
    (hreq : req.InRange) (c : Int) :
    (blk.lockList.any fun lock => lock.matchesContext c req) = true ↔ Reserved cfg past c req := by
  have hrange : ∀ {ll : Packet}, ll.cmd = .LoadLockedReq →
      Since (fun step => step.2.Serves ll) (fun step => step.2.Breaks cfg step.1 ll.req) past →
      ll.req.InRange := by
    intro ll hcmd hsince
    have hllsc : ll.isLLSC = true := by rw [Packet.isLLSC, hcmd]; decide
    exact inRange_of_history (fun hop => hop.1) h (.inl hllsc) hsince
  rw [List.any_eq_true]
  constructor
  · rintro ⟨lock, hheld, hmatch⟩
    obtain ⟨ll, hcmd, hlock, hsince⟩ := (mem_lockList_iff h lock).mp hheld
    obtain ⟨hctx, hcovers⟩ := (Lock.matchesContext_iff hlock (hrange hcmd hsince) hreq).mp hmatch
    exact ⟨ll, hcmd, hctx, hcovers, hsince⟩
  · rintro ⟨ll, hcmd, hctx, hcovers, hsince⟩
    have hlock := Lock.ofRequest_eq_ok.mpr ⟨c, hctx, rfl⟩
    refine ⟨_, (mem_lockList_iff h _).mpr ⟨ll, hcmd, hlock, hsince⟩, ?_⟩
    exact (Lock.matchesContext_iff hlock (hrange hcmd hsince) hreq).mpr ⟨hctx, hcovers⟩

/-- A store conditional is served, and it succeeds exactly when its context has done a
load-locked that covers it and that nothing has broken since. -/
theorem store_conditional_iff (h : BlkHistory cfg (BlkOp.Regular cfg) past blk) {pkt : Packet}
    {deferred downgrade isTemp : Bool} {c : Int} {bytes : List Byte} (hwrite : pkt.isWrite = true)
    (hllsc : pkt.isLLSC = true) (hown : (BlkOp.request pkt deferred downgrade isTemp).OwnRange)
    (hctx : pkt.req.contextId = some c) (hdata : pkt.data = some bytes)
    (hvalid : blk.isValid = true)
    (hfits : cfg.extractBlkOffset pkt.addr + pkt.size ≤ cfg.blkSize) :
    ∃ r, blk.serve cfg pkt deferred downgrade isTemp = .ok r ∧
      (r.pkt.req.extraData = some 1 ↔ Reserved cfg past c pkt.req) ∧
      (Reserved cfg past c pkt.req →
        r.blk.data = writeBytes blk.data (cfg.extractBlkOffset pkt.addr) (bytes.take pkt.size)) ∧
      (¬ Reserved cfg past c pkt.req →
        r.pkt.req.extraData = some 0 ∧ r.blk.data = blk.data) := by
  have hswap : pkt.cmd ≠ .SwapReq := fun hcmd => by
    rw [Packet.isLLSC, hcmd] at hllsc
    exact absurd hllsc (by decide)
  have hreserved := any_matchesContext_iff h (inRange_of_fits (hown (.inl hllsc)) hfits) c
  have hserve : blk.serve cfg pkt deferred downgrade isTemp = blk.serveWrite cfg pkt := by
    simp [CacheBlk.serve, hvalid, hfits, hswap, hwrite, bind, Except.bind]
  have hcheck : blk.holdsLock pkt.req = .ok _ := holdsLock_eq hctx
  rw [hserve]
  cases hfound : blk.lockList.any fun lock => lock.matchesContext c pkt.req with
  | true =>
    have hres := hreserved.mp hfound
    rw [hfound] at hcheck
    refine ⟨⟨(blk.clearLoadLocks pkt.req).store cfg (pkt.setExtraData 1) bytes,
      pkt.setExtraData 1, false⟩, ?_, ?_, fun _ => rfl, fun hno => absurd hres hno⟩
    · simp [CacheBlk.serveWrite, CacheBlk.checkWrite, hllsc, hcheck, Packet.getPtr, hdata,
        Packet.setExtraData]
    · exact iff_of_true rfl hres
  | false =>
    have hno : ¬ Reserved cfg past c pkt.req := by
      rw [← hreserved, hfound]
      decide
    rw [hfound] at hcheck
    refine ⟨⟨blk.clearLoadLocks pkt.req, pkt.setExtraData 0, false⟩, ?_, ?_,
      fun hres => absurd hres hno, fun _ => ⟨rfl, rfl⟩⟩
    · simp [CacheBlk.serveWrite, CacheBlk.checkWrite, hllsc, hcheck]
    · refine iff_of_false (fun hone => ?_) hno
      exact absurd (Option.some.inj hone) (by decide)

end History

/-! ## Two contexts on one block -/

def contextPkt (c : Int) (cmd : MemCmd) : Packet :=
  { Packet.ofRequest { fourBytes 0 with contextId := some c } cmd with data := some [5, 6, 7, 8] }

def exclusiveFill : BlkOp :=
  .fill { Packet.ofRequest (fourBytes 0) .ReadExResp with data := some [1, 2, 3, 4] } 0

def contextOp (c : Int) (cmd : MemCmd) : BlkOp := .request (contextPkt c cmd) false false false

def blkAfter (ops : List BlkOp) : CacheBlk :=
  match ops.foldlM (BlkOp.run .oneBlock) {} with
  | .ok blk => blk
  | .error _ => {}

def lockedOnce : List (CacheBlk × BlkOp) :=
  [(blkAfter [exclusiveFill], contextOp 0 .LoadLockedReq), ({}, exclusiveFill)]

theorem ownRange_contextOp (c : Int) (cmd : MemCmd) : (contextOp c cmd).OwnRange :=
  fun _ => ⟨rfl, rfl, Nat.succ_pos 3⟩

theorem lockedOnce_history : BlkHistory .oneBlock (BlkOp.Regular .oneBlock) lockedOnce
    (blkAfter [exclusiveFill, contextOp 0 .LoadLockedReq]) :=
  .step (.step (.fresh rfl) ⟨trivial, fun _ => rfl⟩ rfl)
    ⟨ownRange_contextOp 0 _, fun hswap => absurd hswap (by decide)⟩ rfl

theorem store_conditional_iff_alone :
    ∃ r, (blkAfter [exclusiveFill, contextOp 0 .LoadLockedReq]).serve .oneBlock
        (contextPkt 0 .StoreCondReq) false false false = .ok r ∧
      r.pkt.req.extraData = some 1 ∧ r.blk.data = [5, 6, 7, 8] := by
  have hreserved : Reserved .oneBlock lockedOnce 0 (contextPkt 0 .StoreCondReq).req :=
    ⟨contextPkt 0 .LoadLockedReq, rfl, rfl, fun _ h => h, Since.cons_iff.mpr (.inl rfl)⟩
  obtain ⟨r, hserve, hdone, hdata, -⟩ := store_conditional_iff lockedOnce_history (by decide)
    (by decide) (ownRange_contextOp 0 .StoreCondReq) rfl rfl (by decide) (by decide)
  exact ⟨r, hserve, hdone.mpr hreserved, hdata hreserved⟩

/-- A swap of context 1 overwrites the bytes that context 0 has locked, and the store
conditional of context 0 still succeeds. -/
theorem swap_keeps_lock : ∃ past blk r, BlkHistory .oneBlock (fun _ op => op.OwnRange) past blk ∧
      blk.serve .oneBlock (contextPkt 0 .StoreCondReq) false false false = .ok r ∧
      r.pkt.req.extraData = some 1 ∧
      ¬ Reserved .oneBlock past 0 (contextPkt 0 .StoreCondReq).req := by
  let ops := [exclusiveFill, contextOp 0 .LoadLockedReq, contextOp 1 .SwapReq]
  refine ⟨(blkAfter (ops.take 2), contextOp 1 .SwapReq) :: lockedOnce, blkAfter ops, _,
    .step (.step (.step (.fresh rfl) trivial rfl) (ownRange_contextOp 0 _) rfl)
      (ownRange_contextOp 1 _) rfl, rfl, rfl, ?_⟩
  rintro ⟨ll, hcmd, -, -, hsince⟩
  -- nothing but the load-locked starts a reservation, and the swap breaks it
  rcases Since.cons_iff.mp hsince with hserves | ⟨hsince, hunbroken⟩
  · rw [← show contextPkt 1 .SwapReq = ll from hserves] at hcmd
    exact absurd hcmd (by decide)
  · rcases Since.cons_iff.mp hsince with hserves | ⟨hsince, -⟩
    · rw [← show contextPkt 0 .LoadLockedReq = ll from hserves] at hunbroken
      exact hunbroken ⟨rfl, 0, ⟨by decide, by decide⟩, by decide, by decide⟩
    · rcases Since.cons_iff.mp hsince with hserves | ⟨hsince, -⟩
      · exact hserves
      · exact Since.not_nil hsince

end PardG5V
