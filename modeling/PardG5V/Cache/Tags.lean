import Mathlib.Data.List.FinRange
import PardG5V.Cache.Blk
import PardG5V.Lib.Recency

/-!
# The LRU tag store

`hyper/mem/cache/tags/cacheset.hh` and `hyper/mem/cache/tags/lru.cc`. The blocks of a set stay
where they are, and the set lists its ways in recency order, most recently used first. That the
list is a permutation of the ways is a field of `CacheSet`.
-/

namespace PardG5V

/-- `CacheSet`: the ways of a set in recency order. -/
structure CacheSet (assoc : Nat) where
  blks : List (Fin assoc)
  perm : blks.Perm (List.finRange assoc)

namespace CacheSet

variable {assoc : Nat}

theorem mem (set : CacheSet assoc) (w : Fin assoc) : w ∈ set.blks :=
  set.perm.mem_iff.mpr (List.mem_finRange w)

def initial (assoc : Nat) : CacheSet assoc := ⟨List.finRange assoc, .refl _⟩

def moveToHead (set : CacheSet assoc) (w : Fin assoc) : CacheSet assoc :=
  ⟨Recency.moveToHead w set.blks, (Recency.moveToHead_perm (set.mem w)).trans set.perm⟩

def moveToTail (set : CacheSet assoc) (w : Fin assoc) : CacheSet assoc :=
  ⟨Recency.moveToTail w set.blks, (Recency.moveToTail_perm (set.mem w)).trans set.perm⟩

end CacheSet

/-- The test `(1 << blk->way) & waymask` of `findVictim`. The shift is one of `int`: way 31 gives
the sign bit, which widens to the upper half, and wider ways are taken modulo 32. -/
def wayAllowed (waymask : BitVec 64) (way : Nat) : Bool :=
  ((1#32 <<< (way % 32)).signExtend 64 &&& waymask) != 0

/-- The loop of `findVictim` from the tail of a set: it stops at the first allowed
way, and otherwise is left with the last one it visited. -/
def scanVictim {α : Type} (allowed : α → Bool) : α → List α → α
  | last, [] => last
  | _, w :: ws => if allowed w then w else scanVictim allowed w ws

/-- `LRU`. `waymasks` has one mask a guest, written by the control plane. -/
structure LRU (cfg : CacheConfig) where
  sets : Nat → CacheSet cfg.assoc
  blks : Nat → Fin cfg.assoc → CacheBlk
  waymasks : List (BitVec 64)
  tagsInUse : Int
  occupancies : Nat → Int

namespace LRU

variable {cfg : CacheConfig}

def initial (cfg : CacheConfig) (waymasks : List (BitVec 64)) : LRU cfg where
  sets _ := .initial cfg.assoc
  blks _ w := { tag := BitVec.ofNat 64 w, data := List.replicate cfg.blkSize 0 }
  waymasks := waymasks
  tagsInUse := 0
  occupancies _ := 0

def setBlk (tags : LRU cfg) (set : Nat) (w : Fin cfg.assoc) (blk : CacheBlk) : LRU cfg :=
  { tags with blks := fun i v => if i = set ∧ v = w then blk else tags.blks i v }

def setOrder (tags : LRU cfg) (set : Nat) (order : CacheSet cfg.assoc) : LRU cfg :=
  { tags with sets := fun i => if i = set then order else tags.sets i }

def addOccupancy (tags : LRU cfg) (masterId : Nat) (n : Int) : LRU cfg :=
  { tags with
    occupancies := fun m => if m = masterId then tags.occupancies m + n else tags.occupancies m }

def hits (blk : CacheBlk) (guest : GuestID) (tag : Addr) (isSecure : Bool) : Bool :=
  blk.tag == tag && blk.isValid && blk.guestID == guest && blk.isSecure == isSecure

def findWay (tags : LRU cfg) (set : Nat) (guest : GuestID) (tag : Addr) (isSecure : Bool) :
    Option (Fin cfg.assoc) :=
  (tags.sets set).blks.find? fun w => hits (tags.blks set w) guest tag isSecure

/-- `findBlock`: the way that holds the block of `addr`, in the set of `addr`. -/
def findBlock (tags : LRU cfg) (guest : GuestID) (addr : Addr) (isSecure : Bool) :
    Option (Fin cfg.assoc) :=
  tags.findWay (cfg.extractSet addr) guest (cfg.extractTag addr) isSecure

/-- The latency of a hit: a block that is still on its way takes longer. -/
def accessLatency (cfg : CacheConfig) (blk : CacheBlk) (now : Tick) : Nat :=
  if now < blk.whenReady ∧ cfg.hitLatency < cfg.ticksToCycles (blk.whenReady - now) then
    cfg.ticksToCycles (blk.whenReady - now)
  else cfg.hitLatency

/-- `accessBlock`: a hit becomes the most recent block of its set. -/
def accessBlock (tags : LRU cfg) (guest : GuestID) (addr : Addr) (isSecure : Bool) (now : Tick) :
    LRU cfg × Option (Fin cfg.assoc) × Nat :=
  match tags.findBlock guest addr isSecure with
  | none => (tags, none, cfg.hitLatency)
  | some w =>
    let set := cfg.extractSet addr
    let blk := tags.blks set w
    ((tags.setOrder set ((tags.sets set).moveToHead w)).setBlk set w
        { blk with refCount := blk.refCount + 1 },
      some w, accessLatency cfg blk now)

/-- `waymasks[guest]`: the source does not check the index. -/
def waymask (tags : LRU cfg) (guest : GuestID) : Except Abort (BitVec 64) :=
  match tags.waymasks[guest.toNat]? with
  | some mask => .ok mask
  | none => .error .outOfBounds

def victim (tags : LRU cfg) (set : Nat) (mask : BitVec 64) : Fin cfg.assoc :=
  scanVictim (fun w => wayAllowed mask w) ⟨0, cfg.assoc_pos⟩ (tags.sets set).blks.reverse

/-- `findVictim`, with the mask it used. -/
def findVictim (tags : LRU cfg) (guest : GuestID) (addr : Addr) :
    Except Abort (BitVec 64 × Fin cfg.assoc) := do
  let mask ← tags.waymask guest
  assert (mask != 0)
  return (mask, tags.victim (cfg.extractSet addr) mask)

/-- The part of `insertBlock` that retires a valid block. -/
def retire (tags : LRU cfg) (blk : CacheBlk) : Except Abort (LRU cfg × CacheBlk) :=
  if blk.isValid then do
    assert (blk.srcMasterId < cfg.maxMasters)
    return (tags.addOccupancy blk.srcMasterId (-1), { blk with refCount := 0 }.invalidate)
  else .ok (tags, blk)

/-- `insertBlock`: the tag store and the block as the caller gets them. The caller
sets the remaining status bits. -/
def insertBlock (tags : LRU cfg) (guest : GuestID) (pkt : Packet) (blk : CacheBlk)
    (w : Fin cfg.assoc) : Except Abort (LRU cfg × CacheBlk) := do
  let set := cfg.extractSet pkt.addr
  let tags := { tags with tagsInUse := tags.tagsInUse + if blk.isTouched then 0 else 1 }
  let (tags, blk) ← tags.retire blk
  assert (pkt.req.masterId < cfg.maxMasters)
  let blk := { blk.withGuestID guest with
    isTouched := true
    tag := cfg.extractTag pkt.addr
    status := { blk.status with secure := blk.status.secure || pkt.isSecure }
    srcMasterId := pkt.req.masterId
    taskId := pkt.req.taskId }
  return ((tags.addOccupancy pkt.req.masterId 1).setOrder set ((tags.sets set).moveToHead w), blk)

/-- `invalidate`: takes a block out of the tag store's books and makes it the
first to be replaced. The caller clears its status. -/
def invalidate (tags : LRU cfg) (set : Nat) (w : Fin cfg.assoc) (blk : CacheBlk) :
    Except Abort (LRU cfg × CacheBlk) := do
  assert blk.isValid
  assert (blk.srcMasterId < cfg.maxMasters)
  let tags := { tags.addOccupancy blk.srcMasterId (-1) with tagsInUse := tags.tagsInUse - 1 }
  let blk := { blk.withGuestID allGuest with srcMasterId := Request.invldMasterId, taskId := 1024 }
  return (tags.setOrder set ((tags.sets set).moveToTail w), blk)

def clearLocks (tags : LRU cfg) : LRU cfg :=
  { tags with blks := fun i w => { tags.blks i w with lockList := [] } }

/-- `waymasks[ldomID] = data`: the source does not check the index. -/
def setWaymask (tags : LRU cfg) (ldomID : LDomID) (data : BitVec 64) : Except Abort (LRU cfg) :=
  if ldomID.toNat < tags.waymasks.length then
    .ok { tags with waymasks := tags.waymasks.set ldomID.toNat data }
  else .error .outOfBounds

/-- `set(ldomID, destAddr, data)`, which only warns about other destinations. -/
def set (tags : LRU cfg) (ldomID : LDomID) (destAddr : BitVec 32) (data : BitVec 64) :
    Except Abort (LRU cfg) :=
  if destAddr = 0 then tags.setWaymask ldomID data else .ok tags

/-- `set(tag, idx, value)`; `mask` is the number that `atol` reads from `value`. -/
def setByTag (tags : LRU cfg) (tag : BitVec 64) (idx : Int) (mask : BitVec 64) :
    Except Abort (LRU cfg) :=
  if idx = 0 then tags.setWaymask (qosTagToGuestID tag) mask else .ok tags

theorem setWaymask_spec {tags tags' : LRU cfg} {ldomID : LDomID} {data : BitVec 64}
    (h : tags.setWaymask ldomID data = .ok tags') :
    tags' = { tags with waymasks := tags'.waymasks } := by
  simp only [setWaymask, Prog.except_ite_eq_ok, Except.ok.injEq, reduceCtorEq, and_false,
    or_false] at h
  rw [← h.2]

/-! ## Lookups and the victim search -/

section Lemmas

variable {tags : LRU cfg} {set : Nat} {guest : GuestID} {tag : Addr} {isSecure : Bool}
  {blk blk' : CacheBlk} {pkt : Packet} {tags' : LRU cfg} {addr : Addr}

theorem hits_iff : hits blk guest tag isSecure = true ↔
      blk.tag = tag ∧ blk.isValid = true ∧ blk.guestID = guest ∧ blk.isSecure = isSecure := by
  simp [hits, and_assoc]

variable {w : Fin cfg.assoc}

theorem findWay_some (h : tags.findWay set guest tag isSecure = some w) :
    hits (tags.blks set w) guest tag isSecure = true := by
  have hw := List.find?_some h
  exact hw

theorem findWay_none (h : tags.findWay set guest tag isSecure = none) (w : Fin cfg.assoc) :
    hits (tags.blks set w) guest tag isSecure = false := by
  have hw := List.find?_eq_none.mp h w ((tags.sets set).mem w)
  exact Bool.eq_false_iff.mpr hw

/-- A block that a lookup finds stands for the line that was looked up. -/
theorem findBlock_line (h : tags.findBlock pkt.guestID pkt.addr pkt.isSecure = some w) :
    (tags.blks (cfg.extractSet pkt.addr) w).isValid = true ∧
      (tags.blks (cfg.extractSet pkt.addr) w).line cfg (cfg.extractSet pkt.addr) =
        pkt.line cfg := by
  obtain ⟨htag, hvalid, hguest, hsecure⟩ := hits_iff.mp (findWay_some h)
  refine ⟨hvalid, ?_⟩
  unfold CacheBlk.line Packet.line
  rw [htag, hguest, hsecure, cfg.regenerateBlkAddr_extract]

theorem accessBlock_hit (tags : LRU cfg) (guest : GuestID) (addr : Addr) (isSecure : Bool)
    (now : Tick) :
    (tags.accessBlock guest addr isSecure now).2.1 = tags.findBlock guest addr isSecure := by
  unfold accessBlock
  cases tags.findBlock guest addr isSecure with
  | none | some w => rfl

theorem accessBlock_findBlock (tags : LRU cfg) (guest : GuestID) (addr : Addr) (isSecure : Bool)
    (now : Tick) :
    (tags.accessBlock guest addr isSecure now).1.findBlock guest addr isSecure =
      tags.findBlock guest addr isSecure := by
  unfold accessBlock
  cases hfind : tags.findBlock guest addr isSecure with
  | none => exact hfind
  | some w =>
    have hhit := findWay_some hfind
    have hhead := Recency.moveToHead_eq ((tags.sets (cfg.extractSet addr)).mem w)
    simp only [findBlock, findWay, setBlk, setOrder, CacheSet.moveToHead, if_true, hhead]
    refine List.find?_cons_of_pos ?_
    rw [if_pos ⟨trivial, rfl⟩]
    exact hhit

theorem accessBlock_blks (tags : LRU cfg) (guest : GuestID) (addr : Addr) (isSecure : Bool)
    (now : Tick) (set : Nat) (w : Fin cfg.assoc) :
    ∃ n, (tags.accessBlock guest addr isSecure now).1.blks set w =
      { tags.blks set w with refCount := n } := by
  unfold accessBlock
  cases tags.findBlock guest addr isSecure with
  | none => exact ⟨_, rfl⟩
  | some v =>
    by_cases hw : set = cfg.extractSet addr ∧ w = v
    · obtain ⟨rfl, rfl⟩ := hw
      exact ⟨_, if_pos ⟨rfl, rfl⟩⟩
    · exact ⟨_, if_neg hw⟩

/-- A lookup only depends on the order of the sets and on what it compares. -/
theorem findBlock_congr (hsets : tags'.sets = tags.sets)
    (hhits : ∀ set w, hits (tags'.blks set w) guest (cfg.extractTag addr) isSecure =
      hits (tags.blks set w) guest (cfg.extractTag addr) isSecure) :
    tags'.findBlock guest addr isSecure = tags.findBlock guest addr isSecure := by
  unfold findBlock findWay
  rw [hsets]
  simp only [hhits]

/-- The victim only depends on the order of the sets and on the masks. -/
theorem findVictim_congr (hsets : tags'.sets = tags.sets)
    (hmasks : tags'.waymasks = tags.waymasks) :
    tags'.findVictim guest addr = tags.findVictim guest addr := by
  unfold findVictim waymask victim
  rw [hsets, hmasks]

/-- A victim is found under a nonzero mask, the one in force for the guest. -/
theorem findVictim_spec {mask : BitVec 64} (h : tags.findVictim guest addr = .ok (mask, w)) :
    tags.waymasks[guest.toNat]? = some mask ∧ mask ≠ 0 ∧
      w = tags.victim (cfg.extractSet addr) mask := by
  simp only [findVictim, waymask, Prog.except_bind_eq_ok, Prog.except_pure_eq_ok, assert_eq_ok,
    bne_iff_ne, Prod.mk.injEq] at h
  obtain ⟨mask', hmask, _, hne, rfl, rfl⟩ := h
  cases hget : tags.waymasks[guest.toNat]? with
  | none => simp [hget] at hmask
  | some m =>
    obtain rfl : m = mask' := by simpa [hget] using hmask
    exact ⟨rfl, hne, rfl⟩

/-- What `insertBlock` does: it only reorders a set, and the block it returns is not
valid yet, has the packet's tag and keeps no status of a block it replaces. -/
theorem insertBlock_spec (h : tags.insertBlock guest pkt blk w = .ok (tags', blk')) :
    tags'.blks = tags.blks ∧ tags'.waymasks = tags.waymasks ∧ blk'.isValid = false ∧
      blk'.tag = cfg.extractTag pkt.addr ∧
      blk'.isSecure = (!blk.isValid && blk.isSecure || pkt.isSecure) ∧
      blk'.isDirty = (!blk.isValid && blk.isDirty) := by
  simp only [insertBlock, retire, Prog.except_bind_eq_ok, Prog.except_ite_eq_ok,
    Prog.except_pure_eq_ok, assert_eq_ok, decide_eq_true_eq, Except.ok.injEq] at h
  obtain ⟨⟨tags₁, blk₁⟩, hretire, _, _, heq⟩ := h
  obtain ⟨rfl, rfl⟩ := Prod.mk.inj heq
  rcases hretire with ⟨hvalid, _, _, heq⟩ | ⟨hvalid, heq⟩
  · obtain ⟨rfl, rfl⟩ := Prod.mk.inj heq
    rw [hvalid]
    exact ⟨rfl, rfl, rfl, rfl, rfl, rfl⟩
  · obtain ⟨rfl, rfl⟩ := Prod.mk.inj heq
    rw [Bool.not_eq_true] at hvalid
    rw [hvalid]
    exact ⟨rfl, rfl, hvalid, rfl, rfl, rfl⟩

theorem invalidate_spec (h : tags.invalidate set w blk = .ok (tags', blk')) :
    tags'.blks = tags.blks ∧ tags'.waymasks = tags.waymasks ∧ blk.isValid = true := by
  simp only [invalidate, Prog.except_bind_eq_ok, Prog.except_pure_eq_ok, assert_eq_ok] at h
  obtain ⟨_, hvalid, _, _, heq⟩ := h
  obtain ⟨rfl, rfl⟩ := Prod.mk.inj heq
  exact ⟨rfl, rfl, hvalid⟩

end Lemmas

end LRU

/-- The search stops at an allowed element whenever the list has one. -/
theorem scanVictim_allowed {α : Type} {allowed : α → Bool} {l : List α}
    (h : ∃ w ∈ l, allowed w = true) (last : α) : allowed (scanVictim allowed last l) = true := by
  induction l generalizing last with
  | nil =>
    obtain ⟨w, hw, _⟩ := h
    exact absurd hw List.not_mem_nil
  | cons x xs ih =>
    unfold scanVictim
    cases hx : allowed x with
    | true =>
      rw [if_pos rfl]
      exact hx
    | false =>
      rw [if_neg Bool.false_ne_true]
      obtain ⟨w, hw, ha⟩ := h
      refine ih ⟨w, (List.mem_cons.mp hw).resolve_left ?_, ha⟩ x
      rintro rfl
      rw [hx] at ha
      exact Bool.noConfusion ha

end PardG5V
