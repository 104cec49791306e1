import PardG5V.Dev.DmaPort

/-!
# The packets of a transfer

`dmaAction` of `hyper/dev/dma_device.cc` and `blobHelper` of `hyper/mem/port_proxy.cc` cut a region
at the cache lines. The DMA port also counts the bytes of its responses, for each guest, in windows
of time.

Results: `transfer_chunks`, `guest_bandwidth`.
-/

namespace PardG5V

/-! ## Cutting a transfer into packets -/

/-- A packet: its part of the region, where its data is, and its tag. -/
structure Piece where
  addr : Addr
  size : Nat
  dataOffset : Nat
  qosTag : BitVec 64
deriving DecidableEq, Repr

def DmaPacket.piece (pkt : DmaPacket) : Piece :=
  ⟨pkt.addr, pkt.size, pkt.dataOffset, pkt.guestID.setWidth 64⟩

namespace PortProxy

/-- The loop of `blobHelper`, which moves its own data pointer. -/
def pieces (tag : BitVec 64) : Nat → List ChunkGen.Chunk → List Piece
  | _, [] => []
  | p, c :: rest => ⟨c.addr, c.size, p, tag⟩ :: pieces tag (p + c.size) rest

/-- `blobHelper(addr, p, size, cmd)`: the packets that are sent. -/
def blobHelper (cacheLineSize : Nat) (tag : BitVec 32) (addr : Addr) (size : BitVec 32) :
    Except Abort (List Piece) := do
  assert (0 ≤ tag.toInt)
  return pieces (tag.signExtend 64) 0 (ChunkGen.all addr size.toNat cacheLineSize)

end PortProxy

/-- The packets cut a region up: they follow each other and none is empty, and each one is at its
place, within one line, and has the tag. -/
structure CutsUp (addr : Addr) (size line : Nat) (tag : BitVec 64) (ps : List Piece) : Prop where
  tiles : Tiles size 0 (ps.map fun p => (p.dataOffset, p.size))
  placed : ∀ p ∈ ps, p.addr.toNat = addr.toNat + p.dataOffset
  within : ∀ p ∈ ps, p.addr.toNat % line + p.size ≤ line
  tagged : ∀ p ∈ ps, p.qosTag = tag

namespace TrafficLemmas

/-- The data pointer of the proxy is where the generator is. -/
theorem pieces_eq {tag : BitVec 64} {stop o : Nat} {cs : List ChunkGen.Chunk}
    (h : Tiles stop o (cs.map fun c => (c.complete, c.size))) :
    PortProxy.pieces tag o cs = cs.map fun c => ⟨c.addr, c.size, c.complete, tag⟩ := by
  induction cs generalizing o with
  | nil => rfl
  | cons c cs ih =>
    obtain ⟨rfl, _, hrest⟩ := h
    exact congrArg _ (ih hrest)

theorem chunks_cutsUp {addr : Addr} {size k : Nat} (tag : BitVec 64) (hk : k ≤ 30)
    (hsize : size < 2 ^ 32) (hwrap : addr.toNat + size ≤ 2 ^ 64) :
    CutsUp addr size (2 ^ k) tag
      ((ChunkGen.all addr size (2 ^ k)).map fun c => ⟨c.addr, c.size, c.complete, tag⟩) := by
  obtain ⟨htiles, haddr⟩ :=
    (ChunkGen.init_inv addr hk hsize).tiles (Nat.le_of_eq (Nat.zero_add _).symm)
  have hlined := (ChunkGen.init_lined addr size hk).chunks hk size
  refine ⟨?_, fun p hp => ?_, fun p hp => ?_, fun p hp => ?_⟩
  · rw [List.map_map]
    exact htiles
  all_goals obtain ⟨c, hc, rfl⟩ := List.mem_map.mp hp
  · obtain ⟨_, hpos, hend⟩ := htiles.mem_bounds (List.mem_map_of_mem hc)
    have hend : c.complete + c.size ≤ size := hend
    have hpos : 0 < c.size := hpos
    show c.addr.toNat = _
    rw [haddr c hc, BitVec.toNat_add, BitVec.toNat_ofNat, Nat.add_mod_mod, Nat.mod_eq_of_lt]
    · rfl
    · show addr.toNat + c.complete < 2 ^ 64
      omega
  · exact hlined c hc
  · rfl

end TrafficLemmas

open TrafficLemmas

def guestNum : Nat := 2

def beginTime : Nat := 1200000000000

def timeWindow : Nat := 1000000000

/-- A response that `handleResp` counts, at its tick. -/
structure DmaResponse where
  tick : Tick
  guestID : GuestID
  size : BitVec 32
deriving DecidableEq, Repr

namespace GuestBandwidth

/-- The loop that leaves the windows that have passed, at most `fuel` of them. The time stamp stays
behind the tick, so that the conversions between signed and unsigned times keep its value. -/
def catchUp (now : Tick) : Nat → Tick × BitVec 64 → Tick × BitVec 64
  | 0, window => window
  | fuel + 1, (stamp, bytes) =>
    if timeWindow < now - stamp then catchUp now fuel (stamp + timeWindow, 0) else (stamp, bytes)

/-- `update_guest_bandwidth(guestID, bytes)`, on `time_stamp_guest` and `throughput_guest`. -/
def update (b : GuestID → Tick × BitVec 64) (r : DmaResponse) : GuestID → Tick × BitVec 64 :=
  if guestNum ≤ r.guestID.toNat then b
  else if (b r.guestID).1 < r.tick then
    let (stamp, bytes) := catchUp r.tick ((r.tick - (b r.guestID).1) / timeWindow) (b r.guestID)
    Function.update b r.guestID (stamp, bytes + r.size.signExtend 64)
  else b

/-- After a sequence of responses, the latest first. -/
def counted : List DmaResponse → GuestID → Tick × BitVec 64
  | [] => fun _ => (beginTime, 0)
  | r :: rs => update (counted rs) r

/-- The number of the window that the tick is in. -/
def windowOf (t : Tick) : Nat := (t - beginTime - 1) / timeWindow

/-- The bytes of the responses of a guest in a window. -/
def bytesIn (g : GuestID) (k : Nat) : List DmaResponse → Nat
  | [] => 0
  | r :: rs => bytesIn g k rs + if r.guestID = g ∧ windowOf r.tick = k then r.size.toNat else 0

variable {t : Tick} {k : Nat} {g : GuestID} {rs : List DmaResponse} {r : DmaResponse}
  {b : GuestID → Tick × BitVec 64}

theorem le_windowOf_iff (h : beginTime < t) :
    k ≤ windowOf t ↔ beginTime + k * timeWindow < t := by
  unfold windowOf
  rw [Nat.le_div_iff_mul_le (by decide)]
  omega

theorem catchUp_eq (h : beginTime < t) {fuel : Nat} {bytes : BitVec 64}
    (hk : k ≤ windowOf t) (hfuel : windowOf t ≤ k + fuel) :
    catchUp t fuel (beginTime + k * timeWindow, bytes) =
      (beginTime + windowOf t * timeWindow, if windowOf t = k then bytes else 0) := by
  induction fuel generalizing k bytes with
  | zero =>
    have heq : windowOf t = k := Nat.le_antisymm hfuel hk
    rw [heq, if_pos rfl]
    rfl
  | succ fuel ih =>
    have hstart := (le_windowOf_iff h).mp hk
    have hmore : timeWindow < t - (beginTime + k * timeWindow) ↔ k + 1 ≤ windowOf t := by
      rw [le_windowOf_iff h, Nat.add_mul]
      omega
    unfold catchUp
    by_cases hpassed : k + 1 ≤ windowOf t
    · rw [if_pos (hmore.mpr hpassed), Nat.add_assoc, ← Nat.succ_mul, ih hpassed (by omega),
        if_neg (Nat.ne_of_gt hpassed), ite_self]
    · have heq : windowOf t = k := Nat.le_antisymm (Nat.not_lt.mp hpassed) hk
      rw [if_neg fun hlt => hpassed (hmore.mp hlt), heq, if_pos rfl]

theorem update_of_ne (hne : g ≠ r.guestID) : update b r g = b g := by
  unfold update
  split
  · rfl
  · split
    · exact Function.update_of_ne hne _ _
    · rfl

/-- The guest is in window `k` and has got nothing later. -/
structure Counts (g : GuestID) (k : Nat) (rs : List DmaResponse) : Prop where
  now : counted rs g = (beginTime + k * timeWindow, BitVec.ofNat 64 (bytesIn g k rs))
  later : ∀ k' > k, bytesIn g k' rs = 0
  reached : ∀ t, beginTime < t → (∀ r ∈ rs, r.tick ≤ t) → k ≤ windowOf t

/-- A response of the guest opens its window, if need be, and is counted in it. -/
theorem Counts.step (h : Counts g k rs) (hg : g.toNat < guestNum) (hguest : r.guestID = g)
    (hbegin : beginTime < r.tick) (hle : ∀ r' ∈ rs, r'.tick ≤ r.tick) (hsize : r.size.msb = false) :
    Counts g (windowOf r.tick) (r :: rs) := by
  subst hguest
  have hk := h.reached r.tick hbegin hle
  have hstart := (le_windowOf_iff hbegin).mp hk
  have hend := (le_windowOf_iff hbegin).mp (Nat.le_refl (windowOf r.tick))
  have hfuel : windowOf r.tick - k ≤ (r.tick - (beginTime + k * timeWindow)) / timeWindow := by
    rw [Nat.le_div_iff_mul_le (by decide), Nat.sub_mul]
    omega
  have hbytes : (if windowOf r.tick = k then BitVec.ofNat 64 (bytesIn r.guestID k rs) else 0) =
      BitVec.ofNat 64 (bytesIn r.guestID (windowOf r.tick) rs) := by
    split
    · next heq => rw [heq]
    · next hne =>
        rw [h.later _ (Nat.lt_of_le_of_ne hk (Ne.symm hne))]
        rfl
  refine ⟨?_, fun k' hk' => ?_, fun t ht hall => ?_⟩
  · unfold counted update
    rw [if_neg (Nat.not_le.mpr hg), h.now, if_pos hstart,
      catchUp_eq hbegin hk (Nat.sub_le_iff_le_add'.mp hfuel), hbytes,
      BitVec.signExtend_eq_setWidth_of_msb_false hsize, ← BitVec.ofNat_toNat]
    dsimp only
    rw [Function.update_self, bytesIn, if_pos ⟨rfl, rfl⟩, BitVec.ofNat_add]
  · rw [bytesIn, h.later k' (Nat.lt_of_le_of_lt hk hk'),
      if_neg fun hboth => Nat.ne_of_lt hk' hboth.2]
  · rw [le_windowOf_iff ht]
    exact Nat.lt_of_lt_of_le hend (hall r List.mem_cons_self)

theorem Counts.other (h : Counts g k rs) (hne : g ≠ r.guestID) : Counts g k (r :: rs) := by
  have hsame (k' : Nat) : bytesIn g k' (r :: rs) = bytesIn g k' rs := by
    rw [bytesIn, if_neg fun hboth => hne hboth.1.symm, Nat.add_zero]
  refine ⟨?_, fun k' hk' => (hsame k').trans (h.later k' hk'), fun t ht hall => ?_⟩
  · rw [hsame k]
    exact (update_of_ne hne).trans h.now
  · exact h.reached t ht fun r' hr' => hall r' (List.mem_cons_of_mem r hr')

/-- The responses came in the order of their ticks, after `BEGIN_TIME`, and a size is an `int` that
is not negative. -/
structure Received (rs : List DmaResponse) : Prop where
  sorted : rs.Pairwise fun r r' => r'.tick ≤ r.tick
  begun : ∀ r ∈ rs, beginTime < r.tick ∧ r.size.msb = false

theorem Received.counts (h : Received rs) (hg : g.toNat < guestNum) : ∃ k, Counts g k rs := by
  induction rs with
  | nil =>
    refine ⟨0, ?_, fun _ _ => rfl, fun _ _ _ => Nat.zero_le _⟩
    rw [Nat.zero_mul]
    rfl
  | cons r rs ih =>
    obtain ⟨hle, hsorted⟩ := List.pairwise_cons.mp h.sorted
    obtain ⟨⟨hbegin, hsize⟩, hbegun⟩ := List.forall_mem_cons.mp h.begun
    obtain ⟨k, hcounts⟩ := ih ⟨hsorted, hbegun⟩
    by_cases hguest : r.guestID = g
    · exact ⟨_, hcounts.step hg hguest hbegin hle hsize⟩
    · exact ⟨k, hcounts.other (Ne.symm hguest)⟩

end GuestBandwidth

open GuestBandwidth

/-- After a response the throughput of its guest is what the guest has got in the current window,
as a 64-bit number, and that of the others is as before. -/
theorem guest_bandwidth {rs : List DmaResponse} {r : DmaResponse} (h : Received (r :: rs)) :
    (r.guestID.toNat < guestNum → (counted (r :: rs) r.guestID).2 =
      BitVec.ofNat 64 (bytesIn r.guestID (windowOf r.tick) (r :: rs))) ∧
    ∀ g ≠ r.guestID, (counted (r :: rs) g).2 = (counted rs g).2 := by
  obtain ⟨hle, hsorted⟩ := List.pairwise_cons.mp h.sorted
  obtain ⟨⟨hbegin, hsize⟩, hbegun⟩ := List.forall_mem_cons.mp h.begun
  refine ⟨fun hg => ?_, fun g hne => congrArg Prod.snd (update_of_ne hne)⟩
  obtain ⟨k, hcounts⟩ := Received.counts ⟨hsorted, hbegun⟩ hg
  exact congrArg Prod.snd (hcounts.step hg rfl hbegin hle hsize).now

/-- Two responses in the first window, the second one at its end. -/
theorem guest_bandwidth_window :
    (counted [⟨beginTime + timeWindow, 1, 64⟩, ⟨beginTime + 1, 1, 64⟩] 1).2 = 128 :=
  (guest_bandwidth ⟨by decide, by decide⟩).1 (by decide)

end PardG5V
