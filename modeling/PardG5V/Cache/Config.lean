import Mathlib.Data.Nat.Bitwise
import PardG5V.AddrMapper.Tlb

/-!
# Cache parameters and the split of an address

The parameters of `PARDg5VCache`, `BasePARDg5VCache` and `PARDg5VLRU` that the cache reads, with
what the `LRU` constructor checks about them, and the address arithmetic of `LRU`: an address is a
tag, a set number and an offset.
-/

namespace PardG5V

/-- The parameters of one cache. The block size is `2 ^ setShift` and the number
of sets is `2 ^ setBits`; both are `unsigned` in the source. -/
structure CacheConfig where
  setShift : Nat
  setBits : Nat
  assoc : Nat
  hitLatency : Nat
  responseLatency : Nat
  clockPeriod : Nat
  mshrs : Nat
  writeBuffers : Nat
  numTarget : Nat
  forwardSnoops : Bool
  isTopLevel : Bool
  isPrivate : Bool
  guestID : GuestID
  addrRanges : List AddrRange
  maxMasters : Nat
  bypassCaches : Bool
  -- the checks of the `LRU` constructor
  blkSize_ge : 2 ≤ setShift
  assoc_pos : 0 < assoc
  hitLatency_pos : 0 < hitLatency
  -- the range of the `unsigned` fields
  setShift_lt : setShift < 32
  setBits_lt : setBits < 32

namespace CacheConfig

variable (cfg : CacheConfig)

def blkSize : Nat := 2 ^ cfg.setShift

def tagShift : Nat := cfg.setShift + cfg.setBits

def setMask : Addr := BitVec.ofNat 64 (2 ^ cfg.setBits - 1)

def blkMask : Addr := BitVec.ofNat 64 (cfg.blkSize - 1)

def extractTag (addr : Addr) : Addr := addr >>> cfg.tagShift

def extractSet (addr : Addr) : Nat := ((addr >>> cfg.setShift) &&& cfg.setMask).toNat

/-- `extractBlkOffset`, and `Packet::getOffset(blkSize)`. -/
def extractBlkOffset (addr : Addr) : Nat := (addr &&& cfg.blkMask).toNat

/-- `LRU::blkAlign` and `BaseCache::blockAlign`. -/
def blkAlign (addr : Addr) : Addr := addr &&& ~~~cfg.blkMask

def regenerateBlkAddr (tag : Addr) (set : Nat) : Addr :=
  (tag <<< cfg.tagShift) ||| (BitVec.ofNat 64 set <<< cfg.setShift)

/-- `clockEdge(cycles)`: the tick of the clock edge that many cycles after the
next one at or after `now`. -/
def clockEdge (now : Tick) (cycles : Nat) : Tick :=
  ((now + cfg.clockPeriod - 1) / cfg.clockPeriod + cycles) * cfg.clockPeriod

def ticksToCycles (ticks : Tick) : Nat := (ticks + cfg.clockPeriod - 1) / cfg.clockPeriod

namespace AddrLemmas

variable {cfg}

theorem getLsbD_lowMask {k : Nat} (hk : k < 32) (i : Nat) :
    (BitVec.ofNat 64 (2 ^ k - 1)).getLsbD i = decide (i < k) := by
  rw [BitVec.getLsbD_ofNat, Nat.testBit_two_pow_sub_one]
  by_cases hi : i < k
  · simp [hi, show i < 64 by omega]
  · simp [hi]

theorem ofNat_extractSet (a : Addr) :
    BitVec.ofNat 64 (cfg.extractSet a) = (a >>> cfg.setShift) &&& cfg.setMask := by
  unfold extractSet
  rw [BitVec.ofNat_toNat, BitVec.setWidth_eq]

theorem getLsbD_blkAlign (a : Addr) (i : Nat) :
    (cfg.blkAlign a).getLsbD i = (a.getLsbD i && decide (cfg.setShift ≤ i)) := by
  unfold blkAlign blkMask blkSize
  rw [BitVec.getLsbD_and, BitVec.getLsbD_not, getLsbD_lowMask cfg.setShift_lt]
  by_cases hi : i < 64
  · simp only [hi, decide_true, Bool.true_and, ← decide_not, Nat.not_lt]
  · rw [BitVec.getLsbD_of_ge a i (Nat.not_lt.mp hi)]
    simp

end AddrLemmas

open AddrLemmas

/-- The tag and the set of an address determine the address of its block. -/
theorem regenerateBlkAddr_extract (a : Addr) :
    cfg.regenerateBlkAddr (cfg.extractTag a) (cfg.extractSet a) = cfg.blkAlign a := by
  unfold regenerateBlkAddr
  rw [ofNat_extractSet]
  apply BitVec.eq_of_getLsbD_eq
  intro i hi
  rw [getLsbD_blkAlign]
  simp only [BitVec.getLsbD_or, BitVec.getLsbD_shiftLeft, BitVec.getLsbD_and, setMask,
    getLsbD_lowMask cfg.setBits_lt, extractTag, BitVec.getLsbD_ushiftRight, tagShift, hi,
    decide_true, Bool.true_and]
  by_cases h₁ : i < cfg.setShift
  · simp [h₁, show i < cfg.setShift + cfg.setBits by omega]
  · by_cases h₂ : i < cfg.setShift + cfg.setBits
    · simp [h₁, h₂, show cfg.setShift ≤ i by omega, show i - cfg.setShift < cfg.setBits by omega,
        show cfg.setShift + (i - cfg.setShift) = i by omega]
    · simp [h₁, h₂, show cfg.setShift ≤ i by omega,
        show ¬ i - cfg.setShift < cfg.setBits by omega,
        show cfg.setShift + cfg.setBits + (i - (cfg.setShift + cfg.setBits)) = i by omega]

theorem getLsbD_of_blkAlign_eq {a b : Addr} (h : cfg.blkAlign a = cfg.blkAlign b) {i : Nat}
    (hi : cfg.setShift ≤ i) : a.getLsbD i = b.getLsbD i := by
  have hbit := congrArg (BitVec.getLsbD · i) h
  simpa [getLsbD_blkAlign, hi] using hbit

/-- Two addresses have the same tag and set exactly when they lie in one block. -/
theorem extract_eq_iff (a b : Addr) :
    cfg.extractTag a = cfg.extractTag b ∧ cfg.extractSet a = cfg.extractSet b ↔
      cfg.blkAlign a = cfg.blkAlign b := by
  constructor
  · rintro ⟨htag, hset⟩
    rw [← cfg.regenerateBlkAddr_extract a, ← cfg.regenerateBlkAddr_extract b, htag, hset]
  · intro h
    refine ⟨?_, congrArg BitVec.toNat ?_⟩
    · apply BitVec.eq_of_getLsbD_eq
      intro i _
      simp only [extractTag, tagShift, BitVec.getLsbD_ushiftRight]
      exact getLsbD_of_blkAlign_eq cfg h (by omega)
    · apply BitVec.eq_of_getLsbD_eq
      intro i _
      simp only [BitVec.getLsbD_and, BitVec.getLsbD_ushiftRight]
      rw [getLsbD_of_blkAlign_eq cfg h (Nat.le_add_right cfg.setShift i)]

theorem blkAlign_blkAlign (a : Addr) : cfg.blkAlign (cfg.blkAlign a) = cfg.blkAlign a := by
  unfold blkAlign
  rw [BitVec.and_assoc, BitVec.and_self]

end CacheConfig

end PardG5V
