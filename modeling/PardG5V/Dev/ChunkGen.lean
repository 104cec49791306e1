import PardG5V.Basic
import PardG5V.Lib.Tiles

/-!
# Cutting a region into aligned chunks

`ChunkGenerator` of `base/chunk_generator.hh`: a region is cut at the multiples of the chunk size,
a power of two. Sizes are numbers below `2 ^ 32`, addresses wrap as they do in the source.
-/

namespace PardG5V

structure ChunkGen where
  curAddr : Addr
  nextAddr : Addr
  curSize : Nat
  sizeLeft : Nat
  startAddr : Addr
  chunkSize : Nat
deriving DecidableEq, Repr

/-- `roundUp(val, align)` of `base/intmath.hh`, whose `align` is an `int`: it is extended with its
sign, so that `2 ^ 31` is no longer a power of two. -/
def roundUp (val : Addr) (align : Nat) : Addr :=
  let mask := (BitVec.ofNat 32 align).signExtend 64 - 1
  (val + mask) &&& ~~~mask

namespace ChunkGen

/-- The start of the chunk after the first one. A chunk size of zero means no chunking. -/
def nextStart (startAddr : Addr) (totalSize chunkSize : Nat) : Addr :=
  if chunkSize = 0 then startAddr + BitVec.ofNat 64 totalSize
  else if startAddr = roundUp startAddr chunkSize then
    roundUp startAddr chunkSize + BitVec.ofNat 64 chunkSize
  else roundUp startAddr chunkSize

/-- The constructor, whose assertion holds for a chunk size of zero or a power of two. -/
def init (startAddr : Addr) (totalSize chunkSize : Nat) : ChunkGen :=
  let nextAddr := nextStart startAddr totalSize chunkSize
  let leftInChunk := ((nextAddr - startAddr).setWidth 32).toNat
  let curSize := min totalSize leftInChunk
  { curAddr := startAddr, nextAddr, curSize, sizeLeft := totalSize - curSize, startAddr, chunkSize }

def addr (g : ChunkGen) : Addr := g.curAddr

def size (g : ChunkGen) : Nat := g.curSize

def complete (g : ChunkGen) : Nat := ((g.curAddr - g.startAddr).setWidth 32).toNat

def done (g : ChunkGen) : Bool := g.curSize == 0

def next (g : ChunkGen) : ChunkGen :=
  if g.sizeLeft = 0 then { g with curSize := 0 }
  else
    let curSize := min g.sizeLeft g.chunkSize
    { g with
      curAddr := g.nextAddr
      curSize
      sizeLeft := g.sizeLeft - curSize
      nextAddr := g.nextAddr + BitVec.ofNat 64 curSize }

/-- A chunk, as the body of a loop sees it. -/
structure Chunk where
  addr : Addr
  size : Nat
  complete : Nat
deriving DecidableEq, Repr

def chunk (g : ChunkGen) : Chunk := ⟨g.addr, g.size, g.complete⟩

/-- The chunks of `for (; !gen.done(); gen.next())`, at most `fuel` of them. -/
def chunks : Nat → ChunkGen → List Chunk
  | 0, _ => []
  | fuel + 1, g => if g.done then [] else g.chunk :: chunks fuel g.next

def all (startAddr : Addr) (totalSize chunkSize : Nat) : List Chunk :=
  chunks totalSize (init startAddr totalSize chunkSize)

end ChunkGen

/-! ## The first chunk -/

namespace ChunkGenLemmas

theorem toNat_mask {k : Nat} (hk : k < 64) : (BitVec.ofNat 64 (2 ^ k) - 1).toNat = 2 ^ k - 1 := by
  have hlt : 2 ^ k < 2 ^ 64 := Nat.pow_lt_pow_right (by decide) hk
  have hpos : 1 ≤ 2 ^ k := Nat.one_le_two_pow
  have hval : (BitVec.ofNat 64 (2 ^ k)).toNat = 2 ^ k :=
    BitVec.toNat_ofNat _ _ ▸ Nat.mod_eq_of_lt hlt
  have hle : (1 : BitVec 64) ≤ BitVec.ofNat 64 (2 ^ k) := by
    rw [BitVec.le_def, hval]
    exact hpos
  rw [BitVec.toNat_sub_of_le hle, hval]
  rfl

theorem toNat_and_not_mask (x : Addr) {k : Nat} (hk : k < 64) :
    (x &&& ~~~(BitVec.ofNat 64 (2 ^ k) - 1)).toNat = x.toNat / 2 ^ k * 2 ^ k := by
  have heq : x &&& ~~~(BitVec.ofNat 64 (2 ^ k) - 1) = (x >>> k) <<< k := by
    apply BitVec.eq_of_getLsbD_eq
    intro i hi
    have hmask : (BitVec.ofNat 64 (2 ^ k) - 1).getLsbD i = decide (i < k) := by
      rw [BitVec.getLsbD, toNat_mask hk, Nat.testBit_two_pow_sub_one]
    rw [BitVec.getLsbD_and, BitVec.getLsbD_not, hmask, BitVec.getLsbD_shiftLeft,
      BitVec.getLsbD_ushiftRight, decide_eq_true hi]
    by_cases hik : i < k
    · simp [hik]
    · have hadd : k + (i - k) = i := by omega
      simp [hik, hadd]
  have hle : x.toNat / 2 ^ k * 2 ^ k ≤ x.toNat := Nat.div_mul_le_self _ _
  rw [heq, BitVec.toNat_shiftLeft, BitVec.toNat_ushiftRight, Nat.shiftLeft_eq,
    Nat.shiftRight_eq_div_pow]
  exact Nat.mod_eq_of_lt (Nat.lt_of_le_of_lt hle x.isLt)

theorem roundUp_nat (v : Nat) {c : Nat} (hc : 0 < c) :
    (v + (c - 1)) / c * c = v + (c - v % c) % c := by
  have hlt := Nat.mod_lt v hc
  obtain ⟨d, rfl⟩ : ∃ d, c = d + 1 := ⟨c - 1, (Nat.sub_add_cancel hc).symm⟩
  have hv := Nat.div_add_mod v (d + 1)
  rcases Nat.eq_zero_or_pos (v % (d + 1)) with hr | hr
  · have hquot : (v + d) / (d + 1) = v / (d + 1) := by
      rw [hr] at hv
      rw [← hv, Nat.add_assoc, Nat.mul_add_div hc, Nat.mul_add_div hc]
      rw [Nat.zero_add, Nat.div_eq_of_lt (Nat.lt_succ_self d), Nat.zero_div]
    rw [hr, Nat.sub_zero, Nat.mod_self, Nat.add_sub_cancel, hquot, Nat.mul_comm]
    rw [hr] at hv
    exact hv
  · have hquot : (v + d) / (d + 1) = v / (d + 1) + 1 := by
      have hone : (v % (d + 1) + d) / (d + 1) = 1 :=
        Nat.div_eq_of_lt_le (by omega) (by omega)
      conv_lhs => rw [← hv, Nat.add_assoc, Nat.mul_add_div hc, hone]
    have hmod : (d + 1 - v % (d + 1)) % (d + 1) = d + 1 - v % (d + 1) := Nat.mod_eq_of_lt (by omega)
    rw [hmod, Nat.add_sub_cancel, hquot, Nat.add_mul, Nat.mul_comm (v / (d + 1)), Nat.one_mul]
    omega

theorem signExtend_two_pow : ∀ k ≤ 30,
    (BitVec.ofNat 32 (2 ^ k)).signExtend 64 = BitVec.ofNat 64 (2 ^ k) := by
  decide

/-- Rounding up adds what is missing to the next multiple. -/
theorem roundUp_eq (x : Addr) {k : Nat} (hint : k ≤ 30) :
    roundUp x (2 ^ k) = x + BitVec.ofNat 64 ((2 ^ k - x.toNat % 2 ^ k) % 2 ^ k) := by
  have hk : k < 64 := Nat.lt_of_le_of_lt hint (by decide)
  have hword : 2 ^ 64 = 2 ^ k * 2 ^ (64 - k) := by
    rw [← Nat.pow_add, Nat.add_sub_cancel' (Nat.le_of_lt hk)]
  have hpos : 0 < 2 ^ k := Nat.two_pow_pos k
  have hsum := roundUp_nat x.toNat hpos
  apply BitVec.eq_of_toNat_eq
  unfold roundUp
  rw [signExtend_two_pow k hint, toNat_and_not_mask _ hk, BitVec.toNat_add, toNat_mask hk,
    BitVec.toNat_add,
    BitVec.toNat_ofNat, hword, Nat.mod_mul_right_div_self, Nat.add_mod_mod, ← hsum,
    Nat.mul_comm (2 ^ k) (2 ^ (64 - k)), Nat.mul_mod_mul_right]

theorem add_ofNat_sub (x : Addr) {i : Nat} (hi : i < 2 ^ 64) :
    (x + BitVec.ofNat 64 i - x).toNat = i := by
  rw [BitVec.add_comm, BitVec.add_sub_cancel, BitVec.toNat_ofNat, Nat.mod_eq_of_lt hi]

theorem nextStart_eq (x : Addr) (total : Nat) {k : Nat} (hk : k ≤ 30) :
    ChunkGen.nextStart x total (2 ^ k) = x + BitVec.ofNat 64 (2 ^ k - x.toNat % 2 ^ k) := by
  have hpos : 0 < 2 ^ k := Nat.two_pow_pos k
  have hlt : x.toNat % 2 ^ k < 2 ^ k := Nat.mod_lt _ hpos
  unfold ChunkGen.nextStart
  rw [if_neg (Nat.ne_of_gt hpos), roundUp_eq x hk]
  rcases Nat.eq_zero_or_pos (x.toNat % 2 ^ k) with hzero | hr
  · rw [hzero, Nat.sub_zero, Nat.mod_self, BitVec.add_zero, if_pos rfl]
  · have hsmall : 2 ^ k - x.toNat % 2 ^ k < 2 ^ 64 :=
      Nat.lt_of_le_of_lt (Nat.sub_le _ _)
        (Nat.pow_lt_pow_right (by decide) (Nat.lt_of_le_of_lt hk (by decide)))
    have hne : x ≠ x + BitVec.ofNat 64 (2 ^ k - x.toNat % 2 ^ k) := by
      intro heq
      have hsub := congrArg (fun y => (y - x).toNat) heq
      rw [BitVec.sub_self, add_ofNat_sub x hsmall] at hsub
      exact Nat.ne_of_lt (Nat.sub_pos_of_lt hlt) hsub
    rw [Nat.mod_eq_of_lt (Nat.sub_lt hpos hr), if_neg hne]

end ChunkGenLemmas

open ChunkGenLemmas

/-! ## The loop -/

namespace ChunkGen

structure Inv (total o : Nat) (g : ChunkGen) : Prop where
  small : total < 2 ^ 32
  offset : g.curAddr = g.startAddr + BitVec.ofNat 64 o
  sum : o + g.curSize + g.sizeLeft = total
  more : g.sizeLeft ≠ 0 → 0 < g.curSize ∧ 0 < g.chunkSize ∧
    g.nextAddr = g.curAddr + BitVec.ofNat 64 g.curSize

variable {g : ChunkGen} {start : Addr} {total o k : Nat}

theorem init_curSize (start : Addr) (total : Nat) (hk : k ≤ 30) :
    (init start total (2 ^ k)).curSize = min total (2 ^ k - start.toNat % 2 ^ k) := by
  have hpow : 2 ^ k < 2 ^ 32 :=
    Nat.lt_of_le_of_lt (Nat.pow_le_pow_right (by decide) hk) (by decide)
  have hleft : ((nextStart start total (2 ^ k) - start).setWidth 32).toNat =
      2 ^ k - start.toNat % 2 ^ k := by
    have hsmall : 2 ^ k - start.toNat % 2 ^ k < 2 ^ 32 := Nat.lt_of_le_of_lt (Nat.sub_le _ _) hpow
    rw [nextStart_eq start total hk, BitVec.toNat_setWidth,
      add_ofNat_sub start (Nat.lt_trans hsmall (by decide)), Nat.mod_eq_of_lt hsmall]
  exact congrArg (min total) hleft

theorem init_inv (start : Addr) (hk : k ≤ 30) (hsmall : total < 2 ^ 32) :
    (init start total (2 ^ k)).Inv total 0 := by
  have hsize := init_curSize start total hk
  have hpos : 0 < 2 ^ k := Nat.two_pow_pos k
  have hlt : start.toNat % 2 ^ k < 2 ^ k := Nat.mod_lt _ hpos
  have hleft : (init start total (2 ^ k)).sizeLeft =
      total - (init start total (2 ^ k)).curSize := rfl
  refine ⟨hsmall, (BitVec.add_zero start).symm, ?_, fun hne => ?_⟩
  · rw [hleft, Nat.zero_add, hsize]
    exact Nat.add_sub_cancel' (Nat.min_le_left _ _)
  · -- the region goes on after the first chunk, which then ends at a multiple of the chunk size
    rw [hleft, hsize] at hne
    have hmin : min total (2 ^ k - start.toNat % 2 ^ k) = 2 ^ k - start.toNat % 2 ^ k :=
      Nat.min_eq_right (by omega)
    rw [hsize, hmin]
    exact ⟨Nat.sub_pos_of_lt hlt, hpos, nextStart_eq start total hk⟩

theorem Inv.offset_lt (h : g.Inv total o) : o < 2 ^ 32 :=
  Nat.lt_of_le_of_lt (h.sum ▸ Nat.le_trans (Nat.le_add_right _ _) (Nat.le_add_right _ _)) h.small

theorem Inv.complete_eq (h : g.Inv total o) : g.complete = o := by
  unfold complete
  rw [h.offset, BitVec.toNat_setWidth, add_ofNat_sub _ (Nat.lt_trans h.offset_lt (by decide)),
    Nat.mod_eq_of_lt h.offset_lt]

theorem next_done (hleft : g.sizeLeft = 0) : g.next.done = true := by
  unfold next
  rw [if_pos hleft]
  rfl

theorem next_startAddr (g : ChunkGen) : g.next.startAddr = g.startAddr := by
  unfold next
  split
  · rfl
  · rfl

theorem Inv.next (h : g.Inv total o) (hleft : g.sizeLeft ≠ 0) :
    g.next.Inv total (o + g.curSize) := by
  obtain ⟨hcur, hchunk, hnext⟩ := h.more hleft
  have hsum := h.sum
  have hmin : min g.sizeLeft g.chunkSize ≤ g.sizeLeft := Nat.min_le_left _ _
  unfold ChunkGen.next
  rw [if_neg hleft]
  refine ⟨h.small, ?_, ?_, fun hne => ⟨?_, hchunk, rfl⟩⟩
  · rw [hnext, h.offset, BitVec.add_assoc, ← BitVec.ofNat_add]
  · rw [Nat.add_assoc, Nat.add_sub_cancel' hmin]
    exact hsum
  · exact Nat.lt_min.mpr ⟨Nat.pos_of_ne_zero hleft, hchunk⟩

theorem chunks_of_done {fuel : Nat} (h : g.done = true) : chunks fuel g = [] := by
  cases fuel with
  | zero => rfl
  | succ fuel => exact if_pos h

/-- The chunks of the loop tile the rest of the region. -/
theorem Inv.tiles (h : g.Inv total o) {fuel : Nat} (hfuel : total ≤ o + fuel) :
    Tiles total o ((chunks fuel g).map fun c => (c.complete, c.size)) ∧
      ∀ c ∈ chunks fuel g, c.addr = g.startAddr + BitVec.ofNat 64 c.complete := by
  have hsum := h.sum
  induction fuel generalizing g o with
  | zero =>
    have hstop : o = total := by omega
    exact ⟨hstop, fun c hc => (nomatch hc)⟩
  | succ fuel ih =>
    cases hdone : g.done with
    | true =>
      have hzero : g.curSize = 0 := beq_iff_eq.mp hdone
      have hleft : g.sizeLeft = 0 := by
        rcases Nat.eq_zero_or_pos g.sizeLeft with hleft | hleft
        · exact hleft
        · exact absurd hzero (Nat.ne_of_gt (h.more (Nat.ne_of_gt hleft)).1)
      rw [chunks_of_done hdone]
      exact ⟨by rw [hzero, hleft] at hsum; exact hsum, fun c hc => (nomatch hc)⟩
    | false =>
      have hpos : 0 < g.curSize := Nat.pos_of_ne_zero (beq_eq_false_iff_ne.mp hdone)
      have heq : chunks (fuel + 1) g = g.chunk :: chunks fuel g.next :=
        if_neg (by rw [hdone]; nofun)
      have hchunk : g.chunk.addr = g.startAddr + BitVec.ofNat 64 g.chunk.complete := by
        show g.curAddr = _ + BitVec.ofNat 64 g.complete
        rw [h.complete_eq]
        exact h.offset
      rw [heq]
      by_cases hleft : g.sizeLeft = 0
      · rw [chunks_of_done (next_done hleft)]
        refine ⟨⟨h.complete_eq, hpos, ?_⟩, fun c hc => ?_⟩
        · rw [hleft] at hsum
          exact hsum
        · cases List.mem_singleton.mp hc
          exact hchunk
      · have hnext := h.next hleft
        obtain ⟨htiles, haddr⟩ := ih hnext (by omega) hnext.sum
        rw [next_startAddr] at haddr
        refine ⟨⟨h.complete_eq, hpos, htiles⟩, fun c hc => ?_⟩
        rcases List.mem_cons.mp hc with rfl | hc
        · exact hchunk
        · exact haddr c hc

/-! ## Lines -/

/-- The current chunk lies within one line. If it is not the last one it ends with its line. -/
structure Lined (k : Nat) (g : ChunkGen) : Prop where
  chunkSize : g.chunkSize = 2 ^ k
  within : g.curAddr.toNat % 2 ^ k + g.curSize ≤ 2 ^ k
  aligned : g.sizeLeft ≠ 0 → g.nextAddr.toNat % 2 ^ k = 0

theorem toNat_add_mod (x : Addr) (n : Nat) (hk : k ≤ 64) :
    (x + BitVec.ofNat 64 n).toNat % 2 ^ k = (x.toNat + n) % 2 ^ k := by
  rw [BitVec.toNat_add, BitVec.toNat_ofNat, Nat.add_mod_mod,
    Nat.mod_mod_of_dvd _ (Nat.pow_dvd_pow 2 hk)]

theorem init_lined (start : Addr) (total : Nat) (hk : k ≤ 30) :
    (init start total (2 ^ k)).Lined k := by
  have hlt : start.toNat % 2 ^ k < 2 ^ k := Nat.mod_lt _ (Nat.two_pow_pos k)
  refine ⟨rfl, ?_, fun _ => ?_⟩
  · rw [init_curSize start total hk]
    show start.toNat % 2 ^ k + _ ≤ _
    omega
  · show (nextStart start total (2 ^ k)).toNat % 2 ^ k = 0
    rw [nextStart_eq start total hk,
      toNat_add_mod _ _ (Nat.le_trans hk (by decide)), ← Nat.mod_add_mod,
      Nat.add_sub_cancel' (Nat.le_of_lt hlt), Nat.mod_self]

theorem Lined.next (h : g.Lined k) (hk : k ≤ 30) : g.next.Lined k := by
  unfold ChunkGen.next
  split
  · exact ⟨h.chunkSize, Nat.le_of_lt (Nat.mod_lt _ (Nat.two_pow_pos k)), h.aligned⟩
  · next hleft =>
      have haligned := h.aligned hleft
      have hsize := h.chunkSize
      refine ⟨hsize, ?_, fun hmore => ?_⟩
      · rw [haligned, hsize, Nat.zero_add]
        exact Nat.min_le_right _ _
      · have hmore : g.sizeLeft - min g.sizeLeft g.chunkSize ≠ 0 := hmore
        have hfull : min g.sizeLeft g.chunkSize = 2 ^ k := by omega
        rw [hfull, toNat_add_mod _ _ (Nat.le_trans hk (by decide)), Nat.add_mod_right]
        exact haligned

theorem Lined.chunks (h : g.Lined k) (hk : k ≤ 30) (fuel : Nat) :
    ∀ c ∈ chunks fuel g, c.addr.toNat % 2 ^ k + c.size ≤ 2 ^ k := by
  induction fuel generalizing g with
  | zero => exact nofun
  | succ fuel ih =>
    intro c hc
    unfold ChunkGen.chunks at hc
    split at hc
    · cases hc
    · rcases List.mem_cons.mp hc with rfl | hc
      · exact h.within
      · exact ih (h.next hk) c hc

/-- The chunks of a region tile it. -/
theorem all_tiles (start : Addr) (hk : k ≤ 30) (hsmall : total < 2 ^ 32) :
    Tiles total 0 ((all start total (2 ^ k)).map fun c => (c.complete, c.size)) :=
  ((init_inv start hk hsmall).tiles (Nat.le_of_eq (Nat.zero_add _).symm)).1

end ChunkGen

end PardG5V
