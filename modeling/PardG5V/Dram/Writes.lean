import PardG5V.Lib.Span
import PardG5V.Dram.Queues

/-!
# The write queue

A write is split at the borders of the bursts. A piece that touches an entry of the write queue is
merged into it if both together are no longer than a burst, and the entry is not decoded again.
At the border of two bursts the entry then lies in both, and its bank and row are those of one.
A ledger, which is not part of the controller, records which pieces went into each entry.

Results: `write_queue_well_formed`, `write_merge_across_bursts`.
-/

namespace PardG5V

open Prog FrontLemmas QueueLemmas

variable {cfg : DramConfig}

/-! ## Entries and pieces -/

def DRAMPacket.span (w : DRAMPacket cfg) : Span := ⟨w.addr.toNat, w.size⟩

def Packet.span (pkt : Packet) : Span := ⟨pkt.addr.toNat, pkt.size⟩

/-- The burst of a request at `addr`. -/
def pieceAt (cfg : DramConfig) (pkt : Packet) (addr : Addr) : Span :=
  ⟨addr.toNat, burstLen cfg pkt addr⟩

/-- The bursts of a request from `addr` on. -/
def piecesFrom (cfg : DramConfig) (pkt : Packet) : Nat → Addr → List Span
  | 0, _ => []
  | cnt + 1, addr => pieceAt cfg pkt addr :: piecesFrom cfg pkt cnt (nextBurst cfg addr)

/-- The bursts that a request is split into. -/
def pieces (cfg : DramConfig) (pkt : Packet) : List Span :=
  piecesFrom cfg pkt (dramPktCount cfg pkt) pkt.addr

/-- The request does not reach into the last burst of the address space, and the number of
its bursts can be computed with 32 bits. -/
@[mk_iff] structure Packet.Fits (cfg : DramConfig) (pkt : Packet) : Prop where
  below : pkt.span.stop + cfg.burstSize ≤ 2 ^ 64
  count : pkt.addr.toNat % cfg.burstSize + pkt.size + cfg.burstSize ≤ 2 ^ 32

/-- The size of a burst is a power of two, and a 32-bit number. -/
def DramConfig.TwoPowerBursts (cfg : DramConfig) : Prop := ∃ k < 32, cfg.burstSize = 2 ^ k

instance (pkt : Packet) : Decidable (pkt.Fits cfg) :=
  decidable_of_iff _ (Packet.fits_iff cfg pkt).symm

/-! ## The split -/

namespace WriteLemmas

theorem or_two_pow_sub_one (n k : Nat) : n ||| (2 ^ k - 1) = 2 ^ k * (n / 2 ^ k) + (2 ^ k - 1) := by
  refine Nat.eq_of_testBit_eq fun i => ?_
  have hlt : 2 ^ k - 1 < 2 ^ k := Nat.sub_lt (Nat.two_pow_pos k) Nat.one_pos
  rw [Nat.testBit_or, Nat.testBit_two_pow_mul_add _ hlt, Nat.testBit_two_pow_sub_one]
  by_cases hi : i < k
  · simp [hi]
  · rw [if_neg hi, Nat.testBit_div_two_pow, Nat.sub_add_cancel (Nat.not_lt.mp hi)]
    simp [hi]

def border (cfg : DramConfig) (addr : Addr) : Nat :=
  cfg.burstSize * (addr.toNat / cfg.burstSize + 1)

theorem border_le (cfg : DramConfig) (addr : Addr) :
    border cfg addr ≤ addr.toNat + cfg.burstSize := by
  rw [border, Nat.mul_succ]
  exact Nat.add_le_add_right (Nat.mul_div_le _ _) _

section Split

variable (hburst : cfg.TwoPowerBursts) {addr : Addr}

include hburst

theorem burstSize_lt : cfg.burstSize < 2 ^ 32 := by
  obtain ⟨k, hk, hburst⟩ := hburst
  exact hburst ▸ Nat.pow_lt_pow_right (by decide) hk

theorem burstSize_pos : 0 < cfg.burstSize := by
  obtain ⟨k, -, hburst⟩ := hburst
  exact hburst ▸ Nat.two_pow_pos k

theorem lt_border (addr : Addr) : addr.toNat < border cfg addr :=
  Nat.lt_mul_div_succ _ (burstSize_pos hburst)

theorem nextBurst_toNat (hbelow : border cfg addr < 2 ^ 64) :
    (nextBurst cfg addr).toNat = border cfg addr := by
  obtain ⟨k, hk, hburst⟩ := hburst
  have hlt : 2 ^ k - 1 < 2 ^ 64 :=
    Nat.lt_of_le_of_lt (Nat.sub_le _ _) (Nat.pow_lt_pow_right (by decide) (by omega))
  unfold border at hbelow ⊢
  rw [hburst] at hbelow ⊢
  unfold nextBurst
  rw [BitVec.toNat_add, BitVec.toNat_or, hburst, BitVec.toNat_ofNat, Nat.mod_eq_of_lt hlt,
    or_two_pow_sub_one]
  show (2 ^ k * (addr.toNat / 2 ^ k) + (2 ^ k - 1) + 1) % 2 ^ 64 = _
  rw [Nat.add_assoc, Nat.sub_add_cancel (Nat.two_pow_pos k), ← Nat.mul_succ,
    Nat.mod_eq_of_lt hbelow]

variable {pkt : Packet} (hfits : pkt.Fits cfg)

include hfits

omit hburst in
theorem border_lt (hlt : addr.toNat < pkt.span.stop) : border cfg addr < 2 ^ 64 := by
  have hbelow := hfits.below
  have hle := border_le cfg addr
  omega

theorem burstLen_eq (hlt : addr.toNat < pkt.span.stop) :
    burstLen cfg pkt addr = min (border cfg addr) pkt.span.stop - addr.toNat := by
  have hnext := nextBurst_toNat hburst (border_lt hfits hlt)
  have hlast : (pkt.addr + BitVec.ofNat 64 pkt.size).toNat = pkt.span.stop := by
    have hbelow : pkt.addr.toNat + pkt.size + cfg.burstSize ≤ 2 ^ 64 := hfits.below
    rw [BitVec.toNat_add, BitVec.toNat_ofNat, Nat.add_mod_mod]
    have hpos : 0 < cfg.burstSize := burstSize_pos hburst
    exact Nat.mod_eq_of_lt (by omega)
  have hafter := lt_border hburst addr
  have hsize : min (border cfg addr) pkt.span.stop - addr.toNat < 2 ^ 32 := by
    have hlt := burstSize_lt hburst
    have hborder := border_le cfg addr
    omega
  unfold burstLen
  dsimp only
  split
  · next hle =>
      rw [BitVec.le_def, hnext, hlast] at hle
      rw [BitVec.toNat_sub_of_le (BitVec.le_def.mpr (hnext ▸ Nat.le_of_lt hafter)), hnext]
      rw [Nat.min_eq_left hle] at hsize ⊢
      exact Nat.mod_eq_of_lt hsize
  · next hgt =>
      rw [BitVec.le_def, hnext, hlast] at hgt
      rw [BitVec.toNat_sub_of_le (BitVec.le_def.mpr (hlast ▸ Nat.le_of_lt hlt)), hlast]
      rw [Nat.min_eq_right (Nat.le_of_not_le hgt)] at hsize ⊢
      exact Nat.mod_eq_of_lt hsize

/-- A burst of the request lies in one burst and ends with it or with the request. -/
theorem pieceAt_stop (hlt : addr.toNat < pkt.span.stop) :
    (pieceAt cfg pkt addr).stop = min (border cfg addr) pkt.span.stop := by
  show addr.toNat + burstLen cfg pkt addr = _
  rw [burstLen_eq hburst hfits hlt]
  exact Nat.add_sub_cancel' (Nat.le_of_lt (Nat.lt_min.mpr ⟨lt_border hburst addr, hlt⟩))

theorem pieceAt_inBlock (hlt : addr.toNat < pkt.span.stop) :
    (pieceAt cfg pkt addr).InBlock cfg.burstSize := by
  refine Span.inBlock_iff.mpr ⟨?_, ?_⟩
  · show 0 < burstLen cfg pkt addr
    rw [burstLen_eq hburst hfits hlt]
    exact Nat.sub_pos_of_lt (Nat.lt_min.mpr ⟨lt_border hburst addr, hlt⟩)
  · rw [pieceAt_stop hburst hfits hlt]
    exact Nat.min_le_left _ _

/-- The bursts from `addr` on lie in one burst each and cover the request from there on. -/
theorem piecesFrom_spec {cnt : Nat} (hlt : cnt ≠ 0 → addr.toNat < pkt.span.stop)
    (hcount : addr.toNat / cfg.burstSize + cnt = (pkt.span.stop - 1) / cfg.burstSize + 1) :
    (∀ p ∈ piecesFrom cfg pkt cnt addr, p.InBlock cfg.burstSize ∧ p.stop ≤ pkt.span.stop) ∧
      Span.cover (piecesFrom cfg pkt cnt addr) = Set.Ico addr.toNat pkt.span.stop := by
  have hpos : 0 < cfg.burstSize := burstSize_pos hburst
  induction cnt generalizing addr with
  | zero =>
    -- the last burst of the request was the one before `addr`
    have hover : pkt.span.stop ≤ addr.toNat := by
      have hlast : pkt.span.stop - 1 < cfg.burstSize * ((pkt.span.stop - 1) / cfg.burstSize + 1) :=
        Nat.lt_mul_div_succ _ hpos
      have hle : cfg.burstSize * (addr.toNat / cfg.burstSize) ≤ addr.toNat := Nat.mul_div_le _ _
      rw [← hcount, Nat.add_zero] at hlast
      omega
    refine ⟨fun p hp => (List.not_mem_nil hp).elim, ?_⟩
    rw [Set.Ico_eq_empty_of_le hover]
    exact Span.cover_nil
  | succ cnt ih =>
    have hlt := hlt (Nat.succ_ne_zero cnt)
    have hstop := pieceAt_stop hburst hfits hlt
    have hnext := nextBurst_toNat hburst (border_lt hfits hlt)
    have hblock : (nextBurst cfg addr).toNat / cfg.burstSize = addr.toNat / cfg.burstSize + 1 := by
      rw [hnext, border, Nat.mul_div_cancel_left _ hpos]
    have hrest : cnt ≠ 0 → (nextBurst cfg addr).toNat < pkt.span.stop := by
      intro hcnt
      have hle : addr.toNat / cfg.burstSize + 1 ≤ (pkt.span.stop - 1) / cfg.burstSize := by omega
      have hlast : cfg.burstSize * ((pkt.span.stop - 1) / cfg.burstSize) ≤ pkt.span.stop - 1 :=
        Nat.mul_div_le _ _
      have hborder : border cfg addr ≤ _ := Nat.mul_le_mul_left cfg.burstSize hle
      rw [hnext]
      omega
    have hrestCount : (nextBurst cfg addr).toNat / cfg.burstSize + cnt =
        (pkt.span.stop - 1) / cfg.burstSize + 1 := by
      rw [hblock, ← hcount]
      omega
    obtain ⟨hall, hcover⟩ := ih hrest hrestCount
    refine ⟨List.forall_mem_cons.mpr ⟨⟨pieceAt_inBlock hburst hfits hlt, ?_⟩, hall⟩, ?_⟩
    · rw [hstop]
      exact Nat.min_le_right _ _
    · show Span.cover (pieceAt cfg pkt addr :: piecesFrom cfg pkt cnt (nextBurst cfg addr)) = _
      rw [Span.cover_cons, hcover, hnext]
      have hfirst : (pieceAt cfg pkt addr).toSet =
          Set.Ico addr.toNat (min (border cfg addr) pkt.span.stop) := by
        rw [← hstop]
        rfl
      rw [hfirst]
      rcases Nat.le_total (border cfg addr) pkt.span.stop with hle | hle
      · rw [Nat.min_eq_left hle]
        exact Set.Ico_union_Ico_eq_Ico (Nat.le_of_lt (lt_border hburst addr)) hle
      · rw [Nat.min_eq_right hle, Set.Ico_eq_empty_of_le hle, Set.union_empty]

theorem dramPktCount_eq : dramPktCount cfg pkt =
    (pkt.addr.toNat % cfg.burstSize + pkt.size + cfg.burstSize - 1) / cfg.burstSize := by
  have hcount := hfits.count
  obtain ⟨k, hk, hburst⟩ := hburst
  have hlt : 2 ^ k - 1 < 2 ^ 64 :=
    Nat.lt_of_le_of_lt (Nat.sub_le _ _) (Nat.pow_lt_pow_right (by decide) (by omega))
  have hpos : 0 < 2 ^ k := Nat.two_pow_pos k
  unfold dramPktCount
  rw [hburst] at hcount ⊢
  dsimp only
  rw [BitVec.toNat_and, BitVec.toNat_ofNat, Nat.mod_eq_of_lt hlt, Nat.and_two_pow_sub_one_eq_mod,
    Nat.mod_eq_of_lt (by omega), Nat.mod_eq_of_lt (by omega)]

theorem pieces_spec (hsize : pkt.size ≠ 0) :
    (∀ p ∈ pieces cfg pkt, p.InBlock cfg.burstSize ∧ p.stop ≤ pkt.span.stop) ∧
      Span.cover (pieces cfg pkt) = pkt.span.toSet := by
  have hpos : 0 < cfg.burstSize := burstSize_pos hburst
  refine piecesFrom_spec hburst hfits (fun _ => ?_) ?_
  · exact Nat.lt_add_of_pos_right (Nat.pos_of_ne_zero hsize)
  · have hsplit : cfg.burstSize * (pkt.addr.toNat / cfg.burstSize) +
        (pkt.addr.toNat % cfg.burstSize + pkt.size + cfg.burstSize - 1) =
        pkt.span.stop - 1 + cfg.burstSize := by
      have hmod := Nat.div_add_mod pkt.addr.toNat cfg.burstSize
      show _ = pkt.addr.toNat + pkt.size - 1 + cfg.burstSize
      omega
    rw [dramPktCount_eq hburst hfits, ← Nat.mul_add_div hpos, hsplit, Nat.add_div_right _ hpos]

end Split

/-! ## Merges -/

theorem endAddr_toNat {addr : Addr} {size : Nat} (h : addr.toNat + size < 2 ^ 64) :
    (endAddr addr size).toNat = addr.toNat + size := by
  unfold endAddr
  rw [BitVec.toNat_add, BitVec.toNat_ofNat, Nat.add_mod_mod, Nat.mod_eq_of_lt h]

/-- A merge makes the hull of the entry and the piece, which touch. -/
theorem mergeInto_span (hburst : cfg.TwoPowerBursts) {addr : Addr} {size : Nat}
    {w w' : DRAMPacket cfg} (hw : w.span.stop < 2 ^ 64) (hwlen : w.size ≤ cfg.burstSize)
    (hp : addr.toNat + size < 2 ^ 64) (hplen : size ≤ cfg.burstSize)
    (h : mergeInto cfg addr size w = some w') :
    w.span.Touches ⟨addr.toNat, size⟩ ∧ w'.span = w.span.hull ⟨addr.toNat, size⟩ ∧
      w'.size ≤ cfg.burstSize := by
  have hlt := burstSize_lt hburst
  have hwend : (endAddr w.addr w.size).toNat = w.span.stop := endAddr_toNat hw
  have hpend : (endAddr addr size).toNat = addr.toNat + size := endAddr_toNat hp
  have hlen {x y : Addr} (hxy : x ≤ y) (hle : (y - x).toNat ≤ cfg.burstSize) :
      (y - x).toNat % 2 ^ 32 = y.toNat - x.toNat ∧ y.toNat - x.toNat ≤ cfg.burstSize := by
    rw [Nat.mod_eq_of_lt (Nat.lt_of_le_of_lt hle hlt)]
    rw [BitVec.toNat_sub_of_le hxy] at hle ⊢
    exact ⟨rfl, hle⟩
  unfold mergeInto at h
  dsimp only at h
  split at h
  · next hstart =>
      have hstart : addr.toNat ≤ w.span.start := BitVec.le_def.mp hstart
      split at h
      · -- the piece covers the entry
        next hstop =>
          rw [BitVec.le_def, hwend, hpend] at hstop
          obtain rfl := Option.some.inj h
          refine ⟨⟨?_, ?_⟩, ?_, hplen⟩
          · exact Nat.le_trans (Nat.le_add_right _ _) hstop
          · exact Nat.le_trans hstart (Nat.le_add_right _ _)
          · rw [Span.hull_comm, Span.hull_eq_left hstart hstop]
            rfl
      · next hstop =>
          rw [BitVec.le_def, hwend, hpend, Nat.not_le] at hstop
          split at h
          · -- the piece comes before the entry
            next htouch =>
              obtain ⟨htouch, hle⟩ := htouch
              rw [BitVec.le_def, hpend] at htouch
              have haddr : addr ≤ endAddr w.addr w.size :=
                BitVec.le_def.mpr (hwend ▸ Nat.le_trans hstart (Nat.le_add_right _ _))
              obtain ⟨hsize, hle⟩ := hlen haddr hle
              rw [hwend] at hsize hle
              obtain rfl := Option.some.inj h
              refine ⟨⟨htouch, Nat.le_trans hstart (Nat.le_add_right _ _)⟩, ?_, ?_⟩
              · rw [Span.hull_comm, Span.hull_eq_of_le (r := ⟨addr.toNat, size⟩) hstart
                  (Nat.le_of_lt hstop)]
                exact congrArg (Span.mk addr.toNat) hsize
              · exact hsize ▸ hle
          · cases h
  · next hstart =>
      rw [BitVec.le_def, Nat.not_le] at hstart
      have hstart : w.span.start ≤ addr.toNat := Nat.le_of_lt hstart
      split at h
      · -- the entry covers the piece
        next hstop =>
          rw [BitVec.le_def, hwend, hpend] at hstop
          obtain rfl := Option.some.inj h
          have hhull := Span.hull_eq_left (t := ⟨addr.toNat, size⟩) hstart hstop
          refine ⟨⟨?_, ?_⟩, hhull.symm, hwlen⟩
          · exact Nat.le_trans hstart (Nat.le_add_right _ _)
          · exact Nat.le_trans (Nat.le_add_right _ _) hstop
      · next hstop =>
          rw [BitVec.le_def, hwend, hpend, Nat.not_le] at hstop
          split at h
          · -- the piece comes after the entry
            next htouch =>
              obtain ⟨htouch, hle⟩ := htouch
              rw [BitVec.le_def, hwend] at htouch
              have haddr : w.addr ≤ endAddr addr size :=
                BitVec.le_def.mpr (hpend ▸ Nat.le_trans hstart (Nat.le_add_right _ _))
              obtain ⟨hsize, hle⟩ := hlen haddr hle
              rw [hpend] at hsize hle
              obtain rfl := Option.some.inj h
              refine ⟨⟨Nat.le_trans hstart (Nat.le_add_right _ _), htouch⟩, ?_, ?_⟩
              · rw [Span.hull_eq_of_le hstart (Nat.le_of_lt hstop)]
                exact congrArg (Span.mk w.addr.toNat) hsize
              · exact hsize ▸ hle
          · cases h

end WriteLemmas

open WriteLemmas

/-! ## The ledger -/

/-- An entry of the write queue with the pieces that went into it. -/
structure WriteJob (cfg : DramConfig) where
  entry : DRAMPacket cfg
  pieces : List Span

namespace WriteJob

/-- The entry lies in one burst, its bank and its row are those of its address, and it
covers its pieces. -/
structure WellFormed (j : WriteJob cfg) : Prop where
  inBlock : j.entry.span.InBlock cfg.burstSize
  inPlace : j.entry.InPlace
  below : j.entry.span.stop + cfg.burstSize ≤ 2 ^ 64
  covers : j.entry.span.toSet = Span.cover j.pieces

variable {params : ParamTable} {pkt : Packet} {addr : Addr}

theorem span_of_decoded {p : DRAMPacket cfg}
    (hdecode : Decoded params pkt addr (burstLen cfg pkt addr) false p) :
    p.span = pieceAt cfg pkt addr := by
  unfold DRAMPacket.span pieceAt
  rw [hdecode.addr, hdecode.size]

theorem WellFormed.add {p : DRAMPacket cfg}
    (hdecode : Decoded params pkt addr (burstLen cfg pkt addr) false p)
    (hpiece : (pieceAt cfg pkt addr).InBlock cfg.burstSize)
    (hbelow : (pieceAt cfg pkt addr).stop + cfg.burstSize ≤ 2 ^ 64) :
    WellFormed ⟨p, [pieceAt cfg pkt addr]⟩ := by
  have hspan : p.span = pieceAt cfg pkt addr := span_of_decoded hdecode
  refine ⟨hspan ▸ hpiece, hdecode.inPlace, hspan ▸ hbelow, ?_⟩
  rw [Span.cover_cons, Span.cover_nil, Set.union_empty, hspan]

/-- A merge that does not straddle a border stays in the burst of the entry. -/
theorem WellFormed.merge (hburst : cfg.TwoPowerBursts) {j : WriteJob cfg} {w : DRAMPacket cfg}
    (hj : j.WellFormed) (hpiece : (pieceAt cfg pkt addr).InBlock cfg.burstSize)
    (hbelow : (pieceAt cfg pkt addr).stop + cfg.burstSize ≤ 2 ^ 64)
    (hapart : ¬ j.entry.span.Straddles cfg.burstSize (pieceAt cfg pkt addr))
    (hmerge : mergeInto cfg addr (burstLen cfg pkt addr) j.entry = some w) :
    j.entry.span.start / cfg.burstSize = (pieceAt cfg pkt addr).start / cfg.burstSize ∧
      w.span = j.entry.span.hull (pieceAt cfg pkt addr) ∧
      WellFormed ⟨w, pieceAt cfg pkt addr :: j.pieces⟩ := by
  have hpos := burstSize_pos hburst
  have hlen {r : Span} (hr : r.InBlock cfg.burstSize) : r.len ≤ cfg.burstSize :=
    Nat.le_trans (Nat.le_add_left _ _) hr.fits
  have hlt {n : Nat} (hn : n + cfg.burstSize ≤ 2 ^ 64) : n < 2 ^ 64 := by omega
  obtain ⟨htouch, hspan, hsize⟩ := mergeInto_span hburst (hlt hj.below) (hlen hj.inBlock)
    (hlt hbelow) (hlen hpiece) hmerge
  replace htouch : j.entry.span.Touches (pieceAt cfg pkt addr) := htouch
  replace hspan : w.span = j.entry.span.hull (pieceAt cfg pkt addr) := hspan
  have hblock : j.entry.span.start / cfg.burstSize =
      (pieceAt cfg pkt addr).start / cfg.burstSize :=
    Span.block_eq hj.inBlock hpiece htouch (hspan ▸ hsize) hapart
  have haddr : w.addr.toNat / cfg.burstSize = j.entry.addr.toNat / cfg.burstSize := by
    have hstart := Span.block_hull hblock
    rw [← hspan] at hstart
    exact hstart
  refine ⟨hblock, hspan, hspan ▸ hj.inBlock.hull hpiece hblock, ?_, ?_, ?_⟩
  · obtain ⟨addr', size', rfl⟩ := mergeInto_eq hmerge
    exact ⟨haddr ▸ hj.inPlace.bank, haddr ▸ hj.inPlace.rank, haddr ▸ hj.inPlace.row⟩
  · rw [hspan, Span.stop_hull]
    rcases Nat.le_total j.entry.span.stop (pieceAt cfg pkt addr).stop with hle | hle
    · rwa [Nat.max_eq_right hle]
    · rw [Nat.max_eq_left hle]
      exact hj.below
  · rw [hspan, Span.toSet_hull htouch, Span.cover_cons, hj.covers, Set.union_comm]

end WriteJob

structure WriteLedger (queue : List (DRAMPacket cfg)) (jobs : List (WriteJob cfg)) : Prop where
  entries : (jobs.map WriteJob.entry).Perm queue
  wellFormed : ∀ j ∈ jobs, j.WellFormed

/-- The pieces lie in one burst each, and none of them straddles a border with another one
or with an entry. -/
structure PiecesApart (cfg : DramConfig) (entries pieces : List Span) : Prop where
  inBlock : ∀ p ∈ pieces, p.InBlock cfg.burstSize ∧ p.stop + cfg.burstSize ≤ 2 ^ 64
  entries : ∀ p ∈ pieces, ∀ w ∈ entries, ¬ w.Straddles cfg.burstSize p
  pieces : pieces.Pairwise fun p p' => ¬ p.Straddles cfg.burstSize p'

namespace WriteLedger

variable {params : ParamTable} {pkt : Packet} {cnt : Nat} {addr : Addr} {rest : List Span}
  {jobs : List (WriteJob cfg)} {queue queue' : List (DRAMPacket cfg)}

/-- One more piece is merged with an entry. -/
theorem merge (hburst : cfg.TwoPowerBursts) (h : WriteLedger queue jobs)
    (hapart : PiecesApart cfg (jobs.map (·.entry.span)) (pieceAt cfg pkt addr :: rest))
    (hmerge : mergeWrite cfg addr (burstLen cfg pkt addr) queue = some queue') :
    ∃ jobs' : List (WriteJob cfg), WriteLedger queue' jobs' ∧
      PiecesApart cfg (jobs'.map (·.entry.span)) rest ∧
      (jobs'.flatMap WriteJob.pieces).Perm
        (pieceAt cfg pkt addr :: jobs.flatMap WriteJob.pieces) := by
  obtain ⟨before, w, w', after, rfl, rfl, hw, -⟩ := mergeWrite_eq hmerge
  obtain ⟨j, hj, rfl⟩ := List.mem_map.mp
    (h.entries.mem_iff.mpr (by simp : w ∈ before ++ w :: after))
  obtain ⟨others, hperm⟩ := exists_perm_cons hj
  obtain ⟨hpiece, hrest⟩ := List.forall_mem_cons.mp hapart.inBlock
  obtain ⟨hfirst, hentries⟩ := List.forall_mem_cons.mp hapart.entries
  obtain ⟨hself, hpieces⟩ := List.pairwise_cons.mp hapart.pieces
  have hmem {k : WriteJob cfg} (hk : k ∈ jobs) : k.entry.span ∈ jobs.map (·.entry.span) :=
    List.mem_map.mpr ⟨k, hk, rfl⟩
  have hold {k : WriteJob cfg} (hk : k ∈ others) : k ∈ jobs :=
    hperm.mem_iff.mpr (List.mem_cons_of_mem _ hk)
  obtain ⟨hblock, hspan, hjob⟩ :=
    (h.wellFormed j hj).merge hburst hpiece.1 hpiece.2 (hfirst _ (hmem hj)) hw
  refine ⟨⟨w', pieceAt cfg pkt addr :: j.pieces⟩ :: others, ⟨?_, ?_⟩, ⟨hrest, ?_, hpieces⟩, ?_⟩
  · have hothers : (others.map WriteJob.entry).Perm (before ++ after) :=
      (((hperm.map WriteJob.entry).symm.trans h.entries).trans List.perm_middle).cons_inv
    exact (hothers.cons w').trans List.perm_middle.symm
  · exact List.forall_mem_cons.mpr ⟨hjob, fun k hk => h.wellFormed k (hold hk)⟩
  · intro p hp
    refine List.forall_mem_cons.mpr ⟨fun hstraddles => ?_, fun r hr => ?_⟩
    · -- the entry was at the border before, or the piece is
      replace hstraddles : w'.span.Straddles cfg.burstSize p := hstraddles
      rw [hspan] at hstraddles
      rcases Span.straddles_hull hblock hstraddles with hentry | hnew
      · exact hentries p hp _ (hmem hj) hentry
      · exact hself p hp hnew
    · obtain ⟨k, hk, rfl⟩ := List.mem_map.mp hr
      exact hentries p hp _ (hmem (hold hk))
  · rw [List.flatMap_cons, List.cons_append]
    exact ((hperm.flatMap_right WriteJob.pieces).symm).cons _

theorem add {p : DRAMPacket cfg} (h : WriteLedger queue jobs)
    (hapart : PiecesApart cfg (jobs.map (·.entry.span)) (pieceAt cfg pkt addr :: rest))
    (hdecode : Decoded params pkt addr (burstLen cfg pkt addr) false p) :
    ∃ jobs' : List (WriteJob cfg), WriteLedger (queue ++ [p]) jobs' ∧
      PiecesApart cfg (jobs'.map (·.entry.span)) rest ∧
      (jobs'.flatMap WriteJob.pieces).Perm
        (pieceAt cfg pkt addr :: jobs.flatMap WriteJob.pieces) := by
  obtain ⟨hpiece, hrest⟩ := List.forall_mem_cons.mp hapart.inBlock
  obtain ⟨hself, hpieces⟩ := List.pairwise_cons.mp hapart.pieces
  have hspan : p.span = pieceAt cfg pkt addr := WriteJob.span_of_decoded hdecode
  refine ⟨⟨p, [pieceAt cfg pkt addr]⟩ :: jobs, ⟨?_, ?_⟩, ⟨hrest, fun p' hp' => ?_, hpieces⟩,
    .refl _⟩
  · exact (h.entries.cons p).trans (List.perm_append_singleton p queue).symm
  · exact List.forall_mem_cons.mpr ⟨.add hdecode hpiece.1 hpiece.2, h.wellFormed⟩
  · exact List.forall_mem_cons.mpr ⟨hspan ▸ hself p' hp',
      hapart.entries p' (List.mem_cons_of_mem _ hp')⟩

theorem adds (hburst : cfg.TwoPowerBursts) (h : WriteLedger queue jobs)
    (hapart : PiecesApart cfg (jobs.map (·.entry.span)) (piecesFrom cfg pkt cnt addr))
    (hadds : DramQueues.AddsWrites params pkt cnt addr queue queue') :
    ∃ jobs' : List (WriteJob cfg), WriteLedger queue' jobs' ∧
      (jobs'.flatMap WriteJob.pieces).Perm
        (piecesFrom cfg pkt cnt addr ++ jobs.flatMap WriteJob.pieces) := by
  induction hadds generalizing jobs with
  | done => exact ⟨jobs, h, .refl _⟩
  | merge hmerge _ ih =>
    obtain ⟨jobs₁, h₁, hapart₁, hfirst⟩ := h.merge hburst hapart hmerge
    obtain ⟨jobs', h', hrest⟩ := ih h₁ hapart₁
    exact ⟨jobs', h', hrest.trans ((hfirst.append_left _).trans List.perm_middle)⟩
  | add _ hdecode _ _ ih =>
    obtain ⟨jobs₁, h₁, hapart₁, hfirst⟩ := h.add hapart hdecode
    obtain ⟨jobs', h', hrest⟩ := ih h₁ hapart₁
    exact ⟨jobs', h', hrest.trans ((hfirst.append_left _).trans List.perm_middle)⟩

/-- The entries cover the pieces that went into them. -/
theorem cover_eq (h : WriteLedger queue jobs) :
    Span.cover (queue.map DRAMPacket.span) = Span.cover (jobs.flatMap WriteJob.pieces) := by
  ext x
  constructor
  · rintro ⟨r, hr, hx⟩
    obtain ⟨w, hw, rfl⟩ := List.mem_map.mp hr
    obtain ⟨j, hj, rfl⟩ := List.mem_map.mp (h.entries.mem_iff.mpr hw)
    rw [(h.wellFormed j hj).covers] at hx
    obtain ⟨p, hp, hx⟩ := hx
    exact ⟨p, List.mem_flatMap.mpr ⟨j, hj, hp⟩, hx⟩
  · rintro ⟨p, hp, hx⟩
    obtain ⟨j, hj, hp⟩ := List.mem_flatMap.mp hp
    have hx : x ∈ j.entry.span.toSet := (h.wellFormed j hj).covers ▸ ⟨p, hp, hx⟩
    have hw : j.entry ∈ queue := h.entries.mem_iff.mp (List.mem_map.mpr ⟨j, hj, rfl⟩)
    exact ⟨_, List.mem_map.mpr ⟨j.entry, hw, rfl⟩, hx⟩

end WriteLedger

/-! ## Inputs -/

namespace DramQueues

variable {q q' : DramQueues cfg} {input : DramInput} {taken : List Packet}
  {new : List (DRAMPacket cfg)} {jobs : List (WriteJob cfg)}

/-- What the input issues from the write queue: only the request event takes entries out. -/
def Issues (q : DramQueues cfg) (input : DramInput) (q' : DramQueues cfg)
    (new : List (DRAMPacket cfg)) : Prop :=
  if input.runs .nextReq then (new ++ q'.writeQueue).Perm q.writeQueue else new = []

/-- No piece of a write that is taken over straddles a border with another piece or with an
entry of the write queue, and the address space and 32 bits are enough for it. -/
def TakesApart (q : DramQueues cfg) (taken : List Packet) : Prop :=
  ∀ pkt ∈ taken, pkt.isRead = false → pkt.Fits cfg ∧
    (∀ p ∈ pieces cfg pkt, ∀ w ∈ q.writeQueue, ¬ w.span.Straddles cfg.burstSize p) ∧
    (pieces cfg pkt).Pairwise fun p p' => ¬ p.Straddles cfg.burstSize p'
deriving Decidable

theorem Issues.eq_nil (h : q.Issues input q' new) (hsame : q'.writeQueue = q.writeQueue) :
    new = [] := by
  unfold Issues at h
  split at h
  · have hlen := h.length_eq
    rw [List.length_append, hsame] at hlen
    exact List.length_eq_zero_iff.mp (Nat.add_eq_right.mp hlen)
  · exact h

theorem exists_issues (hstep : QueueStep q input taken q') : ∃ new, q.Issues input q' new := by
  unfold Issues
  cases hstep with
  | @serveWrite pkt _ _ hchoose => exact ⟨[pkt], hchoose⟩
  | write => exact ⟨[], show ([] : List (DRAMPacket cfg)) = [] from rfl⟩
  | _ => exact ⟨[], by split <;> rfl⟩

theorem taken_size (hstep : QueueStep q input taken q') :
    ∀ pkt ∈ taken, pkt.isRead = false → pkt.size ≠ 0 := by
  cases hstep with
  | write _ _ hsize => exact List.forall_mem_singleton.mpr fun _ => hsize
  | forwarded hread | read hread =>
    exact List.forall_mem_singleton.mpr fun h => by simp [hread] at h
  | _ => exact fun _ hpkt => (List.not_mem_nil hpkt).elim

/-- What an input does to the ledger of the write queue. -/
theorem writes_step (hburst : cfg.TwoPowerBursts) (h : WriteLedger q.writeQueue jobs)
    (hapart : q.TakesApart taken) (hissues : q.Issues input q' new)
    (hstep : QueueStep q input taken q') :
    ∃ served jobs' : List (WriteJob cfg), WriteLedger new served ∧ WriteLedger q'.writeQueue jobs' ∧
      ((served ++ jobs').flatMap WriteJob.pieces).Perm
        ((taken.filter (!·.isRead)).flatMap (pieces cfg) ++ jobs.flatMap WriteJob.pieces) := by
  have hsame (heq : q'.writeQueue = q.writeQueue) (htaken : taken.filter (!·.isRead) = []) :
      ∃ served jobs' : List (WriteJob cfg), WriteLedger new served ∧
        WriteLedger q'.writeQueue jobs' ∧ ((served ++ jobs').flatMap WriteJob.pieces).Perm
          ((taken.filter (!·.isRead)).flatMap (pieces cfg) ++ jobs.flatMap WriteJob.pieces) := by
    rw [hissues.eq_nil heq, heq, htaken]
    exact ⟨[], jobs, ⟨.nil, fun _ hj => (List.not_mem_nil hj).elim⟩, h, .refl _⟩
  cases hstep with
  | same | set | serveRead | respond => exact hsame rfl rfl
  | forwarded hread | read hread => exact hsame rfl (by simp [hread])
  | @write pkt queue hread _ hsize _ hnew =>
    obtain ⟨hfits, hentries, hpieces⟩ := hapart pkt (List.mem_singleton_self pkt) hread
    obtain ⟨hall, -⟩ := pieces_spec hburst hfits hsize
    have hpiecesApart : PiecesApart cfg (jobs.map (·.entry.span)) (pieces cfg pkt) := by
      refine ⟨fun p hp => ⟨(hall p hp).1, ?_⟩, fun p hp r hr => ?_, hpieces⟩
      · exact Nat.le_trans (Nat.add_le_add_right (hall p hp).2 _) hfits.below
      · obtain ⟨j, hj, rfl⟩ := List.mem_map.mp hr
        exact hentries p hp _ (h.entries.mem_iff.mp (List.mem_map.mpr ⟨j, hj, rfl⟩))
    obtain ⟨jobs', h', hperm⟩ := h.adds hburst hpiecesApart hnew
    have hnone : new = [] := hissues
    refine ⟨[], jobs', hnone ▸ ⟨.nil, fun _ hj => (List.not_mem_nil hj).elim⟩, h', ?_⟩
    simpa [hread, pieces] using hperm
  | @serveWrite pkt rest readyTime hchoose =>
    have hnew : new.Perm [pkt] :=
      (List.perm_append_right_iff rest).mp ((show (new ++ rest).Perm _ from hissues).trans
        hchoose.symm)
    obtain rfl := List.perm_singleton.mp hnew
    obtain ⟨j, hj, rfl⟩ := List.mem_map.mp
      (h.entries.mem_iff.mpr (hchoose.mem_iff.mp (List.mem_cons_self ..)))
    obtain ⟨others, hperm⟩ := exists_perm_cons hj
    obtain ⟨hserved, hothers⟩ := List.forall_mem_cons.mp fun k hk =>
      h.wellFormed k (hperm.mem_iff.mpr hk)
    have hentries : (others.map WriteJob.entry).Perm rest :=
      (((hperm.map WriteJob.entry).symm.trans h.entries).trans hchoose.symm).cons_inv
    exact ⟨[j], others, ⟨.refl _, List.forall_mem_singleton.mpr hserved⟩, ⟨hentries, hothers⟩,
      (hperm.flatMap_right WriteJob.pieces).symm⟩

end DramQueues

/-! ## Runs -/

namespace Dram

def WritesApart (s : Dram cfg) (input : DramInput) : Prop := s.queues.TakesApart (s.taken input)
deriving Decidable

/-- The runs, with the writes that were accepted in them and the entries that were issued. -/
inductive WriteRun (P : Dram cfg → DramInput → Prop) :
    Dram cfg → List Packet → List (DRAMPacket cfg) → Prop
  | startup (now : Tick) : WriteRun P (startup cfg now) [] []
  | step {s s' : Dram cfg} {input : DramInput} {accepted : List Packet}
      {issued new : List (DRAMPacket cfg)} (hs : WriteRun P s accepted issued) (hP : P s input)
      (hen : s.Enabled input) (hcall : DramM.call input s = .ok ((), s'))
      (hissues : s.queues.Issues input s'.queues new) :
      WriteRun P s' ((s.accepts input).filter (!·.isRead) ++ accepted) (new ++ issued)

variable {P : Dram cfg → DramInput → Prop} {s : Dram cfg} {accepted : List Packet}
  {issued : List (DRAMPacket cfg)}

theorem Reachable.writeRun (h : s.Reachable P) :
    ∃ accepted issued, WriteRun P s accepted issued := by
  refine h.induct (I := fun s => ∃ accepted issued, WriteRun P s accepted issued) (fun now => ?_)
    fun s input s' _ ih hen hP hcall => ?_
  · exact ⟨[], [], .startup now⟩
  · obtain ⟨accepted, issued, hs⟩ := ih
    obtain ⟨new, hissues⟩ := DramQueues.exists_issues (call_queueStep hen hcall)
    exact ⟨_, _, hs.step hP hen hcall hissues⟩

/-- In every run there is a ledger of the entries that were issued and of those that are
queued. -/
theorem WriteRun.ledger (hburst : cfg.TwoPowerBursts) (h : WriteRun WritesApart s accepted issued) :
    ∃ served jobs : List (WriteJob cfg), WriteLedger issued served ∧
      WriteLedger s.writeQueue jobs ∧
      ((served ++ jobs).flatMap WriteJob.pieces).Perm (accepted.flatMap (pieces cfg)) := by
  induction h with
  | startup =>
    exact ⟨[], [], ⟨.nil, fun _ hj => (List.not_mem_nil hj).elim⟩,
      ⟨.nil, fun _ hj => (List.not_mem_nil hj).elim⟩, .nil⟩
  | @step s s' input accepted issued new hs hP hen hcall hissues ih =>
    obtain ⟨served, jobs, hserved, hjobs, hperm⟩ := ih
    obtain ⟨served', jobs', hserved', hjobs', hperm'⟩ :=
      DramQueues.writes_step hburst hjobs hP hissues (call_queueStep hen hcall)
    refine ⟨served' ++ served, jobs', ⟨?_, ?_⟩, hjobs', ?_⟩
    · rw [List.map_append]
      exact hserved'.entries.append hserved.entries
    · exact List.forall_mem_append.mpr ⟨hserved'.wellFormed, hserved.wellFormed⟩
    · rw [accepts_eq hcall]
      simp only [List.flatMap_append, List.append_assoc] at hperm hperm' ⊢
      refine (List.perm_append_comm_assoc _ _ _).trans ((hperm'.append_left _).trans ?_)
      exact (List.perm_append_comm_assoc _ _ _).trans (hperm.append_left _)

theorem WriteRun.accepted_spec (hburst : cfg.TwoPowerBursts)
    (h : WriteRun WritesApart s accepted issued) :
    ∀ pkt ∈ accepted, Span.cover (pieces cfg pkt) = pkt.span.toSet := by
  induction h with
  | startup => exact fun _ hpkt => (List.not_mem_nil hpkt).elim
  | @step s s' input accepted issued new hs hP hen hcall _ ih =>
    refine List.forall_mem_append.mpr ⟨fun pkt hpkt => ?_, ih⟩
    rw [accepts_eq hcall] at hpkt
    obtain ⟨hmem, hread⟩ := List.mem_filter.mp hpkt
    have hread : pkt.isRead = false := by simpa using hread
    exact (pieces_spec hburst (hP pkt hmem hread).1
      (DramQueues.taken_size (call_queueStep hen hcall) pkt hmem hread)).2

end Dram

/-- In every run in which no piece of a write straddles a border of two bursts, the entries are
well-formed, every piece of an accepted write went into one entry, and every entry covers its
pieces. -/
theorem write_queue_well_formed (hburst : cfg.TwoPowerBursts) {s : Dram cfg}
    {accepted : List Packet} {issued : List (DRAMPacket cfg)}
    (h : Dram.WriteRun Dram.WritesApart s accepted issued) :
    (∀ w ∈ s.writeQueue, w.span.InBlock cfg.burstSize ∧ w.InPlace) ∧
    (∀ pkt ∈ accepted, Span.cover (pieces cfg pkt) = pkt.span.toSet) ∧
    ∃ served queued : List (WriteJob cfg),
      (served.map WriteJob.entry).Perm issued ∧ (queued.map WriteJob.entry).Perm s.writeQueue ∧
      ((served ++ queued).flatMap WriteJob.pieces).Perm (accepted.flatMap (pieces cfg)) ∧
      (∀ j ∈ served ++ queued, j.entry.span.toSet = Span.cover j.pieces) ∧
      Span.cover (s.writeQueue.map DRAMPacket.span) =
        Span.cover (queued.flatMap WriteJob.pieces) := by
  obtain ⟨served, queued, hserved, hqueued, hperm⟩ := h.ledger hburst
  refine ⟨fun w hw => ?_, h.accepted_spec hburst, served, queued, hserved.entries,
    hqueued.entries, hperm, fun j hj => ?_, hqueued.cover_eq⟩
  · obtain ⟨j, hj, rfl⟩ := List.mem_map.mp (hqueued.entries.mem_iff.mpr hw)
    exact ⟨(hqueued.wellFormed j hj).inBlock, (hqueued.wellFormed j hj).inPlace⟩
  · rcases List.mem_append.mp hj with hj | hj
    · exact (hserved.wellFormed j hj).covers
    · exact (hqueued.wellFormed j hj).covers

def bytesReq (cmd : MemCmd) (addr size : Nat) : Packet :=
  .ofRequest { paddr := BitVec.ofNat 64 addr, size, qosTag := 0 } cmd

/-- Two writes are merged to a burst. -/
theorem write_queue_well_formed_merge : ∃ s : Dram .oneBank, s.Reachable Dram.WritesApart ∧
      s.writeQueue.map DRAMPacket.span = [⟨64, 64⟩] ∧
      ∀ w ∈ s.writeQueue, w.span.InBlock 64 ∧ w.InPlace := by
  obtain ⟨s, hs, hspan⟩ := Dram.exists_reachable (P := Dram.WritesApart) 0
    [.timingReq (bytesReq .WriteReq 64 32), .timingReq (bytesReq .WriteReq 96 32)]
    (fun s : Dram .oneBank => s.writeQueue.map DRAMPacket.span = [⟨64, 64⟩]) (by decide +kernel)
  obtain ⟨accepted, issued, hwrites⟩ := hs.writeRun
  exact ⟨s, hs, hspan, (write_queue_well_formed ⟨6, by decide, rfl⟩ hwrites).1⟩

/-- The second write touches the entry of the first one at the border of two bursts. The
merged entry has 64 bytes, of two bursts, and the row of the second of them. -/
theorem write_merge_across_bursts : ∃ s : Dram .oneBank, s.Reachable (fun _ _ => True) ∧
      ∃ w ∈ s.writeQueue, ¬ w.span.InBlock 64 ∧ ¬ w.InPlace := by
  obtain ⟨s, hs, w, hw, hblock, hrow⟩ := Dram.exists_reachable (P := fun _ _ => True) 0
    [.timingReq (bytesReq .WriteReq 64 32), .timingReq (bytesReq .WriteReq 32 32)]
    (fun s : Dram .oneBank => ∃ w ∈ s.writeQueue, ¬ w.span.InBlock 64 ∧
      w.row ≠ BitVec.ofNat 16 (decodeDigits .oneBank (w.addr.toNat / 64)).2.2) (by decide +kernel)
  exact ⟨s, hs, w, hw, hblock, fun hplace => hrow hplace.row⟩

end PardG5V
