import Mathlib.Data.BitVec
import Mathlib.Data.List.Induction
import PardG5V.Basic

/-!
# The base address registers of a PCI device

`hyper/dev/pcidev.cc`: the register that the guest reads and writes, and the address that the
device decodes. Addresses are below `2 ^ 63 + 2 ^ 33`, so that their sums do not wrap.

Results: `bars_agree_iff`, `zero_bar_decodes`.
-/

namespace PardG5V

instance neZero_six : NeZero 6 := ⟨by decide⟩

/-- The parameters of a PCI device. The constructor stops if a size is no power of two. -/
structure PciConfig where
  BAR : Fin 6 → BitVec 32
  BARSize : Fin 6 → BitVec 32
  legacyIO : Fin 6 → Bool
  size_pow : ∀ b, legacyIO b = false → BARSize b ≠ 0 → ∃ k ≤ 31, (BARSize b).toNat = 2 ^ k

structure PciBars where
  baseAddr : Fin 6 → BitVec 32
  BARAddrs : Fin 6 → Nat

def platformAddr (io : Bool) (addr : BitVec 32) : Nat :=
  if io then 2 ^ 63 + addr.toNat else addr.toNat

def barMask (bar : BitVec 32) : BitVec 32 := if bar.getLsbD 0 then 0x3 else 0xf

namespace PciBars

def init (cfg : PciConfig) : PciBars where
  baseAddr b := if cfg.legacyIO b then 0 else cfg.BAR b
  BARAddrs b := if cfg.legacyIO b then platformAddr true (cfg.BAR b) else 0

/-- A 32-bit write of `new` to the register `b`. -/
def writeBar (cfg : PciConfig) (s : PciBars) (b : Fin 6) (new : BitVec 32) : PciBars :=
  let old := s.baseAddr b
  let store (value : BitVec 32) : Fin 6 → BitVec 32 := fun i =>
    if i = b then value &&& ~~~ barMask old ||| old &&& barMask old else s.baseAddr i
  if cfg.legacyIO b then s
  else if new = 0xffffffff then { s with baseAddr := store (~~~ (cfg.BARSize b - 1)) }
  else
    let new := new &&& ~~~ barMask old
    { baseAddr := store new
      BARAddrs := fun i =>
        if i = b ∧ new ≠ 0 then platformAddr (old.getLsbD 0) new else s.BARAddrs i }

def after (cfg : PciConfig) (writes : List (Fin 6 × BitVec 32)) : PciBars :=
  writes.foldl (fun s w => s.writeBar cfg w.1 w.2) (init cfg)

def isBAR (cfg : PciConfig) (s : PciBars) (addr : Nat) (b : Fin 6) : Bool :=
  decide (s.BARAddrs b ≤ addr) && decide (addr < s.BARAddrs b + (cfg.BARSize b).toNat)

def getBAR (cfg : PciConfig) (s : PciBars) (addr : Nat) : Option (Fin 6) :=
  (List.finRange 6).find? (s.isBAR cfg addr)

/-- The range that `getAddrRanges()` has for a register. -/
def Advertised (cfg : PciConfig) (s : PciBars) (b : Fin 6) (addr : Nat) : Prop :=
  s.BARAddrs b ≠ 0 ∧ s.BARAddrs b ≤ addr ∧ addr ≤ s.BARAddrs b + (cfg.BARSize b).toNat - 1

def shown (s : PciBars) (b : Fin 6) : BitVec 32 := s.baseAddr b &&& ~~~ barMask (s.baseAddr b)

structure Agrees (cfg : PciConfig) (s : PciBars) (b : Fin 6) : Prop where
  base : s.shown b ≠ 0 → s.BARAddrs b = platformAddr ((s.baseAddr b).getLsbD 0) (s.shown b)
  aligned : (cfg.BARSize b).toNat ∣ s.BARAddrs b
  silent : s.shown b = 0 → ∀ addr, s.isBAR cfg addr b = false
  lookup : ∀ addr, s.getBAR cfg addr = some b ↔ s.Advertised cfg b addr

end PciBars

/-! ## What the guest writes -/

/-- The registers that the guest programs. -/
def PciConfig.Programmable (cfg : PciConfig) (b : Fin 6) : Prop :=
  cfg.legacyIO b = false ∧ cfg.BARSize b ≠ 0

def lastWrite (writes : List (Fin 6 × BitVec 32)) (b : Fin 6) : Option (BitVec 32) :=
  (writes.reverse.find? (·.1 = b)).map (·.2)

/-- The address in the last write of a register. -/
def PciConfig.given (cfg : PciConfig) (writes : List (Fin 6 × BitVec 32)) (b : Fin 6) : BitVec 32 :=
  (lastWrite writes b).getD 0 &&& ~~~ barMask (cfg.BAR b)

/-- Where the guest wants a range to be, or where the parameters put it. -/
def PciConfig.wanted (cfg : PciConfig) (writes : List (Fin 6 × BitVec 32)) (b : Fin 6) : Nat :=
  if cfg.legacyIO b then platformAddr true (cfg.BAR b)
  else platformAddr ((cfg.BAR b).getLsbD 0) (cfg.given writes b)

/-- No address is wanted in both ranges. -/
def PciConfig.Separate (cfg : PciConfig) (writes : List (Fin 6 × BitVec 32)) (a b : Fin 6) : Prop :=
  ∀ addr, cfg.wanted writes a ≤ addr → addr < cfg.wanted writes a + (cfg.BARSize a).toNat →
    cfg.wanted writes b ≤ addr → cfg.wanted writes b + (cfg.BARSize b).toNat ≤ addr

namespace PciLemmas

open PciBars

variable {cfg : PciConfig} {writes : List (Fin 6 × BitVec 32)} {b : Fin 6} {s : PciBars} {io : Bool}

theorem stored_bit (old new : BitVec 32) :
    (new &&& ~~~ barMask old ||| old &&& barMask old).getLsbD 0 = old.getLsbD 0 := by
  unfold barMask
  cases h : old.getLsbD 0 with
  | false => simpa using h
  | true => simp [h]

theorem stored_address (old new : BitVec 32) :
    (new &&& ~~~ barMask old ||| old &&& barMask old) &&& ~~~ barMask old =
      new &&& ~~~ barMask old := by
  ext i
  simp only [BitVec.getElem_and, BitVec.getElem_or, BitVec.getElem_not]
  grind

structure Written (cfg : PciConfig) (writes : List (Fin 6 × BitVec 32)) (s : PciBars) (b : Fin 6) :
    Prop where
  io : (s.baseAddr b).getLsbD 0 = (cfg.BAR b).getLsbD 0
  unwritten : lastWrite writes b = none → s.baseAddr b = cfg.BAR b ∧ s.BARAddrs b = 0
  shown : ∀ v, lastWrite writes b = some v → v ≠ 0xffffffff → s.shown b = cfg.given writes b
  decoded : ∀ v, lastWrite writes b = some v → v ≠ 0xffffffff → cfg.given writes b ≠ 0 →
    s.BARAddrs b = platformAddr ((cfg.BAR b).getLsbD 0) (cfg.given writes b)

theorem lastWrite_concat (w : Fin 6 × BitVec 32) :
    lastWrite (writes ++ [w]) b = if w.1 = b then some w.2 else lastWrite writes b := by
  unfold lastWrite
  by_cases h : w.1 = b <;> simp [h]

theorem writeBar_other (cfg : PciConfig) (s : PciBars) {i : Fin 6} (hi : i ≠ b) (new : BitVec 32) :
    (s.writeBar cfg i new).baseAddr b = s.baseAddr b ∧
      (s.writeBar cfg i new).BARAddrs b = s.BARAddrs b := by
  unfold writeBar
  grind

theorem writeBar_self (s : PciBars) (hb : cfg.legacyIO b = false) (new : BitVec 32) :
    ((s.writeBar cfg b new).baseAddr b).getLsbD 0 = (s.baseAddr b).getLsbD 0 ∧
      (new ≠ 0xffffffff →
        (s.writeBar cfg b new).shown b = new &&& ~~~ barMask (s.baseAddr b) ∧
          (new &&& ~~~ barMask (s.baseAddr b) ≠ 0 → (s.writeBar cfg b new).BARAddrs b =
            platformAddr ((s.baseAddr b).getLsbD 0) (new &&& ~~~ barMask (s.baseAddr b)))) := by
  have hbit := stored_bit (s.baseAddr b)
  have hmask (value : BitVec 32) : barMask (value &&& ~~~ barMask (s.baseAddr b) |||
      s.baseAddr b &&& barMask (s.baseAddr b)) = barMask (s.baseAddr b) := by
    unfold barMask at hbit ⊢
    rw [hbit]
  unfold writeBar shown
  grind [stored_address]

theorem written (hb : cfg.legacyIO b = false) : Written cfg writes (after cfg writes) b := by
  induction writes using List.reverseRecOn with
  | nil => constructor <;> simp [after, init, hb, lastWrite]
  | append_singleton writes w ih =>
    have hlast : lastWrite (writes ++ [w]) b = if w.1 = b then some w.2 else lastWrite writes b :=
      lastWrite_concat w
    have hstep : after cfg (writes ++ [w]) = (after cfg writes).writeBar cfg w.1 w.2 := by
      simp [after]
    by_cases hw : w.1 = b
    · obtain ⟨hio, hnew⟩ := writeBar_self (after cfg writes) hb w.2
      have hmask : barMask ((after cfg writes).baseAddr b) = barMask (cfg.BAR b) := by
        unfold barMask
        rw [ih.io]
      rw [hw] at hstep
      constructor <;> grind [PciConfig.given, ih.io]
    · obtain ⟨hreg, haddr⟩ := writeBar_other cfg (after cfg writes) hw w.2
      have hgiven : cfg.given (writes ++ [w]) b = cfg.given writes b := by
        unfold PciConfig.given
        rw [hlast, if_neg hw]
      rw [if_neg hw] at hlast
      obtain ⟨h₁, h₂, h₃, h₄⟩ := ih
      constructor <;> grind [PciBars.shown]

theorem legacy_kept (hb : cfg.legacyIO b = true) :
    (after cfg writes).BARAddrs b = platformAddr true (cfg.BAR b) := by
  induction writes using List.reverseRecOn with
  | nil => simp [after, init, hb]
  | append_singleton writes w ih =>
    have hstep : after cfg (writes ++ [w]) = (after cfg writes).writeBar cfg w.1 w.2 := by
      simp [after]
    rw [hstep, writeBar]
    grind

theorem getBAR_eq_some {addr : Nat} : s.getBAR cfg addr = some b ↔
    s.isBAR cfg addr b = true ∧ ∀ a < b, s.isBAR cfg addr a = false := by
  unfold getBAR
  rw [List.find?_eq_some_iff_getElem]
  constructor
  · rintro ⟨hb, i, hi, rfl, hbefore⟩
    refine ⟨hb, fun a ha => ?_⟩
    simpa using hbefore a.val (by simpa [Fin.lt_def] using ha)
  · rintro ⟨hb, hbefore⟩
    refine ⟨hb, b.val, by simp, by simp, fun j hj => ?_⟩
    simpa using hbefore ⟨j, hj.trans b.isLt⟩ hj

theorem platformAddr_ne_zero {addr : BitVec 32} (h : addr ≠ 0) : platformAddr io addr ≠ 0 := by
  have hne : addr.toNat ≠ 0 := fun hzero => h (BitVec.eq_of_toNat_eq hzero)
  unfold platformAddr
  split <;> omega

theorem dvd_platformAddr {addr : BitVec 32} (hb : cfg.Programmable b) :
    (cfg.BARSize b).toNat ∣ platformAddr io addr ↔ (cfg.BARSize b).toNat ∣ addr.toNat := by
  obtain ⟨k, hk, hsize⟩ := cfg.size_pow b hb.1 hb.2
  unfold platformAddr
  split
  · rw [hsize]
    exact (Nat.dvd_add_right (Nat.pow_dvd_pow 2 (hk.trans (by decide))))
  · exact Iff.rfl

theorem size_pos (hb : cfg.Programmable b) : 0 < (cfg.BARSize b).toNat :=
  Nat.pos_of_ne_zero fun hzero => hb.2 (BitVec.eq_of_toNat_eq hzero)

/-- A register that was given an address shows and decodes it. -/
theorem decodes_wanted (hsizing : ∀ v, lastWrite writes b = some v → v ≠ 0xffffffff)
    (hb : cfg.legacyIO b = true ∨ cfg.given writes b ≠ 0) :
    (after cfg writes).BARAddrs b = cfg.wanted writes b := by
  unfold PciConfig.wanted
  cases hlegacy : cfg.legacyIO b with
  | true => exact legacy_kept hlegacy
  | false =>
    have hgiven := hb.resolve_left (by simp [hlegacy])
    cases hlast : lastWrite writes b with
    | none => exact absurd (by simp [PciConfig.given, hlast]) hgiven
    | some v => exact (written hlegacy).decoded v hlast (hsizing v hlast) hgiven

theorem shown_given (hsizing : ∀ v, lastWrite writes b = some v → v ≠ 0xffffffff)
    (hb : cfg.legacyIO b = false) (hgiven : cfg.given writes b ≠ 0) :
    (after cfg writes).shown b = cfg.given writes b := by
  cases hlast : lastWrite writes b with
  | none => exact absurd (by simp [PciConfig.given, hlast]) hgiven
  | some v => exact (written hb).shown v hlast (hsizing v hlast)

theorem wanted_eq (hb : cfg.legacyIO b = false) :
    cfg.wanted writes b = platformAddr ((cfg.BAR b).getLsbD 0) (cfg.given writes b) := by
  rw [PciConfig.wanted, hb, if_neg Bool.false_ne_true]

theorem ranged {start addr : Nat} (hlow : start ≤ addr)
    (hhigh : addr < start + (cfg.BARSize b).toNat) :
    cfg.legacyIO b = true ∨ cfg.Programmable b := by
  cases hlegacy : cfg.legacyIO b with
  | true => exact .inl rfl
  | false => exact .inr ⟨hlegacy, fun hempty => by simp [hempty] at hhigh; omega⟩

theorem isBAR_iff {addr : Nat} : s.isBAR cfg addr b = true ↔
    s.BARAddrs b ≤ addr ∧ addr < s.BARAddrs b + (cfg.BARSize b).toNat := by
  simp [isBAR]

end PciLemmas

open PciBars PciLemmas

/-- After writes that leave no register in the middle of sizing, the registers and the decoder agree
exactly if every register was last given a nonzero multiple of its size, and its range is separate
from those before it. -/
theorem bars_agree_iff (cfg : PciConfig) (writes : List (Fin 6 × BitVec 32))
    (hsizing : ∀ b v, lastWrite writes b = some v → v ≠ 0xffffffff) :
    (∀ b, cfg.Programmable b → (after cfg writes).Agrees cfg b) ↔
      ∀ b, cfg.Programmable b → cfg.given writes b ≠ 0 ∧
        (cfg.BARSize b).toNat ∣ (cfg.given writes b).toNat ∧
        ∀ a < b, cfg.Separate writes a b := by
  -- a register decodes what it was given, where that is not zero
  have hdecodes (hgiven : ∀ b, cfg.Programmable b → cfg.given writes b ≠ 0) (b : Fin 6)
      (hb : cfg.legacyIO b = true ∨ cfg.Programmable b) :
      (after cfg writes).BARAddrs b = cfg.wanted writes b :=
    decodes_wanted (hsizing b) (hb.imp_right (hgiven b))
  constructor
  · intro h
    have hgiven (b : Fin 6) (hb : cfg.Programmable b) : cfg.given writes b ≠ 0 := by
      intro hzero
      -- the range of a register is never empty, so one that reads zero is decoded
      have hshown : (after cfg writes).shown b ≠ 0 := fun hsilent => by
        have hout := (h b hb).silent hsilent ((after cfg writes).BARAddrs b)
        simp [isBAR, size_pos hb] at hout
      cases hlast : lastWrite writes b with
      | none =>
        have hbase := (h b hb).base hshown
        rw [((written hb.1).unwritten hlast).2] at hbase
        exact platformAddr_ne_zero hshown hbase.symm
      | some v => exact hshown (((written hb.1).shown v hlast (hsizing b v hlast)).trans hzero)
    intro b hb
    have hbase := (hdecodes hgiven b (.inr hb)).trans (wanted_eq hb.1)
    refine ⟨hgiven b hb, ?_, fun a ha addr hlow hhigh hstart => ?_⟩
    · exact (dvd_platformAddr hb).mp (hbase ▸ (h b hb).aligned)
    · by_contra hin
      have hsame := hdecodes hgiven a (ranged hlow hhigh)
      rw [← hsame] at hlow hhigh
      rw [← hdecodes hgiven b (.inr hb)] at hstart hin
      have hne : (after cfg writes).BARAddrs b ≠ 0 := hbase ▸ platformAddr_ne_zero (hgiven b hb)
      have hfound := ((h b hb).lookup addr).mpr ⟨hne, hstart, by omega⟩
      have hnot := (getBAR_eq_some.mp hfound).2 a ha
      rw [isBAR_iff.mpr ⟨hlow, hhigh⟩] at hnot
      cases hnot
  · intro h b hb
    obtain ⟨hgiven, hdvd, hapart⟩ := h b hb
    have hwanted := hdecodes fun b hb => (h b hb).1
    have hbase := (hwanted b (.inr hb)).trans (wanted_eq hb.1)
    have hshown := shown_given (hsizing b) hb.1 hgiven
    refine ⟨fun _ => ?_, ?_, fun hzero => absurd (hshown.symm.trans hzero) hgiven, fun addr => ?_⟩
    · rw [hbase, hshown, (written hb.1).io]
    · rw [hbase]
      exact (dvd_platformAddr hb).mpr hdvd
    · have hpos := size_pos hb
      have hne : (after cfg writes).BARAddrs b ≠ 0 := hbase ▸ platformAddr_ne_zero hgiven
      rw [getBAR_eq_some, isBAR_iff]
      constructor
      · rintro ⟨⟨hlow, hhigh⟩, -⟩
        exact ⟨hne, hlow, by omega⟩
      · rintro ⟨-, hlow, hhigh⟩
        refine ⟨⟨hlow, by omega⟩, fun a ha => Bool.eq_false_iff.mpr fun hin => ?_⟩
        obtain ⟨hlow', hhigh'⟩ := isBAR_iff.mp hin
        have hsame := hwanted a (ranged hlow' hhigh')
        rw [hsame] at hlow' hhigh'
        have hout := hapart a ha addr hlow' hhigh' (hwanted b (.inr hb) ▸ hlow)
        rw [← hwanted b (.inr hb)] at hout
        omega

def oneBar : PciConfig where
  BAR _ := 0
  BARSize b := if b = 0 then 0x100 else 0
  legacyIO _ := false
  size_pow b _ hb := ⟨8, by decide, by
    have hzero : b = 0 := by by_contra hne; simp [hne] at hb
    simp [hzero]⟩

/-- The range is sized and then programmed. -/
theorem bars_agree_iff_sized :
    (∀ b v, lastWrite [(0, 0xffffffff), (0, 0x1000)] b = some v → v ≠ 0xffffffff) ∧
      (after oneBar [(0, 0xffffffff), (0, 0x1000)]).Agrees oneBar 0 := by
  have hsizing : ∀ b v, lastWrite [(0, 0xffffffff), (0, 0x1000)] b = some v → v ≠ 0xffffffff := by
    intro b v h
    by_cases hb : (0 : Fin 6) = b <;> simp [lastWrite, hb] at h
    rw [← h]
    decide
  refine ⟨hsizing, (bars_agree_iff oneBar _ hsizing).mpr (fun b hb => ?_) 0 ⟨rfl, by decide⟩⟩
  have hzero : b = 0 := by by_contra hne; exact hb.2 (by simp [oneBar, hne])
  subst hzero
  exact ⟨by decide, by decide, fun a ha => absurd ha (Fin.not_lt_zero a)⟩

/-- A programmed range is still decoded after zero was written to its register, one never programmed
is decoded at zero, and an address that is no multiple of the size is taken as it is. -/
theorem zero_bar_decodes : ((after oneBar [(0, 0x1000), (0, 0)]).shown 0 = 0 ∧
        (after oneBar [(0, 0x1000), (0, 0)]).getBAR oneBar 0x1000 = some 0) ∧
      ((after oneBar []).shown 0 = 0 ∧ (after oneBar []).getBAR oneBar 0 = some 0 ∧
        ¬ (after oneBar []).Advertised oneBar 0 0) ∧
      (after oneBar [(0, 0x1010)]).BARAddrs 0 = 0x1010 :=
  ⟨by decide, ⟨by decide, by decide, fun h => h.1 rfl⟩, by decide⟩

end PardG5V
