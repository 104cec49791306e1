import PardG5V.Cache.Partition
import PardG5V.Lib.Machine

/-!
# The recency order of the tag store

The cache accesses a block, fills one with `findVictim`, `insertBlock` and the setting of the
status, and invalidates one in the tag store and in the block. A run of these keeps the valid
blocks of a set in the order of their last use and the others behind them. The test of a way
against the mask is with `1 << way`, an `int`.

Results: `lru_replacement_iff`, `way_31_takes_upper_half`.
-/

namespace PardG5V

open Prog

variable {cfg : CacheConfig}

/-- The tag store, with the time of the last use of each block. The source keeps no such time. -/
structure LruRun (cfg : CacheConfig) where
  tags : LRU cfg
  clock : Nat := 0
  lastUse : Nat → Fin cfg.assoc → Nat := fun _ _ => 0

inductive LruInput (cfg : CacheConfig)
  | access (guest : GuestID) (addr : Addr) (isSecure : Bool) (now : Tick)
  | fill (guest : GuestID) (pkt : Packet) (filled : CacheBlk)
  | invalidate (set : Nat) (w : Fin cfg.assoc)
  | update (set : Nat) (w : Fin cfg.assoc) (blk : CacheBlk)
  | set (ldomID : LDomID) (destAddr : BitVec 32) (data : BitVec 64)

namespace LruRun

def valid (s : LruRun cfg) (set : Nat) (w : Fin cfg.assoc) : Bool := (s.tags.blks set w).isValid

def used (s : LruRun cfg) (set : Nat) (w : Fin cfg.assoc) : LruRun cfg :=
  { s with
    clock := s.clock + 1
    lastUse := fun i v => if i = set ∧ v = w then s.clock + 1 else s.lastUse i v }

def access (s : LruRun cfg) (guest : GuestID) (addr : Addr) (isSecure : Bool) (now : Tick) :
    LruRun cfg :=
  let (tags, hit, _) := s.tags.accessBlock guest addr isSecure now
  match hit with
  | none => { s with tags }
  | some w => { s with tags }.used (cfg.extractSet addr) w

/-- `filled` is the block as the cache leaves it. -/
def fill (s : LruRun cfg) (guest : GuestID) (pkt : Packet) (filled : CacheBlk) :
    Except Abort (LruRun cfg) := do
  let set := cfg.extractSet pkt.addr
  let (_, w) ← s.tags.findVictim guest pkt.addr
  let (tags, _) ← s.tags.insertBlock guest pkt (s.tags.blks set w) w
  return { s with tags := tags.setBlk set w filled }.used set w

def invalidate (s : LruRun cfg) (set : Nat) (w : Fin cfg.assoc) : Except Abort (LruRun cfg) := do
  let (tags, blk) ← s.tags.invalidate set w (s.tags.blks set w)
  return { s with tags := tags.setBlk set w blk.invalidate }

def next (s : LruRun cfg) : LruInput cfg → Except Abort (LruRun cfg)
  | .access guest addr isSecure now => .ok (s.access guest addr isSecure now)
  | .fill guest pkt filled => s.fill guest pkt filled
  | .invalidate set w => s.invalidate set w
  | .update set w blk => .ok { s with tags := s.tags.setBlk set w blk }
  | .set ldomID destAddr data => do
    let tags ← s.tags.set ldomID destAddr data
    return { s with tags }

/-- A fill ends with a valid block, and only fills and invalidations change whether one is. -/
def Enabled (s : LruRun cfg) : LruInput cfg → Prop
  | .fill _ _ filled => filled.isValid = true
  | .update set w blk => blk.isValid = s.valid set w
  | _ => True

def machine (cfg : CacheConfig) : Machine Abort (LruRun cfg) (LruInput cfg) where
  start s := ∃ waymasks, s = { tags := LRU.initial cfg waymasks }
  enabled := Enabled
  call input s := (s.next input).map fun s => ((), s)

/-! ## The order of a set -/

/-- Of two blocks of a set, the one that is listed later is not valid, or both are and the earlier
one was used later. -/
def Before (s : LruRun cfg) (set : Nat) (v w : Fin cfg.assoc) : Prop :=
  s.valid set w = true → s.valid set v = true ∧ s.lastUse set w < s.lastUse set v

/-- Each set lists its valid blocks from the most to the least recently used one, and then the
others. -/
def Ordered (s : LruRun cfg) : Prop := ∀ set, (s.tags.sets set).blks.Pairwise (s.Before set)

/-- The victim is in a way of the mask. It is valid only if the blocks in all ways of the mask are,
and then it is the least recently used one of these. -/
def RightVictim (s : LruRun cfg) (set : Nat) (mask : BitVec 64) (w : Fin cfg.assoc) : Prop :=
  mask.getLsbD w = true ∧ (s.valid set w = true → ∀ v : Fin cfg.assoc, mask.getLsbD v = true →
    s.valid set v = true ∧ (v ≠ w → s.lastUse set w < s.lastUse set v))

/-- `findVictim` returns the right victim under every mask with a way of the cache. -/
def Replaces (s : LruRun cfg) : Prop :=
  ∀ (guest : GuestID) (addr : Addr) (mask : BitVec 64), s.tags.waymasks[guest.toNat]? = some mask →
    (∃ w, w < cfg.assoc ∧ mask.getLsbD w = true) →
      ∃ w, s.tags.findVictim guest addr = .ok (mask, w) ∧
        s.RightVictim (cfg.extractSet addr) mask w

end LruRun

namespace LruLemmas

variable {tags tags' : LRU cfg} {set : Nat} {w : Fin cfg.assoc} {blk blk' : CacheBlk}

theorem scanVictim_first {α : Type} {allowed : α → Bool} {R : α → α → Prop} {l : List α}
    (hl : l.Pairwise R) (h : ∃ w ∈ l, allowed w = true) (last : α) :
    ∀ v ∈ l, allowed v = true → v ≠ scanVictim allowed last l →
      R (scanVictim allowed last l) v := by
  induction l generalizing last with
  | nil => exact fun v hv => absurd hv List.not_mem_nil
  | cons x xs ih =>
    obtain ⟨hx, hxs⟩ := List.pairwise_cons.mp hl
    cases hcase : allowed x with
    | true => grind [scanVictim]
    | false =>
      -- the search goes on, and so do the allowed elements
      have hrest : ∃ w ∈ xs, allowed w = true := by grind
      grind [scanVictim]

variable {assoc : Nat} {order : CacheSet assoc} {R R' : Fin assoc → Fin assoc → Prop}
  {x : Fin assoc}

theorem nodup (order : CacheSet assoc) : order.blks.Nodup :=
  order.perm.nodup_iff.mpr (List.nodup_finRange assoc)

theorem pairwise_moveToHead (h : order.blks.Pairwise R) (hx : ∀ v, v ≠ x → R' x v)
    (hother : ∀ v w, v ≠ x → w ≠ x → R v w → R' v w) :
    (order.moveToHead x).blks.Pairwise R' := by
  show (Recency.moveToHead x order.blks).Pairwise R'
  rw [Recency.moveToHead_eq (order.mem x)]
  have hne {v : Fin assoc} (hv : v ∈ order.blks.erase x) : v ≠ x :=
    ((nodup order).mem_erase_iff.mp hv).1
  refine List.pairwise_cons.mpr ⟨fun v hv => hx v (hne hv), ?_⟩
  refine (h.sublist List.erase_sublist).imp_of_mem fun hv hw hR => ?_
  exact hother _ _ (hne hv) (hne hw) hR

theorem pairwise_moveToTail (h : order.blks.Pairwise R) (hx : ∀ v, v ≠ x → R' v x)
    (hother : ∀ v w, v ≠ x → w ≠ x → R v w → R' v w) :
    (order.moveToTail x).blks.Pairwise R' := by
  let turned : CacheSet assoc := ⟨order.blks.reverse, (List.reverse_perm _).trans order.perm⟩
  have hturned : (turned.moveToHead x).blks.Pairwise (fun v w => R' w v) :=
    pairwise_moveToHead (R := fun v w => R w v) (List.pairwise_reverse.mpr h) hx
      fun v w hv hw hR => hother w v hw hv hR
  exact List.pairwise_reverse.mpr hturned

theorem setBlk_self : (tags.setBlk set w blk).blks set w = blk := if_pos ⟨rfl, rfl⟩

theorem setBlk_other {i : Nat} {v : Fin cfg.assoc}
    (hne : ¬ (i = set ∧ v = w)) : (tags.setBlk set w blk).blks i v = tags.blks i v := if_neg hne

theorem insertBlock_sets {guest : GuestID} {pkt : Packet}
    (h : tags.insertBlock guest pkt blk w = .ok (tags', blk')) :
    tags'.sets = (tags.setOrder (cfg.extractSet pkt.addr)
      ((tags.sets (cfg.extractSet pkt.addr)).moveToHead w)).sets := by
  simp only [LRU.insertBlock, LRU.retire, except_bind_eq_ok, except_ite_eq_ok, except_pure_eq_ok,
    assert_eq_ok, Except.ok.injEq] at h
  obtain ⟨⟨tags₁, blk₁⟩, hretire, _, _, heq⟩ := h
  obtain ⟨rfl, rfl⟩ := Prod.mk.inj heq
  rcases hretire with ⟨_, _, _, heq⟩ | ⟨_, heq⟩ <;> obtain ⟨rfl, rfl⟩ := Prod.mk.inj heq <;> rfl

theorem invalidate_sets (h : tags.invalidate set w blk = .ok (tags', blk')) :
    tags'.sets = (tags.setOrder set ((tags.sets set).moveToTail w)).sets := by
  simp only [LRU.invalidate, except_bind_eq_ok, except_pure_eq_ok, assert_eq_ok] at h
  obtain ⟨_, _, _, _, heq⟩ := h
  obtain ⟨rfl, rfl⟩ := Prod.mk.inj heq
  rfl

end LruLemmas

open LruLemmas

namespace LruRun

variable {s s' : LruRun cfg} {set : Nat} {w : Fin cfg.assoc}

structure Inv (s : LruRun cfg) : Prop where
  ordered : s.Ordered
  past : ∀ set w, s.lastUse set w ≤ s.clock

def Same (s s' : LruRun cfg) (set : Nat) (w : Fin cfg.assoc) : Prop :=
  s'.valid set w = s.valid set w ∧ s'.lastUse set w = s.lastUse set w

theorem Before.congr {v : Fin cfg.assoc} (h : s.Before set v w) (hv : s.Same s' set v)
    (hw : s.Same s' set w) : s'.Before set v w := by
  unfold Before
  rw [hv.1, hv.2, hw.1, hw.2]
  exact h

/-- One set gets another order, and nothing happens in the others. -/
theorem Inv.reordered (h : s.Inv) {order : CacheSet cfg.assoc}
    (hsets : s'.tags.sets = (s.tags.setOrder set order).sets)
    (hother : ∀ i v, i ≠ set → s.Same s' i v) (horder : order.blks.Pairwise (s'.Before set))
    (hpast : ∀ i v, s'.lastUse i v ≤ s'.clock) : s'.Inv := by
  refine ⟨fun i => ?_, hpast⟩
  rw [hsets]
  unfold LRU.setOrder
  dsimp only
  split
  · next hi => exact hi ▸ horder
  · next hi => exact (h.ordered i).imp fun hbefore => hbefore.congr (hother i _ hi) (hother i _ hi)

theorem Inv.used (h : s.Inv) {tags : LRU cfg}
    (hsets : tags.sets = (s.tags.setOrder set ((s.tags.sets set).moveToHead w)).sets)
    (hvalid : (tags.blks set w).isValid = true)
    (hother : ∀ i v, ¬ (i = set ∧ v = w) → (tags.blks i v).isValid = s.valid i v) :
    ({ s with tags }.used set w).Inv := by
  have hsame (i : Nat) (v : Fin cfg.assoc) (hne : ¬ (i = set ∧ v = w)) :
      s.Same ({ s with tags }.used set w) i v := ⟨hother i v hne, if_neg hne⟩
  refine h.reordered hsets (fun i v hi => hsame i v fun heq => hi heq.1) ?_ fun i v => ?_
  · -- the block that is used now is newer than every other one
    refine pairwise_moveToHead (h.ordered set) (fun v hv _ => ⟨hvalid, ?_⟩) fun v u hv hu hbefore =>
      hbefore.congr (hsame set v fun heq => hv heq.2) (hsame set u fun heq => hu heq.2)
    have hpast := h.past set v
    grind [LruRun.used]
  · have hpast := h.past i v
    grind [LruRun.used]

theorem Inv.access (h : s.Inv) (guest : GuestID) (addr : Addr) (isSecure : Bool) (now : Tick) :
    (s.access guest addr isSecure now).Inv := by
  unfold LruRun.access LRU.accessBlock
  cases hfind : s.tags.findBlock guest addr isSecure with
  | none => exact h
  | some w =>
    have hvalid := (LRU.hits_iff.mp (LRU.findWay_some hfind)).2.1
    refine h.used rfl ?_ fun i v hne => congrArg CacheBlk.isValid (setBlk_other hne)
    rw [setBlk_self]
    exact hvalid

theorem Inv.fill (h : s.Inv) {guest : GuestID} {pkt : Packet} {filled : CacheBlk}
    (hvalid : filled.isValid = true) (hfill : s.fill guest pkt filled = .ok s') : s'.Inv := by
  simp only [LruRun.fill, except_bind_eq_ok, except_pure_eq_ok] at hfill
  obtain ⟨⟨mask, w⟩, -, ⟨tags, blk⟩, hinsert, rfl⟩ := hfill
  refine h.used (show tags.sets = _ from insertBlock_sets hinsert) ?_ fun i v hne => ?_
  · rw [setBlk_self]
    exact hvalid
  · rw [setBlk_other hne, (LRU.insertBlock_spec hinsert).1]
    rfl

theorem Inv.invalidate (h : s.Inv) (hcall : s.invalidate set w = .ok s') : s'.Inv := by
  simp only [LruRun.invalidate, except_bind_eq_ok, except_pure_eq_ok] at hcall
  obtain ⟨⟨tags, blk⟩, hinv, rfl⟩ := hcall
  have hsame (i : Nat) (v : Fin cfg.assoc) (hne : ¬ (i = set ∧ v = w)) :
      s.Same { s with tags := tags.setBlk set w blk.invalidate } i v := by
    refine ⟨congrArg CacheBlk.isValid ?_, rfl⟩
    rw [← (LRU.invalidate_spec hinv).1]
    exact setBlk_other hne
  refine h.reordered (show tags.sets = _ from invalidate_sets hinv)
    (fun i v hi => hsame i v fun heq => hi heq.1) ?_ h.past
  refine pairwise_moveToTail (h.ordered set) (fun v _ hbad => ?_) fun v u hv hu hbefore =>
    hbefore.congr (hsame set v fun heq => hv heq.2) (hsame set u fun heq => hu heq.2)
  rw [valid, setBlk_self] at hbad
  cases hbad

theorem Inv.next (h : s.Inv) {input : LruInput cfg} (hen : s.Enabled input)
    (hnext : s.next input = .ok s') : s'.Inv := by
  cases input with
  | access guest addr isSecure now =>
    cases hnext
    exact h.access guest addr isSecure now
  | fill guest pkt filled => exact h.fill hen hnext
  | invalidate set w => exact h.invalidate hnext
  | update set w blk =>
    cases hnext
    have hsame (i : Nat) (v : Fin cfg.assoc) :
        s.Same { s with tags := s.tags.setBlk set w blk } i v := by
      refine ⟨?_, rfl⟩
      by_cases heq : i = set ∧ v = w
      · obtain ⟨rfl, rfl⟩ := heq
        exact (congrArg CacheBlk.isValid setBlk_self).trans hen
      · exact congrArg CacheBlk.isValid (setBlk_other heq)
    exact ⟨fun i => (h.ordered i).imp fun hbefore => hbefore.congr (hsame i _) (hsame i _), h.past⟩
  | set ldomID destAddr data =>
    simp only [LruRun.next, LRU.set, except_bind_eq_ok, except_pure_eq_ok, except_ite_eq_ok,
      Except.ok.injEq] at hnext
    obtain ⟨tags, ⟨_, hmask⟩ | ⟨_, rfl⟩, rfl⟩ := hnext
    · rw [LRU.setWaymask_spec hmask]
      exact ⟨h.ordered, h.past⟩
    · exact h

theorem inv_of_reachable (h : (machine cfg).Reachable s) : s.Inv := by
  refine h.invariant (fun s hstart => ?_) fun s input s' hinv hen _ hcall => ?_
  · obtain ⟨waymasks, rfl⟩ := hstart
    exact ⟨fun _ => List.pairwise_of_forall fun _ _ => nofun, fun _ _ => Nat.le_refl _⟩
  · have hcall : (s.next input).map (fun s => ((), s)) = .ok ((), s') := hcall
    cases hnext : s.next input with
    | error e => exact nomatch hnext ▸ hcall
    | ok t =>
      rw [hnext] at hcall
      cases hcall
      exact hinv.next hen hnext

/-- What the search finds in a set that is in order. -/
theorem Inv.victim (h : s.Inv) {mask : BitVec 64} (hassoc : cfg.assoc < 32)
    (hmask : ∃ w, w < cfg.assoc ∧ mask.getLsbD w = true) :
    s.RightVictim set mask (s.tags.victim set mask) := by
  have hallowed (w : Fin cfg.assoc) : wayAllowed mask w = mask.getLsbD w :=
    PartitionLemmas.wayAllowed_of_lt (by omega)
  obtain ⟨u, hu, hbit⟩ := hmask
  have hmem (w : Fin cfg.assoc) : w ∈ (s.tags.sets set).blks.reverse :=
    List.mem_reverse.mpr ((s.tags.sets set).mem w)
  have hsome : ∃ w ∈ (s.tags.sets set).blks.reverse, wayAllowed mask w = true :=
    ⟨⟨u, hu⟩, hmem _, (hallowed ⟨u, hu⟩).trans hbit⟩
  have hfirst := scanVictim_first (R := fun w v => s.Before set v w)
    (List.pairwise_reverse.mpr (h.ordered set)) hsome ⟨0, cfg.assoc_pos⟩
  refine ⟨(hallowed _).symm.trans (scanVictim_allowed hsome _), fun hvalid v hv => ?_⟩
  have hv' : wayAllowed mask v = true := (hallowed v).trans hv
  by_cases hne : v = s.tags.victim set mask
  · exact ⟨hne ▸ hvalid, fun hnot => absurd hne hnot⟩
  · obtain ⟨hvalid', hlast⟩ := hfirst v (hmem v) hv' hne hvalid
    exact ⟨hvalid', fun _ => hlast⟩

theorem Inv.replaces (h : s.Inv) (hassoc : cfg.assoc < 32) : s.Replaces := by
  intro guest addr mask hmask hbits
  refine ⟨s.tags.victim (cfg.extractSet addr) mask, ?_, h.victim hassoc hbits⟩
  have hne : (mask != 0) = true := by
    obtain ⟨w, _, hbit⟩ := hbits
    refine bne_iff_ne.mpr ?_
    rintro rfl
    simp at hbit
  simp only [LRU.findVictim, LRU.waymask, hmask, except_bind_eq_ok, assert_eq_ok, except_pure_eq_ok]
  exact ⟨mask, rfl, (), hne, rfl⟩

end LruRun

/-- A mask for way 0, with a bit in the upper half that no way of a cache with 32 ways has. -/
def wideMask : BitVec 64 := 0x10000000001

/-- With 32 ways or more the first victim is in none of the two ways of this mask. -/
theorem wideMask_victim (hassoc : 32 ≤ cfg.assoc) (waymasks : List (BitVec 64)) (set : Nat) :
    wideMask.getLsbD ((LRU.initial cfg waymasks).victim set wideMask) = false := by
  have h31 : 31 < cfg.assoc := hassoc
  have hallows : wayAllowed wideMask 31 = true := by decide
  have hmem : (⟨31, h31⟩ : Fin cfg.assoc) ∈ (List.finRange cfg.assoc).reverse :=
    List.mem_reverse.mpr (List.mem_finRange _)
  have hsome : ∃ w ∈ (List.finRange cfg.assoc).reverse,
      (fun w : Fin cfg.assoc => wayAllowed wideMask w) w = true := ⟨⟨31, h31⟩, hmem, hallows⟩
  have hsorted : (List.finRange cfg.assoc).reverse.Pairwise (fun w v => v < w) :=
    List.pairwise_reverse.mpr (List.pairwise_lt_finRange _)
  have hallowed := scanVictim_allowed hsome ⟨0, cfg.assoc_pos⟩
  have hfirst := scanVictim_first hsorted hsome ⟨0, cfg.assoc_pos⟩ ⟨31, h31⟩ hmem hallows
  change wayAllowed wideMask ((LRU.initial cfg waymasks).victim set wideMask) = true at hallowed
  change _ ≠ (LRU.initial cfg waymasks).victim set wideMask →
    _ < (LRU.initial cfg waymasks).victim set wideMask at hfirst
  generalize (LRU.initial cfg waymasks).victim set wideMask = w at hallowed hfirst ⊢
  have hge : 31 ≤ w.val := by
    by_cases heq : (⟨31, h31⟩ : Fin cfg.assoc) = w
    · exact heq ▸ Nat.le_refl _
    · exact Nat.le_of_lt (hfirst heq)
  by_contra hbit
  -- above way 30 the mask has bit 40 only, and the test of way 40 is one of bit 8
  have hall : ∀ n, 31 ≤ n → n < 64 → wideMask.getLsbD n = true → n = 40 := by decide
  have hbit : wideMask.getLsbD w = true := Bool.not_eq_false _ ▸ hbit
  have hlt : w.val < 64 := BitVec.lt_of_getLsbD hbit
  rw [hall w hge hlt hbit] at hallowed
  exact absurd hallowed (by decide)

/-- In every run of the tag store the sets are in order and every victim is the right one, exactly
if the cache has fewer than 32 ways. -/
theorem lru_replacement_iff (cfg : CacheConfig) :
    (∀ s : LruRun cfg, (LruRun.machine cfg).Reachable s → s.Ordered ∧ s.Replaces) ↔
      cfg.assoc < 32 := by
  refine ⟨fun h => ?_, fun hassoc s hs => ?_⟩
  · by_contra hassoc
    have hassoc : 32 ≤ cfg.assoc := Nat.not_lt.mp hassoc
    obtain ⟨w, hfind, hright, -⟩ := (h { tags := LRU.initial cfg [wideMask] }
      (.startup ⟨_, rfl⟩)).2 0 0 wideMask rfl ⟨0, cfg.assoc_pos, by decide⟩
    rw [(LRU.findVictim_spec hfind).2.2, wideMask_victim hassoc] at hright
    cases hright
  · have hinv := LruRun.inv_of_reachable hs
    exact ⟨hinv.ordered, hinv.replaces hassoc⟩

def thirtyTwoWays : CacheConfig :=
  { CacheConfig.oneBlock with assoc := 31 + 1, assoc_pos := Nat.succ_pos 31 }

/-- The mask allows way 0, which is free, and the victim is in way 31. -/
theorem way_31_takes_upper_half :
    (LRU.initial thirtyTwoWays [wideMask]).findVictim 0 0 = .ok (wideMask, ⟨31, by decide⟩) ∧
      wideMask.getLsbD 0 = true ∧ wideMask.getLsbD 31 = false ∧
      ¬ ({ tags := LRU.initial thirtyTwoWays [wideMask] } : LruRun thirtyTwoWays).Replaces := by
  have hfind : (LRU.initial thirtyTwoWays [wideMask]).findVictim 0 0 =
      .ok (wideMask, ⟨31, by decide⟩) := by rfl
  refine ⟨hfind, by decide, by decide, fun h => ?_⟩
  obtain ⟨w, hw, hright, -⟩ := h 0 0 wideMask rfl ⟨0, by decide, by decide⟩
  have heq : w = ⟨31, by decide⟩ := by
    have hsame := Except.ok.inj (hw.symm.trans hfind)
    exact (Prod.mk.inj hsame).2
  rw [heq] at hright
  exact absurd hright (by decide)

end PardG5V
