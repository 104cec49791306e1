import PardG5V.Cache.CachePath

/-!
# Way partitioning

`findVictim` scans a set from its least recent block for a way that the guest's mask allows. Every
choice of a victim and every insertion of a run is in the log with the mask that was in force.

Results: `way_partition`, `victim_in_mask_iff`, `fill_outside_mask`.
-/

namespace PardG5V

/-- The mask allows a way of the cache, and it has the bit of every way that the
test of `findVictim` takes for allowed. -/
def MaskUsable (assoc : Nat) (mask : BitVec 64) : Prop :=
  (∃ w, w < assoc ∧ wayAllowed mask w = true) ∧
    ∀ w, w < assoc → wayAllowed mask w = true → mask.getLsbD w = true

variable {mask : BitVec 64}

namespace PartitionLemmas

/-- Up to way 30 the shift of the source gives the bit of the way. -/
theorem shift_eq_twoPow : ∀ w, w < 31 → (1#32 <<< (w % 32)).signExtend 64 = BitVec.twoPow 64 w := by
  decide

theorem wayAllowed_of_lt {w : Nat} (h : w < 31) : wayAllowed mask w = mask.getLsbD w := by
  unfold wayAllowed
  rw [shift_eq_twoPow w h, BitVec.and_comm, BitVec.and_twoPow]
  cases hbit : mask.getLsbD w with
  | false => rfl
  | true =>
    have hne : BitVec.twoPow 64 w ≠ 0 := by
      intro hzero
      have hset := congrArg (BitVec.getLsbD · w) hzero
      simp [show w < 64 by omega] at hset
    simpa using hne

end PartitionLemmas

open PartitionLemmas

theorem maskUsable_of_assoc_lt {assoc : Nat} (hassoc : assoc < 32) :
    MaskUsable assoc mask ↔ ∃ w, w < assoc ∧ mask.getLsbD w = true := by
  constructor
  · rintro ⟨⟨w, hw, hallowed⟩, hbits⟩
    exact ⟨w, hw, hbits w hw hallowed⟩
  · rintro ⟨w, hw, hbit⟩
    refine ⟨⟨w, hw, ?_⟩, fun v hv hallowed => ?_⟩
    · rw [wayAllowed_of_lt (by omega)]
      exact hbit
    · rw [← wayAllowed_of_lt (by omega)]
      exact hallowed

variable {cfg : CacheConfig}

theorem victim_in_mask (h : MaskUsable cfg.assoc mask)
    (tags : LRU cfg) (set : Nat) : mask.getLsbD (tags.victim set mask) = true := by
  obtain ⟨⟨w, hw, hallowed⟩, hbits⟩ := h
  have hsome : ∃ v ∈ (tags.sets set).blks.reverse, (fun v : Fin _ => wayAllowed mask v) v = true :=
    ⟨⟨w, hw⟩, List.mem_reverse.mpr ((tags.sets set).mem ⟨w, hw⟩), hallowed⟩
  have hvictim : wayAllowed mask (tags.victim set mask) = true :=
    scanVictim_allowed hsome ⟨0, cfg.assoc_pos⟩
  exact hbits _ (tags.victim set mask).isLt hvictim

theorem scanVictim_append {α : Type} {allowed : α → Bool} (hno : ∀ w, allowed w = false)
    (last w : α) (l : List α) : scanVictim allowed last (l ++ [w]) = w := by
  induction l generalizing last with
  | nil =>
    rw [List.nil_append, scanVictim, hno, if_neg Bool.false_ne_true, scanVictim]
  | cons x xs ih =>
    rw [List.cons_append, scanVictim, hno, if_neg Bool.false_ne_true]
    exact ih x

theorem victim_moveToHead
    (hno : ∀ w : Fin cfg.assoc, wayAllowed mask w = false) {tags : LRU cfg} {set : Nat}
    {order : CacheSet cfg.assoc} {w : Fin cfg.assoc} :
    (tags.setOrder set (order.moveToHead w)).victim set mask = w := by
  unfold LRU.victim LRU.setOrder CacheSet.moveToHead
  simp only [if_true]
  rw [Recency.moveToHead_eq (order.mem w), List.reverse_cons]
  exact scanVictim_append hno _ _ _

theorem victim_moveToTail {tags : LRU cfg} {set : Nat}
    {order : CacheSet cfg.assoc} {w : Fin cfg.assoc} (hallowed : wayAllowed mask w = true) :
    (tags.setOrder set (order.moveToTail w)).victim set mask = w := by
  unfold LRU.victim LRU.setOrder CacheSet.moveToTail Recency.moveToTail
  simp only [if_true, List.reverse_reverse]
  rw [Recency.moveToHead_eq (List.mem_reverse.mpr (order.mem w)), scanVictim, hallowed, if_pos rfl]

/-- A usable mask is one that confines the victim for every recency order. With fewer than 32 ways
that is one with a way of the cache. -/
theorem victim_in_mask_iff (cfg : CacheConfig) (mask : BitVec 64) :
    ((∀ (tags : LRU cfg) (set : Nat), mask.getLsbD (tags.victim set mask) = true) ↔
      MaskUsable cfg.assoc mask) ∧
    (cfg.assoc < 32 → (MaskUsable cfg.assoc mask ↔
      ∃ w, w < cfg.assoc ∧ mask.getLsbD w = true)) := by
  refine ⟨⟨fun h => ⟨?_, fun w hw hallowed => ?_⟩, fun h tags set => victim_in_mask h tags set⟩,
    maskUsable_of_assoc_lt⟩
  · -- otherwise the search runs through the set, and any way can be the last one
    by_contra hnone
    have hno : ∀ w : Fin cfg.assoc, wayAllowed mask w = false := fun w =>
      Bool.eq_false_iff.mpr fun hw => hnone ⟨w, w.isLt, hw⟩
    have hbit := h ((LRU.initial cfg []).setOrder 0
      ((CacheSet.initial cfg.assoc).moveToHead ⟨0, cfg.assoc_pos⟩)) 0
    rw [victim_moveToHead hno, ← wayAllowed_of_lt (w := 0) (by omega)] at hbit
    exact Bool.noConfusion ((hno ⟨0, cfg.assoc_pos⟩).symm.trans hbit)
  · have hbit := h ((LRU.initial cfg []).setOrder 0
      ((CacheSet.initial cfg.assoc).moveToTail ⟨w, hw⟩)) 0
    rw [victim_moveToTail (w := ⟨w, hw⟩) hallowed] at hbit
    exact hbit

/-- A victim or an insertion under a usable mask is in a way of the mask. -/
def Event.InMask (assoc : Nat) : Event → Prop
  | .victim _ mask _ way => MaskUsable assoc mask → mask.getLsbD way = true
  | .insert _ mask _ way => MaskUsable assoc mask → mask.getLsbD way = true
  | _ => True

theorem NewEvent.inMask {wf : Prop} {G : GuestID → Prop} {s : Store cfg}
    {e : Event} (h : NewEvent wf G s e) : e.InMask cfg.assoc := by
  cases h with
  | plain he =>
    cases e with
    | victim | insert | allocated | change => exact Bool.noConfusion he
    | _ => trivial
  | victim hvictim | insert hvictim =>
    intro husable
    rw [(LRU.findVictim_spec hvictim).2.2]
    exact victim_in_mask husable _ _
  | allocated | change | gone | replaced => trivial

/-- In every run, every victim and every insertion under a usable mask is in a way
of the mask. -/
theorem way_partition {cfg : CacheConfig} (P : Input → Prop) {s : Cache cfg}
    (h : Cache.Reachable P s) : ∀ e ∈ s.store.log, e.InMask cfg.assoc := by
  obtain ⟨waymasks, hpath⟩ := h.path
  refine (MicroSteps.log_forall (I := fun _ => True) (fun _ _ _ _ => trivial)
    (fun _ _ _ hnew => hnew.inMask) hpath trivial ?_).2
  intro e he
  exact absurd he List.not_mem_nil

def CacheConfig.twoWays : CacheConfig :=
  { CacheConfig.oneBlock with assoc := 2, assoc_pos := by decide }

/-- The mask leaves out the least recent way. -/
theorem way_partition_readMiss : ∃ s : Cache .twoWays,
    ((LRU.initial .twoWays [0, 0b01]).sets 0).blks.getLast?.map Fin.val = some 1 ∧
    Event.victim 1 0b01 0 0 ∈ s.store.log ∧ Event.insert 1 0b01 0 0 ∈ s.store.log ∧
    ∀ e ∈ s.store.log, e.InMask 2 := by
  obtain ⟨s, hs, hvictim, hinsert⟩ := Cache.exists_reachable (P := fun _ => True)
    [0, 0b01] readMiss (fun s : Cache .twoWays =>
      Event.victim 1 0b01 0 0 ∈ s.store.log ∧ Event.insert 1 0b01 0 0 ∈ s.store.log)
    (fun _ _ => trivial) (by decide +kernel)
  exact ⟨s, rfl, hvictim, hinsert, way_partition _ hs⟩

/-- A guest whose mask has no way of the cache replaces a block all the same. -/
theorem fill_outside_mask : ∃ s : Cache .oneBlock, Cache.Reachable (fun _ => True) s ∧
    Event.victim 1 0b10 0 0 ∈ s.store.log ∧ Event.insert 1 0b10 0 0 ∈ s.store.log := by
  exact Cache.exists_reachable [0, 0b10] readMiss
    (fun s : Cache .oneBlock =>
      Event.victim 1 0b10 0 0 ∈ s.store.log ∧ Event.insert 1 0b10 0 0 ∈ s.store.log)
    (fun _ _ => trivial) (by decide +kernel)

end PardG5V
