import PardG5V.Cache.CachePath

/-!
# The capacity register

`computeStats` and `get` of `hyper/mem/cache/tags/lru.cc`. The control plane reads at destination
8 how many blocks the cache holds for a logical domain. `computeStats` counts the valid blocks; it
clears the occupancies of the tasks first, but not the capacities of the guests, for which
`regStats` makes four entries. Ages are left out.

Results: `capacity_readout_iff`, `second_readout_doubles`.
-/

namespace PardG5V

open Prog

variable {cfg : CacheConfig}

def numTaskId : Nat := 1025

/-- The statistics of `BaseTags` that `computeStats` counts into. -/
structure TagStats where
  occupanciesTaskId : List Nat
  guestCapacity : List Nat
deriving DecidableEq, Repr

def TagStats.initial : TagStats where
  occupanciesTaskId := List.replicate numTaskId 0
  guestCapacity := List.replicate 4 0

/-- `stat[i]++`, which asserts that the statistic has the entry. -/
def bump (stat : List Nat) (i : Nat) : Except Abort (List Nat) := do
  assert (i < stat.length)
  return stat.modify i (· + 1)

namespace TagStats

def countBlk (stats : TagStats) (blk : CacheBlk) : Except Abort TagStats :=
  if blk.isValid then do
    assert (blk.taskId < numTaskId)
    let occupancies ← bump stats.occupanciesTaskId blk.taskId
    let capacities ← bump stats.guestCapacity blk.guestID.toNat
    return ⟨occupancies, capacities⟩
  else .ok stats

end TagStats

namespace LRU

def allBlks (tags : LRU cfg) : List CacheBlk :=
  (List.range (2 ^ cfg.setBits)).flatMap fun set => (List.finRange cfg.assoc).map (tags.blks set)

def computeStats (tags : LRU cfg) (stats : TagStats) : Except Abort TagStats :=
  tags.allBlks.foldlM TagStats.countBlk
    { stats with occupanciesTaskId := List.replicate numTaskId 0 }

/-- `get(ldomID, destAddr)`: the way mask, the capacity and two counters that are constants. The
capacities are doubles, so that for a domain without an entry the source converts -1.0 to an
unsigned number; g++ makes that 0. -/
def get (tags : LRU cfg) (stats : TagStats) (ldomID : LDomID) (destAddr : BitVec 32) :
    Except Abort (BitVec 64 × TagStats) :=
  if destAddr = 0 then .ok ((tags.waymasks[ldomID.toNat]?).getD (-1), stats)
  else if destAddr = 8 then do
    let stats ← tags.computeStats stats
    return (((stats.guestCapacity[ldomID.toNat]?).map (BitVec.ofNat 64)).getD 0, stats)
  else if destAddr = 16 then .ok (44, stats)
  else if destAddr = 24 then .ok (88, stats)
  else .ok (0, stats)

def capacity (tags : LRU cfg) (guest : GuestID) : Nat :=
  tags.allBlks.countP fun blk => blk.isValid && blk.guestID == guest

end LRU

/-- The calls that can count: a read by the control plane, and the dump of the
statistics. -/
inductive StatsCall
  | get (ldomID : LDomID) (destAddr : BitVec 32)
  | computeStats
deriving DecidableEq, Repr

namespace StatsCall

def run (tags : LRU cfg) : StatsCall → TagStats → Except Abort TagStats
  | .get ldomID destAddr, stats => do
    let (_, stats) ← tags.get stats ldomID destAddr
    return stats
  | .computeStats, stats => tags.computeStats stats

def counts : StatsCall → Bool
  | .get _ destAddr => destAddr == 8
  | .computeStats => true

/-- A history: each call with the tag store as the fills and evictions before it left
it. -/
def runAll (history : List (LRU cfg × StatsCall)) (stats : TagStats) : Except Abort TagStats :=
  history.foldlM (fun stats call => call.2.run call.1 stats) stats

def counted (history : List (LRU cfg × StatsCall)) (guest : GuestID) : Nat :=
  (history.map fun call => if call.2.counts then call.1.capacity guest else 0).sum

end StatsCall

/-- The statistics have an entry for the task and for the guest of the block. -/
def CacheBlk.HasEntries (blk : CacheBlk) : Prop :=
  blk.isValid = true → blk.taskId < numTaskId ∧ blk.guestID.toNat < 4

namespace CapacityLemmas

variable {stats stats' : TagStats} {n : GuestID → Nat} {blk : CacheBlk} {blks : List CacheBlk}
  {history : List (LRU cfg × StatsCall)}

structure Sized (stats : TagStats) : Prop where
  tasks : stats.occupanciesTaskId.length = numTaskId
  guests : stats.guestCapacity.length = 4

theorem sized_initial : Sized .initial := ⟨List.length_replicate, List.length_replicate⟩

structure Adds (stats stats' : TagStats) (n : GuestID → Nat) : Prop where
  sized : Sized stats'
  capacity : ∀ guest : GuestID,
    stats'.guestCapacity[guest.toNat]? = (stats.guestCapacity[guest.toNat]?).map (· + n guest)
  absent : ∀ guest : GuestID, 4 ≤ guest.toNat → n guest = 0

theorem Adds.none (h : Sized stats) (hn : ∀ guest, n guest = 0) :
    Adds stats stats n := ⟨h, fun guest => by simp [hn], fun guest _ => hn guest⟩

theorem Adds.trans {stats₁ : TagStats} {m k : GuestID → Nat} (h₁ : Adds stats stats₁ m)
    (h₂ : Adds stats₁ stats' n) (hk : ∀ guest, k guest = m guest + n guest) :
    Adds stats stats' k := by
  refine ⟨h₂.sized, fun guest => ?_, fun guest hguest => ?_⟩
  · rw [h₂.capacity, h₁.capacity, Option.map_map, hk]
    exact congrArg (Option.map · _) (funext fun c => Nat.add_assoc c _ _)
  · rw [hk, h₁.absent guest hguest, h₂.absent guest hguest]

theorem bump_eq_ok {stat stat' : List Nat} {i : Nat} :
    bump stat i = .ok stat' ↔ i < stat.length ∧ stat.modify i (· + 1) = stat' := by
  simp only [bump, except_bind_eq_ok, except_pure_eq_ok, assert_eq_ok, decide_eq_true_eq,
    exists_and_left, exists_const]

theorem countBlk_eq_ok (hsized : Sized stats) :
    stats.countBlk blk = .ok stats' ↔ blk.HasEntries ∧ stats' = if blk.isValid then
        ⟨stats.occupanciesTaskId.modify blk.taskId (· + 1),
          stats.guestCapacity.modify blk.guestID.toNat (· + 1)⟩
      else stats := by
  unfold TagStats.countBlk CacheBlk.HasEntries
  cases hvalid : blk.isValid with
  | false => simp [eq_comm]
  | true =>
    simp only [if_true, except_bind_eq_ok, except_pure_eq_ok, assert_eq_ok, decide_eq_true_eq,
      bump_eq_ok, hsized.tasks, hsized.guests, true_implies]
    constructor
    · rintro ⟨_, htask, _, ⟨_, rfl⟩, _, ⟨hguest, rfl⟩, rfl⟩
      exact ⟨⟨htask, hguest⟩, rfl⟩
    · rintro ⟨⟨htask, hguest⟩, rfl⟩
      exact ⟨(), htask, _, ⟨htask, rfl⟩, _, ⟨hguest, rfl⟩, rfl⟩

theorem countBlk_spec (hsized : Sized stats) (h : stats.countBlk blk = .ok stats') :
    Adds stats stats' fun guest => if blk.isValid && blk.guestID == guest then 1 else 0 := by
  obtain ⟨hentry, rfl⟩ := (countBlk_eq_ok hsized).mp h
  cases hvalid : blk.isValid with
  | false => exact .none hsized fun _ => rfl
  | true =>
    refine ⟨⟨?_, ?_⟩, fun guest => ?_, fun guest hguest => ?_⟩
    · rw [if_pos rfl, List.length_modify]
      exact hsized.tasks
    · rw [if_pos rfl, List.length_modify]
      exact hsized.guests
    · rw [if_pos rfl, List.getElem?_modify, Bool.true_and]
      refine congrArg (Option.map · _) (funext fun n => ?_)
      by_cases heq : blk.guestID = guest
      · rw [if_pos (congrArg BitVec.toNat heq), if_pos (beq_iff_eq.mpr heq)]
      · rw [if_neg fun hnat => heq (BitVec.eq_of_toNat_eq hnat), if_neg (by simpa using heq)]
        rfl
    · have hne : blk.guestID ≠ guest := fun heq =>
        Nat.not_lt.mpr hguest (heq ▸ (hentry hvalid).2)
      simp [hne]

theorem countAll_spec (hsized : Sized stats)
    (h : blks.foldlM TagStats.countBlk stats = .ok stats') :
    Adds stats stats' fun guest => blks.countP fun blk => blk.isValid && blk.guestID == guest := by
  induction blks generalizing stats with
  | nil =>
    obtain rfl := Except.ok.inj h
    exact .none hsized fun _ => rfl
  | cons blk blks ih =>
    rw [List.foldlM_cons, except_bind_eq_ok] at h
    obtain ⟨stats₁, hone, hrest⟩ := h
    have hadds := countBlk_spec hsized hone
    exact hadds.trans (ih hadds.sized hrest) fun _ => List.countP_cons.trans (Nat.add_comm _ _)

/-- The loop ends normally exactly when the statistics have an entry for every block. -/
theorem countAll_ok_iff (hsized : Sized stats) :
    (∃ stats', blks.foldlM TagStats.countBlk stats = .ok stats') ↔
      ∀ blk ∈ blks, blk.HasEntries := by
  induction blks generalizing stats with
  | nil => exact ⟨fun _ blk hblk => absurd hblk List.not_mem_nil, fun _ => ⟨stats, rfl⟩⟩
  | cons blk blks ih =>
    simp only [List.foldlM_cons, except_bind_eq_ok, List.forall_mem_cons]
    constructor
    · rintro ⟨stats', stats₁, hone, hrest⟩
      exact ⟨((countBlk_eq_ok hsized).mp hone).1,
        (ih (countBlk_spec hsized hone).sized).mp ⟨stats', hrest⟩⟩
    · rintro ⟨hentry, hentries⟩
      have hone := (countBlk_eq_ok hsized).mpr ⟨hentry, rfl⟩
      obtain ⟨stats', hrest⟩ := (ih (countBlk_spec hsized hone).sized).mpr hentries
      exact ⟨stats', _, hone, hrest⟩

variable {tags : LRU cfg}

theorem sized_cleared (h : Sized stats) :
    Sized { stats with occupanciesTaskId := List.replicate numTaskId 0 } :=
  ⟨List.length_replicate, h.guests⟩

theorem computeStats_spec (hsized : Sized stats)
    (h : tags.computeStats stats = .ok stats') : Adds stats stats' tags.capacity := by
  have hcounted := countAll_spec (sized_cleared hsized) h
  exact ⟨hcounted.sized, hcounted.capacity, hcounted.absent⟩

theorem computeStats_ok_iff (hsized : Sized stats) :
    (∃ stats', tags.computeStats stats = .ok stats') ↔ ∀ blk ∈ tags.allBlks, blk.HasEntries :=
  countAll_ok_iff (sized_cleared hsized)

theorem get_eight (tags : LRU cfg) (stats : TagStats) (ldomID : LDomID) :
    tags.get stats ldomID 8 = (tags.computeStats stats).bind fun stats =>
      .ok (((stats.guestCapacity[ldomID.toNat]?).map (BitVec.ofNat 64)).getD 0, stats) := rfl

theorem get_spec {ldomID : LDomID} {destAddr : BitVec 32} {value : BitVec 64}
    (h : tags.get stats ldomID destAddr = .ok (value, stats')) :
    (destAddr = 8 ∧ tags.computeStats stats = .ok stats' ∧
        value = ((stats'.guestCapacity[ldomID.toNat]?).map (BitVec.ofNat 64)).getD 0) ∨
      destAddr ≠ 8 ∧ stats' = stats := by
  by_cases hdest : destAddr = 8
  · subst hdest
    rw [get_eight] at h
    obtain ⟨_, hcount, hret⟩ := except_bind_eq_ok.mp h
    obtain ⟨rfl, rfl⟩ := Prod.mk.inj (Except.ok.inj hret)
    exact .inl ⟨rfl, hcount, rfl⟩
  · refine .inr ⟨hdest, ?_⟩
    unfold LRU.get at h
    rw [if_neg hdest] at h
    split at h
    · exact (Prod.mk.inj (Except.ok.inj h)).2.symm
    · split at h
      · exact (Prod.mk.inj (Except.ok.inj h)).2.symm
      · split at h <;> exact (Prod.mk.inj (Except.ok.inj h)).2.symm

theorem run_spec {call : StatsCall} (hsized : Sized stats) (h : call.run tags stats = .ok stats') :
    Adds stats stats' fun guest => if call.counts then tags.capacity guest else 0 := by
  cases call with
  | get ldomID destAddr =>
    simp only [StatsCall.run, except_bind_eq_ok, except_pure_eq_ok] at h
    obtain ⟨⟨value, _⟩, hget, rfl⟩ := h
    rcases get_spec hget with ⟨rfl, hcount, _⟩ | ⟨hdest, rfl⟩
    · exact computeStats_spec hsized hcount
    · have hno : (StatsCall.get ldomID destAddr).counts = false := by
        simpa [StatsCall.counts] using hdest
      exact .none hsized fun _ => by simp [hno]
  | computeStats => exact computeStats_spec hsized h

theorem runAll_spec (hsized : Sized stats) (h : StatsCall.runAll history stats = .ok stats') :
    Adds stats stats' (StatsCall.counted history) := by
  induction history generalizing stats with
  | nil =>
    obtain rfl := Except.ok.inj h
    exact .none hsized fun _ => rfl
  | cons call history ih =>
    rw [StatsCall.runAll, List.foldlM_cons, except_bind_eq_ok] at h
    obtain ⟨stats₁, hone, hrest⟩ := h
    have hadds := run_spec hsized hone
    exact hadds.trans (ih hadds.sized hrest) fun _ => by simp [StatsCall.counted]

theorem ofNat_add_eq_iff (m n : Nat) :
    BitVec.ofNat 64 (m + n) = BitVec.ofNat 64 n ↔ m % 2 ^ 64 = 0 := by
  rw [← BitVec.toNat_inj, BitVec.toNat_ofNat, BitVec.toNat_ofNat]
  omega

/-- The register after a count. A domain without an entry has no blocks, as the loop would have
stopped at one. -/
theorem readout_eq (hrun : StatsCall.runAll history .initial = .ok stats)
    (h : tags.computeStats stats = .ok stats') (ldomID : LDomID) :
    ((stats'.guestCapacity[ldomID.toNat]?).map (BitVec.ofNat 64)).getD 0 =
      BitVec.ofNat 64 (StatsCall.counted history ldomID + tags.capacity ldomID) := by
  have hbefore := runAll_spec sized_initial hrun
  have hnow := computeStats_spec hbefore.sized h
  rw [hnow.capacity ldomID, hbefore.capacity ldomID]
  show (Option.map _ (Option.map _ (Option.map _ (List.replicate 4 0)[ldomID.toNat]?))).getD _ = _
  rw [List.getElem?_replicate]
  split
  · rw [Option.map_some, Option.map_some, Option.map_some, Option.getD_some, Nat.zero_add]
  · next hge => rw [hbefore.absent _ (not_lt.mp hge), hnow.absent _ (not_lt.mp hge)]; rfl

end CapacityLemmas

open CapacityLemmas

/-- After any reads and counts, the capacity register of a domain is the number of its valid blocks
exactly when the statistics have an entry for every valid block, and the history has counted none
of its blocks, or a multiple of the range. -/
theorem capacity_readout_iff {history : List (LRU cfg × StatsCall)} {stats : TagStats}
    (hrun : StatsCall.runAll history .initial = .ok stats) (tags : LRU cfg) (ldomID : LDomID) :
    (∃ stats', tags.get stats ldomID 8 = .ok (BitVec.ofNat 64 (tags.capacity ldomID), stats')) ↔
      (∀ blk ∈ tags.allBlks, blk.HasEntries) ∧ StatsCall.counted history ldomID % 2 ^ 64 = 0 := by
  have hsized := (runAll_spec sized_initial hrun).sized
  constructor
  · rintro ⟨stats', hget⟩
    rcases get_spec hget with ⟨_, hcount, hvalue⟩ | ⟨hdest, _⟩
    · rw [readout_eq hrun hcount] at hvalue
      exact ⟨(computeStats_ok_iff hsized).mp ⟨stats', hcount⟩,
        (ofNat_add_eq_iff _ _).mp hvalue.symm⟩
    · exact absurd rfl hdest
  · rintro ⟨hentries, hcounted⟩
    obtain ⟨stats', hcount⟩ := (computeStats_ok_iff hsized).mpr hentries
    refine ⟨stats', ?_⟩
    rw [get_eight, hcount, ← (ofNat_add_eq_iff _ _).mpr hcounted]
    show Except.ok (_, stats') = _
    rw [readout_eq hrun hcount]

/-! ## Concrete reads -/

theorem capacity_readout_iff_once : ∃ s : Cache .oneBlock, s.store.tags.capacity 1 = 1 ∧
    ∃ stats', s.store.tags.get .initial 1 8 =
      .ok (BitVec.ofNat 64 (s.store.tags.capacity 1), stats') := by
  obtain ⟨s, _, hone, hentries⟩ := Cache.exists_reachable
    (P := Input.Fits .oneBlock True fun _ => True) [0xFF, 0xFF] readMiss
    (fun s : Cache .oneBlock => s.store.tags.capacity 1 = 1 ∧
      ∀ blk ∈ s.store.tags.allBlks, blk.taskId < numTaskId ∧ blk.guestID.toNat < 4)
    (by decide) (by decide +kernel)
  have hrun : StatsCall.runAll ([] : List (LRU .oneBlock × StatsCall)) .initial =
      .ok .initial := rfl
  refine ⟨s, hone, (capacity_readout_iff hrun s.store.tags 1).mpr ⟨?_, rfl⟩⟩
  exact fun blk hblk _ => hentries blk hblk

def LRU.readsTwice (tags : LRU cfg) (first second : BitVec 64) : Bool :=
  match tags.get .initial 1 8 with
  | .error _ => false
  | .ok (value, stats) =>
    match tags.get stats 1 8 with
    | .error _ => false
    | .ok (value', _) => value == first && value' == second

/-- Reading the register a second time, with nothing in between, doubles it. -/
theorem second_readout_doubles : ∃ s : Cache .oneBlock,
    Cache.Reachable (Input.Fits .oneBlock True fun _ => True) s ∧
    s.store.tags.capacity 1 = 1 ∧ s.store.tags.readsTwice 1 2 = true :=
  Cache.exists_reachable [0xFF, 0xFF] readMiss
    (fun s : Cache .oneBlock => s.store.tags.capacity 1 = 1 ∧
      s.store.tags.readsTwice 1 2 = true) (by decide) (by decide +kernel)

end PardG5V
