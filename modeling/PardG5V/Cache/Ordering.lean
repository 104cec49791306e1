import PardG5V.Cache.RunInv
import PardG5V.Cache.TargetInv

/-!
# Misses and pending writes

`getNextMSHR` picks the next register to issue from the miss queue and the write buffer. It looks
for conflicts by address only: of a write that is buffered while an overlapping miss still waits,
and that miss, either may be issued first.

Results: `issue_order`, `rerequest_overtakes_writeback`, `findPending_iff`, `outstanding_register`.
-/

namespace PardG5V

open RegLemmas

variable {cfg : CacheConfig} {wf : Prop} {G : GuestID → Prop} {L : Event → Prop}

/-- Two registers are for the same guest and security and have a byte in common. -/
def MSHR.Overlaps (m w : MSHR) : Prop :=
  m.guest = w.guest ∧ m.isSecure = w.isSecure ∧ ∃ a : Nat,
    (m.addr.toNat ≤ a ∧ a < m.addr.toNat + m.size) ∧ w.addr.toNat ≤ a ∧ a < w.addr.toNat + w.size

/-- The test for overlaps that `allocateWriteBuffer` logs. -/
def MSHR.Meets (w m : MSHR) : Prop :=
  CacheM.meets m w.guest w.addr w.size w.isSecure = true

/-- The miss comes after the write: it was allocated later and is ready no earlier, and
so is every request that will repeat it. -/
structure MSHR.Behind (w m : MSHR) : Prop where
  issue : m.inService = false → w.order < m.order ∧ w.readyTime ≤ m.readyTime
  again : m.inService = true → ∀ t ∈ m.deferredTargets.targets,
    w.order < t.order ∧ w.readyTime ≤ t.readyTime

structure Regs.Ordered (cfg : CacheConfig) (r : Regs) : Prop where
  bounds : ∀ w ∈ r.writeBuffer.allocatedList, (r.writeBuffer.registers w).inService = false →
    (r.writeBuffer.registers w).order < r.order ∧
      (r.writeBuffer.registers w).readyTime ≤ cfg.clockEdge r.curTick cfg.hitLatency
  undeferred : ∀ w, (r.writeBuffer.registers w).deferredTargets.targets = []
  behind : ∀ w ∈ r.writeBuffer.allocatedList, (r.writeBuffer.registers w).inService = false →
    ∀ i ∈ r.mshrQueue.allocatedList,
      (r.writeBuffer.registers w).Meets (r.mshrQueue.registers i) →
      (r.writeBuffer.registers w).Behind (r.mshrQueue.registers i)

theorem ordered_initial (cfg : CacheConfig) (waymasks : List (BitVec 64)) :
    (Cache.initial cfg waymasks).regs.Ordered cfg where
  bounds _ hw := absurd hw List.not_mem_nil
  undeferred _ := rfl
  behind _ hw := absurd hw List.not_mem_nil

namespace OrderingLemmas

variable {m m' : MSHR}

/-! ### Overlaps -/

theorem meets_iff {w : MSHR} : w.Meets m ↔ m.guest = w.guest ∧ m.isSecure = w.isSecure ∧
    m.addr.toNat < w.addr.toNat + w.size ∧ w.addr.toNat < m.addr.toNat + m.size := by
  simp only [MSHR.Meets, CacheM.meets, Bool.and_eq_true, beq_iff_eq, decide_eq_true_eq, and_assoc]

theorem meets_of_overlaps {w : MSHR} (h : m.Overlaps w) : w.Meets m := by
  obtain ⟨hguest, hsecure, a, ⟨hm, hm'⟩, hw, hw'⟩ := h
  exact meets_iff.mpr ⟨hguest, hsecure, by omega, by omega⟩

theorem toNat_add_size (h : m.addr.toNat + m.size < 2 ^ 64) :
    (m.addr + BitVec.ofNat 64 m.size).toNat = m.addr.toNat + m.size := by
  rw [BitVec.toNat_add, BitVec.toNat_ofNat]
  omega

theorem meets_comm {w : MSHR} : w.Meets m ↔ m.Meets w := by
  rw [meets_iff, meets_iff, eq_comm, eq_comm (a := m.isSecure), and_comm (a := m.addr.toNat < _)]

/-- `findPending` sees exactly the overlaps of registers that end below the top of the
address space, unless the register it looks at is empty. -/
theorem isPending_iff {w : MSHR} (hm : m.addr.toNat + m.size < 2 ^ 64)
    (hw : w.addr.toNat + w.size < 2 ^ 64) (hsize : 0 < m.size) :
    MSHRQueue.isPending m w.guest w.addr w.size w.isSecure = true ↔ w.Meets m := by
  rw [meets_iff, MSHRQueue.isPending]
  simp only [Bool.and_eq_true, beq_iff_eq, and_assoc]
  refine and_congr_right fun _ => and_congr_right fun _ => ?_
  split
  · next hlt =>
    rw [decide_eq_true_eq, BitVec.lt_def, toNat_add_size hm]
    have hlt' : m.addr.toNat < w.addr.toNat := hlt
    omega
  · next hge =>
    rw [decide_eq_true_eq, BitVec.lt_def, toNat_add_size hw]
    have hge' : w.addr.toNat ≤ m.addr.toNat := BitVec.not_lt.mp hge
    omega

theorem size_pos_of_overlaps {w : MSHR} (h : m.Overlaps w) : 0 < m.size ∧ 0 < w.size := by
  obtain ⟨_, _, a, _, _⟩ := h
  omega

/-! ### The steps -/

variable {r r' : Regs} {q mq : MSHRQueue} {i : Nat}

theorem allocatedList_deallocate (h : (q.setReg i m).deallocate i = .ok mq) :
    mq.allocatedList ⊆ q.allocatedList := by
  obtain ⟨_, _, _, hlist, _⟩ := MSHRQueue.QueueLemmas.deallocate_cases h
  rw [hlist]
  exact List.erase_subset

theorem allocatedList_markInService {pkt : Packet} (h : q.markInService i pkt = .ok mq) :
    mq.allocatedList ⊆ q.allocatedList := by
  obtain ⟨_, ⟨_, hdone⟩ | ⟨_, rfl⟩⟩ := MSHRQueue.QueueLemmas.markInService_cases h
  · exact allocatedList_deallocate hdone
  · exact List.Subset.refl _

theorem allocatedList_completes {now : Tick} (h : Completes q i now mq) :
    mq.allocatedList ⊆ q.allocatedList := by
  cases h with
  | promoted _ _ hpending =>
    obtain ⟨_, rfl⟩ := MSHRQueue.QueueLemmas.markPending_cases hpending
    exact List.Subset.refl _
  | freed _ _ hfree => exact allocatedList_deallocate hfree

theorem allocatedList_setQueue {k : QueueIndex} (h : mq.allocatedList ⊆ (r.queue k).allocatedList) :
    (r.setQueue k mq).writeBuffer.allocatedList ⊆ r.writeBuffer.allocatedList := by
  cases k with
  | mshrs => exact List.Subset.refl _
  | writeBuffer => exact h

theorem buffered_clear (h : RegStep cfg wf G L r r') (hclash : ∀ pkt, ¬ L (.buffered pkt true))
    {w : Nat} (hw : w ∈ r'.writeBuffer.allocatedList) (hnew : w ∉ r.writeBuffer.allocatedList)
    (hi : i ∈ r.mshrQueue.allocatedList)
    (hmeets : (r'.writeBuffer.registers w).Meets (r.mshrQueue.registers i)) :
    (r.mshrQueue.registers i).inService = true ∧
      (r.mshrQueue.registers i).deferredTargets.targets = [] := by
  cases h with
  | @buffer pkt j mq hpkt hlog halloc =>
    obtain ⟨free, m, _, _, hm, rfl⟩ := MSHRQueue.QueueLemmas.allocate_cases halloc
    obtain ⟨hguest, haddr, hsize, hsecure, _⟩ := allocate_spec hm
    rcases List.mem_append.mp hw with hw | hw
    · exact absurd hw hnew
    obtain rfl := List.mem_singleton.mp hw
    have hclear : CacheM.standsInWay (r.mshrQueue.registers i) pkt.guestID pkt.addr pkt.size
        pkt.isSecure = false := by
      by_contra hstands
      refine hclash pkt ?_
      rwa [List.any_eq_true.mpr ⟨i, hi, Bool.eq_true_of_not_eq_false hstands⟩] at hlog
    have hreg : (r.writeBuffer.setReg w m).registers w = m := by
      rw [MSHRQueue.registers_setReg, if_pos rfl]
    have hmeets' : m.Meets (r.mshrQueue.registers i) := hreg ▸ hmeets
    rw [MSHR.Meets, hguest, haddr, hsize, hsecure] at hmeets'
    rw [CacheM.standsInWay, hmeets', Bool.true_and, Bool.or_eq_false_iff] at hclear
    exact ⟨by simpa using hclear.1, by simpa using hclear.2⟩
  | miss | join | snoop | share => exact absurd hw hnew
  | mark =>
    refine absurd (allocatedList_setQueue ?_ hw) hnew
    exact fun _ hj => hj
  | serviced _ hmark | issued _ hmark =>
    exact absurd (allocatedList_setQueue (allocatedList_markInService hmark) hw) hnew
  | completed _ hdone =>
    exact absurd (allocatedList_setQueue (allocatedList_completes hdone) hw) hnew

/-! ### The order is kept -/

theorem behind_of_replaced {w : MSHR} (hentry : m.SameEntry m')
    (hservice : m'.inService = m.inService)
    (hdeferred : ∀ t' ∈ m'.deferredTargets.targets,
      (∃ t ∈ m.deferredTargets.targets, t'.order = t.order ∧ t'.readyTime = t.readyTime) ∨
        w.order < t'.order ∧ w.readyTime ≤ t'.readyTime)
    (h : w.Behind m) : w.Behind m' where
  issue hidle := by
    rw [hentry.order, hentry.readyTime]
    exact h.issue (hservice ▸ hidle)
  again hbusy t' ht' := by
    rcases hdeferred t' ht' with ⟨t, ht, horder, hready⟩ | hlater
    · rw [horder, hready]
      exact h.again (hservice ▸ hbusy) t ht
    · exact hlater

/-- What a step does to a miss keeps it behind an older write. -/
theorem behind_of_change {w : MSHR} (h : RegChange cfg wf G r .mshrs m m')
    (hidle : m.inService = false → m.deferredTargets.targets = [])
    (hsome : m'.targets.targets ≠ [])
    (hbounds : w.order < r.order ∧ w.readyTime ≤ cfg.clockEdge r.curTick cfg.hitLatency)
    (hw : w.Behind m) : w.Behind m' := by
  cases h with
  | joined _ _ _ htarget =>
    obtain ⟨hentry, hservice, t, _, _, horder, hready, hcases⟩ := allocateTarget_spec htarget
    refine behind_of_replaced hentry hservice (fun t' ht' => ?_) hw
    rcases hcases with ⟨_, hdeferred⟩ | ⟨_, _, hdeferred⟩
    · exact .inl ⟨t', hdeferred ▸ ht', rfl, rfl⟩
    · rw [hdeferred] at ht'
      rcases List.mem_append.mp ht' with ht' | ht'
      · exact .inl ⟨t', ht', rfl, rfl⟩
      · rw [List.mem_singleton.mp ht', horder, hready]
        exact .inr hbounds
  | @snooped pkt =>
    obtain ⟨hentry, hservice, _, hdeferred⟩ := handleSnoop_spec m pkt r.curTick r.order
    refine behind_of_replaced hentry hservice (fun t' ht' => ?_) hw
    obtain ⟨t, ht, rfl | rfl⟩ := hdeferred t' ht'
    · exact .inl ⟨t', ht, rfl, rfl⟩
    · exact .inl ⟨t, ht, rfl, rfl⟩
  | shared | marked => exact ⟨hw.issue, hw.again⟩
  | popped _ _ hfree | freed _ _ hfree => exact absurd (deallocate_spec hfree).2.2.2.1 hsome
  | serviced hnot =>
    refine ⟨nofun, fun _ t ht => ?_⟩
    have ht' : t ∈ m.deferredTargets.targets := ht
    rw [hidle hnot] at ht'
    exact absurd ht' List.not_mem_nil
  | @promoted filled m' hfill hpromote =>
    obtain ⟨t, ts, hts, _, _, horder, hready, _⟩ := promoteDeferredTargets_some hpromote
    have ht : t ∈ m.deferredTargets.targets := by
      refine (filled_spec hfill).2.2 t ?_
      rw [show filled.deferredTargets.targets = t :: ts from hts]
      exact List.mem_cons_self
    have hbusy : m.inService = true := by
      by_contra hno
      rw [hidle (Bool.eq_false_of_not_eq_true hno)] at ht
      exact List.not_mem_nil ht
    obtain ⟨hlt, hle⟩ := hw.again hbusy t ht
    refine ⟨fun _ => ?_, nofun⟩
    show w.order < m'.order ∧ w.readyTime ≤ m'.readyTime
    rw [horder, hready]
    exact ⟨hlt, hle.trans (le_max_right _ _)⟩

/-- What a step does to a write that still waits afterwards. -/
theorem write_of_change (h : RegChange cfg wf G r .writeBuffer m m')
    (hplain : m.deferredTargets.targets = []) :
    m'.deferredTargets.targets = [] ∧ (m'.inService = false → m'.targets.targets ≠ [] →
      m.inService = false ∧ m.SameEntry m') := by
  cases h with
  | joined hq | snooped hq => exact nomatch hq
  | shared | marked => exact ⟨hplain, fun hidle _ => ⟨hidle, ⟨rfl, rfl, rfl, rfl, rfl, rfl⟩⟩⟩
  | popped _ _ hfree =>
    obtain ⟨_, _, _, hempty, hdeferred⟩ := deallocate_spec hfree
    exact ⟨(congrArg TargetList.targets hdeferred).trans hplain, fun _ hsome => absurd hempty hsome⟩
  | serviced => exact ⟨hplain, fun hidle => Bool.noConfusion hidle⟩
  | @promoted filled m' hfill hpromote =>
    obtain ⟨t, ts, hts, _⟩ := promoteDeferredTargets_some hpromote
    have ht : t ∈ m.deferredTargets.targets := by
      refine (filled_spec hfill).2.2 t ?_
      rw [show filled.deferredTargets.targets = t :: ts from hts]
      exact List.mem_cons_self
    rw [hplain] at ht
    exact absurd ht List.not_mem_nil
  | freed _ hpromote hfree =>
    obtain ⟨_, _, _, hempty, hdeferred⟩ := deallocate_spec hfree
    exact ⟨(congrArg TargetList.targets hdeferred).trans (promoteDeferredTargets_none hpromote).2,
      fun _ hsome => absurd hempty hsome⟩

/-- A write that waits after a step waited before with the same entry, or it is new and
nothing happened to the misses. -/
theorem write_of_step (hplain : ∀ w, (r.writeBuffer.registers w).deferredTargets.targets = [])
    (hlists : r.Consistent) (hstaff : r'.Staffed) (h : RegEffect cfg wf G L r r') {w : Nat}
    (hw : w ∈ r'.writeBuffer.allocatedList)
    (hidle : (r'.writeBuffer.registers w).inService = false) :
    (w ∈ r.writeBuffer.allocatedList ∧ (r.writeBuffer.registers w).inService = false ∧
        (r.writeBuffer.registers w).SameEntry (r'.writeBuffer.registers w) ∧
        r.order ≤ r'.order) ∨
      (w ∉ r.writeBuffer.allocatedList ∧ (r'.writeBuffer.registers w).order = r.order ∧
        (r'.writeBuffer.registers w).readyTime = cfg.clockEdge r.curTick cfg.hitLatency ∧
        r'.order = r.order + 1 ∧ r'.mshrQueue.allocatedList ⊆ r.mshrQueue.allocatedList ∧
        ∀ i, r'.mshrQueue.registers i = r.mshrQueue.registers i) := by
  rcases h.register .writeBuffer w with ⟨hchange, hlist, horder⟩ |
    ⟨_, _, _, _, _, hfree, _, halloc, hothers, hnew, horder⟩
  · obtain ⟨hidle', hentry⟩ := (write_of_change hchange (hplain w)).2 hidle
      (hstaff.targets .writeBuffer w hw)
    exact .inl ⟨hlist hw, hidle', hentry, horder⟩
  · obtain ⟨_, _, _, _, horder', hready, _⟩ := allocate_spec halloc
    refine .inr ⟨fun hmem => ?_, horder', hready, horder, fun j hj => ?_, fun j => ?_⟩
    · exact (hlists.queues .writeBuffer).not_mem_free hmem hfree
    · exact (hnew .mshrs j hj).resolve_right nofun
    · exact hothers .mshrs j nofun

/-- A miss stays behind a write that waited before the step. -/
theorem behind_of_step (hstaff : r.Staffed) (hstaff' : r'.Staffed)
    (h : RegEffect cfg wf G L r r') {w : MSHR}
    (hbounds : w.order < r.order ∧ w.readyTime ≤ cfg.clockEdge r.curTick cfg.hitLatency)
    (hbehind : ∀ i ∈ r.mshrQueue.allocatedList, w.Meets (r.mshrQueue.registers i) →
      w.Behind (r.mshrQueue.registers i)) (hi : i ∈ r'.mshrQueue.allocatedList)
    (hmeets : w.Meets (r'.mshrQueue.registers i)) : w.Behind (r'.mshrQueue.registers i) := by
  rcases h.register .mshrs i with ⟨hchange, hlist, _⟩ | ⟨_, _, _, _, _, _, _, halloc, _⟩
  · obtain ⟨hguest, haddr, hsize, hsecure⟩ := hchange.entry
    refine behind_of_change hchange (hstaff.idle .mshrs i) (hstaff'.targets .mshrs i hi) hbounds
      (hbehind i (hlist hi) ?_)
    rw [meets_iff] at hmeets ⊢
    rwa [show (r'.mshrQueue.registers i).guest = _ from hguest,
      show (r'.mshrQueue.registers i).addr = _ from haddr,
      show (r'.mshrQueue.registers i).size = _ from hsize,
      show (r'.mshrQueue.registers i).isSecure = _ from hsecure] at hmeets
  · obtain ⟨_, _, _, _, horder, hready, hidle, _⟩ := allocate_spec halloc
    refine ⟨fun _ => ?_, fun hbusy => Bool.noConfusion (hidle.symm.trans hbusy)⟩
    rw [show (r'.mshrQueue.registers i).order = r.order from horder,
      show (r'.mshrQueue.registers i).readyTime = _ from hready]
    exact hbounds

theorem undeferred_step (hplain : ∀ w, (r.writeBuffer.registers w).deferredTargets.targets = [])
    (h : RegEffect cfg wf G L r r') (w : Nat) :
    (r'.writeBuffer.registers w).deferredTargets.targets = [] := by
  rcases h.register .writeBuffer w with ⟨hchange, _⟩ | ⟨_, _, _, _, _, _, _, halloc, _⟩
  · exact (write_of_change hchange (hplain w)).1
  · obtain ⟨_, _, _, _, _, _, _, hdeferred, _⟩ := allocate_spec halloc
    exact (congrArg TargetList.targets hdeferred).trans (hplain w)

end OrderingLemmas

open OrderingLemmas

/-- A step keeps the order if no write is buffered in front of a miss. -/
theorem Regs.Ordered.step {r r' : Regs} (hr : r.Ordered cfg) (hlists : r.Consistent)
    (hstaff : r.Staffed) (h : RegStep cfg wf G L r r')
    (hclash : ∀ pkt, ¬ L (.buffered pkt true)) : r'.Ordered cfg := by
  have hstaff' : r'.Staffed := hstaff.step hlists h
  refine ⟨fun w hw hidle => ?_, undeferred_step hr.undeferred h.effect,
    fun w hw hidle i hi hmeets => ?_⟩
  · rw [h.curTick]
    rcases write_of_step hr.undeferred hlists hstaff' h.effect hw hidle with
      ⟨hold, hidle', hentry, horder⟩ | ⟨_, horder, hready, hnext, _⟩
    · rw [hentry.order, hentry.readyTime]
      obtain ⟨hlt, hle⟩ := hr.bounds w hold hidle'
      exact ⟨hlt.trans_le horder, hle⟩
    · rw [horder, hready, hnext]
      exact ⟨Nat.lt_succ_self _, le_rfl⟩
  · rcases write_of_step hr.undeferred hlists hstaff' h.effect hw hidle with
      ⟨hold, hidle', hentry, _⟩ | ⟨hnew, _, _, _, hlist, hsame⟩
    · have hmeets' : (r.writeBuffer.registers w).Meets (r'.mshrQueue.registers i) := by
        rw [meets_iff] at hmeets ⊢
        rwa [hentry.guest, hentry.addr, hentry.size, hentry.isSecure] at hmeets
      obtain ⟨hissue, hagain⟩ := behind_of_step hstaff hstaff' h.effect (hr.bounds w hold hidle')
        (hr.behind w hold hidle') hi hmeets'
      constructor
      · rw [hentry.order, hentry.readyTime]
        exact hissue
      · rw [hentry.order, hentry.readyTime]
        exact hagain
    · rw [hsame i] at hmeets ⊢
      obtain ⟨hbusy, hnone⟩ := buffered_clear h hclash hw hnew (hlist hi) hmeets
      refine ⟨fun hidle => Bool.noConfusion (hidle.symm.trans hbusy), fun _ t ht => ?_⟩
      rw [hnone] at ht
      exact absurd ht List.not_mem_nil

/-- No write was buffered in front of an overlapping miss. -/
def Store.NoClash (s : Store cfg) : Prop := ∀ pkt, Event.buffered pkt true ∉ s.log

theorem Regs.Ordered.advance {r : Regs} (hr : r.Ordered cfg) {tick : Tick} (h : r.curTick ≤ tick) :
    { r with curTick := tick }.Ordered cfg where
  bounds w hw hidle := by
    obtain ⟨horder, hready⟩ := hr.bounds w hw hidle
    refine ⟨horder, hready.trans ?_⟩
    have hcycle : (r.curTick + cfg.clockPeriod - 1) / cfg.clockPeriod ≤
        (tick + cfg.clockPeriod - 1) / cfg.clockPeriod :=
      Nat.div_le_div_right (Nat.sub_le_sub_right (Nat.add_le_add_right h _) 1)
    exact Nat.mul_le_mul_right _ (Nat.add_le_add_right hcycle _)
  undeferred := hr.undeferred
  behind := hr.behind

theorem Cache.Reachable.ordered {s : Cache cfg} (h : Cache.Reachable (Input.Admitted cfg wf G) s)
    (hclash : s.store.NoClash) : s.regs.Ordered cfg := by
  refine h.induct (I := fun s => s.store.NoClash → s.regs.Ordered cfg)
    (fun waymasks _ => ordered_initial cfg waymasks)
    (fun s input s' hs ih hin hcall hclash => ?_) hclash
  obtain ⟨hlists, hstaff⟩ := hs.staffed
  rcases call_regs hcall hin with hregs | ⟨tick, htick, rfl⟩
  · have hs : s.regs.Ordered cfg := ih fun pkt hpkt => hclash pkt (hregs.log.mem hpkt)
    refine (hregs.keeps (I := fun r => r.Consistent ∧ r.Staffed ∧ r.Ordered cfg)
      (fun r r' hr hstep => ?_) ⟨hlists, hstaff, hs⟩).2.2
    exact ⟨hr.1.step hstep, hr.2.1.step hr.1 hstep, hr.2.2.step hr.1 hr.2.1 hstep hclash⟩
  · exact Regs.Ordered.advance (ih hclash) htick

namespace OrderingLemmas

variable {s : Cache cfg} {q : MSHRQueue} {now : Tick} {i : Nat}

/-- The head of a sorted ready list is ready if any register of it is. -/
theorem getNextMSHR_isSome (hq : q.Consistent)
    (hi : i ∈ q.readyList) (hready : (q.registers i).readyTime ≤ now) :
    q.getNextMSHR now ≠ none := by
  have hsorted := hq.sorted
  unfold MSHRQueue.getNextMSHR
  cases hlist : q.readyList with
  | nil =>
    rw [hlist] at hi
    exact absurd hi List.not_mem_nil
  | cons j js =>
    rw [hlist] at hi hsorted
    have hle : (q.registers j).readyTime ≤ now := by
      rcases List.mem_cons.mp hi with rfl | hi
      · exact hready
      · exact ((List.pairwise_cons.mp hsorted).1 i hi).trans hready
    dsimp only
    rw [if_neg (not_lt.mpr hle)]
    exact Option.some_ne_none j

theorem ready_of_getNextMSHR
    (h : q.getNextMSHR now = some i) : (q.registers i).readyTime ≤ now := by
  unfold MSHRQueue.getNextMSHR at h
  split at h
  · exact nomatch h
  · split at h
    · exact nomatch h
    · next hready =>
      obtain rfl := Option.some.inj h
      exact not_lt.mp hready

end OrderingLemmas

/-- The waiting registers end below the top of the address space, so that the sums of
`findPending` do not wrap around. -/
def Cache.NoWrap (s : Cache cfg) : Prop :=
  ∀ q, ∀ i ∈ (s.queue q).readyList,
    ((s.queue q).registers i).addr.toNat + ((s.queue q).registers i).size < 2 ^ 64

/-- In every run in which no write is buffered in front of an overlapping miss: a miss is not picked
while an overlapping write waits, nor a write while an older overlapping miss waits. -/
theorem issue_order {s : Cache cfg}
    (h : Cache.Reachable (Input.Admitted cfg False fun _ => True) s) (hclash : s.store.NoClash)
    (hwrap : s.NoWrap) {i : Nat} :
    (s.getNextMSHR = some (.mshrs, i) → ∀ w ∈ s.writeBuffer.readyList,
      ¬ (s.mshrQueue.registers i).Overlaps (s.writeBuffer.registers w)) ∧
    (s.getNextMSHR = some (.writeBuffer, i) → ∀ j ∈ s.mshrQueue.readyList,
      (s.mshrQueue.registers j).Overlaps (s.writeBuffer.registers i) →
      (s.writeBuffer.registers i).order < (s.mshrQueue.registers j).order) := by
  have hlists := h.staffed.1
  have hordered := h.ordered hclash
  have hmiss : s.mshrQueue.Consistent := hlists.queues .mshrs
  have hwrite : s.writeBuffer.Consistent := hlists.queues .writeBuffer
  -- what overlaps and waits was allocated after the write and is ready no earlier
  have hlater : ∀ w ∈ s.writeBuffer.readyList, ∀ j ∈ s.mshrQueue.readyList,
      (s.writeBuffer.registers w).Meets (s.mshrQueue.registers j) →
      (s.writeBuffer.registers w).order < (s.mshrQueue.registers j).order ∧
        (s.writeBuffer.registers w).readyTime ≤ (s.mshrQueue.registers j).readyTime := by
    intro w hw j hj hmeets
    obtain ⟨hw', hidle⟩ := (hwrite.ready w).mp hw
    obtain ⟨hj', hidle'⟩ := (hmiss.ready j).mp hj
    exact (hordered.behind w hw' hidle j hj' hmeets).issue hidle'
  constructor
  · intro hnext w hw hoverlap
    have hi : i ∈ s.mshrQueue.readyList := Cache.mem_of_getNextMSHR hnext
    obtain ⟨hsize, hsize'⟩ := size_pos_of_overlaps hoverlap
    have hmeets := meets_of_overlaps hoverlap
    rcases Cache.getNextMSHR_cases hnext with ⟨_, hready, hnone | hnone⟩ |
      ⟨_, v, hv, hpending, horder⟩ | ⟨hq, _⟩
    · -- nothing in the write buffer is ready, but this write is
      have hle := (hlater w hw i hi hmeets).2.trans (ready_of_getNextMSHR hready)
      exact getNextMSHR_isSome hwrite hw hle hnone
    · have hnot := List.find?_eq_none.mp hnone w hw
      exact hnot ((isPending_iff (hwrap .writeBuffer w hw) (hwrap .mshrs i hi) hsize').mpr
        (meets_comm.mp hmeets))
    · -- a miss that is older than a write it overlaps was excluded
      have hfound := List.find?_some hpending
      have hmeets' := (isPending_iff (hwrap .mshrs i hi) (hwrap .writeBuffer v hv) hsize).mp hfound
      exact absurd (hlater v hv i hi hmeets').1 (by omega)
    · exact nomatch hq
  · intro hnext j hj hoverlap
    have hi : i ∈ s.writeBuffer.readyList := Cache.mem_of_getNextMSHR hnext
    exact (hlater i hi j hj (meets_of_overlaps hoverlap)).1

/-! ## Concrete runs -/

def Event.isClash : Event → Bool
  | .buffered _ clash => clash
  | _ => false

theorem issue_order_eviction : ∃ s : Cache .oneBlock,
    s.getNextMSHR = some (.writeBuffer, 0) ∧ (∃ j, j ∈ s.mshrQueue.readyList) ∧
    ∀ j ∈ s.mshrQueue.readyList,
      (s.mshrQueue.registers j).Overlaps (s.writeBuffer.registers 0) →
      (s.writeBuffer.registers 0).order < (s.mshrQueue.registers j).order := by
  obtain ⟨s, hs, hnext, hmiss, hclear, hwrap, hwrap'⟩ := Cache.exists_reachable
    (P := Input.Admitted .oneBlock False fun _ => True) [0xFF, 0xFF]
    (secondMiss ++ [.timingResp 0 { cmd := .ReadResp, data := some [1, 2, 3, 4] } fun _ => {},
      .timingReq (readPkt 0), .cpuSend true, .advance 3])
    (fun s : Cache .oneBlock => s.getNextMSHR = some (.writeBuffer, 0) ∧
      0 ∈ s.mshrQueue.readyList ∧ (∀ e ∈ s.store.log, e.isClash = false) ∧
      (∀ i ∈ s.mshrQueue.readyList,
        (s.mshrQueue.registers i).addr.toNat + (s.mshrQueue.registers i).size < 16) ∧
      ∀ i ∈ s.writeBuffer.readyList,
        (s.writeBuffer.registers i).addr.toNat + (s.writeBuffer.registers i).size < 16)
    (by simp [secondMiss, writeMiss, Input.miss, Input.send, Input.Admitted, Admitted])
    (by decide +kernel)
  refine ⟨s, hnext, ⟨0, hmiss⟩, (issue_order hs (fun pkt hpkt => ?_) ?_).2 hnext⟩
  · exact Bool.noConfusion (hclear _ hpkt)
  · rintro ⟨⟩ i hi
    · exact (hwrap i hi).trans (by omega)
    · exact (hwrap' i hi).trans (by omega)

/-- A write to a block that another cache reads before it arrives, and a second write that waits.
The only block of the cache has a request under way. -/
def deferredBehindTemp : List Input :=
  Input.miss (readPkt 0) { cmd := .ReadResp, data := some [1, 2, 3, 4], shared := true } ++
    [.timingReq (writePkt 0), .timingReq (writePkt 4), .advance 2, .cpuSend true, .send,
      .advance 3, .send, .timingSnoopReq (readPkt 4) {}, .timingReq (writePkt 4), .advance 4]

/-- When the block arrives, the second write is ready at once and the writeback of the first a cycle
later: the request goes out before the dirty data. -/
theorem rerequest_overtakes_writeback : ∃ s : Cache .oneBlock,
    Cache.Reachable (Input.Fits .oneBlock True fun _ => True) s ∧
    s.memSide.sendEvent = some s.curTick ∧ s.getNextMSHR = some (.mshrs, 1) ∧
    0 ∈ s.writeBuffer.readyList ∧
    (s.mshrQueue.registers 1).Overlaps (s.writeBuffer.registers 0) := by
  obtain ⟨s, hs, hsend, hnext, hwrite, hguest, hsecure, haddr, haddr', hsize, hsize'⟩ :=
    Cache.exists_reachable (P := Input.Fits .oneBlock True fun _ => True) [0xFF, 0xFF]
      (deferredBehindTemp ++
        [.timingResp 1 { cmd := .ReadExResp, data := some [1, 2, 3, 4] } fun _ => {}])
      (fun s : Cache .oneBlock => s.memSide.sendEvent = some s.curTick ∧
        s.getNextMSHR = some (.mshrs, 1) ∧ 0 ∈ s.writeBuffer.readyList ∧
        (s.mshrQueue.registers 1).guest = (s.writeBuffer.registers 0).guest ∧
        (s.mshrQueue.registers 1).isSecure = (s.writeBuffer.registers 0).isSecure ∧
        (s.mshrQueue.registers 1).addr = 4 ∧ (s.writeBuffer.registers 0).addr = 4 ∧
        (s.mshrQueue.registers 1).size = 4 ∧ (s.writeBuffer.registers 0).size = 4)
      (by decide) (by decide +kernel)
  refine ⟨s, hs, hsend, hnext, hwrite, hguest, hsecure, 4, ?_⟩
  rw [haddr, haddr', hsize, hsize']
  simp

/-! ## The search for a pending register -/

/-- The sums of the test of `findPending` stay below the top of the address space, and the register
is not empty. -/
def MSHR.Testable (m w : MSHR) : Prop :=
  m.guest = w.guest → m.isSecure = w.isSecure →
    (m.addr < w.addr → m.addr.toNat + m.size < 2 ^ 64) ∧
    (w.addr ≤ m.addr → m.addr.toNat < w.addr.toNat + w.size →
      (0 < m.size ↔ w.addr.toNat + w.size < 2 ^ 64))

namespace SearchLemmas

theorem overlaps_iff {m w : MSHR} : m.Overlaps w ↔ m.guest = w.guest ∧
    m.isSecure = w.isSecure ∧ 0 < m.size ∧ 0 < w.size ∧
    m.addr.toNat < w.addr.toNat + w.size ∧ w.addr.toNat < m.addr.toNat + m.size := by
  refine and_congr_right fun _ => and_congr_right fun _ => ⟨?_, fun h => ?_⟩
  · rintro ⟨a, hm, hw⟩
    omega
  · refine ⟨max m.addr.toNat w.addr.toNat, ?_⟩
    omega

instance (m w : MSHR) : Decidable (m.Overlaps w) := decidable_of_iff _ overlaps_iff.symm

/-- The test is right about a register that is `Testable`, and about no other one. -/
theorem isPending_eq_iff {m w : MSHR} (hm : m.size < 2 ^ 31) (hsize : 0 < w.size)
    (hw : w.addr.toNat + w.size ≤ 2 ^ 64) :
    MSHRQueue.isPending m w.guest w.addr w.size w.isSecure = decide (m.Overlaps w) ↔
      m.Testable w := by
  have hmod : (m.addr + BitVec.ofNat 64 m.size).toNat = (m.addr.toNat + m.size) % 2 ^ 64 := by
    rw [BitVec.toNat_add, BitVec.toNat_ofNat, Nat.add_mod_mod]
  have hmod' : (w.addr + BitVec.ofNat 64 w.size).toNat = (w.addr.toNat + w.size) % 2 ^ 64 := by
    rw [BitVec.toNat_add, BitVec.toNat_ofNat, Nat.add_mod_mod]
  have hlt := m.addr.isLt
  rw [Bool.eq_iff_iff, decide_eq_true_iff, overlaps_iff, MSHRQueue.isPending, MSHR.Testable]
  simp only [Bool.and_eq_true, beq_iff_eq, and_assoc, BitVec.lt_def, BitVec.le_def]
  by_cases hguest : m.guest = w.guest ∧ m.isSecure = w.isSecure
  · obtain ⟨hg, hs⟩ := hguest
    simp only [hg, hs, true_and, forall_const]
    split
    · rw [decide_eq_true_iff, hmod]
      omega
    · rw [decide_eq_true_iff, hmod']
      omega
  · exact iff_of_true ⟨fun h => absurd ⟨h.1, h.2.1⟩ hguest, fun h => absurd ⟨h.1, h.2.1⟩ hguest⟩
      fun hg hs => absurd ⟨hg, hs⟩ hguest

/-- Two searches agree iff their tests do, up to the first hit. -/
theorem find?_eq_find?_iff {α : Type} {p p' : α → Bool} {l : List α} :
    l.find? p = l.find? p' ↔ ∀ before a after, l = before ++ a :: after →
      (∀ b ∈ before, p' b = false) → p a = p' a := by
  induction l with
  | nil => simp
  | cons x l ih =>
    have hhead : (x :: l).find? p = (x :: l).find? p' → p x = p' x := by
      intro h
      cases hp : p x with
      | true =>
        rw [List.find?_cons_of_pos hp] at h
        exact (List.find?_some h.symm).symm
      | false =>
        cases hp' : p' x with
        | false => rfl
        | true =>
          rw [List.find?_cons_of_pos hp'] at h
          exact hp.symm.trans (List.find?_some h)
    constructor
    · intro h before a after hl hnone
      cases before with
      | nil =>
        cases hl
        exact hhead h
      | cons b before =>
        cases hl
        have hx : p' x = false := hnone x List.mem_cons_self
        rw [List.find?_cons, List.find?_cons, hhead h, hx] at h
        exact ih.mp h before a after rfl fun c hc => hnone c (List.mem_cons_of_mem _ hc)
    · intro h
      rw [List.find?_cons, List.find?_cons, h [] x l rfl nofun]
      cases hx : p' x with
      | true => rfl
      | false =>
        refine ih.mpr fun before a after hl hnone => ?_
        exact h (x :: before) a after (congrArg _ hl) (List.forall_mem_cons.mpr ⟨hx, hnone⟩)

end SearchLemmas

open SearchLemmas

/-- The search gives the first waiting register that overlaps, if there is one, iff no register that
it comes to is one that its test is wrong about. -/
theorem findPending_iff {q : MSHRQueue} {w : MSHR}
    (hint : ∀ i ∈ q.readyList, (q.registers i).size < 2 ^ 31) (hsize : 0 < w.size)
    (hw : w.addr.toNat + w.size ≤ 2 ^ 64) :
    q.findPending w.guest w.addr w.size w.isSecure =
        q.readyList.find? (fun i => (q.registers i).Overlaps w) ↔
      ∀ before i after, q.readyList = before ++ i :: after →
        (∀ j ∈ before, ¬ (q.registers j).Overlaps w) → (q.registers i).Testable w := by
  rw [MSHRQueue.findPending, find?_eq_find?_iff]
  refine forall_congr' fun before => forall_congr' fun i => forall_congr' fun after =>
    forall_congr' fun hlist => ?_
  have hi : i ∈ q.readyList := by simp [hlist]
  simp only [decide_eq_false_iff_not, isPending_eq_iff (hint i hi) hsize hw]

/-- A queue whose one register waits for a line. -/
def MSHRQueue.waiting (addr : Addr) : MSHRQueue :=
  { MSHRQueue.initial 1 1 with
    registers := fun _ => { addr, size := 64 }, allocatedList := [0], readyList := [0]
    freeList := [], allocated := 1 }

theorem findPending_first_line : (MSHRQueue.waiting 0).findPending 0 32 16 false = some 0 := by
  have hiff := findPending_iff (q := .waiting 0) (w := { addr := 32, size := 16 })
    (by decide) (by decide) (by decide)
  refine hiff.mpr fun before i after _ _ => ?_
  exact fun _ _ => ⟨fun _ => (by decide : (0 : Addr).toNat + 64 < 2 ^ 64),
    fun _ _ => (by decide : 0 < 64 ↔ (32 : Addr).toNat + 16 < 2 ^ 64)⟩

/-- The last line of the address space is not found. -/
theorem findPending_last_line :
    (MSHRQueue.waiting 0xffffffffffffffc0).findPending 0 0xffffffffffffffe0 16 false = none ∧
      ((MSHRQueue.waiting 0xffffffffffffffc0).registers 0).Overlaps
        { addr := 0xffffffffffffffe0, size := 16 } := by
  decide

/-! ## Outstanding requests -/

/-- In every run of well-formed packets, a request that waits for its response has a register in
service of its own. Some target waits there, and all that are no snoops are for the guest, the block
and the security of the request: misses of different guests are not merged. -/
theorem outstanding_register {s : Cache cfg} (h : Cache.Reachable (Input.Fits cfg True G) s) :
    (s.outstanding.map (·.senderState)).Nodup ∧ ∀ pkt ∈ s.outstanding, ∃ q i,
      pkt.senderState = [.mshr q i] ∧ i ∈ (s.queue q).allocatedList ∧ i ∉ (s.queue q).readyList ∧
      ((s.queue q).registers i).targets.targets ≠ [] ∧
      ∀ t ∈ ((s.queue q).registers i).targets.targets ++
          ((s.queue q).registers i).deferredTargets.targets,
        t.source ≠ .fromSnoop → t.pkt.line cfg = pkt.line cfg := by
  have hregs := h.proper.1.regs
  have hadmitted : Cache.Reachable (Input.Admitted cfg True G) s :=
    h.mono fun _ _ hin => RunLemmas.admitted_of_fits hin
  refine ⟨hregs.distinct, fun pkt hpkt => ?_⟩
  obtain ⟨q, i, hstate, hbusy⟩ := hregs.owner pkt hpkt
  have hi := (hregs.queues q).busy i hbusy
  refine ⟨q, i, hstate, hi, fun hready => ?_, hadmitted.staffed.2.targets q i hi, ?_⟩
  · cases hbusy.symm.trans (((hregs.queues q).ready i).mp hready).2
  · intro t ht hsource
    rw [hregs.lines pkt hpkt q i hstate]
    exact ((hregs.registers q i).targets t ht hsource).2

theorem outstanding_register_secondMiss : ∃ s : Cache .oneBlock, s.outstanding ≠ [] ∧
    ∀ pkt ∈ s.outstanding, ∃ q i, pkt.senderState = [.mshr q i] ∧
      ((s.queue q).registers i).targets.targets ≠ [] := by
  obtain ⟨s, hs, hne⟩ := Cache.exists_reachable
    (P := Input.Fits .oneBlock True fun _ => True) [0xFF, 0xFF] secondMiss
    (fun s : Cache .oneBlock => s.outstanding ≠ []) (by decide) (by decide +kernel)
  refine ⟨s, hne, fun pkt hpkt => ?_⟩
  obtain ⟨q, i, hstate, _, _, htargets, _⟩ := (outstanding_register hs).2 pkt hpkt
  exact ⟨q, i, hstate, htargets⟩

end PardG5V
