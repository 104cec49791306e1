import PardG5V.Cache.RegInv

/-!
# Which registers have targets

A register is allocated for a request and is freed with its last target. Requests are deferred
only while the register is in service, and the end of that service makes them its targets.
-/

namespace PardG5V

open RegLemmas

variable {cfg : CacheConfig} {wf : Prop} {G : GuestID → Prop} {L : Event → Prop}

structure Regs.Staffed (r : Regs) : Prop where
  targets : ∀ q i, i ∈ (r.queue q).allocatedList →
    ((r.queue q).registers i).targets.targets ≠ []
  idle : ∀ q i, ((r.queue q).registers i).inService = false →
    ((r.queue q).registers i).deferredTargets.targets = []

theorem staffed_initial (cfg : CacheConfig) (waymasks : List (BitVec 64)) :
    (Cache.initial cfg waymasks).regs.Staffed where
  targets := by
    rintro ⟨⟩ i hi
    · exact absurd hi List.not_mem_nil
    · exact absurd hi List.not_mem_nil
  idle := by
    rintro ⟨⟩ i _
    · rfl
    · rfl

namespace TargetLemmas

variable {m m' : MSHR} {pkt : Packet} {now : Tick} {order : Nat}

/-! ### One register -/

theorem replaceUpgrades_nil {l : TargetList} (h : l.replaceUpgrades.targets = []) :
    l.targets = [] := by
  unfold TargetList.replaceUpgrades at h
  split at h
  · exact List.map_eq_nil_iff.mp h
  · exact h

theorem queueSnoop_nil (h : (m.queueSnoop pkt now order).1.targets.targets = []) :
    m.targets.targets = [] := by
  have hheld : (m.holdSnoop pkt now order).1.targets.targets = [] := by
    unfold MSHR.queueSnoop at h
    cases hneeds : pkt.needsExclusive with
    | true | false =>
      rw [hneeds] at h
      exact h
  unfold MSHR.holdSnoop at hheld
  split at hheld
  · exact (List.append_eq_nil_iff.mp hheld).1
  · exact hheld

theorem handleSnoop_nil (h : (m.handleSnoop pkt now order).1.targets.targets = []) :
    m.targets.targets = [] := by
  unfold MSHR.handleSnoop at h
  split at h
  · split at h
    · exact replaceUpgrades_nil h
    · exact h
  · cases hneeds : pkt.needsExclusive with
    | true =>
      rw [hneeds, if_pos rfl] at h
      dsimp only at h
      split at h
      · exact h
      · have hnone := queueSnoop_nil h
        exact hnone
    | false =>
      rw [hneeds, if_neg Bool.false_ne_true] at h
      dsimp only at h
      split at h
      · exact h
      · exact queueSnoop_nil h

/-- The deferred targets of a register that is not in service afterwards. -/
theorem deferred_of_change {r : Regs} {q : QueueIndex} (h : RegChange cfg wf G r q m m')
    (hm : m.inService = false → m.deferredTargets.targets = []) (hidle : m'.inService = false) :
    m'.deferredTargets.targets = [] := by
  cases h with
  | joined _ _ _ htarget =>
    obtain ⟨_, hservice, t, _, _, _, _, hcases⟩ := allocateTarget_spec htarget
    rw [hservice] at hidle
    rcases hcases with ⟨_, hdeferred⟩ | ⟨_, hbusy, _⟩
    · rw [hdeferred]
      exact hm hidle
    · exact Bool.noConfusion (hidle.symm.trans hbusy)
  | @snooped pkt =>
    obtain ⟨_, hservice, _, hdeferred⟩ := handleSnoop_spec m pkt r.curTick r.order
    rw [hservice] at hidle
    refine List.eq_nil_iff_forall_not_mem.mpr fun t' ht' => ?_
    obtain ⟨t, ht, _⟩ := hdeferred t' ht'
    rw [hm hidle] at ht
    exact List.not_mem_nil ht
  | shared | marked => exact hm hidle
  | popped _ hlast hfree =>
    obtain ⟨_, _, _, _, hdeferred⟩ := deallocate_spec hfree
    have hnone : m.deferredTargets.targets = [] := deferred_of_forwardNoResponse hlast
    exact (congrArg TargetList.targets hdeferred).trans hnone
  | serviced => exact Bool.noConfusion hidle
  | promoted _ hpromote =>
    obtain ⟨_, _, _, _, hnone, _⟩ := promoteDeferredTargets_some hpromote
    exact hnone
  | freed _ hpromote hfree =>
    obtain ⟨_, _, _, _, hdeferred⟩ := deallocate_spec hfree
    rw [hdeferred]
    exact (promoteDeferredTargets_none hpromote).2

/-! ### One queue -/

variable {q mq : MSHRQueue} {i j : Nat}

/-- Registers that are allocated without a target come from registers of that kind. -/
def KeepsStaff (q mq : MSHRQueue) : Prop :=
  ∀ j, j ∈ mq.allocatedList → (mq.registers j).targets.targets = [] →
    j ∈ q.allocatedList ∧ (q.registers j).targets.targets = []

theorem keepsStaff_setReg (hlist : mq.allocatedList = q.allocatedList)
    (hregs : mq.registers = (q.setReg i m).registers)
    (hm : m.targets.targets = [] → (q.registers i).targets.targets = []) : KeepsStaff q mq := by
  intro j hj hnone
  rw [hlist] at hj
  rw [hregs, MSHRQueue.registers_setReg] at hnone
  split at hnone
  · next heq =>
    subst heq
    exact ⟨hj, hm hnone⟩
  · exact ⟨hj, hnone⟩

theorem keepsStaff_allocate {guest : GuestID} {addr : Addr} {size : Nat} {whenReady : Tick}
    (h : q.allocate guest addr size pkt now whenReady order = .ok (mq, i)) : KeepsStaff q mq := by
  obtain ⟨free, m, _, _, hm, rfl⟩ := MSHRQueue.QueueLemmas.allocate_cases h
  obtain ⟨_, _, _, _, _, _, _, _, t, _, _, htargets⟩ := allocate_spec hm
  intro j hj hnone
  have hnone' : ((q.setReg i m).registers j).targets.targets = [] := hnone
  rw [MSHRQueue.registers_setReg] at hnone'
  split at hnone'
  · rw [htargets] at hnone'
    exact absurd hnone' (by simp)
  · next hne =>
    rcases List.mem_append.mp hj with hj | hj
    · exact ⟨hj, hnone'⟩
    · exact absurd (List.mem_singleton.mp hj) hne

theorem keepsStaff_deallocate (hq : q.Consistent)
    (h : (q.setReg i m).deallocate i = .ok mq) : KeepsStaff q mq := by
  obtain ⟨m', _, hregs, hlist, _, _⟩ := MSHRQueue.QueueLemmas.deallocate_cases h
  intro j hj hnone
  rw [hlist] at hj
  have hne : j ≠ i := by
    rintro rfl
    exact hq.nodup.of_append_left.not_mem_erase hj
  rw [hregs, MSHRQueue.setReg_setReg, MSHRQueue.registers_setReg, if_neg hne] at hnone
  exact ⟨List.mem_of_mem_erase hj, hnone⟩

theorem keepsStaff_markInService (hq : q.Consistent) (h : q.markInService i pkt = .ok mq) :
    KeepsStaff q mq := by
  obtain ⟨_, ⟨_, hdone⟩ | ⟨_, rfl⟩⟩ := MSHRQueue.QueueLemmas.markInService_cases h
  · exact keepsStaff_deallocate hq hdone
  · exact keepsStaff_setReg rfl rfl fun hnone => hnone

theorem keepsStaff_completes (hq : q.Consistent) (h : Completes q i now mq) : KeepsStaff q mq := by
  cases h with
  | @promoted m m' _ hfill hpromote hpending =>
    obtain ⟨_, rfl⟩ := MSHRQueue.QueueLemmas.markPending_cases hpending
    obtain ⟨t, ts, hts, htargets, _⟩ := promoteDeferredTargets_some hpromote
    rw [MSHRQueue.registers_setReg, if_pos rfl, MSHRQueue.setReg_setReg]
    refine keepsStaff_setReg rfl rfl fun hnone => ?_
    rw [show m'.targets.targets = t :: ts from htargets ▸ hts] at hnone
    exact nomatch hnone
  | freed _ _ hfree => exact keepsStaff_deallocate hq hfree

/-! ### Both queues -/

variable {r r' : Regs}

theorem keepsStaff_refl : KeepsStaff q q := fun _ hj hnone => ⟨hj, hnone⟩

theorem keepsStaff_setQueue {k : QueueIndex}
    (hqueue : ∀ k', r'.queue k' = (r.setQueue k mq).queue k') (h : KeepsStaff (r.queue k) mq)
    (k' : QueueIndex) : KeepsStaff (r.queue k') (r'.queue k') := by
  rw [hqueue]
  by_cases hk : k' = k
  · subst hk
    rw [Regs.queue_setQueue]
    exact h
  · rw [queue_setQueue_of_ne hk]
    exact keepsStaff_refl

theorem keepsStaff_changed {k : QueueIndex}
    (hqueue : ∀ k', r'.queue k' = (r.setQueue k ((r.queue k).setReg i m)).queue k')
    (hm : m.targets.targets = [] → ((r.queue k).registers i).targets.targets = [])
    (k' : QueueIndex) : KeepsStaff (r.queue k') (r'.queue k') :=
  keepsStaff_setQueue hqueue (keepsStaff_setReg rfl rfl hm) k'

theorem keepsStaff_step (hr : r.Consistent) (h : RegStep cfg wf G L r r') (k : QueueIndex) :
    KeepsStaff (r.queue k) (r'.queue k) := by
  cases h with
  | miss _ _ halloc =>
    exact keepsStaff_setQueue (k := .mshrs) (by rintro ⟨⟩ <;> rfl) (keepsStaff_allocate halloc) k
  | buffer _ _ halloc =>
    exact keepsStaff_setQueue (k := .writeBuffer) (by rintro ⟨⟩ <;> rfl)
      (keepsStaff_allocate halloc) k
  | join _ _ htarget =>
    obtain ⟨_, _, t, _, _, _, _, hcases⟩ := allocateTarget_spec htarget
    refine keepsStaff_changed (k := .mshrs) (by rintro ⟨⟩ <;> rfl) (fun hnone => ?_) k
    rcases hcases with ⟨htargets, _⟩ | ⟨htargets, _⟩
    · rw [htargets] at hnone
      exact absurd hnone (by simp)
    · exact htargets ▸ hnone
  | snoop =>
    exact keepsStaff_changed (k := .mshrs) (by rintro ⟨⟩ <;> rfl) handleSnoop_nil k
  | share =>
    exact keepsStaff_changed (k := .writeBuffer) (by rintro ⟨⟩ <;> rfl)
      (fun hnone => absurd hnone (List.cons_ne_nil _ _)) k
  | mark =>
    refine keepsStaff_changed (fun _ => rfl) (fun hnone => ?_) k
    exact hnone
  | @serviced q _ _ _ _ hmark =>
    exact keepsStaff_setQueue (fun _ => rfl) (keepsStaff_markInService (hr.queues q) hmark) k
  | @issued q _ _ _ _ _ hmark =>
    exact keepsStaff_setQueue (by rintro ⟨⟩ <;> rfl)
      (keepsStaff_markInService (hr.queues q) hmark) k
  | @completed q _ _ _ _ hdone =>
    exact keepsStaff_setQueue (by rintro ⟨⟩ <;> rfl) (keepsStaff_completes (hr.queues q) hdone) k

theorem idle_step (hr : r.Staffed) (h : RegEffect cfg wf G L r r') (k : QueueIndex) (j : Nat)
    (hidle : ((r'.queue k).registers j).inService = false) :
    ((r'.queue k).registers j).deferredTargets.targets = [] := by
  rcases h.register k j with ⟨hchange, _⟩ | ⟨_, _, _, _, _, _, hempty, halloc, _⟩
  · exact deferred_of_change hchange (hr.idle k j) hidle
  · obtain ⟨_, _, _, _, _, _, _, hdeferred, _⟩ := allocate_spec halloc
    rw [hdeferred]
    exact (targets_of_none hempty).2

end TargetLemmas

open TargetLemmas

theorem Regs.Staffed.step {r r' : Regs} (hr : r.Staffed) (hlists : r.Consistent)
    (h : RegStep cfg wf G L r r') : r'.Staffed where
  targets k j hj hnone := by
    obtain ⟨hold, hnone'⟩ := keepsStaff_step hlists h k j hj hnone
    exact hr.targets k j hold hnone'
  idle := idle_step hr h.effect

/-- The registers of every run are consistent and staffed. -/
theorem Cache.Reachable.staffed {s : Cache cfg} (h : Cache.Reachable (Input.Admitted cfg wf G) s) :
    s.regs.Consistent ∧ s.regs.Staffed := by
  refine h.induct (I := fun s => s.regs.Consistent ∧ s.regs.Staffed)
    (fun waymasks => ⟨consistent_initial cfg waymasks, staffed_initial cfg waymasks⟩)
    fun s input s' _ ih hin hcall => ?_
  rcases call_regs hcall hin with hregs | ⟨tick, _, rfl⟩
  · refine hregs.keeps (I := fun r => r.Consistent ∧ r.Staffed) (fun r r' hr hstep => ?_) ih
    exact ⟨hr.1.step hstep, hr.2.step hr.1 hstep⟩
  · exact ⟨{ ih.1 with }, { ih.2 with }⟩

end PardG5V
