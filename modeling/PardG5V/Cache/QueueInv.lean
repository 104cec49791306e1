import PardG5V.Cache.MshrQueue

/-!
# The lists of a register queue

The three lists of an `MSHRQueue` are consistent: a register is allocated or free
and never both, the ready ones are the allocated ones that are not in service, and
they stand in the order of their ready times. Every operation of the queue keeps
this, given that it is used on an allocated register.
-/

namespace PardG5V

open Prog

namespace MSHRQueue

structure Consistent (q : MSHRQueue) : Prop where
  nodup : (q.allocatedList ++ q.freeList).Nodup
  readyNodup : q.readyList.Nodup
  ready : ∀ i, i ∈ q.readyList ↔ i ∈ q.allocatedList ∧ (q.registers i).inService = false
  busy : ∀ i, (q.registers i).inService = true → i ∈ q.allocatedList
  sorted : q.readyList.Pairwise fun i j => (q.registers i).readyTime ≤ (q.registers j).readyTime

theorem consistent_initial (numEntries reserve : Nat) :
    (MSHRQueue.initial numEntries reserve).Consistent where
  nodup := List.nodup_range
  readyNodup := List.nodup_nil
  ready i := by simp [initial]
  busy i hbusy := nomatch hbusy
  sorted := List.Pairwise.nil

namespace QueueLemmas

variable {q mq : MSHRQueue} {i : Nat} {m m' : MSHR} {registers : Nat → MSHR} {l : List Nat}
  {pkt : Packet}

/-! ## The ready list -/

theorem insertReady_perm (registers : Nat → MSHR) (i : Nat) (l : List Nat) :
    (insertReady registers i l).Perm (i :: l) := by
  induction l with
  | nil => exact .refl _
  | cons j js ih =>
    unfold insertReady
    split
    · exact .refl _
    · exact (ih.cons j).trans (.swap i j js)

theorem insertReady_sorted (i : Nat)
    (h : l.Pairwise fun j k => (registers j).readyTime ≤ (registers k).readyTime) :
    (insertReady registers i l).Pairwise
      fun j k => (registers j).readyTime ≤ (registers k).readyTime := by
  induction l with
  | nil => exact List.pairwise_singleton _ _
  | cons j js ih =>
    obtain ⟨hj, hjs⟩ := List.pairwise_cons.mp h
    unfold insertReady
    split
    · next hlt =>
      refine List.pairwise_cons.mpr ⟨fun k hk => ?_, h⟩
      rcases List.mem_cons.mp hk with rfl | hk
      · exact hlt.le
      · exact hlt.le.trans (hj k hk)
    · next hge =>
      refine List.pairwise_cons.mpr ⟨fun k hk => ?_, ih hjs⟩
      rcases List.mem_cons.mp ((insertReady_perm registers i js).mem_iff.mp hk) with rfl | hk
      · exact not_lt.mp hge
      · exact hj k hk

theorem addToReadyList_perm (q : MSHRQueue) (i : Nat) :
    (q.addToReadyList i).readyList.Perm (i :: q.readyList) := by
  unfold addToReadyList
  cases hlast : q.readyList.getLast? with
  | none =>
    rw [List.getLast?_eq_none_iff.mp hlast]
  | some last =>
    dsimp only
    split
    · exact List.perm_append_singleton i q.readyList
    · exact insertReady_perm q.registers i q.readyList

theorem addToReadyList_sorted (i : Nat)
    (h : q.readyList.Pairwise fun j k => (q.registers j).readyTime ≤ (q.registers k).readyTime) :
    (q.addToReadyList i).readyList.Pairwise fun j k =>
      ((q.addToReadyList i).registers j).readyTime ≤
        ((q.addToReadyList i).registers k).readyTime := by
  unfold addToReadyList
  cases hlast : q.readyList.getLast? with
  | none => exact List.pairwise_singleton _ _
  | some last =>
    dsimp only
    split
    · next hle =>
      -- everything before the last register is ready no later than that one
      refine List.pairwise_append.mpr ⟨h, List.pairwise_singleton _ _, fun j hj k hk => ?_⟩
      obtain rfl := List.mem_singleton.mp hk
      obtain ⟨before, heq⟩ := List.getLast?_eq_some_iff.mp hlast
      rw [heq] at hj h
      rcases List.mem_append.mp hj with hj | hj
      · exact ((List.pairwise_append.mp h).2.2 j hj last List.mem_cons_self).trans hle
      · rw [List.mem_singleton.mp hj]
        exact hle
    · exact insertReady_sorted i h

/-! ## Inversion of the operations -/

theorem allocate_cases {guest : GuestID} {addr : Addr} {size : Nat}
    {now whenReady : Tick} {order : Nat}
    (h : q.allocate guest addr size pkt now whenReady order = .ok (mq, i)) :
    ∃ free m, q.freeList = i :: free ∧ (q.registers i).getNumTargets = 0 ∧
      (q.registers i).allocate guest addr size pkt now whenReady order = .ok m ∧
      mq = addToReadyList { q.setReg i m with
        freeList := free
        allocatedList := q.allocatedList ++ [i]
        allocated := q.allocated + 1 } i := by
  unfold allocate at h
  cases hfree : q.freeList with
  | nil =>
    rw [hfree] at h
    exact nomatch h
  | cons j free =>
    rw [hfree] at h
    simp only [except_bind_eq_ok, except_pure_eq_ok, assert_eq_ok, beq_iff_eq, Prod.mk.injEq] at h
    obtain ⟨_, hempty, m, hm, rfl, rfl⟩ := h
    exact ⟨free, m, rfl, hempty, hm, rfl⟩

theorem deallocate_cases (h : q.deallocate i = .ok mq) :
    ∃ m, (q.registers i).deallocate = .ok m ∧ mq.registers = (q.setReg i m).registers ∧
      mq.allocatedList = q.allocatedList.erase i ∧ mq.freeList = i :: q.freeList ∧
      mq.readyList = if (q.registers i).inService then q.readyList else q.readyList.erase i := by
  simp only [deallocate, except_bind_eq_ok, except_pure_eq_ok] at h
  obtain ⟨m, hm, rfl⟩ := h
  refine ⟨m, hm, ?_, ?_, ?_, ?_⟩
  all_goals
    unfold setReg
    cases hservice : (q.registers i).inService with
    | true | false => simp

theorem markInService_cases (h : q.markInService i pkt = .ok mq) :
    (q.registers i).inService = false ∧
      ((q.registers i).isForwardNoResponse = true ∧
          (q.setReg i (q.registers i).popTarget).deallocate i = .ok mq ∨
        (q.registers i).isForwardNoResponse = false ∧
          mq = { q.setReg i ((q.registers i).serviced pkt) with
            readyList := q.readyList.erase i
            inServiceEntries := q.inServiceEntries + 1 }) := by
  simp only [markInService, MSHR.markInService, except_bind_eq_ok, except_pure_eq_ok,
    assertOr_eq_ok, Bool.not_eq_true'] at h
  obtain ⟨⟨m, done⟩, ⟨_, hidle, hm⟩, h⟩ := h
  refine ⟨hidle, ?_⟩
  cases hforward : (q.registers i).isForwardNoResponse with
  | true =>
    rw [hforward, if_pos rfl] at hm
    obtain ⟨rfl, rfl⟩ := Prod.mk.inj hm
    rw [if_pos rfl] at h
    exact .inl ⟨rfl, h⟩
  | false =>
    rw [hforward, if_neg Bool.false_ne_true] at hm
    obtain ⟨rfl, rfl⟩ := Prod.mk.inj hm
    rw [if_neg Bool.false_ne_true] at h
    exact .inr ⟨rfl, (except_pure_eq_ok.mp h).symm⟩

theorem markPending_cases (h : q.markPending i = .ok mq) : (q.registers i).inService = true ∧
      mq = addToReadyList { q.setReg i { q.registers i with inService := false } with
        inServiceEntries := q.inServiceEntries - 1 } i := by
  simp only [markPending, except_bind_eq_ok, except_pure_eq_ok, assertOr_eq_ok] at h
  obtain ⟨_, hbusy, rfl⟩ := h
  exact ⟨hbusy, rfl⟩

theorem mem_addToReadyList {j : Nat} :
    j ∈ (q.addToReadyList i).readyList ↔ j = i ∨ j ∈ q.readyList := by
  rw [(addToReadyList_perm q i).mem_iff, List.mem_cons]

theorem nodup_addToReadyList (h : q.readyList.Nodup) (hi : i ∉ q.readyList) :
    (q.addToReadyList i).readyList.Nodup :=
  (addToReadyList_perm q i).nodup_iff.mpr (List.nodup_cons.mpr ⟨hi, h⟩)

theorem deallocate_inService (h : m.deallocate = .ok m') : m'.inService = false := by
  simp only [MSHR.deallocate, except_bind_eq_ok, except_pure_eq_ok] at h
  obtain ⟨_, _, _, _, rfl⟩ := h
  rfl

/-- A list stays sorted when the ready times of its registers do not change. -/
theorem sorted_congr {registers' : Nat → MSHR}
    (h : l.Pairwise fun j k => (registers j).readyTime ≤ (registers k).readyTime)
    (heq : ∀ j ∈ l, (registers' j).readyTime = (registers j).readyTime) :
    l.Pairwise fun j k => (registers' j).readyTime ≤ (registers' k).readyTime :=
  h.imp_of_mem fun hj hk hle => by rw [heq _ hj, heq _ hk]; exact hle

end QueueLemmas

open QueueLemmas

/-! ## The operations keep the lists consistent -/

namespace Consistent

variable {q mq : MSHRQueue} {i : Nat} {m : MSHR}

theorem not_mem_free (hq : q.Consistent) (hi : i ∈ q.allocatedList) : i ∉ q.freeList :=
  fun hfree => (List.nodup_append.mp hq.nodup).2.2 i hi i hfree rfl

theorem not_ready_of_busy (hq : q.Consistent) (hbusy : (q.registers i).inService = true) :
    i ∉ q.readyList := by
  intro hready
  have hidle := ((hq.ready i).mp hready).2
  rw [hbusy] at hidle
  exact Bool.noConfusion hidle

/-- It is enough to look at the register that an operation is about. -/
theorem of_other (hq : q.Consistent) (hregs : ∀ j, j ≠ i → mq.registers j = q.registers j)
    (halloc : ∀ j, j ≠ i → (j ∈ mq.allocatedList ↔ j ∈ q.allocatedList))
    (hready : ∀ j, j ≠ i → (j ∈ mq.readyList ↔ j ∈ q.readyList))
    (hself : i ∈ mq.readyList ↔ i ∈ mq.allocatedList ∧ (mq.registers i).inService = false)
    (hbusy : (mq.registers i).inService = true → i ∈ mq.allocatedList)
    (hnodup : (mq.allocatedList ++ mq.freeList).Nodup) (hreadyNodup : mq.readyList.Nodup)
    (hsorted : mq.readyList.Pairwise fun j k =>
      (mq.registers j).readyTime ≤ (mq.registers k).readyTime) : mq.Consistent := by
  refine ⟨hnodup, hreadyNodup, fun j => ?_, fun j hj => ?_, hsorted⟩
  · by_cases hji : j = i
    · rw [hji, hself]
    · rw [hready j hji, halloc j hji, hregs j hji, hq.ready j]
  · by_cases hji : j = i
    · exact hji ▸ hbusy (hji ▸ hj)
    · rw [hregs j hji] at hj
      exact (halloc j hji).mpr (hq.busy j hj)

theorem setReg_other (q : MSHRQueue) (m : MSHR) (j : Nat) (hj : j ≠ i) :
    (q.setReg i m).registers j = q.registers j := by
  rw [registers_setReg, if_neg hj]

theorem setReg (hq : q.Consistent) (hservice : m.inService = (q.registers i).inService)
    (htime : m.readyTime = (q.registers i).readyTime ∨ i ∉ q.readyList) :
    (q.setReg i m).Consistent := by
  have hself : ((q.setReg i m).registers i).inService = (q.registers i).inService := by
    rw [registers_setReg, if_pos rfl, hservice]
  refine hq.of_other (setReg_other q m) (fun _ _ => .rfl) (fun _ _ => .rfl) ?_
    (fun hbusy => hq.busy i (hself ▸ hbusy)) hq.nodup hq.readyNodup ?_
  · rw [hself]
    exact hq.ready i
  · refine sorted_congr hq.sorted fun j hj => ?_
    rw [registers_setReg]
    split
    · next heq =>
      rw [heq] at hj ⊢
      exact htime.resolve_right fun hno => hno hj
    · rfl

theorem deallocate (hq : q.Consistent) (hi : i ∈ q.allocatedList) (h : q.deallocate i = .ok mq) :
    mq.Consistent := by
  obtain ⟨m, hm, hregs, halloc, hfree, hready⟩ := deallocate_cases h
  have hnodup : q.allocatedList.Nodup := (List.nodup_append.mp hq.nodup).1
  have hmem : ∀ j, j ∈ mq.readyList ↔ j ≠ i ∧ j ∈ q.readyList := by
    intro j
    rw [hready]
    split
    · next hbusy =>
      refine ⟨fun hj => ⟨?_, hj⟩, fun hj => hj.2⟩
      rintro rfl
      exact hq.not_ready_of_busy hbusy hj
    · exact hq.readyNodup.mem_erase_iff
  have hother : ∀ j, j ≠ i → mq.registers j = q.registers j := by
    rw [hregs]
    exact setReg_other q m
  have hsub : mq.readyList.Sublist q.readyList := by
    rw [hready]
    split
    · exact List.Sublist.refl _
    · exact List.erase_sublist
  refine hq.of_other hother (fun j hj => ?_) (fun j hj => ?_) ?_ (fun hbusy => ?_) ?_
    (hq.readyNodup.sublist hsub) ?_
  · rw [halloc, hnodup.mem_erase_iff]
    exact and_iff_right hj
  · rw [hmem]
    exact and_iff_right hj
  · rw [hmem, halloc, hnodup.mem_erase_iff]
    exact ⟨fun hj => absurd rfl hj.1, fun hj => absurd rfl hj.1.1⟩
  · rw [hregs, registers_setReg, if_pos rfl, deallocate_inService hm] at hbusy
    exact Bool.noConfusion hbusy
  · rw [halloc, hfree]
    refine List.perm_middle.nodup_iff.mpr ?_
    rw [← List.cons_append]
    exact ((List.perm_cons_erase hi).append_right q.freeList).nodup_iff.mp hq.nodup
  · refine sorted_congr (hq.sorted.sublist hsub) fun j hj => ?_
    rw [hother j ((hmem j).mp hj).1]

theorem addToReadyList (hq : q.Consistent) (hnotready : i ∉ q.readyList)
    (hregs : ∀ j, j ≠ i → mq.registers j = q.registers j)
    (halloc : ∀ j, j ≠ i → (j ∈ mq.allocatedList ↔ j ∈ q.allocatedList))
    (hready : mq.readyList = q.readyList) (hi : i ∈ mq.allocatedList)
    (hidle : (mq.registers i).inService = false)
    (hnodup : (mq.allocatedList ++ mq.freeList).Nodup) : (mq.addToReadyList i).Consistent := by
  have hmem (j : Nat) := mem_addToReadyList (q := mq) (i := i) (j := j)
  rw [hready] at hmem
  refine hq.of_other hregs halloc (fun j hj => ?_) ?_ (fun _ => hi) hnodup ?_ ?_
  · rw [hmem]
    exact or_iff_right hj
  · exact iff_of_true ((hmem i).mpr (.inl rfl)) ⟨hi, hidle⟩
  · exact nodup_addToReadyList (hready ▸ hq.readyNodup) (hready ▸ hnotready)
  · refine addToReadyList_sorted i ?_
    rw [hready]
    refine sorted_congr hq.sorted fun j hj => ?_
    exact congrArg MSHR.readyTime (hregs j fun heq => hnotready (heq ▸ hj))

theorem allocate {guest : GuestID} {addr : Addr} {size : Nat} {pkt : Packet} {now whenReady : Tick}
    {order : Nat} (hq : q.Consistent)
    (h : q.allocate guest addr size pkt now whenReady order = .ok (mq, i)) : mq.Consistent := by
  obtain ⟨free, m, hfree, _, hm, rfl⟩ := allocate_cases h
  have hidle : m.inService = false := by
    simp only [MSHR.allocate, except_bind_eq_ok, except_pure_eq_ok] at hm
    obtain ⟨_, _, _, _, rfl⟩ := hm
    rfl
  have hnodup := hq.nodup
  rw [hfree] at hnodup
  have hnew : i ∉ q.allocatedList := fun hi => hq.not_mem_free hi (by simp [hfree])
  refine hq.addToReadyList (fun hi => hnew ((hq.ready i).mp hi).1) (setReg_other q m)
    (fun j hj => ?_) rfl (List.mem_append_right _ List.mem_cons_self) ?_ ?_
  · rw [List.mem_append, List.mem_singleton]
    exact or_iff_left hj
  · rw [registers_setReg, if_pos rfl, hidle]
  · rwa [List.append_assoc]

theorem markInService {pkt : Packet} (hq : q.Consistent)
    (hi : i ∈ q.allocatedList ∨ i ∈ q.readyList) (h : q.markInService i pkt = .ok mq) :
    mq.Consistent := by
  have hi : i ∈ q.allocatedList := hi.elim id fun hready => ((hq.ready i).mp hready).1
  obtain ⟨_, ⟨_, hdone⟩ | ⟨_, rfl⟩⟩ := markInService_cases h
  · have hpop : (q.setReg i (q.registers i).popTarget).Consistent := hq.setReg rfl (.inl rfl)
    exact hpop.deallocate hi hdone
  · have hmem (j : Nat) : j ∈ q.readyList.erase i ↔ j ≠ i ∧ j ∈ q.readyList :=
      hq.readyNodup.mem_erase_iff
    have hself : ((q.setReg i ((q.registers i).serviced pkt)).registers i).inService = true := by
      rw [registers_setReg, if_pos rfl]
      rfl
    refine hq.of_other (setReg_other q _) (fun _ _ => .rfl) (fun j hj => ?_) ?_ (fun _ => hi)
      hq.nodup (hq.readyNodup.erase i) ?_
    · exact (hmem j).trans (and_iff_right hj)
    · refine iff_of_false (fun hready => ((hmem i).mp hready).1 rfl) fun hidle => ?_
      exact Bool.noConfusion (hself.symm.trans hidle.2)
    · refine sorted_congr (hq.sorted.sublist List.erase_sublist) fun j hj => ?_
      exact congrArg MSHR.readyTime (setReg_other q _ j ((hmem j).mp hj).1)

theorem markPending (hq : q.Consistent) (h : q.markPending i = .ok mq) : mq.Consistent := by
  obtain ⟨hbusy, rfl⟩ := markPending_cases h
  refine hq.addToReadyList (hq.not_ready_of_busy hbusy) (setReg_other q _) (fun _ _ => .rfl) rfl
    (hq.busy i hbusy) ?_ hq.nodup
  rw [registers_setReg, if_pos rfl]

end Consistent

end MSHRQueue

end PardG5V
