import Mathlib.Data.List.Flatten
import PardG5V.Dram.Loop

/-!
# Every read is answered once

A read is split into bursts. Those that the write queue covers need no access, the others go
through the read queue and the response queue, in an order that the scheduler chooses, and the
read is answered with the last of them. A split read counts its bursts in a helper that its
entries share. A ledger, which is not part of the controller, records for every read which of its
bursts were found, and where each of the others is. Result: `read_completion`.
-/

namespace PardG5V

open Prog FrontLemmas QueueLemmas

variable {cfg : DramConfig}

/-! ## The ledger -/

/-- The addresses of the bursts from `addr` on. -/
def burstsFrom (cfg : DramConfig) : Nat → Addr → List Addr
  | 0, _ => []
  | cnt + 1, addr => addr :: burstsFrom cfg cnt (nextBurst cfg addr)

/-- The addresses of the bursts that a request is split into. -/
def burstsOf (cfg : DramConfig) (pkt : Packet) : List Addr :=
  burstsFrom cfg (dramPktCount cfg pkt) pkt.addr

/-- A read that was taken over, with the write queue that it met. Each of its bursts was found
there, was fetched, or waits in the response queue or in the read queue. -/
structure ReadJob (cfg : DramConfig) where
  request : Packet
  writeQueue : List (DRAMPacket cfg)
  helper : Option Nat
  found : List Addr
  fetched : List (DRAMPacket cfg)
  unsent : List (DRAMPacket cfg)
  unread : List (DRAMPacket cfg)

namespace ReadJob

def accepted (j : ReadJob cfg) : Packet × List (DRAMPacket cfg) := (j.request, j.writeQueue)

def entries (j : ReadJob cfg) : List (DRAMPacket cfg) := j.fetched ++ (j.unsent ++ j.unread)

/-- The bursts that are still to come. -/
def left (j : ReadJob cfg) : Nat := j.unsent.length + j.unread.length

/-- What was answered: nothing before the last burst has come. -/
def answers (j : ReadJob cfg) : List Packet :=
  if j.left = 0 ∧ j.request.needsResponse = true then [j.request] else []

structure WellFormed (j : ReadJob cfg) : Prop where
  isRead : j.request.isRead = true
  found : ∀ addr ∈ j.found, ∃ w ∈ j.writeQueue, w.addr ≤ addr ∧
    endAddr addr (burstLen cfg j.request addr) ≤ endAddr w.addr w.size
  bursts : (j.found ++ j.entries.map (·.addr)).Perm (burstsOf cfg j.request)
  entries : ∀ p ∈ j.entries, p.pkt = j.request ∧ p.burstHelper = j.helper ∧ p.isRead = true
  single : j.helper = none → j.left ≠ 0 → dramPktCount cfg j.request = 1

end ReadJob

/-- The ledger of the reads that were taken over. At the tick `now` the bursts of all
processed responses are over. -/
structure DramQueues.Ledger (q : DramQueues cfg) (now : Tick) (jobs : List (ReadJob cfg)) :
    Prop where
  wellFormed : ∀ j ∈ jobs, j.WellFormed
  past : ∀ j ∈ jobs, ∀ p ∈ j.fetched, p.readyTime ≤ now
  answered : q.answered.Perm (jobs.flatMap ReadJob.answers)
  readQueue : q.readQueue.Perm (jobs.flatMap ReadJob.unread)
  respQueue : q.respQueue.Perm (jobs.flatMap ReadJob.unsent)
  reads : q.reads.Perm ((jobs.flatMap ReadJob.fetched ++ q.respQueue).map fun p =>
    (p.rowBuf, p.readyTime))
  helpers : ∀ j ∈ jobs, ∀ i ∈ j.helper, q.helpers[i]? =
    some ⟨dramPktCount cfg j.request, dramPktCount cfg j.request - j.left⟩
  distinct : (jobs.filterMap ReadJob.helper).Nodup

/-! ## Bursts -/

theorem length_burstsFrom (cnt : Nat) (addr : Addr) : (burstsFrom cfg cnt addr).length = cnt := by
  induction cnt generalizing addr with
  | zero => rfl
  | succ cnt ih => rw [burstsFrom, List.length_cons, ih]

namespace ReadLemmas

variable {params : ParamTable} {writeQueue new : List (DRAMPacket cfg)} {pkt : Packet}
  {helper : Option Nat} {cnt : Nat} {addr : Addr}

/-- The loop over the bursts of a read finds some of them and queues the others. -/
theorem adds_bursts (h : DramQueues.AddsReads params writeQueue pkt helper cnt addr new) :
    ∃ found, (found ++ new.map (·.addr)).Perm (burstsFrom cfg cnt addr) ∧
      ∀ addr ∈ found, ∃ w ∈ writeQueue, w.addr ≤ addr ∧
        endAddr addr (burstLen cfg pkt addr) ≤ endAddr w.addr w.size := by
  induction h with
  | done => exact ⟨[], .refl _, fun _ hmem => (List.not_mem_nil hmem).elim⟩
  | @found _ addr _ hfound _ ih =>
    obtain ⟨found, hperm, hall⟩ := ih
    refine ⟨addr :: found, hperm.cons addr, List.forall_mem_cons.mpr ⟨?_, hall⟩⟩
    simpa [foundInWrQ] using hfound
  | @queue _ addr p new _ hdecode _ ih =>
    obtain ⟨found, hperm, hall⟩ := ih
    refine ⟨found, ?_, hall⟩
    rw [List.map_cons, show p.addr = addr from hdecode.addr]
    exact List.perm_middle.trans (hperm.cons addr)

theorem adds_length
    (h : DramQueues.AddsReads params writeQueue pkt helper cnt addr new) : new.length ≤ cnt := by
  obtain ⟨found, hperm, -⟩ := adds_bursts h
  have hlen := hperm.length_eq
  rw [length_burstsFrom, List.length_append, List.length_map] at hlen
  exact hlen ▸ Nat.le_add_left _ _

end ReadLemmas

open ReadLemmas

namespace ReadJob

variable {j : ReadJob cfg}

theorem WellFormed.length (h : j.WellFormed) :
    j.found.length + j.fetched.length + j.left = dramPktCount cfg j.request := by
  have hlen := h.bursts.length_eq
  unfold burstsOf ReadJob.entries at hlen
  rw [length_burstsFrom] at hlen
  rw [← hlen]
  simp only [List.length_append, List.length_map, left, Nat.add_assoc]

theorem WellFormed.left_le (h : j.WellFormed) : j.left ≤ dramPktCount cfg j.request :=
  h.length ▸ Nat.le_add_left _ _

theorem answers_of_ne (h : j.left ≠ 0) : j.answers = [] := if_neg fun hleft => h hleft.1

section Moves

variable {pkt : DRAMPacket cfg} {before after : List (DRAMPacket cfg)}

def serve (j : ReadJob cfg) (pkt : DRAMPacket cfg) (rest : List (DRAMPacket cfg)) : ReadJob cfg :=
  { j with unsent := j.unsent ++ [pkt], unread := rest }

def fetch (j : ReadJob cfg) (pkt : DRAMPacket cfg) (rest : List (DRAMPacket cfg)) : ReadJob cfg :=
  { j with fetched := j.fetched ++ [pkt], unsent := rest }

theorem WellFormed.serve (h : j.WellFormed) (hunread : j.unread = before ++ pkt :: after)
    (readyTime : Tick) : (j.serve { pkt with readyTime } (before ++ after)).WellFormed := by
  have hmem : ∀ p, p ∈ before ++ pkt :: after → p ∈ j.entries := fun p hp =>
    List.mem_append_right _ (List.mem_append_right _ (hunread ▸ hp))
  refine ⟨h.isRead, h.found, .trans (.append_left _ ?_) h.bursts, fun p hp => ?_, fun hnone _ => ?_⟩
  · simp only [ReadJob.entries, ReadJob.serve, hunread, List.map_append, List.map_cons,
      List.append_assoc, List.singleton_append]
    exact (List.perm_middle.symm.append_left _).append_left _
  · simp only [ReadJob.entries, ReadJob.serve, List.mem_append, List.mem_singleton] at hp
    rcases hp with hp | (hp | rfl) | hp | hp
    · exact h.entries p (List.mem_append_left _ hp)
    · exact h.entries p (List.mem_append_right _ (List.mem_append_left _ hp))
    · exact h.entries pkt (hmem pkt (by simp))
    · exact h.entries p (hmem p (by simp [hp]))
    · exact h.entries p (hmem p (by simp [hp]))
  · refine h.single hnone (Nat.ne_of_gt (Nat.add_pos_right _ ?_))
    rw [hunread]
    exact List.length_pos_iff.mpr (by simp)

theorem WellFormed.fetch (h : j.WellFormed) (hunsent : j.unsent = before ++ pkt :: after) :
    (j.fetch pkt (before ++ after)).WellFormed := by
  have hperm : (j.fetch pkt (before ++ after)).entries.Perm j.entries := by
    simp only [ReadJob.entries, ReadJob.fetch, hunsent, List.append_assoc, List.cons_append,
      List.nil_append]
    exact List.perm_middle.symm.append_left _
  refine ⟨h.isRead, h.found, ((hperm.map _).append_left _).trans h.bursts,
    fun p hp => h.entries p (hperm.mem_iff.mp hp), fun hnone _ => ?_⟩
  refine h.single hnone (Nat.ne_of_gt (Nat.add_pos_left ?_ _))
  rw [hunsent]
  exact List.length_pos_iff.mpr (by simp)

theorem left_serve (hunread : j.unread = before ++ pkt :: after) (p : DRAMPacket cfg) :
    (j.serve p (before ++ after)).left = j.left := by
  simp only [left, ReadJob.serve, hunread, List.length_append, List.length_cons, List.length_nil]
  omega

theorem left_fetch (hunsent : j.unsent = before ++ pkt :: after) :
    j.left = (j.fetch pkt (before ++ after)).left + 1 := by
  simp only [left, ReadJob.fetch, hunsent, List.length_append, List.length_cons]
  omega

end Moves

end ReadJob

/-! ## Helpers -/

namespace DramQueues

variable {q : DramQueues cfg} {count queued i : Nat}

theorem mem_helperOf (h : i ∈ q.helperOf count) : 1 < count ∧ i = q.helpers.length := by
  unfold helperOf at h
  split at h
  · next hsplit => exact ⟨hsplit, (Option.some.inj h).symm⟩
  · cases h

theorem single_of_none (h : q.helperOf count = none) (hcount : count ≠ 0) : count = 1 := by
  unfold helperOf at h
  split at h
  · cases h
  · next hsplit => exact Nat.le_antisymm (Nat.not_lt.mp hsplit) (Nat.pos_of_ne_zero hcount)

theorem answer_perm {j : ReadJob cfg} {answered : List Packet} (hleft : j.left = 0)
    (h : q.answered.Perm answered) : (q.answer j.request).Perm (j.answers ++ answered) := by
  unfold answer ReadJob.answers
  cases hneeds : j.request.needsResponse with
  | false => simpa using h
  | true => simpa [hleft] using h

theorem helpersWith_new (hpos : 0 < queued) (h : i ∈ q.helperOf count) :
    (q.helpersWith count queued)[i]? = some ⟨count, count - queued⟩ := by
  obtain ⟨hsplit, rfl⟩ := mem_helperOf h
  unfold helpersWith
  rw [if_pos ⟨hsplit, hpos⟩]
  exact List.getElem?_concat_length

theorem helpersWith_old (h : i < q.helpers.length) :
    (q.helpersWith count queued)[i]? = q.helpers[i]? := by
  unfold helpersWith
  split
  · exact List.getElem?_append_left h
  · rfl

end DramQueues

/-! ## Inputs -/

namespace DramQueues.Ledger

variable {q q' : DramQueues cfg} {now now' : Tick} {jobs jobs' : List (ReadJob cfg)}
  {rest : List (DRAMPacket cfg)} {complete : Bool} {helpers : List BurstHelper}

theorem startup (now : Tick) : (Dram.startup cfg now).queues.Ledger now [] :=
  ⟨fun _ hj => (List.not_mem_nil hj).elim, fun _ hj => (List.not_mem_nil hj).elim, .nil, .nil, .nil,
    .nil, fun _ hj => (List.not_mem_nil hj).elim, List.nodup_nil⟩

theorem perm (h : q.Ledger now jobs) (hperm : jobs.Perm jobs') : q.Ledger now jobs' := by
  constructor
  · exact fun j hj => h.wellFormed j (hperm.mem_iff.mpr hj)
  · exact fun j hj => h.past j (hperm.mem_iff.mpr hj)
  · exact h.answered.trans (hperm.flatMap_right _)
  · exact h.readQueue.trans (hperm.flatMap_right _)
  · exact h.respQueue.trans (hperm.flatMap_right _)
  · exact h.reads.trans (((hperm.flatMap_right _).append_right _).map _)
  · exact fun j hj => h.helpers j (hperm.mem_iff.mpr hj)
  · exact (hperm.filterMap _).nodup_iff.mp h.distinct

theorem later (h : q.Ledger now jobs) (hle : now ≤ now') : q.Ledger now' jobs :=
  { h with past := fun j hj p hp => Nat.le_trans (h.past j hj p hp) hle }

theorem forwarded (h : q.Ledger now jobs) {pkt : Packet} (hread : pkt.isRead = true)
    (hnew : AddsReads q.params q.writeQueue pkt (q.helperOf (dramPktCount cfg pkt))
      (dramPktCount cfg pkt) pkt.addr []) :
    ∃ j : ReadJob cfg, j.accepted = (pkt, q.writeQueue) ∧
      { q with answered := q.answer pkt }.Ledger now (j :: jobs) := by
  obtain ⟨found, hperm, hfound⟩ := adds_bursts hnew
  let j : ReadJob cfg := ⟨pkt, q.writeQueue, none, found, [], [], []⟩
  have hj : j.WellFormed :=
    ⟨hread, hfound, hperm, fun p hp => (List.not_mem_nil hp).elim, fun _ hleft => absurd rfl hleft⟩
  refine ⟨j, rfl, ?_⟩
  constructor
  · exact List.forall_mem_cons.mpr ⟨hj, h.wellFormed⟩
  · exact List.forall_mem_cons.mpr ⟨fun p hp => (List.not_mem_nil hp).elim, h.past⟩
  · exact answer_perm (j := j) rfl h.answered
  · exact h.readQueue
  · exact h.respQueue
  · exact h.reads
  · exact List.forall_mem_cons.mpr ⟨fun i hi => (Option.not_mem_none i hi).elim, h.helpers⟩
  · exact h.distinct

theorem read (h : q.Ledger now jobs) {pkt : Packet} {new : List (DRAMPacket cfg)}
    (hread : pkt.isRead = true) (hne : new ≠ [])
    (hnew : AddsReads q.params q.writeQueue pkt (q.helperOf (dramPktCount cfg pkt))
      (dramPktCount cfg pkt) pkt.addr new) :
    ∃ j : ReadJob cfg, j.accepted = (pkt, q.writeQueue) ∧
      { q with
        readQueue := q.readQueue ++ new
        helpers := q.helpersWith (dramPktCount cfg pkt) new.length }.Ledger now (j :: jobs) := by
  obtain ⟨found, hperm, hfound⟩ := adds_bursts hnew
  have hlen : 0 < new.length := List.length_pos_iff.mpr hne
  let j : ReadJob cfg := ⟨pkt, q.writeQueue, q.helperOf (dramPktCount cfg pkt), found, [], [], new⟩
  have hj : j.WellFormed := by
    refine ⟨hread, hfound, hperm, ?_, fun hnone _ => ?_⟩
    · exact hnew.forall_mem fun addr p hp => ⟨hp.request, rfl, hp.isRead⟩
    · exact single_of_none hnone (Nat.ne_of_gt (Nat.lt_of_lt_of_le hlen (adds_length hnew)))
  have hleft : j.left = new.length := Nat.zero_add _
  have hold : ∀ k ∈ jobs, ∀ i ∈ k.helper, i < q.helpers.length := fun k hk i hi =>
    (List.getElem?_eq_some_iff.mp (h.helpers k hk i hi)).1
  refine ⟨j, rfl, ?_⟩
  constructor
  · exact List.forall_mem_cons.mpr ⟨hj, h.wellFormed⟩
  · exact List.forall_mem_cons.mpr ⟨fun p hp => (List.not_mem_nil hp).elim, h.past⟩
  · rw [List.flatMap_cons, ReadJob.answers_of_ne (hleft ▸ Nat.ne_of_gt hlen)]
    exact h.answered
  · exact (h.readQueue.append_right new).trans List.perm_append_comm
  · exact h.respQueue
  · exact h.reads
  · refine List.forall_mem_cons.mpr ⟨fun i hi => ?_, fun k hk i hi => ?_⟩
    · rw [hleft]
      exact helpersWith_new hlen hi
    · exact (helpersWith_old (hold k hk i hi)).trans (h.helpers k hk i hi)
  · -- the new helper has no other read
    have hfresh : ∀ i ∈ j.helper, i ∉ jobs.filterMap ReadJob.helper := by
      intro i hi hmem
      obtain ⟨k, hk, hki⟩ := List.mem_filterMap.mp hmem
      exact absurd (mem_helperOf hi).2 (Nat.ne_of_lt (hold k hk i hki))
    cases hhelper : j.helper with
    | none =>
      rw [List.filterMap_cons_none hhelper]
      exact h.distinct
    | some i =>
      rw [List.filterMap_cons_some hhelper]
      exact List.nodup_cons.mpr ⟨hfresh i hhelper, h.distinct⟩

/-- The read that waits for a queued entry, and its other entries of the queue. -/
theorem exists_job {f : ReadJob cfg → List (DRAMPacket cfg)} {pkt : DRAMPacket cfg}
    (h : q.Ledger now jobs) (hmem : pkt ∈ jobs.flatMap f) :
    ∃ j others before after, q.Ledger now (j :: others) ∧
      (j :: others).Perm jobs ∧ f j = before ++ pkt :: after := by
  obtain ⟨j, hj, hpkt⟩ := List.mem_flatMap.mp hmem
  obtain ⟨others, hperm⟩ := exists_perm_cons hj
  obtain ⟨before, after, hf⟩ := List.append_of_mem hpkt
  exact ⟨j, others, before, after, h.perm hperm, hperm.symm, hf⟩

theorem serveRead (h : q.Ledger now jobs) {pkt : DRAMPacket cfg} (readyTime : Tick)
    (hchoose : (pkt :: rest).Perm q.readQueue) :
    ∃ jobs', (jobs'.map ReadJob.accepted).Perm (jobs.map ReadJob.accepted) ∧
      { q with
        readQueue := rest
        respQueue := q.respQueue ++ [{ pkt with readyTime }]
        reads := q.readsWith pkt readyTime }.Ledger now jobs' := by
  have hmem : pkt ∈ jobs.flatMap ReadJob.unread :=
    h.readQueue.mem_iff.mp (hchoose.mem_iff.mp (List.mem_cons_self ..))
  obtain ⟨j, others, before, after, h, hperm, hunread⟩ := h.exists_job hmem
  have hj : j.WellFormed := h.wellFormed j (List.mem_cons_self ..)
  have hread : pkt.isRead = true := (hj.entries pkt (by simp [ReadJob.entries, hunread])).2.2
  have hleft : (j.serve { pkt with readyTime } (before ++ after)).left = j.left :=
    ReadJob.left_serve hunread _
  refine ⟨j.serve { pkt with readyTime } (before ++ after) :: others, hperm.map ReadJob.accepted,
    ?_⟩
  constructor
  · exact List.forall_mem_cons.mpr ⟨hj.serve hunread readyTime,
      (List.forall_mem_cons.mp h.wellFormed).2⟩
  · exact List.forall_mem_cons.mpr (List.forall_mem_cons.mp h.past)
  · have hanswers : (j.serve { pkt with readyTime } (before ++ after)).answers = j.answers := by
      unfold ReadJob.answers
      rw [hleft]
      rfl
    rw [List.flatMap_cons, hanswers]
    exact h.answered
  · have hqueue := hchoose.trans h.readQueue
    rw [List.flatMap_cons, hunread, List.append_assoc] at hqueue
    exact (hqueue.trans List.perm_middle).cons_inv.trans (by simp [ReadJob.serve])
  · refine (h.respQueue.append_right _).trans ?_
    simp only [List.flatMap_cons, ReadJob.serve, List.append_assoc]
    exact List.perm_append_comm.append_left _
  · have hreads : q.readsWith pkt readyTime = (pkt.rowBuf, readyTime) :: q.reads := if_pos hread
    rw [hreads, ← List.append_assoc, List.map_append]
    exact (h.reads.cons _).trans (List.perm_append_singleton _ _).symm
  · refine List.forall_mem_cons.mpr ⟨?_, (List.forall_mem_cons.mp h.helpers).2⟩
    rw [hleft]
    exact (List.forall_mem_cons.mp h.helpers).1
  · exact h.distinct

/-- What the helper of a read says when one of its responses is processed: the read is
complete with the last one, and the helpers of the other reads stay as they are. -/
theorem burstDone_cases {j : ReadJob cfg} {others : List (ReadJob cfg)} {pkt : DRAMPacket cfg}
    {n : Nat}
    (h : q.Ledger now (j :: others)) (hhelper : pkt.burstHelper = j.helper)
    (hleft : j.left = n + 1) (hdone : burstDone q.helpers pkt = some (complete, helpers)) :
    complete = (n == 0) ∧
      (∀ i ∈ j.helper, helpers[i]? =
        some ⟨dramPktCount cfg j.request, dramPktCount cfg j.request - n⟩) ∧
      ∀ k ∈ others, ∀ i ∈ k.helper, helpers[i]? = q.helpers[i]? := by
  have hj : j.WellFormed := h.wellFormed j (List.mem_cons_self ..)
  have hle : n + 1 ≤ dramPktCount cfg j.request := hleft ▸ hj.left_le
  unfold burstDone at hdone
  rw [hhelper] at hdone
  cases hid : j.helper with
  | none =>
    rw [hid] at hdone
    obtain ⟨rfl, rfl⟩ := Prod.mk.inj (Option.some.inj hdone)
    rw [hj.single hid (hleft ▸ Nat.succ_ne_zero n)] at hle
    have hn : n = 0 := Nat.le_zero.mp (Nat.le_of_succ_le_succ hle)
    subst hn
    exact ⟨rfl, fun i hi => (Option.not_mem_none i hi).elim, fun _ _ _ _ => rfl⟩
  | some i =>
    have hold := h.helpers j (List.mem_cons_self ..) i hid
    have hlt : i < q.helpers.length := (List.getElem?_eq_some_iff.mp hold).1
    rw [hleft] at hold
    simp only [hid, hold, Option.map_some, Option.some.injEq, Prod.mk.injEq] at hdone
    obtain ⟨rfl, rfl⟩ := hdone
    have hcount : dramPktCount cfg j.request - (n + 1) + 1 = dramPktCount cfg j.request - n := by
      omega
    refine ⟨?_, fun i' hi' => ?_, fun k hk i' hi' => List.getElem?_set_ne ?_⟩
    · rw [hcount, Bool.eq_iff_iff, beq_iff_eq, beq_iff_eq]
      omega
    · obtain rfl := Option.some.inj hi'
      rw [List.getElem?_set_self hlt, hcount]
    · rintro rfl
      have hdistinct := h.distinct
      rw [List.filterMap_cons_some hid] at hdistinct
      exact (List.nodup_cons.mp hdistinct).1 (List.mem_filterMap.mpr ⟨k, hk, hi'⟩)

/-- The first response is processed, and the read is answered if it was the last one. -/
theorem respond (h : q.Ledger now jobs) {pkt : DRAMPacket cfg}
    (hready : pkt.readyTime ≤ now) (hqueue : q.respQueue = pkt :: rest)
    (hdone : burstDone q.helpers pkt = some (complete, helpers)) :
    ∃ jobs', (jobs'.map ReadJob.accepted).Perm (jobs.map ReadJob.accepted) ∧
      { q with
        respQueue := rest
        helpers
        answered := if complete && pkt.pkt.isRead then q.answer pkt.pkt else q.answered
        }.Ledger now jobs' := by
  have hmem : pkt ∈ jobs.flatMap ReadJob.unsent :=
    h.respQueue.mem_iff.mp (hqueue ▸ List.mem_cons_self ..)
  obtain ⟨j, others, before, after, h, hperm, hunsent⟩ := h.exists_job hmem
  have hj : j.WellFormed := h.wellFormed j (List.mem_cons_self ..)
  have hleft : j.left = (j.fetch pkt (before ++ after)).left + 1 := ReadJob.left_fetch hunsent
  obtain ⟨hrequest, hhelper, -⟩ := hj.entries pkt (by simp [ReadJob.entries, hunsent])
  obtain ⟨hcomplete, hown, hother⟩ := h.burstDone_cases hhelper hleft hdone
  refine ⟨j.fetch pkt (before ++ after) :: others, hperm.map ReadJob.accepted, ?_⟩
  constructor
  · exact List.forall_mem_cons.mpr ⟨hj.fetch hunsent, (List.forall_mem_cons.mp h.wellFormed).2⟩
  · obtain ⟨hover, hothers⟩ := List.forall_mem_cons.mp h.past
    refine List.forall_mem_cons.mpr ⟨?_, hothers⟩
    exact List.forall_mem_append.mpr ⟨hover, List.forall_mem_singleton.mpr hready⟩
  · have hanswered : q.answered.Perm (others.flatMap ReadJob.answers) := by
      have hold := h.answered
      rwa [List.flatMap_cons, ReadJob.answers_of_ne (hleft ▸ Nat.succ_ne_zero _)] at hold
    rw [hrequest, hj.isRead, Bool.and_true, hcomplete, List.flatMap_cons]
    by_cases hlast : (j.fetch pkt (before ++ after)).left = 0
    · rw [if_pos (beq_iff_eq.mpr hlast)]
      exact answer_perm (j := j.fetch pkt (before ++ after)) hlast hanswered
    · rw [if_neg fun h => hlast (beq_iff_eq.mp h), ReadJob.answers_of_ne hlast]
      exact hanswered
  · exact h.readQueue
  · have hold := h.respQueue
    rw [hqueue, List.flatMap_cons, hunsent, List.append_assoc] at hold
    exact (hold.trans List.perm_middle).cons_inv.trans (by simp [ReadJob.fetch])
  · have hold := h.reads
    rw [hqueue, List.flatMap_cons, List.append_assoc] at hold
    refine hold.trans (.map _ ?_)
    simp only [List.flatMap_cons, ReadJob.fetch, List.append_assoc, List.singleton_append]
    exact List.perm_middle.append_left _
  · refine List.forall_mem_cons.mpr ⟨hown, fun k hk i hi => ?_⟩
    exact (hother k hk i hi).trans (h.helpers k (List.mem_cons_of_mem _ hk) i hi)
  · exact h.distinct

/-- What an input does to the ledger. A response is processed when it is due. -/
theorem step (h : q.Ledger now jobs) (hsorted : q.Sorted) {input : DramInput} {taken : List Packet}
    (hready : input = .event .respond → ∀ pkt ∈ q.respQueue.head?, pkt.readyTime ≤ now)
    (hstep : QueueStep q input taken q') :
    ∃ jobs', (jobs'.map ReadJob.accepted).Perm
        ((taken.map (·, q.writeQueue)).filter (·.1.isRead) ++ jobs.map ReadJob.accepted) ∧
      q'.Ledger now jobs' := by
  cases hstep with
  | same => exact ⟨jobs, .refl _, h⟩
  | set => exact ⟨jobs, .refl _, { h with }⟩
  | forwarded hread _ hnew =>
    obtain ⟨j, hj, hjobs⟩ := h.forwarded hread hnew
    exact ⟨j :: jobs, by simp [hj, hread], hjobs⟩
  | read hread _ hne hnew =>
    obtain ⟨j, hj, hjobs⟩ := h.read hread hne hnew
    exact ⟨j :: jobs, by simp [hj, hread], hjobs⟩
  | write hread => exact ⟨jobs, by simp [hread], { h with }⟩
  | @serveRead _ _ readyTime hchoose => exact h.serveRead readyTime hchoose
  | @serveWrite pkt rest readyTime hchoose =>
    have hpkt : pkt.isRead = false :=
      hsorted.writes pkt (hchoose.mem_iff.mp (List.mem_cons_self ..))
    have hreads : q.readsWith pkt readyTime = q.reads := if_neg (Bool.eq_false_iff.mp hpkt)
    rw [hreads]
    exact ⟨jobs, .refl _, { h with }⟩
  | respond hqueue hdone =>
    exact h.respond (hready rfl _ (by rw [hqueue]; rfl)) hqueue hdone

end DramQueues.Ledger

/-! ## The bounds of the queues -/

structure DramQueues.Bounded (q : DramQueues cfg) : Prop where
  reads : q.readQueue.length + q.respQueue.length ≤ cfg.readBufferSize
  writes : q.writeQueue.length ≤ cfg.writeBufferSize

theorem DramQueues.AddsWrites.length_le {params : ParamTable} {pkt : Packet} {cnt : Nat}
    {addr : Addr} {queue queue' : List (DRAMPacket cfg)}
    (h : AddsWrites params pkt cnt addr queue queue')
    (hle : queue.length ≤ cfg.writeBufferSize) : queue'.length ≤ cfg.writeBufferSize := by
  induction h with
  | done => exact hle
  | merge hmerge _ ih =>
    obtain ⟨before, w, w', after, rfl, rfl, -⟩ := mergeWrite_eq hmerge
    exact ih (by simpa using hle)
  | add _ _ hroom _ ih => exact ih (by simpa using Nat.succ_le_of_lt hroom)

theorem DramQueues.Bounded.step {q q' : DramQueues cfg} {input : DramInput} {taken : List Packet}
    (h : q.Bounded) (hstep : QueueStep q input taken q') : q'.Bounded := by
  cases hstep with
  | same => exact h
  | set | forwarded => exact ⟨h.reads, h.writes⟩
  | @read _ new _ hroom _ hnew =>
    refine ⟨?_, h.writes⟩
    have hlen := adds_length hnew
    simp only [List.length_append]
    omega
  | write _ _ _ _ hnew => exact ⟨h.reads, hnew.length_le h.writes⟩
  | serveRead hchoose =>
    refine ⟨?_, h.writes⟩
    have hlen := hchoose.length_eq
    have hreads := h.reads
    simp only [List.length_append, List.length_cons, List.length_nil] at hlen ⊢
    omega
  | serveWrite hchoose =>
    refine ⟨h.reads, Nat.le_trans ?_ h.writes⟩
    exact hchoose.length_eq ▸ Nat.le_succ _
  | respond hqueue =>
    refine ⟨Nat.le_trans (Nat.add_le_add_left ?_ _) h.reads, h.writes⟩
    exact hqueue ▸ Nat.le_succ _

theorem Dram.Reachable.bounded {P : Dram cfg → DramInput → Prop} {s : Dram cfg}
    (h : s.Reachable P) : s.queues.Bounded :=
  h.queues_induct ⟨Nat.zero_le _, Nat.zero_le _⟩ fun _ _ _ _ hs _ hstep => hs.step hstep

/-! ## Runs -/

namespace Dram

variable {P : Dram cfg → DramInput → Prop} {s : Dram cfg}
  {accepted : List (Packet × List (DRAMPacket cfg))}

/-- In every run there is a ledger of the reads that were accepted. -/
theorem Accepts.ledger (h : Accepts P s accepted) :
    ∃ jobs, (jobs.map ReadJob.accepted).Perm (accepted.filter (·.1.isRead)) ∧
      s.queues.Ledger s.curTick jobs := by
  induction h with
  | startup now =>
    exact ⟨[], .refl _, .startup now⟩
  | @step s s' input accepted hs _ hen hcall ih =>
    obtain ⟨jobs, hperm, hjobs⟩ := ih
    have hready : input = .event .respond → ∀ pkt ∈ s.respQueue.head?,
        pkt.readyTime ≤ s.curTick := by
      rintro rfl pkt hpkt
      have hevent : s.respondEvent = s.respQueue.head?.map (·.readyTime) :=
        hs.reachable.responds.event
      have hnow : s.respondEvent = some s.curTick := hen
      rw [hpkt, hnow] at hevent
      exact Nat.le_of_eq (Option.some.inj hevent).symm
    obtain ⟨jobs', hperm', hjobs'⟩ := hjobs.step hs.reachable.sorted hready
      (call_queueStep hen hcall)
    have hcore : CoreStep (fun _ _ _ => True) s input s' :=
      call_coreStep (fun _ _ _ _ _ => trivial) hen hcall
    refine ⟨jobs', ?_, hjobs'.later hcore.curTick_le⟩
    rw [accepts_eq hcall, List.filter_append]
    exact hperm'.trans (hperm.append_left _)

end Dram

/-- In every run, every accepted read is answered once all of its bursts were found or read, and not
before. Until then an event is scheduled for it, unless a refresh has stopped the loop. The queues
stay within their bounds, and the responses are in the order of their ready times with the event
scheduled for the first. -/
theorem read_completion {s : Dram cfg} {accepted : List (Packet × List (DRAMPacket cfg))}
    (h : Dram.Accepts (fun _ _ => True) s accepted) :
    (∃ jobs, (jobs.map ReadJob.accepted).Perm (accepted.filter (·.1.isRead)) ∧
      s.queues.Ledger s.curTick jobs ∧ ∀ j ∈ jobs, j.left ≠ 0 → s.respondEvent ≠ none ∨
        s.readQueue ≠ [] ∧ (s.refreshState = .REF_IDLE → s.nextReqEvent ≠ none)) ∧
    s.readQueue.length + s.respQueue.length ≤ cfg.readBufferSize ∧
    s.writeQueue.length ≤ cfg.writeBufferSize ∧
    s.respQueue.Pairwise (fun p q => p.readyTime ≤ q.readyTime) ∧
    s.respondEvent = s.respQueue.head?.map (·.readyTime) := by
  obtain ⟨jobs, hperm, hledger⟩ := h.ledger
  have hrun := h.reachable
  have hevent : s.respondEvent = s.respQueue.head?.map (·.readyTime) := hrun.responds.event
  refine ⟨⟨jobs, hperm, hledger, fun j hj hleft => ?_⟩, hrun.bounded.reads, hrun.bounded.writes,
    hrun.responds.sorted, hevent⟩
  have hin {f : ReadJob cfg → List (DRAMPacket cfg)} {queue : List (DRAMPacket cfg)}
      (hqueue : queue.Perm (jobs.flatMap f)) (hne : f j ≠ []) : queue ≠ [] := by
    obtain ⟨p, hp⟩ := List.exists_mem_of_ne_nil _ hne
    exact List.ne_nil_of_mem (hqueue.mem_iff.mpr (List.mem_flatMap.mpr ⟨j, hj, hp⟩))
  by_cases hunsent : j.unsent = []
  · have hunread : j.unread ≠ [] := by
      intro hunread
      exact hleft (by rw [ReadJob.left, hunsent, hunread]; rfl)
    have hreads : s.readQueue ≠ [] := hin hledger.readQueue hunread
    exact .inr ⟨hreads, fun hidle => hrun.awake.idle hidle (.inr (.inr (.inl hreads)))⟩
  · obtain ⟨next, rest, hqueue⟩ := List.exists_cons_of_ne_nil (hin hledger.respQueue hunsent)
    rw [show s.respQueue = next :: rest from hqueue] at hevent
    exact .inl (hevent ▸ Option.some_ne_none _)

/-- A read of two bursts finds the first one in the write queue and is answered when the
second one has been read. -/
theorem read_completion_split :
    ∃ (s : Dram .oneBank) (accepted : List (Packet × List (DRAMPacket .oneBank))),
      Dram.Accepts (fun _ _ => True) s accepted ∧ s.queues.answered = [rowsReq .ReadReq 1 2] ∧
      ∃ jobs, (jobs.map ReadJob.accepted).Perm (accepted.filter (·.1.isRead)) ∧
        s.queues.Ledger s.curTick jobs := by
  obtain ⟨s, hs, hanswered⟩ := Dram.exists_reachable (P := fun _ _ => True) 0
    [.timingReq (rowsReq .WriteReq 1 1), .timingReq (rowsReq .ReadReq 1 2), .event .nextReq,
      .event .activate, .event .power, .advance 1, .event .nextReq, .advance 2, .event .nextReq,
      .advance 7, .event .respond]
    (fun s : Dram .oneBank => s.queues.answered = [rowsReq .ReadReq 1 2]) (by decide +kernel)
  obtain ⟨accepted, haccepts⟩ := hs.accepts
  obtain ⟨⟨jobs, hperm, hledger, -⟩, -⟩ := read_completion haccepts
  exact ⟨s, accepted, haccepts, hanswered, jobs, hperm, hledger⟩

end PardG5V
