import PardG5V.Cache.QueueInv
import PardG5V.Cache.RegStep

/-!
# Invariants of the miss status registers

A step of the registers changes one register, so an invariant is proved from what can happen to a
single one (`RegChange`). The targets of a register are for its line and the packets that the
cache waits for belong to registers in service, so a response is always for the line of the
targets it answers.
-/

namespace PardG5V

open Prog Relation

variable {cfg : CacheConfig} {wf : Prop} {G : GuestID → Prop} {L : Event → Prop} {m m' : MSHR}
  {r r' : Regs} {q : QueueIndex}

def MSHR.line (cfg : CacheConfig) (m : MSHR) : Line :=
  ⟨m.guest, cfg.blkAlign m.addr, m.isSecure⟩

structure MSHR.SameEntry (m m' : MSHR) : Prop where
  guest : m'.guest = m.guest
  addr : m'.addr = m.addr
  size : m'.size = m.size
  isSecure : m'.isSecure = m.isSecure
  readyTime : m'.readyTime = m.readyTime
  order : m'.order = m.order

theorem MSHR.SameEntry.line (h : m.SameEntry m') : m'.line cfg = m.line cfg := by
  unfold MSHR.line
  rw [h.guest, h.addr, h.isSecure]

def Target.Replaced (t t' : Target) : Prop :=
  t' = t ∨ t' = { t with pkt := t.pkt.replaceUpgrade }

namespace RegLemmas

variable {m m' : MSHR} {pkt : Packet} {now whenReady : Tick} {order : Nat}

/-! ## The operations of a register -/

theorem replaceUpgrades_replaced {l : TargetList} {t' : Target}
    (h : t' ∈ l.replaceUpgrades.targets) : ∃ t ∈ l.targets, t.Replaced t' := by
  unfold TargetList.replaceUpgrades at h
  split at h
  · obtain ⟨t, ht, rfl⟩ := List.mem_map.mp h
    exact ⟨t, ht, .inr rfl⟩
  · exact ⟨t', h, .inl rfl⟩

theorem allocateTarget_spec (h : m.allocateTarget pkt now whenReady order = .ok m') :
    m.SameEntry m' ∧ m'.inService = m.inService ∧
      ∃ t : Target, t.source = .fromCPU ∧ (t.pkt = pkt ∨ t.pkt = pkt.replaceUpgrade) ∧
        t.order = order ∧ t.readyTime = whenReady ∧
        (m'.targets.targets = m.targets.targets ++ [t] ∧
            m'.deferredTargets.targets = m.deferredTargets.targets ∨
          m'.targets.targets = m.targets.targets ∧ m.inService = true ∧
            m'.deferredTargets.targets = m.deferredTargets.targets ++ [t]) := by
  simp only [MSHR.allocateTarget, except_bind_eq_ok, except_pure_eq_ok] at h
  obtain ⟨_, _, rfl⟩ := h
  split
  · next hdefer =>
    refine ⟨⟨rfl, rfl, rfl, rfl, rfl, rfl⟩, rfl, _, rfl, ?_, rfl, rfl, .inr ⟨rfl, ?_, rfl⟩⟩
    · split
      · exact .inr rfl
      · exact .inl rfl
    · exact (Bool.and_eq_true_iff.mp hdefer).1
  · exact ⟨⟨rfl, rfl, rfl, rfl, rfl, rfl⟩, rfl, _, rfl, .inl rfl, rfl, rfl, .inl ⟨rfl, rfl⟩⟩

theorem queueSnoop_spec (m : MSHR) (pkt : Packet) (now : Tick) (order : Nat) :
    m.SameEntry (m.queueSnoop pkt now order).1 ∧
      (m.queueSnoop pkt now order).1.inService = m.inService ∧
      (m.queueSnoop pkt now order).1.deferredTargets = m.deferredTargets ∧
      ∀ t ∈ (m.queueSnoop pkt now order).1.targets.targets,
        t ∈ m.targets.targets ∨ t.source = .fromSnoop := by
  have hadd {t' : Target} (h : t'.source = .fromSnoop) : ∀ t ∈ m.targets.targets ++ [t'],
      t ∈ m.targets.targets ∨ t.source = .fromSnoop :=
    List.forall_mem_append.mpr ⟨fun t ht => .inl ht, List.forall_mem_singleton.mpr (.inr h)⟩
  unfold MSHR.queueSnoop MSHR.holdSnoop
  cases pkt.needsExclusive <;> split
  · exact ⟨⟨rfl, rfl, rfl, rfl, rfl, rfl⟩, rfl, rfl, hadd rfl⟩
  · exact ⟨⟨rfl, rfl, rfl, rfl, rfl, rfl⟩, rfl, rfl, fun t ht => .inl ht⟩
  · exact ⟨⟨rfl, rfl, rfl, rfl, rfl, rfl⟩, rfl, rfl, hadd rfl⟩
  · exact ⟨⟨rfl, rfl, rfl, rfl, rfl, rfl⟩, rfl, rfl, fun t ht => .inl ht⟩

theorem handleSnoop_spec (m : MSHR) (pkt : Packet) (now : Tick) (order : Nat) :
    m.SameEntry (m.handleSnoop pkt now order).1 ∧
      (m.handleSnoop pkt now order).1.inService = m.inService ∧
      (∀ t' ∈ (m.handleSnoop pkt now order).1.targets.targets,
        (∃ t ∈ m.targets.targets, t.Replaced t') ∨ t'.source = .fromSnoop ∧ m.inService = true) ∧
      ∀ t' ∈ (m.handleSnoop pkt now order).1.deferredTargets.targets,
        ∃ t ∈ m.deferredTargets.targets, t.Replaced t' := by
  unfold MSHR.handleSnoop
  split
  · split
    · refine ⟨⟨rfl, rfl, rfl, rfl, rfl, rfl⟩, rfl, fun t' ht' => .inl ?_, fun t' ht' => ?_⟩
      · exact replaceUpgrades_replaced ht'
      · exact replaceUpgrades_replaced ht'
    · exact ⟨⟨rfl, rfl, rfl, rfl, rfl, rfl⟩, rfl, fun t' ht' => .inl ⟨t', ht', .inl rfl⟩,
        fun t' ht' => ⟨t', ht', .inl rfl⟩⟩
  · next hservice =>
    have hbusy : m.inService = true := by
      simp only [Bool.or_eq_true, Bool.not_eq_true', not_or] at hservice
      simpa using hservice.1
    -- the register once its deferred upgrades are replaced
    obtain ⟨deferred, hm₁, hdeferred⟩ : ∃ deferred, (if pkt.needsExclusive = true then
        { m with deferredTargets := m.deferredTargets.replaceUpgrades } else m) =
          { m with deferredTargets := deferred } ∧
        ∀ t' ∈ deferred.targets, ∃ t ∈ m.deferredTargets.targets, t.Replaced t' := by
      split
      · exact ⟨_, rfl, fun t' ht' => replaceUpgrades_replaced ht'⟩
      · exact ⟨m.deferredTargets, rfl, fun t' ht' => ⟨t', ht', .inl rfl⟩⟩
    rw [hm₁]
    dsimp only
    split
    · exact ⟨⟨rfl, rfl, rfl, rfl, rfl, rfl⟩, rfl, fun t' ht' => .inl ⟨t', ht', .inl rfl⟩, hdeferred⟩
    · obtain ⟨hentry, hservice, hsame, htargets⟩ :=
        queueSnoop_spec { m with deferredTargets := deferred } pkt now order
      refine ⟨{ hentry with }, hservice, fun t' ht' => ?_, fun t' ht' => hdeferred t' ?_⟩
      · rcases htargets t' ht' with ht' | hsnoop
        · exact .inl ⟨t', ht', .inl rfl⟩
        · exact .inr ⟨hsnoop, hbusy⟩
      · rwa [hsame] at ht'

theorem handleFill_spec (h : m.handleFill pkt = .ok m') :
    m.SameEntry m' ∧ m'.inService = m.inService ∧
      (m'.targets = m.targets ∧ m'.deferredTargets = m.deferredTargets ∨
        m'.targets.targets = m.targets.targets ++ m.deferredTargets.targets ∧
          m'.deferredTargets = {}) := by
  simp only [MSHR.handleFill, except_ite_eq_ok, except_bind_eq_ok, except_pure_eq_ok,
    Except.ok.injEq] at h
  rcases h with ⟨_, rfl⟩ | ⟨_, _, _, _, _, ⟨_, _, _, _, _, rfl⟩ | ⟨_, rfl⟩⟩
  · exact ⟨⟨rfl, rfl, rfl, rfl, rfl, rfl⟩, rfl, .inl ⟨rfl, rfl⟩⟩
  · exact ⟨⟨rfl, rfl, rfl, rfl, rfl, rfl⟩, rfl, .inr ⟨rfl, rfl⟩⟩
  · exact ⟨⟨rfl, rfl, rfl, rfl, rfl, rfl⟩, rfl, .inl ⟨rfl, rfl⟩⟩

theorem promoteDeferredTargets_some (h : m.promoteDeferredTargets now = .ok (some m')) :
    ∃ t ts, m.deferredTargets.targets = t :: ts ∧ m'.targets = m.deferredTargets ∧
      m'.deferredTargets.targets = [] ∧ m'.order = t.order ∧ m'.readyTime = max now t.readyTime ∧
      m'.guest = m.guest ∧ m'.addr = m.addr ∧ m'.size = m.size ∧ m'.isSecure = m.isSecure ∧
      m'.inService = m.inService := by
  simp only [MSHR.promoteDeferredTargets, except_bind_eq_ok, except_pure_eq_ok, assert_eq_ok,
    List.isEmpty_iff] at h
  obtain ⟨_, hempty, h⟩ := h
  cases hts : m.deferredTargets.targets with
  | nil =>
    rw [hts] at h
    cases h
  | cons t ts =>
    rw [hts] at h
    obtain rfl := Option.some.inj h
    exact ⟨t, ts, rfl, rfl, hempty, rfl, rfl, rfl, rfl, rfl, rfl, rfl⟩

theorem promoteDeferredTargets_none (h : m.promoteDeferredTargets now = .ok none) :
    m.targets.targets = [] ∧ m.deferredTargets.targets = [] := by
  simp only [MSHR.promoteDeferredTargets, except_bind_eq_ok, except_pure_eq_ok, assert_eq_ok,
    List.isEmpty_iff] at h
  obtain ⟨_, hempty, h⟩ := h
  cases hts : m.deferredTargets.targets with
  | nil => exact ⟨hempty, rfl⟩
  | cons t ts =>
    rw [hts] at h
    cases h

theorem deallocate_spec (h : m.deallocate = .ok m') :
    m.SameEntry m' ∧ m'.inService = false ∧ m.targets.targets = [] ∧ m'.targets.targets = [] ∧
      m'.deferredTargets = m.deferredTargets := by
  simp only [MSHR.deallocate, except_bind_eq_ok, except_pure_eq_ok, assert_eq_ok,
    List.isEmpty_iff] at h
  obtain ⟨_, hempty, _, _, rfl⟩ := h
  exact ⟨⟨rfl, rfl, rfl, rfl, rfl, rfl⟩, rfl, hempty, hempty, rfl⟩

end RegLemmas

open RegLemmas

/-! ## What happens to one register -/

/-- The ways in which a step changes a register that it does not allocate. -/
inductive RegChange (cfg : CacheConfig) (wf : Prop) (G : GuestID → Prop) (r : Regs)
    (q : QueueIndex) (m : MSHR) : MSHR → Prop
  | joined {pkt : Packet} {m' : MSHR} (hq : q = .mshrs) (hpkt : Admitted cfg wf G pkt)
      (hline : pkt.line cfg = m.line cfg)
      (htarget : m.allocateTarget pkt r.curTick (cfg.clockEdge r.curTick cfg.hitLatency) r.order
        = .ok m') : RegChange cfg wf G r q m m'
  | snooped {pkt : Packet} (hq : q = .mshrs) :
      RegChange cfg wf G r q m (m.handleSnoop pkt r.curTick r.order).1
  | shared {target : Target} {exclusive : Bool} (htarget : m.targets.targets = [target]) :
      RegChange cfg wf G r q m { m with
        targets := { m.targets with
          targets := [{ target with pkt := { target.pkt with supplyExclusive := exclusive } }] } }
  | marked {isForward downstreamPending : Bool} :
      RegChange cfg wf G r q m { m with isForward, downstreamPending }
  | popped {m' : MSHR} (hidle : m.inService = false) (hlast : m.isForwardNoResponse = true)
      (hfree : m.popTarget.deallocate = .ok m') : RegChange cfg wf G r q m m'
  | serviced {pkt : Packet} (hidle : m.inService = false) :
      RegChange cfg wf G r q m (m.serviced pkt)
  | promoted {filled m' : MSHR} (hfill : filled = m ∨ ∃ pkt, m.handleFill pkt = .ok filled)
      (hpromote : filled.emptied.promoteDeferredTargets r.curTick = .ok (some m')) :
      RegChange cfg wf G r q m { m' with inService := false }
  | freed {filled m' : MSHR} (hfill : filled = m ∨ ∃ pkt, m.handleFill pkt = .ok filled)
      (hpromote : filled.emptied.promoteDeferredTargets r.curTick = .ok none)
      (hfree : filled.emptied.deallocate = .ok m') : RegChange cfg wf G r q m m'

def OneChanges (r r' : Regs) (q : QueueIndex) (i : Nat) : Prop :=
  ∀ q' j, (q', j) ≠ (q, i) → (r'.queue q').registers j = (r.queue q').registers j

def Entered (cfg : CacheConfig) (wf : Prop) (G : GuestID → Prop) (L : Event → Prop)
    (q : QueueIndex) (pkt : Packet) : Prop :=
  Admitted cfg wf G pkt ∨
    q = .writeBuffer ∧ ∃ before after, L (.change .writeback before after (some pkt))

/-- A step allocates a register or changes one. -/
inductive RegEffect (cfg : CacheConfig) (wf : Prop) (G : GuestID → Prop) (L : Event → Prop)
    (r r' : Regs) : Prop
  | allocated {q : QueueIndex} {i : Nat} {pkt : Packet} {addr : Addr} {size : Nat}
      (hpkt : Entered cfg wf G L q pkt) (haddr : cfg.blkAlign addr = cfg.blkAlign pkt.addr)
      (hfree : i ∈ (r.queue q).freeList) (hempty : ((r.queue q).registers i).getNumTargets = 0)
      (halloc : ((r.queue q).registers i).allocate pkt.guestID addr size pkt r.curTick
        (cfg.clockEdge r.curTick cfg.hitLatency) r.order = .ok ((r'.queue q).registers i))
      (hothers : OneChanges r r' q i)
      (hlists : ∀ q' j, j ∈ (r'.queue q').allocatedList →
        j ∈ (r.queue q').allocatedList ∨ (q', j) = (q, i))
      (horder : r'.order = r.order + 1)
  | changed {q : QueueIndex} {i : Nat}
      (hchange : RegChange cfg wf G r q ((r.queue q).registers i) ((r'.queue q).registers i))
      (hothers : OneChanges r r' q i)
      (hlists : ∀ q' j, j ∈ (r'.queue q').allocatedList → j ∈ (r.queue q').allocatedList)
      (horder : r.order ≤ r'.order)

variable {addr : Addr}

namespace RegLemmas

variable {r r' : Regs} {q : QueueIndex} {i : Nat} {mq : MSHRQueue} {m : MSHR} {pkt : Packet}

theorem queue_setQueue_of_ne {q' : QueueIndex} (h : q' ≠ q) (r : Regs) (mq : MSHRQueue) :
    (r.setQueue q mq).queue q' = r.queue q' := by
  cases q with
  | mshrs =>
    cases q' with
    | mshrs => exact absurd rfl h
    | writeBuffer => rfl
  | writeBuffer =>
    cases q' with
    | mshrs => rfl
    | writeBuffer => exact absurd rfl h

section

variable (hqueue : ∀ q', r'.queue q' = (r.setQueue q mq).queue q')

include hqueue

theorem forall_queue (P : QueueIndex → MSHRQueue → Prop) (h : P q mq)
    (hother : ∀ q', P q' (r.queue q')) (q' : QueueIndex) : P q' (r'.queue q') := by
  rw [hqueue]
  by_cases hq : q' = q
  · subst hq
    rwa [Regs.queue_setQueue]
  · rw [queue_setQueue_of_ne hq]
    exact hother q'

theorem oneChanges_of_queue (h : ∀ j, j ≠ i → mq.registers j = (r.queue q).registers j) :
    OneChanges r r' q i :=
  forall_queue hqueue (fun q' mq' => ∀ j, (q', j) ≠ (q, i) →
    mq'.registers j = (r.queue q').registers j)
    (fun j hne => h j fun hj => hne (by rw [hj])) fun _ _ _ => rfl

theorem effect_of_queue (hothers : ∀ j, j ≠ i → mq.registers j = (r.queue q).registers j)
    (hchange : RegChange cfg wf G r q ((r.queue q).registers i) (mq.registers i))
    (hlists : ∀ j, j ∈ mq.allocatedList → j ∈ (r.queue q).allocatedList)
    (horder : r.order ≤ r'.order) : RegEffect cfg wf G L r r' := by
  refine .changed ?_ (oneChanges_of_queue hqueue hothers) ?_ horder
  · rw [hqueue, Regs.queue_setQueue]
    exact hchange
  · exact forall_queue hqueue (fun q' mq' => ∀ j, j ∈ mq'.allocatedList →
      j ∈ (r.queue q').allocatedList)
      hlists fun _ _ => id

end

theorem effect_of_setReg
    (hqueue : ∀ q', r'.queue q' = (r.setQueue q ((r.queue q).setReg i m)).queue q')
    (hchange : RegChange cfg wf G r q ((r.queue q).registers i) m)
    (horder : r.order ≤ r'.order) : RegEffect cfg wf G L r r' := by
  refine effect_of_queue (i := i) hqueue (fun j hj => ?_) ?_ (fun j hj => hj) horder
  · rw [MSHRQueue.registers_setReg, if_neg hj]
  · rw [MSHRQueue.registers_setReg, if_pos rfl]
    exact hchange

theorem effect_of_allocate {size : Nat} (hqueue : ∀ q', r'.queue q' = (r.setQueue q mq).queue q')
    (hpkt : Entered cfg wf G L q pkt) (haddr : cfg.blkAlign addr = cfg.blkAlign pkt.addr)
    (halloc : (r.queue q).allocate pkt.guestID addr size pkt r.curTick
      (cfg.clockEdge r.curTick cfg.hitLatency) r.order = .ok (mq, i))
    (horder : r'.order = r.order + 1) : RegEffect cfg wf G L r r' := by
  obtain ⟨free, m, hfree, hempty, hm, rfl⟩ := MSHRQueue.QueueLemmas.allocate_cases halloc
  have hothers : OneChanges r r' q i := by
    refine oneChanges_of_queue hqueue fun j hj => ?_
    show ((r.queue q).setReg i m).registers j = _
    rw [MSHRQueue.registers_setReg, if_neg hj]
  have hnew : (r'.queue q).registers i = m := by
    rw [hqueue, Regs.queue_setQueue]
    exact if_pos rfl
  refine .allocated hpkt haddr (by simp [hfree]) hempty (hnew ▸ hm) hothers ?_ horder
  refine forall_queue hqueue (fun q' mq' => ∀ j, j ∈ mq'.allocatedList →
    j ∈ (r.queue q').allocatedList ∨ (q', j) = (q, i)) ?_ fun _ _ => .inl
  exact List.forall_mem_append.mpr ⟨fun _ => .inl, List.forall_mem_singleton.mpr (.inr rfl)⟩

theorem effect_of_deallocate (hqueue : ∀ q', r'.queue q' = (r.setQueue q mq).queue q')
    (hfree : ((r.queue q).setReg i m).deallocate i = .ok mq)
    (hchange : ∀ m', m.deallocate = .ok m' →
      RegChange cfg wf G r q ((r.queue q).registers i) m')
    (horder : r.order ≤ r'.order) : RegEffect cfg wf G L r r' := by
  obtain ⟨m', hm', hregs, halloc, _, _⟩ := MSHRQueue.QueueLemmas.deallocate_cases hfree
  rw [MSHRQueue.registers_setReg, if_pos rfl] at hm'
  rw [MSHRQueue.setReg_setReg] at hregs
  refine effect_of_queue (i := i) hqueue (fun j hj => ?_) ?_ (fun j hj => ?_) horder
  · rw [hregs, MSHRQueue.registers_setReg, if_neg hj]
  · rw [hregs, MSHRQueue.registers_setReg, if_pos rfl]
    exact hchange m' hm'
  · rw [halloc] at hj
    exact List.mem_of_mem_erase hj

theorem effect_of_markInService (hqueue : ∀ q', r'.queue q' = (r.setQueue q mq).queue q')
    (hmark : (r.queue q).markInService i pkt = .ok mq) (horder : r.order ≤ r'.order) :
    RegEffect cfg wf G L r r' := by
  obtain ⟨hidle, ⟨hlast, hdone⟩ | ⟨_, rfl⟩⟩ := MSHRQueue.QueueLemmas.markInService_cases hmark
  · exact effect_of_deallocate hqueue hdone (fun m' hm' => .popped hidle hlast hm') horder
  · refine effect_of_queue (i := i) hqueue (fun j hj => ?_) ?_ (fun j hj => hj) horder
    · exact if_neg hj
    · rw [MSHRQueue.registers_setReg, if_pos rfl]
      exact .serviced hidle

theorem completes_others {q : MSHRQueue} {now : Tick} (h : Completes q i now mq) {j : Nat}
    (hj : j ≠ i) : mq.registers j = q.registers j := by
  cases h with
  | @promoted m m' _ hfill hpromote hpending =>
    obtain ⟨_, rfl⟩ := MSHRQueue.QueueLemmas.markPending_cases hpending
    show ((q.setReg i m').setReg i _).registers j = _
    rw [MSHRQueue.setReg_setReg, MSHRQueue.registers_setReg, if_neg hj]
  | freed hfill hpromote hfree =>
    obtain ⟨m', _, hregs, _⟩ := MSHRQueue.QueueLemmas.deallocate_cases hfree
    rw [hregs, MSHRQueue.setReg_setReg, MSHRQueue.registers_setReg, if_neg hj]

theorem effect_of_completes (hqueue : ∀ q', r'.queue q' = (r.setQueue q mq).queue q')
    (hdone : Completes (r.queue q) i r.curTick mq) (horder : r.order ≤ r'.order) :
    RegEffect cfg wf G L r r' := by
  have hothers : ∀ j, j ≠ i → mq.registers j = (r.queue q).registers j :=
    fun _ => completes_others hdone
  cases hdone with
  | @promoted m m' _ hfill hpromote hpending =>
    obtain ⟨_, rfl⟩ := MSHRQueue.QueueLemmas.markPending_cases hpending
    refine effect_of_queue hqueue hothers ?_ (fun j hj => hj) horder
    show RegChange cfg wf G r q _ ((((r.queue q).setReg i m').setReg i _).registers i)
    rw [MSHRQueue.setReg_setReg, MSHRQueue.registers_setReg, if_pos rfl,
      MSHRQueue.registers_setReg, if_pos rfl]
    exact .promoted hfill hpromote
  | freed hfill hpromote hfree =>
    exact effect_of_deallocate hqueue hfree (fun m' hm' => .freed hfill hpromote hm') horder

theorem setQueue_order (r : Regs) (q : QueueIndex) (mq : MSHRQueue) :
    (r.setQueue q mq).order = r.order := by
  cases q with
  | mshrs | writeBuffer => rfl

/-- The packet and the register that `findMatch` finds for it are for one line. -/
theorem line_of_findMatch {q : MSHRQueue}
    (h : q.findMatch pkt.guestID (cfg.blkAlign pkt.addr) pkt.isSecure = some i) :
    pkt.line cfg = (q.registers i).line cfg := by
  have hmatch := List.find?_some h
  simp only [MSHRQueue.isMatch, Bool.and_eq_true, beq_iff_eq] at hmatch
  obtain ⟨⟨hguest, haddr⟩, hsecure⟩ := hmatch
  unfold Packet.line MSHR.line
  rw [hguest, haddr, hsecure, cfg.blkAlign_blkAlign]

end RegLemmas

/-- Every step allocates one register or changes one. -/
theorem RegStep.effect (h : RegStep cfg wf G L r r') : RegEffect cfg wf G L r r' := by
  cases h with
  | @miss pkt addr size i mq hpkt haddr halloc =>
    exact effect_of_allocate (q := .mshrs) (by rintro ⟨⟩ <;> rfl) (.inl hpkt) haddr halloc rfl
  | @buffer pkt i mq hpkt hlog halloc =>
    exact effect_of_allocate (by rintro ⟨⟩ <;> rfl)
      (hpkt.imp_right fun hmade => ⟨rfl, hmade⟩) rfl halloc rfl
  | join hpkt hi htarget =>
    exact effect_of_setReg (by rintro ⟨⟩ <;> rfl)
      (.joined rfl hpkt (line_of_findMatch hi) htarget) (Nat.le_succ _)
  | snoop =>
    exact effect_of_setReg (by rintro ⟨⟩ <;> rfl) (.snooped rfl) (Nat.le_succ _)
  | share htarget =>
    exact effect_of_setReg (q := .writeBuffer) (by rintro ⟨⟩ <;> rfl) (.shared htarget) le_rfl
  | @mark q i =>
    exact effect_of_setReg (fun _ => rfl) .marked (setQueue_order r q _).ge
  | @serviced q i pkt mq hi hmark =>
    exact effect_of_markInService (fun _ => rfl) hmark (setQueue_order r q _).ge
  | @issued q i pkt target mq hready hmark hwaits hstate htarget hline =>
    exact effect_of_markInService (by rintro ⟨⟩ <;> rfl) hmark (setQueue_order r q _).ge
  | @completed q i mq outstanding hwhy hdone =>
    exact effect_of_completes (by rintro ⟨⟩ <;> rfl) hdone (setQueue_order r q _).ge

/-- What a step does to a register that it does not allocate; to leave it alone is to mark it as
it was. -/
theorem RegEffect.register (h : RegEffect cfg wf G L r r') (q : QueueIndex) (i : Nat) :
    (RegChange cfg wf G r q ((r.queue q).registers i) ((r'.queue q).registers i) ∧
        (i ∈ (r'.queue q).allocatedList → i ∈ (r.queue q).allocatedList) ∧ r.order ≤ r'.order) ∨
      ∃ pkt addr size, Entered cfg wf G L q pkt ∧ cfg.blkAlign addr = cfg.blkAlign pkt.addr ∧
        i ∈ (r.queue q).freeList ∧ ((r.queue q).registers i).getNumTargets = 0 ∧
        ((r.queue q).registers i).allocate pkt.guestID addr size pkt r.curTick
          (cfg.clockEdge r.curTick cfg.hitLatency) r.order = .ok ((r'.queue q).registers i) ∧
        OneChanges r r' q i ∧ (∀ q' j, j ∈ (r'.queue q').allocatedList →
          j ∈ (r.queue q').allocatedList ∨ (q', j) = (q, i)) ∧ r'.order = r.order + 1 := by
  cases h with
  | @allocated q' j pkt addr size hpkt haddr hfree hempty halloc hothers hlists horder =>
    by_cases heq : (q, i) = (q', j)
    · cases heq
      exact .inr ⟨pkt, addr, size, hpkt, haddr, hfree, hempty, halloc, hothers, hlists, horder⟩
    · refine .inl ⟨?_, fun hi => (hlists q i hi).resolve_right heq, horder ▸ Nat.le_succ _⟩
      rw [hothers q i heq]
      exact .marked
  | @changed q' j hchange hothers hlists horder =>
    refine .inl ⟨?_, hlists q i, horder⟩
    by_cases heq : (q, i) = (q', j)
    · cases heq
      exact hchange
    · rw [hothers q i heq]
      exact .marked

/-! ## The lists, and the packets that the cache waits for -/

/-- The lists of both queues are consistent, and every packet that the cache waits
for names a register in service of its own. -/
structure Regs.Consistent (r : Regs) : Prop where
  queues : ∀ q, (r.queue q).Consistent
  owner : ∀ pkt ∈ r.outstanding, ∃ q i, pkt.senderState = [.mshr q i] ∧
    ((r.queue q).registers i).inService = true
  distinct : (r.outstanding.map (·.senderState)).Nodup

theorem consistent_initial (cfg : CacheConfig) (waymasks : List (BitVec 64)) :
    (Cache.initial cfg waymasks).regs.Consistent where
  queues := by
    rintro ⟨⟩
    · exact MSHRQueue.consistent_initial cfg.mshrs 4
    · exact MSHRQueue.consistent_initial cfg.writeBuffers (cfg.mshrs + 1000)
  owner pkt hpkt := absurd hpkt List.not_mem_nil
  distinct := List.nodup_nil

variable {outstanding : List Packet}

namespace RegLemmas

variable {r r' : Regs} {q : QueueIndex} {i : Nat} {mq : MSHRQueue} {now : Tick} {m : MSHR} {j : Nat}
  {pkt : Packet}

/-- The register of a response: it is allocated, and the cache waits for no other
packet of it. -/
theorem completed_register (hr : r.Consistent)
    (hwhy : (∃ k pkt rest, r.outstanding[k]? = some pkt ∧ pkt.senderState = .mshr q i :: rest ∧
        outstanding = r.outstanding.eraseIdx k) ∨
      i ∈ (r.queue q).readyList ∧ outstanding = r.outstanding) :
    i ∈ (r.queue q).allocatedList ∧ outstanding.Sublist r.outstanding ∧
      ∀ pkt ∈ outstanding, pkt.senderState ≠ [.mshr q i] := by
  rcases hwhy with ⟨k, pkt, rest, hk, hstate, rfl⟩ | ⟨hready, rfl⟩
  · obtain ⟨q', i', howner, hbusy⟩ := hr.owner pkt (List.mem_of_getElem? hk)
    have hsame := hstate.symm.trans howner
    cases hsame
    refine ⟨(hr.queues q).busy i hbusy, List.eraseIdx_sublist _ _, fun pkt' hmem hstate' => ?_⟩
    obtain ⟨l, hne, hl⟩ := List.mem_eraseIdx_iff_getElem?.mp hmem
    have hlen : l < (r.outstanding.map (·.senderState)).length := by
      rw [List.length_map]
      exact (List.getElem?_eq_some_iff.mp hl).1
    refine hne ((List.getElem?_inj hlen hr.distinct).mp ?_)
    rw [List.getElem?_map, List.getElem?_map, hl, hk, Option.map_some, Option.map_some, hstate',
      howner]
  · obtain ⟨halloc, hidle⟩ := ((hr.queues q).ready i).mp hready
    refine ⟨halloc, List.Sublist.refl _, fun pkt hpkt hstate => ?_⟩
    obtain ⟨q', i', hstate', hbusy⟩ := hr.owner pkt hpkt
    rw [hstate] at hstate'
    cases hstate'
    exact Bool.noConfusion (hidle.symm.trans hbusy)

theorem consistent_completes {q : MSHRQueue} (hq : q.Consistent)
    (hi : i ∈ q.allocatedList) (h : Completes q i now mq) : mq.Consistent := by
  cases h with
  | @promoted m m' _ hfill hpromote hpending =>
    have hbusy : m'.inService = true := by
      have hbusy := (MSHRQueue.QueueLemmas.markPending_cases hpending).1
      rwa [MSHRQueue.registers_setReg, if_pos rfl] at hbusy
    have hservice : m'.inService = (q.registers i).inService := by
      obtain ⟨_, _, _, _, _, _, _, _, _, _, _, hservice⟩ := promoteDeferredTargets_some hpromote
      rcases hfill with rfl | ⟨pkt, hfill⟩
      · exact hservice
      · exact hservice.trans (handleFill_spec hfill).2.1
    refine MSHRQueue.Consistent.markPending (hq.setReg hservice (.inr ?_)) hpending
    exact hq.not_ready_of_busy (hservice.symm.trans hbusy)
  | @freed m _ hfill hpromote hfree =>
    refine MSHRQueue.Consistent.deallocate (q := q.setReg i m.emptied) ?_ hi hfree
    rcases hfill with rfl | ⟨pkt, hfill⟩
    · exact hq.setReg rfl (.inl rfl)
    · obtain ⟨hentry, hservice, _⟩ := handleFill_spec hfill
      exact hq.setReg hservice (.inl hentry.readyTime)

theorem consistent_setQueue (hqueue : ∀ q', r'.queue q' = (r.setQueue q mq).queue q')
    (hr : r.Consistent) (hmq : mq.Consistent) : ∀ q', (r'.queue q').Consistent :=
  forall_queue hqueue (fun _ mq' => mq'.Consistent) hmq hr.queues

theorem busy_setQueue (hqueue : ∀ q', r'.queue q' = (r.setQueue q mq).queue q')
    (h : ∀ j, ((r.queue q).registers j).inService = true → (mq.registers j).inService = true) :
    ∀ q' j, ((r.queue q').registers j).inService = true →
      ((r'.queue q').registers j).inService = true :=
  forall_queue hqueue (fun q' mq' => ∀ j, ((r.queue q').registers j).inService = true →
    (mq'.registers j).inService = true) h fun _ _ => id

theorem busy_setReg {q : MSHRQueue} (hm : (q.registers i).inService = true → m.inService = true)
    (hbusy : (q.registers j).inService = true) :
    ((q.setReg i m).registers j).inService = true := by
  rw [MSHRQueue.registers_setReg]
  split
  · next hj => exact hm (hj ▸ hbusy)
  · exact hbusy

theorem busy_allocate {q : MSHRQueue} (hq : q.Consistent) {guest : GuestID}
    {size : Nat} {whenReady : Tick} {order : Nat}
    (h : q.allocate guest addr size pkt now whenReady order = .ok (mq, i))
    (hbusy : (q.registers j).inService = true) : (mq.registers j).inService = true := by
  obtain ⟨free, m, hfree, _, _, rfl⟩ := MSHRQueue.QueueLemmas.allocate_cases h
  refine busy_setReg (fun hi => ?_) hbusy
  have hnotfree := hq.not_mem_free (hq.busy i hi)
  rw [hfree] at hnotfree
  exact absurd List.mem_cons_self hnotfree

theorem busy_markInService {q : MSHRQueue} (h : q.markInService i pkt = .ok mq)
    (hbusy : (q.registers j).inService = true) : (mq.registers j).inService = true := by
  obtain ⟨hidle, hcases⟩ := MSHRQueue.QueueLemmas.markInService_cases h
  have hj : j ≠ i := by
    rintro rfl
    exact Bool.noConfusion (hidle.symm.trans hbusy)
  rcases hcases with ⟨_, hdone⟩ | ⟨_, rfl⟩
  · obtain ⟨m, _, hregs, _⟩ := MSHRQueue.QueueLemmas.deallocate_cases hdone
    rw [hregs, MSHRQueue.setReg_setReg, MSHRQueue.registers_setReg, if_neg hj]
    exact hbusy
  · exact busy_setReg (fun _ => rfl) hbusy

theorem consistent_of_same (hr : r.Consistent) (hout : r'.outstanding = r.outstanding)
    (hqueue : ∀ q', r'.queue q' = (r.setQueue q mq).queue q') (hmq : mq.Consistent)
    (hbusy : ∀ j, ((r.queue q).registers j).inService = true → (mq.registers j).inService = true) :
    r'.Consistent := by
  refine ⟨consistent_setQueue hqueue hr hmq, ?_, hout ▸ hr.distinct⟩
  intro pkt hpkt
  rw [hout] at hpkt
  obtain ⟨q', j, hstate, hservice⟩ := hr.owner pkt hpkt
  exact ⟨q', j, hstate, busy_setQueue hqueue hbusy q' j hservice⟩

theorem consistent_setReg (hr : r.Consistent)
    (hservice : m.inService = ((r.queue q).registers i).inService)
    (htime : m.readyTime = ((r.queue q).registers i).readyTime) :
    (r.setQueue q ((r.queue q).setReg i m)).Consistent :=
  consistent_of_same hr (Regs.outstanding_setQueue r q _) (fun _ => rfl)
    ((hr.queues q).setReg hservice (.inl htime)) fun _ => busy_setReg fun hbusy =>
      hservice.trans hbusy

/-- The new packet's register was idle, so no other packet names it. -/
theorem consistent_issued (hr : r.Consistent)
    (hready : i ∈ (r.queue q).readyList) (hmark : (r.queue q).markInService i pkt = .ok mq)
    (hwaits : ((r.queue q).registers i).isForwardNoResponse = false)
    (hstate : pkt.senderState = [.mshr q i]) :
    Regs.Consistent { r.setQueue q mq with outstanding := r.outstanding ++ [pkt] } := by
  have hqueue : ∀ q', Regs.queue { r.setQueue q mq with outstanding := r.outstanding ++ [pkt] } q' =
      (r.setQueue q mq).queue q' := by
    rintro ⟨⟩ <;> rfl
  obtain ⟨hidle, hcases⟩ := MSHRQueue.QueueLemmas.markInService_cases hmark
  refine ⟨consistent_setQueue hqueue hr ((hr.queues q).markInService (.inr hready) hmark), ?_, ?_⟩
  · intro pkt' hpkt'
    rcases List.mem_append.mp hpkt' with hpkt' | hpkt'
    · obtain ⟨q', j, hstate', hbusy⟩ := hr.owner pkt' hpkt'
      exact ⟨q', j, hstate', busy_setQueue hqueue (fun _ => busy_markInService hmark) q' j hbusy⟩
    · rw [List.mem_singleton.mp hpkt']
      refine ⟨q, i, hstate, ?_⟩
      rw [hqueue, Regs.queue_setQueue]
      rcases hcases with ⟨hlast, _⟩ | ⟨_, rfl⟩
      · exact Bool.noConfusion (hlast.symm.trans hwaits)
      · rw [MSHRQueue.registers_setReg, if_pos rfl]
        rfl
  · rw [List.map_append, List.nodup_append]
    refine ⟨hr.distinct, List.nodup_singleton _, fun state hmem state' hmem' => ?_⟩
    obtain ⟨pkt', hpkt', rfl⟩ := List.mem_map.mp hmem
    obtain ⟨q', j, hstate', hbusy⟩ := hr.owner pkt' hpkt'
    obtain rfl : state' = pkt.senderState := List.mem_singleton.mp hmem'
    rw [hstate, hstate']
    intro heq
    cases heq
    exact Bool.noConfusion (hidle.symm.trans hbusy)

/-- No packet that is left names the register that ended. -/
theorem consistent_completed (hr : r.Consistent)
    (hi : i ∈ (r.queue q).allocatedList) (hsub : outstanding.Sublist r.outstanding)
    (hnone : ∀ pkt ∈ outstanding, pkt.senderState ≠ [.mshr q i])
    (hdone : Completes (r.queue q) i r.curTick mq) :
    Regs.Consistent { r.setQueue q mq with outstanding := outstanding } := by
  have hqueue : ∀ q', Regs.queue { r.setQueue q mq with outstanding := outstanding } q' =
      (r.setQueue q mq).queue q' := by
    rintro ⟨⟩ <;> rfl
  refine ⟨consistent_setQueue hqueue hr (consistent_completes (hr.queues q) hi hdone), ?_, ?_⟩
  · intro pkt hpkt
    obtain ⟨q', j, hstate, hbusy⟩ := hr.owner pkt (hsub.subset hpkt)
    refine ⟨q', j, hstate, ?_⟩
    have hne : (q', j) ≠ (q, i) := by
      intro heq
      cases heq
      exact hnone pkt hpkt hstate
    rw [oneChanges_of_queue hqueue (fun _ => completes_others hdone) q' j hne]
    exact hbusy
  · exact hr.distinct.sublist (hsub.map _)

end RegLemmas

/-- Every step keeps the lists consistent, and a register in service for every
packet that the cache waits for. -/
theorem Regs.Consistent.step (hr : r.Consistent) (h : RegStep cfg wf G L r r') : r'.Consistent := by
  cases h with
  | miss _ _ halloc =>
    exact consistent_of_same hr rfl (by rintro ⟨⟩ <;> rfl)
      ((hr.queues .mshrs).allocate halloc) fun _ => busy_allocate (hr.queues .mshrs) halloc
  | buffer _ _ halloc =>
    exact consistent_of_same hr rfl (by rintro ⟨⟩ <;> rfl)
      ((hr.queues .writeBuffer).allocate halloc)
      fun _ => busy_allocate (hr.queues .writeBuffer) halloc
  | join _ _ htarget =>
    obtain ⟨hentry, hservice, _⟩ := allocateTarget_spec htarget
    exact consistent_of_same hr rfl (by rintro ⟨⟩ <;> rfl)
      ((hr.queues .mshrs).setReg hservice (.inl hentry.readyTime))
      fun _ => busy_setReg fun hbusy => hservice.trans hbusy
  | @snoop pkt i =>
    obtain ⟨hentry, hservice, _⟩ :=
      handleSnoop_spec (r.mshrQueue.registers i) pkt r.curTick r.order
    exact consistent_of_same hr rfl (by rintro ⟨⟩ <;> rfl)
      ((hr.queues .mshrs).setReg hservice (.inl hentry.readyTime))
      fun _ => busy_setReg fun hbusy => hservice.trans hbusy
  | @share i =>
    show (r.setQueue .writeBuffer ((r.queue .writeBuffer).setReg i _)).Consistent
    exact consistent_setReg hr rfl rfl
  | mark => exact consistent_setReg hr rfl rfl
  | @serviced q i pkt mq hi hmark =>
    exact consistent_of_same hr (Regs.outstanding_setQueue r q _) (fun _ => rfl)
      ((hr.queues q).markInService hi hmark) fun _ => busy_markInService hmark
  | @issued q i pkt target mq hready hmark hwaits hstate htarget hline =>
    exact consistent_issued hr hready hmark hwaits hstate
  | @completed q i mq outstanding hwhy hdone =>
    obtain ⟨hi, hsub, hnone⟩ := completed_register hr hwhy
    exact consistent_completed hr hi hsub hnone hdone

/-! ## The targets of a register -/

/-- A target that did not come from a snoop is well formed and for the line. -/
def Target.For (cfg : CacheConfig) (line : Line) (t : Target) : Prop :=
  t.source ≠ .fromSnoop → t.pkt.WellFormed cfg ∧ t.pkt.line cfg = line

/-- The targets of a register are for its line. Snoops only wait at a register in
service, and they are never deferred. -/
structure MSHR.Proper (cfg : CacheConfig) (m : MSHR) : Prop where
  targets : ∀ t ∈ m.targets.targets ++ m.deferredTargets.targets, t.For cfg (m.line cfg)
  idle : m.inService = false → ∀ t ∈ m.targets.targets, t.source ≠ .fromSnoop
  deferred : ∀ t ∈ m.deferredTargets.targets, t.source ≠ .fromSnoop

namespace RegLemmas

variable {m m' : MSHR} {r : Regs} {q : QueueIndex} {pkt : Packet} {line : Line} {t t' : Target}
  {now whenReady : Tick} {order size : Nat}

theorem line_replaceUpgrade (pkt : Packet) : pkt.replaceUpgrade.line cfg = pkt.line cfg := by
  unfold Packet.replaceUpgrade
  split <;> rfl

theorem wellFormed_replaceUpgrade (h : pkt.WellFormed cfg) : pkt.replaceUpgrade.WellFormed cfg := by
  unfold Packet.replaceUpgrade
  split
  case h_1 hcmd | h_2 hcmd | h_3 hcmd =>
    refine ⟨h.addr, h.secure, h.guest, fun _ => h.unshared ?_⟩
    rw [Packet.needsExclusive, hcmd]
    rfl
  case h_4 => exact h

theorem source_of_replaced (h : t.Replaced t') : t'.source = t.source := by
  rcases h with rfl | rfl
  · rfl
  · rfl

theorem for_of_replaced (ht : t.For cfg line) (h : t.Replaced t') : t'.For cfg line := by
  intro hsource
  rw [source_of_replaced h] at hsource
  obtain ⟨hwf, hline⟩ := ht hsource
  rcases h with rfl | rfl
  · exact ⟨hwf, hline⟩
  · exact ⟨wellFormed_replaceUpgrade hwf, (line_replaceUpgrade _).trans hline⟩

section

variable (hm : m.Proper cfg)

include hm

theorem target_proper (ht : t ∈ m.targets.targets) :
    t.For cfg (m.line cfg) ∧ (m.inService = false → t.source ≠ .fromSnoop) :=
  ⟨hm.targets t (List.mem_append_left _ ht), fun hidle => hm.idle hidle t ht⟩

theorem deferred_proper (ht : t ∈ m.deferredTargets.targets) :
    t.For cfg (m.line cfg) ∧ t.source ≠ .fromSnoop :=
  ⟨hm.targets t (List.mem_append_right _ ht), hm.deferred t ht⟩

end

theorem proper_of_targets (hline : m'.line cfg = line) (htargets : ∀ t ∈ m'.targets.targets,
      t.For cfg line ∧ (m'.inService = false → t.source ≠ .fromSnoop))
    (hdeferred : ∀ t ∈ m'.deferredTargets.targets, t.For cfg line ∧ t.source ≠ .fromSnoop) :
    m'.Proper cfg := by
  refine ⟨?_, fun hidle t ht => (htargets t ht).2 hidle, fun t ht => (hdeferred t ht).2⟩
  rw [hline]
  exact List.forall_mem_append.mpr ⟨fun t ht => (htargets t ht).1, fun t ht => (hdeferred t ht).1⟩

theorem proper_joined (hm : m.Proper cfg)
    (hwf : pkt.WellFormed cfg) (hline : pkt.line cfg = m.line cfg)
    (h : m.allocateTarget pkt now whenReady order = .ok m') : m'.Proper cfg := by
  obtain ⟨hentry, hservice, t, hsource, hpkt, _, _, hcases⟩ := allocateTarget_spec h
  have hnew : t.For cfg (m.line cfg) := by
    intro _
    rcases hpkt with heq | heq
    · rw [heq]
      exact ⟨hwf, hline⟩
    · rw [heq]
      exact ⟨wellFormed_replaceUpgrade hwf, (line_replaceUpgrade _).trans hline⟩
  have hcpu : t.source ≠ .fromSnoop := by
    rw [hsource]
    exact nofun
  refine proper_of_targets hentry.line ?_ ?_
  · rw [hservice]
    rcases hcases with ⟨h₁, _⟩ | ⟨h₁, _⟩
    · rw [h₁]
      exact List.forall_mem_append.mpr ⟨fun _ => target_proper hm,
        List.forall_mem_singleton.mpr ⟨hnew, fun _ => hcpu⟩⟩
    · rw [h₁]
      exact fun _ => target_proper hm
  · rcases hcases with ⟨_, h₂⟩ | ⟨_, _, h₂⟩
    · rw [h₂]
      exact fun _ => deferred_proper hm
    · rw [h₂]
      exact List.forall_mem_append.mpr ⟨fun _ => deferred_proper hm,
        List.forall_mem_singleton.mpr ⟨hnew, hcpu⟩⟩

theorem proper_snooped (hm : m.Proper cfg) : ((m.handleSnoop pkt now order).1).Proper cfg := by
  obtain ⟨hentry, hservice, htargets, hdeferred⟩ := handleSnoop_spec m pkt now order
  refine proper_of_targets hentry.line (fun t' ht' => ?_) fun t' ht' => ?_
  · rw [hservice]
    rcases htargets t' ht' with ⟨t, ht, hrep⟩ | ⟨hsnoop, hbusy⟩
    · rw [source_of_replaced hrep]
      exact (target_proper hm ht).imp_left fun hfor => for_of_replaced hfor hrep
    · exact ⟨fun hno => absurd hsnoop hno, fun hidle => Bool.noConfusion (hidle.symm.trans hbusy)⟩
  · obtain ⟨t, ht, hrep⟩ := hdeferred t' ht'
    rw [source_of_replaced hrep]
    exact (deferred_proper hm ht).imp_left fun hfor => for_of_replaced hfor hrep

theorem filled_spec {filled : MSHR} (h : filled = m ∨ ∃ pkt, m.handleFill pkt = .ok filled) :
    m.SameEntry filled ∧ filled.inService = m.inService ∧
      ∀ t ∈ filled.deferredTargets.targets, t ∈ m.deferredTargets.targets := by
  rcases h with rfl | ⟨pkt, hfill⟩
  · exact ⟨⟨rfl, rfl, rfl, rfl, rfl, rfl⟩, rfl, fun t ht => ht⟩
  · obtain ⟨hentry, hservice, ⟨_, hdeferred⟩ | ⟨_, hdeferred⟩⟩ := handleFill_spec hfill
    · exact ⟨hentry, hservice, fun t ht => hdeferred ▸ ht⟩
    · refine ⟨hentry, hservice, fun t ht => ?_⟩
      rw [hdeferred] at ht
      exact absurd ht List.not_mem_nil

theorem allocate_spec {guest : GuestID}
    (h : m.allocate guest addr size pkt now whenReady order = .ok m') :
    m'.guest = guest ∧ m'.addr = addr ∧ m'.size = size ∧ m'.isSecure = pkt.isSecure ∧
      m'.order = order ∧ m'.readyTime = whenReady ∧ m'.inService = false ∧
      m'.deferredTargets = m.deferredTargets ∧
      ∃ t : Target, t.pkt = pkt ∧ t.source ≠ .fromSnoop ∧
        m'.targets.targets = m.targets.targets ++ [t] := by
  simp only [MSHR.allocate, except_bind_eq_ok, except_pure_eq_ok] at h
  obtain ⟨_, _, _, _, rfl⟩ := h
  refine ⟨rfl, rfl, rfl, rfl, rfl, rfl, rfl, rfl, _, rfl, ?_, rfl⟩
  split <;> rintro ⟨⟩

theorem targets_of_none (h : m.getNumTargets = 0) :
    m.targets.targets = [] ∧ m.deferredTargets.targets = [] := by
  unfold MSHR.getNumTargets at h
  exact ⟨List.eq_nil_of_length_eq_zero (by omega), List.eq_nil_of_length_eq_zero (by omega)⟩

theorem proper_allocated (hempty : m.getNumTargets = 0) (hwf : pkt.WellFormed cfg)
    (haddr : cfg.blkAlign addr = cfg.blkAlign pkt.addr)
    (h : m.allocate pkt.guestID addr size pkt now whenReady order = .ok m') :
    m'.line cfg = pkt.line cfg ∧ m'.Proper cfg := by
  obtain ⟨hguest, haddr', _, hsecure, _, _, _, hdeferred, t, hpkt, hsource, htargets⟩ :=
    allocate_spec h
  obtain ⟨hnone, hnone'⟩ := targets_of_none hempty
  have hline : m'.line cfg = pkt.line cfg := by
    unfold MSHR.line Packet.line
    rw [hguest, haddr', hsecure, haddr]
  rw [hnone, List.nil_append] at htargets
  rw [← hdeferred] at hnone'
  refine ⟨hline, proper_of_targets hline ?_ ?_⟩
  · rw [htargets]
    exact List.forall_mem_singleton.mpr ⟨fun _ => ⟨hpkt ▸ hwf, by rw [hpkt]⟩, fun _ => hsource⟩
  · rw [hnone']
    exact fun _ ht => absurd ht List.not_mem_nil

theorem mem_of_getTarget {target : Target} (h : m.getTarget = .ok target) :
    target ∈ m.targets.targets := by
  unfold MSHR.getTarget at h
  cases hts : m.targets.targets with
  | nil =>
    rw [hts] at h
    cases h
  | cons t ts =>
    rw [hts] at h
    rw [Except.ok.inj h]
    exact List.mem_cons_self

theorem deferred_of_forwardNoResponse (h : m.isForwardNoResponse = true) :
    m.deferredTargets.targets = [] := by
  unfold MSHR.isForwardNoResponse at h
  cases hts : m.targets.targets with
  | nil =>
    rw [hts] at h
    exact Bool.noConfusion h
  | cons t ts =>
    rw [hts] at h
    simp only [Bool.and_eq_true, beq_iff_eq, MSHR.getNumTargets, hts, List.length_cons] at h
    exact List.eq_nil_of_length_eq_zero (by omega)

/-- A register that has lost its targets. -/
theorem proper_empty (htargets : m.targets.targets = [])
    (hdeferred : m.deferredTargets.targets = []) :
    m.Proper cfg := by
  refine proper_of_targets rfl ?_ ?_
  · rw [htargets]
    exact fun _ ht => absurd ht List.not_mem_nil
  · rw [hdeferred]
    exact fun _ ht => absurd ht List.not_mem_nil

end RegLemmas

/-- A register keeps its line until it is allocated again. -/
theorem RegChange.entry (h : RegChange cfg wf G r q m m') :
    m'.guest = m.guest ∧ m'.addr = m.addr ∧ m'.size = m.size ∧ m'.isSecure = m.isSecure := by
  cases h with
  | joined _ _ _ htarget =>
    have hentry := (allocateTarget_spec htarget).1
    exact ⟨hentry.guest, hentry.addr, hentry.size, hentry.isSecure⟩
  | @snooped pkt =>
    have hentry := (handleSnoop_spec m pkt r.curTick r.order).1
    exact ⟨hentry.guest, hentry.addr, hentry.size, hentry.isSecure⟩
  | shared | marked | serviced => exact ⟨rfl, rfl, rfl, rfl⟩
  | popped _ _ hfree =>
    have hentry := (deallocate_spec hfree).1
    exact ⟨hentry.guest, hentry.addr, hentry.size, hentry.isSecure⟩
  | promoted hfill hpromote =>
    have hentry := (filled_spec hfill).1
    obtain ⟨_, _, _, _, _, _, _, hguest, haddr, hsize, hsecure, _⟩ :=
      promoteDeferredTargets_some hpromote
    exact ⟨hguest.trans hentry.guest, haddr.trans hentry.addr, hsize.trans hentry.size,
      hsecure.trans hentry.isSecure⟩
  | freed hfill _ hfree =>
    have hentry := (filled_spec hfill).1
    have hentry' := (deallocate_spec hfree).1
    exact ⟨hentry'.guest.trans hentry.guest, hentry'.addr.trans hentry.addr,
      hentry'.size.trans hentry.size, hentry'.isSecure.trans hentry.isSecure⟩

theorem RegChange.line (h : RegChange cfg wf G r q m m') : m'.line cfg = m.line cfg := by
  obtain ⟨hguest, haddr, _, hsecure⟩ := h.entry
  unfold MSHR.line
  rw [hguest, haddr, hsecure]

theorem RegChange.proper
    (h : RegChange cfg True G r q m m') (hm : m.Proper cfg) : m'.Proper cfg := by
  have hline := h.line
  cases h with
  | joined _ hpkt hline htarget => exact proper_joined hm (hpkt.2 trivial) hline htarget
  | snooped => exact proper_snooped hm
  | @shared target exclusive htarget =>
    have hmem : target ∈ m.targets.targets := by simp [htarget]
    obtain ⟨hfor, hidle⟩ := target_proper hm hmem
    refine proper_of_targets hline (List.forall_mem_singleton.mpr ⟨fun hsource => ?_, hidle⟩)
      fun _ => deferred_proper (m := m) hm
    obtain ⟨hwf, htline⟩ := hfor hsource
    exact ⟨{ hwf with }, htline⟩
  | marked => exact { hm with }
  | popped _ hlast hfree =>
    obtain ⟨_, _, hempty, hempty', hdeferred⟩ := deallocate_spec hfree
    have hnone : m.deferredTargets.targets = [] := deferred_of_forwardNoResponse hlast
    exact proper_empty hempty' ((congrArg TargetList.targets hdeferred).trans hnone)
  | serviced => exact ⟨hm.targets, fun hidle => (nomatch hidle), hm.deferred⟩
  | @promoted filled m' hfill hpromote =>
    obtain ⟨t, ts, hts, htargets, hnone, _, _, _, _, _, _, _⟩ :=
      promoteDeferredTargets_some hpromote
    have hfrom : ∀ t' ∈ filled.emptied.deferredTargets.targets, t' ∈ m.deferredTargets.targets :=
      (filled_spec hfill).2.2
    rw [← htargets] at hfrom
    refine proper_of_targets hline (fun t' ht' => ?_) fun t' ht' => ?_
    · exact (deferred_proper hm (hfrom t' ht')).imp_right fun hcpu _ => hcpu
    · rw [show _ = _ from hnone] at ht'
      exact absurd ht' List.not_mem_nil
  | freed hfill hpromote hfree =>
    obtain ⟨_, _, _, hempty', hdeferred⟩ := deallocate_spec hfree
    exact proper_empty hempty' (hdeferred ▸ (promoteDeferredTargets_none hpromote).2)

/-- What holds of the registers when all packets are well formed and for guests
that satisfy `G`. -/
structure Regs.Proper (cfg : CacheConfig) (G : GuestID → Prop) (r : Regs) : Prop
    extends r.Consistent where
  registers : ∀ q i, ((r.queue q).registers i).Proper cfg
  guests : ∀ q i, i ∈ (r.queue q).allocatedList → G ((r.queue q).registers i).guest
  lines : ∀ pkt ∈ r.outstanding, ∀ q i, pkt.senderState = [.mshr q i] →
    pkt.line cfg = ((r.queue q).registers i).line cfg

theorem proper_initial (cfg : CacheConfig) (G : GuestID → Prop) (waymasks : List (BitVec 64)) :
    (Cache.initial cfg waymasks).regs.Proper cfg G where
  toConsistent := consistent_initial cfg waymasks
  registers := by
    rintro ⟨⟩ i
    · exact proper_empty rfl rfl
    · exact proper_empty rfl rfl
  guests := by
    rintro ⟨⟩ i hi
    · exact absurd hi List.not_mem_nil
    · exact absurd hi List.not_mem_nil
  lines pkt hpkt := absurd hpkt List.not_mem_nil

namespace RegLemmas

variable {r r' : Regs} {pkt : Packet} {q : QueueIndex} {i : Nat}

theorem registers_proper (hr : r.Proper cfg G) (h : RegEffect cfg True G L r r')
    (hL : ∀ before after pkt, L (.change .writeback before after (some pkt)) →
      Admitted cfg True G pkt) (q : QueueIndex) (i : Nat) :
    ((r'.queue q).registers i).Proper cfg := by
  rcases h.register q i with ⟨hchange, _⟩ | ⟨pkt, _, _, hpkt, haddr, _, hempty, halloc, _⟩
  · exact hchange.proper (hr.registers q i)
  · have hpkt' : Admitted cfg True G pkt := by
      rcases hpkt with hpkt | ⟨_, before, after, hmade⟩
      · exact hpkt
      · exact hL before after pkt hmade
    exact (proper_allocated hempty (hpkt'.2 trivial) haddr halloc).2

theorem guests_proper (hr : r.Proper cfg G) (h : RegEffect cfg True G L r r')
    (hL : ∀ before after pkt, L (.change .writeback before after (some pkt)) →
      Admitted cfg True G pkt) (q : QueueIndex) (i : Nat) (hi : i ∈ (r'.queue q).allocatedList) :
    G ((r'.queue q).registers i).guest := by
  rcases h.register q i with ⟨hchange, hlists, _⟩ | ⟨pkt, _, _, hpkt, _, _, _, halloc, _⟩
  · rw [hchange.entry.1]
    exact hr.guests q i (hlists hi)
  · rw [(allocate_spec halloc).1]
    rcases hpkt with hpkt | ⟨_, before, after, hmade⟩
    · exact hpkt.1
    · exact (hL before after pkt hmade).1

/-- The registers of the packets that the cache waits for keep their lines. -/
theorem lines_kept (hr : r.Proper cfg G) (h : RegEffect cfg True G L r r')
    (hpkt : pkt ∈ r.outstanding) (hstate : pkt.senderState = [.mshr q i]) :
    pkt.line cfg = ((r'.queue q).registers i).line cfg := by
  rcases h.register q i with ⟨hchange, _⟩ | ⟨_, _, _, _, _, hfree, _⟩
  · rw [hchange.line]
    exact hr.lines pkt hpkt q i hstate
  · obtain ⟨q', i', hstate', hbusy⟩ := hr.owner pkt hpkt
    rw [hstate] at hstate'
    cases hstate'
    exact absurd hfree ((hr.queues q).not_mem_free ((hr.queues q).busy i hbusy))

/-- The packet of a register that is issued is for the line of the register. -/
theorem line_issued {target : Target} {mq : MSHRQueue} (hr : r.Proper cfg G)
    (hmark : (r.queue q).markInService i pkt = .ok mq)
    (hwaits : ((r.queue q).registers i).isForwardNoResponse = false)
    (htarget : ((r.queue q).registers i).getTarget = .ok target)
    (hline : target.pkt.WellFormed cfg → pkt.line cfg = target.pkt.line cfg) :
    pkt.line cfg = ((Regs.queue { r.setQueue q mq with outstanding := outstanding } q).registers
      i).line cfg := by
  obtain ⟨hidle, ⟨hlast, _⟩ | ⟨_, hmq⟩⟩ := MSHRQueue.QueueLemmas.markInService_cases hmark
  · exact Bool.noConfusion (hlast.symm.trans hwaits)
  · have hqueue : Regs.queue { r.setQueue q mq with outstanding := outstanding } q = mq := by
      cases q <;> rfl
    have hreg : mq.registers i = ((r.queue q).registers i).serviced pkt := by
      rw [hmq]
      exact if_pos rfl
    have hmem : target ∈ ((r.queue q).registers i).targets.targets := mem_of_getTarget htarget
    have hproper := hr.registers q i
    obtain ⟨hwf, htline⟩ :=
      hproper.targets target (List.mem_append_left _ hmem) (hproper.idle hidle target hmem)
    rw [hline hwf, htline, hqueue, hreg]
    rfl

end RegLemmas

/-- Steps of well-formed packets keep the registers proper. -/
theorem Regs.Proper.step (hr : r.Proper cfg G) (h : RegStep cfg True G L r r')
    (hL : ∀ before after pkt, L (.change .writeback before after (some pkt)) →
      Admitted cfg True G pkt) : r'.Proper cfg G := by
  have heffect := h.effect
  refine ⟨hr.toConsistent.step h, registers_proper hr heffect hL, guests_proper hr heffect hL, ?_⟩
  intro pkt hpkt q i hstate
  cases h with
  | miss | buffer | join | snoop | share => exact lines_kept hr heffect hpkt hstate
  | @mark q' | @serviced q' =>
    rw [Regs.outstanding_setQueue] at hpkt
    exact lines_kept hr heffect hpkt hstate
  | @issued q' j pkt' target mq hready hmark hwaits hstate' htarget hline =>
    rcases List.mem_append.mp hpkt with hpkt | hpkt
    · exact lines_kept hr heffect hpkt hstate
    · obtain rfl := List.mem_singleton.mp hpkt
      rw [hstate'] at hstate
      cases hstate
      exact line_issued hr hmark hwaits htarget hline
  | @completed q' j mq outstanding hwhy hdone =>
    have hsub := (completed_register hr.toConsistent hwhy).2.1
    exact lines_kept hr heffect (hsub.subset hpkt) hstate

end PardG5V
