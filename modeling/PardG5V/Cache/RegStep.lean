import PardG5V.Cache.CachePath

/-!
# Steps of the miss status registers

Everything the cache does to its two register queues and to the packets it waits for is a sequence
of the steps of `RegStep` (`call_regs`). A response that completes a register is one step: the
fill, the end of its targets, and its repetition or its release.
-/

namespace PardG5V

open Prog Relation

namespace Regs

def queue (r : Regs) : QueueIndex → MSHRQueue
  | .mshrs => r.mshrQueue
  | .writeBuffer => r.writeBuffer

def setQueue (r : Regs) (q : QueueIndex) (mq : MSHRQueue) : Regs :=
  match q with
  | .mshrs => { r with mshrQueue := mq }
  | .writeBuffer => { r with writeBuffer := mq }

end Regs

variable {cfg : CacheConfig} {wf : Prop} {G : GuestID → Prop}

/-- What is known about a packet that comes in from above. -/
def Admitted (cfg : CacheConfig) (wf : Prop) (G : GuestID → Prop) (pkt : Packet) : Prop :=
  G pkt.guestID ∧ (wf → pkt.WellFormed cfg)

def MSHR.emptied (m : MSHR) : MSHR :=
  { m with targets := { m.targets with targets := [] } }

/-- The end of a register: its deferred targets make it pending again, or it is
freed. -/
inductive Completes (q : MSHRQueue) (i : Nat) (now : Tick) : MSHRQueue → Prop
  | promoted {m m' : MSHR} {mq : MSHRQueue}
      (hfill : m = q.registers i ∨ ∃ pkt, (q.registers i).handleFill pkt = .ok m)
      (hpromote : m.emptied.promoteDeferredTargets now = .ok (some m'))
      (hpending : (q.setReg i m').markPending i = .ok mq) : Completes q i now mq
  | freed {m : MSHR} {mq : MSHRQueue}
      (hfill : m = q.registers i ∨ ∃ pkt, (q.registers i).handleFill pkt = .ok m)
      (hpromote : m.emptied.promoteDeferredTargets now = .ok none)
      (hfree : (q.setReg i m.emptied).deallocate i = .ok mq) : Completes q i now mq

/-- One step of the registers. `L` has the events that are in the log by the end of
the call. -/
inductive RegStep (cfg : CacheConfig) (wf : Prop) (G : GuestID → Prop) (L : Event → Prop)
    (r : Regs) : Regs → Prop
  | miss {pkt : Packet} {addr : Addr} {size i : Nat} {mq : MSHRQueue}
      (hpkt : Admitted cfg wf G pkt) (haddr : cfg.blkAlign addr = cfg.blkAlign pkt.addr)
      (halloc : r.mshrQueue.allocate pkt.guestID addr size pkt r.curTick
        (cfg.clockEdge r.curTick cfg.hitLatency) r.order = .ok (mq, i)) :
      RegStep cfg wf G L r { r with mshrQueue := mq, order := r.order + 1 }
  | buffer {pkt : Packet} {i : Nat} {mq : MSHRQueue}
      (hpkt : Admitted cfg wf G pkt ∨ ∃ before after,
        L (.change .writeback before after (some pkt)))
      (hlog : L (.buffered pkt (r.mshrQueue.allocatedList.any fun i =>
        CacheM.standsInWay (r.mshrQueue.registers i) pkt.guestID pkt.addr pkt.size pkt.isSecure)))
      (halloc : r.writeBuffer.allocate pkt.guestID pkt.addr pkt.size pkt r.curTick
        (cfg.clockEdge r.curTick cfg.hitLatency) r.order = .ok (mq, i)) :
      RegStep cfg wf G L r { r with writeBuffer := mq, order := r.order + 1 }
  | join {pkt : Packet} {i : Nat} {m : MSHR} (hpkt : Admitted cfg wf G pkt)
      (hi : r.mshrQueue.findMatch pkt.guestID (cfg.blkAlign pkt.addr) pkt.isSecure = some i)
      (htarget : (r.mshrQueue.registers i).allocateTarget pkt r.curTick
        (cfg.clockEdge r.curTick cfg.hitLatency) r.order = .ok m) :
      RegStep cfg wf G L r
        { r with mshrQueue := r.mshrQueue.setReg i m, order := r.order + 1 }
  | snoop {pkt : Packet} {i : Nat} :
      RegStep cfg wf G L r
        { r with
          mshrQueue := r.mshrQueue.setReg i
            ((r.mshrQueue.registers i).handleSnoop pkt r.curTick r.order).1
          order := r.order + 1 }
  | share {i : Nat} {target : Target} {exclusive : Bool}
      (htarget : (r.writeBuffer.registers i).targets.targets = [target]) :
      RegStep cfg wf G L r
        { r with writeBuffer := r.writeBuffer.setReg i { r.writeBuffer.registers i with
            targets := { (r.writeBuffer.registers i).targets with
              targets := [{ target with
                pkt := { target.pkt with supplyExclusive := exclusive } }] } } }
  | mark {q : QueueIndex} {i : Nat} {isForward downstreamPending : Bool} :
      RegStep cfg wf G L r (r.setQueue q ((r.queue q).setReg i
        { (r.queue q).registers i with isForward, downstreamPending }))
  | serviced {q : QueueIndex} {i : Nat} {pkt : Packet} {mq : MSHRQueue}
      (hi : i ∈ (r.queue q).allocatedList ∨ i ∈ (r.queue q).readyList)
      (hmark : (r.queue q).markInService i pkt = .ok mq) :
      RegStep cfg wf G L r (r.setQueue q mq)
  | issued {q : QueueIndex} {i : Nat} {pkt : Packet} {target : Target} {mq : MSHRQueue}
      (hready : i ∈ (r.queue q).readyList)
      (hmark : (r.queue q).markInService i pkt = .ok mq)
      (hwaits : ((r.queue q).registers i).isForwardNoResponse = false)
      (hstate : pkt.senderState = [.mshr q i])
      (htarget : ((r.queue q).registers i).getTarget = .ok target)
      (hline : target.pkt.WellFormed cfg → pkt.line cfg = target.pkt.line cfg) :
      RegStep cfg wf G L r { r.setQueue q mq with outstanding := r.outstanding ++ [pkt] }
  | completed {q : QueueIndex} {i : Nat} {mq : MSHRQueue} {outstanding : List Packet}
      (hwhy : (∃ k pkt rest, r.outstanding[k]? = some pkt ∧ pkt.senderState = .mshr q i :: rest ∧
          outstanding = r.outstanding.eraseIdx k) ∨
        i ∈ (r.queue q).readyList ∧ outstanding = r.outstanding)
      (hdone : Completes (r.queue q) i r.curTick mq) :
      RegStep cfg wf G L r { r.setQueue q mq with outstanding := outstanding }

structure RegMoves (wf : Prop) (G : GuestID → Prop) (s s' : Cache cfg) : Prop where
  log : s.store.log <:+ s'.store.log
  path : ReflTransGen (RegStep cfg wf G (· ∈ s'.store.log)) s.regs s'.regs

theorem RegStep.mono {L L' : Event → Prop} {r r' : Regs} (hL : ∀ e, L e → L' e)
    (h : RegStep cfg wf G L r r') : RegStep cfg wf G L' r r' := by
  cases h with
  | miss hpkt haddr halloc => exact .miss hpkt haddr halloc
  | buffer hpkt hlog halloc =>
    refine .buffer (hpkt.imp_right ?_) (hL _ hlog) halloc
    rintro ⟨before, after, hmade⟩
    exact ⟨before, after, hL _ hmade⟩
  | join hpkt hi htarget => exact .join hpkt hi htarget
  | snoop => exact .snoop
  | share htarget => exact .share htarget
  | mark => exact .mark
  | serviced hi hmark => exact .serviced hi hmark
  | issued hready hmark hwaits hstate htarget hline =>
    exact .issued hready hmark hwaits hstate htarget hline
  | completed hwhy hdone => exact .completed hwhy hdone

theorem RegStep.curTick {L : Event → Prop} {r r' : Regs} (h : RegStep cfg wf G L r r') :
    r'.curTick = r.curTick := by
  cases h with
  | miss | buffer | join | snoop | share => rfl
  | @mark q | @serviced q | @issued q | @completed q => cases q <;> rfl

theorem RegMoves.refl (s : Cache cfg) : RegMoves wf G s s := ⟨List.suffix_refl _, .refl⟩

theorem RegMoves.trans {s s₁ s' : Cache cfg} (h : RegMoves wf G s s₁) (h' : RegMoves wf G s₁ s') :
    RegMoves wf G s s' := by
  refine ⟨h.log.trans h'.log, ?_⟩
  have hfirst := ReflTransGen.mono (fun r r' => RegStep.mono fun e he => h'.log.mem he) _ _ h.path
  exact hfirst.trans h'.path

instance : IsPreorder (Cache cfg) (RegMoves wf G) where
  refl := .refl
  trans _ _ _ := .trans

/-- What every step keeps is kept by a whole sequence of steps. -/
theorem RegMoves.keeps {s s' : Cache cfg} (h : RegMoves wf G s s') {I : Regs → Prop}
    (hstep : ∀ r r', I r → RegStep cfg wf G (· ∈ s'.store.log) r r' → I r') (hI : I s.regs) :
    I s'.regs := by
  have hpath : ∀ r, ReflTransGen (RegStep cfg wf G (· ∈ s'.store.log)) s.regs r → I r := by
    intro r hr
    induction hr with
    | refl => exact hI
    | tail _ h ih => exact hstep _ _ ih h
  exact hpath _ h.path

theorem RegMoves.curTick {s s' : Cache cfg} (h : RegMoves wf G s s') : s'.curTick = s.curTick :=
  h.keeps (I := fun r => r.curTick = s.curTick) (fun _ _ hr hstep => hstep.curTick.trans hr) rfl

namespace Regs

theorem queue_setQueue (r : Regs) (q : QueueIndex) (mq : MSHRQueue) :
    (r.setQueue q mq).queue q = mq := by
  cases q with
  | mshrs | writeBuffer => rfl

theorem setQueue_setQueue (r : Regs) (q : QueueIndex) (mq mq' : MSHRQueue) :
    (r.setQueue q mq).setQueue q mq' = r.setQueue q mq' := by
  cases q with
  | mshrs | writeBuffer => rfl

theorem outstanding_setQueue (r : Regs) (q : QueueIndex) (mq : MSHRQueue) :
    (r.setQueue q mq).outstanding = r.outstanding := by
  cases q with
  | mshrs | writeBuffer => rfl

theorem curTick_setQueue (r : Regs) (q : QueueIndex) (mq : MSHRQueue) :
    (r.setQueue q mq).curTick = r.curTick := by
  cases q with
  | mshrs | writeBuffer => rfl

end Regs

theorem queue_regs (s : Cache cfg) (q : QueueIndex) : s.regs.queue q = s.queue q := by
  cases q with
  | mshrs | writeBuffer => rfl

theorem regs_setQueue (s : Cache cfg) (q : QueueIndex) (mq : MSHRQueue) :
    (s.setQueue q mq).regs = s.regs.setQueue q mq := by
  cases q with
  | mshrs | writeBuffer => rfl

theorem Store.Logged.mono {s s' : Store cfg} {wb : Packet} (h : s.Logged wb)
    (hlog : s.log <:+ s'.log) :
    s'.Logged wb := by
  obtain ⟨before, after, hmade⟩ := h
  exact ⟨before, after, hlog.mem hmade⟩

theorem Moves.log {s s' : Cache cfg} (h : Moves wf G s s') : s.store.log <:+ s'.store.log :=
  MicroSteps.log_suffix h

theorem Quiet.log {s s' : Cache cfg} (h : Quiet s s') : s.store.log <:+ s'.store.log := by
  obtain ⟨es, _, heq⟩ := h
  rw [heq]
  exact List.suffix_append es _

theorem RegMoves.of_same {s s' : Cache cfg} (hsame : s'.regs = s.regs)
    (hlog : s.store.log <:+ s'.store.log) : RegMoves wf G s s' := by
  refine ⟨hlog, ?_⟩
  rw [hsame]

theorem RegMoves.of_step {s s' : Cache cfg} (hlog : s.store.log <:+ s'.store.log)
    (hstep : RegStep cfg wf G (· ∈ s'.store.log) s.regs s'.regs) : RegMoves wf G s s' :=
  ⟨hlog, .single hstep⟩

theorem suffix_setQueue (s : Cache cfg) (q : QueueIndex) (mq : MSHRQueue) :
    s.store.log <:+ (s.setQueue q mq).store.log :=
  (CacheM.setQueue_store s q mq).symm ▸ List.suffix_refl _

/-- The time at which the functions that use the registers are called. -/
abbrev Cache.hitTime (s : Cache cfg) : Tick := cfg.clockEdge s.curTick cfg.hitLatency

theorem RegMoves.hitTime {s s' : Cache cfg} (h : RegMoves wf G s s') : s'.hitTime = s.hitTime :=
  congrArg (cfg.clockEdge · cfg.hitLatency) h.curTick

namespace CacheM

/-! ## Functions that use the registers -/

section RegLemmas

variable {α : Type} {s s' : Cache cfg}

theorem regMoves_of_silent {m : CacheM cfg α} (hm : Follows Silent m) : Follows (RegMoves wf G) m :=
  fun s a s' h => .of_same (hm s a s' h).2 (hm s a s' h).1.log

theorem regMoves_modify {f : Cache cfg → Cache cfg} (hregs : ∀ s, (f s).regs = s.regs)
    (hstore : ∀ s, (f s).store = s.store) : Follows (RegMoves wf G) (modify f : CacheM cfg PUnit) :=
  regMoves_of_silent (silent_modify hstore hregs)

variable {pkt : Packet} {q : QueueIndex}

theorem allocateBufferInternal_cases {addr : Addr} {size : Nat}
    {time : Tick} (h : allocateBufferInternal q addr size pkt time s = .ok ((), s')) :
    ∃ mq i, (s.queue q).allocate pkt.guestID addr size pkt s.curTick time s.order = .ok (mq, i) ∧
      s'.regs = { s.regs.setQueue q mq with order := s.order + 1 } := by
  replace h := get_bind_eq_ok.mp h
  obtain ⟨⟨mq, i⟩, _, hcheck, h⟩ := bind_eq_ok.mp h
  obtain ⟨halloc, rfl⟩ := check_eq_ok.mp hcheck
  obtain ⟨_, s₁, hmod, h⟩ := bind_eq_ok.mp h
  obtain rfl := modify_eq_ok.mp hmod
  have hsame : Silent _ s' := Follows.run h (.bind (.when fun _ => setBlocked_silent _) fun _ =>
    requestMemSideBus_silent _)
  refine ⟨mq, i, halloc, hsame.2.trans ?_⟩
  cases q with
  | mshrs | writeBuffer => rfl

/-- Enters a miss: a block's, or an uncacheable read's. -/
theorem allocateMiss_regs {addr : Addr} {size : Nat}
    (h : allocateBufferInternal .mshrs addr size pkt s.hitTime s
      = .ok ((), s'))
    (hpkt : Admitted cfg wf G pkt) (haddr : cfg.blkAlign addr = cfg.blkAlign pkt.addr) :
    RegMoves wf G s s' := by
  obtain ⟨mq, i, halloc, hregs⟩ := allocateBufferInternal_cases h
  refine .of_step (allocateBufferInternal_quiet _ _ _ _ _ _ _ _ h).log ?_
  rw [hregs]
  exact .miss hpkt haddr halloc

theorem allocateMissBuffer_regs
    (h : allocateMissBuffer pkt s.hitTime s = .ok ((), s'))
    (hpkt : Admitted cfg wf G pkt) : RegMoves wf G s s' := by
  obtain ⟨_, _, h⟩ := check_bind_eq_ok.mp h
  exact allocateMiss_regs h hpkt (cfg.blkAlign_blkAlign pkt.addr)

theorem allocateUncachedReadBuffer_regs
    (h : allocateUncachedReadBuffer pkt s.hitTime s = .ok ((), s'))
    (hpkt : Admitted cfg wf G pkt) : RegMoves wf G s s' := by
  simp only [allocateUncachedReadBuffer, bind_eq_ok, check_eq_ok] at h
  obtain ⟨_, _, ⟨_, rfl⟩, _, _, ⟨_, rfl⟩, h⟩ := h
  exact allocateMiss_regs h hpkt rfl

theorem allocateWriteBuffer_regs
    (h : allocateWriteBuffer pkt s.hitTime s = .ok ((), s'))
    (hpkt : Admitted cfg wf G pkt ∨ s.store.Logged pkt) : RegMoves wf G s s' := by
  have hlog : s.store.log <:+ s'.store.log := (allocateWriteBuffer_quiet _ _ _ _ _ h).log
  simp only [allocateWriteBuffer, bind_eq_ok, check_eq_ok, get_eq_ok, onStore_eq_ok,
    StoreM.emit_eq_ok] at h
  obtain ⟨_, _, ⟨_, rfl⟩, _, _, ⟨rfl, rfl⟩, _, s₁, ⟨t, rfl, rfl⟩, halloc⟩ := h
  have hrest := (allocateBufferInternal_quiet _ _ _ _ _ _ _ _ halloc).log
  obtain ⟨mq, i, halloc, hregs⟩ := allocateBufferInternal_cases halloc
  refine .of_step hlog ?_
  rw [hregs]
  exact .buffer (hpkt.imp_right (·.mono hlog)) (hrest.mem List.mem_cons_self) halloc

theorem writebacks_regs {wbs : List Packet} {time : Tick}
    (h : Prog.forEach (fun wb => allocateWriteBuffer wb time) wbs s = .ok ((), s'))
    (htime : time = s.hitTime)
    (hlogged : ∀ wb ∈ wbs, s.store.Logged wb) : RegMoves wf G s s' := by
  induction wbs generalizing s with
  | nil =>
    obtain rfl := forEach_nil_eq_ok.mp h
    exact .refl s
  | cons wb wbs ih =>
    obtain ⟨s₁, hfirst, hrest⟩ := forEach_cons_eq_ok.mp h
    rw [htime] at hfirst
    have hmove : RegMoves wf G s s₁ :=
      allocateWriteBuffer_regs hfirst (.inr (hlogged wb List.mem_cons_self))
    refine .trans hmove (ih hrest (htime.trans hmove.hitTime.symm) ?_)
    exact fun wb' hmem => (hlogged wb' (List.mem_cons_of_mem wb hmem)).mono hmove.log

variable {i : Nat}

theorem markInService_cases (h : markInService q i pkt s = .ok ((), s')) :
    ∃ mq, (s.queue q).markInService i pkt = .ok mq ∧ s'.regs = s.regs.setQueue q mq := by
  replace h := get_bind_eq_ok.mp h
  obtain ⟨mq, hmark, h⟩ := check_bind_eq_ok.mp h
  obtain ⟨_, s₁, hmod, h⟩ := bind_eq_ok.mp h
  obtain rfl := modify_eq_ok.mp hmod
  have hsame : Silent _ s' := Follows.run h (.when fun _ => clearBlocked_silent _)
  exact ⟨mq, hmark, hsame.2.trans (regs_setQueue s q mq)⟩

theorem markInService_regs (h : markInService q i pkt s = .ok ((), s'))
    (hi : i ∈ (s.queue q).allocatedList ∨ i ∈ (s.queue q).readyList) : RegMoves wf G s s' := by
  obtain ⟨mq, hmark, hregs⟩ := markInService_cases h
  refine .of_step (markInService_quiet _ _ _ _ _ _ h).log ?_
  rw [hregs]
  rw [← queue_regs] at hi hmark
  exact .serviced hi hmark

theorem admitted_delayed (h : Admitted cfg wf G pkt) (first last : Nat) :
    Admitted cfg wf G { pkt with busFirstWordDelay := first, busLastWordDelay := last } :=
  ⟨h.1, fun hw => ⟨(h.2 hw).addr, (h.2 hw).secure, (h.2 hw).guest, (h.2 hw).unshared⟩⟩

theorem joinMiss_regs (h : joinMiss i pkt s.hitTime s = .ok ((), s'))
    (hi : s.mshrQueue.findMatch pkt.guestID (cfg.blkAlign pkt.addr) pkt.isSecure = some i)
    (hpkt : Admitted cfg wf G pkt) : RegMoves wf G s s' := by
  have hlog := (joinMiss_quiet _ _ _ _ _ _ h).log
  simp only [joinMiss, bind_eq_ok, check_eq_ok, get_eq_ok, modify_eq_ok] at h
  obtain ⟨_, _, ⟨_, rfl⟩, _, _, ⟨rfl, rfl⟩, m, _, ⟨htarget, rfl⟩, _, _, rfl, h⟩ := h
  have hsame : Silent _ s' := Follows.run h (.when fun _ =>
    .bind (silent_modify (fun _ => rfl) fun _ => rfl) fun _ => setBlocked_silent _)
  refine .of_step hlog ?_
  rw [hsame.2]
  exact .join hpkt hi htarget

theorem startMiss_regs {hit : Option (Fin cfg.assoc)}
    (h : startMiss pkt hit s.hitTime s = .ok ((), s'))
    (hpkt : Admitted cfg wf G pkt) : RegMoves wf G s s' := by
  simp only [startMiss, bind_eq_ok, check_eq_ok, ite_eq_ok, get_eq_ok] at h
  obtain ⟨_, _, ⟨_, rfl⟩, ⟨_, hwrite⟩ | ⟨_, _, _, ⟨rfl, rfl⟩, h⟩⟩ := h
  · exact allocateWriteBuffer_regs hwrite (.inl hpkt)
  · cases hv : validBlk s (hit.map (BlkPtr.way (cfg.extractSet pkt.addr))) with
    | none =>
      rw [hv] at h
      exact allocateMissBuffer_regs h hpkt
    | some p =>
      rw [hv] at h
      simp only [bind_eq_ok, check_eq_ok, onStore_eq_ok, StoreM.changeBlk_eq_ok] at h
      obtain ⟨_, _, ⟨_, rfl⟩, _, s₁, ⟨t, rfl, rfl⟩, hmiss⟩ := h
      have hhide : RegMoves wf G s
          { s with store := s.store.changed .other p (s.store.blk p).clearReadable none } :=
        .of_same rfl (by rw [Store.log_changed]; exact List.suffix_cons _ _)
      exact .trans hhide (allocateMissBuffer_regs hmiss hpkt)

theorem timingMiss_regs {hit : Option (Fin cfg.assoc)}
    (h : timingMiss pkt hit s.hitTime s = .ok ((), s'))
    (hpkt : Admitted cfg wf G pkt) : RegMoves wf G s s' := by
  replace h := get_bind_eq_ok.mp h
  have hpkt' := admitted_delayed hpkt 0 0
  generalize ({ pkt with busFirstWordDelay := 0, busLastWordDelay := 0 } : Packet) = pkt' at h hpkt'
  cases hmatch : s.mshrQueue.findMatch pkt'.guestID (cfg.blkAlign pkt'.addr) pkt'.isSecure with
  | some i =>
    rw [hmatch] at h
    exact joinMiss_regs h hmatch hpkt'
  | none =>
    rw [hmatch] at h
    exact startMiss_regs h hpkt'

theorem timingCacheable_regs
    (h : timingCacheable pkt s.hitTime s = .ok ((), s'))
    (hpkt : Admitted cfg wf G pkt) : RegMoves wf G s s' := by
  simp only [timingCacheable, bind_eq_ok, get_eq_ok, onStore_eq_ok, ite_eq_ok] at h
  obtain ⟨_, _, ⟨rfl, rfl⟩, r, _, ⟨t, haccess, rfl⟩, h⟩ := h
  have hpath : MicroSteps False (fun _ => True) s.store t :=
    StoreM.access_path haccess trivial fun hno => hno.elim
  have hstart : RegMoves wf G s { s with store := t } := .of_same rfl (MicroSteps.log_suffix hpath)
  have hlogged : ∀ {s₁ : Cache cfg}, RegMoves wf G { s with store := t } s₁ →
      ∀ wb ∈ r.writebacks, s₁.store.Logged wb :=
    fun hmove wb hwb => (StoreM.access_logged haccess wb hwb).mono hmove.log
  have hwrite : ∀ {s₁ : Cache cfg}, RegMoves wf G { s with store := t } s₁ →
      Prog.forEach (fun wb => allocateWriteBuffer wb s.hitTime) r.writebacks s₁ = .ok ((), s') →
      RegMoves wf G s s' := by
    intro s₁ hmove hwbs
    refine .trans (.trans hstart hmove) (writebacks_regs hwbs ?_ (hlogged hmove))
    exact hmove.hitTime.symm
  rcases h with ⟨_, _, s₁, hhit, hwbs⟩ | ⟨hmiss, _, s₁, hmiss', hwbs⟩
  · exact hwrite (regMoves_of_silent (timingHit_silent _ _) _ _ _ hhit) hwbs
  · have hpkt' := (StoreM.access_unsatisfied haccess (Bool.eq_false_iff.mpr hmiss)).1
    rw [hpkt'] at hmiss'
    exact hwrite (timingMiss_regs hmiss' hpkt) hwbs

theorem timingUncacheable_regs
    (h : timingUncacheable pkt s.hitTime s = .ok ((), s'))
    (hpkt : Admitted cfg wf G pkt) : RegMoves wf G s s' := by
  simp only [timingUncacheable, bind_eq_ok, onStore_eq_ok, ite_eq_ok, check_eq_ok] at h
  obtain ⟨_, _, ⟨t, hflush, rfl⟩, h⟩ := h
  have hpath : MicroSteps False (fun _ => True) s.store t := StoreM.uncacheableFlush_path hflush
  have hstart : RegMoves wf G s { s with store := t } := .of_same rfl (MicroSteps.log_suffix hpath)
  refine .trans hstart ?_
  rcases h with ⟨_, _, s₁, hwrite, _, rfl⟩ | ⟨_, _, s₁, hread, _, rfl⟩
  · exact allocateWriteBuffer_regs hwrite (.inl (admitted_delayed hpkt 0 0))
  · exact allocateUncachedReadBuffer_regs hread (admitted_delayed hpkt 0 0)

theorem cpuSideReq_regs {r : Bool} (h : cpuSideReq pkt s = .ok (r, s'))
    (hpkt : Admitted cfg wf G pkt) : RegMoves wf G s s' := by
  simp only [cpuSideReq, recvTimingReq, bind_eq_ok, get_eq_ok, ite_eq_ok, check_eq_ok,
    pure_eq_ok] at h
  obtain ⟨_, _, ⟨rfl, rfl⟩, ⟨_, _, _, ⟨_, rfl⟩, _, s₁, hmod, _, rfl⟩ |
    ⟨_, _, s₁, ⟨_, _, ⟨rfl, rfl⟩, _, _, ⟨_, rfl⟩, h⟩, _, rfl⟩⟩ := h
  · exact Follows.run hmod (regMoves_modify (fun _ => rfl) fun _ => rfl)
  · rcases h with ⟨_, hemit⟩ | ⟨_, ⟨_, hinh⟩ | ⟨_, ⟨_, hunc⟩ | ⟨_, hcache⟩⟩⟩
    · exact regMoves_of_silent (silent_emit rfl) _ _ _ hemit
    · exact regMoves_of_silent (timingInhibited_silent _) _ _ _ hinh
    · exact timingUncacheable_regs hunc hpkt
    · exact timingCacheable_regs hcache hpkt

theorem regMoves_of_stays {m : CacheM cfg α} (hm : Follows (Stays False fun _ => True) m) :
    Follows (RegMoves wf G) m :=
  fun s a s' h => .of_same (hm s a s' h).2 (hm s a s' h).1.log

theorem targets_of_one {m : MSHR} {target : Target} (hone : m.getNumTargets = 1)
    (htarget : m.getTarget = .ok target) : m.targets.targets = [target] := by
  unfold MSHR.getTarget at htarget
  unfold MSHR.getNumTargets at hone
  cases hts : m.targets.targets with
  | nil =>
    rw [hts] at htarget
    exact nomatch htarget
  | cons t ts =>
    rw [hts] at htarget hone
    obtain rfl := Except.ok.inj htarget
    have hlen : ts.length = 0 := by
      rw [List.length_cons] at hone
      omega
    rw [List.eq_nil_of_length_eq_zero hlen]

theorem snoopWriteBuffer_regs {pkt left : Packet} (h : snoopWriteBuffer pkt s = .ok (left, s')) :
    RegMoves wf G s s' := by
  replace h := get_bind_eq_ok.mp h
  cases hfound : s.writeBuffer.findMatches pkt.guestID (cfg.blkAlign pkt.addr) pkt.isSecure with
  | nil =>
    rw [hfound] at h
    obtain ⟨_, rfl⟩ := pure_eq_ok.mp h
    exact .refl s
  | cons i rest =>
    have hi : i ∈ s.writeBuffer.allocatedList := by
      have hmem : i ∈
          s.writeBuffer.findMatches pkt.guestID (cfg.blkAlign pkt.addr) pkt.isSecure := by
        rw [hfound]
        exact List.mem_cons_self
      exact List.mem_of_mem_filter hmem
    rw [hfound] at h
    obtain ⟨_, _, h⟩ := check_bind_eq_ok.mp h
    obtain ⟨_, _, h⟩ := check_bind_eq_ok.mp h
    obtain ⟨_, hone, h⟩ := check_bind_eq_ok.mp h
    obtain ⟨target, htarget, h⟩ := check_bind_eq_ok.mp h
    obtain ⟨_, _, h⟩ := check_bind_eq_ok.mp h
    obtain ⟨_, _, h⟩ := check_bind_eq_ok.mp h
    obtain ⟨_, _, h⟩ := check_bind_eq_ok.mp h
    obtain ⟨_, s₀, hmod, h⟩ := bind_eq_ok.mp h
    obtain ⟨_, _, h⟩ := check_bind_eq_ok.mp h
    obtain ⟨_, _, h⟩ := check_bind_eq_ok.mp h
    obtain ⟨_, s₁, hsched, h⟩ := bind_eq_ok.mp h
    obtain ⟨_, s₂, hmark, h⟩ := bind_eq_ok.mp h
    obtain ⟨_, rfl⟩ := pure_eq_ok.mp h
    have hone : (s.writeBuffer.registers i).getNumTargets = 1 := by
      simpa only [assert_eq_ok, beq_iff_eq] using hone
    have hmod := modify_eq_ok.mp hmod
    have hshare : RegMoves wf G s s₀ := by
      rw [← hmod]
      exact .of_step (List.suffix_refl _) (.share (targets_of_one hone htarget))
    have hlist : s₀.writeBuffer.allocatedList = s.writeBuffer.allocatedList := by
      rw [← hmod]
      rfl
    have hresp : Silent s₀ s₁ := schedTimingSnoopResp_silent _ _ _ _ _ hsched
    have hfirst := hshare.trans (.of_same hresp.2 hresp.1.log)
    rcases when_eq_ok.mp hmark with ⟨_, hmark⟩ | ⟨_, rfl⟩
    · refine .trans hfirst (markInService_regs hmark ?_)
      rw [← queue_regs, hresp.2]
      exact .inl (hlist ▸ hi)
    · exact hfirst

theorem recvTimingSnoopReq_regs {pkt left : Packet} {above : SnoopAnswer}
    (h : recvTimingSnoopReq pkt above s = .ok (left, s')) : RegMoves wf G s s' := by
  have hrest : ∀ {s₁ : Cache cfg} pkt blk, (snoopWriteBuffer pkt >>= fun left =>
      handleTimingSnoop left blk false false above) s₁ = .ok (left, s') → RegMoves wf G s₁ s' := by
    intro s₁ pkt blk h
    obtain ⟨_, s₂, hwrite, hsnoop⟩ := bind_eq_ok.mp h
    exact .trans (snoopWriteBuffer_regs hwrite)
      (regMoves_of_stays (handleTimingSnoop_stays _ _ _ _ _) _ _ _ hsnoop)
  simp only [recvTimingSnoopReq, processTimingSnoop, ite_eq_ok, pure_eq_ok] at h
  rcases h with ⟨_, _, rfl⟩ | ⟨_, h⟩
  · exact .refl s
  · obtain ⟨_, _, h⟩ := check_bind_eq_ok.mp h
    rcases ite_eq_ok.mp h with ⟨_, h⟩ | ⟨_, h⟩
    · replace h := get_bind_eq_ok.mp h
      cases hmatch : s.mshrQueue.findMatch pkt.guestID (cfg.blkAlign pkt.addr) pkt.isSecure with
      | none =>
        rw [hmatch] at h
        exact hrest _ _ h
      | some i =>
        rw [hmatch] at h
        obtain ⟨_, s₁, hmod, h⟩ := bind_eq_ok.mp h
        have hsnoop : RegMoves wf G s s₁ := by
          rw [← modify_eq_ok.mp hmod]
          exact .of_step (List.suffix_refl _) .snoop
        refine .trans hsnoop ?_
        rcases ite_eq_ok.mp h with ⟨_, h⟩ | ⟨_, h⟩
        · obtain ⟨_, rfl⟩ := pure_eq_ok.mp h
          exact .refl _
        · exact hrest _ _ h
    · obtain ⟨_, rfl⟩ := pure_eq_ok.mp h
      exact .refl s

/-! ## Responses -/

variable {blk : Option (BlkPtr cfg.assoc)}

theorem retireMSHR_cases {wasFull : Bool} (h : retireMSHR q i pkt blk wasFull s = .ok ((), s')) :
    ∃ mq, s'.regs = s.regs.setQueue q mq ∧
      ((∃ m', ((s.queue q).registers i).promoteDeferredTargets s.curTick = .ok (some m') ∧
          ((s.queue q).setReg i m').markPending i = .ok mq) ∨
        ((s.queue q).registers i).promoteDeferredTargets s.curTick = .ok none ∧
          (s.queue q).deallocate i = .ok mq) := by
  replace h := get_bind_eq_ok.mp h
  obtain ⟨promoted, hpromote, h⟩ := check_bind_eq_ok.mp h
  cases promoted with
  | some m' =>
    simp only [bind_eq_ok, check_eq_ok, modify_eq_ok] at h
    obtain ⟨_, s₁, hhide, mq, _, ⟨hpending, rfl⟩, _, _, rfl, hbus⟩ := h
    have hsame : Stays False (fun _ => True) s s₁ := hideBlk_stays blk _ _ _ hhide
    refine ⟨mq, ?_, .inl ⟨m', hpromote, hpending⟩⟩
    rw [(requestMemSideBus_silent _ _ _ _ hbus).2, regs_setQueue, hsame.2]
  | none =>
    simp only [bind_eq_ok, check_eq_ok, modify_eq_ok] at h
    obtain ⟨mq, _, ⟨hfree, rfl⟩, _, _, rfl, hclear⟩ := h
    have hsame : Silent _ s' := Follows.run hclear (.when fun _ => clearBlocked_silent _)
    exact ⟨mq, hsame.2.trans (regs_setQueue s q mq), .inr ⟨hpromote, hfree⟩⟩

theorem dropTempBlock_regs
    (h : dropTempBlock blk s.hitTime s = .ok ((), s')) :
    RegMoves wf G s s' := by
  simp only [dropTempBlock, when_eq_ok, bind_eq_ok, get_eq_ok, onStore_eq_ok] at h
  rcases h with ⟨_, _, _, ⟨rfl, rfl⟩, _, s₁, hwrite, _, _, ⟨rfl, rfl⟩, t, hdrop, rfl⟩ | ⟨_, rfl⟩
  · have hfirst : RegMoves wf G s s₁ := by
      rcases hwrite with ⟨_, wb, _, ⟨t', hwb, rfl⟩, halloc⟩ | ⟨_, rfl⟩
      · have hpath : MicroSteps False (fun _ => True) s.store t' := StoreM.writebackBlk_path hwb
        have hstart : RegMoves wf G s { s with store := t' } :=
          .of_same rfl (MicroSteps.log_suffix hpath)
        exact .trans hstart
          (allocateWriteBuffer_regs halloc (.inr (StoreM.writebackBlk_logged hwb)))
      · exact .refl s
    have hlast : RegMoves wf G s₁ { s₁ with store := t } := by
      refine .of_same rfl ?_
      rw [← StoreM.changeBlk_eq_ok.mp hdrop, Store.log_changed]
      exact List.suffix_cons _ _
    exact .trans hfirst hlast
  · exact .refl s

theorem fillResponse_regs {m : MSHR}
    {hit blk : Option (BlkPtr cfg.assoc)} {isFill : Bool} {wbs : List Packet}
    (h : fillResponse q i ((s.queue q).registers i) pkt hit isFill s = .ok ((m, blk, wbs), s')) :
    (m = (s.queue q).registers i ∨ ∃ pkt, ((s.queue q).registers i).handleFill pkt = .ok m) ∧
      ∃ mq, s'.regs = s.regs.setQueue q mq ∧ ∀ m', mq.setReg i m' = (s.queue q).setReg i m' := by
  rcases fillResponse_cases h with ⟨_, _, p, t, hm, _, _, rfl⟩ | ⟨_, rfl, _, _, rfl⟩
  · refine ⟨.inr ⟨pkt, hm⟩, (s.queue q).setReg i m, regs_setQueue s q _, fun m' => ?_⟩
    exact MSHRQueue.setReg_setReg _ i m m'
  · refine ⟨.inl rfl, s'.queue q, ?_, fun _ => rfl⟩
    cases q with
    | mshrs | writeBuffer => rfl

theorem finishMSHR_regs {m : MSHR} {wbs : List Packet} {wasFull : Bool}
    (h : finishMSHR q i m pkt blk wbs wasFull s.hitTime s
      = .ok ((), s')) (hlogged : ∀ wb ∈ wbs, s.store.Logged wb) :
    ∃ mq s₁, s₁.regs = s.regs.setQueue q mq ∧ s.store.log <:+ s₁.store.log ∧ RegMoves wf G s₁ s' ∧
      ((∃ m', m.emptied.promoteDeferredTargets s.curTick = .ok (some m') ∧
          ((s.queue q).setReg i m').markPending i = .ok mq) ∨
        m.emptied.promoteDeferredTargets s.curTick = .ok none ∧
          ((s.queue q).setReg i m.emptied).deallocate i = .ok mq) := by
  simp only [finishMSHR, bind_eq_ok, modify_eq_ok] at h
  obtain ⟨_, s₁, hmod, _, s₂, hsettle, _, s₃, hretire, _, s₄, hwrite, hdrop⟩ := h
  have hsettle' : Stays False (fun _ => True) s₁ s₂ := settleBlk_stays _ _ _ _ _ _ hsettle
  have hsame : s₂.regs = s.regs.setQueue q ((s.queue q).setReg i m.emptied) := by
    rw [hsettle'.2, ← hmod]
    exact regs_setQueue s q _
  have htick : s₂.curTick = s.curTick := by
    rw [show s₂.curTick = s₂.regs.curTick from rfl, hsame, Regs.curTick_setQueue]
    rfl
  have hqueue : s₂.queue q = (s.queue q).setReg i m.emptied := by
    rw [← queue_regs, hsame, Regs.queue_setQueue]
  have hlog : s.store.log <:+ s₃.store.log := by
    have hretire' : Moves False (fun _ => True) s₂ s₃ := retireMSHR_moves _ _ _ _ _ _ _ _ hretire
    have hstore : s₁.store = s.store := by
      rw [← hmod]
      exact setQueue_store s q _
    rw [← hstore]
    exact hsettle'.1.log.trans hretire'.log
  obtain ⟨mq, hregs, hends⟩ := retireMSHR_cases hretire
  have htime : s₃.hitTime = s.hitTime := by
    rw [Cache.hitTime, show s₃.curTick = s₃.regs.curTick from rfl, hregs, Regs.curTick_setQueue]
    exact congrArg (cfg.clockEdge · cfg.hitLatency) htick
  have hwrite' : RegMoves wf G s₃ s₄ :=
    writebacks_regs hwrite htime.symm fun wb hwb => (hlogged wb hwb).mono hlog
  have hdrop' : RegMoves wf G s₄ s' := by
    rw [← htime, ← hwrite'.hitTime] at hdrop
    exact dropTempBlock_regs hdrop
  refine ⟨mq, s₃, ?_, hlog, .trans hwrite' hdrop', ?_⟩
  · rw [hregs, hsame, Regs.setQueue_setQueue]
  · rw [hqueue, htick, MSHRQueue.registers_setReg, if_pos rfl] at hends
    simpa only [MSHRQueue.setReg_setReg] using hends

variable {above : Nat → SnoopAnswer}

/-- A response ends its register; what follows are its writebacks. -/
theorem completeMSHR_regs (h : completeMSHR q i pkt above s = .ok ((), s')) :
    ∃ mq s₁, Completes (s.queue q) i s.curTick mq ∧ s₁.regs = s.regs.setQueue q mq ∧
      s.store.log <:+ s₁.store.log ∧ RegMoves wf G s₁ s' := by
  obtain ⟨first, m, blk, wbs, s₁, s₂, s₃, hrelease, _, hfill, hloop, hfinish⟩ :=
    completeMSHR_cases h
  have hfirst : Silent s s₁ := releaseTargets_silent q i _ _ _ hrelease
  have hqueue : s₁.queue q = s.queue q := by rw [← queue_regs, hfirst.2, queue_regs]
  have hlogged : ∀ wb ∈ wbs, s₂.store.Logged wb := by
    rcases fillResponse_cases hfill with ⟨_, _, p, t, _, _, ht, rfl⟩ | ⟨_, _, _, rfl, _⟩
    · exact StoreM.handleFill_logged ht
    · exact fun wb hwb => absurd hwb List.not_mem_nil
  have hmoves : Moves False (fun _ => True) s₁ s₂ := by
    refine (fillResponse_moves hfill (fun hno => hno.elim) (fun _ => trivial) (fun hfills => ?_)
      fun hno => hno.elim).1
    simp only [fillsBlock, Bool.and_eq_true, Bool.or_eq_true, beq_iff_eq] at hfills
    exact hfills.2
  have hloop' : Stays False (fun _ => True) s₂ s₃ :=
    completeTargets_stays hloop (fun hno => hno.elim) fun hno => hno.elim
  rw [← hqueue] at hfill
  obtain ⟨hm, mq₀, hregs₂, hset⟩ := fillResponse_regs hfill
  have hregs₃ : s₃.regs = s.regs.setQueue q mq₀ := by rw [hloop'.2, hregs₂, hfirst.2]
  have hqueue₃ : s₃.queue q = mq₀ := by rw [← queue_regs, hregs₃, Regs.queue_setQueue]
  have htick₃ : s₃.curTick = s.curTick := by
    rw [show s₃.curTick = s₃.regs.curTick from rfl, hregs₃, Regs.curTick_setQueue]
    rfl
  rw [← htick₃] at hfinish
  obtain ⟨mq, s₄, hregs₄, hlog₄, hrest, hends⟩ := finishMSHR_regs hfinish
    fun wb hwb => (hlogged wb hwb).mono hloop'.1.log
  rw [hqueue] at hm hset
  refine ⟨mq, s₄, ?_, ?_, ?_, hrest⟩
  · rw [hqueue₃, htick₃] at hends
    rcases hends with ⟨m', hpromote, hpending⟩ | ⟨hpromote, hfree⟩
    · exact .promoted hm hpromote (hset m' ▸ hpending)
    · exact .freed hm hpromote (hset _ ▸ hfree)
  · rw [hregs₄, hregs₃, Regs.setQueue_setQueue]
  · exact hfirst.1.log.trans (hmoves.log.trans (hloop'.1.log.trans hlog₄))

/-- The completion of a register, for a reason that allows it. -/
theorem recvTimingResp_regs {s₀ : Cache cfg} {q : QueueIndex} {i : Nat} {rest : List SenderState}
    (h : recvTimingResp pkt above s = .ok ((), s')) (hstate : pkt.senderState = .mshr q i :: rest)
    (hstart : s = { s₀ with outstanding := s.outstanding })
    (hwhy : (∃ k pkt rest, s₀.outstanding[k]? = some pkt ∧ pkt.senderState = .mshr q i :: rest ∧
        s.outstanding = s₀.outstanding.eraseIdx k) ∨
      i ∈ (s₀.queue q).readyList ∧ s.outstanding = s₀.outstanding) : RegMoves wf G s₀ s' := by
  obtain ⟨_, q', i', rest', hstate', hcomplete⟩ := recvTimingResp_cases h
  rw [hstate] at hstate'
  cases hstate'
  obtain ⟨mq, s₁, hdone, hregs, hlog, hrest⟩ := completeMSHR_regs hcomplete
  have hqueue : s.queue q = s₀.regs.queue q := by
    rw [hstart, queue_regs]
    cases q with
    | mshrs | writeBuffer => rfl
  have hregs' : s₁.regs = { s₀.regs.setQueue q mq with outstanding := s.outstanding } := by
    rw [hregs, hstart]
    cases q with
    | mshrs | writeBuffer => rfl
  have hstep : RegMoves wf G s₀ s₁ := by
    have htick : s.curTick = s₀.curTick := by rw [hstart]
    have hstore : s.store = s₀.store := by rw [hstart]
    refine .of_step (hstore ▸ hlog) ?_
    rw [hregs']
    rw [hqueue, htick] at hdone
    rw [← queue_regs] at hwhy
    exact .completed hwhy hdone
  exact .trans hstep hrest

/-! ## Issuing requests -/

structure Offered (s : Cache cfg) (q : QueueIndex) (i : Nat) (pkt : Packet) : Prop where
  ready : i ∈ (s.queue q).readyList
  state : pkt.senderState = [.mshr q i]
  line : ((s.queue q).registers i).isForwardNoResponse = false →
    ∃ target, ((s.queue q).registers i).getTarget = .ok target ∧
      (target.pkt.WellFormed cfg → pkt.line cfg = target.pkt.line cfg)

theorem line_forwardCopy {target pkt : Packet} (h : forwardCopy target = .ok pkt) :
    pkt.line cfg = target.line cfg := by
  simp only [forwardCopy, except_ite_eq_ok, except_bind_eq_ok, except_pure_eq_ok,
    Packet.setData_eq_ok, Packet.allocate_eq] at h
  rcases h with ⟨_, _, _, _, _, rfl⟩ | ⟨_, rfl⟩
  · rfl
  · rfl

theorem makeBusPacket_regs {target : Target}
    (h : makeBusPacket q i target.pkt s = .ok (pkt, s')) (hready : i ∈ (s.queue q).readyList)
    (htarget : ((s.queue q).registers i).getTarget = .ok target) :
    RegMoves wf G s s' ∧ Offered s' q i { pkt with senderState := [.mshr q i] } := by
  replace h := get_bind_eq_ok.mp h
  obtain ⟨bus, hbus, h⟩ := check_bind_eq_ok.mp h
  obtain ⟨_, s₁, hmod, h⟩ := bind_eq_ok.mp h
  obtain ⟨rfl, hline⟩ : s₁ = s' ∧
      (target.pkt.WellFormed cfg → pkt.line cfg = target.pkt.line cfg) := by
    cases bus with
    | some made =>
      obtain ⟨rfl, rfl⟩ := pure_eq_ok.mp h
      obtain ⟨_, cmd, rfl⟩ := getBusPacket_some hbus
      exact ⟨rfl, fun hwf => line_ofBlock hwf cmd⟩
    | none =>
      obtain ⟨hcopy, rfl⟩ := check_eq_ok.mp h
      exact ⟨rfl, fun _ => line_forwardCopy hcopy⟩
  have hregs : s₁.regs = s.regs.setQueue q ((s.queue q).setReg i
      { (s.queue q).registers i with isForward := bus.isNone }) := by
    rw [← modify_eq_ok.mp hmod]
    exact regs_setQueue s q _
  have hqueue : s₁.queue q = (s.queue q).setReg i
      { (s.queue q).registers i with isForward := bus.isNone } := by
    rw [← queue_regs, hregs, Regs.queue_setQueue]
  refine ⟨.of_step ?_ ?_, ?_, rfl, fun _ => ⟨target, ?_, hline⟩⟩
  · rw [← modify_eq_ok.mp hmod]
    exact suffix_setQueue s q _
  · rw [hregs, ← queue_regs]
    exact .mark
  · rw [hqueue]
    exact hready
  · rw [hqueue, MSHRQueue.registers_setReg, if_pos rfl]
    exact htarget

theorem prefetchSnoop_regs {target : Packet} {above : SnoopAnswer}
    {answered : Bool} (h : prefetchSnoop q i target above s = .ok (answered, s'))
    (hready : i ∈ (s.queue q).readyList) :
    RegMoves wf G s s' ∧ (answered = false → s' = s) := by
  simp only [prefetchSnoop, ite_eq_ok, bind_eq_ok, get_eq_ok, check_eq_ok, pure_eq_ok] at h
  rcases h with ⟨_, _, _, ⟨rfl, rfl⟩, _, _, ⟨_, rfl⟩, ⟨_, _, s₁, hmark, rfl, rfl⟩ | ⟨_, rfl, rfl⟩⟩ |
    ⟨_, rfl, rfl⟩
  · exact ⟨markInService_regs hmark (.inr hready), Bool.noConfusion⟩
  · exact ⟨.refl _, fun _ => rfl⟩
  · exact ⟨.refl _, fun _ => rfl⟩

theorem getTimingPacket_regs {r : Option (QueueIndex × Nat × Packet)}
    (h : getTimingPacket above s = .ok (r, s')) :
    RegMoves wf G s s' ∧ ∀ q i pkt, r = some (q, i, pkt) → Offered s' q i pkt := by
  have hnone : r = none → ∀ q i pkt, r = some (q, i, pkt) → Offered s' q i pkt := by
    intro hr q i pkt heq
    rw [hr] at heq
    cases heq
  rcases getTimingPacket_cases h with ⟨_, hr, rfl⟩ | ⟨q, i, target, hnext, htarget, hcases⟩
  · exact ⟨.refl _, hnone hr⟩
  · have hready := Cache.mem_of_getNextMSHR hnext
    rcases hcases with ⟨_, hr, hresp⟩ | ⟨hfwd, rfl, hr⟩ |
      ⟨_, answered, s₁, hpf, ⟨_, hr, rfl⟩ | ⟨hno, pkt, hbus, hr⟩⟩
    · exact ⟨recvTimingResp_regs hresp rfl rfl (.inr ⟨hready, rfl⟩), hnone hr⟩
    · refine ⟨.refl _, ?_⟩
      intro q' i' pkt' heq
      rw [hr] at heq
      cases heq
      exact ⟨hready, rfl, fun hwaits => absurd (hfwd.symm.trans hwaits) (by simp)⟩
    · exact ⟨(prefetchSnoop_regs hpf hready).1, hnone hr⟩
    · have hpf' : RegMoves wf G s s₁ ∧ (answered = false → s₁ = s) := prefetchSnoop_regs hpf hready
      obtain rfl := hpf'.2 hno
      obtain ⟨hmove, hoffer⟩ := makeBusPacket_regs hbus hready htarget
      refine ⟨hmove, ?_⟩
      intro q' i' pkt' heq
      rw [hr] at heq
      cases heq
      exact hoffer

theorem accepted_regs
    (h : accepted q i pkt s = .ok ((), s')) (hoffer : Offered s q i pkt) : RegMoves wf G s s' := by
  have hlog := (accepted_quiet _ _ _ _ _ _ h).log
  simp only [accepted, bind_eq_ok, get_eq_ok, onStore_eq_ok, StoreM.emit_eq_ok, when_eq_ok,
    modify_eq_ok, Bool.not_eq_true', Bool.not_eq_false'] at h
  obtain ⟨_, _, ⟨rfl, rfl⟩, _, s₁, ⟨t, rfl, rfl⟩, _, s₂, hmark, hout⟩ := h
  obtain ⟨mq, hmark, hregs⟩ := markInService_cases hmark
  have hmark' : (s.regs.queue q).markInService i pkt = .ok mq := by
    rw [queue_regs]
    exact hmark
  have hready : i ∈ (s.regs.queue q).readyList := by
    rw [queue_regs]
    exact hoffer.ready
  refine .of_step hlog ?_
  rcases hout with ⟨hwaits, rfl⟩ | ⟨_, rfl⟩
  · obtain ⟨target, htarget, hline⟩ := hoffer.line hwaits
    have hregs' : Cache.regs { s₂ with outstanding := s₂.outstanding ++ [pkt] } =
        { s.regs.setQueue q mq with outstanding := s.regs.outstanding ++ [pkt] } := by
      have hout : s₂.outstanding = s.regs.outstanding := by
        rw [show s₂.outstanding = s₂.regs.outstanding from rfl, hregs, Regs.outstanding_setQueue]
        rfl
      rw [show Cache.regs { s₂ with outstanding := s₂.outstanding ++ [pkt] } =
        { s₂.regs with outstanding := s₂.outstanding ++ [pkt] } from rfl, hregs, hout]
      rfl
    rw [hregs']
    rw [← queue_regs] at hwaits htarget
    exact .issued hready hmark' hwaits hoffer.state htarget hline
  · rw [hregs]
    exact .serviced (.inr hready) hmark'

theorem issue_regs {bus : BusAnswer}
    (h : issue bus above s = .ok ((), s')) : RegMoves wf G s s' := by
  obtain ⟨r, s₁, hpkt, h⟩ := bind_eq_ok.mp h
  obtain ⟨hmove, hoffer⟩ : RegMoves wf G s s₁ ∧ _ := getTimingPacket_regs hpkt
  refine .trans hmove ?_
  cases r with
  | none => exact Follows.run h (regMoves_modify (fun _ => rfl) fun _ => rfl)
  | some r =>
    obtain ⟨q, i, pkt⟩ := r
    obtain ⟨_, s₂, hmod, h⟩ := bind_eq_ok.mp h
    obtain rfl := modify_eq_ok.mp hmod
    have hstart : RegMoves wf G s₁
        { s₁ with memSide := { s₁.memSide with waitingOnRetry := !bus.accepts } } :=
      .of_same rfl (List.suffix_refl _)
    refine .trans hstart ?_
    rcases when_eq_ok.mp h with ⟨_, haccept⟩ | ⟨_, rfl⟩
    · have hoffer := hoffer q i pkt rfl
      have hready : i ∈ (Cache.queue { s₁ with
          memSide := { s₁.memSide with waitingOnRetry := !bus.accepts } } q).readyList := by
        rw [← queue_regs]
        exact queue_regs s₁ q ▸ hoffer.ready
      exact accepted_regs haccept ⟨hready, hoffer.state, hoffer.line⟩
    · exact .refl _

theorem sendDeferredPacket_regs {bus : BusAnswer}
    (h : sendDeferredPacket bus above s = .ok ((), s')) : RegMoves wf G s s' := by
  simp only [sendDeferredPacket, bind_eq_ok, get_eq_ok, ite_eq_ok] at h
  obtain ⟨_, _, ⟨rfl, rfl⟩, _, s₁, hsend, _, _, ⟨rfl, rfl⟩, hsched⟩ := h
  have hfirst : RegMoves wf G s s₁ := by
    rcases hsend with ⟨_, hqueued⟩ | ⟨_, hissue⟩
    · exact regMoves_of_silent (sendQueued_silent bus) _ _ _ hqueued
    · exact issue_regs hissue
  exact .trans hfirst
    (Follows.run hsched (.when fun _ => regMoves_modify (fun _ => rfl) fun _ => rfl))

theorem timingResp_regs {k : Nat} {reply : Reply}
    (h : timingResp k reply above s = .ok ((), s')) : RegMoves wf G s s' := by
  obtain ⟨pkt, hk, hresp⟩ := timingResp_cases h
  obtain ⟨_, q, i, rest, hstate, _⟩ := recvTimingResp_cases hresp
  exact recvTimingResp_regs hresp hstate rfl (.inl ⟨k, pkt, rest, hk, hstate, rfl⟩)

theorem recvTimingSnoopResp_regs (h : recvTimingSnoopResp pkt above s = .ok ((), s'))
    (hanswers : pkt.senderState.head? = some .forwardResponse) : RegMoves wf G s s' := by
  obtain ⟨_, _, h⟩ := check_bind_eq_ok.mp h
  obtain ⟨_, _, h⟩ := check_bind_eq_ok.mp h
  cases hstate : pkt.senderState with
  | nil =>
    rw [hstate] at hanswers
    exact nomatch hanswers
  | cons top rest =>
    rw [hstate] at hanswers h
    obtain rfl : top = .forwardResponse := by simpa using hanswers
    exact Follows.run h (.bind .get fun _ => regMoves_of_silent (schedTimingSnoopResp_silent _ _))

theorem markDownstream_regs {pending : Bool}
    (h : markDownstream q i pending s = .ok ((), s')) : RegMoves wf G s s' := by
  simp only [markDownstream, bind_eq_ok, get_eq_ok, check_eq_ok, modify_eq_ok] at h
  obtain ⟨_, _, ⟨rfl, rfl⟩, _, _, ⟨_, rfl⟩, hmod⟩ := h
  refine .of_step ?_ ?_
  · rw [← hmod]
    exact suffix_setQueue s q _
  · rw [← hmod, regs_setQueue, ← queue_regs]
    exact .mark

end RegLemmas

end CacheM

/-- What the registers need to know about an input: requests are admitted, and a
response from above answers a snoop that this cache forwarded. -/
def Input.Admitted (cfg : CacheConfig) (wf : Prop) (G : GuestID → Prop) : Input → Prop
  | .timingReq pkt => PardG5V.Admitted cfg wf G pkt
  | .timingSnoopResp pkt _ => pkt.senderState.head? = some .forwardResponse
  | _ => True

open CacheM in
/-- One call from outside is a sequence of register steps, unless time passes. -/
theorem call_regs {input : Input} {s s' : Cache cfg} (h : CacheM.call input s = .ok ((), s'))
    (hin : input.Admitted cfg wf G) :
    RegMoves wf G s s' ∨ ∃ tick, s.curTick ≤ tick ∧ s' = { s with curTick := tick } := by
  cases input with
  | timingReq pkt =>
    obtain ⟨_, _, hreq, hret⟩ := bind_eq_ok.mp h
    obtain ⟨_, rfl⟩ := pure_eq_ok.mp hret
    exact .inl (cpuSideReq_regs hreq hin)
  | timingResp k reply above => exact .inl (timingResp_regs h)
  | timingSnoopReq pkt above =>
    obtain ⟨_, _, hsnoop, hret⟩ := bind_eq_ok.mp h
    obtain ⟨_, rfl⟩ := pure_eq_ok.mp hret
    exact .inl (recvTimingSnoopReq_regs hsnoop)
  | timingSnoopResp pkt above => exact .inl (recvTimingSnoopResp_regs h hin)
  | memSend bus above =>
    simp only [call, memSend, bind_eq_ok, get_eq_ok, check_eq_ok, modify_eq_ok] at h
    obtain ⟨_, _, ⟨rfl, rfl⟩, _, _, ⟨_, rfl⟩, _, _, ⟨_, rfl⟩, _, _, rfl, hsend⟩ := h
    have hstart : RegMoves wf G s { s with memSide := { s.memSide with sendEvent := none } } :=
      .of_same rfl (List.suffix_refl _)
    exact .inl (.trans hstart (sendDeferredPacket_regs hsend))
  | memRetry bus above =>
    simp only [call, memRetry, bind_eq_ok, get_eq_ok, check_eq_ok] at h
    obtain ⟨_, _, ⟨rfl, rfl⟩, _, _, ⟨_, rfl⟩, hsend⟩ := h
    exact .inl (sendDeferredPacket_regs hsend)
  | cpuSend accepts =>
    exact .inl (Follows.run h (.bind .get fun _ => .bind .lift fun _ => .bind .lift fun _ =>
      .bind (regMoves_modify (fun _ => rfl) fun _ => rfl) fun _ =>
        regMoves_of_silent (cpuSendDeferred_silent _)))
  | cpuRetry accepts =>
    exact .inl (Follows.run h (.bind .get fun _ => .bind .lift fun _ =>
      regMoves_of_silent (cpuSendDeferred_silent _)))
  | retryEvent =>
    exact .inl (Follows.run h (.bind .get fun _ => .bind .lift fun _ =>
      regMoves_modify (fun _ => rfl) fun _ => rfl))
  | atomicReq pkt reply =>
    obtain ⟨_, _, hcall, hret⟩ := bind_eq_ok.mp h
    obtain ⟨_, rfl⟩ := pure_eq_ok.mp hret
    have hstays : Stays False (fun _ => True) s _ :=
      recvAtomic_stays hcall trivial trivial (fun hno => hno.elim) fun hno => hno.elim
    exact .inl (.of_same hstays.2 hstays.1.log)
  | atomicSnoop pkt above =>
    exact .inl (Follows.run h (.bind (regMoves_of_stays (recvAtomicSnoop_stays _ _)) fun _ =>
      .pure))
  | memWriteback =>
    exact .inl (Follows.run h (regMoves_of_stays (stays_onStore fun _ _ _ =>
      StoreM.forEachBlk_path StoreM.writebackVisitor_path)))
  | memInvalidate =>
    exact .inl (Follows.run h (regMoves_of_stays (stays_onStore fun _ _ _ =>
      StoreM.forEachBlk_path StoreM.invalidateVisitor_path)))
  | setWaymask ldomID destAddr data | setByTag tag idx mask =>
    replace h := get_bind_eq_ok.mp h
    obtain ⟨tags, _, h⟩ := check_bind_eq_ok.mp h
    obtain rfl := modify_eq_ok.mp h
    exact .inl (.of_same rfl (List.suffix_refl _))
  | downstreamPending q i pending => exact .inl (markDownstream_regs h)
  | advance tick =>
    simp only [call, advance, bind_eq_ok, get_eq_ok, check_eq_ok, modify_eq_ok, assert_eq_ok,
      decide_eq_true_eq] at h
    obtain ⟨_, _, ⟨rfl, rfl⟩, _, _, ⟨hle, rfl⟩, _, _, ⟨_, rfl⟩, rfl⟩ := h
    exact .inr ⟨tick, hle, rfl⟩

end PardG5V
