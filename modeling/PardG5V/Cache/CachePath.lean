import PardG5V.Cache.BlkInv
import PardG5V.Cache.Step

/-!
# The calls of a cache as sequences of small steps

Every call from outside moves the blocks along a path of small steps (`call_moves`). Most of the
functions of a cache never touch a block and only write to the log (`Quiet`); the others are
followed to the functions of the store.
-/

namespace PardG5V

open Prog Relation

variable {cfg : CacheConfig} {wf : Prop} {G : GuestID → Prop} {s s' : Cache cfg} {α : Type}
  {p : BlkPtr cfg.assoc} {m : CacheM cfg α}

def Moves (wf : Prop) (G : GuestID → Prop) (s s' : Cache cfg) : Prop :=
  MicroSteps wf G s.store s'.store

instance : IsPreorder (Cache cfg) (Moves wf G) where
  refl _ := .refl
  trans _ _ _ := ReflTransGen.trans

/-- Only the log changes, by events that record a packet. -/
def Quiet (s s' : Cache cfg) : Prop :=
  ∃ es : List Event, (∀ e ∈ es, e.isPlain = true) ∧
    s'.store = { s.store with log := es ++ s.store.log }

instance : IsPreorder (Cache cfg) Quiet where
  refl _ := ⟨[], by simp, rfl⟩
  trans := by
    rintro s₁ s₂ s₃ ⟨es, hes, heq⟩ ⟨fs, hfs, heq'⟩
    refine ⟨fs ++ es, fun e he => ?_, ?_⟩
    · rcases List.mem_append.mp he with he | he
      · exact hfs e he
      · exact hes e he
    · rw [heq', heq, List.append_assoc]

theorem Quiet.of_store_eq (h : s'.store = s.store) : Quiet s s' := ⟨[], by simp, h⟩

theorem Quiet.moves (h : Quiet s s') : Moves wf G s s' := by
  obtain ⟨es, hes, heq⟩ := h
  unfold Moves
  rw [heq]
  clear heq
  induction es with
  | nil => exact .refl
  | cons e es ih =>
    refine (ih fun e' he' => hes e' (List.mem_cons_of_mem e he')).tail ?_
    exact .plain e (hes e List.mem_cons_self)

theorem moves_of_quiet (h : Follows Quiet m) : Follows (Moves wf G) m :=
  fun s a s' hm => (h s a s' hm).moves

structure Regs where
  mshrQueue : MSHRQueue
  writeBuffer : MSHRQueue
  outstanding : List Packet
  order : Nat
  curTick : Tick

def Cache.regs (s : Cache cfg) : Regs where
  mshrQueue := s.mshrQueue
  writeBuffer := s.writeBuffer
  outstanding := s.outstanding
  order := s.order
  curTick := s.curTick

/-- Only the log changes, and the registers are left alone. -/
abbrev Silent : Cache cfg → Cache cfg → Prop := Along Quiet Cache.regs

/-- The blocks move, and the registers are left alone. -/
abbrev Stays (wf : Prop) (G : GuestID → Prop) : Cache cfg → Cache cfg → Prop :=
  Along (Moves wf G) Cache.regs

theorem stays_of_silent (h : Follows Silent m) : Follows (Stays wf G) m :=
  fun s a s' hm => (h s a s' hm).imp_left Quiet.moves

def ValidLine (s : Store cfg) (p : BlkPtr cfg.assoc) (line : Line) : Prop :=
  (s.blk p).isValid = true → (s.blk p).line cfg (s.setOf p) = line

def KeepsLine (p : BlkPtr cfg.assoc) (s s' : Cache cfg) : Prop :=
  ∀ line, ValidLine s.store p line → ValidLine s'.store p line

instance {p : BlkPtr cfg.assoc} : IsPreorder (Cache cfg) (KeepsLine p) where
  refl _ _ h := h
  trans _ _ _ h₁ h₂ line h := h₂ line (h₁ line h)

theorem Quiet.keepsLine (h : Quiet s s') : KeepsLine p s s' := by
  obtain ⟨es, _, heq⟩ := h
  intro line hline
  rw [heq]
  cases p with
  | way set w | temp => exact hline

theorem Quiet.tags (h : Quiet s s') : s'.store.tags = s.store.tags := by
  obtain ⟨es, _, heq⟩ := h
  rw [heq]

theorem Quiet.clean (h : Quiet s s') (hclean : s.store.Clean) : s'.store.Clean :=
  hclean.steps (h.moves : Moves True (fun _ => True) s s')

theorem keepsLine_of_quiet (h : Follows Quiet m) : Follows (KeepsLine p) m :=
  fun s a s' hm => (h s a s' hm).keepsLine

variable {q : QueueIndex} {initialOffset : Nat}

namespace CacheM

/-! ## Functions that never touch a block -/

section QuietLemmas

variable {α : Type} {f : Cache cfg → Cache cfg} {e : Event}

theorem quiet_modify (h : ∀ s, (f s).store = s.store) :
    Follows Quiet (modify f : CacheM cfg PUnit) :=
  .modify fun s => .of_store_eq (h s)

theorem quiet_check {x : Except Abort α} : Follows Quiet (check x : CacheM cfg α) := .lift

theorem silent_modify (hstore : ∀ s, (f s).store = s.store)
    (hregs : ∀ s, (f s).regs = s.regs) : Follows Silent (modify f : CacheM cfg PUnit) :=
  .modify fun s => ⟨.of_store_eq (hstore s), hregs s⟩

theorem silent_emit (h : e.isPlain = true) :
    Follows Silent (onStore (StoreM.emit e) : CacheM cfg Unit) := by
  intro s u s' hm
  obtain ⟨t, ht, rfl⟩ := onStore_eq_ok.mp hm
  obtain rfl := StoreM.emit_eq_ok.mp ht
  exact ⟨⟨[e], by simpa using h, rfl⟩, rfl⟩

theorem quiet_emit (h : e.isPlain = true) :
    Follows Quiet (onStore (StoreM.emit e) : CacheM cfg Unit) :=
  (silent_emit h).of_along

theorem setQueue_store (s : Cache cfg) (q : QueueIndex) (mq : MSHRQueue) :
    (s.setQueue q mq).store = s.store := by
  cases q with
  | mshrs | writeBuffer => rfl

theorem setQueue_curTick (s : Cache cfg) (q : QueueIndex) (mq : MSHRQueue) :
    (s.setQueue q mq).curTick = s.curTick := by
  cases q with
  | mshrs | writeBuffer => rfl

theorem setBlocked_silent (cause : BlockedCause) :
    Follows Silent (setBlocked cause : CacheM cfg Unit) :=
  .bind .get fun _ => .bind .lift fun _ => silent_modify (fun _ => rfl) fun _ => rfl

theorem clearBlocked_silent (cause : BlockedCause) :
    Follows Silent (clearBlocked cause : CacheM cfg Unit) :=
  .bind .get fun _ => .bind .lift fun _ => silent_modify (fun _ => rfl) fun _ => rfl

theorem requestMemSideBus_silent (time : Tick) :
    Follows Silent (requestMemSideBus time : CacheM cfg Unit) :=
  .bind .get fun _ => .bind .lift fun _ => silent_modify (fun _ => rfl) fun _ => rfl

section

variable (pkt : Packet)

theorem schedTimingResp_silent (tick : Tick) :
    Follows Silent (schedTimingResp pkt tick : CacheM cfg Unit) :=
  .bind .get fun _ => .bind .lift fun _ =>
    .bind (silent_modify (fun _ => rfl) fun _ => rfl) fun _ =>
    silent_emit rfl

theorem schedTimingSnoopResp_silent (tick : Tick) :
    Follows Silent (schedTimingSnoopResp pkt tick : CacheM cfg Unit) :=
  .bind .get fun _ => .bind .lift fun _ =>
    .bind (silent_modify (fun _ => rfl) fun _ => rfl) fun _ =>
    silent_emit rfl

theorem allocateBufferInternal_quiet (q : QueueIndex) (addr : Addr) (size : Nat) (pkt : Packet)
    (time : Tick) : Follows Quiet (allocateBufferInternal q addr size pkt time : CacheM cfg Unit) :=
  .bind .get fun _ => .bind quiet_check fun _ =>
    .bind (quiet_modify fun _ => setQueue_store _ _ _) fun _ =>
      .of_along (.bind (.when fun _ => setBlocked_silent _) fun _ => requestMemSideBus_silent time)

theorem allocateMissBuffer_quiet (time : Tick) :
    Follows Quiet (allocateMissBuffer pkt time : CacheM cfg Unit) :=
  .bind quiet_check fun _ => allocateBufferInternal_quiet _ _ _ _ _

theorem allocateWriteBuffer_quiet (time : Tick) :
    Follows Quiet (allocateWriteBuffer pkt time : CacheM cfg Unit) :=
  .bind quiet_check fun _ => .bind .get fun _ => .bind (quiet_emit rfl) fun _ =>
    allocateBufferInternal_quiet _ _ _ _ _

theorem allocateUncachedReadBuffer_quiet (time : Tick) :
    Follows Quiet (allocateUncachedReadBuffer pkt time : CacheM cfg Unit) :=
  .bind quiet_check fun _ => .bind quiet_check fun _ => allocateBufferInternal_quiet _ _ _ _ _

theorem markInService_quiet (q : QueueIndex) (i : Nat) (pkt : Packet) :
    Follows Quiet (markInService q i pkt : CacheM cfg Unit) :=
  .bind .get fun _ => .bind quiet_check fun _ =>
    .bind (quiet_modify fun _ => setQueue_store _ _ _) fun _ =>
      .when fun _ => (clearBlocked_silent _).of_along

theorem joinMiss_quiet (i : Nat) (pkt : Packet) (time : Tick) :
    Follows Quiet (joinMiss i pkt time : CacheM cfg Unit) :=
  .bind quiet_check fun _ => .bind .get fun _ => .bind quiet_check fun _ =>
    .bind (quiet_modify fun _ => rfl) fun _ => .when fun _ =>
      .bind (quiet_modify fun _ => rfl) fun _ => (setBlocked_silent _).of_along

theorem timingHit_silent (lat : Nat) : Follows Silent (timingHit pkt lat : CacheM cfg Unit) :=
  .when fun _ => .bind .get fun _ => .bind .lift fun _ => schedTimingResp_silent _ _

theorem timingInhibited_silent : Follows Silent (timingInhibited pkt : CacheM cfg Unit) :=
  .bind .lift fun _ => .when fun _ => silent_emit rfl

theorem prefetchSnoop_quiet (q : QueueIndex) (i : Nat) (target : Packet) (above : SnoopAnswer) :
    Follows Quiet (prefetchSnoop q i target above : CacheM cfg Bool) :=
  .ite (fun _ => .bind .get fun _ => .bind quiet_check fun _ =>
      .ite (fun _ => .bind (markInService_quiet _ _ _) fun _ => .pure) fun _ => .pure)
    fun _ => .pure

theorem makeBusPacket_quiet (q : QueueIndex) (i : Nat) (target : Packet) :
    Follows Quiet (makeBusPacket q i target : CacheM cfg Packet) := by
  refine .bind .get fun s => .bind quiet_check fun bus =>
    .bind (quiet_modify fun _ => setQueue_store _ _ _) fun _ => ?_
  cases bus with
  | none => exact quiet_check
  | some pkt => exact .pure

theorem accepted_quiet (q : QueueIndex) (i : Nat) (pkt : Packet) :
    Follows Quiet (accepted q i pkt : CacheM cfg Unit) :=
  .bind .get fun _ => .bind (quiet_emit rfl) fun _ => .bind (markInService_quiet _ _ _) fun _ =>
    .when fun _ => quiet_modify fun _ => rfl

theorem sendQueued_silent (bus : BusAnswer) : Follows Silent (sendQueued bus : CacheM cfg Unit) :=
  .bind .get fun _ => .bind .lift fun _ => silent_modify (fun _ => rfl) fun _ => rfl

theorem snoopWriteBuffer_quiet : Follows Quiet (snoopWriteBuffer pkt : CacheM cfg Packet) := by
  refine .bind .get fun s => ?_
  generalize s.writeBuffer.findMatches pkt.guestID (cfg.blkAlign pkt.addr) pkt.isSecure = found
  cases found with
  | nil => exact .pure
  | cons i rest =>
    exact .bind quiet_check fun _ => .bind quiet_check fun _ => .bind quiet_check fun _ =>
      .bind quiet_check fun _ => .bind quiet_check fun _ => .bind quiet_check fun _ =>
        .bind quiet_check fun _ => .bind (quiet_modify fun _ => rfl) fun _ =>
          .bind quiet_check fun _ => .bind quiet_check fun _ =>
            .bind (schedTimingSnoopResp_silent _ _).of_along fun _ =>
              .bind (.when fun _ => markInService_quiet _ _ _) fun _ => .pure

theorem releaseTargets_silent (q : QueueIndex) (i : Nat) :
    Follows Silent (releaseTargets q i : CacheM cfg Unit) :=
  .bind .get fun _ => .when fun _ => .bind (clearBlocked_silent _) fun _ =>
    silent_modify (fun _ => rfl) fun _ => rfl

theorem cpuSendDeferred_silent (accepts : Bool) :
    Follows Silent (cpuSendDeferred accepts : CacheM cfg Unit) :=
  .bind .get fun _ => .bind .lift fun _ => silent_modify (fun _ => rfl) fun _ => rfl

theorem atomicFinish_silent (writebacks : List Packet) :
    Follows Silent (atomicFinish pkt writebacks : CacheM cfg Packet) :=
  .bind (.forEach fun _ _ => silent_emit rfl) fun _ => .bind .lift fun _ =>
    .bind (silent_emit rfl) fun _ => .pure

end

end QuietLemmas

/-! ## Functions that change blocks -/

section MovesLemmas

variable {α : Type} {s s' : Cache cfg}

theorem stays_onStore {m : StoreM cfg α} (h : ∀ t a t', m t = .ok (a, t') → MicroSteps wf G t t') :
    Follows (Stays wf G) (onStore m) := by
  intro s a s' hm
  obtain ⟨t, ht, rfl⟩ := onStore_eq_ok.mp hm
  exact ⟨h s.store a t ht, rfl⟩

theorem validBlk_eq_some {blk : Option (BlkPtr cfg.assoc)} {p : BlkPtr cfg.assoc}
    (h : validBlk s blk = some p) : blk = some p ∧ (s.store.blk p).isValid = true := by
  cases blk with
  | none => exact absurd h (by simp [validBlk])
  | some q =>
    cases hq : (s.store.blk q).isValid with
    | false => simp [validBlk, hq] at h
    | true =>
      have hqp : q = p := by simpa [validBlk, hq] using h
      subst hqp
      exact ⟨rfl, hq⟩

section

variable (pkt : Packet)

theorem startMiss_moves (hit : Option (Fin cfg.assoc)) (time : Tick) :
    Follows (Moves wf G) (startMiss pkt hit time) := by
  refine .bind .lift fun _ => .ite (fun _ => (moves_of_quiet (allocateWriteBuffer_quiet _ _)))
    fun _ => ?_
  intro s u s' h
  simp only [bind_eq_ok, get_eq_ok] at h
  obtain ⟨_, _, ⟨rfl, rfl⟩, h⟩ := h
  cases hv : validBlk s (hit.map (BlkPtr.way (cfg.extractSet pkt.addr))) with
  | none =>
    rw [hv] at h
    exact (allocateMissBuffer_quiet _ _ _ _ _ h).moves
  | some p =>
    rw [hv] at h
    simp only [bind_eq_ok, check_eq_ok, onStore_eq_ok, StoreM.changeBlk_eq_ok] at h
    obtain ⟨_, _, ⟨_, rfl⟩, _, _, ⟨t, rfl, rfl⟩, hmiss⟩ := h
    have hhide : MicroSteps wf G s.store
        (s.store.changed .other p (s.store.blk p).clearReadable none) := .single (.change .hide)
    exact hhide.trans (allocateMissBuffer_quiet _ _ _ _ _ hmiss).moves

theorem timingMiss_moves (hit : Option (Fin cfg.assoc)) (time : Tick) :
    Follows (Moves wf G) (timingMiss pkt hit time) := by
  refine .bind .get fun s => ?_
  generalize s.mshrQueue.findMatch _ _ _ = found
  cases found with
  | some i => exact (moves_of_quiet (joinMiss_quiet _ _ _))
  | none => exact startMiss_moves _ _ _

theorem timingCacheable_moves {pkt : Packet} (time : Tick) (hG : G pkt.guestID)
    (hunshared : wf → pkt.needsExclusive = true → pkt.shared = false) :
    Follows (Moves wf G) (timingCacheable pkt time : CacheM cfg Unit) :=
  .bind .get fun _ =>
    .bind (stays_onStore fun _ _ _ h => StoreM.access_path h hG hunshared).of_along fun _ =>
      .ite
        (fun _ => .bind (moves_of_quiet (timingHit_silent _ _).of_along) fun _ =>
          .forEach fun _ _ => (moves_of_quiet (allocateWriteBuffer_quiet _ _)))
        fun _ => .bind (timingMiss_moves _ _ _) fun _ =>
          .forEach fun _ _ => (moves_of_quiet (allocateWriteBuffer_quiet _ _))

theorem timingUncacheable_moves (time : Tick) :
    Follows (Moves wf G) (timingUncacheable pkt time : CacheM cfg Unit) :=
  .bind (stays_onStore fun _ _ _ h => StoreM.uncacheableFlush_path h).of_along fun _ =>
    .ite
      (fun _ => .bind (moves_of_quiet (allocateWriteBuffer_quiet _ _)) fun _ => .lift)
      fun _ => .bind (moves_of_quiet (allocateUncachedReadBuffer_quiet _ _)) fun _ => .lift

theorem cpuSideReq_moves {pkt : Packet} (hG : G pkt.guestID)
    (hunshared : wf → pkt.needsExclusive = true → pkt.shared = false) :
    Follows (Moves wf G) (cpuSideReq pkt : CacheM cfg Bool) :=
  .bind .get fun _ =>
    .ite (fun _ => .bind .lift fun _ =>
        .bind (moves_of_quiet (quiet_modify fun _ => rfl)) fun _ => .pure)
      fun _ => .bind
        (.bind .get fun _ => .bind .lift fun _ =>
          .ite (fun _ => (moves_of_quiet (quiet_emit rfl))) fun _ =>
            .ite (fun _ => (moves_of_quiet (timingInhibited_silent _).of_along)) fun _ =>
              .ite (fun _ => timingUncacheable_moves _ _) fun _ =>
                timingCacheable_moves _ hG hunshared)
        fun _ => .pure

theorem snoopBlk_stays {fwd : Packet} {blk : Option (BlkPtr cfg.assoc)}
    {isTiming isDeferred pendingInval : Bool} {reply : Tick → Packet → CacheM cfg Unit}
    (hreply : ∀ now r, Follows (Stays wf G) (reply now r)) :
    Follows (Stays wf G) (snoopBlk fwd pkt blk isTiming isDeferred pendingInval reply) := by
  intro s r s' h
  replace h := get_bind_eq_ok.mp h
  cases hv : validBlk s blk with
  | none =>
    rw [hv] at h
    exact Follows.run h .pure
  | some p =>
    rw [hv] at h
    obtain ⟨⟨left, response⟩, s₁, hstore, hrest⟩ := bind_eq_ok.mp h
    obtain ⟨t, hhit, rfl⟩ := onStore_eq_ok.mp hstore
    have hpath : Stays wf G s { s with store := t } :=
      ⟨StoreM.snoopHit_path hhit (validBlk_eq_some hv).2, rfl⟩
    refine trans_of (Stays wf G) hpath ?_
    cases response with
    | none => exact Follows.run hrest .pure
    | some answer => exact Follows.run hrest (.bind (hreply _ _) fun _ => .pure)

theorem handleTimingSnoop_stays (blk : Option (BlkPtr cfg.assoc))
    (isDeferred pendingInval : Bool) (above : SnoopAnswer) :
    Follows (Stays wf G) (handleTimingSnoop pkt blk isDeferred pendingInval above) :=
  .bind .lift fun _ => .bind .lift fun _ => snoopBlk_stays _ fun _ _ =>
    stays_of_silent (schedTimingSnoopResp_silent _ _)

theorem handleAtomicSnoop_stays (blk : Option (BlkPtr cfg.assoc))
    (above : AtomicAnswer) : Follows (Stays wf G) (handleAtomicSnoop pkt blk above) :=
  .bind .lift fun _ => .bind .lift fun _ => snoopBlk_stays _ fun _ _ =>
    stays_of_silent (silent_emit rfl)

theorem recvTimingSnoopReq_moves (above : SnoopAnswer) :
    Follows (Moves wf G) (recvTimingSnoopReq pkt above : CacheM cfg Packet) := by
  refine .ite (fun _ => .pure) fun _ => .bind .lift fun _ => .ite (fun _ => ?_) fun _ => .pure
  refine .bind .get fun s => ?_
  have hsnoop : ∀ pkt blk, Follows (Moves wf G) (snoopWriteBuffer pkt >>= fun left =>
      handleTimingSnoop left blk false false above : CacheM cfg Packet) :=
    fun pkt blk => .bind (moves_of_quiet (snoopWriteBuffer_quiet pkt)) fun _ =>
      (handleTimingSnoop_stays _ _ _ _ _).of_along
  generalize s.mshrQueue.findMatch _ _ _ = found
  cases found with
  | none => exact hsnoop _ _
  | some i =>
    exact .bind (moves_of_quiet (quiet_modify fun _ => rfl)) fun _ =>
      .ite (fun _ => .pure) fun _ => hsnoop _ _

theorem recvAtomicSnoop_stays (above : AtomicAnswer) :
    Follows (Stays wf G) (recvAtomicSnoop pkt above : CacheM cfg Packet) :=
  .bind .lift fun _ => .ite (fun _ => .pure) fun _ => .ite (fun _ => .pure) fun _ =>
    .bind .get fun _ => handleAtomicSnoop_stays _ _ _

theorem atomicInhibited_stays : Follows (Stays wf G) (atomicInhibited pkt : CacheM cfg Unit) := by
  refine .bind .lift fun _ => .when fun _ => ?_
  intro s u s' h
  obtain ⟨_, s₁, hout, hemit⟩ := bind_eq_ok.mp (get_bind_eq_ok.mp h)
  refine trans_of (Stays wf G) ?_ (Follows.run hemit (stays_of_silent (silent_emit rfl)))
  cases hv : validBlk s _ with
  | none =>
    rw [hv] at hout
    exact Follows.run hout .pure
  | some p =>
    rw [hv] at hout
    obtain ⟨t, ht, rfl⟩ := onStore_eq_ok.mp hout
    exact ⟨.single (.takeOut .inhibited ht), rfl⟩

end

end MovesLemmas

/-! ## Responses -/

section ResponseLemmas

variable {s s' : Cache cfg} {p : BlkPtr cfg.assoc} {site : Site} {handed : Option Packet}
  {line : Line} {m m' : MSHR} {i : Nat} {hit : Option (BlkPtr cfg.assoc)} {wbs : List Packet}

theorem validLine_changed {t : Store cfg} {after : CacheBlk} (h : (t.blk p).Kept after)
    (hline : ValidLine t p line) :
    ValidLine (t.changed site p after handed) p line := by
  intro hvalid
  rw [blk_changed_self] at hvalid ⊢
  rw [Store.setOf_changed, h.line]
  exact hline (h.valid ▸ hvalid)

theorem validLine_takeOut {t t' : Store cfg} {blk : CacheBlk}
    (h : StoreM.takeOut site p blk handed t = .ok ((), t')) : ValidLine t' p line := by
  obtain ⟨tags, blk', _, _, rfl, _⟩ := takeOut_cases h
  intro hvalid
  rw [blk_changed_self] at hvalid
  exact Bool.noConfusion hvalid

theorem satisfyCpuSideRequest_keepsLine (target : Packet) (deferred downgrade : Bool) :
    Follows (KeepsLine p)
      (onStore (StoreM.satisfyCpuSideRequest target p deferred downgrade)) := by
  intro s r s' h line hline
  obtain ⟨t, ht, rfl⟩ := onStore_eq_ok.mp h
  obtain ⟨served, hserve, _, ⟨_, hout⟩ | ⟨_, rfl⟩⟩ := StoreM.satisfyCpuSideRequest_cases ht
  · exact validLine_takeOut hout
  · exact validLine_changed (CacheBlk.serve_spec hserve).kept hline

theorem snoopHit_keepsLine (pkt : Packet)
    (invalidate needsExclusive isTiming isDeferred pendingInval : Bool) :
    Follows (KeepsLine p) (onStore (StoreM.snoopHit pkt p invalidate needsExclusive isTiming
      isDeferred pendingInval)) := by
  intro s r s' h line hline
  obtain ⟨t, ht, rfl⟩ := onStore_eq_ok.mp h
  obtain ⟨snooped, hsnoop, _, ⟨_, hout⟩ | ⟨_, rfl⟩⟩ := StoreM.snoopHit_cases ht
  · exact validLine_takeOut hout
  · exact validLine_changed (CacheBlk.snoop_spec hsnoop).kept hline

theorem handleTimingSnoop_keepsLine (pkt : Packet) (isDeferred pendingInval : Bool)
    (above : SnoopAnswer) :
    Follows (KeepsLine p) (handleTimingSnoop pkt (some p) isDeferred pendingInval above) := by
  refine .bind .lift fun _ => .bind .lift fun fwd => .bind .get fun s => ?_
  cases hv : validBlk s (some p) with
  | none => exact .pure
  | some q =>
    obtain rfl := Option.some.inj (validBlk_eq_some hv).1
    refine .bind (snoopHit_keepsLine _ _ _ _ _ _) fun r => ?_
    obtain ⟨left, response⟩ := r
    cases response with
    | none => exact .pure
    | some answer =>
      exact .bind (keepsLine_of_quiet (schedTimingSnoopResp_silent _ _).of_along) fun _ => .pure

theorem markPrefetched_keepsLine :
    Follows (KeepsLine p) (markPrefetched (some p)) := by
  intro s u s' h line hline
  simp only [markPrefetched, bind_eq_ok, get_eq_ok, onStore_eq_ok, StoreM.changeBlk_eq_ok] at h
  obtain ⟨_, _, ⟨rfl, rfl⟩, t, rfl, rfl⟩ := h
  exact validLine_changed ⟨rfl, rfl, rfl, rfl⟩ hline

theorem answerTarget_keepsLine (m : MSHR) (pkt : Packet) (isFill : Bool) (initialOffset : Nat)
    (target : Packet) :
    Follows (KeepsLine p) (answerTarget m pkt isFill (some p) initialOffset target) :=
  .ite
    (fun _ => .bind .lift fun _ => .bind (satisfyCpuSideRequest_keepsLine _ _ _) fun _ =>
      .bind .lift fun _ => .bind .lift fun _ => .pure)
    fun _ => .ite (fun _ => .bind .lift fun _ => .pure) fun _ =>
      .ite (fun _ => .bind .lift fun _ => .bind .lift fun _ => .pure) fun _ => .pure

theorem completeTarget_keepsLine (m : MSHR) (pkt : Packet) (isFill : Bool) (initialOffset : Nat)
    (above : SnoopAnswer) (t : Target) :
    Follows (KeepsLine p) (completeTarget m pkt isFill (some p) initialOffset above t) := by
  unfold completeTarget
  cases t.source with
  | fromCPU =>
    exact .bind (answerTarget_keepsLine _ _ _ _ _) fun _ => .bind .lift fun _ =>
      .bind .lift fun _ =>
      .bind .get fun _ => keepsLine_of_quiet (schedTimingResp_silent _ _).of_along
  | fromPrefetcher => exact .bind .lift fun _ => markPrefetched_keepsLine
  | fromSnoop =>
    exact .bind .lift fun _ => .bind .lift fun _ => .bind .lift fun _ =>
      .bind (handleTimingSnoop_keepsLine _ _ _ _) fun _ => .pure

theorem markPrefetched_stays (blk : Option (BlkPtr cfg.assoc)) :
    Follows (Stays wf G) (markPrefetched blk) := by
  cases blk with
  | none => exact .pure
  | some p =>
    intro s u s' h
    simp only [markPrefetched, bind_eq_ok, get_eq_ok, onStore_eq_ok, StoreM.changeBlk_eq_ok] at h
    obtain ⟨_, _, ⟨rfl, rfl⟩, t, rfl, rfl⟩ := h
    exact ⟨.single (.change .prefetched), rfl⟩

/-- What is known about the targets of a response that fills a block: they are for
the line of the response. -/
def TargetsFit (cfg : CacheConfig) (pkt : Packet) (ts : List Target) : Prop :=
  ∀ t ∈ ts, t.source = .fromCPU → t.pkt.line cfg = pkt.line cfg ∧
    (t.pkt.needsExclusive = true → t.pkt.shared = false)

variable {pkt : Packet} {blk : Option (BlkPtr cfg.assoc)} {isFill : Bool}

theorem answerTarget_stays {target : Packet} {r : Packet × Nat}
    (h : answerTarget m pkt isFill blk initialOffset target s = .ok (r, s'))
    (hfits : wf → isFill = true → ∀ p, blk = some p → (s.store.blk p).isValid = true →
      Fits s.store p target) : Stays wf G s s' := by
  unfold answerTarget at h
  split at h
  · next hfill =>
    obtain ⟨_, _, h⟩ := check_bind_eq_ok.mp h
    cases blk with
    | none => exact absurd (check_eq_ok.mp h).1 (by simp)
    | some p =>
      simp only [bind_eq_ok, onStore_eq_ok, check_eq_ok, pure_eq_ok] at h
      obtain ⟨_, _, ⟨t, hserve, rfl⟩, _, _, ⟨_, rfl⟩, _, _, ⟨_, rfl⟩, _, rfl⟩ := h
      exact ⟨StoreM.satisfyCpuSideRequest_path hserve fun hwf => hfits hwf hfill p rfl, rfl⟩
  · refine Follows.ite (fun _ => .bind .lift fun _ => .pure) (fun _ =>
      .ite (fun _ => .bind .lift fun _ => .bind .lift fun _ => .pure) fun _ => .pure) _ _ _ h

theorem completeTarget_stays {above : SnoopAnswer} {t : Target}
    (h : completeTarget m pkt isFill blk initialOffset above t s = .ok ((), s'))
    (hfits : wf → isFill = true → t.source = .fromCPU → ∀ p, blk = some p →
      (s.store.blk p).isValid = true → Fits s.store p t.pkt) : Stays wf G s s' := by
  unfold completeTarget at h
  cases hsource : t.source with
  | fromCPU =>
    rw [hsource] at h
    obtain ⟨r, s₁, hanswer, hrest⟩ := bind_eq_ok.mp h
    refine trans_of (Stays wf G) (answerTarget_stays hanswer fun hwf hfill =>
      hfits hwf hfill hsource) ?_
    refine Follows.bind .lift (fun _ => .bind .lift fun _ => .bind .get fun _ =>
      stays_of_silent (schedTimingResp_silent _ _)) _ _ _ hrest
  | fromPrefetcher =>
    rw [hsource] at h
    exact Follows.bind .lift (fun _ => markPrefetched_stays blk) _ _ _ h
  | fromSnoop =>
    rw [hsource] at h
    exact Follows.bind .lift (fun _ => .bind .lift fun _ => .bind .lift fun _ =>
      .bind (handleTimingSnoop_stays _ _ _ _ _) fun _ => .pure) _ _ _ h

variable {above : Nat → SnoopAnswer}

/-- The target loop. While the block is valid it stands for the line of the
response, so that each target is served by the block of its own line. -/
theorem completeTargets_stays : ∀ {ts : List Target} {s s' : Cache cfg},
      completeTargets m pkt isFill blk initialOffset above ts s = .ok ((), s') →
      (wf → isFill = true → TargetsFit cfg pkt ts) →
      (wf → isFill = true → ∀ p, blk = some p → ValidLine s.store p (pkt.line cfg)) →
      Stays wf G s s'
  | [], s, s', h, _, _ => Follows.run h .pure
  | t :: ts, s, s', h, htargets, hline => by
    obtain ⟨_, s₁, hfirst, hrest⟩ := bind_eq_ok.mp h
    have hmove : Stays wf G s s₁ := by
      refine completeTarget_stays hfirst fun hwf hfill hsource p hp hvalid => ?_
      obtain ⟨htarget, hunshared⟩ := htargets hwf hfill t List.mem_cons_self hsource
      exact ⟨(hline hwf hfill p hp hvalid).trans htarget.symm, hunshared⟩
    refine trans_of (Stays wf G) hmove (completeTargets_stays hrest ?_ ?_)
    · exact fun hwf hfill t' ht' => htargets hwf hfill t' (List.mem_cons_of_mem t ht')
    · rintro hwf hfill p rfl
      exact completeTarget_keepsLine _ _ _ _ _ _ _ _ _ hfirst _ (hline hwf hfill p rfl)

theorem settleBlk_stays (m : MSHR) (pkt : Packet) (blk : Option (BlkPtr cfg.assoc)) :
    Follows (Stays wf G) (settleBlk m pkt blk) := by
  intro s u s' h
  replace h := get_bind_eq_ok.mp h
  cases hv : validBlk s blk with
  | none =>
    rw [hv] at h
    exact Follows.run h .pure
  | some p =>
    rw [hv] at h
    simp only [bind_eq_ok, check_eq_ok, ite_eq_ok, when_eq_ok, onStore_eq_ok,
      StoreM.changeBlk_eq_ok] at h
    obtain ⟨_, _, ⟨_, rfl⟩, ⟨_, _, _, ⟨_, rfl⟩, t, hout, rfl⟩ |
      ⟨_, _, _, ⟨_, rfl⟩, ⟨_, t, rfl, rfl⟩ | ⟨_, rfl⟩⟩⟩ := h
    · exact ⟨.single (.takeOut .response hout), rfl⟩
    · exact ⟨.single (.change .downgrade), rfl⟩
    · exact refl_of (Stays wf G) _

theorem hideBlk_stays (blk : Option (BlkPtr cfg.assoc)) :
    Follows (Stays wf G) (hideBlk blk) := by
  cases blk with
  | none => exact .pure
  | some p =>
    intro s u s' h
    simp only [hideBlk, bind_eq_ok, get_eq_ok, onStore_eq_ok, StoreM.changeBlk_eq_ok] at h
    obtain ⟨_, _, ⟨rfl, rfl⟩, t, rfl, rfl⟩ := h
    exact ⟨.single (.change .hide), rfl⟩

theorem retireMSHR_moves (q : QueueIndex) (i : Nat) (pkt : Packet)
    (blk : Option (BlkPtr cfg.assoc)) (wasFull : Bool) :
    Follows (Moves wf G) (retireMSHR q i pkt blk wasFull) := by
  refine .bind .get fun s => .bind .lift fun promoted => ?_
  cases promoted with
  | some m' =>
    exact .bind (hideBlk_stays blk).of_along fun _ => .bind .lift fun _ =>
      .bind (moves_of_quiet (quiet_modify fun _ => setQueue_store _ _ _)) fun _ =>
        moves_of_quiet (requestMemSideBus_silent _).of_along
  | none =>
    exact .bind .lift fun _ =>
      .bind (moves_of_quiet (quiet_modify fun _ => setQueue_store _ _ _)) fun _ =>
        .when fun _ => moves_of_quiet (clearBlocked_silent _).of_along

theorem dropTempBlock_moves (blk : Option (BlkPtr cfg.assoc)) (time : Tick) :
    Follows (Moves wf G) (dropTempBlock blk time) := by
  refine .when fun _ => ?_
  intro s u s' h
  simp only [bind_eq_ok, get_eq_ok, when_eq_ok, onStore_eq_ok, StoreM.changeBlk_eq_ok] at h
  obtain ⟨_, _, ⟨rfl, rfl⟩, _, s₁, hwrite, _, _, ⟨rfl, rfl⟩, t, rfl, rfl⟩ := h
  have hclean : Moves wf G s s₁ ∧ s₁.store.tempBlock.isDirty = false := by
    rcases hwrite with ⟨_, wb, _, ⟨t, hwb, rfl⟩, halloc⟩ | ⟨hclean, rfl⟩
    · have hquiet := allocateWriteBuffer_quiet _ _ _ _ _ halloc
      refine ⟨(StoreM.writebackBlk_path hwb).trans hquiet.moves, ?_⟩
      obtain ⟨es, _, heq⟩ := hquiet
      obtain ⟨_, rfl, _⟩ := StoreM.writebackBlk_eq_ok.mp hwb
      rw [heq]
      rfl
    · exact ⟨.refl, hclean⟩
  exact hclean.1.tail (.change (.dropTemp rfl fun _ => hclean.2))

theorem fillResponse_cases {blk : Option (BlkPtr cfg.assoc)}
    (h : fillResponse q i m pkt hit isFill s = .ok ((m', blk, wbs), s')) :
    (isFill = true ∧ pkt.isError = false ∧ ∃ p t, m.handleFill pkt = .ok m' ∧ blk = some p ∧
        StoreM.handleFill (s.setQueue q ((s.queue q).setReg i m')).mshrQueue pkt hit s.curTick
          s.store = .ok ((p, wbs), t) ∧
        s' = { s.setQueue q ((s.queue q).setReg i m') with store := t }) ∨
      (isFill = false ∨ pkt.isError = true) ∧ m' = m ∧ blk = hit ∧ wbs = [] ∧ s' = s := by
  simp only [fillResponse, ite_eq_ok, bind_eq_ok, check_eq_ok, modify_eq_ok, get_eq_ok,
    onStore_eq_ok, pure_eq_ok, Prod.mk.injEq, Bool.and_eq_true, Bool.not_eq_true'] at h
  rcases h with ⟨⟨hfill, herr⟩, _, _, ⟨hm, rfl⟩, _, _, rfl, _, _, ⟨rfl, rfl⟩, ⟨p, wbs'⟩, _,
    ⟨t, ht, rfl⟩, ⟨rfl, rfl, rfl⟩, rfl⟩ | ⟨hno, ⟨rfl, rfl, rfl⟩, rfl⟩
  · rw [setQueue_store, setQueue_curTick] at ht
    exact .inl ⟨hfill, herr, p, t, hm, rfl, ht, rfl⟩
  · refine .inr ⟨?_, rfl, rfl, rfl, rfl⟩
    cases isFill with
    | false => exact .inl rfl
    | true => exact .inr (by simpa using hno)

theorem handleFill_targets (h : m.handleFill pkt = .ok m') :
    m'.targets.targets = m.targets.targets ∨
      m'.targets.targets = m.targets.targets ++ m.deferredTargets.targets := by
  simp only [MSHR.handleFill, except_ite_eq_ok, except_bind_eq_ok, except_pure_eq_ok,
    Except.ok.injEq] at h
  rcases h with ⟨_, rfl⟩ | ⟨_, _, _, _, _, ⟨_, _, _, _, _, rfl⟩ | ⟨_, rfl⟩⟩
  · exact .inl rfl
  · exact .inr rfl
  · exact .inl rfl

theorem fillResponse_moves {blk : Option (BlkPtr cfg.assoc)}
    (h : fillResponse q i m pkt hit isFill s = .ok ((m', blk, wbs), s'))
    (hhit : wf → StoreM.HitOf s.store pkt hit) (hG : isFill = true → G pkt.guestID)
    (hfills : isFill = true → pkt.isRead = true ∨ pkt.cmd = .UpgradeResp)
    (hclean : wf → s.store.Clean) :
    Moves wf G s s' ∧ (wf → ∀ p, blk = some p → ValidLine s'.store p (pkt.line cfg)) := by
  rcases fillResponse_cases h with ⟨hfill, _, p, t, _, rfl, ht, rfl⟩ | ⟨_, _, rfl, _, rfl⟩
  · refine ⟨StoreM.handleFill_path ht (hfills hfill) hhit (hG hfill), ?_⟩
    intro hwf p' hp' _
    obtain rfl := Option.some.inj hp'
    exact (handleFill_holds ht (hhit hwf) (hclean hwf)).2
  · refine ⟨.refl, ?_⟩
    rintro hwf p rfl _
    obtain ⟨w, rfl, hfind⟩ := (hhit hwf).some
    exact (holds_of_findBlock hfind).2

theorem finishMSHR_moves (q : QueueIndex) (i : Nat) (m : MSHR) (pkt : Packet)
    (blk : Option (BlkPtr cfg.assoc)) (writebacks : List Packet) (wasFull : Bool) (time : Tick) :
    Follows (Moves wf G) (finishMSHR q i m pkt blk writebacks wasFull time) :=
  .bind (moves_of_quiet (quiet_modify fun _ => setQueue_store _ _ _)) fun _ =>
    .bind (settleBlk_stays _ _ _).of_along fun _ => .bind (retireMSHR_moves _ _ _ _ _) fun _ =>
      .bind (.forEach fun _ _ => moves_of_quiet (allocateWriteBuffer_quiet _ _)) fun _ =>
        dropTempBlock_moves _ _

theorem completeMSHR_cases (h : completeMSHR q i pkt above s = .ok ((), s')) :
    ∃ first m blk wbs s₁ s₂ s₃, releaseTargets q i s = .ok ((), s₁) ∧
      ((s.queue q).registers i).getTarget = .ok first ∧
      fillResponse q i ((s.queue q).registers i) pkt
        ((s.store.tags.findBlock pkt.guestID pkt.addr pkt.isSecure).map
          (BlkPtr.way (cfg.extractSet pkt.addr)))
        (fillsBlock ((s.queue q).registers i) pkt) s₁ = .ok ((m, blk, wbs), s₂) ∧
      completeTargets m pkt (fillsBlock ((s.queue q).registers i) pkt) blk
        (cfg.extractBlkOffset first.pkt.addr) above m.targets.targets s₂ = .ok ((), s₃) ∧
      finishMSHR q i m pkt blk wbs (s.queue q).isFull (cfg.clockEdge s.curTick cfg.hitLatency) s₃
        = .ok ((), s') := by
  simp only [completeMSHR, bind_eq_ok, get_eq_ok, check_eq_ok] at h
  obtain ⟨_, _, ⟨rfl, rfl⟩, _, s₁, hrelease, first, _, ⟨hfirst, rfl⟩, _, _, ⟨_, rfl⟩,
    ⟨m, blk, wbs⟩, s₂, hfill, _, s₃, hloop, hfinish⟩ := h
  exact ⟨first, m, blk, wbs, s₁, s₂, s₃, hrelease, hfirst, hfill, hloop, hfinish⟩

/-- A response moves the blocks along small steps, if its targets are for its line. -/
theorem completeMSHR_moves (h : completeMSHR q i pkt above s = .ok ((), s'))
    (hG : fillsBlock ((s.queue q).registers i) pkt = true → G pkt.guestID)
    (hclean : wf → s.store.Clean)
    (htargets : wf → fillsBlock ((s.queue q).registers i) pkt = true →
      TargetsFit cfg pkt (((s.queue q).registers i).targets.targets ++
        ((s.queue q).registers i).deferredTargets.targets)) : Moves wf G s s' := by
  obtain ⟨first, m, blk, wbs, s₁, s₂, s₃, hrelease, _, hfill, hloop, hfinish⟩ :=
    completeMSHR_cases h
  have hquiet : Quiet s s₁ := (releaseTargets_silent q i _ _ _ hrelease).1
  obtain ⟨hmove, hline⟩ : Moves wf G s₁ s₂ ∧
      (wf → ∀ p, blk = some p → ValidLine s₂.store p (pkt.line cfg)) := by
    refine fillResponse_moves hfill (fun _ => ?_) hG ?_ fun hwf => hquiet.clean (hclean hwf)
    · unfold StoreM.HitOf
      rw [hquiet.tags]
    · intro hfills
      simp only [fillsBlock, Bool.and_eq_true, Bool.or_eq_true, beq_iff_eq] at hfills
      exact hfills.2
  have htargets' : wf → fillsBlock ((s.queue q).registers i) pkt = true →
      TargetsFit cfg pkt m.targets.targets := by
    intro hwf hfills t ht hsource
    refine htargets hwf hfills t ?_ hsource
    rcases fillResponse_cases hfill with ⟨_, _, p, t', hm, _, _, _⟩ | ⟨_, rfl, _⟩
    · rcases handleFill_targets hm with heq | heq
      · exact List.mem_append_left _ (heq ▸ ht)
      · exact heq ▸ ht
    · exact List.mem_append_left _ ht
  have hloop' : Moves wf G s₂ s₃ :=
    (completeTargets_stays hloop htargets' fun hwf _ => hline hwf).1
  have hfinish' : Moves wf G s₃ s' := finishMSHR_moves _ _ _ _ _ _ _ _ _ _ _ hfinish
  exact trans_of (Moves wf G) hquiet.moves
    (trans_of (Moves wf G) hmove (trans_of (Moves wf G) hloop' hfinish'))

end ResponseLemmas

section CallLemmas

variable {s s' : Cache cfg}

/-- What has to be known about a response: the guest, if it brings a block in, and
that the targets of its register are for its line. -/
def RespFits (wf : Prop) (G : GuestID → Prop) (s : Cache cfg) (pkt : Packet) : Prop :=
  ∀ q i rest, pkt.senderState = .mshr q i :: rest →
    fillsBlock ((s.queue q).registers i) pkt = true → G pkt.guestID ∧
      (wf → TargetsFit cfg pkt (((s.queue q).registers i).targets.targets ++
        ((s.queue q).registers i).deferredTargets.targets))

variable {above : Nat → SnoopAnswer} {pkt : Packet} {reply : Reply}

theorem recvTimingResp_cases (h : recvTimingResp pkt above s = .ok ((), s')) :
    pkt.isResponse = true ∧ ∃ q i rest, pkt.senderState = .mshr q i :: rest ∧
      completeMSHR q i pkt above s = .ok ((), s') := by
  obtain ⟨_, hresp, h⟩ := check_bind_eq_ok.mp h
  refine ⟨assert_eq_ok.mp hresp, ?_⟩
  have hbad : ∀ {s s' : Cache cfg}, ¬ check (.error .assertion) s = .ok ((), s') :=
    fun h => absurd (check_eq_ok.mp h).1 (by simp)
  cases hstate : pkt.senderState with
  | nil =>
    rw [hstate] at h
    exact absurd h hbad
  | cons top rest =>
    rw [hstate] at h
    cases top with
    | mshr q i => exact ⟨q, i, rest, rfl, h⟩
    | addrMapper _ | forwardResponse | other _ => exact absurd h hbad

theorem recvTimingResp_moves
    (h : recvTimingResp pkt above s = .ok ((), s')) (hclean : wf → s.store.Clean)
    (hfits : RespFits wf G s pkt) : Moves wf G s s' := by
  obtain ⟨_, q, i, rest, hstate, hcomplete⟩ := recvTimingResp_cases h
  exact completeMSHR_moves hcomplete (fun hfills => (hfits q i rest hstate hfills).1) hclean
    fun hwf hfills => (hfits q i rest hstate hfills).2 hwf

theorem getTimingPacket_cases {r : Option (QueueIndex × Nat × Packet)}
    (h : getTimingPacket above s = .ok (r, s')) :
    (s.getNextMSHR = none ∧ r = none ∧ s' = s) ∨
      ∃ q i target, s.getNextMSHR = some (q, i) ∧
        ((s.queue q).registers i).getTarget = .ok target ∧
        ((target.pkt.cmd = .SCUpgradeFailReq ∨ target.pkt.cmd = .StoreCondFailReq) ∧ r = none ∧
            recvTimingResp { target.pkt.copy false with
              cmd := .UpgradeFailResp, senderState := [.mshr q i]
              busFirstWordDelay := 0, busLastWordDelay := 0 } above s = .ok ((), s') ∨
          ((s.queue q).registers i).isForwardNoResponse = true ∧ s' = s ∧
            r = some (q, i, { target.pkt with senderState := [.mshr q i] }) ∨
          ((s.queue q).registers i).isForwardNoResponse = false ∧
            ∃ answered s₁, prefetchSnoop q i target.pkt (above 0) s = .ok (answered, s₁) ∧
              (answered = true ∧ r = none ∧ s' = s₁ ∨ answered = false ∧
                ∃ pkt, makeBusPacket q i target.pkt s₁ = .ok (pkt, s') ∧
                  r = some (q, i, { pkt with senderState := [.mshr q i] }))) := by
  replace h := get_bind_eq_ok.mp h
  cases hnext : s.getNextMSHR with
  | none =>
    rw [hnext] at h
    obtain ⟨rfl, rfl⟩ := pure_eq_ok.mp h
    exact .inl ⟨rfl, rfl, rfl⟩
  | some qi =>
    obtain ⟨q, i⟩ := qi
    rw [hnext] at h
    simp only [bind_eq_ok, check_eq_ok, ite_eq_ok, pure_eq_ok] at h
    obtain ⟨target, _, ⟨htarget, rfl⟩, h⟩ := h
    refine .inr ⟨q, i, target, rfl, htarget, ?_⟩
    rcases h with ⟨hfail, _, _, hresp, rfl, rfl⟩ | ⟨_, ⟨hfwd, _, _, ⟨_, rfl⟩, rfl, rfl⟩ |
      ⟨hfwd, answered, s₁, hpf, ⟨hyes, rfl, rfl⟩ | ⟨hno, pkt, _, hbus, rfl, rfl⟩⟩⟩
    · exact .inl ⟨hfail, rfl, hresp⟩
    · exact .inr (.inl ⟨hfwd, rfl, rfl⟩)
    · exact .inr (.inr ⟨Bool.eq_false_iff.mpr hfwd, answered, _, hpf, .inl ⟨hyes, rfl, rfl⟩⟩)
    · exact .inr (.inr ⟨Bool.eq_false_iff.mpr hfwd, answered, s₁, hpf,
        .inr ⟨Bool.eq_false_iff.mpr hno, pkt, hbus, rfl⟩⟩)

theorem respFits_upgradeFail (hcmd : pkt.cmd = .UpgradeFailResp) : RespFits wf G s pkt := by
  intro q i rest _ hfills
  simp only [fillsBlock, Packet.isRead, hcmd, Bool.and_eq_true] at hfills
  exact absurd hfills.2 (by decide)

theorem getTimingPacket_moves
    {r : Option (QueueIndex × Nat × Packet)} (h : getTimingPacket above s = .ok (r, s'))
    (hclean : wf → s.store.Clean) : Moves wf G s s' := by
  rcases getTimingPacket_cases h with ⟨_, _, rfl⟩ | ⟨q, i, target, _, _, ⟨_, _, hresp⟩ |
    ⟨_, rfl, _⟩ | ⟨_, answered, s₁, hpf, ⟨_, _, rfl⟩ | ⟨_, pkt, hbus, _⟩⟩⟩
  · exact .refl
  · exact recvTimingResp_moves hresp hclean (respFits_upgradeFail rfl)
  · exact .refl
  · exact (prefetchSnoop_quiet _ _ _ _ _ _ _ hpf).moves
  · exact trans_of (Moves wf G) (prefetchSnoop_quiet _ _ _ _ _ _ _ hpf).moves
      (makeBusPacket_quiet _ _ _ _ _ _ hbus).moves

theorem issue_moves {bus : BusAnswer}
    (h : issue bus above s = .ok ((), s')) (hclean : wf → s.store.Clean) : Moves wf G s s' := by
  obtain ⟨r, s₁, hpkt, h⟩ := bind_eq_ok.mp h
  refine trans_of (Moves wf G) (getTimingPacket_moves hpkt hclean) ?_
  cases r with
  | none => exact Follows.run h (moves_of_quiet (quiet_modify fun _ => rfl))
  | some r =>
    obtain ⟨q, i, pkt⟩ := r
    exact Follows.run h (.bind (moves_of_quiet (quiet_modify fun _ => rfl)) fun _ =>
      .when fun _ => moves_of_quiet (accepted_quiet _ _ _))

theorem sendDeferredPacket_moves {bus : BusAnswer}
    (h : sendDeferredPacket bus above s = .ok ((), s')) (hclean : wf → s.store.Clean) :
    Moves wf G s s' := by
  simp only [sendDeferredPacket, bind_eq_ok, get_eq_ok, ite_eq_ok] at h
  obtain ⟨_, _, ⟨rfl, rfl⟩, _, s₁, hsend, _, _, ⟨rfl, rfl⟩, hsched⟩ := h
  have hfirst : Moves wf G s s₁ := by
    rcases hsend with ⟨_, hqueued⟩ | ⟨_, hissue⟩
    · exact (sendQueued_silent bus _ _ _ hqueued).1.moves
    · exact issue_moves hissue hclean
  exact trans_of (Moves wf G) hfirst
    (Follows.run hsched (.when fun _ => moves_of_quiet (quiet_modify fun _ => rfl)))

theorem recvTimingSnoopResp_moves
    (h : recvTimingSnoopResp pkt above s = .ok ((), s')) (hclean : wf → s.store.Clean)
    (hfits : pkt.senderState.head? = some .forwardResponse ∨ RespFits wf G s pkt) :
    Moves wf G s s' := by
  simp only [recvTimingSnoopResp, bind_eq_ok, check_eq_ok] at h
  obtain ⟨_, _, ⟨_, rfl⟩, _, _, ⟨_, rfl⟩, h⟩ := h
  have hother : RespFits wf G s pkt → (do
      check (assert (pkt.cmd == .HardPFResp))
      recvTimingResp pkt above : CacheM cfg Unit) s = .ok ((), s') → Moves wf G s s' := by
    intro hfits h
    obtain ⟨_, _, h⟩ := check_bind_eq_ok.mp h
    exact recvTimingResp_moves h hclean hfits
  cases hstate : pkt.senderState with
  | nil =>
    rw [hstate] at h
    exact hother (hfits.resolve_left (by simp [hstate])) h
  | cons top rest =>
    rw [hstate] at h
    cases top with
    | forwardResponse =>
      exact Follows.run h (.bind .get fun _ =>
        moves_of_quiet (schedTimingSnoopResp_silent _ _).of_along)
    | mshr q i | addrMapper _ | other _ => exact hother (hfits.resolve_left (by simp [hstate])) h

theorem getBusPacket_some {cpuPkt : Packet} {blk : Option CacheBlk} {needsExclusive : Bool}
    {bus : Packet} (h : getBusPacket cfg cpuPkt blk needsExclusive = .ok (some bus)) :
    cpuPkt.req.uncacheable = false ∧
      ∃ cmd, bus = (Packet.ofBlock cpuPkt.req cmd cfg.blkSize).allocate := by
  simp only [getBusPacket, except_ite_eq_ok, except_bind_eq_ok, except_pure_eq_ok,
    Except.ok.injEq, reduceCtorEq, and_false, false_or, Option.some.injEq, Bool.not_eq_true] at h
  obtain ⟨hunc, _, _, _, _, _, rfl⟩ := h
  exact ⟨hunc, _, rfl⟩

/-- The request for the block of a well-formed packet is for the packet's line. -/
theorem line_ofBlock (hwf : pkt.WellFormed cfg) (cmd : MemCmd) :
    (Packet.ofBlock pkt.req cmd cfg.blkSize).allocate.line cfg = pkt.line cfg := by
  rw [Packet.allocate_eq]
  unfold Packet.line
  rw [hwf.addr, hwf.guest, hwf.secure]
  exact congrArg (Line.mk _ · _) (cfg.blkAlign_blkAlign pkt.req.paddr)

/-- Packets for one line find one block. -/
theorem hitOf_congr {t : Store cfg} {pkt' : Packet} {hit : Option (Fin cfg.assoc)}
    (hline : pkt'.line cfg = pkt.line cfg)
    (hhit : t.tags.findBlock pkt.guestID pkt.addr pkt.isSecure = hit) :
    StoreM.HitOf t pkt' (hit.map (BlkPtr.way (cfg.extractSet pkt.addr))) := by
  obtain ⟨hguest, haddr, hsecure⟩ := Line.mk.inj hline
  obtain ⟨htag, hset⟩ := (cfg.extract_eq_iff pkt'.addr pkt.addr).mpr haddr
  unfold StoreM.HitOf
  rw [← hhit, LRU.findBlock, LRU.findBlock, hguest, htag, hset, hsecure]

theorem atomicReply_stays {bus : Packet} {hit : Option (BlkPtr cfg.assoc)}
    {r : Packet × List Packet} (h : atomicReply pkt bus hit s = .ok (r, s'))
    (hG : G bus.guestID) (hclean : wf → s.store.Clean)
    (hhit : wf → StoreM.HitOf s.store bus hit) (hline : wf → bus.line cfg = pkt.line cfg)
    (hunshared : wf → pkt.needsExclusive = true → pkt.shared = false) : Stays wf G s s' := by
  simp only [atomicReply, ite_eq_ok, bind_eq_ok, check_eq_ok, get_eq_ok, onStore_eq_ok,
    pure_eq_ok] at h
  rcases h with ⟨_, _, _, ⟨_, rfl⟩, ⟨_, _, _, ⟨_, rfl⟩, _, rfl⟩ | ⟨_, ⟨hfills, _, _, ⟨rfl, rfl⟩,
    ⟨p, wbs⟩, _, ⟨t, hfill, rfl⟩, answered, _, ⟨t', hserve, rfl⟩, _, rfl⟩ |
    ⟨_, _, _, ⟨_, rfl⟩, _, rfl⟩⟩⟩ | ⟨_, _, rfl⟩
  · exact refl_of (Stays wf G) _
  · have hfills' : bus.isRead = true ∨ bus.cmd = .UpgradeResp := by
      simpa [Bool.or_eq_true] using hfills
    refine ⟨(StoreM.handleFill_path hfill hfills' hhit hG).trans
      (StoreM.satisfyCpuSideRequest_path hserve fun hwf _ => ⟨?_, hunshared hwf⟩), rfl⟩
    exact (handleFill_holds hfill (hhit hwf) (hclean hwf)).2.trans (hline hwf)
  · exact refl_of (Stays wf G) _
  · exact refl_of (Stays wf G) _

theorem atomicMiss_stays {hit : Option (Fin cfg.assoc)}
    {r : Packet × List Packet} (h : atomicMiss pkt hit reply s = .ok (r, s'))
    (hG : G (qosTagToGuestID pkt.req.qosTag)) (hclean : wf → s.store.Clean)
    (hwf : wf → pkt.WellFormed cfg)
    (hhit : pkt.req.uncacheable = true ∨
      s.store.tags.findBlock pkt.guestID pkt.addr pkt.isSecure = hit) : Stays wf G s s' := by
  simp only [atomicMiss, bind_eq_ok, get_eq_ok, check_eq_ok] at h
  obtain ⟨_, _, ⟨rfl, rfl⟩, bus, _, ⟨hbus, rfl⟩, h⟩ := h
  cases bus with
  | none => exact Follows.run h (.bind (stays_of_silent (silent_emit rfl)) fun _ => .pure)
  | some bus =>
    obtain ⟨_, s₁, hemit, h⟩ := bind_eq_ok.mp h
    obtain ⟨hquiet, hregs⟩ : Silent s s₁ := silent_emit rfl _ _ _ hemit
    obtain ⟨hcacheable, cmd, rfl⟩ := getBusPacket_some hbus
    have hhit' := hhit.resolve_left (by simp [hcacheable])
    have hline : wf → (reply.apply (Packet.ofBlock pkt.req cmd cfg.blkSize).allocate).line cfg =
        pkt.line cfg := fun hw => line_ofBlock (hwf hw) cmd
    refine trans_of (Stays wf G) ⟨hquiet.moves, hregs⟩ (atomicReply_stays h ?_
      (fun hw => hquiet.clean (hclean hw)) (fun hw => hitOf_congr (hline hw) ?_) hline
      fun hw => (hwf hw).unshared)
    · rw [Packet.allocate_eq]
      exact hG
    · rw [hquiet.tags]
      exact hhit'

theorem recvAtomic_stays {r : Packet}
    (h : recvAtomic pkt reply s = .ok (r, s')) (hG : G pkt.guestID)
    (hG' : G (qosTagToGuestID pkt.req.qosTag)) (hclean : wf → s.store.Clean)
    (hwf : wf → pkt.WellFormed cfg) : Stays wf G s s' := by
  unfold recvAtomic at h
  split at h
  · exact Follows.run h (.bind (stays_of_silent (silent_emit rfl)) fun _ => .pure)
  · split at h
    · exact Follows.run h (.bind (atomicInhibited_stays pkt) fun _ => .pure)
    · simp only [bind_eq_ok, get_eq_ok, onStore_eq_ok, ite_eq_ok] at h
      obtain ⟨_, _, ⟨rfl, rfl⟩, acc, _, ⟨t, haccess, rfl⟩, hrest⟩ := h
      have hpath : Stays wf G s { s with store := t } :=
        ⟨StoreM.access_path haccess hG fun hw => (hwf hw).unshared, rfl⟩
      refine trans_of (Stays wf G) hpath ?_
      rcases hrest with ⟨_, hfinish⟩ | ⟨hmiss, ⟨answered, wbs⟩, s₁, hatomic, hfinish⟩
      · exact (Follows.run hfinish (stays_of_silent (atomicFinish_silent _ _)))
      · obtain ⟨hpkt, hhit⟩ := StoreM.access_unsatisfied haccess (Bool.eq_false_iff.mpr hmiss)
        rw [hpkt] at hatomic
        refine trans_of (Stays wf G) (atomicMiss_stays hatomic hG' (fun hw => ?_) hwf hhit)
          (Follows.run hfinish (stays_of_silent (atomicFinish_silent _ _)))
        exact (hclean hw).steps (StoreM.access_path (G := fun _ => True) haccess trivial fun hw =>
          (hwf hw).unshared)

theorem reprogram_moves (set : LRU cfg → Except Abort (LRU cfg))
    (hset : ∀ tags tags', set tags = .ok tags' → tags' = { tags with waymasks := tags'.waymasks }) :
    Follows (Moves wf G) (reprogram set) := by
  intro s u s' h
  simp only [reprogram, bind_eq_ok, get_eq_ok, check_eq_ok, modify_eq_ok] at h
  obtain ⟨_, _, ⟨rfl, rfl⟩, tags, _, ⟨htags, rfl⟩, rfl⟩ := h
  unfold Moves
  rw [hset _ _ htags]
  exact .single (.program tags.waymasks)

theorem timingResp_cases {k : Nat} (h : timingResp k reply above s = .ok ((), s')) :
    ∃ pkt, s.outstanding[k]? = some pkt ∧
      recvTimingResp (reply.apply pkt) above { s with outstanding := s.outstanding.eraseIdx k }
        = .ok ((), s') := by
  replace h := get_bind_eq_ok.mp h
  cases hk : s.outstanding[k]? with
  | none =>
    rw [hk] at h
    exact absurd (check_eq_ok.mp h).1 (by simp)
  | some pkt =>
    rw [hk] at h
    obtain ⟨_, _, hmod, h⟩ := bind_eq_ok.mp h
    obtain rfl := modify_eq_ok.mp hmod
    exact ⟨pkt, rfl, h⟩

end CallLemmas

end CacheM

/-- The packets of an input are for guests that satisfy `G` and well formed where `wf` asks for it.
A response from above answers a forwarded snoop. -/
def Input.Fits (cfg : CacheConfig) (wf : Prop) (G : GuestID → Prop) : Input → Prop
  | .timingReq pkt => G pkt.guestID ∧ (wf → pkt.WellFormed cfg)
  | .atomicReq pkt _ =>
    G pkt.guestID ∧ G (qosTagToGuestID pkt.req.qosTag) ∧ (wf → pkt.WellFormed cfg)
  | .timingSnoopResp pkt _ =>
    pkt.senderState.head? = some .forwardResponse ∨ ¬ wf ∧ G pkt.guestID
  | _ => True

instance [Decidable wf] [DecidablePred G] : DecidablePred (Input.Fits cfg wf G) := fun input => by
  cases input <;> unfold Input.Fits <;> infer_instance

open CacheM in
/-- One call from outside is a sequence of small steps of the blocks. -/
theorem call_moves {input : Input} (h : CacheM.call input s = .ok ((), s'))
    (hin : input.Fits cfg wf G) (hclean : wf → s.store.Clean)
    (hresp : ∀ pkt ∈ s.outstanding, ∀ reply : Reply, RespFits wf G s (reply.apply pkt)) :
    Moves wf G s s' := by
  cases input with
  | timingReq pkt =>
    exact Follows.run h (.bind (cpuSideReq_moves hin.1 fun hw => (hin.2 hw).unshared) fun _ =>
      .pure)
  | timingResp k reply above =>
    obtain ⟨pkt, hk, hcall⟩ := timingResp_cases h
    have hmove : Moves wf G { s with outstanding := s.outstanding.eraseIdx k } s' :=
      recvTimingResp_moves hcall hclean (hresp pkt (List.mem_of_getElem? hk) reply)
    exact hmove
  | timingSnoopReq pkt above =>
    exact Follows.run h (.bind (recvTimingSnoopReq_moves pkt above) fun _ => .pure)
  | timingSnoopResp pkt above =>
    refine recvTimingSnoopResp_moves h hclean (hin.imp_right fun hno => ?_)
    exact fun _ _ _ _ _ => ⟨hno.2, fun hw => absurd hw hno.1⟩
  | memSend bus above =>
    simp only [call, memSend, bind_eq_ok, get_eq_ok, check_eq_ok, modify_eq_ok] at h
    obtain ⟨_, _, ⟨rfl, rfl⟩, _, _, ⟨_, rfl⟩, _, _, ⟨_, rfl⟩, _, _, rfl, hsend⟩ := h
    have hmove : Moves wf G _ s' := sendDeferredPacket_moves hsend hclean
    exact hmove
  | memRetry bus above =>
    simp only [call, memRetry, bind_eq_ok, get_eq_ok, check_eq_ok] at h
    obtain ⟨_, _, ⟨rfl, rfl⟩, _, _, ⟨_, rfl⟩, hsend⟩ := h
    exact sendDeferredPacket_moves hsend hclean
  | cpuSend accepts =>
    exact Follows.run h (.bind .get fun _ => .bind .lift fun _ => .bind .lift fun _ =>
      .bind (moves_of_quiet (quiet_modify fun _ => rfl)) fun _ =>
        moves_of_quiet (cpuSendDeferred_silent _).of_along)
  | cpuRetry accepts =>
    exact Follows.run h (.bind .get fun _ => .bind .lift fun _ =>
      moves_of_quiet (cpuSendDeferred_silent _).of_along)
  | retryEvent =>
    exact Follows.run h (.bind .get fun _ => .bind .lift fun _ =>
      moves_of_quiet (quiet_modify fun _ => rfl))
  | atomicReq pkt reply =>
    obtain ⟨_, _, hcall, hret⟩ := bind_eq_ok.mp h
    obtain ⟨_, rfl⟩ := pure_eq_ok.mp hret
    exact (recvAtomic_stays hcall hin.1 hin.2.1 hclean hin.2.2).1
  | atomicSnoop pkt above =>
    exact Follows.run h (.bind (recvAtomicSnoop_stays pkt above).of_along fun _ => .pure)
  | memWriteback =>
    exact Follows.run h (stays_onStore fun _ _ _ =>
      StoreM.forEachBlk_path StoreM.writebackVisitor_path).of_along
  | memInvalidate =>
    exact Follows.run h (stays_onStore fun _ _ _ =>
      StoreM.forEachBlk_path StoreM.invalidateVisitor_path).of_along
  | setWaymask ldomID destAddr data =>
    refine Follows.run h (reprogram_moves (·.set ldomID destAddr data) fun tags tags' hset => ?_)
    rcases except_ite_eq_ok.mp hset with ⟨_, hset⟩ | ⟨_, hset⟩
    · exact LRU.setWaymask_spec hset
    · rw [← Except.ok.inj hset]
  | setByTag tag idx mask =>
    refine Follows.run h (reprogram_moves (·.setByTag tag idx mask) fun tags tags' hset => ?_)
    rcases except_ite_eq_ok.mp hset with ⟨_, hset⟩ | ⟨_, hset⟩
    · exact LRU.setWaymask_spec hset
    · rw [← Except.ok.inj hset]
  | downstreamPending q i pending =>
    exact Follows.run h (.bind .get fun _ => .bind .lift fun _ =>
      moves_of_quiet (quiet_modify fun _ => setQueue_store _ _ _))
  | advance tick =>
    exact Follows.run h (.bind .get fun _ => .bind .lift fun _ => .bind .lift fun _ =>
      moves_of_quiet (quiet_modify fun _ => rfl))

/-- Every run is a sequence of small steps of the blocks. -/
theorem Cache.Reachable.path {P : Input → Prop} (h : Cache.Reachable P s) :
    ∃ waymasks, MicroSteps False (fun _ => True) (Store.initial cfg waymasks) s.store := by
  refine h.induct (I := fun s => ∃ waymasks, MicroSteps _ _ (Store.initial cfg waymasks) s.store)
    (fun waymasks => ⟨waymasks, .refl⟩) fun s input s' _ ih _ hcall => ?_
  obtain ⟨waymasks, ih⟩ := ih
  refine ⟨waymasks, ih.trans (call_moves hcall ?_ False.elim fun _ _ _ _ _ _ _ _ =>
    ⟨trivial, False.elim⟩)⟩
  cases input with
  | timingReq pkt => exact ⟨trivial, False.elim⟩
  | atomicReq pkt reply => exact ⟨trivial, trivial, False.elim⟩
  | timingSnoopResp pkt above => exact .inr ⟨id, trivial⟩
  | _ => trivial

end PardG5V
