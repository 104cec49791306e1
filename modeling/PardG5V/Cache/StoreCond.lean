import PardG5V.Cache.Handover
import PardG5V.Cache.RunInv
import PardG5V.Lib.Aborts

/-!
# Failed store conditionals

A store conditional whose copy of the block is lost fails: its register is completed by an
`UpgradeFailResp`, from below or from `getTimingPacket`. `recvTimingResp` then asserts that every
target from the CPU side is a store conditional, and asks for flags that only a register in
service has.

Results: `failed_upgrade_completes_store_conds`, `read_behind_failed_store_cond`.
-/

namespace PardG5V

open Prog CacheM Relation

/-- The assertions on the kind of a target and on the in-service flag. -/
def Abort.OnTarget (e : Abort) : Prop := e = .targetKind ∨ e = .notInService

variable {cfg : CacheConfig}

variable {m : MSHR} {offset : Nat}

namespace StoreCondLemmas

variable {pkt : Packet}

theorem avoids_assert {c : Bool} : Avoids Abort.OnTarget (assert c) := by
  cases c with
  | false => exact .error (by rintro (h | h) <;> cases h)
  | true => exact .ok

theorem avoids_assertion {α : Type} : Avoids Abort.OnTarget (.error .assertion : Except Abort α) :=
  .error (by rintro (h | h) <;> cases h)

/-! ### Packets and queues -/

theorem avoids_makeResponse (pkt : Packet) : Avoids Abort.OnTarget pkt.makeResponse :=
  avoids_assert.bind fun _ _ => avoids_assert.bind fun _ _ => .ok

theorem avoids_setData (pkt : Packet) (bytes : List Byte) :
    Avoids Abort.OnTarget (pkt.setData bytes) := by
  refine .bind ?_ fun _ _ => .ok
  unfold Packet.getPtr
  split
  · exact .ok
  · exact avoids_assertion

theorem avoids_schedSendEvent (q : PacketQueue) (tick : Tick) :
    Avoids Abort.OnTarget (q.schedSendEvent tick) := by
  refine .ite (fun _ => avoids_assert.bind fun _ _ => .ok) fun _ => ?_
  split <;> exact .ok

theorem avoids_schedSendTiming (q : PacketQueue) (now : Tick) (pkt : Packet) (tick : Tick)
    (asSnoop : Bool) : Avoids Abort.OnTarget (q.schedSendTiming now pkt tick asSnoop) := by
  refine avoids_assert.bind fun _ _ => avoids_assert.bind fun _ _ => .ite
    (fun _ => .error (by rintro (h | h) <;> cases h)) fun _ => ?_
  unfold PacketQueue.enqueue
  split
  · exact avoids_schedSendEvent _ _
  · exact .ite (fun _ => avoids_schedSendEvent _ _) fun _ => .ite (fun _ => .ok) fun _ => .ok

theorem safe_schedTimingResp (pkt : Packet) (tick : Tick) :
    Safe Abort.OnTarget (schedTimingResp pkt tick : CacheM cfg Unit) :=
  .bind .get fun _ => .bind (.lift (avoids_schedSendTiming _ _ _ _ _)) fun _ =>
    .bind .modify fun _ => .zoom .modify

theorem safe_schedTimingSnoopResp (pkt : Packet) (tick : Tick) :
    Safe Abort.OnTarget (schedTimingSnoopResp pkt tick : CacheM cfg Unit) :=
  .bind .get fun _ => .bind (.lift (avoids_schedSendTiming _ _ _ _ _)) fun _ =>
    .bind .modify fun _ => .zoom .modify

theorem safe_clearBlocked (cause : BlockedCause) :
    Safe Abort.OnTarget (clearBlocked cause : CacheM cfg Unit) := by
  refine .bind .get fun s => .bind (.lift (.ite (fun _ => ?_) fun _ => .ok)) fun _ => .modify
  exact avoids_assert.bind fun _ _ => .ok

theorem safe_requestMemSideBus (time : Tick) :
    Safe Abort.OnTarget (requestMemSideBus time : CacheM cfg Unit) :=
  .bind .get fun _ => .bind (.lift (avoids_schedSendEvent _ _)) fun _ => .modify

/-! ### Snoops -/

theorem avoids_supplyResponse (pkt : Packet) (bytes : List Byte) (copied inval : Bool) :
    Avoids Abort.OnTarget (CacheBlk.supplyResponse cfg pkt bytes copied inval) :=
  avoids_assert.bind fun _ _ => (avoids_makeResponse _).bind fun _ _ =>
    .bind (.ite (fun _ => avoids_setData _ _) fun _ => .ok) fun _ _ => .ok

theorem avoids_snoop (blk : CacheBlk) (pkt : Packet)
    (invalidate needsExclusive isTiming isDeferred pendingInval : Bool) : Avoids Abort.OnTarget
      (blk.snoop cfg pkt invalidate needsExclusive isTiming isDeferred pendingInval) := by
  refine .bind ?_ fun _ _ => .bind (.ite (fun _ => ?_) fun _ => .ok) fun _ _ => .ok
  · exact .ite (fun _ => avoids_assert.bind fun _ _ => .ok) fun _ => .ok
  · exact avoids_assert.bind fun _ _ => .ite
      (fun _ => (avoids_supplyResponse _ _ _ _).bind fun _ _ => .ok)
      fun _ => (avoids_makeResponse _).bind fun _ _ => (avoids_setData _ _).bind fun _ _ => .ok

theorem safe_takeOut (site : Site) (p : BlkPtr cfg.assoc) (blk : CacheBlk)
    (handed : Option Packet) : Safe Abort.OnTarget (StoreM.takeOut site p blk handed) := by
  cases p with
  | temp => exact .modify
  | way set w =>
    exact .bind .get fun _ =>
      .bind (.lift (avoids_assert.bind fun _ _ => avoids_assert.bind fun _ _ => .ok)) fun _ =>
        .bind .modify fun _ => .modify

theorem safe_handleTimingSnoop (pkt : Packet) (blk : Option (BlkPtr cfg.assoc))
    (isDeferred pendingInval : Bool) (above : SnoopAnswer) :
    Safe Abort.OnTarget (handleTimingSnoop pkt blk isDeferred pendingInval above) := by
  refine .bind (.lift (avoids_assert.bind fun _ _ => avoids_assert.bind fun _ _ => avoids_assert))
    fun _ => .bind (.lift (.ite (fun _ => avoids_assert.bind fun _ _ => .ok) fun _ => .ok))
      fun fwd => .bind .get fun s => ?_
  generalize validBlk s blk = found
  cases found with
  | none => exact .pure
  | some p =>
    refine .bind (.zoom (.bind .get fun _ => .bind (.lift (avoids_snoop _ _ _ _ _ _ _)) fun _ =>
      .ite (fun _ => .bind (safe_takeOut _ _ _ _) fun _ => .pure)
        fun _ => .bind .modify fun _ => .pure)) fun r => ?_
    obtain ⟨left, response⟩ := r
    cases response with
    | none => exact .pure
    | some resp => exact .bind (safe_schedTimingSnoopResp _ _) fun _ => .pure

/-! ### Targets -/

theorem avoids_hasPost (h : m.inService = true) :
    Avoids Abort.OnTarget m.hasPostInvalidate ∧ Avoids Abort.OnTarget m.hasPostDowngrade := by
  unfold MSHR.hasPostInvalidate MSHR.hasPostDowngrade
  rw [h]
  exact ⟨.ok, .ok⟩

theorem responseCommand_storeCond {cmd : MemCmd} (h : isStoreCondKind cmd = true) :
    cmd.responseCommand ≠ .ReadResp := by
  revert h
  cases cmd <;> decide

theorem isError_upgradeFail (hcmd : pkt.cmd = .UpgradeFailResp) :
    pkt.isError = false ∧ pkt.isInvalidate = false ∧ pkt.isRead = false := by
  unfold Packet.isError Packet.isInvalidate Packet.isRead
  rw [hcmd]
  exact ⟨rfl, rfl, rfl⟩

/-- A response to a store conditional is not one that asks for the flags of the
register. -/
theorem avoids_respondCmd {target resp : Packet}
    (hcmd : pkt.cmd = .UpgradeFailResp) (hkind : isStoreCondKind target.cmd = true)
    (hresp : target.makeResponse = .ok resp) : Avoids Abort.OnTarget (respondCmd m pkt resp) := by
  have hne : resp.cmd ≠ .ReadResp := by
    obtain ⟨_, _, rfl⟩ := Packet.makeResponse_eq_ok.mp hresp
    exact responseCommand_storeCond hkind
  unfold respondCmd
  rw [(isError_upgradeFail hcmd).1]
  rw [if_neg Bool.false_ne_true, if_neg hne]
  exact .ok

variable {blk : Option (BlkPtr cfg.assoc)}

theorem safe_completeTarget {above : SnoopAnswer} {t : Target} (hcmd : pkt.cmd = .UpgradeFailResp)
    (hkind : t.source = .fromCPU → isStoreCondKind t.pkt.cmd = true)
    (hserviced : m.inService = true ∨ t.source ≠ .fromSnoop) :
    Safe Abort.OnTarget (completeTarget m pkt false blk offset above t) := by
  intro s
  unfold completeTarget
  cases hsource : t.source with
  | fromCPU =>
    have hanswer : (answerTarget m pkt false blk offset t.pkt : CacheM cfg _)
        = (do check (assertOr .targetKind (isStoreCondKind t.pkt.cmd))
              return (t.pkt.setExtraData 0, pkt.busLastWordDelay)) := by
      unfold answerTarget
      rw [if_neg Bool.false_ne_true, if_pos hcmd]
    rw [hanswer, hkind hsource]
    refine Avoids.run_bind .ok fun r s₁ hr => ?_
    obtain ⟨rfl, rfl⟩ : (t.pkt.setExtraData 0, pkt.busLastWordDelay) = r ∧ s = s₁ := by
      simpa [assertOr, and_comm] using hr
    refine Avoids.run_bind (Safe.lift (avoids_makeResponse _) s) fun resp s₁ hresp => ?_
    obtain ⟨hmake, rfl⟩ := check_eq_ok.mp hresp
    have hkind' : isStoreCondKind (t.pkt.setExtraData 0).cmd = true := hkind hsource
    refine Avoids.run_bind (Safe.lift (avoids_respondCmd hcmd hkind' hmake) s) fun _ s₁ _ => ?_
    exact Safe.bind .get (fun _ => safe_schedTimingResp _ _) s₁
  | fromPrefetcher =>
    refine Safe.bind (.lift avoids_assert) (fun _ => ?_) s
    cases blk with
    | none => exact .pure
    | some p => exact .bind .get fun _ => .zoom .modify
  | fromSnoop =>
    have hbusy := avoids_hasPost (hserviced.resolve_right fun hno => hno hsource)
    exact Safe.bind (.lift avoids_assert) (fun _ => .bind (.lift hbusy.1) fun _ =>
      .bind (.lift avoids_assert) fun _ => .bind (safe_handleTimingSnoop _ _ _ _ _)
        fun _ => .pure) s

theorem safe_completeTargets {above : Nat → SnoopAnswer} {ts : List Target}
    (hcmd : pkt.cmd = .UpgradeFailResp)
    (hkinds : ∀ t ∈ ts, t.source = .fromCPU → isStoreCondKind t.pkt.cmd = true)
    (hserviced : m.inService = true ∨ ∀ t ∈ ts, t.source ≠ .fromSnoop) :
    Safe Abort.OnTarget (completeTargets m pkt false blk offset above ts) := by
  induction ts with
  | nil => exact .pure
  | cons t ts ih =>
    refine .bind (safe_completeTarget hcmd (hkinds t List.mem_cons_self)
      (hserviced.imp_right fun h => h t List.mem_cons_self)) fun _ => ?_
    exact ih (fun t' ht' => hkinds t' (List.mem_cons_of_mem t ht'))
      (hserviced.imp_right fun h t' ht' => h t' (List.mem_cons_of_mem t ht'))

/-! ### The end of the register -/

theorem avoids_settleBlk (h : m.inService = true ∨ blk = none) :
    Safe Abort.OnTarget (settleBlk m pkt blk) := by
  refine .bind .get fun s => ?_
  rcases h with hbusy | rfl
  · generalize validBlk s blk = found
    cases found with
    | none => exact .pure
    | some p =>
      obtain ⟨hinval, hdowngrade⟩ := avoids_hasPost hbusy
      exact .bind (.lift (.ite (fun _ => .ok) fun _ => hinval)) fun _ => .ite
        (fun _ => .bind (.lift avoids_assert) fun _ => .zoom (safe_takeOut _ _ _ _))
        fun _ => .bind (.lift hdowngrade) fun _ => .when (.zoom .modify)
  · exact .pure

theorem avoids_promote (m : MSHR) (now : Tick) :
    Avoids Abort.OnTarget (m.promoteDeferredTargets now) :=
  avoids_assert.bind fun _ _ => .ok

theorem avoids_retireMSHR {q : QueueIndex} {i : Nat} {wasFull : Bool} {s : Cache cfg}
    (h : ((s.queue q).registers i).inService = true ∨
      ((s.queue q).registers i).deferredTargets.targets = []) :
    Avoids Abort.OnTarget (retireMSHR q i pkt blk wasFull s) := by
  refine Avoids.run_bind .ok fun s₀ s₁ hget => ?_
  obtain ⟨rfl, rfl⟩ := get_eq_ok.mp hget
  refine Avoids.run_bind (Safe.lift (avoids_promote _ _) s) fun promoted s₁ hcheck => ?_
  obtain ⟨hpromote, rfl⟩ := check_eq_ok.mp hcheck
  cases promoted with
  | none =>
    refine Safe.bind (.lift ?_) (fun _ => .bind .modify fun _ => .when (safe_clearBlocked _)) s
    exact .bind (avoids_assert.bind fun _ _ => avoids_assert.bind fun _ _ => .ok) fun _ _ => .ok
  | some m =>
    obtain ⟨t, ts, hdeferred, _, _, _, _, _, _, _, _, hservice⟩ :=
      RegLemmas.promoteDeferredTargets_some hpromote
    have hbusy : m.inService = true := by
      rw [hservice]
      refine h.resolve_right fun hnone => ?_
      rw [hnone] at hdeferred
      exact nomatch hdeferred
    have hpending : Avoids Abort.OnTarget (((s.queue q).setReg i m).markPending i) := by
      unfold MSHRQueue.markPending
      rw [MSHRQueue.registers_setReg, if_pos rfl, hbusy]
      exact .ok
    refine Safe.bind ?_ (fun _ => .bind (.lift hpending) fun _ => .bind .modify fun _ =>
      safe_requestMemSideBus _) s
    cases blk with
    | none => exact .pure
    | some p => exact .bind .get fun _ => .zoom .modify

end StoreCondLemmas

/-- Only store conditionals among the requests it completes, and a register in service, unless the
block is gone and no snoop and no deferred request waits. -/
structure FailsAlone (s : Cache cfg) (q : QueueIndex) (i : Nat) (pkt : Packet) : Prop where
  kinds : ∀ t ∈ ((s.queue q).registers i).targets.targets, t.source = .fromCPU →
    isStoreCondKind t.pkt.cmd = true
  serviced : ((s.queue q).registers i).inService = true ∨
    s.store.tags.findBlock pkt.guestID pkt.addr pkt.isSecure = none ∧
      (∀ t ∈ ((s.queue q).registers i).targets.targets, t.source ≠ .fromSnoop) ∧
      ((s.queue q).registers i).deferredTargets.targets = []

/-- The block `filled` was filled, by a read with the bytes of the response. -/
def FilledIn (cfg : CacheConfig) (resp : Packet) (filled : CacheBlk) (new : List Event) : Prop :=
  (∃ blk, .change .other blk filled none ∈ new) ∧ filled.isValid = true ∧
    (resp.isRead = true →
      ∃ bytes, resp.data = some bytes ∧ filled.data = bytes.take cfg.blkSize)

/-- One recorded change of a block turns the bytes `a` into `b`. -/
def ChangedIn (new : List Event) (a b : List Byte) : Prop :=
  ∃ site blk after handed, .change site blk after handed ∈ new ∧ blk.data = a ∧ after.data = b

/-- A target was served by a valid block whose bytes come from `start` by recorded changes, and
answered, a read with the bytes of that block. -/
def ServedIn (cfg : CacheConfig) (target : Packet) (start : List Byte) (new : List Event) : Prop :=
  ∃ blk after handed answer, ReflTransGen (ChangedIn new) start blk.data ∧
    .change (.request target) blk after handed ∈ new ∧
    blk.isValid = true ∧ .cpuResp answer ∈ new ∧ answer.line cfg = target.line cfg ∧
    (target.isRead = true → target.isWrite = false → ∃ bytes, answer.data = some bytes ∧
      (blk.data.drop (cfg.extractBlkOffset target.addr)).take target.size <+: bytes)

namespace StoreCondLemmas

variable {s s' : Cache cfg} {q : QueueIndex} {i : Nat} {pkt : Packet} {wasFull : Bool} {time : Tick}

def hitBlk (s : Cache cfg) (pkt : Packet) : Option (BlkPtr cfg.assoc) :=
  (s.store.tags.findBlock pkt.guestID pkt.addr pkt.isSecure).map
    (BlkPtr.way (cfg.extractSet pkt.addr))

theorem hitBlk_ne_temp : (hitBlk s pkt == some .temp) = false := by
  unfold hitBlk
  cases s.store.tags.findBlock pkt.guestID pkt.addr pkt.isSecure with
  | none | some w => rfl

theorem fillsBlock_upgradeFail (m : MSHR) (hcmd : pkt.cmd = .UpgradeFailResp) :
    fillsBlock m pkt = false := by
  unfold fillsBlock
  rw [(isError_upgradeFail hcmd).2.2, hcmd]
  exact Bool.and_false _

theorem safe_releaseTargets : Safe Abort.OnTarget (releaseTargets q i : CacheM cfg Unit) :=
  .bind .get fun _ => .when (.bind (safe_clearBlocked _) fun _ => .modify)

theorem avoids_getTarget (m : MSHR) : Avoids Abort.OnTarget m.getTarget := by
  unfold MSHR.getTarget
  split
  · exact .ok
  · exact avoids_assertion

variable {blk : Option (BlkPtr cfg.assoc)}

theorem avoids_finishMSHR (hblk : (blk == some .temp) = false)
    (hserviced : m.inService = true ∨ blk = none ∧ m.deferredTargets.targets = []) :
    Avoids Abort.OnTarget (finishMSHR q i m pkt blk [] wasFull time s) := by
  refine Avoids.run_bind .ok fun _ s₁ hmod => ?_
  have hs₁ : s₁.regs = s.regs.setQueue q ((s.queue q).setReg i m.emptied) := by
    rw [← modify_eq_ok.mp hmod]
    exact regs_setQueue s q _
  refine Avoids.run_bind (avoids_settleBlk (hserviced.imp_right And.left) s₁) fun _ s₂ hsettle => ?_
  have hs₂ : Stays False (fun _ => True) s₁ s₂ := settleBlk_stays _ _ _ _ _ _ hsettle
  have hreg : (s₂.queue q).registers i = m.emptied := by
    rw [← queue_regs, hs₂.2, hs₁, Regs.queue_setQueue, MSHRQueue.registers_setReg, if_pos rfl]
  refine Avoids.run_bind (avoids_retireMSHR ?_) fun _ s₃ _ => ?_
  · rw [hreg]
    exact hserviced.imp_right And.right
  · refine Avoids.run_bind .ok fun _ s₄ _ => ?_
    unfold dropTempBlock
    rw [hblk]
    exact .ok

variable {above : Nat → SnoopAnswer}

theorem avoids_completeMSHR (hcmd : pkt.cmd = .UpgradeFailResp)
    (h : FailsAlone s q i pkt) : Avoids Abort.OnTarget (completeMSHR q i pkt above s) := by
  refine Avoids.run_bind .ok fun s₀ s₁ hget => ?_
  obtain ⟨rfl, rfl⟩ := get_eq_ok.mp hget
  refine Avoids.run_bind (safe_releaseTargets s) fun _ s₁ _ => ?_
  refine Avoids.run_bind (Safe.lift (avoids_getTarget _) s₁) fun first s₂ _ => ?_
  refine Avoids.run_bind (Safe.lift avoids_assert s₂) fun _ s₃ _ => ?_
  have hfill : (fillResponse q i ((s.queue q).registers i) pkt (hitBlk s pkt)
      (fillsBlock ((s.queue q).registers i) pkt) : CacheM cfg _) =
      pure ((s.queue q).registers i, hitBlk s pkt, []) := by
    rw [fillsBlock_upgradeFail _ hcmd]
    rfl
  rw [show (s.store.tags.findBlock pkt.guestID pkt.addr pkt.isSecure).map
    (BlkPtr.way (cfg.extractSet pkt.addr)) = hitBlk s pkt from rfl, hfill]
  refine Avoids.run_bind .ok fun r s₄ hr => ?_
  obtain ⟨rfl, rfl⟩ := pure_eq_ok.mp hr
  rw [fillsBlock_upgradeFail _ hcmd]
  refine Avoids.run_bind (safe_completeTargets hcmd h.kinds
    (h.serviced.imp_right fun hidle => hidle.2.1) s₃) fun _ s₅ _ => ?_
  refine avoids_finishMSHR hitBlk_ne_temp (h.serviced.imp_right fun hidle => ⟨?_, hidle.2.2⟩)
  unfold hitBlk
  rw [hidle.1]
  rfl

/-! ### What a completed response says -/

theorem inService_of_hasPostInvalidate {b : Bool} (h : m.hasPostInvalidate = .ok b) :
    m.inService = true := by
  simp only [MSHR.hasPostInvalidate, except_bind_eq_ok, assertOr_eq_ok] at h
  obtain ⟨_, hbusy, _⟩ := h
  exact hbusy

theorem valid_of_quiet (h : Quiet s s') (p : BlkPtr cfg.assoc) :
    (s'.store.blk p).isValid = (s.store.blk p).isValid := by
  obtain ⟨es, _, heq⟩ := h
  rw [heq]
  cases p with
  | way set w | temp => rfl

/-- A target that was completed was a store conditional; unless the register is in
service it was no snoop, and then no block came or went. -/
theorem completeTarget_ok {above : SnoopAnswer} {t : Target} (hcmd : pkt.cmd = .UpgradeFailResp)
    (h : completeTarget m pkt false blk offset above t s = .ok ((), s')) :
    (t.source = .fromCPU → isStoreCondKind t.pkt.cmd = true) ∧
      (m.inService = true ∨ t.source ≠ .fromSnoop ∧
        ∀ p, (s'.store.blk p).isValid = (s.store.blk p).isValid) := by
  unfold completeTarget at h
  cases hsource : t.source with
  | fromCPU =>
    rw [hsource] at h
    obtain ⟨r, s₁, hanswer, h⟩ := bind_eq_ok.mp h
    unfold answerTarget at hanswer
    rw [if_neg Bool.false_ne_true, if_pos hcmd] at hanswer
    obtain ⟨_, hkind, hret⟩ := check_bind_eq_ok.mp hanswer
    obtain ⟨_, rfl⟩ := pure_eq_ok.mp hret
    obtain ⟨_, _, h⟩ := check_bind_eq_ok.mp h
    obtain ⟨_, _, h⟩ := check_bind_eq_ok.mp h
    obtain ⟨_, _, hget, hsched⟩ := bind_eq_ok.mp h
    obtain ⟨_, rfl⟩ := get_eq_ok.mp hget
    exact ⟨fun _ => assertOr_eq_ok.mp hkind, .inr ⟨TargetSource.noConfusion,
      valid_of_quiet (schedTimingResp_silent _ _ _ _ _ hsched).1⟩⟩
  | fromPrefetcher =>
    rw [hsource] at h
    obtain ⟨_, _, h⟩ := check_bind_eq_ok.mp h
    refine ⟨TargetSource.noConfusion, .inr ⟨TargetSource.noConfusion, fun p => ?_⟩⟩
    cases blk with
    | none =>
      obtain ⟨_, rfl⟩ := pure_eq_ok.mp h
      rfl
    | some p' =>
      simp only [markPrefetched, bind_eq_ok, get_eq_ok, onStore_eq_ok, StoreM.changeBlk_eq_ok] at h
      obtain ⟨_, _, ⟨rfl, rfl⟩, _, rfl, rfl⟩ := h
      rw [Store.blk_changed]
      split
      · next heq =>
        rw [heq]
        rfl
      · rfl
  | fromSnoop =>
    rw [hsource] at h
    obtain ⟨_, _, h⟩ := check_bind_eq_ok.mp h
    obtain ⟨_, hinval, _⟩ := check_bind_eq_ok.mp h
    exact ⟨TargetSource.noConfusion, .inl (inService_of_hasPostInvalidate hinval)⟩

theorem completeTargets_ok {ts : List Target} (hcmd : pkt.cmd = .UpgradeFailResp)
    (h : completeTargets m pkt false blk offset above ts s = .ok ((), s')) :
    (∀ t ∈ ts, t.source = .fromCPU → isStoreCondKind t.pkt.cmd = true) ∧
      (m.inService = true ∨ (∀ t ∈ ts, t.source ≠ .fromSnoop) ∧
        ∀ p, (s'.store.blk p).isValid = (s.store.blk p).isValid) := by
  induction ts generalizing s with
  | nil =>
    obtain ⟨_, rfl⟩ := pure_eq_ok.mp h
    exact ⟨fun t ht => absurd ht List.not_mem_nil,
      .inr ⟨fun t ht => absurd ht List.not_mem_nil, fun _ => rfl⟩⟩
  | cons t ts ih =>
    obtain ⟨_, s₁, hfirst, hrest⟩ := bind_eq_ok.mp h
    obtain ⟨hkind, hserviced⟩ := completeTarget_ok hcmd hfirst
    obtain ⟨hkinds, hserviced'⟩ := ih hrest
    refine ⟨fun t' ht' => ?_, ?_⟩
    · rcases List.mem_cons.mp ht' with rfl | ht'
      · exact hkind
      · exact hkinds t' ht'
    · rcases hserviced with hbusy | ⟨hsource, hvalid⟩
      · exact .inl hbusy
      · refine hserviced'.imp_right fun ⟨hsources, hvalid'⟩ => ⟨fun t' ht' => ?_, fun p => ?_⟩
        · rcases List.mem_cons.mp ht' with rfl | ht'
          · exact hsource
          · exact hsources t' ht'
        · rw [hvalid' p, hvalid p]

theorem settleBlk_ok
    (hcmd : pkt.cmd = .UpgradeFailResp) (h : settleBlk m pkt blk s = .ok ((), s')) :
    m.inService = true ∨ validBlk s blk = none := by
  replace h := get_bind_eq_ok.mp h
  cases hfound : validBlk s blk with
  | none => exact .inr rfl
  | some p =>
    rw [hfound] at h
    obtain ⟨_, hinval, _⟩ := check_bind_eq_ok.mp h
    rw [(isError_upgradeFail hcmd).2.1, if_neg Bool.false_ne_true] at hinval
    exact .inl (inService_of_hasPostInvalidate hinval)

theorem finishMSHR_ok (hcmd : pkt.cmd = .UpgradeFailResp) (hblk : (blk == some .temp) = false)
    (h : finishMSHR q i m pkt blk [] wasFull time s = .ok ((), s')) :
    (m.inService = true ∨ validBlk s blk = none ∧ m.deferredTargets.targets = []) ∧
      ((s'.queue q).registers i).targets.targets = m.deferredTargets.targets ∧
      (m.deferredTargets.targets ≠ [] → i ∈ (s'.queue q).readyList) := by
  obtain ⟨_, s₁, hmod, h⟩ := bind_eq_ok.mp h
  obtain ⟨_, s₂, hsettle, h⟩ := bind_eq_ok.mp h
  obtain ⟨_, s₃, hretire, h⟩ := bind_eq_ok.mp h
  obtain ⟨_, s₄, hnone, hdrop⟩ := bind_eq_ok.mp h
  obtain rfl := forEach_nil_eq_ok.mp hnone
  have hs' : s₃ = s' := by
    unfold dropTempBlock at hdrop
    rw [hblk] at hdrop
    exact (pure_eq_ok.mp hdrop).2
  have hs₁ : s₁.store = s.store := by
    rw [← modify_eq_ok.mp hmod]
    exact setQueue_store s q _
  have hsettle' : Stays False (fun _ => True) s₁ s₂ := settleBlk_stays _ _ _ _ _ _ hsettle
  have hreg : (s₂.queue q).registers i = m.emptied := by
    rw [← queue_regs, hsettle'.2, ← modify_eq_ok.mp hmod, regs_setQueue, Regs.queue_setQueue,
      MSHRQueue.registers_setReg, if_pos rfl]
    rfl
  have hvalid : validBlk s₁ blk = validBlk s blk := by
    unfold validBlk
    rw [hs₁]
  obtain ⟨mq, hregs, hends⟩ := retireMSHR_cases hretire
  have hqueue : s'.queue q = mq := by
    rw [← hs', ← queue_regs, hregs, Regs.queue_setQueue]
  rw [hqueue]
  rw [hreg] at hends
  have hsettled := settleBlk_ok hcmd hsettle
  rw [hvalid] at hsettled
  rcases hends with ⟨m', hpromote, hpending⟩ | ⟨hpromote, hfree⟩
  · obtain ⟨t, ts, hdeferred, htargets, _, _, _, _, _, _, _, hservice⟩ :=
      RegLemmas.promoteDeferredTargets_some hpromote
    obtain ⟨hbusy, rfl⟩ := MSHRQueue.QueueLemmas.markPending_cases hpending
    rw [MSHRQueue.registers_setReg, if_pos rfl, hservice] at hbusy
    refine ⟨.inl hbusy, ?_, fun _ => ?_⟩
    · show (((_ : MSHRQueue).setReg i _).registers i).targets.targets = _
      rw [MSHRQueue.registers_setReg, if_pos rfl, MSHRQueue.registers_setReg, if_pos rfl]
      exact congrArg TargetList.targets htargets
    · exact MSHRQueue.QueueLemmas.mem_addToReadyList.mpr (.inl rfl)
  · have hnone : m.deferredTargets.targets = [] :=
      (RegLemmas.promoteDeferredTargets_none hpromote).2
    obtain ⟨m', hm', hafter, _⟩ := MSHRQueue.QueueLemmas.deallocate_cases hfree
    refine ⟨hsettled.imp_right fun hgone => ⟨hgone, hnone⟩, ?_, fun hne => absurd hnone hne⟩
    rw [hafter, MSHRQueue.registers_setReg, if_pos rfl, hnone]
    exact (RegLemmas.deallocate_spec hm').2.2.2.1

/-- A failed upgrade that is completed found its register in the right state, and
leaves it with the targets that were deferred. -/
theorem completeMSHR_ok (hcmd : pkt.cmd = .UpgradeFailResp)
    (h : completeMSHR q i pkt above s = .ok ((), s')) :
    FailsAlone s q i pkt ∧ ((s'.queue q).registers i).targets.targets =
        ((s.queue q).registers i).deferredTargets.targets ∧
      (((s.queue q).registers i).deferredTargets.targets ≠ [] →
        i ∈ (s'.queue q).readyList) := by
  obtain ⟨first, m, blk, wbs, s₁, s₂, s₃, hrelease, _, hfill, hloop, hfinish⟩ :=
    completeMSHR_cases h
  rw [fillsBlock_upgradeFail _ hcmd] at hfill hloop
  obtain ⟨hno, _⟩ | ⟨_, rfl, rfl, rfl, rfl⟩ := fillResponse_cases hfill
  · exact Bool.noConfusion hno
  obtain ⟨hkinds, hserviced⟩ := completeTargets_ok hcmd hloop
  obtain ⟨hsettled, hkept, hready⟩ := finishMSHR_ok hcmd hitBlk_ne_temp hfinish
  refine ⟨⟨hkinds, ?_⟩, hkept, hready⟩
  rcases hserviced with hbusy | ⟨hsources, hvalid⟩
  · exact .inl hbusy
  refine hsettled.imp_right fun ⟨hgone, hnone⟩ => ⟨?_, hsources, hnone⟩
  -- a block that was found was valid, and the loop did not take it away
  cases hfind : s.store.tags.findBlock pkt.guestID pkt.addr pkt.isSecure with
  | none => rfl
  | some w =>
    have hfound : (s.store.blk (.way (cfg.extractSet pkt.addr) w)).isValid = true :=
      (LRU.findBlock_line hfind).1
    rw [← valid_of_quiet (releaseTargets_silent _ _ _ _ _ hrelease).1, ← hvalid] at hfound
    rw [hitBlk, hfind, Option.map_some, validBlk, if_pos hfound] at hgone
    cases hgone

/-! ### What a fill says -/

theorem changedIn_mono {new new' : List Event} {a b : List Byte}
    (h : ReflTransGen (ChangedIn new) a b) (hsub : new ⊆ new') :
    ReflTransGen (ChangedIn new') a b := by
  refine ReflTransGen.mono (fun _ _ => ?_) _ _ h
  rintro ⟨site, blk, after, handed, hchange, hrest⟩
  exact ⟨site, blk, after, handed, hsub hchange, hrest⟩

theorem servedIn_mono {target : Packet} {start : List Byte} {new new' : List Event}
    (h : ServedIn cfg target start new) (hsub : new ⊆ new') : ServedIn cfg target start new' := by
  obtain ⟨blk, after, handed, answer, hpath, hchange, hvalid, hanswer, hrest⟩ := h
  exact ⟨blk, after, handed, answer, changedIn_mono hpath hsub, hsub hchange, hvalid,
    hsub hanswer, hrest⟩

theorem changedIn_changed (t : Store cfg) (site : Site) (p q : BlkPtr cfg.assoc)
    (after : CacheBlk) (handed : Option Packet) :
    ReflTransGen (ChangedIn [.change site (t.blk p) after handed]) (t.blk q).data
      ((t.changed site p after handed).blk q).data := by
  rw [Store.blk_changed]
  split
  · next heq =>
    rw [heq]
    exact .single ⟨_, _, _, _, List.mem_cons_self, rfl, rfl⟩
  · exact .refl

/-- What a block holds without a fill comes from what it held by the changes on the log. -/
theorem changedIn_of_micro {t t' : Store cfg} (h : Micro False (fun _ => False) t t')
    (p : BlkPtr cfg.assoc) : ∃ new, t'.log = new ++ t.log ∧
      ReflTransGen (ChangedIn new) (t.blk p).data (t'.blk p).data := by
  cases h with
  | plain e => exact ⟨[e], rfl, by rw [Store.blk_record]⟩
  | victim => exact ⟨[_], rfl, by rw [Store.blk_record]⟩
  | touch guest addr isSecure now =>
    refine ⟨[], rfl, ?_⟩
    cases p with
    | temp => exact .refl
    | way set w =>
      obtain ⟨n, heq⟩ := LRU.accessBlock_blks t.tags guest addr isSecure now set w
      rw [Store.blk, Store.blk, heq]
  | locks | program => exact ⟨[], rfl, by cases p <;> exact .refl⟩
  | change => exact ⟨[_], Store.log_changed _ _ _ _ _, changedIn_changed _ _ _ _ _ _⟩
  | @takeOut _ out site _ handed _ hrun =>
    obtain ⟨tags, blk', hblks, _, rfl, hlog⟩ := takeOut_cases hrun
    have hpath := changedIn_changed { t with tags := tags } site out p blk'.invalidate handed
    rw [Store.blk_withTags hblks, Store.blk_withTags hblks] at hpath
    exact ⟨[_], hlog, hpath⟩
  | fillNew _ _ hG | writebackNew _ hG | fillTemp _ hG => exact hG.elim

theorem changedIn_of_steps {t t' : Store cfg} (h : MicroSteps False (fun _ => False) t t')
    (p : BlkPtr cfg.assoc) : ∃ new, t'.log = new ++ t.log ∧
      ReflTransGen (ChangedIn new) (t.blk p).data (t'.blk p).data := by
  induction h with
  | refl => exact ⟨[], rfl, .refl⟩
  | tail _ hstep ih =>
    obtain ⟨new, hlog, hpath⟩ := ih
    obtain ⟨later, hlater, hnext⟩ := changedIn_of_micro hstep p
    refine ⟨later ++ new, by rw [hlater, hlog, List.append_assoc], ?_⟩
    exact (changedIn_mono hpath (List.subset_append_right _ _)).trans
      (changedIn_mono hnext (List.subset_append_left _ _))

theorem serve_read_data {blk : CacheBlk} {deferred downgrade isTemp : Bool} {r : CacheBlk.Served}
    (h : blk.serve cfg pkt deferred downgrade isTemp = .ok r) (hread : pkt.isRead = true)
    (hwrite : pkt.isWrite = false) : ∃ bytes, r.pkt.data = some bytes ∧
      (blk.data.drop (cfg.extractBlkOffset pkt.addr)).take pkt.size <+: bytes := by
  have hswap : pkt.cmd ≠ .SwapReq := by
    intro hcmd
    rw [Packet.isWrite, hcmd] at hwrite
    cases hwrite
  simp only [CacheBlk.serve, except_bind_eq_ok] at h
  obtain ⟨_, -, _, -, h⟩ := h
  rw [if_neg hswap, hwrite, if_neg Bool.false_ne_true, if_pos hread] at h
  obtain ⟨locks, old, -, rfl⟩ := CacheBlk.serveRead_cases h
  refine ⟨writeBytes old 0 ((blk.data.drop (cfg.extractBlkOffset pkt.addr)).take pkt.size), ?_,
    List.prefix_append _ _⟩
  unfold CacheBlk.shareBlock
  dsimp only
  split_ifs <;> rfl

/-- A target from the CPU side is served by the block that was filled. -/
theorem completeTarget_serves {above : SnoopAnswer} {t : Target} (hsource : t.source = .fromCPU)
    (h : completeTarget m pkt true (some p) offset above t s = .ok ((), s')) :
    ∃ new, s'.store.log = new ++ s.store.log ∧
      ServedIn cfg t.pkt (s.store.blk p).data new := by
  unfold completeTarget at h
  rw [hsource] at h
  obtain ⟨⟨answered, delay⟩, s₁, hanswer, h⟩ := bind_eq_ok.mp h
  obtain ⟨resp, hresp, h⟩ := check_bind_eq_ok.mp h
  obtain ⟨answer, hcmd, h⟩ := check_bind_eq_ok.mp h
  simp only [schedTimingResp, bind_eq_ok, get_eq_ok, check_eq_ok, modify_eq_ok, onStore_eq_ok,
    StoreM.emit_eq_ok] at h
  obtain ⟨_, _, ⟨rfl, rfl⟩, _, _, ⟨rfl, rfl⟩, _, _, ⟨_, rfl⟩, _, _, rfl, _, rfl, rfl⟩ := h
  unfold answerTarget at hanswer
  rw [if_pos rfl] at hanswer
  obtain ⟨downgrade, _, hanswer⟩ := check_bind_eq_ok.mp hanswer
  simp only [bind_eq_ok, onStore_eq_ok, check_eq_ok, pure_eq_ok] at hanswer
  obtain ⟨_, _, ⟨t', hserve, rfl⟩, _, _, ⟨_, rfl⟩, _, _, ⟨_, rfl⟩, hpair, rfl⟩ := hanswer
  cases hpair
  obtain ⟨served, hserved, rfl, hlog⟩ := StoreM.satisfyCpuSideRequest_cases hserve
  have hspec := CacheBlk.serve_spec hserved
  have hsame : answer.line cfg = t.pkt.line cfg ∧ answer.data = served.pkt.data := by
    obtain ⟨_, _, _, _, rfl⟩ :=
      HandoverLemmas.madeFrom_respondCmd (HandoverLemmas.madeFrom_makeResponse hresp) hcmd
    exact ⟨hspec.line, rfl⟩
  have hlog' : ∃ after handed, t'.log = .change (.request t.pkt) (s.store.blk p) after handed ::
      s.store.log := by
    rcases hlog with ⟨_, hout⟩ | ⟨_, rfl⟩
    · obtain ⟨_, _, _, _, _, hlog⟩ := takeOut_cases hout
      exact ⟨_, _, hlog⟩
    · exact ⟨_, _, Store.log_changed _ _ _ _ _⟩
  obtain ⟨after, handed, hlog'⟩ := hlog'
  refine ⟨[_, _], congrArg (_ :: ·) hlog', s.store.blk p, after, handed, _, .refl,
    List.mem_cons_of_mem _ List.mem_cons_self, hspec.valid, List.mem_cons_self, hsame.1,
    fun hread hwrite => ?_⟩
  have hdata := serve_read_data hserved hread hwrite
  rw [← hsame.2] at hdata
  exact hdata

theorem completeTargets_serves {ts : List Target}
    (h : completeTargets m pkt true (some p) offset above ts s = .ok ((), s')) :
    ∀ t ∈ ts, t.source = .fromCPU → ∃ new, s'.store.log = new ++ s.store.log ∧
      ServedIn cfg t.pkt (s.store.blk p).data new := by
  induction ts generalizing s with
  | nil => exact fun t ht => absurd ht List.not_mem_nil
  | cons t ts ih =>
    obtain ⟨_, s₁, hfirst, hrest⟩ := bind_eq_ok.mp h
    have hmove : Stays False (fun _ => False) s s₁ := completeTarget_stays hfirst False.elim
    have hmoves : Stays False (fun _ => False) s₁ s' :=
      completeTargets_stays hrest False.elim False.elim
    intro t' ht' hsource
    rcases List.mem_cons.mp ht' with rfl | ht'
    · obtain ⟨new, hlog, hserved⟩ := completeTarget_serves hsource hfirst
      obtain ⟨later, hlater⟩ := MicroSteps.log_suffix hmoves.1
      refine ⟨later ++ new, ?_, servedIn_mono hserved (List.subset_append_right _ _)⟩
      rw [← hlater, hlog, List.append_assoc]
    · obtain ⟨new, hlog, hserved⟩ := ih hrest t' ht' hsource
      obtain ⟨earlier, hearlier, hpath⟩ := changedIn_of_steps hmove.1 p
      obtain ⟨blk, after, handed, answer, hblk, hrest⟩ :=
        servedIn_mono hserved (List.subset_append_left new earlier)
      refine ⟨new ++ earlier, by rw [hlog, hearlier, List.append_assoc], blk, after, handed,
        answer, .trans ?_ hblk, hrest⟩
      exact changedIn_mono hpath (List.subset_append_right _ _)

theorem filledIn_of_fill {blk filled : CacheBlk} {now : Tick} {new : List Event}
    (h : blk.fill cfg pkt now = .ok filled) (hmem : .change .other blk filled none ∈ new) :
    FilledIn cfg pkt filled new := by
  refine ⟨⟨blk, hmem⟩, (CacheBlk.fill_spec h).valid, fun hread => ?_⟩
  simp only [CacheBlk.fill, hread, if_true, except_bind_eq_ok, except_pure_eq_ok] at h
  obtain ⟨bytes, hbytes, rfl⟩ := h
  exact ⟨bytes, Packet.getPtr_eq_ok.mp hbytes, rfl⟩

theorem handleFill_fills {mq : MSHRQueue} {hit : Option (BlkPtr cfg.assoc)} {now : Tick}
    {p : BlkPtr cfg.assoc} {wbs : List Packet} {t t' : Store cfg}
    (h : StoreM.handleFill mq pkt hit now t = .ok ((p, wbs), t')) :
    ∃ new, t'.log = new ++ t.log ∧ FilledIn cfg pkt (t'.blk p) new := by
  have hlogged (r t₁) (halloc : StoreM.allocateBlock mq pkt.guestID pkt.addr t = .ok (r, t₁)) :
      ∃ new, new ++ t.log = t₁.log :=
    have hpath : MicroSteps False (fun _ => False) t t₁ := StoreM.allocateBlock_path halloc
    MicroSteps.log_suffix hpath
  rcases StoreM.handleFill_cases h with ⟨_, _, filled, hfill, rfl⟩ |
    ⟨_, _, ⟨w, t₁, rfl, halloc, hnew⟩ | ⟨t₁, rfl, halloc, htemp⟩⟩
  · refine ⟨[_], Store.log_changed _ _ _ _ _, ?_⟩
    rw [Store.blk_changed, if_pos rfl]
    exact filledIn_of_fill hfill List.mem_cons_self
  · obtain ⟨_, blk, filled, _, hfill, rfl, hlog⟩ := fillNew_cases hnew
    obtain ⟨new, hsuffix⟩ := hlogged _ _ halloc
    refine ⟨.change .other blk filled none :: (insertEvents t₁ pkt.guestID pkt w blk ++ new), ?_,
      ?_⟩
    · rw [hlog, ← hsuffix, List.cons_append, List.append_assoc]
    · rw [Store.blk_changed, if_pos rfl]
      exact filledIn_of_fill hfill List.mem_cons_self
  · obtain ⟨filled, _, hfill, rfl, hlog⟩ := fillTemp_cases htemp
    obtain ⟨new, hsuffix⟩ := hlogged _ _ halloc
    refine ⟨.change .other (tempFor t₁ pkt) filled none ::
      .change .other t₁.tempBlock (tempFor t₁ pkt) none :: new, ?_, ?_⟩
    · rw [hlog, ← hsuffix]
      rfl
    · rw [Store.blk_changed, if_pos rfl]
      exact filledIn_of_fill hfill List.mem_cons_self

theorem exists_ok_of_isOk {x : Except Abort (Unit × Cache cfg)} (h : x.isOk = true) :
    ∃ s', x = .ok ((), s') := by
  cases x with
  | error e => cases h
  | ok r => exact ⟨r.2, rfl⟩

/-- A response that brings a block in answers every target from the CPU side from it. -/
theorem completeMSHR_serves (hfills : fillsBlock ((s.queue q).registers i) pkt = true)
    (hno : pkt.isError = false) (h : completeMSHR q i pkt above s = .ok ((), s')) {t : Target}
    (ht : t ∈ ((s.queue q).registers i).targets.targets) (hsource : t.source = .fromCPU) :
    ∃ new filled, s'.store.log = new ++ s.store.log ∧ FilledIn cfg pkt filled new ∧
      ServedIn cfg t.pkt filled.data new := by
  obtain ⟨first, m, blk, wbs, s₁, s₂, s₃, hrelease, _, hfill, hloop, hfinish⟩ :=
    completeMSHR_cases h
  rw [hfills] at hfill hloop
  obtain ⟨new₁, hlog₁⟩ := MicroSteps.log_suffix
    ((releaseTargets_silent q i _ _ _ hrelease).1.moves : Moves True (fun _ => True) s s₁)
  obtain ⟨new₄, hlog₄⟩ := MicroSteps.log_suffix
    (finishMSHR_moves q i m pkt blk wbs _ _ _ _ _ hfinish : Moves True (fun _ => True) s₃ s')
  obtain ⟨_, _, p, t', hm, rfl, hfilled, rfl⟩ | ⟨hnot, _⟩ := fillResponse_cases hfill
  · have htargets : t ∈ m.targets.targets := by
      rcases handleFill_targets hm with heq | heq <;> rw [heq]
      · exact ht
      · exact List.mem_append_left _ ht
    obtain ⟨new₂, hlog₂, hin⟩ := handleFill_fills hfilled
    obtain ⟨new₃, hlog₃, hserved⟩ := completeTargets_serves hloop t htargets hsource
    refine ⟨new₄ ++ (new₃ ++ (new₂ ++ new₁)), t'.blk p, ?_, ?_, servedIn_mono hserved ?_⟩
    · rw [← hlog₄, hlog₃]
      show _ ++ (_ ++ t'.log) = _
      rw [hlog₂, ← hlog₁]
      simp only [List.append_assoc]
    · obtain ⟨⟨blk, hmem⟩, hrest⟩ := hin
      exact ⟨⟨blk, by simp [hmem]⟩, hrest⟩
    · intro e he
      simp [he]
  · simp [hno] at hnot

end StoreCondLemmas

open StoreCondLemmas

def threadPkt (cmd : MemCmd) : Packet :=
  .allocate (.ofRequest { fourBytes 0 with contextId := some 0 } cmd)

def sharedThenStoreCond : List Input :=
  Input.miss (threadPkt .ReadReq) { cmd := .ReadResp, data := some [1, 2, 3, 4], shared := true } ++
    [.timingReq (threadPkt .StoreCondReq)]

def Packet.filledBy (pkt : Packet) (bytes : List Byte) : Packet :=
  { pkt with cmd := .ReadResp, data := some bytes }

/-- The upgrade of the store conditional is on its way when a snoop takes the block, so that a read
that comes later has to wait behind it. -/
def readBehindUpgrade : List Input :=
  sharedThenStoreCond ++ [.advance 2, .cpuSend true, .send,
    .timingSnoopReq (threadPkt .ReadExReq) {}, .timingReq (threadPkt .ReadReq)]

/-- The upgrade has failed, and the read goes out. -/
def readAfterUpgrade : List Input :=
  readBehindUpgrade ++ [.timingResp 0 { cmd := .UpgradeFailResp } fun _ => {}, .send, .advance 3,
    .cpuSend true, .send]

end PardG5V
