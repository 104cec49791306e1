import PardG5V.Cache.CachePath
import PardG5V.Lib.Ledger

/-!
# Packets that carry a line away are sent

When the cache cleans a block or gives it up, the log names the packet that carries the line away.
By the end of the call the packet has left the cache or is in its write buffer (`call_settled`).
-/

namespace PardG5V

open Prog

/-- The response is the packet, but for its command, the express snoop mark and the
delays. -/
def Packet.MadeFrom (resp pkt : Packet) : Prop :=
  ∃ cmd express first last, resp = { pkt with
    cmd := cmd, expressSnoop := express, busFirstWordDelay := first, busLastWordDelay := last }

/-- How a line leaves the cache: it is written out, or it goes along in the answer to
a snoop or in the response to a request. -/
inductive Cargo
  | written (pkt : Packet)
  | snooped (pkt : Packet)
  | served (pkt : Packet)

/-- What the packet of a change is. -/
def Site.cargo : Site → Packet → Option Cargo
  | .writeback, pkt | .flush, pkt => some (.written pkt)
  | .snoop _ _, pkt => some (.snooped pkt)
  | .request _, pkt => some (.served pkt)
  | .inhibited _, _ | .response _, _ | .other, _ => none

namespace Event

def cargo : Event → Option Cargo
  | .change site _ _ handed => handed.bind site.cargo
  | _ => none

/-- The event sends the cargo: a write as it is, an answer as a response. -/
def Sends : Event → Cargo → Prop
  | .buffered sent _, .written pkt | .sentAtomic sent, .written pkt
  | .sentFunctional sent, .written pkt => sent = pkt
  | .snoopResp resp, .snooped pkt | .atomicResp resp, .snooped pkt => resp.MadeFrom pkt
  | .cpuResp resp, .served pkt | .atomicResp resp, .served pkt => resp.MadeFrom pkt
  | _, _ => False

end Event

/-- What leaves the cache, in the log of the blocks. -/
def Store.ledger (cfg : CacheConfig) : Ledger (Store cfg) Event Cargo :=
  ⟨Store.log, Event.cargo, Event.Sends⟩

def Cache.ledger (cfg : CacheConfig) : Ledger (Cache cfg) Event Cargo :=
  ⟨fun s => s.store.log, Event.cargo, Event.Sends⟩

def writtenOf (writebacks : List Packet) : Set Cargo :=
  {c | ∃ wb ∈ writebacks, c = .written wb}

variable {cfg : CacheConfig} {α : Type}

/-- All that the program takes over it sends. -/
def StoreM.Settles (cfg : CacheConfig) (m : StoreM cfg α) : Prop :=
  (Store.ledger cfg).Passes ∅ m fun _ => ∅

def CacheM.Settles (cfg : CacheConfig) (m : CacheM cfg α) : Prop :=
  (Cache.ledger cfg).Passes ∅ m fun _ => ∅

variable {m : MSHR}

namespace HandoverLemmas

theorem madeFrom_refl (pkt : Packet) : pkt.MadeFrom pkt := ⟨_, _, _, _, rfl⟩

theorem madeFrom_makeResponse {pkt resp : Packet} (h : pkt.makeResponse = .ok resp) :
    resp.MadeFrom pkt := by
  simp only [Packet.makeResponse, except_bind_eq_ok, except_pure_eq_ok] at h
  obtain ⟨_, _, _, _, rfl⟩ := h
  exact ⟨_, _, _, _, rfl⟩

theorem madeFrom_respondCmd {pkt resp resp' answered : Packet}
    (hmade : resp.MadeFrom answered) (h : CacheM.respondCmd m pkt resp = .ok resp') :
    resp'.MadeFrom answered := by
  obtain ⟨_, _, _, _, rfl⟩ := hmade
  simp only [CacheM.respondCmd, except_ite_eq_ok, except_bind_eq_ok, except_pure_eq_ok] at h
  rcases h with ⟨_, inval, _, rfl⟩ | ⟨_, rfl⟩
  · split <;> split <;> exact ⟨_, _, _, _, rfl⟩
  · split <;> exact ⟨_, _, _, _, rfl⟩

theorem shareBlock_cmd (blk : CacheBlk) (pkt : Packet) (deferred downgrade : Bool) :
    (CacheBlk.shareBlock cfg blk pkt deferred downgrade).pkt.cmd = pkt.cmd := by
  unfold CacheBlk.shareBlock
  split
  · rfl
  · split
    · split
      · split <;> rfl
      · rfl
    · rfl

/-- Serving a request sets mem-inhibit on a read only. -/
theorem serve_inhibits {blk : CacheBlk} {pkt : Packet} {deferred downgrade isTemp : Bool}
    {r : CacheBlk.Served} (h : blk.serve cfg pkt deferred downgrade isTemp = .ok r) :
    r.pkt.memInhibit = pkt.memInhibit ∨ pkt.isRead = true ∧ r.pkt.cmd = pkt.cmd := by
  simp only [CacheBlk.serve, except_bind_eq_ok, except_ite_eq_ok] at h
  obtain ⟨_, _, _, _, ⟨_, h⟩ | ⟨_, ⟨_, h⟩ | ⟨_, ⟨hread, h⟩ | ⟨_, h⟩⟩⟩⟩ := h
  · simp only [CacheBlk.cmpAndSwap, except_bind_eq_ok, except_pure_eq_ok] at h
    obtain ⟨_, _, _, _, _, hset, _, _, rfl⟩ := h
    obtain ⟨_, _, rfl⟩ := Packet.setData_eq_ok.mp hset
    exact .inl rfl
  · obtain ⟨_, hpkt, _⟩ := CacheBlk.serveWrite_cases h
    rcases hpkt with hpkt | ⟨_, hpkt⟩
    · exact .inl (by rw [hpkt])
    · exact .inl (by rw [hpkt]; rfl)
  · obtain ⟨_, _, _, rfl⟩ := CacheBlk.serveRead_cases h
    refine .inr ⟨hread, ?_⟩
    dsimp only
    split
    · rw [shareBlock_cmd]
    · rfl
  · simp only [CacheBlk.serveUpgrade, except_bind_eq_ok, except_pure_eq_ok] at h
    obtain ⟨_, _, _, _, rfl⟩ := h
    exact .inl rfl

theorem needsResponse_of_read {cmd : MemCmd} (hread : cmd.isRead = true)
    (hreq : cmd.isRequest = true) : cmd.needsResponse = true := by
  revert hread hreq
  cases cmd <;> decide

end HandoverLemmas

open HandoverLemmas

variable {handed : Option Packet} {site : Site}

namespace StoreM

open Store

variable {p : BlkPtr cfg.assoc} {e : Event} {after blk : CacheBlk} {guest : GuestID} {now : Tick}
  {lat : Nat} {invalidate : Bool}

/-! ## The blocks -/

theorem idle_modify {f : Store cfg → Store cfg} (h : ∀ s, (f s).log = s.log) :
    Follows (ledger cfg).Idle (modify f : StoreM cfg PUnit) :=
  .modify fun s => ⟨[], h s, by simp⟩

theorem idle_emit (h : e.cargo = none) : Follows (ledger cfg).Idle (emit e) :=
  .modify fun _ => ⟨[e], rfl, fun _ he => List.mem_singleton.mp he ▸ h⟩

theorem idle_changeBlk : Follows (ledger cfg).Idle (changeBlk site p after none) :=
  .modify fun s => ⟨[_], log_changed _ _ _ _ _, by simp [ledger, Event.cargo]⟩

theorem changeBlk_passes : (ledger cfg).Passes ∅ (changeBlk site p after handed)
      fun _ => {c | handed.bind site.cargo = some c} := by
  intro old held s hs u s' h
  obtain rfl := changeBlk_eq_ok.mp h
  refine hs.cons (log_changed _ _ _ _ _) (fun x hx => .inl hx) fun x hx => ?_
  exact .inl (.inr (hx.resolve_left (Set.notMem_empty x)))

theorem takeOut_passes : (ledger cfg).Passes ∅ (takeOut site p blk handed)
      fun _ => {c | handed.bind site.cargo = some c} := by
  cases p with
  | temp => exact changeBlk_passes
  | way set w =>
    exact .get_bind fun s => .lift_bind fun _ _ =>
      .bind (.idle (idle_modify fun _ => rfl)) fun _ => changeBlk_passes

theorem takeOut_idle : Follows (ledger cfg).Idle (takeOut site p blk none) := by
  cases p with
  | temp => exact idle_changeBlk
  | way set w =>
    exact .bind .get fun _ => .bind .lift fun _ => .bind (idle_modify fun _ => rfl) fun _ =>
      idle_changeBlk

theorem emit_passes {sent : Set Cargo} (hplain : e.cargo = none) (hsends : ∀ c ∈ sent, e.Sends c) :
    (ledger cfg).Passes sent (emit e) fun _ => ∅ := by
  intro old held s hs u s' h
  obtain rfl := emit_eq_ok.mp h
  refine hs.cons rfl (fun x hx => ?_) fun x hx => ?_
  · rw [show (ledger cfg).takes e = none from hplain] at hx
    exact nomatch hx
  · exact hx.elim (fun hmem => .inr (hsends x hmem)) fun hmem => .inl (.inr hmem)

/-! ## Write-outs -/

theorem writebackBlk_passes : (ledger cfg).Passes ∅ (writebackBlk p) fun wb => {.written wb} :=
  .get_bind fun _ => .lift_bind fun _ _ => .bind changeBlk_passes fun _ =>
    .pure fun _ hpkt => (Option.some.inj hpkt).symm

/-- A flush sends its packet first and then cleans the block. -/
theorem writebackVisitor_passes : Settles cfg (writebackVisitor p) := by
  refine .get_bind fun s => .when (fun _ => .lift_bind fun _ _ => ?_) fun _ => subset_rfl
  intro old held t ht u t' h
  obtain ⟨_, _, hemit, hchange⟩ := bind_eq_ok.mp h
  obtain rfl := emit_eq_ok.mp hemit
  obtain rfl := changeBlk_eq_ok.mp hchange
  have hlog : (((t.record (.sentFunctional ((s.blk p).flushPkt cfg (s.setOf p)))).changed .flush p
      (s.blk p).clearDirty (some ((s.blk p).flushPkt cfg (s.setOf p))))).log =
      [.change .flush (t.blk p) (s.blk p).clearDirty
          (some ((s.blk p).flushPkt cfg (s.setOf p))),
        .sentFunctional ((s.blk p).flushPkt cfg (s.setOf p))] ++ t.log := by
    rw [log_changed, blk_record]
    rfl
  refine ht.append hlog (fun e he x hx => .inr ?_) fun x hx => .inl hx
  refine ⟨_, List.mem_cons_of_mem _ List.mem_cons_self, ?_⟩
  rcases List.mem_cons.mp he with rfl | he
  · obtain rfl := Option.some.inj hx
    exact rfl
  · obtain rfl := List.mem_singleton.mp he
    exact nomatch hx

theorem invalidateVisitor_idle : Follows (ledger cfg).Idle (invalidateVisitor p) :=
  .bind .get fun _ => .when fun _ => .bind .lift fun _ => takeOut_idle

theorem forEachBlk_passes {visitor : BlkPtr cfg.assoc → StoreM cfg Unit}
    (h : ∀ p, Settles cfg (visitor p)) :
    Settles cfg (forEachBlk visitor) :=
  .rounds fun _ => .rounds fun _ => h _

theorem uncacheableFlush_passes (pkt : Packet) : Settles cfg (uncacheableFlush pkt) := by
  refine .bind (.idle (.when fun _ => idle_modify fun _ => rfl)) fun _ =>
    .bind (.idle (.bind .get fun _ => .pure)) fun hit => ?_
  cases hit with
  | none => exact .pure subset_rfl
  | some w => exact .bind writebackVisitor_passes fun _ => .idle invalidateVisitor_idle

/-! ## Requests, fills and snoops -/

variable {pkt : Packet}

/-- A served request carries the line away when mem-inhibit is set on it. -/
theorem satisfyCpuSideRequest_passes {deferred downgrade : Bool} :
    (ledger cfg).Passes ∅ (satisfyCpuSideRequest pkt p deferred downgrade)
      fun r => {c | c = .served r ∧ (pkt.memInhibit = false → pkt.isRequest = true →
        r.needsResponse = true)} := by
  refine .get_bind fun s => .lift_bind fun served hserve => ?_
  have hheld : {c | (if served.pkt.memInhibit then some served.pkt else none).bind
        (Site.request pkt).cargo = some c} ⊆
      {c | c = .served served.pkt ∧ (pkt.memInhibit = false → pkt.isRequest = true →
        served.pkt.needsResponse = true)} := by
    rintro x hx
    cases hinhibit : served.pkt.memInhibit with
    | false => simp [hinhibit] at hx
    | true =>
      refine ⟨by simpa [hinhibit, Site.cargo, eq_comm] using hx, fun hno hreq => ?_⟩
      rcases serve_inhibits hserve with heq | ⟨hread, hcmd⟩
      · rw [hinhibit, hno] at heq
        exact Bool.noConfusion heq
      · rw [Packet.needsResponse, hcmd]
        exact needsResponse_of_read hread hreq
  exact .ite (fun _ => .bind takeOut_passes fun _ => .pure hheld)
    fun _ => .bind changeBlk_passes fun _ => .pure hheld

variable {mq : MSHRQueue}

theorem allocateBlock_passes {addr : Addr} : (ledger cfg).Passes ∅
      (allocateBlock mq guest addr)
      fun r => writtenOf r.2 := by
  refine .get_bind fun s => .lift_bind fun victim _ => .bind (.idle (idle_emit rfl)) fun _ =>
    .ite (fun _ => ?_) fun _ => .pure (Set.empty_subset _)
  generalize mq.findMatch _ _ _ = found
  cases found with
  | some i =>
    exact .lift_bind fun _ _ => .lift_bind fun _ _ => .pure (Set.empty_subset _)
  | none =>
    refine .ite (fun _ => .bind writebackBlk_passes fun wb => .pure ?_)
      fun _ => .pure (Set.empty_subset _)
    exact fun c hc => ⟨wb, List.mem_singleton_self wb, hc⟩

theorem insertBlock_idle {w : Fin cfg.assoc} :
    Follows (ledger cfg).Idle (insertBlock guest pkt w) :=
  .bind .get fun _ => .bind .lift fun _ => .bind (idle_modify fun _ => rfl) fun _ =>
    .bind (idle_emit rfl) fun _ => idle_changeBlk

theorem useTempBlock_idle : Follows (ledger cfg).Idle (useTempBlock pkt) :=
  .bind .get fun _ => .bind .lift fun _ => .bind (idle_modify fun _ => rfl) fun _ =>
    idle_changeBlk

theorem fillPlace_passes {hit : Option (BlkPtr cfg.assoc)} :
    (ledger cfg).Passes ∅ (fillPlace mq pkt hit) fun r => writtenOf r.2 := by
  cases hit with
  | some q =>
    exact .get_bind fun _ => .lift_bind fun _ _ => .lift_bind fun _ _ => .pure (Set.empty_subset _)
  | none =>
    refine .lift_bind fun _ _ => .bind allocateBlock_passes fun r => ?_
    obtain ⟨dest, writebacks⟩ := r
    cases dest with
    | some w => exact .bind (.idle insertBlock_idle) fun _ => .pure subset_rfl
    | none => exact .bind (.idle useTempBlock_idle) fun _ => .pure subset_rfl

theorem handleFill_passes {hit : Option (BlkPtr cfg.assoc)} :
    (ledger cfg).Passes ∅ (handleFill mq pkt hit now) fun r => writtenOf r.2 :=
  .bind fillPlace_passes fun _ => .get_bind fun _ => .lift_bind fun _ _ => .lift_bind fun _ _ =>
    .bind (.idle idle_changeBlk) fun _ => .pure subset_rfl

/-- The packets that `access` leaves to its caller: the writebacks, and the request
if it was served. -/
def Accessed.held (pkt : Packet) (r : Accessed cfg) : Set Cargo :=
  {c | (∃ wb ∈ r.writebacks, c = .written wb) ∨ r.satisfied = true ∧ c = .served r.pkt ∧
    (pkt.memInhibit = false → pkt.isRequest = true → r.pkt.needsResponse = true)}

variable {hit : Option (Fin cfg.assoc)}

theorem writebackPlace_passes :
    (ledger cfg).Passes ∅ (writebackPlace mq pkt hit) fun r => writtenOf r.2 := by
  cases hit with
  | some w => exact .pure (Set.empty_subset _)
  | none =>
    refine .bind allocateBlock_passes fun r => ?_
    obtain ⟨dest, writebacks⟩ := r
    cases dest with
    | none => exact .pure subset_rfl
    | some w =>
      exact .bind (.idle insertBlock_idle) fun _ => .bind (.idle (idle_emit rfl)) fun _ =>
        .get_bind fun _ => .bind (.idle idle_changeBlk) fun _ => .pure subset_rfl

theorem accessWriteback_passes :
    (ledger cfg).Passes ∅ (accessWriteback mq pkt hit lat) fun r => r.held pkt := by
  refine .lift_bind fun _ _ => .bind writebackPlace_passes fun r => .lift_bind fun _ _ => ?_
  obtain ⟨dest, writebacks⟩ := r
  cases dest with
  | none => exact .pure fun x hx => .inl hx
  | some w =>
    exact .get_bind fun _ => .lift_bind fun _ _ => .bind (.idle idle_changeBlk) fun _ =>
      .lift_bind fun _ _ => .pure fun x hx => .inl hx

theorem accessMiss_passes : (ledger cfg).Passes ∅ (accessMiss mq pkt hit lat) fun r => r.held pkt :=
  .ite (fun _ => accessWriteback_passes) fun _ => .lift_bind fun _ _ =>
    .pure (Set.empty_subset _)

theorem access_passes : (ledger cfg).Passes ∅ (access mq pkt now) fun r => r.held pkt := by
  refine .ite (fun _ => .bind (uncacheableFlush_passes pkt) fun _ => .pure (Set.empty_subset _))
    fun _ => .get_bind fun s => ?_
  generalize s.tags.accessBlock pkt.guestID pkt.addr pkt.isSecure now = found
  obtain ⟨tags, hit, lat⟩ := found
  refine .bind (.idle (idle_modify fun _ => rfl)) fun _ => ?_
  cases hit with
  | none => exact accessMiss_passes
  | some w =>
    refine .ite (fun _ => .lift_bind fun _ _ => .bind satisfyCpuSideRequest_passes fun r => ?_)
      fun _ => accessMiss_passes
    exact .pure fun x hx => .inr ⟨rfl, hx⟩

theorem snooped_of_cargo {c : Cargo} (h : handed.bind (Site.snoop pkt invalidate).cargo = some c) :
    ∃ resp, handed = some resp ∧ c = .snooped resp := by
  obtain ⟨resp, hresp, hc⟩ := Option.bind_eq_some_iff.mp h
  exact ⟨resp, hresp, (Option.some.inj hc).symm⟩

theorem snoopHit_passes {needsExclusive isTiming isDeferred pendingInval : Bool} :
    (ledger cfg).Passes ∅
      (snoopHit pkt p invalidate needsExclusive isTiming isDeferred pendingInval)
      fun r => {c | ∃ resp, r.2 = some resp ∧ c = .snooped resp} :=
  .get_bind fun _ => .lift_bind fun _ _ => .ite
    (fun _ => .bind takeOut_passes fun _ => .pure fun _ hc => snooped_of_cargo hc)
    fun _ => .bind changeBlk_passes fun _ => .pure fun _ hc => snooped_of_cargo hc

end StoreM

variable {isFill : Bool} {initialOffset : Nat}

namespace CacheM

open Cache

variable {inp : Set Cargo} {q : QueueIndex} {i : Nat} {wasFull : Bool}

/-! ## Timing mode -/

theorem onStore_passes {m : StoreM cfg α} {out : α → Set Cargo}
    (h : (Store.ledger cfg).Passes inp m out) : (ledger cfg).Passes inp (onStore m) out :=
  .zoom h rfl rfl (fun _ => rfl) fun _ _ => rfl

theorem idle_onStore {m : StoreM cfg α} (h : Follows (Store.ledger cfg).Idle m) :
    Follows (ledger cfg).Idle (onStore m) := by
  intro s a s' hm
  obtain ⟨t, ht, rfl⟩ := onStore_eq_ok.mp hm
  exact h s.store a t ht

theorem idle_of_quiet {m : CacheM cfg α} (h : Follows Quiet m) : Follows (ledger cfg).Idle m := by
  intro s a s' hm
  obtain ⟨es, hplain, heq⟩ := h s a s' hm
  refine ⟨es, congrArg Store.log heq, fun e he => ?_⟩
  have hplain := hplain e he
  cases e with
  | change => exact Bool.noConfusion hplain
  | _ => rfl

theorem passes_of_quiet {m : CacheM cfg α} (h : Follows Quiet m) :
    (ledger cfg).Passes inp m fun _ => inp :=
  .idle (idle_of_quiet h)

theorem modify_passes {f : Cache cfg → Cache cfg} (h : ∀ s, (f s).store = s.store) :
    (ledger cfg).Passes inp (modify f : CacheM cfg PUnit) fun _ => inp :=
  passes_of_quiet (quiet_modify h)

theorem allocateWriteBuffer_passes (pkt : Packet) (time : Tick) :
    (ledger cfg).Passes {.written pkt} (allocateWriteBuffer pkt time)
      fun _ => ∅ := by
  refine .lift_bind fun _ _ => .get_bind fun _ =>
    .bind (onStore_passes (StoreM.emit_passes rfl ?_)) fun _ =>
      passes_of_quiet (allocateBufferInternal_quiet _ _ _ _ _)
  rintro _ rfl
  exact rfl

theorem schedTimingResp_passes {resp : Packet} {tick : Tick}
    (h : ∀ c ∈ inp, ∃ pkt, c = .served pkt ∧ resp.MadeFrom pkt) :
    (ledger cfg).Passes inp (schedTimingResp resp tick) fun _ => ∅ := by
  refine .get_bind fun _ => .lift_bind fun _ _ =>
    .bind (modify_passes fun _ => rfl) fun _ =>
      onStore_passes (StoreM.emit_passes rfl fun c hc => ?_)
  obtain ⟨pkt, rfl, hmade⟩ := h c hc
  exact hmade

theorem schedTimingSnoopResp_passes (resp : Packet) (tick : Tick) :
    (ledger cfg).Passes {.snooped resp} (schedTimingSnoopResp resp tick)
      fun _ => ∅ := by
  refine .get_bind fun _ => .lift_bind fun _ _ =>
    .bind (modify_passes fun _ => rfl) fun _ =>
      onStore_passes (StoreM.emit_passes rfl ?_)
  rintro _ rfl
  exact madeFrom_refl resp

theorem startMiss_idle (pkt : Packet) (hit : Option (Fin cfg.assoc)) (time : Tick) :
    Follows (ledger cfg).Idle (startMiss pkt hit time) := by
  refine .bind .lift fun _ => .ite (fun _ => idle_of_quiet (allocateWriteBuffer_quiet _ _))
    fun _ => .bind .get fun s => ?_
  generalize validBlk s (hit.map (BlkPtr.way (cfg.extractSet pkt.addr))) = found
  cases found with
  | none => exact idle_of_quiet (allocateMissBuffer_quiet _ _)
  | some p =>
    exact .bind .lift fun _ => .bind (idle_onStore StoreM.idle_changeBlk) fun _ =>
      idle_of_quiet (allocateMissBuffer_quiet _ _)

theorem timingMiss_idle (pkt : Packet) (hit : Option (Fin cfg.assoc)) (time : Tick) :
    Follows (ledger cfg).Idle (timingMiss pkt hit time) := by
  refine .bind .get fun s => ?_
  generalize s.mshrQueue.findMatch _ _ _ = found
  cases found with
  | some i => exact idle_of_quiet (joinMiss_quiet _ _ _)
  | none => exact startMiss_idle _ _ _

theorem timingHit_passes (pkt : Packet) (lat : Nat) :
    (ledger cfg).Passes {c | c = .served pkt ∧ pkt.needsResponse = true}
      (timingHit pkt lat) fun _ => ∅ := by
  refine .when (fun _ => .get_bind fun _ => .lift_bind fun resp hresp => ?_) fun hno => ?_
  · refine schedTimingResp_passes ?_
    rintro _ ⟨rfl, _⟩
    obtain ⟨_, _, _, _, rfl⟩ := madeFrom_makeResponse hresp
    exact ⟨pkt, rfl, _, _, _, _, rfl⟩
  · rintro x ⟨_, hneeds⟩
    rw [hno] at hneeds
    exact Bool.noConfusion hneeds

theorem timingUncacheable_passes (pkt : Packet) (time : Tick) :
    Settles cfg (timingUncacheable pkt time) :=
  .bind (onStore_passes (StoreM.uncacheableFlush_passes pkt)) fun _ => .ite
    (fun _ => .bind (passes_of_quiet (allocateWriteBuffer_quiet _ _)) fun _ => .idle .lift)
    fun _ => .bind (passes_of_quiet (allocateUncachedReadBuffer_quiet _ _)) fun _ =>
      .idle .lift

variable {pkt : Packet}

theorem timingCacheable_passes (time : Tick) (hreq : pkt.isRequest = true)
    (hinhibit : pkt.memInhibit = false) :
    Settles cfg (timingCacheable pkt time) := by
  refine .get_bind fun _ => .bind (onStore_passes StoreM.access_passes) fun r =>
    .ite (fun _ => ?_) fun hmiss => ?_
  · have hhit : (ledger cfg).Passes (r.held pkt) (timingHit r.pkt r.lat)
        fun _ => writtenOf r.writebacks := by
      refine ((timingHit_passes r.pkt r.lat).frame (writtenOf r.writebacks)).weaken ?_ fun _ => ?_
      · rintro x (hwb | ⟨_, rfl, hneeds⟩)
        · exact .inr hwb
        · exact .inl ⟨rfl, hneeds hinhibit hreq⟩
      · rw [Set.empty_union]
    exact hhit.bind fun _ => .forEach fun wb => allocateWriteBuffer_passes wb time
  · have hheld : r.held pkt ⊆ writtenOf r.writebacks := by
      rintro x (hwb | ⟨hsat, _⟩)
      · exact hwb
      · exact absurd hsat hmiss
    exact .bind ((Ledger.Passes.idle (timingMiss_idle _ _ _)).weaken hheld fun _ => subset_rfl)
      fun _ => .forEach fun wb => allocateWriteBuffer_passes wb time

theorem recvTimingReq_passes (pkt : Packet) : Settles cfg (recvTimingReq pkt) := by
  refine .get_bind fun s => .lift_bind fun _ hreq => .ite
    (fun _ => passes_of_quiet (quiet_emit rfl)) fun _ => .ite
      (fun _ => passes_of_quiet (timingInhibited_silent pkt).of_along) fun hinhibit => .ite
        (fun _ => timingUncacheable_passes _ _) fun _ => ?_
  exact timingCacheable_passes _ (assert_eq_ok.mp hreq) (Bool.eq_false_iff.mpr hinhibit)

theorem cpuSideReq_passes (pkt : Packet) : Settles cfg (cpuSideReq pkt) :=
  .get_bind fun _ => .ite
    (fun _ => .lift_bind fun _ _ => .bind (modify_passes fun _ => rfl) fun _ =>
      .pure subset_rfl)
    fun _ => .bind (recvTimingReq_passes pkt) fun _ => .pure subset_rfl

/-! ## Snoops -/

variable {blk : Option (BlkPtr cfg.assoc)}

theorem snoopBlk_passes {fwd : Packet} {isTiming isDeferred pendingInval : Bool}
    {reply : Tick → Packet → CacheM cfg Unit}
    (hreply : ∀ now r, (ledger cfg).Passes {.snooped r} (reply now r) fun _ => ∅) :
    Settles cfg (snoopBlk fwd pkt blk isTiming isDeferred pendingInval reply) := by
  refine .get_bind fun s => ?_
  generalize validBlk s blk = found
  cases found with
  | none => exact .pure subset_rfl
  | some p =>
    refine .bind (onStore_passes StoreM.snoopHit_passes) fun r => ?_
    obtain ⟨left, response⟩ := r
    cases response with
    | none => exact .pure fun c ⟨_, hresp, _⟩ => nomatch hresp
    | some resp =>
      refine ((hreply _ resp).weaken ?_ fun _ => subset_rfl).bind fun _ => .pure subset_rfl
      rintro c ⟨resp', hresp, rfl⟩
      obtain rfl := Option.some.inj hresp
      exact rfl

theorem handleTimingSnoop_passes {isDeferred pendingInval : Bool} {above : SnoopAnswer} :
    Settles cfg (handleTimingSnoop pkt blk isDeferred pendingInval above) :=
  .lift_bind fun _ _ => .lift_bind fun _ _ => snoopBlk_passes fun _ _ =>
    schedTimingSnoopResp_passes _ _

theorem handleAtomicSnoop_passes {above : AtomicAnswer} :
    Settles cfg (handleAtomicSnoop pkt blk above) := by
  refine .lift_bind fun _ _ => .lift_bind fun _ _ => snoopBlk_passes fun _ resp =>
    onStore_passes (StoreM.emit_passes rfl ?_)
  rintro _ rfl
  exact madeFrom_refl resp

theorem processTimingSnoop_passes (pkt : Packet) (above : SnoopAnswer) :
    Settles cfg (processTimingSnoop pkt above) := by
  refine .lift_bind fun _ _ => .ite (fun _ => .get_bind fun s => ?_) fun _ => .pure subset_rfl
  generalize s.mshrQueue.findMatch _ _ _ = found
  cases found with
  | none =>
    exact .bind (passes_of_quiet (snoopWriteBuffer_quiet _)) fun _ =>
      handleTimingSnoop_passes
  | some i =>
    refine .bind (modify_passes fun _ => rfl) fun _ => ?_
    exact .ite (fun _ => .pure subset_rfl) fun _ =>
      .bind (passes_of_quiet (snoopWriteBuffer_quiet _)) fun _ => handleTimingSnoop_passes

theorem recvTimingSnoopReq_passes (pkt : Packet) (above : SnoopAnswer) :
    Settles cfg (recvTimingSnoopReq pkt above) :=
  .ite (fun _ => .pure subset_rfl) fun _ => processTimingSnoop_passes pkt above

theorem recvAtomicSnoop_passes (pkt : Packet) (above : AtomicAnswer) :
    Settles cfg (recvAtomicSnoop pkt above) :=
  .lift_bind fun _ _ => .ite (fun _ => .pure subset_rfl) fun _ => .ite
    (fun _ => .pure subset_rfl) fun _ => .get_bind fun _ => handleAtomicSnoop_passes

/-! ## Responses -/

theorem answerTarget_passes {target : Packet} :
    (ledger cfg).Passes ∅ (answerTarget m pkt isFill blk initialOffset target)
      fun r => {c | c = .served r.1} := by
  refine .ite (fun _ => .lift_bind fun _ _ => ?_) fun _ => .ite
    (fun _ => .lift_bind fun _ _ => .pure (Set.empty_subset _)) fun _ => .ite
      (fun _ => .lift_bind fun _ _ => .lift_bind fun _ _ => .pure (Set.empty_subset _))
      fun _ => .pure (Set.empty_subset _)
  cases blk with
  | none => exact (Ledger.Passes.idle .lift).weaken subset_rfl fun _ => Set.empty_subset _
  | some p =>
    exact .bind (onStore_passes StoreM.satisfyCpuSideRequest_passes) fun _ =>
      .lift_bind fun _ _ => .lift_bind fun _ _ => .pure fun _ hx => hx.1

theorem markPrefetched_idle (blk : Option (BlkPtr cfg.assoc)) :
    Follows (ledger cfg).Idle (markPrefetched blk) := by
  cases blk with
  | none => exact .pure
  | some p => exact .bind .get fun _ => idle_onStore StoreM.idle_changeBlk

theorem completeTarget_passes {above : SnoopAnswer} {t : Target} :
    Settles cfg (completeTarget m pkt isFill blk initialOffset above t) := by
  unfold completeTarget
  cases t.source with
  | fromCPU =>
    refine .bind answerTarget_passes fun r => .lift_bind fun made hmade =>
      .lift_bind fun resp hresp => .get_bind fun s => schedTimingResp_passes ?_
    rintro _ rfl
    obtain ⟨_, _, _, _, rfl⟩ := madeFrom_respondCmd (madeFrom_makeResponse hmade) hresp
    exact ⟨r.1, rfl, _, _, _, _, rfl⟩
  | fromPrefetcher => exact .lift_bind fun _ _ => .idle (markPrefetched_idle blk)
  | fromSnoop =>
    exact .lift_bind fun _ _ => .lift_bind fun _ _ => .lift_bind fun _ _ =>
      .bind handleTimingSnoop_passes fun _ => .pure subset_rfl

theorem completeTargets_passes {above : Nat → SnoopAnswer} {ts : List Target} :
    Settles cfg (completeTargets m pkt isFill blk initialOffset above ts) := by
  induction ts with
  | nil => exact .pure subset_rfl
  | cons t ts ih => exact completeTarget_passes.bind fun _ => ih

theorem settleBlk_idle : Follows (ledger cfg).Idle (settleBlk m pkt blk) := by
  refine .bind .get fun s => ?_
  generalize validBlk s blk = found
  cases found with
  | none => exact .pure
  | some p =>
    exact .bind .lift fun _ => .ite
      (fun _ => .bind .lift fun _ => idle_onStore StoreM.takeOut_idle)
      fun _ => .bind .lift fun _ => .when fun _ => idle_onStore StoreM.idle_changeBlk

theorem retireMSHR_idle : Follows (ledger cfg).Idle (retireMSHR q i pkt blk wasFull) := by
  have hmodify : ∀ mq, Follows (ledger cfg).Idle (modify fun s : Cache cfg => s.setQueue q mq) :=
    fun mq => idle_of_quiet (quiet_modify fun s => setQueue_store s q mq)
  refine .bind .get fun s => .bind .lift fun promoted => ?_
  cases promoted with
  | none =>
    exact .bind .lift fun _ => .bind (hmodify _) fun _ => .when fun _ =>
      idle_of_quiet (clearBlocked_silent _).of_along
  | some m =>
    refine .bind ?_ fun _ => .bind .lift fun _ => .bind (hmodify _) fun _ =>
      idle_of_quiet (requestMemSideBus_silent _).of_along
    cases blk with
    | none => exact .pure
    | some p => exact .bind .get fun _ => idle_onStore StoreM.idle_changeBlk

theorem dropTempBlock_passes (blk : Option (BlkPtr cfg.assoc)) (time : Tick) :
    Settles cfg (dropTempBlock blk time) := by
  refine .when (fun _ => .get_bind fun _ => .bind (.when (fun _ => ?_) fun _ => subset_rfl)
    fun _ => .get_bind fun _ => .idle (idle_onStore StoreM.idle_changeBlk)) fun _ => subset_rfl
  exact .bind (onStore_passes StoreM.writebackBlk_passes) fun wb =>
    allocateWriteBuffer_passes wb time

theorem fillResponse_passes {hit : Option (BlkPtr cfg.assoc)} :
    (ledger cfg).Passes ∅ (fillResponse q i m pkt hit isFill) fun r => writtenOf r.2.2 := by
  refine .ite (fun _ => .lift_bind fun m' _ => ?_) fun _ => .pure (Set.empty_subset _)
  exact .bind (modify_passes fun s => setQueue_store s q _) fun _ =>
    .get_bind fun _ => .bind (onStore_passes StoreM.handleFill_passes) fun _ => .pure subset_rfl

theorem finishMSHR_passes {writebacks : List Packet} {time : Tick} :
    (ledger cfg).Passes (writtenOf writebacks)
      (finishMSHR q i m pkt blk writebacks wasFull time) fun _ => ∅ :=
  .bind (modify_passes fun s => setQueue_store s q _) fun _ =>
    .bind (.idle settleBlk_idle) fun _ => .bind (.idle retireMSHR_idle) fun _ =>
      .bind (.forEach fun wb => allocateWriteBuffer_passes wb time) fun _ =>
        dropTempBlock_passes blk time

theorem completeMSHR_passes (q : QueueIndex) (i : Nat) (pkt : Packet) (above : Nat → SnoopAnswer) :
    Settles cfg (completeMSHR q i pkt above) := by
  refine .get_bind fun s => .bind (passes_of_quiet (releaseTargets_silent q i).of_along) fun _ =>
    .lift_bind fun first _ => .lift_bind fun _ _ => .bind fillResponse_passes fun r => ?_
  -- the writebacks of the fill wait until the targets are answered
  exact .bind (.keeps completeTargets_passes) fun _ => finishMSHR_passes

theorem recvTimingResp_passes (pkt : Packet) (above : Nat → SnoopAnswer) :
    Settles cfg (recvTimingResp pkt above) := by
  intro old held s hs u s' h
  obtain ⟨_, q, i, _, _, hcomplete⟩ := recvTimingResp_cases h
  exact completeMSHR_passes q i pkt above old held s hs u s' hcomplete

theorem recvTimingSnoopResp_passes (pkt : Packet) (above : Nat → SnoopAnswer) :
    Settles cfg (recvTimingSnoopResp pkt above) := by
  refine .lift_bind fun _ _ => .lift_bind fun _ _ => ?_
  split
  · exact .get_bind fun _ => passes_of_quiet (schedTimingSnoopResp_silent _ _).of_along
  · exact .lift_bind fun _ _ => recvTimingResp_passes pkt above

/-! ## Issuing requests -/

theorem getTimingPacket_passes (above : Nat → SnoopAnswer) :
    Settles cfg (getTimingPacket above) := by
  refine .get_bind fun s => ?_
  generalize s.getNextMSHR = next
  cases next with
  | none => exact .pure subset_rfl
  | some qi =>
    obtain ⟨q, i⟩ := qi
    refine .lift_bind fun target _ => .ite
      (fun _ => .bind (recvTimingResp_passes _ above) fun _ => .pure subset_rfl) fun _ => .ite
        (fun _ => .lift_bind fun _ _ => .pure subset_rfl) fun _ => ?_
    exact .bind (passes_of_quiet (prefetchSnoop_quiet _ _ _ _)) fun _ => .ite
      (fun _ => .pure subset_rfl) fun _ =>
        .bind (passes_of_quiet (makeBusPacket_quiet _ _ _)) fun _ => .pure subset_rfl

theorem issue_passes (bus : BusAnswer) (above : Nat → SnoopAnswer) :
    Settles cfg (issue bus above) := by
  refine .bind (getTimingPacket_passes above) fun offered => ?_
  cases offered with
  | none => exact modify_passes fun _ => rfl
  | some offered =>
    exact .bind (modify_passes fun _ => rfl) fun _ =>
      .when (fun _ => passes_of_quiet (accepted_quiet _ _ _)) fun _ => subset_rfl

theorem sendDeferredPacket_passes (bus : BusAnswer) (above : Nat → SnoopAnswer) :
    Settles cfg (sendDeferredPacket bus above) :=
  .get_bind fun _ => .bind
    (.ite (fun _ => passes_of_quiet (sendQueued_silent bus).of_along) fun _ =>
      issue_passes bus above)
    fun _ => .get_bind fun _ =>
      .when (fun _ => modify_passes fun _ => rfl) fun _ => subset_rfl

/-! ## Atomic mode -/

theorem atomicInhibited_idle (pkt : Packet) : Follows (ledger cfg).Idle (atomicInhibited pkt) := by
  refine .bind .lift fun _ => .when fun _ => .bind .get fun s =>
    .bind ?_ fun _ => idle_of_quiet (quiet_emit rfl)
  generalize validBlk s _ = found
  cases found with
  | none => exact .pure
  | some p => exact idle_onStore StoreM.takeOut_idle

theorem atomicReply_passes {bus : Packet} {hit : Option (BlkPtr cfg.assoc)} :
    (ledger cfg).Passes ∅ (atomicReply pkt bus hit) fun r =>
      {c | c = .served r.1 ∨ ∃ wb ∈ r.2, c = .written wb} := by
  refine .ite (fun _ => .lift_bind fun _ _ => .ite
    (fun _ => .lift_bind fun _ _ => .pure (Set.empty_subset _)) fun _ => .ite
      (fun _ => .get_bind fun s => .bind (onStore_passes StoreM.handleFill_passes) fun r => ?_)
      fun _ => .lift_bind fun _ _ => .pure (Set.empty_subset _))
    fun _ => .pure (Set.empty_subset _)
  refine .bind (.beside (onStore_passes StoreM.satisfyCpuSideRequest_passes)) fun answered =>
    .pure ?_
  rintro x (⟨hx, _⟩ | hx)
  · exact .inl hx
  · exact .inr hx

theorem atomicMiss_passes {hit : Option (Fin cfg.assoc)} {reply : Reply} :
    (ledger cfg).Passes ∅ (atomicMiss pkt hit reply) fun r =>
      {c | c = .served r.1 ∨ ∃ wb ∈ r.2, c = .written wb} := by
  refine .get_bind fun s => .lift_bind fun bus _ => ?_
  cases bus with
  | none =>
    exact .bind (passes_of_quiet (quiet_emit rfl)) fun _ => .pure (Set.empty_subset _)
  | some bus => exact .bind (passes_of_quiet (quiet_emit rfl)) fun _ => atomicReply_passes

theorem atomicFinish_passes (pkt : Packet) (writebacks : List Packet) :
    (ledger cfg).Passes {c | c = .served pkt ∨ ∃ wb ∈ writebacks, c = .written wb}
      (atomicFinish pkt writebacks) fun _ => ∅ := by
  have hsend : ∀ wb, (ledger cfg).Passes {.written wb}
      (onStore (.emit (.sentAtomic wb))) fun _ => ∅ := by
    refine fun wb => onStore_passes (StoreM.emit_passes rfl ?_)
    rintro _ rfl
    exact rfl
  have hwritebacks : (ledger cfg).Passes {c | c = .served pkt ∨ ∃ wb ∈ writebacks, c = .written wb}
      (forEach (fun wb => onStore (.emit (.sentAtomic wb))) writebacks)
      fun _ => {.served pkt} := by
    refine ((Ledger.Passes.forEach hsend).frame {.served pkt}).weaken
      (fun c hc => hc.symm) fun _ => ?_
    rw [Set.empty_union]
  refine hwritebacks.bind fun _ => .lift_bind fun resp hresp =>
    .bind (onStore_passes (StoreM.emit_passes rfl ?_)) fun _ => .pure subset_rfl
  rintro _ rfl
  rcases except_ite_eq_ok.mp hresp with ⟨_, hmake⟩ | ⟨_, hsame⟩
  · exact madeFrom_makeResponse hmake
  · rw [← except_pure_eq_ok.mp hsame]
    exact madeFrom_refl _

theorem recvAtomic_passes (pkt : Packet) (reply : Reply) : Settles cfg (recvAtomic pkt reply) := by
  refine .ite (fun _ => .bind (passes_of_quiet (quiet_emit rfl)) fun _ => .pure subset_rfl)
    fun _ => .ite (fun _ => .bind (.idle (atomicInhibited_idle pkt)) fun _ => .pure subset_rfl)
      fun _ => .get_bind fun s => .bind (onStore_passes StoreM.access_passes) fun r =>
        .ite (fun _ => ?_) fun hmiss => ?_
  · refine (atomicFinish_passes r.pkt r.writebacks).weaken ?_ fun _ => subset_rfl
    rintro x (hwb | ⟨_, hx, _⟩)
    · exact .inr hwb
    · exact .inl hx
  · have hheld : r.held pkt ⊆ writtenOf r.writebacks := by
      rintro x (hwb | ⟨hsat, _⟩)
      · exact hwb
      · exact absurd hsat hmiss
    refine (Ledger.Passes.beside atomicMiss_passes).weaken hheld (fun _ => subset_rfl) |>.bind
      fun answered => ?_
    refine (atomicFinish_passes _ _).weaken ?_ fun _ => subset_rfl
    rintro c ((hc | ⟨wb, hwb, hc⟩) | ⟨wb, hwb, hc⟩)
    · exact .inl hc
    · exact .inr ⟨wb, List.mem_append_right _ hwb, hc⟩
    · exact .inr ⟨wb, List.mem_append_left _ hwb, hc⟩

/-! ## Calls -/

theorem reprogram_idle (set : LRU cfg → Except Abort (LRU cfg)) :
    Follows (ledger cfg).Idle (reprogram set) :=
  .bind .get fun _ => .bind .lift fun _ => .modify fun _ => ⟨[], rfl, by simp⟩

theorem call_passes (input : Input) : Settles cfg (call input) := by
  cases input with
  | timingReq pkt => exact .bind (cpuSideReq_passes pkt) fun _ => .pure subset_rfl
  | timingResp k reply above =>
    intro old held s hs u s' h
    obtain ⟨pkt, _, hcall⟩ := timingResp_cases h
    have hs' : (ledger cfg).Settled old (∅ ∪ held)
        { s with outstanding := s.outstanding.eraseIdx k } := hs
    exact recvTimingResp_passes _ above old held _ hs' u s' hcall
  | timingSnoopReq pkt above =>
    exact .bind (recvTimingSnoopReq_passes pkt above) fun _ => .pure subset_rfl
  | timingSnoopResp pkt above => exact recvTimingSnoopResp_passes pkt above
  | memSend bus above =>
    exact .get_bind fun _ => .lift_bind fun _ _ => .lift_bind fun _ _ =>
      .bind (modify_passes fun _ => rfl) fun _ => sendDeferredPacket_passes bus above
  | memRetry bus above =>
    exact .get_bind fun _ => .lift_bind fun _ _ => sendDeferredPacket_passes bus above
  | cpuSend accepts =>
    exact .get_bind fun _ => .lift_bind fun _ _ => .lift_bind fun _ _ =>
      .bind (modify_passes fun _ => rfl) fun _ =>
        passes_of_quiet (cpuSendDeferred_silent accepts).of_along
  | cpuRetry accepts =>
    exact .get_bind fun _ => .lift_bind fun _ _ =>
      passes_of_quiet (cpuSendDeferred_silent accepts).of_along
  | retryEvent =>
    exact .get_bind fun _ => .lift_bind fun _ _ => modify_passes fun _ => rfl
  | atomicReq pkt reply => exact .bind (recvAtomic_passes pkt reply) fun _ => .pure subset_rfl
  | atomicSnoop pkt above =>
    exact .bind (recvAtomicSnoop_passes pkt above) fun _ => .pure subset_rfl
  | memWriteback =>
    exact onStore_passes (StoreM.forEachBlk_passes fun _ => StoreM.writebackVisitor_passes)
  | memInvalidate =>
    exact onStore_passes (StoreM.forEachBlk_passes fun _ => .idle StoreM.invalidateVisitor_idle)
  | setWaymask ldomID destAddr data => exact .idle (reprogram_idle (·.set ldomID destAddr data))
  | setByTag tag idx mask => exact .idle (reprogram_idle (·.setByTag tag idx mask))
  | downstreamPending q i pending =>
    exact .get_bind fun _ => .lift_bind fun _ _ =>
      modify_passes fun s => setQueue_store s q _
  | advance tick =>
    exact .get_bind fun _ => .lift_bind fun _ _ => .lift_bind fun _ _ =>
      modify_passes fun _ => rfl

end CacheM

def NewEvents (s s' : Cache cfg) (new : List Event) : Prop := s'.store.log = new ++ s.store.log

/-- What leaves the cache during a call is sent before the call returns. -/
theorem call_settled {input : Input} {s s' : Cache cfg} (h : CacheM.call input s = .ok ((), s')) :
    ∃ new, NewEvents s s' new ∧ ∀ e ∈ new, ∀ c, e.cargo = some c →
      ∃ sent ∈ new, sent.Sends c := by
  obtain ⟨new, heq, hnew⟩ := Ledger.Passes.run h (CacheM.call_passes input)
  exact ⟨new, heq, fun e he c hc => (hnew e he c hc).resolve_left (Set.notMem_empty c)⟩

/-- What left the cache in a run was sent. -/
theorem Cache.Reachable.settled {P : Input → Prop} {s : Cache cfg} (h : Cache.Reachable P s) :
    ∀ e ∈ s.store.log, ∀ c, e.cargo = some c → ∃ sent ∈ s.store.log, sent.Sends c := by
  refine h.induct (I := fun s => ∀ e ∈ s.store.log, ∀ c, e.cargo = some c →
      ∃ sent ∈ s.store.log, sent.Sends c) (fun _ => ?_) fun s input s' _ ih _ hcall => ?_
  · exact fun e he => absurd he List.not_mem_nil
  · obtain ⟨new, hlog, hnew⟩ := call_settled hcall
    intro e he c hc
    rw [show _ = new ++ _ from hlog] at he ⊢
    rcases List.mem_append.mp he with he | he
    · obtain ⟨sent, hsent, hsends⟩ := hnew e he c hc
      exact ⟨sent, List.mem_append_left _ hsent, hsends⟩
    · obtain ⟨sent, hsent, hsends⟩ := ih e he c hc
      exact ⟨sent, List.mem_append_right _ hsent, hsends⟩

end PardG5V
