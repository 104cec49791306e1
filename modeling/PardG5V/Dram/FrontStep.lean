import Mathlib.Data.List.Perm.Basic
import PardG5V.Dram.Front

/-!
# Every input is a step of the front

The events of the controller as steps of `FrontStep`. The commands to the banks leave the front
alone, except that an access takes the data bus and is counted.
-/

namespace PardG5V

open Prog BankLemmas MachineLemmas

variable {cfg : DramConfig}

namespace Dram.Ignores

variable {β : Type} {v : Dram cfg → β} (h : Ignores v) (s : Dram cfg)

include h

theorem sleeping : v s.sleeping = v s := by
  unfold Dram.sleeping
  split
  · exact h.loop s _ _ _ _ _
  · rfl

theorem again : v s.again = v s := by
  unfold Dram.again Dram.retryWrite
  split
  · exact (h.retry _).trans (h.loop s _ _ _ _ _)
  · exact h.loop s _ _ _ _ _

theorem retryRead : v s.retryRead = v s := by
  unfold Dram.retryRead
  split
  · exact (h.retry _).trans (h.loop s _ _ _ _ _)
  · rfl

theorem nextResponse : v s.nextResponse = v s := by
  unfold Dram.nextResponse
  split
  · exact h.loop s _ _ _ _ _
  · exact h.drainDone s

end Dram.Ignores

namespace FrontLemmas

variable {s s' : Dram cfg} {pkt : Packet} {readyTime cmdAt : Tick} {others : List (DRAMPacket cfg)}
  {again : Bool} {s₁ : Dram cfg}

/-! ## Commands -/

theorem check_front {abort : DramAbort} {c : Bool} :
    Follows Dram.SameFront (DramM.check abort c : DramM cfg Unit) := by
  intro s u s' h
  obtain ⟨_, rfl⟩ := DramM.check_eq_ok.mp h
  rfl

/-- What only looks at the front treats states with the same front alike. -/
theorem sameFront_map {f : Dram cfg → Dram cfg} {g : DramFront cfg → DramFront cfg}
    (hf : ∀ s : Dram cfg, (f s).front = g s.front) (h : s.SameFront s') :
    (f s).SameFront (f s') := by
  show (f s').front = (f s).front
  rw [hf, hf, show s'.front = s.front from h]

theorem noteWindow_front (s : Dram cfg) (rank : Fin cfg.ranksPerChannel) (tick : Tick) :
    s.SameFront (s.noteWindow rank tick) := by
  unfold Dram.noteWindow
  dsimp only
  split <;> rfl

variable {buf : RowBuf cfg} {row : Row} {tick : Tick}

theorem activateBank_front : Follows Dram.SameFront (activateBank tick buf row) := by
  refine .bind .get fun _ => .bind check_front fun _ => .bind check_front fun _ => ?_
  refine .bind check_front fun _ => .bind (.modify fun _ => rfl) fun _ => .bind .get fun _ => ?_
  refine .bind check_front fun _ => .when fun _ => .bind check_front fun _ => .modify fun s => ?_
  exact trans_of Dram.SameFront (noteWindow_front s buf.bank.rank tick) rfl

theorem prechargeBank_front : Follows Dram.SameFront (prechargeBank buf tick) := by
  refine .bind .get fun _ => .bind check_front fun _ => .bind check_front fun _ => ?_
  exact .bind check_front fun _ => .modify fun _ => rfl

theorem emit_front {e : DramEvent cfg} (h : s.SameFront s') : (s.emit e).SameFront (s'.emit e) := by
  refine sameFront_map (f := (·.emit e)) (g := fun front => { front with
    answers := if e.isCommand then front.answers else e :: front.answers
    bursts := if e.isBurst then e :: front.bursts else front.bursts }) (fun s => ?_) h
  cases e <;> rfl

theorem busUsed_front {pkt : DRAMPacket cfg} (h : s.SameFront s') :
    (s.busUsed pkt readyTime).SameFront (s'.busUsed pkt readyTime) :=
  sameFront_map (f := (·.busUsed pkt readyTime)) (g := fun front => { front with
    busBusyUntil := readyTime
    nextReqTime := readyTime - (cfg.tRP + cfg.tRCD + cfg.tCL)
    readsThisTime := if pkt.isRead then front.readsThisTime + 1 else front.readsThisTime
    writesThisTime := if pkt.isRead then front.writesThisTime else front.writesThisTime + 1 })
    (fun _ => rfl) h

theorem count_front {tag : BitVec 64} {f : DRAMCtrlStats → DRAMCtrlStats} (h : s.SameFront s') :
    (s.count tag f).SameFront (s'.count tag f) :=
  sameFront_map (f := (·.count tag f)) (g := fun front => { front with
    stats := fun row =>
      if row = statsRow (qosTagToLDomID tag) then f (front.stats row) else front.stats row })
    (fun _ => rfl) h

theorem openRowFor_front {pkt : DRAMPacket cfg} : Follows Dram.SameFront (openRowFor pkt) := by
  refine .bind .get fun _ => .bind (.when fun _ => prechargeBank_front) fun _ => ?_
  exact .bind .get fun _ => activateBank_front

/-- Of the column command and the precharge only the burst is part of the front. -/
theorem settled_front (s : Dram cfg) (pkt : DRAMPacket cfg) (others : List (DRAMPacket cfg))
    (cmd : Tick) : (s.emit (pkt.burst cmd)).SameFront
      ((s.accessed pkt cmd (cfg.burstEnd cmd)).settled pkt others) := by
  unfold Dram.settled
  split <;> rfl

theorem doDRAMAccess_front {pkt r : DRAMPacket cfg} {others : List (DRAMPacket cfg)}
    (h : doDRAMAccess pkt others s = .ok (r, s')) :
    ∃ rowHit cmdAt, r = { pkt with readyTime := cfg.burstEnd cmdAt } ∧
      s.busBusyUntil ≤ cmdAt + cfg.tCL ∧ s.curTick ≤ cmdAt ∧
      (s.served pkt rowHit cmdAt).SameFront s' := by
  obtain ⟨s₀, cmd, _, hopened, hcol, hbus, rfl, rfl, rfl⟩ := doDRAMAccess_eq_ok h
  have hrow : s.SameFront s₀ ∧ s₀.curTick ≤ cmd := by
    rcases hopened with ⟨_, rfl, hnow⟩ | ⟨hmiss, hopen⟩
    · exact ⟨rfl, hnow⟩
    · -- the row was just opened, and the command waits for it
      have hpath : BankSteps (fun _ _ _ => True) s s₀ ∧ _ ∧ _ :=
        openRowFor_path (fun _ => trivial) hmiss hopen
      exact ⟨openRowFor_front _ _ _ hopen, Nat.le_trans hpath.2.2 hcol⟩
  obtain ⟨hfront, hnow⟩ := hrow
  have htick : s₀.curTick = s.curTick := congrArg DramFront.curTick hfront
  have hbusy : s₀.busBusyUntil = s.busBusyUntil := congrArg DramFront.busBusyUntil hfront
  refine ⟨s.rowHit pkt, cmd, rfl, hbusy ▸ hbus, htick ▸ hnow, count_front (busUsed_front ?_)⟩
  exact trans_of Dram.SameFront (emit_front hfront) (settled_front s₀ pkt others cmd)

/-! ## The request event -/

theorem chooseNext_perm (s : Dram cfg) (queue : List (DRAMPacket cfg)) :
    (s.chooseNext queue).Perm queue := by
  unfold Dram.chooseNext Dram.reorderQueue
  split
  · exact .refl _
  · split
    · exact .refl _
    · split
      · next hpkt =>
          obtain ⟨hlt, rfl⟩ := List.getElem?_eq_some_iff.mp hpkt
          exact List.getElem_cons_eraseIdx_perm hlt
      · exact .refl _

theorem chooseNext_eq_nil {queue : List (DRAMPacket cfg)} (h : s.chooseNext queue = []) :
    queue = [] := by
  have hperm := chooseNext_perm s queue
  rw [h] at hperm
  exact hperm.nil_eq.symm

theorem readQueue_front {readQueue : List (DRAMPacket cfg)} (h : s.SameFront s') :
    { s with readQueue }.SameFront { s' with readQueue } :=
  sameFront_map (f := fun s => { s with readQueue }) (g := fun front => { front with readQueue })
    (fun _ => rfl) h

theorem writeQueue_front {writeQueue : List (DRAMPacket cfg)} (h : s.SameFront s') :
    { s with writeQueue }.SameFront { s' with writeQueue } :=
  sameFront_map (f := fun s => { s with writeQueue }) (g := fun front => { front with writeQueue })
    (fun _ => rfl) h

theorem respondLater_front {pkt : DRAMPacket cfg} (h : s.SameFront s') :
    (s.respondLater pkt).SameFront (s'.respondLater pkt) :=
  sameFront_map (f := (·.respondLater pkt)) (g := fun front => { front with
    respondEvent := if front.respQueue.isEmpty then some pkt.readyTime else front.respondEvent
    respQueue := front.respQueue ++ [pkt] }) (fun _ => rfl) h

theorem turnTo_front {busState : BusState} {bubble : Tick} (h : s.SameFront s') :
    (s.turnTo busState bubble).SameFront (s'.turnTo busState bubble) :=
  sameFront_map (f := (·.turnTo busState bubble)) (g := fun front => { front with
    busState
    busBusyUntil := front.busBusyUntil + bubble
    nextReqTime := front.busBusyUntil + bubble - (cfg.tRP + cfg.tRCD + cfg.tCL) })
    (fun _ => rfl) h

theorem turnToWrites_front (h : s.SameFront s') : s.turnToWrites.SameFront s'.turnToWrites := by
  have hqueue : s'.writeQueue = s.writeQueue := congrArg DramFront.writeQueue h
  unfold Dram.turnToWrites
  rw [hqueue]
  split
  · exact turnTo_front h
  · exact h

theorem turnToReads_front (h : s.SameFront s') : s.turnToReads.SameFront s'.turnToReads := by
  have hstops : s'.stopsWrites = s.stopsWrites := by
    unfold Dram.stopsWrites
    rw [show s'.writeQueue = s.writeQueue from congrArg DramFront.writeQueue h,
      show s'.readQueue = s.readQueue from congrArg DramFront.readQueue h,
      show s'.draining = s.draining from congrArg DramFront.draining h,
      show s'.writesThisTime = s.writesThisTime from congrArg DramFront.writesThisTime h]
  unfold Dram.turnToReads
  rw [hstops]
  split
  · exact turnTo_front h
  · exact h

theorem retryWrite_front (h : s.SameFront s') : s.retryWrite.SameFront s'.retryWrite := by
  have hcond : (s'.retryWrReq = true ∧ s'.writeQueue.length < cfg.writeBufferSize) =
      (s.retryWrReq = true ∧ s.writeQueue.length < cfg.writeBufferSize) := by
    rw [show s'.retryWrReq = s.retryWrReq from congrArg DramFront.retryWrReq h,
      show s'.writeQueue = s.writeQueue from congrArg DramFront.writeQueue h]
  unfold Dram.retryWrite
  simp only [hcond]
  split
  · exact sameFront_map (f := fun s => { s with retryWrReq := false }.emit .retry)
      (g := fun front => { front with
        retryWrReq := false
        answers := .retry :: front.answers }) (fun _ => rfl) h
  · exact h

theorem again_front (h : s.SameFront s') : s.again.SameFront s'.again :=
  retryWrite_front (sameFront_map
    (f := fun s => { s with nextReqEvent := some (max s.nextReqTime s.curTick) })
    (g := fun front => { front with nextReqEvent := some (max front.nextReqTime front.curTick) })
    (fun _ => rfl) h)

theorem queueResponse_eq_ok {pkt : DRAMPacket cfg} (h : queueResponse pkt s = .ok ((), s')) :
    s' = s.respondLater pkt ∧ (s.respQueue = [] → s.respondEvent = none) ∧
      ∀ last ∈ s.respQueue.getLast?,
        last.readyTime ≤ pkt.readyTime ∧ s.respondEvent.isSome = true := by
  simp only [queueResponse, bind_eq_ok, get_eq_ok, DramM.check_eq_ok] at h
  obtain ⟨_, _, ⟨rfl, rfl⟩, _, _, ⟨_, rfl⟩, _, _, ⟨_, rfl⟩, h⟩ := h
  unfold Dram.respondLater
  cases hlast : s.respQueue.getLast? with
  | none =>
    simp only [hlast, bind_eq_ok, lift_eq_ok, modify_eq_ok, schedule_eq_ok] at h
    obtain ⟨_, _, ⟨⟨_, hevent, rfl⟩, rfl⟩, _, _, rfl, rfl⟩ := h
    have hempty : s.respQueue = [] := List.getLast?_eq_none_iff.mp hlast
    refine ⟨?_, fun _ => hevent, by rintro _ ⟨⟩⟩
    rw [hempty]
    rfl
  | some last =>
    simp only [hlast, bind_eq_ok, DramM.check_eq_ok, modify_eq_ok, decide_eq_true_eq] at h
    obtain ⟨_, _, ⟨hle, rfl⟩, _, _, ⟨hevent, rfl⟩, rfl⟩ := h
    have hne : s.respQueue ≠ [] := by
      intro hempty
      rw [hempty] at hlast
      cases hlast
    refine ⟨?_, fun hempty => absurd hempty hne, fun last' hmem => ?_⟩
    · rw [if_neg (by simpa using hne)]
    · cases hmem
      exact ⟨hle, hevent⟩

theorem requestAgain_eq_ok (h : requestAgain s = .ok ((), s')) : s' = s.again := by
  simp only [requestAgain, bind_eq_ok, get_eq_ok, lift_eq_ok, modify_eq_ok, schedule_eq_ok] at h
  obtain ⟨_, _, ⟨rfl, rfl⟩, _, _, ⟨⟨_, _, rfl⟩, rfl⟩, _, _, rfl, h⟩ := h
  unfold Dram.again Dram.retryWrite
  rcases when_eq_ok.mp h with ⟨hretry, h⟩ | ⟨hretry, rfl⟩
  · obtain rfl := modify_eq_ok.mp h
    rw [if_pos (by simpa using hretry)]
  · rw [if_neg (by simpa using hretry)]

section

variable (s : Dram cfg)

/-- What the request event finds: the bus may have turned around, nothing else changed. -/
theorem atRequest_eq : ∃ busState readsThisTime writesThisTime, s.atRequest =
      { s with nextReqEvent := none, busState, readsThisTime, writesThisTime } := by
  unfold Dram.atRequest Dram.turnedAround
  split
  · exact ⟨.WRITE, 0, s.writesThisTime, rfl⟩
  · exact ⟨.READ, s.readsThisTime, 0, rfl⟩
  · exact ⟨s.busState, s.readsThisTime, s.writesThisTime, rfl⟩

@[simp] theorem atRequest_readQueue : s.atRequest.readQueue = s.readQueue := by
  obtain ⟨_, _, _, heq⟩ := atRequest_eq s
  rw [heq]

@[simp] theorem atRequest_writeQueue : s.atRequest.writeQueue = s.writeQueue := by
  obtain ⟨_, _, _, heq⟩ := atRequest_eq s
  rw [heq]

@[simp] theorem atRequest_respQueue : s.atRequest.respQueue = s.respQueue := by
  obtain ⟨_, _, _, heq⟩ := atRequest_eq s
  rw [heq]

@[simp] theorem atRequest_respondEvent : s.atRequest.respondEvent = s.respondEvent := by
  obtain ⟨_, _, _, heq⟩ := atRequest_eq s
  rw [heq]

@[simp] theorem atRequest_draining : s.atRequest.draining = s.draining := by
  obtain ⟨_, _, _, heq⟩ := atRequest_eq s
  rw [heq]

@[simp] theorem atRequest_curTick : s.atRequest.curTick = s.curTick := by
  obtain ⟨_, _, _, heq⟩ := atRequest_eq s
  rw [heq]

@[simp] theorem atRequest_busBusyUntil : s.atRequest.busBusyUntil = s.busBusyUntil := by
  obtain ⟨_, _, _, heq⟩ := atRequest_eq s
  rw [heq]

@[simp] theorem atRequest_refreshState : s.atRequest.refreshState = s.refreshState := by
  obtain ⟨_, _, _, heq⟩ := atRequest_eq s
  rw [heq]

end

theorem serveRead_step (hidle : s.refreshState = .REF_IDLE)
    (hbus : s.atRequest.busState = .READ) (h : serveRead s.atRequest = .ok (again, s₁))
    (hagain : when again requestAgain s₁ = .ok ((), s')) :
    ∃ t, FrontStep s (.event .nextReq) t ∧ t.SameFront s' := by
  simp only [serveRead, bind_eq_ok, get_eq_ok] at h
  obtain ⟨_, _, ⟨rfl, rfl⟩, h⟩ := h
  cases hchoose : s.atRequest.chooseNext s.readQueue with
  | nil =>
    have hempty : s.readQueue = [] := chooseNext_eq_nil hchoose
    simp only [atRequest_readQueue, hchoose] at h
    rcases ite_eq_ok.mp h with ⟨hwrites, h⟩ | ⟨hwrites, h⟩
    · simp only [bind_eq_ok, modify_eq_ok, pure_eq_ok] at h
      obtain ⟨_, _, rfl, rfl, rfl⟩ := h
      obtain rfl := requestAgain_eq_ok hagain
      rw [atRequest_writeQueue, atRequest_draining] at hwrites
      exact ⟨_, .turn hidle hbus hempty hwrites, rfl⟩
    · simp only [bind_eq_ok, pure_eq_ok] at h
      obtain ⟨_, s₂, hsleep, rfl, rfl⟩ := h
      obtain rfl := (when_eq_ok.mp hagain).elim (fun h => by cases h.1) (·.2)
      rw [atRequest_writeQueue, atRequest_draining] at hwrites
      refine ⟨_, .sleep hidle hbus hempty (Bool.eq_false_iff.mpr hwrites), ?_⟩
      unfold Dram.sleeping
      rcases when_eq_ok.mp hsleep with ⟨hdone, hsleep⟩ | ⟨hdone, rfl⟩
      · rw [if_pos hdone, ← modify_eq_ok.mp hsleep]
        rfl
      · rw [if_neg (Bool.eq_false_iff.mp hdone)]
        rfl
  | cons pkt rest =>
    simp only [atRequest_readQueue, hchoose, bind_eq_ok, modify_eq_ok, get_eq_ok, pure_eq_ok] at h
    obtain ⟨_, _, rfl, r, t, haccess, _, _, rfl, _, s₂, hresp, _, _, ⟨rfl, rfl⟩, _, s₃, hturn,
      rfl, rfl⟩ := h
    obtain ⟨rowHit, cmdAt, rfl, hcmd, hnow, hfront⟩ := doDRAMAccess_front haccess
    obtain ⟨rfl, hfirst, hlast⟩ := queueResponse_eq_ok hresp
    have hturned : s₃ = ({ t with readQueue := rest }.respondLater
        { pkt with readyTime := cfg.burstEnd cmdAt }).turnToWrites := by
      unfold Dram.turnToWrites
      rcases when_eq_ok.mp hturn with ⟨hhigh, hturn⟩ | ⟨hhigh, rfl⟩
      · rw [if_pos (of_decide_eq_true hhigh)]
        exact (modify_eq_ok.mp hturn).symm
      · rw [if_neg (of_decide_eq_false hhigh)]
    obtain rfl := requestAgain_eq_ok hagain
    have hresp : t.respQueue = s.respQueue :=
      (congrArg DramFront.respQueue hfront).trans (atRequest_respQueue s)
    have hevent : t.respondEvent = s.respondEvent :=
      (congrArg DramFront.respondEvent hfront).trans (atRequest_respondEvent s)
    have hstep : FrontStep s (.event .nextReq)
        (({ s.atRequest with readQueue := rest }.served pkt rowHit cmdAt).respondLater
          { pkt with readyTime := cfg.burstEnd cmdAt }).turnToWrites.again := by
      refine .serveRead hidle hbus hchoose ?_ ?_ ?_ ?_
      · exact atRequest_busBusyUntil s ▸ hcmd
      · exact atRequest_curTick s ▸ hnow
      · exact hresp ▸ hevent ▸ hfirst
      · exact hresp ▸ hevent ▸ hlast
    refine ⟨_, hstep, ?_⟩
    rw [hturned]
    exact again_front (turnToWrites_front (respondLater_front (readQueue_front hfront)))

theorem serveWrite_step (hidle : s.refreshState = .REF_IDLE)
    (hbus : s.atRequest.busState ≠ .READ) (h : serveWrite s.atRequest = .ok (again, s₁))
    (hagain : when again requestAgain s₁ = .ok ((), s')) :
    ∃ t, FrontStep s (.event .nextReq) t ∧ t.SameFront s' := by
  simp only [serveWrite, bind_eq_ok, get_eq_ok] at h
  obtain ⟨_, _, ⟨rfl, rfl⟩, h⟩ := h
  cases hchoose : s.atRequest.chooseNext s.writeQueue with
  | nil => simp only [atRequest_writeQueue, hchoose, throw_ne_ok] at h
  | cons pkt rest =>
    simp only [atRequest_writeQueue, hchoose, bind_eq_ok, modify_eq_ok, get_eq_ok, pure_eq_ok,
      DramM.check_eq_ok, discard_eq_ok] at h
    obtain ⟨_, _, rfl, _, _, ⟨_, rfl⟩, _, t, ⟨r, haccess⟩, _, _, rfl, _, _, ⟨rfl, rfl⟩, _, s₂,
      hturn, rfl, rfl⟩ := h
    obtain ⟨rowHit, cmdAt, rfl, hcmd, hnow, hfront⟩ := doDRAMAccess_front haccess
    have hturned : s₂ = { t with writeQueue := rest }.turnToReads := by
      unfold Dram.turnToReads Dram.stopsWrites
      rcases when_eq_ok.mp hturn with ⟨hstop, hturn⟩ | ⟨hstop, rfl⟩
      · rw [if_pos hstop]
        exact (modify_eq_ok.mp hturn).symm
      · rw [if_neg (Bool.eq_false_iff.mp hstop)]
    obtain rfl := requestAgain_eq_ok hagain
    have hstep : FrontStep s (.event .nextReq)
        ({ s.atRequest with writeQueue := rest }.served pkt rowHit cmdAt).turnToReads.again := by
      refine .serveWrite hidle hbus hchoose ?_ ?_
      · exact atRequest_busBusyUntil s ▸ hcmd
      · exact atRequest_curTick s ▸ hnow
    refine ⟨_, hstep, ?_⟩
    rw [hturned]
    exact again_front (turnToReads_front (writeQueue_front hfront))

theorem processNextReqEvent_front (h : processNextReqEvent (s.stopTimer .nextReq) = .ok ((), s')) :
    ∃ t, FrontStep s (.event .nextReq) t ∧ t.SameFront s' := by
  simp only [processNextReqEvent, bind_eq_ok, modify_eq_ok, get_eq_ok] at h
  obtain ⟨_, _, rfl, _, _, ⟨rfl, rfl⟩, h⟩ := h
  have hstate : s.atRequest.refreshState = s.refreshState := atRequest_refreshState s
  unfold Dram.atRequest at hstate
  cases hrefresh : s.refreshState with
  | REF_IDLE =>
    rw [hstate, hrefresh] at h
    rcases ite_eq_ok.mp h with ⟨hbus, h⟩ | ⟨hbus, h⟩
    · obtain ⟨again, s₁, hserve, hagain⟩ := bind_eq_ok.mp h
      exact serveRead_step hrefresh hbus hserve hagain
    · obtain ⟨again, s₁, hserve, hagain⟩ := bind_eq_ok.mp h
      exact serveWrite_step hrefresh hbus hserve hagain
  | REF_DRAIN =>
    rw [hstate, hrefresh] at h
    simp only [handOver, bind_eq_ok, get_eq_ok, lift_eq_ok, modify_eq_ok] at h
    obtain ⟨_, _, ⟨rfl, rfl⟩, _, _, ⟨_, rfl⟩, rfl⟩ := h
    exact ⟨_, .wait (by rw [hrefresh]; exact RefreshState.noConfusion), rfl⟩
  | REF_PRE | REF_RUN =>
    rw [hstate, hrefresh] at h
    obtain ⟨_, rfl⟩ := pure_eq_ok.mp h
    exact ⟨_, .wait (by rw [hrefresh]; exact RefreshState.noConfusion), rfl⟩

/-! ## The response event -/

theorem burstServiced_eq_ok {pkt : DRAMPacket cfg} {complete : Bool}
    (h : burstServiced pkt s = .ok (complete, s')) :
    ∃ helpers, burstDone s.helpers pkt = some (complete, helpers) ∧ s' = { s with helpers } := by
  simp only [burstServiced, bind_eq_ok, get_eq_ok] at h
  obtain ⟨_, _, ⟨rfl, rfl⟩, h⟩ := h
  unfold burstDone
  cases hhelper : pkt.burstHelper with
  | none =>
    rw [hhelper] at h
    obtain ⟨rfl, rfl⟩ := pure_eq_ok.mp h
    exact ⟨s.helpers, rfl, rfl⟩
  | some i =>
    rw [hhelper] at h
    cases hi : s.helpers[i]? with
    | none => simp only [hi, throw_ne_ok] at h
    | some helper =>
      simp only [hi, bind_eq_ok, modify_eq_ok, pure_eq_ok] at h
      obtain ⟨_, _, rfl, rfl, rfl⟩ := h
      exact ⟨_, by simp only [hi, Option.map_some], rfl⟩

theorem nextResponse_cons {next : DRAMPacket cfg} {rest : List (DRAMPacket cfg)}
    (h : s.respQueue = next :: rest) :
    s.nextResponse = { s with respondEvent := some next.readyTime } := by
  unfold Dram.nextResponse
  split
  · next heq => cases heq.symm.trans h; rfl
  · next heq => cases heq.symm.trans h

theorem nextResponse_nil (h : s.respQueue = []) : s.nextResponse = s.drainDone := by
  unfold Dram.nextResponse
  split
  · next heq => cases heq.symm.trans h
  · rfl

theorem scheduleResponse_eq_ok (h : scheduleResponse s = .ok ((), s')) : s' = s.nextResponse := by
  simp only [scheduleResponse, bind_eq_ok, get_eq_ok] at h
  obtain ⟨_, _, ⟨rfl, rfl⟩, h⟩ := h
  cases hqueue : s.respQueue with
  | nil =>
    rw [hqueue] at h
    rw [nextResponse_nil hqueue]
    exact (modify_eq_ok.mp h).symm
  | cons next rest =>
    simp only [hqueue, bind_eq_ok, lift_eq_ok, modify_eq_ok, schedule_eq_ok] at h
    obtain ⟨_, _, ⟨⟨_, _, rfl⟩, rfl⟩, rfl⟩ := h
    exact (nextResponse_cons hqueue).symm

theorem accessAndRespond_retryRdReq (s : Dram cfg) (pkt : Packet) (latency : Tick) :
    (s.accessAndRespond pkt latency).retryRdReq = s.retryRdReq := by
  unfold Dram.accessAndRespond
  split <;> rfl

theorem nextResponse_retryRdReq (s : Dram cfg) : s.nextResponse.retryRdReq = s.retryRdReq := by
  unfold Dram.nextResponse Dram.drainDone
  split
  · rfl
  · split <;> rfl

theorem processRespondEvent_eq_ok (h : processRespondEvent s = .ok ((), s')) :
    ∃ pkt rest complete helpers s₁, s.respQueue = pkt :: rest ∧
      burstDone s.helpers pkt = some (complete, helpers) ∧
      s₁ = (if complete then { s with helpers }.accessAndRespond pkt.pkt
        (cfg.frontendLatency + cfg.backendLatency) else { s with helpers }) ∧
      s' = { s₁ with respQueue := rest }.nextResponse.retryRead := by
  simp only [processRespondEvent, bind_eq_ok, get_eq_ok] at h
  obtain ⟨_, _, ⟨rfl, rfl⟩, h⟩ := h
  rcases eq_or_ne s.respQueue [] with hqueue | hne
  · simp only [hqueue, throw_ne_ok] at h
  · obtain ⟨pkt, rest, hqueue⟩ := List.exists_cons_of_ne_nil hne
    simp only [hqueue, bind_eq_ok, modify_eq_ok] at h
    obtain ⟨complete, s₁, hburst, _, s₂, hanswer, _, _, rfl, _, s₃, hnext, hretry⟩ := h
    obtain ⟨helpers, hdone, rfl⟩ := burstServiced_eq_ok hburst
    obtain rfl := scheduleResponse_eq_ok hnext
    have hanswered : s₂ = if complete then { s with helpers }.accessAndRespond pkt.pkt
        (cfg.frontendLatency + cfg.backendLatency) else { s with helpers } := by
      rcases when_eq_ok.mp hanswer with ⟨rfl, hanswer⟩ | ⟨rfl, rfl⟩
      · exact (modify_eq_ok.mp hanswer).symm
      · rfl
    refine ⟨pkt, rest, complete, helpers, s₂, hqueue, hdone, hanswered, ?_⟩
    have hflag : { s₂ with respQueue := rest }.nextResponse.retryRdReq = s.retryRdReq := by
      rw [nextResponse_retryRdReq, hanswered]
      cases complete
      · rfl
      · exact accessAndRespond_retryRdReq _ _ _
    unfold Dram.retryRead
    rw [hflag]
    rcases when_eq_ok.mp hretry with ⟨hset, hretry⟩ | ⟨hset, rfl⟩
    · rw [if_pos hset]
      exact (modify_eq_ok.mp hretry).symm
    · rw [if_neg (Bool.eq_false_iff.mp hset)]

theorem processRespondEvent_step
    (h : processRespondEvent { s with respondEvent := none } = .ok ((), s')) :
    FrontStep s (.event .respond) s' := by
  obtain ⟨pkt, rest, complete, helpers, s₁, hqueue, hdone, rfl, rfl⟩ := processRespondEvent_eq_ok h
  exact .respond hqueue hdone

/-! ## The refresh and power state machines -/

theorem refreshPrecharge_front {preAt : Tick} {id : BankId cfg} :
    Follows Dram.SameFront (refreshPrecharge preAt id) := by
  refine .bind .get fun _ => .ite (fun _ => .modify fun _ => rfl) fun _ => ?_
  refine .forEach fun _ _ => .bind .get fun _ => .when fun _ => ?_
  exact .bind prechargeBank_front fun _ => .modify fun _ => rfl

theorem schedulePowerEvent_front {pwrState : PowerState} :
    Follows Dram.SameFront (schedulePowerEvent pwrState tick : DramM cfg Unit) := by
  refine .bind .get fun _ => .bind check_front fun _ => ?_
  exact .bind check_front fun _ => .modify fun _ => rfl

theorem prechargeAll_front : Follows Dram.SameFront (prechargeAll : DramM cfg Unit) := by
  have hend : Follows Dram.SameFront (do
      modify fun s => { s with refreshState := .REF_RUN }
      let s ← get
      DramM.check .refreshAssertion (s.numBanksActive == 0) : DramM cfg Unit) :=
    .bind (.modify fun _ => rfl) fun _ => .bind .get fun _ => check_front
  refine .bind .get fun _ => .ite (fun _ => ?_) fun _ => ?_
  · exact .bind (.forEach fun _ _ => refreshPrecharge_front) fun _ => hend
  · exact .bind schedulePowerEvent_front fun _ => hend

theorem runRefresh_front : Follows Dram.SameFront (runRefresh : DramM cfg Unit) := by
  refine .bind .get fun _ => .bind check_front fun _ => .bind check_front fun _ => ?_
  refine .bind (.modify fun _ => rfl) fun _ => .bind check_front fun _ => .bind .lift fun _ => ?_
  refine .bind (.modify fun _ => rfl) fun _ => .bind check_front fun _ => ?_
  exact schedulePowerEvent_front

theorem processRefreshEvent_front :
    Follows Dram.SameFront (processRefreshEvent : DramM cfg Unit) := by
  intro s u s' h
  rcases processRefreshEvent_cases h with ⟨_, due, rfl⟩ | ⟨_, due, h⟩ | ⟨_, h⟩
  · rfl
  · exact trans_of Dram.SameFront rfl (prechargeAll_front _ _ _ h)
  · exact runRefresh_front _ _ _ h

/-- A power event that ends a refresh lets the request event run. -/
theorem processPowerEvent_front
    (h : processPowerEvent { s with powerEvent := none } = .ok ((), s')) :
    ∃ t, FrontStep s (.event .power) t ∧ t.SameFront s' := by
  simp only [processPowerEvent, bind_eq_ok, modify_eq_ok, get_eq_ok] at h
  obtain ⟨_, _, ⟨rfl, rfl⟩, _, s₀, hs₀, _, s₁, henter, _, _, ⟨rfl, rfl⟩, h⟩ := h
  have hstart : Follows Dram.SameFront (do
      DramM.check .refreshAssertion (s₁.refreshState == .REF_RUN)
      processRefreshEvent : DramM cfg Unit) :=
    .bind check_front fun _ => processRefreshEvent_front
  have hrefresh : s₁.SameFront s' :=
    Follows.when (fun _ => hstart) _ _ _ h
  rcases when_eq_ok.mp henter with ⟨_, henter⟩ | ⟨_, rfl⟩
  · rcases enterIdle_cases henter with ⟨_, rfl⟩ | ⟨_, _, rfl⟩ | ⟨_, _, rfl⟩
    · subst hs₀
      exact ⟨_, .refreshEnd, hrefresh⟩
    · subst hs₀
      exact ⟨_, .machine (by rintro ⟨⟩) (by rintro ⟨⟩), hrefresh⟩
    · subst hs₀
      exact ⟨_, .machine (by rintro ⟨⟩) (by rintro ⟨⟩), hrefresh⟩
  · subst hs₀
    exact ⟨_, .machine (by rintro ⟨⟩) (by rintro ⟨⟩), hrefresh⟩

end FrontLemmas

open FrontLemmas

theorem call_frontStep {s s' : Dram cfg} {input : DramInput} (hen : s.Enabled input)
    (h : DramM.call input s = .ok ((), s')) : ∃ t, FrontStep s input t ∧ t.SameFront s' := by
  cases input with
  | event t =>
    simp only [DramM.call, bind_eq_ok, modify_eq_ok] at h
    obtain ⟨_, _, rfl, h⟩ := h
    cases t with
    | nextReq => exact processNextReqEvent_front h
    | respond => exact ⟨s', processRespondEvent_step h, rfl⟩
    | activate =>
      have hsame : Follows Dram.SameFront (processActivateEvent : DramM cfg Unit) :=
        .bind .get fun _ => .when fun _ => schedulePowerEvent_front
      exact ⟨s, .machine (by rintro ⟨⟩) (by rintro ⟨⟩),
        trans_of Dram.SameFront rfl (hsame (s.stopTimer _) _ _ h)⟩
    | precharge =>
      have hsame : Follows Dram.SameFront (processPrechargeEvent : DramM cfg Unit) :=
        .bind .get fun _ => .when fun _ => schedulePowerEvent_front
      exact ⟨s, .machine (by rintro ⟨⟩) (by rintro ⟨⟩),
        trans_of Dram.SameFront rfl (hsame (s.stopTimer _) _ _ h)⟩
    | refresh =>
      exact ⟨s, .machine (by rintro ⟨⟩) (by rintro ⟨⟩),
        trans_of Dram.SameFront rfl (processRefreshEvent_front (s.stopTimer _) _ _ h)⟩
    | power => exact processPowerEvent_front h
  | timingReq pkt =>
    obtain ⟨_, h⟩ := discard_eq_ok.mp h
    exact ⟨s', recvTimingReq_step h, rfl⟩
  | drain => exact ⟨s.drain, .drain, (modify_eq_ok.mp h) ▸ rfl⟩
  | set call =>
    simp only [DramM.call, bind_eq_ok, get_eq_ok, lift_eq_ok, modify_eq_ok] at h
    obtain ⟨_, _, ⟨rfl, rfl⟩, params, _, ⟨hset, rfl⟩, rfl⟩ := h
    refine ⟨_, .set ?_, rfl⟩
    cases hrun : call.run s.params with
    | ok params' =>
      rw [hrun] at hset
      exact congrArg Except.ok (Except.ok.inj hset)
    | error e =>
      rw [hrun] at hset
      cases hset
  | advance tick =>
    obtain rfl := modify_eq_ok.mp h
    refine ⟨_, .advance hen.1 fun t => hen.2 t ?_, rfl⟩
    cases t <;> simp

end PardG5V
