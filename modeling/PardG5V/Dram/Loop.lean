import PardG5V.Dram.Queues

/-!
# The request loop

The request event serves one packet and schedules itself again, until it finds no read to serve
and too few writes to turn the bus for them. A refused request is only told to try again from
inside the loop. `DramLoop` is the part of the state that decides whether the loop goes on.

Results: `Dram.Reachable.responds`, `Dram.Reachable.awake`.
-/

namespace PardG5V

open Prog FrontLemmas QueueLemmas MachineLemmas BankLemmas

variable {cfg : DramConfig}

/-! ## The machine -/

structure DramLoop (cfg : DramConfig) where
  refreshState : RefreshState
  readQueue : List (DRAMPacket cfg)
  writes : Nat
  respQueue : List (DRAMPacket cfg)
  retryRdReq : Bool
  retryWrReq : Bool
  draining : Bool
  busState : BusState
  nextReqEvent : Option Tick
  respondEvent : Option Tick

def Dram.loop (s : Dram cfg) : DramLoop cfg where
  refreshState := s.refreshState
  readQueue := s.readQueue
  writes := s.writeQueue.length
  respQueue := s.respQueue
  retryRdReq := s.retryRdReq
  retryWrReq := s.retryWrReq
  draining := s.draining
  busState := s.busState
  nextReqEvent := s.nextReqEvent
  respondEvent := s.respondEvent

namespace DramLoop

/-- There are writes that the controller does not leave for later. -/
def WantsWrites (l : DramLoop cfg) : Prop :=
  l.writes ≠ 0 ∧ (l.draining = true ∨ cfg.writeLowThreshold < l.writes)
deriving Decidable

/-- The request event finds a packet to serve, or it turns the bus to find one. -/
def HasWork (l : DramLoop cfg) : Prop :=
  l.busState = .READ_TO_WRITE ∨ l.busState = .WRITE ∨ l.readQueue ≠ [] ∨ l.WantsWrites
deriving Decidable

def turned (l : DramLoop cfg) : BusState :=
  match l.busState with
  | .READ_TO_WRITE => .WRITE
  | .WRITE_TO_READ => .READ
  | busState => busState

/-- The request event is scheduled, at `now` unless it was before. -/
def called (l : DramLoop cfg) (now : Tick) : DramLoop cfg :=
  { l with nextReqEvent := some (l.nextReqEvent.getD now) }

/-- The request event schedules itself again. A refused write is told to try again when
the write queue has room. -/
def again (l : DramLoop cfg) (tick : Tick) : DramLoop cfg :=
  { l with
    nextReqEvent := some tick
    retryWrReq := l.retryWrReq && decide (cfg.writeBufferSize ≤ l.writes) }

end DramLoop

inductive LoopStep (l : DramLoop cfg) : DramInput → DramLoop cfg → Prop
  | same {input : DramInput} : LoopStep l input l
  | refuseRead {pkt : Packet} (hinhibit : pkt.memInhibit = false) (hread : pkt.isRead = true)
      (hfull : cfg.readBufferSize <
        l.readQueue.length + l.respQueue.length + dramPktCount cfg pkt) :
      LoopStep l (.timingReq pkt) { l with retryRdReq := true }
  | refuseWrite {pkt : Packet} (hinhibit : pkt.memInhibit = false) (hread : pkt.isRead = false)
      (hwrite : pkt.isWrite = true)
      (hfull : cfg.writeBufferSize < l.writes + dramPktCount cfg pkt) :
      LoopStep l (.timingReq pkt) { l with retryWrReq := true }
  | read {pkt : Packet} {new : List (DRAMPacket cfg)} {now : Tick} :
      LoopStep l (.timingReq pkt) ({ l with readQueue := l.readQueue ++ new }.called now)
  | write {pkt : Packet} {writes : Nat} {now : Tick} (hle : l.writes ≤ writes) :
      LoopStep l (.timingReq pkt) ({ l with writes }.called now)
  | drainReads (hempty : l.writes = 0) : LoopStep l .drain { l with draining := true }
  | drain {now : Tick} : LoopStep l .drain ({ l with draining := true }.called now)
  | wait {refreshState : RefreshState} (hidle : l.refreshState ≠ .REF_IDLE)
      (hnot : refreshState ≠ .REF_IDLE ∧ refreshState ≠ .REF_DRAIN) :
      LoopStep l (.event .nextReq)
        { l with refreshState, busState := l.turned, nextReqEvent := none }
  | turn {tick : Tick} (hidle : l.refreshState = .REF_IDLE) (hbus : l.turned = .READ)
      (hempty : l.readQueue = []) (hwrites : l.WantsWrites) :
      LoopStep l (.event .nextReq) ({ l with busState := .READ_TO_WRITE }.again tick)
  | sleep {draining : Bool} (hidle : l.refreshState = .REF_IDLE) (hbus : l.turned = .READ)
      (hempty : l.readQueue = []) (hwrites : ¬ l.WantsWrites)
      (hdraining : draining = true → l.draining = true) :
      LoopStep l (.event .nextReq) { l with busState := .READ, draining, nextReqEvent := none }
  | serveRead {pkt : DRAMPacket cfg} {rest : List (DRAMPacket cfg)} {readyTime tick : Tick}
      {busState : BusState} (hidle : l.refreshState = .REF_IDLE) (hbus : l.turned = .READ)
      (hchoose : (pkt :: rest).Perm l.readQueue)
      (hlast : ∀ last ∈ l.respQueue.getLast?, last.readyTime ≤ readyTime) :
      LoopStep l (.event .nextReq) ({ l with
        readQueue := rest
        respQueue := l.respQueue ++ [{ pkt with readyTime }]
        respondEvent := if l.respQueue.isEmpty then some readyTime else l.respondEvent
        busState }.again tick)
  | serveWrite {tick : Tick} {busState : BusState} (hidle : l.refreshState = .REF_IDLE)
      (hbus : l.turned ≠ .READ) :
      LoopStep l (.event .nextReq) ({ l with writes := l.writes - 1, busState }.again tick)
  | respond {pkt : DRAMPacket cfg} {rest : List (DRAMPacket cfg)} {draining : Bool}
      (hqueue : l.respQueue = pkt :: rest)
      (hdraining : draining = l.draining ∨ draining = false ∧ l.writes = 0) :
      LoopStep l (.event .respond) { l with
        respQueue := rest
        respondEvent := rest.head?.map (·.readyTime)
        retryRdReq := false
        draining }
  | refresh {refreshState : RefreshState} (hidle : refreshState ≠ .REF_IDLE)
      (hdrain : refreshState = .REF_DRAIN → l.nextReqEvent ≠ none) :
      LoopStep l (.event .refresh) { l with refreshState }
  | refreshEnd {refreshState : RefreshState} {now : Tick}
      (hstate : refreshState = .REF_IDLE ∨ refreshState = l.refreshState) :
      LoopStep l (.event .power) { l with refreshState, nextReqEvent := some now }

/-! ## The loop in the states of a step -/

namespace LoopLemmas

variable {s s' t : Dram cfg} {pkt : Packet} {cnt serviced : Nat} {addr : Addr} {helper : Option Nat}
  {input : DramInput} {p : DRAMPacket cfg} {rowHit : Bool} {cmdAt : Tick}

theorem loop_of_front (h : t.SameFront s') :
    s'.loop = { t.loop with refreshState := s'.refreshState } := by
  unfold Dram.loop
  rw [show s'.readQueue = t.readQueue from congrArg DramFront.readQueue h,
    show s'.writeQueue = t.writeQueue from congrArg DramFront.writeQueue h,
    show s'.respQueue = t.respQueue from congrArg DramFront.respQueue h,
    show s'.retryRdReq = t.retryRdReq from congrArg DramFront.retryRdReq h,
    show s'.retryWrReq = t.retryWrReq from congrArg DramFront.retryWrReq h,
    show s'.draining = t.draining from congrArg DramFront.draining h,
    show s'.busState = t.busState from congrArg DramFront.busState h,
    show s'.nextReqEvent = t.nextReqEvent from congrArg DramFront.nextReqEvent h,
    show s'.respondEvent = t.respondEvent from congrArg DramFront.respondEvent h]

section

variable (s : Dram cfg)

@[simp] theorem arrived_loop (pkt : Packet) : (s.arrived pkt).loop = s.loop := by
  obtain ⟨stats, heq⟩ := arrived_eq s pkt
  rw [heq]
  rfl

@[simp] theorem accessAndRespond_loop (pkt : Packet) (latency : Tick) :
    (s.accessAndRespond pkt latency).loop = s.loop := by
  unfold Dram.accessAndRespond
  split <;> rfl

@[simp] theorem requestNow_loop : s.requestNow.loop = s.loop.called s.curTick := by
  unfold Dram.requestNow DramLoop.called
  cases hevent : s.nextReqEvent with
  | none | some tick => simp [Dram.loop, hevent]

theorem turnedAround_loop : s.turnedAround.loop = { s.loop with busState := s.loop.turned } := by
  unfold Dram.turnedAround
  cases hbus : s.busState <;> simp [Dram.loop, DramLoop.turned, hbus]

@[simp] theorem atRequest_loop :
    s.atRequest.loop = { s.loop with busState := s.loop.turned, nextReqEvent := none } :=
  turnedAround_loop (s.stopTimer .nextReq)

@[simp] theorem again_loop : s.again.loop = s.loop.again (max s.nextReqTime s.curTick) := by
  unfold Dram.again Dram.retryWrite DramLoop.again
  split
  · next hretry =>
      obtain ⟨hretry, hroom⟩ := hretry
      have hnot : ¬ cfg.writeBufferSize ≤ s.writeQueue.length := Nat.not_le.mpr hroom
      simp [Dram.loop, Dram.emit, hnot]
  · next hretry =>
      have hkept : (s.loop.retryWrReq && decide (cfg.writeBufferSize ≤ s.loop.writes)) =
          s.loop.retryWrReq := by
        cases hflag : s.loop.retryWrReq with
        | false => rfl
        | true =>
          rw [Bool.true_and, decide_eq_true_eq]
          exact Nat.not_lt.mp fun hroom => hretry ⟨hflag, hroom⟩
      rw [hkept]
      rfl

theorem wantsWrites_iff : s.wantsWrites = true ↔ s.loop.WantsWrites := by
  unfold Dram.wantsWrites DramLoop.WantsWrites
  simp [Dram.loop]

theorem turned_eq : s.loop.turned = s.atRequest.busState :=
  congrArg DramLoop.busState (atRequest_loop s).symm

theorem turnToWrites_loop : ∃ busState, s.turnToWrites.loop = { s.loop with busState } := by
  unfold Dram.turnToWrites
  split
  · exact ⟨.READ_TO_WRITE, rfl⟩
  · exact ⟨s.busState, rfl⟩

theorem turnToReads_loop : ∃ busState, s.turnToReads.loop = { s.loop with busState } := by
  unfold Dram.turnToReads
  split
  · exact ⟨.WRITE_TO_READ, rfl⟩
  · exact ⟨s.busState, rfl⟩

end

/-- The bursts of a read change the read queue of the loop only. -/
theorem addReadBursts_loop {pktCount : Nat} {r : Nat × Option Nat}
    (h : addReadBursts pkt pktCount cnt addr serviced helper s = .ok (r, s')) :
    ∃ new, s'.loop = { s.loop with readQueue := s.readQueue ++ new } := by
  induction cnt generalizing addr serviced helper s with
  | zero =>
    obtain ⟨-, rfl⟩ := pure_eq_ok.mp h
    exact ⟨[], by rw [List.append_nil]; rfl⟩
  | succ cnt ih =>
    obtain ⟨-, ⟨-, h⟩ | ⟨-, p, -, -, h⟩⟩ := addReadBursts_succ h
    · exact ih (s := s.burstFound pkt) h
    · obtain ⟨new, hloop⟩ := ih h
      refine ⟨{ p with burstHelper := s.helperFor pktCount helper } :: new, hloop.trans ?_⟩
      rw [show (s.burstQueued pkt pktCount helper p).readQueue ++ new = s.readQueue ++ _ from
        List.append_assoc s.readQueue [_] new]
      rfl

/-- The bursts of a write change the length of the write queue only, which does not
shrink. -/
theorem addWriteBursts_loop (h : addWriteBursts pkt cnt addr s = .ok ((), s')) :
    ∃ writes, s.writeQueue.length ≤ writes ∧ s'.loop = { s.loop with writes } := by
  induction cnt generalizing addr s with
  | zero =>
    obtain ⟨-, rfl⟩ := pure_eq_ok.mp h
    exact ⟨s.writeQueue.length, Nat.le_refl _, rfl⟩
  | succ cnt ih =>
    obtain ⟨-, ⟨queue, hmerge, h⟩ | ⟨-, p, -, -, h⟩⟩ := addWriteBursts_succ h
    · obtain ⟨writes, hle, hloop⟩ := ih h
      obtain ⟨before, w, w', after, hqueue, rfl, -, -⟩ := mergeWrite_eq hmerge
      have hlen : s.writeQueue.length = (before ++ w' :: after).length := by
        rw [hqueue, List.length_append, List.length_append]
        rfl
      exact ⟨writes, hlen ▸ hle, hloop⟩
    · obtain ⟨writes, hle, hloop⟩ := ih h
      have hlen : s.writeQueue.length ≤ (s.writeQueue ++ [p]).length := by simp
      exact ⟨writes, Nat.le_trans hlen hle, hloop⟩

/-! ## The refresh state -/

inductive RefreshTurn (s s' : Dram cfg) : DramInput → Prop
  | same {input : DramInput} (hstate : s'.refreshState = s.refreshState)
      (hdrain : input = .event .nextReq → s.refreshState ≠ .REF_DRAIN) : RefreshTurn s s' input
  | handOver (hdrain : s.refreshState = .REF_DRAIN) (hstate : s'.refreshState = .REF_PRE) :
      RefreshTurn s s' (.event .nextReq)
  | refresh (hidle : s'.refreshState ≠ .REF_IDLE)
      (hdrain : s'.refreshState = .REF_DRAIN → s.nextReqEvent ≠ none) :
      RefreshTurn s s' (.event .refresh)
  | finish {tick : Tick} (hstate : s'.refreshState = .REF_IDLE)
      (hnext : s'.nextReqEvent = some tick) : RefreshTurn s s' (.event .power)

theorem call_refreshTurn (hen : s.Enabled input)
    (h : DramM.call input s = .ok ((), s')) : RefreshTurn s s' input := by
  have hstep : CoreStep (fun _ _ _ => True) s input s' :=
    call_coreStep (fun _ _ _ _ _ => trivial) hen h
  cases hstep with
  | commands hidle _ hpath =>
    exact .same (machines_of_steps hpath).refreshState fun _ => by rw [hidle]; decide
  | other hcore =>
    have hsame : s'.refreshState = s.refreshState := congrArg DramCore.refreshState hcore
    refine .same hsame fun hinput hdrain => ?_
    subst hinput
    simp only [DramM.call, bind_eq_ok, modify_eq_ok] at h
    obtain ⟨_, _, rfl, h⟩ := h
    -- a request event that finds a refresh waiting hands over to it
    have hpre : s'.refreshState = .REF_PRE :=
      congrArg DramCore.refreshState (processNextReqEvent_drain hdrain h)
    rw [hsame, hdrain] at hpre
    cases hpre
  | handOver hdrain hcore => exact .handOver hdrain (congrArg DramCore.refreshState hcore)
  | refreshDue _ hnext => exact .refresh RefreshState.noConfusion fun _ => hnext
  | prechargeAll | refreshIdle => exact .refresh RefreshState.noConfusion RefreshState.noConfusion
  | refreshAgain hrun =>
    have hrun' : { s with refreshEvent := none }.refreshing.refreshState = .REF_RUN := hrun
    refine .refresh ?_ ?_ <;> rw [hrun'] <;> exact RefreshState.noConfusion
  | refreshEnd => exact .finish rfl rfl
  | _ => exact .same rfl (by rintro ⟨⟩)

theorem RefreshTurn.eq_of_not_event (h : RefreshTurn s s' input)
    (hinput : ∀ t, input = .event t → t = .respond) : s'.refreshState = s.refreshState := by
  cases h with
  | same hstate => exact hstate
  | handOver | refresh | finish => cases hinput _ rfl

theorem RefreshTurn.eq_of_idle (h : RefreshTurn s s' (.event .nextReq))
    (hidle : s.refreshState = .REF_IDLE) : s'.refreshState = .REF_IDLE := by
  cases h with
  | same hstate => exact hstate.trans hidle
  | handOver hdrain => cases hidle.symm.trans hdrain

/-! ## Steps -/

theorem with_refreshState {l : DramLoop cfg} {refreshState : RefreshState}
    (h : l.refreshState = refreshState) : { l with refreshState } = l := by
  subst h
  rfl

theorem drain_loop (s : Dram cfg) :
    s.drain.loop.refreshState = s.refreshState ∧ LoopStep s.loop .drain s.drain.loop := by
  unfold Dram.drain
  split
  · exact ⟨rfl, .same⟩
  · dsimp only
    split
    · next hempty =>
        have hzero : s.loop.writes = 0 := List.length_eq_zero_iff.mpr (List.isEmpty_iff.mp hempty)
        exact ⟨rfl, .drainReads hzero⟩
    · rw [requestNow_loop]
      exact ⟨rfl, .drain⟩

theorem read_loop
    (hloop : addReadBursts pkt (dramPktCount cfg pkt) (dramPktCount cfg pkt) pkt.addr 0 none
      (s.arrived pkt) = .ok ((serviced, helper), t)) :
    (t.acceptRead pkt serviced helper).loop.refreshState = s.refreshState ∧
      LoopStep s.loop (.timingReq pkt) (t.acceptRead pkt serviced helper).loop := by
  obtain ⟨new, hnew, hlen, hqueued⟩ := addReadBursts_adds hloop
  obtain ⟨new', hloop'⟩ := addReadBursts_loop hloop
  rw [arrived_loop] at hloop'
  show (t.readAdded pkt serviced helper).loop.refreshState = s.refreshState ∧
    LoopStep s.loop (.timingReq pkt) (t.readAdded pkt serviced helper).loop
  unfold Dram.readAdded
  split
  · -- every burst was found, so the read queue is as before
    next hall =>
      have hnil : new = [] := List.length_eq_zero_iff.mp (by omega)
      have hreads : t.readQueue = (s.arrived pkt).readQueue :=
        congrArg DramQueues.readQueue (hqueued.none hnil)
      have hsame : (s.arrived pkt).readQueue ++ new' = s.loop.readQueue :=
        (congrArg DramLoop.readQueue hloop').symm.trans
          (hreads.trans (congrArg DramLoop.readQueue (arrived_loop s pkt)))
      rw [accessAndRespond_loop, hloop', hsame]
      exact ⟨rfl, .same⟩
  · rw [requestNow_loop]
    show t.loop.refreshState = s.refreshState ∧
      LoopStep s.loop (.timingReq pkt) (t.loop.called t.curTick)
    have hreads : (s.arrived pkt).readQueue = s.loop.readQueue :=
      congrArg DramLoop.readQueue (arrived_loop s pkt)
    rw [hloop', hreads]
    exact ⟨rfl, .read⟩

theorem write_loop
    (hloop : addWriteBursts pkt (dramPktCount cfg pkt) pkt.addr (s.arrived pkt) = .ok ((), t)) :
    (t.acceptWrite pkt).loop.refreshState = s.refreshState ∧
      LoopStep s.loop (.timingReq pkt) (t.acceptWrite pkt).loop := by
  obtain ⟨writes, hle, hloop'⟩ := addWriteBursts_loop hloop
  show (t.accessAndRespond pkt cfg.frontendLatency).requestNow.loop.refreshState = s.refreshState ∧
    LoopStep s.loop (.timingReq pkt)
      (t.accessAndRespond pkt cfg.frontendLatency).requestNow.loop
  have hwrites : (s.arrived pkt).writeQueue.length = s.loop.writes :=
    congrArg DramLoop.writes (arrived_loop s pkt)
  rw [requestNow_loop, accessAndRespond_loop, hloop', arrived_loop]
  exact ⟨rfl, .write (hwrites ▸ hle)⟩

variable {rest : List (DRAMPacket cfg)}

theorem respond_loop {complete : Bool}
    {helpers : List BurstHelper} (hqueue : s.respQueue = p :: rest) :
    (s.responded p rest complete helpers).nextResponse.retryRead.loop.refreshState =
        s.refreshState ∧
      LoopStep s.loop (.event .respond)
        (s.responded p rest complete helpers).nextResponse.retryRead.loop := by
  have hresponded : (s.responded p rest complete helpers).loop =
      { s.loop with respQueue := rest, respondEvent := none } := by
    cases complete with
    | false => rfl
    | true =>
      show { Dram.loop (Dram.accessAndRespond _ _ _) with respQueue := rest } = _
      rw [accessAndRespond_loop]
      rfl
  generalize hr : s.responded p rest complete helpers = r at hresponded ⊢
  have hrest : r.respQueue = rest := congrArg DramLoop.respQueue hresponded
  have hnext : ∃ draining, (draining = s.draining ∨ draining = false ∧ s.loop.writes = 0) ∧
      r.nextResponse.loop = { s.loop with
        respQueue := rest
        respondEvent := rest.head?.map (·.readyTime)
        draining } := by
    cases rest with
    | cons next rest =>
      refine ⟨s.draining, .inl rfl, ?_⟩
      rw [nextResponse_cons hrest]
      show { r.loop with respondEvent := some next.readyTime } = _
      rw [hresponded]
      rfl
    | nil =>
      rw [nextResponse_nil hrest]
      unfold Dram.drainDone
      split
      · next hempty =>
          have hwrites : r.loop.writes = 0 :=
            List.length_eq_zero_iff.mpr (List.isEmpty_iff.mp hempty.1)
          rw [hresponded] at hwrites
          refine ⟨false, .inr ⟨rfl, hwrites⟩, ?_⟩
          show { r.loop with draining := false } = _
          rw [hresponded]
          rfl
      · exact ⟨s.draining, .inl rfl, hresponded⟩
  obtain ⟨draining, hdraining, hnext⟩ := hnext
  have hretry : r.nextResponse.retryRead.loop =
    { r.nextResponse.loop with retryRdReq := false } := by
    unfold Dram.retryRead
    split
    · rfl
    · next hflag =>
        have hfalse : r.nextResponse.loop.retryRdReq = false := Bool.eq_false_iff.mpr hflag
        rw [← hfalse]
  rw [hretry, hnext]
  exact ⟨rfl, .respond hqueue hdraining⟩

theorem serveRead_loop :
    (({ s.atRequest with readQueue := rest }.served p rowHit cmdAt).respondLater
      { p with readyTime := cfg.burstEnd cmdAt }).loop = { s.loop with
        readQueue := rest
        respQueue := s.respQueue ++ [{ p with readyTime := cfg.burstEnd cmdAt }]
        respondEvent := if s.respQueue.isEmpty then some (cfg.burstEnd cmdAt) else s.respondEvent
        busState := s.loop.turned
        nextReqEvent := none } := by
  show { s.atRequest.loop with
    readQueue := rest
    respQueue := s.atRequest.loop.respQueue ++ [{ p with readyTime := cfg.burstEnd cmdAt }]
    respondEvent := if s.atRequest.loop.respQueue.isEmpty then some (cfg.burstEnd cmdAt)
      else s.atRequest.loop.respondEvent } = _
  rw [atRequest_loop]
  rfl

theorem serveWrite_loop : ({ s.atRequest with writeQueue := rest }.served p rowHit cmdAt).loop =
      { s.loop with writes := rest.length, busState := s.loop.turned, nextReqEvent := none } := by
  show { s.atRequest.loop with writes := rest.length } = _
  rw [atRequest_loop]

theorem turnTo_loop (s : Dram cfg) (busState : BusState) (bubble : Tick) :
    (s.turnTo busState bubble).loop = { s.loop with busState } := rfl

/-- Every step of the front is a step of the loop, together with what it does to the
refresh state. -/
theorem frontStep_loop (hstep : FrontStep s input t) (hfront : t.SameFront s')
    (hturn : RefreshTurn s s' input) : LoopStep s.loop input s'.loop := by
  rw [loop_of_front hfront]
  -- outside the events of the loop and of the refresh the refresh state stays
  have hkeep (hinput : ∀ timer, input = .event timer → timer = .respond)
      (h : t.loop.refreshState = s.refreshState ∧ LoopStep s.loop input t.loop) :
      LoopStep s.loop input { t.loop with refreshState := s'.refreshState } := by
    rw [with_refreshState (h.1.trans (hturn.eq_of_not_event hinput).symm)]
    exact h.2
  cases hstep with
  | inhibited | set | advance => exact hkeep nofun ⟨rfl, .same⟩
  | machine hreq _ =>
    cases hturn with
    | same hstate =>
      rw [hstate]
      exact .same
    | handOver => exact absurd rfl hreq
    | refresh hne hdrain => exact .refresh hne hdrain
    | @finish tick hstate hnext =>
      have hevent : s.loop.nextReqEvent = some tick :=
        (congrArg DramFront.nextReqEvent hfront).symm.trans hnext
      have hloop : { s.loop with refreshState := s'.refreshState } =
          { s.loop with refreshState := s'.refreshState, nextReqEvent := some tick } := by
        rw [← hevent]
      rw [hloop]
      exact .refreshEnd (.inl hstate)
  | @refuseRead pkt hinhibit hread hfull =>
    have hloop : (s.refuseRead pkt).loop = { s.loop with retryRdReq := true } := by
      rw [← arrived_loop s pkt]
      rfl
    refine hkeep nofun ⟨congrArg DramLoop.refreshState hloop, ?_⟩
    rw [hloop]
    exact .refuseRead hinhibit hread (of_decide_eq_true hfull)
  | @refuseWrite pkt hinhibit hread hwrite hfull =>
    have hloop : (s.refuseWrite pkt).loop = { s.loop with retryWrReq := true } := by
      rw [← arrived_loop s pkt]
      rfl
    refine hkeep nofun ⟨congrArg DramLoop.refreshState hloop, ?_⟩
    rw [hloop]
    exact .refuseWrite hinhibit hread hwrite (of_decide_eq_true hfull)
  | read _ _ _ _ hloop => exact hkeep nofun (read_loop hloop)
  | write _ _ _ _ _ hloop => exact hkeep nofun (write_loop hloop)
  | @other pkt =>
    have hloop : (s.answerOther pkt).loop = s.loop :=
      (accessAndRespond_loop _ pkt 1).trans (arrived_loop s pkt)
    refine hkeep nofun ⟨congrArg DramLoop.refreshState hloop, ?_⟩
    rw [hloop]
    exact .same
  | drain => exact hkeep nofun (drain_loop s)
  | wait hrefresh =>
    rw [atRequest_loop]
    cases hturn with
    | same hstate hdrain =>
      rw [hstate]
      exact .wait hrefresh ⟨hrefresh, hdrain rfl⟩
    | handOver _ hstate =>
      rw [hstate]
      exact .wait hrefresh ⟨RefreshState.noConfusion, RefreshState.noConfusion⟩
  | turn hidle hbus hempty hwrites =>
    rw [hturn.eq_of_idle hidle, ← hidle, again_loop, turnTo_loop, atRequest_loop]
    exact .turn hidle ((turned_eq s).trans hbus) hempty ((wantsWrites_iff s).mp hwrites)
  | sleep hidle hbus hempty hwrites =>
    rw [hturn.eq_of_idle hidle, ← hidle]
    have hbus' : s.loop.turned = .READ := (turned_eq s).trans hbus
    have hsleep (draining : Bool) (hdraining : draining = true → s.draining = true) :
        LoopStep s.loop (.event .nextReq) { s.atRequest.loop with draining } := by
      rw [atRequest_loop, hbus']
      exact .sleep hidle hbus' hempty
        (fun h => Bool.eq_false_iff.mp hwrites ((wantsWrites_iff s).mpr h)) hdraining
    have hstate : s.atRequest.refreshState = s.refreshState := atRequest_refreshState s
    unfold Dram.sleeping
    rw [← hstate]
    split
    · exact hsleep false Bool.noConfusion
    · exact hsleep s.atRequest.draining (atRequest_draining s ▸ id)
  | @serveRead p rest rowHit cmdAt hidle hbus hchoose _ _ _ hlast =>
    have hperm : (p :: rest).Perm s.readQueue := hchoose ▸ chooseNext_perm _ _
    rw [hturn.eq_of_idle hidle, ← hidle, again_loop]
    obtain ⟨busState, hturned⟩ := turnToWrites_loop
      (({ s.atRequest with readQueue := rest }.served p rowHit cmdAt).respondLater
        { p with readyTime := cfg.burstEnd cmdAt })
    rw [hturned, serveRead_loop]
    exact .serveRead hidle ((turned_eq s).trans hbus) hperm fun last hmem => (hlast last hmem).1
  | @serveWrite p rest rowHit cmdAt hidle hbus hchoose _ _ =>
    have hperm : (p :: rest).Perm s.writeQueue := hchoose ▸ chooseNext_perm _ _
    have hlen : rest.length = s.loop.writes - 1 := by
      show rest.length = s.writeQueue.length - 1
      rw [← hperm.length_eq]
      rfl
    rw [hturn.eq_of_idle hidle, ← hidle, again_loop]
    obtain ⟨busState, hturned⟩ := turnToReads_loop
      ({ s.atRequest with writeQueue := rest }.served p rowHit cmdAt)
    rw [hturned, serveWrite_loop, hlen]
    exact .serveWrite hidle fun hread => hbus ((turned_eq s).symm.trans hread)
  | respond hqueue => exact hkeep (fun _ h => (DramInput.event.inj h).symm) (respond_loop hqueue)
  | refreshEnd =>
    cases hturn with
    | same hstate => exact .refreshEnd (.inr hstate)
    | finish hstate => exact .refreshEnd (.inl hstate)

end LoopLemmas

open LoopLemmas

theorem call_loopStep {s s' : Dram cfg} {input : DramInput} (hen : s.Enabled input)
    (h : DramM.call input s = .ok ((), s')) : LoopStep s.loop input s'.loop := by
  obtain ⟨t, hstep, hfront⟩ := call_frontStep hen h
  exact frontStep_loop hstep hfront (call_refreshTurn hen h)

/-- What holds of the idle loop and is kept by every step holds in every run. -/
theorem Dram.Reachable.loop_induct {P : Dram cfg → DramInput → Prop} {I : DramLoop cfg → Prop}
    {s : Dram cfg} (h : s.Reachable P) (hinit : I (Dram.startup cfg 0).loop)
    (hstep : ∀ (s : Dram cfg) input l, I s.loop → P s input → LoopStep s.loop input l → I l) :
    I s.loop := by
  refine h.induct (I := fun s => I s.loop) (fun _ => hinit)
    fun s input s' _ hs hen hP hcall => ?_
  exact hstep s input s'.loop hs hP (call_loopStep hen hcall)

/-! ## Responses -/

namespace DramLoop

variable {l l' : DramLoop cfg} {input : DramInput}

/-- The responses leave in the order of their ready times, and the response event is
scheduled for the first of them. -/
structure Responds (l : DramLoop cfg) : Prop where
  sorted : l.respQueue.Pairwise fun p q => p.readyTime ≤ q.readyTime
  event : l.respondEvent = l.respQueue.head?.map (·.readyTime)

/-- A response that is not due before the last one goes to the end. -/
theorem Responds.append (h : l.Responds) {pkt : DRAMPacket cfg}
    (hlast : ∀ last ∈ l.respQueue.getLast?, last.readyTime ≤ pkt.readyTime) :
    Responds { l with
      respQueue := l.respQueue ++ [pkt]
      respondEvent := if l.respQueue.isEmpty then some pkt.readyTime else l.respondEvent } := by
  obtain ⟨hsorted, hevent⟩ := h
  rcases List.eq_nil_or_concat l.respQueue with hnil | ⟨init, last, hconcat⟩
  · constructor
    · rw [hnil]
      exact List.pairwise_singleton _ _
    · rw [hnil]
      rfl
  · rw [List.concat_eq_append] at hconcat
    rw [hconcat] at hsorted hlast hevent
    have hle : last.readyTime ≤ pkt.readyTime := hlast last (by simp)
    constructor
    · rw [hconcat]
      refine List.pairwise_append.mpr ⟨hsorted, List.pairwise_singleton _ _, fun p hp q hq => ?_⟩
      obtain rfl := List.mem_singleton.mp hq
      -- everything before it is due no later than the last one
      rcases List.mem_append.mp hp with hinit | hp
      · exact Nat.le_trans ((List.pairwise_append.mp hsorted).2.2 p hinit last (by simp)) hle
      · rw [List.mem_singleton.mp hp]
        exact hle
    · rw [hevent, hconcat]
      cases init <;> rfl

theorem Responds.step (h : l.Responds) (hstep : LoopStep l input l') : l'.Responds := by
  cases hstep with
  | @serveRead p _ readyTime _ _ _ _ _ hlast =>
    have happend : Responds { l with
        respQueue := l.respQueue ++ [{ p with readyTime }]
        respondEvent := if l.respQueue.isEmpty then some readyTime else l.respondEvent } :=
      h.append hlast
    exact ⟨happend.sorted, happend.event⟩
  | respond hqueue =>
    have hsorted := h.sorted
    rw [hqueue] at hsorted
    exact ⟨hsorted.tail, rfl⟩
  | _ => exact ⟨h.sorted, h.event⟩

/-! ## The loop goes on -/

/-- While there is something to do, the request event is scheduled; and a refresh that
waits for the request event has one to wait for. -/
structure Awake (l : DramLoop cfg) : Prop where
  idle : l.refreshState = .REF_IDLE → l.HasWork → l.nextReqEvent ≠ none
  drain : l.refreshState = .REF_DRAIN → l.nextReqEvent ≠ none

theorem Awake.scheduled {tick : Tick} (h : l.nextReqEvent = some tick) : l.Awake := by
  constructor <;> intros <;> rw [h] <;> exact Option.some_ne_none _

theorem HasWork.mono (h : l.HasWork) (hbus : l'.busState = l.busState)
    (hreads : l.readQueue ≠ [] → l'.readQueue ≠ []) (hwrites : l.WantsWrites → l'.WantsWrites) :
    l'.HasWork := by
  unfold HasWork
  rw [hbus]
  exact h.imp_right (.imp_right (.imp hreads hwrites))

theorem Awake.step (h : l.Awake) (hstep : LoopStep l input l') : l'.Awake := by
  cases hstep with
  | same => exact h
  | refuseRead | refuseWrite => exact ⟨h.idle, h.drain⟩
  | read | write | drain | turn | serveRead | serveWrite | refreshEnd => exact .scheduled rfl
  | drainReads hempty =>
    refine ⟨fun hidle hwork => h.idle hidle (hwork.mono rfl id fun hwrites => ?_), h.drain⟩
    exact absurd hempty hwrites.1
  | wait _ hnot => exact ⟨fun hidle => absurd hidle hnot.1, fun hdrain => absurd hdrain hnot.2⟩
  | sleep hidle _ hempty hwrites hdraining =>
    refine ⟨fun _ hwork => ?_, fun hdrain => nomatch hidle.symm.trans hdrain⟩
    rcases hwork with hbus | hbus | hreads | hwants
    · cases hbus
    · cases hbus
    · exact absurd hempty hreads
    · exact absurd ⟨hwants.1, hwants.2.imp_left hdraining⟩ hwrites
  | respond _ hdraining =>
    refine ⟨fun hidle hwork => h.idle hidle (hwork.mono rfl id fun hwrites => ?_), h.drain⟩
    rcases hdraining with hsame | ⟨_, hzero⟩
    · exact ⟨hwrites.1, hsame ▸ hwrites.2⟩
    · exact absurd hzero hwrites.1
  | refresh hne hdrain => exact ⟨fun hidle => absurd hidle hne, hdrain⟩

end DramLoop

namespace Dram

variable {s : Dram cfg} {P : Dram cfg → DramInput → Prop}

/-- In every reachable state the response event is scheduled for the next response. -/
theorem Reachable.responds (h : s.Reachable P) : s.loop.Responds :=
  h.loop_induct ⟨.nil, rfl⟩ fun _ _ _ hs _ hstep => hs.step hstep

/-- In every reachable state the request loop goes on while there is something to do. -/
theorem Reachable.awake (h : s.Reachable P) : s.loop.Awake := by
  refine h.loop_induct ⟨fun _ hwork => ?_, nofun⟩ fun _ _ _ hs _ hstep => hs.step hstep
  rcases hwork with hbus | hbus | hreads | hwants
  · cases hbus
  · cases hbus
  · exact absurd rfl hreads
  · exact absurd rfl hwants.1

end Dram

end PardG5V
