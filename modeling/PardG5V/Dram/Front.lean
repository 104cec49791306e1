import PardG5V.Dram.Machines

/-!
# What one input can do to the queues

The side of the controller that faces the requesters: the queues, the flags of refused requests,
the data bus, the parameter and statistics tables, the two events that move requests, and the
responses and retries so far. `FrontStep` lists all that can happen to it, with the guards of the
source. Of an access only the tick of its column command is known.
-/

namespace PardG5V

open Prog BankLemmas MachineLemmas

variable {cfg : DramConfig}

/-- Whether a burst of the packet that is done was the last one, and the helpers after it. -/
def burstDone (helpers : List BurstHelper) (pkt : DRAMPacket cfg) :
    Option (Bool × List BurstHelper) :=
  match pkt.burstHelper with
  | none => some (true, helpers)
  | some i => helpers[i]?.map fun helper =>
    (helper.burstsServiced + 1 == helper.burstCount,
      helpers.set i { helper with burstsServiced := helper.burstsServiced + 1 })

/-- The end of the burst of a column command. -/
def DramConfig.burstEnd (cfg : DramConfig) (cmdAt : Tick) : Tick := cmdAt + cfg.tCL + cfg.tBURST

/-- The event is a burst on the data bus. -/
def DramEvent.isBurst : DramEvent cfg → Bool
  | .read _ _ => true
  | .write _ _ => true
  | _ => false

/-- The burst of a packet whose column command comes at `cmdAt`. -/
def DRAMPacket.burst (pkt : DRAMPacket cfg) (cmdAt : Tick) : DramEvent cfg :=
  if pkt.isRead then .read pkt.rowBuf cmdAt else .write pkt.rowBuf (cfg.burstEnd cmdAt)

/-! ## The part of the state -/

/-- The queues with all that concerns requests and responses. -/
structure DramFront (cfg : DramConfig) where
  curTick : Tick
  params : ParamTable
  stats : Fin statsRows → DRAMCtrlStats
  readQueue : List (DRAMPacket cfg)
  writeQueue : List (DRAMPacket cfg)
  respQueue : List (DRAMPacket cfg)
  helpers : List BurstHelper
  retryRdReq : Bool
  retryWrReq : Bool
  busState : BusState
  busBusyUntil : Tick
  nextReqTime : Tick
  readsThisTime : Nat
  writesThisTime : Nat
  draining : Bool
  nextReqEvent : Option Tick
  respondEvent : Option Tick
  answers : List (DramEvent cfg)
  bursts : List (DramEvent cfg)

namespace Dram

/-- What went to the requesters, as opposed to commands to the memory. -/
def answers (s : Dram cfg) : List (DramEvent cfg) := s.log.filter fun e => !e.isCommand

def bursts (s : Dram cfg) : List (DramEvent cfg) := s.log.filter DramEvent.isBurst

def front (s : Dram cfg) : DramFront cfg where
  curTick := s.curTick
  params := s.params
  stats := s.stats
  readQueue := s.readQueue
  writeQueue := s.writeQueue
  respQueue := s.respQueue
  helpers := s.helpers
  retryRdReq := s.retryRdReq
  retryWrReq := s.retryWrReq
  busState := s.busState
  busBusyUntil := s.busBusyUntil
  nextReqTime := s.nextReqTime
  readsThisTime := s.readsThisTime
  writesThisTime := s.writesThisTime
  draining := s.draining
  nextReqEvent := s.nextReqEvent
  respondEvent := s.respondEvent
  answers := s.answers
  bursts := s.bursts

/-- The two states agree on the queues and what goes with them. -/
def SameFront (s s' : Dram cfg) : Prop := s'.front = s.front

instance : IsPreorder (Dram cfg) SameFront where
  refl _ := rfl
  trans _ _ _ h₁ h₂ := Eq.trans h₂ h₁

/-! ## States -/

def burstFound (s : Dram cfg) (pkt : Packet) : Dram cfg :=
  (s.count pkt.qosTag fun stats => { stats with readBursts := stats.readBursts + 1 }).count
    pkt.qosTag fun stats =>
      { stats with
        servicedByWrQ := stats.servicedByWrQ + 1
        bytesReadWrQ := stats.bytesReadWrQ + cfg.burstSize }

/-- The helper of the next burst of a packet that goes to the read queue. -/
def helperFor (s : Dram cfg) (pktCount : Nat) (helper : Option Nat) : Option Nat :=
  if 1 < pktCount ∧ helper = none then some s.helpers.length else helper

/-- The helpers with a new one for the first burst of a split packet that goes to the read
queue. -/
def helpersFor (s : Dram cfg) (pktCount : Nat) (helper : Option Nat) : List BurstHelper :=
  if s.helperFor pktCount helper = some s.helpers.length then s.helpers ++ [⟨pktCount, 0⟩]
  else s.helpers

def burstQueued (s : Dram cfg) (pkt : Packet) (pktCount : Nat) (helper : Option Nat)
    (dramPkt : DRAMPacket cfg) : Dram cfg :=
  let readQueue := s.readQueue ++ [{ dramPkt with burstHelper := s.helperFor pktCount helper }]
  { s.count pkt.qosTag fun stats => { stats with readBursts := stats.readBursts + 1 } with
    readQueue
    helpers := s.helpersFor pktCount helper }.count pkt.qosTag fun stats =>
      { stats with rdQLen := readQueue.length + s.respQueue.length }

def burstMerged (s : Dram cfg) (pkt : Packet) (writeQueue : List (DRAMPacket cfg)) : Dram cfg :=
  { s.count pkt.qosTag fun stats => { stats with writeBursts := stats.writeBursts + 1 } with
    writeQueue }.count pkt.qosTag fun stats =>
      { stats with mergedWrBursts := stats.mergedWrBursts + 1 }

def burstAdded (s : Dram cfg) (pkt : Packet) (dramPkt : DRAMPacket cfg) : Dram cfg :=
  let queued := { s.count pkt.qosTag fun stats =>
      { stats with writeBursts := stats.writeBursts + 1 } with
    writeQueue := s.writeQueue ++ [dramPkt] }
  queued.count pkt.qosTag fun stats => { stats with wrQLen := queued.writeQueue.length }

def refuseRead (s : Dram cfg) (pkt : Packet) : Dram cfg :=
  { s.arrived pkt with retryRdReq := true }.count pkt.qosTag fun stats =>
    { stats with numRdRetry := stats.numRdRetry + 1 }

def refuseWrite (s : Dram cfg) (pkt : Packet) : Dram cfg :=
  { s.arrived pkt with retryWrReq := true }.count pkt.qosTag fun stats =>
    { stats with numWrRetry := stats.numWrRetry + 1 }

/-- The end of `addToReadQueue`, with `serviced` of the bursts found in the write queue. -/
def readAdded (s : Dram cfg) (pkt : Packet) (serviced : Nat) (helper : Option Nat) : Dram cfg :=
  if serviced = dramPktCount cfg pkt then s.accessAndRespond pkt cfg.frontendLatency
  else { s with helpers := match helper with
      | some i => s.helpers.modify i fun h => { h with burstsServiced := serviced }
      | none => s.helpers }.requestNow

def acceptRead (s : Dram cfg) (pkt : Packet) (serviced : Nat) (helper : Option Nat) : Dram cfg :=
  (s.readAdded pkt serviced helper).count pkt.qosTag fun stats =>
    { stats with
      readReqs := stats.readReqs + 1
      bytesReadSys := stats.bytesReadSys + pkt.size }

def acceptWrite (s : Dram cfg) (pkt : Packet) : Dram cfg :=
  (s.accessAndRespond pkt cfg.frontendLatency).requestNow.count pkt.qosTag fun stats =>
    { stats with
      writeReqs := stats.writeReqs + 1
      bytesWrittenSys := stats.bytesWrittenSys + pkt.size }

def answerOther (s : Dram cfg) (pkt : Packet) : Dram cfg :=
  ((s.arrived pkt).count pkt.qosTag fun stats =>
    { stats with neitherReadNorWrite := stats.neitherReadNorWrite + 1 }).accessAndRespond pkt 1

/-- The state in which the request event makes its choice. -/
def atRequest (s : Dram cfg) : Dram cfg := (s.stopTimer .nextReq).turnedAround

/-- An access with its column command at `cmdAt`, as far as it concerns the bus and the
statistics. -/
def served (s : Dram cfg) (pkt : DRAMPacket cfg) (rowHit : Bool) (cmdAt : Tick) : Dram cfg :=
  ((s.emit (pkt.burst cmdAt)).busUsed pkt (cfg.burstEnd cmdAt)).count pkt.qosTag
    (·.accessed pkt rowHit cmdAt (cfg.burstEnd cmdAt))

/-- A read that was served waits in the response queue. -/
def respondLater (s : Dram cfg) (pkt : DRAMPacket cfg) : Dram cfg :=
  { s with
    respondEvent := if s.respQueue.isEmpty then some pkt.readyTime else s.respondEvent
    respQueue := s.respQueue ++ [pkt] }

def turnToWrites (s : Dram cfg) : Dram cfg :=
  if cfg.writeHighThreshold < s.writeQueue.length then s.turnTo .READ_TO_WRITE cfg.tRTW else s

def stopsWrites (s : Dram cfg) : Bool :=
  s.writeQueue.isEmpty ||
    (s.writeQueue.length + cfg.minWritesPerSwitch < cfg.writeLowThreshold && !s.draining) ||
    (!s.readQueue.isEmpty && cfg.minWritesPerSwitch ≤ s.writesThisTime)

def turnToReads (s : Dram cfg) : Dram cfg :=
  if s.stopsWrites then s.turnTo .WRITE_TO_READ (cfg.tWTR + cfg.tCL) else s

/-- There are writes that the controller does not leave for later. -/
def wantsWrites (s : Dram cfg) : Bool :=
  !s.writeQueue.isEmpty && (s.draining || cfg.writeLowThreshold < s.writeQueue.length)

def retryWrite (s : Dram cfg) : Dram cfg :=
  if s.retryWrReq ∧ s.writeQueue.length < cfg.writeBufferSize then
    { s with retryWrReq := false }.emit .retry
  else s

def again (s : Dram cfg) : Dram cfg :=
  { s with nextReqEvent := some (max s.nextReqTime s.curTick) }.retryWrite

def sleeping (s : Dram cfg) : Dram cfg :=
  if s.respQueue.isEmpty then { s with draining := false } else s

def responded (s : Dram cfg) (pkt : DRAMPacket cfg) (rest : List (DRAMPacket cfg))
    (complete : Bool) (helpers : List BurstHelper) : Dram cfg :=
  let done := { s with respondEvent := none, helpers }
  let answered := if complete then
      done.accessAndRespond pkt.pkt (cfg.frontendLatency + cfg.backendLatency)
    else done
  { answered with respQueue := rest }

/-- The response event is scheduled for the front of the response queue. -/
def nextResponse (s : Dram cfg) : Dram cfg :=
  match s.respQueue with
  | next :: _ => { s with respondEvent := some next.readyTime }
  | [] => s.drainDone

def retryRead (s : Dram cfg) : Dram cfg :=
  if s.retryRdReq then { s with retryRdReq := false }.emit .retry else s

end Dram

inductive FrontStep (s : Dram cfg) : DramInput → Dram cfg → Prop
  | inhibited {pkt : Packet} (hinhibit : pkt.memInhibit = true) : FrontStep s (.timingReq pkt) s
  | machine {timer : DramTimer} (hreq : timer ≠ .nextReq) (hresp : timer ≠ .respond) :
      FrontStep s (.event timer) s
  | refuseRead {pkt : Packet} (hinhibit : pkt.memInhibit = false) (hread : pkt.isRead = true)
      (hfull : s.readQueueFull (dramPktCount cfg pkt) = true) :
      FrontStep s (.timingReq pkt) (s.refuseRead pkt)
  | refuseWrite {pkt : Packet} (hinhibit : pkt.memInhibit = false)
      (hread : pkt.isRead = false) (hwrite : pkt.isWrite = true)
      (hfull : s.writeQueueFull (dramPktCount cfg pkt) = true) :
      FrontStep s (.timingReq pkt) (s.refuseWrite pkt)
  | read {pkt : Packet} {serviced : Nat} {helper : Option Nat} {t : Dram cfg}
      (hinhibit : pkt.memInhibit = false) (hread : pkt.isRead = true)
      (hfull : s.readQueueFull (dramPktCount cfg pkt) = false)
      (hcount : dramPktCount cfg pkt ≠ 0)
      (hloop : addReadBursts pkt (dramPktCount cfg pkt) (dramPktCount cfg pkt) pkt.addr 0 none
        (s.arrived pkt) = .ok ((serviced, helper), t)) :
      FrontStep s (.timingReq pkt) (t.acceptRead pkt serviced helper)
  | write {pkt : Packet} {t : Dram cfg} (hinhibit : pkt.memInhibit = false)
      (hread : pkt.isRead = false) (hwrite : pkt.isWrite = true) (hsize : pkt.size ≠ 0)
      (hfull : s.writeQueueFull (dramPktCount cfg pkt) = false)
      (hloop : addWriteBursts pkt (dramPktCount cfg pkt) pkt.addr (s.arrived pkt) = .ok ((), t)) :
      FrontStep s (.timingReq pkt) (t.acceptWrite pkt)
  | other {pkt : Packet} (hread : pkt.isRead = false) (hwrite : pkt.isWrite = false) :
      FrontStep s (.timingReq pkt) (s.answerOther pkt)
  | drain : FrontStep s .drain s.drain
  | set {call : SetCall} {params : ParamTable} (hset : call.run s.params = .ok params) :
      FrontStep s (.set call) { s with params }
  | wait (hrefresh : s.refreshState ≠ .REF_IDLE) : FrontStep s (.event .nextReq) s.atRequest
  | turn (hidle : s.refreshState = .REF_IDLE) (hbus : s.atRequest.busState = .READ)
      (hempty : s.readQueue = []) (hwrites : s.wantsWrites = true) :
      FrontStep s (.event .nextReq) (s.atRequest.turnTo .READ_TO_WRITE cfg.tRTW).again
  | sleep (hidle : s.refreshState = .REF_IDLE) (hbus : s.atRequest.busState = .READ)
      (hempty : s.readQueue = []) (hwrites : s.wantsWrites = false) :
      FrontStep s (.event .nextReq) s.atRequest.sleeping
  | serveRead {pkt : DRAMPacket cfg} {rest : List (DRAMPacket cfg)} {rowHit : Bool} {cmdAt : Tick}
      (hidle : s.refreshState = .REF_IDLE) (hbus : s.atRequest.busState = .READ)
      (hchoose : s.atRequest.chooseNext s.readQueue = pkt :: rest)
      (hcmd : s.busBusyUntil ≤ cmdAt + cfg.tCL) (hnow : s.curTick ≤ cmdAt)
      (hfirst : s.respQueue = [] → s.respondEvent = none)
      (hlast : ∀ last ∈ s.respQueue.getLast?,
        last.readyTime ≤ cfg.burstEnd cmdAt ∧ s.respondEvent.isSome = true) :
      FrontStep s (.event .nextReq)
        (({ s.atRequest with readQueue := rest }.served pkt rowHit cmdAt).respondLater
          { pkt with readyTime := cfg.burstEnd cmdAt }).turnToWrites.again
  | serveWrite {pkt : DRAMPacket cfg} {rest : List (DRAMPacket cfg)} {rowHit : Bool} {cmdAt : Tick}
      (hidle : s.refreshState = .REF_IDLE) (hbus : s.atRequest.busState ≠ .READ)
      (hchoose : s.atRequest.chooseNext s.writeQueue = pkt :: rest)
      (hcmd : s.busBusyUntil ≤ cmdAt + cfg.tCL) (hnow : s.curTick ≤ cmdAt) :
      FrontStep s (.event .nextReq)
        ({ s.atRequest with writeQueue := rest }.served pkt rowHit cmdAt).turnToReads.again
  | respond {pkt : DRAMPacket cfg} {rest : List (DRAMPacket cfg)} {complete : Bool}
      {helpers : List BurstHelper} (hqueue : s.respQueue = pkt :: rest)
      (hdone : burstDone s.helpers pkt = some (complete, helpers)) :
      FrontStep s (.event .respond)
        (s.responded pkt rest complete helpers).nextResponse.retryRead
  | refreshEnd : FrontStep s (.event .power) { s with nextReqEvent := some s.curTick }
  | advance {tick : Tick} (hle : s.curTick ≤ tick) (hdue : ∀ t, ∀ due ∈ s.timer t, tick ≤ due) :
      FrontStep s (.advance tick) { s with curTick := tick }

/-! ## Bursts -/

/-- The bank and the row of the packet are those of its address. -/
structure DRAMPacket.InPlace (p : DRAMPacket cfg) : Prop where
  bank : p.bankId.bank.val = (decodeDigits cfg (p.addr.toNat / cfg.burstSize)).1 % 2 ^ 8
  rank : p.bankId.rank.val = (decodeDigits cfg (p.addr.toNat / cfg.burstSize)).2.1 % 2 ^ 8
  row : p.row = BitVec.ofNat 16 (decodeDigits cfg (p.addr.toNat / cfg.burstSize)).2.2

/-- The packet is what `decodeAddr` makes of a burst while the table is `params`. -/
structure Decoded (params : ParamTable) (pkt : Packet) (addr : Addr) (size : Nat) (isRead : Bool)
    (p : DRAMPacket cfg) : Prop where
  request : p.pkt = pkt
  isRead : p.isRead = isRead
  addr : p.addr = addr
  size : p.size = size
  helper : p.burstHelper = none
  qosTag : p.qosTag = pkt.qosTag
  rowbuf : params.selectRowbuf (qosTagToLDomID pkt.qosTag) = .ok p.rowbuf
  inPlace : p.InPlace

variable {addr : Addr}

namespace FrontLemmas

variable {s s' : Dram cfg} {pkt : Packet} {size pktCount cnt : Nat} {t : Dram cfg}

theorem decodeAddr_eq_ok {isRead : Bool} {p : DRAMPacket cfg}
    (h : s.decodeAddr pkt addr size isRead = .ok p) : Decoded s.params pkt addr size isRead p := by
  unfold Dram.decodeAddr at h
  rcases except_ite_eq_ok.mp h with ⟨_, h⟩ | ⟨_, h⟩
  · cases h
  · simp only [except_bind_eq_ok] at h
    obtain ⟨rowbuf, hrowbuf, h⟩ := h
    have hselect : s.params.selectRowbuf (qosTagToLDomID pkt.qosTag) = .ok rowbuf := by
      cases hrun : s.params.selectRowbuf (qosTagToLDomID pkt.qosTag) with
      | error e => rw [hrun] at hrowbuf; cases hrowbuf
      | ok rowbuf' => rw [hrun] at hrowbuf; cases hrowbuf; rfl
    split at h
    · cases except_pure_eq_ok.mp h
      exact ⟨rfl, rfl, rfl, rfl, rfl, rfl, hselect, rfl, rfl, rfl⟩
    · cases h

/-- A merged entry has a new address and a new size, and nothing else. -/
theorem mergeInto_eq {w w' : DRAMPacket cfg} (h : mergeInto cfg addr size w = some w') :
    ∃ addr' size', w' = { w with addr := addr', size := size' } := by
  unfold mergeInto at h
  dsimp only at h
  split at h
  · split at h
    · exact ⟨addr, size, (Option.some.inj h).symm⟩
    · split at h
      · exact ⟨_, _, (Option.some.inj h).symm⟩
      · cases h
  · split at h
    · exact ⟨w.addr, w.size, (Option.some.inj h).symm⟩
    · split at h
      · exact ⟨w.addr, _, (Option.some.inj h).symm⟩
      · cases h

theorem mergeWrite_eq {queue queue' : List (DRAMPacket cfg)}
    (h : mergeWrite cfg addr size queue = some queue') :
    ∃ before w w' after, queue = before ++ w :: after ∧ queue' = before ++ w' :: after ∧
      mergeInto cfg addr size w = some w' ∧ ∀ p ∈ before, mergeInto cfg addr size p = none := by
  induction queue generalizing queue' with
  | nil => cases h
  | cons w rest ih =>
    unfold mergeWrite at h
    cases hmerge : mergeInto cfg addr size w with
    | some w' =>
      rw [hmerge] at h
      cases h
      exact ⟨[], w, w', rest, rfl, rfl, hmerge, fun _ hp => nomatch hp⟩
    | none =>
      rw [hmerge] at h
      obtain ⟨rest', hrest, rfl⟩ := Option.map_eq_some_iff.mp h
      obtain ⟨before, v, v', after, rfl, rfl, hv, hbefore⟩ := ih hrest
      refine ⟨w :: before, v, v', after, rfl, rfl, hv, fun p hp => ?_⟩
      rcases List.mem_cons.mp hp with rfl | hp
      · exact hmerge
      · exact hbefore p hp

/-! ## The two loops -/

theorem addReadBursts_succ {serviced : Nat} {helper : Option Nat} {r : Nat × Option Nat}
    (h : addReadBursts pkt pktCount (cnt + 1) addr serviced helper s = .ok (r, s')) :
    (qosTagToLDomID pkt.qosTag).toNat < DramM.perLDomEntries ∧
      (foundInWrQ s.writeQueue addr (burstLen cfg pkt addr) = true ∧
          addReadBursts pkt pktCount cnt (nextBurst cfg addr) (serviced + 1) helper
            (s.burstFound pkt) = .ok (r, s') ∨
        foundInWrQ s.writeQueue addr (burstLen cfg pkt addr) = false ∧
          ∃ dramPkt, s.decodeAddr pkt addr (burstLen cfg pkt addr) true = .ok dramPkt ∧
            s.readQueueFull 1 = false ∧
            addReadBursts pkt pktCount cnt (nextBurst cfg addr) serviced
              (s.helperFor pktCount helper) (s.burstQueued pkt pktCount helper dramPkt) =
                .ok (r, s')) := by
  unfold addReadBursts at h
  simp only [bind_eq_ok, modify_eq_ok, get_eq_ok, DramM.perLDom, DramM.check_eq_ok,
    decide_eq_true_eq] at h
  obtain ⟨_, _, rfl, _, _, ⟨hldom, rfl⟩, _, _, ⟨rfl, rfl⟩, h⟩ := h
  refine ⟨hldom, ?_⟩
  rcases ite_eq_ok.mp h with ⟨hfound, h⟩ | ⟨hfound, h⟩
  · simp only [bind_eq_ok, modify_eq_ok] at h
    obtain ⟨_, _, rfl, h⟩ := h
    exact .inl ⟨hfound, h⟩
  · simp only [bind_eq_ok, modify_eq_ok, lift_eq_ok, DramM.check_eq_ok] at h
    obtain ⟨_, s₁, hhelper, dramPkt, _, ⟨hdecode, rfl⟩, _, _, ⟨hfull, rfl⟩, _, _, rfl, _, _, rfl,
      h⟩ := h
    have hroom : s.readQueueFull 1 = false := by
      rw [Bool.not_eq_true'] at hfull
      exact hfull
    refine .inr ⟨Bool.eq_false_iff.mpr hfound, dramPkt, hdecode, hroom, ?_⟩
    unfold Dram.burstQueued Dram.helpersFor
    rcases when_eq_ok.mp hhelper with ⟨hnew, hpush⟩ | ⟨hold, rfl⟩
    · obtain rfl := modify_eq_ok.mp hpush
      have hnew : s.helperFor pktCount helper = some s.helpers.length := eq_of_beq hnew
      rw [if_pos hnew]
      exact h
    · have hold : s.helperFor pktCount helper ≠ some s.helpers.length := beq_eq_false_iff_ne.mp hold
      rw [if_neg hold]
      exact h

theorem addWriteBursts_succ (h : addWriteBursts pkt (cnt + 1) addr s = .ok ((), s')) :
    (qosTagToLDomID pkt.qosTag).toNat < DramM.perLDomEntries ∧
      ((∃ writeQueue, mergeWrite cfg addr (burstLen cfg pkt addr) s.writeQueue = some writeQueue ∧
          addWriteBursts pkt cnt (nextBurst cfg addr) (s.burstMerged pkt writeQueue) =
            .ok ((), s')) ∨
        mergeWrite cfg addr (burstLen cfg pkt addr) s.writeQueue = none ∧
          ∃ dramPkt, s.decodeAddr pkt addr (burstLen cfg pkt addr) false = .ok dramPkt ∧
            s.writeQueue.length < cfg.writeBufferSize ∧
            addWriteBursts pkt cnt (nextBurst cfg addr) (s.burstAdded pkt dramPkt) =
              .ok ((), s')) := by
  unfold addWriteBursts at h
  simp only [bind_eq_ok, modify_eq_ok, get_eq_ok, DramM.perLDom, DramM.check_eq_ok,
    decide_eq_true_eq] at h
  obtain ⟨_, _, rfl, _, _, ⟨hldom, rfl⟩, _, _, ⟨rfl, rfl⟩, h⟩ := h
  refine ⟨hldom, ?_⟩
  dsimp only [Dram.count] at h
  cases hmerge : mergeWrite cfg addr (burstLen cfg pkt addr) s.writeQueue with
  | some writeQueue =>
    simp only [hmerge, bind_eq_ok, modify_eq_ok] at h
    obtain ⟨_, _, rfl, _, _, rfl, h⟩ := h
    exact .inl ⟨writeQueue, rfl, h⟩
  | none =>
    simp only [hmerge, bind_eq_ok, modify_eq_ok, lift_eq_ok, DramM.check_eq_ok] at h
    obtain ⟨dramPkt, _, ⟨hdecode, rfl⟩, _, _, ⟨hroom, rfl⟩, _, _, rfl, _, _, rfl, h⟩ := h
    exact .inr ⟨rfl, dramPkt, hdecode, of_decide_eq_true hroom, h⟩

/-! ## Requests -/

/-- The gap since the last request concerns the statistics only. -/
theorem arrived_eq (s : Dram cfg) (pkt : Packet) :
    ∃ stats, s.arrived pkt = { s with stats, prevArrival := s.curTick } := by
  unfold Dram.arrived
  split
  · exact ⟨s.stats, rfl⟩
  · exact ⟨_, rfl⟩

theorem arrived_readQueueFull (s : Dram cfg) (pkt : Packet) (n : Nat) :
    (s.arrived pkt).readQueueFull n = s.readQueueFull n := by
  obtain ⟨stats, heq⟩ := arrived_eq s pkt
  rw [heq]
  rfl

theorem arrived_writeQueueFull (s : Dram cfg) (pkt : Packet) (n : Nat) :
    (s.arrived pkt).writeQueueFull n = s.writeQueueFull n := by
  obtain ⟨stats, heq⟩ := arrived_eq s pkt
  rw [heq]
  rfl

theorem addToReadQueue_eq_ok (h : addToReadQueue pkt (dramPktCount cfg pkt) s = .ok ((), t)) :
    dramPktCount cfg pkt ≠ 0 ∧ ∃ serviced helper s₁,
      addReadBursts pkt (dramPktCount cfg pkt) (dramPktCount cfg pkt) pkt.addr 0 none s =
        .ok ((serviced, helper), s₁) ∧ t = s₁.readAdded pkt serviced helper := by
  simp only [addToReadQueue, bind_eq_ok, DramM.check_eq_ok] at h
  obtain ⟨_, _, ⟨_, rfl⟩, _, _, ⟨hcount, rfl⟩, ⟨serviced, helper⟩, s₁, hloop, h⟩ := h
  refine ⟨by simpa using hcount, serviced, helper, s₁, hloop, ?_⟩
  unfold Dram.readAdded
  rcases ite_eq_ok.mp h with ⟨hall, h⟩ | ⟨hsome, h⟩
  · rw [if_pos hall]
    exact (modify_eq_ok.mp h).symm
  · rw [if_neg hsome]
    simp only [bind_eq_ok, modify_eq_ok] at h
    obtain ⟨_, _, rfl, rfl⟩ := h
    rfl

theorem addToWriteQueue_eq_ok (h : addToWriteQueue pkt pktCount s = .ok ((), t)) :
    ∃ s₁, addWriteBursts pkt pktCount pkt.addr s = .ok ((), s₁) ∧
      t = (s₁.accessAndRespond pkt cfg.frontendLatency).requestNow := by
  simp only [addToWriteQueue, bind_eq_ok, DramM.check_eq_ok, modify_eq_ok] at h
  obtain ⟨_, _, ⟨_, rfl⟩, _, s₁, hloop, _, _, rfl, rfl⟩ := h
  exact ⟨s₁, hloop, rfl⟩

theorem recvTimingReq_step {accepted : Bool} (h : recvTimingReq pkt s = .ok (accepted, s')) :
    FrontStep s (.timingReq pkt) s' := by
  rcases ite_eq_ok.mp h with ⟨hinhibit, h⟩ | ⟨hinhibit, h⟩
  · obtain ⟨_, rfl⟩ := pure_eq_ok.mp h
    exact .inhibited hinhibit
  have hinhibit : pkt.memInhibit = false := Bool.eq_false_iff.mpr hinhibit
  simp only [bind_eq_ok, modify_eq_ok, get_eq_ok] at h
  obtain ⟨_, _, rfl, _, _, ⟨rfl, rfl⟩, h⟩ := h
  rcases ite_eq_ok.mp h with ⟨hread, h⟩ | ⟨hread, h⟩
  · simp only [bind_eq_ok, DramM.check_eq_ok] at h
    obtain ⟨_, _, ⟨_, rfl⟩, h⟩ := h
    rcases ite_eq_ok.mp h with ⟨hfull, h⟩ | ⟨hfull, h⟩
    · simp only [bind_eq_ok, modify_eq_ok, pure_eq_ok] at h
      obtain ⟨_, _, rfl, _, _, rfl, _, rfl⟩ := h
      exact .refuseRead hinhibit hread ((arrived_readQueueFull s pkt _).symm.trans hfull)
    · simp only [bind_eq_ok, modify_eq_ok, pure_eq_ok, DramM.perLDom, DramM.check_eq_ok] at h
      obtain ⟨_, t, hadd, _, _, rfl, _, _, ⟨_, rfl⟩, _, rfl⟩ := h
      obtain ⟨hcount, serviced, helper, s₁, hloop, rfl⟩ := addToReadQueue_eq_ok hadd
      rw [arrived_readQueueFull] at hfull
      exact .read hinhibit hread (Bool.eq_false_iff.mpr hfull) hcount hloop
  have hread : pkt.isRead = false := Bool.eq_false_iff.mpr hread
  rcases ite_eq_ok.mp h with ⟨hwrite, h⟩ | ⟨hwrite, h⟩
  · simp only [bind_eq_ok, DramM.check_eq_ok] at h
    obtain ⟨_, _, ⟨hsize, rfl⟩, h⟩ := h
    rcases ite_eq_ok.mp h with ⟨hfull, h⟩ | ⟨hfull, h⟩
    · simp only [bind_eq_ok, modify_eq_ok, pure_eq_ok] at h
      obtain ⟨_, _, rfl, _, _, rfl, _, rfl⟩ := h
      exact .refuseWrite hinhibit hread hwrite ((arrived_writeQueueFull s pkt _).symm.trans hfull)
    · simp only [bind_eq_ok, modify_eq_ok, pure_eq_ok, DramM.perLDom, DramM.check_eq_ok] at h
      obtain ⟨_, t, hadd, _, _, rfl, _, _, ⟨_, rfl⟩, _, rfl⟩ := h
      obtain ⟨s₁, hloop, rfl⟩ := addToWriteQueue_eq_ok hadd
      rw [arrived_writeQueueFull] at hfull
      exact .write hinhibit hread hwrite (bne_iff_ne.mp hsize) (Bool.eq_false_iff.mpr hfull) hloop
  · simp only [bind_eq_ok, modify_eq_ok, pure_eq_ok] at h
    obtain ⟨_, _, rfl, _, _, rfl, _, rfl⟩ := h
    exact .other hread (Bool.eq_false_iff.mpr hwrite)

end FrontLemmas

end PardG5V
