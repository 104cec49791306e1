import PardG5V.Dram.FrontStep

/-!
# The queues as a machine of their own

The three queues with the helpers of split reads, the parameter table that decodes new requests,
the reads that were answered and the bursts that were read from the memory. Nothing else decides
what can happen to them, so an invariant of this machine holds in every run
(`Dram.Reachable.queues_induct`).
-/

namespace PardG5V

open Prog FrontLemmas

variable {cfg : DramConfig}

/-! ## The machine -/

/-- The queues, the packets of the reads that were answered, and the row buffers and the
ends of the bursts that were read, the newest first. -/
structure DramQueues (cfg : DramConfig) where
  params : ParamTable
  readQueue : List (DRAMPacket cfg)
  writeQueue : List (DRAMPacket cfg)
  respQueue : List (DRAMPacket cfg)
  helpers : List BurstHelper
  answered : List Packet
  reads : List (RowBuf cfg × Tick)

/-- The read that an event of the log answers. -/
def DramEvent.answersRead : DramEvent cfg → Option Packet
  | .respond pkt _ => if pkt.isRead then some pkt else none
  | _ => none

/-- The burst that an event of the log reads from the memory. -/
def DramEvent.readBurst : DramEvent cfg → Option (RowBuf cfg × Tick)
  | .read buf cmdAt => some (buf, cfg.burstEnd cmdAt)
  | _ => none

def Dram.queues (s : Dram cfg) : DramQueues cfg where
  params := s.params
  readQueue := s.readQueue
  writeQueue := s.writeQueue
  respQueue := s.respQueue
  helpers := s.helpers
  answered := s.log.filterMap DramEvent.answersRead
  reads := s.log.filterMap DramEvent.readBurst

/-- The read or the write that the controller takes over with the input. A packet whose
memory inhibit flag is set is answered by a cache. -/
def Dram.taken (s : Dram cfg) : DramInput → List Packet
  | .timingReq pkt =>
    if pkt.memInhibit then []
    else if pkt.isRead then
      if s.readQueueFull (dramPktCount cfg pkt) then [] else [pkt]
    else if pkt.isWrite then
      if s.writeQueueFull (dramPktCount cfg pkt) then [] else [pkt]
    else []
  | _ => []

namespace DramQueues

/-- The entries that the bursts of a read from `addr` on add to the read queue. -/
inductive AddsReads (params : ParamTable) (writeQueue : List (DRAMPacket cfg)) (pkt : Packet)
    (helper : Option Nat) : Nat → Addr → List (DRAMPacket cfg) → Prop
  | done {addr : Addr} : AddsReads params writeQueue pkt helper 0 addr []
  | found {cnt : Nat} {addr : Addr} {new : List (DRAMPacket cfg)}
      (hfound : foundInWrQ writeQueue addr (burstLen cfg pkt addr) = true)
      (hrest : AddsReads params writeQueue pkt helper cnt (nextBurst cfg addr) new) :
      AddsReads params writeQueue pkt helper (cnt + 1) addr new
  | queue {cnt : Nat} {addr : Addr} {p : DRAMPacket cfg} {new : List (DRAMPacket cfg)}
      (hfound : foundInWrQ writeQueue addr (burstLen cfg pkt addr) = false)
      (hdecode : Decoded params pkt addr (burstLen cfg pkt addr) true p)
      (hrest : AddsReads params writeQueue pkt helper cnt (nextBurst cfg addr) new) :
      AddsReads params writeQueue pkt helper (cnt + 1) addr
        ({ p with burstHelper := helper } :: new)

/-- What the bursts of a write from `addr` on make of the write queue. -/
inductive AddsWrites (params : ParamTable) (pkt : Packet) :
    Nat → Addr → List (DRAMPacket cfg) → List (DRAMPacket cfg) → Prop
  | done {addr : Addr} {queue : List (DRAMPacket cfg)} : AddsWrites params pkt 0 addr queue queue
  | merge {cnt : Nat} {addr : Addr} {queue queue₁ queue' : List (DRAMPacket cfg)}
      (hmerge : mergeWrite cfg addr (burstLen cfg pkt addr) queue = some queue₁)
      (hrest : AddsWrites params pkt cnt (nextBurst cfg addr) queue₁ queue') :
      AddsWrites params pkt (cnt + 1) addr queue queue'
  | add {cnt : Nat} {addr : Addr} {p : DRAMPacket cfg} {queue queue' : List (DRAMPacket cfg)}
      (hmerge : mergeWrite cfg addr (burstLen cfg pkt addr) queue = none)
      (hdecode : Decoded params pkt addr (burstLen cfg pkt addr) false p)
      (hroom : queue.length < cfg.writeBufferSize)
      (hrest : AddsWrites params pkt cnt (nextBurst cfg addr) (queue ++ [p]) queue') :
      AddsWrites params pkt (cnt + 1) addr queue queue'

def helperOf (q : DramQueues cfg) (pktCount : Nat) : Option Nat :=
  if 1 < pktCount then some q.helpers.length else none

/-- The helpers once a read of `pktCount` bursts has `queued` of them in the read queue. -/
def helpersWith (q : DramQueues cfg) (pktCount queued : Nat) : List BurstHelper :=
  if 1 < pktCount ∧ 0 < queued then q.helpers ++ [⟨pktCount, pktCount - queued⟩] else q.helpers

def readsWith (q : DramQueues cfg) (pkt : DRAMPacket cfg) (readyTime : Tick) :
    List (RowBuf cfg × Tick) :=
  if pkt.isRead then (pkt.rowBuf, readyTime) :: q.reads else q.reads

def answer (q : DramQueues cfg) (pkt : Packet) : List Packet :=
  if pkt.needsResponse then pkt :: q.answered else q.answered

end DramQueues

open DramQueues

/-- What one input can do to the queues. The list has the request that it takes over. -/
inductive QueueStep (q : DramQueues cfg) : DramInput → List Packet → DramQueues cfg → Prop
  | same {input : DramInput} : QueueStep q input [] q
  | set {call : SetCall} {params : ParamTable} (hset : call.run q.params = .ok params) :
      QueueStep q (.set call) [] { q with params }
  | forwarded {pkt : Packet} (hread : pkt.isRead = true) (hcount : dramPktCount cfg pkt ≠ 0)
      (hnew : AddsReads q.params q.writeQueue pkt (q.helperOf (dramPktCount cfg pkt))
        (dramPktCount cfg pkt) pkt.addr []) :
      QueueStep q (.timingReq pkt) [pkt] { q with answered := q.answer pkt }
  | read {pkt : Packet} {new : List (DRAMPacket cfg)} (hread : pkt.isRead = true)
      (hroom : q.readQueue.length + q.respQueue.length + dramPktCount cfg pkt ≤ cfg.readBufferSize)
      (hne : new ≠ [])
      (hnew : AddsReads q.params q.writeQueue pkt (q.helperOf (dramPktCount cfg pkt))
        (dramPktCount cfg pkt) pkt.addr new) :
      QueueStep q (.timingReq pkt) [pkt] { q with
        readQueue := q.readQueue ++ new
        helpers := q.helpersWith (dramPktCount cfg pkt) new.length }
  | write {pkt : Packet} {queue : List (DRAMPacket cfg)} (hread : pkt.isRead = false)
      (hwrite : pkt.isWrite = true) (hsize : pkt.size ≠ 0)
      (hroom : q.writeQueue.length + dramPktCount cfg pkt ≤ cfg.writeBufferSize)
      (hnew : AddsWrites q.params pkt (dramPktCount cfg pkt) pkt.addr q.writeQueue queue) :
      QueueStep q (.timingReq pkt) [pkt] { q with writeQueue := queue }
  | serveRead {pkt : DRAMPacket cfg} {rest : List (DRAMPacket cfg)} {readyTime : Tick}
      (hchoose : (pkt :: rest).Perm q.readQueue) :
      QueueStep q (.event .nextReq) [] { q with
        readQueue := rest
        respQueue := q.respQueue ++ [{ pkt with readyTime }]
        reads := q.readsWith pkt readyTime }
  | serveWrite {pkt : DRAMPacket cfg} {rest : List (DRAMPacket cfg)} {readyTime : Tick}
      (hchoose : (pkt :: rest).Perm q.writeQueue) :
      QueueStep q (.event .nextReq) [] { q with
        writeQueue := rest
        reads := q.readsWith pkt readyTime }
  | respond {pkt : DRAMPacket cfg} {rest : List (DRAMPacket cfg)} {complete : Bool}
      {helpers : List BurstHelper} (hqueue : q.respQueue = pkt :: rest)
      (hdone : burstDone q.helpers pkt = some (complete, helpers)) :
      QueueStep q (.event .respond) [] { q with
        respQueue := rest
        helpers
        answered := if complete && pkt.pkt.isRead then q.answer pkt.pkt else q.answered }

/-! ## States with the same queues -/

variable {helper : Option Nat} {s s' : Dram cfg} {P : Dram cfg → DramInput → Prop}

namespace QueueLemmas

variable {s s' : Dram cfg} {pkt : Packet} {α : Type} {t : Dram cfg} {serviced : Nat}

theorem answered_eq (s : Dram cfg) :
    s.queues.answered = s.answers.filterMap DramEvent.answersRead := by
  unfold Dram.queues Dram.answers
  rw [List.filterMap_filter]
  refine List.filterMap_congr fun e _ => ?_
  cases e <;> rfl

theorem reads_eq (s : Dram cfg) : s.queues.reads = s.bursts.filterMap DramEvent.readBurst := by
  unfold Dram.queues Dram.bursts
  rw [List.filterMap_filter]
  refine List.filterMap_congr fun e _ => ?_
  cases e <;> rfl

theorem queues_of_front (h : s.SameFront s') : s'.queues = s.queues := by
  have hanswered : s'.queues.answered = s.queues.answered := by
    rw [answered_eq, answered_eq, show s'.answers = s.answers from congrArg DramFront.answers h]
  have hbursts : s'.queues.reads = s.queues.reads := by
    rw [reads_eq, reads_eq, show s'.bursts = s.bursts from congrArg DramFront.bursts h]
  have hparams : s'.params = s.params := congrArg DramFront.params h
  have hread : s'.readQueue = s.readQueue := congrArg DramFront.readQueue h
  have hwrite : s'.writeQueue = s.writeQueue := congrArg DramFront.writeQueue h
  have hresp : s'.respQueue = s.respQueue := congrArg DramFront.respQueue h
  have hhelpers : s'.helpers = s.helpers := congrArg DramFront.helpers h
  show (⟨s'.params, s'.readQueue, s'.writeQueue, s'.respQueue, s'.helpers, s'.queues.answered,
    s'.queues.reads⟩ : DramQueues cfg) = _
  rw [hanswered, hbursts, hparams, hread, hwrite, hresp, hhelpers]
  rfl

theorem queues_ignores : Dram.Ignores (@Dram.queues cfg) := ⟨fun _ _ _ _ _ _ => rfl, fun _ => rfl⟩

section

variable (s : Dram cfg)

@[simp] theorem arrived_queues (pkt : Packet) : (s.arrived pkt).queues = s.queues := by
  obtain ⟨stats, heq⟩ := arrived_eq s pkt
  rw [heq]
  rfl

@[simp] theorem atRequest_queues : s.atRequest.queues = s.queues := by
  obtain ⟨_, _, _, heq⟩ := atRequest_eq s
  rw [heq]
  rfl

@[simp] theorem turnToWrites_queues : s.turnToWrites.queues = s.queues := by
  unfold Dram.turnToWrites
  split <;> rfl

@[simp] theorem turnToReads_queues : s.turnToReads.queues = s.queues := by
  unfold Dram.turnToReads
  split <;> rfl

theorem accessAndRespond_queues (pkt : Packet) (latency : Tick) :
    (s.accessAndRespond pkt latency).queues = { s.queues with
      answered := if pkt.isRead then s.queues.answer pkt else s.queues.answered } := by
  unfold Dram.accessAndRespond DramQueues.answer
  cases hneeds : pkt.needsResponse with
  | false => simp [Dram.queues]
  | true =>
    simp only [if_true, Dram.queues, Dram.emit, List.filterMap_cons, DramEvent.answersRead]
    cases pkt.isRead <;> rfl

end

/-! ## The two loops -/

section Loops

variable {pktCount cnt serviced serviced' : Nat} {addr : Addr} {helper' : Option Nat}

theorem addReadBursts_adds_settled
    (hsettled : ¬ (1 < pktCount ∧ helper = none)) (hlt : ∀ i ∈ helper, i < s.helpers.length)
    (h : addReadBursts pkt pktCount cnt addr serviced helper s = .ok ((serviced', helper'), s')) :
    ∃ new, AddsReads s.params s.writeQueue pkt helper cnt addr new ∧
      new.length + serviced' = cnt + serviced ∧ helper' = helper ∧
      s'.queues = { s.queues with readQueue := s.readQueue ++ new } := by
  induction cnt generalizing addr serviced s with
  | zero =>
    obtain ⟨heq, rfl⟩ := pure_eq_ok.mp h
    cases heq
    exact ⟨[], .done, rfl, rfl, by rw [List.append_nil]; rfl⟩
  | succ cnt ih =>
    obtain ⟨-, ⟨hfound, h⟩ | ⟨hfound, p, hdecode, -, h⟩⟩ := addReadBursts_succ h
    · obtain ⟨new, hnew, hlen, hhelper, hqueues⟩ := ih (s := s.burstFound pkt) hlt h
      exact ⟨new, .found hfound hnew, by omega, hhelper, hqueues⟩
    · have hfor : s.helperFor pktCount helper = helper := if_neg hsettled
      have hold : s.helpersFor pktCount helper = s.helpers := by
        unfold Dram.helpersFor
        rw [hfor]
        exact if_neg fun h => Nat.lt_irrefl _ (hlt _ h)
      have hlt' : ∀ i ∈ helper, i < (s.helpersFor pktCount helper).length := by
        rw [hold]
        exact hlt
      rw [hfor] at h
      obtain ⟨new, hnew, hlen, hhelper, hqueues⟩ :=
        ih hlt' h
      refine ⟨_ :: new, .queue hfound (decodeAddr_eq_ok hdecode) hnew, ?_, hhelper, ?_⟩
      · rw [List.length_cons]
        omega
      · rw [hqueues]
        unfold Dram.queues Dram.burstQueued Dram.count
        simp only [hfor, hold, List.append_assoc, List.singleton_append]

/-- What a loop that starts without a helper leaves: with nothing queued it has made none,
otherwise a split read has a new one. -/
structure Queued (s s' : Dram cfg) (pktCount : Nat) (new : List (DRAMPacket cfg))
    (helper' : Option Nat) : Prop where
  none : new = [] → s'.queues = s.queues
  helper : new ≠ [] → helper' = s.queues.helperOf pktCount
  some : new ≠ [] → s'.queues = { s.queues with
    readQueue := s.readQueue ++ new
    helpers := if 1 < pktCount then s.helpers ++ [⟨pktCount, 0⟩] else s.helpers }

/-- The loop over the bursts of a read, from its start. -/
theorem addReadBursts_adds
    (h : addReadBursts pkt pktCount cnt addr serviced none s = .ok ((serviced', helper'), s')) :
    ∃ new, AddsReads s.params s.writeQueue pkt (s.queues.helperOf pktCount) cnt addr new ∧
      new.length + serviced' = cnt + serviced ∧ Queued s s' pktCount new helper' := by
  induction cnt generalizing addr serviced s with
  | zero =>
    obtain ⟨heq, rfl⟩ := pure_eq_ok.mp h
    cases heq
    exact ⟨[], .done, rfl, fun _ => rfl, fun h => absurd rfl h, fun h => absurd rfl h⟩
  | succ cnt ih =>
    obtain ⟨-, ⟨hfound, h⟩ | ⟨hfound, p, hdecode, -, h⟩⟩ := addReadBursts_succ h
    · obtain ⟨new, hnew, hlen, hqueued⟩ := ih h
      exact ⟨new, .found hfound hnew, by omega, hqueued.none, hqueued.helper, hqueued.some⟩
    -- the first burst that is not found settles the helper of the packet
    · have hfor : s.helperFor pktCount none = s.queues.helperOf pktCount := by
        unfold Dram.helperFor DramQueues.helperOf
        simp only [and_true]
        rfl
      have hgrown : s.helpersFor pktCount none =
          if 1 < pktCount then s.helpers ++ [⟨pktCount, 0⟩] else s.helpers := by
        unfold Dram.helpersFor
        rw [hfor]
        unfold DramQueues.helperOf
        by_cases hsplit : 1 < pktCount
        · rw [if_pos hsplit, if_pos hsplit]
          exact if_pos rfl
        · rw [if_neg hsplit, if_neg hsplit]
          exact if_neg fun h => nomatch h
      have hsettled : ¬ (1 < pktCount ∧ s.queues.helperOf pktCount = none) := by
        unfold DramQueues.helperOf
        rintro ⟨hsplit, hnone⟩
        rw [if_pos hsplit] at hnone
        cases hnone
      have hlt : ∀ i ∈ s.queues.helperOf pktCount, i < (s.helpersFor pktCount none).length := by
        intro i hi
        rw [hgrown]
        unfold DramQueues.helperOf at hi
        by_cases hsplit : 1 < pktCount
        · rw [if_pos hsplit] at hi ⊢
          cases hi
          rw [List.length_append]
          exact Nat.lt_succ_self _
        · rw [if_neg hsplit] at hi
          cases hi
      rw [hfor] at h
      obtain ⟨new, hnew, hlen, hhelper, hqueues⟩ :=
        addReadBursts_adds_settled hsettled hlt h
      refine ⟨_ :: new, .queue hfound (decodeAddr_eq_ok hdecode) hnew, ?_, ?_⟩
      · rw [List.length_cons]
        omega
      · refine ⟨fun h => absurd h (List.cons_ne_nil _ _), fun _ => hhelper, fun _ => ?_⟩
        rw [hqueues, ← hgrown]
        unfold Dram.queues Dram.burstQueued Dram.count
        simp only [hfor, List.append_assoc, List.singleton_append]
        rfl

theorem addWriteBursts_adds (h : addWriteBursts pkt cnt addr s = .ok ((), s')) :
    ∃ queue, AddsWrites s.params pkt cnt addr s.writeQueue queue ∧
      s'.queues = { s.queues with writeQueue := queue } := by
  induction cnt generalizing addr s with
  | zero =>
    obtain ⟨-, rfl⟩ := pure_eq_ok.mp h
    exact ⟨s.writeQueue, .done, rfl⟩
  | succ cnt ih =>
    obtain ⟨-, ⟨queue₁, hmerge, h⟩ | ⟨hmerge, p, hdecode, hroom, h⟩⟩ := addWriteBursts_succ h
    · obtain ⟨queue, hadds, hqueues⟩ := ih h
      exact ⟨queue, .merge hmerge hadds, hqueues⟩
    · obtain ⟨queue, hadds, hqueues⟩ := ih h
      exact ⟨queue, .add hmerge (decodeAddr_eq_ok hdecode) hroom hadds, hqueues⟩

end Loops

/-! ## Requests -/

theorem modify_append_singleton (f : α → α) (a : α) :
    ∀ xs : List α, (xs ++ [a]).modify xs.length f = xs ++ [f a]
  | [] => rfl
  | x :: xs => by
      rw [List.cons_append, List.length_cons, List.modify_succ_cons, modify_append_singleton f a xs]
      rfl

/-- A read whose bursts were all found is answered, another one has its helper set. -/
theorem readAdded_queues {new : List (DRAMPacket cfg)} (hread : pkt.isRead = true)
    (hlen : new.length + serviced = dramPktCount cfg pkt)
    (hqueued : Queued s t (dramPktCount cfg pkt) new helper) :
    (new = [] → (t.readAdded pkt serviced helper).queues =
        { s.queues with answered := s.queues.answer pkt }) ∧
      (new ≠ [] → (t.readAdded pkt serviced helper).queues =
        { s.queues with
          readQueue := s.readQueue ++ new
          helpers := s.queues.helpersWith (dramPktCount cfg pkt) new.length }) := by
  unfold Dram.readAdded
  constructor
  · intro hnil
    subst hnil
    rw [if_pos (by simpa using hlen), accessAndRespond_queues, hqueued.none rfl, if_pos hread]
  · intro hne
    have hpos : 0 < new.length := List.length_pos_iff.mpr hne
    have hserviced : serviced = dramPktCount cfg pkt - new.length := by omega
    rw [if_neg (by omega), queues_ignores.requestNow]
    have hhelpers : t.helpers = _ := congrArg DramQueues.helpers (hqueued.some hne)
    have hqueues := hqueued.some hne
    rw [hqueued.helper hne]
    unfold DramQueues.helperOf DramQueues.helpersWith
    by_cases hsplit : 1 < dramPktCount cfg pkt
    · rw [if_pos hsplit] at hhelpers hqueues ⊢
      rw [if_pos ⟨hsplit, hpos⟩]
      have hset : t.helpers.modify s.helpers.length (fun h => { h with burstsServiced := serviced })
          = s.helpers ++ [⟨dramPktCount cfg pkt, dramPktCount cfg pkt - new.length⟩] := by
        rw [hhelpers, ← hserviced]
        exact modify_append_singleton _ _ s.helpers
      show { t.queues with
        helpers := t.helpers.modify s.helpers.length fun h => { h with burstsServiced := serviced }
        } = _
      rw [hset, hqueues]
      rfl
    · rw [if_neg hsplit] at hhelpers hqueues ⊢
      rw [if_neg fun h => hsplit h.1]
      exact hqueues

theorem accessAndRespond_queues_of_not_read (hread : pkt.isRead = false) (s : Dram cfg)
    (latency : Tick) : (s.accessAndRespond pkt latency).queues = s.queues := by
  rw [accessAndRespond_queues, if_neg (Bool.eq_false_iff.mp hread)]

theorem read_queues
    (hread : pkt.isRead = true) (hfull : s.readQueueFull (dramPktCount cfg pkt) = false)
    (hcount : dramPktCount cfg pkt ≠ 0)
    (hloop : addReadBursts pkt (dramPktCount cfg pkt) (dramPktCount cfg pkt) pkt.addr 0 none
      (s.arrived pkt) = .ok ((serviced, helper), t)) :
    QueueStep s.queues (.timingReq pkt) [pkt] (t.acceptRead pkt serviced helper).queues := by
  obtain ⟨new, hnew, hlen, hqueued⟩ := addReadBursts_adds hloop
  obtain ⟨hnil, hsome⟩ := readAdded_queues hread hlen hqueued
  have harrived : (s.arrived pkt).queues = s.queues := arrived_queues s pkt
  have hparams : (s.arrived pkt).params = s.params := congrArg DramQueues.params harrived
  have hwrites : (s.arrived pkt).writeQueue = s.writeQueue :=
    congrArg DramQueues.writeQueue harrived
  have hreads : (s.arrived pkt).readQueue = s.readQueue := congrArg DramQueues.readQueue harrived
  rw [hparams, hwrites, harrived] at hnew
  rw [harrived, hreads] at hsome
  rw [harrived] at hnil
  show QueueStep s.queues (.timingReq pkt) [pkt] (t.readAdded pkt serviced helper).queues
  rcases eq_or_ne new [] with rfl | hne
  · rw [hnil rfl]
    exact .forwarded hread hcount hnew
  · rw [hsome hne]
    exact .read hread (Nat.not_lt.mp (of_decide_eq_false hfull)) hne hnew

theorem write_queues (hread : pkt.isRead = false) (hwrite : pkt.isWrite = true)
    (hsize : pkt.size ≠ 0)
    (hfull : s.writeQueueFull (dramPktCount cfg pkt) = false)
    (hloop : addWriteBursts pkt (dramPktCount cfg pkt) pkt.addr (s.arrived pkt) = .ok ((), t)) :
    QueueStep s.queues (.timingReq pkt) [pkt] (t.acceptWrite pkt).queues := by
  obtain ⟨queue, hadds, hqueues⟩ := addWriteBursts_adds hloop
  have harrived : (s.arrived pkt).queues = s.queues := arrived_queues s pkt
  have hparams : (s.arrived pkt).params = s.params := congrArg DramQueues.params harrived
  have hwrites : (s.arrived pkt).writeQueue = s.writeQueue :=
    congrArg DramQueues.writeQueue harrived
  rw [hparams, hwrites] at hadds
  show QueueStep s.queues (.timingReq pkt) [pkt]
    (t.accessAndRespond pkt cfg.frontendLatency).requestNow.queues
  rw [queues_ignores.requestNow, accessAndRespond_queues_of_not_read hread, hqueues, harrived]
  exact .write hread hwrite hsize (Nat.not_lt.mp (of_decide_eq_false hfull)) hadds

@[simp] theorem respondLater_queues (s : Dram cfg) (pkt : DRAMPacket cfg) :
    (s.respondLater pkt).queues =
      { s.queues with respQueue := s.queues.respQueue ++ [pkt] } := rfl

theorem responded_queues (s : Dram cfg) (pkt : DRAMPacket cfg) (rest : List (DRAMPacket cfg))
    (complete : Bool) (helpers : List BurstHelper) :
    (s.responded pkt rest complete helpers).queues = { s.queues with
      respQueue := rest
      helpers
      answered := if complete && pkt.pkt.isRead then s.queues.answer pkt.pkt
        else s.queues.answered } := by
  cases complete with
  | false => rfl
  | true =>
    have hanswer := accessAndRespond_queues { s with respondEvent := none, helpers } pkt.pkt
      (cfg.frontendLatency + cfg.backendLatency)
    show { Dram.queues _ with respQueue := rest } = _
    rw [if_pos rfl, hanswer]
    rfl

theorem served_queues (s : Dram cfg) (pkt : DRAMPacket cfg) (rowHit : Bool) (cmdAt : Tick) :
    (s.served pkt rowHit cmdAt).queues =
      { s.queues with reads := s.queues.readsWith pkt (cfg.burstEnd cmdAt) } := by
  show (s.emit (pkt.burst cmdAt)).queues = _
  unfold DRAMPacket.burst DramQueues.readsWith
  cases pkt.isRead <;> rfl

theorem taken_read (hread : pkt.isRead = true) (hinhibit : pkt.memInhibit = false) :
    s.taken (.timingReq pkt) = if s.readQueueFull (dramPktCount cfg pkt) then [] else [pkt] := by
  unfold Dram.taken
  simp [hread, hinhibit]

theorem taken_write (hread : pkt.isRead = false) (hwrite : pkt.isWrite = true)
    (hinhibit : pkt.memInhibit = false) :
    s.taken (.timingReq pkt) = if s.writeQueueFull (dramPktCount cfg pkt) then [] else [pkt] := by
  unfold Dram.taken
  simp [hread, hwrite, hinhibit]

theorem taken_inhibited (hinhibit : pkt.memInhibit = true) : s.taken (.timingReq pkt) = [] :=
  if_pos hinhibit

theorem taken_other (hread : pkt.isRead = false) (hwrite : pkt.isWrite = false) :
    s.taken (.timingReq pkt) = [] := by
  unfold Dram.taken
  simp [hread, hwrite]

theorem exists_perm_cons {a : α} {xs : List α} (h : a ∈ xs) : ∃ rest, xs.Perm (a :: rest) := by
  obtain ⟨before, after, rfl⟩ := List.append_of_mem h
  exact ⟨before ++ after, List.perm_middle⟩

end QueueLemmas

open QueueLemmas

theorem taken_of_recvTimingReq {pkt : Packet} {accepted : Bool}
    (h : recvTimingReq pkt s = .ok (accepted, s')) :
    s.taken (.timingReq pkt) =
      if accepted && (pkt.isRead || pkt.isWrite) && !pkt.memInhibit then [pkt] else [] := by
  rcases ite_eq_ok.mp h with ⟨hinhibit, h⟩ | ⟨hinhibit, h⟩
  · rw [taken_inhibited hinhibit]
    simp [hinhibit]
  · rw [Bool.not_eq_true] at hinhibit
    simp only [bind_eq_ok, modify_eq_ok, get_eq_ok] at h
    obtain ⟨_, _, rfl, _, _, ⟨rfl, rfl⟩, h⟩ := h
    rcases ite_eq_ok.mp h with ⟨hread, h⟩ | ⟨hread, h⟩
    · rw [taken_read hread hinhibit]
      simp only [bind_eq_ok, DramM.check_eq_ok] at h
      obtain ⟨_, _, ⟨_, rfl⟩, h⟩ := h
      rw [arrived_readQueueFull] at h
      rcases ite_eq_ok.mp h with ⟨hfull, h⟩ | ⟨hfull, h⟩
      · simp only [bind_eq_ok, modify_eq_ok, pure_eq_ok] at h
        obtain ⟨_, _, rfl, _, _, rfl, rfl, rfl⟩ := h
        simp [hfull]
      · simp only [bind_eq_ok, modify_eq_ok, pure_eq_ok] at h
        obtain ⟨_, _, _, _, _, _, _, _, _, rfl, _⟩ := h
        simp [hfull, hread, hinhibit]
    rw [Bool.not_eq_true] at hread
    rcases ite_eq_ok.mp h with ⟨hwrite, h⟩ | ⟨hwrite, h⟩
    · rw [taken_write hread hwrite hinhibit]
      simp only [bind_eq_ok, DramM.check_eq_ok] at h
      obtain ⟨_, _, ⟨_, rfl⟩, h⟩ := h
      rw [arrived_writeQueueFull] at h
      rcases ite_eq_ok.mp h with ⟨hfull, h⟩ | ⟨hfull, h⟩
      · simp only [bind_eq_ok, modify_eq_ok, pure_eq_ok] at h
        obtain ⟨_, _, rfl, _, _, rfl, rfl, rfl⟩ := h
        simp [hfull]
      · simp only [bind_eq_ok, modify_eq_ok, pure_eq_ok] at h
        obtain ⟨_, _, _, _, _, _, _, _, _, rfl, _⟩ := h
        simp [hfull, hwrite, hinhibit]
    · rw [Bool.not_eq_true] at hwrite
      rw [taken_other hread hwrite]
      simp [hread, hwrite]

variable {input : DramInput}

theorem FrontStep.queues {t : Dram cfg} (h : FrontStep s input t) :
    QueueStep s.queues input (s.taken input) t.queues := by
  have hsame {t : Dram cfg} (htaken : s.taken input = []) (heq : t.queues = s.queues) :
      QueueStep s.queues input (s.taken input) t.queues := by
    rw [htaken, heq]
    exact .same
  cases h with
  | inhibited hinhibit => exact hsame (taken_inhibited hinhibit) rfl
  | machine => exact .same
  | refuseRead hinhibit hread hfull =>
    exact hsame ((taken_read hread hinhibit).trans (if_pos hfull)) (arrived_queues s _)
  | refuseWrite hinhibit hread hwrite hfull =>
    exact hsame ((taken_write hread hwrite hinhibit).trans (if_pos hfull)) (arrived_queues s _)
  | read hinhibit hread hfull hcount hloop =>
    rw [taken_read hread hinhibit, if_neg (Bool.eq_false_iff.mp hfull)]
    exact read_queues hread hfull hcount hloop
  | write hinhibit hread hwrite hsize hfull hloop =>
    rw [taken_write hread hwrite hinhibit, if_neg (Bool.eq_false_iff.mp hfull)]
    exact write_queues hread hwrite hsize hfull hloop
  | other hread hwrite =>
    refine hsame (taken_other hread hwrite) ?_
    unfold Dram.answerOther
    rw [accessAndRespond_queues_of_not_read hread]
    exact arrived_queues s _
  | drain => exact hsame rfl (queues_ignores.drain s)
  | set hset => exact .set hset
  | wait => exact hsame rfl (atRequest_queues s)
  | turn => exact hsame rfl ((queues_ignores.again _).trans (atRequest_queues s))
  | sleep => exact hsame rfl ((queues_ignores.sleeping _).trans (atRequest_queues s))
  | @serveRead pkt rest rowHit cmdAt _ _ hchoose =>
    have hperm : (pkt :: rest).Perm s.readQueue := hchoose ▸ chooseNext_perm _ _
    have hserved := served_queues { s.atRequest with readQueue := rest } pkt rowHit cmdAt
    have hat : { s.atRequest with readQueue := rest }.queues =
        { s.queues with readQueue := rest } := by
      rw [← atRequest_queues s]
      rfl
    rw [queues_ignores.again, turnToWrites_queues, respondLater_queues, hserved, hat]
    exact .serveRead hperm
  | @serveWrite pkt rest rowHit cmdAt _ _ hchoose =>
    have hperm : (pkt :: rest).Perm s.writeQueue := hchoose ▸ chooseNext_perm _ _
    have hat : { s.atRequest with writeQueue := rest }.queues =
        { s.queues with writeQueue := rest } := by
      rw [← atRequest_queues s]
      rfl
    rw [queues_ignores.again, turnToReads_queues, served_queues, hat]
    exact .serveWrite hperm
  | respond hqueue hdone =>
    rw [queues_ignores.retryRead, queues_ignores.nextResponse, responded_queues]
    exact .respond hqueue hdone
  | refreshEnd | advance => exact hsame rfl rfl

/-! ## Entries -/

namespace DramQueues

variable {I : DRAMPacket cfg → Prop} {params : ParamTable} {pkt : Packet} {cnt : Nat} {addr : Addr}

/-- What every decoded burst of a read has, the new entries have. -/
theorem AddsReads.forall_mem {writeQueue new : List (DRAMPacket cfg)}
    (h : AddsReads params writeQueue pkt helper cnt addr new)
    (hdecode : ∀ addr p, Decoded params pkt addr (burstLen cfg pkt addr) true p →
      I { p with burstHelper := helper }) : ∀ p ∈ new, I p := by
  induction h with
  | done => exact fun _ hp => (List.not_mem_nil hp).elim
  | found _ _ ih => exact ih
  | queue _ hp _ ih => exact List.forall_mem_cons.mpr ⟨hdecode _ _ hp, ih⟩

/-- What every decoded burst of a write has and a merge keeps, the entries keep. -/
theorem AddsWrites.forall_mem {queue queue' : List (DRAMPacket cfg)}
    (h : AddsWrites params pkt cnt addr queue queue')
    (hmerge : ∀ addr w w', mergeInto cfg addr (burstLen cfg pkt addr) w = some w' → I w → I w')
    (hdecode : ∀ addr p, Decoded params pkt addr (burstLen cfg pkt addr) false p → I p)
    (hqueue : ∀ p ∈ queue, I p) : ∀ p ∈ queue', I p := by
  induction h with
  | done => exact hqueue
  | merge hmerged _ ih =>
    obtain ⟨before, w, w', after, rfl, rfl, hw, -⟩ := mergeWrite_eq hmerged
    refine ih (List.forall_mem_append.mpr ⟨fun p hp => hqueue p (by simp [hp]), ?_⟩)
    refine List.forall_mem_cons.mpr ⟨hmerge _ _ _ hw (hqueue w (by simp)), fun p hp => ?_⟩
    exact hqueue p (by simp [hp])
  | add _ hp _ _ ih =>
    refine ih (List.forall_mem_append.mpr ⟨hqueue, fun p hmem => ?_⟩)
    obtain rfl := List.mem_singleton.mp hmem
    exact hdecode _ _ hp

end DramQueues

/-! ## Runs -/

theorem call_queueStep (hen : s.Enabled input) (h : DramM.call input s = .ok ((), s')) :
    QueueStep s.queues input (s.taken input) s'.queues := by
  obtain ⟨t, hstep, hfront⟩ := call_frontStep hen h
  rw [queues_of_front hfront]
  exact hstep.queues

/-- What holds of empty queues and is kept by every step holds in every run. -/
theorem Dram.Reachable.queues_induct {I : DramQueues cfg → Prop} (h : s.Reachable P)
    (hinit : I (Dram.startup cfg 0).queues)
    (hstep : ∀ (s : Dram cfg) input taken q, I s.queues → P s input →
      QueueStep s.queues input taken q → I q) :
    I s.queues := by
  refine h.induct (I := fun s => I s.queues) (fun _ => hinit)
    fun s input s' _ hs hen hP hcall => ?_
  exact hstep s input (s.taken input) s'.queues hs hP (call_queueStep hen hcall)

/-! ## Accepted requests -/

namespace Dram

/-- The read or the write that is accepted with the input, by what `recvTimingReq` returns. A
packet whose memory inhibit flag is set is accepted and dropped: a cache answers it. -/
def accepts (s : Dram cfg) : DramInput → List Packet
  | .timingReq pkt =>
    match recvTimingReq pkt s with
    | .ok (accepted, _) =>
      if accepted && (pkt.isRead || pkt.isWrite) && !pkt.memInhibit then [pkt] else []
    | .error _ => []
  | _ => []

/-- The runs, with the requests that were accepted in them and the write queue that each of
them met. -/
inductive Accepts (P : Dram cfg → DramInput → Prop) :
    Dram cfg → List (Packet × List (DRAMPacket cfg)) → Prop
  | startup (now : Tick) : Accepts P (startup cfg now) []
  | step {s s' : Dram cfg} {input : DramInput} {accepted : List (Packet × List (DRAMPacket cfg))}
      (hs : Accepts P s accepted) (hP : P s input) (hen : s.Enabled input)
      (hcall : DramM.call input s = .ok ((), s')) :
      Accepts P s' ((s.accepts input).map (·, s.writeQueue) ++ accepted)

variable {P : Dram cfg → DramInput → Prop} {s s' : Dram cfg}
  {accepted : List (Packet × List (DRAMPacket cfg))}

theorem Accepts.reachable (h : Accepts P s accepted) : s.Reachable P := by
  induction h with
  | startup now => exact .startup ⟨now, rfl⟩
  | step _ hP hen hcall ih => exact ih.step hen hP hcall

theorem Reachable.accepts (h : s.Reachable P) : ∃ accepted, Accepts P s accepted := by
  refine h.induct (I := fun s => ∃ accepted, Accepts P s accepted) (fun now => ?_)
    fun s input s' _ ih hen hP hcall => ?_
  · exact ⟨[], .startup now⟩
  · obtain ⟨accepted, hs⟩ := ih
    exact ⟨_, hs.step hP hen hcall⟩

theorem accepts_eq (h : DramM.call input s = .ok ((), s')) : s.accepts input = s.taken input := by
  cases input with
  | timingReq pkt =>
    obtain ⟨accepted, hrecv⟩ := discard_eq_ok.mp h
    unfold accepts
    dsimp only
    rw [hrecv, taken_of_recvTimingReq hrecv]
  | _ => rfl

end Dram

structure DramQueues.Sorted (q : DramQueues cfg) : Prop where
  reads : ∀ p ∈ q.readQueue, p.isRead = true
  writes : ∀ p ∈ q.writeQueue, p.isRead = false

theorem DramQueues.Sorted.step {q q' : DramQueues cfg} {taken : List Packet}
    (h : q.Sorted) (hstep : QueueStep q input taken q') : q'.Sorted := by
  cases hstep with
  | same => exact h
  | set | forwarded | respond => exact ⟨h.reads, h.writes⟩
  | read _ _ _ hnew =>
    exact ⟨List.forall_mem_append.mpr ⟨h.reads, hnew.forall_mem fun _ _ hp => hp.isRead⟩, h.writes⟩
  | write _ _ _ _ hnew =>
    refine ⟨h.reads, hnew.forall_mem (fun _ w w' hmerge hw => ?_) (fun _ _ hp => hp.isRead)
      h.writes⟩
    obtain ⟨_, _, rfl⟩ := mergeInto_eq hmerge
    exact hw
  | serveRead hchoose =>
    exact ⟨fun p hp => h.reads p (hchoose.mem_iff.mp (List.mem_cons_of_mem _ hp)), h.writes⟩
  | serveWrite hchoose =>
    exact ⟨h.reads, fun p hp => h.writes p (hchoose.mem_iff.mp (List.mem_cons_of_mem _ hp))⟩

theorem Dram.Reachable.sorted (h : s.Reachable P) : s.queues.Sorted :=
  h.queues_induct ⟨fun _ hp => (List.not_mem_nil hp).elim, fun _ hp => (List.not_mem_nil hp).elim⟩
    fun _ _ _ _ hs _ hstep => hs.step hstep

end PardG5V
