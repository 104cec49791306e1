import Mathlib.Logic.Relation
import PardG5V.Dram.OpenRows
import PardG5V.Dram.Queues

/-!
# The data bus

The controller computes backwards from the tick up to which the bus is spoken for: the column
command comes tCL before it, the next request event tRP, tRCD and tCL before it. Every burst moves
the tick to its own end, and a turn of the bus adds a bubble. Result: `data_bus_exclusive`.
-/

namespace PardG5V

open Prog Relation FrontLemmas QueueLemmas BankLemmas

variable {cfg : DramConfig} {s s' : Dram cfg} {input : DramInput} {P : Dram cfg → DramInput → Prop}

/-! ## The machine -/

/-- A burst on the data bus: tBURST from its start on. -/
structure BusSlot where
  isRead : Bool
  start : Tick
deriving DecidableEq, Repr

/-- The burst of an event of the log. For a read the log has its column command, for a write
the end of its burst. -/
def DramEvent.slot : DramEvent cfg → Option BusSlot
  | .read _ cmdAt => some ⟨true, cmdAt + cfg.tCL⟩
  | .write _ doneAt => some ⟨false, doneAt - cfg.tBURST⟩
  | _ => none

def BusState.reads : BusState → Bool
  | .READ => true
  | .WRITE_TO_READ => true
  | .WRITE => false
  | .READ_TO_WRITE => false

def DramConfig.lead (cfg : DramConfig) : Tick := cfg.tRP + cfg.tRCD + cfg.tCL

/-- The bubble when the bus turns away from reads or from writes. -/
def DramConfig.bubble (cfg : DramConfig) (reads : Bool) : Tick :=
  if reads then cfg.tRTW else cfg.tWTR + cfg.tCL

/-- The bus with its bursts, the newest first. -/
structure DramBus where
  reads : Bool
  busyUntil : Tick
  nextReqTime : Tick
  slots : List BusSlot

def Dram.bus (s : Dram cfg) : DramBus where
  reads := s.busState.reads
  busyUntil := s.busBusyUntil
  nextReqTime := s.nextReqTime
  slots := s.log.filterMap DramEvent.slot

namespace DramBus

def busy (b : DramBus) (cfg : DramConfig) (tick : Tick) : DramBus :=
  { b with busyUntil := tick, nextReqTime := tick - cfg.lead }

def turn (b : DramBus) (cfg : DramConfig) : DramBus :=
  { b.busy cfg (b.busyUntil + cfg.bubble b.reads) with reads := !b.reads }

def serve (b : DramBus) (cfg : DramConfig) (start : Tick) : DramBus :=
  { b.busy cfg (start + cfg.tBURST) with slots := ⟨b.reads, start⟩ :: b.slots }

end DramBus

inductive BusStep (cfg : DramConfig) (b : DramBus) : DramBus → Prop
  | turn : BusStep cfg b (b.turn cfg)
  | serve {start : Tick} (hfree : b.busyUntil ≤ start) : BusStep cfg b (b.serve cfg start)

abbrev BusSteps (cfg : DramConfig) : DramBus → DramBus → Prop := ReflTransGen (BusStep cfg)

/-! ## Inputs -/

namespace BusLemmas

variable {s s' t : Dram cfg} {pkt : Packet}

theorem slots_eq (s : Dram cfg) : s.bus.slots = s.bursts.filterMap DramEvent.slot := by
  unfold Dram.bus Dram.bursts
  rw [List.filterMap_filter]
  refine List.filterMap_congr fun e _ => ?_
  cases e <;> rfl

theorem bus_of_front (h : s.SameFront s') : s'.bus = s.bus := by
  have hslots : s'.bus.slots = s.bus.slots := by
    rw [slots_eq, slots_eq, show s'.bursts = s.bursts from congrArg DramFront.bursts h]
  have hstate : s'.busState = s.busState := congrArg DramFront.busState h
  have hbusy : s'.busBusyUntil = s.busBusyUntil := congrArg DramFront.busBusyUntil h
  have hnext : s'.nextReqTime = s.nextReqTime := congrArg DramFront.nextReqTime h
  show (⟨s'.busState.reads, s'.busBusyUntil, s'.nextReqTime, s'.bus.slots⟩ : DramBus) = _
  rw [hslots, hstate, hbusy, hnext]
  rfl

theorem bus_ignores : Dram.Ignores (@Dram.bus cfg) := ⟨fun _ _ _ _ _ _ => rfl, fun _ => rfl⟩

section

variable (s : Dram cfg)

@[simp] theorem arrived_bus (pkt : Packet) : (s.arrived pkt).bus = s.bus := by
  obtain ⟨stats, heq⟩ := arrived_eq s pkt
  rw [heq]
  rfl

@[simp] theorem accessAndRespond_bus (pkt : Packet) (latency : Tick) :
    (s.accessAndRespond pkt latency).bus = s.bus := by
  unfold Dram.accessAndRespond
  split <;> rfl

theorem responded_bus (pkt : DRAMPacket cfg) (rest : List (DRAMPacket cfg))
    (complete : Bool) (helpers : List BurstHelper) :
    (s.responded pkt rest complete helpers).bus = s.bus := by
  cases complete with
  | false => rfl
  | true => exact accessAndRespond_bus { s with respondEvent := none, helpers } pkt.pkt _

end

theorem addReadBursts_bus {pktCount cnt serviced : Nat} {addr : Addr} {helper : Option Nat}
    {r : Nat × Option Nat}
    (h : addReadBursts pkt pktCount cnt addr serviced helper s = .ok (r, s')) : s'.bus = s.bus := by
  induction cnt generalizing addr serviced helper s with
  | zero =>
    obtain ⟨-, rfl⟩ := pure_eq_ok.mp h
    rfl
  | succ cnt ih =>
    obtain ⟨-, ⟨-, h⟩ | ⟨-, p, -, -, h⟩⟩ := addReadBursts_succ h
    · exact ih (s := s.burstFound pkt) h
    · exact ih (s := s.burstQueued pkt pktCount helper p) h

theorem addWriteBursts_bus {cnt : Nat} {addr : Addr}
    (h : addWriteBursts pkt cnt addr s = .ok ((), s')) : s'.bus = s.bus := by
  induction cnt generalizing addr s with
  | zero =>
    obtain ⟨-, rfl⟩ := pure_eq_ok.mp h
    rfl
  | succ cnt ih =>
    obtain ⟨-, ⟨queue, -, h⟩ | ⟨-, p, -, -, h⟩⟩ := addWriteBursts_succ h
    · exact ih (s := s.burstMerged pkt queue) h
    · exact ih (s := s.burstAdded pkt p) h

theorem acceptRead_bus (s : Dram cfg) (pkt : Packet) (serviced : Nat) (helper : Option Nat) :
    (s.acceptRead pkt serviced helper).bus = s.bus := by
  show (s.readAdded pkt serviced helper).bus = s.bus
  unfold Dram.readAdded
  split
  · exact accessAndRespond_bus s pkt _
  · exact bus_ignores.requestNow _

theorem acceptWrite_bus (s : Dram cfg) (pkt : Packet) : (s.acceptWrite pkt).bus = s.bus := by
  show (s.accessAndRespond pkt cfg.frontendLatency).requestNow.bus = s.bus
  rw [bus_ignores.requestNow, accessAndRespond_bus]

/-- Before it serves anything, the request event only completes a turn of the bus. -/
@[simp] theorem atRequest_bus (s : Dram cfg) : s.atRequest.bus = s.bus := by
  unfold Dram.atRequest Dram.turnedAround Dram.bus
  dsimp only [Dram.stopTimer]
  cases s.busState <;> simp [BusState.reads]

theorem turnTo_bus (s : Dram cfg) (busState : BusState)
    (hturn : busState.reads = !s.busState.reads) :
    (s.turnTo busState (cfg.bubble s.busState.reads)).bus = s.bus.turn cfg := by
  show (⟨busState.reads, _, _, _⟩ : DramBus) = _
  rw [hturn]
  rfl

theorem turnToWrites_bus (hreads : s.busState.reads = true) :
    BusSteps cfg s.bus s.turnToWrites.bus := by
  unfold Dram.turnToWrites
  split
  · have hturn := turnTo_bus s .READ_TO_WRITE (by rw [hreads]; rfl)
    rw [hreads] at hturn
    exact .single (hturn ▸ .turn)
  · exact .refl

theorem turnToReads_bus (hreads : s.busState.reads = false) :
    BusSteps cfg s.bus s.turnToReads.bus := by
  unfold Dram.turnToReads
  split
  · have hturn := turnTo_bus s .WRITE_TO_READ (by rw [hreads]; rfl)
    rw [hreads] at hturn
    exact .single (hturn ▸ .turn)
  · exact .refl

theorem served_bus (s : Dram cfg) (p : DRAMPacket cfg) (rowHit : Bool) (cmdAt : Tick)
    (hread : p.isRead = s.busState.reads) :
    (s.served p rowHit cmdAt).bus = s.bus.serve cfg (cmdAt + cfg.tCL) := by
  have hslot : (p.burst cmdAt).slot = some ⟨s.busState.reads, cmdAt + cfg.tCL⟩ := by
    unfold DRAMPacket.burst
    rw [hread]
    cases s.busState.reads with
    | false => exact congrArg (fun start => some (BusSlot.mk false start)) (Nat.add_sub_cancel _ _)
    | true => rfl
  show (⟨_, _, _, (p.burst cmdAt :: s.log).filterMap DramEvent.slot⟩ : DramBus) = _
  rw [List.filterMap_cons_some hslot]
  rfl

theorem reads_of_eq {busState : BusState} (h : busState = .READ) : busState.reads = true := by
  rw [h]
  rfl

theorem atRequest_not_read (h : s.atRequest.busState ≠ .READ) :
    s.atRequest.busState.reads = false := by
  unfold Dram.atRequest Dram.turnedAround at h ⊢
  dsimp only [Dram.stopTimer] at h ⊢
  cases hbus : s.busState <;> simp_all [BusState.reads]

end BusLemmas

open BusLemmas

theorem FrontStep.bus {t : Dram cfg} (hsorted : s.queues.Sorted)
    (h : FrontStep s input t) : BusSteps cfg s.bus t.bus := by
  have hsame {t : Dram cfg} (heq : t.bus = s.bus) : BusSteps cfg s.bus t.bus := heq ▸ .refl
  cases h with
  | inhibited | machine | set | refreshEnd | advance => exact .refl
  | refuseRead | refuseWrite => exact hsame (arrived_bus s _)
  | read _ _ _ _ hloop =>
    refine hsame ?_
    rw [acceptRead_bus, addReadBursts_bus hloop, arrived_bus]
  | write _ _ _ _ _ hloop =>
    refine hsame ?_
    rw [acceptWrite_bus, addWriteBursts_bus hloop, arrived_bus]
  | other =>
    refine hsame ?_
    unfold Dram.answerOther
    rw [accessAndRespond_bus]
    exact arrived_bus s _
  | drain => exact hsame (bus_ignores.drain s)
  | wait => exact hsame (atRequest_bus s)
  | turn _ hbus =>
    have hturn := turnTo_bus s.atRequest .READ_TO_WRITE (by rw [reads_of_eq hbus]; rfl)
    rw [reads_of_eq hbus, atRequest_bus] at hturn
    rw [bus_ignores.again]
    exact .single (hturn ▸ .turn)
  | sleep => exact hsame ((bus_ignores.sleeping _).trans (atRequest_bus s))
  | @serveRead pkt rest rowHit cmdAt _ hbus hchoose hcmd =>
    have hperm : (pkt :: rest).Perm s.readQueue := hchoose ▸ chooseNext_perm _ _
    have hread : pkt.isRead = true :=
      hsorted.reads pkt (hperm.mem_iff.mp (List.mem_cons_self ..))
    have hbefore : Dram.bus { s.atRequest with readQueue := rest } = s.bus := atRequest_bus s
    have hserved := served_bus { s.atRequest with readQueue := rest } pkt rowHit cmdAt
      (hread.trans (reads_of_eq hbus).symm)
    rw [bus_ignores.again]
    refine .trans (.single ?_) (turnToWrites_bus (reads_of_eq hbus))
    show BusStep cfg s.bus ({ s.atRequest with readQueue := rest }.served pkt rowHit cmdAt).bus
    rw [hserved, hbefore]
    exact .serve hcmd
  | @serveWrite pkt rest rowHit cmdAt _ hbus hchoose hcmd =>
    have hperm : (pkt :: rest).Perm s.writeQueue := hchoose ▸ chooseNext_perm _ _
    have hread : pkt.isRead = false :=
      hsorted.writes pkt (hperm.mem_iff.mp (List.mem_cons_self ..))
    have hbefore : Dram.bus { s.atRequest with writeQueue := rest } = s.bus := atRequest_bus s
    have hserved := served_bus { s.atRequest with writeQueue := rest } pkt rowHit cmdAt
      (hread.trans (atRequest_not_read hbus).symm)
    rw [bus_ignores.again]
    refine .trans (.single ?_) (turnToReads_bus (atRequest_not_read hbus))
    rw [hserved, hbefore]
    exact .serve hcmd
  | respond =>
    refine hsame ?_
    rw [bus_ignores.retryRead, bus_ignores.nextResponse, responded_bus]

theorem call_busSteps (hsorted : s.queues.Sorted)
    (hen : s.Enabled input) (h : DramM.call input s = .ok ((), s')) :
    BusSteps cfg s.bus s'.bus := by
  obtain ⟨t, hstep, hfront⟩ := call_frontStep hen h
  rw [bus_of_front hfront]
  exact hstep.bus hsorted

/-! ## Bursts -/

/-- The tick from which on the bus is free for a burst in the direction. -/
def BusSlot.freeFor (slot : BusSlot) (cfg : DramConfig) (reads : Bool) : Tick :=
  slot.start + cfg.tBURST + if slot.isRead = reads then 0 else cfg.bubble slot.isRead

structure DramBus.Ordered (b : DramBus) (cfg : DramConfig) : Prop where
  lead : cfg.lead ≤ b.busyUntil
  next : b.nextReqTime = 0 ∨ b.nextReqTime + cfg.lead = b.busyUntil
  starts : ∀ slot ∈ b.slots, cfg.lead ≤ slot.start
  past : ∀ slot ∈ b.slots, slot.freeFor cfg b.reads ≤ b.busyUntil
  apart : b.slots.Pairwise fun later earlier => earlier.freeFor cfg later.isRead ≤ later.start

namespace DramBus.Ordered

variable {b b' : DramBus}

theorem step (h : b.Ordered cfg) (hstep : BusStep cfg b b') : b'.Ordered cfg := by
  cases hstep with
  | turn =>
    have hlead : cfg.lead ≤ b.busyUntil + cfg.bubble b.reads :=
      Nat.le_trans h.lead (Nat.le_add_right _ _)
    refine ⟨hlead, .inr (Nat.sub_add_cancel hlead), h.starts, fun slot hslot => ?_, h.apart⟩
    have hover := h.past slot hslot
    show slot.freeFor cfg (!b.reads) ≤ b.busyUntil + cfg.bubble b.reads
    unfold BusSlot.freeFor at hover ⊢
    by_cases hsame : slot.isRead = b.reads
    · rw [if_pos hsame] at hover
      rw [if_neg (by rw [hsame]; exact (Bool.eq_not_self _).mp), hsame]
      exact Nat.add_le_add_right hover _
    · rw [if_pos (Bool.eq_not_of_ne hsame)]
      exact Nat.le_trans (Nat.le_trans (Nat.add_le_add_left (Nat.zero_le _) _) hover)
        (Nat.le_add_right _ _)
  | @serve start hfree =>
    have hlead : cfg.lead ≤ start := Nat.le_trans h.lead hfree
    have hend : cfg.lead ≤ start + cfg.tBURST := Nat.le_trans hlead (Nat.le_add_right _ _)
    have hover : ∀ slot ∈ b.slots, slot.freeFor cfg b.reads ≤ start := fun slot hslot =>
      Nat.le_trans (h.past slot hslot) hfree
    refine ⟨hend, .inr (Nat.sub_add_cancel hend), ?_, ?_, List.pairwise_cons.mpr ⟨hover, h.apart⟩⟩
    · exact List.forall_mem_cons.mpr ⟨hlead, h.starts⟩
    · refine List.forall_mem_cons.mpr ⟨Nat.le_of_eq ?_, fun slot hslot => ?_⟩
      · show start + cfg.tBURST + (if b.reads = b.reads then 0 else _) = start + cfg.tBURST
        rw [if_pos rfl, Nat.add_zero]
      · exact Nat.le_trans (hover slot hslot) (Nat.le_add_right _ _)

theorem steps (h : b.Ordered cfg) (hsteps : BusSteps cfg b b') : b'.Ordered cfg := by
  induction hsteps with
  | refl => exact h
  | tail _ hstep ih => exact ih.step hstep

end DramBus.Ordered

theorem Dram.Reachable.ordered (h : s.Reachable P) : s.bus.Ordered cfg := by
  refine h.induct (I := fun s => s.bus.Ordered cfg) (fun now => ?_)
    fun s input s' hs ih hen _ hcall => ?_
  · have hlead : cfg.lead ≤ now + cfg.tRP + cfg.tRCD + cfg.tCL :=
      Nat.add_le_add_right (Nat.add_le_add_right (Nat.le_add_left _ _) _) _
    exact ⟨hlead, .inl rfl, fun _ hslot => (List.not_mem_nil hslot).elim,
      fun _ hslot => (List.not_mem_nil hslot).elim, .nil⟩
  · exact ih.steps (call_busSteps hs.sorted hen hcall)

/-! ## Column commands -/

/-- The row buffer and the tick of a column command. -/
def DramEvent.column : DramEvent cfg → Option (RowBuf cfg × Tick)
  | .read buf cmdAt => some (buf, cmdAt)
  | .write buf doneAt => some (buf, doneAt - cfg.tBURST - cfg.tCL)
  | _ => none

/-- Every column command finds its row buffer open, and comes tRCD after the activate that
opened it. -/
def ColumnsTimed : List (DramEvent cfg) → Prop
  | [] => True
  | e :: past => (∀ c ∈ e.column, ∃ o ∈ openedAt c.1 past, o + cfg.tRCD ≤ c.2) ∧ ColumnsTimed past

theorem columnsTimed_step {A : ActivateRule cfg}
    (hs : s.Clocked) (h : ColumnsTimed s.commands) (hstep : BankStep A s s') :
    ColumnsTimed s'.commands := by
  cases hstep with
  | keep hcore => rwa [show s'.commands = s.commands from congrArg DramCore.commands hcore]
  | activate =>
    rw [activated_commands]
    exact ⟨fun _ hc => (Option.not_mem_none _ hc).elim, h⟩
  | precharge => exact ⟨fun _ hc => (Option.not_mem_none _ hc).elim, h⟩
  | @access pkt cmdAt readyTime hopen hcol _ hready =>
    obtain ⟨o, ho⟩ : ∃ o, openedAt pkt.rowBuf s.commands = some o := by
      refine Option.isSome_iff_exists.mp ((hs.opened pkt.rowBuf).trans ?_)
      rw [hopen]
      rfl
    have hcolumn : ∃ o ∈ openedAt pkt.rowBuf s.commands, o + cfg.tRCD ≤ cmdAt :=
      ⟨o, ho, Nat.le_trans (hs.col pkt.rowBuf o ho) hcol⟩
    rw [accessed_commands]
    refine ⟨fun c hc => ?_, h⟩
    cases hread : pkt.isRead with
    | true =>
      rw [hread] at hc
      cases hc
      exact hcolumn
    | false =>
      rw [hread] at hc
      cases hc
      rwa [hready, Nat.add_sub_cancel, Nat.add_sub_cancel]
  | defer => exact h

theorem Dram.Reachable.columns (h : s.Reachable P) : ColumnsTimed s.commands :=
  h.commands_induct trivial (fun _ _ hs hlog hstep => columnsTimed_step hs hlog hstep)
    fun _ _ hpast => ⟨⟨fun _ hc => (Option.not_mem_none _ hc).elim, hpast⟩,
      ⟨fun _ hc => (Option.not_mem_none _ hc).elim, hpast⟩⟩

/-- In every run the bursts take disjoint intervals of the bus in the order of service, tRTW or tWTR
and tCL apart where it turns, every column command comes tRCD after its activate, and the tick from
which the controller computes backwards lies far enough ahead. -/
theorem data_bus_exclusive {s : Dram cfg} (h : s.Reachable fun _ _ => True) :
    (s.bus.slots.Pairwise fun later earlier =>
      earlier.start + cfg.tBURST ≤ later.start ∧
      (earlier.isRead = true → later.isRead = false →
        earlier.start + cfg.tBURST + cfg.tRTW ≤ later.start) ∧
      (earlier.isRead = false → later.isRead = true →
        earlier.start + cfg.tBURST + (cfg.tWTR + cfg.tCL) ≤ later.start)) ∧
    ColumnsTimed s.commands ∧
    cfg.tRP + cfg.tRCD + cfg.tCL ≤ s.busBusyUntil ∧
    (∀ slot ∈ s.bus.slots, cfg.tRP + cfg.tRCD + cfg.tCL ≤ slot.start + cfg.tBURST) ∧
    (s.nextReqTime = 0 ∨ s.nextReqTime + (cfg.tRP + cfg.tRCD + cfg.tCL) = s.busBusyUntil) := by
  have hordered := h.ordered
  refine ⟨hordered.apart.imp fun {later earlier} hapart => ?_, h.columns,
    hordered.lead,
    fun slot hslot => Nat.le_trans (hordered.starts slot hslot) (Nat.le_add_right _ _),
    hordered.next⟩
  unfold BusSlot.freeFor at hapart
  refine ⟨Nat.le_trans (Nat.le_add_right _ _) hapart, fun hearlier hlater => ?_,
    fun hearlier hlater => ?_⟩
  · rw [hearlier, hlater] at hapart
    exact hapart
  · rw [hearlier, hlater] at hapart
    exact hapart

/-- The bus turns to a write and back to a read. -/
theorem data_bus_exclusive_turns : ∃ s : Dram .oneBank, s.Reachable (fun _ _ => True) ∧
      s.bus.slots = [⟨true, 15⟩, ⟨false, 11⟩, ⟨true, 6⟩] ∧ ColumnsTimed s.commands := by
  obtain ⟨s, hs, hslots⟩ := Dram.exists_reachable (P := fun _ _ => True) 0
    [.timingReq (rowsReq .WriteReq 1 1), .timingReq (rowsReq .ReadReq 2 1), .event .nextReq,
      .event .activate, .event .power, .advance 1, .event .nextReq, .advance 2, .event .nextReq,
      .timingReq (rowsReq .ReadReq 1 1), .advance 7, .event .respond, .event .precharge,
      .event .activate, .advance 9, .event .nextReq]
    (fun s : Dram .oneBank => s.bus.slots = [⟨true, 15⟩, ⟨false, 11⟩, ⟨true, 6⟩])
    (by decide +kernel)
  exact ⟨s, hs, hslots, (data_bus_exclusive hs).2.1⟩

end PardG5V
