import PardG5V.AddrMapper.Retry

/-!
# The traffic statistics of the address mapper

`bytesRead` and `bytesWritten` of `PARDg5VAddrMapper`. A request is counted when it is offered to
the memory side. In timing mode it may be refused, and then the same request comes again and is
counted again.

Results: `traffic_counted_iff`, `refused_read_counted_twice`.
-/

namespace PardG5V

namespace AddrMapper

/-- What one call of `recvAtomic` does: the packet that the memory side saw, and the packet that
is left, with its own address. -/
structure AtomicResult where
  mapper : AddrMapper
  pkt : Packet
  sent : Packet
  tick : Tick

/-- `recvAtomic`; `reply` is the packet as `masterPort.sendAtomic` leaves it, with its latency. -/
def recvAtomic (m : AddrMapper) (pkt : Packet) (reply : Packet × Tick) :
    Except Abort AtomicResult := do
  let m ← m.countBytes pkt
  let sent := { pkt with addr := m.tlb.remapAddr pkt.guestID pkt.addr }
  return ⟨m, { reply.1 with addr := pkt.addr }, sent, reply.2⟩

/-- A request from the CPU side, with the answer of the memory side. -/
inductive MapperInput
  | atomic (pkt : Packet) (reply : Packet × Tick)
  | timing (pkt : Packet) (accepts : Bool)

def request (m : AddrMapper) : MapperInput → Except Abort AddrMapper
  | .atomic pkt reply => do return (← m.recvAtomic pkt reply).mapper
  | .timing pkt accepts => do return (← m.recvTimingReq pkt accepts).mapper

def run (m : AddrMapper) : List MapperInput → Except Abort AddrMapper
  | [] => return m
  | input :: inputs => do run (← m.request input) inputs

namespace MapperInput

def accepted : MapperInput → List Packet
  | .atomic pkt _ => [pkt]
  | .timing pkt accepts => if !pkt.memInhibit && accepts then [pkt] else []

def refused : MapperInput → List Packet
  | .atomic _ _ => []
  | .timing pkt accepts => if !pkt.memInhibit && !accepts then [pkt] else []

end MapperInput

/-- The bytes that the requests of a guest transfer, in the direction `dir`. -/
def traffic (dir : Packet → Bool) (g : Nat) (pkts : List Packet) : Nat :=
  ((pkts.filter fun pkt => dir pkt && pkt.guestID.toNat == g).map Packet.size).sum

/-- The statistics of every guest are the bytes of its requests that were accepted. -/
def Counted (m : AddrMapper) (inputs : List MapperInput) : Prop :=
  ∀ g, m.bytesRead g = traffic Packet.isRead g (inputs.flatMap MapperInput.accepted) ∧
    m.bytesWritten g = traffic Packet.isWrite g (inputs.flatMap MapperInput.accepted)

namespace TrafficLemmas

open Prog

variable {m m' : AddrMapper} {pkt : Packet} {dir : Packet → Bool} {g : Nat}

@[simp] theorem traffic_nil : traffic dir g [] = 0 := rfl

theorem traffic_append (xs ys : List Packet) :
    traffic dir g (xs ++ ys) = traffic dir g xs + traffic dir g ys := by
  unfold traffic
  rw [List.filter_append, List.map_append, List.sum_append]

theorem traffic_eq_zero_iff {pkts : List Packet} :
    (∀ g, traffic dir g pkts = 0) ↔ ∀ pkt ∈ pkts, dir pkt = true → pkt.size = 0 := by
  unfold traffic
  simp only [List.sum_eq_zero_iff_forall_eq_nat, List.mem_map, List.mem_filter, Bool.and_eq_true,
    beq_iff_eq]
  constructor
  · intro h pkt hmem hdir
    exact h pkt.guestID.toNat pkt.size ⟨pkt, ⟨hmem, hdir, rfl⟩, rfl⟩
  · rintro h g _ ⟨pkt, ⟨hmem, hdir, -⟩, rfl⟩
    exact h pkt hmem hdir

theorem addStat_counts {stat stat' : Nat → Nat}
    (h : (if dir pkt then addStat stat pkt.guestID pkt.size else pure stat) = .ok stat') :
    stat' g = stat g + traffic dir g [pkt] := by
  cases hdir : dir pkt with
  | false =>
    rw [hdir] at h
    cases h
    simp [traffic, hdir]
  | true =>
    rw [hdir, if_pos rfl, addStat, except_bind_eq_ok] at h
    obtain ⟨-, -, h⟩ := h
    cases h
    by_cases heq : g = pkt.guestID.toNat
    · simp [traffic, hdir, heq]
    · simp [traffic, hdir, heq, Ne.symm heq]

theorem countBytes_counts (h : m.countBytes pkt = .ok m') :
    m'.bytesRead g = m.bytesRead g + traffic Packet.isRead g [pkt] ∧
      m'.bytesWritten g = m.bytesWritten g + traffic Packet.isWrite g [pkt] := by
  simp only [countBytes, except_bind_eq_ok] at h
  obtain ⟨_, hread, _, hwritten, h⟩ := h
  cases h
  exact ⟨addStat_counts hread, addStat_counts hwritten⟩

/-- A request is counted whether it is accepted or refused. -/
theorem request_counts {input : MapperInput} (h : m.request input = .ok m') :
    m'.bytesRead g = m.bytesRead g + traffic Packet.isRead g (input.accepted ++ input.refused) ∧
      m'.bytesWritten g =
        m.bytesWritten g + traffic Packet.isWrite g (input.accepted ++ input.refused) := by
  cases input with
  | atomic pkt reply =>
    simp only [request, recvAtomic, except_bind_eq_ok] at h
    obtain ⟨_, ⟨_, hcount, hr⟩, hm⟩ := h
    cases hr
    cases hm
    exact countBytes_counts hcount
  | timing pkt accepts =>
    simp only [request, recvTimingReq, except_bind_eq_ok, except_ite_eq_ok] at h
    obtain ⟨_, ⟨hin, hr⟩ | ⟨hin, _, -, _, hcount, _, -, hr⟩, hm⟩ := h
    · cases hr
      cases hm
      simp [MapperInput.accepted, MapperInput.refused, hin]
    · cases hr
      cases hm
      have hall : (MapperInput.timing pkt accepts).accepted ++
          (MapperInput.timing pkt accepts).refused = [pkt] := by
        cases accepts <;> simp [MapperInput.accepted, MapperInput.refused, hin]
      rw [hall]
      exact countBytes_counts (m := { m with pendingDelete := [] }) hcount

theorem run_counts {inputs : List MapperInput} (h : m.run inputs = .ok m') :
    m'.bytesRead g = m.bytesRead g + traffic Packet.isRead g (inputs.flatMap (·.accepted)) +
        traffic Packet.isRead g (inputs.flatMap (·.refused)) ∧
      m'.bytesWritten g = m.bytesWritten g + traffic Packet.isWrite g
        (inputs.flatMap (·.accepted)) +
        traffic Packet.isWrite g (inputs.flatMap (·.refused)) := by
  induction inputs generalizing m with
  | nil =>
    cases h
    exact ⟨rfl, rfl⟩
  | cons input inputs ih =>
    simp only [run, except_bind_eq_ok] at h
    obtain ⟨m₁, hone, hrest⟩ := h
    have hstep := request_counts (g := g) hone
    simp only [List.flatMap_cons, traffic_append] at hstep ⊢
    rw [(ih hrest).1, (ih hrest).2, hstep.1, hstep.2]
    constructor <;> ac_rfl

end TrafficLemmas

open TrafficLemmas

/-- The statistics of a mapper are right after a sequence of requests exactly if no request that
transfers data was refused in it. -/
theorem traffic_counted_iff (tlb : LDomAddrTLB) (inputs : List MapperInput) (m : AddrMapper)
    (h : run { tlb } inputs = .ok m) :
    m.Counted inputs ↔
      ∀ pkt ∈ inputs.flatMap (·.refused), (pkt.isRead || pkt.isWrite) = true → pkt.size = 0 := by
  have hzero {a b : Nat} : 0 + a + b = a ↔ b = 0 := by
    rw [Nat.zero_add]
    exact Nat.add_eq_left
  have hsplit : m.Counted inputs ↔
      (∀ g, traffic Packet.isRead g (inputs.flatMap (·.refused)) = 0) ∧
        ∀ g, traffic Packet.isWrite g (inputs.flatMap (·.refused)) = 0 := by
    rw [← forall_and]
    refine forall_congr' fun g => ?_
    rw [(run_counts (g := g) h).1, (run_counts (g := g) h).2]
    exact and_congr hzero hzero
  rw [hsplit, traffic_eq_zero_iff, traffic_eq_zero_iff, ← forall₂_and]
  refine forall₂_congr fun pkt _ => ?_
  rw [Bool.or_eq_true, or_imp]

def guestWrite : Packet :=
  .ofRequest { paddr := 0x40, size := 4, qosTag := 2, masterId := 0 } .WriteReq

/-- Timing reads of one guest, and an atomic write of another between them. -/
def twoGuests : List MapperInput :=
  [.timing chainedRead true, .atomic guestWrite (guestWrite, 1), .timing chainedRead true]

theorem traffic_counted_iff_accepted : ∃ m, run { tlb := chained.tlb } twoGuests = .ok m ∧
    m.bytesRead 1 = 16 ∧ m.bytesWritten 2 = 4 ∧ m.Counted twoGuests :=
  ⟨_, rfl, by decide, by decide, (traffic_counted_iff _ twoGuests _ rfl).mpr (by decide)⟩

/-- A read of eight bytes that is refused once and then accepted is counted with sixteen. -/
theorem refused_read_counted_twice :
    ∃ m, run { tlb := chained.tlb } [.timing chainedRead false, .timing chainedRead true] = .ok m ∧
      m.bytesRead 1 = 16 ∧ ¬ m.Counted [.timing chainedRead false, .timing chainedRead true] := by
  refine ⟨_, rfl, by decide, fun h => ?_⟩
  exact absurd (h 1).1 (by decide)

end AddrMapper

end PardG5V
