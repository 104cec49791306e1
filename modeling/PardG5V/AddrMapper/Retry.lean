import PardG5V.AddrMapper.Tlb
import PardG5V.Mem.Packet

/-!
# Sending a packet through the address mapper

`recvTimingReq` and `recvTimingResp` of `PARDg5VAddrMapper`. The mapper writes the translated
address into the packet, pushes a sender state that remembers the original one, and undoes both
when the response comes back. A refused packet is offered again later, with what the refused
attempt left behind in it.

Results: `sendReq_transparent_iff`, `rejected_request_translated_twice`.
-/

namespace PardG5V

/-- `numGuests` of `PARDg5VAddrMapper::regStats`: the size of the traffic
statistics. -/
def numGuests : Nat := 4

/-- `PARDg5VRangeAddrMapper` with its table and traffic statistics. -/
structure AddrMapper where
  tlb : LDomAddrTLB
  bytesRead : Nat → Nat := fun _ => 0
  bytesWritten : Nat → Nat := fun _ => 0
  pendingDelete : List Packet := []

/-- What one call of `recvTimingReq` does: the mapper and the packet it leaves,
the packet as the memory side saw it, and the returned flag. -/
structure ReqResult where
  mapper : AddrMapper
  pkt : Packet
  sent : Option Packet
  successful : Bool

structure RespResult where
  pkt : Packet
  sent : Packet
  successful : Bool

namespace AddrMapper

/-- Adds to one entry of a statistics vector, which asserts its index. -/
def addStat (stat : Nat → Nat) (guest : GuestID) (n : Nat) : Except Abort (Nat → Nat) := do
  assert (guest.toNat < numGuests)
  return fun g => if g = guest.toNat then stat g + n else stat g

def countBytes (m : AddrMapper) (pkt : Packet) : Except Abort AddrMapper := do
  let bytesRead ←
    (if pkt.isRead then addStat m.bytesRead pkt.guestID pkt.size else pure m.bytesRead)
  let bytesWritten ←
    (if pkt.isWrite then addStat m.bytesWritten pkt.guestID pkt.size else pure m.bytesWritten)
  return { m with bytesRead, bytesWritten }

def translated (m : AddrMapper) (pkt : Packet) : Packet :=
  let pushed :=
    if pkt.needsResponse && !pkt.memInhibit then pkt.pushSenderState (.addrMapper pkt.addr)
    else pkt
  { pushed with
    addr := m.tlb.remapAddr pkt.guestID pkt.addr, busFirstWordDelay := 0, busLastWordDelay := 0 }

/-- `recvTimingReq`; `accepts` is the answer of `masterPort.sendTimingReq`. -/
def recvTimingReq (m : AddrMapper) (pkt : Packet) (accepts : Bool) : Except Abort ReqResult := do
  -- an inhibited packet is dropped here, because the bus below takes no express snoops
  if pkt.memInhibit then
    return ⟨{ m with pendingDelete := [pkt] }, pkt, none, true⟩
  else
    assert (!pkt.expressSnoop)
    let m ← { m with pendingDelete := [] }.countBytes pkt
    let sent := m.translated pkt
    -- a refused packet only loses the pushed sender state
    let left ← (if !accepts && pkt.needsResponse then sent.popSenderState else pure sent)
    return ⟨m, left, some sent, accepts⟩

/-- `recvTimingResp`; `accepts` is the answer of `slavePort.sendTimingResp`. -/
def recvTimingResp (pkt : Packet) (accepts : Bool) : Except Abort RespResult :=
  match pkt.senderState with
  | .addrMapper origAddr :: predecessor =>
    let sent := { pkt with senderState := predecessor, addr := origAddr, busFirstWordDelay := 0,
                           busLastWordDelay := 0 }
    if accepts then .ok ⟨sent, sent, true⟩
    else .ok ⟨{ sent with senderState := pkt.senderState, addr := pkt.addr }, sent, false⟩
  | _ => .error .panicked

/-! ## Histories of refusals -/

/-- The refused attempts of a send, each with the packet before and after it,
the packets the receiving side saw, and the packet as it was finally accepted. -/
structure SendHistory where
  rejected : List (Packet × Packet)
  seen : List Packet
  accepted : Packet

/-- The CPU side sends one request packet; the memory side refuses it `k` times
and then accepts it. After a refusal the same packet is sent again. -/
def sendReq (m : AddrMapper) (pkt : Packet) : Nat → Except Abort SendHistory
  | 0 => do
    let r ← m.recvTimingReq pkt true
    return ⟨[], r.sent.toList, r.pkt⟩
  | k + 1 => do
    let r ← m.recvTimingReq pkt false
    if r.successful then
      return ⟨[], r.sent.toList, r.pkt⟩
    else
      let later ← sendReq r.mapper r.pkt k
      return ⟨(pkt, r.pkt) :: later.rejected, r.sent.toList ++ later.seen, later.accepted⟩

/-- The memory side sends one response packet; the CPU side refuses it `k` times
and then accepts it. -/
def sendResp (pkt : Packet) : Nat → Except Abort SendHistory
  | 0 => do
    let r ← recvTimingResp pkt true
    return ⟨[], [r.sent], r.sent⟩
  | k + 1 => do
    let r ← recvTimingResp pkt false
    let later ← sendResp r.pkt k
    return ⟨(pkt, r.pkt) :: later.rejected, r.sent :: later.seen, later.accepted⟩

/-- A refused attempt left the address and the sender states alone. -/
def Untouched (attempt : Packet × Packet) : Prop :=
  attempt.2.addr = attempt.1.addr ∧ attempt.2.senderState = attempt.1.senderState

/-- The memory side only saw the address translated once, refused attempts left the packet alone,
and a response that keeps the accepted packet's address and stack is delivered with the requester's
after any number of refusals. -/
structure Transparent (tlb : LDomAddrTLB) (pkt : Packet) (h : SendHistory) : Prop where
  seen : ∀ q ∈ h.seen, q.addr = tlb.remapAddr pkt.guestID pkt.addr
  rejected : ∀ attempt ∈ h.rejected, Untouched attempt
  response : pkt.needsResponse = true → pkt.memInhibit = false →
    ∀ resp : Packet, resp.addr = h.accepted.addr → resp.senderState = h.accepted.senderState →
    ∀ k, ∃ back, sendResp resp k = .ok back ∧ (∀ attempt ∈ back.rejected, Untouched attempt) ∧
      back.accepted.addr = pkt.addr ∧ back.accepted.senderState = pkt.senderState

/-- The assertions of `recvTimingReq` hold of the packet. -/
def Admits (pkt : Packet) : Prop :=
  pkt.memInhibit = true ∨
    pkt.expressSnoop = false ∧
      ((pkt.isRead || pkt.isWrite) = true → pkt.guestID.toNat < numGuests)

/-! ## One attempt -/

/-- The packet that a refused attempt leaves: the address stays translated. -/
def refused (m : AddrMapper) (pkt : Packet) : Packet :=
  { pkt with
    addr := m.tlb.remapAddr pkt.guestID pkt.addr, busFirstWordDelay := 0, busLastWordDelay := 0 }

namespace RetryLemmas

variable {m : AddrMapper} {pkt : Packet}

open Prog

theorem addStat_ok {stat : Nat → Nat} {guest : GuestID} {n : Nat}
    (h : guest.toNat < numGuests) : ∃ stat', addStat stat guest n = .ok stat' := by
  simp [addStat, h, bind, Except.bind, pure, Except.pure]

theorem countBytes_ok (h : (pkt.isRead || pkt.isWrite) = true → pkt.guestID.toNat < numGuests) :
    ∃ m', m.countBytes pkt = .ok m' ∧ m'.tlb = m.tlb := by
  have hstat : ∀ (c : Bool) (stat : Nat → Nat), (c = true → pkt.guestID.toNat < numGuests) →
      ∃ stat', (if c then addStat stat pkt.guestID pkt.size else pure stat) = .ok stat' := by
    intro c stat hc
    cases c with
    | false => exact ⟨stat, rfl⟩
    | true => exact addStat_ok (hc rfl)
  obtain ⟨br, hbr⟩ := hstat pkt.isRead m.bytesRead fun hr => h (by simp [hr])
  obtain ⟨bw, hbw⟩ := hstat pkt.isWrite m.bytesWritten fun hw => h (by simp [hw])
  refine ⟨{ m with bytesRead := br, bytesWritten := bw }, ?_, rfl⟩
  unfold countBytes
  rw [hbr, hbw]
  rfl

theorem translated_congr {m' : AddrMapper} (h : m'.tlb = m.tlb) (pkt : Packet) :
    m'.translated pkt = m.translated pkt := by
  simp [translated, h]

/-- Popping the sender state of an offered packet leaves the refused packet. -/
theorem translated_pop (hin : pkt.memInhibit = false) (hr : pkt.needsResponse = true) :
    (m.translated pkt).popSenderState = .ok (m.refused pkt) := by
  simp [translated, refused, hin, hr, Packet.pushSenderState, Packet.popSenderState]

theorem translated_of_no_response
    (hr : pkt.needsResponse = false) : m.translated pkt = m.refused pkt := by
  simp [translated, refused, hr]

end RetryLemmas

open RetryLemmas Prog

/-- The mapper drops an inhibited packet and reports success. -/
theorem recvTimingReq_inhibited (m : AddrMapper) {pkt : Packet} (hin : pkt.memInhibit = true)
    (accepts : Bool) :
    m.recvTimingReq pkt accepts = .ok ⟨{ m with pendingDelete := [pkt] }, pkt, none, true⟩ := by
  simp [recvTimingReq, hin, pure, Except.pure]

/-- Any other packet is offered translated. An accepted packet stays so, and a
refused one loses the sender state but not the translated address. -/
theorem recvTimingReq_offered (m : AddrMapper) {pkt : Packet} (hin : pkt.memInhibit = false)
    (hadm : Admits pkt) (accepts : Bool) :
    ∃ m', m'.tlb = m.tlb ∧ m.recvTimingReq pkt accepts =
      .ok ⟨m', if accepts then m.translated pkt else m.refused pkt, some (m.translated pkt),
        accepts⟩ := by
  rcases hadm with hadm | ⟨hex, hstat⟩
  · rw [hin] at hadm
    exact absurd hadm Bool.false_ne_true
  · obtain ⟨m', hm', htlb⟩ := countBytes_ok (m := { m with pendingDelete := [] }) hstat
    refine ⟨m', htlb, ?_⟩
    have htr : m'.translated pkt = m.translated pkt := translated_congr htlb pkt
    have hleft : (if !accepts && pkt.needsResponse then (m.translated pkt).popSenderState
        else pure (m.translated pkt)) =
        .ok (if accepts then m.translated pkt else m.refused pkt) := by
      cases accepts with
      | true => rfl
      | false =>
        cases hr : pkt.needsResponse with
        | true => exact translated_pop hin hr
        | false =>
          rw [translated_of_no_response hr]
          rfl
    unfold recvTimingReq
    rw [hin, hex, if_neg Bool.false_ne_true, Bool.not_false, assert_true, hm']
    show (do
      let left ← (if !accepts && pkt.needsResponse then (m'.translated pkt).popSenderState
        else pure (m'.translated pkt))
      return _) = _
    rw [htr, hleft]
    rfl

def delayless (pkt : Packet) : Packet :=
  { pkt with busFirstWordDelay := 0, busLastWordDelay := 0 }

def delivered (origAddr : Addr) (predecessor : List SenderState) (resp : Packet) : Packet :=
  { resp with
    senderState := predecessor, addr := origAddr, busFirstWordDelay := 0, busLastWordDelay := 0 }

/-- A response that carries the mapper's sender state is offered restored. A
refused one gets its translated address and its sender state back. -/
theorem recvTimingResp_offered {a : Addr} {rest : List SenderState} {resp : Packet}
    (hs : resp.senderState = .addrMapper a :: rest) (accepts : Bool) :
    recvTimingResp resp accepts =
      .ok ⟨if accepts then delivered a rest resp
        else delayless resp,
        delivered a rest resp, accepts⟩ := by
  cases accepts with
  | true => simp [recvTimingResp, hs, delivered]
  | false => simp [recvTimingResp, hs, delivered, delayless]

/-- A response is delivered with the remembered address and the stack below it,
and every refusal on the way leaves it as it was. -/
theorem recvTimingResp_restores (a : Addr) (rest : List SenderState) (k : Nat) :
    ∀ resp : Packet, resp.senderState = .addrMapper a :: rest →
      ∃ back, sendResp resp k = .ok back ∧ (∀ attempt ∈ back.rejected, Untouched attempt) ∧
        back.accepted.addr = a ∧ back.accepted.senderState = rest := by
  induction k with
  | zero =>
    intro resp hs
    refine ⟨⟨[], [delivered a rest resp], delivered a rest resp⟩, ?_,
      fun _ h => absurd h List.not_mem_nil, rfl, rfl⟩
    unfold sendResp
    rw [recvTimingResp_offered hs]
    rfl
  | succ k ih =>
    intro resp hs
    obtain ⟨back, hback, hrej, haddr, hstack⟩ := ih (delayless resp) hs
    refine ⟨⟨(resp, delayless resp) :: back.rejected, delivered a rest resp :: back.seen,
      back.accepted⟩, ?_,
      ?_, haddr, hstack⟩
    · unfold sendResp
      rw [recvTimingResp_offered hs]
      show (do let later ← sendResp (delayless resp) k; _) = _
      rw [hback]
      rfl
    · intro attempt hmem
      rcases List.mem_cons.mp hmem with rfl | hmem
      · exact ⟨rfl, rfl⟩
      · exact hrej attempt hmem

/-! ## Whole histories of a request -/

namespace RetryLemmas

variable {pkt : Packet}

theorem admits_refused (m : AddrMapper) (h : Admits pkt) : Admits (m.refused pkt) := h

theorem sendReq_inhibited (m : AddrMapper) (hin : pkt.memInhibit = true) (k : Nat) :
    sendReq m pkt k = .ok ⟨[], [], pkt⟩ := by
  cases k with
  | zero | succ k =>
    unfold sendReq
    rw [recvTimingReq_inhibited m hin]
    rfl

theorem sendReq_zero (m : AddrMapper) (hin : pkt.memInhibit = false) (hadm : Admits pkt) :
    sendReq m pkt 0 = .ok ⟨[], [m.translated pkt], m.translated pkt⟩ := by
  obtain ⟨m', _, hr⟩ := recvTimingReq_offered m hin hadm true
  unfold sendReq
  rw [hr]
  rfl

theorem sendReq_succ (m : AddrMapper) (hin : pkt.memInhibit = false) (hadm : Admits pkt) (k : Nat) :
    ∃ m', m'.tlb = m.tlb ∧ ∀ later, sendReq m' (m.refused pkt) k = .ok later →
      sendReq m pkt (k + 1) = .ok ⟨(pkt, m.refused pkt) :: later.rejected,
        m.translated pkt :: later.seen, later.accepted⟩ := by
  obtain ⟨m', htlb, hr⟩ := recvTimingReq_offered m hin hadm false
  refine ⟨m', htlb, fun later hlater => ?_⟩
  unfold sendReq
  rw [hr]
  show (do let later ← sendReq m' (m.refused pkt) k; _) = _
  rw [hlater]
  rfl

/-- Every admitted request is accepted in the end. -/
theorem sendReq_total (k : Nat) :
    ∀ (m : AddrMapper) (pkt : Packet), Admits pkt → ∃ run, sendReq m pkt k = .ok run := by
  induction k with
  | zero =>
    intro m pkt hadm
    cases hin : pkt.memInhibit with
    | true => exact ⟨_, sendReq_inhibited m hin 0⟩
    | false => exact ⟨_, sendReq_zero m hin hadm⟩
  | succ k ih =>
    intro m pkt hadm
    cases hin : pkt.memInhibit with
    | true => exact ⟨_, sendReq_inhibited m hin (k + 1)⟩
    | false =>
      obtain ⟨m', _, hsucc⟩ := sendReq_succ m hin hadm k
      obtain ⟨later, hlater⟩ := ih m' (m.refused pkt) (admits_refused m hadm)
      exact ⟨_, hsucc later hlater⟩

theorem transparent_inhibited {m : AddrMapper} {k : Nat} {run : SendHistory}
    (hin : pkt.memInhibit = true) (hrun : sendReq m pkt k = .ok run) :
    Transparent m.tlb pkt run := by
  rw [sendReq_inhibited m hin] at hrun
  cases hrun
  refine ⟨fun _ h => absurd h List.not_mem_nil, fun _ h => absurd h List.not_mem_nil, ?_⟩
  intro _ hno
  rw [hin] at hno
  exact absurd hno.symm Bool.false_ne_true

theorem transparent_accepted {m : AddrMapper} {run : SendHistory} (hadm : Admits pkt)
    (hrun : sendReq m pkt 0 = .ok run) : Transparent m.tlb pkt run := by
  cases hin : pkt.memInhibit with
  | true => exact transparent_inhibited hin hrun
  | false =>
    rw [sendReq_zero m hin hadm] at hrun
    cases hrun
    refine ⟨?_, fun _ h => absurd h List.not_mem_nil, ?_⟩
    · intro q hq
      rw [List.mem_singleton.mp hq]
      rfl
    · intro hr _ resp _ hstack k
      refine recvTimingResp_restores pkt.addr pkt.senderState k resp ?_
      rw [hstack]
      simp [translated, hin, hr, Packet.pushSenderState]

/-- Where the table does not move the address, no history changes it. -/
theorem transparent_of_fixed (k : Nat) :
    ∀ (m : AddrMapper) (pkt : Packet) (run : SendHistory), Admits pkt →
      m.tlb.remapAddr pkt.guestID pkt.addr = pkt.addr → sendReq m pkt k = .ok run →
      Transparent m.tlb pkt run := by
  induction k with
  | zero =>
    intro m pkt run hadm _ hrun
    exact transparent_accepted hadm hrun
  | succ k ih =>
    intro m pkt run hadm hfix hrun
    cases hin : pkt.memInhibit with
    | true => exact transparent_inhibited hin hrun
    | false =>
      obtain ⟨m', htlb, hsucc⟩ := sendReq_succ m hin hadm k
      obtain ⟨later, hlater⟩ := sendReq_total k m' (m.refused pkt) (admits_refused m hadm)
      rw [hsucc later hlater] at hrun
      cases hrun
      -- the refused packet has the address of `pkt`, so the later history is one of `pkt` too
      have haddr : (m.refused pkt).addr = pkt.addr := hfix
      have hfix' : m'.tlb.remapAddr (m.refused pkt).guestID (m.refused pkt).addr =
          (m.refused pkt).addr := by
        rw [htlb, haddr]
        exact hfix
      obtain ⟨hseen, hrej, hresp⟩ := ih m' (m.refused pkt) later
        (admits_refused m hadm) hfix' hlater
      rw [htlb, haddr] at hseen
      rw [haddr] at hresp
      refine ⟨?_, ?_, hresp⟩
      · intro q hq
        rcases List.mem_cons.mp hq with rfl | hq
        · rfl
        · exact hseen q hq
      · intro attempt hmem
        rcases List.mem_cons.mp hmem with rfl | hmem
        · exact ⟨haddr, rfl⟩
        · exact hrej attempt hmem

end RetryLemmas

/-- Sending a request is invisible to both sides exactly when it is answered above the mapper, is
accepted at once, or has an address that the table does not move. -/
theorem sendReq_transparent_iff (m : AddrMapper) (pkt : Packet) (k : Nat) (hadm : Admits pkt) :
    ∃ run, sendReq m pkt k = .ok run ∧
      (Transparent m.tlb pkt run ↔
        pkt.memInhibit = true ∨ k = 0 ∨ m.tlb.remapAddr pkt.guestID pkt.addr = pkt.addr) := by
  obtain ⟨run, hrun⟩ := sendReq_total k m pkt hadm
  refine ⟨run, hrun, ?_, ?_⟩
  · intro ht
    cases hin : pkt.memInhibit with
    | true => exact .inl rfl
    | false =>
      cases k with
      | zero => exact .inr (.inl rfl)
      | succ k =>
        obtain ⟨m', _, hsucc⟩ := sendReq_succ m hin hadm k
        obtain ⟨later, hlater⟩ := sendReq_total k m' (m.refused pkt) (admits_refused m hadm)
        rw [hsucc later hlater] at hrun
        cases hrun
        exact .inr (.inr (ht.rejected (pkt, m.refused pkt) List.mem_cons_self).1)
  · rintro (hin | rfl | hfix)
    · exact transparent_inhibited hin hrun
    · exact transparent_accepted hadm hrun
    · exact transparent_of_fixed k m pkt run hadm hfix hrun

/-- A mapper of LDom 1 whose first range is mapped onto the addresses of its
second one. -/
def chained : AddrMapper where
  tlb := [⟨1, 0x0, 0x1000, 0x1000⟩, ⟨1, 0x1000, 0x1000, 0x5000⟩]

def chainedRead : Packet :=
  .ofRequest { paddr := 0x20, size := 8, qosTag := 1, masterId := 0 } .ReadReq

theorem chainedRead_admits : Admits chainedRead := .inr ⟨by decide, fun _ => by decide⟩

/-- The read is not invisible once it was refused. -/
theorem sendReq_transparent_iff_chained :
    Admits chainedRead ∧ ∃ run, sendReq chained chainedRead 1 = .ok run ∧
      (Transparent chained.tlb chainedRead run ↔
        chainedRead.memInhibit = true ∨ 1 = 0 ∨
          chained.tlb.remapAddr chainedRead.guestID chainedRead.addr = chainedRead.addr) :=
  ⟨chainedRead_admits, sendReq_transparent_iff chained chainedRead 1 chainedRead_admits⟩

/-- A read refused once is translated twice: it reaches `0x5020` and not the
`0x1020` that its own address translates to. -/
theorem rejected_request_translated_twice :
    ∃ run, sendReq chained chainedRead 1 = .ok run ∧ run.seen.map (·.addr) = [0x1020, 0x5020] ∧
      chained.tlb.remapAddr chainedRead.guestID chainedRead.addr = 0x1020 ∧
      ¬ Transparent chained.tlb chainedRead run := by
  refine ⟨_, rfl, by decide, by decide, fun ht => ?_⟩
  exact absurd (ht.rejected _ List.mem_cons_self).1 (by decide)

end AddrMapper

end PardG5V
