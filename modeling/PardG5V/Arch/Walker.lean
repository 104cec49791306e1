import Mathlib.Logic.Function.Basic
import PardG5V.Lib.Bytes
import PardG5V.Lib.Machine
import PardG5V.Mem.Packet

/-!
# The page-table walker

`arch/x86/pagetable_walker.cc`: a walk reads one page-table entry per level and writes an entry
back when its accessed bit was clear. In timing mode its packets go through a port that may refuse
them, and one walk waits for the other. In atomic and functional mode a walk is one call.

`answers` says which of the next packets the port accepts, `replies` holds the data of the next
atomic and functional reads, and `sent` lists all packets, the latest first. Tables have at most
four levels, so the loops of the source take at most four rounds (`walk_rounds_le`).
-/

namespace PardG5V

open Prog

/-! ## Registers and entries -/

/-- The registers of a thread context that a walk reads. -/
structure MiscRegs where
  qr0 : BitVec 64
  cr3 : BitVec 64
  efer : BitVec 64
  cr4 : BitVec 64
  m5reg : BitVec 64
deriving DecidableEq, Repr

/-- `BaseTLB::Mode`. -/
inductive TLBMode
  | Read
  | Write
  | Execute
deriving DecidableEq, Repr

/-- `WalkerState::State`. -/
inductive WalkState
  | Ready
  | Waiting
  | LongPML4
  | LongPDP
  | LongPD
  | LongPTE
  | PAEPDP
  | PAEPD
  | PAEPTE
  | PSEPD
  | PD
  | PTE
deriving DecidableEq, Repr

abbrev PageTableEntry := BitVec 64

namespace PageTableEntry

def nx (pte : PageTableEntry) : Bool := pte.getLsbD 63
def g (pte : PageTableEntry) : Bool := pte.getLsbD 8
def ps (pte : PageTableEntry) : Bool := pte.getLsbD 7
def a (pte : PageTableEntry) : Bool := pte.getLsbD 5
def pcd (pte : PageTableEntry) : Bool := pte.getLsbD 4
def u (pte : PageTableEntry) : Bool := pte.getLsbD 2
def w (pte : PageTableEntry) : Bool := pte.getLsbD 1
def p (pte : PageTableEntry) : Bool := pte.getLsbD 0

def setA (pte : PageTableEntry) : PageTableEntry := pte ||| 0x20

/-- `pte & (mask(40) << 12)`. -/
def base40 (pte : PageTableEntry) : Addr := pte &&& 0x000FFFFFFFFFF000

/-- `pte & (mask(31) << 21)`. -/
def base31 (pte : PageTableEntry) : Addr := pte &&& 0x000FFFFFFFE00000

/-- `pte & (mask(20) << 12)`. -/
def base20 (pte : PageTableEntry) : Addr := pte &&& 0x00000000FFFFF000

/-- The base of a 4 MB page: `bits(pte, 20, 13) << 32 | bits(pte, 31, 22) << 22`. -/
def base4M (pte : PageTableEntry) : Addr :=
  (pte.extractLsb' 13 8).setWidth 64 <<< 32 ||| (pte.extractLsb' 22 10).setWidth 64 <<< 22

end PageTableEntry

/-- The index into a table that the `width` bits of an address from `low` on give, times the
size of an entry. -/
def tableOffset (vaddr : Addr) (low width dataSize : Nat) : Addr :=
  (vaddr.extractLsb' low width).setWidth 64 * BitVec.ofNat 64 dataSize

/-- `TlbEntry`: what a walk writes. -/
structure TlbEntry where
  paddr : Addr := 0
  vaddr : Addr := 0
  logBytes : Nat := 0
  writable : Bool := false
  user : Bool := false
  uncacheable : Bool := false
  global : Bool := false
  patBit : Bool := false
  noExec : Bool := false
deriving DecidableEq, Repr

structure PageFault where
  vaddr : Addr
  present : Bool
  mode : TLBMode
  user : Bool
deriving DecidableEq, Repr

/-! ## State -/

/-- How a packet is handed to the port. -/
inductive AccessMode
  | timing
  | atomic
  | functional
deriving DecidableEq, Repr

/-- A packet handed to the port, with the register `MISCREG_QR0` of the context of its walk at
that moment. -/
structure WalkPacket where
  mode : AccessMode
  accepted : Bool
  qr0 : BitVec 64
  pkt : Packet
deriving DecidableEq, Repr

/-- `WalkerState`. `id` stands for the pointer, `vaddr` for the address of its request, `squashed`
for the state of its translation, and `writes` lists a vector, its back first. -/
structure WalkerState where
  id : Nat
  tc : Nat
  vaddr : Addr
  squashed : Bool := false
  state : WalkState := .Ready
  nextState : WalkState := .Ready
  dataSize : Nat := 8
  enableNX : Bool := false
  inflight : Nat := 0
  entry : TlbEntry := {}
  read : Option Packet := none
  writes : List Packet := []
  timingFault : Option PageFault := none
  mode : TLBMode
  functional : Bool := false
  timing : Bool := false
  retrying : Bool := false
  started : Bool := false
deriving DecidableEq, Repr

/-- What all walks share. `inserted` are the entries given to the TLB and `finished` the walks whose
translation was told of their end, the latest first. -/
structure WalkerShared where
  masterId : Nat
  regs : Nat → MiscRegs
  answers : List Bool := []
  replies : List (List Byte) := []
  sent : List WalkPacket := []
  inserted : List TlbEntry := []
  finished : List (Nat × Option PageFault) := []

structure Walk where
  self : WalkerState
  shared : WalkerShared

abbrev WalkM := Prog Abort Walk

namespace Packet

def setQosTag (pkt : Packet) (tag : BitVec 64) : Packet :=
  { pkt with qosTag := tag, req := { pkt.req with qosTag := tag } }

/-- `get<T>()` for a word of `n` bytes. -/
def getWord (pkt : Packet) (n : Nat) : Except Abort (BitVec 64) := do
  let bytes ← pkt.getPtr
  assert (n ≤ pkt.size)
  return BitVec.ofNat 64 (Bytes.value (bytes.take n))

/-- `set<uint64_t>(v)`. -/
def setWord64 (pkt : Packet) (v : BitVec 64) : Except Abort Packet := do
  let bytes ← pkt.getPtr
  assert (8 ≤ pkt.size)
  return { pkt with data := some (writeBytes bytes 0 (Bytes.littleEndian 8 v.toNat)) }

end Packet

/-! ## One level of a walk -/

/-- What the entry of one level leads to: the next table, or the end of the walk. -/
structure PteStep where
  entry : TlbEntry
  nextState : WalkState := .Ready
  nextRead : Addr := 0
  doWrite : Bool := false
  doTLBInsert : Bool := false
  doEndWalk : Bool := false
  faults : Bool := false
deriving DecidableEq, Repr

namespace PteStep

def fault (entry : TlbEntry) : PteStep := { entry, doEndWalk := true, faults := true }

def table (entry : TlbEntry) (nextState : WalkState) (nextRead : Addr) (doWrite : Bool) : PteStep :=
  { entry, nextState, nextRead, doWrite }

/-- The walk ends with a page of `logBytes` address bits, whose address keeps the bits of
`pageMask`. -/
def page (entry : TlbEntry) (pte : PageTableEntry) (logBytes : Nat) (paddr : Addr)
    (patBit : Bool) (pageMask : Addr) : PteStep :=
  { entry := { entry with
      logBytes, paddr, uncacheable := pte.pcd, global := pte.g, patBit
      vaddr := entry.vaddr &&& pageMask }
    doTLBInsert := true, doEndWalk := true }

end PteStep

namespace WalkerState

/-- The `switch` of `stepWalk`. -/
def stepEntry (s : WalkerState) (pte : PageTableEntry) : Except Abort PteStep :=
  let vaddr := s.entry.vaddr
  let badNX := pte.nx && s.mode == .Execute && s.enableNX
  -- a first level sets the rights, the levels below it narrow them
  let first := { s.entry with writable := pte.w, user := pte.u }
  let inner := { s.entry with
    writable := s.entry.writable && pte.w, user := s.entry.user && pte.u }
  let doWrite := !pte.a
  match s.state with
  | .LongPML4 => .ok <|
      if badNX || !pte.p then .fault first
      else .table { first with noExec := pte.nx } .LongPDP
        (pte.base40 + tableOffset vaddr 30 9 s.dataSize) doWrite
  | .LongPDP => .ok <|
      if badNX || !pte.p then .fault inner
      else .table inner .LongPD (pte.base40 + tableOffset vaddr 21 9 s.dataSize) doWrite
  | .LongPD => .ok <|
      if badNX || !pte.p then .fault inner
      else if !pte.ps then
        .table { inner with logBytes := 12 } .LongPTE
          (pte.base40 + tableOffset vaddr 12 9 s.dataSize) doWrite
      else .page inner pte 21 pte.base31 (pte.getLsbD 12) 0xFFFFFFFFFFE00000
  | .LongPTE => .ok <|
      if badNX || !pte.p then .fault inner
      else .page inner pte inner.logBytes pte.base40 (pte.getLsbD 12) 0xFFFFFFFFFFFFF000
  | .PAEPDP => .ok <|
      if !pte.p then .fault s.entry
      else .table s.entry .PAEPD (pte.base40 + tableOffset vaddr 21 9 s.dataSize) false
  | .PAEPD => .ok <|
      if badNX || !pte.p then .fault first
      else if !pte.ps then
        .table { first with logBytes := 12 } .PAEPTE
          (pte.base40 + tableOffset vaddr 12 9 s.dataSize) doWrite
      else .page first pte 21 pte.base31 (pte.getLsbD 12) 0xFFFFFFFFFFE00000
  | .PAEPTE => .ok <|
      if badNX || !pte.p then .fault inner
      else .page inner pte inner.logBytes pte.base40 (pte.getLsbD 7) 0xFFFFFFFFFFFFF000
  | .PSEPD => .ok <|
      if !pte.p then .fault first
      else if !pte.ps then
        .table { first with logBytes := 12 } .PTE
          (pte.base20 + tableOffset vaddr 22 10 s.dataSize) doWrite
      else .page first pte 21 pte.base4M (pte.getLsbD 12) 0xFFFFFFFFFFC00000
  | .PD => .ok <|
      if !pte.p then .fault first
      else .table { first with logBytes := 12 } .PTE
        (pte.base20 + tableOffset vaddr 22 10 s.dataSize) doWrite
  | .PTE => .ok <|
      if !pte.p then .fault first
      else .page first pte first.logBytes pte.base20 (pte.getLsbD 7) 0xFFFFFFFFFFFFF000
  | .Ready => .error .panicked
  | .Waiting => .error .panicked

end WalkerState

namespace Walk

def tcRegs (w : Walk) : MiscRegs := w.shared.regs w.self.tc

def qosTag (w : Walk) : BitVec 64 := w.tcRegs.qr0 ||| 0xe000000000000000

def emit (w : Walk) (mode : AccessMode) (accepted : Bool) (pkt : Packet) : Walk :=
  { w with
    shared := { w.shared with sent := ⟨mode, accepted, w.tcRegs.qr0, pkt⟩ :: w.shared.sent } }

/-- `new Packet(new Request(addr, size, flags, masterId), MemCmd::ReadReq)` with storage. -/
def newRead (w : Walk) (addr : Addr) (size : Nat) (uncacheable : Bool) : Packet :=
  let req := { Request.phys addr size w.shared.masterId with uncacheable }
  (Packet.ofRequest req .ReadReq).allocate

end Walk

def modifySelf (f : WalkerState → WalkerState) : WalkM Unit :=
  modify fun w => { w with self := f w.self }

/-- `read`, which is dereferenced. -/
def currentRead : WalkM Packet := do
  match (← get).self.read with
  | some pkt => return pkt
  | none => throw .outOfBounds

def pageFault (present : Bool) : WalkM PageFault := do
  modifySelf fun s => { s with mode := if s.mode == .Execute && !s.enableNX then .Read else s.mode }
  let w ← get
  return ⟨w.self.entry.vaddr, present, w.self.mode, w.tcRegs.m5reg.extractLsb' 4 2 == 3⟩

def endWalk : WalkM Unit := modifySelf fun s => { s with nextState := .Ready, read := none }

def stepFault (pte : PageTableEntry) (step : PteStep) : WalkM (Option PageFault) :=
  if step.faults then some <$> pageFault pte.p else pure none

/-- The part of `stepWalk` for `doEndWalk`. -/
def endStep (pte : PageTableEntry) (step : PteStep) : WalkM (Option PageFault × Option Packet) := do
  let fault ← stepFault pte step
  let functional := (← get).self.functional
  when (step.doTLBInsert && !functional) do
    modify fun w => { w with shared := { w.shared with
      inserted := w.self.entry :: w.shared.inserted } }
  endWalk
  return (fault, none)

/-- The part of `stepWalk` that prepares the next read, and a write where `doWrite` is set. -/
def nextStep (oldRead : Packet) (pte : PageTableEntry) (step : PteStep) :
    WalkM (Option PageFault × Option Packet) := do
  modify fun w => { w with self := { w.self with
    nextState := step.nextState
    read := some (w.newRead step.nextRead oldRead.size pte.pcd) } }
  if step.doWrite then
    let write ← oldRead.setWord64 pte.setA
    return (none, some { write with cmd := .WriteReq })
  else
    return (none, none)

/-- `stepWalk(write)`: returns the fault and the write. -/
def stepWalk : WalkM (Option PageFault × Option Packet) := do
  let s := (← get).self
  assert (s.state != .Ready && s.state != .Waiting)
  let oldRead ← currentRead
  let pte : PageTableEntry ← oldRead.getWord (if s.dataSize = 8 then 8 else 4)
  let step ← s.stepEntry pte
  modifySelf fun s => { s with entry := step.entry }
  if step.doEndWalk then endStep pte step else nextStep oldRead pte step

def setupWalk (vaddr : Addr) : WalkM Unit := do
  let w ← get
  let regs := w.tcRegs
  let lma := regs.efer.getLsbD 10
  let pae := regs.cr4.getLsbD 5
  let nxe := regs.efer.getLsbD 11
  let dataSize := if lma || pae then 8 else 4
  let state := if lma then .LongPML4 else if pae then .PAEPDP
    else if regs.cr4.getLsbD 4 then .PSEPD else .PD
  let topAddr :=
    if lma then (regs.cr3.extractLsb' 12 40).setWidth 64 <<< 12 + tableOffset vaddr 39 9 dataSize
    else if pae then (regs.cr3.extractLsb' 5 27).setWidth 64 <<< 5 + tableOffset vaddr 30 2 dataSize
    else (regs.cr3.extractLsb' 12 20).setWidth 64 <<< 12 + tableOffset vaddr 22 10 dataSize
  modifySelf fun s => { s with
    dataSize, state
    enableNX := (lma || pae) && nxe
    nextState := .Ready
    entry := { s.entry with vaddr }
    read := some (w.newRead topAddr dataSize (regs.cr3.getLsbD 4)) }

/-! ## Packets -/

/-- `Walker::sendTiming(this, pkt)`: the port takes the packet with a sender state that names
the walk, or refuses it. A port that has no answer left accepts. -/
def sendTiming (pkt : Packet) : WalkM Bool := do
  let w ← get
  let accepted := w.shared.answers.headD true
  modify fun w =>
    ({ w with shared := { w.shared with answers := w.shared.answers.tail } }).emit .timing accepted
      (pkt.pushSenderState (.other w.self.id))
  return accepted

/-- The loop of `sendPackets` over the writes, which are tagged again on every attempt. -/
def sendWrites : List Packet → WalkM Unit
  | [] => modifySelf fun s => { s with writes := [] }
  | write :: rest => do
    let write := write.setQosTag (← get).qosTag
    if ← sendTiming write then
      modifySelf fun s => { s with inflight := s.inflight + 1 }
      sendWrites rest
    else
      modifySelf fun s => { s with retrying := true, writes := write :: rest }

/-- `sendPackets()`: a read goes before the writes. -/
def sendPackets : WalkM Unit := do
  let s := (← get).self
  if s.retrying then
    pure ()
  else
    match s.read with
    | none => sendWrites s.writes
    | some pkt =>
      let pkt := pkt.setQosTag (← get).qosTag
      if ← sendTiming pkt then
        modifySelf fun s => { s with read := none, inflight := s.inflight + 1 }
        sendWrites s.writes
      else
        modifySelf fun s => { s with retrying := true, read := some pkt }

def retryWalk : WalkM Unit := do
  modifySelf fun s => { s with retrying := false }
  sendPackets

/-- `sendAtomic(pkt)` or `sendFunctional(pkt)`: the memory answers at once, a read with data. -/
def sendNow (mode : AccessMode) (pkt : Packet) : WalkM Packet := do
  let w ← get
  modify (·.emit mode true pkt)
  if pkt.isRead then
    modify fun w => { w with shared := { w.shared with replies := w.shared.replies.tail } }
    let pkt ← pkt.setData (w.shared.replies.headD [])
    pkt.makeResponse
  else
    pkt.makeResponse

/-! ## Walks in one call -/

/-- `do body while (read)`, for at most `rounds` rounds. -/
def walkLoop (body : WalkM (Option PageFault)) : Nat → WalkM (Option PageFault)
  | 0 => throw .fatal
  | rounds + 1 => do
    let fault ← body
    if (← get).self.read.isSome then walkLoop body rounds else return fault

/-- The number of levels of the deepest table. -/
def walkLevels : Nat := 4

def stepNow : WalkM (Option PageFault × Option Packet) := do
  let (fault, write) ← stepWalk
  let s := (← get).self
  assert (fault.isNone || s.read.isNone)
  modifySelf fun s => { s with state := s.nextState, nextState := .Ready }
  return (fault, write)

def atomicRound : WalkM (Option PageFault) := do
  let pkt ← currentRead
  let pkt ← sendNow .atomic (pkt.setQosTag (← get).qosTag)
  modifySelf fun s => { s with read := some pkt }
  let (fault, write) ← stepNow
  match write with
  | none => return fault
  | some write =>
    discard (sendNow .atomic (write.setQosTag (← get).qosTag))
    return fault

def startWalk : WalkM (Option PageFault) := do
  let s := (← get).self
  assert (!s.started)
  modifySelf fun s => { s with started := true }
  setupWalk s.vaddr
  if s.timing then
    modifySelf fun s => { s with nextState := s.state, state := .Waiting, timingFault := none }
    sendPackets
    return none
  else
    let fault ← walkLoop atomicRound walkLevels
    modifySelf fun s => { s with state := .Ready, nextState := .Waiting }
    return fault

def functionalRound : WalkM (Option PageFault) := do
  let pkt ← sendNow .functional (← currentRead)
  modifySelf fun s => { s with read := some pkt }
  let (fault, _) ← stepNow
  return fault

/-- `WalkerState::startFunctional(addr, logBytes)`: returns the fault, and the size and the
address of the page. -/
def startFunctionalWalk (addr : Addr) : WalkM (Option PageFault × Nat × Addr) := do
  let s := (← get).self
  assert (!s.started)
  modifySelf fun s => { s with started := true }
  setupWalk addr
  let fault ← walkLoop functionalRound walkLevels
  let s := (← get).self
  return (fault, s.entry.logBytes, s.entry.paddr)

/-! ## Responses -/

/-- The step of a walk in timing mode after the response of its read. -/
def stepTiming (pkt : Packet) : WalkM Unit := do
  modifySelf fun s => { s with
    state := s.nextState
    nextState := .Ready
    read := some { pkt with busFirstWordDelay := 0, busLastWordDelay := 0 } }
  let (fault, write) ← stepWalk
  modifySelf fun s => { s with
    timingFault := fault
    state := .Waiting
    writes := write.toList ++ s.writes }
  let s := (← get).self
  assert (fault.isNone || s.read.isNone)

/-- `recvPacket(pkt)`: returns whether the walk is complete. -/
def recvPacket (pkt : Packet) : WalkM Bool := do
  let s := (← get).self
  assert pkt.isResponse
  assert (s.inflight != 0)
  assert (s.state == .Waiting)
  assert s.read.isNone
  modifySelf fun s => { s with inflight := s.inflight - 1 }
  when pkt.isRead (stepTiming pkt)
  sendPackets
  let s := (← get).self
  if s.inflight = 0 ∧ s.read = none ∧ s.writes = [] then
    modifySelf fun s => { s with state := .Ready, nextState := .Waiting }
    modify fun w => { w with shared := { w.shared with
      finished := (s.id, s.timingFault) :: w.shared.finished } }
    return true
  else
    return false

/-! ## The walker -/

/-- `Walker`. `nextId` is the id of the next walk. -/
structure Walker where
  shared : WalkerShared
  currStates : List WalkerState := []
  funcState : WalkerState
  numSquashable : Nat
  nextId : Nat := 0

abbrev WalkerM := Prog Abort Walker

namespace Walker

/-- A method of a walk that is not in the list of current walks. -/
def onState {α : Type} (s : WalkerState) (m : WalkM α) : WalkerM (α × WalkerState) := do
  let w ← get
  let (a, walk) ← m ⟨s, w.shared⟩
  modify fun w => { w with shared := walk.shared }
  return (a, walk.self)

/-- A method of the current walk at a position. -/
def onCurrent {α : Type} (i : Nat) (m : WalkM α) : WalkerM α := do
  match (← get).currStates[i]? with
  | none => throw .outOfBounds
  | some s =>
    let (a, s) ← onState s m
    modify fun w => { w with currStates := w.currStates.set i s }
    return a

/-- `start(tc, translation, req, mode)`, in timing or in atomic mode. -/
def start (tc : Nat) (vaddr : Addr) (mode : TLBMode) (timing : Bool) :
    WalkerM (Option PageFault) := do
  let w ← get
  let newState : WalkerState := { id := w.nextId, tc, vaddr, mode, timing }
  modify fun w => { w with currStates := w.currStates ++ [newState], nextId := w.nextId + 1 }
  if w.currStates ≠ [] then
    assert timing
    return none
  else
    let fault ← onCurrent 0 startWalk
    when (!timing) (modify fun w => { w with currStates := w.currStates.tail })
    return fault

def startFunctional (tc : Nat) (addr : Addr) (mode : TLBMode) :
    WalkerM (Option PageFault × Nat × Addr) := do
  let w ← get
  assert (w.funcState.state == .Ready)
  let s := { w.funcState with started := false, tc, mode, timing := false }
  let (result, s) ← onState s (startFunctionalWalk addr)
  modify fun w => { w with funcState := s }
  return result

/-- The loop of `startWalkWrapper` over squashed walks, at most `numSquashable` of them. -/
def dropSquashed : Nat → WalkerM Unit
  | 0 => pure ()
  | n + 1 => do
    match (← get).currStates with
    | [] => pure ()
    | s :: rest =>
      when s.squashed do
        modify fun w => { w with
          currStates := rest
          shared := { w.shared with finished := (s.id, none) :: w.shared.finished } }
        dropSquashed n

def startWalkWrapper : WalkerM Unit := do
  dropSquashed (← get).numSquashable
  match (← get).currStates with
  | [] => pure ()
  | s :: _ => when (!s.started) (discard (onCurrent 0 startWalk))

def recvTimingResp (pkt : Packet) : WalkerM Unit := do
  match pkt.senderState with
  | .other id :: rest =>
    let i := (← get).currStates.findIdx (·.id == id)
    let walkComplete ← onCurrent i (recvPacket { pkt with senderState := rest })
    when walkComplete do
      modify fun w => { w with currStates := w.currStates.eraseIdx i }
      when ((← get).currStates != []) startWalkWrapper
  | _ => throw .outOfBounds

def recvRetry : WalkerM Unit := do
  let n := (← get).currStates.length
  Prog.forEach (fun i => onCurrent i do when (← get).self.retrying retryWalk) (List.range n)

end Walker

/-- `env` sets what the port and the memory answer next, `regs` writes the registers of a context,
and `squash` squashes the translation of a walk. -/
inductive WalkerInput
  | start (tc : Nat) (vaddr : Addr) (mode : TLBMode) (timing : Bool)
  | startFunctional (tc : Nat) (addr : Addr) (mode : TLBMode)
  | recvTimingResp (pkt : Packet)
  | recvRetry
  | env (answers : List Bool) (replies : List (List Byte))
  | regs (tc : Nat) (regs : MiscRegs)
  | squash (id : Nat)
deriving DecidableEq, Repr

namespace Walker

def call : WalkerInput → WalkerM Unit
  | .start tc vaddr mode timing => discard (start tc vaddr mode timing)
  | .startFunctional tc addr mode => discard (startFunctional tc addr mode)
  | .recvTimingResp pkt => recvTimingResp pkt
  | .recvRetry => recvRetry
  | .env answers replies => modify fun w => { w with shared := { w.shared with answers, replies } }
  | .regs tc regs => modify fun w => { w with shared := { w.shared with
      regs := Function.update w.shared.regs tc regs } }
  | .squash id => modify fun w => { w with
      currStates := w.currStates.map fun s => if s.id = id then { s with squashed := true } else s }

def startup (masterId numSquashable : Nat) (regs : Nat → MiscRegs) : Walker where
  shared := { masterId, regs }
  funcState := { id := 0, tc := 0, vaddr := 0, mode := .Read, functional := true }
  numSquashable := numSquashable

abbrev machine : Machine Abort Walker WalkerInput where
  start w := ∃ masterId numSquashable regs, w = startup masterId numSquashable regs
  enabled _ _ := True
  call := call

/-- A state that a run of inputs leads to. -/
def Reachable (w : Walker) : Prop := machine.Reachable w

end Walker

end PardG5V
