import PardG5V.Lib.Bytes
import PardG5V.Lib.Prog
import PardG5V.Mem.Packet

/-!
# The I/O APIC of several guests

`hyper/dev/pardg5v/i82094aap5v.cc`: redirection table, register select and pin mask exist once per
guest, the level of a pin and the offset that rotates lowest-priority interrupts once for all. A
device raises and lowers a pin on behalf of a guest, or of all guests through the calls that know
no guests. A pin number is a natural number: the source checks only the upper bound of its `int`.
An interrupt is sent to 8-bit APIC ids, as the address of an interrupt message keeps that many.
-/

namespace PardG5V

open Prog

def tableSize : Nat := 24

def apicVersion : BitVec 32 := 0x14

/-! ## Redirection table entries -/

abbrev RedirTableEntry := BitVec 64

namespace RedirTableEntry

def dest (e : RedirTableEntry) : BitVec 8 := e.extractLsb' 56 8
def mask (e : RedirTableEntry) : Bool := e.getLsbD 16
def trigger (e : RedirTableEntry) : Bool := e.getLsbD 15
def polarity (e : RedirTableEntry) : Bool := e.getLsbD 13
def destMode (e : RedirTableEntry) : Bool := e.getLsbD 11
def deliveryMode (e : RedirTableEntry) : BitVec 3 := e.extractLsb' 8 3
def vector (e : RedirTableEntry) : BitVec 8 := e.extractLsb' 0 8
def topDW (e : RedirTableEntry) : BitVec 32 := e.extractLsb' 32 32
def bottomDW (e : RedirTableEntry) : BitVec 32 := e.extractLsb' 0 32

/-- Writes `topDW` and clears `topReserved`, the bits 32 to 47. -/
def setTopDW (e : RedirTableEntry) (value : BitVec 32) : RedirTableEntry :=
  (value &&& 0xFFFF0000) ++ e.bottomDW

/-- Writes `bottomDW` and clears `bottomReserved`, the bits 17 to 31. -/
def setBottomDW (e : RedirTableEntry) (value : BitVec 32) : RedirTableEntry :=
  e.topDW ++ (value &&& 0x0001FFFF)

/-- The entry that the constructor writes: masked, with the guest in the bits 48
to 55. -/
def initial (guest : Nat) : RedirTableEntry :=
  (BitVec.ofNat 8 guest).setWidth 64 <<< 48 ||| 1 <<< 16

end RedirTableEntry

def lowestPriority : BitVec 3 := 1

def extInt : BitVec 3 := 7

structure TriggerIntMessage where
  destination : BitVec 8
  vector : BitVec 8
  deliveryMode : BitVec 3
  destMode : Bool
  level : Bool
  trigger : Bool
deriving DecidableEq, Repr

def RedirTableEntry.message (e : RedirTableEntry) : TriggerIntMessage where
  destination := e.dest
  vector := e.vector
  deliveryMode := e.deliveryMode
  destMode := e.destMode
  level := e.polarity
  trigger := e.trigger

/-! ## State -/

/-- What `signalInterrupt` reads of a thread context: `MISCREG_QR0`, and the
logical destination register and the initial id of its local APIC. -/
structure ApicContext where
  qr0 : BitVec 64
  logicalDestination : BitVec 32
  initialApicId : BitVec 8
deriving DecidableEq, Repr

/-- The guest whose id `signalInterrupt` compares. -/
def ApicContext.guest (c : ApicContext) : BitVec 64 := c.qr0 &&& 0xFF

/-- The parameters, with the assertions of the constructor. -/
structure IoApicParams where
  pioAddr : Addr
  apicId : BitVec 8
  maxGuests : Nat
  pinMask : List (BitVec 64)
  apicId_lt : apicId.toNat < 0xFF
  maxGuests_lt : maxGuests < 0xFF
  pinMask_le : pinMask.length ≤ maxGuests

/-- `pinMask[guest] & 1 << line`. A guest without a configured mask has none. -/
def IoApicParams.allows (p : IoApicParams) (guest : GuestID) (line : Nat) : Bool :=
  ((p.pinMask[guest.toNat]?).getD 0).getLsbD line

/-- A message handed to `sendMessage`, with the guest and the line it is for. -/
structure Interrupt where
  guest : GuestID
  line : Nat
  apics : List (BitVec 8)
  message : TriggerIntMessage
deriving DecidableEq, Repr

/-- `I82094AAP5V` with the thread contexts of its system. `sent` lists the
interrupts sent so far, the latest first. -/
structure IoApic (p : IoApicParams) where
  id : BitVec 8 := p.apicId
  arbId : BitVec 8 := p.apicId
  regSel : Nat → BitVec 8 := fun _ => 0
  lowestPriorityOffset : BitVec 64 := 0
  redirTable : Nat → Nat → RedirTableEntry := fun guest _ => .initial guest
  pinStates : Nat → Bool := fun _ => false
  contexts : List ApicContext
  sent : List Interrupt := []

abbrev IoApicM (p : IoApicParams) := Prog Abort (IoApic p)

namespace IoApic

variable {p : IoApicParams}

/-! ## Register accesses -/

/-- `regSel[guestID]`, whose index no check guards. -/
def checkGuest (guest : GuestID) : IoApicM p Unit :=
  if guest.toNat < p.maxGuests then pure () else throw .outOfBounds

/-- `writeReg(guestID, offset, value)`. The upper bound of the table lets one
offset through that lies behind it. -/
def writeReg (guest : GuestID) (offset : BitVec 8) (value : BitVec 32) : IoApicM p Unit := do
  if offset = 0x0 then
    modify fun s => { s with id := value.extractLsb' 24 8 }
  else if offset = 0x1 then
    pure ()
  else if offset = 0x2 then
    modify fun s => { s with arbId := value.extractLsb' 24 8 }
  else if 0x10 ≤ offset.toNat ∧ offset.toNat ≤ 0x10 + tableSize * 2 then
    let index := (offset.toNat - 0x10) / 2
    if index < tableSize then
      modify fun s =>
        let old := s.redirTable guest.toNat index
        let new := if offset.toNat % 2 = 1 then old.setTopDW value else old.setBottomDW value
        { s with
          redirTable := Function.update s.redirTable guest.toNat
            (Function.update (s.redirTable guest.toNat) index new) }
    else
      throw .outOfBounds
  else
    pure ()

def readReg (guest : GuestID) (offset : BitVec 8) : IoApicM p (BitVec 32) := do
  let s ← get
  if offset = 0x0 then
    return s.id ++ (0 : BitVec 24)
  else if offset = 0x1 then
    return BitVec.ofNat 32 ((tableSize - 1) * 2 ^ 16) ||| apicVersion
  else if offset = 0x2 then
    return s.arbId ++ (0 : BitVec 24)
  else if 0x10 ≤ offset.toNat ∧ offset.toNat ≤ 0x10 + tableSize * 2 then
    let index := (offset.toNat - 0x10) / 2
    if index < tableSize then
      let entry := s.redirTable guest.toNat index
      return if offset.toNat % 2 = 1 then entry.topDW else entry.bottomDW
    else
      throw .outOfBounds
  else
    return 0

/-- `pkt->get<uint32_t>()`. -/
def packetWord (pkt : Packet) : Except Abort (BitVec 32) := do
  let bytes ← pkt.getPtr
  return BitVec.ofNat 32 (Bytes.value (bytes.take 4))

def write (pkt : Packet) : IoApicM p Packet := do
  assert (pkt.size == 4)
  let guest := pkt.guestID
  let offset := pkt.addr - p.pioAddr
  checkGuest guest
  let value ← packetWord pkt
  if offset = 0 then
    modify fun s => { s with
      regSel := Function.update s.regSel guest.toNat (value.setWidth 8) }
  else if offset = 16 then
    writeReg guest ((← get).regSel guest.toNat) value
  else
    throw .panicked
  pkt.makeResponse

def read (pkt : Packet) : IoApicM p Packet := do
  assert (pkt.size == 4)
  let guest := pkt.guestID
  let offset := pkt.addr - p.pioAddr
  checkGuest guest
  let regSel := (← get).regSel guest.toNat
  let value ← if offset = 0 then pure (regSel.setWidth 32)
    else if offset = 16 then readReg guest regSel
    else throw .panicked
  let pkt ← pkt.setData (Bytes.littleEndian 4 value.toNat)
  pkt.makeResponse

/-! ## Interrupts -/

/-- The contexts of a guest whose logical destination meets the destination of a
message, by the ids of their local APICs. -/
def matching (contexts : List ApicContext) (guest : GuestID) (destination : BitVec 8) :
    List (BitVec 8) :=
  (contexts.filter fun c =>
    c.guest == guest.setWidth 64 &&
      c.logicalDestination.extractLsb' 24 8 &&& destination != 0).map ApicContext.initialApicId

/-- The choice among the matching APICs for a lowest-priority message. -/
def rotate (apics : List (BitVec 8)) : IoApicM p (List (BitVec 8)) := do
  let modOffset := (← get).lowestPriorityOffset.toNat % apics.length
  modify fun s => { s with lowestPriorityOffset := s.lowestPriorityOffset + 1 }
  return (apics[modOffset]?).toList

/-- The APICs that a message goes to. -/
def selectApics (guest : GuestID) (message : TriggerIntMessage) : IoApicM p (List (BitVec 8)) := do
  let s ← get
  if message.destMode = false then
    if message.deliveryMode = lowestPriority then
      throw .panicked
    else if message.destination = 0xFF then
      return (List.range s.contexts.length).map (BitVec.ofNat 8)
    else
      return [message.destination]
  else
    let apics := matching s.contexts guest message.destination
    if message.deliveryMode = lowestPriority ∧ apics ≠ [] then
      rotate apics
    else
      return apics

/-- `signalInterrupt(guestID, line)`. An entry with the delivery mode `ExtInt` only
makes the source warn. -/
def signalInterrupt (guest : GuestID) (line : Nat) : IoApicM p Unit := do
  assert (guest.toNat < p.maxGuests)
  assert (line < tableSize)
  let entry := (← get).redirTable guest.toNat line
  if !p.allows guest line || entry.mask || entry.deliveryMode == extInt then
    pure ()
  else
    let apics ← selectApics guest entry.message
    modify fun s => { s with sent := ⟨guest, line, apics, entry.message⟩ :: s.sent }

def guests (p : IoApicParams) : List GuestID := (List.range p.maxGuests).map (BitVec.ofNat 16)

/-- `signalInterrupt(line)`: all guests that may use the line. -/
def signalInterruptAll (line : Nat) : IoApicM p Unit :=
  Prog.forEach (fun guest => Prog.when (p.allows guest line) (signalInterrupt guest line))
    (guests p)

/-- `raiseInterruptPin(guest, number)`, and `raiseInterruptPin(number)` for no
guest. -/
def raiseInterruptPin (guest : Option GuestID) (number : Nat) : IoApicM p Unit := do
  assert (number < tableSize)
  Prog.when (!(← get).pinStates number)
    (match guest with
      | some guest => signalInterrupt guest number
      | none => signalInterruptAll number)
  modify fun s => { s with pinStates := Function.update s.pinStates number true }

/-- `lowerInterruptPin(guest, number)`, and `lowerInterruptPin(number)` for no
guest: the guest is not looked at. -/
def lowerInterruptPin (_guest : Option GuestID) (number : Nat) : IoApicM p Unit := do
  assert (number < tableSize)
  modify fun s => { s with pinStates := Function.update s.pinStates number false }

end IoApic

end PardG5V
