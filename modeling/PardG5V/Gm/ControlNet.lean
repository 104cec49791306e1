import PardG5V.Lib.Bytes
import PardG5V.Lib.Prog
import PardG5V.Mem.Packet

/-!
# The control plane network

`hyper/gm/CPConnector.cc` and `hyper/gm/CPAdaptor.cc`. A connector holds 32 bytes of registers in
front of one managed resource, and runs a command on it when its command register is touched. The
adaptor is the PCI device through which a driver reaches the connectors: its first base address
register selects one, its second one is a window onto its registers. Every position that the two
devices let through ends at byte 31. A connector keeps the list of what happened to it, the latest
first.
-/

namespace PardG5V

open Prog Bytes

/-! ## Managed resources -/

/-- `ManagedResource`: what `get` and `set` do to a resource with the state `ρ`. -/
structure ManagedResource (ρ : Type) where
  get : LDomID → BitVec 32 → Prog Abort ρ (BitVec 64)
  set : LDomID → BitVec 32 → BitVec 64 → Prog Abort ρ Unit

/-! ## Registers -/

/-- The rows of `cpRegisterMap`. -/
inductive CpReg
  | cpType
  | cpIdentLow
  | cpIdentHigh
  | command
  | state
  | ldomID
  | destAddr
  | data
deriving DecidableEq, Repr

namespace CpReg

def base : CpReg → Nat
  | cpType => 0x0
  | cpIdentLow => 0x4
  | cpIdentHigh => 0x8
  | command => 0x10
  | state => 0x11
  | ldomID => 0x12
  | destAddr => 0x14
  | data => 0x18

def size : CpReg → Nat
  | cpType => 4
  | cpIdentLow => 4
  | cpIdentHigh => 8
  | command => 1
  | state => 1
  | ldomID => 2
  | destAddr => 4
  | data => 8

end CpReg

def cpRegisterMap : List CpReg :=
  [.cpType, .cpIdentLow, .cpIdentHigh, .command, .state, .ldomID, .destAddr, .data]

/-- `CPConnRegs`, byte by byte. -/
abbrev CPConnRegs := Nat → Byte

namespace CPConnRegs

def bytes (regs : CPConnRegs) (r : CpReg) : List Byte := load regs r.base r.size

def cpCmd (regs : CPConnRegs) : Byte := regs CpReg.command.base

def cpLDomID (regs : CPConnRegs) : LDomID := BitVec.ofNat 16 (value (regs.bytes .ldomID))

def cpDestAddr (regs : CPConnRegs) : BitVec 32 := BitVec.ofNat 32 (value (regs.bytes .destAddr))

def cpData (regs : CPConnRegs) : BitVec 64 := BitVec.ofNat 64 (value (regs.bytes .data))

end CPConnRegs

/-! ## Connectors -/

def cmdGet : Byte := 0x47

def cmdSet : Byte := 0x53

/-- What happens at a connector: a register access with its bytes, or a call of
the resource. -/
inductive CpEvent
  | wrote (offset : Nat) (bytes : List Byte)
  | read (offset : Nat) (bytes : List Byte)
  | get (ldom : LDomID) (destAddr : BitVec 32) (data : BitVec 64)
  | set (ldom : LDomID) (destAddr : BitVec 32) (data : BitVec 64)
deriving DecidableEq, Repr

structure CPConnector (ρ : Type) where
  regs : CPConnRegs
  resource : ρ
  log : List CpEvent := []

namespace CPConnector

variable {ρ : Type}

/-- The constructor: `memset`, the type, and `strncpy` of the identifier, which
fills what the identifier leaves free with zeros. -/
def create (type : BitVec 32) (ident : List Byte) (resource : ρ) : CPConnector ρ :=
  let blank : CPConnRegs := fun _ => 0xFF
  let typed := store blank CpReg.cpType.base (littleEndian 4 type.toNat)
  { regs := store typed CpReg.cpIdentLow.base ((ident ++ List.replicate 12 0).take 12), resource }

def onResource {α : Type} (m : Prog Abort ρ α) : Prog Abort (CPConnector ρ) α :=
  Prog.zoom CPConnector.resource (fun resource s => { s with resource }) m

/-- The `memcpy` of `recvAtomic` between the packet and the registers. -/
def accessRegs (offset : Nat) (pkt : Packet) : Prog Abort (CPConnector ρ) Packet := do
  let s ← get
  if pkt.isRead then
    let bytes := load s.regs offset pkt.size
    let pkt ← pkt.setData bytes
    modify fun s => { s with log := .read offset bytes :: s.log }
    return pkt
  else if pkt.isWrite then
    let bytes := (← pkt.getPtr).take pkt.size
    modify fun s => { s with
      regs := store s.regs offset bytes, log := .wrote offset bytes :: s.log }
    return pkt
  else
    throw .panicked

/-- The part of `recvAtomic` that is special for the command register. It runs
after a read of the register as well as after a write. -/
def runCommand (R : ManagedResource ρ) : Prog Abort (CPConnector ρ) Unit := do
  let s ← get
  if s.regs.cpCmd = cmdGet then
    let data ← onResource (R.get s.regs.cpLDomID s.regs.cpDestAddr)
    modify fun s' => { s' with
      regs := store s'.regs CpReg.data.base (littleEndian 8 data.toNat)
      log := .get s.regs.cpLDomID s.regs.cpDestAddr data :: s'.log }
  else if s.regs.cpCmd = cmdSet then
    onResource (R.set s.regs.cpLDomID s.regs.cpDestAddr s.regs.cpData)
    modify fun s' => { s' with
      log := .set s.regs.cpLDomID s.regs.cpDestAddr s.regs.cpData :: s'.log }
  else
    modify fun s' => { s' with regs := store s'.regs CpReg.command.base [0xFF] }

/-- `recvAtomic`: the packet it leaves and the latency it returns. -/
def recvAtomic (R : ManagedResource ρ) (cpDevID : Nat) (pkt : Packet) :
    Prog Abort (CPConnector ρ) (Packet × Tick) := do
  let offset := (pkt.addr - BitVec.ofNat 64 (cpDevID * 32)).toNat
  assert (cpRegisterMap.any fun r => r.base == offset)
  assert (pkt.size == 1 || pkt.size == 2 || pkt.size == 4 || pkt.size == 8)
  let pkt ← accessRegs offset pkt
  if offset = CpReg.command.base then
    runCommand R
    return (pkt, 3)
  else
    return (pkt, 1)

end CPConnector

/-! ## The adaptor -/

/-- `CPAdaptor` with the connectors on its network, by their `cpDevID`. -/
structure ControlNet (ρ : Type) where
  command : BitVec 32
  connectors : Nat → Option (CPConnector ρ)

/-- One access of a driver to the adaptor: the base address register and the
offset that `getBAR` finds, the direction, and the bytes of the packet. -/
structure DriverAccess where
  bar : Nat
  offset : Addr
  read : Bool
  data : List Byte
deriving DecidableEq, Repr

namespace ControlNet

variable {ρ : Type}

def selectCP (net : ControlNet ρ) : Nat := (net.command &&& 0x3FF).toNat

def accessCommand (offset : Addr) (data : List Byte) (read : Bool) :
    Prog Abort (ControlNet ρ) (List Byte) := do
  if offset = 0 then
    assert (data.length == 4)
    if read then
      return littleEndian 4 (← get).command.toNat
    else
      modify fun net => { net with command := BitVec.ofNat 32 (value data) }
      return data
  else
    throw .panicked

/-- `masterPort.sendAtomic`: the bus hands the packet to the connector whose range
of 32 addresses holds it. -/
def sendAtomic (R : ManagedResource ρ) (pkt : Packet) : Prog Abort (ControlNet ρ) Packet :=
  fun net =>
    let id := pkt.addr.toNat / 32
    match net.connectors id with
    | none => .error .fatal
    | some c => do
      let ((pkt, _), c) ← CPConnector.recvAtomic R id pkt c
      return (pkt, { net with connectors := Function.update net.connectors id (some c) })

def cpnPacket (paddr : Addr) (data : List Byte) (read : Bool) : Packet :=
  { Packet.ofRequest (Request.phys paddr data.length 0) (if read then .ReadReq else .WriteReq) with
    data := some data, staticData := true }

def accessData (R : ManagedResource ρ) (offset : Addr) (data : List Byte) (read : Bool) :
    Prog Abort (ControlNet ρ) (List Byte) := do
  match cpRegisterMap.find? (fun r => offset == BitVec.ofNat 64 r.base) with
  | none => throw .panicked
  | some r =>
    if data.length ≠ r.size then
      throw .panicked
    else
      let net ← get
      let paddr := BitVec.ofNat 64 (net.selectCP * 32) + offset
      let pkt ← sendAtomic R (cpnPacket paddr data read)
      return pkt.data.getD data

/-- `dispatchAccess`, after `getBAR`: what the packet holds afterwards. -/
def dispatchAccess (R : ManagedResource ρ) (a : DriverAccess) :
    Prog Abort (ControlNet ρ) (List Byte) := do
  let size := a.data.length
  if size ≠ 1 ∧ size ≠ 2 ∧ size ≠ 4 ∧ size ≠ 8 then
    throw .panicked
  else if a.bar = 0 then
    accessCommand a.offset a.data a.read
  else if a.bar = 1 then
    accessData R a.offset a.data a.read
  else
    throw .panicked

end ControlNet

end PardG5V
