import Mathlib.Logic.Function.Basic
import PardG5V.Dev.IdeDisk

/-!
# An IDE channel with its two disks

`Channel` of `hyper/dev/ide_ctrl.cc`: the accesses of the guest to the command, control and bus
master registers, routed to the disk that is selected. The disks are told apart by `isSlave`. A
run of the channel interleaves the accesses with the events of the disks, with the work of the DMA
port, and with what the guest writes to its memory.
-/

namespace PardG5V

open Prog Bytes

/-- `encrypt_enable_array` of the controller, the guest of each disk, and what a disk tells about
itself. -/
structure IdeConfig where
  encrypt_enable_array : List Bool
  guestID : Bool → Nat
  driveID : Bool → Nat → Byte
  lineShift : Nat
  lineShift_le : lineShift ≤ 30

def IdeConfig.needCrypt (cfg : IdeConfig) (guestId : Nat) : Bool :=
  cfg.encrypt_enable_array.getD guestId false

/-- `Channel`, with its disks and the memory of the guest. `bmi` are the bytes of `bmiRegs`. -/
structure IdeChannel where
  disks : Bool → IdeDisk
  selectBit : Bool := false
  bmi : Nat → Byte := fun i => if i = 2 then 0x60 else 0
  mem : Nat → Byte
  mode : MemMode

abbrev ChannelM := Prog IdePanic IdeChannel

namespace IdeChannel

def selected (c : IdeChannel) : IdeDisk := c.disks c.selectBit

def startStop (c : IdeChannel) : Bool := (c.bmi 0).getLsbD 0

def bmidtp (c : IdeChannel) : BitVec 32 := BitVec.ofNat 32 (value (load c.bmi 4 4))

def dmaPending (c : IdeChannel) : Bool :=
  (c.disks false).transfer.isSome || (c.disks true).transfer.isSome

def env (cfg : IdeConfig) (isSlave busy : Bool) (c : IdeChannel) : IdeEnv where
  isSlave
  needCrypt := cfg.needCrypt (cfg.guestID isSlave)
  driveID := cfg.driveID isSlave
  cacheLineSize := 2 ^ cfg.lineShift
  selected := c.selectBit == isSlave
  busy := busy || c.dmaPending
  mode := c.mode

def side (isSlave : Bool) (c : IdeChannel) : IdeSide := ⟨c.disks isSlave, c.bmi, c.mem⟩

def setSide (isSlave : Bool) (s : IdeSide) (c : IdeChannel) : IdeChannel :=
  { c with disks := Function.update c.disks isSlave s.disk, bmi := s.bmi, mem := s.mem }

def onDisk {α : Type} (isSlave : Bool) (m : IdeM α) : ChannelM α :=
  zoom (side isSlave) (setSide isSlave) m

def setBmi (i : Nat) (byte : Byte) (c : IdeChannel) : IdeChannel :=
  { c with bmi := fun k => if k = i then byte else c.bmi k }

/-! ## Accesses -/

/-- `accessCommand(offset, size, data, read)`: a write of the drive register selects a disk
first. -/
def accessCommand (cfg : IdeConfig) (read : Bool) (offset : Nat) (data : List Byte) :
    ChannelM Unit := do
  Prog.when (!read && offset == 6) do
    modify fun c => { c with selectBit := (data.headD 0).getLsbD 4 }
  let c ← get
  let env := c.env cfg c.selectBit false
  if read then discard (onDisk c.selectBit (IdeSide.readCommand env offset data.length))
  else onDisk c.selectBit (IdeSide.writeCommand env offset data)

def accessControl (cfg : IdeConfig) (read : Bool) (offset : Nat) (data : List Byte) :
    ChannelM Unit := do
  let c ← get
  let env := c.env cfg c.selectBit false
  if read then discard (onDisk c.selectBit (IdeSide.readControl offset data.length))
  else onDisk c.selectBit (IdeSide.writeControl env offset data)

/-- The value that `writeBMICommand` takes for the old one. An assignment between two bit fields
copies the whole byte, so where the direction of a transfer that runs is to be kept, the new value
takes the place of the old one. -/
def oldBMICommand (c : IdeChannel) (newVal : Byte) : Byte :=
  if c.startStop = true ∧ (c.bmi 0).getLsbD 3 ≠ newVal.getLsbD 3 then newVal else c.bmi 0

/-- A change of the start bit starts or stops the DMA of the selected disk. -/
def startOrStop (cfg : IdeConfig) (old new : Bool) : ChannelM Unit := do
  let c ← get
  if old = true ∧ new = false then do
    modify fun c => c.setBmi 2 (c.bmi 2 &&& ~~~1)
    onDisk c.selectBit (IdeSide.abortDma (c.env cfg c.selectBit false))
  else
    Prog.when (!old && new) do
      modify fun c => c.setBmi 2 (c.bmi 2 ||| 1)
      onDisk c.selectBit (IdeSide.startDma c.bmidtp)

/-- A write of the command register of the bus master. It is written whole. A stop that also turns
the direction is not seen: the start bit is cleared, and the transfer goes on. -/
def writeBMICommand (cfg : IdeConfig) (newVal : Byte) : ChannelM Unit := do
  let oldVal := (← get).oldBMICommand newVal
  startOrStop cfg (oldVal.getLsbD 0) (newVal.getLsbD 0)
  modify fun c => c.setBmi 0 newVal

/-- The status register after a write. What is written does not matter: a set interrupt or error
bit is cleared, and the other bits stay. -/
def newBMIStatus (oldVal _written : Byte) : Byte :=
  -- the assignment to `newVal.active` copies the whole byte
  let newVal := oldVal
  (newVal &&& ~~~6) ||| (oldVal &&& ~~~newVal &&& 6)

def accessBMI (cfg : IdeConfig) (read : Bool) (offset : Nat) (data : List Byte) :
    ChannelM Unit := do
  Prog.when (decide (8 < offset + data.length)) (throw .assertion)
  Prog.when (!read) do
    let byte := data.headD 0
    match offset with
    | 0 => do
      Prog.when (data.length != 1) (throw .panicked)
      writeBMICommand cfg byte
    | 2 => do
      Prog.when (data.length != 1) (throw .panicked)
      modify fun c => c.setBmi 2 (newBMIStatus (c.bmi 2) byte)
    | 4 => do
      Prog.when (data.length != 4) (throw .panicked)
      let table := BitVec.ofNat 32 (value data) &&& ~~~3
      modify fun c => { c with bmi := store c.bmi 4 (littleEndian 4 table.toNat) }
    | _ => modify fun c => { c with bmi := store c.bmi offset data }

theorem startStop_of_old {c : IdeChannel} {newVal : Byte}
    (h : (c.oldBMICommand newVal).getLsbD 0 = true) : c.startStop = true := by
  unfold oldBMICommand at h
  split at h
  · next hturn => exact hturn.1
  · exact h

/-- A start that is seen finds the start bit clear. -/
theorem startStop_of_new {c : IdeChannel} {newVal : Byte}
    (h : (c.oldBMICommand newVal).getLsbD 0 = false) (hnew : newVal.getLsbD 0 = true) :
    c.startStop = false := by
  unfold oldBMICommand at h
  split at h
  · cases hnew.symm.trans h
  · exact h

end IdeChannel

/-- The register blocks of a channel. -/
inductive IdeBlock
  | command
  | control
  | bmi
deriving DecidableEq, Repr

/-- The guest accesses a register (`data` are the bytes that are written, or as many as are read) or
its memory, an event of a disk runs, the DMA port moves a piece of a transfer or has acknowledged
it, or the drained system changes its memory mode. -/
inductive IdeInput
  | access (block : IdeBlock) (read : Bool) (offset : Nat) (data : List Byte)
  | guestWrite (addr : Nat) (data : List Byte)
  | event (isSlave : Bool) (e : DiskEvent) (busy : Bool)
  | serve (isSlave : Bool) (i : Nat)
  | ack (isSlave : Bool)
  | setMode (mode : MemMode)
deriving DecidableEq, Repr

namespace IdeSide

def serve (i : Nat) (s : IdeSide) : IdeSide :=
  match s.disk.transfer with
  | none => s
  | some t =>
    match t.pieces[i]? with
    | none => s
    | some c =>
      let s := move t.isRead t.target c s
      { s with disk :=
        { s.disk with transfer := some { t with pieces := t.pieces.eraseIdx i } } }

def ack : IdeM Unit := do
  let d ← getDisk
  match d.transfer with
  | none => pure ()
  | some t => do
    modifyDisk fun d => { d with transfer := none }
    schedule t.event

end IdeSide

namespace IdeChannel

def dispatchAccess (cfg : IdeConfig) (block : IdeBlock) (read : Bool) (offset : Nat)
    (data : List Byte) : ChannelM Unit := do
  Prog.when (data.length != 1 && data.length != 2 && data.length != 4) (throw .panicked)
  match block with
  | .command => accessCommand cfg read offset data
  | .control => accessControl cfg read offset data
  | .bmi => accessBMI cfg read offset data

def runEvent (cfg : IdeConfig) (isSlave : Bool) (e : DiskEvent) (busy : Bool) : ChannelM Unit := do
  let c ← get
  onDisk isSlave do
    IdeSide.modifyDisk fun d => { d with scheduled := d.scheduled.erase e }
    IdeSide.process (c.env cfg isSlave busy) e

def call (cfg : IdeConfig) : IdeInput → ChannelM Unit
  | .access block read offset data => dispatchAccess cfg block read offset data
  | .guestWrite addr data => modify fun c => { c with mem := store c.mem addr data }
  | .event isSlave e busy => runEvent cfg isSlave e busy
  | .serve isSlave i => onDisk isSlave (modify (IdeSide.serve i))
  | .ack isSlave => onDisk isSlave IdeSide.ack
  | .setMode mode => modify fun c => { c with mode }

/-- An event runs when it is scheduled, and the port works on a transfer that is under way. The
memory mode changes while no packet is pending. -/
def Enabled (c : IdeChannel) : IdeInput → Prop
  | .access _ _ _ _ => True
  | .guestWrite _ _ => True
  | .event isSlave e _ => e ∈ (c.disks isSlave).scheduled
  | .serve isSlave i =>
    ((c.disks isSlave).transfer.any fun t => decide (i < t.pieces.length)) = true
  | .ack isSlave => ((c.disks isSlave).transfer.any fun t => t.pieces.isEmpty) = true
  | .setMode _ => c.dmaPending = false

instance (c : IdeChannel) (input : IdeInput) : Decidable (c.Enabled input) := by
  cases input <;> unfold Enabled <;> infer_instance

/-- The channel after its constructor. `nIENBit` is not initialised. -/
def init (nIENBit : Bool → Bool) (image : Bool → DiskImage) (mem : Nat → Byte) (mode : MemMode) :
    IdeChannel where
  disks isSlave := IdeDisk.reset isSlave
    { nIENBit := nIENBit isSlave, devState := .Device_Idle_S, image := image isSlave }
  mem
  mode

def machine (cfg : IdeConfig) : Machine IdePanic IdeChannel IdeInput where
  start c := ∃ nIENBit image mem mode, c = init nIENBit image mem mode
  enabled := Enabled
  call := call cfg

instance (cfg : IdeConfig) (c : IdeChannel) (input : IdeInput) :
    Decidable ((machine cfg).enabled c input) :=
  inferInstanceAs (Decidable (c.Enabled input))

theorem init_reachable (cfg : IdeConfig) (C : IdeChannel → IdeInput → Prop)
    (nIENBit : Bool → Bool) (image : Bool → DiskImage) (mem : Nat → Byte) (mode : MemMode) :
    (machine cfg).ReachableBy C (init nIENBit image mem mode) :=
  .startup ⟨nIENBit, image, mem, mode, rfl⟩

end IdeChannel

end PardG5V
