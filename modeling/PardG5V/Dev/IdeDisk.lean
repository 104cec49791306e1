import PardG5V.Dev.DmaPort
import PardG5V.Dev.SectorCrypt
import PardG5V.Lib.Bytes

/-!
# The IDE disk

`hyper/dev/ide_disk.cc`: the registers of a disk, its state machine, and the DMA engine that goes
through the PRD table of the guest. The programs run on one disk, the bus master registers of its
channel and the memory of the guest. What the disk asks its controller is in `IdeEnv`.

A DMA action is a `Transfer` that the port works on: in atomic mode in the call, in timing mode
later and in any order. `dataBuffer` is the number of a buffer: a reset takes a new one and does
not free the old one, which a transfer may still use. `supplied` (what the guest supplied for the
bytes of the buffer), `started`, `touched`, `entries` and `stores` are read by no function.
-/

namespace PardG5V

open Prog Bytes

/-! ## Registers and states -/

inductive DevState
  | Device_Idle_S
  | Device_Idle_SI
  | Device_Idle_NS
  | Device_Srst
  | Command_Execution
  | Prepare_Data_In
  | Data_Ready_INTRQ_In
  | Transfer_Data_In
  | Prepare_Data_Out
  | Data_Ready_INTRQ_Out
  | Transfer_Data_Out
  | Prepare_Data_Dma
  | Transfer_Data_Dma
  | Device_Dma_Abort
deriving DecidableEq, Repr

/-- `DevAction_t`, without those that nothing uses. -/
inductive DevAction
  | ACT_CMD_WRITE
  | ACT_CMD_COMPLETE
  | ACT_CMD_ERROR
  | ACT_SELECT_WRITE
  | ACT_STAT_READ
  | ACT_DATA_READY
  | ACT_DATA_READ_SHORT
  | ACT_DATA_WRITE_SHORT
  | ACT_DMA_READY
  | ACT_DMA_DONE
  | ACT_SRST_SET
  | ACT_SRST_CLEAR
deriving DecidableEq, Repr

inductive DmaState
  | Dma_Idle
  | Dma_Start
  | Dma_Transfer
deriving DecidableEq, Repr

/-- The events of the disk that are ever scheduled. -/
inductive DiskEvent
  | dmaTransferEvent
  | dmaPrdReadEvent
  | dmaReadWaitEvent
  | dmaWriteWaitEvent
deriving DecidableEq, Repr

/-- `CommandReg_t`. The head and the drive register are one. -/
structure CommandReg where
  data : BitVec 16 := 0
  error : Byte := 0
  sec_count : Byte := 0
  sec_num : Byte := 0
  cyl_low : Byte := 0
  cyl_high : Byte := 0
  drive : Byte := 0
  command : Byte := 0
deriving DecidableEq, Repr

namespace CommandReg

def getLBABase (r : CommandReg) : BitVec 32 :=
  ((r.drive &&& 0xf).setWidth 32 <<< 24) ||| (r.cyl_high.setWidth 32 <<< 16) |||
    (r.cyl_low.setWidth 32 <<< 8) ||| r.sec_num.setWidth 32

def sectors (r : CommandReg) : Nat := if r.sec_count = 0 then 256 else r.sec_count.toNat

end CommandReg

structure PrdEntry where
  baseAddr : BitVec 32
  byteCount : BitVec 16
  endOfTable : BitVec 16
deriving DecidableEq, Repr

namespace PrdEntry

def getBaseAddr (e : PrdEntry) : BitVec 32 := e.baseAddr &&& 0xfffffffe

/-- `getByteCount()`: zero means 64 KiB. -/
def getByteCount (e : PrdEntry) : Nat :=
  if e.byteCount = 0 then 0x10000 else (e.byteCount &&& 0xfffe).toNat

def getEOT (e : PrdEntry) : Bool := e.endOfTable &&& 0x8000 != 0

/-- The entry in eight bytes. -/
def ofBytes (b : Nat → Byte) : PrdEntry where
  baseAddr := BitVec.ofNat 32 (value (load b 0 4))
  byteCount := BitVec.ofNat 16 (value (load b 4 2))
  endOfTable := BitVec.ofNat 16 (value (load b 6 2))

end PrdEntry

/-- `CowDiskImage` over an image of `size` sectors. -/
structure DiskImage where
  size : Nat
  child : Nat → Nat → Byte
  table : Nat → Option (Nat → Byte) := fun _ => none

/-- Where the port puts the data of a read, or takes those of a write from. -/
inductive DmaTarget
  | prd
  | buffer (id off : Nat)
deriving DecidableEq, Repr

/-- A DMA action of the disk, with the pieces that are still to be moved. -/
structure Transfer where
  isRead : Bool
  event : DiskEvent
  target : DmaTarget
  pieces : List ChunkGen.Chunk
deriving DecidableEq, Repr

/-- A sector that was stored in the image, and what the guest supplied for it. -/
structure SectorStore where
  sector : Nat
  data : List Byte
  supplied : List Byte
deriving DecidableEq, Repr

structure IdeDisk where
  cmdReg : CommandReg := {}
  status : Byte := 0
  nIENBit : Bool
  devState : DevState
  dmaState : DmaState := .Dma_Idle
  dmaRead : Bool := false
  curPrdAddr : BitVec 32 := 0
  prdBytes : Nat → Byte := fun _ => 0
  intrPending : Bool := false
  dmaAborted : Bool := false
  cmdBytes : BitVec 32 := 0
  cmdBytesLeft : BitVec 32 := 0
  drqBytesLeft : BitVec 32 := 0
  curSector : BitVec 32 := 0
  dataBuffer : Nat := 0
  buffers : Nat → Nat → Byte := fun _ _ => 0
  dmaReadCG : Option ChunkGen := none
  dmaWriteCG : Option ChunkGen := none
  scheduled : List DiskEvent := []
  transfer : Option Transfer := none
  image : DiskImage
  supplied : Nat → Byte := fun _ => 0
  started : List CommandReg := []
  touched : List Nat := []
  entries : List PrdEntry := []
  stores : List SectorStore := []

namespace IdeDisk

def curPrd (d : IdeDisk) : PrdEntry := .ofBytes d.prdBytes

def buffer (d : IdeDisk) : Nat → Byte := d.buffers d.dataBuffer

def setBuffer (d : IdeDisk) (bytes : Nat → Byte) : IdeDisk :=
  { d with buffers := fun id => if id = d.dataBuffer then bytes else d.buffers id }

def clearBuffer (d : IdeDisk) : IdeDisk :=
  { d.setBuffer fun _ => 0 with supplied := fun _ => 0 }

/-- `reset(id)`, where `isSlave` says whether the disk is `DEV1`. -/
def reset (isSlave : Bool) (d : IdeDisk) : IdeDisk :=
  let d := { d with dataBuffer := d.dataBuffer + 1 }.clearBuffer
  { d with
    cmdReg := { error := 1 }
    prdBytes := fun _ => 0
    curPrdAddr := 0
    curSector := 0
    cmdBytes := 0
    cmdBytesLeft := 0
    drqBytesLeft := 0
    dmaRead := false
    intrPending := false
    dmaAborted := false
    dmaState := .Dma_Idle
    devState := if isSlave then .Device_Idle_NS else .Device_Idle_S
    status := 0x40 }

end IdeDisk

/-- What a disk sees of its controller: `isSlave` says that it is `DEV1`, `selected` is
`isDEVSelect()`, and `busy` that packets are pending or the controller is not running. -/
structure IdeEnv where
  isSlave : Bool
  needCrypt : Bool
  driveID : Nat → Byte
  cacheLineSize : Nat
  selected : Bool
  busy : Bool
  mode : MemMode

/-- A disk with the bus master registers of its channel and the memory of the guest. -/
structure IdeSide where
  disk : IdeDisk
  bmi : Nat → Byte
  mem : Nat → Byte

/-- The panics on an inconsistent device or DMA state, on a second interrupt and on clearing none,
an access outside the image, a failed assertion, and every other panic. -/
inductive IdePanic
  | inconsistent
  | postPending
  | clearNotPending
  | image
  | assertion
  | panicked
deriving DecidableEq, Repr

abbrev IdeM := Prog IdePanic IdeSide

namespace IdeSide

def getDisk : IdeM IdeDisk := do return (← get).disk

def modifyDisk (f : IdeDisk → IdeDisk) : IdeM Unit := modify fun s => { s with disk := f s.disk }

def panicIf (c : Bool) (e : IdePanic) : IdeM Unit := Prog.when c (throw e)

/-! ## The image -/

def readDisk (sector : BitVec 32) (off : Nat) : IdeM Unit := do
  let d ← getDisk
  let n := sector.toNat
  panicIf (decide (d.image.size < n)) .image
  match d.image.table n with
  | some bytes =>
    modifyDisk fun d => { d.setBuffer (store d.buffer off (load bytes 0 sectorSize)) with
      touched := d.touched ++ [n] }
  | none =>
    panicIf (decide (d.image.size ≤ n)) .image
    modifyDisk fun d => { d.setBuffer (store d.buffer off (load (d.image.child n) 0 sectorSize))
      with touched := d.touched ++ [n] }

def writeDisk (sector : BitVec 32) (off : Nat) : IdeM Unit := do
  let d ← getDisk
  let n := sector.toNat
  panicIf (decide (d.image.size < n)) .image
  let bytes := fun i => d.buffer (off + i)
  modifyDisk fun d => { d with
    image := { d.image with
      table := fun k => if k = n then some bytes else d.image.table k }
    touched := d.touched ++ [n]
    stores := d.stores ++ [⟨n, load d.buffer off sectorSize, load d.supplied off sectorSize⟩] }

/-! ## Interrupts -/

/-- `intrPost()`. The controller sets the interrupt bit of the channel. -/
def intrPost : IdeM Unit := do
  let d ← getDisk
  panicIf d.intrPending .postPending
  modify fun s => { s with
    disk := { s.disk with intrPending := true }
    bmi := fun i => if i = 2 then s.bmi 2 ||| 4 else s.bmi i }

def intrClear : IdeM Unit := do
  let d ← getDisk
  panicIf (!d.intrPending) .clearNotPending
  modifyDisk fun d => { d with intrPending := false }

def setDmaComplete : IdeM Unit :=
  modify fun s => { s with
    bmi := fun i =>
      if i = 0 then s.bmi 0 &&& ~~~1 else if i = 2 then (s.bmi 2 &&& ~~~1) ||| 4 else s.bmi i }

/-! ## The state machine -/

def setComplete : IdeM Unit := modifyDisk fun d => { d with status := 0x50 }

/-- The end of a command: the disk is idle, with an interrupt unless these are masked. -/
def finishCommand : IdeM Unit := do
  let d ← getDisk
  if d.nIENBit then
    modifyDisk fun d => { d with devState := .Device_Idle_S }
  else
    modifyDisk fun d => { d with devState := .Device_Idle_SI }
    intrPost

/-- The block that is read next is put into the buffer. -/
def loadBlock (env : IdeEnv) : IdeM Unit := do
  let d ← getDisk
  if d.cmdReg.command = 0xec then
    modifyDisk fun d => d.setBuffer (store d.buffer 0 (load env.driveID 0 sectorSize))
  else do
    modifyDisk fun d => { d with curSector := d.curSector + 1 }
    readDisk d.curSector 0

/-- The block is read, and its first word is put into the data register. -/
def fillBlock (env : IdeEnv) : IdeM Unit := do
  modifyDisk fun d => { d with drqBytesLeft := 512 }
  loadBlock env
  modifyDisk fun d => { d with cmdReg := { d.cmdReg with
    data := BitVec.ofNat 16 (value (load d.buffer 0 2)) } }

/-- `Prepare_Data_In` on `ACT_DATA_READY`. -/
def dataInReady (env : IdeEnv) : IdeM Unit := do
  modifyDisk fun d => { d with status := (d.status &&& ~~~0x80) ||| 8 }
  fillBlock env
  let d ← getDisk
  if d.nIENBit then
    modifyDisk fun d => { d with devState := .Transfer_Data_In }
  else
    modifyDisk fun d => { d with devState := .Data_Ready_INTRQ_In }
    intrPost

/-- `Prepare_Data_Out` on `ACT_DATA_READY`. -/
def dataOutReady : IdeM Unit := do
  modifyDisk fun d => { d.clearBuffer with
    status := (d.status &&& ~~~0x80) ||| 8, drqBytesLeft := 512 }
  let d ← getDisk
  if d.cmdBytesLeft = d.cmdBytes ∨ d.nIENBit = true then
    modifyDisk fun d => { d with devState := .Transfer_Data_Out }
  else
    modifyDisk fun d => { d with devState := .Data_Ready_INTRQ_Out }
    intrPost

/-- `Prepare_Data_Dma` on `ACT_DMA_READY`: the disk waits for the start bit. -/
def dmaReady : IdeM Unit := do
  modifyDisk fun d => { d with
    status := (d.status &&& ~~~0x80) ||| 8, devState := .Transfer_Data_Dma }
  let d ← getDisk
  panicIf (d.dmaState != .Dma_Idle) .inconsistent
  modifyDisk fun d => { d with dmaState := .Dma_Start }

/-- `updateState(action)` in the states that a command goes through while it starts. -/
def updatePreparing (env : IdeEnv) (action : DevAction) : IdeM Unit := do
  let d ← getDisk
  match d.devState with
  | .Command_Execution =>
    Prog.when (action == .ACT_CMD_COMPLETE) do
      setComplete
      finishCommand
  | .Prepare_Data_In =>
    if action = .ACT_CMD_ERROR then do
      setComplete
      finishCommand
    else
      Prog.when (action == .ACT_DATA_READY) (dataInReady env)
  | .Prepare_Data_Out =>
    if action = .ACT_CMD_ERROR ∨ d.cmdBytesLeft = 0 then do
      setComplete
      finishCommand
    else
      Prog.when (action == .ACT_DATA_READY) dataOutReady
  | .Prepare_Data_Dma =>
    if action = .ACT_CMD_ERROR then do
      setComplete
      finishCommand
    else
      Prog.when (action == .ACT_DMA_READY) dmaReady
  | _ => pure ()

/-- The kinds of commands that `startCommand` tells apart. -/
inductive AtaKind
  | readNativeMax
  | nonData
  | identify
  | pioIn
  | pioOut
  | writeDma
  | readDma
deriving DecidableEq, Repr

/-- The cases of `startCommand`. -/
def decode (command : Byte) : Option AtaKind :=
  match command.toNat with
  | 0xf8 => some .readNativeMax
  | 0x10 | 0x91 | 0xe0 | 0xe7 | 0x40 | 0x70 | 0xef | 0xc6 => some .nonData
  | 0xec => some .identify
  | 0xc4 | 0x20 => some .pioIn
  | 0xc5 | 0x30 => some .pioOut
  | 0xca => some .writeDma
  | 0xc8 => some .readDma
  | _ => none

def beginCommand (env : IdeEnv) (devState : DevState) (action : DevAction) : IdeM Unit := do
  modifyDisk fun d => { d with
    devState, status := (((d.status ||| 0x80) &&& ~~~8) &&& ~~~0x20) }
  updatePreparing env action

/-- A command that transfers sectors: the counters and the first sector. -/
def setTransfer : IdeM Unit := do
  let d ← getDisk
  panicIf (!d.cmdReg.drive.getLsbD 6) .panicked
  let bytes := BitVec.ofNat 32 (d.cmdReg.sectors * sectorSize)
  modifyDisk fun d => { d with
    cmdBytes := bytes, cmdBytesLeft := bytes, curSector := d.cmdReg.getLBABase }

def startCommand (env : IdeEnv) : IdeM Unit := do
  modifyDisk fun d => { d with
    dmaRead := false, started := d.started ++ [d.cmdReg], touched := [], entries := [] }
  let d ← getDisk
  match decode d.cmdReg.command with
  | some .readNativeMax =>
    let size := BitVec.ofNat 32 d.image.size - 1
    modifyDisk fun d => { d with cmdReg := { d.cmdReg with
      sec_num := (size &&& 0xff).setWidth 8
      cyl_low := ((size &&& 0xff00) >>> 8).setWidth 8
      cyl_high := ((size &&& 0xff0000) >>> 16).setWidth 8
      drive := ((size &&& 0xf000000) >>> 24).setWidth 8 } }
    beginCommand env .Command_Execution .ACT_CMD_COMPLETE
  | some .nonData => beginCommand env .Command_Execution .ACT_CMD_COMPLETE
  | some .identify =>
    modifyDisk fun d => { d with cmdBytes := 512, cmdBytesLeft := 512 }
    beginCommand env .Prepare_Data_In .ACT_DATA_READY
  | some .pioIn =>
    setTransfer
    beginCommand env .Prepare_Data_In .ACT_DATA_READY
  | some .pioOut =>
    setTransfer
    beginCommand env .Prepare_Data_Out .ACT_DATA_READY
  | some .writeDma =>
    modifyDisk fun d => { d with dmaRead := true }
    setTransfer
    beginCommand env .Prepare_Data_Dma .ACT_DMA_READY
  | some .readDma =>
    setTransfer
    beginCommand env .Prepare_Data_Dma .ACT_DMA_READY
  | none => throw .panicked

/-- `Transfer_Data_In` on a read of the data register. -/
def dataRead (env : IdeEnv) : IdeM Unit := do
  modifyDisk fun d => { d with
    drqBytesLeft := d.drqBytesLeft - 2, cmdBytesLeft := d.cmdBytesLeft - 2 }
  let d ← getDisk
  if d.drqBytesLeft ≠ 0 then
    modifyDisk fun d => { d with cmdReg := { d.cmdReg with
      data := BitVec.ofNat 16 (value (load d.buffer (512 - d.drqBytesLeft).toNat 2)) } }
  else if d.cmdBytesLeft = 0 then do
    setComplete
    modifyDisk fun d => { d with devState := .Device_Idle_S }
  else do
    modifyDisk fun d => { d with
      devState := .Prepare_Data_In, status := (d.status ||| 0x80) &&& ~~~8 }
    updatePreparing env .ACT_DATA_READY

/-- `Transfer_Data_Out` on a write of the data register. -/
def dataWritten (env : IdeEnv) : IdeM Unit := do
  modifyDisk fun d =>
    let off := (512 - d.drqBytesLeft).toNat
    let bytes := littleEndian 2 d.cmdReg.data.toNat
    { d.setBuffer (store d.buffer off bytes) with
      supplied := store d.supplied off bytes
      drqBytesLeft := d.drqBytesLeft - 2
      cmdBytesLeft := d.cmdBytesLeft - 2 }
  let d ← getDisk
  Prog.when (d.drqBytesLeft == 0) do
    modifyDisk fun d => { d with curSector := d.curSector + 1 }
    writeDisk d.curSector 0
    modifyDisk fun d => { d with
      status := ((d.status ||| 0x80) ||| 0x10) &&& ~~~8, devState := .Prepare_Data_Out }
    updatePreparing env .ACT_DATA_READY

/-- The end of a DMA command, whether it was done or aborted. -/
def finishDma : IdeM Unit := do
  setComplete
  modifyDisk fun d => { d with status := d.status ||| 0x10 }
  setDmaComplete

def updateState (env : IdeEnv) (action : DevAction) : IdeM Unit := do
  let d ← getDisk
  match d.devState with
  | .Device_Srst =>
    if action = .ACT_SRST_SET then
      modifyDisk fun d => { d with status := d.status ||| 0x80 }
    else
      Prog.when (action == .ACT_SRST_CLEAR) do
        modifyDisk fun d => { d with status := d.status &&& ~~~0x80 }
        modifyDisk (IdeDisk.reset env.isSlave)
  | .Device_Idle_S =>
    if action = .ACT_SELECT_WRITE ∧ env.selected = false then
      modifyDisk fun d => { d with devState := .Device_Idle_NS }
    else
      Prog.when (action == .ACT_CMD_WRITE) (startCommand env)
  | .Device_Idle_SI =>
    if action = .ACT_SELECT_WRITE ∧ env.selected = false then do
      modifyDisk fun d => { d with devState := .Device_Idle_NS }
      intrClear
    else if action = .ACT_STAT_READ ∨ d.nIENBit = true then do
      modifyDisk fun d => { d with devState := .Device_Idle_S }
      intrClear
    else
      Prog.when (action == .ACT_CMD_WRITE) do
        intrClear
        startCommand env
  | .Device_Idle_NS =>
    Prog.when (action == .ACT_SELECT_WRITE && env.selected) do
      Prog.when (!d.nIENBit && d.intrPending) do
        modifyDisk fun d => { d with devState := .Device_Idle_SI }
        intrPost
      let d ← getDisk
      Prog.when (d.nIENBit || !d.intrPending) do
        modifyDisk fun d => { d with devState := .Device_Idle_S }
  | .Data_Ready_INTRQ_In =>
    Prog.when (action == .ACT_STAT_READ) do
      modifyDisk fun d => { d with devState := .Transfer_Data_In }
      intrClear
  | .Transfer_Data_In => Prog.when (action == .ACT_DATA_READ_SHORT) (dataRead env)
  | .Data_Ready_INTRQ_Out =>
    Prog.when (action == .ACT_STAT_READ) do
      modifyDisk fun d => { d with devState := .Transfer_Data_Out }
      intrClear
  | .Transfer_Data_Out => Prog.when (action == .ACT_DATA_WRITE_SHORT) (dataWritten env)
  | .Transfer_Data_Dma =>
    if action = .ACT_CMD_ERROR then
      modifyDisk fun d => { d with dmaAborted := true, devState := .Device_Dma_Abort }
    else
      Prog.when (action == .ACT_DMA_DONE) do
        finishDma
        finishCommand
  | .Device_Dma_Abort =>
    Prog.when (action == .ACT_CMD_ERROR) do
      finishDma
      modifyDisk fun d => { d with dmaAborted := false, dmaState := .Dma_Idle }
      finishCommand
  | .Command_Execution | .Prepare_Data_In | .Prepare_Data_Out | .Prepare_Data_Dma =>
    updatePreparing env action

/-! ## Register accesses -/

/-- A read of the data register, which steps to the next word. -/
def readData (env : IdeEnv) (size : Nat) : IdeM (List Byte) := do
  let d ← getDisk
  if size = 2 then do
    updateState env .ACT_DATA_READ_SHORT
    return littleEndian 2 d.cmdReg.data.toNat
  else if size = 4 then do
    updateState env .ACT_DATA_READ_SHORT
    let d' ← getDisk
    updateState env .ACT_DATA_READ_SHORT
    return littleEndian 2 d.cmdReg.data.toNat ++ littleEndian 2 d'.cmdReg.data.toNat
  else throw .panicked

/-- `readCommand(offset, size, data)`: the bytes that are read. -/
def readCommand (env : IdeEnv) (offset size : Nat) : IdeM (List Byte) := do
  let d ← getDisk
  if offset = 0 then readData env size
  else do
    panicIf (size != 1) .assertion
    match offset with
    | 1 => return [d.cmdReg.error]
    | 2 => return [d.cmdReg.sec_count]
    | 3 => return [d.cmdReg.sec_num]
    | 4 => return [d.cmdReg.cyl_low]
    | 5 => return [d.cmdReg.cyl_high]
    | 6 => return [d.cmdReg.drive]
    | 7 => do
      updateState env .ACT_STAT_READ
      return [d.status]
    | _ => throw .panicked

def readControl (offset size : Nat) : IdeM (List Byte) := do
  panicIf (size != 1) .assertion
  panicIf (offset != 2) .panicked
  let d ← getDisk
  return [d.status]

def setReg (f : CommandReg → CommandReg) : IdeM Unit :=
  modifyDisk fun d => { d with cmdReg := f d.cmdReg }

def writeWord (env : IdeEnv) (data : List Byte) : IdeM Unit := do
  setReg fun r => { r with data := BitVec.ofNat 16 (value data) }
  updateState env .ACT_DATA_WRITE_SHORT

def writeData (env : IdeEnv) (data : List Byte) : IdeM Unit :=
  if data.length = 2 then writeWord env data
  else if data.length = 4 then do
    writeWord env (data.take 2)
    writeWord env (data.drop 2)
  else throw .panicked

def writeCommand (env : IdeEnv) (offset : Nat) (data : List Byte) : IdeM Unit :=
  if offset = 0 then writeData env data
  else do
    panicIf (data.length != 1) .assertion
    let byte := data.headD 0
    match offset with
    | 1 => pure ()
    | 2 => setReg fun r => { r with sec_count := byte }
    | 3 => setReg fun r => { r with sec_num := byte }
    | 4 => setReg fun r => { r with cyl_low := byte }
    | 5 => setReg fun r => { r with cyl_high := byte }
    | 6 => do
      setReg fun r => { r with drive := byte }
      updateState env .ACT_SELECT_WRITE
    | 7 => do
      setReg fun r => { r with command := byte }
      updateState env .ACT_CMD_WRITE
    | _ => throw .panicked

def softReset (env : IdeEnv) (rst : Bool) : IdeM Unit := do
  let d ← getDisk
  if rst then do
    modifyDisk fun d => { d with devState := .Device_Srst }
    updateState env .ACT_SRST_SET
  else
    Prog.when (d.devState == .Device_Srst) (updateState env .ACT_SRST_CLEAR)

def writeControl (env : IdeEnv) (offset : Nat) (data : List Byte) : IdeM Unit := do
  panicIf (offset != 2) .panicked
  let byte := data.headD 0
  softReset env (byte.getLsbD 2)
  modifyDisk fun d => { d with nIENBit := byte.getLsbD 1 }

/-! ## DMA -/

def schedule (event : DiskEvent) : IdeM Unit := do
  let d ← getDisk
  panicIf (d.scheduled.contains event) .assertion
  modifyDisk fun d => { d with scheduled := event :: d.scheduled }

/-- A piece of a transfer is moved between the memory and its target. -/
def move (isRead : Bool) (target : DmaTarget) (c : ChunkGen.Chunk) (s : IdeSide) : IdeSide :=
  let d := s.disk
  match target, isRead with
  | .prd, true =>
    { s with disk :=
      { d with prdBytes := store d.prdBytes c.complete (load s.mem c.addr.toNat c.size) } }
  | .prd, false =>
    { s with mem := store s.mem c.addr.toNat (load d.prdBytes c.complete c.size) }
  | .buffer id off, true =>
    let bytes := load s.mem c.addr.toNat c.size
    { s with disk := { d with
      buffers := fun k => if k = id then store (d.buffers id) (off + c.complete) bytes
        else d.buffers k
      supplied := if id = d.dataBuffer then store d.supplied (off + c.complete) bytes
        else d.supplied } }
  | .buffer id off, false =>
    { s with mem := store s.mem c.addr.toNat (load (d.buffers id) (off + c.complete) c.size) }

/-- `dmaAction` of the port: at once in atomic mode, later in timing mode. -/
def dmaAction (env : IdeEnv) (isRead : Bool) (addr : Addr) (size : Nat) (event : DiskEvent)
    (target : DmaTarget) : IdeM Unit := do
  let pieces := ChunkGen.all addr size env.cacheLineSize
  match env.mode with
  | .atomic => do
    modify fun s => pieces.foldl (fun s c => move isRead target c s) s
    schedule event
  | .timing => modifyDisk fun d => { d with transfer := some ⟨isRead, event, target, pieces⟩ }

/-- `dmaRead(addr, size, guestID, need_encrypt, event, data)` into the data buffer. -/
def dmaRead (env : IdeEnv) (addr : Addr) (size : Nat) (event : DiskEvent) (off : Nat) :
    IdeM Unit := do
  let d ← getDisk
  dmaAction env true addr size event (.buffer d.dataBuffer off)
  Prog.when env.needCrypt do
    modifyDisk fun d => d.setBuffer (encrypt size off d.buffer)

/-- `dmaWrite(addr, size, guestID, need_decrypt, event, data)` from the data buffer. -/
def dmaWrite (env : IdeEnv) (addr : Addr) (size : Nat) (event : DiskEvent) (off : Nat) :
    IdeM Unit := do
  Prog.when env.needCrypt do
    modifyDisk fun d => d.setBuffer (decrypt size off d.buffer)
  let d ← getDisk
  dmaAction env false addr size event (.buffer d.dataBuffer off)

/-- `doDmaTransfer()`. The entry of the table is read without decryption. -/
def doDmaTransfer (env : IdeEnv) : IdeM Unit := do
  let d ← getDisk
  if d.dmaAborted then updateState env .ACT_CMD_ERROR
  else do
    panicIf (d.dmaState != .Dma_Transfer || d.devState != .Transfer_Data_Dma) .inconsistent
    if env.busy then schedule .dmaTransferEvent
    else dmaAction env true (d.curPrdAddr.setWidth 64) 8 .dmaPrdReadEvent .prd

/-- The sectors of an entry are written to the image, `n` of them from the offset `off` on. -/
def storeSectors : Nat → Nat → IdeM Unit
  | _, 0 => pure ()
  | off, n + 1 => do
    let d ← getDisk
    modifyDisk fun d => { d with
      cmdBytesLeft := d.cmdBytesLeft - 512, curSector := d.curSector + 1 }
    writeDisk d.curSector off
    storeSectors (off + sectorSize) n

/-- The sectors of an entry are read from the image. -/
def loadSectors : Nat → Nat → IdeM Unit
  | _, 0 => pure ()
  | off, n + 1 => do
    let d ← getDisk
    modifyDisk fun d => { d with
      cmdBytesLeft := d.cmdBytesLeft - 512, curSector := d.curSector + 1 }
    readDisk d.curSector off
    loadSectors (off + sectorSize) n

/-- `dmaWriteDone()`, and the end of `dmaReadDone()`. -/
def entryDone (env : IdeEnv) : IdeM Unit := do
  let d ← getDisk
  if d.curPrd.getEOT then do
    panicIf (d.cmdBytesLeft != 0) .assertion
    modifyDisk fun d => { d with dmaState := .Dma_Idle }
    updateState env .ACT_DMA_DONE
  else doDmaTransfer env

def dmaReadDone (env : IdeEnv) : IdeM Unit := do
  let d ← getDisk
  storeSectors 0 (sectorsIn d.curPrd.getByteCount)
  entryDone env

def doDmaDataWrite : IdeM Unit := do
  let d ← getDisk
  modifyDisk IdeDisk.clearBuffer
  panicIf (decide (0x20000 < d.cmdBytesLeft.toNat)) .assertion
  loadSectors 0 (sectorsIn d.curPrd.getByteCount)
  schedule .dmaWriteWaitEvent

/-- `dmaPrdReadDone()`. `doDmaDataRead()` only waits for the disk. -/
def dmaPrdReadDone (env : IdeEnv) : IdeM Unit := do
  let d ← getDisk
  if d.dmaAborted then updateState env .ACT_CMD_ERROR
  else do
    modifyDisk fun d => { d with
      curPrdAddr := d.curPrdAddr + 8, entries := d.entries ++ [d.curPrd] }
    if d.dmaRead then schedule .dmaReadWaitEvent else doDmaDataWrite

/-- `ChunkGenerator(curPrd.getBaseAddr(), curPrd.getByteCount(), PageBytes)`. -/
def pageChunks (e : PrdEntry) : ChunkGen :=
  .init (e.getBaseAddr.setWidth 64) e.getByteCount 4096

/-- The next chunk of the entry is read from the memory, or the entry is done. -/
def readChunk (env : IdeEnv) (g : ChunkGen) : IdeM Unit :=
  if env.busy then schedule .dmaReadWaitEvent
  else if g.done = false then do
    panicIf (decide (0x20000 ≤ g.complete)) .assertion
    dmaRead env g.addr g.size .dmaReadWaitEvent g.complete
    modifyDisk fun d => { d with dmaReadCG := some g.next }
  else do
    modifyDisk fun d => { d with dmaReadCG := none }
    dmaReadDone env

def doDmaRead (env : IdeEnv) : IdeM Unit := do
  let d ← getDisk
  if d.dmaAborted then do
    modifyDisk fun d => { d with dmaReadCG := none }
    updateState env .ACT_CMD_ERROR
  else do
    Prog.when d.dmaReadCG.isNone do
      modifyDisk fun d => { d.clearBuffer with dmaReadCG := some (pageChunks d.curPrd) }
    let d ← getDisk
    readChunk env (d.dmaReadCG.getD (pageChunks d.curPrd))

/-- The next chunk of the entry is written to the memory, or the entry is done. -/
def writeChunk (env : IdeEnv) (g : ChunkGen) : IdeM Unit :=
  if env.busy then schedule .dmaWriteWaitEvent
  else if g.done = false then do
    panicIf (decide (0x20000 ≤ g.complete)) .assertion
    dmaWrite env g.addr g.size .dmaWriteWaitEvent g.complete
    modifyDisk fun d => { d with dmaWriteCG := some g.next }
  else do
    modifyDisk fun d => { d with dmaWriteCG := none }
    entryDone env

def doDmaWrite (env : IdeEnv) : IdeM Unit := do
  let d ← getDisk
  if d.dmaAborted then do
    modifyDisk fun d => { d with dmaWriteCG := none }
    updateState env .ACT_CMD_ERROR
  else do
    Prog.when d.dmaWriteCG.isNone do
      modifyDisk fun d => { d with dmaWriteCG := some (pageChunks d.curPrd) }
    let d ← getDisk
    writeChunk env (d.dmaWriteCG.getD (pageChunks d.curPrd))

def process (env : IdeEnv) : DiskEvent → IdeM Unit
  | .dmaTransferEvent => doDmaTransfer env
  | .dmaPrdReadEvent => dmaPrdReadDone env
  | .dmaReadWaitEvent => doDmaRead env
  | .dmaWriteWaitEvent => doDmaWrite env

def startDma (prdTableBase : BitVec 32) : IdeM Unit := do
  let d ← getDisk
  panicIf (d.dmaState != .Dma_Start) .inconsistent
  panicIf (d.devState != .Transfer_Data_Dma) .inconsistent
  modifyDisk fun d => { d with
    curPrdAddr := prdTableBase &&& ~~~3, dmaState := .Dma_Transfer }
  schedule .dmaTransferEvent

def abortDma (env : IdeEnv) : IdeM Unit := do
  let d ← getDisk
  panicIf (d.dmaState == .Dma_Idle) .inconsistent
  panicIf (d.devState != .Transfer_Data_Dma && d.devState != .Prepare_Data_Dma) .inconsistent
  updateState env .ACT_CMD_ERROR

end IdeSide

end PardG5V
