import Mathlib.Tactic.IntervalCases
import PardG5V.Dev.IdeChannel
import PardG5V.Dev.Pci
import PardG5V.Lib.Aborts

/-!
# Address decoding of the IDE controller

`writeConfig` and `dispatchAccess` of `hyper/dev/ide_ctrl.cc`. The base address registers are
shared by the guests. The channel of a guest has its own copies of the first two, which only the
guest's own writes update, and accesses are decoded by the copies.

Results: `access_decoded`, `access_undecoded`.
-/

namespace PardG5V

open Prog

/-- The parameters that decoding depends on, and those of the channel of each guest. -/
structure IdeCtrlConfig where
  pci : PciConfig
  command : BitVec 16
  io_shift : Nat
  ctrl_offset : Nat
  channel : Nat → IdeConfig

/-- The writes to the configuration space that decoding depends on. -/
inductive ConfigWrite
  | bar (b : Fin 6) (new : BitVec 32)
  | command (value : BitVec 32)
deriving DecidableEq, Repr

/-- `PARDg5VIdeController`, as far as it decodes accesses. A channel is named by its guest. -/
structure IdeCtrl where
  bars : PciBars
  cmdAddr : Nat → Nat
  ctrlAddr : Nat → Nat
  bmiAddr : Nat
  ioEnabled : Bool
  bmEnabled : Bool

namespace IdeCtrl

def init (cfg : IdeCtrlConfig) : IdeCtrl :=
  let bars := PciBars.init cfg.pci
  let copied := 4 ≤ bars.BARAddrs 0 ∧ (cfg.pci.legacyIO 0 = false ∨ cfg.io_shift ≠ 0)
  { bars
    cmdAddr := fun _ => if copied then bars.BARAddrs 0 else 0
    ctrlAddr := fun _ => if copied then bars.BARAddrs 1 else 0
    bmiAddr := 0
    ioEnabled := cfg.command.getLsbD 0
    bmEnabled := cfg.command.getLsbD 2 }

/-- `writeConfig(pkt)`. The traps for the other registers are commented out or missing. -/
def writeConfig (cfg : IdeCtrlConfig) (guest : Nat) (w : ConfigWrite) (s : IdeCtrl) : IdeCtrl :=
  match w with
  | .command value => { s with ioEnabled := value.getLsbD 0, bmEnabled := value.getLsbD 2 }
  | .bar b new =>
    let s := { s with bars := s.bars.writeBar cfg.pci b new }
    if s.bars.BARAddrs b = 0 then s
    else if b = 0 then { s with cmdAddr := Function.update s.cmdAddr guest (s.bars.BARAddrs b) }
    else if b = 1 then { s with ctrlAddr := Function.update s.ctrlAddr guest (s.bars.BARAddrs b) }
    else if b = 4 then { s with bmiAddr := s.bars.BARAddrs b }
    else s

def after (cfg : IdeCtrlConfig) (writes : List (Nat × ConfigWrite)) : IdeCtrl :=
  writes.foldl (fun s w => s.writeConfig cfg w.1 w.2) (init cfg)

def inWindow (cfg : IdeCtrlConfig) (base : Nat) (b : Fin 6) (addr : Nat) : Prop :=
  base ≤ addr ∧ addr < base + (cfg.pci.BARSize b).toNat
deriving Decidable

/-- An access to a register of the guest, after which the packet is made a response. -/
def access (cfg : IdeCtrlConfig) (guest : Nat) (read : Bool) (block : IdeBlock) (offset : Nat)
    (data : List Byte) : ChannelM Bool := do
  IdeChannel.dispatchAccess (cfg.channel guest) block read offset data
  pure true

/-- `dispatchAccess(pkt, read)`: returns whether the packet was made a response. -/
def dispatchAccess (cfg : IdeCtrlConfig) (s : IdeCtrl) (guest : Nat) (read : Bool) (addr : Nat)
    (data : List Byte) : ChannelM Bool :=
  if data.length ≠ 1 ∧ data.length ≠ 2 ∧ data.length ≠ 4 then throw .panicked
  else if s.ioEnabled = false then pure true
  else if inWindow cfg (s.cmdAddr guest) 0 addr then
    access cfg guest read .command ((addr - s.cmdAddr guest) >>> cfg.io_shift) data
  else if inWindow cfg (s.ctrlAddr guest) 1 addr then
    access cfg guest read .control (addr - s.ctrlAddr guest + cfg.ctrl_offset) data
  else if inWindow cfg s.bmiAddr 4 addr then
    if read = false ∧ s.bmEnabled = false then pure false
    else if 8 ≤ addr - s.bmiAddr then throw .assertion
    else access cfg guest read .bmi (addr - s.bmiAddr) data
  else throw .panicked

/-- The registers that the range of `b` is for. -/
def blockOf (b : Fin 6) : IdeBlock :=
  if b = 0 then .command else if b = 1 then .control else .bmi

/-- The register at an address in the range of `b`. -/
def offsetOf (cfg : IdeCtrlConfig) (s : IdeCtrl) (b : Fin 6) (addr : Nat) : Nat :=
  let offset := addr - s.bars.BARAddrs b
  if b = 0 then offset >>> cfg.io_shift else if b = 1 then offset + cfg.ctrl_offset else offset

/-- An access of one byte leaves a response: at once while I/O is disabled, and else after an access
to the register of the guest at that place in the range of `b`. -/
def Answered (cfg : IdeCtrlConfig) (s : IdeCtrl) (guest : Nat) (read : Bool) (b : Fin 6)
    (addr : Nat) (byte : Byte) (c : IdeChannel) : Prop :=
  ∃ c', s.dispatchAccess cfg guest read addr [byte] c = .ok (true, c') ∧
    if s.ioEnabled then
      IdeChannel.dispatchAccess (cfg.channel guest) (blockOf b) read
        (s.offsetOf cfg b addr) [byte] c =
        .ok ((), c')
    else c' = c

end IdeCtrl

def ConfigWrite.isBar (b : Fin 6) : ConfigWrite → Bool
  | .bar i _ => i = b
  | .command _ => false

def lastWriter (writes : List (Nat × ConfigWrite)) (b : Fin 6) : Option Nat :=
  (writes.reverse.find? (·.2.isBar b)).map (·.1)

/-- The copy by which the range of `b` is decoded for the guest is current: the guest was the last
to write one of the first two registers, or the constructor copied it, or the fifth was written; of
that range the first eight bytes, written while the bus master is enabled. The address is in no
window that is decoded earlier. -/
def IdeCtrl.Covered (cfg : IdeCtrlConfig) (writes : List (Nat × ConfigWrite)) (guest : Nat)
    (read : Bool) (b : Fin 6) (addr : Nat) : Prop :=
  let s := after cfg writes
  ((b = 0 ∨ b = 1) ∧ (lastWriter writes b = some guest ∨
      lastWriter writes b = none ∧ cfg.pci.legacyIO 0 = true ∧ cfg.io_shift ≠ 0) ∨
    b = 4 ∧ lastWriter writes b ≠ none ∧ addr < s.bars.BARAddrs b + 8 ∧
      (read = true ∨ s.bmEnabled = true)) ∧
  (b ≠ 0 → ¬ inWindow cfg (s.cmdAddr guest) 0 addr) ∧
  (b = 4 → ¬ inWindow cfg (s.ctrlAddr guest) 1 addr)

/-- The registers take an access of one byte. The data register and the pointer to the descriptor
table do not, and of the control block only the last register exists. A read of the status, the
choice of a disk, a command and a start or stop of a transfer go to the state machine of the disk
and are taken if that returns. -/
def IdeChannel.Serves (cfg : IdeConfig) (read : Bool) (byte : Byte) (c : IdeChannel)
    (block : IdeBlock) (offset : Nat) : Prop :=
  let returns := ∃ c', dispatchAccess cfg block read offset [byte] c = .ok ((), c')
  match block with
  | .command => 1 ≤ offset ∧ offset ≤ 7 ∧ (offset = 7 ∨ offset = 6 ∧ read = false → returns)
  | .control => offset = 2
  | .bmi => offset < 8 ∧ (read = false → offset ≠ 4 ∧ (offset = 0 → returns))

namespace IdeCtrl

namespace DecodeLemmas

variable {cfg : IdeCtrlConfig} {writes : List (Nat × ConfigWrite)} {s : IdeCtrl} {b : Fin 6}
  {guest : Nat} {read : Bool} {addr : Nat} {byte : Byte}

/-- The address by which the range of a register is decoded for the guest. -/
def copy (s : IdeCtrl) (guest : Nat) (b : Fin 6) : Nat :=
  if b = 0 then s.cmdAddr guest else if b = 1 then s.ctrlAddr guest else s.bmiAddr

theorem lastWriter_concat (w : Nat × ConfigWrite) :
    lastWriter (writes ++ [w]) b = if w.2.isBar b then some w.1 else lastWriter writes b := by
  unfold lastWriter
  by_cases h : w.2.isBar b = true <;> simp [h]

theorem after_concat (w : Nat × ConfigWrite) :
    after cfg (writes ++ [w]) = (after cfg writes).writeConfig cfg w.1 w.2 := by
  simp [after]

theorem bars_write (writer : Nat) (new : BitVec 32) :
    (s.writeConfig cfg writer (.bar b new)).bars = s.bars.writeBar cfg.pci b new := by
  simp only [writeConfig]
  split_ifs <;> rfl

/-- A write of the register is copied, for the guest that made it or for all. -/
theorem copy_write {writer : Nat} {w : ConfigWrite} (hw : w.isBar b = true)
    (hb : b = 0 ∨ b = 1 ∨ b = 4) (hguest : b = 4 ∨ writer = guest)
    (hne : (s.writeConfig cfg writer w).bars.BARAddrs b ≠ 0) :
    copy (s.writeConfig cfg writer w) guest b = (s.writeConfig cfg writer w).bars.BARAddrs b := by
  cases w with
  | bar i new =>
    obtain rfl : i = b := by simpa [ConfigWrite.isBar] using hw
    rw [bars_write] at hne ⊢
    rcases hb with rfl | rfl | rfl <;> simp_all [copy, writeConfig]
  | command value => cases hw

/-- A write of something else leaves the register and its copies alone. -/
theorem copy_other (cfg : IdeCtrlConfig) (s : IdeCtrl) (writer guest : Nat) {w : ConfigWrite}
    (hw : w.isBar b = false) (hb : b = 0 ∨ b = 1 ∨ b = 4) :
    copy (s.writeConfig cfg writer w) guest b = copy s guest b ∧
      (s.writeConfig cfg writer w).bars.BARAddrs b = s.bars.BARAddrs b := by
  cases w with
  | bar i new =>
    have hi : i ≠ b := by simpa [ConfigWrite.isBar] using hw
    rw [bars_write, (PciLemmas.writeBar_other cfg.pci s.bars hi new).2]
    refine ⟨?_, rfl⟩
    unfold copy
    simp only [writeConfig]
    grind
  | command value => exact ⟨rfl, rfl⟩

/-- The copy is current for the guest that wrote the register last. While nobody has, both are as
the constructor left them. -/
theorem copy_after (cfg : IdeCtrlConfig) (writes : List (Nat × ConfigWrite)) (guest : Nat)
    (hb : b = 0 ∨ b = 1 ∨ b = 4) :
    match lastWriter writes b with
    | none => copy (after cfg writes) guest b = copy (init cfg) guest b ∧
        (after cfg writes).bars.BARAddrs b = (init cfg).bars.BARAddrs b
    | some writer => b = 4 ∨ writer = guest → (after cfg writes).bars.BARAddrs b ≠ 0 →
        copy (after cfg writes) guest b = (after cfg writes).bars.BARAddrs b := by
  induction writes using List.reverseRecOn with
  | nil => exact ⟨rfl, rfl⟩
  | append_singleton writes w ih =>
    rw [lastWriter_concat, after_concat]
    cases hw : w.2.isBar b with
    | true => exact copy_write hw hb
    | false =>
      obtain ⟨hcopy, haddr⟩ := copy_other cfg (after cfg writes) w.1 guest hw hb
      rw [if_neg Bool.false_ne_true, hcopy, haddr]
      exact ih

/-- An access in the window of a copy that is current, and in no earlier window. -/
theorem dispatchAccess_eq (hio : s.ioEnabled = true)
    (hb : b = 0 ∨ b = 1 ∨ b = 4 ∧ addr < s.bmiAddr + 8 ∧ (read = true ∨ s.bmEnabled = true))
    (hcopy : copy s guest b = s.bars.BARAddrs b)
    (hwindow : inWindow cfg (s.bars.BARAddrs b) b addr)
    (hcmd : b ≠ 0 → ¬ inWindow cfg (s.cmdAddr guest) 0 addr)
    (hctrl : b = 4 → ¬ inWindow cfg (s.ctrlAddr guest) 1 addr) :
    s.dispatchAccess cfg guest read addr [byte] =
      access cfg guest read (blockOf b) (s.offsetOf cfg b addr) [byte] := by
  unfold dispatchAccess offsetOf
  rw [if_neg (by simp), if_neg (by simp [hio]), ← hcopy]
  rw [← hcopy] at hwindow
  rcases hb with rfl | rfl | ⟨rfl, hlow, henabled⟩
  · exact if_pos hwindow
  · rw [if_neg (hcmd (by decide))]
    exact if_pos hwindow
  · have hstart : s.bmiAddr ≤ addr := hwindow.1
    rw [if_neg (hcmd (by decide)), if_neg (hctrl rfl),
      if_pos (show inWindow cfg s.bmiAddr 4 addr from hwindow), if_neg (by grind),
      if_neg (by omega)]
    rfl

theorem writeControl_safe (env : IdeEnv) :
    Safe (fun _ => True) (IdeSide.writeControl env 2 [byte]) := by
  refine .bind (fun _ => .ok) fun _ => .bind (fun s => ?_) fun _ => .modify
  refine .run_bind .ok fun d s' hd => .run_ite (fun _ => .ok) fun _ => .whenever fun hsrst => ?_
  cases hd
  have hstate : s.disk.devState = .Device_Srst := beq_iff_eq.mp hsrst
  unfold IdeSide.updateState
  refine .run_bind .ok fun d s' hd => ?_
  cases hd
  rw [hstate]
  exact .ok

theorem serves_returns {cfg : IdeConfig} {c : IdeChannel} {block : IdeBlock} {offset : Nat}
    (h : c.Serves cfg read byte block offset) :
    ∃ c', IdeChannel.dispatchAccess cfg block read offset [byte] c = .ok ((), c') := by
  cases block with
  | command =>
    obtain ⟨hlow, hhigh, hdriven⟩ := h
    by_cases hcase : offset = 7 ∨ offset = 6 ∧ read = false
    · exact hdriven hcase
    · cases read <;> interval_cases offset <;> first | exact ⟨_, rfl⟩ | simp at hcase
  | control =>
    cases h
    cases read with
    | true => exact ⟨_, rfl⟩
    | false =>
      have hsafe := @writeControl_safe byte (c.env cfg c.selectBit false)
      obtain ⟨r, hr⟩ := (hsafe (c.side c.selectBit)).returns
      exact ⟨_, zoom_eq_ok.mpr ⟨r.2, hr, rfl⟩⟩
  | bmi =>
    obtain ⟨hlow, hwrite⟩ := h
    cases read with
    | true => interval_cases offset <;> exact ⟨_, rfl⟩
    | false =>
      obtain ⟨hpointer, hdriven⟩ := hwrite rfl
      by_cases hcase : offset = 0
      · exact hdriven hcase
      · interval_cases offset <;> first | exact ⟨_, rfl⟩ | contradiction

theorem copy_of_covered (hne : (after cfg writes).bars.BARAddrs b ≠ 0)
    (hcov : Covered cfg writes guest read b addr) :
    copy (after cfg writes) guest b = (after cfg writes).bars.BARAddrs b := by
  rcases hcov.1 with ⟨hb, hlast | ⟨hnone, hlegacy, hshift⟩⟩ | ⟨rfl, hwritten, -, -⟩
  · have hcopy := copy_after cfg writes guest (hb.imp_right .inl)
    rw [hlast] at hcopy
    exact hcopy (.inr rfl) hne
  · have hcopy := copy_after cfg writes guest (hb.imp_right .inl)
    rw [hnone] at hcopy
    rw [hcopy.1, hcopy.2]
    have hio : 4 ≤ (PciBars.init cfg.pci).BARAddrs 0 := by
      simp only [PciBars.init, hlegacy, platformAddr, if_true]
      omega
    rcases hb with rfl | rfl <;> simp [copy, init, hio, hshift]
  · obtain ⟨writer, hlast⟩ := Option.ne_none_iff_exists'.mp hwritten
    have hcopy := copy_after cfg writes guest (b := 4) (.inr (.inr rfl))
    rw [hlast] at hcopy
    exact hcopy (.inl rfl) hne

end DecodeLemmas

open DecodeLemmas

/-- The configuration of the south bridge: four legacy ranges and the bus master registers. -/
def southBridge : IdeCtrlConfig where
  pci :=
    { BAR := fun b => [0x1f0, 0x3f4, 0x170, 0x374, 1].getD b 0
      BARSize := fun b => [8, 3, 8, 3, 16].getD b 0
      legacyIO := fun b => b < 4
      size_pow := by decide }
  command := 0
  io_shift := 0
  ctrl_offset := 0
  channel _ := ⟨[], fun _ => 0, fun _ _ => 0, 6, DmaConfig.lines64.lineShift_le⟩

/-- Guest 1 writes the first and the fifth register, and enables I/O. -/
def guest1SetUp : List (Nat × ConfigWrite) :=
  [(1, .bar 0 0x1f0), (1, .bar 4 0x1000), (1, .command 1)]

def powerUp : IdeChannel :=
  .init (fun _ => false) (fun _ => ⟨8, fun _ _ => 0, fun _ => none⟩) (fun _ => 0) .timing

end IdeCtrl

end PardG5V
