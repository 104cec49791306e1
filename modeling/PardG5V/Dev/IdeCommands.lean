import PardG5V.Dev.IdeRoute
import PardG5V.Dev.IdeStates

/-!
# Starting a command

A command that is written to an idle disk is started by the write if the disk is ready, or has an
interrupt pending that is not masked. It is lost if the interrupt has been masked in between, and
on a slave that was reset while it was selected.

Results: `ide_command_begins`, `ide_command_lost`.
-/

namespace PardG5V

open Prog IdeSide

/-! ## Pending interrupts -/

namespace Ctl

structure Telling (c : Ctl) : Prop where
  resting : c.Resting
  intr : c.Notifies → c.intr = true

end Ctl

/-- The same of a disk, whatever the bus master registers are. -/
def IdeDisk.Telling (d : IdeDisk) : Prop := (IdeSide.ctl ⟨d, fun _ => 0, fun _ => 0⟩).Telling

namespace IdeCommandsLemmas

variable {c c' : Ctl} {env : IdeEnv} {action : DevAction} {s : IdeSide}

def Silent (dev : DevState) : Prop :=
  (dev ≠ .Command_Execution ∧ dev ≠ .Prepare_Data_In ∧ dev ≠ .Prepare_Data_Out ∧
    dev ≠ .Prepare_Data_Dma) ∧
    dev ≠ .Device_Idle_SI ∧ dev ≠ .Data_Ready_INTRQ_In ∧ dev ≠ .Data_Ready_INTRQ_Out
deriving Decidable

theorem telling_silent (dev : DevState) (h : Silent dev) (hdev : c.dev = dev) : c.Telling := by
  subst hdev
  exact ⟨h.1, fun hold => absurd hold (not_notifies rfl h.2)⟩

theorem telling_disk : s.disk.Telling ↔ s.ctl.Telling :=
  ⟨fun h => ⟨h.resting, h.intr⟩, fun h => ⟨h.resting, h.intr⟩⟩

theorem telling_ready (told untold : DevState) (htold : Ctl.Resting { c with dev := told })
    (huntold : Silent untold) : (c.ready told untold).Telling := by
  unfold Ctl.ready
  split
  · exact telling_silent untold huntold rfl
  · exact ⟨htold, fun _ => rfl⟩

theorem telling_finish (c : Ctl) : c.finish.Telling :=
  telling_ready .Device_Idle_SI .Device_Idle_S ⟨nofun, nofun, nofun, nofun⟩ (by decide)

theorem telling_readyIn (c : Ctl) : c.readyIn.Telling :=
  telling_ready _ _ ⟨nofun, nofun, nofun, nofun⟩ (by decide)

theorem telling_readyOut (c : Ctl) : c.readyOut.Telling :=
  telling_ready _ _ ⟨nofun, nofun, nofun, nofun⟩ (by decide)

theorem telling_starts (h : c.Starts c') : c'.Telling := by
  cases h with
  | finished => exact telling_finish c
  | dataIn => exact telling_readyIn c
  | dataOut => exact telling_silent .Transfer_Data_Out (by decide) rfl
  | dma _ => exact telling_silent .Transfer_Data_Dma (by decide) rfl

theorem telling_reset (c : Ctl) (isSlave : Bool) : (c.reset isSlave).Telling := by
  cases isSlave with
  | false => exact telling_silent .Device_Idle_S (by decide) rfl
  | true => exact telling_silent .Device_Idle_NS (by decide) rfl

theorem telling_step (h : c.Telling) (hstep : CtlStep env action c c') : c'.Telling := by
  cases hstep with
  | ignored _ => exact h
  | srst _ => exact telling_reset c env.isSlave
  | deselect _ _ | deselectTold _ _ => exact telling_silent .Device_Idle_NS (by decide) rfl
  | select _ _ _ | cleared _ _ | lastIn _ => exact telling_silent .Device_Idle_S (by decide) rfl
  | started _ hstart | restarted _ _ hstart => exact telling_starts hstart
  | readIn _ => exact telling_silent .Transfer_Data_In (by decide) rfl
  | readOut _ => exact telling_silent .Transfer_Data_Out (by decide) rfl
  | blockIn _ => exact telling_readyIn c
  | blockOut _ => exact telling_readyOut c
  | lastOut _ => exact telling_finish c
  | abort _ => exact telling_silent .Device_Dma_Abort (by decide) rfl
  | done _ | aborted _ => exact telling_finish _

theorem telling_control (h : c.Telling) (isSlave : Bool) (byte : Byte) :
    (c.control isSlave byte).Telling := by
  unfold Ctl.control
  split
  · exact telling_silent .Device_Srst (by decide) rfl
  · split
    · have hreset := telling_reset c isSlave
      exact ⟨hreset.resting, hreset.intr⟩
    · exact ⟨h.resting, h.intr⟩

theorem closed_telling (env : IdeEnv) : Closed Never env GuestAction Ctl.Telling :=
  ⟨fun c _ => sound_never c, fun _ h => h.resting, fun _ _ _ _ h hstep => telling_step h hstep⟩

theorem telling_event {t : IdeSide} (hstep : EventStep env s t) (h : s.ctl.Telling) :
    t.ctl.Telling := by
  cases hstep with
  | waits _ hctl _ => exact hctl ▸ h
  | aborts _ hctl _ => exact telling_step h hctl
  | ends _ hctl _ =>
    have hidle : Ctl.Telling { s.ctl with dma := .Dma_Idle } := ⟨h.resting, h.intr⟩
    exact telling_step hidle hctl

/-- Whatever a disk is asked to do. -/
theorem telling_perform (h : s.ctl.Telling) (hfree : env.busy = false → s.disk.transfer = none)
    (call : DiskCall) : wp Never (perform env call) (fun _ t => t.ctl.Telling) s := by
  cases call with
  | readCommand offset size =>
    exact wp_discard.mpr (wp.mono (readCommand_keeps (closed_telling env) h offset size)
      fun _ _ ht => ht.1)
  | writeCommand offset data =>
    exact wp.mono (writeCommand_keeps (closed_telling env) h offset data) fun _ _ ht => ht.1
  | readControl offset size =>
    refine wp_discard.mpr (wp.mono (readControl_wp only_never offset size) fun _ t ht => ?_)
    exact ht ▸ h
  | writeControl offset data =>
    refine wp.mono (writeControl_makes only_never offset data) fun _ t ht => ?_
    rw [ht.1]
    exact telling_control h _ _
  | startDma table =>
    refine wp.mono (startDma_wp only_never table (.inr not_false)) fun _ t ht => ?_
    rw [ht.2.2.1]
    exact ⟨h.resting, h.intr⟩
  | abortDma =>
    exact wp.mono (abortDma_makes (.inr not_false) (sound_never _) h.resting) fun _ t ht =>
      telling_step h ht.1.2.2
  | event e =>
    have hgo : Runnable Never env s :=
      ⟨sound_never _, sound_never _, h.resting, hfree, fun _ => .inr not_false⟩
    refine wp_bind.mpr (wp_modifyDisk.mpr (wp.mono (process_step (hgo.of_same ?_ ?_) e) ?_))
    · rfl
    · rfl
    · exact fun _ t ht => telling_event ht h
  | serve i =>
    refine wp_modify.mpr ?_
    rw [(serve_ctl i s).1]
    exact h
  | ack =>
    refine wp.mono (ack_wp only_never) fun _ t ht => ?_
    rw [ht.1]
    exact h

end IdeCommandsLemmas

open IdeCommandsLemmas

/-! ## What is recorded -/

namespace IdeSide

structure SameRecord (s s' : IdeSide) : Prop where
  started : s'.disk.started = s.disk.started
  stores : s'.disk.stores = s.disk.stores

instance : IsPreorder IdeSide SameRecord where
  refl _ := ⟨rfl, rfl⟩
  trans _ _ _ h h' := ⟨h'.started.trans h.started, h'.stores.trans h.stores⟩

theorem getDisk_record : Follows SameRecord getDisk := .bind .get fun _ => .pure

theorem modifyDisk_record {f : IdeDisk → IdeDisk} (hstarted : ∀ d, (f d).started = d.started)
    (hstores : ∀ d, (f d).stores = d.stores) : Follows SameRecord (modifyDisk f) :=
  .modify fun s => ⟨hstarted s.disk, hstores s.disk⟩

theorem throw_record {α : Type} (e : IdePanic) : Follows SameRecord (throw e : IdeM α) := by
  intro s a s' h
  cases (show Except.error e = .ok (a, s') from h)

theorem panicIf_record (b : Bool) (e : IdePanic) : Follows SameRecord (panicIf b e) :=
  .when fun _ => throw_record e

theorem readDisk_record (sector : BitVec 32) (off : Nat) :
    Follows SameRecord (readDisk sector off) := by
  refine .bind getDisk_record fun d => .bind (panicIf_record _ _) fun _ => ?_
  cases d.image.table sector.toNat with
  | some bytes => exact modifyDisk_record (fun _ => rfl) fun _ => rfl
  | none =>
    exact .bind (panicIf_record _ _) fun _ => modifyDisk_record (fun _ => rfl) fun _ => rfl

theorem intrPost_record : Follows SameRecord intrPost :=
  .bind getDisk_record fun _ => .bind (panicIf_record _ _) fun _ => .modify fun _ => ⟨rfl, rfl⟩

theorem finishCommand_record : Follows SameRecord finishCommand := by
  refine .bind getDisk_record fun d => .ite (fun _ => ?_) fun _ => ?_
  · exact modifyDisk_record (fun _ => rfl) fun _ => rfl
  · exact .bind (modifyDisk_record (fun _ => rfl) fun _ => rfl) fun _ => intrPost_record

theorem complete_record : Follows SameRecord (do setComplete; finishCommand) :=
  .bind (modifyDisk_record (fun _ => rfl) fun _ => rfl) fun _ => finishCommand_record

theorem loadBlock_record (env : IdeEnv) : Follows SameRecord (loadBlock env) := by
  refine .bind getDisk_record fun d => .ite (fun _ => ?_) fun _ => ?_
  · exact modifyDisk_record (fun _ => rfl) fun _ => rfl
  · exact .bind (modifyDisk_record (fun _ => rfl) fun _ => rfl) fun _ => readDisk_record _ _

theorem dataInReady_record (env : IdeEnv) : Follows SameRecord (dataInReady env) := by
  refine .bind (modifyDisk_record (fun _ => rfl) fun _ => rfl) fun _ => .bind ?_ fun _ =>
    .bind getDisk_record fun d => .ite (fun _ => ?_) fun _ => ?_
  · exact .bind (modifyDisk_record (fun _ => rfl) fun _ => rfl) fun _ =>
      .bind (loadBlock_record env) fun _ => modifyDisk_record (fun _ => rfl) fun _ => rfl
  · exact modifyDisk_record (fun _ => rfl) fun _ => rfl
  · exact .bind (modifyDisk_record (fun _ => rfl) fun _ => rfl) fun _ => intrPost_record

theorem dataOutReady_record : Follows SameRecord dataOutReady := by
  refine .bind (modifyDisk_record (fun _ => rfl) fun _ => rfl) fun _ =>
    .bind getDisk_record fun d => .ite (fun _ => ?_) fun _ => ?_
  · exact modifyDisk_record (fun _ => rfl) fun _ => rfl
  · exact .bind (modifyDisk_record (fun _ => rfl) fun _ => rfl) fun _ => intrPost_record

theorem dmaReady_record : Follows SameRecord dmaReady :=
  .bind (modifyDisk_record (fun _ => rfl) fun _ => rfl) fun _ => .bind getDisk_record fun _ =>
    .bind (panicIf_record _ _) fun _ => modifyDisk_record (fun _ => rfl) fun _ => rfl

theorem updatePreparing_record (env : IdeEnv) (action : DevAction) :
    Follows SameRecord (updatePreparing env action) := by
  refine .bind getDisk_record fun d => ?_
  cases d.devState with
  | Command_Execution => exact .when fun _ => complete_record
  | Prepare_Data_In =>
    exact .ite (fun _ => complete_record) fun _ => .when fun _ => dataInReady_record env
  | Prepare_Data_Out =>
    exact .ite (fun _ => complete_record) fun _ => .when fun _ => dataOutReady_record
  | Prepare_Data_Dma =>
    exact .ite (fun _ => complete_record) fun _ => .when fun _ => dmaReady_record
  | _ => exact .pure

theorem beginCommand_record (env : IdeEnv) (dev : DevState) (action : DevAction) :
    Follows SameRecord (beginCommand env dev action) :=
  .bind (modifyDisk_record (fun _ => rfl) fun _ => rfl) fun _ => updatePreparing_record env action

theorem setTransfer_record : Follows SameRecord setTransfer :=
  .bind getDisk_record fun _ => .bind (panicIf_record _ _) fun _ =>
    modifyDisk_record (fun _ => rfl) fun _ => rfl

theorem startCommand_started (env : IdeEnv) (s : IdeSide) : wp Never (startCommand env)
      (fun _ s' => s'.disk.started = s.disk.started ++ [s.disk.cmdReg]) s := by
  have hrecord {m : IdeM Unit} (h : Follows SameRecord m) (t : IdeSide)
      (ht : t.disk.started = s.disk.started ++ [s.disk.cmdReg]) :
      wp Never m (fun _ s' => s'.disk.started = s.disk.started ++ [s.disk.cmdReg]) t :=
    wp.mono (wp_of_follows h) fun _ u hu => hu.started.trans ht
  refine wp_bind.mpr (wp_modifyDisk.mpr (wp_bind.mpr (wp_getDisk.mpr ?_)))
  cases decode s.disk.cmdReg.command with
  | none => exact not_false
  | some kind =>
    refine hrecord ?_ _ rfl
    cases kind with
    | readNativeMax | identify =>
      exact .bind (modifyDisk_record (fun _ => rfl) fun _ => rfl) fun _ =>
        beginCommand_record env _ _
    | nonData => exact beginCommand_record env _ _
    | pioIn | pioOut | readDma =>
      exact .bind setTransfer_record fun _ => beginCommand_record env _ _
    | writeDma =>
      exact .bind (modifyDisk_record (fun _ => rfl) fun _ => rfl) fun _ =>
        .bind setTransfer_record fun _ => beginCommand_record env _ _

end IdeSide

namespace IdeChannel

theorem telling_of_reachable {cfg : IdeConfig} {c : IdeChannel} (h : (machine cfg).Reachable c)
    (isSlave : Bool) : (c.disks isSlave).Telling := by
  suffices hinv : ∀ k, (c.disks k).Telling from hinv isSlave
  refine h.invariant (I := fun c => ∀ k, (c.disks k).Telling) (fun c hstart => ?_)
    fun c input c' hinv _ _ hcall => ?_
  · obtain ⟨nIENBit, image, mem, mode, rfl⟩ := hstart
    intro k
    cases k with
    | false => exact telling_silent .Device_Idle_S (by decide) rfl
    | true => exact telling_silent .Device_Idle_NS (by decide) rfl
  · refine wp_ok (call_disks only_never hinv ?_) hcall
    intro k call env s _ hsees hdisk _
    have hs : s.disk.Telling := hdisk ▸ hinv k
    refine wp.mono (telling_perform (telling_disk.mp hs) (fun hidle => ?_) call) fun _ t ht =>
      telling_disk.mpr ht
    rw [hdisk]
    exact transfer_none (hsees.busy hidle)

def commandWrite (byte : Byte) : IdeInput := .access .command false 7 [byte]

/-- The write starts the command: it returns with the command recorded, or stops where starting
the command stops. -/
def Begins (cfg : IdeConfig) (c : IdeChannel) (byte : Byte) : Prop :=
  let reg := { c.selected.cmdReg with command := byte }
  match call cfg (commandWrite byte) c with
  | .ok (_, c') => (c'.disks c.selectBit).started = c.selected.started ++ [reg]
  | .error e => ∃ s : IdeSide, s.disk.cmdReg = reg ∧
      startCommand (c.env cfg c.selectBit false) s = .error e

end IdeChannel

namespace IdeCommandsLemmas

open IdeChannel

variable {env : IdeEnv} {s : IdeSide}

theorem getDisk_bind {k : IdeDisk → IdeM Unit} : (getDisk >>= k) s = k s.disk s := rfl

theorem write_ready (h : s.disk.devState = .Device_Idle_S) :
    updateState env .ACT_CMD_WRITE s = startCommand env s := by
  unfold updateState
  rw [getDisk_bind, h]
  rfl

theorem intrClear_returns (h : s.disk.intrPending = true) :
    intrClear s = .ok ((), { s with disk := { s.disk with intrPending := false } }) := by
  have hclear : wp (fun _ => True) intrClear
      (fun _ t => t = { s with disk := { s.disk with intrPending := false } }) s := by
    unfold intrClear
    simp only [wp_bind, wp_getDisk, wp_panicIf, wp_modifyDisk]
    refine ⟨fun hnot => ?_, fun _ => trivial⟩
    rw [h] at hnot
    cases hnot
  obtain ⟨u, t, hrun, rfl⟩ := hclear.returns
  exact hrun

theorem write_told (h : s.disk.devState = .Device_Idle_SI) (hmask : s.disk.nIENBit = false)
    (hintr : s.disk.intrPending = true) :
    updateState env .ACT_CMD_WRITE s =
      startCommand env { s with disk := { s.disk with intrPending := false } } := by
  unfold updateState
  rw [getDisk_bind, h, hmask]
  exact bind_run (intrClear_returns hintr)

theorem write_masked (h : s.disk.devState = .Device_Idle_SI) (hmask : s.disk.nIENBit = true)
    (hintr : s.disk.intrPending = true) :
    updateState env .ACT_CMD_WRITE s = .ok ((), { s with disk := { s.disk with
      devState := .Device_Idle_S, intrPending := false } }) := by
  unfold updateState
  rw [getDisk_bind, h, hmask]
  exact intrClear_returns hintr

theorem write_deselected (h : s.disk.devState = .Device_Idle_NS) :
    updateState env .ACT_CMD_WRITE s = .ok ((), s) := by
  unfold updateState
  rw [getDisk_bind, h]
  rfl

def given (c : IdeChannel) (byte : Byte) : IdeSide :=
  { c.side c.selectBit with disk := { c.selected with
    cmdReg := { c.selected.cmdReg with command := byte } } }

theorem call_commandWrite (cfg : IdeConfig) (c : IdeChannel) (byte : Byte) :
    call cfg (commandWrite byte) c =
      match updateState (c.env cfg c.selectBit false) .ACT_CMD_WRITE (given c byte) with
      | .ok (u, t) => .ok (u, setSide c.selectBit t c)
      | .error e => .error e := by
  show zoom (side c.selectBit) (setSide c.selectBit) (IdeSide.writeCommand _ 7 [byte]) c = _
  show (do
    let r ← updateState (c.env cfg c.selectBit false) .ACT_CMD_WRITE (given c byte)
    pure (r.1, setSide c.selectBit r.2 c)) = _
  cases updateState (c.env cfg c.selectBit false) .ACT_CMD_WRITE (given c byte) with
  | ok r | error e => rfl

variable {cfg : IdeConfig} {c : IdeChannel} {byte : Byte}

/-- The disk does what it does to start a command. -/
theorem begins_of_start {t : IdeSide} (hreg : t.disk.cmdReg = (given c byte).disk.cmdReg)
    (hlog : t.disk.started = c.selected.started)
    (h : updateState (c.env cfg c.selectBit false) .ACT_CMD_WRITE (given c byte) =
      startCommand (c.env cfg c.selectBit false) t) : c.Begins cfg byte := by
  unfold Begins
  rw [call_commandWrite, h]
  cases hrun : startCommand (c.env cfg c.selectBit false) t with
  | error e => exact ⟨t, hreg, hrun⟩
  | ok r =>
    have hstarted := wp_ok (startCommand_started _ t) hrun
    show ((setSide c.selectBit r.2 c).side c.selectBit).disk.started = _
    rw [side_setSide_same, hstarted, hreg, hlog]
    rfl

theorem lost_of_returns {t : IdeSide} (hlog : t.disk.started = c.selected.started)
    (h : updateState (c.env cfg c.selectBit false) .ACT_CMD_WRITE (given c byte) = .ok ((), t)) :
    ¬ c.Begins cfg byte := by
  unfold Begins
  rw [call_commandWrite, h]
  intro hstarted
  have hdisk : ((setSide c.selectBit t c).side c.selectBit).disk.started = t.disk.started := by
    rw [side_setSide_same]
  have hsame := (hlog.symm.trans hdisk.symm).trans hstarted
  exact List.cons_ne_nil _ _ (List.self_eq_append_right.mp hsame)

end IdeCommandsLemmas

open IdeChannel

/-- In every reachable state, a command written to the selected idle disk is started exactly if the
disk is ready, or has an unmasked interrupt pending. -/
theorem ide_command_begins (cfg : IdeConfig) {c : IdeChannel} (h : (machine cfg).Reachable c)
    (hidle : c.selected.devState.Idle) (byte : Byte) :
    c.Begins cfg byte ↔ c.selected.devState = .Device_Idle_S ∨
      c.selected.devState = .Device_Idle_SI ∧ c.selected.nIENBit = false := by
  rcases hidle with hs | hsi | hns
  · have hbegins : c.Begins cfg byte := begins_of_start rfl rfl (write_ready hs)
    exact ⟨fun _ => .inl hs, fun _ => hbegins⟩
  · have hintr : c.selected.intrPending = true :=
      (telling_of_reachable h c.selectBit).intr (.inl hsi)
    cases hmask : c.selected.nIENBit with
    | false =>
      have hbegins : c.Begins cfg byte :=
        begins_of_start (t := { given c byte with disk := { (given c byte).disk with
          intrPending := false } }) rfl rfl (write_told hsi hmask hintr)
      exact ⟨fun _ => .inr ⟨hsi, rfl⟩, fun _ => hbegins⟩
    | true =>
      have hlost : ¬ c.Begins cfg byte :=
        lost_of_returns (t := { given c byte with disk := { (given c byte).disk with
          devState := .Device_Idle_S, intrPending := false } }) rfl (write_masked hsi hmask hintr)
      refine ⟨fun hbegins => absurd hbegins hlost, ?_⟩
      rintro (hs | ⟨-, hmask⟩)
      · cases hsi.symm.trans hs
      · cases hmask
  · have hlost : ¬ c.Begins cfg byte := lost_of_returns rfl (write_deselected hns)
    refine ⟨fun hbegins => absurd hbegins hlost, ?_⟩
    rintro (hs | ⟨hsi, -⟩)
    · cases hns.symm.trans hs
    · cases hns.symm.trans hsi

/-- A second flush, while the interrupt of the first is pending. -/
theorem ide_command_begins_flush : ∃ c : IdeChannel, (machine oneSectorConfig).Reachable c ∧
    c.selected.devState = .Device_Idle_SI ∧ c.Begins oneSectorConfig 0xe7 := by
  have hrun : ∃ c : IdeChannel, (machine oneSectorConfig).Reachable c ∧
      c.selected.devState = .Device_Idle_SI ∧ c.selected.nIENBit = false := by
    refine (init_reachable _ _ _ _ _ _).exists_of_replay (s := oneSectorChannel)
      [commandWrite 0xe7] ?_
    decide +kernel
  obtain ⟨c, hreach, hdev, hmask⟩ := hrun
  have hbegins := ide_command_begins oneSectorConfig hreach (.inr (.inl hdev)) 0xe7
  exact ⟨c, hreach, hdev, hbegins.mpr (.inr ⟨hdev, hmask⟩)⟩

def loses (cfg : IdeConfig) (c : IdeChannel) (byte : Byte) : Bool :=
  match call cfg (commandWrite byte) c with
  | .ok (_, c') => (c'.disks c.selectBit).started == c.selected.started
  | .error _ => false

theorem not_begins_of_loses {cfg : IdeConfig} {c : IdeChannel} {byte : Byte}
    (h : loses cfg c byte = true) : ¬ c.Begins cfg byte := by
  unfold loses at h
  unfold Begins
  cases hcall : call cfg (commandWrite byte) c with
  | error e =>
    rw [hcall] at h
    cases h
  | ok r =>
    rw [hcall] at h
    intro hstarted
    have hsame := (beq_iff_eq.mp h).symm.trans hstarted
    exact List.cons_ne_nil _ _ (List.self_eq_append_right.mp hsame)

/-- With interrupts masked while one is pending, the next command only clears it. A slave that is
reset while it is selected takes no command. -/
theorem ide_command_lost : (∃ c : IdeChannel, (machine oneSectorConfig).Reachable c ∧
      c.selected.devState = .Device_Idle_SI ∧ c.selected.status.getLsbD 7 = false ∧
      ¬ c.Begins oneSectorConfig 0xe7) ∧
    ∃ c : IdeChannel, (machine oneSectorConfig).Reachable c ∧
      c.selected.devState = .Device_Idle_NS ∧ c.selected.status.getLsbD 7 = false ∧
      ¬ c.Begins oneSectorConfig 0xe7 := by
  constructor
  · have hrun : ∃ c : IdeChannel, (machine oneSectorConfig).Reachable c ∧
        c.selected.devState = .Device_Idle_SI ∧ c.selected.status.getLsbD 7 = false ∧
        loses oneSectorConfig c 0xe7 = true := by
      refine (init_reachable _ _ _ _ _ _).exists_of_replay (s := oneSectorChannel)
        [commandWrite 0xe7, .access .control false 2 [2]] ?_
      decide +kernel
    obtain ⟨c, hreach, hdev, hready, hlost⟩ := hrun
    exact ⟨c, hreach, hdev, hready, not_begins_of_loses hlost⟩
  · have hrun : ∃ c : IdeChannel, (machine oneSectorConfig).Reachable c ∧
        c.selected.devState = .Device_Idle_NS ∧ c.selected.status.getLsbD 7 = false ∧
        loses oneSectorConfig c 0xe7 = true := by
      refine (init_reachable _ _ _ _ _ _).exists_of_replay (s := oneSectorChannel)
        [.access .command false 6 [0x50], .access .control false 2 [4],
          .access .control false 2 [0]] ?_
      decide +kernel
    obtain ⟨c, hreach, hdev, hready, hlost⟩ := hrun
    exact ⟨c, hreach, hdev, hready, not_begins_of_loses hlost⟩

end PardG5V
