import PardG5V.Dev.IdeControl

/-!
# Safety of the state machine

The invariant relates the device state, the DMA state and what is scheduled: a transfer that runs
has one event or DMA action to wait for, and nothing else has any. It is kept by a guest that
resets the disk only while no transfer runs and no interrupt is pending, and that selects the
other disk only while the start bit is clear.

Results: `ide_states_safe`, `ide_reset_inconsistent`.
-/

namespace PardG5V

open Prog IdeSide

/-! ## The invariant of a disk -/

def StatePanic (e : IdePanic) : Prop :=
  e = .inconsistent ∨ e = .postPending ∨ e = .clearNotPending

namespace Ctl

/-- The device state, the DMA state and the flags fit together. -/
structure Safe (c : Ctl) : Prop where
  resting : c.Resting
  intr : c.intr = true ↔ c.Notifies
  aborted : c.aborted = true ↔ c.dev = .Device_Dma_Abort
  idle : c.dma = .Dma_Idle → c.dev ≠ .Transfer_Data_Dma ∧ c.dev ≠ .Device_Dma_Abort
  start : c.dma = .Dma_Start → c.dev = .Transfer_Data_Dma ∨ c.dev = .Device_Srst
  transfer : c.dma = .Dma_Transfer → c.dev = .Transfer_Data_Dma ∨ c.dev = .Device_Dma_Abort

/-- The start bit is set only while the transfer runs. -/
def Started (c : Ctl) : Prop :=
  c.start = true → c.dma = .Dma_Transfer ∧ c.dev = .Transfer_Data_Dma

end Ctl

variable {dev : DevState}

namespace IdeStatesLemmas

variable {c c' : Ctl} {env : IdeEnv} {action : DevAction}

theorem only_statePanic : Only StatePanic := by
  refine ⟨?_, ?_, ?_⟩ <;> rintro (h | h | h) <;> cases h

theorem safe_sound (h : c.Safe) : Sound StatePanic c := by
  refine ⟨only_statePanic, fun hintr hnot => absurd (h.intr.mp hintr) hnot, fun hnone hold => ?_,
    fun hdma hidle => ?_⟩
  · rw [h.intr.mpr hold] at hnone
    cases hnone
  · exfalso
    cases hcase : c.dma with
    | Dma_Idle => exact hdma hcase
    | Dma_Start =>
      rcases h.start hcase with hdev | hdev <;> rcases hidle with hidle | hidle <;>
        cases hdev.symm.trans hidle
    | Dma_Transfer =>
      rcases h.transfer hcase with hdev | hdev <;> rcases hidle with hidle | hidle <;>
        cases hdev.symm.trans hidle

/-- In a state outside the DMA protocol the engine is idle. -/
theorem dma_idle (h : c.Safe) (hdev : c.dev ≠ .Transfer_Data_Dma)
    (habort : c.dev ≠ .Device_Dma_Abort)
    (hsrst : c.dev ≠ .Device_Srst) : c.dma = .Dma_Idle := by
  cases hcase : c.dma with
  | Dma_Idle => rfl
  | Dma_Start => exact absurd (h.start hcase) (not_or.mpr ⟨hdev, hsrst⟩)
  | Dma_Transfer => exact absurd (h.transfer hcase) (not_or.mpr ⟨hdev, habort⟩)

/-- The states outside the DMA protocol and outside a reset in which a disk can rest. -/
def Plain (dev : DevState) : Prop :=
  dev ≠ .Transfer_Data_Dma ∧ dev ≠ .Device_Dma_Abort ∧ dev ≠ .Command_Execution ∧
    dev ≠ .Prepare_Data_In ∧ dev ≠ .Prepare_Data_Out ∧ dev ≠ .Prepare_Data_Dma
deriving Decidable

/-- A state outside the DMA protocol, with an interrupt exactly if it stands for one. -/
theorem safe_plain (hdma : c.dma = .Dma_Idle) (haborted : c.aborted = false) (hplain : Plain c.dev)
    (hintr : c.intr = true ↔ c.Notifies) : c.Safe := by
  obtain ⟨hdev, habort, hexec, hin, hout, hprep⟩ := hplain
  refine ⟨⟨hexec, hin, hout, hprep⟩, hintr, ?_, fun _ => ⟨hdev, habort⟩, ?_, ?_⟩
  · rw [haborted]
    exact ⟨nofun, fun h => absurd h habort⟩
  · rw [hdma]
    nofun
  · rw [hdma]
    nofun

structure Calm (c : Ctl) : Prop where
  dma : c.dma = .Dma_Idle
  aborted : c.aborted = false
  intr : c.intr = false

theorem aborted_false (h : c.Safe) (hdev : c.dev ≠ .Device_Dma_Abort) : c.aborted = false := by
  cases haborted : c.aborted with
  | false => rfl
  | true => exact absurd (h.aborted.mp haborted) hdev

theorem intr_false (h : c.Safe) (hdev : c.dev = dev)
    (hne : dev ≠ .Device_Idle_SI ∧ dev ≠ .Data_Ready_INTRQ_In ∧ dev ≠ .Data_Ready_INTRQ_Out) :
    c.intr = false := by
  cases hintr : c.intr with
  | false => rfl
  | true => exact absurd (h.intr.mp hintr) (not_notifies hdev hne)

theorem calm_cleared (h : c.Safe) (hdev : c.dev = dev)
    (hne : Plain dev ∧ dev ≠ .Device_Srst) : Calm { c with intr := false } := by
  subst hdev
  obtain ⟨⟨hdev, habort, -⟩, hsrst⟩ := hne
  have hdma := dma_idle h hdev habort hsrst
  have haborted := aborted_false h habort
  exact ⟨hdma, haborted, rfl⟩

theorem calm_of (h : c.Safe) (hdev : c.dev = dev) (hne : Plain dev ∧ dev ≠ .Device_Srst)
    (hsilent : dev ≠ .Device_Idle_SI ∧ dev ≠ .Data_Ready_INTRQ_In ∧ dev ≠ .Data_Ready_INTRQ_Out) :
    Calm c :=
  have hcalm := calm_cleared h hdev hne
  ⟨hcalm.dma, hcalm.aborted, intr_false h hdev hsilent⟩

namespace Calm

theorem silent (h : Calm c) (hplain : Plain dev)
    (hne : dev ≠ .Device_Idle_SI ∧ dev ≠ .Data_Ready_INTRQ_In ∧ dev ≠ .Data_Ready_INTRQ_Out) :
    { c with dev }.Safe := by
  refine safe_plain h.dma h.aborted hplain ?_
  rw [h.intr]
  exact ⟨nofun, fun hold => absurd hold (not_notifies rfl hne)⟩

theorem told (h : Calm c) (hplain : Plain dev)
    (hold : dev = .Device_Idle_SI ∨ dev = .Data_Ready_INTRQ_In ∨ dev = .Data_Ready_INTRQ_Out) :
    { c with dev, intr := true }.Safe :=
  safe_plain h.dma h.aborted hplain ⟨fun _ => hold, fun _ => rfl⟩

theorem finish (h : Calm c) : c.finish.Safe := by
  unfold Ctl.finish
  split
  · exact h.silent (by decide) (by decide)
  · exact h.told (by decide) (by decide)

theorem readyIn (h : Calm c) : c.readyIn.Safe := by
  unfold Ctl.readyIn Ctl.ready
  split
  · exact h.silent (by decide) (by decide)
  · exact h.told (by decide) (by decide)

theorem readyOut (h : Calm c) : c.readyOut.Safe := by
  unfold Ctl.readyOut Ctl.ready
  split
  · exact h.silent (by decide) (by decide)
  · exact h.told (by decide) (by decide)

theorem starts (h : Calm c) (hstart : c.Starts c') : c'.Safe := by
  cases hstart with
  | finished => exact h.finish
  | dataIn => exact h.readyIn
  | dataOut => exact h.silent (by decide) (by decide)
  | dma _ =>
    refine ⟨⟨nofun, nofun, nofun, nofun⟩, ?_, ?_, nofun, fun _ => .inl rfl, nofun⟩
    · rw [h.intr]
      refine ⟨nofun, ?_⟩
      rintro (hdev | hdev | hdev) <;> cases hdev
    · rw [h.aborted]
      exact ⟨nofun, nofun⟩

end Calm

theorem safe_reset (c : Ctl) (isSlave : Bool) : (c.reset isSlave).Safe := by
  have hcalm : Calm { c with dma := .Dma_Idle, intr := false, aborted := false } := ⟨rfl, rfl, rfl⟩
  unfold Ctl.reset
  split
  · exact hcalm.silent (by decide) (by decide)
  · exact hcalm.silent (by decide) (by decide)

theorem safe_nIEN (h : c.Safe) (nIEN : Bool) : { c with nIEN }.Safe :=
  { h with }

/-- Every transition keeps a disk safe, except that of the DMA engine. -/
theorem safe_step (h : c.Safe) (hstep : CtlStep env action c c')
    (hdma : action ≠ .ACT_DMA_DONE ∧ action ≠ .ACT_CMD_ERROR) : c'.Safe := by
  cases hstep with
  | ignored _ => exact h
  | srst hdev => exact safe_reset c env.isSlave
  | deselect hdev _ | select hdev _ _ | lastIn hdev =>
    exact (calm_of h hdev (by decide) (by decide)).silent (by decide) (by decide)
  | deselectTold hdev _ | cleared hdev _ | readIn hdev | readOut hdev =>
    exact (calm_cleared h hdev (by decide)).silent (by decide) (by decide)
  | started hdev hstart =>
    exact (calm_of h hdev (by decide) (by decide)).starts hstart
  | restarted hdev _ hstart => exact (calm_cleared h hdev (by decide)).starts hstart
  | blockIn hdev => exact (calm_of h hdev (by decide) (by decide)).readyIn
  | blockOut hdev => exact (calm_of h hdev (by decide) (by decide)).readyOut
  | lastOut hdev => exact (calm_of h hdev (by decide) (by decide)).finish
  | abort _ | aborted _ => exact absurd rfl hdma.2
  | done _ => exact absurd rfl hdma.1

theorem starts_start (hstart : c.Starts c') : c'.start = c.start := by
  cases hstart with
  | finished => unfold Ctl.finish; split <;> rfl
  | dataIn => unfold Ctl.readyIn Ctl.ready; split <;> rfl
  | dataOut | dma _ => rfl

/-- No transition sets the start bit, and those outside the DMA protocol leave it alone. -/
theorem start_step (hstep : CtlStep env action c c') (hset : c'.start = true) :
    c.start = true ∧ (c.dev = .Transfer_Data_Dma → action ≠ .ACT_CMD_ERROR → c' = c) := by
  cases hstep with
  | ignored _ => exact ⟨hset, fun _ _ => rfl⟩
  | srst hdev | deselect hdev _ | deselectTold hdev _ | select hdev _ _ | cleared hdev _
  | readIn hdev | readOut hdev | lastIn hdev => exact ⟨hset, fun h => by cases hdev.symm.trans h⟩
  | started hdev hstart =>
    exact ⟨starts_start hstart ▸ hset, fun h => by cases hdev.symm.trans h⟩
  | restarted hdev _ hstart =>
    exact ⟨(starts_start hstart).symm.trans hset, fun h => by cases hdev.symm.trans h⟩
  | blockIn hdev =>
    refine ⟨?_, fun h => by cases hdev.symm.trans h⟩
    unfold Ctl.readyIn Ctl.ready at hset
    split at hset <;> exact hset
  | blockOut hdev =>
    refine ⟨?_, fun h => by cases hdev.symm.trans h⟩
    unfold Ctl.readyOut Ctl.ready at hset
    split at hset <;> exact hset
  | lastOut hdev =>
    refine ⟨?_, fun h => by cases hdev.symm.trans h⟩
    unfold Ctl.finish at hset
    split at hset <;> exact hset
  | abort hdev => exact ⟨hset, fun _ hne => absurd rfl hne⟩
  | done hdev | aborted hdev =>
    unfold Ctl.finish at hset
    split at hset <;> cases hset

theorem starts_running (hstart : c.Starts c') : c'.dma = .Dma_Transfer ↔ c.dma = .Dma_Transfer := by
  cases hstart with
  | finished => unfold Ctl.finish; split <;> rfl
  | dataIn => unfold Ctl.readyIn Ctl.ready; split <;> rfl
  | dataOut => rfl
  | dma hidle =>
    rw [hidle]
    exact ⟨nofun, nofun⟩

/-- The engine is set to work by the start bit only. -/
theorem running_step (hstep : CtlStep env action c c') (hA : GuestAction action) :
    c'.dma = .Dma_Transfer ↔ c.dma = .Dma_Transfer := by
  cases hstep with
  | ignored _ | deselect _ _ | deselectTold _ _ | select _ _ _ | cleared _ _ | readIn _
  | readOut _ | lastIn _ => rfl
  | srst _ | abort _ | done _ | aborted _ => rcases hA with h | h | h | h | h <;> cases h
  | started _ hstart => exact starts_running hstart
  | restarted _ _ hstart =>
    have hrunning := starts_running hstart
    exact hrunning
  | blockIn _ => unfold Ctl.readyIn Ctl.ready; split <;> rfl
  | blockOut _ => unfold Ctl.readyOut Ctl.ready; split <;> rfl
  | lastOut _ => unfold Ctl.finish; split <;> rfl

/-- What a guest keeps that accesses the command registers of the selected disk. `running` is
whether the engine runs. -/
structure Kept (running : Prop) (c : Ctl) : Prop where
  safe : c.Safe
  started : c.Started
  running : c.dma = .Dma_Transfer ↔ running

theorem closed_guest (env : IdeEnv) (running : Prop) :
    Closed StatePanic env GuestAction (Kept running) := by
  refine ⟨fun c h => safe_sound h.safe, fun c h => h.safe.resting, fun c c' action hA h hstep => ?_⟩
  have hne : action ≠ .ACT_DMA_DONE ∧ action ≠ .ACT_CMD_ERROR := by
    rcases hA with rfl | rfl | rfl | rfl | rfl <;> exact ⟨nofun, nofun⟩
  refine ⟨safe_step h.safe hstep hne, fun hset => ?_, (running_step hstep hA).trans h.running⟩
  obtain ⟨hold, hsame⟩ := start_step hstep hset
  obtain ⟨hdma, hdev⟩ := h.started hold
  rw [hsame hdev hne.2]
  exact ⟨hdma, hdev⟩

theorem safe_srst (hintr : c.intr = false) (haborted : c.aborted = false)
    (hdma : c.dma ≠ .Dma_Transfer) : { c with dev := .Device_Srst }.Safe := by
  refine ⟨⟨nofun, nofun, nofun, nofun⟩, ?_, ?_, fun _ => ⟨nofun, nofun⟩, fun _ => .inr rfl,
    fun hrun => absurd hrun hdma⟩
  · rw [hintr]
    refine ⟨nofun, ?_⟩
    rintro (hdev | hdev | hdev) <;> cases hdev
  · rw [haborted]
    exact ⟨nofun, nofun⟩

/-- A write of the control register by a guest that does not reset the disk during a transfer or
while an interrupt is pending. -/
theorem kept_control {running : Prop} (h : Kept running c) (isSlave : Bool) {byte : Byte}
    (hcalm : byte.getLsbD 2 = true → c.intr = false ∧ c.dma ≠ .Dma_Transfer) :
    Kept running (c.control isSlave byte) := by
  unfold Ctl.control
  cases hrst : byte.getLsbD 2 with
  | true =>
    obtain ⟨hintr, hdma⟩ := hcalm hrst
    have habort : c.dev ≠ .Device_Dma_Abort := by
      intro hdev
      cases hcase : c.dma with
      | Dma_Idle => exact (h.safe.idle hcase).2 hdev
      | Dma_Start => rcases h.safe.start hcase with hdev' | hdev' <;> cases hdev.symm.trans hdev'
      | Dma_Transfer => exact hdma hcase
    have hsrst := safe_srst hintr (aborted_false h.safe habort) hdma
    exact ⟨safe_nIEN hsrst _, fun hset => absurd (h.started hset).1 hdma, h.running⟩
  | false =>
    by_cases hdev : c.dev = .Device_Srst
    · -- a disk in reset is not in the middle of a transfer
      have hdma : c.dma ≠ .Dma_Transfer := fun hrun => by
        rcases h.safe.transfer hrun with hdev' | hdev' <;> cases hdev.symm.trans hdev'
      rw [if_pos hdev]
      refine ⟨safe_nIEN (safe_reset c isSlave) _, fun hset => ?_, ?_⟩
      · cases hdev.symm.trans (h.started hset).2
      · rw [← h.running]
        exact ⟨nofun, fun hrun => absurd hrun hdma⟩
    · rw [if_neg hdev]
      exact ⟨safe_nIEN h.safe _, h.started, h.running⟩

theorem error_step (hstep : CtlStep env .ACT_CMD_ERROR c c') (hdev : c.dev = .Transfer_Data_Dma) :
    c' = { c with dev := .Device_Dma_Abort, aborted := true } := by
  cases hstep with
  | ignored h => exact absurd (.inl ⟨hdev, .inl rfl⟩) h
  | cleared hdev' _ | aborted hdev' => cases hdev.symm.trans hdev'
  | abort _ => rfl

theorem aborted_step (hstep : CtlStep env .ACT_CMD_ERROR c c') (hdev : c.dev = .Device_Dma_Abort) :
    c' = { c with start := false, dma := .Dma_Idle, aborted := false }.finish := by
  cases hstep with
  | ignored h => exact absurd (.inr ⟨hdev, rfl⟩) h
  | cleared hdev' _ | abort hdev' => cases hdev.symm.trans hdev'
  | aborted _ => rfl

theorem done_step (hstep : CtlStep env .ACT_DMA_DONE c c') (hdev : c.dev = .Transfer_Data_Dma) :
    c' = { c with start := false }.finish := by
  cases hstep with
  | ignored h => exact absurd (.inl ⟨hdev, .inr rfl⟩) h
  | cleared hdev' _ => cases hdev.symm.trans hdev'
  | done _ => rfl

theorem finish_dma (c : Ctl) : c.finish.dma = c.dma ∧ c.finish.start = c.start := by
  unfold Ctl.finish
  split <;> exact ⟨rfl, rfl⟩

theorem safe_abort (h : c.Safe) (hdma : c.dma = .Dma_Transfer) (hdev : c.dev = .Transfer_Data_Dma) :
    { c with dev := .Device_Dma_Abort, aborted := true }.Safe := by
  have hintr := intr_false h hdev (by decide)
  refine ⟨⟨nofun, nofun, nofun, nofun⟩, ?_, ⟨fun _ => rfl, fun _ => rfl⟩, ?_, ?_, fun _ => .inr rfl⟩
  · rw [hintr]
    refine ⟨nofun, ?_⟩
    rintro (hdev | hdev | hdev) <;> cases hdev
  · rw [hdma]
    nofun
  · rw [hdma]
    nofun

theorem safe_run (h : c.Safe) (hdev : c.dev = .Transfer_Data_Dma) :
    { c with dma := .Dma_Transfer }.Safe := by
  have haborted := aborted_false h (fun hdev' => by cases hdev.symm.trans hdev')
  refine ⟨h.resting, h.intr, ?_, nofun, nofun, fun _ => .inl hdev⟩
  rw [haborted]
  exact ⟨nofun, fun hdev' => by cases hdev.symm.trans hdev'⟩

end IdeStatesLemmas

open IdeStatesLemmas

/-! ## The invariant of a channel -/

namespace IdeSide

/-- A disk that is safe waits for one event or transfer while its engine runs, and for none
otherwise. -/
structure Steady (s : IdeSide) : Prop where
  safe : s.ctl.Safe
  acts : s.acts = if s.ctl.dma = .Dma_Transfer then 1 else 0

theorem Steady.of_same {s : IdeSide} (h : s.Steady) (bmi mem : Nat → Byte) :
    Steady { s with bmi, mem } :=
  ⟨{ h.safe with }, h.acts⟩

end IdeSide

variable {data : List Byte} {read : Bool} {offset : Nat}

namespace IdeChannel

structure Inv (c : IdeChannel) : Prop where
  steady : ∀ isSlave, (c.side isSlave).Steady
  started : (c.ctl c.selectBit).Started

variable {bad : IdePanic → Prop} {c : IdeChannel} {isSlave : Bool} {s : IdeSide} {byte : Byte}
  {e : DiskEvent} {env : IdeEnv}

theorem Inv.setSide (h : c.Inv) (hsteady : s.Steady) (hsel : isSlave = c.selectBit → s.ctl.Started)
    (hstart : isSlave ≠ c.selectBit → s.ctl.start = true → (c.ctl isSlave).start = true) :
    (setSide isSlave s c).Inv := by
  refine ⟨fun other => ?_, ?_⟩
  · by_cases hother : other = isSlave
    · subst hother
      rw [side_setSide_same]
      exact hsteady
    · rw [side_setSide_other hother]
      exact (h.steady other).of_same _ _
  · show ((IdeChannel.setSide isSlave s c).side c.selectBit).ctl.Started
    by_cases hother : c.selectBit = isSlave
    · rw [hother, side_setSide_same]
      exact hsel hother.symm
    · rw [side_setSide_other hother]
      exact fun hset => h.started (hstart (Ne.symm hother) hset)

theorem Inv.kept (h : c.Inv) : Kept ((c.ctl c.selectBit).dma = .Dma_Transfer) (c.ctl c.selectBit) :=
  ⟨(h.steady _).safe, h.started, Iff.rfl⟩

theorem Inv.onSelected (h : c.Inv) (hkept : Kept ((c.ctl c.selectBit).dma = .Dma_Transfer) s.ctl)
    (hframe : Frame (c.side c.selectBit) s) : (IdeChannel.setSide c.selectBit s c).Inv := by
  refine h.setSide ⟨hkept.safe, ?_⟩ (fun _ => hkept.started) fun hne => absurd rfl hne
  rw [hframe.acts, (h.steady _).acts]
  exact if_congr hkept.running.symm rfl rfl

/-! ## Inputs -/

/-- The other disk is selected only while the start bit is clear, a reset finds no interrupt pending
and no transfer, and DMA is started for a command that waits for it. -/
def Disciplined (c : IdeChannel) : IdeInput → Prop
  | .access .command false 6 data => (data.headD 0).getLsbD 4 ≠ c.selectBit → c.startStop = false
  | .access .control false _ data => (data.headD 0).getLsbD 2 = true →
      c.selected.intrPending = false ∧ c.selected.dmaState ≠ .Dma_Transfer
  | .access .bmi false 0 data => c.startStop = false → (data.headD 0).getLsbD 0 = true →
      c.selected.devState = .Transfer_Data_Dma ∧ c.selected.dmaState = .Dma_Start
  | _ => True

instance (c : IdeChannel) (input : IdeInput) : Decidable (c.Disciplined input) := by
  unfold Disciplined
  split <;> infer_instance

/-- DMA is started only for a command that waits for it. -/
def StartsAccepted (c : IdeChannel) : IdeInput → Prop
  | .access .bmi false 0 data => c.startStop = false → (data.headD 0).getLsbD 0 = true →
      c.selected.devState = .Transfer_Data_Dma ∧ c.selected.dmaState = .Dma_Start
  | _ => True

instance (c : IdeChannel) (input : IdeInput) : Decidable (c.StartsAccepted input) := by
  unfold StartsAccepted
  split <;> infer_instance

/-- The selection is taken only from a disk that is not idle, that no DMA command can make idle,
and that has no interrupt pending. The slave is not reset. -/
def Handed (c : IdeChannel) : IdeInput → Prop
  | .access .command false 6 data => (data.headD 0).getLsbD 4 ≠ c.selectBit →
      ¬ c.selected.devState.Idle ∧ c.selected.devState ≠ .Transfer_Data_Dma ∧
        c.selected.devState ≠ .Device_Dma_Abort ∧ c.selected.intrPending = false
  | .access .control false _ data => (data.headD 0).getLsbD 2 = true → c.selectBit = false
  | _ => True

instance (c : IdeChannel) (input : IdeInput) : Decidable (c.Handed input) := by
  unfold Handed
  split <;> infer_instance

theorem Inv.select (h : c.Inv) {selectBit : Bool} (hsel : selectBit ≠ c.selectBit →
    c.startStop = false) : Inv { c with selectBit } := by
  refine ⟨h.steady, fun hset => ?_⟩
  by_cases hsame : selectBit = c.selectBit
  · subst hsame
    exact h.started hset
  · have hclear : (c.ctl selectBit).start = false := hsel hsame
    rw [show (c.ctl selectBit).start = true from hset] at hclear
    cases hclear

variable {cfg : IdeConfig}

theorem Inv.readCommand (h : c.Inv) (env : IdeEnv) (offset size : Nat) :
    wp StatePanic (discard (onDisk c.selectBit (IdeSide.readCommand env offset size)))
      (fun _ c' => c'.Inv) c := by
  rw [wp_discard, wp_onDisk]
  exact wp.mono (readCommand_keeps (closed_guest env _) h.kept offset size) fun _ s hs =>
    h.onSelected hs.1 hs.2

theorem Inv.writeCommand (h : c.Inv) (env : IdeEnv) (offset : Nat) (data : List Byte) :
    wp StatePanic (onDisk c.selectBit (IdeSide.writeCommand env offset data))
      (fun _ c' => c'.Inv) c := by
  rw [wp_onDisk]
  exact wp.mono (writeCommand_keeps (closed_guest env _) h.kept offset data) fun _ s hs =>
    h.onSelected hs.1 hs.2

theorem Inv.accessCommand (h : c.Inv) (hdisc : c.Disciplined (.access .command read offset data)) :
    wp StatePanic (accessCommand cfg read offset data) (fun _ c' => c'.Inv) c := by
  unfold IdeChannel.accessCommand
  simp only [wp_bind, wp_when, wp_modify, wp_get, wp_ite]
  refine ⟨fun hsel => ?_, fun _ => ⟨fun _ => h.readCommand _ _ _, fun _ => h.writeCommand _ _ _⟩⟩
  obtain ⟨hread, hoff⟩ := Bool.and_eq_true_iff.mp hsel
  have hread : read = false := Bool.not_eq_eq_eq_not.mp hread
  have hoff : offset = 6 := beq_iff_eq.mp hoff
  subst hread hoff
  have hinv := h.select hdisc
  exact ⟨Bool.noConfusion, fun _ => hinv.writeCommand _ _ _⟩

theorem Inv.accessControl (h : c.Inv) (hdisc : c.Disciplined (.access .control read offset data)) :
    wp StatePanic (accessControl cfg read offset data) (fun _ c' => c'.Inv) c := by
  unfold IdeChannel.accessControl
  simp only [wp_bind, wp_get, wp_ite, wp_discard, wp_onDisk]
  refine ⟨fun _ => ?_, fun hread => ?_⟩
  · refine wp.mono (readControl_wp only_statePanic offset data.length) fun _ s hs => ?_
    subst hs
    exact h.onSelected h.kept (.refl _)
  · have hread : read = false := Bool.eq_false_iff.mpr hread
    subst hread
    refine wp.mono (writeControl_makes only_statePanic offset data) fun _ s hs => ?_
    refine h.onSelected ?_ hs.2
    rw [hs.1]
    exact kept_control h.kept _ hdisc

theorem Inv.setBmi (h : c.Inv) {bmi : Nat → Byte} (hsame : bmi 0 = c.bmi 0) :
    Inv { c with bmi } := by
  refine ⟨fun isSlave => (h.steady isSlave).of_same _ _, fun hset => h.started ?_⟩
  show (c.bmi 0).getLsbD 0 = true
  rw [← hsame]
  exact hset

/-- The selected disk goes on while the command register of the bus master is written. -/
theorem Inv.commanded (h : c.Inv) (hsteady : s.Steady)
    (hstart : byte.getLsbD 0 = true → s.ctl.dma = .Dma_Transfer ∧ s.ctl.dev = .Transfer_Data_Dma) :
    ((IdeChannel.setSide c.selectBit s c).setBmi 0 byte).Inv := by
  refine ⟨fun isSlave => ?_, ?_⟩
  · show IdeSide.Steady { (IdeChannel.setSide c.selectBit s c).side isSlave with bmi := _ }
    by_cases hsel : isSlave = c.selectBit
    · rw [hsel, side_setSide_same]
      exact hsteady.of_same _ s.mem
    · rw [side_setSide_other hsel]
      exact (h.steady isSlave).of_same _ _
  · intro hset
    have hdisk : ((IdeChannel.setSide c.selectBit s c).side c.selectBit) = s := side_setSide_same
    have hctl := hstart hset
    rw [← hdisk] at hctl
    exact hctl

theorem Inv.writeBMICommand (h : c.Inv) (hdisc : c.startStop = false → byte.getLsbD 0 = true →
      c.selected.devState = .Transfer_Data_Dma ∧ c.selected.dmaState = .Dma_Start) :
    wp StatePanic (writeBMICommand cfg byte) (fun _ c' => c'.Inv) c := by
  have hsteady := h.steady c.selectBit
  unfold IdeChannel.writeBMICommand startOrStop
  simp only [wp_bind, wp_get, wp_ite, wp_when, wp_modify, wp_onDisk]
  refine ⟨fun hstop => ?_, fun hnostop => ⟨fun hgo => ?_, fun hno => ?_⟩⟩
  · -- the start bit is cleared: the engine of the selected disk runs and is told to stop
    obtain ⟨hset, hclear⟩ := hstop
    obtain ⟨hdma, hdev⟩ := h.started (startStop_of_old hset)
    have hinv : Inv (c.setBmi 2 (c.bmi 2 &&& ~~~1)) := h.setBmi rfl
    have hrun : (c.ctl c.selectBit).dma ≠ .Dma_Idle := by
      rw [hdma]
      exact DmaState.noConfusion
    refine wp.mono (abortDma_makes
      (.inl ⟨hrun, hdev⟩) (safe_sound (hinv.steady _).safe) (hinv.steady _).safe.resting)
      fun _ s hs => ?_
    have hctl := error_step hs.1.2.2 hdev
    refine hinv.commanded ⟨?_, ?_⟩ fun hbit => ?_
    · rw [hctl]
      exact safe_abort (hinv.steady _).safe hdma hdev
    · rw [hs.2.acts, (hinv.steady _).acts, hctl]
    · rw [hclear] at hbit
      cases hbit
  · -- the start bit is set: the command of the selected disk waits for it
    obtain ⟨hclear, hbit⟩ := Bool.and_eq_true_iff.mp hgo
    obtain ⟨hdev, hdma⟩ := hdisc (startStop_of_new (Bool.not_eq_eq_eq_not.mp hclear) hbit) hbit
    have hinv : Inv (c.setBmi 2 (c.bmi 2 ||| 1)) := h.setBmi rfl
    refine wp.mono (startDma_wp
      only_statePanic c.bmidtp (.inl ⟨hdma, hdev⟩)) fun _ s hs => ?_
    obtain ⟨-, -, hctl, hacts⟩ := hs
    refine hinv.commanded ⟨?_, ?_⟩ fun _ => ?_
    · rw [hctl]
      exact safe_run (hinv.steady _).safe hdev
    · have hwait : ¬ ((c.setBmi 2 (c.bmi 2 ||| 1)).side c.selectBit).ctl.dma = .Dma_Transfer :=
        fun hrun => by cases hdma.symm.trans hrun
      rw [hacts, (hinv.steady _).acts, if_neg hwait, hctl, if_pos rfl]
    · rw [hctl]
      exact ⟨rfl, hdev⟩
  · -- the start bit stays as it is, or is cleared while the engine goes on
    refine ⟨fun isSlave => (h.steady isSlave).of_same _ _, fun hset => h.started ?_⟩
    have hset : byte.getLsbD 0 = true := hset
    rw [hset, Bool.and_true] at hno
    exact startStop_of_old (Bool.not_eq_eq_eq_not.mp hno)

theorem Inv.accessBMI (h : c.Inv) (hdisc : c.Disciplined (.access .bmi read offset data)) :
    wp StatePanic (accessBMI cfg read offset data) (fun _ c' => c'.Inv) c := by
  unfold IdeChannel.accessBMI
  simp only [wp_bind, wp_when, wp_throw]
  refine ⟨fun _ => only_statePanic.2.1, fun _ => ⟨fun hread => ?_, fun _ => h⟩⟩
  have hread : read = false := Bool.not_eq_eq_eq_not.mp hread
  subst hread
  split
  · simp only [wp_bind, wp_when, wp_throw]
    exact ⟨fun _ => only_statePanic.2.2, fun _ => h.writeBMICommand hdisc⟩
  · simp only [wp_bind, wp_when, wp_throw, wp_modify]
    exact ⟨fun _ => only_statePanic.2.2, fun _ => h.setBmi rfl⟩
  · simp only [wp_bind, wp_when, wp_throw, wp_modify]
    exact ⟨fun _ => only_statePanic.2.2, fun _ => h.setBmi rfl⟩
  · next hne _ _ => exact h.setBmi (if_neg fun hle => hne (Nat.le_zero.mp hle))

theorem Inv.dispatchAccess (h : c.Inv) {block : IdeBlock}
    (hdisc : c.Disciplined (.access block read offset data)) :
    wp StatePanic (dispatchAccess cfg block read offset data) (fun _ c' => c'.Inv) c := by
  unfold IdeChannel.dispatchAccess
  simp only [wp_bind, wp_when, wp_throw]
  refine ⟨fun _ => only_statePanic.2.2, fun _ => ?_⟩
  cases block with
  | command => exact h.accessCommand hdisc
  | control => exact h.accessControl hdisc
  | bmi => exact h.accessBMI hdisc

/-- An event that is scheduled is the one thing that the disk waits for. -/
theorem steady_event (h : s.Steady) (he : e ∈ s.disk.scheduled) : s.ctl.dma = .Dma_Transfer ∧
      IdeSide.acts { s with disk := { s.disk with scheduled := s.disk.scheduled.erase e } }
        = 0 := by
  have hpos : 0 < s.disk.scheduled.length := List.length_pos_of_mem he
  have hacts := h.acts
  unfold IdeSide.acts at hacts ⊢
  split at hacts
  · next hrun =>
      refine ⟨hrun, ?_⟩
      dsimp only
      rw [List.length_erase_of_mem he]
      omega
  · omega

/-- The engine of a disk that is safe and works on a command. -/
theorem steady_runnable (h : s.Steady) (hrun : s.ctl.dma = .Dma_Transfer)
    (hfree : env.busy = false → s.disk.transfer = none) : Runnable StatePanic env s := by
  have hsound := safe_sound h.safe
  refine ⟨hsound, { hsound with dma := fun hne => absurd rfl hne }, h.safe.resting, hfree,
    fun hgo => .inl ⟨hrun, ?_⟩⟩
  rcases h.safe.transfer hrun with hdev | hdev
  · exact hdev
  · rw [h.safe.aborted.mpr hdev] at hgo
    cases hgo

/-- The last event of a command leaves a disk that waits for nothing. -/
theorem steady_event_step {t : IdeSide} (hstep : EventStep env s t)
    (hsafe : s.ctl.Safe) (hrun : s.ctl.dma = .Dma_Transfer) (hnone : s.acts = 0) :
    t.Steady ∧ (t.ctl = s.ctl ∨ t.ctl.start = false) := by
  cases hstep with
  | waits _ hctl hacts =>
    refine ⟨⟨hctl ▸ hsafe, ?_⟩, .inl hctl⟩
    rw [hacts, hnone, hctl, if_pos hrun]
  | aborts habort hctl hacts =>
    have hdev := hsafe.aborted.mp habort
    have hctl := IdeStatesLemmas.aborted_step hctl hdev
    have hintr := intr_false hsafe hdev (by decide)
    obtain ⟨hdma, hstart⟩ :=
      finish_dma { s.ctl with start := false, dma := .Dma_Idle, aborted := false }
    refine ⟨⟨hctl ▸ Calm.finish ⟨rfl, rfl, hintr⟩, ?_⟩, .inr (hctl ▸ hstart)⟩
    rw [hacts, hnone, hctl, hdma]
    rfl
  | ends hgo hctl hacts =>
    have hdev : s.ctl.dev = .Transfer_Data_Dma := by
      rcases hsafe.transfer hrun with hdev | hdev
      · exact hdev
      · rw [hsafe.aborted.mpr hdev] at hgo
        cases hgo
    have hctl := done_step hctl hdev
    have hintr := intr_false hsafe hdev (by decide)
    obtain ⟨hdma, hstart⟩ := finish_dma { s.ctl with dma := .Dma_Idle, start := false }
    refine ⟨⟨hctl ▸ Calm.finish ⟨rfl, hgo, hintr⟩, ?_⟩, .inr (hctl ▸ hstart)⟩
    rw [hacts, hnone, hctl, hdma]
    rfl

theorem Inv.runEvent (h : c.Inv) (he : e ∈ (c.disks isSlave).scheduled)
    (busy : Bool) : wp StatePanic (runEvent cfg isSlave e busy) (fun _ c' => c'.Inv) c := by
  have hsteady := h.steady isSlave
  obtain ⟨hrun, hnone⟩ := steady_event hsteady he
  unfold IdeChannel.runEvent
  simp only [wp_bind, wp_get, wp_onDisk, wp_modifyDisk]
  have hfree : (c.env cfg isSlave busy).busy = false →
      (c.disks isSlave).transfer = none := fun hidle =>
    transfer_none (Bool.or_eq_false_iff.mp hidle).2
  have hgo := steady_runnable hsteady hrun hfree
  refine wp.mono (process_step (hgo.of_same ?_ ?_) e) fun _ s hs => ?_
  · rfl
  · rfl
  obtain ⟨hsteady', hctl⟩ := steady_event_step hs hsteady.safe hrun hnone
  refine h.setSide hsteady' (fun hsel => ?_) fun _ hset => ?_
  · rcases hctl with hctl | hclear
    · rw [hctl]
      exact hsel ▸ h.started
    · intro hset
      rw [hclear] at hset
      cases hset
  · rcases hctl with hctl | hclear
    · rw [hctl] at hset
      exact hset
    · rw [hclear] at hset
      cases hset

theorem Inv.moved (h : c.Inv) (hctl : s.ctl = c.ctl isSlave)
    (hacts : s.acts = (c.side isSlave).acts) :
    (IdeChannel.setSide isSlave s c).Inv := by
  refine h.setSide ⟨hctl ▸ (h.steady isSlave).safe, ?_⟩ (fun hsel => ?_) fun _ hset => hctl ▸ hset
  · rw [hacts, hctl]
    exact (h.steady isSlave).acts
  · rw [hctl, hsel]
    exact h.started

/-- The invariant is kept by every input of a disciplined guest, and no panic of the state
machine is met. -/
theorem Inv.step (h : c.Inv) {input : IdeInput} (hen : c.Enabled input)
    (hdisc : c.Disciplined input) : wp StatePanic (call cfg input) (fun _ c' => c'.Inv) c := by
  cases input with
  | access block read offset data => exact h.dispatchAccess hdisc
  | guestWrite addr data =>
    exact ⟨fun isSlave => (h.steady isSlave).of_same _ _, h.started⟩
  | event isSlave e busy => exact h.runEvent hen busy
  | serve isSlave i =>
    refine wp_onDisk.mpr (wp_modify.mpr ?_)
    obtain ⟨hctl, hacts⟩ := serve_ctl i (c.side isSlave)
    exact h.moved hctl hacts
  | ack isSlave =>
    refine wp_onDisk.mpr (wp.mono (ack_wp only_statePanic) fun _ s hs => ?_)
    exact h.moved hs.1 hs.2
  | setMode mode => exact ⟨h.steady, h.started⟩

theorem Inv.init (nIENBit : Bool → Bool) (image : Bool → DiskImage) (mem : Nat → Byte)
    (mode : MemMode) : (init nIENBit image mem mode).Inv := by
  have hctl (isSlave : Bool) : (IdeChannel.init nIENBit image mem mode).ctl isSlave =
      Ctl.reset isSlave ⟨.Device_Idle_S, .Dma_Idle, false, false, nIENBit isSlave, false⟩ := by
    have hclear : (IdeChannel.init nIENBit image mem mode).startStop = false := by
      show (0 : Byte).getLsbD 0 = false
      decide
    exact congrArg (Ctl.mk _ _ _ _ _) hclear
  refine ⟨fun isSlave => ⟨?_, rfl⟩, fun hset => ?_⟩
  · show ((IdeChannel.init nIENBit image mem mode).ctl isSlave).Safe
    rw [hctl]
    exact safe_reset _ isSlave
  · rw [hctl] at hset
    cases hset

theorem inv_of_reachable (h : (machine cfg).ReachableBy Disciplined c) : c.Inv := by
  refine h.invariant (fun c hstart => ?_) fun c input c' hinv hen hdisc hcall => ?_
  · obtain ⟨nIENBit, image, mem, mode, rfl⟩ := hstart
    exact .init nIENBit image mem mode
  · exact wp_ok (hinv.step hen hdisc) hcall

end IdeChannel

open IdeChannel

/-- In every such run an interrupt is pending exactly in the three states that stand for one, and no
input meets one of the panics of the state machine. -/
theorem ide_states_safe (cfg : IdeConfig) {c : IdeChannel}
    (h : (machine cfg).ReachableBy Disciplined c) :
    (∀ isSlave, (c.disks isSlave).intrPending = true ↔
      (c.disks isSlave).devState = .Device_Idle_SI ∨
      (c.disks isSlave).devState = .Data_Ready_INTRQ_In ∨
      (c.disks isSlave).devState = .Data_Ready_INTRQ_Out) ∧
    ∀ input e, c.Enabled input → c.Disciplined input → call cfg input c = .error e →
      e ≠ .inconsistent ∧ e ≠ .postPending ∧ e ≠ .clearNotPending := by
  have hinv := inv_of_reachable h
  refine ⟨fun isSlave => (hinv.steady isSlave).safe.intr, fun input e hen hdisc hcall => ?_⟩
  have hnot : ¬ StatePanic e := wp_error (hinv.step hen hdisc) hcall
  obtain ⟨hincons, hrest⟩ := not_or.mp hnot
  exact ⟨hincons, not_or.mp hrest⟩

/-- A channel of one guest without encryption, with images of eight sectors. The memory holds a
PRD table with one entry for the sector at `0x2000`. -/
def oneSectorConfig : IdeConfig := ⟨[], fun _ => 0, fun _ _ => 0, 6, DmaConfig.lines64.lineShift_le⟩

def oneSectorChannel : IdeChannel :=
  .init (fun _ => false) (fun _ => ⟨8, fun _ _ => 0, fun _ => none⟩)
    (Bytes.store (fun _ => 0) 0x1000 [0, 0x20, 0, 0, 0, 2, 0, 0x80]) .atomic

def startWriteDma : List IdeInput :=
  [.access .command false 6 [0x40], .access .command false 2 [1],
    .access .command false 7 [0xca], .access .bmi false 4 [0, 0x10, 0, 0],
    .access .bmi false 0 [1]]

theorem ide_states_safe_write : ∃ c : IdeChannel,
    (machine oneSectorConfig).ReachableBy Disciplined c ∧
    (c.disks false).devState = .Device_Idle_SI ∧ (c.disks false).intrPending = true := by
  have hrun : ∃ c : IdeChannel, (machine oneSectorConfig).ReachableBy Disciplined c ∧
      (c.disks false).devState = .Device_Idle_SI := by
    refine (init_reachable _ _ _ _ _ _).exists_of_replay (s := oneSectorChannel) (startWriteDma ++
      [.event false .dmaTransferEvent false, .event false .dmaPrdReadEvent false,
        .event false .dmaReadWaitEvent false, .event false .dmaReadWaitEvent false]) ?_
    decide +kernel
  obtain ⟨c, hreach, hidle⟩ := hrun
  exact ⟨c, hreach, hidle, ((ide_states_safe _ hreach).1 false).mpr (.inl hidle)⟩

def Inconsistent (c : IdeChannel) (input : IdeInput) : Bool :=
  match call oneSectorConfig input c with
  | .error .inconsistent => true
  | _ => false

theorem Inconsistent.call {c : IdeChannel} {input : IdeInput} (h : Inconsistent c input = true) :
    call oneSectorConfig input c = .error .inconsistent := by
  unfold Inconsistent at h
  split at h
  · assumption
  · cases h

/-- A reset during a transfer: its next event meets the panic on an inconsistent DMA state. A reset
while an interrupt is pending: it stays pending. -/
theorem ide_reset_inconsistent :
    (∃ c : IdeChannel, (machine oneSectorConfig).ReachableBy StartsAccepted c ∧
      c.Enabled (.event false .dmaTransferEvent false) ∧
      call oneSectorConfig (.event false .dmaTransferEvent false) c = .error .inconsistent) ∧
    ∃ c : IdeChannel, (machine oneSectorConfig).ReachableBy StartsAccepted c ∧
      (c.disks false).intrPending = true ∧ (c.disks false).devState = .Device_Srst := by
  constructor
  · have hrun : ∃ c : IdeChannel, (machine oneSectorConfig).ReachableBy StartsAccepted c ∧
        c.Enabled (.event false .dmaTransferEvent false) ∧
        Inconsistent c (.event false .dmaTransferEvent false) = true := by
      refine (init_reachable _ _ _ _ _ _).exists_of_replay (s := oneSectorChannel)
        (startWriteDma ++ [.access .control false 2 [4], .access .control false 2 [0]]) ?_
      decide +kernel
    obtain ⟨c, hreach, hen, hcall⟩ := hrun
    exact ⟨c, hreach, hen, Inconsistent.call hcall⟩
  · refine (init_reachable _ _ _ _ _ _).exists_of_replay (s := oneSectorChannel)
      [.access .command false 7 [0xe7], .access .control false 2 [4]] ?_
    decide +kernel

end PardG5V
