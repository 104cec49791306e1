import PardG5V.Dev.IdeStates

/-!
# Selection of a disk

An idle disk has a state of its own for not being selected. A drive select is routed to the disk
that gets selected, so the one that loses the selection is never told. The channel and the disks
agree as long as no disk that is idle, or that can get idle by itself, loses the selection, and
the slave is not reset: a reset leaves it deselected.

Results: `ide_selection_agrees`, `ide_select_not_told`.
-/

namespace PardG5V

open Prog IdeSide

/-! ## The two disks -/

namespace Ctl

/-- The selected disk is not in the state of one that is not. -/
structure Chosen (isSlave : Bool) (c : Ctl) : Prop where
  resting : c.Resting
  awake : c.dev ≠ .Device_Idle_NS
  srst : isSlave = true → c.dev ≠ .Device_Srst

/-- The other disk is neither ready nor can get so by itself, and has no interrupt pending. -/
structure Parked (isSlave : Bool) (c : Ctl) : Prop where
  resting : c.Resting
  ready : c.dev ≠ .Device_Idle_S ∧ c.dev ≠ .Device_Idle_SI
  dma : c.dev ≠ .Transfer_Data_Dma ∧ c.dev ≠ .Device_Dma_Abort
  intr : c.intr = false
  srst : isSlave = true → c.dev ≠ .Device_Srst

end Ctl

namespace IdeSelectLemmas

variable {c c' : Ctl} {env : IdeEnv} {action : DevAction} {isSlave : Bool} {s t : IdeSide}

/-- The states that the selected disk can get into by an action. -/
def Live (dev : DevState) : Prop :=
  (dev ≠ .Command_Execution ∧ dev ≠ .Prepare_Data_In ∧ dev ≠ .Prepare_Data_Out ∧
    dev ≠ .Prepare_Data_Dma) ∧ dev ≠ .Device_Idle_NS ∧ dev ≠ .Device_Srst
deriving Decidable

theorem chosen_live (dev : DevState) (hlive : Live dev) (hdev : c.dev = dev) :
    c.Chosen isSlave := by
  subst hdev
  exact ⟨hlive.1, hlive.2.1, fun _ => hlive.2.2⟩

theorem chosen_finish (c : Ctl) : c.finish.Chosen isSlave := by
  unfold Ctl.finish
  split
  · exact chosen_live .Device_Idle_S (by decide) rfl
  · exact chosen_live .Device_Idle_SI (by decide) rfl

theorem chosen_ready {told untold : DevState} (htold : Live told) (huntold : Live untold)
    (c : Ctl) :
    (c.ready told untold).Chosen isSlave := by
  unfold Ctl.ready
  split
  · exact chosen_live untold huntold rfl
  · exact chosen_live told htold rfl

theorem chosen_starts (h : c.Starts c') : c'.Chosen isSlave := by
  cases h with
  | finished => exact chosen_finish c
  | dataIn => exact chosen_ready (by decide) (by decide) c
  | dataOut => exact chosen_live .Transfer_Data_Out (by decide) rfl
  | dma _ => exact chosen_live .Transfer_Data_Dma (by decide) rfl

/-- No action puts the selected disk into the state of one that is not, apart from the end of a
reset of the slave. -/
theorem chosen_step (h : c.Chosen env.isSlave) (hsel : env.selected = true)
    (hstep : CtlStep env action c c') : c'.Chosen env.isSlave := by
  cases hstep with
  | ignored _ => exact h
  | srst hdev =>
    cases hslave : env.isSlave with
    | false => exact chosen_live .Device_Idle_S (by decide) rfl
    | true => exact absurd hdev (h.srst hslave)
  | deselect _ hnot | deselectTold _ hnot => cases hsel.symm.trans hnot
  | select _ _ _ | cleared _ _ | lastIn _ => exact chosen_live .Device_Idle_S (by decide) rfl
  | started _ hstart | restarted _ _ hstart => exact chosen_starts hstart
  | readIn _ => exact chosen_live .Transfer_Data_In (by decide) rfl
  | readOut _ => exact chosen_live .Transfer_Data_Out (by decide) rfl
  | blockIn _ | blockOut _ => exact chosen_ready (by decide) (by decide) c
  | lastOut _ => exact chosen_finish c
  | abort _ => exact chosen_live .Device_Dma_Abort (by decide) rfl
  | done _ | aborted _ => exact chosen_finish _

theorem closed_chosen (hsel : env.selected = true) :
    Closed Never env GuestAction (Ctl.Chosen env.isSlave) :=
  ⟨fun c _ => sound_never c, fun _ h => h.resting, fun _ _ _ _ h hstep => chosen_step h hsel hstep⟩

/-- A write of the control register that does not reset the slave. -/
theorem chosen_control (h : c.Chosen isSlave) {byte : Byte}
    (hmaster : byte.getLsbD 2 = true → isSlave = false) :
    (c.control isSlave byte).Chosen isSlave := by
  unfold Ctl.control
  split
  · next hrst =>
      refine ⟨⟨nofun, nofun, nofun, nofun⟩, nofun, fun hslave => ?_⟩
      cases hslave.symm.trans (hmaster hrst)
  · split
    · next hdev =>
        cases isSlave with
        | false => exact chosen_live .Device_Idle_S (by decide) rfl
        | true => exact absurd hdev (h.srst rfl)
    · exact { h with }

theorem chosen_event (h : s.ctl.Chosen env.isSlave) (hsel : env.selected = true)
    (hstep : EventStep env s t) : t.ctl.Chosen env.isSlave := by
  cases hstep with
  | waits _ hctl _ => exact hctl ▸ h
  | aborts _ hctl _ => exact chosen_step h hsel hctl
  | ends _ hctl _ =>
    have hidle : Ctl.Chosen env.isSlave { s.ctl with dma := .Dma_Idle } := { h with }
    exact chosen_step hidle hsel hctl

/-- What the DMA engine tells the other disk is ignored. -/
theorem parked_step (h : c.Parked isSlave) (hstep : CtlStep env action c c')
    (hdma : action = .ACT_CMD_ERROR ∨ action = .ACT_DMA_DONE) : c' = c := by
  cases hstep with
  | ignored _ => rfl
  | cleared hdev _ => exact absurd hdev h.ready.2
  | abort hdev | done hdev => exact absurd hdev h.dma.1
  | aborted hdev => exact absurd hdev h.dma.2
  | _ => rcases hdma with hact | hact <;> cases hact

theorem parked_event (hstep : EventStep env s t) (h : s.ctl.Parked isSlave) :
    t.ctl.Parked isSlave := by
  cases hstep with
  | waits _ hctl _ => exact hctl ▸ h
  | aborts _ hctl _ => exact parked_step h hctl (.inl rfl) ▸ h
  | ends _ hctl _ =>
    have hidle : Ctl.Parked isSlave { s.ctl with dma := .Dma_Idle } := { h with }
    exact parked_step hidle hctl (.inr rfl) ▸ hidle

/-- The other disk is told that it is selected, and wakes up. -/
theorem select_wakes (h : s.ctl.Parked env.isSlave) (hsel : env.selected = true) :
    wp Never (updateState env .ACT_SELECT_WRITE) (fun _ t => t.ctl.Chosen env.isSlave) s := by
  by_cases hdev : s.disk.devState = .Device_Idle_NS
  · have hintr : s.disk.intrPending = false := h.intr
    unfold updateState
    simp only [wp_bind, wp_getDisk, hdev, hsel, wp_when, wp_modifyDisk, hintr]
    refine ⟨fun _ => ⟨fun hpost => ?_, fun _ => ⟨fun _ => ?_, fun hnot => ?_⟩⟩, Bool.noConfusion⟩
    · rw [Bool.and_false] at hpost
      cases hpost
    · exact chosen_live .Device_Idle_S (by decide) rfl
    · rw [Bool.not_false, Bool.or_true] at hnot
      cases hnot
  · have hchosen : s.ctl.Chosen env.isSlave := ⟨h.resting, hdev, h.srst⟩
    exact wp.mono ((closed_chosen hsel).updateState (.inr (.inl rfl)) hchosen) fun _ _ ht => ht.1

theorem writeCommand_wakes (h : s.ctl.Parked env.isSlave) (hsel : env.selected = true)
    (data : List Byte) :
    wp Never (writeCommand env 6 data) (fun _ t => t.ctl.Chosen env.isSlave) s := by
  unfold writeCommand
  simp only [wp_bind, wp_ite, wp_panicIf]
  refine ⟨(absurd · (by decide)), fun _ => ⟨fun _ => not_false, fun _ => ?_⟩⟩
  exact select_wakes h hsel

end IdeSelectLemmas

open IdeSelectLemmas

/-! ## The agreement -/

namespace IdeChannel

structure Agrees (c : IdeChannel) : Prop where
  chosen : (c.ctl c.selectBit).Chosen c.selectBit
  parked : ∀ isSlave, isSlave ≠ c.selectBit → (c.ctl isSlave).Parked isSlave

variable {cfg : IdeConfig} {c : IdeChannel} {s : IdeSide} {isSlave : Bool} {data : List Byte}
  {read : Bool} {offset : Nat}

theorem Agrees.setSelected (h : c.Agrees) (hs : s.ctl.Chosen c.selectBit) :
    (setSide c.selectBit s c).Agrees := by
  refine ⟨?_, fun other hother => ?_⟩
  · show ((setSide c.selectBit s c).side c.selectBit).ctl.Chosen c.selectBit
    rw [side_setSide_same]
    exact hs
  · have hother : other ≠ c.selectBit := hother
    show ((setSide c.selectBit s c).side other).ctl.Parked other
    rw [side_setSide_other hother]
    exact { h.parked other hother with }

theorem Agrees.setOther (h : c.Agrees) (hne : isSlave ≠ c.selectBit)
    (hs : s.ctl.Parked isSlave) : (setSide isSlave s c).Agrees := by
  refine ⟨?_, fun other hother => ?_⟩
  · show ((setSide isSlave s c).side c.selectBit).ctl.Chosen c.selectBit
    rw [side_setSide_other (Ne.symm hne)]
    exact { h.chosen with }
  · have hother : other = !c.selectBit := Bool.eq_not.mpr hother
    have hsame : other = isSlave := hother.trans (Bool.eq_not.mpr hne).symm
    subst hsame
    show ((setSide other s c).side other).ctl.Parked other
    rw [side_setSide_same]
    exact hs

theorem Agrees.setBmi (h : c.Agrees) (bmi : Nat → Byte) : Agrees { c with bmi } :=
  ⟨{ h.chosen with }, fun other hother => { h.parked other hother with }⟩

theorem env_selected (c : IdeChannel) (busy : Bool) :
    (c.env cfg c.selectBit busy).selected = true := beq_self_eq_true c.selectBit

/-! ## Inputs -/

theorem Agrees.writeCommand (h : c.Agrees) (offset : Nat) (data : List Byte) :
    wp Never (onDisk c.selectBit (IdeSide.writeCommand (c.env cfg c.selectBit false) offset data))
      (fun _ c' => c'.Agrees) c :=
  wp_onDisk.mpr (wp.mono (writeCommand_keeps (closed_chosen (env_selected c false)) h.chosen offset
    data) fun _ _ hs => h.setSelected hs.1)

/-- The selection moves to a disk that is parked, and away from one that can be. -/
theorem Agrees.select (h : c.Agrees) (hhand : c.Handed (.access .command false 6 data)) :
    let c' := { c with selectBit := (data.headD 0).getLsbD 4 }
    wp Never (onDisk c'.selectBit (IdeSide.writeCommand (c'.env cfg c'.selectBit false) 6 data))
      (fun _ c'' => c''.Agrees) c' := by
  intro c'
  by_cases hsame : (data.headD 0).getLsbD 4 = c.selectBit
  · have hc : c' = c := by
      show { c with selectBit := (data.headD 0).getLsbD 4 } = c
      rw [hsame]
    rw [hc]
    exact h.writeCommand 6 data
  · have hgain := h.parked _ hsame
    obtain ⟨hidle, hdma, habort, hintr⟩ := hhand hsame
    obtain ⟨hs, hrest⟩ := not_or.mp hidle
    have hsi := (not_or.mp hrest).1
    refine wp_onDisk.mpr (wp.mono (writeCommand_wakes hgain (env_selected c' false) data)
      fun _ s ht => ⟨?_, fun other hother => ?_⟩)
    · show ((setSide c'.selectBit s c').side c'.selectBit).ctl.Chosen c'.selectBit
      rw [side_setSide_same]
      exact ht
    · -- the disk that loses the selection
      have hother : other ≠ c'.selectBit := hother
      have hloser : other = c.selectBit :=
        (Bool.eq_not.mpr hother).trans (Bool.eq_not.mpr (Ne.symm hsame)).symm
      show ((setSide c'.selectBit s c').side other).ctl.Parked other
      rw [side_setSide_other hother, hloser]
      exact ⟨h.chosen.resting, ⟨hs, hsi⟩, ⟨hdma, habort⟩, hintr, h.chosen.srst⟩

theorem Agrees.accessCommand (h : c.Agrees) (hhand : c.Handed (.access .command read offset data)) :
    wp Never (accessCommand cfg read offset data) (fun _ c' => c'.Agrees) c := by
  unfold IdeChannel.accessCommand
  simp only [wp_bind, wp_when, wp_modify, wp_get, wp_ite]
  refine ⟨fun hsel => ?_, fun _ => ⟨fun _ => ?_, fun _ => h.writeCommand offset data⟩⟩
  · obtain ⟨hread, hoff⟩ := Bool.and_eq_true_iff.mp hsel
    have hread : read = false := Bool.not_eq_eq_eq_not.mp hread
    have hoff : offset = 6 := beq_iff_eq.mp hoff
    subst hread hoff
    exact ⟨Bool.noConfusion, fun _ => h.select hhand⟩
  · rw [wp_discard, wp_onDisk]
    exact wp.mono (readCommand_keeps (closed_chosen (env_selected c false)) h.chosen offset
      data.length) fun _ _ hs => h.setSelected hs.1

theorem Agrees.accessControl (h : c.Agrees) (hhand : c.Handed (.access .control read offset data)) :
    wp Never (accessControl cfg read offset data) (fun _ c' => c'.Agrees) c := by
  unfold IdeChannel.accessControl
  simp only [wp_bind, wp_get, wp_ite, wp_discard, wp_onDisk]
  refine ⟨fun _ => ?_, fun hread => ?_⟩
  · refine wp.mono (readControl_wp only_never offset data.length) fun _ s hs => ?_
    subst hs
    exact h.setSelected h.chosen
  · have hread : read = false := Bool.eq_false_iff.mpr hread
    subst hread
    refine wp.mono (writeControl_makes only_never offset data) fun _ s hs => h.setSelected ?_
    rw [hs.1]
    exact chosen_control h.chosen hhand

theorem Agrees.startOrStop (h : c.Agrees) (old new : Bool) :
    wp Never (startOrStop cfg old new) (fun _ c' => c'.Agrees) c := by
  unfold IdeChannel.startOrStop
  simp only [wp_bind, wp_get, wp_ite, wp_when, wp_modify, wp_onDisk]
  refine ⟨fun _ => ?_, fun _ => ⟨fun _ => ?_, fun _ => h⟩⟩
  · have hmid : Agrees (c.setBmi 2 (c.bmi 2 &&& ~~~1)) := h.setBmi _
    refine wp.mono (abortDma_makes (.inr not_false) (sound_never _) hmid.chosen.resting)
      fun _ s hs => hmid.setSelected ?_
    exact chosen_step hmid.chosen (env_selected c false) hs.1.2.2
  · have hmid : Agrees (c.setBmi 2 (c.bmi 2 ||| 1)) := h.setBmi _
    refine wp.mono (startDma_wp only_never c.bmidtp (.inr not_false)) fun _ s hs =>
      hmid.setSelected ?_
    rw [hs.2.2.1]
    exact { h.chosen with }

theorem Agrees.accessBMI (h : c.Agrees) (read : Bool) (offset : Nat) (data : List Byte) :
    wp Never (accessBMI cfg read offset data) (fun _ c' => c'.Agrees) c := by
  unfold IdeChannel.accessBMI IdeChannel.writeBMICommand
  simp only [wp_bind, wp_when, wp_throw]
  refine ⟨fun _ => not_false, fun _ => ⟨fun _ => ?_, fun _ => h⟩⟩
  split
  · simp only [wp_bind, wp_when, wp_throw, wp_get]
    exact ⟨fun _ => not_false, fun _ => wp.mono (h.startOrStop _ _) fun _ _ h' => h'.setBmi _⟩
  · simp only [wp_bind, wp_when, wp_throw]
    exact ⟨fun _ => not_false, fun _ => h.setBmi _⟩
  · simp only [wp_bind, wp_when, wp_throw]
    exact ⟨fun _ => not_false, fun _ => h.setBmi _⟩
  · exact h.setBmi _

theorem Agrees.runEvent (h : c.Agrees) (isSlave : Bool) (e : DiskEvent) (busy : Bool) :
    wp Never (runEvent cfg isSlave e busy) (fun _ c' => c'.Agrees) c := by
  unfold IdeChannel.runEvent
  simp only [wp_bind, wp_get, wp_onDisk, wp_modifyDisk]
  have hrest : (c.ctl isSlave).Resting := by
    by_cases hsel : isSlave = c.selectBit
    · exact hsel ▸ h.chosen.resting
    · exact (h.parked isSlave hsel).resting
  have hgo : Runnable Never (c.env cfg isSlave busy) (c.side isSlave) :=
    ⟨sound_never _, sound_never _, hrest, fun hidle =>
      transfer_none (Bool.or_eq_false_iff.mp hidle).2,
      fun _ => .inr not_false⟩
  refine wp.mono (process_step (hgo.of_same ?_ ?_) e) fun _ s hs => ?_
  · rfl
  · rfl
  by_cases hsel : isSlave = c.selectBit
  · subst hsel
    exact h.setSelected (chosen_event h.chosen (env_selected c busy) hs)
  · exact h.setOther hsel (parked_event hs (h.parked isSlave hsel))

theorem Agrees.moved (h : c.Agrees) (hctl : s.ctl = c.ctl isSlave) :
    (setSide isSlave s c).Agrees := by
  by_cases hsel : isSlave = c.selectBit
  · subst hsel
    exact h.setSelected (hctl ▸ h.chosen)
  · exact h.setOther hsel (hctl ▸ h.parked isSlave hsel)

/-- The agreement is kept by every input that moves the selection so. -/
theorem Agrees.step (h : c.Agrees) {input : IdeInput} (hhand : c.Handed input) :
    wp Never (call cfg input) (fun _ c' => c'.Agrees) c := by
  cases input with
  | access block read offset data =>
    refine wp_bind.mpr (wp_when.mpr ⟨fun _ => not_false, fun _ => ?_⟩)
    cases block with
    | command => exact h.accessCommand hhand
    | control => exact h.accessControl hhand
    | bmi => exact h.accessBMI read offset data
  | guestWrite addr data | setMode mode => exact ⟨h.chosen, h.parked⟩
  | event isSlave e busy => exact h.runEvent isSlave e busy
  | serve isSlave i =>
    exact wp_onDisk.mpr (wp_modify.mpr (h.moved (serve_ctl i (c.side isSlave)).1))
  | ack isSlave =>
    exact wp_onDisk.mpr (wp.mono (ack_wp only_never) fun _ s hs => h.moved hs.1)

theorem Agrees.init (nIENBit : Bool → Bool) (image : Bool → DiskImage) (mem : Nat → Byte)
    (mode : MemMode) : (init nIENBit image mem mode).Agrees := by
  refine ⟨chosen_live .Device_Idle_S (by decide) rfl, fun isSlave hslave => ?_⟩
  have hslave : isSlave = true := Bool.eq_not.mpr hslave
  subst hslave
  exact ⟨⟨nofun, nofun, nofun, nofun⟩, ⟨nofun, nofun⟩, ⟨nofun, nofun⟩, rfl, fun _ => nofun⟩

theorem agrees_of_reachable (h : (machine cfg).ReachableBy Handed c) : c.Agrees := by
  refine h.invariant (fun c hstart => ?_) fun c input c' hinv _ hhand hcall => ?_
  · obtain ⟨nIENBit, image, mem, mode, rfl⟩ := hstart
    exact .init nIENBit image mem mode
  · exact wp_ok (hinv.step hhand) hcall

end IdeChannel

open IdeChannel

/-- In every run in which the selection is taken only from a disk that is not idle, that no DMA
command can make idle and that has no interrupt pending, and in which the slave is not reset: an
idle disk is in the unselected state exactly if it is not selected, and an unselected disk is
neither ready nor has an interrupt pending. -/
theorem ide_selection_agrees (cfg : IdeConfig) {c : IdeChannel}
    (h : (machine cfg).ReachableBy Handed c) (isSlave : Bool) :
    ((c.disks isSlave).devState.Idle →
      ((c.disks isSlave).devState = .Device_Idle_NS ↔ isSlave ≠ c.selectBit)) ∧
    (isSlave ≠ c.selectBit → (c.disks isSlave).devState ≠ .Device_Idle_S ∧
      (c.disks isSlave).devState ≠ .Device_Idle_SI ∧ (c.disks isSlave).intrPending = false) := by
  have hagrees := agrees_of_reachable h
  refine ⟨fun hidle => ⟨fun hns hsel => ?_, fun hne => ?_⟩, fun hne => ?_⟩
  · subst hsel
    exact hagrees.chosen.awake hns
  · have hparked := hagrees.parked isSlave hne
    rcases hidle with hs | hsi | hns
    · exact absurd hs hparked.ready.1
    · exact absurd hsi hparked.ready.2
    · exact hns
  · have hparked := hagrees.parked isSlave hne
    exact ⟨hparked.ready.1, hparked.ready.2, hparked.intr⟩

/-- The selection moves to the slave while the master transfers data, and the slave wakes up. -/
theorem ide_selection_agrees_moved : ∃ c : IdeChannel,
    (machine oneSectorConfig).ReachableBy Handed c ∧
    (c.selectBit = true ∧ (c.disks true).devState = .Device_Idle_S) ∧
    (c.disks false).devState ≠ .Device_Idle_S := by
  have hrun : ∃ c : IdeChannel, (machine oneSectorConfig).ReachableBy Handed c ∧
      c.selectBit = true ∧ (c.disks true).devState = .Device_Idle_S := by
    refine (init_reachable _ _ _ _ _ _).exists_of_replay (s := oneSectorChannel)
      [.access .command false 6 [0x40], .access .command false 7 [0x30],
        .access .command false 6 [0x50]] ?_
    decide +kernel
  obtain ⟨c, hreach, hsel, hidle⟩ := hrun
  have hother := (ide_selection_agrees _ hreach false).2 (hsel ▸ nofun)
  exact ⟨c, hreach, ⟨hsel, hidle⟩, hother.1⟩

/-- The slave is selected while the master is idle: both take a command and post an interrupt. The
slave is reset while it is selected: it is not ready. -/
theorem ide_select_not_told : (∃ c : IdeChannel, (machine oneSectorConfig).Reachable c ∧
      ∀ isSlave, (c.disks isSlave).devState = .Device_Idle_S) ∧
    (∃ c : IdeChannel, (machine oneSectorConfig).Reachable c ∧
      ∀ isSlave, (c.disks isSlave).devState = .Device_Idle_SI ∧
        (c.disks isSlave).intrPending = true) ∧
    ∃ c : IdeChannel, (machine oneSectorConfig).Reachable c ∧ c.selectBit = true ∧
      (c.disks true).devState = .Device_Idle_NS := by
  refine ⟨?_, ?_, ?_⟩
  · refine (init_reachable _ _ _ _ _ _).exists_of_replay (s := oneSectorChannel)
      [.access .command false 6 [0x50]] ?_
    decide +kernel
  · refine (init_reachable _ _ _ _ _ _).exists_of_replay (s := oneSectorChannel)
      [.access .command false 7 [0xe7], .access .command false 6 [0x50],
        .access .command false 7 [0xe7]] ?_
    decide +kernel
  · refine (init_reachable _ _ _ _ _ _).exists_of_replay (s := oneSectorChannel)
      [.access .command false 6 [0x50], .access .control false 2 [4],
        .access .control false 2 [0]] ?_
    decide +kernel

end PardG5V
