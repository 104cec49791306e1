import PardG5V.Dev.IdeChannel
import PardG5V.Lib.Wp

/-!
# The control state of a disk

What the state machine of a disk does does not depend on the data that it moves. `IdeSide.ctl` is
the control part of a disk and of the bus master registers of its channel, and `CtlStep` lists the
transitions that `updateState` makes on it.
-/

namespace PardG5V

open Prog

/-- The states of a disk that executes no command and is not in a reset. -/
def DevState.Idle (dev : DevState) : Prop :=
  dev = .Device_Idle_S ∨ dev = .Device_Idle_SI ∨ dev = .Device_Idle_NS
deriving Decidable

/-- The control part of a disk, with the start bit of the bus master. -/
structure Ctl where
  dev : DevState
  dma : DmaState
  intr : Bool
  aborted : Bool
  nIEN : Bool
  start : Bool
deriving DecidableEq, Repr

namespace IdeSide

def ctl (s : IdeSide) : Ctl where
  dev := s.disk.devState
  dma := s.disk.dmaState
  intr := s.disk.intrPending
  aborted := s.disk.dmaAborted
  nIEN := s.disk.nIENBit
  start := (s.bmi 0).getLsbD 0

structure Frame (s s' : IdeSide) : Prop where
  scheduled : s'.disk.scheduled = s.disk.scheduled
  transfer : s'.disk.transfer = s.disk.transfer
  dmaReadCG : s'.disk.dmaReadCG = s.disk.dmaReadCG
  dmaWriteCG : s'.disk.dmaWriteCG = s.disk.dmaWriteCG
  mem : s'.mem = s.mem

theorem Frame.refl (s : IdeSide) : Frame s s := ⟨rfl, rfl, rfl, rfl, rfl⟩

theorem Frame.trans {s t u : IdeSide} (h : Frame s t) (h' : Frame t u) : Frame s u :=
  ⟨h'.1.trans h.1, h'.2.trans h.2, h'.3.trans h.3, h'.4.trans h.4, h'.5.trans h.5⟩

end IdeSide

/-! ## The transitions -/

namespace Ctl

/-- The states in which a disk is between two calls. -/
def Resting (c : Ctl) : Prop :=
  c.dev ≠ .Command_Execution ∧ c.dev ≠ .Prepare_Data_In ∧ c.dev ≠ .Prepare_Data_Out ∧
    c.dev ≠ .Prepare_Data_Dma

/-- The states in which the guest has been told something by an interrupt. -/
def Notifies (c : Ctl) : Prop :=
  c.dev = .Device_Idle_SI ∨ c.dev = .Data_Ready_INTRQ_In ∨ c.dev = .Data_Ready_INTRQ_Out

def finish (c : Ctl) : Ctl :=
  if c.nIEN then { c with dev := .Device_Idle_S }
  else { c with dev := .Device_Idle_SI, intr := true }

/-- A block of data is ready for the guest: it is told by an interrupt unless these are
masked. -/
def ready (told untold : DevState) (c : Ctl) : Ctl :=
  if c.nIEN then { c with dev := untold } else { c with dev := told, intr := true }

def readyIn (c : Ctl) : Ctl := ready .Data_Ready_INTRQ_In .Transfer_Data_In c

def readyOut (c : Ctl) : Ctl := ready .Data_Ready_INTRQ_Out .Transfer_Data_Out c

def reset (isSlave : Bool) (c : Ctl) : Ctl :=
  { c with
    dev := if isSlave then .Device_Idle_NS else .Device_Idle_S
    dma := .Dma_Idle, intr := false, aborted := false }

def control (isSlave : Bool) (byte : Byte) (c : Ctl) : Ctl :=
  { (if byte.getLsbD 2 then { c with dev := .Device_Srst }
      else if c.dev = .Device_Srst then c.reset isSlave else c) with
    nIEN := byte.getLsbD 1 }

/-- What a command that is started leads to. -/
inductive Starts (c : Ctl) : Ctl → Prop
  | finished : Starts c c.finish
  | dataIn : Starts c c.readyIn
  | dataOut : Starts c { c with dev := .Transfer_Data_Out }
  | dma (h : c.dma = .Dma_Idle) : Starts c { c with dev := .Transfer_Data_Dma, dma := .Dma_Start }

end Ctl

/-- The DMA engine is told to stop, or tells that it is done, while a DMA command runs. -/
def Ctl.Urgent (c : Ctl) (action : DevAction) : Prop :=
  c.dev = .Transfer_Data_Dma ∧ (action = .ACT_CMD_ERROR ∨ action = .ACT_DMA_DONE) ∨
    c.dev = .Device_Dma_Abort ∧ action = .ACT_CMD_ERROR

/-- The transitions of `updateState`. -/
inductive CtlStep (env : IdeEnv) : DevAction → Ctl → Ctl → Prop
  | ignored {action : DevAction} {c : Ctl} (h : ¬ c.Urgent action) : CtlStep env action c c
  | srst {c : Ctl} (h : c.dev = .Device_Srst) :
      CtlStep env .ACT_SRST_CLEAR c (c.reset env.isSlave)
  | deselect {c : Ctl} (h : c.dev = .Device_Idle_S) (hsel : env.selected = false) :
      CtlStep env .ACT_SELECT_WRITE c { c with dev := .Device_Idle_NS }
  | deselectTold {c : Ctl} (h : c.dev = .Device_Idle_SI) (hsel : env.selected = false) :
      CtlStep env .ACT_SELECT_WRITE c { c with dev := .Device_Idle_NS, intr := false }
  | select {c : Ctl} (h : c.dev = .Device_Idle_NS) (hsel : env.selected = true)
      (hintr : c.nIEN = true ∨ c.intr = false) :
      CtlStep env .ACT_SELECT_WRITE c { c with dev := .Device_Idle_S }
  | cleared {action : DevAction} {c : Ctl} (h : c.dev = .Device_Idle_SI)
      (hcause : action = .ACT_STAT_READ ∨ c.nIEN = true) :
      CtlStep env action c { c with dev := .Device_Idle_S, intr := false }
  | started {c c' : Ctl} (h : c.dev = .Device_Idle_S) (hstart : c.Starts c') :
      CtlStep env .ACT_CMD_WRITE c c'
  | restarted {c c' : Ctl} (h : c.dev = .Device_Idle_SI) (hmask : c.nIEN = false)
      (hstart : { c with intr := false }.Starts c') : CtlStep env .ACT_CMD_WRITE c c'
  | readIn {c : Ctl} (h : c.dev = .Data_Ready_INTRQ_In) :
      CtlStep env .ACT_STAT_READ c { c with dev := .Transfer_Data_In, intr := false }
  | readOut {c : Ctl} (h : c.dev = .Data_Ready_INTRQ_Out) :
      CtlStep env .ACT_STAT_READ c { c with dev := .Transfer_Data_Out, intr := false }
  | blockIn {c : Ctl} (h : c.dev = .Transfer_Data_In) :
      CtlStep env .ACT_DATA_READ_SHORT c c.readyIn
  | lastIn {c : Ctl} (h : c.dev = .Transfer_Data_In) :
      CtlStep env .ACT_DATA_READ_SHORT c { c with dev := .Device_Idle_S }
  | blockOut {c : Ctl} (h : c.dev = .Transfer_Data_Out) :
      CtlStep env .ACT_DATA_WRITE_SHORT c c.readyOut
  | lastOut {c : Ctl} (h : c.dev = .Transfer_Data_Out) :
      CtlStep env .ACT_DATA_WRITE_SHORT c c.finish
  | abort {c : Ctl} (h : c.dev = .Transfer_Data_Dma) :
      CtlStep env .ACT_CMD_ERROR c { c with dev := .Device_Dma_Abort, aborted := true }
  | done {c : Ctl} (h : c.dev = .Transfer_Data_Dma) :
      CtlStep env .ACT_DMA_DONE c { c with start := false }.finish
  | aborted {c : Ctl} (h : c.dev = .Device_Dma_Abort) :
      CtlStep env .ACT_CMD_ERROR c
        { c with start := false, dma := .Dma_Idle, aborted := false }.finish

/-! ## Rules for the programs of a disk -/

variable {k : Unit → IdeM Unit} {action : DevAction}

namespace IdeSide

variable {bad : IdePanic → Prop} {s s' : IdeSide} {env : IdeEnv} {R : Ctl → Prop} {dev : DevState}

@[simp] theorem wp_getDisk {Q : IdeDisk → IdeSide → Prop} :
    wp bad getDisk Q s ↔ Q s.disk s := Iff.rfl

@[simp] theorem wp_modifyDisk {f : IdeDisk → IdeDisk} {Q : Unit → IdeSide → Prop} :
    wp bad (modifyDisk f) Q s ↔ Q () { s with disk := f s.disk } := Iff.rfl

@[simp] theorem wp_panicIf {c : Bool} {e : IdePanic} {Q : Unit → IdeSide → Prop} :
    wp bad (panicIf c e) Q s ↔ (c = true → ¬ bad e) ∧ (c = false → Q () s) := wp_when

/-- Only the three panics of the state machine are bad. -/
def Only (bad : IdePanic → Prop) : Prop :=
  ¬ bad .image ∧ ¬ bad .assertion ∧ ¬ bad .panicked

abbrev MayPost (bad : IdePanic → Prop) (c : Ctl) : Prop := c.intr = true → ¬ bad .postPending

/-- The program leads to a control state with `R`, and leaves the rest alone. -/
def Makes (bad : IdePanic → Prop) (m : IdeM Unit) (R : Ctl → Prop) (s : IdeSide) : Prop :=
  wp bad m (fun _ s' => R s'.ctl ∧ Frame s s') s

namespace Makes

variable {m : IdeM Unit} {R T : Ctl → Prop}

theorem mono (h : Makes bad m R s) (himp : ∀ c, R c → T c) : Makes bad m T s :=
  wp.mono h fun _ s' h' => ⟨himp s'.ctl h'.1, h'.2⟩

theorem bind (h : Makes bad m R s)
    (h' : ∀ t, R t.ctl → Frame s t → Makes bad (k ()) T t) : Makes bad (m >>= k) T s :=
  wp_bind.mpr (wp.mono h fun _ t ht => wp.mono (h' t ht.1 ht.2) fun _ _ hu =>
    ⟨hu.1, ht.2.trans hu.2⟩)

theorem pure (h : R s.ctl) : Makes bad (pure ()) R s := ⟨h, .refl s⟩

theorem getDisk_bind {k : IdeDisk → IdeM Unit} (h : Makes bad (k s.disk) R s) :
    Makes bad (getDisk >>= k) R s := h

theorem modifyDisk_bind {f : IdeDisk → IdeDisk} (hframe : Frame s { s with disk := f s.disk })
    (h : Makes bad (k ()) R { s with disk := f s.disk }) : Makes bad (modifyDisk f >>= k) R s :=
  wp.mono h fun _ _ hu => ⟨hu.1, hframe.trans hu.2⟩

theorem ite {c : Prop} [Decidable c] {m' : IdeM Unit} (h : c → Makes bad m R s)
    (h' : ¬ c → Makes bad m' R s) : Makes bad (if c then m else m') R s :=
  wp_ite.mpr ⟨h, h'⟩

theorem whenever {c : Bool} (h : c = true → Makes bad m R s) (h' : c = false → R s.ctl) :
    Makes bad (Prog.when c m) R s :=
  wp_when.mpr ⟨h, fun hc => ⟨h' hc, .refl s⟩⟩

theorem panicIf_bind {c : Bool} {e : IdePanic} (hpanic : c = true → ¬ bad e)
    (h : c = false → Makes bad (k ()) R s) : Makes bad (panicIf c e >>= k) R s :=
  wp_bind.mpr (wp_panicIf.mpr ⟨hpanic, h⟩)

end Makes

theorem readDisk_makes (hbad : Only bad) (sector : BitVec 32) (off : Nat) :
    Makes bad (readDisk sector off) (· = s.ctl) s := by
  refine .getDisk_bind (.panicIf_bind (fun _ => hbad.1) fun _ => ?_)
  cases s.disk.image.table sector.toNat with
  | some bytes => exact ⟨rfl, rfl, rfl, rfl, rfl, rfl⟩
  | none => exact .panicIf_bind (fun _ => hbad.1) fun _ => ⟨rfl, rfl, rfl, rfl, rfl, rfl⟩

theorem writeDisk_makes (hbad : Only bad) (sector : BitVec 32) (off : Nat) :
    Makes bad (writeDisk sector off) (· = s.ctl) s :=
  .getDisk_bind (.panicIf_bind (fun _ => hbad.1) fun _ => ⟨rfl, rfl, rfl, rfl, rfl, rfl⟩)

theorem intrPost_makes (h : MayPost bad s.ctl) :
    Makes bad intrPost (· = { s.ctl with intr := true }) s :=
  .getDisk_bind (.panicIf_bind h fun _ => ⟨rfl, rfl, rfl, rfl, rfl, rfl⟩)

theorem intrClear_makes (h : s.ctl.intr = false → ¬ bad .clearNotPending) :
    Makes bad intrClear (· = { s.ctl with intr := false }) s :=
  .getDisk_bind (.panicIf_bind (fun hnot => h (Bool.not_eq_eq_eq_not.mp hnot))
    fun _ => ⟨rfl, rfl, rfl, rfl, rfl, rfl⟩)

theorem tell_makes (told untold : DevState) (h : MayPost bad s.ctl) :
    Makes bad (if s.disk.nIENBit then modifyDisk fun d => { d with devState := untold }
      else do
        modifyDisk fun d => { d with devState := told }
        intrPost) (· = Ctl.ready told untold s.ctl) s := by
  unfold Ctl.ready
  refine .ite (fun hmask => ?_) fun hmask => ?_
  · rw [if_pos (show s.ctl.nIEN = true from hmask)]
    exact ⟨rfl, rfl, rfl, rfl, rfl, rfl⟩
  · rw [if_neg (show ¬ s.ctl.nIEN = true from hmask)]
    exact .modifyDisk_bind ⟨rfl, rfl, rfl, rfl, rfl⟩ (intrPost_makes h)

theorem finishCommand_makes (h : MayPost bad s.ctl) :
    Makes bad finishCommand (· = s.ctl.finish) s :=
  tell_makes .Device_Idle_SI .Device_Idle_S h

theorem complete_makes (h : MayPost bad s.ctl) :
    Makes bad (do setComplete; finishCommand) (· = s.ctl.finish) s :=
  .modifyDisk_bind ⟨rfl, rfl, rfl, rfl, rfl⟩ (finishCommand_makes h)

theorem loadBlock_makes (hbad : Only bad) : Makes bad (loadBlock env) (· = s.ctl) s :=
  .getDisk_bind (.ite (fun _ => ⟨rfl, rfl, rfl, rfl, rfl, rfl⟩) fun _ =>
    .modifyDisk_bind ⟨rfl, rfl, rfl, rfl, rfl⟩ (readDisk_makes hbad _ 0))

theorem fillBlock_makes (hbad : Only bad) : Makes bad (fillBlock env) (· = s.ctl) s :=
  .modifyDisk_bind ⟨rfl, rfl, rfl, rfl, rfl⟩ (.bind (loadBlock_makes hbad) fun _ hu _ =>
    ⟨hu, rfl, rfl, rfl, rfl, rfl⟩)

theorem dataInReady_makes (hbad : Only bad) (h : MayPost bad s.ctl) :
    Makes bad (dataInReady env) (· = s.ctl.readyIn) s := by
  refine .modifyDisk_bind ⟨rfl, rfl, rfl, rfl, rfl⟩ ?_
  refine .bind (R := (· = s.ctl)) (fillBlock_makes hbad) fun u hu _ => ?_
  rw [← hu]
  exact .getDisk_bind (tell_makes _ _ (hu ▸ h))

/-- The first block is taken without an interrupt, the others are asked for with one. -/
theorem dataOutReady_makes (h : MayPost bad s.ctl) :
    Makes bad dataOutReady (fun c => c = { s.ctl with dev := .Transfer_Data_Out } ∨
      s.disk.cmdBytesLeft ≠ s.disk.cmdBytes ∧ c = s.ctl.readyOut) s := by
  unfold dataOutReady Makes
  simp only [wp_bind, wp_modifyDisk, wp_getDisk, wp_ite]
  refine ⟨fun _ => ⟨.inl rfl, rfl, rfl, rfl, rfl, rfl⟩, fun hnot => ?_⟩
  have hne := (not_or.mp hnot).1
  have hmask : ¬ s.ctl.nIEN = true := (not_or.mp hnot).2
  refine wp.mono (intrPost_makes h) fun _ u hu => ⟨.inr ⟨hne, hu.1.trans ?_⟩, ?_⟩
  · unfold Ctl.readyOut Ctl.ready
    rw [if_neg hmask]
    rfl
  · exact { hu.2 with }

theorem dmaReady_makes (h : s.ctl.dma ≠ .Dma_Idle → ¬ bad .inconsistent) :
    Makes bad dmaReady (fun c => s.ctl.dma = .Dma_Idle ∧
      c = { s.ctl with dev := .Transfer_Data_Dma, dma := .Dma_Start }) s := by
  refine .modifyDisk_bind ⟨rfl, rfl, rfl, rfl, rfl⟩
    (.getDisk_bind (.panicIf_bind (fun hne => ?_) fun heq => ?_))
  · exact h (bne_iff_ne.mp hne)
  · exact ⟨⟨bne_eq_false_iff_eq.mp heq, rfl⟩, rfl, rfl, rfl, rfl, rfl⟩

theorem setTransfer_bind (hbad : Only bad)
    (h : ∀ t : IdeSide, t.ctl = s.ctl → t.disk.cmdBytesLeft = t.disk.cmdBytes →
      Makes bad (k ()) R t) : Makes bad (setTransfer >>= k) R s := by
  unfold Makes setTransfer
  simp only [wp_bind, wp_getDisk, wp_panicIf, wp_modifyDisk]
  refine ⟨fun _ => hbad.2.2, fun _ => wp.mono (h _ rfl rfl) fun _ u hu => ⟨hu.1, ?_⟩⟩
  exact { hu.2 with }

/-! ## Starting a command -/

structure Startable (bad : IdePanic → Prop) (c : Ctl) : Prop where
  only : Only bad
  intr : MayPost bad c
  dma : c.dma ≠ .Dma_Idle → ¬ bad .inconsistent

theorem preparing_execution (hdev : s.disk.devState = .Command_Execution)
    (h : MayPost bad s.ctl) :
    Makes bad (updatePreparing env .ACT_CMD_COMPLETE) (· = s.ctl.finish) s := by
  refine .getDisk_bind ?_
  rw [hdev]
  exact .whenever (fun _ => complete_makes h) nofun

theorem preparing_in (hdev : s.disk.devState = .Prepare_Data_In) (hbad : Only bad)
    (h : MayPost bad s.ctl) :
    Makes bad (updatePreparing env .ACT_DATA_READY) (· = s.ctl.readyIn) s := by
  refine .getDisk_bind ?_
  rw [hdev]
  exact .ite nofun fun _ => .whenever (fun _ => dataInReady_makes hbad h) nofun

theorem preparing_out (hdev : s.disk.devState = .Prepare_Data_Out)
    (h : MayPost bad s.ctl) :
    Makes bad (updatePreparing env .ACT_DATA_READY) (fun c => c = s.ctl.finish ∨
      c = { s.ctl with dev := .Transfer_Data_Out } ∨
      s.disk.cmdBytesLeft ≠ s.disk.cmdBytes ∧ c = s.ctl.readyOut) s := by
  refine .getDisk_bind ?_
  rw [hdev]
  refine .ite (fun _ => (complete_makes h).mono fun c hc => .inl hc) fun _ => ?_
  exact .whenever (fun _ => (dataOutReady_makes h).mono fun c hc => .inr hc) nofun

theorem preparing_dma (hdev : s.disk.devState = .Prepare_Data_Dma)
    (h : s.ctl.dma ≠ .Dma_Idle → ¬ bad .inconsistent) :
    Makes bad (updatePreparing env .ACT_DMA_READY) (fun c => s.ctl.dma = .Dma_Idle ∧
      c = { s.ctl with dev := .Transfer_Data_Dma, dma := .Dma_Start }) s := by
  refine .getDisk_bind ?_
  rw [hdev]
  exact .ite nofun fun _ => .whenever (fun _ => dmaReady_makes h) nofun

theorem beginCommand_makes (h : ∀ t : IdeSide, t.disk.devState = dev → t.ctl = { s.ctl with dev } →
      t.disk.cmdBytesLeft = s.disk.cmdBytesLeft → t.disk.cmdBytes = s.disk.cmdBytes →
      Makes bad (updatePreparing env action) R t) :
    Makes bad (beginCommand env dev action) R s :=
  .modifyDisk_bind ⟨rfl, rfl, rfl, rfl, rfl⟩ (h _ rfl rfl rfl rfl)

theorem execute_makes (h : Startable bad s.ctl) :
    Makes bad (beginCommand env .Command_Execution .ACT_CMD_COMPLETE) s.ctl.Starts s := by
  refine beginCommand_makes fun t hdev ht _ _ => ?_
  refine (preparing_execution hdev (ht ▸ h.intr)).mono fun c hc => ?_
  rw [hc, ht]
  exact .finished

theorem dataIn_makes (h : Startable bad s.ctl) :
    Makes bad (beginCommand env .Prepare_Data_In .ACT_DATA_READY) s.ctl.Starts s := by
  refine beginCommand_makes fun t hdev ht _ _ => ?_
  refine (preparing_in hdev h.only (ht ▸ h.intr)).mono fun c hc => ?_
  rw [hc, ht]
  exact .dataIn

theorem dataOut_makes (h : Startable bad s.ctl) (hall : s.disk.cmdBytesLeft = s.disk.cmdBytes) :
    Makes bad (beginCommand env .Prepare_Data_Out .ACT_DATA_READY) s.ctl.Starts s := by
  refine beginCommand_makes fun t hdev ht hleft hbytes => ?_
  refine (preparing_out hdev (ht ▸ h.intr)).mono fun c hc => ?_
  rcases hc with hc | hc | ⟨hne, -⟩
  · rw [hc, ht]
    exact .finished
  · rw [hc, ht]
    exact .dataOut
  · exact absurd (hleft.trans (hall.trans hbytes.symm)) hne

theorem dmaIn_makes (h : Startable bad s.ctl) :
    Makes bad (beginCommand env .Prepare_Data_Dma .ACT_DMA_READY) s.ctl.Starts s := by
  refine beginCommand_makes fun t hdev ht _ _ => ?_
  refine (preparing_dma hdev (ht ▸ h.dma)).mono fun c hc => ?_
  rw [hc.2, ht]
  exact .dma (congrArg Ctl.dma ht ▸ hc.1)

theorem startCommand_makes (h : Startable bad s.ctl) :
    Makes bad (startCommand env) s.ctl.Starts s := by
  refine .bind (R := (· = s.ctl)) ⟨rfl, rfl, rfl, rfl, rfl, rfl⟩ fun t ht _ => .getDisk_bind ?_
  rw [← ht] at h ⊢
  cases decode t.disk.cmdReg.command with
  | none => exact h.only.2.2
  | some kind =>
    cases kind with
    | readNativeMax => exact .modifyDisk_bind ⟨rfl, rfl, rfl, rfl, rfl⟩ (execute_makes h)
    | nonData => exact execute_makes h
    | identify => exact .modifyDisk_bind ⟨rfl, rfl, rfl, rfl, rfl⟩ (dataIn_makes h)
    | pioIn =>
      refine setTransfer_bind h.only fun u hu _ => ?_
      rw [← hu] at h ⊢
      exact dataIn_makes h
    | pioOut =>
      refine setTransfer_bind h.only fun u hu hall => ?_
      rw [← hu] at h ⊢
      exact dataOut_makes h hall
    | writeDma =>
      refine .modifyDisk_bind ⟨rfl, rfl, rfl, rfl, rfl⟩ (setTransfer_bind h.only fun u hu _ => ?_)
      rw [← show u.ctl = t.ctl from hu] at h ⊢
      exact dmaIn_makes h
    | readDma =>
      refine setTransfer_bind h.only fun u hu _ => ?_
      rw [← hu] at h ⊢
      exact dmaIn_makes h

/-! ## The state machine -/

structure Sound (bad : IdePanic → Prop) (c : Ctl) : Prop where
  only : Only bad
  post : c.intr = true → ¬ c.Notifies → ¬ bad .postPending
  clear : c.intr = false → c.Notifies → ¬ bad .clearNotPending
  dma : c.dma ≠ .Dma_Idle → c.dev = .Device_Idle_S ∨ c.dev = .Device_Idle_SI → ¬ bad .inconsistent

/-- No panic is bad: what is proved holds if the program returns. -/
def Never (_ : IdePanic) : Prop := False

theorem only_never : Only Never := ⟨not_false, not_false, not_false⟩

theorem sound_never (c : Ctl) : Sound Never c :=
  ⟨only_never, fun _ _ => not_false, fun _ _ => not_false, fun _ _ => not_false⟩

theorem not_notifies {c : Ctl} (hdev : c.dev = dev)
    (hne : dev ≠ .Device_Idle_SI ∧ dev ≠ .Data_Ready_INTRQ_In ∧ dev ≠ .Data_Ready_INTRQ_Out) :
      ¬ c.Notifies := by
  rintro (h | h | h)
  · exact hne.1 (hdev.symm.trans h)
  · exact hne.2.1 (hdev.symm.trans h)
  · exact hne.2.2 (hdev.symm.trans h)

theorem Sound.startable (h : Sound bad s.ctl) (hidle : s.disk.devState = .Device_Idle_S) :
    Startable bad s.ctl := by
  refine ⟨h.only, fun hintr => h.post hintr ?_, fun hdma => h.dma hdma (.inl hidle)⟩
  exact not_notifies hidle (by decide)

theorem Sound.restartable (h : Sound bad s.ctl) (hidle : s.disk.devState = .Device_Idle_SI) :
    Startable bad { s.ctl with intr := false } :=
  ⟨h.only, nofun, fun hdma => h.dma hdma (.inr hidle)⟩

theorem not_urgent {c : Ctl} (hdev : c.dev = dev)
    (hne : dev ≠ .Transfer_Data_Dma ∧ dev ≠ .Device_Dma_Abort) : ¬ c.Urgent action := by
  rintro (⟨h, -⟩ | ⟨h, -⟩)
  · exact hne.1 (hdev.symm.trans h)
  · exact hne.2 (hdev.symm.trans h)

/-- The interrupt is cleared in a state that the guest was told of. -/
theorem clear_makes (dev : DevState) (h : Sound bad s.ctl) (hold : s.ctl.Notifies) :
    Makes bad (do modifyDisk fun d => { d with devState := dev }; intrClear)
      (· = { s.ctl with dev, intr := false }) s :=
  .modifyDisk_bind ⟨rfl, rfl, rfl, rfl, rfl⟩ (intrClear_makes fun hnone => h.clear hnone hold)

theorem dataRead_makes (hdev : s.disk.devState = .Transfer_Data_In) (hbad : Only bad)
    (h : MayPost bad s.ctl) :
    Makes bad (dataRead env) (CtlStep env .ACT_DATA_READ_SHORT s.ctl) s := by
  refine .modifyDisk_bind ⟨rfl, rfl, rfl, rfl, rfl⟩ (.getDisk_bind (.ite (fun _ => ?_) fun _ =>
    .ite (fun _ => ?_) fun _ => .modifyDisk_bind ⟨rfl, rfl, rfl, rfl, rfl⟩ ?_))
  · exact ⟨.ignored (not_urgent hdev (by decide)), rfl, rfl, rfl, rfl, rfl⟩
  · exact ⟨.lastIn hdev, rfl, rfl, rfl, rfl, rfl⟩
  · refine .mono (preparing_in rfl hbad h) fun c hc => ?_
    rw [hc]
    exact .blockIn hdev

theorem dataWritten_makes (hdev : s.disk.devState = .Transfer_Data_Out) (hbad : Only bad)
    (h : MayPost bad s.ctl) :
    Makes bad (dataWritten env) (CtlStep env .ACT_DATA_WRITE_SHORT s.ctl) s := by
  have hdev' : s.ctl.dev = .Transfer_Data_Out := hdev
  have hstay : ¬ s.ctl.Urgent .ACT_DATA_WRITE_SHORT := not_urgent hdev' (by decide)
  refine .modifyDisk_bind ⟨rfl, rfl, rfl, rfl, rfl⟩
    (.getDisk_bind (.whenever (fun _ => ?_) fun _ => .ignored hstay))
  refine .modifyDisk_bind ⟨rfl, rfl, rfl, rfl, rfl⟩ ?_
  refine .bind (R := (· = s.ctl)) (writeDisk_makes hbad _ _) fun t ht _ => ?_
  rw [← ht] at h hdev' hstay ⊢
  refine .modifyDisk_bind ⟨rfl, rfl, rfl, rfl, rfl⟩ (.mono (preparing_out rfl h) fun c hc => ?_)
  rcases hc with rfl | rfl | ⟨-, rfl⟩
  · exact .lastOut hdev'
  · rw [← hdev']
    exact .ignored hstay
  · exact .blockOut hdev'

theorem finishDma_makes : Makes bad finishDma (· = { s.ctl with start := false }) s := by
  have hbit : (s.bmi 0 &&& ~~~1).getLsbD 0 = false := by
    rw [BitVec.getLsbD_and]
    exact Bool.and_false _
  refine ⟨?_, rfl, rfl, rfl, rfl, rfl⟩
  exact congrArg (fun b => ({ s.ctl with start := b } : Ctl)) hbit

/-- An interrupt that is pending in a disk that was not selected would be posted again, which
panics. -/
theorem reselect_makes (h : MayPost bad s.ctl) :
    Makes bad (Prog.when (!s.disk.nIENBit && s.disk.intrPending) (do
      modifyDisk fun d => { d with devState := .Device_Idle_SI }
      intrPost)) (fun c => c = s.ctl ∧ (s.ctl.nIEN = true ∨ s.ctl.intr = false)) s := by
  refine .whenever (fun hboth => ?_) fun hnot => ⟨rfl, ?_⟩
  · obtain ⟨-, hintr⟩ := Bool.and_eq_true_iff.mp hboth
    refine .bind (R := fun c => c.intr = true) ⟨hintr, rfl, rfl, rfl, rfl, rfl⟩ fun t ht _ => ?_
    refine .getDisk_bind (.panicIf_bind (fun _ => h hintr) fun hnone => ?_)
    cases ht.symm.trans hnone
  · rcases Bool.and_eq_false_iff.mp hnot with hmask | hintr
    · exact .inl (Bool.not_eq_eq_eq_not.mp hmask)
    · exact .inr hintr

theorem updateState_makes (h : Sound bad s.ctl) (hrest : s.ctl.Resting) (action : DevAction) :
    Makes bad (updateState env action) (CtlStep env action s.ctl) s := by
  have hstay {dev : DevState} (hdev : s.ctl.dev = dev)
      (hne : dev ≠ .Transfer_Data_Dma ∧ dev ≠ .Device_Dma_Abort) : CtlStep env action s.ctl s.ctl :=
    .ignored (not_urgent hdev hne)
  refine .getDisk_bind ?_
  cases hdev : s.disk.devState with
  | Device_Srst =>
    refine .ite (fun _ => ⟨hstay hdev (by decide), rfl, rfl, rfl, rfl, rfl⟩) fun _ =>
      .whenever (fun hclear => ?_) ?_
    · cases beq_iff_eq.mp hclear
      exact ⟨.srst hdev, rfl, rfl, rfl, rfl, rfl⟩
    · exact fun _ => hstay hdev (by decide)
  | Device_Idle_S =>
    refine .ite (fun hsel => ?_) fun _ => .whenever (fun hcmd => ?_) fun _ => hstay hdev (by decide)
    · obtain ⟨rfl, hnot⟩ := hsel
      exact ⟨.deselect hdev hnot, rfl, rfl, rfl, rfl, rfl⟩
    · cases beq_iff_eq.mp hcmd
      exact (startCommand_makes (h.startable hdev)).mono fun c hc => .started hdev hc
  | Device_Idle_SI =>
    refine .ite (fun hsel => ?_) fun _ => .ite (fun hcause => ?_) fun hcause => ?_
    · obtain ⟨rfl, hnot⟩ := hsel
      exact (clear_makes .Device_Idle_NS h (.inl hdev)).mono fun c hc =>
        hc ▸ .deselectTold hdev hnot
    · exact (clear_makes .Device_Idle_S h (.inl hdev)).mono fun c hc => hc ▸ .cleared hdev hcause
    · refine .whenever (fun hcmd => ?_) fun _ => hstay hdev (by decide)
      cases beq_iff_eq.mp hcmd
      have hmask : s.ctl.nIEN = false := Bool.eq_false_iff.mpr (not_or.mp hcause).2
      refine .bind (intrClear_makes fun hnone => h.clear hnone (.inl hdev)) fun t ht _ => ?_
      have hstart := h.restartable hdev
      rw [← ht] at hstart
      exact (startCommand_makes hstart).mono fun c hc => .restarted hdev hmask (ht ▸ hc)
  | Device_Idle_NS =>
    refine .whenever (fun hsel => ?_) fun _ => hstay hdev (by decide)
    obtain ⟨haction, hsel⟩ := Bool.and_eq_true_iff.mp hsel
    cases beq_iff_eq.mp haction
    refine .bind (reselect_makes fun hintr => h.post hintr (not_notifies hdev (by decide)))
      fun t ht _ => .getDisk_bind (.whenever (fun _ => ?_) fun hmask => ?_)
    · have hstep := CtlStep.select hdev hsel ht.2
      rw [← ht.1] at hstep ⊢
      exact ⟨hstep, rfl, rfl, rfl, rfl, rfl⟩
    · rw [ht.1]
      exact hstay hdev (by decide)
  | Command_Execution => exact absurd hdev hrest.1
  | Prepare_Data_In => exact absurd hdev hrest.2.1
  | Data_Ready_INTRQ_In =>
    refine .whenever (fun hstat => ?_) fun _ => hstay hdev (by decide)
    cases beq_iff_eq.mp hstat
    exact (clear_makes .Transfer_Data_In h (.inr (.inl hdev))).mono fun c hc => hc ▸ .readIn hdev
  | Transfer_Data_In =>
    refine .whenever (fun hread => ?_) fun _ => hstay hdev (by decide)
    cases beq_iff_eq.mp hread
    exact dataRead_makes hdev h.only fun hintr => h.post hintr (not_notifies hdev (by decide))
  | Prepare_Data_Out => exact absurd hdev hrest.2.2.1
  | Data_Ready_INTRQ_Out =>
    refine .whenever (fun hstat => ?_) fun _ => hstay hdev (by decide)
    cases beq_iff_eq.mp hstat
    exact (clear_makes .Transfer_Data_Out h (.inr (.inr hdev))).mono fun c hc => hc ▸ .readOut hdev
  | Transfer_Data_Out =>
    refine .whenever (fun hwrite => ?_) fun _ => hstay hdev (by decide)
    cases beq_iff_eq.mp hwrite
    exact dataWritten_makes hdev h.only fun hintr => h.post hintr (not_notifies hdev (by decide))
  | Prepare_Data_Dma => exact absurd hdev hrest.2.2.2
  | Transfer_Data_Dma =>
    refine .ite (fun herror => ?_) fun herror => .whenever (fun hdone => ?_) fun hdone => ?_
    · cases herror
      exact ⟨.abort hdev, rfl, rfl, rfl, rfl, rfl⟩
    · cases beq_iff_eq.mp hdone
      refine .bind finishDma_makes fun t ht _ => ?_
      have hpost : t.ctl.intr = true → ¬ bad .postPending := fun hintr =>
        h.post (by rw [ht] at hintr; exact hintr) (not_notifies hdev (by decide))
      exact (finishCommand_makes hpost).mono fun c hc => by
        rw [hc, ht]
        exact .done hdev
    · refine .ignored ?_
      rintro (⟨-, h | h⟩ | ⟨h, -⟩)
      · exact herror h
      · exact beq_eq_false_iff_ne.mp hdone h
      · cases hdev.symm.trans h
  | Device_Dma_Abort =>
    refine .whenever (fun herror => ?_) fun herror => .ignored ?_
    swap
    · rintro (⟨h, -⟩ | ⟨-, h⟩)
      · cases hdev.symm.trans h
      · exact beq_eq_false_iff_ne.mp herror h
    cases beq_iff_eq.mp herror
    refine .bind finishDma_makes fun t ht _ => ?_
    refine .bind (R := (· = { t.ctl with aborted := false, dma := .Dma_Idle }))
      ⟨rfl, rfl, rfl, rfl, rfl, rfl⟩ fun u hu _ => ?_
    have hpost : u.ctl.intr = true → ¬ bad .postPending := fun hintr =>
      h.post (by rw [hu, ht] at hintr; exact hintr) (not_notifies hdev (by decide))
    exact (finishCommand_makes hpost).mono fun c hc => by
      rw [hc, hu, ht]
      exact .aborted hdev

/-! ## Register accesses -/

/-- A property of the control state that the actions in `A` keep, and that rules the bad panics
out. -/
structure Closed (bad : IdePanic → Prop) (env : IdeEnv) (A : DevAction → Prop) (I : Ctl → Prop) :
    Prop where
  sound : ∀ c, I c → Sound bad c
  resting : ∀ c, I c → c.Resting
  step : ∀ c c' action, A action → I c → CtlStep env action c c' → I c'

/-- What an access to a command register does to the state machine. -/
def GuestAction (action : DevAction) : Prop :=
  action = .ACT_CMD_WRITE ∨ action = .ACT_SELECT_WRITE ∨ action = .ACT_STAT_READ ∨
    action = .ACT_DATA_READ_SHORT ∨ action = .ACT_DATA_WRITE_SHORT

section Accesses

variable {A : DevAction → Prop} {I : Ctl → Prop}

theorem Closed.updateState (hI : Closed bad env A I) (hA : A action)
    (h : I s.ctl) : Makes bad (updateState env action) I s :=
  (updateState_makes (hI.sound _ h) (hI.resting _ h) action).mono fun c hc =>
    hI.step _ c action hA h hc

theorem readData_keeps (hI : Closed bad env GuestAction I) (hs : I s.ctl) (size : Nat) :
    wp bad (readData env size) (fun _ s' => I s'.ctl ∧ Frame s s') s := by
  have hread : GuestAction .ACT_DATA_READ_SHORT := .inr (.inr (.inr (.inl rfl)))
  unfold readData
  simp only [wp_bind, wp_getDisk, wp_ite, wp_pure, wp_throw]
  refine ⟨fun _ => hI.updateState hread hs, fun _ => ⟨fun _ => ?_, fun _ => ?_⟩⟩
  · refine wp.mono (hI.updateState hread hs) fun _ t ht => ?_
    exact wp.mono (hI.updateState hread ht.1) fun _ u hu => ⟨hu.1, ht.2.trans hu.2⟩
  · exact (hI.sound _ hs).only.2.2

theorem readCommand_keeps (hI : Closed bad env GuestAction I) (hs : I s.ctl) (offset size : Nat) :
    wp bad (readCommand env offset size) (fun _ s' => I s'.ctl ∧ Frame s s') s := by
  have hsame : I s.ctl ∧ Frame s s := ⟨hs, .refl s⟩
  have honly := (hI.sound _ hs).only
  unfold readCommand
  simp only [wp_bind, wp_getDisk, wp_ite, wp_panicIf]
  refine ⟨fun _ => readData_keeps hI hs size, fun _ => ⟨fun _ => honly.2.1, fun _ => ?_⟩⟩
  split
  case h_7 =>
    simp only [wp_bind, wp_pure]
    exact hI.updateState (.inr (.inr (.inl rfl))) hs
  case h_8 => exact honly.2.2
  all_goals exact hsame

theorem setReg_keeps (f : CommandReg → CommandReg) (hs : I s.ctl) : Makes bad (setReg f) I s :=
  ⟨hs, rfl, rfl, rfl, rfl, rfl⟩

theorem writeWord_keeps (hI : Closed bad env GuestAction I) (hs : I s.ctl) (data : List Byte) :
    Makes bad (writeWord env data) I s :=
  .bind (setReg_keeps _ hs) fun _ ht _ => hI.updateState (.inr (.inr (.inr (.inr rfl)))) ht

theorem writeCommand_keeps (hI : Closed bad env GuestAction I) (hs : I s.ctl) (offset : Nat)
    (data : List Byte) : Makes bad (writeCommand env offset data) I s := by
  have honly := (hI.sound _ hs).only
  refine .ite (fun _ => ?_) fun _ => .panicIf_bind (fun _ => honly.2.1) fun _ => ?_
  · refine .ite (fun _ => writeWord_keeps hI hs _) fun _ => .ite (fun _ => ?_) fun _ => honly.2.2
    exact .bind (writeWord_keeps hI hs _) fun _ ht _ => writeWord_keeps hI ht _
  · split
    case h_1 => exact .pure hs
    case h_6 =>
      exact .bind (setReg_keeps _ hs) fun _ ht _ => hI.updateState (.inr (.inl rfl)) ht
    case h_7 => exact .bind (setReg_keeps _ hs) fun _ ht _ => hI.updateState (.inl rfl) ht
    case h_8 => exact honly.2.2
    all_goals exact setReg_keeps _ hs

end Accesses

theorem softReset_makes (rst : Bool) : Makes bad (softReset env rst)
    (· = if rst then { s.ctl with dev := .Device_Srst }
      else if s.ctl.dev = .Device_Srst then s.ctl.reset env.isSlave else s.ctl) s := by
  refine .getDisk_bind (.ite (fun hrst => ?_) fun hrst => .whenever (fun hdev => ?_) fun hdev => ?_)
  · rw [if_pos hrst]
    exact ⟨rfl, rfl, rfl, rfl, rfl, rfl⟩
  · have hdev : s.disk.devState = .Device_Srst := beq_iff_eq.mp hdev
    rw [if_neg hrst, if_pos (show s.ctl.dev = .Device_Srst from hdev)]
    refine .getDisk_bind ?_
    rw [hdev]
    exact ⟨rfl, rfl, rfl, rfl, rfl, rfl⟩
  · have hdev : ¬ s.ctl.dev = .Device_Srst := beq_eq_false_iff_ne.mp hdev
    rw [if_neg hrst, if_neg hdev]

theorem writeControl_makes (hbad : Only bad) (offset : Nat) (data : List Byte) :
    Makes bad (writeControl env offset data)
      (· = s.ctl.control env.isSlave (data.headD 0)) s := by
  refine .panicIf_bind (fun _ => hbad.2.2) fun _ => .bind (softReset_makes _) fun t ht _ => ?_
  refine ⟨?_, rfl, rfl, rfl, rfl, rfl⟩
  unfold Ctl.control
  rw [← ht]
  rfl

theorem readControl_wp (hbad : Only bad) (offset size : Nat) :
    wp bad (readControl offset size) (fun _ s' => s' = s) s := by
  unfold readControl
  simp only [wp_bind, wp_getDisk, wp_panicIf, wp_pure]
  exact ⟨fun _ => hbad.2.1, fun _ => ⟨fun _ => hbad.2.2, fun _ => trivial⟩⟩

/-! ## DMA -/

/-- The events of the disk that are scheduled and the transfer that is under way. -/
def acts (s : IdeSide) : Nat := s.disk.scheduled.length + s.disk.transfer.toList.length

theorem Frame.acts (h : Frame s s') : s'.acts = s.acts := by
  unfold IdeSide.acts
  rw [h.scheduled, h.transfer]

/-- The disk has one more event or transfer to wait for, in the same control state. -/
def Waits (bad : IdePanic → Prop) (m : IdeM Unit) (s : IdeSide) : Prop :=
  wp bad m (fun _ s' => s'.ctl = s.ctl ∧ s'.acts = s.acts + 1) s

theorem schedule_waits (hbad : Only bad) (e : DiskEvent) : Waits bad (schedule e) s := by
  unfold Waits schedule
  simp only [wp_bind, wp_getDisk, wp_panicIf, wp_modifyDisk]
  exact ⟨fun _ => hbad.2.1, fun _ => ⟨rfl, Nat.add_right_comm _ _ _⟩⟩

structure Moved (s s' : IdeSide) : Prop where
  ctl : s'.ctl = s.ctl
  scheduled : s'.disk.scheduled = s.disk.scheduled
  transfer : s'.disk.transfer = s.disk.transfer

theorem Moved.acts (h : Moved s s') : s'.acts = s.acts := by
  unfold IdeSide.acts
  rw [h.scheduled, h.transfer]

theorem move_moved (isRead : Bool) (target : DmaTarget) (c : ChunkGen.Chunk) (s : IdeSide) :
    Moved s (move isRead target c s) := by
  cases target with
  | prd | buffer id off => cases isRead <;> exact ⟨rfl, rfl, rfl⟩

theorem foldl_move_moved (isRead : Bool) (target : DmaTarget) (pieces : List ChunkGen.Chunk)
    (s : IdeSide) : Moved s (pieces.foldl (fun s c => move isRead target c s) s) := by
  induction pieces generalizing s with
  | nil => exact ⟨rfl, rfl, rfl⟩
  | cons c pieces ih =>
    have hone := move_moved isRead target c s
    have hrest := ih (move isRead target c s)
    exact ⟨hrest.ctl.trans hone.ctl, hrest.scheduled.trans hone.scheduled,
      hrest.transfer.trans hone.transfer⟩

theorem dmaAction_waits (hbad : Only bad) (hfree : s.disk.transfer = none) (isRead : Bool)
    (addr : Addr) (size : Nat) (e : DiskEvent) (target : DmaTarget) :
    Waits bad (dmaAction env isRead addr size e target) s := by
  unfold Waits dmaAction
  cases env.mode with
  | atomic =>
    have hmoved := foldl_move_moved isRead target (ChunkGen.all addr size env.cacheLineSize) s
    simp only [wp_bind, wp_modify]
    refine wp.mono (schedule_waits hbad e) fun _ u hu => ⟨hu.1.trans hmoved.ctl, ?_⟩
    rw [hu.2, hmoved.acts]
  | timing =>
    refine ⟨rfl, ?_⟩
    unfold acts
    rw [hfree]
    rfl

/-- What an event of the disk leads to: the engine waits for the next event, the command was
aborted, or its last entry is done. -/
inductive EventStep (env : IdeEnv) (s s' : IdeSide) : Prop
  | waits (hgo : s.ctl.aborted = false) (hctl : s'.ctl = s.ctl) (hacts : s'.acts = s.acts + 1)
  | aborts (habort : s.ctl.aborted = true) (hctl : CtlStep env .ACT_CMD_ERROR s.ctl s'.ctl)
      (hacts : s'.acts = s.acts)
  | ends (hgo : s.ctl.aborted = false)
      (hctl : CtlStep env .ACT_DMA_DONE { s.ctl with dma := .Dma_Idle } s'.ctl)
      (hacts : s'.acts = s.acts)

structure Runnable (bad : IdePanic → Prop) (env : IdeEnv) (s : IdeSide) : Prop where
  sound : Sound bad s.ctl
  soundEnd : Sound bad { s.ctl with dma := .Dma_Idle }
  resting : s.ctl.Resting
  free : env.busy = false → s.disk.transfer = none
  running : s.ctl.aborted = false →
    s.ctl.dma = .Dma_Transfer ∧ s.ctl.dev = .Transfer_Data_Dma ∨ ¬ bad .inconsistent

theorem Waits.step {m : IdeM Unit} (h : Waits bad m s) (hgo : s.ctl.aborted = false) :
    wp bad m (fun _ s' => EventStep env s s') s :=
  wp.mono h fun _ _ ht => .waits hgo ht.1 ht.2

/-- The engine works on the same command, as long as the same events are to come. -/
theorem Runnable.of_same (h : Runnable bad env s) (hctl : s'.ctl = s.ctl)
    (htransfer : s'.disk.transfer = s.disk.transfer) : Runnable bad env s' :=
  ⟨hctl ▸ h.sound, hctl ▸ h.soundEnd, hctl ▸ h.resting, htransfer ▸ h.free, hctl ▸ h.running⟩

theorem EventStep.of_same {t : IdeSide} (h : EventStep env s t) (hctl : s.ctl = s'.ctl)
    (hacts : s.acts = s'.acts) : EventStep env s' t := by
  cases h with
  | waits hgo hctl' hacts' => exact .waits (hctl ▸ hgo) (hctl'.trans hctl) (hacts ▸ hacts')
  | aborts habort hctl' hacts' => exact .aborts (hctl ▸ habort) (hctl ▸ hctl') (hacts'.trans hacts)
  | ends hgo hctl' hacts' => exact .ends (hctl ▸ hgo) (hctl ▸ hctl') (hacts'.trans hacts)

theorem dmaRead_waits (hbad : Only bad) (hfree : s.disk.transfer = none) (addr : Addr) (size : Nat)
    (e : DiskEvent) (off : Nat) : Waits bad (dmaRead env addr size e off) s := by
  refine wp_bind.mpr (wp_getDisk.mpr (wp_bind.mpr ?_))
  exact wp.mono (dmaAction_waits hbad hfree true addr size e _) fun _ t ht =>
    wp_when.mpr ⟨fun _ => ht, fun _ => ht⟩

theorem dmaWrite_waits (hbad : Only bad) (hfree : s.disk.transfer = none) (addr : Addr) (size : Nat)
    (e : DiskEvent) (off : Nat) : Waits bad (dmaWrite env addr size e off) s := by
  refine wp_bind.mpr (wp_when.mpr ⟨fun _ => ?_, fun _ => ?_⟩)
  · exact dmaAction_waits (s := { s with disk := s.disk.setBuffer _ })
      hbad hfree false addr size e _
  · exact dmaAction_waits hbad hfree false addr size e _

theorem aborted_step (h : Runnable bad env s) (habort : s.ctl.aborted = true) :
    wp bad (updateState env .ACT_CMD_ERROR) (fun _ s' => EventStep env s s') s :=
  wp.mono (updateState_makes h.sound h.resting .ACT_CMD_ERROR) fun _ _ ht =>
    .aborts habort ht.1 ht.2.acts

theorem doDmaTransfer_step (h : Runnable bad env s) :
    wp bad (doDmaTransfer env) (fun _ s' => EventStep env s s') s := by
  have hbad := h.sound.only
  unfold doDmaTransfer
  simp only [wp_bind, wp_getDisk, wp_ite, wp_panicIf]
  refine ⟨aborted_step h, fun hgo => ⟨fun hpanic => ?_, fun _ => ⟨fun _ => ?_, fun hidle => ?_⟩⟩⟩
  · have hgo : s.ctl.aborted = false := Bool.eq_false_iff.mpr hgo
    rcases h.running hgo with ⟨hdma, hdev⟩ | hnot
    · rw [show s.disk.dmaState = .Dma_Transfer from hdma,
        show s.disk.devState = .Transfer_Data_Dma from hdev] at hpanic
      cases hpanic
    · exact hnot
  · exact (schedule_waits hbad _).step (Bool.eq_false_iff.mpr hgo)
  · have hfree := h.free (Bool.eq_false_iff.mpr hidle)
    exact (dmaAction_waits hbad hfree true _ _ _ _).step (Bool.eq_false_iff.mpr hgo)

theorem storeSectors_makes (hbad : Only bad) (off n : Nat) :
    Makes bad (storeSectors off n) (· = s.ctl) s := by
  induction n generalizing s off with
  | zero => exact .pure rfl
  | succ n ih =>
    refine .getDisk_bind (.bind ⟨rfl, rfl, rfl, rfl, rfl, rfl⟩ fun t ht _ => ?_)
    refine .bind (R := (· = s.ctl)) (ht ▸ writeDisk_makes hbad _ _) fun u hu _ => ?_
    rw [← hu]
    exact ih _

theorem loadSectors_makes (hbad : Only bad) (off n : Nat) :
    Makes bad (loadSectors off n) (· = s.ctl) s := by
  induction n generalizing s off with
  | zero => exact .pure rfl
  | succ n ih =>
    refine .getDisk_bind (.bind ⟨rfl, rfl, rfl, rfl, rfl, rfl⟩ fun t ht _ => ?_)
    refine .bind (R := (· = s.ctl)) (ht ▸ readDisk_makes hbad _ _) fun u hu _ => ?_
    rw [← hu]
    exact ih _

theorem entryDone_step (h : Runnable bad env s) (hgo : s.ctl.aborted = false) :
    wp bad (entryDone env) (fun _ s' => EventStep env s s') s := by
  unfold entryDone
  simp only [wp_bind, wp_getDisk, wp_ite, wp_panicIf, wp_modifyDisk]
  refine ⟨fun _ => ⟨fun _ => h.sound.only.2.1, fun _ => ?_⟩, fun _ => doDmaTransfer_step h⟩
  refine wp.mono (updateState_makes (s := { s with disk := { s.disk with dmaState := .Dma_Idle } })
    h.soundEnd h.resting .ACT_DMA_DONE) fun _ t ht => ?_
  exact .ends hgo ht.1 ht.2.acts

theorem dmaReadDone_step (h : Runnable bad env s) (hgo : s.ctl.aborted = false) :
    wp bad (dmaReadDone env) (fun _ s' => EventStep env s s') s := by
  refine wp_bind.mpr (wp_getDisk.mpr (wp_bind.mpr ?_))
  refine wp.mono (storeSectors_makes h.sound.only _ _) fun _ t ht => ?_
  exact wp.mono (entryDone_step (h.of_same ht.1 ht.2.transfer) (ht.1 ▸ hgo)) fun _ _ hu =>
    hu.of_same ht.1 ht.2.acts

theorem doDmaDataWrite_waits (hbad : Only bad) : Waits bad doDmaDataWrite s := by
  unfold Waits doDmaDataWrite
  simp only [wp_bind, wp_getDisk, wp_panicIf, wp_modifyDisk]
  refine ⟨fun _ => hbad.2.1, fun _ => ?_⟩
  refine wp.mono (loadSectors_makes hbad _ _) fun _ t ht => ?_
  refine wp.mono (schedule_waits hbad _) fun _ u hu => ⟨hu.1.trans ht.1, ?_⟩
  rw [hu.2, ht.2.acts]
  rfl

theorem dmaPrdReadDone_step (h : Runnable bad env s) :
    wp bad (dmaPrdReadDone env) (fun _ s' => EventStep env s s') s := by
  have hbad := h.sound.only
  unfold dmaPrdReadDone
  simp only [wp_bind, wp_getDisk, wp_ite, wp_modifyDisk]
  refine ⟨aborted_step h, fun hgo => ⟨fun _ => ?_, fun _ => ?_⟩⟩
  · exact wp.mono (schedule_waits hbad _) fun _ t ht => .waits (Bool.eq_false_iff.mpr hgo) ht.1 ht.2
  · exact wp.mono (doDmaDataWrite_waits hbad) fun _ t ht =>
      .waits (Bool.eq_false_iff.mpr hgo) ht.1 ht.2

theorem readChunk_step (h : Runnable bad env s) (hgo : s.ctl.aborted = false) (g : ChunkGen) :
    wp bad (readChunk env g) (fun _ s' => EventStep env s s') s := by
  unfold readChunk
  have hbad := h.sound.only
  simp only [wp_bind, wp_ite, wp_panicIf, wp_modifyDisk]
  refine ⟨fun _ => ?_, fun hidle => ⟨fun _ => ⟨fun _ => hbad.2.1, fun _ => ?_⟩, fun _ => ?_⟩⟩
  · exact (schedule_waits hbad _).step hgo
  · have hfree := h.free (Bool.eq_false_iff.mpr hidle)
    exact wp.mono (dmaRead_waits hbad hfree _ _ _ _) fun _ t ht => .waits hgo ht.1 ht.2
  · exact wp.mono (dmaReadDone_step (h.of_same rfl rfl) hgo) fun _ _ ht => ht.of_same rfl rfl

theorem doDmaRead_step (h : Runnable bad env s) :
    wp bad (doDmaRead env) (fun _ s' => EventStep env s s') s := by
  unfold doDmaRead
  simp only [wp_bind, wp_getDisk]
  refine wp_ite.mpr ⟨fun habort => ?_, fun hgo => ?_⟩
  · exact wp.mono (aborted_step (h.of_same rfl rfl) habort) fun _ _ ht => ht.of_same rfl rfl
  · have hgo : s.ctl.aborted = false := Bool.eq_false_iff.mpr hgo
    refine wp_bind.mpr (wp_when.mpr ⟨fun _ => ?_, fun _ => ?_⟩)
    · refine wp_modifyDisk.mpr (wp_bind.mpr (wp_getDisk.mpr ?_))
      refine wp.mono (readChunk_step (h.of_same ?_ ?_) ?_ _) fun _ _ ht => ht.of_same rfl rfl
      · rfl
      · rfl
      · exact hgo
    · exact wp_bind.mpr (wp_getDisk.mpr (readChunk_step h hgo _))

theorem writeChunk_step (h : Runnable bad env s) (hgo : s.ctl.aborted = false) (g : ChunkGen) :
    wp bad (writeChunk env g) (fun _ s' => EventStep env s s') s := by
  unfold writeChunk
  have hbad := h.sound.only
  simp only [wp_bind, wp_ite, wp_panicIf, wp_modifyDisk]
  refine ⟨fun _ => ?_, fun hidle => ⟨fun _ => ⟨fun _ => hbad.2.1, fun _ => ?_⟩, fun _ => ?_⟩⟩
  · exact (schedule_waits hbad _).step hgo
  · have hfree := h.free (Bool.eq_false_iff.mpr hidle)
    exact wp.mono (dmaWrite_waits hbad hfree _ _ _ _) fun _ t ht => .waits hgo ht.1 ht.2
  · exact wp.mono (entryDone_step (h.of_same rfl rfl) hgo) fun _ _ ht => ht.of_same rfl rfl

theorem doDmaWrite_step (h : Runnable bad env s) :
    wp bad (doDmaWrite env) (fun _ s' => EventStep env s s') s := by
  unfold doDmaWrite
  simp only [wp_bind, wp_getDisk]
  refine wp_ite.mpr ⟨fun habort => ?_, fun hgo => ?_⟩
  · exact wp.mono (aborted_step (h.of_same rfl rfl) habort) fun _ _ ht => ht.of_same rfl rfl
  · have hgo : s.ctl.aborted = false := Bool.eq_false_iff.mpr hgo
    refine wp_bind.mpr (wp_when.mpr ⟨fun _ => ?_, fun _ => ?_⟩)
    · refine wp_modifyDisk.mpr (wp_bind.mpr (wp_getDisk.mpr ?_))
      refine wp.mono (writeChunk_step (h.of_same ?_ ?_) ?_ _) fun _ _ ht => ht.of_same rfl rfl
      · rfl
      · rfl
      · exact hgo
    · exact wp_bind.mpr (wp_getDisk.mpr (writeChunk_step h hgo _))

theorem process_step (h : Runnable bad env s) (e : DiskEvent) :
    wp bad (process env e) (fun _ s' => EventStep env s s') s := by
  cases e with
  | dmaTransferEvent => exact doDmaTransfer_step h
  | dmaPrdReadEvent => exact dmaPrdReadDone_step h
  | dmaReadWaitEvent => exact doDmaRead_step h
  | dmaWriteWaitEvent => exact doDmaWrite_step h

theorem startDma_wp (hbad : Only bad) (table : BitVec 32)
    (h : s.ctl.dma = .Dma_Start ∧ s.ctl.dev = .Transfer_Data_Dma ∨ ¬ bad .inconsistent) :
    wp bad (startDma table) (fun _ s' => s.ctl.dma = .Dma_Start ∧ s.ctl.dev = .Transfer_Data_Dma ∧
      s'.ctl = { s.ctl with dma := .Dma_Transfer } ∧ s'.acts = s.acts + 1) s := by
  unfold startDma
  simp only [wp_bind, wp_getDisk, wp_panicIf, wp_modifyDisk]
  refine ⟨fun hdma => ?_, fun hdma => ⟨fun hdev => ?_, fun hdev => ?_⟩⟩
  · rcases h with ⟨hstart, -⟩ | hnot
    · exact absurd hstart (bne_iff_ne.mp hdma)
    · exact hnot
  · rcases h with ⟨-, hmid⟩ | hnot
    · exact absurd hmid (bne_iff_ne.mp hdev)
    · exact hnot
  · refine wp.mono (schedule_waits hbad _) fun _ t ht => ?_
    exact ⟨bne_eq_false_iff_eq.mp hdma, bne_eq_false_iff_eq.mp hdev, ht.1, ht.2⟩

theorem abortDma_makes
    (h : s.ctl.dma ≠ .Dma_Idle ∧ s.ctl.dev = .Transfer_Data_Dma ∨ ¬ bad .inconsistent)
    (hsound : Sound bad s.ctl) (hrest : s.ctl.Resting) :
    Makes bad (abortDma env) (fun c => s.ctl.dma ≠ .Dma_Idle ∧ s.ctl.dev = .Transfer_Data_Dma ∧
      CtlStep env .ACT_CMD_ERROR s.ctl c) s := by
  refine .getDisk_bind (.panicIf_bind (fun hdma => ?_) fun hdma => .panicIf_bind (fun hdev => ?_)
    fun hdev => ?_)
  · rcases h with ⟨hne, -⟩ | hnot
    · exact absurd (beq_iff_eq.mp hdma) hne
    · exact hnot
  · rcases h with ⟨-, hmid⟩ | hnot
    · rw [show s.disk.devState = .Transfer_Data_Dma from hmid] at hdev
      cases hdev
    · exact hnot
  · have hne : s.ctl.dma ≠ .Dma_Idle := beq_eq_false_iff_ne.mp hdma
    have hmid : s.ctl.dev = .Transfer_Data_Dma := by
      rcases Bool.and_eq_false_iff.mp hdev with heq | heq
      · exact bne_eq_false_iff_eq.mp heq
      · exact absurd (bne_eq_false_iff_eq.mp heq) hrest.2.2.2
    exact (updateState_makes hsound hrest .ACT_CMD_ERROR).mono fun c hc => ⟨hne, hmid, hc⟩

theorem ack_wp (hbad : Only bad) :
    wp bad ack (fun _ s' => s'.ctl = s.ctl ∧ s'.acts = s.acts) s := by
  unfold ack
  simp only [wp_bind, wp_getDisk]
  cases ht : s.disk.transfer with
  | none => exact ⟨rfl, rfl⟩
  | some t =>
    refine wp.mono (schedule_waits
      hbad _) fun _ u hu => ⟨hu.1, hu.2.trans ?_⟩
    unfold acts
    rw [ht]
    rfl

theorem serve_ctl (i : Nat) (s : IdeSide) :
    (serve i s).ctl = s.ctl ∧ (serve i s).acts = s.acts := by
  unfold serve
  cases ht : s.disk.transfer with
  | none => exact ⟨rfl, rfl⟩
  | some t =>
    dsimp only
    cases hc : t.pieces[i]? with
    | none => exact ⟨rfl, rfl⟩
    | some c =>
      have hmoved := move_moved t.isRead t.target c s
      refine ⟨hmoved.ctl, ?_⟩
      unfold acts
      rw [ht]
      exact congrArg (fun e : List DiskEvent => e.length + 1) hmoved.scheduled

end IdeSide

/-! ## The disks of a channel -/

namespace IdeChannel

variable {bad : IdePanic → Prop} {c : IdeChannel} {isSlave : Bool} {s : IdeSide}

def ctl (c : IdeChannel) (isSlave : Bool) : Ctl := (c.side isSlave).ctl

theorem wp_onDisk {α : Type} {m : IdeM α} {Q : α → IdeChannel → Prop} :
    wp bad (onDisk isSlave m) Q c ↔
      wp bad m (fun a s => Q a (setSide isSlave s c)) (side isSlave c) := wp_zoom

theorem side_setSide_same : (setSide isSlave s c).side isSlave = s := by
  unfold side setSide
  dsimp only
  rw [Function.update_self]

theorem side_setSide_other {other : Bool} (h : other ≠ isSlave) :
    (setSide isSlave s c).side other = { c.side other with bmi := s.bmi, mem := s.mem } := by
  unfold side setSide
  dsimp only
  rw [Function.update_of_ne h]

theorem transfer_none {isSlave : Bool} (h : c.dmaPending = false) :
    (c.disks isSlave).transfer = none := by
  obtain ⟨hmaster, hslave⟩ := Bool.or_eq_false_iff.mp h
  cases isSlave with
  | false => exact Option.not_isSome_iff_eq_none.mp (Bool.eq_false_iff.mp hmaster)
  | true => exact Option.not_isSome_iff_eq_none.mp (Bool.eq_false_iff.mp hslave)

end IdeChannel

end PardG5V
