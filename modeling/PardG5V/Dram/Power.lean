import PardG5V.Dram.Aborts
import PardG5V.Dram.OpenRows
import PardG5V.Dram.PowerMachine

/-!
# The power state of the controller

The controller follows `PowerMachine` as long as a request event serves a packet only while no
power event is pending, a refresh finds the idle state only when no activate is on its way, the
activation limit is not zero (the activate event is only scheduled together with the activation
window), and a row buffer takes time to open and close.

Results: `power_state_consistent`, `idle_with_open_row`.
-/

namespace PardG5V

open Prog Relation BankLemmas MachineLemmas DramAbortLemmas

variable {cfg : DramConfig}

/-! ## The view -/

namespace Dram

/-- The part of the controller that the power state follows. -/
def powerView (s : Dram cfg) : PowerMachine (RowBuf cfg) where
  now := s.curTick
  state := s.pwrState
  next := s.pwrStateTrans
  powerAt := s.powerEvent
  actAt := s.activateEvent
  preAt := s.prechargeEvent
  opened := fun buf => openedAt buf s.commands

/-- A request event serves a packet only while no power event is pending, and the refresh
finds the idle state only when no activate and no power event is pending. -/
def PowerSafe (s : Dram cfg) : DramInput → Prop
  | .event .nextReq => s.refreshState = .REF_IDLE → s.next ≠ none → s.powerEvent = none
  | .event .refresh => s.Precharges → s.pwrState = .PWR_IDLE →
      s.activateEvent = none ∧ s.powerEvent = none
  | _ => True

variable {s s' : Dram cfg} {buf : RowBuf cfg} {row : Row} {tick : Tick}

theorem activated_activateEvent (hwindow : s.actTicks buf.bank.rank ≠ []) :
    (s.activated buf row tick).activateEvent =
      some (s.activateEvent.elim tick (min · tick)) := by
  have hempty : (s.actTicks buf.bank.rank).isEmpty = false := by simpa using hwindow
  have hevent : ((s.opened buf row tick).noteWindow buf.bank.rank tick).activateEvent =
      s.activateEvent := by
    unfold noteWindow
    dsimp only
    split <;> rfl
  unfold activated activateBy
  rw [hempty]
  simp only [Bool.false_eq_true, if_false, hevent]
  cases s.activateEvent <;> rfl

theorem powerView_activated (hwindow : s.actTicks buf.bank.rank ≠ []) :
    (s.activated buf row tick).powerView = { s.powerView with
      opened := Function.update s.powerView.opened buf (some tick)
      actAt := some (s.powerView.actAt.elim tick (min · tick)) } := by
  have hmachines := activated_machines s buf row tick
  unfold powerView
  simp only [PowerMachine.mk.injEq]
  refine ⟨hmachines.curTick, hmachines.pwrState, hmachines.pwrStateTrans, hmachines.powerEvent,
    activated_activateEvent hwindow, activated_prechargeEvent s buf row tick, ?_⟩
  funext buf'
  rw [openedAt_activated]
  by_cases hbuf : buf = buf'
  · subst hbuf
    rw [if_pos rfl, Function.update_self]
  · rw [if_neg hbuf, Function.update_of_ne fun h => hbuf h.symm]

theorem powerView_accessed (pkt : DRAMPacket cfg) (cmdAt readyTime : Tick) :
    (s.accessed pkt cmdAt readyTime).powerView = s.powerView := by
  unfold powerView
  simp only [openedAt_accessed]
  rfl

theorem powerView_precharged : (s.precharged buf tick).powerView = { s.powerView with
      opened := Function.update s.powerView.opened buf none
      preAt := some (s.powerView.preAt.elim (tick + cfg.tRP) (max · (tick + cfg.tRP))) } := by
  unfold powerView
  simp only [PowerMachine.mk.injEq]
  refine ⟨rfl, rfl, rfl, rfl, rfl, ?_, ?_⟩
  · exact precharged_prechargeEvent s buf tick
  · funext buf'
    rw [openedAt_precharged]
    by_cases hbuf : buf = buf'
    · subst hbuf
      rw [if_pos rfl, Function.update_self]
    · rw [if_neg hbuf, Function.update_of_ne fun h => hbuf h.symm]

theorem powerView_core (h : s.SameCore s') : s'.powerView = s.powerView := by
  unfold powerView
  simp only [PowerMachine.mk.injEq]
  refine ⟨congrArg DramCore.curTick h, congrArg DramCore.pwrState h,
    congrArg DramCore.pwrStateTrans h, congrArg DramCore.powerEvent h,
    congrArg DramCore.activateEvent h, congrArg DramCore.prechargeEvent h, ?_⟩
  rw [show s'.commands = s.commands from congrArg DramCore.commands h]

end Dram

/-! ## Commands -/

section Commands

variable {A : ActivateRule cfg} {s s' : Dram cfg}

/-- One command is at most one step of the power machine. -/
theorem BankStep.power (hlimit : cfg.activationLimit ≠ 0) (htime : 0 < cfg.tRAS + cfg.tRP)
    (hclocked : s.Clocked) (hsteady : s.powerEvent = none ∨ s.pwrState ≠ .PWR_IDLE)
    (hA : ∀ banks buf tick, A banks buf tick → s.powerEvent = none) (h : BankStep A s s') :
    ReflTransGen PowerMachine.Step s.powerView s'.powerView := by
  cases h with
  | keep hcore =>
    rw [Dram.powerView_core hcore]
  | @activate buf row tick hwindow _ _ htick hA' =>
    have hne : s.actTicks buf.bank.rank ≠ [] := by
      intro hnil
      rw [hnil] at hwindow
      exact hlimit hwindow.symm
    rw [Dram.powerView_activated hne]
    exact .single (.opens (hA _ _ _ hA') (htick ▸ Nat.le_max_right _ _))
  | @precharge buf tick hopen hpre hnow =>
    obtain ⟨o, ho, hlt⟩ := hclocked.opened_before htime hopen hpre
    rw [Dram.powerView_precharged]
    exact .single (.closes ho hlt (Nat.le_trans hnow (Nat.le_add_right _ _)) hsteady)
  | @access pkt cmdAt readyTime =>
    rw [Dram.powerView_accessed]
  | defer => exact .refl

theorem BankSteps.power (hlimit : cfg.activationLimit ≠ 0) (htime : 0 < cfg.tRAS + cfg.tRP)
    (hclocked : s.Clocked) (hsteady : s.powerEvent = none ∨ s.pwrState ≠ .PWR_IDLE)
    (hA : ∀ banks buf tick, A banks buf tick → s.powerEvent = none) (h : BankSteps A s s') :
    ReflTransGen PowerMachine.Step s.powerView s'.powerView := by
  induction h with
  | refl => exact .refl
  | tail hpath hstep ih =>
    have hmachines := machines_of_steps hpath
    rw [← hmachines.powerEvent] at hA hsteady
    rw [← hmachines.pwrState] at hsteady
    exact ReflTransGen.trans ih (hstep.power hlimit htime (hclocked.steps hpath) hsteady hA)

end Commands

/-! ## Inputs -/

section Inputs

variable {s s' : Dram cfg} {input : DramInput}

theorem Dram.closed_iff_openedAt (hcounted : s.Counted) (hclocked : s.Clocked) :
    s.numBanksActive = 0 ↔ ∀ buf, openedAt buf s.commands = none := by
  rw [hcounted.closed_iff]
  refine forall_congr' fun buf => ?_
  have hopened := hclocked.opened buf
  cases hrow : s.openRow buf <;> cases hlog : openedAt buf s.commands <;> simp_all

/-- An input is a sequence of steps of the power machine. -/
theorem CoreStep.power (hlimit : cfg.activationLimit ≠ 0) (htime : 0 < cfg.tRAS + cfg.tRP)
    (hcounted : s.Counted) (hclocked : s.Clocked) (hsafe : s.PowerSafe input)
    (hen : s.Enabled input) (h : CoreStep (fun _ _ _ => True) s input s') :
    ReflTransGen PowerMachine.Step s.powerView s'.powerView := by
  have hclosed := Dram.closed_iff_openedAt hcounted hclocked
  cases h with
  | commands hidle hnext hpath =>
    have hpower := hsafe hidle hnext
    exact BankSteps.power hlimit htime hclocked (.inl hpower) (fun _ _ _ _ => hpower) hpath
  | other hcore => rw [Dram.powerView_core hcore]
  | handOver _ hcore => rw [Dram.powerView_core hcore]; exact .refl
  | advance hle hdue =>
    exact .single (.advance hle (hdue .activate) (hdue .precharge) (hdue .power))
  | activateEvent hact => exact .single (.stillActive hen hact)
  | wake hact hpower => exact .single (.wake hen hact hpower)
  | prechargeEvent hopen =>
    obtain ⟨buf, hbuf⟩ := not_forall.mp fun hnone => hopen (hclosed.mpr hnone)
    obtain ⟨o, ho⟩ := Option.ne_none_iff_exists'.mp hbuf
    exact .single (.stillOpen hen ho)
  | sleep hnone hpower => exact .single (.sleep hen (hclosed.mp hnone) hpower)
  | refreshDue => exact .refl
  | @prechargeAll due s₁ _ hidle _ hpath =>
    have hdue : { s with
        refreshEvent := none, refreshState := .REF_PRE, refreshDueAt := due }.Clocked :=
      hclocked.mono (fun _ => rfl) (fun _ => Nat.le_refl _) (fun _ => Nat.le_refl _)
        (fun _ => Nat.le_refl _) fun _ => rfl
    have hrun := BankSteps.power hlimit htime hdue (.inr hidle) (fun _ _ _ => False.elim) hpath
    exact hrun
  | refreshIdle hpre hidle hpower hnone =>
    exact .single (.refreshIdle hidle (hsafe hpre hidle).1 hpower (hclosed.mp hnone))
  | refreshAgain _ hpwr hcan => exact .single (.refreshAgain hpwr hcan.powerEvent)
  | toActive htrans => exact .single (.toActive hen htrans)
  | toIdle htrans _ _ | refreshEnd htrans _ => exact .single (.toIdle hen htrans)
  | refreshStart _ htrans _ => exact .single (.refresh hen htrans (Nat.le_add_right _ _))

theorem Dram.Reachable.power (hlimit : cfg.activationLimit ≠ 0) (htime : 0 < cfg.tRAS + cfg.tRP)
    (h : s.Reachable Dram.PowerSafe) : s.powerView.Inv := by
  refine h.induct (I := fun s => s.powerView.Inv) (fun _ => ?_)
    fun s input s' hs ih hen hP hcall => ?_
  · exact .of_quiet ⟨fun _ => rfl, rfl, rfl⟩ (.idle rfl rfl)
  · have hstep : CoreStep (fun _ _ _ => True) _ _ _ :=
      call_coreStep (fun _ _ _ _ _ => trivial) hen hcall
    exact ih.run (hstep.power hlimit htime hs.counted hs.clocked hP hen)

end Inputs

/-! ## Power events that are pending -/

namespace PowerLemmas

def Pending (e : DramAbort) : Prop := e = .powerPending

variable {s : Dram cfg}

theorem pending_notOfBanks : NotOfBanks Pending := ⟨⟨nofun, nofun, nofun⟩, nofun, nofun⟩

theorem call_avoids {input : DramInput} (hinv : s.powerView.Inv) (hsafe : s.PowerSafe input)
    (hen : s.Enabled input) : Avoids Pending (DramM.call input s) := by
  refine call_avoids_commands pending_notOfBanks.toNotOfQueues ⟨nofun, nofun⟩ (fun _ => ?_)
    (fun _ _ _ _ _ _ _ => doDRAMAccess_safe pending_notOfBanks _) fun s₀ _ _ => ?_
  · refine ⟨?_, ?_, ?_⟩ <;> rintro rfl
    · exact fun hact => (hinv.powerAt_of_act hen hact).2
    · exact hinv.powerAt_of_pre hen
    · exact fun hpre hidle => (hsafe hpre hidle).2
  · exact Safe.forEach (fun _ => refreshPrecharge_safe pending_notOfBanks.row) _ s₀

end PowerLemmas

open PowerLemmas

/-- In every run with an activation window, in which request events serve packets only while no
power event is pending and a refresh finds no activate on its way: no second power event is
scheduled, the idle state is entered from the active or the refresh state, and once all events due
have run it means that every open row has its activate ahead. -/
theorem power_state_consistent (hlimit : cfg.activationLimit ≠ 0)
    (htime : 0 < cfg.tRAS + cfg.tRP) {s : Dram cfg} (h : s.Reachable Dram.PowerSafe) :
    (∀ input, s.PowerSafe input → s.Enabled input →
      DramM.call input s ≠ .error .powerPending) ∧
    (s.powerEvent ≠ none → s.pwrStateTrans = .PWR_IDLE →
      s.pwrState = .PWR_ACT ∨ s.pwrState = .PWR_REF) ∧
    ((∀ t ∈ [DramTimer.activate, .precharge, .power], ∀ due ∈ s.timer t, s.curTick < due) →
      s.pwrState = .PWR_IDLE → ∀ buf, s.openRow buf ≠ none →
        ∃ o, openedAt buf s.commands = some o ∧ s.curTick < o) := by
  have hinv := h.power hlimit htime
  refine ⟨fun input hsafe hen hcall => ?_, fun hpower htrans => ?_, fun hdue hidle buf hopen => ?_⟩
  · exact call_avoids hinv hsafe hen _ hcall rfl
  · obtain ⟨w, hw⟩ := Option.ne_none_iff_exists'.mp hpower
    exact hinv.leaves_idle hw htrans
  · obtain ⟨o, ho⟩ : ∃ o, openedAt buf s.commands = some o := by
      refine Option.isSome_iff_exists.mp ((h.clocked.opened buf).trans ?_)
      exact Option.isSome_iff_ne_none.mpr hopen
    exact ⟨o, ho, hinv.idle_opened (hdue .activate (by simp)) (hdue .power (by simp)) hidle ho⟩

/-! ## Runs -/

instance (s : Dram cfg) (input : DramInput) : Decidable (s.PowerSafe input) := by
  unfold Dram.PowerSafe; split <;> infer_instance

def DramConfig.slowActivates : DramConfig :=
  { DramConfig.oneBank with tRRD := 50, pageMgmt := .closeAdaptive }

def slowBuf : RowBuf .slowActivates := ⟨⟨⟨0, by decide⟩, ⟨0, by decide⟩⟩, ⟨0, Nat.two_pos⟩⟩

/-- The row of a read is opened and closed again, and the power event is about to enter the idle
state. -/
def readAndClose : List DramInput :=
  [.timingReq (ldomReq .ReadReq 0 1), .event .nextReq, .event .activate, .event .power, .advance 1,
    .event .nextReq, .advance 7, .event .precharge]

/-- In the idle state two more reads have their row opened, at a tick that lies ahead. -/
theorem power_state_consistent_read :
    (∃ s : Dram .slowActivates, s.Reachable Dram.PowerSafe ∧ s.powerEvent = some 7 ∧
      (s.pwrState = .PWR_ACT ∨ s.pwrState = .PWR_REF)) ∧
    ∃ s : Dram .slowActivates, s.Reachable Dram.PowerSafe ∧ s.pwrState = .PWR_IDLE ∧
      s.openRow slowBuf ≠ none ∧
      (∀ input, s.PowerSafe input → s.Enabled input →
        DramM.call input s ≠ .error .powerPending) ∧
      ∃ o, openedAt slowBuf s.commands = some o ∧ s.curTick < o := by
  obtain ⟨s, hs, hevent, htrans⟩ := Dram.exists_reachable (P := Dram.PowerSafe) 0 readAndClose
    (fun s : Dram .slowActivates => s.powerEvent = some 7 ∧ s.pwrStateTrans = .PWR_IDLE)
    (by decide +kernel)
  obtain ⟨s', hs', hdue, hidle, hrow⟩ := Dram.exists_reachable (P := Dram.PowerSafe) 0
    (readAndClose ++ [.event .power, .event .respond, .timingReq (ldomReq .ReadReq 0 2),
      .timingReq (ldomReq .ReadReq 0 2), .event .nextReq])
    (fun s : Dram .slowActivates =>
      (∀ t ∈ [DramTimer.activate, .precharge, .power], ∀ due ∈ s.timer t, s.curTick < due) ∧
        s.pwrState = .PWR_IDLE ∧ s.openRow slowBuf ≠ none) (by decide +kernel)
  obtain ⟨-, hleaves, -⟩ := power_state_consistent (by decide) (by decide) hs
  obtain ⟨havoids, -, hahead⟩ := power_state_consistent (by decide) (by decide) hs'
  exact ⟨⟨s, hs, hevent, hleaves (hevent ▸ Option.some_ne_none 7) htrans⟩,
    s', hs', hidle, hrow, havoids, hahead hdue hidle slowBuf hrow⟩

def DramConfig.noWindow : DramConfig := { DramConfig.oneBank with activationLimit := 0 }

def noWindowBuf : RowBuf .noWindow := ⟨⟨⟨0, by decide⟩, ⟨0, by decide⟩⟩, ⟨0, Nat.two_pos⟩⟩

/-- Without an activation window the row of a read is open from tick 0 on, no event is
pending that could tell the power state machine, and the machine stays idle. -/
theorem idle_with_open_row : ∃ s : Dram .noWindow, s.Reachable (fun _ _ => True) ∧
      (∀ t ∈ [DramTimer.activate, .precharge, .power], s.timer t = none) ∧
      s.pwrState = .PWR_IDLE ∧ s.openRow noWindowBuf ≠ none ∧
      ∃ o, openedAt noWindowBuf s.commands = some o ∧ o ≤ s.curTick := by
  obtain ⟨s, hs, hnone, hidle, hopen, ho⟩ := Dram.exists_reachable (P := fun _ _ => True) 0
    [.timingReq (ldomReq .ReadReq 0 1), .event .nextReq]
    (fun s : Dram .noWindow =>
      (∀ t ∈ [DramTimer.activate, .precharge, .power], s.timer t = none) ∧
        s.pwrState = .PWR_IDLE ∧ s.openRow noWindowBuf ≠ none ∧
        openedAt noWindowBuf s.commands = some 0) (by decide +kernel)
  exact ⟨s, hs, hnone, hidle, hopen, 0, ho, Nat.zero_le _⟩

end PardG5V
