import PardG5V.Dram.Commands

/-!
# What one input can do

One input gives commands to the row buffers, or it moves time or the refresh and power state
machines. `CoreStep` lists all that can happen with the guards of the source.
-/

namespace PardG5V

open Prog Relation BankLemmas

variable {cfg : DramConfig}

/-! ## Steps -/

namespace Dram

def powerTo (s : Dram cfg) (pwrState : PowerState) (tick : Tick) : Dram cfg :=
  { s with pwrStateTrans := pwrState, powerEvent := some tick }

def refreshing (s : Dram cfg) : Dram cfg :=
  ({ s with
      banks := fun id => { s.banks id with actAllowedAt := s.curTick + cfg.tRFC }
      refreshEvent := some (s.refreshDueAt + cfg.tREFI - cfg.tRP)
    }.emit (.refreshStart s.curTick)).powerTo .PWR_IDLE (s.curTick + cfg.tRFC)

def refreshed (s : Dram cfg) : Dram cfg :=
  { s with
    pwrState := .PWR_IDLE
    refreshState := .REF_IDLE
    nextReqEvent := some s.curTick }.emit (.refreshEnd s.curTick)

/-- The next refresh event precharges all row buffers, because the request event loop is
not waited for. -/
def Precharges (s : Dram cfg) : Prop :=
  s.refreshState = .REF_PRE ∨ s.refreshState ≠ .REF_RUN ∧ s.nextReqEvent = none
deriving Decidable

structure CanRefresh (s : Dram cfg) : Prop where
  closed : s.numBanksActive = 0
  refreshEvent : s.refreshEvent = none
  powerEvent : s.powerEvent = none
  ahead : s.curTick ≤ s.refreshDueAt + cfg.tREFI - cfg.tRP

end Dram

/-- What one input can do to the banks and the two state machines. Every activate meets
`A`. -/
inductive CoreStep (A : ActivateRule cfg) (s : Dram cfg) :
    DramInput → Dram cfg → Prop
  | commands {s' : Dram cfg} (hidle : s.refreshState = .REF_IDLE) (hnext : s.next ≠ none)
      (h : BankSteps A s s') : CoreStep A s (.event .nextReq) s'
  | other {input : DramInput} {s' : Dram cfg} (h : s.SameCore s') : CoreStep A s input s'
  | handOver {s' : Dram cfg} (hdrain : s.refreshState = .REF_DRAIN)
      (h : { s with refreshState := .REF_PRE, refreshEvent := some s.curTick }.SameCore s') :
      CoreStep A s (.event .nextReq) s'
  | advance {tick : Tick} (hle : s.curTick ≤ tick) (hdue : ∀ t, ∀ due ∈ s.timer t, tick ≤ due) :
      CoreStep A s (.advance tick) { s with curTick := tick }
  | activateEvent (hact : s.pwrState = .PWR_ACT) :
      CoreStep A s (.event .activate) { s with activateEvent := none }
  | wake (hact : s.pwrState ≠ .PWR_ACT) (hpower : s.powerEvent = none) :
      CoreStep A s (.event .activate)
        ({ s with activateEvent := none }.powerTo .PWR_ACT s.curTick)
  | prechargeEvent (hopen : s.numBanksActive ≠ 0) :
      CoreStep A s (.event .precharge) { s with prechargeEvent := none }
  | sleep (hclosed : s.numBanksActive = 0) (hpower : s.powerEvent = none) :
      CoreStep A s (.event .precharge)
        ({ s with prechargeEvent := none }.powerTo .PWR_IDLE s.curTick)
  | refreshDue {due : Tick} (hrun : s.refreshState ≠ .REF_RUN) (hnext : s.nextReqEvent ≠ none) :
      CoreStep A s (.event .refresh)
        { s with refreshEvent := none, refreshState := .REF_DRAIN, refreshDueAt := due }
  | prechargeAll {due : Tick} {s' : Dram cfg} (hpre : s.Precharges)
      (hidle : s.pwrState ≠ .PWR_IDLE) (hclosed : s'.numBanksActive = 0)
      (h : BankSteps (fun _ _ _ => False)
        { s with refreshEvent := none, refreshState := .REF_PRE, refreshDueAt := due } s') :
      CoreStep A s (.event .refresh) { s' with refreshState := .REF_RUN }
  | refreshIdle {due : Tick} (hpre : s.Precharges) (hidle : s.pwrState = .PWR_IDLE)
      (hpower : s.powerEvent = none) (hclosed : s.numBanksActive = 0) :
      CoreStep A s (.event .refresh)
        ({ s with refreshEvent := none, refreshState := .REF_RUN, refreshDueAt := due }.powerTo
          .PWR_REF s.curTick)
  | refreshAgain (hrun : s.refreshState = .REF_RUN) (hpwr : s.pwrState = .PWR_REF)
      (hcan : { s with refreshEvent := none }.CanRefresh) :
      CoreStep A s (.event .refresh) { s with refreshEvent := none }.refreshing
  | toActive (htrans : s.pwrStateTrans = .PWR_ACT) :
      CoreStep A s (.event .power) { s with powerEvent := none, pwrState := .PWR_ACT }
  | toIdle (htrans : s.pwrStateTrans = .PWR_IDLE) (hact : s.pwrState = .PWR_ACT)
      (hrun : s.refreshState ≠ .REF_RUN) :
      CoreStep A s (.event .power) { s with powerEvent := none, pwrState := .PWR_IDLE }
  | refreshEnd (htrans : s.pwrStateTrans = .PWR_IDLE) (hpwr : s.pwrState = .PWR_REF) :
      CoreStep A s (.event .power) { s with powerEvent := none }.refreshed
  | refreshStart (hrun : s.refreshState = .REF_RUN)
      (htrans : s.pwrStateTrans = .PWR_REF ∨
        s.pwrStateTrans = .PWR_IDLE ∧ s.pwrState = .PWR_ACT)
      (hcan : { s with powerEvent := none, pwrState := .PWR_REF }.CanRefresh) :
      CoreStep A s (.event .power) { s with powerEvent := none, pwrState := .PWR_REF }.refreshing

namespace MachineLemmas

variable {A : ActivateRule cfg} {s s' : Dram cfg}

/-! ## Events of the two machines -/

theorem schedule_eq_ok {abort : DramAbort} {event event' : Option Tick} {tick : Tick} :
    DramM.schedule s abort event tick = .ok event' ↔
      s.curTick ≤ tick ∧ event = none ∧ some tick = event' := by
  unfold DramM.schedule
  by_cases h : s.curTick ≤ tick ∧ event = none
  · simp [h]
  · rw [if_neg h]
    simp only [reduceCtorEq, false_iff]
    exact fun h' => h ⟨h'.1, h'.2.1⟩

theorem schedulePowerEvent_eq_ok {pwrState : PowerState} {tick : Tick} {u : Unit} :
    schedulePowerEvent pwrState tick s = .ok (u, s') ↔
      s.curTick ≤ tick ∧ s.powerEvent = none ∧ s.powerTo pwrState tick = s' := by
  simp only [schedulePowerEvent, bind_eq_ok, get_eq_ok, DramM.check_eq_ok, modify_eq_ok,
    decide_eq_true_eq, Option.isNone_iff_eq_none]
  constructor
  · rintro ⟨_, _, ⟨rfl, rfl⟩, _, _, ⟨hle, rfl⟩, _, _, ⟨hnone, rfl⟩, rfl⟩
    exact ⟨hle, hnone, rfl⟩
  · rintro ⟨hle, hnone, rfl⟩
    exact ⟨_, _, ⟨rfl, rfl⟩, (), _, ⟨hle, rfl⟩, (), _, ⟨hnone, rfl⟩, rfl⟩

theorem runRefresh_eq_ok (h : runRefresh s = .ok ((), s')) :
    s.pwrState = .PWR_REF ∧ s.CanRefresh ∧ s' = s.refreshing := by
  simp only [runRefresh, bind_eq_ok, get_eq_ok, DramM.check_eq_ok, modify_eq_ok, lift_eq_ok,
    schedule_eq_ok, schedulePowerEvent_eq_ok] at h
  obtain ⟨_, _, ⟨rfl, rfl⟩, _, _, ⟨hclosed, rfl⟩, _, _, ⟨hpwr, rfl⟩, _, _, rfl, _, _, ⟨_, rfl⟩,
    _, _,
    ⟨⟨hahead, hrefresh, rfl⟩, rfl⟩, _, _, rfl, _, _, ⟨_, rfl⟩, _, hpower, rfl⟩ := h
  exact ⟨by simpa using hpwr, ⟨by simpa using hclosed, hrefresh, hpower, hahead⟩, rfl⟩

theorem prechargeAll_cases (h : prechargeAll s = .ok ((), s')) :
    s.pwrState ≠ .PWR_IDLE ∧ (∃ s₁, BankSteps (fun _ _ _ => False) s s₁ ∧ s₁.numBanksActive = 0 ∧
      s' = { s₁ with refreshState := .REF_RUN }) ∨
    s.pwrState = .PWR_IDLE ∧ s.powerEvent = none ∧ s.numBanksActive = 0 ∧
      s' = { s with refreshState := .REF_RUN }.powerTo .PWR_REF s.curTick := by
  simp only [prechargeAll, bind_eq_ok, get_eq_ok] at h
  obtain ⟨_, _, ⟨rfl, rfl⟩, h⟩ := h
  rcases ite_eq_ok.mp h with ⟨hpwr, h⟩ | ⟨hpwr, h⟩
  · simp only [bind_eq_ok, modify_eq_ok, get_eq_ok, DramM.check_eq_ok] at h
    obtain ⟨_, s₁, hloop, _, _, rfl, _, _, ⟨rfl, rfl⟩, hclosed, rfl⟩ := h
    exact .inl ⟨by simpa using hpwr, s₁, prechargeRows_path hloop, by simpa using hclosed, rfl⟩
  · simp only [bind_eq_ok, modify_eq_ok, get_eq_ok, DramM.check_eq_ok,
      schedulePowerEvent_eq_ok] at h
    obtain ⟨_, _, ⟨_, hpower, rfl⟩, _, _, rfl, _, _, ⟨rfl, rfl⟩, hclosed, rfl⟩ := h
    exact .inr ⟨by simpa using hpwr, hpower, by simpa [Dram.powerTo] using hclosed, rfl⟩

theorem drained_cases (s : Dram cfg) : (s.refreshState ≠ .REF_RUN ∧ s.nextReqEvent ≠ none) ∧
      (∃ due, s.drained = { s with refreshState := .REF_DRAIN, refreshDueAt := due }) ∨
    s.Precharges ∧ (∃ due, s.drained = { s with refreshState := .REF_PRE, refreshDueAt := due }) ∨
    s.refreshState = .REF_RUN ∧ s.drained = s := by
  unfold Dram.drained Dram.Precharges
  cases hstate : s.refreshState with
  | REF_IDLE =>
    by_cases hreq : s.nextReqEvent = none
    · exact .inr (.inl ⟨.inr ⟨RefreshState.noConfusion, hreq⟩, s.curTick, if_pos ⟨rfl, hreq⟩⟩)
    · exact .inl ⟨⟨RefreshState.noConfusion, hreq⟩, s.curTick, if_neg fun h => hreq h.2⟩
  | REF_DRAIN =>
    simp only [reduceCtorEq, if_false, hstate, true_and]
    by_cases hreq : s.nextReqEvent = none
    · refine .inr (.inl ⟨.inr ⟨RefreshState.noConfusion, hreq⟩, s.refreshDueAt, if_pos hreq⟩)
    · refine .inl ⟨⟨RefreshState.noConfusion, hreq⟩, s.refreshDueAt, ?_⟩
      rw [if_neg hreq, ← hstate]
  | REF_PRE =>
    refine .inr (.inl ⟨.inl rfl, s.refreshDueAt, ?_⟩)
    simp only [reduceCtorEq, if_false, hstate, false_and]
    rw [← hstate]
  | REF_RUN =>
    refine .inr (.inr ⟨rfl, ?_⟩)
    simp only [reduceCtorEq, if_false, hstate, false_and]

theorem processRefreshEvent_cases (h : processRefreshEvent s = .ok ((), s')) :
    (s.refreshState ≠ .REF_RUN ∧ s.nextReqEvent ≠ none) ∧
      (∃ due, s' = { s with refreshState := .REF_DRAIN, refreshDueAt := due }) ∨
    s.Precharges ∧ (∃ due,
      prechargeAll { s with refreshState := .REF_PRE, refreshDueAt := due } = .ok ((), s')) ∨
    s.refreshState = .REF_RUN ∧ runRefresh s = .ok ((), s') := by
  simp only [processRefreshEvent, bind_eq_ok, modify_eq_ok, get_eq_ok] at h
  obtain ⟨_, _, rfl, _, _, ⟨rfl, rfl⟩, h⟩ := h
  rcases drained_cases s with ⟨hrun, due, hdrain⟩ | ⟨hpre, due, hdrain⟩ | ⟨hrun, heq⟩
  · rw [hdrain] at h
    obtain ⟨_, rfl⟩ := pure_eq_ok.mp h
    exact .inl ⟨hrun, due, rfl⟩
  · rw [hdrain] at h
    exact .inr (.inl ⟨hpre, due, h⟩)
  · rw [heq, hrun] at h
    exact .inr (.inr ⟨hrun, h⟩)

theorem enterIdle_cases {prevState : PowerState} (h : enterIdle prevState s = .ok ((), s')) :
    prevState = .PWR_REF ∧ s' = { s with
      refreshState := .REF_IDLE, nextReqEvent := some s.curTick }.emit (.refreshEnd s.curTick) ∨
    prevState = .PWR_ACT ∧ s.refreshState = .REF_RUN ∧ s' = { s with pwrState := .PWR_REF } ∨
    prevState = .PWR_ACT ∧ s.refreshState ≠ .REF_RUN ∧ s' = s := by
  rcases ite_eq_ok.mp h with ⟨hprev, h⟩ | ⟨_, h⟩
  · simp only [bind_eq_ok, modify_eq_ok, get_eq_ok, lift_eq_ok, schedule_eq_ok] at h
    obtain ⟨_, _, rfl, _, _, ⟨rfl, rfl⟩, _, _, ⟨⟨_, _, rfl⟩, rfl⟩, rfl⟩ := h
    exact .inl ⟨hprev, rfl⟩
  · simp only [bind_eq_ok, get_eq_ok, DramM.check_eq_ok, when_eq_ok, modify_eq_ok] at h
    obtain ⟨_, _, ⟨hprev, rfl⟩, _, _, ⟨rfl, rfl⟩, ⟨hrun, _, _, ⟨_, rfl⟩, rfl⟩ | ⟨hrun, rfl⟩⟩ := h
    · exact .inr (.inl ⟨by simpa using hprev, by simpa using hrun, rfl⟩)
    · exact .inr (.inr ⟨by simpa using hprev, by simpa using hrun, rfl⟩)

theorem processPowerEvent_step
    (h : processPowerEvent { s with powerEvent := none } = .ok ((), s')) :
    CoreStep A s (.event .power) s' := by
  simp only [processPowerEvent, bind_eq_ok, modify_eq_ok, get_eq_ok] at h
  obtain ⟨_, _, ⟨rfl, rfl⟩, _, s₀, hs₀, _, s₁, henter, _, _, ⟨rfl, rfl⟩, h⟩ := h
  have hentered {p : PowerState} (htrans : s.pwrStateTrans = p) :
      s₀ = { s with powerEvent := none, pwrState := p } := by rw [← hs₀, ← htrans]
  -- a refresh starts when the machine is now in its refresh state
  have hrefresh (hs₁ : s₁ = { s with powerEvent := none, pwrState := .PWR_REF })
      (htrans : s.pwrStateTrans = .PWR_REF ∨
        s.pwrStateTrans = .PWR_IDLE ∧ s.pwrState = .PWR_ACT) :
      CoreStep A s (.event .power) s' := by
    subst hs₁
    simp only [when_eq_ok, bind_eq_ok, DramM.check_eq_ok, beq_self_eq_true, true_and,
      Bool.true_eq_false, false_and, or_false] at h
    obtain ⟨_, _, ⟨hrun, rfl⟩, h⟩ := h
    have hrun : s.refreshState = .REF_RUN := by simpa using hrun
    rcases processRefreshEvent_cases h with ⟨hne, -⟩ | ⟨hpre | hne, -⟩ | ⟨-, h⟩
    · exact absurd hrun hne.1
    · exact absurd (hrun.symm.trans hpre) RefreshState.noConfusion
    · exact absurd hrun hne.1
    · obtain ⟨-, hcan, rfl⟩ := runRefresh_eq_ok h
      exact .refreshStart hrun htrans hcan
  have hstays (hpwr : s₁.pwrState ≠ .PWR_REF) : s' = s₁ := by
    rcases when_eq_ok.mp h with ⟨hpwr', -⟩ | ⟨-, heq⟩
    · exact absurd (by simpa using hpwr') hpwr
    · exact heq.symm
  rcases when_eq_ok.mp henter with ⟨hidle, henter⟩ | ⟨hidle, hs₁⟩
  · have htrans : s.pwrStateTrans = .PWR_IDLE := by simpa using hidle
    rw [hentered htrans] at henter
    rcases enterIdle_cases henter with ⟨hprev, rfl⟩ | ⟨hprev, hrun, rfl⟩ | ⟨hprev, hrun, rfl⟩
    · rw [hstays PowerState.noConfusion]
      exact .refreshEnd htrans hprev
    · exact hrefresh rfl (.inr ⟨htrans, hprev⟩)
    · rw [hstays PowerState.noConfusion]
      exact .toIdle htrans hprev hrun
  · cases htrans : s.pwrStateTrans with
    | PWR_IDLE => simp [htrans] at hidle
    | PWR_REF => exact hrefresh (hs₁.symm.trans (hentered htrans)) (.inl htrans)
    | PWR_ACT =>
      rw [← hs₁, hentered htrans] at hstays
      rw [hstays PowerState.noConfusion]
      exact .toActive htrans

theorem processRefreshEvent_step
    (h : processRefreshEvent { s with refreshEvent := none } = .ok ((), s')) :
    CoreStep A s (.event .refresh) s' := by
  rcases processRefreshEvent_cases h with ⟨hrun, due, rfl⟩ | ⟨hpre, due, h⟩ | ⟨hrun, h⟩
  · exact .refreshDue hrun.1 hrun.2
  · rcases prechargeAll_cases h with ⟨hidle, s₁, hpath, hclosed, rfl⟩ |
      ⟨hidle, hpower, hclosed, rfl⟩
    · exact .prechargeAll hpre hidle hclosed hpath
    · exact .refreshIdle hpre hidle hpower hclosed
  · obtain ⟨hpwr, hcan, rfl⟩ := runRefresh_eq_ok h
    exact .refreshAgain hrun hpwr hcan

theorem processActivateEvent_step
    (h : processActivateEvent { s with activateEvent := none } = .ok ((), s')) :
    CoreStep A s (.event .activate) s' := by
  simp only [processActivateEvent, bind_eq_ok, get_eq_ok, when_eq_ok, schedulePowerEvent_eq_ok] at h
  obtain ⟨_, _, ⟨rfl, rfl⟩, ⟨hact, _, hpower, rfl⟩ | ⟨hact, rfl⟩⟩ := h
  · exact .wake (by simpa using hact) hpower
  · exact .activateEvent (by simpa using hact)

theorem processPrechargeEvent_step
    (h : processPrechargeEvent { s with prechargeEvent := none } = .ok ((), s')) :
    CoreStep A s (.event .precharge) s' := by
  simp only [processPrechargeEvent, bind_eq_ok, get_eq_ok, when_eq_ok,
    schedulePowerEvent_eq_ok] at h
  obtain ⟨_, _, ⟨rfl, rfl⟩, ⟨hclosed, _, hpower, rfl⟩ | ⟨hopen, rfl⟩⟩ := h
  · exact .sleep (by simpa using hclosed) hpower
  · exact .prechargeEvent (by simpa using hopen)

theorem processNextReqEvent_step (hA : s.refreshState = .REF_IDLE → ∀ pkt ∈ s.next, s.Opens A pkt)
    (h : processNextReqEvent (s.stopTimer .nextReq) = .ok ((), s')) :
    CoreStep A s (.event .nextReq) s' := by
  by_cases hidle : s.refreshState = .REF_IDLE
  · by_cases hnext : s.next = none
    · exact .other (processNextReqEvent_none hidle hnext h)
    · exact .commands hidle hnext (processNextReqEvent_idle hidle (hA hidle) h)
  · by_cases hdrain : s.refreshState = .REF_DRAIN
    · exact .handOver hdrain (processNextReqEvent_drain hdrain h)
    · exact .other (processNextReqEvent_refresh hidle hdrain h)

end MachineLemmas

open MachineLemmas

variable {input : DramInput} {A : ActivateRule cfg} {s s' : Dram cfg}

/-- All that an input can do. `A` holds of every activate that a request event makes. -/
theorem call_coreStep
    (hA : input = .event .nextReq → s.refreshState = .REF_IDLE → ∀ pkt ∈ s.next, s.Opens A pkt)
    (hen : s.Enabled input) (h : DramM.call input s = .ok ((), s')) : CoreStep A s input s' := by
  cases input with
  | event t =>
    simp only [DramM.call, bind_eq_ok, modify_eq_ok] at h
    obtain ⟨_, _, rfl, h⟩ := h
    cases t with
    | nextReq => exact processNextReqEvent_step (hA rfl) h
    | respond =>
      exact .other (trans_of Dram.SameCore rfl ((processRespondEvent_plain .never).1 _ _ _ h))
    | activate => exact processActivateEvent_step h
    | precharge => exact processPrechargeEvent_step h
    | refresh => exact processRefreshEvent_step h
    | power => exact processPowerEvent_step h
  | timingReq pkt =>
    obtain ⟨_, h⟩ := discard_eq_ok.mp h
    exact .other ((recvTimingReq_plain .never pkt).1 _ _ _ h)
  | drain => exact .other (modify_eq_ok.mp h ▸ core_ignores.drain s)
  | set call =>
    simp only [DramM.call, bind_eq_ok, get_eq_ok, lift_eq_ok, modify_eq_ok] at h
    obtain ⟨_, _, ⟨rfl, rfl⟩, _, _, ⟨_, rfl⟩, rfl⟩ := h
    exact .other rfl
  | advance tick =>
    obtain rfl := modify_eq_ok.mp h
    refine .advance hen.1 fun t => hen.2 t ?_
    cases t <;> simp

/-! ## The rows during a step -/

/-- The rows and their times stay, except that a refresh sets the next activate of every bank when
all rows are closed, and at most the start or the end of a refresh is logged. -/
structure Dram.SameRows (s s' : Dram cfg) : Prop where
  openRow : ∀ id, (s'.banks id).openRow = (s.banks id).openRow
  numRowsActive : ∀ id, (s'.banks id).numRowsActive = (s.banks id).numRowsActive
  preAllowedAt : ∀ id, (s'.banks id).preAllowedAt = (s.banks id).preAllowedAt
  colAllowedAt : ∀ id, (s'.banks id).colAllowedAt = (s.banks id).colAllowedAt
  actAllowedAt : s.numBanksActive = 0 ∨
    ∀ id, (s'.banks id).actAllowedAt = (s.banks id).actAllowedAt
  numBanksActive : s'.numBanksActive = s.numBanksActive
  commands : s'.commands = s.commands ∨
    ∃ t, s'.commands = .refreshStart t :: s.commands ∨ s'.commands = .refreshEnd t :: s.commands

namespace Dram.SameRows

variable {s s' : Dram cfg}

theorem of_eq (hbanks : s'.banks = s.banks) (hnum : s'.numBanksActive = s.numBanksActive)
    (hcommands : s'.commands = s.commands) : s.SameRows s' := by
  refine ⟨?_, ?_, ?_, ?_, .inr ?_, hnum, .inl hcommands⟩ <;> exact fun id => by rw [hbanks]

theorem core (h : s.SameCore s') : s.SameRows s' :=
  of_eq (congrArg DramCore.banks h) (congrArg DramCore.numBanksActive h)
    (congrArg DramCore.commands h)

end Dram.SameRows

theorem CoreStep.rows (h : CoreStep A s input s') :
    ∃ s₁ s₂, s.SameRows s₁ ∧ BankSteps A s₁ s₂ ∧ s₂.SameRows s' := by
  have hsame {s₁ : Dram cfg} (h₁ : s.SameRows s₁) :
      ∃ s₁' s₂, s.SameRows s₁' ∧ BankSteps A s₁' s₂ ∧ s₂.SameRows s₁ :=
    ⟨s, s, .of_eq rfl rfl rfl, .refl, h₁⟩
  cases h with
  | commands _ _ hpath => exact ⟨s, s', .of_eq rfl rfl rfl, hpath, .of_eq rfl rfl rfl⟩
  | other hcore => exact hsame (.core hcore)
  | handOver _ hcore =>
    refine ⟨_, _, ?_, keep_path hcore, .of_eq rfl rfl rfl⟩
    exact .of_eq rfl rfl rfl
  | prechargeAll _ _ _ hpath =>
    refine ⟨_, _, ?_, steps_imp (fun _ _ _ h => h.elim) hpath, .of_eq rfl rfl rfl⟩
    exact .of_eq rfl rfl rfl
  | refreshAgain _ _ hcan | refreshStart _ _ hcan =>
    exact hsame ⟨fun _ => rfl, fun _ => rfl, fun _ => rfl, fun _ => rfl, .inl hcan.closed, rfl,
      .inr ⟨_, .inl rfl⟩⟩
  | refreshEnd =>
    exact hsame ⟨fun _ => rfl, fun _ => rfl, fun _ => rfl, fun _ => rfl, .inr fun _ => rfl, rfl,
      .inr ⟨_, .inr rfl⟩⟩
  | advance | activateEvent | wake | prechargeEvent | sleep | refreshDue | refreshIdle
  | toActive | toIdle => exact hsame (.of_eq rfl rfl rfl)

theorem CoreStep.curTick_le (h : CoreStep A s input s') : s.curTick ≤ s'.curTick := by
  cases h with
  | commands _ _ hpath | prechargeAll _ _ _ hpath =>
    exact Nat.le_of_eq (machines_of_steps hpath).curTick.symm
  | other hcore | handOver _ hcore => exact Nat.le_of_eq (congrArg DramCore.curTick hcore).symm
  | advance hle => exact hle
  | _ => exact Nat.le_refl _

end PardG5V
