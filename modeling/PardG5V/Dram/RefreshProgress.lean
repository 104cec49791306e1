import PardG5V.Dram.Loop
import PardG5V.Dram.RefreshSafety

/-!
# A refresh comes to its end

A refresh that has stopped the request loop waits for the request event, its own event, the
precharge event and the power event. Nothing that the refresh itself does schedules the precharge
event when all row buffers are closed already.

Results: `CoreStep.settles`, `Dram.Reachable.inRefresh`.
-/

namespace PardG5V

open Prog Relation BankLemmas

variable {cfg : DramConfig}

/-! ## The power state returns to idle -/

namespace PowerMachine

variable {ι : Type} {m : PowerMachine ι}

/-- The machine is active, or a power event will make it so. -/
def ToActive (m : PowerMachine ι) : Prop :=
  m.state = .PWR_ACT ∨ m.powerAt ≠ none ∧ m.next = .PWR_ACT

/-- A power event will make the machine idle. -/
def ToIdle (m : PowerMachine ι) : Prop := m.powerAt ≠ none ∧ m.next = .PWR_IDLE

structure Settles (m : PowerMachine ι) : Prop where
  act_ge : ∀ a ∈ m.actAt, m.now ≤ a
  act : ∀ a ∈ m.actAt, (∃ i, ∃ o ∈ m.opened i, a ≤ o) ∨ ∃ p ∈ m.preAt, a < p
  active : m.ToActive → m.Busy ∨ m.ToIdle

namespace Settles

/-- A row buffer is opened. Without an activation window the activate event is left as it
is. -/
theorem opens [DecidableEq ι] (h : m.Settles) {i : ι} {tick : Tick} {actAt : Option Tick}
    (hclosed : m.opened i = none) (hnow : m.now ≤ tick)
    (hact : actAt = m.actAt ∨ actAt = some (m.actAt.elim tick (min · tick))) :
    Settles { m with opened := Function.update m.opened i (some tick), actAt } := by
  have hself : Function.update m.opened i (some tick) i = some tick := Function.update_self _ _ _
  rcases hact with rfl | rfl
  · refine ⟨h.act_ge, fun a ha => ?_, fun _ => .inl (.inl ⟨i, tick, hself⟩)⟩
    refine (h.act a ha).imp_left fun ⟨j, o, ho, hle⟩ => ⟨j, o, ?_, hle⟩
    have hj : j ≠ i := by
      rintro rfl
      cases hclosed.symm.trans ho
    exact (Function.update_of_ne hj _ _).trans ho
  · refine ⟨?_, ?_, fun _ => .inl (.inl ⟨i, tick, hself⟩)⟩
    · rintro a ⟨⟩
      exact le_elim_min h.act_ge hnow
    · rintro a ⟨⟩
      exact .inl ⟨i, tick, hself, (elim_min_le m.actAt tick).1⟩

theorem closes [DecidableEq ι] (h : m.Settles) {i : ι} {o tick : Tick}
    (hopen : m.opened i = some o) (hlt : o < tick) :
    Settles { m with
      opened := Function.update m.opened i none
      preAt := some (m.preAt.elim tick (max · tick)) } := by
  obtain ⟨hle, hle_old⟩ := le_elim_max m.preAt tick
  refine ⟨h.act_ge, fun a ha => ?_, fun _ => .inl (.inr ⟨_, rfl⟩)⟩
  rcases h.act a ha with ⟨j, o', ho', hao⟩ | ⟨p, hp, hap⟩
  · rcases eq_or_ne j i with rfl | hj
    · cases hopen.symm.trans ho'
      exact .inr ⟨_, rfl, Nat.lt_of_le_of_lt hao (Nat.lt_of_lt_of_le hlt hle)⟩
    · exact .inl ⟨j, o', (Function.update_of_ne hj _ _).trans ho', hao⟩
  · exact .inr ⟨_, rfl, Nat.lt_of_lt_of_le hap (hle_old p hp)⟩

/-- The precharge event that runs now is no reason for an activate event. -/
theorem act_of_pre (h : m.Settles) (hpre : m.preAt = some m.now) :
    ∀ a ∈ m.actAt, ∃ i, ∃ o ∈ m.opened i, a ≤ o := by
  intro a ha
  rcases h.act a ha with hopened | ⟨p, hp, hlt⟩
  · exact hopened
  · cases hpre.symm.trans hp
    exact absurd hlt (Nat.not_lt.mpr (h.act_ge a ha))

/-- The activate event that runs now finds a row buffer open or a precharge on its way. -/
theorem busy_of_act (h : m.Settles) (hact : m.actAt = some m.now) : m.Busy := by
  rcases h.act m.now hact with ⟨i, o, ho, _⟩ | ⟨p, hp, _⟩
  · exact .inl ⟨i, o, ho⟩
  · exact .inr ⟨p, hp⟩

theorem power {state next : PowerState} {powerAt : Option Tick} (h : m.Settles)
    (hactive : ToActive { m with state, next, powerAt } →
      m.Busy ∨ ToIdle { m with state, next, powerAt }) :
    Settles { m with state, next, powerAt } :=
  ⟨h.act_ge, h.act, hactive⟩

end Settles

end PowerMachine

/-! ## Commands and inputs -/

namespace Dram

/-- An activate opens its row buffer, and moves the activate event if there is a window. -/
theorem powerView_activated_cases (s : Dram cfg) (buf : RowBuf cfg) (row : Row) (tick : Tick) :
    ∃ actAt, (actAt = s.powerView.actAt ∨
        actAt = some (s.powerView.actAt.elim tick (min · tick))) ∧
      (s.activated buf row tick).powerView = { s.powerView with
        opened := Function.update s.powerView.opened buf (some tick)
        actAt } := by
  rcases eq_or_ne (s.actTicks buf.bank.rank) [] with hnil | hne
  · refine ⟨s.activateEvent, .inl rfl, ?_⟩
    have hactivated : s.activated buf row tick = s.opened buf row tick := by
      unfold activated
      rw [hnil]
      rfl
    have hopened : (fun buf' => openedAt buf' (s.activated buf row tick).commands) =
        Function.update s.powerView.opened buf (some tick) := by
      funext buf'
      rw [openedAt_activated]
      rcases eq_or_ne buf' buf with rfl | hbuf
      · rw [if_pos rfl, Function.update_self]
      · rw [if_neg fun h => hbuf h.symm, Function.update_of_ne hbuf]
        rfl
    rw [hactivated] at hopened ⊢
    show { (s.opened buf row tick).powerView with
      opened := fun buf' => openedAt buf' (s.opened buf row tick).commands } = _
    rw [hopened]
    rfl
  · exact ⟨_, .inr rfl, powerView_activated hne⟩

end Dram

section Inputs

variable {A : ActivateRule cfg} {s s' : Dram cfg}
  {input : DramInput}

theorem BankStep.settles (htime : 0 < cfg.tRAS + cfg.tRP) (hclocked : s.Clocked)
    (h : s.powerView.Settles) (hstep : BankStep A s s') : s'.powerView.Settles := by
  cases hstep with
  | keep hcore => rwa [Dram.powerView_core hcore]
  | @activate buf row tick _ hclosed _ htick =>
    obtain ⟨actAt, hact, hview⟩ := Dram.powerView_activated_cases s buf row tick
    rw [hview]
    exact h.opens (hclocked.openedAt_eq_none hclosed) (htick ▸ Nat.le_max_right _ _) hact
  | @precharge buf tick hopen hpre _ =>
    obtain ⟨o, ho, hlt⟩ := hclocked.opened_before htime hopen hpre
    rw [Dram.powerView_precharged]
    exact h.closes ho hlt
  | @access pkt cmdAt readyTime =>
    rwa [Dram.powerView_accessed]
  | defer => exact h

theorem BankSteps.settles (htime : 0 < cfg.tRAS + cfg.tRP) (hclocked : s.Clocked)
    (h : s.powerView.Settles) (hpath : BankSteps A s s') : s'.powerView.Settles := by
  induction hpath with
  | refl => exact h
  | tail hpath hstep ih => exact hstep.settles htime (hclocked.steps hpath) ih

/-- An input leaves an active machine with a reason to be active, or on its way to idle. -/
theorem CoreStep.settles (htime : 0 < cfg.tRAS + cfg.tRP) (hcounted : s.Counted)
    (hclocked : s.Clocked) (hen : s.Enabled input) (h : s.powerView.Settles)
    (hstep : CoreStep A s input s') : s'.powerView.Settles := by
  have hclosed := Dram.closed_iff_openedAt hcounted hclocked
  cases hstep with
  | commands _ _ hpath => exact hpath.settles htime hclocked h
  | other hcore => rwa [Dram.powerView_core hcore]
  | handOver _ hcore =>
    rw [Dram.powerView_core hcore]
    exact h
  | advance _ hdue => exact ⟨hdue .activate, h.act, h.active⟩
  | activateEvent hact =>
    exact ⟨(fun _ ha => nomatch ha), (fun _ ha => nomatch ha), fun _ => h.active (.inl hact)⟩
  | wake =>
    exact ⟨(fun _ ha => nomatch ha), (fun _ ha => nomatch ha), fun _ => .inl (h.busy_of_act hen)⟩
  | prechargeEvent hopen =>
    obtain ⟨buf, hbuf⟩ := not_forall.mp fun hnone => hopen (hclosed.mpr hnone)
    obtain ⟨o, ho⟩ := Option.ne_none_iff_exists'.mp hbuf
    exact ⟨h.act_ge, fun a ha => .inl (h.act_of_pre hen a ha), fun _ => .inl (.inl ⟨buf, o, ho⟩)⟩
  | sleep hnone =>
    refine ⟨h.act_ge, fun a ha => ?_, fun _ => .inr ⟨Option.some_ne_none _, rfl⟩⟩
    obtain ⟨buf, o, ho, _⟩ := h.act_of_pre hen a ha
    cases (hclosed.mp hnone buf).symm.trans ho
  | refreshDue => exact h
  | @prechargeAll due s₁ _ _ _ hpath =>
    have hdue : { s with
        refreshEvent := none, refreshState := .REF_PRE, refreshDueAt := due }.Clocked :=
      hclocked.mono (fun _ => rfl) (fun _ => Nat.le_refl _) (fun _ => Nat.le_refl _)
        (fun _ => Nat.le_refl _) fun _ => rfl
    have hsettles := BankSteps.settles htime hdue h hpath
    exact hsettles
  | refreshIdle _ hidle =>
    refine h.power fun hactive => ?_
    rcases hactive with hact | ⟨_, hnext⟩
    · cases hact.symm.trans hidle
    · cases hnext
  | refreshAgain | refreshStart => exact h.power fun _ => .inr ⟨Option.some_ne_none _, rfl⟩
  | toActive htrans =>
    have hpending : s.powerEvent ≠ none := by
      rw [show s.powerEvent = _ from hen]
      exact Option.some_ne_none _
    refine h.power fun _ => (h.active (.inr ⟨hpending, htrans⟩)).imp_right fun hidle => ?_
    cases htrans.symm.trans hidle.2
  | toIdle | refreshEnd =>
    refine h.power fun hactive => ?_
    rcases hactive with hact | ⟨hnone, _⟩
    · cases hact
    · exact absurd rfl hnone

end Inputs

/-! ## Runs -/

namespace Dram

variable {s : Dram cfg} {P : Dram cfg → DramInput → Prop}

/-- A refresh has stopped the request loop, and an event moves it on: the request event hands over,
its own event precharges, the precharge event leads to idle, or the power event starts or ends
it. -/
inductive InRefresh (s : Dram cfg) : Prop
  | drain (hstate : s.refreshState = .REF_DRAIN) (hevent : s.nextReqEvent ≠ none)
  | pre (hstate : s.refreshState = .REF_PRE) (hevent : s.refreshEvent = some s.curTick)
  | closing (hstate : s.refreshState = .REF_RUN) (hpwr : s.pwrState = .PWR_ACT)
      (hclosed : s.numBanksActive = 0) (hevent : s.prechargeEvent ≠ none)
  | power (hstate : s.refreshState = .REF_RUN) (hevent : s.powerEvent ≠ none)
      (hnext : s.pwrStateTrans ≠ .PWR_ACT)

theorem Reachable.settles (htime : 0 < cfg.tRAS + cfg.tRP) (h : s.Reachable P) :
    s.powerView.Settles := by
  refine h.induct (I := fun s => s.powerView.Settles) (fun _ => ?_)
    fun s input s' hs ih hen _ hcall => ?_
  · refine ⟨(fun _ ha => nomatch ha), (fun _ ha => nomatch ha), fun hactive => ?_⟩
    rcases hactive with hact | ⟨hnone, _⟩
    · cases hact
    · exact absurd rfl hnone
  · have hstep : CoreStep (fun _ _ _ => True) _ _ _ :=
      call_coreStep (fun _ _ _ _ _ => trivial) hen hcall
    exact hstep.settles htime hs.counted hs.clocked hen ih

/-- In every reachable state in which a refresh has stopped the request loop, an event
moves the refresh on. -/
theorem Reachable.inRefresh (htime : 0 < cfg.tRAS + cfg.tRP) (h : s.Reachable P)
    (hstate : s.refreshState ≠ .REF_IDLE) : s.InRefresh := by
  cases h.refreshPhase with
  | idle hidle => exact absurd hidle hstate
  | drain hdrain => exact .drain hdrain (h.awake.drain hdrain)
  | pre hpre hevent => exact .pre hpre hevent
  | closing hrun _ hpwr hclosed =>
    have hopened := (closed_iff_openedAt h.counted h.clocked).mp hclosed
    rcases (h.settles htime).active (.inl hpwr) with (⟨buf, o, ho⟩ | ⟨p, hp⟩) | ⟨hpower, hidle⟩
    · cases (hopened buf).symm.trans ho
    · refine .closing hrun hpwr hclosed ?_
      rw [show s.prechargeEvent = some p from hp]
      exact Option.some_ne_none p
    · refine .power hrun hpower ?_
      rw [show s.pwrStateTrans = .PWR_IDLE from hidle]
      exact PowerState.noConfusion
  | soon hrun _ _ htrans hpower =>
    refine .power hrun hpower ?_
    rw [htrans]
    exact PowerState.noConfusion
  | run hrun _ _ _ htrans hpower =>
    refine .power hrun ?_ ?_
    · rw [hpower]
      exact Option.some_ne_none _
    · rw [htrans]
      exact PowerState.noConfusion

end Dram

end PardG5V
