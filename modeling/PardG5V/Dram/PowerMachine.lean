import Mathlib.Logic.Function.Basic
import Mathlib.Logic.Relation
import PardG5V.Dram.State

/-!
# The power state machine and what it follows

What the power state is meant to follow, without banks, queues and refresh phases: row buffers `ι`
are opened and closed at ticks that may lie ahead, the activate event waits for the earliest
activate, the precharge event for the latest precharge, and both schedule the power event. The
rows change when a command is decided, the power state when the events run. `Inv` says how the
pending events make up for the difference.
-/

namespace PardG5V

open Relation

/-- `opened` holds the ticks of the activates of the open row buffers, `powerAt`, `actAt`
and `preAt` the ticks of the power, activate and precharge events. -/
structure PowerMachine (ι : Type) where
  now : Tick
  state : PowerState
  next : PowerState
  powerAt : Option Tick
  actAt : Option Tick
  preAt : Option Tick
  opened : ι → Option Tick

namespace PowerMachine

variable {ι : Type} {m m' : PowerMachine ι}

/-! ## Steps -/

/-- One step. A row buffer is opened only while no power event is pending, and is closed
after its activate; rows are not closed while the machine is about to wake up. -/
inductive Step [DecidableEq ι] (m : PowerMachine ι) : PowerMachine ι → Prop
  | opens {i : ι} {tick : Tick} (hpower : m.powerAt = none) (hnow : m.now ≤ tick) :
      Step m { m with
        opened := Function.update m.opened i (some tick)
        actAt := some (m.actAt.elim tick (min · tick)) }
  | closes {i : ι} {o tick : Tick} (hopen : m.opened i = some o) (hlt : o < tick)
      (hnow : m.now ≤ tick) (hsteady : m.powerAt = none ∨ m.state ≠ .PWR_IDLE) :
      Step m { m with
        opened := Function.update m.opened i none
        preAt := some (m.preAt.elim tick (max · tick)) }
  | advance {tick : Tick} (hle : m.now ≤ tick) (hact : ∀ a ∈ m.actAt, tick ≤ a)
      (hpre : ∀ p ∈ m.preAt, tick ≤ p) (hpower : ∀ w ∈ m.powerAt, tick ≤ w) :
      Step m { m with now := tick }
  | stillActive (hact : m.actAt = some m.now) (hstate : m.state = .PWR_ACT) :
      Step m { m with actAt := none }
  | wake (hact : m.actAt = some m.now) (hstate : m.state ≠ .PWR_ACT) (hpower : m.powerAt = none) :
      Step m { m with actAt := none, next := .PWR_ACT, powerAt := some m.now }
  | stillOpen {i : ι} {o : Tick} (hpre : m.preAt = some m.now) (hopen : m.opened i = some o) :
      Step m { m with preAt := none }
  | sleep (hpre : m.preAt = some m.now) (hclosed : ∀ i, m.opened i = none)
      (hpower : m.powerAt = none) :
      Step m { m with preAt := none, next := .PWR_IDLE, powerAt := some m.now }
  | refreshIdle (hstate : m.state = .PWR_IDLE) (hact : m.actAt = none) (hpower : m.powerAt = none)
      (hclosed : ∀ i, m.opened i = none) :
      Step m { m with next := .PWR_REF, powerAt := some m.now }
  | refreshAgain {done : Tick} (hstate : m.state = .PWR_REF) (hpower : m.powerAt = none) :
      Step m { m with next := .PWR_IDLE, powerAt := some done }
  | toActive (hpower : m.powerAt = some m.now) (hnext : m.next = .PWR_ACT) :
      Step m { m with state := .PWR_ACT, powerAt := none }
  | toIdle (hpower : m.powerAt = some m.now) (hnext : m.next = .PWR_IDLE) :
      Step m { m with state := .PWR_IDLE, powerAt := none }
  | refresh {done : Tick} (hpower : m.powerAt = some m.now)
      (hnext : m.next = .PWR_REF ∨ m.next = .PWR_IDLE ∧ m.state = .PWR_ACT) (hle : m.now ≤ done) :
      Step m { m with state := .PWR_REF, next := .PWR_IDLE, powerAt := some done }

/-! ## Phases -/

structure Quiet (m : PowerMachine ι) : Prop where
  closed : ∀ i, m.opened i = none
  act : m.actAt = none
  pre : m.preAt = none

/-- A row buffer is open, or a precharge is on its way. -/
def Busy (m : PowerMachine ι) : Prop := (∃ i o, m.opened i = some o) ∨ ∃ p, m.preAt = some p

/-- The six states of the power state and its event. -/
inductive Phase (m : PowerMachine ι) : Prop
  | idle (hstate : m.state = .PWR_IDLE) (hpower : m.powerAt = none)
  | waking (hstate : m.state = .PWR_IDLE) (hnext : m.next = .PWR_ACT)
      (hpower : m.powerAt = some m.now) (hact : m.actAt = none) (hbusy : m.Busy)
  | active (hstate : m.state = .PWR_ACT) (hpower : m.powerAt = none) (hbusy : m.Busy)
  | sleeping (hstate : m.state = .PWR_ACT) (hnext : m.next = .PWR_IDLE)
      (hpower : m.powerAt = some m.now) (hquiet : m.Quiet)
  | refreshSoon (hstate : m.state = .PWR_IDLE) (hnext : m.next = .PWR_REF)
      (hpower : m.powerAt = some m.now) (hquiet : m.Quiet)
  | refreshing {done : Tick} (hstate : m.state = .PWR_REF) (hnext : m.next = .PWR_IDLE)
      (hpower : m.powerAt = some done) (hle : m.now ≤ done) (hquiet : m.Quiet)

/-- The machine is active, or will be before time passes. -/
def Awake (m : PowerMachine ι) : Prop :=
  m.state = .PWR_ACT ∨ m.state = .PWR_IDLE ∧ m.next = .PWR_ACT ∧ m.powerAt = some m.now

/-- Each open row buffer and each precharge on its way has made the machine active, or an
activate event that comes first will; and an activate event has such a reason. -/
structure Inv (m : PowerMachine ι) : Prop where
  phase : m.Phase
  act_ge : ∀ a ∈ m.actAt, m.now ≤ a
  pre_ge : ∀ p ∈ m.preAt, m.now ≤ p
  opened : ∀ i, ∀ o ∈ m.opened i, m.Awake ∨ ∃ a ∈ m.actAt, a ≤ o
  pre : ∀ p ∈ m.preAt, m.state = .PWR_ACT ∨ m.Awake ∧ m.now < p ∨ ∃ a ∈ m.actAt, a < p
  act : ∀ a ∈ m.actAt, (∃ i, ∃ o ∈ m.opened i, a ≤ o) ∨ ∃ p ∈ m.preAt, a < p

/-! ## The events find no power event -/

theorem elim_min_le (e : Option Tick) (tick : Tick) :
    e.elim tick (min · tick) ≤ tick ∧ ∀ a ∈ e, e.elim tick (min · tick) ≤ a := by
  cases e with
  | none => exact ⟨Nat.le_refl _, nofun⟩
  | some a => exact ⟨Nat.min_le_right _ _, fun _ ha => Option.some.inj ha ▸ Nat.min_le_left _ _⟩

theorem le_elim_min {e : Option Tick} {now tick : Tick} (h : ∀ a ∈ e, now ≤ a) (hnow : now ≤ tick) :
    now ≤ e.elim tick (min · tick) := by
  cases e with
  | none => exact hnow
  | some a => exact Nat.le_min.mpr ⟨h a rfl, hnow⟩

theorem le_elim_max (e : Option Tick) (tick : Tick) :
    tick ≤ e.elim tick (max · tick) ∧ ∀ p ∈ e, p ≤ e.elim tick (max · tick) := by
  cases e with
  | none => exact ⟨Nat.le_refl _, nofun⟩
  | some p => exact ⟨Nat.le_max_right _ _, fun _ hp => Option.some.inj hp ▸ Nat.le_max_left _ _⟩

namespace Inv

variable {w o tick : Tick} {i : ι}

/-- The activate event wakes the machine only when no power event is pending. -/
theorem powerAt_of_act (h : m.Inv) (hact : m.actAt = some m.now) (hstate : m.state ≠ .PWR_ACT) :
    m.state = .PWR_IDLE ∧ m.powerAt = none := by
  cases h.phase with
  | idle hidle hpower => exact ⟨hidle, hpower⟩
  | waking _ _ _ hnone => cases hnone.symm.trans hact
  | active hactive | sleeping hactive => exact absurd hactive hstate
  | refreshSoon _ _ _ hquiet | refreshing _ _ _ _ hquiet => cases hquiet.act.symm.trans hact

/-- When the precharge event runs, every activate before it has reached the power state. -/
theorem active_of_pre (h : m.Inv) (hpre : m.preAt = some m.now) : m.state = .PWR_ACT := by
  rcases h.pre m.now hpre with hactive | ⟨_, hlt⟩ | ⟨a, ha, hlt⟩
  · exact hactive
  · exact absurd hlt (Nat.lt_irrefl _)
  · exact absurd hlt (Nat.not_lt.mpr (h.act_ge a ha))

/-- The precharge event finds no power event pending. -/
theorem powerAt_of_pre (h : m.Inv) (hpre : m.preAt = some m.now) : m.powerAt = none := by
  have hactive := h.active_of_pre hpre
  cases h.phase with
  | idle _ hpower | active _ hpower => exact hpower
  | waking hidle => cases hidle.symm.trans hactive
  | sleeping _ _ _ hquiet | refreshSoon _ _ _ hquiet | refreshing _ _ _ _ hquiet =>
    cases hquiet.pre.symm.trans hpre

/-- The idle state is entered from the active or the refresh state. -/
theorem leaves_idle (h : m.Inv) (hpower : m.powerAt = some w)
    (hnext : m.next = .PWR_IDLE) : m.state = .PWR_ACT ∨ m.state = .PWR_REF := by
  cases h.phase with
  | idle _ hnone => cases hnone.symm.trans hpower
  | waking _ hwaking => cases hwaking.symm.trans hnext
  | active hactive | sleeping hactive => exact .inl hactive
  | refreshSoon _ hsoon => cases hsoon.symm.trans hnext
  | refreshing hrefresh => exact .inr hrefresh

/-- No row buffer is open in the idle state when no event is pending that would leave it. -/
theorem closed_of_idle (h : m.Inv) (hidle : m.state = .PWR_IDLE) (hact : m.actAt = none)
    (hpower : m.powerAt = none) (i : ι) : m.opened i = none := by
  cases hopen : m.opened i with
  | none => rfl
  | some o =>
    rcases h.opened i o hopen with (hactive | ⟨_, _, hnow⟩) | ⟨a, ha, _⟩
    · cases hactive.symm.trans hidle
    · cases hpower.symm.trans hnow
    · cases hact.symm.trans ha

/-- When nothing is due, an open row buffer in the idle state has its activate ahead. -/
theorem idle_opened (h : m.Inv) (hact : ∀ a ∈ m.actAt, m.now < a)
    (hpower : ∀ w ∈ m.powerAt, m.now < w) (hidle : m.state = .PWR_IDLE)
    (hopen : m.opened i = some o) : m.now < o := by
  rcases h.opened i o hopen with (hactive | ⟨_, _, hnow⟩) | ⟨a, ha, hle⟩
  · cases hactive.symm.trans hidle
  · exact absurd (hpower _ hnow) (Nat.lt_irrefl _)
  · exact Nat.lt_of_lt_of_le (hact a ha) hle

/-! ## Steps keep the invariant -/

theorem opens [DecidableEq ι] (h : m.Inv) (hpower : m.powerAt = none) (hnow : m.now ≤ tick) :
    Inv { m with
      opened := Function.update m.opened i (some tick)
      actAt := some (m.actAt.elim tick (min · tick)) } := by
  obtain ⟨hle, hle_old⟩ := elim_min_le m.actAt tick
  have hself : Function.update m.opened i (some tick) i = some tick := Function.update_self _ _ _
  have hnot_awake (hawake : m.Awake) : m.state = .PWR_ACT := by
    rcases hawake with hactive | ⟨_, _, hsome⟩
    · exact hactive
    · cases hpower.symm.trans hsome
  constructor
  · cases h.phase with
    | idle hstate _ => exact .idle hstate hpower
    | waking _ _ hsome | sleeping _ _ hsome | refreshSoon _ _ hsome | refreshing _ _ hsome =>
      cases hpower.symm.trans hsome
    | active hstate _ _ => exact .active hstate hpower (.inl ⟨i, tick, hself⟩)
  · rintro a ⟨⟩
    exact le_elim_min h.act_ge hnow
  · exact h.pre_ge
  · intro j o ho
    by_cases hj : j = i
    · subst hj
      cases hself.symm.trans ho
      exact .inr ⟨_, rfl, hle⟩
    · have hold : m.opened j = some o := (Function.update_of_ne hj _ _).symm.trans ho
      rcases h.opened j o hold with hawake | ⟨a, ha, hao⟩
      · exact .inl (.inl (hnot_awake hawake))
      · exact .inr ⟨_, rfl, Nat.le_trans (hle_old a ha) hao⟩
  · intro p hp
    rcases h.pre p hp with hactive | ⟨hawake, _⟩ | ⟨a, ha, hlt⟩
    · exact .inl hactive
    · exact .inl (hnot_awake hawake)
    · exact .inr (.inr ⟨_, rfl, Nat.lt_of_le_of_lt (hle_old a ha) hlt⟩)
  · rintro a ⟨⟩
    exact .inl ⟨i, tick, hself, hle⟩

theorem closes [DecidableEq ι] (h : m.Inv) (hopen : m.opened i = some o)
    (hlt : o < tick) (hnow : m.now ≤ tick) (hsteady : m.powerAt = none ∨ m.state ≠ .PWR_IDLE) :
    Inv { m with
      opened := Function.update m.opened i none
      preAt := some (m.preAt.elim tick (max · tick)) } := by
  obtain ⟨hle, hle_old⟩ := le_elim_max m.preAt tick
  have hawake (hawake : m.Awake) : m.state = .PWR_ACT := by
    rcases hawake with hactive | ⟨hidle, _, hsome⟩
    · exact hactive
    · rcases hsteady with hnone | hne
      · cases hnone.symm.trans hsome
      · exact absurd hidle hne
  constructor
  · cases h.phase with
    | idle hstate hpower => exact .idle hstate hpower
    | waking hidle hnext hpower => cases hidle.symm.trans (hawake (.inr ⟨hidle, hnext, hpower⟩))
    | active hstate hpower _ => exact .active hstate hpower (.inr ⟨_, rfl⟩)
    | sleeping _ _ _ hquiet | refreshSoon _ _ _ hquiet | refreshing _ _ _ _ hquiet =>
      cases (hquiet.closed i).symm.trans hopen
  · exact h.act_ge
  · rintro p ⟨⟩
    exact Nat.le_trans hnow hle
  · intro j o' ho'
    by_cases hj : j = i
    · subst hj
      cases (Function.update_self j none m.opened).symm.trans ho'
    · have hold : m.opened j = some o' := (Function.update_of_ne hj _ _).symm.trans ho'
      rcases h.opened j o' hold with hawake' | hact
      · exact .inl (.inl (hawake hawake'))
      · exact .inr hact
  · rintro p ⟨⟩
    rcases h.opened i o hopen with hawake' | ⟨a, ha, hao⟩
    · exact .inl (hawake hawake')
    · exact .inr (.inr ⟨a, ha, Nat.lt_of_le_of_lt hao (Nat.lt_of_lt_of_le hlt hle)⟩)
  · intro a ha
    rcases h.act a ha with ⟨j, o', ho', hao⟩ | ⟨p, hp, hap⟩
    · by_cases hj : j = i
      · subst hj
        cases hopen.symm.trans ho'
        exact .inr ⟨_, rfl, Nat.lt_of_le_of_lt hao (Nat.lt_of_lt_of_le hlt hle)⟩
      · exact .inl ⟨j, o', (Function.update_of_ne hj _ _).trans ho', hao⟩
    · exact .inr ⟨_, rfl, Nat.lt_of_lt_of_le hap (hle_old p hp)⟩

theorem advance (h : m.Inv) (hle : m.now ≤ tick) (hact : ∀ a ∈ m.actAt, tick ≤ a)
    (hpre : ∀ p ∈ m.preAt, tick ≤ p) (hpower : ∀ w ∈ m.powerAt, tick ≤ w) :
    Inv { m with now := tick } := by
  have hnow (hsome : m.powerAt = some m.now) : m.powerAt = some tick := by
    rw [hsome, Nat.le_antisymm hle (hpower m.now hsome)]
  have hawake (hawake : m.Awake) : Awake { m with now := tick } := by
    rcases hawake with hactive | ⟨hidle, hnext, hsome⟩
    · exact .inl hactive
    · exact .inr ⟨hidle, hnext, hnow hsome⟩
  constructor
  · cases h.phase with
    | idle hstate hpower => exact .idle hstate hpower
    | waking hstate hnext hsome hnone hbusy => exact .waking hstate hnext (hnow hsome) hnone hbusy
    | active hstate hpower hbusy => exact .active hstate hpower hbusy
    | sleeping hstate hnext hsome hquiet =>
      exact .sleeping hstate hnext (hnow hsome) { hquiet with }
    | refreshSoon hstate hnext hsome hquiet =>
      exact .refreshSoon hstate hnext (hnow hsome) { hquiet with }
    | refreshing hstate hnext hsome _ hquiet =>
      exact .refreshing hstate hnext hsome (hpower _ hsome) { hquiet with }
  · exact hact
  · exact hpre
  · intro i o ho
    exact (h.opened i o ho).imp_left hawake
  · intro p hp
    rcases h.pre p hp with hactive | ⟨hawake', hlt⟩ | hact'
    · exact .inl hactive
    · rcases hawake' with hactive | ⟨hidle, hnext, hsome⟩
      · exact .inl hactive
      · have heq := Nat.le_antisymm hle (hpower m.now hsome)
        exact .inr (.inl ⟨.inr ⟨hidle, hnext, hnow hsome⟩, heq ▸ hlt⟩)
    · exact .inr (.inr hact')
  · exact h.act

theorem of_quiet (hquiet : m.Quiet) (hphase : m.Phase) : m.Inv := by
  obtain ⟨hclosed, hact, hpre⟩ := hquiet
  refine ⟨hphase, ?_, ?_, ?_, ?_, ?_⟩
  · rw [hact]
    exact fun _ ha => nomatch ha
  · rw [hpre]
    exact fun _ hp => nomatch hp
  · intro i o ho
    rw [hclosed i] at ho
    cases ho
  · rw [hpre]
    exact fun _ hp => nomatch hp
  · rw [hact]
    exact fun _ ha => nomatch ha

theorem stillActive (h : m.Inv) (hstate : m.state = .PWR_ACT) : Inv { m with actAt := none } := by
  refine ⟨?_, (fun _ ha => nomatch ha), h.pre_ge, fun _ _ _ => .inl (.inl hstate),
    fun _ _ => .inl hstate, (fun _ ha => nomatch ha)⟩
  cases h.phase with
  | idle hidle | waking hidle | refreshSoon hidle => cases hidle.symm.trans hstate
  | active _ hpower hbusy => exact .active hstate hpower hbusy
  | sleeping _ hnext hpower hquiet =>
    exact .sleeping hstate hnext hpower ⟨hquiet.closed, rfl, hquiet.pre⟩
  | refreshing hrefresh => cases hrefresh.symm.trans hstate

theorem wake (h : m.Inv) (hact : m.actAt = some m.now) (hstate : m.state ≠ .PWR_ACT) :
    Inv { m with actAt := none, next := .PWR_ACT, powerAt := some m.now } := by
  obtain ⟨hidle, hpower⟩ := h.powerAt_of_act hact hstate
  have hnot (hawake : m.Awake) : False := by
    rcases hawake with hactive | ⟨_, _, hsome⟩
    · exact hstate hactive
    · cases hpower.symm.trans hsome
  have hbusy : m.Busy := by
    rcases h.act m.now hact with ⟨i, o, ho, _⟩ | ⟨p, hp, _⟩
    · exact .inl ⟨i, o, ho⟩
    · exact .inr ⟨p, hp⟩
  refine ⟨.waking hidle rfl rfl rfl hbusy, (fun _ ha => nomatch ha), h.pre_ge, ?_, ?_,
    (fun _ ha => nomatch ha)⟩
  · exact fun _ _ _ => .inl (.inr ⟨hidle, rfl, rfl⟩)
  · intro p hp
    rcases h.pre p hp with hactive | ⟨hawake, _⟩ | ⟨a, ha, hlt⟩
    · exact absurd hactive hstate
    · exact (hnot hawake).elim
    · cases hact.symm.trans ha
      exact .inr (.inl ⟨.inr ⟨hidle, rfl, rfl⟩, hlt⟩)

theorem stillOpen (h : m.Inv) (hpre : m.preAt = some m.now)
    (hopen : m.opened i = some o) : Inv { m with preAt := none } := by
  refine ⟨?_, h.act_ge, (fun _ hp => nomatch hp), h.opened, (fun _ hp => nomatch hp), ?_⟩
  · cases h.phase with
    | idle hstate hpower => exact .idle hstate hpower
    | waking hstate hnext hpower hact _ =>
      exact .waking hstate hnext hpower hact (.inl ⟨i, o, hopen⟩)
    | active hstate hpower _ => exact .active hstate hpower (.inl ⟨i, o, hopen⟩)
    | sleeping _ _ _ hquiet | refreshSoon _ _ _ hquiet | refreshing _ _ _ _ hquiet =>
      cases hquiet.pre.symm.trans hpre
  · intro a ha
    rcases h.act a ha with hopened | ⟨p, hp, hlt⟩
    · exact .inl hopened
    · cases hpre.symm.trans hp
      exact absurd hlt (Nat.not_lt.mpr (h.act_ge a ha))

/-- Once every row buffer is closed, no activate is on its way when the precharge event
runs. -/
theorem sleep (h : m.Inv) (hpre : m.preAt = some m.now) (hclosed : ∀ i, m.opened i = none) :
    Inv { m with preAt := none, next := .PWR_IDLE, powerAt := some m.now } := by
  have hact : m.actAt = none := by
    cases hsome : m.actAt with
    | none => rfl
    | some a =>
      rcases h.act a hsome with ⟨i, o, ho, _⟩ | ⟨p, hp, hlt⟩
      · cases (hclosed i).symm.trans ho
      · cases hpre.symm.trans hp
        exact absurd hlt (Nat.not_lt.mpr (h.act_ge a hsome))
  exact of_quiet ⟨hclosed, hact, rfl⟩
    (.sleeping (h.active_of_pre hpre) rfl rfl ⟨hclosed, hact, rfl⟩)

theorem refreshIdle (h : m.Inv) (hstate : m.state = .PWR_IDLE) (hact : m.actAt = none)
    (hpower : m.powerAt = none) (hclosed : ∀ i, m.opened i = none) :
    Inv { m with next := .PWR_REF, powerAt := some m.now } := by
  have hpre : m.preAt = none := by
    cases hsome : m.preAt with
    | none => rfl
    | some p =>
      rcases h.pre p hsome with hactive | ⟨hactive | ⟨_, _, hnow⟩, _⟩ | ⟨a, ha, _⟩
      · cases hactive.symm.trans hstate
      · cases hactive.symm.trans hstate
      · cases hpower.symm.trans hnow
      · cases hact.symm.trans ha
  exact of_quiet ⟨hclosed, hact, hpre⟩ (.refreshSoon hstate rfl rfl ⟨hclosed, hact, hpre⟩)

theorem toActive (h : m.Inv) (hpower : m.powerAt = some m.now) (hnext : m.next = .PWR_ACT) :
    Inv { m with state := .PWR_ACT, powerAt := none } := by
  refine ⟨?_, h.act_ge, h.pre_ge, fun _ _ _ => .inl (.inl rfl), fun _ _ => .inl rfl, h.act⟩
  cases h.phase with
  | idle _ hnone | active _ hnone => cases hnone.symm.trans hpower
  | waking _ _ _ _ hbusy => exact .active rfl rfl hbusy
  | sleeping _ hidle | refreshing _ hidle => cases hidle.symm.trans hnext
  | refreshSoon _ hrefresh => cases hrefresh.symm.trans hnext

/-- A power event that leaves the active or the refresh state finds a quiet machine. -/
theorem quiet_of_next (h : m.Inv) (hpower : m.powerAt = some w)
    (hnext : m.next ≠ .PWR_ACT) : m.Quiet := by
  cases h.phase with
  | idle _ hnone | active _ hnone => cases hnone.symm.trans hpower
  | waking _ hwaking => exact absurd hwaking hnext
  | sleeping _ _ _ hquiet | refreshSoon _ _ _ hquiet | refreshing _ _ _ _ hquiet => exact hquiet

/-- From the refresh state the machine goes to the idle state. -/
theorem next_of_refresh (h : m.Inv) (hrefresh : m.state = .PWR_REF) : m.next = .PWR_IDLE := by
  cases h.phase with
  | idle hidle | waking hidle | refreshSoon hidle => cases hidle.symm.trans hrefresh
  | active hactive | sleeping hactive => cases hactive.symm.trans hrefresh
  | refreshing _ hnext => exact hnext

theorem state_ne_refresh (h : m.Inv) (hpower : m.powerAt = none) : m.state ≠ .PWR_REF := by
  intro hrefresh
  cases h.phase with
  | idle hidle | waking hidle | refreshSoon hidle => cases hidle.symm.trans hrefresh
  | active hactive | sleeping hactive => cases hactive.symm.trans hrefresh
  | refreshing _ _ hsome => cases hpower.symm.trans hsome

theorem step [DecidableEq ι] (h : m.Inv) (hstep : Step m m') : m'.Inv := by
  cases hstep with
  | opens hpower hnow => exact h.opens hpower hnow
  | closes hopen hlt hnow hsteady => exact h.closes hopen hlt hnow hsteady
  | advance hle hact hpre hpower => exact h.advance hle hact hpre hpower
  | stillActive _ hstate => exact h.stillActive hstate
  | wake hact hstate _ => exact h.wake hact hstate
  | stillOpen hpre hopen => exact h.stillOpen hpre hopen
  | sleep hpre hclosed _ => exact h.sleep hpre hclosed
  | refreshIdle hstate hact hpower hclosed => exact h.refreshIdle hstate hact hpower hclosed
  | refreshAgain hstate hpower => exact absurd hstate (h.state_ne_refresh hpower)
  | toActive hpower hnext => exact h.toActive hpower hnext
  | toIdle hpower hnext =>
    obtain ⟨hclosed, hact, hpre⟩ := h.quiet_of_next hpower (by rw [hnext]; decide)
    exact of_quiet ⟨hclosed, hact, hpre⟩ (.idle rfl rfl)
  | refresh hpower hnext hle =>
    have hne : m.next ≠ .PWR_ACT := by
      rcases hnext with hnext | ⟨hnext, _⟩ <;> rw [hnext] <;> decide
    obtain ⟨hclosed, hact, hpre⟩ := h.quiet_of_next hpower hne
    exact of_quiet ⟨hclosed, hact, hpre⟩ (.refreshing rfl rfl rfl hle ⟨hclosed, hact, hpre⟩)

theorem run [DecidableEq ι] (h : m.Inv) (hrun : ReflTransGen Step m m') : m'.Inv := by
  induction hrun with
  | refl => exact h
  | tail _ hstep ih => exact ih.step hstep

end Inv

end PowerMachine

end PardG5V
