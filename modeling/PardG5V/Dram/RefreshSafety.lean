import PardG5V.Dram.Effective
import PardG5V.Dram.Power

/-!
# Refreshes

A refresh waits for the request event, precharges all row buffers, waits for the power state
machine to become idle, lasts tRFC, and hands back to the request event.

Results: `refresh_safe`, `refresh_inside_refresh`.
-/

namespace PardG5V

open Prog Relation BankLemmas MachineLemmas DramAbortLemmas

variable {cfg : DramConfig}

/-! ## The precharge of all row buffers -/

namespace RefreshLemmas

variable {s s' : Dram cfg} {preAt : Tick} {buf buf' : RowBuf cfg}

theorem refreshPrechargeBuf_openRow (h : refreshPrechargeBuf preAt buf s = .ok ((), s')) :
    s'.openRow buf' = if buf' = buf then none else s.openRow buf' := by
  simp only [refreshPrechargeBuf, bind_eq_ok, get_eq_ok] at h
  obtain ⟨_, _, ⟨rfl, rfl⟩, h⟩ := h
  rcases when_eq_ok.mp h with ⟨_, h⟩ | ⟨hclosed, rfl⟩
  · simp only [bind_eq_ok, modify_eq_ok] at h
    obtain ⟨_, s₁, hpre, rfl⟩ := h
    obtain ⟨_, rfl⟩ := prechargeBank_eq_ok hpre
    rw [← openRow_precharged s buf buf' (max (s.banks buf.bank).preAllowedAt preAt)]
    unfold Dram.openRow
    rw [banks_setBank]
    split
    · next hid => rw [hid]
    · rfl
  · split
    · next hbuf => simpa [hbuf] using hclosed
    · rfl

theorem refreshPrechargeBuf_keeps (buf buf' : RowBuf cfg) :
    Keeps (fun s => s.openRow buf' = none) (refreshPrechargeBuf preAt buf) := by
  intro s hclosed u s' h
  rw [refreshPrechargeBuf_openRow h, hclosed, ite_self]

theorem refreshPrecharge_keeps (id : BankId cfg) (buf : RowBuf cfg) :
    Keeps (fun s => s.openRow buf = none) (refreshPrecharge preAt id) := by
  refine .bind .get fun s => .ite (fun _ => .modify fun s hclosed => ?_) fun _ => ?_
  · show ((s.setBank id _).banks buf.bank).openRow buf.num = none
    rw [banks_setBank]
    split
    · next hid => exact hid ▸ hclosed
    · exact hclosed
  · exact .forEach fun i _ => refreshPrechargeBuf_keeps ⟨id, i⟩ buf

theorem refreshPrecharge_closes {id : BankId cfg}
    (h : refreshPrecharge preAt id s = .ok ((), s')) : ∀ i, s'.openRow ⟨id, i⟩ = none := by
  simp only [refreshPrecharge, bind_eq_ok, get_eq_ok, ite_eq_ok, modify_eq_ok] at h
  obtain ⟨_, _, ⟨rfl, rfl⟩, ⟨hclosed, rfl⟩ | ⟨_, h⟩⟩ := h
  · intro i
    have hi := List.all_eq_true.mp hclosed i (List.mem_finRange i)
    unfold Dram.openRow
    rw [banks_setBank, if_pos rfl]
    exact Option.isNone_iff_eq_none.mp hi
  · intro i
    have hset (j : Fin rowBufferCount) (s s' : Dram cfg)
        (h : refreshPrechargeBuf preAt ⟨id, j⟩ s = .ok ((), s')) : s'.openRow ⟨id, j⟩ = none := by
      rw [refreshPrechargeBuf_openRow h, if_pos rfl]
    exact forEach_establishes hset (fun j k => refreshPrechargeBuf_keeps ⟨id, j⟩ ⟨id, k⟩) h i
      (List.mem_finRange i)

theorem prechargeRows_closes
    (h : Prog.forEach (refreshPrecharge preAt) (BankId.all cfg) s = .ok ((), s'))
    (buf : RowBuf cfg) : s'.openRow buf = none := by
  have hkeep (id id' : BankId cfg) :
      Keeps (fun s => ∀ i, s.openRow ⟨id', i⟩ = none) (refreshPrecharge preAt id) :=
    fun s hclosed u s' h i => refreshPrecharge_keeps id ⟨id', i⟩ s (hclosed i) u s' h
  have hset (id : BankId cfg) (s s' : Dram cfg) (h : refreshPrecharge preAt id s = .ok ((), s')) :
      ∀ i, s'.openRow ⟨id, i⟩ = none := refreshPrecharge_closes h
  exact forEach_establishes hset hkeep h buf.bank (BankId.mem_all _) buf.num

end RefreshLemmas

open RefreshLemmas

/-! ## Phases of a refresh -/

variable {tick : Tick}

namespace Dram

/-- The input is safe for the power state machine and spares the other row buffers of a
bank, and the power event that ends a refresh finds no request event pending. -/
@[mk_iff] structure RefreshSafe (s : Dram cfg) (input : DramInput) : Prop where
  power : s.PowerSafe input
  spares : s.Spares input
  ends : input.runs .power = true → s.pwrState = .PWR_REF → s.nextReqEvent = none

structure Unrefreshed (s : Dram cfg) : Prop where
  state : s.pwrState ≠ .PWR_REF
  next : s.powerEvent ≠ none → s.pwrStateTrans ≠ .PWR_REF

/-- How far a refresh has come. -/
inductive RefreshPhase (s : Dram cfg) : Prop
  | idle {r : Tick} (hstate : s.refreshState = .REF_IDLE) (hevent : s.refreshEvent = some r)
      (hle : s.curTick ≤ r) (hpwr : s.Unrefreshed)
  | drain (hstate : s.refreshState = .REF_DRAIN) (hevent : s.refreshEvent = none)
      (hpwr : s.Unrefreshed)
  | pre (hstate : s.refreshState = .REF_PRE) (hevent : s.refreshEvent = some s.curTick)
      (hpwr : s.Unrefreshed)
  | closing (hstate : s.refreshState = .REF_RUN) (hevent : s.refreshEvent = none)
      (hpwr : s.pwrState = .PWR_ACT) (hclosed : s.numBanksActive = 0)
  | soon (hstate : s.refreshState = .REF_RUN) (hevent : s.refreshEvent = none)
      (hpwr : s.pwrState = .PWR_IDLE) (htrans : s.pwrStateTrans = .PWR_REF)
      (hpower : s.powerEvent ≠ none)
  | run {start : Tick} {past : List (DramEvent cfg)} (hstate : s.refreshState = .REF_RUN)
      (hevent : s.refreshEvent = some (s.refreshDueAt + cfg.tREFI - cfg.tRP))
      (hle : s.curTick ≤ s.refreshDueAt + cfg.tREFI - cfg.tRP) (hpwr : s.pwrState = .PWR_REF)
      (htrans : s.pwrStateTrans = .PWR_IDLE) (hpower : s.powerEvent = some (start + cfg.tRFC))
      (hlog : s.commands = .refreshStart start :: past)

variable {s s' : Dram cfg} {input : DramInput}

theorem Unrefreshed.same (h : s.Unrefreshed) (hstate : s'.pwrState = s.pwrState)
    (hnext : s'.pwrStateTrans = s.pwrStateTrans) (hpower : s'.powerEvent = s.powerEvent) :
    s'.Unrefreshed := by
  constructor
  · rw [hstate]
    exact h.state
  · rw [hnext, hpower]
    exact h.next

theorem Unrefreshed.settled (hstate : s.pwrState ≠ .PWR_REF) (hpower : s.powerEvent = none) :
    s.Unrefreshed :=
  ⟨hstate, fun hsome => absurd hpower hsome⟩

theorem RefreshPhase.same (h : s.RefreshPhase) (hm : s.SameMachines s')
    (hnum : s'.numBanksActive = s.numBanksActive) (hlog : s'.commands = s.commands) :
    s'.RefreshPhase := by
  have hsame (hpwr : s.Unrefreshed) : s'.Unrefreshed :=
    hpwr.same hm.pwrState hm.pwrStateTrans hm.powerEvent
  cases h with
  | idle hstate hevent hle hpwr =>
    exact .idle (hm.refreshState.trans hstate) (hm.refreshEvent.trans hevent)
      (hm.curTick ▸ hle) (hsame hpwr)
  | drain hstate hevent hpwr =>
    exact .drain (hm.refreshState.trans hstate) (hm.refreshEvent.trans hevent) (hsame hpwr)
  | pre hstate hevent hpwr =>
    exact .pre (hm.refreshState.trans hstate)
      ((hm.refreshEvent.trans hevent).trans (by rw [hm.curTick])) (hsame hpwr)
  | closing hstate hevent hpwr hclosed =>
    exact .closing (hm.refreshState.trans hstate) (hm.refreshEvent.trans hevent)
      (hm.pwrState.trans hpwr) (hnum.trans hclosed)
  | soon hstate hevent hpwr htrans hpower =>
    exact .soon (hm.refreshState.trans hstate) (hm.refreshEvent.trans hevent)
      (hm.pwrState.trans hpwr) (hm.pwrStateTrans.trans htrans) (hm.powerEvent ▸ hpower)
  | run hstate hevent hle hpwr htrans hpower hrun =>
    exact .run (hm.refreshState.trans hstate)
      ((hm.refreshEvent.trans hevent).trans (by rw [hm.refreshDueAt]))
      (by rw [hm.curTick, hm.refreshDueAt]; exact hle) (hm.pwrState.trans hpwr)
      (hm.pwrStateTrans.trans htrans) (hm.powerEvent.trans hpower) (hlog.trans hrun)

namespace RefreshPhase

/-- Outside the last part of a refresh the power state is not the refresh state. -/
theorem unrefreshed (h : s.RefreshPhase) (hrun : s.refreshState ≠ .REF_RUN) : s.Unrefreshed := by
  cases h with
  | idle _ _ _ hpwr | drain _ _ hpwr | pre _ _ hpwr => exact hpwr
  | closing hstate | soon hstate | run hstate => exact absurd hstate hrun

/-- In the refresh state the refresh is running, and the power event that ends it waits. -/
theorem powerEvent_ne_none (h : s.RefreshPhase) (hpwr : s.pwrState = .PWR_REF) :
    s.refreshState = .REF_RUN ∧ s.powerEvent ≠ none := by
  cases h with
  | idle _ _ _ hun | drain _ _ hun | pre _ _ hun => exact absurd hpwr hun.state
  | closing _ _ hact => cases hact.symm.trans hpwr
  | soon _ _ hidle => cases hidle.symm.trans hpwr
  | run hstate _ _ _ _ hpower =>
    refine ⟨hstate, fun hnone => ?_⟩
    cases hnone.symm.trans hpower

/-- A refresh event is only scheduled before a refresh, and while it runs. -/
theorem refreshEvent_eq_none (h : s.RefreshPhase) (hrun : s.refreshState = .REF_RUN)
    (hpwr : s.pwrState ≠ .PWR_REF) : s.refreshEvent = none := by
  cases h with
  | idle hstate | drain hstate | pre hstate => cases hstate.symm.trans hrun
  | closing _ hevent | soon _ hevent => exact hevent
  | run _ _ _ hpwr' => exact absurd hpwr' hpwr

/-- Before a refresh runs, its phase is kept as long as the refresh machine is left alone
and the power state machine does not enter the refresh state. -/
theorem before (h : s.RefreshPhase) (hrun : s.refreshState ≠ .REF_RUN)
    (hnow : s'.curTick = s.curTick) (hstate : s'.refreshState = s.refreshState)
    (hevent : s'.refreshEvent = s.refreshEvent) (hun : s'.Unrefreshed) : s'.RefreshPhase := by
  cases h with
  | idle hstate' hevent' hle _ =>
    exact .idle (hstate.trans hstate') (hevent.trans hevent') (hnow ▸ hle) hun
  | drain hstate' hevent' _ => exact .drain (hstate.trans hstate') (hevent.trans hevent') hun
  | pre hstate' hevent' _ =>
    exact .pre (hstate.trans hstate') ((hevent.trans hevent').trans (by rw [hnow])) hun
  | closing hstate' | soon hstate' | run hstate' => exact absurd hstate' hrun

theorem advance (h : s.RefreshPhase) (hle : s.curTick ≤ tick)
    (hdue : ∀ due ∈ s.refreshEvent, tick ≤ due) : { s with curTick := tick }.RefreshPhase := by
  cases h with
  | idle hstate hevent _ hpwr =>
    exact .idle hstate hevent (hdue _ hevent) (hpwr.same rfl rfl rfl)
  | drain hstate hevent hpwr => exact .drain hstate hevent (hpwr.same rfl rfl rfl)
  | pre hstate hevent hpwr =>
    have hnow := Nat.le_antisymm hle (hdue _ hevent)
    exact .pre hstate (hevent.trans (by rw [hnow])) (hpwr.same rfl rfl rfl)
  | closing hstate hevent hpwr hclosed => exact .closing hstate hevent hpwr hclosed
  | soon hstate hevent hpwr htrans hpower => exact .soon hstate hevent hpwr htrans hpower
  | run hstate hevent _ hpwr htrans hpower hlog =>
    exact .run hstate hevent (hdue _ hevent) hpwr htrans hpower hlog

theorem powerTo {pwrState : PowerState} (h : s.RefreshPhase)
    (hpower : s.powerEvent = none) (hne : pwrState ≠ .PWR_REF) :
    (s.powerTo pwrState tick).RefreshPhase := by
  have hpwr : s.pwrState ≠ .PWR_REF := fun hpwr => (h.powerEvent_ne_none hpwr).2 hpower
  by_cases hrun : s.refreshState = .REF_RUN
  · cases h with
    | idle hstate | drain hstate | pre hstate => cases hstate.symm.trans hrun
    | closing _ hevent hact hclosed => exact .closing hrun hevent hact hclosed
    | soon _ _ _ _ hsome => exact absurd hpower hsome
    | run _ _ _ hpwr' => exact absurd hpwr' hpwr
  · exact h.before hrun rfl rfl rfl ⟨hpwr, fun _ => hne⟩

/-- A refresh starts, and the next refresh event does not lie in the past. -/
theorem refreshing (hrun : s.refreshState = .REF_RUN) (hpwr : s.pwrState = .PWR_REF)
    (hcan : s.CanRefresh) : s.refreshing.RefreshPhase :=
  .run hrun rfl hcan.ahead hpwr rfl rfl rfl

theorem step {A : ActivateRule cfg} (h : s.RefreshPhase)
    (hstep : CoreStep A s input s') : s'.RefreshPhase := by
  have hactive : PowerState.PWR_ACT ≠ .PWR_REF := by decide
  have hidle : PowerState.PWR_IDLE ≠ .PWR_REF := by decide
  cases hstep with
  | commands hstate _ hpath =>
    have hm := machines_of_steps hpath
    have hrun : s.refreshState ≠ .REF_RUN := by rw [hstate]; decide
    exact h.before hrun hm.curTick hm.refreshState hm.refreshEvent
      ((h.unrefreshed hrun).same hm.pwrState hm.pwrStateTrans hm.powerEvent)
  | other hcore =>
    exact h.same (.ofCore hcore) (congrArg DramCore.numBanksActive hcore)
      (congrArg DramCore.commands hcore)
  | handOver hdrain hcore =>
    have hun := h.unrefreshed (by rw [hdrain]; decide)
    have hpre : { s with
        refreshState := .REF_PRE, refreshEvent := some s.curTick }.RefreshPhase :=
      .pre rfl rfl (hun.same rfl rfl rfl)
    exact hpre.same (.ofCore hcore) (congrArg DramCore.numBanksActive hcore)
      (congrArg DramCore.commands hcore)
  | advance hle hdue => exact h.advance hle (hdue .refresh)
  | activateEvent | prechargeEvent => exact h.same ⟨rfl, rfl, rfl, rfl, rfl, rfl, rfl⟩ rfl rfl
  | wake _ hpower =>
    have hsame : { s with activateEvent := none }.RefreshPhase :=
      h.same ⟨rfl, rfl, rfl, rfl, rfl, rfl, rfl⟩ rfl rfl
    exact hsame.powerTo hpower hactive
  | sleep _ hpower =>
    have hsame : { s with prechargeEvent := none }.RefreshPhase :=
      h.same ⟨rfl, rfl, rfl, rfl, rfl, rfl, rfl⟩ rfl rfl
    exact hsame.powerTo hpower hidle
  | refreshDue hrun => exact .drain rfl rfl ((h.unrefreshed hrun).same rfl rfl rfl)
  | prechargeAll hpre hne hclosed hpath =>
    have hm := machines_of_steps hpath
    have hrun : s.refreshState ≠ .REF_RUN := by
      rcases hpre with hpre | ⟨hne, _⟩
      · rw [hpre]
        decide
      · exact hne
    have hact : s.pwrState = .PWR_ACT := by
      have hun := (h.unrefreshed hrun).state
      cases hpwr : s.pwrState with
      | PWR_IDLE => exact absurd hpwr hne
      | PWR_REF => exact absurd hpwr hun
      | PWR_ACT => rfl
    exact .closing rfl hm.refreshEvent (hm.pwrState.trans hact) hclosed
  | refreshIdle _ hpwr _ _ => exact .soon rfl rfl hpwr rfl (Option.some_ne_none _)
  | refreshAgain _ hpwr hcan => exact absurd hcan.powerEvent (h.powerEvent_ne_none hpwr).2
  | toActive htrans =>
    cases h with
    | idle hstate hevent hle _ => exact .idle hstate hevent hle (.settled hactive rfl)
    | drain hstate hevent _ => exact .drain hstate hevent (.settled hactive rfl)
    | pre hstate hevent _ => exact .pre hstate hevent (.settled hactive rfl)
    | closing hstate hevent _ hclosed => exact .closing hstate hevent rfl hclosed
    | soon _ _ _ hsoon => cases hsoon.symm.trans htrans
    | run _ _ _ _ hidle => cases hidle.symm.trans htrans
  | toIdle _ _ hrun =>
    exact h.before hrun rfl rfl rfl (.settled hidle rfl)
  | refreshEnd _ hpwr =>
    cases h with
    | idle _ _ _ hun | drain _ _ hun | pre _ _ hun => exact absurd hpwr hun.state
    | closing _ _ hact => cases hact.symm.trans hpwr
    | soon _ _ hpwr' => cases hpwr'.symm.trans hpwr
    | run _ hevent hle _ _ _ _ => exact .idle rfl hevent hle (.settled hidle rfl)
  | refreshStart hrun _ hcan => exact RefreshPhase.refreshing hrun rfl hcan

end RefreshPhase

end Dram

/-! ## Refreshes in the log -/

/-- The command is not issued before the tick. -/
def DramEvent.NotBefore (t : Tick) : DramEvent cfg → Prop
  | .activate _ _ tick => t ≤ tick
  | .read _ tick => t ≤ tick
  | .write _ doneAt => t + cfg.tCL + cfg.tBURST ≤ doneAt
  | .precharge _ tick => t ≤ tick
  | _ => True

variable {e : DramEvent cfg}

theorem DramEvent.NotBefore.mono {t t' : Tick} (h : e.NotBefore t)
    (hle : t' ≤ t) : e.NotBefore t' := by
  cases e with
  | activate | read | precharge => exact Nat.le_trans hle h
  | write => exact Nat.le_trans (Nat.add_le_add_right (Nat.add_le_add_right hle _) _) h
  | refreshStart | refreshEnd | respond | retry => trivial

/-- Every refresh in the log found all rows closed and all commands over. Nothing came after
its start but its end, after tRFC, and no command is issued before that end. -/
def Refreshes (log : List (DramEvent cfg)) : Prop :=
  ∀ later t earlier, log = later ++ .refreshStart t :: earlier →
    (∀ buf, openedAt buf earlier = none) ∧ (∀ e ∈ earlier, e.DoneBy t) ∧
    (later = [] ∨ ∃ later', later = later' ++ [.refreshEnd (t + cfg.tRFC)] ∧
      ∀ e ∈ later', e.NotBefore (t + cfg.tRFC))

theorem Refreshes.cons {log : List (DramEvent cfg)} (h : Refreshes log)
    (hend : ∀ t past, log = .refreshStart t :: past → e = .refreshEnd (t + cfg.tRFC))
    (hafter : ∀ t, .refreshEnd t ∈ log → e.NotBefore t)
    (hstart : ∀ t, e = .refreshStart t →
      (∀ buf, openedAt buf log = none) ∧ ∀ e ∈ log, e.DoneBy t) :
    Refreshes (e :: log) := by
  intro later t earlier hlog
  cases later with
  | nil =>
    obtain ⟨rfl, rfl⟩ := List.cons.inj hlog
    obtain ⟨hclosed, hdone⟩ := hstart t rfl
    exact ⟨hclosed, hdone, .inl rfl⟩
  | cons x later =>
    obtain ⟨rfl, rfl⟩ := List.cons.inj hlog
    obtain ⟨hclosed, hdone, hlater⟩ := h later t earlier rfl
    refine ⟨hclosed, hdone, .inr ?_⟩
    rcases hlater with rfl | ⟨later', rfl, hissued⟩
    · exact ⟨[], by rw [hend t earlier rfl]; rfl, fun _ hmem => nomatch hmem⟩
    · refine ⟨e :: later', rfl, fun e' he' => ?_⟩
      rcases List.mem_cons.mp he' with rfl | he'
      · exact hafter _ (by simp)
      · exact hissued e' he'

namespace Dram

structure RefreshLog (s : Dram cfg) : Prop where
  refreshes : Refreshes s.commands
  running : ∀ t past, s.commands = .refreshStart t :: past →
    s.pwrState = .PWR_REF ∧ s.powerEvent = some (t + cfg.tRFC)
  ended : ∀ t, .refreshEnd t ∈ s.commands → t ≤ s.curTick

namespace RefreshLog

variable {s s' : Dram cfg} {input : DramInput}

theorem same (h : s.RefreshLog) (hcommands : s'.commands = s.commands)
    (hnow : s.curTick ≤ s'.curTick)
    (hrunning : ∀ t, s.pwrState = .PWR_REF → s.powerEvent = some (t + cfg.tRFC) →
      s'.pwrState = .PWR_REF ∧ s'.powerEvent = some (t + cfg.tRFC)) : s'.RefreshLog := by
  constructor
  · rw [hcommands]
    exact h.refreshes
  · intro t past hlog
    obtain ⟨hpwr, hpower⟩ := h.running t past (hcommands ▸ hlog)
    exact hrunning t hpwr hpower
  · intro t hmem
    exact Nat.le_trans (h.ended t (hcommands ▸ hmem)) hnow

theorem command (h : s.RefreshLog) (hpwr : s.pwrState ≠ .PWR_REF)
    (hrow : ∀ t, e ≠ .refreshStart t ∧ e ≠ .refreshEnd t) (hissued : e.NotBefore s.curTick)
    (hcommands : s'.commands = e :: s.commands) (hnow : s'.curTick = s.curTick) :
    s'.RefreshLog := by
  constructor
  · rw [hcommands]
    refine h.refreshes.cons (fun t past hlog => ?_) (fun t hmem => ?_)
      (fun t he => absurd he (hrow t).1)
    · exact absurd (h.running t past hlog).1 hpwr
    · exact hissued.mono (h.ended t hmem)
  · intro t past hlog
    rw [hcommands] at hlog
    exact absurd (List.cons.inj hlog).1 (hrow t).1
  · intro t hmem
    rw [hcommands] at hmem
    rw [hnow]
    exact h.ended t ((List.mem_cons.mp hmem).resolve_left fun he => (hrow t).2 he.symm)

variable {A : ActivateRule cfg}

theorem step (hstep : BankStep A s s')
    (hpwr : s.pwrState ≠ .PWR_REF) (h : s.RefreshLog) : s'.RefreshLog := by
  cases hstep with
  | keep hcore =>
    exact h.same (congrArg DramCore.commands hcore)
      (Nat.le_of_eq (congrArg DramCore.curTick hcore).symm) fun _ hpwr' => absurd hpwr' hpwr
  | @activate buf row tick _ _ _ htick =>
    refine h.command hpwr (fun _ => ⟨?_, ?_⟩) ?_ (activated_commands s buf row tick)
      (activated_machines s buf row tick).curTick
    · rintro ⟨⟩
    · rintro ⟨⟩
    · exact htick ▸ Nat.le_max_right _ _
  | @precharge buf tick _ _ hnow =>
    have hissued : (DramEvent.precharge buf tick).NotBefore s.curTick := hnow
    refine h.command hpwr (fun _ => ⟨?_, ?_⟩) hissued rfl rfl
    · rintro ⟨⟩
    · rintro ⟨⟩
  | @access pkt cmdAt readyTime _ _ hnow hready =>
    refine h.command hpwr (fun t => ?_) ?_ (accessed_commands s pkt cmdAt readyTime) rfl
    · cases pkt.isRead <;> exact ⟨by rintro ⟨⟩, by rintro ⟨⟩⟩
    · cases pkt.isRead with
      | true => exact hnow
      | false =>
        rw [hready]
        exact Nat.add_le_add_right (Nat.add_le_add_right hnow _) _
  | defer => exact h.same rfl (Nat.le_refl _) fun _ hpwr' => absurd hpwr' hpwr

theorem steps (hpath : BankSteps A s s')
    (hpwr : s.pwrState ≠ .PWR_REF) (h : s.RefreshLog) : s'.RefreshLog := by
  induction hpath with
  | refl => exact h
  | tail hpath hstep ih =>
    refine ih.step hstep ?_
    rw [(machines_of_steps hpath).pwrState]
    exact hpwr

/-- The power event that ends a refresh runs tRFC after its start. -/
theorem refreshEnd (h : s.RefreshLog) (hpower : s.powerEvent = some s.curTick) :
    { s with powerEvent := none }.refreshed.RefreshLog := by
  constructor
  · refine h.refreshes.cons (fun t past hlog => ?_) (fun _ _ => trivial) (by rintro _ ⟨⟩)
    rw [← Option.some.inj (hpower.symm.trans (h.running t past hlog).2)]
  · rintro t past ⟨⟩
  · intro t hmem
    rcases List.mem_cons.mp hmem with heq | hmem
    · cases heq
      exact Nat.le_refl _
    · exact h.ended t hmem

/-- A refresh that starts finds all rows closed and all commands over. -/
theorem refreshStart (h : s.RefreshLog) (hclosed : ∀ buf, openedAt buf s.commands = none)
    (hdone : ∀ e ∈ s.commands, e.DoneBy s.curTick) (hpwr : s.pwrState ≠ .PWR_REF) :
    { s with powerEvent := none, pwrState := .PWR_REF }.refreshing.RefreshLog := by
  constructor
  · refine h.refreshes.cons (fun t past hlog => ?_) (fun _ _ => trivial) ?_
    · exact absurd (h.running t past hlog).1 hpwr
    · rintro t ⟨⟩
      exact ⟨hclosed, hdone⟩
  · rintro t past ⟨⟩
    exact ⟨rfl, rfl⟩
  · intro t hmem
    rcases List.mem_cons.mp hmem with heq | hmem
    · cases heq
    · exact h.ended t hmem

theorem coreStep (hinv : s.powerView.Inv)
    (hphase : s.RefreshPhase) (hcounted : s.Counted) (hclocked : s.Clocked)
    (heffective : s.Effective) (hen : s.Enabled input) (h : s.RefreshLog)
    (hstep : CoreStep A s input s') : s'.RefreshLog := by
  -- while a refresh is running, the power event that ends it is pending
  have hnone (hpower : s.powerEvent = none) : s.pwrState ≠ .PWR_REF :=
    fun hpwr => (hphase.powerEvent_ne_none hpwr).2 hpower
  cases hstep with
  | commands hstate _ hpath =>
    exact h.steps hpath (hphase.unrefreshed (by rw [hstate]; decide)).state
  | other hcore =>
    refine h.same (congrArg DramCore.commands hcore)
      (Nat.le_of_eq (congrArg DramCore.curTick hcore).symm) fun t hpwr hpower => ?_
    exact ⟨(congrArg DramCore.pwrState hcore).trans hpwr,
      (congrArg DramCore.powerEvent hcore).trans hpower⟩
  | handOver hdrain hcore =>
    have hpwr := (hphase.unrefreshed (by rw [hdrain]; decide)).state
    exact h.same (congrArg DramCore.commands hcore)
      (Nat.le_of_eq (congrArg DramCore.curTick hcore).symm) fun _ hpwr' => absurd hpwr' hpwr
  | advance hle => exact h.same rfl hle fun _ hpwr hpower => ⟨hpwr, hpower⟩
  | activateEvent | prechargeEvent | refreshDue =>
    exact h.same rfl (Nat.le_refl _) fun _ hpwr hpower => ⟨hpwr, hpower⟩
  | wake _ hpower | sleep _ hpower | refreshIdle _ _ hpower _ =>
    exact h.same rfl (Nat.le_refl _) fun _ hpwr => absurd hpwr (hnone hpower)
  | @prechargeAll due s₁ hpre _ _ hpath =>
    have hrun : s.refreshState ≠ .REF_RUN := by
      rcases hpre with hpre | ⟨hne, _⟩
      · rw [hpre]
        decide
      · exact hne
    have hpwr := (hphase.unrefreshed hrun).state
    have hdue : { s with
        refreshEvent := none, refreshState := .REF_PRE, refreshDueAt := due }.RefreshLog :=
      h.same rfl (Nat.le_refl _) fun _ hpwr hpower => ⟨hpwr, hpower⟩
    exact (hdue.steps hpath hpwr).same rfl (Nat.le_refl _) fun _ hpwr hpower => ⟨hpwr, hpower⟩
  | refreshAgain _ hpwr hcan => exact absurd hcan.powerEvent (hphase.powerEvent_ne_none hpwr).2
  | toActive htrans =>
    refine h.same rfl (Nat.le_refl _) fun _ hpwr _ => ?_
    have hquiet := hinv.next_of_refresh hpwr
    cases hquiet.symm.trans htrans
  | toIdle _ hact _ => exact h.same rfl (Nat.le_refl _) fun _ hpwr => nomatch hact.symm.trans hpwr
  | refreshEnd => exact h.refreshEnd hen
  | refreshStart _ htrans hcan =>
    have hpwr : s.pwrState ≠ .PWR_REF := by
      intro hpwr
      rcases htrans with htrans | ⟨_, hact⟩
      · cases (hinv.next_of_refresh hpwr).symm.trans htrans
      · cases hact.symm.trans hpwr
    have hclosed := (closed_iff_openedAt hcounted hclocked).mp hcan.closed
    have hquiet := hinv.quiet_of_next hen (by
      rcases htrans with htrans | ⟨htrans, _⟩ <;> exact fun h => nomatch htrans.symm.trans h)
    have hrows := hcounted.closed_iff.mp hcan.closed
    exact h.refreshStart hclosed (fun _ he => heffective.doneBy hrows hquiet.pre he) hpwr

end RefreshLog

end Dram

/-! ## Assertions -/

namespace RefreshLemmas

variable {s : Dram cfg} {input : DramInput}

theorem schedulePowerEvent_avoids {pwrState : PowerState}
    (hpower : s.powerEvent = none) (hle : s.curTick ≤ tick) :
    Avoids DramAbort.OfMachines (schedulePowerEvent pwrState tick s) := by
  refine .get_bind (check_bind (fun _ => decide_eq_true hle) fun _ => ?_)
  exact check_bind (fun _ => by rw [hpower]; rfl) fun _ => .ok

theorem schedule_avoids {abort : DramAbort} {event : Option Tick}
    (hevent : event = none) (hle : s.curTick ≤ tick) :
    Avoids DramAbort.OfMachines (DramM.schedule s abort event tick) :=
  .ite (fun _ => .ok) fun hnot => absurd ⟨hle, hevent⟩ hnot

/-- A refresh that is not too late finds the refresh and the power event free. -/
theorem runRefresh_avoids (htime : cfg.tRP < cfg.tRFC) (hclosed : s.numBanksActive = 0)
    (hpwr : s.pwrState = .PWR_REF) (hfree : s.curTick + cfg.tRFC ≤ s.refreshDueAt + cfg.tREFI →
      s.refreshEvent = none ∧ s.powerEvent = none) :
    Avoids DramAbort.OfMachines (runRefresh s) := by
  refine .get_bind (check_bind (fun _ => by rw [hclosed]; rfl) fun _ => ?_)
  refine check_bind (fun _ => by rw [hpwr]; rfl) fun _ => .modify_bind ?_
  refine check_bind (fun h => h.elim) fun hdelay => ?_
  have hdelay : s.curTick + cfg.tRFC ≤ s.refreshDueAt + cfg.tREFI := of_decide_eq_true hdelay
  obtain ⟨hevent, hpower⟩ := hfree hdelay
  have hahead : s.curTick ≤ s.refreshDueAt + cfg.tREFI - cfg.tRP :=
    Nat.le_sub_of_add_le (Nat.le_trans (Nat.add_le_add_left (Nat.le_of_lt htime) _) hdelay)
  refine .lift_bind (schedule_avoids hevent hahead) fun _ _ => .modify_bind ?_
  refine check_bind (fun _ => by rw [hpower]; rfl) fun _ => ?_
  exact schedulePowerEvent_avoids hpower (Nat.le_add_right _ _)

theorem prechargeAll_avoids (hcounted : s.Counted)
    (hidle : s.pwrState = .PWR_IDLE → s.powerEvent = none ∧ s.numBanksActive = 0) :
    Avoids DramAbort.OfMachines (prechargeAll s) := by
  have hend {s : Dram cfg} (hclosed : s.numBanksActive = 0) : Avoids DramAbort.OfMachines ((do
      modify fun s => { s with refreshState := .REF_RUN }
      let s ← get
      DramM.check .refreshAssertion (s.numBanksActive == 0) : DramM cfg Unit) s) := by
    refine .modify_bind (.get_bind ?_)
    rw [hclosed]
    exact .ok
  have hrows {id : BankId cfg} :
      Safe DramAbort.OfMachines (refreshPrecharge s.precharge id) :=
    refreshPrecharge_safe DramAbort.OfMachines.notOfBanks.row
  refine .get_bind (.run_ite (fun _ => ?_) fun hne => ?_)
  · refine .run_bind (Safe.forEach (fun _ => hrows) _ _) fun _ s₁ hloop => ?_
    have hpath : BankSteps (fun _ _ _ => False) s s₁ := prechargeRows_path hloop
    exact hend ((hcounted.steps hpath).closed_iff.mpr (prechargeRows_closes hloop))
  · obtain ⟨hpower, hclosed⟩ := hidle (by simpa using hne)
    refine .run_bind (schedulePowerEvent_avoids hpower (Nat.le_refl _)) fun _ s₁ hs₁ => ?_
    obtain ⟨_, _, rfl⟩ := schedulePowerEvent_eq_ok.mp hs₁
    exact hend hclosed

theorem enterIdle_avoids {prevState : PowerState} (hpower : s.powerEvent = none)
    (hprev : prevState = .PWR_ACT ∨ prevState = .PWR_REF ∧ s.nextReqEvent = none) :
    Avoids DramAbort.OfMachines (enterIdle prevState s) := by
  refine .run_ite (fun href => .modify_bind (.get_bind ?_)) fun hne => ?_
  · refine .lift_bind (schedule_avoids ?_ (Nat.le_refl _)) fun _ _ => .ok
    rcases hprev with hact | ⟨_, hnone⟩
    · cases hact.symm.trans href
    · exact hnone
  · have hact : prevState = .PWR_ACT := hprev.resolve_right fun h => hne h.1
    refine check_bind (fun _ => by rw [hact]; rfl) fun _ => .get_bind (.whenever fun _ => ?_)
    exact check_bind (fun _ => by rw [hpower]; rfl) fun _ => .ok

theorem processRefreshEvent_avoids (hcounted : s.Counted)
    (hidle : s.Precharges → s.pwrState = .PWR_IDLE → s.powerEvent = none ∧ s.numBanksActive = 0)
    (hrun : s.refreshState = .REF_RUN → Avoids DramAbort.OfMachines (runRefresh s)) :
    Avoids DramAbort.OfMachines (processRefreshEvent s) := by
  refine .modify_bind (.get_bind ?_)
  rcases drained_cases s with ⟨_, due, heq⟩ | ⟨hpre, due, heq⟩ | ⟨hstate, heq⟩
  · rw [heq]
    exact .ok
  · rw [heq]
    exact prechargeAll_avoids (hcounted.same rfl (fun _ => rfl) fun _ => rfl) (hidle hpre)
  · rw [heq, hstate]
    exact hrun hstate

/-- A refresh event comes at its time or, with a tRFC longer than tRP, too late for the
refresh that still runs. -/
theorem refreshEvent_avoids (htime : cfg.tRP < cfg.tRFC) (hinv : s.powerView.Inv)
    (hphase : s.RefreshPhase) (hcounted : s.Counted) (hclocked : s.Clocked)
    (hsafe : s.PowerSafe (.event .refresh)) (hen : s.refreshEvent = some s.curTick) :
    Avoids DramAbort.OfMachines (processRefreshEvent (s.stopTimer .refresh)) := by
  have hclosed := Dram.closed_iff_openedAt hcounted hclocked
  refine processRefreshEvent_avoids (hcounted.same rfl (fun _ => rfl) fun _ => rfl) ?_ ?_
  · intro hpre hidle
    obtain ⟨hact, hpower⟩ := hsafe hpre hidle
    exact ⟨hpower, hclosed.mpr (hinv.closed_of_idle hidle hact hpower)⟩
  · intro hrun
    cases hphase with
    | idle hstate | drain hstate | pre hstate => cases hstate.symm.trans hrun
    | closing _ hevent | soon _ hevent => cases hevent.symm.trans hen
    | run _ hevent _ hpwr htrans hpower _ =>
      have hquiet := hinv.quiet_of_next hpower (by
        rw [show s.powerView.next = .PWR_IDLE from htrans]
        decide)
      refine runRefresh_avoids htime (hclosed.mpr hquiet.closed) hpwr fun hle => ?_
      have hnow : s.curTick = s.refreshDueAt + cfg.tREFI - cfg.tRP :=
        Option.some.inj (hen.symm.trans hevent)
      have hdue : s.curTick + cfg.tRP = s.refreshDueAt + cfg.tREFI := by
        rw [hnow]
        exact Nat.sub_add_cancel
          (Nat.le_trans (Nat.le_of_lt cfg.tRP_lt) (Nat.le_add_left _ _))
      have hlt : s.curTick + cfg.tRP < s.curTick + cfg.tRFC := Nat.add_lt_add_left htime _
      exact absurd (Nat.lt_of_lt_of_le hlt hle) (Nat.not_lt.mpr (Nat.le_of_eq hdue.symm))

theorem powerEvent_avoids (htime : cfg.tRP < cfg.tRFC) (hinv : s.powerView.Inv)
    (hphase : s.RefreshPhase) (hcounted : s.Counted) (hclocked : s.Clocked)
    (hreq : s.pwrState = .PWR_REF → s.nextReqEvent = none)
    (hen : s.powerEvent = some s.curTick) :
    Avoids DramAbort.OfMachines (processPowerEvent (s.stopTimer .power)) := by
  have hclosed := Dram.closed_iff_openedAt hcounted hclocked
  -- a refresh that starts here finds all rows closed and the two events free
  have hstart {pwrState : PowerState} (href : pwrState = .PWR_REF)
      (hrun : s.refreshState = .REF_RUN) (hpwr : s.pwrState ≠ .PWR_REF)
      (hnext : s.pwrStateTrans ≠ .PWR_ACT) : Avoids DramAbort.OfMachines
        (processRefreshEvent { s with powerEvent := none, pwrState }) := by
    have hquiet := hinv.quiet_of_next hen hnext
    subst href
    refine processRefreshEvent_avoids (hcounted.same rfl (fun _ => rfl) fun _ => rfl)
      (fun _ hidle => nomatch hidle) fun _ => ?_
    exact runRefresh_avoids htime (hclosed.mpr hquiet.closed) rfl
      fun _ => ⟨hphase.refreshEvent_eq_none hrun hpwr, rfl⟩
  refine .get_bind (.modify_bind (.run_bind (.whenever fun hidle => ?_) fun _ s₁ hs₁ => ?_))
  · refine enterIdle_avoids rfl ?_
    exact (hinv.leaves_idle hen (eq_of_beq hidle)).imp_right fun hpwr => ⟨hpwr, hreq hpwr⟩
  · refine .get_bind (.whenever fun hpwr => ?_)
    have hpwr : s₁.pwrState = .PWR_REF := eq_of_beq hpwr
    rcases when_eq_ok.mp hs₁ with ⟨hidle, henter⟩ | ⟨hidle, heq⟩
    · have htrans : s.pwrStateTrans = .PWR_IDLE := eq_of_beq hidle
      rcases enterIdle_cases henter with ⟨_, rfl⟩ | ⟨hact, hrun, rfl⟩ | ⟨_, _, rfl⟩
      · cases htrans.symm.trans hpwr
      · refine check_bind (fun _ => beq_iff_eq.mpr hrun) fun _ => hstart rfl hrun ?_ ?_
        · exact fun href => nomatch hact.symm.trans href
        · exact fun hnext => nomatch htrans.symm.trans hnext
      · cases htrans.symm.trans hpwr
    · subst heq
      have htrans : s.pwrStateTrans = .PWR_REF := hpwr
      have hrun : s.refreshState = .REF_RUN := by
        by_contra hrun
        refine (hphase.unrefreshed hrun).next (fun hnone => ?_) htrans
        cases hnone.symm.trans hen
      refine check_bind (fun _ => beq_iff_eq.mpr hrun) fun _ => hstart htrans hrun ?_ ?_
      · exact fun href => nomatch (hinv.next_of_refresh href).symm.trans htrans
      · exact fun hnext => nomatch htrans.symm.trans hnext

/-- The request event that hands over to a refresh finds the refresh event free. -/
theorem nextReqEvent_avoids (hphase : s.RefreshPhase) :
    Avoids DramAbort.OfMachines (processNextReqEvent (s.stopTimer .nextReq)) := by
  refine .modify_bind (.get_bind ?_)
  have hm := Dram.SameMachines.ofCore (turnedAround_core (s.stopTimer .nextReq))
  have hagain (again : Bool) :
      Safe DramAbort.OfMachines (when again requestAgain : DramM cfg Unit) :=
    .when (requestAgain_plain DramAbort.OfMachines.notOfBanks.toNotOfQueues).2
  cases hstate : (s.stopTimer .nextReq).turnedAround.refreshState with
  | REF_IDLE =>
    refine Avoids.run_ite (fun _ => ?_) fun _ => ?_
    · exact Safe.bind (serveRead_safe DramAbort.OfMachines.notOfBanks) hagain _
    · exact Safe.bind (serveWrite_safe DramAbort.OfMachines.notOfBanks) hagain _
  | REF_DRAIN =>
    have hdrain : s.refreshState = .REF_DRAIN := hm.refreshState.symm.trans hstate
    refine .get_bind (.lift_bind (schedule_avoids ?_ (Nat.le_refl _)) fun _ _ => .ok)
    refine hm.refreshEvent.trans ?_
    cases hphase with
    | idle hidle => cases hidle.symm.trans hdrain
    | drain _ hevent => exact hevent
    | pre hpre => cases hpre.symm.trans hdrain
    | closing hrun | soon hrun | run hrun => cases hrun.symm.trans hdrain
  | REF_PRE | REF_RUN => exact .ok

theorem call_avoids (htime : cfg.tRP < cfg.tRFC) (hinv : s.powerView.Inv)
    (hphase : s.RefreshPhase) (hcounted : s.Counted) (hclocked : s.Clocked)
    (hsafe : s.RefreshSafe input) (hen : s.Enabled input) :
    Avoids DramAbort.OfMachines (DramM.call input s) := by
  have hqueues : NotOfQueues DramAbort.OfMachines :=
    DramAbort.OfMachines.notOfBanks.toNotOfQueues
  cases input with
  | event t =>
    refine .modify_bind ?_
    cases t with
    | nextReq => exact nextReqEvent_avoids hphase
    | respond => exact (processRespondEvent_plain hqueues).2 _
    | activate =>
      refine .get_bind (.whenever fun hact => ?_)
      exact schedulePowerEvent_avoids (hinv.powerAt_of_act hen (bne_iff_ne.mp hact)).2
        (Nat.le_refl _)
    | precharge =>
      refine .get_bind (.whenever fun _ => ?_)
      exact schedulePowerEvent_avoids (hinv.powerAt_of_pre hen) (Nat.le_refl _)
    | refresh => exact refreshEvent_avoids htime hinv hphase hcounted hclocked hsafe.power hen
    | power => exact powerEvent_avoids htime hinv hphase hcounted hclocked (hsafe.ends rfl) hen
  | timingReq pkt => exact Safe.discard (recvTimingReq_plain hqueues pkt).2 _
  | drain | advance tick => exact .ok
  | set call => exact .get_bind (.lift_bind (ofExcept_avoids hqueues _) fun _ _ => .ok)

end RefreshLemmas

open RefreshLemmas

/-! ## Runs -/

section Runs

variable {s : Dram cfg}

theorem Dram.Reachable.refreshPhase {P : Dram cfg → DramInput → Prop} (h : s.Reachable P) :
    s.RefreshPhase := by
  refine h.induct (fun now => ?_) fun s input s' hs ih hen hP hcall => ?_
  · refine .idle rfl rfl ?_ (.settled PowerState.noConfusion rfl)
    exact Nat.le_sub_of_add_le (Nat.add_le_add_left (Nat.le_of_lt cfg.tRP_lt) now)
  · have hstep : CoreStep (fun _ _ _ => True) _ _ _ :=
      call_coreStep (fun _ _ _ _ _ => trivial) hen hcall
    exact ih.step hstep

theorem Dram.Reachable.refreshPower (hlimit : cfg.activationLimit ≠ 0)
    (htime : 0 < cfg.tRAS + cfg.tRP) (h : s.Reachable Dram.RefreshSafe) : s.powerView.Inv :=
  Dram.Reachable.power hlimit htime (h.mono fun _ _ hsafe => hsafe.power)

theorem Dram.Reachable.refreshLog (hlimit : cfg.activationLimit ≠ 0)
    (htime : 0 < cfg.tRAS + cfg.tRP) (h : s.Reachable Dram.RefreshSafe) : s.RefreshLog := by
  refine h.induct (fun _ => ?_) fun s input s' hs ih hen hP hcall => ?_
  · refine ⟨?_, by rintro t past ⟨⟩, fun _ hmem => nomatch hmem⟩
    intro later t earlier hlog
    exact absurd hlog.symm (by simp [Dram.commands, Dram.startup])
  · have heffective := Dram.Reachable.effective (hs.mono fun _ _ hsafe => hsafe.spares)
    exact ih.coreStep (hs.refreshPower hlimit htime) hs.refreshPhase hs.counted hs.clocked
      heffective hen (hP.spares.coreStep hen hcall)

theorem RefreshLemmas.enterIdle_refresh (hnext : s.nextReqEvent = none) :
    enterIdle .PWR_REF s = .ok ((), { s with
      refreshState := .REF_IDLE, nextReqEvent := some s.curTick }.emit
        (.refreshEnd s.curTick)) := by
  refine ite_eq_ok.mpr (.inl ⟨rfl, ?_⟩)
  simp only [bind_eq_ok, modify_eq_ok, get_eq_ok, lift_eq_ok, schedule_eq_ok]
  exact ⟨(), _, rfl, _, _, ⟨rfl, rfl⟩, _, _, ⟨⟨Nat.le_refl _, hnext, rfl⟩, rfl⟩, rfl⟩

/-- The power event at the end of a refresh hands over to the request event. -/
theorem RefreshLemmas.refreshEnd_call (htrans : s.pwrStateTrans = .PWR_IDLE)
    (hpwr : s.pwrState = .PWR_REF) (hnext : s.nextReqEvent = none) :
    ∃ s', DramM.call (.event .power) s = .ok ((), s') ∧ s'.refreshState = .REF_IDLE ∧
      s'.nextReqEvent = some s'.curTick := by
  have henter := enterIdle_refresh
    (show { s.stopTimer .power with pwrState := s.pwrStateTrans }.nextReqEvent = none from hnext)
  have hcall : DramM.call (.event .power) s = .ok ((), { s with
      powerEvent := none, pwrState := s.pwrStateTrans, refreshState := .REF_IDLE,
      nextReqEvent := some s.curTick }.emit (.refreshEnd s.curTick)) := by
    refine bind_eq_ok.mpr ⟨(), _, rfl, ?_⟩
    show processPowerEvent (s.stopTimer .power) = _
    simp only [processPowerEvent, bind_eq_ok, modify_eq_ok, get_eq_ok, when_eq_ok]
    refine ⟨_, _, ⟨rfl, rfl⟩, (), _, rfl, (), _, .inl ⟨?_, ?_⟩, _, _, ⟨rfl, rfl⟩, .inr ⟨?_, rfl⟩⟩
    · exact beq_iff_eq.mpr htrans
    · rw [show (s.stopTimer .power).pwrState = .PWR_REF from hpwr]
      exact henter
    · rw [htrans]
      rfl
  exact ⟨_, hcall, rfl, rfl⟩

/-- In every run with an activation window and a tRFC longer than tRP, whose inputs are all safe: no
assertion of the refresh and power state machines fails, every refresh found all rows closed and all
commands over and ends tRFC later with no command in between, and its end makes the controller serve
requests again. -/
theorem refresh_safe (hlimit : cfg.activationLimit ≠ 0) (htime : 0 < cfg.tRAS + cfg.tRP)
    (hrfc : cfg.tRP < cfg.tRFC) (h : s.Reachable Dram.RefreshSafe) :
    (∀ input e, s.RefreshSafe input → s.Enabled input → DramM.call input s = .error e →
      ¬ e.OfMachines) ∧
    (∀ later t earlier, s.commands = later ++ .refreshStart t :: earlier →
      (∀ buf, openedAt buf earlier = none) ∧ (∀ e ∈ earlier, e.DoneBy t) ∧
      (later = [] ∧ s.pwrState = .PWR_REF ∧ s.powerEvent = some (t + cfg.tRFC) ∨
        ∃ later', later = later' ++ [.refreshEnd (t + cfg.tRFC)] ∧
          ∀ e ∈ later', e.NotBefore (t + cfg.tRFC))) ∧
    (s.pwrState = .PWR_REF → s.RefreshSafe (.event .power) → s.Enabled (.event .power) →
      ∃ s', DramM.call (.event .power) s = .ok ((), s') ∧ s'.refreshState = .REF_IDLE ∧
        s'.nextReqEvent = some s'.curTick) := by
  have hinv := h.refreshPower hlimit htime
  refine ⟨fun input e hsafe hen hcall => ?_, fun later t earlier hlog => ?_, ?_⟩
  · exact call_avoids hrfc hinv h.refreshPhase h.counted h.clocked hsafe hen e hcall
  · have hrefresh := h.refreshLog hlimit htime
    obtain ⟨hclosed, hdone, hlater⟩ := hrefresh.refreshes later t earlier hlog
    refine ⟨hclosed, hdone, hlater.imp_left ?_⟩
    rintro rfl
    exact ⟨rfl, hrefresh.running t earlier hlog⟩
  · intro hpwr hsafe hen
    exact refreshEnd_call (hinv.next_of_refresh hpwr) hpwr (hsafe.ends rfl hpwr)

end Runs

/-! ## Two controllers -/

instance (s : Dram cfg) (input : DramInput) : Decidable (s.RefreshSafe input) :=
  decidable_of_iff _ (s.refreshSafe_iff input).symm

/-- The latest event is the start of a refresh, and there is an earlier one. -/
def DramEvent.refreshAfter : List (DramEvent cfg) → Bool
  | .refreshStart _ :: _ :: _ => true
  | _ => false

def Dram.aborts (s : Dram cfg) (input : DramInput) (e : DramAbort) : Bool :=
  match DramM.call input s with
  | .error e' => e' == e
  | .ok _ => false

/-- A refresh that closes the row of an earlier read. -/
theorem refresh_safe_after_read :
    ∃ (s : Dram .oneBank) (t : Tick) (earlier : List (DramEvent .oneBank)),
      s.Reachable Dram.RefreshSafe ∧ s.commands = .refreshStart t :: earlier ∧ earlier ≠ [] ∧
      (∀ e ∈ earlier, e.DoneBy t) ∧ s.powerEvent = some (t + DramConfig.oneBank.tRFC) := by
  obtain ⟨s, hs, htest⟩ := Dram.exists_reachable (P := Dram.RefreshSafe) 0
    [.timingReq (ldomReq .ReadReq 0 1), .event .nextReq, .event .activate, .event .power,
      .advance 1, .event .nextReq, .advance 7, .event .respond, .advance 98, .event .refresh,
      .advance 100, .event .precharge, .event .power]
    (fun s : Dram .oneBank => DramEvent.refreshAfter s.commands = true) (by decide +kernel)
  unfold DramEvent.refreshAfter at htest
  split at htest
  · next t e earlier hlog =>
      have hsafe := refresh_safe (by decide) (by decide) (by decide) hs
      obtain ⟨_, hdone, hlater⟩ := hsafe.2.1 [] t (e :: earlier) hlog
      rcases hlater with ⟨_, _, hpower⟩ | ⟨later', hnil, _⟩
      · exact ⟨s, t, e :: earlier, hs, hlog, List.cons_ne_nil _ _, hdone, hpower⟩
      · exact absurd hnil (by simp)
  · exact Bool.noConfusion htest

def DramConfig.shortInterval : DramConfig :=
  { DramConfig.oneBank with tREFI := 10, tRP := 6, tRP_lt := by decide, tRFC_lt := by decide }

/-- The refresh that starts at tick 4 is to end at tick 9, and the next refresh event, at tick 8,
finds its power event pending and fails an assertion. -/
theorem refresh_inside_refresh :
    ∃ s : Dram .shortInterval, s.Reachable (fun _ _ => True) ∧ s.Enabled (.event .refresh) ∧
      DramM.call (.event .refresh) s = .error .refreshAssertion := by
  obtain ⟨s, hs, hen, hcall⟩ := Dram.exists_reachable (P := fun _ _ => True) 0
    [.advance 4, .event .refresh, .event .power, .advance 8]
    (fun s : Dram .shortInterval => s.Enabled (.event .refresh) ∧
      s.aborts (.event .refresh) .refreshAssertion = true) (by decide +kernel)
  refine ⟨s, hs, hen, ?_⟩
  unfold Dram.aborts at hcall
  split at hcall
  · next heq => rw [heq, beq_iff_eq.mp hcall]
  · cases hcall

end PardG5V
