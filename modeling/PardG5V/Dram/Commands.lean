import Mathlib.Logic.Relation
import PardG5V.Dram.Step
import PardG5V.Lib.Aborts

/-!
# What the controller can do to a row buffer

The part of the state that the commands to the row buffers and the refresh and power state
machines live in, and the small steps that change it: a row buffer is activated, accessed or
precharged, or the times of a bank are moved back. Every function of `Access.lean`, and the
request event as a whole, is a sequence of such steps; the other handlers change none of it.
-/

namespace PardG5V

open Prog Relation

variable {cfg : DramConfig}

/-! ## The part of the state -/

/-- Commands to the memory, as opposed to what goes to the requesters. -/
def DramEvent.isCommand : DramEvent cfg → Bool
  | .respond _ _ => false
  | .retry => false
  | _ => true

/-- The banks with the window of activates, the refresh and power state machines, their
events, and the commands so far. -/
structure DramCore (cfg : DramConfig) where
  curTick : Tick
  banks : BankId cfg → Bank
  actTicks : Fin cfg.ranksPerChannel → List Tick
  numBanksActive : Nat
  refreshState : RefreshState
  refreshDueAt : Tick
  pwrStateTrans : PowerState
  pwrState : PowerState
  activateEvent : Option Tick
  prechargeEvent : Option Tick
  refreshEvent : Option Tick
  powerEvent : Option Tick
  commands : List (DramEvent cfg)

namespace Dram

def commands (s : Dram cfg) : List (DramEvent cfg) := s.log.filter DramEvent.isCommand

def core (s : Dram cfg) : DramCore cfg where
  curTick := s.curTick
  banks := s.banks
  actTicks := s.actTicks
  numBanksActive := s.numBanksActive
  refreshState := s.refreshState
  refreshDueAt := s.refreshDueAt
  pwrStateTrans := s.pwrStateTrans
  pwrState := s.pwrState
  activateEvent := s.activateEvent
  prechargeEvent := s.prechargeEvent
  refreshEvent := s.refreshEvent
  powerEvent := s.powerEvent
  commands := s.commands

/-- The two states agree on the banks and the two state machines. -/
def SameCore (s s' : Dram cfg) : Prop := s'.core = s.core

instance : IsPreorder (Dram cfg) SameCore where
  refl _ := rfl
  trans _ _ _ h₁ h₂ := Eq.trans h₂ h₁

/-! ## Small steps -/

def activated (s : Dram cfg) (buf : RowBuf cfg) (row : Row) (tick : Tick) : Dram cfg :=
  if (s.actTicks buf.bank.rank).isEmpty then s.opened buf row tick
  else ((s.opened buf row tick).noteWindow buf.bank.rank tick).activateBy tick

def precharged (s : Dram cfg) (buf : RowBuf cfg) (tick : Tick) : Dram cfg :=
  (s.closed buf tick).prechargeBy (tick + cfg.tRP)

end Dram

structure Bank.Defers (bank bank' : Bank) : Prop where
  openRow : bank'.openRow = bank.openRow
  numRowsActive : bank'.numRowsActive = bank.numRowsActive
  pre : bank.preAllowedAt ≤ bank'.preAllowedAt
  act : bank.actAllowedAt ≤ bank'.actAllowedAt
  col : bank.colAllowedAt ≤ bank'.colAllowedAt

/-- A condition on the banks that an activate finds, its row buffer and its tick. -/
abbrev ActivateRule (cfg : DramConfig) := (BankId cfg → Bank) → RowBuf cfg → Tick → Prop

/-- One command to a row buffer, or a change that is none. Every activate meets `A`. -/
inductive BankStep (A : ActivateRule cfg) : Dram cfg → Dram cfg → Prop
  | keep {s s' : Dram cfg} (h : s.SameCore s') : BankStep A s s'
  | activate {s : Dram cfg} {buf : RowBuf cfg} {row : Row} {tick : Tick}
      (hwindow : (s.actTicks buf.bank.rank).length = cfg.activationLimit)
      (hclosed : s.openRow buf = none) (hrows : (s.banks buf.bank).numRowsActive < rowBufferCount)
      (htick : tick = max (s.banks buf.bank).actAllowedAt s.curTick) (hA : A s.banks buf tick) :
      BankStep A s (s.activated buf row tick)
  | precharge {s : Dram cfg} {buf : RowBuf cfg} {tick : Tick}
      (hopen : (s.openRow buf).isSome = true) (hpre : (s.banks buf.bank).preAllowedAt ≤ tick)
      (hnow : s.curTick ≤ tick) : BankStep A s (s.precharged buf tick)
  | access {s : Dram cfg} {pkt : DRAMPacket cfg} {cmdAt readyTime : Tick}
      (hopen : s.openRow pkt.rowBuf = some pkt.row)
      (hcol : (s.banks pkt.bankId).colAllowedAt ≤ cmdAt) (hnow : s.curTick ≤ cmdAt)
      (hready : readyTime = cmdAt + cfg.tCL + cfg.tBURST) :
      BankStep A s (s.accessed pkt cmdAt readyTime)
  | defer {s : Dram cfg} {id : BankId cfg} {bank : Bank} (h : (s.banks id).Defers bank) :
      BankStep A s (s.setBank id bank)

abbrev BankSteps (A : ActivateRule cfg) : Dram cfg → Dram cfg → Prop :=
  ReflTransGen (BankStep A)

namespace BankLemmas

variable {A : ActivateRule cfg} {s s' : Dram cfg}
  {buf : RowBuf cfg} {pkt : DRAMPacket cfg} {row : Row} {tick : Tick}

instance : IsPreorder (Dram cfg) (BankSteps A) where
  refl _ := .refl
  trans _ _ _ h₁ h₂ := ReflTransGen.trans h₁ h₂

theorem keep_path (h : s.SameCore s') : BankSteps A s s' := .single (.keep h)

theorem steps_imp {A' : ActivateRule cfg}
    (himp : ∀ banks buf tick, A banks buf tick → A' banks buf tick) (h : BankSteps A s s') :
    BankSteps A' s s' := by
  refine ReflTransGen.mono (fun s₁ s₂ hstep => ?_) s s' h
  cases hstep with
  | keep hcore => exact .keep hcore
  | activate hwindow hclosed hrows htick hA =>
    exact .activate hwindow hclosed hrows htick (himp _ _ _ hA)
  | precharge hopen hpre hnow => exact .precharge hopen hpre hnow
  | access hopen hcol hnow hready => exact .access hopen hcol hnow hready
  | defer hdefer => exact .defer hdefer

theorem activateBank_eq_ok (h : activateBank tick buf row s = .ok ((), s')) :
    (s.actTicks buf.bank.rank).length = cfg.activationLimit ∧ s.openRow buf = none ∧
      (s.banks buf.bank).numRowsActive < rowBufferCount ∧
      s' = s.activated buf row tick := by
  simp only [activateBank, bind_eq_ok, get_eq_ok, DramM.check_eq_ok, modify_eq_ok] at h
  obtain ⟨_, _, ⟨rfl, rfl⟩, _, _, ⟨hwindow, rfl⟩, _, _, ⟨hclosed, rfl⟩, _, _, ⟨hrows, rfl⟩, _, _,
    rfl, _, _, ⟨rfl, rfl⟩, _, _, ⟨_, rfl⟩, h⟩ := h
  refine ⟨by simpa using hwindow, by simpa using hclosed, of_decide_eq_true hrows, ?_⟩
  unfold Dram.activated
  cases hempty : (s.actTicks buf.bank.rank).isEmpty with
  | true =>
    simp only [hempty, Bool.not_true, when_eq_ok, Bool.false_eq_true, false_and, false_or,
      true_and] at h
    exact h.symm
  | false =>
    simp only [hempty, Bool.not_false, when_eq_ok, bind_eq_ok, DramM.check_eq_ok, modify_eq_ok,
      true_and, Bool.true_eq_false, false_and, or_false] at h
    obtain ⟨_, _, ⟨_, rfl⟩, rfl⟩ := h
    rfl

theorem prechargeBank_eq_ok (h : prechargeBank buf tick s = .ok ((), s')) :
    (s.openRow buf).isSome = true ∧ s' = s.precharged buf tick := by
  simp only [prechargeBank, bind_eq_ok, get_eq_ok, DramM.check_eq_ok, modify_eq_ok] at h
  obtain ⟨_, _, ⟨rfl, rfl⟩, _, _, ⟨hopen, rfl⟩, _, _, ⟨_, rfl⟩, _, _, ⟨_, rfl⟩, rfl⟩ := h
  exact ⟨hopen, rfl⟩

/-! ## The banks after a command -/

section

variable (s : Dram cfg)

theorem banks_setBank (id id' : BankId cfg) (bank : Bank) :
    (s.setBank id bank).banks id' = if id' = id then bank else s.banks id' := rfl

/-- A rank that holds its activates back changes no other time. -/
theorem banks_holdRank (rank : Fin cfg.ranksPerChannel) (tick : Tick) (id : BankId cfg) :
    ∃ t, (s.holdRank rank tick).banks id = { s.banks id with actAllowedAt := t } ∧
      (s.banks id).actAllowedAt ≤ t ∧ (id.rank = rank → tick ≤ t) := by
  unfold Dram.holdRank
  by_cases hrank : id.rank = rank
  · refine ⟨max tick (s.banks id).actAllowedAt, ?_, Nat.le_max_right _ _,
      fun _ => Nat.le_max_left _ _⟩
    simp only [hrank, if_true, Bank.holdActivate]
  · exact ⟨(s.banks id).actAllowedAt, by simp [hrank], Nat.le_refl _, fun h => absurd h hrank⟩

/-- The bank of the row buffer, and every other bank as far as its rank holds it back. -/
theorem banks_opened (buf : RowBuf cfg) (row : Row) (tick : Tick) (id : BankId cfg) :
    ∃ t, (s.opened buf row tick).banks id =
        { (if id = buf.bank then (s.banks id).opened cfg buf.num row tick else s.banks id) with
          actAllowedAt := t } ∧
      (s.banks id).actAllowedAt ≤ t ∧ (id.rank = buf.bank.rank → tick + cfg.tRRD ≤ t) := by
  obtain ⟨t, hbank, hle, hrank⟩ := banks_holdRank
    { s.setBank buf.bank ((s.banks buf.bank).opened cfg buf.num row tick) with
      numBanksActive := if (s.banks buf.bank).numRowsActive = 0 then s.numBanksActive + 1
        else s.numBanksActive } buf.bank.rank (tick + cfg.tRRD) id
  refine ⟨t, ?_, ?_, hrank⟩
  · rw [show (s.opened buf row tick).banks id = _ from hbank]
    dsimp only [banks_setBank]
    by_cases hid : id = buf.bank
    · simp [hid]
    · simp [hid]
  · refine Nat.le_trans (Nat.le_of_eq ?_) hle
    dsimp only [banks_setBank]
    by_cases hid : id = buf.bank
    · simp [hid, Bank.opened]
    · simp [hid]

theorem banks_activated (buf : RowBuf cfg) (row : Row) (tick : Tick) (id : BankId cfg) :
    ∃ t, (s.activated buf row tick).banks id =
        { (if id = buf.bank then (s.banks id).opened cfg buf.num row tick else s.banks id) with
          actAllowedAt := t } ∧
      (s.banks id).actAllowedAt ≤ t ∧ (id.rank = buf.bank.rank → tick + cfg.tRRD ≤ t) := by
  obtain ⟨t, hbank, hle, hrank⟩ := banks_opened s buf row tick id
  unfold Dram.activated
  split
  · exact ⟨t, hbank, hle, hrank⟩
  · unfold Dram.noteWindow
    dsimp only
    split
    · obtain ⟨t', hbank', hle', -⟩ := banks_holdRank
        { s.opened buf row tick with
          actTicks := fun r => if r = buf.bank.rank
            then tick :: ((s.opened buf row tick).actTicks buf.bank.rank).dropLast
            else (s.opened buf row tick).actTicks r } buf.bank.rank
        ((tick :: ((s.opened buf row tick).actTicks buf.bank.rank).dropLast).getLast?.getD 0 +
          cfg.tXAW) id
      rw [hbank] at hle'
      refine ⟨t', ?_, Nat.le_trans hle hle', fun h => Nat.le_trans (hrank h) hle'⟩
      refine hbank'.trans ?_
      rw [hbank]
    · exact ⟨t, hbank, hle, hrank⟩

theorem activated_colAllowedAt (buf : RowBuf cfg) (row : Row) (tick : Tick) :
    ((s.activated buf row tick).banks buf.bank).colAllowedAt = tick + cfg.tRCD := by
  obtain ⟨t, hbank, -, -⟩ := banks_activated s buf row tick buf.bank
  rw [hbank, if_pos rfl]
  rfl

theorem banks_precharged (buf : RowBuf cfg) (tick : Tick) (id : BankId cfg) :
    (s.precharged buf tick).banks id =
      if id = buf.bank then (s.banks buf.bank).closed cfg buf.num tick else s.banks id := rfl

theorem openRow_activated (buf buf' : RowBuf cfg) (row : Row) (tick : Tick) :
    (s.activated buf row tick).openRow buf' = if buf' = buf then some row else s.openRow buf' := by
  obtain ⟨t, hbank, -, -⟩ := banks_activated s buf row tick buf'.bank
  unfold Dram.openRow
  rw [hbank]
  by_cases hid : buf'.bank = buf.bank
  · by_cases hnum : buf'.num = buf.num
    · rw [if_pos hid, if_pos (by cases buf'; cases buf; simp_all)]
      simp [Bank.opened, hnum]
    · rw [if_pos hid, if_neg fun h => hnum (by rw [h])]
      simp [Bank.opened, hnum]
  · rw [if_neg hid, if_neg fun h => hid (by rw [h])]

theorem openRow_precharged (buf buf' : RowBuf cfg) (tick : Tick) :
    (s.precharged buf tick).openRow buf' = if buf' = buf then none else s.openRow buf' := by
  unfold Dram.openRow
  rw [banks_precharged]
  by_cases hid : buf'.bank = buf.bank
  · by_cases hnum : buf'.num = buf.num
    · rw [if_pos hid, if_pos (by cases buf'; cases buf; simp_all)]
      simp [Bank.closed, hnum]
    · rw [if_pos hid, if_neg fun h => hnum (by rw [h])]
      simp [Bank.closed, hnum, hid]
  · rw [if_neg hid, if_neg fun h => hid (by rw [h])]

theorem openRow_accessed (pkt : DRAMPacket cfg) (cmdAt readyTime : Tick)
    (buf : RowBuf cfg) : (s.accessed pkt cmdAt readyTime).openRow buf = s.openRow buf := by
  unfold Dram.openRow Dram.accessed
  by_cases hid : buf.bank = pkt.bankId
  · simp [Dram.emit, banks_setBank, hid, Bank.accessed]
  · simp [Dram.emit, banks_setBank, hid]

end

end BankLemmas

/-- The banks when the row of the packet is activated: its row buffer was precharged if
another row was open in it. -/
def Dram.prepared (s : Dram cfg) (pkt : DRAMPacket cfg) : BankId cfg → Bank :=
  if (s.openRow pkt.rowBuf).isSome then
    (s.precharged pkt.rowBuf (max (s.banks pkt.bankId).preAllowedAt s.curTick)).banks
  else s.banks

/-- Opening the row of the packet meets `A`. -/
def Dram.Opens (A : ActivateRule cfg) (s : Dram cfg)
    (pkt : DRAMPacket cfg) : Prop :=
  s.rowHit pkt = false →
    A (s.prepared pkt) pkt.rowBuf (max (s.prepared pkt pkt.bankId).actAllowedAt s.curTick)

/-- The end of a column command: the row buffer is closed with an auto-precharge. -/
def Dram.settled (s : Dram cfg) (pkt : DRAMPacket cfg) (others : List (DRAMPacket cfg)) :
    Dram cfg :=
  if s.autoPrecharge pkt others then
    s.precharged pkt.rowBuf (max s.curTick (s.banks pkt.bankId).preAllowedAt)
  else s

structure Dram.SameMachines (s s' : Dram cfg) : Prop where
  curTick : s'.curTick = s.curTick
  refreshState : s'.refreshState = s.refreshState
  refreshDueAt : s'.refreshDueAt = s.refreshDueAt
  refreshEvent : s'.refreshEvent = s.refreshEvent
  pwrState : s'.pwrState = s.pwrState
  pwrStateTrans : s'.pwrStateTrans = s.pwrStateTrans
  powerEvent : s'.powerEvent = s.powerEvent

namespace Dram.SameMachines

theorem ofCore {s s' : Dram cfg} (h : s.SameCore s') : s.SameMachines s' :=
  ⟨congrArg DramCore.curTick h, congrArg DramCore.refreshState h,
    congrArg DramCore.refreshDueAt h, congrArg DramCore.refreshEvent h,
    congrArg DramCore.pwrState h, congrArg DramCore.pwrStateTrans h,
    congrArg DramCore.powerEvent h⟩

theorem trans {s s' s'' : Dram cfg} (h₁ : s.SameMachines s') (h₂ : s'.SameMachines s'') :
    s.SameMachines s'' :=
  ⟨h₂.curTick.trans h₁.curTick, h₂.refreshState.trans h₁.refreshState,
    h₂.refreshDueAt.trans h₁.refreshDueAt, h₂.refreshEvent.trans h₁.refreshEvent,
    h₂.pwrState.trans h₁.pwrState, h₂.pwrStateTrans.trans h₁.pwrStateTrans,
    h₂.powerEvent.trans h₁.powerEvent⟩

end Dram.SameMachines

/-! ## Programs that give no command -/

structure NotOfQueues (bad : DramAbort → Prop) : Prop where
  assertion : ¬ bad .assertion
  outOfBounds : ¬ bad .outOfBounds
  panicked : ¬ bad .panicked

theorem NotOfQueues.never : NotOfQueues fun _ => False := ⟨id, id, id⟩

/-- The program gives no command, and fails with none of the errors `bad`. -/
abbrev Plain {α : Type} (bad : DramAbort → Prop) (m : DramM cfg α) : Prop :=
  Runs Dram.SameCore bad m

namespace BankLemmas

variable {A : ActivateRule cfg} {s s' : Dram cfg}
  {buf : RowBuf cfg} {pkt : DRAMPacket cfg} {row : Row} {tick : Tick}
  {bad : DramAbort → Prop} {abort : DramAbort} {α : Type} {cmdAt preAt : Tick}
  {others : List (DRAMPacket cfg)}

theorem schedule_avoids (h : ¬ bad abort) {event : Option Tick} :
    Avoids bad (DramM.schedule s abort event tick) :=
  .ite (fun _ => .ok) fun _ => .error h

theorem ofExcept_avoids (hq : NotOfQueues bad) (x : Except Abort α) :
    Avoids bad (DramM.ofExcept x) := by
  cases x with
  | ok a => exact .ok
  | error e =>
    refine .error ?_
    cases e with
    | assertion | targetKind | notInService => exact hq.assertion
    | panicked | fatal => exact hq.panicked
    | outOfBounds => exact hq.outOfBounds

theorem decodeAddr_avoids (hq : NotOfQueues bad) {pkt : Packet} {addr : Addr} {size : Nat}
    {isRead : Bool} :
    Avoids bad (s.decodeAddr pkt addr size isRead) := by
  unfold Dram.decodeAddr
  generalize decodeDigits cfg (addr.toNat / cfg.burstSize) = digits
  refine .ite (fun _ => .bind (.error hq.panicked) fun _ h => nomatch h) fun _ => ?_
  refine (ofExcept_avoids hq _).bind fun rowbuf _ => ?_
  split
  · exact .ok
  · exact .error hq.assertion

theorem check_plain (h : ¬ bad abort) {c : Bool} :
    Plain bad (DramM.check abort c : DramM cfg Unit) :=
  .ite .pure (.throw h)

theorem countAccess_plain (hq : NotOfQueues bad) {rowHit : Bool} {readyTime : Tick} :
    Plain bad (countAccess pkt rowHit cmdAt readyTime) :=
  .bind (.when (check_plain hq.assertion)) fun _ => .modify fun _ => rfl

theorem queueResponse_plain (hq : NotOfQueues bad) : Plain bad (queueResponse pkt) := by
  refine .bind .get fun s => .bind (check_plain hq.assertion) fun _ => ?_
  refine .bind (check_plain hq.assertion) fun _ => ?_
  cases s.respQueue.getLast? with
  | none =>
    refine .bind (.lift (schedule_avoids hq.assertion)) fun _ => ?_
    exact .bind (.modify fun _ => rfl) fun _ => .modify fun _ => rfl
  | some last =>
    refine .bind (check_plain hq.assertion) fun _ => ?_
    exact .bind (check_plain hq.assertion) fun _ => .modify fun _ => rfl

theorem requestAgain_plain (hq : NotOfQueues bad) : Plain bad (requestAgain : DramM cfg Unit) := by
  refine .bind .get fun _ => .bind (.lift (schedule_avoids hq.assertion)) fun _ => ?_
  exact .bind (.modify fun _ => rfl) fun _ => .when (.modify fun _ => rfl)

section

variable (s : Dram cfg)

theorem opened_machines (buf : RowBuf cfg) (row : Row) (tick : Tick) :
    s.SameMachines (s.opened buf row tick) := ⟨rfl, rfl, rfl, rfl, rfl, rfl, rfl⟩

theorem noteWindow_machines (rank : Fin cfg.ranksPerChannel) (tick : Tick) :
    s.SameMachines (s.noteWindow rank tick) := by
  unfold Dram.noteWindow
  dsimp only
  split
  · exact ⟨rfl, rfl, rfl, rfl, rfl, rfl, rfl⟩
  · exact ⟨rfl, rfl, rfl, rfl, rfl, rfl, rfl⟩

theorem activateBy_machines (tick : Tick) : s.SameMachines (s.activateBy tick) :=
  ⟨rfl, rfl, rfl, rfl, rfl, rfl, rfl⟩

theorem activated_machines (buf : RowBuf cfg) (row : Row) (tick : Tick) :
    s.SameMachines (s.activated buf row tick) := by
  unfold Dram.activated
  split
  · exact opened_machines s buf row tick
  · exact ((opened_machines s buf row tick).trans (noteWindow_machines _ _ _)).trans
      (activateBy_machines _ _)

theorem activated_prechargeEvent (buf : RowBuf cfg) (row : Row) (tick : Tick) :
    (s.activated buf row tick).prechargeEvent = s.prechargeEvent := by
  unfold Dram.activated Dram.noteWindow
  split
  · rfl
  · dsimp only
    split <;> rfl

theorem activated_commands (buf : RowBuf cfg) (row : Row) (tick : Tick) :
    (s.activated buf row tick).commands = .activate buf row tick :: s.commands := by
  unfold Dram.activated Dram.noteWindow
  split
  · rfl
  · dsimp only
    split <;> rfl

theorem precharged_machines (buf : RowBuf cfg) (tick : Tick) :
    s.SameMachines (s.precharged buf tick) := ⟨rfl, rfl, rfl, rfl, rfl, rfl, rfl⟩

theorem precharged_prechargeEvent (buf : RowBuf cfg) (tick : Tick) :
    (s.precharged buf tick).prechargeEvent =
      some (s.prechargeEvent.elim (tick + cfg.tRP) (max · (tick + cfg.tRP))) := by
  have hclosed : (s.closed buf tick).prechargeEvent = s.prechargeEvent := rfl
  unfold Dram.precharged Dram.prechargeBy
  rw [hclosed]
  cases s.prechargeEvent <;> rfl

theorem accessed_machines (pkt : DRAMPacket cfg) (cmdAt readyTime : Tick) :
    s.SameMachines (s.accessed pkt cmdAt readyTime) := ⟨rfl, rfl, rfl, rfl, rfl, rfl, rfl⟩

theorem accessed_commands (pkt : DRAMPacket cfg) (cmdAt readyTime : Tick) :
    (s.accessed pkt cmdAt readyTime).commands =
      (if pkt.isRead then .read pkt.rowBuf cmdAt else .write pkt.rowBuf readyTime) ::
        s.commands := by
  unfold Dram.accessed Dram.commands Dram.emit
  cases pkt.isRead <;> rfl

end

theorem machines_of_steps (h : BankSteps A s s') : s.SameMachines s' := by
  induction h with
  | refl => exact ⟨rfl, rfl, rfl, rfl, rfl, rfl, rfl⟩
  | tail _ hstep ih =>
    refine ih.trans ?_
    cases hstep with
    | keep h => exact .ofCore h
    | activate => exact activated_machines _ _ _ _
    | precharge => exact precharged_machines _ _ _
    | access => exact accessed_machines _ _ _ _
    | defer => exact ⟨rfl, rfl, rfl, rfl, rfl, rfl, rfl⟩

/-! ## The access -/

theorem openRowFor_path (hA : s.Opens A pkt) (hmiss : s.rowHit pkt = false)
    (h : openRowFor pkt s = .ok ((), s')) :
    BankSteps A s s' ∧ s'.openRow pkt.rowBuf = some pkt.row ∧
      s'.curTick ≤ (s'.banks pkt.bankId).colAllowedAt := by
  simp only [openRowFor, bind_eq_ok, get_eq_ok] at h
  obtain ⟨_, _, ⟨rfl, rfl⟩, _, s₁, hpre, _, _, ⟨rfl, rfl⟩, hact⟩ := h
  have hs₁ : s₁.banks = s.prepared pkt ∧ BankSteps A s s₁ := by
    unfold Dram.prepared
    rcases when_eq_ok.mp hpre with ⟨hopen, hpre⟩ | ⟨hclosed, rfl⟩
    · obtain ⟨-, rfl⟩ := prechargeBank_eq_ok hpre
      rw [if_pos hopen]
      exact ⟨rfl, .single (.precharge hopen (Nat.le_max_left _ _) (Nat.le_max_right _ _))⟩
    · rw [hclosed]
      exact ⟨rfl, .refl⟩
  obtain ⟨hwindow, hclosed, hrows, rfl⟩ := activateBank_eq_ok hact
  refine ⟨hs₁.2.tail (.activate hwindow hclosed hrows rfl ?_), ?_, ?_⟩
  · rw [(machines_of_steps hs₁.2).curTick, hs₁.1]
    exact hA hmiss
  · rw [openRow_activated, if_pos rfl]
  · rw [(activated_machines _ _ _ _).curTick]
    refine Nat.le_trans ?_ (Nat.le_of_eq (activated_colAllowedAt s₁ pkt.rowBuf _ _).symm)
    exact Nat.le_trans (Nat.le_max_right _ _) (Nat.le_add_right _ _)

theorem columnAccess_eq_ok {others : List (DRAMPacket cfg)} {cmdAt : Tick} {times : Tick × Tick}
    (h : columnAccess pkt others cmdAt s = .ok (times, s')) :
    ∃ cmd, times = (cmd, cmd + cfg.tCL + cfg.tBURST) ∧ cmdAt ≤ cmd ∧
      s.busBusyUntil ≤ cmd + cfg.tCL ∧
      s' = ((s.accessed pkt times.1 times.2).settled pkt others).busUsed pkt times.2 := by
  simp only [columnAccess, bind_eq_ok, get_eq_ok, DramM.check_eq_ok, modify_eq_ok, pure_eq_ok] at h
  obtain ⟨_, _, ⟨rfl, rfl⟩, _, _, ⟨_, rfl⟩, _, _, rfl, _, _, ⟨rfl, rfl⟩, _, s₁, hauto, _, _, rfl,
    rfl, rfl⟩ := h
  refine ⟨_, rfl, Nat.le_max_left _ _, Nat.sub_le_iff_le_add.mp (Nat.le_max_right _ _), ?_⟩
  unfold Dram.settled
  rcases when_eq_ok.mp hauto with ⟨hclose, hpre⟩ | ⟨hkeep, rfl⟩
  · obtain ⟨-, rfl⟩ := prechargeBank_eq_ok hpre
    rw [if_pos hclose]
  · rw [if_neg (Bool.eq_false_iff.mp hkeep)]

theorem countAccess_eq_ok {rowHit : Bool} {cmdAt readyTime : Tick}
    (h : countAccess pkt rowHit cmdAt readyTime s = .ok ((), s')) :
    s' = s.count pkt.qosTag (·.accessed pkt rowHit cmdAt readyTime) := by
  simp only [countAccess, bind_eq_ok, modify_eq_ok] at h
  obtain ⟨_, s₁, hcheck, rfl⟩ := h
  rcases when_eq_ok.mp hcheck with ⟨_, hcheck⟩ | ⟨_, rfl⟩
  · obtain ⟨_, rfl⟩ := DramM.check_eq_ok.mp hcheck
    rfl
  · rfl

/-- An access finds its row open or opens it, and gives its column command in that state. -/
theorem doDRAMAccess_eq_ok {others : List (DRAMPacket cfg)} {r : DRAMPacket cfg}
    (h : doDRAMAccess pkt others s = .ok (r, s')) :
    ∃ s₀ cmd ready, (s.rowHit pkt = true ∧ s₀ = s ∧ s.curTick ≤ cmd ∨
        s.rowHit pkt = false ∧ openRowFor pkt s = .ok ((), s₀)) ∧
      (s₀.banks pkt.bankId).colAllowedAt ≤ cmd ∧ s₀.busBusyUntil ≤ cmd + cfg.tCL ∧
      ready = cmd + cfg.tCL + cfg.tBURST ∧ r = { pkt with readyTime := ready } ∧
      s' = (((s₀.accessed pkt cmd ready).settled pkt others).busUsed pkt ready).count pkt.qosTag
        (·.accessed pkt (s.rowHit pkt) cmd ready) := by
  simp only [doDRAMAccess, bind_eq_ok, get_eq_ok, ite_eq_ok, pure_eq_ok, Bool.not_eq_true] at h
  obtain ⟨_, _, ⟨rfl, rfl⟩, ⟨hhit, times, s₁, hcol, _, s₂, hcount, rfl, rfl⟩ |
    ⟨hmiss, _, s₀, hopen, _, _, ⟨rfl, rfl⟩, times, s₁, hcol, _, s₂, hcount, rfl, rfl⟩⟩ := h
  · obtain ⟨cmd, rfl, hle, hbus, rfl⟩ := columnAccess_eq_ok hcol
    rw [hhit, countAccess_eq_ok hcount]
    exact ⟨s, cmd, _, .inl ⟨rfl, rfl, Nat.le_trans (Nat.le_max_right _ _) hle⟩,
      Nat.le_trans (Nat.le_max_left _ _) hle, hbus, rfl, rfl, rfl⟩
  · obtain ⟨cmd, rfl, hle, hbus, rfl⟩ := columnAccess_eq_ok hcol
    rw [hmiss, countAccess_eq_ok hcount]
    exact ⟨s₀, cmd, _, .inr ⟨rfl, hopen⟩, hle, hbus, rfl, rfl, rfl⟩

theorem doDRAMAccess_path {others : List (DRAMPacket cfg)} {r : DRAMPacket cfg}
    (hA : s.Opens A pkt) (h : doDRAMAccess pkt others s = .ok (r, s')) : BankSteps A s s' := by
  obtain ⟨s₀, cmd, ready, hopened, hcol, -, hready, -, rfl⟩ := doDRAMAccess_eq_ok h
  have hrow : BankSteps A s s₀ ∧ s₀.openRow pkt.rowBuf = some pkt.row ∧ s₀.curTick ≤ cmd := by
    rcases hopened with ⟨hhit, rfl, hnow⟩ | ⟨hmiss, hopen⟩
    · exact ⟨.refl, by simpa [Dram.rowHit] using hhit, hnow⟩
    · obtain ⟨hpath, hrow, hnow⟩ := openRowFor_path hA hmiss hopen
      exact ⟨hpath, hrow, Nat.le_trans hnow hcol⟩
  obtain ⟨hpath, hrow, hnow⟩ := hrow
  refine (hpath.tail (.access hrow hcol hnow hready)).trans (.tail (b := Dram.settled _ pkt others)
    ?_ (.keep rfl))
  unfold Dram.settled
  split
  · refine .single (.precharge ?_ (Nat.le_max_right _ _) (Nat.le_max_left _ _))
    rw [openRow_accessed, hrow]
    rfl
  · exact .refl

/-! ## The precharge of all row buffers -/

theorem forEach_path {ι : Type} {body : ι → DramM cfg Unit}
    (hbody : ∀ i s s', s.curTick ≤ preAt → body i s = .ok ((), s') → BankSteps A s s') :
    ∀ {is : List ι} {s s' : Dram cfg}, s.curTick ≤ preAt →
      Prog.forEach body is s = .ok ((), s') → BankSteps A s s'
  | [], s, s', _, h => by
      obtain rfl := forEach_nil_eq_ok.mp h
      exact .refl
  | i :: is, s, s', hnow, h => by
      obtain ⟨s₁, hi, his⟩ := forEach_cons_eq_ok.mp h
      have hpath := hbody i s s₁ hnow hi
      rw [← (machines_of_steps hpath).curTick] at hnow
      exact ReflTransGen.trans hpath (forEach_path hbody hnow his)

theorem refreshPrechargeBuf_path (hnow : s.curTick ≤ preAt)
    (h : refreshPrechargeBuf preAt buf s = .ok ((), s')) : BankSteps A s s' := by
  simp only [refreshPrechargeBuf, bind_eq_ok, get_eq_ok] at h
  obtain ⟨_, _, ⟨rfl, rfl⟩, h⟩ := h
  rcases when_eq_ok.mp h with ⟨_, h⟩ | ⟨_, rfl⟩
  · simp only [bind_eq_ok, modify_eq_ok] at h
    obtain ⟨_, s₁, hpre, rfl⟩ := h
    obtain ⟨hopen, rfl⟩ := prechargeBank_eq_ok hpre
    refine .tail (.single (.precharge hopen (Nat.le_max_left _ _)
      (Nat.le_trans hnow (Nat.le_max_right _ _))))
        (.defer ⟨rfl, rfl, ?_, Nat.le_refl _, Nat.le_refl _⟩)
    rw [banks_precharged, if_pos rfl]
    exact Nat.le_trans (Nat.le_add_right _ cfg.tRP) (Nat.le_max_right _ _)
  · exact .refl

theorem refreshPrecharge_path {id : BankId cfg} (hnow : s.curTick ≤ preAt)
    (h : refreshPrecharge preAt id s = .ok ((), s')) : BankSteps A s s' := by
  simp only [refreshPrecharge, bind_eq_ok, get_eq_ok, ite_eq_ok, modify_eq_ok] at h
  obtain ⟨_, _, ⟨rfl, rfl⟩, ⟨_, rfl⟩ | ⟨_, h⟩⟩ := h
  · exact .single (.defer ⟨rfl, rfl, Nat.le_max_left _ _, Nat.le_max_left _ _, Nat.le_refl _⟩)
  · exact forEach_path (fun _ _ _ hnow h => refreshPrechargeBuf_path hnow h) hnow h

theorem le_foldl_max (f : α → Tick) :
    ∀ (xs : List α) (n : Tick), n ≤ xs.foldl (fun acc x => max (f x) acc) n
  | [], _ => Nat.le_refl _
  | x :: xs, n => Nat.le_trans (Nat.le_max_right (f x) n) (le_foldl_max f xs _)

theorem prechargeRows_path
    (h : Prog.forEach (refreshPrecharge s.precharge) (BankId.all cfg) s = .ok ((), s')) :
    BankSteps A s s' :=
  forEach_path (fun _ _ _ hnow h => refreshPrecharge_path hnow h) (le_foldl_max _ _ _) h

/-! ## The request event -/

end BankLemmas

def Dram.next (s : Dram cfg) : Option (DRAMPacket cfg) :=
  let s := (s.stopTimer .nextReq).turnedAround
  if s.busState = .READ then (s.chooseNext s.readQueue).head?
  else (s.chooseNext s.writeQueue).head?

namespace BankLemmas

variable {A : ActivateRule cfg} {s s' : Dram cfg}
  {buf : RowBuf cfg} {pkt : DRAMPacket cfg} {row : Row} {tick : Tick} {bad : DramAbort → Prop}

theorem turnedAround_core (s : Dram cfg) : s.SameCore s.turnedAround := by
  unfold Dram.turnedAround
  split <;> rfl

theorem opens_core {s₀ : Dram cfg} (hcore : s.SameCore s₀) (h : s.Opens A pkt) :
    s₀.Opens A pkt := by
  have hbanks : s₀.banks = s.banks := congrArg DramCore.banks hcore
  have htick : s₀.curTick = s.curTick := congrArg DramCore.curTick hcore
  have hopen : s₀.openRow = s.openRow := by
    unfold Dram.openRow
    rw [hbanks]
  have hprepared : s₀.prepared pkt = s.prepared pkt := by
    unfold Dram.prepared
    rw [hopen, hbanks, htick]
    split
    · refine funext fun id => ?_
      rw [banks_precharged, banks_precharged, hbanks]
    · rfl
  unfold Dram.Opens Dram.rowHit at h ⊢
  rw [hopen, hprepared, htick]
  exact h

/-- With nothing to read, the bus at most turns around. -/
theorem serveRead_core {again : Bool} (hqueue : s.chooseNext s.readQueue = [])
    (h : serveRead s = .ok (again, s')) : s.SameCore s' := by
  simp only [serveRead, bind_eq_ok, get_eq_ok] at h
  obtain ⟨_, _, ⟨rfl, rfl⟩, h⟩ := h
  simp only [hqueue, ite_eq_ok, bind_eq_ok, modify_eq_ok, pure_eq_ok, when_eq_ok] at h
  obtain ⟨_, _, _, rfl, _, rfl⟩ | ⟨_, _, _, ⟨_, rfl⟩ | ⟨_, rfl⟩, _, rfl⟩ := h <;> rfl

section Relations

variable {T : Dram cfg → Dram cfg → Prop} [IsPreorder (Dram cfg) T]
  (hcore : ∀ {s s' : Dram cfg}, s.SameCore s' → T s s')

include hcore

/-- Serving a read is related as its access is, for a relation that only looks at the
banks and the two state machines. -/
theorem serveRead_follows {again : Bool}
    (haccess : ∀ pkt rest r s₁, s.chooseNext s.readQueue = pkt :: rest →
      doDRAMAccess pkt rest { s with readQueue := pkt :: rest } = .ok (r, s₁) →
      T { s with readQueue := pkt :: rest } s₁)
    (h : serveRead s = .ok (again, s')) : T s s' := by
  cases hqueue : s.chooseNext s.readQueue with
  | nil => exact hcore (serveRead_core hqueue h)
  | cons pkt rest =>
    simp only [serveRead, bind_eq_ok, get_eq_ok] at h
    obtain ⟨_, _, ⟨rfl, rfl⟩, h⟩ := h
    simp only [hqueue, bind_eq_ok, modify_eq_ok, get_eq_ok, pure_eq_ok] at h
    obtain ⟨_, _, rfl, pkt', s₁, hserved, _, _, rfl, _, s₂, hresp, _, _, ⟨rfl, rfl⟩, _, s₃, hturn,
      _, rfl⟩ := h
    have hqueued : T s { s with readQueue := pkt :: rest } := hcore rfl
    have hpath := haccess pkt rest pkt' s₁ hqueue hserved
    have hpopped : T s₁ { s₁ with readQueue := rest } := hcore rfl
    have hrest : T { s₁ with readQueue := rest } s₂ :=
      hcore ((queueResponse_plain .never).1 _ _ _ hresp)
    refine trans_of T (trans_of T (trans_of T hqueued hpath) hpopped) (trans_of T hrest ?_)
    rcases when_eq_ok.mp hturn with ⟨_, hturn⟩ | ⟨_, rfl⟩
    · obtain rfl := modify_eq_ok.mp hturn
      exact hcore rfl
    · exact refl_of T _

theorem serveWrite_follows {again : Bool}
    (haccess : ∀ pkt rest r s₁, s.chooseNext s.writeQueue = pkt :: rest →
      doDRAMAccess pkt rest { s with writeQueue := pkt :: rest } = .ok (r, s₁) →
      T { s with writeQueue := pkt :: rest } s₁)
    (h : serveWrite s = .ok (again, s')) : T s s' := by
  simp only [serveWrite, bind_eq_ok, get_eq_ok] at h
  obtain ⟨_, _, ⟨rfl, rfl⟩, h⟩ := h
  cases hqueue : s.chooseNext s.writeQueue with
  | nil => simp only [hqueue, throw_ne_ok] at h
  | cons pkt rest =>
    simp only [hqueue, bind_eq_ok, modify_eq_ok, get_eq_ok, pure_eq_ok, DramM.check_eq_ok,
      discard_eq_ok] at h
    obtain ⟨_, _, rfl, _, _, ⟨_, rfl⟩, _, s₁, ⟨pkt', hserved⟩, _, _, rfl, _, _, ⟨rfl, rfl⟩, _,
      s₂, hturn, _, rfl⟩ := h
    have hqueued : T s { s with writeQueue := pkt :: rest } := hcore rfl
    have hpath := haccess pkt rest pkt' s₁ hqueue hserved
    have hpopped : T s₁ { s₁ with writeQueue := rest } := hcore rfl
    refine trans_of T (trans_of T (trans_of T hqueued hpath) hpopped) ?_
    rcases when_eq_ok.mp hturn with ⟨_, hturn⟩ | ⟨_, rfl⟩
    · obtain rfl := modify_eq_ok.mp hturn
      exact hcore rfl
    · exact refl_of T _

end Relations

/-- A request event is related as the access of the packet that it serves. -/
theorem processNextReqEvent_follows {T : Dram cfg → Dram cfg → Prop} [IsPreorder (Dram cfg) T]
    (hcore : ∀ {s s' : Dram cfg}, s.SameCore s' → T s s') (hidle : s.refreshState = .REF_IDLE)
    (haccess : ∀ pkt ∈ s.next, ∀ rest r s₀ s₁, s.SameCore s₀ →
      doDRAMAccess pkt rest s₀ = .ok (r, s₁) → T s₀ s₁)
    (h : processNextReqEvent (s.stopTimer .nextReq) = .ok ((), s')) : T s s' := by
  simp only [processNextReqEvent, bind_eq_ok, modify_eq_ok, get_eq_ok] at h
  obtain ⟨_, _, rfl, _, _, ⟨rfl, rfl⟩, h⟩ := h
  have hstop : s.SameCore (s.stopTimer .nextReq) := rfl
  have hturn : s.SameCore (s.stopTimer .nextReq).turnedAround :=
    trans_of _ hstop (turnedAround_core _)
  rw [(Dram.SameMachines.ofCore hturn).refreshState, hidle] at h
  have hagain (again : Bool) : Follows Dram.SameCore (when again requestAgain : DramM cfg Unit) :=
    .when fun _ => (requestAgain_plain .never).1
  unfold Dram.next at haccess
  rcases ite_eq_ok.mp h with ⟨hread, h⟩ | ⟨hwrite, h⟩
  · rw [if_pos hread] at haccess
    obtain ⟨again, s₁, hserve, h⟩ := bind_eq_ok.mp h
    refine trans_of T (hcore hturn) (trans_of T ?_ (hcore (hagain again _ _ _ h)))
    refine serveRead_follows hcore (fun pkt rest r s₁ hchoose => ?_) hserve
    exact haccess pkt (by rw [hchoose]; rfl) rest r _ s₁ (trans_of _ hturn rfl)
  · rw [if_neg hwrite] at haccess
    obtain ⟨again, s₁, hserve, h⟩ := bind_eq_ok.mp h
    refine trans_of T (hcore hturn) (trans_of T ?_ (hcore (hagain again _ _ _ h)))
    refine serveWrite_follows hcore (fun pkt rest r s₁ hchoose => ?_) hserve
    exact haccess pkt (by rw [hchoose]; rfl) rest r _ s₁ (trans_of _ hturn rfl)

theorem processNextReqEvent_idle (hidle : s.refreshState = .REF_IDLE)
    (hA : ∀ pkt ∈ s.next, s.Opens A pkt)
    (h : processNextReqEvent (s.stopTimer .nextReq) = .ok ((), s')) : BankSteps A s s' :=
  processNextReqEvent_follows keep_path hidle
    (fun pkt hpkt _ _ _ _ hsame haccess =>
      doDRAMAccess_path (opens_core hsame (hA pkt hpkt)) haccess) h

theorem processNextReqEvent_none (hidle : s.refreshState = .REF_IDLE) (hnext : s.next = none)
    (h : processNextReqEvent (s.stopTimer .nextReq) = .ok ((), s')) : s.SameCore s' := by
  simp only [processNextReqEvent, bind_eq_ok, modify_eq_ok, get_eq_ok] at h
  obtain ⟨_, s₁, hs₁, _, _, ⟨rfl, rfl⟩, h⟩ := h
  have hcore : s.SameCore s₁ := hs₁ ▸ turnedAround_core (s.stopTimer .nextReq)
  rw [(Dram.SameMachines.ofCore hcore).refreshState, hidle] at h
  have hagain (again : Bool) : Follows Dram.SameCore (when again requestAgain : DramM cfg Unit) :=
    .when fun _ => (requestAgain_plain .never).1
  unfold Dram.next at hnext
  simp only [hs₁] at hnext
  rcases ite_eq_ok.mp h with ⟨hread, h⟩ | ⟨hwrite, h⟩
  · rw [if_pos hread, List.head?_eq_none_iff] at hnext
    obtain ⟨again, s₂, hserve, h⟩ := bind_eq_ok.mp h
    exact trans_of _ hcore (trans_of _ (serveRead_core hnext hserve) (hagain again _ _ _ h))
  · rw [if_neg hwrite, List.head?_eq_none_iff] at hnext
    obtain ⟨again, s₂, hserve, h⟩ := bind_eq_ok.mp h
    simp [serveWrite, hnext] at hserve

/-- While a refresh waits for the request event, the event hands over to it. -/
theorem processNextReqEvent_drain (hdrain : s.refreshState = .REF_DRAIN)
    (h : processNextReqEvent (s.stopTimer .nextReq) = .ok ((), s')) :
    { s with refreshState := .REF_PRE, refreshEvent := some s.curTick }.SameCore s' := by
  simp only [processNextReqEvent, bind_eq_ok, modify_eq_ok, get_eq_ok] at h
  obtain ⟨_, s₁, hs₁, _, _, ⟨rfl, rfl⟩, h⟩ := h
  have hcore : s.SameCore s₁ := hs₁ ▸ turnedAround_core (s.stopTimer .nextReq)
  rw [(Dram.SameMachines.ofCore hcore).refreshState, hdrain] at h
  simp only [handOver, bind_eq_ok, get_eq_ok, lift_eq_ok, modify_eq_ok, DramM.schedule,
    except_ite_eq_ok] at h
  obtain ⟨_, _, ⟨rfl, rfl⟩, _, _, ⟨⟨_, heq⟩ | ⟨_, heq⟩, rfl⟩, rfl⟩ := h
  · cases heq
    show { s₁.core with refreshState := .REF_PRE, refreshEvent := some s₁.core.curTick } =
      { s.core with refreshState := .REF_PRE, refreshEvent := some s.core.curTick }
    rw [show s₁.core = s.core from hcore]
  · cases heq

theorem processNextReqEvent_refresh (hidle : s.refreshState ≠ .REF_IDLE)
    (hdrain : s.refreshState ≠ .REF_DRAIN)
    (h : processNextReqEvent (s.stopTimer .nextReq) = .ok ((), s')) : s.SameCore s' := by
  simp only [processNextReqEvent, bind_eq_ok, modify_eq_ok, get_eq_ok] at h
  obtain ⟨_, s₁, hs₁, _, _, ⟨rfl, rfl⟩, h⟩ := h
  have hcore : s.SameCore s₁ := hs₁ ▸ turnedAround_core (s.stopTimer .nextReq)
  rw [(Dram.SameMachines.ofCore hcore).refreshState] at h
  cases hstate : s.refreshState with
  | REF_IDLE => exact absurd hstate hidle
  | REF_DRAIN => exact absurd hstate hdrain
  | REF_PRE | REF_RUN =>
    rw [hstate] at h
    exact (pure_eq_ok.mp h).2 ▸ hcore

/-! ## The handlers that give no command -/

end BankLemmas

/-- The view shows nothing of the flags and the two events of the request loop. -/
structure Dram.Ignores {β : Type} (v : Dram cfg → β) : Prop where
  loop : ∀ (s : Dram cfg) retryRdReq retryWrReq draining nextReqEvent respondEvent, v { s with
    retryRdReq, retryWrReq, draining, nextReqEvent, respondEvent } = v s
  retry : ∀ s : Dram cfg, v (s.emit .retry) = v s

namespace Dram.Ignores

variable {β : Type} {v : Dram cfg → β} (h : Ignores v) (s : Dram cfg)

include h

theorem requestNow : v s.requestNow = v s := by
  unfold Dram.requestNow
  split
  · exact h.loop s _ _ _ _ _
  · rfl

theorem drainDone : v s.drainDone = v s := by
  unfold Dram.drainDone
  split
  · exact h.loop s _ _ _ _ _
  · rfl

theorem drain : v s.drain = v s := by
  unfold Dram.drain
  split
  · rfl
  · dsimp only
    split
    · exact h.loop s _ _ _ _ _
    · exact (h.requestNow _).trans (h.loop s _ _ _ _ _)

end Dram.Ignores

namespace BankLemmas

variable {s : Dram cfg} {bad : DramAbort → Prop}

theorem arrived_core (s : Dram cfg) (pkt : Packet) : s.SameCore (s.arrived pkt) := by
  unfold Dram.arrived
  split <;> rfl

theorem accessAndRespond_core (s : Dram cfg) (pkt : Packet) (latency : Tick) :
    s.SameCore (s.accessAndRespond pkt latency) := by
  unfold Dram.accessAndRespond
  split <;> rfl

theorem core_ignores : Dram.Ignores (@Dram.core cfg) := ⟨fun _ _ _ _ _ _ => rfl, fun _ => rfl⟩

theorem addReadBursts_plain (hq : NotOfQueues bad) (pkt : Packet) (pktCount : Nat) :
    ∀ (cnt : Nat) (addr : Addr) (serviced : Nat) (helper : Option Nat), Plain bad
        (addReadBursts pkt pktCount cnt addr serviced helper : DramM cfg (Nat × Option Nat))
  | 0, _, _, _ => .pure
  | cnt + 1, addr, serviced, helper => by
      refine .bind (.modify fun _ => rfl) fun _ => .bind (check_plain hq.assertion) fun _ => ?_
      refine .bind .get fun s => .ite ?_ ?_
      · exact .bind (.modify fun _ => rfl) fun _ => addReadBursts_plain hq pkt pktCount cnt _ _ _
      · refine .bind (.when (.modify fun _ => rfl)) fun _ => ?_
        refine .bind (.lift (decodeAddr_avoids hq)) fun _ => ?_
        refine .bind (check_plain hq.assertion) fun _ => .bind (.modify fun _ => rfl) fun _ => ?_
        exact .bind (.modify fun _ => rfl) fun _ => addReadBursts_plain hq pkt pktCount cnt _ _ _

theorem addToReadQueue_plain (hq : NotOfQueues bad) (pkt : Packet) (pktCount : Nat) :
    Plain bad (addToReadQueue pkt pktCount : DramM cfg Unit) := by
  refine .bind (check_plain hq.assertion) fun _ => .bind (check_plain hq.assertion) fun _ => ?_
  refine .bind (addReadBursts_plain hq pkt pktCount _ _ _ _) fun _ => .ite ?_ ?_
  · exact .modify fun s => accessAndRespond_core s pkt _
  · exact .bind (.modify fun _ => rfl) fun _ => .modify core_ignores.requestNow

theorem addWriteBursts_plain (hq : NotOfQueues bad) (pkt : Packet) :
    ∀ (cnt : Nat) (addr : Addr), Plain bad (addWriteBursts pkt cnt addr : DramM cfg Unit)
  | 0, _ => .pure
  | cnt + 1, addr => by
      refine .bind (.modify fun _ => rfl) fun _ => .bind (check_plain hq.assertion) fun _ => ?_
      refine .bind .get fun s => ?_
      cases mergeWrite cfg addr (burstLen cfg pkt addr) s.writeQueue with
      | some queue =>
        refine .bind (.modify fun _ => rfl) fun _ => ?_
        exact .bind (.modify fun _ => rfl) fun _ => addWriteBursts_plain hq pkt cnt _
      | none =>
        refine .bind (.lift (decodeAddr_avoids hq)) fun _ => ?_
        refine .bind (check_plain hq.assertion) fun _ => .bind (.modify fun _ => rfl) fun _ => ?_
        exact .bind (.modify fun _ => rfl) fun _ => addWriteBursts_plain hq pkt cnt _

theorem addToWriteQueue_plain (hq : NotOfQueues bad) (pkt : Packet) (pktCount : Nat) :
    Plain bad (addToWriteQueue pkt pktCount : DramM cfg Unit) := by
  refine .bind (check_plain hq.assertion) fun _ =>
    .bind (addWriteBursts_plain hq pkt _ _) fun _ => ?_
  exact .bind (.modify fun s => accessAndRespond_core s pkt _) fun _ =>
    .modify core_ignores.requestNow

theorem recvTimingReq_plain (hq : NotOfQueues bad) (pkt : Packet) :
    Plain bad (recvTimingReq pkt : DramM cfg Bool) := by
  have hrefuse {f g : Dram cfg → Dram cfg} (hf : ∀ s : Dram cfg, s.SameCore (f s))
      (hg : ∀ s : Dram cfg, s.SameCore (g s)) {r : Bool} :
      Plain bad (do modify f; modify g; return r) :=
    .bind (.modify hf) fun _ => .bind (.modify hg) fun _ => .pure
  have haccept {m : DramM cfg Unit} (hm : Plain bad m) {f : Dram cfg → Dram cfg}
      (hf : ∀ s : Dram cfg, s.SameCore (f s)) :
      Plain bad (do m; modify f; DramM.perLDom pkt.qosTag; return true) :=
    .bind hm fun _ => .bind (.modify hf) fun _ => .bind (check_plain hq.assertion) fun _ => .pure
  refine .ite .pure (.bind (.modify fun s => arrived_core s pkt) fun _ => ?_)
  refine .bind .get fun s => .ite ?_ ?_
  · refine .bind (check_plain hq.assertion) fun _ => .ite ?_ ?_
    · refine hrefuse ?_ ?_ <;> exact fun _ => rfl
    · exact haccept (addToReadQueue_plain hq pkt _) fun _ => rfl
  · refine .ite (.bind (check_plain hq.assertion) fun _ => .ite ?_ ?_) ?_
    · refine hrefuse ?_ ?_ <;> exact fun _ => rfl
    · exact haccept (addToWriteQueue_plain hq pkt _) fun _ => rfl
    · refine hrefuse ?_ fun s => accessAndRespond_core s pkt _
      exact fun _ => rfl

theorem burstServiced_plain (hq : NotOfQueues bad) (pkt : DRAMPacket cfg) :
    Plain bad (burstServiced pkt) := by
  refine .bind .get fun s => ?_
  cases pkt.burstHelper with
  | none => exact .pure
  | some i =>
    dsimp only
    cases s.helpers[i]? with
    | none => exact .throw hq.outOfBounds
    | some helper => exact .bind (.modify fun _ => rfl) fun _ => .pure

theorem scheduleResponse_plain (hq : NotOfQueues bad) :
    Plain bad (scheduleResponse : DramM cfg Unit) := by
  refine .bind .get fun s => ?_
  cases s.respQueue with
  | nil => exact .modify core_ignores.drainDone
  | cons next _ =>
    exact .bind (.lift (schedule_avoids hq.assertion)) fun _ => .modify fun _ => rfl

theorem processRespondEvent_plain (hq : NotOfQueues bad) :
    Plain bad (processRespondEvent : DramM cfg Unit) := by
  refine .bind .get fun s => ?_
  cases s.respQueue with
  | nil => exact .throw hq.outOfBounds
  | cons pkt rest =>
    refine .bind (burstServiced_plain hq pkt) fun _ => .bind (.when ?_) fun _ => ?_
    · exact .modify fun s => accessAndRespond_core s _ _
    · refine .bind (.modify fun _ => rfl) fun _ => .bind (scheduleResponse_plain hq) fun _ => ?_
      exact .when (.modify fun _ => rfl)

end BankLemmas

end PardG5V
