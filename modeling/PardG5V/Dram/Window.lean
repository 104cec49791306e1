import PardG5V.Lib.Pace
import PardG5V.Dram.RefreshSafety

/-!
# The activation window

A rank keeps its activates apart: two by tRRD, and X + 1 by tXAW. Both are enforced by the times
from which on its banks allow an activate, and a refresh overwrites these times. It can lower them
if an activate is less than tRAS + tRP + tRFC old when the refresh ends, so both limits have to be
shorter than that, and all precharges over when the refresh starts.

Results: `activation_window`, `activates_close_after_refresh`.
-/

namespace PardG5V

open Prog Relation BankLemmas MachineLemmas DramAbortLemmas

variable {cfg : DramConfig}

/-! ## Activates of a rank -/

/-- The tick of an activate in the rank. -/
def DramEvent.activatesIn (rank : Fin cfg.ranksPerChannel) : DramEvent cfg → Option Tick
  | .activate buf _ tick => if buf.bank.rank = rank then some tick else none
  | _ => none

def DramConfig.pace (cfg : DramConfig) : Pace := ⟨cfg.tRRD, cfg.tXAW, cfg.activationLimit⟩

namespace Dram

def activates (s : Dram cfg) (rank : Fin cfg.ranksPerChannel) : List Tick :=
  s.commands.filterMap (DramEvent.activatesIn rank)

/-- The power event that starts a refresh finds no precharge event pending. -/
def QuietRefresh (s : Dram cfg) (input : DramInput) : Prop :=
  input.runs .power = true → s.refreshState = .REF_RUN → s.pwrState ≠ .PWR_REF →
    s.pwrStateTrans ≠ .PWR_ACT → s.prechargeEvent = none

/-- The limits are kept, and every bank of a rank holds its next activate back as they
demand. The window of a rank is what it has to remember for that. -/
structure Windowed (s : Dram cfg) : Prop where
  covered : ∀ buf tick, .precharge buf tick ∈ s.commands → s.Covers (tick + cfg.tRP)
  window : ∀ rank, s.actTicks rank = recent cfg.activationLimit (s.activates rank)
  keeps : ∀ rank, cfg.pace.Keeps (s.activates rank)
  allows : ∀ id, cfg.pace.Allows (s.activates id.rank) (s.banks id).actAllowedAt

end Dram

namespace WindowLemmas

variable {s s' : Dram cfg} {buf : RowBuf cfg} {row : Row} {tick : Tick}
  {rank : Fin cfg.ranksPerChannel} {id : BankId cfg}

theorem activated_activates (s : Dram cfg) (buf : RowBuf cfg) (row : Row) (tick : Tick)
    (rank : Fin cfg.ranksPerChannel) : (s.activated buf row tick).activates rank =
      if buf.bank.rank = rank then tick :: s.activates rank else s.activates rank := by
  unfold Dram.activates
  rw [activated_commands]
  have hnew : (DramEvent.activate buf row tick).activatesIn rank =
      if buf.bank.rank = rank then some tick else none := rfl
  by_cases hrank : buf.bank.rank = rank
  · rw [if_pos hrank] at hnew ⊢
    exact List.filterMap_cons_some hnew
  · rw [if_neg hrank] at hnew ⊢
    exact List.filterMap_cons_none hnew

theorem activated_actTicks (hwindow : s.actTicks buf.bank.rank ≠ []) :
    (s.activated buf row tick).actTicks rank = if rank = buf.bank.rank
      then tick :: (s.actTicks buf.bank.rank).dropLast else s.actTicks rank := by
  have hempty : (s.actTicks buf.bank.rank).isEmpty = false := by simpa using hwindow
  unfold Dram.activated Dram.noteWindow
  rw [hempty, if_neg Bool.false_ne_true]
  dsimp only
  split <;> rfl

/-- A full window holds the next activate of its rank back. -/
theorem activated_hold (hwindow : s.actTicks buf.bank.rank ≠ []) (hid : id.rank = buf.bank.rank)
    {oldest : Tick} (hlast : (tick :: (s.actTicks buf.bank.rank).dropLast).getLast? = some oldest)
    (hne : oldest ≠ 0) (hle : oldest ≤ tick) (hlt : tick - oldest < cfg.tXAW) :
    oldest + cfg.tXAW ≤ ((s.activated buf row tick).banks id).actAllowedAt := by
  have hempty : (s.actTicks buf.bank.rank).isEmpty = false := by simpa using hwindow
  have hfull : Dram.windowFull cfg (tick :: (s.actTicks buf.bank.rank).dropLast) tick = true := by
    unfold Dram.windowFull
    rw [hlast]
    simp [hne, hle, hlt]
  unfold Dram.activated Dram.noteWindow
  rw [hempty, if_neg Bool.false_ne_true]
  rw [show (s.opened buf row tick).actTicks buf.bank.rank = s.actTicks buf.bank.rank from rfl,
    if_pos hfull, hlast]
  obtain ⟨t, hbank, -, hrank⟩ := banks_holdRank { s.opened buf row tick with
    actTicks := fun r => if r = buf.bank.rank
      then tick :: (s.actTicks buf.bank.rank).dropLast else (s.opened buf row tick).actTicks r }
    buf.bank.rank (oldest + cfg.tXAW) id
  refine Nat.le_trans (hrank hid) (Nat.le_of_eq ?_)
  exact (congrArg Bank.actAllowedAt hbank).symm

end WindowLemmas

open WindowLemmas

/-! ## Commands -/

variable {A : ActivateRule cfg}

namespace Dram.Windowed

variable {s s' : Dram cfg} {buf : RowBuf cfg} {row : Row} {tick : Tick}

theorem same (h : s.Windowed) (hcovers : ∀ t, s.Covers t → s'.Covers t)
    (hticks : s'.actTicks = s.actTicks)
    (hact : ∀ id, (s.banks id).actAllowedAt ≤ (s'.banks id).actAllowedAt)
    (hpre : ∀ buf tick, .precharge buf tick ∈ s'.commands → .precharge buf tick ∈ s.commands)
    (hactivates : ∀ rank, s'.activates rank = s.activates rank) : s'.Windowed := by
  refine ⟨fun buf tick hmem => ?_, fun rank => ?_, fun rank => ?_, fun id => ?_⟩
  · exact hcovers _ (h.covered buf tick (hpre buf tick hmem))
  · rw [hticks, hactivates]
    exact h.window rank
  · rw [hactivates]
    exact h.keeps rank
  · rw [hactivates]
    exact (h.allows id).mono (hact id)

theorem core (h : s.Windowed) (hcore : s.SameCore s') : s'.Windowed := by
  have hcommands : s'.commands = s.commands := congrArg DramCore.commands hcore
  refine h.same (fun _ ht => ht.core hcore) (congrArg DramCore.actTicks hcore) (fun id => ?_)
    (fun _ _ hmem => hcommands ▸ hmem) fun rank => ?_
  · rw [show s'.banks = s.banks from congrArg DramCore.banks hcore]
  · unfold activates
    rw [hcommands]

/-- An activate at the time that its bank allows keeps the limits, and the banks of its rank
hold the next one back. -/
theorem activated (hlimit : cfg.activationLimit ≠ 0) (h : s.Windowed)
    (htick : (s.banks buf.bank).actAllowedAt ≤ tick) : (s.activated buf row tick).Windowed := by
  have hwindow : s.actTicks buf.bank.rank ≠ [] := by
    intro hnil
    have hlen : (s.actTicks buf.bank.rank).length = cfg.activationLimit := by
      rw [h.window, length_recent]
    rw [hnil] at hlen
    exact hlimit hlen.symm
  have hallows : cfg.pace.Allows (s.activates buf.bank.rank) tick :=
    (h.allows buf.bank).mono htick
  have hnew : tick :: (s.actTicks buf.bank.rank).dropLast =
      recent cfg.activationLimit (tick :: s.activates buf.bank.rank) := by
    rw [recent_cons hlimit, h.window]
  refine ⟨fun buf' tick' hmem => ?_, fun rank => ?_, fun rank => ?_, fun id => ?_⟩
  · rw [activated_commands] at hmem
    rcases List.mem_cons.mp hmem with heq | hmem
    · cases heq
    · exact (h.covered buf' tick' hmem).activated
  · rw [activated_actTicks hwindow, activated_activates]
    by_cases hrank : buf.bank.rank = rank
    · subst hrank
      rw [if_pos rfl, if_pos rfl, hnew]
    · rw [if_neg hrank, if_neg (Ne.symm hrank)]
      exact h.window rank
  · rw [activated_activates]
    by_cases hrank : buf.bank.rank = rank
    · subst hrank
      rw [if_pos rfl]
      exact (h.keeps _).cons hlimit hallows
    · rw [if_neg hrank]
      exact h.keeps rank
  · obtain ⟨t, hbank, hle, hrrd⟩ := banks_activated s buf row tick id
    have hact : ((s.activated buf row tick).banks id).actAllowedAt = t :=
      congrArg Bank.actAllowedAt hbank
    rw [activated_activates]
    by_cases hrank : buf.bank.rank = id.rank
    · rw [if_pos hrank]
      rw [hrank] at hallows
      refine hallows.cons (hact ▸ hrrd hrank.symm) fun e he hne hle hlt => ?_
      refine activated_hold hwindow hrank.symm ?_ hne hle hlt
      rw [hnew, getLast?_recent hlimit, hrank]
      exact congrArg (fun o => some (o.getD 0)) he
    · rw [if_neg hrank]
      exact (h.allows id).mono (hact ▸ hle)

theorem precharged (h : s.Windowed) : (s.precharged buf tick).Windowed := by
  refine ⟨fun buf' tick' hmem => ?_, h.window, h.keeps, fun id => ?_⟩
  · rcases List.mem_cons.mp hmem with heq | hmem
    · cases heq
      exact covers_precharged s buf tick
    · exact (h.covered buf' tick' hmem).precharged
  · refine (h.allows id).mono ?_
    rw [banks_precharged]
    split
    · next hid =>
        subst hid
        exact Nat.le_max_left _ _
    · exact Nat.le_refl _

theorem step (hlimit : cfg.activationLimit ≠ 0) (hstep : BankStep A s s') (h : s.Windowed) :
    s'.Windowed := by
  cases hstep with
  | keep hcore => exact h.core hcore
  | activate _ _ _ htick => exact h.activated hlimit (htick ▸ Nat.le_max_left _ _)
  | precharge => exact h.precharged
  | @access pkt cmdAt readyTime =>
    have hcommands := accessed_commands s pkt cmdAt readyTime
    refine h.same (fun _ ht => ht) rfl (fun id => ?_) (fun buf tick hmem => ?_) fun rank => ?_
    · show _ ≤ ((s.setBank pkt.bankId _).banks id).actAllowedAt
      rw [banks_setBank]
      split
      · next hid =>
          subst hid
          exact Nat.le_refl _
      · exact Nat.le_refl _
    · rw [hcommands] at hmem
      refine (List.mem_cons.mp hmem).resolve_left ?_
      cases pkt.isRead <;> exact fun heq => nomatch heq
    · unfold activates
      rw [hcommands]
      cases pkt.isRead <;> rfl
  | @defer id bank hdefer =>
    refine h.same (fun _ ht => ht) rfl (fun id' => ?_) (fun _ _ hmem => hmem) fun _ => rfl
    rw [banks_setBank]
    split
    · next hid => exact hid ▸ hdefer.act
    · exact Nat.le_refl _

theorem steps (hlimit : cfg.activationLimit ≠ 0) (hpath : BankSteps A s s') (h : s.Windowed) :
    s'.Windowed := by
  induction hpath with
  | refl => exact h
  | tail _ hstep ih => exact ih.step hlimit hstep

end Dram.Windowed

/-! ## Closed rows -/

/-- Every activate in the log is that of an open row, or a precharge came tRAS after it. -/
def ActivatesClosed (log : List (DramEvent cfg)) : Prop :=
  ∀ buf row tick, .activate buf row tick ∈ log →
    openedAt buf log = some tick ∨ ∃ p, .precharge buf p ∈ log ∧ tick + cfg.tRAS ≤ p

namespace WindowLemmas

variable {s s' : Dram cfg}

theorem activatesClosed_step
    (hs : s.Clocked) (h : ActivatesClosed s.commands) (hstep : BankStep A s s') :
    ActivatesClosed s'.commands := by
  cases hstep with
  | keep hcore => rwa [show s'.commands = s.commands from congrArg DramCore.commands hcore]
  | @activate buf row tick _ hclosed =>
    intro buf' row' tick' hmem
    rw [Dram.openedAt_activated]
    rw [activated_commands] at hmem ⊢
    rcases List.mem_cons.mp hmem with heq | hmem
    · cases heq
      exact .inl (if_pos rfl)
    · by_cases hbuf : buf = buf'
      · -- the row buffer was closed, so the old activate was followed by a precharge
        subst hbuf
        rcases h buf row' tick' hmem with hopen | ⟨p, hp, hle⟩
        · cases (hs.openedAt_eq_none hclosed).symm.trans hopen
        · exact .inr ⟨p, List.mem_cons_of_mem _ hp, hle⟩
      · rw [if_neg hbuf]
        exact (h buf' row' tick' hmem).imp_right fun ⟨p, hp, hle⟩ =>
          ⟨p, List.mem_cons_of_mem _ hp, hle⟩
  | @precharge buf tick _ hpre =>
    intro buf' row' tick' hmem
    have hmem : .activate buf' row' tick' ∈ s.commands :=
      (List.mem_cons.mp hmem).resolve_left fun heq => nomatch heq
    rw [Dram.openedAt_precharged]
    rcases h buf' row' tick' hmem with hopen | ⟨p, hp, hle⟩
    · by_cases hbuf : buf = buf'
      · subst hbuf
        have hras := hs.pre buf tick' hopen
        exact .inr ⟨tick, List.mem_cons_self, Nat.le_trans hras hpre⟩
      · exact .inl ((if_neg hbuf).trans hopen)
    · exact .inr ⟨p, List.mem_cons_of_mem _ hp, hle⟩
  | @access pkt cmdAt readyTime =>
    intro buf row tick hmem
    rw [Dram.openedAt_accessed]
    rw [accessed_commands] at hmem ⊢
    have hmem : .activate buf row tick ∈ s.commands := by
      refine (List.mem_cons.mp hmem).resolve_left ?_
      cases pkt.isRead <;> exact fun heq => nomatch heq
    exact (h buf row tick hmem).imp_right fun ⟨p, hp, hle⟩ =>
      ⟨p, List.mem_cons_of_mem _ hp, hle⟩
  | defer => exact h

theorem activatesClosed_cons {e : DramEvent cfg} {log : List (DramEvent cfg)}
    (h : ActivatesClosed log) (hopened : ∀ buf, openedAt buf (e :: log) = openedAt buf log)
    (he : ∀ buf row tick, e ≠ .activate buf row tick) : ActivatesClosed (e :: log) := by
  intro buf row tick hmem
  rw [hopened]
  have hmem : .activate buf row tick ∈ log :=
    (List.mem_cons.mp hmem).resolve_left fun heq => he buf row tick heq.symm
  exact (h buf row tick hmem).imp_right fun ⟨p, hp, hle⟩ => ⟨p, List.mem_cons_of_mem _ hp, hle⟩

theorem mem_activates {rank : Fin cfg.ranksPerChannel} {tick : Tick}
    (h : tick ∈ s.activates rank) : ∃ buf row, .activate buf row tick ∈ s.commands := by
  obtain ⟨e, he, htick⟩ := List.mem_filterMap.mp h
  cases e with
  | activate buf row t =>
    refine ⟨buf, row, ?_⟩
    simp only [DramEvent.activatesIn, Option.ite_none_right_eq_some, Option.some.injEq] at htick
    exact htick.2 ▸ he
  | read | write | precharge | refreshStart | refreshEnd | respond | retry => cases htick

end WindowLemmas

namespace Dram

variable {s s' : Dram cfg} {input : DramInput}

theorem Reachable.activates_closed {P : Dram cfg → DramInput → Prop} (h : s.Reachable P) :
    ActivatesClosed s.commands :=
  h.commands_induct (fun _ _ _ hmem => nomatch hmem)
    (fun _ _ hs hlog hstep => activatesClosed_step hs hlog hstep)
    fun _ _ hpast => ⟨activatesClosed_cons hpast (fun _ => rfl) nofun,
      activatesClosed_cons hpast (fun _ => rfl) nofun⟩

/-! ## Inputs -/

/-- A refresh that starts quietly finds every activate at least tRAS + tRP old. -/
theorem Windowed.rested (h : s.Windowed) (hlog : ActivatesClosed s.commands)
    (hclosed : ∀ buf, openedAt buf s.commands = none) (hpre : s.prechargeEvent = none)
    {rank : Fin cfg.ranksPerChannel} {tick : Tick} (hmem : tick ∈ s.activates rank) :
    tick + (cfg.tRAS + cfg.tRP) ≤ s.curTick := by
  obtain ⟨buf, row, hmem⟩ := mem_activates hmem
  rcases hlog buf row tick hmem with hopen | ⟨p, hp, hle⟩
  · cases (hclosed buf).symm.trans hopen
  · calc tick + (cfg.tRAS + cfg.tRP) = tick + cfg.tRAS + cfg.tRP := (Nat.add_assoc _ _ _).symm
      _ ≤ p + cfg.tRP := Nat.add_le_add_right hle _
      _ ≤ s.curTick := (h.covered buf p hp).past hpre

/-- With limits shorter than tRAS + tRP + tRFC a refresh that starts quietly allows no
activate too early. -/
theorem Windowed.refreshing (hrrd : cfg.tRRD ≤ cfg.tRAS + cfg.tRP + cfg.tRFC)
    (hxaw : cfg.tXAW ≤ cfg.tRAS + cfg.tRP + cfg.tRFC) (h : s.Windowed)
    (hrested : ∀ rank, ∀ tick ∈ s.activates rank, tick + (cfg.tRAS + cfg.tRP) ≤ s.curTick) :
    s.refreshing.Windowed := by
  refine ⟨fun buf tick hmem => ?_, h.window, h.keeps, fun id => ?_⟩
  · exact h.covered buf tick ((List.mem_cons.mp hmem).resolve_left fun heq => nomatch heq)
  · refine .of_pause hrrd hxaw fun tick hmem => ?_
    calc tick + (cfg.tRAS + cfg.tRP + cfg.tRFC)
        = tick + (cfg.tRAS + cfg.tRP) + cfg.tRFC := (Nat.add_assoc _ _ _).symm
      _ ≤ s.curTick + cfg.tRFC := Nat.add_le_add_right (hrested id.rank tick hmem) _

theorem Windowed.coreStep
    (hlimit : cfg.activationLimit ≠ 0) (hrrd : cfg.tRRD ≤ cfg.tRAS + cfg.tRP + cfg.tRFC)
    (hxaw : cfg.tXAW ≤ cfg.tRAS + cfg.tRP + cfg.tRFC) (hcounted : s.Counted)
    (hclocked : s.Clocked) (hphase : s.RefreshPhase) (hlog : ActivatesClosed s.commands)
    (hquiet : s.QuietRefresh input) (hen : s.Enabled input) (h : s.Windowed)
    (hstep : CoreStep A s input s') : s'.Windowed := by
  have hkeep {s₁ : Dram cfg} (hticks : s₁.actTicks = s.actTicks) (hbanks : s₁.banks = s.banks)
      (hcommands : s₁.commands = s.commands) (hcovers : ∀ t, s.Covers t → s₁.Covers t) :
      s₁.Windowed := by
    refine h.same hcovers hticks (fun id => by rw [hbanks]) (fun _ _ hmem => hcommands ▸ hmem) ?_
    intro rank
    unfold activates
    rw [hcommands]
  cases hstep with
  | commands _ _ hpath => exact h.steps hlimit hpath
  | other hcore => exact h.core hcore
  | handOver _ hcore =>
    have hpre : { s with refreshState := .REF_PRE, refreshEvent := some s.curTick }.Windowed :=
      hkeep rfl rfl rfl fun _ ht => ht
    exact hpre.core hcore
  | advance hle => exact hkeep rfl rfl rfl fun _ ht => ht.imp_left fun ht => Nat.le_trans ht hle
  | activateEvent | wake | refreshDue | refreshIdle | toActive | toIdle =>
    exact hkeep rfl rfl rfl fun _ ht => ht
  | prechargeEvent | sleep => exact hkeep rfl rfl rfl fun _ ht => ht.run hen rfl
  | @prechargeAll due s₁ _ _ _ hpath =>
    have hdue : { s with
        refreshEvent := none, refreshState := .REF_PRE, refreshDueAt := due }.Windowed :=
      hkeep rfl rfl rfl fun _ ht => ht
    exact (hdue.steps hlimit hpath).same (fun _ ht => ht) rfl (fun _ => Nat.le_refl _)
      (fun _ _ hmem => hmem) fun _ => rfl
  | refreshAgain _ hpwr hcan => exact absurd hcan.powerEvent (hphase.powerEvent_ne_none hpwr).2
  | refreshEnd =>
    refine h.same (fun _ ht => ht) rfl (fun _ => Nat.le_refl _) (fun _ _ hmem => ?_) fun _ => rfl
    exact (List.mem_cons.mp hmem).resolve_left fun heq => nomatch heq
  | refreshStart hrun htrans hcan =>
    have hpwr : s.pwrState ≠ .PWR_REF := fun hpwr => by
      cases hphase with
      | idle _ _ _ hun | drain _ _ hun | pre _ _ hun => exact hun.state hpwr
      | closing _ _ hact => cases hact.symm.trans hpwr
      | soon _ _ hidle => cases hidle.symm.trans hpwr
      | run _ _ _ _ hnext =>
        rcases htrans with htrans | ⟨_, hact⟩
        · cases hnext.symm.trans htrans
        · cases hact.symm.trans hpwr
    have hact : s.pwrStateTrans ≠ .PWR_ACT := fun hact => by
      rcases htrans with htrans | ⟨htrans, _⟩
      · cases hact.symm.trans htrans
      · cases hact.symm.trans htrans
    have hpre : s.prechargeEvent = none := hquiet rfl hrun hpwr hact
    have hclosed : ∀ buf, openedAt buf s.commands = none :=
      (closed_iff_openedAt hcounted hclocked).mp hcan.closed
    have hstart : { s with powerEvent := none, pwrState := .PWR_REF }.Windowed :=
      hkeep rfl rfl rfl fun _ ht => ht
    exact hstart.refreshing hrrd hxaw fun rank tick hmem => h.rested hlog hclosed hpre hmem

theorem Windowed.startup (now : Tick) : (Dram.startup cfg now).Windowed :=
  ⟨fun _ _ hmem => (nomatch hmem), fun _ => recent_nil.symm, fun _ => .nil, fun _ => .nil⟩

theorem Reachable.windowed (hlimit : cfg.activationLimit ≠ 0)
    (hrrd : cfg.tRRD ≤ cfg.tRAS + cfg.tRP + cfg.tRFC)
    (hxaw : cfg.tXAW ≤ cfg.tRAS + cfg.tRP + cfg.tRFC) (h : s.Reachable QuietRefresh) :
    s.Windowed := by
  refine h.induct (fun now => ?_) fun s input s' hs ih hen hquiet hcall => ?_
  · exact .startup now
  · have hcore : CoreStep (fun _ _ _ => True) s input s' :=
      call_coreStep (fun _ _ _ _ _ => trivial) hen hcall
    exact ih.coreStep hlimit hrrd hxaw hs.counted hs.clocked hs.refreshPhase hs.activates_closed
      hquiet hen hcore

end Dram

/-! ## The panic -/

namespace WindowLemmas

variable {s : Dram cfg} {buf : RowBuf cfg} {row : Row} {tick : Tick} {pkt : DRAMPacket cfg}

/-- The panic of the window, and no other abort. -/
def WindowError (e : DramAbort) : Prop := e = .windowPanic

theorem windowError_notOfQueues : NotOfQueues WindowError := ⟨nofun, nofun, nofun⟩

theorem windowError_notOfMachines : NotOfMachines WindowError := ⟨nofun, nofun⟩

theorem windowFull_eq_false (hlimit : cfg.activationLimit ≠ 0) (h : s.Windowed)
    (htick : (s.banks buf.bank).actAllowedAt ≤ tick) :
    Dram.windowFull cfg (s.actTicks buf.bank.rank) tick = false := by
  unfold Dram.windowFull
  rw [h.window, getLast?_recent hlimit]
  cases holdest : (s.activates buf.bank.rank)[cfg.activationLimit - 1]? with
  | none => rfl
  | some oldest =>
    refine Bool.and_eq_false_imp.mpr fun hne => decide_eq_false fun hfull => ?_
    have hspan : oldest + cfg.tXAW ≤ tick :=
      ((h.allows buf.bank).mono htick).span oldest holdest (bne_iff_ne.mp hne)
    exact Nat.not_le_of_lt hfull.2 (Nat.le_sub_of_add_le' hspan)

theorem activateBank_avoids_window (hlimit : cfg.activationLimit ≠ 0) (h : s.Windowed)
    (htick : (s.banks buf.bank).actAllowedAt ≤ tick) :
    Avoids WindowError (activateBank tick buf row s) := by
  refine .get_bind (check_bind nofun fun _ => check_bind nofun fun _ => ?_)
  refine check_bind nofun fun _ => .modify_bind (.get_bind (check_bind nofun fun _ => ?_))
  refine .whenever fun _ => check_bind (fun _ => ?_) fun _ => .ok
  rw [windowFull_eq_false hlimit h htick]
  rfl

theorem openRowFor_avoids_window (hlimit : cfg.activationLimit ≠ 0) (h : s.Windowed) :
    Avoids WindowError (openRowFor pkt s) := by
  refine .get_bind (.run_bind (.whenever fun _ => prechargeBank_safe nofun _) ?_)
  intro _ s₁ hpre
  have hs₁ : s₁.Windowed := by
    rcases when_eq_ok.mp hpre with ⟨_, hpre⟩ | ⟨_, rfl⟩
    · obtain ⟨-, rfl⟩ := prechargeBank_eq_ok hpre
      exact h.precharged
    · exact h
  exact .get_bind (activateBank_avoids_window hlimit hs₁ (Nat.le_max_left _ _))

theorem doDRAMAccess_avoids_window {others : List (DRAMPacket cfg)}
    (hlimit : cfg.activationLimit ≠ 0) (h : s.Windowed) :
    Avoids WindowError (doDRAMAccess pkt others s) := by
  have hcolumn (rowHit : Bool) (cmdAt : Tick) : Safe WindowError (do
      let times ← columnAccess pkt others cmdAt
      countAccess pkt rowHit times.1 times.2
      return { pkt with readyTime := times.2 } : DramM cfg (DRAMPacket cfg)) :=
    .bind (columnAccess_safe windowError_notOfQueues (by rintro ⟨⟩)) fun _ =>
      .bind (countAccess_plain windowError_notOfQueues).2 fun _ => .pure
  refine .get_bind (.run_ite (fun _ => hcolumn true _ s) fun _ => ?_)
  exact .run_bind (openRowFor_avoids_window hlimit h) fun _ s₁ _ => .get_bind (hcolumn false _ s₁)

end WindowLemmas

/-- With limits of at most tRAS + tRP + tRFC and refreshes that start quietly, the activates
of every rank are tRRD apart, X + 1 of them take tXAW, and no input panics. -/
theorem activation_window {s : Dram cfg} (hlimit : cfg.activationLimit ≠ 0)
    (hxaw : cfg.tXAW ≤ cfg.tRAS + cfg.tRP + cfg.tRFC)
    (hrrd : cfg.tRRD ≤ cfg.tRAS + cfg.tRP + cfg.tRFC) (h : s.Reachable Dram.QuietRefresh) :
    (∀ rank, (s.activates rank).Pairwise fun later earlier => earlier + cfg.tRRD ≤ later) ∧
    (∀ rank i later earlier, (s.activates rank)[i]? = some later →
      (s.activates rank)[i + cfg.activationLimit]? = some earlier → earlier ≠ 0 →
      earlier + cfg.tXAW ≤ later) ∧
    ∀ input, DramM.call input s ≠ .error .windowPanic := by
  have hs : s.Windowed := h.windowed hlimit hrrd hxaw
  refine ⟨fun rank => (hs.keeps rank).apart, fun rank => (hs.keeps rank).spread, ?_⟩
  intro input herror
  refine call_avoids_commands windowError_notOfQueues windowError_notOfMachines nofun
    (fun _ _ pkt _ rest s₀ hcore => ?_) (fun s₀ _ _ => ?_) .windowPanic herror rfl
  · exact doDRAMAccess_avoids_window hlimit (hs.core hcore)
  · exact Safe.forEach (fun _ => refreshPrecharge_safe nofun) _ s₀

/-! ## Runs -/

/-- In runs that are safe for the power state machine every refresh starts quietly. -/
theorem Dram.Reachable.quietRefresh (hlimit : cfg.activationLimit ≠ 0)
    (htime : 0 < cfg.tRAS + cfg.tRP) {s : Dram cfg} (h : s.Reachable Dram.PowerSafe) :
    s.Reachable Dram.QuietRefresh := by
  refine h.induct (fun now => ?_) fun s input s' hs ih hen hsafe hcall => ?_
  · exact .startup ⟨now, rfl⟩
  · refine ih.step hen (fun hpower _ _ hnext => ?_) hcall
    obtain rfl : input = .event .power := by
      cases input with
      | event t => rw [eq_of_beq hpower]
      | timingReq | drain | set | advance => cases hpower
    exact ((hs.power hlimit htime).quiet_of_next hen hnext).pre

/-- Two reads of different rows, one before and one after a refresh. -/
def readsAroundRefresh : List DramInput :=
  [.advance 92, .timingReq (rowsReq .ReadReq 1 1), .event .nextReq, .event .activate,
    .event .power, .event .nextReq, .advance 97, .event .respond, .advance 99, .event .refresh,
    .advance 101, .event .precharge, .event .power, .advance 106, .event .power,
    .timingReq (rowsReq .ReadReq 2 1), .event .nextReq]

theorem activation_window_refresh :
    ∃ s : Dram .oneBank, s.Reachable Dram.QuietRefresh ∧ s.activates ⟨0, by decide⟩ = [106, 92] ∧
      ∀ input, DramM.call input s ≠ .error .windowPanic := by
  obtain ⟨s, hs, hat⟩ := Dram.exists_reachable (P := Dram.PowerSafe) 1 readsAroundRefresh
    (fun s : Dram .oneBank => s.activates ⟨0, by decide⟩ = [106, 92]) (by decide +kernel)
  have hquiet := hs.quietRefresh (by decide) (by decide)
  exact ⟨s, hquiet, hat,
    (activation_window (by decide) (by decide) (by decide) hquiet).2.2⟩

def DramConfig.longActivates : DramConfig := { DramConfig.oneBank with tRRD := 20 }

/-- The same run: the refresh ends 14 ticks after the first activate and allows the second
one at once, although tRRD is 20 and tXAW is short enough. -/
theorem activates_close_after_refresh :
    DramConfig.longActivates.tXAW ≤ DramConfig.longActivates.tRAS + DramConfig.longActivates.tRP +
        DramConfig.longActivates.tRFC ∧
    ∃ s : Dram .longActivates, s.Reachable Dram.PowerSafe ∧
      s.activates ⟨0, by decide⟩ = [106, 92] ∧ ¬ 92 + DramConfig.longActivates.tRRD ≤ 106 := by
  obtain ⟨s, hs, hat⟩ := Dram.exists_reachable (P := Dram.PowerSafe) 1 readsAroundRefresh
    (fun s : Dram .longActivates => s.activates ⟨0, by decide⟩ = [106, 92]) (by decide +kernel)
  exact ⟨by decide, s, hs, hat, by decide⟩

end PardG5V
