import PardG5V.Dram.OpenRows
import PardG5V.Dram.RowTiming

/-!
# Commands that have taken effect

A command is decided before the tick at which it happens. When the precharge event runs, every
precharge has been done for tRP, and every command to a row buffer that is closed by then has
released it. So once no row is open and no precharge event is pending, every command is over
(`Dram.Effective.doneBy`).
-/

namespace PardG5V

open Prog Relation BankLemmas

variable {cfg : DramConfig}

/-! ## Definitions -/

/-- By the tick, the command is over and the next one may follow. -/
def DramEvent.DoneBy (t : Tick) : DramEvent cfg → Prop
  | .activate _ _ tick => tick + cfg.tRAS ≤ t
  | .read _ tick => tick + cfg.tRTP ≤ t
  | .write _ doneAt => doneAt + cfg.tWR ≤ t
  | .precharge _ tick => tick + cfg.tRP ≤ t
  | _ => True

namespace Dram

/-- The tick has passed, or will have when the precharge event runs. -/
def Covers (s : Dram cfg) (t : Tick) : Prop := t ≤ s.curTick ∨ ∃ p ∈ s.prechargeEvent, t ≤ p

/-- Every command is over or will be when the precharge event runs, except those to open
row buffers. -/
structure Effective (s : Dram cfg) : Prop where
  release : ∀ buf, ∀ e ∈ s.commands, ∀ r ∈ e.release buf,
    s.Covers r ∨ (s.openRow buf).isSome = true ∧ r ∈ releases buf s.commands
  precharge : ∀ buf tick, .precharge buf tick ∈ s.commands → s.Covers (tick + cfg.tRP)

/-! ## The precharge event -/

section Covers

variable {s s' : Dram cfg} {buf : RowBuf cfg} {row : Row} {tick t : Tick}

theorem Covers.core (h : s.Covers t) (hcore : s.SameCore s') : s'.Covers t := by
  unfold Covers
  rw [show s'.curTick = s.curTick from congrArg DramCore.curTick hcore,
    show s'.prechargeEvent = s.prechargeEvent from congrArg DramCore.prechargeEvent hcore]
  exact h

theorem Covers.activated (h : s.Covers t) : (s.activated buf row tick).Covers t := by
  unfold Covers
  rw [(activated_machines s buf row tick).curTick, activated_prechargeEvent]
  exact h

theorem precharged_event (s : Dram cfg) (buf : RowBuf cfg) (tick : Tick) :
    ∃ p, (s.precharged buf tick).prechargeEvent = some p ∧ tick + cfg.tRP ≤ p ∧
      ∀ q ∈ s.prechargeEvent, q ≤ p := by
  refine ⟨_, precharged_prechargeEvent s buf tick, ?_, ?_⟩
  · cases s.prechargeEvent with
    | none => exact Nat.le_refl _
    | some q => exact Nat.le_max_right _ _
  · intro q hq
    rw [hq]
    exact Nat.le_max_left _ _

theorem Covers.precharged (h : s.Covers t) : (s.precharged buf tick).Covers t := by
  obtain ⟨p, hp, -, hold⟩ := precharged_event s buf tick
  rcases h with ht | ⟨q, hq, ht⟩
  · exact .inl ht
  · exact .inr ⟨p, hp, Nat.le_trans ht (hold q hq)⟩

theorem covers_precharged (s : Dram cfg) (buf : RowBuf cfg) (tick : Tick) :
    (s.precharged buf tick).Covers (tick + cfg.tRP) := by
  obtain ⟨p, hp, hle, -⟩ := precharged_event s buf tick
  exact .inr ⟨p, hp, hle⟩

theorem Covers.mono {t' : Tick} (h : s.Covers t) (hle : t' ≤ t) : s.Covers t' := by
  rcases h with ht | ⟨q, hq, ht⟩
  · exact .inl (Nat.le_trans hle ht)
  · exact .inr ⟨q, hq, Nat.le_trans hle ht⟩

/-- The precharge event runs: what it stands for has happened. -/
theorem Covers.run (h : s.Covers t) (hevent : s.prechargeEvent = some s.curTick)
    (hnow : s'.curTick = s.curTick) : s'.Covers t := by
  rcases h with ht | ⟨p, hp, ht⟩
  · exact .inl (hnow ▸ ht)
  · cases hevent.symm.trans hp
    exact .inl (hnow ▸ ht)

theorem Covers.past (h : s.Covers t) (hpre : s.prechargeEvent = none) : t ≤ s.curTick := by
  rcases h with ht | ⟨p, hp, _⟩
  · exact ht
  · cases hpre.symm.trans hp

end Covers

/-! ## Commands -/

namespace Effective

variable {s s' : Dram cfg} {buf : RowBuf cfg} {row : Row} {tick : Tick} {e : DramEvent cfg}

theorem same (h : s.Effective) (hcovers : ∀ t, s.Covers t → s'.Covers t)
    (hrows : ∀ buf, s'.openRow buf = s.openRow buf) (hcommands : s'.commands = s.commands) :
    s'.Effective := by
  constructor
  · intro buf e he r hr
    rw [hcommands] at he
    rw [hrows, hcommands]
    exact (h.release buf e he r hr).imp_left (hcovers r)
  · intro buf tick hmem
    exact hcovers _ (h.precharge buf tick (hcommands ▸ hmem))

theorem logged (h : s.Effective) (hcovers : ∀ t, s.Covers t → s'.Covers t)
    (hrows : ∀ buf, s'.openRow buf = s.openRow buf) (hcommands : s'.commands = e :: s.commands)
    (hopen : ∀ buf r, e.release buf = some r → (s.openRow buf).isSome = true)
    (hopens : ∀ buf, e.opens buf = false) (hpre : ∀ buf tick, e ≠ .precharge buf tick) :
    s'.Effective := by
  have hreleases (buf : RowBuf cfg) :
      releases buf s'.commands = (e.release buf).toList ++ releases buf s.commands := by
    rw [hcommands]
    simp only [releases, hopens, Bool.false_eq_true, if_false]
  constructor
  · intro buf e' he' r hr
    rw [hcommands] at he'
    rw [hrows, hreleases, List.mem_append, Option.mem_toList]
    rcases List.mem_cons.mp he' with rfl | he'
    · exact .inr ⟨hopen buf r hr, .inl hr⟩
    · exact (h.release buf e' he' r hr).imp (hcovers r) fun hheld => ⟨hheld.1, .inr hheld.2⟩
  · intro buf tick hmem
    rw [hcommands] at hmem
    refine hcovers _ (h.precharge buf tick ((List.mem_cons.mp hmem).resolve_left ?_))
    exact fun heq => hpre buf tick heq.symm

theorem activated (h : s.Effective) (hclosed : s.openRow buf = none) :
    (s.activated buf row tick).Effective := by
  constructor
  · intro buf' e he r hr
    rw [openRow_activated]
    rw [activated_commands] at he ⊢
    by_cases hbuf : buf' = buf
    · subst hbuf
      rcases List.mem_cons.mp he with rfl | he
      · refine .inr ⟨by rw [if_pos rfl]; rfl, ?_⟩
        simp only [releases, List.mem_append, Option.mem_toList]
        exact .inl hr
      · -- what the closed row buffer had to wait for is over
        refine (h.release buf' e he r hr).elim (fun ht => .inl ht.activated) fun hheld => ?_
        rw [hclosed] at hheld
        exact Bool.noConfusion hheld.1
    · have hne : buf ≠ buf' := fun h => hbuf h.symm
      simp only [releases, DramEvent.release, DramEvent.opens, if_neg hne, if_neg hbuf,
        Option.toList_none, beq_eq_false_iff_ne.mpr hne, Bool.false_eq_true, if_false,
        List.nil_append]
      rcases List.mem_cons.mp he with rfl | he
      · simp [DramEvent.release, if_neg hne] at hr
      · exact (h.release buf' e he r hr).imp_left .activated
  · intro buf' tick' hmem
    rw [activated_commands] at hmem
    rcases List.mem_cons.mp hmem with heq | hmem
    · cases heq
    · exact (h.precharge buf' tick' hmem).activated

theorem precharged (h : s.Effective) (htimes : s.RowTimes)
    (hpre : (s.banks buf.bank).preAllowedAt ≤ tick) : (s.precharged buf tick).Effective := by
  constructor
  · intro buf' e he r hr
    rcases List.mem_cons.mp he with rfl | he
    · cases hr
    · rcases h.release buf' e he r hr with ht | ⟨hopen, hheld⟩
      · exact .inl ht.precharged
      · by_cases hbuf : buf' = buf
        · subst hbuf
          have hrelease := Nat.le_trans (htimes.held buf' hopen r hheld) hpre
          exact .inl ((covers_precharged s buf' tick).mono
            (Nat.le_trans hrelease (Nat.le_add_right _ _)))
        · rw [openRow_precharged, if_neg hbuf]
          exact .inr ⟨hopen, hheld⟩
  · intro buf' tick' hmem
    rcases List.mem_cons.mp hmem with heq | hmem
    · cases heq
      exact covers_precharged s buf tick
    · exact (h.precharge buf' tick' hmem).precharged

theorem core (h : s.Effective) (hcore : s.SameCore s') : s'.Effective := by
  refine h.same (fun _ ht => ht.core hcore) (fun buf => ?_) (congrArg DramCore.commands hcore)
  unfold Dram.openRow
  rw [show s'.banks = s.banks from congrArg DramCore.banks hcore]

theorem step {A : ActivateRule cfg} (hstep : BankStep A s s')
    (htimes : s.RowTimes) (h : s.Effective) : s'.Effective := by
  cases hstep with
  | keep hcore => exact h.core hcore
  | activate _ hclosed _ _ _ => exact h.activated hclosed
  | precharge _ hpre _ => exact h.precharged htimes hpre
  | @access pkt cmdAt readyTime hopen =>
    refine h.logged (fun _ ht => ht) (openRow_accessed s pkt cmdAt readyTime)
      (accessed_commands s pkt cmdAt readyTime) (fun buf r hr => ?_) (fun buf => ?_)
      (fun buf tick => ?_)
    · have hbuf : pkt.rowBuf = buf := by
        cases hread : pkt.isRead <;> simp [hread, DramEvent.release] at hr <;> exact hr.1
      rw [← hbuf, hopen]
      rfl
    · cases pkt.isRead <;> rfl
    · cases pkt.isRead <;> rintro ⟨⟩
  | @defer id bank hdefer =>
    refine h.same (fun _ ht => ht) (fun buf => ?_) rfl
    unfold Dram.openRow
    rw [banks_setBank]
    split
    · next hid => rw [hid, hdefer.openRow]
    · rfl

theorem steps (hpath : BankSteps Gentle s s') (htimes : s.RowTimes) (h : s.Effective) :
    s'.Effective := by
  induction hpath with
  | refl => exact h
  | tail hpath hstep ih => exact ih.step hstep (htimes.steps hpath)

/-! ## Inputs -/

theorem refresh (h : s.Effective) (he : (∃ t, e = .refreshStart t) ∨ ∃ t, e = .refreshEnd t)
    (hcovers : ∀ t, s.Covers t → s'.Covers t) (hrows : ∀ buf, s'.openRow buf = s.openRow buf)
    (hcommands : s'.commands = e :: s.commands) : s'.Effective := by
  rcases he with ⟨t, rfl⟩ | ⟨t, rfl⟩
  · exact h.logged hcovers hrows hcommands (by rintro _ _ ⟨⟩) (fun _ => rfl) (by rintro _ _ ⟨⟩)
  · exact h.logged hcovers hrows hcommands (by rintro _ _ ⟨⟩) (fun _ => rfl) (by rintro _ _ ⟨⟩)

theorem coreStep {input : DramInput} (htimes : s.RowTimes) (hen : s.Enabled input)
    (h : s.Effective) (hstep : CoreStep Gentle s input s') : s'.Effective := by
  cases hstep with
  | commands _ _ hpath => exact h.steps hpath htimes
  | other hcore => exact h.core hcore
  | handOver _ hcore =>
    have hpre : { s with
        refreshState := .REF_PRE, refreshEvent := some s.curTick }.Effective :=
      h.same (fun _ ht => ht) (fun _ => rfl) rfl
    exact hpre.core hcore
  | advance hle =>
    exact h.same (fun _ ht => ht.imp_left fun ht => Nat.le_trans ht hle) (fun _ => rfl) rfl
  | activateEvent | wake | refreshDue | refreshIdle | toActive | toIdle =>
    exact h.same (fun _ ht => ht) (fun _ => rfl) rfl
  | prechargeEvent | sleep => exact h.same (fun _ ht => ht.run hen rfl) (fun _ => rfl) rfl
  | @prechargeAll due s₁ _ _ _ hpath =>
    have hdue : { s with
        refreshEvent := none, refreshState := .REF_PRE, refreshDueAt := due }.Effective :=
      h.same (fun _ ht => ht) (fun _ => rfl) rfl
    have hgentle : BankSteps Gentle _ s₁ := steps_imp (fun _ _ _ => False.elim) hpath
    exact (hdue.steps hgentle (htimes.same rfl rfl)).same (fun _ ht => ht) (fun _ => rfl) rfl
  | refreshAgain | refreshStart =>
    exact h.refresh (.inl ⟨_, rfl⟩) (fun _ ht => ht) (fun _ => rfl) rfl
  | refreshEnd => exact h.refresh (.inr ⟨_, rfl⟩) (fun _ ht => ht) (fun _ => rfl) rfl

/-- With all rows closed and no precharge on its way, every command is over. -/
theorem doneBy (h : s.Effective) (hclosed : ∀ buf, s.openRow buf = none)
    (hpre : s.prechargeEvent = none) (he : e ∈ s.commands) :
    e.DoneBy s.curTick := by
  have hrelease {buf : RowBuf cfg} {r : Tick} (hr : e.release buf = some r) : r ≤ s.curTick := by
    rcases h.release buf e he r hr with ht | ⟨hopen, _⟩
    · exact ht.past hpre
    · rw [hclosed] at hopen
      exact Bool.noConfusion hopen
  cases e with
  | activate buf row tick | read buf tick | write buf doneAt =>
    exact hrelease (if_pos (rfl : buf = buf))
  | precharge buf tick => exact (h.precharge buf tick he).past hpre
  | refreshStart | refreshEnd | respond | retry => trivial

end Effective

theorem Reachable.effective {s : Dram cfg} (h : s.Reachable Spares) : s.Effective := by
  refine h.induct (fun _ => ?_) fun s input s' hs ih hen hP hcall => ?_
  · exact ⟨fun _ _ hmem => (nomatch hmem), fun _ _ hmem => (nomatch hmem)⟩
  · exact ih.coreStep hs.rowTimes hen (hP.coreStep hen hcall)

end Dram

end PardG5V
