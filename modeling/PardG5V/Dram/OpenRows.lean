import Mathlib.Data.List.FinRange
import PardG5V.Dram.Machines
import PardG5V.Lib.Count

/-!
# The counts of open rows

A bank counts its row buffers that have an open row, and the controller counts the banks with such
a row buffer. The two counts are kept by hand in `activateBank` and `prechargeBank`, and are right
in every reachable state (`Dram.Reachable.counted`), as is what the log says about open rows
(`Dram.Reachable.clocked`).
-/

namespace PardG5V

open Prog Relation BankLemmas

variable {cfg : DramConfig}

/-! ## Definitions -/

def Bank.openRows (bank : Bank) : Nat :=
  (List.finRange rowBufferCount).countP fun i => (bank.openRow i).isSome

structure Dram.Counted (s : Dram cfg) : Prop where
  rows : ∀ id, (s.banks id).numRowsActive = (s.banks id).openRows
  banks : s.numBanksActive = (BankId.all cfg).countP fun id => (s.banks id).numRowsActive != 0

/-- The tick at which the open row of the row buffer was activated, by the log. -/
def openedAt (buf : RowBuf cfg) : List (DramEvent cfg) → Option Tick
  | [] => none
  | .activate buf' _ tick :: past => if buf' = buf then some tick else openedAt buf past
  | .precharge buf' _ :: past => if buf' = buf then none else openedAt buf past
  | _ :: past => openedAt buf past

/-- The log says which row buffers are open, and a bank with one allows no activate before the one
that opened it, and a precharge and a column command only tRAS and tRCD after. -/
structure Dram.Clocked (s : Dram cfg) : Prop where
  opened : ∀ buf, (openedAt buf s.commands).isSome = (s.openRow buf).isSome
  act : ∀ buf, ∀ o ∈ openedAt buf s.commands, o ≤ (s.banks buf.bank).actAllowedAt
  pre : ∀ buf, ∀ o ∈ openedAt buf s.commands, o + cfg.tRAS ≤ (s.banks buf.bank).preAllowedAt
  col : ∀ buf, ∀ o ∈ openedAt buf s.commands, o + cfg.tRCD ≤ (s.banks buf.bank).colAllowedAt

/-! ## Banks -/

theorem BankId.nodup_all : (BankId.all cfg).Nodup := by
  unfold BankId.all
  refine List.nodup_flatMap.mpr ⟨fun rank _ => ?_, ?_⟩
  · exact (List.nodup_finRange _).map fun _ _ h => by cases h; rfl
  · refine (List.nodup_finRange _).imp fun {rank rank'} hne => ?_
    intro id hid hid'
    obtain ⟨_, _, rfl⟩ := List.mem_map.mp hid
    obtain ⟨_, _, heq⟩ := List.mem_map.mp hid'
    cases heq
    exact hne rfl

namespace Bank

variable {bank : Bank} {i : Fin rowBufferCount} {row : Row} {tick : Tick}

theorem openRows_eq_zero_iff : bank.openRows = 0 ↔ ∀ i, bank.openRow i = none := by
  unfold openRows
  rw [List.countP_eq_zero]
  simp

theorem openRows_opened (h : bank.openRow i = none) :
    (bank.opened cfg i row tick).openRows = bank.openRows + 1 := by
  refine List.countP_gain (List.nodup_finRange _) (List.mem_finRange i) (by rw [h]; rfl) ?_ ?_
  · simp [opened]
  · intro j hj
    simp [opened, hj]

theorem openRows_closed (h : (bank.openRow i).isSome = true) :
    (bank.closed cfg i tick).openRows + 1 = bank.openRows := by
  refine List.countP_loss (List.nodup_finRange _) (List.mem_finRange i) h ?_ ?_
  · simp [closed]
  · intro j hj
    simp [closed, hj]

end Bank

variable {A : ActivateRule cfg}

namespace Dram

variable {s s' : Dram cfg} {buf : RowBuf cfg} {pkt : DRAMPacket cfg} {row : Row} {tick : Tick}

/-- The controller counts no bank exactly when every row buffer is closed. -/
theorem Counted.closed_iff (h : s.Counted) :
    s.numBanksActive = 0 ↔ ∀ buf, s.openRow buf = none := by
  rw [h.banks, List.countP_eq_zero]
  constructor
  · intro hzero buf
    have hbank := hzero buf.bank (BankId.mem_all _)
    rw [h.rows] at hbank
    exact Bank.openRows_eq_zero_iff.mp (by simpa using hbank) buf.num
  · intro hclosed id _
    rw [h.rows, Bank.openRows_eq_zero_iff.mpr fun i => hclosed ⟨id, i⟩]
    exact Bool.noConfusion

theorem activated_numBanksActive (s : Dram cfg) (buf : RowBuf cfg) (row : Row) (tick : Tick) :
    (s.activated buf row tick).numBanksActive =
      if (s.banks buf.bank).numRowsActive = 0 then s.numBanksActive + 1 else s.numBanksActive := by
  unfold activated noteWindow
  split
  · rfl
  · dsimp only
    split <;> rfl

namespace Counted

theorem activate (h : s.Counted) (hclosed : s.openRow buf = none) :
    (s.activated buf row tick).Counted := by
  have hbank (id : BankId cfg) := banks_activated s buf row tick id
  have hrows (id : BankId cfg) : ((s.activated buf row tick).banks id).numRowsActive =
      if id = buf.bank then (s.banks id).numRowsActive + 1 else (s.banks id).numRowsActive := by
    obtain ⟨t, hid, -, -⟩ := hbank id
    rw [hid]
    split <;> rfl
  constructor
  · intro id
    obtain ⟨t, hid, -, -⟩ := hbank id
    rw [hrows, hid]
    by_cases heq : id = buf.bank
    · subst heq
      have hgain : ((s.banks buf.bank).opened cfg buf.num row tick).openRows =
          (s.banks buf.bank).openRows + 1 := Bank.openRows_opened hclosed
      rw [if_pos rfl, if_pos rfl, h.rows]
      exact hgain.symm
    · rw [if_neg heq, if_neg heq, h.rows]
      rfl
  · rw [activated_numBanksActive, h.banks]
    by_cases hzero : (s.banks buf.bank).numRowsActive = 0
    · rw [if_pos hzero]
      symm
      refine List.countP_gain BankId.nodup_all (BankId.mem_all buf.bank) (by simp [hzero]) ?_ ?_
      · rw [hrows, if_pos rfl]
        simp
      · intro id hid
        rw [hrows, if_neg hid]
    · rw [if_neg hzero]
      refine List.countP_congr fun id _ => ?_
      rw [hrows]
      split
      · next hid => subst hid; simp [hzero]
      · rfl

theorem precharge (h : s.Counted) (hopen : (s.openRow buf).isSome = true) :
    (s.precharged buf tick).Counted := by
  have hloss : ((s.banks buf.bank).closed cfg buf.num tick).openRows + 1 =
      (s.banks buf.bank).openRows := Bank.openRows_closed hopen
  have hrows (id : BankId cfg) : ((s.precharged buf tick).banks id).numRowsActive =
      if id = buf.bank then (s.banks buf.bank).numRowsActive - 1
      else (s.banks id).numRowsActive := by
    rw [banks_precharged]
    split <;> rfl
  have hsome := h.rows buf.bank
  constructor
  · intro id
    rw [hrows, banks_precharged]
    by_cases heq : id = buf.bank
    · rw [if_pos heq, if_pos heq]
      omega
    · rw [if_neg heq, if_neg heq, h.rows]
  · show (if (s.banks buf.bank).numRowsActive = 1 then s.numBanksActive - 1
      else s.numBanksActive) = _
    rw [h.banks]
    by_cases hone : (s.banks buf.bank).numRowsActive = 1
    · rw [if_pos hone]
      have hbanks : (BankId.all cfg).countP
            (fun id => ((s.precharged buf tick).banks id).numRowsActive != 0) + 1 =
          (BankId.all cfg).countP fun id => (s.banks id).numRowsActive != 0 := by
        refine List.countP_loss BankId.nodup_all (BankId.mem_all buf.bank) (by simp [hone]) ?_ ?_
        · rw [hrows, if_pos rfl, hone]
          rfl
        · intro id hid
          rw [hrows, if_neg hid]
      omega
    · rw [if_neg hone]
      refine List.countP_congr fun id _ => ?_
      rw [hrows]
      split
      · next hid =>
          subst hid
          have hne : (s.banks buf.bank).numRowsActive - 1 ≠ 0 := by omega
          simp only [bne_iff_ne, ne_eq, hne, not_false_eq_true, iff_true]
          omega
      · rfl

theorem same (h : s.Counted) (hnum : s'.numBanksActive = s.numBanksActive)
    (hopen : ∀ id, (s'.banks id).openRow = (s.banks id).openRow)
    (hrows : ∀ id, (s'.banks id).numRowsActive = (s.banks id).numRowsActive) : s'.Counted := by
  constructor
  · intro id
    unfold Bank.openRows
    rw [hrows, hopen]
    exact h.rows id
  · rw [hnum, h.banks]
    refine List.countP_congr fun id _ => ?_
    rw [hrows]

theorem core (h : s.Counted) (hcore : s.SameCore s') : s'.Counted := by
  have hbanks : s'.banks = s.banks := congrArg DramCore.banks hcore
  exact h.same (congrArg DramCore.numBanksActive hcore) (fun _ => by rw [hbanks])
    (fun _ => by rw [hbanks])

theorem step (hstep : BankStep A s s') (h : s.Counted) : s'.Counted := by
  have hset {id : BankId cfg} {bank : Bank} (hopen : bank.openRow = (s.banks id).openRow)
      (hrows : bank.numRowsActive = (s.banks id).numRowsActive) : (s.setBank id bank).Counted := by
    refine h.same rfl (fun id' => ?_) (fun id' => ?_)
    · rw [banks_setBank]
      split
      · next hid => rw [hid, hopen]
      · rfl
    · rw [banks_setBank]
      split
      · next hid => rw [hid, hrows]
      · rfl
  cases hstep with
  | keep hcore => exact h.core hcore
  | activate _ hclosed _ _ _ => exact h.activate hclosed
  | precharge hopen _ _ => exact h.precharge hopen
  | @access pkt cmdAt readyTime =>
    have haccess : (s.setBank pkt.bankId
        ((s.banks pkt.bankId).accessed cfg pkt.isRead cmdAt readyTime)).Counted := hset rfl rfl
    exact haccess.same rfl (fun _ => rfl) (fun _ => rfl)
  | defer hdefer => exact hset hdefer.openRow hdefer.numRowsActive

theorem steps (hpath : BankSteps A s s') (h : s.Counted) : s'.Counted := by
  induction hpath with
  | refl => exact h
  | tail _ hstep ih => exact ih.step hstep

theorem rows_same (hrows : s.SameRows s') (h : s.Counted) : s'.Counted :=
  h.same hrows.numBanksActive hrows.openRow hrows.numRowsActive

theorem startup (now : Tick) : (Dram.startup cfg now).Counted := by
  constructor
  · intro id
    exact (Bank.openRows_eq_zero_iff.mpr fun _ => rfl).symm
  · exact (List.countP_eq_zero.mpr fun _ _ => Bool.noConfusion).symm

end Counted

variable {P : Dram cfg → DramInput → Prop}

theorem Reachable.counted (h : s.Reachable P) : s.Counted := by
  refine h.induct Counted.startup fun s input s' _ hs hen _ hcall => ?_
  have hstep : CoreStep (fun _ _ _ => True) s input s' :=
    call_coreStep (fun _ _ _ _ _ => trivial) hen hcall
  obtain ⟨s₁, s₂, hbefore, hpath, hafter⟩ := hstep.rows
  exact ((hs.rows_same hbefore).steps hpath).rows_same hafter

/-! ## The log -/

theorem openedAt_activated (s : Dram cfg) (buf buf' : RowBuf cfg) (row : Row) (tick : Tick) :
    openedAt buf' (s.activated buf row tick).commands =
      if buf = buf' then some tick else openedAt buf' s.commands := by
  rw [activated_commands]
  rfl

theorem openedAt_precharged (s : Dram cfg) (buf buf' : RowBuf cfg) (tick : Tick) :
    openedAt buf' (s.precharged buf tick).commands =
      if buf = buf' then none else openedAt buf' s.commands := rfl

theorem openedAt_accessed (s : Dram cfg) (pkt : DRAMPacket cfg) (cmdAt readyTime : Tick)
    (buf : RowBuf cfg) :
    openedAt buf (s.accessed pkt cmdAt readyTime).commands = openedAt buf s.commands := by
  rw [accessed_commands]
  cases pkt.isRead <;> rfl

theorem SameRows.openedAt (h : s.SameRows s') (buf : RowBuf cfg) :
    PardG5V.openedAt buf s'.commands = PardG5V.openedAt buf s.commands := by
  rcases h.commands with hcommands | ⟨t, hcommands | hcommands⟩ <;> rw [hcommands] <;> rfl

namespace Clocked

theorem activate (h : s.Clocked) (htick : tick = max (s.banks buf.bank).actAllowedAt s.curTick) :
    (s.activated buf row tick).Clocked := by
  have hbank (buf' : RowBuf cfg) := banks_activated s buf row tick buf'.bank
  have helse {buf' : RowBuf cfg} (hid : buf'.bank ≠ buf.bank) :
      openedAt buf' (s.activated buf row tick).commands = openedAt buf' s.commands := by
    rw [openedAt_activated, if_neg fun h => hid (by rw [h])]
  have hold {buf' : RowBuf cfg} {o : Tick} (hid : buf'.bank = buf.bank)
      (ho : o ∈ openedAt buf' (s.activated buf row tick).commands) : o ≤ tick := by
    rw [openedAt_activated] at ho
    by_cases hbuf : buf = buf'
    · rw [if_pos hbuf] at ho
      cases ho
      exact Nat.le_refl _
    · -- the other row buffer was opened before the bank allowed this activate
      rw [if_neg hbuf] at ho
      have hact := h.act buf' o ho
      rw [hid] at hact
      exact Nat.le_trans hact (htick ▸ Nat.le_max_left _ _)
  constructor
  · intro buf'
    rw [openedAt_activated, openRow_activated]
    by_cases hbuf : buf = buf'
    · rw [if_pos hbuf, if_pos hbuf.symm]
      rfl
    · rw [if_neg hbuf, if_neg fun h => hbuf h.symm]
      exact h.opened buf'
  · intro buf' o ho
    obtain ⟨t, hid, hle, hrank⟩ := hbank buf'
    rw [openedAt_activated] at ho
    rw [hid]
    by_cases hbuf : buf = buf'
    · rw [if_pos hbuf] at ho
      cases ho
      exact Nat.le_trans (Nat.le_add_right _ _) (hrank (by rw [hbuf]))
    · rw [if_neg hbuf] at ho
      exact Nat.le_trans (h.act buf' o ho) hle
  · intro buf' o ho
    obtain ⟨t, hid, -, -⟩ := hbank buf'
    rw [hid]
    by_cases hid' : buf'.bank = buf.bank
    · rw [if_pos hid']
      exact Nat.add_le_add_right (hold hid' ho) cfg.tRAS
    · rw [if_neg hid']
      exact h.pre buf' o (helse hid' ▸ ho)
  · intro buf' o ho
    obtain ⟨t, hid, -, -⟩ := hbank buf'
    rw [hid]
    by_cases hid' : buf'.bank = buf.bank
    · rw [if_pos hid']
      exact Nat.add_le_add_right (hold hid' ho) cfg.tRCD
    · rw [if_neg hid']
      exact h.col buf' o (helse hid' ▸ ho)

theorem precharge (h : s.Clocked) (hpre : (s.banks buf.bank).preAllowedAt ≤ tick) :
    (s.precharged buf tick).Clocked := by
  have hstill {buf' : RowBuf cfg} {o : Tick}
      (ho : o ∈ openedAt buf' (s.precharged buf tick).commands) : o ∈ openedAt buf' s.commands := by
    rw [openedAt_precharged] at ho
    by_cases hbuf : buf = buf'
    · rw [if_pos hbuf] at ho
      cases ho
    · rwa [if_neg hbuf] at ho
  constructor
  · intro buf'
    rw [openedAt_precharged, openRow_precharged]
    by_cases hbuf : buf = buf'
    · rw [if_pos hbuf, if_pos hbuf.symm]
      rfl
    · rw [if_neg hbuf, if_neg fun h => hbuf h.symm]
      exact h.opened buf'
  · intro buf' o ho
    have hold := h.act buf' o (hstill ho)
    rw [banks_precharged]
    split
    · next hid =>
        rw [hid] at hold
        exact Nat.le_trans hold (Nat.le_max_left _ _)
    · exact hold
  · intro buf' o ho
    have hold := h.pre buf' o (hstill ho)
    rw [banks_precharged]
    split
    · next hid =>
        rw [hid] at hold
        exact Nat.le_trans hold hpre
    · exact hold
  · intro buf' o ho
    have hold := h.col buf' o (hstill ho)
    rw [banks_precharged]
    split
    · next hid =>
        rw [hid] at hold
        exact hold
    · exact hold

/-- The log says the same about open rows, and no bank allows anything earlier. -/
theorem mono (h : s.Clocked) (hopen : ∀ id, (s'.banks id).openRow = (s.banks id).openRow)
    (hact : ∀ id, (s.banks id).actAllowedAt ≤ (s'.banks id).actAllowedAt)
    (hpre : ∀ id, (s.banks id).preAllowedAt ≤ (s'.banks id).preAllowedAt)
    (hcol : ∀ id, (s.banks id).colAllowedAt ≤ (s'.banks id).colAllowedAt)
    (hlog : ∀ buf, openedAt buf s'.commands = openedAt buf s.commands) : s'.Clocked := by
  constructor
  · intro buf
    unfold Dram.openRow
    rw [hlog, hopen]
    exact h.opened buf
  · intro buf o ho
    rw [hlog] at ho
    exact Nat.le_trans (h.act buf o ho) (hact buf.bank)
  · intro buf o ho
    rw [hlog] at ho
    exact Nat.le_trans (h.pre buf o ho) (hpre buf.bank)
  · intro buf o ho
    rw [hlog] at ho
    exact Nat.le_trans (h.col buf o ho) (hcol buf.bank)

theorem step (hstep : BankStep A s s') (h : s.Clocked) : s'.Clocked := by
  have hset {s₁ : Dram cfg} {id : BankId cfg} {bank : Bank} (hdefer : (s.banks id).Defers bank)
      (hbanks : s₁.banks = (s.setBank id bank).banks)
      (hlog : ∀ buf, openedAt buf s₁.commands = openedAt buf s.commands) : s₁.Clocked := by
    refine h.mono (fun id' => ?_) (fun id' => ?_) (fun id' => ?_) (fun id' => ?_) hlog
    · rw [hbanks, banks_setBank]
      split
      · next hid => rw [hid, hdefer.openRow]
      · rfl
    · rw [hbanks, banks_setBank]
      split
      · next hid => rw [hid]; exact hdefer.act
      · exact Nat.le_refl _
    · rw [hbanks, banks_setBank]
      split
      · next hid => rw [hid]; exact hdefer.pre
      · exact Nat.le_refl _
    · rw [hbanks, banks_setBank]
      split
      · next hid => rw [hid]; exact hdefer.col
      · exact Nat.le_refl _
  cases hstep with
  | keep hcore =>
    have hbanks : s'.banks = s.banks := congrArg DramCore.banks hcore
    have hlog : s'.commands = s.commands := congrArg DramCore.commands hcore
    exact h.mono (fun _ => by rw [hbanks]) (fun _ => by rw [hbanks]) (fun _ => by rw [hbanks])
      (fun _ => by rw [hbanks]) (fun _ => by rw [hlog])
  | activate _ _ _ htick _ => exact h.activate htick
  | precharge _ hpre _ => exact h.precharge hpre
  | @access pkt cmdAt readyTime _ hcol =>
    have hdefer : (s.banks pkt.bankId).Defers
        ((s.banks pkt.bankId).accessed cfg pkt.isRead cmdAt readyTime) :=
      ⟨rfl, rfl, Nat.le_max_left _ _, Nat.le_refl _, Nat.le_trans hcol (Nat.le_add_right _ _)⟩
    exact hset hdefer rfl fun buf => openedAt_accessed s _ _ _ buf
  | defer hdefer => exact hset hdefer rfl fun _ => rfl

theorem steps (hpath : BankSteps A s s') (h : s.Clocked) : s'.Clocked := by
  induction hpath with
  | refl => exact h
  | tail _ hstep ih => exact ih.step hstep

/-- A row that may be closed was opened before its precharge ends. -/
theorem opened_before (h : s.Clocked) (htime : 0 < cfg.tRAS + cfg.tRP) {buf : RowBuf cfg}
    {tick : Tick} (hopen : (s.openRow buf).isSome = true)
    (hpre : (s.banks buf.bank).preAllowedAt ≤ tick) :
    ∃ o, openedAt buf s.commands = some o ∧ o < tick + cfg.tRP := by
  obtain ⟨o, ho⟩ := Option.isSome_iff_exists.mp ((h.opened buf).trans hopen)
  refine ⟨o, ho, ?_⟩
  calc o < o + (cfg.tRAS + cfg.tRP) := Nat.lt_add_of_pos_right htime
    _ = o + cfg.tRAS + cfg.tRP := (Nat.add_assoc _ _ _).symm
    _ ≤ tick + cfg.tRP := Nat.add_le_add_right (Nat.le_trans (h.pre buf o ho) hpre) _

theorem openedAt_eq_none (h : s.Clocked) {buf : RowBuf cfg} (hclosed : s.openRow buf = none) :
    openedAt buf s.commands = none := by
  have hopened := h.opened buf
  rw [hclosed] at hopened
  simpa using hopened

theorem rows_same (hrows : s.SameRows s') (hcounted : s.Counted) (h : s.Clocked) : s'.Clocked := by
  have hpre (id : BankId cfg) : (s.banks id).preAllowedAt ≤ (s'.banks id).preAllowedAt :=
    Nat.le_of_eq (hrows.preAllowedAt id).symm
  rcases hrows.actAllowedAt with hclosed | hact
  · -- a refresh finds no open row that would wait for an activate
    have hnone (buf : RowBuf cfg) : openedAt buf s'.commands = none :=
      (hrows.openedAt buf).trans (h.openedAt_eq_none (hcounted.closed_iff.mp hclosed buf))
    constructor
    · intro buf
      unfold Dram.openRow
      rw [hrows.openedAt, hrows.openRow]
      exact h.opened buf
    · intro buf o ho
      rw [hnone] at ho
      cases ho
    · intro buf o ho
      rw [hnone] at ho
      cases ho
    · intro buf o ho
      rw [hnone] at ho
      cases ho
  · exact h.mono hrows.openRow (fun id => Nat.le_of_eq (hact id).symm) hpre
      (fun id => Nat.le_of_eq (hrows.colAllowedAt id).symm) hrows.openedAt

theorem startup (now : Tick) : (Dram.startup cfg now).Clocked :=
  ⟨fun _ => rfl, fun _ _ ho => (nomatch ho), fun _ _ ho => (nomatch ho), fun _ _ ho => (nomatch ho)⟩

end Clocked

theorem Reachable.clocked (h : s.Reachable P) : s.Clocked := by
  have hboth : s.Counted ∧ s.Clocked := by
    refine h.induct (I := fun s => s.Counted ∧ s.Clocked)
      (fun now => ⟨.startup now, .startup now⟩) fun s input s' _ hs hen _ hcall => ?_
    have hstep : CoreStep (fun _ _ _ => True) s input s' :=
      call_coreStep (fun _ _ _ _ _ => trivial) hen hcall
    obtain ⟨s₁, s₂, hbefore, hpath, hafter⟩ := hstep.rows
    have hcounted := (hs.1.rows_same hbefore).steps hpath
    exact ⟨hcounted.rows_same hafter,
      ((hs.2.rows_same hbefore hs.1).steps hpath).rows_same hafter hcounted⟩
  exact hboth.2

/-- What holds of the empty log and is kept by every command and by the start and the end of
a refresh holds of the log in every run. -/
theorem Reachable.commands_induct
    {I : List (DramEvent cfg) → Prop} (h : s.Reachable P) (hinit : I [])
    (hstep : ∀ s s' : Dram cfg, s.Clocked → I s.commands → BankStep (fun _ _ _ => True) s s' →
      I s'.commands)
    (hrefresh : ∀ t past, I past → I (.refreshStart t :: past) ∧ I (.refreshEnd t :: past)) :
    I s.commands := by
  have hrows {s s' : Dram cfg} (hsame : s.SameRows s') (hs : I s.commands) : I s'.commands := by
    rcases hsame.commands with hcommands | ⟨t, hcommands | hcommands⟩
    · exact hcommands ▸ hs
    · exact hcommands ▸ (hrefresh t _ hs).1
    · exact hcommands ▸ (hrefresh t _ hs).2
  refine h.induct (I := fun s => I s.commands) (fun _ => hinit)
    fun s input s' hs ih hen _ hcall => ?_
  have hcore : CoreStep (fun _ _ _ => True) s input s' :=
    call_coreStep (fun _ _ _ _ _ => trivial) hen hcall
  obtain ⟨s₁, s₂, hbefore, hpath, hafter⟩ := hcore.rows
  have hclocked : s₁.Clocked := hs.clocked.rows_same hbefore hs.counted
  have hlog : I s₂.commands := by
    clear hafter
    induction hpath with
    | refl => exact hrows hbefore ih
    | tail hpath hlast ih => exact hstep _ _ (hclocked.steps hpath) ih hlast
  exact hrows hafter hlog

end Dram

end PardG5V
