import PardG5V.Dram.Aborts
import PardG5V.Dram.OpenRows
import PardG5V.Dram.Queues

/-!
# The bookkeeping of open rows

`activateBank` asserts that it finds a closed row buffer and `prechargeBank` that it finds an open
one, and both assert bounds on the two counts of open rows. The counts are right in every
reachable state, so these assertions hold. An access opens and closes one row buffer only, the one
that `decodeAddr` selected for the LDom of the request. Result: `open_row_bookkeeping`.
-/

namespace PardG5V

open Prog Relation BankLemmas DramAbortLemmas FrontLemmas QueueLemmas

variable {cfg : DramConfig}

/-! ## Definitions -/

/-- An assertion on open rows or their counts failed. -/
def RowError (e : DramAbort) : Prop := e = .rowAssertion

/-- The row buffer of the packet was selected for its LDom by a parameter table of `T`. -/
def DRAMPacket.SelectedBy (T : ParamTable → Prop) (pkt : DRAMPacket cfg) : Prop :=
  ∃ params, T params ∧ params.selectRowbuf (qosTagToLDomID pkt.qosTag) = .ok pkt.rowbuf

structure DramQueues.Selected (T : ParamTable → Prop) (q : DramQueues cfg) : Prop where
  reads : ∀ pkt ∈ q.readQueue, pkt.SelectedBy T
  writes : ∀ pkt ∈ q.writeQueue, pkt.SelectedBy T

namespace Dram

/-- Every bank counts its row buffers with an open row, and the controller counts the
banks with at least one of them. -/
structure RowsCounted (s : Dram cfg) : Prop where
  rows : ∀ id, (s.banks id).numRowsActive = (s.banks id).openRows
  banks : s.numBanksActive = (BankId.all cfg).countP fun id =>
    (List.finRange rowBufferCount).any fun i => ((s.banks id).openRow i).isSome

/-- No row buffer but this one was opened or closed. -/
def SameExcept (buf : RowBuf cfg) (s s' : Dram cfg) : Prop :=
  ∀ buf' ≠ buf, s'.openRow buf' = s.openRow buf'

instance (buf : RowBuf cfg) : IsPreorder (Dram cfg) (SameExcept buf) where
  refl _ _ _ := rfl
  trans _ _ _ h₁ h₂ buf' hne := (h₂ buf' hne).trans (h₁ buf' hne)

end Dram

/-- By the log, every activate found its row buffer closed and every precharge found it
open. -/
def WellBracketed : List (DramEvent cfg) → Prop
  | [] => True
  | .activate buf _ _ :: past => openedAt buf past = none ∧ WellBracketed past
  | .precharge buf _ :: past => (openedAt buf past).isSome = true ∧ WellBracketed past
  | _ :: past => WellBracketed past

/-! ## The assertions -/

namespace Bank

variable {bank : Bank} {i : Fin rowBufferCount}

theorem openRows_le (bank : Bank) : bank.openRows ≤ rowBufferCount := by
  unfold openRows
  exact Nat.le_trans List.countP_le_length (Nat.le_of_eq List.length_finRange)

theorem openRows_pos (h : (bank.openRow i).isSome = true) : bank.openRows ≠ 0 := by
  intro hzero
  rw [openRows_eq_zero_iff.mp hzero i] at h
  cases h

theorem any_open_eq (bank : Bank) :
    ((List.finRange rowBufferCount).any fun i => (bank.openRow i).isSome) =
      (bank.openRows != 0) := by
  rw [Bool.eq_iff_iff, List.any_eq_true, bne_iff_ne, ne_eq, openRows_eq_zero_iff]
  simp only [List.mem_finRange, true_and, not_forall, Option.isSome_iff_ne_none, ne_eq]

end Bank

theorem BankId.length_all : (BankId.all cfg).length = cfg.ranksPerChannel * cfg.banksPerRank := by
  unfold BankId.all
  rw [List.length_flatMap]
  simp

namespace BookLemmas

variable {s s' : Dram cfg} {buf : RowBuf cfg} {pkt : DRAMPacket cfg} {row : Row} {tick : Tick}
  {cmdAt preAt : Tick} {input : DramInput}

theorem notOfQueues : NotOfQueues RowError := ⟨nofun, nofun, nofun⟩

theorem notOfMachines : NotOfMachines RowError := ⟨nofun, nofun⟩

theorem prechargeBank_avoids (h : s.Counted) (hopen : (s.openRow buf).isSome = true) :
    Avoids RowError (prechargeBank buf tick s) := by
  have hrows : (s.banks buf.bank).numRowsActive ≠ 0 := by
    rw [h.rows]
    exact Bank.openRows_pos hopen
  have hbanks : s.numBanksActive ≠ 0 := by
    rw [h.banks]
    refine Nat.ne_of_gt (List.countP_pos_iff.mpr ⟨buf.bank, BankId.mem_all _, ?_⟩)
    exact bne_iff_ne.mpr hrows
  refine .get_bind (check_bind (fun _ => hopen) fun _ => ?_)
  refine check_bind (fun _ => bne_iff_ne.mpr hrows) fun _ => check_bind (fun _ => ?_) fun _ => .ok
  rw [bne_iff_ne.mpr hbanks, Bool.or_true]

theorem activateBank_avoids (h : s.Counted) (hclosed : s.openRow buf = none) :
    Avoids RowError (activateBank tick buf row s) := by
  have hafter : (s.activated buf row tick).Counted := h.activate hclosed
  have hgain : ((s.banks buf.bank).opened cfg buf.num row tick).openRows =
      (s.banks buf.bank).openRows + 1 := Bank.openRows_opened hclosed
  refine .get_bind (check_bind (fun h => nomatch h) fun _ => check_bind (fun _ => ?_) fun _ => ?_)
  · rw [hclosed]
    rfl
  refine check_bind (fun _ => decide_eq_true ?_) fun _ => .modify_bind (.get_bind ?_)
  · rw [h.rows, ← hgain]
    exact Bank.openRows_le _
  refine check_bind (fun _ => decide_eq_true ?_) fun _ => .whenever fun _ => ?_
  · -- the window does not change the number of active banks
    show (if (s.banks buf.bank).numRowsActive = 0 then s.numBanksActive + 1
      else s.numBanksActive) ≤ _
    rw [← Dram.activated_numBanksActive s buf row tick, hafter.banks, Nat.mul_comm,
      ← BankId.length_all]
    exact List.countP_le_length
  · exact check_bind (fun h => nomatch h) fun _ => .ok

theorem openRowFor_avoids (h : s.Counted) : Avoids RowError (openRowFor pkt s) := by
  refine .get_bind (.run_bind (.whenever fun hopen => prechargeBank_avoids h hopen) ?_)
  intro _ s₁ hpre
  have hs₁ : s₁.Counted ∧ s₁.openRow pkt.rowBuf = none := by
    rcases when_eq_ok.mp hpre with ⟨hopen, hpre⟩ | ⟨hclosed, rfl⟩
    · obtain ⟨-, rfl⟩ := prechargeBank_eq_ok hpre
      refine ⟨h.precharge hopen, ?_⟩
      rw [openRow_precharged, if_pos rfl]
    · exact ⟨h, by simpa using hclosed⟩
  exact .get_bind (activateBank_avoids hs₁.1 hs₁.2)

variable {others : List (DRAMPacket cfg)}

theorem columnAccess_avoids (h : s.Counted)
    (hopen : s.openRow pkt.rowBuf = some pkt.row) (hcol : (s.banks pkt.bankId).colAllowedAt ≤ cmdAt)
    (hnow : s.curTick ≤ cmdAt) : Avoids RowError (columnAccess pkt others cmdAt s) := by
  refine .get_bind (check_bind (fun h => nomatch h) fun _ => .modify_bind (.get_bind ?_))
  refine .run_bind (.whenever fun _ => ?_) fun _ _ _ => .ok
  generalize hcmd : max cmdAt (s.busBusyUntil - cfg.tCL) = cmd
  have hle : cmdAt ≤ cmd := hcmd ▸ Nat.le_max_left _ _
  have hstep : BankStep (fun _ _ _ => True) s
      (s.accessed pkt cmd (cmd + cfg.tCL + cfg.tBURST)) :=
    .access hopen (Nat.le_trans hcol hle) (Nat.le_trans hnow hle) rfl
  refine prechargeBank_avoids (h.step hstep) ?_
  rw [openRow_accessed, hopen]
  rfl

theorem doDRAMAccess_avoids_rows (h : s.Counted) : Avoids RowError (doDRAMAccess pkt others s) := by
  have hcount (rowHit : Bool) (times : Tick × Tick) : Safe RowError (do
      countAccess pkt rowHit times.1 times.2
      return { pkt with readyTime := times.2 }) :=
    .bind (countAccess_plain notOfQueues).2 fun _ => .pure
  refine .get_bind (.run_ite (fun hhit => ?_) fun hmiss => ?_)
  · have hopen : s.openRow pkt.rowBuf = some pkt.row := by simpa [Dram.rowHit] using hhit
    refine .run_bind (columnAccess_avoids h hopen ?_ ?_) fun times s₁ _ => hcount true times s₁
    · exact Nat.le_max_left _ _
    · exact Nat.le_max_right _ _
  · refine .run_bind (openRowFor_avoids h) fun _ s₁ hopen => .get_bind ?_
    have hpath : BankSteps (fun _ _ _ => True) s s₁ ∧ _ ∧ _ :=
      openRowFor_path (fun _ => trivial) (Bool.eq_false_iff.mpr hmiss) hopen
    refine .run_bind (columnAccess_avoids (h.steps hpath.1) hpath.2.1 (Nat.le_refl _) hpath.2.2) ?_
    exact fun times s₂ _ => hcount false times s₂

theorem refreshPrechargeBuf_avoids (h : s.Counted) :
    Avoids RowError (refreshPrechargeBuf preAt buf s) := by
  refine .get_bind (.whenever fun hopen => ?_)
  exact .run_bind (prechargeBank_avoids h hopen) fun _ _ _ => .ok

theorem counted_steps (hpath : BankSteps (fun _ _ _ => True) s s')
    (hs : s.Counted ∧ s.curTick ≤ preAt) : s'.Counted ∧ s'.curTick ≤ preAt :=
  ⟨hs.1.steps hpath, (machines_of_steps hpath).curTick ▸ hs.2⟩

theorem refreshPrecharge_avoids {id : BankId cfg}
    (hs : s.Counted ∧ s.curTick ≤ preAt) : Avoids RowError (refreshPrecharge preAt id s) := by
  refine .get_bind (.run_ite (fun _ => .ok) fun _ => ?_)
  refine Avoids.forEach (I := fun s => s.Counted ∧ s.curTick ≤ preAt) ?_ ?_ _ hs
  · exact fun _ _ hs => refreshPrechargeBuf_avoids hs.1
  · exact fun _ _ _ hs h => counted_steps (refreshPrechargeBuf_path hs.2 h) hs

theorem prechargeRows_avoids_rows (h : s.Counted) :
    Avoids RowError (forEach (refreshPrecharge s.precharge) (BankId.all cfg) s) := by
  refine Avoids.forEach (I := fun t => t.Counted ∧ t.curTick ≤ s.precharge) ?_ ?_ _
    ⟨h, le_foldl_max _ _ _⟩
  · exact fun _ _ hs => refreshPrecharge_avoids hs
  · exact fun _ _ _ hs h => counted_steps (refreshPrecharge_path hs.2 h) hs

/-! ## Row buffers that an access leaves alone -/

theorem activateBank_sameExcept : Follows (Dram.SameExcept buf) (activateBank tick buf row) := by
  intro s _ s' h buf' hne
  obtain ⟨-, -, -, rfl⟩ := activateBank_eq_ok h
  rw [openRow_activated, if_neg hne]

theorem prechargeBank_sameExcept : Follows (Dram.SameExcept buf) (prechargeBank buf tick) := by
  intro s _ s' h buf' hne
  obtain ⟨-, rfl⟩ := prechargeBank_eq_ok h
  rw [openRow_precharged, if_neg hne]

theorem check_sameExcept {abort : DramAbort} {c : Bool} :
    Follows (Dram.SameExcept buf) (DramM.check abort c) := by
  intro s _ s' h
  obtain ⟨_, rfl⟩ := DramM.check_eq_ok.mp h
  exact refl_of _ s

theorem columnAccess_sameExcept :
    Follows (Dram.SameExcept pkt.rowBuf) (columnAccess pkt others cmdAt) := by
  refine .bind .get fun _ => .bind check_sameExcept fun _ => .bind (.modify fun s => ?_) fun _ => ?_
  · exact fun buf' _ => openRow_accessed s pkt _ _ buf'
  · refine .bind .get fun _ => .bind (.when fun _ => prechargeBank_sameExcept) fun _ => ?_
    exact .bind (.modify fun _ _ _ => rfl) fun _ => .pure

theorem doDRAMAccess_sameExcept :
    Follows (Dram.SameExcept pkt.rowBuf) (doDRAMAccess pkt others) := by
  have hcount (rowHit : Bool) (times : Tick × Tick) : Follows (Dram.SameExcept pkt.rowBuf) (do
      countAccess pkt rowHit times.1 times.2
      return { pkt with readyTime := times.2 }) :=
    .bind (.bind (.when fun _ => check_sameExcept) fun _ => .modify fun _ _ _ => rfl) fun _ => .pure
  refine .bind .get fun _ => .ite (fun _ => ?_) fun _ => ?_
  · exact .bind columnAccess_sameExcept fun times => hcount true times
  · refine .bind ?_ fun _ => .bind .get fun _ => ?_
    · refine .bind .get fun _ => .bind (.when fun _ => prechargeBank_sameExcept) fun _ => ?_
      exact .bind .get fun _ => activateBank_sameExcept
    · exact .bind columnAccess_sameExcept fun times => hcount false times

theorem sameExcept_of_core (hcore : s.SameCore s') : s.SameExcept buf s' := by
  intro buf' _
  unfold Dram.openRow
  rw [show s'.banks = s.banks from congrArg DramCore.banks hcore]

/-- Outside refresh, an input opens and closes no row buffer but that of the packet it serves. -/
theorem call_rows (hen : s.Enabled input) (h : DramM.call input s = .ok ((), s'))
    (hrefresh : input ≠ .event .refresh) (hbuf : s'.openRow buf ≠ s.openRow buf) :
    input = .event .nextReq ∧ ∃ pkt ∈ s.next, buf = pkt.rowBuf := by
  have hstep : CoreStep (fun _ _ _ => True) s input s' :=
    call_coreStep (fun _ _ _ _ _ => trivial) hen h
  have hsame (hopen : ∀ id, (s'.banks id).openRow = (s.banks id).openRow) : False :=
    hbuf (congrFun (hopen buf.bank) buf.num)
  cases hstep with
  | commands hidle hnext _ =>
    obtain ⟨pkt, hpkt⟩ := Option.ne_none_iff_exists'.mp hnext
    refine ⟨rfl, pkt, hpkt, ?_⟩
    simp only [DramM.call, bind_eq_ok, modify_eq_ok] at h
    obtain ⟨_, _, rfl, h⟩ := h
    have hexcept : s.SameExcept pkt.rowBuf s' := by
      refine processNextReqEvent_follows
        sameExcept_of_core hidle (fun pkt' hpkt' _ _ _ _ _ haccess => ?_) h
      obtain rfl : pkt = pkt' := Option.some.inj (hpkt.symm.trans hpkt')
      exact doDRAMAccess_sameExcept _ _ _ haccess
    by_contra hne
    exact hbuf (hexcept buf hne)
  | other hcore | handOver _ hcore =>
    refine (hsame fun id => ?_).elim
    rw [show s'.banks = s.banks from congrArg DramCore.banks hcore]
  | refreshDue | prechargeAll | refreshIdle | refreshAgain => exact (hrefresh rfl).elim
  | _ => exact (hsame fun _ => rfl).elim

/-! ## The row buffers of queued packets -/

theorem selected_step {T : ParamTable → Prop} {q q' : DramQueues cfg}
    {taken : List Packet} (h : q.Selected T) (hT : T q.params)
    (hstep : QueueStep q input taken q') : q'.Selected T := by
  have hdecode {request : Packet} {addr : Addr} {size : Nat} {isRead : Bool}
      {p : DRAMPacket cfg} (hp : Decoded q.params request addr size isRead p) : p.SelectedBy T :=
    ⟨q.params, hT, hp.qosTag ▸ hp.rowbuf⟩
  cases hstep with
  | same | set | forwarded | respond => exact ⟨h.reads, h.writes⟩
  | read _ _ _ hnew =>
    refine ⟨List.forall_mem_append.mpr ⟨h.reads, ?_⟩, h.writes⟩
    exact hnew.forall_mem fun _ p hp => (hdecode hp : p.SelectedBy T)
  | write _ _ _ _ hnew =>
    refine ⟨h.reads, hnew.forall_mem (fun _ w w' hw hsel => ?_) (fun _ _ => hdecode) h.writes⟩
    -- a merge moves the start and the size of an entry only
    obtain ⟨_, _, rfl⟩ := mergeInto_eq hw
    exact hsel
  | serveRead hperm =>
    exact ⟨fun p hp => h.reads p (hperm.subset (List.mem_cons_of_mem _ hp)), h.writes⟩
  | serveWrite hperm =>
    exact ⟨h.reads, fun p hp => h.writes p (hperm.subset (List.mem_cons_of_mem _ hp))⟩

theorem mem_of_next (h : pkt ∈ s.next) : pkt ∈ s.readQueue ∨ pkt ∈ s.writeQueue := by
  have hqueues : (s.stopTimer .nextReq).turnedAround.queues = s.queues := atRequest_queues s
  have hreads : (s.stopTimer .nextReq).turnedAround.readQueue = s.readQueue :=
    congrArg DramQueues.readQueue hqueues
  have hwrites : (s.stopTimer .nextReq).turnedAround.writeQueue = s.writeQueue :=
    congrArg DramQueues.writeQueue hqueues
  unfold Dram.next at h
  dsimp only at h
  split at h
  · have hmem := (chooseNext_perm _ _).subset (List.mem_of_mem_head? h)
    exact .inl (hreads ▸ hmem)
  · have hmem := (chooseNext_perm _ _).subset (List.mem_of_mem_head? h)
    exact .inr (hwrites ▸ hmem)

/-! ## The log -/

theorem wellBracketed_step {A : ActivateRule cfg}
    (hstep : BankStep A s s') (hs : s.Clocked) (h : WellBracketed s.commands) :
    WellBracketed s'.commands := by
  cases hstep with
  | keep hcore => rwa [show s'.commands = s.commands from congrArg DramCore.commands hcore]
  | activate _ hclosed =>
    rw [activated_commands]
    exact ⟨hs.openedAt_eq_none hclosed, h⟩
  | precharge hopen => exact ⟨(hs.opened _).trans hopen, h⟩
  | @access pkt =>
    rw [accessed_commands]
    cases pkt.isRead <;> exact h
  | defer => exact h

end BookLemmas

open BookLemmas

namespace Dram

variable {s : Dram cfg} {P : Dram cfg → DramInput → Prop}

/-- The row buffers of the queued packets were selected for their LDoms by tables of the
run. -/
theorem Reachable.selected {T : ParamTable → Prop} (h : s.Reachable fun s _ => T s.params) :
    s.queues.Selected T :=
  h.queues_induct ⟨fun _ hp => (List.not_mem_nil hp).elim, fun _ hp => (List.not_mem_nil hp).elim⟩
    fun _ _ _ _ hs hT hstep => selected_step hs hT hstep

theorem Reachable.wellBracketed (h : s.Reachable P) : WellBracketed s.commands :=
  h.commands_induct trivial (fun _ _ hs hlog hstep => wellBracketed_step hstep hs hlog)
    fun _ _ hpast => ⟨hpast, hpast⟩

theorem Reachable.avoids_rows (h : s.Reachable P) (input : DramInput) :
    Avoids RowError (DramM.call input s) := by
  refine call_avoids_commands notOfQueues notOfMachines nofun (fun _ _ pkt _ rest s₀ hcore => ?_)
    fun s₀ hbanks hnum => ?_
  · exact doDRAMAccess_avoids_rows (h.counted.core hcore)
  · exact prechargeRows_avoids_rows
      (h.counted.same hnum (fun _ => by rw [hbanks]) fun _ => by rw [hbanks])

theorem Reachable.rowsCounted (h : s.Reachable P) : s.RowsCounted := by
  refine ⟨h.counted.rows, h.counted.banks.trans (List.countP_congr fun id _ => ?_)⟩
  rw [Bank.any_open_eq, h.counted.rows]

end Dram

/-- In every reachable state the counts of open rows are right, every activate found its row buffer
closed and every precharge open, and no input fails the assertions on that. Outside refresh a row
buffer changes only with the access of a packet for which a table of the run selected it. -/
theorem open_row_bookkeeping {T : ParamTable → Prop} {s : Dram cfg}
    (h : s.Reachable fun s _ => T s.params) :
    s.RowsCounted ∧ WellBracketed s.commands ∧
    (∀ input, DramM.call input s ≠ .error .rowAssertion) ∧
    ∀ input s', s.Enabled input → DramM.call input s = .ok ((), s') → input ≠ .event .refresh →
      ∀ buf, s'.openRow buf ≠ s.openRow buf →
        input = .event .nextReq ∧ ∃ pkt ∈ s.next, buf = pkt.rowBuf ∧ pkt.SelectedBy T := by
  refine ⟨h.rowsCounted, h.wellBracketed, fun input herror => ?_, ?_⟩
  · exact h.avoids_rows input .rowAssertion herror rfl
  · intro input s' hen hcall hrefresh buf hbuf
    obtain ⟨hinput, pkt, hpkt, hrow⟩ := call_rows hen hcall hrefresh hbuf
    refine ⟨hinput, pkt, hpkt, hrow, ?_⟩
    rcases mem_of_next hpkt with hmem | hmem
    · exact h.selected.reads pkt hmem
    · exact h.selected.writes pkt hmem

/-- A read of one row is served, and the next access closes that row for another one. -/
theorem open_row_bookkeeping_conflict :
    ∃ s s' : Dram .oneBank, s.Reachable (fun _ _ => True) ∧ s.RowsCounted ∧ s.numBanksActive = 1 ∧
      DramM.call (.event .nextReq) s = .ok ((), s') ∧ ∃ buf, s'.openRow buf ≠ s.openRow buf ∧
        ∃ pkt ∈ s.next, buf = pkt.rowBuf ∧ pkt.SelectedBy fun _ => True := by
  obtain ⟨s, hs, hnum, hen, htest⟩ := Dram.exists_reachable (P := fun _ _ => True) 0
    [.timingReq (ldomReq .ReadReq 0 1), .timingReq (ldomReq .ReadReq 0 2), .event .nextReq,
      .event .activate, .event .power, .advance 1]
    (fun s : Dram .oneBank => s.numBanksActive = 1 ∧ s.Enabled (.event .nextReq) ∧
      (match DramM.call (.event .nextReq) s with
        | .ok (_, s') => (BankId.all _).any fun id => s'.openRow ⟨id, 0⟩ != s.openRow ⟨id, 0⟩
        | .error _ => false) = true) (by decide +kernel)
  split at htest
  · next s' hcall =>
      obtain ⟨id, -, hbuf⟩ := List.any_eq_true.mp htest
      obtain ⟨hcounted, -, -, hchange⟩ := open_row_bookkeeping (T := fun _ => True) hs
      obtain ⟨-, hpkt⟩ := hchange _ _ hen hcall nofun _ (bne_iff_ne.mp hbuf)
      exact ⟨s, s', hs, hcounted, hnum, hcall, _, bne_iff_ne.mp hbuf, hpkt⟩
  · cases htest

end PardG5V
