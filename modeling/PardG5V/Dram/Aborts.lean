import PardG5V.Dram.Machines

/-!
# Which functions can stop where

The handlers of the refresh and power state machines contain the assertions of these machines, the
commands to the banks those on open rows, and the handling of requests only plain assertions. So a
set of errors that leaves one part out is avoided by all functions of that part.
-/

namespace PardG5V

open Prog BankLemmas MachineLemmas

variable {cfg : DramConfig}

/-- The abort comes from the refresh or the power state machine. -/
def DramAbort.OfMachines : DramAbort → Prop
  | .refreshAssertion => True
  | .powerPending => True
  | _ => False

structure NotOfBanks (bad : DramAbort → Prop) : Prop extends NotOfQueues bad where
  row : ¬ bad .rowAssertion
  window : ¬ bad .windowPanic

structure NotOfMachines (bad : DramAbort → Prop) : Prop where
  assertion : ¬ bad .refreshAssertion
  delayed : ¬ bad .refreshDelayed

structure Dram.PowerFree (s : Dram cfg) (input : DramInput) : Prop where
  activate : input = .event .activate → s.pwrState ≠ .PWR_ACT → s.powerEvent = none
  precharge : input = .event .precharge → s.powerEvent = none
  refresh : input = .event .refresh → s.Precharges → s.pwrState = .PWR_IDLE → s.powerEvent = none

theorem DramAbort.OfMachines.notOfBanks : NotOfBanks DramAbort.OfMachines := ⟨⟨id, id, id⟩, id, id⟩

namespace DramAbortLemmas

variable {s : Dram cfg} {abort : DramAbort} {bad : DramAbort → Prop} {c : Bool} {tick : Tick}
  {buf : RowBuf cfg} {others : List (DRAMPacket cfg)}

theorem check_safe (h : ¬ bad abort) : Safe bad (DramM.check abort c : DramM cfg Unit) :=
  .ite (fun _ => .pure) fun _ => .throw h

/-- An assertion that holds is passed. -/
theorem check_bind {β : Type} {f : Unit → DramM cfg β}
    (hbad : bad abort → c = true) (hf : c = true → Avoids bad (f () s)) :
    Avoids bad ((DramM.check abort c >>= f) s) := by
  cases c with
  | true => exact hf rfl
  | false => exact .error fun h => Bool.noConfusion (hbad h)

/-! ## An access -/

theorem activateBank_safe (hb : NotOfBanks bad) {row : Row} :
    Safe bad (activateBank tick buf row) := by
  refine .bind .get fun _ => .bind (check_safe hb.assertion) fun _ => ?_
  refine .bind (check_safe hb.row) fun _ => .bind (check_safe hb.row) fun _ => ?_
  refine .bind .modify fun _ => .bind .get fun _ => .bind (check_safe hb.row) fun _ => .when ?_
  exact .bind (check_safe hb.window) fun _ => .modify

theorem prechargeBank_safe (hr : ¬ bad .rowAssertion) : Safe bad (prechargeBank buf tick) := by
  refine .bind .get fun _ => .bind (check_safe hr) fun _ => ?_
  exact .bind (check_safe hr) fun _ => .bind (check_safe hr) fun _ => .modify

variable {pkt : DRAMPacket cfg}

theorem openRowFor_safe (hb : NotOfBanks bad) : Safe bad (openRowFor pkt) := by
  refine .bind .get fun _ => .bind (.when (prechargeBank_safe hb.row)) fun _ => ?_
  exact .bind .get fun _ => activateBank_safe hb

theorem columnAccess_safe (hq : NotOfQueues bad) (hr : ¬ bad .rowAssertion) {cmdAt : Tick} :
    Safe bad (columnAccess pkt others cmdAt) := by
  refine .bind .get fun _ => .bind (check_safe hq.assertion) fun _ => .bind .modify fun _ => ?_
  refine .bind .get fun _ => .bind (.when (prechargeBank_safe hr)) fun _ => ?_
  exact .bind .modify fun _ => .pure

theorem doDRAMAccess_safe (hb : NotOfBanks bad) : Safe bad (doDRAMAccess pkt others) := by
  refine .bind .get fun _ => .ite (fun _ => ?_) fun _ => ?_
  · refine .bind (columnAccess_safe hb.toNotOfQueues hb.row) fun _ => ?_
    exact .bind (countAccess_plain hb.toNotOfQueues).2 fun _ => .pure
  · refine .bind (openRowFor_safe hb) fun _ => .bind .get fun _ => ?_
    refine .bind (columnAccess_safe hb.toNotOfQueues hb.row) fun _ => ?_
    exact .bind (countAccess_plain hb.toNotOfQueues).2 fun _ => .pure

theorem refreshPrecharge_safe (hr : ¬ bad .rowAssertion) {preAt : Tick} {id : BankId cfg} :
    Safe bad (refreshPrecharge preAt id) := by
  refine .bind .get fun _ => .ite (fun _ => .modify) fun _ => .forEach (fun _ => ?_) _
  refine .bind .get fun _ => .when ?_
  exact .bind (prechargeBank_safe hr) fun _ => .modify

/-! ## The request event -/

theorem serveRead_avoids (hq : NotOfQueues bad)
    (haccess : ∀ pkt rest, s.chooseNext s.readQueue = pkt :: rest →
      Avoids bad (doDRAMAccess pkt rest { s with readQueue := pkt :: rest })) :
    Avoids bad (serveRead s) := by
  refine .get_bind ?_
  cases hchoose : s.chooseNext s.readQueue with
  | nil =>
    refine .run_ite (fun _ => .ok) fun _ => ?_
    exact Safe.bind (.when .modify) (fun _ => .pure) s
  | cons pkt rest =>
    refine .modify_bind (.run_bind (haccess pkt rest hchoose) fun _ s₁ _ => .modify_bind ?_)
    refine Safe.bind (queueResponse_plain hq).2 (fun _ => .bind .get fun _ => ?_) _
    exact .bind (.when .modify) fun _ => .pure

theorem serveWrite_avoids (hq : NotOfQueues bad)
    (haccess : ∀ pkt rest, s.chooseNext s.writeQueue = pkt :: rest →
      Avoids bad (doDRAMAccess pkt rest { s with writeQueue := pkt :: rest })) :
    Avoids bad (serveWrite s) := by
  refine .get_bind ?_
  cases hchoose : s.chooseNext s.writeQueue with
  | nil => exact .error hq.assertion
  | cons pkt rest =>
    refine .modify_bind (check_bind (fun h => absurd h hq.assertion) fun _ => ?_)
    refine .run_bind (haccess pkt rest hchoose).discard fun _ s₁ _ => ?_
    refine .modify_bind (.get_bind ?_)
    exact Safe.bind (.when .modify) (fun _ => .pure) _

theorem serveRead_safe (hb : NotOfBanks bad) : Safe bad (serveRead : DramM cfg Bool) :=
  fun _ => serveRead_avoids hb.toNotOfQueues fun _ _ _ => doDRAMAccess_safe hb _

theorem serveWrite_safe (hb : NotOfBanks bad) : Safe bad (serveWrite : DramM cfg Bool) :=
  fun _ => serveWrite_avoids hb.toNotOfQueues fun _ _ _ => doDRAMAccess_safe hb _

/-! ## Errors of commands -/

theorem processNextReqEvent_avoids_access (hq : NotOfQueues bad) (hm : NotOfMachines bad)
    (haccess : s.refreshState = .REF_IDLE → ∀ pkt ∈ s.next, ∀ rest s₀, s.SameCore s₀ →
      Avoids bad (doDRAMAccess pkt rest s₀)) :
    Avoids bad (processNextReqEvent (s.stopTimer .nextReq)) := by
  refine .modify_bind (.get_bind ?_)
  have hstop : s.SameCore (s.stopTimer .nextReq) := rfl
  have hturn : s.SameCore (s.stopTimer .nextReq).turnedAround :=
    trans_of Dram.SameCore hstop (turnedAround_core _)
  have hagain (again : Bool) : Safe bad (when again requestAgain : DramM cfg Unit) :=
    .when (requestAgain_plain hq).2
  unfold Dram.next at haccess
  cases hstate : (s.stopTimer .nextReq).turnedAround.refreshState with
  | REF_IDLE =>
    have hidle : s.refreshState = .REF_IDLE :=
      (Dram.SameMachines.ofCore hturn).refreshState.symm.trans hstate
    refine .run_ite (fun hread => ?_) fun hwrite => ?_
    · refine (serveRead_avoids hq fun pkt rest hchoose => ?_).run_bind fun again _ _ =>
        hagain again _
      refine haccess hidle pkt ?_ rest _ (trans_of Dram.SameCore hturn rfl)
      rw [if_pos hread, hchoose]
      rfl
    · refine (serveWrite_avoids hq fun pkt rest hchoose => ?_).run_bind fun again _ _ =>
        hagain again _
      refine haccess hidle pkt ?_ rest _ (trans_of Dram.SameCore hturn rfl)
      rw [if_neg hwrite, hchoose]
      rfl
  | REF_DRAIN =>
    refine Safe.bind .get (fun _ => .bind (.lift ?_) fun _ => .modify) _
    exact schedule_avoids hm.assertion
  | REF_PRE | REF_RUN => exact .ok

theorem schedulePowerEvent_avoids (hm : NotOfMachines bad) {pwrState : PowerState}
    (hpower : bad .powerPending → s.powerEvent = none) :
    Avoids bad (schedulePowerEvent pwrState tick s) := by
  refine .get_bind (check_bind (fun h => absurd h hm.assertion) fun _ => ?_)
  exact check_bind (fun h => by rw [hpower h]; rfl) fun _ => .ok

/-- The start of a refresh asserts that no power event is pending. -/
theorem runRefresh_safe (hm : NotOfMachines bad) : Safe bad (runRefresh : DramM cfg Unit) := by
  intro s
  have hassert {c : Bool} (h : bad .refreshAssertion) : c = true := absurd h hm.assertion
  refine .get_bind (check_bind hassert fun _ => check_bind hassert fun _ => .modify_bind ?_)
  refine check_bind (fun h => absurd h hm.delayed) fun _ => ?_
  refine .lift_bind (schedule_avoids hm.assertion) fun _ _ => .modify_bind ?_
  refine check_bind hassert fun hnone => schedulePowerEvent_avoids hm fun _ => ?_
  exact Option.isNone_iff_eq_none.mp hnone

/-- The precharge of all row buffers is the only part of a refresh with commands, and a power
event is scheduled in its place in the idle state. -/
theorem processRefreshEvent_avoids_loop (hm : NotOfMachines bad)
    (hpower : bad .powerPending → s.Precharges → s.pwrState = .PWR_IDLE → s.powerEvent = none)
    (hloop : ∀ s₀, s₀.banks = s.banks → s₀.numBanksActive = s.numBanksActive →
      Avoids bad (forEach (refreshPrecharge s₀.precharge) (BankId.all cfg) s₀)) :
    Avoids bad (processRefreshEvent s) := by
  have hend : Safe bad (do
      modify fun s => { s with refreshState := .REF_RUN }
      let s ← get
      DramM.check .refreshAssertion (s.numBanksActive == 0) : DramM cfg Unit) :=
    .bind .modify fun _ => .bind .get fun _ => check_safe hm.assertion
  refine .modify_bind (.get_bind ?_)
  rcases drained_cases s with ⟨_, due, heq⟩ | ⟨hpre, due, heq⟩ | ⟨hrun, heq⟩
  · rw [heq]
    exact .ok
  · rw [heq]
    refine .get_bind (.run_ite (fun _ => ?_) fun hidle => ?_)
    · refine .run_bind (hloop _ ?_ ?_) fun _ s₁ _ => hend s₁ <;> rfl
    · refine (schedulePowerEvent_avoids hm fun h => ?_).run_bind fun _ s₁ _ => hend s₁
      exact hpower h hpre (by simpa using hidle)
  · rw [heq, hrun]
    exact runRefresh_safe hm s

theorem enterIdle_safe_of_machines (hm : NotOfMachines bad) {prevState : PowerState} :
    Safe bad (enterIdle prevState : DramM cfg Unit) := by
  refine .ite (fun _ => .bind .modify fun _ => .bind .get fun _ => ?_) fun _ => ?_
  · exact .bind (.lift (schedule_avoids hm.assertion)) fun _ => .modify
  · refine .bind (check_safe hm.assertion) fun _ => .bind .get fun _ => .when ?_
    exact .bind (check_safe hm.assertion) fun _ => .modify

/-- A power event starts a refresh only when the row buffers are precharged. -/
theorem processPowerEvent_safe (hm : NotOfMachines bad) :
    Safe bad (processPowerEvent : DramM cfg Unit) := by
  intro s
  refine .get_bind (.modify_bind ?_)
  refine .run_bind (.whenever fun _ => enterIdle_safe_of_machines hm _) fun _ s₁ _ => .get_bind ?_
  refine .whenever fun _ => check_bind (fun h => absurd h hm.assertion) fun hrun => ?_
  have hrun : s₁.refreshState = .REF_RUN := by simpa using hrun
  refine .modify_bind (.get_bind ?_)
  rcases drained_cases s₁ with ⟨hne, -⟩ | ⟨hpre | hne, -⟩ | ⟨-, heq⟩
  · exact absurd hrun hne.1
  · cases hrun.symm.trans hpre
  · exact absurd hrun hne.1
  · rw [heq, hrun]
    exact runRefresh_safe hm s₁

/-- An input avoids errors that only commands have, when its access and the precharges of
a refresh avoid them and no second power event is scheduled. -/
theorem call_avoids_commands {input : DramInput} (hq : NotOfQueues bad) (hm : NotOfMachines bad)
    (hpower : bad .powerPending → s.PowerFree input)
    (haccess : input = .event .nextReq → s.refreshState = .REF_IDLE → ∀ pkt ∈ s.next, ∀ rest s₀,
      s.SameCore s₀ → Avoids bad (doDRAMAccess pkt rest s₀))
    (hloop : ∀ s₀, s₀.banks = s.banks → s₀.numBanksActive = s.numBanksActive →
      Avoids bad (forEach (refreshPrecharge s₀.precharge) (BankId.all cfg) s₀)) :
    Avoids bad (DramM.call input s) := by
  cases input with
  | event t =>
    refine .modify_bind ?_
    cases t with
    | nextReq => exact processNextReqEvent_avoids_access hq hm (haccess rfl)
    | respond => exact (processRespondEvent_plain hq).2 _
    | activate =>
      refine .get_bind (.whenever fun hact => schedulePowerEvent_avoids hm fun h => ?_)
      exact (hpower h).activate rfl (bne_iff_ne.mp hact)
    | precharge =>
      refine .get_bind (.whenever fun _ => schedulePowerEvent_avoids hm fun h => ?_)
      exact (hpower h).precharge rfl
    | refresh => exact processRefreshEvent_avoids_loop hm (fun h => (hpower h).refresh rfl) hloop
    | power => exact processPowerEvent_safe hm _
  | timingReq pkt => exact Safe.discard (recvTimingReq_plain hq pkt).2 _
  | drain | advance tick => exact .ok
  | set call => exact .get_bind (.lift_bind (ofExcept_avoids hq _) fun _ _ => .ok)

end DramAbortLemmas

end PardG5V
