import Mathlib.Data.List.Infix
import PardG5V.Dram.Machines

/-!
# The timing of a row buffer

A row buffer may be precharged tRAS after its activate, tRTP after its last read command and tWR
after the end of its last write burst. The controller keeps one time for the two row buffers of a
bank, and an activate sets it anew: what the other row buffer still has to wait for is forgotten.

Results: `precharge_after_release`, `precharge_before_release`.
-/

namespace PardG5V

open Prog Relation BankLemmas

variable {cfg : DramConfig} {past : List (DramEvent cfg)} {s : Dram cfg}

/-! ## What a precharge waits for -/

namespace DramEvent

/-- The tick from which on the row buffer may be precharged, as far as the command is
concerned. -/
def release (buf : RowBuf cfg) : DramEvent cfg → Option Tick
  | .activate buf' _ tick => if buf' = buf then some (tick + cfg.tRAS) else none
  | .read buf' tick => if buf' = buf then some (tick + cfg.tRTP) else none
  | .write buf' doneAt => if buf' = buf then some (doneAt + cfg.tWR) else none
  | _ => none

def opens (buf : RowBuf cfg) : DramEvent cfg → Bool
  | .activate buf' _ _ => buf' == buf
  | _ => false

end DramEvent

/-- The releases of the commands to the row buffer back to the one that opened it. -/
def releases (buf : RowBuf cfg) : List (DramEvent cfg) → List Tick
  | [] => []
  | e :: past => (e.release buf).toList ++ if e.opens buf then [] else releases buf past

/-- Every precharge comes after the releases of its row buffer. -/
def Timed (past : List (DramEvent cfg)) : Prop :=
  ∀ later buf t earlier, past = later ++ .precharge buf t :: earlier →
    ∀ release ∈ releases buf earlier, release ≤ t

/-! ## Sparing the other row buffer -/

/-- The time of the bank that an activate at the tick sets does not lie before the one
it replaces, unless the other row buffers of the bank are closed. -/
def Gentle (banks : BankId cfg → Bank) (buf : RowBuf cfg) (tick : Tick) : Prop :=
  ∀ i, i ≠ buf.num → ((banks buf.bank).openRow i).isSome = true →
    (banks buf.bank).preAllowedAt ≤ tick + cfg.tRAS
deriving Decidable

namespace Dram

/-- When the next request event opens a row in a closed row buffer, the activate is gentle
to the other row buffer of the bank. -/
def Spares (s : Dram cfg) : DramInput → Prop
  | .event .nextReq => s.refreshState = .REF_IDLE → ∀ pkt ∈ s.next,
      s.openRow pkt.rowBuf = none →
        Gentle s.banks pkt.rowBuf (max (s.banks pkt.bankId).actAllowedAt s.curTick)
  | _ => True

structure RowTimes (s : Dram cfg) : Prop where
  held : ∀ buf, (s.openRow buf).isSome = true → ∀ release ∈ releases buf s.commands,
    release ≤ (s.banks buf.bank).preAllowedAt
  timed : Timed s.commands

end Dram

theorem timed_cons {e : DramEvent cfg} (h : Timed past)
    (he : ∀ buf t, e = .precharge buf t → ∀ release ∈ releases buf past, release ≤ t) :
    Timed (e :: past) := by
  intro later buf t earlier hpast
  cases later with
  | nil =>
    obtain ⟨rfl, rfl⟩ := List.cons.inj hpast
    exact he buf t rfl
  | cons x later =>
    obtain ⟨rfl, rfl⟩ := List.cons.inj hpast
    exact h later buf t earlier rfl

/-! ## Commands -/

namespace Dram.RowTimes

variable {s s' : Dram cfg} {buf : RowBuf cfg} {pkt : DRAMPacket cfg} {row : Row} {tick : Tick}

theorem activate (h : s.RowTimes) (hA : Gentle s.banks buf tick) :
    (s.activated buf row tick).RowTimes := by
  constructor
  · intro buf' hopen release hrelease
    obtain ⟨t, hbank, -, -⟩ := banks_activated s buf row tick buf'.bank
    rw [activated_commands] at hrelease
    rw [openRow_activated] at hopen
    rw [hbank]
    by_cases hbuf : buf' = buf
    · simp only [releases, DramEvent.release, DramEvent.opens, hbuf, if_true, Option.toList_some,
        beq_self_eq_true, List.append_nil, List.mem_singleton] at hrelease
      rw [hrelease, if_pos (by rw [hbuf])]
      exact Nat.le_refl _
    · rw [if_neg hbuf] at hopen
      have hne : buf ≠ buf' := fun h => hbuf h.symm
      simp only [releases, DramEvent.release, DramEvent.opens, if_neg hne, Option.toList_none,
        beq_eq_false_iff_ne.mpr hne, Bool.false_eq_true, if_false, List.nil_append] at hrelease
      have hheld := h.held buf' hopen release hrelease
      by_cases hid : buf'.bank = buf.bank
      · have hnum : buf'.num ≠ buf.num := fun hnum => hbuf (by cases buf'; cases buf; simp_all)
        rw [if_pos hid]
        rw [hid] at hheld
        exact Nat.le_trans hheld (hA buf'.num hnum (hid ▸ hopen))
      · rw [if_neg hid]
        exact hheld
  · rw [activated_commands]
    exact timed_cons h.timed (by rintro _ _ ⟨⟩)

theorem precharge (h : s.RowTimes) (hopen : (s.openRow buf).isSome = true)
    (hpre : (s.banks buf.bank).preAllowedAt ≤ tick) : (s.precharged buf tick).RowTimes := by
  constructor
  · intro buf' hopen' release hrelease
    rw [openRow_precharged] at hopen'
    by_cases hbuf : buf' = buf
    · simp [hbuf] at hopen'
    · rw [if_neg hbuf] at hopen'
      have hheld := h.held buf' hopen' release hrelease
      rw [banks_precharged]
      by_cases hid : buf'.bank = buf.bank
      · rw [if_pos hid]
        rw [hid] at hheld
        exact Nat.le_trans hheld hpre
      · rw [if_neg hid]
        exact hheld
  · refine timed_cons h.timed fun buf' t he release hrelease => ?_
    cases he
    exact Nat.le_trans (h.held buf hopen release hrelease) hpre

theorem access {cmdAt readyTime : Tick} (h : s.RowTimes) :
    (s.accessed pkt cmdAt readyTime).RowTimes := by
  constructor
  · intro buf hopen release hrelease
    rw [openRow_accessed] at hopen
    rw [accessed_commands] at hrelease
    have hbank : (s.banks buf.bank).preAllowedAt ≤
        ((s.accessed pkt cmdAt readyTime).banks buf.bank).preAllowedAt := by
      simp only [Dram.accessed, Dram.emit, banks_setBank]
      split
      · next hid => rw [hid]; exact Nat.le_max_left _ _
      · exact Nat.le_refl _
    simp only [releases, List.mem_append, Option.mem_toList] at hrelease
    rcases hrelease with hnew | hold
    · -- the command itself, which the bank now waits for
      have hbuf : pkt.rowBuf = buf ∧ release =
          if pkt.isRead then cmdAt + cfg.tRTP else readyTime + cfg.tWR := by
        cases hread : pkt.isRead with
        | true | false => simpa [hread, DramEvent.release, eq_comm] using hnew
      rw [hbuf.2, ← hbuf.1]
      simp only [Dram.accessed, Dram.emit, banks_setBank, DRAMPacket.rowBuf, if_true]
      exact Nat.le_max_right _ _
    · refine Nat.le_trans (h.held buf hopen release ?_) hbank
      cases hread : pkt.isRead with
      | true | false => simpa [hread, DramEvent.opens] using hold
  · rw [accessed_commands]
    refine timed_cons h.timed fun buf t he => ?_
    cases hread : pkt.isRead with
    | true | false => simp [hread] at he

theorem mono (h : s.RowTimes) (hrows : ∀ id, (s'.banks id).openRow = (s.banks id).openRow)
    (hpre : ∀ id, (s.banks id).preAllowedAt ≤ (s'.banks id).preAllowedAt)
    (hcommands : s'.commands = s.commands) : s'.RowTimes := by
  constructor
  · intro buf hopen release hrelease
    rw [hcommands] at hrelease
    unfold Dram.openRow at hopen
    rw [hrows] at hopen
    exact Nat.le_trans (h.held buf hopen release hrelease) (hpre buf.bank)
  · rw [hcommands]
    exact h.timed

theorem same (h : s.RowTimes) (hbanks : s'.banks = s.banks)
    (hcommands : s'.commands = s.commands) : s'.RowTimes :=
  h.mono (fun _ => by rw [hbanks]) (fun _ => by rw [hbanks]) hcommands

theorem core (h : s.RowTimes) (hcore : s.SameCore s') : s'.RowTimes :=
  h.same (congrArg DramCore.banks hcore) (congrArg DramCore.commands hcore)

theorem step (hstep : BankStep Gentle s s') (h : s.RowTimes) : s'.RowTimes := by
  cases hstep with
  | keep hcore => exact h.core hcore
  | activate _ _ _ _ hA => exact h.activate hA
  | precharge hopen hpre _ => exact h.precharge hopen hpre
  | access => exact h.access
  | @defer id bank hdefer =>
    refine h.mono (fun id' => ?_) (fun id' => ?_) rfl
    · rw [banks_setBank]
      split
      · next hid => rw [hid, hdefer.openRow]
      · rfl
    · rw [banks_setBank]
      split
      · next hid => rw [hid]; exact hdefer.pre
      · exact Nat.le_refl _

theorem steps (hpath : BankSteps Gentle s s') (h : s.RowTimes) : s'.RowTimes := by
  induction hpath with
  | refl => exact h
  | tail _ hstep ih => exact ih.step hstep

/-! ## Inputs -/

/-- The start and the end of a refresh are no commands to a row buffer. -/
theorem rows_same (hrows : s.SameRows s') (h : s.RowTimes) : s'.RowTimes := by
  have hpre (id : BankId cfg) : (s.banks id).preAllowedAt ≤ (s'.banks id).preAllowedAt :=
    Nat.le_of_eq (hrows.preAllowedAt id).symm
  rcases hrows.commands with hcommands | ⟨t, hcommands | hcommands⟩
  · exact h.mono hrows.openRow hpre hcommands
  · have hlogged : (s.emit (.refreshStart t)).RowTimes :=
      ⟨fun buf => h.held buf, timed_cons h.timed (by rintro _ _ ⟨⟩)⟩
    exact hlogged.mono hrows.openRow hpre hcommands
  · have hlogged : (s.emit (.refreshEnd t)).RowTimes :=
      ⟨fun buf => h.held buf, timed_cons h.timed (by rintro _ _ ⟨⟩)⟩
    exact hlogged.mono hrows.openRow hpre hcommands

theorem startup (now : Tick) : (Dram.startup cfg now).RowTimes := by
  constructor
  · intro buf hopen
    exact Bool.noConfusion hopen
  · intro later buf t earlier hpast
    cases later <;> cases hpast

end Dram.RowTimes

/-! ## Runs -/

/-- A row buffer in which another row is open is precharged first, and the activate comes
after that precharge. -/
theorem Dram.Spares.opens (h : s.Spares (.event .nextReq))
    (hidle : s.refreshState = .REF_IDLE) {pkt : DRAMPacket cfg} (hpkt : pkt ∈ s.next) :
    s.Opens Gentle pkt := by
  intro _
  cases hopen : s.openRow pkt.rowBuf with
  | none =>
    have hgentle := h hidle pkt hpkt hopen
    unfold Dram.prepared
    rw [hopen]
    exact hgentle
  | some row =>
    intro i _ _
    have hbank : s.prepared pkt pkt.bankId = (s.banks pkt.bankId).closed cfg pkt.rowbuf
        (max (s.banks pkt.bankId).preAllowedAt s.curTick) := by
      unfold Dram.prepared
      rw [hopen, Option.isSome_some, if_pos rfl, banks_precharged]
      exact if_pos rfl
    show (s.prepared pkt pkt.bankId).preAllowedAt ≤ _
    rw [hbank]
    refine Nat.le_trans ?_ (Nat.le_add_right _ _)
    refine Nat.le_trans ?_ (Nat.le_max_left _ _)
    exact Nat.le_trans (Nat.le_add_right _ cfg.tRP) (Nat.le_max_right _ _)

/-- An input that spares the other row buffers makes gentle activates only. -/
theorem Dram.Spares.coreStep {s' : Dram cfg} {input : DramInput} (h : s.Spares input)
    (hen : s.Enabled input) (hcall : DramM.call input s = .ok ((), s')) :
    CoreStep Gentle s input s' := by
  refine call_coreStep (fun hinput hidle pkt hpkt => ?_) hen hcall
  subst hinput
  exact h.opens hidle hpkt

theorem Dram.Reachable.rowTimes (h : s.Reachable Spares) : s.RowTimes := by
  refine h.induct RowTimes.startup fun s input s' _ hs hen hspares hcall => ?_
  obtain ⟨s₁, s₂, hbefore, hpath, hafter⟩ := (hspares.coreStep hen hcall).rows
  exact ((hs.rows_same hbefore).steps hpath).rows_same hafter

/-- In every such run a row buffer is precharged no earlier than tRAS after its activate, tRTP after
its reads and tWR after its writes. -/
theorem precharge_after_release {s : Dram cfg} (h : s.Reachable Dram.Spares)
    {later earlier : List (DramEvent cfg)} {buf : RowBuf cfg} {t : Tick}
    (hlog : s.commands = later ++ .precharge buf t :: earlier) :
    ∀ release ∈ releases buf earlier, release ≤ t :=
  h.rowTimes.timed later buf t earlier hlog

/-! ## Two row buffers of one bank -/

instance (s : Dram cfg) : DecidablePred s.Spares
  | .event .nextReq => by unfold Dram.Spares; infer_instance
  | .event .respond | .event .activate | .event .precharge | .event .refresh | .event .power
  | .timingReq _ | .drain | .set _ | .advance _ => .isTrue trivial

/-- Some precharge passes the test, which sees what came before it. -/
def anyPrecharge (test : RowBuf cfg → Tick → List (DramEvent cfg) → Bool)
    (past : List (DramEvent cfg)) : Bool :=
  past.tails.any fun
    | .precharge buf t :: earlier => test buf t earlier
    | _ => false

theorem exists_precharge {test : RowBuf cfg → Tick → List (DramEvent cfg) → Bool}
    (h : anyPrecharge test past = true) :
    ∃ later buf t earlier, past = later ++ .precharge buf t :: earlier ∧
      test buf t earlier = true := by
  obtain ⟨tail, htail, htest⟩ := List.any_eq_true.mp h
  obtain ⟨later, rfl⟩ := (List.mem_tails _ _).mp htail
  split at htest
  · next buf t earlier => exact ⟨later, buf, t, earlier, rfl, htest⟩
  · exact Bool.noConfusion htest

/-- A read of one row and then a read of another one in the same row buffer. -/
theorem precharge_after_release_conflict :
    ∃ (s : Dram .oneBank) (later : List (DramEvent .oneBank)) (buf : RowBuf .oneBank) (t : Tick)
      (earlier : List (DramEvent .oneBank)),
      s.Reachable Dram.Spares ∧ s.commands = later ++ .precharge buf t :: earlier ∧
      releases buf earlier ≠ [] ∧ ∀ release ∈ releases buf earlier, release ≤ t := by
  obtain ⟨s, hs, htest⟩ := Dram.exists_reachable (P := Dram.Spares) 0
    [.timingReq (ldomReq .ReadReq 0 1), .timingReq (ldomReq .ReadReq 0 2), .event .nextReq,
      .event .activate, .event .power, .advance 1, .event .nextReq]
    (fun s : Dram .oneBank => anyPrecharge (fun buf _ earlier => !(releases buf earlier).isEmpty)
      s.commands = true) (by decide +kernel)
  obtain ⟨later, buf, t, earlier, hlog, hsome⟩ := exists_precharge htest
  exact ⟨s, later, buf, t, earlier, hs, hlog, by simpa using hsome,
    precharge_after_release hs hlog⟩

/-- LDom 0 writes a row, LDom 1 reads another row of the bank, and the next read of LDom 0 closes
its row buffer at tick 10: the write burst ended at tick 8, and tWR is 20. -/
theorem precharge_before_release :
    ∃ (s : Dram .oneBank) (later : List (DramEvent .oneBank)) (buf : RowBuf .oneBank) (t : Tick)
      (earlier : List (DramEvent .oneBank)),
      s.Reachable (fun _ _ => True) ∧ s.commands = later ++ .precharge buf t :: earlier ∧
      ∃ release ∈ releases buf earlier, t < release := by
  obtain ⟨s, hs, htest⟩ := Dram.exists_reachable (P := fun _ _ => True) 0
    [.set ⟨1, 2, 2⟩, .timingReq (ldomReq .WriteReq 0 1), .event .nextReq, .advance 1,
      .event .nextReq, .event .activate, .event .power, .timingReq (ldomReq .ReadReq 1 2),
      .advance 5, .event .nextReq, .event .activate, .advance 6,
      .timingReq (ldomReq .ReadReq 0 3), .event .nextReq]
    (fun s : Dram .oneBank => anyPrecharge (fun buf t earlier => (releases buf earlier).any (t < ·))
      s.commands = true) (by decide +kernel)
  obtain ⟨later, buf, t, earlier, hlog, hlate⟩ := exists_precharge htest
  obtain ⟨release, hmem, hlt⟩ := List.any_eq_true.mp hlate
  exact ⟨s, later, buf, t, earlier, hs, hlog, release, hmem, of_decide_eq_true hlt⟩

end PardG5V
