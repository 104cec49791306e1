import PardG5V.Arch.Walker

/-!
# The tags of page-table walks

A walk in timing or in atomic mode gives each packet the tag of its context just before it hands
the packet to the port, on every attempt. A walk in functional mode does not: its reads keep the
tag of a fresh request, whose guest id is 0xFF.

Results: `page_walk_tags`, `functional_walk_untagged`, `walk_rounds_le`.
-/

namespace PardG5V

open Prog

/-! ## Tags -/

namespace WalkPacket

/-- The tag of the packet names the guest of the context of its walk. -/
def InGuest (e : WalkPacket) : Prop := e.pkt.guestID = qosTagToGuestID e.qr0

structure Tagged (e : WalkPacket) : Prop where
  own : e.mode ≠ .functional → e.pkt.qosTag = e.qr0 ||| 0xe000000000000000
  fresh : e.mode = .functional → e.pkt.qosTag = Request.defaultQosTag

theorem Tagged.inGuest_iff {e : WalkPacket} (h : e.Tagged) :
    e.InGuest ↔ e.mode ≠ .functional ∨ qosTagToGuestID e.qr0 = 0xFF := by
  have hguest (tag : BitVec 64) :
      qosTagToGuestID (tag ||| 0xe000000000000000) = qosTagToGuestID tag := by
    unfold qosTagToGuestID
    rw [BitVec.and_comm, BitVec.and_or_distrib_left, BitVec.and_comm 0xFF tag]
    rw [show (0xFF &&& 0xe000000000000000 : BitVec 64) = 0#64 from rfl, BitVec.or_zero]
  have hdefault : qosTagToGuestID Request.defaultQosTag = 0xFF := by decide
  unfold InGuest Packet.guestID
  by_cases hmode : e.mode = .functional
  · rw [h.fresh hmode, hdefault]
    exact ⟨fun hff => .inr hff.symm, fun hff => (hff.resolve_left fun hne => hne hmode).symm⟩
  · rw [h.own hmode, hguest]
    exact ⟨fun _ => .inl hmode, fun _ => rfl⟩

end WalkPacket

def WalkerShared.Sends (s s' : WalkerShared) : Prop := ∀ e ∈ s'.sent, e ∈ s.sent ∨ e.Tagged

def Walk.Sends (w w' : Walk) : Prop := w.shared.Sends w'.shared

def Walker.Sends (w w' : Walker) : Prop := w.shared.Sends w'.shared

def Walk.Fresh (w : Walk) : Prop := ∀ pkt ∈ w.self.read, pkt.qosTag = Request.defaultQosTag

namespace WalkLemmas

variable {mode : AccessMode} {oldRead : Packet} {addr : Addr} {α : Type} {m : WalkM α}

theorem Sends.trans {s s₁ s' : WalkerShared} (h : s.Sends s₁) (h' : s₁.Sends s') : s.Sends s' :=
  fun e he => (h' e he).elim (h e) .inr

instance : IsPreorder Walk Walk.Sends where
  refl _ _ he := .inl he
  trans _ _ _ := Sends.trans

instance : IsPreorder Walker Walker.Sends where
  refl _ _ he := .inl he
  trans _ _ _ := Sends.trans

variable {w w' : Walk} {pkt pkt' : Packet} {b : Bool}

theorem modifySelf_sends {f : WalkerState → WalkerState} : Follows Walk.Sends (modifySelf f) :=
  .modify fun _ _ he => .inl he

/-- A packet with the tag for its mode is handed to the port. -/
theorem emit_sends (h : WalkPacket.Tagged ⟨mode, b, w.tcRegs.qr0, pkt⟩) :
    w.Sends (w.emit mode b pkt) := by
  intro e he
  rcases List.mem_cons.mp he with rfl | he
  · exact .inr h
  · exact .inl he

theorem sendTiming_sends (htag : pkt.qosTag = w.qosTag) (h : sendTiming pkt w = .ok (b, w')) :
    w.Sends w' := by
  simp only [sendTiming, bind_eq_ok, get_eq_ok, modify_eq_ok, pure_eq_ok] at h
  obtain ⟨_, _, ⟨rfl, rfl⟩, _, _, rfl, _, rfl⟩ := h
  exact emit_sends ⟨fun _ => htag, by rintro ⟨⟩⟩

theorem sendWrites_sends : ∀ writes : List Packet, Follows Walk.Sends (sendWrites writes)
  | [] => modifySelf_sends
  | write :: rest => by
      intro w u w' h
      simp only [sendWrites, bind_eq_ok, get_eq_ok] at h
      obtain ⟨_, _, ⟨rfl, rfl⟩, b, w₁, hsend, h⟩ := h
      refine Sends.trans (sendTiming_sends rfl hsend) ?_
      rcases ite_eq_ok.mp h with ⟨_, h⟩ | ⟨_, h⟩
      · exact (Follows.bind modifySelf_sends fun _ => sendWrites_sends rest) _ _ _ h
      · exact modifySelf_sends _ _ _ h

theorem sendPackets_sends : Follows Walk.Sends sendPackets := by
  intro w u w' h
  simp only [sendPackets, bind_eq_ok, get_eq_ok, ite_eq_ok, pure_eq_ok] at h
  obtain ⟨_, _, ⟨rfl, rfl⟩, ⟨_, _, rfl⟩ | ⟨_, h⟩⟩ := h
  · exact refl_of Walk.Sends _
  · cases hread : w.self.read with
    | none =>
      rw [hread] at h
      exact sendWrites_sends _ _ _ _ h
    | some pkt =>
      simp only [hread, bind_eq_ok, get_eq_ok] at h
      obtain ⟨_, _, ⟨rfl, rfl⟩, b, w₁, hsend, h⟩ := h
      refine Sends.trans (sendTiming_sends rfl hsend) ?_
      rcases ite_eq_ok.mp h with ⟨_, h⟩ | ⟨_, h⟩
      · exact (Follows.bind modifySelf_sends fun _ => sendWrites_sends _) _ _ _ h
      · exact modifySelf_sends _ _ _ h

/-! ## Steps of a walk -/

theorem currentRead_eq_ok : currentRead w = .ok (pkt, w') ↔ w.self.read = some pkt ∧ w = w' := by
  simp only [currentRead, bind_eq_ok, get_eq_ok]
  constructor
  · rintro ⟨_, _, ⟨rfl, rfl⟩, h⟩
    cases hread : w.self.read with
    | none => simp [hread] at h
    | some pkt =>
      simp only [hread, pure_eq_ok] at h
      exact ⟨congrArg some h.1, h.2⟩
  · rintro ⟨hread, rfl⟩
    exact ⟨w, w, ⟨rfl, rfl⟩, by simp [hread]⟩

theorem currentRead_sends : Follows Walk.Sends currentRead := by
  intro w pkt w' h
  obtain ⟨-, rfl⟩ := currentRead_eq_ok.mp h
  exact refl_of Walk.Sends w

variable {pte : PageTableEntry} {step : PteStep}

theorem stepFault_sends : Follows Walk.Sends (stepFault pte step) := by
  refine .ite (fun _ => ?_) fun _ => .pure
  rw [map_eq_pure_bind]
  exact .bind (.bind modifySelf_sends fun _ => .bind .get fun _ => .pure) fun _ => .pure

theorem endStep_sends : Follows Walk.Sends (endStep pte step) :=
  .bind stepFault_sends fun _ => .bind .get fun _ =>
    .bind (.when fun _ => .modify fun _ _ he => .inl he) fun _ =>
      .bind modifySelf_sends fun _ => .pure

theorem nextStep_sends : Follows Walk.Sends (nextStep oldRead pte step) :=
  .bind (.modify fun _ _ he => .inl he) fun _ =>
    .ite (fun _ => .bind .lift fun _ => .pure) fun _ => .pure

theorem stepWalk_sends : Follows Walk.Sends stepWalk :=
  .bind .get fun _ => .bind .lift fun _ => .bind currentRead_sends fun _ => .bind .lift fun _ =>
    .bind .lift fun _ => .bind modifySelf_sends fun _ =>
      .ite (fun _ => endStep_sends) fun _ => nextStep_sends

variable {r : Option PageFault × Option Packet}

theorem endStep_read (h : endStep pte step w = .ok (r, w')) : w'.self.read = none := by
  simp only [endStep, endWalk, modifySelf, bind_eq_ok, modify_eq_ok, pure_eq_ok] at h
  obtain ⟨_, _, -, _, _, -, _, _, -, _, _, rfl, -, rfl⟩ := h
  rfl

theorem nextStep_read (h : nextStep oldRead pte step w = .ok (r, w')) :
    w'.self.read = some (w.newRead step.nextRead oldRead.size pte.pcd) ∧
      w'.self.nextState = step.nextState := by
  simp only [nextStep, bind_eq_ok, modify_eq_ok, ite_eq_ok, lift_eq_ok, pure_eq_ok] at h
  obtain ⟨_, _, rfl, ⟨_, _, _, ⟨-, rfl⟩, -, rfl⟩ | ⟨_, -, rfl⟩⟩ := h
  · exact ⟨rfl, rfl⟩
  · exact ⟨rfl, rfl⟩

theorem stepWalk_read (h : stepWalk w = .ok (r, w')) :
    w'.self.read = none ∨ ∃ pte step addr size uncacheable,
      w.self.stepEntry pte = .ok step ∧ step.doEndWalk = false ∧
      w'.self.read = some (w.newRead addr size uncacheable) ∧
      w'.self.nextState = step.nextState := by
  simp only [stepWalk, modifySelf, bind_eq_ok, get_eq_ok, lift_eq_ok, modify_eq_ok, ite_eq_ok] at h
  obtain ⟨_, _, ⟨rfl, rfl⟩, _, _, ⟨-, rfl⟩, oldRead, _, hread, pte, _, ⟨-, rfl⟩, step, _,
    ⟨hstep, rfl⟩, _, _, rfl, h⟩ := h
  obtain ⟨-, rfl⟩ := currentRead_eq_ok.mp hread
  rcases h with ⟨_, h⟩ | ⟨hend, h⟩
  · exact .inl (endStep_read h)
  · obtain ⟨hread, hnext⟩ := nextStep_read h
    exact .inr ⟨pte, step, _, _, _, hstep, Bool.eq_false_iff.mpr hend, hread, hnext⟩

theorem newRead_fresh {size : Nat} {uncacheable : Bool} :
    (w.newRead addr size uncacheable).qosTag = Request.defaultQosTag := rfl

theorem stepWalk_fresh (h : stepWalk w = .ok (r, w')) : w'.Fresh := by
  rcases stepWalk_read h with hnone | ⟨_, _, _, _, _, _, _, hread, _⟩
  · intro pkt hpkt
    cases hnone.symm.trans hpkt
  · intro pkt hpkt
    cases hread.symm.trans hpkt
    exact newRead_fresh

/-! ## Walks in one call -/

theorem atomic_tagged (w : Walk) (pkt : Packet) :
    WalkPacket.Tagged ⟨.atomic, true, w.tcRegs.qr0, pkt.setQosTag w.qosTag⟩ :=
  ⟨fun _ => rfl, fun h => nomatch h⟩

theorem sendNow_sends (htag : WalkPacket.Tagged ⟨mode, true, w.tcRegs.qr0, pkt⟩)
    (h : sendNow mode pkt w = .ok (pkt', w')) : w.Sends w' := by
  have hsent := emit_sends (w := w) htag
  simp only [sendNow, bind_eq_ok, get_eq_ok, modify_eq_ok, ite_eq_ok, lift_eq_ok] at h
  obtain ⟨_, _, ⟨rfl, rfl⟩, _, _, rfl, h⟩ := h
  rcases h with ⟨_, _, _, rfl, _, _, ⟨-, rfl⟩, -, rfl⟩ | ⟨_, -, rfl⟩
  · exact hsent
  · exact hsent

theorem stepNow_sends : Follows Walk.Sends stepNow :=
  .bind stepWalk_sends fun _ => .bind .get fun _ => .bind .lift fun _ =>
    .bind modifySelf_sends fun _ => .pure

/-- A step leads to the read that `stepWalk` prepared, on the level that it chose. -/
theorem stepNow_read (h : stepNow w = .ok (r, w')) :
    ∃ w₁, stepWalk w = .ok (r, w₁) ∧ w'.self.read = w₁.self.read ∧
      w'.self.state = w₁.self.nextState := by
  simp only [stepNow, modifySelf, bind_eq_ok, get_eq_ok, lift_eq_ok, modify_eq_ok, pure_eq_ok] at h
  obtain ⟨⟨fault, write⟩, w₁, hstep, _, _, ⟨rfl, rfl⟩, _, _, ⟨-, rfl⟩, _, _, rfl, rfl, rfl⟩ := h
  exact ⟨w₁, hstep, rfl, rfl⟩

theorem atomicRound_sends : Follows Walk.Sends atomicRound := by
  intro w fault w' h
  simp only [atomicRound, bind_eq_ok, get_eq_ok] at h
  obtain ⟨pkt, _, hread, _, _, ⟨rfl, rfl⟩, pkt', w₁, hsend, _, w₂, hself, ⟨fault', write⟩, w₃,
    hstep, h⟩ := h
  obtain ⟨-, rfl⟩ := currentRead_eq_ok.mp hread
  have hw₁ := sendNow_sends (atomic_tagged w pkt) hsend
  have hw₃ := Sends.trans (Sends.trans hw₁ (modifySelf_sends _ _ _ hself))
    (stepNow_sends _ _ _ hstep)
  cases write with
  | none =>
    obtain ⟨-, rfl⟩ := pure_eq_ok.mp h
    exact hw₃
  | some write =>
    simp only [bind_eq_ok, get_eq_ok, discard_eq_ok, pure_eq_ok] at h
    obtain ⟨_, _, ⟨rfl, rfl⟩, _, w₄, ⟨_, hsend⟩, -, rfl⟩ := h
    exact Sends.trans hw₃ (sendNow_sends (atomic_tagged w₃ write) hsend)

/-- A round of a walk in functional mode sends a fresh read and prepares the next one. -/
theorem functionalRound_keeps {fault : Option PageFault} (hfresh : w.Fresh)
    (h : functionalRound w = .ok (fault, w')) : w.Sends w' ∧ w'.Fresh := by
  simp only [functionalRound, bind_eq_ok, pure_eq_ok] at h
  obtain ⟨pkt, _, hread, pkt', w₁, hsend, _, w₂, hself, ⟨_, _⟩, w₃, hstep, -, rfl⟩ := h
  obtain ⟨hpkt, rfl⟩ := currentRead_eq_ok.mp hread
  have hw₁ := sendNow_sends ⟨fun h => absurd rfl h, fun _ => hfresh pkt hpkt⟩ hsend
  obtain ⟨w₄, hwalk, hnext, -⟩ := stepNow_read hstep
  refine ⟨Sends.trans (Sends.trans hw₁ (modifySelf_sends _ _ _ hself))
    (stepNow_sends _ _ _ hstep), fun pkt hpkt => ?_⟩
  exact stepWalk_fresh hwalk pkt (hnext ▸ hpkt)

theorem atomicLoop_sends : ∀ n, Follows Walk.Sends (walkLoop atomicRound n)
  | 0 => fun _ _ _ h => (throw_ne_ok.mp h).elim
  | n + 1 => .bind atomicRound_sends fun _ => .bind .get fun _ =>
    .ite (fun _ => atomicLoop_sends n) fun _ => .pure

theorem functionalLoop_sends : ∀ (n : Nat) {w w' : Walk} {fault : Option PageFault}, w.Fresh →
    walkLoop functionalRound n w = .ok (fault, w') → w.Sends w'
  | 0, _, _, _, _, h => (throw_ne_ok.mp h).elim
  | n + 1, w, w', fault, hfresh, h => by
      simp only [walkLoop, bind_eq_ok, get_eq_ok, ite_eq_ok, pure_eq_ok] at h
      obtain ⟨_, w₁, hround, _, _, ⟨rfl, rfl⟩, ⟨_, h⟩ | ⟨_, -, rfl⟩⟩ := h
      · obtain ⟨hsends, hfresh₁⟩ := functionalRound_keeps hfresh hround
        exact Sends.trans hsends (functionalLoop_sends n hfresh₁ h)
      · exact (functionalRound_keeps hfresh hround).1

theorem setupWalk_spec {vaddr : Addr} (h : setupWalk vaddr w = .ok ((), w')) :
    w.Sends w' ∧ w'.Fresh := by
  simp only [setupWalk, modifySelf, bind_eq_ok, get_eq_ok, modify_eq_ok] at h
  obtain ⟨_, _, ⟨rfl, rfl⟩, rfl⟩ := h
  refine ⟨fun e he => .inl he, fun pkt hpkt => ?_⟩
  cases hpkt
  exact newRead_fresh

theorem startWalk_sends : Follows Walk.Sends startWalk := by
  refine .bind .get fun _ => .bind .lift fun _ => .bind modifySelf_sends fun _ => ?_
  refine .bind (fun w u w' h => (setupWalk_spec h).1) fun _ => .ite (fun _ => ?_) fun _ => ?_
  · exact .bind modifySelf_sends fun _ => .bind sendPackets_sends fun _ => .pure
  · exact .bind (atomicLoop_sends _) fun _ => .bind modifySelf_sends fun _ => .pure

theorem startFunctionalWalk_sends : Follows Walk.Sends (startFunctionalWalk addr) := by
  intro w result w' h
  simp only [startFunctionalWalk, bind_eq_ok, get_eq_ok, lift_eq_ok, pure_eq_ok] at h
  obtain ⟨_, _, ⟨rfl, rfl⟩, _, _, ⟨-, rfl⟩, _, w₁, hself, _, w₂, hsetup, _, w₃, hloop, _, _,
    ⟨rfl, rfl⟩, -, rfl⟩ := h
  obtain ⟨hsends, hfresh⟩ := setupWalk_spec hsetup
  exact Sends.trans (Sends.trans (modifySelf_sends _ _ _ hself) hsends)
    (functionalLoop_sends _ hfresh hloop)

/-! ## Responses and the walker -/

theorem recvPacket_sends : Follows Walk.Sends (recvPacket pkt) := by
  have hstep : Follows Walk.Sends (stepTiming pkt) :=
    .bind modifySelf_sends fun _ => .bind stepWalk_sends fun _ => .bind modifySelf_sends fun _ =>
      .bind .get fun _ => .lift
  refine .bind .get fun _ => .bind .lift fun _ => .bind .lift fun _ => .bind .lift fun _ => ?_
  refine .bind .lift fun _ => .bind modifySelf_sends fun _ => .bind (.when fun _ => hstep) ?_
  refine fun _ => .bind sendPackets_sends fun _ => .bind .get fun _ => .ite (fun _ => ?_) ?_
  · exact .bind modifySelf_sends fun _ => .bind (.modify fun _ _ he => .inl he) fun _ => .pure
  · exact fun _ => .pure

theorem onState_sends {s : WalkerState} (hm : Follows Walk.Sends m) :
    Follows Walker.Sends (Walker.onState s m) := by
  intro w a w' h
  simp only [Walker.onState, bind_eq_ok, get_eq_ok, lift_eq_ok, modify_eq_ok, pure_eq_ok] at h
  obtain ⟨_, _, ⟨rfl, rfl⟩, ⟨_, walk⟩, _, ⟨hrun, rfl⟩, _, _, rfl, -, rfl⟩ := h
  exact hm _ _ _ hrun

theorem onCurrent_sends {i : Nat} (hm : Follows Walk.Sends m) :
    Follows Walker.Sends (Walker.onCurrent i m) := by
  refine .bind .get fun w => ?_
  cases w.currStates[i]? with
  | none => exact fun _ _ _ h => (throw_ne_ok.mp h).elim
  | some s =>
    exact .bind (onState_sends hm) fun _ => .bind (.modify fun _ _ he => .inl he) fun _ => .pure

theorem dropSquashed_sends : ∀ n, Follows Walker.Sends (Walker.dropSquashed n)
  | 0 => .pure
  | n + 1 => by
      refine .bind .get fun w => ?_
      cases w.currStates with
      | nil => exact .pure
      | cons s rest =>
        exact .when fun _ => .bind (.modify fun _ _ he => .inl he) fun _ => dropSquashed_sends n

theorem startWalkWrapper_sends : Follows Walker.Sends Walker.startWalkWrapper := by
  refine .bind .get fun _ => .bind (dropSquashed_sends _) fun _ => .bind .get fun w => ?_
  cases w.currStates with
  | nil => exact .pure
  | cons s rest =>
    refine .when fun _ => fun w u w' h => ?_
    obtain ⟨_, h⟩ := discard_eq_ok.mp h
    exact onCurrent_sends startWalk_sends _ _ _ h

theorem recvTimingResp_sends : Follows Walker.Sends (Walker.recvTimingResp pkt) := by
  unfold Walker.recvTimingResp
  split
  · refine .bind .get fun _ => .bind (onCurrent_sends recvPacket_sends) fun _ => .when fun _ => ?_
    exact .bind (.modify fun _ _ he => .inl he) fun _ => .bind .get fun _ =>
      .when fun _ => startWalkWrapper_sends
  · exact fun _ _ _ h => (throw_ne_ok.mp h).elim

theorem call_sends (input : WalkerInput) : Follows Walker.Sends (Walker.call input) := by
  cases input with
  | start tc vaddr mode timing =>
    intro w u w' h
    obtain ⟨_, h⟩ := discard_eq_ok.mp h
    refine Follows.run h (.bind .get fun _ => .bind (.modify fun _ _ he => .inl he) fun _ => ?_)
    refine .ite (fun _ => .bind .lift fun _ => .pure) fun _ => ?_
    refine .bind (onCurrent_sends startWalk_sends) fun _ => .bind (.when fun _ => ?_) fun _ => .pure
    exact .modify fun _ _ he => .inl he
  | startFunctional tc addr mode =>
    intro w u w' h
    obtain ⟨_, h⟩ := discard_eq_ok.mp h
    refine Follows.run h (.bind .get fun _ => .bind .lift fun _ => ?_)
    exact .bind (onState_sends startFunctionalWalk_sends) fun _ =>
      .bind (.modify fun _ _ he => .inl he) fun _ => .pure
  | recvTimingResp pkt => exact recvTimingResp_sends
  | recvRetry =>
    refine .bind .get fun _ => .forEach fun i _ => onCurrent_sends (.bind .get fun _ => ?_)
    exact .when fun _ => .bind modifySelf_sends fun _ => sendPackets_sends
  | env answers replies | regs tc regs | squash id => exact .modify fun _ _ he => .inl he

end WalkLemmas

open WalkLemmas

theorem Walker.Reachable.tagged {w : Walker} (h : w.Reachable) : ∀ e ∈ w.shared.sent, e.Tagged := by
  refine h.invariant (I := fun w => ∀ e ∈ w.shared.sent, e.Tagged) ?_
    fun w input w' hw _ _ hcall e he => ?_
  · rintro _ ⟨_, _, _, rfl⟩ e he
    cases he
  · exact (call_sends input w () w' hcall e he).elim (hw e) id

/-- In every run of the walker, a packet of a walk carries the guest of the context of that
walk exactly when it is sent in timing or in atomic mode, or that guest is 0xFF. -/
theorem page_walk_tags {w : Walker} (h : w.Reachable) :
    ∀ e ∈ w.shared.sent, e.InGuest ↔ e.mode ≠ .functional ∨ qosTagToGuestID e.qr0 = 0xFF :=
  fun e he => (h.tagged e he).inGuest_iff

/-- Long mode, with the page tables at address 0x1000 and the context of guest 0. -/
def longModeRegs : MiscRegs := ⟨0, 0x1000, 0x400, 0, 0⟩

theorem reachable_longMode : (Walker.startup 1 4 fun _ => longModeRegs).Reachable :=
  .startup ⟨1, 4, _, rfl⟩

/-- A walk of guest 0 in timing mode whose first read is refused once. -/
theorem page_walk_tags_retry :
    ∃ w : Walker, w.Reachable ∧ w.shared.sent.map WalkPacket.accepted = [true, false] ∧
      ∀ e ∈ w.shared.sent, e.InGuest ↔ e.mode ≠ .functional ∨ qosTagToGuestID e.qr0 = 0xFF := by
  obtain ⟨w, h, hsent⟩ := reachable_longMode.exists_of_replay
    (p := fun w => w.shared.sent.map WalkPacket.accepted = [true, false])
    [.env [false] [], .start 0 0x400000 .Read true, .recvRetry] (by decide +kernel)
  exact ⟨w, h, hsent, page_walk_tags h⟩

/-- A functional walk of guest 0 reads the page tables with a tag of guest 0xFF. -/
theorem functional_walk_untagged : ∃ w : Walker, w.Reachable ∧ ∃ e ∈ w.shared.sent,
      qosTagToGuestID e.qr0 = 0 ∧ e.pkt.guestID = 0xFF ∧ ¬ e.InGuest := by
  obtain ⟨w, h, e, he, hqr0, hguest⟩ := reachable_longMode.exists_of_replay
    (p := fun w => ∃ e ∈ w.shared.sent, qosTagToGuestID e.qr0 = 0 ∧ e.pkt.guestID = 0xFF)
    [.startFunctional 0 0x400000 .Read] (by decide +kernel)
  refine ⟨w, h, e, he, hqr0, hguest, ?_⟩
  unfold WalkPacket.InGuest
  rw [hqr0, hguest]
  decide

/-! ## The loops end -/

/-- How many tables a walk in this state still has to read. -/
def WalkState.level : WalkState → Nat
  | .Ready => 0
  | .Waiting => 0
  | .LongPML4 => 4
  | .LongPDP => 3
  | .LongPD => 2
  | .LongPTE => 1
  | .PAEPDP => 3
  | .PAEPD => 2
  | .PAEPTE => 1
  | .PSEPD => 2
  | .PD => 2
  | .PTE => 1

/-- The rounds of a walk after its setup, with the faults that they return. -/
abbrev roundMachine (round : WalkM (Option PageFault)) (vaddr : Addr) :
    Machine Abort (Walk × List (Unit × Option PageFault)) Unit :=
  .recording (fun w => ∃ w₀, setupWalk vaddr w₀ = .ok ((), w)) (fun _ _ => True) fun _ => round

/-- The state of `walkLoop round` after some rounds, the first of which is always taken. -/
def WalkRounds (round : WalkM (Option PageFault)) (vaddr : Addr) (w : Walk)
    (rounds : List (Unit × Option PageFault)) : Prop :=
  (roundMachine round vaddr).ReachableBy (fun r _ => r.2 = [] ∨ r.1.self.read ≠ none) (w, rounds)

/-- Another read is for the next level. -/
def WalkerState.Descends (s s' : WalkerState) : Prop :=
  s'.read ≠ none → s'.state.level + 1 = s.state.level ∧ s'.state.level ≠ 0

namespace WalkLemmas

variable {n : Nat} {entry : TlbEntry} {pte : PageTableEntry} {step : PteStep} {w w' : Walk}
  {fault : Option PageFault}

/-- Unless it ends the walk, the step leads from level `n` one level down. -/
def Below (n : Nat) (step : PteStep) : Prop :=
  step.doEndWalk = false → step.nextState.level + 1 = n ∧ step.nextState.level ≠ 0

theorem below_end (h : step.doEndWalk = true) : Below n step :=
  fun hgo => Bool.noConfusion (h.symm.trans hgo)

theorem below_table {next : WalkState} {addr : Addr} {doWrite : Bool}
    (hnext : next.level + 1 = n) (hne : next.level ≠ 0) :
    Below n (.table entry next addr doWrite) :=
  fun _ => ⟨hnext, hne⟩

theorem below_ite {c : Prop} [Decidable c] {step' : PteStep} (h : Below n step)
    (h' : Below n step') : Below n (if c then step else step') := by
  split
  · exact h
  · exact h'

/-- The next table is one level down. -/
theorem stepEntry_level {s : WalkerState}
    (h : s.stepEntry pte = .ok step) : Below s.state.level step := by
  unfold WalkerState.stepEntry at h
  cases hstate : s.state <;> simp only [hstate] at h <;> cases h
  case LongPML4 | LongPDP | PAEPDP | PD =>
    exact below_ite (below_end rfl) (below_table rfl (by decide))
  case LongPD | PAEPD | PSEPD =>
    exact below_ite (below_end rfl) (below_ite (below_table rfl (by decide)) (below_end rfl))
  case LongPTE | PAEPTE | PTE => exact below_ite (below_end rfl) (below_end rfl)

theorem sendNow_self {mode : AccessMode} {pkt pkt' : Packet}
    (h : sendNow mode pkt w = .ok (pkt', w')) : w'.self = w.self := by
  simp only [sendNow, bind_eq_ok, get_eq_ok, modify_eq_ok, ite_eq_ok, lift_eq_ok] at h
  obtain ⟨_, _, ⟨rfl, rfl⟩, _, _, rfl, ⟨_, _, _, rfl, _, _, ⟨-, rfl⟩, -, rfl⟩ | ⟨_, -, rfl⟩⟩ := h
  · rfl
  · rfl

theorem stepNow_descends {r : Option PageFault × Option Packet} (h : stepNow w = .ok (r, w')) :
    w.self.Descends w'.self := by
  obtain ⟨w₁, hstep, hread, hstate⟩ := stepNow_read h
  intro hnext
  rcases stepWalk_read hstep with hnone | ⟨_, _, _, _, _, hentry, hgo, _, hlevel⟩
  · exact absurd (hread.trans hnone) hnext
  · rw [hstate, hlevel]
    exact stepEntry_level hentry hgo

theorem atomicRound_descends (h : atomicRound w = .ok (fault, w')) :
    w.self.Descends w'.self := by
  simp only [atomicRound, modifySelf, bind_eq_ok, get_eq_ok, modify_eq_ok] at h
  obtain ⟨_, _, hread, _, _, ⟨rfl, rfl⟩, _, w₁, hsend, _, _, rfl, ⟨_, write⟩, w₃, hstep, h⟩ := h
  obtain ⟨-, rfl⟩ := currentRead_eq_ok.mp hread
  have hdown := stepNow_descends hstep
  rw [← sendNow_self hsend]
  cases write with
  | none =>
    obtain ⟨-, rfl⟩ := pure_eq_ok.mp h
    exact hdown
  | some write =>
    simp only [bind_eq_ok, get_eq_ok, discard_eq_ok, pure_eq_ok] at h
    obtain ⟨_, _, ⟨rfl, rfl⟩, _, _, ⟨_, hwrite⟩, -, rfl⟩ := h
    rw [sendNow_self hwrite]
    exact hdown

theorem functionalRound_descends (h : functionalRound w = .ok (fault, w')) :
    w.self.Descends w'.self := by
  simp only [functionalRound, modifySelf, bind_eq_ok, modify_eq_ok, pure_eq_ok] at h
  obtain ⟨_, _, hread, _, w₁, hsend, _, _, rfl, ⟨_, _⟩, _, hstep, -, rfl⟩ := h
  obtain ⟨-, rfl⟩ := currentRead_eq_ok.mp hread
  have hdown := stepNow_descends hstep
  rw [← sendNow_self hsend]
  exact hdown

theorem setupWalk_level {vaddr : Addr} (h : setupWalk vaddr w = .ok ((), w')) :
    w'.self.state.level ≤ walkLevels ∧ w'.self.state.level ≠ 0 := by
  simp only [setupWalk, modifySelf, bind_eq_ok, get_eq_ok, modify_eq_ok] at h
  obtain ⟨_, _, ⟨rfl, rfl⟩, rfl⟩ := h
  dsimp only
  split_ifs <;> decide

end WalkLemmas

/-- Whatever the page tables hold, a walk in atomic or in functional mode reads at most four
entries, and each round that leaves another read goes exactly one level down. -/
theorem walk_rounds_le {round : WalkM (Option PageFault)} {vaddr : Addr} {w : Walk}
    {rounds : List (Unit × Option PageFault)}
    (hround : round = atomicRound ∨ round = functionalRound)
    (h : WalkRounds round vaddr w rounds) :
    rounds.length ≤ walkLevels ∧
      ∀ fault w', round w = .ok (fault, w') → w.self.Descends w'.self := by
  have hdown (w : Walk) (fault : Option PageFault) (w' : Walk) (hrun : round w = .ok (fault, w')) :
      w.self.Descends w'.self :=
    hround.elim (fun h => atomicRound_descends (h ▸ hrun))
      fun h => functionalRound_descends (h ▸ hrun)
  refine ⟨?_, hdown w⟩
  -- with every round but the last the level falls by one
  have hlevel := h.recorded (I := fun w rounds => rounds.length ≤ walkLevels ∧
    (rounds = [] ∨ w.self.read ≠ none →
      w.self.state.level + rounds.length ≤ walkLevels ∧ w.self.state.level ≠ 0))
    (fun w hsetup => ⟨Nat.zero_le _, fun _ => setupWalk_level hsetup.choose_spec⟩)
    fun w rounds _ fault w' ih _ hgo hrun => by
      obtain ⟨hle, hne⟩ := ih.2 hgo
      rw [List.length_cons]
      refine ⟨by omega, fun hnext => ?_⟩
      obtain ⟨hlevel, hne'⟩ := hdown _ _ _ hrun (hnext.resolve_left (List.cons_ne_nil _ _))
      exact ⟨by omega, hne'⟩
  exact hlevel.1

/-- A walk in long mode that sets the accessed bit of its entries, after two of its rounds. -/
theorem walk_rounds_le_long : ∃ w rounds fault w', WalkRounds atomicRound 0x400000 w rounds ∧
    rounds.length = 2 ∧ atomicRound w = .ok (fault, w') ∧ w'.self.read ≠ none ∧
    rounds.length ≤ walkLevels ∧ w'.self.state.level + 1 = w.self.state.level := by
  let w : Walk := ⟨⟨0, 0, 0, false, .Ready, .Ready, 8, false, 0, {}, none, [], none, .Read, false,
    false, false, true⟩, ⟨1, fun _ => longModeRegs, [],
      [Bytes.littleEndian 8 0x2007, Bytes.littleEndian 8 0x3007, Bytes.littleEndian 8 0x4007],
      [], [], []⟩⟩
  obtain ⟨⟨w, rounds⟩, h, htwo, hnext⟩ :=
    (Machine.ReachableBy.startup ⟨⟨w, rfl⟩, rfl⟩ :
      WalkRounds atomicRound 0x400000 _ []).exists_of_replay
    (p := fun r => r.2.length = 2 ∧
      (atomicRound r.1).toOption.any (fun a => a.2.self.read.isSome) = true)
    [(), ()] (by decide +kernel)
  obtain ⟨hle, hdown⟩ := walk_rounds_le (.inl rfl) h
  cases hrun : atomicRound w with
  | error e =>
    rw [hrun] at hnext
    cases hnext
  | ok a =>
    rw [hrun] at hnext
    have hread : a.2.self.read ≠ none := Option.isSome_iff_ne_none.mp hnext
    exact ⟨w, rounds, a.1, a.2, h, htwo, hrun, hread, hle, (hdown _ _ hrun hread).1⟩

end PardG5V
