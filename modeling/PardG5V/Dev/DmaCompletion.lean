import PardG5V.Dev.DmaPort
import PardG5V.Lib.Batches

/-!
# Completion of DMA transfers

The packets of several actions are under way together. `DmaPort.Core` says what is left of every
action and what its state has counted, and `DmaPort.Sending` that a queued packet is not
forgotten.

Results: `dma_completion`, `dma_size_zero_lost`.
-/

namespace PardG5V

open Prog Batches

variable {cfg : DmaConfig}

namespace DmaPort

/-! ## The invariant -/

/-- What is left of an action: packets that are being handled, queued or in flight. -/
def left (held : List DmaPacket) (s : DmaPort cfg) (a : Nat) : List DmaPacket :=
  ofBatch DmaPacket.action a (held ++ s.pending)

/-- The action is under way: something of it is left, and its state counts the rest. -/
structure Live (held : List DmaPacket) (s : DmaPort cfg) (a : Nat) (st : DmaReqState) : Prop where
  left : s.left held a ≠ []
  num : st.numBytes = total DmaPacket.action DmaPacket.size a s.acked
  tot : st.totBytes = ((s.issued.getD a []).map DmaPacket.size).sum
  event : ∃ act, s.actions[a]? = some act ∧ st.completionEvent = act.event
  silent : s.completions.count a = 0

/-- The action is complete: nothing of it is left, and its event was scheduled once. -/
structure Gone (held : List DmaPacket) (s : DmaPort cfg) (a : Nat) : Prop where
  left : s.left held a = []
  event : ∃ act, s.actions[a]? = some act ∧
    s.completions.count a = if act.event.isSome then 1 else 0

/-- Every action is under way or complete, and every packet of it is left or acknowledged. -/
structure Core (held : List DmaPacket) (s : DmaPort cfg) : Prop where
  conserved : Conserved DmaPacket.action s.issued s.acked (held ++ s.pending)
  acked_lt : ∀ p ∈ s.acked, p.action < s.actions.length
  completed_lt : ∀ a ∈ s.completions, a < s.actions.length
  sized : ∀ p ∈ held ++ s.pending, 0 < p.size
  states_length : s.states.length = s.actions.length
  live : ∀ (a : Nat) (st : DmaReqState), s.states[a]? = some (some st) → s.Live held a st
  gone : ∀ a : Nat, s.states[a]? = some none → s.Gone held a
  apart : ∀ (a b : Nat) (st st' : DmaReqState) (e : EventID), s.states[a]? = some (some st) →
    s.states[b]? = some (some st') → a ≠ b → st.completionEvent = some e →
    st'.completionEvent ≠ some e
  unscheduled : ∀ (a : Nat) (st : DmaReqState) (e : EventID), s.states[a]? = some (some st) →
    st.completionEvent = some e → ∀ x ∈ s.scheduled, x.1 ≠ e
  count_lt : (held ++ s.pending).length < 2 ^ 32
  count : s.pendingCount = BitVec.ofNat 32 (held ++ s.pending).length

structure Drains (s : DmaPort cfg) : Prop where
  waits : s.drainManager ≠ none → s.pendingCount ≠ 0
  signals : s.waited = s.signalled ++ s.drainManager.toList

structure Sending (s : DmaPort cfg) : Prop where
  atomic : s.mode = .atomic → s.pending = []
  awake : s.transmitList = [] ↔ s.inRetry = false ∧ s.sendEvent = none
  alone : s.inRetry = true → s.sendEvent = none

structure Inv (s : DmaPort cfg) : Prop where
  core : s.Core []
  drains : s.Drains
  sending : s.Sending

/-- The program returns with the invariant, and signals a drain only if it leaves no packet. -/
def Settles (m : DmaM cfg Unit) (s : DmaPort cfg) : Prop :=
  ∃ s', m s = .ok ((), s') ∧ s'.Inv ∧ (s'.pendingCount ≠ 0 → s'.signalled = s.signalled)

end DmaPort

namespace DmaLemmas

variable {s s' : DmaPort cfg} {held : List DmaPacket} {pkt : DmaPacket} {st : DmaReqState}
  {delay : Tick}

theorem reqState_ok (h : s.states[pkt.action]? = some (some st)) :
    s.reqState pkt.action = .ok st := by
  unfold DmaPort.reqState
  rw [h]

/-- A packet that is being handled belongs to an action that is under way. -/
theorem live_of_held (h : s.Core [pkt]) : ∃ st, s.states[pkt.action]? = some (some st) := by
  have hmem : pkt ∈ s.left [pkt] pkt.action :=
    mem_ofBatch.mpr ⟨List.mem_append_left _ (List.mem_singleton.mpr rfl), rfl⟩
  have hlt : pkt.action < s.states.length := by
    have hlt := h.conserved.batch_lt (List.mem_append_left _ (List.mem_singleton.mpr rfl))
    rw [h.states_length]
    simpa [DmaPort.issued] using hlt
  cases hst : s.states[pkt.action] with
  | none =>
    have hgone := h.gone pkt.action (by rw [List.getElem?_eq_getElem hlt, hst])
    rw [hgone.left] at hmem
    cases hmem
  | some st => exact ⟨st, by rw [List.getElem?_eq_getElem hlt, hst]⟩

theorem left_other {b : Nat} (hb : pkt.action ≠ b) : s.left [pkt] b = s.left [] b := by
  unfold DmaPort.left
  rw [ofBatch_append, ofBatch_singleton_other hb]
  rfl

/-- The state after a response: the packet is acknowledged, and the state of its action is `x`. -/
def answered (s : DmaPort cfg) (pkt : DmaPacket) (x : Option DmaReqState)
    (scheduled : List (EventID × Tick)) (completions : List Nat) : DmaPort cfg :=
  { s with
    pendingCount := s.pendingCount - 1
    states := s.states.set pkt.action x
    acked := s.acked ++ [pkt]
    scheduled
    completions }

section Answered

variable {x : Option DmaReqState} {scheduled : List (EventID × Tick)} {completions : List Nat}
  {b : Nat} (hb : pkt.action ≠ b) (hcount : completions.count b = s.completions.count b)

include hb hcount

theorem live_other (hlive : s.Live [pkt] b st) :
    (answered s pkt x scheduled completions).Live [] b st := by
  refine ⟨?_, ?_, hlive.tot, hlive.event, hcount.trans hlive.silent⟩
  · exact left_other (s := s) hb ▸ hlive.left
  · exact hlive.num.trans (total_concat_other _ hb).symm

theorem gone_other (hgone : s.Gone [pkt] b) :
    (answered s pkt x scheduled completions).Gone [] b := by
  obtain ⟨act, hact, hevent⟩ := hgone.event
  exact ⟨(left_other hb).symm.trans hgone.left, act, hact, hcount.trans hevent⟩

end Answered

end DmaLemmas

open DmaLemmas

namespace DmaPort.Core

variable {s : DmaPort cfg} {pkt : DmaPacket} {st : DmaReqState} {x : Option DmaReqState}

theorem moved {held held' transmitList inFlight : List DmaPacket} {mode : MemMode} {curTick : Tick}
    {sendEvent : Option Tick} {drainManager : Option Nat} {inRetry : Bool}
    {waited signalled : List Nat} (h : s.Core held)
    (hperm : (held' ++ (transmitList ++ inFlight)).Perm (held ++ s.pending)) :
    Core held' ({ s with
      mode, curTick, transmitList, inFlight, sendEvent, drainManager, inRetry, waited, signalled } :
      DmaPort cfg) := by
  have hsame (a : Nat) : (ofBatch DmaPacket.action a (held' ++ (transmitList ++ inFlight))).Perm
      (s.left held a) := hperm.filter _
  refine ⟨h.conserved.perm hperm, h.acked_lt, h.completed_lt,
    fun p hp => h.sized p (hperm.subset hp), h.states_length, fun a st hst => ?_,
    fun a hst => ?_, h.apart, h.unscheduled, hperm.length_eq ▸ h.count_lt,
    hperm.length_eq ▸ h.count⟩
  · have hlive := h.live a st hst
    exact { hlive with left := fun hnil => hlive.left ((hsame a).symm.trans (.of_eq hnil)).eq_nil }
  · obtain ⟨hleft, hevent⟩ := h.gone a hst
    exact ⟨((hsame a).trans (.of_eq hleft)).eq_nil, hevent⟩

theorem ack {scheduled : List (EventID × Tick)} {completions : List Nat} (h : s.Core [pkt])
    (hst : s.states[pkt.action]? = some (some st))
    (hcount : ∀ b, pkt.action ≠ b → completions.count b = s.completions.count b)
    (hlive : ∀ st', x = some st' → (answered s pkt x scheduled completions).Live [] pkt.action st' ∧
      st'.completionEvent = st.completionEvent)
    (hgone : x = none → (answered s pkt x scheduled completions).Gone [] pkt.action)
    (hsched : ∀ e ∈ scheduled, e ∈ s.scheduled ∨ x = none ∧ st.completionEvent = some e.1) :
    (answered s pkt x scheduled completions).Core [] := by
  have hlen : pkt.action < s.states.length := (List.getElem?_eq_some_iff.mp hst).1
  -- the new entry of the states, and the others
  have hself : (s.states.set pkt.action x)[pkt.action]? = some x := List.getElem?_set_self hlen
  have hother : ∀ b, pkt.action ≠ b → (s.states.set pkt.action x)[b]? = s.states[b]? :=
    fun b hb => List.getElem?_set_ne hb
  -- an action that is under way was so before, with the same event
  have hback : ∀ (b : Nat) (st' : DmaReqState), (s.states.set pkt.action x)[b]? = some (some st') →
      ∃ st₀, s.states[b]? = some (some st₀) ∧ st'.completionEvent = st₀.completionEvent := by
    intro b st' hb
    by_cases heq : pkt.action = b
    · subst heq
      rw [hself] at hb
      exact ⟨st, hst, (hlive st' (Option.some.inj hb)).2⟩
    · exact ⟨st', (hother b heq).symm.trans hb, rfl⟩
  refine ⟨h.conserved.ack, fun p hp => ?_, fun b hb => ?_,
    fun p hp => h.sized p (List.mem_cons_of_mem _ hp), List.length_set.trans h.states_length,
    fun b st' hb => ?_, fun b hb => ?_, fun b c st₁ st₂ e hb hc hne hevent => ?_,
    fun b st' e hb hevent y hy => ?_, Nat.lt_trans (Nat.lt_succ_self _) h.count_lt, ?_⟩
  · rcases List.mem_append.mp hp with hp | hp
    · exact h.acked_lt p hp
    · rw [List.mem_singleton.mp hp]
      exact h.states_length ▸ hlen
  · by_cases heq : pkt.action = b
    · exact heq ▸ h.states_length ▸ hlen
    · refine h.completed_lt b (List.count_pos_iff.mp ?_)
      exact hcount b heq ▸ List.count_pos_iff.mpr hb
  · by_cases heq : pkt.action = b
    · subst heq
      exact (hlive st' (Option.some.inj (hself.symm.trans hb))).1
    · exact live_other heq (hcount b heq) (h.live b st' ((hother b heq).symm.trans hb))
  · by_cases heq : pkt.action = b
    · subst heq
      exact hgone (Option.some.inj (hself.symm.trans hb))
    · exact gone_other heq (hcount b heq) (h.gone b ((hother b heq).symm.trans hb))
  · obtain ⟨st₃, hb', heq₁⟩ := hback b st₁ hb
    obtain ⟨st₄, hc', heq₂⟩ := hback c st₂ hc
    rw [heq₂]
    exact h.apart b c st₃ st₄ e hb' hc' hne (heq₁.symm.trans hevent)
  · obtain ⟨st₀, hb', heq⟩ := hback b st' hb
    rcases hsched y hy with hold | ⟨hnone, hown⟩
    · exact h.unscheduled b st₀ e hb' (heq.symm.trans hevent) y hold
    · -- the event that was scheduled now is another action's
      intro hye
      have hne : pkt.action ≠ b := by
        rintro rfl
        cases hnone.symm.trans (Option.some.inj (hself.symm.trans hb))
      exact h.apart pkt.action b st st₀ y.1 hst hb' hne hown (by rw [hye, ← heq, hevent])
  · show s.pendingCount - 1 = BitVec.ofNat 32 s.pending.length
    rw [h.count]
    show BitVec.ofNat 32 (s.pending.length + 1) - 1 = _
    rw [BitVec.ofNat_add]
    exact BitVec.add_sub_cancel _ _

end DmaPort.Core

/-! ## Responses -/

namespace DmaLemmas

variable {s s' : DmaPort cfg} {pkt : DmaPacket} {st : DmaReqState} {delay : Tick} {a : Nat}

def counting (st : DmaReqState) (pkt : DmaPacket) : DmaReqState :=
  { st with numBytes := st.numBytes + pkt.size }

def counted (s : DmaPort cfg) (pkt : DmaPacket) (st : DmaReqState) : DmaPort cfg :=
  answered s pkt (some (counting st pkt)) s.scheduled s.completions

/-- The completion event, if there is one, is scheduled and the state deleted. -/
def closed (s : DmaPort cfg) (a : Nat) (event : Option EventID) (tick : Tick) : DmaPort cfg :=
  { s with
    scheduled := (event.map fun e => (e, tick)).toList ++ s.scheduled
    completions := s.completions ++ (event.map fun _ => a).toList
    states := s.states.set a none }

theorem complete_ok (hfree : ∀ e, st.completionEvent = some e → ∀ x ∈ s.scheduled, x.1 ≠ e) :
    ∃ tick, DmaPort.complete a st delay s = .ok ((), closed s a st.completionEvent tick) := by
  unfold DmaPort.complete closed
  cases hevent : st.completionEvent with
  | none => exact ⟨0, by simp⟩
  | some e =>
    have hnew : ∀ (e' : EventID) (t : Tick), (e', t) ∈ s.scheduled → e' ≠ e :=
      fun e' t hx => hfree e hevent (e', t) hx
    exact ⟨s.curTick + (delay + st.delay), by simpa [DmaPort.schedule] using hnew⟩

/-- A drain that is pending is signalled when no packet is. -/
def settle (s : DmaPort cfg) : DmaPort cfg :=
  match s.drainManager with
  | none => s
  | some dm =>
    if s.pendingCount = 0 then
      { s with signalled := s.signalled ++ [dm], drainManager := none }
    else s

theorem signalDrain_ok (s : DmaPort cfg) : DmaPort.signalDrain s = .ok ((), settle s) := by
  unfold DmaPort.signalDrain settle
  refine get_bind_eq_ok.mpr ?_
  cases hdm : s.drainManager with
  | none => rfl
  | some dm =>
    dsimp only
    split
    · next hzero => exact when_eq_ok.mpr (.inl ⟨beq_iff_eq.mpr hzero, modify_eq_ok.mpr rfl⟩)
    · next hzero => exact when_eq_ok.mpr (.inr ⟨beq_eq_false_iff_ne.mpr hzero, rfl⟩)

theorem settle_core (h : s.Core []) : (settle s).Core [] := by
  unfold settle
  split
  · exact h
  · split
    · exact h.moved (.refl _)
    · exact h

theorem settle_drains (h : s.waited = s.signalled ++ s.drainManager.toList) :
    (settle s).Drains := by
  unfold settle
  split
  · next hdm => exact ⟨fun hne => absurd hdm hne, h⟩
  · next dm hdm =>
      split
      · refine ⟨fun hne => absurd rfl hne, ?_⟩
        rw [hdm] at h
        simpa using h
      · next hne => exact ⟨fun _ => hne, h⟩

structure Handles (s s' : DmaPort cfg) : Prop where
  mode : s'.mode = s.mode
  transmitList : s'.transmitList = s.transmitList
  inFlight : s'.inFlight = s.inFlight
  sendEvent : s'.sendEvent = s.sendEvent
  inRetry : s'.inRetry = s.inRetry
  signalled : s'.pendingCount ≠ 0 → s'.signalled = s.signalled

theorem settle_handles (s : DmaPort cfg) : Handles s (settle s) := by
  unfold settle
  split
  · exact ⟨rfl, rfl, rfl, rfl, rfl, fun _ => rfl⟩
  · split
    · next hzero => exact ⟨rfl, rfl, rfl, rfl, rfl, fun hne => absurd hzero hne⟩
    · exact ⟨rfl, rfl, rfl, rfl, rfl, fun _ => rfl⟩

/-- A response is counted, completes its action if it was the last one, and may end a drain. -/
theorem handleResp_ok (hst : s.states[pkt.action]? = some (some st)) (hcount : s.pendingCount ≠ 0)
    (hle : (counting st pkt).numBytes ≤ (counting st pkt).totBytes)
    (hwhen : Prog.when ((counting st pkt).totBytes == (counting st pkt).numBytes)
      (DmaPort.complete pkt.action (counting st pkt) delay) (counted s pkt st) = .ok ((), s')) :
    DmaPort.handleResp pkt delay s = .ok ((), settle s') := by
  refine get_bind_eq_ok.mpr ?_
  refine lift_bind_eq_ok.mpr ⟨_, reqState_ok hst, ?_⟩
  refine lift_bind_eq_ok.mpr ⟨(), assert_eq_ok.mpr (bne_iff_ne.mpr hcount), ?_⟩
  refine modify_bind_eq_ok.mpr ?_
  refine lift_bind_eq_ok.mpr ⟨(), assert_eq_ok.mpr (decide_eq_true hle), ?_⟩
  exact bind_eq_ok.mpr ⟨(), s', hwhen, signalDrain_ok s'⟩

theorem handles_settle (h : Handles s s') : Handles s (settle s') := by
  have hsettle := settle_handles s'
  have hcount : (settle s').pendingCount = s'.pendingCount := by
    unfold settle
    split
    · rfl
    · split
      · rfl
      · rfl
  refine ⟨hsettle.mode.trans h.mode, hsettle.transmitList.trans h.transmitList,
    hsettle.inFlight.trans h.inFlight, hsettle.sendEvent.trans h.sendEvent,
    hsettle.inRetry.trans h.inRetry, fun hne => ?_⟩
  exact (hsettle.signalled hne).trans (h.signalled (hcount ▸ hne))

end DmaLemmas

namespace DmaPort.Core

variable {s : DmaPort cfg} {pkt : DmaPacket} {st : DmaReqState}

/-- What the packet's action has left weighs what its state has not counted yet. -/
theorem weighs (h : s.Core [pkt]) (hst : s.states[pkt.action]? = some (some st)) :
    (counting st pkt).numBytes + total DmaPacket.action DmaPacket.size pkt.action s.pending =
      (counting st pkt).totBytes := by
  have hlive := h.live pkt.action st hst
  have hsum := h.conserved.ack.total_eq DmaPacket.size pkt.action
  rw [total_concat_self, ← hlive.num, ← hlive.tot] at hsum
  exact hsum

theorem ackOpen (h : s.Core [pkt]) (hst : s.states[pkt.action]? = some (some st))
    (hleft : s.left [] pkt.action ≠ []) : (counted s pkt st).Core [] := by
  have hlive := h.live pkt.action st hst
  refine h.ack hst (fun _ _ => rfl) (fun st' heq => ?_) nofun
    fun e he => .inl he
  cases heq
  refine ⟨⟨hleft, ?_, hlive.tot, hlive.event, hlive.silent⟩, rfl⟩
  show st.numBytes + pkt.size = total _ _ _ (s.acked ++ [pkt])
  rw [total_concat_self, hlive.num]

theorem ackClosed (h : s.Core [pkt]) (hst : s.states[pkt.action]? = some (some st))
    (hleft : s.left [] pkt.action = []) (tick : Tick) :
    (closed (counted s pkt st) pkt.action st.completionEvent tick).Core [] := by
  have hlive := h.live pkt.action st hst
  obtain ⟨act, hact, hevent⟩ := hlive.event
  have hcount (b : Nat) (hb : pkt.action ≠ b) :
      (s.completions ++ (st.completionEvent.map fun _ => pkt.action).toList).count b =
        s.completions.count b := by
    rw [List.count_append]
    cases st.completionEvent with
    | none => rfl
    | some e => exact congrArg _ (List.count_eq_zero.mpr (by simpa using hb.symm))
  unfold closed
  rw [counted, answered, List.set_set]
  refine h.ack hst hcount nofun (fun _ => ⟨hleft, act, hact, ?_⟩) fun e he => ?_
  · show (s.completions ++ _).count pkt.action = _
    rw [List.count_append, hlive.silent, hevent, Nat.zero_add]
    cases act.event with
    | none => rfl
    | some e => exact List.count_singleton_self
  · rcases List.mem_append.mp he with he | he
    · cases hst' : st.completionEvent with
      | none =>
        rw [hst'] at he
        cases he
      | some e' =>
        rw [hst'] at he
        cases List.mem_singleton.mp he
        exact .inr ⟨rfl, rfl⟩
    · exact .inl he

theorem count_eq_zero_iff {held : List DmaPacket} (h : s.Core held) :
    s.pendingCount = 0 ↔ held ++ s.pending = [] := by
  rw [h.count, ← List.length_eq_zero_iff, ← BitVec.toNat_inj, BitVec.toNat_ofNat,
    Nat.mod_eq_of_lt h.count_lt]
  rfl

theorem handleResp (h : s.Core [pkt]) (hwaits : s.waited = s.signalled ++ s.drainManager.toList)
    (delay : Tick) : ∃ s', DmaPort.handleResp pkt delay s = .ok ((), s') ∧ s'.Core [] ∧ s'.Drains ∧
      Handles s s' := by
  obtain ⟨st, hst⟩ := live_of_held h
  have hweighs := h.weighs hst
  have hcount : s.pendingCount ≠ 0 := fun hzero => nomatch h.count_eq_zero_iff.mp hzero
  have hrest : ∀ p ∈ s.pending, 0 < p.size := fun p hp => h.sized p (List.mem_cons_of_mem _ hp)
  have hzero : total DmaPacket.action DmaPacket.size pkt.action s.pending = 0 ↔
      s.left [] pkt.action = [] := total_eq_zero_iff hrest
  have hle := Nat.le.intro hweighs
  by_cases hlast : (counting st pkt).totBytes = (counting st pkt).numBytes
  · have hleft : s.left [] pkt.action = [] := hzero.mp (by omega)
    have hfree : ∀ e, (counting st pkt).completionEvent = some e →
        ∀ x ∈ (counted s pkt st).scheduled, x.1 ≠ e := fun e he => h.unscheduled _ st e hst he
    obtain ⟨tick, hcomplete⟩ := complete_ok hfree
    refine ⟨_, handleResp_ok hst hcount hle
      (when_eq_ok.mpr (.inl ⟨beq_iff_eq.mpr hlast, hcomplete⟩)),
      settle_core (h.ackClosed hst hleft tick), settle_drains hwaits, ?_⟩
    exact handles_settle ⟨rfl, rfl, rfl, rfl, rfl, fun _ => rfl⟩
  · have hleft : s.left [] pkt.action ≠ [] := fun hnil => hlast (by
      rw [← hweighs, hzero.mpr hnil, Nat.add_zero])
    refine ⟨_, handleResp_ok hst hcount hle
      (when_eq_ok.mpr (.inr ⟨beq_eq_false_iff_ne.mpr hlast, rfl⟩)),
      settle_core (h.ackOpen hst hleft), settle_drains hwaits, ?_⟩
    exact handles_settle ⟨rfl, rfl, rfl, rfl, rfl, fun _ => rfl⟩

end DmaPort.Core

/-! ## Sending -/

namespace DmaLemmas

variable {s s' : DmaPort cfg} {pkt : DmaPacket}

/-- In atomic mode every queued packet is sent and answered. -/
theorem sendAtomic_ok (answer : PeerAnswer) (h : s.Core []) (hd : s.Drains) :
    ∃ s', DmaPort.sendAtomic answer s.transmitList s = .ok ((), s') ∧ s'.Core [] ∧ s'.Drains ∧
      s'.transmitList = [] ∧ Handles { s with transmitList := [] } s' := by
  induction hq : s.transmitList generalizing s with
  | nil =>
    have heq : { s with transmitList := [] } = s := by rw [← hq]
    refine ⟨s, rfl, h, hd, hq, ?_⟩
    rw [heq]
    exact ⟨rfl, rfl, rfl, rfl, rfl, fun _ => rfl⟩
  | cons pkt rest ih =>
    have hpop : DmaPort.Core [pkt] ({ s with transmitList := rest } : DmaPort cfg) := by
      refine h.moved ?_
      unfold DmaPort.pending
      rw [hq]
      exact .refl _
    obtain ⟨s₁, hresp, hcore, hdrains, hsame⟩ := hpop.handleResp hd.signals (answer.latency pkt)
    obtain ⟨s', hrun, hcore', hdrains', hnil, hsame'⟩ := ih hcore hdrains hsame.transmitList
    refine ⟨s', ?_, hcore', hdrains', hnil, ?_⟩
    · exact bind_eq_ok.mpr ⟨(), _, modify_eq_ok.mpr rfl, bind_eq_ok.mpr ⟨(), s₁, hresp, hrun⟩⟩
    · refine ⟨hsame'.mode.trans hsame.mode, hnil, hsame'.inFlight.trans hsame.inFlight,
        hsame'.sendEvent.trans hsame.sendEvent, hsame'.inRetry.trans hsame.inRetry, fun hne => ?_⟩
      -- a packet that is in flight at the end was pending all the time
      have hbefore : s₁.pendingCount ≠ 0 := fun hzero => by
        have hempty := List.append_eq_nil_iff.mp (hcore.count_eq_zero_iff.mp hzero)
        refine hne (hcore'.count_eq_zero_iff.mpr ?_)
        show s'.transmitList ++ s'.inFlight = []
        rw [hnil, hsame'.inFlight]
        exact (List.append_eq_nil_iff.mp hempty.2).2
      exact (hsame'.signalled hne).trans (hsame.signalled hbefore)

theorem trySendTimingReq_ok (answer : PeerAnswer) {rest : List DmaPacket}
    (hq : s.transmitList = pkt :: rest)
    (hsend : s.sendEvent = none) : DmaPort.trySendTimingReq answer s = .ok ((),
      if answer.accepts then
        { s with
          inRetry := false
          transmitList := rest
          inFlight := s.inFlight ++ [pkt]
          sendEvent := if rest.isEmpty then none else some (cfg.clockEdge s.curTick 1) }
      else { s with inRetry := true }) := by
  unfold DmaPort.trySendTimingReq
  cases haccepts : answer.accepts with
  | false => simp [hq]
  | true =>
    cases rest with
    | nil | cons next rest => simp [hq, hsend]

theorem sendFront (answer : PeerAnswer) (h : s.Core []) (hd : s.Drains) (hmode : s.mode = .timing)
    (hne : s.transmitList ≠ []) (hsend : s.sendEvent = none) :
    DmaPort.Settles (DmaPort.trySendTimingReq answer) s := by
  obtain ⟨pkt, rest, hq⟩ := List.exists_cons_of_ne_nil hne
  refine ⟨_, trySendTimingReq_ok answer hq hsend, ?_⟩
  split
  · refine ⟨⟨h.moved ?_, { hd with }, ?_, ?_, nofun⟩, fun _ => rfl⟩
    · show (rest ++ (s.inFlight ++ [pkt])).Perm (s.transmitList ++ s.inFlight)
      rw [hq, ← List.append_assoc]
      exact List.perm_append_singleton _ _
    · intro hatomic
      cases hmode.symm.trans hatomic
    · cases rest with
      | nil => exact ⟨fun _ => ⟨rfl, rfl⟩, fun _ => rfl⟩
      | cons next rest => exact ⟨nofun, fun hidle => (nomatch hidle.2)⟩
  · refine ⟨⟨h.moved (.refl _), { hd with }, ?_, ?_,
      fun _ => hsend⟩, fun _ => rfl⟩
    · intro hatomic
      cases hmode.symm.trans hatomic
    · exact ⟨fun hnil => absurd hnil hne, fun hidle => (nomatch hidle.1)⟩

theorem sendDma_ok (answer : PeerAnswer) (h : s.Core []) (hd : s.Drains) (hne : s.transmitList ≠ [])
    (halone : s.inRetry = true → s.sendEvent = none)
    (hatomic : s.mode = .atomic → s.inFlight = [] ∧ s.inRetry = false ∧ s.sendEvent = none) :
    DmaPort.Settles (DmaPort.sendDma answer) s := by
  have hassert : assert (!s.transmitList.isEmpty) = .ok () :=
    assert_eq_ok.mpr (by simpa using hne)
  have hrun : ∀ s', _ → DmaPort.sendDma answer s = .ok ((), s') := fun s' hbranch =>
    bind_eq_ok.mpr ⟨s, s, get_eq_ok.mpr ⟨rfl, rfl⟩,
      bind_eq_ok.mpr ⟨(), s, lift_eq_ok.mpr ⟨hassert, rfl⟩, hbranch⟩⟩
  cases hmode : s.mode with
  | timing =>
    rw [hmode] at hrun
    cases hbusy : s.inRetry || s.sendEvent.isSome with
    | true =>
      refine ⟨s, hrun s (when_eq_ok.mpr (.inr ⟨by rw [hbusy]; rfl, rfl⟩)),
        ⟨h, hd, ?_, ?_, halone⟩, fun _ => rfl⟩
      · intro hatomic
        cases hmode.symm.trans hatomic
      · refine ⟨fun hnil => absurd hnil hne, fun hidle => ?_⟩
        rw [hidle.1, hidle.2] at hbusy
        cases hbusy
    | false =>
      have hsend : s.sendEvent = none := by
        simpa using (Bool.or_eq_false_iff.mp hbusy).2
      obtain ⟨s', hfront, hinv, hsig⟩ := sendFront answer h hd hmode hne hsend
      exact ⟨s', hrun s' (when_eq_ok.mpr (.inl ⟨by rw [hbusy]; rfl, hfront⟩)), hinv, hsig⟩
  | atomic =>
    rw [hmode] at hrun
    obtain ⟨hflight, hretry, hsend⟩ := hatomic hmode
    obtain ⟨s', hloop, hcore, hdrains, hnil, hsame⟩ := sendAtomic_ok answer h hd
    refine ⟨s', hrun s' hloop, ⟨hcore, hdrains, fun _ => ?_, ?_, ?_⟩, hsame.signalled⟩
    · show s'.transmitList ++ s'.inFlight = []
      rw [hnil, hsame.inFlight]
      exact hflight
    · rw [hnil, hsame.inRetry, hsame.sendEvent]
      exact ⟨fun _ => ⟨hretry, hsend⟩, fun _ => rfl⟩
    · rw [hsame.sendEvent]
      exact fun _ => hsend

end DmaLemmas

/-! ## New transfers -/

namespace DmaLemmas

variable {s : DmaPort cfg} {a : DmaAction} {n : Nat} {p : DmaPacket}

theorem forEach_queueDma_ok (pkts : List DmaPacket) (s : DmaPort cfg) :
    forEach DmaPort.queueDma pkts s = .ok ((), { s with
      transmitList := s.transmitList ++ pkts
      pendingCount := s.pendingCount + BitVec.ofNat 32 pkts.length }) := by
  induction pkts generalizing s with
  | nil => simp
  | cons pkt pkts ih =>
    refine forEach_cons_eq_ok.mpr ⟨_, modify_eq_ok.mpr rfl, ?_⟩
    rw [ih]
    rw [List.append_assoc, BitVec.add_assoc, List.length_cons, Nat.add_comm, BitVec.ofNat_add]
    rfl

theorem packets_tiles (cfg : DmaConfig) (n : Nat) (a : DmaAction) : Tiles a.size.toNat 0
    ((DmaPort.packets cfg n a).map fun p => (p.dataOffset, p.size)) := by
  unfold DmaPort.packets
  rw [List.map_map]
  exact ChunkGen.all_tiles a.addr cfg.lineShift_le a.size.isLt

theorem packets_action (hp : p ∈ DmaPort.packets cfg n a) : p.action = n := by
  obtain ⟨c, -, rfl⟩ := List.mem_map.mp hp
  rfl

theorem packets_sized (hp : p ∈ DmaPort.packets cfg n a) : 0 < p.size :=
  ((packets_tiles cfg n a).mem_bounds (List.mem_map_of_mem hp)).2.1

theorem packets_sum (cfg : DmaConfig) (n : Nat) (a : DmaAction) :
    ((DmaPort.packets cfg n a).map DmaPacket.size).sum = a.size.toNat := by
  have hsum := (packets_tiles cfg n a).sum_eq
  rw [List.map_map, Nat.zero_add] at hsum
  exact hsum

theorem packets_ne_nil (cfg : DmaConfig) (n : Nat) (hsize : 0 < a.size.toNat) :
    DmaPort.packets cfg n a ≠ [] := by
  intro hnil
  have hsum := packets_sum cfg n a
  rw [hnil] at hsum
  exact Nat.ne_of_lt hsize hsum

/-- A positive `int` has the same value as an `Addr`. -/
theorem toNat_signExtend_of_pos {size : BitVec 32} (h : 0 < size.toInt) :
    (size.signExtend 64).toNat = size.toNat ∧ 0 < size.toNat := by
  have hmsb : size.msb = false := by
    rw [BitVec.msb_eq_toInt]
    exact decide_eq_false (Int.not_lt.mpr (Int.le_of_lt h))
  rw [BitVec.signExtend_eq_setWidth_of_msb_false hmsb, BitVec.toNat_setWidth,
    Nat.mod_eq_of_lt (Nat.lt_trans size.isLt (by decide))]
  rw [BitVec.toInt_eq_toNat_of_msb hmsb] at h
  exact ⟨rfl, Int.natCast_pos.mp h⟩

end DmaLemmas

namespace DmaPort

/-- The action transfers something, and the counter has room for its packets. -/
def Proper (s : DmaPort cfg) : DmaInput → Prop
  | .dmaAction a _ => 0 < a.size.toInt ∧
      s.pending.length + (packets cfg s.states.length a).length < 2 ^ 32
  | _ => True

def queued (s : DmaPort cfg) (a : DmaAction) : DmaPort cfg :=
  { s with
    states := s.states ++ [some a.newState]
    actions := s.actions ++ [a]
    transmitList := s.transmitList ++ packets cfg s.states.length a
    pendingCount := s.pendingCount + BitVec.ofNat 32 (packets cfg s.states.length a).length }

namespace Core

variable {s : DmaPort cfg} {a : DmaAction}

theorem queued_issued (h : s.Core []) :
    (s.queued a).issued = s.issued ++ [packets cfg s.states.length a] := by
  show (s.actions ++ [a]).mapIdx _ = s.actions.mapIdx _ ++ _
  rw [List.mapIdx_concat, h.states_length]

theorem queued_perm (s : DmaPort cfg) (a : DmaAction) :
    (s.queued a).pending.Perm (s.pending ++ packets cfg s.states.length a) := by
  show (s.transmitList ++ packets cfg s.states.length a ++ s.inFlight).Perm
    (s.transmitList ++ s.inFlight ++ packets cfg s.states.length a)
  rw [List.append_assoc, List.append_assoc]
  exact (List.perm_append_comm).append_left _

/-- Of an older action as much is left as before. -/
theorem queued_left_old {b : Nat} (hb : b < s.states.length) :
    ((s.queued a).left [] b).Perm (s.left [] b) := by
  have hperm := (queued_perm s a).filter fun p => p.action == b
  have hnil : ofBatch DmaPacket.action b (packets cfg s.states.length a) = [] :=
    ofBatch_eq_nil fun p hp => by
      rw [packets_action hp]
      exact Nat.ne_of_gt hb
  rw [List.filter_append, show (packets cfg s.states.length a).filter _ = [] from hnil,
    List.append_nil] at hperm
  exact hperm

theorem queued_left_new (hsize : 0 < a.size.toNat) : (s.queued a).left [] s.states.length ≠ [] := by
  intro hnil
  obtain ⟨p, hp⟩ := List.exists_mem_of_ne_nil _ (packets_ne_nil cfg s.states.length hsize)
  have hmem : p ∈ (s.queued a).left [] s.states.length := by
    refine mem_ofBatch.mpr ⟨(queued_perm s a).symm.subset ?_, packets_action hp⟩
    exact List.mem_append_right _ hp
  rw [hnil] at hmem
  cases hmem

theorem queued_states {b : Nat} {x : Option DmaReqState} (hx : (s.queued a).states[b]? = some x) :
    b < s.states.length ∧ s.states[b]? = some x ∨
      b = s.states.length ∧ x = some a.newState := by
  change (s.states ++ [_])[b]? = some x at hx
  rcases Nat.lt_or_ge b s.states.length with hlt | hge
  · rw [List.getElem?_append_left hlt] at hx
    exact .inl ⟨hlt, hx⟩
  · rw [List.getElem?_append_right hge, List.getElem?_singleton] at hx
    obtain ⟨hzero, hx⟩ := Option.ite_none_right_eq_some.mp hx
    exact .inr ⟨Nat.le_antisymm (Nat.le_of_sub_eq_zero hzero) hge, (Option.some.inj hx).symm⟩

theorem queued_live_old (h : s.Core []) {b : Nat} (hb : b < s.states.length) {st : DmaReqState}
    (hst : s.states[b]? = some (some st)) : (s.queued a).Live [] b st := by
  have hlive := h.live b st hst
  have hissued : b < s.issued.length := by
    rw [DmaPort.issued, List.length_mapIdx, ← h.states_length]
    exact hb
  refine ⟨fun hnil => hlive.left ?_, hlive.num, ?_, ?_, hlive.silent⟩
  · have hperm := queued_left_old (a := a) hb
    rw [hnil] at hperm
    exact hperm.nil_eq.symm
  · rw [h.queued_issued, List.getD_append _ _ _ _ hissued]
    exact hlive.tot
  · obtain ⟨act, hact, hevent⟩ := hlive.event
    exact ⟨act, List.getElem?_append_left (h.states_length ▸ hb) ▸ hact, hevent⟩

theorem queued_live_new (h : s.Core []) (hsize : 0 < a.size.toInt) :
    (s.queued a).Live [] s.states.length a.newState := by
  obtain ⟨htot, hpos⟩ := toNat_signExtend_of_pos hsize
  have hissued : s.issued.length = s.states.length := by
    rw [h.states_length]
    exact List.length_mapIdx
  refine ⟨queued_left_new hpos, ?_, ?_, ⟨a, ?_, rfl⟩, ?_⟩
  · have hnil : ofBatch DmaPacket.action s.states.length s.acked = [] :=
      ofBatch_eq_nil fun p hp => by
        rw [h.states_length]
        exact Nat.ne_of_lt (h.acked_lt p hp)
    show 0 = total _ _ _ s.acked
    unfold total
    rw [hnil]
    rfl
  · rw [h.queued_issued, List.getD_append_right _ _ _ _ (Nat.le_of_eq hissued), hissued,
      Nat.sub_self]
    show (a.size.signExtend 64).toNat = ((packets cfg s.states.length a).map DmaPacket.size).sum
    rw [packets_sum, htot]
  · rw [h.states_length]
    exact List.getElem?_concat_length
  · refine List.count_eq_zero.mpr fun hmem => ?_
    have hlt := h.completed_lt _ hmem
    rw [h.states_length] at hlt
    exact Nat.lt_irrefl _ hlt

theorem queued (h : s.Core []) (hsize : 0 < a.size.toInt)
    (hroom : s.pending.length + (packets cfg s.states.length a).length < 2 ^ 32)
    (hfree : ∀ event ∈ a.event, s.EventFree event) : (s.queued a).Core [] := by
  have hperm := queued_perm s a
  have hlen : s.issued.length = s.states.length := by
    rw [h.states_length]
    exact List.length_mapIdx
  have hlonger : (s.queued a).actions.length = s.actions.length + 1 := List.length_append
  refine ⟨?_, fun p hp => ?_, fun b hb => ?_, fun p hp => ?_, ?_, fun b st hst => ?_,
    fun b hst => ?_, ?_, ?_, ?_, ?_⟩
  · have hparts : ∀ p ∈ packets cfg s.states.length a, p.action = s.issued.length :=
      fun p hp => by rw [packets_action hp, hlen]
    have hacked : ∀ p ∈ s.acked, p.action < s.issued.length := fun p hp => by
      rw [hlen, h.states_length]
      exact h.acked_lt p hp
    rw [h.queued_issued]
    exact (h.conserved.add hparts hacked).perm hperm
  · rw [hlonger]
    exact Nat.lt_succ_of_lt (h.acked_lt p hp)
  · rw [hlonger]
    exact Nat.lt_succ_of_lt (h.completed_lt b hb)
  · rcases List.mem_append.mp (hperm.subset hp) with hp | hp
    · exact h.sized p hp
    · exact packets_sized hp
  · rw [hlonger, ← h.states_length]
    exact List.length_append
  · rcases queued_states hst with ⟨hlt, hold⟩ | ⟨rfl, hnew⟩
    · exact h.queued_live_old hlt hold
    · cases hnew
      exact h.queued_live_new hsize
  · rcases queued_states hst with ⟨hlt, hold⟩ | ⟨-, hnew⟩
    · obtain ⟨hleft, act, hact, hcount⟩ := h.gone b hold
      have hperm := queued_left_old (a := a) hlt
      rw [hleft] at hperm
      refine ⟨hperm.eq_nil, act, ?_, hcount⟩
      exact List.getElem?_append_left (h.states_length ▸ hlt) ▸ hact
    · cases hnew
  · intro b c st st' e hb hc hne hevent hevent'
    rcases queued_states hb with ⟨-, hb⟩ | ⟨rfl, hnew⟩
    · rcases queued_states hc with ⟨-, hc⟩ | ⟨-, hnew⟩
      · exact h.apart b c st st' e hb hc hne hevent hevent'
      · cases hnew
        exact (hfree e hevent').2 (some st) (List.mem_of_getElem? hb) hevent
    · cases hnew
      rcases queued_states hc with ⟨-, hc⟩ | ⟨rfl, -⟩
      · exact (hfree e hevent).2 (some st') (List.mem_of_getElem? hc) hevent'
      · exact hne rfl
  · intro b st e hb hevent
    rcases queued_states hb with ⟨-, hb⟩ | ⟨-, hnew⟩
    · exact h.unscheduled b st e hb hevent
    · cases hnew
      exact (hfree e hevent).1
  · rw [List.nil_append, hperm.length_eq, List.length_append]
    exact hroom
  · rw [List.nil_append, hperm.length_eq, List.length_append, BitVec.ofNat_add]
    exact congrArg (· + _) h.count

end Core

/-! ## Runs -/

namespace Inv

variable {s : DmaPort cfg}

theorem startup (mode : MemMode) (now : Tick) : Inv ({ mode, curTick := now } : DmaPort cfg) where
  core := {
    conserved := .empty
    acked_lt := nofun
    completed_lt := nofun
    sized := nofun
    states_length := rfl
    live := nofun
    gone := nofun
    apart := nofun
    unscheduled := nofun
    count_lt := Nat.two_pow_pos 32
    count := rfl }
  drains := ⟨fun h => absurd rfl h, rfl⟩
  sending := ⟨fun _ => rfl, ⟨fun _ => ⟨rfl, rfl⟩, fun _ => rfl⟩, nofun⟩

theorem dmaAction (h : s.Inv) {a : DmaAction} {answer : PeerAnswer}
    (hen : s.Enabled (.dmaAction a answer)) (hproper : s.Proper (.dmaAction a answer)) :
    Settles (DmaPort.dmaAction a answer) s := by
  have hcore := h.core.queued hproper.1 hproper.2 hen
  have hpos := (toNat_signExtend_of_pos hproper.1).2
  have hne : (s.queued a).transmitList ≠ [] :=
    List.append_ne_nil_of_right_ne_nil _ (packets_ne_nil cfg _ hpos)
  have hdrains : (s.queued a).Drains := by
    refine ⟨fun _ hzero => hne ?_, h.drains.signals⟩
    have hempty := List.append_eq_nil_iff.mp (hcore.count_eq_zero_iff.mp hzero)
    exact (List.append_eq_nil_iff.mp hempty.2).1
  obtain ⟨s', hrun, hinv, hsig⟩ := sendDma_ok answer hcore hdrains hne h.sending.alone
    fun hmode => by
      obtain ⟨hqueue, hflight⟩ := List.append_eq_nil_iff.mp (h.sending.atomic hmode)
      exact ⟨hflight, h.sending.awake.mp hqueue⟩
  refine ⟨s', ?_, hinv, hsig⟩
  refine get_bind_eq_ok.mpr ?_
  refine modify_bind_eq_ok.mpr ?_
  exact bind_eq_ok.mpr ⟨(), s.queued a, forEach_queueDma_ok _ _, hrun⟩

theorem recvTimingResp (h : s.Inv) {pkt : DmaPacket} (hmem : pkt ∈ s.inFlight) :
    Settles (DmaPort.recvTimingResp pkt) s := by
  have hperm : (pkt :: (s.transmitList ++ s.inFlight.erase pkt)).Perm s.pending := by
    refine (List.perm_middle.symm).trans ?_
    exact (List.perm_cons_erase hmem).symm.append_left _
  have hcore : Core [pkt] ({ s with inFlight := s.inFlight.erase pkt } : DmaPort cfg) :=
    h.core.moved hperm
  obtain ⟨s', hrun, hcore', hdrains, hsame⟩ := hcore.handleResp h.drains.signals 0
  refine ⟨s', ?_, ⟨hcore', hdrains, fun hmode => ?_, ?_, ?_⟩, hsame.signalled⟩
  · exact modify_bind_eq_ok.mpr hrun
  · -- in atomic mode nothing is in flight
    have hempty := h.sending.atomic (hsame.mode.symm.trans hmode)
    rw [(List.append_eq_nil_iff.mp hempty).2] at hmem
    cases hmem
  · rw [hsame.transmitList, hsame.inRetry, hsame.sendEvent]
    exact h.sending.awake
  · rw [hsame.inRetry, hsame.sendEvent]
    exact h.sending.alone

theorem recvRetry (h : s.Inv) (hretry : s.inRetry = true) (answer : PeerAnswer) :
    Settles (DmaPort.recvRetry answer) s := by
  have hne : s.transmitList ≠ [] := fun hnil => by
    cases hretry.symm.trans (h.sending.awake.mp hnil).1
  have hmode : s.mode = .timing := by
    cases hmode : s.mode with
    | timing => rfl
    | atomic => exact absurd (List.append_eq_nil_iff.mp (h.sending.atomic hmode)).1 hne
  obtain ⟨s', hrun, hinv, hsig⟩ :=
    sendFront answer h.core h.drains hmode hne (h.sending.alone hretry)
  refine ⟨s', ?_, hinv, hsig⟩
  refine get_bind_eq_ok.mpr ?_
  exact lift_bind_eq_ok.mpr ⟨(), assert_eq_ok.mpr (by simpa using hne), hrun⟩

theorem sendEvent (h : s.Inv) {tick : Tick} (hevent : s.sendEvent = some tick)
    (answer : PeerAnswer) : Settles (DmaPort.call (.sendEvent answer)) s := by
  have hne : s.transmitList ≠ [] := fun hnil => by
    cases hevent.symm.trans (h.sending.awake.mp hnil).2
  have hcore : Core [] ({ s with sendEvent := none } : DmaPort cfg) :=
    h.core.moved (.refl _)
  obtain ⟨s', hrun, hinv, hsig⟩ := sendDma_ok answer hcore { h.drains with } hne
    (fun _ => rfl) fun hmode =>
      absurd (List.append_eq_nil_iff.mp (h.sending.atomic hmode)).1 hne
  exact ⟨s', modify_bind_eq_ok.mpr hrun, hinv, hsig⟩

theorem drain (h : s.Inv) (hdm : s.drainManager = none) (dm : Nat) :
    Settles (DmaPort.call (.drain dm)) s := by
  by_cases hzero : s.pendingCount = 0
  · refine ⟨s, discard_eq_ok.mpr ⟨0, ?_⟩, h, fun _ => rfl⟩
    simp [DmaPort.drain, hzero]
  · refine ⟨{ s with drainManager := some dm, waited := s.waited ++ [dm] },
      discard_eq_ok.mpr ⟨1, ?_⟩, ⟨?_, ⟨fun _ => hzero, ?_⟩, ?_⟩, fun _ => rfl⟩
    · refine get_bind_eq_ok.mpr ?_
      refine ite_eq_ok.mpr (.inr ⟨by simpa using hzero, ?_⟩)
      exact bind_eq_ok.mpr ⟨(), _, modify_eq_ok.mpr rfl, pure_eq_ok.mpr ⟨rfl, rfl⟩⟩
    · exact h.core.moved (.refl _)
    · have hsig := h.drains.signals
      rw [hdm] at hsig
      rw [hsig]
      simp
    · exact { h.sending with }

theorem setMode (h : s.Inv) (hzero : s.pendingCount = 0) (mode : MemMode) :
    Inv ({ s with mode } : DmaPort cfg) := by
  have hempty := (List.append_eq_nil_iff.mp (h.core.count_eq_zero_iff.mp hzero)).2
  exact ⟨h.core.moved (.refl _), { h.drains with }, { h.sending with atomic := fun _ => hempty }⟩

theorem advance (h : s.Inv) (tick : Tick) : Inv ({ s with curTick := tick } : DmaPort cfg) :=
  ⟨h.core.moved (.refl _), { h.drains with }, { h.sending with }⟩

theorem process (h : s.Inv) (event : EventID) :
    Inv ({ s with scheduled := s.scheduled.filter fun e => e.1 != event } : DmaPort cfg) := by
  have hcore := h.core
  refine ⟨{ hcore with
    live := fun a st hst => { hcore.live a st hst with }
    gone := fun a hst => { hcore.gone a hst with }
    unscheduled := fun a st e hst hevent x hx => ?_ }, { h.drains with }, { h.sending with }⟩
  exact hcore.unscheduled a st e hst hevent x (List.mem_filter.mp hx).1

/-- The invariant is kept, without a failed assertion, and a drain is signalled only when no
packet is pending. -/
theorem step (h : s.Inv) {input : DmaInput} (hen : s.Enabled input) (hproper : s.Proper input) :
    Settles (call input) s := by
  cases input with
  | dmaAction a answer => exact h.dmaAction hen hproper
  | sendEvent answer => exact h.sendEvent hen answer
  | recvRetry answer => exact h.recvRetry hen answer
  | recvTimingResp pkt => exact h.recvTimingResp hen
  | drain dm => exact h.drain hen dm
  | setMode mode => exact ⟨_, modify_eq_ok.mpr rfl, h.setMode hen mode, fun _ => rfl⟩
  | process event => exact ⟨_, modify_eq_ok.mpr rfl, h.process event, fun _ => rfl⟩
  | advance tick => exact ⟨_, modify_eq_ok.mpr rfl, h.advance tick, fun _ => rfl⟩

end Inv

theorem inv_of_reachable {s : DmaPort cfg} (h : machine.ReachableBy Proper s) : s.Inv := by
  refine h.invariant (fun s hstart => ?_) fun s input s' hinv hen hmeets hcall => ?_
  · obtain ⟨mode, now, rfl⟩ := hstart
    exact .startup mode now
  · obtain ⟨s'', hcall', hinv', -⟩ := hinv.step hen hmeets
    cases hcall.symm.trans hcall'
    exact hinv'

/-! ## Completion -/

def ackedBytes (s : DmaPort cfg) (i : Nat) : Nat :=
  total DmaPacket.action DmaPacket.size i s.acked

/-- The packets of action `i` tile its region, each is pending or acknowledged, and its event was
scheduled, once, exactly if every byte was acknowledged. -/
structure Completes (s : DmaPort cfg) (i : Nat) (a : DmaAction) : Prop where
  tiles : Tiles a.size.toNat 0 ((packets cfg i a).map fun p => (p.dataOffset, p.size))
  packets : (ofBatch DmaPacket.action i s.acked ++ ofBatch DmaPacket.action i s.pending).Perm
    (packets cfg i a)
  event : a.event ≠ none →
    s.completions.count i = if s.ackedBytes i = a.size.toNat then 1 else 0

/-- The counter of the pending packets, the drains, and that a queued packet will be sent. -/
structure Pending (s : DmaPort cfg) : Prop where
  count : s.pendingCount.toNat = s.pending.length
  waits : s.drainManager ≠ none → s.pendingCount ≠ 0
  signals : s.waited = s.signalled ++ s.drainManager.toList
  awake : s.transmitList ≠ [] → s.inRetry = true ∨ s.sendEvent ≠ none
  atomic : s.mode = .atomic → s.pending = []

namespace Inv

variable {s : DmaPort cfg} {i : Nat} {a : DmaAction}

theorem pending (h : s.Inv) : s.Pending := by
  refine ⟨?_, h.drains.waits, h.drains.signals, fun hqueued => ?_, h.sending.atomic⟩
  · rw [h.core.count, BitVec.toNat_ofNat, Nat.mod_eq_of_lt h.core.count_lt]
    rfl
  · rcases Bool.eq_false_or_eq_true s.inRetry with hretry | hretry
    · exact .inl hretry
    · exact .inr fun hnone => hqueued (h.sending.awake.mpr ⟨hretry, hnone⟩)

theorem issued_getD (ha : s.actions[i]? = some a) :
    s.issued.getD i [] = DmaPort.packets cfg i a := by
  unfold issued
  rw [List.getD_eq_getElem?_getD, List.getElem?_mapIdx, ha]
  rfl

/-- Everything was acknowledged if and only if nothing is left. -/
theorem ackedBytes_eq_iff (h : s.Inv) (ha : s.actions[i]? = some a) :
    s.ackedBytes i = a.size.toNat ↔ s.left [] i = [] := by
  have hsum := h.core.conserved.total_eq DmaPacket.size i
  rw [issued_getD ha, packets_sum] at hsum
  have hzero : total DmaPacket.action DmaPacket.size i ([] ++ s.pending) = 0 ↔ s.left [] i = [] :=
    total_eq_zero_iff h.core.sized
  rw [← hsum]
  show s.ackedBytes i = s.ackedBytes i + _ ↔ _
  rw [Nat.left_eq_add]
  exact hzero

theorem completes (h : s.Inv) (ha : s.actions[i]? = some a) : s.Completes i a := by
  refine ⟨packets_tiles cfg i a, issued_getD ha ▸ h.core.conserved i, fun hevent => ?_⟩
  have hlt : i < s.states.length := by
    rw [h.core.states_length]
    exact (List.getElem?_eq_some_iff.mp ha).1
  cases hst : s.states[i] with
  | some st =>
    have hlive := h.core.live i st (by rw [List.getElem?_eq_getElem hlt, hst])
    rw [hlive.silent, if_neg fun hall => hlive.left ((h.ackedBytes_eq_iff ha).mp hall)]
  | none =>
    have hgone := h.core.gone i (by rw [List.getElem?_eq_getElem hlt, hst])
    obtain ⟨a', ha', hcount⟩ := hgone.event
    cases ha.symm.trans ha'
    rw [hcount, if_pos (Option.isSome_iff_ne_none.mpr hevent),
      if_pos ((h.ackedBytes_eq_iff ha).mpr hgone.left)]

end Inv

end DmaPort

open DmaPort

/-- In a run whose actions transfer something, every action completes once and not before all its
bytes are acknowledged, the counter counts the pending packets, no call fails an assertion, and a
drain is signalled by the call that brings the counter to zero. -/
theorem dma_completion {s : DmaPort cfg} (h : machine.ReachableBy Proper s) :
    s.Pending ∧ (∀ i a, s.actions[i]? = some a → s.Completes i a) ∧
      ∀ input, s.Enabled input → s.Proper input → ∃ s', call input s = .ok ((), s') ∧
        s'.Pending ∧ (s'.pendingCount ≠ 0 → s'.signalled = s.signalled) := by
  have hinv := inv_of_reachable h
  refine ⟨hinv.pending, fun i a ha => hinv.completes ha, fun input hen hproper => ?_⟩
  obtain ⟨s', hcall, hinv', hsig⟩ := hinv.step hen hproper
  exact ⟨s', hcall, hinv'.pending, hsig⟩

namespace DmaPort

instance (s : DmaPort cfg) : DecidablePred s.Proper
  | .dmaAction _ _ => by unfold Proper; infer_instance
  | .sendEvent _ | .recvRetry _ | .recvTimingResp _ | .drain _ | .setMode _ | .process _
  | .advance _ => .isTrue trivial

def readAt32 (size : BitVec 32) (event : EventID) : DmaAction :=
  { cmd := .ReadReq, addr := 32, size, guestID := 1, event := some event }

/-- A read of two lines whose first packet is refused, and the answers to both packets in
reverse order. The action `more` is started meanwhile. -/
def twoLines (more : List DmaAction) : List DmaInput :=
  [.dmaAction (readAt32 64 0) ⟨false, fun _ => 0⟩] ++
    more.map (.dmaAction · ⟨true, fun _ => 0⟩) ++
  [.recvRetry ⟨true, fun _ => 0⟩, .advance 1, .sendEvent ⟨true, fun _ => 0⟩,
    .recvTimingResp ⟨0, .ReadReq, 1, 64, 32, 32⟩, .recvTimingResp ⟨0, .ReadReq, 1, 32, 32, 0⟩]

end DmaPort

theorem dma_completion_two_lines : ∃ s : DmaPort .lines64,
    s.Completes 0 (readAt32 64 0) ∧ s.ackedBytes 0 = 64 ∧ s.completions = [0] := by
  have hrun : (match machine.replay Proper ({ mode := .timing } : DmaPort .lines64)
    (twoLines []) with
      | some s => decide (s.actions[0]? = some (readAt32 64 0) ∧ s.ackedBytes 0 = 64 ∧
          s.completions = [0])
      | none => false) = true := by decide +kernel
  split at hrun
  · next s hreplay =>
      obtain ⟨haction, hacked, hcompleted⟩ := of_decide_eq_true hrun
      have hreach := (startup_reachable Proper .timing 0).replay hreplay
      exact ⟨s, (dma_completion hreach).2.1 0 _ haction, hacked, hcompleted⟩
  · cases hrun

/-- An action of size zero has no packet. While another one is pending its event is never scheduled,
and on an idle port the call fails an assertion. -/
theorem dma_size_zero_lost : (∃ s : DmaPort .lines64, machine.Reachable s ∧ s.pending = [] ∧
      s.actions[1]? = some (readAt32 0 7) ∧ s.ackedBytes 1 = 0 ∧ s.completions = [0] ∧
      s.scheduled = [(0, 1)]) ∧
    call (.dmaAction (readAt32 0 7) ⟨true, fun _ => 0⟩) ({ mode := .timing } : DmaPort .lines64) =
      .error .assertion := by
  have hrun : (match machine.replay (fun _ _ => True) ({ mode := .timing } : DmaPort .lines64)
        (twoLines [readAt32 0 7]) with
      | some s => decide (s.pending = [] ∧ s.actions[1]? = some (readAt32 0 7) ∧
          s.ackedBytes 1 = 0 ∧ s.completions = [0] ∧ s.scheduled = [(0, 1)])
      | none => false) = true := by decide +kernel
  refine ⟨?_, rfl⟩
  split at hrun
  · next s hreplay =>
      exact ⟨s, (startup_reachable _ .timing 0).replay hreplay, of_decide_eq_true hrun⟩
  · cases hrun

end PardG5V
