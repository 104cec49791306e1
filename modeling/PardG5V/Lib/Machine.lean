import PardG5V.Lib.Prog

/-!
# Machines and their runs

A machine takes inputs, of which some are enabled in a state, and runs a program for each. An
invariant of its runs is one that holds at the start and that every enabled input keeps. Runs are
taken relative to a condition on the inputs, so that a machine that is right only for some of its
uses can be reasoned about in the same way. `recording` keeps the inputs of a run with what the
machine answered.
-/

/-- A machine: its states at the start, its inputs, and what an input does. -/
structure Machine (ε σ ι : Type) where
  start : σ → Prop
  enabled : σ → ι → Prop
  call : ι → Prog ε σ Unit

namespace Machine

variable {ε σ ι : Type} {m : Machine ε σ ι} {C D : σ → ι → Prop} {s s' : σ}

/-- A state that a run of enabled inputs leads to, all of which meet `C`. -/
inductive ReachableBy (m : Machine ε σ ι) (C : σ → ι → Prop) : σ → Prop
  | startup {s : σ} (h : m.start s) : ReachableBy m C s
  | step {s s' : σ} {input : ι} (h : ReachableBy m C s) (hen : m.enabled s input)
      (hmeets : C s input) (hcall : m.call input s = .ok ((), s')) : ReachableBy m C s'

def Reachable (m : Machine ε σ ι) (s : σ) : Prop := m.ReachableBy (fun _ _ => True) s

theorem ReachableBy.invariant {I : σ → Prop} (h : m.ReachableBy C s) (hstart : ∀ s, m.start s → I s)
    (hstep : ∀ s input s', I s → m.enabled s input → C s input →
      m.call input s = .ok ((), s') → I s') : I s := by
  induction h with
  | startup h => exact hstart _ h
  | step _ hen hmeets hcall ih => exact hstep _ _ _ ih hen hmeets hcall

theorem ReachableBy.mono (h : m.ReachableBy C s) (himp : ∀ s input, C s input → D s input) :
    m.ReachableBy D s := by
  induction h with
  | startup h => exact .startup h
  | step _ hen hmeets hcall ih => exact .step ih hen (himp _ _ hmeets) hcall

/-- Runs a list of inputs, as long as they are enabled and meet `C`. -/
def replay (m : Machine ε σ ι) (C : σ → ι → Prop) [∀ s i, Decidable (m.enabled s i)]
    [∀ s i, Decidable (C s i)] (s : σ) : List ι → Option σ
  | [] => some s
  | input :: inputs =>
    if m.enabled s input ∧ C s input then
      match m.call input s with
      | .ok (_, s') => m.replay C s' inputs
      | .error _ => none
    else none

theorem ReachableBy.replay_imp [∀ s i, Decidable (m.enabled s i)] [∀ s i, Decidable (C s i)]
    (h : m.ReachableBy D s) {inputs : List ι} (hreplay : m.replay C s inputs = some s')
    (himp : ∀ s, ∀ i ∈ inputs, C s i → D s i) : m.ReachableBy D s' := by
  induction inputs generalizing s with
  | nil =>
    cases hreplay
    exact h
  | cons input inputs ih =>
    unfold Machine.replay at hreplay
    split at hreplay
    · next hmeets =>
        cases hcall : m.call input s with
        | ok r =>
          rw [hcall] at hreplay
          have hone : D s input := himp s input List.mem_cons_self hmeets.2
          exact ih (.step h hmeets.1 hone hcall) hreplay fun s i hi =>
            himp s i (List.mem_cons_of_mem input hi)
        | error e =>
          rw [hcall] at hreplay
          cases hreplay
    · cases hreplay

theorem ReachableBy.replay [∀ s i, Decidable (m.enabled s i)] [∀ s i, Decidable (C s i)]
    (h : m.ReachableBy C s) {inputs : List ι} (hreplay : m.replay C s inputs = some s') :
    m.ReachableBy C s' := h.replay_imp hreplay fun _ _ _ => id

/-- A run that can be evaluated leads to a state with `p`. -/
theorem ReachableBy.exists_of_replay [∀ s i, Decidable (m.enabled s i)] [∀ s i, Decidable (C s i)]
    {p : σ → Prop} [DecidablePred p] (h : m.ReachableBy C s) (inputs : List ι)
    (hrun : (m.replay C s inputs).any (fun s' => decide (p s')) = true) :
    ∃ s', m.ReachableBy C s' ∧ p s' := by
  obtain ⟨s', hreplay, hp⟩ := (Option.any_eq_true _ _).mp hrun
  exact ⟨s', h.replay hreplay, of_decide_eq_true hp⟩

/-! ## Recorded runs -/

section Recording

variable {ω : Type} {start : σ → Prop} {enabled : σ → ι → Prop} {serve : ι → Prog ε σ ω}

variable (start enabled serve) in
/-- The machine of calls that return something. With the state it has the inputs so far and what
they returned, the latest first. The calls do not see them. -/
def recording : Machine ε (σ × List (ι × ω)) ι where
  start r := start r.1 ∧ r.2 = []
  enabled r := enabled r.1
  call input r := (serve input r.1).map fun a => ((), a.2, (input, a.1) :: r.2)

instance decidableRecording [∀ s i, Decidable (enabled s i)] (r : σ × List (ι × ω)) (input : ι) :
    Decidable ((recording start enabled serve).enabled r input) :=
  inferInstanceAs (Decidable (enabled r.1 input))

/-- An invariant of the state and of what was recorded. -/
theorem ReachableBy.recorded {C : σ × List (ι × ω) → ι → Prop} {I : σ → List (ι × ω) → Prop}
    {r : σ × List (ι × ω)} (h : (recording start enabled serve).ReachableBy C r)
    (hstart : ∀ s, start s → I s [])
    (hstep : ∀ s log input answer s', I s log → enabled s input → C (s, log) input →
      serve input s = .ok (answer, s') → I s' ((input, answer) :: log)) : I r.1 r.2 := by
  refine h.invariant (I := fun r => I r.1 r.2) ?_ fun r input r' hr hen hmeets hcall => ?_
  · rintro ⟨s, log⟩ ⟨hs, rfl⟩
    exact hstart s hs
  · obtain ⟨answer, hserve, heq⟩ := Prog.except_map_eq_ok.mp hcall
    cases heq
    exact hstep _ _ _ _ _ hr hen hmeets hserve

theorem ReachableBy.record {C : σ × List (ι × ω) → ι → Prop} {log : List (ι × ω)} {input : ι}
    {answer : ω} (h : (recording start enabled serve).ReachableBy C (s, log))
    (hen : enabled s input) (hmeets : C (s, log) input)
    (hserve : serve input s = .ok (answer, s')) :
    (recording start enabled serve).ReachableBy C (s', (input, answer) :: log) :=
  .step h hen hmeets (Prog.except_map_eq_ok.mpr ⟨(answer, s'), hserve, rfl⟩)

end Recording

end Machine
