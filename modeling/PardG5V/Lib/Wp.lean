import PardG5V.Lib.Prog

/-!
# Weakest preconditions

`wp bad m Q s` says that `m` either returns from `s` in a state with `Q` or stops, for a reason
that is not `bad`. With a predicate `bad` that nothing meets this is partial correctness, with
one that is always met it is the absence of every failure. The rules compute the precondition of
a program from those of its parts.
-/

namespace Prog

variable {ε σ τ α β : Type} {bad : ε → Prop} {s s' : σ}

/-- From `s` the program returns with `Q`, or stops for a reason that is not `bad`. -/
def wp (bad : ε → Prop) (m : Prog ε σ α) (Q : α → σ → Prop) (s : σ) : Prop :=
  match m s with
  | .ok (a, s') => Q a s'
  | .error e => ¬ bad e

theorem wp_ok {m : Prog ε σ α} {Q : α → σ → Prop} {a : α} (h : wp bad m Q s)
    (hm : m s = .ok (a, s')) : Q a s' := by
  unfold wp at h
  rw [hm] at h
  exact h

theorem wp_error {m : Prog ε σ α} {Q : α → σ → Prop} {e : ε} (h : wp bad m Q s)
    (hm : m s = .error e) : ¬ bad e := by
  unfold wp at h
  rw [hm] at h
  exact h

theorem wp.mono {m : Prog ε σ α} {Q R : α → σ → Prop} (h : wp bad m Q s)
    (himp : ∀ a s', Q a s' → R a s') : wp bad m R s := by
  unfold wp at h ⊢
  split
  · next a s' hm =>
      rw [hm] at h
      exact himp a s' h
  · next e hm =>
      rw [hm] at h
      exact h

theorem wp.returns {m : Prog ε σ α} {Q : α → σ → Prop} (h : wp (fun _ => True) m Q s) :
    ∃ a s', m s = .ok (a, s') ∧ Q a s' := by
  unfold wp at h
  split at h
  · next a s' hm => exact ⟨a, s', hm, h⟩
  · exact absurd trivial h

theorem wp_of_follows {m : Prog ε σ α} {T : σ → σ → Prop} (h : Follows T m) :
    wp (fun _ => False) m (fun _ s' => T s s') s := by
  unfold wp
  split
  · next a s' hm => exact h s a s' hm
  · exact not_false

variable {Q : α → σ → Prop} {R : β → σ → Prop}

@[simp] theorem wp_pure {a : α} : wp bad (pure a) Q s ↔ Q a s := Iff.rfl

@[simp] theorem wp_bind {m : Prog ε σ α} {f : α → Prog ε σ β} :
    wp bad (m >>= f) R s ↔ wp bad m (fun a s' => wp bad (f a) R s') s := by
  unfold wp
  show (match Except.bind (m s) fun r => f r.1 r.2 with
    | .ok (b, s') => R b s'
    | .error e => ¬ bad e) ↔ _
  cases m s with
  | error e | ok r => rfl

@[simp] theorem wp_get {Q : σ → σ → Prop} : wp bad (get : Prog ε σ σ) Q s ↔ Q s s := Iff.rfl

@[simp] theorem wp_modify {f : σ → σ} {Q : PUnit → σ → Prop} :
    wp bad (modify f : Prog ε σ PUnit) Q s ↔ Q ⟨⟩ (f s) := Iff.rfl

@[simp] theorem wp_throw {e : ε} : wp bad (throw e : Prog ε σ α) Q s ↔ ¬ bad e := Iff.rfl

@[simp] theorem wp_ite {c : Prop} [Decidable c] {m₁ m₂ : Prog ε σ α} :
    wp bad (if c then m₁ else m₂) Q s ↔ (c → wp bad m₁ Q s) ∧ (¬ c → wp bad m₂ Q s) := by
  by_cases h : c
  · simp [h]
  · simp [h]

@[simp] theorem wp_when {c : Bool} {m : Prog ε σ Unit} {Q : Unit → σ → Prop} :
    wp bad (when c m) Q s ↔ (c = true → wp bad m Q s) ∧ (c = false → Q () s) := by
  cases c with
  | false | true => simp [when]

@[simp] theorem wp_zoom {view : σ → τ} {put : τ → σ → σ} {m : Prog ε τ α} :
    wp bad (zoom view put m) Q s ↔ wp bad m (fun a t => Q a (put t s)) (view s) := by
  unfold wp zoom
  show (match Except.bind (m (view s)) fun r => .ok (r.1, put r.2 s) with
    | .ok (a, s') => Q a s'
    | .error e => ¬ bad e) ↔ _
  cases m (view s) with
  | error e | ok r => rfl

@[simp] theorem wp_discard {m : Prog ε σ α} {Q : PUnit → σ → Prop} :
    wp bad (discard m) Q s ↔ wp bad m (fun _ s' => Q ⟨⟩ s') s := by
  show wp bad (m >>= fun _ => pure ⟨⟩) Q s ↔ _
  exact wp_bind

end Prog
