import PardG5V.Lib.Prog

/-!
# Errors that do not happen

`Avoids bad x` says that the computation `x` does not fail with an error of `bad`; it
may fail with another one. A program avoids `bad` when it does so in every state, and
a program that only does so in some states is followed from the state it starts in.
-/

namespace Prog

variable {ε σ τ α β : Type} {bad : ε → Prop}

/-- The computation does not fail with an error of `bad`. -/
def Avoids (bad : ε → Prop) (x : Except ε α) : Prop := ∀ e, x = .error e → ¬ bad e

/-- The program avoids `bad` in every state. -/
def Safe (bad : ε → Prop) (m : Prog ε σ α) : Prop := ∀ s, Avoids bad (m s)

namespace Avoids

variable {x : Except ε α} {s : σ}

theorem ok {a : α} : Avoids bad (.ok a) := fun _ h => nomatch h

theorem error {e : ε} (h : ¬ bad e) : Avoids bad (.error e : Except ε α) := by
  intro e' he
  cases he
  exact h

theorem returns (h : Avoids (fun _ => True) x) : ∃ a, x = .ok a := by
  cases x with
  | ok a => exact ⟨a, rfl⟩
  | error e => exact absurd trivial (h e rfl)

theorem bind {f : α → Except ε β} (hx : Avoids bad x)
    (hf : ∀ a, x = .ok a → Avoids bad (f a)) : Avoids bad (x >>= f) := by
  cases x with
  | error e =>
    intro e' he
    have heq : (Except.error e : Except ε β) = .error e' := he
    cases heq
    exact hx e rfl
  | ok a => exact hf a rfl

theorem ite {c : Prop} [Decidable c] {y : Except ε α} (hx : c → Avoids bad x)
    (hy : ¬ c → Avoids bad y) : Avoids bad (if c then x else y) := by
  split
  · next h => exact hx h
  · next h => exact hy h

theorem run_bind {m : Prog ε σ α} {f : α → Prog ε σ β} (hm : Avoids bad (m s))
    (hf : ∀ a s', m s = .ok (a, s') → Avoids bad (f a s')) : Avoids bad ((m >>= f) s) := by
  show Avoids bad (m s >>= fun p => f p.1 p.2)
  exact hm.bind fun p hp => hf p.1 p.2 hp

theorem get_bind {f : σ → Prog ε σ β} (h : Avoids bad (f s s)) : Avoids bad ((get >>= f) s) := h

theorem modify_bind {g : σ → σ} {f : PUnit → Prog ε σ β}
    (h : Avoids bad (f ⟨⟩ (g s))) : Avoids bad ((modify g >>= f) s) := h

theorem lift_bind {f : α → Prog ε σ β} (hx : Avoids bad x)
    (hf : ∀ a, x = .ok a → Avoids bad (f a s)) : Avoids bad (((liftM x : Prog ε σ α) >>= f) s) := by
  refine run_bind (hx.bind fun _ _ => ok) fun a s' h => ?_
  obtain ⟨hok, rfl⟩ := lift_eq_ok.mp h
  exact hf a hok

theorem run_ite {c : Prop} [Decidable c] {m₁ m₂ : Prog ε σ α}
    (h₁ : c → Avoids bad (m₁ s)) (h₂ : ¬ c → Avoids bad (m₂ s)) :
    Avoids bad ((if c then m₁ else m₂) s) := by
  split
  · next h => exact h₁ h
  · next h => exact h₂ h

theorem whenever {c : Bool} {m : Prog ε σ Unit} (h : c = true → Avoids bad (m s)) :
    Avoids bad (when c m s) := by
  cases c with
  | true => exact h rfl
  | false => exact ok

theorem discard {m : Prog ε σ α} (h : Avoids bad (m s)) : Avoids bad (discard m s) := by
  show Avoids bad ((m >>= fun _ => pure ()) s)
  exact run_bind h fun _ _ _ => ok

/-- A loop whose rounds avoid `bad` and keep what they need for that. -/
theorem forEach {I : σ → Prop} {f : α → Prog ε σ Unit} (hf : ∀ x s, I s → Avoids bad (f x s))
    (hkeep : ∀ x s s', I s → f x s = .ok ((), s') → I s') :
    ∀ (xs : List α) {s : σ}, I s → Avoids bad (forEach f xs s)
  | [], _, _ => ok
  | x :: xs, s, hs =>
    run_bind (hf x s hs) fun _ s' h => forEach hf hkeep xs (hkeep x s s' hs h)

end Avoids

namespace Safe

theorem pure {a : α} : Safe (σ := σ) bad (pure a : Prog ε σ α) := fun _ => .ok

theorem bind {m : Prog ε σ α} {f : α → Prog ε σ β} (hm : Safe bad m) (hf : ∀ a, Safe bad (f a)) :
    Safe bad (m >>= f) :=
  fun s => (hm s).run_bind fun a s' _ => hf a s'

theorem get : Safe bad (get : Prog ε σ σ) := fun _ => .ok

theorem modify {f : σ → σ} : Safe bad (modify f : Prog ε σ PUnit) := fun _ => .ok

theorem lift {x : Except ε α} (h : Avoids bad x) : Safe bad (liftM x : Prog ε σ α) :=
  fun _ => h.bind fun _ _ => .ok

theorem ite {c : Prop} [Decidable c] {m₁ m₂ : Prog ε σ α} (h₁ : c → Safe bad m₁)
    (h₂ : ¬ c → Safe bad m₂) : Safe bad (if c then m₁ else m₂) := by
  split
  · next h => exact h₁ h
  · next h => exact h₂ h

theorem when {c : Bool} {m : Prog ε σ Unit} (h : Safe bad m) : Safe bad (when c m) :=
  ite (fun _ => h) fun _ => pure

theorem throw {e : ε} (h : ¬ bad e) : Safe bad (throw e : Prog ε σ α) := fun _ => .error h

theorem discard {m : Prog ε σ α} (h : Safe bad m) : Safe bad (discard m) := h.bind fun _ => pure

theorem forEach {f : α → Prog ε σ Unit} (h : ∀ x, Safe bad (f x)) :
    ∀ xs : List α, Safe bad (forEach f xs)
  | [] => pure
  | x :: xs => (h x).bind fun _ => forEach h xs

theorem zoom {view : σ → τ} {put : τ → σ → σ} {m : Prog ε τ α} (h : Safe bad m) :
    Safe bad (zoom view put m) :=
  fun s => (h (view s)).bind fun _ _ => .ok

end Safe

/-- Every normal return is related by `T` to the start, and no error is one of `bad`. -/
def Runs (T : σ → σ → Prop) (bad : ε → Prop) (m : Prog ε σ α) : Prop := Follows T m ∧ Safe bad m

namespace Runs

variable {T : σ → σ → Prop} [IsPreorder σ T]

theorem pure {a : α} : Runs T bad (pure a : Prog ε σ α) := ⟨.pure, .pure⟩

theorem bind {m : Prog ε σ α} {f : α → Prog ε σ β} (hm : Runs T bad m)
    (hf : ∀ a, Runs T bad (f a)) : Runs T bad (m >>= f) :=
  ⟨.bind hm.1 fun a => (hf a).1, .bind hm.2 fun a => (hf a).2⟩

theorem get : Runs T bad (get : Prog ε σ σ) := ⟨.get, .get⟩

theorem lift {x : Except ε α} (h : Avoids bad x) : Runs T bad (liftM x : Prog ε σ α) :=
  ⟨.lift, .lift h⟩

section

omit [IsPreorder σ T]

theorem modify {f : σ → σ} (h : ∀ s, T s (f s)) : Runs T bad (modify f : Prog ε σ PUnit) :=
  ⟨.modify h, .modify⟩

theorem throw {e : ε} (h : ¬ bad e) : Runs T bad (throw e : Prog ε σ α) :=
  ⟨fun _ _ _ hok => (throw_ne_ok.mp hok).elim, .throw h⟩

theorem ite {c : Prop} [Decidable c] {m₁ m₂ : Prog ε σ α} (h₁ : Runs T bad m₁)
    (h₂ : Runs T bad m₂) : Runs T bad (if c then m₁ else m₂) :=
  ⟨.ite (fun _ => h₁.1) fun _ => h₂.1, .ite (fun _ => h₁.2) fun _ => h₂.2⟩

end

theorem when {c : Bool} {m : Prog ε σ Unit} (h : Runs T bad m) : Runs T bad (when c m) := ite h pure

end Runs

end Prog
