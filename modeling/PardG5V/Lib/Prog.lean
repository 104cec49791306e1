import Mathlib.Logic.Basic
import Mathlib.Order.Defs.Unbundled

/-!
# Programs over a state that may abort

A program reads and writes a state and either returns a value or aborts. `Triple P m Q` says that
every normal return of `m` from a state with `P` has `Q`, and nothing about a run that aborts.
`Follows T m` says the same of the state before and the state after, for a reflexive and
transitive `T`.
-/

namespace Prog

variable {ε σ τ α β γ : Type} {x : Except ε α} {a : α}

/-! ## Sequencing of computations that may abort -/

@[simp] theorem except_bind_eq_ok {f : α → Except ε β} {b : β} :
    (x >>= f) = .ok b ↔ ∃ a, x = .ok a ∧ f a = .ok b := by
  cases x with
  | error e | ok a => simp [bind, Except.bind]

@[simp] theorem except_pure_eq_ok {b : α} : (pure a : Except ε α) = .ok b ↔ a = b := by
  simp [pure, Except.pure]

@[simp] theorem except_throw_ne_ok {e : ε} : (throw e : Except ε α) = .ok a ↔ False := by
  simp [throw, throwThe, MonadExceptOf.throw]

@[simp] theorem except_map_eq_ok {f : α → β} {b : β} :
    f <$> x = .ok b ↔ ∃ a, x = .ok a ∧ f a = b := by
  cases x with
  | error e | ok a => simp [Functor.map, Except.map]

@[simp] theorem except_ite_eq_ok {c : Prop} [Decidable c] {y : Except ε α} :
    (if c then x else y) = .ok a ↔ c ∧ x = .ok a ∨ ¬ c ∧ y = .ok a := by
  by_cases h : c
  · simp [h]
  · simp [h]

/-- What a program without a result returns can be forgotten. -/
@[simp] theorem exists_unit {p : Unit → Prop} : (∃ u, p u) ↔ p () :=
  ⟨fun ⟨(), h⟩ => h, fun h => ⟨(), h⟩⟩

end Prog

/-- A program over the state `σ` that may abort with an `ε`. -/
abbrev Prog (ε σ α : Type) := StateT σ (Except ε) α

namespace Prog

variable {ε σ τ α β γ : Type} {s s' : σ}

/-! ## Inversion -/

@[simp] theorem bind_eq_ok {m : Prog ε σ α} {f : α → Prog ε σ β} {b : β} :
    (m >>= f) s = .ok (b, s') ↔ ∃ a s₁, m s = .ok (a, s₁) ∧ f a s₁ = .ok (b, s') := by
  show (m s >>= fun p => f p.1 p.2) = .ok (b, s') ↔ _
  simp

/-- A program goes on where its first part returns. -/
theorem bind_run {m : Prog ε σ α} {f : α → Prog ε σ β} {a : α} (h : m s = .ok (a, s')) :
    (m >>= f) s = f a s' := by
  show (m s >>= fun p => f p.1 p.2) = _
  rw [h]
  rfl

@[simp] theorem pure_eq_ok {a b : α} : (pure a : Prog ε σ α) s = .ok (b, s') ↔ a = b ∧ s = s' := by
  show (pure (a, s) : Except ε (α × σ)) = .ok (b, s') ↔ _
  simp

@[simp] theorem map_eq_ok {m : Prog ε σ α} {f : α → β} {b : β} :
    (f <$> m) s = .ok (b, s') ↔ ∃ a, m s = .ok (a, s') ∧ f a = b := by
  rw [map_eq_pure_bind, bind_eq_ok]
  constructor
  · rintro ⟨a, s₁, hm, hp⟩
    obtain ⟨rfl, rfl⟩ := pure_eq_ok.mp hp
    exact ⟨a, hm, rfl⟩
  · rintro ⟨a, hm, rfl⟩
    exact ⟨a, s', hm, pure_eq_ok.mpr ⟨rfl, rfl⟩⟩

@[simp] theorem discard_eq_ok {m : Prog ε σ α} {u : PUnit} :
    discard m s = .ok (u, s') ↔ ∃ a, m s = .ok (a, s') := by
  show (Function.const α PUnit.unit <$> m) s = .ok (u, s') ↔ _
  rw [map_eq_ok]
  exact ⟨fun ⟨a, h, _⟩ => ⟨a, h⟩, fun ⟨a, h⟩ => ⟨a, h, rfl⟩⟩

@[simp] theorem get_eq_ok {a : σ} : (get : Prog ε σ σ) s = .ok (a, s') ↔ s = a ∧ s = s' := by
  show (pure (s, s) : Except ε (σ × σ)) = .ok (a, s') ↔ _
  simp

@[simp] theorem modify_eq_ok {f : σ → σ} {u : PUnit} :
    (modify f : Prog ε σ PUnit) s = .ok (u, s') ↔ f s = s' := by
  show (pure (PUnit.unit, f s) : Except ε (PUnit × σ)) = .ok (u, s') ↔ _
  simp

@[simp] theorem throw_ne_ok {e : ε} {a : α} : (throw e : Prog ε σ α) s = .ok (a, s') ↔ False := by
  show (Except.error e : Except ε (α × σ)) = .ok (a, s') ↔ _
  simp

@[simp] theorem ite_eq_ok {c : Prop} [Decidable c] {m₁ m₂ : Prog ε σ α} {r : α × σ} :
    (if c then m₁ else m₂) s = .ok r ↔ c ∧ m₁ s = .ok r ∨ ¬ c ∧ m₂ s = .ok r := by
  by_cases h : c
  · simp [h]
  · simp [h]

@[simp] theorem lift_eq_ok {x : Except ε α} {a : α} :
    (liftM x : Prog ε σ α) s = .ok (a, s') ↔ x = .ok a ∧ s = s' := by
  show (x >>= fun a => pure (a, s) : Except ε (α × σ)) = .ok (a, s') ↔ _
  simp only [except_bind_eq_ok, except_pure_eq_ok, Prod.mk.injEq]
  constructor
  · rintro ⟨_, hx, rfl, hs⟩
    exact ⟨hx, hs⟩
  · rintro ⟨hx, hs⟩
    exact ⟨a, hx, rfl, hs⟩

theorem get_bind_eq_ok {f : σ → Prog ε σ β} {b : β} :
    (get >>= f) s = .ok (b, s') ↔ f s s = .ok (b, s') := Iff.rfl

theorem modify_bind_eq_ok {g : σ → σ} {f : PUnit → Prog ε σ β} {b : β} :
    (modify g >>= f) s = .ok (b, s') ↔ f ⟨⟩ (g s) = .ok (b, s') := Iff.rfl

theorem lift_bind_eq_ok {x : Except ε α} {f : α → Prog ε σ β} {b : β} :
    ((liftM x : Prog ε σ α) >>= f) s = .ok (b, s') ↔ ∃ a, x = .ok a ∧ f a s = .ok (b, s') := by
  simp only [bind_eq_ok, lift_eq_ok]
  constructor
  · rintro ⟨a, _, ⟨hx, rfl⟩, h⟩
    exact ⟨a, hx, h⟩
  · rintro ⟨a, hx, h⟩
    exact ⟨a, s, ⟨hx, rfl⟩, h⟩

/-! ## Branches, loops and parts of the state -/

def when (c : Bool) (m : Prog ε σ Unit) : Prog ε σ Unit :=
  if c then m else pure ()

/-- `f` on every element of a list, from the front. -/
def forEach (f : α → Prog ε σ Unit) : List α → Prog ε σ Unit
  | [] => pure ()
  | x :: xs => do
    f x
    forEach f xs

/-- A program over a part of the state, run in the whole state. -/
def zoom (view : σ → τ) (put : τ → σ → σ) (m : Prog ε τ α) : Prog ε σ α := fun s => do
  let (a, t) ← m (view s)
  return (a, put t s)

@[simp] theorem when_eq_ok {c : Bool} {m : Prog ε σ Unit} {u : Unit} :
    when c m s = .ok (u, s') ↔ c = true ∧ m s = .ok (u, s') ∨ c = false ∧ s = s' := by
  cases c with
  | false | true => simp [when]

@[simp] theorem zoom_eq_ok {view : σ → τ} {put : τ → σ → σ} {m : Prog ε τ α} {a : α} :
    zoom view put m s = .ok (a, s') ↔ ∃ t, m (view s) = .ok (a, t) ∧ put t s = s' := by
  unfold zoom
  cases hm : m (view s) with
  | error e => simp [bind, Except.bind]
  | ok r => simp [bind, Except.bind, pure, Except.pure, Prod.ext_iff, and_assoc]

@[simp] theorem forEach_nil_eq_ok {f : α → Prog ε σ Unit} {u : Unit} :
    forEach f [] s = .ok (u, s') ↔ s = s' := by
  simp [forEach]

@[simp] theorem forEach_cons_eq_ok {f : α → Prog ε σ Unit} {x : α} {xs : List α} {u : Unit} :
    forEach f (x :: xs) s = .ok (u, s') ↔
      ∃ s₁, f x s = .ok ((), s₁) ∧ forEach f xs s₁ = .ok (u, s') := by
  show (f x >>= fun _ => forEach f xs) s = .ok (u, s') ↔ _
  rw [bind_eq_ok]
  constructor
  · rintro ⟨_, s₁, h⟩
    exact ⟨s₁, h⟩
  · rintro ⟨s₁, h⟩
    exact ⟨(), s₁, h⟩

/-! ## Triples -/

/-- Every normal return of `m` from a state with `P` has `Q`. -/
def Triple (P : σ → Prop) (m : Prog ε σ α) (Q : α → σ → Prop) : Prop :=
  ∀ s, P s → ∀ a s', m s = .ok (a, s') → Q a s'

/-- `m` keeps `I`. -/
def Keeps (I : σ → Prop) (m : Prog ε σ α) : Prop :=
  Triple I m fun _ => I

section Rules

variable {P P' : σ → Prop} {Q Q' : α → σ → Prop} {R : β → σ → Prop} {I : σ → Prop}
  {m m₁ m₂ : Prog ε σ α} {a : α} {c : Prop} {xs : List α}

theorem Triple.conseq (h : Triple P m Q) (hP : ∀ s, P' s → P s)
    (hQ : ∀ a s, Q a s → Q' a s) : Triple P' m Q' :=
  fun s hs a s' hm => hQ a s' (h s (hP s hs) a s' hm)

theorem Triple.pure (h : ∀ s, P s → Q a s) : Triple (ε := ε) P (pure a) Q := by
  intro s hs b s' hm
  obtain ⟨rfl, rfl⟩ := pure_eq_ok.mp hm
  exact h s hs

theorem Triple.bind {f : α → Prog ε σ β} (hm : Triple P m Q)
    (hf : ∀ a, Triple (Q a) (f a) R) : Triple P (m >>= f) R := by
  intro s hs b s' h
  obtain ⟨a, s₁, h₁, h₂⟩ := bind_eq_ok.mp h
  exact hf a s₁ (hm s hs a s₁ h₁) b s' h₂

theorem Triple.ite [Decidable c] (h₁ : c → Triple P m₁ Q) (h₂ : ¬ c → Triple P m₂ Q) :
    Triple P (if c then m₁ else m₂) Q := by
  split
  · next h => exact h₁ h
  · next h => exact h₂ h

theorem Keeps.pure : Keeps (ε := ε) I (pure a) := Triple.pure fun _ h => h

theorem Keeps.bind {f : α → Prog ε σ β} (hm : Keeps I m)
    (hf : ∀ a, Keeps I (f a)) : Keeps I (m >>= f) :=
  Triple.bind hm hf

theorem Keeps.get : Keeps (ε := ε) I (get : Prog ε σ σ) := by
  intro s hs a s' hm
  obtain ⟨_, rfl⟩ := get_eq_ok.mp hm
  exact hs

theorem Keeps.modify {f : σ → σ} (h : ∀ s, I s → I (f s)) :
    Keeps (ε := ε) I (modify f : Prog ε σ PUnit) := by
  intro s hs u s' hm
  rw [← modify_eq_ok.mp hm]
  exact h s hs

theorem Keeps.ite [Decidable c] (h₁ : c → Keeps I m₁)
    (h₂ : ¬ c → Keeps I m₂) : Keeps I (if c then m₁ else m₂) :=
  Triple.ite h₁ h₂

theorem Keeps.forEach {f : α → Prog ε σ Unit} (h : ∀ x ∈ xs, Keeps I (f x)) :
    Keeps I (forEach f xs) := by
  induction xs with
  | nil => exact Keeps.pure
  | cons x xs ih =>
    refine Keeps.bind (h x List.mem_cons_self) fun _ => ?_
    exact ih fun y hy => h y (List.mem_cons_of_mem x hy)

/-- What each round establishes and every round keeps holds of all elements at the end. -/
theorem forEach_establishes {K : α → σ → Prop} {f : α → Prog ε σ Unit}
    (hset : ∀ x s s', f x s = .ok ((), s') → K x s') (hkeep : ∀ x y, Keeps (K y) (f x))
    (h : Prog.forEach f xs s = .ok ((), s')) : ∀ x ∈ xs, K x s' := by
  induction xs generalizing s with
  | nil => exact fun _ hx => nomatch hx
  | cons y ys ih =>
    obtain ⟨s₁, hy, hys⟩ := forEach_cons_eq_ok.mp h
    intro x hx
    rcases List.mem_cons.mp hx with rfl | hx
    · exact Keeps.forEach (fun z _ => hkeep z x) s₁ (hset x s s₁ hy) () s' hys
    · exact ih hys x hx

end Rules

/-! ## Relations between the state before and the state after -/

/-- Every normal return of `m` is related by `T` to the state `m` started in. -/
def Follows (T : σ → σ → Prop) (m : Prog ε σ α) : Prop :=
  ∀ s a s', m s = .ok (a, s') → T s s'

namespace Follows

variable {T : σ → σ → Prop} [IsPreorder σ T]

omit [IsPreorder σ T] in
theorem run {m : Prog ε σ α} {a : α} (hm : m s = .ok (a, s')) (h : Follows T m) : T s s' :=
  h s a s' hm

theorem pure {a : α} : Follows (ε := ε) T (pure a) := by
  intro s b s' h
  obtain ⟨_, rfl⟩ := pure_eq_ok.mp h
  exact refl_of T s

theorem bind {m : Prog ε σ α} {f : α → Prog ε σ β} (hm : Follows T m)
    (hf : ∀ a, Follows T (f a)) : Follows T (m >>= f) := by
  intro s b s' h
  obtain ⟨a, s₁, h₁, h₂⟩ := bind_eq_ok.mp h
  exact trans_of T (hm s a s₁ h₁) (hf a s₁ b s' h₂)

theorem get : Follows (ε := ε) T (get : Prog ε σ σ) := by
  intro s a s' h
  obtain ⟨_, rfl⟩ := get_eq_ok.mp h
  exact refl_of T s

omit [IsPreorder σ T] in
theorem modify {f : σ → σ} (h : ∀ s, T s (f s)) :
    Follows (ε := ε) T (modify f : Prog ε σ PUnit) := by
  intro s u s' hm
  rw [← modify_eq_ok.mp hm]
  exact h s

theorem lift {x : Except ε α} : Follows T (liftM x : Prog ε σ α) := by
  intro s a s' h
  obtain ⟨_, rfl⟩ := lift_eq_ok.mp h
  exact refl_of T s

omit [IsPreorder σ T] in
theorem ite {c : Prop} [Decidable c] {m₁ m₂ : Prog ε σ α} (h₁ : c → Follows T m₁)
    (h₂ : ¬ c → Follows T m₂) : Follows T (if c then m₁ else m₂) := by
  split
  · next h => exact h₁ h
  · next h => exact h₂ h

theorem when {c : Bool} {m : Prog ε σ Unit} (h : c = true → Follows T m) : Follows T (when c m) :=
  ite h fun _ => pure

theorem forEach {f : α → Prog ε σ Unit} {xs : List α} (h : ∀ x ∈ xs, Follows T (f x)) :
    Follows T (forEach f xs) := by
  induction xs with
  | nil => exact pure
  | cons x xs ih =>
    refine bind (h x List.mem_cons_self) fun _ => ?_
    exact ih fun y hy => h y (List.mem_cons_of_mem x hy)

end Follows

/-- Related by `T`, with the part `f` of the state left alone. -/
def Along (T : σ → σ → Prop) (f : σ → β) (s s' : σ) : Prop := T s s' ∧ f s' = f s

instance {T : σ → σ → Prop} [IsPreorder σ T] {f : σ → β} : IsPreorder σ (Along T f) where
  refl s := ⟨refl_of T s, rfl⟩
  trans _ _ _ h h' := ⟨trans_of T h.1 h'.1, h'.2.trans h.2⟩

theorem Follows.of_along {T : σ → σ → Prop} {f : σ → β} {m : Prog ε σ α}
    (h : Follows (Along T f) m) : Follows T m :=
  fun s a s' hm => (h s a s' hm).1

end Prog
