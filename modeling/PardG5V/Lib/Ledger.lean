import Mathlib.Data.Set.Lattice
import PardG5V.Lib.Prog

/-!
# Ledgers

A program writes events to a log. Some events take an item over, and others pass an
item on. `Passes inp m out` says that `m`, started while the items `inp` have yet to
be passed on, leaves at most the items `out` in that state: everything else that was
taken over has been passed on. The rules follow the program, and what `m` does not
know about is framed.
-/

namespace Prog

/-- The log of a state, and what its events take over and pass on. -/
structure Ledger (σ E ι : Type) where
  log : σ → List E
  takes : E → Option ι
  gives : E → ι → Prop

namespace Ledger

variable {ε σ τ E ι α β : Type} (L : Ledger σ E ι)

/-- Since the log was `old`, every item that was taken over was passed on or is in
`held`. -/
def Settled (old : List E) (held : Set ι) (s : σ) : Prop :=
  ∃ new, L.log s = new ++ old ∧
    ∀ e ∈ new, ∀ x, L.takes e = some x → x ∈ held ∨ ∃ e' ∈ new, L.gives e' x

/-- The program takes nothing over. -/
def Idle (s s' : σ) : Prop :=
  ∃ new, L.log s' = new ++ L.log s ∧ ∀ e ∈ new, L.takes e = none

def Passes (inp : Set ι) (m : Prog ε σ α) (out : α → Set ι) : Prop :=
  ∀ old held, Triple (L.Settled old (inp ∪ held)) m fun a => L.Settled old (out a ∪ held)

variable {L} {old : List E} {held held' : Set ι} {s s' : σ}

instance : IsPreorder σ L.Idle where
  refl s := ⟨[], rfl, by simp⟩
  trans := by
    rintro s₁ s₂ s₃ ⟨es, heq, hes⟩ ⟨fs, heq', hfs⟩
    refine ⟨fs ++ es, by rw [heq', heq, List.append_assoc], fun e he => ?_⟩
    rcases List.mem_append.mp he with he | he
    · exact hfs e he
    · exact hes e he

theorem Settled.mono (h : L.Settled old held s) (hsub : held ⊆ held') : L.Settled old held' s := by
  obtain ⟨new, heq, hnew⟩ := h
  exact ⟨new, heq, fun e he x hx => (hnew e he x hx).imp_left fun hmem => hsub hmem⟩

/-- New events settle their own items and keep settled what was. -/
theorem Settled.append {new : List E} (h : L.Settled old held s) (hlog : L.log s' = new ++ L.log s)
    (hnew : ∀ e ∈ new, ∀ x, L.takes e = some x → x ∈ held' ∨ ∃ e' ∈ new, L.gives e' x)
    (hheld : ∀ x ∈ held, x ∈ held' ∨ ∃ e' ∈ new, L.gives e' x) : L.Settled old held' s' := by
  obtain ⟨before, heq, hbefore⟩ := h
  have hmore : ∀ x, (∃ e' ∈ new, L.gives e' x) → ∃ e' ∈ new ++ before, L.gives e' x :=
    fun x ⟨e', he', hgive⟩ => ⟨e', List.mem_append_left _ he', hgive⟩
  refine ⟨new ++ before, by rw [hlog, heq, List.append_assoc], fun e he x hx => ?_⟩
  rcases List.mem_append.mp he with he | he
  · exact (hnew e he x hx).imp_right (hmore x)
  · rcases hbefore e he x hx with hmem | ⟨e', he', hgive⟩
    · exact (hheld x hmem).imp_right (hmore x)
    · exact .inr ⟨e', List.mem_append_right _ he', hgive⟩

theorem Settled.cons {e : E} (h : L.Settled old held s) (hlog : L.log s' = e :: L.log s)
    (htakes : ∀ x, L.takes e = some x → x ∈ held')
    (hheld : ∀ x ∈ held, x ∈ held' ∨ L.gives e x) : L.Settled old held' s' := by
  have hlog' : L.log s' = [e] ++ L.log s := hlog
  refine h.append hlog' (fun e' he' x hx => .inl ?_) fun x hx => (hheld x hx).imp_right ?_
  · obtain rfl := List.mem_singleton.mp he'
    exact htakes x hx
  · exact fun hgives => ⟨e, List.mem_singleton_self e, hgives⟩

namespace Passes

variable {inp inp' : Set ι} {mid out out' : α → Set ι}

theorem run {m : Prog ε σ α} {s s' : σ} {a : α} (hm : m s = .ok (a, s'))
    (h : L.Passes ∅ m fun _ => ∅) : L.Settled (L.log s) ∅ s' := by
  have hstart : L.Settled (L.log s) (∅ ∪ ∅) s := ⟨[], rfl, by simp⟩
  exact (h (L.log s) ∅ s hstart a s' hm).mono (by simp)

theorem weaken {m : Prog ε σ α} (h : L.Passes inp m out) (hin : inp' ⊆ inp)
    (hout : ∀ a, out a ⊆ out' a) : L.Passes inp' m out' :=
  fun old held => (h old held).conseq (fun _ hs => hs.mono (Set.union_subset_union_left _ hin))
    fun a _ hs => hs.mono (Set.union_subset_union_left _ (hout a))

/-- What `m` does not know about stays as it is. -/
theorem frame {m : Prog ε σ α} (h : L.Passes inp m out) (rest : Set ι) :
    L.Passes (inp ∪ rest) m fun a => out a ∪ rest := by
  intro old held
  refine (h old (rest ∪ held)).conseq (fun s hs => ?_) fun a s hs => ?_
  · rwa [← Set.union_assoc]
  · rwa [Set.union_assoc]

/-- A program that only adds to what has to be passed on. -/
theorem beside {m : Prog ε σ α} (h : L.Passes ∅ m out) : L.Passes inp m fun a => out a ∪ inp := by
  have hframe := h.frame inp
  rwa [Set.empty_union] at hframe

/-- A program that passes on all that it takes over. -/
theorem keeps {m : Prog ε σ α} (h : L.Passes ∅ m fun _ => ∅) : L.Passes inp m fun _ => inp :=
  h.beside.weaken subset_rfl fun _ => (Set.empty_union inp).subset

theorem pure {a : α} (h : inp ⊆ out a) : L.Passes (ε := ε) inp (pure a) out :=
  fun _ _ => .pure fun _ hs => hs.mono (Set.union_subset_union_left _ h)

theorem bind {m : Prog ε σ α} {f : α → Prog ε σ β} {out : β → Set ι} (hm : L.Passes inp m mid)
    (hf : ∀ a, L.Passes (mid a) (f a) out) : L.Passes inp (m >>= f) out :=
  fun old held => (hm old held).bind fun a => hf a old held

theorem get_bind {f : σ → Prog ε σ α} (h : ∀ s, L.Passes inp (f s) out) :
    L.Passes inp (get >>= f) out := by
  intro old held s hs a s' hrun
  obtain ⟨_, _, hget, hf⟩ := bind_eq_ok.mp hrun
  obtain ⟨rfl, rfl⟩ := get_eq_ok.mp hget
  exact h s old held s hs a s' hf

theorem lift_bind {x : Except ε β} {f : β → Prog ε σ α}
    (h : ∀ b, x = .ok b → L.Passes inp (f b) out) : L.Passes inp (liftM x >>= f) out := by
  intro old held s hs a s' hrun
  obtain ⟨b, _, hlift, hf⟩ := bind_eq_ok.mp hrun
  obtain ⟨hx, rfl⟩ := lift_eq_ok.mp hlift
  exact h b hx old held s hs a s' hf

theorem ite {c : Prop} [Decidable c] {m₁ m₂ : Prog ε σ α} (h₁ : c → L.Passes inp m₁ out)
    (h₂ : ¬ c → L.Passes inp m₂ out) : L.Passes inp (if c then m₁ else m₂) out :=
  fun old held => .ite (fun hc => h₁ hc old held) fun hc => h₂ hc old held

theorem when {c : Bool} {m : Prog ε σ Unit} {out : Unit → Set ι}
    (h₁ : c = true → L.Passes inp m out) (h₂ : c = false → inp ⊆ out ()) :
    L.Passes inp (when c m) out :=
  ite h₁ fun hc => pure (h₂ (Bool.eq_false_iff.mpr hc))

/-- A program that takes nothing over leaves what there was. -/
theorem idle {m : Prog ε σ α} (h : Follows L.Idle m) : L.Passes inp m fun _ => inp := by
  intro old held s hs a s' hm
  obtain ⟨new, hlog, hnew⟩ := h s a s' hm
  refine hs.append hlog (fun e he x hx => ?_) fun x hx => .inl hx
  rw [hnew e he] at hx
  exact nomatch hx

/-- A loop that passes the items of a list on. -/
theorem forEach {f : β → Prog ε σ Unit} {item : β → ι} {xs : List β}
    (h : ∀ x, L.Passes {item x} (f x) fun _ => ∅) :
    L.Passes {y | ∃ x ∈ xs, y = item x} (forEach f xs) fun _ => ∅ := by
  induction xs with
  | nil => exact pure fun _ ⟨x, hx, _⟩ => absurd hx List.not_mem_nil
  | cons x xs ih =>
    have hfirst : L.Passes {y | ∃ x' ∈ x :: xs, y = item x'} (f x)
        fun _ => {y | ∃ x' ∈ xs, y = item x'} := by
      refine ((h x).frame {y | ∃ x' ∈ xs, y = item x'}).weaken ?_ fun _ => ?_
      · rintro y ⟨x', hx', rfl⟩
        rcases List.mem_cons.mp hx' with rfl | hx'
        · exact .inl rfl
        · exact .inr ⟨x', hx', rfl⟩
      · rw [Set.empty_union]
    exact hfirst.bind fun _ => ih

/-- A loop whose rounds pass their own items on. -/
theorem rounds {f : β → Prog ε σ Unit} {xs : List β} (h : ∀ x, L.Passes inp (f x) fun _ => inp) :
    L.Passes inp (Prog.forEach f xs) fun _ => inp := by
  induction xs with
  | nil => exact pure subset_rfl
  | cons x xs ih => exact (h x).bind fun _ => ih

/-- A program over a part of the state, when that part has the log. -/
theorem zoom {K : Ledger τ E ι} {view : σ → τ} {put : τ → σ → σ} {m : Prog ε τ α}
    (h : K.Passes inp m out) (htakes : L.takes = K.takes) (hgives : L.gives = K.gives)
    (hview : ∀ s, L.log s = K.log (view s)) (hput : ∀ t s, L.log (put t s) = K.log t) :
    L.Passes inp (zoom view put m) out := by
  have hsettled : ∀ {old held s t}, L.log s = K.log t →
      (L.Settled old held s ↔ K.Settled old held t) := by
    intro old held s t hlog
    unfold Settled
    rw [hlog, htakes, hgives]
  intro old held s hs a s' hrun
  obtain ⟨t, hm, rfl⟩ := zoom_eq_ok.mp hrun
  exact (hsettled (hput t s)).mpr (h old held (view s) ((hsettled (hview s)).mp hs) a t hm)

end Passes

end Ledger

end Prog
