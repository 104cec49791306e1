/-!
# What still stands since it was started

A past is a list of steps with the newest first. Something that one step starts and
others end still stands when a step started it and no step since then ended it.
-/

namespace PardG5V

universe u

variable {α : Type u}

/-- Some step of the past is a start, and no step after it is an end. -/
def Since (starts ends : α → Prop) (past : List α) : Prop :=
  ∃ later a earlier, past = later ++ a :: earlier ∧ starts a ∧ ∀ x ∈ later, ¬ ends x

namespace Since

variable {starts ends : α → Prop} {a : α} {past : List α}

@[simp] theorem not_nil : ¬ Since starts ends [] := by
  rintro ⟨later, a, earlier, hpast, -, -⟩
  cases later <;> cases hpast

/-- One more step: it is a start itself, or it does not end what stood before it. -/
theorem cons_iff :
    Since starts ends (a :: past) ↔ starts a ∨ Since starts ends past ∧ ¬ ends a := by
  constructor
  · rintro ⟨later, b, earlier, hpast, hstart, hlater⟩
    cases later with
    | nil =>
      simp only [List.nil_append, List.cons.injEq] at hpast
      exact .inl (hpast.1 ▸ hstart)
    | cons x later =>
      simp only [List.cons_append, List.cons.injEq] at hpast
      obtain ⟨rfl, rfl⟩ := hpast
      refine .inr ⟨⟨later, b, earlier, rfl, hstart, fun y hy => ?_⟩, hlater a ?_⟩
      · exact hlater y (List.mem_cons_of_mem a hy)
      · exact List.mem_cons_self
  · rintro (hstart | ⟨⟨later, b, earlier, rfl, hstart, hlater⟩, hend⟩)
    · exact ⟨[], a, past, rfl, hstart, by simp⟩
    · refine ⟨a :: later, b, earlier, rfl, hstart, fun y hy => ?_⟩
      rcases List.mem_cons.mp hy with rfl | hy
      · exact hend
      · exact hlater y hy

end Since

end PardG5V
