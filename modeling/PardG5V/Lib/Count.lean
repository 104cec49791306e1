import Mathlib.Data.List.Nodup

/-!
# Counts that are kept by hand

A program that keeps the number of the elements with a property adds one when an element
gets the property and takes one away when it loses it. Over a list without repetitions
the number stays right as long as the other elements are left alone.
-/

namespace List

universe u

variable {α : Type u} {p p' : α → Bool} {a : α} {xs : List α}

theorem countP_of_notMem (hother : ∀ x ≠ a, p' x = p x) (ha : a ∉ xs) :
    xs.countP p' = xs.countP p := by
  refine countP_congr fun x hx => ?_
  rw [hother x fun h => ha (h ▸ hx)]

theorem countP_gain (hnodup : xs.Nodup) (ha : a ∈ xs) (hp : p a = false) (hp' : p' a = true)
    (hother : ∀ x ≠ a, p' x = p x) : xs.countP p' = xs.countP p + 1 := by
  induction xs with
  | nil => cases ha
  | cons x xs ih =>
    obtain ⟨hx, hxs⟩ := nodup_cons.mp hnodup
    by_cases heq : x = a
    · subst heq
      rw [countP_cons_of_pos hp', countP_cons_of_neg (by simp [hp]), countP_of_notMem hother hx]
    · have hrest := ih hxs ((mem_cons.mp ha).resolve_left fun h => heq h.symm)
      rw [countP_cons, countP_cons, hrest, hother x heq]
      omega

theorem countP_loss (hnodup : xs.Nodup) (ha : a ∈ xs) (hp : p a = true) (hp' : p' a = false)
    (hother : ∀ x ≠ a, p' x = p x) : xs.countP p' + 1 = xs.countP p :=
  (countP_gain hnodup ha hp' hp fun x hx => (hother x hx).symm).symm

end List
