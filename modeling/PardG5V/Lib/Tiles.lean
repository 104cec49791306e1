import Mathlib.Algebra.GroupWithZero.Nat
import Mathlib.Data.List.Basic

/-!
# Pieces that follow each other

A range of numbers is cut into pieces, each given by its start and its length. `Tiles o stop ps`
says that the pieces start at `o`, follow each other without a gap, and end at `stop`.
-/

/-- The pieces follow each other from `o` to `stop`, and none of them is empty. -/
def Tiles (stop : Nat) : Nat → List (Nat × Nat) → Prop
  | o, [] => o = stop
  | o, (start, len) :: rest => start = o ∧ 0 < len ∧ Tiles stop (o + len) rest

namespace Tiles

variable {stop o : Nat} {ps : List (Nat × Nat)}

theorem sum_eq (h : Tiles stop o ps) : o + (ps.map Prod.snd).sum = stop := by
  induction ps generalizing o with
  | nil => exact h
  | cons p ps ih =>
    have hrest := ih h.2.2
    rw [List.map_cons, List.sum_cons, ← Nat.add_assoc]
    exact hrest

theorem le (h : Tiles stop o ps) : o ≤ stop := Nat.le.intro h.sum_eq

theorem mem_bounds (h : Tiles stop o ps) {p : Nat × Nat} (hp : p ∈ ps) :
    o ≤ p.1 ∧ 0 < p.2 ∧ p.1 + p.2 ≤ stop := by
  induction ps generalizing o with
  | nil => cases hp
  | cons q ps ih =>
    rcases List.mem_cons.mp hp with rfl | hp
    · obtain ⟨hstart, hpos, hrest⟩ := h
      rw [hstart]
      exact ⟨Nat.le_refl _, hpos, hrest.le⟩
    · obtain ⟨hle, hpos, hend⟩ := ih h.2.2 hp
      exact ⟨Nat.le_trans (Nat.le_add_right _ _) hle, hpos, hend⟩

end Tiles
