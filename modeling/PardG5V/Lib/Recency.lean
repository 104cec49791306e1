import Mathlib.Data.List.Basic
import Mathlib.Data.List.Nodup

/-!
# Recency lists

An array kept in recency order, most recent first. An element is moved to the
head by writing it into the first slot and pushing the displaced elements down
until its own old slot is reached; moving to the tail is the same loop from the
other end.
-/

namespace Recency

variable {α : Type} [DecidableEq α] {x : α} {l : List α}

/-- The push-down loop: writes `next` into the current slot and carries the
displaced element on until `x` itself is displaced. -/
def shiftIn (x : α) : α → List α → List α
  | _, [] => []
  | next, b :: bs => next :: if b = x then bs else shiftIn x b bs

def moveToHead (x : α) (l : List α) : List α :=
  if l.head? = some x then l else shiftIn x x l

def moveToTail (x : α) (l : List α) : List α :=
  (moveToHead x l.reverse).reverse

theorem shiftIn_eq (h : x ∈ l) (next : α) : shiftIn x next l = next :: l.erase x := by
  induction l generalizing next with
  | nil => exact absurd h List.not_mem_nil
  | cons b bs ih =>
    unfold shiftIn
    by_cases hb : b = x
    · rw [if_pos hb, hb, List.erase_cons_head]
    · have hx : x ∈ bs := (List.mem_cons.mp h).resolve_left fun e => hb e.symm
      rw [if_neg hb, ih hx, List.erase_cons_tail (by simpa using hb)]

/-- The loop moves a member to the front and leaves the others in their order. -/
theorem moveToHead_eq (h : x ∈ l) : moveToHead x l = x :: l.erase x := by
  unfold moveToHead
  split
  · next hx =>
    cases l with
    | nil => exact absurd h List.not_mem_nil
    | cons b bs =>
      obtain rfl : b = x := by simpa using hx
      rw [List.erase_cons_head]
  · exact shiftIn_eq h x

theorem moveToHead_perm (h : x ∈ l) : (moveToHead x l).Perm l := by
  rw [moveToHead_eq h]
  exact (List.perm_cons_erase h).symm

theorem moveToTail_perm (h : x ∈ l) : (moveToTail x l).Perm l := by
  unfold moveToTail
  refine (List.reverse_perm _).trans ?_
  exact (moveToHead_perm (List.mem_reverse.mpr h)).trans (List.reverse_perm l)

end Recency
