import Mathlib.Order.Interval.Set.LinearOrder

/-!
# Spans of numbers and blocks

A span is a start and a length. The numbers are divided into blocks of one length. Two
spans that touch have a hull, the least span that holds both.

Two spans of different blocks can touch at the border of the blocks. If both together are
no longer than a block they straddle it: their hull looks like a span of one block by its
length, and is none.
-/

namespace PardG5V

structure Span where
  start : Nat
  len : Nat
deriving DecidableEq, Repr

namespace Span

def stop (r : Span) : Nat := r.start + r.len

def toSet (r : Span) : Set Nat := Set.Ico r.start r.stop

def cover (rs : List Span) : Set Nat := { x | ∃ r ∈ rs, x ∈ r.toSet }

/-- The two overlap or are next to each other. -/
def Touches (r t : Span) : Prop := r.start ≤ t.stop ∧ t.start ≤ r.stop

def hull (r t : Span) : Span where
  start := min r.start t.start
  len := max r.stop t.stop - min r.start t.start

/-- The span has an element and lies in one block. -/
structure InBlock (size : Nat) (r : Span) : Prop where
  pos : 0 < r.len
  fits : r.start % size + r.len ≤ size

/-- The two are next to each other in different blocks, and together no longer than one. -/
def Straddles (size : Nat) (r t : Span) : Prop :=
  (r.stop = t.start ∨ t.stop = r.start) ∧ r.len + t.len ≤ size ∧ r.start / size ≠ t.start / size
deriving Decidable

instance (size : Nat) (r : Span) : Decidable (r.InBlock size) :=
  decidable_of_iff (0 < r.len ∧ r.start % size + r.len ≤ size)
    ⟨fun h => ⟨h.1, h.2⟩, fun h => ⟨h.pos, h.fits⟩⟩

variable {size : Nat} {r t u : Span}

/-! ## Covers -/

theorem cover_nil : cover [] = ∅ := Set.eq_empty_of_forall_notMem fun _ h => by
  obtain ⟨r, hr, -⟩ := h
  exact List.not_mem_nil hr

theorem cover_cons (r : Span) (rs : List Span) : cover (r :: rs) = r.toSet ∪ cover rs := by
  ext x
  simp [cover]

/-! ## The hull -/

theorem stop_hull : (r.hull t).stop = max r.stop t.stop := by
  have hstart : min r.start t.start ≤ max r.stop t.stop :=
    Nat.le_trans (Nat.min_le_left _ _)
      (Nat.le_trans (Nat.le_add_right _ _) (Nat.le_max_left _ _))
  exact Nat.add_sub_cancel' hstart

theorem toSet_hull (h : r.Touches t) : (r.hull t).toSet = r.toSet ∪ t.toSet := by
  unfold toSet
  rw [stop_hull, Set.Ico_union_Ico' h.2 h.1]
  rfl

theorem hull_eq_left (hstart : r.start ≤ t.start) (hstop : t.stop ≤ r.stop) : r.hull t = r := by
  unfold hull
  rw [Nat.min_eq_left hstart, Nat.max_eq_left hstop]
  exact congrArg (Span.mk r.start) (Nat.add_sub_cancel_left _ _)

theorem hull_eq_of_le (hstart : r.start ≤ t.start) (hstop : r.stop ≤ t.stop) :
    r.hull t = ⟨r.start, t.stop - r.start⟩ := by
  unfold hull
  rw [Nat.min_eq_left hstart, Nat.max_eq_right hstop]

theorem hull_comm (r t : Span) : r.hull t = t.hull r := by
  unfold hull
  rw [Nat.min_comm, Nat.max_comm]

theorem len_le_hull : r.len ≤ (r.hull t).len := by
  have hlen : r.stop - r.start = r.len := Nat.add_sub_cancel_left _ _
  exact hlen ▸ Nat.le_trans (Nat.sub_le_sub_right (Nat.le_max_left _ _) _)
    (Nat.sub_le_sub_left (Nat.min_le_left _ _) _)

/-! ## Blocks -/

/-- A span lies in a block if it ends before the block after that of its start. -/
theorem inBlock_iff : r.InBlock size ↔ 0 < r.len ∧ r.stop ≤ size * (r.start / size + 1) := by
  have hsplit : size * (r.start / size) + r.start % size = r.start := Nat.div_add_mod _ _
  have hstop : r.stop ≤ size * (r.start / size + 1) ↔ r.start % size + r.len ≤ size := by
    unfold stop
    rw [Nat.mul_succ]
    omega
  exact ⟨fun h => ⟨h.pos, hstop.mpr h.fits⟩, fun h => ⟨h.1, hstop.mp h.2⟩⟩

theorem InBlock.stop_le (h : r.InBlock size) : r.stop ≤ size * (r.start / size + 1) :=
  (inBlock_iff.mp h).2

theorem Straddles.symm (h : r.Straddles size t) : t.Straddles size r :=
  ⟨h.1.symm, Nat.add_comm r.len t.len ▸ h.2.1, h.2.2.symm⟩

/-- Two spans that touch and do not straddle a border are in one block if their hull is no
longer than one. -/
theorem block_eq (hr : r.InBlock size) (ht : t.InBlock size) (htouch : r.Touches t)
    (hlen : (r.hull t).len ≤ size) (hapart : ¬ r.Straddles size t) :
    r.start / size = t.start / size := by
  -- the one that starts first ends in its block, so the other can only start at its end
  have hordered {r t : Span} (hr : r.InBlock size) (hle : r.start ≤ t.start)
      (htouch : t.start ≤ r.stop) (hlen : (r.hull t).len ≤ size)
      (hapart : ¬ r.Straddles size t) : r.start / size = t.start / size := by
    rcases Nat.lt_or_eq_of_le htouch with hlt | heq
    · have hblock : t.start / size < r.start / size + 1 :=
        Nat.div_lt_of_lt_mul (Nat.lt_of_lt_of_le hlt hr.stop_le)
      exact Nat.le_antisymm (Nat.div_le_div_right hle) (Nat.le_of_lt_succ hblock)
    · by_contra hne
      refine hapart ⟨.inl heq.symm, Nat.le_trans (Nat.le_of_eq ?_) hlen, hne⟩
      show r.len + t.len = max r.stop t.stop - min r.start t.start
      unfold stop at heq ⊢
      omega
  rcases Nat.le_total r.start t.start with hle | hle
  · exact hordered hr hle htouch.2 hlen hapart
  · exact (hordered ht hle htouch.1 (hull_comm r t ▸ hlen) fun h => hapart h.symm).symm

/-- The hull of two spans of one block lies in it. -/
theorem block_hull (hblock : r.start / size = t.start / size) :
    (r.hull t).start / size = r.start / size := by
  show min r.start t.start / size = _
  rcases Nat.le_total r.start t.start with hle | hle
  · rw [Nat.min_eq_left hle]
  · rw [Nat.min_eq_right hle, hblock]

theorem InBlock.hull (hr : r.InBlock size) (ht : t.InBlock size)
    (hblock : r.start / size = t.start / size) : (r.hull t).InBlock size := by
  refine inBlock_iff.mpr ⟨Nat.lt_of_lt_of_le hr.pos len_le_hull, ?_⟩
  rw [stop_hull, block_hull hblock]
  exact Nat.max_le.mpr ⟨hr.stop_le, hblock ▸ ht.stop_le⟩

/-- What straddles a border with the hull does so with one of the two. -/
theorem straddles_hull (hblock : r.start / size = t.start / size)
    (h : (r.hull t).Straddles size u) : r.Straddles size u ∨ t.Straddles size u := by
  obtain ⟨hnext, hlen, hne⟩ := h
  rw [block_hull hblock] at hne
  have hleft : r.len + u.len ≤ size := Nat.le_trans (Nat.add_le_add_right len_le_hull _) hlen
  have hright : t.len + u.len ≤ size := by
    rw [hull_comm] at hlen
    exact Nat.le_trans (Nat.add_le_add_right len_le_hull _) hlen
  rcases hnext with hnext | hnext
  · rw [stop_hull] at hnext
    rcases Nat.le_total r.stop t.stop with hle | hle
    · rw [Nat.max_eq_right hle] at hnext
      exact .inr ⟨.inl hnext, hright, hblock ▸ hne⟩
    · rw [Nat.max_eq_left hle] at hnext
      exact .inl ⟨.inl hnext, hleft, hne⟩
  · replace hnext : u.stop = min r.start t.start := hnext
    rcases Nat.le_total r.start t.start with hle | hle
    · rw [Nat.min_eq_left hle] at hnext
      exact .inl ⟨.inr hnext, hleft, hne⟩
    · rw [Nat.min_eq_right hle] at hnext
      exact .inr ⟨.inr hnext, hright, hblock ▸ hne⟩

end Span

end PardG5V
