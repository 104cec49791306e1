import Mathlib.Algebra.GroupWithZero.Nat
import Mathlib.Algebra.Order.BigOperators.Group.List
import Mathlib.Algebra.Order.Group.Nat
import Mathlib.Data.List.GetD
import Mathlib.Data.List.Perm.Lattice

/-!
# Batches whose parts are acknowledged one by one

A batch is a list of parts. The parts of several batches are under way together and are
acknowledged in any order. `Conserved` says that the parts of every batch are the acknowledged
ones and those that are left, each of them once. A batch is complete when nothing of it is left,
which can be told from the weight that was acknowledged.
-/

namespace Batches

variable {α : Type} {batch weight : α → Nat} {batches : List (List α)} {acked left : List α}
  {b : Nat} {xs : List α} {x : α}

def ofBatch (batch : α → Nat) (b : Nat) (parts : List α) : List α :=
  parts.filter fun x => batch x == b

def total (batch weight : α → Nat) (b : Nat) (parts : List α) : Nat :=
  ((ofBatch batch b parts).map weight).sum

/-- Every part of a batch was acknowledged or is left. -/
def Conserved (batch : α → Nat) (batches : List (List α)) (acked left : List α) : Prop :=
  ∀ b, (ofBatch batch b acked ++ ofBatch batch b left).Perm (batches.getD b [])

@[simp] theorem ofBatch_append (b : Nat) (xs ys : List α) :
    ofBatch batch b (xs ++ ys) = ofBatch batch b xs ++ ofBatch batch b ys :=
  List.filter_append _ _

theorem mem_ofBatch : x ∈ ofBatch batch b xs ↔ x ∈ xs ∧ batch x = b := by
  unfold ofBatch
  rw [List.mem_filter, beq_iff_eq]

theorem total_append (b : Nat) (xs ys : List α) :
    total batch weight b (xs ++ ys) = total batch weight b xs + total batch weight b ys := by
  unfold total
  rw [ofBatch_append, List.map_append, List.sum_append]

theorem ofBatch_eq_self (h : ∀ x ∈ xs, batch x = b) : ofBatch batch b xs = xs :=
  List.filter_eq_self.mpr fun x hx => beq_iff_eq.mpr (h x hx)

theorem ofBatch_eq_nil (h : ∀ x ∈ xs, batch x ≠ b) : ofBatch batch b xs = [] :=
  List.filter_eq_nil_iff.mpr fun x hx => by simpa using h x hx

theorem ofBatch_singleton_self (x : α) : ofBatch batch (batch x) [x] = [x] :=
  ofBatch_eq_self fun y hy => by rw [List.mem_singleton.mp hy]

theorem ofBatch_singleton_other (hb : batch x ≠ b) : ofBatch batch b [x] = [] :=
  ofBatch_eq_nil fun y hy => by rwa [List.mem_singleton.mp hy]

theorem total_concat_self (xs : List α) (x : α) :
    total batch weight (batch x) (xs ++ [x]) = total batch weight (batch x) xs + weight x := by
  rw [total_append]
  unfold total
  rw [ofBatch_singleton_self]
  rfl

theorem total_concat_other (xs : List α) (hb : batch x ≠ b) :
    total batch weight b (xs ++ [x]) = total batch weight b xs := by
  rw [total_append]
  unfold total
  rw [ofBatch_singleton_other hb]
  rfl

namespace Conserved

theorem empty : Conserved batch [] ([] : List α) [] := fun _ => .refl _

/-- The order in which the parts are left does not matter. -/
theorem perm (h : Conserved batch batches acked left) {left' : List α} (hperm : left'.Perm left) :
    Conserved batch batches acked left' := fun b =>
  ((hperm.filter _).append_left _).trans (h b)

theorem batch_lt (h : Conserved batch batches acked left) {x : α} (hx : x ∈ left) :
    batch x < batches.length := by
  have hmem := (h (batch x)).subset (List.mem_append_right _ (mem_ofBatch.mpr ⟨hx, rfl⟩))
  rcases Nat.lt_or_ge (batch x) batches.length with hlt | hge
  · exact hlt
  · rw [List.getD_eq_default _ _ hge] at hmem
    cases hmem

theorem add (h : Conserved batch batches acked left) {parts : List α}
    (hparts : ∀ x ∈ parts, batch x = batches.length)
    (hacked : ∀ x ∈ acked, batch x < batches.length) :
    Conserved batch (batches ++ [parts]) acked (left ++ parts) := by
  intro b
  rw [ofBatch_append]
  rcases Nat.lt_trichotomy b batches.length with hlt | rfl | hgt
  · have hnil : ofBatch batch b parts = [] :=
      ofBatch_eq_nil fun x hx => by rw [hparts x hx]; exact Nat.ne_of_gt hlt
    rw [hnil, List.append_nil, List.getD_append _ _ _ _ hlt]
    exact h b
  · have hold : ofBatch batch batches.length acked = [] :=
      ofBatch_eq_nil fun x hx => Nat.ne_of_lt (hacked x hx)
    have hleft : ofBatch batch batches.length left = [] :=
      ofBatch_eq_nil fun x hx => Nat.ne_of_lt (h.batch_lt hx)
    rw [hold, hleft, List.nil_append, List.nil_append, ofBatch_eq_self hparts,
      List.getD_append_right _ _ _ _ (Nat.le_refl _), Nat.sub_self]
    exact .refl _
  · have hnil : ofBatch batch b parts = [] :=
      ofBatch_eq_nil fun x hx => by rw [hparts x hx]; exact Nat.ne_of_lt hgt
    have hdefault := h b
    rw [List.getD_eq_default _ _ (Nat.le_of_lt hgt)] at hdefault
    rw [hnil, List.append_nil, List.getD_eq_default _ _ (by rw [List.length_append]; exact hgt)]
    exact hdefault

theorem ack {x : α} (h : Conserved batch batches acked (x :: left)) :
    Conserved batch batches (acked ++ [x]) left := by
  intro b
  have hb := h b
  rw [ofBatch_append, List.append_assoc]
  rwa [show x :: left = [x] ++ left from rfl, ofBatch_append] at hb

/-- What was acknowledged and what is left weigh as much as the batch. -/
theorem total_eq (h : Conserved batch batches acked left) (weight : α → Nat) (b : Nat) :
    total batch weight b acked + total batch weight b left =
      ((batches.getD b []).map weight).sum := by
  unfold total
  rw [← List.sum_append, ← List.map_append]
  exact ((h b).map weight).sum_eq

end Conserved

/-- Nothing of a batch is left if and only if it weighs nothing, for parts that weigh something. -/
theorem total_eq_zero_iff (hpos : ∀ x ∈ left, 0 < weight x) :
    total batch weight b left = 0 ↔ ofBatch batch b left = [] := by
  unfold total
  constructor
  · intro hzero
    refine List.eq_nil_iff_forall_not_mem.mpr fun x hx => ?_
    have hle := List.le_sum_of_mem (List.mem_map_of_mem hx : weight x ∈ _)
    rw [hzero] at hle
    exact Nat.not_lt.mpr hle (hpos x (mem_ofBatch.mp hx).1)
  · intro hnil
    rw [hnil]
    rfl

end Batches
