import Mathlib.Data.List.Basic

/-!
# Rates

The times at which something happened, the newest first, with two limits on them: any two are
`gap` apart, and any `limit + 1` in a row take `span`. To know what is allowed next it is enough
to remember the last `limit` times. The memory starts with zeros, so that a time of 0 counts as
none.
-/

namespace PardG5V

structure Pace where
  gap : Nat
  span : Nat
  limit : Nat

namespace Pace

structure Keeps (p : Pace) (times : List Nat) : Prop where
  apart : times.Pairwise fun later earlier => earlier + p.gap ≤ later
  spread : ∀ i later earlier, times[i]? = some later → times[i + p.limit]? = some earlier →
    earlier ≠ 0 → earlier + p.span ≤ later

structure Allows (p : Pace) (times : List Nat) (t : Nat) : Prop where
  gap : ∀ e ∈ times, e + p.gap ≤ t
  span : ∀ e, times[p.limit - 1]? = some e → e ≠ 0 → e + p.span ≤ t

variable {p : Pace} {times : List Nat} {t t' : Nat}

theorem Keeps.nil : p.Keeps [] := ⟨.nil, by simp⟩

theorem Allows.nil : p.Allows [] t := ⟨by simp, by simp⟩

theorem Allows.mono (h : p.Allows times t) (hle : t ≤ t') : p.Allows times t' :=
  ⟨fun e he => Nat.le_trans (h.gap e he) hle, fun e he hne => Nat.le_trans (h.span e he hne) hle⟩

/-- After a pause that is as long as both limits everything is allowed. -/
theorem Allows.of_pause {d : Nat} (hgap : p.gap ≤ d) (hspan : p.span ≤ d)
    (h : ∀ e ∈ times, e + d ≤ t) : p.Allows times t := by
  refine ⟨fun e he => ?_, fun e he _ => ?_⟩
  · exact Nat.le_trans (Nat.add_le_add_left hgap e) (h e he)
  · exact Nat.le_trans (Nat.add_le_add_left hspan e) (h e (List.mem_of_getElem? he))

theorem Keeps.cons (hlimit : p.limit ≠ 0) (h : p.Keeps times) (hallows : p.Allows times t) :
    p.Keeps (t :: times) := by
  refine ⟨List.pairwise_cons.mpr ⟨hallows.gap, h.apart⟩, fun i later earlier hlater hearlier => ?_⟩
  cases i with
  | zero =>
    cases hlater
    obtain ⟨n, hn⟩ := Nat.exists_eq_succ_of_ne_zero hlimit
    rw [Nat.zero_add, hn, List.getElem?_cons_succ] at hearlier
    refine hallows.span earlier ?_
    rwa [hn]
  | succ i =>
    rw [Nat.succ_add, List.getElem?_cons_succ] at hearlier
    exact h.spread i later earlier hlater hearlier

/-- A new time `t` leaves `t'` allowed if it is `gap` later, and `span` after the oldest of
the last `limit` times whenever that one is less than `span` old. -/
theorem Allows.cons (h : p.Allows times t) (hgap : t + p.gap ≤ t')
    (hhold : ∀ e, (t :: times)[p.limit - 1]? = some e → e ≠ 0 → e ≤ t → t - e < p.span →
      e + p.span ≤ t') : p.Allows (t :: times) t' := by
  have hle : t ≤ t' := Nat.le_trans (Nat.le_add_right _ _) hgap
  refine ⟨List.forall_mem_cons.mpr ⟨hgap, (h.mono hle).gap⟩, fun e he hne => ?_⟩
  have hearlier : e ≤ t := by
    rcases List.mem_cons.mp (List.mem_of_getElem? he) with rfl | hmem
    · exact Nat.le_refl _
    · exact Nat.le_trans (Nat.le_add_right _ _) (h.gap e hmem)
  by_cases hlt : t - e < p.span
  · exact hhold e he hne hearlier hlt
  · have hold : e + p.span ≤ t := Nat.add_comm p.span e ▸
      Nat.add_le_of_le_sub hearlier (Nat.not_lt.mp hlt)
    exact Nat.le_trans hold hle

end Pace

/-! ## The memory -/

/-- The newest `n` times, filled up with zeros. -/
def recent (n : Nat) (times : List Nat) : List Nat := (times ++ List.replicate n 0).take n

variable {n : Nat} {times : List Nat} {t : Nat}

theorem recent_nil : recent n [] = List.replicate n 0 := by
  unfold recent
  rw [List.nil_append]
  exact List.take_of_length_le (Nat.le_of_eq List.length_replicate)

theorem length_recent : (recent n times).length = n := by
  unfold recent
  rw [List.length_take, List.length_append, List.length_replicate]
  exact Nat.min_eq_left (Nat.le_add_left _ _)

/-- A new time pushes the oldest one out. -/
theorem recent_cons (hn : n ≠ 0) : recent n (t :: times) = t :: (recent n times).dropLast := by
  obtain ⟨m, rfl⟩ := Nat.exists_eq_succ_of_ne_zero hn
  rw [List.dropLast_eq_take, length_recent]
  unfold recent
  rw [List.cons_append, List.take_succ_cons, List.take_take, Nat.min_eq_left (Nat.sub_le _ _)]
  rfl

theorem getLast?_recent (hn : n ≠ 0) : (recent n times).getLast? = some (times[n - 1]?.getD 0) := by
  rw [List.getLast?_eq_getElem?, length_recent]
  unfold recent
  rw [List.getElem?_take_of_lt (Nat.sub_lt (Nat.pos_of_ne_zero hn) Nat.one_pos)]
  rcases Nat.lt_or_ge (n - 1) times.length with hlt | hge
  · rw [List.getElem?_append_left hlt, List.getElem?_eq_getElem hlt]
    rfl
  · rw [List.getElem?_append_right hge, List.getElem?_eq_none hge, List.getElem?_replicate]
    have hroom : n - 1 - times.length < n :=
      Nat.lt_of_le_of_lt (Nat.sub_le _ _) (Nat.sub_lt (Nat.pos_of_ne_zero hn) Nat.one_pos)
    rw [if_pos hroom]
    rfl

end PardG5V
