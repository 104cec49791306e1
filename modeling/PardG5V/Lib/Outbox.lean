import Mathlib.Data.List.Basic

/-!
# A queue that sends its items one by one

Items are queued with the time from which on they may be sent, and an event is scheduled for the
first of them. When it runs, the item is offered to a peer. A peer that has refused owes a retry,
and then the item is offered again. `pushed` and `sent` list all items that were queued and
accepted, the oldest first.
-/

namespace PardG5V

/-- What the peer is about to do: nothing, answer an offer, or ask for a retry. -/
inductive Peer
  | ready
  | offered
  | refused
deriving DecidableEq, Repr

structure Outbox (α : Type) where
  queue : List (Nat × α) := []
  event : Option Nat := none
  peer : Peer := .ready
  pushed : List α := []
  sent : List α := []
deriving DecidableEq, Repr

namespace Outbox

variable {α : Type}

/-- An item that may be sent from `time` on. The first one schedules the event. -/
def push (o : Outbox α) (a : α) (time : Nat) : Outbox α :=
  { o with
    queue := o.queue ++ [(time, a)]
    event := if o.queue.isEmpty then some time else o.event
    pushed := o.pushed ++ [a] }

def offer (o : Outbox α) : Outbox α := { o with event := none, peer := .offered }

def refuse (o : Outbox α) : Outbox α := { o with peer := .refused }

/-- The peer accepts the item. The event for the next one is not scheduled before `edge`. -/
def accept (o : Outbox α) (edge : Nat) : Outbox α :=
  { o with
    queue := o.queue.tail
    event := o.queue.tail.head?.map fun next => max next.1 edge
    peer := .ready
    sent := o.sent ++ (o.queue.head?.map Prod.snd).toList }

structure Inv (now : Nat) (o : Outbox α) : Prop where
  fifo : o.pushed = o.sent ++ o.queue.map Prod.snd
  awake : o.queue = [] ↔ o.event = none ∧ o.peer = .ready
  alone : o.event ≠ none → o.peer = .ready
  ahead : ∀ t ∈ o.event, now ≤ t ∧ ∀ first ∈ o.queue.head?, first.1 ≤ t
  due : o.peer ≠ .ready → ∀ first ∈ o.queue.head?, first.1 ≤ now

variable {o : Outbox α} {now : Nat}

theorem Inv.empty : Inv now ({} : Outbox α) where
  fifo := rfl
  awake := ⟨fun _ => ⟨rfl, rfl⟩, fun _ => rfl⟩
  alone := fun h => absurd rfl h
  ahead := fun _ h => nomatch h
  due := fun h => absurd rfl h

theorem Inv.push (h : o.Inv now) (a : α) {time : Nat} (htime : now ≤ time) :
    (o.push a time).Inv now := by
  have hfifo : (o.push a time).pushed =
      (o.push a time).sent ++ (o.push a time).queue.map Prod.snd := by
    show o.pushed ++ [a] = o.sent ++ (o.queue ++ [(time, a)]).map Prod.snd
    rw [h.fifo, List.map_append, List.append_assoc]
    rfl
  have hqueue : (o.push a time).queue ≠ [] := List.append_ne_nil_of_right_ne_nil _ (by simp)
  cases hq : o.queue with
  | nil =>
    -- the item is the first one
    have hevent : (o.push a time).event = some time := by
      unfold Outbox.push
      rw [hq]
      rfl
    have hfirst : (o.push a time).queue = [(time, a)] := by
      unfold Outbox.push
      rw [hq]
      rfl
    obtain ⟨-, hpeer⟩ := h.awake.mp hq
    refine ⟨hfifo, ⟨fun hnil => absurd hnil hqueue, fun hidle => ?_⟩, fun _ => hpeer, ?_,
      fun hne => absurd hpeer hne⟩
    · cases hevent.symm.trans hidle.1
    · intro t ht
      cases hevent.symm.trans ht
      refine ⟨htime, fun first hmem => ?_⟩
      rw [hfirst] at hmem
      cases hmem
      exact Nat.le_refl _
  | cons x rest =>
    have hevent : (o.push a time).event = o.event := by
      unfold Outbox.push
      rw [hq]
      rfl
    have hhead : (o.push a time).queue.head? = o.queue.head? := by
      unfold Outbox.push
      rw [hq]
      rfl
    have hbusy : ¬ (o.event = none ∧ o.peer = .ready) := fun hidle => by
      rw [h.awake.mpr hidle] at hq
      cases hq
    refine ⟨hfifo, ⟨fun hnil => absurd hnil hqueue, fun hidle => ?_⟩, ?_, ?_, ?_⟩
    · exact absurd ⟨hevent.symm.trans hidle.1, hidle.2⟩ hbusy
    · rw [hevent]
      exact h.alone
    · rw [hevent, hhead]
      exact h.ahead
    · rw [hhead]
      exact h.due

theorem Inv.ne_nil_of_event (h : o.Inv now) {t : Nat} (hevent : o.event = some t) :
    o.queue ≠ [] := fun hnil => by
  cases hevent.symm.trans (h.awake.mp hnil).1

theorem Inv.ne_nil_of_peer (h : o.Inv now) (hpeer : o.peer ≠ .ready) : o.queue ≠ [] :=
  fun hnil => hpeer (h.awake.mp hnil).2

/-- The event runs, or the peer asks for a retry. -/
theorem Inv.offer (h : o.Inv now) (hdue : o.event = some now ∨ o.peer = .refused) :
    o.offer.Inv now := by
  have hnil : o.queue ≠ [] := by
    rcases hdue with hevent | hpeer
    · exact h.ne_nil_of_event hevent
    · exact h.ne_nil_of_peer (by rw [hpeer]; nofun)
  refine ⟨h.fifo, ⟨fun hempty => absurd hempty hnil, fun hidle => (nomatch hidle.2)⟩,
    fun hne => absurd rfl hne, fun _ hmem => (nomatch hmem), fun _ => ?_⟩
  rcases hdue with hevent | hpeer
  · exact (h.ahead now hevent).2
  · exact h.due (by rw [hpeer]; nofun)

theorem Inv.refuse (h : o.Inv now) (hpeer : o.peer = .offered) : o.refuse.Inv now := by
  have hne : o.peer ≠ .ready := by rw [hpeer]; nofun
  have hnone : o.event = none := by
    cases hevent : o.event with
    | none => rfl
    | some t => exact absurd (h.alone (by rw [hevent]; nofun)) hne
  refine ⟨h.fifo, ⟨fun hempty => absurd hempty (h.ne_nil_of_peer hne),
    fun hidle => (nomatch hidle.2)⟩,
    fun hsome => absurd hnone hsome, fun t ht => ?_, fun _ => h.due hne⟩
  cases hnone.symm.trans ht

theorem Inv.accept (h : o.Inv now) (hpeer : o.peer = .offered) {edge : Nat} (hedge : now ≤ edge) :
    (o.accept edge).Inv now := by
  have hne : o.peer ≠ .ready := by rw [hpeer]; nofun
  obtain ⟨first, rest, hq⟩ := List.exists_cons_of_ne_nil (h.ne_nil_of_peer hne)
  have hqueue : (o.accept edge).queue = rest := by
    unfold Outbox.accept
    rw [hq]
    rfl
  have hevent : (o.accept edge).event = rest.head?.map fun next => max next.1 edge := by
    unfold Outbox.accept
    rw [hq]
    rfl
  refine ⟨?_, ?_, fun _ => rfl, fun t ht => ?_, fun hne => absurd rfl hne⟩
  · show o.pushed = (o.sent ++ (o.queue.head?.map Prod.snd).toList) ++ o.queue.tail.map Prod.snd
    rw [h.fifo, hq, List.append_assoc]
    rfl
  · rw [hqueue, hevent]
    cases rest with
    | nil => exact ⟨fun _ => ⟨rfl, rfl⟩, fun _ => rfl⟩
    | cons next rest => exact ⟨fun hnil => (nomatch hnil), fun hidle => (nomatch hidle.1)⟩
  · rw [hevent] at ht
    rw [hqueue]
    obtain ⟨next, hnext, rfl⟩ := Option.map_eq_some_iff.mp ht
    refine ⟨Nat.le_trans hedge (Nat.le_max_right _ _), fun first hfirst => ?_⟩
    cases hnext.symm.trans hfirst
    exact Nat.le_max_left _ _

theorem Inv.advance (h : o.Inv now) {now' : Nat} (hle : now ≤ now')
    (hevent : ∀ t ∈ o.event, now' ≤ t) : o.Inv now' := by
  refine ⟨h.fifo, h.awake, h.alone, fun t ht => ⟨hevent t ht, (h.ahead t ht).2⟩, ?_⟩
  exact fun hne first hfirst => Nat.le_trans (h.due hne first hfirst) hle

end Outbox

end PardG5V
