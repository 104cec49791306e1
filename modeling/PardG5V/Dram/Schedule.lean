import PardG5V.Dram.State

/-!
# Which packet the controller serves next

`minBankActAt`, `reorderQueue` and `chooseNext`. The reorder goes once over the queue with a bound
on the priority that every packet it looks at lowers to its own. It leaves the loop at the first
row hit, otherwise it keeps the first packet whose bank is ready.

Results: `reorder_takes_best_iff`, `hit_before_better_priority`.
-/

namespace PardG5V

def maxPriority : Nat := 64

def maxTick : Tick := 2 ^ 64 - 1

namespace Dram

variable {cfg : DramConfig} (s : Dram cfg)

/-! ## The scheduler -/

/-- The tick at which a bank can be activated for a row buffer, by the approximation of
`reorderQueue` and `minBankActAt`. -/
def activateAt (bank : Bank) (closed : Bool) : Tick :=
  if closed then bank.actAllowedAt else max bank.preAllowedAt s.curTick + cfg.tRP

/-- `waiting_mask`: some queued packet is for the row buffer of the bank. -/
def waiting (queue : List (DRAMPacket cfg)) (bankId : Nat) (rowbuf : Fin rowBufferCount) : Bool :=
  queue.any fun pkt => pkt.bankId.num == bankId && pkt.rowbuf == rowbuf

/-- One round of the loop over the banks. The number of the bank is a `uint8_t` here. From 64 on its
64-bit shift is undefined in the source (modulo 64 on x86), and here the bit is lost. -/
def earliestRound (queue : List (DRAMPacket cfg)) (found : BitVec 64 × Tick) (id : BankId cfg) :
    BitVec 64 × Tick :=
  let bankId := id.num % 2 ^ 8
  if (List.finRange rowBufferCount).any (waiting queue bankId) then
    let closed := (List.finRange rowBufferCount).any fun rowbuf =>
      waiting queue bankId rowbuf && ((s.banks id).openRow rowbuf).isNone
    let actAt := s.activateAt (s.banks id) closed
    if actAt ≤ found.2 then
      ((if actAt < found.2 then 0 else found.1) ||| (1 <<< bankId), actAt)
    else found
  else found

/-- `minBankActAt`: the mask of the banks that can be activated first. -/
def minBankActAt (queue : List (DRAMPacket cfg)) : BitVec 64 :=
  ((BankId.all cfg).foldl (s.earliestRound queue) (0, maxTick)).1

/-- The priority of a packet, which is better the smaller it is. -/
def effectivePriority (pkt : DRAMPacket cfg) : Nat := (s.params pkt.ldom).effectivePriority.toNat

def rowHit (pkt : DRAMPacket cfg) : Bool := s.openRow pkt.rowBuf == some pkt.row

/-- The bank of the packet is ready or is one of the first available banks, which a bank from 64 on
is not (see `earliestRound`). -/
def bankReady (queue : List (DRAMPacket cfg)) (pkt : DRAMPacket cfg) : Bool :=
  s.activateAt (s.banks pkt.bankId) (s.openRow pkt.rowBuf).isNone ≤ s.curTick ||
    (s.minBankActAt queue).getLsbD pkt.bankId.num

/-- The loop of `reorderQueue` over the rest of the queue, which starts at the position
`i`: `priority`, `found_earliest_pkt` and the position of `selected_pkt_it`. -/
def select (queue : List (DRAMPacket cfg)) :
    List (DRAMPacket cfg) → (i priority : Nat) → (foundEarliest : Bool) → (selected : Nat) → Nat
  | [], _, _, _, selected => selected
  | pkt :: rest, i, priority, foundEarliest, selected =>
    if priority < s.effectivePriority pkt then
      select queue rest (i + 1) priority foundEarliest selected
    else if s.rowHit pkt then i
    else if !foundEarliest && s.bankReady queue pkt then
      select queue rest (i + 1) (s.effectivePriority pkt) true i
    else select queue rest (i + 1) (s.effectivePriority pkt) foundEarliest selected

/-- The position of the packet that `reorderQueue` takes. -/
def selected (queue : List (DRAMPacket cfg)) : Nat := s.select queue queue 0 maxPriority false 0

def reorderQueue (queue : List (DRAMPacket cfg)) : List (DRAMPacket cfg) :=
  match queue[s.selected queue]? with
  | some pkt => pkt :: queue.eraseIdx (s.selected queue)
  | none => queue

/-- `chooseNext`, on a queue that is not empty. -/
def chooseNext (queue : List (DRAMPacket cfg)) : List (DRAMPacket cfg) :=
  if queue.length = 1 then queue
  else match cfg.memSchedPolicy with
    | .fcfs => queue
    | .frfcfs => s.reorderQueue queue

/-! ## Contenders -/

/-- The packets that the loop looks at, with their positions. -/
def contenders : List (DRAMPacket cfg) → (i bound : Nat) → List (Nat × DRAMPacket cfg)
  | [], _, _ => []
  | pkt :: rest, i, bound =>
    if bound < s.effectivePriority pkt then contenders rest (i + 1) bound
    else (i, pkt) :: contenders rest (i + 1) (s.effectivePriority pkt)

variable {s} {queue rest : List (DRAMPacket cfg)} {pkt : DRAMPacket cfg} {i k bound : Nat}
  {c : Nat × DRAMPacket cfg}

/-- The loop takes the first contender that hits, else the first that is ready. -/
theorem select_eq (foundEarliest : Bool) (selected : Nat) :
    s.select queue rest i bound foundEarliest selected =
      match (s.contenders rest i bound).find? (fun c => s.rowHit c.2) with
      | some c => c.1
      | none =>
        if foundEarliest then selected
        else match (s.contenders rest i bound).find? (fun c => s.bankReady queue c.2) with
          | some c => c.1
          | none => selected := by
  induction rest generalizing i bound foundEarliest selected with
  | nil => cases foundEarliest <;> rfl
  | cons pkt rest ih =>
    unfold select contenders
    by_cases hworse : bound < s.effectivePriority pkt
    · rw [if_pos hworse, if_pos hworse]
      exact ih foundEarliest selected
    · rw [if_neg hworse, if_neg hworse]
      cases hhit : s.rowHit pkt with
      | true => simp [hhit]
      | false =>
        cases hready : s.bankReady queue pkt with
        | true | false => cases foundEarliest <;> simp [hhit, hready, ih]

theorem mem_contenders : (k, pkt) ∈ s.contenders rest i bound ↔ i ≤ k ∧ rest[k - i]? = some pkt ∧
      s.effectivePriority pkt ≤ bound ∧
      ∀ j q, j < k - i → rest[j]? = some q → s.effectivePriority pkt ≤ s.effectivePriority q := by
  induction rest generalizing i bound with
  | nil => simp [contenders]
  | cons head rest ih =>
    -- a position in the tail, counted from the head
    have hshift : ∀ {n : Nat}, (∀ j q, j < n + 1 → (head :: rest)[j]? = some q →
          s.effectivePriority pkt ≤ s.effectivePriority q) ↔
        s.effectivePriority pkt ≤ s.effectivePriority head ∧
          ∀ j q, j < n → rest[j]? = some q →
            s.effectivePriority pkt ≤ s.effectivePriority q := by
      intro n
      constructor
      · exact fun h => ⟨h 0 head (by omega) rfl, fun j q hj hq => h (j + 1) q (by omega) hq⟩
      · rintro ⟨hhead, hrest⟩ j q hj hq
        cases j with
        | zero => exact Option.some.inj hq ▸ hhead
        | succ j => exact hrest j q (by omega) hq
    unfold contenders
    by_cases hworse : bound < s.effectivePriority head
    · rw [if_pos hworse, ih]
      rcases Nat.lt_or_ge i k with hlt | hge
      · obtain ⟨n, rfl⟩ := Nat.exists_eq_add_of_lt hlt
        have hidx : i + n + 1 - i = n + 1 := by omega
        have hidx' : i + n + 1 - (i + 1) = n := by omega
        rw [hidx, hidx', hshift, List.getElem?_cons_succ]
        constructor
        · rintro ⟨-, hpkt, hle, hall⟩
          exact ⟨by omega, hpkt, hle, by omega, hall⟩
        · rintro ⟨-, hpkt, hle, -, hall⟩
          exact ⟨by omega, hpkt, hle, hall⟩
      · refine iff_of_false (fun h => by omega) ?_
        rintro ⟨hik, hpkt, hle, -⟩
        rw [show k - i = 0 by omega] at hpkt
        cases hpkt
        omega
    · rw [if_neg hworse, List.mem_cons, ih, Prod.mk.injEq]
      rcases Nat.lt_or_ge i k with hlt | hge
      · obtain ⟨n, rfl⟩ := Nat.exists_eq_add_of_lt hlt
        have hidx : i + n + 1 - i = n + 1 := by omega
        have hidx' : i + n + 1 - (i + 1) = n := by omega
        rw [hidx, hidx', hshift, List.getElem?_cons_succ]
        constructor
        · rintro (⟨heq, -⟩ | ⟨-, hpkt, hle, hall⟩)
          · omega
          · exact ⟨by omega, hpkt, by omega, hle, hall⟩
        · rintro ⟨-, hpkt, -, hle, hall⟩
          exact .inr ⟨by omega, hpkt, hle, hall⟩
      · constructor
        · rintro (⟨rfl, rfl⟩ | ⟨hle, -⟩)
          · refine ⟨Nat.le_refl _, by simp, by omega, fun j q hj => by omega⟩
          · omega
        · rintro ⟨hik, hpkt, -, -⟩
          rw [show k - i = 0 by omega] at hpkt
          exact .inl ⟨by omega, (Option.some.inj hpkt).symm⟩

theorem contenders_sorted : (s.contenders rest i bound).Pairwise fun a b => a.1 < b.1 := by
  induction rest generalizing i bound with
  | nil => exact .nil
  | cons head rest ih =>
    unfold contenders
    split
    · exact ih
    · refine .cons (fun c hc => ?_) ih
      exact (mem_contenders.mp hc).1

/-- What `find?` finds in a list with growing positions is the first of its kind. -/
theorem find?_first {test : Nat × DRAMPacket cfg → Bool}
    (h : (s.contenders rest i bound).find? test = some c) :
    c ∈ s.contenders rest i bound ∧ test c = true ∧
      ∀ c' ∈ s.contenders rest i bound, test c' = true → c.1 ≤ c'.1 := by
  have hsorted : (s.contenders rest i bound).Pairwise fun a b => a.1 < b.1 := contenders_sorted
  obtain ⟨htest, before, after, hsplit, hbefore⟩ := List.find?_eq_some_iff_append.mp h
  rw [hsplit] at hsorted ⊢
  refine ⟨by simp, htest, fun c' hc' htest' => ?_⟩
  rcases List.mem_append.mp hc' with hmem | hmem
  · have hno := hbefore c' hmem
    rw [htest'] at hno
    exact absurd hno (by decide)
  · rcases List.mem_cons.mp hmem with rfl | hmem
    · exact Nat.le_refl _
    · have hafter := (List.pairwise_append.mp hsorted).2.1
      exact Nat.le_of_lt ((List.pairwise_cons.mp hafter).1 c' hmem)

/-! ## What the reorder takes -/

variable (s) (queue)

def Best (pkt : DRAMPacket cfg) : Prop :=
  ∀ q ∈ queue, s.effectivePriority pkt ≤ s.effectivePriority q

/-- The reordered queue starts with a packet of the best priority, the oldest row hit
among those if there is one, and the others follow in their order. -/
def TakesBest (queue' : List (DRAMPacket cfg)) : Prop :=
  ∃ k pkt, queue[k]? = some pkt ∧ queue' = pkt :: queue.eraseIdx k ∧ s.Best queue pkt ∧
    ∀ j q, queue[j]? = some q → s.Best queue q → s.rowHit q = true →
      s.rowHit pkt = true ∧ k ≤ j

/-- The packet has not the best priority, but one of at most `MAX_PRIORITY` and at most
that of every packet before it. -/
structure InTheWay (k : Nat) (pkt : DRAMPacket cfg) : Prop where
  queued : queue[k]? = some pkt
  bounded : s.effectivePriority pkt ≤ maxPriority
  ahead : ∀ j q, j < k → queue[j]? = some q → s.effectivePriority pkt ≤ s.effectivePriority q
  worse : ¬ s.Best queue pkt

/-- Where the best priority is at most `MAX_PRIORITY`, no packet in the way is a row hit; unless one
of the best priority is, none in the way is ready, and one of the best priority is ready or heads
the queue. Where all priorities are above `MAX_PRIORITY`, the head has to be taken. -/
def Unobstructed : Prop :=
  (∃ q ∈ queue, s.effectivePriority q ≤ maxPriority) ∧
      (∀ k pkt, s.InTheWay queue k pkt → s.rowHit pkt = false) ∧
      ((∃ q ∈ queue, s.Best queue q ∧ s.rowHit q = true) ∨
        (∀ k pkt, s.InTheWay queue k pkt → s.bankReady queue pkt = false) ∧
          ((∃ q ∈ queue, s.Best queue q ∧ s.bankReady queue q = true) ∨
            ∀ pkt, queue[0]? = some pkt → s.Best queue pkt)) ∨
    (∀ q ∈ queue, maxPriority < s.effectivePriority q) ∧
      ∀ pkt, queue[0]? = some pkt → s.Best queue pkt ∧
        ((∃ q ∈ queue, s.Best queue q ∧ s.rowHit q = true) → s.rowHit pkt = true)

variable {s} {queue}

theorem mem_contenders_queue : (k, pkt) ∈ s.contenders queue 0 maxPriority ↔ queue[k]? = some pkt ∧
      s.effectivePriority pkt ≤ maxPriority ∧
      ∀ j q, j < k → queue[j]? = some q → s.effectivePriority pkt ≤ s.effectivePriority q := by
  rw [mem_contenders]
  simp

theorem mem_contenders_of_best (hpkt : queue[k]? = some pkt) (hbest : s.Best queue pkt)
    (hsome : ∃ q ∈ queue, s.effectivePriority q ≤ maxPriority) :
    (k, pkt) ∈ s.contenders queue 0 maxPriority := by
  obtain ⟨q, hq, hle⟩ := hsome
  exact mem_contenders_queue.mpr ⟨hpkt, Nat.le_trans (hbest q hq) hle,
    fun j q _ hq => hbest q (List.mem_of_getElem? hq)⟩

theorem mem_contenders_of_inTheWay (h : s.InTheWay queue k pkt) :
    (k, pkt) ∈ s.contenders queue 0 maxPriority :=
  mem_contenders_queue.mpr ⟨h.queued, h.bounded, h.ahead⟩

/-- A contender is of the best priority or in the way. -/
theorem inTheWay_of_mem (h : (k, pkt) ∈ s.contenders queue 0 maxPriority)
    (hworse : ¬ s.Best queue pkt) : s.InTheWay queue k pkt := by
  obtain ⟨hpkt, hle, hahead⟩ := mem_contenders_queue.mp h
  exact ⟨hpkt, hle, hahead, hworse⟩

theorem not_inTheWay_behind {k' : Nat} {pkt' : DRAMPacket cfg} (hpkt : queue[k]? = some pkt)
    (hbest : s.Best queue pkt) (hle : k ≤ k') : ¬ s.InTheWay queue k' pkt' := by
  intro h
  refine h.worse fun q hq => ?_
  rcases Nat.lt_or_eq_of_le hle with hlt | rfl
  · exact Nat.le_trans (h.ahead k pkt hlt hpkt) (hbest q hq)
  · cases Option.some.inj (hpkt.symm.trans h.queued)
    exact hbest q hq

theorem reorderQueue_eq (hpkt : queue[s.selected queue]? = some pkt) :
    s.reorderQueue queue = pkt :: queue.eraseIdx (s.selected queue) := by
  simp [reorderQueue, hpkt]

theorem takesBest_of_selected (hpkt : queue[s.selected queue]? = some pkt)
    (hbest : s.Best queue pkt)
    (hhit : ∀ j q, queue[j]? = some q → s.Best queue q → s.rowHit q = true →
      s.rowHit pkt = true ∧ s.selected queue ≤ j) :
    s.TakesBest queue (s.reorderQueue queue) :=
  ⟨s.selected queue, pkt, hpkt, reorderQueue_eq hpkt, hbest, hhit⟩

theorem best_of_takesBest (hpkt : queue[s.selected queue]? = some pkt)
    (h : s.TakesBest queue (s.reorderQueue queue)) :
    s.Best queue pkt ∧ ((∃ q ∈ queue, s.Best queue q ∧ s.rowHit q = true) →
      s.rowHit pkt = true) := by
  obtain ⟨k, pkt', -, heq, hbest, hhit⟩ := h
  rw [reorderQueue_eq hpkt] at heq
  obtain ⟨rfl, -⟩ := List.cons.inj heq
  refine ⟨hbest, ?_⟩
  rintro ⟨q, hq, hqbest, hqhit⟩
  obtain ⟨j, hj⟩ := List.getElem?_of_mem hq
  exact (hhit j q hj hqbest hqhit).1

theorem selected_eq :
    s.selected queue = match (s.contenders queue 0 maxPriority).find? (fun c => s.rowHit c.2) with
      | some c => c.1
      | none =>
        match (s.contenders queue 0 maxPriority).find? (fun c => s.bankReady queue c.2) with
        | some c => c.1
        | none => 0 := by
  rw [selected, select_eq]
  rfl

/-- Where a contender is a row hit, the first one is taken. -/
theorem takesBest_iff_of_hit (hsome : ∃ q ∈ queue, s.effectivePriority q ≤ maxPriority)
    (hfind : (s.contenders queue 0 maxPriority).find? (fun c => s.rowHit c.2) = some c) :
    s.TakesBest queue (s.reorderQueue queue) ↔ s.Unobstructed queue := by
  obtain ⟨hmem, hhit, hfirst⟩ := find?_first hfind
  have hsel : s.selected queue = c.1 := by rw [selected_eq, hfind]
  have hpkt : queue[c.1]? = some c.2 := (mem_contenders_queue.mp hmem).1
  rw [← hsel] at hpkt
  constructor
  · intro htakes
    have hbest := (best_of_takesBest hpkt htakes).1
    refine .inl ⟨hsome, fun k pkt hway => ?_, .inl ⟨c.2, List.mem_of_getElem? hpkt, hbest, hhit⟩⟩
    -- a hit in the way would come after the hit that is taken
    by_contra hhit'
    have hle := hfirst _ (mem_contenders_of_inTheWay hway) (by simpa using hhit')
    rw [← hsel] at hle
    exact not_inTheWay_behind hpkt hbest hle hway
  · rintro (⟨-, hclear, -⟩ | ⟨hall, -⟩)
    · have hbest : s.Best queue c.2 := by
        by_contra hworse
        have hno := hclear c.1 c.2 (inTheWay_of_mem hmem hworse)
        rw [hhit] at hno
        exact Bool.noConfusion hno
      refine takesBest_of_selected hpkt hbest fun j q hq hqbest hqhit => ⟨hhit, ?_⟩
      rw [hsel]
      exact hfirst _ (mem_contenders_of_best hq hqbest hsome) hqhit
    · obtain ⟨q, hq, hle⟩ := hsome
      exact absurd (hall q hq) (Nat.not_lt.mpr hle)

theorem no_contender_of_none {test : DRAMPacket cfg → Bool}
    (h : (s.contenders queue 0 maxPriority).find? (fun c => test c.2) = none)
    (hmem : (k, pkt) ∈ s.contenders queue 0 maxPriority) : test pkt = false := by
  have hno := List.find?_eq_none.mp h _ hmem
  simpa using hno

/-- Where no contender is a row hit, only a packet that is ready or the head is taken. -/
theorem takesBest_iff_of_no_hit (hne : queue ≠ [])
    (hsome : ∃ q ∈ queue, s.effectivePriority q ≤ maxPriority)
    (hnone : (s.contenders queue 0 maxPriority).find? (fun c => s.rowHit c.2) = none) :
    s.TakesBest queue (s.reorderQueue queue) ↔ s.Unobstructed queue := by
  have hnohit : ∀ {j q}, queue[j]? = some q → s.Best queue q → s.rowHit q = false :=
    fun hq hbest => no_contender_of_none hnone (mem_contenders_of_best hq hbest hsome)
  have hclear : s.Unobstructed queue ↔
      (∀ k pkt, s.InTheWay queue k pkt → s.bankReady queue pkt = false) ∧
        ((∃ q ∈ queue, s.Best queue q ∧ s.bankReady queue q = true) ∨
          ∀ pkt, queue[0]? = some pkt → s.Best queue pkt) := by
    constructor
    · rintro (⟨-, -, ⟨q, hq, hbest, hhit⟩ | h⟩ | ⟨hall, -⟩)
      · obtain ⟨j, hj⟩ := List.getElem?_of_mem hq
        rw [hnohit hj hbest] at hhit
        exact Bool.noConfusion hhit
      · exact h
      · obtain ⟨q, hq, hle⟩ := hsome
        exact absurd (hall q hq) (Nat.not_lt.mpr hle)
    · intro h
      refine .inl ⟨hsome, fun k pkt hway => ?_, .inr h⟩
      exact no_contender_of_none hnone (mem_contenders_of_inTheWay hway)
  rw [hclear]
  cases hready : (s.contenders queue 0 maxPriority).find? (fun c => s.bankReady queue c.2) with
  | some c =>
    obtain ⟨hmem, hcready, hfirst⟩ := find?_first hready
    have hsel : s.selected queue = c.1 := by rw [selected_eq, hnone, hready]
    have hpkt : queue[c.1]? = some c.2 := (mem_contenders_queue.mp hmem).1
    rw [← hsel] at hpkt
    constructor
    · intro htakes
      have hbest := (best_of_takesBest hpkt htakes).1
      refine ⟨fun k pkt hway => ?_, .inl ⟨c.2, List.mem_of_getElem? hpkt, hbest, hcready⟩⟩
      by_contra hready'
      have hle := hfirst _ (mem_contenders_of_inTheWay hway) (by simpa using hready')
      rw [← hsel] at hle
      exact not_inTheWay_behind hpkt hbest hle hway
    · rintro ⟨hno, -⟩
      have hbest : s.Best queue c.2 := by
        by_contra hworse
        have hfalse := hno c.1 c.2 (inTheWay_of_mem hmem hworse)
        rw [hcready] at hfalse
        exact Bool.noConfusion hfalse
      refine takesBest_of_selected hpkt hbest fun j q hq hqbest hqhit => ?_
      rw [hnohit hq hqbest] at hqhit
      exact Bool.noConfusion hqhit
  | none =>
    have hsel : s.selected queue = 0 := by rw [selected_eq, hnone, hready]
    obtain ⟨head, tail, rfl⟩ := List.exists_cons_of_ne_nil hne
    have hpkt : (head :: tail)[s.selected (head :: tail)]? = some head := by rw [hsel]; rfl
    constructor
    · intro htakes
      refine ⟨fun k pkt hway => ?_, .inr fun pkt hhead => ?_⟩
      · exact no_contender_of_none hready (mem_contenders_of_inTheWay hway)
      · rw [← Option.some.inj hhead]
        exact (best_of_takesBest hpkt htakes).1
    · rintro ⟨-, ⟨q, hq, hbest, hqready⟩ | hhead⟩
      · obtain ⟨j, hj⟩ := List.getElem?_of_mem hq
        rw [no_contender_of_none hready (mem_contenders_of_best hj hbest hsome)] at hqready
        exact Bool.noConfusion hqready
      · refine takesBest_of_selected hpkt (hhead head rfl) fun j q hq hqbest hqhit => ?_
        rw [hnohit hq hqbest] at hqhit
        exact Bool.noConfusion hqhit

/-- Where all priorities are above `MAX_PRIORITY`, the loop looks at no packet. -/
theorem takesBest_iff_of_above (hne : queue ≠ [])
    (hall : ∀ q ∈ queue, maxPriority < s.effectivePriority q) :
    s.TakesBest queue (s.reorderQueue queue) ↔ s.Unobstructed queue := by
  have hnone : s.contenders queue 0 maxPriority = [] := by
    refine List.eq_nil_iff_forall_not_mem.mpr fun c hc => ?_
    obtain ⟨hpkt, hle, -⟩ := mem_contenders_queue.mp hc
    exact absurd (hall c.2 (List.mem_of_getElem? hpkt)) (Nat.not_lt.mpr hle)
  have hsel : s.selected queue = 0 := by rw [selected_eq, hnone]; rfl
  obtain ⟨head, tail, rfl⟩ := List.exists_cons_of_ne_nil hne
  have hpkt : (head :: tail)[s.selected (head :: tail)]? = some head := by rw [hsel]; rfl
  constructor
  · intro htakes
    refine .inr ⟨hall, fun pkt hhead => ?_⟩
    rw [← Option.some.inj hhead]
    exact best_of_takesBest hpkt htakes
  · rintro (⟨⟨q, hq, hle⟩, -⟩ | ⟨-, h⟩)
    · exact absurd (hall q hq) (Nat.not_lt.mpr hle)
    · obtain ⟨hbest, hhit⟩ := h head rfl
      refine takesBest_of_selected hpkt hbest fun j q hq hqbest hqhit => ?_
      exact ⟨hhit ⟨q, List.mem_of_getElem? hq, hqbest, hqhit⟩, by omega⟩

/-- The reorder puts a packet of the best priority at the head, the oldest row hit among those if
there is one, and keeps the others in order, exactly when nothing is in the way. -/
theorem reorder_takes_best_iff (s : Dram cfg) {queue : List (DRAMPacket cfg)} (hne : queue ≠ []) :
    s.TakesBest queue (s.reorderQueue queue) ↔ s.Unobstructed queue := by
  by_cases hsome : ∃ q ∈ queue, s.effectivePriority q ≤ maxPriority
  · cases hfind : (s.contenders queue 0 maxPriority).find? (fun c => s.rowHit c.2) with
    | some c => exact takesBest_iff_of_hit hsome hfind
    | none => exact takesBest_iff_of_no_hit hne hsome hfind
  · refine takesBest_iff_of_above hne fun q hq => ?_
    by_contra hle
    exact hsome ⟨q, hq, Nat.not_lt.mp hle⟩

end Dram

/-! ## Two LDoms at one bank -/

def ldomRead (ldom : Fin 4) (row : Row) : DRAMPacket .oneBank where
  entryTime := 0
  readyTime := 0
  pkt := .ofRequest { paddr := 0, size := 64, qosTag := BitVec.ofNat 64 ldom } .ReadReq
  isRead := true
  bankId := ⟨⟨0, by decide⟩, ⟨0, by decide⟩⟩
  row := row
  addr := 0
  size := 64
  qosTag := BitVec.ofNat 64 ldom
  rowbuf := 0
  ldom_lt := by
    revert ldom
    decide

/-- The row 5 is open, and LDom 1 has a worse priority than the others. -/
def rowFiveOpen : Dram .oneBank :=
  { Dram.startup .oneBank 0 with
    params := fun ldom => { effectivePriority := if ldom.val = 1 then 1 else 0, rowbufMask := 1 }
    banks := fun _ => { openRow := fun _ => some 5, numRowsActive := 2 }
    numBanksActive := 1 }

theorem reorder_takes_best_iff_hit : rowFiveOpen.TakesBest [ldomRead 0 3, ldomRead 0 5]
      (rowFiveOpen.reorderQueue [ldomRead 0 3, ldomRead 0 5]) := by
  refine (Dram.reorder_takes_best_iff rowFiveOpen (by simp)).mpr (.inl ⟨?_, ?_, .inl ?_⟩)
  · exact ⟨ldomRead 0 3, by simp, by decide⟩
  · rintro k pkt ⟨hqueued, -, -, hworse⟩
    refine absurd (fun q hq => ?_) hworse
    have hpkt := List.mem_of_getElem? hqueued
    simp only [List.mem_cons, List.not_mem_nil, or_false] at hpkt
    rcases hpkt with rfl | rfl <;> exact Nat.zero_le _
  · exact ⟨ldomRead 0 5, by simp, fun q _ => Nat.zero_le _, by decide⟩

/-- A row hit of LDom 1 goes before a read of LDom 0, which has the better priority. -/
theorem hit_before_better_priority : ¬ rowFiveOpen.TakesBest [ldomRead 1 5, ldomRead 0 3]
      (rowFiveOpen.reorderQueue [ldomRead 1 5, ldomRead 0 3]) := by
  have horder : rowFiveOpen.reorderQueue [ldomRead 1 5, ldomRead 0 3] =
      [ldomRead 1 5, ldomRead 0 3] := rfl
  rw [horder]
  rintro ⟨k, pkt, -, heq, hbest, -⟩
  obtain ⟨rfl, -⟩ := List.cons.inj heq
  have hle := hbest (ldomRead 0 3) (by simp)
  exact absurd hle (by decide)

end PardG5V
