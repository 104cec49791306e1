import Mathlib.Data.List.Forall2
import PardG5V.Basic
import PardG5V.Lib.Prog

/-!
# The LDom address table

`hyper/base/ldom_addr.hh` and the constructor of `PARDg5VRangeAddrMapper`: entries that each map a
range of one LDom's addresses to a machine range of the same size, searched from the front. An
address that no entry of its LDom covers passes through unchanged.

Results: `remapAddr_isolation`, `unmapped_access_reaches_other_ldom`, `maintained_iff`.
-/

namespace PardG5V

/-! ## Address ranges -/

/-- `AddrRange`: a closed range with an optional interleaving slice. -/
structure AddrRange where
  start : Addr
  stop : Addr
  intlvHighBit : Nat := 0
  intlvBits : Nat := 0
  intlvMatch : Nat := 0
deriving DecidableEq, Repr

namespace AddrRange

def interleaved (r : AddrRange) : Bool := r.intlvBits != 0

/-- `size()`: wraps to `0` when the range spans the whole address space. -/
def size (r : AddrRange) : Addr := (r.stop - r.start + 1) >>> r.intlvBits

/-- `bits(a, intlvHighBit, intlvHighBit - intlvBits + 1)`. -/
def slice (r : AddrRange) (a : Addr) : Nat :=
  (a.toNat >>> (r.intlvHighBit + 1 - r.intlvBits)) % 2 ^ r.intlvBits

def contains (r : AddrRange) (a : Addr) : Bool :=
  r.start ≤ a && a ≤ r.stop && (!r.interleaved || r.slice a == r.intlvMatch)

end AddrRange

structure GuestAddrRange extends AddrRange where
  guestID : GuestID
deriving DecidableEq, Repr

/-! ## The table -/

structure LDomAddrTLBEntry where
  domid : LDomID
  start : Addr
  size : Addr
  remapped : Addr
deriving DecidableEq, Repr

namespace LDomAddrTLBEntry

/-- `LDomAddrTLBEntry(original, remapped)`: asserts that neither range is
interleaved. -/
def ofRanges (original : GuestAddrRange) (remapped : AddrRange) :
    Except Abort LDomAddrTLBEntry := do
  assert (!original.interleaved && !remapped.interleaved)
  return ⟨original.guestID, original.start, original.size, remapped.start⟩

def contains (e : LDomAddrTLBEntry) (domid : LDomID) (a : Addr) : Bool :=
  e.domid == domid && e.start ≤ a && a ≤ e.start + e.size - 1

def translate (e : LDomAddrTLBEntry) (addr : Addr) : Addr :=
  addr - e.start + e.remapped

def machineContains (e : LDomAddrTLBEntry) (m : Addr) : Bool :=
  e.remapped ≤ m && m ≤ e.remapped + e.size - 1

end LDomAddrTLBEntry

abbrev LDomAddrTLB := List LDomAddrTLBEntry

namespace LDomAddrTLB

/-- `remapAddr`: the first entry that contains the address translates it. -/
def remapAddr (tlb : LDomAddrTLB) (ldomID : LDomID) (addr : Addr) : Addr :=
  match tlb.find? (·.contains ldomID addr) with
  | some e => e.translate addr
  | none => addr

/-- `remove`: the loop erases every entry of the LDom. -/
def remove (ldomID : LDomID) : LDomAddrTLB → LDomAddrTLB
  | [] => []
  | e :: tlb => if e.domid = ldomID then remove ldomID tlb else e :: remove ldomID tlb

/-- `query`: the loop returns as soon as it has appended an entry. -/
def query (ldomID : LDomID) (xent : List LDomAddrTLBEntry) : LDomAddrTLB → List LDomAddrTLBEntry
  | [] => xent
  | e :: tlb => if e.domid = ldomID then xent ++ [e] else query ldomID xent tlb

def Mapped (tlb : LDomAddrTLB) (ldomID : LDomID) (addr : Addr) : Prop :=
  ∃ e ∈ tlb, e.contains ldomID addr = true
deriving Decidable

/-- The loop of the `PARDg5VRangeAddrMapper` constructor over the two lists. -/
def ofRangePairs : List (GuestAddrRange × AddrRange) → Except Abort LDomAddrTLB
  | [] => .ok []
  | (original, remapped) :: rest => do
    if original.size ≠ remapped.size then throw .fatal
    let e ← LDomAddrTLBEntry.ofRanges original remapped
    let tlb ← ofRangePairs rest
    return e :: tlb

/-- The table that the `PARDg5VRangeAddrMapper` constructor builds. -/
def ofRanges (original : List GuestAddrRange) (remapped : List AddrRange) :
    Except Abort LDomAddrTLB :=
  if original.length ≠ remapped.length then .error .fatal
  else ofRangePairs (original.zip remapped)

end LDomAddrTLB

/-- No range of the list wraps around the end of the address space. -/
def NoWrap (ranges : List AddrRange) : Prop :=
  ∀ r ∈ ranges, r.start ≤ r.stop

/-- No address lies in two ranges of the list. -/
def PairwiseDisjoint (ranges : List AddrRange) : Prop :=
  ranges.Pairwise fun r s => ∀ a, ¬ (r.contains a = true ∧ s.contains a = true)

variable {d : LDomID} {a : Addr}

namespace TlbLemmas

open LDomAddrTLB Prog

structure BuiltFrom (e : LDomAddrTLBEntry) (o : GuestAddrRange) (r : AddrRange) : Prop where
  domid : e.domid = o.guestID
  start : e.start = o.start
  remapped : e.remapped = r.start
  size_original : e.size = o.stop - o.start + 1
  size_remapped : e.size = r.stop - r.start + 1
  plain : r.interleaved = false

variable {r : AddrRange}

theorem size_of_plain (h : r.interleaved = false) : r.size = r.stop - r.start + 1 := by
  have hb : r.intlvBits = 0 := by simpa [AddrRange.interleaved] using h
  simp [AddrRange.size, hb]

variable {e : LDomAddrTLBEntry} {o : GuestAddrRange}

theorem ofRanges_builtFrom (hsize : o.size = r.size) (h : LDomAddrTLBEntry.ofRanges o r = .ok e) :
    BuiltFrom e o r := by
  simp only [LDomAddrTLBEntry.ofRanges, except_bind_eq_ok, except_pure_eq_ok, assert_eq_ok,
    Bool.and_eq_true, Bool.not_eq_true'] at h
  obtain ⟨_, ⟨ho, hr⟩, rfl⟩ := h
  exact ⟨rfl, rfl, rfl, size_of_plain ho, hsize.trans (size_of_plain hr), hr⟩

variable {tlb : LDomAddrTLB}

/-- The entries of an accepted table are built, in order, from the pairs. -/
theorem ofRangePairs_builtFrom : ∀ {pairs : List (GuestAddrRange × AddrRange)} {tlb : LDomAddrTLB},
      ofRangePairs pairs = .ok tlb → List.Forall₂ (fun e p => BuiltFrom e p.1 p.2) tlb pairs
  | [], tlb, h => by
    simp only [ofRangePairs, Except.ok.injEq] at h
    subst h
    exact .nil
  | (o, r) :: rest, tlb, h => by
    simp only [ofRangePairs] at h
    split at h
    · simp at h
    · next hsize =>
      simp only [except_bind_eq_ok, except_pure_eq_ok, ne_eq, not_not] at h hsize
      obtain ⟨e, he, tail, ht, rfl⟩ := h
      exact .cons (ofRanges_builtFrom hsize he) (ofRangePairs_builtFrom ht)

variable {remapped : List AddrRange}

theorem ofRanges_forall₂ {original : List GuestAddrRange}
    (h : LDomAddrTLB.ofRanges original remapped = .ok tlb) :
    List.Forall₂ (fun e r => ∃ o, BuiltFrom e o r) tlb remapped := by
  simp only [LDomAddrTLB.ofRanges] at h
  split at h
  · simp at h
  · next hlen =>
    have hall := ofRangePairs_builtFrom h
    have hmap : List.Forall₂ (fun e r => ∃ o, BuiltFrom e o r) tlb
        ((original.zip remapped).map Prod.snd) := by
      rw [List.forall₂_map_right_iff]
      exact hall.imp fun e p hp => ⟨p.1, hp⟩
    rwa [List.map_snd_zip (by omega)] at hmap

/-- `contains` compares with the end of the original range, also when the size
of the range has wrapped. -/
theorem BuiltFrom.le_of_contains (hb : BuiltFrom e o r) (hc : e.contains d a = true) :
    e.domid = d ∧ o.start ≤ a ∧ a ≤ o.stop := by
  simp only [LDomAddrTLBEntry.contains, Bool.and_eq_true, beq_iff_eq, decide_eq_true_eq] at hc
  obtain ⟨⟨hd, hlo⟩, hhi⟩ := hc
  rw [hb.start] at hlo hhi
  rw [hb.size_original] at hhi
  have hend : o.start + (o.stop - o.start + 1) - 1 = o.stop := by bv_omega
  rw [hend] at hhi
  exact ⟨hd, hlo, hhi⟩

/-- A covered address is translated into the remapped range. -/
theorem BuiltFrom.translate_mem (hb : BuiltFrom e o r) (hwrap : r.start ≤ r.stop)
    (hc : e.contains d a = true) : r.contains (e.translate a) = true := by
  obtain ⟨_, hlo, hhi⟩ := hb.le_of_contains hc
  have hlen : o.stop - o.start = r.stop - r.start := by
    have h := hb.size_original.symm.trans hb.size_remapped
    bv_omega
  have hlow : r.start ≤ a - o.start + r.start := by bv_omega
  have hhigh : a - o.start + r.start ≤ r.stop := by bv_omega
  simp only [AddrRange.contains, LDomAddrTLBEntry.translate, hb.start, hb.remapped, hb.plain,
    Bool.and_eq_true, decide_eq_true_eq, Bool.not_false, Bool.true_or, and_true]
  exact ⟨hlow, hhigh⟩

/-- The machine range of an entry is its remapped range. -/
theorem BuiltFrom.contains_of_machineContains
    (hb : BuiltFrom e o r) {m : Addr} (hm : e.machineContains m = true) :
    r.contains m = true := by
  simp only [LDomAddrTLBEntry.machineContains, Bool.and_eq_true, decide_eq_true_eq] at hm
  rw [hb.remapped, hb.size_remapped] at hm
  have hend : r.start + (r.stop - r.start + 1) - 1 = r.stop := by bv_omega
  rw [hend] at hm
  simp [AddrRange.contains, hb.plain, hm.1, hm.2]

theorem find?_of_mapped (h : tlb.Mapped d a) :
    ∃ e, tlb.find? (·.contains d a) = some e ∧ e ∈ tlb ∧ e.contains d a = true := by
  obtain ⟨e₀, hmem, hc⟩ := h
  cases hf : tlb.find? (·.contains d a) with
  | none => exact absurd hc (List.find?_eq_none.mp hf e₀ hmem)
  | some e =>
    have hce := List.find?_some hf
    exact ⟨e, rfl, List.mem_of_find?_eq_some hf, hce⟩

theorem remapAddr_of_not_mapped (h : ¬ tlb.Mapped d a) : tlb.remapAddr d a = a := by
  have hf : tlb.find? (·.contains d a) = none :=
    List.find?_eq_none.mpr fun e he hc => h ⟨e, he, hc⟩
  simp [remapAddr, hf]

/-- Every entry of an accepted table has its pair of ranges. -/
theorem exists_builtFrom (hall : List.Forall₂ (fun e r => ∃ o, BuiltFrom e o r) tlb remapped)
    (he : e ∈ tlb) : ∃ o r, BuiltFrom e o r ∧ r ∈ remapped := by
  induction hall with
  | nil => exact absurd he List.not_mem_nil
  | @cons e₀ r tlb remapped hb _ ih =>
    rcases List.mem_cons.mp he with rfl | he
    · obtain ⟨o, hb⟩ := hb
      exact ⟨o, r, hb, List.mem_cons_self⟩
    · obtain ⟨o, r', hb', hr'⟩ := ih he
      exact ⟨o, r', hb', List.mem_cons_of_mem _ hr'⟩

/-- `m` lies in every range of the list that `e` was built from. -/
def Owns (remapped : List AddrRange) (e : LDomAddrTLBEntry) (m : Addr) : Prop :=
  ∀ o r, BuiltFrom e o r → r ∈ remapped → r.contains m = true

/-- Over disjoint ranges, two entries that own a common machine address belong
to the same LDom. -/
theorem domid_eq_of_owns (hall : List.Forall₂ (fun e r => ∃ o, BuiltFrom e o r) tlb remapped)
    (hdisj : PairwiseDisjoint remapped) {e₁ e₂ : LDomAddrTLBEntry} (h₁ : e₁ ∈ tlb)
    (h₂ : e₂ ∈ tlb) {m : Addr} (hm₁ : Owns remapped e₁ m) (hm₂ : Owns remapped e₂ m) :
    e₁.domid = e₂.domid := by
  induction hall with
  | nil => exact absurd h₁ List.not_mem_nil
  | @cons e r tlb remapped hb hall ih =>
    obtain ⟨o, hb⟩ := hb
    obtain ⟨hhead, htail⟩ := List.pairwise_cons.mp hdisj
    -- an entry further down owns `m` through a range disjoint from the head range
    have hrest : ∀ e' ∈ tlb, Owns (r :: remapped) e' m → r.contains m = true → False := by
      intro e' he' hown hr
      obtain ⟨o', r', hb', hr'⟩ := exists_builtFrom hall he'
      exact hhead r' hr' m ⟨hr, hown o' r' hb' (List.mem_cons_of_mem _ hr')⟩
    have htailOwns : ∀ e', Owns (r :: remapped) e' m → Owns remapped e' m :=
      fun e' hown o' r' hb' hr' => hown o' r' hb' (List.mem_cons_of_mem _ hr')
    rcases List.mem_cons.mp h₁ with he₁ | he₁ <;> rcases List.mem_cons.mp h₂ with he₂ | he₂
    · rw [he₁, he₂]
    · exact (hrest e₂ he₂ hm₂ (hm₁ o r (he₁ ▸ hb) List.mem_cons_self)).elim
    · exact (hrest e₁ he₁ hm₁ (hm₂ o r (he₂ ▸ hb) List.mem_cons_self)).elim
    · exact ih htail he₁ he₂ (htailOwns e₁ hm₁) (htailOwns e₂ hm₂)

/-- The entry that translates a covered address owns the result. -/
theorem exists_owner (hwrap : NoWrap remapped) (h : tlb.Mapped d a) :
    ∃ e ∈ tlb, e.domid = d ∧ Owns remapped e (tlb.remapAddr d a) := by
  obtain ⟨e, hf, hmem, hc⟩ := find?_of_mapped h
  have hd : e.domid = d := by
    simp only [LDomAddrTLBEntry.contains, Bool.and_eq_true, beq_iff_eq] at hc
    exact hc.1.1
  refine ⟨e, hmem, hd, fun o r hb hr => ?_⟩
  simp only [remapAddr, hf]
  exact hb.translate_mem (hwrap r hr) hc

end TlbLemmas

open TlbLemmas

/-- A covered address is translated into the machine range of an entry of its
own LDom, and into no machine range of another LDom. -/
theorem remapAddr_not_machineContains {original : List GuestAddrRange} {remapped : List AddrRange}
    {tlb : LDomAddrTLB} (h : LDomAddrTLB.ofRanges original remapped = .ok tlb)
    (hdisj : PairwiseDisjoint remapped) (hwrap : NoWrap remapped) {d₁ d₂ : LDomID} {a₂ : Addr}
    (hd : d₁ ≠ d₂) (hm : tlb.Mapped d₂ a₂) {e : LDomAddrTLBEntry} (he : e ∈ tlb)
    (hed : e.domid = d₁) : e.machineContains (tlb.remapAddr d₂ a₂) = false := by
  have hall := ofRanges_forall₂ h
  obtain ⟨e₂, he₂, hed₂, hown₂⟩ := exists_owner hwrap hm
  cases hc : e.machineContains (tlb.remapAddr d₂ a₂) with
  | false => rfl
  | true =>
    have hown : Owns remapped e (tlb.remapAddr d₂ a₂) :=
      fun o r hb _ => hb.contains_of_machineContains hc
    exact absurd (hed ▸ hed₂ ▸ domid_eq_of_owns hall hdisj he he₂ hown hown₂) hd

/-- For every table that the constructor builds over disjoint remapped ranges that do not wrap, and
a covered access `(d₁, a₁)`: an access of another LDom gets the same machine address exactly when no
entry covers it and it already carries that address, and a covered one reaches no machine range of
`d₁`. -/
theorem remapAddr_isolation {original : List GuestAddrRange} {remapped : List AddrRange}
    {tlb : LDomAddrTLB} (h : LDomAddrTLB.ofRanges original remapped = .ok tlb)
    (hdisj : PairwiseDisjoint remapped) (hwrap : NoWrap remapped) (d₁ d₂ : LDomID) (a₁ a₂ : Addr)
    (hd : d₁ ≠ d₂) :
    (tlb.Mapped d₁ a₁ →
      (tlb.remapAddr d₁ a₁ = tlb.remapAddr d₂ a₂ ↔
        ¬ tlb.Mapped d₂ a₂ ∧ a₂ = tlb.remapAddr d₁ a₁)) ∧
    (tlb.Mapped d₂ a₂ → ∀ e ∈ tlb, e.domid = d₁ →
      e.machineContains (tlb.remapAddr d₂ a₂) = false) ∧
    (¬ tlb.Mapped d₂ a₂ → tlb.remapAddr d₂ a₂ = a₂) := by
  refine ⟨fun hm₁ => ⟨fun heq => ?_, fun ⟨hm₂, ha⟩ => ?_⟩,
    fun hm₂ e he hed => remapAddr_not_machineContains h hdisj hwrap hd hm₂ he hed,
    remapAddr_of_not_mapped⟩
  · by_cases hm₂ : tlb.Mapped d₂ a₂
    · obtain ⟨e₁, he₁, hed₁, hown₁⟩ := exists_owner hwrap hm₁
      obtain ⟨e₂, he₂, hed₂, hown₂⟩ := exists_owner hwrap hm₂
      have hsame := domid_eq_of_owns (ofRanges_forall₂ h) hdisj he₁ he₂ hown₁ (heq ▸ hown₂)
      exact absurd (hed₁ ▸ hed₂ ▸ hsame) hd
    · exact ⟨hm₂, (remapAddr_of_not_mapped hm₂).symm.trans heq.symm⟩
  · rw [remapAddr_of_not_mapped hm₂]
    exact ha.symm

/-- A guest range of two LDoms, mapped to different machine ranges. -/
def isolatedRanges : List GuestAddrRange × List AddrRange :=
  ([⟨⟨0x0, 0xFFF, 0, 0, 0⟩, 1⟩, ⟨⟨0x0, 0xFFF, 0, 0, 0⟩, 2⟩],
    [⟨0x10000, 0x10FFF, 0, 0, 0⟩, ⟨0x20000, 0x20FFF, 0, 0, 0⟩])

def isolatedTlb : LDomAddrTLB := [⟨1, 0x0, 0x1000, 0x10000⟩, ⟨2, 0x0, 0x1000, 0x20000⟩]

theorem isolatedRanges_tlb :
    LDomAddrTLB.ofRanges isolatedRanges.1 isolatedRanges.2 = .ok isolatedTlb := by
  decide

theorem isolatedRanges_disjoint : PairwiseDisjoint isolatedRanges.2 := by
  refine List.pairwise_pair.mpr ?_
  rintro a ⟨hfirst, hsecond⟩
  simp [AddrRange.contains] at hfirst hsecond
  bv_omega

theorem isolatedRanges_noWrap : NoWrap isolatedRanges.2 := by
  simp [NoWrap, isolatedRanges]

/-- Two LDoms use one guest address and do not meet; an access of LDom 2 that no entry covers
reaches LDom 1. -/
theorem remapAddr_isolation_isolatedRanges :
    isolatedTlb.remapAddr 1 0x20 ≠ isolatedTlb.remapAddr 2 0x20 ∧
      isolatedTlb.remapAddr 1 0x20 = isolatedTlb.remapAddr 2 0x10020 ∧
      isolatedTlb.remapAddr 2 0x10020 = 0x10020 := by
  have hcovered := remapAddr_isolation isolatedRanges_tlb isolatedRanges_disjoint
    isolatedRanges_noWrap 1 2 0x20 0x20 (by decide)
  have huncovered := remapAddr_isolation isolatedRanges_tlb isolatedRanges_disjoint
    isolatedRanges_noWrap 1 2 0x20 0x10020 (by decide)
  refine ⟨fun heq => ?_, (huncovered.1 (by decide)).mpr ⟨by decide, by decide⟩,
    huncovered.2.2 (by decide)⟩
  exact ((hcovered.1 (by decide)).mp heq).1 (by decide)

/-- An access that no entry covers passes through and so reaches a machine
address of another LDom. -/
theorem unmapped_access_reaches_other_ldom :
    ¬ ∀ (original : List GuestAddrRange) (remapped : List AddrRange) (tlb : LDomAddrTLB),
      LDomAddrTLB.ofRanges original remapped = .ok tlb → PairwiseDisjoint remapped →
      NoWrap remapped → ∀ (d₁ d₂ : LDomID) (a₁ a₂ : Addr), d₁ ≠ d₂ →
      tlb.Mapped d₁ a₁ ∨ tlb.Mapped d₂ a₂ → tlb.remapAddr d₁ a₁ ≠ tlb.remapAddr d₂ a₂ := by
  intro hall
  exact hall _ _ _ isolatedRanges_tlb isolatedRanges_disjoint isolatedRanges_noWrap 1 2 0x20
    0x10020 (by decide) (.inl (by decide)) (by decide)

/-! ## Maintenance -/

namespace LDomAddrTLB

def entriesOf (tlb : LDomAddrTLB) (d : LDomID) : List LDomAddrTLBEntry :=
  tlb.filter fun e => decide (e.domid = d)

/-- `query` lists the entries of `d`, and `remove` drops them and no others. -/
structure Maintained (tlb : LDomAddrTLB) (d : LDomID) : Prop where
  query : ∀ xent, query d xent tlb = xent ++ tlb.entriesOf d
  remove : remove d tlb = tlb.filter fun e => !decide (e.domid = d)
  others : ∀ d' a, d' ≠ d → (LDomAddrTLB.remove d tlb).remapAddr d' a = tlb.remapAddr d' a
  gone : ∀ xent, LDomAddrTLB.query d xent (LDomAddrTLB.remove d tlb) = xent

theorem query_eq (d : LDomID) (xent : List LDomAddrTLBEntry) (tlb : LDomAddrTLB) :
    query d xent tlb = xent ++ (tlb.entriesOf d).take 1 := by
  induction tlb with
  | nil => exact (List.append_nil xent).symm
  | cons e tlb ih =>
    by_cases he : e.domid = d
    · simp [query, entriesOf, he]
    · simpa [query, entriesOf, he] using ih

theorem remove_eq (d : LDomID) (tlb : LDomAddrTLB) :
    remove d tlb = tlb.filter fun e => !decide (e.domid = d) := by
  induction tlb with
  | nil => rfl
  | cons e tlb ih =>
    by_cases he : e.domid = d
    · simp [remove, he, ih]
    · simp [remove, he, ih]

/-- An entry of `d` never translates for another LDom. -/
theorem remapAddr_remove {d d' : LDomID} (hd : d' ≠ d) (tlb : LDomAddrTLB) (a : Addr) :
    (remove d tlb).remapAddr d' a = tlb.remapAddr d' a := by
  have hfind : (remove d tlb).find? (·.contains d' a) = tlb.find? (·.contains d' a) := by
    induction tlb with
    | nil => rfl
    | cons e tlb ih =>
      by_cases he : e.domid = d
      · have hother : e.contains d' a = false := by simp [LDomAddrTLBEntry.contains, he, hd.symm]
        simpa [remove, he, hother] using ih
      · simp only [remove, if_neg he, List.find?_cons, ih]
  unfold remapAddr
  rw [hfind]

theorem entriesOf_remove (d : LDomID) (tlb : LDomAddrTLB) : (remove d tlb).entriesOf d = [] := by
  rw [remove_eq]
  refine List.filter_eq_nil_iff.mpr fun e he => ?_
  simpa using (List.mem_filter.mp he).2

/-- The table is maintained for an LDom that has at most one entry, and for no other. -/
theorem maintained_iff (tlb : LDomAddrTLB) (d : LDomID) :
    tlb.Maintained d ↔ (tlb.entriesOf d).length ≤ 1 := by
  constructor
  · intro h
    have hquery := (query_eq d [] tlb).symm.trans (h.query [])
    have hlength := congrArg List.length hquery
    rw [List.nil_append, List.nil_append, List.length_take] at hlength
    rw [← hlength]
    exact Nat.min_le_left _ _
  · intro hone
    refine ⟨fun xent => ?_, remove_eq d tlb, fun d' a hd => remapAddr_remove hd tlb a,
      fun xent => ?_⟩
    · rw [query_eq, List.take_of_length_le hone]
    · rw [query_eq, entriesOf_remove, List.take_nil, List.append_nil]

/-- Of the two entries of LDom 1 only the first is listed. -/
theorem query_two_entries : query 1 [] [⟨1, 0, 0x1000, 0x10000⟩, ⟨1, 0x2000, 0x1000, 0x20000⟩] =
      [⟨1, 0, 0x1000, 0x10000⟩] ∧
    ¬ Maintained [⟨1, 0, 0x1000, 0x10000⟩, ⟨1, 0x2000, 0x1000, 0x20000⟩] 1 := by
  refine ⟨by decide, fun h => ?_⟩
  exact absurd (h.query []) (by decide)

end LDomAddrTLB

end PardG5V
