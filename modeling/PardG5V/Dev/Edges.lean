import Mathlib.Data.List.Nodup
import PardG5V.Dev.IoApic
import PardG5V.Lib.Aborts
import PardG5V.Lib.Machine

/-!
# Edges on the pins of the I/O APIC

An edge from low to high on a pin that the guest may use, and has not masked, should reach the
guest as one interrupt. The I/O APIC has one level per pin for all guests; the level that the
devices of one guest hold is that of the calls made for it.

Results: `edge_delivery_iff`, `edge_lost_behind_other_guest`.
-/

namespace PardG5V

open Prog

variable {p : IoApicParams}

/-! ## Calls and levels -/

/-- The register writes of the guests: to the I/O APIC, and to the logical
destination register of a local APIC. -/
inductive RegWrite
  | ioApic (pkt : Packet)
  | logicalDestination (context : Nat) (value : BitVec 32)
deriving DecidableEq, Repr

/-- `write` of the I/O APIC, and the part of `writeReg` of a local APIC that the
I/O APIC looks at. -/
def IoApic.regWrite : RegWrite → IoApicM p Unit
  | .ioApic pkt => discard (IoApic.write pkt)
  | .logicalDestination context value =>
    modify fun s => { s with
      contexts := s.contexts.modify context fun c => { c with logicalDestination := value } }

def IoApic.signals (s : IoApic p) (g : GuestID) (n : Nat) : Nat :=
  s.sent.countP fun i => i.guest == g && i.line == n

/-- Calls of the pins, for a guest or for all of them, register writes, and the assignment of a
context to a guest. -/
inductive PinInput
  | raise (guest : Option GuestID) (pin : Nat)
  | lower (guest : Option GuestID) (pin : Nat)
  | regs (w : RegWrite)
  | assign (context : Nat) (qr0 : BitVec 64)
deriving DecidableEq, Repr

def IoApic.pinCall : PinInput → IoApicM p Unit
  | .raise who pin => raiseInterruptPin who pin
  | .lower who pin => lowerInterruptPin who pin
  | .regs w => regWrite w
  | .assign context qr0 => modify fun s => { s with
      contexts := s.contexts.modify context fun c => { c with qr0 } }

/-- The I/O APIC, with the calls that were made so far. -/
abbrev pinMachine (p : IoApicParams) :
    Machine Abort (IoApic p × List (PinInput × Unit)) PinInput :=
  .recording (fun s => ∃ contexts, s = { contexts }) (fun _ _ => True) IoApic.pinCall

def concerns (who : Option GuestID) (guest : GuestID) : Bool := who.all (· == guest)

/-- The level to which the call drives the pin, if it is made for `mine`. -/
def PinInput.drives (mine : Option GuestID → Bool) (n : Nat) : PinInput → Option Bool
  | .raise who pin => if mine who ∧ pin = n then some true else none
  | .lower who pin => if mine who ∧ pin = n then some false else none
  | _ => none

/-- The level to which the calls for `mine` drove the pin last. -/
def level (mine : Option GuestID → Bool) (n : Nat) (past : List (PinInput × Unit)) : Bool :=
  (past.findSome? (·.1.drives mine n)).getD false

def ownLevel (g : GuestID) : Nat → List (PinInput × Unit) → Bool := level (concerns · g)

/-- The level to which the last call drove the pin, whoever made it. -/
def lastLevel : Nat → List (PinInput × Unit) → Bool := level fun _ => true

/-! ## The law and its condition -/

namespace IoApic

def Listens (s : IoApic p) (g : GuestID) (n : Nat) : Prop :=
  p.allows g n = true ∧ (s.redirTable g.toNat n).mask = false
deriving Decidable

/-- An interrupt of the guest on the line is sent when it is signalled. -/
def Delivers (s : IoApic p) (g : GuestID) (n : Nat) : Prop :=
  p.allows g n = true ∧ (s.redirTable g.toNat n).mask = false ∧
    (s.redirTable g.toNat n).deliveryMode ≠ extInt
deriving Decidable

/-- The pin and the guest of a call exist, and no guest that it concerns asks for the lowest
priority of a physical destination, at which the source panics. A register write is one that
returns. -/
def Admits (s : IoApic p) : PinInput → Prop
  | .raise who pin => pin < tableSize ∧ (∀ g ∈ who, g.toNat < p.maxGuests) ∧
      ∀ g, concerns who g = true → s.Delivers g pin →
        ¬ ((s.redirTable g.toNat pin).destMode = false ∧
          (s.redirTable g.toNat pin).deliveryMode = lowestPriority)
  | .lower _ pin => pin < tableSize
  | .regs w => ∃ s', regWrite w s = .ok ((), s')
  | .assign _ _ => True

/-- The input is an edge from low to high that the guest's own devices make on a
pin the guest listens to. -/
def Edge (s : IoApic p) (past : List (PinInput × Unit)) (input : PinInput) (g : GuestID)
    (n : Nat) : Prop :=
  match input with
  | .raise who pin =>
    concerns who g = true ∧ pin = n ∧ ownLevel g n past = false ∧ s.Listens g n
  | _ => False

/-- Each edge is signalled once, and nothing else is signalled. -/
def EdgeExact (s : IoApic p) (past : List (PinInput × Unit)) (input : PinInput) (s' : IoApic p) :
    Prop :=
  ∀ g n, (s.Edge past input g n → s'.signals g n = s.signals g n + 1) ∧
    (¬ s.Edge past input g n → s'.signals g n = s.signals g n)

/-- A pin is raised for a guest that listens to it only when the last call on it left it at the
guest's own level; in the mode `ExtInt`, which is not delivered, that level is high already. -/
def LevelsAgree (s : IoApic p) (past : List (PinInput × Unit)) (input : PinInput) : Prop :=
  match input with
  | .raise who pin => ∀ g, concerns who g = true → s.Listens g pin →
      if (s.redirTable g.toNat pin).deliveryMode = extInt then ownLevel g pin past = true
      else lastLevel pin past = ownLevel g pin past
  | _ => True

end IoApic

/-! ## What the calls do -/

namespace IoApic

variable {who : Option GuestID} {pkt pkt' : Packet}

structure SameTables (s s' : IoApic p) : Prop where
  regSel : s'.regSel = s.regSel
  redirTable : s'.redirTable = s.redirTable
  pinStates : s'.pinStates = s.pinStates
  contexts : s'.contexts = s.contexts

theorem SameTables.trans {s₁ s₂ s₃ : IoApic p} (h₁ : SameTables s₁ s₂) (h₂ : SameTables s₂ s₃) :
    SameTables s₁ s₃ where
  regSel := h₂.regSel.trans h₁.regSel
  redirTable := h₂.redirTable.trans h₁.redirTable
  pinStates := h₂.pinStates.trans h₁.pinStates
  contexts := h₂.contexts.trans h₁.contexts

variable {s s' : IoApic p} {g : GuestID} {n : Nat}

theorem SameTables.delivers_iff (h : SameTables s s') : s'.Delivers g n ↔ s.Delivers g n := by
  rw [Delivers, Delivers, h.redirTable]

theorem selectApics_frame {message : TriggerIntMessage}
    {apics : List (BitVec 8)} (h : selectApics g message s = .ok (apics, s')) :
    SameTables s s' ∧ s'.sent = s.sent := by
  simp only [selectApics, rotate, bind_eq_ok, get_eq_ok, ite_eq_ok, pure_eq_ok, throw_ne_ok,
    modify_eq_ok, and_false, false_or] at h
  obtain ⟨_, _, ⟨rfl, rfl⟩, h⟩ := h
  rcases h with ⟨_, _, h⟩ | ⟨_, h⟩
  · rcases h with ⟨_, _, rfl⟩ | ⟨_, _, rfl⟩
    · exact ⟨⟨rfl, rfl, rfl, rfl⟩, rfl⟩
    · exact ⟨⟨rfl, rfl, rfl, rfl⟩, rfl⟩
  · rcases h with ⟨_, _, _, ⟨rfl, rfl⟩, _, _, rfl, _, rfl⟩ | ⟨_, _, rfl⟩
    · exact ⟨⟨rfl, rfl, rfl, rfl⟩, rfl⟩
    · exact ⟨⟨rfl, rfl, rfl, rfl⟩, rfl⟩

/-- What `signalInterrupt` does, by whether the interrupt is sent. -/
theorem signalInterrupt_inv (h : signalInterrupt g n s = .ok ((), s')) :
    (¬ s.Delivers g n ∧ s' = s) ∨
      s.Delivers g n ∧ ∃ apics s₁,
        selectApics g (s.redirTable g.toNat n).message s = .ok (apics, s₁) ∧
        s' = { s₁ with
          sent := ⟨g, n, apics, (s.redirTable g.toNat n).message⟩ :: s₁.sent } := by
  simp only [signalInterrupt, bind_eq_ok, lift_eq_ok, get_eq_ok, ite_eq_ok, pure_eq_ok,
    modify_eq_ok] at h
  obtain ⟨_, _, ⟨_, rfl⟩, _, _, ⟨_, rfl⟩, _, _, ⟨rfl, rfl⟩, h⟩ := h
  rcases h with ⟨hno, _, rfl⟩ | ⟨hyes, apics, s₁, hsel, rfl⟩
  · refine .inl ⟨?_, rfl⟩
    rintro ⟨hallow, hmask, hmode⟩
    simp [hallow, hmask, hmode] at hno
  · refine .inr ⟨?_, apics, s₁, hsel, rfl⟩
    simpa [Delivers, and_assoc] using hyes

theorem avoids_assert {bad : Abort → Prop} {c : Bool} (h : c = true) : Avoids bad (assert c) := by
  rw [h]
  exact .ok

theorem signalInterrupt_avoids (hg : g.toNat < p.maxGuests) (hn : n < tableSize)
    (h : s.Delivers g n → ¬ ((s.redirTable g.toNat n).destMode = false ∧
      (s.redirTable g.toNat n).deliveryMode = lowestPriority)) :
    Avoids (fun _ => True) (signalInterrupt g n s) := by
  refine .lift_bind (avoids_assert (decide_eq_true hg)) fun _ _ =>
    .lift_bind (avoids_assert (decide_eq_true hn)) fun _ _ =>
      .get_bind (.run_ite (fun _ => .ok) fun hyes => .run_bind ?_ fun _ _ _ => .ok)
  have hno := h (by simpa [Delivers, and_assoc] using hyes)
  exact .get_bind (.run_ite
    (fun hmode => .run_ite (fun hlow => absurd ⟨hmode, hlow⟩ hno) fun _ =>
      .run_ite (fun _ => .ok) fun _ => .ok)
    fun _ => .run_ite (fun _ => .get_bind (.modify_bind .ok)) fun _ => .ok)

/-- One signalled interrupt adds one entry to the log if it is sent, and none
otherwise. -/
theorem signalInterrupt_spec (h : signalInterrupt g n s = .ok ((), s')) :
    SameTables s s' ∧ ∀ g' n', s'.signals g' n' = s.signals g' n' +
      if g = g' ∧ n = n' ∧ s.Delivers g' n' then 1 else 0 := by
  rcases signalInterrupt_inv h with ⟨hno, rfl⟩ | ⟨hyes, apics, s₁, hsel, rfl⟩
  · refine ⟨⟨rfl, rfl, rfl, rfl⟩, fun g' n' => ?_⟩
    rw [if_neg]
    · rfl
    · rintro ⟨rfl, rfl, hyes⟩
      exact hno hyes
  · obtain ⟨hsame, hsent⟩ := selectApics_frame hsel
    refine ⟨{ hsame with }, fun g' n' => ?_⟩
    rw [signals, List.countP_cons, hsent]
    congr 1
    apply if_congr _ rfl rfl
    simp only [Bool.and_eq_true, beq_iff_eq]
    constructor
    · rintro ⟨rfl, rfl⟩
      exact ⟨rfl, rfl, hyes⟩
    · rintro ⟨rfl, rfl, _⟩
      exact ⟨rfl, rfl⟩

theorem when_signal_same (h : Prog.when (p.allows g n) (signalInterrupt g n) s = .ok ((), s')) :
    SameTables s s' := by
  rcases when_eq_ok.mp h with ⟨_, hsignal⟩ | ⟨_, rfl⟩
  · exact (signalInterrupt_spec hsignal).1
  · exact ⟨rfl, rfl, rfl, rfl⟩

theorem signalGuests_spec {gs : List GuestID} (hnodup : gs.Nodup)
    (h : Prog.forEach (fun g => Prog.when (p.allows g n) (signalInterrupt g n)) gs s
      = .ok ((), s')) :
    SameTables s s' ∧ ∀ g' n', s'.signals g' n' = s.signals g' n' +
      if g' ∈ gs ∧ n = n' ∧ s.Delivers g' n' then 1 else 0 := by
  induction gs generalizing s with
  | nil =>
    obtain rfl : s = s' := by simpa using h
    exact ⟨⟨rfl, rfl, rfl, rfl⟩, by simp⟩
  | cons g gs ih =>
    obtain ⟨hg, hrest⟩ := List.nodup_cons.mp hnodup
    rw [forEach_cons_eq_ok] at h
    obtain ⟨s₁, hfirst, hloop⟩ := h
    obtain ⟨hsame₁, hcount₁⟩ : SameTables s s₁ ∧ ∀ g' n',
        s₁.signals g' n' =
          s.signals g' n' + if g = g' ∧ n = n' ∧ s.Delivers g' n' then 1 else 0 := by
      rw [when_eq_ok] at hfirst
      rcases hfirst with ⟨_, hsignal⟩ | ⟨hno, rfl⟩
      · exact signalInterrupt_spec hsignal
      · refine ⟨⟨rfl, rfl, rfl, rfl⟩, fun g' n' => ?_⟩
        rw [if_neg]
        · rfl
        · rintro ⟨rfl, rfl, hyes⟩
          rw [hyes.1] at hno
          cases hno
    obtain ⟨hsame₂, hcount₂⟩ := ih hrest hloop
    refine ⟨hsame₁.trans hsame₂, fun g' n' => ?_⟩
    simp only [hcount₂, hcount₁, hsame₁.delivers_iff, Nat.add_assoc]
    congr 1
    by_cases hyes : n = n' ∧ s.Delivers g' n'
    · rcases eq_or_ne g g' with rfl | hne
      · simp [hyes, hg]
      · simp [hyes, hne, hne.symm]
    · simp [hyes]

theorem nodup_guests (p : IoApicParams) : (guests p).Nodup := by
  apply List.Nodup.map_on _ List.nodup_range
  intro i hi j hj heq
  have hmax := p.maxGuests_lt
  have hi : i < p.maxGuests := List.mem_range.mp hi
  have hj : j < p.maxGuests := List.mem_range.mp hj
  have hmod : i % 2 ^ 16 = j % 2 ^ 16 := by simpa using congrArg BitVec.toNat heq
  omega

theorem lt_of_allows (h : p.allows g n = true) : g.toNat < p.maxGuests := by
  have hlt : g.toNat < p.pinMask.length := by
    by_contra hge
    have hnone : p.pinMask[g.toNat]? = none := List.getElem?_eq_none (Nat.le_of_not_lt hge)
    rw [IoApicParams.allows, hnone] at h
    simp at h
  exact Nat.lt_of_lt_of_le hlt p.pinMask_le

theorem mem_guests_of_allows (h : p.allows g n = true) : g ∈ guests p :=
  List.mem_map.mpr ⟨g.toNat, List.mem_range.mpr (lt_of_allows h), by simp⟩

/-- A raised pin signals the guests it is raised for, if the shared level was low. -/
theorem raiseInterruptPin_spec
    (h : raiseInterruptPin who n s = .ok ((), s')) (g' : GuestID) (n' : Nat) :
    s'.signals g' n' = s.signals g' n' +
      if concerns who g' = true ∧ n = n' ∧ s.pinStates n' = false ∧ s.Delivers g' n'
        then 1 else 0 := by
  simp only [raiseInterruptPin, bind_eq_ok, lift_eq_ok, get_eq_ok, modify_eq_ok, when_eq_ok] at h
  obtain ⟨_, _, ⟨_, rfl⟩, _, _, ⟨rfl, rfl⟩, _, s₁, hsignal, rfl⟩ := h
  show s₁.signals g' n' = _
  rcases hsignal with ⟨hlow, hsignal⟩ | ⟨hhigh, rfl⟩
  · have hlow : s.pinStates n = false := by simpa using hlow
    cases who with
    | some g =>
      rw [(signalInterrupt_spec hsignal).2]
      congr 1
      apply if_congr _ rfl rfl
      constructor
      · rintro ⟨rfl, rfl, hyes⟩
        exact ⟨by simp [concerns], rfl, hlow, hyes⟩
      · rintro ⟨hg, rfl, _, hyes⟩
        exact ⟨by simpa [concerns] using hg, rfl, hyes⟩
    | none =>
      rw [(signalGuests_spec (nodup_guests p) hsignal).2]
      congr 1
      apply if_congr _ rfl rfl
      constructor
      · rintro ⟨_, rfl, hyes⟩
        exact ⟨rfl, rfl, hlow, hyes⟩
      · rintro ⟨_, rfl, _, hyes⟩
        exact ⟨mem_guests_of_allows hyes.1, rfl, hyes⟩
  · have hhigh : s.pinStates n = true := by simpa using hhigh
    rw [if_neg]
    · rfl
    · rintro ⟨_, rfl, hlow, _⟩
      rw [hhigh] at hlow
      cases hlow

theorem raiseInterruptPin_pinStates (h : raiseInterruptPin who n s = .ok ((), s')) :
    s'.pinStates = Function.update s.pinStates n true := by
  simp only [raiseInterruptPin, bind_eq_ok, lift_eq_ok, get_eq_ok, modify_eq_ok, when_eq_ok] at h
  obtain ⟨_, _, ⟨_, rfl⟩, _, _, ⟨rfl, rfl⟩, _, s₁, hsignal, rfl⟩ := h
  show Function.update s₁.pinStates n true = _
  rcases hsignal with ⟨_, hsignal⟩ | ⟨_, rfl⟩
  · cases who with
    | some g => rw [(signalInterrupt_spec hsignal).1.pinStates]
    | none => rw [(signalGuests_spec (nodup_guests p) hsignal).1.pinStates]
  · rfl

theorem raiseInterruptPin_returns (h : s.Admits (.raise who n)) :
    ∃ s', raiseInterruptPin who n s = .ok ((), s') := by
  obtain ⟨hn, hwho, h⟩ := h
  have havoids : Avoids (fun _ => True) (raiseInterruptPin who n s) := by
    refine .lift_bind (avoids_assert (decide_eq_true hn)) fun _ _ => .get_bind (.run_bind
      (.whenever fun _ => ?_) fun _ _ _ => .ok)
    cases who with
    | some g => exact signalInterrupt_avoids (hwho g rfl) hn (h g (by simp [concerns]))
    | none =>
      refine .forEach (I := SameTables s) (fun g s₁ hsame => .whenever fun hallow => ?_)
        (fun g s₁ s₂ hsame hround => hsame.trans (when_signal_same hround)) _ ⟨rfl, rfl, rfl, rfl⟩
      refine signalInterrupt_avoids (lt_of_allows hallow) hn fun hyes => ?_
      rw [hsame.redirTable]
      exact h g rfl (hsame.delivers_iff.mp hyes)
  obtain ⟨r, hok⟩ := havoids.returns
  exact ⟨r.2, hok⟩

theorem lowerInterruptPin_eq_ok (who : Option GuestID) : lowerInterruptPin who n s = .ok ((), s') ↔
    n < tableSize ∧ s' = { s with pinStates := Function.update s.pinStates n false } := by
  simp only [lowerInterruptPin, bind_eq_ok, lift_eq_ok, modify_eq_ok, assert_eq_ok,
    decide_eq_true_eq, exists_unit]
  constructor
  · rintro ⟨_, ⟨hn, rfl⟩, rfl⟩
    exact ⟨hn, rfl⟩
  · rintro ⟨hn, rfl⟩
    exact ⟨s, ⟨hn, rfl⟩, rfl⟩

/-- A row of the redirection table after a register write. -/
def rowAfter (offset : BitVec 8) (value : BitVec 32) (row : Nat → RedirTableEntry) :
    Nat → RedirTableEntry :=
  let index := (offset.toNat - 0x10) / 2
  if 0x10 ≤ offset.toNat ∧ offset.toNat ≤ 0x10 + tableSize * 2 then
    Function.update row index
      (if offset.toNat % 2 = 1 then (row index).setTopDW value else (row index).setBottomDW value)
  else row

variable {offset : BitVec 8} {value : BitVec 32}

/-- Every offset of the table but the last one that passes the check has an entry. -/
theorem index_lt_tableSize (hedge : offset ≠ 0x40) (hin : offset.toNat ≤ 0x10 + tableSize * 2) :
    (offset.toNat - 0x10) / 2 < tableSize := by
  have hne : offset.toNat ≠ 0x40 := fun h => hedge (BitVec.eq_of_toNat_eq h)
  have htable : tableSize = 24 := rfl
  omega

/-- A register write by the register: the id, the arbitration id, or the table of the guest,
which other offsets than those of its entries leave as it is. -/
theorem writeReg_eq_ok : writeReg g offset value s = .ok ((), s') ↔
    (offset = 0x0 ∧ s' = { s with id := value.extractLsb' 24 8 }) ∨
    (offset = 0x2 ∧ s' = { s with arbId := value.extractLsb' 24 8 }) ∨
    (offset ≠ 0x0 ∧ offset ≠ 0x2 ∧ offset ≠ 0x40 ∧
      s' = { s with
        redirTable := Function.update s.redirTable g.toNat
          (rowAfter offset value (s.redirTable g.toNat)) }) := by
  have hbehind (hindex : (offset.toNat - 0x10) / 2 < tableSize) : offset ≠ 0x40 := by
    rintro rfl
    exact absurd hindex (by decide)
  have hrow (hout : ¬ (0x10 ≤ offset.toNat ∧ offset.toNat ≤ 0x10 + tableSize * 2)) :
      { s with
        redirTable := Function.update s.redirTable g.toNat
          (rowAfter offset value (s.redirTable g.toNat)) } = s := by
    rw [rowAfter, if_neg hout, Function.update_eq_self]
  simp only [writeReg, ite_eq_ok, modify_eq_ok, pure_eq_ok, throw_ne_ok, and_false, or_false]
  constructor
  · rintro (⟨rfl, rfl⟩ | ⟨hid, ⟨rfl, -, rfl⟩ | ⟨hver, ⟨rfl, rfl⟩ | ⟨harb, ⟨hin, hlt, rfl⟩ |
      ⟨hout, -, rfl⟩⟩⟩⟩)
    · exact .inl ⟨rfl, rfl⟩
    · refine .inr (.inr ⟨hid, by decide, by decide, ?_⟩)
      rw [hrow (by decide)]
    · exact .inr (.inl ⟨rfl, rfl⟩)
    · refine .inr (.inr ⟨hid, harb, hbehind hlt, ?_⟩)
      rw [rowAfter, if_pos hin]
    · refine .inr (.inr ⟨hid, harb, ?_, ?_⟩)
      · rintro rfl
        exact hout (by decide)
      · rw [hrow hout]
  · rintro (⟨rfl, rfl⟩ | ⟨rfl, rfl⟩ | ⟨hid, harb, hedge, rfl⟩)
    · exact .inl ⟨rfl, rfl⟩
    · exact .inr ⟨by decide, .inr ⟨by decide, .inl ⟨rfl, rfl⟩⟩⟩
    · refine .inr ⟨hid, ?_⟩
      by_cases hver : offset = 0x1
      · refine .inl ⟨hver, trivial, (hrow ?_).symm⟩
        rw [hver]
        decide
      · refine .inr ⟨hver, .inr ⟨harb, ?_⟩⟩
        by_cases hin : 0x10 ≤ offset.toNat ∧ offset.toNat ≤ 0x10 + tableSize * 2
        · refine .inl ⟨hin, index_lt_tableSize hedge hin.2, ?_⟩
          rw [rowAfter, if_pos hin]
        · exact .inr ⟨hin, trivial, (hrow hin).symm⟩

theorem writeReg_spec (h : writeReg g offset value s = .ok ((), s')) :
    s'.regSel = s.regSel ∧ s'.contexts = s.contexts ∧ s'.sent = s.sent ∧
      s'.pinStates = s.pinStates ∧ s'.redirTable = Function.update s.redirTable g.toNat
        (rowAfter offset value (s.redirTable g.toNat)) := by
  rcases writeReg_eq_ok.mp h with ⟨rfl, rfl⟩ | ⟨rfl, rfl⟩ | ⟨-, -, -, rfl⟩
  · exact ⟨rfl, rfl, rfl, rfl, (Function.update_eq_self _ _).symm⟩
  · exact ⟨rfl, rfl, rfl, rfl, (Function.update_eq_self _ _).symm⟩
  · exact ⟨rfl, rfl, rfl, rfl, rfl⟩

theorem write_eq_ok : write pkt s = .ok (pkt', s') ↔
    pkt.size = 4 ∧ pkt.guestID.toNat < p.maxGuests ∧ pkt.makeResponse = .ok pkt' ∧
      ∃ value, packetWord pkt = .ok value ∧
        if pkt.addr - p.pioAddr = 0 then
          s' = { s with regSel := Function.update s.regSel pkt.guestID.toNat (value.setWidth 8) }
        else pkt.addr - p.pioAddr = 16 ∧
          writeReg pkt.guestID (s.regSel pkt.guestID.toNat) value s = .ok ((), s') := by
  simp only [write, checkGuest, bind_eq_ok, lift_eq_ok, ite_eq_ok, pure_eq_ok, throw_ne_ok,
    modify_eq_ok, get_eq_ok, assert_eq_ok, beq_iff_eq, and_false, or_false, false_and,
    exists_false]
  constructor
  · rintro ⟨_, _, ⟨hsize, rfl⟩, _, _, ⟨hguest, -, rfl⟩, value, _, ⟨hvalue, rfl⟩, h⟩
    rcases h with ⟨haddr, _, _, rfl, hreply, rfl⟩ |
      ⟨haddr, hwin, _, _, ⟨rfl, rfl⟩, _, _, hreg, hreply, rfl⟩
    · exact ⟨hsize, hguest, hreply, value, hvalue, (if_pos haddr).mpr rfl⟩
    · exact ⟨hsize, hguest, hreply, value, hvalue, (if_neg haddr).mpr ⟨hwin, hreg⟩⟩
  · rintro ⟨hsize, hguest, hreply, value, hvalue, h⟩
    refine ⟨(), s, ⟨hsize, rfl⟩, (), s, ⟨hguest, trivial, rfl⟩, value, s, ⟨hvalue, rfl⟩, ?_⟩
    by_cases haddr : pkt.addr - p.pioAddr = 0
    · rw [if_pos haddr] at h
      exact .inl ⟨haddr, (), s', h.symm, hreply, rfl⟩
    · rw [if_neg haddr] at h
      exact .inr ⟨haddr, h.1, s, s, ⟨rfl, rfl⟩, (), s', h.2, hreply, rfl⟩

/-- A write to the I/O APIC selects a register, or writes the selected one. -/
theorem write_inv (h : write pkt s = .ok (pkt', s')) : ∃ value, packetWord pkt = .ok value ∧
      ((pkt.addr - p.pioAddr = 0 ∧ s' = { s with
          regSel := Function.update s.regSel pkt.guestID.toNat (value.setWidth 8) }) ∨
        (pkt.addr - p.pioAddr ≠ 0 ∧
          writeReg pkt.guestID (s.regSel pkt.guestID.toNat) value s = .ok ((), s'))) := by
  obtain ⟨-, -, -, value, hvalue, h⟩ := write_eq_ok.mp h
  refine ⟨value, hvalue, ?_⟩
  split at h
  · next haddr => exact .inl ⟨haddr, h⟩
  · next haddr => exact .inr ⟨haddr, h.2⟩

theorem regWrite_frame {w : RegWrite} (h : regWrite w s = .ok ((), s')) :
    s'.sent = s.sent ∧ s'.pinStates = s.pinStates := by
  cases w with
  | ioApic pkt =>
    obtain ⟨pkt', h⟩ := discard_eq_ok.mp h
    obtain ⟨value, _, ⟨_, rfl⟩ | ⟨_, hreg⟩⟩ := write_inv h
    · exact ⟨rfl, rfl⟩
    · exact ⟨(writeReg_spec hreg).2.2.1, (writeReg_spec hreg).2.2.2.1⟩
  | logicalDestination context value =>
    obtain rfl := modify_eq_ok.mp h
    exact ⟨rfl, rfl⟩

end IoApic

/-! ## Every run -/

namespace IoApic

variable {past : List (PinInput × Unit)} {input : PinInput} {pin : Nat} {s s' : IoApic p}
  {who : Option GuestID} {g : GuestID}

theorem lastLevel_cons (n : Nat) : lastLevel n ((input, ()) :: past) =
    (input.drives (fun _ => true) n).getD (lastLevel n past) := by
  unfold lastLevel level
  rw [List.findSome?_cons]
  cases input.drives (fun _ => true) n with
  | none | some b => rfl

theorem pinStates_of_reachable {r : IoApic p × List (PinInput × Unit)}
    (h : (pinMachine p).Reachable r) (n : Nat) : r.1.pinStates n = lastLevel n r.2 := by
  refine h.recorded (I := fun s past => s.pinStates n = lastLevel n past) ?_
    fun s past input _ s' hs _ _ hcall => ?_
  · rintro _ ⟨contexts, rfl⟩
    rfl
  · rw [lastLevel_cons, ← hs]
    cases input with
    | raise who pin =>
      rw [raiseInterruptPin_pinStates hcall]
      rcases eq_or_ne pin n with rfl | hne
      · simp [PinInput.drives]
      · simp [PinInput.drives, hne, hne.symm]
    | lower who pin =>
      obtain ⟨-, rfl⟩ := (lowerInterruptPin_eq_ok who).mp hcall
      rcases eq_or_ne pin n with rfl | hne
      · simp [PinInput.drives]
      · simp [PinInput.drives, hne, hne.symm]
    | regs w => rw [(regWrite_frame hcall).2]; rfl
    | assign context qr0 =>
      obtain rfl := modify_eq_ok.mp hcall
      rfl

theorem edgeExact_of_sent (hno : ∀ g n, ¬ s.Edge past input g n) (hsent : s'.sent = s.sent) :
    s.EdgeExact past input s' := by
  intro g n
  have hsame : s'.signals g n = s.signals g n := by rw [signals, signals, hsent]
  exact ⟨fun hedge => absurd hedge (hno g n), fun _ => hsame⟩

/-- For one guest and the raised pin, the number of interrupts is right exactly when the shared
level is the guest's own. -/
theorem raise_exact_iff (hcall : raiseInterruptPin who pin s = .ok ((), s'))
    (hg : concerns who g = true) (hlistens : s.Listens g pin) :
    ((s.Edge past (.raise who pin) g pin → s'.signals g pin = s.signals g pin + 1) ∧
      (¬ s.Edge past (.raise who pin) g pin → s'.signals g pin = s.signals g pin)) ↔
    if (s.redirTable g.toNat pin).deliveryMode = extInt then ownLevel g pin past = true
      else s.pinStates pin = ownLevel g pin past := by
  have hedge : s.Edge past (.raise who pin) g pin ↔ ownLevel g pin past = false := by
    simp [Edge, hg, hlistens]
  have hdelivers : s.Delivers g pin ↔ (s.redirTable g.toNat pin).deliveryMode ≠ extInt := by
    simp [Delivers, hlistens.1, hlistens.2]
  rw [raiseInterruptPin_spec hcall, hedge]
  by_cases hext : (s.redirTable g.toNat pin).deliveryMode = extInt
  · simp [hdelivers, hext]
  · cases hown : ownLevel g pin past with
    | false | true => simp [hdelivers, hext, hg]

theorem raise_exact_of_not_listens {n : Nat} (hcall : raiseInterruptPin who pin s = .ok ((), s'))
    (hnot : ¬ (concerns who g = true ∧ pin = n ∧ s.Listens g n)) :
    ¬ s.Edge past (.raise who pin) g n ∧ s'.signals g n = s.signals g n := by
  refine ⟨fun hedge => hnot ⟨hedge.1, hedge.2.1, hedge.2.2.2⟩, ?_⟩
  rw [raiseInterruptPin_spec hcall, if_neg]
  · rfl
  · rintro ⟨hg, hpin, _, hyes⟩
    exact hnot ⟨hg, hpin, hyes.1, hyes.2.1⟩

/-- A raise signals exactly its edges if and only if the levels agree. -/
theorem raise_iff (hlevel : s.pinStates pin = lastLevel pin past)
    (hcall : raiseInterruptPin who pin s = .ok ((), s')) :
    s.EdgeExact past (.raise who pin) s' ↔ s.LevelsAgree past (.raise who pin) := by
  constructor
  · intro hexact g hg hlistens
    rw [← hlevel]
    exact (raise_exact_iff hcall hg hlistens).mp (hexact g pin)
  · intro hagree g n
    by_cases hhere : concerns who g = true ∧ pin = n ∧ s.Listens g n
    · obtain ⟨hg, rfl, hlistens⟩ := hhere
      have hagree := hagree g hg hlistens
      rw [← hlevel] at hagree
      exact (raise_exact_iff hcall hg hlistens).mpr hagree
    · obtain ⟨hno, hsame⟩ := raise_exact_of_not_listens hcall hhere
      exact ⟨fun hedge => absurd hedge hno, fun _ => hsame⟩

end IoApic

/-- After every run, a call that the I/O APIC admits returns. It signals each edge that a guest's
devices make on a pin it listens to once, and nothing else, exactly when the last call on the pin
left it at the level of the guests for which it is raised. -/
theorem edge_delivery_iff {s : IoApic p} {past : List (PinInput × Unit)}
    (h : (pinMachine p).Reachable (s, past)) {input : PinInput} (hadmits : s.Admits input) :
    ∃ s', IoApic.pinCall input s = .ok ((), s') ∧
      (s.EdgeExact past input s' ↔ s.LevelsAgree past input) := by
  cases input with
  | raise who pin =>
    obtain ⟨s', hcall⟩ := IoApic.raiseInterruptPin_returns hadmits
    exact ⟨s', hcall, IoApic.raise_iff (IoApic.pinStates_of_reachable h pin) hcall⟩
  | lower who pin =>
    refine ⟨_, (IoApic.lowerInterruptPin_eq_ok who).mpr ⟨hadmits, rfl⟩, iff_of_true ?_ trivial⟩
    exact IoApic.edgeExact_of_sent (fun _ _ => id) rfl
  | regs w =>
    obtain ⟨s', hcall⟩ := hadmits
    refine ⟨s', hcall, iff_of_true ?_ trivial⟩
    exact IoApic.edgeExact_of_sent (fun _ _ => id) (IoApic.regWrite_frame hcall).1
  | assign context qr0 =>
    exact ⟨_, rfl, iff_of_true (IoApic.edgeExact_of_sent (fun _ _ => id) rfl) trivial⟩

/-! ## Two guests on one pin -/

def IoApicParams.twoGuests : IoApicParams where
  pioAddr := 0
  apicId := 8
  maxGuests := 2
  pinMask := [0xFFFFFF, 0xFFFFFF]
  apicId_lt := by decide
  maxGuests_lt := by decide
  pinMask_le := by decide

def RegWrite.word (guest : GuestID) (addr : Addr) (value : Nat) : RegWrite :=
  .ioApic { Packet.ofRequest (Request.phys addr 4 0) .WriteReq with
    qosTag := guest.setWidth 64, data := some (Bytes.littleEndian 4 value) }

def RegWrite.entry (guest : GuestID) (line top bottom : Nat) : List RegWrite :=
  [.word guest 0 (0x11 + 2 * line), .word guest 16 top,
    .word guest 0 (0x10 + 2 * line), .word guest 16 bottom]

/-- Both guests unmask line 4, with fixed delivery. -/
def bothListen : List PinInput :=
  (RegWrite.entry 0 4 0 0x830 ++ RegWrite.entry 1 4 0 0x830).map .regs

theorem pinMachine_startup (p : IoApicParams) : (pinMachine p).Reachable ({ contexts := [] }, []) :=
  .startup ⟨⟨[], rfl⟩, rfl⟩

/-- Guest 0 has lowered pin 4 again when guest 1 raises it. -/
theorem edge_delivery_iff_inTurn : ∃ (s s' : IoApic .twoGuests) (past : List (PinInput × Unit)),
    s.Edge past (.raise (some 1) 4) 1 4 ∧ s.signals 0 4 = 1 ∧
      IoApic.pinCall (.raise (some 1) 4) s = .ok ((), s') ∧
      s.EdgeExact past (.raise (some 1) 4) s' := by
  obtain ⟨⟨s, past⟩, hreach, hlast, hown, hlistens, hmode, hsignals⟩ :=
    (pinMachine_startup .twoGuests).exists_of_replay
      (p := fun r => lastLevel 4 r.2 = false ∧ ownLevel 1 4 r.2 = false ∧ r.1.Listens 1 4 ∧
        (r.1.redirTable 1 4).deliveryMode = 0 ∧ r.1.signals 0 4 = 1)
      (bothListen ++ [.raise (some 0) 4, .lower (some 0) 4]) (by decide)
  have hmode : (s.redirTable (1 : GuestID).toNat 4).deliveryMode = 0 := hmode
  have honly (g : GuestID) (hg : concerns (some 1) g = true) : 1 = g := by
    simpa [concerns] using hg
  have hadmits : s.Admits (.raise (some 1) 4) := by
    refine ⟨by decide, by rintro _ ⟨⟩; decide, fun g hg _ hlow => ?_⟩
    rw [← honly g hg, hmode] at hlow
    exact absurd hlow.2 (by decide)
  obtain ⟨s', hcall, hiff⟩ := edge_delivery_iff hreach hadmits
  have hexact : s.EdgeExact past (.raise (some 1) 4) s' := hiff.mpr fun g hg _ => by
    rw [← honly g hg, hmode, if_neg (by decide)]
    exact hlast.trans hown.symm
  exact ⟨s, s', past, ⟨rfl, rfl, hown, hlistens⟩, hsignals, hcall, hexact⟩

/-- While guest 0 holds pin 4 high, the edge of guest 1 on the same pin is lost. -/
theorem edge_lost_behind_other_guest : ∃ (s s' : IoApic .twoGuests) (past : List (PinInput × Unit)),
    (pinMachine .twoGuests).Reachable (s, past) ∧ s.Edge past (.raise (some 1) 4) 1 4 ∧
      IoApic.pinCall (.raise (some 1) 4) s = .ok ((), s') ∧ s'.signals 1 4 = s.signals 1 4 := by
  obtain ⟨⟨s, past⟩, hreach, hown, hlistens, hlost⟩ :=
    (pinMachine_startup .twoGuests).exists_of_replay
      (p := fun r => ownLevel 1 4 r.2 = false ∧ r.1.Listens 1 4 ∧
        ((IoApic.pinCall (.raise (some 1) 4) r.1).toOption.map fun a => a.2.signals 1 4) =
          some (r.1.signals 1 4))
      (bothListen ++ [.raise (some 0) 4]) (by decide)
  cases hcall : IoApic.pinCall (.raise (some 1) 4) s with
  | error e =>
    rw [hcall] at hlost
    cases hlost
  | ok a =>
    rw [hcall] at hlost
    exact ⟨s, a.2, past, hreach, ⟨rfl, rfl, hown, hlistens⟩, hcall, Option.some.inj hlost⟩

end PardG5V
