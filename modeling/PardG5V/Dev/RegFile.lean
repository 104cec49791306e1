import PardG5V.Dev.Edges
import PardG5V.Lib.Aborts

/-!
# The registers of the guests

A guest reaches the registers of the I/O APIC through a select register of its own and a window.
Selects and redirection tables exist once per guest, the id and the arbitration id once for all,
and the check of the selected offset lets one pass that lies behind the table.

Results: `register_file_isolated`, `register_file_shared`.
-/

namespace PardG5V

open Prog

variable {p : IoApicParams}

/-! ## Accesses -/

inductive RegAccess
  | read (pkt : Packet)
  | write (pkt : Packet)
deriving DecidableEq, Repr

namespace RegAccess

def pkt : RegAccess → Packet
  | .read pkt => pkt
  | .write pkt => pkt

def guest (a : RegAccess) : GuestID := a.pkt.guestID

/-- The access goes to the selected register, and not to the select register. -/
def OnWindow (p : IoApicParams) (a : RegAccess) : Prop := a.pkt.addr - p.pioAddr = 16
deriving Decidable

def IsWrite : RegAccess → Prop
  | .read _ => False
  | .write _ => True

instance (a : RegAccess) : Decidable a.IsWrite := by
  cases a <;> unfold IsWrite <;> infer_instance

end RegAccess

/-- The bits of a half of a redirection entry that can be written. -/
def halfMask (offset : BitVec 8) : BitVec 32 :=
  if offset.toNat % 2 = 1 then 0xFFFF0000 else 0x0001FFFF

namespace IoApic

def access : RegAccess → IoApicM p Packet
  | .read pkt => read pkt
  | .write pkt => write pkt

def selected (s : IoApic p) (a : RegAccess) : BitVec 8 := s.regSel a.guest.toNat

/-- The guest exists, it does not write one of the two shared registers, and it does not
select the offset behind the table. -/
@[mk_iff] structure Confined (s : IoApic p) (a : RegAccess) : Prop where
  guest : a.guest.toNat < p.maxGuests
  shared : a.IsWrite → a.OnWindow p → s.selected a ≠ 0x0 ∧ s.selected a ≠ 0x2
  edge : a.OnWindow p → s.selected a ≠ 0x40

instance (s : IoApic p) (a : RegAccess) : Decidable (s.Confined a) :=
  decidable_of_iff _ (confined_iff s a).symm

/-- The access writes the half of the guest's redirection entry at the offset. -/
def Rewrites (s : IoApic p) (g : GuestID) (offset : BitVec 8) (a : RegAccess) : Prop :=
  a.IsWrite ∧ a.OnWindow p ∧ a.guest = g ∧ s.selected a = offset

structure Within (g : GuestID) (s s' : IoApic p) : Prop where
  same : ∃ sel row, s' = { s with
    regSel := Function.update s.regSel g.toNat sel
    redirTable := Function.update s.redirTable g.toNat row }
  table : ∀ i, tableSize ≤ i → s'.redirTable g.toNat i = s.redirTable g.toNat i

end IoApic

/-- The I/O APIC under register accesses, from the state `s` on, with the responses. -/
abbrev accessMachine (s : IoApic p) :
    Machine Abort (IoApic p × List (RegAccess × Packet)) RegAccess :=
  .recording (· = s) (fun _ _ => True) IoApic.access

/-- A run of accesses with their responses, the latest first. Every access meets `C`. -/
def AccessRun (C : IoApic p → RegAccess → Prop) (s : IoApic p) (log : List (RegAccess × Packet))
    (s' : IoApic p) : Prop :=
  (accessMachine s).ReachableBy (fun r a => C r.1 a) (s', log)

/-! ## What an access does -/

namespace IoApic

variable {g : GuestID} {offset : BitVec 8} {value : BitVec 32} {s s' s₁ s₂ : IoApic p}
  {a : RegAccess} {pkt reply : Packet} {s₁' : IoApic p}

/-- The value of a register, as `readReg` finds it. -/
def regValue (s : IoApic p) (g : GuestID) (offset : BitVec 8) : Except Abort (BitVec 32) :=
  (readReg g offset s).map Prod.fst

theorem readReg_eq_ok : readReg g offset s = .ok (value, s') ↔
    s.regValue g offset = .ok value ∧ s' = s := by
  unfold regValue
  have hstate (x : BitVec 32) (s'' : IoApic p) (h : readReg g offset s = .ok (x, s'')) :
      s'' = s := by
    simp only [readReg, bind_eq_ok, get_eq_ok, ite_eq_ok, pure_eq_ok, throw_ne_ok, and_false,
      or_false] at h
    obtain ⟨_, _, ⟨rfl, rfl⟩, h⟩ := h
    rcases h with ⟨_, _, rfl⟩ | ⟨_, ⟨_, _, rfl⟩ | ⟨_, ⟨_, _, rfl⟩ | ⟨_, ⟨_, _, _, rfl⟩ |
      ⟨_, _, rfl⟩⟩⟩⟩ <;> rfl
  constructor
  · intro h
    exact ⟨by rw [h]; rfl, hstate _ _ h⟩
  · rintro ⟨h, rfl⟩
    cases hread : readReg g offset s' with
    | error e => rw [hread] at h; cases h
    | ok r =>
      obtain ⟨x, s''⟩ := r
      rw [hread] at h
      cases h
      rw [hstate _ _ hread]

/-- A read returns the select register, or the selected register. -/
theorem read_eq_ok : read pkt s = .ok (reply, s') ↔
    s' = s ∧ pkt.size = 4 ∧ pkt.guestID.toNat < p.maxGuests ∧
      ∃ value pkt', (if pkt.addr - p.pioAddr = 0 then
          value = (s.regSel pkt.guestID.toNat).setWidth 32
        else pkt.addr - p.pioAddr = 16 ∧
          s.regValue pkt.guestID (s.regSel pkt.guestID.toNat) = .ok value) ∧
        pkt.setData (Bytes.littleEndian 4 value.toNat) = .ok pkt' ∧
        pkt'.makeResponse = .ok reply := by
  simp only [read, checkGuest, bind_eq_ok, lift_eq_ok, ite_eq_ok, pure_eq_ok, throw_ne_ok,
    get_eq_ok, readReg_eq_ok, assert_eq_ok, beq_iff_eq, and_false, or_false, false_and,
    exists_false]
  constructor
  · rintro ⟨_, _, ⟨hsize, rfl⟩, _, _, ⟨hguest, -, rfl⟩, _, _, ⟨rfl, rfl⟩, h⟩
    rcases h with ⟨haddr, value, _, ⟨hvalue, rfl⟩, pkt', _, ⟨hset, rfl⟩, hreply, rfl⟩ |
      ⟨haddr, hwin, value, _, ⟨hvalue, rfl⟩, pkt', _, ⟨hset, rfl⟩, hreply, rfl⟩
    · exact ⟨rfl, hsize, hguest, value, pkt', (if_pos haddr).mpr hvalue.symm, hset, hreply⟩
    · exact ⟨rfl, hsize, hguest, value, pkt', (if_neg haddr).mpr ⟨hwin, hvalue⟩, hset, hreply⟩
  · rintro ⟨rfl, hsize, hguest, value, pkt', hvalue, hset, hreply⟩
    refine ⟨(), s', ⟨hsize, rfl⟩, (), s', ⟨hguest, trivial, rfl⟩, s', s', ⟨rfl, rfl⟩, ?_⟩
    by_cases haddr : pkt.addr - p.pioAddr = 0
    · rw [if_pos haddr] at hvalue
      exact .inl ⟨haddr, value, s', ⟨hvalue.symm, rfl⟩, pkt', s', ⟨hset, rfl⟩, hreply, rfl⟩
    · rw [if_neg haddr] at hvalue
      exact .inr ⟨haddr, hvalue.1, value, s', ⟨hvalue.2, rfl⟩, pkt', s', ⟨hset, rfl⟩, hreply, rfl⟩

structure SameRegs (g : GuestID) (s₁ s₂ : IoApic p) : Prop where
  id : s₁.id = s₂.id
  arbId : s₁.arbId = s₂.arbId
  regSel : s₁.regSel g.toNat = s₂.regSel g.toNat
  redirTable : s₁.redirTable g.toNat = s₂.redirTable g.toNat

theorem SameRegs.refl (g : GuestID) (s : IoApic p) : SameRegs g s s := ⟨rfl, rfl, rfl, rfl⟩

theorem SameRegs.trans {s₃ : IoApic p} (h₁ : SameRegs g s₁ s₂) (h₂ : SameRegs g s₂ s₃) :
    SameRegs g s₁ s₃ :=
  ⟨h₁.id.trans h₂.id, h₁.arbId.trans h₂.arbId, h₁.regSel.trans h₂.regSel,
    h₁.redirTable.trans h₂.redirTable⟩

theorem SameRegs.symm (h : SameRegs g s₁ s₂) : SameRegs g s₂ s₁ :=
  ⟨h.id.symm, h.arbId.symm, h.regSel.symm, h.redirTable.symm⟩

theorem SameRegs.regValue (h : SameRegs g s₁ s₂) (offset : BitVec 8) :
    s₁.regValue g offset = s₂.regValue g offset := by
  show Except.map Prod.fst ((ite _ _ _ : IoApicM p _) s₁) =
    Except.map Prod.fst ((ite _ _ _ : IoApicM p _) s₂)
  rw [h.id, h.arbId, h.redirTable]
  split
  · rfl
  split
  · rfl
  split
  · rfl
  split
  · dsimp only
    split
    · rfl
    · rfl
  · rfl

/-- What a guest writes does not depend on registers that it cannot read. -/
theorem writeReg_same (hsame : SameRegs g s₁ s₂) (h : writeReg g offset value s₁ = .ok ((), s₁')) :
    ∃ s₂', writeReg g offset value s₂ = .ok ((), s₂') ∧ SameRegs g s₁' s₂' := by
  rcases writeReg_eq_ok.mp h with ⟨hid, rfl⟩ | ⟨harb, rfl⟩ | ⟨hid, harb, hedge, rfl⟩
  · exact ⟨_, writeReg_eq_ok.mpr (.inl ⟨hid, rfl⟩), { hsame with id := rfl }⟩
  · exact ⟨_, writeReg_eq_ok.mpr (.inr (.inl ⟨harb, rfl⟩)), { hsame with arbId := rfl }⟩
  · refine ⟨_, writeReg_eq_ok.mpr (.inr (.inr ⟨hid, harb, hedge, rfl⟩)),
      { hsame with redirTable := ?_ }⟩
    dsimp only
    rw [Function.update_self, Function.update_self, hsame.redirTable]

/-- An access of the guest has the same response, and the same effect on the registers that
it can read. -/
theorem access_own (hsame : SameRegs a.guest s₁ s₂) (h : s₁.access a = .ok (reply, s₁')) :
    ∃ s₂', s₂.access a = .ok (reply, s₂') ∧ SameRegs a.guest s₁' s₂' := by
  cases a with
  | read pkt =>
    obtain ⟨rfl, hsize, hguest, value, pkt', hvalue, hset, hreply⟩ := read_eq_ok.mp h
    refine ⟨s₂, read_eq_ok.mpr ⟨rfl, hsize, hguest, value, pkt', ?_, hset, hreply⟩, hsame⟩
    have hsel : s₁'.regSel pkt.guestID.toNat = s₂.regSel pkt.guestID.toNat := hsame.regSel
    have hread := hsame.regValue (s₂.regSel pkt.guestID.toNat)
    rw [RegAccess.guest, RegAccess.pkt] at hread
    rwa [hsel, hread] at hvalue
  | write pkt =>
    obtain ⟨hsize, hguest, hreply, value, hvalue, h⟩ := write_eq_ok.mp h
    have hsel : s₁.regSel pkt.guestID.toNat = s₂.regSel pkt.guestID.toNat := hsame.regSel
    have hwrite {s₂' : IoApic p} (h₂ : if pkt.addr - p.pioAddr = 0 then _ else _) :
        write pkt s₂ = .ok (reply, s₂') :=
      write_eq_ok.mpr ⟨hsize, hguest, hreply, value, hvalue, h₂⟩
    by_cases haddr : pkt.addr - p.pioAddr = 0
    · rw [if_pos haddr] at h
      subst h
      refine ⟨_, hwrite ((if_pos haddr).mpr rfl), hsame.id, hsame.arbId, ?_, hsame.redirTable⟩
      rw [RegAccess.guest, RegAccess.pkt]
      dsimp only
      rw [Function.update_self, Function.update_self]
    · rw [if_neg haddr, hsel] at h
      obtain ⟨s₂', hreg, hsame'⟩ := writeReg_same hsame h.2
      exact ⟨s₂', hwrite ((if_neg haddr).mpr ⟨h.1, hreg⟩), hsame'⟩

theorem rowAfter_behind {row : Nat → RedirTableEntry} {i : Nat} (hedge : offset ≠ 0x40)
    (hi : tableSize ≤ i) : rowAfter offset value row i = row i := by
  unfold rowAfter
  split
  · next hin =>
      refine Function.update_of_ne (Nat.ne_of_gt ?_) _ _
      exact Nat.lt_of_lt_of_le (index_lt_tableSize hedge hin.2) hi
  · rfl

/-- A confined access stays within the select register and the table of its guest. -/
theorem access_within (hC : s.Confined a) (h : s.access a = .ok (reply, s')) :
    Within a.guest s s' := by
  cases a with
  | read pkt =>
    obtain ⟨rfl, -⟩ := read_eq_ok.mp h
    refine ⟨⟨s'.regSel pkt.guestID.toNat, s'.redirTable pkt.guestID.toNat, ?_⟩, fun _ _ => rfl⟩
    rw [RegAccess.guest, RegAccess.pkt, Function.update_eq_self, Function.update_eq_self]
  | write pkt =>
    obtain ⟨-, -, -, value, -, h⟩ := write_eq_ok.mp h
    by_cases haddr : pkt.addr - p.pioAddr = 0
    · rw [if_pos haddr] at h
      subst h
      refine ⟨⟨value.setWidth 8, s.redirTable pkt.guestID.toNat, ?_⟩, fun _ _ => rfl⟩
      rw [RegAccess.guest, RegAccess.pkt, Function.update_eq_self]
    · rw [if_neg haddr] at h
      obtain ⟨hid, harb⟩ := hC.shared trivial h.1
      have hreg := (writeReg_eq_ok.mp h.2).resolve_left fun h => hid h.1
      obtain ⟨-, -, hedge, rfl⟩ := hreg.resolve_left fun h => harb h.1
      refine ⟨⟨s.regSel pkt.guestID.toNat, rowAfter (s.regSel pkt.guestID.toNat) value
        (s.redirTable pkt.guestID.toNat), ?_⟩, fun i hi => ?_⟩
      · rw [RegAccess.guest, RegAccess.pkt, Function.update_eq_self]
      · rw [RegAccess.guest, RegAccess.pkt]
        dsimp only
        rw [Function.update_self]
        exact rowAfter_behind hedge hi

theorem Within.other (h : Within g s s') {g' : GuestID} (hne : g ≠ g') : SameRegs g' s s' := by
  obtain ⟨sel, row, rfl⟩ := h.same
  have hne : g'.toNat ≠ g.toNat := fun heq => hne (BitVec.eq_of_toNat_eq heq.symm)
  exact ⟨rfl, rfl, (Function.update_of_ne hne _ _).symm, (Function.update_of_ne hne _ _).symm⟩

/-- A confined access leaves the registers of other guests alone. -/
theorem access_other (hC : s.Confined a) (h : s.access a = .ok (reply, s'))
    (hne : a.guest ≠ g) : SameRegs g s s' :=
  (access_within hC h).other hne

/-- Whether an access is confined depends on the select register of its guest only. -/
theorem SameRegs.confined (hsame : SameRegs a.guest s₁ s₂) (hC : s₁.Confined a) :
    s₂.Confined a := by
  have hsel : s₂.selected a = s₁.selected a := hsame.regSel.symm
  exact ⟨hC.guest, hsel ▸ hC.shared, hsel ▸ hC.edge⟩

/-! ## Accesses outside the tables -/

theorem assert_avoids_bounds {c : Bool} : Avoids (· = .outOfBounds) (assert c) := by
  cases c with
  | true => exact .ok
  | false => exact .error nofun

theorem getPtr_avoids_bounds : Avoids (· = .outOfBounds) pkt.getPtr := by
  unfold Packet.getPtr
  split
  · exact .ok
  · exact .error nofun

theorem setData_avoids_bounds {bytes : List Byte} : Avoids (· = .outOfBounds) (pkt.setData bytes) :=
  getPtr_avoids_bounds.bind fun _ _ => .ok

theorem packetWord_avoids_bounds : Avoids (· = .outOfBounds) (packetWord pkt) :=
  getPtr_avoids_bounds.bind fun _ _ => .ok

theorem makeResponse_avoids_bounds : Avoids (· = .outOfBounds) pkt.makeResponse :=
  assert_avoids_bounds.bind fun _ _ => assert_avoids_bounds.bind fun _ _ => .ok

theorem checkGuest_avoids_bounds (h : g.toNat < p.maxGuests) :
    Avoids (· = .outOfBounds) ((checkGuest g : IoApicM p Unit) s) :=
  .run_ite (fun _ => .ok) fun hge => absurd h hge

theorem readReg_avoids_bounds (hedge : offset ≠ 0x40) :
    Avoids (· = .outOfBounds) (readReg g offset s) := by
  refine .get_bind (.run_ite (fun _ => .ok) fun _ => .run_ite (fun _ => .ok) fun _ => ?_)
  refine .run_ite (fun _ => .ok) fun _ => .run_ite (fun hin => ?_) fun _ => .ok
  refine .run_ite (fun _ => .ok) fun hge => absurd ?_ hge
  exact index_lt_tableSize hedge hin.2

theorem writeReg_avoids_bounds (hedge : offset ≠ 0x40) :
    Avoids (· = .outOfBounds) (writeReg g offset value s) := by
  refine .run_ite (fun _ => .ok) fun _ => .run_ite (fun _ => .ok) fun _ => ?_
  refine .run_ite (fun _ => .ok) fun _ => .run_ite (fun hin => ?_) fun _ => .ok
  refine .run_ite (fun _ => .ok) fun hge => absurd ?_ hge
  exact index_lt_tableSize hedge hin.2

/-- A confined access touches no memory outside the tables. -/
theorem access_avoids_bounds (hC : s.Confined a) : Avoids (· = .outOfBounds) (s.access a) := by
  have hguest {s₁ : IoApic p} (h : checkGuest a.guest s = .ok ((), s₁)) : s₁ = s := by
    simp only [checkGuest, ite_eq_ok, pure_eq_ok, throw_ne_ok, and_false, or_false] at h
    exact h.2.2.symm
  cases a with
  | read pkt =>
    have hreply (value : BitVec 32) : Safe (· = .outOfBounds) (do
        let pkt ← pkt.setData (Bytes.littleEndian 4 value.toNat)
        pkt.makeResponse : IoApicM p Packet) :=
      .bind (.lift setData_avoids_bounds) fun _ => .lift makeResponse_avoids_bounds
    refine .lift_bind assert_avoids_bounds fun _ _ => ?_
    refine .run_bind (checkGuest_avoids_bounds hC.guest) fun _ s₁ hs₁ => .get_bind ?_
    obtain rfl := hguest hs₁
    refine .run_ite (fun _ => hreply _ _) fun _ => .run_ite (fun hwin => ?_) fun _ => ?_
    · exact .run_bind (readReg_avoids_bounds (hC.edge hwin)) fun value s₂ _ => hreply value s₂
    · exact .run_bind (.error (by rintro ⟨⟩)) fun value s₂ _ => hreply value s₂
  | write pkt =>
    refine .lift_bind assert_avoids_bounds fun _ _ => ?_
    refine .run_bind (checkGuest_avoids_bounds hC.guest) fun _ s₁ hs₁ => ?_
    obtain rfl := hguest hs₁
    have hreply : Safe (· = .outOfBounds) (liftM pkt.makeResponse : IoApicM p Packet) :=
      .lift makeResponse_avoids_bounds
    refine .lift_bind packetWord_avoids_bounds fun value _ => ?_
    refine .run_ite (fun _ => hreply _) fun _ => .run_ite (fun hwin => .get_bind ?_) fun _ => ?_
    · exact .run_bind (writeReg_avoids_bounds (hC.edge hwin)) fun _ s₂ _ => hreply s₂
    · exact .run_bind (.error (by rintro ⟨⟩)) fun _ s₂ _ => hreply s₂

end IoApic

/-! ## Runs -/

namespace AccessRun

variable {s s' : IoApic p} {log : List (RegAccess × Packet)} {g : GuestID}

theorem nil (C : IoApic p → RegAccess → Prop) (s : IoApic p) : AccessRun C s [] s :=
  .startup ⟨rfl, rfl⟩

theorem purge (h : AccessRun IoApic.Confined s log s') :
    ∃ s₁, AccessRun IoApic.Confined s (log.filter fun e => e.1.guest == g) s₁ ∧
      IoApic.SameRegs g s' s₁ := by
  refine h.recorded (I := fun s' log => ∃ s₁,
    AccessRun IoApic.Confined s (log.filter fun e => e.1.guest == g) s₁ ∧ IoApic.SameRegs g s' s₁)
    ?_ fun s' log a reply s'' ih hen hC haccess => ?_
  · rintro _ rfl
    exact ⟨_, nil _ _, .refl g _⟩
  · obtain ⟨s₁, hrun, hsame⟩ := ih
    by_cases hguest : a.guest = g
    · -- an access of the guest itself
      rw [List.filter_cons_of_pos (by simpa using hguest)]
      subst hguest
      obtain ⟨s₂, haccess₂, hsame₂⟩ := IoApic.access_own hsame haccess
      exact ⟨s₂, hrun.record trivial (hsame.confined hC) haccess₂, hsame₂⟩
    · rw [List.filter_cons_of_neg (by simpa using hguest)]
      exact ⟨s₁, hrun, (IoApic.access_other hC haccess hguest).symm.trans hsame⟩

end AccessRun

/-! ## Halves of redirection entries -/

namespace RedirTableEntry

variable (e : RedirTableEntry) (value : BitVec 32)

theorem topDW_setTopDW : (e.setTopDW value).topDW = value &&& 0xFFFF0000 := by
  exact BitVec.extractLsb'_append_eq_left

theorem bottomDW_setTopDW : (e.setTopDW value).bottomDW = e.bottomDW := by
  unfold setTopDW
  generalize e.bottomDW = low
  exact BitVec.extractLsb'_append_eq_right

theorem topDW_setBottomDW : (e.setBottomDW value).topDW = e.topDW := by
  unfold setBottomDW
  generalize e.topDW = high
  exact BitVec.extractLsb'_append_eq_left

theorem bottomDW_setBottomDW : (e.setBottomDW value).bottomDW = value &&& 0x0001FFFF := by
  exact BitVec.extractLsb'_append_eq_right

end RedirTableEntry

/-- The offset is one of a half of a redirection entry. -/
def OfEntry (offset : BitVec 8) : Prop := 0x10 ≤ offset.toNat ∧ offset.toNat < 0x40
deriving Decidable

namespace IoApic

variable {g : GuestID} {offset offset' : BitVec 8} {value : BitVec 32} {s s' : IoApic p}
  {a : RegAccess} {pkt reply : Packet} {row : Nat → RedirTableEntry}

def half (row : Nat → RedirTableEntry) (offset : BitVec 8) : BitVec 32 :=
  let entry := row ((offset.toNat - 0x10) / 2)
  if offset.toNat % 2 = 1 then entry.topDW else entry.bottomDW

theorem half_rowAfter_self (hin : OfEntry offset) :
    half (rowAfter offset value row) offset = value &&& halfMask offset := by
  have hrange : 0x10 ≤ offset.toNat ∧ offset.toNat ≤ 0x10 + tableSize * 2 :=
    ⟨hin.1, Nat.le_of_lt hin.2⟩
  unfold half rowAfter halfMask
  rw [if_pos hrange]
  rw [Function.update_self]
  split
  · exact RedirTableEntry.topDW_setTopDW _ _
  · exact RedirTableEntry.bottomDW_setBottomDW _ _

theorem half_rowAfter_other (hin : OfEntry offset') (hne : offset ≠ offset') :
    half (rowAfter offset value row) offset' = half row offset' := by
  unfold rowAfter
  split
  · next hrange =>
      unfold half
      by_cases hindex : (offset'.toNat - 0x10) / 2 = (offset.toNat - 0x10) / 2
      · -- the other half of the same entry
        rw [hindex, Function.update_self]
        have hdiff : offset.toNat ≠ offset'.toNat := fun h => hne (BitVec.eq_of_toNat_eq h)
        have hlow : 0x10 ≤ offset'.toNat := hin.1
        by_cases hodd : offset.toNat % 2 = 1
        · have heven : ¬ offset'.toNat % 2 = 1 := by omega
          rw [if_pos hodd, if_neg heven, if_neg heven]
          exact RedirTableEntry.bottomDW_setTopDW _ _
        · have hodd' : offset'.toNat % 2 = 1 := by omega
          rw [if_neg hodd, if_pos hodd', if_pos hodd']
          exact RedirTableEntry.topDW_setBottomDW _ _
      · rw [Function.update_of_ne hindex]
  · rfl

theorem regValue_entry (hin : OfEntry offset) :
    s.regValue g offset = .ok (half (s.redirTable g.toNat) offset) := by
  have hrange : 0x10 ≤ offset.toNat ∧ offset.toNat ≤ 0x10 + tableSize * 2 :=
    ⟨hin.1, Nat.le_of_lt hin.2⟩
  have hne (k : BitVec 8) (hk : k.toNat < 0x10) : offset ≠ k := by
    rintro rfl
    exact absurd hin.1 (Nat.not_le_of_lt hk)
  have hedge : offset ≠ 0x40 := by
    rintro rfl
    exact absurd hin.2 (by decide)
  show Except.map Prod.fst ((ite _ _ _ : IoApicM p _) s) = _
  rw [if_neg (hne 0 (by decide)), if_neg (hne 1 (by decide)), if_neg (hne 2 (by decide)),
    if_pos hrange]
  rw [if_pos (index_lt_tableSize hedge hrange.2)]
  rfl

theorem access_half (hin : OfEntry offset) (hkeep : ¬ s.Rewrites g offset a)
    (h : s.access a = .ok (reply, s')) :
    half (s'.redirTable g.toNat) offset = half (s.redirTable g.toNat) offset := by
  cases a with
  | read pkt =>
    obtain ⟨rfl, -⟩ := read_eq_ok.mp h
    rfl
  | write pkt =>
    obtain ⟨-, -, -, value, -, h⟩ := write_eq_ok.mp h
    by_cases haddr : pkt.addr - p.pioAddr = 0
    · rw [if_pos haddr] at h
      subst h
      rfl
    · rw [if_neg haddr] at h
      rcases writeReg_eq_ok.mp h.2 with ⟨-, rfl⟩ | ⟨-, rfl⟩ | ⟨-, -, -, rfl⟩
      · rfl
      · rfl
      · by_cases hguest : pkt.guestID = g
        · subst hguest
          dsimp only
          rw [Function.update_self]
          exact half_rowAfter_other hin fun hsel => hkeep ⟨trivial, h.1, rfl, hsel⟩
        · have hne : g.toNat ≠ pkt.guestID.toNat :=
            fun heq => hguest (BitVec.eq_of_toNat_eq heq.symm)
          dsimp only
          rw [Function.update_of_ne hne]

theorem write_half (hin : OfEntry (s.regSel pkt.guestID.toNat))
    (hwin : pkt.addr - p.pioAddr = 16) (h : write pkt s = .ok (reply, s')) :
    ∃ value, packetWord pkt = .ok value ∧
      half (s'.redirTable pkt.guestID.toNat) (s.regSel pkt.guestID.toNat) =
        value &&& halfMask (s.regSel pkt.guestID.toNat) := by
  obtain ⟨-, -, -, value, hvalue, h⟩ := write_eq_ok.mp h
  have haddr : ¬ pkt.addr - p.pioAddr = 0 := by rw [hwin]; decide
  rw [if_neg haddr] at h
  refine ⟨value, hvalue, ?_⟩
  rcases writeReg_eq_ok.mp h.2 with ⟨hid, -⟩ | ⟨harb, -⟩ | ⟨-, -, -, rfl⟩
  · exact absurd hin (by rw [hid]; decide)
  · exact absurd hin (by rw [harb]; decide)
  · dsimp only
    rw [Function.update_self]
    exact half_rowAfter_self hin

theorem read_half (hin : OfEntry (s.regSel pkt.guestID.toNat))
    (hwin : pkt.addr - p.pioAddr = 16) (h : read pkt s = .ok (reply, s')) :
    packetWord reply =
      .ok (half (s.redirTable pkt.guestID.toNat) (s.regSel pkt.guestID.toNat)) := by
  obtain ⟨-, hsize, -, value, pkt', hvalue, hset, hreply⟩ := read_eq_ok.mp h
  have haddr : ¬ pkt.addr - p.pioAddr = 0 := by rw [hwin]; decide
  rw [if_neg haddr, regValue_entry hin] at hvalue
  obtain ⟨-, hvalue⟩ := hvalue
  cases hvalue
  generalize half (s.redirTable pkt.guestID.toNat) (s.regSel pkt.guestID.toNat) = value at hset
  obtain ⟨old, hdata⟩ : ∃ old, pkt'.data =
      some (writeBytes old 0 ((Bytes.littleEndian 4 value.toNat).take pkt.size)) := by
    simp only [Packet.setData, except_bind_eq_ok] at hset
    obtain ⟨old, -, hset⟩ := hset
    cases hset
    exact ⟨old, rfl⟩
  have hbytes : reply.data = pkt'.data := by
    simp only [Packet.makeResponse, except_bind_eq_ok] at hreply
    obtain ⟨_, -, _, -, hreply⟩ := hreply
    cases hreply
    rfl
  have htake : (Bytes.littleEndian 4 value.toNat).take 4 = Bytes.littleEndian 4 value.toNat :=
    List.take_of_length_le (Nat.le_of_eq (Bytes.length_littleEndian _ _))
  unfold packetWord Packet.getPtr
  rw [hbytes, hdata, hsize, htake]
  show Except.ok (BitVec.ofNat 32 (Bytes.value ((writeBytes _ _ _).take 4))) = _
  unfold writeBytes
  rw [List.take_zero, List.nil_append, List.take_append_of_le_length
    (Nat.le_of_eq (Bytes.length_littleEndian _ _).symm), htake, Bytes.value_littleEndian]
  refine congrArg Except.ok ?_
  rw [Nat.mod_eq_of_lt (show value.toNat < 256 ^ 4 from value.isLt), BitVec.ofNat_toNat,
    BitVec.setWidth_eq]

end IoApic

/-! ## Isolation -/

theorem AccessRun.half_kept {s s' : IoApic p} {log : List (RegAccess × Packet)} {g : GuestID}
    {offset : BitVec 8} (hin : OfEntry offset)
    (h : AccessRun (fun s a => ¬ s.Rewrites g offset a) s log s') :
    IoApic.half (s'.redirTable g.toNat) offset = IoApic.half (s.redirTable g.toNat) offset := by
  let Kept (s' : IoApic p) := IoApic.half (s'.redirTable g.toNat) offset =
    IoApic.half (s.redirTable g.toNat) offset
  have hkept := h.recorded (I := fun s' _ => Kept s') (by rintro _ rfl; rfl)
    fun s' log a reply s'' ih hen hkeep haccess =>
      (IoApic.access_half hin hkeep haccess).trans ih
  exact hkept

/-- What a guest writes to a half of a redirection entry it reads back, without the reserved
bits, until it writes that half again. -/
def IoApic.ReadsBack (s : IoApic p) : Prop :=
  ∀ (w r reply reply' : Packet) (s₁ s₂ s₃ : IoApic p) (log : List (RegAccess × Packet)),
    w.addr - p.pioAddr = 16 → OfEntry (s.regSel w.guestID.toNat) →
    s.access (.write w) = .ok (reply, s₁) →
    AccessRun (fun s' a => ¬ s'.Rewrites w.guestID (s.regSel w.guestID.toNat) a) s₁ log s₂ →
    r.addr - p.pioAddr = 16 → r.guestID = w.guestID →
    s₂.regSel w.guestID.toNat = s.regSel w.guestID.toNat →
    s₂.access (.read r) = .ok (reply', s₃) →
    ∃ value, packetWord w = .ok value ∧
      packetWord reply' = .ok (value &&& halfMask (s.regSel w.guestID.toNat))

theorem IoApic.readsBack (s : IoApic p) : s.ReadsBack := by
  intro w r reply reply' s₁ s₂ s₃ log hwin hin hwrite hrun hwin' hguest hsel hread
  obtain ⟨value, hvalue, hhalf⟩ := write_half hin hwin hwrite
  refine ⟨value, hvalue, ?_⟩
  have hin' : OfEntry (s₂.regSel r.guestID.toNat) := by rwa [hguest, hsel]
  rw [read_half hin' hwin' hread, hguest, hsel, hrun.half_kept hin, hhalf]

/-- In every run of confined accesses each guest gets the responses that it would get alone and
reads its redirection entries back, and an access touches no memory outside the tables and changes
only the select register and the table of its guest. -/
theorem register_file_isolated {s s' : IoApic p} {log : List (RegAccess × Packet)}
    (h : AccessRun IoApic.Confined s log s') :
    (∀ g, ∃ s₁, AccessRun IoApic.Confined s (log.filter fun e => e.1.guest == g) s₁) ∧
    s'.ReadsBack ∧
    ∀ a, s'.Confined a → s'.access a ≠ .error .outOfBounds ∧
      ∀ reply s₁, s'.access a = .ok (reply, s₁) → IoApic.Within a.guest s' s₁ := by
  refine ⟨fun g => ?_, s'.readsBack, fun a ha => ⟨?_, ?_⟩⟩
  · obtain ⟨s₁, hrun, -⟩ := h.purge (g := g)
    exact ⟨s₁, hrun⟩
  · exact fun herror => IoApic.access_avoids_bounds ha _ herror rfl
  · exact fun reply s₁ haccess => IoApic.access_within ha haccess

/-! ## Runs of two guests -/

namespace RegAccess

def word (guest : GuestID) (addr : Addr) (value : Nat) : RegAccess :=
  .write { Packet.ofRequest (Request.phys addr 4 0) .WriteReq with
    qosTag := guest.setWidth 64, data := some (Bytes.littleEndian 4 value) }

def fetch (guest : GuestID) (addr : Addr) : RegAccess :=
  .read { Packet.ofRequest (Request.phys addr 4 0) .ReadReq with
    qosTag := guest.setWidth 64, data := some (Bytes.littleEndian 4 0) }

end RegAccess

def readWords (g : GuestID) (log : List (RegAccess × Packet)) : List (Except Abort (BitVec 32)) :=
  (log.reverse.filter fun e => e.1.guest == g && !decide e.1.IsWrite).map fun e =>
    IoApic.packetWord e.2

/-- Both guests write and read an entry of their tables at the same offset. -/
theorem register_file_isolated_entries :
    ∃ (s s' : IoApic .twoGuests) (log : List (RegAccess × Packet)),
      AccessRun IoApic.Confined s log s' ∧ readWords 0 log = [.ok 0x12345, .ok 0x12345] ∧
      ∃ s₁, AccessRun IoApic.Confined s (log.filter fun e => e.1.guest == 0) s₁ := by
  obtain ⟨⟨s', log⟩, h, hread⟩ :=
    (AccessRun.nil IoApic.Confined { contexts := [] }).exists_of_replay
    (p := fun r : IoApic .twoGuests × _ => readWords 0 r.2 = [.ok 0x12345, .ok 0x12345])
    [.word 0 0 0x10, .word 0 16 0x12345, .fetch 0 16, .word 1 0 0x10, .word 1 16 0xFFFFFFFF,
      .fetch 1 16, .fetch 0 16] (by decide +kernel)
  exact ⟨_, s', log, h, hread, (register_file_isolated h).1 0⟩

/-- Guest 1 writes the id, and guest 0 reads another id than before. A guest that selects the
offset behind its table reads and writes there. -/
theorem register_file_shared : (∃ (s s' : IoApic .twoGuests) (log : List (RegAccess × Packet)),
      AccessRun (fun _ _ => True) s log s' ∧
      readWords 0 log = [.ok 0x08000000, .ok 0x05000000] ∧
      ∀ e ∈ log, e.1.IsWrite → e.1.OnWindow .twoGuests → e.1.guest = 1) ∧
    ∃ (s : IoApic .twoGuests) (reply : Packet),
      ({ contexts := [] } : IoApic .twoGuests).access (.word 0 0 0x40) = .ok (reply, s) ∧
      s.access (.fetch 0 16) = .error .outOfBounds ∧
      s.access (.word 0 16 0) = .error .outOfBounds := by
  constructor
  · obtain ⟨⟨s', log⟩, h, hread⟩ :=
      (AccessRun.nil (fun _ _ => True) { contexts := [] }).exists_of_replay
      (p := fun r : IoApic .twoGuests × _ =>
        readWords 0 r.2 = [.ok 0x08000000, .ok 0x05000000] ∧
        ∀ e ∈ r.2, e.1.IsWrite → e.1.OnWindow .twoGuests → e.1.guest = 1)
      [.fetch 0 16, .word 1 16 0x05000000, .fetch 0 16] (by decide +kernel)
    exact ⟨_, s', log, h, hread⟩
  · exact ⟨_, _, rfl, rfl, rfl⟩

end PardG5V
