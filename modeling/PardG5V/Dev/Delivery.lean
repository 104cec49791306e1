import PardG5V.Dev.Edges

/-!
# Where the I/O APIC delivers a guest's interrupts

An interrupt of a guest should reach only the local APICs of the guest's own contexts, and which
of them should not depend on what other guests do. The second half is about two runs that share
what the guest itself does, and may differ in everything the other guests do.

Results: `delivery_isolated`, `delivery_leaks`.
-/

namespace PardG5V

open Prog

variable {p : IoApicParams}

/-! ## Two runs -/

/-- What happens at the I/O APIC: an interrupt is signalled, or a guest writes a
register. -/
inductive GuestInput
  | signal (guest : GuestID) (line : Nat)
  | regs (w : RegWrite)
deriving DecidableEq, Repr

namespace IoApic

def act : GuestInput → IoApicM p Unit
  | .signal guest line => signalInterrupt guest line
  | .regs w => regWrite w

def Owns (s : IoApic p) (g : GuestID) : GuestInput → Prop
  | .signal guest _ => guest = g
  | .regs (.ioApic pkt) => pkt.guestID = g
  | .regs (.logicalDestination context _) =>
    (s.contexts[context]?).any (fun c => c.guest == g.setWidth 64) = true

instance (s : IoApic p) (g : GuestID) (input : GuestInput) : Decidable (s.Owns g input) := by
  unfold Owns; split <;> infer_instance

def delivered (s : IoApic p) (g : GuestID) : List Interrupt := s.sent.filter (·.guest == g)

def OwnApic (s : IoApic p) (g : GuestID) (apic : BitVec 8) : Prop :=
  ∃ c ∈ s.contexts, c.guest = g.setWidth 64 ∧ c.initialApicId = apic
deriving Decidable

/-- The guest's interrupts went only to local APICs of its own contexts. -/
def Isolated (s : IoApic p) (g : GuestID) : Prop :=
  ∀ i ∈ s.delivered g, ∀ apic ∈ i.apics, s.OwnApic g apic

end IoApic

/-- Two contexts that a guest cannot tell apart: they belong to the same guest, and
if that is this guest they have the same logical destination. -/
structure ApicContext.Alike (g : GuestID) (c₁ c₂ : ApicContext) : Prop where
  qr0 : c₁.qr0 = c₂.qr0
  apicId : c₁.initialApicId = c₂.initialApicId
  destination : c₁.guest = g.setWidth 64 → c₁.logicalDestination = c₂.logicalDestination

/-- A step of one of two runs, or a step that they share. -/
inductive PairStep
  | left (input : GuestInput)
  | right (input : GuestInput)
  | both (input : GuestInput)
deriving DecidableEq, Repr

namespace PairStep

/-- The runs share what the guest does, and differ in what other guests do in between. -/
def Enabled (g : GuestID) (r : IoApic p × IoApic p) : PairStep → Prop
  | .left input => ¬ r.1.Owns g input
  | .right input => ¬ r.2.Owns g input
  | .both input => r.1.Owns g input

def Meets (Q : IoApic p → IoApic p → GuestInput → Prop) (r : IoApic p × IoApic p) :
    PairStep → Prop
  | .both input => Q r.1 r.2 input
  | _ => True

instance decidableMeets {Q : IoApic p → IoApic p → GuestInput → Prop}
    [∀ s₁ s₂ input, Decidable (Q s₁ s₂ input)] (r : IoApic p × IoApic p) (step : PairStep) :
    Decidable (step.Meets Q r) := by
  cases step <;> unfold Meets <;> infer_instance

def call : PairStep → Prog Abort (IoApic p × IoApic p) Unit
  | .left input => zoom Prod.fst (fun s r => (s, r.2)) (IoApic.act input)
  | .right input => zoom Prod.snd (fun s r => (r.1, s)) (IoApic.act input)
  | .both input => do
    zoom Prod.fst (fun s r => (s, r.2)) (IoApic.act input)
    zoom Prod.snd (fun s r => (r.1, s)) (IoApic.act input)

end PairStep

def pairMachine (g : GuestID) : Machine Abort (IoApic p × IoApic p) PairStep where
  start r := ∃ cs₁ cs₂, List.Forall₂ (ApicContext.Alike g) cs₁ cs₂ ∧
    r = ({ contexts := cs₁ }, { contexts := cs₂ })
  enabled := PairStep.Enabled g
  call := PairStep.call

instance decidablePair (g : GuestID) (r : IoApic p × IoApic p) (step : PairStep) :
    Decidable ((pairMachine g).enabled r step) := by
  cases step <;> dsimp only [pairMachine, PairStep.Enabled] <;> infer_instance

/-- Two runs that share the inputs of the guest `g`, each of which meets `Q` in the two states. -/
def TwoRuns (g : GuestID) (Q : IoApic p → IoApic p → GuestInput → Prop) (s₁ s₂ : IoApic p) : Prop :=
  (pairMachine g).ReachableBy (fun r step => step.Meets Q r) (s₁, s₂)

/-! ## The condition -/

namespace IoApic

def physicalApics (s : IoApic p) (destination : BitVec 8) : List (BitVec 8) :=
  if destination = 0xFF then (List.range s.contexts.length).map (BitVec.ofNat 8)
  else [destination]

/-- An interrupt has a physical destination that names only the guest's own local APICs, or a
logical one, and a lowest-priority one finds the rotation at the same place in both runs. -/
def Steady (g : GuestID) (s₁ s₂ : IoApic p) : GuestInput → Prop
  | .signal _ line =>
    let entry := s₁.redirTable g.toNat line
    s₁.Delivers g line →
      (entry.destMode = false → ∀ apic ∈ s₁.physicalApics entry.dest, s₁.OwnApic g apic) ∧
      (entry.destMode = true → entry.deliveryMode = lowestPriority →
        s₁.lowestPriorityOffset.toNat % (matching s₁.contexts g entry.dest).length
          = s₂.lowestPriorityOffset.toNat % (matching s₁.contexts g entry.dest).length)
  | .regs _ => True

instance (g : GuestID) (s₁ s₂ : IoApic p) (input : GuestInput) :
    Decidable (Steady g s₁ s₂ input) := by
  cases input <;> unfold Steady <;> infer_instance

end IoApic

/-! ## A guest's part of the state -/

namespace ApicContext.Alike

variable {g : GuestID} {c₁ c₂ c₃ : ApicContext}

theorem refl (g : GuestID) (c : ApicContext) : Alike g c c := ⟨rfl, rfl, fun _ => rfl⟩

theorem guest (h : Alike g c₁ c₂) : c₁.guest = c₂.guest := by
  rw [ApicContext.guest, h.qr0, ApicContext.guest]

theorem symm (h : Alike g c₁ c₂) : Alike g c₂ c₁ :=
  ⟨h.qr0.symm, h.apicId.symm, fun hg => (h.destination (h.guest.trans hg)).symm⟩

theorem trans (h₁ : Alike g c₁ c₂) (h₂ : Alike g c₂ c₃) : Alike g c₁ c₃ :=
  ⟨h₁.qr0.trans h₂.qr0, h₁.apicId.trans h₂.apicId,
    fun hg => (h₁.destination hg).trans (h₂.destination (h₁.guest.symm.trans hg))⟩

end ApicContext.Alike

namespace IoApic

structure SameFor (g : GuestID) (s₁ s₂ : IoApic p) : Prop where
  regSel : s₁.regSel g.toNat = s₂.regSel g.toNat
  redirTable : s₁.redirTable g.toNat = s₂.redirTable g.toNat
  contexts : List.Forall₂ (ApicContext.Alike g) s₁.contexts s₂.contexts
  delivered : s₁.delivered g = s₂.delivered g

variable {g : GuestID} {s₁ s₂ s₃ : IoApic p} {apic offset : BitVec 8} {cs : List ApicContext}
  {g' : GuestID} {n : Nat} {value : BitVec 32} {input : GuestInput} {w : RegWrite}

theorem forall₂_alike_refl (g : GuestID) (cs : List ApicContext) :
    List.Forall₂ (ApicContext.Alike g) cs cs :=
  List.forall₂_same.mpr fun c _ => ApicContext.Alike.refl g c

theorem SameFor.symm (h : SameFor g s₁ s₂) : SameFor g s₂ s₁ where
  regSel := h.regSel.symm
  redirTable := h.redirTable.symm
  contexts := h.contexts.flip.imp fun _ _ => ApicContext.Alike.symm
  delivered := h.delivered.symm

theorem forall₂_alike_trans {cs₁ cs₂ cs₃ : List ApicContext}
    (h₁ : List.Forall₂ (ApicContext.Alike g) cs₁ cs₂)
    (h₂ : List.Forall₂ (ApicContext.Alike g) cs₂ cs₃) :
    List.Forall₂ (ApicContext.Alike g) cs₁ cs₃ := by
  induction h₁ generalizing cs₃ with
  | nil => exact h₂
  | cons hc _ ih =>
    cases h₂ with
    | cons hc' hrest => exact .cons (hc.trans hc') (ih hrest)

theorem SameFor.trans (h₁ : SameFor g s₁ s₂) (h₂ : SameFor g s₂ s₃) : SameFor g s₁ s₃ where
  regSel := h₁.regSel.trans h₂.regSel
  redirTable := h₁.redirTable.trans h₂.redirTable
  contexts := forall₂_alike_trans h₁.contexts h₂.contexts
  delivered := h₁.delivered.trans h₂.delivered

variable {cs₁ cs₂ : List ApicContext}

theorem exists_alike
    (h : List.Forall₂ (ApicContext.Alike g) cs₁ cs₂) {c₁ : ApicContext} (hc₁ : c₁ ∈ cs₁) :
    ∃ c₂ ∈ cs₂, ApicContext.Alike g c₁ c₂ := by
  induction h with
  | nil => cases hc₁
  | @cons c c₂ cs₁ cs₂ halike _ ih =>
    rcases List.mem_cons.mp hc₁ with rfl | hmem
    · exact ⟨c₂, List.mem_cons_self, halike⟩
    · obtain ⟨d, hd, hsame⟩ := ih hmem
      exact ⟨d, List.mem_cons_of_mem c₂ hd, hsame⟩

theorem ownApic_of_alike (h : List.Forall₂ (ApicContext.Alike g) s₁.contexts s₂.contexts)
    (hown : s₁.OwnApic g apic) : s₂.OwnApic g apic := by
  obtain ⟨c₁, hc₁, hguest, hid⟩ := hown
  obtain ⟨c₂, hc₂, halike⟩ := exists_alike h hc₁
  exact ⟨c₂, hc₂, halike.guest.symm.trans hguest, halike.apicId.symm.trans hid⟩

theorem SameFor.isolated (h : SameFor g s₁ s₂) (hiso : s₁.Isolated g) : s₂.Isolated g := by
  intro i hi apic hapic
  rw [← h.delivered] at hi
  exact ownApic_of_alike h.contexts (hiso i hi apic hapic)

/-- The contexts of the guest that match are the same in both states. -/
theorem matching_congr (destination : BitVec 8) (h : List.Forall₂ (ApicContext.Alike g) cs₁ cs₂) :
    matching cs₁ g destination = matching cs₂ g destination := by
  induction h with
  | nil => rfl
  | @cons c₁ c₂ cs₁ cs₂ halike _ ih =>
    unfold matching at ih ⊢
    rw [List.filter_cons, List.filter_cons, ← halike.guest]
    rcases eq_or_ne c₁.guest (g.setWidth 64) with hg | hg
    · rw [← halike.destination hg]
      split
      · rw [List.map_cons, List.map_cons, ih, halike.apicId]
      · exact ih
    · simpa [hg] using ih

theorem mem_matching {destination : BitVec 8} (h : apic ∈ matching cs g destination) :
    ∃ c ∈ cs, c.guest = g.setWidth 64 ∧ c.initialApicId = apic := by
  obtain ⟨c, hc, hid⟩ := List.mem_map.mp h
  obtain ⟨hmem, hmatch⟩ := List.mem_filter.mp hc
  have hguest : c.guest = g.setWidth 64 := by
    simpa using (Bool.and_eq_true_iff.mp hmatch).1
  exact ⟨c, hmem, hguest, hid⟩

/-! ## What other guests do -/

variable {s s' : IoApic p}

theorem signalInterrupt_other (hne : g' ≠ g)
    (h : signalInterrupt g' n s = .ok ((), s')) : SameFor g s s' := by
  rcases signalInterrupt_inv h with ⟨_, rfl⟩ | ⟨_, apics, s₁, hsel, rfl⟩
  · exact ⟨rfl, rfl, forall₂_alike_refl g _, rfl⟩
  · obtain ⟨hsame, hsent⟩ := selectApics_frame hsel
    refine ⟨by rw [hsame.regSel], by rw [hsame.redirTable], ?_, ?_⟩
    · rw [hsame.contexts]
      exact forall₂_alike_refl g _
    · have hskip : ((g' == g) = true) = False := by simpa using hne
      simp only [delivered, List.filter_cons, hskip, if_false, hsent]

theorem writeReg_other (hne : g'.toNat ≠ g.toNat) (h : writeReg g' offset value s = .ok ((), s')) :
    SameFor g s s' := by
  obtain ⟨hregSel, hcontexts, hsent, -, htable⟩ := writeReg_spec h
  refine ⟨by rw [hregSel], ?_, ?_, by rw [delivered, delivered, hsent]⟩
  · rw [htable, Function.update_of_ne hne.symm]
  · rw [hcontexts]
    exact forall₂_alike_refl g _

/-- Another context's logical destination is not looked at. -/
theorem forall₂_alike_modify_other {context : Nat} (value : BitVec 32)
    (hother : ¬ (cs[context]?).any (fun c => c.guest == g.setWidth 64) = true) :
    List.Forall₂ (ApicContext.Alike g) cs
      (cs.modify context fun c => { c with logicalDestination := value }) := by
  induction cs generalizing context with
  | nil => simp
  | cons c cs ih =>
    cases context with
    | zero =>
      have hne : c.guest ≠ g.setWidth 64 := by simpa using hother
      exact .cons ⟨rfl, rfl, fun hg => absurd hg hne⟩ (forall₂_alike_refl g cs)
    | succ context => exact .cons (ApicContext.Alike.refl g c) (ih hother)

/-- What other guests do leaves the part of the guest `g` alone. -/
theorem act_other (hother : ¬ s.Owns g input)
    (h : s.act input = .ok ((), s')) : SameFor g s s' := by
  cases input with
  | signal guest line => exact signalInterrupt_other hother h
  | regs w =>
    cases w with
    | ioApic pkt =>
      have hne : pkt.guestID.toNat ≠ g.toNat := fun heq => hother (BitVec.eq_of_toNat_eq heq)
      obtain ⟨pkt', h⟩ := discard_eq_ok.mp h
      obtain ⟨value, _, ⟨_, rfl⟩ | ⟨_, hreg⟩⟩ := write_inv h
      · exact ⟨(Function.update_of_ne hne.symm _ _).symm, rfl, forall₂_alike_refl g _, rfl⟩
      · exact writeReg_other hne hreg
    | logicalDestination context value =>
      obtain rfl := modify_eq_ok.mp h
      exact ⟨rfl, rfl, forall₂_alike_modify_other value hother, rfl⟩

/-! ## What the guest does itself -/

/-- The APICs that a message goes to, as a function of the state. -/
def chosen (s : IoApic p) (g : GuestID) (message : TriggerIntMessage) : List (BitVec 8) :=
  let apics := matching s.contexts g message.destination
  if message.destMode = false then s.physicalApics message.destination
  else if message.deliveryMode = lowestPriority ∧ apics ≠ [] then
    (apics[s.lowestPriorityOffset.toNat % apics.length]?).toList
  else apics

variable {message : TriggerIntMessage}

theorem selectApics_chosen
    {apics : List (BitVec 8)} (h : selectApics g message s = .ok (apics, s')) :
    apics = s.chosen g message := by
  simp only [selectApics, rotate, bind_eq_ok, get_eq_ok, ite_eq_ok, pure_eq_ok, throw_ne_ok,
    modify_eq_ok, and_false, false_or] at h
  obtain ⟨_, _, ⟨rfl, rfl⟩, h⟩ := h
  unfold chosen
  rcases h with ⟨hmode, _, h⟩ | ⟨hmode, h⟩
  · rw [if_pos hmode, physicalApics]
    rcases h with ⟨hall, rfl, _⟩ | ⟨hone, rfl, _⟩
    · rw [if_pos hall]
    · rw [if_neg hone]
  · rw [if_neg hmode]
    rcases h with ⟨hlow, _, _, ⟨rfl, rfl⟩, _, _, rfl, rfl, _⟩ | ⟨hnot, rfl, _⟩
    · rw [if_pos hlow]
    · rw [if_neg hnot]

theorem chosen_congr (hsame : SameFor g s₁ s₂)
    (hsteady : message.destMode = true → message.deliveryMode = lowestPriority →
      s₁.lowestPriorityOffset.toNat % (matching s₁.contexts g message.destination).length
        = s₂.lowestPriorityOffset.toNat % (matching s₁.contexts g message.destination).length) :
    s₁.chosen g message = s₂.chosen g message := by
  have hmatching := matching_congr message.destination hsame.contexts
  have hlength : s₁.contexts.length = s₂.contexts.length := hsame.contexts.length_eq
  unfold chosen
  cases hmode : message.destMode with
  | false => rw [if_pos rfl, if_pos rfl, physicalApics, physicalApics, hlength]
  | true =>
    simp only [Bool.true_eq_false, if_false, ← hmatching]
    split
    · rename_i hlow
      rw [hsteady hmode hlow.1]
    · rfl

theorem chosen_own (hphysical : message.destMode = false →
      ∀ apic ∈ s.physicalApics message.destination, s.OwnApic g apic) :
    ∀ apic ∈ s.chosen g message, s.OwnApic g apic := by
  intro apic hapic
  unfold chosen at hapic
  cases hmode : message.destMode with
  | false =>
    rw [if_pos hmode] at hapic
    exact hphysical hmode apic hapic
  | true =>
    rw [if_neg (by simp [hmode])] at hapic
    split at hapic
    · rw [Option.mem_toList] at hapic
      exact mem_matching (List.mem_of_getElem? hapic)
    · exact mem_matching hapic

theorem SameFor.delivers_iff (hsame : SameFor g s₁ s₂) : s₁.Delivers g n ↔ s₂.Delivers g n := by
  rw [Delivers, Delivers, hsame.redirTable]

variable {s₁' s₂' : IoApic p}

/-- An interrupt of the guest goes to the same APICs in both runs, and only to
those of its own contexts. -/
theorem signalInterrupt_own (hsame : SameFor g s₁ s₂)
    (hiso : s₁.Isolated g) (hsteady : Steady g s₁ s₂ (.signal g n))
    (h₁ : signalInterrupt g n s₁ = .ok ((), s₁')) (h₂ : signalInterrupt g n s₂ = .ok ((), s₂')) :
    SameFor g s₁' s₂' ∧ s₁'.Isolated g := by
  rcases signalInterrupt_inv h₁ with ⟨hno, rfl⟩ | ⟨hyes, apics₁, t₁, hsel₁, rfl⟩
  · rcases signalInterrupt_inv h₂ with ⟨_, rfl⟩ | ⟨hyes, _⟩
    · exact ⟨hsame, hiso⟩
    · exact absurd (hsame.delivers_iff.mpr hyes) hno
  · rcases signalInterrupt_inv h₂ with ⟨hno, _⟩ | ⟨_, apics₂, t₂, hsel₂, rfl⟩
    · exact absurd (hsame.delivers_iff.mp hyes) hno
    · obtain ⟨hphysical, hrotation⟩ := hsteady hyes
      obtain ⟨htables₁, hsent₁⟩ := selectApics_frame hsel₁
      obtain ⟨htables₂, hsent₂⟩ := selectApics_frame hsel₂
      have hentry : s₁.redirTable g.toNat n = s₂.redirTable g.toNat n :=
        congrFun hsame.redirTable n
      obtain rfl := selectApics_chosen hsel₁
      obtain rfl := selectApics_chosen hsel₂
      have hapics : s₁.chosen g (s₁.redirTable g.toNat n).message
          = s₂.chosen g (s₂.redirTable g.toNat n).message := by
        rw [← hentry]
        exact chosen_congr hsame hrotation
      have hold : t₁.delivered g = t₂.delivered g := by
        simpa only [delivered, hsent₁, hsent₂] using hsame.delivered
      refine ⟨⟨?_, ?_, ?_, ?_⟩, ?_⟩
      · rw [htables₁.regSel, htables₂.regSel]
        exact hsame.regSel
      · rw [htables₁.redirTable, htables₂.redirTable]
        exact hsame.redirTable
      · rw [htables₁.contexts, htables₂.contexts]
        exact hsame.contexts
      · simp only [delivered, List.filter_cons, beq_self_eq_true, if_true]
        rw [← hapics, ← hentry]
        exact congrArg (List.cons _) hold
      · intro i hi apic hapic
        have hi : i ∈ ⟨g, n, s₁.chosen g (s₁.redirTable g.toNat n).message,
            (s₁.redirTable g.toNat n).message⟩ :: t₁.delivered g := by
          simpa [delivered] using hi
        show ∃ c ∈ t₁.contexts, _
        rw [htables₁.contexts]
        rcases List.mem_cons.mp hi with rfl | hi
        · exact chosen_own hphysical apic hapic
        · rw [delivered, hsent₁] at hi
          exact hiso i hi apic hapic

theorem forall₂_alike_modify (context : Nat) (value : BitVec 32)
    (h : List.Forall₂ (ApicContext.Alike g) cs₁ cs₂) :
    List.Forall₂ (ApicContext.Alike g)
      (cs₁.modify context fun c => { c with logicalDestination := value })
      (cs₂.modify context fun c => { c with logicalDestination := value }) := by
  induction h generalizing context with
  | nil => simp
  | cons halike hrest ih =>
    cases context with
    | zero => exact .cons ⟨halike.qr0, halike.apicId, fun _ => rfl⟩ hrest
    | succ context => exact .cons halike (ih context)

theorem writeReg_own (hsame : SameFor g s₁ s₂) (h₁ : writeReg g offset value s₁ = .ok ((), s₁'))
    (h₂ : writeReg g offset value s₂ = .ok ((), s₂')) : SameFor g s₁' s₂' := by
  obtain ⟨hregSel₁, hcontexts₁, hsent₁, -, htable₁⟩ := writeReg_spec h₁
  obtain ⟨hregSel₂, hcontexts₂, hsent₂, -, htable₂⟩ := writeReg_spec h₂
  refine ⟨?_, ?_, ?_, ?_⟩
  · rw [hregSel₁, hregSel₂]
    exact hsame.regSel
  · rw [htable₁, htable₂, Function.update_self, Function.update_self, hsame.redirTable]
  · rw [hcontexts₁, hcontexts₂]
    exact hsame.contexts
  · rw [delivered, delivered, hsent₁, hsent₂]
    exact hsame.delivered

theorem regWrite_own (hsame : SameFor g s₁ s₂)
    (hown : s₁.Owns g (.regs w)) (h₁ : regWrite w s₁ = .ok ((), s₁'))
    (h₂ : regWrite w s₂ = .ok ((), s₂')) : SameFor g s₁' s₂' := by
  cases w with
  | ioApic pkt =>
    have hg : pkt.guestID = g := hown
    obtain ⟨pkt₁, h₁⟩ := discard_eq_ok.mp h₁
    obtain ⟨pkt₂, h₂⟩ := discard_eq_ok.mp h₂
    obtain ⟨value₁, hvalue₁, h₁⟩ := write_inv h₁
    obtain ⟨value₂, hvalue₂, h₂⟩ := write_inv h₂
    obtain rfl : value₁ = value₂ := by
      rw [hvalue₁] at hvalue₂
      exact Except.ok.inj hvalue₂
    rw [hg] at h₁ h₂
    rcases h₁ with ⟨haddr, rfl⟩ | ⟨haddr, hreg₁⟩
    · have hselect (f : Nat → BitVec 8) :
          Function.update f g.toNat (value₁.setWidth 8) g.toNat = value₁.setWidth 8 :=
        Function.update_self ..
      rcases h₂ with ⟨_, rfl⟩ | ⟨hnot, _⟩
      · exact { hsame with regSel := (hselect s₁.regSel).trans (hselect s₂.regSel).symm }
      · exact absurd haddr hnot
    · rcases h₂ with ⟨hnot, _⟩ | ⟨_, hreg₂⟩
      · exact absurd hnot haddr
      · rw [← hsame.regSel] at hreg₂
        exact writeReg_own hsame hreg₁ hreg₂
  | logicalDestination context value =>
    obtain rfl := modify_eq_ok.mp h₁
    obtain rfl := modify_eq_ok.mp h₂
    exact ⟨hsame.regSel, hsame.redirTable, forall₂_alike_modify context value hsame.contexts,
      hsame.delivered⟩

/-- A logical destination does not say whose context it is. -/
theorem ownApic_modify (context : Nat) (value : BitVec 32)
    (h : ∃ c ∈ cs, c.guest = g.setWidth 64 ∧ c.initialApicId = apic) :
    ∃ c ∈ cs.modify context fun c => { c with logicalDestination := value },
      c.guest = g.setWidth 64 ∧ c.initialApicId = apic := by
  obtain ⟨c, hc, hguest, hid⟩ := h
  obtain ⟨i, hi⟩ := List.mem_iff_getElem?.mp hc
  rcases eq_or_ne context i with rfl | hne
  · refine ⟨{ c with logicalDestination := value }, ?_, hguest, hid⟩
    exact List.mem_iff_getElem?.mpr ⟨context, by simp [hi]⟩
  · refine ⟨c, ?_, hguest, hid⟩
    exact List.mem_iff_getElem?.mpr ⟨i, by simp [hi, hne]⟩

theorem regWrite_isolated (hiso : s.Isolated g)
    (h : regWrite w s = .ok ((), s')) : s'.Isolated g := by
  have hsent := (regWrite_frame h).1
  intro i hi apic hapic
  rw [delivered, hsent] at hi
  have hown := hiso i hi apic hapic
  cases w with
  | ioApic pkt =>
    obtain ⟨pkt', h⟩ := discard_eq_ok.mp h
    obtain ⟨value, _, ⟨_, rfl⟩ | ⟨_, hreg⟩⟩ := write_inv h
    · exact hown
    · rw [OwnApic, (writeReg_spec hreg).2.1]
      exact hown
  | logicalDestination context value =>
    obtain rfl := modify_eq_ok.mp h
    exact ownApic_modify context value hown

theorem act_own (hsame : SameFor g s₁ s₂)
    (hiso : s₁.Isolated g) (hown : s₁.Owns g input) (hsteady : Steady g s₁ s₂ input)
    (h₁ : s₁.act input = .ok ((), s₁')) (h₂ : s₂.act input = .ok ((), s₂')) :
    SameFor g s₁' s₂' ∧ s₁'.Isolated g := by
  cases input with
  | signal guest line =>
    obtain rfl : guest = g := hown
    exact signalInterrupt_own hsame hiso hsteady h₁ h₂
  | regs w => exact ⟨regWrite_own hsame hown h₁ h₂, regWrite_isolated hiso h₁⟩

end IoApic

/-! ## All pairs of runs -/

theorem TwoRuns.sameFor {g : GuestID} {s₁ s₂ : IoApic p}
    (h : TwoRuns g (IoApic.Steady g) s₁ s₂) : IoApic.SameFor g s₁ s₂ ∧ s₁.Isolated g := by
  refine h.invariant (I := fun r => IoApic.SameFor g r.1 r.2 ∧ r.1.Isolated g) ?_
    fun r step r' hr hen hmeets hcall => ?_
  · rintro _ ⟨cs₁, cs₂, hcs, rfl⟩
    exact ⟨⟨rfl, rfl, hcs, rfl⟩, fun i hi => nomatch hi⟩
  · cases step with
    | left input =>
      simp only [pairMachine, PairStep.call, zoom_eq_ok] at hcall
      obtain ⟨s, hact, rfl⟩ := hcall
      have hkeep := IoApic.act_other hen hact
      exact ⟨hkeep.symm.trans hr.1, hkeep.isolated hr.2⟩
    | right input =>
      simp only [pairMachine, PairStep.call, zoom_eq_ok] at hcall
      obtain ⟨s, hact, rfl⟩ := hcall
      exact ⟨hr.1.trans (IoApic.act_other hen hact), hr.2⟩
    | both input =>
      simp only [pairMachine, PairStep.call, bind_eq_ok, zoom_eq_ok] at hcall
      obtain ⟨_, _, ⟨t₁, hact₁, rfl⟩, t₂, hact₂, rfl⟩ := hcall
      exact IoApic.act_own hr.1 hr.2 hen hmeets hact₁ hact₂

/-- In all pairs of runs that share what the guest does and meet the condition, its interrupts go to
the same local APICs, all of its own contexts. -/
theorem delivery_isolated {g : GuestID} {s₁ s₂ : IoApic p} (h : TwoRuns g (IoApic.Steady g) s₁ s₂) :
    s₁.delivered g = s₂.delivered g ∧ s₁.Isolated g ∧ s₂.Isolated g := by
  obtain ⟨hsame, hiso⟩ := h.sameFor
  exact ⟨hsame.delivered, hiso, hsame.isolated hiso⟩

/-! ## Concrete pairs of runs -/

theorem twoRuns_startup (g : GuestID) (Q : IoApic p → IoApic p → GuestInput → Prop)
    (contexts : List ApicContext) : TwoRuns g Q { contexts } { contexts } :=
  .startup ⟨contexts, contexts, IoApic.forall₂_alike_refl g contexts, rfl⟩

def threeContexts : List ApicContext :=
  [⟨0, 0x01000000, 0⟩, ⟨1, 0x02000000, 1⟩, ⟨1, 0x04000000, 2⟩]

/-- Guest 1 asks for all its contexts on line 4, and guest 0 writes its own table in the first
run. -/
theorem delivery_isolated_logical : ∃ s₁ s₂ : IoApic .twoGuests, TwoRuns 1 (IoApic.Steady 1) s₁ s₂ ∧
      (s₁.delivered 1).map Interrupt.apics = [[1, 2]] ∧
      s₁.delivered 1 = s₂.delivered 1 ∧ s₁.Isolated 1 ∧ s₂.Isolated 1 := by
  obtain ⟨⟨s₁, s₂⟩, hruns, hapics⟩ :=
    (twoRuns_startup 1 (IoApic.Steady 1) threeContexts).exists_of_replay
      (p := fun r : IoApic .twoGuests × _ => (r.1.delivered 1).map Interrupt.apics = [[1, 2]])
      ((RegWrite.entry 0 4 0xFF000000 0x930).map (fun w => .left (.regs w)) ++
        [.left (.signal 0 4)] ++
        (RegWrite.entry 1 4 0xFF000000 0x830).map (fun w => .both (.regs w)) ++
        [.both (.signal 1 4)]) (by decide)
  exact ⟨s₁, s₂, hruns, hapics, delivery_isolated hruns⟩

/-- A physical destination reaches another guest's local APIC, and a lowest-priority interrupt of
guest 0 changes which context the next one of guest 1 reaches. -/
theorem delivery_leaks :
    (∃ s₁ s₂ : IoApic .twoGuests, TwoRuns 1 (fun _ _ _ => True) s₁ s₂ ∧ ¬ s₁.Isolated 1) ∧
    (∃ s₁ s₂ : IoApic .twoGuests, TwoRuns 1 (fun _ _ _ => True) s₁ s₂ ∧
      s₁.delivered 1 ≠ s₂.delivered 1) := by
  have hstart := twoRuns_startup (p := .twoGuests) 1 (fun _ _ _ => True) threeContexts
  constructor
  · obtain ⟨⟨s₁, s₂⟩, hruns, i, hi, apic, hapic, hnot⟩ := hstart.exists_of_replay
      (p := fun r => ∃ i ∈ r.1.delivered 1, ∃ apic ∈ i.apics, ¬ r.1.OwnApic 1 apic)
      ((RegWrite.entry 1 4 0 0x030).map (fun w => .both (.regs w)) ++ [.both (.signal 1 4)])
      (by decide)
    exact ⟨s₁, s₂, hruns, fun hiso => hnot (hiso i hi apic hapic)⟩
  · obtain ⟨⟨s₁, s₂⟩, hruns, hne⟩ := hstart.exists_of_replay
      (p := fun r => r.1.delivered 1 ≠ r.2.delivered 1)
      ((RegWrite.entry 0 4 0xFF000000 0x930).map (fun w => .left (.regs w)) ++
        [.left (.signal 0 4)] ++
        (RegWrite.entry 1 4 0xFF000000 0x930).map (fun w => .both (.regs w)) ++
        [.both (.signal 1 4)]) (by decide)
    exact ⟨s₁, s₂, hruns, hne⟩

end PardG5V
