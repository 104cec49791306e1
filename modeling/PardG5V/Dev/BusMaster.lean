import PardG5V.Dev.IdeStates

/-!
# The bus master registers

`accessBMI` treats the command, the status and the pointer to the descriptor table as registers.
Writes at other offsets go to the bytes as they are, and reach the status and the pointer as well.
An assignment between two bit fields copies the whole byte. So the lines that are to keep the
direction of a transfer that runs change a copy of the old value, and a write of the status clears
the interrupt and the error whatever is written.

Results: `bus_master_law`, `bus_master_law_broken`.
-/

namespace PardG5V

open Prog Bytes IdeSide

/-- An access to the bus master registers, the end of a DMA command or an interrupt of a disk. -/
inductive BmiInput
  | access (read : Bool) (offset : Nat) (data : List Byte)
  | complete (isSlave : Bool)
  | interrupt (isSlave : Bool)
  | other (c : IdeChannel)

namespace IdeChannel

def direction (c : IdeChannel) : Bool := (c.bmi 0).getLsbD 3

def active (c : IdeChannel) : Bool := (c.bmi 2).getLsbD 0

def bmiCall (cfg : IdeConfig) : BmiInput → ChannelM Unit
  | .access read offset data => dispatchAccess cfg .bmi read offset data
  | .complete isSlave => onDisk isSlave setDmaComplete
  | .interrupt isSlave => onDisk isSlave intrPost
  | .other c' => modify fun c => { c' with bmi := c.bmi }

def bmiMachine (cfg : IdeConfig) : Machine IdePanic IdeChannel BmiInput where
  start c := ∃ nIENBit image mem mode, c = init nIENBit image mem mode
  enabled _ _ := True
  call := bmiCall cfg

/-- What the registers promise for a step from `c` to `c'`. The error and the interrupt are bits 1
and 2 of the status. -/
structure BmiLaw (c : IdeChannel) (input : BmiInput) (c' : IdeChannel) : Prop where
  direction : c.startStop = true → c'.startStop = true → c'.direction = c.direction
  active : c'.active ≠ c.active → c'.startStop ≠ c.startStop ∨ ∃ isSlave, input = .complete isSlave
  cleared : ∀ i, i = 1 ∨ i = 2 → (c.bmi 2).getLsbD i = true → (c'.bmi 2).getLsbD i = false →
    ∃ byte : Byte, input = .access false 2 [byte] ∧ byte.getLsbD i = true
  aligned : c'.bmidtp &&& 3 = 0

/-- A write of the command leaves the direction alone if the start bit stays set, a write of the
status has ones for the interrupt and the error that are set, and a write at a reserved offset does
not go beyond it. -/
def RegisterWise (c : IdeChannel) : BmiInput → Prop
  | .access false offset data =>
    (offset = 0 → c.startStop = true → (data.headD 0).getLsbD 0 = true →
      (data.headD 0).getLsbD 3 = c.direction) ∧
    (offset = 2 → ∀ i, i = 1 ∨ i = 2 → (c.bmi 2).getLsbD i = true →
      (data.headD 0).getLsbD i = true) ∧
    (offset = 0 ∨ offset = 2 ∨ 4 ≤ offset ∨ (offset = 1 ∨ offset = 3) ∧ data.length = 1)
  | _ => True

/-! ## The registers after a step -/

variable {cfg : IdeConfig} {c c' : IdeChannel} {input : BmiInput}

/-- The alignment of the pointer is in its first byte. -/
theorem bmidtp_congr (h : c'.bmi 4 = c.bmi 4) : c'.bmidtp &&& 3 = c.bmidtp &&& 3 := by
  have hlow (c : IdeChannel) : (c.bmidtp &&& 3).toNat = (c.bmi 4).toNat % 4 := by
    have hvalue : value (load c.bmi 4 4) =
      (c.bmi 4).toNat + 256 * value [c.bmi 5, c.bmi 6, c.bmi 7] := rfl
    unfold bmidtp
    rw [hvalue, BitVec.toNat_and, BitVec.toNat_ofNat]
    refine (Nat.and_two_pow_sub_one_eq_mod _ 2).trans ?_
    omega
  exact BitVec.eq_of_toNat_eq (by rw [hlow, hlow, h])

structure Posts (bmi bmi' : Nat → Byte) : Prop where
  others : ∀ k, k ≠ 2 → bmi' k = bmi k
  active : (bmi' 2).getLsbD 0 = (bmi 2).getLsbD 0
  bits : ∀ i, (bmi 2).getLsbD i = true → (bmi' 2).getLsbD i = true

theorem Posts.refl (bmi : Nat → Byte) : Posts bmi bmi := ⟨fun _ _ => rfl, rfl, fun _ h => h⟩

theorem intrPost_posts (s : IdeSide) : wp Never intrPost (fun _ t => Posts s.bmi t.bmi) s := by
  unfold intrPost
  simp only [wp_bind, wp_getDisk, wp_panicIf, wp_modify]
  refine ⟨fun _ => not_false, fun _ => ⟨fun k hk => if_neg hk, ?_, fun i hi => ?_⟩⟩
  · simp
  · show (s.bmi 2 ||| 4).getLsbD i = true
    rw [BitVec.getLsbD_or, hi, Bool.true_or]

/-- A transfer that is stopped may end with an interrupt. -/
theorem abortDma_posts (env : IdeEnv) (s : IdeSide) :
    wp Never (abortDma env) (fun _ t => Posts s.bmi t.bmi) s := by
  unfold abortDma updateState
  simp only [wp_bind, wp_getDisk, wp_panicIf]
  refine ⟨fun _ => not_false, fun _ => ⟨fun _ => not_false, fun hdev => ?_⟩⟩
  cases hstate : s.disk.devState with
  | Transfer_Data_Dma =>
    simp only [wp_ite, wp_modifyDisk]
    exact ⟨fun _ => .refl _, fun hne => absurd trivial hne⟩
  | Prepare_Data_Dma =>
    unfold updatePreparing setComplete finishCommand
    simp only [wp_bind, wp_getDisk, hstate, wp_ite, wp_modifyDisk]
    refine ⟨fun _ => ⟨fun _ => .refl _, fun _ => ?_⟩, fun hne => absurd trivial hne⟩
    exact intrPost_posts { s with disk := _ }
  | _ => simp [hstate] at hdev

theorem BmiLaw.of_status (haligned : c.bmidtp &&& 3 = 0) (hcommand : c'.bmi 0 = c.bmi 0)
    (hpointer : c'.bmi 4 = c.bmi 4) (hactive : c'.active = c.active)
    (hcleared : ∀ i, i = 1 ∨ i = 2 → (c.bmi 2).getLsbD i = true → (c'.bmi 2).getLsbD i = false →
      ∃ byte : Byte, input = .access false 2 [byte] ∧ byte.getLsbD i = true) :
    BmiLaw c input c' := by
  refine ⟨fun _ _ => ?_, fun hne => absurd hactive hne, hcleared, ?_⟩
  · exact congrArg (BitVec.getLsbD · 3) hcommand
  · exact (bmidtp_congr hpointer).trans haligned

theorem BmiLaw.of_posts (haligned : c.bmidtp &&& 3 = 0) (h : Posts c.bmi c'.bmi) :
    BmiLaw c input c' := by
  refine .of_status haligned (h.others 0 nofun) (h.others 4 nofun) h.active fun i _ hi hnot => ?_
  cases (h.bits i hi).symm.trans hnot

theorem startDma_bmi (table : BitVec 32) (s : IdeSide) :
    wp Never (startDma table) (fun _ t => t.bmi = s.bmi) s := by
  unfold startDma schedule
  simp only [wp_bind, wp_getDisk, wp_panicIf, wp_modifyDisk]
  refine ⟨fun _ => not_false, fun _ => ⟨fun _ => not_false, fun _ => ⟨fun _ => not_false, ?_⟩⟩⟩
  exact fun _ => trivial

/-- The transfer of the selected disk is started or stopped if the start bit changes. -/
theorem startOrStop_bmi (c : IdeChannel) (old new : Bool) :
    wp Never (startOrStop cfg old new) (fun _ c' => (∀ k, k ≠ 2 → c'.bmi k = c.bmi k) ∧
      (new = old → c'.active = c.active) ∧
      ∀ i, i = 1 ∨ i = 2 → (c.bmi 2).getLsbD i = true → (c'.bmi 2).getLsbD i = true) c := by
  unfold startOrStop
  simp only [wp_bind, wp_get, wp_ite, wp_when, wp_modify, wp_onDisk]
  refine ⟨fun hstop => ?_, fun _ => ⟨fun hstart => ?_, fun _ => ?_⟩⟩
  · refine wp.mono (abortDma_posts _ _) fun _ s hs =>
      ⟨fun k hk => ?_, fun heq => ?_, fun i hi hbit => ?_⟩
    · exact (hs.others k hk).trans (if_neg hk)
    · cases hstop.2.symm.trans (heq.trans hstop.1)
    · refine hs.bits i ?_
      show (c.bmi 2 &&& ~~~1).getLsbD i = true
      rcases hi with rfl | rfl <;> simpa using hbit
  · refine wp.mono (startDma_bmi _ _) fun _ s hs =>
      ⟨fun k hk => ?_, fun heq => ?_, fun i hi hbit => ?_⟩
    · exact (congrFun hs k).trans (if_neg hk)
    · rw [heq] at hstart
      simp at hstart
    · show (s.bmi 2).getLsbD i = true
      rw [hs]
      show (c.bmi 2 ||| 1).getLsbD i = true
      rw [BitVec.getLsbD_or, hbit, Bool.true_or]
  · exact ⟨fun _ _ => trivial, fun _ => trivial, fun _ _ hi => hi⟩

theorem newBMIStatus_active (old new : Byte) :
    (newBMIStatus old new).getLsbD 0 = old.getLsbD 0 := by
  unfold newBMIStatus
  simp

theorem eq_old {newVal : Byte} (h : newVal.getLsbD 0 = c.startStop) :
    newVal.getLsbD 0 = (c.oldBMICommand newVal).getLsbD 0 := by
  unfold oldBMICommand
  split
  · rfl
  · exact h

theorem access_law (haligned : c.bmidtp &&& 3 = 0) {read : Bool} {offset : Nat} {data : List Byte}
    (hwise : c.RegisterWise (.access read offset data)) :
    wp Never (accessBMI cfg read offset data)
      (fun _ c' => BmiLaw c (.access read offset data) c') c := by
  unfold accessBMI
  simp only [wp_bind, wp_when, wp_throw]
  refine ⟨fun _ => not_false, fun _ => ⟨fun hread => ?_, fun _ => .of_posts haligned (.refl _)⟩⟩
  have hread : read = false := Bool.not_eq_eq_eq_not.mp hread
  subst hread
  split
  · -- the command
    unfold writeBMICommand
    simp only [wp_bind, wp_when, wp_throw, wp_get, wp_modify]
    refine ⟨fun _ => not_false, fun _ => wp.mono (startOrStop_bmi c _ _) fun _ c₁ hc₁ => ?_⟩
    obtain ⟨hkeep, hactive, hbits⟩ := hc₁
    refine ⟨fun hold hnew => hwise.1 rfl hold hnew, fun hne => .inl fun hsame => ?_,
      fun i hi hold hnew => ?_, ?_⟩
    · exact hne (hactive (eq_old hsame))
    · cases (hbits i hi hold).symm.trans hnew
    · exact (bmidtp_congr (hkeep 4 (by decide))).trans haligned
  · -- the status
    simp only [wp_bind, wp_when, wp_throw, wp_modify]
    refine ⟨fun _ => not_false, fun hlen => ?_⟩
    obtain ⟨byte, rfl⟩ := List.length_eq_one_iff.mp (bne_eq_false_iff_eq.mp hlen)
    refine .of_status haligned rfl rfl (newBMIStatus_active _ byte) fun i hi hold _ => ?_
    exact ⟨byte, rfl, hwise.2.1 rfl i hi hold⟩
  · -- the pointer
    simp only [wp_bind, wp_when, wp_throw, wp_modify]
    refine ⟨fun _ => not_false, fun _ => ⟨fun _ _ => rfl, fun hne => absurd rfl hne,
      fun i _ hold hnew => ?_, ?_⟩⟩
    · cases hold.symm.trans hnew
    · unfold bmidtp
      rw [load_store_same (length_littleEndian _ _), value_littleEndian,
        Nat.mod_eq_of_lt (b := 256 ^ 4) (BitVec.isLt _), BitVec.ofNat_toNat, BitVec.setWidth_eq,
        BitVec.and_assoc]
      exact BitVec.and_zero
  · -- other bytes
    next hzero htwo hfour =>
      have hoff : 4 < offset ∨ (offset = 1 ∨ offset = 3) ∧ data.length = 1 := by
        rcases hwise.2.2 with heq | heq | hle | hres
        · exact absurd heq hzero
        · exact absurd heq htwo
        · exact .inl (Nat.lt_of_le_of_ne hle (Ne.symm hfour))
        · exact .inr hres
      have hkeep (k : Nat) (hk : k < offset ∨ offset + data.length ≤ k) :
          store c.bmi offset data k = c.bmi k := by
        unfold store
        split
        · rw [List.getElem?_eq_none (by omega)]
          rfl
        · rfl
      have hstatus : store c.bmi offset data 2 = c.bmi 2 := hkeep 2 (by omega)
      refine .of_status haligned (hkeep 0 (by omega)) (hkeep 4 (by omega)) ?_
        fun i _ hold hnew => ?_
      · exact congrArg (BitVec.getLsbD · 0) hstatus
      · have hnew : (store c.bmi offset data 2).getLsbD i = false := hnew
        rw [hstatus, hold] at hnew
        cases hnew

theorem bmi_step (haligned : c.bmidtp &&& 3 = 0) (hwise : c.RegisterWise input) :
    wp Never (bmiCall cfg input) (fun _ c' => BmiLaw c input c') c := by
  cases input with
  | access read offset data =>
    exact wp_bind.mpr (wp_when.mpr ⟨fun _ => not_false, fun _ => access_law haligned hwise⟩)
  | complete isSlave =>
    refine wp_onDisk.mpr
      ⟨fun _ hnew => ?_, fun _ => .inr ⟨isSlave, rfl⟩, fun i hi hold hnew => ?_, ?_⟩
    · have hnew : (c.bmi 0 &&& ~~~1).getLsbD 0 = true := hnew
      simp at hnew
    · have hnew : ((c.bmi 2 &&& ~~~1) ||| 4).getLsbD i = false := hnew
      rw [BitVec.getLsbD_or, BitVec.getLsbD_and, hold] at hnew
      rcases hi with rfl | rfl <;> simp at hnew
    · exact (bmidtp_congr rfl).trans haligned
  | interrupt isSlave =>
    exact wp_onDisk.mpr (wp.mono (intrPost_posts _) fun _ _ hs => .of_posts haligned hs)
  | other c' => exact .of_posts haligned (.refl _)

theorem aligned_of_reachable (h : (bmiMachine cfg).ReachableBy RegisterWise c) :
    c.bmidtp &&& 3 = 0 := by
  refine h.invariant (I := fun c => c.bmidtp &&& 3 = 0) (fun c hstart => ?_)
    fun c input c' hinv _ hwise hcall => (wp_ok (bmi_step hinv hwise) hcall).aligned
  obtain ⟨nIENBit, image, mem, mode, rfl⟩ := hstart
  show BitVec.ofNat 32 (value (load (fun i => if i = 2 then (0x60 : Byte) else 0) 4 4)) &&& 3 = 0
  decide

end IdeChannel

open IdeChannel

/-- In every run in which no write goes from a reserved byte into a register, no command turns the
direction of a running transfer and a status write has ones for the bits that it clears, the pointer
is aligned and every step keeps the law. -/
theorem bus_master_law {cfg : IdeConfig} {c : IdeChannel}
    (h : (bmiMachine cfg).ReachableBy RegisterWise c) :
    c.bmidtp &&& 3 = 0 ∧ ∀ input c', c.RegisterWise input →
      bmiCall cfg input c = .ok ((), c') → BmiLaw c input c' := by
  have haligned := aligned_of_reachable h
  refine ⟨haligned, fun input c' hwise hcall => ?_⟩
  have hlaw := wp_ok (bmi_step haligned hwise) hcall
  exact hlaw

/-- The input leads from `c` to a channel with `p`. -/
def IdeChannel.leads (input : BmiInput) (p : IdeChannel → Bool) (c : IdeChannel) : Bool :=
  match bmiCall oneSectorConfig input c with
  | .ok (_, c') => p c'
  | .error _ => false

theorem IdeChannel.exists_of_leads {input : BmiInput} {p : IdeChannel → Bool} {c : IdeChannel}
    (h : leads input p c = true) :
    ∃ c', bmiCall oneSectorConfig input c = .ok ((), c') ∧ p c' = true := by
  unfold leads at h
  split at h
  · next c' hcall => exact ⟨c', hcall, h⟩
  · cases h

/-- The low bits of a pointer are not taken. -/
theorem bus_master_law_pointer : ∃ c' : IdeChannel,
    bmiCall oneSectorConfig (.access false 4 [7, 0, 0, 0]) oneSectorChannel = .ok ((), c') ∧
      c'.bmidtp = 4 ∧ BmiLaw oneSectorChannel (.access false 4 [7, 0, 0, 0]) c' := by
  have hlead : leads (.access false 4 [7, 0, 0, 0]) (fun c' => c'.bmidtp == 4)
      oneSectorChannel = true := by decide +kernel
  obtain ⟨c', hcall, hp⟩ := exists_of_leads hlead
  have hreach : (bmiMachine oneSectorConfig).ReachableBy RegisterWise oneSectorChannel :=
    .startup ⟨_, _, _, _, rfl⟩
  refine ⟨c', hcall, beq_iff_eq.mp hp, (bus_master_law hreach).2 _ _ ?_ hcall⟩
  exact ⟨nofun, nofun, .inr (.inr (.inl (Nat.le_refl 4)))⟩

/-- A command that turns the direction of a transfer that runs, a status write of zero that clears
the interrupt, and raw writes of two bytes: one reaches the pointer, one the active bit. -/
theorem bus_master_law_broken : (∃ c c' : IdeChannel, (machine oneSectorConfig).Reachable c ∧
      bmiCall oneSectorConfig (.access false 0 [9]) c = .ok ((), c') ∧
      ¬ BmiLaw c (.access false 0 [9]) c') ∧
    (∃ c c' : IdeChannel, (machine oneSectorConfig).Reachable c ∧ c.bmi 2 = 0x64 ∧
      bmiCall oneSectorConfig (.access false 2 [0]) c = .ok ((), c') ∧ c'.bmi 2 = 0x60 ∧
      ¬ BmiLaw c (.access false 2 [0]) c') ∧
    (∃ c' : IdeChannel,
      bmiCall oneSectorConfig (.access false 3 [0, 1]) oneSectorChannel = .ok ((), c') ∧
      c'.bmidtp &&& 3 ≠ 0) ∧
    ∃ c' : IdeChannel,
      bmiCall oneSectorConfig (.access false 1 [0, 1]) oneSectorChannel = .ok ((), c') ∧
      c'.active = true ∧ c'.startStop = false := by
  refine ⟨?_, ?_, ?_, ?_⟩
  · have hrun : ∃ c : IdeChannel, (machine oneSectorConfig).Reachable c ∧
        (c.startStop = true ∧ c.direction = false) ∧
        leads (.access false 0 [9]) (fun c' => c'.startStop && c'.direction) c = true := by
      refine (init_reachable _ _ _ _ _ _).exists_of_replay (s := oneSectorChannel) startWriteDma ?_
      decide +kernel
    obtain ⟨c, hreach, ⟨hstart, hdir⟩, hlead⟩ := hrun
    obtain ⟨c', hcall, hp⟩ := exists_of_leads hlead
    obtain ⟨hstart', hdir'⟩ := Bool.and_eq_true_iff.mp hp
    refine ⟨c, c', hreach, hcall, fun hlaw => ?_⟩
    cases hdir'.symm.trans ((hlaw.direction hstart hstart').trans hdir)
  · have hrun : ∃ c : IdeChannel, (machine oneSectorConfig).Reachable c ∧ c.bmi 2 = 0x64 ∧
        leads (.access false 2 [0]) (fun c' => c'.bmi 2 == 0x60) c = true := by
      refine (init_reachable _ _ _ _ _ _).exists_of_replay (s := oneSectorChannel)
        [.access .command false 7 [0xe7]] ?_
      decide +kernel
    obtain ⟨c, hreach, hset, hlead⟩ := hrun
    obtain ⟨c', hcall, hp⟩ := exists_of_leads hlead
    have hclear := beq_iff_eq.mp hp
    refine ⟨c, c', hreach, hset, hcall, hclear, fun hlaw => ?_⟩
    obtain ⟨byte, hbyte, hone⟩ := hlaw.cleared 2 (.inr rfl) (hset ▸ rfl) (hclear ▸ rfl)
    cases hbyte
    cases hone
  · have hlead : leads (.access false 3 [0, 1]) (fun c' => c'.bmidtp &&& 3 != 0)
        oneSectorChannel = true := by decide +kernel
    obtain ⟨c', hcall, hp⟩ := exists_of_leads hlead
    exact ⟨c', hcall, bne_iff_ne.mp hp⟩
  · have hlead : leads (.access false 1 [0, 1]) (fun c' => c'.active && !c'.startStop)
        oneSectorChannel = true := by decide +kernel
    obtain ⟨c', hcall, hp⟩ := exists_of_leads hlead
    obtain ⟨hactive, hstop⟩ := Bool.and_eq_true_iff.mp hp
    exact ⟨c', hcall, hactive, Bool.not_eq_eq_eq_not.mp hstop⟩

end PardG5V
