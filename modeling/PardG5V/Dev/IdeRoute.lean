import PardG5V.Dev.IdeControl

/-!
# What an input asks of a disk

Every input of a channel is at most one call to one of its disks. `IdeChannel.route` says which,
and `call_disks` carries an invariant of the disks from these calls to the inputs.
-/

namespace PardG5V

open Prog IdeSide

inductive DiskCall
  | readCommand (offset size : Nat)
  | writeCommand (offset : Nat) (data : List Byte)
  | readControl (offset size : Nat)
  | writeControl (offset : Nat) (data : List Byte)
  | startDma (prdTableBase : BitVec 32)
  | abortDma
  | event (e : DiskEvent)
  | serve (i : Nat)
  | ack
deriving DecidableEq, Repr

namespace IdeSide

def perform (env : IdeEnv) : DiskCall → IdeM Unit
  | .readCommand offset size => discard (readCommand env offset size)
  | .writeCommand offset data => writeCommand env offset data
  | .readControl offset size => discard (readControl offset size)
  | .writeControl offset data => writeControl env offset data
  | .startDma prdTableBase => startDma prdTableBase
  | .abortDma => abortDma env
  | .event e => do
    modifyDisk fun d => { d with scheduled := d.scheduled.erase e }
    process env e
  | .serve i => modify (serve i)
  | .ack => ack

/-- The event is scheduled, or the port works on a transfer. -/
def Enabled (s : IdeSide) : DiskCall → Prop
  | .event e => e ∈ s.disk.scheduled
  | .serve i => (s.disk.transfer.any fun t => decide (i < t.pieces.length)) = true
  | .ack => (s.disk.transfer.any fun t => t.pieces.isEmpty) = true
  | _ => True

end IdeSide

variable {data : List Byte}

namespace IdeChannel

variable {read : Bool} {offset : Nat}

/-- The disk that an input goes to, and what it is asked to do. -/
def route (c : IdeChannel) : IdeInput → Option (Bool × DiskCall)
  | .access .command read offset data =>
    if read then some (c.selectBit, .readCommand offset data.length)
    else some (if offset = 6 then (data.headD 0).getLsbD 4 else c.selectBit,
      .writeCommand offset data)
  | .access .control read offset data =>
    some (c.selectBit, if read then .readControl offset data.length else .writeControl offset data)
  | .access .bmi read offset data =>
    if read = false ∧ offset = 0 then
      let newVal := data.headD 0
      let oldVal := c.oldBMICommand newVal
      if oldVal.getLsbD 0 = true ∧ newVal.getLsbD 0 = false then some (c.selectBit, .abortDma)
      else if oldVal.getLsbD 0 = false ∧ newVal.getLsbD 0 = true then
        some (c.selectBit, .startDma c.bmidtp)
      else none
    else none
  | .guestWrite _ _ => none
  | .event isSlave e _ => some (isSlave, .event e)
  | .serve isSlave i => some (isSlave, .serve i)
  | .ack isSlave => some (isSlave, .ack)
  | .setMode _ => none

structure Sees (cfg : IdeConfig) (c : IdeChannel) (k : Bool) (env : IdeEnv) : Prop where
  isSlave : env.isSlave = k
  needCrypt : env.needCrypt = cfg.needCrypt (cfg.guestID k)
  cacheLineSize : env.cacheLineSize = 2 ^ cfg.lineShift
  mode : env.mode = c.mode
  busy : env.busy = false → c.dmaPending = false

theorem sees_env (cfg : IdeConfig) (c : IdeChannel) (isSlave busy : Bool) :
    c.Sees cfg isSlave (c.env cfg isSlave busy) :=
  ⟨rfl, rfl, rfl, rfl, fun h => (Bool.or_eq_false_iff.mp h).2⟩

variable {cfg : IdeConfig} {c : IdeChannel} {input : IdeInput} {bad : IdePanic → Prop}
  {I : Bool → IdeDisk → Prop}

/-- An invariant of the disks, while one of them goes on. -/
theorem disks_setSide (h : ∀ isSlave, I isSlave (c.disks isSlave)) {k : Bool} {s : IdeSide}
    (hs : I k s.disk) : ∀ isSlave, I isSlave ((setSide k s c).disks isSlave) := by
  intro isSlave
  unfold setSide
  dsimp only
  by_cases hk : isSlave = k
  · subst hk
    rw [Function.update_self]
    exact hs
  · rw [Function.update_of_ne hk]
    exact h isSlave

/-- The call that an input is to one of the disks keeps the invariant. -/
def Routed (cfg : IdeConfig) (bad : IdePanic → Prop) (I : Bool → IdeDisk → Prop) (c : IdeChannel)
    (input : IdeInput) : Prop :=
  ∀ isSlave call env s, c.route input = some (isSlave, call) → c.Sees cfg isSlave env →
    s.disk = c.disks isSlave → s.mem = c.mem →
    wp bad (perform env call) (fun _ s' => I isSlave s'.disk) s

theorem accessCommand_disks (h : ∀ isSlave, I isSlave (c.disks isSlave))
    (hroute : Routed cfg bad I c (.access .command read offset data)) :
    wp bad (accessCommand cfg read offset data)
      (fun _ c' => ∀ isSlave, I isSlave (c'.disks isSlave)) c := by
  unfold accessCommand
  simp only [wp_bind, wp_when, wp_modify, wp_get, wp_ite]
  refine ⟨fun hsel => ?_, fun hsel => ⟨fun hread => ?_, fun hread => ?_⟩⟩
  · obtain ⟨hread, hoff⟩ := Bool.and_eq_true_iff.mp hsel
    have hread : read = false := Bool.not_eq_eq_eq_not.mp hread
    have hoff : offset = 6 := beq_iff_eq.mp hoff
    subst hread hoff
    refine ⟨Bool.noConfusion, fun _ => wp_onDisk.mpr ?_⟩
    exact wp.mono (hroute _ (.writeCommand 6 data) _ _ rfl
      ⟨rfl, rfl, rfl, rfl, fun hb => hb⟩ rfl rfl)
      fun _ s hs => disks_setSide h hs
  · subst hread
    refine wp_discard.mpr (wp_onDisk.mpr ?_)
    have hcall := hroute c.selectBit (.readCommand offset data.length) _ (c.side c.selectBit) rfl
      (sees_env cfg c c.selectBit false) rfl rfl
    exact wp.mono (wp_discard.mp hcall) fun _ s hs => disks_setSide h hs
  · have hread : read = false := Bool.eq_false_iff.mpr hread
    subst hread
    have hoff : offset ≠ 6 := fun hoff => by
      subst hoff
      cases hsel
    have htarget : c.route (.access .command false offset data) =
        some (c.selectBit, .writeCommand offset data) :=
      congrArg (fun k => some (k, DiskCall.writeCommand offset data)) (if_neg hoff)
    refine wp_onDisk.mpr (wp.mono (hroute _ _ _ _ htarget (sees_env cfg c _ false) rfl rfl) ?_)
    exact fun _ s hs => disks_setSide h hs

theorem accessControl_disks (h : ∀ isSlave, I isSlave (c.disks isSlave))
    (hroute : Routed cfg bad I c (.access .control read offset data)) :
    wp bad (accessControl cfg read offset data)
      (fun _ c' => ∀ isSlave, I isSlave (c'.disks isSlave)) c := by
  unfold accessControl
  simp only [wp_bind, wp_get, wp_ite]
  refine ⟨fun hread => ?_, fun hread => ?_⟩
  · subst hread
    refine wp_discard.mpr (wp_onDisk.mpr ?_)
    have hcall := hroute c.selectBit (.readControl offset data.length) _ (c.side c.selectBit) rfl
      (sees_env cfg c c.selectBit false) rfl rfl
    exact wp.mono (wp_discard.mp hcall) fun _ s hs => disks_setSide h hs
  · have hread : read = false := Bool.eq_false_iff.mpr hread
    subst hread
    refine wp_onDisk.mpr (wp.mono (hroute _ (.writeControl offset data) _ _ rfl
      (sees_env cfg c _ false) rfl rfl) ?_)
    exact fun _ s hs => disks_setSide h hs

theorem startOrStop_disks (h : ∀ isSlave, I isSlave (c.disks isSlave))
    (hroute : Routed cfg bad I c (.access .bmi false 0 data)) :
    wp bad (startOrStop cfg ((c.oldBMICommand (data.headD 0)).getLsbD 0)
      ((data.headD 0).getLsbD 0))
      (fun _ c' => ∀ isSlave, I isSlave (c'.disks isSlave)) c := by
  unfold startOrStop
  simp only [wp_bind, wp_get, wp_ite, wp_when, wp_modify, wp_onDisk]
  refine ⟨fun hstop => ?_, fun hnostop => ⟨fun hgo => ?_, fun _ => h⟩⟩
  · have htarget : c.route (.access .bmi false 0 data) = some (c.selectBit, .abortDma) := by
      unfold route
      exact if_pos hstop
    exact wp.mono (hroute _ _ _ _ htarget (sees_env cfg c _ false) rfl rfl) fun _ s hs =>
      disks_setSide (c := c.setBmi 2 _) h hs
  · obtain ⟨hclear, hbit⟩ := Bool.and_eq_true_iff.mp hgo
    have hclear := Bool.not_eq_eq_eq_not.mp hclear
    have htarget : c.route (.access .bmi false 0 data) =
        some (c.selectBit, .startDma c.bmidtp) := by
      unfold route
      exact (if_neg hnostop).trans (if_pos ⟨hclear, hbit⟩)
    exact wp.mono (hroute _ _ _ _ htarget (sees_env cfg c _ false) rfl rfl) fun _ s hs =>
      disks_setSide (c := c.setBmi 2 _) h hs

theorem accessBMI_disks (hbad : Only bad) (h : ∀ isSlave, I isSlave (c.disks isSlave))
    (hroute : Routed cfg bad I c (.access .bmi read offset data)) :
    wp bad (accessBMI cfg read offset data)
      (fun _ c' => ∀ isSlave, I isSlave (c'.disks isSlave)) c := by
  unfold accessBMI writeBMICommand
  simp only [wp_bind, wp_when, wp_throw]
  refine ⟨fun _ => hbad.2.1, fun _ => ⟨fun hread => ?_, fun _ => h⟩⟩
  have hread : read = false := Bool.not_eq_eq_eq_not.mp hread
  subst hread
  split
  · simp only [wp_bind, wp_when, wp_throw, wp_get, wp_modify]
    exact ⟨fun _ => hbad.2.2, fun _ => startOrStop_disks h hroute⟩
  · simp only [wp_bind, wp_when, wp_throw]
    exact ⟨fun _ => hbad.2.2, fun _ => h⟩
  · simp only [wp_bind, wp_when, wp_throw]
    exact ⟨fun _ => hbad.2.2, fun _ => h⟩
  · exact h

/-- What the calls to the disks keep, the channel keeps. -/
theorem call_disks (hbad : Only bad) (h : ∀ isSlave, I isSlave (c.disks isSlave))
    (hroute : Routed cfg bad I c input) :
    wp bad (call cfg input) (fun _ c' => ∀ isSlave, I isSlave (c'.disks isSlave)) c := by
  cases input with
  | access block read offset data =>
    refine wp_bind.mpr (wp_when.mpr ⟨fun _ => hbad.2.2, fun _ => ?_⟩)
    cases block with
    | command => exact accessCommand_disks h hroute
    | control => exact accessControl_disks h hroute
    | bmi => exact accessBMI_disks hbad h hroute
  | guestWrite addr data | setMode mode => exact h
  | event isSlave e busy =>
    refine wp_bind.mpr (wp_get.mpr (wp_onDisk.mpr ?_))
    exact wp.mono (hroute isSlave (.event e) _ _ rfl (sees_env cfg c isSlave busy) rfl rfl)
      fun _ s hs => disks_setSide h hs
  | serve isSlave i =>
    refine wp_onDisk.mpr ?_
    exact wp.mono (hroute isSlave (.serve i) _ _ rfl (sees_env cfg c isSlave false) rfl rfl)
      fun _ s hs => disks_setSide h hs
  | ack isSlave =>
    refine wp_onDisk.mpr ?_
    exact wp.mono (hroute isSlave .ack _ _ rfl (sees_env cfg c isSlave false) rfl rfl)
      fun _ s hs => disks_setSide h hs

end IdeChannel

end PardG5V
