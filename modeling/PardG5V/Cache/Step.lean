import PardG5V.Cache.Atomic
import PardG5V.Lib.Machine

/-!
# Runs of a cache

One step is one call from outside: a packet that arrives on a port, the send event or a retry of a
port, a command of the control plane, or the passing of time. The environment is bound by what the
neighbours keep to: a response answers a packet that was accepted and keeps its address, guest and
request, and an event happens at its own tick.
-/

namespace PardG5V

/-- One call from outside, with the answers of the neighbours it needs. -/
inductive Input
  | timingReq (pkt : Packet)
  | timingResp (k : Nat) (reply : Reply) (above : Nat → SnoopAnswer)
  | timingSnoopReq (pkt : Packet) (above : SnoopAnswer)
  | timingSnoopResp (pkt : Packet) (above : Nat → SnoopAnswer)
  | memSend (bus : BusAnswer) (above : Nat → SnoopAnswer)
  | memRetry (bus : BusAnswer) (above : Nat → SnoopAnswer)
  | cpuSend (accepts : Bool)
  | cpuRetry (accepts : Bool)
  | retryEvent
  | atomicReq (pkt : Packet) (reply : Reply)
  | atomicSnoop (pkt : Packet) (above : AtomicAnswer)
  | memWriteback
  | memInvalidate
  | setWaymask (ldomID : LDomID) (destAddr : BitVec 32) (data : BitVec 64)
  | setByTag (tag : BitVec 64) (idx : Int) (mask : BitVec 64)
  | downstreamPending (q : QueueIndex) (i : Nat) (pending : Bool)
  | advance (tick : Tick)

namespace CacheM

variable {cfg : CacheConfig}

def timingResp (k : Nat) (reply : Reply) (above : Nat → SnoopAnswer) : CacheM cfg Unit := do
  let s ← get
  match s.outstanding[k]? with
  | none => check (.error .assertion)
  | some pkt => do
    modify fun s => { s with outstanding := s.outstanding.eraseIdx k }
    recvTimingResp (reply.apply pkt) above

def memSend (bus : BusAnswer) (above : Nat → SnoopAnswer) : CacheM cfg Unit := do
  let s ← get
  check (assert (s.memSide.sendEvent == some s.curTick))
  check (assert (!s.memSide.waitingOnRetry))
  modify fun s => { s with memSide := { s.memSide with sendEvent := none } }
  sendDeferredPacket bus above

def memRetry (bus : BusAnswer) (above : Nat → SnoopAnswer) : CacheM cfg Unit := do
  let s ← get
  check (assert s.memSide.waitingOnRetry)
  sendDeferredPacket bus above

def cpuSendDeferred (accepts : Bool) : CacheM cfg Unit := do
  let s ← get
  let (q, _) ← check (s.cpuSide.queue.trySendTiming s.curTick accepts)
  let q := if q.waitingOnRetry then q else q.scheduleSend s.curTick none
  modify fun s => { s with cpuSide := { s.cpuSide with queue := q } }

def cpuSend (accepts : Bool) : CacheM cfg Unit := do
  let s ← get
  check (assert (s.cpuSide.queue.sendEvent == some s.curTick))
  check (assert (!s.cpuSide.queue.waitingOnRetry))
  modify fun s => { s with cpuSide := { s.cpuSide with
    queue := { s.cpuSide.queue with sendEvent := none } } }
  cpuSendDeferred accepts

def cpuRetry (accepts : Bool) : CacheM cfg Unit := do
  let s ← get
  check (assert s.cpuSide.queue.waitingOnRetry)
  cpuSendDeferred accepts

def retryEvent : CacheM cfg Unit := do
  let s ← get
  check (assert (s.cpuSide.retryEvent == some s.curTick))
  modify fun s => { s with cpuSide := { s.cpuSide with retryEvent := none } }

def reprogram (set : LRU cfg → Except Abort (LRU cfg)) : CacheM cfg Unit := do
  let s ← get
  let tags ← check (set s.store.tags)
  modify fun s => { s with store := { s.store with tags := tags } }

/-- The cache below marks a register of this one, or clears the mark. -/
def markDownstream (q : QueueIndex) (i : Nat) (pending : Bool) : CacheM cfg Unit := do
  let s ← get
  let m := (s.queue q).registers i
  check (assert (m.downstreamPending != pending))
  modify fun s => s.setQueue q ((s.queue q).setReg i { m with downstreamPending := pending })

def advance (tick : Tick) : CacheM cfg Unit := do
  let s ← get
  check (assert (s.curTick ≤ tick))
  check (assert ([s.memSide.sendEvent, s.cpuSide.queue.sendEvent, s.cpuSide.retryEvent].all
    fun e => e.all (tick ≤ ·)))
  modify fun s => { s with curTick := tick }

def call : Input → CacheM cfg Unit
  | .timingReq pkt => do let _ ← cpuSideReq pkt; pure ()
  | .timingResp k reply above => timingResp k reply above
  | .timingSnoopReq pkt above => do let _ ← recvTimingSnoopReq pkt above; pure ()
  | .timingSnoopResp pkt above => recvTimingSnoopResp pkt above
  | .memSend bus above => memSend bus above
  | .memRetry bus above => memRetry bus above
  | .cpuSend accepts => cpuSend accepts
  | .cpuRetry accepts => cpuRetry accepts
  | .retryEvent => retryEvent
  | .atomicReq pkt reply => do let _ ← recvAtomic pkt reply; pure ()
  | .atomicSnoop pkt above => do let _ ← recvAtomicSnoop pkt above; pure ()
  | .memWriteback => onStore .memWriteback
  | .memInvalidate => onStore .memInvalidate
  | .setWaymask ldomID destAddr data => reprogram (·.set ldomID destAddr data)
  | .setByTag tag idx mask => reprogram (·.setByTag tag idx mask)
  | .downstreamPending q i pending => markDownstream q i pending
  | .advance tick => advance tick

end CacheM

namespace Cache

variable {cfg : CacheConfig}

/-- The machine of a new cache, which takes every input. -/
def machine (cfg : CacheConfig) : Machine Abort (Cache cfg) Input where
  start s := ∃ waymasks, s = .initial cfg waymasks
  enabled _ _ := True
  call := CacheM.call

instance decidableEnabled (s : Cache cfg) (input : Input) :
    Decidable ((machine cfg).enabled s input) :=
  inferInstanceAs (Decidable True)

/-- The states of the runs that start in a new cache and only see inputs that `P`
allows. -/
def Reachable (P : Input → Prop) (s : Cache cfg) : Prop :=
  (machine cfg).ReachableBy (fun _ input => P input) s

variable {P : Input → Prop}

/-- What holds of a new cache and is kept by every input holds in every run. -/
theorem Reachable.induct {I : Cache cfg → Prop} {s : Cache cfg} (h : Reachable P s)
    (hinit : ∀ waymasks, I (.initial cfg waymasks))
    (hstep : ∀ s input s', Reachable P s → I s → P input → CacheM.call input s = .ok ((), s') →
      I s') : I s := by
  induction h with
  | startup hstart =>
    obtain ⟨waymasks, rfl⟩ := hstart
    exact hinit waymasks
  | step hs _ hP hcall ih => exact hstep _ _ _ hs ih hP hcall

/-- A run that can be evaluated leads to a state with `test`. -/
theorem exists_reachable (waymasks : List (BitVec 64)) (inputs : List Input)
    (test : Cache cfg → Prop) [DecidablePred test] (hP : ∀ i ∈ inputs, P i)
    (h : ((machine cfg).replay (fun _ _ => True) (.initial cfg waymasks) inputs).any
      (decide <| test ·) = true) : ∃ s, Reachable P s ∧ test s := by
  obtain ⟨s, hreplay, htest⟩ := (Option.any_eq_true _ _).mp h
  have hstart : Reachable P (.initial cfg waymasks) := .startup ⟨waymasks, rfl⟩
  exact ⟨s, hstart.replay_imp hreplay fun _ i hi _ => hP i hi, of_decide_eq_true htest⟩

/-- Whether one more input leaves the simulator by the abort `e`. -/
def abortsWith (input : Input) (e : Abort) (s : Cache cfg) : Bool :=
  match CacheM.call input s with
  | .ok _ => false
  | .error e' => e' == e

theorem exists_abort (waymasks : List (BitVec 64)) (inputs : List Input) (input : Input) (e : Abort)
    (hP : ∀ i ∈ inputs, P i)
    (h : ((machine cfg).replay (fun _ _ => True) (.initial cfg waymasks) inputs).any
      (abortsWith input e) = true) :
    ∃ s : Cache cfg, Reachable P s ∧ CacheM.call input s = .error e := by
  obtain ⟨s, hs, habort⟩ :=
    exists_reachable waymasks inputs (abortsWith input e · = true) hP (by simpa using h)
  unfold abortsWith at habort
  split at habort
  · exact Bool.noConfusion habort
  · next e' hcall => exact ⟨s, hs, by rw [hcall, eq_of_beq habort]⟩

end Cache

/-! ## Concrete runs -/

def CacheConfig.oneBlock : CacheConfig where
  setShift := 2
  setBits := 0
  assoc := 1
  hitLatency := 1
  responseLatency := 1
  clockPeriod := 1
  mshrs := 4
  writeBuffers := 4
  numTarget := 8
  forwardSnoops := false
  isTopLevel := true
  isPrivate := false
  guestID := 0
  addrRanges := [⟨0, 0xFFFF, 0, 0, 0⟩]
  maxMasters := 8
  bypassCaches := false
  blkSize_ge := by decide
  assoc_pos := Nat.one_pos
  hitLatency_pos := Nat.one_pos
  setShift_lt := by decide
  setBits_lt := by decide

def CacheConfig.secondLevel : CacheConfig := { CacheConfig.oneBlock with isTopLevel := false }

def Cache.firstBlk {cfg : CacheConfig} (s : Cache cfg) : CacheBlk :=
  s.store.blk (.way 0 ⟨0, cfg.assoc_pos⟩)

def fourBytes (addr : Addr) : Request := { paddr := addr, size := 4, qosTag := 1 }

/-- The bus takes the next packet of the cache, and no one above answers. -/
def Input.send : Input := .memSend ⟨true, false, false⟩ fun _ => {}

def Input.miss (pkt : Packet) (reply : Reply) : List Input :=
  [.timingReq pkt, .advance 1, .send, .timingResp 0 reply fun _ => {}]

def readPkt (addr : Addr) : Packet := .allocate (.ofRequest (fourBytes addr) .ReadReq)

def writePkt (addr : Addr) : Packet :=
  { Packet.ofRequest (fourBytes addr) .WriteReq with data := some [9, 9, 9, 9] }

def readMiss : List Input :=
  Input.miss (readPkt 0) { cmd := .ReadResp, data := some [1, 2, 3, 4] }

def writeMiss : List Input :=
  Input.miss (writePkt 0) { cmd := .ReadExResp, data := some [1, 2, 3, 4] }

/-- The dirty block is about to be replaced: the response to a second miss is on its
way. -/
def secondMiss : List Input := writeMiss ++ [.timingReq (readPkt 4), .advance 2, .send]

end PardG5V
