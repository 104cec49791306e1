import PardG5V.Basic
import PardG5V.Lib.Machine
import PardG5V.Lib.Wp

/-!
# The interrupts of the UART

`hyper/dev/uart8250p5v.cc` with the input of its terminal. The receive and the transmit interrupt
share the console interrupt of the platform. `consoleInt` says that it was posted and that
`clearConsoleInt` was not called since (the platform itself only warns that it cannot clear).

Results: `uart_interrupts_posted`, `uart_write_clears_receive`.
-/

namespace PardG5V

open Prog

inductive IntrEvent
  | rx
  | tx
deriving DecidableEq, Repr

/-- The bit of an event in the interrupt enable register, `UART_IER_RDI` or `UART_IER_THRI`. -/
def IntrEvent.bit : IntrEvent → Nat
  | .rx => 0
  | .tx => 1

/-- `Uart8250P5V`, with the input and output of its terminal. `status` is given by its two bits, and
an event is scheduled at a tick. -/
structure Uart where
  IER : Byte := 0
  LCR : Byte := 0
  MCR : Byte := 0
  status : IntrEvent → Bool := fun _ => false
  lastTxInt : Tick := 0
  scheduled : IntrEvent → Option Tick := fun _ => none
  rxbuf : List Byte := []
  out : List Byte := []
  consoleInt : Bool := false
  curTick : Tick := 0

namespace Uart

def enables (s : Uart) (e : IntrEvent) : Bool := s.IER.getLsbD e.bit

/-- The divisor latch is accessed in place of the data and the interrupt enable register. -/
def latched (s : Uart) : Bool := s.LCR.getLsbD 7

def hasData (s : Uart) : Bool := !s.rxbuf.isEmpty

def setBit (e : IntrEvent) (b : Bool) (s : Uart) : Uart :=
  { s with status := fun k => if k = e then b else s.status k }

def post (e : IntrEvent) (s : Uart) : Uart := { s.setBit e true with consoleInt := true }

def clearConsoleInt (s : Uart) : Uart := { s with consoleInt := false }

def process (e : IntrEvent) (s : Uart) : Uart :=
  if s.enables e then { s.post e with lastTxInt := s.curTick } else s

def setEvent (e : IntrEvent) (t : Option Tick) (s : Uart) : Uart :=
  { s with scheduled := fun k => if k = e then t else s.scheduled k }

/-- `scheduleIntr()`, `interval` ticks from now. -/
def scheduleIntr (interval : Tick) (e : IntrEvent) (s : Uart) : Uart :=
  s.setEvent e (some (s.curTick + interval))

def cancel (e : IntrEvent) (s : Uart) : Uart :=
  let s := s.setEvent e none
  (if s.status e then s.clearConsoleInt else s).setBit e false

/-! ## Accesses -/

def takeByte (interval : Tick) (s : Uart) : Uart :=
  let s := ({ s with rxbuf := s.rxbuf.tail }.setBit .rx false).clearConsoleInt
  if s.hasData && s.enables .rx then s.scheduleIntr interval .rx else s

def sendByte (interval : Tick) (byte : Byte) (s : Uart) : Uart :=
  let s := ({ s with out := s.out ++ [byte] }.clearConsoleInt).setBit .tx false
  if s.enables .tx then s.scheduleIntr interval .tx else s

def enableTx (interval : Tick) (s : Uart) : Uart :=
  if s.enables .tx then
    if interval < s.curTick - s.lastTxInt then s.process .tx else s.scheduleIntr interval .tx
  else s.cancel .tx

def enableRx (interval : Tick) (s : Uart) : Uart :=
  if s.enables .rx && s.hasData then s.scheduleIntr interval .rx else s.cancel .rx

def writeIER (interval : Tick) (byte : Byte) (s : Uart) : Uart :=
  ({ s with IER := byte }.enableTx interval).enableRx interval

/-- A read of the interrupt identification register clears the transmit interrupt. -/
def readIIR (s : Uart) : Uart :=
  if s.status .rx then s else if s.status .tx then s.setBit .tx false else s

/-- What is read from a register, or nothing where the packet is not filled. -/
def value (s : Uart) (daddr : Nat) : Option Byte :=
  match daddr with
  | 0 => if s.latched then none else some (s.rxbuf.headD 0)
  | 1 => if s.latched then none else some s.IER
  | 2 => some (if s.status .rx then 4 else if s.status .tx then 2 else 1)
  | 3 => some s.LCR
  | 4 => some s.MCR
  | 5 => some ((if s.hasData then 1 else 0) ||| 0x40 ||| 0x20)
  | _ => some 0

def afterRead (interval : Tick) (daddr : Nat) (s : Uart) : Uart :=
  match daddr with
  | 0 => if s.latched then s else s.takeByte interval
  | 2 => s.readIIR
  | _ => s

def read (interval : Tick) (daddr size : Nat) : Prog Abort Uart (Option Byte) := do
  Prog.when (decide (8 ≤ daddr) || size != 1) (throw .assertion)
  let s ← get
  modify (afterRead interval daddr)
  return s.value daddr

def afterWrite (interval : Tick) (daddr : Nat) (byte : Byte) (s : Uart) : Uart :=
  match daddr with
  | 0 => if s.latched then s else s.sendByte interval byte
  | 1 => if s.latched then s else s.writeIER interval byte
  | 3 => { s with LCR := byte }
  | 4 => if byte = 0x1a then { s with MCR := 0x9a } else s
  | _ => s

def write (interval : Tick) (daddr : Nat) (data : List Byte) : Prog Abort Uart Unit := do
  Prog.when (decide (8 ≤ daddr) || data.length != 1) (throw .assertion)
  Prog.when (daddr == 5 || daddr == 6) (throw .panicked)
  modify (afterWrite interval daddr (data.headD 0))

/-- `dataAvailable()`, after the terminal has put bytes into its buffer, which drops its oldest
when it is full. -/
def dataAvailable (data : List Byte) (s : Uart) : Uart :=
  let rxbuf := (s.rxbuf ++ data).drop (s.rxbuf.length + data.length - 16384)
  let s := { s with rxbuf }
  if s.enables .rx then s.post .rx else s

end Uart

inductive UartInput
  | read (daddr size : Nat)
  | write (daddr : Nat) (data : List Byte)
  | arrive (data : List Byte)
  | event (e : IntrEvent)
  | wait (ticks : Tick)
deriving DecidableEq, Repr

namespace Uart

def call (interval : Tick) : UartInput → Prog Abort Uart Unit
  | .read daddr size => discard (read interval daddr size)
  | .write daddr data => write interval daddr data
  | .arrive data => modify (dataAvailable data)
  | .event e => modify fun s => (s.setEvent e none).process e
  | .wait ticks => modify fun s => { s with curTick := s.curTick + ticks }

/-- The terminal reads at most 1024 bytes at once. An event runs at its tick, and time does not
pass a tick at which one is scheduled. -/
def Enabled (s : Uart) : UartInput → Prop
  | .read _ _ | .write _ _ => True
  | .arrive data => data ≠ [] ∧ data.length ≤ 1024
  | .event e => s.scheduled e = some s.curTick
  | .wait ticks => ((s.scheduled .rx).all (s.curTick + ticks ≤ ·) &&
      (s.scheduled .tx).all (s.curTick + ticks ≤ ·)) = true

instance (s : Uart) (input : UartInput) : Decidable (s.Enabled input) := by
  cases input <;> unfold Enabled <;> infer_instance

def machine (interval : Tick) : Machine Abort Uart UartInput where
  start s := s = {}
  enabled := Enabled
  call := call interval

instance (interval : Tick) (s : Uart) (input : UartInput) :
    Decidable ((machine interval).enabled s input) :=
  inferInstanceAs (Decidable (s.Enabled input))

/-! ## The two laws -/

/-- Where the status word has an interrupt, it is posted and was not cleared since. -/
def Raised (s : Uart) : Prop :=
  s.status .rx = true ∨ s.status .tx = true → s.consoleInt = true

/-- A guest that wants to be told of input is told, or will be. -/
def Hears (s : Uart) : Prop :=
  s.hasData = true → s.enables .rx = true →
    s.status .rx = true ∨ (s.scheduled .rx).isSome = true

/-- The input does not clear the interrupt for one cause while the other one is pending. -/
def Apart (interval : Tick) (s : Uart) : UartInput → Prop
  | .read 0 _ => s.latched = false → s.status .tx = false
  | .write 0 _ => s.latched = false → s.status .rx = false
  | .write 1 data => s.latched = false → s.status .rx = true →
      -- the receive interrupt is cancelled, or the transmit interrupt is
      let cancels := !((data.headD 0).getLsbD 0 && s.hasData)
      if (data.headD 0).getLsbD 1 then
        cancels = true → s.status .tx = false ∧ s.curTick - s.lastTxInt ≤ interval
      else s.status .tx = true → cancels = true
  | _ => True

namespace UartLemmas

variable {interval : Tick} {s s' : Uart}

/-- The UART after an input that does not stop the simulator. -/
def next (interval : Tick) (input : UartInput) (s : Uart) : Uart :=
  match input with
  | .read daddr _ => s.afterRead interval daddr
  | .write daddr data => s.afterWrite interval daddr (data.headD 0)
  | .arrive data => s.dataAvailable data
  | .event e => (s.setEvent e none).process e
  | .wait ticks => { s with curTick := s.curTick + ticks }

theorem call_next {input : UartInput} (h : call interval input s = .ok ((), s')) :
    next interval input s = s' := by
  cases input with
  | read daddr size =>
    simp only [call, read, discard_eq_ok, bind_eq_ok, when_eq_ok, throw_ne_ok, get_eq_ok,
      modify_eq_ok, pure_eq_ok] at h
    grind [next]
  | write daddr data =>
    simp only [call, write, bind_eq_ok, when_eq_ok, throw_ne_ok, modify_eq_ok] at h
    grind [next]
  | arrive data | event e | wait ticks => exact modify_eq_ok.mp h

/-- Input that the guest wants to be told of is not forgotten by any input. -/
theorem hears_next (h : s.Hears) (input : UartInput) : (next interval input s).Hears := by
  unfold Hears at h ⊢
  cases input with
  | read daddr size =>
    simp only [next, afterRead, takeByte, readIIR, clearConsoleInt, scheduleIntr, setEvent, setBit,
      hasData, enables] at h ⊢
    grind
  | write daddr data =>
    simp only [next, afterWrite, sendByte, writeIER, enableTx, enableRx, process, cancel, post,
      clearConsoleInt, scheduleIntr, setEvent, setBit, hasData, enables] at h ⊢
    grind
  | arrive data =>
    simp only [next, dataAvailable, post, setBit, hasData, enables] at h ⊢
    grind
  | event e =>
    simp only [next, process, setEvent, post, setBit, hasData, enables] at h ⊢
    grind
  | wait ticks => exact h

theorem enableTx_spec (interval : Nat) (s : Uart) :
    (s.enableTx interval).status .rx = s.status .rx ∧
    (s.enableTx interval).status .tx =
      (s.enables .tx && (s.status .tx || decide (interval < s.curTick - s.lastTxInt))) ∧
    (s.enableTx interval).consoleInt = (if s.enables .tx then
      s.consoleInt || decide (interval < s.curTick - s.lastTxInt)
      else s.consoleInt && !s.status .tx) ∧
    (s.enableTx interval).enables .rx = s.enables .rx ∧
    (s.enableTx interval).hasData = s.hasData := by
  simp only [enableTx, process, cancel, post, clearConsoleInt, scheduleIntr, setEvent, setBit]
  grind [enables, hasData]

theorem raised_enableRx_iff : (s.enableRx interval).Raised ↔
    if s.enables .rx && s.hasData then s.Raised
    else s.status .tx = true → s.status .rx = false ∧ s.consoleInt = true := by
  simp only [enableRx, cancel, clearConsoleInt, scheduleIntr, setEvent, setBit, Raised]
  grind

theorem raised_next_iff (h : s.Raised) (input : UartInput) :
    (next interval input s).Raised ↔ s.Apart interval input := by
  cases input with
  | read daddr size =>
    match daddr with
    | 0 =>
      simp only [next, afterRead, takeByte, clearConsoleInt, scheduleIntr, setEvent, setBit, Apart]
      grind [Raised]
    | 2 =>
      refine iff_true_intro ?_
      simp only [next, afterRead, readIIR, setBit]
      grind [Raised]
    | 1 | _ + 3 => exact iff_true_intro h
  | write daddr data =>
    match daddr with
    | 0 =>
      simp only [next, afterWrite, sendByte, clearConsoleInt, scheduleIntr, setEvent, setBit, Apart]
      grind [Raised]
    | 1 =>
      have htx := enableTx_spec interval { s with IER := data.headD 0 }
      simp only [next, afterWrite, writeIER, Apart]
      split
      · grind
      · rw [raised_enableRx_iff]
        grind [Raised, enables, hasData, IntrEvent.bit]
    | 4 =>
      refine iff_true_intro ?_
      show (if _ then _ else s).Raised
      split <;> exact h
    | 2 | 3 | _ + 5 => exact iff_true_intro h
  | arrive data =>
    refine iff_true_intro ?_
    simp only [next, dataAvailable, post, setBit]
    grind [Raised]
  | event e =>
    refine iff_true_intro ?_
    simp only [next, process, setEvent, post, setBit]
    grind [Raised]
  | wait ticks => exact iff_true_intro h

end UartLemmas

end Uart

open Uart UartLemmas Machine

/-- In every run, input that the guest wants has its interrupt pending or scheduled. As long as no
input clears the interrupt of one cause while the other is pending, a bit of the status word has its
interrupt posted, and the next input keeps this exactly if it does not do so either. -/
theorem uart_interrupts_posted (interval : Tick) : (∀ s, (machine interval).Reachable s → s.Hears) ∧
      ∀ s, (machine interval).ReachableBy (Apart interval) s → s.Raised ∧
        ∀ input s', s.Enabled input → call interval input s = .ok ((), s') →
          (s'.Raised ↔ s.Apart interval input) := by
  have hraised {s : Uart} (h : (machine interval).ReachableBy (Apart interval) s) : s.Raised := by
    refine h.invariant (fun s hstart => ?_) fun s input s' hs _ happart hcall => ?_
    · cases hstart
      exact nofun
    · rw [← call_next hcall]
      exact (raised_next_iff hs input).mpr happart
  constructor
  · intro s h
    refine h.invariant (fun s hstart => ?_) fun s input s' hs _ _ hcall => ?_
    · cases hstart
      exact nofun
    · rw [← call_next hcall]
      exact hears_next hs input
  · intro s h
    refine ⟨hraised h, fun input s' _ hcall => ?_⟩
    rw [← call_next hcall]
    exact raised_next_iff (hraised h) input

instance (interval : Tick) (s : Uart) (input : UartInput) : Decidable (s.Apart interval input) := by
  unfold Apart; split <;> infer_instance

/-- A byte arrives, the guest takes it, and sends another one. -/
theorem uart_interrupts_posted_echo :
    ∃ s, ((machine 225000).ReachableBy (Apart 225000) s ∧ s.out = [65]) ∧ s.Raised := by
  obtain ⟨s, hreach, hout⟩ := ReachableBy.exists_of_replay (p := fun s => s.out = [65])
    (.startup rfl : (machine 225000).ReachableBy (Apart 225000) {})
    [.write 1 [1], .arrive [65], .read 0 1, .write 0 [65]] (by decide +kernel)
  exact ⟨s, ⟨hreach, hout⟩, ((uart_interrupts_posted 225000).2 s hreach).1⟩

/-- With both interrupts enabled, a byte arrives and the guest sends one first: the receive bit
stays set without its interrupt. Taking a byte does the same to the transmit bit. -/
theorem uart_write_clears_receive :
    (∃ s, (machine 225000).Reachable s ∧ s.status .rx = true ∧ s.consoleInt = false) ∧
      ∃ s, (machine 225000).Reachable s ∧ s.status .tx = true ∧ s.consoleInt = false := by
  have hinit : (machine 225000).Reachable {} := .startup rfl
  constructor
  · refine hinit.exists_of_replay [.write 1 [3], .arrive [65], .write 0 [66]] ?_
    decide +kernel
  · refine hinit.exists_of_replay [.wait 225001, .write 1 [3], .arrive [65], .read 0 1] ?_
    decide +kernel

end PardG5V
