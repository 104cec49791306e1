import PardG5V.Cache.Mshr

/-!
# Queues of miss status registers

`hyper/mem/cache/mshr_queue.hh` and `mshr_queue.cc`. A queue owns a fixed array of
registers and three lists of register numbers: the allocated ones in order of
allocation, those that wait to be issued in order of their ready time, and the
free ones.
-/

namespace PardG5V

structure MSHRQueue where
  numEntries : Int
  numReserve : Int
  registers : Nat → MSHR
  allocatedList : List Nat := []
  readyList : List Nat := []
  freeList : List Nat
  allocated : Int := 0
  inServiceEntries : Int := 0

namespace MSHRQueue

def initial (numEntries reserve : Nat) : MSHRQueue where
  numEntries := numEntries + reserve - 1
  numReserve := reserve
  registers _ := {}
  freeList := List.range (numEntries + reserve - 1)

def setReg (q : MSHRQueue) (i : Nat) (m : MSHR) : MSHRQueue :=
  { q with registers := fun j => if j = i then m else q.registers j }

@[simp] theorem registers_setReg (q : MSHRQueue) (i j : Nat) (m : MSHR) :
    (q.setReg i m).registers j = if j = i then m else q.registers j := rfl

@[simp] theorem setReg_setReg (q : MSHRQueue) (i : Nat) (m m' : MSHR) :
    (q.setReg i m).setReg i m' = q.setReg i m' := by
  unfold setReg
  congr 1
  funext j
  by_cases hj : j = i
  · simp [hj]
  · simp [hj]

def isMatch (m : MSHR) (guest : GuestID) (addr : Addr) (isSecure : Bool) : Bool :=
  m.guest == guest && m.addr == addr && m.isSecure == isSecure

def findMatch (q : MSHRQueue) (guest : GuestID) (addr : Addr) (isSecure : Bool) : Option Nat :=
  q.allocatedList.find? fun i => isMatch (q.registers i) guest addr isSecure

def findMatches (q : MSHRQueue) (guest : GuestID) (addr : Addr) (isSecure : Bool) : List Nat :=
  q.allocatedList.filter fun i => isMatch (q.registers i) guest addr isSecure

/-- The test of `findPending`: the two byte ranges meet, by 64-bit arithmetic. -/
def isPending (m : MSHR) (guest : GuestID) (addr : Addr) (size : Nat) (isSecure : Bool) : Bool :=
  m.guest == guest && m.isSecure == isSecure &&
    if m.addr < addr then decide (addr < m.addr + BitVec.ofNat 64 m.size)
    else decide (m.addr < addr + BitVec.ofNat 64 size)

def findPending (q : MSHRQueue) (guest : GuestID) (addr : Addr) (size : Nat) (isSecure : Bool) :
    Option Nat :=
  q.readyList.find? fun i => isPending (q.registers i) guest addr size isSecure

/-- The loop of `addToReadyList`: inserts before the first register that becomes
ready later. -/
def insertReady (registers : Nat → MSHR) (i : Nat) : List Nat → List Nat
  | [] => [i]
  | j :: js =>
    if (registers i).readyTime < (registers j).readyTime then i :: j :: js
    else j :: insertReady registers i js

/-- `addToReadyList`: at the end unless the last register becomes ready later. -/
def addToReadyList (q : MSHRQueue) (i : Nat) : MSHRQueue :=
  { q with
    readyList := match q.readyList.getLast? with
      | none => [i]
      | some last =>
        if (q.registers last).readyTime ≤ (q.registers i).readyTime then q.readyList ++ [i]
        else insertReady q.registers i q.readyList }

def isFull (q : MSHRQueue) : Bool := q.numEntries - q.numReserve < q.allocated

def allocate (q : MSHRQueue) (guest : GuestID) (addr : Addr) (size : Nat) (pkt : Packet)
    (now whenReady : Tick) (order : Nat) : Except Abort (MSHRQueue × Nat) :=
  match q.freeList with
  | [] => .error .assertion
  | i :: free => do
    assert ((q.registers i).getNumTargets == 0)
    let m ← (q.registers i).allocate guest addr size pkt now whenReady order
    let q := { q.setReg i m with
      freeList := free
      allocatedList := q.allocatedList ++ [i]
      allocated := q.allocated + 1 }
    return (q.addToReadyList i, i)

def deallocate (q : MSHRQueue) (i : Nat) : Except Abort MSHRQueue := do
  let m ← (q.registers i).deallocate
  let q := { q with
    allocatedList := q.allocatedList.erase i
    freeList := i :: q.freeList
    allocated := q.allocated - 1 }
  let q := if (q.registers i).inService then { q with inServiceEntries := q.inServiceEntries - 1 }
    else { q with readyList := q.readyList.erase i }
  return q.setReg i m

def markInService (q : MSHRQueue) (i : Nat) (pkt : Packet) : Except Abort MSHRQueue := do
  let (m, done) ← (q.registers i).markInService pkt
  let q := q.setReg i m
  if done then q.deallocate i
  else
    return { q with
      readyList := q.readyList.erase i
      inServiceEntries := q.inServiceEntries + 1 }

def markPending (q : MSHRQueue) (i : Nat) : Except Abort MSHRQueue := do
  assertOr .notInService (q.registers i).inService
  let q := q.setReg i { q.registers i with inService := false }
  return { q with inServiceEntries := q.inServiceEntries - 1 }.addToReadyList i

/-- `getNextMSHR`: the head of the ready list once it is ready. -/
def getNextMSHR (q : MSHRQueue) (now : Tick) : Option Nat :=
  match q.readyList with
  | [] => none
  | i :: _ => if now < (q.registers i).readyTime then none else some i

theorem mem_of_getNextMSHR {q : MSHRQueue} {now : Tick} {i : Nat}
    (h : q.getNextMSHR now = some i) : i ∈ q.readyList := by
  unfold getNextMSHR at h
  cases hready : q.readyList with
  | nil =>
    rw [hready] at h
    exact nomatch h
  | cons j js =>
    rw [hready] at h
    have hj : j = i := by
      simp only [Option.ite_none_left_eq_some, Option.some.injEq] at h
      exact h.2
    rw [hj]
    exact List.mem_cons_self

/-- `nextMSHRReadyTime`, with `none` for `MaxTick`. -/
def nextMSHRReadyTime (q : MSHRQueue) : Option Tick :=
  q.readyList.head?.map fun i => (q.registers i).readyTime

end MSHRQueue

end PardG5V
