import Mathlib.Algebra.GroupWithZero.Nat
import Mathlib.Data.List.Basic

/-!
# Addresses, guests and the ways the simulator stops

The types of `hyper/base/pardg5v.hh` and `base/types.hh` that every component
shares. An address is a 64-bit word, and all address arithmetic wraps as it
does in the source. A QoS tag is a 64-bit word whose low eight bits name the
guest.
-/

namespace PardG5V

abbrev Addr := BitVec 64

abbrev GuestID := BitVec 16

abbrev LDomID := BitVec 16

abbrev Byte := BitVec 8

abbrev Tick := Nat

/-- `ALL_GUEST`: the guest id an invalidated block is given. -/
def allGuest : GuestID := 0xFF

def qosTagToGuestID (tag : BitVec 64) : GuestID :=
  (tag &&& 0xFF).setWidth 16

/-- The guest of a tag survives the 32-bit field of a block. -/
theorem qosTagToGuestID_narrow (tag : BitVec 64) :
    qosTagToGuestID ((tag.setWidth 32).signExtend 64) = qosTagToGuestID tag := by
  apply BitVec.eq_of_getLsbD_eq
  intro i hi
  have hlow : ((tag.setWidth 32).signExtend 64).getLsbD i = tag.getLsbD i := by
    have h64 : i < 64 := by omega
    have h32 : i < 32 := by omega
    rw [BitVec.getLsbD_signExtend, if_pos h32, BitVec.getLsbD_setWidth, decide_eq_true h64,
      decide_eq_true h32, Bool.true_and, Bool.true_and]
  simp only [qosTagToGuestID, BitVec.getLsbD_setWidth, BitVec.getLsbD_and, hlow]

def setGuestID (tag : BitVec 64) (guest : GuestID) : BitVec 64 :=
  (tag &&& 0xFFFFFFFFFFFFFF00) ||| (guest.setWidth 64 &&& 0xFF)

/-- The ways a call leaves the simulator: a failed `assert`, a `panic`, a `fatal`, or an unchecked
access outside an array. The assertions on the kind of a target and on the in-service flag of a
register are told apart. -/
inductive Abort
  | assertion
  | targetKind
  | notInService
  | panicked
  | fatal
  | outOfBounds
deriving DecidableEq, Repr

/-- An `assert(c)` that stops the simulator with `abort`. -/
def assertOr (abort : Abort) (c : Bool) : Except Abort Unit :=
  if c then .ok () else .error abort

def assert (c : Bool) : Except Abort Unit := assertOr .assertion c

@[simp] theorem assert_true : assert true = .ok () := rfl

@[simp] theorem assertOr_eq_ok {abort : Abort} {c : Bool} {u : Unit} :
    assertOr abort c = .ok u ↔ c = true := by
  cases c with
  | false | true => simp [assertOr]

@[simp] theorem assert_eq_ok {c : Bool} {u : Unit} : assert c = .ok u ↔ c = true := assertOr_eq_ok

end PardG5V
