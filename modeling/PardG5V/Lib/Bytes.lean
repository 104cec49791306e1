import Mathlib.Algebra.GroupWithZero.Nat
import Mathlib.Data.List.Basic
import Mathlib.Data.Nat.Basic

/-!
# Windows of a byte memory and little-endian words

A memory is a function from positions to bytes. `load` copies a window of it into
a list and `store` copies a list over a window, as `memcpy` does. `littleEndian` and
`value` turn a number into the bytes of a little-endian word and back.
-/

namespace Bytes

variable {mem : Nat → BitVec 8} {off size : Nat} {data : List (BitVec 8)}

def load (mem : Nat → BitVec 8) (off size : Nat) : List (BitVec 8) :=
  (List.range size).map fun i => mem (off + i)

/-- `mem` with `data` copied over the window that starts at `off`. -/
def store (mem : Nat → BitVec 8) (off : Nat) (data : List (BitVec 8)) : Nat → BitVec 8 := fun i =>
  if off ≤ i then (data[i - off]?).getD (mem i) else mem i

@[simp] theorem length_load (mem : Nat → BitVec 8) (off size : Nat) :
    (load mem off size).length = size := by
  simp [load]

theorem load_store_same
    (hsize : data.length = size) : load (store mem off data) off size = data := by
  subst hsize
  apply List.ext_getElem
  · simp
  · intro i _ hi
    simp [load, store, hi]

theorem load_store_apart {off' : Nat} (hapart : off + data.length ≤ off' ∨ off' + size ≤ off) :
    load (store mem off data) off' size = load mem off' size := by
  apply List.map_congr_left
  intro i hi
  rw [List.mem_range] at hi
  unfold store
  split
  · have hend : data.length ≤ off' + i - off := by omega
    rw [List.getElem?_eq_none hend]
    rfl
  · rfl

/-! ## Little-endian words -/

/-- The `n` low bytes of a number, the lowest first. -/
def littleEndian : Nat → Nat → List (BitVec 8)
  | 0, _ => []
  | n + 1, x => BitVec.ofNat 8 x :: littleEndian n (x / 256)

/-- The number whose bytes are given, the lowest first. -/
def value : List (BitVec 8) → Nat
  | [] => 0
  | b :: bs => b.toNat + 256 * value bs

@[simp] theorem length_littleEndian (n x : Nat) : (littleEndian n x).length = n := by
  induction n generalizing x with
  | zero => rfl
  | succ n ih => simp [littleEndian, ih]

theorem value_littleEndian (n x : Nat) : value (littleEndian n x) = x % 256 ^ n := by
  induction n generalizing x with
  | zero => simp [littleEndian, value, Nat.mod_one]
  | succ n ih =>
    have hdigit : x % 256 ^ (n + 1) = x % 256 + 256 * (x / 256 % 256 ^ n) := by
      rw [Nat.pow_succ', Nat.mod_mul]
    rw [littleEndian, value, ih, hdigit]
    rfl

end Bytes
