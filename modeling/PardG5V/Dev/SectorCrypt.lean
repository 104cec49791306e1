import PardG5V.Basic

/-!
# The sector transform

`EncryptSector`, `Encrypt`, `DecryptSector` and `Decrypt` of `hyper/dev/dma_device.hh`. The
transform of a sector exchanges its bytes from both ends. It is applied in place, to as many whole
sectors as the size reaches into, so the last one may go beyond it.

Result: `sector_transform`.
-/

namespace PardG5V

def sectorSize : Nat := 512

/-- The sectors that a loop from zero in steps of `SectorSize` goes through below `size`. Its `int`
counter does not overflow for sizes up to `2 ^ 31 - 512`. -/
def sectorsIn (size : Nat) : Nat := (size + (sectorSize - 1)) / sectorSize

def swapBytes (data : Nat → Byte) (i j : Nat) : Nat → Byte := fun k =>
  if k = j then data i else if k = i then data j else data k

/-- The loop of `EncryptSector` after `n` rounds, on the sector at `off`. -/
def swapLoop (off : Nat) : Nat → (Nat → Byte) → Nat → Byte
  | 0, data => data
  | n + 1, data => swapBytes (swapLoop off n data) (off + n) (off + (sectorSize - 1 - n))

def encryptSector (off : Nat) (data : Nat → Byte) : Nat → Byte :=
  swapLoop off (sectorSize / 2) data

/-- A transform of a sector on `n` sectors from `off` on. -/
def onSectors (f : Nat → (Nat → Byte) → Nat → Byte) (off : Nat) : Nat → (Nat → Byte) → Nat → Byte
  | 0, data => data
  | n + 1, data => f (off + sectorSize * n) (onSectors f off n data)

def encrypt (size off : Nat) (data : Nat → Byte) : Nat → Byte :=
  onSectors encryptSector off (sectorsIn size) data

def decryptSector (off : Nat) (data : Nat → Byte) : Nat → Byte :=
  swapLoop off (sectorSize / 2) data

def decrypt (size off : Nat) (data : Nat → Byte) : Nat → Byte :=
  onSectors decryptSector off (sectorsIn size) data

/-! ## What the transform does -/

/-- The byte of the result at `k` is the one at `mirror off n k`, for `n` sectors from `off` on. -/
def mirror (off n k : Nat) : Nat :=
  if off ≤ k ∧ k < off + 512 * n then off + 512 * ((k - off) / 512) + (511 - (k - off) % 512) else k

namespace SectorLemmas

variable {data : Nat → Byte}

/-- After `n` rounds the outer `n` bytes at both ends are exchanged. -/
theorem swapLoop_apply (off n : Nat) (hn : n ≤ 256) (k : Nat) :
    swapLoop off n data k = data (if off ≤ k ∧ k < off + n ∨ off + 512 ≤ k + n ∧ k < off + 512
      then 2 * off + 511 - k else k) := by
  induction n generalizing k with
  | zero => rw [swapLoop, if_neg (by omega)]
  | succ n ih =>
    simp only [swapLoop, swapBytes, sectorSize, ih (by omega)]
    split_ifs <;> congr 1 <;> omega

theorem onSectors_apply (off n k : Nat) :
    onSectors encryptSector off n data k = data (mirror off n k) := by
  induction n generalizing k with
  | zero => rw [onSectors, mirror, if_neg (by omega)]
  | succ n ih =>
    simp only [onSectors, encryptSector, sectorSize]
    rw [swapLoop_apply _ _ (Nat.le_refl _), ih]
    unfold mirror
    congr 1
    split_ifs <;> omega

theorem mirror_mirror (off n k : Nat) : mirror off n (mirror off n k) = k := by
  unfold mirror
  split_ifs <;> omega

end SectorLemmas

open SectorLemmas

/-- Decryption undoes encryption, whatever the size. A region that is encrypted in two parts, the
first of whole sectors, is encrypted as a whole. -/
theorem sector_transform (size off : Nat) (data : Nat → Byte) :
    decrypt size off (encrypt size off data) = data ∧
    (∀ n, encrypt (sectorSize * n + size) off data =
      encrypt size (off + sectorSize * n) (encrypt (sectorSize * n) off data)) ∧
    ∀ k, encrypt size off data k = data (mirror off (sectorsIn size) k) := by
  refine ⟨funext fun k => ?_, fun n => funext fun k => ?_, onSectors_apply _ _⟩
  · show onSectors encryptSector off _ (onSectors encryptSector off _ data) k = _
    rw [onSectors_apply, onSectors_apply, mirror_mirror]
  · unfold encrypt
    rw [onSectors_apply, onSectors_apply, onSectors_apply]
    unfold mirror sectorsIn sectorSize
    congr 1
    split_ifs <;> omega

end PardG5V
