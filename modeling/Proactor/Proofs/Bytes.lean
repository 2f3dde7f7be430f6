import Mathlib.Algebra.Group.Nat.Defs
import Proactor.Bytes

/-!
# Numbers as byte strings

A number laid out in a fixed number of bytes is read back modulo what they can hold.
-/

namespace Proactor.Bytes

/-- Reading back a little-endian number gives it modulo the width. -/
theorem toNatLE_ofNatLE (width n : Nat) : toNatLE (ofNatLE width n) = n % 256 ^ width := by
  induction width generalizing n with
  | zero => simp [ofNatLE, toNatLE, Nat.mod_one]
  | succ width ih =>
    have hb : (UInt8.ofNat n).toNat = n % 256 := by simp
    have hp : 256 ^ (width + 1) = 256 * 256 ^ width := by rw [Nat.pow_succ, Nat.mul_comm]
    rw [hp, Nat.mod_mul, ofNatLE, toNatLE, ih, hb]

/-- Reading back a big-endian number gives it modulo the width. -/
theorem toNatBE_ofNatBE (width n : Nat) : toNatBE (ofNatBE width n) = n % 256 ^ width := by
  simp [toNatBE, ofNatBE, toNatLE_ofNatLE]

/-- Bytes are the layout of the number that they are read as. -/
theorem ofNatLE_toNatLE (bs : Bytes) : ofNatLE bs.length (toNatLE bs) = bs := by
  induction bs with
  | nil => rfl
  | cons b bs ih =>
    have hb := b.toNat_lt
    have hrest : (b.toNat + 256 * toNatLE bs) / 256 = toNatLE bs := by omega
    have hfirst : UInt8.ofNat (b.toNat + 256 * toNatLE bs) = b := by
      apply UInt8.toNat_inj.mp
      rw [UInt8.toNat_ofNat']
      omega
    rw [List.length_cons, toNatLE, ofNatLE, hrest, hfirst, ih]

/-- The same with the high byte first. -/
theorem ofNatBE_toNatBE (bs : Bytes) : ofNatBE bs.length (toNatBE bs) = bs := by
  have hlength : bs.length = bs.reverse.length := List.length_reverse.symm
  rw [ofNatBE, toNatBE, hlength, ofNatLE_toNatLE, List.reverse_reverse]

/-- A number of `bs.length` bytes is below `256 ^ bs.length`. -/
theorem toNatLE_lt (bs : Bytes) : toNatLE bs < 256 ^ bs.length := by
  induction bs with
  | nil => simp [toNatLE]
  | cons b bs ih =>
    have hb := b.toNat_lt
    simp only [toNatLE, List.length_cons, Nat.pow_succ]
    omega

end Proactor.Bytes
