import Mathlib.Algebra.GroupWithZero.Nat
import Mathlib.Data.List.Basic

/-! Signed numbers as bytes of seven bits each: zigzag first, then LEB128. -/

namespace Varint

/-- Numbers of both signs in one order: 0, -1, 1, -2 and so on. -/
def zigzag (v : Int) : Nat := if 0 ≤ v then (2 * v).toNat else (-2 * v - 1).toNat

/-- A number in groups of seven bits, the lowest first, with every group but the last marked. -/
def leb128 (n : Nat) : List UInt8 :=
  if n < 128 then [UInt8.ofNat n] else UInt8.ofNat (n % 128 + 128) :: leb128 (n / 128)
termination_by n
decreasing_by omega

/-- One group is enough for a number below 128. -/
@[simp] theorem length_leb128_of_lt {n : Nat} (small : n < 128) : (leb128 n).length = 1 := by
  rw [leb128, if_pos small]
  rfl

/-- A number from 128 on takes one group more than what is left of it. -/
theorem length_leb128_of_le {n : Nat} (large : 128 ≤ n) :
    (leb128 n).length = (leb128 (n / 128)).length + 1 := by
  rw [leb128, if_neg (Nat.not_lt.mpr large), List.length_cons]

section Bits

variable {w : Nat} {v : BitVec (w + 1)}

/-- Only the sign is at the top. -/
theorem ushiftRight_eq_zero (plain : v.msb = false) : v >>> w = 0#(w + 1) := by
  have small := BitVec.toNat_lt_of_msb_false plain
  rw [Nat.add_sub_cancel] at small
  apply BitVec.eq_of_toNat_eq
  rw [BitVec.toNat_ushiftRight, Nat.shiftRight_eq_div_pow]
  simpa using small

/-- The bits that are written are those of the zigzag, at either sign. -/
theorem toNat_zigzag : ((v <<< 1) ^^^ v.sshiftRight w).toNat = zigzag v.toInt := by
  -- What the sign is spread into is all zeros or all ones, so the rest is kept or flipped.
  cases sign : v.msb with
  | false =>
    have small := BitVec.toNat_lt_of_msb_false sign
    rw [Nat.add_sub_cancel] at small
    rw [BitVec.sshiftRight_eq_of_msb_false sign, ushiftRight_eq_zero sign, BitVec.xor_zero,
      BitVec.toInt_eq_toNat_of_msb sign, zigzag, if_pos (Int.natCast_nonneg _),
      BitVec.toNat_shiftLeft, Nat.shiftLeft_eq, Nat.pow_succ]
    rw [Nat.mod_eq_of_lt (by omega)]
    omega
  | true =>
    have large := BitVec.toNat_ge_of_msb_true sign
    have below := v.isLt
    have flipped : (~~~v).msb = false := by simp [sign]
    rw [BitVec.sshiftRight_eq_of_msb_true sign, ushiftRight_eq_zero flipped, BitVec.not_zero,
      BitVec.xor_allOnes]
    have value : v.toInt = (v.toNat : Int) - ((2 ^ (w + 1) : Nat) : Int) := by
      rw [BitVec.toInt_eq_msb_cond, if_pos sign]
    rw [value, BitVec.toNat_not, BitVec.toNat_shiftLeft, Nat.shiftLeft_eq, zigzag]
    rw [Nat.add_sub_cancel] at large
    rw [Nat.pow_succ] at below ⊢
    generalize 2 ^ w = half at large below ⊢
    have doubled : v.toNat * 2 ^ 1 = v.toNat * 2 := by omega
    have wraps : v.toNat * 2 % (half * 2) = v.toNat * 2 - half * 2 := by
      rw [Nat.mod_eq_sub_mod (by omega), Nat.mod_eq_of_lt (by omega)]
    rw [doubled, wraps, if_neg (by omega)]
    omega

end Bits

end Varint
