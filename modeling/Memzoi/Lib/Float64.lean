/-
# Doubles in their total order

A library of its own: an IEEE 754 double as its bits, ordered as Rust's
`f64::total_cmp` orders doubles, with `max` and negation. Arithmetic is not
modelled.
-/

import Mathlib

/-- A double as its bits: sign, eleven bits of exponent, fifty-two of fraction. -/
structure F64 where
  bits : BitVec 64
  deriving DecidableEq, Repr

namespace F64

/-- `bits ^ (((bits >> 63) as u64) >> 1) as i64`: what `total_cmp` compares. -/
def totalKey (x : F64) : Int := (x.bits ^^^ ((x.bits.sshiftRight 63) >>> 1)).toInt

/-- The bit of the sign stays, and with it the mask. -/
theorem msb_totalKey (b : BitVec 64) : (b ^^^ ((b.sshiftRight 63) >>> 1)).msb = b.msb := by
  simp [BitVec.msb_xor, BitVec.msb_ushiftRight]

theorem sshiftRight_of_msb {a b : BitVec 64} (h : a.msb = b.msb) :
    a.sshiftRight 63 = b.sshiftRight 63 := by
  ext i hi
  rw [BitVec.getElem_sshiftRight, BitVec.getElem_sshiftRight]
  by_cases hzero : 63 + i < 64
  · have hi0 : i = 0 := by omega
    subst hi0
    have ha : a[63] = a.msb := by simp [BitVec.msb_eq_getLsbD_last, BitVec.getLsbD_eq_getElem]
    have hb : b[63] = b.msb := by simp [BitVec.msb_eq_getLsbD_last, BitVec.getLsbD_eq_getElem]
    simp [ha, hb, h]
  · simp [hzero, h]

theorem totalKey_injective : Function.Injective totalKey := by
  intro x y h
  have hbits := BitVec.toInt_inj.1 h
  have hmsb : x.bits.msb = y.bits.msb := by
    rw [← msb_totalKey x.bits, hbits, msb_totalKey]
  rw [sshiftRight_of_msb hmsb, BitVec.xor_left_inj] at hbits
  cases x
  cases y
  exact congrArg F64.mk hbits

/-- The order of `f64::total_cmp`. -/
instance : LinearOrder F64 := LinearOrder.lift' totalKey totalKey_injective

/-- `left.total_cmp(&right)`. -/
def totalCmp (left right : F64) : Ordering := compare left.totalKey right.totalKey

theorem totalCmp_eq_compare (left right : F64) : left.totalCmp right = compare left right := rfl

/-- The exponent is all ones and the fraction is not zero. -/
def isNan (x : F64) : Bool := 0x7ff0000000000000 < (x.bits &&& 0x7fffffffffffffff).toNat

/-- `left.max(right)`: a NaN gives way to the other value. -/
protected def max (left right : F64) : F64 :=
  if left.isNan then right else if right.isNan then left else Max.max left right

/-- The comparison of the engine, for numbers: both zeros are one. -/
def numKey (x : F64) : Int := if (x.bits &&& 0x7fffffffffffffff) = 0 then 0 else x.totalKey

/-- A number below 2 ^ 53 as a double. -/
def ofNat (n : Nat) : F64 :=
  if n = 0 then ⟨0⟩
  else ⟨BitVec.ofNat 64 ((1023 + n.log2) * 2 ^ 52 + (n - 2 ^ n.log2) * 2 ^ (52 - n.log2))⟩

/-- `-x`. -/
def neg (x : F64) : F64 := ⟨x.bits ^^^ 0x8000000000000000⟩

end F64
