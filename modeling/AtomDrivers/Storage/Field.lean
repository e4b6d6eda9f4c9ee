/-
Bit fields of a register.

A field is a mask and a shift, and it fits when its bits lie in the register.
`put` clears the field and sets the shifted value over it without cutting the
value, so that a value that is too large sets bits outside the field.  What is
read back is the value under the mask in any case, and the rest of the register is
kept exactly when the bits that spill over are set already.
-/
import Mathlib.Data.BitVec

namespace AtomDrivers
namespace Storage

structure Field (w : Nat) where
  mask : BitVec w
  shift : Nat
  fits : mask.toNat * 2 ^ shift < 2 ^ w

namespace Field

variable {w : Nat} (f : Field w)

/-- The bits of the register that belong to the field. -/
def bits : BitVec w := f.mask <<< f.shift

def get (reg : BitVec w) : BitVec w := (reg >>> f.shift) &&& f.mask

def put (reg val : BitVec w) : BitVec w := (reg &&& ~~~f.bits) ||| (val <<< f.shift)

/-- The bits of the value that come to lie outside the field. -/
def spill (val : BitVec w) : BitVec w := (val <<< f.shift) &&& ~~~f.bits

/-- Two registers that differ in the field at most. -/
def SameOutside (reg reg' : BitVec w) : Prop := reg &&& ~~~f.bits = reg' &&& ~~~f.bits

theorem shift_lt_of_mask {i : Nat} (h : f.mask.getLsbD i = true) : i + f.shift < w := by
  by_contra hge
  have hpow : 2 ^ i ≤ f.mask.toNat := Nat.ge_two_pow_of_testBit h
  have hlarge : 2 ^ w ≤ 2 ^ (i + f.shift) := Nat.pow_le_pow_right (by decide) (by omega)
  have hmul : 2 ^ (i + f.shift) ≤ f.mask.toNat * 2 ^ f.shift := by
    rw [Nat.pow_add]
    exact Nat.mul_le_mul_right _ hpow
  have hfits := f.fits
  omega

theorem get_put (reg val : BitVec w) : f.get (f.put reg val) = val &&& f.mask := by
  refine BitVec.eq_of_getLsbD_eq fun i hi => ?_
  simp only [get, put, bits, BitVec.getLsbD_and, BitVec.getLsbD_or, BitVec.getLsbD_not,
    BitVec.getLsbD_ushiftRight, BitVec.getLsbD_shiftLeft]
  cases hmask : f.mask.getLsbD i with
  | false => simp
  | true =>
    have hlt : i + f.shift < w := f.shift_lt_of_mask hmask
    have hlt' : f.shift + i < w := by omega
    have hback : f.shift + i - f.shift = i := by omega
    have hge : ¬ f.shift + i < f.shift := by omega
    simp only [hlt', hback, hmask, hge, decide_true, decide_false, Bool.not_true, Bool.not_false,
      Bool.and_false, Bool.true_and, Bool.and_true, Bool.false_or]

theorem sameOutside_iff (reg reg' : BitVec w) :
    f.SameOutside reg reg' ↔
      ∀ i < w, f.bits.getLsbD i = false → reg.getLsbD i = reg'.getLsbD i := by
  constructor
  · intro h i hi hout
    have hbit := congrArg (fun b => b.getLsbD i) h
    simp only [BitVec.getLsbD_and, BitVec.getLsbD_not, hi, hout, decide_true, Bool.not_false,
      Bool.and_true] at hbit
    exact hbit
  · intro h
    refine BitVec.eq_of_getLsbD_eq fun i hi => ?_
    simp only [BitVec.getLsbD_and, BitVec.getLsbD_not, hi, decide_true, Bool.true_and]
    cases hout : f.bits.getLsbD i with
    | true => simp only [Bool.not_true, Bool.and_false]
    | false => rw [h i hi hout]

/-- The rest of the register is kept when the bits that spill over are set. -/
theorem put_sameOutside_iff (reg val : BitVec w) :
    f.SameOutside (f.put reg val) reg ↔ f.spill val &&& ~~~reg = 0#w := by
  have hput : ∀ i < w, f.bits.getLsbD i = false →
      (f.put reg val).getLsbD i = (reg.getLsbD i || (val <<< f.shift).getLsbD i) := by
    intro i hi hout
    simp only [put, BitVec.getLsbD_or, BitVec.getLsbD_and, BitVec.getLsbD_not, hi, hout,
      decide_true, Bool.not_false, Bool.and_true]
  have hspill : ∀ i < w, (f.spill val &&& ~~~reg).getLsbD i =
      ((val <<< f.shift).getLsbD i && !f.bits.getLsbD i && !reg.getLsbD i) := by
    intro i hi
    simp only [spill, BitVec.getLsbD_and, BitVec.getLsbD_not, hi, decide_true, Bool.true_and]
  rw [sameOutside_iff]
  constructor
  · intro h
    refine BitVec.eq_of_getLsbD_eq fun i hi => ?_
    rw [hspill i hi, BitVec.getLsbD_zero]
    cases hout : f.bits.getLsbD i with
    | true => simp only [Bool.not_true, Bool.and_false, Bool.false_and]
    | false =>
      have hbit := h i hi hout
      rw [hput i hi hout] at hbit
      cases hreg : reg.getLsbD i with
      | true => simp only [Bool.not_true, Bool.and_false]
      | false =>
        rw [hreg, Bool.false_or] at hbit
        rw [hbit, Bool.false_and, Bool.false_and]
  · intro h i hi hout
    have hbit := hspill i hi
    rw [h, BitVec.getLsbD_zero, hout] at hbit
    rw [hput i hi hout]
    cases hreg : reg.getLsbD i with
    | true => rw [Bool.true_or]
    | false =>
      rw [hreg] at hbit
      simp only [Bool.not_false, Bool.and_true] at hbit
      rw [← hbit, Bool.false_or]

end Field

end Storage
end AtomDrivers
