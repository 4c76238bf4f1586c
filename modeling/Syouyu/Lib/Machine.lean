import Mathlib.Data.Int.Basic
import Mathlib.Data.UInt
import Mathlib.Tactic

/-!
# Saturating and checked arithmetic on 64-bit integers

Each operation is the exact one followed by what happens outside the range: the nearest bound
(saturating) or nothing (checked).  Every operation is described over the unbounded integers.

* `saturatingAddI64`, `saturatingSubI64`, `checkedSubI64`   on `i64`;
* `checkedSubU64`   on `u64`;
* `le_of_le_saturatingAddI64`, `sub_le_of_saturatingSubI64_le`   a comparison with a saturated value
                       that succeeds away from the bound also holds for the exact value.
-/

namespace Lib.Machine

/-! ## signed -/

/-- the nearest 64-bit value -/
def clamp (n : Int) : Int := max (-2 ^ 63) (min (2 ^ 63 - 1) n)

/-- `i64::saturating_add` -/
def saturatingAddI64 (a b : Int64) : Int64 := Int64.ofInt (clamp (a.toInt + b.toInt))

/-- `i64::saturating_sub` -/
def saturatingSubI64 (a b : Int64) : Int64 := Int64.ofInt (clamp (a.toInt - b.toInt))

/-- `i64::checked_sub` -/
def checkedSubI64 (a b : Int64) : Option Int64 :=
  if -2 ^ 63 ≤ a.toInt - b.toInt ∧ a.toInt - b.toInt < 2 ^ 63 then
    some (Int64.ofInt (a.toInt - b.toInt))
  else none

theorem toInt_ofInt_clamp (n : Int) : (Int64.ofInt (clamp n)).toInt = clamp n := by
  apply Int64.toInt_ofInt_of_le
  · exact le_max_left _ _
  · simp only [clamp]
    omega

/-- what is at most a saturated sum is at most the exact one, if nothing negative is added -/
theorem le_of_le_saturatingAddI64 {a b c : Int64} (h : c ≤ saturatingAddI64 a b) (hb : 0 ≤ b.toInt) :
    c.toInt ≤ a.toInt + b.toInt := by
  rw [Int64.le_iff_toInt_le, saturatingAddI64, toInt_ofInt_clamp] at h
  have ha := a.le_toInt
  simp only [clamp] at h
  omega

/-- a saturated difference below the upper bound is no less than the exact one -/
theorem sub_le_of_saturatingSubI64_le {a b c : Int64} (h : saturatingSubI64 a b ≤ c)
    (hc : c.toInt < 2 ^ 63 - 1) : a.toInt - b.toInt ≤ c.toInt := by
  rw [Int64.le_iff_toInt_le, saturatingSubI64, toInt_ofInt_clamp] at h
  simp only [clamp] at h
  omega

theorem checkedSubI64_eq_some {a b c : Int64} (h : checkedSubI64 a b = some c) :
    c.toInt = a.toInt - b.toInt := by
  unfold checkedSubI64 at h
  split at h
  · rename_i hrange
    rw [← Option.some.inj h, Int64.toInt_ofInt_of_le hrange.1 hrange.2]
  · cases h

/-- a value that is not negative is the same unsigned one -/
theorem toNat_toUInt64 {a : Int64} (h : 0 ≤ a) : (a.toUInt64.toNat : Int) = a.toInt := by
  have hnonneg : 0 ≤ a.toInt := Int64.le_iff_toInt_le.mp h
  have hcond := BitVec.toInt_eq_toNat_cond a.toBitVec
  have hlt := a.toBitVec.isLt
  have hint : a.toInt = a.toBitVec.toInt := rfl
  have hnat : a.toUInt64.toNat = a.toBitVec.toNat := rfl
  split at hcond <;> omega

/-! ## unsigned -/

/-- a subtraction whose result must fit: `none` when it would be negative -/
def checkedSubU64 (a b : UInt64) : Option UInt64 := if b ≤ a then some (a - b) else none

theorem checkedSubU64_of_le {a b : UInt64} (h : b ≤ a) :
    ∃ c, checkedSubU64 a b = some c ∧ c.toNat = a.toNat - b.toNat :=
  ⟨a - b, if_pos h, UInt64.toNat_sub_of_le a b h⟩

end Lib.Machine
