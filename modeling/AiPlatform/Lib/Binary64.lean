/-
  AiPlatform.Lib.Binary64

  Words of the binary64 format as exact integers: how they compare, and which word an
  integer is rounded to.
-/

import Mathlib.Algebra.Ring.Rat
import Mathlib.Tactic.Common

namespace Binary64

/-- The word without its sign. -/
def magnitude (bits : UInt64) : Nat := bits.toNat % 2 ^ 63

def isNaN (bits : UInt64) : Bool := 0x7ff * 2 ^ 52 < magnitude bits

/-- The number of a word, counted in units of `2 ^ -1074`.  An infinity counts as
    `2 ^ 1024`, which is above every number. -/
def units (bits : UInt64) : Int :=
  let exponent := magnitude bits / 2 ^ 52
  let fraction := magnitude bits % 2 ^ 52
  let size : Nat := if exponent = 0 then fraction else (2 ^ 52 + fraction) * 2 ^ (exponent - 1)
  if bits.toNat < 2 ^ 63 then size else -size

def lt (a b : UInt64) : Bool := !isNaN a && !isNaN b && decide (units a < units b)

def le (a b : UInt64) : Bool := !isNaN a && !isNaN b && decide (units a ≤ units b)

/-- The number of a finite word is not a whole one. -/
def hasFraction (bits : UInt64) : Bool := units bits % 2 ^ 1074 != 0

/-- `n / 2 ^ k`, rounded to the nearest integer, ties to even. -/
def roundEven (n k : Nat) : Nat :=
  let quotient := n / 2 ^ k
  let twice := 2 * (n % 2 ^ k)
  if 2 ^ k < twice ∨ (twice = 2 ^ k ∧ quotient % 2 = 1) then quotient + 1 else quotient

/-- The word nearest to an integer below `2 ^ 1023`.  A mantissa that is rounded up to
    `2 ^ 53` carries into the exponent. -/
def ofNat (n : Nat) : UInt64 :=
  if n = 0 then 0
  else
    let mantissa := if n.log2 ≤ 52 then n * 2 ^ (52 - n.log2) else roundEven n (n.log2 - 52)
    UInt64.ofNat ((n.log2 + 1022) * 2 ^ 52 + mantissa)

def ofInt (n : Int) : UInt64 :=
  if n < 0 then ofNat n.natAbs ||| 0x8000000000000000 else ofNat n.natAbs

example : units (ofNat 9007199254740993) = 9007199254740992 * 2 ^ 1074 := by decide +kernel

/-! ## Comparison of numbers -/

variable {a b : UInt64}

theorem lt_eq_false_iff (ha : isNaN a = false) (hb : isNaN b = false) : lt a b = false ↔ units b ≤ units a := by
  simp [lt, ha, hb]

theorem le_eq_false_iff (ha : isNaN a = false) (hb : isNaN b = false) : le a b = false ↔ units b < units a := by
  simp [le, ha, hb]

/-- A word whose exponent is not full is a number. -/
theorem isNaN_of_exponent (h : (a >>> 52) &&& 0x7ff != 0x7ff) : isNaN a = false := by
  have hne : (a >>> 52) &&& 0x7ff ≠ 0x7ff := by simpa using h
  have hexponent : ((a >>> 52) &&& 0x7ff).toNat = a.toNat / 2 ^ 52 % 2 ^ 11 := by
    rw [UInt64.toNat_and, UInt64.toNat_shiftRight]
    show a.toNat >>> (52 % 64) &&& (2 ^ 11 - 1) = _
    rw [Nat.and_two_pow_sub_one_eq_mod, Nat.shiftRight_eq_div_pow]
  have hfull : a.toNat / 2 ^ 52 % 2 ^ 11 ≠ 2047 := by
    intro heq
    exact hne (UInt64.toNat_inj.mp (hexponent.trans heq))
  have hlt := a.toNat_lt
  refine decide_eq_false ?_
  unfold magnitude
  omega

theorem roundEven_le (n k : Nat) : roundEven n k ≤ n / 2 ^ k + 1 := by
  unfold roundEven
  dsimp only
  split <;> omega

theorem toNat_ofNat {n : Nat} (h : n < 2 ^ 64) : (ofNat n).toNat < 0x7ff * 2 ^ 52 := by
  by_cases hn : n = 0
  · subst hn
    decide
  have hlog : n.log2 < 64 := (Nat.log2_lt hn).mpr h
  have hlt : n < 2 ^ (n.log2 + 1) := Nat.lt_log2_self
  have hmantissa : (if n.log2 ≤ 52 then n * 2 ^ (52 - n.log2) else roundEven n (n.log2 - 52)) ≤ 2 ^ 53 := by
    split
    · case isTrue hle =>
      have hpow : 2 ^ (n.log2 + 1) * 2 ^ (52 - n.log2) = 2 ^ 53 := by
        rw [← Nat.pow_add]
        congr 1
        omega
      have := Nat.mul_le_mul_right (2 ^ (52 - n.log2)) (Nat.le_of_lt hlt)
      omega
    · case isFalse hnot =>
      have hpow : 2 ^ (n.log2 + 1) = 2 ^ 53 * 2 ^ (n.log2 - 52) := by
        rw [← Nat.pow_add]
        congr 1
        omega
      have hquotient : n / 2 ^ (n.log2 - 52) < 2 ^ 53 := Nat.div_lt_of_lt_mul (by rw [Nat.mul_comm]; omega)
      have := roundEven_le n (n.log2 - 52)
      omega
  rw [ofNat, if_neg hn]
  dsimp only
  generalize (if n.log2 ≤ 52 then n * 2 ^ (52 - n.log2) else roundEven n (n.log2 - 52)) = mantissa at hmantissa
  rw [UInt64.toNat_ofNat']
  omega

theorem isNaN_ofInt {n : Int} (h : n.natAbs < 2 ^ 64) : isNaN (ofInt n) = false := by
  have hnat := toNat_ofNat h
  refine decide_eq_false ?_
  unfold magnitude ofInt
  split
  · have hsign : (ofNat n.natAbs ||| 0x8000000000000000).toNat % 2 ^ 63 = (ofNat n.natAbs).toNat % 2 ^ 63 := by
      rw [UInt64.toNat_or]
      show ((ofNat n.natAbs).toNat ||| 2 ^ 63) % 2 ^ 63 = _
      rw [Nat.or_mod_two_pow, Nat.mod_self, Nat.or_zero]
    omega
  · omega

end Binary64
