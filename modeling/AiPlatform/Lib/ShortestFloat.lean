/-
  AiPlatform.Lib.ShortestFloat

  The decimal text of a binary64 number with the fewest digits that read back as
  the number, the nearest such one: with a point between `1e-4` and `1e16`, with an
  exponent of at least two digits elsewhere.

  All comparisons are made on exact natural numbers.
-/

import Mathlib.Tactic.Common
import Mathlib.Algebra.Group.Nat.Defs

namespace ShortestFloat

/-- `mantissa · 2 ^ exponent`; at a boundary the next smaller number is only half
    as far as the next larger one. -/
structure Binary where
  negative : Bool
  mantissa : Nat
  exponent : Int
  boundary : Bool

def decode (bits : UInt64) : Binary :=
  let fraction : Nat := bits.toNat % 2 ^ 52
  let exponent : Nat := bits.toNat / 2 ^ 52 % 2 ^ 11
  { negative := bits.toNat / 2 ^ 63 == 1
    mantissa := if exponent = 0 then fraction else fraction + 2 ^ 52
    exponent := if exponent = 0 then -1074 else (exponent : Int) - 1075
    boundary := fraction == 0 && exponent > 1 }

/-- `x · 2 ^ j ≤ d · 10 ^ k` -/
def atMost (x : Nat) (j : Int) (d : Nat) (k : Int) : Bool :=
  x * 2 ^ j.toNat * 10 ^ (-k).toNat ≤ d * 10 ^ k.toNat * 2 ^ (-j).toNat

/-- `d · 10 ^ k ≤ x · 2 ^ j` -/
def atLeast (x : Nat) (j : Int) (d : Nat) (k : Int) : Bool :=
  d * 10 ^ k.toNat * 2 ^ (-j).toNat ≤ x * 2 ^ j.toNat * 10 ^ (-k).toNat

/-- The whole part of `x · 2 ^ j / 10 ^ k`. -/
def quotient (x : Nat) (j k : Int) : Nat :=
  x * 2 ^ j.toNat * 10 ^ (-k).toNat / (10 ^ k.toNat * 2 ^ (-j).toNat)

/-- The least power of ten, from `n` on, that is above the number. -/
def decimalPoint (x : Nat) (j : Int) : Nat → Int → Int
  | 0, n => n
  | fuel + 1, n => if atLeast x j 1 n then decimalPoint x j fuel (n + 1) else n

/-- `d · 10 ^ k` rounds to the number, ties to an even mantissa. -/
def readsBack (v : Binary) (d : Nat) (k : Int) : Bool :=
  let low := 4 * v.mantissa - (if v.boundary then 1 else 2)
  let high := 4 * v.mantissa + 2
  let j := v.exponent - 2
  if v.mantissa % 2 == 0 then atMost low j d k && atLeast high j d k
  else !atLeast low j d k && !atMost high j d k

/-- The nearer of the two multiples of `10 ^ k` around the number that reads back. -/
def candidate (v : Binary) (k : Int) : Option Nat :=
  let x := 4 * v.mantissa
  let j := v.exponent - 2
  let d := quotient x j k
  let above := !atMost (2 * x) j (2 * d + 1) k
  let halfway := atMost (2 * x) j (2 * d + 1) k && atLeast (2 * x) j (2 * d + 1) k
  let first := if above || (halfway && d % 2 == 1) then d + 1 else d
  let second := if first == d then d + 1 else d
  if readsBack v first k then some first
  else if readsBack v second k then some second
  else none

/-- The first length, from `length` on, at which some digits read back; seventeen
    digits always do. -/
def search (v : Binary) (point : Int) : Nat → Nat → Nat × Int
  | 0, length => ((candidate v (point - length)).getD 0, point - length)
  | fuel + 1, length =>
      match candidate v (point - length) with
      | some d => (d, point - length)
      | none => search v point fuel (length + 1)

/-- The digits and the power of ten they count. -/
def shortest (v : Binary) : Nat × Int :=
  match search v (decimalPoint (4 * v.mantissa) (v.exponent - 2) 700 (-330)) 16 1 with
  | (10, k) => (1, k + 1)
  | (d, k) => (d, k)

def zeros (n : Nat) : List Char := List.replicate n '0'

def exponentText (e : Int) : List Char :=
  let digits := Nat.toDigits 10 e.natAbs
  (if e < 0 then '-' else '+') :: (if digits.length < 2 then '0' :: digits else digits)

/-- `0.d₁d₂.. · 10 ^ point` -/
def layout (digits : List Char) (point : Int) : List Char :=
  if point ≤ -4 ∨ 16 < point then
    digits.take 1 ++ (if digits.length ≤ 1 then [] else '.' :: digits.drop 1)
      ++ 'e' :: exponentText (point - 1)
  else if point ≤ 0 then '0' :: '.' :: (zeros (-point).toNat ++ digits)
  else if digits.length ≤ point.toNat then
    digits ++ (zeros (point.toNat - digits.length) ++ ['.', '0'])
  else digits.take point.toNat ++ '.' :: digits.drop point.toNat

def repr (bits : UInt64) : List Char :=
  let v := decode bits
  let magnitude :=
    if v.mantissa = 0 then ['0', '.', '0']
    else
      let digits := Nat.toDigits 10 (shortest v).1
      layout digits ((shortest v).2 + digits.length)
  if v.negative then '-' :: magnitude else magnitude

example : repr 0x3FB999999999999A = ['0', '.', '1'] := by decide +kernel

/-! ## The alphabet of the text -/

/-- A digit, a sign, the point or the mark of the exponent. -/
def IsNumeric (c : Char) : Prop :=
  c.isDigit = true ∨ c ∈ ['-', '+', '.', 'e']

def AllNumeric (text : List Char) : Prop :=
  ∀ c ∈ text, IsNumeric c

section

variable {text other digits : List Char} {c : Char}

theorem allNumeric_nil : AllNumeric [] := fun _ h => absurd h List.not_mem_nil

theorem allNumeric_cons (hc : IsNumeric c) (h : AllNumeric text) : AllNumeric (c :: text) :=
  List.forall_mem_cons.mpr ⟨hc, h⟩

theorem allNumeric_append (h : AllNumeric text) (hother : AllNumeric other) :
    AllNumeric (text ++ other) :=
  List.forall_mem_append.mpr ⟨h, hother⟩

theorem isNumeric_zero : IsNumeric '0' := .inl rfl

theorem allNumeric_toDigits (n : Nat) : AllNumeric (Nat.toDigits 10 n) :=
  fun _ h => .inl (Nat.isDigit_of_mem_toDigits (by decide) (by decide) h)

theorem allNumeric_zeros (n : Nat) : AllNumeric (zeros n) :=
  fun _ h => List.eq_of_mem_replicate h ▸ isNumeric_zero

theorem allNumeric_exponentText (e : Int) : AllNumeric (exponentText e) := by
  refine allNumeric_cons ?_ ?_
  · split <;> exact .inr (by simp)
  · split
    · exact allNumeric_cons isNumeric_zero (allNumeric_toDigits _)
    · exact allNumeric_toDigits _

theorem allNumeric_layout (h : AllNumeric digits) (point : Int) :
    AllNumeric (layout digits point) := by
  have htake (n : Nat) : AllNumeric (digits.take n) := fun c hc => h c (List.mem_of_mem_take hc)
  have hdrop (n : Nat) : AllNumeric (digits.drop n) := fun c hc => h c (List.mem_of_mem_drop hc)
  have hdot : IsNumeric '.' := .inr (by simp)
  unfold layout
  split
  · refine allNumeric_append (allNumeric_append (htake 1) ?_) ?_
    · split
      · exact allNumeric_nil
      · exact allNumeric_cons hdot (hdrop 1)
    · exact allNumeric_cons (.inr (by simp)) (allNumeric_exponentText _)
  · split
    · exact allNumeric_cons isNumeric_zero
        (allNumeric_cons hdot (allNumeric_append (allNumeric_zeros _) h))
    · split
      · refine allNumeric_append h (allNumeric_append (allNumeric_zeros _) ?_)
        exact allNumeric_cons hdot (allNumeric_cons isNumeric_zero allNumeric_nil)
      · exact allNumeric_append (htake _) (allNumeric_cons hdot (hdrop _))

theorem layout_ne_nil (point : Int) : layout digits point ≠ [] := by
  unfold layout
  split
  · simp
  · split
    · simp
    · split <;> simp

theorem allNumeric_repr (bits : UInt64) : AllNumeric (repr bits) := by
  have hmagnitude : AllNumeric
      (if (decode bits).mantissa = 0 then ['0', '.', '0']
        else layout (Nat.toDigits 10 (shortest (decode bits)).1)
          ((shortest (decode bits)).2 + (Nat.toDigits 10 (shortest (decode bits)).1).length)) := by
    split
    · exact allNumeric_cons isNumeric_zero
        (allNumeric_cons (.inr (by simp)) (allNumeric_cons isNumeric_zero allNumeric_nil))
    · exact allNumeric_layout (allNumeric_toDigits _) _
  unfold repr
  dsimp only
  split
  · exact allNumeric_cons (.inr (by simp)) hmagnitude
  · exact hmagnitude

theorem repr_ne_nil (bits : UInt64) : repr bits ≠ [] := by
  unfold repr
  dsimp only
  split
  · exact List.cons_ne_nil _ _
  · split
    · exact List.cons_ne_nil _ _
    · exact layout_ne_nil _

end

end ShortestFloat
