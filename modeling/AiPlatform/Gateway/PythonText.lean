/-
  AiPlatform.Gateway.PythonText

  The methods of Python's `str` that the gateway's packages use, and `int(text)`.
-/

import Mathlib.Data.List.TakeWhile
import Mathlib.Data.String.Basic
import Mathlib.Tactic.Common

namespace AiPlatform.Gateway

def upper (text : String) : String := String.ofList (text.toList.map Char.toUpper)

def lower (text : String) : String := String.ofList (text.toList.map Char.toLower)

/-- `str.isspace` of one character. -/
def isSpace (c : Char) : Bool :=
  (0x09 ≤ c.toNat && c.toNat ≤ 0x0d) || (0x1c ≤ c.toNat && c.toNat ≤ 0x20) ||
    (0x2000 ≤ c.toNat && c.toNat ≤ 0x200a) ||
    [0x85, 0xa0, 0x1680, 0x2028, 0x2029, 0x202f, 0x205f, 0x3000].contains c.toNat

/-- `rstrip` of the characters that are so. -/
def rstripChars (test : Char → Bool) (chars : List Char) : List Char :=
  (chars.reverse.dropWhile test).reverse

def strip (text : String) : String :=
  String.ofList (rstripChars isSpace (text.toList.dropWhile isSpace))

/-- The zeros of the scripts that have decimal digits. -/
def decimalZeros : List Nat :=
  [0x30, 0x660, 0x6f0, 0x7c0, 0x966, 0x9e6, 0xa66, 0xae6, 0xb66, 0xbe6, 0xc66, 0xce6, 0xd66, 0xde6,
   0xe50, 0xed0, 0xf20, 0x1040, 0x1090, 0x17e0, 0x1810, 0x1946, 0x19d0, 0x1a80, 0x1a90, 0x1b50,
   0x1bb0, 0x1c40, 0x1c50, 0xa620, 0xa8d0, 0xa900, 0xa9d0, 0xa9f0, 0xaa50, 0xabf0, 0xff10, 0x104a0,
   0x10d30, 0x11066, 0x110f0, 0x11136, 0x111d0, 0x112f0, 0x11450, 0x114d0, 0x11650, 0x116c0,
   0x11730, 0x118e0, 0x11950, 0x11c50, 0x11d50, 0x11da0, 0x16a60, 0x16ac0, 0x16b50, 0x1d7ce,
   0x1d7d8, 0x1d7e2, 0x1d7ec, 0x1d7f6, 0x1e140, 0x1e2f0, 0x1e950, 0x1fbf0]

/-- `unicodedata.decimal` -/
def decimal (c : Char) : Option Nat :=
  decimalZeros.findSome? fun first =>
    if first ≤ c.toNat ∧ c.toNat < first + 10 then some (c.toNat - first) else none

/-- Decimal digits after the number read so far, with single underscores between
    them. -/
def readDecimal (read : Nat) : List Char → Option Nat
  | [] => none
  | [c] => (decimal c).map fun digit => 10 * read + digit
  | c :: '_' :: rest => (decimal c).bind fun digit => readDecimal (10 * read + digit) rest
  | c :: next :: rest =>
      (decimal c).bind fun digit => readDecimal (10 * read + digit) (next :: rest)

/-- `int(text)` -/
def int (text : String) : Option Int :=
  match (strip text).toList with
  | '-' :: digits => (readDecimal 0 digits).map fun n : Nat => -(n : Int)
  | '+' :: digits => (readDecimal 0 digits).map fun n : Nat => (n : Int)
  | digits => (readDecimal 0 digits).map fun n : Nat => (n : Int)

def isAscii (text : String) : Bool := text.toList.all fun c => c.toNat < 128

/-- `hmac.compare_digest` of two texts; it raises `TypeError` outside ASCII. -/
def compareDigest {ε : Type} (typeError : ε) (left right : String) : Except ε Bool :=
  if isAscii left && isAscii right then .ok (left == right) else .error typeError

/-! ## The text of an integer -/

theorem toNat_of_isDigit {c : Char} (h : c.isDigit = true) :
    48 ≤ c.toNat ∧ c.toNat < 48 + 10 := by
  obtain ⟨hlower, hupper⟩ := Char.isDigit_iff_toNat.mp h
  exact ⟨hlower, Nat.lt_succ_of_le hupper⟩

theorem decimal_of_isDigit {c : Char} (h : c.isDigit = true) :
    decimal c = some (c.toNat - '0'.toNat) := by
  have hrange := toNat_of_isDigit h
  rw [decimal, decimalZeros, List.findSome?_cons_of_isSome (by rw [if_pos hrange]; rfl),
    if_pos hrange]
  rfl

theorem readDecimal_of_isDigit {chars : List Char} (hne : chars ≠ [])
    (h : ∀ c ∈ chars, c.isDigit = true) (read : Nat) :
    readDecimal read chars = some (Nat.ofDigitChars 10 chars read) := by
  induction chars generalizing read with
  | nil => exact absurd rfl hne
  | cons c rest ih =>
    obtain ⟨hc, hrest⟩ := List.forall_mem_cons.mp h
    rw [Nat.ofDigitChars_cons]
    cases rest with
    | nil =>
      rw [readDecimal, decimal_of_isDigit hc]
      rfl
    | cons next rest =>
      have hnext : next ≠ '_' := by
        rintro rfl
        exact absurd (hrest '_' List.mem_cons_self) (by decide)
      rw [readDecimal, decimal_of_isDigit hc, Option.bind_some, ih (List.cons_ne_nil _ _) hrest]
      exact fun h => hnext h

theorem isSpace_of_isDigit {c : Char} (h : c.isDigit = true) : isSpace c = false := by
  have hrange := toNat_of_isDigit h
  simp only [isSpace, Bool.or_eq_false_iff, Bool.and_eq_false_iff, decide_eq_false_iff_not,
    List.contains_eq_mem, List.mem_cons, List.not_mem_nil, or_false]
  omega

/-- A text without a space at either end is stripped already. -/
theorem strip_eq {text : String} {first last : Char} (hfirst : text.toList.head? = some first)
    (hlast : text.toList.getLast? = some last) (hspace : isSpace first = false)
    (hspace' : isSpace last = false) : strip text = text := by
  have hdrop : text.toList.dropWhile isSpace = text.toList := by
    cases htext : text.toList with
    | nil => rfl
    | cons c rest =>
      rw [htext] at hfirst
      cases hfirst
      rw [List.dropWhile_cons_of_neg (by simp [hspace])]
  have hreverse : text.toList.reverse.dropWhile isSpace = text.toList.reverse := by
    rw [← List.head?_reverse] at hlast
    cases htext : text.toList.reverse with
    | nil => rfl
    | cons c rest =>
      rw [htext] at hlast
      cases hlast
      rw [List.dropWhile_cons_of_neg (by simp [hspace'])]
  rw [strip, hdrop, rstripChars, hreverse, List.reverse_reverse, String.ofList_toList]

theorem int_toString_nat (n : Nat) :
    int (toString n) = some (n : Int) ∧ int ("-" ++ toString n) = some (-(n : Int)) := by
  have hdigits : ∀ c ∈ Nat.toDigits 10 n, c.isDigit = true := fun c hc =>
    Nat.isDigit_of_mem_toDigits (by decide) (by decide) hc
  have hne : Nat.toDigits 10 n ≠ [] := Nat.toDigits_ne_nil
  have htext : (toString n).toList = Nat.toDigits 10 n := Nat.toList_repr
  have hread : readDecimal 0 (Nat.toDigits 10 n) = some n := by
    rw [readDecimal_of_isDigit hne hdigits, Nat.ofDigitChars_ten_toDigits]
  obtain ⟨first, rest, hfirst⟩ := List.exists_cons_of_ne_nil hne
  have hisDigit : first.isDigit = true := hdigits first (hfirst ▸ List.mem_cons_self)
  have hlast := hdigits _ (List.getLast_mem hne)
  constructor
  · have hstrip : strip (toString n) = toString n :=
      strip_eq (by rw [htext, hfirst]; rfl) (by rw [htext, List.getLast?_eq_some_getLast hne])
        (isSpace_of_isDigit hisDigit) (isSpace_of_isDigit hlast)
    rw [int, hstrip, htext, hfirst]
    split
    · rename_i heq
      obtain ⟨rfl, -⟩ := List.cons.inj heq
      exact absurd hisDigit (by decide)
    · rename_i heq
      obtain ⟨rfl, -⟩ := List.cons.inj heq
      exact absurd hisDigit (by decide)
    · rw [← hfirst, hread]
      rfl
  · have htext' : ("-" ++ toString n).toList = '-' :: Nat.toDigits 10 n := by
      rw [String.toList_append, htext]
      rfl
    have hstrip : strip ("-" ++ toString n) = "-" ++ toString n :=
      strip_eq (by rw [htext']; rfl)
        (by rw [htext', List.getLast?_cons_of_ne_nil hne, List.getLast?_eq_some_getLast hne])
        (by decide) (isSpace_of_isDigit hlast)
    rw [int, hstrip, htext']
    exact congrArg (Option.map fun n : Nat => -(n : Int)) hread

/-- `int(str(n))` -/
theorem int_toString (n : Int) : int (toString n) = some n := by
  cases n with
  | ofNat n => exact (int_toString_nat n).1
  | negSucc n => exact (int_toString_nat (n + 1)).2

/-- A text with a character that is no blank is not blank. -/
theorem strip_ne_empty {text : String} {c : Char} (hmem : c ∈ text.toList) (hc : isSpace c = false) :
    strip text ≠ "" := by
  intro h
  have hnil : ((text.toList.dropWhile isSpace).reverse.dropWhile isSpace).reverse = [] :=
    String.ofList_injective h
  have hblank := List.dropWhile_eq_nil_iff.mp (List.reverse_eq_nil_iff.mp hnil)
  rw [← List.takeWhile_append_dropWhile (p := isSpace) (l := text.toList)] at hmem
  rcases List.mem_append.mp hmem with hfront | hrest
  · rw [List.mem_takeWhile_imp hfront] at hc
    cases hc
  · rw [hblank c (List.mem_reverse.mpr hrest)] at hc
    cases hc

end AiPlatform.Gateway
