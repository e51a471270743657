/-
  AiPlatform.Json.PyJson

  JSON values as Python's `json` gives them.

  A string is a sequence of code points, surrogates among them: `json.loads` keeps the escape
  of a surrogate that has no partner. A dict keeps its members in the order they were read.
-/

import AiPlatform.Lib.Assoc
import AiPlatform.Lib.JsonText
import Mathlib.Algebra.Ring.Rat
import Mathlib.Data.List.Basic
import Mathlib.Tactic.Common

/-- A code point: a scalar value, or a surrogate by its distance from U+D800. -/
inductive PyChar where
  | scalar (c : Char)
  | surrogate (offset : Fin 0x800)
  deriving DecidableEq, Repr

abbrev PyStr := List PyChar

/-- The string of a literal. -/
def lit (text : String) : PyStr := text.toList.map .scalar

theorem lit_injective : Function.Injective lit := by
  intro a b h
  have hlist : a.toList = b.toList := List.map_injective_iff.mpr (fun _ _ => PyChar.scalar.inj) h
  exact String.toList_inj.mp hlist

theorem lit_beq {a b : String} : (lit a == lit b) = (a == b) := by
  rw [Bool.eq_iff_iff, beq_iff_eq, beq_iff_eq, lit_injective.eq_iff]

theorem length_lit (text : String) : (lit text).length = text.length := by
  rw [lit, List.length_map, String.length_toList]

inductive PyJson where
  | none
  | bool (b : Bool)
  | int (n : Int)
  | float (bits : UInt64)
  | str (text : PyStr)
  | list (items : List PyJson)
  | dict (members : List (PyStr × PyJson))
  deriving Repr, Inhabited

namespace PyJson

/-! ## Reading a value -/

/-- `value.get(key)` of a dict. -/
def get (value : PyJson) (key : PyStr) : PyJson :=
  match value with
  | .dict members => (members.lookup key).getD .none
  | _ => .none

/-- `value[key] = item` of a dict. -/
def set (value : PyJson) (key : PyStr) (item : PyJson) : PyJson :=
  match value with
  | .dict members => .dict (Assoc.set key item members)
  | value => value

/-- `value.pop(key, None)` of a dict. -/
def pop (value : PyJson) (key : PyStr) : PyJson :=
  match value with
  | .dict members => .dict (Assoc.erase key members)
  | value => value

/-- `key in value` of a dict. -/
def has (value : PyJson) (key : PyStr) : Bool :=
  match value with
  | .dict members => (members.lookup key).isSome
  | _ => false

def isDict : PyJson → Bool
  | .dict _ => true
  | _ => false

def isNone : PyJson → Bool
  | .none => true
  | _ => false

def asStr : PyJson → Option PyStr
  | .str text => some text
  | _ => Option.none

/-- `value == text` -/
def isStr (value : PyJson) (text : PyStr) : Bool :=
  match value with
  | .str other => other == text
  | _ => false

/-- The value can be a member of a set or a key of a dict. -/
def hashable : PyJson → Bool
  | .list _ | .dict _ => false
  | _ => true

/-- The rational that a float stands for; `none` if it is infinite or not a number. -/
def floatValue (bits : UInt64) : Option Rat :=
  let exponent : Nat := (bits.toNat / 2 ^ 52) % 2048
  let fraction : Nat := bits.toNat % 2 ^ 52
  let sign : Rat := if bits.toNat / 2 ^ 63 = 0 then 1 else -1
  if exponent = 2047 then Option.none
  else if exponent = 0 then some (sign * (fraction : Rat) / 2 ^ 1074)
  else some (sign * (2 ^ 52 + (fraction : Rat)) * 2 ^ exponent / 2 ^ 1075)

def isNan (bits : UInt64) : Bool :=
  (bits.toNat / 2 ^ 52) % 2048 == 2047 && bits.toNat % 2 ^ 52 != 0

/-- `bool(value)` -/
def truthy : PyJson → Bool
  | .none => false
  | .bool b => b
  | .int n => n != 0
  | .float bits => floatValue bits != some 0
  | .str text => text != []
  | .list items => !items.isEmpty
  | .dict members => !members.isEmpty

/-- The number that a value is, where numbers are compared. -/
def number : PyJson → Option Rat
  | .bool b => some (if b then 1 else 0)
  | .int n => some n
  | .float bits => floatValue bits
  | _ => Option.none

mutual

/-- `left == right` -/
def eq : PyJson → PyJson → Bool
  | .none, .none => true
  | .str a, .str b => a == b
  | .list xs, .list ys => eqItems xs ys
  | .dict ms, .dict ns => ms.length == ns.length && eqMembers ms ns
  -- the infinities are equal to themselves only, and not-a-number to nothing
  | .float a, .float b => if (floatValue a).isSome then floatValue a == floatValue b else a == b && !isNan a
  | left, right => (number left).isSome && number left == number right

def eqItems : List PyJson → List PyJson → Bool
  | [], [] => true
  | x :: xs, y :: ys => eq x y && eqItems xs ys
  | _, _ => false

/-- Each member of the first has an equal one under its key in the second. -/
def eqMembers : List (PyStr × PyJson) → List (PyStr × PyJson) → Bool
  | [], _ => true
  | (key, value) :: rest, ns =>
    (match ns.lookup key with
      | some other => eq value other
      | Option.none => false) && eqMembers rest ns

end

/-! ## Text and back -/

/-- The character of a high surrogate and a low one. -/
def pairOf (high low : Fin 0x800) : Char := Char.ofNat (0x10000 + high * 0x400 + (low - 0x400))

/-- What `json.loads` reads of a text that `json.dumps` has written with escapes: a high surrogate
    right before a low one is read as their character. -/
def joinPairs : PyStr → PyStr
  | .surrogate high :: .surrogate low :: rest =>
    if high < 0x400 ∧ 0x400 ≤ low then .scalar (pairOf high low) :: joinPairs rest
    else .surrogate high :: joinPairs (.surrogate low :: rest)
  | c :: rest => c :: joinPairs rest
  | [] => []

mutual

/-- `json.loads(json.dumps(value))` -/
def reload : PyJson → PyJson
  | .str text => .str (joinPairs text)
  | .list items => .list (reloadItems items)
  | .dict members => .dict ((reloadMembers members).foldl (fun dict member => Assoc.set member.1 member.2 dict) [])
  | value => value

def reloadItems : List PyJson → List PyJson
  | [] => []
  | item :: rest => reload item :: reloadItems rest

def reloadMembers : List (PyStr × PyJson) → List (PyStr × PyJson)
  | [] => []
  | (key, value) :: rest => (joinPairs key, reload value) :: reloadMembers rest

end

/-- The characters that a text takes up in `json.dumps(..., ensure_ascii=False)`. -/
def dumpedLength (text : PyStr) : Nat :=
  2 + (text.map fun c => match c with
    | .scalar c => (JsonText.escape c).length
    | .surrogate _ => 1).sum

mutual

/-- `len(json.dumps(value, ensure_ascii=False))`; `floatLength` is the length of a float's text. -/
def dumpLength (floatLength : UInt64 → Nat) : PyJson → Nat
  | .none => 4
  | .bool b => if b then 4 else 5
  | .int n => (toString n).length
  | .float bits => floatLength bits
  | .str text => dumpedLength text
  | .list items => 2 + dumpItems floatLength items + 2 * (items.length - 1)
  | .dict members => 2 + dumpMembers floatLength members + 2 * (members.length - 1)

def dumpItems (floatLength : UInt64 → Nat) : List PyJson → Nat
  | [] => 0
  | item :: rest => dumpLength floatLength item + dumpItems floatLength rest

def dumpMembers (floatLength : UInt64 → Nat) : List (PyStr × PyJson) → Nat
  | [] => 0
  | (key, value) :: rest => dumpedLength key + 2 + dumpLength floatLength value + dumpMembers floatLength rest

end

theorem isStr_iff {value : PyJson} {text : PyStr} : value.isStr text = true ↔ value = .str text := by
  cases value <;> simp [isStr]

/-- A text that a value is equal to. -/
theorem eq_of_isStr {value : PyJson} {a b : PyStr} (ha : value.isStr a = true) (hb : value.isStr b = true) : a = b := by
  rw [isStr_iff] at ha hb
  exact PyJson.str.inj (ha.symm.trans hb)

/-! ## Reading what was written -/

section Written

variable {value item : PyJson} {key other : PyStr}

theorem get_dict (members : List (PyStr × PyJson)) : (dict members).get key = (members.lookup key).getD .none := rfl

theorem has_dict (members : List (PyStr × PyJson)) : (dict members).has key = (members.lookup key).isSome := rfl

theorem has_of_get (h : value.get key ≠ .none) : value.has key = true := by
  cases value with
  | dict members =>
    rw [get_dict] at h
    rw [has_dict]
    cases hlookup : members.lookup key with
    | none =>
      rw [hlookup] at h
      exact absurd rfl h
    | some found => rw [Option.isSome_some]
  | _ => exact absurd rfl h

theorem get_of_not_has (h : value.has key = false) : value.get key = .none := by
  by_contra hne
  rw [has_of_get hne] at h
  cases h

theorem mem_keys_of_has {members : List (PyStr × PyJson)} (h : (PyJson.dict members).has key = true) :
    key ∈ members.map Prod.fst := by
  by_contra hmem
  rw [has_dict, Assoc.lookup_eq_none_iff.mpr hmem] at h
  cases h

@[simp] theorem isDict_set : (value.set key item).isDict = value.isDict := by
  cases value <;> rfl

theorem get_set_self (h : value.isDict = true) : (value.set key item).get key = item := by
  cases value with
  | dict members => simp [set, get, Assoc.lookup_set_self]
  | _ => cases h

theorem get_set_ne (h : other ≠ key) : (value.set key item).get other = value.get other := by
  cases value with
  | dict members => simp [set, get, Assoc.lookup_set_ne h]
  | _ => rfl

theorem set_set (item' : PyJson) : (value.set key item').set key item = value.set key item := by
  cases value with
  | dict members => exact congrArg dict (Assoc.set_set item')
  | _ => rfl

/-- A key that is there can be assigned before or after another one. -/
theorem set_comm (hne : key ≠ other) (hhas : value.has key = true) (item' : PyJson) :
    (value.set other item').set key item = (value.set key item).set other item' := by
  cases value with
  | dict members => exact congrArg dict (Assoc.set_comm hne (mem_keys_of_has hhas) item')
  | _ => rfl

theorem has_set_self (h : value.isDict = true) : (value.set key item).has key = true := by
  cases value with
  | dict members => simp [set, has, Assoc.lookup_set_self]
  | _ => cases h

theorem has_set_ne (h : other ≠ key) : (value.set key item).has other = value.has other := by
  cases value with
  | dict members => simp [set, has, Assoc.lookup_set_ne h]
  | _ => rfl

theorem pop_set : (value.set key item).pop key = value.pop key := by
  cases value with
  | dict members => exact congrArg dict Assoc.erase_set
  | _ => rfl

theorem set_eq_self (hhas : value.has key = true) (h : value.get key = item) : value.set key item = value := by
  cases value with
  | dict members =>
    refine congrArg dict (Assoc.set_eq_self ?_)
    rw [get_dict] at h
    rw [has_dict] at hhas
    obtain ⟨found, hfound⟩ := Option.isSome_iff_exists.mp hhas
    rw [hfound] at h ⊢
    exact congrArg some h
  | _ => rfl

theorem pop_eq_self (h : value.has key = false) : value.pop key = value := by
  cases value with
  | dict members =>
    refine congrArg dict (Assoc.erase_of_not_mem (Assoc.lookup_eq_none_iff.mp ?_))
    rw [has_dict] at h
    exact Option.isNone_iff_eq_none.mp (by simpa using h)
  | _ => rfl

end Written

end PyJson
