/-
  AiPlatform.Json.Value

  JSON values as `serde_json::Value` holds them, with the accessors the worker
  and the runtime read them by.

  An object keeps its members in the order of the map it is built with.  The
  workspace lock file pulls in `indexmap`, so that order may be the order of
  insertion; `Value.beq` is the comparison both map types agree on.
-/

import Mathlib.Tactic.Common

namespace AiPlatform.Json

/-- A `serde_json::Number`: an unsigned or a negative integer, or the bits of a
    finite `f64`. -/
inductive Number where
  | posInt (n : UInt64)
  | negInt (n : Int64)
  | float (bits : UInt64)
  deriving DecidableEq, Repr

/-- `==` on numbers.  Two finite floats are equal when their bits are, or when
    both are a zero of either sign. -/
def Number.beq : Number → Number → Bool
  | .posInt a, .posInt b => a == b
  | .negInt a, .negInt b => a == b
  | .float a, .float b => a == b || (a ||| b) <<< 1 == 0
  | _, _ => false

/-- A `serde_json::Value`. -/
inductive Value where
  | null
  | bool (b : Bool)
  | number (n : Number)
  | string (s : String)
  | array (items : List Value)
  | object (members : List (String × Value))
  deriving Repr, Inhabited

namespace Value

mutual

/-- `==` on values.  Members of an object are compared by key. -/
def beq : Value → Value → Bool
  | .null, .null => true
  | .bool a, .bool b => a == b
  | .number a, .number b => a.beq b
  | .string a, .string b => a == b
  | .array xs, .array ys => beqItems xs ys
  | .object ms, .object ns => ms.length == ns.length && beqMembers ms ns
  | _, _ => false

def beqItems : List Value → List Value → Bool
  | [], [] => true
  | x :: xs, y :: ys => beq x y && beqItems xs ys
  | _, _ => false

/-- Every member of the first list has an equal one under its key in the second. -/
def beqMembers : List (String × Value) → List (String × Value) → Bool
  | [], _ => true
  | (k, v) :: rest, ns =>
      (match ns.lookup k with
        | some w => beq v w
        | none => false) && beqMembers rest ns

end

/-- `Value::get` with a string key. -/
def get (key : String) : Value → Option Value
  | .object members => members.lookup key
  | _ => none

def asStr : Value → Option String
  | .string s => some s
  | _ => none

def asBool : Value → Option Bool
  | .bool b => some b
  | _ => none

def asArray : Value → Option (List Value)
  | .array items => some items
  | _ => none

def asObject : Value → Option (List (String × Value))
  | .object members => some members
  | _ => none

def isObject (v : Value) : Bool := v.asObject.isSome

def isArray (v : Value) : Bool := v.asArray.isSome

def isBoolean (v : Value) : Bool := v.asBool.isSome

/-! ## Induction -/

section

variable {P : Value → Prop} (null : P .null) (bool : ∀ b, P (.bool b))
  (number : ∀ n, P (.number n)) (string : ∀ s, P (.string s))
  (array : ∀ items, (∀ v ∈ items, P v) → P (.array items))
  (object : ∀ members, (∀ m ∈ members, P m.2) → P (.object members))

include null bool number string array object

set_option linter.unusedSectionVars false

mutual

/-- Induction over a value: an array from its items, an object from the values of
    its members. -/
theorem induction : ∀ v, P v
  | .null => null
  | .bool b => bool b
  | .number n => number n
  | .string s => string s
  | .array items => array items (inductionItems items)
  | .object members => object members (inductionMembers members)

theorem inductionItems : ∀ items : List Value, ∀ v ∈ items, P v
  | [] => fun _ h => absurd h List.not_mem_nil
  | item :: rest => List.forall_mem_cons.mpr ⟨induction item, inductionItems rest⟩

theorem inductionMembers : ∀ members : List (String × Value), ∀ m ∈ members, P m.2
  | [] => fun _ h => absurd h List.not_mem_nil
  | (_, value) :: rest => List.forall_mem_cons.mpr ⟨induction value, inductionMembers rest⟩

end

end

end Value

/-- `==` on optional values. -/
def optBeq : Option Value → Option Value → Bool
  | none, none => true
  | some a, some b => a.beq b
  | _, _ => false

end AiPlatform.Json
