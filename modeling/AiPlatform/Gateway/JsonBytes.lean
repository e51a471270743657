/-
  AiPlatform.Gateway.JsonBytes

  What the signers and verifiers of the gateway's packages do with JSON values: the canonical
  text as bytes, the keys of a dict, and texts that are compared.
-/

import AiPlatform.Capability.PythonCanonical
import AiPlatform.Json.PyJson

def PyChar.char : PyChar → Option Char
  | scalar c => some c
  | surrogate _ => none

/-- The text, if no character of it is a surrogate. -/
def scalarText (text : PyStr) : Option String := (text.mapM PyChar.char).map String.ofList

namespace PyJson

open AiPlatform.Capability

mutual

/-- The value, if no text of it holds a surrogate. -/
def scalarValue : PyJson → Option PyValue
  | .none => some .none
  | .bool b => some (.bool b)
  | .int n => some (.int n)
  | .float bits => some (.float bits)
  | .str text => (scalarText text).map .str
  | .list items => (scalarItems items).map .list
  | .dict members => (scalarMembers members).map .dict

def scalarItems : List PyJson → Option (List PyValue)
  | [] => some []
  | item :: rest => do
    let item ← scalarValue item
    let rest ← scalarItems rest
    some (item :: rest)

def scalarMembers : List (PyStr × PyJson) → Option (List (String × PyValue))
  | [] => some []
  | (key, value) :: rest => do
    let key ← scalarText key
    let value ← scalarValue value
    let rest ← scalarMembers rest
    some ((key, value) :: rest)

end

mutual

/-- No float is infinite or `nan`. -/
def finite : PyJson → Bool
  | .float bits => isFinite bits
  | .list items => finiteItems items
  | .dict members => finiteMembers members
  | _ => true

def finiteItems : List PyJson → Bool
  | [] => true
  | item :: rest => finite item && finiteItems rest

def finiteMembers : List (PyStr × PyJson) → Bool
  | [] => true
  | (_, value) :: rest => finite value && finiteMembers rest

end

/-- An `int` that is no `bool`. -/
def asInt : PyJson → Option Int
  | .int n => some n
  | _ => Option.none

/-- `set(value) == keys`, of a dict. -/
def hasKeys (value : PyJson) (keys : List PyStr) : Bool :=
  match value with
  | .dict members => members.all (fun member => keys.contains member.1) && keys.all fun key => members.any (·.1 == key)
  | _ => false

end PyJson

namespace AiPlatform.Gateway

open AiPlatform.Capability

/-- What the interpreter's stack is deep enough for: reading a text, writing a value, copying it, and going through it.
Elsewhere a `RecursionError` is raised. -/
structure Stack where
  parses : List UInt8 → Bool
  encodes : PyJson → Bool
  copies : PyJson → Bool
  walks : PyJson → Bool

/-- `json.dumps(value, ensure_ascii=False, allow_nan=False, sort_keys=True).encode("utf-8")`; none where one of
    them raises. -/
def canonicalBytes (value : PyJson) : Option (List UInt8) := value.scalarValue.bind fun value => (canonicalJson value).toOption

def isAsciiText (text : PyStr) : Bool :=
  text.all fun c => c.char.any fun c => decide (c.toNat < 128)

/-- `hmac.compare_digest` of two texts; it raises `TypeError` outside ASCII. -/
def compareTexts {ε : Type} (typeError : ε) (left right : PyStr) : Except ε Bool :=
  if isAsciiText left && isAsciiText right then .ok (left == right) else .error typeError

end AiPlatform.Gateway
