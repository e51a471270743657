/-
  AiPlatform.Capability.SchemaContract

  The JSON Schema subset of a capability's inputs: the check of a schema and the check
  of a value against one (`validate_json_schema` and `validate_json_value` of
  `ai-platform-capability-contract/src/lib.rs`).

  The source counts the levels down from the root and stops below `MAX_SCHEMA_DEPTH`.
  Here the levels that are left are the argument `room`, which is
  `MAX_SCHEMA_DEPTH + 1 - depth`.  A function the two node passes call takes the pass one
  level down as `node`.
-/

import AiPlatform.Capability.CanonicalJson
import AiPlatform.Capability.SafePattern
import AiPlatform.Lib.Binary64

namespace AiPlatform.Capability

open AiPlatform.Json AiPlatform.Checks

def MAX_SCHEMA_DEPTH : Nat := 32
def MAX_SCHEMA_BRANCHES : Nat := 16

/-! ## Values -/

def asU64 : Value → Option Nat
  | .number (.posInt n) => some n.toNat
  | _ => none

def asI64 : Value → Option Int
  | .number (.posInt n) => if n.toNat < 2 ^ 63 then some n.toNat else none
  | .number (.negInt n) => some n.toInt
  | _ => none

/-- `Number::as_f64`; an integer is rounded. -/
def numberAsF64 : Number → UInt64
  | .posInt n => Binary64.ofInt n.toNat
  | .negInt n => Binary64.ofInt n.toInt
  | .float bits => bits

def asF64 : Value → Option UInt64
  | .number n => some (numberAsF64 n)
  | _ => none

def isInteger (value : Value) : Bool := (asI64 value).isSome || (asU64 value).isSome

def canonicalJsonHashAny (crates : Crates) (value : Value) : Except ContractError String :=
  match crates.toVec (canonicalize crates value) with
  | none => .error (.invalidField "enum")
  | some bytes => .ok (hexEncode (crates.sha256 bytes))

/-- `values.iter().map(canonical_json_hash_any).collect::<Result<Vec<_>, _>>()` -/
def hashesOf (crates : Crates) : List Value → Except ContractError (List String)
  | [] => .ok []
  | value :: rest => do
      let hash ← canonicalJsonHashAny crates value
      let hashes ← hashesOf crates rest
      .ok (hash :: hashes)

/-- `contains_key` of one of the keywords. -/
def hasKeyword (schema : List (String × Value)) (keywords : List String) : Bool :=
  keywords.any fun keyword => (schema.lookup keyword).isSome

def objectKeywords : List String := ["required", "properties", "additionalProperties"]
def stringKeywords : List String := ["minLength", "maxLength", "pattern"]
def numberKeywords : List String := ["minimum", "maximum", "exclusiveMinimum", "exclusiveMaximum"]
def arrayKeywords : List String := ["minItems", "maxItems", "uniqueItems", "items"]

/-! ## A value against a schema -/

/-- `anyOf` and `oneOf`: the number of branches that match the value. -/
def validateBranches (node : Value → Value → Except ContractError Unit) (schema : List (String × Value))
    (value : Value) (keyword : String) (wrong : Nat → Bool) : Except ContractError Unit :=
  checkSome (schema.lookup keyword) fun branches => do
    let branches ← okOr branches.asArray (.invalidField keyword)
    failIf (wrong (branches.filter fun branch => (node branch value).isOk).length) (.invalidField keyword)

def validateCompositionValue (node : Value → Value → Except ContractError Unit) (schema : List (String × Value))
    (value : Value) : Except ContractError Unit := do
  validateBranches node schema value "anyOf" (· == 0)
  validateBranches node schema value "oneOf" (· != 1)
  checkSome (schema.lookup "not") fun branch => failIf (node branch value).isOk (.invalidField "not")

def isOfType (expected : String) (value : Value) : Bool :=
  match expected with
  | "object" => value.isObject
  | "string" => value.asStr.isSome
  | "number" => (asF64 value).isSome
  | "integer" => isInteger value
  | "array" => value.isArray
  | "boolean" => value.isBoolean
  | "null" => (value matches .null)
  | _ => false

def validateEnumValue (crates : Crates) (value : Value) (enumeration : List Value) : Except ContractError Unit := do
  let valueHash ← canonicalJsonHashAny crates value
  let hashes ← hashesOf crates enumeration
  failIf (!hashes.any (· == valueHash)) (.invalidField "enum")

/-- The schema of a member. -/
def propertySchema (schema : List (String × Value)) (name : String) : Option Value :=
  ((schema.lookup "properties").bind Value.asObject).bind (List.lookup name)

def validateObjectValue (node : Value → Value → Except ContractError Unit) (schema : List (String × Value))
    (value : Value) : Except ContractError Unit := do
  let value ← okOr value.asObject (.invalidField "value_type")
  checkSome ((schema.lookup "required").bind Value.asArray) fun required =>
    forEach (required.filterMap Value.asStr) fun name =>
      failIf (value.lookup name).isNone (.invalidField "required")
  forEach value fun member =>
    match propertySchema schema member.1 with
    | some propertySchema => node propertySchema member.2
    | none =>
        failIf ((schema.lookup "additionalProperties").bind Value.asBool == some false)
          (.invalidField "additionalProperties")

/-- A length against its two bounds. -/
def outOfBounds (schema : List (String × Value)) (minimum maximum : String) (length : Nat) : Bool :=
  (((schema.lookup minimum).bind asU64).any fun minimum => length < minimum) ||
    ((schema.lookup maximum).bind asU64).any fun maximum => maximum < length

def validateStringValue (schema : List (String × Value)) (value : String) : Except ContractError Unit := do
  failIf (outOfBounds schema "minLength" "maxLength" value.length) (.invalidField "string_length")
  checkSome ((schema.lookup "pattern").bind Value.asStr) fun pattern => do
    let parsed ← okOr (parseSafePattern pattern) (.invalidField "pattern")
    failIf (!patternMatches parsed value) (.invalidField "pattern")

def validateNumberValue (schema : List (String × Value)) (value : Value) : Except ContractError Unit := do
  let number ← okOr (asF64 value) (.invalidField "value_type")
  failIf ((schema.lookup "type").bind Value.asStr == some "integer" && !isInteger value) (.invalidField "value_type")
  failIf ((((schema.lookup "minimum").bind asF64).any fun minimum => Binary64.lt number minimum) ||
      (((schema.lookup "maximum").bind asF64).any fun maximum => Binary64.lt maximum number) ||
      (((schema.lookup "exclusiveMinimum").bind asF64).any fun minimum => Binary64.le number minimum) ||
      ((schema.lookup "exclusiveMaximum").bind asF64).any fun maximum => Binary64.le maximum number)
    (.invalidField "number_bound")

def validateArrayValue (crates : Crates) (node : Value → Value → Except ContractError Unit)
    (schema : List (String × Value)) (value : List Value) : Except ContractError Unit := do
  failIf (outOfBounds schema "minItems" "maxItems" value.length) (.invalidField "array_length")
  checkIf ((schema.lookup "uniqueItems").bind Value.asBool == some true) do
    let hashes ← hashesOf crates value
    failIf (hasDuplicates hashes) (.invalidField "uniqueItems")
  checkSome (schema.lookup "items") fun items => forEach value (node items)

/-- The schema names one of the types, or none and one of the keywords. -/
def asksOf (schema : List (String × Value)) (types keywords : List String) : Bool :=
  ((schema.lookup "type").bind Value.asStr).any (types.contains ·) ||
    ((schema.lookup "type").isNone && hasKeyword schema keywords)

/-- `validate_value_node` -/
def validateValueNode (crates : Crates) : Nat → Value → Value → Except ContractError Unit
  | 0, _, _ => .error (.invalidField "schema_depth")
  | room + 1, schema, value => do
      let object ← okOr schema.asObject (.invalidField "input_schema")
      validateCompositionValue (validateValueNode crates room) object value
      checkSome ((object.lookup "type").bind Value.asStr) fun expected =>
        failIf (!isOfType expected value) (.invalidField "value_type")
      checkSome ((object.lookup "enum").bind Value.asArray) (validateEnumValue crates value)
      checkIf (value.isObject && asksOf object ["object"] objectKeywords)
        (validateObjectValue (validateValueNode crates room) object value)
      checkIf (value.asStr.isSome && asksOf object ["string"] stringKeywords) do
        let text ← okOr value.asStr (.invalidField "value_type")
        validateStringValue object text
      checkIf ((asF64 value).isSome && asksOf object ["number", "integer"] numberKeywords)
        (validateNumberValue object value)
      checkIf (value.isArray && asksOf object ["array"] arrayKeywords) do
        let items ← okOr value.asArray (.invalidField "value_type")
        validateArrayValue crates (validateValueNode crates room) object items

/-! ## A schema -/

def isSchemaKeyword (keyword : String) : Bool :=
  ["type", "title", "description", "required", "properties", "additionalProperties", "minLength", "maxLength",
    "pattern", "minimum", "maximum", "exclusiveMinimum", "exclusiveMaximum", "minItems", "maxItems", "uniqueItems",
    "items", "enum", "anyOf", "oneOf", "not"].contains keyword

def isSupportedType (value : String) : Bool :=
  ["object", "string", "number", "integer", "array", "boolean", "null"].contains value

def declaredType (schema : List (String × Value)) : Except ContractError (Option String) :=
  match schema.lookup "type" with
  | some (.string value) => if isSupportedType value then .ok (some value) else .error (.invalidField "schema_type")
  | some _ => .error (.invalidField "schema_type")
  | none => .ok none

def validateEnum (crates : Crates) (value : Value) : Except ContractError Unit := do
  let values ← okOr value.asArray (.invalidField "enum")
  failIf (values.isEmpty || 256 < values.length) (.invalidField "enum")
  let hashes ← hashesOf crates values
  failIf (hasDuplicates hashes) (.invalidField "enum")

/-- The names that are required, after those already met. -/
def requiredNames : List String → List Value → Except ContractError Unit
  | _, [] => .ok ()
  | names, value :: rest => do
      let name ← okOr value.asStr (.invalidField "required")
      failIf (!boundedText name 255 || names.contains name) (.invalidField "required")
      requiredNames (name :: names) rest

def validateObjectKeywords (node : Value → Except ContractError Unit) (depth : Nat)
    (object : List (String × Value)) : Except ContractError Unit := do
  let properties := (object.lookup "properties").bind Value.asObject
  checkSome (object.lookup "required") fun required => do
    let required ← okOr required.asArray (.invalidField "required")
    failIf (depth == 0 && !required.isEmpty && properties.isNone) (.invalidField "required")
    requiredNames [] required
  failIf ((object.lookup "properties").isSome && properties.isNone) (.invalidField "properties")
  checkSome properties fun properties => do
    failIf (256 < properties.length) (.invalidField "properties")
    forEach properties fun property => do
      failIf (!boundedText property.1 255) (.invalidField "property_name")
      node property.2
    checkSome ((object.lookup "required").bind Value.asArray) fun required =>
      failIf (required.any fun name => name.asStr.any fun name => (properties.lookup name).isNone)
        (.invalidField "required")
  checkSome (object.lookup "additionalProperties") fun additional =>
    failIf (!additional.isBoolean) (.invalidField "additionalProperties")

def schemaBound (object : List (String × Value)) (keyword : String) : Except ContractError (Option Nat) :=
  match object.lookup keyword with
  | none => .ok none
  | some value => do
      let value ← okOr (asU64 value) (.invalidField keyword)
      failIf (1000000 < value) (.invalidField keyword)
      .ok (some value)

/-- `a.zip(b).is_some_and(|(a, b)| bad(a, b))` -/
def bothAre {α : Type} (a b : Option α) (bad : α → α → Bool) : Bool := a.any fun a => b.any (bad a)

def validateStringKeywords (object : List (String × Value)) : Except ContractError Unit := do
  let min ← schemaBound object "minLength"
  let max ← schemaBound object "maxLength"
  failIf (bothAre min max fun min max => max < min) (.invalidField "string_length")
  checkSome (object.lookup "pattern") fun pattern => do
    let pattern ← okOr pattern.asStr (.invalidField "pattern")
    failIf (parseSafePattern pattern).isNone (.invalidField "pattern")

/-- One turn of the loop over the bounds of a number. -/
def numberBound (object : List (String × Value)) (declaredType : Option String) (keyword : String) :
    Except ContractError (Option UInt64) :=
  match object.lookup keyword with
  | none => .ok none
  | some value => do
      let number ← okOr (asF64 value) (.invalidField "number_bound")
      failIf (!isFinite number || (declaredType == some "integer" && Binary64.hasFraction number))
        (.invalidField "number_bound")
      .ok (some number)

def validateNumberKeywords (object : List (String × Value)) (declaredType : Option String) :
    Except ContractError Unit := do
  let minimum ← numberBound object declaredType "minimum"
  let maximum ← numberBound object declaredType "maximum"
  let exclusiveMinimum ← numberBound object declaredType "exclusiveMinimum"
  let exclusiveMaximum ← numberBound object declaredType "exclusiveMaximum"
  failIf ((bothAre minimum maximum fun min max => Binary64.lt max min) ||
      bothAre exclusiveMinimum exclusiveMaximum fun min max => Binary64.le max min)
    (.invalidField "number_bound")

def validateArrayKeywords (node : Value → Except ContractError Unit) (object : List (String × Value)) :
    Except ContractError Unit := do
  let min ← schemaBound object "minItems"
  let max ← schemaBound object "maxItems"
  failIf (bothAre min max fun min max => max < min) (.invalidField "array_length")
  checkSome (object.lookup "uniqueItems") fun unique => failIf (!unique.isBoolean) (.invalidField "uniqueItems")
  checkSome (object.lookup "items") fun items => do
    failIf (!items.isObject) (.invalidField "items")
    node items

/-- The keywords of one kind of value: they are checked where the schema is of one of the types, or of no
    type and has some of them; elsewhere there must be none. -/
def validateKeywordsOf (declaredType : Option String) (types : List String) (hasKeywords : Bool) (field : String)
    (check : Except ContractError Unit) : Except ContractError Unit :=
  if declaredType.any (types.contains ·) || (declaredType.isNone && hasKeywords) then check
  else failIf hasKeywords (.invalidField field)

def validateText (object : List (String × Value)) (keyword : String) (bounded : String → Nat → Bool) :
    Except ContractError Unit :=
  checkSome (object.lookup keyword) fun value => do
    let value ← okOr value.asStr (.invalidField keyword)
    failIf (!bounded value 2000) (.invalidField keyword)

/-- `validate_schema_node` -/
def validateSchemaNode (crates : Crates) : Nat → Value → Except ContractError Unit
  | 0, _ => .error (.invalidField "schema_depth")
  | room + 1, schema => do
      let object ← okOr schema.asObject (.invalidField "input_schema")
      failIf object.isEmpty (.invalidField "input_schema")
      forEach object fun member =>
        failIf (!isSchemaKeyword member.1) (.unsupportedSchemaKeyword member.1)
      let declaredType ← declaredType object
      checkSome (object.lookup "enum") (validateEnum crates)
      validateText object "title" boundedText
      validateText object "description" boundedDescription
      forEach ["anyOf", "oneOf"] fun keyword =>
        checkSome (object.lookup keyword) fun branches => do
          let branches ← okOr branches.asArray (.invalidField keyword)
          failIf (branches.isEmpty || MAX_SCHEMA_BRANCHES < branches.length) (.invalidField keyword)
          forEach branches (validateSchemaNode crates room)
      checkSome (object.lookup "not") (validateSchemaNode crates room)
      validateKeywordsOf declaredType ["object"] (hasKeyword object objectKeywords) "object_schema_keyword"
        (validateObjectKeywords (validateSchemaNode crates room) (MAX_SCHEMA_DEPTH - room) object)
      validateKeywordsOf declaredType ["string"] (hasKeyword object stringKeywords) "string_schema_keyword"
        (validateStringKeywords object)
      validateKeywordsOf declaredType ["number", "integer"] (hasKeyword object numberKeywords)
        "number_schema_keyword" (validateNumberKeywords object declaredType)
      validateKeywordsOf declaredType ["array"] (hasKeyword object arrayKeywords) "array_schema_keyword"
        (validateArrayKeywords (validateSchemaNode crates room) object)

def validateJsonSchema (crates : Crates) (schema : Value) : Except ContractError Unit :=
  validateSchemaNode crates (MAX_SCHEMA_DEPTH + 1) schema

def validateJsonValue (crates : Crates) (schema value : Value) : Except ContractError Unit := do
  validateJsonSchema crates schema
  validateValueNode crates (MAX_SCHEMA_DEPTH + 1) schema value

end AiPlatform.Capability
