/-
  AiPlatform.Capability.SchemaMeaning

  What a schema of the subset says of a value, as a proposition about the two, and what
  the check of a schema gives the pass over a value to rely on.

  Two JSON values count as equal where their canonical hashes are.
-/

import AiPlatform.Capability.PatternMatcher
import AiPlatform.Capability.SchemaContract
import AiPlatform.Lib.Assoc

namespace AiPlatform.Capability

open AiPlatform.Json AiPlatform.Checks AnchoredPattern

/-! ## Keywords that ask nothing of a sub-schema -/

def SameHash (crates : Crates) (a b : Value) : Prop := canonicalJsonHashAny crates a = canonicalJsonHashAny crates b

/-- `type` -/
def OfType (schema value : Value) : Prop :=
  ∀ expected, schema.get "type" = some (.string expected) → isOfType expected value = true

/-- `enum` -/
def Listed (crates : Crates) (schema value : Value) : Prop :=
  ∀ listed, schema.get "enum" = some (.array listed) → ∃ candidate ∈ listed, SameHash crates candidate value

/-- A length is within the bounds that are given. -/
structure WithinLength (schema : Value) (minimum maximum : String) (length : Nat) : Prop where
  atLeast : ∀ bound, schema.get minimum = some (.number (.posInt bound)) → bound.toNat ≤ length
  atMost : ∀ bound, schema.get maximum = some (.number (.posInt bound)) → length ≤ bound.toNat

structure TextHolds (schema : Value) (text : String) : Prop where
  length : WithinLength schema "minLength" "maxLength" text.length
  pattern : ∀ pattern, schema.get "pattern" = some (.string pattern) → ∃ parsed,
    parseSafePattern pattern = some parsed ∧ Found patternAtomMatches parsed.terms text.toList

/-- The exact number behind a JSON number, in units of `2 ^ -1074`; an integer counts as
    the binary64 number it is rounded to. -/
def exactly (n : Number) : Int := Binary64.units (numberAsF64 n)

structure NumberHolds (schema : Value) (n : Number) : Prop where
  minimum : ∀ bound, schema.get "minimum" = some (.number bound) → exactly bound ≤ exactly n
  maximum : ∀ bound, schema.get "maximum" = some (.number bound) → exactly n ≤ exactly bound
  exclusiveMinimum : ∀ bound, schema.get "exclusiveMinimum" = some (.number bound) → exactly bound < exactly n
  exclusiveMaximum : ∀ bound, schema.get "exclusiveMaximum" = some (.number bound) → exactly n < exactly bound

structure ItemsHold (crates : Crates) (schema : Value) (items : List Value) : Prop where
  length : WithinLength schema "minItems" "maxItems" items.length
  unique : schema.get "uniqueItems" = some (.bool true) → items.Pairwise fun a b => ¬ SameHash crates a b

structure MembersHold (schema : Value) (members : List (String × Value)) : Prop where
  required : ∀ names, schema.get "required" = some (.array names) → ∀ name, .string name ∈ names →
    (members.lookup name).isSome
  closed : schema.get "additionalProperties" = some (.bool false) → ∀ member ∈ members, ∃ properties sub,
    schema.get "properties" = some (.object properties) ∧ properties.lookup member.1 = some sub

/-! ## Reading a keyword -/

theorem asStr_eq_some (v : Value) (text : String) : v.asStr = some text ↔ v = .string text := by
  cases v <;> simp [Value.asStr]

theorem asBool_eq_some (v : Value) (b : Bool) : v.asBool = some b ↔ v = .bool b := by
  cases v <;> simp [Value.asBool]

theorem asArray_eq_some (v : Value) (items : List Value) : v.asArray = some items ↔ v = .array items := by
  cases v <;> simp [Value.asArray]

theorem asObject_eq_some (v : Value) (members : List (String × Value)) :
    v.asObject = some members ↔ v = .object members := by
  cases v <;> simp [Value.asObject]

/-! ## The meaning of a schema -/

theorem sizeOf_lt_of_get {schema sub : Value} {key : String} (h : schema.get key = some sub) :
    sizeOf sub < sizeOf schema := by
  cases schema with
  | object members =>
    have hmem : (key, sub) ∈ members := Assoc.mem_of_lookup h
    have hlt := List.sizeOf_lt_of_mem hmem
    rw [Prod.mk.sizeOf_spec] at hlt
    rw [Value.object.sizeOf_spec]
    omega
  | null | bool b | number n | string s | array items => cases h

theorem sizeOf_lt_of_branch {schema branch : Value} {branches : List Value} {key : String}
    (h : schema.get key = some (.array branches)) (hmem : branch ∈ branches) : sizeOf branch < sizeOf schema := by
  have hlt := sizeOf_lt_of_get h
  have hitem := List.sizeOf_lt_of_mem hmem
  rw [Value.array.sizeOf_spec] at hlt
  omega

/-- The value is one the schema describes.  Of `oneOf` just one branch does; `not` keeps this
    from being an inductive predicate, so that it goes down the schema instead. -/
def Satisfies (crates : Crates) (schema value : Value) : Prop :=
  OfType schema value ∧
  Listed crates schema value ∧
  (∀ text, value = .string text → TextHolds schema text) ∧
  (∀ n, value = .number n → NumberHolds schema n) ∧
  (∀ items, value = .array items → ItemsHold crates schema items) ∧
  (∀ members, value = .object members → MembersHold schema members) ∧
  (∀ branches, (_h : schema.get "anyOf" = some (.array branches)) →
    ∃ branch, ∃ _hmem : branch ∈ branches, Satisfies crates branch value) ∧
  (∀ branches, (_h : schema.get "oneOf" = some (.array branches)) →
    ∃! i : Fin branches.length, Satisfies crates branches[i] value) ∧
  (∀ branch, (_h : schema.get "not" = some branch) → ¬ Satisfies crates branch value) ∧
  (∀ items, (_h : schema.get "items" = some items) → ∀ values, value = .array values →
    ∀ item ∈ values, Satisfies crates items item) ∧
  (∀ properties name sub, (_h : schema.get "properties" = some properties) →
    (_hsub : properties.get name = some sub) → ∀ members, value = .object members →
      ∀ member, members.lookup name = some member → Satisfies crates sub member)
termination_by sizeOf schema
decreasing_by
  · exact sizeOf_lt_of_branch _h _hmem
  · exact sizeOf_lt_of_branch _h (List.getElem_mem _)
  · exact sizeOf_lt_of_get _h
  · exact sizeOf_lt_of_get _h
  · exact lt_trans (sizeOf_lt_of_get _hsub) (sizeOf_lt_of_get _h)

end AiPlatform.Capability
