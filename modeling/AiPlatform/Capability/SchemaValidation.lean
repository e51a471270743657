/-
  AiPlatform.Capability.SchemaValidation

  The pass over a value decides the meaning of the schema: under a schema that was
  accepted it never runs into the depth bound, a pattern that does not parse or a
  keyword it cannot read, so that what `not`, `anyOf` and `oneOf` see of a branch is
  whether the branch describes the value.
-/

import AiPlatform.Capability.SchemaMeaning
import Mathlib.Data.List.Sort

namespace AiPlatform.Capability

open AiPlatform.Json AiPlatform.Checks

variable {crates : Crates} {object : List (String × Value)} {keyword : String} {given value : Value}

/-! ## What the check of a schema says of a node -/

/-- A kind of value, by the types that name it and the keywords that are about it. -/
def schemaKinds : List (List String × List String) :=
  [(["object"], objectKeywords), (["string"], stringKeywords), (["number", "integer"], numberKeywords),
    (["array"], arrayKeywords)]

/-- What is known of a node of an accepted schema; `sub` is known of its sub-schemas. -/
structure AcceptedNode (sub : Value → Prop) (object : List (String × Value)) : Prop where
  branches : ∀ keyword ∈ ["anyOf", "oneOf"], ∀ given, object.lookup keyword = some given →
    ∃ branches, given = .array branches ∧ ∀ branch ∈ branches, sub branch
  negated : ∀ branch, object.lookup "not" = some branch → sub branch
  properties : ∀ given, object.lookup "properties" = some given →
    ∃ properties, given = .object properties ∧ ∀ property ∈ properties, sub property.2
  pattern : ∀ given, object.lookup "pattern" = some given →
    ∃ pattern parsed, given = .string pattern ∧ parseSafePattern pattern = some parsed
  bounds : ∀ keyword ∈ numberKeywords, ∀ given, object.lookup keyword = some given →
    ∃ n, given = .number n ∧ isFinite (numberAsF64 n) = true
  items : ∀ items, object.lookup "items" = some items → sub items
  /-- Keywords only stand where they are looked at. -/
  asks : ∀ kind ∈ schemaKinds, ∀ keyword ∈ kind.2, object.lookup keyword ≠ none → asksOf object kind.1 kind.2 = true

section Accepted

variable {node : Value → Except ContractError Unit} {declared : Option String}

/-- Where a keyword of a kind stands, the schema asks for the kind and its keywords have been checked. -/
theorem asksOf_of_keyword {types keywords : List String} {field : String} {check : Except ContractError Unit}
    (hdeclared : declaredType object = .ok declared)
    (h : validateKeywordsOf declared types (hasKeyword object keywords) field check = .ok ())
    (hmem : keyword ∈ keywords) (hgiven : object.lookup keyword ≠ none) :
    asksOf object types keywords = true ∧ check = .ok () := by
  have hhas : hasKeyword object keywords = true :=
    List.any_eq_true.mpr ⟨keyword, hmem, Option.isSome_iff_ne_none.mpr hgiven⟩
  have hasks : asksOf object types keywords =
      (declared.any (types.contains ·) || (declared.isNone && hasKeyword object keywords)) := by
    unfold declaredType at hdeclared
    unfold asksOf
    split at hdeclared
    · rename_i name htype
      split at hdeclared
      · rw [htype, ← Except.ok.inj hdeclared]
        rfl
      · cases hdeclared
    · cases hdeclared
    · case h_3 htype =>
      rw [htype, ← Except.ok.inj hdeclared]
      rfl
  unfold validateKeywordsOf at h
  split at h
  · case isTrue hcondition => exact ⟨hasks.trans hcondition, h⟩
  · rw [hhas] at h
    cases h

theorem properties_of_ok {depth : Nat} (h : validateObjectKeywords node depth object = .ok ())
    (hgiven : object.lookup "properties" = some given) :
    ∃ properties, given = .object properties ∧ ∀ property ∈ properties, node property.2 = .ok () := by
  obtain ⟨-, h⟩ := then_eq_ok.mp h
  obtain ⟨hobject, h⟩ := then_eq_ok.mp h
  obtain ⟨hproperties, -⟩ := then_eq_ok.mp h
  rw [hgiven] at hobject hproperties
  cases given with
  | object properties =>
    obtain ⟨-, h⟩ := then_eq_ok.mp (checkSome_eq_ok.mp hproperties properties rfl)
    obtain ⟨heach, -⟩ := then_eq_ok.mp h
    refine ⟨properties, rfl, fun property hmem => ?_⟩
    exact (then_eq_ok.mp (forEach_eq_ok.mp heach property hmem)).2
  | null | bool b | number n | string s | array items => cases hobject

theorem pattern_of_ok (h : validateStringKeywords object = .ok ()) (hgiven : object.lookup "pattern" = some given) :
    ∃ pattern parsed, given = .string pattern ∧ parseSafePattern pattern = some parsed := by
  obtain ⟨min, -, h⟩ := bind_eq_ok.mp h
  obtain ⟨max, -, h⟩ := bind_eq_ok.mp h
  obtain ⟨-, h⟩ := then_eq_ok.mp h
  obtain ⟨pattern, hpattern, h⟩ := okOr_bind_eq_ok.mp (checkSome_eq_ok.mp h given hgiven)
  cases given with
  | string text =>
    obtain rfl := Option.some.inj hpattern
    obtain ⟨parsed, hparse⟩ := Option.isSome_iff_exists.mp (Option.isNone_eq_false_iff.mp (failIf_eq_ok.mp h))
    exact ⟨text, parsed, rfl, hparse⟩
  | null | bool b | number n | array items | object members => cases hpattern

theorem bound_of_ok {bound : Option UInt64} (h : numberBound object declared keyword = .ok bound)
    (hgiven : object.lookup keyword = some given) : ∃ n, given = .number n ∧ isFinite (numberAsF64 n) = true := by
  rw [numberBound, hgiven] at h
  obtain ⟨number, hnumber, h⟩ := okOr_bind_eq_ok.mp h
  obtain ⟨u, hfinite, -⟩ := bind_eq_ok.mp h
  cases given with
  | number n =>
    obtain rfl := Option.some.inj hnumber
    have hbad := failIf_eq_ok.mp hfinite
    rw [Bool.or_eq_false_iff, Bool.not_eq_false'] at hbad
    exact ⟨n, rfl, hbad.1⟩
  | null | bool b | string s | array items | object members => cases hnumber

theorem bounds_of_ok (h : validateNumberKeywords object declared = .ok ()) (hkeyword : keyword ∈ numberKeywords)
    (hgiven : object.lookup keyword = some given) : ∃ n, given = .number n ∧ isFinite (numberAsF64 n) = true := by
  obtain ⟨minimum, hminimum, h⟩ := bind_eq_ok.mp h
  obtain ⟨maximum, hmaximum, h⟩ := bind_eq_ok.mp h
  obtain ⟨exclusiveMinimum, hexclusiveMinimum, h⟩ := bind_eq_ok.mp h
  obtain ⟨exclusiveMaximum, hexclusiveMaximum, -⟩ := bind_eq_ok.mp h
  simp only [numberKeywords, List.mem_cons, List.not_mem_nil, or_false] at hkeyword
  rcases hkeyword with rfl | rfl | rfl | rfl
  · exact bound_of_ok hminimum hgiven
  · exact bound_of_ok hmaximum hgiven
  · exact bound_of_ok hexclusiveMinimum hgiven
  · exact bound_of_ok hexclusiveMaximum hgiven

theorem items_of_ok (h : validateArrayKeywords node object = .ok ()) (hgiven : object.lookup "items" = some given) :
    node given = .ok () := by
  obtain ⟨min, -, h⟩ := bind_eq_ok.mp h
  obtain ⟨max, -, h⟩ := bind_eq_ok.mp h
  obtain ⟨-, h⟩ := then_eq_ok.mp h
  obtain ⟨-, h⟩ := then_eq_ok.mp h
  exact (then_eq_ok.mp (checkSome_eq_ok.mp h given hgiven)).2

/-- An accepted node, its sub-schemas accepted with one level less. -/
theorem accepted_of_ok {room : Nat} {schema : Value} (h : validateSchemaNode crates (room + 1) schema = .ok ()) :
    ∃ object, schema = .object object ∧ AcceptedNode (fun sub => validateSchemaNode crates room sub = .ok ()) object := by
  rw [validateSchemaNode] at h
  obtain ⟨object, hobject, h⟩ := okOr_bind_eq_ok.mp h
  obtain ⟨-, h⟩ := then_eq_ok.mp h
  obtain ⟨-, h⟩ := then_eq_ok.mp h
  obtain ⟨declared, hdeclared, h⟩ := bind_eq_ok.mp h
  obtain ⟨-, h⟩ := then_eq_ok.mp h
  obtain ⟨-, h⟩ := then_eq_ok.mp h
  obtain ⟨-, h⟩ := then_eq_ok.mp h
  obtain ⟨hbranches, h⟩ := then_eq_ok.mp h
  obtain ⟨hnot, h⟩ := then_eq_ok.mp h
  obtain ⟨hobjects, h⟩ := then_eq_ok.mp h
  obtain ⟨hstrings, h⟩ := then_eq_ok.mp h
  obtain ⟨hnumbers, harrays⟩ := then_eq_ok.mp h
  have hne : ∀ {keyword given}, object.lookup keyword = some given → object.lookup keyword ≠ none :=
    fun hgiven hnone => (by cases hgiven.symm.trans hnone)
  refine ⟨object, (asObject_eq_some _ _).mp hobject, ?_⟩
  constructor
  · intro keyword hkeyword given hgiven
    have hkeyword := forEach_eq_ok.mp hbranches keyword hkeyword
    obtain ⟨branches, harray, h⟩ := okOr_bind_eq_ok.mp (checkSome_eq_ok.mp hkeyword given hgiven)
    obtain ⟨-, heach⟩ := then_eq_ok.mp h
    exact ⟨branches, (asArray_eq_some _ _).mp harray, forEach_eq_ok.mp heach⟩
  · exact fun branch hgiven => checkSome_eq_ok.mp hnot branch hgiven
  · exact fun given hgiven =>
      properties_of_ok (asksOf_of_keyword hdeclared hobjects (by decide) (hne hgiven)).2 hgiven
  · exact fun given hgiven => pattern_of_ok (asksOf_of_keyword hdeclared hstrings (by decide) (hne hgiven)).2 hgiven
  · exact fun keyword hkeyword given hgiven =>
      bounds_of_ok (asksOf_of_keyword hdeclared hnumbers hkeyword (hne hgiven)).2 hkeyword hgiven
  · exact fun given hgiven => items_of_ok (asksOf_of_keyword hdeclared harrays (by decide) (hne hgiven)).2 hgiven
  · intro kind hkind keyword hkeyword hgiven
    simp only [schemaKinds, List.mem_cons, List.not_mem_nil, or_false] at hkind
    rcases hkind with rfl | rfl | rfl | rfl
    · exact (asksOf_of_keyword hdeclared hobjects hkeyword hgiven).1
    · exact (asksOf_of_keyword hdeclared hstrings hkeyword hgiven).1
    · exact (asksOf_of_keyword hdeclared hnumbers hkeyword hgiven).1
    · exact (asksOf_of_keyword hdeclared harrays hkeyword hgiven).1

end Accepted

/-! ## Keyword by keyword -/

/-- What the pass over a value answers where the value is not described. -/
def refusals : List ContractError :=
  ["value_type", "enum", "anyOf", "oneOf", "not", "required", "additionalProperties", "string_length", "pattern",
    "number_bound", "array_length", "uniqueItems"].map .invalidField

def IsRefusal (e : ContractError) : Prop := e ∈ refusals

instance (e : ContractError) : Decidable (IsRefusal e) := inferInstanceAs (Decidable (e ∈ refusals))

section Keywords

variable {node : Value → Value → Except ContractError Unit} {sat : Value → Value → Prop} {sub : Value → Prop}

/-- `if let Some(a) = schema.get(keyword).and_then(read)` -/
theorem read_eq_some {α : Type} {read : Value → Option α} {wrap : α → Value}
    (hread : ∀ v a, read v = some a ↔ v = wrap a) {a : α} :
    (object.lookup keyword).bind read = some a ↔ object.lookup keyword = some (wrap a) := by
  rw [Option.bind_eq_some_iff]
  constructor
  · rintro ⟨given, hgiven, h⟩
    exact (hread given a).mp h ▸ hgiven
  · exact fun hgiven => ⟨_, hgiven, (hread _ a).mpr rfl⟩

theorem read_decides {α : Type} {read : Value → Option α} {wrap : α → Value}
    (hread : ∀ v a, read v = some a ↔ v = wrap a) {check : α → Except ContractError Unit} {p : α → Prop}
    (h : ∀ a, object.lookup keyword = some (wrap a) → Decides IsRefusal (check a) (p a)) :
    Decides IsRefusal (checkSome ((object.lookup keyword).bind read) check)
      (∀ a, object.lookup keyword = some (wrap a) → p a) := by
  refine (Decides.checkSome fun a hgiven => h a ((read_eq_some hread).mp hgiven)).congr ?_
  simp only [read_eq_some hread]

/-- The number of branches that describe the value. -/
theorem branches_decide {wrong : Nat → Bool} {p : List Value → Prop} (hfield : IsRefusal (.invalidField keyword))
    (haccepted : ∀ given, object.lookup keyword = some given →
      ∃ branches, given = .array branches ∧ ∀ branch ∈ branches, sub branch)
    (hcount : ∀ branches : List Value, (∀ branch ∈ branches, sub branch) →
      (wrong (branches.filter fun branch => (node branch value).isOk).length = false ↔ p branches)) :
    Decides IsRefusal (validateBranches node object value keyword wrong)
      (∀ branches, object.lookup keyword = some (.array branches) → p branches) := by
  have hgiven : ∀ given, object.lookup keyword = some given → Decides IsRefusal
      (okOr given.asArray (.invalidField keyword) >>= fun branches =>
        failIf (wrong (branches.filter fun branch => (node branch value).isOk).length) (.invalidField keyword))
      (∀ branches, given = .array branches → p branches) := by
    intro given hgiven
    obtain ⟨branches, rfl, hsub⟩ := haccepted given hgiven
    refine (Decides.failIf hfield).congr ((hcount branches hsub).trans ⟨fun h _ heq => ?_, fun h => h branches rfl⟩)
    exact Value.array.inj heq ▸ h
  refine (Decides.checkSome hgiven).congr ?_
  exact ⟨fun h branches hbranches => h _ hbranches branches rfl, fun h given hgiven branches heq => h _ (heq ▸ hgiven)⟩

theorem length_filter_eq_one_iff {α : Type} {p : α → Bool} {xs : List α} :
    (xs.filter p).length = 1 ↔ ∃! i : Fin xs.length, p xs[i] = true := by
  induction xs with
  | nil => exact iff_of_false Nat.zero_ne_one fun ⟨i, _⟩ => i.elim0
  | cons x xs ih =>
    cases hx : p x with
    | false =>
      rw [List.filter_cons_of_neg (by rw [hx]; exact Bool.false_ne_true), ih]
      constructor
      · rintro ⟨i, hi, hunique⟩
        refine ⟨i.succ, hi, fun j hj => ?_⟩
        cases j using Fin.cases with
        | zero => exact absurd (hx.symm.trans hj) Bool.false_ne_true
        | succ j => exact congrArg Fin.succ (hunique j hj)
      · rintro ⟨i, hi, hunique⟩
        cases i using Fin.cases with
        | zero => exact absurd (hx.symm.trans hi) Bool.false_ne_true
        | succ i => exact ⟨i, hi, fun j hj => Fin.succ_injective _ (hunique j.succ hj)⟩
    | true =>
      rw [List.filter_cons_of_pos hx, List.length_cons, Nat.add_eq_right, List.length_eq_zero_iff,
        List.filter_eq_nil_iff]
      constructor
      · intro hnone
        refine ⟨⟨0, Nat.succ_pos _⟩, hx, fun j hj => ?_⟩
        cases j using Fin.cases with
        | zero => rfl
        | succ j => exact absurd hj (hnone _ (List.getElem_mem _))
      · rintro ⟨i, -, hunique⟩ y hy hp
        obtain ⟨j, hj, rfl⟩ := List.getElem_of_mem hy
        have hzero := hunique ⟨0, Nat.succ_pos _⟩ hx
        have hsucc := hunique (Fin.succ ⟨j, hj⟩) hp
        exact Fin.succ_ne_zero _ (hsucc.trans hzero.symm)

/-- The sub-schemas a value as a whole is held against. -/
structure Composes (sat : Value → Value → Prop) (object : List (String × Value)) (value : Value) : Prop where
  anyOf : ∀ branches, object.lookup "anyOf" = some (.array branches) → ∃ branch ∈ branches, sat branch value
  oneOf : ∀ branches, object.lookup "oneOf" = some (.array branches) →
    ∃! i : Fin branches.length, sat (branches.get i) value
  negated : ∀ branch, object.lookup "not" = some branch → ¬ sat branch value

theorem composition_decides (haccepted : AcceptedNode sub object)
    (hnode : ∀ branch, sub branch → Decides IsRefusal (node branch value) (sat branch value)) :
    Decides IsRefusal (validateCompositionValue node object value) (Composes sat object value) := by
  have hany := @branches_decide object "anyOf" value node sub (· == 0) (fun branches => ∃ branch ∈ branches, sat branch value)
    (by decide) (haccepted.branches "anyOf" (by decide)) fun branches hsub => by
      rw [beq_eq_false_iff_ne, Ne, List.length_eq_zero_iff, List.filter_eq_nil_iff]
      push Not
      exact exists_congr fun branch => and_congr_right fun hmem => (hnode branch (hsub branch hmem)).isOk_iff
  have hone := @branches_decide object "oneOf" value node sub (· != 1)
    (fun branches => ∃! i : Fin branches.length, sat branches[i] value)
    (by decide) (haccepted.branches "oneOf" (by decide)) fun branches hsub => by
      rw [bne_eq_false_iff_eq, length_filter_eq_one_iff]
      exact existsUnique_congr fun i => (hnode _ (hsub _ (List.getElem_mem _))).isOk_iff
  have hnot : Decides IsRefusal
      (checkSome (object.lookup "not") fun branch => failIf (node branch value).isOk (.invalidField "not"))
      (∀ branch, object.lookup "not" = some branch → ¬ sat branch value) := by
    refine Decides.checkSome fun branch hgiven => (Decides.failIf (by decide)).congr ?_
    rw [← (hnode branch (haccepted.negated branch hgiven)).isOk_iff, Bool.not_eq_true]
  refine (hany.andThen fun _ => hone.andThen fun _ => hnot).congr ?_
  exact ⟨fun h => ⟨h.1, h.2.1, h.2.2⟩, fun h => ⟨h.anyOf, h.oneOf, h.negated⟩⟩

theorem type_decides :
    Decides IsRefusal
      (checkSome ((object.lookup "type").bind Value.asStr) fun expected =>
        failIf (!isOfType expected value) (.invalidField "value_type"))
      (OfType (.object object) value) := by
  refine (read_decides asStr_eq_some fun expected _ => Decides.failIf (by decide)).congr ?_
  simp only [Bool.not_eq_false']
  rfl

theorem propertySchema_eq_some {name : String} {schema : Value} : propertySchema object name = some schema ↔
    ∃ properties, object.lookup "properties" = some (.object properties) ∧ properties.lookup name = some schema := by
  rw [propertySchema, Option.bind_eq_some_iff]
  simp only [read_eq_some asObject_eq_some]

/-- The members of a value that are described meet what is said of them. -/
def MembersSatisfy (sat : Value → Value → Prop) (object members : List (String × Value)) : Prop :=
  ∀ properties name schema, object.lookup "properties" = some properties → properties.get name = some schema →
    ∀ member, members.lookup name = some member → sat schema member

variable {members : List (String × Value)}

theorem required_decides :
    Decides IsRefusal
      (checkSome ((object.lookup "required").bind Value.asArray) fun required =>
        forEach (required.filterMap Value.asStr) fun name =>
          failIf (members.lookup name).isNone (.invalidField "required"))
      (∀ names, object.lookup "required" = some (.array names) → ∀ name, .string name ∈ names →
        (members.lookup name).isSome) := by
  refine (read_decides asArray_eq_some fun names _ => Decides.forEach fun name _ =>
    Decides.failIf (by decide)).congr ?_
  simp only [List.mem_filterMap, asStr_eq_some, exists_eq_right, Option.isNone_eq_false_iff]

theorem members_decide
    (hnode : ∀ name schema, propertySchema object name = some schema → ∀ member ∈ members,
      Decides IsRefusal (node schema member.2) (sat schema member.2)) :
    Decides IsRefusal
      (forEach members fun member =>
        match propertySchema object member.1 with
        | some propertySchema => node propertySchema member.2
        | none => failIf ((object.lookup "additionalProperties").bind Value.asBool == some false)
            (.invalidField "additionalProperties"))
      (∀ member ∈ members, (∀ schema, propertySchema object member.1 = some schema → sat schema member.2) ∧
        (object.lookup "additionalProperties" = some (.bool false) →
          ∃ schema, propertySchema object member.1 = some schema)) := by
  refine Decides.forEach fun member hmember => ?_
  cases hfound : propertySchema object member.1 with
  | some schema =>
    refine (hnode member.1 schema hfound member hmember).congr ?_
    constructor
    · exact fun h => ⟨fun other heq => Option.some.inj heq ▸ h, fun _ => ⟨schema, rfl⟩⟩
    · exact fun h => h.1 schema rfl
  | none =>
    refine (Decides.failIf (by decide)).congr ?_
    rw [beq_eq_false_iff_ne, Ne, read_eq_some asBool_eq_some]
    simp

theorem object_decides (hnodup : (members.map Prod.fst).Nodup)
    (hnode : ∀ name schema, propertySchema object name = some schema → ∀ member ∈ members,
      Decides IsRefusal (node schema member.2) (sat schema member.2)) :
    Decides IsRefusal (validateObjectValue node object (.object members))
      (MembersHold (.object object) members ∧ MembersSatisfy sat object members) := by
  refine (required_decides.andThen fun _ => members_decide hnode).congr ?_
  constructor
  · rintro ⟨hrequired, heach⟩
    refine ⟨⟨hrequired, fun hclosed member hmember => ?_⟩, ?_⟩
    · obtain ⟨schema, hfound⟩ := (heach member hmember).2 hclosed
      obtain ⟨properties, hgiven, hlookup⟩ := propertySchema_eq_some.mp hfound
      exact ⟨properties, schema, hgiven, hlookup⟩
    · intro properties name schema hgiven hschema member hmember
      refine (heach (name, member) (Assoc.mem_of_lookup hmember)).1 schema ?_
      cases properties with
      | object properties => exact propertySchema_eq_some.mpr ⟨properties, hgiven, hschema⟩
      | null | bool b | number n | string s | array items => cases hschema
  · rintro ⟨⟨hrequired, hclosed⟩, hsatisfy⟩
    refine ⟨hrequired, fun member hmember => ⟨fun schema hfound => ?_, fun hadditional => ?_⟩⟩
    · obtain ⟨properties, hgiven, hlookup⟩ := propertySchema_eq_some.mp hfound
      exact hsatisfy _ member.1 schema hgiven hlookup member.2 (Assoc.lookup_of_mem hnodup hmember)
    · obtain ⟨properties, schema, hgiven, hlookup⟩ := hclosed hadditional member hmember
      exact ⟨schema, propertySchema_eq_some.mpr ⟨properties, hgiven, hlookup⟩⟩

/-- A bound that is read and broken. -/
theorem any_read_eq_false_iff {α β : Type} {read : Value → Option α} {wrap : β → Value} {as : β → α}
    (hread : ∀ v a, read v = some a ↔ ∃ b, v = wrap b ∧ as b = a) {bad : α → Bool} :
    ((object.lookup keyword).bind read).any bad = false ↔
      ∀ b, object.lookup keyword = some (wrap b) → bad (as b) = false := by
  rw [← Bool.not_eq_true, Option.any_eq_true]
  simp only [Option.bind_eq_some_iff, hread]
  constructor
  · exact fun h b hgiven => Bool.eq_false_iff.mpr fun hbad => h ⟨as b, ⟨_, hgiven, b, rfl, rfl⟩, hbad⟩
  · rintro h ⟨a, ⟨given, hgiven, b, rfl, rfl⟩, hbad⟩
    exact absurd hbad (Bool.eq_false_iff.mp (h b hgiven))

theorem asU64_eq_some (v : Value) (n : Nat) : asU64 v = some n ↔ ∃ bound : UInt64, v = .number (.posInt bound) ∧
    bound.toNat = n := by
  cases v with
  | number number => cases number <;> simp [asU64]
  | null | bool b | string s | array items | object members => simp [asU64]

theorem asF64_eq_some (v : Value) (bits : UInt64) : asF64 v = some bits ↔ ∃ n, v = .number n ∧ numberAsF64 n = bits := by
  cases v <;> simp [asF64]

theorem withinLength_iff {minimum maximum : String} {length : Nat} :
    outOfBounds object minimum maximum length = false ↔ WithinLength (.object object) minimum maximum length := by
  rw [outOfBounds, Bool.or_eq_false_iff, any_read_eq_false_iff asU64_eq_some, any_read_eq_false_iff asU64_eq_some]
  simp only [decide_eq_false_iff_not, Nat.not_lt]
  exact ⟨fun h => ⟨h.1, h.2⟩, fun h => ⟨h.atLeast, h.atMost⟩⟩

theorem text_decides {text : String} (haccepted : AcceptedNode sub object) :
    Decides IsRefusal (validateStringValue object text) (TextHolds (.object object) text) := by
  have hmatches : ∀ pattern, object.lookup "pattern" = some (.string pattern) → Decides IsRefusal
      (okOr (parseSafePattern pattern) (.invalidField "pattern") >>= fun parsed =>
        failIf (!patternMatches parsed text) (.invalidField "pattern"))
      (∃ parsed, parseSafePattern pattern = some parsed ∧
        AnchoredPattern.Found patternAtomMatches parsed.terms text.toList) := by
    intro pattern hgiven
    obtain ⟨other, parsed, heq, hparse⟩ := haccepted.pattern _ hgiven
    obtain rfl := Value.string.inj heq
    rw [hparse]
    refine (Decides.failIf (by decide)).congr ?_
    rw [Bool.not_eq_false', patternMatches_iff]
    exact ⟨fun h => ⟨parsed, rfl, h⟩, fun ⟨_, heq, h⟩ => Option.some.inj heq ▸ h⟩
  refine ((Decides.failIf (by decide)).andThen fun _ => read_decides asStr_eq_some hmatches).congr ?_
  rw [withinLength_iff]
  exact ⟨fun h => ⟨h.1, h.2⟩, fun h => ⟨h.length, h.pattern⟩⟩

/-- The numbers of valid JSON are no `NaN`. -/
theorem not_isNaN {n : Number} (h : numberValid n = true) : Binary64.isNaN (numberAsF64 n) = false := by
  cases n with
  | posInt m =>
    have hlt := m.toNat_lt
    exact Binary64.isNaN_ofInt (by omega)
  | negInt m =>
    have hlow := m.le_toInt
    have hhigh := m.toInt_lt
    exact Binary64.isNaN_ofInt (by omega)
  | float bits => exact Binary64.isNaN_of_exponent h

theorem number_decides {n : Number} (hvalid : numberValid n = true) (htype : OfType (.object object) (.number n))
    (haccepted : AcceptedNode sub object) :
    Decides IsRefusal (validateNumberValue object (.number n)) (NumberHolds (.object object) n) := by
  have hinteger : ((object.lookup "type").bind Value.asStr == some "integer" && !isInteger (.number n)) = false := by
    rw [Bool.and_eq_false_imp, beq_iff_eq, read_eq_some asStr_eq_some, Bool.not_eq_false']
    exact htype "integer"
  have hbound : ∀ keyword ∈ numberKeywords, ∀ bound, object.lookup keyword = some (.number bound) →
      Binary64.isNaN (numberAsF64 bound) = false := by
    intro keyword hkeyword bound hgiven
    obtain ⟨other, heq, hfinite⟩ := haccepted.bounds keyword hkeyword _ hgiven
    obtain rfl := Value.number.inj heq
    exact Binary64.isNaN_of_exponent hfinite
  have hn := not_isNaN hvalid
  show Decides IsRefusal (failIf _ _ >>= fun _ => failIf _ _) _
  refine ((Decides.failIf (by decide)).andThen fun _ => Decides.failIf (by decide)).congr ?_
  rw [hinteger]
  simp only [Bool.or_eq_false_iff, any_read_eq_false_iff asF64_eq_some, true_and]
  constructor
  · rintro ⟨⟨⟨hmin, hmax⟩, hexmin⟩, hexmax⟩
    exact
      { minimum := fun b hb => (Binary64.lt_eq_false_iff hn (hbound _ (by decide) b hb)).mp (hmin b hb)
        maximum := fun b hb => (Binary64.lt_eq_false_iff (hbound _ (by decide) b hb) hn).mp (hmax b hb)
        exclusiveMinimum := fun b hb => (Binary64.le_eq_false_iff hn (hbound _ (by decide) b hb)).mp (hexmin b hb)
        exclusiveMaximum := fun b hb => (Binary64.le_eq_false_iff (hbound _ (by decide) b hb) hn).mp (hexmax b hb) }
  · intro h
    exact ⟨⟨⟨fun b hb => (Binary64.lt_eq_false_iff hn (hbound _ (by decide) b hb)).mpr (h.minimum b hb),
      fun b hb => (Binary64.lt_eq_false_iff (hbound _ (by decide) b hb) hn).mpr (h.maximum b hb)⟩,
      fun b hb => (Binary64.le_eq_false_iff hn (hbound _ (by decide) b hb)).mpr (h.exclusiveMinimum b hb)⟩,
      fun b hb => (Binary64.le_eq_false_iff (hbound _ (by decide) b hb) hn).mpr (h.exclusiveMaximum b hb)⟩

end Keywords

/-! ## Hashes -/

section Hashes

variable {node : Value → Value → Except ContractError Unit} {sat : Value → Value → Prop}

/-- In a sorted list equal texts are neighbours. -/
theorem any_zip_tail_eq_false_iff {xs : List String} (hsorted : xs.Pairwise (· ≤ ·)) :
    ((xs.zip xs.tail).any fun pair => pair.1 == pair.2) = false ↔ xs.IsChain (· < ·) := by
  induction xs with
  | nil => simp
  | cons x xs ih =>
    obtain ⟨hfirst, hrest⟩ := List.pairwise_cons.mp hsorted
    cases xs with
    | nil => simp
    | cons y ys =>
      have hle : x ≤ y := hfirst y List.mem_cons_self
      rw [List.isChain_cons_cons, ← ih hrest, List.tail_cons, List.zip_cons_cons, List.any_cons,
        Bool.or_eq_false_iff, beq_eq_false_iff_ne, List.tail_cons, hle.lt_iff_ne]

theorem hasDuplicates_eq_false_iff {xs : List String} : hasDuplicates xs = false ↔ xs.Nodup := by
  have hperm : (xs.insertionSort (· ≤ ·)).Perm xs := List.perm_insertionSort _ _
  have hsorted : (xs.insertionSort (· ≤ ·)).Pairwise (· ≤ ·) := List.pairwise_insertionSort _ _
  rw [hasDuplicates, any_zip_tail_eq_false_iff hsorted, ← hperm.nodup_iff, List.isChain_iff_pairwise]
  constructor
  · exact fun hlt => hlt.imp ne_of_lt
  · exact fun hnodup => (hsorted.and hnodup).imp fun h => lt_of_le_of_ne h.1 h.2

/-- The hash of a value, where the text of a value can always be written. -/
def digestOf (crates : Crates) (value : Value) : String :=
  hexEncode (crates.sha256 ((crates.toVec (canonicalize crates value)).getD []))

theorem canonicalJsonHashAny_eq (htext : ∀ v, (crates.toText v).isSome) (value : Value) :
    canonicalJsonHashAny crates value = .ok (digestOf crates value) := by
  obtain ⟨text, htext⟩ := Option.isSome_iff_exists.mp (htext (canonicalize crates value))
  rw [canonicalJsonHashAny, digestOf, Crates.toVec, htext]
  rfl

theorem hashesOf_eq (htext : ∀ v, (crates.toText v).isSome) (values : List Value) :
    hashesOf crates values = .ok (values.map (digestOf crates)) := by
  induction values with
  | nil => rfl
  | cons value rest ih =>
    rw [hashesOf, canonicalJsonHashAny_eq htext, ih]
    rfl

theorem sameHash_iff (htext : ∀ v, (crates.toText v).isSome) {a b : Value} :
    SameHash crates a b ↔ digestOf crates a = digestOf crates b := by
  rw [SameHash, canonicalJsonHashAny_eq htext, canonicalJsonHashAny_eq htext, Except.ok.injEq]

theorem enum_decides (htext : ∀ v, (crates.toText v).isSome) :
    Decides IsRefusal
      (checkSome ((object.lookup "enum").bind Value.asArray) (validateEnumValue crates value))
      (Listed crates (.object object) value) := by
  refine read_decides asArray_eq_some fun listed _ => ?_
  rw [validateEnumValue, canonicalJsonHashAny_eq htext, hashesOf_eq htext]
  refine (Decides.failIf (by decide)).congr ?_
  rw [Bool.not_eq_false', List.any_map, List.any_eq_true]
  refine exists_congr fun candidate => and_congr_right fun _ => ?_
  rw [Function.comp_apply, beq_iff_eq, sameHash_iff htext]

theorem array_decides (htext : ∀ v, (crates.toText v).isSome) {items : List Value}
    (hnode : ∀ schema, object.lookup "items" = some schema → ∀ item ∈ items,
      Decides IsRefusal (node schema item) (sat schema item)) :
    Decides IsRefusal (validateArrayValue crates node object items)
      (ItemsHold crates (.object object) items ∧
        ∀ schema, object.lookup "items" = some schema → ∀ item ∈ items, sat schema item) := by
  have hunique : Decides IsRefusal
      (checkIf ((object.lookup "uniqueItems").bind Value.asBool == some true) do
        let hashes ← hashesOf crates items
        failIf (hasDuplicates hashes) (.invalidField "uniqueItems"))
      (object.lookup "uniqueItems" = some (.bool true) → items.Pairwise fun a b => ¬ SameHash crates a b) := by
    rw [hashesOf_eq htext]
    refine (Decides.checkIf fun _ => Decides.failIf (by decide)).congr ?_
    rw [hasDuplicates_eq_false_iff, List.Nodup, List.pairwise_map, beq_iff_eq, read_eq_some asBool_eq_some]
    simp only [Ne, ← sameHash_iff htext]
  refine ((Decides.failIf (by decide)).andThen fun _ => hunique.andThen fun _ =>
    Decides.checkSome fun schema hgiven => Decides.forEach fun item hmem => hnode schema hgiven item hmem).congr ?_
  rw [withinLength_iff]
  exact ⟨fun h => ⟨⟨h.1, h.2.1⟩, h.2.2⟩, fun h => ⟨h.1.length, h.1.unique, h.2⟩⟩

end Hashes

/-! ## A whole schema -/

section Schema

variable {node : Value → Value → Except ContractError Unit} {sat : Value → Value → Prop} {sub : Value → Prop} {schema : Value}

/-- The keywords of a kind are looked at in a value of the kind. -/
theorem kind_decides {isKind : Bool} {kind : List String × List String} (haccepted : AcceptedNode sub object)
    (hkind : kind ∈ schemaKinds) {check : Except ContractError Unit} {p : Prop}
    (hcheck : isKind = true → Decides IsRefusal check p)
    (hother : isKind = false ∨ (∀ keyword ∈ kind.2, object.lookup keyword = none) → p) :
    Decides IsRefusal (checkIf (isKind && asksOf object kind.1 kind.2) check) p := by
  cases isKind with
  | false => exact .ok (hother (.inl rfl))
  | true =>
    cases hasks : asksOf object kind.1 kind.2 with
    | true => exact hcheck rfl
    | false =>
      refine .ok (hother (.inr fun keyword hkeyword => ?_))
      by_contra hgiven
      exact absurd (haccepted.asks kind hkind keyword hkeyword hgiven) (Bool.eq_false_iff.mp hasks)

/-- The meaning of a node, gathered by what the pass over a value calls. -/
theorem satisfies_iff : Satisfies crates (.object object) value ↔
    Composes (Satisfies crates) object value ∧
    OfType (.object object) value ∧
    Listed crates (.object object) value ∧
    (∀ members, value = .object members →
      MembersHold (.object object) members ∧ MembersSatisfy (Satisfies crates) object members) ∧
    (∀ text, value = .string text → TextHolds (.object object) text) ∧
    (∀ n, value = .number n → NumberHolds (.object object) n) ∧
    (∀ items, value = .array items → ItemsHold crates (.object object) items ∧
      ∀ schema, object.lookup "items" = some schema → ∀ item ∈ items, Satisfies crates schema item) := by
  rw [Satisfies]
  constructor
  · rintro ⟨htype, henum, htexts, hnumbers, hitems, hmembers, hany, hone, hnot, heach, hproperties⟩
    refine ⟨⟨fun branches h => ?_, hone, hnot⟩, htype, henum, fun members heq => ⟨hmembers members heq, ?_⟩, htexts,
      hnumbers, fun items heq => ⟨hitems items heq, fun schema h => heach schema h items heq⟩⟩
    · obtain ⟨branch, hmem, hbranch⟩ := hany branches h
      exact ⟨branch, hmem, hbranch⟩
    · exact fun properties name schema h hschema => hproperties properties name schema h hschema members heq
  · rintro ⟨hcomposes, htype, henum, hmembers, htexts, hnumbers, hitems⟩
    refine ⟨htype, henum, htexts, hnumbers, fun items heq => (hitems items heq).1,
      fun members heq => (hmembers members heq).1, fun branches h => ?_, hcomposes.oneOf, hcomposes.negated,
      fun schema h items heq => (hitems items heq).2 schema h,
      fun properties name schema h hschema members heq => (hmembers members heq).2 properties name schema h hschema⟩
    obtain ⟨branch, hmem, hbranch⟩ := hcomposes.anyOf branches h
    exact ⟨branch, hmem, hbranch⟩

theorem valid_of_mem_items {items : List Value} (h : valid (.array items)) {item : Value} (hmem : item ∈ items) :
    valid item := by
  rw [valid, validItems_iff] at h
  exact h item hmem

theorem valid_of_mem_members {members : List (String × Value)} (h : valid (.object members)) {member : String × Value}
    (hmem : member ∈ members) : valid member.2 := by
  rw [valid, validMembers_iff] at h
  exact h.2 member hmem

/-- What is said of a value of one kind goes for the value. -/
theorem of_kind {α : Type} {wrap : α → Value} (hwrap : ∀ a b, wrap a = wrap b → a = b) {check : Except ContractError Unit}
    {p : α → Prop} {a : α} (h : Decides IsRefusal check (p a)) : Decides IsRefusal check (∀ b, wrap a = wrap b → p b) :=
  h.congr ⟨fun hp b heq => hwrap a b heq ▸ hp, fun hp => hp a rfl⟩

theorem texts_decide (haccepted : AcceptedNode sub object) :
    Decides IsRefusal
      (checkIf (value.asStr.isSome && asksOf object ["string"] stringKeywords) do
        let text ← okOr value.asStr (.invalidField "value_type")
        validateStringValue object text)
      (∀ text, value = .string text → TextHolds (.object object) text) := by
  refine kind_decides haccepted (by decide : (["string"], stringKeywords) ∈ schemaKinds) (fun hkind => ?_) ?_
  · obtain ⟨text, heq⟩ := Option.isSome_iff_exists.mp hkind
    obtain rfl := (asStr_eq_some _ _).mp heq
    exact of_kind (fun _ _ => Value.string.inj) (text_decides haccepted)
  · rintro hnone text rfl
    have hnone := hnone.resolve_left Bool.noConfusion
    refine ⟨⟨fun bound h => ?_, fun bound h => ?_⟩, fun pattern h => ?_⟩
    · cases (hnone "minLength" (by decide)).symm.trans h
    · cases (hnone "maxLength" (by decide)).symm.trans h
    · cases (hnone "pattern" (by decide)).symm.trans h

theorem numbers_decide (haccepted : AcceptedNode sub object) (hvalid : valid value)
    (htype : OfType (.object object) value) :
    Decides IsRefusal
      (checkIf ((asF64 value).isSome && asksOf object ["number", "integer"] numberKeywords)
        (validateNumberValue object value))
      (∀ n, value = .number n → NumberHolds (.object object) n) := by
  refine kind_decides haccepted (by decide : (["number", "integer"], numberKeywords) ∈ schemaKinds) (fun hkind => ?_) ?_
  · obtain ⟨bits, heq⟩ := Option.isSome_iff_exists.mp hkind
    obtain ⟨n, rfl, -⟩ := (asF64_eq_some _ _).mp heq
    exact of_kind (fun _ _ => Value.number.inj) (number_decides hvalid htype haccepted)
  · rintro hnone n rfl
    have hnone := hnone.resolve_left Bool.noConfusion
    refine ⟨fun bound h => ?_, fun bound h => ?_, fun bound h => ?_, fun bound h => ?_⟩
    · cases (hnone "minimum" (by decide)).symm.trans h
    · cases (hnone "maximum" (by decide)).symm.trans h
    · cases (hnone "exclusiveMinimum" (by decide)).symm.trans h
    · cases (hnone "exclusiveMaximum" (by decide)).symm.trans h

theorem arrays_decide (htext : ∀ v, (crates.toText v).isSome) (haccepted : AcceptedNode sub object) (hvalid : valid value)
    (hnode : ∀ schema item, sub schema → valid item → Decides IsRefusal (node schema item) (sat schema item)) :
    Decides IsRefusal
      (checkIf (value.isArray && asksOf object ["array"] arrayKeywords) do
        let items ← okOr value.asArray (.invalidField "value_type")
        validateArrayValue crates node object items)
      (∀ items, value = .array items → ItemsHold crates (.object object) items ∧
        ∀ schema, object.lookup "items" = some schema → ∀ item ∈ items, sat schema item) := by
  refine kind_decides haccepted (by decide : (["array"], arrayKeywords) ∈ schemaKinds) (fun hkind => ?_) ?_
  · obtain ⟨items, heq⟩ := Option.isSome_iff_exists.mp hkind
    obtain rfl := (asArray_eq_some _ _).mp heq
    exact of_kind (fun _ _ => Value.array.inj) (array_decides htext fun schema hgiven item hitem =>
      hnode schema item (haccepted.items schema hgiven) (valid_of_mem_items hvalid hitem))
  · rintro hnone items rfl
    have hnone := hnone.resolve_left Bool.noConfusion
    refine ⟨⟨⟨fun bound h => ?_, fun bound h => ?_⟩, fun h => ?_⟩, fun schema h => ?_⟩
    · cases (hnone "minItems" (by decide)).symm.trans h
    · cases (hnone "maxItems" (by decide)).symm.trans h
    · cases (hnone "uniqueItems" (by decide)).symm.trans h
    · cases (hnone "items" (by decide)).symm.trans h

theorem objects_decide (haccepted : AcceptedNode sub object) (hvalid : valid value)
    (hnode : ∀ schema member, sub schema → valid member → Decides IsRefusal (node schema member) (sat schema member)) :
    Decides IsRefusal
      (checkIf (value.isObject && asksOf object ["object"] objectKeywords) (validateObjectValue node object value))
      (∀ members, value = .object members →
        MembersHold (.object object) members ∧ MembersSatisfy sat object members) := by
  refine kind_decides haccepted (by decide : (["object"], objectKeywords) ∈ schemaKinds) (fun hkind => ?_) ?_
  · obtain ⟨members, heq⟩ := Option.isSome_iff_exists.mp hkind
    obtain rfl := (asObject_eq_some _ _).mp heq
    have hnodup := hvalid
    rw [valid] at hnodup
    refine of_kind (fun _ _ => Value.object.inj) (object_decides hnodup.1 fun name schema hfound member hmember => ?_)
    obtain ⟨properties, hgiven, hlookup⟩ := propertySchema_eq_some.mp hfound
    obtain ⟨others, heq, hsub⟩ := haccepted.properties _ hgiven
    obtain rfl := Value.object.inj heq
    exact hnode schema member.2 (hsub (name, schema) (Assoc.mem_of_lookup hlookup)) (valid_of_mem_members hvalid hmember)
  · rintro hnone members rfl
    have hnone := hnone.resolve_left Bool.noConfusion
    refine ⟨⟨fun names h => ?_, fun h => ?_⟩, fun properties name schema h => ?_⟩
    · cases (hnone "required" (by decide)).symm.trans h
    · cases (hnone "additionalProperties" (by decide)).symm.trans h
    · cases (hnone "properties" (by decide)).symm.trans h

/-- By the levels that are left: at a node that was accepted with as many, the pass decides
    whether the value is described. -/
theorem node_decides (htext : ∀ v, (crates.toText v).isSome) (room : Nat) : ∀ schema value,
    validateSchemaNode crates room schema = .ok () → valid value →
      Decides IsRefusal (validateValueNode crates room schema value) (Satisfies crates schema value) := by
  induction room with
  | zero =>
    intro schema value haccepted _
    cases haccepted
  | succ room ih =>
    intro schema value haccepted hvalid
    obtain ⟨object, rfl, hnode⟩ := accepted_of_ok haccepted
    rw [validateValueNode]
    refine ((composition_decides hnode fun branch hbranch => ih branch value hbranch hvalid).andThen fun _ =>
      type_decides.andThen fun htype => (enum_decides htext).andThen fun _ => (objects_decide hnode hvalid ih).andThen
        fun _ => (texts_decide hnode).andThen fun _ => (numbers_decide hnode hvalid htype).andThen fun _ =>
          arrays_decide htext hnode hvalid ih).congr ?_
    exact satisfies_iff.symm

/-- Under a schema that was accepted, a value is let through exactly if the schema describes
    it, and is refused with one of the errors that say so. -/
theorem validateJsonValue_decides (htext : ∀ v, (crates.toText v).isSome) (hvalid : valid value)
    (haccepted : validateJsonSchema crates schema = .ok ()) :
    Decides IsRefusal (validateJsonValue crates schema value) (Satisfies crates schema value) := by
  rw [validateJsonValue, haccepted]
  exact node_decides htext _ schema value haccepted hvalid

end Schema

/-- A query of lower-case words, and at most fifty results or none asked for. -/
def searchSchema : Value :=
  .object
    [("type", .string "object"),
     ("properties", .object
       [("query", .object [("type", .string "string"), ("pattern", .string "^[a-z ]+$")]),
        ("limit", .object
          [("oneOf", .array
            [.object [("type", .string "integer"), ("maximum", .number (.posInt 50))],
             .object [("not", .object [("type", .string "integer")]), ("enum", .array [.null])]])])]),
     ("required", .array [.string "query"]),
     ("additionalProperties", .bool false)]

def searchArguments : Value :=
  .object [("limit", .number (.posInt 20)), ("query", .string "open claims")]

theorem valid_searchArguments : valid searchArguments := by
  simp [searchArguments, valid, validMembers, numberValid]

theorem validateJsonValue_decides_search : Satisfies (sampleCrates .byKey) searchSchema searchArguments :=
  (validateJsonValue_decides (fun _ => rfl) valid_searchArguments (by decide +kernel)).ok_iff.mp (by decide +kernel)

end AiPlatform.Capability
