/-
  AiPlatform.Model.AliasRoundTrip

  The tables that an accepted tool list leaves, and what they do to a call on its way in and
  out again.

  The tables describe the tools that were read so far, in order; each entry of the list adds the
  tools that it declares. Distinct wire names need no more than the check that each name is new.
-/

import AiPlatform.Model.ToolAliases
import Mathlib.Data.List.Nodup

namespace ToolAliases

open ModelPlane RequestBuilder

variable {sha256 : HexDigest}

/-! ## Declared tools -/

/-- A tool by its name, and by its namespace if it has one. -/
abbrev Tool := Option PyStr × PyStr

def wireName (sha256 : HexDigest) (tool : Tool) : PyStr :=
  match tool.1 with
  | none => tool.2
  | some scope => namespaceAlias sha256 scope tool.2

def nameOf (raw : PyJson) : PyStr := ((raw.get (lit "name")).asStr).getD []

/-- The tools that an entry of the list declares. -/
def declaredBy (raw : PyJson) : List Tool :=
  let toolType := raw.get (lit "type")
  if toolType.isStr (lit "web_search") then []
  else if toolType.isStr (lit "namespace") then
    match raw.get (lit "tools") with
    | .list children => children.map fun child => (some (nameOf raw), nameOf child)
    | _ => []
  else [(none, nameOf raw)]

def declaredTools : PyJson → List Tool
  | .list entries => entries.flatMap declaredBy
  | _ => []

def identityOf (tool : Tool) : Option Identity := tool.1.map fun scope => (scope, tool.2)

def identities (declared : List Tool) : List Identity := declared.filterMap identityOf

/-- The name that a function tool is sent under. -/
def sentName (tool : PyJson) : Option PyStr :=
  if (tool.get (lit "type")).isStr (lit "function") then (tool.get (lit "name")).asStr else none

def children (declared : List Tool) (name : PyStr) : List Identity :=
  (identities declared).filter fun identity => identity.2 = name

def aliasOf (sha256 : HexDigest) (identity : Identity) : PyStr := namespaceAlias sha256 identity.1 identity.2

/-- The tables hold the tools that were declared. -/
structure Describes (sha256 : HexDigest) (declared : List Tool) (tables : Tables) : Prop where
  wireNames : tables.wireNames = declared.map (wireName sha256)
  sent : tables.tools.filterMap sentName = tables.wireNames
  distinct : tables.wireNames.Nodup
  legal : ∀ name ∈ tables.wireNames, isToolName name = true
  named : ∀ identity ∈ identities declared, identity.1 ≠ []
  aliases : tables.aliases = (identities declared).map fun identity => (aliasOf sha256 identity, identity)
  wireAliases : tables.wireAliases = (identities declared).map fun identity => (identity, aliasOf sha256 identity)
  candidateKeys : (tables.bareNamespaceCandidates.map Prod.fst).Nodup
  candidates : ∀ name, tables.bareNamespaceCandidates.lookup name =
    if children declared name = [] then none else some (children declared name)

/-! ## Names -/

theorem isToolName_iff {name : PyStr} :
    isToolName name = true ↔ name ≠ [] ∧ name.length ≤ 64 ∧ ∀ c ∈ name, isToolNameCharacter c = true := by
  simp [isToolName, and_assoc]

theorem length_aliasStart (scope name : PyStr) : (aliasStart sha256 scope name).length = 14 := by
  have hstart : (lit "ns_").length = 3 := rfl
  have hend : (lit "_").length = 1 := rfl
  rw [aliasStart, List.length_append, List.length_append, List.length_take, sha256.length_digest, hstart, hend]
  rfl

theorem isToolName_namespaceAlias {scope name : PyStr} (hname : isToolName name = true) :
    isToolName (namespaceAlias sha256 scope name) = true := by
  obtain ⟨-, -, hchars⟩ := isToolName_iff.mp hname
  have hlength : (aliasStart sha256 scope name).length = 14 := length_aliasStart scope name
  rw [isToolName_iff, namespaceAlias]
  refine ⟨?_, ?_, fun c hc => ?_⟩
  · refine List.ne_nil_of_length_pos ?_
    rw [List.length_append]
    omega
  · rw [List.length_append, List.length_take]
    omega
  · rcases List.mem_append.mp hc with hc | hc
    · rw [aliasStart, List.mem_append, List.mem_append] at hc
      have hhex : ∀ c ∈ lit "0123456789abcdef", isToolNameCharacter c = true := by decide
      have hstart : ∀ c ∈ lit "ns_", isToolNameCharacter c = true := by decide
      have hend : ∀ c ∈ lit "_", isToolNameCharacter c = true := by decide
      rcases hc with (hc | hc) | hc
      · exact hstart c hc
      · exact hhex c (sha256.hex_digest _ c (List.mem_of_mem_take hc))
      · exact hend c hc
    · exact hchars c (List.mem_of_mem_take hc)

theorem ne_nil_of_isToolName {name : PyStr} (h : isToolName name = true) : name ≠ [] := (isToolName_iff.mp h).1

/-! ## What each entry adds -/

theorem functionTool_ok {raw tool : PyJson} {sentAs : Option PyStr} {start : PyStr}
    (h : functionTool raw sentAs start = .ok tool) :
    ∃ name, raw.get (lit "name") = .str name ∧ isToolName name = true ∧ (sentAs = none → sentName tool = some name) ∧
      ∀ sentName', sentAs = some sentName' → sentName' ≠ [] → sentName tool = some sentName' := by
  unfold functionTool at h
  split at h
  · case h_1 name description parameters hname _ _ =>
    split at h
    · cases h
    · case isFalse hvalid =>
      rw [Bool.or_eq_true, not_or] at hvalid
      obtain rfl := Except.ok.inj h
      refine ⟨name, hname, by simpa using hvalid.1, fun hnone => ?_, fun sentName' hsome hne => ?_⟩
      · rw [hnone]
        rfl
      · subst hsome
        have hsent : some (if sentName' = [] then name else sentName') = some sentName' := by rw [if_neg hne]
        exact hsent
  · cases h

theorem identities_append (declared declared' : List Tool) :
    identities (declared ++ declared') = identities declared ++ identities declared' :=
  List.filterMap_append

theorem children_append (declared declared' : List Tool) (name : PyStr) :
    children (declared ++ declared') name = children declared name ++ children declared' name := by
  rw [children, identities_append, List.filter_append]
  rfl

/-- The wire name of a namespaced tool is among those that were declared. -/
theorem wireName_mem {declared : List Tool} {identity : Identity} (h : identity ∈ identities declared) :
    aliasOf sha256 identity ∈ declared.map (wireName sha256) := by
  obtain ⟨tool, hmem, htool⟩ := List.mem_filterMap.mp h
  obtain ⟨scope, hscope, rfl⟩ := Option.map_eq_some_iff.mp htool
  refine List.mem_map.mpr ⟨tool, hmem, ?_⟩
  rw [wireName, hscope]
  rfl

theorem children_singleton (scope name other : PyStr) :
    children [(some scope, name)] other = if name = other then [(scope, name)] else [] := by
  by_cases h : name = other
  · simp [children, identities, identityOf, h]
  · simp [children, identities, identityOf, h]

theorem nameOf_eq {raw : PyJson} {name : PyStr} (h : raw.get (lit "name") = .str name) : nameOf raw = name := by
  rw [nameOf, h]
  rfl

theorem addFunction_ok {tables tables' : Tables} {raw : PyJson} (h : addFunction tables raw = .ok tables') :
    ∃ name tool, nameOf raw = name ∧ isToolName name = true ∧ name ∉ tables.wireNames ∧ sentName tool = some name ∧
      tables' = { tables with tools := tables.tools ++ [tool], wireNames := tables.wireNames ++ [name] } := by
  unfold addFunction at h
  split at h
  · case h_1 name hname =>
    split at h
    · cases h
    · case isFalse hnew =>
      cases htool : functionTool raw none [] with
      | error error =>
        rw [htool] at h
        cases h
      | ok tool =>
        rw [htool] at h
        obtain ⟨name', hname', hlegal, hsent, -⟩ := functionTool_ok htool
        obtain rfl := PyJson.str.inj (hname.symm.trans hname')
        exact ⟨name, tool, nameOf_eq hname, hlegal, by simpa using hnew, hsent rfl, (Except.ok.inj h).symm⟩
  · cases h

theorem addChild_ok {tables tables' : Tables} {scope : PyStr} {child : PyJson}
    (h : addChild sha256 scope tables child = .ok tables') :
    ∃ name tool, nameOf child = name ∧ isToolName name = true ∧ namespaceAlias sha256 scope name ∉ tables.wireNames ∧
      sentName tool = some (namespaceAlias sha256 scope name) ∧
      tables' = {
        tools := tables.tools ++ [tool]
        wireNames := tables.wireNames ++ [namespaceAlias sha256 scope name]
        aliases := Assoc.set (namespaceAlias sha256 scope name) (scope, name) tables.aliases
        wireAliases := Assoc.set (scope, name) (namespaceAlias sha256 scope name) tables.wireAliases
        bareNamespaceCandidates := Assoc.set name
          ((tables.bareNamespaceCandidates.lookup name).getD [] ++ [(scope, name)]) tables.bareNamespaceCandidates } := by
  unfold addChild at h
  split at h
  · cases h
  · split at h
    · case h_1 name hname =>
      split at h
      · cases h
      · dsimp only at h
        split at h
        · cases h
        · case isFalse hnew =>
          cases htool : functionTool child (some (namespaceAlias sha256 scope name)) (lit "[" ++ scope ++ lit "] ") with
          | error error =>
            rw [htool] at h
            cases h
          | ok tool =>
            rw [htool] at h
            obtain ⟨name', hname', hlegal, -, hsent⟩ := functionTool_ok htool
            obtain rfl := PyJson.str.inj (hname.symm.trans hname')
            have halias : isToolName (namespaceAlias sha256 scope name) = true := isToolName_namespaceAlias hlegal
            have hne := ne_nil_of_isToolName halias
            exact ⟨name, tool, nameOf_eq hname, hlegal, by simpa using hnew, hsent _ rfl hne, (Except.ok.inj h).symm⟩
    · cases h

/-! ## The tables that it leaves -/

theorem nodup_snoc {α : Type} {xs : List α} {x : α} (hdistinct : xs.Nodup) (hnew : x ∉ xs) : (xs ++ [x]).Nodup := by
  refine List.nodup_append.mpr ⟨hdistinct, List.pairwise_singleton _ x, fun y hy z hz heq => hnew ?_⟩
  rw [← List.mem_singleton.mp hz, ← heq]
  exact hy

theorem forall_mem_snoc {α : Type} {p : α → Prop} {xs : List α} {x : α} (hall : ∀ y ∈ xs, p y) (hx : p x) :
    ∀ y ∈ xs ++ [x], p y := by
  intro y hmem
  rcases List.mem_append.mp hmem with hmem | hmem
  · exact hall y hmem
  · rw [List.mem_singleton.mp hmem]
    exact hx

theorem emptyTables_describes : Describes sha256 [] emptyTables where
  wireNames := rfl
  sent := rfl
  distinct := List.Pairwise.nil
  legal := fun _ hmem => absurd hmem List.not_mem_nil
  named := fun _ hmem => absurd hmem List.not_mem_nil
  aliases := rfl
  wireAliases := rfl
  candidateKeys := List.Pairwise.nil
  candidates := fun _ => rfl

theorem addFunction_describes {declared : List Tool} {tables tables' : Tables} {raw : PyJson}
    (hdescribes : Describes sha256 declared tables) (h : addFunction tables raw = .ok tables') :
    Describes sha256 (declared ++ [(none, nameOf raw)]) tables' := by
  obtain ⟨name, tool, hname, hlegal, hnew, hsent, rfl⟩ := addFunction_ok h
  have hnone : identities (declared ++ [(none, name)]) = identities declared := by
    rw [identities_append]
    exact List.append_nil _
  rw [hname]
  exact {
    wireNames := by
      rw [List.map_append, hdescribes.wireNames]
      rfl
    sent := by
      rw [List.filterMap_append, hdescribes.sent, List.filterMap_cons_some hsent]
      rfl
    distinct := nodup_snoc hdescribes.distinct hnew
    legal := forall_mem_snoc hdescribes.legal hlegal
    named := hnone ▸ hdescribes.named
    aliases := hnone ▸ hdescribes.aliases
    wireAliases := hnone ▸ hdescribes.wireAliases
    candidateKeys := hdescribes.candidateKeys
    candidates := by
      intro child
      have hsame : children (declared ++ [(none, name)]) child = children declared child := by
        rw [children, hnone]
        rfl
      rw [hsame]
      exact hdescribes.candidates child }

theorem addChild_describes {declared : List Tool} {tables tables' : Tables} {scope : PyStr} {child : PyJson}
    (hscope : scope ≠ []) (hdescribes : Describes sha256 declared tables)
    (h : addChild sha256 scope tables child = .ok tables') :
    Describes sha256 (declared ++ [(some scope, nameOf child)]) tables' := by
  obtain ⟨name, tool, hname, hlegal, hnew, hsent, rfl⟩ := addChild_ok h
  have hmore : identities (declared ++ [(some scope, name)]) = identities declared ++ [(scope, name)] :=
    identities_append _ _
  -- a table has no entry yet for a tool whose wire name is new
  have hunsent : ∀ identity ∈ identities declared, aliasOf sha256 identity ≠ namespaceAlias sha256 scope name := by
    intro identity hmem heq
    refine hnew ?_
    rw [hdescribes.wireNames, ← heq]
    exact wireName_mem hmem
  rw [hname]
  exact {
    wireNames := by
      rw [List.map_append, hdescribes.wireNames]
      rfl
    sent := by
      rw [List.filterMap_append, hdescribes.sent, List.filterMap_cons_some hsent]
      rfl
    distinct := nodup_snoc hdescribes.distinct hnew
    legal := forall_mem_snoc hdescribes.legal (isToolName_namespaceAlias hlegal)
    named := hmore ▸ forall_mem_snoc hdescribes.named hscope
    aliases := by
      rw [hmore, List.map_append, ← hdescribes.aliases]
      refine Assoc.set_of_not_mem ?_
      rw [hdescribes.aliases, List.map_map]
      intro hmem
      obtain ⟨identity, hidentity, heq⟩ := List.mem_map.mp hmem
      exact hunsent identity hidentity heq
    wireAliases := by
      rw [hmore, List.map_append, ← hdescribes.wireAliases]
      refine Assoc.set_of_not_mem ?_
      rw [hdescribes.wireAliases, List.map_map]
      intro hmem
      obtain ⟨identity, hidentity, heq⟩ := List.mem_map.mp hmem
      exact hunsent identity hidentity (congrArg (aliasOf sha256) heq)
    candidateKeys := Assoc.nodup_keys_set hdescribes.candidateKeys
    candidates := by
      intro other
      rw [children_append, children_singleton]
      by_cases hother : name = other
      · subst hother
        have hbefore : (tables.bareNamespaceCandidates.lookup name).getD [] = children declared name := by
          rw [hdescribes.candidates name]
          split
          · case isTrue hnone =>
            rw [hnone]
            rfl
          · rfl
        rw [hbefore, if_pos rfl, if_neg (by simp)]
        exact Assoc.lookup_set_self
      · rw [if_neg hother, List.append_nil, ← hdescribes.candidates other]
        exact Assoc.lookup_set_ne (Ne.symm hother) }

theorem foldlM_addChild_describes {scope : PyStr} (hscope : scope ≠ []) (children : List PyJson) {declared : List Tool}
    {tables tables' : Tables} (hdescribes : Describes sha256 declared tables)
    (h : children.foldlM (addChild sha256 scope) tables = .ok tables') :
    Describes sha256 (declared ++ children.map fun child => (some scope, nameOf child)) tables' := by
  induction children generalizing declared tables with
  | nil =>
    obtain rfl := Except.ok.inj h
    rw [List.map_nil, List.append_nil]
    exact hdescribes
  | cons child children ih =>
    rw [List.foldlM_cons] at h
    cases hstep : addChild sha256 scope tables child with
    | error error =>
      rw [hstep] at h
      cases h
    | ok between =>
      rw [hstep] at h
      rw [List.map_cons, List.append_cons]
      exact ih (addChild_describes hscope hdescribes hstep) h

theorem addTool_describes {namespaceWire webSearchWire raw : PyJson} {declared : List Tool} {tables tables' : Tables}
    (hdescribes : Describes sha256 declared tables)
    (h : addTool sha256 namespaceWire webSearchWire tables raw = .ok tables') :
    Describes sha256 (declared ++ declaredBy raw) tables' := by
  unfold addTool at h
  dsimp only at h
  split at h
  · cases h
  · split at h
    · case isTrue hsearch =>
      split at h
      · cases h
      · obtain rfl := Except.ok.inj h
        rw [declaredBy, if_pos hsearch, List.append_nil]
        have hsent : (tables.tools ++ [PyJson.dict [(lit "type", .str (lit "web_search"))]]).filterMap sentName =
            tables.wireNames := by
          rw [List.filterMap_append, hdescribes.sent]
          exact List.append_nil _
        exact { hdescribes with sent := hsent }
    · case isFalse hsearch =>
      split at h
      · case isTrue hspace =>
        split at h
        · cases h
        · rw [declaredBy, if_neg hsearch, if_pos hspace]
          unfold addNamespace at h
          split at h
          · case h_1 scope children hname hchildren =>
            split at h
            · cases h
            · case isFalse hvalid =>
              rw [Bool.or_eq_true, not_or] at hvalid
              have hscope : scope ≠ [] := ne_nil_of_isToolName (by simpa using hvalid.1)
              rw [hchildren, nameOf_eq hname]
              exact foldlM_addChild_describes hscope children hdescribes h
          · cases h
      · case isFalse hspace =>
        split at h
        · cases h
        · rw [declaredBy, if_neg hsearch, if_neg hspace]
          exact addFunction_describes hdescribes h

theorem foldlM_addTool_describes {namespaceWire webSearchWire : PyJson} (entries : List PyJson) {declared : List Tool}
    {tables tables' : Tables} (hdescribes : Describes sha256 declared tables)
    (h : entries.foldlM (addTool sha256 namespaceWire webSearchWire) tables = .ok tables') :
    Describes sha256 (declared ++ entries.flatMap declaredBy) tables' := by
  induction entries generalizing declared tables with
  | nil =>
    obtain rfl := Except.ok.inj h
    rw [List.flatMap_nil, List.append_nil]
    exact hdescribes
  | cons entry entries ih =>
    rw [List.foldlM_cons] at h
    cases hstep : addTool sha256 namespaceWire webSearchWire tables entry with
    | error error =>
      rw [hstep] at h
      cases h
    | ok between =>
      rw [hstep] at h
      rw [List.flatMap_cons, ← List.append_assoc]
      exact ih (addTool_describes hdescribes hstep) h

/-! ## What a name stands for -/

theorem lookup_addBareName_ne {wireNames : List PyStr} {aliases : List (PyStr × Identity)}
    {candidate : PyStr × List Identity} {name : PyStr}
    (h : ∀ identity, name = candidate.1 → candidate.2 = [identity] → name ∈ wireNames) :
    (addBareName wireNames aliases candidate).lookup name = aliases.lookup name := by
  unfold addBareName
  split
  · case h_1 identity hunique =>
    split
    · rfl
    · case isFalse hunsent =>
      refine Assoc.lookup_set_ne fun heq => hunsent ?_
      rw [List.contains_iff_mem, ← heq]
      exact h identity heq hunique
  · rfl

theorem lookup_foldl_addBareName_of_other {wireNames : List PyStr} (candidates : List (PyStr × List Identity))
    (aliases : List (PyStr × Identity)) {name : PyStr}
    (h : ∀ identity, (name, [identity]) ∈ candidates → name ∈ wireNames) :
    (candidates.foldl (addBareName wireNames) aliases).lookup name = aliases.lookup name := by
  induction candidates generalizing aliases with
  | nil => rfl
  | cons candidate candidates ih =>
    rw [List.foldl_cons, ih _ fun identity hmem => h identity (List.mem_cons_of_mem _ hmem)]
    refine lookup_addBareName_ne fun identity hname hunique => h identity (List.mem_cons.mpr (Or.inl ?_))
    rw [hname, ← hunique]

theorem lookup_foldl_addBareName_of_unique {wireNames : List PyStr} {candidates : List (PyStr × List Identity)}
    (hkeys : (candidates.map Prod.fst).Nodup) {name : PyStr} {identity : Identity}
    (hcandidate : candidates.lookup name = some [identity]) (hunsent : name ∉ wireNames) (aliases : List (PyStr × Identity)) :
    (candidates.foldl (addBareName wireNames) aliases).lookup name = some identity := by
  induction candidates generalizing aliases with
  | nil => cases hcandidate
  | cons candidate candidates ih =>
    obtain ⟨hfirst, hkeys⟩ := List.nodup_cons.mp hkeys
    rw [List.lookup_cons] at hcandidate
    split at hcandidate
    · case h_1 heq =>
      obtain rfl : name = candidate.1 := by simpa using heq
      have hset : addBareName wireNames aliases candidate = Assoc.set candidate.1 identity aliases := by
        unfold addBareName
        rw [Option.some.inj hcandidate]
        exact if_neg (by simpa using hunsent)
      rw [List.foldl_cons, hset, lookup_foldl_addBareName_of_other]
      · exact Assoc.lookup_set_self
      · intro other hother
        exact absurd (List.mem_map_of_mem hother) hfirst
    · exact ih hkeys hcandidate (addBareName wireNames aliases candidate)

theorem aliases_sublist (declared : List Tool) :
    ((identities declared).map (aliasOf sha256)).Sublist (declared.map (wireName sha256)) := by
  induction declared with
  | nil => exact List.Sublist.slnil
  | cons tool declared ih =>
    obtain ⟨scope, name⟩ := tool
    cases scope with
    | none => exact List.Sublist.cons _ ih
    | some scope => exact List.Sublist.cons_cons _ ih

theorem mem_identities {declared : List Tool} {scope name : PyStr} (h : (some scope, name) ∈ declared) :
    (scope, name) ∈ identities declared :=
  List.mem_filterMap.mpr ⟨(some scope, name), h, rfl⟩

namespace Describes

variable {declared : List Tool} {tables : Tables} (hdescribes : Describes sha256 declared tables)

include hdescribes

theorem distinctNames : (declared.map (wireName sha256)).Nodup := hdescribes.wireNames ▸ hdescribes.distinct

theorem distinctAliases : ((identities declared).map (aliasOf sha256)).Nodup :=
  hdescribes.distinctNames.sublist (aliases_sublist declared)

theorem lookup_wireAliases {scope name : PyStr} (hmem : (some scope, name) ∈ declared) :
    tables.wireAliases.lookup (scope, name) = some (namespaceAlias sha256 scope name) := by
  rw [hdescribes.wireAliases]
  refine Assoc.lookup_of_mem ?_ (List.mem_map.mpr ⟨(scope, name), mem_identities hmem, rfl⟩)
  rw [List.map_map]
  exact (List.map_id _).symm ▸ List.Nodup.of_map _ hdescribes.distinctAliases

theorem lookup_alias {scope name : PyStr} (hmem : (some scope, name) ∈ declared) :
    tables.validated.aliases.lookup (namespaceAlias sha256 scope name) = some (scope, name) := by
  rw [Tables.validated, lookup_foldl_addBareName_of_other]
  · rw [hdescribes.aliases]
    refine Assoc.lookup_of_mem ?_ (List.mem_map.mpr ⟨(scope, name), mem_identities hmem, rfl⟩)
    rw [List.map_map]
    exact hdescribes.distinctAliases
  · intro _ _
    rw [hdescribes.wireNames]
    exact List.mem_map.mpr ⟨(some scope, name), hmem, rfl⟩

/-- The name of a tool without a namespace is no tool's alias. -/
theorem lookup_direct {name : PyStr} (hmem : (none, name) ∈ declared) :
    tables.validated.aliases.lookup name = none := by
  rw [Tables.validated, lookup_foldl_addBareName_of_other]
  · rw [hdescribes.aliases, Assoc.lookup_eq_none_iff, List.map_map]
    intro hkey
    obtain ⟨identity, hidentity, hname⟩ := List.mem_map.mp hkey
    obtain ⟨tool, htool, hidentityOf⟩ := List.mem_filterMap.mp hidentity
    obtain ⟨scope, hscope, rfl⟩ := Option.map_eq_some_iff.mp hidentityOf
    have hsame : tool = (none, name) := by
      refine List.inj_on_of_nodup_map hdescribes.distinctNames htool hmem ?_
      rw [wireName, hscope]
      exact hname
    rw [hsame] at hscope
    cases hscope
  · intro _ _
    rw [hdescribes.wireNames]
    exact List.mem_map.mpr ⟨(none, name), hmem, rfl⟩

theorem lookup_unsent {name : PyStr} (hunsent : name ∉ declared.map (wireName sha256)) :
    tables.validated.aliases.lookup name =
      match children declared name with
      | [identity] => some identity
      | _ => none := by
  have hcandidate := hdescribes.candidates name
  rw [← hdescribes.wireNames] at hunsent
  split
  · case h_1 identity hunique =>
    rw [hunique, if_neg (by simp)] at hcandidate
    exact lookup_foldl_addBareName_of_unique hdescribes.candidateKeys hcandidate hunsent _
  · case h_2 hseveral =>
    rw [Tables.validated, lookup_foldl_addBareName_of_other]
    · rw [hdescribes.aliases, Assoc.lookup_eq_none_iff, List.map_map]
      intro hkey
      obtain ⟨identity, hidentity, hname⟩ := List.mem_map.mp hkey
      refine hunsent ?_
      rw [hdescribes.wireNames, ← hname]
      exact wireName_mem hidentity
    · intro identity hmem
      rw [Assoc.lookup_of_mem hdescribes.candidateKeys hmem] at hcandidate
      split at hcandidate
      · cases hcandidate
      · exact absurd (Option.some.inj hcandidate).symm (hseveral identity)

end Describes

/-! ## Calls -/

/-- A function call under a name. -/
structure IsCall (item : PyJson) (name : PyStr) : Prop where
  isDict : item.isDict = true
  type : item.get (lit "type") = .str (lit "function_call")
  name : item.get (lit "name") = .str name

/-- A call of a tool, as the kernel reads it; `scopeMismatch` if it came with another namespace. -/
def restoredTo (tool : Tool) (item : PyJson) : Except Raised PyJson :=
  match tool.1 with
  | none => .ok item
  | some scope =>
    let given := item.get (lit "namespace")
    if !given.isNone && !given.isStr [] && !given.isStr scope then scopeMismatch
    else .ok ((item.set (lit "name") (.str tool.2)).set (lit "namespace") (.str scope))

theorem restoreToolNamespace_of_call {toolAliases : List (PyStr × Identity)} {item : PyJson} {name : PyStr}
    (hcall : IsCall item name) :
    restoreToolNamespace toolAliases item = match toolAliases.lookup name with
      | none => .ok item
      | some identity => restoredTo (some identity.1, identity.2) item := by
  unfold restoreToolNamespace
  rw [hcall.type, hcall.name, if_neg]
  · have hname : ((PyJson.str name).asStr.bind fun name => toolAliases.lookup name) = toolAliases.lookup name := rfl
    rw [hname]
    cases toolAliases.lookup name with
    | none => rfl
    | some identity => rfl
  · rw [hcall.isDict]
    decide

theorem isStr_self (text : PyStr) : (PyJson.str text).isStr text = true := PyJson.isStr_iff.mpr rfl

theorem nativeResponsesItem_of_call {item : PyJson} {name : PyStr} (hcall : IsCall item name) :
    nativeResponsesItem item = match item.get (lit "content") with
      | .list parts => item.set (lit "content") (.list (parts.map inputPart))
      | _ => item := by
  have hkind : ((PyJson.str (lit "function_call")).isStr (lit "agent_message")) = false := by decide
  unfold nativeResponsesItem
  rw [hcall.type, hkind]
  cases item.get (lit "content") <;> rfl

/-- What is done to the content of a call does not depend on its name or namespace. -/
theorem nativeResponsesItem_set {item : PyJson} {name name' key : PyStr} {value : PyJson} (hcall : IsCall item name)
    (hset : IsCall (item.set key value) name') (hkey : key ≠ lit "content") :
    nativeResponsesItem (item.set key value) = (nativeResponsesItem item).set key value := by
  rw [nativeResponsesItem_of_call hcall, nativeResponsesItem_of_call hset, PyJson.get_set_ne (Ne.symm hkey)]
  cases hcontent : item.get (lit "content") with
  | list parts =>
    have hhas : item.has (lit "content") = true := PyJson.has_of_get (hcontent ▸ PyJson.noConfusion)
    exact PyJson.set_comm (Ne.symm hkey) hhas value
  | _ => rfl

theorem nativeResponsesItem_call {item : PyJson} {name : PyStr} (hcall : IsCall item name) :
    IsCall (nativeResponsesItem item) name ∧
      ∀ key, key ≠ lit "content" → (nativeResponsesItem item).get key = item.get key ∧
        (nativeResponsesItem item).has key = item.has key := by
  rw [nativeResponsesItem_of_call hcall]
  cases hcontent : item.get (lit "content") with
  | list parts =>
    have hget : ∀ key, key ≠ lit "content" →
        (item.set (lit "content") (.list (parts.map inputPart))).get key = item.get key :=
      fun key hkey => PyJson.get_set_ne hkey
    refine ⟨⟨?_, ?_, ?_⟩, fun key hkey => ⟨hget key hkey, PyJson.has_set_ne hkey⟩⟩
    · rw [PyJson.isDict_set]
      exact hcall.isDict
    · rw [hget _ (by decide)]
      exact hcall.type
    · rw [hget _ (by decide)]
      exact hcall.name
  | _ => exact ⟨hcall, fun _ _ => ⟨rfl, rfl⟩⟩

theorem IsCall.set_name {item : PyJson} {name : PyStr} (hcall : IsCall item name) (name' : PyStr) :
    IsCall (item.set (lit "name") (.str name')) name' where
  isDict := PyJson.isDict_set.trans hcall.isDict
  type := (PyJson.get_set_ne (by decide)).trans hcall.type
  name := PyJson.get_set_self hcall.isDict

theorem IsCall.set_namespace {item : PyJson} {name : PyStr} (hcall : IsCall item name) (value : PyJson) :
    IsCall (item.set (lit "namespace") value) name where
  isDict := PyJson.isDict_set.trans hcall.isDict
  type := (PyJson.get_set_ne (by decide)).trans hcall.type
  name := (PyJson.get_set_ne (by decide)).trans hcall.name

theorem nativeToolTranscriptItem_of_call {validated : ValidatedNativeTools} {item : PyJson} {name : PyStr}
    (hcall : IsCall item name) :
    nativeToolTranscriptItem validated item = match wireNameOf validated (nativeResponsesItem item) with
      | none => nativeResponsesItem item
      | some wireName => ((nativeResponsesItem item).set (lit "name") (.str wireName)).pop (lit "namespace") := by
  have hnative := (nativeResponsesItem_call hcall).1
  unfold nativeToolTranscriptItem
  dsimp only
  rw [hnative.type, hnative.isDict]
  exact if_neg (by decide)

/-- Whatever name a call came under, it is sent again under the wire name of the tool that it was restored to. -/
theorem nativeToolTranscriptItem_restored {validated : ValidatedNativeTools} {item restored : PyJson}
    {sent scope name wireName : PyStr} (hwire : validated.wireAliases.lookup (scope, name) = some wireName)
    (hcall : IsCall item sent) (hrestored : restoredTo (some scope, name) item = .ok restored) :
    nativeToolTranscriptItem validated restored =
      ((nativeResponsesItem item).set (lit "name") (.str wireName)).pop (lit "namespace") := by
  unfold restoredTo at hrestored
  dsimp only at hrestored
  split at hrestored
  · cases hrestored
  · obtain rfl := Except.ok.inj hrestored
    have hnamed := hcall.set_name name
    have hscoped := hnamed.set_namespace (.str scope)
    have hnative := (nativeResponsesItem_call hcall).1
    have hnativeNamed := hnative.set_name name
    have hsame : nativeResponsesItem ((item.set (lit "name") (.str name)).set (lit "namespace") (.str scope)) =
        ((nativeResponsesItem item).set (lit "name") (.str name)).set (lit "namespace") (.str scope) := by
      rw [nativeResponsesItem_set hnamed hscoped (by decide), nativeResponsesItem_set hcall hnamed (by decide)]
    have hfound : wireNameOf validated
        (((nativeResponsesItem item).set (lit "name") (.str name)).set (lit "namespace") (.str scope)) = some wireName := by
      unfold wireNameOf
      rw [(hnativeNamed.set_namespace (.str scope)).name, PyJson.get_set_self hnativeNamed.isDict]
      exact hwire
    have hhas : ((nativeResponsesItem item).set (lit "name") (.str name)).has (lit "name") = true :=
      PyJson.has_set_self hnative.isDict
    rw [nativeToolTranscriptItem_of_call hscoped, hsame, hfound]
    dsimp only
    rw [PyJson.set_comm (by decide) hhas, PyJson.set_set, PyJson.pop_set]

/-! ## Round trips -/

/-- What an accepted tool list promises for the calls that come back. -/
structure RoundTrip (sha256 : HexDigest) (declared : List Tool) (validated : ValidatedNativeTools) : Prop where
  sent : validated.tools.filterMap sentName = declared.map (wireName sha256)
  distinct : (declared.map (wireName sha256)).Nodup
  legal : ∀ name ∈ declared.map (wireName sha256), isToolName name = true
  /-- A wire name stands for the tool that it was made from. -/
  restored : ∀ tool ∈ declared, ∀ item, IsCall item (wireName sha256 tool) →
    restoreToolNamespace validated.aliases item = restoredTo tool item
  /-- A name that no tool was sent under stands for the one namespaced tool of that name, if there is just one. -/
  unsent : ∀ name, name ∉ declared.map (wireName sha256) → ∀ item, IsCall item name →
    restoreToolNamespace validated.aliases item =
      match children declared name with
      | [identity] => restoredTo (some identity.1, identity.2) item
      | _ => .ok item
  /-- A call that was restored to a namespaced tool is sent again under the wire name of that tool. -/
  resent : ∀ scope name, (some scope, name) ∈ declared → ∀ item sent restored, IsCall item sent →
    restoredTo (some scope, name) item = .ok restored →
    nativeToolTranscriptItem validated restored =
      ((nativeResponsesItem item).set (lit "name") (.str (namespaceAlias sha256 scope name))).pop (lit "namespace")
  /-- A call that came under a wire name, without a namespace, is sent again as it came. -/
  unchanged : ∀ tool ∈ declared, ∀ item, IsCall item (wireName sha256 tool) → item.has (lit "namespace") = false →
    ∃ restored, restoreToolNamespace validated.aliases item = .ok restored ∧
      nativeToolTranscriptItem validated restored = nativeResponsesItem item

theorem restoredTo_of_not_has {scope name : PyStr} {item : PyJson} (h : item.has (lit "namespace") = false) :
    restoredTo (some scope, name) item =
      .ok ((item.set (lit "name") (.str name)).set (lit "namespace") (.str scope)) := by
  unfold restoredTo
  dsimp only
  rw [PyJson.get_of_not_has h]
  rfl

namespace Describes

variable {declared : List Tool} {tables : Tables} (hdescribes : Describes sha256 declared tables)

include hdescribes

theorem restored {tool : Tool} (hmem : tool ∈ declared) {item : PyJson} (hcall : IsCall item (wireName sha256 tool)) :
    restoreToolNamespace tables.validated.aliases item = restoredTo tool item := by
  obtain ⟨scope, name⟩ := tool
  rw [restoreToolNamespace_of_call hcall]
  cases scope with
  | none =>
    rw [wireName, hdescribes.lookup_direct hmem]
    rfl
  | some scope => rw [wireName, hdescribes.lookup_alias hmem]

theorem resent {scope name : PyStr} (hmem : (some scope, name) ∈ declared) {item restored : PyJson} {sent : PyStr}
    (hcall : IsCall item sent) (hrestored : restoredTo (some scope, name) item = .ok restored) :
    nativeToolTranscriptItem tables.validated restored =
      ((nativeResponsesItem item).set (lit "name") (.str (namespaceAlias sha256 scope name))).pop (lit "namespace") :=
  nativeToolTranscriptItem_restored (hdescribes.lookup_wireAliases hmem) hcall hrestored

theorem unchanged {tool : Tool} (hmem : tool ∈ declared) {item : PyJson} (hcall : IsCall item (wireName sha256 tool))
    (hnone : item.has (lit "namespace") = false) :
    ∃ restored, restoreToolNamespace tables.validated.aliases item = .ok restored ∧
      nativeToolTranscriptItem tables.validated restored = nativeResponsesItem item := by
  rw [hdescribes.restored hmem hcall]
  obtain ⟨hnative, hsame⟩ := nativeResponsesItem_call hcall
  have hno : (nativeResponsesItem item).has (lit "namespace") = false := (hsame _ (by decide)).2.trans hnone
  obtain ⟨scope, name⟩ := tool
  cases scope with
  | none =>
    refine ⟨item, rfl, ?_⟩
    have hunknown : wireNameOf tables.validated (nativeResponsesItem item) = none := by
      unfold wireNameOf
      rw [hnative.name, PyJson.get_of_not_has hno, wireName]
      dsimp only
      rw [hdescribes.lookup_direct hmem]
      rfl
    rw [nativeToolTranscriptItem_of_call hcall, hunknown]
  | some scope =>
    have hhas : (nativeResponsesItem item).has (lit "name") = true :=
      PyJson.has_of_get (hnative.name ▸ PyJson.noConfusion)
    have hname : (nativeResponsesItem item).get (lit "name") = .str (namespaceAlias sha256 scope name) := hnative.name
    refine ⟨_, restoredTo_of_not_has hnone, ?_⟩
    rw [hdescribes.resent hmem hcall (restoredTo_of_not_has hnone), PyJson.set_eq_self hhas hname, PyJson.pop_eq_self hno]

theorem roundTrip : RoundTrip sha256 declared tables.validated where
  sent := hdescribes.sent.trans hdescribes.wireNames
  distinct := hdescribes.distinctNames
  legal := hdescribes.wireNames ▸ hdescribes.legal
  restored := fun _ hmem _ hcall => hdescribes.restored hmem hcall
  unsent := by
    intro name hunsent item hcall
    rw [restoreToolNamespace_of_call hcall, hdescribes.lookup_unsent hunsent]
    rcases children declared name with _ | ⟨identity, _ | ⟨other, rest⟩⟩ <;> rfl
  resent := fun _ _ hmem _ _ _ hcall hrestored => hdescribes.resent hmem hcall hrestored
  unchanged := fun _ hmem _ hcall hnone => hdescribes.unchanged hmem hcall hnone

end Describes

/-- The tables of an accepted list describe the tools that it declares. -/
theorem validatedNativeTools_describes {value profile : PyJson} {validated : ValidatedNativeTools}
    (h : validatedNativeTools sha256 value profile = .ok validated) :
    ∃ tables, Describes sha256 (declaredTools value) tables ∧ validated = tables.validated := by
  unfold validatedNativeTools at h
  dsimp only at h
  split at h
  · cases h
  · case h_2 entries hentries =>
    have hdeclared : declaredTools value = entries.flatMap declaredBy := by
      cases value with
      | none =>
        obtain rfl := Option.some.inj hentries
        rfl
      | list items =>
        obtain rfl := Option.some.inj hentries
        rfl
      | _ => cases hentries
    split at h
    · cases h
    · split at h
      · cases h
      · cases hfold : entries.foldlM (addTool sha256 ((profile.get (lit "tools")).get (lit "namespace_wire"))
            ((profile.get (lit "tools")).get (lit "web_search_wire"))) emptyTables with
        | error error =>
          rw [hfold] at h
          cases h
        | ok tables =>
          rw [hfold] at h
          refine ⟨tables, hdeclared ▸ foldlM_addTool_describes entries emptyTables_describes hfold, ?_⟩
          have hlast : (if 256 < tables.tools.length then schemaInvalid else .ok tables.validated) = Except.ok validated := h
          split at hlast
          · cases hlast
          · exact (Except.ok.inj hlast).symm

/-- An accepted tool list is sent under distinct legal names, and each name leads back to its tool. -/
theorem validatedNativeTools_roundTrip {value profile : PyJson} {validated : ValidatedNativeTools}
    (h : validatedNativeTools sha256 value profile = .ok validated) :
    RoundTrip sha256 (declaredTools value) validated := by
  obtain ⟨tables, hdescribes, rfl⟩ := validatedNativeTools_describes h
  exact hdescribes.roundTrip

/-! ## One tool of a namespace -/

/-- The digest of the only tool below. -/
def docsReadDigest : HexDigest where
  digest := fun _ => lit "e02b6020c60303020f746dc2822d65cb6f8ea08b39477c741fbe10f1b361b6a0"
  length_digest := fun _ => rfl
  hex_digest := fun _ => by decide

def docsProfile : PyJson := .dict [(lit "tools", .dict [(lit "namespace_wire", .str (lit "flatten"))])]

def docsTools : PyJson := .list [.dict [
  (lit "type", .str (lit "namespace")),
  (lit "name", .str (lit "docs")),
  (lit "tools", .list [.dict [
    (lit "type", .str (lit "function")),
    (lit "name", .str (lit "read")),
    (lit "description", .str (lit "Read a page")),
    (lit "parameters", .dict [])]])]]

theorem validatedNativeTools_roundTrip_docs :
    ∃ validated, validatedNativeTools docsReadDigest docsTools docsProfile = .ok validated ∧
      RoundTrip docsReadDigest (declaredTools docsTools) validated :=
  ⟨_, rfl, @validatedNativeTools_roundTrip docsReadDigest docsTools docsProfile _ rfl⟩

/-- A call as a provider may return it, under the tool's own name. -/
def bareCall : PyJson := .dict [
  (lit "type", .str (lit "function_call")),
  (lit "call_id", .str (lit "call-1")),
  (lit "name", .str (lit "read")),
  (lit "arguments", .str (lit "{}"))]

/-- The name of a transcript's only item. -/
def onlyName : PyJson → Option PyStr
  | .list [item] => (item.get (lit "name")).asStr
  | _ => none

/-- It is restored to the tool and sent again under the wire name that it did not come under. -/
theorem bare_call_renamed :
    ∃ validated restored, validatedNativeTools docsReadDigest docsTools docsProfile = .ok validated ∧
      restoreToolNamespace validated.aliases bareCall = .ok restored ∧
      (restored.get (lit "namespace")).isStr (lit "docs") = true ∧
      nativeToolTranscript validated (.list [restored]) ≠ .list [bareCall] := by
  refine ⟨_, _, rfl, rfl, by decide, fun heq => ?_⟩
  have hname := congrArg onlyName heq
  revert hname
  decide

end ToolAliases
