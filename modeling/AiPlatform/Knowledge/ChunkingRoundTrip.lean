/-
  AiPlatform.Knowledge.ChunkingRoundTrip

  A persisted configuration that passes the check makes a configuration, which passes
  the check in turn and is made again of its own dictionary, exactly when no size is
  given as null and the values that `from_dict` derives stay in the range of the
  check.
-/

import AiPlatform.Knowledge.ChunkingConfig

namespace AiPlatform.Knowledge

open Capability (PyValue)
open Checks Gateway

/-! ## What the check accepts -/

def IntegerOk (value : PyValue) (minimum maximum : Int) : Prop :=
  value = .none ∨ ∃ n, value = .int n ∧ minimum ≤ n ∧ n ≤ maximum

def BooleanOk (value : PyValue) : Prop := value = .none ∨ ∃ b, value = .bool b

def TextOk (value : PyValue) (maximum : Nat) : Prop :=
  value = .none ∨ ∃ s, value = .str s ∧ s.length ≤ maximum

def NamesOk (value : PyValue) (least most maximum : Nat) : Prop :=
  value = .none ∨ ∃ names : List String, value = texts names ∧ least ≤ names.length ∧ names.length ≤ most ∧
    ∀ name ∈ names, name ≠ "" ∧ name.length ≤ maximum

theorem checkInteger_eq_ok {d : Dict} {bound : String × Int × Int} :
    checkInteger d bound = .ok () ↔ IntegerOk (d.get bound.1) bound.2.1 bound.2.2 := by
  obtain ⟨key, minimum, maximum⟩ := bound
  unfold checkInteger IntegerOk
  cases hvalue : d.get key <;> simp [hvalue]

theorem checkBoolean_eq_ok {d : Dict} {key : String} :
    checkBoolean d key = .ok () ↔ BooleanOk (d.get key) := by
  unfold checkBoolean BooleanOk
  cases d.get key <;> simp

theorem checkText_eq_ok {d : Dict} {bound : String × Nat} :
    checkText d bound = .ok () ↔ TextOk (d.get bound.1) bound.2 := by
  obtain ⟨key, maximum⟩ := bound
  unfold checkText TextOk
  cases hvalue : d.get key <;> simp [hvalue]

theorem isName_iff {maximum : Nat} {value : PyValue} :
    isName maximum value = true ↔ ∃ s, value = .str s ∧ s ≠ "" ∧ s.length ≤ maximum := by
  cases value <;> simp [isName]

theorem allNames_iff {maximum : Nat} {items : List PyValue} :
    items.all (isName maximum) = true ↔
      ∃ names : List String, items = names.map .str ∧ ∀ name ∈ names, name ≠ "" ∧ name.length ≤ maximum := by
  induction items with
  | nil => simp
  | cons item items ih =>
    rw [List.all_cons, Bool.and_eq_true, isName_iff, ih]
    constructor
    · rintro ⟨⟨s, rfl, hs⟩, names, rfl, hnames⟩
      exact ⟨s :: names, rfl, List.forall_mem_cons.mpr ⟨hs, hnames⟩⟩
    · rintro ⟨names, heq, hnames⟩
      cases names with
      | nil => cases heq
      | cons name names =>
        obtain ⟨rfl, rfl⟩ := List.cons.inj heq
        obtain ⟨hname, hrest⟩ := List.forall_mem_cons.mp hnames
        exact ⟨⟨name, rfl, hname⟩, names, rfl, hrest⟩

theorem checkNames_eq_ok {value : PyValue} {least most maximum : Nat} {message : String} :
    checkNames value least most maximum message = .ok () ↔ NamesOk value least most maximum := by
  unfold checkNames NamesOk
  cases value with
  | list items =>
    simp only [failIf_eq_ok, Bool.not_eq_false', Bool.and_eq_true, decide_eq_true_eq, allNames_iff]
    constructor
    · rintro ⟨⟨hleast, hmost⟩, names, rfl, hnames⟩
      rw [List.length_map] at hleast hmost
      exact .inr ⟨names, rfl, hleast, hmost, hnames⟩
    · rintro (hnone | ⟨names, heq, hleast, hmost, hnames⟩)
      · cases hnone
      · obtain rfl := PyValue.list.inj heq
        exact ⟨⟨by simpa using hleast, by simpa using hmost⟩, names, rfl, hnames⟩
  | none => simp
  | _ => simp [texts]

/-- The sizes of a dictionary fit one another. -/
structure SizesFit (d : Dict) : Prop where
  overlap : checkedOverlap d < orInt (d.get "chunk_size") 2000
  sizes : orInt (d.get "min_chunk_size") 400 ≤ orInt (d.get "max_chunk_size") 3000
  child : checkedChildOverlap d < orInt (d.get "child_chunk_size") 2000
  parent : checkedParentOverlap d < orInt (d.get "parent_chunk_size") 8000
  tokens : ∀ least ∈ given d ["min_chunk_tokens"], ∀ greatest ∈ given d ["max_chunk_tokens"],
    least ≤ greatest

theorem checkSizes_eq_ok {d : Dict} : checkSizes d = .ok () ↔ SizesFit d := by
  unfold checkSizes
  rw [then_eq_ok, then_eq_ok, then_eq_ok, then_eq_ok, failIf_eq_ok, failIf_eq_ok, failIf_eq_ok, failIf_eq_ok]
  simp only [decide_eq_false_iff_not, not_le, not_lt]
  constructor
  · rintro ⟨hoverlap, hsizes, hchild, hparent, htokens⟩
    refine ⟨hoverlap, hsizes, hchild, hparent, fun least hleast greatest hgreatest => ?_⟩
    rw [Option.mem_def.mp hleast, Option.mem_def.mp hgreatest] at htokens
    simpa using htokens
  · rintro ⟨hoverlap, hsizes, hchild, hparent, htokens⟩
    refine ⟨hoverlap, hsizes, hchild, hparent, ?_⟩
    cases hleast : given d ["min_chunk_tokens"] with
    | none => rfl
    | some least =>
      cases hgreatest : given d ["max_chunk_tokens"] with
      | none => rfl
      | some greatest => simpa using htokens least hleast greatest hgreatest

/-- What the check accepts. -/
structure Checked (d : Dict) : Prop where
  known : ∀ member ∈ d, member.1 ∈ safeChunkingKeys
  surfaces : rejectRegexSurfaces (.dict (regexSurfaces d)) = .ok ()
  mode : checkedMode d ∈ safeChunkingModes
  integers : ∀ bound ∈ integerBounds, IntegerOk (d.get bound.1) bound.2.1 bound.2.2
  booleans : ∀ key ∈ booleanFields, BooleanOk (d.get key)
  textFields : ∀ bound ∈ textBounds, TextOk (d.get bound.1) bound.2
  separators : NamesOk (d.get "separators") 1 32 1024
  metadata : NamesOk (d.get "metadata_fields") 0 32 64
  segmentation : checkSegmentation (d.get "segmentation") = .ok ()
  sizes : SizesFit d

theorem checkDict_eq_ok {d : Dict} : checkDict d = .ok () ↔ Checked d := by
  unfold checkDict
  simp only [then_eq_ok, failIf_eq_ok, forEach_eq_ok, checkInteger_eq_ok, checkBoolean_eq_ok,
    checkText_eq_ok, checkNames_eq_ok, checkSizes_eq_ok, Bool.not_eq_false', List.isEmpty_iff,
    List.filter_eq_nil_iff, List.contains_eq_mem, decide_eq_true_eq, Bool.not_eq_true', List.forall_mem_map]
  constructor
  · rintro ⟨hknown, hsurfaces, hmode, hints, hbools, htexts, hsep, hmeta, hseg, hsizes⟩
    exact ⟨by simpa using hknown, hsurfaces, hmode, hints, hbools, htexts, hsep, hmeta, hseg, hsizes⟩
  · rintro ⟨hknown, hsurfaces, hmode, hints, hbools, htexts, hsep, hmeta, hseg, hsizes⟩
    exact ⟨by simpa using hknown, hsurfaces, hmode, hints, hbools, htexts, hsep, hmeta, hseg, hsizes⟩

theorem validate_dict {d : Dict} (hd : d ≠ []) :
    (validatePersistedChunkingConfig (.dict d)).isOk = true ↔ Checked d := by
  cases d with
  | nil => exact absurd rfl hd
  | cons member rest =>
    have hdef : validatePersistedChunkingConfig (.dict (member :: rest)) =
        checkDict (member :: rest) >>= fun _ => .ok (member :: rest) := rfl
    rw [← checkDict_eq_ok, hdef]
    cases hcheck : checkDict (member :: rest) with
    | error message => exact iff_of_false nofun nofun
    | ok u => exact iff_of_true rfl rfl

/-! ## What is derived -/

/-- No size is given as null. -/
def NoNullSize (d : Dict) : Prop :=
  ∀ key ∈ ["parent_chunk_size", "child_chunk_size", "max_chunk_size", "min_chunk_size",
    "image_context_chars"], d.lookup key ≠ some .none

namespace Derived

variable (d : Dict)

/-- The limit of tokens: given, or that of the segmentation, or the size of a chunk that is
    counted in tokens, or the default. -/
def limit : Int := if autoDefaults d then 400 else (tokenLimitOf d).1

def size : Int :=
  (given d ["chunk_size"]).getD
    (if countsTokens d then if modeOf d = .fixedSize then limit d else max (limit d * 4) 1000 else 2000)

def overlap : Int := if autoDefaults d then 50 else chunkOverlapOf d (tokenLimitOf d).1

def childOverlap : Int :=
  if autoDefaults d then 50 else (given d ["child_overlap", "child_chunk_overlap"]).getD (overlap d)

def parentOverlap : Int :=
  if autoDefaults d then 50 else (given d ["parent_overlap", "parent_chunk_overlap"]).getD (childOverlap d)

def childLimit : Int := if autoDefaults d then 400 else (given d ["child_token_limit"]).getD (limit d)

def parentLimit : Int :=
  if autoDefaults d then 1500 else (given d ["parent_token_limit"]).getD (max (childLimit d * 4) 900)

end Derived

theorem getInt_of_checked {d : Dict} {key : String} {default minimum maximum : Int}
    (hok : IntegerOk (d.get key) minimum maximum) (hnull : d.lookup key ≠ some .none) :
    getInt d key default = .ok ((given d [key]).getD default) := by
  unfold IntegerOk Dict.get at hok
  simp only [getInt, given, Dict.get, List.findSome?]
  cases hvalue : d.lookup key with
  | none => rfl
  | some value =>
    rw [hvalue] at hok hnull
    rcases hok with hnone | ⟨n, hn, -⟩
    · exact absurd (congrArg some hnone) hnull
    · obtain rfl : value = .int n := hn
      rfl

theorem getInt_of_null {d : Dict} {key : String} {default : Int} (hnull : d.lookup key = some .none) :
    getInt d key default = .error .typeError := by
  rw [getInt, hnull]

/-- What `from_dict` makes of a checked dictionary. -/
def derivedConfig (d : Dict) : ChunkingConfig where
  mode := modeOf d
  chunkSize := Derived.size d
  chunkOverlap := Derived.overlap d
  maxChunkSize := (given d ["max_chunk_size"]).getD 3000
  minChunkSize := (given d ["min_chunk_size"]).getD 400
  useTokenCount := countsTokens d
  tokenLimit := Derived.limit d
  minChunkTokens := given d ["min_chunk_tokens"]
  maxChunkTokens := given d ["max_chunk_tokens"]
  separators := orStrings d "separators" ["\n\n\n", "\n\n", "\n", "。", ".", "！", "!", "？", "?", " "]
  primarySeparator := orText d ["primary_separator", "separator"] "\n\n"
  regexPattern := orText d ["regex_pattern", "regex"] ""
  headingPatterns := orStrings d "heading_patterns" []
  parentChunkSize := (given d ["parent_chunk_size"]).getD 8000
  parentOverlap := Derived.parentOverlap d
  childChunkSize := (given d ["child_chunk_size"]).getD 2000
  childOverlap := Derived.childOverlap d
  parentMode := if textOf (d.get "parent_mode") ≠ "" then textOf (d.get "parent_mode")
    else if modeOf d = .hierarchical ∨ modeOf d = .automatic then "fixed" else "recursive"
  parentTokenLimit := some (Derived.parentLimit d)
  childTokenLimit := some (Derived.childLimit d)
  preserveImages := flag d "preserve_images" true
  imageContextChars := (given d ["image_context_chars"]).getD 1000
  removeExtraSpaces := flag d "remove_extra_spaces" true
  removeUrlsEmails := flag d "remove_urls_emails" false
  normalizeWhitespace := flag d "normalize_whitespace" true
  stripHtml := flag d "strip_html" false
  extractMetadata := flag d "extract_metadata" false
  metadataFields := orStrings d "metadata_fields" ["title", "author", "date"]
  pageMarker := orText d ["page_marker"] "\\f"
  strictSectionTraceability := flag d "strict_section_traceability" false

/-- A size that is not given is not small. -/
theorem tokenAware_default {d : Dict} {key : String} {default small least : Int} {limit : Option Int}
    (h : small < default) :
    tokenAware d key ((given d [key]).getD default) limit small least = ((given d [key]).getD default, limit) := by
  unfold tokenAware
  rw [if_neg]
  rintro ⟨hcond, hsmall⟩
  obtain ⟨-, hnone⟩ := Bool.and_eq_true_iff.mp hcond
  rw [Option.isNone_iff_eq_none.mp hnone, Option.getD_none] at hsmall
  omega

/-- An integer that is given lies in the range of its field. -/
theorem given_bounds {d : Dict} {keys : List String} {minimum maximum n : Int}
    (hok : ∀ key ∈ keys, IntegerOk (d.get key) minimum maximum) (hgiven : given d keys = some n) :
    minimum ≤ n ∧ n ≤ maximum := by
  obtain ⟨key, hkey, hnum⟩ := List.exists_of_findSome?_eq_some hgiven
  rcases hok key hkey with hnone | ⟨m, hm, hbounds⟩
  · rw [hnone] at hnum
    cases hnum
  · rw [hm] at hnum
    cases hnum
    exact hbounds

theorem filter_given {d : Dict} {key : String} {maximum : Int} (hok : IntegerOk (d.get key) 1 maximum) :
    (given d [key]).filter (0 < ·) = given d [key] := by
  cases hgiven : given d [key] with
  | none => rfl
  | some n =>
    have hpos := (given_bounds (List.forall_mem_singleton.mpr hok) hgiven).1
    rw [Option.filter_some, if_pos]
    exact decide_eq_true (by omega)

theorem fromDict_eq {d : Dict} (hd : d ≠ []) (h : Checked d) (hnull : NoNullSize d) :
    ChunkingConfig.fromDict d = .ok (derivedConfig d) := by
  obtain ⟨d', hvalid⟩ := exists_ok_of_isOk ((validate_dict hd).mpr h)
  have hparent : getInt d "parent_chunk_size" 8000 = _ :=
    getInt_of_checked (h.integers ("parent_chunk_size", 50, 100000) (by decide)) (hnull _ (by decide))
  have hchild : getInt d "child_chunk_size" 2000 = _ :=
    getInt_of_checked (h.integers ("child_chunk_size", 10, 100000) (by decide)) (hnull _ (by decide))
  have hmax : getInt d "max_chunk_size" 3000 = _ :=
    getInt_of_checked (h.integers ("max_chunk_size", 50, 100000) (by decide)) (hnull _ (by decide))
  have hmin : getInt d "min_chunk_size" 400 = _ :=
    getInt_of_checked (h.integers ("min_chunk_size", 50, 100000) (by decide)) (hnull _ (by decide))
  have himage : getInt d "image_context_chars" 1000 = _ :=
    getInt_of_checked (h.integers ("image_context_chars", 0, 1000000) (by decide)) (hnull _ (by decide))
  have hmintokens := filter_given (h.integers ("min_chunk_tokens", 1, 100000) (by decide))
  have hmaxtokens := filter_given (h.integers ("max_chunk_tokens", 1, 100000) (by decide))
  unfold ChunkingConfig.fromDict
  rw [if_neg (by simpa using hd), hvalid, hparent, hchild, hmax, hmin, himage]
  simp only [bind, Except.bind, Except.mapError, tokenAware_default (by decide : (1200 : Int) < 2000),
    tokenAware_default (by decide : (5000 : Int) < 8000), ChunkingConfig.postInit, hmintokens, hmaxtokens]
  unfold derivedConfig Derived.size Derived.parentOverlap Derived.childOverlap Derived.overlap
    Derived.parentLimit Derived.childLimit Derived.limit
  cases autoDefaults d <;> rfl

/-- A size given as null raises `TypeError`. -/
theorem fromDict_null {d : Dict} (hd : d ≠ []) (hnull : ¬ NoNullSize d) (c : ChunkingConfig) : ChunkingConfig.fromDict d ≠ .ok c := by
  intro hc
  unfold ChunkingConfig.fromDict at hc
  rw [if_neg (by simpa using hd)] at hc
  obtain ⟨-, -, hc⟩ := bind_eq_ok.mp hc
  obtain ⟨_, hparent, hc⟩ := bind_eq_ok.mp hc
  obtain ⟨_, hchild, hc⟩ := bind_eq_ok.mp hc
  obtain ⟨_, hmax, hc⟩ := bind_eq_ok.mp hc
  obtain ⟨_, hmin, hc⟩ := bind_eq_ok.mp hc
  obtain ⟨_, himage, -⟩ := bind_eq_ok.mp hc
  apply hnull
  have hraises : ∀ {key : String} {default n : Int}, getInt d key default = .ok n → d.lookup key ≠ some .none :=
    fun hok hlookup => by rw [getInt_of_null hlookup] at hok; cases hok
  unfold NoNullSize
  simp only [List.forall_mem_cons]
  exact ⟨hraises hparent, hraises hchild, hraises hmax, hraises hmin, hraises himage, nofun⟩

/-! ## The dictionary of a configuration -/

/-- What `from_dict` makes sure of, whatever the values it derives. -/
structure Stable (c : ChunkingConfig) : Prop where
  mode : c.mode ≠ .regex
  regex : c.regexPattern = ""
  headings : c.headingPatterns = [] ∨ c.headingPatterns = safeHeadingPatterns
  marker : c.pageMarker ∈ safePageMarkers
  separators : NamesOk (texts c.separators) 1 32 1024
  primary : c.primarySeparator ≠ "" ∧ c.primarySeparator.length ≤ 1024
  parentMode : c.parentMode ≠ "" ∧ c.parentMode.length ≤ 32
  metadata : NamesOk (texts c.metadataFields) 1 32 64
  maxChunkSize : 50 ≤ c.maxChunkSize ∧ c.maxChunkSize ≤ 100000
  minChunkSize : 50 ≤ c.minChunkSize ∧ c.minChunkSize ≤ c.maxChunkSize
  parentChunkSize : 50 ≤ c.parentChunkSize ∧ c.parentChunkSize ≤ 100000
  childChunkSize : 10 ≤ c.childChunkSize ∧ c.childChunkSize ≤ 100000
  imageContextChars : 0 ≤ c.imageContextChars ∧ c.imageContextChars ≤ 1000000
  chunkOverlap : 0 ≤ c.chunkOverlap ∧ c.chunkOverlap ≤ 50000
  childOverlap : 0 ≤ c.childOverlap ∧ c.childOverlap ≤ 50000
  parentOverlap : 0 ≤ c.parentOverlap ∧ c.parentOverlap ≤ 50000
  tokenLimit : 1 ≤ c.tokenLimit ∧ c.tokenLimit ≤ 100000
  minChunkTokens : ∀ n ∈ c.minChunkTokens, 1 ≤ n ∧ n ≤ 100000
  maxChunkTokens : ∀ n ∈ c.maxChunkTokens, 1 ≤ n ∧ n ≤ 100000
  chunkTokens : ∀ least ∈ c.minChunkTokens, ∀ greatest ∈ c.maxChunkTokens, least ≤ greatest
  childTokenLimit : ∃ n, c.childTokenLimit = some n ∧ 1 ≤ n ∧ n ≤ 100000
  parentTokenLimit : ∃ n, c.parentTokenLimit = some n ∧ 1 ≤ n

/-- The derived values are in the range of the check. -/
structure InRange (c : ChunkingConfig) : Prop where
  chunkSize : 50 ≤ c.chunkSize ∧ c.chunkSize ≤ 100000
  chunkOverlap : c.chunkOverlap < c.chunkSize
  childOverlap : c.childOverlap < c.childChunkSize
  parentOverlap : c.parentOverlap < c.parentChunkSize
  parentTokenLimit : ∀ n ∈ c.parentTokenLimit, n ≤ 100000

theorem strings_texts {items : List String} : strings (texts items) = some items := by
  induction items with
  | nil => rfl
  | cons item items ih =>
    simp only [strings, texts, List.map_cons, List.mapM_cons] at ih ⊢
    rw [ih]
    rfl

theorem rejectRegexSurfaces_texts {items : List String} : rejectRegexSurfaces (texts items) = .ok () := by
  simp only [texts, rejectRegexSurfaces]
  induction items with
  | nil => rfl
  | cons item items ih =>
    simp only [List.map_cons, rejectRegexItems, rejectRegexSurfaces]
    exact ih

theorem rejectRegexMember_mode {mode : ChunkingMode} (h : mode ≠ .regex) :
    rejectRegexMember "mode" (.str mode.value) = .ok () := by
  cases mode with
  | regex => exact absurd rfl h
  | _ => rfl

theorem rejectRegexMember_headings {items : List String} (h : items = [] ∨ items = safeHeadingPatterns) :
    rejectRegexMember "heading_patterns" (texts items) = .ok () := by
  rcases h with rfl | rfl
  · rfl
  · rfl

theorem rejectRegexMember_marker {marker : String} (h : marker ∈ safePageMarkers) :
    rejectRegexMember "page_marker" (.str marker) = .ok () := by
  simp only [safePageMarkers, List.mem_cons, List.not_mem_nil, or_false] at h
  rcases h with rfl | rfl
  · rfl
  · rfl

theorem surfaces_toDict {c : ChunkingConfig} (h : Stable c) :
    rejectRegexSurfaces (.dict (regexSurfaces c.toDict)) = .ok () := by
  have hsurfaces : regexSurfaces c.toDict = [("mode", .str c.mode.value),
      ("regex_pattern", .str c.regexPattern), ("heading_patterns", texts c.headingPatterns),
      ("page_marker", .str c.pageMarker)] := rfl
  rw [hsurfaces, h.regex]
  simp only [rejectRegexSurfaces, rejectRegexMembers, rejectRegexMember_mode h.mode,
    rejectRegexMember_headings h.headings, rejectRegexMember_marker h.marker, rejectRegexSurfaces_texts]
  rfl

theorem checkedMode_toDict {c : ChunkingConfig} (h : c.mode ≠ .regex) :
    checkedMode c.toDict ∈ safeChunkingModes := by
  have hmode : checkedMode c.toDict = lower (strip (if truthy (.str c.mode.value) then c.mode.value
      else "automatic")) := rfl
  rw [hmode]
  cases hvalue : c.mode with
  | regex => exact absurd hvalue h
  | _ => decide

theorem integerOk_int {n minimum maximum : Int} (h : minimum ≤ n ∧ n ≤ maximum) :
    IntegerOk (.int n) minimum maximum := .inr ⟨n, rfl, h⟩

theorem integerOk_optInt {value : Option Int} {minimum maximum : Int}
    (h : ∀ n ∈ value, minimum ≤ n ∧ n ≤ maximum) : IntegerOk (optInt value) minimum maximum := by
  cases value with
  | none => exact .inl rfl
  | some n => exact integerOk_int (h n rfl)

theorem integers_toDict {c : ChunkingConfig} (h : Stable c) (hrange : InRange c) :
    ∀ bound ∈ integerBounds, IntegerOk (c.toDict.get bound.1) bound.2.1 bound.2.2 := by
  obtain ⟨childLimit, hchildLimit, hchildBounds⟩ := h.childTokenLimit
  obtain ⟨parentLimit, hparentLimit, hparentLeast⟩ := h.parentTokenLimit
  have hchild : IntegerOk (optInt c.childTokenLimit) 1 100000 := by
    rw [hchildLimit]
    exact integerOk_int hchildBounds
  have hparent : IntegerOk (optInt c.parentTokenLimit) 1 100000 := by
    rw [hparentLimit]
    exact integerOk_int ⟨hparentLeast, hrange.parentTokenLimit _ hparentLimit⟩
  have hmin : 50 ≤ c.minChunkSize ∧ c.minChunkSize ≤ 100000 :=
    ⟨h.minChunkSize.1, Int.le_trans h.minChunkSize.2 h.maxChunkSize.2⟩
  unfold integerBounds
  simp only [List.forall_mem_cons]
  exact ⟨integerOk_int hrange.chunkSize, integerOk_int h.chunkOverlap, .inl rfl, integerOk_int h.maxChunkSize,
    integerOk_int hmin, integerOk_int h.tokenLimit, .inl rfl, integerOk_optInt h.minChunkTokens,
    integerOk_optInt h.maxChunkTokens, .inl rfl, integerOk_int h.parentChunkSize, integerOk_int h.parentOverlap,
    .inl rfl, integerOk_int h.childChunkSize, integerOk_int h.childOverlap, .inl rfl, hparent, hchild,
    integerOk_int h.imageContextChars, nofun⟩

theorem orInt_int {n rest : Int} (h : 0 < n) : orInt (.int n) rest = n := if_neg (by omega)

theorem num_optInt {value : Option Int} : num (optInt value) = value := by
  cases value <;> rfl

theorem given_single {d : Dict} {key : String} : given d [key] = num (d.get key) := by
  simp only [given, List.findSome?]
  cases num (d.get key) <;> rfl

theorem given_optInt {d : Dict} {key : String} {value : Option Int} (h : d.get key = optInt value) :
    given d [key] = value := by
  rw [given_single, h, num_optInt]

theorem sizesFit_toDict {c : ChunkingConfig} (h : Stable c) (hrange : InRange c) : SizesFit c.toDict := by
  have hmin : given c.toDict ["min_chunk_tokens"] = c.minChunkTokens := given_optInt rfl
  have hmax : given c.toDict ["max_chunk_tokens"] = c.maxChunkTokens := given_optInt rfl
  have hsize : orInt (c.toDict.get "chunk_size") 2000 = c.chunkSize :=
    orInt_int (Int.lt_of_lt_of_le (by decide) hrange.chunkSize.1)
  have hminSize : orInt (c.toDict.get "min_chunk_size") 400 = c.minChunkSize :=
    orInt_int (Int.lt_of_lt_of_le (by decide) h.minChunkSize.1)
  have hmaxSize : orInt (c.toDict.get "max_chunk_size") 3000 = c.maxChunkSize :=
    orInt_int (Int.lt_of_lt_of_le (by decide) h.maxChunkSize.1)
  have hchildSize : orInt (c.toDict.get "child_chunk_size") 2000 = c.childChunkSize :=
    orInt_int (Int.lt_of_lt_of_le (by decide) h.childChunkSize.1)
  have hparentSize : orInt (c.toDict.get "parent_chunk_size") 8000 = c.parentChunkSize :=
    orInt_int (Int.lt_of_lt_of_le (by decide) h.parentChunkSize.1)
  constructor
  · rw [hsize]
    exact hrange.chunkOverlap
  · rw [hminSize, hmaxSize]
    exact h.minChunkSize.2
  · rw [hchildSize]
    exact hrange.childOverlap
  · rw [hparentSize]
    exact hrange.parentOverlap
  · rw [hmin, hmax]
    exact h.chunkTokens

theorem textOk_str {text : String} {maximum : Nat} (h : text.length ≤ maximum) : TextOk (.str text) maximum :=
  .inr ⟨text, rfl, h⟩

theorem knownKeys_toDict : ∀ key ∈ (ChunkingConfig.toDict {}).map Prod.fst, key ∈ safeChunkingKeys := by decide

/-- Which configurations the check takes back. -/
theorem checked_toDict_iff {c : ChunkingConfig} (h : Stable c) : Checked c.toDict ↔ InRange c := by
  constructor
  · intro hchecked
    have hsize := hchecked.integers ("chunk_size", 50, 100000) (by decide)
    have hlimit := hchecked.integers ("parent_token_limit", 1, 100000) (by decide)
    have hbounds : 50 ≤ c.chunkSize ∧ c.chunkSize ≤ 100000 := given_bounds (List.forall_mem_singleton.mpr hsize) rfl
    refine ⟨hbounds, ?_, ?_, ?_, fun n hn => ?_⟩
    · have hfits := hchecked.sizes.overlap
      rwa [show orInt (c.toDict.get "chunk_size") 2000 = c.chunkSize from orInt_int (by omega)] at hfits
    · have hfits := hchecked.sizes.child
      have hpos := h.childChunkSize.1
      rwa [show orInt (c.toDict.get "child_chunk_size") 2000 = c.childChunkSize from
        orInt_int (by omega)] at hfits
    · have hfits := hchecked.sizes.parent
      have hpos := h.parentChunkSize.1
      rwa [show orInt (c.toDict.get "parent_chunk_size") 8000 = c.parentChunkSize from
        orInt_int (by omega)] at hfits
    · refine (given_bounds (List.forall_mem_singleton.mpr hlimit) ?_).2
      rw [given_optInt rfl]
      exact hn
  · intro hrange
    have hflag : ∀ b : Bool, BooleanOk (.bool b) := fun b => .inr ⟨b, rfl⟩
    refine ⟨?_, surfaces_toDict h, checkedMode_toDict h.mode, integers_toDict h hrange, ?_, ?_,
      h.separators, ?_, rfl, sizesFit_toDict h hrange⟩
    · intro member hmem
      have hkeys : c.toDict.map Prod.fst = (ChunkingConfig.toDict {}).map Prod.fst := rfl
      have hkey := hkeys ▸ List.mem_map_of_mem hmem
      exact knownKeys_toDict _ hkey
    · unfold booleanFields
      simp only [List.forall_mem_cons]
      exact ⟨hflag _, .inl rfl, .inl rfl, hflag _, hflag _, hflag _, hflag _, hflag _, hflag _, hflag _, nofun⟩
    · unfold textBounds
      simp only [List.forall_mem_cons]
      exact ⟨.inl rfl, textOk_str h.primary.2, .inl rfl, textOk_str h.parentMode.2, .inl rfl, .inl rfl, nofun⟩
    · rcases h.metadata with hnone | ⟨names, heq, -, hmost, hnames⟩
      · exact .inl hnone
      · exact .inr ⟨names, heq, Nat.zero_le _, hmost, hnames⟩

theorem toDict_ne_nil {c : ChunkingConfig} : c.toDict ≠ [] := nofun

theorem noNullSize_toDict {c : ChunkingConfig} : NoNullSize c.toDict := by
  unfold NoNullSize
  simp only [List.forall_mem_cons]
  exact ⟨nofun, nofun, nofun, nofun, nofun, nofun⟩

theorem modeOf_toDict {c : ChunkingConfig} : modeOf c.toDict = c.mode := by
  have hmode : modeOf c.toDict = modeMap (lower c.mode.value) := rfl
  rw [hmode]
  cases c.mode <;> rfl

theorem orStrings_toDict {d : Dict} {key : String} {items default : List String}
    (hvalue : d.get key = texts items) (hitems : items ≠ [] ∨ default = []) :
    orStrings d key default = items := by
  rw [orStrings, hvalue, strings_texts]
  cases items with
  | nil => exact if_neg nofun |>.trans (hitems.resolve_left fun hne => hne rfl)
  | cons item items => rfl

theorem orText_toDict {d : Dict} {key : String} {keys : List String} {text default : String}
    (hvalue : d.get key = .str text) (htext : text ≠ "") : orText d (key :: keys) default = text := by
  have htruthy : truthy (d.get key) = true := by
    rw [hvalue]
    exact bne_iff_ne.mpr htext
  have hfind : (key :: keys).find? (fun key => truthy (d.get key)) = some key :=
    List.find?_cons_of_pos htruthy
  rw [orText, hfind, Option.elim_some, hvalue, textOf]

theorem autoDefaults_toDict {c : ChunkingConfig} : autoDefaults c.toDict = false := by
  unfold autoDefaults
  exact Bool.and_false _

theorem limit_toDict {c : ChunkingConfig} : Derived.limit c.toDict = c.tokenLimit := by
  rw [Derived.limit, autoDefaults_toDict]
  rfl

theorem regexPattern_toDict {c : ChunkingConfig} (h : c.regexPattern = "") :
    orText c.toDict ["regex_pattern", "regex"] "" = "" := by
  have hpattern : truthy (c.toDict.get "regex_pattern") = false := by
    have hvalue : c.toDict.get "regex_pattern" = .str c.regexPattern := rfl
    rw [hvalue, h]
    rfl
  have hregex : truthy (c.toDict.get "regex") = false := rfl
  simp [orText, hpattern, hregex]

theorem ne_nil_of_namesOk {names : List String} {most maximum : Nat}
    (h : NamesOk (texts names) 1 most maximum) : names ≠ [] := by
  rcases h with hnone | ⟨names', heq, hleast, -⟩
  · cases hnone
  · have hstrings := congrArg strings heq
    rw [strings_texts, strings_texts, Option.some_inj] at hstrings
    rw [hstrings]
    exact List.ne_nil_of_length_pos hleast

theorem ne_empty_of_marker {marker : String} (h : marker ∈ safePageMarkers) : marker ≠ "" := by
  rintro rfl
  revert h
  decide

theorem flag_of_lookup {d : Dict} {key : String} {b default : Bool} (h : d.lookup key = some (.bool b)) :
    flag d key default = b := by
  rw [flag, Dict.getD, h, Option.getD_some, truthy]

theorem given_int {d : Dict} {key : String} {n : Int} (h : d.get key = .int n) (keys : List String) :
    given d (key :: keys) = some n := by
  have hnum : num (d.get key) = some n := by rw [h, num]
  rw [given, List.findSome?_cons, hnum]

theorem flags_toDict {c : ChunkingConfig} :
    countsTokens c.toDict = c.useTokenCount ∧ flag c.toDict "preserve_images" true = c.preserveImages ∧
    flag c.toDict "remove_extra_spaces" true = c.removeExtraSpaces ∧
    flag c.toDict "remove_urls_emails" false = c.removeUrlsEmails ∧
    flag c.toDict "normalize_whitespace" true = c.normalizeWhitespace ∧
    flag c.toDict "strip_html" false = c.stripHtml ∧
    flag c.toDict "extract_metadata" false = c.extractMetadata ∧
    flag c.toDict "strict_section_traceability" false = c.strictSectionTraceability :=
  ⟨@flag_of_lookup _ _ _ true rfl, flag_of_lookup rfl, flag_of_lookup rfl, flag_of_lookup rfl,
    flag_of_lookup rfl, flag_of_lookup rfl, flag_of_lookup rfl, flag_of_lookup rfl⟩

theorem sizes_toDict {c : ChunkingConfig} :
    Derived.size c.toDict = c.chunkSize ∧ Derived.overlap c.toDict = c.chunkOverlap ∧
    (given c.toDict ["max_chunk_size"]).getD 3000 = c.maxChunkSize ∧
    (given c.toDict ["min_chunk_size"]).getD 400 = c.minChunkSize ∧
    (given c.toDict ["parent_chunk_size"]).getD 8000 = c.parentChunkSize ∧
    (given c.toDict ["child_chunk_size"]).getD 2000 = c.childChunkSize ∧
    (given c.toDict ["image_context_chars"]).getD 1000 = c.imageContextChars ∧
    Derived.childOverlap c.toDict = c.childOverlap ∧ Derived.parentOverlap c.toDict = c.parentOverlap := by
  have hauto := @autoDefaults_toDict c
  refine ⟨?_, ?_, ?_, ?_, ?_, ?_, ?_, ?_, ?_⟩
  · rw [Derived.size, given_int rfl, Option.getD_some]
  · rw [Derived.overlap, hauto, chunkOverlapOf, given_int rfl]
    rfl
  · rw [given_int rfl, Option.getD_some]
  · rw [given_int rfl, Option.getD_some]
  · rw [given_int rfl, Option.getD_some]
  · rw [given_int rfl, Option.getD_some]
  · rw [given_int rfl, Option.getD_some]
  · rw [Derived.childOverlap, hauto, given_int rfl]
    rfl
  · rw [Derived.parentOverlap, hauto, given_int rfl]
    rfl

theorem texts_toDict {c : ChunkingConfig} (h : Stable c) :
    orStrings c.toDict "separators" ["\n\n\n", "\n\n", "\n", "。", ".", "！", "!", "？", "?", " "] = c.separators ∧
    orText c.toDict ["primary_separator", "separator"] "\n\n" = c.primarySeparator ∧
    orText c.toDict ["regex_pattern", "regex"] "" = c.regexPattern ∧
    orStrings c.toDict "heading_patterns" [] = c.headingPatterns ∧
    orStrings c.toDict "metadata_fields" ["title", "author", "date"] = c.metadataFields ∧
    orText c.toDict ["page_marker"] "\\f" = c.pageMarker :=
  ⟨orStrings_toDict rfl (.inl (ne_nil_of_namesOk h.separators)), orText_toDict rfl h.primary.1,
    (regexPattern_toDict h.regex).trans h.regex.symm, orStrings_toDict rfl (.inr rfl),
    orStrings_toDict rfl (.inl (ne_nil_of_namesOk h.metadata)),
    orText_toDict rfl (ne_empty_of_marker h.marker)⟩

theorem limits_toDict {c : ChunkingConfig} (h : Stable c) :
    some (Derived.childLimit c.toDict) = c.childTokenLimit ∧
      some (Derived.parentLimit c.toDict) = c.parentTokenLimit := by
  have hauto := @autoDefaults_toDict c
  obtain ⟨childLimit, hchildLimit, -⟩ := h.childTokenLimit
  obtain ⟨parentLimit, hparentLimit, -⟩ := h.parentTokenLimit
  constructor
  · rw [Derived.childLimit, hauto, given_optInt rfl, hchildLimit]
    rfl
  · rw [Derived.parentLimit, hauto, given_optInt rfl, hparentLimit]
    rfl

/-- A configuration is made again of its dictionary. -/
theorem derivedConfig_toDict {c : ChunkingConfig} (h : Stable c) : derivedConfig c.toDict = c := by
  obtain ⟨hcounts, himages, hspaces, hurls, hwhitespace, hhtml, hextract, hstrict⟩ := @flags_toDict c
  obtain ⟨hsize, hoverlap, hmax, hmin, hparent, hchild, hcontext, hchildOverlap, hparentOverlap⟩ :=
    @sizes_toDict c
  obtain ⟨hseparators, hprimary, hregex, hheadings, hmetadata, hmarker⟩ := texts_toDict h
  obtain ⟨hchildLimit, hparentLimit⟩ := limits_toDict h
  have hmode : textOf (c.toDict.get "parent_mode") = c.parentMode := rfl
  have hmintokens : given c.toDict ["min_chunk_tokens"] = c.minChunkTokens := given_optInt rfl
  have hmaxtokens : given c.toDict ["max_chunk_tokens"] = c.maxChunkTokens := given_optInt rfl
  unfold derivedConfig
  rw [modeOf_toDict, hsize, hoverlap, hmax, hmin, hcounts, limit_toDict, hmintokens, hmaxtokens, hseparators,
    hprimary, hregex, hheadings, hparent, hparentOverlap, hchild, hchildOverlap, hmode,
    if_pos h.parentMode.1, hparentLimit, hchildLimit, himages, hcontext, hspaces, hurls, hwhitespace, hhtml,
    hextract, hmetadata, hmarker, hstrict]

/-! ## What from_dict makes sure of -/

theorem toLower_of_isSpace {c : Char} (h : isSpace c = true) : c.toLower = c := by
  unfold Char.toLower
  rw [dif_neg]
  rintro ⟨hleast, hmost⟩
  have hleast : 65 ≤ c.toNat := hleast
  have hmost : c.toNat ≤ 90 := hmost
  unfold isSpace at h
  simp only [List.contains_eq_mem, List.mem_cons, List.not_mem_nil, or_false, Bool.or_eq_true,
    Bool.and_eq_true, decide_eq_true_eq] at h
  omega

/-- A text that is `regex` in lower case has no blanks to strip. -/
theorem strip_of_lower_regex {text : String} (h : lower text = "regex") : strip text = text := by
  have hchars : text.toList.map Char.toLower = ['r', 'e', 'g', 'e', 'x'] := by
    have htoList := congrArg String.toList h
    rwa [lower, String.toList_ofList] at htoList
  obtain ⟨first, tail, htext, hfirst, htail⟩ := List.map_eq_cons_iff.mp hchars
  obtain ⟨last, hlast, hlastLower⟩ : ∃ last, text.toList.getLast? = some last ∧ last.toLower = 'x' := by
    have hgetLast := congrArg List.getLast? hchars
    rw [List.getLast?_map] at hgetLast
    exact Option.map_eq_some_iff.mp hgetLast
  refine @strip_eq text first last (by rw [htext]; rfl) hlast ?_ ?_
  · cases hspace : isSpace first with
    | false => rfl
    | true =>
      rw [toLower_of_isSpace hspace] at hfirst
      rw [hfirst] at hspace
      exact absurd hspace (by decide)
  · cases hspace : isSpace last with
    | false => rfl
    | true =>
      rw [toLower_of_isSpace hspace] at hlastLower
      rw [hlastLower] at hspace
      exact absurd hspace (by decide)

section Derive

variable {d : Dict}

/-- Every surface a regex may be in has been looked at. -/
theorem rejectRegexMember_of_ok {items : Dict} (h : rejectRegexMembers items = .ok ()) :
    ∀ member ∈ items, rejectRegexMember member.1 member.2 = .ok () := by
  induction items with
  | nil => nofun
  | cons member items ih =>
    obtain ⟨key, nested⟩ := member
    rw [rejectRegexMembers, then_eq_ok, then_eq_ok] at h
    exact List.forall_mem_cons.mpr ⟨h.1, ih h.2.2⟩

theorem normalKey_fields : ∀ key ∈ regexFields, normalKey key = key := by decide

theorem rejectRegexMember_get (h : Checked d) (key : String) (hkey : key ∈ regexFields) :
    d.lookup key = none ∨ rejectRegexMember key (d.get key) = .ok () := by
  cases hvalue : d.lookup key with
  | none => exact .inl rfl
  | some value =>
    have hmem : (key, value) ∈ regexSurfaces d := by
      unfold regexSurfaces
      rw [List.mem_filterMap]
      exact ⟨key, hkey, by rw [hvalue]; rfl⟩
    have hget : d.get key = value := by rw [Dict.get, hvalue, Option.getD_some]
    have hsurfaces := h.surfaces
    rw [rejectRegexSurfaces] at hsurfaces
    rw [hget]
    exact .inr (rejectRegexMember_of_ok hsurfaces (key, value) hmem)

theorem falsy_of_regex {rawKey : String} {nested : PyValue}
    (hkey : normalKey rawKey = "regex" ∨ normalKey rawKey = "regex_pattern")
    (h : rejectRegexMember rawKey nested = .ok ()) : truthy nested = false := by
  unfold rejectRegexMember at h
  simp only [then_eq_ok, failIf_eq_ok] at h
  have hregex := h.2.1
  rcases hkey with hkey | hkey
  · simpa [hkey] using hregex
  · simpa [hkey] using hregex

theorem lower_ne_regex {rawKey : String} {nested : PyValue} (hkey : normalKey rawKey = "mode")
    (h : rejectRegexMember rawKey nested = .ok ()) : lower (strip (textOf nested)) ≠ "regex" := by
  unfold rejectRegexMember at h
  simp only [then_eq_ok, failIf_eq_ok] at h
  have hmode := h.1
  intro hlower
  simp [hkey, hlower] at hmode

theorem safe_headings {rawKey : String} {nested : PyValue} (hkey : normalKey rawKey = "heading_patterns")
    (h : rejectRegexMember rawKey nested = .ok ()) (htruthy : truthy nested = true) :
    strings nested = some safeHeadingPatterns := by
  unfold rejectRegexMember at h
  simp only [then_eq_ok, failIf_eq_ok] at h
  have hheadings := h.2.2.1
  simpa [hkey, htruthy] using hheadings

theorem safe_marker {rawKey : String} {nested : PyValue} (hkey : normalKey rawKey = "page_marker")
    (h : rejectRegexMember rawKey nested = .ok ()) (htruthy : truthy nested = true) :
    textOf nested ∈ safePageMarkers := by
  unfold rejectRegexMember at h
  simp only [then_eq_ok, hkey] at h
  have hmarker := h.2.2.2
  split at hmarker
  · cases htruthy
  · cases htruthy
  · simpa [textOf] using hmarker
  · simp at hmarker

theorem orInt_eq_given {key : String} {minimum maximum rest : Int}
    (hok : IntegerOk (d.get key) minimum maximum) (hpos : 0 < minimum) :
    orInt (d.get key) rest = (given d [key]).getD rest := by
  rw [given_single]
  rcases hok with hnone | ⟨n, hn, hleast, -⟩
  · rw [hnone]
    rfl
  · rw [hn, orInt_int (by omega)]
    rfl

/-- A size that is given, or a default in its range. -/
theorem getD_bounds {keys : List String} {minimum maximum default : Int}
    (hok : ∀ key ∈ keys, IntegerOk (d.get key) minimum maximum)
    (hdefault : minimum ≤ default ∧ default ≤ maximum) :
    minimum ≤ (given d keys).getD default ∧ (given d keys).getD default ≤ maximum := by
  cases hgiven : given d keys with
  | none => exact hdefault
  | some n => exact given_bounds hok hgiven

theorem segmentationLimit_bounds {n : Int} (h : Checked d) (hn : segmentationLimit d = some n) :
    1 ≤ n ∧ n ≤ 100000 := by
  have hcheck := h.segmentation
  unfold segmentationLimit at hn
  cases hvalue : d.get "segmentation" with
  | dict segmentation =>
    rw [hvalue] at hn hcheck
    unfold checkSegmentation at hcheck
    obtain ⟨-, hcheck⟩ := then_eq_ok.mp hcheck
    cases hmax : Dict.get segmentation "max_tokens" with
    | int m =>
      simp only [hmax, num, Option.some.injEq] at hn
      subst hn
      simpa [hmax] using hcheck
    | _ => simp [hmax, num] at hn
  | _ => simp [hvalue] at hn

theorem tokenLimitOf_bounds (h : Checked d) : 1 ≤ (tokenLimitOf d).1 ∧ (tokenLimitOf d).1 ≤ 100000 := by
  have hlimits : ∀ key ∈ ["token_limit", "max_tokens"], IntegerOk (d.get key) 1 100000 :=
    List.forall_mem_cons.mpr ⟨h.integers ("token_limit", 1, 100000) (by decide),
      List.forall_mem_singleton.mpr (h.integers ("max_tokens", 1, 100000) (by decide))⟩
  unfold tokenLimitOf
  split
  · rename_i limit hlimit
    cases hgiven : given d ["token_limit", "max_tokens"] with
    | some n =>
      rw [hgiven] at hlimit
      cases hlimit
      exact given_bounds hlimits hgiven
    | none =>
      rw [hgiven] at hlimit
      exact segmentationLimit_bounds h hlimit
  · split
    · rename_i size hsize
      split
      · have hbounds := given_bounds
          (List.forall_mem_singleton.mpr (h.integers ("chunk_size", 50, 100000) (by decide))) hsize
        exact ⟨Int.le_trans (by decide) hbounds.1, hbounds.2⟩
      · exact ⟨by decide, by decide⟩
    · exact ⟨by decide, by decide⟩

theorem limit_bounds (h : Checked d) : 1 ≤ Derived.limit d ∧ Derived.limit d ≤ 100000 := by
  unfold Derived.limit
  split
  · exact ⟨by decide, by decide⟩
  · exact tokenLimitOf_bounds h

theorem overlap_bounds (h : Checked d) : 0 ≤ Derived.overlap d ∧ Derived.overlap d ≤ 50000 := by
  unfold Derived.overlap
  split
  · exact ⟨by decide, by decide⟩
  · unfold chunkOverlapOf
    split
    · rename_i overlap hoverlap
      exact given_bounds (List.forall_mem_cons.mpr ⟨h.integers ("chunk_overlap", 0, 50000) (by decide),
        List.forall_mem_singleton.mpr (h.integers ("overlap", 0, 50000) (by decide))⟩) hoverlap
    · have hlimit := tokenLimitOf_bounds h
      split
      · split
        · exact ⟨by decide, by decide⟩
        · omega
      · exact ⟨by decide, by decide⟩

theorem childOverlap_bounds (h : Checked d) :
    0 ≤ Derived.childOverlap d ∧ Derived.childOverlap d ≤ 50000 := by
  unfold Derived.childOverlap
  split
  · exact ⟨by decide, by decide⟩
  · exact getD_bounds (List.forall_mem_cons.mpr ⟨h.integers ("child_overlap", 0, 50000) (by decide),
      List.forall_mem_singleton.mpr (h.integers ("child_chunk_overlap", 0, 50000) (by decide))⟩)
      (overlap_bounds h)

theorem parentOverlap_bounds (h : Checked d) :
    0 ≤ Derived.parentOverlap d ∧ Derived.parentOverlap d ≤ 50000 := by
  unfold Derived.parentOverlap
  split
  · exact ⟨by decide, by decide⟩
  · exact getD_bounds (List.forall_mem_cons.mpr ⟨h.integers ("parent_overlap", 0, 50000) (by decide),
      List.forall_mem_singleton.mpr (h.integers ("parent_chunk_overlap", 0, 50000) (by decide))⟩)
      (childOverlap_bounds h)

theorem childLimit_bounds (h : Checked d) : 1 ≤ Derived.childLimit d ∧ Derived.childLimit d ≤ 100000 := by
  unfold Derived.childLimit
  split
  · exact ⟨by decide, by decide⟩
  · exact getD_bounds (List.forall_mem_singleton.mpr (h.integers ("child_token_limit", 1, 100000) (by decide)))
      (limit_bounds h)

theorem one_le_parentLimit (h : Checked d) : 1 ≤ Derived.parentLimit d := by
  unfold Derived.parentLimit
  split
  · decide
  · cases hgiven : given d ["parent_token_limit"] with
    | none => exact Int.le_trans (by decide) (le_max_right _ _)
    | some n => exact (given_bounds (List.forall_mem_singleton.mpr
        (h.integers ("parent_token_limit", 1, 100000) (by decide))) hgiven).1

theorem modeMap_ne_regex {text : String} (h : text ≠ "regex") : modeMap text ≠ .regex := by
  unfold modeMap
  split <;> first | exact absurd rfl h | nofun

theorem modeOf_ne_regex (h : Checked d) : modeOf d ≠ .regex := by
  refine modeMap_ne_regex fun hlower => ?_
  have hkey := normalKey_fields "mode" (by decide)
  rcases rejectRegexMember_get h "mode" (by decide) with hnone | hok
  · rw [Dict.getD, hnone] at hlower
    exact absurd hlower (by decide)
  · have hget : d.getD "mode" (.str "automatic") = d.get "mode" ∨ d.lookup "mode" = none := by
      cases hvalue : d.lookup "mode" with
      | none => exact .inr rfl
      | some value => exact .inl (by rw [Dict.getD, Dict.get, hvalue]; rfl)
    rcases hget with hget | hnone
    · rw [hget] at hlower
      exact lower_ne_regex hkey hok ((congrArg lower (strip_of_lower_regex hlower)).trans hlower)
    · rw [Dict.getD, hnone] at hlower
      exact absurd hlower (by decide)

theorem falsy_of_absent {key : String} (h : d.lookup key = none) : truthy (d.get key) = false := by
  rw [Dict.get, h]
  rfl

theorem orText_regex (h : Checked d) : orText d ["regex_pattern", "regex"] "" = "" := by
  have hfalsy : ∀ key ∈ ["regex_pattern", "regex"], ¬ truthy (d.get key) = true := by
    have hof : ∀ key, key ∈ regexFields → normalKey key = "regex" ∨ normalKey key = "regex_pattern" →
        ¬ truthy (d.get key) = true := by
      intro key hkey hnormal htruthy
      rcases rejectRegexMember_get h key hkey with hnone | hok
      · rw [falsy_of_absent hnone] at htruthy
        cases htruthy
      · rw [falsy_of_regex hnormal hok] at htruthy
        cases htruthy
    exact List.forall_mem_cons.mpr ⟨
      hof _ (by decide) (.inr (normalKey_fields _ (by decide))),
      List.forall_mem_singleton.mpr (hof _ (by decide) (.inl (normalKey_fields _ (by decide))))⟩
  rw [orText, List.find?_eq_none.mpr hfalsy, Option.elim_none]

theorem orStrings_headings (h : Checked d) :
    orStrings d "heading_patterns" [] = [] ∨ orStrings d "heading_patterns" [] = safeHeadingPatterns := by
  unfold orStrings
  split
  · rename_i htruthy
    rcases rejectRegexMember_get h "heading_patterns" (by decide) with hnone | hok
    · rw [falsy_of_absent hnone] at htruthy
      cases htruthy
    · have hkey := normalKey_fields "heading_patterns" (by decide)
      rw [safe_headings hkey hok htruthy]
      exact .inr rfl
  · exact .inl rfl

theorem orText_marker (h : Checked d) : orText d ["page_marker"] "\\f" ∈ safePageMarkers := by
  cases htruthy : truthy (d.get "page_marker") with
  | false =>
    rw [orText, List.find?_cons_of_neg (by simp [htruthy]), List.find?_nil, Option.elim_none]
    decide
  | true =>
    rw [orText, List.find?_cons_of_pos (by exact htruthy), Option.elim_some]
    rcases rejectRegexMember_get h "page_marker" (by decide) with hnone | hok
    · rw [falsy_of_absent hnone] at htruthy
      cases htruthy
    · exact safe_marker (normalKey_fields "page_marker" (by decide)) hok htruthy

/-- A list of names that is given, or the default. -/
theorem orStrings_namesOk {key : String} {default : List String} {least most maximum : Nat}
    (h : NamesOk (d.get key) least most maximum) (hdefault : NamesOk (texts default) 1 most maximum) :
    NamesOk (texts (orStrings d key default)) 1 most maximum := by
  unfold orStrings
  split
  · rename_i htruthy
    rcases h with hnone | ⟨names, heq, -, hmost, hnames⟩
    · rw [hnone] at htruthy
      cases htruthy
    · rw [heq, strings_texts, Option.getD_some]
      refine .inr ⟨names, rfl, ?_, hmost, hnames⟩
      rw [heq] at htruthy
      cases names with
      | nil => cases htruthy
      | cons name names => exact Nat.succ_le_succ (Nat.zero_le _)
  · exact hdefault

theorem textOf_length {key : String} {maximum : Nat} (h : TextOk (d.get key) maximum) :
    (textOf (d.get key)).length ≤ maximum := by
  rcases h with hnone | ⟨s, hs, hlength⟩
  · rw [hnone]
    exact Nat.zero_le _
  · rw [hs]
    exact hlength

theorem textOf_ne_empty {key : String} {maximum : Nat} (h : TextOk (d.get key) maximum)
    (htruthy : truthy (d.get key) = true) : textOf (d.get key) ≠ "" := by
  rcases h with hnone | ⟨s, hs, -⟩
  · rw [hnone] at htruthy
    cases htruthy
  · rw [hs] at htruthy ⊢
    exact bne_iff_ne.mp htruthy

theorem orText_bounds {keys : List String} {default : String} {maximum : Nat}
    (h : ∀ key ∈ keys, TextOk (d.get key) maximum) (hdefault : default ≠ "" ∧ default.length ≤ maximum) :
    orText d keys default ≠ "" ∧ (orText d keys default).length ≤ maximum := by
  unfold orText
  cases hfind : keys.find? fun key => truthy (d.get key) with
  | none => exact hdefault
  | some key =>
    have hok := h key (List.mem_of_find?_eq_some hfind)
    have htruthy := @List.find?_some _ (fun key => truthy (d.get key)) key keys hfind
    exact ⟨textOf_ne_empty hok htruthy, textOf_length hok⟩

theorem namesOk_of_all {names : List String} {least most maximum : Nat}
    (h : least ≤ names.length ∧ names.length ≤ most ∧ ∀ name ∈ names, name ≠ "" ∧ name.length ≤ maximum) :
    NamesOk (texts names) least most maximum :=
  .inr ⟨names, rfl, h⟩

theorem integer_given (h : Checked d) {key : String} {minimum maximum : Int}
    (hbound : (key, minimum, maximum) ∈ integerBounds) : ∀ k ∈ [key], IntegerOk (d.get k) minimum maximum :=
  List.forall_mem_singleton.mpr (h.integers _ hbound)

theorem parentMode_ok (h : Checked d) {default : String} (hdefault : default ≠ "" ∧ default.length ≤ 32) :
    (if textOf (d.get "parent_mode") ≠ "" then textOf (d.get "parent_mode") else default) ≠ "" ∧
      (if textOf (d.get "parent_mode") ≠ "" then textOf (d.get "parent_mode") else default).length ≤ 32 := by
  have hlength := textOf_length (h.textFields ("parent_mode", 32) (by decide))
  split
  · rename_i hne
    exact ⟨hne, hlength⟩
  · exact hdefault

theorem minChunkSize_ok (h : Checked d) :
    50 ≤ (given d ["min_chunk_size"]).getD 400 ∧
      (given d ["min_chunk_size"]).getD 400 ≤ (given d ["max_chunk_size"]).getD 3000 := by
  have hmin := h.integers ("min_chunk_size", 50, 100000) (by decide)
  have hmax := h.integers ("max_chunk_size", 50, 100000) (by decide)
  have hsizes := h.sizes.sizes
  rw [orInt_eq_given hmin (by decide), orInt_eq_given hmax (by decide)] at hsizes
  exact ⟨(getD_bounds (List.forall_mem_singleton.mpr hmin) (by decide)).1, hsizes⟩

theorem stable_derivedConfig (h : Checked d) : Stable (derivedConfig d) := by
  have hprimary : ∀ key ∈ ["primary_separator", "separator"], TextOk (d.get key) 1024 :=
    List.forall_mem_cons.mpr ⟨h.textFields ("primary_separator", 1024) (by decide),
      List.forall_mem_singleton.mpr (h.textFields ("separator", 1024) (by decide))⟩
  unfold derivedConfig
  constructor <;> dsimp only
  case mode => exact modeOf_ne_regex h
  case regex => exact orText_regex h
  case headings => exact orStrings_headings h
  case marker => exact orText_marker h
  case separators => exact orStrings_namesOk h.separators (namesOk_of_all (by decide))
  case primary => exact orText_bounds hprimary (by decide)
  case parentMode =>
    refine parentMode_ok h ?_
    split <;> decide
  case metadata => exact orStrings_namesOk h.metadata (namesOk_of_all (by decide))
  case maxChunkSize => exact getD_bounds (@integer_given _ h "max_chunk_size" 50 100000 (by decide)) (by decide)
  case minChunkSize => exact minChunkSize_ok h
  case parentChunkSize =>
    exact getD_bounds (@integer_given _ h "parent_chunk_size" 50 100000 (by decide)) (by decide)
  case childChunkSize =>
    exact getD_bounds (@integer_given _ h "child_chunk_size" 10 100000 (by decide)) (by decide)
  case imageContextChars =>
    exact getD_bounds (@integer_given _ h "image_context_chars" 0 1000000 (by decide)) (by decide)
  case chunkOverlap => exact overlap_bounds h
  case childOverlap => exact childOverlap_bounds h
  case parentOverlap => exact parentOverlap_bounds h
  case tokenLimit => exact limit_bounds h
  case minChunkTokens =>
    exact fun n hn => given_bounds (@integer_given _ h "min_chunk_tokens" 1 100000 (by decide)) hn
  case maxChunkTokens =>
    exact fun n hn => given_bounds (@integer_given _ h "max_chunk_tokens" 1 100000 (by decide)) hn
  case chunkTokens => exact h.sizes.tokens
  case childTokenLimit => exact ⟨_, rfl, childLimit_bounds h⟩
  case parentTokenLimit => exact ⟨_, rfl, one_le_parentLimit h⟩

end Derive

/-! ## Processable dictionaries -/

/-- No size is null, and the sizes, overlaps and limits that follow from the fields of the
    dictionary fit one another as the check wants it. -/
structure Processable (d : Dict) : Prop where
  sizes : NoNullSize d
  size : 50 ≤ Derived.size d ∧ Derived.size d ≤ 100000
  overlap : Derived.overlap d < Derived.size d
  childOverlap : Derived.childOverlap d < (given d ["child_chunk_size"]).getD 2000
  parentOverlap : Derived.parentOverlap d < (given d ["parent_chunk_size"]).getD 8000
  parentLimit : Derived.parentLimit d ≤ 100000

/-- The configuration is made, its dictionary passes the check, and it is made again of
    that. -/
def RoundTrips (d : Dict) : Prop :=
  ∃ c, ChunkingConfig.fromDict d = .ok c ∧
    (validatePersistedChunkingConfig (.dict c.toDict)).isOk = true ∧
    ChunkingConfig.fromDict c.toDict = .ok c

theorem inRange_derivedConfig {d : Dict} (hnull : NoNullSize d) :
    InRange (derivedConfig d) ↔ Processable d := by
  unfold derivedConfig
  constructor
  · rintro ⟨hsize, hoverlap, hchild, hparent, hlimit⟩
    exact ⟨hnull, hsize, hoverlap, hchild, hparent, hlimit _ rfl⟩
  · rintro ⟨-, hsize, hoverlap, hchild, hparent, hlimit⟩
    exact ⟨hsize, hoverlap, hchild, hparent, fun n hn => Option.some.inj hn ▸ hlimit⟩

/-- The configuration of the empty dictionary. -/
theorem roundTrips_nil : RoundTrips [] := by
  have hstable : Stable (ChunkingConfig.postInit {}) :=
    { mode := nofun
      regex := rfl
      headings := .inr rfl
      marker := by decide
      separators := namesOk_of_all (by decide)
      primary := by decide
      parentMode := by decide
      metadata := namesOk_of_all (by decide)
      maxChunkSize := by decide
      minChunkSize := by decide
      parentChunkSize := by decide
      childChunkSize := by decide
      imageContextChars := by decide
      chunkOverlap := by decide
      childOverlap := by decide
      parentOverlap := by decide
      tokenLimit := by decide
      minChunkTokens := nofun
      maxChunkTokens := nofun
      chunkTokens := nofun
      childTokenLimit := ⟨500, rfl, by decide⟩
      parentTokenLimit := ⟨1500, rfl, by decide⟩ }
  have hrange : InRange (ChunkingConfig.postInit {}) :=
    ⟨by decide, by decide, by decide, by decide, fun n hn => Option.some.inj hn ▸ by decide⟩
  have hchecked := (checked_toDict_iff hstable).mpr hrange
  refine ⟨ChunkingConfig.postInit {}, rfl, (validate_dict toDict_ne_nil).mpr hchecked, ?_⟩
  rw [fromDict_eq toDict_ne_nil hchecked noNullSize_toDict, derivedConfig_toDict hstable]

theorem processable_nil : Processable [] := by
  refine ⟨?_, by decide, by decide, by decide, by decide, by decide⟩
  intro key _
  nofun

/-- A dictionary the check accepts makes a configuration that is accepted again and made
    again of its dictionary, exactly when it is processable. -/
theorem accepted_config_roundTrips_iff {d : Dict}
    (h : (validatePersistedChunkingConfig (.dict d)).isOk = true) : RoundTrips d ↔ Processable d := by
  by_cases hd : d = []
  · subst hd
    exact iff_of_true roundTrips_nil processable_nil
  · have hchecked := (validate_dict hd).mp h
    have hstable := stable_derivedConfig hchecked
    by_cases hnull : NoNullSize d
    · have hfrom := fromDict_eq hd hchecked hnull
      rw [← inRange_derivedConfig hnull, ← checked_toDict_iff hstable, ← validate_dict toDict_ne_nil]
      constructor
      · rintro ⟨c, hc, haccepted, -⟩
        rw [hfrom] at hc
        exact Except.ok.inj hc ▸ haccepted
      · intro haccepted
        refine ⟨derivedConfig d, hfrom, haccepted, ?_⟩
        rw [fromDict_eq toDict_ne_nil ((validate_dict toDict_ne_nil).mp haccepted) noNullSize_toDict,
          derivedConfig_toDict hstable]
    · refine iff_of_false ?_ fun hprocessable => hnull hprocessable.sizes
      rintro ⟨c, hc, -⟩
      exact fromDict_null hd hnull c hc

/-- Parents and children of their own sizes. -/
theorem accepted_config_roundTrips_iff_hierarchical :
    let d : Dict := [("mode", .str "parent_child"), ("chunk_size", .int 1000), ("child_chunk_size", .int 600)]
    (validatePersistedChunkingConfig (.dict d)).isOk = true ∧ RoundTrips d := by
  intro d
  have haccepted : (validatePersistedChunkingConfig (.dict d)).isOk = true := by decide +kernel
  have hprocessable : Processable d := by
    refine ⟨?_, by decide, by decide, by decide, by decide, by decide⟩
    intro key _ hlookup
    have hnull : ∀ value ∈ d.map Prod.snd, value ≠ .none := by
      intro value hmem
      simp only [d, List.map_cons, List.map_nil, List.mem_cons, List.not_mem_nil, or_false] at hmem
      rcases hmem with rfl | rfl | rfl
      all_goals
        intro hnone
        cases hnone
    obtain ⟨before, after, hd, -⟩ := List.lookup_eq_some_iff.mp hlookup
    have hmem : PyValue.none ∈ d.map Prod.snd := by
      rw [hd]
      simp
    exact hnull _ hmem rfl
  exact ⟨haccepted, (accepted_config_roundTrips_iff haccepted).mpr hprocessable⟩

/-- A token limit in its range makes a chunk size that is not. -/
theorem long_limit_not_accepted :
    let d : Dict := [("mode", .str "hierarchical"), ("token_limit", .int 30000)]
    (validatePersistedChunkingConfig (.dict d)).isOk = true ∧
      (ChunkingConfig.fromDict d).map ChunkingConfig.chunkSize = .ok 120000 ∧ ¬ RoundTrips d := by
  intro d
  refine ⟨by decide +kernel, by decide +kernel, ?_⟩
  rintro ⟨c, hc, haccepted, -⟩
  have hrejected : ∀ c ∈ (ChunkingConfig.fromDict d).toOption,
      (validatePersistedChunkingConfig (.dict c.toDict)).isOk = false := by decide +kernel
  rw [hrejected c (by rw [hc]; rfl)] at haccepted
  cases haccepted

end AiPlatform.Knowledge
