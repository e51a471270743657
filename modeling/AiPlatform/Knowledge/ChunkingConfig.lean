/-
  AiPlatform.Knowledge.ChunkingConfig

  The chunking configuration of the knowledge service (`chunking.py`): the check of
  a persisted dictionary, the configuration made of it, and its dictionary again.

  The check recomputes the defaults of sizes and overlaps, and the configuration
  derives its own.  A dictionary holds what JSON can; what `str()` writes for a value
  that is no text is never the name of a mode, and is left empty here.
-/

import AiPlatform.Lib.Checks
import AiPlatform.Gateway.PythonText
import AiPlatform.Capability.PythonCanonical

namespace AiPlatform.Knowledge

open Capability (PyValue)
open Checks Gateway

/-! ## Values of a dictionary -/

abbrev Dict := List (String × PyValue)

namespace Dict

/-- `d.get(key)` -/
def get (d : Dict) (key : String) : PyValue := (d.lookup key).getD .none

/-- `d.get(key, default)` -/
def getD (d : Dict) (key : String) (default : PyValue) : PyValue := (d.lookup key).getD default

/-- `key in d` -/
def has (d : Dict) (key : String) : Bool := (d.lookup key).isSome

end Dict

/-- `bool(value)` -/
def truthy : PyValue → Bool
  | .none => false
  | .bool b => b
  | .int n => n != 0
  | .float bits => bits <<< 1 != 0
  | .str s => s != ""
  | .list items => !items.isEmpty
  | .dict items => !items.isEmpty

/-- The integer of a field, when it is not `None`. -/
def num : PyValue → Option Int
  | .int n => some n
  | _ => none

/-- The first of the fields that is an integer, not `None`. -/
def given (d : Dict) (keys : List String) : Option Int := keys.findSome? fun key => num (d.get key)

/-- `value or rest` of integers. -/
def orInt (value : PyValue) (rest : Int) : Int :=
  match value with
  | .int n => if n = 0 then rest else n
  | _ => rest

/-- `str(value)` -/
def textOf : PyValue → String
  | .str s => s
  | _ => ""

/-- The texts of a list of texts. -/
def strings : PyValue → Option (List String)
  | .list items => items.mapM fun
      | .str s => some s
      | _ => none
  | _ => none

/-! ## What a field may be -/

def safeHeadingPatterns : List String :=
  ["^#\x7b1,6\x7d\\s+.+$", "^第[一二三四五六七八九十\\d]+[章节条款]", "^[A-Z][A-Z \\t]\x7b4,\x7d:?$"]

def safePageMarkers : List String := ["\\f", "\x0c"]

def safeChunkingModes : List String :=
  ["automatic", "auto", "fixed_size", "fixed", "custom", "paragraph", "page", "heading", "section",
   "separator", "recursive", "hierarchical", "parent_child", "qa"]

def safeChunkingKeys : List String :=
  ["mode", "chunk_size", "chunk_overlap", "overlap", "max_chunk_size", "min_chunk_size",
   "use_token_count", "token_limit", "max_tokens", "min_chunk_tokens", "max_chunk_tokens", "separators",
   "separator", "primary_separator", "keep_separator", "regex_pattern", "regex", "heading_level",
   "heading_patterns", "min_paragraph_length", "merge_short_paragraphs", "parent_chunk_size",
   "parent_overlap", "parent_chunk_overlap", "child_chunk_size", "child_overlap", "child_chunk_overlap",
   "parent_mode", "parent_token_limit", "child_token_limit", "question_prefix", "answer_prefix",
   "preserve_images", "image_context_chars", "remove_extra_spaces", "remove_urls_emails",
   "normalize_whitespace", "strip_html", "extract_metadata", "metadata_fields", "page_marker",
   "strict_section_traceability", "segmentation"]

/-- The least and the greatest value of an integer field. -/
def integerBounds : List (String × Int × Int) :=
  [("chunk_size", 50, 100000), ("chunk_overlap", 0, 50000), ("overlap", 0, 50000),
   ("max_chunk_size", 50, 100000), ("min_chunk_size", 50, 100000), ("token_limit", 1, 100000),
   ("max_tokens", 1, 100000), ("min_chunk_tokens", 1, 100000), ("max_chunk_tokens", 1, 100000),
   ("min_paragraph_length", 1, 100000), ("parent_chunk_size", 50, 100000), ("parent_overlap", 0, 50000),
   ("parent_chunk_overlap", 0, 50000), ("child_chunk_size", 10, 100000), ("child_overlap", 0, 50000),
   ("child_chunk_overlap", 0, 50000), ("parent_token_limit", 1, 100000), ("child_token_limit", 1, 100000),
   ("image_context_chars", 0, 1000000)]

def booleanFields : List String :=
  ["use_token_count", "keep_separator", "merge_short_paragraphs", "preserve_images", "remove_extra_spaces",
   "remove_urls_emails", "normalize_whitespace", "strip_html", "extract_metadata",
   "strict_section_traceability"]

/-- The greatest length of a text field. -/
def textBounds : List (String × Nat) :=
  [("separator", 1024), ("primary_separator", 1024), ("heading_level", 32), ("parent_mode", 32),
   ("question_prefix", 128), ("answer_prefix", 128)]

/-! ## The check -/

/-- `str(raw_key).strip().lower().replace("-", "_")` -/
def normalKey (rawKey : String) : String :=
  String.ofList ((lower (strip rawKey)).toList.map fun c => if c = '-' then '_' else c)

def rejectRegexMember (rawKey : String) (nested : PyValue) : Except String Unit := do
  let key := normalKey rawKey
  failIf (key == "mode" && lower (strip (textOf nested)) == "regex") "custom regex chunking is disabled"
  failIf ((key == "regex" || key == "regex_pattern") && truthy nested) "custom regex chunking is disabled"
  failIf (key == "heading_patterns" && truthy nested && strings nested != some safeHeadingPatterns)
    "custom heading regex patterns are disabled"
  match nested with
  | .none | .str "" => .ok ()
  | .str s => failIf (key == "page_marker" && !safePageMarkers.contains s) "custom page marker regex is disabled"
  | _ => failIf (key == "page_marker") "custom page marker regex is disabled"

mutual

/-- `_reject_custom_chunking_regex_surfaces` -/
def rejectRegexSurfaces : PyValue → Except String Unit
  | .dict items => rejectRegexMembers items
  | .list items => rejectRegexItems items
  | _ => .ok ()

def rejectRegexMembers : List (String × PyValue) → Except String Unit
  | [] => .ok ()
  | (key, nested) :: rest => do
      rejectRegexMember key nested
      rejectRegexSurfaces nested
      rejectRegexMembers rest

def rejectRegexItems : List PyValue → Except String Unit
  | [] => .ok ()
  | item :: rest => do
      rejectRegexSurfaces item
      rejectRegexItems rest

end

def regexFields : List String := ["mode", "regex", "regex_pattern", "heading_patterns", "page_marker"]

/-- The fields that a regex may be in, those the dictionary has. -/
def regexSurfaces (d : Dict) : Dict :=
  regexFields.filterMap fun key => (d.lookup key).map fun value => (key, value)

def checkInteger (d : Dict) (bound : String × Int × Int) : Except String Unit :=
  let (key, minimum, maximum) := bound
  let message := "chunking " ++ key ++ " must be an integer between " ++ toString minimum ++ " and " ++
    toString maximum
  match d.get key with
  | .none => .ok ()
  | .int candidate => failIf (!decide (minimum ≤ candidate ∧ candidate ≤ maximum)) message
  | _ => .error message

def checkBoolean (d : Dict) (key : String) : Except String Unit :=
  match d.get key with
  | .none | .bool _ => .ok ()
  | _ => .error ("chunking " ++ key ++ " must be a boolean")

def checkText (d : Dict) (bound : String × Nat) : Except String Unit :=
  let (key, maximum) := bound
  match d.get key with
  | .none => .ok ()
  | .str candidate => failIf (maximum < candidate.length) ("chunking " ++ key ++ " is invalid")
  | _ => .error ("chunking " ++ key ++ " is invalid")

/-- The item is a text, not empty and not longer. -/
def isName (maximum : Nat) : PyValue → Bool
  | .str s => s != "" && s.length ≤ maximum
  | _ => false

def checkNames (value : PyValue) (least most maximum : Nat) (message : String) : Except String Unit :=
  match value with
  | .none => .ok ()
  | .list items =>
      failIf (!(least ≤ items.length && items.length ≤ most && items.all (isName maximum))) message
  | _ => .error message

def checkSegmentation : PyValue → Except String Unit
  | .none => .ok ()
  | .dict segmentation => do
      failIf (segmentation.isEmpty || segmentation.any (·.1 != "max_tokens")) "chunking segmentation is invalid"
      match Dict.get segmentation "max_tokens" with
      | .int maxTokens =>
          failIf (!decide (1 ≤ maxTokens ∧ maxTokens ≤ 100000))
            "chunking segmentation.max_tokens must be an integer between 1 and 100000"
      | _ => .error "chunking segmentation.max_tokens must be an integer between 1 and 100000"
  | _ => .error "chunking segmentation is invalid"

/-- `mode` as the check reads it. -/
def checkedMode (d : Dict) : String :=
  let value := d.get "mode"
  lower (strip (if truthy value then textOf value else "automatic"))

def countsTokens (d : Dict) : Bool := truthy (d.getD "use_token_count" (.bool true))

/-- The overlap the check computes.  `int(token_limit * 0.1)` is a tenth, rounded down. -/
def checkedOverlap (d : Dict) : Int :=
  match given d ["chunk_overlap", "overlap"] with
  | some overlap => overlap
  | none =>
      if countsTokens d then
        let tokenLimit := orInt (d.get "token_limit") (orInt (d.get "max_tokens") (orInt (d.get "chunk_size") 500))
        if ["automatic", "auto", "hierarchical"].contains (checkedMode d) then 50
        else max (tokenLimit / 10) 20
      else 300

def checkedChildOverlap (d : Dict) : Int :=
  (given d ["child_overlap", "child_chunk_overlap"]).getD (checkedOverlap d)

def checkedParentOverlap (d : Dict) : Int :=
  (given d ["parent_overlap", "parent_chunk_overlap"]).getD (checkedChildOverlap d)

/-- The last part of the check: the sizes against one another. -/
def checkSizes (d : Dict) : Except String Unit := do
  failIf (decide (orInt (d.get "chunk_size") 2000 ≤ checkedOverlap d))
    "chunking overlap must be smaller than chunk_size"
  failIf (decide (orInt (d.get "max_chunk_size") 3000 < orInt (d.get "min_chunk_size") 400))
    "min_chunk_size must not exceed max_chunk_size"
  failIf (decide (orInt (d.get "child_chunk_size") 2000 ≤ checkedChildOverlap d))
    "child overlap must be smaller than child_chunk_size"
  failIf (decide (orInt (d.get "parent_chunk_size") 8000 ≤ checkedParentOverlap d))
    "parent overlap must be smaller than parent_chunk_size"
  match given d ["min_chunk_tokens"], given d ["max_chunk_tokens"] with
  | some minTokens, some maxTokens =>
      failIf (decide (maxTokens < minTokens)) "min_chunk_tokens must not exceed max_chunk_tokens"
  | _, _ => .ok ()

/-- The least of the texts. -/
def firstSorted : List String → String
  | [] => ""
  | [text] => text
  | text :: rest => min text (firstSorted rest)

def checkDict (d : Dict) : Except String Unit := do
  let unknown := (d.map Prod.fst).filter (!safeChunkingKeys.contains ·)
  failIf (!unknown.isEmpty) ("unsupported chunking config field: " ++ firstSorted unknown)
  rejectRegexSurfaces (.dict (regexSurfaces d))
  failIf (!safeChunkingModes.contains (checkedMode d)) "unsupported chunking mode"
  forEach integerBounds (checkInteger d)
  forEach booleanFields (checkBoolean d)
  forEach textBounds (checkText d)
  checkNames (d.get "separators") 1 32 1024 "chunking separators are invalid"
  checkNames (d.get "metadata_fields") 0 32 64 "chunking metadata_fields are invalid"
  checkSegmentation (d.get "segmentation")
  checkSizes d

/-- `validate_persisted_chunking_config` -/
def validatePersistedChunkingConfig : PyValue → Except String Dict
  | .none | .dict [] => .ok []
  | .dict d => do
      checkDict d
      .ok d
  | _ => .error "chunking config must be an object"

/-! ## The configuration -/

inductive ChunkingMode where
  | automatic
  | fixedSize
  | paragraph
  | page
  | heading
  | regex
  | separator
  | recursive
  | hierarchical
  | qa
  deriving DecidableEq

def ChunkingMode.value : ChunkingMode → String
  | automatic => "automatic"
  | fixedSize => "fixed_size"
  | paragraph => "paragraph"
  | page => "page"
  | heading => "heading"
  | regex => "regex"
  | separator => "separator"
  | recursive => "recursive"
  | hierarchical => "hierarchical"
  | qa => "qa"

@[ext]
structure ChunkingConfig where
  mode : ChunkingMode := .automatic
  chunkSize : Int := 2000
  chunkOverlap : Int := 300
  maxChunkSize : Int := 3000
  minChunkSize : Int := 400
  useTokenCount : Bool := true
  tokenLimit : Int := 500
  minChunkTokens : Option Int := none
  maxChunkTokens : Option Int := none
  separators : List String :=
    ["\n\n\n", "\n\n", "\n", "。", ".", "！", "!", "？", "?", "；", ";", "،", ",", " "]
  primarySeparator : String := "\n\n"
  regexPattern : String := ""
  headingPatterns : List String := safeHeadingPatterns
  parentChunkSize : Int := 8000
  parentOverlap : Int := 400
  childChunkSize : Int := 2000
  childOverlap : Int := 300
  parentMode : String := "recursive"
  parentTokenLimit : Option Int := none
  childTokenLimit : Option Int := none
  preserveImages : Bool := true
  imageContextChars : Int := 1000
  removeExtraSpaces : Bool := true
  removeUrlsEmails : Bool := false
  normalizeWhitespace : Bool := true
  stripHtml : Bool := false
  extractMetadata : Bool := false
  metadataFields : List String := ["title", "author", "date", "keywords"]
  pageMarker : String := "\\f"
  strictSectionTraceability : Bool := false
  deriving DecidableEq

/-- `__post_init__` -/
def ChunkingConfig.postInit (c : ChunkingConfig) : ChunkingConfig :=
  { c with
    minChunkTokens := c.minChunkTokens.filter (0 < ·)
    maxChunkTokens := c.maxChunkTokens.filter (0 < ·)
    childTokenLimit := c.childTokenLimit <|> if c.tokenLimit = 0 then none else some c.tokenLimit
    parentTokenLimit :=
      c.parentTokenLimit <|> if c.tokenLimit = 0 then none else some (max (c.tokenLimit * 3) 900) }

inductive ChunkingError where
  | validation (message : String)
  | typeError
  deriving DecidableEq

/-- `int(d.get(key, default))` -/
def getInt (d : Dict) (key : String) (default : Int) : Except ChunkingError Int :=
  match d.lookup key with
  | none => .ok default
  | some (.int n) => .ok n
  | some _ => .error .typeError

def modeMap : String → ChunkingMode
  | "automatic" | "auto" => .automatic
  | "fixed_size" | "fixed" | "custom" => .fixedSize
  | "paragraph" => .paragraph
  | "page" => .page
  | "heading" | "section" => .heading
  | "regex" => .regex
  | "separator" => .separator
  | "recursive" => .recursive
  | "hierarchical" | "parent_child" => .hierarchical
  | "qa" => .qa
  | _ => .automatic

/-- `mode` as `from_dict` reads it. -/
def modeOf (d : Dict) : ChunkingMode := modeMap (lower (textOf (d.getD "mode" (.str "automatic"))))

def segmentationLimit (d : Dict) : Option Int :=
  match d.get "segmentation" with
  | .dict segmentation => num (Dict.get segmentation "max_tokens")
  | _ => none

/-- `token_limit`, and whether it is the default. -/
def tokenLimitOf (d : Dict) : Int × Bool :=
  match given d ["token_limit", "max_tokens"] <|> segmentationLimit d with
  | some limit => (limit, false)
  | none =>
      match given d ["chunk_size"] with
      | some size =>
          if (countsTokens d && modeOf d == .fixedSize) = true ∧ size ≠ 0 then (size, false) else (500, true)
      | none => (500, true)

def chunkOverlapOf (d : Dict) (tokenLimit : Int) : Int :=
  match given d ["chunk_overlap", "overlap"] with
  | some overlap => overlap
  | none =>
      if countsTokens d then
        if modeOf d = .hierarchical ∨ modeOf d = .automatic then 50 else max (tokenLimit / 10) 20
      else 300

def autoDefaults (d : Dict) : Bool :=
  modeOf d == .automatic && (tokenLimitOf d).2 &&
    !(["chunk_size", "chunk_overlap", "parent_chunk_size", "child_chunk_size", "parent_overlap",
      "child_overlap", "token_limit", "parent_token_limit", "child_token_limit"].any d.has)

/-- Sizes of parents or children that are not given and small are taken for tokens. -/
def tokenAware (d : Dict) (key : String) (size : Int) (limit : Option Int) (small least : Int) :
    Int × Option Int :=
  if (countsTokens d && (given d [key]).isNone) = true ∧ size ≤ small then
    let limit := limit.getD size
    (max ((if limit = 0 then size else limit) * 4) least, some limit)
  else (size, limit)

/-- `str(d.get(key) or … or default)` -/
def orText (d : Dict) (keys : List String) (default : String) : String :=
  (keys.find? fun key => truthy (d.get key)).elim default fun key => textOf (d.get key)

/-- `d.get(key) or default` of texts. -/
def orStrings (d : Dict) (key : String) (default : List String) : List String :=
  if truthy (d.get key) then (strings (d.get key)).getD [] else default

/-- `bool(d.get(key, default))` -/
def flag (d : Dict) (key : String) (default : Bool) : Bool := truthy (d.getD key (.bool default))

/-- `ChunkingConfig.from_dict` -/
def ChunkingConfig.fromDict (d : Dict) : Except ChunkingError ChunkingConfig :=
  if d.isEmpty then .ok (ChunkingConfig.postInit {})
  else do
    let _ ← (validatePersistedChunkingConfig (.dict d)).mapError .validation
    let mode := modeOf d
    let auto := autoDefaults d
    let parentSize ← getInt d "parent_chunk_size" 8000
    let childSize ← getInt d "child_chunk_size" 2000
    let tokenLimit := if auto then 400 else (tokenLimitOf d).1
    let chunkOverlap := if auto then 50 else chunkOverlapOf d (tokenLimitOf d).1
    let childOverlap := if auto then 50 else
      (given d ["child_overlap", "child_chunk_overlap"]).getD chunkOverlap
    let parentOverlap := if auto then 50 else
      (given d ["parent_overlap", "parent_chunk_overlap"]).getD childOverlap
    let chunkSize := (given d ["chunk_size"]).getD
      (if countsTokens d then if mode = .fixedSize then tokenLimit else max (tokenLimit * 4) 1000 else 2000)
    let (childSize, childLimit) := tokenAware d "child_chunk_size" childSize
      (if auto then some 400 else given d ["child_token_limit"]) 1200 1000
    let (parentSize, parentLimit) := tokenAware d "parent_chunk_size" parentSize
      (if auto then some 1500 else given d ["parent_token_limit"]) 5000 2000
    let childLimit := childLimit.getD tokenLimit
    let parentLimit := parentLimit.getD (max (childLimit * 4) 900)
    let parentMode := textOf (d.get "parent_mode")
    let maxChunkSize ← getInt d "max_chunk_size" 3000
    let minChunkSize ← getInt d "min_chunk_size" 400
    let imageContextChars ← getInt d "image_context_chars" 1000
    .ok (ChunkingConfig.postInit
      { mode := mode
        chunkSize := chunkSize
        chunkOverlap := chunkOverlap
        maxChunkSize := maxChunkSize
        minChunkSize := minChunkSize
        useTokenCount := countsTokens d
        tokenLimit := tokenLimit
        minChunkTokens := (given d ["min_chunk_tokens"]).filter (0 < ·)
        maxChunkTokens := (given d ["max_chunk_tokens"]).filter (0 < ·)
        separators := orStrings d "separators" ["\n\n\n", "\n\n", "\n", "。", ".", "！", "!", "？", "?", " "]
        primarySeparator := orText d ["primary_separator", "separator"] "\n\n"
        regexPattern := orText d ["regex_pattern", "regex"] ""
        headingPatterns := orStrings d "heading_patterns" []
        parentChunkSize := parentSize
        parentOverlap := parentOverlap
        childChunkSize := childSize
        childOverlap := childOverlap
        parentMode := if parentMode ≠ "" then parentMode
          else if mode = .hierarchical ∨ mode = .automatic then "fixed" else "recursive"
        parentTokenLimit := some parentLimit
        childTokenLimit := some childLimit
        preserveImages := flag d "preserve_images" true
        imageContextChars := imageContextChars
        removeExtraSpaces := flag d "remove_extra_spaces" true
        removeUrlsEmails := flag d "remove_urls_emails" false
        normalizeWhitespace := flag d "normalize_whitespace" true
        stripHtml := flag d "strip_html" false
        extractMetadata := flag d "extract_metadata" false
        metadataFields := orStrings d "metadata_fields" ["title", "author", "date"]
        pageMarker := orText d ["page_marker"] "\\f"
        strictSectionTraceability := flag d "strict_section_traceability" false })

/-- An optional integer as a value. -/
def optInt : Option Int → PyValue
  | some n => .int n
  | none => .none

def texts (items : List String) : PyValue := .list (items.map .str)

/-- `ChunkingConfig.to_dict` -/
def ChunkingConfig.toDict (c : ChunkingConfig) : Dict :=
  [("mode", .str c.mode.value),
   ("chunk_size", .int c.chunkSize),
   ("chunk_overlap", .int c.chunkOverlap),
   ("max_chunk_size", .int c.maxChunkSize),
   ("min_chunk_size", .int c.minChunkSize),
   ("use_token_count", .bool c.useTokenCount),
   ("token_limit", .int c.tokenLimit),
   ("min_chunk_tokens", optInt c.minChunkTokens),
   ("max_chunk_tokens", optInt c.maxChunkTokens),
   ("separators", texts c.separators),
   ("primary_separator", .str c.primarySeparator),
   ("regex_pattern", .str c.regexPattern),
   ("heading_patterns", texts c.headingPatterns),
   ("parent_chunk_size", .int c.parentChunkSize),
   ("parent_overlap", .int c.parentOverlap),
   ("child_chunk_size", .int c.childChunkSize),
   ("child_overlap", .int c.childOverlap),
   ("parent_mode", .str c.parentMode),
   ("parent_token_limit", optInt c.parentTokenLimit),
   ("child_token_limit", optInt c.childTokenLimit),
   ("preserve_images", .bool c.preserveImages),
   ("image_context_chars", .int c.imageContextChars),
   ("remove_extra_spaces", .bool c.removeExtraSpaces),
   ("remove_urls_emails", .bool c.removeUrlsEmails),
   ("normalize_whitespace", .bool c.normalizeWhitespace),
   ("strip_html", .bool c.stripHtml),
   ("extract_metadata", .bool c.extractMetadata),
   ("metadata_fields", texts c.metadataFields),
   ("page_marker", .str c.pageMarker),
   ("strict_section_traceability", .bool c.strictSectionTraceability)]

end AiPlatform.Knowledge
