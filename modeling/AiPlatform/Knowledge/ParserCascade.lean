/-
  AiPlatform.Knowledge.ParserCascade

  The parser cascade (`parsing/cascade.py`): the stages tried for one page, the cache of
  pages they share, and when a call with the cache returns the page that the same call
  returns without it.

  A backend is what it does in one call: whether it can serve, and what it makes of a page.
  The cache keys are hashed by a parameter of the model.
-/

import Mathlib.Algebra.BigOperators.Group.List.Basic
import Mathlib.Algebra.Field.Rat
import AiPlatform.Gateway.PythonText
import AiPlatform.Knowledge.ParsingIr
import AiPlatform.Lib.KeyedList

namespace AiPlatform.Knowledge

open Parsing
open Capability (PyValue)

/-! ## Jobs, stages and backends -/

structure PageSignals where
  hasTextLayer : Bool := false
  textLength : Int := 0
  imageCount : Int := 0
  mime : Option String := none

/-- Everything a backend may need to parse one page. -/
structure PageJob where
  docId : String
  pageNumber : Int
  contentHash : String := ""
  imageBytes : Option (List UInt8) := none
  textLayer : String := ""
  filename : String := ""
  mime : Option String := none
  signals : PageSignals := {}
  /-- `str(job.options.get("parser_config_hash") or "")` -/
  parserConfigHash : String := ""

structure CascadeStage where
  backend : String
  minConfidence : ℚ := 0
  requireTextLayer : Bool := false
  requireImage : Bool := false

def CascadeStage.applies (stage : CascadeStage) (job : PageJob) : Bool :=
  if stage.requireTextLayer && !job.signals.hasTextLayer then false
  else
    let hasImage := decide (0 < job.signals.imageCount) || job.imageBytes.isSome
    !(stage.requireImage && !hasImage)

inductive BackendError where
  /-- `ParserUnavailable` -/
  | unavailable
  /-- Any other exception, as `reasons` has it. -/
  | failed (reason : String)

structure ParserBackend where
  name : String
  version : String
  isAvailable : Bool
  canHandle : PageJob → Bool
  parsePage : PageJob → Except BackendError PageIR

/-- The prepared stages of a cascade. -/
abbrev Stages := List (CascadeStage × ParserBackend)

/-- `page_confidence` -/
def pageConfidence (page : PageIR) : ℚ :=
  match page.confidence with
  | some confidence => confidence
  | none =>
    let blockScores := page.blocks.filterMap (·.confidence)
    if blockScores.isEmpty then
      if page.blocks.any fun block => Gateway.strip block.text != "" then 1 else 0
    else blockScores.sum / blockScores.length

/-- `value or default` of texts -/
def orDefault (value default : String) : String := if value = "" then default else value

/-- `_stamp` -/
def stamp (page : PageIR) (backend : ParserBackend) : PageIR :=
  { page with
    parser := orDefault page.parser backend.name
    parserVersion := orDefault page.parserVersion backend.version
    blocks := page.blocks.map fun block =>
      { block with
        parser := orDefault block.parser backend.name
        parserVersion := orDefault block.parserVersion backend.version } }

/-! ## One page -/

abbrev PageCache := String → Option PageIR

def PageCache.put (cache : PageCache) (key : String) (page : PageIR) : PageCache :=
  fun other => if other = key then some page else cache other

/-- What served one page. -/
structure PageOutcome where
  page : PageIR
  backend : String
  attempts : List String
  fromCache : Bool := false

inductive Reason where
  | raised (text : String)
  | lowConfidence (score bar : ℚ)

structure PageParseFailed where
  pageNumber : Int
  attempts : List String
  reasons : List (String × Reason)

/-- What is kept of the stages that did not serve. -/
structure Attempts where
  attempts : List String := []
  reasons : List (String × Reason) := []
  best : Option PageIR := none
  bestScore : ℚ := -1
  bestBackend : String := ""

namespace Attempts

def note (tried : Attempts) (name : String) (reason : Reason) : Attempts :=
  { tried with
    attempts := tried.attempts ++ [name]
    reasons := KeyedList.insertLast (name, reason) tried.reasons }

def offer (tried : Attempts) (page : PageIR) (score : ℚ) (name : String) : Attempts :=
  if tried.bestScore < score then { tried with best := some page, bestScore := score, bestBackend := name }
  else tried

end Attempts

/-- How the loop over the stages ends. -/
inductive Walk where
  | cached (outcome : PageOutcome)
  | accepted (outcome : PageOutcome) (key : String)
  | exhausted (tried : Attempts)

variable (sha256 : String → String)

/-- `page_cache_key` -/
def pageCacheKey (contentHash : String) (pageNumber : Int) (backendName backendVersion parserConfigHash : String) :
    String :=
  sha256 ("|".intercalate ["1", contentHash, toString pageNumber, backendName, backendVersion, parserConfigHash])

/-- `_cache_key` -/
def cacheKey (job : PageJob) (backend : ParserBackend) : String :=
  pageCacheKey sha256 (orDefault job.contentHash ("doc:" ++ job.docId)) job.pageNumber backend.name
    backend.version job.parserConfigHash

/-- The stages from one of them on. -/
def walk (cache : PageCache) (job : PageJob) (tried : Attempts) : Stages → Walk
  | [] => .exhausted tried
  | (stage, backend) :: rest =>
    if !stage.applies job then walk cache job tried rest
    else if !backend.isAvailable || !backend.canHandle job then walk cache job tried rest
    else
      match cache (cacheKey sha256 job backend) with
      | some page =>
        .cached { page := page, backend := backend.name, attempts := tried.attempts, fromCache := true }
      | none =>
        match backend.parsePage job with
        | .error .unavailable => walk cache job tried rest
        | .error (.failed reason) => walk cache job (tried.note backend.name (.raised reason)) rest
        | .ok raw =>
          let page := stamp raw backend
          let score := pageConfidence page
          if stage.minConfidence ≤ score then
            .accepted { page := page, backend := backend.name, attempts := tried.attempts }
              (cacheKey sha256 job backend)
          else
            walk cache job
              ((tried.note backend.name (.lowConfidence score stage.minConfidence)).offer page score backend.name)
              rest

/-- The best page below its bar, marked for monitoring. -/
def markHard (page : PageIR) (attempts : List String) : PageIR :=
  { page with
    hardPage := true
    metadata := KeyedList.insertLast ("cascade_attempts", .list (attempts.map .str)) page.metadata }

/-- `parse_page`: what it returns or raises, and what it puts into the cache. -/
def parsePage (stages : Stages) (job : PageJob) (cache : PageCache) :
    Except PageParseFailed PageOutcome × Option (String × PageIR) :=
  match walk sha256 cache job {} stages with
  | .cached outcome => (.ok outcome, none)
  | .accepted outcome key => (.ok outcome, some (key, outcome.page))
  | .exhausted tried =>
    match tried.best with
    | none =>
      (.error { pageNumber := job.pageNumber, attempts := tried.attempts, reasons := tried.reasons }, none)
    | some page =>
      let best := markHard page tried.attempts
      -- the first stage whose backend has the name; there is one
      let key := (stages.find? fun entry => entry.2.name == tried.bestBackend).map fun entry =>
        cacheKey sha256 job entry.2
      (.ok { page := best, backend := tried.bestBackend, attempts := tried.attempts },
        key.map fun key => (key, best))

/-- An earlier call.  The page it put into the cache is the one it returned, and what the
    caller notes in its metadata is noted in the cache as well. -/
structure EarlierCall where
  stages : Stages
  job : PageJob
  annotate : PageIR → PageIR

/-- The cache after some calls. -/
def cacheAfter (cache : PageCache) (calls : List EarlierCall) : PageCache :=
  calls.foldl
    (fun cache call =>
      match (parsePage sha256 call.stages call.job cache).2 with
      | some (key, page) => cache.put key (call.annotate page)
      | none => cache)
    cache

def emptyCache : PageCache := fun _ => none

/-! ## The cache is seen through -/

/-- The stage is tried for the job. -/
def serves (job : PageJob) (entry : CascadeStage × ParserBackend) : Bool :=
  entry.1.applies job && entry.2.isAvailable && entry.2.canHandle job

/-- The page a stage makes, when it meets the bar of the stage. -/
def acceptedPage (job : PageJob) (entry : CascadeStage × ParserBackend) : Option PageIR :=
  if serves job entry then
    match entry.2.parsePage job with
    | .ok raw =>
      if entry.1.minConfidence ≤ pageConfidence (stamp raw entry.2) then some (stamp raw entry.2) else none
    | .error _ => none
  else none

/-- The page in the cache under the key of a stage. -/
def cachedPage (cache : PageCache) (job : PageJob) (entry : CascadeStage × ParserBackend) : Option PageIR :=
  if serves job entry then cache (cacheKey sha256 job entry.2) else none

/-- When some stage makes a page that meets its bar, the call returns such a page, the same
    one as with an empty cache. -/
def SeesThrough (stages : Stages) (job : PageJob) (cache : PageCache) : Prop :=
  (∃ entry ∈ stages, (acceptedPage job entry).isSome) →
    ∃ outcome, (parsePage sha256 stages job cache).1 = .ok outcome ∧
      (∃ entry ∈ stages, acceptedPage job entry = some outcome.page) ∧
      (parsePage sha256 stages job emptyCache).1.map (·.page) = .ok outcome.page

/-- An entry of a stage with none before it that would be accepted or has an entry is the page
    of the first stage that meets its bar. -/
def EntriesFit (stages : Stages) (job : PageJob) (cache : PageCache) : Prop :=
  ∀ before entry after page, stages = before ++ entry :: after →
    (∀ earlier ∈ before, acceptedPage job earlier = none ∧ cachedPage sha256 cache job earlier = none) →
    cachedPage sha256 cache job entry = some page →
    ∀ accepted, stages.findSome? (acceptedPage job) = some accepted → page = accepted

variable {sha256}

/-- The page a walk ends with. -/
def Walk.page : Walk → Option PageIR
  | .cached outcome => some outcome.page
  | .accepted outcome _ => some outcome.page
  | .exhausted _ => none

/-- What a stage answers with. -/
def answer (sha256 : String → String) (cache : PageCache) (job : PageJob) (entry : CascadeStage × ParserBackend) :
    Option PageIR :=
  (cachedPage sha256 cache job entry).or (acceptedPage job entry)

theorem walk_page (cache : PageCache) (job : PageJob) (tried : Attempts) (stages : Stages) :
    (walk sha256 cache job tried stages).page = stages.findSome? (answer sha256 cache job) := by
  induction stages generalizing tried with
  | nil => rfl
  | cons entry rest ih =>
    obtain ⟨stage, backend⟩ := entry
    have hskip : serves job (stage, backend) = false → answer sha256 cache job (stage, backend) = none := by
      intro hserves
      rw [answer, cachedPage, acceptedPage, hserves]
      rfl
    rw [walk]
    by_cases happlies : stage.applies job = true
    · by_cases hready : backend.isAvailable = true ∧ backend.canHandle job = true
      · have hserves : serves job (stage, backend) = true := by
          simp [serves, happlies, hready.1, hready.2]
        rw [if_neg (by simp [happlies]), if_neg (by simp [hready.1, hready.2])]
        cases hcache : cache (cacheKey sha256 job backend) with
        | some page =>
          have hanswer : answer sha256 cache job (stage, backend) = some page := by
            rw [answer, cachedPage, if_pos hserves, hcache]
            rfl
          rw [List.findSome?_cons, hanswer]
          rfl
        | none =>
          have hcached : answer sha256 cache job (stage, backend) = acceptedPage job (stage, backend) := by
            rw [answer, cachedPage, if_pos hserves, hcache]
            rfl
          rw [List.findSome?_cons, hcached, acceptedPage, if_pos hserves]
          dsimp only
          cases backend.parsePage job with
          | error error =>
            cases error with
            | unavailable => exact ih tried
            | failed reason => exact ih _
          | ok raw =>
            dsimp only
            by_cases hbar : stage.minConfidence ≤ pageConfidence (stamp raw backend)
            · rw [if_pos hbar, if_pos hbar]
              rfl
            · rw [if_neg hbar, if_neg hbar]
              exact ih _
      · have hskipped : (!backend.isAvailable || !backend.canHandle job) = true := by
          cases havailable : backend.isAvailable
          · rfl
          · simpa [havailable] using hready
        rw [if_neg (by simp [happlies]), if_pos hskipped]
        rw [List.findSome?_cons, hskip (by simpa [serves, happlies] using hready)]
        exact ih tried
    · rw [if_pos (by simpa using happlies), List.findSome?_cons, hskip (by simp [serves, happlies])]
      exact ih tried

theorem parsePage_ok {stages : Stages} {job : PageJob} {cache : PageCache} {page : PageIR}
    (h : stages.findSome? (answer sha256 cache job) = some page) :
    ∃ outcome, (parsePage sha256 stages job cache).1 = .ok outcome ∧ outcome.page = page := by
  rw [← walk_page cache job {} stages] at h
  unfold parsePage
  cases hwalk : walk sha256 cache job {} stages with
  | cached outcome =>
    rw [hwalk] at h
    exact ⟨outcome, rfl, Option.some.inj h⟩
  | accepted outcome key =>
    rw [hwalk] at h
    exact ⟨outcome, rfl, Option.some.inj h⟩
  | exhausted tried =>
    rw [hwalk] at h
    cases h

theorem answer_emptyCache (job : PageJob) : answer sha256 emptyCache job = acceptedPage job := by
  funext entry
  rw [answer, cachedPage]
  split <;> rfl

theorem answer_empty {job : PageJob} {stages : Stages} {page : PageIR}
    (h : stages.findSome? (acceptedPage job) = some page) :
    stages.findSome? (answer sha256 emptyCache job) = some page := by
  rw [answer_emptyCache, h]

/-- A backend that makes a page of this confidence. -/
def samplePdfBackend (name : String) (isAvailable : Bool) (confidence : ℚ) : ParserBackend where
  name := name
  version := "1"
  isAvailable := isAvailable
  canHandle := fun _ => true
  parsePage := fun job => .ok { pageNumber := job.pageNumber, confidence := some confidence }

end AiPlatform.Knowledge
