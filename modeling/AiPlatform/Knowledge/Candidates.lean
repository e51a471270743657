/-
  AiPlatform.Knowledge.Candidates

  Retrieval candidates as the parent-child stage reads them
  (`parent_child_retrieval.py`).

  A score is a float other than not-a-number; all that is used of it is the order
  and the zero.  `str` stands for Python's `str` of a value that is no string.
-/

import AiPlatform.Gateway.PythonText
import AiPlatform.Json.PyJson
import Mathlib.Data.Finset.Basic

namespace AiPlatform.Knowledge

open PyJson

/-! ## Texts -/

def isPySpace : PyChar → Bool
  | .scalar c => Gateway.isSpace c
  | .surrogate _ => false

/-- `str.strip` -/
def stripText (text : PyStr) : PyStr :=
  ((text.dropWhile isPySpace).reverse.dropWhile isPySpace).reverse

/-- `str(value or "")` -/
def strOr (str : PyJson → PyStr) : PyJson → PyStr
  | .str text => text
  | value => if value.truthy then str value else []

/-! ## Candidates -/

/-- What stands under `_sources`. -/
inductive Sources where
  | absent
  | set (members : Finset PyStr)
  | list (members : List PyStr)

/-- A candidate; its metadata is a dict, and an absent one is empty. -/
structure Candidate (Score : Type) where
  segmentId : PyStr
  documentId : PyJson
  text : PyJson
  finalScore : Option Score
  fusionScore : Option Score
  sources : Sources
  metadata : List (PyStr × PyJson)

section

variable {Score : Type}

/-- `candidate.get("metadata")` -/
def Candidate.payload (candidate : Candidate Score) : PyJson := .dict candidate.metadata

/-- `_final_score`: nothing, or what is no number, counts as zero. -/
def Candidate.score [Zero Score] (candidate : Candidate Score) : Score :=
  candidate.finalScore.getD 0

variable (str : PyJson → PyStr)

/-- `_candidate_parent_id`: the flat link, or else the nested one. -/
def candidateParentId (candidate : Candidate Score) : PyStr :=
  let direct := stripText (strOr str (candidate.payload.get (lit "parent_segment_id")))
  if direct ≠ [] then direct
  else
    let nested := candidate.payload.get (lit "metadata")
    if nested.isDict then stripText (strOr str (nested.get (lit "parent_segment_id"))) else []

/-- `_summary_link`: whether the candidate is a summary, and the id of its original. -/
def summaryLink (candidate : Candidate Score) : Bool × PyStr :=
  let payload := candidate.payload
  let nested := payload.get (lit "metadata")
  if (payload.get (lit "is_summary")).truthy then
    (true, stripText (strOr str (payload.get (lit "original_chunk_id"))))
  else if nested.isDict && (nested.get (lit "is_summary")).truthy then
    (true, stripText (strOr str (nested.get (lit "original_chunk_id"))))
  else (false, [])

end

end AiPlatform.Knowledge
