/-
  AiPlatform.Knowledge.SplitText

  What the splitters of `chunking.py` share: texts as lists of characters, and the
  limit on the number of chunks.
-/

import AiPlatform.Gateway.PythonText
import AiPlatform.Lib.Reading
import AiPlatform.Lib.TextLines
import Mathlib.Tactic.Common
import Mathlib.Algebra.GroupWithZero.Nat

namespace AiPlatform.Knowledge

abbrev Text := List Char

/-- `str.strip` -/
def strippedText (text : Text) : Text := TextLines.strip Gateway.isSpace text

abbrev IsGap (text : Text) : Prop := Reading.IsGap Gateway.isSpace text

/-- A text is its stripped text with a gap at each end. -/
theorem exists_gaps (text : Text) :
    ∃ first last, IsGap first ∧ IsGap last ∧ text = first ++ (strippedText text ++ last) := by
  refine ⟨text.takeWhile Gateway.isSpace,
    ((text.dropWhile Gateway.isSpace).reverse.takeWhile Gateway.isSpace).reverse, ?_, ?_, ?_⟩
  · exact fun c hc => List.mem_takeWhile_imp hc
  · exact fun c hc => List.mem_takeWhile_imp (List.mem_reverse.mp hc)
  · have hlast : strippedText text ++
        ((text.dropWhile Gateway.isSpace).reverse.takeWhile Gateway.isSpace).reverse =
        text.dropWhile Gateway.isSpace := by
      rw [strippedText, TextLines.strip, ← List.reverse_append, List.takeWhile_append_dropWhile,
        List.reverse_reverse]
    rw [hlast, List.takeWhile_append_dropWhile]

theorem strippedText_eq_nil {text : Text} (h : IsGap text) : strippedText text = [] := by
  have hdrop : text.dropWhile Gateway.isSpace = [] := List.dropWhile_eq_nil_iff.mpr h
  rw [strippedText, TextLines.strip, hdrop]
  rfl

theorem isGap_of_strippedText {text : Text} (h : strippedText text = []) : IsGap text := by
  obtain ⟨first, last, hfirst, hlast, heq⟩ := exists_gaps text
  rw [h, List.nil_append] at heq
  rw [heq]
  exact hfirst.append hlast

def maxChunkOutputs : Nat := 10000

/-- The text of the `ValidationFailedError` of every limit on the output. -/
def outputLimitMessage : String := "chunking output exceeds the 10000 chunk limit"

/-- `_append_bounded_output` -/
def appendBounded {α : Type} (output : List α) (item : α) : Except String (List α) :=
  if maxChunkOutputs ≤ output.length then .error outputLimitMessage else .ok (output ++ [item])

theorem appendBounded_eq {α : Type} {output output' : List α} {item : α}
    (h : appendBounded output item = .ok output') : output' = output ++ [item] := by
  unfold appendBounded at h
  split at h
  · cases h
  · exact (Except.ok.inj h).symm

def utf8Length (text : Text) : Nat := (text.map Char.utf8Size).sum

/-- `_require_token_window_input_budget` -/
def requireTokenWindowInputBudget (text : Text) (tokenLimit : Nat) (overlapTokens : Int) :
    Except String Unit :=
  let overlap := (min (max overlapTokens 0) (max ((tokenLimit : Int) - 1) 0)).toNat
  let maxInputUnits := max (tokenLimit - overlap) 1 * maxChunkOutputs
  if maxInputUnits < text.length then .error outputLimitMessage
  else if maxInputUnits < utf8Length text then .error outputLimitMessage
  else .ok ()

def maxWholeEncoderInputBytes : Nat := 4 * 1024 * 1024

/-- `_require_whole_encoder_input_budget` -/
def requireWholeEncoderInputBudget (text : Text) : Except String Unit :=
  if maxWholeEncoderInputBytes < text.length ∨ maxWholeEncoderInputBytes < utf8Length text then
    .error "text exceeds the safe whole-tokenizer materialization limit"
  else .ok ()

/-- The matches of `\S+`. -/
def wordsOf (text : Text) : List Text := Reading.words Gateway.isSpace text

/-- A half-open range of positions. -/
structure Window where
  start : Nat
  stop : Nat
  deriving DecidableEq, Repr

/-- The elements in the window. -/
def Window.of {α : Type} (window : Window) (elements : List α) : List α :=
  (elements.take window.stop).drop window.start

/-- `text.rfind(pattern)` of a pattern that is not empty. -/
def rfind (pattern text : Text) : Option Nat :=
  (List.range text.length).reverse.find? fun pos => pattern.isPrefixOf (text.drop pos)

theorem rfind_add_length_le {pattern text : Text} {pos : Nat} (h : rfind pattern text = some pos) :
    pos + pattern.length ≤ text.length := by
  have hmem := List.mem_of_find?_eq_some h
  rw [List.mem_reverse, List.mem_range] at hmem
  have hfound := List.find?_some h
  have hlength := (List.isPrefixOf_iff_prefix.mp hfound).length_le
  rw [List.length_drop] at hlength
  omega

end AiPlatform.Knowledge
