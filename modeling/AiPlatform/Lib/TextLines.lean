/-
  AiPlatform.Lib.TextLines

  Lines of a text, as lists of characters: taken apart at line breaks, stripped of blanks at
  both ends, and put together again.

  The test for a blank and for a line break are parameters; a carriage return and a line
  feed together are one break.
-/

import Mathlib.Data.List.TakeWhile
import Mathlib.Tactic.Common

namespace TextLines

abbrev Line := List Char

/-- One more character at the front of the first line. -/
def pushHead (c : Char) : List Line → List Line
  | [] => [[c]]
  | line :: lines => (c :: line) :: lines

/-- The lines of a text; a break at the end begins no line of its own. -/
def splitLines (isBreak : Char → Bool) : List Char → List Line
  | [] => []
  | '\r' :: '\n' :: rest => [] :: splitLines isBreak rest
  | c :: rest => if isBreak c then [] :: splitLines isBreak rest else pushHead c (splitLines isBreak rest)

/-- A line without the blanks at its ends. -/
def strip (isBlank : Char → Bool) (line : Line) : Line :=
  ((line.dropWhile isBlank).reverse.dropWhile isBlank).reverse

/-- The lines with a line feed between them. -/
def joinLines (lines : List Line) : List Char := ['\n'].intercalate lines

variable {isBreak isBlank : Char → Bool}

theorem splitLines_cons {c : Char} {rest : List Char} (hc : isBreak c = false) (hreturn : isBreak '\r' = true) :
    splitLines isBreak (c :: rest) = pushHead c (splitLines isBreak rest) := by
  rw [splitLines, hc]
  · rfl
  · rintro rest' rfl
    rw [hreturn] at hc
    cases hc

/-- No line holds a break. -/
theorem not_isBreak_of_mem {text : List Char} {line : Line}
    (hline : line ∈ splitLines isBreak text) : ∀ c ∈ line, isBreak c = false := by
  fun_induction splitLines isBreak text generalizing line with
  | case1 => cases hline
  | case2 rest ih =>
    rcases List.mem_cons.mp hline with rfl | hmem
    · simp
    · exact ih hmem
  | case3 c rest _ hc ih =>
    rcases List.mem_cons.mp hline with rfl | hmem
    · simp
    · exact ih hmem
  | case4 c rest _ hc ih =>
    have hc : isBreak c = false := Bool.eq_false_iff.mpr hc
    cases hsplit : splitLines isBreak rest with
    | nil =>
      rw [hsplit] at hline
      obtain rfl := List.mem_singleton.mp hline
      simpa using hc
    | cons first lines =>
      rw [hsplit] at hline ih
      rcases List.mem_cons.mp hline with rfl | hmem
      · exact List.forall_mem_cons.mpr ⟨hc, ih List.mem_cons_self⟩
      · exact ih (List.mem_cons_of_mem _ hmem)

/-- A text that begins with a line without breaks. -/
theorem splitLines_append (hreturn : isBreak '\r' = true) {line : Line} (hne : line ≠ [])
    (hline : ∀ c ∈ line, isBreak c = false) (hfeed : isBreak '\n' = true) (rest : List Char) :
    splitLines isBreak line = [line] ∧
      splitLines isBreak (line ++ '\n' :: rest) = line :: splitLines isBreak rest := by
  induction line with
  | nil => exact absurd rfl hne
  | cons c line ih =>
    obtain ⟨hc, hrest⟩ := List.forall_mem_cons.mp hline
    rw [List.cons_append, splitLines_cons hc hreturn, splitLines_cons hc hreturn]
    cases line with
    | nil =>
      refine ⟨rfl, ?_⟩
      rw [List.nil_append, splitLines, hfeed]
      · rfl
      · intro rest' heq
        simp at heq
    | cons next line =>
      obtain ⟨hsingle, hmore⟩ := ih (List.cons_ne_nil _ _) hrest
      rw [hsingle, hmore]
      exact ⟨rfl, rfl⟩

/-- Lines that hold no break and are not empty come back from the text they are joined to. -/
theorem splitLines_joinLines (hreturn : isBreak '\r' = true) (hfeed : isBreak '\n' = true) {lines : List Line}
    (h : ∀ line ∈ lines, line ≠ [] ∧ ∀ c ∈ line, isBreak c = false) :
    splitLines isBreak (joinLines lines) = lines := by
  induction lines with
  | nil => rfl
  | cons line lines ih =>
    obtain ⟨⟨hne, hline⟩, hlines⟩ := List.forall_mem_cons.mp h
    cases lines with
    | nil =>
      rw [joinLines, List.intercalate_singleton]
      exact (splitLines_append hreturn hne hline hfeed []).1
    | cons second lines =>
      rw [joinLines, List.intercalate_cons_cons, List.append_assoc, List.singleton_append]
      rw [(splitLines_append hreturn hne hline hfeed _).2]
      exact congrArg _ (ih hlines)

theorem strip_sublist (line : Line) : (strip isBlank line).Sublist line := by
  unfold strip
  have hinner := (List.dropWhile_sublist isBlank (l := (line.dropWhile isBlank).reverse)).reverse
  rw [List.reverse_reverse] at hinner
  exact hinner.trans (List.dropWhile_sublist isBlank)

theorem head_dropWhile (line : Line) : ∀ c ∈ (line.dropWhile isBlank).head?, isBlank c = false := by
  intro c hc
  induction line with
  | nil => cases hc
  | cons first line ih =>
    rw [List.dropWhile_cons] at hc
    split at hc
    · exact ih hc
    · case isFalse hfirst =>
      obtain rfl := Option.some.inj hc
      exact Bool.eq_false_iff.mpr hfirst

theorem dropWhile_eq_self {line : Line} (h : ∀ c ∈ line.head?, isBlank c = false) :
    line.dropWhile isBlank = line := by
  cases line with
  | nil => rfl
  | cons first line =>
    have hfirst := h first rfl
    rw [List.dropWhile_cons_of_neg (by simp [hfirst])]

/-- A line that was stripped has nothing more to strip. -/
theorem strip_strip (line : Line) : strip isBlank (strip isBlank line) = strip isBlank line := by
  have hlast : (strip isBlank line).reverse.dropWhile isBlank = (strip isBlank line).reverse := by
    rw [strip, List.reverse_reverse]
    exact dropWhile_eq_self (head_dropWhile _)
  have hfirst : (strip isBlank line).dropWhile isBlank = strip isBlank line := by
    refine dropWhile_eq_self fun c hc => head_dropWhile line c ?_
    -- what is left begins as the line did after its first blanks
    have hprefix : strip isBlank line <+: line.dropWhile isBlank := by
      rw [← List.reverse_suffix, strip, List.reverse_reverse]
      exact List.dropWhile_suffix isBlank
    obtain ⟨rest, hrest⟩ := hprefix
    rw [← hrest]
    cases hstrip : strip isBlank line with
    | nil =>
      rw [hstrip] at hc
      cases hc
    | cons first line =>
      rw [hstrip] at hc
      exact hc
  conv_lhs => rw [strip]
  rw [hfirst, hlast, List.reverse_reverse]

end TextLines
