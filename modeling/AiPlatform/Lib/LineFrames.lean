/-
  AiPlatform.Lib.LineFrames

  Lines of a byte stream, each kept with the bytes that end it: a line feed, a carriage return,
  or the two together.

  A stream that is cut in two has the lines of its first part, the last of them carried over
  to the second, unless the cut separates a carriage return from its line feed.
-/

import Mathlib.Data.List.DropRight
import Mathlib.Data.List.Infix
import Mathlib.Tactic.Common

namespace LineFrames

abbrev Bytes := List UInt8

def feed : UInt8 := 10

def carriageReturn : UInt8 := 13

def isBreak (byte : UInt8) : Bool := byte == feed || byte == carriageReturn

/-- One more byte at the front of the first line. -/
def pushHead (byte : UInt8) : List Bytes → List Bytes
  | [] => [[byte]]
  | line :: lines => (byte :: line) :: lines

/-- The byte ends its line: a line feed, or a carriage return that no line feed follows. -/
def EndsLine (byte : UInt8) (rest : Bytes) : Prop :=
  byte = feed ∨ (byte = carriageReturn ∧ rest.head? ≠ some feed)

instance (byte : UInt8) (rest : Bytes) : Decidable (EndsLine byte rest) := by
  unfold EndsLine
  infer_instance

/-- The lines with their ends; the last one may have none. -/
def splitLines : Bytes → List Bytes
  | [] => []
  | byte :: rest => if EndsLine byte rest then [byte] :: splitLines rest else pushHead byte (splitLines rest)

/-- What is left of a line that has no end. -/
def unfinished (rest : Bytes) : List Bytes := if rest = [] then [] else [rest]

/-- The cut falls between a carriage return and its line feed. -/
def CutsPair (before after : Bytes) : Prop :=
  before.getLast? = some carriageReturn ∧ after.head? = some feed

instance (before after : Bytes) : Decidable (CutsPair before after) := by
  unfold CutsPair
  infer_instance

/-- The line has its end, and no break before. -/
inductive Finished : Bytes → Prop
  | single {body : Bytes} {byte : UInt8} (hbody : ∀ b ∈ body, isBreak b = false) (hbyte : isBreak byte = true) :
      Finished (body ++ [byte])
  | pair {body : Bytes} (hbody : ∀ b ∈ body, isBreak b = false) : Finished (body ++ [carriageReturn, feed])

/-! ## Reading the first line -/

variable {body before after rest : Bytes} {byte : UInt8}

theorem EndsLine.isBreak (h : EndsLine byte rest) : isBreak byte = true := by
  rcases h with rfl | ⟨rfl, -⟩ <;> rfl

theorem splitLines_cons (hbyte : isBreak byte = false) (rest : Bytes) :
    splitLines (byte :: rest) = pushHead byte (splitLines rest) := by
  refine if_neg fun hends => ?_
  rw [hends.isBreak] at hbyte
  cases hbyte

theorem splitLines_feed (rest : Bytes) : splitLines (feed :: rest) = [feed] :: splitLines rest := rfl

theorem splitLines_pair (rest : Bytes) :
    splitLines (carriageReturn :: feed :: rest) = [carriageReturn, feed] :: splitLines rest := rfl

theorem splitLines_ne_nil (byte : UInt8) (rest : Bytes) : splitLines (byte :: rest) ≠ [] := by
  rw [splitLines]
  split
  · exact List.cons_ne_nil _ _
  · cases splitLines rest <;> exact List.cons_ne_nil _ _

/-- A line without its end goes before whatever the stream reads on with. -/
theorem splitLines_append_body (hbody : ∀ b ∈ body, isBreak b = false) {line : Bytes} {lines : List Bytes}
    (hrest : splitLines rest = line :: lines) : splitLines (body ++ rest) = (body ++ line) :: lines := by
  induction body with
  | nil => exact hrest
  | cons b body ih =>
    obtain ⟨hb, hmore⟩ := List.forall_mem_cons.mp hbody
    rw [List.cons_append, splitLines_cons hb, ih hmore]
    rfl

theorem splitLines_body (hbody : ∀ b ∈ body, isBreak b = false) : splitLines body = unfinished body := by
  induction body with
  | nil => rfl
  | cons b body ih =>
    obtain ⟨hb, hmore⟩ := List.forall_mem_cons.mp hbody
    rw [splitLines_cons hb, ih hmore]
    cases body <;> rfl

/-- A line that is not empty begins the first line of what follows it. -/
theorem splitLines_append_ne_nil (hbody : ∀ b ∈ body, isBreak b = false) (hne : body ≠ []) (rest : Bytes) :
    ∃ more lines, splitLines (body ++ rest) = (body ++ more) :: lines := by
  cases rest with
  | nil =>
    refine ⟨[], [], ?_⟩
    rw [List.append_nil, splitLines_body hbody, unfinished, if_neg hne]
  | cons byte rest =>
    obtain ⟨line, lines, hsplit⟩ := List.exists_cons_of_ne_nil (splitLines_ne_nil byte rest)
    exact ⟨line, lines, splitLines_append_body hbody hsplit⟩

/-! ## A stream cut in two -/

theorem CutsPair.of_cons (hne : before ≠ []) (h : CutsPair before after) : CutsPair (byte :: before) after := by
  refine ⟨?_, h.2⟩
  obtain ⟨x, before, rfl⟩ := List.exists_cons_of_ne_nil hne
  rw [List.getLast?_cons_cons]
  exact h.1

/-- What a byte does to its line, it does with the second part before it as well. -/
theorem endsLine_append (hcut : ¬ CutsPair (byte :: before) after) :
    EndsLine byte (before ++ after) ↔ EndsLine byte before := by
  cases before with
  | cons x before => exact Iff.rfl
  | nil =>
    have hhead : byte = carriageReturn → after.head? ≠ some feed := by
      rintro rfl hhead
      exact hcut ⟨rfl, hhead⟩
    exact or_congr_right (and_congr_right fun hreturn => iff_of_true (hhead hreturn) (by simp))

/-- A break that does not end its line is the first byte of a pair. -/
theorem exists_pair (hbyte : isBreak byte = true) (hends : ¬ EndsLine byte rest) :
    byte = carriageReturn ∧ ∃ later, rest = feed :: later := by
  obtain ⟨hfeed, hreturn⟩ := not_or.mp hends
  have heq : byte = carriageReturn := by simpa [isBreak, hfeed] using hbyte
  refine ⟨heq, ?_⟩
  cases rest with
  | nil => exact absurd ⟨heq, by simp⟩ hreturn
  | cons x later => exact ⟨later, by simpa [heq] using hreturn⟩

/-- The lines of the first part, its last line carried over to any second part. -/
theorem splitLines_append (before : Bytes) :
    ∃ lines rest, splitLines before = lines ++ unfinished rest ∧ (∀ line ∈ lines, Finished line) ∧
      (∀ b ∈ rest, isBreak b = false) ∧
      ∀ after, ¬ CutsPair before after → splitLines (before ++ after) = lines ++ splitLines (rest ++ after) := by
  induction before with
  | nil => exact ⟨[], [], rfl, by simp, by simp, fun _ _ => rfl⟩
  | cons byte before ih =>
    obtain ⟨lines, rest, hlines, hall, hrest, happend⟩ := ih
    have hcut' : ∀ {after}, ¬ CutsPair (byte :: before) after → ¬ CutsPair before after := by
      intro after hcut h
      by_cases hne : before = []
      · rw [hne] at h
        cases h.1
      · exact hcut (h.of_cons hne)
    by_cases hends : EndsLine byte before
    · refine ⟨[byte] :: lines, rest, ?_, List.forall_mem_cons.mpr ⟨?_, hall⟩, hrest, fun after hcut => ?_⟩
      · rw [splitLines, if_pos hends, hlines]
        rfl
      · exact @Finished.single [] byte (by simp) hends.isBreak
      · rw [List.cons_append, splitLines, if_pos ((endsLine_append hcut).mpr hends), happend after (hcut' hcut)]
        rfl
    -- the byte goes before the first line of the rest
    have hpush : splitLines (byte :: before) = pushHead byte (lines ++ unfinished rest) := by
      rw [splitLines, if_neg hends, hlines]
    have hpushAppend : ∀ after, ¬ CutsPair (byte :: before) after →
        splitLines (byte :: before ++ after) = pushHead byte (lines ++ splitLines (rest ++ after)) := by
      intro after hcut
      rw [List.cons_append, splitLines, if_neg (mt (endsLine_append hcut).mp hends), happend after (hcut' hcut)]
    cases hbyte : isBreak byte with
    | false =>
      cases lines with
      | nil =>
        refine ⟨[], byte :: rest, ?_, by simp, List.forall_mem_cons.mpr ⟨hbyte, hrest⟩, fun after hcut => ?_⟩
        · rw [hpush]
          cases rest <;> rfl
        · rw [hpushAppend after hcut]
          exact (splitLines_cons hbyte _).symm
      | cons line lines =>
        obtain ⟨hline, hmore⟩ := List.forall_mem_cons.mp hall
        refine ⟨(byte :: line) :: lines, rest, hpush, List.forall_mem_cons.mpr ⟨?_, hmore⟩, hrest, hpushAppend⟩
        cases hline with
        | single hbody hlast =>
          exact @Finished.single (byte :: _) _ (List.forall_mem_cons.mpr ⟨hbyte, hbody⟩) hlast
        | pair hbody => exact @Finished.pair (byte :: _) (List.forall_mem_cons.mpr ⟨hbyte, hbody⟩)
    | true =>
      obtain ⟨rfl, later, rfl⟩ := exists_pair hbyte hends
      rw [splitLines_feed] at hlines
      cases lines with
      | nil =>
        have hfeed : feed ∈ rest := by
          cases rest with
          | nil => cases hlines
          | cons x rest =>
            have hx : [feed] = x :: rest := List.head_eq_of_cons_eq hlines
            rw [← hx]
            exact List.mem_cons_self
        exact absurd (hrest feed hfeed) (by decide)
      | cons line lines =>
        obtain rfl : [feed] = line := List.head_eq_of_cons_eq hlines
        refine ⟨[carriageReturn, feed] :: lines, rest, hpush, ?_, hrest, hpushAppend⟩
        exact List.forall_mem_cons.mpr ⟨@Finished.pair [] (by simp), (List.forall_mem_cons.mp hall).2⟩

theorem CutsPair.exists_feed (h : CutsPair before after) : ∃ later, after = feed :: later := by
  cases after with
  | nil => cases h.2
  | cons x later => exact ⟨later, by rw [Option.some.inj h.2]⟩

/-- The carriage return that is read last ends a line, and ends the same line with the line feed
that may follow. -/
theorem splitLines_append_pair (hlast : before.getLast? = some carriageReturn) :
    ∃ lines body, (∀ line ∈ lines, Finished line) ∧ (∀ b ∈ body, isBreak b = false) ∧
      splitLines before = lines ++ [body ++ [carriageReturn]] ∧
      ∀ later, splitLines (before ++ feed :: later) = lines ++ (body ++ [carriageReturn, feed]) :: splitLines later := by
  obtain ⟨front, rfl⟩ : ∃ front, before = front ++ [carriageReturn] := List.getLast?_eq_some_iff.mp hlast
  obtain ⟨lines, body, -, hall, hbody, happend⟩ := splitLines_append front
  have hmeet : ∀ after, ¬ CutsPair front (carriageReturn :: after) :=
    fun after h => absurd (Option.some.inj h.2) (by decide)
  refine ⟨lines, body, hall, hbody, ?_, fun later => ?_⟩
  · rw [happend _ (hmeet []), splitLines_append_body hbody (rfl : splitLines [carriageReturn] = [[carriageReturn]])]
    rfl
  · rw [List.append_assoc, List.singleton_append, happend _ (hmeet (feed :: later)),
      splitLines_append_body hbody (splitLines_pair later)]

end LineFrames
