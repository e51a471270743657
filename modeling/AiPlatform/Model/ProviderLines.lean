/-
  AiPlatform.Model.ProviderLines

  The lines of a provider's reply, decoded as the transport hands its chunks over.

  Each chunk is read in slices, and what a slice leaves of a line without its end waits for the
  next one. A slice that ends with a carriage return ends a line; if the next slice begins with
  the line feed of the pair, an empty line follows that the stream as a whole does not have.
-/

import AiPlatform.Lib.LineFrames
import AiPlatform.Model.Authorization

namespace ProviderLines

open LineFrames ModelPlane

/-! ## The decoder -/

def maxProviderLineBytes : Nat := 2 * 1024 * 1024

def sliceBytes : Nat := 64 * 1024

def frameLimit : AgentModelPlaneError := ⟨"RUNTIME_PROVIDER_FRAME_LIMIT", 502⟩

def streamInvalid : AgentModelPlaneError := ⟨"RUNTIME_PROVIDER_STREAM_INVALID", 502⟩

def streamIncomplete : AgentModelPlaneError := ⟨"RUNTIME_PROVIDER_STREAM_INCOMPLETE", 502⟩

def decodeUtf8 (bytes : Bytes) : Option String := String.fromUTF8? ⟨bytes.toArray⟩

/-- The lines that were yielded, and what is pending or the error that was raised. -/
abbrev Outcome := List String × Except AgentModelPlaneError Bytes

def Outcome.andThen (first : Outcome) (next : Bytes → Outcome) : Outcome :=
  match first.2 with
  | .error error => (first.1, .error error)
  | .ok pending => (first.1 ++ (next pending).1, (next pending).2)

theorem Outcome.andThen_ok (texts : List String) (pending : Bytes) (next : Bytes → Outcome) :
    Outcome.andThen (texts, .ok pending) next = (texts ++ (next pending).1, (next pending).2) := rfl

theorem Outcome.andThen_error (texts : List String) (error : AgentModelPlaneError) (next : Bytes → Outcome) :
    Outcome.andThen (texts, .error error) next = (texts, .error error) := rfl

def endsWithBreak (line : Bytes) : Bool := line.getLast?.any isBreak

def handleLine (line pending : Bytes) : Outcome :=
  if maxProviderLineBytes < line.length then ([], .error frameLimit)
  else if endsWithBreak line then
    match decodeUtf8 (line.rdropWhile isBreak) with
    | some text => ([text], .ok pending)
    | none => ([], .error streamInvalid)
  else ([], .ok (pending ++ line))

def handleLines : List Bytes → Bytes → Outcome
  | [], pending => ([], .ok pending)
  | line :: lines, pending => (handleLine line pending).andThen (handleLines lines)

def feedSlice (pending slice : Bytes) : Outcome := handleLines (splitLines (pending ++ slice)) []

def feedSlices : List Bytes → Bytes → Outcome
  | [], pending => ([], .ok pending)
  | slice :: slices, pending => (feedSlice pending slice).andThen (feedSlices slices)

/-- The slices of one chunk. -/
def slicesOf (chunk : Bytes) : List Bytes :=
  (List.range ((chunk.length + (sliceBytes - 1)) / sliceBytes)).map fun i =>
    (chunk.drop (i * sliceBytes)).take sliceBytes

/-- How the iteration ends: what is still pending is an incomplete line. -/
def finish (outcome : Outcome) : List String × Option AgentModelPlaneError :=
  match outcome.2 with
  | .error error => (outcome.1, some error)
  | .ok pending => (outcome.1, if pending = [] then none else some streamIncomplete)

def providerLines (chunks : List Bytes) : List String × Option AgentModelPlaneError :=
  finish (feedSlices (chunks.flatMap slicesOf) [])

/-- The same lines and the same end, read from the whole stream. -/
def streamLines (stream : Bytes) : List String × Option AgentModelPlaneError :=
  finish (feedSlice [] stream)

/-! ## One line -/

/-- The decoder does not get past the line: it is over the limit or not UTF-8. -/
def Rejected (line : Bytes) : Prop :=
  maxProviderLineBytes < line.length ∨ decodeUtf8 (line.rdropWhile isBreak) = none

variable {body line pending : Bytes} {lines : List Bytes}

theorem rdropWhile_finished (hbody : ∀ b ∈ body, isBreak b = false) {ending : Bytes}
    (hending : ∀ b ∈ ending, isBreak b = true) : (body ++ ending).rdropWhile isBreak = body := by
  induction ending using List.reverseRecOn with
  | nil =>
    rw [List.append_nil]
    refine List.rdropWhile_eq_self_iff.mpr fun hne => ?_
    rw [hbody _ (List.getLast_mem hne)]
    exact Bool.false_ne_true
  | append_singleton ending b ih =>
    rw [← List.append_assoc, List.rdropWhile_concat_pos _ _ _ (hending b (by simp))]
    exact ih fun x hx => hending x (List.mem_append_left _ hx)

theorem endsWithBreak_finished (h : Finished line) : endsWithBreak line = true := by
  cases h with
  | single hbody hbyte => simpa [endsWithBreak] using hbyte
  | @pair body hbody =>
    have hlast : (body ++ [carriageReturn, feed]).getLast? = some feed := by simp
    rw [endsWithBreak, hlast]
    rfl

/-- A finished line is yielded, or it is the error that ends the iteration. -/
theorem handleLine_finished (h : Finished line) :
    (¬ Rejected line ∧ ∃ text, ∀ pending, handleLine line pending = ([text], .ok pending)) ∨
      (Rejected line ∧ ∃ error, ∀ pending, handleLine line pending = ([], .error error)) := by
  unfold handleLine Rejected
  rw [endsWithBreak_finished h]
  by_cases hlong : maxProviderLineBytes < line.length
  · exact .inr ⟨.inl hlong, frameLimit, fun _ => if_pos hlong⟩
  · cases hdecode : decodeUtf8 (line.rdropWhile isBreak) with
    | some text => exact .inl ⟨by simpa using hlong, text, fun _ => by rw [if_neg hlong]; rfl⟩
    | none => exact .inr ⟨.inr rfl, streamInvalid, fun _ => by rw [if_neg hlong]; rfl⟩

theorem handleLine_long (h : maxProviderLineBytes < line.length) (pending : Bytes) :
    handleLine line pending = ([], .error frameLimit) := if_pos h

theorem handleLines_finished (h : ∀ line ∈ lines, Finished line) :
    ((∀ line ∈ lines, ¬ Rejected line) ∧ ∃ texts, ∀ pending, handleLines lines pending = (texts, .ok pending)) ∨
      ((∃ line ∈ lines, Rejected line) ∧ ∃ texts error, ∀ pending, handleLines lines pending = (texts, .error error)) := by
  induction lines with
  | nil => exact .inl ⟨by simp, [], fun _ => rfl⟩
  | cons line lines ih =>
    obtain ⟨hline, hmore⟩ := List.forall_mem_cons.mp h
    rcases handleLine_finished hline with ⟨hfine, text, htext⟩ | ⟨hbad, error, herror⟩
    · rcases ih hmore with ⟨hall, texts, htexts⟩ | ⟨⟨bad, hmem, hbad⟩, texts, error, herror⟩
      · refine .inl ⟨List.forall_mem_cons.mpr ⟨hfine, hall⟩, text :: texts, fun pending => ?_⟩
        rw [handleLines, htext, Outcome.andThen_ok, htexts]
        rfl
      · refine .inr ⟨⟨bad, List.mem_cons_of_mem _ hmem, hbad⟩, text :: texts, error, fun pending => ?_⟩
        rw [handleLines, htext, Outcome.andThen_ok, herror]
        rfl
    · refine .inr ⟨⟨line, List.mem_cons_self, hbad⟩, [], error, fun pending => ?_⟩
      rw [handleLines, herror]
      rfl

theorem handleLines_append (lines more : List Bytes) (pending : Bytes) :
    handleLines (lines ++ more) pending = (handleLines lines pending).andThen (handleLines more) := by
  induction lines generalizing pending with
  | nil => rfl
  | cons line lines ih =>
    rw [List.cons_append, handleLines, handleLines]
    cases hone : handleLine line pending with
    | mk texts ended =>
      cases ended with
      | error error => rfl
      | ok pending =>
        simp only [Outcome.andThen, ih]
        cases handleLines lines pending with
        | mk texts' ended =>
          cases ended with
          | error error => rfl
          | ok pending => simp only [List.append_assoc]

/-- What is left of a line waits, unless it is over the limit already. -/
theorem handleLines_unfinished (hbody : ∀ b ∈ body, isBreak b = false) :
    handleLines (unfinished body) [] =
      if maxProviderLineBytes < body.length then ([], .error frameLimit) else ([], .ok body) := by
  by_cases hnil : body = []
  · subst hnil
    rfl
  · have hend : endsWithBreak body = false := by
      rw [endsWithBreak, List.getLast?_eq_some_getLast hnil]
      exact hbody _ (List.getLast_mem hnil)
    rw [unfinished, if_neg hnil, handleLines, handleLine, hend]
    split <;> rfl

/-! ## Two slices -/

/-- Without a pair on the cut, reading on gives what the two parts give together. -/
theorem feedSlice_append {before after : Bytes} (hcut : ¬ CutsPair before after) :
    feedSlice [] (before ++ after) = (feedSlice [] before).andThen fun pending => feedSlice pending after := by
  obtain ⟨lines, rest, hlines, hall, hrest, happend⟩ := splitLines_append before
  simp only [feedSlice, List.nil_append]
  rw [happend after hcut, hlines, handleLines_append, handleLines_append]
  rcases handleLines_finished hall with ⟨-, texts, htexts⟩ | ⟨-, texts, error, herror⟩
  · rw [htexts, Outcome.andThen_ok, Outcome.andThen_ok, handleLines_unfinished hrest]
    split
    · case isTrue hlong =>
      -- the line that the rest begins is longer still
      have hne : rest ≠ [] := by
        rintro rfl
        cases hlong
      obtain ⟨more, lines, hfirst⟩ := splitLines_append_ne_nil hrest hne after
      have hlonger : maxProviderLineBytes < (rest ++ more).length := by
        rw [List.length_append]
        omega
      rw [hfirst, handleLines, handleLine_long hlonger]
      rfl
    · rw [List.append_nil, Outcome.andThen_ok]
  · rw [herror]
    rfl

/-- A finished line is judged by what stands before its end. -/
theorem handleLine_append (hbody : ∀ b ∈ body, isBreak b = false) {ending : Bytes} (hne : ending ≠ [])
    (hending : ∀ b ∈ ending, isBreak b = true) (pending : Bytes) :
    handleLine (body ++ ending) pending =
      if maxProviderLineBytes < (body ++ ending).length then ([], .error frameLimit)
      else
        match decodeUtf8 body with
        | some text => ([text], .ok pending)
        | none => ([], .error streamInvalid) := by
  have hend : endsWithBreak (body ++ ending) = true := by
    rw [endsWithBreak, List.getLast?_append, List.getLast?_eq_some_getLast hne]
    exact hending _ (List.getLast_mem hne)
  rw [handleLine, hend, rdropWhile_finished hbody hending]
  rfl

/-- The line of a pair, with the carriage return only and with both bytes. -/
inductive PairVerdict (body : Bytes) : Prop
  | yielded (text : String) (hfine : ¬ Rejected (body ++ [carriageReturn]))
      (hreturn : ∀ pending, handleLine (body ++ [carriageReturn]) pending = ([text], .ok pending))
      (hpair : (∀ pending, handleLine (body ++ [carriageReturn, feed]) pending = ([text], .ok pending)) ∨
        ∀ pending, handleLine (body ++ [carriageReturn, feed]) pending = ([], .error frameLimit))
  | refused (error : AgentModelPlaneError) (hbad : Rejected (body ++ [carriageReturn]))
      (hlength : (body ++ [carriageReturn]).length ≠ maxProviderLineBytes)
      (hpairBad : Rejected (body ++ [carriageReturn, feed]))
      (hreturn : ∀ pending, handleLine (body ++ [carriageReturn]) pending = ([], .error error))
      (hpair : ∀ pending, handleLine (body ++ [carriageReturn, feed]) pending = ([], .error error))
  /-- One byte short of the limit: which of the two errors it is depends on the line feed. -/
  | divided (hlength : (body ++ [carriageReturn]).length = maxProviderLineBytes)
      (hreturn : ∀ pending, handleLine (body ++ [carriageReturn]) pending = ([], .error streamInvalid))
      (hpair : ∀ pending, handleLine (body ++ [carriageReturn, feed]) pending = ([], .error frameLimit))

theorem pairVerdict (hbody : ∀ b ∈ body, isBreak b = false) : PairVerdict body := by
  have hbreak : ∀ b ∈ [carriageReturn], isBreak b = true := List.forall_mem_singleton.mpr rfl
  have hbreaks : ∀ b ∈ [carriageReturn, feed], isBreak b = true :=
    List.forall_mem_cons.mpr ⟨rfl, List.forall_mem_singleton.mpr rfl⟩
  have hreturn := @handleLine_append body hbody [carriageReturn] (by simp) hbreak
  have hpair := @handleLine_append body hbody [carriageReturn, feed] (by simp) hbreaks
  have hstrip : (body ++ [carriageReturn]).rdropWhile isBreak = body := rdropWhile_finished hbody hbreak
  have hstripPair : (body ++ [carriageReturn, feed]).rdropWhile isBreak = body := rdropWhile_finished hbody hbreaks
  have hlengths : (body ++ [carriageReturn, feed]).length = (body ++ [carriageReturn]).length + 1 := by simp
  by_cases hlong : maxProviderLineBytes < (body ++ [carriageReturn]).length
  · have hlonger : maxProviderLineBytes < (body ++ [carriageReturn, feed]).length := by omega
    exact .refused frameLimit (.inl hlong) (by omega) (.inl hlonger) (handleLine_long hlong) (handleLine_long hlonger)
  · cases hdecode : decodeUtf8 body with
    | some text =>
      refine .yielded text ?_ (fun pending => by rw [hreturn, if_neg hlong, hdecode]) ?_
      · rw [Rejected, hstrip, hdecode]
        simpa using hlong
      · by_cases hlonger : maxProviderLineBytes < (body ++ [carriageReturn, feed]).length
        · exact .inr (handleLine_long hlonger)
        · exact .inl fun pending => by rw [hpair, if_neg hlonger, hdecode]
    | none =>
      have hinvalid : ∀ pending, handleLine (body ++ [carriageReturn]) pending = ([], .error streamInvalid) :=
        fun pending => by rw [hreturn, if_neg hlong, hdecode]
      by_cases hlonger : maxProviderLineBytes < (body ++ [carriageReturn, feed]).length
      · exact .divided (by omega) hinvalid (handleLine_long hlonger)
      · refine .refused streamInvalid (.inr ?_) (by omega) (.inr ?_) hinvalid ?_
        · rw [hstrip, hdecode]
        · rw [hstripPair, hdecode]
        exact fun pending => by rw [hpair, if_neg hlonger, hdecode]

/-- A line feed that the pair was cut before is a line of its own. -/
theorem feedSlices_feed {slices : List Bytes} {later : Bytes} (h : slices.flatten = feed :: later) :
    ∃ slices', slices'.length ≤ slices.length ∧ slices'.flatten = later ∧
      feedSlices slices [] = ("" :: (feedSlices slices' []).1, (feedSlices slices' []).2) := by
  induction slices with
  | nil => cases h
  | cons slice slices ih =>
    cases slice with
    | nil =>
      obtain ⟨slices', hlength, hflatten, hfeed⟩ := ih h
      refine ⟨slices', Nat.le_succ_of_le hlength, hflatten, ?_⟩
      rw [feedSlices]
      exact hfeed
    | cons byte slice =>
      rw [List.flatten_cons, List.cons_append, List.cons.injEq] at h
      obtain ⟨rfl, rfl⟩ := h
      refine ⟨slice :: slices, le_rfl, rfl, ?_⟩
      have hempty : ∀ pending, handleLine [feed] pending = ([""], .ok pending) := fun _ => rfl
      rw [feedSlices, feedSlices, feedSlice, feedSlice, List.nil_append, List.nil_append, splitLines_feed, handleLines,
        hempty, Outcome.andThen_ok]
      cases handleLines (splitLines slice) [] with
      | mk texts ended => cases ended <;> rfl

/-- What a pair on the cut does to the two readings. -/
theorem feedSlice_pair {before : Bytes} (hlast : before.getLast? = some carriageReturn) :
    ∃ lines body, (∀ line ∈ lines, Finished line) ∧ (∀ b ∈ body, isBreak b = false) ∧
      splitLines before = lines ++ [body ++ [carriageReturn]] ∧
      (∀ later, splitLines (before ++ feed :: later) =
        lines ++ (body ++ [carriageReturn, feed]) :: splitLines later) ∧
      feedSlice [] before = (handleLines lines []).andThen (handleLine (body ++ [carriageReturn])) ∧
      ∀ later, feedSlice [] (before ++ feed :: later) = (handleLines lines []).andThen fun pending =>
        (handleLine (body ++ [carriageReturn, feed]) pending).andThen (handleLines (splitLines later)) := by
  obtain ⟨lines, body, hall, hbody, hbefore, hwhole⟩ := splitLines_append_pair hlast
  refine ⟨lines, body, hall, hbody, hbefore, hwhole, ?_, fun later => ?_⟩
  · rw [feedSlice, List.nil_append, hbefore, handleLines_append]
    congr 1
    funext pending
    rw [handleLines]
    cases handleLine (body ++ [carriageReturn]) pending with
    | mk texts ended => cases ended <;> simp [Outcome.andThen, handleLines]
  · rw [feedSlice, List.nil_append, hwhole, handleLines_append]
    rfl

/-- What can be pending: a line without its end, within the limit. -/
structure Pending (bytes : Bytes) : Prop where
  open_ : ∀ b ∈ bytes, isBreak b = false
  bounded : bytes.length ≤ maxProviderLineBytes

theorem pending_nil : Pending [] := ⟨by simp, Nat.zero_le _⟩

theorem feedSlice_pending {slice : Bytes} {texts : List String} (h : feedSlice [] slice = (texts, .ok pending)) :
    Pending pending := by
  obtain ⟨lines, rest, hlines, hall, hrest, -⟩ := splitLines_append slice
  rw [feedSlice, List.nil_append, hlines, handleLines_append] at h
  rcases handleLines_finished hall with ⟨-, texts, htexts⟩ | ⟨-, texts, error, herror⟩
  · rw [htexts, Outcome.andThen_ok, handleLines_unfinished hrest] at h
    split at h
    · cases h
    · case isFalse hshort =>
      obtain ⟨-, rfl⟩ : _ ∧ rest = pending := by simpa using h
      exact ⟨hrest, not_lt.mp hshort⟩
  · rw [herror] at h
    cases h

theorem feedSlice_of_pending (h : Pending pending) : feedSlice [] pending = ([], .ok pending) := by
  rw [feedSlice, List.nil_append, splitLines_body h.open_, handleLines_unfinished h.open_, if_neg (not_lt.mpr h.bounded)]

/-- The slices yield at least the lines of the whole. -/
theorem length_feedSlices (slices : List Bytes) (hpending : Pending pending) :
    (feedSlice [] (pending ++ slices.flatten)).1.length ≤ (feedSlices slices pending).1.length := by
  induction hlength : slices.length using Nat.strong_induction_on generalizing slices pending with
  | _ n ih =>
    subst hlength
    cases slices with
    | nil =>
      rw [List.flatten_nil, List.append_nil, feedSlice_of_pending hpending]
      exact le_rfl
    | cons slice slices =>
      rw [List.flatten_cons, ← List.append_assoc, feedSlices]
      have hslice : feedSlice pending slice = feedSlice [] (pending ++ slice) := rfl
      rw [hslice]
      by_cases hcut : CutsPair (pending ++ slice) slices.flatten
      · obtain ⟨later, hafter⟩ := hcut.exists_feed
        obtain ⟨lines, body, hall, hbody, -, -, hbefore, hwhole⟩ := feedSlice_pair hcut.1
        rw [hafter, hbefore, hwhole]
        rcases handleLines_finished hall with ⟨-, texts, htexts⟩ | ⟨-, texts, error, herror⟩
        · rw [htexts]
          simp only [Outcome.andThen_ok]
          cases pairVerdict hbody with
          | yielded text _ hreturn hpair =>
            obtain ⟨slices', hshorter, rfl, hfeed⟩ := feedSlices_feed hafter
            have hrest := ih slices'.length (Nat.lt_succ_of_le hshorter) slices' pending_nil rfl
            rw [hreturn, Outcome.andThen_ok, hfeed]
            rcases hpair with hpair | hpair
            · rw [hpair, Outcome.andThen_ok]
              simp only [List.length_append, List.length_cons, List.length_nil]
              have hwhole : handleLines (splitLines slices'.flatten) [] = feedSlice [] ([] ++ slices'.flatten) := rfl
              rw [hwhole]
              omega
            · rw [hpair, Outcome.andThen_error]
              simp only [List.length_append, List.length_nil]
              omega
          | refused error _ _ _ hreturn hpair =>
            rw [hreturn, hpair]
            exact le_rfl
          | divided _ hreturn hpair =>
            rw [hreturn, hpair]
            exact le_rfl
        · rw [herror]
          exact le_rfl
      · rw [feedSlice_append hcut]
        cases hbefore : feedSlice [] (pending ++ slice) with
        | mk texts ended =>
          cases ended with
          | error error => exact le_rfl
          | ok pending =>
            simp only [Outcome.andThen_ok, List.length_append]
            exact Nat.add_le_add_left (ih slices.length (by simp) slices (feedSlice_pending hbefore) rfl) _

/-! ## The pairs that are cut -/

/-- The decoder stops by the last of these lines, with the error that it has for the line when
the line feed is added: an earlier line is rejected, or the last one is and the limit does not
lie between its two ends. -/
def SparedLines (lines : List Bytes) : Prop :=
  (∃ line ∈ lines.dropLast, Rejected line) ∨
    ∃ line ∈ lines.getLast?, Rejected line ∧ line.length ≠ maxProviderLineBytes

/-- Where a pair is cut between the slices, the decoder has stopped. -/
def CutsNoPair (pending : Bytes) (slices : List Bytes) : Prop :=
  ∀ done next, slices = done ++ next → CutsPair (pending ++ done.flatten) next.flatten →
    SparedLines (splitLines (pending ++ done.flatten))

theorem sparedLines_of_rejected {more : List Bytes} (hmore : more ≠ []) (h : ∃ line ∈ lines, Rejected line) :
    SparedLines (lines ++ more) := by
  obtain ⟨line, hmem, hbad⟩ := h
  refine .inl ⟨line, ?_, hbad⟩
  rw [List.dropLast_append_of_ne_nil hmore]
  exact List.mem_append_left _ hmem

theorem sparedLines_append {more : List Bytes} (hmore : more ≠ []) (h : ∀ line ∈ lines, ¬ Rejected line) :
    SparedLines (lines ++ more) ↔ SparedLines more := by
  unfold SparedLines
  rw [List.dropLast_append_of_ne_nil hmore, List.getLast?_append_of_ne_nil _ hmore]
  refine or_congr_left ⟨?_, ?_⟩
  · rintro ⟨line, hmem, hbad⟩
    rcases List.mem_append.mp hmem with hmem | hmem
    · exact absurd hbad (h line hmem)
    · exact ⟨line, hmem, hbad⟩
  · rintro ⟨line, hmem, hbad⟩
    exact ⟨line, List.mem_append_right _ hmem, hbad⟩

theorem sparedLines_of_long (hmem : line ∈ lines) (hlong : maxProviderLineBytes < line.length) : SparedLines lines := by
  have hne : lines ≠ [] := List.ne_nil_of_mem hmem
  rw [← List.dropLast_append_getLast hne] at hmem
  rcases List.mem_append.mp hmem with hmem | hmem
  · exact .inl ⟨line, hmem, .inl hlong⟩
  · refine .inr ⟨line, ?_, .inl hlong, hlong.ne'⟩
    rw [List.mem_singleton.mp hmem]
    exact List.getLast_mem_getLast? hne

/-! ## Slices and the whole stream -/

theorem finish_fst (outcome : Outcome) : (finish outcome).1 = outcome.1 := by
  unfold finish
  split <;> rfl

theorem finish_ok (texts : List String) (outcome : Outcome) :
    finish (texts ++ outcome.1, outcome.2) = (texts ++ (finish outcome).1, (finish outcome).2) := by
  cases outcome with
  | mk texts' ended => cases ended <;> rfl

/-- No pair is cut on a pending line, nor where the slices that were read left off. -/
theorem cutsNoPair_cons {slice : Bytes} {slices : List Bytes} (hpending : Pending pending) :
    CutsNoPair pending (slice :: slices) ↔
      ∀ done next, slices = done ++ next → CutsPair (pending ++ slice ++ done.flatten) next.flatten →
        SparedLines (splitLines (pending ++ slice ++ done.flatten)) := by
  constructor
  · intro h done next hsplit
    have hone := h (slice :: done) next (by rw [hsplit]; rfl)
    rwa [List.flatten_cons, ← List.append_assoc] at hone
  · intro h done next hsplit hcut
    cases done with
    | nil =>
      rw [List.flatten_nil, List.append_nil] at hcut
      have hin := hpending.open_ _ (List.mem_of_getLast? hcut.1)
      exact absurd hin (by decide)
    | cons first done =>
      obtain ⟨rfl, rfl⟩ := List.cons.inj hsplit
      rw [List.flatten_cons, ← List.append_assoc] at hcut ⊢
      exact h done next rfl hcut

theorem getLast?_append_congr {before rest done : Bytes} (hdone : done ≠ []) :
    (before ++ done).getLast? = (rest ++ done).getLast? := by
  rw [List.getLast?_append_of_ne_nil _ hdone, List.getLast?_append_of_ne_nil _ hdone]

theorem Pending.not_cutsPair (h : Pending pending) (after : Bytes) : ¬ CutsPair pending after := fun hcut =>
  absurd (h.open_ _ (List.mem_of_getLast? hcut.1)) (by decide)

/-- The cuts that come after a slice that no pair is cut behind. -/
theorem later_cut {before : Bytes} {slices done next : List Bytes} (hcut : ¬ CutsPair before slices.flatten)
    (hsplit : slices = done ++ next) (h : CutsPair (before ++ done.flatten) next.flatten) :
    done.flatten ≠ [] ∧ ¬ CutsPair before done.flatten := by
  subst hsplit
  rw [List.flatten_append] at hcut
  have hdone : done.flatten ≠ [] := by
    intro hnil
    rw [hnil, List.append_nil] at h
    rw [hnil, List.nil_append] at hcut
    exact hcut h
  refine ⟨hdone, fun hpair => hcut ⟨hpair.1, ?_⟩⟩
  rw [List.head?_append, hpair.2]
  rfl

theorem splitLines_append_ne (rest : Bytes) {done : Bytes} (hdone : done ≠ []) : splitLines (rest ++ done) ≠ [] := by
  cases h : rest ++ done with
  | nil => exact absurd (List.append_eq_nil_iff.mp h).2 hdone
  | cons byte tail => exact splitLines_ne_nil byte tail

/-- A slice that no pair is cut behind leaves the question to the slices after it. -/
theorem feedSlices_eq_iff_of_not_cut {before : Bytes} {slices : List Bytes} (hcut : ¬ CutsPair before slices.flatten)
    (ih : ∀ {pending}, Pending pending →
      (finish (feedSlices slices pending) = finish (feedSlice [] (pending ++ slices.flatten)) ↔
        CutsNoPair pending slices)) :
    finish ((feedSlice [] before).andThen (feedSlices slices)) = finish (feedSlice [] (before ++ slices.flatten)) ↔
      ∀ done next, slices = done ++ next → CutsPair (before ++ done.flatten) next.flatten →
        SparedLines (splitLines (before ++ done.flatten)) := by
  obtain ⟨lines, rest, hlines, hall, hrest, happend⟩ := splitLines_append before
  have hfed : feedSlice [] before = (handleLines lines []).andThen fun pending => handleLines (unfinished rest) pending := by
    rw [feedSlice, List.nil_append, hlines, handleLines_append]
  rw [feedSlice_append hcut, hfed]
  rcases handleLines_finished hall with ⟨hfine, texts, htexts⟩ | ⟨hbad, texts, error, herror⟩
  · rw [htexts, Outcome.andThen_ok, handleLines_unfinished hrest]
    by_cases hlong : maxProviderLineBytes < rest.length
    · rw [if_pos hlong]
      refine iff_of_true rfl fun done next hsplit hpair => ?_
      obtain ⟨hdone, hnot⟩ := later_cut hcut hsplit hpair
      have hne : rest ≠ [] := by
        rintro rfl
        cases hlong
      obtain ⟨more, later, hfirst⟩ := splitLines_append_ne_nil hrest hne done.flatten
      have hmem : rest ++ more ∈ splitLines (before ++ done.flatten) := by
        rw [happend _ hnot, hfirst]
        exact List.mem_append_right _ List.mem_cons_self
      refine sparedLines_of_long hmem ?_
      rw [List.length_append]
      omega
    · have hpending : Pending rest := ⟨hrest, not_lt.mp hlong⟩
      rw [if_neg hlong, List.append_nil, Outcome.andThen_ok, Outcome.andThen_ok, finish_ok, finish_ok, Prod.mk.injEq,
        List.append_cancel_left_eq, ← Prod.mk.injEq]
      refine (ih hpending).trans ⟨?_, ?_⟩
      · intro h done next hsplit hpair
        obtain ⟨hdone, hnot⟩ := later_cut hcut hsplit hpair
        rw [happend _ hnot, sparedLines_append (splitLines_append_ne rest hdone) hfine]
        exact h done next hsplit ⟨(getLast?_append_congr hdone).symm.trans hpair.1, hpair.2⟩
      · intro h done next hsplit hpair
        have hdone : done.flatten ≠ [] := by
          intro hnil
          rw [hnil, List.append_nil] at hpair
          exact hpending.not_cutsPair _ hpair
        have hpair' : CutsPair (before ++ done.flatten) next.flatten :=
          ⟨(getLast?_append_congr hdone).symm.trans hpair.1, hpair.2⟩
        have hspared := h done next hsplit hpair'
        rwa [happend _ (later_cut hcut hsplit hpair').2, sparedLines_append (splitLines_append_ne rest hdone) hfine]
          at hspared
  · rw [herror]
    refine iff_of_true rfl fun done next hsplit hpair => ?_
    obtain ⟨hdone, hnot⟩ := later_cut hcut hsplit hpair
    rw [happend _ hnot]
    exact sparedLines_of_rejected (splitLines_append_ne rest hdone) hbad

/-- Behind a slice that cuts a pair, the two readings part unless the decoder has stopped. -/
theorem feedSlices_eq_iff_of_cut {before : Bytes} {slices : List Bytes} (hcut : CutsPair before slices.flatten) :
    finish ((feedSlice [] before).andThen (feedSlices slices)) = finish (feedSlice [] (before ++ slices.flatten)) ↔
      ∀ done next, slices = done ++ next → CutsPair (before ++ done.flatten) next.flatten →
        SparedLines (splitLines (before ++ done.flatten)) := by
  obtain ⟨later, hafter⟩ := hcut.exists_feed
  obtain ⟨lines, body, hall, hbody, hlines, happend, hbefore, hwhole⟩ := feedSlice_pair hcut.1
  -- the cut itself, and the later ones, at which the pair's line is whole
  have hcuts : ∀ {P : List Bytes → Prop}, P (lines ++ [body ++ [carriageReturn]]) →
      (∀ more, more ≠ [] → P (lines ++ (body ++ [carriageReturn, feed]) :: more)) →
      ∀ done next, slices = done ++ next → CutsPair (before ++ done.flatten) next.flatten →
        P (splitLines (before ++ done.flatten)) := by
    intro P hhere hlater done next hsplit hpair
    cases hdone : done.flatten with
    | nil =>
      rw [List.append_nil, hlines]
      exact hhere
    | cons byte rest =>
      rw [hsplit, List.flatten_append, hdone, List.cons_append, List.cons.injEq] at hafter
      obtain ⟨rfl, -⟩ := hafter
      rw [happend]
      refine hlater _ fun hnil => ?_
      cases rest with
      | nil =>
        have hend := hpair.1
        rw [hdone, List.getLast?_append_of_ne_nil _ (List.cons_ne_nil _ _)] at hend
        exact absurd (Option.some.inj hend) (by decide)
      | cons byte rest => exact splitLines_ne_nil byte rest hnil
  have hhere : (∀ done next, slices = done ++ next → CutsPair (before ++ done.flatten) next.flatten →
      SparedLines (splitLines (before ++ done.flatten))) → SparedLines (lines ++ [body ++ [carriageReturn]]) := by
    intro h
    have hfirst := h [] slices rfl (by rwa [List.flatten_nil, List.append_nil])
    rwa [List.flatten_nil, List.append_nil, hlines] at hfirst
  rw [hafter, hbefore, hwhole]
  rcases handleLines_finished hall with ⟨hfine, texts, htexts⟩ | ⟨hbad, texts, error, herror⟩
  · rw [htexts, Outcome.andThen_ok, Outcome.andThen_ok]
    have hlast : SparedLines (lines ++ [body ++ [carriageReturn]]) ↔
        Rejected (body ++ [carriageReturn]) ∧ (body ++ [carriageReturn]).length ≠ maxProviderLineBytes := by
      rw [sparedLines_append (List.cons_ne_nil _ _) hfine]
      simp [SparedLines]
    cases pairVerdict hbody with
    | yielded text hkept hreturn hpair =>
      refine iff_of_false (fun heq => ?_) fun h => hkept (hlast.mp (hhere h)).1
      obtain ⟨slices', -, rfl, hfeed⟩ := feedSlices_feed hafter
      have hcount := length_feedSlices slices' pending_nil
      have hlengths := congrArg (fun result => result.1.length) heq
      simp only [finish_fst, hreturn, Outcome.andThen_ok, hfeed, List.length_append, List.length_cons] at hlengths
      rcases hpair with hpair | hpair
      · simp only [hpair, Outcome.andThen_ok, List.length_append, List.length_cons, List.length_nil] at hlengths
        have hwhole' : handleLines (splitLines slices'.flatten) [] = feedSlice [] ([] ++ slices'.flatten) := rfl
        rw [hwhole'] at hlengths
        omega
      · simp only [hpair, Outcome.andThen_error, List.length_nil] at hlengths
        omega
    | refused error hbad hlength hpairBad hreturn hpair =>
      refine iff_of_true ?_ (hcuts (hlast.mpr ⟨hbad, hlength⟩) fun more hmore => ?_)
      · rw [hreturn, hpair]
        rfl
      · rw [sparedLines_append (List.cons_ne_nil _ _) hfine]
        have hone : ∃ line ∈ [body ++ [carriageReturn, feed]], Rejected line := ⟨_, List.mem_singleton_self _, hpairBad⟩
        exact sparedLines_of_rejected hmore hone
    | divided hlength hreturn hpair =>
      refine iff_of_false (fun heq => ?_) fun h => (hlast.mp (hhere h)).2 hlength
      rw [hreturn, hpair] at heq
      have herrors := Option.some.inj (congrArg Prod.snd heq)
      exact absurd herrors (by decide)
  · rw [herror]
    refine iff_of_true rfl (hcuts ?_ fun more _ => ?_)
    · exact sparedLines_of_rejected (List.cons_ne_nil _ _) hbad
    · exact sparedLines_of_rejected (List.cons_ne_nil _ _) hbad

/-- The slices give what the whole stream gives if and only if no pair is cut. -/
theorem feedSlices_eq_iff (slices : List Bytes) (hpending : Pending pending) :
    finish (feedSlices slices pending) = finish (feedSlice [] (pending ++ slices.flatten)) ↔
      CutsNoPair pending slices := by
  induction slices generalizing pending with
  | nil =>
    rw [List.flatten_nil, List.append_nil, feedSlice_of_pending hpending]
    refine iff_of_true rfl fun done next hsplit hcut => ?_
    rw [(List.append_eq_nil_iff.mp hsplit.symm).2] at hcut
    cases hcut.2
  | cons slice slices ih =>
    have hslice : feedSlice pending slice = feedSlice [] (pending ++ slice) := rfl
    rw [List.flatten_cons, ← List.append_assoc, feedSlices, cutsNoPair_cons hpending, hslice]
    by_cases hcut : CutsPair (pending ++ slice) slices.flatten
    · exact feedSlices_eq_iff_of_cut hcut
    · exact feedSlices_eq_iff_of_not_cut hcut ih

/-! ## Chunks -/

theorem flatten_slices (n : Nat) (chunk : Bytes) :
    ((List.range n).map fun i => (chunk.drop (i * sliceBytes)).take sliceBytes).flatten = chunk.take (n * sliceBytes) := by
  induction n with
  | zero => simp
  | succ n ih =>
    rw [List.range_succ, List.map_append, List.flatten_append, ih, List.map_singleton, List.flatten_singleton,
      Nat.succ_mul, List.take_add]

theorem flatten_slicesOf (chunk : Bytes) : (slicesOf chunk).flatten = chunk := by
  rw [slicesOf, flatten_slices]
  refine List.take_of_length_le ?_
  have hpos : 0 < sliceBytes := by decide
  have hdiv := Nat.div_add_mod (chunk.length + (sliceBytes - 1)) sliceBytes
  have hmod := Nat.mod_lt (chunk.length + (sliceBytes - 1)) hpos
  rw [Nat.mul_comm] at hdiv
  omega

theorem flatten_flatMap_slicesOf (chunks : List Bytes) : (chunks.flatMap slicesOf).flatten = chunks.flatten := by
  induction chunks with
  | nil => rfl
  | cons chunk chunks ih => rw [List.flatMap_cons, List.flatten_append, flatten_slicesOf, ih, List.flatten_cons]

/-- A pair that is cut in two: the stream has one line, the two chunks have a second, empty one. -/
theorem divided_pair_yields_twice :
    ¬ ∀ chunks chunks' : List Bytes, chunks.flatten = chunks'.flatten → providerLines chunks = providerLines chunks' := by
  intro h
  have hlines := h [[97, carriageReturn], [feed]] [[97, carriageReturn, feed]] rfl
  exact absurd hlines (by decide)

/-- Two ways of cutting a stream yield the same lines and the same end, those of the stream, if
and only if neither cuts a pair before the decoder has stopped. -/
theorem providerLines_eq_iff (chunks chunks' : List Bytes) (h : chunks.flatten = chunks'.flatten) :
    (providerLines chunks = providerLines chunks' ∧ providerLines chunks = streamLines chunks.flatten) ↔
      CutsNoPair [] (chunks.flatMap slicesOf) ∧ CutsNoPair [] (chunks'.flatMap slicesOf) := by
  have hone : ∀ chunks : List Bytes,
      providerLines chunks = streamLines chunks.flatten ↔ CutsNoPair [] (chunks.flatMap slicesOf) := by
    intro chunks
    rw [← feedSlices_eq_iff _ pending_nil, List.nil_append, flatten_flatMap_slicesOf]
    rfl
  rw [← hone, ← hone, ← h]
  constructor
  · rintro ⟨hsame, hwhole⟩
    exact ⟨hwhole, hsame ▸ hwhole⟩
  · rintro ⟨hwhole, hwhole'⟩
    exact ⟨hwhole.trans hwhole'.symm, hwhole⟩

/-- A stream that is cut between its two lines. -/
theorem providerLines_eq_iff_two_lines :
    (providerLines [[97, feed], [98, feed]] = providerLines [[97, feed, 98, feed]] ∧
      providerLines [[97, feed], [98, feed]] = streamLines [97, feed, 98, feed]) ↔
        CutsNoPair [] ([[97, feed], [98, feed]].flatMap slicesOf) ∧ CutsNoPair [] ([[97, feed, 98, feed]].flatMap slicesOf) :=
  providerLines_eq_iff [[97, feed], [98, feed]] [[97, feed, 98, feed]] rfl

end ProviderLines
