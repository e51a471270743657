/-
  AiPlatform.Knowledge.CharWindows

  Overlapping windows of characters (`_split_with_overlap` of `chunking.py`).

  A window that does not reach the end of the text may stop at a break point, but
  the next one always starts one step later: `next_eq`.
-/

import AiPlatform.Knowledge.SplitText

namespace AiPlatform.Knowledge

/-- The patterns a window may stop after, the ones that are looked for first in front. -/
def breakPatterns : List Text :=
  ["\n\n".toList, "\n".toList, "。".toList, ".".toList, "！".toList, "!".toList, "？".toList,
    "?".toList, "۔".toList, "؟".toList]

section

variable (text : Text) (chunkSize overlap : Nat) (lookBack : Nat → Nat)

/-- `overlap = min(overlap, chunk_size // 2)` -/
def usedOverlap : Nat := min overlap (chunkSize / 2)

/-- `max(chunk_size - overlap, 1)` -/
def windowStep : Nat := max (chunkSize - usedOverlap chunkSize overlap) 1

/-- The break point in the last part of a window: right after the last occurrence of
    the first pattern that occurs there, other than at its beginning. -/
def bestBreak (searchStart : Nat) (search : Text) : Option Nat :=
  breakPatterns.findSome? fun pattern =>
    match rfind pattern search with
    | some pos => if 0 < pos then some (searchStart + pos + pattern.length) else none
    | none => none

/-- Where the window that starts here ends.  `lookBack` is `int(chunk_size * 0.2)`. -/
def stopAt (start : Nat) : Nat :=
  let stop := min (start + chunkSize) text.length
  if stop < text.length then
    let searchStart := max start (stop - lookBack chunkSize)
    match bestBreak searchStart ((text.take stop).drop searchStart) with
    | some best => if start < best then best else stop
    | none => stop
  else stop

/-- Where the next window starts. -/
def nextStart (start : Nat) : Nat :=
  let stop := stopAt text chunkSize lookBack start
  if stop < text.length then
    max (start + windowStep chunkSize overlap) (stop - usedOverlap chunkSize overlap)
  else text.length

/-- The windows from a start on. -/
def windowsFrom (start : Nat) : List Window :=
  if start < text.length then
    ⟨start, stopAt text chunkSize lookBack start⟩ ::
      windowsFrom (nextStart text chunkSize overlap lookBack start)
  else []
termination_by text.length - start
decreasing_by
  have hstep : 0 < windowStep chunkSize overlap := Nat.lt_of_lt_of_le Nat.one_pos (Nat.le_max_right ..)
  have hnext : start < nextStart text chunkSize overlap lookBack start := by
    simp only [nextStart]
    split
    · exact Nat.lt_of_lt_of_le (Nat.lt_add_of_pos_right hstep) (Nat.le_max_left ..)
    · assumption
  omega

/-- The windows the loop visits; none where there would be too many. -/
def visitedWindows : Except String (List Window) :=
  if text = [] ∨ chunkSize = 0 then .ok []
  else if maxChunkOutputs < (text.length + windowStep chunkSize overlap - 1) /
      windowStep chunkSize overlap then .error outputLimitMessage
  else .ok (windowsFrom text chunkSize overlap lookBack 0)

/-- The chunk of a window, if it is long enough. -/
def appendWindow (minChunkSize : Nat) (chunks : List Text) (window : Window) :
    Except String (List Text) :=
  let chunk := strippedText (window.of text)
  if chunk ≠ [] ∧ minChunkSize ≤ chunk.length then appendBounded chunks chunk else .ok chunks

def splitWithOverlap (minChunkSize : Nat) : Except String (List Text) := do
  let windows ← visitedWindows text chunkSize overlap lookBack
  windows.foldlM (appendWindow text minChunkSize) []

/-! ## The law -/

structure CoversText (windows : List Window) : Prop where
  some : text ≠ [] → windows ≠ []
  increasing : windows.Pairwise fun a b => a.start < b.start
  bounded : ∀ window ∈ windows, window.start < window.stop ∧ window.stop ≤ window.start + chunkSize
  first : ∀ window ∈ windows.head?, window.start = 0
  last : ∀ window ∈ windows.getLast?, window.stop = text.length
  noGap : windows.IsChain fun a b => b.start ≤ a.stop

/-- No break point lies before the start of the next window, the windows being one
    step apart. -/
def BreaksPastStep : Prop :=
  ∀ k, k * windowStep chunkSize overlap + chunkSize < text.length →
    (k + 1) * windowStep chunkSize overlap ≤
      stopAt text chunkSize lookBack (k * windowStep chunkSize overlap)

end

/-! ## One window -/

section

variable {text : Text} {chunkSize overlap : Nat} {lookBack : Nat → Nat} {start : Nat}

theorem bestBreak_bounds {search : Text} {searchStart best : Nat}
    (h : bestBreak searchStart search = some best) :
    searchStart < best ∧ best ≤ searchStart + search.length := by
  obtain ⟨pattern, hpattern, hbest⟩ := List.exists_of_findSome?_eq_some h
  split at hbest
  · rename_i pos hpos
    have hlength := rfind_add_length_le hpos
    split at hbest
    · obtain rfl := Option.some.inj hbest
      omega
    · cases hbest
  · cases hbest

variable (lookBack) in
theorem stopAt_bounds (hsize : 0 < chunkSize) (hstart : start < text.length) :
    start < stopAt text chunkSize lookBack start ∧
      stopAt text chunkSize lookBack start ≤ min (start + chunkSize) text.length := by
  have hstop : start < min (start + chunkSize) text.length := by omega
  simp only [stopAt]
  split
  · split
    · rename_i best hbest
      have hbounds := bestBreak_bounds hbest
      rw [List.length_drop, List.length_take] at hbounds
      split <;> omega
    · exact ⟨hstop, le_rfl⟩
  · exact ⟨hstop, le_rfl⟩

/-- A window that the text ends in goes to its end. -/
theorem stopAt_of_le (h : text.length ≤ start + chunkSize) :
    stopAt text chunkSize lookBack start = text.length := by
  simp only [stopAt, Nat.min_eq_right h, if_neg (Nat.lt_irrefl _)]

theorem windowStep_pos (chunkSize overlap : Nat) : 0 < windowStep chunkSize overlap :=
  Nat.lt_of_lt_of_le Nat.one_pos (Nat.le_max_right ..)

theorem windowStep_le (overlap : Nat) (hsize : 0 < chunkSize) : windowStep chunkSize overlap ≤ chunkSize := by
  rw [windowStep]
  omega

/-- The end of a window, less the overlap, is never past the step. -/
theorem next_eq (hsize : 0 < chunkSize) (h : start + chunkSize < text.length) :
    nextStart text chunkSize overlap lookBack start = start + windowStep chunkSize overlap := by
  have hstop := (stopAt_bounds lookBack hsize (Nat.lt_of_le_of_lt (Nat.le_add_right ..) h)).2
  rw [nextStart, if_pos (by omega), windowStep]
  omega

/-! ## All windows -/

theorem windowsFrom_more (hsize : 0 < chunkSize) (h : start + chunkSize < text.length) :
    windowsFrom text chunkSize overlap lookBack start =
      ⟨start, stopAt text chunkSize lookBack start⟩ ::
        windowsFrom text chunkSize overlap lookBack (start + windowStep chunkSize overlap) := by
  rw [windowsFrom, if_pos (by omega), next_eq hsize h]

theorem windowsFrom_last (hstart : start < text.length) (h : text.length ≤ start + chunkSize) :
    windowsFrom text chunkSize overlap lookBack start = [⟨start, text.length⟩] := by
  rw [windowsFrom, if_pos hstart, nextStart, stopAt_of_le h, if_neg (Nat.lt_irrefl _), windowsFrom,
    if_neg (Nat.lt_irrefl _)]

/-- What holds of the windows from a start on, whatever the break points. -/
structure CoversFrom (text : Text) (chunkSize start : Nat) (windows : List Window) : Prop where
  head : windows.head?.map Window.start = some start
  increasing : windows.Pairwise fun a b => a.start < b.start
  bounded : ∀ window ∈ windows, start ≤ window.start ∧ window.start < window.stop ∧
    window.stop ≤ window.start + chunkSize
  last : windows.getLast?.map Window.stop = some text.length

variable (overlap) (lookBack) in
theorem coversFrom (hsize : 0 < chunkSize) (hstart : start < text.length) :
    CoversFrom text chunkSize start (windowsFrom text chunkSize overlap lookBack start) := by
  induction hrest : text.length - start using Nat.strong_induction_on generalizing start with
  | _ rest ih =>
    have hbounds := stopAt_bounds lookBack hsize hstart
    by_cases h : start + chunkSize < text.length
    · have hstep := windowStep_le overlap hsize
      have hpos := windowStep_pos chunkSize overlap
      have hnext : start + windowStep chunkSize overlap < text.length := by omega
      have hlater := ih _ (by omega) hnext rfl
      rw [windowsFrom_more hsize h]
      refine ⟨rfl, List.pairwise_cons.mpr ⟨fun window hwindow => ?_, hlater.increasing⟩, ?_, ?_⟩
      · have := (hlater.bounded window hwindow).1
        show start < window.start
        omega
      · intro window hwindow
        rcases List.mem_cons.mp hwindow with rfl | hwindow
        · exact ⟨le_rfl, hbounds.1, hbounds.2.trans (Nat.min_le_left ..)⟩
        · have := hlater.bounded window hwindow
          omega
      · cases hwindows : windowsFrom text chunkSize overlap lookBack
            (start + windowStep chunkSize overlap) with
        | nil =>
          have hhead := hlater.head
          rw [hwindows] at hhead
          cases hhead
        | cons window later =>
          rw [List.getLast?_cons_cons, ← hwindows]
          exact hlater.last
    · rw [windowsFrom_last hstart (Nat.not_lt.mp h)]
      refine ⟨rfl, List.pairwise_singleton .., ?_, rfl⟩
      intro window hwindow
      obtain rfl := List.mem_singleton.mp hwindow
      exact ⟨le_rfl, hstart, Nat.not_lt.mp h⟩

variable (overlap) (lookBack) in
/-- The windows from a start on leave no gap exactly when each that is not the last
    stops no earlier than one step on. -/
theorem isChain_windowsFrom_iff (hsize : 0 < chunkSize) (hstart : start < text.length) :
    (windowsFrom text chunkSize overlap lookBack start).IsChain (fun a b => b.start ≤ a.stop) ↔
      ∀ k, start + k * windowStep chunkSize overlap + chunkSize < text.length →
        start + (k + 1) * windowStep chunkSize overlap ≤
          stopAt text chunkSize lookBack (start + k * windowStep chunkSize overlap) := by
  induction hrest : text.length - start using Nat.strong_induction_on generalizing start with
  | _ rest ih =>
    by_cases h : start + chunkSize < text.length
    · have hstep := windowStep_le overlap hsize
      have hpos := windowStep_pos chunkSize overlap
      have hnext : start + windowStep chunkSize overlap < text.length := by omega
      have hlater := ih _ (by omega) hnext rfl
      have hhead := (coversFrom overlap lookBack hsize hnext).head
      rw [windowsFrom_more hsize h]
      cases hwindows : windowsFrom text chunkSize overlap lookBack
          (start + windowStep chunkSize overlap) with
      | nil =>
        rw [hwindows] at hhead
        cases hhead
      | cons window later =>
        rw [hwindows] at hhead hlater
        rw [List.isChain_cons_cons, hlater, Option.some.inj hhead]
        constructor
        · rintro ⟨hfirst, hmore⟩ k hk
          cases k with
          | zero => simpa using hfirst
          | succ k =>
            have hshift : start + (k + 1) * windowStep chunkSize overlap =
                start + windowStep chunkSize overlap + k * windowStep chunkSize overlap := by
              rw [Nat.succ_mul]
              omega
            rw [hshift] at hk ⊢
            have := hmore k hk
            rw [Nat.succ_mul] at this ⊢
            omega
        · intro hall
          refine ⟨by simpa using hall 0 (by simpa using h), fun k hk => ?_⟩
          have hshift : start + (k + 1) * windowStep chunkSize overlap =
              start + windowStep chunkSize overlap + k * windowStep chunkSize overlap := by
            rw [Nat.succ_mul]
            omega
          have := hall (k + 1) (by rw [hshift]; exact hk)
          rw [hshift] at this
          rw [Nat.succ_mul] at this ⊢
          omega
    · rw [windowsFrom_last hstart (Nat.not_lt.mp h)]
      refine iff_of_true (.singleton _) fun k hk => ?_
      omega

/-- The windows of a text cover it without gaps exactly when no break point pulls a
    window back behind the start of the next. -/
theorem coversText_iff {windows : List Window} (hsize : 0 < chunkSize)
    (hwindows : visitedWindows text chunkSize overlap lookBack = .ok windows) :
    CoversText text chunkSize windows ↔ BreaksPastStep text chunkSize overlap lookBack := by
  unfold visitedWindows at hwindows
  split at hwindows
  · rename_i hnone
    obtain rfl := Except.ok.inj hwindows
    obtain rfl : text = [] := hnone.resolve_right (by omega)
    refine iff_of_true ⟨fun h => absurd rfl h, .nil, by simp, by simp, by simp, .nil⟩ ?_
    intro k hk
    rw [List.length_nil] at hk
    omega
  · rename_i hsome
    split at hwindows
    · cases hwindows
    · obtain rfl := Except.ok.inj hwindows
      have hstart : 0 < text.length := List.length_pos_iff.mpr fun h => hsome (.inl h)
      have hcovers := coversFrom overlap lookBack hsize hstart
      have hchain := isChain_windowsFrom_iff overlap lookBack hsize hstart
      simp only [Nat.zero_add] at hchain
      refine ⟨fun h => hchain.mp h.noGap, fun h => ⟨fun _ hnil => ?_, hcovers.increasing, ?_, ?_, ?_,
        hchain.mpr h⟩⟩
      · have hhead := hcovers.head
        rw [hnil] at hhead
        cases hhead
      · exact fun window hwindow => (hcovers.bounded window hwindow).2
      · intro window hwindow
        have hhead := hcovers.head
        rw [Option.mem_def.mp hwindow] at hhead
        exact Option.some.inj hhead
      · intro window hwindow
        have hlast := hcovers.last
        rw [Option.mem_def.mp hwindow] at hlast
        exact Option.some.inj hlast

end

/-- A sentence ends two characters before the first window does, and the one after
    its end is in no window. -/
theorem not_coversText_of_sentence :
    ¬ ∀ (text : Text) (chunkSize overlap : Nat) (windows : List Window), 0 < chunkSize →
      visitedWindows text chunkSize overlap (· / 5) = .ok windows →
        CoversText text chunkSize windows := by
  intro h
  have hcovers := h "aaaaaaaaaaaaa.bbb".toList 15 0 (windowsFrom "aaaaaaaaaaaaa.bbb".toList 15 0 (· / 5) 0)
    (by decide) (by rw [visitedWindows, if_neg (by decide), if_neg (by decide)])
  have hbreak := (isChain_windowsFrom_iff _ _ (by decide) (by decide)).mp hcovers.noGap 0 (by decide)
  exact absurd hbreak (by decide)

/-- A text without break points. -/
theorem coversText_iff_of_unbroken :
    visitedWindows "aaaaaaaaaa".toList 4 1 (· / 5) =
        .ok (windowsFrom "aaaaaaaaaa".toList 4 1 (· / 5) 0) ∧
      (CoversText "aaaaaaaaaa".toList 4 (windowsFrom "aaaaaaaaaa".toList 4 1 (· / 5) 0) ↔
        BreaksPastStep "aaaaaaaaaa".toList 4 1 (· / 5)) := by
  have hvisited : visitedWindows "aaaaaaaaaa".toList 4 1 (· / 5) =
      .ok (windowsFrom "aaaaaaaaaa".toList 4 1 (· / 5) 0) := by
    rw [visitedWindows, if_neg (by decide), if_neg (by decide)]
  exact ⟨hvisited, coversText_iff (by decide) hvisited⟩

end AiPlatform.Knowledge
