/-
  AiPlatform.Knowledge.PdfSplitter

  The splitting of an oversized PDF into parts (`pdf_splitter.py`): an estimate of the pages
  of a part, a minimum of pages, and a binary search where the estimate was too large.

  The file and the writing of its parts (`PyMuPDF` and the file system) are a `SourcePdf`:
  the sizes and the paths of the parts that are written of it.
-/

import Mathlib.Data.Int.Log
import Mathlib.Data.Rat.Floor
import AiPlatform.Lib.Bisect
import AiPlatform.Lib.Loop
import AiPlatform.Lib.Ranges

namespace AiPlatform.Knowledge

open Looping Ranges

/-! ## The estimate -/

/-- The nearest integer, of two the even one. -/
def roundHalfEven (q : ℚ) : Int :=
  let below := ⌊q⌋
  if q - below < 1 / 2 then below
  else if 1 / 2 < q - below then below + 1
  else if below % 2 = 0 then below
  else below + 1

/-- The nearest float; no size comes near the largest one. -/
def toFloat (q : ℚ) : ℚ :=
  if q = 0 then 0
  else
    let unit : ℚ := 2 ^ (Int.log 2 |q| - 52)
    roundHalfEven (q / unit) * unit

/-- `int(value)` of a float -/
def truncate (q : ℚ) : Int := if 0 ≤ q then ⌊q⌋ else ⌈q⌉

/-- `int(max_size_bytes * 0.85 / avg_page_size)` -/
def estimate (maxSizeBytes : Int) (avgPageSize : ℚ) : Int :=
  let margin := toFloat (toFloat maxSizeBytes * toFloat (85 / 100))
  truncate (toFloat (margin / avgPageSize))

example : estimate (20 * 1024 * 1024) (toFloat (100000000 / 250)) = 44 := by decide +kernel

/-! ## The splitter -/

structure SplitResult where
  partIndex : Nat
  pageStart : Nat  -- 0-based inclusive
  pageEnd : Nat  -- 0-based exclusive
  path : String
  sizeBytes : Nat
deriving DecidableEq, Repr

/-- The file that is split, and the parts that can be written of it. -/
structure SourcePdf where
  path : String
  fileSize : Nat
  totalPages : Nat
  /-- The size of the part with the pages from the first position on and before the second. -/
  partSize : Nat → Nat → Nat
  /-- The temporary file the part is written to, by its index. -/
  partPath : Nat → Nat → Nat → String

/-- A range within another is not larger than it. -/
def SourcePdf.Monotone (source : SourcePdf) : Prop :=
  ∀ first first' last last', first' ≤ first → first < last → last ≤ last' →
    last' ≤ source.totalPages → source.partSize first last ≤ source.partSize first' last'

structure PdfSplitter where
  maxSizeBytes : Int
  minPagesPerPart : Nat
  minPages_pos : 0 < minPagesPerPart

inductive SplitError where
  | zeroDivision
deriving DecidableEq, Repr

namespace PdfSplitter

/-- `__init__` -/
def new (maxSizeBytes minPagesPerPart : Int) : PdfSplitter where
  maxSizeBytes := maxSizeBytes
  minPagesPerPart := (max 1 minPagesPerPart).toNat
  minPages_pos := by omega

variable (splitter : PdfSplitter) (source : SourcePdf)

/-- The part with these pages is no larger than `max_size_bytes`. -/
def fits (pageStart pageEnd : Nat) : Bool :=
  decide ((source.partSize pageStart pageEnd : Int) ≤ splitter.maxSizeBytes)

/-- `_find_max_pages` -/
def findMaxPages (pageStart pageEndUpper : Nat) : Nat :=
  let lo := pageStart + splitter.minPagesPerPart
  Bisect.lastFitting (splitter.fits source pageStart) lo pageEndUpper lo
    (Nat.add_pos_right pageStart splitter.minPages_pos)

/-- The end of the range that is tried first. -/
def firstEnd (estPagesPerPart pageCursor : Nat) : Nat :=
  let pageEnd := min (pageCursor + estPagesPerPart) source.totalPages
  -- at least the minimum of pages, except for the last part
  if pageEnd - pageCursor < splitter.minPagesPerPart ∧ pageEnd < source.totalPages then
    min (pageCursor + splitter.minPagesPerPart) source.totalPages
  else pageEnd

/-- The end of the range that is kept. -/
def pageEnd (estPagesPerPart pageCursor : Nat) : Nat :=
  let pageEnd := splitter.firstEnd source estPagesPerPart pageCursor
  if !splitter.fits source pageCursor pageEnd && decide (splitter.minPagesPerPart < pageEnd - pageCursor) then
    splitter.findMaxPages source pageCursor pageEnd
  else pageEnd

structure Progress where
  partIndex : Nat
  pageCursor : Nat
  results : List SplitResult

/-- One turn of `while page_cursor < total_pages`. -/
def nextPart (estPagesPerPart : Nat) (s : Progress) : Turn Progress (List SplitResult) :=
  if s.pageCursor < source.totalPages then
    let pageEnd := splitter.pageEnd source estPagesPerPart s.pageCursor
    let part : SplitResult :=
      { partIndex := s.partIndex
        pageStart := s.pageCursor
        pageEnd := pageEnd
        path := source.partPath s.pageCursor pageEnd s.partIndex
        sizeBytes := source.partSize s.pageCursor pageEnd }
    .again { partIndex := s.partIndex + 1, pageCursor := pageEnd, results := s.results ++ [part] }
  else .exit s.results

/-- `est_pages_per_part` -/
def estPagesPerPart : Nat :=
  (max (splitter.minPagesPerPart : Int)
    (estimate splitter.maxSizeBytes (toFloat (source.fileSize / source.totalPages)))).toNat

/-- `split_pdf`, its loop cut off after `fuel` turns. -/
def splitPdf (fuel : Nat) : Option (Except SplitError (List SplitResult)) :=
  if (source.fileSize : Int) ≤ splitter.maxSizeBytes then
    some (.ok [{ partIndex := 0
                 pageStart := 0
                 pageEnd := 0  -- filled below
                 path := source.path
                 sizeBytes := source.fileSize }])
  else if source.totalPages = 0 then some (.ok [])
  -- an average of `0.0` divides
  else if source.fileSize = 0 then some (.error .zeroDivision)
  else
    (loop (splitter.nextPart source (splitter.estPagesPerPart source)) fuel
      { partIndex := 0, pageCursor := 0, results := [] }).map .ok

/-! ## The ranges of the parts -/

/-- What a part is: within the size, unless it has no more than the minimum of pages; and
    where it ends before the range tried first, no longer one fits. -/
structure PartOk (part : SplitResult) : Prop where
  size : part.sizeBytes = source.partSize part.pageStart part.pageEnd
  within : (part.sizeBytes : Int) ≤ splitter.maxSizeBytes ∨
    part.pageEnd - part.pageStart ≤ splitter.minPagesPerPart
  longest : part.pageEnd < splitter.firstEnd source (splitter.estPagesPerPart source) part.pageStart →
    part.pageEnd = part.pageStart + splitter.minPagesPerPart ∨
      (splitter.fits source part.pageStart part.pageEnd = true ∧
        ∀ last, part.pageEnd < last → last ≤ source.totalPages →
          splitter.fits source part.pageStart last = false)

/-- The parts partition the pages. -/
structure Partitions (parts : List SplitResult) : Prop where
  tiles : Tiles 0 source.totalPages (parts.map fun part => (part.pageStart, part.pageEnd))
  parts : ∀ part ∈ parts, splitter.PartOk source part

variable {splitter source}

theorem minPages_le_estPagesPerPart : splitter.minPagesPerPart ≤ splitter.estPagesPerPart source := by
  unfold estPagesPerPart
  omega

theorem fits_of_le (hmono : source.Monotone) {pageStart i j : Nat} (hi : pageStart < i) (hij : i ≤ j)
    (hj : j ≤ source.totalPages) (hfits : splitter.fits source pageStart j = true) :
    splitter.fits source pageStart i = true := by
  have hle := hmono pageStart pageStart i j (Nat.le_refl _) hi hij hj
  have hfits := of_decide_eq_true hfits
  exact decide_eq_true (by omega)

theorem firstEnd_bounds {est cursor : Nat} (hest : splitter.minPagesPerPart ≤ est)
    (hcursor : cursor < source.totalPages) :
    cursor < splitter.firstEnd source est cursor ∧
      splitter.firstEnd source est cursor ≤ source.totalPages := by
  have hmin := splitter.minPages_pos
  unfold firstEnd
  dsimp only
  split <;> omega

/-- The binary search leaves with the minimum of pages, or with the last end that fits. -/
theorem findMaxPages_cases (hmono : source.Monotone) (pageStart : Nat) {upper : Nat}
    (hupper : upper ≤ source.totalPages) :
    splitter.findMaxPages source pageStart upper = pageStart + splitter.minPagesPerPart ∨
      (pageStart + splitter.minPagesPerPart ≤ splitter.findMaxPages source pageStart upper ∧
        splitter.findMaxPages source pageStart upper ≤ upper ∧
        splitter.fits source pageStart (splitter.findMaxPages source pageStart upper) = true ∧
        ∀ last, splitter.findMaxPages source pageStart upper < last → last ≤ upper →
          splitter.fits source pageStart last = false) := by
  have hmin := splitter.minPages_pos
  rcases @Bisect.lastFitting_cases (splitter.fits source pageStart)
      (pageStart + splitter.minPagesPerPart) upper (pageStart + splitter.minPagesPerPart)
      (Nat.add_pos_right pageStart hmin)
      (fun i j hi hij hj => fits_of_le hmono (by omega) hij (Nat.le_trans hj hupper)) with
    ⟨heq, -⟩ | hfound
  · exact .inl heq
  · exact .inr hfound

theorem pageEnd_spec (hmono : source.Monotone) {est cursor : Nat}
    (hest : splitter.minPagesPerPart ≤ est) (hcursor : cursor < source.totalPages) :
    (cursor < splitter.pageEnd source est cursor ∧
      splitter.pageEnd source est cursor ≤ source.totalPages) ∧
    (splitter.fits source cursor (splitter.pageEnd source est cursor) = true ∨
      splitter.pageEnd source est cursor - cursor ≤ splitter.minPagesPerPart) ∧
    (splitter.pageEnd source est cursor < splitter.firstEnd source est cursor →
      splitter.pageEnd source est cursor = cursor + splitter.minPagesPerPart ∨
        (splitter.fits source cursor (splitter.pageEnd source est cursor) = true ∧
          ∀ last, splitter.pageEnd source est cursor < last → last ≤ source.totalPages →
            splitter.fits source cursor last = false)) := by
  have hmin := splitter.minPages_pos
  obtain ⟨hlow, hhigh⟩ := firstEnd_bounds hest hcursor
  unfold pageEnd
  dsimp only
  generalize hfirst : splitter.firstEnd source est cursor = first at hlow hhigh
  by_cases hshrink : (!splitter.fits source cursor first &&
      decide (splitter.minPagesPerPart < first - cursor)) = true
  · rw [if_pos hshrink]
    simp only [Bool.and_eq_true, Bool.not_eq_true', decide_eq_true_eq] at hshrink
    obtain ⟨htooLarge, hpages⟩ := hshrink
    rcases findMaxPages_cases hmono cursor hhigh with heq | ⟨hmore, hless, hfit, hlast⟩
    · rw [heq]
      exact ⟨by omega, .inr (by omega), fun _ => .inl rfl⟩
    · refine ⟨by omega, .inl hfit, fun _ => .inr ⟨hfit, fun last hlt hle => ?_⟩⟩
      by_cases hwithin : last ≤ first
      · exact hlast last hlt hwithin
      -- a longer range than the first one is larger still
      · refine Bool.eq_false_iff.mpr fun hfits => ?_
        rw [fits_of_le hmono hlow (by omega) hle hfits] at htooLarge
        cases htooLarge
  · rw [if_neg hshrink]
    refine ⟨⟨hlow, hhigh⟩, ?_, fun hlt => absurd hlt (Nat.lt_irrefl _)⟩
    simp only [Bool.and_eq_true, Bool.not_eq_true', decide_eq_true_eq, not_and, Nat.not_lt] at hshrink
    cases hfits : splitter.fits source cursor first with
    | true => exact .inl rfl
    | false => exact .inr (hshrink hfits)

/-! ## The loop over the pages -/

/-- The parts so far partition the pages before the cursor. -/
structure ProgressOk (splitter : PdfSplitter) (source : SourcePdf) (s : Progress) : Prop where
  tiles : Tiles 0 s.pageCursor (s.results.map fun part => (part.pageStart, part.pageEnd))
  cursor : s.pageCursor ≤ source.totalPages
  parts : ∀ part ∈ s.results, splitter.PartOk source part

theorem progressOk_nextPart (hmono : source.Monotone) {s s' : Progress} (hs : ProgressOk splitter source s)
    (hnext : splitter.nextPart source (splitter.estPagesPerPart source) s = .again s') :
    ProgressOk splitter source s' ∧
      source.totalPages - s'.pageCursor < source.totalPages - s.pageCursor := by
  unfold nextPart at hnext
  split at hnext
  · case isTrue hcursor =>
    obtain ⟨⟨hlow, hhigh⟩, hwithin, hlongest⟩ :=
      pageEnd_spec hmono minPages_le_estPagesPerPart hcursor
    cases hnext
    refine ⟨⟨?_, hhigh, ?_⟩, by dsimp only; omega⟩
    · rw [List.map_append]
      exact hs.tiles.snoc hlow
    · intro part hmem
      rcases List.mem_append.mp hmem with hold | hnew
      · exact hs.parts part hold
      · obtain rfl := List.mem_singleton.mp hnew
        exact
          { size := rfl
            within := hwithin.imp of_decide_eq_true id
            longest := hlongest }
  · cases hnext

theorem partitions_nextPart {s : Progress} {parts : List SplitResult} (hs : ProgressOk splitter source s)
    (hexit : splitter.nextPart source (splitter.estPagesPerPart source) s = .exit parts) :
    splitter.Partitions source parts := by
  unfold nextPart at hexit
  split at hexit
  · cases hexit
  · case isFalse hcursor =>
    cases hexit
    obtain heq : s.pageCursor = source.totalPages := Nat.le_antisymm hs.cursor (Nat.le_of_not_lt hcursor)
    exact ⟨heq ▸ hs.tiles, hs.parts⟩

/-- The loop ends, with parts that partition the pages. -/
theorem exists_partition (hmono : source.Monotone) :
    ∃ parts, Returns (splitter.nextPart source (splitter.estPagesPerPart source))
      { partIndex := 0, pageCursor := 0, results := [] } parts ∧ splitter.Partitions source parts := by
  have hstart : ProgressOk splitter source { partIndex := 0, pageCursor := 0, results := [] } :=
    ⟨rfl, Nat.zero_le _, by simp⟩
  have hturn : ∀ s s', ProgressOk splitter source s →
      splitter.nextPart source (splitter.estPagesPerPart source) s = .again s' →
      ProgressOk splitter source s' ∧
        source.totalPages - s'.pageCursor < source.totalPages - s.pageCursor :=
    fun s s' hs hnext => progressOk_nextPart hmono hs hnext
  obtain ⟨parts, hreturns⟩ := exists_returns (fun s => source.totalPages - s.pageCursor) hturn hstart
  exact ⟨parts, hreturns, hreturns.induct (fun s s' hs hnext => (hturn s s' hs hnext).1)
    (fun s r hs hexit => partitions_nextPart hs hexit) hstart⟩

/-- `split_pdf` ends with parts that partition the pages exactly when the file is too large to
    be taken whole. -/
theorem splitPdf_partitions_iff (hpages : 0 < source.totalPages) (hmono : source.Monotone) :
    (∃ parts, Eventually (splitter.splitPdf source) (.ok parts) ∧ splitter.Partitions source parts) ↔
      splitter.maxSizeBytes < source.fileSize ∧ 0 < source.fileSize := by
  by_cases hwhole : (source.fileSize : Int) ≤ splitter.maxSizeBytes
  · refine iff_of_false ?_ (by omega)
    rintro ⟨parts, hparts, htiles, -⟩
    have hresult : parts = _ := Except.ok.inj
      (hparts.unique (Eventually.of_forall fun fuel => by rw [splitPdf, if_pos hwhole]))
    rw [hresult] at htiles
    exact absurd htiles.2.1 (Nat.lt_irrefl 0)
  · by_cases hempty : source.fileSize = 0
    · refine iff_of_false ?_ (by omega)
      rintro ⟨parts, hparts, -⟩
      have hraises : Eventually (splitter.splitPdf source) (.error .zeroDivision) :=
        Eventually.of_forall fun fuel => by
          rw [splitPdf, if_neg hwhole, if_neg hpages.ne', if_pos hempty]
      cases hparts.unique hraises
    · refine iff_of_true ?_ (by omega)
      obtain ⟨parts, hreturns, hpartition⟩ := @exists_partition splitter source hmono
      refine ⟨parts, ?_, hpartition⟩
      have hloop := (Eventually.of_returns hreturns).map (Except.ok (ε := SplitError))
      unfold splitPdf
      simpa only [if_neg hwhole, if_neg hpages.ne', if_neg hempty] using hloop

/-- A file of twelve pages of ten bytes each, taken apart at 45 bytes. -/
theorem splitPdf_partitions_iff_small :
    let splitter := PdfSplitter.new 45 2
    let source : SourcePdf :=
      { path := "report.pdf", fileSize := 120, totalPages := 12
        partSize := fun first last => 10 * (last - first)
        partPath := fun _ _ index => "pdfsplit_part" ++ toString index ++ ".pdf" }
    0 < source.totalPages ∧ source.Monotone ∧
      ∃ parts, Eventually (splitter.splitPdf source) (.ok parts) ∧ splitter.Partitions source parts := by
  intro splitter source
  have hmono : source.Monotone := by
    intro first first' last last' hfirst hlt hlast _
    have hle : last - first ≤ last' - first' := by omega
    exact Nat.mul_le_mul_left 10 hle
  exact ⟨by decide, hmono, (splitPdf_partitions_iff (by decide) hmono).mpr (by decide)⟩

/-- A file that is small enough comes back as the empty range `[0, 0)`. -/
theorem whole_file_has_no_pages :
    let splitter := PdfSplitter.new (20 * 1024 * 1024) 5
    let source : SourcePdf :=
      { path := "small.pdf", fileSize := 900, totalPages := 3
        partSize := fun first last => 300 * (last - first), partPath := fun _ _ _ => "" }
    source.Monotone ∧
      (∀ fuel, splitter.splitPdf source fuel = some (.ok
        [{ partIndex := 0, pageStart := 0, pageEnd := 0, path := "small.pdf", sizeBytes := 900 }])) ∧
      ¬ ∃ parts, Eventually (splitter.splitPdf source) (.ok parts) ∧
        splitter.Partitions source parts := by
  intro splitter source
  have hresult : ∀ fuel, splitter.splitPdf source fuel = some (.ok
      [{ partIndex := 0, pageStart := 0, pageEnd := 0, path := "small.pdf", sizeBytes := 900 }]) :=
    fun _ => rfl
  refine ⟨?_, hresult, ?_⟩
  · intro first first' last last' hfirst hlt hlast _
    have hle : last - first ≤ last' - first' := by omega
    exact Nat.mul_le_mul_left 300 hle
  · rintro ⟨parts, hparts, htiles, -⟩
    obtain rfl := Except.ok.inj (hparts.unique (Eventually.of_forall hresult))
    exact absurd htiles.2.1 (Nat.lt_irrefl 0)

end PdfSplitter

end AiPlatform.Knowledge
