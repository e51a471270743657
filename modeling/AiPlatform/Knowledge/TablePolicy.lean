/-
  AiPlatform.Knowledge.TablePolicy

  Splitting of table blocks by size (`parsing/table_policy.py`), and what the blocks keep of
  the table.

  A table of a medium size is cut into windows of rows with the header on each, a large one
  into single rows.
-/

import AiPlatform.Gateway.PythonText
import AiPlatform.Knowledge.ParsingIr
import AiPlatform.Lib.TextLines
import AiPlatform.Lib.Windows

namespace AiPlatform.Knowledge

open Parsing TextLines Windows

/-! ## Rows of a table -/

/-- A boundary of `str.splitlines`. -/
def isLineBreak (c : Char) : Bool :=
  [0x0a, 0x0b, 0x0c, 0x0d, 0x1c, 0x1d, 0x1e, 0x85, 0x2028, 0x2029].contains c.toNat

/-- `row.startswith("|")` -/
def startsWithPipe (row : Line) : Bool := row.head? == some '|'

/-- The lines of a text, stripped. -/
def strippedLines (text : String) : List Line :=
  (splitLines isLineBreak text.toList).map (strip Gateway.isSpace)

/-- `_is_separator` -/
def isSeparator (row : Line) : Bool :=
  let compact := row.filter (· != ' ')
  compact.contains '-' && compact.all fun c => ['|', '-', ':'].contains c

/-- The rows up to the first separator, and the rest of them. -/
def splitHeader (rows : List Line) : List Line × List Line :=
  match rows.findIdx? isSeparator with
  | some k => (rows.take (k + 1), rows.drop (k + 1))
  | none => ([], rows)

/-- `parse_markdown_rows`: header lines and data lines. -/
def parseMarkdownRows (markdown : String) : List Line × List Line :=
  splitHeader ((strippedLines markdown).filter startsWithPipe)

/-- `_render_table` -/
def renderTable (header data : List Line) : String := String.ofList (joinLines (header ++ data))

/-! ## The policy -/

inductive TableTier where
  | whole
  | segmented
  | rowLevel
deriving DecidableEq, Repr

/-- The keyword arguments of `split_table_block`. -/
structure TablePolicy where
  rowsPerSegment : Nat := 20
  overlapRows : Int := 2
  wholeMax : Int := 20
  segmentMax : Int := 100

def classifyTable (policy : TablePolicy) (nDataRows : Nat) : TableTier :=
  if nDataRows ≤ policy.wholeMax then .whole
  else if nDataRows ≤ policy.segmentMax then .segmented
  else .rowLevel

structure TableSplitResult where
  tier : TableTier
  blocks : List Block

/-- `_derive` -/
def derive (block : Block) (src : TableContent) (markdown : String) (nRows seq : Nat) : Block where
  blockId := block.blockId ++ "#t" ++ toString seq
  type := .table
  text := markdown
  order := block.order
  bbox := block.bbox
  parser := block.parser
  parserVersion := block.parserVersion
  confidence := block.confidence
  table := some
    { markdown := markdown
      html := none  -- HTML stays on the parent
      nRows := nRows
      nCols := src.nCols
      headerRows := src.headerRows
      hasMergedCells := src.hasMergedCells
      columnSemantics := src.columnSemantics
      summary := src.summary }
  metadata := block.metadata

/-- `step` of the segments -/
def TablePolicy.step (policy : TablePolicy) : Nat :=
  (max 1 ((policy.rowsPerSegment : Int) - max 0 policy.overlapRows)).toNat

/-- `block.type is BlockType.TABLE and block.table and block.table.markdown` -/
def Block.tableToSplit (block : Block) : Option TableContent :=
  if block.type = .table then block.table.filter fun table => table.markdown != "" else none

/-- `split_table_block` -/
def splitTableBlock (policy : TablePolicy) (block : Block) : TableSplitResult :=
  match Block.tableToSplit block with
  | none => { tier := .whole, blocks := [block] }
  | some table =>
    let (header, data) := parseMarkdownRows table.markdown
    match classifyTable policy data.length with
    | .whole => { tier := .whole, blocks := [block] }
    | .segmented =>
      { tier := .segmented
        blocks := (windows policy.rowsPerSegment policy.step data).mapIdx fun i window =>
          derive block table (renderTable header window) window.length i }
    | .rowLevel =>
      { tier := .rowLevel
        blocks := data.mapIdx fun i row => derive block table (renderTable header [row]) 1 i }

/-- The blocks of a page, every table replaced by its blocks. -/
def rebuildBlocks (policy : TablePolicy) (blocks : List Block) : List Block :=
  blocks.flatMap fun block =>
    if (Block.tableToSplit block).isSome then (splitTableBlock policy block).blocks else [block]

/-- `apply_table_policy`.  The copy through `to_dict` is the document again. -/
def applyTablePolicy (policy : TablePolicy) (doc : DocIR) : DocIR :=
  { doc with
    pages := doc.pages.map fun page => { page with blocks := rebuildBlocks policy page.blocks } }

/-! ## Rows written and read again -/

/-- A row as it was read: stripped, without a line break, and with a pipe in front. -/
structure IsRow (row : Line) : Prop where
  piped : startsWithPipe row = true
  oneLine : ∀ c ∈ row, isLineBreak c = false
  stripped : strip Gateway.isSpace row = row

theorem IsRow.ne_nil {row : Line} (h : IsRow row) : row ≠ [] := by
  rintro rfl
  exact absurd h.piped (by decide)

theorem oneLine_of_mem_strippedLines {text : String} {line : Line} (h : line ∈ strippedLines text) :
    (∀ c ∈ line, isLineBreak c = false) ∧ strip Gateway.isSpace line = line := by
  obtain ⟨raw, hraw, rfl⟩ := List.mem_map.mp h
  refine ⟨fun c hc => not_isBreak_of_mem hraw c ?_, strip_strip raw⟩
  exact (strip_sublist raw).subset hc

theorem isRow_of_mem {text : String} {row : Line}
    (h : row ∈ (strippedLines text).filter startsWithPipe) : IsRow row := by
  obtain ⟨hmem, hpiped⟩ := List.mem_filter.mp h
  obtain ⟨honeLine, hstripped⟩ := oneLine_of_mem_strippedLines hmem
  exact ⟨hpiped, honeLine, hstripped⟩

theorem splitHeader_append (rows : List Line) : (splitHeader rows).1 ++ (splitHeader rows).2 = rows := by
  unfold splitHeader
  split
  · exact List.take_append_drop _ rows
  · exact List.nil_append rows

/-- The header with other data rows splits in the same place. -/
theorem splitHeader_of_subset {rows window : List Line} (h : ∀ row ∈ window, row ∈ (splitHeader rows).2) :
    splitHeader ((splitHeader rows).1 ++ window) = ((splitHeader rows).1, window) := by
  unfold splitHeader at h ⊢
  cases hfind : rows.findIdx? isSeparator with
  | none =>
    rw [hfind] at h
    have hnone : window.findIdx? isSeparator = none := by
      rw [List.findIdx?_eq_none_iff] at hfind ⊢
      exact fun row hrow => hfind row (h row hrow)
    simp only [List.nil_append, hnone]
  | some k =>
    have hlength : (rows.take (k + 1)).length = k + 1 := by
      obtain ⟨hlt, -, -⟩ := List.findIdx?_eq_some_iff_getElem.mp hfind
      rw [List.length_take]
      omega
    have hagain : (rows.take (k + 1) ++ window).findIdx? isSeparator = some k := by
      rw [List.findIdx?_append, List.findIdx?_take, hfind]
      simp [Option.guard]
    simp only [hagain]
    rw [List.take_left' hlength, List.drop_left' hlength]

theorem strippedLines_renderTable {header window : List Line} (h : ∀ row ∈ header ++ window, IsRow row) :
    strippedLines (renderTable header window) = header ++ window := by
  have hlines : ∀ row ∈ header ++ window, row ≠ [] ∧ ∀ c ∈ row, isLineBreak c = false :=
    fun row hrow => ⟨(h row hrow).ne_nil, (h row hrow).oneLine⟩
  rw [strippedLines, renderTable, String.toList_ofList, splitLines_joinLines rfl rfl hlines]
  calc (header ++ window).map (strip Gateway.isSpace)
      = (header ++ window).map id := List.map_congr_left fun row hrow => (h row hrow).stripped
    _ = header ++ window := List.map_id _

/-- What is read of a table that was written: the header again, and the rows written with it. -/
theorem parseMarkdownRows_renderTable {markdown : String} {window : List Line}
    (h : ∀ row ∈ window, row ∈ (parseMarkdownRows markdown).2) :
    strippedLines (renderTable (parseMarkdownRows markdown).1 window) = (parseMarkdownRows markdown).1 ++ window ∧
      parseMarkdownRows (renderTable (parseMarkdownRows markdown).1 window) =
        ((parseMarkdownRows markdown).1, window) := by
  have hrows : ∀ row ∈ (parseMarkdownRows markdown).1 ++ window, IsRow row := by
    intro row hrow
    refine @isRow_of_mem markdown row ?_
    rw [← splitHeader_append ((strippedLines markdown).filter startsWithPipe)]
    rcases List.mem_append.mp hrow with hheader | hwindow
    · exact List.mem_append_left _ hheader
    · exact List.mem_append_right _ (h row hwindow)
  have hlines := strippedLines_renderTable hrows
  refine ⟨hlines, ?_⟩
  conv_lhs => rw [parseMarkdownRows]
  rw [hlines, List.filter_eq_self.mpr fun row hrow => (hrows row hrow).piped]
  exact splitHeader_of_subset h

/-! ## What the blocks keep of the table -/

/-- The lines of a block's table that are not blank. -/
def tableLines (block : Block) : List Line :=
  match block.table with
  | some table => (strippedLines table.markdown).filter fun line => !line.isEmpty
  | none => []

def headerLines (block : Block) : List Line :=
  (Block.tableToSplit block).elim [] fun table => (parseMarkdownRows table.markdown).1

def dataLines (block : Block) : List Line :=
  (Block.tableToSplit block).elim [] fun table => (parseMarkdownRows table.markdown).2

/-- The rows of a segment, and the rows from one segment's first to the next one's. -/
def segmentSize (policy : TablePolicy) (nDataRows : Nat) : Nat × Nat :=
  if nDataRows ≤ policy.segmentMax then (policy.rowsPerSegment, policy.step) else (1, 1)

/-- The blocks hold every line of the table.  When the table is split, each has the header and
    after it rows that begin with those carried over from the block before and go on, with
    at least one row, where that one ended. -/
structure RowsKept (policy : TablePolicy) (block : Block) : Prop where
  contains : ∀ line ∈ tableLines block,
    ∃ segment ∈ (splitTableBlock policy block).blocks, line ∈ tableLines segment
  inOrder : (splitTableBlock policy block).blocks = [block] ∨
    ∃ segments rows, tableLines block = headerLines block ++ rows ∧
      (splitTableBlock policy block).blocks.map tableLines = segments.map (headerLines block ++ ·) ∧
      Unrolls ((segmentSize policy rows.length).1 - (segmentSize policy rows.length).2) segments rows
  distinct : ((splitTableBlock policy block).blocks.map Block.blockId).Nodup

/-- The table is left whole; or all its lines are rows, some of them data rows when there is
    a header, and the last segment is not just the end of the one before. -/
def SplitsClean (policy : TablePolicy) (block : Block) : Prop :=
  Block.tableToSplit block = none ∨ (dataLines block).length ≤ policy.wholeMax ∨
    ((∀ line ∈ tableLines block, startsWithPipe line = true) ∧
      (dataLines block = [] → headerLines block = []) ∧
      ((dataLines block).length ≤ policy.segmentMax →
        LastIsNew policy.rowsPerSegment policy.step (dataLines block).length))

instance (policy : TablePolicy) (block : Block) : Decidable (SplitsClean policy block) :=
  inferInstanceAs (Decidable (_ ∨ _))

theorem step_bounds {policy : TablePolicy} (hrows : 0 < policy.rowsPerSegment) :
    0 < policy.step ∧ policy.step ≤ policy.rowsPerSegment := by
  unfold TablePolicy.step
  omega

theorem segmentSize_bounds {policy : TablePolicy} (hrows : 0 < policy.rowsPerSegment) (n : Nat) :
    0 < (segmentSize policy n).2 ∧ (segmentSize policy n).2 ≤ (segmentSize policy n).1 := by
  unfold segmentSize
  split
  · exact step_bounds hrows
  · exact ⟨Nat.one_pos, Nat.le_refl 1⟩

/-- A table that is left as it is. -/
theorem splitTableBlock_whole {policy : TablePolicy} {block : Block}
    (h : Block.tableToSplit block = none ∨ (dataLines block).length ≤ policy.wholeMax) :
    (splitTableBlock policy block).blocks = [block] := by
  unfold splitTableBlock
  cases htable : Block.tableToSplit block with
  | none => rfl
  | some table =>
    have hwhole : ((parseMarkdownRows table.markdown).2.length : Int) ≤ policy.wholeMax := by
      simpa [dataLines, htable] using h
    have hclassify : classifyTable policy (parseMarkdownRows table.markdown).2.length = .whole := if_pos hwhole
    simp only [hclassify]

/-- The blocks of a table that is split, of single rows as of segments. -/
theorem splitTableBlock_split {policy : TablePolicy} {block : Block} {table : TableContent}
    (htable : Block.tableToSplit block = some table)
    (hlarge : policy.wholeMax < (dataLines block).length) :
    (splitTableBlock policy block).blocks =
      (windows (segmentSize policy (dataLines block).length).1 (segmentSize policy (dataLines block).length).2
        (dataLines block)).mapIdx fun i window =>
          derive block table (renderTable (headerLines block) window) window.length i := by
  have hdata : dataLines block = (parseMarkdownRows table.markdown).2 := by rw [dataLines, htable]; rfl
  have hheader : headerLines block = (parseMarkdownRows table.markdown).1 := by rw [headerLines, htable]; rfl
  rw [hdata] at hlarge ⊢
  rw [hheader]
  unfold splitTableBlock segmentSize classifyTable
  simp only [htable, if_neg (Int.not_le.mpr hlarge)]
  by_cases hsegments : ((parseMarkdownRows table.markdown).2.length : Int) ≤ policy.segmentMax
  · simp only [if_pos hsegments]
  · simp only [if_neg hsegments]
    rw [windows_one]
    exact List.ext_getElem (by simp) fun i _ _ => by simp

theorem dataLines_subset {block : Block} {table : TableContent} (htable : Block.tableToSplit block = some table) :
    headerLines block ++ dataLines block = (strippedLines table.markdown).filter startsWithPipe := by
  rw [headerLines, dataLines, htable]
  exact splitHeader_append _

/-- A segment holds the header and its window of rows. -/
theorem tableLines_derive {block : Block} {table : TableContent} (htable : Block.tableToSplit block = some table)
    {window : List Line} (h : ∀ row ∈ window, row ∈ dataLines block) (nRows seq : Nat) :
    tableLines (derive block table (renderTable (headerLines block) window) nRows seq) =
      headerLines block ++ window := by
  have hdata : dataLines block = (parseMarkdownRows table.markdown).2 := by rw [dataLines, htable]; rfl
  have hheader : headerLines block = (parseMarkdownRows table.markdown).1 := by rw [headerLines, htable]; rfl
  rw [hdata] at h
  rw [hheader]
  unfold tableLines derive
  dsimp only
  rw [(parseMarkdownRows_renderTable h).1, List.filter_eq_self]
  intro row hrow
  have hmem : row ∈ (strippedLines table.markdown).filter startsWithPipe := by
    rw [← splitHeader_append ((strippedLines table.markdown).filter startsWithPipe)]
    rcases List.mem_append.mp hrow with hmem | hmem
    · exact List.mem_append_left _ hmem
    · exact List.mem_append_right _ (h row hmem)
  simpa using (isRow_of_mem hmem).ne_nil

theorem mem_split {policy : TablePolicy} {block segment : Block} {table : TableContent}
    (htable : Block.tableToSplit block = some table)
    (hlarge : policy.wholeMax < (dataLines block).length) :
    segment ∈ (splitTableBlock policy block).blocks → ∃ i window,
      window ∈ windows (segmentSize policy (dataLines block).length).1
        (segmentSize policy (dataLines block).length).2 (dataLines block) ∧
      segment = derive block table (renderTable (headerLines block) window) window.length i := by
  rw [splitTableBlock_split htable hlarge, List.mem_mapIdx]
  rintro ⟨i, hi, rfl⟩
  exact ⟨i, _, List.getElem_mem hi, rfl⟩

theorem tableLines_split {policy : TablePolicy} {block : Block} {table : TableContent}
    (htable : Block.tableToSplit block = some table)
    (hlarge : policy.wholeMax < (dataLines block).length) :
    (splitTableBlock policy block).blocks.map tableLines =
      (windows (segmentSize policy (dataLines block).length).1 (segmentSize policy (dataLines block).length).2
        (dataLines block)).map (headerLines block ++ ·) := by
  rw [splitTableBlock_split htable hlarge]
  refine List.ext_getElem (by simp) fun i hi _ => ?_
  simp only [List.length_map, List.length_mapIdx] at hi
  simp only [List.getElem_map, List.getElem_mapIdx]
  exact tableLines_derive htable (fun row hrow => (windows_sublist (List.getElem_mem hi)).1.subset hrow) _ _

theorem toString_nat_injective {i j : Nat} (h : toString i = toString j) : i = j := by
  have hvalue := congrArg (fun text : String => Nat.ofDigitChars 10 text.toList 0) h
  simpa [toString] using hvalue

/-- The ids of the blocks are distinct, and none is the id of the table. -/
theorem blockIds_split {policy : TablePolicy} {block : Block} {table : TableContent}
    (htable : Block.tableToSplit block = some table)
    (hlarge : policy.wholeMax < (dataLines block).length) :
    ((splitTableBlock policy block).blocks.map Block.blockId).Nodup ∧
      ∀ segment ∈ (splitTableBlock policy block).blocks, segment.blockId ≠ block.blockId := by
  constructor
  · rw [splitTableBlock_split htable hlarge, List.nodup_iff_injective_getElem]
    rintro ⟨i, hi⟩ ⟨j, hj⟩ heq
    simp only [List.getElem_map, List.getElem_mapIdx, derive, String.append_assoc] at heq
    have htail := String.append_right_inj _ |>.mp heq
    exact Fin.ext (toString_nat_injective (String.append_right_inj _ |>.mp htail))
  · intro segment hmem heq
    obtain ⟨i, window, -, rfl⟩ := mem_split htable hlarge hmem
    have hlength := congrArg String.length heq
    simp only [derive, String.length_append] at hlength
    have hmark : "#t".length = 2 := rfl
    omega

/-- Lines that are all rows are the header and the data. -/
theorem tableLines_eq {block : Block} {table : TableContent} (htable : Block.tableToSplit block = some table)
    (h : ∀ line ∈ tableLines block, startsWithPipe line = true) :
    tableLines block = headerLines block ++ dataLines block := by
  have hsome : block.table = some table := by
    unfold Block.tableToSplit at htable
    split at htable
    · exact (Option.filter_eq_some_iff.mp htable).1
    · cases htable
  rw [dataLines_subset htable]
  unfold tableLines at h ⊢
  rw [hsome] at h ⊢
  dsimp only at h ⊢
  refine List.filter_congr fun line hline => ?_
  cases hempty : line.isEmpty with
  | true =>
    obtain rfl := List.isEmpty_iff.mp hempty
    rfl
  | false => exact (h line (List.mem_filter.mpr ⟨hline, by simp [hempty]⟩)).symm ▸ rfl

theorem rowsKept_whole {policy : TablePolicy} {block : Block}
    (h : (splitTableBlock policy block).blocks = [block]) : RowsKept policy block where
  contains line hline := ⟨block, by rw [h]; exact List.mem_singleton_self block, hline⟩
  inOrder := .inl h
  distinct := by rw [h]; exact List.nodup_singleton _

theorem rowsKept_iff {policy : TablePolicy} (hrows : 0 < policy.rowsPerSegment) (block : Block) :
    RowsKept policy block ↔ SplitsClean policy block := by
  by_cases hwhole : Block.tableToSplit block = none ∨ (dataLines block).length ≤ policy.wholeMax
  · refine iff_of_true (rowsKept_whole (splitTableBlock_whole hwhole)) ?_
    exact hwhole.imp id .inl
  obtain ⟨hne, hlarge⟩ := not_or.mp hwhole
  obtain ⟨table, htable⟩ := Option.ne_none_iff_exists'.mp hne
  have hlarge := Int.not_le.mp hlarge
  obtain ⟨hstep, hsize⟩ := segmentSize_bounds hrows (dataLines block).length
  obtain ⟨hdistinct, hother⟩ := blockIds_split htable hlarge
  have hsegments := tableLines_split htable hlarge
  constructor
  · intro hkept
    have hpiped : ∀ line ∈ tableLines block, startsWithPipe line = true := by
      intro line hline
      obtain ⟨segment, hsegment, hmem⟩ := hkept.contains line hline
      obtain ⟨i, window, hwindow, rfl⟩ := mem_split htable hlarge hsegment
      have hsubset := (windows_sublist hwindow).1.subset
      rw [tableLines_derive htable fun row hrow => hsubset hrow] at hmem
      have hrow : line ∈ headerLines block ++ dataLines block :=
        (List.mem_append.mp hmem).elim (List.mem_append_left _)
          fun hmem => List.mem_append_right _ (hsubset hmem)
      rw [dataLines_subset htable] at hrow
      exact (isRow_of_mem hrow).piped
    have hlines := tableLines_eq htable hpiped
    refine .inr (.inr ⟨hpiped, fun hnil => ?_, fun hsegmented => ?_⟩)
    · -- without a data row there is no block to hold the header
      have hempty : (splitTableBlock policy block).blocks = [] := by
        rw [splitTableBlock_split htable hlarge, hnil, windows_nil]
        rfl
      refine List.eq_nil_iff_forall_not_mem.mpr fun line hline => ?_
      obtain ⟨segment, hsegment, -⟩ := hkept.contains line (hlines ▸ List.mem_append_left _ hline)
      rw [hempty] at hsegment
      cases hsegment
    · rcases hkept.inOrder with hself | ⟨segments, rows, hrest, hmap, hunrolls⟩
      · exact absurd rfl (hother block (hself ▸ List.mem_singleton_self block))
      obtain rfl : rows = dataLines block := List.append_cancel_left (hrest.symm.trans hlines)
      obtain rfl : segments = _ := (List.map_injective_iff.mpr (List.append_right_injective _))
        (hmap.symm.trans hsegments)
      by_cases hnil : dataLines block = []
      · rw [hnil]
        exact .inl (Nat.zero_le _)
      · have hlast := (unrolls_windows_iff hstep hsize hnil).mp hunrolls
        rwa [segmentSize, if_pos hsegmented] at hlast
  · rintro (hnone | hsmall | ⟨hpiped, hheader, hlast⟩)
    · exact absurd hnone hne
    · omega
    have hlines := tableLines_eq htable hpiped
    refine ⟨fun line hline => ?_, .inr ⟨_, dataLines block, hlines, hsegments, ?_⟩, hdistinct⟩
    · have hwindow : ∃ window ∈ windows (segmentSize policy (dataLines block).length).1
          (segmentSize policy (dataLines block).length).2 (dataLines block),
          line ∈ headerLines block ++ window := by
        rcases List.mem_append.mp (hlines ▸ hline) with hmem | hmem
        · have hne : dataLines block ≠ [] := fun hnil => by
            rw [hheader hnil] at hmem
            cases hmem
          exact ⟨_, windows_eq hstep hne ▸ List.mem_cons_self, List.mem_append_left _ hmem⟩
        · obtain ⟨window, hwindow, hrow⟩ := exists_mem_windows hstep hsize hmem
          exact ⟨window, hwindow, List.mem_append_right _ hrow⟩
      obtain ⟨window, hwindow, hmem⟩ := hwindow
      have hsegment : headerLines block ++ window ∈ (splitTableBlock policy block).blocks.map tableLines :=
        hsegments ▸ List.mem_map_of_mem hwindow
      obtain ⟨segment, hsegment, heq⟩ := List.mem_map.mp hsegment
      exact ⟨segment, hsegment, heq ▸ hmem⟩
    · by_cases hnil : dataLines block = []
      · rw [hnil, windows_nil]
        rfl
      · refine (unrolls_windows_iff hstep hsize hnil).mpr ?_
        unfold segmentSize
        split
        · case isTrue hsegmented => exact hlast hsegmented
        · exact .inr (Nat.zero_le _)

/-! ## The policy applied again -/

/-- A segment is small enough to be left as it is. -/
theorem dataLines_derive {policy : TablePolicy} {block : Block} {table : TableContent}
    (htable : Block.tableToSplit block = some table) {window : List Line}
    (h : ∀ row ∈ window, row ∈ dataLines block) (hsmall : (window.length : Int) ≤ policy.wholeMax)
    (nRows seq : Nat) :
    let segment := derive block table (renderTable (headerLines block) window) nRows seq
    Block.tableToSplit segment = none ∨ (dataLines segment).length ≤ policy.wholeMax := by
  intro segment
  have hdata : dataLines block = (parseMarkdownRows table.markdown).2 := by rw [dataLines, htable]; rfl
  have hheader : headerLines block = (parseMarkdownRows table.markdown).1 := by rw [headerLines, htable]; rfl
  cases hsegment : Block.tableToSplit segment with
  | none => exact .inl rfl
  | some written =>
    right
    have hwritten : written.markdown = renderTable (headerLines block) window := by
      have htype : segment.type = .table := rfl
      rw [Block.tableToSplit, if_pos htype] at hsegment
      obtain ⟨hsome, -⟩ := Option.filter_eq_some_iff.mp hsegment
      rw [← Option.some.inj hsome]
    rw [hdata] at h
    rw [hheader] at hwritten
    rw [dataLines, hsegment, Option.elim_some, hwritten, (parseMarkdownRows_renderTable h).2]
    exact hsmall

/-- Every block of a rebuilt page is left as it is. -/
theorem settled_of_mem {policy : TablePolicy} (hrows : 0 < policy.rowsPerSegment)
    (hle : (policy.rowsPerSegment : Int) ≤ policy.wholeMax) {blocks : List Block} {segment : Block}
    (h : segment ∈ rebuildBlocks policy blocks) :
    Block.tableToSplit segment = none ∨ (dataLines segment).length ≤ policy.wholeMax := by
  obtain ⟨block, -, hmem⟩ := List.mem_flatMap.mp h
  cases htable : Block.tableToSplit block with
  | none =>
    simp only [htable, Option.isSome_none, Bool.false_eq_true, if_false, List.mem_singleton] at hmem
    exact .inl (hmem ▸ htable)
  | some table =>
    simp only [htable, Option.isSome_some, if_true] at hmem
    by_cases hsmall : ((dataLines block).length : Int) ≤ policy.wholeMax
    · rw [splitTableBlock_whole (.inr hsmall), List.mem_singleton] at hmem
      exact .inr (hmem ▸ hsmall)
    · obtain ⟨i, window, hwindow, rfl⟩ := mem_split htable (Int.not_le.mp hsmall) hmem
      obtain ⟨hsublist, hlength⟩ := windows_sublist hwindow
      have hsize : (segmentSize policy (dataLines block).length).1 ≤ policy.rowsPerSegment := by
        unfold segmentSize
        split <;> omega
      exact dataLines_derive htable (fun row hrow => hsublist.subset hrow) (by omega) _ _

theorem rebuildBlocks_settled {policy : TablePolicy} {blocks : List Block}
    (h : ∀ block ∈ blocks, Block.tableToSplit block = none ∨ (dataLines block).length ≤ policy.wholeMax) :
    rebuildBlocks policy blocks = blocks := by
  induction blocks with
  | nil => rfl
  | cons block blocks ih =>
    obtain ⟨hblock, hblocks⟩ := List.forall_mem_cons.mp h
    have hrest := ih hblocks
    unfold rebuildBlocks at hrest ⊢
    rw [List.flatMap_cons, hrest, splitTableBlock_whole hblock, ite_self, List.singleton_append]

theorem applyTablePolicy_twice {policy : TablePolicy} (hrows : 0 < policy.rowsPerSegment)
    (hle : (policy.rowsPerSegment : Int) ≤ policy.wholeMax) (doc : DocIR) :
    applyTablePolicy policy (applyTablePolicy policy doc) = applyTablePolicy policy doc := by
  unfold applyTablePolicy
  dsimp only
  rw [List.map_map]
  refine congrArg (fun pages => { doc with pages := pages }) (List.map_congr_left fun page _ => ?_)
  simp only [Function.comp_apply, rebuildBlocks_settled fun segment hsegment => settled_of_mem hrows hle hsegment]

/-- A table block keeps its rows, once and in order, exactly when it is left whole or splits
    clean; and applied to its own documents the policy changes nothing. -/
theorem table_rows_kept_iff {policy : TablePolicy} (hrows : 0 < policy.rowsPerSegment) (block : Block) :
    (RowsKept policy block ∧ ((policy.rowsPerSegment : Int) ≤ policy.wholeMax → ∀ doc,
      applyTablePolicy policy (applyTablePolicy policy doc) = applyTablePolicy policy doc)) ↔
    SplitsClean policy block := by
  rw [← rowsKept_iff hrows block]
  constructor
  · exact fun h => h.1
  · exact fun h => ⟨h, fun hle doc => applyTablePolicy_twice hrows hle doc⟩

/-- A table of `n` rows of data. -/
def numberedTable (n : Nat) : Block where
  blockId := "tbl"
  type := .table
  table := some
    { markdown := renderTable ["| n |".toList, "|---|".toList]
        ((List.range n).map fun i => ("| " ++ toString i ++ " |").toList) }

/-- Segments of three rows, one of them carried over. -/
def smallSegments : TablePolicy where
  rowsPerSegment := 3
  overlapRows := 1
  wholeMax := 3

/-- Six rows make three segments. -/
theorem table_rows_kept_iff_six :
    0 < smallSegments.rowsPerSegment ∧ RowsKept smallSegments (numberedTable 6) := by
  have hclean : SplitsClean smallSegments (numberedTable 6) := by decide +kernel
  exact ⟨by decide, ((table_rows_kept_iff (by decide) (numberedTable 6)).mpr hclean).1⟩

/-- Of five rows the third segment is the last row of the second. -/
theorem tail_segment_repeats :
    ((splitTableBlock smallSegments (numberedTable 5)).blocks.map fun segment =>
      (dataLines segment).length) = [3, 3, 1] ∧
      ¬ RowsKept smallSegments (numberedTable 5) := by
  refine ⟨by decide +kernel, fun hkept => ?_⟩
  have hclean := (rowsKept_iff (by decide) (numberedTable 5)).mp hkept
  exact absurd hclean (by decide +kernel)

end AiPlatform.Knowledge
