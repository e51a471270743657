/-
  AiPlatform.Knowledge.ParsingIr

  The pages and blocks a parsed document is made of (`parsing/ir.py`).

  A float is finite and is its value; metadata are what JSON can hold.
-/

import Mathlib.Data.Rat.Defs
import AiPlatform.Capability.PythonCanonical

namespace AiPlatform.Knowledge

open Capability (PyValue)

namespace Parsing

inductive BlockType where
  | text
  | heading
  | table
  | formula
  | figure
  | list
  | caption
  | code
  | unknown
deriving DecidableEq, Repr

structure BBox where
  x0 : ℚ
  y0 : ℚ
  x1 : ℚ
  y1 : ℚ

structure TableContent where
  markdown : String := ""
  html : Option String := none
  nRows : Int := 0
  nCols : Int := 0
  headerRows : Int := 1
  hasMergedCells : Bool := false
  columnSemantics : List String := []
  summary : Option String := none

structure FormulaContent where
  latex : String := ""
  display : Bool := true

structure FigureContent where
  imageRef : Option String := none
  mime : Option String := none
  description : Option String := none

/-- One structural unit inside a page. -/
structure Block where
  blockId : String
  type : BlockType := .text
  text : String := ""
  order : Int := 0
  bbox : Option BBox := none
  parser : String := ""
  parserVersion : String := ""
  confidence : Option ℚ := none
  table : Option TableContent := none
  formula : Option FormulaContent := none
  figure : Option FigureContent := none
  metadata : List (String × PyValue) := []

structure PageIR where
  pageNumber : Int
  blocks : List Block := []
  parser : String := ""
  parserVersion : String := ""
  pageWidth : Option ℚ := none
  pageHeight : Option ℚ := none
  confidence : Option ℚ := none
  hardPage : Bool := false
  metadata : List (String × PyValue) := []

structure DocIR where
  docId : String
  contentHash : String := ""
  filename : String := ""
  mime : Option String := none
  schemaVersion : String := "1"
  pages : List PageIR := []
  metadata : List (String × PyValue) := []

end Parsing

end AiPlatform.Knowledge
