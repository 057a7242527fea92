import Std.Data.TreeMap
import Spreadsheet.Formula.Token
import Spreadsheet.Workbook.Action

/-!
# Sheets

A sheet stores constants, formulas and shared formulas by position, and the results of the last recalculation. Every
edit drops the result of the cell it changes.
-/

namespace Spreadsheet

/-- A cell of a sheet. -/
structure Position where
  row : Nat
  col : Nat
deriving DecidableEq, Repr

namespace Position

/-- By rows, and along each row by columns. -/
abbrev order : Position → Position → Ordering :=
  compareLex (compareOn row) (compareOn col)

instance : Std.LawfulEqCmp order where
  eq_of_compare {a b} h := by
    simp only [compareLex, compareOn, Ordering.then_eq_eq, Nat.compare_eq_eq] at h
    cases a
    cases b
    simp_all

end Position

def CellAddress.position (a : CellAddress) : Position :=
  ⟨a.row, a.col⟩

/-- What a cell that is not blank holds. -/
inductive Cell where
  | constant (v : Scalar)
  | formula (tokens : List Token)
deriving DecidableEq, Repr

namespace Cell

def isFormula : Cell → Bool
  | constant _ => false
  | formula _ => true

def formula? : Cell → Option (List Token)
  | constant _ => none
  | formula tokens => some tokens

def constant? : Cell → Option Scalar
  | constant v => some v
  | formula _ => none

end Cell

/-- What belongs to the positions of a sheet. -/
abbrev Grid (α : Type) := Std.TreeMap Position α Position.order

structure Sheet where
  name : String
  cells : Grid Cell := ∅
  sharedFormulas : Grid (List Token) := ∅
  results : Grid Scalar := ∅

namespace Sheet

/-- The position, if it is on a sheet. -/
def checkBounds (p : Position) : Except WorkbookError Position :=
  if p.row ≥ maxRows then .error (.address (.rowOutOfBounds p.row)) else
  if p.col ≥ maxCols then .error (.address (.columnOutOfBounds p.col)) else .ok p

/-- The position of an address text. -/
def readPosition (s : String) : Except WorkbookError Position :=
  match CellAddress.read s with
  | .ok a => .ok a.position
  | .error e => .error (.address e)

/-- Change what a position holds; nothing makes it blank. -/
def put (sheet : Sheet) (p : Position) : Option Cell → Sheet
  | some c => { sheet with cells := sheet.cells.insert p c, results := sheet.results.erase p }
  | none => { sheet with cells := sheet.cells.erase p, results := sheet.results.erase p }

/-- A constant as cell content; the empty constant is no content. -/
def ofConstant : Scalar → Option Cell
  | .empty => none
  | v => some (.constant v)

def setValue (p : Position) (v : Scalar) : Action Sheet Unit := do
  let p ← checkBounds p
  modify (·.put p (ofConstant v))

def setFormula (p : Position) (tokens : List Token) : Action Sheet Unit := do
  let p ← checkBounds p
  modify (·.put p (some (.formula tokens)))

/-- Register the formula that cells share under an anchor. -/
def setShared (anchor : String) (tokens : List Token) : Action Sheet Unit := do
  let p ← readPosition anchor
  modify fun sheet => { sheet with sharedFormulas := sheet.sharedFormulas.insert p tokens }

def cell? (sheet : Sheet) (p : Position) : Option Cell :=
  sheet.cells[p]?

/-- The constant at a position; formulas and blanks have none. -/
def constant? (sheet : Sheet) (p : Position) : Option Scalar :=
  (sheet.cell? p).bind Cell.constant?

def shared? (sheet : Sheet) (anchor : Position) : Option (List Token) :=
  sheet.sharedFormulas[anchor]?

/-- The result of the last recalculation. -/
def result? (sheet : Sheet) (p : Position) : Option Scalar :=
  sheet.results[p]?

def setResult (sheet : Sheet) (p : Position) (v : Scalar) : Sheet :=
  { sheet with results := sheet.results.insert p v }

/-- All formulas, row by row. -/
def formulas (sheet : Sheet) : List (Position × List Token) :=
  sheet.cells.toList.filterMap fun (p, c) => c.formula?.map (p, ·)

/-- How many cells are not blank. -/
def cellCount (sheet : Sheet) : Nat :=
  sheet.cells.size

end Sheet

end Spreadsheet
