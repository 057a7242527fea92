import Spreadsheet.Criteria.Basic
import Spreadsheet.Evaluation.Operand

/-!
# Selection by criteria

COUNTIF counts the cells that a criteria selects. SUMIF adds up the cells at their places in a second range, which takes
the shape of the first one from its own top-left cell on.
-/

namespace Spreadsheet.Selection

variable {σ : Type}

/-- The value of a cell to be selected. -/
def cellValue (s : Scope σ) (t : Token) : Eval σ Scalar := do
  return (← t.value s).corner.toScalar

/-- The cell is selected. -/
def selected (s : Scope σ) (c : Criteria) (t : Token) : Eval σ Bool := do
  return c.selects s.settings.dates (← cellValue s t)

/-- Go on counting from `n`. -/
def countFrom (s : Scope σ) (c : Criteria) (n : Nat) : List Token → Eval σ Nat
  | [] => pure n
  | t :: rest => do
    let hit ← selected s c t
    countFrom s c (if hit then n + 1 else n) rest

def countIf (s : Scope σ) (args : List Token) : Eval σ Token :=
  match args with
  | [range, criteria] => do
    let c := Criteria.ofValue (← criteria.value s)
    return .number (Float.ofNat (← countFrom s c 0 (← range.parts s)))
  | _ => pure (.ofCode .value)

/-- Rows and columns of a range with `count` cells, as words. Beyond them the numbers of an array wrap, and a row of cells
stops at the greatest one. -/
def shape (range : Token) (count : Nat) : Nat × Nat :=
  match range, range.range? with
  | _, some r => (r.rowCount, r.colCount)
  | .array rows, none =>
    (rows.length % CellRange.rowWords, (rows.head?.map List.length).getD 0 % CellRange.colWords)
  | _, none => (1, min count (CellRange.colWords - 1))

/-- The last index of `count` ones from `first` on, but not beyond the sheet. -/
def lastIndex (first count limit : Nat) : Nat :=
  Nat.min (first + (count - 1)) (limit - 1)

/-- A range of a shape, from the top-left cell of another one on. It ends at the edge of the sheet. -/
def reshape (sheet : Option String) (r : CellRange) (size : Nat × Nat) : Token :=
  .area sheet r.start
    (.relative (lastIndex r.start.row size.1 maxRows) (lastIndex r.start.col size.2 maxCols))

/-- The sum range in the shape of the criteria range. Only cells and areas change their shape. -/
def resize (sumRange : Token) (size : Nat × Nat) : Token :=
  match sumRange with
  | .cell sheet a => reshape sheet (.single a) size
  | .area sheet first last => reshape sheet (.between first last) size
  | t => t

/-- Add the value of a cell. Only numbers add anything, and errors end the sum. -/
def addValue (sum : Float) : Value → Except FormulaError Float
  | .number x => .ok (sum + x)
  | .error e => .error (.code e)
  | _ => .ok sum

/-- Go on adding to `sum`, pairing cells with their targets. Cells without a target add nothing. -/
def sumFrom (s : Scope σ) (c : Criteria) (sum : Float) : List Token → List Token → Eval σ Float
  | [], _ => pure sum
  | t :: rest, targets => do
    if ← selected s c t then
      match targets with
      | target :: others => do
        let sum ← Eval.ofExcept (addValue sum (← target.value s).corner)
        sumFrom s c sum rest others
      | [] => sumFrom s c sum rest []
    else sumFrom s c sum rest targets.tail

/-- The cells to add up. -/
def targets (s : Scope σ) (range : Token) (cells : List Token) : Option Token → Eval σ (List Token)
  | none => pure cells
  | some sumRange => (resize sumRange (shape range cells.length)).parts s

def sumIf (s : Scope σ) (args : List Token) : Eval σ Token :=
  match args with
  | range :: criteria :: more => do
    let c := Criteria.ofValue (← criteria.value s)
    let cells ← range.parts s
    let sums ← targets s range cells more.head?
    return .number (← sumFrom s c 0 cells sums)
  | _ => pure (.ofCode .value)

end Spreadsheet.Selection
