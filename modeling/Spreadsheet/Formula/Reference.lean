import Spreadsheet.Address.SheetReference
import Spreadsheet.Formula.Error

/-!
# References

One entry of a reference list: a cell, an area, or a placeholder where a reference was lost.
-/

namespace Spreadsheet

inductive Reference where
  | cell (sheet : Option String) (address : CellAddress)
  | area (sheet : Option String) (range : CellRange)
  | invalid (e : ErrorCode)
deriving DecidableEq, Repr

namespace Reference

def sheet? : Reference → Option String
  | cell sheet _ | area sheet _ => sheet
  | invalid _ => none

/-- The cells referred to. -/
def range? : Reference → Option CellRange
  | cell _ a => some (.single a)
  | area _ r => some r
  | invalid _ => none

/-- The first `n` entries when areas are split into cells. -/
def firstCells (n : Nat) : Reference → List Reference
  | area sheet r => (r.firstCells n).map (cell sheet)
  | r => [r]

/-- An area as its cells, row by row; all else as it is. -/
def cells : Reference → List Reference
  | area sheet r => r.cells.map (cell sheet)
  | r => [r]

def text : Reference → String
  | cell sheet a => (SheetReference.cell sheet a).text
  | area sheet r => (SheetReference.area sheet r).text
  | invalid e => e.text

instance : ToString Reference := ⟨text⟩

/-- The reference of a text, or the two error values that stand for a lost one. -/
def readChars (s : List Char) : Except Fault Reference :=
  let s := Text.trim s
  match ErrorCode.ofChars? s with
  | some .ref => .ok (invalid .ref)
  | some .null => .ok (invalid .null)
  | some _ => .error (.code .value)
  | none =>
    match SheetReference.readChars s with
    | .error _ => .error (.code .value)
    | .ok r => .ok (if r.isArea then area r.sheet r.range else cell r.sheet r.range.start)

def read (s : String) : Except Fault Reference :=
  readChars s.toList

end Reference

end Spreadsheet
