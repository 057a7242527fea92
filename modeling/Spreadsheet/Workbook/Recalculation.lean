import Spreadsheet.Workbook.Session

/-!
# Recalculation

The value of a formula or of a single cell, and the recalculation of all formula cells in one session.
-/

namespace Spreadsheet.Workbook

/-- The outcome of a computation in a new session. -/
def runSession {α : Type} (sheet : Nat) (x : Eval Session α) : Except FormulaError α :=
  (x.run (Session.new sheet)).1

/-- The value of a formula as if it were on a sheet. -/
def evaluate (wb : Workbook) (sheet : Nat) (tokens : List Token) : Except WorkbookError Value := do
  let i ← wb.checkSheet sheet
  (runSession i (evaluateValue wb.scope tokens)).mapError .formula

/-- A fault as the error value that the cell shows; other errors stay. -/
def shownInCell : Except FormulaError Scalar → Except FormulaError Scalar
  | .ok v => .ok v
  | .error e =>
    match e.fault? with
    | some f => .ok (.error f.shown)
    | none => .error e

/-- The value of a cell. -/
def evaluateCell (wb : Workbook) (sheet : Nat) (address : String) : Except WorkbookError Scalar := do
  let i ← wb.checkSheet sheet
  let p ← Sheet.readPosition address
  (shownInCell (runSession i (wb.cellValue ⟨i, p⟩))).mapError .formula

/-- What a recalculation did. -/
structure Stats where
  /-- Formula cells found. -/
  formulas : Nat
  /-- Results stored. -/
  calculated : Nat
  /-- Results that are error values. -/
  errors : Nat
  /-- Cells whose value depends on itself. -/
  circular : Nat
deriving DecidableEq, Repr

/-- The result of one formula cell. -/
structure CellResult where
  location : Location
  value : Scalar
  circular : Bool
deriving DecidableEq, Repr

/-- All formula cells, sheet by sheet and row by row. -/
def formulaLocations (wb : Workbook) : List Location :=
  wb.sheets.zipIdx.flatMap fun (sheet, i) => sheet.formulas.map fun (p, _) => ⟨i, p⟩

/-- The outcome of a formula cell as a result to store. -/
def cellResult (l : Location) : Except FormulaError Scalar → Except FormulaError CellResult
  | .ok v => .ok ⟨l, v, false⟩
  | .error e =>
    match e.fault? with
    | some f => .ok ⟨l, .error f.shown, f.isCircular⟩
    | none => .error e

/-- The results of cells in turn, all in one session, with a bound on the attempts for each. -/
def resultsWithin (wb : Workbook) (attempts : Nat) (ls : List Location) : Eval Session (List CellResult) :=
  ls.mapM fun l => do
    Eval.ofExcept (cellResult l (← (wb.settle attempts l []).observe))

/-- The results of all formula cells, unless one has none. -/
def results (wb : Workbook) : Except FormulaError (List CellResult) :=
  runSession 0 (wb.resultsWithin wb.attempts wb.formulaLocations)

/-- Store a result at its cell. -/
def storeResult (wb : Workbook) (r : CellResult) : Workbook :=
  { wb with sheets := wb.sheets.modify r.location.sheet fun s => s.setResult r.location.position r.value }

/-- Store results at their cells one after the other, and go on counting those whose sheet there is. -/
def storeResults (count : Nat) : List CellResult → Action Workbook Nat
  | [] => pure count
  | r :: rs => do
    if ((← get).sheet? r.location.sheet).isSome then
      modify (·.storeResult r)
      storeResults (count + 1) rs
    else storeResults count rs

/-- Evaluate every formula cell, and then store the results. -/
def calculate : Action Workbook Stats := do
  let rs ← (← get).results.mapError WorkbookError.formula
  let calculated ← storeResults 0 rs
  return {
    formulas := rs.length
    calculated
    errors := rs.countP (·.value.isError)
    circular := rs.countP (·.circular) }

end Spreadsheet.Workbook
