import Spreadsheet.Workbook.Error

/-!
# Actions

Sheets and workbooks are changed in place. An action has an outcome, and it leaves a state behind whether it fails or
not: what it has changed before it fails stays changed.
-/

namespace Spreadsheet

/-- A computation that changes a state in place and may fail on the way. -/
abbrev Action (σ α : Type) := ExceptT WorkbookError (StateM σ) α

/-- The outcome of an action, and the state that it leaves. -/
def Action.runOn {σ α : Type} (x : Action σ α) (s : σ) : Except WorkbookError α × σ :=
  x.run s

end Spreadsheet
