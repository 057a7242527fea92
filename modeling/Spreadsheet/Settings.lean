import Spreadsheet.Calendar.Serial

/-!
# Evaluation settings
-/

namespace Spreadsheet

/-- What may change from workbook to workbook in how formulas are evaluated. -/
structure Settings where
  /-- Blanks count as zero in arithmetic; otherwise they are values of the wrong type. -/
  blankAsZero : Bool := true
  /-- How date text becomes a number. -/
  dates : Calendar.DateSystem := .from1900
  /-- How deeply names and shared formulas may expand into each other. -/
  maxNestingDepth : Nat := 64
deriving DecidableEq, Repr

end Spreadsheet
