import Spreadsheet.Formula.Error

/-!
# What can go wrong in a workbook
-/

namespace Spreadsheet

inductive WorkbookError where
  | address (e : AddressError)
  | emptySheetName
  | longSheetName
  | sheetNameChar (c : Char)
  | duplicateSheetName (name : String)
  | formula (e : FormulaError)
  | sheetOutOfBounds (index count : Nat)
  | malformedName (name : String)
  | nameTaken (name : String)
  | tooManyNames (name : String)
deriving DecidableEq, Repr

def WorkbookError.message : WorkbookError → String
  | address e => e.message
  | emptySheetName => "Invalid sheet name: Sheet name cannot be empty"
  | longSheetName => s!"Invalid sheet name: Sheet name too long (max {maxSheetName} characters)"
  | sheetNameChar c => s!"Invalid sheet name: Sheet name cannot contain '{c}'"
  | duplicateSheetName name => s!"Sheet name already exists: {name}"
  | formula e => s!"formula error: {e.message}"
  | sheetOutOfBounds index count => s!"Sheet index {index} out of bounds (count: {count})"
  | malformedName name => s!"Invalid defined name: {name}"
  | nameTaken name => s!"Invalid defined name: '{name}' is already defined"
  | tooManyNames name => s!"Invalid defined name: too many names to add '{name}'"

end Spreadsheet
