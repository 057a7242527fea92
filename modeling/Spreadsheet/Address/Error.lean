/-!
# Why a text is no reference
-/

namespace Spreadsheet

/-- Rows of a sheet. -/
def maxRows : Nat := 65536

/-- Columns of a sheet. -/
def maxCols : Nat := 256

/-- Characters of a sheet name. -/
def maxSheetName : Nat := 31

/-- What is wrong with the text of an address, an area or a sheet-qualified reference. -/
inductive AddressError where
  | empty
  | noColumn (text : String)
  | noLetters
  | badLetter (c : Char)
  | columnOutOfBounds (col : Nat)
  | noRow (text : String)
  | badRow (text : String)
  | rowZero (text : String)
  | rowOutOfBounds (row : Nat)
  | badCorner (area : String) (cause : AddressError)
  | badSheet (name : String)
deriving DecidableEq, Repr

def AddressError.message : AddressError → String
  | .empty => "Invalid cell address: empty address"
  | .noColumn s => s!"Invalid cell address: no column letters in '{s}'"
  | .noLetters => "Invalid cell address: empty column letters"
  | .badLetter c => s!"Invalid cell address: invalid column letter '{c}'"
  | .columnOutOfBounds col => s!"Column index {col} out of bounds (max: {maxCols - 1})"
  | .noRow s => s!"Invalid cell address: no row number in '{s}'"
  | .badRow s => s!"Invalid cell address: invalid row number in '{s}'"
  | .rowZero s => s!"Invalid cell address: row number must be >= 1 in '{s}'"
  | .rowOutOfBounds row => s!"Row index {row} out of bounds (max: {maxRows - 1})"
  | .badCorner area cause => s!"Invalid cell range: '{area}': {cause.message}"
  | .badSheet name => s!"Invalid sheet name: {name}"

end Spreadsheet
