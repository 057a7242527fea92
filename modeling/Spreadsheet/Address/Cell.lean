import Spreadsheet.Address.Column
import Spreadsheet.Number.Reading

/-!
# Cell addresses

Rows and columns count from zero. A dollar sign in the text marks the coordinate behind it as absolute.
-/

namespace Spreadsheet

structure CellAddress where
  row : Nat
  col : Nat
  rowAbsolute : Bool
  colAbsolute : Bool
deriving DecidableEq, Repr

namespace CellAddress

/-- The address without absolute marks. -/
def relative (row col : Nat) : CellAddress :=
  ⟨row, col, false, false⟩

/-- The same cell, whatever the absolute marks. -/
def sameCell (a b : CellAddress) : Bool :=
  a.row == b.row && a.col == b.col

/-- By row, then by column; of two addresses of a cell the one with fewer absolute marks comes first. -/
instance : Ord CellAddress where
  compare a b :=
    (compare a.row b.row).then <| (compare a.col b.col).then <|
      (compare a.rowAbsolute b.rowAbsolute).then (compare a.colAbsolute b.colAbsolute)

/-- Within the rows and columns of a sheet. -/
def InBounds (a : CellAddress) : Prop :=
  a.row < maxRows ∧ a.col < maxCols

instance (a : CellAddress) : Decidable a.InBounds :=
  inferInstanceAs (Decidable (_ ∧ _))

def mark (absolute : Bool) : List Char :=
  if absolute then ['$'] else []

def chars (a : CellAddress) : List Char :=
  mark a.colAbsolute ++ Column.letters a.col ++ mark a.rowAbsolute ++ Nat.toDigits 10 (a.row + 1)

/-- The address in A1 notation. -/
def text (a : CellAddress) : String :=
  String.ofList a.chars

instance : ToString CellAddress := ⟨text⟩

/-- An absolute mark at the front, if any, and the rest. -/
def splitMark : List Char → Bool × List Char
  | '$' :: s => (true, s)
  | s => (false, s)

/-- Row numbers from here on are not read; they need more than 32 bits. -/
def rowNumberLimit : Nat := 0x100000000

/-- The zero-based row of a number; `whole` is the text to blame. -/
def readRow (whole digits : List Char) : Except AddressError Nat :=
  if digits.isEmpty then .error (.noRow (String.ofList whole)) else
  if digits.any (!·.isDigit) then .error (.badRow (String.ofList whole)) else
  let n := Number.digitsValue digits
  if n ≥ rowNumberLimit then .error (.badRow (String.ofList whole)) else
  if n = 0 then .error (.rowZero (String.ofList whole)) else
  if n > maxRows then .error (.rowOutOfBounds (n - 1)) else .ok (n - 1)

def readTrimmed (s : List Char) : Except AddressError CellAddress :=
  if s.isEmpty then .error .empty else
  let (colAbsolute, rest) := splitMark s
  let letters := rest.takeWhile Char.isAlpha
  if letters.isEmpty then .error (.noColumn (String.ofList s)) else
  match Column.read letters with
  | .error e => .error e
  | .ok col =>
    let (rowAbsolute, digits) := splitMark (rest.dropWhile Char.isAlpha)
    (readRow s digits).map fun row => ⟨row, col, rowAbsolute, colAbsolute⟩

def readChars (s : List Char) : Except AddressError CellAddress :=
  readTrimmed (Text.trim s)

/-- The address that a text in A1 notation names. -/
def read (s : String) : Except AddressError CellAddress :=
  readChars s.toList

end CellAddress

end Spreadsheet
