import Spreadsheet.Address.Range

/-!
# References with a sheet name

A reference may name its sheet in front of an exclamation mark. A sheet name with anything but ASCII letters, digits,
underscores and points in it is written in apostrophes, with each apostrophe of the name doubled.
-/

namespace Spreadsheet

/-- A range, the sheet it is on if it says so, and whether its text has a colon. -/
structure SheetReference where
  sheet : Option String
  range : CellRange
  isArea : Bool
deriving DecidableEq, Repr

namespace SheetName

/-- Characters of a name that needs no apostrophes. -/
def isPlainChar (c : Char) : Bool :=
  c.isAlphanum || c == '_' || c == '.'

def escape : List Char → List Char
  | [] => []
  | c :: s => if c = '\'' then '\'' :: '\'' :: escape s else c :: escape s

def unescape : List Char → List Char
  | [] => []
  | '\'' :: '\'' :: s => '\'' :: unescape s
  | c :: s => c :: unescape s

/-- The name as it stands before an address, exclamation mark included. -/
def qualifier (name : String) : List Char :=
  if name.toList.all isPlainChar then name.toList ++ ['!'] else '\'' :: escape name.toList ++ ['\'', '!']

/-- The text between an apostrophe at the front and one at the end. -/
def quoted? : List Char → Option (List Char)
  | '\'' :: s => if s.getLast? = some '\'' then some s.dropLast else none
  | _ => none

/-- The name that stands before an exclamation mark. -/
def read (s : List Char) : Except AddressError String :=
  let s := Text.trim s
  let name := match quoted? s with
    | some inner => unescape inner
    | none => s
  if name.isEmpty || name.length > maxSheetName then .error (.badSheet (String.ofList name)) else
  .ok (String.ofList name)

end SheetName

namespace SheetReference

/-- A reference to one cell. -/
def cell (sheet : Option String) (a : CellAddress) : SheetReference :=
  ⟨sheet, .single a, false⟩

/-- A reference to a range with both corners written out. -/
def area (sheet : Option String) (r : CellRange) : SheetReference :=
  ⟨sheet, r, true⟩

def chars (r : SheetReference) : List Char :=
  (match r.sheet with
    | some name => SheetName.qualifier name
    | none => []) ++
  if r.isArea then r.range.cornerChars else r.range.chars

/-- The reference as formula text. -/
def text (r : SheetReference) : String :=
  String.ofList r.chars

instance : ToString SheetReference := ⟨text⟩

/-- The text before the last exclamation mark and the text behind it. -/
def splitSheet? (s : List Char) : Option (List Char × List Char) :=
  match s.reverse.dropWhile (· != '!') with
  | _ :: before => some (before.reverse, (s.reverse.takeWhile (· != '!')).reverse)
  | [] => none

def readTrimmed (s : List Char) : Except AddressError SheetReference :=
  match splitSheet? s with
  | none => (CellRange.readChars s).map (⟨none, ·, s.contains ':'⟩)
  | some (before, location) => do
    let sheet ← SheetName.read before
    let range ← CellRange.readChars location
    return ⟨some sheet, range, location.contains ':'⟩

def readChars (s : List Char) : Except AddressError SheetReference :=
  readTrimmed (Text.trim s)

/-- The reference that a text names. -/
def read (s : String) : Except AddressError SheetReference :=
  readChars s.toList

end SheetReference

end Spreadsheet
