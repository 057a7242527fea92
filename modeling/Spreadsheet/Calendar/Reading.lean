import Spreadsheet.Calendar.Serial
import Spreadsheet.Number.Reading

/-!
# Dates from text

A text is tried against a few layouts in turn, and the first one that fits the whole text and names an existing date
gives the date. Blanks may stand before a number inside a layout. A year has up to four digits, or a sign and any
number of digits.
-/

namespace Spreadsheet.Calendar

/-- What stands at one place of a layout. -/
inductive Field where
  | day
  | month
  | monthName
  | year
  | shortYear
  | mark (c : Char)
deriving DecidableEq, Repr

def layouts : List (List Field) :=
  [[.month, .mark '/', .day, .mark '/', .shortYear],
   [.month, .mark '/', .day, .mark '/', .year],
   [.year, .mark '-', .month, .mark '-', .day],
   [.year, .mark '/', .month, .mark '/', .day],
   [.day, .mark '-', .monthName, .mark '-', .year]]

def monthNames : List (List Char) :=
  ["jan", "feb", "mar", "apr", "may", "jun", "jul", "aug", "sep", "oct", "nov", "dec"].map String.toList

/-- Up to `width` digits at the front, at least one. -/
def readDigits (width : Nat) (s : List Char) : Option (Nat × List Char) :=
  let ds := (s.take width).takeWhile Char.isDigit
  if ds.isEmpty then none else some (Number.digitsValue ds, s.drop ds.length)

/-- Two digits of a year mean 1970 to 2069. -/
def centuryOf (n : Nat) : Int :=
  if n < 70 then 2000 + n else 1900 + n

/-- The name of a month at the front, in any case: its number and the rest. -/
def readMonthName (s : List Char) : Option (Nat × List Char) :=
  (monthNames.idxOf? ((s.take 3).map Char.toLower)).map fun i => (i + 1, s.drop 3)

def readYear : List Char → Option (Int × List Char)
  | '-' :: s => (readDigits s.length s).map fun (n, s) => (-(n : Int), s)
  | '+' :: s => (readDigits s.length s).map fun (n, s) => ((n : Int), s)
  | s => (readDigits 4 s).map fun (n, s) => ((n : Int), s)

/-- Read one field into a partial date. -/
def readField (f : Field) (d : Date) (s : List Char) : Option (Date × List Char) :=
  match f with
  | .day => (readDigits 2 (Text.trimLeft s)).map fun (n, s) => ({ d with day := n }, s)
  | .month => (readDigits 2 (Text.trimLeft s)).map fun (n, s) => ({ d with month := n }, s)
  | .monthName => (readMonthName s).map fun (n, s) => ({ d with month := n }, s)
  | .year => (readYear (Text.trimLeft s)).map fun (y, s) => ({ d with year := y }, s)
  | .shortYear => (readDigits 2 (Text.trimLeft s)).map fun (n, s) => ({ d with year := centuryOf n }, s)
  | .mark c => if s.head? = some c then some (d, s.tail) else none

/-- Read a whole layout; nothing may be left over. -/
def readLayout : List Field → Date → List Char → Option Date
  | [], d, [] => some d
  | [], _, _ :: _ => none
  | f :: fs, d, s => (readField f d s).bind fun (d, s) => readLayout fs d s

/-- Years for which dates are read. -/
def yearInRange (y : Int) : Bool :=
  -262143 ≤ y && y ≤ 262142

def readDateChars? (s : List Char) : Option Date :=
  layouts.findSome? fun layout =>
    (readLayout layout ⟨0, 0, 0⟩ (Text.trim s)).filter fun d => yearInRange d.year && d.Valid

/-- The date that a text names. -/
def readDate? (s : String) : Option Date :=
  readDateChars? s.toList

/-- The serial number of the date that a text names. -/
def DateSystem.readSerial? (sys : DateSystem) (s : String) : Option Float :=
  (readDate? s).map sys.serialNumber

end Spreadsheet.Calendar
