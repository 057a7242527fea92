import Spreadsheet.Settings
import Spreadsheet.Calendar.Reading
import Spreadsheet.Value.Scalar

/-!
# Values

A resolved operand: a scalar, or a table of values row by row. The rows of a table need not be equally long.
-/

namespace Spreadsheet

inductive Value where
  | empty
  | boolean (b : Bool)
  | number (x : Float)
  | text (s : String)
  | error (e : ErrorCode)
  | array (rows : List (List Value))
deriving Repr, BEq, Inhabited

namespace Value

def ofScalar : Scalar → Value
  | .empty => empty
  | .boolean b => boolean b
  | .number x => number x
  | .text s => text s
  | .error e => error e

/-- The value as one that a cell can hold; a table is an error there. -/
def toScalar : Value → Scalar
  | empty => .empty
  | boolean b => .boolean b
  | number x => .number x
  | text s => .text s
  | error e => .error e
  | array _ => .error .value

def ofRows (rows : List (List Scalar)) : Value :=
  array (rows.map (·.map ofScalar))

def isArray : Value → Bool
  | array _ => true
  | _ => false

def error? : Value → Option ErrorCode
  | error e => some e
  | _ => none

def isError (v : Value) : Bool :=
  v.error?.isSome

/-- Numbers, and booleans as one and zero. -/
def number? : Value → Option Float
  | number x => some x
  | boolean b => some (if b then 1 else 0)
  | _ => none

/-- The number a value counts as in arithmetic. Text is read as a number, or else as a date. -/
def coerce? (settings : Settings) : Value → Option Float
  | number x => some x
  | boolean b => some (if b then 1 else 0)
  | empty => if settings.blankAsZero then some 0 else none
  | text s =>
    if (Text.trim s.toList).isEmpty then (if settings.blankAsZero then some 0 else none) else
    (Number.ofText? s).or (settings.dates.readSerial? s)
  | error _ | array _ => none

/-- The text of a value in a concatenation or a comparison. -/
def display (v : Value) : String :=
  v.toScalar.display

def isTrueText (v : Value) : Bool :=
  Text.sameAscii v.display "true"

/-- The top-left scalar of a table; an empty table has a blank there. -/
def corner : Value → Value
  | array ((v :: _) :: _) => v.corner
  | array _ => empty
  | v => v

/-- The entries of a table, row by row. -/
def elements : Value → List Value
  | array rows => rows.flatten
  | v => [v]

/-- The width of the first row. -/
def columns : Value → Nat
  | array (row :: _) => row.length
  | array [] => 0
  | _ => 1

/-- Rows of `width + 1` entries; the last row takes what is left. -/
def splitRows (width : Nat) : List Value → List (List Value)
  | [] => []
  | v :: vs => (v :: vs.take width) :: splitRows width (vs.drop width)
termination_by vs => vs.length
decreasing_by
  simp only [List.length_drop, List.length_cons]
  omega

/-- A table of `cols` columns, or one if `cols` is zero. -/
def ofElements (vs : List Value) (cols : Nat) : Value :=
  array (splitRows (cols - 1) vs)

end Value

end Spreadsheet
