import Spreadsheet.Text.Blank

/-!
# Numbers from text

An optional sign, digits with at most one point among or around them, and an optional exponent. Blanks around the
number are ignored. A number too large to be finite is refused.
-/

namespace Spreadsheet.Number

/-- Decimal notation taken apart: the number is `digits · 10 ^ exponent` up to sign. -/
structure Scientific where
  negative : Bool
  digits : Nat
  exponent : Int
deriving DecidableEq, Repr

def digitsValue (ds : List Char) : Nat :=
  Nat.ofDigitChars 10 ds 0

/-- The sign at the front, if any, and the rest. -/
def splitSign : List Char → Bool × List Char
  | '-' :: s => (true, s)
  | '+' :: s => (false, s)
  | s => (false, s)

/-- The digits at the front and the rest. -/
def splitDigits (s : List Char) : List Char × List Char :=
  (s.takeWhile Char.isDigit, s.dropWhile Char.isDigit)

/-- The fraction digits behind a point at the front, and the rest. -/
def splitFraction : List Char → List Char × List Char
  | '.' :: s => splitDigits s
  | s => ([], s)

/-- An exponent that takes up the whole text; no text is exponent zero. -/
def readExponent? : List Char → Option Int
  | [] => some 0
  | c :: s =>
    if c == 'e' || c == 'E' then
      let (negative, ds) := splitSign s
      if ds.isEmpty || ds.any (!·.isDigit) then none else
      some (if negative then -(digitsValue ds : Int) else digitsValue ds)
    else none

def readScientific? (s : List Char) : Option Scientific :=
  let (negative, s) := splitSign s
  let (whole, s) := splitDigits s
  let (fraction, s) := splitFraction s
  if whole.isEmpty && fraction.isEmpty then none else
  (readExponent? s).map fun e => ⟨negative, digitsValue (whole ++ fraction), e - fraction.length⟩

/-- The nearest floating-point number. -/
def Scientific.value (n : Scientific) : Float :=
  let size := Float.ofScientific n.digits (n.exponent < 0) n.exponent.natAbs
  if n.negative then -size else size

def readChars? (s : List Char) : Option Float :=
  ((readScientific? (Text.trim s)).map Scientific.value).filter Float.isFinite

/-- The number a text denotes. -/
def ofText? (s : String) : Option Float :=
  readChars? s.toList

end Spreadsheet.Number
