import Spreadsheet.Number.Text
import Spreadsheet.Number.Reading

/-!
# Percentages

The hundredth part of a plain decimal number, with decimal digits throughout: a coefficient below `2 ^ 96` and at most
28 places. Digits that no longer fit are rounded away on reading, except before the point, where they make the number
unreadable. The quotient is exact unless it needs more than 28 places; then it is rounded to them, a half to the even
neighbour.
-/

namespace Spreadsheet.Number

/-- A decimal number with a bounded coefficient: `coefficient / 10 ^ places`. -/
structure Fixed where
  coefficient : Nat
  places : Nat
deriving DecidableEq, Repr

namespace Fixed

def coefficientLimit : Nat :=
  Nat.pow 2 96

def maxPlaces : Nat :=
  28

/-- Take the first digit that does not fit into account, a five upwards. A coefficient that outgrows the limit gives up
its last place. -/
def roundLast (f : Fixed) (next : Char) : Option Fixed :=
  if next < '5' then some f else
  if f.coefficient + 1 < coefficientLimit then some ⟨f.coefficient + 1, f.places⟩ else
  if f.places = 0 then none else some ⟨(f.coefficient + 5) / 10, f.places - 1⟩

/-- Read on through the digits behind the point, until the places or the coefficient are used up. -/
def readPlaces (f : Fixed) : List Char → Option Fixed
  | [] => some f
  | c :: s =>
    if f.places ≥ maxPlaces then f.roundLast c else
    let next := f.coefficient * 10 + digitsValue [c]
    if next < coefficientLimit then readPlaces ⟨next, f.places + 1⟩ s else f.roundLast c

/-- Read digits with at most one point among them; a second one is refused even where the digits no longer count. -/
def ofChars? (s : List Char) : Option Fixed :=
  let (whole, rest) := splitDigits s
  let n := digitsValue whole
  if n ≥ coefficientLimit then none else
  match rest with
  | [] => some ⟨n, 0⟩
  | '.' :: fraction => if fraction.all Char.isDigit then readPlaces ⟨n, 0⟩ fraction else none
  | _ => none

/-- The quotient to the nearest whole number, a half to the even neighbour. -/
def divEven (n d : Nat) : Nat :=
  let q := n / d
  let twice := 2 * (n % d)
  if twice < d then q else if twice > d then q + 1 else q + q % 2

/-- The hundredth part. -/
def hundredth (f : Fixed) : Fixed :=
  if f.places + 2 ≤ maxPlaces then ⟨f.coefficient, f.places + 2⟩ else
  ⟨divEven f.coefficient (Nat.pow 10 (f.places + 2 - maxPlaces)), maxPlaces⟩

def chars (f : Fixed) : List Char :=
  Decimal.positional ⟨f.coefficient, -(f.places : Int)⟩

end Fixed

/-- The fraction that a percentage stands for: `50` is `0.5`. The text has to consist of digits and points, with at
least one digit. -/
def percentFraction? (s : List Char) : Option (List Char) :=
  if s.any Char.isDigit then (Fixed.ofChars? s).map fun f => f.hundredth.chars else none

end Spreadsheet.Number
