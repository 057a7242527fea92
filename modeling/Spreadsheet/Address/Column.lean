import Spreadsheet.Address.Error

/-!
# Column letters

Columns are numbered from one in bijective base 26: `A` to `Z`, then `AA`.
-/

namespace Spreadsheet.Column

/-- The `d`-th capital letter, counted from zero. -/
def letter (d : Nat) : Char :=
  Char.ofNat ('A'.toNat + d)

/-- What a letter counts, from one; its case does not matter. -/
def letterValue (c : Char) : Nat :=
  c.toUpper.toNat - 'A'.toNat + 1

/-- The numeral of a column number; zero has none. -/
def numeral : Nat → List Char
  | 0 => []
  | n + 1 => numeral (n / 26) ++ [letter (n % 26)]
decreasing_by omega

/-- The letters of the column at a zero-based index. -/
def letters (col : Nat) : List Char :=
  numeral (col + 1)

/-- Read on from the number of the letters before; a column beyond the last one stops the reading. -/
def readFrom (n : Nat) : List Char → Except AddressError Nat
  | [] => .ok n
  | c :: s =>
    if !c.isAlpha then .error (.badLetter c) else
    let m := n * 26 + letterValue c
    if m > maxCols then .error (.columnOutOfBounds (m - 1)) else readFrom m s

/-- The zero-based index of a column. -/
def read (s : List Char) : Except AddressError Nat :=
  if s.isEmpty then .error .noLetters else (readFrom 0 s).map (· - 1)

end Spreadsheet.Column
