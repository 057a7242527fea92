import Spreadsheet.Number.Shortest

/-!
# Numbers as text

A whole number below `10 ^ 15` is written as its digits; zero has no sign. Every other number is written with its
shortest decimal, always positionally and never with an exponent.
-/

namespace Spreadsheet.Number

/-- The last `places` digits of `n`, with leading zeros. -/
def fractionDigits (places n : Nat) : List Char :=
  let ds := Nat.toDigits 10 (n % Nat.pow 10 places)
  List.replicate (places - ds.length) '0' ++ ds

/-- Digits without the zeros at the end. -/
def dropTrailingZeros (ds : List Char) : List Char :=
  (ds.reverse.dropWhile (· == '0')).reverse

namespace Decimal

/-- Positional notation, without trailing zeros behind the point and without a bare point. -/
def positional (d : Decimal) : List Char :=
  if d.exponent ≥ 0 then Nat.toDigits 10 (d.digits * Nat.pow 10 d.exponent.toNat) else
  let places := (-d.exponent).toNat
  let whole := Nat.toDigits 10 (d.digits / Nat.pow 10 places)
  match dropTrailingZeros (fractionDigits places d.digits) with
  | [] => whole
  | fraction => whole ++ '.' :: fraction

end Decimal

/-- Whole numbers from here on are written like fractions. -/
def wholeLimit : Nat :=
  Nat.pow 10 15

/-- The characters of a number. -/
def chars (x : Float) : List Char :=
  let sign := if isNegative x then ['-'] else []
  if x.isNaN then "NaN".toList else
  if x.isInf then sign ++ "inf".toList else
  match (binary x).whole?.filter (· < wholeLimit) with
  | some 0 => ['0']
  | some n => sign ++ Nat.toDigits 10 n
  | none => sign ++ (shortest (binary x)).positional

/-- A number as a formula shows it. -/
def text (x : Float) : String :=
  String.ofList (chars x)

end Spreadsheet.Number
