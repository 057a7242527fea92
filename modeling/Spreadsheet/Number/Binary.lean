/-!
# Floating-point numbers in exact arithmetic

A finite number is `mantissa · 2 ^ exponent` up to sign. The three parts are read off the bit pattern.
-/

namespace Spreadsheet.Number

/-- The size of a finite number: `mantissa · 2 ^ exponent`. -/
structure Binary where
  mantissa : Nat
  exponent : Int
deriving DecidableEq, Repr

def isNegative (x : Float) : Bool :=
  x.toBits.toNat.testBit 63

/-- Fractions have 52 bits. -/
def fractionLimit : Nat := 0x10000000000000

/-- The size of `x`. Subnormal numbers share the least exponent and have no implicit bit. -/
def binary (x : Float) : Binary :=
  let fraction : Nat := x.toBits.toNat % fractionLimit
  let biased : Nat := x.toBits.toNat / fractionLimit % 0x800
  if biased = 0 then ⟨fraction, -1074⟩ else ⟨fractionLimit + fraction, (biased : Int) - 1075⟩

namespace Binary

/-- `2 ^ exponent` as a fraction: numerator and denominator. -/
def unit (b : Binary) : Nat × Nat :=
  if b.exponent ≥ 0 then (Nat.pow 2 b.exponent.toNat, 1) else (1, Nat.pow 2 (-b.exponent).toNat)

/-- The value, when it is a whole number. -/
def whole? (b : Binary) : Option Nat :=
  let (num, den) := b.unit
  if b.mantissa * num % den = 0 then some (b.mantissa * num / den) else none

/-- Just above a power of two numbers are spaced twice as wide as just below it. -/
def narrowBelow (b : Binary) : Bool :=
  b.mantissa == fractionLimit && b.exponent > -1074

end Binary

end Spreadsheet.Number
