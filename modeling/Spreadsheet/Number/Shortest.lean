import Spreadsheet.Number.Binary

/-!
# Shortest decimals

`shortest` gives a positive number with the fewest decimal digits that still read back as the same number. The reals
that round to `m · 2 ^ q` form an interval around it, ends included when `m` is even. For one digit, two digits and
so on, the two neighbours of the number on that decimal grid are tried; the first grid with a neighbour inside the
interval wins. Of two neighbours inside, the nearer one is taken, and the upper one when they are equally near.
-/

namespace Spreadsheet.Number

/-- The number `digits · 10 ^ exponent`. -/
structure Decimal where
  digits : Nat
  exponent : Int
deriving DecidableEq, Repr

/-- How many decimal digits a number has; zero has one. -/
def digitCount (n : Nat) : Nat :=
  (Nat.toDigits 10 n).length

/-- The `k` with `10 ^ (k - 1) ≤ num / den < 10 ^ k`, for a positive fraction that is no negative power of ten. -/
def decimalMagnitude (num den : Nat) : Int :=
  if den ≤ num then digitCount (num / den) else 1 - (digitCount (den / num) : Int)

/-- Multiples of a decimal unit against an interval, all scaled to whole numbers. -/
structure Grid where
  value : Nat
  low : Nat
  high : Nat
  unit : Nat
  closed : Bool

namespace Grid

def contains (g : Grid) (x : Nat) : Bool :=
  if g.closed then g.low ≤ x && x ≤ g.high else g.low < x && x < g.high

/-- The multiple of the unit next to the value that lies in the interval. -/
def nearest? (g : Grid) : Option Nat :=
  let d := g.value / g.unit
  match g.contains (d * g.unit), g.contains ((d + 1) * g.unit) with
  | true, true => some (if 2 * (g.value - d * g.unit) < g.unit then d else d + 1)
  | true, false => some d
  | false, true => some (d + 1)
  | false, false => none

end Grid

/-- The grid of the multiples of `10 ^ j` around `b`. Sizes are counted in quarters of the unit of `b`, so that the
middles to both neighbours of `b` are whole. -/
def Binary.grid (b : Binary) (j : Int) : Grid :=
  let (num, den) := b.unit
  let (ten, tenth) := if j ≥ 0 then (Nat.pow 10 j.toNat, 1) else (1, Nat.pow 10 (-j).toNat)
  let scale := num * tenth
  { value := 4 * b.mantissa * scale
    low := (4 * b.mantissa - if b.narrowBelow then 1 else 2) * scale
    high := (4 * b.mantissa + 2) * scale
    unit := 4 * ten * den
    closed := b.mantissa % 2 == 0 }

/-- The shortest decimal that reads back as `b`, which has to be positive; seventeen digits always do. -/
def shortest (b : Binary) : Decimal :=
  let (num, den) := b.unit
  let k := decimalMagnitude (b.mantissa * num) den
  let hit := (List.range 17).findSome? fun n =>
    let j := k - (n + 1 : Nat)
    (b.grid j).nearest?.map fun d => (⟨d, j⟩ : Decimal)
  hit.getD ⟨0, 0⟩

end Spreadsheet.Number
