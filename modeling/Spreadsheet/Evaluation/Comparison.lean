import Spreadsheet.Evaluation.Broadcast
import Spreadsheet.Formula.Operator

/-!
# Comparison

Two scalars that can both be read as numbers compare as numbers, and are equal if they differ by less than a small
tolerance. All others compare as text in uppercase. A blank reads as zero next to a number and as no text otherwise.
-/

namespace Spreadsheet.Comparison

/-- Numbers that differ by less are equal. -/
def tolerance : Float := 1e-8

/-- The number that a value is compared as. -/
def numeric? : Value → Option Float
  | .text s => Number.ofText? s
  | v => v.number?

def compareNumbers (op : Operator) (x y : Float) : Option Bool :=
  match op with
  | .equal => some ((x - y).abs < tolerance)
  | .notEqual => some ((x - y).abs ≥ tolerance)
  | .lessThan => some (x < y)
  | .lessEqual => some (x ≤ y)
  | .greaterThan => some (x > y)
  | .greaterEqual => some (x ≥ y)
  | _ => none

def compareOrder (op : Operator) (o : Ordering) : Option Bool :=
  match op with
  | .equal => some (o == .eq)
  | .notEqual => some (o != .eq)
  | .lessThan => some (o == .lt)
  | .lessEqual => some (o != .gt)
  | .greaterThan => some (o == .gt)
  | .greaterEqual => some (o != .lt)
  | _ => none

/-- A value as text for comparison. -/
def key (v : Value) : String :=
  String.ofList (Text.upper v.display.toList)

/-- The two numbers to compare, if both values can be read as numbers. -/
def numbers? (a b : Value) : Option (Float × Float) :=
  match a, b, numeric? a, numeric? b with
  | _, _, some x, some y => some (x, y)
  | .empty, _, none, some y => some (0, y)
  | _, .empty, some x, none => some (x, 0)
  | _, _, _, _ => none

/-- Compare two scalars. -/
def scalars (op : Operator) (a b : Value) : Value :=
  match a.error?.or b.error? with
  | some e => .error e
  | none =>
    let result := match numbers? a b with
      | some (x, y) => compareNumbers op x y
      | none => compareOrder op (compare (key a) (key b))
    match result with
    | some holds => .boolean holds
    | none => .error .value

/-- A table without entries. -/
def isEmptyTable : Value → Bool
  | .array rows => rows.all List.isEmpty
  | _ => false

/-- Compare two values. A table without entries is equal to nothing, and not unequal to anything either. -/
def values (op : Operator) (a b : Value) : Value :=
  if (op = .equal || op = .notEqual) && (isEmptyTable a || isEmptyTable b) then .array [[.boolean false]] else
  Value.broadcast (scalars op) a b

end Spreadsheet.Comparison
