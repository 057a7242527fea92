import Spreadsheet.Value.Basic

/-!
# Element by element

A rule for scalars extended to tables. The result has the columns of the table operand, or of the left one of two.
-/

namespace Spreadsheet.Value

/-- Apply a rule to each entry of a table, or to a scalar. -/
def mapElements (f : Value → Value) : Value → Value
  | v@(array _) => ofElements (v.elements.map f) v.columns
  | v => f v

/-- Apply a rule to two values. A scalar goes with every entry of a table; two tables are paired along their rows and
need the same number of entries. -/
def broadcast (f : Value → Value → Value) : Value → Value → Value
  | v@(array _), w@(array _) =>
    if v.elements.length ≠ w.elements.length then error .value else
    ofElements (v.elements.zipWith f w.elements) v.columns
  | v@(array _), w => ofElements (v.elements.map (f · w)) v.columns
  | v, w@(array _) => ofElements (w.elements.map (f v)) w.columns
  | v, w => f v w

end Spreadsheet.Value
