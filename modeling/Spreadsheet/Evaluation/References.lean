import Std.Data.HashSet
import Spreadsheet.Evaluation.Operand

/-!
# Operators on references

Intersection, union and bounding area. Operands are read as lists of references; what their cells hold does not matter.
-/

namespace Spreadsheet

variable {σ : Type}

/-- The parts of a text between commas. -/
def splitCommas (s : List Char) : List (List Char) :=
  s.splitOn ','

namespace References

/-- A reading failure as the failure of a formula. -/
def readText (s : List Char) : Except FormulaError Reference :=
  (Reference.readChars s).mapError .fault

/-- An entry of an array that has to be reference text. -/
def readScalar (v : Scalar) : Except FormulaError Reference :=
  match v.text? with
  | some s => readText s.toList
  | none => .error (.code .value)

end References

/-- An operand as a list of references. Text and arrays of text are read as references, names and shared formulas are
evaluated, and errors count as no reference. With `split` the areas of a list are split into cells. -/
def Token.asReferences (s : Scope σ) (split : Bool) : Token → Eval σ (List Reference)
  | .cell sheet a => pure [.cell sheet a]
  | .area sheet first last => pure [.area sheet (.between first last)]
  | .name id => do
    let nested ← s.nested
    let definition ← s.resolver.name id
    let target ← nested.evaluate definition
    nested.references split target
  | .shared anchor => do
    let nested ← s.nested
    let body ← s.resolver.shared anchor
    let target ← nested.evaluate body
    nested.references split target
  | .text t => .ofExcept ((splitCommas t.toList).mapM References.readText)
  | .array rows => .ofExcept (rows.flatten.mapM References.readScalar)
  | .references refs => pure (if split then refs.flatMap Reference.cells else refs)
  | .error .. => pure []
  | _ => throw (.code .value)

namespace References

/-- The cells that an entry of the first list shares with each entry of the second, on the sheet of the first. -/
def overlaps (second : List Reference) (r : Reference) : List (Option String × CellAddress) :=
  second.flatMap fun o =>
    match r.range?, o.range? with
    | some a, some b =>
      match a.intersect? b with
      | some common => common.cells.map (r.sheet?, ·)
      | none => []
    | _, _ => []

/-- The first entry of each cell, in order; `found` holds those from before, the last one first. -/
def keepFirst (seen : Std.HashSet (Nat × Nat)) (found : List Reference) :
    List (Option String × CellAddress) → List Reference
  | [] => found.reverse
  | (sheet, a) :: rest =>
    if seen.contains (a.row, a.col) then keepFirst seen found rest else
    keepFirst (seen.insert (a.row, a.col)) (.cell sheet a :: found) rest

/-- The cells covered by both lists, each once. Sheets are not compared. -/
def intersection (first second : List Reference) : List Reference :=
  keepFirst ∅ [] (first.flatMap (overlaps second))

/-- Grow a rectangle to cover one more reference. -/
def growBounds (bounds : Option CellRange) (r : CellRange) : CellRange :=
  match bounds with
  | none => r
  | some b => (b.extendTo r.start).extendTo r.stop

/-- The least area that covers all references, on the first sheet that is named; `sheet` and `bounds` come from the
references before. -/
def boundingFrom (sheet : Option String) (bounds : Option CellRange) : List Reference → Except FormulaError Reference
  | [] =>
    match bounds with
    | some b => .ok (.area sheet b)
    | none => .error (.code .null)
  | r :: rest =>
    match r.range? with
    | none => .error (.code .ref)
    | some range => boundingFrom (sheet.or r.sheet?) (some (growBounds bounds range)) rest

/-- The least area that covers all references. -/
def boundingArea (refs : List Reference) : Except FormulaError Reference :=
  boundingFrom none none refs

end References

/-- Apply an operator on references. -/
def applyReferenceOperator (s : Scope σ) (op : Operator) (a b : Token) : Eval σ Token := do
  let split := op != .intersect
  let first ← a.asReferences s split
  let second ← b.asReferences s split
  match op with
  | .union => return .references (first ++ second)
  | .intersect => return .references (References.intersection first second)
  | _ => return .references [← Eval.ofExcept (References.boundingArea (first ++ second))]

end Spreadsheet
