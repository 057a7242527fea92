import Spreadsheet.Evaluation.Resolver

/-!
# Operands

What an operand is worth, and the single operands it is made of.
-/

namespace Spreadsheet

variable {σ : Type}

namespace Reference

/-- The value referred to; an area gives a table. -/
def value (s : Scope σ) : Reference → Eval σ Value
  | cell sheet a => Value.ofScalar <$> s.resolver.cell sheet a
  | area sheet r => Value.ofRows <$> s.resolver.rows sheet r
  | invalid e => pure (.error e)

end Reference

namespace Token

/-- The value of an operand. Names and shared formulas are evaluated. A list of several references gives one row with
the values of all their cells; an empty list is a fault. -/
def value (s : Scope σ) : Token → Eval σ Value
  | number x => pure (.number x)
  | integer n => pure (.number (Float.ofInt n))
  | text t => pure (.text t)
  | boolean b => pure (.boolean b)
  | error e _ => pure (.error e)
  | missing | blank => pure .empty
  | cell sheet a => Value.ofScalar <$> s.resolver.cell sheet a
  | area sheet first last => Value.ofRows <$> s.resolver.rows sheet (.between first last)
  | name id => do
    let nested ← s.nested
    let definition ← s.resolver.name id
    let target ← nested.evaluate definition
    nested.value target
  | shared anchor => do
    let nested ← s.nested
    let body ← s.resolver.shared anchor
    let target ← nested.evaluate body
    nested.value target
  | array rows => pure (Value.ofRows rows)
  | references [] => throw (.code .null)
  | references [r] => r.value s
  | references refs => do
    let values ← (refs.flatMap Reference.cells).mapM (Reference.value s)
    return .array [values]
  | t => throw (.unsupportedToken t.display)

/-- The operands that make up a composite one: the entries of an array, the cells of an area or of a reference list, and
what a name stands for. Other operands are not composite. -/
def components (s : Scope σ) : Token → Eval σ (Option (List Token))
  | array rows => pure (some (rows.flatten.map ofScalar))
  | area sheet first last => pure (some ((CellRange.between first last).cells.map (cell sheet)))
  | name id => do
    let nested ← s.nested
    let definition ← s.resolver.name id
    let target ← nested.evaluate definition
    let parts ← nested.components target
    return some (parts.getD [target])
  | references refs => pure (some ((refs.flatMap Reference.cells).map ofReference))
  | _ => pure none

/-- The components of an operand, or the operand alone if it has none. -/
def parts (s : Scope σ) (t : Token) : Eval σ (List Token) := do
  return (← t.components s).getD [t]

/-- The components of all operands in turn. -/
def allParts (s : Scope σ) (args : List Token) : Eval σ (List Token) := do
  return (← args.mapM (parts s)).flatten

/-- The values of all components, tables taken apart. -/
def allValues (s : Scope σ) (args : List Token) : Eval σ (List Value) := do
  return ((← (← allParts s args).mapM (value s)).map Value.elements).flatten

end Token

end Spreadsheet
