import Spreadsheet.Formula.Token

/-!
# Computations that ask for cells

A formula does not own the cells it refers to. It asks a resolver, which may keep a state of its own from one question
to the next. A failure ends the computation and leaves that state as it is.
-/

namespace Spreadsheet

/-- A computation over a resolver with states `σ`. -/
abbrev Eval (σ α : Type) := ExceptT FormulaError (StateM σ) α

namespace Eval

variable {σ α : Type}

/-- An outcome that does not depend on the state. -/
def ofExcept : Except FormulaError α → Eval σ α
  | .ok a => pure a
  | .error e => throw e

/-- The outcome of a computation, a failure included; this cannot fail itself. -/
def observe (x : Eval σ α) : Eval σ (Except FormulaError α) :=
  ExceptT.mk (Except.ok <$> x.run)

/-- A fault becomes its error value; other errors still end the computation. -/
def trap (x : Eval σ Token) : Eval σ Token :=
  x.tryCatch fun e =>
    match e.fault? with
    | some f => pure (Token.ofFault f)
    | none => throw e

end Eval

/-- Answers for all that a formula can refer to. A sheet is named only if it is not the sheet of the formula. -/
structure Resolver (σ : Type) where
  /-- The value of a cell. -/
  cell : Option String → CellAddress → Eval σ Scalar
  /-- The definition of a name. -/
  name : Nat → Eval σ (List Token)
  /-- The formula that is shared from a cell on. -/
  shared : CellAddress → Eval σ (List Token)

namespace Resolver

variable {σ : Type}

/-- The values of an area, cell by cell along the rows. -/
def rows (r : Resolver σ) (sheet : Option String) (range : CellRange) : Eval σ (List (List Scalar)) :=
  range.rows.mapM fun row => range.cols.mapM fun col => r.cell sheet (.relative row col)

/-- A resolver without any data: all cells are blank. -/
def blank : Resolver σ where
  cell _ _ := pure .empty
  name id := throw (.unknownName id)
  shared anchor := throw (.noSharedFormula anchor)

end Resolver

/-- Evaluation one nesting level further down, where the definitions of names are expanded. -/
structure Nested (σ : Type) where
  evaluate : List Token → Eval σ Token
  value : Token → Eval σ Value
  components : Token → Eval σ (Option (List Token))
  references : Bool → Token → Eval σ (List Reference)

/-- What a formula can consult while it is evaluated. There is no nested level at the nesting limit. -/
structure Scope (σ : Type) where
  settings : Settings
  resolver : Resolver σ
  nested? : Option (Nested σ)

/-- The nested level; beyond the limit an expansion counts as circular. -/
def Scope.nested {σ : Type} (s : Scope σ) : Eval σ (Nested σ) :=
  match s.nested? with
  | some n => pure n
  | none => throw .circular

/-- The nesting depth after `n` expansions inside one another. -/
def Settings.depthAfter (s : Settings) (n : Nat) : Except FormulaError Nat :=
  if n ≤ s.maxNestingDepth then .ok n else .error .circular

end Spreadsheet
