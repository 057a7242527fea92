import Spreadsheet.Evaluation.Arithmetic
import Spreadsheet.Evaluation.Comparison
import Spreadsheet.Evaluation.References

/-!
# Operators on operands

An operator on values resolves its operands first, the left one before the right one. An error operand is passed on
as it is.
-/

namespace Spreadsheet

variable {σ : Type}

/-- Join the texts of two scalars. -/
def concatenate (a b : Value) : Token :=
  if a.isArray || b.isArray then .ofCode .value else
  match a.error?.or b.error? with
  | some e => .ofCode e
  | none => .text (a.display ++ b.display)

/-- Apply an operator with two operands to values. -/
def Operator.onValues (settings : Settings) (op : Operator) (a b : Value) : Token :=
  match op with
  | .add | .subtract | .multiply | .divide | .power =>
    .ofValue (Value.broadcast (Arithmetic.binary settings op) a b)
  | .concat => concatenate a b
  | _ => .ofValue (Comparison.values op a b)

/-- The largest integer that an integer literal can hold. -/
def maxInteger : Int := 0x7FFFFFFF

/-- Negate an integer. The result stays an integer if it fits. -/
def negateInteger (n : Int) : Token :=
  if -n ≤ maxInteger then .integer (-n) else .number (Float.ofInt (-n))

/-- Apply the minus sign or the percent sign to a value. -/
def applySign (s : Scope σ) (op : Operator) (a : Token) : Eval σ Token := do
  return .ofValue (Value.mapElements (Arithmetic.unary s.settings op) (← a.value s))

/-- Apply an operator with one operand. -/
def applyUnary (s : Scope σ) (op : Operator) (a : Token) : Eval σ Token :=
  if op = .unaryPlus || a.isError then pure a else
  match op, a with
  | .unaryMinus, .integer n => pure (negateInteger n)
  | _, _ => applySign s op a

/-- Apply an operator on values to two operands, resolving the left one first. -/
def applyToValues (s : Scope σ) (op : Operator) (a b : Token) : Eval σ Token := do
  let x ← a.value s
  let y ← b.value s
  return op.onValues s.settings x y

/-- Apply an operator with two operands. An error operand is the result, the left one before the right one; only a power
makes an error of its own of it. -/
def applyBinary (s : Scope σ) (op : Operator) (a b : Token) : Eval σ Token :=
  if op.isReference then applyReferenceOperator s op a b else
  match [a, b].find? Token.isError with
  | some e => pure (if op = .power then .ofCode .value else e)
  | none => applyToValues s op a b

/-- Apply an operator to its operands, from left to right. A wrong number of operands gives an error value. -/
def applyOperator (s : Scope σ) (op : Operator) (args : List Token) : Eval σ Token :=
  match op.isUnary, args with
  | true, [a] => applyUnary s op a
  | false, [a, b] => applyBinary s op a b
  | _, _ => pure (.ofCode .value)

end Spreadsheet
