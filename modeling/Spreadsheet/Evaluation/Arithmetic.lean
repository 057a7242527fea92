import Spreadsheet.Evaluation.Broadcast
import Spreadsheet.Formula.Operator

/-!
# Arithmetic

The rules of `+ - * / ^`, of the minus sign and of the percent sign on scalars.
-/

namespace Spreadsheet.Arithmetic

/-- The number that an operator gives, if it is arithmetic and does not divide by zero. -/
def combine (op : Operator) (x y : Float) : Except ErrorCode Float :=
  match op with
  | .add => .ok (x + y)
  | .subtract => .ok (x - y)
  | .multiply => .ok (x * y)
  | .divide => if y == 0 then .error .div0 else .ok (x / y)
  | .power => .ok (x.pow y)
  | _ => .error .value

/-- A number that is not finite is an error. -/
def checked : Except ErrorCode Float → Value
  | .ok x => if x.isFinite then .number x else .error .num
  | .error e => .error e

/-- Apply an operator to two scalars. The error of the left operand comes first; a power with an error in it is a value
of the wrong type. -/
def binary (settings : Settings) (op : Operator) (a b : Value) : Value :=
  match a.error?.or b.error? with
  | some e => .error (if op = .power then .value else e)
  | none =>
    match a.coerce? settings, b.coerce? settings with
    | some x, some y => checked (combine op x y)
    | _, _ => .error .value

/-- Apply a sign to a scalar: the hundredth part, or the number subtracted from zero. -/
def unary (settings : Settings) (op : Operator) (a : Value) : Value :=
  match a.error? with
  | some e => .error e
  | none =>
    match a.coerce? settings with
    | some x => .number (if op = .percent then x / 100 else 0 - x)
    | none => .error .value

end Spreadsheet.Arithmetic
