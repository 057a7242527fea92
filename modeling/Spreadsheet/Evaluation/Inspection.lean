import Spreadsheet.Evaluation.Operand

/-!
# Inspection

The functions that ask what kind of value their argument is. An argument that fails is the error value of its fault,
and a table is judged by its top-left entry.
-/

namespace Spreadsheet.Inspection

variable {σ : Type}

def isBlank : Value → Bool
  | .empty => true
  | _ => false

def isNumber : Value → Bool
  | .number _ => true
  | _ => false

def isText : Value → Bool
  | .text _ => true
  | _ => false

def isLogical : Value → Bool
  | .boolean _ => true
  | _ => false

def isNa (v : Value) : Bool :=
  v.error? == some .na

/-- Any error but the one that says that a value is not available. -/
def isErr (v : Value) : Bool :=
  v.isError && !isNa v

/-- The value to look at. -/
def inspected (s : Scope σ) (arg : Token) : Eval σ Value := do
  match ← (arg.value s).observe with
  | .ok v => return v.corner
  | .error e =>
    match e.fault? with
    | some f => return .ofFault f
    | none => throw e

/-- Test the one argument. -/
def test (s : Scope σ) (p : Value → Bool) (args : List Token) : Eval σ Token :=
  match args with
  | [arg] => do return .boolean (p (← inspected s arg))
  | _ => pure (.ofCode .value)

end Spreadsheet.Inspection
