import Spreadsheet.Evaluation.Functions
import Spreadsheet.Evaluation.Operators

/-!
# The stack machine

Tokens are consumed in their stored order. Operands are pushed; operators, calls and the summing control take their
operands from the stack and push their result. A shared formula is spliced into the tokens still to come. A run ends with
exactly one token on the stack, and a fault on the way becomes an error operand.
-/

namespace Spreadsheet

variable {σ : Type}

namespace Machine

/-- The stack, the last operand first. -/
abbrev Stack := List Token

/-- Compute the result of a token that consumes operands. -/
def compute (s : Scope σ) (t : Token) (args : List Token) : Eval σ Token :=
  match t with
  | .operator op => applyOperator s op args
  | .call id _ _ => callFunction s id args
  | _ => Aggregate.sum s args

/-- Take the operands of a token from the stack and push the result. -/
def step (s : Scope σ) (t : Token) (n : Nat) (stack : Stack) : Eval σ Stack :=
  if stack.length < n then throw (.stackUnderflow t.display n stack.length) else do
    let result ← (compute s t (stack.take n).reverse).trap
    return result :: stack.drop n

/-- The one token that is left at the end. -/
def finish : Stack → Eval σ Token
  | [t] => pure t
  | stack => throw (.unbalancedStack stack.length)

/-- A splice: what to do with a shared formula, the tokens behind it and the stack. -/
abbrev Splice (σ : Type) := CellAddress → List Token → Stack → Eval σ Token

/-- Run tokens on a stack. When no splice is left, a shared formula counts as circular. -/
def runWith (s : Scope σ) (splice : Option (Splice σ)) : List Token → Stack → Eval σ Token
  | [], stack => finish stack
  | .shared anchor :: rest, stack =>
    match splice with
    | none => runWith s splice rest (.ofFault .circular :: stack)
    | some expand => expand anchor rest stack
  | .control .sum :: rest, stack => do runWith s splice rest (← step s (.control .sum) 1 stack)
  | .control _ :: rest, stack => runWith s splice rest stack
  | .operator op :: rest, stack => do runWith s splice rest (← step s (.operator op) op.arity stack)
  | .call id n array :: rest, stack => do runWith s splice rest (← step s (.call id n array) n stack)
  | t :: rest, stack => runWith s splice rest (t :: stack)

/-- Run tokens on a stack with a number of splices left. A shared formula that cannot be found is an error operand. -/
def runFor (s : Scope σ) : Nat → List Token → Stack → Eval σ Token
  | 0 => runWith s none
  | splices + 1 => runWith s <| some fun anchor rest stack => do
    match ← (s.resolver.shared anchor).observe with
    | .ok body => runFor s splices (body ++ rest) stack
    | .error e =>
      match e.fault? with
      | some f => runFor s splices rest (.ofFault f :: stack)
      | none => throw e

end Machine

/-- Evaluate a formula to a token, references left as they are. -/
def evaluateToken (s : Scope σ) (tokens : List Token) : Eval σ Token :=
  Machine.runFor s s.settings.maxNestingDepth tokens []

/-- Evaluate a definition inside another formula. A circular result becomes a fault again, for the formula around to
mark its own result. -/
def evaluateNested (s : Scope σ) (tokens : List Token) : Eval σ Token := do
  let t ← evaluateToken s tokens
  if t.isCircular then throw .circular else return t

/-- Evaluate a formula to a value. A result that cannot be resolved is an error value. -/
def evaluateValue (s : Scope σ) (tokens : List Token) : Eval σ Value := do
  let t ← evaluateToken s tokens
  match ← (t.value s).observe with
  | .ok v => return v
  | .error e =>
    match e.fault? with
    | some f => return .ofFault f
    | none => throw e

/-- The scope with a number of nested levels below it. -/
def Scope.withLevels (settings : Settings) (r : Resolver σ) : Nat → Scope σ
  | 0 => ⟨settings, r, none⟩
  | n + 1 => ⟨settings, r, some
    { evaluate := fun tokens => evaluateNested (withLevels settings r n) tokens
      value := fun t => t.value (withLevels settings r n)
      components := fun t => t.components (withLevels settings r n)
      references := fun split t => t.asReferences (withLevels settings r n) split }⟩

/-- The scope of a formula that is not part of another one. -/
def Scope.of (settings : Settings) (r : Resolver σ) : Scope σ :=
  .withLevels settings r settings.maxNestingDepth

end Spreadsheet
