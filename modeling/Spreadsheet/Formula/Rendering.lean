import Spreadsheet.Formula.Token

/-!
# Formulas as text

A postfix formula is written in infix order. Parentheses stand only where a token for them was stored.
-/

namespace Spreadsheet.Rendering

/-- The text of a token that consumes operands, from the texts of its operands. -/
def apply : Token → List String → String
  | .operator .percent, args => String.join args ++ "%"
  | .operator op, args =>
    if op.isUnary then op.symbol ++ String.join args else op.symbol.intercalate args
  | .control .paren, args => "(" ++ String.join args ++ ")"
  | .control .sum, args => "SUM(" ++ String.join args ++ ")"
  | .call id _ _, args => Token.functionName id ++ "(" ++ ",".intercalate args ++ ")"
  | t, _ => t.display

/-- How many texts a token consumes. Parentheses go around the last one. -/
def needed : Token → Nat
  | .control .paren => 1
  | t => t.arity?.getD 0

/-- Tokens that leave no trace. -/
def isSilent : Token → Bool
  | .control .paren | .control .sum => false
  | t => t.isControl

/-- Write the tokens onto a stack of texts, the last text first. -/
def run : List Token → List String → Except FormulaError String
  | [], [s] => .ok s
  | [], stack => .error (.unbalancedStack stack.length)
  | t :: ts, stack =>
    if isSilent t then run ts stack else
    if stack.length < needed t then .error (.stackUnderflow t.display (needed t) stack.length) else
    run ts (apply t (stack.take (needed t)).reverse :: stack.drop (needed t))

end Rendering

/-- A formula as text, without the equality sign in front. -/
def renderFormula (tokens : List Token) : Except FormulaError String :=
  Rendering.run tokens []

end Spreadsheet
