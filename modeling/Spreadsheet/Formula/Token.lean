import Spreadsheet.Formula.Function
import Spreadsheet.Formula.Operator
import Spreadsheet.Formula.Reference

/-!
# Formula tokens

A formula is stored in postfix order. Operands push themselves; operators, calls and some controls consume operands.
-/

namespace Spreadsheet

/-- Tokens for display and for the order of evaluation. Only `sum` computes anything: it is a call of SUM with one
argument. -/
inductive Control where
  | paren
  | sum
  | ifJump
  | choose
  | goto
  | space
  | volatile
deriving DecidableEq, Repr

def Control.arity : Control → Nat
  | .sum => 1
  | _ => 0

inductive Token where
  | number (x : Float)
  | integer (n : Int)
  | text (s : String)
  | boolean (b : Bool)
  /-- An error value. One that comes from a circular reference is marked. -/
  | error (e : ErrorCode) (circular : Bool)
  /-- An argument left out. -/
  | missing
  | blank
  | cell (sheet : Option String) (address : CellAddress)
  /-- An area with its corners as they were stored, in any order. -/
  | area (sheet : Option String) (first last : CellAddress)
  /-- A defined name, by its number. -/
  | name (id : Nat)
  | array (rows : List (List Scalar))
  /-- A pointer to the formula that several cells share. -/
  | shared (anchor : CellAddress)
  /-- What the reference operators give. -/
  | references (refs : List Reference)
  | operator (op : Operator)
  | control (c : Control)
  | call (id argCount : Nat) (returnsArray : Bool)
deriving DecidableEq, Repr

namespace Token

/-- The error value of an error code. -/
abbrev ofCode (e : ErrorCode) : Token :=
  error e false

/-- The error value of a fault. -/
def ofFault (f : Fault) : Token :=
  error f.shown f.isCircular

/-- A call by function number and argument count, of which 15 and 7 bits are stored. -/
def ofCall (id argCount : Nat) : Token :=
  call (id % 0x8000) (argCount % 0x80) false

def ofReference : Reference → Token
  | .cell sheet a => cell sheet a
  | .area sheet r => area sheet r.start r.stop
  | .invalid e => ofCode e

/-- The token of a reference text. -/
def read (s : String) : Except FormulaError Token :=
  match Reference.read s with
  | .error _ | .ok (.invalid _) => .error (.invalidReference s)
  | .ok r => .ok (ofReference r)

def ofScalar : Scalar → Token
  | .empty => blank
  | .boolean b => boolean b
  | .number x => number x
  | .text s => text s
  | .error e => ofCode e

/-- A value as an operand. Tables inside a table become error values. -/
def ofValue : Value → Token
  | .empty => blank
  | .boolean b => boolean b
  | .number x => number x
  | .text s => text s
  | .error e => ofCode e
  | .array rows => array (rows.map (·.map Value.toScalar))

def isOperator : Token → Bool
  | operator _ => true
  | _ => false

def isControl : Token → Bool
  | control _ => true
  | _ => false

def isCall : Token → Bool
  | call .. => true
  | _ => false

/-- Tokens that push themselves. -/
def isOperand (t : Token) : Bool :=
  !(t.isOperator || t.isControl || t.isCall)

/-- How many operands are consumed; operand tokens have no arity. -/
def arity? : Token → Option Nat
  | operator op => some op.arity
  | control c => some c.arity
  | call _ n _ => some n
  | _ => none

def isBinary (t : Token) : Bool :=
  t.isOperator && t.arity? == some 2

/-- Unary operators, and the control that sums its one operand. -/
def isUnary : Token → Bool
  | operator op => op.isUnary
  | control .sum => true
  | _ => false

/-- Tokens other than operands that consume nothing. -/
def isStandalone (t : Token) : Bool :=
  t.arity? == some 0

def isReference : Token → Bool
  | cell .. | area .. | name _ | references _ => true
  | _ => false

def isError : Token → Bool
  | error .. => true
  | _ => false

def isCircular : Token → Bool
  | error _ circular => circular
  | _ => false

/-- The rectangle of a cell or an area. -/
def range? : Token → Option CellRange
  | area _ first last => some (.between first last)
  | cell _ a => some (.single a)
  | _ => none

def functionName (id : Nat) : String :=
  match Function.ofId? id with
  | some f => f.name
  | none => s!"FUNC{id}"

/-- Rows of literals in braces. -/
def arrayText (rows : List (List Scalar)) : String :=
  "\x7b" ++ ";".intercalate (rows.map fun row => ",".intercalate (row.map Scalar.literal)) ++ "\x7d"

/-- A token as formula text. -/
def display : Token → String
  | number x => Number.text x
  | integer n => toString n
  | text s => Scalar.quote s
  | boolean b => Scalar.booleanText b
  | error e _ => e.text
  | missing | blank => ""
  | cell sheet a => (SheetReference.cell sheet a).text
  | area sheet first last => (SheetReference.cell sheet first).text ++ ":" ++ last.text
  | name id => s!"NAME({id})"
  | array rows => arrayText rows
  | shared anchor => s!"EXP({anchor})"
  | references refs => ",".intercalate (refs.map Reference.text)
  | operator op => op.symbol
  | control .paren => "()"
  | control .sum => "SUM"
  | control .ifJump => "AttrIf"
  | control .choose => "AttrChoose"
  | control .goto => "AttrGoto"
  | control .space => "AttrSpace"
  | control .volatile => "AttrVolatile"
  | call id _ _ => functionName id

instance : ToString Token := ⟨display⟩

end Token

end Spreadsheet
