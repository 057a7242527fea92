/-!
# Operators
-/

namespace Spreadsheet

/-- The operators of a formula. `intersect`, `union` and `range` combine references, all others values. -/
inductive Operator where
  | add
  | subtract
  | multiply
  | divide
  | power
  | concat
  | lessThan
  | lessEqual
  | equal
  | greaterEqual
  | greaterThan
  | notEqual
  | intersect
  | union
  | range
  | unaryPlus
  | unaryMinus
  | percent
deriving DecidableEq, Repr

namespace Operator

/-- All operators, by increasing opcode. -/
def all : List Operator :=
  [add, subtract, multiply, divide, power, concat, lessThan, lessEqual, equal, greaterEqual, greaterThan, notEqual,
    intersect, union, range, unaryPlus, unaryMinus, percent]

/-- The byte of an operator in stored formulas. -/
def opcode : Operator → Nat
  | add => 0x03
  | subtract => 0x04
  | multiply => 0x05
  | divide => 0x06
  | power => 0x07
  | concat => 0x08
  | lessThan => 0x09
  | lessEqual => 0x0A
  | equal => 0x0B
  | greaterEqual => 0x0C
  | greaterThan => 0x0D
  | notEqual => 0x0E
  | intersect => 0x0F
  | union => 0x10
  | range => 0x11
  | unaryPlus => 0x12
  | unaryMinus => 0x13
  | percent => 0x14

def ofOpcode? (code : Nat) : Option Operator :=
  all.find? (·.opcode == code)

def isUnary : Operator → Bool
  | unaryPlus | unaryMinus | percent => true
  | _ => false

def isComparison : Operator → Bool
  | lessThan | lessEqual | equal | greaterEqual | greaterThan | notEqual => true
  | _ => false

/-- The operators that never look at cell contents. -/
def isReference : Operator → Bool
  | intersect | union | range => true
  | _ => false

/-- How many operands an operator takes. -/
def arity (op : Operator) : Nat :=
  if op.isUnary then 1 else 2

/-- The operator as it is written. -/
def symbol : Operator → String
  | add | unaryPlus => "+"
  | subtract | unaryMinus => "-"
  | multiply => "*"
  | divide => "/"
  | power => "^"
  | concat => "&"
  | lessThan => "<"
  | lessEqual => "<="
  | equal => "="
  | greaterEqual => ">="
  | greaterThan => ">"
  | notEqual => "<>"
  | intersect => " "
  | union => ","
  | range => ":"
  | percent => "%"

theorem mem_all (op : Operator) : op ∈ all := by
  cases op <;> decide

theorem ofOpcode?_opcode (op : Operator) : ofOpcode? op.opcode = some op := by
  cases op <;> rfl

end Operator

end Spreadsheet
