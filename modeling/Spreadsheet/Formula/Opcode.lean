import Spreadsheet.Formula.Token

/-!
# Opcodes

The bytes that stand for tokens in stored formulas.
-/

namespace Spreadsheet

/-- The control that a byte of option bits asks for. Of several bits set, the one that matters most for evaluation
wins. -/
def Control.ofBits? (bits : Nat) : Option Control :=
  if bits.testBit 4 then some .sum else
  if bits.testBit 1 then some .ifJump else
  if bits.testBit 2 then some .choose else
  if bits.testBit 3 then some .goto else
  if bits.testBit 6 then some .space else
  if bits.testBit 0 then some .volatile else none

namespace Token

/-- The byte in front of option bits. -/
def controlOpcode : Nat := 0x19

/-- The byte of a token, if it has one. Calls of either kind have the same byte, and so have all controls but the
parentheses. -/
def opcode? : Token → Option Nat
  | number _ => some 0x1F
  | integer _ => some 0x1E
  | text _ => some 0x17
  | boolean _ => some 0x1D
  | error .. => some 0x1C
  | missing => some 0x16
  | cell none _ => some 0x24
  | cell (some _) _ => some 0x3A
  | area none _ _ => some 0x25
  | area (some _) _ _ => some 0x3B
  | name _ => some 0x23
  | array _ => some 0x20
  | shared _ => some 0x01
  | operator op => some op.opcode
  | control .paren => some 0x15
  | control _ => some controlOpcode
  | call .. => some 0x22
  | blank | references _ => none

/-- The token of a byte that needs nothing more. -/
def ofOpcode (code : Nat) : Except FormulaError Token :=
  match Operator.ofOpcode? code with
  | some op => .ok (operator op)
  | none =>
    if code = 0x15 then .ok (control .paren) else
    if code = 0x16 then .ok missing else .error (.unknownOpcode code)

/-- The token of option bits. -/
def ofBits (bits : Nat) : Except FormulaError Token :=
  match Control.ofBits? bits with
  | some c => .ok (control c)
  | none => .error (.unknownOpcode controlOpcode)

/-- The call of a byte. One kind of call is stored with its argument count; the other has the count that its function
takes at least. Two bits of the byte say what kind of result is wanted; both set mean an array. -/
def ofCallOpcode (code id : Nat) (argCount : Option Nat) : Except FormulaError Token :=
  let id := id % 0x8000
  let returnsArray := code / 0x20 % 4 == 3
  match code % 0x20, argCount with
  | 2, some n => .ok (call id (n % 0x80) returnsArray)
  | 1, _ =>
    match Function.ofId? id with
    | some f => .ok (call id f.minArgs returnsArray)
    | none => .error (.functionNotSupported id)
  | _, _ => .error (.unknownOpcode code)

end Token

end Spreadsheet
