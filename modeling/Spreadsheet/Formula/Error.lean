import Spreadsheet.Address.Cell
import Spreadsheet.Value.Basic

/-!
# What can go wrong in a formula

A fault is a failure that a cell can show as an error value, such as a division by zero. All other errors are defects
of the formula itself or of its functions.
-/

namespace Spreadsheet

/-- A failure that turns into an error value. A circular reference has no error code of its own. -/
inductive Fault where
  | code (e : ErrorCode)
  | circular
deriving DecidableEq, Repr

namespace Fault

/-- The error code that a cell shows. -/
def shown : Fault → ErrorCode
  | code e => e
  | circular => .value

def isCircular : Fault → Bool
  | code _ => false
  | circular => true

def message : Fault → String
  | code .null => "empty intersection or invalid range"
  | code .div0 => "attempted to divide by zero"
  | code .value => "wrong type of operand"
  | code .ref => "invalid cell reference"
  | code .name => "unrecognized name"
  | code .num => "invalid numeric value"
  | code .na => "value not available"
  | circular => "circular reference detected"

end Fault

/-- Why a formula has no value. -/
inductive FormulaError where
  | fault (f : Fault)
  | unsupportedToken (token : String)
  | functionNotSupported (id : Nat)
  | unknownOpcode (code : Nat)
  | stackUnderflow (token : String) (needed available : Nat)
  | unbalancedStack (remaining : Nat)
  | invalidReference (text : String)
  | noSharedFormula (anchor : CellAddress)
  | unknownName (id : Nat)
deriving DecidableEq, Repr

namespace FormulaError

/-- An error code as the reason for a failure. -/
abbrev code (e : ErrorCode) : FormulaError :=
  .fault (.code e)

abbrev circular : FormulaError :=
  .fault .circular

/-- Failed look-ups count as faults; all other errors are fatal. -/
def fault? : FormulaError → Option Fault
  | fault f => some f
  | invalidReference _ | noSharedFormula _ => some (.code .ref)
  | unknownName _ => some (.code .name)
  | _ => none

def hexDigit (d : Nat) : Char :=
  if d < 10 then Char.ofNat ('0'.toNat + d) else Char.ofNat ('A'.toNat + (d - 10))

/-- A byte as two hexadecimal digits. -/
def hexByte (n : Nat) : String :=
  String.ofList [hexDigit (n / 16 % 16), hexDigit (n % 16)]

def message : FormulaError → String
  | fault f => s!"calculation error: {f.message}"
  | unsupportedToken t => s!"unsupported token: {t}"
  | functionNotSupported id => s!"function {id} is not supported"
  | unknownOpcode c => s!"unknown token opcode 0x{hexByte c}"
  | stackUnderflow t needed available =>
    s!"stack underflow at {t}: needed {needed} operand(s), {available} available"
  | unbalancedStack n => s!"unbalanced token sequence: {n} value(s) left on the stack"
  | invalidReference s => s!"invalid reference: {s}"
  | noSharedFormula a => s!"invalid reference: no shared formula anchored at {a}"
  | unknownName id => s!"unknown defined name #{id}"

end FormulaError

/-- The error value that a fault turns into. -/
def Value.ofFault (f : Fault) : Value :=
  .error f.shown

end Spreadsheet
