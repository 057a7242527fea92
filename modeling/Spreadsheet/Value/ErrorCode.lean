import Spreadsheet.Text.Blank
import Spreadsheet.Text.Case

/-!
# Error codes

The seven error values that a cell can show.
-/

namespace Spreadsheet

inductive ErrorCode where
  | null
  | div0
  | value
  | ref
  | name
  | num
  | na
deriving DecidableEq, Repr

namespace ErrorCode

/-- All error codes, by increasing number. -/
def all : List ErrorCode :=
  [null, div0, value, ref, name, num, na]

def text : ErrorCode → String
  | null => "#NULL!"
  | div0 => "#DIV/0!"
  | value => "#VALUE!"
  | ref => "#REF!"
  | name => "#NAME?"
  | num => "#NUM!"
  | na => "#N/A"

/-- The number of an error code in stored formulas. -/
def code : ErrorCode → Nat
  | null => 0x00
  | div0 => 0x07
  | value => 0x0F
  | ref => 0x17
  | name => 0x1D
  | num => 0x24
  | na => 0x2A

/-- The error code that a text shows, in any case and with blanks around it. -/
def ofChars? (s : List Char) : Option ErrorCode :=
  all.find? fun e => Text.asciiLower e.text == (Text.trim s).map Char.toLower

def ofText? (s : String) : Option ErrorCode :=
  ofChars? s.toList

def ofCode? (n : Nat) : Option ErrorCode :=
  all.find? (·.code == n)

theorem mem_all (e : ErrorCode) : e ∈ all := by
  cases e <;> decide

theorem ofCode?_code (e : ErrorCode) : ofCode? e.code = some e := by
  cases e <;> rfl

end ErrorCode

end Spreadsheet
