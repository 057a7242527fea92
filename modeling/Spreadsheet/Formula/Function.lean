import Spreadsheet.Text.Case

/-!
# Functions

The catalogue of built-in functions: their numbers in stored formulas, their names, and how many arguments they take.
-/

namespace Spreadsheet

inductive Function where
  | count
  | ifThen
  | isNa
  | isError
  | sum
  | average
  | min
  | max
  | na
  | true
  | false
  | and
  | or
  | not
  | isErr
  | isText
  | isNumber
  | isBlank
  | isLogical
  | sumIf
  | countIf
  | ifError
deriving DecidableEq, Repr

namespace Function

/-- All functions, by increasing number. -/
def all : List Function :=
  [count, ifThen, isNa, isError, sum, average, min, max, na, true, false, and, or, not, isErr, isText, isNumber,
    isBlank, isLogical, sumIf, countIf, ifError]

/-- The number of a function in stored formulas. -/
def id : Function → Nat
  | count => 0
  | ifThen => 1
  | isNa => 2
  | isError => 3
  | sum => 4
  | average => 5
  | min => 6
  | max => 7
  | na => 10
  | true => 34
  | false => 35
  | and => 36
  | or => 37
  | not => 38
  | isErr => 126
  | isText => 127
  | isNumber => 128
  | isBlank => 129
  | isLogical => 198
  | sumIf => 345
  | countIf => 346
  | ifError => 455

def name : Function → String
  | count => "COUNT"
  | ifThen => "IF"
  | isNa => "ISNA"
  | isError => "ISERROR"
  | sum => "SUM"
  | average => "AVERAGE"
  | min => "MIN"
  | max => "MAX"
  | na => "NA"
  | true => "TRUE"
  | false => "FALSE"
  | and => "AND"
  | or => "OR"
  | not => "NOT"
  | isErr => "ISERR"
  | isText => "ISTEXT"
  | isNumber => "ISNUMBER"
  | isBlank => "ISBLANK"
  | isLogical => "ISLOGICAL"
  | sumIf => "SUMIF"
  | countIf => "COUNTIF"
  | ifError => "IFERROR"

def minArgs : Function → Nat
  | na | true | false => 0
  | sumIf | countIf | ifError => 2
  | _ => 1

/-- The most arguments, if there is a limit. -/
def maxArgs? : Function → Option Nat
  | na | true | false => some 0
  | not | isNa | isError | isErr | isText | isNumber | isBlank | isLogical => some 1
  | countIf | ifError => some 2
  | ifThen | sumIf => some 3
  | count | sum | average | min | max | and | or => none

/-- The function can be called with `n` arguments. -/
def accepts (f : Function) (n : Nat) : Bool :=
  f.minArgs ≤ n && f.maxArgs?.all (n ≤ ·)

def ofId? (n : Nat) : Option Function :=
  all.find? (·.id == n)

/-- The function of a name, in any case. -/
def ofName? (s : String) : Option Function :=
  all.find? fun f => f.name.toList == Text.upper s.toList

theorem mem_all (f : Function) : f ∈ all := by
  cases f <;> decide

theorem ofId?_id (f : Function) : ofId? f.id = some f := by
  cases f <;> rfl

end Function

end Spreadsheet
