import Spreadsheet.Number.Text
import Spreadsheet.Value.ErrorCode

/-!
# Scalar values

What a single cell can hold.
-/

namespace Spreadsheet

inductive Scalar where
  | empty
  | boolean (b : Bool)
  | number (x : Float)
  | text (s : String)
  | error (e : ErrorCode)
deriving DecidableEq, Repr

namespace Scalar

def isEmpty : Scalar → Bool
  | empty => true
  | _ => false

def error? : Scalar → Option ErrorCode
  | error e => some e
  | _ => none

def isError (v : Scalar) : Bool :=
  v.error?.isSome

/-- Numbers, and booleans as one and zero. -/
def number? : Scalar → Option Float
  | number x => some x
  | boolean b => some (if b then 1 else 0)
  | _ => none

def text? : Scalar → Option String
  | text s => some s
  | _ => none

def booleanText (b : Bool) : String :=
  if b then "TRUE" else "FALSE"

/-- The text of a value as a formula sees it. -/
def display : Scalar → String
  | empty => ""
  | boolean b => booleanText b
  | number x => Number.text x
  | text s => s
  | error e => e.text

/-- The kind of a value. -/
def kind : Scalar → String
  | empty => "empty"
  | boolean _ => "boolean"
  | number _ => "number"
  | text _ => "string"
  | error _ => "error"

/-- A text in quotation marks, each quotation mark inside doubled. -/
def quote (s : String) : String :=
  String.ofList ('"' :: s.toList.flatMap (fun c => if c = '"' then ['"', '"'] else [c]) ++ ['"'])

/-- The value as a literal of a formula. -/
def literal : Scalar → String
  | text s => quote s
  | v => v.display

end Scalar

end Spreadsheet
