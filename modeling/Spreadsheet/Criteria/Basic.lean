import Spreadsheet.Criteria.Pattern
import Spreadsheet.Value.Basic

/-!
# Criteria

A criteria text is a relation followed by an operand, such as `>=10`, `<>apple` or `a*`; without a relation it asks for
equality. A cell is selected by comparing the operand with its value.
-/

namespace Spreadsheet

namespace Criteria

/-- How a cell value has to relate to the operand. -/
inductive Relation where
  | equal
  | notEqual
  | lessThan
  | lessEqual
  | greaterThan
  | greaterEqual
deriving DecidableEq, Repr

namespace Relation

def ofChars? : List Char → Option Relation
  | [] | ['='] => some equal
  | ['<', '>'] => some notEqual
  | ['<'] => some lessThan
  | ['<', '='] => some lessEqual
  | ['>'] => some greaterThan
  | ['>', '='] => some greaterEqual
  | _ => none

def ofText? (s : String) : Option Relation :=
  ofChars? s.toList

def text : Relation → String
  | equal => "="
  | notEqual => "<>"
  | lessThan => "<"
  | lessEqual => "<="
  | greaterThan => ">"
  | greaterEqual => ">="

/-- Whether a value is selected, from how the operand compares with it. -/
def accepts : Relation → Ordering → Bool
  | equal, o => o == .eq
  | notEqual, o => o != .eq
  | lessThan, o => o == .gt
  | lessEqual, o => o != .lt
  | greaterThan, o => o == .lt
  | greaterEqual, o => o != .gt

theorem ofText?_text (r : Relation) : ofText? r.text = some r := by
  cases r <;> rfl

end Relation

/-- Characters of a relation. -/
def isRelationChar (c : Char) : Bool :=
  c == '<' || c == '>' || c == '='

/-- How many bytes of a text belong to the relation in front. -/
def relationLength (s : String) : Nat :=
  (s.toList.takeWhile isRelationChar).length

/-- The order of two numbers, if they have one. -/
def compareNumbers (x y : Float) : Option Ordering :=
  if x < y then some .lt else
  if x > y then some .gt else
  if x == y then some .eq else none

def compareChars (s t : List Char) : Ordering :=
  compare (String.ofList s) (String.ofList t)

/-- How an operand compares with a value. A boolean is compared with the operand as `true`, all other operands counting
as `false`. A number is compared with the number or the date that the operand denotes, or else as text. Blanks and error
values compare with nothing. -/
def compareValue (dates : Calendar.DateSystem) (operand : String) (p : Pattern) : Scalar → Option Ordering
  | .boolean b =>
    let wanted := (Text.trim operand.toList).map Char.toLower == "true".toList
    some (compare wanted b)
  | .text s =>
    if p.hasWildcards then some (if p.isMatch s then .eq else .lt) else
    some (compareChars p.literal (Text.upper s.toList))
  | .number x =>
    match (Number.readChars? p.literal).or (dates.readSerial? operand) with
    | some wanted => compareNumbers wanted x
    | none => some (compareChars p.literal (Text.upper (Number.chars x)))
  | .empty | .error _ => none

/-- Whether a value stands in a relation to an operand. -/
def holds (dates : Calendar.DateSystem) (operand : String) (p : Pattern) (r : Relation) (v : Scalar) : Bool :=
  (compareValue dates operand p v).any r.accepts

/-- Whether a value stands in a relation to the text of an operand, dates counting from 1900. -/
def compareWith (v : Scalar) (operand : String) (r : Relation) : Bool :=
  holds .from1900 operand (Pattern.ofText operand) r v

end Criteria

/-- A criteria text taken apart. -/
structure Criteria where
  /-- None if the text begins with characters of relations that make up no relation. -/
  relation : Option Criteria.Relation
  operand : String
  pattern : Criteria.Pattern
deriving DecidableEq, Repr

namespace Criteria

def ofText (s : String) : Criteria :=
  let operand := String.ofList (s.toList.dropWhile isRelationChar)
  ⟨Relation.ofChars? (s.toList.takeWhile isRelationChar), operand, Pattern.ofText operand⟩

/-- The criteria that a value stands for. -/
def ofValue (v : Value) : Criteria :=
  ofText v.corner.display

/-- The value is selected; without a relation none is. -/
def selects (c : Criteria) (dates : Calendar.DateSystem) (v : Scalar) : Bool :=
  c.relation.any fun r => holds dates c.operand c.pattern r v

end Criteria

end Spreadsheet
