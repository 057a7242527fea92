import Spreadsheet.Number.Percent
import Spreadsheet.Text.Case

/-!
# Wildcard patterns

In an operand `*` stands for any run of characters, `?` for any one character, and `~` makes one of these or itself
literal. A pattern without wildcards is compared as a text. A percent sign at the very end of a plain number turns the
number into the fraction it means.
-/

namespace Spreadsheet.Criteria

inductive Piece where
  | char (c : Char)
  | anyRun
  | anyOne
deriving DecidableEq, Repr

namespace Piece

/-- The piece as it was written. -/
def written : Piece → Char
  | char c => c
  | anyRun => '*'
  | anyOne => '?'

def isWild : Piece → Bool
  | char _ => false
  | _ => true

end Piece

/-- Read the wildcards of an operand. -/
def readPieces : List Char → List Piece
  | [] => []
  | '~' :: '*' :: s => .char '*' :: readPieces s
  | '~' :: '?' :: s => .char '?' :: readPieces s
  | '~' :: '~' :: s => .char '~' :: readPieces s
  | '*' :: s => .anyRun :: readPieces s
  | '?' :: s => .anyOne :: readPieces s
  | c :: s => .char c :: readPieces s

/-- A character of a plain decimal number. -/
def Piece.numeral? : Piece → Option Char
  | char c => if c.isDigit || c == '.' then some c else none
  | _ => none

/-- The pieces before a final percent sign, together with it. -/
def applyPercent (ps : List Piece) : List Piece :=
  match (ps.mapM Piece.numeral?).bind Number.percentFraction? with
  | some fraction => fraction.map .char
  | none => ps ++ [.char '%']

/-- An operand prepared for matching. -/
structure Pattern where
  pieces : List Piece
deriving DecidableEq, Repr

namespace Pattern

def ofUpper (s : List Char) : Pattern :=
  ⟨if s.getLast? = some '%' then applyPercent (readPieces s.dropLast) else readPieces s⟩

/-- The pattern of an operand, in uppercase. -/
def ofChars (s : List Char) : Pattern :=
  ofUpper (Text.upper s)

def ofText (s : String) : Pattern :=
  ofChars s.toList

/-- The operand in uppercase, with escapes resolved and a percentage replaced. -/
def literal (p : Pattern) : List Char :=
  p.pieces.map Piece.written

def hasWildcards (p : Pattern) : Bool :=
  p.pieces.any Piece.isWild

/-- Which rests of a text match when its first character has to satisfy `ok` and what follows is known. -/
def stepOne (ok : Char → Bool) : List Char → List Bool → List Bool
  | [], _ => [false]
  | c :: s, rests => (ok c && rests.tail.headD false) :: stepOne ok s rests.tail

/-- Which rests of a text match when any run of characters may come before what follows. -/
def stepRun : List Bool → List Bool
  | [] => []
  | b :: rests =>
    let later := stepRun rests
    (b || later.headD false) :: later

/-- For each rest of a text, from the whole text to the empty one, whether it matches the pieces. Letters match in any
case. -/
def matchRests : List Piece → List Char → List Bool
  | [], s => List.replicate s.length false ++ [true]
  | .char c :: ps, s => stepOne (fun d => Text.fold c == Text.fold d) s (matchRests ps s)
  | .anyOne :: ps, s => stepOne (fun _ => true) s (matchRests ps s)
  | .anyRun :: ps, s => stepRun (matchRests ps s)

/-- The whole text matches. -/
def matchesChars (p : Pattern) (s : List Char) : Bool :=
  if p.hasWildcards then (matchRests p.pieces s).headD false else p.literal == Text.upper s

def isMatch (p : Pattern) (s : String) : Bool :=
  p.matchesChars s.toList

end Pattern

end Spreadsheet.Criteria
