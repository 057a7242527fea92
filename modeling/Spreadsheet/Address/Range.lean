import Spreadsheet.Address.Cell

/-!
# Cell ranges

A range is a rectangle of cells, given by its first and its last corner. Every range made from two corners by
`between` starts at the top left.
-/

namespace Spreadsheet

structure CellRange where
  start : CellAddress
  stop : CellAddress
deriving DecidableEq, Repr

namespace CellRange

/-- The rectangle between two corners. Each coordinate keeps its own absolute mark. -/
def between (a b : CellAddress) : CellRange :=
  let (top, bottom) := if a.row ≤ b.row then (a, b) else (b, a)
  let (left, right) := if a.col ≤ b.col then (a, b) else (b, a)
  ⟨⟨top.row, left.col, top.rowAbsolute, left.colAbsolute⟩,
    ⟨bottom.row, right.col, bottom.rowAbsolute, right.colAbsolute⟩⟩

def single (a : CellAddress) : CellRange :=
  ⟨a, a⟩

/-- The first corner is neither below nor to the right of the last one. -/
def Normal (r : CellRange) : Prop :=
  r.start.row ≤ r.stop.row ∧ r.start.col ≤ r.stop.col

instance (r : CellRange) : Decidable r.Normal :=
  inferInstanceAs (Decidable (_ ∧ _))

def isSingleCell (r : CellRange) : Bool :=
  r.start.sameCell r.stop

def contains (r : CellRange) (a : CellAddress) : Bool :=
  r.start.row ≤ a.row && a.row ≤ r.stop.row && r.start.col ≤ a.col && a.col ≤ r.stop.col

/-- Rows are numbered by words of 32 bits. -/
def rowWords : Nat := 4294967296

/-- Columns are numbered by words of 16 bits. -/
def colWords : Nat := 65536

/-- The number of indices from the first to the last one, which is a word like the indices themselves. It wraps to zero
if these are all words there are. -/
def wordCount (words first last : Nat) : Nat :=
  if first = 0 ∧ last + 1 = words then 0 else last - first + 1

def rowCount (r : CellRange) : Nat :=
  wordCount rowWords r.start.row r.stop.row

def colCount (r : CellRange) : Nat :=
  wordCount colWords r.start.col r.stop.col

/-- The product of two counts, for which a word of 64 bits is enough. -/
def cellCount (r : CellRange) : Nat :=
  r.rowCount * r.colCount

def overlaps (r s : CellRange) : Bool :=
  r.start.row ≤ s.stop.row && r.stop.row ≥ s.start.row && r.start.col ≤ s.stop.col && r.stop.col ≥ s.start.col

/-- The common rectangle, if there is one. -/
def intersect? (r s : CellRange) : Option CellRange :=
  if r.overlaps s then
    some (between (.relative (max r.start.row s.start.row) (max r.start.col s.start.col))
      (.relative (min r.stop.row s.stop.row) (min r.stop.col s.stop.col)))
  else none

/-- The least rectangle with the range and one more cell in it. -/
def extendTo (r : CellRange) (a : CellAddress) : CellRange :=
  between (.relative (min r.start.row a.row) (min r.start.col a.col))
    (.relative (max r.stop.row a.row) (max r.stop.col a.col))

/-- A walk along the rows of a range: the cell that comes next, and how many cells are left. -/
structure Walk where
  range : CellRange
  row : Nat
  col : Nat
  remaining : Nat
deriving DecidableEq, Repr

/-- The walk from the first cell on. -/
def walk (r : CellRange) : Walk :=
  ⟨r, r.start.row, r.start.col, r.cellCount⟩

namespace Walk

/-- Go on to the next row behind the last column. -/
def advance (w : Walk) : Walk :=
  if w.col = w.range.stop.col then ⟨w.range, w.row + 1, w.range.start.col, w.remaining - 1⟩ else
  ⟨w.range, w.row, w.col + 1, w.remaining - 1⟩

/-- The next cell and the rest of the walk. Only the number of cells left ends a walk, not where it has come to. -/
def next? (w : Walk) : Option (CellAddress × Walk) :=
  if w.remaining = 0 then none else some (.relative w.row w.col, w.advance)

/-- At most `n` more cells, behind those that were met before, the latest one of them first. -/
def collect (met : List CellAddress) : Nat → Walk → List CellAddress
  | 0, _ => met.reverse
  | n + 1, w =>
    match w.next? with
    | none => met.reverse
    | some (a, rest) => collect (a :: met) n rest

end Walk

/-- The first `n` cells, or all if there are not that many, row by row. -/
def firstCells (r : CellRange) (n : Nat) : List CellAddress :=
  r.walk.collect [] n

/-- The `k`-th cell, row by row. -/
def cellAt (r : CellRange) (k : Nat) : CellAddress :=
  .relative (r.start.row + k / r.colCount) (r.start.col + k % r.colCount)

/-- All cells that are counted, row by row. -/
def cells (r : CellRange) : List CellAddress :=
  (List.range r.cellCount).map r.cellAt

/-- The indices of the rows, from the first to the last one. No count is needed for them. -/
def rows (r : CellRange) : List Nat :=
  List.range' r.start.row (r.stop.row + 1 - r.start.row)

/-- The indices of the columns. -/
def cols (r : CellRange) : List Nat :=
  List.range' r.start.col (r.stop.col + 1 - r.start.col)

def cornerChars (r : CellRange) : List Char :=
  r.start.chars ++ ':' :: r.stop.chars

def chars (r : CellRange) : List Char :=
  if r.start = r.stop then r.start.chars else r.cornerChars

/-- The range in A1 notation; two equal corners are written once. -/
def text (r : CellRange) : String :=
  String.ofList r.chars

instance : ToString CellRange := ⟨text⟩

/-- The text before the first colon and the text behind it. -/
def splitCorners? (s : List Char) : Option (List Char × List Char) :=
  match s.dropWhile (· != ':') with
  | _ :: rest => some (s.takeWhile (· != ':'), rest)
  | [] => none

def readTrimmed (s : List Char) : Except AddressError CellRange :=
  match splitCorners? s with
  | none => (CellAddress.readChars s).map single
  | some (first, last) => do
    let a ← (CellAddress.readChars first).mapError (.badCorner (String.ofList s))
    let b ← (CellAddress.readChars last).mapError (.badCorner (String.ofList s))
    return between a b

def readChars (s : List Char) : Except AddressError CellRange :=
  readTrimmed (Text.trim s)

/-- The range that a text names; a single address is a range of one cell. -/
def read (s : String) : Except AddressError CellRange :=
  readChars s.toList

end CellRange

end Spreadsheet
