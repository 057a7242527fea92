import Spreadsheet.Proofs.Evaluation.BoundingArea
import Spreadsheet.Proofs.Evaluation.ConditionalSums
import Spreadsheet.Proofs.Evaluation.FirstError
import Spreadsheet.Proofs.Workbook.DirectEvaluation

/-!
# Denotations of an area

An area is written out, or has a name, or is spanned by two of its corners and the range operator.  SUMIF goes through the
same cells in all three cases, but it takes the shape only of an area that is written out: what a name stands for and what
the operator gives counts as one row (`Selection.IsRowOf`).  So the denotations are as good as each other if the area has
one row, if there is no sum range or it keeps its own shape, and if the edge of the sheet makes one row of both shapes
(`Selection.resize_eq_resize_iff`).
-/

namespace Spreadsheet

variable {σ : Type} {s : Scope σ} {settings : Settings} {r : Resolver σ} {sheet : Option String}

/-! ### Rows of cells -/

namespace Selection

/-- The operand has the cells of an area, but the shape of one row. -/
structure IsRowOf (s : Scope σ) (sheet : Option String) (area : CellRange) (t : Token) : Prop where
  parts : t.parts s = pure (area.cells.map (.cell sheet))
  shape : ∀ count, shape t count = (1, min count (CellRange.colWords - 1))

/-- A name for an area. -/
theorem isRowOf_name {id : Nat} {first last : CellAddress} (hname : r.name id = pure [.area sheet first last]) (n : Nat) :
    IsRowOf (.withLevels settings r (n + 1)) sheet (.between first last) (.name id) where
  parts := by
    have htarget : r.target settings n id = pure (.area sheet first last) := by
      have hevaluate : evaluateToken (.withLevels settings r n) [.area sheet first last] = pure (.area sheet first last) :=
        (Expression.operand (.area sheet first last) rfl).evaluateToken_tokens
      rw [Resolver.target, hname, pure_bind, evaluateNested, hevaluate]
      rfl
    rw [Token.parts_name, htarget, pure_bind]
    rfl
  shape _ := rfl

/-- The result of a reference operator. -/
theorem isRowOf_references {area area' : CellRange} (h : area'.cells = area.cells) :
    IsRowOf s sheet area (.references [.area sheet area']) where
  parts := by
    have hname : ∀ id, Token.references [.area sheet area'] ≠ .name id := nofun
    rw [Token.parts_eq_ownParts hname, Token.ownParts, List.flatMap_singleton, Reference.cells, h, List.map_map]
    rfl
  shape _ := rfl

/-- A sum range that is the same in the shape of an area as in that of one row with as many cells.  All but cells and areas
keep their shape.  A cell or an area needs one row for both shapes, and as many columns for both, or else the edge of the
sheet cuts them to that. -/
def FitsRow (area : CellRange) (sumRange : Token) : Prop :=
  ∀ other, sumRange.range? = some other →
    (area.rowCount ≤ 1 ∨ maxRows ≤ other.start.row + 1) ∧
      (max 1 area.colCount = max 1 area.cellCount ∨
        maxCols ≤ other.start.col + max 1 (min area.colCount area.cellCount))

/-- If the area can be counted, then it has one row, or the sum range has one row on the sheet and goes to the last
column. -/
theorem fitsRow_iff {area : CellRange} (hcount : area.Countable) (sumRange : Token) :
    FitsRow area sumRange ↔ ∀ other, sumRange.range? = some other →
      area.rowCount = 1 ∨ maxRows ≤ other.start.row + 1 ∧ maxCols ≤ other.start.col + area.colCount := by
  have hrows := hcount.rowCount_pos
  have hcols := hcount.colCount_pos
  have hle : area.colCount ≤ area.cellCount := Nat.le_mul_of_pos_left _ hrows
  have hone : area.colCount = area.cellCount ↔ area.rowCount = 1 := by
    rw [CellRange.cellCount, eq_comm, Nat.mul_eq_right hcols.ne']
  refine forall₂_congr fun other _ => ?_
  rw [Nat.max_eq_right hcols, Nat.max_eq_right (hcols.trans_le hle), Nat.min_eq_left hle, Nat.max_eq_right hcols, hone]
  omega

private theorem lastIndex_eq_lastIndex_iff (first m n limit : Nat) :
    lastIndex first m limit = lastIndex first n limit ↔
      max 1 m = max 1 n ∨ limit ≤ first + max 1 (min m n) := by
  show min (first + (m - 1)) (limit - 1) = min (first + (n - 1)) (limit - 1) ↔ _
  omega

private theorem resize_of_range?_eq_none {sumRange : Token} (h : sumRange.range? = none) (size : Nat × Nat) :
    resize sumRange size = sumRange := by
  cases sumRange with
  | cell | area => cases h
  | _ => rfl

theorem resize_eq_resize_iff (area : CellRange) (sumRange : Token) :
    resize sumRange (area.rowCount, area.colCount) = resize sumRange (1, min area.cellCount (CellRange.colWords - 1)) ↔
      FitsRow area sumRange := by
  cases hsum : sumRange.range? with
  | none =>
    rw [resize_of_range?_eq_none hsum, resize_of_range?_eq_none hsum, eq_self, true_iff]
    intro other hother
    cases hsum.symm.trans hother
  | some other =>
    -- No row of a sheet is as long as the greatest word, and so it does not matter that a row of cells stops there.
    have hsheet : maxCols < CellRange.colWords := by decide
    -- Both ranges start at the same cell, and so they are the same if they end at the same cell.
    rw [resize_eq_reshape hsum, resize_eq_reshape hsum]
    simp only [reshape, Token.area.injEq, CellAddress.relative, CellAddress.mk.injEq, true_and, and_true]
    rw [lastIndex_eq_lastIndex_iff, lastIndex_eq_lastIndex_iff]
    constructor
    · intro h other' hother'
      obtain rfl := Option.some.inj (hsum.symm.trans hother')
      omega
    · intro h
      have hother := h other hsum
      omega

/-- The sum takes a row of the cells for the area. -/
theorem callFunction_sumIf_of_isRowOf {t : Token} {first last : CellAddress}
    (ht : IsRowOf s sheet (.between first last) t) (criteria : Token) (more : List Token)
    (hfits : ∀ sumRange ∈ more.head?, FitsRow (.between first last) sumRange) :
    callFunction s Function.sumIf.id (t :: criteria :: more) =
      callFunction s Function.sumIf.id (.area sheet first last :: criteria :: more) := by
  let cells := (CellRange.between first last).cells.map (Token.cell sheet)
  have harea : (Token.area sheet first last).parts s = pure cells := rfl
  have hparts : t.parts s = pure cells := ht.parts
  have htargets : targets s t cells more.head? = targets s (.area sheet first last) cells more.head? := by
    cases more with
    | nil => rfl
    | cons sumRange more =>
      have hresize := (resize_eq_resize_iff (.between first last) sumRange).2 (hfits sumRange rfl)
      show (resize sumRange _).parts s = (resize sumRange _).parts s
      rw [ht.shape, shape_of_range? (r := .between first last) rfl, hresize, List.length_map, CellRange.length_cells]
  have hsum : sumIf s (t :: criteria :: more) = sumIf s (.area sheet first last :: criteria :: more) := by
    simp only [sumIf, hparts, harea, pure_bind, htargets]
  rw [callFunction, callFunction, Function.ofId?_id]
  show (if _ then sumIf s (t :: criteria :: more) else _) = _
  rw [hsum]
  rfl

/-- The tokens of a conditional sum. -/
def sumIfTokens (range : List Token) (criteria : Expression) (sumRange : Option Expression) (returnsArray : Bool) :
    List Token :=
  range ++ (criteria :: sumRange.toList).flatMap Expression.tokens ++
    [.call Function.sumIf.id (sumRange.toList.length + 2) returnsArray]

/-- Whatever the sum range is evaluated to, it fits. -/
def AlwaysFitsRow (s : Scope σ) (area : CellRange) (sumRange : Option Expression) : Prop :=
  ∀ e ∈ sumRange, ∀ p t q, (e.evaluate s).runFrom p = (.ok t, q) → FitsRow area t

/-- The range is evaluated without a question, and the other arguments after it. -/
theorem evaluateToken_sumIfTokens (range : Expression) {t : Token} (hrange : range.evaluate s = pure t)
    (criteria : Expression) (sumRange : Option Expression) (returnsArray : Bool) :
    evaluateToken s (sumIfTokens range.tokens criteria sumRange returnsArray) =
      criteria.evaluate s >>= fun c => sumRange.toList.mapM (Expression.evaluate s) >>= fun more =>
        (callFunction s Function.sumIf.id (t :: c :: more)).trap := by
  have hcall := Expression.evaluateToken_arguments (s := s) (range :: criteria :: sumRange.toList) Function.sumIf.id
    returnsArray
  rw [List.flatMap_cons, List.mapM_cons, List.mapM_cons, hrange] at hcall
  rw [sumIfTokens]
  refine hcall.trans ?_
  simp only [pure_bind, bind_assoc]

private theorem evaluateToken_sumIfTokens_of_isRowOf (range : Expression) {t : Token} {first last : CellAddress}
    (hrange : range.evaluate s = pure t) (ht : IsRowOf s sheet (.between first last) t) (criteria : Expression)
    {sumRange : Option Expression} (hfits : AlwaysFitsRow s (.between first last) sumRange) (returnsArray : Bool) :
    evaluateToken s (sumIfTokens range.tokens criteria sumRange returnsArray) =
      evaluateToken s (sumIfTokens [.area sheet first last] criteria sumRange returnsArray) := by
  have harea := evaluateToken_sumIfTokens (s := s) (.operand (.area sheet first last) rfl) rfl criteria sumRange
    returnsArray
  refine ((evaluateToken_sumIfTokens range hrange ..).trans ?_).trans harea.symm
  refine congrArg _ (funext fun c => ?_)
  cases sumRange with
  | none =>
    simp only [Option.toList_none, List.mapM_nil, pure_bind]
    rw [callFunction_sumIf_of_isRowOf ht c [] (by simp)]
  | some e =>
    simp only [Option.toList_some, List.mapM_cons, List.mapM_nil, pure_bind, bind_assoc]
    refine Eval.bind_congr_ok fun p u q hu => ?_
    rw [callFunction_sumIf_of_isRowOf ht c [u]]
    rintro _ ⟨⟩
    exact hfits e rfl p u q hu

/-- The corners of an area with the range operator behind them. -/
theorem evaluateToken_sumIfTokens_corners {a b first last : CellAddress}
    (h : (CellRange.between a b).cells = (CellRange.between first last).cells) (criteria : Expression)
    {sumRange : Option Expression} (hfits : AlwaysFitsRow s (.between first last) sumRange) (returnsArray : Bool) :
    evaluateToken s (sumIfTokens [.cell sheet a, .cell sheet b, .operator .range] criteria sumRange returnsArray) =
      evaluateToken s (sumIfTokens [.area sheet first last] criteria sumRange returnsArray) := by
  let cells : Fin (Operation.operator .range).arity → Expression :=
    ![.operand (.cell sheet a) rfl, .operand (.cell sheet b) rfl]
  have hcells : ∀ i, (cells i).evaluate s = pure (![.cell sheet a, .cell sheet b] i) := Fin.forall_fin_two.2 ⟨rfl, rfl⟩
  obtain ⟨area, harea, happly⟩ := applyOperator_range_cells s sheet a b
  have hevaluate : (Expression.node (.operator .range) cells).evaluate s = pure (.references [.area sheet area]) :=
    (Expression.evaluate_node hcells).trans ((congrArg Eval.trap happly).trans (Eval.trap_pure _))
  exact evaluateToken_sumIfTokens_of_isRowOf (.node (.operator .range) cells) hevaluate
    (isRowOf_references (harea.trans h)) criteria hfits returnsArray

end Selection

/-! ### Denotations -/

namespace Workbook

open Selection

variable {wb : Workbook} {first last : CellAddress} {range : List Token}

/-- Tokens for an area: the area itself, a name that is defined as the area, and the range operator between two of its
corners. -/
inductive Denotes (wb : Workbook) (sheet : Option String) (first last : CellAddress) : List Token → Prop
  | area : Denotes wb sheet first last [.area sheet first last]
  | name {id : Nat} {d : DefinedName} (hd : wb.definedName? id = some d) (htokens : d.tokens = [.area sheet first last])
      (hdepth : 0 < wb.settings.maxNestingDepth) : Denotes wb sheet first last [.name id]
  | corners {a b : CellAddress} (h : (CellRange.between a b).cells = (CellRange.between first last).cells) :
      Denotes wb sheet first last [.cell sheet a, .cell sheet b, .operator .range]

/-- However the values of cells are looked up. -/
theorem evaluateToken_sumIfTokens_of_denotes (lookUp : Location → Eval Session Scalar)
    (h : wb.Denotes sheet first last range) (criteria : Expression) (sumRange : Option Expression)
    (hfits : AlwaysFitsRow (.of wb.settings (wb.resolverWith lookUp)) (.between first last) sumRange)
    (returnsArray : Bool) :
    evaluateToken (.of wb.settings (wb.resolverWith lookUp)) (sumIfTokens range criteria sumRange returnsArray) =
      evaluateToken (.of wb.settings (wb.resolverWith lookUp))
        (sumIfTokens [.area sheet first last] criteria sumRange returnsArray) := by
  cases h with
  | area => rfl
  | @name id d hd htokens hdepth =>
    have hname : (wb.resolverWith lookUp).name id = pure [.area sheet first last] := by
      refine Eval.ext_runFrom fun s => (resolverWith_name wb lookUp id s).trans ?_
      rw [nameTokens, hd, ← htokens]
      rfl
    obtain ⟨n, hn⟩ := Nat.exists_eq_add_one.2 hdepth
    have hrow : IsRowOf (.of wb.settings (wb.resolverWith lookUp)) sheet (.between first last) (.name id) := by
      rw [Scope.of, hn]
      exact isRowOf_name hname n
    exact evaluateToken_sumIfTokens_of_isRowOf (.operand (.name id) rfl) rfl hrow criteria hfits returnsArray
  | corners h => exact evaluateToken_sumIfTokens_corners h criteria hfits returnsArray

/-- A conditional sum is the same for every denotation of an area, in a formula cell as outside of cells, if the sum range
fits a row of its cells.  And only then does the sum range take the shape of the area when the criteria range is no area
that is written out. -/
theorem evaluate_sumIfTokens_of_denotes (h : wb.Denotes sheet first last range) (criteria : Expression)
    (sumRange : Option Expression) (returnsArray : Bool) :
    let area := CellRange.between first last
    let formula := fun range => sumIfTokens range criteria sumRange returnsArray
    (∀ lookUp, AlwaysFitsRow (.of wb.settings (wb.resolverWith lookUp)) area sumRange →
      evaluateToken (.of wb.settings (wb.resolverWith lookUp)) (formula range) =
        evaluateToken (.of wb.settings (wb.resolverWith lookUp)) (formula [.area sheet first last])) ∧
    (AlwaysFitsRow wb.scope area sumRange →
      ∀ i, wb.evaluate i (formula range) = wb.evaluate i (formula [.area sheet first last])) ∧
    ∀ t u : Token, IsRowOf wb.scope sheet area t →
      (resize u (shape t area.cellCount) = resize u (shape (.area sheet first last) area.cellCount) ↔ FitsRow area u) := by
  intro area formula
  have hevaluate := fun lookUp hfits =>
    evaluateToken_sumIfTokens_of_denotes lookUp h criteria sumRange hfits returnsArray
  refine ⟨hevaluate, fun hfits i => ?_, fun t u ht => ?_⟩
  · have hvalue : evaluateValue wb.scope (formula range) = evaluateValue wb.scope (formula [.area sheet first last]) :=
      congrArg (· >>= _) (hevaluate _ hfits)
    rw [evaluate, evaluate, hvalue]
  · rw [ht.shape, shape_of_range? (r := area) rfl, eq_comm, resize_eq_resize_iff]

/-- Ones in a column beside powers of ten, and names for the column and for the first row. -/
def columns : Workbook where
  sheets := [{
    name := "Sheet1"
    cells := .ofList [
      (⟨0, 0⟩, .constant (.number 1)), (⟨0, 1⟩, .constant (.number 1)),
      (⟨1, 0⟩, .constant (.number 1)), (⟨1, 1⟩, .constant (.number 10)),
      (⟨2, 0⟩, .constant (.number 1)), (⟨2, 1⟩, .constant (.number 100))] Position.order }]
  names := [⟨"Column", [.area none (.relative 0 0) (.relative 2 0)]⟩, ⟨"Row", [.area none (.relative 0 0) (.relative 0 1)]⟩]

private theorem formulaLocations_columns : columns.formulaLocations = [] := by decide +kernel

/-- The sum over the second row for the first one, which is given by its name. -/
theorem evaluate_sumIfTokens_row :
    columns.Denotes none (.relative 0 0) (.relative 0 1) [.name 2] ∧
      (columns.evaluate 0 (sumIfTokens [.name 2] (.operand (.text ">0") rfl)
        (some (.operand (.cell none (.relative 1 0)) rfl)) false)).toOption.bind Value.number? = some 11 := by
  have hrow : columns.Denotes none (.relative 0 0) (.relative 0 1) [.name 2] := .name rfl rfl (by decide)
  obtain ⟨-, hevaluate, -⟩ := evaluate_sumIfTokens_of_denotes hrow (.operand (.text ">0") rfl)
    (some (.operand (.cell none (.relative 1 0)) rfl)) false
  refine ⟨hrow, ?_⟩
  have hfits : AlwaysFitsRow columns.scope (.between (.relative 0 0) (.relative 0 1))
      (some (.operand (.cell none (.relative 1 0)) rfl)) :=
    fun _ _ _ t _ _ => (fitsRow_iff (by decide) t).2 fun _ _ => .inl rfl
  rw [hevaluate hfits 0,
    evaluate_of_stored formulaLocations_columns Nat.one_pos]
  decide +kernel

/-- The column is taken for a row if it is given by its name or by its corners, and then the blank cells beside the first
number are added instead of the two numbers below it. -/
theorem evaluate_sumIfTokens_ne_column :
    let corners := [Token.cell none (.relative 0 0), .cell none (.relative 2 0), .operator .range]
    let sum := fun range => (columns.evaluate 0 (sumIfTokens range (.operand (.text ">0") rfl)
      (some (.operand (.cell none (.relative 0 1)) rfl)) false)).toOption.bind Value.number?
    columns.Denotes none (.relative 0 0) (.relative 2 0) [.name 1] ∧
      columns.Denotes none (.relative 0 0) (.relative 2 0) corners ∧
      sum [.area none (.relative 0 0) (.relative 2 0)] = some 111 ∧ sum [.name 1] = some 1 ∧ sum corners = some 1 ∧
      (1 : Float) ≠ 111 := by
  intro corners sum
  refine ⟨.name rfl rfl (by decide), .corners rfl, ?_, ?_, ?_, by decide +kernel⟩
  all_goals
    simp only [sum, evaluate_of_stored formulaLocations_columns Nat.one_pos]
    decide +kernel

end Workbook

end Spreadsheet
