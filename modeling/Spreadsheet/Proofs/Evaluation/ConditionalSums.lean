import Spreadsheet.Proofs.Evaluation.BooleanCells
import Spreadsheet.Proofs.Evaluation.Partners

/-!
# Conditional sums

SUMIF goes through pairs of cells, adding the second one of each pair whose first one is selected, up to the first error
value (`outcome_sumFrom`).  The pairs are those of cells and partners when the whole shape of the criteria range is on
the sheet (`sumIf_partners`).  At the edge of the sheet this is so unless columns are lost and more than one row is left
(`sumIf_partnersOnSheet`).
-/

namespace Spreadsheet

namespace Selection

open Criteria (ofValue)

/-! ### Adding up -/

/-- The number that a value adds to a sum.  Booleans add nothing. -/
def addend? : Scalar → Option Float
  | .number x => some x
  | _ => none

/-- The first error value, or else the sum of the numbers from the left. -/
def addUp (vs : List Scalar) : Except FormulaError Float :=
  match vs.findSome? Scalar.error? with
  | some e => .error (.code e)
  | none => .ok (Aggregate.total (vs.filterMap addend?))

/-- The sum of the values given to the selected cells, `value` being what a cell itself holds. -/
def sumSelected (dates : Calendar.DateSystem) (c : Criteria) (value given : CellAddress → Scalar)
    (cells : List CellAddress) : Except FormulaError Float :=
  addUp ((cells.filter fun a => c.selects dates (value a)).map given)

private theorem foldlM_addValue (sum : Float) (vs : List Scalar) :
    vs.foldlM (fun sum v => addValue sum (.ofScalar v)) sum =
      match vs.findSome? Scalar.error? with
      | some e => .error (.code e)
      | none => .ok ((vs.filterMap addend?).foldl (· + ·) sum) := by
  induction vs generalizing sum with
  | nil => rfl
  | cons v vs ih =>
    rw [List.foldlM_cons]
    cases v with
    | error e => rfl
    | _ => exact ih _

private theorem addUp_eq_foldlM (vs : List Scalar) :
    addUp vs = vs.foldlM (fun sum v => addValue sum (.ofScalar v)) 0 :=
  (foldlM_addValue 0 vs).symm

/-! ### The run through the pairs -/

variable {σ : Type} {r : Resolver σ} {I : σ → Prop} {settings : Settings} {m : Nat} {p : σ}

/-- In all states of a set the operand has the value. -/
def Shows (s : Scope σ) (I : σ → Prop) (t : Token) (v : Scalar) : Prop :=
  ∀ p, I p → ((t.value s).runFrom p).1 = .ok (.ofScalar v)

private theorem corner_ofScalar (v : Scalar) : (Value.ofScalar v).corner = .ofScalar v := by
  cases v <;> rfl

private theorem toScalar_ofScalar (v : Scalar) : (Value.ofScalar v).toScalar = v := by
  cases v <;> rfl

private theorem shows_cell (hr : r.Steady I) (hp : I p) {sheet : Option String} {a : CellAddress} {v : Scalar}
    (h : ((r.cell sheet a).runFrom p).1 = .ok v) : Shows (.withLevels settings r m) I (.cell sheet a) v := by
  intro q hq
  have hanswer : ((r.cell sheet a).runFrom q).1 = .ok v := (hr.same (.cell sheet a) hq hp).trans h
  have hresolver : (Scope.withLevels settings r m).resolver = r := (withLevels_isDialogue settings m).resolver_eq σ r
  rw [Token.value, hresolver, Eval.runFrom_map, hanswer]
  rfl

private theorem forall₂_shows_cells (hr : r.Steady I) (hp : I p) {sheet : Option String} {value : CellAddress → Scalar}
    {cells : List CellAddress} (h : ∀ a ∈ cells, ((r.cell sheet a).runFrom p).1 = .ok (value a)) :
    List.Forall₂ (Shows (.withLevels settings r m) I) (cells.map (.cell sheet)) (cells.map value) := by
  rw [List.forall₂_map_left_iff, List.forall₂_map_right_iff, List.forall₂_same]
  exact fun a ha => shows_cell hr hp (h a ha)

/-- Asking an operand for its value leaves a state of the set. -/
theorem Shows.exists_runFrom (hr : r.Steady I) (hp : I p) {t : Token} {v : Scalar}
    (h : Shows (.withLevels settings r m) I t v) :
    ∃ q, I q ∧ (t.value (.withLevels settings r m)).runFrom p = (.ok (.ofScalar v), q) :=
  ⟨_, (Token.value_steady hr t hp hp).2, Prod.ext (h p hp) rfl⟩

private theorem Shows.exists_selected (hr : r.Steady I) (hp : I p) (c : Criteria) {t : Token} {v : Scalar}
    (h : Shows (.withLevels settings r m) I t v) :
    ∃ q, I q ∧ (selected (.withLevels settings r m) c t).runFrom p = (.ok (c.selects settings.dates v), q) := by
  obtain ⟨q, hq, hrun⟩ := h.exists_runFrom hr hp
  have hsettings : (Scope.withLevels settings r m).settings = settings :=
    (withLevels_isDialogue settings m).settings_eq σ r
  have hvalue : (cellValue (.withLevels settings r m) t).runFrom p = (.ok v, q) := by
    rw [cellValue, Eval.runFrom_bind, hrun]
    dsimp only
    rw [corner_ofScalar, toScalar_ofScalar, Eval.runFrom_pure]
  refine ⟨q, hq, ?_⟩
  rw [runFrom_selected hvalue, hsettings]

/-- The state of the run changes with each question, but the answers do not.  Cells without a target add nothing. -/
theorem outcome_sumFrom (hr : r.Steady I) (hp : I p) (c : Criteria) {cells targets : List Token} {vs ws : List Scalar}
    (hcells : List.Forall₂ (Shows (.withLevels settings r m) I) cells vs)
    (htargets : List.Forall₂ (Shows (.withLevels settings r m) I) targets ws) (sum : Float) :
    ((sumFrom (.withLevels settings r m) c sum cells targets).runFrom p).1 =
      (((vs.zip ws).filter fun x => c.selects settings.dates x.1).map Prod.snd).foldlM
        (fun sum v => addValue sum (.ofScalar v)) sum := by
  induction hcells generalizing sum targets ws p with
  | nil => rfl
  | @cons t v rest vs ht hrest ih =>
    obtain ⟨q, hq, hselected⟩ := ht.exists_selected hr hp c
    show ((selected (.withLevels settings r m) c t >>= fun hit => _).runFrom p).1 = _
    rw [Eval.runFrom_bind, hselected]
    -- A target is used up together with its cell, whether it is added or not.
    cases htargets with
    | nil =>
      have hnone := ih hq .nil sum
      rw [List.zip_nil_right] at hnone ⊢
      cases c.selects settings.dates v <;> exact hnone
    | @cons target w others ws htarget hothers =>
      rw [List.zip_cons_cons, List.filter_cons]
      cases c.selects settings.dates v with
      | false => exact ih hq hothers sum
      | true =>
        obtain ⟨q', hq', hrun⟩ := htarget.exists_runFrom hr hq
        show ((target.value (.withLevels settings r m) >>= fun x => _).runFrom q).1 = _
        rw [Eval.runFrom_bind, hrun]
        show ((Eval.ofExcept (addValue sum (Value.ofScalar w).corner) >>= fun sum => _).runFrom q').1 = _
        rw [corner_ofScalar, Eval.runFrom_bind, Eval.runFrom_ofExcept]
        show _ = addValue sum (.ofScalar w) >>= fun sum => _
        cases addValue sum (.ofScalar w) with
        | error e => rfl
        | ok sum => exact ih hq' hothers sum

/-! ### SUMIF -/

/-- The criteria is evaluated first.  If it has a value then the outcome is that of the sum. -/
theorem outcome_sumIf (hr : r.Steady I) (hp : I p) {range criteria : Token} (more : List Token)
    {cells sums : List Token} {vs ws : List Scalar} (hparts : range.parts (.withLevels settings r m) = pure cells)
    (hsums : targets (.withLevels settings r m) range cells more.head? = pure sums)
    (hcells : List.Forall₂ (Shows (.withLevels settings r m) I) cells vs)
    (htargets : List.Forall₂ (Shows (.withLevels settings r m) I) sums ws) :
    ((sumIf (.withLevels settings r m) (range :: criteria :: more)).runFrom p).1 = do
      let v ← ((criteria.value (.withLevels settings r m)).runFrom p).1
      return .number (← addUp (((vs.zip ws).filter fun x => (ofValue v).selects settings.dates x.1).map Prod.snd)) := by
  rw [sumIf, hparts, Eval.runFrom_bind]
  rcases hrun : (criteria.value (.withLevels settings r m)).runFrom p with ⟨e | v, q⟩
  · rfl
  · have hq : I q := (criteria.value_isDialogue (withLevels_isDialogue settings m)).run_stays hr hp hrun
    have hsum := outcome_sumFrom hr hq (ofValue v) hcells htargets 0
    rw [← addUp_eq_foldlM] at hsum
    dsimp only
    rw [pure_bind, hsums, pure_bind, bind_pure_comp, Eval.runFrom_map, hsum]
    rfl

/-- Without cells the targets do not matter. -/
theorem outcome_sumIf_nil {range criteria : Token} (more : List Token) {sums : List Token}
    (hparts : range.parts (.withLevels settings r m) = pure [])
    (hsums : targets (.withLevels settings r m) range [] more.head? = pure sums) :
    ((sumIf (.withLevels settings r m) (range :: criteria :: more)).runFrom p).1 = do
      let _ ← ((criteria.value (.withLevels settings r m)).runFrom p).1
      return .number (← addUp []) := by
  rw [sumIf, hparts, Eval.runFrom_bind]
  rcases (criteria.value (.withLevels settings r m)).runFrom p with ⟨e | v, q⟩
  · rfl
  · dsimp only
    rw [pure_bind, hsums]
    rfl

section Cells

variable {range sumRange : Token} {area other : CellRange} {value found : CellAddress → Scalar}

private theorem parts_of_range? (h : range.range? = some area) :
    range.parts (.withLevels settings r m) = pure (range.addresses.map (.cell range.sheet?)) := by
  have hname : ∀ id, range ≠ .name id := by
    rintro id rfl
    cases h
  rw [Token.parts_eq_ownParts hname, Token.ownParts_of_range? h]

/-- Each cell is added for itself. -/
theorem outcome_sumIf_self (hr : r.Steady I) (hp : I p) (hrange : range.range? = some area)
    (hcells : ∀ a ∈ range.addresses, ((r.cell range.sheet? a).runFrom p).1 = .ok (value a)) (criteria : Token) :
    ((sumIf (.withLevels settings r m) [range, criteria]).runFrom p).1 = do
      let v ← ((criteria.value (.withLevels settings r m)).runFrom p).1
      return .number (← sumSelected settings.dates (ofValue v) value value range.addresses) := by
  have hshows : List.Forall₂ (Shows (.withLevels settings r m) I) (range.addresses.map (.cell range.sheet?))
      (range.addresses.map value) := forall₂_shows_cells hr hp hcells
  rw [outcome_sumIf hr hp [] (parts_of_range? hrange) rfl hshows hshows, List.zip_map']
  simp only [sumSelected, List.filter_map, List.map_map]
  rfl

/-- The cells with a partner on the sheet are the only ones for which something is added. -/
theorem outcome_sumIf_partners (hr : r.Steady I) (hp : I p) (hrange : range.range? = some area)
    (hcells : ∀ a ∈ range.addresses, ((r.cell range.sheet? a).runFrom p).1 = .ok (value a))
    (hsum : sumRange.range? = some other) (hkeeps : KeepsColumns area other.start)
    (hfound : ∀ a ∈ range.addresses, (area.partner other.start a).InBounds →
      ((r.cell sumRange.sheet? (area.partner other.start a)).runFrom p).1 = .ok (found (area.partner other.start a)))
    (criteria : Token) :
    ((sumIf (.withLevels settings r m) [range, criteria, sumRange]).runFrom p).1 = do
      let v ← ((criteria.value (.withLevels settings r m)).runFrom p).1
      return .number (← sumSelected settings.dates (ofValue v) value (fun a => found (area.partner other.start a))
        (range.addresses.filter fun a => decide (area.partner other.start a).InBounds)) := by
  have hsums : targets (.withLevels settings r m) range (range.addresses.map (.cell range.sheet?)) (some sumRange) =
      pure ((placed other.start (area.rowCount, area.colCount)).cells.map (.cell sumRange.sheet?)) := by
    rw [targets, shape_of_range? hrange, parts_of_range? (range?_resize hsum _), addresses_resize hsum, sheet?_resize hsum]
  have hparts : range.parts (.withLevels settings r m) = pure (range.addresses.map (.cell range.sheet?)) :=
    parts_of_range? hrange
  by_cases hcount : area.Countable
  case neg =>
    rw [Token.addresses_eq_nil hrange hcount] at hsums hparts ⊢
    exact outcome_sumIf_nil [sumRange] hparts hsums
  have hplaced := cells_placed_of_keepsColumns hrange hkeeps hcount
  have hpairs := pairsPartners_of_keepsColumns hrange hsum hkeeps
  rw [PairsPartners, pairs_eq_zip hrange hsum] at hpairs
  have htargets : ∀ b ∈ (placed other.start (area.rowCount, area.colCount)).cells,
      ((r.cell sumRange.sheet? b).runFrom p).1 = .ok (found b) := by
    rw [hplaced, List.forall_mem_map]
    intro a ha
    obtain ⟨ha, hinBounds⟩ := List.mem_filter.1 ha
    exact hfound a ha (of_decide_eq_true hinBounds)
  rw [outcome_sumIf hr hp [sumRange] hparts hsums (forall₂_shows_cells hr hp hcells)
    (forall₂_shows_cells hr hp htargets), List.zip_map, hpairs]
  simp only [sumSelected, List.filter_map, List.map_map]
  rfl

private theorem sumSelected_congr {dates : Calendar.DateSystem} {c : Criteria} {given given' : CellAddress → Scalar}
    {cells : List CellAddress} (h : ∀ a ∈ cells, given a = given' a) :
    sumSelected dates c value given cells = sumSelected dates c value given' cells := by
  rw [sumSelected, sumSelected, List.map_congr_left fun a ha => h a (List.mem_of_mem_filter ha)]

/-- Every cell but a single one is without absolute marks. -/
private theorem exists_unmarked (h : range.range? = some area) (value : CellAddress → Scalar) :
    ∃ found : CellAddress → Scalar, ∀ a ∈ range.addresses, found (.relative a.row a.col) = value a := by
  cases range with
  | cell sheet a => exact ⟨fun _ => value a, List.forall_mem_singleton.2 rfl⟩
  | area sheet first last =>
    refine ⟨value, fun a ha => ?_⟩
    rw [← (CellRange.contains_of_mem_cells (CellRange.normal_between first last) ha).2]
  | _ => cases h

end Cells

/-- If the shape of the criteria range is on the sheet from the corner of the sum range on, then for each selected cell the
one that is as far from this corner is added: the numbers in the order of the criteria range, up to the first error value.
Without a sum range, and with the criteria range as sum range, the selected cells themselves are added. -/
theorem sumIf_partners (hr : r.Steady I) (hp : I p) {range : Token} {area : CellRange} (hrange : range.range? = some area)
    {value : CellAddress → Scalar}
    (hcells : ∀ a ∈ range.addresses, ((r.cell range.sheet? a).runFrom p).1 = .ok (value a)) (criteria : Token) :
    let s := Scope.withLevels settings r m
    let outcome := fun args => ((callFunction s Function.sumIf.id args).runFrom p).1
    let total := fun given : CellAddress → Scalar => do
      let v ← ((criteria.value s).runFrom p).1
      return Token.number (← sumSelected settings.dates (ofValue v) value given range.addresses)
    (∀ (sumRange : Token) (other : CellRange) (found : CellAddress → Scalar), sumRange.range? = some other →
      other.start.row + area.rowCount ≤ maxRows → other.start.col + area.colCount ≤ maxCols →
      (∀ a ∈ range.addresses, ((r.cell sumRange.sheet? (area.partner other.start a)).runFrom p).1 =
        .ok (found (area.partner other.start a))) →
      outcome [range, criteria, sumRange] = total fun a => found (area.partner other.start a)) ∧
    outcome [range, criteria] = total value ∧
    (area.start.row + area.rowCount ≤ maxRows → area.start.col + area.colCount ≤ maxCols →
      (∀ a ∈ range.addresses, ((r.cell range.sheet? (.relative a.row a.col)).runFrom p).1 = .ok (value a)) →
      outcome [range, criteria, range] = total value) := by
  intro s outcome total
  have hpartners : ∀ (sumRange : Token) (other : CellRange) (found : CellAddress → Scalar), sumRange.range? = some other →
      other.start.row + area.rowCount ≤ maxRows → other.start.col + area.colCount ≤ maxCols →
      (∀ a ∈ range.addresses, ((r.cell sumRange.sheet? (area.partner other.start a)).runFrom p).1 =
        .ok (found (area.partner other.start a))) →
      outcome [range, criteria, sumRange] = total fun a => found (area.partner other.start a) := by
    intro sumRange other found hsum hrows hcols hfound
    have hkeeps : KeepsColumns area other.start := by
      by_cases hcount : area.Countable
      · have hrowCount := hcount.rowCount_pos
        have hcolCount := hcount.colCount_pos
        exact .inl ⟨⟨by omega, by omega⟩, .inl hcols⟩
      · exact .inr (CellRange.cellCount_eq_zero hcount)
    have hinBounds : ∀ a ∈ range.addresses, decide (area.partner other.start a).InBounds = true := by
      intro a ha
      have hcount : area.Countable := by
        by_contra hcount
        rw [Token.addresses_eq_nil hrange hcount] at ha
        cases ha
      obtain ⟨⟨-, hrow⟩, -, hcol⟩ := CellRange.contains_iff.1 (Token.contains_of_mem_addresses hrange ha)
      rw [hcount.rowCount_eq] at hrows
      rw [hcount.colCount_eq] at hcols
      rw [decide_eq_true_iff]
      simp only [CellAddress.InBounds, CellRange.partner, CellAddress.relative]
      omega
    refine (outcome_sumIf_partners hr hp hrange hcells hsum hkeeps (fun a ha _ => hfound a ha) criteria).trans ?_
    rw [List.filter_eq_self.2 hinBounds]
  refine ⟨hpartners, outcome_sumIf_self hr hp hrange hcells criteria, fun hrows hcols hunmarked => ?_⟩
  -- A single cell with absolute marks is its own partner without them, so that its value has to be found again.
  obtain ⟨found, hfound⟩ := exists_unmarked hrange value
  have hself : ∀ a ∈ range.addresses, area.partner area.start a = .relative a.row a.col := fun a ha =>
    CellRange.partner_start (Token.contains_of_mem_addresses hrange ha)
  have hrun := hpartners range area found hrange hrows hcols fun a ha => by
    rw [hself a ha, hfound a ha]
    exact hunmarked a ha
  have hsame : ∀ c, sumSelected settings.dates c value (fun a => found (area.partner area.start a)) range.addresses =
      sumSelected settings.dates c value value range.addresses := fun c =>
    sumSelected_congr fun a ha => by rw [hself a ha, hfound a ha]
  simp only [total, hsame] at hrun
  exact hrun

/-- A cell of a price list.  One of its rows begins with an error value and a text; the cells of the formula's sheet are
numbered along rows of two. -/
def price (sheet : Option String) (a : CellAddress) : Scalar :=
  match sheet, a.row, a.col with
  | none, row, col => .number (Float.ofNat (2 * row + col))
  | some _, 3, 2 => .error .na
  | some _, 3, 3 => .text "free"
  | some _, row, col => .number (Float.ofNat (10 * row + col))

def prices : Resolver Unit where
  cell sheet a := pure (price sheet a)
  name id := throw (.unknownName id)
  shared anchor := throw (.noSharedFormula anchor)

private theorem steady_prices : prices.Steady fun _ => True where
  same q s t _ _ := by cases q <;> rfl
  stays _ _ _ := trivial

/-- Of two rows all but the first cell is selected, which is the one with the error value as its partner.  The sum range is
a column, written from below. -/
theorem sumIf_partners_prices :
    let s := Scope.withLevels {} prices 0
    let range := Token.area none (.relative 1 0) (.relative 0 1)
    let sumRange := Token.area (some "Prices") (.relative 9 2) (.relative 3 2)
    ((callFunction s Function.sumIf.id [range, .text ">0", sumRange]).runFrom ()).1 = .ok (.number 85) ∧
    ((callFunction s Function.sumIf.id [range, .text ">0", range]).runFrom ()).1 = .ok (.number 6) := by
  intro s range sumRange
  obtain ⟨hpartners, -, hself⟩ := @sumIf_partners _ prices (fun _ => True) {} 0 () steady_prices trivial range _ rfl
    (price none) (fun _ _ => rfl) (.text ">0")
  refine ⟨(hpartners sumRange _ (price (some "Prices")) rfl (by decide) (by decide) fun _ _ => rfl).trans ?_,
    (hself (by decide) (by decide) fun _ _ => rfl).trans ?_⟩
  · decide +kernel
  · decide +kernel

/-- The cells of a criteria range with a partner on the sheet are paired with it, and the others with none, just if the
range keeps its columns from the corner of the sum range on or only one of its rows is on the sheet.  Then the partners on
the sheet are added for the selected cells, up to the first error value. -/
theorem sumIf_partnersOnSheet (hr : r.Steady I) (hp : I p) {range sumRange : Token} {area other : CellRange}
    (hrange : range.range? = some area) (hsum : sumRange.range? = some other) {value : CellAddress → Scalar}
    (hcells : ∀ a ∈ range.addresses, ((r.cell range.sheet? a).runFrom p).1 = .ok (value a)) :
    (PairsPartners range sumRange area other ↔ KeepsColumns area other.start) ∧
    (KeepsColumns area other.start → ∀ (found : CellAddress → Scalar) (criteria : Token),
      (∀ a ∈ range.addresses, (area.partner other.start a).InBounds →
        ((r.cell sumRange.sheet? (area.partner other.start a)).runFrom p).1 = .ok (found (area.partner other.start a))) →
      ((callFunction (.withLevels settings r m) Function.sumIf.id [range, criteria, sumRange]).runFrom p).1 = do
        let v ← ((criteria.value (.withLevels settings r m)).runFrom p).1
        return .number (← sumSelected settings.dates (ofValue v) value (fun a => found (area.partner other.start a))
          (range.addresses.filter fun a => decide (area.partner other.start a).InBounds))) :=
  ⟨pairsPartners_iff hrange hsum, fun hkeeps _ criteria hfound =>
    outcome_sumIf_partners hr hp hrange hcells hsum hkeeps hfound criteria⟩

/-- A range of two rows is left with two cells in the last row of the sheet. -/
theorem sumIf_partnersOnSheet_lastRow :
    let range := Token.area none (.relative 0 0) (.relative 1 2)
    let sumRange := Token.cell (some "Prices") (.relative 65535 254)
    ((callFunction (.withLevels {} prices 0) Function.sumIf.id [range, .text ">0", sumRange]).runFrom ()).1 =
      .ok (.number 655605) := by
  intro range sumRange
  obtain ⟨-, hrun⟩ := @sumIf_partnersOnSheet _ prices (fun _ => True) {} 0 () steady_prices trivial range sumRange _ _
    rfl rfl (price none) fun _ _ => rfl
  refine (hrun (by decide) (price (some "Prices")) (.text ">0") fun _ _ _ => rfl).trans ?_
  decide +kernel

/-- Numbers in the first row, and greater ones in the last column. -/
def edge (a : CellAddress) : Scalar :=
  match a.row, a.col with
  | 0, 255 => .number 10
  | 1, 255 => .number 100
  | 0, _ => .number 1
  | _, _ => .empty

def edges : Resolver Unit where
  cell _ a := pure (edge a)
  name id := throw (.unknownName id)
  shared anchor := throw (.noSharedFormula anchor)

/-- Two cells of the first row are selected in a range of two rows and columns, of which one column is on the sheet.  The
second cell of this column is added instead of nothing. -/
theorem not_partnersOnSheet_lastColumn :
    let area := CellRange.between (.relative 0 0) (.relative 1 1)
    let range := Token.area none (.relative 0 0) (.relative 1 1)
    let corner := CellAddress.relative 0 255
    ¬ corner.col + area.colCount ≤ maxCols ∧
    sumSelected .from1900 (.ofText ">0") edge (fun a => edge (area.partner corner a))
      (range.addresses.filter fun a => decide (area.partner corner a).InBounds) = .ok 10 ∧
    ((callFunction (.withLevels {} edges 0) Function.sumIf.id [range, .text ">0", .cell none corner]).runFrom ()).1 =
      .ok (.number 110) := by
  refine ⟨by decide, ?_, ?_⟩
  · decide +kernel
  · decide +kernel

end Selection

end Spreadsheet
