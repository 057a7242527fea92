import Spreadsheet.Proofs.Workbook.Operations

/-!
# What a sheet stores

A sheet keeps cells, shared formulas and results by position.  `Sheet.Sound` says how the three belong together, and
each way in which a sheet changes keeps it up (`Sound.step`), so that it holds of every sheet that can come about.  An
edit writes at one position (`Edit.WritesAt`); it fails if it is for no position on the sheet, and then it changes
nothing (`store_invariant`).
-/

namespace Spreadsheet

namespace Sheet

variable {sheet sheet' : Sheet}

/-! ### Reading after a write -/

private theorem shared?_insert (sheet : Sheet) (p q : Position) (tokens : List Token) :
    shared? { sheet with sharedFormulas := sheet.sharedFormulas.insert p tokens } q =
      if p = q then some tokens else sheet.shared? q := by
  show (sheet.sharedFormulas.insert p tokens)[q]? = _
  rw [Std.TreeMap.getElem?_insert]
  simp only [Std.LawfulEqCmp.compare_eq_iff_eq]
  rfl

private theorem ne_empty_of_ofConstant {v : Scalar} {c : Cell} (h : ofConstant v = some c) : c ≠ .constant .empty := by
  cases v <;> cases h <;> simp

/-! ### The invariant -/

/-- Cells and shared formulas stand at positions on the sheet, no constant is empty, and only formulas have results. -/
structure Sound (sheet : Sheet) : Prop where
  cell : ∀ p c, sheet.cell? p = some c → (p.row < maxRows ∧ p.col < maxCols) ∧ c ≠ .constant .empty
  shared : ∀ p tokens, sheet.shared? p = some tokens → p.row < maxRows ∧ p.col < maxCols
  results : sheet.ResultsHaveFormulas

private theorem sound_blank (name : String) : Sound { name } where
  cell p c h := by simp [cell?] at h
  shared p tokens h := by simp [shared?] at h
  results := resultsHaveFormulas_blank name

theorem Sound.put (h : sheet.Sound) {p : Position} (hp : p.row < maxRows ∧ p.col < maxCols) {content : Option Cell}
    (hc : ∀ c, content = some c → c ≠ .constant .empty) : (sheet.put p content).Sound where
  cell q c hq := by
    rw [cell?_put] at hq
    split at hq
    · rename_i hpq
      exact ⟨hpq ▸ hp, hc c hq⟩
    · exact h.cell q c hq
  shared q tokens hq := h.shared q tokens (by rwa [shared?_put] at hq)
  results := h.results.put p content

theorem Sound.step (h : sheet.Sound) (hs : Step sheet sheet') : sheet'.Sound := by
  cases hs with
  | rename name => exact ⟨h.cell, h.shared, h.results⟩
  | value hp v => exact h.put hp fun c => ne_empty_of_ofConstant
  | formula hp tokens => exact h.put hp fun c hc => by simp [← Option.some.inj hc]
  | @shared p hp tokens =>
    refine ⟨h.cell, fun q body hq => ?_, h.results⟩
    rw [shared?_insert] at hq
    split at hq
    · rename_i hpq
      exact hpq ▸ hp
    · exact h.shared q body hq
  | result hp v => exact ⟨h.cell, h.shared, h.results.step (.result hp v)⟩

/-- As no constant is empty, the cells that are stored are the cells that are not blank. -/
theorem Sound.cellCount_eq (h : sheet.Sound) :
    sheet.cellCount = {p | ∃ c, sheet.cell? p = some c ∧ c ≠ .constant .empty}.ncard := by
  have hset : {p | ∃ c, sheet.cell? p = some c ∧ c ≠ .constant .empty} =
      (sheet.cells.keys.toFinset : Set Position) := by
    ext p
    rw [Finset.mem_coe, List.mem_toFinset, Std.TreeMap.mem_keys, Std.TreeMap.mem_iff_isSome_getElem?,
      Option.isSome_iff_exists]
    constructor
    · rintro ⟨c, hc, -⟩
      exact ⟨c, hc⟩
    · rintro ⟨c, hc⟩
      exact ⟨c, hc, (h.cell p c hc).2⟩
  rw [hset, Set.ncard_coe_finset, List.toFinset_card_of_nodup Std.TreeMap.nodup_keys, Std.TreeMap.length_keys]
  rfl

/-- The formulas of a sheet stand in the order of their rows, and those of one row in the order of their columns. -/
theorem pairwise_formulas (sheet : Sheet) :
    (sheet.formulas.map Prod.fst).Pairwise fun p q => p.row < q.row ∨ p.row = q.row ∧ p.col < q.col := by
  refine (Std.TreeMap.ordered_keys.sublist (Workbook.map_fst_formulas_sublist sheet)).imp fun {p q} hpq => ?_
  simp only [Position.order, compareLex, compareOn, Ordering.then_eq_lt, Nat.compare_eq_lt, Nat.compare_eq_eq] at hpq
  exact hpq

/-! ### Edits -/

namespace Edit

/-- The position that an edit is for. -/
def position : Edit → Except WorkbookError Position
  | value cell _ | formula cell _ => cell.toPosition
  | shared anchor _ => readPosition anchor

/-- The sheet with an edit carried out at this position. -/
def write (sheet : Sheet) (p : Position) : Edit → Sheet
  | value _ v => sheet.put p (ofConstant v)
  | formula _ tokens => sheet.put p (some (.formula tokens))
  | shared _ tokens => { sheet with sharedFormulas := sheet.sharedFormulas.insert p tokens }

/-- An edit succeeds just if it is for a position on the sheet, and writes there. -/
theorem run_eq_ok_iff {e : Edit} : e.run.runOn sheet = (.ok (), sheet') ↔
    ∃ p, e.position = .ok p ∧ (p.row < maxRows ∧ p.col < maxCols) ∧ e.write sheet p = sheet' := by
  cases e with
  | value cell v =>
    exact Action.runOn_check_bind_eq_ok.trans (exists_congr fun p => and_congr_right fun _ => setValue_eq_ok_iff)
  | formula cell tokens =>
    exact Action.runOn_check_bind_eq_ok.trans (exists_congr fun p => and_congr_right fun _ => setFormula_eq_ok_iff)
  | shared anchor tokens =>
    refine Action.runOn_check_bind_eq_ok.trans (exists_congr fun p => and_congr_right fun hp => ?_)
    rw [Action.runOn_modify, Prod.mk.injEq, and_iff_right rfl, and_iff_right (readPosition_eq_ok hp)]
    rfl

/-- The content of the cell at the position of an edit, when it is done. -/
def content (before : Option Cell) : Edit → Option Cell
  | value _ v => ofConstant v
  | formula _ tokens => some (.formula tokens)
  | shared .. => before

/-- The shared formula that is anchored at the position of an edit, when it is done. -/
def body (before : Option (List Token)) : Edit → Option (List Token)
  | shared _ tokens => some tokens
  | _ => before

/-- The result at the position of an edit, when it is done: edits of a cell drop it. -/
def result (before : Option Scalar) : Edit → Option Scalar
  | shared .. => before
  | _ => none

/-- The second sheet is the first one but for what an edit does at its position. -/
structure WritesAt (e : Edit) (p : Position) (sheet sheet' : Sheet) : Prop where
  name : sheet'.name = sheet.name
  cell : ∀ q, sheet'.cell? q = if p = q then e.content (sheet.cell? q) else sheet.cell? q
  shared : ∀ q, sheet'.shared? q = if p = q then e.body (sheet.shared? q) else sheet.shared? q
  result : ∀ q, sheet'.result? q = if p = q then e.result (sheet.result? q) else sheet.result? q

theorem writesAt_write (e : Edit) (p : Position) (sheet : Sheet) : e.WritesAt p sheet (e.write sheet p) := by
  cases e with
  | value cell v => exact ⟨name_put .., fun q => cell?_put .., fun q => by simp [write, body], fun q => result?_put ..⟩
  | formula cell tokens =>
    exact ⟨name_put .., fun q => cell?_put .., fun q => by simp [write, body], fun q => result?_put ..⟩
  | shared anchor tokens =>
    exact ⟨rfl, fun q => (ite_self _).symm, fun q => shared?_insert .., fun q => (ite_self _).symm⟩

end Edit

end Sheet

namespace Workbook

variable {wb : Workbook}

/-- An edit of a sheet of a workbook either writes at a position of this sheet, or fails and changes nothing. -/
theorem apply_editSheet {i : Nat} {sheet : Sheet} (hs : wb.sheet? i = some sheet) (e : Sheet.Edit) :
    (∀ p, e.position = .ok p → p.row < maxRows → p.col < maxCols →
      (Operation.editSheet i e).apply wb = { wb with sheets := wb.sheets.set i (e.write sheet p) }) ∧
    ((¬ ∃ p, e.position = .ok p ∧ p.row < maxRows ∧ p.col < maxCols) →
      (∃ error, ((Operation.editSheet i e).run.runOn wb).1 = .error error) ∧ (Operation.editSheet i e).apply wb = wb) := by
  have hrun : (Operation.editSheet i e).run.runOn wb =
      ((e.run.runOn sheet).1, { wb with sheets := wb.sheets.set i (e.run.runOn sheet).2 }) := runOn_editSheet hs e.run
  constructor
  · intro p hp hrow hcol
    have hok : e.run.runOn sheet = (.ok (), e.write sheet p) := Sheet.Edit.run_eq_ok_iff.2 ⟨p, hp, ⟨hrow, hcol⟩, rfl⟩
    rw [hok] at hrun
    exact Operation.apply_of_ok hrun
  · intro hno
    cases herr : (e.run.runOn sheet).1 with
    | ok =>
      obtain ⟨p, hp, hbounds, -⟩ := Sheet.Edit.run_eq_ok_iff.1 (Prod.ext herr rfl)
      exact absurd ⟨p, hp, hbounds⟩ hno
    | error error =>
      have herror : ((Operation.editSheet i e).run.runOn wb).1 = .error error := by rw [hrun, herr]
      exact ⟨⟨error, herror⟩, Operation.apply_of_error herror⟩

/-- In a workbook that can come about, the cells and the shared formulas of a sheet stand at positions on it; no constant
is empty, so that the cells counted are those that are not blank; only formulas have results; and the formulas are listed
each once, row by row.  An edit that is for a position on the sheet changes the cell or the shared formula there and drops
at most the result of this cell; any other edit fails, and changes nothing. -/
theorem store_invariant (h : wb.Reachable) {i : Nat} {sheet : Sheet} (hs : wb.sheet? i = some sheet) :
    (∀ p c, sheet.cell? p = some c → p.row < 65536 ∧ p.col < 256 ∧ c ≠ .constant .empty) ∧
    (∀ p tokens, sheet.shared? p = some tokens → p.row < 65536 ∧ p.col < 256) ∧
    sheet.cellCount = {p | ∃ c, sheet.cell? p = some c ∧ c ≠ .constant .empty}.ncard ∧
    (∀ p v, sheet.result? p = some v → ∃ tokens, sheet.cell? p = some (.formula tokens)) ∧
    (∀ p tokens, (p, tokens) ∈ sheet.formulas ↔ sheet.cell? p = some (.formula tokens)) ∧
    (sheet.formulas.map Prod.fst).Pairwise (fun p q => p.row < q.row ∨ p.row = q.row ∧ p.col < q.col) ∧
    ∀ e : Sheet.Edit,
      (∀ p, e.position = .ok p → p.row < 65536 → p.col < 256 → ∃ sheet', e.WritesAt p sheet sheet' ∧
        (Operation.editSheet i e).apply wb = { wb with sheets := wb.sheets.set i sheet' }) ∧
      ((¬ ∃ p, e.position = .ok p ∧ p.row < 65536 ∧ p.col < 256) →
        (∃ error, ((Operation.editSheet i e).run.runOn wb).1 = .error error) ∧
          (Operation.editSheet i e).apply wb = wb) := by
  have hsound : sheet.Sound :=
    h.sheet_invariant Sheet.sound_blank (fun _ _ h hs => h.step hs) (List.mem_of_getElem? hs)
  have hformula : ∀ p tokens, (sheet.cell? p).bind Cell.formula? = some tokens ↔
      sheet.cell? p = some (.formula tokens) := by
    intro p tokens
    cases sheet.cell? p with
    | none => simp
    | some c => cases c <;> simp [Cell.formula?]
  refine ⟨fun p c hc => ?_, fun p tokens hp => hsound.shared p tokens hp, hsound.cellCount_eq, fun p v hv => ?_,
    fun p tokens => mem_formulas.trans (hformula p tokens), sheet.pairwise_formulas, fun e => ⟨?_, ?_⟩⟩
  · obtain ⟨⟨hrow, hcol⟩, hne⟩ := hsound.cell p c hc
    exact ⟨hrow, hcol, hne⟩
  · obtain ⟨tokens, ht⟩ := Option.isSome_iff_exists.1 (hsound.results p (by rw [hv]; rfl))
    exact ⟨tokens, (hformula p tokens).1 ht⟩
  · intro p hp hrow hcol
    exact ⟨_, e.writesAt_write p sheet, (apply_editSheet hs e).1 p hp hrow hcol⟩
  · exact (apply_editSheet hs e).2

/-- Two formulas that are recalculated, and one of them cleared afterwards. -/
def halfCleared : Workbook :=
  [.editSheet 0 (.formula (.address "A1") [.boolean true]), .editSheet 0 (.formula (.position ⟨1, 0⟩) [.boolean false]),
    .calculate, .editSheet 0 (.value (.address "$A$1") .empty)].foldl (fun wb (op : Operation) => op.apply wb) new

/-- Nothing is left of the cell that was cleared, and no cell can be set below the last row. -/
theorem store_halfCleared :
    ∃ sheet, halfCleared.sheet? 0 = some sheet ∧ sheet.result? ⟨0, 0⟩ = none ∧
      (sheet.result? ⟨1, 0⟩).isSome ∧ 1 = {p | ∃ c, sheet.cell? p = some c ∧ c ≠ .constant .empty}.ncard ∧
      (Operation.editSheet 0 (.value (.position ⟨65536, 0⟩) (.boolean true))).apply halfCleared = halfCleared := by
  have hcells : (halfCleared.sheet? 0).map (fun sheet => (sheet.cell? ⟨0, 0⟩, sheet.result? ⟨1, 0⟩, sheet.cellCount)) =
      some (none, some (.boolean false), 1) := rfl
  obtain ⟨sheet, hs, hcells⟩ := Option.map_eq_some_iff.1 hcells
  obtain ⟨hcell, hresult, hcount⟩ : sheet.cell? ⟨0, 0⟩ = none ∧ sheet.result? ⟨1, 0⟩ = some (.boolean false) ∧
      sheet.cellCount = 1 := by simpa using hcells
  obtain ⟨-, -, hncard, hformula, -, -, hedit⟩ := store_invariant (Reachable.new.foldl _) hs
  refine ⟨sheet, hs, ?_, by rw [hresult]; rfl, hcount ▸ hncard, ((hedit _).2 ?_).2⟩
  · rw [Option.eq_none_iff_forall_ne_some]
    intro v hv
    obtain ⟨tokens, ht⟩ := hformula _ v hv
    simp [hcell] at ht
  · rintro ⟨p, hp, hrow, -⟩
    cases hp
    exact absurd hrow (by decide)

end Workbook

end Spreadsheet
