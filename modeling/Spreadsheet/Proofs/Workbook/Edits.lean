import Spreadsheet.Proofs.Workbook.Actions
import Spreadsheet.Proofs.Workbook.LookUp

/-!
# Setting cells

To set a cell, to a constant or to a formula, is to put something at one position of one sheet (`PutAt`).  This changes
the content of this one cell and drops its result.  All other cells, the shared formulas, the names and the settings
stay as they are.
-/

namespace Spreadsheet

/-! ### On a sheet -/

namespace Sheet

theorem cell?_put (sheet : Sheet) (p q : Position) (c : Option Cell) :
    (sheet.put p c).cell? q = if p = q then c else sheet.cell? q := by
  cases c with
  | none =>
    show (sheet.cells.erase p)[q]? = _
    rw [Std.TreeMap.getElem?_erase]
    simp only [Std.LawfulEqCmp.compare_eq_iff_eq]
    rfl
  | some c =>
    show (sheet.cells.insert p c)[q]? = _
    rw [Std.TreeMap.getElem?_insert]
    simp only [Std.LawfulEqCmp.compare_eq_iff_eq]
    rfl

/-- Whatever a position is set to, its result is dropped. -/
theorem result?_put (sheet : Sheet) (p q : Position) (c : Option Cell) :
    (sheet.put p c).result? q = if p = q then none else sheet.result? q := by
  have herase : (sheet.put p c).results = sheet.results.erase p := by cases c <;> rfl
  unfold result?
  rw [herase, Std.TreeMap.getElem?_erase]
  simp only [Std.LawfulEqCmp.compare_eq_iff_eq]

@[simp] theorem name_put (sheet : Sheet) (p : Position) (c : Option Cell) : (sheet.put p c).name = sheet.name := by
  cases c <;> rfl

@[simp] theorem shared?_put (sheet : Sheet) (p q : Position) (c : Option Cell) :
    (sheet.put p c).shared? q = sheet.shared? q := by
  cases c <;> rfl

private theorem checkBounds_eq_ok {p q : Position} :
    checkBounds p = .ok q ↔ q = p ∧ p.row < maxRows ∧ p.col < maxCols := by
  unfold checkBounds
  split
  · simp only [reduceCtorEq, false_iff]
    omega
  · split
    · simp only [reduceCtorEq, false_iff]
      omega
    · rw [Except.ok.injEq]
      constructor
      · rintro rfl
        exact ⟨rfl, by omega, by omega⟩
      · exact fun h => h.1.symm

theorem setValue_eq_ok_iff {sheet sheet' : Sheet} {p : Position} {v : Scalar} :
    (setValue p v).runOn sheet = (.ok (), sheet') ↔
      (p.row < maxRows ∧ p.col < maxCols) ∧ sheet.put p (ofConstant v) = sheet' := by
  rw [setValue, Action.runOn_check_bind_eq_ok]
  simp only [checkBounds_eq_ok, Action.runOn_modify, Prod.mk.injEq, true_and, and_assoc, exists_eq_left]

theorem setFormula_eq_ok_iff {sheet sheet' : Sheet} {p : Position} {tokens : List Token} :
    (setFormula p tokens).runOn sheet = (.ok (), sheet') ↔
      (p.row < maxRows ∧ p.col < maxCols) ∧ sheet.put p (some (.formula tokens)) = sheet' := by
  rw [setFormula, Action.runOn_check_bind_eq_ok]
  simp only [checkBounds_eq_ok, Action.runOn_modify, Prod.mk.injEq, true_and, and_assoc, exists_eq_left]

theorem atomic_setValue (p : Position) (v : Scalar) : (setValue p v).Atomic :=
  Action.atomic_check_bind fun _ => (Action.total_modify _).atomic

theorem atomic_setFormula (p : Position) (tokens : List Token) : (setFormula p tokens).Atomic :=
  Action.atomic_check_bind fun _ => (Action.total_modify _).atomic

/-- What a cell is worth that was set to a constant. -/
theorem constant?_ofConstant (v : Scalar) : ((ofConstant v).bind Cell.constant?).getD .empty = v := by
  cases v <;> rfl

theorem formula?_ofConstant (v : Scalar) : (ofConstant v).bind Cell.formula? = none := by
  cases v <;> rfl

end Sheet

/-! ### In a workbook -/

namespace Workbook

variable {wb wb' : Workbook} {c : Location} {content : Option Cell}

/-- An edit has the outcome that it has on the sheet, and leaves there what it leaves of the sheet. -/
theorem runOn_editSheet {α : Type} {i : Nat} {sheet : Sheet} (hs : wb.sheet? i = some sheet) (edit : Action Sheet α) :
    (editSheet i edit).runOn wb =
      ((edit.runOn sheet).1, { wb with sheets := wb.sheets.set i (edit.runOn sheet).2 }) := by
  rw [editSheet, Action.runOn_get_bind, hs]
  exact Action.runOn_check ..

private theorem runOn_editSheet_of_none {α : Type} {i : Nat} (hs : wb.sheet? i = none) (edit : Action Sheet α) :
    (editSheet i edit).runOn wb = (.error (.sheetOutOfBounds i wb.sheetCount), wb) := by
  rw [editSheet, Action.runOn_get_bind, hs]
  rfl

theorem editSheet_eq_ok {α : Type} {i : Nat} {edit : Action Sheet α} {a : α}
    (h : (editSheet i edit).runOn wb = (.ok a, wb')) :
    ∃ sheet sheet', wb.sheet? i = some sheet ∧ edit.runOn sheet = (.ok a, sheet') ∧
      wb' = { wb with sheets := wb.sheets.set i sheet' } := by
  cases hs : wb.sheet? i with
  | none =>
    rw [runOn_editSheet_of_none hs] at h
    cases h
  | some sheet =>
    rw [runOn_editSheet hs, Prod.mk.injEq] at h
    exact ⟨sheet, _, rfl, Prod.ext h.1 rfl, h.2.symm⟩

/-- An edit that leaves the sheet as it was when it fails leaves the workbook as it was. -/
theorem atomic_editSheet {α : Type} {edit : Action Sheet α} (h : edit.Atomic) (i : Nat) : (editSheet i edit).Atomic := by
  intro wb e he
  cases hs : wb.sheet? i with
  | none => rw [runOn_editSheet_of_none hs]
  | some sheet =>
    rw [runOn_editSheet hs] at he ⊢
    obtain ⟨hi, rfl⟩ := List.getElem?_eq_some_iff.1 hs
    dsimp only
    rw [h _ e he, List.set_getElem_self hi]

variable (wb) in
/-- The content of a cell; a cell that is blank or on no sheet has none. -/
def content? (l : Location) : Option Cell :=
  (wb.sheet? l.sheet).bind (·.cell? l.position)

theorem stored_eq (l : Location) : wb.stored l =
    if (wb.sheet? l.sheet).isSome then .ok (((wb.content? l).bind Cell.constant?).getD .empty)
    else .error (.code .ref) := by
  unfold stored content?
  cases wb.sheet? l.sheet with
  | none => rfl
  | some sheet => rfl

/-- The second workbook is the first one after one cell was set, or made blank. -/
def PutAt (wb : Workbook) (c : Location) (content : Option Cell) (wb' : Workbook) : Prop :=
  ∃ sheet, wb.sheet? c.sheet = some sheet ∧
    wb' = { wb with sheets := wb.sheets.set c.sheet (sheet.put c.position content) }

theorem putAt_of_setValue {x : Scalar}
    (h : (editSheet c.sheet (Sheet.setValue c.position x)).runOn wb = (.ok (), wb')) :
    wb.PutAt c (Sheet.ofConstant x) wb' := by
  obtain ⟨sheet, sheet', hs, hedit, rfl⟩ := editSheet_eq_ok h
  obtain ⟨-, rfl⟩ := Sheet.setValue_eq_ok_iff.1 hedit
  exact ⟨sheet, hs, rfl⟩

theorem putAt_of_setFormula {tokens : List Token}
    (h : (editSheet c.sheet (Sheet.setFormula c.position tokens)).runOn wb = (.ok (), wb')) :
    wb.PutAt c (some (.formula tokens)) wb' := by
  obtain ⟨sheet, sheet', hs, hedit, rfl⟩ := editSheet_eq_ok h
  obtain ⟨-, rfl⟩ := Sheet.setFormula_eq_ok_iff.1 hedit
  exact ⟨sheet, hs, rfl⟩

namespace PutAt

variable (h : wb.PutAt c content wb')
include h

theorem sheet? (i : Nat) : wb'.sheet? i =
    (wb.sheet? i).map fun sheet => if c.sheet = i then sheet.put c.position content else sheet := by
  obtain ⟨sheet, hs, rfl⟩ := h
  have hlt : c.sheet < wb.sheets.length := (List.getElem?_eq_some_iff.1 hs).1
  show (wb.sheets.set c.sheet (sheet.put c.position content))[i]? = _
  by_cases hi : c.sheet = i
  · subst hi
    rw [List.getElem?_set_self hlt, hs, Option.map_some, if_pos rfl]
  · simp only [List.getElem?_set_ne hi, if_neg hi]
    exact Option.map_id'.symm

theorem isSome_sheet? (i : Nat) : (wb'.sheet? i).isSome = (wb.sheet? i).isSome := by
  rw [h.sheet?, Option.isSome_map]

theorem isSome_sheet?_self : (wb.sheet? c.sheet).isSome := by
  obtain ⟨sheet, hs, -⟩ := h
  rw [hs]
  rfl

theorem settings : wb'.settings = wb.settings := by
  obtain ⟨sheet, -, rfl⟩ := h
  rfl

theorem sheetCount : wb'.sheetCount = wb.sheetCount := by
  obtain ⟨sheet, -, rfl⟩ := h
  exact List.length_set

theorem definedName? (id : Nat) : wb'.definedName? id = wb.definedName? id := by
  obtain ⟨sheet, -, rfl⟩ := h
  rfl

theorem sheetIndex? (name : String) : wb'.sheetIndex? name = wb.sheetIndex? name := by
  have hnames : wb'.sheets.map Sheet.name = wb.sheets.map Sheet.name := by
    refine List.ext_getElem? fun i => ?_
    rw [List.getElem?_map, List.getElem?_map]
    show (wb'.sheet? i).map _ = (wb.sheet? i).map _
    rw [h.sheet?, Option.map_map]
    refine Option.map_congr fun sheet _ => ?_
    show (if c.sheet = i then sheet.put c.position content else sheet).name = sheet.name
    split
    · exact sheet.name_put ..
    · rfl
  have hfind : ∀ sheets : List Sheet, (sheets.findIdx? fun s => Text.sameAscii s.name name) =
      (sheets.map Sheet.name).findIdx? fun n => Text.sameAscii n name := by
    intro sheets
    rw [List.findIdx?_map]
    rfl
  unfold Workbook.sheetIndex?
  rw [hfind, hfind, hnames]

theorem findSheet (i : Nat) (sheet : Option String) : wb'.findSheet i sheet = wb.findSheet i sheet := by
  cases sheet with
  | none => rfl
  | some name =>
    unfold Workbook.findSheet
    dsimp only
    rw [h.sheetIndex?]

theorem shared? (i : Nat) (p : Position) :
    (wb'.sheet? i).bind (·.shared? p) = (wb.sheet? i).bind (·.shared? p) := by
  rw [h.sheet?]
  cases wb.sheet? i with
  | none => rfl
  | some sheet =>
    rw [Option.map_some, Option.bind_some, Option.bind_some]
    split
    · exact sheet.shared?_put ..
    · rfl

theorem content? (l : Location) : wb'.content? l = if l = c then content else wb.content? l := by
  unfold Workbook.content?
  rw [h.sheet?]
  by_cases hl : l = c
  · subst hl
    obtain ⟨sheet, hs⟩ := Option.isSome_iff_exists.1 h.isSome_sheet?_self
    rw [hs, Option.map_some, Option.bind_some, if_pos rfl, if_pos rfl, Sheet.cell?_put, if_pos rfl]
  · rw [if_neg hl]
    cases wb.sheet? l.sheet with
    | none => rfl
    | some sheet =>
      rw [Option.map_some, Option.bind_some, Option.bind_some]
      split
      · rename_i hi
        have hp : c.position ≠ l.position := fun hp => hl (by cases l; cases c; simp_all)
        rw [Sheet.cell?_put, if_neg hp]
      · rfl

theorem formula?_of_ne {l : Location} (hl : l ≠ c) : wb'.formula? l = wb.formula? l := by
  show (wb'.content? l).bind _ = (wb.content? l).bind _
  rw [h.content?, if_neg hl]

theorem formula?_self : wb'.formula? c = content.bind Cell.formula? := by
  show (wb'.content? c).bind _ = _
  rw [h.content?, if_pos rfl]

theorem stored_of_ne {l : Location} (hl : l ≠ c) : wb'.stored l = wb.stored l := by
  rw [stored_eq, stored_eq, h.isSome_sheet?, h.content?, if_neg hl]

theorem stored_self : wb'.stored c = .ok ((content.bind Cell.constant?).getD .empty) := by
  rw [stored_eq, h.isSome_sheet?, if_pos h.isSome_sheet?_self, h.content?, if_pos rfl]

end PutAt

end Workbook

end Spreadsheet
