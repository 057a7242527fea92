import Mathlib.Logic.Relation
import Spreadsheet.Proofs.Address.Cell
import Spreadsheet.Proofs.Workbook.Edits
import Spreadsheet.Proofs.Workbook.Results
import Spreadsheet.Proofs.Workbook.SheetNames

/-!
# Operations on workbooks

`Operation` lists what can be done to a workbook, and `Reachable` are the workbooks that can come about.  An operation
fails and leaves everything as it was, or makes one of the changes that `Change` lists.  Whatever it does to the workbook,
its sheets change only in the few ways of `Sheet.Step`, and so each sheet of a reachable workbook has come out of a blank
one in such steps (`Reachable.exists_steps`).  What each step preserves holds of all these sheets.
-/

namespace Spreadsheet

open Relation

/-! ### Edits of a sheet -/

/-- A cell as it is named from outside. -/
inductive CellName where
  | position (p : Position)
  | address (text : String)

def CellName.toPosition : CellName → Except WorkbookError Position
  | position p => .ok p
  | address text => Sheet.readPosition text

namespace Sheet

/-- What can be done to a sheet. -/
inductive Edit where
  | value (cell : CellName) (v : Scalar)
  | formula (cell : CellName) (tokens : List Token)
  | shared (anchor : String) (tokens : List Token)

def Edit.run : Edit → Action Sheet Unit
  | value cell v => do setValue (← cell.toPosition) v
  | formula cell tokens => do setFormula (← cell.toPosition) tokens
  | shared anchor tokens => setShared anchor tokens

/-- What an edit is for is checked before anything is changed. -/
theorem Edit.atomic_run (e : Edit) : e.run.Atomic := by
  cases e with
  | value cell v => exact Action.atomic_check_bind fun p => atomic_setValue p v
  | formula cell tokens => exact Action.atomic_check_bind fun p => atomic_setFormula p tokens
  | shared anchor tokens => exact Action.atomic_check_bind fun p => (Action.total_modify _).atomic

/-- The ways in which a sheet changes.  Only a cell with a formula gets a result. -/
inductive Step (sheet : Sheet) : Sheet → Prop
  | rename (name : String) : Step sheet { sheet with name }
  | value {p : Position} (hp : p.row < maxRows ∧ p.col < maxCols) (v : Scalar) : Step sheet (sheet.put p (ofConstant v))
  | formula {p : Position} (hp : p.row < maxRows ∧ p.col < maxCols) (tokens : List Token) :
      Step sheet (sheet.put p (some (.formula tokens)))
  | shared {p : Position} (hp : p.row < maxRows ∧ p.col < maxCols) (tokens : List Token) :
      Step sheet { sheet with sharedFormulas := sheet.sharedFormulas.insert p tokens }
  | result {p : Position} (hp : ((sheet.cell? p).bind Cell.formula?).isSome) (v : Scalar) : Step sheet (sheet.setResult p v)

theorem readPosition_eq_ok {s : String} {p : Position} (h : readPosition s = .ok p) :
    p.row < maxRows ∧ p.col < maxCols := by
  unfold readPosition at h
  split at h
  · rename_i a ha
    cases h
    exact CellAddress.inBounds_of_readChars ha
  · cases h

/-- An edit that succeeds is one step. -/
theorem Edit.step {e : Edit} {sheet sheet' : Sheet} (h : e.run.runOn sheet = (.ok (), sheet')) : Step sheet sheet' := by
  cases e with
  | value cell v =>
    obtain ⟨p, -, hset⟩ := Action.runOn_check_bind_eq_ok.1 h
    obtain ⟨hp, rfl⟩ := setValue_eq_ok_iff.1 hset
    exact .value hp v
  | formula cell tokens =>
    obtain ⟨p, -, hset⟩ := Action.runOn_check_bind_eq_ok.1 h
    obtain ⟨hp, rfl⟩ := setFormula_eq_ok_iff.1 hset
    exact .formula hp tokens
  | shared anchor tokens =>
    obtain ⟨p, hp, ⟨⟩⟩ := Action.runOn_check_bind_eq_ok.1 h
    exact .shared (readPosition_eq_ok hp) tokens

/-- Each result belongs to a formula. -/
def ResultsHaveFormulas (sheet : Sheet) : Prop :=
  ∀ p, (sheet.result? p).isSome → ((sheet.cell? p).bind Cell.formula?).isSome

theorem resultsHaveFormulas_blank (name : String) : ResultsHaveFormulas { name } := by
  intro p hp
  unfold result? at hp
  simp at hp

/-- To set a cell drops its result, so that none is left behind when the cell gets other content. -/
theorem ResultsHaveFormulas.put {sheet : Sheet} (h : sheet.ResultsHaveFormulas) (p : Position) (c : Option Cell) :
    (sheet.put p c).ResultsHaveFormulas := by
  intro q hq
  rw [result?_put] at hq
  rw [cell?_put]
  by_cases hpq : p = q
  · simp [hpq] at hq
  · rw [if_neg hpq] at hq ⊢
    exact h q hq

theorem ResultsHaveFormulas.step {sheet sheet' : Sheet} (h : sheet.ResultsHaveFormulas) (hs : Step sheet sheet') :
    sheet'.ResultsHaveFormulas := by
  cases hs with
  | rename name => exact h
  | value hp v => exact h.put _ _
  | formula hp tokens => exact h.put _ _
  | shared hp tokens => exact h
  | @result p hp v =>
    intro q hq
    by_cases hpq : p = q
    · exact hpq ▸ hp
    · refine h q ?_
      unfold setResult result? at hq
      rw [Std.TreeMap.getElem?_insert, if_neg (fun hc => hpq (Std.LawfulEqCmp.eq_of_compare hc))] at hq
      exact hq

end Sheet

namespace Workbook

variable {wb wb' : Workbook}

/-! ### Defining names -/

/-- A name can be defined: it is formed as a name, is not in use, and there is a number left for it. -/
structure CanDefine (wb : Workbook) (name : String) : Prop where
  isNameText : isNameText name.toList = true
  free : wb.nameId? name = none
  lt_maxNames : wb.names.length < maxNames

private theorem checkName_eq_ok_iff {text name : String} : wb.checkName text = .ok name ↔
    wb.CanDefine (String.ofList (Text.trim text.toList)) ∧ name = String.ofList (Text.trim text.toList) := by
  unfold checkName
  dsimp only
  generalize String.ofList (Text.trim text.toList) = trimmed
  constructor
  · intro h
    split at h
    · cases h
    · rename_i hname
      split at h
      · cases h
      · rename_i hfree
        split at h
        · cases h
        · rename_i hlength
          cases h
          exact ⟨⟨by simpa using hname, by simpa using hfree, by omega⟩, rfl⟩
  · rintro ⟨⟨hname, hfree, hlength⟩, rfl⟩
    rw [if_neg (by simp [hname]), if_neg (by simp [hfree]), if_neg (by omega)]

/-- A name is defined under the next number, without the blanks around it. -/
theorem defineName_eq_ok_iff {text : String} {tokens : List Token} {id : Nat} :
    (defineName text tokens).runOn wb = (.ok id, wb') ↔
      wb.CanDefine (String.ofList (Text.trim text.toList)) ∧ id = wb.names.length + 1 ∧
        wb' = { wb with names := wb.names ++ [⟨String.ofList (Text.trim text.toList), tokens⟩] } := by
  rw [defineName, Action.runOn_get_bind, Action.runOn_check_bind_eq_ok]
  simp only [checkName_eq_ok_iff, Action.runOn_modify_bind, Action.runOn_pure, Prod.mk.injEq, Except.ok.injEq]
  constructor
  · rintro ⟨_, ⟨hname, rfl⟩, rfl, rfl⟩
    exact ⟨hname, rfl, rfl⟩
  · rintro ⟨hname, rfl, rfl⟩
    exact ⟨_, ⟨hname, rfl⟩, rfl, rfl⟩

theorem atomic_defineName (text : String) (tokens : List Token) : (defineName text tokens).Atomic :=
  Action.atomic_get_bind fun _ => Action.atomic_check_bind fun _ =>
    ((Action.total_modify _).bind fun _ => Action.total_pure _).atomic

/-! ### Operations -/

/-- What can be done to a workbook. -/
inductive Operation where
  | addSheet (name : String)
  | addDefaultSheet
  | renameSheet (i : Nat) (name : String)
  | defineName (name : String) (tokens : List Token)
  | setSettings (settings : Settings)
  | editSheet (i : Nat) (edit : Sheet.Edit)
  | calculate

namespace Operation

/-- What an operation does, its result left out. -/
def run : Operation → Action Workbook Unit
  | addSheet name => discard (Workbook.addSheet name)
  | addDefaultSheet => discard Workbook.addDefaultSheet
  | renameSheet i name => Workbook.renameSheet i name
  | defineName name tokens => discard (Workbook.defineName name tokens)
  | setSettings settings => modify fun wb => { wb with settings }
  | editSheet i edit => Workbook.editSheet i edit.run
  | calculate => discard Workbook.calculate

/-- The workbook that an operation leaves, whether it fails or not. -/
def apply (op : Operation) (wb : Workbook) : Workbook :=
  (op.run.runOn wb).2

theorem apply_of_ok {op : Operation} (h : op.run.runOn wb = (.ok (), wb')) : op.apply wb = wb' := by
  rw [apply, h]

/-- No operation fails when it has begun to change the workbook. -/
theorem atomic_run (op : Operation) : op.run.Atomic := by
  cases op with
  | addSheet name => exact (atomic_addSheet name).discard
  | addDefaultSheet => exact atomic_addDefaultSheet.discard
  | renameSheet i name =>
    exact Action.atomic_get_bind fun _ => Action.atomic_check_bind fun _ => Action.atomic_check_bind fun _ =>
      (Action.total_modify _).atomic
  | defineName name tokens => exact (atomic_defineName name tokens).discard
  | setSettings settings => exact (Action.total_modify _).atomic
  | editSheet i edit => exact atomic_editSheet edit.atomic_run i
  | calculate => exact atomic_calculate.discard

/-- An operation that fails leaves everything as it was. -/
theorem apply_of_error {op : Operation} {e : WorkbookError} (h : (op.run.runOn wb).1 = .error e) : op.apply wb = wb :=
  op.atomic_run wb e h

/-- What each operation preserves holds after operations one after the other. -/
theorem foldl_invariant {P : Workbook → Prop} (happly : ∀ (op : Operation) wb, P wb → P (op.apply wb)) (h : P wb)
    (ops : List Operation) : P (ops.foldl (fun wb op => op.apply wb) wb) := by
  induction ops generalizing wb with
  | nil => exact h
  | cons op ops ih => exact ih (happly op wb h)

end Operation

/-- The workbooks that can come about.  A sheet of one may also be put in the place of a sheet of another one, and so may a
blank one of any name. -/
inductive Reachable : Workbook → Prop
  | empty : Reachable empty
  | new : Reachable new
  | apply {wb : Workbook} (op : Operation) : Reachable wb → Reachable (op.apply wb)
  | place {wb other : Workbook} {sheet : Sheet} (i : Nat) : Reachable wb → Reachable other → sheet ∈ other.sheets →
      Reachable { wb with sheets := wb.sheets.set i sheet }
  | placeBlank {wb : Workbook} (i : Nat) (name : String) : Reachable wb →
      Reachable { wb with sheets := wb.sheets.set i { name } }

/-- Operations one after the other lead from a reachable workbook to a reachable one. -/
theorem Reachable.foldl {wb : Workbook} (h : wb.Reachable) (ops : List Operation) :
    (ops.foldl (fun wb op => op.apply wb) wb).Reachable :=
  Operation.foldl_invariant (fun op _ h => h.apply op) h ops

/-! ### Changes -/

/-- What an operation makes of a workbook when it succeeds. -/
inductive Change (wb : Workbook) : Workbook → Prop
  | addSheet {name : String} (h : wb.Admits name none) : Change wb { wb with sheets := wb.sheets ++ [{ name }] }
  | renameSheet {i : Nat} {name : String} (h : wb.Admits name (some i)) :
      Change wb { wb with sheets := wb.sheets.modify i fun sheet => { sheet with name } }
  | defineName {d : DefinedName} (h : wb.CanDefine d.name) : Change wb { wb with names := wb.names ++ [d] }
  | setSettings (settings : Settings) : Change wb { wb with settings }
  | editSheet {i : Nat} {sheet sheet' : Sheet} {edit : Sheet.Edit} (hs : wb.sheet? i = some sheet)
      (h : edit.run.runOn sheet = (.ok (), sheet')) : Change wb { wb with sheets := wb.sheets.set i sheet' }
  | calculate {rs : List CellResult} (h : wb.results = .ok rs) : Change wb (rs.foldl storeResult wb)

theorem Operation.change {op : Operation} (h : op.run.runOn wb = (.ok (), wb')) : Change wb wb' := by
  have hadd : ∀ name i, (Workbook.addSheet name).runOn wb = (.ok i, wb') → Change wb wb' := by
    intro name i hadd
    obtain ⟨hname, -, rfl⟩ := addSheet_eq_ok_iff.1 hadd
    exact .addSheet hname
  cases op with
  | addSheet name =>
    obtain ⟨i, hrun⟩ := Action.runOn_discard_eq_ok.1 h
    exact hadd name i hrun
  | addDefaultSheet =>
    obtain ⟨i, hrun⟩ := Action.runOn_discard_eq_ok.1 h
    rw [runOn_addDefaultSheet] at hrun
    exact hadd wb.freeName i hrun
  | renameSheet i name =>
    obtain ⟨-, hname, rfl⟩ := renameSheet_eq_ok_iff.1 h
    exact .renameSheet hname
  | defineName name tokens =>
    obtain ⟨i, hrun⟩ := Action.runOn_discard_eq_ok.1 h
    obtain ⟨hname, -, rfl⟩ := defineName_eq_ok_iff.1 hrun
    exact .defineName hname
  | setSettings settings =>
    cases h
    exact .setSettings settings
  | editSheet i edit =>
    obtain ⟨sheet, sheet', hs, hedit, rfl⟩ := editSheet_eq_ok h
    exact .editSheet hs hedit
  | calculate =>
    obtain ⟨stats, hrun⟩ := Action.runOn_discard_eq_ok.1 h
    obtain ⟨rs, hrs, rfl, -⟩ := calculate_eq_ok hrun
    exact .calculate hrs

/-- Whether it fails or not, an operation leaves the workbook as it was or makes one of the changes. -/
theorem Operation.apply_cases (op : Operation) (wb : Workbook) : op.apply wb = wb ∨ Change wb (op.apply wb) := by
  cases hrun : (op.run.runOn wb).1 with
  | error e => exact .inl (apply_of_error hrun)
  | ok => exact .inr (change (Prod.ext hrun rfl))

/-! ### Storing results -/

/-- A sheet of the second workbook is one of the first workbook, a few steps later. -/
def SheetsStep (wb wb' : Workbook) : Prop :=
  ∀ sheet' ∈ wb'.sheets, ∃ sheet ∈ wb.sheets, ReflTransGen Sheet.Step sheet sheet'

theorem SheetsStep.refl (wb : Workbook) : SheetsStep wb wb :=
  fun sheet hs => ⟨sheet, hs, .refl⟩

theorem SheetsStep.trans {wb'' : Workbook} (h : SheetsStep wb wb') (h' : SheetsStep wb' wb'') : SheetsStep wb wb'' := by
  intro sheet'' hs''
  obtain ⟨sheet', hs', hstep'⟩ := h' sheet'' hs''
  obtain ⟨sheet, hs, hstep⟩ := h sheet' hs'
  exact ⟨sheet, hs, hstep.trans hstep'⟩

private theorem SheetsStep.of_modify {i : Nat} {f : Sheet → Sheet}
    (h : ∀ sheet, wb.sheet? i = some sheet → Sheet.Step sheet (f sheet)) :
    SheetsStep wb { wb with sheets := wb.sheets.modify i f } := by
  intro sheet' hs'
  obtain ⟨j, hj⟩ := List.getElem?_of_mem hs'
  dsimp only at hj
  rw [List.getElem?_modify] at hj
  obtain ⟨sheet, hs, rfl⟩ := Option.map_eq_some_iff.1 hj
  refine ⟨sheet, List.mem_of_getElem? hs, ?_⟩
  by_cases hij : i = j
  · subst hij
    rw [if_pos rfl]
    exact .single (h sheet hs)
  · rw [if_neg hij]

private theorem formula?_storeResult (r : CellResult) (l : Location) :
    (wb.storeResult r).formula? l = wb.formula? l := by
  unfold formula? storeResult sheet?
  rw [List.getElem?_modify]
  cases wb.sheets[l.sheet]? with
  | none => rfl
  | some sheet =>
    by_cases h : r.location.sheet = l.sheet
    · simp only [h, if_true]
      rfl
    · simp only [h, if_false]
      rfl

private theorem sheetsStep_storeResult {r : CellResult} (h : (wb.formula? r.location).isSome) :
    SheetsStep wb (wb.storeResult r) := by
  refine .of_modify fun sheet hs => .result ?_ r.value
  unfold formula? at h
  rw [hs] at h
  exact h

private theorem sheetsStep_foldl {rs : List CellResult} (h : ∀ r ∈ rs, (wb.formula? r.location).isSome) :
    SheetsStep wb (rs.foldl storeResult wb) := by
  induction rs generalizing wb with
  | nil => exact .refl wb
  | cons r rs ih =>
    rw [List.foldl_cons]
    refine (sheetsStep_storeResult (h r (List.mem_cons_self ..))).trans (ih fun r' hr' => ?_)
    rw [formula?_storeResult]
    exact h r' (List.mem_cons_of_mem r hr')

/-! ### Sheets of reachable workbooks -/

/-- The sheets after a change are sheets from before it, a few steps later, or blank. -/
theorem Change.exists_steps (h : Change wb wb') {sheet' : Sheet} (hs' : sheet' ∈ wb'.sheets) :
    (∃ name, sheet' = { name }) ∨ ∃ sheet ∈ wb.sheets, ReflTransGen Sheet.Step sheet sheet' := by
  cases h with
  | @addSheet name =>
    rcases List.mem_append.1 hs' with hs | hs
    · exact .inr ⟨sheet', hs, .refl⟩
    · exact .inl ⟨name, List.mem_singleton.1 hs⟩
  | @renameSheet i name => exact .inr (SheetsStep.of_modify (fun sheet _ => .rename name) sheet' hs')
  | defineName | setSettings => exact .inr ⟨sheet', hs', .refl⟩
  | @editSheet i sheet sheet₁ edit hs hedit =>
    rcases List.mem_or_eq_of_mem_set hs' with hm | rfl
    · exact .inr ⟨sheet', hm, .refl⟩
    · exact .inr ⟨sheet, List.mem_of_getElem? hs, .single (Sheet.Edit.step hedit)⟩
  | calculate hrs =>
    refine .inr (sheetsStep_foldl (fun r hr => ?_) sheet' hs')
    rw [← mem_formulaLocations, ← map_location_of_yields (results_ok hrs)]
    exact List.mem_map_of_mem hr

/-- Each sheet of a reachable workbook has come out of a blank one in steps. -/
theorem Reachable.exists_steps (h : Reachable wb) {sheet : Sheet} (hs : sheet ∈ wb.sheets) :
    ∃ name, ReflTransGen Sheet.Step { name } sheet := by
  induction h generalizing sheet with
  | empty => cases hs
  | new =>
    obtain rfl := List.mem_singleton.1 hs
    exact ⟨"Sheet1", .refl⟩
  | @apply wb op _ ih =>
    rcases op.apply_cases wb with hsame | hchange
    · exact ih (hsame ▸ hs)
    · rcases hchange.exists_steps hs with ⟨name, rfl⟩ | ⟨sheet₀, hs₀, hsteps⟩
      · exact ⟨name, .refl⟩
      · obtain ⟨name, hsteps₀⟩ := ih hs₀
        exact ⟨name, hsteps₀.trans hsteps⟩
  | place i _ _ hother ih ihother =>
    rcases List.mem_or_eq_of_mem_set hs with hs | rfl
    · exact ih hs
    · exact ihother hother
  | placeBlank i name _ ih =>
    rcases List.mem_or_eq_of_mem_set hs with hs | rfl
    · exact ih hs
    · exact ⟨name, .refl⟩

/-- What steps preserve holds of all sheets of a reachable workbook. -/
theorem Reachable.sheet_invariant {P : Sheet → Prop} (hblank : ∀ name, P { name })
    (hstep : ∀ sheet sheet', P sheet → Sheet.Step sheet sheet' → P sheet') (h : Reachable wb) {sheet : Sheet}
    (hs : sheet ∈ wb.sheets) : P sheet := by
  obtain ⟨name, hsteps⟩ := h.exists_steps hs
  clear hs
  induction hsteps with
  | refl => exact hblank name
  | tail _ hs ih => exact hstep _ _ ih hs

/-- In a reachable workbook only formula cells have results. -/
theorem Reachable.isSome_formula? (h : Reachable wb) {l : Location} (hl : (wb.result? l).isSome) :
    (wb.formula? l).isSome := by
  unfold result? at hl
  unfold formula?
  cases hs : wb.sheet? l.sheet with
  | none => simp [hs] at hl
  | some sheet =>
    have hresults : sheet.ResultsHaveFormulas :=
      h.sheet_invariant Sheet.resultsHaveFormulas_blank (fun _ _ h hs => h.step hs) (List.mem_of_getElem? hs)
    rw [hs] at hl
    exact hresults l.position hl

end Workbook

end Spreadsheet
