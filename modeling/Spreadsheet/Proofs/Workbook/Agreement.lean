import Spreadsheet.Proofs.Workbook.Ideal
import Spreadsheet.Proofs.Workbook.Results

/-!
# Recalculation and single cells

A recalculation keeps one session for all cells, and the value of a single cell is found in a session of its own.  Where
values are coherent, both give the same result (`stored_eq_evaluateCell`).

They do not where a formula of a cycle traps the failure of the cycle that it is on.  A cell that depends on itself is
meant to be circular, but a value that was found while the failure was trapped is kept in the cache like any other one,
and it is the value of the cell only for who asks in this order (`stored_ne_evaluateCell_trappedCycle`).
-/

namespace Spreadsheet.Workbook

open Relation

variable {wb wb' : Workbook} {stats : Stats}

/-- The value of a cell is what its coherent value is shown as. -/
theorem evaluateCell_coherent {S : Set Location} {v : Valuation} (h : wb.Coherent S v) {l : Location} (hl : l ∈ S)
    (hs : l.sheet < wb.sheetCount) {address : String} (ha : Sheet.readPosition address = .ok l.position) :
    wb.evaluateCell l.sheet address = (shownInCell (v l)).mapError .formula := by
  have hv : runSession l.sheet (wb.cellValue ⟨l.sheet, l.position⟩) = v l := cellValue_coherent h .new hl
  unfold evaluateCell checkSheet
  rw [if_pos hs, ha]
  show (shownInCell (runSession l.sheet (wb.cellValue ⟨l.sheet, l.position⟩))).mapError _ = _
  rw [hv]

/-- What a recalculation stores for a formula cell is its outcome in some session that can come about, as it is
shown. -/
theorem exists_stored (hcalc : calculate.runOn wb = (.ok stats, wb')) {l : Location} (hf : (wb.formula? l).isSome) :
    ∃ x s, wb'.result? l = some x ∧ wb.Reached 0 s ∧ shownInCell ((wb.cellValue l).runFrom s).1 = .ok x := by
  obtain ⟨rs, hrs, rfl, -⟩ := calculate_eq_ok hcalc
  obtain ⟨r, hr, rfl, s, hs, hres⟩ := exists_yields_of_mem (results_ok hrs) (mem_formulaLocations.2 hf)
  exact ⟨r.value, s, result?_foldl (nodup_locations hrs) hr (isSome_sheet?_of_formula? hf), hs, shownInCell_of_cellResult hres⟩

/-- A recalculation stores a result for each formula cell, which is its outcome in some session that can come about.
Where values are coherent, it is the value that the cell has on its own. -/
theorem stored_eq_evaluateCell (hcalc : calculate.runOn wb = (.ok stats, wb')) {l : Location}
    (hf : (wb.formula? l).isSome) :
    ∃ x, wb'.result? l = some x ∧
      (∃ s, wb.Reached 0 s ∧ shownInCell ((wb.cellValue l).runFrom s).1 = .ok x) ∧
      ∀ S v, wb.Coherent S v → l ∈ S → ∀ address, Sheet.readPosition address = .ok l.position →
        wb.evaluateCell l.sheet address = .ok x := by
  obtain ⟨x, s, hx, hs, hshown⟩ := exists_stored hcalc hf
  have hlt : l.sheet < wb.sheetCount := by
    obtain ⟨sheet, hsheet⟩ := Option.isSome_iff_exists.1 (isSome_sheet?_of_formula? hf)
    exact (List.getElem?_eq_some_iff.1 hsheet).1
  refine ⟨x, hx, ⟨s, hs, hshown⟩, fun S v h hl address ha => ?_⟩
  -- Coherent values are found in every session, in that of the recalculation and in a new one.
  rw [cellValue_coherent h hs hl] at hshown
  rw [evaluateCell_coherent h hl hlt ha, hshown]
  rfl

/-- Two cells that refer to each other, each with a value of its own for the case that the other one fails. -/
def trappedCycle : Workbook where
  sheets := [{
    name := "Sheet1"
    cells := .ofList [
      (⟨0, 0⟩, .formula [.cell none (.relative 0 1), .boolean true, .ofCall Function.ifError.id 2]),
      (⟨0, 1⟩, .formula [.cell none (.relative 0 0), .boolean false, .ofCall Function.ifError.id 2])] Position.order }]

/-- Both cells depend on themselves.  The second one is stored as false, the value that it had while the first one was in
progress, and evaluates to true on its own. -/
theorem stored_ne_evaluateCell_trappedCycle :
    (trappedCycle.formula? ⟨0, ⟨0, 1⟩⟩).isSome ∧
    (∃ stats wb', calculate.runOn trappedCycle = (.ok stats, wb') ∧ wb'.result? ⟨0, ⟨0, 1⟩⟩ = some (.boolean false)) ∧
    trappedCycle.evaluateCell 0 "B1" = .ok (.boolean true) := by
  refine ⟨by decide, ?_, ?_⟩
  · have hresults : trappedCycle.results =
        .ok [⟨⟨0, ⟨0, 0⟩⟩, .boolean false, false⟩, ⟨⟨0, ⟨0, 1⟩⟩, .boolean false, false⟩] := rfl
    exact ⟨_, _, runOn_calculate_of_ok hresults,
      result?_foldl (nodup_locations hresults) (List.mem_cons_of_mem _ (List.mem_cons_self ..)) rfl⟩
  · rfl

/-- Two cells that refer to each other, and a third one off the cycle that traps their failure. -/
def trapBehindCycle : Workbook where
  sheets := [{
    name := "Sheet1"
    cells := .ofList [
      (⟨0, 0⟩, .formula [.cell none (.relative 0 1)]),
      (⟨0, 1⟩, .formula [.cell none (.relative 0 0)]),
      (⟨0, 2⟩, .formula [.cell none (.relative 0 0), .boolean true, .ofCall Function.ifError.id 2])] Position.order }]

/-- The cells of the cycle are circular, and the third one has its own value. -/
def trapBehindCycleValue : Valuation := fun l =>
  if l = ⟨0, ⟨0, 0⟩⟩ ∨ l = ⟨0, ⟨0, 1⟩⟩ then .error .circular else
  if l = ⟨0, ⟨0, 2⟩⟩ then .ok (.boolean true) else trapBehindCycle.stored l

private theorem coherent_trapBehindCycle : trapBehindCycle.Coherent Set.univ trapBehindCycleValue := by
  have hcells : ∀ l, (trapBehindCycle.formula? l).isSome → l ∈ [⟨0, ⟨0, 0⟩⟩, ⟨0, ⟨0, 1⟩⟩, ⟨0, ⟨0, 2⟩⟩] := by
    intro l hl
    rw [← show trapBehindCycle.formulaLocations = [⟨0, ⟨0, 0⟩⟩, ⟨0, ⟨0, 1⟩⟩, ⟨0, ⟨0, 2⟩⟩] by decide]
    exact mem_formulaLocations.2 hl
  simp only [List.mem_cons, List.not_mem_nil, or_false] at hcells
  have hasks : ∀ l d, trapBehindCycle.Asks trapBehindCycleValue l d → d = ⟨0, ⟨0, 0⟩⟩ ∨ d = ⟨0, ⟨0, 1⟩⟩ := by
    intro l d h
    unfold Asks at h
    by_cases hf : (trapBehindCycle.formula? l).isSome
    · rcases hcells l hf with rfl | rfl | rfl
      · exact .inr (List.mem_singleton.1 h)
      · exact .inl (List.mem_singleton.1 h)
      · exact .inl (List.mem_singleton.1 h)
    · rw [asks_of_stored (by simpa using hf)] at h
      cases h
  refine ⟨fun l _ => ?_, fun _ _ _ _ => Set.mem_univ _, fun l _ hcyc => ?_⟩
  · by_cases hf : (trapBehindCycle.formula? l).isSome
    · rcases hcells l hf with rfl | rfl | rfl
      · rfl
      · rfl
      · rfl
    · rw [valueIn_of_stored (by simpa using hf)]
      unfold trapBehindCycleValue
      rw [if_neg, if_neg]
      · rintro rfl
        exact hf (by decide)
      · rintro (rfl | rfl)
        · exact hf (by decide)
        · exact hf (by decide)
  · obtain ⟨d, -, hdl⟩ := TransGen.tail'_iff.1 hcyc
    exact if_pos (hasks d l hdl)

/-- A recalculation stores what the third cell evaluates to on its own. -/
theorem stored_trapBehindCycle :
    ∃ wb' stats, calculate.runOn trapBehindCycle = (.ok stats, wb') ∧
      ∃ x, wb'.result? ⟨0, ⟨0, 2⟩⟩ = some x ∧ trapBehindCycle.evaluateCell 0 "C1" = .ok x := by
  have hv : ∀ l, (trapBehindCycle.formula? l).isSome → l ∈ Set.univ ∧
      ((∃ y, trapBehindCycleValue l = .ok y) ∨ trapBehindCycleValue l = .error .circular) := by
    intro l hl
    refine ⟨Set.mem_univ l, ?_⟩
    obtain ⟨sheet, hs⟩ := Option.isSome_iff_exists.1 (isSome_sheet?_of_formula? hl)
    unfold trapBehindCycleValue
    split
    · exact .inr rfl
    · split
      · exact .inl ⟨_, rfl⟩
      · rw [stored, hs]
        exact .inl ⟨_, rfl⟩
  obtain ⟨rs, hrs⟩ := exists_results_of_coherent coherent_trapBehindCycle hv
  have hcalc := runOn_calculate_of_ok hrs
  have hf : (trapBehindCycle.formula? ⟨0, ⟨0, 2⟩⟩).isSome := by decide
  have haddress : Sheet.readPosition "C1" = .ok ⟨0, 2⟩ := by decide
  obtain ⟨x, hx, -, hagree⟩ := stored_eq_evaluateCell hcalc hf
  exact ⟨_, _, hcalc, x, hx, hagree _ _ coherent_trapBehindCycle (Set.mem_univ _) "C1" haddress⟩

end Spreadsheet.Workbook
