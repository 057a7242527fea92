import Spreadsheet.Proofs.Workbook.Operations

/-!
# What a recalculation changes

A recalculation changes nothing but results, and it does not read them: the results that it finds are those of the
workbook without any results (`results_withoutResults`).  So a second recalculation does again what the first one did.
When it succeeds, the cells with results are the formula cells and no others, for no edit leaves a result behind at a cell
that has lost its formula.  When it fails, nothing is changed at all (`calculate_allOrNothing`).
-/

namespace Spreadsheet

private theorem Scalar.isError_iff {v : Scalar} : v.isError = true ↔ ∃ e, v = .error e := by
  cases v <;> simp [isError, error?]

/-- A sheet with all its results dropped. -/
def Sheet.withoutResults (sheet : Sheet) : Sheet :=
  { sheet with results := ∅ }

namespace Workbook

variable {wb wb' : Workbook}

/-- A workbook with all its results dropped: its names and settings, and the names, cells and shared formulas of its
sheets. -/
def withoutResults (wb : Workbook) : Workbook :=
  { wb with sheets := wb.sheets.map Sheet.withoutResults }

/-! ### Results are not read -/

private theorem sheet?_withoutResults (i : Nat) : wb.withoutResults.sheet? i = (wb.sheet? i).map Sheet.withoutResults :=
  List.getElem?_map ..

private theorem formula?_withoutResults (l : Location) : wb.withoutResults.formula? l = wb.formula? l := by
  unfold formula?
  rw [sheet?_withoutResults]
  cases wb.sheet? l.sheet <;> rfl

private theorem findSheet_withoutResults (i : Nat) (sheet : Option String) :
    wb.withoutResults.findSheet i sheet = wb.findSheet i sheet := by
  cases sheet with
  | none => rfl
  | some name =>
    have hindex : wb.withoutResults.sheetIndex? name = wb.sheetIndex? name := by
      unfold sheetIndex? withoutResults
      rw [List.findIdx?_map]
      rfl
    unfold findSheet
    dsimp only
    rw [hindex]

private theorem resolverOn_withoutResults {σ : Type} (current : Eval σ Nat) (lookUp : Location → Eval σ Scalar) :
    wb.withoutResults.resolverOn current lookUp = wb.resolverOn current lookUp := by
  have hshared : ∀ i p, (wb.withoutResults.sheet? i).bind (·.shared? p) = (wb.sheet? i).bind (·.shared? p) := by
    intro i p
    rw [sheet?_withoutResults]
    cases wb.sheet? i <;> rfl
  unfold resolverOn
  simp only [findSheet_withoutResults, hshared]
  rfl

private theorem lookUpWith_withoutResults {σ : Type} (formula : Location → List Token → Eval σ Scalar) :
    wb.withoutResults.lookUpWith formula = wb.lookUpWith formula := by
  funext l
  unfold lookUpWith
  rw [sheet?_withoutResults]
  cases wb.sheet? l.sheet <;> rfl

private theorem lookUp_withoutResults (n : Nat) : wb.withoutResults.lookUp n = wb.lookUp n := by
  induction n with
  | zero =>
    unfold lookUp
    exact lookUpWith_withoutResults _
  | succ n ih =>
    unfold lookUp resolverWith
    rw [lookUpWith_withoutResults, resolverOn_withoutResults, ih]
    rfl

private theorem settle_withoutResults (fuel : Nat) (l : Location) (waiting : List Location) :
    wb.withoutResults.settle fuel l waiting = wb.settle fuel l waiting := by
  induction fuel generalizing l waiting with
  | zero => rw [settle, settle]
  | succ fuel ih =>
    refine Eval.ext_runFrom fun s => ?_
    rw [settle_runFrom, settle_runFrom, round, round, lookUp_withoutResults]
    simp only [ih]

private theorem formulaLocations_withoutResults : wb.withoutResults.formulaLocations = wb.formulaLocations := by
  unfold formulaLocations withoutResults
  rw [List.zipIdx_map, List.flatMap_map]
  rfl

private theorem attempts_withoutResults : wb.withoutResults.attempts = wb.attempts := by
  unfold attempts
  rw [← length_formulaLocations, ← length_formulaLocations, formulaLocations_withoutResults]

/-- The results of a recalculation do not depend on those that are there already. -/
theorem results_withoutResults : wb.withoutResults.results = wb.results := by
  unfold results resultsWithin
  rw [formulaLocations_withoutResults, attempts_withoutResults]
  simp only [settle_withoutResults]

/-! ### Only results are stored -/

private theorem withoutResults_storeResult (r : CellResult) :
    (wb.storeResult r).withoutResults = wb.withoutResults := by
  have hsheets : (wb.sheets.modify r.location.sheet fun s => s.setResult r.location.position r.value).map
      Sheet.withoutResults = wb.sheets.map Sheet.withoutResults := by
    refine List.ext_getElem? fun i => ?_
    rw [List.getElem?_map, List.getElem?_map, List.getElem?_modify, Option.map_eq_map, Option.map_map]
    refine Option.map_congr fun sheet _ => ?_
    by_cases h : r.location.sheet = i
    · simp only [Function.comp_apply, h, if_true]
      rfl
    · simp only [Function.comp_apply, h, if_false]
  unfold storeResult withoutResults
  rw [hsheets]

private theorem withoutResults_foldl (rs : List CellResult) :
    (rs.foldl storeResult wb).withoutResults = wb.withoutResults := by
  induction rs generalizing wb with
  | nil => rfl
  | cons r rs ih => rw [List.foldl_cons, ih, withoutResults_storeResult]

/-- When results are stored in a reachable workbook, then these are all its results. -/
theorem result?_foldl_eq_some_iff (h : wb.Reachable) {rs : List CellResult} (hrs : wb.results = .ok rs) {l : Location}
    {x : Scalar} : (rs.foldl storeResult wb).result? l = some x ↔ ∃ r ∈ rs, r.location = l ∧ r.value = x := by
  have hlocations : rs.map CellResult.location = wb.formulaLocations := map_location_of_yields (results_ok hrs)
  have hnd := nodup_locations hrs
  have hstored : ∀ r ∈ rs, (rs.foldl storeResult wb).result? r.location = some r.value := by
    intro r hr
    refine result?_foldl hnd hr (isSome_sheet?_of_formula? ?_)
    rw [← mem_formulaLocations, ← hlocations]
    exact List.mem_map_of_mem hr
  constructor
  · intro hx
    by_cases hl : l ∈ rs.map CellResult.location
    · obtain ⟨r, hr, rfl⟩ := List.mem_map.1 hl
      exact ⟨r, hr, rfl, Option.some.inj ((hstored r hr).symm.trans hx)⟩
    · -- A result from before would belong to a formula, and all formulas have new results.
      rw [result?_foldl_of_not_mem hl] at hx
      have hf := h.isSome_formula? (l := l) (by rw [hx]; rfl)
      rw [← mem_formulaLocations, ← hlocations] at hf
      exact absurd hf hl
  · rintro ⟨r, hr, rfl, rfl⟩
    exact hstored r hr

/-! ### What is counted -/

private theorem ncard_formulas : {l | (wb.formula? l).isSome}.ncard = wb.formulaLocations.length := by
  have hset : {l | (wb.formula? l).isSome} = (wb.formulaLocations.toFinset : Set Location) := by
    ext l
    simp [mem_formulaLocations]
  rw [hset, Set.ncard_coe_finset, List.toFinset_card_of_nodup nodup_formulaLocations]

private theorem length_of_results {rs : List CellResult} (hrs : wb.results = .ok rs) :
    rs.length = {l | (wb.formula? l).isSome}.ncard := by
  rw [ncard_formulas, ← map_location_of_yields (results_ok hrs), List.length_map]

private theorem countP_isError (h : wb.Reachable) {rs : List CellResult} (hrs : wb.results = .ok rs) :
    rs.countP (·.value.isError) = {l | ∃ e, (rs.foldl storeResult wb).result? l = some (.error e)}.ncard := by
  rw [countP_eq_ncard (nodup_locations hrs)]
  congr 1
  ext l
  simp only [Set.mem_ofPred_eq, result?_foldl_eq_some_iff h hrs]
  constructor
  · rintro ⟨r, hr, hl, he⟩
    obtain ⟨e, he⟩ := Scalar.isError_iff.1 he
    exact ⟨e, r, hr, hl, he⟩
  · rintro ⟨e, r, hr, hl, he⟩
    exact ⟨r, hr, hl, Scalar.isError_iff.2 ⟨e, he⟩⟩

/-- A circular result is an error value. -/
theorem isError_of_circular {l : Location} {o : Except FormulaError Scalar} {r : CellResult}
    (h : cellResult l o = .ok r) (hc : r.circular = true) : r.value.isError = true := by
  rw [(circular_of_cellResult h).1 hc] at h
  cases h
  rfl

private theorem countP_circular_le {rs : List CellResult} (hrs : wb.results = .ok rs) :
    rs.countP (·.circular) ≤ rs.countP (·.value.isError) := by
  refine List.countP_mono_left fun r hr hc => ?_
  obtain ⟨s, -, hres⟩ := yields_of_mem (results_ok hrs) hr
  exact isError_of_circular hres hc

/-! ### Recalculations -/

private theorem apply_calculate (wb : Workbook) : Operation.calculate.apply wb = (calculate.runOn wb).2 := by
  show ((discard calculate).runOn wb).2 = _
  rw [Action.runOn_discard]

private theorem formula?_congr (h : wb'.withoutResults = wb.withoutResults) (l : Location) :
    wb'.formula? l = wb.formula? l := by
  rw [← formula?_withoutResults, h, formula?_withoutResults]

private theorem results_congr (h : wb'.withoutResults = wb.withoutResults) : wb'.results = wb.results := by
  rw [← results_withoutResults, h, results_withoutResults]

/-- A recalculation of a reachable workbook that succeeds leaves results at the formula cells and nowhere else, counts
them and their error values, and changes nothing but results; a second one gives the same answer and stores the same
values.  One that fails leaves the workbook as it was, its results included, and fails again. -/
theorem calculate_allOrNothing (h : wb.Reachable) :
    (∀ wb' stats, calculate.runOn wb = (.ok stats, wb') →
      Operation.calculate.apply wb = wb' ∧
      (∀ l, (wb'.result? l).isSome ↔ (wb'.formula? l).isSome) ∧
      stats.formulas = {l | (wb'.formula? l).isSome}.ncard ∧ stats.calculated = stats.formulas ∧
      stats.errors = {l | ∃ e, wb'.result? l = some (.error e)}.ncard ∧ stats.circular ≤ stats.errors ∧
      wb'.withoutResults = wb.withoutResults ∧
      ∃ wb'', calculate.runOn wb' = (.ok stats, wb'') ∧ ∀ l, wb''.result? l = wb'.result? l) ∧
    ∀ wb' e, calculate.runOn wb = (.error e, wb') →
      Operation.calculate.apply wb = wb' ∧ wb' = wb ∧ calculate.runOn wb' = (.error e, wb') := by
  refine ⟨fun wb' stats hcalc => ?_, fun wb' e hcalc => ?_⟩
  · have happly : Operation.calculate.apply wb = wb' := by rw [apply_calculate, hcalc]
    have hreachable : wb'.Reachable := happly ▸ h.apply .calculate
    obtain ⟨rs, hrs, rfl, rfl⟩ := calculate_eq_ok hcalc
    have hsame : (rs.foldl storeResult wb).withoutResults = wb.withoutResults := withoutResults_foldl rs
    have hformula := formula?_congr hsame
    have hagain : (rs.foldl storeResult wb).results = .ok rs := (results_congr hsame).trans hrs
    refine ⟨happly, fun l => ⟨hreachable.isSome_formula?, fun hl => ?_⟩, ?_, rfl, countP_isError h hrs,
      countP_circular_le hrs, hsame, rs.foldl storeResult (rs.foldl storeResult wb), runOn_calculate_of_ok hagain,
      fun l => ?_⟩
    · rw [hformula] at hl
      obtain ⟨r, hr, hrl, -⟩ := exists_yields_of_mem (results_ok hrs) (mem_formulaLocations.2 hl)
      rw [(result?_foldl_eq_some_iff h hrs).2 ⟨r, hr, hrl, rfl⟩]
      rfl
    · simp only [hformula]
      exact length_of_results hrs
    · refine Option.ext fun x => ?_
      rw [result?_foldl_eq_some_iff hreachable hagain, result?_foldl_eq_some_iff h hrs]
  · have hsame : wb' = wb := by
      have hleft := atomic_calculate wb e (by rw [hcalc])
      rwa [hcalc] at hleft
    rw [apply_calculate, hcalc, hsame]
    exact ⟨rfl, rfl, hsame ▸ hcalc⟩

/-- A formula that is recalculated and then replaced by a constant, and beside it a cell that refers to itself. -/
def edited : Workbook :=
  [.editSheet 0 (.formula (.address "A1") [.boolean true]), .calculate,
    .editSheet 0 (.value (.address "A1") (.boolean false)),
    .editSheet 0 (.formula (.position ⟨0, 1⟩) [.cell none (.relative 0 1)])].foldl
    (fun wb (op : Operation) => op.apply wb) new

/-- Nothing is left of the result of the formula that was replaced. -/
theorem calculate_edited :
    ∃ wb' stats, calculate.runOn edited = (.ok stats, wb') ∧ wb'.result? ⟨0, ⟨0, 0⟩⟩ = none ∧
      (wb'.result? ⟨0, ⟨0, 1⟩⟩).isSome ∧ stats.circular ≤ stats.errors ∧
      ∃ wb'', calculate.runOn wb' = (.ok stats, wb'') := by
  have hreachable : edited.Reachable := Reachable.new.foldl _
  have hstats : (calculate.runOn edited).1 = .ok ⟨1, 1, 1, 1⟩ := rfl
  have hcalc : calculate.runOn edited = (.ok ⟨1, 1, 1, 1⟩, (calculate.runOn edited).2) := Prod.ext hstats rfl
  obtain ⟨-, hdomain, -, -, -, hle, hsame, wb'', hagain, -⟩ := (calculate_allOrNothing hreachable).1 _ _ hcalc
  have hconstant : edited.formula? ⟨0, ⟨0, 0⟩⟩ = none := rfl
  have hformula : (edited.formula? ⟨0, ⟨0, 1⟩⟩).isSome := rfl
  rw [← formula?_congr hsame] at hconstant hformula
  refine ⟨_, _, hcalc, ?_, (hdomain _).2 hformula, hle, wb'', hagain⟩
  rw [← Option.not_isSome_iff_eq_none, hdomain, hconstant]
  decide

end Workbook

end Spreadsheet
