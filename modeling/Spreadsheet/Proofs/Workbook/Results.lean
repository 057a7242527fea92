import Mathlib.Data.Set.Card
import Spreadsheet.Proofs.Workbook.Actions
import Spreadsheet.Proofs.Workbook.Coherence

/-!
# What a recalculation stores

A recalculation asks for every formula cell in one session.  So each of its results is the outcome of a cell in some
session that can come about (`results_ok`), and it fails only if one cell fails there (`results_error`).  The cells are
distinct, and what is stored for each of them is what can be read back (`result?_foldl`).
-/

namespace Spreadsheet.Workbook

variable {wb : Workbook}

/-! ### Results in turn -/

variable (wb) in
/-- In some session on a sheet that can come about, the outcome of the cell `l` makes the result `r`. -/
def Yields (sheet : Nat) (l : Location) (r : Except FormulaError CellResult) : Prop :=
  ∃ s, wb.Reached sheet s ∧ cellResult l ((wb.cellValue l).runFrom s).1 = r

theorem resultsWithin_cons (l : Location) (ls : List Location) (s : Session) :
    (wb.resultsWithin wb.attempts (l :: ls)).runFrom s =
      match cellResult l ((wb.cellValue l).runFrom s).1 with
      | .error e => (.error e, ((wb.cellValue l).runFrom s).2)
      | .ok r =>
        let x := (wb.resultsWithin wb.attempts ls).runFrom ((wb.cellValue l).runFrom s).2
        (x.1.map (r :: ·), x.2) := by
  unfold resultsWithin cellValue
  rw [List.mapM_cons, Eval.runFrom_bind, Eval.runFrom_observe_bind, Eval.runFrom_ofExcept]
  cases cellResult l ((wb.settle wb.attempts l []).runFrom s).1 with
  | error e => rfl
  | ok r =>
    dsimp only
    rw [Eval.runFrom_bind]
    rcases Eval.runFrom _ _ with ⟨_ | _, _⟩ <;> rfl

private theorem resultsWithin_spec {sheet : Nat} (ls : List Location) {s : Session} (hs : wb.Reached sheet s) :
    (∀ rs, ((wb.resultsWithin wb.attempts ls).runFrom s).1 = .ok rs →
      List.Forall₂ (fun l r => wb.Yields sheet l (.ok r)) ls rs) ∧
    ∀ e, ((wb.resultsWithin wb.attempts ls).runFrom s).1 = .error e → ∃ l ∈ ls, wb.Yields sheet l (.error e) := by
  induction ls generalizing s with
  | nil =>
    refine ⟨fun rs h => ?_, fun e h => (by cases h)⟩
    cases h
    exact .nil
  | cons l ls ih =>
    obtain ⟨ihok, iherror⟩ := ih (hs.value l)
    rw [resultsWithin_cons]
    cases hr : cellResult l ((wb.cellValue l).runFrom s).1 with
    | error e =>
      refine ⟨fun rs h => (by cases h), fun e' h => ?_⟩
      cases h
      exact ⟨l, List.mem_cons_self .., s, hs, hr⟩
    | ok r =>
      dsimp only
      rcases hx : (wb.resultsWithin wb.attempts ls).runFrom ((wb.cellValue l).runFrom s).2 with ⟨e | rs, t⟩
      · rw [hx] at iherror
        refine ⟨fun rs h => (by cases h), fun e' h => ?_⟩
        obtain ⟨l', hl', hy⟩ := iherror e' h
        exact ⟨l', List.mem_cons_of_mem l hl', hy⟩
      · rw [hx] at ihok
        refine ⟨fun rs' h => ?_, fun e h => (by cases h)⟩
        cases h
        exact .cons ⟨s, hs, hr⟩ (ihok rs rfl)

theorem results_ok {rs : List CellResult} (h : wb.results = .ok rs) :
    List.Forall₂ (fun l r => wb.Yields 0 l (.ok r)) wb.formulaLocations rs :=
  (resultsWithin_spec wb.formulaLocations .new).1 rs h

theorem results_error {e : FormulaError} (h : wb.results = .error e) :
    ∃ l ∈ wb.formulaLocations, wb.Yields 0 l (.error e) :=
  (resultsWithin_spec wb.formulaLocations .new).2 e h

private theorem location_of_cellResult {l : Location} {o : Except FormulaError Scalar} {r : CellResult}
    (h : cellResult l o = .ok r) : r.location = l := by
  unfold cellResult at h
  split at h
  · cases h
    rfl
  · split at h
    · cases h
      rfl
    · cases h

theorem map_location_of_yields {ls : List Location} {rs : List CellResult}
    (h : List.Forall₂ (fun l r => wb.Yields 0 l (.ok r)) ls rs) : rs.map CellResult.location = ls := by
  induction h with
  | nil => rfl
  | cons hy _ ih =>
    obtain ⟨s, -, hr⟩ := hy
    rw [List.map_cons, ih, location_of_cellResult hr]

theorem exists_yields_of_mem {ls : List Location} {rs : List CellResult}
    (h : List.Forall₂ (fun l r => wb.Yields 0 l (.ok r)) ls rs) {l : Location} (hl : l ∈ ls) :
    ∃ r ∈ rs, r.location = l ∧ wb.Yields 0 l (.ok r) := by
  induction h with
  | nil => cases hl
  | @cons l' r ls rs hy _ ih =>
    rcases List.mem_cons.1 hl with rfl | hl
    · obtain ⟨s, hs, hr⟩ := hy
      exact ⟨r, List.mem_cons_self .., location_of_cellResult hr, s, hs, hr⟩
    · obtain ⟨r', hr', h'⟩ := ih hl
      exact ⟨r', List.mem_cons_of_mem r hr', h'⟩

theorem yields_of_mem {ls : List Location} {rs : List CellResult}
    (h : List.Forall₂ (fun l r => wb.Yields 0 l (.ok r)) ls rs) {r : CellResult} (hr : r ∈ rs) :
    wb.Yields 0 r.location (.ok r) := by
  induction h with
  | nil => cases hr
  | cons hy _ ih =>
    rcases List.mem_cons.1 hr with rfl | hr
    · obtain ⟨s, hs, hres⟩ := hy
      rw [location_of_cellResult hres]
      exact ⟨s, hs, hres⟩
    · exact ih hr

/-- Results for different cells are as many as their cells. -/
theorem countP_eq_ncard {rs : List CellResult} (hnd : (rs.map CellResult.location).Nodup) (p : CellResult → Bool) :
    rs.countP p = {l | ∃ r ∈ rs, r.location = l ∧ p r = true}.ncard := by
  have hset : {l | ∃ r ∈ rs, r.location = l ∧ p r = true} =
      (((rs.filter p).map CellResult.location).toFinset : Set Location) := by
    ext l
    simp only [Set.mem_ofPred_eq, Finset.mem_coe, List.mem_toFinset, List.mem_map, List.mem_filter]
    constructor
    · rintro ⟨r, hr, hl, hp⟩
      exact ⟨r, ⟨hr, hp⟩, hl⟩
    · rintro ⟨r, ⟨hr, hp⟩, hl⟩
      exact ⟨r, hr, hl, hp⟩
  rw [hset, Set.ncard_coe_finset, List.toFinset_card_of_nodup (hnd.sublist (List.filter_sublist.map _)), List.length_map,
    List.countP_eq_length_filter]

/-- A recalculation succeeds if the coherent value of each formula cell is a value or the circular failure. -/
theorem exists_results_of_coherent {S : Set Location} {v : Valuation} (h : wb.Coherent S v)
    (hv : ∀ l, (wb.formula? l).isSome → l ∈ S ∧ ((∃ y, v l = .ok y) ∨ v l = .error .circular)) :
    ∃ rs, wb.results = .ok rs := by
  cases hr : wb.results with
  | ok rs => exact ⟨rs, rfl⟩
  | error e =>
    obtain ⟨l, hl, s, hs, he⟩ := results_error hr
    obtain ⟨hlS, hvl⟩ := hv l (mem_formulaLocations.1 hl)
    rw [cellValue_coherent h hs hlS] at he
    rcases hvl with ⟨y, hy⟩ | hy
    · rw [hy] at he
      cases he
    · rw [hy] at he
      cases he

/-- The value of a result is the outcome as a cell shows it. -/
theorem shownInCell_of_cellResult {l : Location} {o : Except FormulaError Scalar} {r : CellResult}
    (h : cellResult l o = .ok r) : shownInCell o = .ok r.value := by
  unfold cellResult at h
  unfold shownInCell
  split at h
  · cases h
    rfl
  · split at h
    · cases h
      rfl
    · cases h

private theorem isCircular_of_fault? {e : FormulaError} {f : Fault} (h : e.fault? = some f) :
    f.isCircular = true ↔ e = .circular := by
  cases e with
  | fault f' =>
    obtain rfl := Option.some.inj h
    cases f' <;> simp [Fault.isCircular]
  | _ => cases h <;> simp [Fault.isCircular]

/-- A result counts as circular just if the outcome is the circular failure. -/
theorem circular_of_cellResult {l : Location} {o : Except FormulaError Scalar} {r : CellResult}
    (h : cellResult l o = .ok r) : r.circular = true ↔ o = .error .circular := by
  unfold cellResult at h
  cases o with
  | ok v =>
    cases h
    simp
  | error e =>
    dsimp only at h
    cases hf : e.fault? with
    | none =>
      rw [hf] at h
      cases h
    | some f =>
      rw [hf] at h
      cases h
      rw [isCircular_of_fault? hf, Except.error.injEq]

/-! ### The formula cells -/

/-- The formulas are some of the cells, in the same order. -/
theorem map_fst_formulas_sublist (sheet : Sheet) : (sheet.formulas.map Prod.fst).Sublist sheet.cells.keys := by
  unfold Sheet.formulas
  rw [← Std.TreeMap.map_fst_toList_eq_keys]
  induction sheet.cells.toList with
  | nil => exact .slnil
  | cons x xs ih =>
    obtain ⟨p, c⟩ := x
    rw [List.filterMap_cons]
    cases c with
    | constant v => exact .cons _ ih
    | formula tokens => exact .cons_cons _ ih

private theorem nodup_formulas (sheet : Sheet) : (sheet.formulas.map Prod.fst).Nodup :=
  Std.TreeMap.nodup_keys.sublist (map_fst_formulas_sublist sheet)

/-- No cell is asked for twice. -/
theorem nodup_formulaLocations : wb.formulaLocations.Nodup := by
  unfold formulaLocations
  refine List.nodup_flatMap.2 ⟨fun x _ => ?_, ?_⟩
  · refine List.Nodup.map_on ?_ (List.Nodup.of_map _ (nodup_formulas x.1))
    intro p hp q hq h
    have hpos : p.1 = q.1 := (Location.mk.inj h).2
    exact List.inj_on_of_nodup_map (nodup_formulas x.1) hp hq hpos
  · have h : (wb.sheets.zipIdx.map Prod.snd).Nodup := by
      rw [List.zipIdx_map_snd]
      exact List.nodup_range'
    refine (List.pairwise_map.1 h).imp fun {x y} hne l hx hy => ?_
    obtain ⟨p, -, rfl⟩ := List.mem_map.1 hx
    obtain ⟨q, -, hq⟩ := List.mem_map.1 hy
    exact hne (Location.mk.inj hq).1.symm

theorem nodup_locations {rs : List CellResult} (hrs : wb.results = .ok rs) : (rs.map CellResult.location).Nodup := by
  rw [map_location_of_yields (results_ok hrs)]
  exact nodup_formulaLocations

/-! ### Reading results back -/

/-- The stored result of a cell. -/
def result? (wb : Workbook) (l : Location) : Option Scalar :=
  (wb.sheet? l.sheet).bind (·.result? l.position)

private theorem result?_storeResult_of_ne {r : CellResult} {l : Location} (h : r.location ≠ l) :
    (wb.storeResult r).result? l = wb.result? l := by
  unfold result? storeResult sheet?
  rw [List.getElem?_modify]
  by_cases hs : r.location.sheet = l.sheet
  · have hp : r.location.position ≠ l.position := fun hp => h (by cases l; cases hl : r.location; simp_all)
    simp only [if_pos hs]
    cases wb.sheets[l.sheet]? with
    | none => rfl
    | some sheet =>
      show (sheet.results.insert r.location.position r.value)[l.position]? = sheet.results[l.position]?
      rw [Std.TreeMap.getElem?_insert, if_neg]
      exact fun hc => hp (Std.LawfulEqCmp.eq_of_compare hc)
  · simp only [if_neg hs]
    cases wb.sheets[l.sheet]? <;> rfl

private theorem result?_storeResult_self {r : CellResult} (h : (wb.sheet? r.location.sheet).isSome) :
    (wb.storeResult r).result? r.location = some r.value := by
  obtain ⟨sheet, hs⟩ := Option.isSome_iff_exists.1 h
  unfold sheet? at hs
  unfold result? storeResult sheet?
  rw [List.getElem?_modify, hs]
  simp only [if_true]
  show (sheet.results.insert r.location.position r.value)[r.location.position]? = some r.value
  rw [Std.TreeMap.getElem?_insert_self]

private theorem isSome_sheet?_storeResult (r : CellResult) (i : Nat) :
    ((wb.storeResult r).sheet? i).isSome = (wb.sheet? i).isSome := by
  unfold storeResult sheet?
  rw [List.getElem?_modify]
  split <;> cases wb.sheets[i]? <;> rfl

theorem result?_foldl_of_not_mem {rs : List CellResult} {l : Location} (h : l ∉ rs.map CellResult.location) :
    (rs.foldl storeResult wb).result? l = wb.result? l := by
  induction rs generalizing wb with
  | nil => rfl
  | cons r rs ih =>
    rw [List.map_cons, List.mem_cons, not_or] at h
    rw [List.foldl_cons, ih h.2, result?_storeResult_of_ne (Ne.symm h.1)]

/-- Results for different cells do not get in the way of each other. -/
theorem result?_foldl {rs : List CellResult} (hnd : (rs.map CellResult.location).Nodup) {r : CellResult} (hr : r ∈ rs)
    (hs : (wb.sheet? r.location.sheet).isSome) : (rs.foldl storeResult wb).result? r.location = some r.value := by
  induction rs generalizing wb with
  | nil => cases hr
  | cons r' rs ih =>
    rw [List.map_cons, List.nodup_cons] at hnd
    rw [List.foldl_cons]
    rcases List.mem_cons.1 hr with rfl | hr
    -- The results after this one are for other cells.
    · rw [result?_foldl_of_not_mem hnd.1, result?_storeResult_self hs]
    · exact ih hnd.2 hr (by rw [isSome_sheet?_storeResult]; exact hs)

/-! ### The two passes -/

private theorem storeResult_of_none {r : CellResult} (h : wb.sheet? r.location.sheet = none) :
    wb.storeResult r = wb := by
  have hlength : wb.sheets.length ≤ r.location.sheet := List.getElem?_eq_none_iff.1 h
  rw [storeResult, List.modify_eq_self hlength]

/-- The second pass stores all results and counts those whose sheet there is. -/
theorem runOn_storeResults (rs : List CellResult) (wb : Workbook) (count : Nat) :
    (storeResults count rs).runOn wb =
      (.ok (count + rs.countP fun r => (wb.sheet? r.location.sheet).isSome), rs.foldl storeResult wb) := by
  induction rs generalizing wb count with
  | nil => rfl
  | cons r rs ih =>
    rw [storeResults, Action.runOn_get_bind, List.countP_cons, List.foldl_cons]
    cases hs : wb.sheet? r.location.sheet with
    | none =>
      rw [storeResult_of_none hs]
      exact ih wb count
    | some sheet =>
      simp only [Option.isSome_some, if_true]
      rw [Action.runOn_modify_bind, ih]
      simp only [isSome_sheet?_storeResult]
      rw [Nat.add_assoc, Nat.add_comm 1]

/-- The results of the first pass are for cells of sheets that there are, so that the second pass stores all of them. -/
theorem runOn_calculate_of_ok {rs : List CellResult} (hrs : wb.results = .ok rs) :
    calculate.runOn wb =
      (.ok ⟨rs.length, rs.length, rs.countP (·.value.isError), rs.countP (·.circular)⟩, rs.foldl storeResult wb) := by
  have hsheets : rs.countP (fun r => (wb.sheet? r.location.sheet).isSome) = rs.length := by
    refine List.countP_eq_length.2 fun r hr => isSome_sheet?_of_formula? ?_
    rw [← mem_formulaLocations, ← map_location_of_yields (results_ok hrs)]
    exact List.mem_map_of_mem hr
  rw [calculate, Action.runOn_get_bind, hrs, Action.runOn_check_bind]
  dsimp only [Except.mapError]
  rw [Action.runOn_bind, runOn_storeResults, hsheets, Nat.zero_add]
  rfl

/-- Nothing is stored if a cell has no result, for the second pass is not begun. -/
theorem runOn_calculate_of_error {e : FormulaError} (h : wb.results = .error e) :
    calculate.runOn wb = (.error (.formula e), wb) := by
  rw [calculate, Action.runOn_get_bind, h]
  rfl

/-- A recalculation that fails has stored nothing, for storing does not fail. -/
theorem atomic_calculate : calculate.Atomic := by
  have htotal : ∀ rs, (storeResults 0 rs).Total := fun rs wb => ⟨_, congrArg Prod.fst (runOn_storeResults rs wb 0)⟩
  rw [calculate]
  exact Action.atomic_get_bind fun _ => Action.atomic_check_bind fun rs =>
    ((htotal rs).bind fun _ => Action.total_pure _).atomic

theorem calculate_eq_ok {wb' : Workbook} {stats : Stats} (h : calculate.runOn wb = (.ok stats, wb')) :
    ∃ rs, wb.results = .ok rs ∧ wb' = rs.foldl storeResult wb ∧
      stats = ⟨rs.length, rs.length, rs.countP (·.value.isError), rs.countP (·.circular)⟩ := by
  cases hr : wb.results with
  | error e =>
    rw [runOn_calculate_of_error hr] at h
    cases h
  | ok rs =>
    rw [runOn_calculate_of_ok hr] at h
    cases h
    exact ⟨rs, rfl, rfl, rfl⟩

end Spreadsheet.Workbook
