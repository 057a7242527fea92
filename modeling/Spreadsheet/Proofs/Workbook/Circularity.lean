import Spreadsheet.Proofs.Workbook.Ideal
import Spreadsheet.Proofs.Workbook.References
import Spreadsheet.Proofs.Workbook.Results

/-!
# Circular references

In a workbook of one-step formulas a cell is circular just if a cycle of references can be reached from it
(`circular_iff_reachesCycle`).  The values that are circular there and ideal elsewhere are coherent
(`coherent_cycleValue`): a formula that refers to a circular cell fails in the same way, and from a cell that reaches no
cycle there are only finitely many references to follow.
-/

namespace Spreadsheet.Workbook

open Relation

variable {wb : Workbook}

/-! ### Cycles of references -/

variable (wb) in
/-- The formula of one cell refers to another cell. -/
def Refers (l d : Location) : Prop :=
  d ∈ wb.references l

instance (l d : Location) : Decidable (wb.Refers l d) :=
  inferInstanceAs (Decidable (d ∈ wb.references l))

variable (wb) in
/-- Following references from a cell one can get into a cycle. -/
def ReachesCycle (l : Location) : Prop :=
  ∃ d, ReflTransGen wb.Refers l d ∧ TransGen wb.Refers d d

theorem Refers.isSome_formula? {l d : Location} (h : wb.Refers l d) : (wb.formula? l).isSome := by
  unfold Refers references at h
  cases hl : wb.formula? l with
  | none =>
    rw [hl] at h
    cases h
  | some tokens => rfl

private theorem ReachesCycle.of_refers {l d : Location} (h : wb.Refers l d) (hd : wb.ReachesCycle d) :
    wb.ReachesCycle l := by
  obtain ⟨e, hde, he⟩ := hd
  exact ⟨e, hde.head h, he⟩

private theorem ReachesCycle.exists_refers {l : Location} (h : wb.ReachesCycle l) :
    ∃ d, wb.Refers l d ∧ wb.ReachesCycle d := by
  obtain ⟨e, hle, he⟩ := h
  rcases ReflTransGen.cases_head hle with rfl | ⟨d, hld, hde⟩
  · obtain ⟨d, hld, hdl⟩ := TransGen.head'_iff.1 he
    exact ⟨d, hld, l, hdl, he⟩
  · exact ⟨d, hld, e, hde, he⟩

/-- The cell that a formula refers to is on a sheet. -/
theorem Refers.isSome_sheet? {l d : Location} (h : wb.Refers l d) : (wb.sheet? d.sheet).isSome := by
  have hl := h.isSome_formula?
  obtain ⟨t, -, hd⟩ := List.mem_flatMap.1 h
  unfold cellOf at hd
  split at hd
  · rename_i sheet a
    unfold findSheet at hd
    cases sheet with
    | none =>
      obtain rfl := List.mem_singleton.1 hd
      show (wb.sheet? l.sheet).isSome
      exact isSome_sheet?_of_formula? hl
    | some name =>
      cases hi : wb.sheetIndex? name with
      | none =>
        simp only [hi] at hd
        cases hd
      | some i =>
        simp only [hi] at hd
        obtain rfl := List.mem_singleton.1 hd
        have hlt : i < wb.sheets.length := (List.findIdx?_eq_some_iff_getElem.1 hi).1
        unfold sheet?
        rw [List.getElem?_eq_getElem hlt]
        rfl
  · cases hd

/-! ### Cells that reach no cycle -/

variable (wb) in
/-- The formula cells to which references lead from a cell. -/
def ahead (l : Location) : Set Location :=
  {d | (wb.formula? d).isSome ∧ TransGen wb.Refers l d}

variable (wb) in
private theorem finite_ahead (l : Location) : (wb.ahead l).Finite := by
  refine (List.finite_toSet wb.formulaLocations).subset fun d hd => ?_
  exact mem_formulaLocations.2 hd.1

/-- From a cell off all cycles, each reference leaves fewer formula cells ahead. -/
theorem ncard_ahead_lt {l d : Location} (h : wb.Refers l d) (hd : (wb.formula? d).isSome) (hcyc : ¬ wb.ReachesCycle d) :
    (wb.ahead d).ncard < (wb.ahead l).ncard := by
  refine Set.ncard_lt_ncard ((Set.ssubset_iff_of_subset ?_).2 ⟨d, ?_, ?_⟩) (wb.finite_ahead l)
  · intro e he
    exact ⟨he.1, .head h he.2⟩
  · exact ⟨hd, .single h⟩
  · intro hm
    exact hcyc ⟨d, .refl, hm.2⟩

private theorem exists_ideal_of_stored {l : Location} (hl : (wb.sheet? l.sheet).isSome) (hf : wb.formula? l = none) :
    ∃ y, wb.Ideal l (.ok y) := by
  obtain ⟨sheet, hs⟩ := Option.isSome_iff_exists.1 hl
  have h := Ideal.of_stored hf
  rw [stored, hs] at h
  exact ⟨_, h⟩

/-- A cell from which no cycle can be reached has an ideal value, and evaluating it does not fail. -/
theorem exists_ideal_of_not_reachesCycle (h : wb.IsOneStep) {l : Location} (hl : (wb.sheet? l.sheet).isSome)
    (hcyc : ¬ wb.ReachesCycle l) : ∃ y, wb.Ideal l (.ok y) := by
  -- The cells ahead bound the length of the chains from `l`; they need not form a tree.
  induction hn : (wb.ahead l).ncard using Nat.strongRecOn generalizing l with
  | _ n ih =>
    cases hf : wb.formula? l with
    | none => exact exists_ideal_of_stored hl hf
    | some tokens =>
      have hideal : ∀ d ∈ wb.references l, ∃ y, wb.Ideal d (.ok y) := by
        intro d hd
        have hcyc' : ¬ wb.ReachesCycle d := fun hc => hcyc (.of_refers hd hc)
        cases hfd : wb.formula? d with
        | none => exact exists_ideal_of_stored (Refers.isSome_sheet? hd) hfd
        | some tokens' =>
          have hlt := ncard_ahead_lt (l := l) hd (by rw [hfd]; rfl) hcyc'
          exact ih _ (hn ▸ hlt) (Refers.isSome_sheet? hd) hcyc' rfl
      -- Under the ideal values nothing that the formula refers to fails, so that the formula does not fail either.
      have hvalue : ∀ d ∈ wb.references l, ∃ y, wb.Ideal d (.ok y) ∧ wb.idealValue d = .ok y := by
        intro d hd
        obtain ⟨y, hy⟩ := hideal d hd
        exact ⟨y, hy, hy.idealValue_eq⟩
      have hlooks : LooksUp wb.idealValue (wb.references l) (wb.evaluateIn wb.idealValue l) := by
        refine looksUp_references h (by rw [hf]; rfl) fun d hd => ?_
        obtain ⟨y, -, hy⟩ := hvalue d hd
        exact .inl ⟨y, hy⟩
      obtain ⟨y, hy⟩ := hlooks.ok (fun d hd hc => by
        obtain ⟨y, -, hy⟩ := hvalue d hd
        rw [hy] at hc
        cases hc) []
      refine ⟨y, ?_⟩
      rw [← hy]
      refine .intro wb.idealValue l fun d hd => ?_
      obtain ⟨y, hi, hy⟩ := hvalue d ((hlooks.asked [] d hd).resolve_right List.not_mem_nil)
      rw [hy]
      exact hi

theorem exists_ideal (h : wb.IsOneStep) {l : Location} (hcyc : ¬ wb.ReachesCycle l) : ∃ r, wb.Ideal l r := by
  cases hs : wb.sheet? l.sheet with
  | none => exact ⟨_, .of_stored (by rw [formula?, hs]; rfl)⟩
  | some sheet =>
    obtain ⟨y, hy⟩ := exists_ideal_of_not_reachesCycle h (by rw [hs]; rfl) hcyc
    exact ⟨_, hy⟩

/-! ### The values of all cells -/

open Classical in
variable (wb) in
/-- Circular where a cycle can be reached, and the ideal value elsewhere. -/
noncomputable def cycleValue : Valuation := fun l =>
  if wb.ReachesCycle l then .error .circular else wb.idealValue l

theorem cycleValue_of_reachesCycle {l : Location} (h : wb.ReachesCycle l) : wb.cycleValue l = .error .circular :=
  if_pos h

private theorem cycleValue_of_not_reachesCycle {l : Location} (h : ¬ wb.ReachesCycle l) :
    wb.cycleValue l = wb.idealValue l :=
  if_neg h

private theorem cycleValue_eq_circular_iff (h : wb.IsOneStep) {l : Location} :
    wb.cycleValue l = .error .circular ↔ wb.ReachesCycle l := by
  refine ⟨fun e => ?_, cycleValue_of_reachesCycle⟩
  by_contra hcyc
  rw [cycleValue_of_not_reachesCycle hcyc] at e
  cases hs : wb.sheet? l.sheet with
  | none =>
    have hi : wb.Ideal l (wb.stored l) := .of_stored (by rw [formula?, hs]; rfl)
    rw [hi.idealValue_eq, stored, hs] at e
    cases e
  | some sheet =>
    obtain ⟨y, hy⟩ := exists_ideal_of_not_reachesCycle h (by rw [hs]; rfl) hcyc
    rw [hy.idealValue_eq] at e
    cases e

/-- On a sheet, a cell has a value or is circular. -/
theorem cycleValue_ok_or_circular (h : wb.IsOneStep) {l : Location} (hl : (wb.sheet? l.sheet).isSome) :
    (∃ y, wb.cycleValue l = .ok y) ∨ wb.cycleValue l = .error .circular := by
  by_cases hcyc : wb.ReachesCycle l
  · exact .inr (cycleValue_of_reachesCycle hcyc)
  · obtain ⟨y, hy⟩ := exists_ideal_of_not_reachesCycle h hl hcyc
    left
    rw [cycleValue_of_not_reachesCycle hcyc, hy.idealValue_eq]
    exact ⟨y, rfl⟩

private theorem looksUp_cycleValue (h : wb.IsOneStep) {l : Location} (hl : (wb.formula? l).isSome) :
    LooksUp wb.cycleValue (wb.references l) (wb.evaluateIn wb.cycleValue l) :=
  looksUp_references h hl fun _ hd => cycleValue_ok_or_circular h (Refers.isSome_sheet? hd)

private theorem refers_of_asks (h : wb.IsOneStep) {l d : Location} (hd : wb.Asks wb.cycleValue l d) :
    wb.Refers l d := by
  cases hf : wb.formula? l with
  | none =>
    unfold Asks at hd
    rw [asks_of_stored hf] at hd
    cases hd
  | some tokens =>
    have hlooks := looksUp_cycleValue h (l := l) (by rw [hf]; rfl)
    exact (hlooks.asked [] d hd).resolve_right List.not_mem_nil

theorem coherent_cycleValue (h : wb.IsOneStep) : wb.Coherent Set.univ wb.cycleValue where
  value := fun l _ => by
    by_cases hcyc : wb.ReachesCycle l
    · obtain ⟨d, hld, hd⟩ := hcyc.exists_refers
      have hc := (looksUp_cycleValue h hld.isSome_formula?).circular ⟨d, hld, cycleValue_of_reachesCycle hd⟩ []
      rw [cycleValue_of_reachesCycle hcyc]
      exact hc.symm
    · obtain ⟨r, hr⟩ := exists_ideal h hcyc
      rw [cycleValue_of_not_reachesCycle hcyc, hr.solves.1]
      refine valueIn_congr fun d hd => ?_
      have hcyc' : ¬ wb.ReachesCycle d := fun hc => hcyc (.of_refers (refers_of_asks h hd) hc)
      exact (cycleValue_of_not_reachesCycle hcyc').symm
  closed := fun _ _ _ _ => Set.mem_univ _
  circular := fun l _ hcyc =>
    cycleValue_of_reachesCycle ⟨l, .refl, TransGen.mono (fun _ _ => refers_of_asks h) l l hcyc⟩

/-! ### Recalculation -/

private theorem circular_of_yields (h : wb.IsOneStep) {l : Location} {r : CellResult} (hy : wb.Yields 0 l (.ok r)) :
    r.circular = true ↔ wb.ReachesCycle l := by
  obtain ⟨s, hs, hr⟩ := hy
  rw [circular_of_cellResult hr, cellValue_coherent (coherent_cycleValue h) hs (Set.mem_univ l),
    cycleValue_eq_circular_iff h]

/-- The circular results are as many as the cells from which a cycle can be reached. -/
theorem countP_circular (h : wb.IsOneStep) {ls : List Location} {rs : List CellResult}
    (hrs : List.Forall₂ (fun l r => wb.Yields 0 l (.ok r)) ls rs) (hnd : ls.Nodup) :
    rs.countP (·.circular) = {l | l ∈ ls ∧ wb.ReachesCycle l}.ncard := by
  have hlocations := map_location_of_yields hrs
  rw [← hlocations] at hnd
  rw [countP_eq_ncard hnd]
  congr 1
  ext l
  constructor
  · rintro ⟨r, hr, rfl, hc⟩
    refine ⟨?_, (circular_of_yields h (yields_of_mem hrs hr)).1 hc⟩
    rw [← hlocations]
    exact List.mem_map_of_mem hr
  · rintro ⟨hl, hcyc⟩
    obtain ⟨r, hr, rfl, hy⟩ := exists_yields_of_mem hrs hl
    exact ⟨r, hr, rfl, (circular_of_yields h hy).2 hcyc⟩

/-- In a workbook of one-step formulas a cell is circular just if a cycle of references can be reached from it, whatever
the session was asked before.  A recalculation succeeds and counts the formula cells of which this is true. -/
theorem circular_iff_reachesCycle (h : wb.IsOneStep) :
    (∀ sheet s, wb.Reached sheet s → ∀ c,
      ((wb.cellValue c).runFrom s).1 = .error .circular ↔ wb.ReachesCycle c) ∧
    ∃ wb' stats, calculate.runOn wb = (.ok stats, wb') ∧
      stats.circular = {c | (wb.formula? c).isSome ∧ wb.ReachesCycle c}.ncard := by
  constructor
  · intro sheet s hs c
    rw [cellValue_coherent (coherent_cycleValue h) hs (Set.mem_univ c), cycleValue_eq_circular_iff h]
  · obtain ⟨rs, hrs⟩ := exists_results_of_coherent (coherent_cycleValue h) fun l hl =>
      ⟨Set.mem_univ l, cycleValue_ok_or_circular h (isSome_sheet?_of_formula? hl)⟩
    refine ⟨_, _, runOn_calculate_of_ok hrs, ?_⟩
    show rs.countP (·.circular) = _
    rw [countP_circular h (results_ok hrs) nodup_formulaLocations]
    simp only [mem_formulaLocations]

/-- Two cells that refer to each other, and a third one that adds one to the first of them. -/
def crossReferences : Workbook where
  sheets := [{
    name := "Sheet1"
    cells := .ofList [
      (⟨0, 0⟩, .formula [.cell none (.relative 0 1)]),
      (⟨0, 1⟩, .formula [.cell none (.relative 0 0), .operator .unaryMinus]),
      (⟨0, 2⟩, .formula [.cell (some "sheet1") (.relative 0 0), .integer 1, .operator .add])] Position.order }]

private theorem reachesCycle_crossReferences {l : Location} (hl : (crossReferences.formula? l).isSome) :
    crossReferences.ReachesCycle l := by
  have hab : crossReferences.Refers ⟨0, ⟨0, 0⟩⟩ ⟨0, ⟨0, 1⟩⟩ := by decide
  have hba : crossReferences.Refers ⟨0, ⟨0, 1⟩⟩ ⟨0, ⟨0, 0⟩⟩ := by decide
  have hca : crossReferences.Refers ⟨0, ⟨0, 2⟩⟩ ⟨0, ⟨0, 0⟩⟩ := by decide
  have haa : TransGen crossReferences.Refers ⟨0, ⟨0, 0⟩⟩ ⟨0, ⟨0, 0⟩⟩ := .tail (.single hab) hba
  have hm : l ∈ [⟨0, ⟨0, 0⟩⟩, ⟨0, ⟨0, 1⟩⟩, ⟨0, ⟨0, 2⟩⟩] := by
    rw [← show crossReferences.formulaLocations = [⟨0, ⟨0, 0⟩⟩, ⟨0, ⟨0, 1⟩⟩, ⟨0, ⟨0, 2⟩⟩] by decide]
    exact mem_formulaLocations.2 hl
  simp only [List.mem_cons, List.not_mem_nil, or_false] at hm
  rcases hm with rfl | rfl | rfl
  · exact ⟨_, .refl, haa⟩
  · exact ⟨_, .single hba, haa⟩
  · exact ⟨_, .single hca, haa⟩

/-- All three cells are circular. -/
theorem circular_crossReferences :
    crossReferences.IsOneStep ∧
    ((crossReferences.cellValue ⟨0, ⟨0, 2⟩⟩).runFrom (Session.new 0)).1 = .error .circular ∧
    ∃ wb' stats, calculate.runOn crossReferences = (.ok stats, wb') ∧ stats.circular = 3 := by
  obtain ⟨hcircular, wb', stats, hcalc, hstats⟩ := circular_iff_reachesCycle (show crossReferences.IsOneStep by decide)
  refine ⟨by decide, (hcircular 0 _ .new _).2 (reachesCycle_crossReferences (by decide)), wb', stats, hcalc, ?_⟩
  have e : {c | (crossReferences.formula? c).isSome ∧ crossReferences.ReachesCycle c} =
      crossReferences.formulaLocations.toFinset := by
    ext c
    rw [Finset.mem_coe, List.mem_toFinset, mem_formulaLocations]
    exact ⟨And.left, fun hc => ⟨hc, reachesCycle_crossReferences hc⟩⟩
  rw [hstats, e, Set.ncard_coe_finset]
  decide

end Spreadsheet.Workbook
