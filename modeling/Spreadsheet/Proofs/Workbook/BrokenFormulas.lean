import Spreadsheet.Proofs.Evaluation.Operands
import Spreadsheet.Proofs.Workbook.Agreement
import Spreadsheet.Proofs.Workbook.Outcomes

/-!
# Broken formulas

A formula with a defect, such as a missing operand or an unknown function, is the error value `#VALUE!` of its cell, and
so is one that uses a name whose definition has a defect.  There is one exception: a name that is the result of a formula
is resolved only after the evaluation is over, and then a defect of its definition is a failure of the cell itself, which
ends a recalculation (`calculate_eq_error_passedName`).  If no formula passes on a name with a defect, then every cell has
a value or fails with a fault, and a recalculation stores a result for every formula (`calculate_of_passesNoDefect`).
-/

namespace Spreadsheet.Workbook

variable {wb : Workbook}

variable (wb) in
/-- What a formula consults in a session when `n` more formula cells may be evaluated inside its own cell. -/
def scopeWithin (n : Nat) : Scope Session :=
  Scope.of wb.settings (wb.resolverWith (wb.lookUp n))

variable (wb) in
/-- The formula of the cell cannot be evaluated, whatever the state of the session is. -/
def IsBroken (l : Location) : Prop :=
  ∃ tokens, wb.formula? l = some tokens ∧
    ∀ n s, ∃ e, ((evaluateToken (wb.scopeWithin n) tokens).runFrom s).1 = .error e

variable (wb) in
/-- The cell shows a value with this outcome, which is `#VALUE!` if its formula is broken. -/
def Shows (l : Location) (r : Except FormulaError Scalar) : Prop :=
  ∃ v, shownInCell r = .ok v ∧ (wb.IsBroken l → v = .error .value)

variable (wb) in
/-- In a session in which all known outcomes can be shown, no formula evaluates to a name that then fails with something
other than a fault. -/
def PassesNoDefect : Prop :=
  ∀ n l tokens s id t, wb.formula? l = some tokens → s.All wb.Shows →
    (evaluateToken (wb.scopeWithin n) tokens).runFrom s = (.ok (.name id), t) →
    ∀ e, (((Token.name id).value (wb.scopeWithin n)).runFrom t).1 = .error e → e.fault?.isSome

private theorem shownInCell_error {e : FormulaError} {f : Fault} (h : e.fault? = some f) :
    shownInCell (.error e) = .ok (.error f.shown) := by
  unfold shownInCell
  dsimp only
  rw [h]

private theorem isSome_fault?_of_shows {l : Location} {e : FormulaError} (h : wb.Shows l (.error e)) :
    e.fault?.isSome := by
  obtain ⟨v, hv, -⟩ := h
  unfold shownInCell at hv
  dsimp only at hv
  cases hf : e.fault? with
  | some f => rfl
  | none =>
    rw [hf] at hv
    cases hv

private theorem shows_stored {l : Location} (hf : wb.formula? l = none) : wb.Shows l (wb.stored l) := by
  have hnot : ¬ wb.IsBroken l := by
    rintro ⟨tokens, ht, -⟩
    cases hf.symm.trans ht
  unfold stored
  split
  · exact ⟨.error .ref, rfl, fun hb => absurd hb hnot⟩
  · exact ⟨_, rfl, fun hb => absurd hb hnot⟩

/-- The evaluation of a formula in a session after its run. -/
theorem evaluateWithin_runFrom (n : Nat) (tokens : List Token) (s : Session) :
    (wb.evaluateWithin n tokens).runFrom s =
      match ((evaluateToken (wb.scopeWithin n) tokens).runFrom s).1 with
      | .error _ => (.ok (.error .value), ((evaluateToken (wb.scopeWithin n) tokens).runFrom s).2)
      | .ok t =>
        if t.isCircular then (.error .circular, ((evaluateToken (wb.scopeWithin n) tokens).runFrom s).2) else
        ((fun v => v.corner.toScalar) <$> t.value (wb.scopeWithin n)).runFrom
          ((evaluateToken (wb.scopeWithin n) tokens).runFrom s).2 :=
  evaluateFormula_runFrom ..

theorem isSome_fault?_of_findSheet {i : Nat} {sheet : Option String} {e : FormulaError}
    (h : wb.findSheet i sheet = .error e) : e.fault?.isSome := by
  unfold findSheet at h
  split at h
  · cases h
  · split at h
    · cases h
    · cases h
      rfl

/-- A cell that a formula asks for has a value or fails with a fault, if outcomes can be shown. -/
theorem cell_meets {n : Nat} (h : Answers wb.Shows (wb.lookUp n)) (sheet : Option String) (a : CellAddress) :
    ((wb.scopeWithin n).resolver.cell sheet a).Meets (·.All wb.Shows) (fun _ => True) (fun e => e.fault?.isSome) := by
  have hr : (wb.scopeWithin n).resolver = wb.resolverWith (wb.lookUp n) :=
    (scopeOf_isDialogue wb.settings).resolver_eq _ _
  rw [hr]
  intro s hs
  show (((wb.resolverWith (wb.lookUp n)).answer (.cell sheet a)).runFrom s).2.All _ ∧ Eval.Satisfies _ _
    (((wb.resolverWith (wb.lookUp n)).answer (.cell sheet a)).runFrom s).1
  rw [resolverWith_cell]
  cases hi : wb.findSheet s.currentSheet sheet with
  | error e => exact ⟨hs, isSome_fault?_of_findSheet hi⟩
  | ok i =>
    obtain ⟨hQ, hall⟩ := h ⟨i, a.position⟩ s hs
    refine ⟨hall, ?_⟩
    dsimp only
    cases hout : ((wb.lookUp n ⟨i, a.position⟩).runFrom s).1 with
    | ok v => exact trivial
    | error e =>
      rw [hout] at hQ
      exact isSome_fault?_of_shows hQ

/-- If no formula passes on a defect of a name, then every outcome can be shown. -/
theorem PassesNoDefect.outcomeInvariant (h : wb.PassesNoDefect) : wb.OutcomeInvariant wb.Shows where
  stored := fun l hf => shows_stored hf
  circular := fun l => ⟨.error .value, rfl, fun _ => rfl⟩
  cut := fun l => ⟨.error .value, rfl, fun _ => rfl⟩
  formula := by
    intro n hlookUp l tokens hf s hs
    have hstate : ((evaluateToken (wb.scopeWithin n) tokens).runFrom s).2.All wb.Shows :=
      (evaluateToken_isDialogue wb.settings tokens).run_invariant (r := wb.resolverWith (wb.lookUp n))
        (P := fun s t => s.All wb.Shows → t.All wb.Shows) (fun _ => id) (fun h h' => h' ∘ h) hlookUp.question s hs
    have hbroken : wb.IsBroken l → ∃ e, ((evaluateToken (wb.scopeWithin n) tokens).runFrom s).1 = .error e := by
      rintro ⟨tokens', hf', hb⟩
      obtain rfl := Option.some.inj (hf.symm.trans hf')
      exact hb n s
    rw [evaluateWithin_runFrom]
    rcases hrun : (evaluateToken (wb.scopeWithin n) tokens).runFrom s with ⟨e | t, s'⟩
    · exact ⟨.error .value, rfl, fun _ => rfl⟩
    · rw [hrun] at hstate hbroken
      have hnot : ¬ wb.IsBroken l := fun hb => by
        obtain ⟨e, he⟩ := hbroken hb
        cases he
      dsimp only
      split
      · exact ⟨.error .value, rfl, fun _ => rfl⟩
      · have hvalue : ∀ e, ((t.value (wb.scopeWithin n)).runFrom s').1 = .error e → e.fault?.isSome := by
          by_cases hname : ∃ id, t = .name id
          · obtain ⟨id, rfl⟩ := hname
            exact h n l tokens s id s' hf hs hrun
          · have hmeets := Token.value_meets (cell_meets hlookUp) rfl (evaluateToken_isLeaf hrun)
              fun id e => hname ⟨id, e⟩
            intro e he
            have hsatisfies := (hmeets s' hstate).2
            rw [he] at hsatisfies
            exact hsatisfies
        rw [← bind_pure_comp, Eval.runFrom_bind]
        rcases hv : (t.value (wb.scopeWithin n)).runFrom s' with ⟨e | v, u⟩
        · rw [hv] at hvalue
          obtain ⟨f, hf⟩ := Option.isSome_iff_exists.1 (hvalue e rfl)
          exact ⟨_, shownInCell_error hf, fun hb => absurd hb hnot⟩
        · exact ⟨_, rfl, fun hb => absurd hb hnot⟩

/-- If no formula passes on a defect of a name, then cells fail only with faults, and a recalculation stores a result for
each formula cell, which is `#VALUE!` if the formula is broken. -/
theorem calculate_of_passesNoDefect (h : wb.PassesNoDefect) :
    (∀ sheet s, wb.Reached sheet s → ∀ l e, ((wb.cellValue l).runFrom s).1 = .error e → e.fault?.isSome) ∧
      ∃ wb' stats, calculate.runOn wb = (.ok stats, wb') ∧
        ∀ l, (wb.formula? l).isSome → ∃ v, wb'.result? l = some v ∧ (wb.IsBroken l → v = .error .value) := by
  have hfault : ∀ sheet s, wb.Reached sheet s → ∀ l e, ((wb.cellValue l).runFrom s).1 = .error e →
      e.fault?.isSome := by
    intro sheet s hs l e he
    have hshows := h.outcomeInvariant.cellValue hs l
    rw [he] at hshows
    exact isSome_fault?_of_shows hshows
  refine ⟨hfault, ?_⟩
  cases hr : wb.results with
  | error e =>
    obtain ⟨l, -, s, hs, hcell⟩ := results_error hr
    have hshows := h.outcomeInvariant.cellValue hs l
    unfold cellResult at hcell
    split at hcell
    · cases hcell
    · rename_i e' he
      rw [he] at hshows
      obtain ⟨f, hf⟩ := Option.isSome_iff_exists.1 (isSome_fault?_of_shows hshows)
      rw [hf] at hcell
      cases hcell
  | ok rs =>
    have hcalc := runOn_calculate_of_ok hr
    refine ⟨_, _, hcalc, fun l hl => ?_⟩
    obtain ⟨v, s, hv, hs, hshown⟩ := exists_stored hcalc hl
    obtain ⟨v', hv', hbroken⟩ := h.outcomeInvariant.cellValue hs l
    obtain rfl := Except.ok.inj (hshown.symm.trans hv')
    exact ⟨v, hv, hbroken⟩

/-- A cell with two operands and no operator, a cell with a sum in which there is a name with the same defect, and a cell
that refers to the first one. -/
def brokenFormulas : Workbook where
  sheets := [{
    name := "Sheet1"
    cells := .ofList [
      (⟨0, 0⟩, .formula [.integer 1, .integer 2]),
      (⟨0, 1⟩, .formula [.name 1, .integer 0, .operator .add]),
      (⟨0, 2⟩, .formula [.cell none (.relative 0 0)])] Position.order }]
  names := [{ name := "Broken", tokens := [.integer 1, .integer 2] }]

private theorem evaluateToken_brokenFormulas (n : Nat) (s : Session) :
    (evaluateToken (brokenFormulas.scopeWithin n) [.integer 1, .integer 2]).runFrom s = (.error (.unbalancedStack 2), s) ∧
      (evaluateToken (brokenFormulas.scopeWithin n) [.name 1, .integer 0, .operator .add]).runFrom s =
        (.error (.unbalancedStack 2), s) :=
  ⟨rfl, rfl⟩

private theorem passesNoDefect_brokenFormulas : brokenFormulas.PassesNoDefect := by
  intro n l tokens s id t hf _ hrun
  have hl : l ∈ brokenFormulas.formulaLocations := mem_formulaLocations.2 (by rw [hf]; rfl)
  rw [show brokenFormulas.formulaLocations = [⟨0, ⟨0, 0⟩⟩, ⟨0, ⟨0, 1⟩⟩, ⟨0, ⟨0, 2⟩⟩] by decide] at hl
  simp only [List.mem_cons, List.not_mem_nil, or_false] at hl
  exfalso
  rcases hl with rfl | rfl | rfl
  · obtain rfl := Option.some.inj hf
    rw [(evaluateToken_brokenFormulas n s).1] at hrun
    cases hrun
  · obtain rfl := Option.some.inj hf
    rw [(evaluateToken_brokenFormulas n s).2] at hrun
    cases hrun
  · obtain rfl := Option.some.inj hf
    rw [evaluateToken_reference] at hrun
    cases hrun

/-- A recalculation stores an error value for each of the broken formulas. -/
theorem calculate_brokenFormulas :
    brokenFormulas.PassesNoDefect ∧ ∃ wb' stats, calculate.runOn brokenFormulas = (.ok stats, wb') ∧
      wb'.result? ⟨0, ⟨0, 0⟩⟩ = some (.error .value) ∧ wb'.result? ⟨0, ⟨0, 1⟩⟩ = some (.error .value) := by
  obtain ⟨-, wb', stats, hcalc, hstored⟩ := calculate_of_passesNoDefect passesNoDefect_brokenFormulas
  have hbroken : ∀ c : Nat, c < 2 → brokenFormulas.IsBroken ⟨0, ⟨0, c⟩⟩ := by
    intro c hc
    have hcases : c = 0 ∨ c = 1 := by omega
    rcases hcases with rfl | rfl
    · exact ⟨_, rfl, fun n s => ⟨_, congrArg Prod.fst (evaluateToken_brokenFormulas n s).1⟩⟩
    · exact ⟨_, rfl, fun n s => ⟨_, congrArg Prod.fst (evaluateToken_brokenFormulas n s).2⟩⟩
  have hresult : ∀ c : Nat, c < 2 → wb'.result? ⟨0, ⟨0, c⟩⟩ = some (.error .value) := by
    intro c hc
    obtain ⟨tokens, hf, hb⟩ := hbroken c hc
    obtain ⟨v, hv, hvalue⟩ := hstored ⟨0, ⟨0, c⟩⟩ (by rw [hf]; rfl)
    rw [hv, hvalue ⟨tokens, hf, hb⟩]
  exact ⟨passesNoDefect_brokenFormulas, wb', stats, hcalc, hresult 0 (by decide), hresult 1 (by decide)⟩

/-- A cell whose formula is a name with a defect, and a healthy one. -/
def passedName : Workbook where
  sheets := [{
    name := "Sheet1"
    cells := .ofList [(⟨0, 0⟩, .formula [.name 1]), (⟨0, 1⟩, .formula [.integer 1])] Position.order }]
  names := [{ name := "Broken", tokens := [.integer 1, .integer 2] }]

private theorem cellValue_passedName :
    runSession 0 (passedName.cellValue ⟨0, ⟨0, 0⟩⟩) = .error (.unbalancedStack 2) := by
  rfl

/-- The cell fails with the defect of the name, and a recalculation stores nothing at all. -/
theorem calculate_eq_error_passedName :
    (∃ e, runSession 0 (passedName.cellValue ⟨0, ⟨0, 0⟩⟩) = .error e ∧ e.fault? = none) ∧
      calculate.runOn passedName = (.error (.formula (.unbalancedStack 2)), passedName) := by
  have hresults : passedName.results = .error (.unbalancedStack 2) := rfl
  exact ⟨⟨_, cellValue_passedName, rfl⟩, runOn_calculate_of_error hresults⟩

end Spreadsheet.Workbook
