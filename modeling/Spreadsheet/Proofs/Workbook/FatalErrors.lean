import Spreadsheet.Proofs.Evaluation.Verdict
import Spreadsheet.Proofs.Workbook.SessionContracts

/-!
# What can end an evaluation

Whatever the cells, names and shared formulas of a workbook hold, the evaluation of a formula fails only with a defect of
some formula's structure: an operator or function without enough operands, a wrong number of operands at the end, or a
function that does not exist (`evaluate_isStructural`).  All other failures become error values on the way.  A defect of a
formula cell shows as a value of that cell, but one of a defined name comes through.
-/

namespace Spreadsheet

variable {σ : Type} {s : Scope σ}

private theorem Token.isOperand_of_isLeaf {t : Token} (h : t.isLeaf) : t.isOperand ∧ ∀ anchor, t ≠ .shared anchor := by
  cases t with
  | shared => cases h
  | _ => exact ⟨h, fun anchor e => nomatch e⟩

/-- Faults do not come out of the evaluation of a formula. -/
theorem fault?_of_evaluateToken {tokens : List Token} {p : σ} {e : FormulaError}
    (h : ((evaluateToken s tokens).runFrom p).1 = .error e) : e.fault? = none := by
  have hstop : ∀ (c : Machine.Config σ) (x : Except FormulaError Token × σ), True → Machine.Stops s c x →
      ∀ e, x.1 = .error e → e.fault? = none := by
    rintro c x - hstop e he
    cases hstop with
    | @finish k stack p =>
      match stack with
      | [t] => cases he
      | [] | _ :: _ :: _ =>
        cases he
        rfl
    | defect f hstep =>
      cases he
      exact Machine.fault?_of_step hstep
    | lost _ hf =>
      cases he
      exact hf
  exact Machine.outcome_invariant (s := s) (I := fun _ => True) (fun _ _ _ _ => trivial) hstop
    (c := ⟨s.settings.maxNestingDepth, tokens, [], p⟩) trivial e h

private theorem fault?_of_evaluateValue {tokens : List Token} {p : σ} {e : FormulaError}
    (h : ((evaluateValue s tokens).runFrom p).1 = .error e) : e.fault? = none := by
  rcases hrun : (evaluateToken s tokens).runFrom p with ⟨e' | t, q⟩
  · rw [evaluateValue_of_error hrun] at h
    cases h
    exact fault?_of_evaluateToken (congrArg Prod.fst hrun)
  · rw [evaluateValue_of_ok hrun] at h
    rcases hvalue : (t.value s).runFrom q with ⟨e' | v, q'⟩
    · rw [hvalue] at h
      dsimp only at h
      cases hf : e'.fault? with
      | some f =>
        rw [hf] at h
        cases h
      | none =>
        rw [hf] at h
        cases h
        exact hf
    · rw [hvalue] at h
      cases h

namespace Workbook

variable (wb : Workbook)

/-- Faults and defects of structure are the only failures. -/
def defectContract (state : Session → Prop) : Contract Session where
  state := state
  number _ := True
  definition _ := True
  failure e := e.fault?.isSome ∨ e.isStructural
  signClosed := signClosed_true
  fault _ := .inl

/-- The outcome of a cell is a value, a fault or a defect of structure. -/
def FailsWithDefect (_ : Location) (r : Except FormulaError Scalar) : Prop :=
  ∀ e, r = .error e → e.fault?.isSome ∨ e.isStructural

variable {wb}

private theorem evaluateToken_defect {I : Session → Prop} {s : Scope Session} (hs : s.Honours (defectContract I))
    (tokens : List Token) : (evaluateToken s tokens).Keeps (defectContract I) (defectContract I).Operand :=
  evaluateToken_keeps hs (fun _ _ t _ => t.within_true) (fun _ => .inr) (fun t _ => t.within_true)
    fun _ _ t _ => t.within_true

private theorem supplies_defect {lookUp : Location → Eval Session Scalar} {I : Session → Prop}
    (h : ∀ l s, I s → FailsWithDefect l ((lookUp l).runFrom s).1 ∧ I ((lookUp l).runFrom s).2) :
    wb.Supplies lookUp (defectContract I) where
  cell := by
    intro l s hs
    obtain ⟨hdefect, hstate⟩ := h l s hs
    refine ⟨hstate, ?_⟩
    cases hout : ((lookUp l).runFrom s).1 with
    | ok v => exact v.within_true
    | error e => exact hdefect e hout
  name := fun _ _ _ => trivial
  shared := fun _ _ _ _ => trivial

private theorem honours_defect {lookUp : Location → Eval Session Scalar} {I : Session → Prop}
    (h : ∀ l s, I s → FailsWithDefect l ((lookUp l).runFrom s).1 ∧ I ((lookUp l).runFrom s).2) :
    (Scope.of wb.settings (wb.resolverWith lookUp)).Honours (defectContract I) :=
  (supplies_defect h).withLevels_honours (fun _ tokens hs _ => evaluateToken_defect hs tokens) _

variable (wb) in
private theorem outcomeInvariant_defect : wb.OutcomeInvariant FailsWithDefect where
  stored := by
    intro l hf e he
    unfold stored at he
    split at he
    · cases he
      exact .inl rfl
    · cases he
  circular := fun l e he => by
    cases he
    exact .inl rfl
  cut := fun l e he => by
    cases he
    exact .inl rfl
  formula := by
    intro n hlookUp l tokens hf s hs e he
    have honours : (wb.scopeWithin n).Honours _ := honours_defect hlookUp
    have hmeets := (evaluateWithin_keeps honours (evaluateToken_defect honours tokens) s hs).2
    rw [he] at hmeets
    exact hmeets

/-- A formula that is evaluated in a session fails only with a defect of structure. -/
theorem scope_honours_defect (sheet : Nat) : wb.scope.Honours (defectContract (wb.Reached sheet)) :=
  honours_defect fun l _ hs => ⟨(wb.outcomeInvariant_defect).cellValue hs l, hs.value l⟩

/-- If the evaluation of a formula fails, then with a defect of structure; and if it gives an operand, this is not an
operator, a control, a call or a shared formula. -/
theorem evaluate_isStructural (wb : Workbook) {sheet : Nat} (hsheet : sheet < wb.sheetCount) (tokens : List Token) :
    (∀ e, wb.evaluate sheet tokens = .error e → ∃ e', e = .formula e' ∧ e'.isStructural) ∧
      ∀ s, wb.Reached sheet s →
        (∀ e, ((evaluateToken wb.scope tokens).runFrom s).1 = .error e → e.isStructural) ∧
        ∀ t, ((evaluateToken wb.scope tokens).runFrom s).1 = .ok t → t.isOperand ∧ ∀ anchor, t ≠ .shared anchor := by
  have honours := wb.scope_honours_defect sheet
  have htoken := evaluateToken_defect honours tokens
  constructor
  · intro e he
    have hvalue := (evaluateValue_keeps honours htoken (Session.new sheet) .new).2
    obtain ⟨e', hrun, rfl⟩ := evaluate_eq_error hsheet he
    rw [hrun] at hvalue
    -- The contract admits faults, but they do not get through the last layer.
    rcases hvalue with hfault | hstructural
    · rw [fault?_of_evaluateValue hrun] at hfault
      cases hfault
    · exact ⟨e', rfl, hstructural⟩
  · intro s hs
    have hresult := (htoken s hs).2
    constructor
    · intro e he
      rw [he] at hresult
      rcases hresult with hfault | hstructural
      · rw [fault?_of_evaluateToken he] at hfault
        cases hfault
      · exact hstructural
    · intro t ht
      rw [ht] at hresult
      exact Token.isOperand_of_isLeaf hresult.leaf

/-- A workbook with a name whose definition has an operand too many. -/
def brokenName : Workbook where
  sheets := [{ name := "Sheet1" }]
  names := [{ name := "Broken", tokens := [.integer 1, .integer 2] }]

/-- The defect of a definition ends the evaluation of a formula that uses it. -/
theorem evaluate_brokenName : 0 < brokenName.sheetCount ∧
    brokenName.evaluate 0 [.name 1, .boolean true, .operator .add] = .error (.formula (.unbalancedStack 2)) ∧
    (FormulaError.unbalancedStack 2).isStructural := by
  have hsheet : 0 < brokenName.sheetCount := by decide
  have herror : brokenName.evaluate 0 [.name 1, .boolean true, .operator .add] =
      .error (.formula (.unbalancedStack 2)) := by rfl
  obtain ⟨e, he, hstructural⟩ := (evaluate_isStructural brokenName hsheet _).1 _ herror
  obtain rfl := WorkbookError.formula.inj he
  exact ⟨hsheet, herror, hstructural⟩

end Workbook

end Spreadsheet
