import Spreadsheet.Proofs.Evaluation.FirstError
import Spreadsheet.Proofs.Evaluation.Operands
import Spreadsheet.Proofs.Workbook.Circularity

/-!
# The mark of a circular reference

An error that comes from a circular reference is marked, so that a recalculation counts the cell as circular.  A circular
reference stops the operator that looks at it, and the failure becomes a marked error; the operators above it pass this
error on with its mark (`Expression.evaluate_marked`).  So a cell whose formula is made of operators on values, and fails
because of a circular reference, is counted (`circular_of_operators`).

The power is different.  It is stopped by a circular reference as the others are, but it makes an error of its own, without
a mark, of an error that one of its operands has already become.  A cell with such a power in it is not counted
(`circular_summedCycle`).
-/

namespace Spreadsheet

variable {σ α : Type}

/-! ### Expressions -/

namespace Eval

/-- The computation has this outcome from some state of the set. -/
def CanGive (I : σ → Prop) (x : Eval σ α) (a : α) : Prop :=
  ∃ p, I p ∧ (x.runFrom p).1 = .ok a

private theorem CanGive.eq_of_pure {I : σ → Prop} {a b : α} (h : (pure a : Eval σ α).CanGive I b) : b = a := by
  obtain ⟨p, -, h⟩ := h
  exact (Except.ok.inj h).symm

private theorem Meets.canGive {I : σ → Prop} {P : α → Prop} {F : FormulaError → Prop} {x : Eval σ α}
    (hx : x.Meets I P F) : x.Meets I (fun a => x.CanGive I a ∧ P a) F := by
  intro p hp
  obtain ⟨hp', hr⟩ := hx p hp
  refine ⟨hp', ?_⟩
  cases hrun : (x.runFrom p).1 with
  | ok a =>
    rw [hrun] at hr
    exact ⟨⟨p, hp, hrun⟩, hr⟩
  | error e =>
    rw [hrun] at hr
    exact hr

end Eval

/-- An operator on values is stopped if its left operand has no value. -/
theorem runFrom_applyOperator_of_error {s : Scope σ} {op : Operator} {a b : Token} {p p' : σ} {x : FormulaError}
    (hbinary : op.isUnary = false) (hop : op.isReference = false) (ha : a.isError = false) (hb : b.isError = false)
    (h : (a.value s).runFrom p = (.error x, p')) : (applyOperator s op [a, b]).runFrom p = (.error x, p') := by
  rw [applyOperator_of_not_isError hbinary hop ha hb, applyToValues, Eval.runFrom_bind, h]

namespace Expression

variable {s : Scope σ} {I : σ → Prop} {e : Expression}

/-- Nothing but circular references fails: an error that is written out is marked, and an operation gives no error for any
operands that it can get and that are no errors, unless a circular reference stops it. -/
def FailsCircularly (s : Scope σ) (I : σ → Prop) : Expression → Prop
  | operand t _ => t.isError → t.isCircular
  | node f children => (∀ i, (children i).FailsCircularly s I) ∧
      ∀ ts : Fin f.arity → Token, (∀ i, ((children i).evaluate s).CanGive I (ts i) ∧ (ts i).isError = false) →
        (f.apply s ((List.finRange f.arity).map ts)).Meets I (fun t => t.isError = false) (· = .circular)

/-- No power gets an error as an operand. -/
def SparesPowers (s : Scope σ) (I : σ → Prop) : Expression → Prop
  | operand _ _ => True
  | node f children => (∀ i, (children i).SparesPowers s I) ∧
      (f = .operator .power → ∀ i t, ((children i).evaluate s).CanGive I t → t.isError = false)

/-- An expression of operators on values. -/
def IsOfValues (e : Expression) : Prop :=
  e.BuiltFrom (fun op => !op.isReference) fun _ => true

/-- The value is not a failure, and it is an error only if it is marked as circular. -/
theorem evaluate_marked (he : e.IsOfValues) (hfails : e.FailsCircularly s I) (hpowers : e.SparesPowers s I) :
    (e.evaluate s).Meets I (fun t => t.isError → t.isCircular) fun _ => False := by
  induction e with
  | operand t leaf => exact .pure hfails
  | node f children ih =>
    cases f with
    | sum | call => exact he.elim
    | operator op =>
      have hreference : op.isReference = false := by simpa using he.1
      refine (Eval.Meets.mapM_finRange fun i => (ih i (he.2 i) (hfails.1 i) (hpowers.1 i)).canGive).bind fun args => ?_
      rintro ⟨ts, rfl, hts⟩
      cases herror : ((List.finRange (Operation.operator op).arity).map ts).find? Token.isError with
      | some t =>
        obtain ⟨i, -, rfl⟩ := List.mem_map.1 (List.mem_of_find?_eq_some herror)
        obtain ⟨hgive, hmarked⟩ := hts i
        have hpower : op ≠ .power := by
          rintro rfl
          exact absurd ((hpowers.2 rfl i _ hgive).symm.trans (List.find?_some herror)) Bool.false_ne_true
        have happly : (Operation.operator op).apply s ((List.finRange (Operation.operator op).arity).map ts) =
            pure (ts i) := by
          refine (applyOperator_of_find? hreference (length_map_finRange ts) herror).trans ?_
          rw [if_neg hpower]
        rw [happly, Eval.trap_pure]
        exact .pure hmarked
      | none =>
        have hnone : ∀ i, (ts i).isError = false := by
          intro i
          simpa using List.find?_eq_none.1 herror _ (List.mem_map_of_mem (List.mem_finRange i))
        have happly : ((Operation.operator op).apply s ((List.finRange (Operation.operator op).arity).map ts)).Meets I
            (fun t => t.isError → t.isCircular) (· = .circular) :=
          (hfails.2 ts fun i => ⟨(hts i).1, hnone i⟩).mono fun t ht h => absurd (ht.symm.trans h) Bool.false_ne_true
        refine happly.trap_faults ?_
        rintro _ rfl
        exact ⟨.circular, rfl, fun _ => rfl⟩

end Expression

/-! ### Cells -/

namespace Workbook

/-- The run of a formula ends with an error, or with an operand that has no value because of a circular reference. -/
def EndsInFailure (settings : Settings) (r : Resolver σ) (tokens : List Token) (p : σ) : Prop :=
  ∃ t p', (evaluateToken (Scope.of settings r) tokens).runFrom p = (.ok t, p') ∧
    (t.isError ∨ ((t.value (Scope.of settings r)).runFrom p').1 = .error .circular)

theorem EndsInFailure.evaluateFormula {settings : Settings} {r : Resolver σ} {tokens : List Token} {p : σ}
    (h : EndsInFailure settings r tokens p)
    (hmarked : ∀ t, ((evaluateToken (Scope.of settings r) tokens).runFrom p).1 = .ok t → t.isError → t.isCircular) :
    ((evaluateFormula settings r tokens).runFrom p).1 = .error .circular := by
  obtain ⟨t, p', hrun, hfail⟩ := h
  rw [evaluateFormula_runFrom, hrun]
  dsimp only
  cases hcircular : t.isCircular with
  | true => rw [if_pos rfl]
  | false =>
    have hvalue : ((t.value (Scope.of settings r)).runFrom p').1 = .error .circular := by
      refine hfail.resolve_left fun herror => ?_
      have ht := hmarked t (by rw [hrun]) herror
      exact absurd (hcircular.symm.trans ht) Bool.false_ne_true
    rw [if_neg Bool.false_ne_true, ← bind_pure_comp, Eval.runFrom_bind]
    rcases hx : (t.value (Scope.of settings r)).runFrom p' with ⟨x, p''⟩
    rw [hx] at hvalue
    obtain rfl : x = .error .circular := hvalue
    rfl

/-- An expression of operators on values, in which nothing but circular references fails and no power gets an error as an
operand, evaluates to an error only if this is marked as circular.  A recalculation counts the cell that has it as a
formula among the circular ones if the formula fails; the values of the cells that it asks for are coherent ones. -/
theorem circular_of_operators {e : Expression} (he : e.IsOfValues) :
    (∀ (σ : Type) (settings : Settings) (r : Resolver σ) (I : σ → Prop),
      e.FailsCircularly (Scope.of settings r) I → e.SparesPowers (Scope.of settings r) I → ∀ p, I p →
      ∃ t, ((evaluateToken (Scope.of settings r) e.tokens).runFrom p).1 = .ok t ∧ (t.isError → t.isCircular)) ∧
    ∀ (wb : Workbook) (S : Set Location) (v : Valuation) (l : Location), wb.Coherent S v → l ∈ S →
      wb.formula? l = some e.tokens →
      e.FailsCircularly (Scope.of wb.settings (wb.resolverIn v l.sheet)) (fun _ => True) →
      e.SparesPowers (Scope.of wb.settings (wb.resolverIn v l.sheet)) (fun _ => True) →
      EndsInFailure wb.settings (wb.resolverIn v l.sheet) e.tokens [] →
      ∀ wb' stats, calculate.runOn wb = (.ok stats, wb') →
      ∃ rs, wb.results = .ok rs ∧ stats.circular = rs.countP (·.circular) ∧
        ∃ x ∈ rs, x.location = l ∧ x.circular = true := by
  have hmarked : ∀ {σ : Type} {settings : Settings} {r : Resolver σ} {I : σ → Prop},
      e.FailsCircularly (Scope.of settings r) I → e.SparesPowers (Scope.of settings r) I → ∀ {p}, I p →
      ∃ t, ((evaluateToken (Scope.of settings r) e.tokens).runFrom p).1 = .ok t ∧ (t.isError → t.isCircular) := by
    intro σ settings r I hfails hpowers p hp
    have hmeets := (e.evaluate_marked he hfails hpowers p hp).2
    rw [Expression.evaluateToken_tokens]
    cases hrun : ((e.evaluate (Scope.of settings r)).runFrom p).1 with
    | ok t =>
      rw [hrun] at hmeets
      exact ⟨t, rfl, hmeets⟩
    | error x =>
      rw [hrun] at hmeets
      exact hmeets.elim
  refine ⟨fun σ settings r I hfails hpowers p hp => hmarked hfails hpowers hp, ?_⟩
  intro wb S v l hcoherent hl hformula hfails hpowers hfail wb' stats hcalc
  have hvalue : v l = .error .circular := by
    rw [hcoherent.value l hl, valueIn, evaluateIn_of_formula hformula]
    refine hfail.evaluateFormula fun t ht herror => ?_
    obtain ⟨t', ht', h⟩ := hmarked hfails hpowers (p := []) trivial
    obtain rfl := Except.ok.inj (ht'.symm.trans ht)
    exact h herror
  obtain ⟨rs, hrs, -, rfl⟩ := calculate_eq_ok hcalc
  obtain ⟨x, hx, hlocation, s, hs, hresult⟩ :=
    exists_yields_of_mem (results_ok hrs) (mem_formulaLocations.2 (by rw [hformula]; rfl))
  rw [cellValue_coherent hcoherent hs hl] at hresult
  exact ⟨rs, hrs, rfl, x, hx, hlocation, (circular_of_cellResult hresult).2 hvalue⟩

/-- The square of the first cell. -/
def squareOfFirst : Expression :=
  .node (.operator .power) ![.operand (.cell none (.relative 0 0)) rfl, .operand (.integer 2) rfl]

/-- A cell that squares itself. -/
def squaredCycle : Workbook where
  sheets := [{
    name := "Sheet1"
    cells := .ofList [(⟨0, 0⟩, .formula squareOfFirst.tokens)] Position.order }]

/-- Evaluation with the values that the cells have because of the cycle. -/
noncomputable def squaredCycleScope : Scope (List Location) :=
  Scope.of {} (squaredCycle.resolverIn squaredCycle.cycleValue 0)

/-- The power is stopped by the circular reference. -/
theorem runFrom_squaredCycle (p : List Location) :
    (applyOperator squaredCycleScope .power [.cell none (.relative 0 0), .integer 2]).runFrom p =
      (.error .circular, ⟨0, ⟨0, 0⟩⟩ :: p) := by
  have hself : squaredCycle.Refers ⟨0, ⟨0, 0⟩⟩ ⟨0, ⟨0, 0⟩⟩ := by decide
  have hvalue : squaredCycle.cycleValue ⟨0, ⟨0, 0⟩⟩ = .error .circular :=
    cycleValue_of_reachesCycle ⟨_, .refl, .single hself⟩
  have hcell : ((squaredCycle.resolverIn squaredCycle.cycleValue 0).cell none (.relative 0 0)).runFrom p =
      (.error .circular, ⟨0, ⟨0, 0⟩⟩ :: p) :=
    (resolverIn_cell 0 none (.relative 0 0) p).trans (congrArg (·, _) hvalue)
  refine runFrom_applyOperator_of_error rfl rfl rfl rfl ?_
  show (Value.ofScalar <$> (squaredCycle.resolverIn squaredCycle.cycleValue 0).cell none (.relative 0 0)).runFrom p = _
  rw [← bind_pure_comp, Eval.runFrom_bind, hcell]

private theorem failsCircularly_squareOfFirst : squareOfFirst.FailsCircularly squaredCycleScope fun _ => True := by
  refine ⟨Fin.forall_fin_two.2 ⟨nofun, nofun⟩, fun (ts : Fin 2 → Token) hts => ?_⟩
  obtain ⟨h0, h1⟩ := Fin.forall_fin_two.1 hts
  show (applyOperator squaredCycleScope .power [ts 0, ts 1]).Meets _ _ _
  rw [h0.1.eq_of_pure, h1.1.eq_of_pure]
  intro p _
  rw [runFrom_squaredCycle]
  exact ⟨trivial, rfl⟩

private theorem sparesPowers_squareOfFirst : squareOfFirst.SparesPowers squaredCycleScope fun _ => True := by
  refine ⟨Fin.forall_fin_two.2 ⟨trivial, trivial⟩, fun _ => Fin.forall_fin_two.2 ⟨fun t ht => ?_, fun t ht => ?_⟩⟩
  · rw [ht.eq_of_pure]
    rfl
  · rw [ht.eq_of_pure]
    rfl

private theorem endsInFailure_squareOfFirst :
    EndsInFailure {} (squaredCycle.resolverIn squaredCycle.cycleValue 0) squareOfFirst.tokens [] := by
  refine ⟨.ofFault .circular, [⟨0, ⟨0, 0⟩⟩], ?_, .inl rfl⟩
  show (evaluateToken squaredCycleScope [.cell none (.relative 0 0), .integer 2, .operator .power]).runFrom [] = _
  rw [evaluateToken_binaryOperator rfl rfl rfl, ← applyOperator_binary rfl, Eval.runFrom_trap, runFrom_squaredCycle]
  rfl

/-- The result of the power is marked, and the cell is counted. -/
theorem circular_squaredCycle :
    squareOfFirst.IsOfValues ∧
    (∃ t, ((evaluateToken squaredCycleScope squareOfFirst.tokens).runFrom []).1 = .ok t ∧
      (t.isError → t.isCircular)) ∧
    ∃ wb' stats, calculate.runOn squaredCycle = (.ok stats, wb') ∧ 0 < stats.circular := by
  have he : squareOfFirst.IsOfValues := ⟨rfl, Fin.forall_fin_two.2 ⟨rfl, rfl⟩⟩
  have hcoherent := coherent_cycleValue (show squaredCycle.IsOneStep by decide)
  obtain ⟨rs, hrs⟩ := exists_results_of_coherent hcoherent fun l hl =>
    ⟨Set.mem_univ l, cycleValue_ok_or_circular (by decide) (isSome_sheet?_of_formula? hl)⟩
  have hcalc := runOn_calculate_of_ok hrs
  obtain ⟨hmarked, hcounted⟩ := circular_of_operators he
  obtain ⟨rs', -, hstats, x, hx, -, hcircular⟩ := hcounted squaredCycle _ _ ⟨0, ⟨0, 0⟩⟩ hcoherent (Set.mem_univ _)
    rfl failsCircularly_squareOfFirst sparesPowers_squareOfFirst endsInFailure_squareOfFirst _ _ hcalc
  refine ⟨he, ?_, _, _, hcalc, ?_⟩
  · exact hmarked _ _ _ _ failsCircularly_squareOfFirst sparesPowers_squareOfFirst [] trivial
  · rw [hstats]
    exact List.countP_pos_iff.2 ⟨x, hx, hcircular⟩

/-- A resolver for which every cell depends on itself. -/
def circularCells : Resolver Unit :=
  { Resolver.blank with cell := fun _ _ => throw .circular }

/-- The first cell plus zero. -/
def sumOfFirst : Expression :=
  .node (.operator .add) ![.operand (.cell none (.relative 0 0)) rfl, .operand (.integer 0) rfl]

/-- The square of the first cell plus zero. -/
def squareOfSum : Expression :=
  .node (.operator .power) ![sumOfFirst, .operand (.integer 2) rfl]

/-- A cell that squares the sum of itself and zero. -/
def summedCycle : Workbook where
  sheets := [{
    name := "Sheet1"
    cells := .ofList [(⟨0, 0⟩, .formula squareOfSum.tokens)] Position.order }]

private theorem failsCircularly_sumOfFirst : sumOfFirst.FailsCircularly (Scope.of {} circularCells) fun _ => True := by
  refine ⟨Fin.forall_fin_two.2 ⟨nofun, nofun⟩, fun (ts : Fin 2 → Token) hts => ?_⟩
  obtain ⟨h0, h1⟩ := Fin.forall_fin_two.1 hts
  show (applyOperator (Scope.of {} circularCells) .add [ts 0, ts 1]).Meets _ _ _
  rw [h0.1.eq_of_pure, h1.1.eq_of_pure]
  exact fun p _ => ⟨trivial, rfl⟩

private theorem failsCircularly_squareOfSum :
    squareOfSum.FailsCircularly (Scope.of {} circularCells) fun _ => True := by
  refine ⟨Fin.forall_fin_two.2 ⟨failsCircularly_sumOfFirst, nofun⟩, fun (ts : Fin 2 → Token) hts => ?_⟩
  -- The sum is always an error.
  obtain ⟨⟨⟨p, -, hsum⟩, herror⟩, -⟩ := Fin.forall_fin_two.1 hts
  have hts0 : ts 0 = .error .value true := (Except.ok.inj hsum).symm
  rw [hts0] at herror
  cases herror

/-- Nothing but the circular reference fails, and the error of the sum is marked.  The power makes an error without a mark
of it, and a recalculation counts no circular cell. -/
theorem circular_summedCycle :
    squareOfSum.IsOfValues ∧ squareOfSum.FailsCircularly (Scope.of {} circularCells) (fun _ => True) ∧
    ((evaluateToken (Scope.of {} circularCells) sumOfFirst.tokens).runFrom ()).1 = .ok (.error .value true) ∧
    ((evaluateToken (Scope.of {} circularCells) squareOfSum.tokens).runFrom ()).1 = .ok (.error .value false) ∧
    summedCycle.formula? ⟨0, ⟨0, 0⟩⟩ = some squareOfSum.tokens ∧
    (calculate.runOn summedCycle).1 = .ok { formulas := 1, calculated := 1, errors := 1, circular := 0 } := by
  refine ⟨?_, failsCircularly_squareOfSum, rfl, rfl, rfl, ?_⟩
  · exact ⟨rfl, Fin.forall_fin_two.2 ⟨⟨rfl, Fin.forall_fin_two.2 ⟨rfl, rfl⟩⟩, rfl⟩⟩
  · rfl

end Workbook

end Spreadsheet
