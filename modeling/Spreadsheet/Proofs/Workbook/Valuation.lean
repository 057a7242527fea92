import Mathlib.Logic.Relation
import Spreadsheet.Proofs.Evaluation.OneStep
import Spreadsheet.Proofs.Workbook.LookUp

/-!
# Plain evaluation

The value of a cell when the values of all other cells are given: no cache, no limit, and no cell is evaluated inside
another one.  `valueIn` is the value and `asks` lists the cells that the formula asks for on the way; both depend on the
given values of just these cells (`valueIn_congr`).
-/

namespace Spreadsheet

/-- An outcome for every cell. -/
abbrev Valuation := Location → Except FormulaError Scalar

namespace Workbook

/-- The outcome of a cell as `v` has it; the state lists the cells asked for, the last one first. -/
def consult (v : Valuation) (l : Location) : Eval (List Location) Scalar := do
  modify (l :: ·)
  Eval.ofExcept (v l)

/-- Answers from a workbook with the values of `v`, for a formula on a sheet. -/
def resolverIn (wb : Workbook) (v : Valuation) (sheet : Nat) : Resolver (List Location) :=
  wb.resolverOn (pure sheet) (consult v)

/-- Evaluate a cell with the values of `v` for all cells that its formula asks for. -/
def evaluateIn (wb : Workbook) (v : Valuation) : Location → Eval (List Location) Scalar :=
  wb.lookUpWith fun l tokens => evaluateFormula wb.settings (wb.resolverIn v l.sheet) tokens

/-- The value of a cell with the values of `v` for all others. -/
def valueIn (wb : Workbook) (v : Valuation) (l : Location) : Except FormulaError Scalar :=
  ((wb.evaluateIn v l).runFrom []).1

/-- The cells that the formula of a cell asks for when they have the values of `v`. -/
def asks (wb : Workbook) (v : Valuation) (l : Location) : List Location :=
  ((wb.evaluateIn v l).runFrom []).2

variable {wb : Workbook} {v w : Valuation}

theorem runFrom_consult (l : Location) (log : List Location) : (consult v l).runFrom log = (v l, l :: log) := by
  unfold consult
  rw [Eval.runFrom_modify_bind, Eval.runFrom_ofExcept]

theorem valueIn_of_stored {l : Location} (h : wb.formula? l = none) : wb.valueIn v l = wb.stored l := by
  unfold valueIn evaluateIn
  rw [lookUpWith_of_stored h, Eval.runFrom_ofExcept]

theorem asks_of_stored {l : Location} (h : wb.formula? l = none) : wb.asks v l = [] := by
  unfold asks evaluateIn
  rw [lookUpWith_of_stored h, Eval.runFrom_ofExcept]

theorem evaluateIn_of_formula {l : Location} {tokens : List Token} (h : wb.formula? l = some tokens) :
    wb.evaluateIn v l = evaluateFormula wb.settings (wb.resolverIn v l.sheet) tokens := by
  unfold evaluateIn
  rw [lookUpWith_of_formula h]

theorem resolverIn_cell (i : Nat) (sheet : Option String) (a : CellAddress) (log : List Location) :
    ((wb.resolverIn v i).answer (.cell sheet a)).runFrom log =
      match wb.findSheet i sheet with
      | .ok j => (v ⟨j, a.position⟩, ⟨j, a.position⟩ :: log)
      | .error e => (.error e, log) := by
  unfold resolverIn
  rw [resolverOn_cell (Eval.runFrom_pure i log)]
  cases wb.findSheet i sheet with
  | ok j => exact runFrom_consult _ log
  | error e => rfl

theorem resolverIn_name (i id : Nat) (log : List Location) :
    ((wb.resolverIn v i).answer (.name id)).runFrom log = (wb.nameTokens id, log) :=
  resolverOn_name id

theorem resolverIn_shared (i : Nat) (anchor : CellAddress) (log : List Location) :
    ((wb.resolverIn v i).answer (.shared anchor)).runFrom log = (wb.sharedTokens i anchor, log) := by
  unfold resolverIn
  rw [resolverOn_shared (Eval.runFrom_pure i log)]

/-- An answer lengthens the list of cells asked for by at most the cell that it is about. -/
theorem resolverIn_log (i : Nat) (q : Question) (log : List Location) :
    log ⊆ (((wb.resolverIn v i).answer q).runFrom log).2 := by
  cases q with
  | cell sheet a =>
    rw [resolverIn_cell]
    cases wb.findSheet i sheet with
    | error e => exact List.Subset.refl _
    | ok j => exact List.subset_cons_self ..
  | name id => rw [resolverIn_name]; exact List.Subset.refl _
  | shared anchor => rw [resolverIn_shared]; exact List.Subset.refl _

/-- What a formula asks for and what it gives depend only on the values of the cells that it asks for. -/
theorem evaluateIn_congr {l : Location} (h : ∀ d ∈ wb.asks v l, w d = v d) :
    (wb.evaluateIn w l).runFrom [] = (wb.evaluateIn v l).runFrom [] := by
  cases hl : wb.formula? l with
  | none =>
    unfold evaluateIn
    rw [lookUpWith_of_stored hl, lookUpWith_of_stored hl]
  | some tokens =>
    unfold asks at h
    rw [evaluateIn_of_formula hl] at h ⊢
    rw [evaluateIn_of_formula hl]
    have key := (evaluateFormula_isDialogue wb.settings tokens).run_related (r := wb.resolverIn w l.sheet)
      (m := wb.resolverIn v l.sheet) (R := Eq) (E := fun _ => False) (B := fun log => ∀ d ∈ log, w d = v d)
      (fun q log hB d hd => hB d (resolverIn_log _ q log hd)) ?_ (fun _ _ hE => hE) rfl h
    · rcases key with ⟨e, e'⟩ | hE
      · exact Prod.ext e e'
      · exact hE.elim
    · rintro q log _ rfl hB
      left
      cases q with
      | cell sheet a =>
        rw [resolverIn_cell] at hB ⊢
        rw [resolverIn_cell]
        cases hi : wb.findSheet l.sheet sheet with
        | error e => exact ⟨rfl, rfl⟩
        | ok i =>
          rw [hi] at hB
          exact ⟨hB _ (List.mem_cons_self ..), rfl⟩
      | name id => rw [resolverIn_name, resolverIn_name]; exact ⟨rfl, rfl⟩
      | shared anchor => rw [resolverIn_shared, resolverIn_shared]; exact ⟨rfl, rfl⟩

theorem valueIn_congr {l : Location} (h : ∀ d ∈ wb.asks v l, w d = v d) : wb.valueIn w l = wb.valueIn v l :=
  congrArg Prod.fst (evaluateIn_congr h)

theorem asks_congr {l : Location} (h : ∀ d ∈ wb.asks v l, w d = v d) : wb.asks w l = wb.asks v l :=
  congrArg Prod.snd (evaluateIn_congr h)

/-! ### References alone -/

theorem evaluateFormula_reference {σ : Type} (settings : Settings) (r : Resolver σ) (sheet : Option String)
    (a : CellAddress) : evaluateFormula settings r [.cell sheet a] = r.cell sheet a := by
  have hv : (Token.cell sheet a).value (Scope.of settings r) = Value.ofScalar <$> r.cell sheet a := by
    rw [Token.value, (scopeOf_isDialogue settings).resolver_eq]
  have hid : ∀ x : Scalar, (Value.ofScalar x).corner.toScalar = x := fun x => by cases x <;> rfl
  refine Eval.ext_runFrom fun s => ?_
  unfold evaluateFormula
  dsimp only
  rw [evaluateToken_reference, Eval.runFrom_observe_bind, Eval.runFrom_pure]
  show (Token.value _ _ >>= fun y => pure y.corner.toScalar).runFrom s = _
  rw [hv, bind_pure_comp, Functor.map_map]
  simp only [hid, id_map']

private theorem evaluateIn_of_reference {l : Location} {a : CellAddress} (h : wb.formula? l = some [.cell none a]) :
    wb.evaluateIn v l = consult v ⟨l.sheet, a.position⟩ := by
  rw [evaluateIn_of_formula h, evaluateFormula_reference]
  rfl

/-- A formula that is a reference asks for the cell that it refers to. -/
theorem asks_of_reference {l : Location} {a : CellAddress} (h : wb.formula? l = some [.cell none a]) :
    wb.asks v l = [⟨l.sheet, a.position⟩] := by
  rw [asks, evaluateIn_of_reference h, runFrom_consult]

/-- A formula that is a reference has the value of the cell that it refers to. -/
theorem valueIn_of_reference {l : Location} {a : CellAddress} (h : wb.formula? l = some [.cell none a]) :
    wb.valueIn v l = v ⟨l.sheet, a.position⟩ := by
  rw [valueIn, evaluateIn_of_reference h, runFrom_consult]

end Workbook

end Spreadsheet
