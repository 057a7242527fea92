import Spreadsheet.Proofs.Evaluation.Verdict
import Spreadsheet.Proofs.Workbook.Moments
import Spreadsheet.Proofs.Workbook.Replacement
import Spreadsheet.Proofs.Workbook.SessionContracts

/-!
# Formulas inside and outside of cells

A formula can be evaluated on a sheet, or be stored in a blank cell of the sheet and evaluated there.  In a ranked set of
cells both give the same, if the formula does not reach the cell (`evaluateCell_setFormula`): the cell shows the top-left
entry of the value, and `#VALUE!` for a formula that cannot be run.  They are evaluated in different ways, as the cells
that the formula asks for are one level further down when a cell is around it, and chains are cut elsewhere.  But both
find the ideal values of these cells, and so both follow the run in which these values are given.

The two differ where a run leaves an error value that is marked as circular.  The value of the formula has the code of
that error value, and the cell is circular and shows `#VALUE!`, whatever the code is (`evaluateCell_ne_marked`).
-/

namespace Spreadsheet

open Relation

/-! ### The cell around a formula -/

section Around

variable {σ : Type} (settings : Settings) (r : Resolver σ) {tokens : List Token} {s : σ}

/-- What is asked for does not depend on what is made of the operand that is left. -/
theorem evaluateFormula_snd (tokens : List Token) (s : σ) :
    ((evaluateFormula settings r tokens).runFrom s).2 =
      ((evaluateValue (Scope.of settings r) tokens).runFrom s).2 := by
  rw [evaluateFormula_runFrom]
  rcases hrun : (evaluateToken (Scope.of settings r) tokens).runFrom s with ⟨e | t, u⟩
  · rw [evaluateValue_of_error hrun]
  · rw [evaluateValue_of_ok hrun]
    dsimp only
    cases hmark : t.isCircular with
    | true =>
      -- The value of an error value is known without asking.
      cases t <;> simp [Token.isCircular] at hmark
      rfl
    | false =>
      simp only [Bool.false_eq_true, if_false]
      rw [← bind_pure_comp, Eval.runFrom_bind]
      rcases (t.value (Scope.of settings r)).runFrom u with ⟨e | v, w⟩
      · dsimp only
        cases e.fault? <;> rfl
      · rfl

/-- A formula that cannot be run is an error value in a cell. -/
theorem shownInCell_evaluateFormula_of_error {e : FormulaError}
    (h : ((evaluateToken (Scope.of settings r) tokens).runFrom s).1 = .error e) :
    Workbook.shownInCell ((evaluateFormula settings r tokens).runFrom s).1 = .ok (.error .value) := by
  rw [evaluateFormula_runFrom, h]
  rfl

/-- A cell shows the top-left entry of a value, also when the value is that of a failure. -/
theorem shownInCell_evaluateFormula_of_ok {t : Token}
    (h : ((evaluateToken (Scope.of settings r) tokens).runFrom s).1 = .ok t) :
    Workbook.shownInCell ((evaluateFormula settings r tokens).runFrom s).1 =
      if t.isCircular then .ok (.error .value) else
        ((evaluateValue (Scope.of settings r) tokens).runFrom s).1.map fun v => v.corner.toScalar := by
  rw [evaluateFormula_runFrom, h]
  dsimp only
  split
  · rfl
  · rw [evaluateValue_of_ok (q := ((evaluateToken (Scope.of settings r) tokens).runFrom s).2) (Prod.ext h rfl),
      ← bind_pure_comp, Eval.runFrom_bind]
    rcases (t.value (Scope.of settings r)).runFrom _ with ⟨e | v, u⟩
    · unfold Workbook.shownInCell
      dsimp only
      cases e.fault? <;> rfl
    · rfl

end Around

namespace Workbook

variable {wb wb' : Workbook} {D : Set Location} {rank : Location → Nat}

/-! ### Ideal values in a session -/

/-- A session for a sheet is on this sheet between its questions. -/
theorem Reached.currentSheet_eq {sheet : Nat} {s : Session} (hs : wb.Reached sheet s) : s.currentSheet = sheet := by
  induction hs with
  | new => rfl
  | value l hs ih =>
    obtain ⟨-, -, hsheet⟩ := wb.settle_path wb.attempts l [] _ hs.idle fun c hc => absurd hc List.not_mem_nil
    exact hsheet.trans ih
  | question q hs ih => exact (wb.resolver_idle q hs.idle).2.trans ih

/-- If all cells that are asked for have their ideal values, then a session gives the same outcome as plain
evaluation. -/
theorem runFrom_resolver_eq {α : Type} {F : ∀ σ : Type, Resolver σ → Eval σ α} (hF : IsDialogue F) {v : Valuation}
    {sheet : Nat} {s : Session} (hs : wb.Reached sheet s)
    (h : ∀ d ∈ ((F _ (wb.resolverIn v sheet)).runFrom []).2, wb.Ideal d (v d)) :
    ((F _ wb.resolver).runFrom s).1 = ((F _ (wb.resolverIn v sheet)).runFrom []).1 := by
  have key := hF.run_related (r := wb.resolver) (m := wb.resolverIn v sheet) (R := fun s _ => wb.Reached sheet s)
    (E := fun _ => False) (B := fun log => ∀ d ∈ log, wb.Ideal d (v d))
    (fun q log hB d hd => hB d (resolverIn_log _ q log hd)) ?_ (fun _ _ hE => hE) hs h
  · rcases key with ⟨e, -⟩ | hE
    · exact e
    · exact hE.elim
  · intro q s log hs hB
    refine .inl ⟨?_, .question q hs⟩
    have hsheet := hs.currentSheet_eq
    cases q with
    | cell name a =>
      rw [resolverIn_cell] at hB ⊢
      show (((wb.resolverWith _).answer _).runFrom s).1 = _
      rw [resolverWith_cell, hsheet]
      cases hi : wb.findSheet sheet name with
      | error e => rfl
      | ok i =>
        rw [hi] at hB
        exact (hB _ (List.mem_cons_self ..)).cellValue_eq hs
    | name id =>
      show (((wb.resolverWith _).answer _).runFrom s).1 = _
      rw [resolverWith_name, resolverIn_name]
    | shared anchor =>
      show (((wb.resolverWith _).answer _).runFrom s).1 = _
      rw [resolverWith_shared, resolverIn_shared, hsheet]

/-! ### Formulas on a sheet -/

variable (wb) in
/-- The cells that a formula on a sheet asks for when they have the values of `v`. -/
def asksFor (v : Valuation) (sheet : Nat) (tokens : List Token) : List Location :=
  ((evaluateValue (Scope.of wb.settings (wb.resolverIn v sheet)) tokens).runFrom []).2

variable (wb) in
/-- A formula on a sheet asks for a cell, or for one that depends on it. -/
def Reaches (sheet : Nat) (tokens : List Token) (c : Location) : Prop :=
  ∃ d ∈ wb.asksFor wb.idealValue sheet tokens, ReflTransGen (wb.Asks wb.idealValue) d c

/-- Running the formula asks for some of these cells. -/
theorem subset_asksFor (v : Valuation) (sheet : Nat) (tokens : List Token) :
    ((evaluateToken (Scope.of wb.settings (wb.resolverIn v sheet)) tokens).runFrom []).2 ⊆
      wb.asksFor v sheet tokens := by
  unfold asksFor
  rcases hrun : (evaluateToken (Scope.of wb.settings (wb.resolverIn v sheet)) tokens).runFrom [] with ⟨e | t, log⟩
  · rw [evaluateValue_of_error hrun]
    exact List.Subset.refl _
  · have hvalue : log ⊆ ((t.value (Scope.of wb.settings (wb.resolverIn v sheet))).runFrom log).2 :=
      (t.value_isDialogue (scopeOf_isDialogue wb.settings)).run_invariant (r := wb.resolverIn v sheet)
        (P := fun log log' => log ⊆ log') (fun _ => List.Subset.refl _) List.Subset.trans (resolverIn_log sheet) log
    rw [evaluateValue_of_ok hrun]
    rcases hv : (t.value (Scope.of wb.settings (wb.resolverIn v sheet))).runFrom log with ⟨e | x, log'⟩
    · rw [hv] at hvalue
      dsimp only
      cases e.fault? <;> exact hvalue
    · rw [hv] at hvalue
      exact hvalue

/-- What a cell depends on in a ranked set is not ranked higher. -/
theorem Ranked.rank_le (hD : wb.Ranked D rank) {l c : Location} (hl : l ∈ D)
    (h : ReflTransGen (wb.Asks wb.idealValue) l c) : c ∈ D ∧ rank c ≤ rank l := by
  induction h with
  | refl => exact ⟨hl, le_rfl⟩
  | tail _ hcd ih =>
    obtain ⟨hc, hle⟩ := ih
    obtain ⟨hd, hlt⟩ := hD _ hc wb.idealValue (fun d hd _ => hD.exists_ideal hd) _ hcd
    exact ⟨hd, by omega⟩

/-- A formula that asks for ranked cells only has the outcomes of plain evaluation. -/
theorem runFrom_scope_eq (hD : wb.Ranked D rank) {sheet : Nat} {tokens : List Token}
    (hasks : ∀ d ∈ wb.asksFor wb.idealValue sheet tokens, d ∈ D) :
    ((evaluateToken wb.scope tokens).runFrom (Session.new sheet)).1 =
        ((evaluateToken (Scope.of wb.settings (wb.resolverIn wb.idealValue sheet)) tokens).runFrom []).1 ∧
      ((evaluateValue wb.scope tokens).runFrom (Session.new sheet)).1 =
        ((evaluateValue (Scope.of wb.settings (wb.resolverIn wb.idealValue sheet)) tokens).runFrom []).1 := by
  constructor
  · exact runFrom_resolver_eq (evaluateToken_isDialogue wb.settings tokens) .new fun d hd =>
      hD.exists_ideal (hasks d (subset_asksFor _ _ _ hd))
  · exact runFrom_resolver_eq (evaluateValue_isDialogue wb.settings tokens) .new fun d hd =>
      hD.exists_ideal (hasks d hd)

/-- Where no cell has a formula, the cells have the values that are stored. -/
theorem evaluate_of_stored (hwb : wb.formulaLocations = []) {sheet : Nat} (hsheet : sheet < wb.sheetCount)
    (tokens : List Token) : wb.evaluate sheet tokens =
      ((evaluateValue (Scope.of wb.settings (wb.resolverIn wb.stored sheet)) tokens).runFrom []).1.mapError .formula := by
  have hstored : ∀ l, wb.Ideal l (wb.stored l) := by
    intro l
    refine .of_stored ?_
    have hl : ¬ (wb.formula? l).isSome := by
      rw [← mem_formulaLocations, hwb]
      exact List.not_mem_nil
    simpa using hl
  have hrun : runSession sheet (evaluateValue wb.scope tokens) =
      ((evaluateValue (Scope.of wb.settings (wb.resolverIn wb.stored sheet)) tokens).runFrom []).1 :=
    runFrom_resolver_eq (evaluateValue_isDialogue wb.settings tokens) .new fun d _ => hstored d
  rw [evaluate, checkSheet, if_pos hsheet]
  show (runSession sheet (evaluateValue wb.scope tokens)).mapError _ = _
  rw [hrun]

/-! ### Formulas in a cell -/

/-- A blank cell in which a formula was stored that does not reach it has the value of plain evaluation. -/
theorem ideal_setFormula (hD : wb.Ranked D rank) {c : Location} {tokens : List Token}
    (hblank : wb.content? c = none)
    (hset : (editSheet c.sheet (Sheet.setFormula c.position tokens)).runOn wb = (.ok (), wb'))
    (hasks : ∀ d ∈ wb.asksFor wb.idealValue c.sheet tokens, d ∈ D) (hreach : ¬ wb.Reaches c.sheet tokens c) :
    wb'.Ideal c ((evaluateFormula wb.settings (wb.resolverIn wb.idealValue c.sheet) tokens).runFrom []).1 := by
  have hput := putAt_of_setFormula hset
  have hdiffers := differsAt_of_blank hput hblank
  have hformula : wb'.formula? c = some tokens := hput.formula?_self
  have hevaluate : wb'.evaluateIn wb.idealValue c =
      evaluateFormula wb.settings (wb.resolverIn wb.idealValue c.sheet) tokens := by
    rw [evaluateIn_of_formula hformula, hput.settings]
    unfold resolverIn
    rw [hdiffers.resolverOn]
  have hasked : ∀ d ∈ wb'.asks wb.idealValue c, d ∈ wb.asksFor wb.idealValue c.sheet tokens := by
    intro d hd
    rw [asks, hevaluate, evaluateFormula_snd] at hd
    exact hd
  rw [← hevaluate]
  refine .intro wb.idealValue c fun d hd => ?_
  have hideal : wb.Ideal d (wb.idealValue d) := hD.exists_ideal (hasks d (hasked d hd))
  exact hdiffers.ideal_of_not_reaches hideal fun hdc => hreach ⟨d, hasked d hd, hdc⟩

/-- A formula that is stored in a blank cell, which it does not reach, shows the top-left entry of the value that it has
outside of the cell; only an error value that is marked as circular is `#VALUE!` whatever its code is.  And if the formula
cannot be run outside of the cell, then the cell is `#VALUE!`. -/
theorem evaluateCell_setFormula (hD : wb.Ranked D rank) {c : Location} {tokens : List Token}
    (hblank : wb.content? c = none)
    (hset : (editSheet c.sheet (Sheet.setFormula c.position tokens)).runOn wb = (.ok (), wb'))
    (hasks : ∀ d ∈ wb.asksFor wb.idealValue c.sheet tokens, d ∈ D) (hreach : ¬ wb.Reaches c.sheet tokens c)
    {address : String} (ha : Sheet.readPosition address = .ok c.position) :
    (∀ v, wb.evaluate c.sheet tokens = .ok v → ∃ t, runSession c.sheet (evaluateToken wb.scope tokens) = .ok t ∧
      wb'.evaluateCell c.sheet address = .ok (if t.isCircular then .error .value else v.corner.toScalar)) ∧
    ∀ e, runSession c.sheet (evaluateToken wb.scope tokens) = .error e →
      wb.evaluate c.sheet tokens = .error (.formula e) ∧ wb'.evaluateCell c.sheet address = .ok (.error .value) := by
  have hput := putAt_of_setFormula hset
  have hsheet : c.sheet < wb.sheetCount := by
    obtain ⟨sheet, hs⟩ := Option.isSome_iff_exists.1 hput.isSome_sheet?_self
    exact (List.getElem?_eq_some_iff.1 hs).1
  obtain ⟨htoken, hvalue⟩ := runFrom_scope_eq hD hasks
  have hcell : wb'.evaluateCell c.sheet address = (shownInCell ((evaluateFormula wb.settings
      (wb.resolverIn wb.idealValue c.sheet) tokens).runFrom []).1).mapError .formula := by
    rw [evaluateCell_ideal (ideal_setFormula hD hblank hset hasks hreach) ha, checkSheet, hput.sheetCount, if_pos hsheet]
    rfl
  rw [hcell]
  refine ⟨fun v hv => ?_, fun e he => ?_⟩
  · have hplain := evaluate_eq_ok hv
    rw [hvalue] at hplain
    cases hrun : ((evaluateToken wb.scope tokens).runFrom (Session.new c.sheet)).1 with
    | error e =>
      rw [htoken] at hrun
      rw [evaluateValue_of_error (q := _) (Prod.ext hrun rfl)] at hplain
      cases hplain
    | ok t =>
      refine ⟨t, hrun, ?_⟩
      rw [htoken] at hrun
      rw [shownInCell_evaluateFormula_of_ok _ _ hrun, hplain]
      split <;> rfl
  · have hrun : ((evaluateToken wb.scope tokens).runFrom (Session.new c.sheet)).1 = .error e := he
    refine ⟨?_, ?_⟩
    · have herror : runSession c.sheet (evaluateValue wb.scope tokens) = .error e :=
        congrArg Prod.fst (evaluateValue_of_error (q := _) (Prod.ext hrun rfl))
      unfold evaluate checkSheet
      rw [if_pos hsheet]
      show (runSession c.sheet (evaluateValue wb.scope tokens)).mapError _ = _
      rw [herror]
      rfl
    · rw [htoken] at hrun
      rw [shownInCell_evaluateFormula_of_error _ _ hrun]
      rfl

/-- The formula `=B1` in the cell beside the relay. -/
theorem evaluateCell_besideRelay :
    ∃ wb', (editSheet 0 (Sheet.setFormula ⟨0, 3⟩ [.cell none (.relative 0 1)])).runOn relay = (.ok (), wb') ∧
      relay.evaluate 0 [.cell none (.relative 0 1)] = .ok (.error .na) ∧
      wb'.evaluateCell 0 "D1" = .ok (.error .na) := by
  have hasksFor : relay.asksFor relay.idealValue 0 [.cell none (.relative 0 1)] = [⟨0, ⟨0, 1⟩⟩] := by
    rw [asksFor, ← evaluateFormula_snd, evaluateFormula_reference]
    exact congrArg Prod.snd (resolverIn_cell 0 none (.relative 0 1) [])
  have hreach : ¬ relay.Reaches 0 [.cell none (.relative 0 1)] ⟨0, ⟨0, 3⟩⟩ := by
    rintro ⟨d, hd, hdc⟩
    rw [hasksFor] at hd
    obtain rfl := List.mem_singleton.1 hd
    exact absurd (ranked_relay.rank_le (Set.mem_univ _) hdc).2 (by decide)
  have hvalue : relay.evaluate 0 [.cell none (.relative 0 1)] = .ok (.error .na) := rfl
  have hrun : runSession 0 (evaluateToken relay.scope [.cell none (.relative 0 1)]) =
      .ok (.cell none (.relative 0 1)) := by rfl
  obtain ⟨wb', hset⟩ : ∃ wb', (editSheet 0 (Sheet.setFormula ⟨0, 3⟩ [.cell none (.relative 0 1)])).runOn relay =
      (.ok (), wb') := ⟨_, rfl⟩
  obtain ⟨hok, -⟩ := evaluateCell_setFormula ranked_relay (c := ⟨0, ⟨0, 3⟩⟩) (by decide) hset
    (fun d _ => Set.mem_univ d) hreach (show Sheet.readPosition "D1" = .ok ⟨0, 3⟩ by decide)
  obtain ⟨t, ht, hcell⟩ := hok _ hvalue
  obtain rfl := Except.ok.inj (ht.symm.trans hrun)
  exact ⟨wb', hset, hvalue, hcell⟩

/-- An error value that is marked as circular, alone in a formula: it keeps its code outside of a cell and loses it
inside. -/
theorem evaluateCell_ne_marked :
    new.Ranked Set.univ (fun _ => 0) ∧ new.content? ⟨0, ⟨0, 0⟩⟩ = none ∧
      ¬ new.Reaches 0 [.error .na true] ⟨0, ⟨0, 0⟩⟩ ∧
      new.evaluate 0 [.error .na true] = .ok (.error .na) ∧
      ∃ wb', (editSheet 0 (Sheet.setFormula ⟨0, 0⟩ [.error .na true])).runOn new = (.ok (), wb') ∧
        wb'.evaluateCell 0 "A1" = .ok (.error .value) ∧
        wb'.evaluateCell 0 "A1" ≠ .ok (Value.error .na).corner.toScalar := by
  have hmarked : ∃ wb', (editSheet 0 (Sheet.setFormula ⟨0, 0⟩ [.error .na true])).runOn new = (.ok (), wb') ∧
      wb'.evaluateCell 0 "A1" = .ok (.error .value) := ⟨_, rfl, rfl⟩
  obtain ⟨wb', hset, hcell⟩ := hmarked
  refine ⟨?_, by decide, ?_, by rfl, wb', hset, hcell, by rw [hcell]; decide⟩
  · refine ranked_univ fun l hl => ?_
    rw [show new.formulaLocations = [] by decide] at hl
    cases hl
  · rintro ⟨d, hd, -⟩
    rw [show new.asksFor new.idealValue 0 [.error .na true] = [] from rfl] at hd
    cases hd

end Workbook

end Spreadsheet
