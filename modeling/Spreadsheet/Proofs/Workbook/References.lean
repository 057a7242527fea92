import Spreadsheet.Proofs.Evaluation.OneStep
import Spreadsheet.Proofs.Workbook.Valuation

/-!
# References of one-step formulas

In a workbook of one-step formulas the cells that a formula asks for can be read off its tokens (`references`).  Such a
formula traps no failure: it is circular just if one of the cells that it refers to is (`looksUp_references`).
`LooksUp` states this for any computation, and is closed under the operations that evaluation is made of.
-/

namespace Spreadsheet.Workbook

variable {wb : Workbook} {v : Valuation} {α β : Type}

/-! ### Computations that look up cells -/

/-- A computation that looks up the cells `ds`: it fails if one of them is circular, as circular too, and else it has an
outcome. -/
structure LooksUp (v : Valuation) (ds : List Location) (x : Eval (List Location) α) : Prop where
  asked : ∀ log, ∀ d ∈ (x.runFrom log).2, d ∈ ds ∨ d ∈ log
  circular : (∃ d ∈ ds, v d = .error .circular) → ∀ log, (x.runFrom log).1 = .error .circular
  ok : (∀ d ∈ ds, v d ≠ .error .circular) → ∀ log, ∃ y, (x.runFrom log).1 = .ok y

namespace LooksUp

theorem pure (y : α) : LooksUp v [] (Pure.pure y : Eval (List Location) α) where
  asked := fun _ _ hd => .inr hd
  circular := fun ⟨_, hd, _⟩ => absurd hd List.not_mem_nil
  ok := fun _ _ => ⟨y, rfl⟩

theorem consult {d : Location} (h : (∃ y, v d = .ok y) ∨ v d = .error .circular) :
    LooksUp v [d] (Workbook.consult v d) := by
  refine ⟨fun log d' hd' => ?_, fun ⟨d', hd', hc⟩ log => ?_, fun hn log => ?_⟩
  · rw [runFrom_consult] at hd'
    rcases List.mem_cons.1 hd' with rfl | hd'
    · exact .inl (List.mem_singleton.2 rfl)
    · exact .inr hd'
  · obtain rfl := List.mem_singleton.1 hd'
    rw [runFrom_consult]
    exact hc
  · rw [runFrom_consult]
    exact h.resolve_right (hn d (List.mem_singleton.2 rfl))

variable {ds ds' : List Location} {x : Eval (List Location) α}

/-- The only failure is the circular one. -/
theorem eq_circular (hx : LooksUp v ds x) {log log' : List Location} {e : FormulaError}
    (h : x.runFrom log = (.error e, log')) : e = .circular := by
  by_cases hds : ∃ d ∈ ds, v d = .error .circular
  · have hc := hx.circular hds log
    rw [h] at hc
    exact Except.error.inj hc
  · obtain ⟨y, hy⟩ := hx.ok (fun d hd hc => hds ⟨d, hd, hc⟩) log
    rw [h] at hy
    cases hy

theorem bind (hx : LooksUp v ds x) {f : α → Eval (List Location) β} (hf : ∀ y, LooksUp v ds' (f y)) :
    LooksUp v (ds ++ ds') (x >>= f) := by
  refine ⟨fun log => ?_, fun hc log => ?_, fun hn log => ?_⟩
  · have hlog := hx.asked log
    rw [Eval.runFrom_bind]
    rcases hr : x.runFrom log with ⟨e | y, log'⟩
    · rw [hr] at hlog
      intro d hd
      rw [List.mem_append, or_assoc]
      exact (hlog d hd).imp_right .inr
    · rw [hr] at hlog
      intro d hd
      rw [List.mem_append]
      rcases (hf y).asked log' d hd with hd | hd
      · exact .inl (.inr hd)
      · exact (hlog d hd).imp_left .inl
  · rw [Eval.runFrom_bind]
    rcases hr : x.runFrom log with ⟨e | y, log'⟩
    · exact congrArg _ (hx.eq_circular hr)
    · refine (hf y).circular ?_ log'
      obtain ⟨d, hd, hc⟩ := hc
      rcases List.mem_append.1 hd with hd | hd
      -- A circular cell of `ds` would have ended the first computation.
      · have e := hx.circular ⟨d, hd, hc⟩ log
        rw [hr] at e
        cases e
      · exact ⟨d, hd, hc⟩
  · rw [Eval.runFrom_bind]
    obtain ⟨y, e⟩ := hx.ok (fun d hd => hn d (List.mem_append_left _ hd)) log
    rcases hr : x.runFrom log with ⟨e' | y', log'⟩
    · rw [hr] at e
      cases e
    · exact (hf y').ok (fun d hd => hn d (List.mem_append_right _ hd)) log'

theorem map (hx : LooksUp v ds x) (f : α → β) : LooksUp v ds (f <$> x) := by
  have h := hx.bind fun y => LooksUp.pure (f y)
  rw [List.append_nil, bind_pure_comp] at h
  exact h

/-- A failure that becomes an operand of the formula fails again in the same way at its end. -/
theorem evaluateFormula {settings : Settings} {r : Resolver (List Location)} {tokens : List Token} {g : α → Token}
    (hx : LooksUp v ds x) (hcirc : ∀ y, (g y).isCircular = false)
    (hval : ∀ y, LooksUp v ds' ((g y).value (Scope.of settings r)))
    (h : evaluateToken (Scope.of settings r) tokens = (g <$> x).trap) :
    LooksUp v (ds ++ ds') (Spreadsheet.evaluateFormula settings r tokens) := by
  have key : Spreadsheet.evaluateFormula settings r tokens =
      x >>= fun y => (fun z => z.corner.toScalar) <$> (g y).value (Scope.of settings r) := by
    refine Eval.ext_runFrom fun log => ?_
    unfold Spreadsheet.evaluateFormula
    dsimp only
    rw [h, Eval.runFrom_observe_bind, Eval.runFrom_trap, Eval.runFrom_bind, ← bind_pure_comp, Eval.runFrom_bind]
    rcases hlog : x.runFrom log with ⟨e | y, log'⟩
    -- The only failure becomes a marked operand, and the mark makes it a failure again.
    · rw [hx.eq_circular hlog]
      rfl
    · simp only [Eval.runFrom_pure, Eval.trapped, hcirc]
      rfl
  rw [key]
  exact hx.bind fun y => (hval y).map _

end LooksUp

/-! ### References -/

/-- The cell that an operand of a formula on the sheet `i` refers to, if it is a reference to a single cell. -/
def cellOf (wb : Workbook) (i : Nat) : Token → List Location
  | .cell sheet a =>
    match wb.findSheet i sheet with
    | .ok j => [⟨j, a.position⟩]
    | .error _ => []
  | _ => []

/-- The single cells that the formula of a cell refers to. -/
def references (wb : Workbook) (l : Location) : List Location :=
  ((wb.formula? l).getD []).flatMap (wb.cellOf l.sheet)

/-- If the token names a sheet, then there is such a sheet. -/
def namesSheet (wb : Workbook) : Token → Bool
  | .cell (some name) _ => (wb.sheetIndex? name).isSome
  | _ => true

/-- Each formula is of one step, and the sheets that it names exist. -/
def IsOneStep (wb : Workbook) : Prop :=
  ∀ sheet ∈ wb.sheets, ∀ x ∈ sheet.formulas, isOneStep x.2 ∧ ∀ t ∈ x.2, wb.namesSheet t

instance : Decidable wb.IsOneStep :=
  inferInstanceAs (Decidable (∀ sheet ∈ wb.sheets, ∀ x ∈ sheet.formulas, isOneStep x.2 ∧ ∀ t ∈ x.2, wb.namesSheet t))

private theorem IsOneStep.of_formula? (h : wb.IsOneStep) {l : Location} {tokens : List Token}
    (hl : wb.formula? l = some tokens) : isOneStep tokens ∧ ∀ t ∈ tokens, wb.namesSheet t := by
  unfold formula? at hl
  obtain ⟨c, hc, hf⟩ := Option.bind_eq_some_iff.1 hl
  obtain ⟨sheet, hs, hp⟩ := Option.bind_eq_some_iff.1 hc
  refine h sheet (List.mem_of_getElem? hs) (l.position, tokens) (mem_formulas.2 ?_)
  rw [hp]
  exact hf

private theorem exists_findSheet {sheet : Option String} {a : CellAddress} (h : wb.namesSheet (.cell sheet a))
    (i : Nat) : ∃ j, wb.findSheet i sheet = .ok j := by
  cases sheet with
  | none => exact ⟨i, rfl⟩
  | some name =>
    obtain ⟨j, hj⟩ := Option.isSome_iff_exists.1 h
    refine ⟨j, ?_⟩
    unfold findSheet
    simp only [hj]

namespace LooksUp

theorem plain {settings : Settings} {i : Nat} {t : Token} (ht : t.isPlain) (hs : wb.namesSheet t)
    (hv : ∀ d ∈ wb.cellOf i t, (∃ y, v d = .ok y) ∨ v d = .error .circular) :
    LooksUp v (wb.cellOf i t) (t.value (Scope.of settings (wb.resolverIn v i))) := by
  cases t with
  | number x => exact .pure _
  | integer n => exact .pure _
  | cell sheet a =>
    obtain ⟨j, hj⟩ := exists_findSheet hs i
    have hcell : wb.cellOf i (.cell sheet a) = [⟨j, a.position⟩] := by
      unfold cellOf
      simp only [hj]
    have hr : (Token.cell sheet a).value (Scope.of settings (wb.resolverIn v i)) =
        Value.ofScalar <$> Workbook.consult v ⟨j, a.position⟩ := by
      rw [Token.value, (scopeOf_isDialogue settings).resolver_eq]
      show Value.ofScalar <$> (Eval.ofExcept (wb.findSheet i sheet) >>= fun k => Workbook.consult v ⟨k, a.position⟩) = _
      rw [hj]
      rfl
    rw [hcell] at hv ⊢
    rw [hr]
    exact (LooksUp.consult (hv _ (List.mem_singleton.2 rfl))).map _
  | _ => cases ht

end LooksUp

/-- A formula of one step looks up the cells that it refers to. -/
theorem looksUp_references (h : wb.IsOneStep) {l : Location} (hl : (wb.formula? l).isSome)
    (hv : ∀ d ∈ wb.references l, (∃ y, v d = .ok y) ∨ v d = .error .circular) :
    LooksUp v (wb.references l) (wb.evaluateIn v l) := by
  obtain ⟨tokens, ht⟩ := Option.isSome_iff_exists.1 hl
  obtain ⟨hstep, hsheet⟩ := h.of_formula? ht
  rw [evaluateIn_of_formula ht]
  unfold references at hv ⊢
  rw [ht, Option.getD_some] at hv ⊢
  have hplain : ∀ t ∈ tokens, t.isPlain →
      LooksUp v (wb.cellOf l.sheet t) (t.value (Scope.of wb.settings (wb.resolverIn v l.sheet))) :=
    fun t htm htp => .plain htp (hsheet t htm) fun d hd => hv d (List.mem_flatMap.2 ⟨t, htm, hd⟩)
  have hliteral : ∀ t : Token, t.IsLiteral →
      LooksUp v [] (t.value (Scope.of wb.settings (wb.resolverIn v l.sheet))) := by
    rintro t ⟨-, y, hy⟩
    rw [hy]
    exact .pure y
  rcases isOneStep_cases hstep with ⟨sheet, a, rfl⟩ | ⟨a, op, rfl, ha, hop⟩ | ⟨a, b, op, rfl, ha, hb, hop, href⟩
  · have := (LooksUp.pure ()).evaluateFormula (g := fun _ => Token.cell sheet a) (fun _ => rfl)
      (fun _ => hplain _ (List.mem_singleton.2 rfl) rfl) (by rw [evaluateToken_reference]; rfl)
    simpa using this
  · have hpa := hplain a (by simp) ha
    have hc : [a, Token.operator op].flatMap (wb.cellOf l.sheet) = wb.cellOf l.sheet a := by simp [cellOf]
    rw [hc]
    rcases applyUnary_plain op ha with e | ⟨g, hg, e⟩
    · have := (LooksUp.pure ()).evaluateFormula (g := fun _ => a) (fun _ => ?_) (fun _ => hpa)
        (by rw [evaluateToken_unaryOperator ha hop, e]; rfl)
      · exact this
      · cases a <;> first | rfl | cases ha
    · have := hpa.evaluateFormula (fun y => (hg y).1) (fun y => hliteral _ (hg y))
        (by rw [evaluateToken_unaryOperator ha hop, e])
      rwa [List.append_nil] at this
  · have hpa := hplain a (by simp) ha
    have hpb := hplain b (by simp) hb
    have hc : [a, b, Token.operator op].flatMap (wb.cellOf l.sheet) = wb.cellOf l.sheet a ++ wb.cellOf l.sheet b := by
      simp [cellOf]
    rw [hc]
    have hg := fun x : Value × Value => op.isLiteral_onValues wb.settings x.1 x.2
    have := (hpa.bind fun x => hpb.map (Prod.mk x)).evaluateFormula (fun y => (hg y).1) (fun y => hliteral _ (hg y))
      (by rw [evaluateToken_binaryOperator ha hb hop, applyBinary_plain ha hb href, (scopeOf_isDialogue _).settings_eq])
    rwa [List.append_nil] at this

end Spreadsheet.Workbook
