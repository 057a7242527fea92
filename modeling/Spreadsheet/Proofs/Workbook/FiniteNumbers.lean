import Spreadsheet.Proofs.Workbook.Agreement
import Spreadsheet.Proofs.Workbook.SessionContracts

/-!
# Finite numbers

Arithmetic checks its results, and a number that is not finite becomes an error value there.  The functions that add up
do not: a sum of two large numbers is infinite (`evaluate_largeSum`).  This is the only way in which a number that is not
finite can arise.  If the numbers in the cells and formulas of a workbook are finite, and so is each sum, mean and count
that the evaluation of its formulas comes by, then all results are (`isFinite_results`).

The sums on the way depend on the values of the cells that a formula asks for, and those on the session.  `Possible` are
the outcomes that no invariant of the workbook excludes, and only sessions with possible outcomes count.
-/

namespace Spreadsheet

namespace Workbook

variable (wb : Workbook)

/-- The outcome of a cell is one that no invariant excludes. -/
def Possible (l : Location) (r : Except FormulaError Scalar) : Prop :=
  ∀ Q, wb.OutcomeInvariant Q → Q l r

/-- In such a session a formula is evaluated with this resolver: for a request, or for a cell when some more cells may be
evaluated inside it. -/
inductive Consults : Resolver Session → Session → Prop
  | request {sheet : Nat} {s : Session} (hs : wb.Reached sheet s) : Consults wb.resolver s
  | cell (n : Nat) {s : Session} (hs : s.All wb.Possible) : Consults (wb.resolverWith (wb.lookUp n)) s

/-- The numbers in a formula are finite, and so are the sums, means and counts that its evaluation comes by. -/
structure FiniteFormula (tokens : List Token) : Prop where
  literal : ∀ t ∈ tokens, t.Within (·.isFinite)
  tally : ∀ r s, wb.Consults r s → ∀ level t,
    Machine.Tallies (Scope.withLevels wb.settings r level) ⟨wb.settings.maxNestingDepth, tokens, [], s⟩ t →
      t.Within (·.isFinite)

/-- The numbers in the cells of a workbook are finite, and its formulas and definitions deal with finite numbers. -/
structure FiniteContent : Prop where
  constant : ∀ l v, wb.formula? l = none → wb.stored l = .ok v → v.Within (·.isFinite)
  formula : ∀ l tokens, wb.formula? l = some tokens → wb.FiniteFormula tokens
  name : ∀ id tokens, wb.nameTokens id = .ok tokens → wb.FiniteFormula tokens
  shared : ∀ i anchor tokens, wb.sharedTokens i anchor = .ok tokens → wb.FiniteFormula tokens

/-- Numbers are finite, and definitions deal with finite numbers. -/
def finiteContract (state : Session → Prop) : Contract Session where
  state := state
  number := (·.isFinite)
  definition := wb.FiniteFormula
  failure _ := True
  signClosed := signClosed_isFinite
  fault _ _ := trivial

variable {wb}

private theorem outcomeInvariant_possible : wb.OutcomeInvariant wb.Possible where
  stored l hl _ hQ := hQ.stored l hl
  circular l _ hQ := hQ.circular l
  cut l _ hQ := hQ.cut l
  formula n _ l tokens hf s hs Q hQ := hQ.formula n (hQ.lookUp n) l tokens hf s fun l' r h => hs l' r h Q hQ

private theorem evaluateToken_finite {lookUp : Location → Eval Session Scalar} {I : Session → Prop}
    (hI : ∀ s, I s → wb.Consults (wb.resolverWith lookUp) s) {level : Nat} {tokens : List Token}
    (hs : (Scope.withLevels wb.settings (wb.resolverWith lookUp) level).Honours (wb.finiteContract I))
    (h : wb.FiniteFormula tokens) :
    (evaluateToken (Scope.withLevels wb.settings (wb.resolverWith lookUp) level) tokens).Keeps (wb.finiteContract I)
      (wb.finiteContract I).Operand := by
  refine evaluateToken_keeps hs (fun _ hbody => hbody.literal) (fun _ _ => trivial) h.literal fun p hp t ht => ?_
  rw [(withLevels_isDialogue wb.settings level).settings_eq] at ht
  exact h.tally _ p (hI p hp) level t ht

theorem FiniteContent.honours (h : wb.FiniteContent) {lookUp : Location → Eval Session Scalar} {I : Session → Prop}
    (hI : ∀ s, I s → wb.Consults (wb.resolverWith lookUp) s)
    (hcell : ∀ l, (lookUp l).Keeps (wb.finiteContract I) (Scalar.Within (·.isFinite))) (level : Nat) :
    (Scope.withLevels wb.settings (wb.resolverWith lookUp) level).Honours (wb.finiteContract I) :=
  Supplies.withLevels_honours ⟨hcell, h.name, h.shared⟩ (fun _ _ hs hbody => evaluateToken_finite hI hs hbody) level

/-- A possible outcome of the cell, with a finite number if it is one. -/
def FiniteOutcome (wb : Workbook) (l : Location) (r : Except FormulaError Scalar) : Prop :=
  wb.Possible l r ∧ ∀ v, r = .ok v → v.Within (·.isFinite)

private theorem finiteOutcome_of_keeps {I : Session → Prop} {x : Eval Session Scalar} {s : Session} {l : Location}
    (hx : x.Keeps (wb.finiteContract I) (Scalar.Within (·.isFinite))) (hs : I s)
    (hl : wb.Possible l (x.runFrom s).1) : wb.FiniteOutcome l (x.runFrom s).1 := by
  refine ⟨hl, fun v hv => ?_⟩
  have hresult := (hx s hs).2
  rw [hv] at hresult
  exact hresult

private theorem keeps_of_finiteOutcome {I : Session → Prop} {x : Eval Session Scalar} {l : Location}
    (h : ∀ s, I s → wb.FiniteOutcome l (x.runFrom s).1 ∧ I (x.runFrom s).2) :
    x.Keeps (wb.finiteContract I) (Scalar.Within (·.isFinite)) := by
  intro s hs
  obtain ⟨⟨-, hfinite⟩, hstate⟩ := h s hs
  refine ⟨hstate, ?_⟩
  cases hr : (x.runFrom s).1 with
  | ok v => exact hfinite v hr
  | error e => exact trivial

namespace FiniteContent

variable (h : wb.FiniteContent)
include h

/-- All outcomes of cells are finite, if they are numbers. -/
theorem outcomeInvariant : wb.OutcomeInvariant wb.FiniteOutcome where
  stored l hl := ⟨outcomeInvariant_possible.stored l hl, fun v hv => h.constant l v hl hv⟩
  circular l := ⟨outcomeInvariant_possible.circular l, fun v hv => nomatch hv⟩
  cut l := ⟨outcomeInvariant_possible.cut l, fun v hv => nomatch hv⟩
  formula n hlookUp l tokens hf s hs := by
    have hpossible : ∀ s : Session, s.All wb.FiniteOutcome → s.All wb.Possible := fun s hs l r hr => (hs l r hr).1
    -- The sessions in which the formula is evaluated are possible ones, so that its tallies are finite.
    have honours := h.honours (I := (·.All wb.FiniteOutcome)) (fun s hs => .cell n (hpossible s hs))
      (fun l => keeps_of_finiteOutcome (hlookUp l)) wb.settings.maxNestingDepth
    have htoken := evaluateToken_finite (fun s hs => .cell n (hpossible s hs)) honours (h.formula l tokens hf)
    exact finiteOutcome_of_keeps (evaluateWithin_keeps honours htoken) hs
      (outcomeInvariant_possible.formula n (outcomeInvariant_possible.lookUp n) l tokens hf s (hpossible s hs))

private theorem within_shownInCell {sheet : Nat} {s : Session} (hs : wb.Reached sheet s) {l : Location} {v : Scalar}
    (hv : shownInCell ((wb.cellValue l).runFrom s).1 = .ok v) : v.Within (·.isFinite) := by
  have houtcome := (h.outcomeInvariant.cellValue hs l).2
  unfold shownInCell at hv
  split at hv
  · rename_i x hx
    cases hv
    exact houtcome _ hx
  · split at hv
    · cases hv
      trivial
    · cases hv

/-- The value of a formula in a session is finite. -/
theorem evaluateValue_keeps {tokens : List Token} (ht : wb.FiniteFormula tokens) (sheet : Nat) :
    (evaluateValue wb.scope tokens).Keeps (wb.finiteContract (wb.Reached sheet)) (Value.Within (·.isFinite)) := by
  have honours := h.honours (I := wb.Reached sheet) (fun s hs => .request hs)
    (fun l => keeps_of_finiteOutcome fun s hs => ⟨h.outcomeInvariant.cellValue hs l, hs.value l⟩)
    wb.settings.maxNestingDepth
  exact Spreadsheet.evaluateValue_keeps honours (evaluateToken_finite (fun s hs => .request hs) honours ht)

private theorem within_of_evaluate {sheet : Nat} {tokens : List Token} (ht : wb.FiniteFormula tokens) {v : Value}
    (hv : wb.evaluate sheet tokens = .ok v) : v.Within (·.isFinite) := by
  have hresult := (h.evaluateValue_keeps ht sheet (Session.new sheet) .new).2
  rw [evaluate_eq_ok hv] at hresult
  exact hresult

private theorem within_of_evaluateCell {sheet : Nat} {address : String} {v : Scalar}
    (hv : wb.evaluateCell sheet address = .ok v) : v.Within (·.isFinite) := by
  obtain ⟨p, hshown⟩ := evaluateCell_eq_ok hv
  exact h.within_shownInCell .new hshown

private theorem within_of_calculate {wb' : Workbook} {stats : Stats} (hcalc : calculate.runOn wb = (.ok stats, wb'))
    {l : Location} (hf : (wb.formula? l).isSome) {v : Scalar} (hv : wb'.result? l = some v) : v.Within (·.isFinite) := by
  obtain ⟨x, s, hx, hs, hshown⟩ := exists_stored hcalc hf
  obtain rfl := Option.some.inj (hx.symm.trans hv)
  exact h.within_shownInCell hs hshown

end FiniteContent

/-- Where arithmetic leaves the finite numbers, its result is an error value. -/
theorem binary_of_not_isFinite {settings : Settings} {op : Operator} {a b : Value} {x y z : Float}
    (ha : a.error? = none) (hb : b.error? = none) (hx : a.coerce? settings = some x) (hy : b.coerce? settings = some y)
    (hz : Arithmetic.combine op x y = .ok z) (hfinite : z.isFinite = false) :
    Arithmetic.binary settings op a b = .error .num := by
  simp [Arithmetic.binary, Arithmetic.checked, ha, hb, hx, hy, hz, hfinite]

/-- If the numbers in cells and formulas are finite, and so are the sums, means and counts on the way, then all numbers in
the results of formulas, cells and recalculations are finite.  Arithmetic needs no such condition: where it leaves the
finite numbers, its result is an error value. -/
theorem isFinite_results (h : wb.FiniteContent) :
    (∀ sheet tokens v, wb.FiniteFormula tokens → wb.evaluate sheet tokens = .ok v → v.Within (·.isFinite)) ∧
      (∀ sheet address v, wb.evaluateCell sheet address = .ok v → v.Within (·.isFinite)) ∧
      (∀ wb' stats, calculate.runOn wb = (.ok stats, wb') → ∀ l v, (wb.formula? l).isSome → wb'.result? l = some v →
        v.Within (·.isFinite)) ∧
      ∀ settings op a b x y z, a.error? = none → b.error? = none → a.coerce? settings = some x →
        b.coerce? settings = some y → Arithmetic.combine op x y = .ok z → z.isFinite = false →
        Arithmetic.binary settings op a b = .error .num :=
  ⟨fun _ _ _ ht hv => h.within_of_evaluate ht hv, fun _ _ _ hv => h.within_of_evaluateCell hv,
    fun _ _ hcalc _ _ hf hv => h.within_of_calculate hcalc hf hv,
    fun _ _ _ _ _ _ _ ha hb hx hy hz hfinite => binary_of_not_isFinite ha hb hx hy hz hfinite⟩

/-! ### Where the conditions hold -/

/-- What a cell without a formula is worth stands in one of the sheets, unless the cell is blank. -/
theorem stored_eq_ok {l : Location} {v : Scalar} (h : wb.stored l = .ok v) :
    v = .empty ∨ ∃ sheet ∈ wb.sheets, (l.position, .constant v) ∈ sheet.cells.toList := by
  unfold stored at h
  cases hs : wb.sheet? l.sheet with
  | none =>
    rw [hs] at h
    cases h
  | some sheet =>
    rw [hs] at h
    obtain rfl := Except.ok.inj h
    cases hc : sheet.cell? l.position with
    | none =>
      rw [Sheet.constant?, hc]
      exact .inl rfl
    | some c =>
      rw [Sheet.constant?, hc]
      cases c with
      | formula tokens => exact .inl rfl
      | constant v => exact .inr ⟨sheet, List.mem_of_getElem? hs, Std.TreeMap.mem_toList_iff_getElem?_eq_some.2 hc⟩

private theorem Consults.sharedTokens_of_shared {r : Resolver Session} {s p p' : Session} (h : wb.Consults r s)
    {anchor : CellAddress} {body : List Token} (hbody : (r.shared anchor).runFrom p = (.ok body, p')) :
    wb.sharedTokens p.currentSheet anchor = .ok body := by
  have hresolver : ∃ lookUp, r = wb.resolverWith lookUp := by
    cases h with
    | request => exact ⟨_, rfl⟩
    | cell n => exact ⟨_, rfl⟩
  obtain ⟨lookUp, rfl⟩ := hresolver
  have hshared := wb.resolverWith_shared lookUp anchor p
  exact (Prod.mk.inj (hshared.symm.trans hbody)).1

/-- A formula in which nothing is added up or counted, and no shared formula either, needs only finite numbers in it. -/
theorem finiteFormula_of_not_tally {tokens : List Token} (hliteral : ∀ t ∈ tokens, t.Within (·.isFinite))
    (htokens : ∀ t ∈ tokens, t.isTally = false)
    (hshared : ∀ i anchor body, wb.sharedTokens i anchor = .ok body → ∀ t ∈ body, t.isTally = false) :
    wb.FiniteFormula tokens where
  literal := hliteral
  tally := by
    intro r s hr level t ht
    refine absurd ht (Machine.not_tallies htokens fun anchor p body p' hbody => ?_)
    rw [(withLevels_isDialogue wb.settings level).resolver_eq] at hbody
    exact hshared _ anchor body (hr.sharedTokens_of_shared hbody)

/-- The sum of one and two. -/
def smallSum : List Token :=
  [.integer 1, .integer 2, .call Function.sum.id 2 false]

/-- A workbook with this sum in a cell, and with a name for a number. -/
def smallNumbers : Workbook where
  sheets := [{ name := "Sheet1", cells := .ofList [(⟨0, 0⟩, .formula smallSum)] Position.order }]
  names := [{ name := "Two", tokens := [.integer 2] }]

private theorem isFinite_two : (Float.ofInt 2).isFinite := by decide +kernel

private theorem finiteFormula_smallSum : smallNumbers.FiniteFormula smallSum where
  literal := by
    intro t ht
    simp only [smallSum, List.mem_cons, List.not_mem_nil, or_false] at ht
    rcases ht with rfl | rfl | rfl
    · show (Float.ofInt 1).isFinite = true
      decide +kernel
    · exact isFinite_two
    · trivial
  tally := by
    intro r s _ level t ht
    have hsum : ∃ x : Float, x.isFinite ∧
        (Machine.step (Scope.withLevels smallNumbers.settings r level) (.call Function.sum.id 2 false) 2
          [.integer 2, .integer 1]).runFrom s = (.ok [.number x], s) := ⟨_, by decide +kernel, rfl⟩
    obtain ⟨x, hx, hsum⟩ := hsum
    -- Two operands go on the stack, then they are added up, and nothing follows.
    have htally := ((ht.of_leaf rfl).of_leaf rfl).of_operation (.call Function.sum.id 2 false)
    obtain ⟨stack, p, hstep, hcase⟩ := htally
    obtain ⟨hstack, -⟩ := Prod.mk.inj (hsum.symm.trans hstep)
    obtain rfl := Except.ok.inj hstack
    rcases hcase with ⟨-, hhead⟩ | hrest
    · obtain rfl := Option.some.inj hhead
      exact hx
    · exact absurd hrest Machine.not_tallies_nil

private theorem sharedTokens_smallNumbers {i : Nat} {anchor : CellAddress} {tokens : List Token} :
    smallNumbers.sharedTokens i anchor ≠ .ok tokens := by
  have hnone : (smallNumbers.sheet? i).bind (·.shared? anchor.position) = none := by
    cases i <;> rfl
  rw [sharedTokens, hnone]
  exact nofun

private theorem finiteFormula_two : smallNumbers.FiniteFormula [.integer 2] :=
  finiteFormula_of_not_tally (List.forall_mem_singleton.2 isFinite_two) (by decide)
    fun _ _ _ h => absurd h sharedTokens_smallNumbers

private theorem finiteFormula_twoAndTwo : smallNumbers.FiniteFormula [.name 1, .integer 2, .operator .add] :=
  finiteFormula_of_not_tally (by simpa [Token.Within] using isFinite_two) (by decide)
    fun _ _ _ h => absurd h sharedTokens_smallNumbers

private theorem finiteContent_smallNumbers : smallNumbers.FiniteContent where
  constant := by
    intro l v _ hv
    rcases stored_eq_ok hv with rfl | ⟨sheet, hsheet, hconstant⟩
    · trivial
    · obtain rfl := List.mem_singleton.1 hsheet
      rw [show (Std.TreeMap.ofList [(⟨0, 0⟩, Cell.formula smallSum)] Position.order).toList =
        [(⟨0, 0⟩, Cell.formula smallSum)] from rfl] at hconstant
      cases (Prod.mk.inj (List.mem_singleton.1 hconstant)).2
  formula := by
    intro l tokens hf
    have hl : l ∈ smallNumbers.formulaLocations := mem_formulaLocations.2 (by rw [hf]; rfl)
    rw [show smallNumbers.formulaLocations = [⟨0, ⟨0, 0⟩⟩] by decide] at hl
    obtain rfl := List.mem_singleton.1 hl
    obtain rfl := Option.some.inj hf
    exact finiteFormula_smallSum
  name := by
    intro id tokens h
    unfold nameTokens at h
    split at h
    · rename_i n hn
      have hmem : n ∈ smallNumbers.names := by
        unfold definedName? at hn
        split at hn
        · cases hn
        · exact List.mem_of_getElem? hn
      obtain rfl := List.mem_singleton.1 hmem
      cases h
      exact finiteFormula_two
    · cases h
  shared := fun _ _ _ h => absurd h sharedTokens_smallNumbers

/-- Two is added to a name for two, in a workbook with a sum. -/
theorem evaluate_smallNumbers :
    smallNumbers.FiniteContent ∧
      ∃ x, smallNumbers.evaluate 0 [.name 1, .integer 2, .operator .add] = .ok (.number x) ∧ x.isFinite := by
  have hsum : ∃ x, smallNumbers.evaluate 0 [.name 1, .integer 2, .operator .add] = .ok (.number x) := ⟨_, rfl⟩
  obtain ⟨x, hx⟩ := hsum
  have hcontent := finiteContent_smallNumbers
  exact ⟨hcontent, x, hx, ((isFinite_results hcontent).1 0 _ _ finiteFormula_twoAndTwo hx).of_number⟩

/-- The sum of two large numbers. -/
def largeSum : List Token :=
  [.number 1e308, .number 1e308, .call Function.sum.id 2 false]

/-- Functions that add up do not check their results. -/
theorem evaluate_largeSum :
    (∀ t ∈ largeSum, t.Within (·.isFinite)) ∧
      ∃ x, ({ sheets := [{ name := "Sheet1" }] } : Workbook).evaluate 0 largeSum = .ok (.number x) ∧ x.isFinite = false := by
  refine ⟨fun t ht => ?_, _, rfl, ?_⟩
  · simp only [largeSum, List.mem_cons, List.not_mem_nil, or_false] at ht
    have hfinite : (1e308 : Float).isFinite = true := by decide +kernel
    rcases ht with rfl | rfl | rfl
    · exact hfinite
    · exact hfinite
    · trivial
  · decide +kernel

end Workbook

end Spreadsheet
