import Spreadsheet.Evaluation.Functions
import Spreadsheet.Proofs.Evaluation.ComponentValues

/-!
# Collected numbers

SUM, AVERAGE, MIN and MAX collect numbers while they resolve one component after the other, and stop at the first error
value.  COUNT expands all arguments before it resolves any component, and passes over errors.  Texts and booleans that are
written as arguments count in the first way only.  Without these both ways lead to the numbers among the elements of all
components (`Aggregate.collected_of_numbers`), so that COUNT is the number of those that SUM adds
(`Aggregate.count_of_collected`).
-/

namespace Spreadsheet

variable {σ : Type} {s : Scope σ}

/-- An argument of which only numbers can count, in whatever way it is looked at. -/
def Token.countsNumbersOnly : Token → Bool
  | text _ | boolean _ | shared _ => false
  | _ => true

namespace Aggregate

/-- The number that a value is.  Booleans and texts are none. -/
def number? : Value → Option Float
  | .number x => some x
  | _ => none

private theorem countP_isNumber (vs : List Value) : vs.countP isNumber = (vs.filterMap number?).length := by
  rw [List.length_filterMap_eq_countP]
  refine List.countP_congr fun v _ => ?_
  cases v <;> simp [isNumber, number?]

/-! ### The collection -/

/-- A list of values without an error gives its numbers, put in front of those found before. -/
theorem scanNumbers_eq_ok {found found' : List Float} {vs : List Value} (h : scanNumbers found vs = .ok found') :
    (∀ v ∈ vs, v.isError = false) ∧ found' = (vs.filterMap number?).reverse ++ found := by
  induction vs generalizing found with
  | nil =>
    obtain rfl : found = found' := Except.ok.inj h
    exact ⟨fun v hv => absurd hv List.not_mem_nil, rfl⟩
  | cons v vs ih =>
    cases v with
    | error e => cases h
    | number x =>
      obtain ⟨herror, hfound⟩ := ih h
      have hnumbers : (Value.number x :: vs).filterMap number? = x :: vs.filterMap number? := rfl
      refine ⟨List.forall_mem_cons.2 ⟨rfl, herror⟩, ?_⟩
      rw [hfound, hnumbers, List.reverse_cons, List.append_assoc, List.singleton_append]
    | empty | boolean | text | array =>
      obtain ⟨herror, hfound⟩ := ih h
      exact ⟨List.forall_mem_cons.2 ⟨rfl, herror⟩, hfound⟩

/-- The components are resolved in turn.  A circular reference among them would be an error. -/
theorem runFrom_scanComponents_eq_ok {found found' : List Float} {parts : List Token} {p q : σ}
    (h : (scanComponents s found parts).runFrom p = (.ok found', q)) :
    ∃ vs, (parts.mapM (Token.value s)).runFrom p = (.ok vs, q) ∧
      (∀ v ∈ vs.flatMap Value.elements, v.isError = false) ∧
      found' = ((vs.flatMap Value.elements).filterMap number?).reverse ++ found := by
  induction parts generalizing found p with
  | nil =>
    obtain ⟨rfl, rfl⟩ : found = found' ∧ p = q := by simpa [scanComponents] using h
    exact ⟨[], rfl, fun v hv => absurd hv List.not_mem_nil, rfl⟩
  | cons t parts ih =>
    rw [scanComponents] at h
    split at h
    · cases h
    · obtain ⟨v, p', hv, h⟩ := Eval.runFrom_bind_eq_ok.1 h
      obtain ⟨found₁, p₁, hfound, h⟩ := Eval.runFrom_bind_eq_ok.1 h
      rw [Eval.runFrom_ofExcept, Prod.mk.injEq] at hfound
      obtain ⟨hscan, rfl⟩ := hfound
      obtain ⟨herror, rfl⟩ := scanNumbers_eq_ok hscan
      obtain ⟨vs, hvs, herrors, rfl⟩ := ih h
      refine ⟨v :: vs, Eval.runFrom_mapM_cons.2 ⟨p', hv, hvs⟩, ?_, ?_⟩
      · rw [List.flatMap_cons]
        exact List.forall_mem_append.2 ⟨herror, herrors⟩
      · rw [List.flatMap_cons, List.filterMap_append, List.reverse_append, List.append_assoc]

/-- An argument that is no composite counts as the only component of itself. -/
theorem scanArgument_eq {t : Token} (ht : t.countsNumbersOnly) (found : List Float) :
    scanArgument s found t = t.parts s >>= scanComponents s found := by
  cases t with
  | text | boolean | shared => cases ht
  | error e circular => cases circular <;> rfl
  | name id =>
    rw [scanArgument, if_neg (by simp [Token.isCircular]), Token.parts, bind_assoc]
    refine congrArg _ (funext fun parts => ?_)
    cases parts <;> rfl
  | _ => rfl

/-- The collection finds the numbers among the elements of all components.  It ends in the same state as if the components
had been resolved for their values. -/
theorem collected_of_numbers {args : List Token} (hargs : ∀ t ∈ args, t.countsNumbersOnly) {xs : List Float} {p q : σ}
    (h : (numbers s args).runFrom p = (.ok xs, q)) :
    ∃ vs, (Token.componentValues s args).runFrom p = (.ok vs, q) ∧
      (∀ v ∈ vs.flatMap Value.elements, v.isError = false) ∧
      xs = (vs.flatMap Value.elements).filterMap number? := by
  have hcollect : ∀ {found found' : List Float} {p : σ}, (args.foldlM (scanArgument s) found).runFrom p = (.ok found', q) →
      ∃ vs, (Token.componentValues s args).runFrom p = (.ok vs, q) ∧
        (∀ v ∈ vs.flatMap Value.elements, v.isError = false) ∧
        found' = ((vs.flatMap Value.elements).filterMap number?).reverse ++ found := by
    clear h
    induction args with
    | nil =>
      intro found found' p h
      obtain ⟨rfl, rfl⟩ : found = found' ∧ p = q := by simpa using h
      exact ⟨[], rfl, fun v hv => absurd hv List.not_mem_nil, rfl⟩
    | cons t args ih =>
      intro found found' p h
      obtain ⟨ht, hargs⟩ := List.forall_mem_cons.1 hargs
      rw [List.foldlM_cons, scanArgument_eq ht, bind_assoc] at h
      obtain ⟨parts, p₁, hparts, h⟩ := Eval.runFrom_bind_eq_ok.1 h
      obtain ⟨found₁, p₂, hscan, h⟩ := Eval.runFrom_bind_eq_ok.1 h
      obtain ⟨vs, hvs, herror, rfl⟩ := runFrom_scanComponents_eq_ok hscan
      obtain ⟨ws, hws, herrors, rfl⟩ := ih hargs h
      refine ⟨vs ++ ws, ?_, ?_, ?_⟩
      · exact Token.runFrom_componentValues_cons.2 ⟨parts, p₁, vs, p₂, ws, hparts, hvs, hws, rfl⟩
      · rw [List.flatMap_append]
        exact List.forall_mem_append.2 ⟨herror, herrors⟩
      · rw [List.flatMap_append, List.filterMap_append, List.reverse_append, List.append_assoc]
  obtain ⟨found, q', hfound, hxs⟩ := Eval.runFrom_bind_eq_ok.1 h
  obtain ⟨rfl, rfl⟩ : found.reverse = xs ∧ q' = q := by simpa using hxs
  obtain ⟨vs, hvs, herror, rfl⟩ := hcollect hfound
  exact ⟨vs, hvs, herror, by rw [List.append_nil, List.reverse_reverse]⟩

/-! ### The functions -/

private theorem outcome_sum (args : List Token) (p : σ) : ((Function.sum.apply s args).runFrom p).1 =
    ((numbers s args).runFrom p).1.map fun xs => .number (total xs) := by
  rw [Function.apply, sum, bind_pure_comp, Eval.runFrom_map]

/-- The mean of some numbers. -/
def mean : List Float → Except FormulaError Token
  | [] => .error (.code .div0)
  | xs => .ok (.number (total xs / Float.ofNat xs.length))

private theorem mean_eq_ok {xs : List Float} (h : xs ≠ []) :
    mean xs = .ok (.number (total xs / Float.ofNat xs.length)) := by
  cases xs with
  | nil => exact absurd rfl h
  | cons x xs => rfl

private theorem mean_eq_error_iff {xs : List Float} : mean xs = .error (.code .div0) ↔ xs = [] := by
  cases xs with
  | nil => exact ⟨fun _ => rfl, fun _ => rfl⟩
  | cons x xs => exact ⟨nofun, nofun⟩

private theorem outcome_average (args : List Token) (p : σ) : ((Function.average.apply s args).runFrom p).1 =
    ((numbers s args).runFrom p).1 >>= mean := by
  rw [Function.apply, average, Eval.runFrom_bind]
  rcases (numbers s args).runFrom p with ⟨e | xs, q⟩
  · rfl
  · cases xs <;> rfl

private theorem outcome_count (args : List Token) (p : σ) : ((Function.count.apply s args).runFrom p).1 =
    ((Token.allValues s args).runFrom p).1.map fun vs => .number (Float.ofNat (vs.filterMap number?).length) := by
  rw [Function.apply, count, bind_pure_comp, Eval.runFrom_map]
  simp only [countP_isNumber]

/-- They fail whenever the collection fails. -/
theorem outcome_of_numbers_error {args : List Token} {p : σ} {e : FormulaError}
    (h : ((numbers s args).runFrom p).1 = .error e) {f : Function} (hf : f ∈ [Function.average, .min, .max]) :
    ((f.apply s args).runFrom p).1 = .error e := by
  simp only [List.mem_cons, List.not_mem_nil, or_false] at hf
  rcases hf with rfl | rfl | rfl
  · rw [outcome_average, h]
    rfl
  · rw [Function.apply, min, bind_pure_comp, Eval.runFrom_map, h]
    rfl
  · rw [Function.apply, max, bind_pure_comp, Eval.runFrom_map, h]
    rfl

private theorem callFunction_aggregate {f : Function} (hf : f ∈ [Function.sum, .count, .average, .min, .max])
    {args : List Token} (hargs : args ≠ []) : callFunction s f.id args = f.apply s args := by
  simp only [List.mem_cons, List.not_mem_nil, or_false] at hf
  rcases hf with rfl | rfl | rfl | rfl | rfl <;> exact callFunction_of_ne_nil rfl rfl hargs

variable {r : Resolver σ} {I : σ → Prop} {settings : Settings} {n : Nat} {args : List Token} {p : σ}

/-- Arguments without a text or a boolean that is written out.  If SUM succeeds then it adds the numbers among the elements
of all components, COUNT gives how many these are, and AVERAGE divides by as many, or by zero if there are none.  If SUM
fails then AVERAGE, MIN and MAX fail in the same way. -/
theorem count_of_collected (hr : r.Steady I) (hp : I p) (hargs : ∀ t ∈ args, t.countsNumbersOnly) :
    let s := Scope.withLevels settings r n
    let outcome := fun (f : Function) q => ((f.apply s args).runFrom q).1
    (args ≠ [] → ∀ f ∈ [Function.sum, .count, .average, .min, .max], callFunction s f.id args = f.apply s args) ∧
    (∀ t, outcome .sum p = .ok t → ∃ vs xs,
      ((Token.allValues s args).runFrom p).1 = .ok vs ∧ (∀ v ∈ vs, v.isError = false) ∧ vs.filterMap number? = xs ∧
      ((numbers s args).runFrom p).1 = .ok xs ∧ t = .number (total xs) ∧
      ∀ q, I q →
        outcome .count q = .ok (.number (Float.ofNat xs.length)) ∧
        (xs ≠ [] → outcome .average q = .ok (.number (total xs / Float.ofNat xs.length))) ∧
        (outcome .average q = .error (.code .div0) ↔ xs = [])) ∧
    ∀ e, outcome .sum p = .error e → ∀ q, I q → ∀ f ∈ [Function.average, .min, .max], outcome f q = .error e := by
  intro s outcome
  have hnumbers : ∀ q, I q → ((numbers s args).runFrom q).1 = ((numbers s args).runFrom p).1 := fun q hq =>
    ((numbers_isDialogue (withLevels_isDialogue settings n) args).run_steady hr hq hp).1
  have hvalues : ∀ q, I q → ((Token.allValues s args).runFrom q).1 = ((Token.allValues s args).runFrom p).1 := fun q hq =>
    ((Token.allValues_isDialogue (withLevels_isDialogue settings n) args).run_steady hr hq hp).1
  refine ⟨fun hne f hf => callFunction_aggregate hf hne, fun t ht => ?_, fun e he q hq f hf => ?_⟩
  · obtain ⟨xs, hxs, rfl⟩ : ∃ xs, ((numbers s args).runFrom p).1 = .ok xs ∧ t = .number (total xs) := by
      have hsum := (outcome_sum args p).symm.trans ht
      cases hxs : ((numbers s args).runFrom p).1 with
      | error e =>
        rw [hxs] at hsum
        cases hsum
      | ok xs =>
        rw [hxs] at hsum
        exact ⟨xs, rfl, (Except.ok.inj hsum).symm⟩
    obtain ⟨vs, hvs, herror, hcollected⟩ := collected_of_numbers hargs (Prod.ext hxs rfl)
    have hall := Token.outcome_allValues hr hp (congrArg Prod.fst hvs)
    have haverage : ∀ q, I q → outcome .average q = mean xs := by
      intro q hq
      refine (outcome_average args q).trans ?_
      rw [hnumbers q hq, hxs]
      rfl
    refine ⟨vs.flatMap Value.elements, xs, hall, herror, hcollected.symm, hxs, rfl, fun q hq => ⟨?_, fun hne => ?_, ?_⟩⟩
    · refine (outcome_count args q).trans ?_
      rw [hvalues q hq, hall, hcollected]
      rfl
    · rw [haverage q hq, mean_eq_ok hne]
    · rw [haverage q hq, mean_eq_error_iff]
  · have hfail : ((numbers s args).runFrom p).1 = .error e := by
      have hsum := (outcome_sum args p).symm.trans he
      cases hxs : ((numbers s args).runFrom p).1 with
      | error e' =>
        rw [hxs] at hsum
        obtain rfl : e' = e := Except.error.inj hsum
        rfl
      | ok xs =>
        rw [hxs] at hsum
        cases hsum
    exact outcome_of_numbers_error ((hnumbers q hq).trans hfail) hf

end Aggregate

/-- The number two in the first column and a text that reads as seven in the others; every name stands for the area A1:B2.
The state counts the questions. -/
def Resolver.twosAndTexts : Resolver Nat where
  cell _ address := do
    modify (· + 1)
    return if address.col = 0 then .number 2 else .text "7"
  name _ := do
    modify (· + 1)
    return [.area none (.relative 1 1) (.relative 0 0)]
  shared anchor := throw (.noSharedFormula anchor)

private theorem Resolver.steady_twosAndTexts : twosAndTexts.Steady fun _ => True where
  same q s t _ _ := by cases q <;> rfl
  stays _ _ _ := trivial

namespace Aggregate

/-- A name, a list of a cell and a lost table, a table and a blank: the texts and the boolean in them are no numbers. -/
def mixedArguments : List Token :=
  [.name 1, .references [.cell none (.relative 4 0), .area none ⟨.relative 0 1, .relative 0 2⟩],
    .array [[.number 5, .boolean true, .text "7"]], .blank]

theorem count_of_collected_mixedArguments :
    let s := Scope.withLevels {} .twosAndTexts 1
    (∀ t ∈ mixedArguments, t.countsNumbersOnly) ∧
    ((Function.sum.apply s mixedArguments).runFrom 0).1 = .ok (.number (total [2, 2, 2, 5])) ∧
    ((callFunction s Function.count.id mixedArguments).runFrom 9).1 = .ok (.number (Float.ofNat 4)) ∧
    ((callFunction s Function.average.id mixedArguments).runFrom 9).1 =
      .ok (.number (total [2, 2, 2, 5] / Float.ofNat 4)) := by
  intro s
  have hargs : ∀ t ∈ mixedArguments, t.countsNumbersOnly := by decide
  have hsum : ((Function.sum.apply s mixedArguments).runFrom 0).1 = .ok (.number (total [2, 2, 2, 5])) := rfl
  have hnumbers : ((numbers s mixedArguments).runFrom 0).1 = .ok [2, 2, 2, 5] := rfl
  obtain ⟨hcall, hsucceeds, -⟩ :=
    @count_of_collected Nat .twosAndTexts _ {} 1 mixedArguments 0 Resolver.steady_twosAndTexts trivial hargs
  obtain ⟨vs, xs, -, -, -, hxs, -, hafter⟩ := hsucceeds _ hsum
  obtain rfl : [2, 2, 2, 5] = xs := Except.ok.inj (hnumbers.symm.trans hxs)
  obtain ⟨hcount, haverage, -⟩ := hafter 9 trivial
  refine ⟨hargs, hsum, ?_, ?_⟩
  · rw [hcall (List.cons_ne_nil _ _) .count (by decide)]
    exact hcount
  · rw [hcall (List.cons_ne_nil _ _) .average (by decide)]
    exact haverage (List.cons_ne_nil _ _)

end Aggregate

end Spreadsheet
