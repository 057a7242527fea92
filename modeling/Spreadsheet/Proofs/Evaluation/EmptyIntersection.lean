import Spreadsheet.Proofs.Address.Lattice
import Spreadsheet.Proofs.Evaluation.Components
import Spreadsheet.Proofs.Evaluation.FirstError
import Spreadsheet.Proofs.Evaluation.Intersection
import Spreadsheet.Proofs.Evaluation.Verdict

/-!
# Empty intersections

Operands without a common cell intersect in the empty list of references (`Expression.evaluate_emptyIntersection`).  To
resolve this list is a failure, #NULL!, which becomes the value of the formula or of the operator that takes the list as
an operand.  The aggregates do not resolve a list as a whole but one by one the cells that it covers.  They pass over
the empty list (`Function.apply_emptyList`): its sum is zero, and its mean divides by zero.
-/

namespace Spreadsheet

variable {σ : Type} {s : Scope σ} {o p q q' : σ} {a b c : Token} {op : Operator}

/-! ### The empty list as an operand -/

/-- Only the plus sign leaves it as it is. -/
theorem applyOperator_emptyList (hunary : op.isUnary = true) (hop : op ≠ .unaryPlus) :
    applyOperator s op [.references []] = throw (.code .null) := by
  cases op with
  | unaryPlus => exact absurd rfl hop
  | unaryMinus | percent => rfl
  | _ => cases hunary

private theorem applyOperator_emptyList_left (hbinary : op.isUnary = false) (hop : op.isReference = false)
    (hc : c.isError = false) : applyOperator s op [.references [], c] = throw (.code .null) :=
  applyOperator_of_not_isError hbinary hop rfl hc

/-- The other operand is resolved before the list. -/
theorem applyOperator_emptyList_right (hbinary : op.isUnary = false) (hop : op.isReference = false)
    (hc : c.isError = false) : applyOperator s op [c, .references []] = c.value s >>= fun _ => throw (.code .null) :=
  applyOperator_of_not_isError hbinary hop hc rfl

private theorem Aggregate.scanArgument_emptyList (found : List Float) :
    scanArgument s found (.references []) = pure found :=
  rfl

private theorem Aggregate.numbers_emptyList (before after : List Token) :
    numbers s (before ++ .references [] :: after) = numbers s (before ++ after) := by
  simp only [numbers, List.foldlM_append, List.foldlM_cons, scanArgument_emptyList, pure_bind]

/-- The aggregates of numbers pass over it. -/
theorem Function.apply_emptyList {f : Function} (hf : f ∈ [sum, average, min, max]) (before after : List Token) :
    f.apply s (before ++ .references [] :: after) = f.apply s (before ++ after) := by
  have hnumbers := Aggregate.numbers_emptyList (s := s) before after
  simp only [List.mem_cons, List.not_mem_nil, or_false] at hf
  rcases hf with rfl | rfl | rfl | rfl
  · simp only [Function.apply, Aggregate.sum, hnumbers]
  · simp only [Function.apply, Aggregate.average, hnumbers]
  · simp only [Function.apply, Aggregate.min, hnumbers]
  · simp only [Function.apply, Aggregate.max, hnumbers]

/-- As the only argument it leaves them without any number. -/
theorem Function.call_emptyList {f : Function} (hf : f ∈ [sum, average, min, max]) :
    callFunction s f.id [.references []] = f.apply s [] := by
  have haccepts : f.accepts 1 := by
    simp only [List.mem_cons, List.not_mem_nil, or_false] at hf
    rcases hf with rfl | rfl | rfl | rfl <;> rfl
  rw [callFunction_of_accepts haccepts]
  exact apply_emptyList hf [] []

/-! ### Operations on expressions whose token is the empty list -/

/-- A formula that ends with a failing operation has its error code as the value. -/
theorem evaluateValue_of_code {tokens : List Token} {x : Eval σ Token} {code : ErrorCode}
    (htokens : (evaluateToken s tokens).runFrom p = x.trap.runFrom q) (hx : x.runFrom q = (.error (.code code), q')) :
    (evaluateValue s tokens).runFrom p = (.ok (.error code), q') := by
  have htoken : (evaluateToken s tokens).runFrom p = (.ok (.ofCode code), q') := by
    rw [htokens, Eval.runFrom_trap, hx]
    rfl
  rw [evaluateValue_of_ok htoken]
  rfl

namespace Expression

variable {d e : Expression}

private theorem runFrom_unary (he : (e.evaluate s).runFrom p = (.ok c, q)) {f : Operation} (hf : f.arity = 1) :
    (evaluateToken s (e.tokens ++ [f.token])).runFrom p = (f.apply s [c]).trap.runFrom q := by
  rw [evaluateToken_unary hf, Eval.runFrom_bind, he]

private theorem runFrom_binary (hd : (d.evaluate s).runFrom o = (.ok a, p)) (he : (e.evaluate s).runFrom p = (.ok b, q))
    {f : Operation} (hf : f.arity = 2) :
    (evaluateToken s (d.tokens ++ e.tokens ++ [f.token])).runFrom o = (f.apply s [a, b]).trap.runFrom q := by
  rw [evaluateToken_binary hf, Eval.runFrom_bind, hd]
  dsimp only
  rw [Eval.runFrom_bind, he]

/-- What the plus sign leaves as it is fails in the end. -/
theorem evaluateValue_emptyList_unary (he : (e.evaluate s).runFrom p = (.ok (.references []), q))
    (hunary : op.isUnary = true) :
    (evaluateValue s (e.tokens ++ [.operator op])).runFrom p = (.ok (.error .null), q) := by
  have hrun := runFrom_unary he (f := .operator op) (if_pos hunary)
  by_cases hplus : op = .unaryPlus
  · subst hplus
    exact evaluateValue_of_ok hrun
  · refine evaluateValue_of_code hrun ?_
    rw [Operation.apply, applyOperator_emptyList hunary hplus, Eval.runFrom_throw]

private theorem evaluateValue_emptyList_left (he : (e.evaluate s).runFrom p = (.ok (.references []), q))
    (hd : (d.evaluate s).runFrom q = (.ok c, q')) (hbinary : op.isUnary = false) (hop : op.isReference = false)
    (hc : c.isError = false) :
    (evaluateValue s (e.tokens ++ d.tokens ++ [.operator op])).runFrom p = (.ok (.error .null), q') := by
  refine evaluateValue_of_code (runFrom_binary he hd (f := .operator op) (if_neg (by simp [hbinary]))) ?_
  rw [Operation.apply, applyOperator_emptyList_left hbinary hop hc, Eval.runFrom_throw]

private theorem evaluateValue_emptyList_right {v : Value} (he : (e.evaluate s).runFrom p = (.ok (.references []), q))
    (hd : (d.evaluate s).runFrom o = (.ok c, p)) (hv : (c.value s).runFrom q = (.ok v, q'))
    (hbinary : op.isUnary = false) (hop : op.isReference = false) (hc : c.isError = false) :
    (evaluateValue s (d.tokens ++ e.tokens ++ [.operator op])).runFrom o = (.ok (.error .null), q') := by
  refine evaluateValue_of_code (runFrom_binary hd he (f := .operator op) (if_neg (by simp [hbinary]))) ?_
  rw [Operation.apply, applyOperator_emptyList_right hbinary hop hc, Eval.runFrom_bind, hv]
  rfl

private theorem evaluateValue_emptyList_aggregate {f : Function} (hf : f ∈ [Function.sum, .min, .max])
    (he : (e.evaluate s).runFrom p = (.ok (.references []), q)) (returnsArray : Bool) :
    (evaluateValue s (e.tokens ++ [.call f.id 1 returnsArray])).runFrom p = (.ok (.number 0), q) := by
  have hrun := runFrom_unary he (f := .call f.id 1 returnsArray) rfl
  have hsubset : [Function.sum, .min, .max] ⊆ [.sum, .average, .min, .max] := by decide
  rw [Operation.apply, Function.call_emptyList (hsubset hf)] at hrun
  simp only [List.mem_cons, List.not_mem_nil, or_false] at hf
  rcases hf with rfl | rfl | rfl <;> exact evaluateValue_of_ok hrun

private theorem evaluateValue_emptyList_average (he : (e.evaluate s).runFrom p = (.ok (.references []), q))
    (returnsArray : Bool) :
    (evaluateValue s (e.tokens ++ [.call Function.average.id 1 returnsArray])).runFrom p = (.ok (.error .div0), q) := by
  refine evaluateValue_of_code (runFrom_unary he (f := .call Function.average.id 1 returnsArray) rfl) ?_
  rw [Operation.apply, Function.call_emptyList (by decide)]
  rfl

end Expression

/-! ### The intersection -/

/-- The operator finds no cell that both lists cover. -/
theorem Expression.evaluate_emptyIntersection {first second : List Reference} (ha : a.isLeaf) (hb : b.isLeaf)
    (h : ([a, b].mapM (Token.asReferences s false)).runFrom p = (.ok [first, second], q))
    (hnormal : ∀ ref ∈ first ++ second, ref.Normal)
    (hdisjoint : ∀ cell, ¬(first.any (·.covers cell) ∧ second.any (·.covers cell))) :
    ((node (.operator .intersect) ![operand a ha, operand b hb]).evaluate s).runFrom p = (.ok (.references []), q) := by
  rw [List.forall_mem_append] at hnormal
  have hempty : References.intersection first second = [] :=
    References.intersection_eq_nil hnormal.1 hnormal.2 hdisjoint
  have hchildren : ∀ i, ((![operand a ha, operand b hb] : Fin 2 → Expression) i).evaluate s = pure (![a, b] i) :=
    Fin.forall_fin_two.2 ⟨rfl, rfl⟩
  have hnode : (node (.operator .intersect) ![operand a ha, operand b hb]).evaluate s =
      (applyOperator s .intersect [a, b]).trap := evaluate_node (f := .operator .intersect) hchildren
  rw [hnode, Eval.runFrom_trap, runFrom_applyOperator_references .intersect rfl h]
  exact Prod.ext (congrArg (fun refs => Except.ok (Token.references refs)) hempty) rfl

/-- Two operands without a common cell, and the operator that intersects them.  The formula has the value #NULL!, and so
has every operator on values that takes it as an operand, if the other one is no error and can be resolved where it
comes first.  The sum of the intersection, its least and its greatest number are zero, and its mean divides by zero. -/
theorem evaluateValue_emptyIntersection {first second : List Reference} (ha : a.isLeaf) (hb : b.isLeaf)
    (h : ([a, b].mapM (Token.asReferences s false)).runFrom p = (.ok [first, second], q))
    (hnormal : ∀ ref ∈ first ++ second, ref.Normal)
    (hdisjoint : ∀ cell, ¬(first.any (·.covers cell) ∧ second.any (·.covers cell))) :
    let tokens := [a, b, .operator .intersect]
    (evaluateValue s tokens).runFrom p = (.ok (.error .null), q) ∧
    (∀ op, op.isUnary = true → (evaluateValue s (tokens ++ [.operator op])).runFrom p = (.ok (.error .null), q)) ∧
    (∀ op, op.isUnary = false → op.isReference = false → ∀ (d : Expression) c, c.isError = false →
      (∀ q', (d.evaluate s).runFrom q = (.ok c, q') →
        (evaluateValue s (tokens ++ d.tokens ++ [.operator op])).runFrom p = (.ok (.error .null), q')) ∧
      ∀ o v q', (d.evaluate s).runFrom o = (.ok c, p) → (c.value s).runFrom q = (.ok v, q') →
        (evaluateValue s (d.tokens ++ tokens ++ [.operator op])).runFrom o = (.ok (.error .null), q')) ∧
    (evaluateValue s (tokens ++ [.control .sum])).runFrom p = (.ok (.number 0), q) ∧
    ∀ returnsArray,
      (∀ f ∈ [Function.sum, .min, .max],
        (evaluateValue s (tokens ++ [.call f.id 1 returnsArray])).runFrom p = (.ok (.number 0), q)) ∧
      (evaluateValue s (tokens ++ [.call Function.average.id 1 returnsArray])).runFrom p = (.ok (.error .div0), q) := by
  intro tokens
  let e := Expression.node (.operator .intersect) ![.operand a ha, .operand b hb]
  have he : (e.evaluate s).runFrom p = (.ok (.references []), q) :=
    Expression.evaluate_emptyIntersection ha hb h hnormal hdisjoint
  have htoken : (evaluateToken s tokens).runFrom p = (.ok (.references []), q) := by
    rw [show tokens = e.tokens from rfl, Expression.evaluateToken_tokens, he]
  have hsum : (evaluateToken s (tokens ++ [.control .sum])).runFrom p = (.ok (.number 0), q) :=
    Expression.runFrom_unary he (f := .sum) rfl
  refine ⟨evaluateValue_of_ok htoken, fun op => Expression.evaluateValue_emptyList_unary he,
    fun op hbinary hop d c hc => ⟨?_, ?_⟩, evaluateValue_of_ok hsum, fun returnsArray => ⟨fun f hf => ?_, ?_⟩⟩
  · exact fun q' hd => Expression.evaluateValue_emptyList_left he hd hbinary hop hc
  · exact fun o v q' hd hv => Expression.evaluateValue_emptyList_right he hd hv hbinary hop hc
  · exact Expression.evaluateValue_emptyList_aggregate hf he returnsArray
  · exact Expression.evaluateValue_emptyList_average he returnsArray

/-- An area and a cell that a name stands for, and an area in other columns. -/
theorem evaluateValue_emptyIntersection_nameOfUnion :
    let s := Scope.withLevels {} .nameOfUnion 2
    let tokens := [.name 1, .area none (.relative 0 3) (.relative 2 4), .operator .intersect]
    (evaluateValue s tokens).runFrom 0 = (.ok (.error .null), 2) ∧
    (evaluateValue s (tokens ++ [.integer 1, .operator .add])).runFrom 0 = (.ok (.error .null), 2) ∧
    (evaluateValue s (tokens ++ [.control .sum])).runFrom 0 = (.ok (.number 0), 2) := by
  intro s tokens
  let first : List Reference := [.area none ⟨.relative 0 0, .relative 1 0⟩, .cell none (.relative 0 1)]
  let second : List Reference := [.area none ⟨.relative 0 3, .relative 2 4⟩]
  let operands := [Token.name 1, .area none (.relative 0 3) (.relative 2 4)]
  have hlists : (operands.mapM (Token.asReferences s false)).runFrom 0 = (.ok [first, second], 2) := rfl
  have hnormal : ∀ ref ∈ first ++ second, ref.Normal := by
    simp [first, second, Reference.Normal, Reference.range?, CellRange.Normal, CellRange.single, CellAddress.relative]
  have hdisjoint : ∀ cell, ¬(first.any (·.covers cell) ∧ second.any (·.covers cell)) := by
    intro cell
    simp [first, second, Reference.covers, Reference.range?, CellRange.contains_iff, CellRange.single,
      CellAddress.relative]
    omega
  obtain ⟨hvalue, -, hbinary, hsum, -⟩ := evaluateValue_emptyIntersection rfl rfl hlists hnormal hdisjoint
  exact ⟨hvalue, (hbinary .add rfl rfl (.operand (.integer 1) rfl) _ rfl).1 2 rfl, hsum⟩

/-- No aggregate of the areas A1:A2 and C1:C2, which have no cell in common, is #NULL!. -/
theorem evaluateValue_emptyIntersection_ne :
    let s := Scope.of {} (Resolver.blank (σ := Unit))
    let first := CellRange.between (.relative 0 0) (.relative 1 0)
    let second := CellRange.between (.relative 0 2) (.relative 1 2)
    (∀ cell, ¬(first.contains cell ∧ second.contains cell)) ∧
    ∀ f ∈ [.control .sum, .call Function.sum.id 1 false, .call Function.average.id 1 false,
        .call Function.min.id 1 false, .call Function.max.id 1 false],
      ((evaluateValue s [.area none first.start first.stop, .area none second.start second.stop, .operator .intersect,
        f]).runFrom ()).1 ≠ .ok (.error .null) := by
  intro s first second
  constructor
  · intro cell hcell
    have hoverlaps : first.overlaps second = true :=
      (CellRange.overlaps_iff (CellRange.normal_between ..) (CellRange.normal_between ..)).2 ⟨cell, hcell⟩
    revert hoverlaps
    decide
  · let e := Expression.node (.operator .intersect)
      ![.operand (.area none first.start first.stop) rfl, .operand (.area none second.start second.stop) rfl]
    have he : (e.evaluate s).runFrom () = (.ok (.references []), ()) := rfl
    have hcontrol : ((evaluateValue s (e.tokens ++ [.control .sum])).runFrom ()).1 = .ok (.number 0) :=
      congrArg Prod.fst (evaluateValue_of_ok (Expression.runFrom_unary he (f := .sum) rfl))
    have haggregate : ∀ f ∈ [Function.sum, .min, .max],
        ((evaluateValue s (e.tokens ++ [.call f.id 1 false])).runFrom ()).1 = .ok (.number 0) :=
      fun f hf => congrArg Prod.fst (Expression.evaluateValue_emptyList_aggregate hf he false)
    have haverage : ((evaluateValue s (e.tokens ++ [.call Function.average.id 1 false])).runFrom ()).1 =
        .ok (.error .div0) := congrArg Prod.fst (Expression.evaluateValue_emptyList_average he false)
    intro f hf
    simp only [List.mem_cons, List.not_mem_nil, or_false] at hf
    rcases hf with rfl | rfl | rfl | rfl | rfl
    · exact ne_of_eq_of_ne hcontrol (by simp)
    · exact ne_of_eq_of_ne (haggregate .sum (by decide)) (by simp)
    · exact ne_of_eq_of_ne haverage (by simp)
    · exact ne_of_eq_of_ne (haggregate .min (by decide)) (by simp)
    · exact ne_of_eq_of_ne (haggregate .max (by decide)) (by simp)

end Spreadsheet
