import Spreadsheet.Proofs.Evaluation.Entrywise
import Spreadsheet.Proofs.Evaluation.Expression
import Spreadsheet.Proofs.Evaluation.OneStep

/-!
# The first error

An operator on values passes an error operand on as it is, the left one before the right one (`applyOperator_of_find?`).
Thus the value of an expression is the first error, in the order of evaluation, among the values of its subexpressions
(`Expression.HasValues.find?_subexpressions`): one that is written out, or that of an operator that fails on operands
none of which is an error (`Expression.firstError`).  Only the power makes an error of its own out of an error operand, and is left out.

Expressions without references are constant: their values depend on the settings only (`Expression.exists_values`).
-/

namespace Spreadsheet

variable {σ : Type} {s : Scope σ} {settings : Settings} {op : Operator} {args : List Token} {t : Token}

/-! ### Operators on operands -/

namespace Operator

/-- The operators that pass errors on: those on values, but for the power. -/
def passesErrors (op : Operator) : Bool :=
  !op.isReference && op != .power

private theorem isReference_of_passesErrors (hop : op.passesErrors) : op.isReference = false := by
  cases op with
  | intersect | union | range => cases hop
  | _ => rfl

private theorem ne_power_of_passesErrors (hop : op.passesErrors) : op ≠ .power := by
  rintro rfl
  cases hop

end Operator

/-- As many operands as an operator takes. -/
theorem operands_cases (h : args.length = op.arity) :
    (op.isUnary = true ∧ ∃ a, args = [a]) ∨ (op.isUnary = false ∧ ∃ a b, args = [a, b]) := by
  unfold Operator.arity at h
  cases hunary : op.isUnary with
  | true =>
    rw [hunary] at h
    exact .inl ⟨rfl, List.length_eq_one_iff.1 h⟩
  | false =>
    rw [hunary] at h
    exact .inr ⟨rfl, List.length_eq_two.1 h⟩

/-- The first error operand is passed on; only a power makes an error of its own of it. -/
theorem applyOperator_of_find? (hop : op.isReference = false) (hlength : args.length = op.arity)
    (h : args.find? Token.isError = some t) :
    applyOperator s op args = pure (if op = .power then .ofCode .value else t) := by
  rcases operands_cases hlength with ⟨hunary, a, rfl⟩ | ⟨hbinary, a, b, rfl⟩
  · have ha : a.isError = true ∧ a = t := by
      cases he : a.isError with
      | true => exact ⟨rfl, Option.some.inj ((List.find?_cons_of_pos he).symm.trans h)⟩
      | false => simp [he] at h
    have hpower : op ≠ .power := by
      rintro rfl
      cases hunary
    rw [applyOperator_unary hunary, if_neg hpower, ← ha.2]
    exact if_pos (by rw [ha.1, Bool.or_true])
  · rw [applyOperator_binary hbinary, applyBinary, if_neg (by simp [hop]), h]

/-- The value of the operand is known without asking any cell. -/
def Token.IsKnown (t : Token) : Prop :=
  ∃ y, ∀ (σ : Type) (s : Scope σ), t.value s = pure y

private theorem Token.isKnown_of_leaf (leaf : t.isLeaf) (h : t.isReference = false) : t.IsKnown := by
  cases t with
  | cell | area | name | references => cases h
  | shared | operator | control | call => cases leaf
  | _ => exact ⟨_, fun _ _ => rfl⟩

/-- The computation gives a known operand, the same one in all scopes with the settings. -/
def GivesKnown (settings : Settings) (x : ∀ σ : Type, Scope σ → Eval σ Token) : Prop :=
  ∃ t : Token, t.IsKnown ∧ ∀ (σ : Type) (s : Scope σ), s.settings = settings → x σ s = pure t

private theorem applyUnary_givesKnown (settings : Settings) (op : Operator) {a : Token} (herror : a.isError = false)
    (ha : a.IsKnown) : GivesKnown settings fun _ s => applyUnary s op a := by
  simp only [applyUnary, herror, Bool.or_false]
  by_cases hplus : op = .unaryPlus
  · simp only [hplus, decide_true, if_true]
    exact ⟨a, ha, fun σ s hs => rfl⟩
  · simp only [hplus, decide_false, Bool.false_eq_true, if_false]
    obtain ⟨v, hv⟩ := ha
    split
    · exact ⟨_, (isLiteral_negateInteger _).2, fun σ s hs => rfl⟩
    · refine ⟨.ofValue (v.mapElements (Arithmetic.unary settings op)), (Token.isLiteral_ofValue _).2, fun σ s hs => ?_⟩
      dsimp only
      rw [applySign, hv, pure_bind, hs]

private theorem applyToValues_givesKnown (settings : Settings) (op : Operator) {a b : Token} (ha : a.IsKnown)
    (hb : b.IsKnown) : GivesKnown settings fun _ s => applyToValues s op a b := by
  obtain ⟨v, hv⟩ := ha
  obtain ⟨w, hw⟩ := hb
  refine ⟨op.onValues settings v w, (op.isLiteral_onValues settings v w).2, fun σ s hs => ?_⟩
  dsimp only
  rw [applyToValues, hv, hw, pure_bind, pure_bind, hs]

private theorem applyOperator_givesKnown (settings : Settings) (hop : op.passesErrors)
    (hlength : args.length = op.arity)
    (hargs : ∀ a ∈ args, a.IsKnown) : GivesKnown settings fun _ s => applyOperator s op args := by
  have href := op.isReference_of_passesErrors hop
  cases herror : args.find? Token.isError with
  | some t =>
    refine ⟨t, hargs t (List.mem_of_find?_eq_some herror), fun σ s hs => ?_⟩
    dsimp only
    rw [applyOperator_of_find? href hlength herror, if_neg (op.ne_power_of_passesErrors hop)]
  | none =>
    have hnone : ∀ a ∈ args, a.isError = false := by simpa using herror
    rcases operands_cases hlength with ⟨hunary, a, rfl⟩ | ⟨hbinary, a, b, rfl⟩
    · have ha := List.mem_singleton_self a
      simp only [applyOperator_unary hunary]
      exact applyUnary_givesKnown settings op (hnone a ha) (hargs a ha)
    · have ha : a ∈ [a, b] := List.mem_cons_self ..
      have hb : b ∈ [a, b] := List.mem_cons_of_mem _ (List.mem_singleton_self b)
      simp only [applyOperator_of_not_isError hbinary href (hnone a ha) (hnone b hb)]
      exact applyToValues_givesKnown settings op (hargs a ha) (hargs b hb)

/-! ### Expressions -/

namespace Expression

/-- All subexpressions in the order of evaluation, the expression itself last. -/
def subexpressions : Expression → List Expression
  | operand t leaf => [operand t leaf]
  | node f children => ((List.finRange f.arity).flatMap fun i => (children i).subexpressions) ++ [node f children]

/-- The operations of the expression are these operators only, and its leaves these operands. -/
def BuiltFrom (operators : Operator → Bool) (operands : Token → Bool) : Expression → Prop
  | operand t _ => operands t
  | node (.operator op) children => operators op ∧ ∀ i, (children i).BuiltFrom operators operands
  | node _ _ => False

/-- An expression of operators that pass errors on, without references. -/
def IsConstant (e : Expression) : Prop :=
  e.BuiltFrom Operator.passesErrors fun t => !t.isReference

/-- The expressions have these values under the settings, whatever the cells hold. -/
def HasValues (settings : Settings) (value : Expression → Token) : Prop :=
  ∀ e : Expression, e.IsConstant → ∀ (σ : Type) (s : Scope σ), s.settings = settings → e.evaluate s = pure (value e)

/-- The values of the children of a node. -/
def childValues (value : Expression → Token) {f : Operation} (children : Fin f.arity → Expression) : List Token :=
  (List.finRange f.arity).map fun i => value (children i)

/-- An expression that brings an error in: an error that is written out, or an operation that fails on operands none of
which is an error. -/
def BringsIn (value : Expression → Token) : Expression → Prop
  | operand t _ => t.isError
  | node f children => (value (node f children)).isError ∧ ∀ i, (value (children i)).isError = false

private theorem self_mem_subexpressions (e : Expression) : e ∈ e.subexpressions := by
  cases e with
  | operand t leaf => exact List.mem_singleton_self _
  | node f children => exact List.mem_append_right _ (List.mem_singleton_self _)

section

variable {operators : Operator → Bool} {operands : Token → Bool}

private theorem BuiltFrom.child {f : Operation} {children : Fin f.arity → Expression}
    (he : (node f children).BuiltFrom operators operands) (i : Fin f.arity) :
    (children i).BuiltFrom operators operands := by
  cases f with
  | operator op => exact he.2 i
  | sum | call => exact he.elim

private theorem BuiltFrom.of_mem {d e : Expression} (he : e.BuiltFrom operators operands) (hd : d ∈ e.subexpressions) :
    d.BuiltFrom operators operands := by
  induction e with
  | operand t leaf =>
    obtain rfl := List.mem_singleton.1 hd
    exact he
  | node f children ih =>
    rcases List.mem_append.1 hd with hd | hd
    · obtain ⟨i, -, hd⟩ := List.mem_flatMap.1 hd
      exact ih i (he.child i) hd
    · obtain rfl := List.mem_singleton.1 hd
      exact he

end

theorem length_map_finRange {α : Type} {n : Nat} (f : Fin n → α) : ((List.finRange n).map f).length = n :=
  (List.length_map ..).trans (List.length_finRange ..)

theorem evaluate_node {f : Operation} {children : Fin f.arity → Expression} {ts : Fin f.arity → Token}
    (h : ∀ i, (children i).evaluate s = pure (ts i)) :
    (node f children).evaluate s = (f.apply s ((List.finRange f.arity).map ts)).trap := by
  rw [evaluate, show (fun i => (children i).evaluate s) = fun i => pure (ts i) from funext h, List.mapM_pure, pure_bind]

private theorem evaluate_givesKnown (settings : Settings) {e : Expression} (he : e.IsConstant) :
    GivesKnown settings fun _ s => e.evaluate s := by
  induction e with
  | operand t leaf =>
    have hreference : t.isReference = false := by simpa [IsConstant, BuiltFrom] using he
    exact ⟨t, Token.isKnown_of_leaf leaf hreference, fun σ s hs => rfl⟩
  | node f children ih =>
    cases f with
    | operator op =>
      choose ts hknown hts using fun i => ih i (he.2 i)
      have hargs : ∀ a ∈ (List.finRange op.arity).map ts, a.IsKnown := by
        intro a ha
        obtain ⟨i, -, rfl⟩ := List.mem_map.1 ha
        exact hknown i
      obtain ⟨t, ht, happly⟩ := applyOperator_givesKnown settings he.1 (length_map_finRange ts) hargs
      refine ⟨t, ht, fun σ s hs => ?_⟩
      dsimp only
      rw [evaluate_node fun i => hts i σ s hs]
      exact (congrArg Eval.trap (happly σ s hs)).trans (Eval.trap_pure t)
    | sum | call => exact he.elim

theorem exists_values (settings : Settings) : ∃ value, HasValues settings value := by
  have h : ∀ e : Expression, ∃ t : Token, e.IsConstant →
      ∀ (σ : Type) (s : Scope σ), s.settings = settings → e.evaluate s = pure t := by
    intro e
    by_cases he : e.IsConstant
    · obtain ⟨t, -, ht⟩ := evaluate_givesKnown settings he
      exact ⟨t, fun _ => ht⟩
    · exact ⟨.blank, fun h => absurd h he⟩
  choose value hvalue using h
  exact ⟨value, hvalue⟩

variable {value : Expression → Token} {e : Expression}

/-- There is no other value. -/
theorem HasValues.eq (hvalue : HasValues settings value) (he : e.IsConstant)
    (h : e.evaluate ⟨settings, Resolver.blank (σ := Unit), none⟩ = pure t) : value e = t := by
  have hpure : (pure (value e) : Eval Unit Token) = pure t := (hvalue e he Unit _ rfl).symm.trans h
  have hrun : (Except.ok (value e), ()) = ((Except.ok t, ()) : Except FormulaError Token × Unit) :=
    congrArg (·.runFrom ()) hpure
  exact Except.ok.inj (Prod.ext_iff.1 hrun).1

/-- An operator has the value of its first operand that is an error. -/
theorem HasValues.node (hvalue : HasValues settings value) {f : Operation} {children : Fin f.arity → Expression}
    (he : (node f children).IsConstant)
    (h : (childValues value children).find? Token.isError = some t) : value (node f children) = t := by
  cases f with
  | operator op =>
    refine hvalue.eq he ?_
    rw [evaluate_node fun i => hvalue _ (he.2 i) _ _ rfl]
    refine (congrArg Eval.trap ?_).trans (Eval.trap_pure t)
    refine (applyOperator_of_find? (op.isReference_of_passesErrors he.1) (length_map_finRange _) h).trans ?_
    rw [if_neg (op.ne_power_of_passesErrors he.1)]
  | sum | call => exact he.elim

/-- Among the values of all subexpressions in the order of evaluation, the first error is that of the expression. -/
theorem HasValues.find?_subexpressions (hvalue : HasValues settings value) (he : e.IsConstant) :
    (e.subexpressions.map value).find? Token.isError = [value e].find? Token.isError := by
  induction e with
  | operand t leaf => rfl
  | node f children ih =>
    have hbelow : (((List.finRange f.arity).flatMap fun i => (children i).subexpressions).map value).find?
        Token.isError = (childValues value children).find? Token.isError := by
      unfold childValues
      induction List.finRange f.arity with
      | nil => rfl
      | cons i rest ihrest =>
        rw [List.flatMap_cons, List.map_append, List.find?_append, ih i (he.child i), ihrest, ← List.find?_append]
        rfl
    rw [subexpressions, List.map_append, List.find?_append, hbelow]
    cases hfirst : (childValues value children).find? Token.isError with
    | none => rfl
    | some t =>
      have ht : t.isError = true := List.find?_some hfirst
      rw [hvalue.node he hfirst, List.find?_cons_of_pos ht]
      rfl

/-- The first subexpression whose value is an error brings this error in. -/
theorem HasValues.bringsIn (hvalue : HasValues settings value) (he : e.IsConstant) {d : Expression}
    (h : e.subexpressions.find? (fun d => (value d).isError) = some d) : d.BringsIn value := by
  induction e with
  | operand t leaf =>
    obtain rfl := List.mem_singleton.1 (List.mem_of_find?_eq_some h)
    have ht := List.find?_some h
    rwa [hvalue.eq he rfl] at ht
  | node f children ih =>
    rw [subexpressions, List.find?_append, List.find?_flatMap] at h
    cases hbelow : (List.finRange f.arity).findSome? fun i =>
        (children i).subexpressions.find? fun d => (value d).isError with
    | some d' =>
      rw [hbelow] at h
      obtain rfl := Option.some.inj h
      obtain ⟨i, -, hi⟩ := List.exists_of_findSome?_eq_some hbelow
      exact ih i (he.child i) hi
    | none =>
      rw [hbelow, Option.none_or] at h
      obtain rfl := List.mem_singleton.1 (List.mem_of_find?_eq_some h)
      have herror := List.find?_some h
      refine ⟨herror, fun i => ?_⟩
      have hnone := List.findSome?_eq_none_iff.1 hbelow i (List.mem_finRange i)
      simpa using List.find?_eq_none.1 hnone _ (self_mem_subexpressions _)

/-- An expression without references has a value whatever the cells hold, and so have its subexpressions.  An operator has
the value of its first operand that is an error.  If an error is written out anywhere then the value of the expression is
an error; and if it is an error, then it is that of the first subexpression whose value is one, which is an error that is
written out or an operator that fails on its own. -/
theorem firstError (settings : Settings) (he : e.IsConstant) :
    ∃ value : Expression → Token,
      (∀ d ∈ e.subexpressions, ∀ (σ : Type) (s : Scope σ), s.settings = settings →
        evaluateToken s d.tokens = pure (value d)) ∧
      (∀ f children t, node f children ∈ e.subexpressions →
        (childValues value children).find? Token.isError = some t → value (node f children) = t) ∧
      (∀ t leaf, operand t leaf ∈ e.subexpressions → t.isError → (value e).isError) ∧
      ((value e).isError → ∃ d, e.subexpressions.find? (fun d => (value d).isError) = some d ∧
        d.BringsIn value ∧ value e = value d) := by
  obtain ⟨value, hvalue⟩ := exists_values settings
  have hfirst := hvalue.find?_subexpressions he
  refine ⟨value, fun d hd σ s hs => ?_, fun f children t hnode ht => ?_, fun t leaf ht herror => ?_, fun herror => ?_⟩
  · rw [evaluateToken_tokens, hvalue d (he.of_mem hd) σ s hs]
  · exact hvalue.node (he.of_mem hnode) ht
  · by_contra hnot
    have hnone : [value e].find? Token.isError = none := by simpa using hnot
    have hleaf : (value (operand t leaf)).isError = true := by rwa [hvalue.eq (he.of_mem ht) rfl]
    exact List.find?_eq_none.1 (hfirst.trans hnone) _ (List.mem_map_of_mem ht) hleaf
  · rw [List.find?_cons_of_pos herror, List.find?_map, Option.map_eq_some_iff] at hfirst
    obtain ⟨d, hd, heq⟩ := hfirst
    exact ⟨d, hd, hvalue.bringsIn he hd, heq.symm⟩

/-- A sum of a table with an error in it, joined to the negative of an error. -/
def tableAndError : Expression :=
  .node (.operator .concat) ![
    .node (.operator .add) ![.operand (.array [[.number 1, .error .na]]) rfl, .operand (.integer 1) rfl],
    .node (.operator .unaryMinus) ![.operand (.error .ref true) rfl]]

/-- The entry of the table does not hide the error. -/
theorem firstError_tableAndError :
    tableAndError.IsConstant ∧ ∃ t : Token, t.isError ∧
      ∀ (σ : Type) (s : Scope σ), s.settings = {} → evaluateToken s tableAndError.tokens = pure t := by
  have he : tableAndError.IsConstant := by
    refine ⟨rfl, Fin.forall_fin_two.2 ⟨⟨rfl, Fin.forall_fin_two.2 ⟨rfl, rfl⟩⟩, rfl, Fin.forall_fin_one.2 rfl⟩⟩
  have hmem : operand (.error .ref true) rfl ∈ tableAndError.subexpressions :=
    .tail _ (.tail _ (.tail _ (.head _)))
  obtain ⟨value, hvalue, -, herror, -⟩ := firstError {} he
  exact ⟨he, value tableAndError, herror _ _ hmem rfl, hvalue _ (self_mem_subexpressions _)⟩

end Expression

end Spreadsheet
