import Spreadsheet.Proofs.Evaluation.Entrywise
import Spreadsheet.Proofs.Evaluation.Expression

/-!
# Formulas of one step

The simplest formulas: a reference to a single cell, or one operator on values whose operands are references to single
cells and number literals.  As expressions they have at most one operation, which gets these operands as they are.
-/

namespace Spreadsheet

/-- References to single cells, and number literals. -/
def Token.isPlain : Token → Bool
  | cell .. | number _ | integer _ => true
  | _ => false

/-- A reference to a cell, or an operator on values with plain operands. -/
def isOneStep : List Token → Bool
  | [.cell ..] => true
  | [a, .operator op] => a.isPlain && op.isUnary
  | [a, b, .operator op] => a.isPlain && b.isPlain && !op.isUnary && !op.isReference
  | _ => false

theorem isOneStep_cases {tokens : List Token} (h : isOneStep tokens) :
    (∃ sheet a, tokens = [.cell sheet a]) ∨
    (∃ a op, tokens = [a, .operator op] ∧ a.isPlain ∧ op.isUnary) ∨
    ∃ a b op, tokens = [a, b, .operator op] ∧ a.isPlain ∧ b.isPlain ∧ op.isUnary = false ∧ op.isReference = false := by
  unfold isOneStep at h
  split at h
  · exact .inl ⟨_, _, rfl⟩
  · obtain ⟨ha, hop⟩ := Bool.and_eq_true_iff.1 h
    exact .inr (.inl ⟨_, _, rfl, ha, hop⟩)
  · simp only [Bool.and_eq_true, Bool.not_eq_true'] at h
    obtain ⟨⟨⟨ha, hb⟩, hop⟩, href⟩ := h
    exact .inr (.inr ⟨_, _, _, rfl, ha, hb, hop, href⟩)
  · cases h

variable {σ : Type} {s : Scope σ}

private theorem Token.isLeaf_of_isPlain {t : Token} (ht : t.isPlain) : t.isLeaf := by
  cases t with
  | cell sheet a => rfl
  | number x => rfl
  | integer n => rfl
  | _ => cases ht

theorem evaluateToken_reference (sheet : Option String) (a : CellAddress) :
    evaluateToken s [.cell sheet a] = pure (.cell sheet a) :=
  (Expression.operand (.cell sheet a) rfl).evaluateToken_tokens

theorem evaluateToken_unaryOperator {a : Token} {op : Operator} (ha : a.isPlain) (hop : op.isUnary) :
    evaluateToken s [a, .operator op] = (applyUnary s op a).trap := by
  have harity : (Operation.operator op).arity = 1 := if_pos hop
  refine (Expression.evaluateToken_unary harity (.operand a (Token.isLeaf_of_isPlain ha))).trans ?_
  show (applyOperator s op [a]).trap = _
  rw [applyOperator_unary hop]

theorem evaluateToken_binaryOperator {a b : Token} {op : Operator} (ha : a.isPlain) (hb : b.isPlain)
    (hop : op.isUnary = false) : evaluateToken s [a, b, .operator op] = (applyBinary s op a b).trap := by
  have harity : (Operation.operator op).arity = 2 := if_neg (by rw [hop]; decide)
  refine (Expression.evaluateToken_binary harity (.operand a (Token.isLeaf_of_isPlain ha))
    (.operand b (Token.isLeaf_of_isPlain hb))).trans ?_
  show (applyOperator s op [a, b]).trap = _
  rw [applyOperator_binary hop]

/-! ### What the operators give -/

/-- An operand whose value is known without a look at any cell, and which is not circular. -/
def Token.IsLiteral (t : Token) : Prop :=
  t.isCircular = false ∧ ∃ y, ∀ (σ : Type) (s : Scope σ), t.value s = pure y

theorem Token.isLiteral_ofValue (x : Value) : (Token.ofValue x).IsLiteral := by
  cases x <;> exact ⟨rfl, _, fun _ _ => rfl⟩

theorem isLiteral_negateInteger (n : Int) : (negateInteger n).IsLiteral := by
  unfold negateInteger
  split <;> exact ⟨rfl, _, fun _ _ => rfl⟩

private theorem isLiteral_concatenate (x y : Value) : (concatenate x y).IsLiteral := by
  unfold concatenate
  split
  · exact Token.isLiteral_ofValue (.error .value)
  · split
    · exact Token.isLiteral_ofValue (.error _)
    · exact Token.isLiteral_ofValue (.text _)

theorem Operator.isLiteral_onValues (settings : Settings) (op : Operator) (x y : Value) :
    (op.onValues settings x y).IsLiteral := by
  cases op with
  | concat => exact isLiteral_concatenate x y
  | _ => exact Token.isLiteral_ofValue _

private theorem Token.isError_of_isPlain {t : Token} (ht : t.isPlain) : t.isError = false := by
  cases t with
  | cell sheet a => rfl
  | number x => rfl
  | integer n => rfl
  | _ => cases ht

/-- The unary plus passes its operand on as it is; the other signs look at its value. -/
theorem applyUnary_plain {a : Token} (op : Operator) (ha : a.isPlain) :
    applyUnary s op a = pure a ∨
      ∃ g : Value → Token, (∀ x, (g x).IsLiteral) ∧ applyUnary s op a = g <$> a.value s := by
  unfold applyUnary
  rw [Token.isError_of_isPlain ha, Bool.or_false]
  by_cases hplus : op = .unaryPlus
  · exact .inl (if_pos (decide_eq_true hplus))
  · rw [if_neg (by simpa using hplus)]
    right
    split
    · rename_i n
      exact ⟨fun _ => negateInteger n, fun _ => isLiteral_negateInteger n, rfl⟩
    · refine ⟨fun x => .ofValue (x.mapElements (Arithmetic.unary s.settings op)),
        fun x => Token.isLiteral_ofValue _, ?_⟩
      unfold applySign
      rw [bind_pure_comp]

/-- An operator on values looks at the values of its operands, the left one first. -/
theorem applyBinary_plain {a b : Token} {op : Operator} (ha : a.isPlain) (hb : b.isPlain)
    (hop : op.isReference = false) :
    applyBinary s op a b = (fun x : Value × Value => op.onValues s.settings x.1 x.2) <$>
      (a.value s >>= fun x => Prod.mk x <$> b.value s) := by
  unfold applyBinary applyToValues
  rw [if_neg (by rw [hop]; decide)]
  simp only [List.find?_cons, List.find?_nil, Token.isError_of_isPlain ha, Token.isError_of_isPlain hb, map_bind,
    Functor.map_map, bind_pure_comp]

end Spreadsheet
