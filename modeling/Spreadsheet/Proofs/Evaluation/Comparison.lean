import Spreadsheet.Proofs.Evaluation.Dialogue
import Spreadsheet.Proofs.Evaluation.Entrywise
import Spreadsheet.Proofs.Evaluation.Within
import Spreadsheet.Proofs.Number.Order

/-!
# The comparisons of two scalars

What the six comparisons say of two scalars follows from the order of the two and from whether they count as the same
(`verdict`).  Texts that neither comes before the other are the same, and no others.  Two numbers count as the same if
they differ by less than the tolerance; but the order of the two is exact, so that numbers that differ, and count as the
same, are also less or greater (`areNear`).  For all other scalars the six comparisons fit together
(`consistent_iff_not_areNear`).
-/

namespace Spreadsheet

variable {σ : Type}

theorem Value.error?_eq_none {v : Value} (h : v.isError = false) : v.error? = none := by
  cases v with
  | error e => cases h
  | _ => rfl

namespace Comparison

/-- What the comparisons say of two operands in a given order that count as the same or not. -/
def verdict (o : Ordering) (same : Bool) : Operator → Bool
  | .equal => same
  | .notEqual => !same
  | .lessThan => o == .lt
  | .lessEqual => o != .gt
  | .greaterThan => o == .gt
  | .greaterEqual => o != .lt
  | _ => false

/-- The six comparisons fit together. -/
structure Consistent (holds : Operator → Bool) : Prop where
  oneOfThree : [holds .lessThan, holds .equal, holds .greaterThan].count true = 1
  lessEqual : holds .lessEqual = (holds .lessThan || holds .equal)
  greaterEqual : holds .greaterEqual = (holds .greaterThan || holds .equal)
  notEqual : holds .notEqual = !holds .equal

/-- Two values that compare as different numbers, but as numbers that differ by less than the tolerance. -/
def areNear (v w : Value) : Bool :=
  match numbers? v w with
  | some (x, y) => x != y && (x - y).abs < tolerance
  | none => false

/-! ### Numbers and texts -/

variable {op : Operator} {v w : Value} {x y : Float} {o : Ordering}

/-- The comparisons fit together if the operands that count as the same are those of which neither comes first. -/
theorem consistent_verdict_iff (o : Ordering) (same : Bool) : Consistent (verdict o same) ↔ same = (o == .eq) := by
  constructor
  · intro h
    have hcount := h.oneOfThree
    cases o <;> cases same <;> first | rfl | cases hcount
  · rintro rfl
    cases o <;> constructor <;> rfl

private theorem compareOrder_eq (hop : op.isComparison) (o : Ordering) :
    compareOrder op o = some (verdict o (o == .eq) op) := by
  cases op with
  | lessThan | lessEqual | equal | greaterEqual | greaterThan | notEqual => rfl
  | _ => cases hop

private theorem isFinite_tolerance : tolerance.isFinite := by
  decide +kernel

private theorem zero_lt_tolerance : 0 < tolerance := by
  decide +kernel

theorem compareNumbers_eq (hop : op.isComparison) (hx : x.isFinite) (hy : y.isFinite)
    (ho : Number.order? x y = some o) :
    compareNumbers op x y = some (verdict o (decide ((x - y).abs < tolerance)) op) := by
  obtain ⟨d, hd⟩ := Number.exists_order?_abs_sub hx hy isFinite_tolerance
  have hne : decide ((x - y).abs ≥ tolerance) = !decide ((x - y).abs < tolerance) := by
    rw [← decide_not]
    refine decide_eq_decide.2 ?_
    rw [Number.ge_iff_of_order? hd, Number.lt_iff_of_order? hd]
  cases op with
  | equal => rfl
  | notEqual => exact congrArg some hne
  | lessThan => exact congrArg some (decide_eq_decide.2 (Number.lt_iff_of_order? ho))
  | greaterThan => exact congrArg some (decide_eq_decide.2 (Number.gt_iff_of_order? ho))
  | lessEqual => exact congrArg some ((decide_eq_decide.2 (Number.le_iff_of_order? ho)).trans decide_not)
  | greaterEqual => exact congrArg some ((decide_eq_decide.2 (Number.ge_iff_of_order? ho)).trans decide_not)
  | _ => cases hop

private theorem isFinite_of_numeric? (hv : v.Within (·.isFinite)) (h : numeric? v = some x) : x.isFinite := by
  cases hv with
  | number hx =>
    obtain rfl := Option.some.inj h
    exact hx
  | boolean b =>
    obtain rfl := Option.some.inj h
    cases b <;> decide +kernel
  | text s => exact Number.isFinite_ofText? h
  | empty | error | array => cases h

private theorem isFinite_of_numbers? (hv : v.Within (·.isFinite)) (hw : w.Within (·.isFinite))
    (h : numbers? v w = some (x, y)) : x.isFinite ∧ y.isFinite := by
  have hzero : (0 : Float).isFinite := by decide +kernel
  unfold numbers? at h
  split at h
  · rename_i x' y' hx hy
    cases h
    exact ⟨isFinite_of_numeric? hv hx, isFinite_of_numeric? hw hy⟩
  · rename_i hy
    cases h
    exact ⟨hzero, isFinite_of_numeric? hw hy⟩
  · rename_i hx _
    cases h
    exact ⟨isFinite_of_numeric? hv hx, hzero⟩
  · cases h

/-- Two scalars that are no errors have an order, and count as the same if neither comes first, or else if they are near
each other. -/
theorem exists_verdict (hv : v.isError = false) (hw : w.isError = false) (hfv : v.Within (·.isFinite))
    (hfw : w.Within (·.isFinite)) :
    ∃ o, (areNear v w = true → o ≠ .eq) ∧
      ∀ op : Operator, op.isComparison → scalars op v w = .boolean (verdict o (o == .eq || areNear v w) op) := by
  have hnone : v.error?.or w.error? = none := by
    rw [Value.error?_eq_none hv, Value.error?_eq_none hw]
    rfl
  cases hnumbers : numbers? v w with
  | none =>
    have hfar : areNear v w = false := by rw [areNear, hnumbers]
    refine ⟨compare (key v) (key w), fun h => absurd (hfar.symm.trans h) Bool.false_ne_true, fun op hop => ?_⟩
    unfold scalars
    rw [hnone, hnumbers, hfar, Bool.or_false]
    dsimp only
    rw [compareOrder_eq hop]
  | some xy =>
    obtain ⟨x, y⟩ := xy
    obtain ⟨hx, hy⟩ := isFinite_of_numbers? hfv hfw hnumbers
    obtain ⟨o, ho⟩ := Number.exists_order? hx hy
    have hnear : areNear v w = (o != .eq && decide ((x - y).abs < tolerance)) := by
      have hsame : (x == y) = (o == .eq) := by
        rw [Bool.eq_iff_iff, Number.beq_iff, ho, Option.some.injEq, beq_iff_eq]
      rw [areNear, hnumbers]
      dsimp only
      rw [bne, hsame, bne]
    refine ⟨o, fun h => ?_, fun op hop => ?_⟩
    · rintro rfl
      rw [hnear] at h
      cases h
    · -- Equal numbers have no distance, and so count as the same.
      have hsame : decide ((x - y).abs < tolerance) = (o == .eq || areNear v w) := by
        rw [hnear]
        by_cases heq : o = .eq
        · subst heq
          rw [Number.abs_sub_eq_zero hx ho]
          exact decide_eq_true zero_lt_tolerance
        · rw [bne, beq_false_of_ne heq]
          rfl
      unfold scalars
      rw [hnone, hnumbers]
      dsimp only
      rw [compareNumbers_eq hop hx hy ho, hsame]

/-! ### Comparisons of operands -/

variable {s : Scope σ} {p p' p'' : σ} {a b : Token}

private theorem values_of_scalars (hv : v.isArray = false) (hw : w.isArray = false) :
    values op v w = scalars op v w := by
  unfold values
  rw [isEmptyTable_of_scalar hv, isEmptyTable_of_scalar hw, Bool.or_self, Bool.and_false, if_neg Bool.false_ne_true,
    Value.broadcast_of_scalars _ hv hw]

/-- Operands that have values, and these no errors, are compared by their values. -/
theorem runFrom_applyOperator (hop : op.isComparison) (ha : (a.value s).runFrom p = (.ok v, p'))
    (hb : (b.value s).runFrom p' = (.ok w, p'')) (hv : v.isError = false) (hw : w.isError = false) :
    (applyOperator s op [a, b]).runFrom p = (.ok (.ofValue (values op v w)), p'') := by
  have herror : ∀ {t : Token} {v : Value} {p p' : σ}, (t.value s).runFrom p = (.ok v, p') → v.isError = false →
      t.isError = false := by
    intro t v p p' ht hv
    cases t with
    | error e =>
      cases ht
      cases hv
    | _ => rfl
  have hbinary : op.isUnary = false ∧ op.isReference = false := by
    cases op <;> first | exact ⟨rfl, rfl⟩ | cases hop
  have hresult : op.onValues s.settings v w = .ofValue (values op v w) := by
    cases op <;> first | rfl | cases hop
  rw [applyOperator_of_not_isError hbinary.1 hbinary.2 (herror ha hv) (herror hb hw), applyToValues, Eval.runFrom_bind,
    ha]
  dsimp only
  rw [Eval.runFrom_bind, hb, ← hresult]
  rfl

/-- All comparisons of two scalars, finite and no errors, have an outcome.  They fit together unless the two are near each
other, in which case the two count as the same although one comes before the other. -/
theorem consistent_iff_not_areNear (ha : (a.value s).runFrom p = (.ok v, p'))
    (hb : (b.value s).runFrom p' = (.ok w, p'')) (hv : v.isArray = false) (hw : w.isArray = false)
    (hev : v.isError = false) (hew : w.isError = false) (hfv : v.Within (·.isFinite)) (hfw : w.Within (·.isFinite)) :
    ∃ holds : Operator → Bool,
      (∀ op : Operator, op.isComparison → (applyOperator s op [a, b]).runFrom p = (.ok (.boolean (holds op)), p'')) ∧
      (Consistent holds ↔ areNear v w = false) ∧
      (areNear v w = true →
        holds .equal = true ∧ holds .notEqual = false ∧ holds .greaterThan = !holds .lessThan ∧
        holds .lessEqual = holds .lessThan ∧ holds .greaterEqual = holds .greaterThan) := by
  obtain ⟨o, hne, ho⟩ := exists_verdict hev hew hfv hfw
  refine ⟨verdict o (o == .eq || areNear v w), fun op hop => ?_, ?_, fun hnear => ?_⟩
  · rw [runFrom_applyOperator hop ha hb hev hew, values_of_scalars hv hw, ho op hop]
    rfl
  · rw [consistent_verdict_iff]
    cases hnear : areNear v w with
    | false => simp
    | true => simp [hne hnear]
  · rw [hnear, Bool.or_true]
    cases o with
    | eq => exact absurd rfl (hne hnear)
    | lt | gt => exact ⟨rfl, rfl, rfl, rfl, rfl⟩

/-- A text that reads as a number, and a reference to a blank cell. -/
theorem consistent_blankCell :
    let s : Scope Unit := ⟨{}, Resolver.blank, none⟩
    ∃ holds : Operator → Bool, Consistent holds ∧ ∀ op : Operator, op.isComparison →
      (applyOperator s op [.text "0.5", .cell none (.relative 2 0)]).runFrom () = (.ok (.boolean (holds op)), ()) := by
  intro s
  obtain ⟨holds, hrun, hconsistent, -⟩ := consistent_iff_not_areNear (s := s) (p := ()) (a := .text "0.5")
    (b := .cell none (.relative 2 0)) rfl rfl rfl rfl rfl rfl (.text _) .empty
  exact ⟨holds, hconsistent.2 (by decide +kernel), hrun⟩

/-- A number a little greater than one is equal to one and greater than one. -/
theorem not_consistent_neighbours :
    ∃ holds : Operator → Bool,
      (∀ op : Operator, op.isComparison →
        (applyOperator ⟨{}, Resolver.blank, none⟩ op [.number 1.000000001, .integer 1]).runFrom () =
          (.ok (.boolean (holds op)), ())) ∧
      holds .equal = true ∧ holds .greaterThan = true ∧ ¬ Consistent holds := by
  refine ⟨verdict .gt true, fun op hop => ?_, rfl, rfl, fun h => ?_⟩
  · have hnumbers : compareNumbers op 1.000000001 (Float.ofInt 1) = some (verdict .gt true op) := by
      cases op with
      | lessThan | lessEqual | equal | greaterEqual | greaterThan | notEqual => decide +kernel
      | _ => cases hop
    have hscalars : scalars op (.number 1.000000001) (.number (Float.ofInt 1)) = .boolean (verdict .gt true op) := by
      unfold scalars
      simp only [Value.error?, Option.or, numbers?, numeric?, Value.number?, hnumbers]
    rw [runFrom_applyOperator hop rfl rfl rfl rfl, values_of_scalars rfl rfl, hscalars]
    rfl
  · exact absurd ((consistent_verdict_iff .gt true).1 h) (by decide)

end Comparison

end Spreadsheet
