import Spreadsheet.Proofs.Evaluation.AnyResolver
import Spreadsheet.Proofs.Evaluation.Comparison

/-!
# Comparing the other way round

A comparison and its mirror image (`Operator.mirror`) say the same if the operands change sides
(`applyOperator_mirror`).  For two scalars this is so because the distance of two numbers is the same in both directions,
and the order of two texts the reverse one (`Comparison.scalars_mirror`); for tables of the same shape, because all of
their entries are compared in the same places (`Value.broadcast_comm`).  The two operands are resolved in the other order,
which is why the resolver has to answer a question in the same way whenever it is asked.
-/

namespace Spreadsheet

/-- The comparison that says the same of two operands that have changed sides. -/
def Operator.mirror : Operator → Operator
  | lessThan => greaterThan
  | lessEqual => greaterEqual
  | greaterThan => lessThan
  | greaterEqual => lessEqual
  | op => op

variable {op : Operator} {v w : Value}

private theorem Operator.isComparison_mirror (hop : op.isComparison) : op.mirror.isComparison := by
  cases op with
  | lessThan | lessEqual | equal | greaterEqual | greaterThan | notEqual => rfl
  | _ => cases hop

/-! ### Scalars -/

namespace Comparison

private theorem numbers?_comm (v w : Value) : numbers? w v = (numbers? v w).map Prod.swap := by
  unfold numbers?
  cases numeric? v with
  | none =>
    cases numeric? w with
    | none => cases v <;> cases w <;> rfl
    | some y => cases v <;> cases w <;> rfl
  | some x =>
    cases numeric? w with
    | none => cases v <;> cases w <;> rfl
    | some y => rfl

private theorem compareNumbers_mirror (op : Operator) (x y : Float) :
    compareNumbers op.mirror y x = compareNumbers op x y := by
  cases op with
  | equal | notEqual =>
    unfold compareNumbers Operator.mirror
    dsimp only
    rw [Number.abs_sub_comm]
  | _ => rfl

private theorem compareOrder_mirror (op : Operator) (o : Ordering) :
    compareOrder op.mirror o.swap = compareOrder op o := by
  cases op <;> cases o <;> rfl

theorem scalars_mirror (hv : v.isError = false) (hw : w.isError = false) : scalars op.mirror w v = scalars op v w := by
  unfold scalars
  rw [Value.error?_eq_none hv, Value.error?_eq_none hw, numbers?_comm]
  cases numbers? v w with
  | none =>
    have hcompare : compare (key w) (key v) = (compare (key v) (key w)).swap := Std.OrientedOrd.eq_swap
    dsimp only [Option.map_none, Option.or_none]
    rw [hcompare, compareOrder_mirror]
  | some xy =>
    dsimp only [Option.map_some, Option.or_none, Prod.fst_swap, Prod.snd_swap]
    rw [compareNumbers_mirror]

end Comparison

/-! ### Tables -/

namespace Value

/-- The lengths of the rows of a table. -/
def shape : Value → List Nat
  | array rows => rows.map List.length
  | _ => []

private theorem length_elements_congr (hv : v.isArray) (hw : w.isArray) (hshape : v.shape = w.shape) :
    v.elements.length = w.elements.length := by
  cases v with
  | array rows =>
    cases w with
    | array rows' =>
      show rows.flatten.length = rows'.flatten.length
      rw [List.length_flatten, List.length_flatten]
      exact congrArg List.sum hshape
    | _ => cases hw
  | _ => cases hv

private theorem columns_congr (hv : v.isArray) (hw : w.isArray) (hshape : v.shape = w.shape) :
    v.columns = w.columns := by
  have hcolumns : ∀ rows, (array rows).columns = (rows.map List.length).headD 0 := by
    intro rows
    cases rows <;> rfl
  cases v with
  | array rows =>
    cases w with
    | array rows' =>
      rw [hcolumns, hcolumns]
      exact congrArg (·.headD 0) hshape
    | _ => cases hw
  | _ => cases hv

private theorem isError_of_elements (h : ∀ x ∈ v.elements, x.isError = false) : v.isError = false := by
  cases v with
  | array rows => rfl
  | _ => exact h _ (List.mem_singleton_self _)

private theorem isError_entry (h : ∀ x ∈ v.elements, x.isError = false) (i : Nat) : (v.entry i).isError = false := by
  cases v with
  | array rows =>
    show (rows.flatten[i]?.getD empty).isError = false
    cases hx : rows.flatten[i]? with
    | none => rfl
    | some x => exact h x (List.mem_of_getElem? hx)
  | _ => exact h _ (List.mem_singleton_self _)

/-- A rule for scalars and another one that gives the same for operands that have changed sides. -/
theorem broadcast_comm {f g : Value → Value → Value} (hshape : v.isArray → w.isArray → v.shape = w.shape)
    (h : ∀ i, g (w.entry i) (v.entry i) = f (v.entry i) (w.entry i)) : broadcast g w v = broadcast f v w := by
  have hentries : (fun i => g (w.entry i) (v.entry i)) = fun i => f (v.entry i) (w.entry i) := funext h
  cases hv : v.isArray with
  | false =>
    cases hw : w.isArray with
    | false =>
      have hscalars := h 0
      rw [entry_of_scalar hv, entry_of_scalar hw] at hscalars
      rw [broadcast_of_scalars _ hw hv, broadcast_of_scalars _ hv hw, hscalars]
    | true => rw [broadcast_left g hw (fun h => by simp [hv] at h), broadcast_right f hv hw, hentries]
  | true =>
    cases hw : w.isArray with
    | false => rw [broadcast_right g hw hv, broadcast_left f hv (fun h => by simp [hw] at h), hentries]
    | true =>
      have hlength := length_elements_congr hv hw (hshape hv hw)
      rw [broadcast_left g hw fun _ => hlength, broadcast_left f hv fun _ => hlength.symm, hentries, tabulate, tabulate,
        hlength, columns_congr hv hw (hshape hv hw)]

end Value

private theorem Comparison.values_mirror (hshape : v.isArray → w.isArray → v.shape = w.shape)
    (hv : ∀ x ∈ v.elements, x.isError = false) (hw : ∀ x ∈ w.elements, x.isError = false) :
    values op.mirror w v = values op v w := by
  have hequal : (op.mirror = .equal ∨ op.mirror = .notEqual) ↔ (op = .equal ∨ op = .notEqual) := by
    cases op <;> decide
  have hbroadcast := Value.broadcast_comm (f := scalars op) (g := scalars op.mirror) hshape fun i =>
    scalars_mirror (Value.isError_entry hv i) (Value.isError_entry hw i)
  unfold values
  rw [hbroadcast, Bool.or_comm (isEmptyTable w), ← Bool.decide_or, ← Bool.decide_or, decide_eq_decide.2 hequal]

/-! ### Operands -/

variable {σ : Type} {settings : Settings} {r : Resolver σ} {I : σ → Prop} {n : Nat} {a b : Token} {p q : σ}

/-- Two operands without errors in them, tables of the same shape if both are tables, are compared.  A comparison of the
two and the mirrored comparison of the two the other way round have the same result, entry by entry, if the resolver
answers each question in the same way whenever it is asked. -/
theorem applyOperator_mirror (hr : r.Steady I) (hp : I p) (hq : I q) (hop : op.isComparison)
    (ha : ((a.value (.withLevels settings r n)).runFrom p).1 = .ok v)
    (hb : ((b.value (.withLevels settings r n)).runFrom p).1 = .ok w)
    (hv : ∀ x ∈ v.elements, x.isError = false) (hw : ∀ x ∈ w.elements, x.isError = false)
    (hshape : v.isArray → w.isArray → v.shape = w.shape) :
    ∃ result, ((applyOperator (.withLevels settings r n) op [a, b]).runFrom p).1 = .ok result ∧
      ((applyOperator (.withLevels settings r n) op.mirror [b, a]).runFrom q).1 = .ok result := by
  -- An operand has the same value from all states of the set.
  have hresolve : ∀ {t : Token} {v : Value} {p q : σ}, I p → I q →
      ((t.value (.withLevels settings r n)).runFrom p).1 = .ok v →
      ∃ q', (t.value (.withLevels settings r n)).runFrom q = (.ok v, q') ∧ I q' := by
    intro t v p q hp hq ht
    obtain ⟨hsame, hstay⟩ := (t.value_isDialogue (withLevels_isDialogue settings n)).run_steady hr hq hp
    exact ⟨_, Prod.ext (hsame.trans ht) rfl, hstay⟩
  have hev := Value.isError_of_elements hv
  have hew := Value.isError_of_elements hw
  obtain ⟨p', ha', hp'⟩ := hresolve hp hp ha
  obtain ⟨p'', hb', -⟩ := hresolve hp hp' hb
  obtain ⟨q', hb'', hq'⟩ := hresolve hp hq hb
  obtain ⟨q'', ha'', -⟩ := hresolve hp hq' ha
  refine ⟨.ofValue (Comparison.values op v w), ?_, ?_⟩
  · rw [Comparison.runFrom_applyOperator hop ha' hb' hev hew]
  · rw [Comparison.runFrom_applyOperator (op.isComparison_mirror hop) hb'' ha'' hew hev, Comparison.values_mirror hshape hv hw]

/-- A number in the first column and a text in the others.  The state counts the questions. -/
def Resolver.counting : Resolver Nat where
  cell _ address := do
    modify (· + 1)
    return if address.col = 0 then .number 2 else .text "b"
  name id := throw (.unknownName id)
  shared anchor := throw (.noSharedFormula anchor)

private theorem Resolver.steady_counting : counting.Steady fun _ => True where
  same q s t _ _ := by cases q <;> rfl
  stays _ _ _ := trivial

/-- An area of two cells against a text. -/
theorem applyOperator_mirror_area :
    let s := Scope.withLevels {} .counting 0
    ∃ result,
      ((applyOperator s .lessThan [.area none (.relative 0 0) (.relative 0 1), .text "B"]).runFrom 0).1 = .ok result ∧
      ((applyOperator s .greaterThan [.text "B", .area none (.relative 0 0) (.relative 0 1)]).runFrom 5).1 =
        .ok result := by
  have hv : ∀ x ∈ (Value.ofRows [[.number 2, .text "b"]]).elements, x.isError = false := by
    decide
  have hw : ∀ x ∈ (Value.text "B").elements, x.isError = false := by
    decide
  exact applyOperator_mirror Resolver.steady_counting trivial trivial rfl rfl rfl hv hw
    fun _ h => Bool.noConfusion h

end Spreadsheet
