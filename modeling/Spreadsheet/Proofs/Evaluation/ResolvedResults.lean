import Spreadsheet.Evaluation.Functions
import Spreadsheet.Proofs.Evaluation.Components
import Spreadsheet.Proofs.Evaluation.Mirror

/-!
# Resolved results

A function gives an operand, which is resolved afterwards (`Function.resolved`).  The value of an operand never holds a
table inside of a table (`Token.isFlat_of_runFrom_value`), so that nothing is lost when it is written out as an operand
again (`Token.value_ofValue`).  A table that is put together out of its elements has the rows that it had before if these
are equally long and not empty (`Value.regroup_eq_self`); otherwise the elements are distributed over other rows.
-/

namespace Spreadsheet

variable {σ : Type}

/-! ### Tables of scalars -/

namespace Value

variable {v w : Value}

theorem elements_of_scalar (hv : v.isArray = false) : v.elements = [v] := by
  cases v with
  | array rows => cases hv
  | _ => rfl

theorem mem_elements_self (hv : v.isArray = false) : v ∈ v.elements := by
  rw [elements_of_scalar hv]
  exact List.mem_singleton_self v

theorem shape_of_scalar (hv : v.isArray = false) : v.shape = [] := by
  cases v with
  | array rows => cases hv
  | _ => rfl

/-- A scalar, or a table of scalars. -/
def IsFlat (v : Value) : Prop :=
  ∀ x ∈ v.elements, x.isArray = false

theorem isFlat_of_scalar (hv : v.isArray = false) : v.IsFlat := by
  intro x hx
  rw [elements_of_scalar hv] at hx
  exact List.mem_singleton.1 hx ▸ hv

private theorem isFlat_ofScalar (x : Scalar) : (ofScalar x).IsFlat :=
  isFlat_of_scalar (isArray_ofScalar x)

private theorem isFlat_ofRows (rows : List (List Scalar)) : (ofRows rows).IsFlat := by
  intro v hv
  rw [elements_ofRows] at hv
  obtain ⟨x, -, rfl⟩ := List.mem_map.1 hv
  exact isArray_ofScalar x

private theorem ofScalar_toScalar (hv : v.isArray = false) : ofScalar v.toScalar = v := by
  cases v with
  | array rows => cases hv
  | _ => rfl

/-- Rows of scalars can be stored as such. -/
private theorem ofRows_toScalar {rows : List (List Value)} (hrows : (array rows).IsFlat) :
    ofRows (rows.map (·.map toScalar)) = array rows := by
  refine congrArg array ?_
  rw [List.map_map]
  conv => rhs; rw [← List.map_id rows]
  refine List.map_congr_left fun row hrow => ?_
  show (row.map toScalar).map ofScalar = row
  rw [List.map_map]
  conv => rhs; rw [← List.map_id row]
  exact List.map_congr_left fun x hx => ofScalar_toScalar (hrows x (List.mem_flatten.2 ⟨row, hrow, hx⟩))

/-! ### Tables from their elements -/

/-- The rows are equally long, and not empty. -/
def IsRectangular (v : Value) : Prop :=
  ∃ cols, 0 < cols ∧ ∀ length ∈ v.shape, length = cols

theorem elements_ofElements (vs : List Value) (cols : Nat) : (ofElements vs cols).elements = vs :=
  flatten_splitRows _ vs

theorem shape_ofElements (hv : v.isArray = true) (hrectangular : v.IsRectangular) {vs : List Value}
    (hlength : vs.length = v.elements.length) : (ofElements vs v.columns).shape = v.shape := by
  obtain ⟨cols, hcols, hshape⟩ := hrectangular
  cases v with
  | array rows =>
    have hrows : ∀ row ∈ rows, row.length = cols := fun row hrow => hshape _ (List.mem_map_of_mem hrow)
    refine map_length_splitRows (fun row hrow => ?_) hlength
    have hcolumns : (array rows).columns = cols := by
      cases rows with
      | nil => cases hrow
      | cons first rest => exact hrows first (List.mem_cons_self ..)
    rw [hrows row hrow, hcolumns]
    omega
  | _ => cases hv

/-- A table is given by its elements and the lengths of its rows. -/
private theorem eq_of_shape (hv : v.isArray = true) (hw : w.isArray = true) (hshape : w.shape = v.shape)
    (helements : w.elements = v.elements) : w = v := by
  cases v with
  | array rows =>
    cases w with
    | array rows' => exact congrArg array (List.eq_iff_flatten_eq.2 ⟨helements, hshape⟩)
    | _ => cases hw
  | _ => cases hv

/-- The elements in rows as long as the first one.  A value that is no table remains as it is. -/
def regroup (v : Value) : Value :=
  if v.isArray then ofElements v.elements v.columns else v

theorem regroup_of_array (hv : v.isArray = true) : v.regroup = ofElements v.elements v.columns :=
  if_pos hv

private theorem regroup_of_scalar (hv : v.isArray = false) : v.regroup = v :=
  if_neg (by simp [hv])

@[simp] theorem elements_regroup (v : Value) : v.regroup.elements = v.elements := by
  cases hv : v.isArray with
  | true => rw [regroup_of_array hv, elements_ofElements]
  | false => rw [regroup_of_scalar hv]

theorem IsFlat.regroup (hv : v.IsFlat) : v.regroup.IsFlat := by
  intro x hx
  rw [elements_regroup] at hx
  exact hv x hx

theorem regroup_eq_self (hrectangular : v.IsRectangular) : v.regroup = v := by
  cases hv : v.isArray with
  | false => exact regroup_of_scalar hv
  | true =>
    have hshape : (ofElements v.elements v.columns).shape = v.shape := shape_ofElements hv hrectangular rfl
    rw [regroup_of_array hv]
    exact eq_of_shape hv rfl hshape (elements_ofElements _ _)

end Value

/-! ### Values of operands -/

variable {s : Scope σ}

open Eval

/-- Single entries have scalar values. -/
theorem Reference.value_meets_scalar {ref : Reference} (href : ref.isSingle) :
    (ref.value s).Meets (fun _ => True) (fun v => v.isArray = false) (fun _ => True) := by
  cases ref with
  | cell sheet a => exact (Meets.any _).map fun x _ => Value.isArray_ofScalar x
  | area => cases href
  | invalid e => exact .pure rfl

theorem Reference.value_meets_flat (ref : Reference) :
    (ref.value s).Meets (fun _ => True) Value.IsFlat (fun _ => True) := by
  cases ref with
  | cell sheet a => exact (Meets.any _).map fun x _ => Value.isFlat_ofScalar x
  | area sheet range => exact (Meets.any _).map fun rows _ => Value.isFlat_ofRows rows
  | invalid e => exact .pure (Value.isFlat_of_scalar rfl)

private theorem Scope.nested_meets (s : Scope σ) :
    s.nested.Meets (fun _ => True) (fun nested => s.nested? = some nested) (fun _ => True) := by
  unfold Scope.nested
  split
  · rename_i nested hnested
    exact .pure hnested
  · exact .throw trivial

namespace Token

/-- If the nested level gives flat values then so does this one. -/
private theorem value_meets_flat_of_nested
    (hnested : ∀ nested, s.nested? = some nested → ∀ t,
      (nested.value t).Meets (fun _ => True) Value.IsFlat (fun _ => True))
    (t : Token) : (t.value s).Meets (fun _ => True) Value.IsFlat (fun _ => True) := by
  cases t with
  | cell sheet a => exact (Reference.cell sheet a).value_meets_flat
  | area sheet first last => exact (Reference.area sheet (.between first last)).value_meets_flat
  | name id | shared anchor =>
    refine s.nested_meets.bind fun nested h => (Meets.any _).bind fun body _ => ?_
    exact (Meets.any _).bind fun target _ => hnested nested h target
  | array rows => exact .pure (Value.isFlat_ofRows rows)
  | references refs =>
    match refs with
    | [] => exact .throw trivial
    | [ref] => exact ref.value_meets_flat
    | ref :: ref' :: rest =>
      have hcells : ∀ single ∈ (ref :: ref' :: rest).flatMap Reference.cells,
          (single.value s).Meets (fun _ => True) (fun v => v.isArray = false) (fun _ => True) := by
        intro single h
        obtain ⟨ref, -, h⟩ := List.mem_flatMap.1 h
        exact Reference.value_meets_scalar (Reference.isSingle_of_mem_cells h)
      refine (Meets.mapM hcells).bind fun vs hvs => .pure fun x hx => hvs x ?_
      rwa [Value.elements, List.flatten_singleton] at hx
  | operator | control | call => exact .throw trivial
  | _ => exact .pure (Value.isFlat_of_scalar rfl)

variable {settings : Settings} {r : Resolver σ} {t : Token} {v : Value} {p q : σ}

theorem value_meets_flat (n : Nat) (t : Token) :
    (t.value (.withLevels settings r n)).Meets (fun _ => True) Value.IsFlat (fun _ => True) := by
  induction n generalizing t with
  | zero => exact value_meets_flat_of_nested (fun nested h => absurd h.symm (Option.some_ne_none nested)) t
  | succ n ih =>
    refine value_meets_flat_of_nested (fun nested h t => ?_) t
    obtain rfl := Option.some.inj h
    exact ih t

/-- An operand has a flat value, if it has one. -/
theorem isFlat_of_runFrom_value {n : Nat} (h : (t.value (.withLevels settings r n)).runFrom p = (.ok v, q)) :
    v.IsFlat := by
  have hmeets : Satisfies Value.IsFlat (fun _ => True) ((t.value (.withLevels settings r n)).runFrom p).1 :=
    (value_meets_flat n t p trivial).2
  rw [h] at hmeets
  exact hmeets

theorem value_stays {I : σ → Prop} {n : Nat} {x : Except FormulaError Value} (hr : r.Steady I) (hp : I p)
    (h : (t.value (.withLevels settings r n)).runFrom p = (x, q)) : I q :=
  (t.value_isDialogue (withLevels_isDialogue settings n)).run_stays hr hp h

/-- A flat value that is written out as an operand is resolved to itself. -/
theorem value_ofValue (hv : v.IsFlat) : (ofValue v).value s = pure v := by
  cases v with
  | array rows => exact congrArg pure (Value.ofRows_toScalar hv)
  | _ => rfl

end Token

/-! ### Calls -/

/-- Call a function and resolve the operand that it gives. -/
def Function.resolved (s : Scope σ) (f : Function) (args : List Token) : Eval σ Value :=
  callFunction s f.id args >>= Token.value s

theorem Function.resolved_of_apply {f : Function} {args : List Token} (haccepts : f.accepts args.length) {t : Token}
    {p q : σ} (h : (f.apply s args).runFrom p = (.ok t, q)) :
    (f.resolved s args).runFrom p = (t.value s).runFrom q := by
  rw [resolved, callFunction_of_accepts haccepts, runFrom_bind, h]

end Spreadsheet
