import Spreadsheet.Evaluation.Broadcast

/-!
# Tables from entries

A table is put together out of its entries, row by row.  A rule for scalars that is extended to tables gives the table of
all its results (`mapElements_eq_tabulate`, `broadcast_left`, `broadcast_right`), in rows of the length that the rows of
the operand have if they are equally long (`map_length_splitRows`).
-/

namespace Spreadsheet.Value

/-! ### Rows -/

/-- The rows hold the entries that were split, in their order. -/
theorem flatten_splitRows (width : Nat) (vs : List Value) : (splitRows width vs).flatten = vs := by
  induction vs using splitRows.induct width with
  | case1 =>
    rw [splitRows]
    rfl
  | case2 v vs ih => rw [splitRows, List.flatten_cons, ih, List.cons_append, List.take_append_drop]

/-- As many entries as there are in rows of one length are split into as many such rows. -/
theorem map_length_splitRows {α : Type} {rows : List (List α)} {width : Nat}
    (hrows : ∀ row ∈ rows, row.length = width + 1) {vs : List Value} (hvs : vs.length = rows.flatten.length) :
    (splitRows width vs).map List.length = rows.map List.length := by
  induction rows generalizing vs with
  | nil =>
    rw [List.length_eq_zero_iff.1 hvs, splitRows]
    rfl
  | cons row rows ih =>
    have hrow : row.length = width + 1 := hrows row (List.mem_cons_self ..)
    rw [List.flatten_cons, List.length_append, hrow] at hvs
    cases vs with
    | nil =>
      rw [List.length_nil] at hvs
      omega
    | cons v vs =>
      rw [List.length_cons] at hvs
      have hcount : (vs.drop width).length = rows.flatten.length := by
        rw [List.length_drop]
        omega
      have hrest := ih (fun row h => hrows row (List.mem_cons_of_mem _ h)) hcount
      rw [splitRows, List.map_cons, List.map_cons, hrest, hrow, List.length_cons, List.length_take,
        Nat.min_eq_left (by omega)]

/-! ### Entries -/

/-- Entry `i` of a table, row by row.  Any other value goes with all entries. -/
def entry (i : Nat) : Value → Value
  | array rows => rows.flatten[i]?.getD empty
  | v => v

/-- The table in the shape of another one whose entries are given by their numbers. -/
def tabulate (v : Value) (g : Nat → Value) : Value :=
  ofElements ((List.range v.elements.length).map g) v.columns

variable {v w : Value}

theorem entry_of_scalar (hv : v.isArray = false) (i : Nat) : v.entry i = v := by
  cases v with
  | array rows => cases hv
  | _ => rfl

theorem isArray_ofScalar (x : Scalar) : (ofScalar x).isArray = false := by
  cases x <;> rfl

theorem entry_ofRows (rows : List (List Scalar)) (i : Nat) :
    (ofRows rows).entry i = ofScalar (rows.flatten[i]?.getD .empty) := by
  show (rows.map (·.map ofScalar)).flatten[i]?.getD empty = _
  rw [← List.map_flatten, List.getElem?_map]
  cases rows.flatten[i]? <;> rfl

theorem length_elements_ofRows (rows : List (List Scalar)) : (ofRows rows).elements.length = rows.flatten.length := by
  show (rows.map (·.map ofScalar)).flatten.length = _
  rw [← List.map_flatten, List.length_map]

private theorem elements_eq_map_entry (hv : v.isArray = true) :
    v.elements = (List.range v.elements.length).map fun i => v.entry i := by
  cases v with
  | array rows =>
    show rows.flatten = (List.range rows.flatten.length).map fun i => rows.flatten[i]?.getD empty
    refine List.ext_getElem (by simp) fun i hi _ => ?_
    rw [List.getElem_map, List.getElem_range, List.getElem?_eq_getElem hi, Option.getD_some]
  | _ => cases hv

private theorem map_elements (f : Value → Value) (hv : v.isArray = true) :
    v.elements.map f = (List.range v.elements.length).map fun i => f (v.entry i) := by
  conv => lhs; rw [elements_eq_map_entry hv, List.map_map]
  rfl

/-- The rows of a tabulated table hold the entries, and are as long as those of the other table if these are equally
long. -/
theorem exists_tabulate_eq (rows : List (List Scalar)) (g : Nat → Value) :
    ∃ result, (ofRows rows).tabulate g = array result ∧
      result.flatten = (List.range rows.flatten.length).map g ∧
      ∀ cols, 0 < cols → (∀ row ∈ rows, row.length = cols) → result.map List.length = rows.map List.length := by
  refine ⟨_, rfl, ?_, fun cols hcols hrows => ?_⟩
  · rw [flatten_splitRows, length_elements_ofRows]
  · have hcount : ((List.range (ofRows rows).elements.length).map g).length = rows.flatten.length := by
      rw [List.length_map, List.length_range, length_elements_ofRows]
    refine map_length_splitRows (fun row hrow => ?_) hcount
    have hcolumns : (ofRows rows).columns = cols := by
      cases rows with
      | nil => cases hrow
      | cons first rest => exact (List.length_map ..).trans (hrows first (List.mem_cons_self ..))
    rw [hrows row hrow, hcolumns]
    omega

theorem mapElements_eq_tabulate (f : Value → Value) (hv : v.isArray = true) :
    v.mapElements f = v.tabulate fun i => f (v.entry i) := by
  cases v with
  | array rows => exact congrArg (ofElements · _) (map_elements f rfl)
  | _ => cases hv

theorem mapElements_of_scalar (f : Value → Value) (hv : v.isArray = false) : v.mapElements f = f v := by
  cases v with
  | array rows => cases hv
  | _ => rfl

/-- A table and a scalar, or two tables with the same number of entries: the table or the left one of two gives the
shape. -/
theorem broadcast_left (f : Value → Value → Value) (hv : v.isArray = true)
    (hsame : w.isArray = true → w.elements.length = v.elements.length) :
    broadcast f v w = v.tabulate fun i => f (v.entry i) (w.entry i) := by
  cases v with
  | array rows =>
    cases w with
    | array rows' =>
      have hlength := hsame rfl
      have hentries : (array rows).elements.zipWith f (array rows').elements =
          (List.range (array rows).elements.length).map fun i => f ((array rows).entry i) ((array rows').entry i) := by
        conv =>
          lhs
          rw [elements_eq_map_entry (v := array rows) rfl, elements_eq_map_entry (v := array rows') rfl, hlength]
        rw [List.zipWith_map, List.zipWith_self]
      exact (if_neg (not_not_intro hlength.symm)).trans (congrArg (ofElements · _) hentries)
    | _ => exact congrArg (ofElements · _) (map_elements (f · _) rfl)
  | _ => cases hv

/-- A scalar and a table. -/
theorem broadcast_right (f : Value → Value → Value) (hv : v.isArray = false) (hw : w.isArray = true) :
    broadcast f v w = w.tabulate fun i => f (v.entry i) (w.entry i) := by
  simp only [entry_of_scalar hv]
  cases w with
  | array rows =>
    cases v with
    | array rows' => cases hv
    | _ => exact congrArg (ofElements · _) (map_elements _ rfl)
  | _ => cases hw

/-- Tables with different numbers of entries have nothing in common. -/
theorem broadcast_of_length_ne (f : Value → Value → Value) (hv : v.isArray = true) (hw : w.isArray = true)
    (hne : w.elements.length ≠ v.elements.length) : broadcast f v w = error .value := by
  cases v with
  | array rows =>
    cases w with
    | array rows' => exact if_pos hne.symm
    | _ => cases hw
  | _ => cases hv

theorem broadcast_of_scalars (f : Value → Value → Value) (hv : v.isArray = false) (hw : w.isArray = false) :
    broadcast f v w = f v w := by
  cases v with
  | array rows => cases hv
  | _ =>
    cases w with
    | array rows => cases hw
    | _ => rfl

end Spreadsheet.Value
