import Spreadsheet.Proofs.Address.Rectangle

/-!
# Walking along the rows

A walk keeps the place that it has come to and, apart from that, the number of cells left; only the number ends it.  In
a normal range the two stay in step: behind `k` cells the place is that of the `k`-th cell (`next?_walkAt`).  So a walk
meets the cells that are counted in their order (`firstCells_eq_take`), each row from left to right before the one below
it (`pairwise_cells`), and it never leaves a countable range by more than one row (`row_steps_le`, `col_steps_le`).
-/

namespace Spreadsheet

/-- In a higher row, or further to the left in the same row. -/
def CellAddress.Precedes (a b : CellAddress) : Prop :=
  a.row < b.row ∨ a.row = b.row ∧ a.col < b.col

namespace CellRange

variable {r : CellRange}

/-! ### Places of the walk -/

/-- The walk behind the first `k` cells. -/
def walkAt (r : CellRange) (k : Nat) : Walk :=
  ⟨r, r.start.row + k / r.colCount, r.start.col + k % r.colCount, r.cellCount - k⟩

private theorem walkAt_zero (r : CellRange) : r.walkAt 0 = r.walk := by
  simp [walkAt, walk]

/-- Behind the last column both the column and the quotient by the number of columns change. -/
theorem advance_walkAt (h : r.Normal) (hcount : r.Countable) (k : Nat) : (r.walkAt k).advance = r.walkAt (k + 1) := by
  have hpos : 0 < r.colCount := hcount.colCount_pos
  have hmod : k % r.colCount < r.colCount := Nat.mod_lt k hpos
  have hdiv : r.colCount * (k / r.colCount) + k % r.colCount = k := Nat.div_add_mod k r.colCount
  have hlength : r.start.col + r.colCount = r.stop.col + 1 := by
    have hcol := h.2
    rw [hcount.colCount_eq]
    omega
  unfold Walk.advance walkAt
  dsimp only
  by_cases hlast : k % r.colCount + 1 = r.colCount
  · have hnext : k + 1 = r.colCount * (k / r.colCount + 1) := by
      rw [Nat.mul_add, Nat.mul_one]
      omega
    have hrow : (k + 1) / r.colCount = k / r.colCount + 1 := by
      rw [hnext, Nat.mul_div_cancel_left _ hpos]
    have hcol : (k + 1) % r.colCount = 0 := by
      rw [hnext, Nat.mul_mod_right]
    rw [if_pos (by omega), hrow, hcol]
    simp only [Nat.add_assoc, Nat.add_zero, Nat.sub_sub]
  · have hnext : k + 1 = r.colCount * (k / r.colCount) + (k % r.colCount + 1) := by omega
    have hlt : k % r.colCount + 1 < r.colCount := by omega
    have hrow : (k + 1) / r.colCount = k / r.colCount := by
      conv_lhs => rw [hnext, Nat.mul_add_div hpos, Nat.div_eq_of_lt hlt, Nat.add_zero]
    have hcol : (k + 1) % r.colCount = k % r.colCount + 1 := by
      conv_lhs => rw [hnext, Nat.mul_add_mod, Nat.mod_eq_of_lt hlt]
    rw [if_neg (by omega), hrow, hcol]
    simp only [Nat.add_assoc, Nat.sub_sub]

theorem next?_walkAt (h : r.Normal) {k : Nat} (hk : k < r.cellCount) :
    (r.walkAt k).next? = some (r.cellAt k, r.walkAt (k + 1)) := by
  have hleft : (r.walkAt k).remaining ≠ 0 := by
    simp only [walkAt]
    omega
  rw [Walk.next?, if_neg hleft, advance_walkAt h (cellCount_pos_iff.1 (by omega))]
  rfl

private theorem next?_walkAt_end {k : Nat} (hk : r.cellCount ≤ k) : (r.walkAt k).next? = none := by
  have hleft : (r.walkAt k).remaining = 0 := by
    simp only [walkAt]
    omega
  rw [Walk.next?, if_pos hleft]

/-! ### The cells met -/

private theorem drop_cells {k : Nat} (hk : k < r.cellCount) : r.cells.drop k = r.cellAt k :: r.cells.drop (k + 1) := by
  have hlength : k < r.cells.length := by rwa [length_cells]
  rw [List.drop_eq_getElem_cons hlength]
  simp [cells]

private theorem collect_walkAt (h : r.Normal) (met : List CellAddress) (n k : Nat) :
    (r.walkAt k).collect met n = met.reverse ++ (r.cells.drop k).take n := by
  induction n generalizing met k with
  | zero => simp [Walk.collect]
  | succ n ih =>
    unfold Walk.collect
    by_cases hk : k < r.cellCount
    · rw [next?_walkAt h hk, drop_cells hk]
      dsimp only
      rw [ih, List.reverse_cons, List.append_assoc, List.take_succ_cons, List.singleton_append]
    · have hdrop : r.cells.drop k = [] := List.drop_of_length_le (by rw [length_cells]; omega)
      rw [next?_walkAt_end (by omega), hdrop, List.take_nil, List.append_nil]

/-- The walk meets the cells in their order, and all of them if it goes on long enough. -/
theorem firstCells_eq_take (h : r.Normal) (n : Nat) : r.firstCells n = r.cells.take n := by
  rw [firstCells, ← walkAt_zero, collect_walkAt h, List.reverse_nil, List.nil_append, List.drop_zero]

/-! ### The walk after some steps -/

/-- The walk after `k` cells, or at its end if there are not that many. -/
def Walk.steps : Nat → Walk → Walk
  | 0, w => w
  | k + 1, w =>
    match w.next? with
    | none => w
    | some (_, rest) => rest.steps k

private theorem steps_walkAt (h : r.Normal) (k : Nat) {j : Nat} (hj : j ≤ r.cellCount) :
    (r.walkAt j).steps k = r.walkAt (min (j + k) r.cellCount) := by
  induction k generalizing j with
  | zero => rw [Walk.steps, Nat.add_zero, Nat.min_eq_left hj]
  | succ k ih =>
    unfold Walk.steps
    by_cases hlt : j < r.cellCount
    · rw [next?_walkAt h hlt]
      dsimp only
      rw [ih (by omega), Nat.add_right_comm, Nat.add_assoc]
    · rw [next?_walkAt_end (by omega)]
      dsimp only
      rw [show min (j + (k + 1)) r.cellCount = j by omega]

private theorem steps_walk (h : r.Normal) (k : Nat) : r.walk.steps k = r.walkAt (min k r.cellCount) := by
  rw [← walkAt_zero, steps_walkAt h k (Nat.zero_le _), Nat.zero_add]

/-- Each step takes one off the number of cells left, as long as there are any. -/
theorem remaining_steps (h : r.Normal) (k : Nat) : (r.walk.steps k).remaining = r.cellCount - k := by
  rw [steps_walk h, walkAt]
  dsimp only
  omega

/-- At its end the walk has come to the row below the range. -/
theorem row_steps_le (h : r.Normal) (hcount : r.Countable) (k : Nat) : (r.walk.steps k).row ≤ r.stop.row + 1 := by
  have hdiv : min k r.cellCount / r.colCount ≤ r.rowCount :=
    Nat.div_le_of_le_mul (by rw [Nat.mul_comm]; exact Nat.min_le_right _ _)
  have hrow := h.1
  rw [steps_walk h, walkAt]
  rw [hcount.rowCount_eq] at hdiv
  dsimp only
  omega

theorem col_steps_le (h : r.Normal) (hcount : r.Countable) (k : Nat) : (r.walk.steps k).col ≤ r.stop.col := by
  have hmod : min k r.cellCount % r.colCount < r.colCount := Nat.mod_lt _ hcount.colCount_pos
  have hcol := h.2
  have hlength := hcount.colCount_eq
  rw [steps_walk h, walkAt]
  dsimp only
  omega

/-! ### The order of the cells -/

private theorem cellAt_precedes (r : CellRange) {j k : Nat} (h : j < k) : (r.cellAt j).Precedes (r.cellAt k) := by
  have hdiv : j / r.colCount ≤ k / r.colCount := Nat.div_le_div_right (Nat.le_of_lt h)
  have hj := Nat.div_add_mod j r.colCount
  have hk := Nat.div_add_mod k r.colCount
  simp only [CellAddress.Precedes, cellAt, CellAddress.relative]
  by_cases heq : j / r.colCount = k / r.colCount
  · rw [heq] at hj ⊢
    omega
  · omega

theorem pairwise_cells (r : CellRange) : r.cells.Pairwise CellAddress.Precedes := by
  rw [cells_eq_map, List.pairwise_map]
  exact List.pairwise_lt_range.imp r.cellAt_precedes

theorem nodup_cells (r : CellRange) : r.cells.Nodup := by
  refine r.pairwise_cells.imp ?_
  rintro a b h rfl
  unfold CellAddress.Precedes at h
  omega

end CellRange

end Spreadsheet
