import Spreadsheet.Proofs.Address.Range

/-!
# Ranges as sets of cells

The numbers of rows and columns are words (`wordCount_eq_mod`), and they wrap to zero if a range takes up all rows or all
columns that there are.  Any other range is `Countable`: it is walked row by row (`cells_eq_flatMap`), and the walk meets
the cells that the range contains (`mem_cells`).  A range that is not countable is walked without meeting any cell
(`cells_eq_nil_of_not_countable`).

The common rectangle of two normal ranges has the cells that both contain (`contains_intersect?`), and a range that is
extended by a cell has all cells of the least rectangle around the two (`contains_extendTo`, `contains_of_extendTo`).
Absolute marks play no part in any of this.
-/

namespace Spreadsheet

theorem CellAddress.sameCell_iff {a b : CellAddress} : a.sameCell b ↔ (a.row, a.col) = (b.row, b.col) := by
  simp [sameCell]

namespace CellRange

variable {r s t : CellRange} {a b : CellAddress}

theorem contains_iff : r.contains a = true ↔
    (r.start.row ≤ a.row ∧ a.row ≤ r.stop.row) ∧ r.start.col ≤ a.col ∧ a.col ≤ r.stop.col := by
  simp only [contains, Bool.and_eq_true, decide_eq_true_eq, and_assoc]

theorem contains_single : (single a).contains b = a.sameCell b := by
  rw [Bool.eq_iff_iff, contains_iff]
  simp only [single, CellAddress.sameCell, Bool.and_eq_true, beq_iff_eq]
  omega

theorem Normal.contains_start (h : r.Normal) : r.contains r.start := by
  obtain ⟨hrow, hcol⟩ := h
  exact contains_iff.2 ⟨⟨Nat.le_refl _, hrow⟩, Nat.le_refl _, hcol⟩

theorem Normal.contains_stop (h : r.Normal) : r.contains r.stop := by
  obtain ⟨hrow, hcol⟩ := h
  exact contains_iff.2 ⟨⟨hrow, Nat.le_refl _⟩, hcol, Nat.le_refl _⟩

/-- A rectangle that contains two corners of another one contains all of it. -/
theorem contains_of_corners (hstart : s.contains r.start) (hstop : s.contains r.stop) (ha : r.contains a) :
    s.contains a := by
  rw [contains_iff] at *
  omega

/-! ### Counting rows and columns -/

/-- The count is that of the indices in arithmetic of words. -/
theorem wordCount_eq_mod {words first last : Nat} (hle : first ≤ last) (hlt : last < words) :
    wordCount words first last = (last - first + 1) % words := by
  unfold wordCount
  split
  · rename_i hall
    rw [show last - first + 1 = words by omega, Nat.mod_self]
  · rw [Nat.mod_eq_of_lt (by omega)]

/-- Neither count of the range wraps: it takes up neither all rows nor all columns that there are. -/
structure Countable (r : CellRange) : Prop where
  rows : ¬(r.start.row = 0 ∧ r.stop.row + 1 = rowWords)
  cols : ¬(r.start.col = 0 ∧ r.stop.col + 1 = colWords)

theorem countable_iff : r.Countable ↔
    ¬(r.start.row = 0 ∧ r.stop.row + 1 = rowWords) ∧ ¬(r.start.col = 0 ∧ r.stop.col + 1 = colWords) :=
  ⟨fun h => ⟨h.rows, h.cols⟩, fun h => ⟨h.1, h.2⟩⟩

instance (r : CellRange) : Decidable r.Countable :=
  decidable_of_iff' _ countable_iff

theorem Countable.rowCount_eq (h : r.Countable) : r.rowCount = r.stop.row - r.start.row + 1 :=
  if_neg h.rows

theorem Countable.colCount_eq (h : r.Countable) : r.colCount = r.stop.col - r.start.col + 1 :=
  if_neg h.cols

theorem Countable.rowCount_pos (h : r.Countable) : 0 < r.rowCount := by
  rw [h.rowCount_eq]
  exact Nat.succ_pos _

theorem Countable.colCount_pos (h : r.Countable) : 0 < r.colCount := by
  rw [h.colCount_eq]
  exact Nat.succ_pos _

theorem cellCount_eq_zero (h : ¬ r.Countable) : r.cellCount = 0 := by
  rw [countable_iff, not_and_or, not_not, not_not] at h
  rcases h with h | h
  · rw [cellCount, rowCount, wordCount, if_pos h, Nat.zero_mul]
  · rw [cellCount, colCount, wordCount, if_pos h, Nat.mul_zero]

theorem cellCount_pos_iff : 0 < r.cellCount ↔ r.Countable := by
  refine ⟨fun h => ?_, fun h => Nat.mul_pos h.rowCount_pos h.colCount_pos⟩
  by_contra hcount
  rw [cellCount_eq_zero hcount] at h
  cases h

theorem countable_single (a : CellAddress) : (single a).Countable := by
  rw [countable_iff]
  simp only [single, rowWords, colWords]
  omega

/-- A range within a countable one is countable as well. -/
theorem Countable.of_subset (h : s.Countable) (hr : r.Normal) (hsub : ∀ a, r.contains a → s.contains a)
    (hs : s.stop.row < rowWords ∧ s.stop.col < colWords) : r.Countable := by
  have hstart := contains_iff.1 (hsub _ hr.contains_start)
  have hstop := contains_iff.1 (hsub _ hr.contains_stop)
  rw [countable_iff] at h ⊢
  omega

/-! ### The walk along the rows -/

/-- Numbers up to a product, each with its quotient and its remainder. -/
private theorem map_range_mul {α : Type} (f : Nat → Nat → α) (m n : Nat) :
    (List.range (m * n)).map (fun k => f (k / n) (k % n)) = (List.range m).flatMap fun i => (List.range n).map (f i) := by
  induction m with
  | zero => simp
  | succ m ih =>
    have hlast : ∀ k ∈ List.range n, f ((m * n + k) / n) ((m * n + k) % n) = f m k := by
      intro k hk
      have hk : k < n := List.mem_range.1 hk
      rw [Nat.mul_comm, Nat.mul_add_div (by omega), Nat.mul_add_mod, Nat.div_eq_of_lt hk, Nat.mod_eq_of_lt hk,
        Nat.add_zero]
    rw [Nat.succ_mul, List.range_add, List.map_append, ih, List.range_succ, List.flatMap_append, List.map_map,
      List.flatMap_singleton]
    exact congrArg _ (List.map_congr_left hlast)

theorem cells_eq_map (r : CellRange) : r.cells = (List.range r.cellCount).map r.cellAt := rfl

theorem length_cells (r : CellRange) : r.cells.length = r.cellCount := by
  rw [cells_eq_map, List.length_map, List.length_range]

/-- With all rows, or all columns, there is nothing left to count. -/
theorem cells_eq_nil_of_not_countable (h : ¬ r.Countable) : r.cells = [] := by
  rw [cells_eq_map, cellCount_eq_zero h, List.range_zero, List.map_nil]

theorem length_rows (h : r.Normal) (hcount : r.Countable) : r.rows.length = r.rowCount := by
  have hrow := h.1
  rw [rows, List.length_range', hcount.rowCount_eq]
  omega

theorem length_cols (h : r.Normal) (hcount : r.Countable) : r.cols.length = r.colCount := by
  have hcol := h.2
  rw [cols, List.length_range', hcount.colCount_eq]
  omega

/-- The cells are met row by row, and along each row column by column. -/
theorem cells_eq_flatMap (h : r.Normal) (hcount : r.Countable) :
    r.cells = r.rows.flatMap fun row => r.cols.map (CellAddress.relative row) := by
  have hwalk := map_range_mul (fun i j => CellAddress.relative (r.start.row + i) (r.start.col + j)) r.rowCount r.colCount
  have hrows := length_rows h hcount
  have hcols := length_cols h hcount
  rw [rows, List.length_range'] at hrows
  rw [cols, List.length_range'] at hcols
  rw [rows, cols, hrows, hcols, List.range'_eq_map_range, List.range'_eq_map_range, List.flatMap_map]
  simp only [List.map_map]
  rw [cells_eq_map, cellCount]
  exact hwalk

/-- The walk depends only on where the corners are. -/
private theorem cells_congr (hstart : r.start.sameCell s.start) (hstop : r.stop.sameCell s.stop) :
    r.cells = s.cells := by
  rw [CellAddress.sameCell_iff, Prod.mk.injEq] at hstart hstop
  have hcell : r.cellAt = s.cellAt := funext fun k => by
    simp only [cellAt, colCount, hstart, hstop]
  simp only [cells_eq_map, cellCount, rowCount, colCount, hstart, hstop, hcell]

/-- The walk along a countable normal range meets the cells in it, without absolute marks. -/
theorem mem_cells (h : r.Normal) (hcount : r.Countable) :
    a ∈ r.cells ↔ r.contains a ∧ a = .relative a.row a.col := by
  obtain ⟨hrow, hcol⟩ := h
  rw [cells_eq_flatMap ⟨hrow, hcol⟩ hcount, contains_iff]
  simp only [rows, cols, List.mem_flatMap, List.mem_map, List.mem_range'_1]
  constructor
  · rintro ⟨row, hrows, col, hcols, rfl⟩
    refine ⟨?_, rfl⟩
    simp only [CellAddress.relative]
    omega
  · rintro ⟨hbounds, ha⟩
    exact ⟨a.row, by omega, a.col, by omega, ha.symm⟩

/-- Whatever is met lies in the range. -/
theorem contains_of_mem_cells (h : r.Normal) (ha : a ∈ r.cells) : r.contains a ∧ a = .relative a.row a.col := by
  by_cases hcount : r.Countable
  · exact (mem_cells h hcount).1 ha
  · rw [cells_eq_nil_of_not_countable hcount] at ha
    cases ha

theorem any_sameCell_cells (h : r.Normal) (hcount : r.Countable) (a : CellAddress) :
    r.cells.any (·.sameCell a) = r.contains a := by
  rw [Bool.eq_iff_iff, List.any_eq_true]
  constructor
  · rintro ⟨b, hb, hsame⟩
    have hb := contains_iff.1 (contains_of_mem_cells h hb).1
    simp only [CellAddress.sameCell, Bool.and_eq_true, beq_iff_eq] at hsame
    rw [contains_iff]
    omega
  · intro ha
    refine ⟨.relative a.row a.col, (mem_cells h hcount).2 ⟨ha, rfl⟩, ?_⟩
    simp [CellAddress.sameCell, CellAddress.relative]

/-! ### Common cells -/

theorem normal_of_intersect? (h : r.intersect? s = some t) : t.Normal := by
  unfold intersect? at h
  split at h
  · obtain rfl := Option.some.inj h
    exact normal_between _ _
  · cases h

theorem intersect?_comm (r s : CellRange) : r.intersect? s = s.intersect? r := by
  have hoverlaps : r.overlaps s = s.overlaps r := by
    rw [Bool.eq_iff_iff]
    simp only [overlaps, Bool.and_eq_true, decide_eq_true_eq]
    omega
  rw [intersect?, intersect?, hoverlaps, Nat.max_comm r.start.row, Nat.max_comm r.start.col, Nat.min_comm r.stop.row,
    Nat.min_comm r.stop.col]

/-- Corners in their places are left there. -/
theorem between_relative {top bottom left right : Nat} (hrow : top ≤ bottom) (hcol : left ≤ right) :
    between (.relative top left) (.relative bottom right) = ⟨.relative top left, .relative bottom right⟩ :=
  between_of_normal (r := ⟨.relative top left, .relative bottom right⟩) ⟨hrow, hcol⟩

/-- Two ranges have the cells in common that both of them contain. -/
theorem contains_intersect? (hr : r.Normal) (hs : s.Normal) (a : CellAddress) :
    (r.intersect? s).any (·.contains a) = (r.contains a && s.contains a) := by
  obtain ⟨hrrow, hrcol⟩ := hr
  obtain ⟨hsrow, hscol⟩ := hs
  unfold intersect?
  split
  · rename_i h
    simp only [overlaps, Bool.and_eq_true, decide_eq_true_eq] at h
    rw [between_relative (by omega) (by omega), Option.any_some, Bool.eq_iff_iff, Bool.and_eq_true]
    simp only [contains_iff, CellAddress.relative]
    omega
  · rename_i h
    simp only [overlaps, Bool.and_eq_true, decide_eq_true_eq] at h
    rw [Option.any_none, eq_comm, Bool.eq_false_iff, ne_eq, Bool.and_eq_true, contains_iff, contains_iff]
    omega

/-! ### Extending by a cell -/

theorem normal_extendTo (r : CellRange) (a : CellAddress) : (r.extendTo a).Normal :=
  normal_between _ _

private theorem extendTo_eq (h : r.Normal) (a : CellAddress) : r.extendTo a =
    ⟨.relative (min r.start.row a.row) (min r.start.col a.col), .relative (max r.stop.row a.row) (max r.stop.col a.col)⟩ := by
  obtain ⟨hrow, hcol⟩ := h
  exact between_relative (by omega) (by omega)

theorem contains_extendTo (h : r.Normal) (hb : r.contains b ∨ b = a) : (r.extendTo a).contains b := by
  rw [extendTo_eq h, contains_iff]
  obtain ⟨hrow, hcol⟩ := h
  simp only [CellAddress.relative]
  rcases hb with hb | rfl
  · rw [contains_iff] at hb
    omega
  · omega

theorem extendTo_extendTo (h : r.Normal) (a : CellAddress) : (r.extendTo a).extendTo a = r.extendTo a := by
  rw [extendTo_eq (normal_extendTo r a), extendTo_eq h]
  simp [CellAddress.relative]

/-- One corner extended by the other one gives the cells between them. -/
theorem cells_extendTo_single (a b : CellAddress) : ((single a).extendTo b).cells = (between a b).cells := by
  rw [extendTo_eq ⟨Nat.le_refl _, Nat.le_refl _⟩]
  refine cells_congr ?_ ?_
  all_goals
    simp only [CellAddress.sameCell_iff, Prod.mk.injEq, single, between, CellAddress.relative]
    split <;> split <;> simp only <;> omega

/-- A rectangle that contains the range and the cell contains the extended range. -/
theorem contains_of_extendTo (h : r.Normal) (hr : ∀ b, r.contains b → s.contains b) (ha : s.contains a)
    (hb : (r.extendTo a).contains b) : s.contains b := by
  have hstart := contains_iff.1 (hr _ h.contains_start)
  have hstop := contains_iff.1 (hr _ h.contains_stop)
  rw [extendTo_eq h] at hb
  obtain ⟨hrow, hcol⟩ := h
  simp only [contains_iff, CellAddress.relative] at *
  omega

end CellRange

end Spreadsheet
