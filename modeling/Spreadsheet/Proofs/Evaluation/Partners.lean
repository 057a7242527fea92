import Spreadsheet.Evaluation.Selection
import Spreadsheet.Proofs.Address.Rectangle
import Spreadsheet.Proofs.Evaluation.Components

/-!
# Partners

A sum range takes the shape of a criteria range, and the cells of the two are paired one after the other.  Meant is that
each cell gets its partner, the cell at the same distance from the other corner (`CellRange.partner`).  A sum range that
ends at the edge of the sheet has fewer columns, and then the pairs shift along the rows: the cells with a partner on the
sheet get this partner and the others get none if no column is lost, or if there is only one row, and in no other case
(`Selection.pairsPartners_iff`).
-/

namespace Spreadsheet

/-! ### The first numbers of a range -/

private theorem zip_map_range {α β : Type} {m n : Nat} (h : m ≤ n) (f : Nat → α) (g : Nat → β) :
    ((List.range n).map f).zip ((List.range m).map g) = (List.range m).map fun k => (f k, g k) := by
  refine List.ext_getElem ?_ fun k hk hk' => ?_
  · simp only [List.length_zip, List.length_map, List.length_range]
    omega
  · simp

/-- A filter that lets through the images of the first `m` numbers. -/
private theorem filter_map_range {α : Type} {m n : Nat} (h : m ≤ n) {f : Nat → α} {p : α → Bool}
    (hp : ∀ k < n, p (f k) = decide (k < m)) : ((List.range n).map f).filter p = (List.range m).map f := by
  obtain ⟨d, rfl⟩ := Nat.exists_eq_add_of_le h
  rw [List.range_add, List.map_append, List.filter_append]
  have hfirst : ((List.range m).map f).filter p = (List.range m).map f := by
    rw [List.filter_eq_self, List.forall_mem_map]
    intro k hk
    have hk : k < m := List.mem_range.1 hk
    rw [hp k (by omega), decide_eq_true hk]
  have hrest : (((List.range d).map (m + ·)).map f).filter p = [] := by
    rw [List.filter_eq_nil_iff, List.map_map, List.forall_mem_map]
    intro k hk
    have hk : k < d := List.mem_range.1 hk
    rw [Function.comp_apply, hp (m + k) (by omega), decide_eq_true_iff]
    omega
  rw [hfirst, hrest, List.append_nil]

/-! ### Cells at the same distance -/

namespace CellRange

variable {r : CellRange} {a : CellAddress}

/-- The cell that is as far from a corner as a cell of the range is from the first one. -/
def partner (r : CellRange) (corner a : CellAddress) : CellAddress :=
  .relative (corner.row + (a.row - r.start.row)) (corner.col + (a.col - r.start.col))

theorem partner_start (h : r.contains a) : r.partner r.start a = .relative a.row a.col := by
  obtain ⟨⟨hrow, -⟩, hcol, -⟩ := contains_iff.1 h
  rw [partner, Nat.add_sub_cancel' hrow, Nat.add_sub_cancel' hcol]

private theorem partner_cellAt (h : a.sameCell (r.cellAt k)) (corner : CellAddress) :
    r.partner corner a = .relative (corner.row + k / r.colCount) (corner.col + k % r.colCount) := by
  rw [CellAddress.sameCell_iff, Prod.mk.injEq] at h
  obtain ⟨hrow, hcol⟩ := h
  rw [partner, hrow, hcol]
  simp only [cellAt, CellAddress.relative, Nat.add_sub_cancel_left]

end CellRange

/-! ### Cells and areas -/

namespace Token

variable {t : Token} {r : CellRange}

/-- The sheet that a cell or an area names. -/
def sheet? : Token → Option String
  | cell sheet _ | area sheet .. => sheet
  | _ => none

/-- The addresses of a cell or of an area, row by row. -/
def addresses : Token → List CellAddress
  | cell _ a => [a]
  | area _ first last => (CellRange.between first last).cells
  | _ => []

theorem ownParts_of_range? (h : t.range? = some r) : t.ownParts = t.addresses.map (cell t.sheet?) := by
  cases t with
  | cell | area => rfl
  | _ => cases h

private theorem normal_of_range? (h : t.range? = some r) : r.Normal := by
  cases t with
  | cell sheet a =>
    obtain rfl := Option.some.inj h
    exact ⟨Nat.le_refl _, Nat.le_refl _⟩
  | area sheet first last =>
    obtain rfl := Option.some.inj h
    exact CellRange.normal_between first last
  | _ => cases h

/-- The addresses are those of the cells of the range, but a single cell keeps its absolute marks. -/
theorem exists_addresses (h : t.range? = some r) : ∃ f : Nat → CellAddress,
    t.addresses = (List.range r.cellCount).map f ∧ ∀ k < r.cellCount, (f k).sameCell (r.cellAt k) := by
  cases t with
  | cell sheet a =>
    obtain rfl := Option.some.inj h
    have hsingle := CellRange.countable_single a
    have hcount : (CellRange.single a).cellCount = 1 := by
      rw [CellRange.cellCount, hsingle.rowCount_eq, hsingle.colCount_eq]
      simp [CellRange.single]
    refine ⟨fun _ => a, by rw [hcount]; rfl, fun k hk => ?_⟩
    obtain rfl : k = 0 := by omega
    simp [CellRange.cellAt, CellRange.single, CellAddress.sameCell, CellAddress.relative]
  | area sheet first last =>
    obtain rfl := Option.some.inj h
    refine ⟨(CellRange.between first last).cellAt, ?_, fun k _ => ?_⟩
    · rw [addresses, CellRange.cells_eq_map]
    · simp [CellAddress.sameCell]
  | _ => cases h

/-- Without a count there are no addresses. -/
theorem addresses_eq_nil (h : t.range? = some r) (hcount : ¬ r.Countable) : t.addresses = [] := by
  obtain ⟨f, haddresses, -⟩ := exists_addresses h
  rw [haddresses, CellRange.cellCount_eq_zero hcount, List.range_zero, List.map_nil]

theorem contains_of_mem_addresses (h : t.range? = some r) {a : CellAddress} (ha : a ∈ t.addresses) : r.contains a := by
  obtain ⟨f, haddresses, hf⟩ := exists_addresses h
  rw [haddresses, List.mem_map] at ha
  obtain ⟨k, hk, rfl⟩ := ha
  have hk : k < r.cellCount := List.mem_range.1 hk
  have hcell : r.cellAt k ∈ r.cells := by
    rw [CellRange.cells_eq_map]
    exact List.mem_map_of_mem (List.mem_range.2 hk)
  have hcontains := CellRange.contains_iff.1 (CellRange.contains_of_mem_cells (normal_of_range? h) hcell).1
  have hsame := hf k hk
  rw [CellAddress.sameCell_iff, Prod.mk.injEq] at hsame
  rw [CellRange.contains_iff, hsame.1, hsame.2]
  exact hcontains

end Token

namespace Selection

variable {range sumRange : Token} {r s : CellRange}

/-! ### The shape of the sum range -/

/-- The area of a shape from a corner on, without what is off the sheet. -/
def placed (corner : CellAddress) (size : Nat × Nat) : CellRange :=
  .between corner (.relative (lastIndex corner.row size.1 maxRows) (lastIndex corner.col size.2 maxCols))

private theorem lastIndex_eq {first count limit : Nat} (hfirst : first < limit) (hcount : 0 < count) :
    lastIndex first count limit + 1 = first + min count (limit - first) := by
  show min (first + (count - 1)) (limit - 1) + 1 = _
  omega

theorem resize_eq_reshape (h : sumRange.range? = some s) (size : Nat × Nat) :
    resize sumRange size = reshape sumRange.sheet? s size := by
  cases sumRange with
  | cell | area =>
    obtain rfl := Option.some.inj h
    rfl
  | _ => cases h

theorem range?_resize (h : sumRange.range? = some s) (size : Nat × Nat) :
    (resize sumRange size).range? = some (placed s.start size) := by
  rw [resize_eq_reshape h]
  rfl

theorem addresses_resize (h : sumRange.range? = some s) (size : Nat × Nat) :
    (resize sumRange size).addresses = (placed s.start size).cells := by
  rw [resize_eq_reshape h]
  rfl

theorem sheet?_resize (h : sumRange.range? = some s) (size : Nat × Nat) :
    (resize sumRange size).sheet? = sumRange.sheet? := by
  rw [resize_eq_reshape h]
  rfl

/-- It ends on the sheet or where it starts, so that its cells can be counted. -/
theorem countable_placed (corner : CellAddress) (size : Nat × Nat) : (placed corner size).Countable := by
  have hlast : ∀ first count limit, lastIndex first count limit = min (first + (count - 1)) (limit - 1) :=
    fun _ _ _ => rfl
  rw [CellRange.countable_iff]
  simp only [placed, CellRange.between, CellAddress.relative, hlast, maxRows, maxCols, CellRange.rowWords,
    CellRange.colWords]
  split <;> split <;> dsimp only <;> omega

/-- From a corner on the sheet it has the rows and the columns that fit. -/
theorem cells_placed {corner : CellAddress} (hcorner : corner.InBounds) {m n : Nat} (hm : 0 < m) (hn : 0 < n) :
    (placed corner (m, n)).cells =
      (List.range (min m (maxRows - corner.row) * min n (maxCols - corner.col))).map fun k =>
        .relative (corner.row + k / min n (maxCols - corner.col)) (corner.col + k % min n (maxCols - corner.col)) := by
  obtain ⟨hrow, hcol⟩ := hcorner
  have hlastRow := lastIndex_eq hrow hm
  have hlastCol := lastIndex_eq hcol hn
  have hplaced : placed corner (m, n) =
      ⟨corner, .relative (lastIndex corner.row m maxRows) (lastIndex corner.col n maxCols)⟩ := by
    refine CellRange.between_of_normal
      (r := ⟨corner, .relative (lastIndex corner.row m maxRows) (lastIndex corner.col n maxCols)⟩) ?_
    simp only [CellRange.Normal, CellAddress.relative]
    omega
  have hcount := countable_placed corner (m, n)
  have hrows : (placed corner (m, n)).rowCount = min m (maxRows - corner.row) := by
    rw [hcount.rowCount_eq, hplaced]
    dsimp only [CellAddress.relative]
    omega
  have hcols : (placed corner (m, n)).colCount = min n (maxCols - corner.col) := by
    rw [hcount.colCount_eq, hplaced]
    dsimp only [CellAddress.relative]
    omega
  rw [CellRange.cells_eq_map, CellRange.cellCount, hrows, hcols]
  refine List.map_congr_left fun k _ => ?_
  rw [CellRange.cellAt, hcols, hplaced]

/-! ### Pairs -/

/-- The cells of a range together with the cells of the sum range that are added for them. -/
def pairs (range sumRange : Token) : List (CellAddress × CellAddress) :=
  range.addresses.zip (resize sumRange (shape range range.addresses.length)).addresses

/-- Cells with a partner on the sheet are paired with it, and the others with none. -/
def PairsPartners (range sumRange : Token) (r s : CellRange) : Prop :=
  pairs range sumRange =
    (range.addresses.filter fun a => decide (r.partner s.start a).InBounds).map fun a => (a, r.partner s.start a)

/-- From the corner on, a range keeps its columns on the sheet, or no more than one row; or none of its cells is counted. -/
def KeepsColumns (r : CellRange) (corner : CellAddress) : Prop :=
  corner.InBounds ∧ (corner.col + r.colCount ≤ maxCols ∨ r.rowCount = 1 ∨ corner.row + 1 = maxRows) ∨ r.cellCount = 0

instance (r : CellRange) (corner : CellAddress) : Decidable (KeepsColumns r corner) :=
  inferInstanceAs (Decidable (_ ∨ _))

theorem shape_of_range? (h : range.range? = some r) (count : Nat) : shape range count = (r.rowCount, r.colCount) := by
  unfold shape
  rw [h]

theorem pairs_eq_zip (hrange : range.range? = some r) (hsum : sumRange.range? = some s) :
    pairs range sumRange = range.addresses.zip (placed s.start (r.rowCount, r.colCount)).cells := by
  rw [pairs, shape_of_range? hrange, addresses_resize hsum]

/-- The first `m'` rows and `n'` columns of a table are its first entries if no column is lost or only one row is left. -/
theorem inFirst_iff {m' n n' k : Nat} (hn : 0 < n) (hn' : n' ≤ n) (hkeeps : n' = n ∨ m' = 1) :
    (k / n < m' ∧ k % n < n') ↔ k < m' * n' := by
  rcases hkeeps with rfl | rfl
  · rw [Nat.div_lt_iff_lt_mul hn, and_iff_left (Nat.mod_lt k hn)]
  · rw [Nat.div_lt_iff_lt_mul hn, Nat.one_mul, Nat.one_mul]
    constructor
    · rintro ⟨hk, hmod⟩
      rwa [Nat.mod_eq_of_lt hk] at hmod
    · intro hk
      rw [Nat.mod_eq_of_lt (by omega)]
      omega

/-- These entries are in the same place in both tables. -/
private theorem divMod_eq {m' n n' k : Nat} (hn' : n' ≤ n) (hkeeps : n' = n ∨ m' = 1) (hk : k < m' * n') :
    k / n' = k / n ∧ k % n' = k % n := by
  rcases hkeeps with rfl | rfl
  · exact ⟨rfl, rfl⟩
  · rw [Nat.one_mul] at hk
    have hkn : k < n := by omega
    rw [Nat.div_eq_of_lt hk, Nat.div_eq_of_lt hkn, Nat.mod_eq_of_lt hk, Nat.mod_eq_of_lt hkn]
    exact ⟨rfl, rfl⟩

/-- The cells with a partner on the sheet are the first ones, and the sum range consists of their partners. -/
private theorem exists_kept (hrange : range.range? = some r) (hkeeps : KeepsColumns r s.start) (hcount : r.Countable) :
    ∃ (count : Nat) (f : Nat → CellAddress), count ≤ r.cellCount ∧
      range.addresses = (List.range r.cellCount).map f ∧
      (range.addresses.filter fun a => decide (r.partner s.start a).InBounds) = (List.range count).map f ∧
      (placed s.start (r.rowCount, r.colCount)).cells = (List.range count).map fun k => r.partner s.start (f k) := by
  obtain ⟨f, haddresses, hf⟩ := Token.exists_addresses hrange
  obtain ⟨hcorner, hcolumns⟩ := hkeeps.resolve_right (CellRange.cellCount_pos_iff.2 hcount).ne'
  have hrows : 0 < r.rowCount := hcount.rowCount_pos
  have hcols : 0 < r.colCount := hcount.colCount_pos
  let m' := min r.rowCount (maxRows - s.start.row)
  let n' := min r.colCount (maxCols - s.start.col)
  have hn' : n' ≤ r.colCount := Nat.min_le_left ..
  have hone : n' = r.colCount ∨ m' = 1 := by
    obtain ⟨hrow, hcol⟩ := hcorner
    omega
  have hle : m' * n' ≤ r.cellCount := Nat.mul_le_mul (Nat.min_le_left ..) hn'
  -- With all columns, or within the first row, the same number is the same place in both walks.
  refine ⟨m' * n', f, hle, haddresses, ?_, ?_⟩
  · rw [haddresses]
    refine filter_map_range hle fun k hk => ?_
    have hkrow : k / r.colCount < r.rowCount := (Nat.div_lt_iff_lt_mul hcols).2 hk
    have hkcol : k % r.colCount < r.colCount := Nat.mod_lt k hcols
    rw [decide_eq_decide, ← inFirst_iff hcols hn' hone, CellRange.partner_cellAt (hf k hk)]
    generalize k / r.colCount = i at *
    simp only [CellAddress.InBounds, CellAddress.relative]
    omega
  · rw [cells_placed hcorner hrows hcols]
    refine List.map_congr_left fun k hk => ?_
    have hk : k < m' * n' := List.mem_range.1 hk
    obtain ⟨hdiv, hmod⟩ := divMod_eq hn' hone hk
    rw [CellRange.partner_cellAt (hf k (by omega)), ← hdiv, ← hmod]

theorem cells_placed_of_keepsColumns (hrange : range.range? = some r) (hkeeps : KeepsColumns r s.start)
    (hcount : r.Countable) : (placed s.start (r.rowCount, r.colCount)).cells =
      (range.addresses.filter fun a => decide (r.partner s.start a).InBounds).map (r.partner s.start) := by
  obtain ⟨count, f, -, -, hfilter, hcells⟩ := exists_kept hrange hkeeps hcount
  rw [hfilter, hcells, List.map_map]
  rfl

theorem pairsPartners_of_keepsColumns (hrange : range.range? = some r) (hsum : sumRange.range? = some s)
    (hkeeps : KeepsColumns r s.start) : PairsPartners range sumRange r s := by
  rw [PairsPartners, pairs_eq_zip hrange hsum]
  by_cases hcount : r.Countable
  · obtain ⟨count, f, hle, haddresses, hfilter, hcells⟩ := exists_kept hrange hkeeps hcount
    rw [hfilter, hcells, haddresses, zip_map_range hle, List.map_map]
    rfl
  · rw [Token.addresses_eq_nil hrange hcount]
    rfl

/-- A cell that is paired has its partner on the sheet. -/
theorem PairsPartners.inBounds (h : PairsPartners range sumRange r s) (hrange : range.range? = some r)
    (hsum : sumRange.range? = some s) {k : Nat} (hk : k < r.cellCount)
    (hk' : k < (placed s.start (r.rowCount, r.colCount)).cells.length) :
    s.start.row + k / r.colCount < maxRows ∧ s.start.col + k % r.colCount < maxCols := by
  obtain ⟨f, haddresses, hf⟩ := Token.exists_addresses hrange
  rw [PairsPartners, pairs_eq_zip hrange hsum, haddresses] at h
  have hzip : k < (((List.range r.cellCount).map f).zip (placed s.start (r.rowCount, r.colCount)).cells).length := by
    rw [List.length_zip, List.length_map, List.length_range]
    omega
  have hpaired := List.getElem_mem hzip
  rw [List.getElem_zip, h, List.mem_map] at hpaired
  obtain ⟨a, ha, hpair⟩ := hpaired
  have hinBounds : (r.partner s.start a).InBounds := of_decide_eq_true (List.mem_filter.1 ha).2
  obtain rfl : a = f k := by simpa using congrArg Prod.fst hpair
  rwa [CellRange.partner_cellAt (hf k hk)] at hinBounds

/-- If columns are lost and two rows are on the sheet, then the first cell beyond the last column is paired. -/
theorem pairsPartners_iff (hrange : range.range? = some r) (hsum : sumRange.range? = some s) :
    PairsPartners range sumRange r s ↔ KeepsColumns r s.start := by
  refine ⟨fun h => ?_, pairsPartners_of_keepsColumns hrange hsum⟩
  by_cases hcount : r.Countable
  case neg => exact .inr (CellRange.cellCount_eq_zero hcount)
  have hrows : 0 < r.rowCount := hcount.rowCount_pos
  have hcols : 0 < r.colCount := hcount.colCount_pos
  have hcorner : s.start.InBounds := by
    have hlength : 0 < (placed s.start (r.rowCount, r.colCount)).cells.length := by
      rw [CellRange.length_cells]
      exact CellRange.cellCount_pos_iff.2 (countable_placed ..)
    have hfirst := h.inBounds hrange hsum (Nat.mul_pos hrows hcols) hlength
    rwa [Nat.zero_div, Nat.zero_mod] at hfirst
  refine .inl ⟨hcorner, ?_⟩
  by_contra hlost
  obtain ⟨hrow, hcol⟩ := hcorner
  -- The first row has its cell with this number behind the last column, and the sum range has it in the second row.
  let n' := maxCols - s.start.col
  have hn' : n' < r.colCount := by omega
  have hcount : n' < r.cellCount := Nat.lt_of_lt_of_le hn' (Nat.le_mul_of_pos_left _ hrows)
  have hlength : n' < (placed s.start (r.rowCount, r.colCount)).cells.length := by
    rw [cells_placed ⟨hrow, hcol⟩ hrows hcols, List.length_map, List.length_range, Nat.min_eq_right hn'.le]
    exact lt_mul_of_one_lt_left (by omega) (by omega)
  have hbeyond := (h.inBounds hrange hsum hcount hlength).2
  rw [Nat.mod_eq_of_lt hn'] at hbeyond
  omega

end Selection

end Spreadsheet
