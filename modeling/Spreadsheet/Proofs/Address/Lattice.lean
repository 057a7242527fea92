import Spreadsheet.Proofs.Address.Rectangle

/-!
# The lattice of ranges

Ranges are ordered by the cells that they contain.  The common rectangle of two ranges is the greatest one in both, and
there is none if and only if they do not share a cell (`overlaps_iff`, `intersect?_eq_none_iff`).  A range that is extended
by a cell is the least one around both.  Neither the order of the two corners that a range is made of nor their absolute
marks matter, since only the places of the corners are ever compared (`SameCorners`).
-/

namespace Spreadsheet.CellRange

variable {r r' s s' : CellRange} {a a' b b' : CellAddress}

/-! ### The places of the corners -/

/-- Both corners are in the same places.  Their absolute marks may differ. -/
structure SameCorners (r s : CellRange) : Prop where
  top : r.start.row = s.start.row
  left : r.start.col = s.start.col
  bottom : r.stop.row = s.stop.row
  right : r.stop.col = s.stop.col

namespace SameCorners

theorem contains_eq (h : r.SameCorners r') (hab : a.sameCell b) : r.contains a = r'.contains b := by
  obtain ⟨hrow, hcol⟩ := Prod.mk.inj (CellAddress.sameCell_iff.1 hab)
  simp only [contains, h.top, h.left, h.bottom, h.right, hrow, hcol]

private theorem overlaps_eq (hr : r.SameCorners r') (hs : s.SameCorners s') : r.overlaps s = r'.overlaps s' := by
  simp only [overlaps, hr.top, hr.left, hr.bottom, hr.right, hs.top, hs.left, hs.bottom, hs.right]

/-- The common rectangle does not take over any marks. -/
theorem intersect?_eq (hr : r.SameCorners r') (hs : s.SameCorners s') : r.intersect? s = r'.intersect? s' := by
  simp only [intersect?, hr.overlaps_eq hs, hr.top, hr.left, hr.bottom, hr.right, hs.top, hs.left, hs.bottom, hs.right]

end SameCorners

private theorem sameCorners_between (ha : a.sameCell a') (hb : b.sameCell b') :
    (between a b).SameCorners (between a' b') := by
  obtain ⟨harow, hacol⟩ := Prod.mk.inj (CellAddress.sameCell_iff.1 ha)
  obtain ⟨hbrow, hbcol⟩ := Prod.mk.inj (CellAddress.sameCell_iff.1 hb)
  unfold between
  rw [harow, hacol, hbrow, hbcol]
  constructor <;> dsimp only <;> split <;> assumption

/-- Two corners in the same row or column may exchange their marks. -/
theorem sameCorners_between_swap (a b : CellAddress) : (between a b).SameCorners (between b a) := by
  constructor
  all_goals
    dsimp only [between]
    split <;> split <;> dsimp only <;> omega

/-! ### Common cells -/

/-- Ranges that overlap share the first cell of their common rectangle. -/
theorem overlaps_iff (hr : r.Normal) (hs : s.Normal) : r.overlaps s = true ↔ ∃ c, r.contains c ∧ s.contains c := by
  obtain ⟨hrrow, hrcol⟩ := hr
  obtain ⟨hsrow, hscol⟩ := hs
  simp only [overlaps, Bool.and_eq_true, decide_eq_true_eq, contains_iff]
  constructor
  · intro h
    refine ⟨.relative (max r.start.row s.start.row) (max r.start.col s.start.col), ?_⟩
    simp only [CellAddress.relative]
    omega
  · rintro ⟨c, hrc, hsc⟩
    omega

theorem intersect?_eq_none_iff : r.intersect? s = none ↔ ¬ r.overlaps s = true := by
  unfold intersect?
  split <;> simp [*]

/-! ### Any two corners -/

/-- The ranges between any two corners.  They start at the top left, and the other order of the corners gives the same
cells.  Two of them overlap if and only if they share a cell, and then their common rectangle has exactly the shared cells.
An extended range is the least one that contains the range and the cell.  Absolute marks play no part. -/
theorem between_lattice (a b a' b' x : CellAddress) :
    let r := between a b
    let s := between a' b'
    (r.start.row ≤ r.stop.row ∧ r.start.col ≤ r.stop.col) ∧
    (∀ c, (between b a).contains c = r.contains c) ∧
    (r.overlaps s = true ↔ ∃ c, r.contains c ∧ s.contains c) ∧
    (r.intersect? s = none ↔ ¬ ∃ c, r.contains c ∧ s.contains c) ∧
    (∀ common, r.intersect? s = some common → ∀ c, common.contains c ↔ r.contains c ∧ s.contains c) ∧
    ((∀ c, r.contains c → (r.extendTo x).contains c) ∧ (r.extendTo x).contains x) ∧
    (∀ t : CellRange, (∀ c, r.contains c → t.contains c) → t.contains x →
      ∀ c, (r.extendTo x).contains c → t.contains c) ∧
    ∀ a₁ b₁ a₂ b₂, a.sameCell a₁ → b.sameCell b₁ → a'.sameCell a₂ → b'.sameCell b₂ →
      (∀ c c₁, c.sameCell c₁ → (between a₁ b₁).contains c₁ = r.contains c) ∧
      (between a₁ b₁).overlaps (between a₂ b₂) = r.overlaps s ∧
      (between a₁ b₁).intersect? (between a₂ b₂) = r.intersect? s := by
  intro r s
  have hr : r.Normal := normal_between a b
  have hs : s.Normal := normal_between a' b'
  refine ⟨hr, fun c => ?_, overlaps_iff hr hs, ?_, fun common h c => ?_, ⟨fun c hc => ?_, ?_⟩, fun t ht hx c hc => ?_, ?_⟩
  · have hsame : c.sameCell c := CellAddress.sameCell_iff.2 rfl
    exact (sameCorners_between_swap b a).contains_eq hsame
  · rw [intersect?_eq_none_iff, overlaps_iff hr hs]
  · have hcommon := contains_intersect? hr hs c
    rw [h, Option.any_some] at hcommon
    rw [hcommon, Bool.and_eq_true]
  · exact contains_extendTo hr (.inl hc)
  · exact contains_extendTo hr (.inr rfl)
  · exact contains_of_extendTo hr ht hx hc
  · intro a₁ b₁ a₂ b₂ ha hb ha' hb'
    have hr₁ := sameCorners_between ha hb
    have hs₁ := sameCorners_between ha' hb'
    exact ⟨fun c c₁ hc => (hr₁.contains_eq hc).symm, (hr₁.overlaps_eq hs₁).symm, (hr₁.intersect?_eq hs₁).symm⟩

end Spreadsheet.CellRange
