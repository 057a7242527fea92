import Spreadsheet.Proofs.Evaluation.ReferenceOperands

/-!
# Intersection

The overlaps of two lists are taken pair by pair, and one cell may lie in several of them.  Keeping the first entry of each
cell leaves every common cell once (`References.countP_keepFirst`), with the sheet of the first entry that reaches it
(`References.find?_of_mem_keepFirst`).  This makes the intersection the set of common cells (`References.IsIntersection`),
which does not depend on the order of the operands, as long as the cells of each overlap can be counted.
-/

namespace Spreadsheet

/-- The cells that the two entries share can be counted. -/
def Reference.SharesCountably (ref other : Reference) : Prop :=
  ∀ r ∈ ref.range?, ∀ o ∈ other.range?, ∀ common ∈ r.intersect? o, common.Countable

theorem Reference.SharesCountably.symm {ref other : Reference} (h : ref.SharesCountably other) :
    other.SharesCountably ref := by
  intro o ho r hr common hcommon
  rw [CellRange.intersect?_comm] at hcommon
  exact h r hr o ho common hcommon

namespace References

variable {first second refs : List Reference} {seen : Std.HashSet (Nat × Nat)}
  {items : List (Option String × CellAddress)}

/-! ### The first entry of each cell -/

private theorem keepFirst_eq_append (found : List Reference) :
    keepFirst seen found items = found.reverse ++ keepFirst seen [] items := by
  induction items generalizing seen found with
  | nil => exact (List.append_nil _).symm
  | cons item items ih =>
    rw [keepFirst, keepFirst]
    split
    · exact ih found
    · rw [ih, ih [_]]
      simp

/-- What is kept of a list with one more entry in front. -/
private theorem keepFirst_cons (sheet : Option String) (a : CellAddress) : keepFirst seen [] ((sheet, a) :: items) =
    if seen.contains (a.row, a.col) then keepFirst seen [] items else
    .cell sheet a :: keepFirst (seen.insert (a.row, a.col)) [] items := by
  rw [keepFirst, keepFirst_eq_append [_]]
  rfl

/-- A cell that has not been seen is kept once if it occurs at all. -/
theorem countP_keepFirst (a : CellAddress) : (keepFirst seen [] items).countP (·.covers a) =
    if !seen.contains (a.row, a.col) && items.any (·.2.sameCell a) then 1 else 0 := by
  induction items generalizing seen with
  | nil => simp [keepFirst]
  | cons item items ih =>
    obtain ⟨sheet, b⟩ := item
    rw [keepFirst_cons, List.any_cons]
    by_cases hb : seen.contains (b.row, b.col)
    · rw [if_pos hb, ih]
      by_cases hab : b.sameCell a
      · rw [CellAddress.sameCell_iff.1 hab] at hb
        simp [hb]
      · rw [Bool.not_eq_true] at hab
        rw [hab, Bool.false_or]
    · rw [if_neg hb, List.countP_cons, ih, Reference.covers_cell, Std.HashSet.contains_insert]
      by_cases hab : b.sameCell a
      · rw [CellAddress.sameCell_iff.1 hab] at hb
        simp [hab, hb, CellAddress.sameCell_iff.1 hab]
      · have hkey : ((b.row, b.col) == (a.row, a.col)) = false :=
          beq_eq_false_iff_ne.2 fun h => hab (CellAddress.sameCell_iff.2 h)
        rw [Bool.not_eq_true] at hab
        simp only [hab, hkey, Bool.false_or, Bool.false_eq_true, if_false, Nat.add_zero]

/-- Only cells are kept, each as its first entry. -/
theorem find?_of_mem_keepFirst {ref : Reference} (h : ref ∈ keepFirst seen [] items) :
    ∃ sheet a, ref = .cell sheet a ∧ seen.contains (a.row, a.col) = false ∧
      items.find? (·.2.sameCell a) = some (sheet, a) := by
  induction items generalizing seen with
  | nil => simp [keepFirst] at h
  | cons item items ih =>
    obtain ⟨sheet, b⟩ := item
    rw [keepFirst_cons] at h
    split at h
    · rename_i hb
      obtain ⟨sheet', a, rfl, ha, hfind⟩ := ih h
      refine ⟨sheet', a, rfl, ha, ?_⟩
      -- The cell of the entry in front has been seen, and this one has not.
      have hab : b.sameCell a = false := by
        rw [Bool.eq_false_iff, ne_eq, CellAddress.sameCell_iff]
        intro hab
        rw [hab, ha] at hb
        cases hb
      rw [List.find?_cons_of_neg (by simp [hab]), hfind]
    · rename_i hb
      rcases List.mem_cons.1 h with rfl | h
      · exact ⟨sheet, b, rfl, Bool.eq_false_iff.2 hb, List.find?_cons_of_pos (by simp [CellAddress.sameCell])⟩
      · obtain ⟨sheet', a, rfl, ha, hfind⟩ := ih h
        rw [Std.HashSet.contains_insert, Bool.or_eq_false_iff, beq_eq_false_iff_ne] at ha
        refine ⟨sheet', a, rfl, ha.2, ?_⟩
        have hab : b.sameCell a = false := by
          rw [Bool.eq_false_iff, ne_eq, CellAddress.sameCell_iff]
          exact ha.1
        rw [List.find?_cons_of_neg (by simp [hab]), hfind]

/-! ### The overlaps of an entry -/

/-- Every overlap with an entry has the sheet of that entry, and no absolute marks. -/
theorem eq_of_mem_overlaps {ref : Reference} {entry : Option String × CellAddress} (h : entry ∈ overlaps second ref) :
    entry = (ref.sheet?, .relative entry.2.row entry.2.col) := by
  obtain ⟨other, -, h⟩ := List.mem_flatMap.1 h
  split at h
  · split at h
    · obtain ⟨a, ha, rfl⟩ := List.mem_map.1 h
      obtain ⟨k, -, rfl⟩ := List.mem_map.1 ha
      rfl
    · cases h
  · cases h

/-- Both the entry and the other list cover an overlap. -/
theorem covers_of_mem_overlaps {ref : Reference} (href : ref.Normal) (hsecond : ∀ other ∈ second, other.Normal)
    {entry : Option String × CellAddress} (h : entry ∈ overlaps second ref) :
    ref.covers entry.2 ∧ second.any (·.covers entry.2) := by
  obtain ⟨other, hother, h⟩ := List.mem_flatMap.1 h
  unfold Reference.covers
  cases hr : ref.range? with
  | none =>
    rw [hr] at h
    cases h
  | some r =>
    cases ho : other.range? with
    | none =>
      rw [hr, ho] at h
      cases h
    | some o =>
      rw [hr, ho] at h
      cases hinter : r.intersect? o with
      | none => simp [hinter] at h
      | some common =>
        simp only [hinter] at h
        obtain ⟨a, ha, rfl⟩ := List.mem_map.1 h
        have hcommon := CellRange.contains_intersect? (href r hr) (hsecond other hother o ho) a
        have hcovered := (CellRange.contains_of_mem_cells (CellRange.normal_of_intersect? hinter) ha).1
        rw [hinter, Option.any_some, hcovered, eq_comm, Bool.and_eq_true] at hcommon
        exact ⟨hcommon.1, List.any_eq_true.2 ⟨other, hother, by rw [ho]; exact hcommon.2⟩⟩

/-- An entry overlaps with the cells that it shares with the other list. -/
theorem any_overlaps {ref : Reference} (href : ref.Normal) (hsecond : ∀ other ∈ second, other.Normal)
    (hcount : ∀ other ∈ second, ref.SharesCountably other) (a : CellAddress) :
    (overlaps second ref).any (·.2.sameCell a) = (ref.covers a && second.any (·.covers a)) := by
  rw [overlaps, List.any_flatMap, List.and_any_distrib_left, Bool.eq_iff_iff, List.any_eq_true, List.any_eq_true]
  refine exists_congr fun other => and_congr_right fun hother => ?_
  rw [← Bool.eq_iff_iff]
  unfold Reference.covers
  cases hr : ref.range? with
  | none => rfl
  | some r =>
    cases ho : other.range? with
    | none => simp
    | some o =>
      have hcommon := CellRange.contains_intersect? (href r hr) (hsecond other hother o ho) a
      simp only [Option.any_some, ← hcommon]
      cases hinter : r.intersect? o with
      | none => rfl
      | some common =>
        simp only [Option.any_some, List.any_map]
        exact CellRange.any_sameCell_cells (CellRange.normal_of_intersect? hinter)
          (hcount other hother r hr o ho common hinter) a

/-- The first entry that overlaps with the other list in some cell gives it its sheet. -/
theorem find?_overlaps {sheet : Option String} {a : CellAddress} (hfirst : ∀ ref ∈ first, ref.Normal)
    (hsecond : ∀ other ∈ second, other.Normal) (hcount : ∀ ref ∈ first, ∀ other ∈ second, ref.SharesCountably other)
    (h : (first.flatMap (overlaps second)).find? (·.2.sameCell a) = some (sheet, a)) :
    ∃ ref, first.find? (fun ref => ref.covers a && second.any (·.covers a)) = some ref ∧ sheet = ref.sheet? := by
  rw [List.find?_flatMap] at h
  obtain ⟨before, ref, after, rfl, hfind, hbefore⟩ := List.findSome?_eq_some_iff.1 h
  have hmem : ∀ ref' ∈ before ++ [ref], ref' ∈ before ++ ref :: after := by
    intro ref' href'
    simp only [List.mem_append, List.mem_cons] at href' ⊢
    tauto
  have hany : ∀ ref' ∈ before ++ [ref],
      (overlaps second ref').any (·.2.sameCell a) = (ref'.covers a && second.any (·.covers a)) :=
    fun ref' href' => any_overlaps (hfirst ref' (hmem ref' href')) hsecond (hcount ref' (hmem ref' href')) a
  refine ⟨ref, List.find?_eq_some_iff_append.2 ⟨?_, before, after, rfl, fun ref' href' => ?_⟩, ?_⟩
  · rw [← hany ref (by simp)]
    exact List.any_eq_true.2 (List.find?_isSome.1 (by rw [hfind]; rfl))
  · rw [← hany ref' (by simp [href']), Bool.not_eq_true', List.any_eq_false]
    exact List.find?_eq_none.1 (hbefore ref' href')
  · exact (Prod.mk.inj (eq_of_mem_overlaps (List.mem_of_find?_eq_some hfind))).1

/-! ### The set of common cells -/

/-- A list of single cells: all that both lists cover, each once, with the sheet of the first entry of the first list that
covers it together with the second list. -/
structure IsIntersection (first second refs : List Reference) : Prop where
  cells : ∀ ref ∈ refs, ∃ sheet row col, ref = .cell sheet (.relative row col)
  once : ∀ a, refs.countP (·.covers a) = if first.any (·.covers a) && second.any (·.covers a) then 1 else 0
  sheet : ∀ sheet a, .cell sheet a ∈ refs →
    ∃ ref, first.find? (fun ref => ref.covers a && second.any (·.covers a)) = some ref ∧ sheet = ref.sheet?

private theorem isIntersection_intersection (hfirst : ∀ ref ∈ first, ref.Normal)
    (hsecond : ∀ other ∈ second, other.Normal) (hcount : ∀ ref ∈ first, ∀ other ∈ second, ref.SharesCountably other) :
    IsIntersection first second (intersection first second) where
  cells ref href := by
    obtain ⟨sheet, a, rfl, -, hfind⟩ := find?_of_mem_keepFirst href
    obtain ⟨ref, -, hmem⟩ := List.mem_flatMap.1 (List.mem_of_find?_eq_some hfind)
    exact ⟨sheet, a.row, a.col, congrArg _ (Prod.mk.inj (eq_of_mem_overlaps hmem)).2⟩
  once a := by
    have hany : (first.flatMap (overlaps second)).any (·.2.sameCell a) =
        (first.any (·.covers a) && second.any (·.covers a)) := by
      rw [List.any_flatMap, List.and_any_distrib_right, Bool.eq_iff_iff, List.any_eq_true, List.any_eq_true]
      refine exists_congr fun ref => and_congr_right fun href => ?_
      rw [any_overlaps (hfirst ref href) hsecond (hcount ref href)]
    rw [intersection, countP_keepFirst, hany, Std.HashSet.contains_empty, Bool.not_false, Bool.true_and]
  sheet sheet a ha := by
    obtain ⟨sheet, a, ⟨⟩, -, hfind⟩ := find?_of_mem_keepFirst ha
    exact find?_overlaps hfirst hsecond hcount hfind

/-- Without a common cell nothing is left, whether overlaps can be counted or not. -/
theorem intersection_eq_nil (hfirst : ∀ ref ∈ first, ref.Normal) (hsecond : ∀ other ∈ second, other.Normal)
    (hdisjoint : ∀ a, ¬(first.any (·.covers a) ∧ second.any (·.covers a))) : intersection first second = [] := by
  refine List.eq_nil_iff_forall_not_mem.2 fun ref href => ?_
  obtain ⟨sheet, a, rfl, -, hfind⟩ := find?_of_mem_keepFirst href
  obtain ⟨ref, href, hmem⟩ := List.mem_flatMap.1 (List.mem_of_find?_eq_some hfind)
  obtain ⟨hcovers, hsecond⟩ := covers_of_mem_overlaps (hfirst ref href) hsecond hmem
  exact hdisjoint a ⟨List.any_eq_true.2 ⟨ref, href, hcovers⟩, hsecond⟩

namespace IsIntersection

/-- The intersection is empty if there are no common cells, and only then. -/
theorem eq_nil_iff (h : IsIntersection first second refs) :
    refs = [] ↔ ∀ a, (first.any (·.covers a) && second.any (·.covers a)) = false := by
  constructor
  · rintro rfl a
    rw [Bool.eq_false_iff]
    intro ha
    have honce := h.once a
    rw [if_pos ha] at honce
    cases honce
  · intro hnone
    refine List.eq_nil_iff_forall_not_mem.2 fun ref href => ?_
    obtain ⟨sheet, row, col, rfl⟩ := h.cells ref href
    have honce := h.once (.relative row col)
    rw [hnone, if_neg Bool.false_ne_true, List.countP_eq_zero] at honce
    exact honce _ href (by simp [Reference.covers_cell, CellAddress.sameCell])

/-- The intersection is the same set of cells from both sides. -/
theorem countP_swap {refs' : List Reference} (h : IsIntersection first second refs)
    (h' : IsIntersection second first refs') (a : CellAddress) :
    refs'.countP (·.covers a) = refs.countP (·.covers a) := by
  rw [h.once, h'.once, Bool.and_comm]

end IsIntersection

end References

/-! ### The operator -/

variable {σ : Type} {s : Scope σ} {a b : Token} {first second : List Reference} {p p' : σ}

end Spreadsheet
