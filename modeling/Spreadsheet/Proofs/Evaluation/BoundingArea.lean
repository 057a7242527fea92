import Spreadsheet.Proofs.Evaluation.ReferenceOperands

/-!
# The bounding area

The range operator extends a rectangle by the corners of one entry after another.  What it has so far is always the least
rectangle around the entries so far (`CellRange.IsHull.extend`), and so is the result (`References.boundingArea_isHull`).
As an operand the result is split into its cells, and it can take the place of the two lists it was made of
(`References.SameHull`): the same rectangles enclose both.
-/

namespace Spreadsheet

/-- The entry refers to a rectangle from its top left corner to its bottom right one. -/
def Reference.IsProper (ref : Reference) : Prop :=
  ∃ range, ref.range? = some range ∧ range.Normal

private theorem Reference.isProper_of_normal {refs : List Reference} (hnormal : ∀ ref ∈ refs, ref.Normal)
    (hvalid : ∀ e, .invalid e ∉ refs) : ∀ ref ∈ refs, ref.IsProper := by
  intro ref href
  cases ref with
  | invalid e => exact absurd href (hvalid e)
  | cell | area => exact ⟨_, rfl, hnormal _ href _ rfl⟩

/-! ### Least rectangles -/

namespace CellRange

/-- All cells of the entries lie in the rectangle. -/
def Encloses (r : CellRange) (refs : List Reference) : Prop :=
  ∀ ref ∈ refs, ∀ a, ref.covers a → r.contains a

private theorem encloses_append {r : CellRange} {refs refs' : List Reference} :
    r.Encloses (refs ++ refs') ↔ r.Encloses refs ∧ r.Encloses refs' :=
  List.forall_mem_append

private theorem encloses_singleton {r : CellRange} {ref : Reference} :
    r.Encloses [ref] ↔ ∀ a, ref.covers a → r.contains a :=
  List.forall_mem_singleton

/-- The corners of the entries are enough. -/
theorem encloses_of_corners {r : CellRange} {refs : List Reference}
    (h : ∀ ref ∈ refs, ∀ s ∈ ref.range?, r.contains s.start ∧ r.contains s.stop) : r.Encloses refs := by
  intro ref href a ha
  obtain ⟨s, hs, ha⟩ := (Option.any_eq_true _ _).1 ha
  obtain ⟨hstart, hstop⟩ := h ref href s hs
  exact contains_of_corners hstart hstop ha

/-- The rectangle has all cells of the entries in it, and lies in every other one that has. -/
structure IsHull (r : CellRange) (refs : List Reference) : Prop where
  normal : r.Normal
  encloses : r.Encloses refs
  least : ∀ s : CellRange, s.Encloses refs → ∀ a, r.contains a → s.contains a

namespace IsHull

variable {r s : CellRange} {refs refs' : List Reference} {ref : Reference}

theorem single (hrange : ref.range? = some r) (hr : r.Normal) : r.IsHull [ref] := by
  have hcovers : ∀ a, ref.covers a = r.contains a := fun a => by rw [Reference.covers, hrange, Option.any_some]
  refine ⟨hr, encloses_singleton.2 fun a ha => hcovers a ▸ ha, fun s hs a ha => ?_⟩
  exact encloses_singleton.1 hs a ((hcovers a).symm ▸ ha)

/-- Two corners are enough for one more entry. -/
theorem extend (h : r.IsHull refs) (hrange : ref.range? = some s) (hs : s.Normal) :
    ((r.extendTo s.start).extendTo s.stop).IsHull (refs ++ [ref]) := by
  have hsingle := single hrange hs
  have hstart : (r.extendTo s.start).Normal := normal_extendTo r s.start
  refine ⟨normal_extendTo _ _, encloses_append.2 ⟨fun other hother a ha => ?_, fun other hother a ha => ?_⟩,
    fun t ht a ha => ?_⟩
  · exact contains_extendTo hstart (.inl (contains_extendTo h.normal (.inl (h.encloses other hother a ha))))
  · refine contains_of_corners ?_ ?_ (hsingle.encloses other hother a ha)
    · exact contains_extendTo hstart (.inl (contains_extendTo h.normal (.inr rfl)))
    · exact contains_extendTo hstart (.inr rfl)
  · -- A rectangle with all cells of the new entry has its corners.
    obtain ⟨hrefs, href⟩ := encloses_append.1 ht
    have hst := hsingle.least t href
    exact contains_of_extendTo hstart
      (fun b hb => contains_of_extendTo h.normal (h.least t hrefs) (hst _ hs.contains_start) hb)
      (hst _ hs.contains_stop) ha

/-- A least rectangle depends only on the rectangles that enclose the entries. -/
theorem of_encloses_iff (h : r.IsHull refs) (hsame : ∀ t : CellRange, t.Encloses refs ↔ t.Encloses refs') :
    r.IsHull refs' :=
  ⟨h.normal, (hsame r).1 h.encloses, fun t ht => h.least t ((hsame t).2 ht)⟩

private theorem countable (h : r.IsHull refs) (hs : s.Encloses refs) (hcount : s.Countable)
    (hstop : s.stop.row < rowWords ∧ s.stop.col < colWords) : r.Countable :=
  hcount.of_subset h.normal (h.least s hs) hstop

theorem contains_eq (hr : r.IsHull refs) (hs : s.IsHull refs) (a : CellAddress) : s.contains a = r.contains a :=
  Bool.eq_iff_iff.2 ⟨hs.least r hr.encloses a, hr.least s hs.encloses a⟩

end IsHull

end CellRange

/-! ### The entries one after another -/

namespace References

variable {refs before : List Reference} {bounds : Option CellRange} {sheet : Option String}

/-- The rectangle so far: none before the first entry, and the least one behind it. -/
def BoundsOf (before : List Reference) : Option CellRange → Prop
  | none => before = []
  | some r => r.IsHull before

private theorem boundsOf_growBounds {ref : Reference} {r : CellRange} (h : BoundsOf before bounds)
    (hrange : ref.range? = some r) (hr : r.Normal) : BoundsOf (before ++ [ref]) (some (growBounds bounds r)) := by
  cases bounds with
  | none =>
    obtain rfl : before = [] := h
    exact CellRange.IsHull.single hrange hr
  | some b => exact CellRange.IsHull.extend h hrange hr

private theorem boundingFrom_isHull (h : BoundsOf before bounds) (hrefs : ∀ ref ∈ refs, ref.IsProper)
    (hne : before ++ refs ≠ []) :
    ∃ sheet' r, boundingFrom sheet bounds refs = .ok (.area sheet' r) ∧ r.IsHull (before ++ refs) := by
  induction refs generalizing sheet bounds before with
  | nil =>
    rw [List.append_nil] at hne ⊢
    cases bounds with
    | none => exact absurd h hne
    | some b => exact ⟨sheet, b, rfl, h⟩
  | cons ref refs ih =>
    obtain ⟨⟨r, hrange, hr⟩, hrest⟩ := List.forall_mem_cons.1 hrefs
    rw [boundingFrom, hrange, List.append_cons]
    exact ih (boundsOf_growBounds h hrange hr) hrest (by simp)

private theorem boundingFrom_eq_ref_iff :
    boundingFrom sheet bounds refs = .error (.code .ref) ↔ ∃ e, .invalid e ∈ refs := by
  induction refs generalizing sheet bounds with
  | nil => cases bounds <;> simp [boundingFrom]
  | cons ref refs ih =>
    rw [boundingFrom]
    cases ref with
    | invalid e => simp [Reference.range?]
    | cell | area => simp [Reference.range?, ih]

private theorem boundingFrom_eq_null_iff :
    boundingFrom sheet bounds refs = .error (.code .null) ↔ bounds = none ∧ refs = [] := by
  induction refs generalizing sheet bounds with
  | nil => cases bounds <;> simp [boundingFrom]
  | cons ref refs ih =>
    rw [boundingFrom]
    cases hrange : ref.range? with
    | none => simp
    | some r => simp [ih]

private theorem boundingArea_eq_null_iff : boundingArea refs = .error (.code .null) ↔ refs = [] :=
  boundingFrom_eq_null_iff.trans (and_iff_right rfl)

/-- The area around a list of proper entries. -/
theorem boundingArea_isHull (hrefs : ∀ ref ∈ refs, ref.IsProper) (hne : refs ≠ []) :
    ∃ sheet r, boundingArea refs = .ok (.area sheet r) ∧ r.IsHull refs := by
  have hbefore : BoundsOf [] none := rfl
  exact boundingFrom_isHull hbefore hrefs hne

/-! ### Lists that take each other's place -/

/-- The second list can take the place of the first one: it has the same invalid entries, it is empty if the first one is,
and the same rectangles enclose both. -/
structure SameHull (refs refs' : List Reference) : Prop where
  invalid_iff : ∀ e, .invalid e ∈ refs' ↔ .invalid e ∈ refs
  eq_nil_iff : refs' = [] ↔ refs = []
  encloses_iff : ∀ r : CellRange, r.Encloses refs' ↔ r.Encloses refs

namespace SameHull

variable {refs' refs'' others others' : List Reference}

theorem refl (refs : List Reference) : SameHull refs refs :=
  ⟨fun _ => Iff.rfl, Iff.rfl, fun _ => Iff.rfl⟩

theorem trans (h : SameHull refs refs') (h' : SameHull refs' refs'') : SameHull refs refs'' where
  invalid_iff e := (h'.invalid_iff e).trans (h.invalid_iff e)
  eq_nil_iff := h'.eq_nil_iff.trans h.eq_nil_iff
  encloses_iff r := (h'.encloses_iff r).trans (h.encloses_iff r)

theorem swap (refs others : List Reference) : SameHull (refs ++ others) (others ++ refs) where
  invalid_iff e := by rw [List.mem_append, List.mem_append, or_comm]
  eq_nil_iff := by rw [List.append_eq_nil_iff, List.append_eq_nil_iff, and_comm]
  encloses_iff r := by rw [CellRange.encloses_append, CellRange.encloses_append, and_comm]

theorem append (h : SameHull refs refs') (h' : SameHull others others') : SameHull (refs ++ others) (refs' ++ others') where
  invalid_iff e := by rw [List.mem_append, List.mem_append, h.invalid_iff, h'.invalid_iff]
  eq_nil_iff := by rw [List.append_eq_nil_iff, List.append_eq_nil_iff, h.eq_nil_iff, h'.eq_nil_iff]
  encloses_iff r := by rw [CellRange.encloses_append, CellRange.encloses_append, h.encloses_iff, h'.encloses_iff]

/-- Normal entries that stand for valid ones are proper. -/
theorem isProper (h : SameHull refs refs') (hvalid : ∀ e, .invalid e ∉ refs) (hnormal : ∀ ref ∈ refs', ref.Normal) :
    ∀ ref ∈ refs', ref.IsProper :=
  Reference.isProper_of_normal hnormal fun e he => hvalid e ((h.invalid_iff e).1 he)

end SameHull

/-- The cells of an area take its place if they can be counted. -/
theorem sameHull_cells {ref : Reference} (h : ref.Countable) : SameHull [ref] ref.cells := by
  cases ref with
  | cell | invalid => exact .refl _
  | area sheet r =>
    obtain ⟨hnormal, hcount⟩ := h
    refine ⟨fun e => by simp [Reference.cells], iff_of_false (fun hnil => ?_) (List.cons_ne_nil _ _), fun t => ?_⟩
    · have hstart := (CellRange.any_sameCell_cells hnormal hcount r.start).trans hnormal.contains_start
      rw [List.map_eq_nil_iff.1 hnil] at hstart
      cases hstart
    · rw [CellRange.encloses_singleton]
      constructor
      · intro ht a ha
        have ha : r.cells.any (·.sameCell a) := (CellRange.any_sameCell_cells hnormal hcount a).trans ha
        obtain ⟨b, hb, hsame⟩ := List.any_eq_true.1 ha
        exact ht (.cell sheet b) (List.mem_map_of_mem hb) a (by rwa [Reference.covers_cell])
      · intro ht ref href a ha
        obtain ⟨b, hb, rfl⟩ := List.mem_map.1 href
        rw [Reference.covers_cell] at ha
        exact ht a ((CellRange.any_sameCell_cells hnormal hcount a).symm.trans (List.any_eq_true.2 ⟨b, hb, ha⟩))

private theorem sameHull_flatMap_cells (h : ∀ ref ∈ refs, ref.Countable) :
    SameHull refs (refs.flatMap Reference.cells) := by
  induction refs with
  | nil => exact .refl _
  | cons ref refs ih =>
    obtain ⟨href, hrefs⟩ := List.forall_mem_cons.1 h
    exact .append (sameHull_cells href) (ih hrefs)

/-- The area around a list takes its place. -/
theorem sameHull_area {r : CellRange} (h : r.IsHull refs) (hvalid : ∀ e, .invalid e ∉ refs) (hne : refs ≠ [])
    (sheet : Option String) : SameHull refs [.area sheet r] where
  invalid_iff e := by simp [hvalid e]
  eq_nil_iff := by simp [hne]
  encloses_iff t := by
    rw [CellRange.encloses_singleton]
    exact ⟨fun ht ref href a ha => ht a (h.encloses ref href a ha), h.least t⟩

end References

/-! ### The operator -/

variable {σ : Type} {s : Scope σ} {settings : Settings} {r : Resolver σ} {n : Nat} {a b c : Token}
  {first second third : List Reference} {p p' q q' : σ}

private theorem runFrom_applyOperator_range
    (h : ([a, b].mapM (Token.asReferences s true)).runFrom p = (.ok [first, second], p')) :
    (applyOperator s .range [a, b]).runFrom p =
      ((References.boundingArea (first ++ second)).map fun ref => .references [ref], p') := by
  refine (runFrom_applyOperator_references .range rfl h).trans ?_
  dsimp only [Operator.onReferences]
  cases References.boundingArea (first ++ second) <;> rfl

/-- The range operator between two cells gives the area of which they are corners. -/
theorem applyOperator_range_cells (s : Scope σ) (sheet : Option String) (a b : CellAddress) :
    ∃ area : CellRange, area.cells = (CellRange.between a b).cells ∧
      applyOperator s .range [.cell sheet a, .cell sheet b] = pure (.references [.area sheet area]) := by
  refine ⟨(CellRange.single a).extendTo b, CellRange.cells_extendTo_single a b, ?_⟩
  have hbounds : References.boundingArea [.cell sheet a, .cell sheet b] =
      .ok (.area sheet (((CellRange.single a).extendTo b).extendTo b)) := by
    cases sheet <;> rfl
  rw [CellRange.extendTo_extendTo ⟨Nat.le_refl _, Nat.le_refl _⟩] at hbounds
  show (Eval.ofExcept (References.boundingArea [.cell sheet a, .cell sheet b]) >>= fun area =>
    pure (Token.references [area])) = _
  rw [hbounds]
  rfl

/-- Lists whose areas have all been split are normal. -/
theorem mapM_asReferences_normal {ts : List Token} {lists : List (List Reference)}
    (h : (ts.mapM (Token.asReferences (.withLevels settings r n) true)).runFrom p = (.ok lists, p')) :
    ∀ refs ∈ lists, ∀ ref ∈ refs, ref.Normal := by
  have hlists := (Eval.Meets.mapM fun t (_ : t ∈ ts) => t.asReferences_split_normal settings r n) p trivial
  rw [h] at hlists
  exact hlists.2

/-- The operand is no earlier list of references, whose areas are split into cells, or it is one with areas that can be
counted. -/
def Token.SplitsCountably (s : Scope σ) (t : Token) : Prop :=
  ∀ p refs p', (t.asReferences s false).runFrom p = (.ok refs, p') →
    (t.asReferences s true).runFrom p = (.ok refs, p') ∨ ∀ ref ∈ refs, ref.Countable

/-- Operands are read as lists that can take the place of the entries that they have. -/
theorem exists_split {ts : List Token} (hts : ∀ t ∈ ts, t.SplitsCountably (.withLevels settings r n))
    {lists : List (List Reference)}
    (h : (ts.mapM (Token.asReferences (.withLevels settings r n) false)).runFrom p = (.ok lists, p')) :
    ∃ lists', (ts.mapM (Token.asReferences (.withLevels settings r n) true)).runFrom p = (.ok lists', p') ∧
      List.Forall₂ References.SameHull lists lists' := by
  induction ts generalizing lists p with
  | nil =>
    cases h
    exact ⟨[], rfl, .nil⟩
  | cons t ts ih =>
    obtain ⟨ht, hrest⟩ := List.forall_mem_cons.1 hts
    rw [List.mapM_cons] at h
    obtain ⟨refs, q, hrefs, h⟩ := Eval.runFrom_bind_eq_ok.1 h
    obtain ⟨lists, q', hlists, ⟨⟩⟩ := Eval.runFrom_bind_eq_ok.1 h
    obtain ⟨lists', hlists', hsame⟩ := ih hrest hlists
    obtain ⟨refs', hrefs', hsplit⟩ : ∃ refs', (t.asReferences (.withLevels settings r n) true).runFrom p = (.ok refs', q) ∧
        References.SameHull refs refs' := by
      rcases ht p refs q hrefs with hkept | hcount
      · exact ⟨refs, hkept, .refl _⟩
      · obtain ⟨refs', hrefs', rfl | rfl⟩ := t.asReferences_splitsTo settings r n p refs q hrefs
        · exact ⟨_, hrefs', .refl _⟩
        · exact ⟨_, hrefs', References.sameHull_flatMap_cells hcount⟩
    exact ⟨refs' :: lists', Eval.runFrom_mapM_cons.2 ⟨q, hrefs', hlists'⟩, .cons hsplit hsame⟩

/-- From the one state to the other the computation gives one area, which is the least rectangle around the entries. -/
def Eval.GivesHull (x : Eval σ Token) (p p' : σ) (refs : List Reference) : Prop :=
  ∃ sheet area, x.runFrom p = (.ok (.references [.area sheet area]), p') ∧ area.IsHull refs

section Operands

variable {refs refs' : List Reference}

private theorem range_givesHull (h : ([a, b].mapM (Token.asReferences s true)).runFrom p = (.ok [first, second], p'))
    (hnormal : ∀ ref ∈ first ++ second, ref.Normal) (hsame : References.SameHull refs (first ++ second))
    (hvalid : ∀ e, .invalid e ∉ refs) (hne : refs ≠ []) : (applyOperator s .range [a, b]).GivesHull p p' refs := by
  obtain ⟨sheet, area, harea, hhull⟩ :=
    References.boundingArea_isHull (hsame.isProper hvalid hnormal) (mt hsame.eq_nil_iff.1 hne)
  exact ⟨sheet, area, by rw [runFrom_applyOperator_range h, harea]; rfl, hhull.of_encloses_iff hsame.encloses_iff⟩

/-- The result as an operand, which is an error value and counts as no reference if there is no entry. -/
theorem exists_range_operand (h : ([a, b].mapM (Token.asReferences s true)).runFrom p = (.ok [first, second], p'))
    (hnormal : ∀ ref ∈ first ++ second, ref.Normal) (hsame : References.SameHull refs (first ++ second))
    (hvalid : ∀ e, .invalid e ∉ refs) (hcount : ∀ area : CellRange, area.IsHull refs → area.Countable) :
    ∃ t joined, (applyOperator s .range [a, b]).trap.runFrom p = (.ok t, p') ∧ t.asReferences s true = pure joined ∧
      (∀ ref ∈ joined, ref.Normal) ∧ References.SameHull refs joined := by
  by_cases hne : refs = []
  · refine ⟨.ofCode .null, [], ?_, rfl, nofun, by rw [hne]; exact .refl _⟩
    rw [Eval.runFrom_trap, runFrom_applyOperator_range h, hsame.eq_nil_iff.2 hne]
    rfl
  · obtain ⟨sheet, area, hrun, hhull⟩ := range_givesHull h hnormal hsame hvalid hne
    have harea : ∀ ref ∈ [Reference.area sheet area], ref.Countable :=
      List.forall_mem_singleton.2 ⟨hhull.normal, hcount area hhull⟩
    refine ⟨.references [.area sheet area], _, ?_, rfl, fun ref href => ?_,
      (References.sameHull_area hhull hvalid hne sheet).trans (References.sameHull_flatMap_cells harea)⟩
    · rw [Eval.runFrom_trap, hrun]
      rfl
    · obtain ⟨ref', -, href⟩ := List.mem_flatMap.1 href
      exact Reference.normal_of_mem_cells href

/-- The first two of three operands joined first. -/
theorem range_left_givesHull
    (h : ([a, b, c].mapM (Token.asReferences s true)).runFrom p = (.ok [first, second, third], p'))
    (hnormal : ∀ ref ∈ first ++ second ++ third, ref.Normal) (hsame : References.SameHull refs (first ++ second))
    (hthird : References.SameHull refs' third) (hvalid : ∀ e, .invalid e ∉ refs ++ refs') (hne : refs ++ refs' ≠ [])
    (hcount : ∀ area : CellRange, area.IsHull refs → area.Countable) :
    Eval.GivesHull (do applyOperator s .range [← (applyOperator s .range [a, b]).trap, c]) p p' (refs ++ refs') := by
  obtain ⟨q, ha, h⟩ := Eval.runFrom_mapM_cons.1 h
  obtain ⟨q', hb, hc⟩ := Eval.runFrom_mapM_cons.1 h
  obtain ⟨hnormal, hnormal'⟩ := List.forall_mem_append.1 hnormal
  have hab : ([a, b].mapM (Token.asReferences s true)).runFrom p = (.ok [first, second], q') :=
    Eval.runFrom_mapM_cons.2 ⟨q, ha, Eval.runFrom_mapM_cons.2 ⟨q', hb, rfl⟩⟩
  have hvalid' : ∀ e, .invalid e ∉ refs := fun e he => hvalid e (List.mem_append_left _ he)
  obtain ⟨t, joined, hrun, ht, hjoined, hsame'⟩ := exists_range_operand hab hnormal hsame hvalid' hcount
  have htc := Eval.runFrom_mapM_cons.2 ⟨q', congrArg (·.runFrom q') ht, hc⟩
  obtain ⟨sheet, area, harea, hhull⟩ :=
    range_givesHull htc (List.forall_mem_append.2 ⟨hjoined, hnormal'⟩) (hsame'.append hthird) hvalid hne
  exact ⟨sheet, area, Eval.runFrom_bind_eq_ok.2 ⟨t, q', hrun, harea⟩, hhull⟩

/-- The last two of three operands joined first. -/
theorem range_right_givesHull
    (h : ([b, c, a].mapM (Token.asReferences s true)).runFrom p = (.ok [second, third, first], p'))
    (hnormal : ∀ ref ∈ first ++ (second ++ third), ref.Normal) (hfirst : References.SameHull refs first)
    (hsame : References.SameHull refs' (second ++ third)) (hvalid : ∀ e, .invalid e ∉ refs ++ refs')
    (hne : refs ++ refs' ≠ []) (hcount : ∀ area : CellRange, area.IsHull refs' → area.Countable) :
    Eval.GivesHull (do applyOperator s .range [a, ← (applyOperator s .range [b, c]).trap]) p p' (refs ++ refs') := by
  obtain ⟨q, hb, h⟩ := Eval.runFrom_mapM_cons.1 h
  obtain ⟨q', hc, h⟩ := Eval.runFrom_mapM_cons.1 h
  obtain ⟨q'', ha, ⟨⟩⟩ := Eval.runFrom_mapM_cons.1 h
  obtain ⟨hnormal', hnormal⟩ := List.forall_mem_append.1 hnormal
  have hbc : ([b, c].mapM (Token.asReferences s true)).runFrom p = (.ok [second, third], q') :=
    Eval.runFrom_mapM_cons.2 ⟨q, hb, Eval.runFrom_mapM_cons.2 ⟨q', hc, rfl⟩⟩
  have hvalid' : ∀ e, .invalid e ∉ refs' := fun e he => hvalid e (List.mem_append_right _ he)
  obtain ⟨t, joined, hrun, ht, hjoined, hsame'⟩ := exists_range_operand hbc hnormal hsame hvalid' hcount
  have hat : ([a, t].mapM (Token.asReferences s true)).runFrom q' = (.ok [first, joined], p') :=
    Eval.runFrom_mapM_cons.2 ⟨p', ha, Eval.runFrom_mapM_cons.2 ⟨p', congrArg (·.runFrom p') ht, rfl⟩⟩
  obtain ⟨sheet, area, harea, hhull⟩ :=
    range_givesHull hat (List.forall_mem_append.2 ⟨hnormal', hjoined⟩) (hfirst.append hsame') hvalid hne
  exact ⟨sheet, area, Eval.runFrom_bind_eq_ok.2 ⟨t, q', hrun, harea⟩, hhull⟩

end Operands

/-- From the one state to the other the computation gives one area with the cells of the rectangle. -/
def Eval.GivesArea (x : Eval σ Token) (p p' : σ) (range : CellRange) : Prop :=
  ∃ sheet area, x.runFrom p = (.ok (.references [.area sheet area]), p') ∧ area.Normal ∧
    ∀ a, area.contains a = range.contains a

private theorem Eval.GivesHull.givesArea {x : Eval σ Token} {refs : List Reference} {range : CellRange}
    (hx : x.GivesHull p p' refs) (hrange : range.IsHull refs) : x.GivesArea p p' range := by
  obtain ⟨sheet, area, hrun, hhull⟩ := hx
  exact ⟨sheet, area, hrun, hhull.normal, hrange.contains_eq hhull⟩

end Spreadsheet
