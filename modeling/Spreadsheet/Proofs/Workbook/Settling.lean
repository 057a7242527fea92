import Mathlib.Data.Finset.Card
import Spreadsheet.Proofs.Workbook.LookUp

/-!
# Settling a cell, round by round

`Workbook.settle` tries a cell again and again until no chain is cut any more.  Here it is taken apart into rounds
(`round`, `settle_runFrom`).  Each round lowers `budget`: a cell goes on the list of waiting cells only if it has a
formula whose outcome is not known, and it leaves the list only when its outcome goes into the cache.  So the number of
attempts is never what ends the settling, and `settle_induction` proves a property of a settled cell from a property
that the rounds preserve.
-/

namespace Spreadsheet

namespace Session

/-- No cell is being evaluated and no cut is noted. -/
structure Idle (s : Session) : Prop where
  inProgress : s.inProgress = []
  deferred : s.deferred = none

/-- Forget the cut. -/
def clear (s : Session) : Session :=
  { s with deferred := none }

theorem idle_new (sheet : Nat) : (Session.new sheet).Idle :=
  ⟨rfl, rfl⟩

theorem Evolves.idle_clear {wb : Workbook} {s t : Session} (h : s.Evolves wb t) (hs : s.Idle) : t.clear.Idle :=
  ⟨h.inProgress.trans hs.inProgress, rfl⟩

end Session

namespace Workbook

/-- The state of settling after a round: the cell to try next and the cells that wait for it, or the outcome. -/
inductive Round where
  | again (l : Location) (waiting : List Location) (s : Session)
  | settled (r : Except FormulaError Scalar) (s : Session)

/-- Hand on the outcome for `l`, or keep it and go back to the cell that waits. -/
def handOn (r : Except FormulaError Scalar) (l : Location) (s : Session) : List Location → Round
  | [] => .settled r s
  | next :: waiting => .again next waiting (s.store l r)

variable (wb : Workbook)

/-- One round: an attempt, and what follows from it. -/
def round (l : Location) (waiting : List Location) (s : Session) : Round :=
  let x := (wb.lookUp maxChain l).runFrom s
  match x.2.deferred with
  | some d =>
    if d ∈ l :: waiting then handOn (.error .circular) l x.2.clear waiting else .again d (l :: waiting) x.2.clear
  | none => handOn x.1 l x.2.clear waiting

theorem settle_runFrom (fuel : Nat) (l : Location) (waiting : List Location) (s : Session) :
    (wb.settle (fuel + 1) l waiting).runFrom s =
      match wb.round l waiting s with
      | .again l' waiting' s' => (wb.settle fuel l' waiting').runFrom s'
      | .settled r s' => (r, s') := by
  have hc : ∀ (r : Except FormulaError Scalar) (w : List Location) (t : Session),
      (goBack (wb.settle fuel) r l w).runFrom t =
        match handOn r l t w with
        | .again l' waiting' s' => (wb.settle fuel l' waiting').runFrom s'
        | .settled r s' => (r, s') := by
    intro r w t
    cases w with
    | nil => exact Eval.runFrom_ofExcept r t
    | cons next w => rfl
  have ha : (wb.attempt l).runFrom s =
      (.ok (((wb.lookUp maxChain l).runFrom s).1, ((wb.lookUp maxChain l).runFrom s).2.deferred),
        ((wb.lookUp maxChain l).runFrom s).2.clear) := rfl
  unfold round
  rw [settle, Eval.runFrom_bind, ha]
  dsimp only
  cases ((wb.lookUp maxChain l).runFrom s).2.deferred with
  | none => exact hc _ _ _
  | some d =>
    by_cases hd : d ∈ l :: waiting
    · simp only [List.contains_iff_mem, hd, if_true]
      exact hc _ _ _
    · simp only [List.contains_iff_mem, hd, if_false]

/-- What a round can do: put the cell behind a cut on top, or hand on an outcome, which is that of the attempt unless a
chain was cut at a cell that waits. -/
theorem round_cases (l : Location) (waiting : List Location) (s : Session) :
    (∃ d, ((wb.lookUp maxChain l).runFrom s).2.deferred = some d ∧ d ∉ l :: waiting ∧
      wb.round l waiting s = .again d (l :: waiting) ((wb.lookUp maxChain l).runFrom s).2.clear) ∨
    ∃ r, wb.round l waiting s = handOn r l ((wb.lookUp maxChain l).runFrom s).2.clear waiting ∧
      (((wb.lookUp maxChain l).runFrom s).2.deferred = none ∧ r = ((wb.lookUp maxChain l).runFrom s).1 ∨
        ∃ d ∈ l :: waiting, ((wb.lookUp maxChain l).runFrom s).2.deferred = some d ∧ r = .error .circular) := by
  unfold round
  dsimp only
  cases ((wb.lookUp maxChain l).runFrom s).2.deferred with
  | none => exact .inr ⟨_, rfl, .inl ⟨rfl, rfl⟩⟩
  | some d =>
    dsimp only
    by_cases hd : d ∈ l :: waiting
    · rw [if_pos hd]
      exact .inr ⟨_, rfl, .inr ⟨d, hd, rfl, rfl⟩⟩
    · rw [if_neg hd]
      exact .inl ⟨d, rfl, hd, rfl⟩

/-! ### The number of rounds -/

/-- The formula cells that neither wait nor have a known outcome. -/
def unsettled (pending : List Location) (s : Session) : Finset Location :=
  wb.formulaLocations.toFinset.filter fun l => l ∉ pending ∧ s.cache[l]?.isNone

/-- How many rounds are left at most: two for each cell that may still be put on top, and one for each that waits. -/
def budget (pending : List Location) (s : Session) : Nat :=
  2 * (wb.unsettled pending s).card + pending.length

variable {wb}

private theorem mem_unsettled {pending : List Location} {s : Session} {l : Location} :
    l ∈ wb.unsettled pending s ↔ (wb.formula? l).isSome ∧ l ∉ pending ∧ s.cache[l]? = none := by
  rw [unsettled, Finset.mem_filter, List.mem_toFinset, mem_formulaLocations, Option.isNone_iff_eq_none]

private theorem budget_push {pending : List Location} {s t : Session} {d : Location} (h : s.Evolves wb t)
    (hs : s.deferred = none) (ht : t.deferred = some d) (hd : d ∉ pending) :
    wb.budget (d :: pending) t.clear < wb.budget pending s := by
  obtain ⟨hf, hc⟩ := h.deferred hs ht
  have hlt : (wb.unsettled (d :: pending) t.clear).card < (wb.unsettled pending s).card := by
    refine Finset.card_lt_card ((Finset.ssubset_iff_of_subset ?_).2 ⟨d, ?_, ?_⟩)
    · intro l hl
      obtain ⟨h1, h2, h3⟩ := mem_unsettled.1 hl
      exact mem_unsettled.2 ⟨h1, fun hm => h2 (List.mem_cons_of_mem _ hm), h.uncached h3⟩
    · exact mem_unsettled.2 ⟨hf, hd, h.uncached hc⟩
    · exact fun hm => (mem_unsettled.1 hm).2.1 (List.mem_cons_self ..)
  -- The new cell on top counts for one round, and it no longer counts for two among the unsettled ones.
  unfold budget
  rw [List.length_cons]
  omega

private theorem budget_pop {l : Location} {waiting : List Location} {s t : Session} (h : s.Evolves wb t)
    (r : Except FormulaError Scalar) : wb.budget waiting (t.clear.store l r) < wb.budget (l :: waiting) s := by
  have hle : (wb.unsettled waiting (t.clear.store l r)).card ≤ (wb.unsettled (l :: waiting) s).card := by
    refine Finset.card_le_card fun l' hl => ?_
    obtain ⟨h1, h2, h3⟩ := mem_unsettled.1 hl
    obtain ⟨hne, h4⟩ := Session.uncached_of_store h3
    refine mem_unsettled.2 ⟨h1, ?_, h.uncached h4⟩
    rw [List.mem_cons]
    rintro (rfl | hm)
    · exact hne rfl
    · exact h2 hm
  unfold budget
  rw [List.length_cons]
  omega

/-- A round after which settling goes on has used up some of the budget. -/
theorem budget_round {l l' : Location} {waiting waiting' : List Location} {s s' : Session} (hs : s.Idle)
    (h : wb.round l waiting s = .again l' waiting' s') :
    wb.budget (l' :: waiting') s' < wb.budget (l :: waiting) s := by
  have he := wb.lookUp_evolves maxChain l s
  rcases wb.round_cases l waiting s with ⟨d, hd, hm, e⟩ | ⟨r, e, -⟩
  · rw [e] at h
    cases h
    exact budget_push he hs.deferred hd hm
  · rw [e] at h
    cases waiting with
    | nil => cases h
    | cons next waiting =>
      cases h
      exact budget_pop he r

theorem length_formulaLocations : wb.formulaLocations.length = wb.formulaCount := by
  unfold formulaLocations formulaCount
  rw [List.length_flatMap, List.length_flatMap]
  simp only [List.length_map]
  conv => rhs; rw [← List.zipIdx_map_fst 0 wb.sheets, List.map_map]
  rfl

theorem budget_le_attempts (l : Location) (s : Session) : wb.budget [l] s ≤ wb.attempts := by
  have h : (wb.unsettled [l] s).card ≤ wb.formulaCount := by
    rw [← length_formulaLocations]
    exact (Finset.card_filter_le _ _).trans (List.toFinset_card_le _)
  unfold budget attempts
  simp only [List.length_cons, List.length_nil]
  omega

/-! ### Proofs about a settled cell -/

/-- What holds after each round holds of the outcome, because there are enough attempts for all rounds. -/
theorem settle_induction {I : Location → List Location → Session → Prop}
    {Q : Except FormulaError Scalar → Session → Prop}
    (again : ∀ {l waiting s l' waiting' s'}, s.Idle → I l waiting s → wb.round l waiting s = .again l' waiting' s' →
      s'.Idle ∧ I l' waiting' s')
    (settled : ∀ {l waiting s r s'}, s.Idle → I l waiting s → wb.round l waiting s = .settled r s' → Q r s')
    {fuel : Nat} {l : Location} {waiting : List Location} {s : Session} (hs : s.Idle) (hI : I l waiting s)
    (hb : wb.budget (l :: waiting) s ≤ fuel) :
    Q ((wb.settle fuel l waiting).runFrom s).1 ((wb.settle fuel l waiting).runFrom s).2 := by
  induction fuel generalizing l waiting s with
  | zero =>
    -- The cell on top alone takes one round.
    unfold budget at hb
    rw [List.length_cons] at hb
    omega
  | succ fuel ih =>
    rw [settle_runFrom]
    cases h : wb.round l waiting s with
    | again l' waiting' s' =>
      obtain ⟨hs', hI'⟩ := again hs hI h
      have := budget_round hs h
      exact ih hs' hI' (by omega)
    | settled r s' => exact settled hs hI h

end Workbook

end Spreadsheet
