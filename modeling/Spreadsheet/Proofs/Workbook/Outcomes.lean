import Spreadsheet.Proofs.Workbook.Coherence

/-!
# Properties of all outcomes

A property `Q` of the outcomes of cells holds of every outcome in every session if it holds of the values of cells
without formulas, of the two failures that a session gives by itself, and of the outcome of each formula that is
evaluated while the outcomes of all other cells have it (`OutcomeInvariant`).  All outcomes in the cache have the property
then, and so do those that sessions answer with (`OutcomeInvariant.cellValue`).
-/

namespace Spreadsheet

variable {wb : Workbook} {Q : Location → Except FormulaError Scalar → Prop}

/-- All cached outcomes have the property. -/
def Session.All (Q : Location → Except FormulaError Scalar → Prop) (s : Session) : Prop :=
  ∀ (l : Location) (r : Except FormulaError Scalar), s.cache[l]? = some r → Q l r

namespace Session

theorem all_new (sheet : Nat) : (Session.new sheet).All Q :=
  fun l r h => by simp [Session.new] at h

theorem All.store {s : Session} (h : s.All Q) {l : Location} {r : Except FormulaError Scalar} (hr : Q l r) :
    (s.store l r).All Q := by
  intro l' r' h'
  rw [Session.cache_store] at h'
  split at h'
  · subst l'
    obtain rfl := Option.some.inj h'
    exact hr
  · exact h l' r' h'

theorem All.conclude {s : Session} {l : Location} {x : Except FormulaError Scalar × Session} (h : x.2.All Q)
    (hx : Q l x.1) : (s.conclude l x).2.All Q := by
  rcases x with ⟨e | v, t⟩
  · exact h
  · show ((t.leave s.currentSheet).keep l v).All Q
    unfold Session.keep
    split
    · exact All.store (s := t.leave s.currentSheet) h hx
    · exact h

end Session

namespace Workbook

/-- In sessions in which all cached outcomes have the property, looking up a cell gives an outcome with the property and
keeps it up. -/
def Answers (Q : Location → Except FormulaError Scalar → Prop) (lookUp : Location → Eval Session Scalar) : Prop :=
  ∀ l s, s.All Q → Q l ((lookUp l).runFrom s).1 ∧ ((lookUp l).runFrom s).2.All Q

/-- The property holds of all outcomes that do not come from a formula, and of those of formulas if it holds of the
outcomes of the cells that they ask for. -/
structure OutcomeInvariant (wb : Workbook) (Q : Location → Except FormulaError Scalar → Prop) : Prop where
  stored : ∀ l, wb.formula? l = none → Q l (wb.stored l)
  circular : ∀ l, Q l (.error .circular)
  cut : ∀ l, Q l (.error (.code .value))
  formula : ∀ n, Answers Q (wb.lookUp n) → ∀ l tokens, wb.formula? l = some tokens → ∀ s : Session, s.All Q →
    Q l ((wb.evaluateWithin n tokens).runFrom s).1

theorem Answers.question {lookUp : Location → Eval Session Scalar} (h : Answers Q lookUp) (q : Question) (s : Session)
    (hs : s.All Q) : (((wb.resolverWith lookUp).answer q).runFrom s).2.All Q := by
  rcases wb.resolverWith_snd lookUp q s with e | ⟨l, e⟩
  · rw [e]
    exact hs
  · rw [e]
    exact (h l s hs).2

theorem Answers.evaluateWithin {n : Nat} (h : Answers Q (wb.lookUp n)) (tokens : List Token) (s : Session)
    (hs : s.All Q) : ((wb.evaluateWithin n tokens).runFrom s).2.All Q :=
  (evaluateFormula_isDialogue wb.settings tokens).run_invariant (r := wb.resolverWith (wb.lookUp n))
    (P := fun s t => s.All Q → t.All Q) (fun _ => id) (fun h h' => h' ∘ h) h.question s hs

namespace OutcomeInvariant

variable (h : wb.OutcomeInvariant Q)
include h

theorem lookUp (n : Nat) : Answers Q (wb.lookUp n) := by
  induction n using Nat.strongRecOn with
  | _ n ih =>
    intro l s hs
    rw [lookUp_runFrom]
    cases hf : wb.formula? l with
    | none => exact ⟨h.stored l hf, hs⟩
    | some tokens =>
      cases hc : s.cache[l]? with
      | some r => exact ⟨hs l r hc, hs⟩
      | none =>
        by_cases hp : l ∈ s.inProgress
        · simp only [hp, if_true]
          exact ⟨h.circular l, hs⟩
        · simp only [hp, if_false]
          cases n with
          | zero => exact ⟨h.cut l, hs⟩
          | succ n =>
            have ih' := ih n (Nat.lt_succ_self n)
            have hr := h.formula n ih' l tokens hf (s.enter l) hs
            dsimp only
            rw [Session.conclude_fst]
            exact ⟨hr, .conclude (ih'.evaluateWithin tokens (s.enter l) hs) hr⟩

private theorem cellValue_idle (l : Location) {s : Session} (hi : s.Idle) (hs : s.All Q) :
    Q l ((wb.cellValue l).runFrom s).1 ∧ ((wb.cellValue l).runFrom s).2.All Q := by
  -- A round hands on the outcome of the attempt, or the circular failure.
  have hround : ∀ {l' waiting} {s : Session} {r}, s.All Q →
      (((wb.lookUp maxChain l').runFrom s).2.deferred = none ∧ r = ((wb.lookUp maxChain l').runFrom s).1 ∨
        ∃ d ∈ l' :: waiting, ((wb.lookUp maxChain l').runFrom s).2.deferred = some d ∧ r = .error .circular) →
      Q l' r := by
    rintro l' waiting s r hs (⟨-, rfl⟩ | ⟨d, -, -, rfl⟩)
    · exact (h.lookUp maxChain l' s hs).1
    · exact h.circular l'
  -- The cell that was asked for stays at the end of the list of waiting cells.
  refine settle_induction (I := fun l' waiting s => s.All Q ∧ (l' :: waiting).getLast? = some l)
    (Q := fun r t => Q l r ∧ t.All Q) ?_ ?_ hi ⟨hs, rfl⟩ (budget_le_attempts l s)
  · rintro l' waiting s l'' waiting' s' hi ⟨hs, hlast⟩ hr
    have hall : ((wb.lookUp maxChain l').runFrom s).2.clear.All Q := (h.lookUp maxChain l' s hs).2
    have hidle := (wb.lookUp_evolves maxChain l' s).idle_clear hi
    rcases wb.round_cases l' waiting s with ⟨d, -, -, e⟩ | ⟨r, e, hcase⟩
    · rw [e] at hr
      cases hr
      exact ⟨hidle, hall, by rw [List.getLast?_cons_cons]; exact hlast⟩
    · rw [e] at hr
      cases waiting with
      | nil => cases hr
      | cons next waiting =>
        cases hr
        rw [List.getLast?_cons_cons] at hlast
        exact ⟨⟨hidle.inProgress, hidle.deferred⟩, hall.store (hround hs hcase), hlast⟩
  · rintro l' waiting s r' s' hi ⟨hs, hlast⟩ hr
    have hall : ((wb.lookUp maxChain l').runFrom s).2.clear.All Q := (h.lookUp maxChain l' s hs).2
    rcases wb.round_cases l' waiting s with ⟨d, -, -, e⟩ | ⟨r, e, hcase⟩
    · rw [e] at hr
      cases hr
    · rw [e] at hr
      cases waiting with
      | cons next waiting => cases hr
      | nil =>
        cases hr
        obtain rfl : l' = l := Option.some.inj hlast
        exact ⟨hround hs hcase, hall⟩

theorem reached {sheet : Nat} {s : Session} (hs : wb.Reached sheet s) : s.All Q := by
  induction hs with
  | new => exact Session.all_new sheet
  | value l hs ih => exact (h.cellValue_idle l hs.idle ih).2
  | @question s q hs ih =>
    rcases wb.resolverWith_snd wb.cellValue q s with e | ⟨l, e⟩
    · rw [show ((wb.resolver.answer q).runFrom s).2 = s from e]
      exact ih
    · rw [show ((wb.resolver.answer q).runFrom s).2 = _ from e]
      exact (h.cellValue_idle l hs.idle ih).2

/-- Whatever was asked for before, the outcome of a cell has the property. -/
theorem cellValue {sheet : Nat} {s : Session} (hs : wb.Reached sheet s) (l : Location) :
    Q l ((wb.cellValue l).runFrom s).1 :=
  (h.cellValue_idle l hs.idle (h.reached hs)).1

end OutcomeInvariant

end Workbook

end Spreadsheet
