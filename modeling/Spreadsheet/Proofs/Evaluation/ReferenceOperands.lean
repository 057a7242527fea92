import Spreadsheet.Proofs.Address.Rectangle
import Spreadsheet.Proofs.Evaluation.Operands
import Spreadsheet.Proofs.Formula.ReferenceText

/-!
# Operands of the reference operators

A reference operator reads its operands as lists of references, from left to right, and combines the lists without asking
any more questions (`runFrom_applyOperator_references`).  The areas in a list are normal if they come from two corners or
from a text, and also if all areas of earlier lists have been split into cells (`Token.asReferences_normal`).
-/

namespace Spreadsheet

variable {σ : Type} {s : Scope σ}

/-! ### The cells of an entry -/

namespace Reference

/-- The cell is one of those that the entry refers to.  An invalid entry refers to none. -/
def covers (ref : Reference) (a : CellAddress) : Bool :=
  ref.range?.any (·.contains a)

/-- The entry refers to a rectangle from its top left corner to its bottom right one, if to anything. -/
def Normal (ref : Reference) : Prop :=
  ∀ range ∈ ref.range?, range.Normal

theorem covers_cell (sheet : Option String) (a b : CellAddress) : (cell sheet a).covers b = a.sameCell b :=
  CellRange.contains_single

theorem normal_cell (sheet : Option String) (a : CellAddress) : (cell sheet a).Normal := by
  rintro range ⟨⟩
  exact ⟨Nat.le_refl _, Nat.le_refl _⟩

theorem normal_invalid (e : ErrorCode) : (invalid e).Normal :=
  nofun

theorem normal_area {sheet : Option String} {range : CellRange} (h : range.Normal) : (area sheet range).Normal := by
  rintro range ⟨⟩
  exact h

/-- The cells of the entry can be counted, if it is an area. -/
def Countable : Reference → Prop
  | area _ range => range.Normal ∧ range.Countable
  | _ => True

instance : DecidablePred Countable := fun ref =>
  match ref with
  | area _ range => inferInstanceAs (Decidable (range.Normal ∧ range.Countable))
  | cell .. | invalid _ => inferInstanceAs (Decidable True)

/-- Cells that were split off an area are normal whatever the area was. -/
theorem normal_of_mem_cells {ref single : Reference} (h : single ∈ ref.cells) : single.Normal := by
  cases ref with
  | area sheet range =>
    obtain ⟨a, -, rfl⟩ := List.mem_map.1 h
    exact normal_cell sheet a
  | cell sheet a =>
    obtain rfl := List.mem_singleton.1 h
    exact normal_cell sheet a
  | invalid e =>
    obtain rfl := List.mem_singleton.1 h
    exact normal_invalid e

private theorem normal_of_read (text : String) {ref : Reference} (h : read text = .ok ref) : ref.Normal := by
  rcases cases_of_read h with rfl | rfl | ⟨r, hr, rfl⟩
  · exact normal_invalid _
  · exact normal_invalid _
  · unfold ofSheetReference
    split
    · exact normal_area hr.range.normal
    · exact normal_cell _ _

end Reference

/-! ### Lists of references -/

open Eval

private theorem References.readText_normal (text : List Char) :
    Satisfies Reference.Normal (fun _ => True) (readText text) := by
  unfold readText
  cases hread : Reference.readChars text with
  | error f => exact trivial
  | ok ref => exact Reference.normal_of_read (.ofList text) (by rw [Reference.read, String.toList_ofList, hread])

private theorem References.readScalar_normal (v : Scalar) :
    Satisfies Reference.Normal (fun _ => True) (readScalar v) := by
  unfold readScalar
  split
  · exact readText_normal _
  · exact trivial

/-- All that comes out, if anything does, are entries for normal areas. -/
def Eval.GivesNormal (x : Eval σ (List Reference)) : Prop :=
  x.Meets (fun _ => True) (fun refs => ∀ ref ∈ refs, ref.Normal) fun _ => True

namespace Token

/-- Only the areas in a list that is not split may be anything. -/
theorem asReferences_normal {split : Bool} {t : Token}
    (hlist : ∀ refs, t = references refs → split = true ∨ ∀ ref ∈ refs, ref.Normal)
    (hnested : ∀ n ∈ s.nested?, ∀ t, (n.references split t).GivesNormal) : (t.asReferences s split).GivesNormal := by
  have hdefinition : ∀ x : Eval σ (List Token),
      (s.nested >>= fun n => x >>= fun body => n.evaluate body >>= n.references split).GivesNormal := by
    intro x
    unfold Scope.nested
    cases hn : s.nested? with
    | none => exact .throw trivial
    | some n => exact (Meets.any x).bind fun body _ => (Meets.any _).bind fun t _ => hnested n hn t
  cases t with
  | cell sheet a => exact .pure (List.forall_mem_singleton.2 (Reference.normal_cell sheet a))
  | area sheet first last =>
    exact .pure (List.forall_mem_singleton.2 (Reference.normal_area (CellRange.normal_between first last)))
  | name id => exact hdefinition (s.resolver.name id)
  | shared anchor => exact hdefinition (s.resolver.shared anchor)
  | text t => exact .ofExcept (satisfies_mapM References.readText_normal _)
  | array rows => exact .ofExcept (satisfies_mapM References.readScalar_normal _)
  | references refs =>
    refine .pure ?_
    cases split with
    | true =>
      intro ref href
      obtain ⟨ref', -, href⟩ := List.mem_flatMap.1 href
      exact Reference.normal_of_mem_cells href
    | false => exact (hlist refs rfl).resolve_left Bool.false_ne_true
  | error e circular => exact .pure fun ref href => absurd href List.not_mem_nil
  | _ => exact .throw trivial

/-- With all lists split into cells, the entries are normal on every level. -/
theorem asReferences_split_normal (settings : Settings) (r : Resolver σ) (n : Nat) (t : Token) :
    (t.asReferences (.withLevels settings r n) true).GivesNormal := by
  induction n generalizing t with
  | zero => exact asReferences_normal (fun _ _ => .inl rfl) nofun
  | succ n ih =>
    refine asReferences_normal (fun _ _ => .inl rfl) fun nested h t => ?_
    obtain rfl := Option.some.inj h
    exact ih t

end Token

/-! ### Splitting the lists -/

/-- Whenever the first reading gives entries, the second one gives the same entries or their cells. -/
def Eval.SplitsTo (x y : Eval σ (List Reference)) : Prop :=
  ∀ p refs p', x.runFrom p = (.ok refs, p') →
    ∃ refs', y.runFrom p = (.ok refs', p') ∧ (refs' = refs ∨ refs' = refs.flatMap Reference.cells)

theorem Eval.SplitsTo.refl (x : Eval σ (List Reference)) : x.SplitsTo x :=
  fun _ refs _ h => ⟨refs, h, .inl rfl⟩

theorem Eval.SplitsTo.bind {α : Type} (x : Eval σ α) {f g : α → Eval σ (List Reference)} (h : ∀ a, (f a).SplitsTo (g a)) :
    (x >>= f).SplitsTo (x >>= g) := by
  intro p refs p' hrun
  obtain ⟨a, q, ha, hf⟩ := Eval.runFrom_bind_eq_ok.1 hrun
  obtain ⟨refs', hg, hrefs⟩ := h a q refs p' hf
  exact ⟨refs', Eval.runFrom_bind_eq_ok.2 ⟨a, q, ha, hg⟩, hrefs⟩

namespace Token

private theorem asReferences_splitsTo_of_nested {t : Token}
    (hnested : ∀ n ∈ s.nested?, ∀ t, (n.references false t).SplitsTo (n.references true t)) :
    (t.asReferences s false).SplitsTo (t.asReferences s true) := by
  have hdefinition : ∀ x : Eval σ (List Token),
      (s.nested >>= fun n => x >>= fun body => n.evaluate body >>= n.references false).SplitsTo
        (s.nested >>= fun n => x >>= fun body => n.evaluate body >>= n.references true) := by
    intro x
    cases hn : s.nested? with
    | none =>
      rw [Scope.nested, hn]
      exact .refl _
    | some n =>
      have hnext : s.nested = pure n := by rw [Scope.nested, hn]
      rw [hnext, pure_bind, pure_bind]
      exact .bind _ fun body => .bind _ fun t => hnested n hn t
  cases t with
  | name id => exact hdefinition (s.resolver.name id)
  | shared anchor => exact hdefinition (s.resolver.shared anchor)
  | references refs =>
    rintro p refs p' ⟨⟩
    exact ⟨_, rfl, .inr rfl⟩
  | _ => exact .refl _

/-- An operand is read with its lists as they are, or with their areas split into cells. -/
theorem asReferences_splitsTo (settings : Settings) (r : Resolver σ) (n : Nat) (t : Token) :
    (t.asReferences (.withLevels settings r n) false).SplitsTo (t.asReferences (.withLevels settings r n) true) := by
  induction n generalizing t with
  | zero => exact asReferences_splitsTo_of_nested nofun
  | succ n ih =>
    refine asReferences_splitsTo_of_nested fun nested h t => ?_
    obtain rfl := Option.some.inj h
    exact ih t

end Token

/-! ### Combining the lists -/

namespace Operator

/-- What a reference operator makes of two lists. -/
def onReferences (op : Operator) (first second : List Reference) : Except FormulaError (List Reference) :=
  match op with
  | union => .ok (first ++ second)
  | intersect => .ok (References.intersection first second)
  | _ => (References.boundingArea (first ++ second)).map ([·])

end Operator

theorem runFrom_applyOperator_references (op : Operator) (hop : op.isReference) {a b : Token}
    {first second : List Reference} {p p' : σ}
    (h : ([a, b].mapM (Token.asReferences s (op != .intersect))).runFrom p = (.ok [first, second], p')) :
    (applyOperator s op [a, b]).runFrom p = ((op.onReferences first second).map .references, p') := by
  have happly : applyOperator s op [a, b] = applyReferenceOperator s op a b := by
    cases op with
    | intersect | union | range => rfl
    | _ => cases hop
  obtain ⟨q, ha, h⟩ := Eval.runFrom_mapM_cons.1 h
  obtain ⟨q', hb, h⟩ := Eval.runFrom_mapM_cons.1 h
  cases h
  rw [happly, applyReferenceOperator, Eval.runFrom_bind, ha]
  dsimp only
  rw [Eval.runFrom_bind, hb]
  cases op with
  | intersect | union => rfl
  | range =>
    dsimp only [Operator.onReferences]
    rw [Eval.runFrom_bind, Eval.runFrom_ofExcept]
    cases References.boundingArea (first ++ second) <;> rfl
  | _ => cases hop

end Spreadsheet
