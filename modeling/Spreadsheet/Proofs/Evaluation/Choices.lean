import Spreadsheet.Proofs.Evaluation.UnusedOperands

/-!
# Choices entry by entry

IF chooses in two ways.  A scalar condition gives one of the branches, which is then resolved; for a table both branches
are resolved first, and every entry of the table takes one of their entries.  The second way is the first one for every
entry (`Logic.ifThen_entrywise`): the operands that stand for the entries of a branch (`Logic.BranchEntries`) have these
entries as their values, and a scalar condition chooses between them (`Logic.outcome_ifThen_entry`).
-/

namespace Spreadsheet

namespace Logic

variable {σ : Type} {s : Scope σ} {p q : σ} {settings : Settings} {r : Resolver σ} {n : Nat} {I : σ → Prop}
  {c v w x : Value} {condition t : Token} {given : Option Token} {branches : List Token} {f g : Nat → Token}

/-! ### Entries of the condition -/

private theorem elements_mapIndexed (h : Value → Nat → Value) (v : Value) :
    (mapIndexed h v).elements = v.elements.zipIdx.map fun (x, i) => h x i :=
  Value.elements_ofElements _ _

private theorem getElem?_mapIndexed (h : Value → Nat → Value) {i : Nat} (hx : v.elements[i]? = some x) :
    (mapIndexed h v).elements[i]? = some (h x i) := by
  rw [elements_mapIndexed, List.getElem?_map, List.getElem?_zipIdx, hx, Nat.zero_add]
  rfl

private theorem length_mapIndexed (h : Value → Nat → Value) (v : Value) :
    (mapIndexed h v).elements.length = v.elements.length := by
  rw [elements_mapIndexed, List.length_map, List.length_zipIdx]

private theorem shape_mapIndexed (h : Value → Nat → Value) (hv : v.isArray = true) (hrectangular : v.IsRectangular) :
    (mapIndexed h v).shape = v.shape :=
  Value.shape_ofElements hv hrectangular (by rw [List.length_map, List.length_zipIdx])

/-- Only an error selects none of the branches. -/
theorem exists_error_of_choice (hx : choice? x = none) : ∃ e, x = .error e := by
  cases x with
  | error e => exact ⟨e, rfl⟩
  | _ => cases hx

private theorem runFrom_ifThen_error {e : ErrorCode} (hcondition : (condition.value s).runFrom p = (.ok (.error e), q))
    (hbranches : branches.length ≤ 2) :
    (ifThen s (condition :: branches)).runFrom p = (.ok (.ofCode e), q) := by
  unfold ifThen
  dsimp only
  rw [if_neg (by omega), Eval.runFrom_bind, runFrom_conditionValue hcondition]
  rfl

/-- A scalar condition chooses between branches whose values are the entries at an index. -/
theorem outcome_ifThen_entry (hx : x.isArray = false) (hbranches : branches.length ≤ 2) (i : Nat)
    (hentry : ∀ b, (((chosen b branches).value s).runFrom q).1 = .ok (pick (if b then v else w) i)) :
    ((Function.ifThen.resolved s (.ofValue x :: branches)).runFrom q).1 = .ok (select v w x i) := by
  have hcondition : ((Token.ofValue x).value s).runFrom q = (.ok x, q) := by
    rw [Token.value_ofValue (Value.isFlat_of_scalar hx)]
    rfl
  cases hchoice : choice? x with
  | none =>
    obtain ⟨e, rfl⟩ := exists_error_of_choice hchoice
    have hrun := runFrom_ifThen_error hcondition hbranches
    rw [Function.resolved_of_apply (f := .ifThen) (accepts_ifThen hbranches) hrun]
    rfl
  | some b =>
    have hrun := runFrom_ifThen_scalar hcondition hx hchoice hbranches
    rw [Function.resolved_of_apply (f := .ifThen) (accepts_ifThen hbranches) hrun, hentry b, select_of_choice hchoice]

/-! ### Entries of the branches -/

/-- The operands that stand for the entries of a branch, by their index.  An omitted branch is zero everywhere, a scalar
goes with all entries as it stands, and a table that is too short has #N/A in the places that it lacks. -/
inductive BranchEntries (s : Scope σ) (p : σ) : Option Token → (Nat → Token) → Prop
  | omitted : BranchEntries s p none fun _ => .number 0
  | missing : BranchEntries s p (some .missing) fun _ => .number 0
  | scalar {t : Token} {v : Value} : ((t.value s).runFrom p).1 = .ok v → v.isArray = false →
      BranchEntries s p (some t) fun _ => t
  | table {t : Token} {v : Value} : ((t.value s).runFrom p).1 = .ok v → v.isArray = true →
      BranchEntries s p (some t) fun i => .ofValue (v.elements.getD i (.error .na))

private theorem branch_of_ne_missing (ht : t ≠ .missing) : branch (some t) = t := by
  cases t with
  | missing => exact absurd rfl ht
  | _ => rfl

private theorem branch_ofValue (v : Value) : branch (some (.ofValue v)) = .ofValue v := by
  cases v <;> rfl

private theorem pick_of_array (hv : v.isArray = true) (i : Nat) : pick v i = v.elements.getD i (.error .na) := by
  cases v with
  | array rows => rfl
  | _ => cases hv

/-- If answers do not depend on the order of questions then a branch has the same value whenever it is resolved, and the
operands that stand for its entries have these entries as their values. -/
theorem BranchEntries.exists_value (hr : r.Steady I) (hp : I p)
    (h : BranchEntries (.withLevels settings r n) p given f) :
    ∃ v, ∀ q, I q → (((branch given).value (.withLevels settings r n)).runFrom q).1 = .ok v ∧
      ∀ i, (((branch (some (f i))).value (.withLevels settings r n)).runFrom q).1 = .ok (pick v i) := by
  have hagain : ∀ {t : Token} {v}, ((t.value (.withLevels settings r n)).runFrom p).1 = .ok v → ∀ q, I q →
      ((t.value (.withLevels settings r n)).runFrom q).1 = .ok v :=
    fun hv q hq => (Token.value_steady hr _ hq hp).1.trans hv
  cases h with
  | omitted | missing => exact ⟨.number 0, fun q _ => ⟨rfl, fun _ => rfl⟩⟩
  | @scalar t v hvalue hv =>
    by_cases ht : t = .missing
    · subst ht
      exact ⟨.number 0, fun q _ => ⟨rfl, fun _ => rfl⟩⟩
    · refine ⟨v, fun q hq => ?_⟩
      simp only [branch_of_ne_missing ht, pick_of_scalar hv]
      exact ⟨hagain hvalue q hq, fun _ => hagain hvalue q hq⟩
  | @table t v hvalue hv =>
    have ht : t ≠ .missing := by
      rintro rfl
      obtain rfl := Except.ok.inj hvalue
      cases hv
    have hflat : v.IsFlat := Token.isFlat_of_runFrom_value (Prod.ext hvalue rfl)
    refine ⟨v, fun q hq => ⟨by rw [branch_of_ne_missing ht, hagain hvalue q hq], fun i => ?_⟩⟩
    rw [branch_ofValue, ← pick_of_array hv, Token.value_ofValue (Value.isFlat_of_scalar (isArray_pick hflat i))]
    rfl

/-! ### The function -/

/-- Each entry of the result is what IF gives for the entry of the condition and for the entries of the branches in the
same place.  There are as many as in the condition, in the same rows if these are equally long and not empty. -/
theorem ifThen_entrywise (hr : r.Steady I) (hp : I p)
    (hcondition : ((condition.value (.withLevels settings r n)).runFrom p).1 = .ok c) (hc : c.isArray = true)
    (hbranches : branches.length ≤ 2) (htrue : BranchEntries (.withLevels settings r n) p branches[0]? f)
    (hfalse : BranchEntries (.withLevels settings r n) p branches[1]? g) :
    ∃ w, ((Function.ifThen.resolved (.withLevels settings r n) (condition :: branches)).runFrom p).1 = .ok w ∧
      w.isArray = true ∧ w.elements.length = c.elements.length ∧ (c.IsRectangular → w.shape = c.shape) ∧
      ∀ i x, c.elements[i]? = some x → ∃ y, w.elements[i]? = some y ∧ ∀ q, I q →
        ((Function.ifThen.resolved (.withLevels settings r n) [.ofValue x, f i, g i]).runFrom q).1 = .ok y := by
  obtain ⟨v, hv⟩ := htrue.exists_value hr hp
  obtain ⟨w, hw⟩ := hfalse.exists_value hr hp
  obtain ⟨q, hrun⟩ : ∃ q, (condition.value (.withLevels settings r n)).runFrom p = (.ok c, q) :=
    ⟨_, Prod.ext hcondition rfl⟩
  have hflat : c.IsFlat := Token.isFlat_of_runFrom_value hrun
  refine ⟨mapIndexed (select v w) c, ?_, rfl, length_mapIndexed _ c, shape_mapIndexed _ hc, fun i x hx => ?_⟩
  · have hq : I q := condition.value_stays hr hp hrun
    obtain ⟨q₁, hfirst⟩ : ∃ q₁, ((chosen true branches).value (.withLevels settings r n)).runFrom q = (.ok v, q₁) :=
      ⟨_, Prod.ext (hv q hq).1 rfl⟩
    have hsecond : (((chosen false branches).value (.withLevels settings r n)).runFrom q₁).1 = .ok w :=
      (hw q₁ (Token.value_stays hr hq hfirst)).1
    rw [resolved_ifThen_select hrun hc hbranches, Eval.runFrom_bind, hfirst]
    dsimp only
    rw [bind_pure_comp, Eval.runFrom_map, hsecond]
    rfl
  · refine ⟨select v w x i, getElem?_mapIndexed _ hx, fun q hq => ?_⟩
    refine outcome_ifThen_entry (hflat x (List.mem_of_getElem? hx)) (by simp) i fun b => ?_
    cases b with
    | true => exact (hv q hq).2 i
    | false => exact (hw q hq).2 i

/-- A true row above a false one.  The first branch is too short and the second one omitted. -/
theorem ifThen_entrywise_nameOfUnion :
    let s := Scope.withLevels {} .nameOfUnion 1
    let square := Token.area none (.relative 0 0) (.relative 1 1)
    ∃ w, ((Function.ifThen.resolved s [square, .array [[.text "here"]]]).runFrom 0).1 = .ok w ∧ w.shape = [2, 2] ∧
      ∃ y, w.elements[1]? = some y ∧
        ((Function.ifThen.resolved s [.boolean true, .ofCode .na, .number 0]).runFrom 7).1 = .ok y := by
  intro s square
  have hcondition : ((square.value s).runFrom 0).1 =
      .ok (.array [[.boolean true, .boolean true], [.boolean false, .boolean false]]) := rfl
  have hbranches : [Token.array [[.text "here"]]].length ≤ 2 := by decide
  obtain ⟨w, hw, -, -, hshape, hentries⟩ := ifThen_entrywise Resolver.steady_nameOfUnion trivial hcondition rfl hbranches
    (.table rfl rfl) .omitted
  obtain ⟨y, hy, hscalar⟩ := hentries 1 (.boolean true) rfl
  exact ⟨w, hw, hshape ⟨2, by decide, by decide⟩, y, hy, hscalar 7 trivial⟩

end Logic

end Spreadsheet
