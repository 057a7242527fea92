import Spreadsheet.Proofs.Evaluation.ErrorReplacement

/-!
# Operands that are not used

IFERROR does not need its second operand if the first one has no error, and IF needs only one of its branches if the
condition selects the same one everywhere.  With a scalar in front the other operand is not even resolved, whatever it is.
With a table in front all operands are resolved, so that the other one has to have a value; which value it is does not
matter (`Logic.runFrom_ifError_table`, `Logic.outcome_ifThen_true`, `Logic.outcome_ifThen_steady`).
-/

namespace Spreadsheet

variable {σ : Type} {s : Scope σ} {p q q' : σ} {settings : Settings} {r : Resolver σ} {n : Nat} {I : σ → Prop}

/-- The operand has a value when it is resolved from a state. -/
def Token.Resolves (s : Scope σ) (p : σ) (t : Token) : Prop :=
  ∃ v, ((t.value s).runFrom p).1 = .ok v

namespace Logic

variable {c v w : Value} {b : Bool} {value fallback condition : Token} {branches : List Token}

/-! ### Tables without errors -/

private theorem mapIndexed_replaceError_of_noErrors (hv : v.isArray = true)
    (hnone : ∀ x ∈ v.elements, x.isError = false) : mapIndexed (replaceError w) v = v.regroup := by
  have hkept : mapIndexed (replaceError w) v = mapIndexed (fun x _ => id x) v := by
    refine mapIndexed_congr fun x hx i => ?_
    rw [replaceError, if_neg (by simp [hnone x hx]), id]
  rw [hkept, mapIndexed_eq_map, List.map_id, Value.regroup_of_array hv]

/-- The second operand is resolved, but nothing is taken from it. -/
theorem runFrom_ifError_table (hvalue : (value.value (.withLevels settings r n)).runFrom p = (.ok v, q))
    (hv : v.isArray = true) (hnone : ∀ x ∈ v.elements, x.isError = false)
    (hfallback : (fallback.value (.withLevels settings r n)).runFrom q = (.ok w, q')) :
    (Function.ifError.resolved (.withLevels settings r n) [value, fallback]).runFrom p = (.ok v.regroup, q') := by
  have hrun : (ifError (.withLevels settings r n) [value, fallback]).runFrom p = (.ok (.ofValue v.regroup), q') := by
    rw [runFrom_ifError_of_array hvalue hv, Eval.runFrom_map, hfallback]
    refine Prod.ext (congrArg (fun w => Except.ok (Token.ofValue w)) ?_) rfl
    exact mapIndexed_replaceError_of_noErrors hv hnone
  rw [resolved_ifError hrun, Token.value_ofValue (Token.isFlat_of_runFrom_value hvalue).regroup]
  rfl

/-! ### Conditions that select one branch -/

/-- Whether a scalar selects the first branch.  An error selects none of them. -/
def choice? : Value → Option Bool
  | .error _ => none
  | v => some (truth? v = some true)

/-- The branch of IF for true or for false. -/
def chosen (b : Bool) (branches : List Token) : Token :=
  branch branches[if b then 0 else 1]?

/-- The entries of a branch in the places of the entries of a condition. -/
def fill (c v : Value) : Value :=
  mapIndexed (fun _ => pick v) c

theorem select_of_choice (hc : choice? c = some b) (i : Nat) : select v w c i = pick (if b then v else w) i := by
  cases c with
  | error e => cases hc
  | _ =>
    obtain rfl := Option.some.inj hc
    simp only [select, decide_eq_true_eq]
    split <;> rfl

private theorem mapIndexed_select (hc : ∀ x ∈ c.elements, choice? x = some b) :
    mapIndexed (select v w) c = fill c (if b then v else w) :=
  mapIndexed_congr fun x hx i => select_of_choice (hc x hx) i

theorem isArray_pick (hv : v.IsFlat) (i : Nat) : (pick v i).isArray = false := by
  cases v with
  | array rows =>
    show (rows.flatten.getD i (.error .na)).isArray = false
    rw [List.getD_eq_getElem?_getD]
    cases hx : rows.flatten[i]? with
    | none => rfl
    | some x => exact hv x (List.mem_of_getElem? hx)
  | _ => rfl

private theorem isArray_select (hv : v.IsFlat) (hw : w.IsFlat) (x : Value) (i : Nat) :
    (select v w x i).isArray = false := by
  unfold select
  split
  · rfl
  · split
    · exact isArray_pick hv i
    · exact isArray_pick hw i

private theorem isFlat_mapIndexed_select (hv : v.IsFlat) (hw : w.IsFlat) : (mapIndexed (select v w) c).IsFlat := by
  intro x hx
  rw [mapIndexed, Value.elements_ofElements] at hx
  obtain ⟨⟨y, i⟩, -, rfl⟩ := List.mem_map.1 hx
  exact isArray_select hv hw y i

/-- A condition that has a value is known to IF. -/
theorem runFrom_conditionValue (hcondition : (condition.value s).runFrom p = (.ok c, q)) :
    (conditionValue s condition).runFrom p = (.ok (some c), q) := by
  unfold conditionValue
  split
  · rw [Eval.runFrom_observe_bind, hcondition]
    rfl
  · rw [Eval.runFrom_map, hcondition]
    rfl

theorem runFrom_ifThen_scalar (hcondition : (condition.value s).runFrom p = (.ok c, q)) (hc : c.isArray = false)
    (hchoice : choice? c = some b) (hbranches : branches.length ≤ 2) :
    (ifThen s (condition :: branches)).runFrom p = (.ok (chosen b branches), q) := by
  unfold ifThen
  dsimp only
  rw [if_neg (by omega), Eval.runFrom_bind, runFrom_conditionValue hcondition]
  cases c with
  | array rows => cases hc
  | error e => cases hchoice
  | _ =>
    obtain rfl := Option.some.inj hchoice
    dsimp only [chosen]
    simp only [decide_eq_true_eq]
    split <;> rfl

private theorem runFrom_ifThen_table (hcondition : (condition.value s).runFrom p = (.ok c, q)) (hc : c.isArray = true)
    (hbranches : branches.length ≤ 2) : (ifThen s (condition :: branches)).runFrom p = (do
      let v ← (chosen true branches).value s
      let w ← (chosen false branches).value s
      return Token.ofValue (mapIndexed (select v w) c) : Eval σ Token).runFrom q := by
  unfold ifThen
  dsimp only
  rw [if_neg (by omega), Eval.runFrom_bind, runFrom_conditionValue hcondition]
  cases c with
  | array rows => rfl
  | _ => cases hc

theorem accepts_ifThen (hbranches : branches.length ≤ 2) :
    Function.ifThen.accepts (condition :: branches).length := by
  have hmax : branches.length + 1 ≤ 3 := by omega
  simpa [Function.accepts, Function.minArgs, Function.maxArgs?] using hmax

/-- With a table as the condition both branches are resolved, and each entry of it selects one of theirs. -/
theorem resolved_ifThen_select (hcondition : (condition.value (.withLevels settings r n)).runFrom p = (.ok c, q))
    (hc : c.isArray = true) (hbranches : branches.length ≤ 2) :
    (Function.ifThen.resolved (.withLevels settings r n) (condition :: branches)).runFrom p = (do
      let v ← (chosen true branches).value (.withLevels settings r n)
      let w ← (chosen false branches).value (.withLevels settings r n)
      return mapIndexed (select v w) c : Eval σ Value).runFrom q := by
  rw [Function.resolved, callFunction_of_accepts (accepts_ifThen hbranches), Function.apply, Eval.runFrom_bind,
    runFrom_ifThen_table hcondition hc hbranches, Eval.runFrom_bind, Eval.runFrom_bind]
  rcases htrue : ((chosen true branches).value (.withLevels settings r n)).runFrom q with ⟨e | v, q₁⟩
  · rfl
  dsimp only
  rw [Eval.runFrom_bind, Eval.runFrom_bind]
  rcases hfalse : ((chosen false branches).value (.withLevels settings r n)).runFrom q₁ with ⟨e | w, q₂⟩
  · rfl
  have hflat : (mapIndexed (select v w) c).IsFlat :=
    isFlat_mapIndexed_select (Token.isFlat_of_runFrom_value htrue) (Token.isFlat_of_runFrom_value hfalse)
  show ((Token.ofValue _).value _).runFrom q₂ = _
  rw [Token.value_ofValue hflat]

/-- If all entries of the condition select the same branch then its entries are taken. -/
theorem resolved_ifThen_table (hcondition : (condition.value (.withLevels settings r n)).runFrom p = (.ok c, q))
    (hc : c.isArray = true) (hchoice : ∀ x ∈ c.elements, choice? x = some b) (hbranches : branches.length ≤ 2) :
    (Function.ifThen.resolved (.withLevels settings r n) (condition :: branches)).runFrom p = (do
      let v ← (chosen true branches).value (.withLevels settings r n)
      let w ← (chosen false branches).value (.withLevels settings r n)
      return fill c (if b then v else w) : Eval σ Value).runFrom q := by
  simp only [resolved_ifThen_select hcondition hc hbranches, mapIndexed_select hchoice]

/-- The first branch is selected everywhere.  It is resolved before the other one. -/
theorem outcome_ifThen_true (hcondition : (condition.value (.withLevels settings r n)).runFrom p = (.ok c, q))
    (hc : c.isArray = true) (hchoice : ∀ x ∈ c.elements, choice? x = some true) (hbranches : branches.length ≤ 2)
    (hother : ∀ v q', ((chosen true branches).value (.withLevels settings r n)).runFrom q = (.ok v, q') →
      (chosen false branches).Resolves (.withLevels settings r n) q') :
    ((Function.ifThen.resolved (.withLevels settings r n) (condition :: branches)).runFrom p).1 =
      (((chosen true branches).value (.withLevels settings r n)).runFrom q).1.map (fill c) := by
  rw [resolved_ifThen_table hcondition hc hchoice hbranches, Eval.runFrom_bind]
  rcases htrue : ((chosen true branches).value (.withLevels settings r n)).runFrom q with ⟨e | v, q₁⟩
  · rfl
  obtain ⟨w, hw⟩ := hother v q₁ htrue
  dsimp only
  rw [bind_pure_comp, Eval.runFrom_map, hw]
  rfl

/-- If answers do not depend on the order of questions then the same holds of both branches. -/
theorem outcome_ifThen_steady (hr : r.Steady I) (hp : I p)
    (hcondition : (condition.value (.withLevels settings r n)).runFrom p = (.ok c, q)) (hc : c.isArray = true)
    (hchoice : ∀ x ∈ c.elements, choice? x = some b) (hbranches : branches.length ≤ 2)
    (hother : (chosen (!b) branches).Resolves (.withLevels settings r n) p) :
    ((Function.ifThen.resolved (.withLevels settings r n) (condition :: branches)).runFrom p).1 =
      (((chosen b branches).value (.withLevels settings r n)).runFrom p).1.map (fill c) := by
  have hq : I q := condition.value_stays hr hp hcondition
  obtain ⟨w, hw⟩ := hother
  cases b with
  | true =>
    rw [outcome_ifThen_true hcondition hc hchoice hbranches fun v q' hrun => ?_, (Token.value_steady hr _ hq hp).1]
    exact ⟨w, (Token.value_steady hr _ (Token.value_stays hr hq hrun) hp).1.trans hw⟩
  | false =>
    have hw' : (((chosen true branches).value (.withLevels settings r n)).runFrom q).1 = .ok w :=
      (Token.value_steady hr _ hq hp).1.trans hw
    rcases htrue : ((chosen true branches).value (.withLevels settings r n)).runFrom q with ⟨x, q₁⟩
    obtain rfl : x = .ok w := by
      rw [htrue] at hw'
      exact hw'
    rw [resolved_ifThen_table hcondition hc hchoice hbranches, Eval.runFrom_bind, htrue]
    dsimp only
    rw [bind_pure_comp, Eval.runFrom_map, (Token.value_steady hr _ (Token.value_stays hr hq htrue) hp).1]
    rfl

/-! ### The functions -/

/-- An operand that is not used.  IFERROR gives a scalar without an error as it stands, and the entries of a table without
errors in rows as long as the first one; IF gives the branch that a scalar selects as it stands, and for a table that
selects the same branch everywhere the entries of this branch.  Behind a table the unused operand must have a value. -/
theorem unused_operands (settings : Settings) (r : Resolver σ) (n : Nat) (p : σ) :
    let s := Scope.withLevels settings r n
    (∀ value v q, (Token.value s value).runFrom p = (.ok v, q) → (∀ x ∈ v.elements, x.isError = false) →
      (v.isArray = false → ∀ fallback,
        (callFunction s Function.ifError.id [value, fallback]).runFrom p = (.ok value, q) ∧
        ∀ I, r.Steady I → I p → ((Function.ifError.resolved s [value, fallback]).runFrom p).1 = .ok v) ∧
      (v.isArray = true → ∀ fallback w q', (Token.value s fallback).runFrom q = (.ok w, q') →
        (Function.ifError.resolved s [value, fallback]).runFrom p = (.ok v.regroup, q')) ∧
      v.regroup.elements = v.elements ∧ (v.IsRectangular → v.regroup = v)) ∧
    ∀ condition c q b, (Token.value s condition).runFrom p = (.ok c, q) → (∀ x ∈ c.elements, choice? x = some b) →
      ∀ branches, branches.length ≤ 2 →
        (c.isArray = false →
          (callFunction s Function.ifThen.id (condition :: branches)).runFrom p = (.ok (chosen b branches), q)) ∧
        (c.isArray = true →
          (b = true → (∀ v q', ((chosen b branches).value s).runFrom q = (.ok v, q') →
              (chosen (!b) branches).Resolves s q') →
            ((Function.ifThen.resolved s (condition :: branches)).runFrom p).1 =
              (((chosen b branches).value s).runFrom q).1.map (fill c)) ∧
          ∀ I, r.Steady I → I p → (chosen (!b) branches).Resolves s p →
            ((Function.ifThen.resolved s (condition :: branches)).runFrom p).1 =
              (((chosen b branches).value s).runFrom p).1.map (fill c)) := by
  intro s
  constructor
  · intro value v q hvalue hnone
    refine ⟨fun hv fallback => ?_, fun hv fallback w q' hfallback => ?_, v.elements_regroup, Value.regroup_eq_self⟩
    · have hv' : v.isError = false := hnone v (Value.mem_elements_self hv)
      have hrun := runFrom_ifError_of_scalar hvalue hv fallback
      rw [if_neg (by simp [hv'])] at hrun
      refine ⟨?_, fun I hr hp => ?_⟩
      · rw [callFunction_of_accepts (f := .ifError) rfl]
        exact hrun
      · have hq : I q := value.value_stays hr hp hvalue
        rw [resolved_ifError hrun, (Token.value_steady hr value hq hp).1, hvalue]
    · exact runFrom_ifError_table hvalue hv hnone hfallback
  · intro condition c q b hcondition hchoice branches hbranches
    refine ⟨fun hc => ?_, fun hc => ⟨?_, fun I hr hp hother => ?_⟩⟩
    · have hscalar : choice? c = some b := hchoice c (Value.mem_elements_self hc)
      rw [callFunction_of_accepts (accepts_ifThen hbranches)]
      exact runFrom_ifThen_scalar hcondition hc hscalar hbranches
    · rintro rfl hother
      exact outcome_ifThen_true hcondition hc hchoice hbranches hother
    · exact outcome_ifThen_steady hr hp hcondition hc hchoice hbranches hother

/-- A cell and a table without errors, a condition that is true, and one that is false in two rows. -/
theorem unused_operands_diagonal :
    let s := Scope.withLevels {} .errorsOnDiagonal 1
    let lost := Token.shared (.relative 8 8)
    ((Function.ifError.resolved s [.cell none (.relative 1 0), lost]).runFrom 0).1 = .ok (.text "here") ∧
    (Function.ifError.resolved s [.array [[.boolean true, .empty]], .name 1]).runFrom 0 =
      (.ok (.array [[.boolean true, .empty]]), 5) ∧
    (callFunction s Function.ifThen.id [.boolean true, .name 1, lost]).runFrom 0 = (.ok (.name 1), 0) ∧
    ((Function.ifThen.resolved s [.array [[.boolean false], [.empty]], .name 1, .text "no"]).runFrom 0).1 =
      .ok (.array [[.text "no"], [.text "no"]]) := by
  intro s lost
  have hsteady := Resolver.steady_errorsOnDiagonal
  obtain ⟨hifError, hifThen⟩ := unused_operands {} .errorsOnDiagonal 1 0
  refine ⟨?_, ?_, ?_, ?_⟩
  · obtain ⟨hscalar, -⟩ := hifError (.cell none (.relative 1 0)) (.text "here") 1 rfl (by decide)
    exact (hscalar rfl lost).2 _ hsteady trivial
  · obtain ⟨-, htable, -, hsame⟩ := hifError (.array [[.boolean true, .empty]]) _ 0 rfl (by decide)
    have hrun := htable rfl (.name 1) _ 5 rfl
    rwa [hsame ⟨2, by decide, by decide⟩] at hrun
  · obtain ⟨hscalar, -⟩ := hifThen (.boolean true) _ 0 true rfl (by decide) [.name 1, lost] (by decide)
    exact hscalar rfl
  · obtain ⟨-, htable⟩ := hifThen (.array [[.boolean false], [.empty]]) _ 0 false rfl (by decide) [.name 1, .text "no"]
      (by decide)
    refine ((htable rfl).2 _ hsteady trivial ⟨_, rfl⟩).trans ?_
    show Except.ok (fill (.array [[.boolean false], [.empty]]) (.text "no")) = _
    cbv

end Logic

/-- Every cell is true when the first question is asked, and false from then on.  There are no names. -/
def Resolver.trueOnce : Resolver Nat where
  cell _ _ := do
    let asked ← get
    set (asked + 1)
    return .boolean (asked == 0)
  name id := throw (.unknownName id)
  shared anchor := throw (.noSharedFormula anchor)

namespace Logic

/-- Rows of different lengths are not kept, a table has an operand resolved that is not used, and an operand that is
resolved a second time may have another value. -/
theorem unused_operands_matter :
    let s := Scope.withLevels {} .trueOnce 1
    let valueOf := fun t : Token => ((t.value s).runFrom 0).1
    let resolved := fun (f : Function) args => ((f.resolved s args).runFrom 0).1
    let cell := Token.cell none (.relative 0 0)
    (valueOf (.array [[.boolean true], [.empty, .empty]]) = .ok (.array [[.boolean true], [.empty, .empty]]) ∧
      resolved .ifError [.array [[.boolean true], [.empty, .empty]], .blank] =
        .ok (.array [[.boolean true], [.empty], [.empty]])) ∧
    (valueOf (.array [[.boolean true]]) = .ok (.array [[.boolean true]]) ∧
      resolved .ifError [.array [[.boolean true]], .name 1] = .error (.unknownName 1)) ∧
    (valueOf cell = .ok (.boolean true) ∧ resolved .ifError [cell, .blank] = .ok (.boolean false)) ∧
    (resolved .ifThen [.array [[.boolean true]], .blank, .blank] = .ok (.array [[.empty]]) ∧
      resolved .ifThen [.array [[.boolean true]], .blank, .name 1] = .error (.unknownName 1)) ∧
    resolved .ifThen [.array [[.boolean false]], .blank, cell] = .ok (.array [[.boolean true]]) ∧
    resolved .ifThen [.array [[.boolean false]], cell, cell] = .ok (.array [[.boolean false]]) := by
  intro s valueOf resolved cell
  refine ⟨⟨rfl, ?_⟩, ⟨rfl, rfl⟩, ⟨rfl, rfl⟩, ⟨?_, rfl⟩, ?_, ?_⟩
  · have htable : (Token.value s (.array [[.boolean true], [.empty, .empty]])).runFrom 0 =
        (.ok (.array [[.boolean true], [.empty, .empty]]), 0) := rfl
    have hblank : (Token.value s .blank).runFrom 0 = (.ok .empty, 0) := rfl
    refine (congrArg Prod.fst (runFrom_ifError_table htable rfl (by decide) hblank)).trans ?_
    show Except.ok (Value.array [[.boolean true], [.empty, .empty]]).regroup = _
    cbv
  · refine (outcome_ifThen_true rfl rfl (by decide) (by decide) fun v q' _ => ⟨.empty, rfl⟩).trans ?_
    show Except.ok (fill (.array [[.boolean true]]) .empty) = _
    cbv
  · refine (congrArg Prod.fst (resolved_ifThen_table (b := false) rfl rfl (by decide) (by decide))).trans ?_
    show Except.ok (fill (.array [[.boolean false]]) (.boolean true)) = _
    cbv
  · refine (congrArg Prod.fst (resolved_ifThen_table (b := false) rfl rfl (by decide) (by decide))).trans ?_
    show Except.ok (fill (.array [[.boolean false]]) (.boolean false)) = _
    cbv

end Logic

end Spreadsheet
