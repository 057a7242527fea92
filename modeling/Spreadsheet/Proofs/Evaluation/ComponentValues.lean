import Mathlib.Data.List.Perm.Basic
import Spreadsheet.Proofs.Evaluation.Components

/-!
# Components in turn

A function that goes through its arguments expands an argument when its turn comes, and resolves the components one after
the other before it expands the next one (`Token.componentValues`).  It may as well expand all arguments first and resolve
all components afterwards, if the resolver answers a question in the same way whenever it is asked
(`Token.outcome_componentValues`).  So the values depend on the components only, in whatever arguments and in whatever
order these come (`Token.componentValues_perm`).
-/

namespace Spreadsheet

/-! ### Lists of outcomes -/

private theorem mapM_eq_ok_iff {α β : Type} {f : α → Except FormulaError β} {xs : List α} {ys : List β} :
    xs.mapM f = .ok ys ↔ List.Forall₂ (fun x y => f x = .ok y) xs ys := by
  refine ⟨fun h => ?_, mapM_ok⟩
  induction xs generalizing ys with
  | nil =>
    obtain rfl : [] = ys := Except.ok.inj h
    exact .nil
  | cons x xs ih =>
    rw [List.mapM_cons] at h
    cases hx : f x with
    | error e =>
      rw [hx] at h
      cases h
    | ok y =>
      rw [hx] at h
      cases hxs : xs.mapM f with
      | error e =>
        rw [hxs] at h
        cases h
      | ok ys' =>
        rw [hxs] at h
        obtain rfl : y :: ys' = ys := Except.ok.inj h
        exact .cons hx (ih hxs)

/-- Outcomes that are all values are values also in another order. -/
private theorem exists_mapM_perm {α β : Type} {f : α → Except FormulaError β} {xs xs' : List α} {ys : List β}
    (hperm : xs'.Perm xs) (h : xs.mapM f = .ok ys) : ∃ ys', xs'.mapM f = .ok ys' ∧ ys'.Perm ys := by
  obtain ⟨ys', hys', hperm'⟩ := List.perm_comp_forall₂ hperm (mapM_eq_ok_iff.1 h)
  exact ⟨ys', mapM_eq_ok_iff.2 hys', hperm'⟩

/-- Lists of entries that are found first and handled afterwards, or handled as they are found. -/
private theorem mapM_flatten {α β γ : Type} {f : α → Except FormulaError (List β)} (g : β → Except FormulaError γ)
    {xs : List α} {lists : List (List β)} (h : xs.mapM f = .ok lists) :
    (xs.mapM fun x => f x >>= fun ys => ys.mapM g).map List.flatten = lists.flatten.mapM g := by
  have hlists := mapM_eq_ok_iff.1 h
  clear h
  induction hlists with
  | nil => rfl
  | @cons x ys xs lists hx _ ih =>
    rw [List.mapM_cons, hx, List.flatten_cons, List.mapM_append, ← ih]
    show ((ys.mapM g >>= fun zs => _) : Except FormulaError _).map _ = _
    cases ys.mapM g with
    | error e => rfl
    | ok zs => cases xs.mapM fun x => f x >>= fun ys => ys.mapM g <;> rfl

/-- If all entries are handled then all of them are found. -/
private theorem exists_mapM_of_bind {α β γ : Type} {f : α → Except FormulaError β} {g : β → Except FormulaError γ}
    {xs : List α} {zs : List γ} (h : (xs.mapM fun x => f x >>= g) = .ok zs) : ∃ ys, xs.mapM f = .ok ys := by
  have hzs := mapM_eq_ok_iff.1 h
  clear h
  induction hzs with
  | nil => exact ⟨[], rfl⟩
  | @cons x z xs zs hx _ ih =>
    obtain ⟨ys, hys⟩ := ih
    cases hfx : f x with
    | error e =>
      rw [hfx] at hx
      cases hx
    | ok y => exact ⟨y :: ys, by rw [List.mapM_cons, hfx, hys]; rfl⟩

/-- One result of a run has been computed when those before it have been. -/
theorem Eval.exists_of_mem_mapM {σ α β : Type} {f : α → Eval σ β} {xs : List α} {ys : List β} {p q : σ}
    (h : (xs.mapM f).runFrom p = (.ok ys, q)) {y : β} (hy : y ∈ ys) :
    ∃ front x back zs p' p'', xs = front ++ x :: back ∧ (front.mapM f).runFrom p = (.ok zs, p') ∧
      (f x).runFrom p' = (.ok y, p'') := by
  induction xs generalizing p ys with
  | nil =>
    obtain ⟨rfl, -⟩ : [] = ys ∧ p = q := by simpa using h
    exact absurd hy List.not_mem_nil
  | cons x xs ih =>
    rw [List.mapM_cons] at h
    obtain ⟨y', p', hx, h⟩ := runFrom_bind_eq_ok.1 h
    obtain ⟨ys', q', hxs, ⟨⟩⟩ := runFrom_bind_eq_ok.1 h
    rcases List.mem_cons.1 hy with rfl | hy
    · exact ⟨[], x, xs, [], p, p', rfl, rfl, hx⟩
    · obtain ⟨front, x', back, zs, p₁, p₂, rfl, hfront, hx'⟩ := ih hxs hy
      exact ⟨x :: front, x', back, y' :: zs, p₁, p₂, rfl, runFrom_mapM_cons.2 ⟨p', hx, hfront⟩, hx'⟩

/-! ### Components one after the other -/

variable {σ : Type} {s : Scope σ}

namespace Token

/-- The values of the components of all operands.  An operand is expanded when those before it have been resolved. -/
def componentValues (s : Scope σ) (args : List Token) : Eval σ (List Value) :=
  List.flatten <$> args.mapM fun arg => arg.parts s >>= fun parts => parts.mapM (value s)

theorem componentValues_cons (arg : Token) (args : List Token) : componentValues s (arg :: args) = do
    let parts ← arg.parts s
    let vs ← parts.mapM (value s)
    let ws ← componentValues s args
    return vs ++ ws := by
  simp [componentValues, List.mapM_cons]

/-- The run goes through the first operand and then through the others. -/
theorem runFrom_componentValues_cons {arg : Token} {args : List Token} {p q : σ} {us : List Value} :
    (componentValues s (arg :: args)).runFrom p = (.ok us, q) ↔
      ∃ parts p₁ vs p₂ ws, (arg.parts s).runFrom p = (.ok parts, p₁) ∧
        (parts.mapM (value s)).runFrom p₁ = (.ok vs, p₂) ∧
        (componentValues s args).runFrom p₂ = (.ok ws, q) ∧ us = vs ++ ws := by
  rw [componentValues_cons, Eval.runFrom_bind_eq_ok]
  constructor
  · rintro ⟨parts, p₁, hparts, h⟩
    obtain ⟨vs, p₂, hvs, h⟩ := Eval.runFrom_bind_eq_ok.1 h
    obtain ⟨ws, q', hws, ⟨⟩⟩ := Eval.runFrom_bind_eq_ok.1 h
    exact ⟨parts, p₁, vs, p₂, ws, hparts, hvs, hws, rfl⟩
  · rintro ⟨parts, p₁, vs, p₂, ws, hparts, hvs, hws, rfl⟩
    refine ⟨parts, p₁, hparts, Eval.runFrom_bind_eq_ok.2 ⟨vs, p₂, hvs, ?_⟩⟩
    exact Eval.runFrom_bind_eq_ok.2 ⟨ws, q, hws, rfl⟩

/-- Tables that are written out are resolved without a question. -/
theorem componentValues_tables (tables : List (List (List Scalar))) :
    componentValues s (tables.map array) = pure (tables.flatten.flatten.map Value.ofScalar) := by
  induction tables with
  | nil => rfl
  | cons rows tables ih =>
    have hrows : (rows.flatten.map ofScalar).mapM (value s) = pure (rows.flatten.map Value.ofScalar) := by
      have hvalue : ∀ x : Scalar, (ofScalar x).value s = pure (Value.ofScalar x) := fun x => by cases x <;> rfl
      simp only [List.mapM_map, Function.comp_def, hvalue, List.mapM_pure]
    have hname : ∀ id, array rows ≠ name id := nofun
    rw [List.map_cons, componentValues_cons, parts_eq_ownParts hname, ih, ownParts, pure_bind, hrows]
    simp

/-! ### Steady resolvers -/

variable {settings : Settings} {r : Resolver σ} {I : σ → Prop} {n : Nat} {p q : σ} {args args' : List Token}

private theorem parts_steady (hr : r.Steady I) (t : Token) (hp : I p) (hq : I q) :
    ((t.parts (.withLevels settings r n)).runFrom p).1 = ((t.parts (.withLevels settings r n)).runFrom q).1 ∧
      I ((t.parts (.withLevels settings r n)).runFrom p).2 :=
  (t.parts_isDialogue (withLevels_isDialogue settings n)).run_steady hr hp hq

/-- The values of operands, each of them being the same whenever it is asked for. -/
theorem outcome_mapM_value (hr : r.Steady I) (hp : I p) (hq : I q) (ts : List Token) :
    ((ts.mapM (value (.withLevels settings r n))).runFrom q).1 =
      ts.mapM fun t : Token => ((t.value (.withLevels settings r n)).runFrom p).1 :=
  Eval.mapM_steady (fun t _ hp' => ⟨(value_steady hr t hp' hp).1, (value_steady hr t hp' hp).2⟩) ts hq

/-- The expansions of operands. -/
theorem outcome_allParts (hr : r.Steady I) (hp : I p) (args : List Token) :
    ((allParts (.withLevels settings r n) args).runFrom p).1 =
      (args.mapM fun arg : Token => ((arg.parts (.withLevels settings r n)).runFrom p).1).map List.flatten := by
  have hmapM := Eval.mapM_steady (f := parts (.withLevels settings r n))
    (fun arg _ hp' => ⟨(parts_steady hr arg hp' hp).1, (parts_steady hr arg hp' hp).2⟩) args hp
  rw [allParts, bind_pure_comp, Eval.runFrom_map, hmapM]

/-- The outcome does not show which questions were asked in between. -/
theorem outcome_componentValues_eq_mapM (hr : r.Steady I) (hp : I p) (args : List Token) :
    ((componentValues (.withLevels settings r n) args).runFrom p).1 =
      (args.mapM fun arg : Token => ((arg.parts (.withLevels settings r n)).runFrom p).1 >>= fun parts =>
        parts.mapM fun t : Token => ((t.value (.withLevels settings r n)).runFrom p).1).map List.flatten := by
  have harg : ∀ (arg : Token) q, I q →
      ((arg.parts (.withLevels settings r n) >>= fun parts => parts.mapM (value (.withLevels settings r n))).runFrom q).1 =
        (((arg.parts (.withLevels settings r n)).runFrom p).1 >>= fun parts =>
          parts.mapM fun t : Token => ((t.value (.withLevels settings r n)).runFrom p).1) ∧
      I ((arg.parts (.withLevels settings r n) >>= fun parts =>
        parts.mapM (value (.withLevels settings r n))).runFrom q).2 := by
    intro arg q hq
    have hdialogue := (arg.parts_isDialogue (withLevels_isDialogue settings n)).bind fun parts =>
      IsDialogue.mapM parts fun t => t.value_isDialogue (withLevels_isDialogue settings n)
    refine ⟨?_, (hdialogue.run_steady hr hq hq).2⟩
    obtain ⟨hsame, hstay⟩ : _ ∧ I ((arg.parts (.withLevels settings r n)).runFrom q).2 := parts_steady hr arg hq hp
    rw [Eval.runFrom_bind, ← hsame]
    rcases hrun : (arg.parts (.withLevels settings r n)).runFrom q with ⟨e | parts, q'⟩
    · rfl
    · rw [hrun] at hstay
      exact outcome_mapM_value hr hp hstay parts
  rw [componentValues, Eval.runFrom_map, Eval.mapM_steady harg args hp]

/-- If all operands can be expanded then it does not matter that they are expanded one by one. -/
theorem outcome_componentValues (hr : r.Steady I) (hp : I p) {ts : List Token}
    (hts : ((allParts (.withLevels settings r n) args).runFrom p).1 = .ok ts) :
    ((componentValues (.withLevels settings r n) args).runFrom p).1 =
      ts.mapM fun t : Token => ((t.value (.withLevels settings r n)).runFrom p).1 := by
  rw [outcome_allParts hr hp] at hts
  rw [outcome_componentValues_eq_mapM hr hp]
  cases hparts : args.mapM fun arg : Token => ((arg.parts (.withLevels settings r n)).runFrom p).1 with
  | error e =>
    rw [hparts] at hts
    cases hts
  | ok lists =>
    rw [hparts] at hts
    obtain rfl : lists.flatten = ts := Except.ok.inj hts
    exact mapM_flatten _ hparts

theorem exists_allParts (hr : r.Steady I) (hp : I p) {vs : List Value}
    (hvs : ((componentValues (.withLevels settings r n) args).runFrom p).1 = .ok vs) :
    ∃ ts, ((allParts (.withLevels settings r n) args).runFrom p).1 = .ok ts := by
  rw [outcome_componentValues_eq_mapM hr hp] at hvs
  cases hlists : args.mapM fun arg : Token => ((arg.parts (.withLevels settings r n)).runFrom p).1 >>= fun parts =>
      parts.mapM fun t : Token => ((t.value (.withLevels settings r n)).runFrom p).1 with
  | error e =>
    rw [hlists] at hvs
    cases hvs
  | ok lists =>
    obtain ⟨parts, hparts⟩ := exists_mapM_of_bind hlists
    exact ⟨parts.flatten, by rw [outcome_allParts hr hp, hparts]; rfl⟩

/-- The elements of all values can be collected after all operands have been expanded. -/
theorem outcome_allValues (hr : r.Steady I) (hp : I p) {vs : List Value}
    (hvs : ((componentValues (.withLevels settings r n) args).runFrom p).1 = .ok vs) :
    ((allValues (.withLevels settings r n) args).runFrom p).1 = .ok (vs.flatMap Value.elements) := by
  obtain ⟨ts, hts⟩ := exists_allParts hr hp hvs
  rw [outcome_componentValues hr hp hts] at hvs
  have hstay := ((allParts_isDialogue (withLevels_isDialogue settings n) args).run_steady hr hp hp).2
  rw [allValues, Eval.runFrom_bind]
  rcases hrun : (allParts (.withLevels settings r n) args).runFrom p with ⟨x, p'⟩
  rw [hrun] at hts hstay
  obtain rfl : x = .ok ts := hts
  dsimp only at hstay ⊢
  rw [bind_pure_comp, Eval.runFrom_map, outcome_mapM_value hr hp hstay, hvs]
  rfl

/-- Operands with the same components, in whatever order, have the same values in another order. -/
theorem componentValues_perm (hr : r.Steady I) (hp : I p) {ts ts' : List Token} {vs : List Value}
    (hts : ((allParts (.withLevels settings r n) args).runFrom p).1 = .ok ts)
    (hts' : ((allParts (.withLevels settings r n) args').runFrom p).1 = .ok ts') (hperm : ts'.Perm ts)
    (hvs : ((componentValues (.withLevels settings r n) args).runFrom p).1 = .ok vs) :
    ∃ vs', ((componentValues (.withLevels settings r n) args').runFrom p).1 = .ok vs' ∧ vs'.Perm vs := by
  rw [outcome_componentValues hr hp hts] at hvs
  rw [outcome_componentValues hr hp hts']
  exact exists_mapM_perm hperm hvs

end Token

end Spreadsheet
