import Spreadsheet.Proofs.Evaluation.Expression

/-!
# What a formula evaluates to

A run of the stack machine ends with an operand that stands for itself (`evaluateToken_isLeaf`): operators, calls,
controls and shared formulas are consumed on the way, and every operator and function gives one of its arguments or an
operand of its own.  The value of such an operand is found without a look at any definition, unless it is a name, so that
the only failures are faults if cells fail only with faults (`Token.value_meets`).

Both are statements of the form `Eval.Meets`, which is closed under the operations of `Eval`.
-/

namespace Spreadsheet

variable {σ α β : Type}

/-! ### Outcomes of computations -/

namespace Eval

/-- A value with `P` or a failure with `F`. -/
def Satisfies (P : α → Prop) (F : FormulaError → Prop) : Except FormulaError α → Prop
  | .ok a => P a
  | .error e => F e

theorem satisfies_mapM {f : β → Except FormulaError α} {P : α → Prop} {F : FormulaError → Prop}
    (hf : ∀ b, Satisfies P F (f b)) (xs : List β) : Satisfies (fun as => ∀ a ∈ as, P a) F (xs.mapM f) := by
  induction xs with
  | nil => exact fun a ha => absurd ha List.not_mem_nil
  | cons b xs ih =>
    rw [List.mapM_cons]
    have hb := hf b
    cases hfb : f b with
    | error e =>
      rw [hfb] at hb
      exact hb
    | ok a =>
      rw [hfb] at hb
      cases hxs : xs.mapM f with
      | error e =>
        rw [hxs] at ih
        exact ih
      | ok as =>
        rw [hxs] at ih
        exact List.forall_mem_cons.2 ⟨hb, ih⟩

/-- From a state with `I` the computation goes to one with `I` again, and gives a value with `P` or a failure with `F`. -/
def Meets (I : σ → Prop) (P : α → Prop) (F : FormulaError → Prop) (x : Eval σ α) : Prop :=
  ∀ s, I s → I (x.runFrom s).2 ∧ Satisfies P F (x.runFrom s).1

namespace Meets

variable {I : σ → Prop} {P : α → Prop} {Q : β → Prop} {F : FormulaError → Prop}

theorem any (x : Eval σ α) : x.Meets (fun _ => True) (fun _ => True) (fun _ => True) := by
  intro s _
  refine ⟨trivial, ?_⟩
  cases (x.runFrom s).1 with
  | ok a => exact trivial
  | error e => exact trivial

theorem pure {a : α} (h : P a) : (Pure.pure a : Eval σ α).Meets I P F :=
  fun _ hs => ⟨hs, h⟩

theorem throw {e : FormulaError} (h : F e) : (MonadExcept.throw e : Eval σ α).Meets I P F :=
  fun _ hs => ⟨hs, h⟩

theorem bind {x : Eval σ α} {f : α → Eval σ β} (hx : x.Meets I P F) (hf : ∀ a, P a → (f a).Meets I Q F) :
    (x >>= f).Meets I Q F := by
  intro s hs
  obtain ⟨ht, hr⟩ := hx s hs
  rw [runFrom_bind]
  rcases hrun : x.runFrom s with ⟨e | a, t⟩
  · rw [hrun] at ht hr
    exact ⟨ht, hr⟩
  · rw [hrun] at ht hr
    exact hf a hr t ht

theorem map {x : Eval σ α} (hx : x.Meets I P F) {g : α → β} (hg : ∀ a, P a → Q (g a)) : (g <$> x).Meets I Q F := by
  rw [← bind_pure_comp]
  exact hx.bind fun a ha => .pure (hg a ha)

theorem mono {P' : α → Prop} {x : Eval σ α} (hx : x.Meets I P F) (hP : ∀ a, P a → P' a) : x.Meets I P' F := by
  intro s hs
  obtain ⟨ht, hr⟩ := hx s hs
  refine ⟨ht, ?_⟩
  cases hrun : (x.runFrom s).1 with
  | ok a =>
    rw [hrun] at hr
    exact hP a hr
  | error e =>
    rw [hrun] at hr
    exact hr

/-- A computation that keeps the state from one reason has a property of its values from another. -/
theorem and {P' : α → Prop} {F' : FormulaError → Prop} {x : Eval σ α} (hx : x.Meets I P F)
    (hx' : x.Meets (fun _ => True) P' F') : x.Meets I (fun a => P a ∧ P' a) F := by
  intro s hs
  obtain ⟨ht, hr⟩ := hx s hs
  have hr' := (hx' s trivial).2
  refine ⟨ht, ?_⟩
  cases hrun : (x.runFrom s).1 with
  | ok a =>
    rw [hrun] at hr hr'
    exact ⟨hr, hr'⟩
  | error e =>
    rw [hrun] at hr
    exact hr

theorem ofExcept {r : Except FormulaError α} (h : Satisfies P F r) : (Eval.ofExcept r).Meets I P F := by
  intro s hs
  rw [runFrom_ofExcept]
  exact ⟨hs, h⟩

theorem observe {F' : FormulaError → Prop} {x : Eval σ α} (hx : x.Meets I P F) :
    x.observe.Meets I (Satisfies P F) F' := by
  intro s hs
  rw [runFrom_observe]
  exact hx s hs

theorem mapM {G : β → Eval σ α} {xs : List β} (hG : ∀ b ∈ xs, (G b).Meets I P F) :
    (xs.mapM G).Meets I (fun as => ∀ a ∈ as, P a) F := by
  induction xs with
  | nil => exact .pure fun a ha => absurd ha List.not_mem_nil
  | cons b xs ih =>
    rw [List.mapM_cons]
    have htail := ih fun b hb => hG b (List.mem_cons_of_mem _ hb)
    refine (hG b (List.mem_cons_self ..)).bind fun a ha => htail.bind fun as has => .pure fun c hc => ?_
    rcases List.mem_cons.1 hc with rfl | hc
    · exact ha
    · exact has c hc

/-- As `mapM`, where what holds of a value depends on what it is computed from. -/
private theorem mapM_forall₂ {G : β → Eval σ α} {xs : List β} {R : β → α → Prop}
    (hG : ∀ b ∈ xs, (G b).Meets I (R b) F) : (xs.mapM G).Meets I (List.Forall₂ R xs) F := by
  induction xs with
  | nil => exact .pure .nil
  | cons b xs ih =>
    rw [List.mapM_cons]
    have htail := ih fun b hb => hG b (List.mem_cons_of_mem _ hb)
    exact (hG b (List.mem_cons_self ..)).bind fun a ha => htail.bind fun as has => .pure (.cons ha has)

theorem mapM_finRange {n : Nat} {G : Fin n → Eval σ α} {R : Fin n → α → Prop} (hG : ∀ i, (G i).Meets I (R i) F) :
    ((List.finRange n).mapM G).Meets I (fun as => ∃ f : Fin n → α, as = (List.finRange n).map f ∧ ∀ i, R i (f i)) F := by
  refine (mapM_forall₂ fun i _ => hG i).mono fun as h => ?_
  have hlength : n = as.length := (List.length_finRange ..).symm.trans h.length_eq
  subst hlength
  refine ⟨as.get, (List.map_get_finRange as).symm, fun i => ?_⟩
  have hi := h.get (i := i) (by simp) i.isLt
  simpa using hi

/-- If the only failures are certain faults, then nothing fails after these have become error values. -/
theorem trap_faults {x : Eval σ Token} {P : Token → Prop} {F' : FormulaError → Prop} (hx : x.Meets I P F)
    (hF : ∀ e, F e → ∃ f, e.fault? = some f ∧ P (.ofFault f)) : x.trap.Meets I P F' := by
  intro s hs
  obtain ⟨ht, hr⟩ := hx s hs
  rw [runFrom_trap]
  refine ⟨ht, ?_⟩
  cases hrun : (x.runFrom s).1 with
  | ok a =>
    rw [hrun] at hr
    exact hr
  | error e =>
    rw [hrun] at hr
    obtain ⟨f, hf, hP⟩ := hF e hr
    dsimp only [trapped]
    rw [hf]
    exact hP

theorem trap {x : Eval σ Token} {P : Token → Prop} (hx : x.Meets I P F) (hP : ∀ f, P (.ofFault f)) :
    x.trap.Meets I P F := by
  intro s hs
  obtain ⟨ht, hr⟩ := hx s hs
  rw [runFrom_trap]
  refine ⟨ht, ?_⟩
  cases hrun : (x.runFrom s).1 with
  | ok a =>
    rw [hrun] at hr
    exact hr
  | error e =>
    rw [hrun] at hr
    dsimp only [trapped]
    cases e.fault? with
    | some f => exact hP f
    | none => exact hr

end Meets

/-- The result, if there is one, is an operand that stands for itself. -/
def GivesLeaf (x : Eval σ Token) : Prop :=
  x.Meets (fun _ => True) (fun t => t.isLeaf = true) (fun _ => True)

namespace GivesLeaf

theorem pure {t : Token} (ht : t.isLeaf) : (Pure.pure t : Eval σ Token).GivesLeaf :=
  Meets.pure ht

theorem throw (e : FormulaError) : (MonadExcept.throw e : Eval σ Token).GivesLeaf :=
  Meets.throw trivial

theorem bind {x : Eval σ α} {f : α → Eval σ Token} (hf : ∀ a, (f a).GivesLeaf) : (x >>= f).GivesLeaf :=
  (Meets.any x).bind fun a _ => hf a

end GivesLeaf

end Eval

/-! ### Results are operands -/

private theorem Token.isLeaf_ofValue (x : Value) : (Token.ofValue x).isLeaf := by
  cases x <;> rfl

private theorem isLeaf_negateInteger (n : Int) : (negateInteger n).isLeaf := by
  unfold negateInteger
  split <;> rfl

private theorem isLeaf_concatenate (x y : Value) : (concatenate x y).isLeaf := by
  unfold concatenate
  split
  · rfl
  · split <;> rfl

private theorem Operator.isLeaf_onValues (settings : Settings) (op : Operator) (x y : Value) :
    (op.onValues settings x y).isLeaf := by
  cases op with
  | concat => exact isLeaf_concatenate x y
  | _ => exact Token.isLeaf_ofValue _

open Eval

variable {s : Scope σ}

private theorem applyReferenceOperator_givesLeaf (op : Operator) (a b : Token) :
    (applyReferenceOperator s op a b).GivesLeaf := by
  unfold applyReferenceOperator
  refine .bind fun first => .bind fun second => ?_
  cases op with
  | union | intersect => exact .pure rfl
  | _ => exact .bind fun area => .pure rfl

private theorem applyOperator_givesLeaf (op : Operator) {args : List Token} (hargs : ∀ t ∈ args, t.isLeaf) :
    (applyOperator s op args).GivesLeaf := by
  unfold applyOperator
  split
  · rename_i a _
    unfold applyUnary
    split
    · exact .pure (hargs a (List.mem_cons_self ..))
    · split
      · exact .pure (isLeaf_negateInteger _)
      · exact .bind fun x => .pure (Token.isLeaf_ofValue _)
  · rename_i a b _
    unfold applyBinary
    split
    · exact applyReferenceOperator_givesLeaf op a b
    · split
      · rename_i e he
        split
        · exact .pure rfl
        · exact .pure (hargs e (List.mem_of_find?_eq_some he))
      · exact .bind fun x => .bind fun y => .pure (op.isLeaf_onValues s.settings x y)
  · exact .pure rfl

theorem Logic.isLeaf_branch {args : List Token} (hargs : ∀ t ∈ args, t.isLeaf) (i : Nat) :
    (Logic.branch args[i]?).isLeaf := by
  unfold Logic.branch
  split
  · rfl
  · rfl
  · rename_i t _ ht
    exact hargs t (List.mem_of_getElem? ht)

private theorem Logic.ifThen_givesLeaf {args : List Token} (hargs : ∀ t ∈ args, t.isLeaf) :
    (Logic.ifThen s args).GivesLeaf := by
  unfold Logic.ifThen
  split
  · rename_i condition branches
    have hbranch := Logic.isLeaf_branch fun t ht => hargs t (List.mem_cons_of_mem condition ht)
    split
    · exact .pure rfl
    · refine .bind fun c => ?_
      split
      · exact .pure rfl
      · exact .bind fun x => .bind fun y => .pure (Token.isLeaf_ofValue _)
      · exact .pure rfl
      · split
        · exact .pure (hbranch 0)
        · exact .pure (hbranch 1)
  · exact .pure rfl

private theorem Logic.ifError_givesLeaf {args : List Token} (hargs : ∀ t ∈ args, t.isLeaf) :
    (Logic.ifError s args).GivesLeaf := by
  unfold Logic.ifError
  split
  · rename_i value fallback
    have hvalue : value.isLeaf := hargs value (by simp)
    have hfallback : fallback.isLeaf := hargs fallback (by simp)
    refine .bind fun x => ?_
    split
    · split
      · exact .pure hfallback
      · exact .throw _
    · exact .bind fun y => .pure (Token.isLeaf_ofValue _)
    · split
      · exact .pure hfallback
      · exact .pure hvalue
  · exact .pure rfl

private theorem Function.apply_givesLeaf (f : Function) {args : List Token} (hargs : ∀ t ∈ args, t.isLeaf) :
    (f.apply s args).GivesLeaf := by
  cases f with
  | ifThen => exact Logic.ifThen_givesLeaf hargs
  | ifError => exact Logic.ifError_givesLeaf hargs
  | average =>
    refine .bind fun xs => ?_
    split
    · exact .throw _
    · exact .pure rfl
  | count | sum | min | max | and | or => exact .bind fun xs => .pure rfl
  | true | false | na => exact .pure rfl
  | not =>
    dsimp only [Function.apply, Logic.not]
    split
    · exact .bind fun x => .pure rfl
    · exact .pure rfl
  | sumIf =>
    dsimp only [Function.apply, Selection.sumIf]
    split
    · exact .bind fun _ => .bind fun _ => .bind fun _ => .bind fun _ => .pure rfl
    · exact .pure rfl
  | countIf =>
    dsimp only [Function.apply, Selection.countIf]
    split
    · exact .bind fun _ => .bind fun _ => .bind fun _ => .pure rfl
    · exact .pure rfl
  | isNa | isError | isErr | isText | isNumber | isBlank | isLogical =>
    dsimp only [Function.apply, Inspection.test]
    split
    · exact .bind fun _ => .pure rfl
    · exact .pure rfl

namespace Machine

theorem compute_givesLeaf (t : Token) {args : List Token} (hargs : ∀ t ∈ args, t.isLeaf) :
    (compute s t args).GivesLeaf := by
  unfold compute
  split
  · exact applyOperator_givesLeaf _ hargs
  · unfold callFunction
    split
    · exact .throw _
    · split
      · exact Function.apply_givesLeaf _ hargs
      · exact .pure rfl
  · exact .bind fun _ => .pure rfl

/-- Only operands are ever put on the stack. -/
theorem step_meets (t : Token) (n : Nat) {stack : Stack} (hstack : ∀ t ∈ stack, t.isLeaf) :
    (step s t n stack).Meets (fun _ => True) (fun stack => ∀ t ∈ stack, t.isLeaf = true) (fun _ => True) := by
  unfold step
  split
  · exact .throw trivial
  · have hargs : ∀ t ∈ (stack.take n).reverse, t.isLeaf :=
      fun t ht => hstack t (List.mem_of_mem_take (List.mem_reverse.1 ht))
    refine (Meets.trap (compute_givesLeaf t hargs) fun f => rfl).bind fun result hresult => .pure fun t ht => ?_
    rcases List.mem_cons.1 ht with rfl | ht
    · exact hresult
    · exact hstack t (List.mem_of_mem_drop ht)

private theorem runWith_givesLeaf {splice : Option (Splice σ)}
    (hsplice : ∀ expand, splice = some expand → ∀ anchor rest stack, (∀ t ∈ stack, t.isLeaf) →
      (expand anchor rest stack).GivesLeaf)
    (tokens : List Token) {stack : Stack} (hstack : ∀ t ∈ stack, t.isLeaf) :
    (runWith s splice tokens stack).GivesLeaf := by
  induction tokens generalizing stack with
  | nil =>
    rw [runWith]
    unfold finish
    split
    · rename_i t
      exact .pure (hstack t (List.mem_singleton.2 rfl))
    · exact .throw _
  | cons t rest ih =>
    have hpush : ∀ u : Token, u.isLeaf → ∀ t ∈ u :: stack, t.isLeaf := by
      intro u hu t ht
      rcases List.mem_cons.1 ht with rfl | ht
      · exact hu
      · exact hstack t ht
    have hstep : ∀ n, (step s t n stack >>= runWith s splice rest).GivesLeaf :=
      fun n => (step_meets t n hstack).bind fun stack hstack => ih hstack
    cases t with
    | shared anchor =>
      cases splice with
      | none => exact ih (hpush _ rfl)
      | some expand => exact hsplice expand rfl anchor rest stack hstack
    | control c =>
      cases c with
      | sum => exact hstep 1
      | _ => exact ih hstack
    | operator op => exact hstep op.arity
    | call id n array => exact hstep n
    | _ => exact ih (hpush _ rfl)

private theorem runFor_givesLeaf (splices : Nat) (tokens : List Token) {stack : Stack}
    (hstack : ∀ t ∈ stack, t.isLeaf) : (runFor s splices tokens stack).GivesLeaf := by
  induction splices generalizing tokens stack with
  | zero => exact runWith_givesLeaf (fun _ h => by cases h) tokens hstack
  | succ splices ih =>
    refine runWith_givesLeaf (fun expand h anchor rest stack hstack => ?_) tokens hstack
    obtain rfl := Option.some.inj h
    refine .bind fun x => ?_
    cases x with
    | ok body => exact ih _ hstack
    | error e =>
      dsimp only
      split
      · refine ih _ fun t ht => ?_
        rcases List.mem_cons.1 ht with rfl | ht
        · rfl
        · exact hstack t ht
      · exact .throw e

end Machine

/-- A formula evaluates to an operand that stands for itself, if it evaluates to anything. -/
theorem evaluateToken_isLeaf {tokens : List Token} {p p' : σ} {t : Token}
    (h : (evaluateToken s tokens).runFrom p = (.ok t, p')) : t.isLeaf := by
  have hempty : ∀ t ∈ ([] : Machine.Stack), t.isLeaf := fun t ht => absurd ht List.not_mem_nil
  have hleaf : (evaluateToken s tokens).GivesLeaf := Machine.runFor_givesLeaf _ tokens hempty
  have hmeets := (hleaf p trivial).2
  rw [h] at hmeets
  exact hmeets

/-! ### Values of operands -/

variable {I : σ → Prop} {F : FormulaError → Prop}

theorem Reference.value_meets (hcell : ∀ sheet a, (s.resolver.cell sheet a).Meets I (fun _ => True) F)
    (ref : Reference) : (ref.value s).Meets I (fun _ => True) F := by
  cases ref with
  | cell sheet a => exact (hcell sheet a).map fun _ _ => trivial
  | area sheet range =>
    exact (Meets.mapM fun row _ => .mapM fun col _ => hcell sheet _).map fun _ _ => trivial
  | invalid e => exact .pure trivial

/-- The value of an operand other than a name depends on cells alone: besides the failures of cells there is only that
of an empty intersection. -/
theorem Token.value_meets (hcell : ∀ sheet a, (s.resolver.cell sheet a).Meets I (fun _ => True) F)
    (hnull : F (.code .null)) {t : Token} (ht : t.isLeaf) (hname : ∀ id, t ≠ .name id) :
    (t.value s).Meets I (fun _ => True) F := by
  cases t with
  | name id => exact absurd rfl (hname id)
  | shared | operator | control | call => cases ht
  | cell sheet a => exact (Reference.cell sheet a).value_meets hcell
  | area sheet first last => exact (Reference.area sheet (.between first last)).value_meets hcell
  | references refs =>
    match refs with
    | [] => exact .throw hnull
    | [ref] => exact ref.value_meets hcell
    | _ :: _ :: _ => exact (Meets.mapM fun ref _ => ref.value_meets hcell).bind fun _ _ => .pure trivial
  | _ => exact .pure trivial

end Spreadsheet
