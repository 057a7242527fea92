import Spreadsheet.Proofs.Evaluation.Operands
import Spreadsheet.Proofs.Evaluation.Within

/-!
# Contracts

A contract says what evaluation keeps up: a property of the resolver's states, one of the numbers in all values, and one
of the failures, which faults have in any case.  A scope honours a contract if its cells, the definitions that it finds
and the nested level below it do.  Then all functions of the evaluator honour it on operands whose numbers have the
property (`Machine.compute_keeps`).  There is one exception: a function that tallies, that is, adds up or counts, gives a
number about which nothing is said.

A scope is handled together with the nested levels below it, so that the induction on the levels is done once, in
`withLevels_honours`.
-/

namespace Spreadsheet

variable {σ α : Type}

/-- What evaluation keeps up, and what it needs to know of definitions for it. -/
structure Contract (σ : Type) where
  state : σ → Prop
  number : Float → Prop
  definition : List Token → Prop
  failure : FormulaError → Prop
  signClosed : SignClosed number
  fault : ∀ e, e.fault?.isSome → failure e

/-- An operand that stands for itself, and whose numbers are as the contract has them. -/
structure Contract.Operand (c : Contract σ) (t : Token) : Prop where
  leaf : t.isLeaf
  within : t.Within c.number

/-- The computation keeps a contract and gives values with `P`. -/
abbrev Eval.Keeps (x : Eval σ α) (c : Contract σ) (P : α → Prop) : Prop :=
  x.Meets c.state P c.failure

/-- The operations of a nested level keep a contract. -/
structure Nested.Honours (n : Nested σ) (c : Contract σ) : Prop where
  evaluate : ∀ tokens, c.definition tokens → (n.evaluate tokens).Keeps c c.Operand
  value : ∀ t, c.Operand t → (n.value t).Keeps c (Value.Within c.number)
  components : ∀ t, c.Operand t → (n.components t).Keeps c fun parts => ∀ t ∈ parts.getD [], c.Operand t
  references : ∀ split t, c.Operand t → (n.references split t).Keeps c fun _ => True

/-- All that a formula can consult keeps a contract. -/
structure Scope.Honours (s : Scope σ) (c : Contract σ) : Prop where
  cell : ∀ sheet a, (s.resolver.cell sheet a).Keeps c (Scalar.Within c.number)
  name : ∀ id, (s.resolver.name id).Keeps c c.definition
  shared : ∀ anchor, (s.resolver.shared anchor).Keeps c c.definition
  nested : ∀ n, s.nested? = some n → n.Honours c

variable {c : Contract σ} {s : Scope σ}

theorem Contract.code (c : Contract σ) (e : ErrorCode) : c.failure (.code e) :=
  c.fault _ rfl

theorem Contract.circular (c : Contract σ) : c.failure .circular :=
  c.fault _ rfl

theorem Contract.Operand.ofScalar {v : Scalar} (h : v.Within c.number) : c.Operand (.ofScalar v) :=
  ⟨by cases v <;> rfl, Token.within_ofScalar h⟩

theorem Contract.Operand.ofReference (ref : Reference) : c.Operand (.ofReference ref) :=
  ⟨by cases ref <;> rfl, Token.within_ofReference ref⟩

open Eval

variable (hs : s.Honours c)
include hs

/-! ### Operands -/

theorem Scope.Honours.rows (sheet : Option String) (range : CellRange) :
    (s.resolver.rows sheet range).Keeps c fun rows => ∀ row ∈ rows, ∀ v ∈ row, v.Within c.number :=
  .mapM fun _ _ => .mapM fun _ _ => hs.cell sheet _

/-- Evaluate a definition one level down and go on with the operand. -/
theorem Scope.Honours.definition {x : Eval σ (List Token)} (hx : x.Keeps c c.definition) {P : α → Prop}
    {G : Nested σ → Token → Eval σ α} (hG : ∀ n, n.Honours c → ∀ t, c.Operand t → (G n t).Keeps c P) :
    (s.nested >>= fun n => x >>= fun body => n.evaluate body >>= G n).Keeps c P := by
  unfold Scope.nested
  cases hn : s.nested? with
  | none => exact .throw c.circular
  | some n =>
    have hn := hs.nested n hn
    simp only [pure_bind]
    exact hx.bind fun body hbody => (hn.evaluate body hbody).bind fun t ht => hG n hn t ht

theorem Reference.value_keeps (ref : Reference) : (ref.value s).Keeps c (Value.Within c.number) := by
  cases ref with
  | cell sheet a => exact (hs.cell sheet a).map fun _ => Value.within_ofScalar
  | area sheet range => exact (hs.rows sheet range).map fun _ => Value.within_ofRows
  | invalid e => exact .pure (.error e)

theorem Token.value_keeps {t : Token} (ht : c.Operand t) : (t.value s).Keeps c (Value.Within c.number) := by
  obtain ⟨hleaf, hwithin⟩ := ht
  cases t with
  | shared | operator | control | call => cases hleaf
  | number x => exact .pure (.number hwithin)
  | integer n => exact .pure (.number hwithin)
  | text s => exact .pure (.text s)
  | boolean b => exact .pure (.boolean b)
  | error e circular => exact .pure (.error e)
  | missing | blank => exact .pure .empty
  | cell sheet a => exact (hs.cell sheet a).map fun _ => Value.within_ofScalar
  | area sheet first last => exact (hs.rows sheet _).map fun _ => Value.within_ofRows
  | array rows => exact .pure (Value.within_ofRows hwithin)
  | name id => exact hs.definition (hs.name id) fun n hn t ht => hn.value t ht
  | references refs =>
    match refs with
    | [] => exact .throw (c.code .null)
    | [ref] => exact ref.value_keeps hs
    | _ :: _ :: _ =>
      refine (Meets.mapM fun ref _ => ref.value_keeps hs).bind fun values hvalues => .pure (.array ?_)
      intro row hrow v hv
      obtain rfl := List.mem_singleton.1 hrow
      exact hvalues v hv

private theorem Token.components_keeps {t : Token} (ht : c.Operand t) :
    (t.components s).Keeps c fun parts => ∀ t ∈ parts.getD [], c.Operand t := by
  cases t with
  | array rows =>
    refine .pure fun t h => ?_
    obtain ⟨v, hv, rfl⟩ := List.mem_map.1 h
    obtain ⟨row, hrow, hv⟩ := List.mem_flatten.1 hv
    exact .ofScalar (ht.within row hrow v hv)
  | area sheet first last =>
    refine .pure fun t h => ?_
    obtain ⟨a, -, rfl⟩ := List.mem_map.1 h
    exact ⟨rfl, trivial⟩
  | name id =>
    refine hs.definition (hs.name id) fun n hn target htarget => ?_
    refine (hn.components target htarget).bind fun parts hparts => .pure fun t h => ?_
    cases parts with
    | none => exact List.mem_singleton.1 h ▸ htarget
    | some parts => exact hparts t h
  | references refs =>
    refine .pure fun t h => ?_
    obtain ⟨ref, -, rfl⟩ := List.mem_map.1 h
    exact .ofReference ref
  | _ => exact .pure fun t h => absurd h List.not_mem_nil

private theorem Token.parts_keeps {t : Token} (ht : c.Operand t) :
    (t.parts s).Keeps c fun parts => ∀ t ∈ parts, c.Operand t := by
  refine (t.components_keeps hs ht).bind fun parts hparts => .pure fun u hu => ?_
  cases parts with
  | none => exact List.mem_singleton.1 hu ▸ ht
  | some parts => exact hparts u hu

private theorem Token.allValues_keeps {args : List Token} (hargs : ∀ t ∈ args, c.Operand t) :
    (Token.allValues s args).Keeps c fun _ => True := by
  have hparts : (Token.allParts s args).Keeps c fun parts => ∀ t ∈ parts, c.Operand t := by
    refine (Meets.mapM fun t ht => t.parts_keeps hs (hargs t ht)).bind fun parts hparts => .pure fun t ht => ?_
    obtain ⟨ts, hts, ht⟩ := List.mem_flatten.1 ht
    exact hparts ts hts t ht
  exact hparts.bind fun parts hparts =>
    (Meets.mapM fun t ht => t.value_keeps hs (hparts t ht)).bind fun _ _ => .pure trivial

/-! ### References -/

omit hs in
private theorem References.readText_satisfies (text : List Char) :
    Satisfies (fun _ => True) c.failure (References.readText text) := by
  unfold References.readText
  cases Reference.readChars text with
  | ok ref => exact trivial
  | error f => exact c.fault _ rfl

omit hs in
private theorem References.readScalar_satisfies (v : Scalar) :
    Satisfies (fun _ => True) c.failure (References.readScalar v) := by
  unfold References.readScalar
  split
  · exact readText_satisfies _
  · exact c.code .value

omit hs in
private theorem References.boundingFrom_satisfies (sheet : Option String) (bounds : Option CellRange)
    (refs : List Reference) : Satisfies (fun _ => True) c.failure (References.boundingFrom sheet bounds refs) := by
  induction refs generalizing sheet bounds with
  | nil =>
    cases bounds with
    | none => exact c.code .null
    | some b => exact trivial
  | cons ref rest ih =>
    unfold References.boundingFrom
    split
    · exact c.code .ref
    · exact ih _ _

private theorem Token.asReferences_keeps (split : Bool) {t : Token} (ht : c.Operand t) :
    (t.asReferences s split).Keeps c fun _ => True := by
  cases t with
  | name id => exact hs.definition (hs.name id) fun n hn t ht => hn.references split t ht
  | shared anchor => exact hs.definition (hs.shared anchor) fun n hn t ht => hn.references split t ht
  | text t => exact (Meets.ofExcept (satisfies_mapM References.readText_satisfies _)).mono fun _ _ => trivial
  | array rows => exact (Meets.ofExcept (satisfies_mapM References.readScalar_satisfies _)).mono fun _ _ => trivial
  | cell | area | references | error => exact .pure trivial
  | _ => exact .throw (c.code .value)

/-! ### Functions -/

namespace Aggregate

omit hs in
private theorem scanNumbers_satisfies {found : List Float} (hfound : ∀ x ∈ found, c.number x) {values : List Value}
    (hvalues : ∀ v ∈ values, v.Within c.number) :
    Satisfies (fun xs => ∀ x ∈ xs, c.number x) c.failure (scanNumbers found values) := by
  induction values generalizing found with
  | nil => exact hfound
  | cons v rest ih =>
    have hrest : ∀ v ∈ rest, v.Within c.number := fun v hv => hvalues v (List.mem_cons_of_mem _ hv)
    cases v with
    | number x => exact ih (List.forall_mem_cons.2 ⟨(hvalues _ (List.mem_cons_self ..)).of_number, hfound⟩) hrest
    | error e => exact c.code e
    | _ => exact ih hfound hrest

omit hs in
private theorem scanDirect_satisfies {found : List Float} (hfound : ∀ x ∈ found, c.number x) {v : Value}
    (hv : v.Within c.number) : Satisfies (fun xs => ∀ x ∈ xs, c.number x) c.failure (scanDirect found v) := by
  cases v with
  | number x => exact List.forall_mem_cons.2 ⟨hv.of_number, hfound⟩
  | boolean b => exact List.forall_mem_cons.2 ⟨c.signClosed.truth b, hfound⟩
  | text t =>
    unfold scanDirect
    dsimp only
    split
    · rename_i x hx
      exact List.forall_mem_cons.2 ⟨c.signClosed.finite x (Number.isFinite_ofText? hx), hfound⟩
    · exact c.code .value
  | error e => exact c.code e
  | empty => exact hfound
  | array rows => exact scanNumbers_satisfies hfound hv.elements

private theorem scanComponents_keeps {found : List Float} (hfound : ∀ x ∈ found, c.number x) {parts : List Token}
    (hparts : ∀ t ∈ parts, c.Operand t) : (scanComponents s found parts).Keeps c fun xs => ∀ x ∈ xs, c.number x := by
  induction parts generalizing found with
  | nil => exact .pure hfound
  | cons t rest ih =>
    unfold scanComponents
    split
    · exact .throw c.circular
    · refine (t.value_keeps hs (hparts t (List.mem_cons_self ..))).bind fun v hv => ?_
      refine (Meets.ofExcept (scanNumbers_satisfies hfound hv.elements)).bind fun xs hxs => ?_
      exact ih hxs fun t ht => hparts t (List.mem_cons_of_mem _ ht)

private theorem scanArgument_keeps {found : List Float} (hfound : ∀ x ∈ found, c.number x) {arg : Token}
    (harg : c.Operand arg) : (scanArgument s found arg).Keeps c fun xs => ∀ x ∈ xs, c.number x := by
  unfold scanArgument
  split
  · exact .throw c.circular
  · refine (arg.components_keeps hs harg).bind fun parts hparts => ?_
    cases parts with
    | some parts => exact scanComponents_keeps hs hfound hparts
    | none =>
      dsimp only
      split
      · refine scanComponents_keeps hs hfound fun t ht => ?_
        exact List.mem_singleton.1 ht ▸ harg
      · exact (arg.value_keeps hs harg).bind fun v hv => .ofExcept (scanDirect_satisfies hfound hv)

private theorem numbers_keeps {args : List Token} (hargs : ∀ t ∈ args, c.Operand t) :
    (numbers s args).Keeps c fun xs => ∀ x ∈ xs, c.number x := by
  have hscan : ∀ found, (∀ x ∈ found, c.number x) →
      (args.foldlM (scanArgument s) found).Keeps c fun xs => ∀ x ∈ xs, c.number x := by
    induction args with
    | nil => exact fun found hfound => .pure hfound
    | cons arg rest ih =>
      intro found hfound
      rw [List.foldlM_cons]
      exact (scanArgument_keeps hs hfound (hargs arg (List.mem_cons_self ..))).bind fun xs hxs =>
        ih (fun t ht => hargs t (List.mem_cons_of_mem _ ht)) xs hxs
  exact (hscan [] fun x hx => absurd hx List.not_mem_nil).bind fun xs hxs => .pure fun x hx =>
    hxs x (List.mem_reverse.1 hx)

omit hs in
/-- The least and the greatest number are among the numbers. -/
theorem number_reduce {f : Float → Float → Float} (hf : ∀ x y, f x y = x ∨ f x y = y) {xs : List Float}
    (hxs : ∀ x ∈ xs, c.number x) : c.number (reduce f xs) := by
  cases xs with
  | nil => exact c.signClosed.zero
  | cons x xs =>
    have hfold : ∀ x, c.number x → (∀ y ∈ xs, c.number y) → c.number (xs.foldl f x) := by
      clear hxs
      induction xs with
      | nil => exact fun x hx _ => hx
      | cons y ys ih =>
        intro x hx hys
        have hy := hys y (List.mem_cons_self ..)
        refine ih (f x y) ?_ fun z hz => hys z (List.mem_cons_of_mem _ hz)
        rcases hf x y with h | h
        · rw [h]
          exact hx
        · rw [h]
          exact hy
    exact hfold x (hxs x (List.mem_cons_self ..)) fun y hy => hxs y (List.mem_cons_of_mem _ hy)

omit hs in
private theorem lesser_eq (x y : Float) : lesser x y = x ∨ lesser x y = y := by
  unfold lesser
  split
  · exact .inl rfl
  · split
    · exact .inl rfl
    · exact .inr rfl

omit hs in
private theorem greater_eq (x y : Float) : greater x y = x ∨ greater x y = y := by
  unfold greater
  split
  · exact .inl rfl
  · split
    · exact .inl rfl
    · exact .inr rfl

end Aggregate

namespace Logic

private theorem conditionValue_keeps {condition : Token} (h : c.Operand condition) :
    (conditionValue s condition).Keeps c fun v => ∀ x ∈ v, x.Within c.number := by
  unfold conditionValue
  split
  · refine (condition.value_keeps hs h).observe.bind fun r hr => .pure fun x hx => ?_
    cases r with
    | error e => cases hx
    | ok v =>
      obtain rfl := Option.some.inj hx
      exact hr
  · refine (condition.value_keeps hs h).map fun v hv x hx => ?_
    obtain rfl := Option.some.inj hx
    exact hv

private theorem ifThen_keeps {args : List Token} (hargs : ∀ t ∈ args, c.Operand t) :
    (ifThen s args).Keeps c (Token.Within c.number) := by
  unfold ifThen
  split
  · rename_i condition branches
    have hrest : ∀ t ∈ branches, c.Operand t := fun t ht => hargs t (List.mem_cons_of_mem _ ht)
    have hbranch : ∀ i : Nat, c.Operand (branch branches[i]?) := fun i =>
      ⟨isLeaf_branch (fun t ht => (hrest t ht).leaf) i,
        within_branch c.signClosed (fun t ht => (hrest t ht).within) i⟩
    split
    · exact .pure trivial
    · refine (conditionValue_keeps hs (hargs condition (List.mem_cons_self ..))).bind fun v hv => ?_
      split
      · exact .pure trivial
      · exact (Token.value_keeps hs (hbranch 0)).bind fun x hx => (Token.value_keeps hs (hbranch 1)).bind fun y hy =>
          .pure (Token.within_ofValue (within_mapIndexed fun z _ i => within_select hx hy z i))
      · exact .pure trivial
      · split
        · exact .pure (hbranch 0).within
        · exact .pure (hbranch 1).within
  · exact .pure trivial

private theorem findPart_keeps (stop : Bool) {parts : List Token} (hparts : ∀ t ∈ parts, c.Operand t) :
    (findPart s stop parts).Keeps c fun _ => True := by
  induction parts with
  | nil => exact .pure trivial
  | cons t rest ih =>
    refine (t.value_keeps hs (hparts t (List.mem_cons_self ..))).bind fun v _ => ?_
    split
    · exact .pure trivial
    · exact ih fun t ht => hparts t (List.mem_cons_of_mem _ ht)

private theorem find_keeps (stop : Bool) {args : List Token} (hargs : ∀ t ∈ args, c.Operand t) :
    (find s stop args).Keeps c fun _ => True := by
  induction args with
  | nil => exact .pure trivial
  | cons arg rest ih =>
    refine (arg.parts_keeps hs (hargs arg (List.mem_cons_self ..))).bind fun parts hparts => ?_
    refine (findPart_keeps hs stop hparts).bind fun found _ => ?_
    split
    · exact .pure trivial
    · exact ih fun t ht => hargs t (List.mem_cons_of_mem _ ht)

private theorem ifError_keeps {args : List Token} (hargs : ∀ t ∈ args, c.Operand t) :
    (ifError s args).Keeps c (Token.Within c.number) := by
  unfold ifError
  split
  · rename_i value fallback
    have hvalue : c.Operand value := hargs value (by simp)
    have hfallback : c.Operand fallback := hargs fallback (by simp)
    refine (value.value_keeps hs hvalue).observe.bind fun r hr => ?_
    split
    · split
      · exact .pure hfallback.within
      · exact .throw hr
    · exact (fallback.value_keeps hs hfallback).bind fun x hx =>
        .pure (Token.within_ofValue (within_mapIndexed fun z hz i => within_replaceError hx (hr.elements z hz) i))
    · split
      · exact .pure hfallback.within
      · exact .pure hvalue.within
  · exact .pure trivial

end Logic

private theorem Inspection.test_keeps (p : Value → Bool) {args : List Token} (hargs : ∀ t ∈ args, c.Operand t) :
    (Inspection.test s p args).Keeps c (Token.Within c.number) := by
  unfold Inspection.test
  split
  · rename_i arg
    have harg : c.Operand arg := hargs arg (by simp)
    have hinspected : (Inspection.inspected s arg).Keeps c fun _ => True := by
      refine (arg.value_keeps hs harg).observe.bind fun r hr => ?_
      split
      · exact .pure trivial
      · split
        · exact .pure trivial
        · exact .throw hr
    exact hinspected.bind fun v _ => .pure trivial
  · exact .pure trivial

namespace Selection

private theorem selected_keeps (criteria : Criteria) {t : Token} (ht : c.Operand t) :
    (selected s criteria t).Keeps c fun _ => True := by
  have hvalue : (cellValue s t).Keeps c fun _ => True := (t.value_keeps hs ht).bind fun _ _ => .pure trivial
  exact hvalue.bind fun _ _ => .pure trivial

private theorem countFrom_keeps (criteria : Criteria) (n : Nat) {cells : List Token}
    (hcells : ∀ t ∈ cells, c.Operand t) : (countFrom s criteria n cells).Keeps c fun _ => True := by
  induction cells generalizing n with
  | nil => exact .pure trivial
  | cons t rest ih =>
    exact (selected_keeps hs criteria (hcells t (List.mem_cons_self ..))).bind fun _ _ =>
      ih _ fun t ht => hcells t (List.mem_cons_of_mem _ ht)

omit hs in
private theorem addValue_satisfies (sum : Float) (v : Value) :
    Satisfies (fun _ => True) c.failure (addValue sum v) := by
  cases v with
  | error e => exact c.code e
  | _ => exact trivial

private theorem sumFrom_keeps (criteria : Criteria) (sum : Float) {cells targets : List Token}
    (hcells : ∀ t ∈ cells, c.Operand t) (htargets : ∀ t ∈ targets, c.Operand t) :
    (sumFrom s criteria sum cells targets).Keeps c fun _ => True := by
  induction cells generalizing sum targets with
  | nil => exact .pure trivial
  | cons t rest ih =>
    have hrest : ∀ t ∈ rest, c.Operand t := fun t ht => hcells t (List.mem_cons_of_mem _ ht)
    refine (selected_keeps hs criteria (hcells t (List.mem_cons_self ..))).bind fun hit _ => ?_
    split
    · cases targets with
      | nil => exact ih sum hrest htargets
      | cons target others =>
        refine (target.value_keeps hs (htargets target (List.mem_cons_self ..))).bind fun v _ => ?_
        refine (Meets.ofExcept (addValue_satisfies sum _)).bind fun sum _ => ?_
        exact ih sum hrest fun t ht => htargets t (List.mem_cons_of_mem _ ht)
    · exact ih sum hrest fun t ht => htargets t (List.mem_of_mem_tail ht)

omit hs in
private theorem operand_resize {sumRange : Token} (h : c.Operand sumRange) (size : Nat × Nat) :
    c.Operand (resize sumRange size) := by
  cases sumRange with
  | cell | area => exact ⟨rfl, trivial⟩
  | _ => exact h

private theorem targets_keeps (range : Token) {cells : List Token} (hcells : ∀ t ∈ cells, c.Operand t)
    {sumRange : Option Token} (hsum : ∀ t ∈ sumRange, c.Operand t) :
    (targets s range cells sumRange).Keeps c fun ts => ∀ t ∈ ts, c.Operand t := by
  cases sumRange with
  | none => exact .pure hcells
  | some sumRange => exact Token.parts_keeps hs (operand_resize (hsum sumRange rfl) _)

private theorem sumIf_keeps {args : List Token} (hargs : ∀ t ∈ args, c.Operand t) :
    (sumIf s args).Keeps c fun _ => True := by
  unfold sumIf
  split
  · rename_i range criteria more
    have hrange : c.Operand range := hargs range (by simp)
    have hcriteria : c.Operand criteria := hargs criteria (by simp)
    have hmore : ∀ t ∈ more.head?, c.Operand t := fun t ht => hargs t (by simp [List.mem_of_mem_head? ht])
    exact (criteria.value_keeps hs hcriteria).bind fun _ _ => (range.parts_keeps hs hrange).bind fun cells hcells =>
      (targets_keeps hs range hcells hmore).bind fun sums hsums =>
        (sumFrom_keeps hs _ 0 hcells hsums).bind fun _ _ => .pure trivial
  · exact .pure trivial

private theorem countIf_keeps {args : List Token} (hargs : ∀ t ∈ args, c.Operand t) :
    (countIf s args).Keeps c fun _ => True := by
  unfold countIf
  split
  · rename_i range criteria
    have hrange : c.Operand range := hargs range (by simp)
    have hcriteria : c.Operand criteria := hargs criteria (by simp)
    exact (criteria.value_keeps hs hcriteria).bind fun _ _ => (range.parts_keeps hs hrange).bind fun cells hcells =>
      (countFrom_keeps hs _ 0 hcells).bind fun _ _ => .pure trivial
  · exact .pure trivial

end Selection

omit hs in
/-- Functions that add up or count. -/
def Function.isTally : Function → Bool
  | count | sum | average | sumIf | countIf => Bool.true
  | _ => Bool.false

theorem Function.apply_keeps (f : Function) {args : List Token} (hargs : ∀ t ∈ args, c.Operand t) :
    (f.apply s args).Keeps c fun t => f.isTally = Bool.false → t.Within c.number := by
  have hnumbers := Aggregate.numbers_keeps hs hargs
  cases f with
  | count => exact (Token.allValues_keeps hs hargs).bind fun _ _ => .pure fun h => nomatch h
  | sum => exact hnumbers.bind fun _ _ => .pure fun h => nomatch h
  | average =>
    refine hnumbers.bind fun xs _ => ?_
    cases xs with
    | nil => exact .throw (c.code .div0)
    | cons x xs => exact .pure fun h => nomatch h
  | sumIf => exact (Selection.sumIf_keeps hs hargs).mono fun _ _ h => nomatch h
  | countIf => exact (Selection.countIf_keeps hs hargs).mono fun _ _ h => nomatch h
  | min => exact hnumbers.bind fun xs hxs => .pure fun _ => Aggregate.number_reduce Aggregate.lesser_eq hxs
  | max => exact hnumbers.bind fun xs hxs => .pure fun _ => Aggregate.number_reduce Aggregate.greater_eq hxs
  | ifThen => exact (Logic.ifThen_keeps hs hargs).mono fun _ h _ => h
  | ifError => exact (Logic.ifError_keeps hs hargs).mono fun _ h _ => h
  | and | or => exact (Logic.find_keeps hs _ hargs).bind fun _ _ => .pure fun _ => trivial
  | not =>
    dsimp only [Function.apply, Logic.not]
    split
    · rename_i arg
      exact (arg.value_keeps hs (hargs arg (by simp))).bind fun _ _ => .pure fun _ => trivial
    · exact .pure fun _ => trivial
  | true | false | na => exact .pure fun _ => trivial
  | isNa | isError | isErr | isText | isNumber | isBlank | isLogical =>
    exact (Inspection.test_keeps hs _ hargs).mono fun _ h _ => h

/-! ### Operators -/

private theorem applyReferenceOperator_keeps (op : Operator) {a b : Token} (ha : c.Operand a) (hb : c.Operand b) :
    (applyReferenceOperator s op a b).Keeps c (Token.Within c.number) := by
  refine (a.asReferences_keeps hs _ ha).bind fun first _ => (b.asReferences_keeps hs _ hb).bind fun second _ => ?_
  cases op with
  | union | intersect => exact .pure trivial
  | _ => exact (Meets.ofExcept (References.boundingFrom_satisfies ..)).bind fun _ _ => .pure trivial

private theorem applyOperator_keeps (op : Operator) {args : List Token} (hargs : ∀ t ∈ args, c.Operand t) :
    (applyOperator s op args).Keeps c (Token.Within c.number) := by
  unfold applyOperator
  split
  · rename_i a _
    have ha : c.Operand a := hargs a (by simp)
    unfold applyUnary
    split
    · exact .pure ha.within
    · split
      · exact .pure (c.signClosed.negateInteger ha.within)
      · exact (a.value_keeps hs ha).bind fun x hx =>
          .pure (Token.within_ofValue (hx.mapElements fun y hy => c.signClosed.unary s.settings op hy))
  · rename_i a b _
    have ha : c.Operand a := hargs a (by simp)
    have hb : c.Operand b := hargs b (by simp)
    unfold applyBinary
    split
    · exact applyReferenceOperator_keeps hs op ha hb
    · split
      · rename_i e he
        split
        · exact .pure trivial
        · exact .pure (hargs e (List.mem_of_find?_eq_some he)).within
      · exact (a.value_keeps hs ha).bind fun x _ => (b.value_keeps hs hb).bind fun y _ =>
          .pure (c.signClosed.onValues s.settings op x y)
  · exact .pure trivial

/-! ### The stack machine -/

omit hs in
/-- The calls of functions that add up or count, and the control that sums. -/
def Operation.isTally : Operation → Bool
  | operator _ => false
  | sum => true
  | call id _ _ => (Function.ofId? id).any Function.isTally

theorem Operation.apply_keeps (f : Operation) {args : List Token} (hargs : ∀ t ∈ args, c.Operand t)
    (hcall : ∀ id n array, f = .call id n array → Function.ofId? id = none → c.failure (.functionNotSupported id)) :
    (f.apply s args).Keeps c fun t => f.isTally = false → t.Within c.number := by
  cases f with
  | operator op => exact (applyOperator_keeps hs op hargs).mono fun _ h _ => h
  | sum => exact (Aggregate.numbers_keeps hs hargs).bind fun _ _ => .pure fun h => nomatch h
  | call id n array =>
    show (callFunction s id args).Keeps c fun t => (Function.ofId? id).any Function.isTally = false → _
    unfold callFunction
    cases hf : Function.ofId? id with
    | none => exact .throw (hcall id n array rfl hf)
    | some f =>
      dsimp only
      split
      · exact f.apply_keeps hs hargs
      · exact .pure fun _ => trivial

namespace Machine

/-- A step puts an operand on the stack, whose numbers are as the contract has them unless the step tallies. -/
theorem step_keeps (f : Operation) {stack : Stack} (hstack : ∀ t ∈ stack, c.Operand t)
    (hcall : ∀ id n array, f = .call id n array → Function.ofId? id = none → c.failure (.functionNotSupported id))
    (hunderflow : stack.length < f.arity → c.failure (.stackUnderflow f.token.display f.arity stack.length)) :
    (step s f.token f.arity stack).Keeps c fun result => ∃ t, result = t :: stack.drop f.arity ∧ t.isLeaf ∧
      (f.isTally = false → t.Within c.number) := by
  unfold step
  split
  · rename_i h
    exact .throw (hunderflow h)
  · have hargs : ∀ t ∈ (stack.take f.arity).reverse, c.Operand t :=
      fun t ht => hstack t (List.mem_of_mem_take (List.mem_reverse.1 ht))
    have happly := f.apply_keeps hs hargs hcall
    rw [← f.compute_token] at happly
    have hleaf := happly.and (compute_givesLeaf f.token fun t ht => (hargs t ht).leaf)
    exact (hleaf.trap fun f => ⟨fun _ => trivial, rfl⟩).bind fun t ht => .pure ⟨t, rfl, ht.2, ht.1⟩

end Machine

omit hs

/-! ### Levels -/

/-- A scope honours a contract at every level if the resolver does, and the evaluation of definitions on a level that
honours it. -/
theorem withLevels_honours {settings : Settings} {r : Resolver σ}
    (hcell : ∀ sheet a, (r.cell sheet a).Keeps c (Scalar.Within c.number))
    (hname : ∀ id, (r.name id).Keeps c c.definition) (hshared : ∀ anchor, (r.shared anchor).Keeps c c.definition)
    (hrun : ∀ n tokens, (Scope.withLevels settings r n).Honours c → c.definition tokens →
      (evaluateToken (Scope.withLevels settings r n) tokens).Keeps c c.Operand) (n : Nat) :
    (Scope.withLevels settings r n).Honours c := by
  induction n with
  | zero => exact ⟨hcell, hname, hshared, fun n h => nomatch h⟩
  | succ n ih =>
    refine ⟨hcell, hname, hshared, fun nested h => ?_⟩
    obtain rfl := Option.some.inj h
    -- What the nested level offers is evaluated in the scope one level down.
    constructor
    · intro tokens htokens
      -- A definition that ends with a circular operand fails instead.
      refine (hrun n tokens ih htokens).bind fun t ht => ?_
      split
      · exact .throw c.circular
      · exact .pure ht
    · exact fun t ht => t.value_keeps ih ht
    · exact fun t ht => t.components_keeps ih ht
    · exact fun split t ht => t.asReferences_keeps ih split ht

/-- A formula whose operand keeps the contract has a value that does. -/
theorem evaluateValue_keeps (hs : s.Honours c) {tokens : List Token} (h : (evaluateToken s tokens).Keeps c c.Operand) :
    (evaluateValue s tokens).Keeps c (Value.Within c.number) := by
  refine h.bind fun t ht => (t.value_keeps hs ht).observe.bind fun r hr => ?_
  cases r with
  | ok v => exact .pure hr
  | error e =>
    dsimp only
    split
    · exact .pure (.error _)
    · exact .throw hr

end Spreadsheet
