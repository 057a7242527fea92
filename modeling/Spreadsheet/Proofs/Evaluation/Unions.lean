import Spreadsheet.Proofs.Evaluation.Components
import Spreadsheet.Proofs.Evaluation.FirstError

/-!
# Unions

A union keeps an area that is written out as it is, and splits the areas in the list of another union into cells.  So the
lists depend on how the unions are nested, but their cells do not (`Expression.exists_union`): these are the cells of the
leaves from left to right.  An aggregate asks for one cell after the other and puts their numbers together
(`Aggregate.numbers_of_isPlace`), which makes the union as good as its leaves as separate arguments.
-/

namespace Spreadsheet

variable {σ : Type} {s : Scope σ}

/-! ### Cells of operands -/

private theorem Reference.cells_of_isSingle {ref : Reference} (h : ref.isSingle) : ref.cells = [ref] := by
  cases ref with
  | area => cases h
  | cell | invalid => rfl

/-- Cells are not split any further. -/
theorem Reference.flatMap_cells_cells (refs : List Reference) :
    (refs.flatMap cells).flatMap cells = refs.flatMap cells := by
  rw [List.flatMap_assoc]
  refine List.flatMap_congr fun ref _ => ?_
  rw [List.flatMap_congr fun single h => cells_of_isSingle (isSingle_of_mem_cells h)]
  exact List.flatMap_singleton' _

namespace Token

variable {t : Token}

/-- A cell or an area that is written out. -/
def isCellOrArea : Token → Bool
  | cell .. | area .. => true
  | _ => false

/-- A cell or an area that is written out, or the result of a reference operator. -/
def isPlace : Token → Bool
  | cell .. | area .. | references _ => true
  | _ => false

/-- The cells of an operand, areas being split row by row. -/
def cells : Token → List Reference
  | cell sheet a => [.cell sheet a]
  | area sheet first last => (Reference.area sheet (.between first last)).cells
  | references refs => refs.flatMap Reference.cells
  | _ => []

private theorem isPlace_of_isCellOrArea (ht : t.isCellOrArea) : t.isPlace := by
  cases t with
  | cell | area => rfl
  | _ => cases ht

private theorem isLeaf_of_isCellOrArea (ht : t.isCellOrArea) : t.isLeaf := by
  cases t with
  | cell | area => rfl
  | _ => cases ht

private theorem ownParts_of_isPlace (ht : t.isPlace) : t.ownParts = t.cells.map ofReference := by
  cases t with
  | cell | references => rfl
  | area sheet first last =>
    rw [cells, Reference.cells, List.map_map]
    rfl
  | _ => cases ht

/-- The union of two places has the cells of both. -/
theorem union_of_isPlace {a b : Token} (ha : a.isPlace) (hb : b.isPlace) :
    ∃ refs, refs.flatMap Reference.cells = a.cells ++ b.cells ∧
      ∀ (σ : Type) (s : Scope σ), applyOperator s .union [a, b] = pure (.references refs) := by
  have hread : ∀ {t : Token}, t.isPlace → ∃ refs, refs.flatMap Reference.cells = t.cells ∧
      ∀ (σ : Type) (s : Scope σ), t.asReferences s true = pure refs := by
    intro t ht
    cases t with
    | cell | area => exact ⟨_, List.flatMap_singleton .., fun _ _ => rfl⟩
    | references refs => exact ⟨_, Reference.flatMap_cells_cells refs, fun _ _ => rfl⟩
    | _ => cases ht
  obtain ⟨first, hfirst, hreadFirst⟩ := hread ha
  obtain ⟨second, hsecond, hreadSecond⟩ := hread hb
  refine ⟨first ++ second, by rw [List.flatMap_append, hfirst, hsecond], fun σ s => ?_⟩
  show (a.asReferences s true >>= fun first => b.asReferences s true >>= fun second =>
    pure (references (first ++ second))) = _
  rw [hreadFirst, hreadSecond, pure_bind, pure_bind]

end Token

/-! ### Nested unions -/

namespace Expression

/-- The operands from left to right. -/
def leaves : Expression → List Token
  | operand t _ => [t]
  | node f children => (List.finRange f.arity).flatMap fun i => (children i).leaves

/-- All operations of the expression are unions, and all operands cells and areas. -/
abbrev JoinsPlaces (e : Expression) : Prop :=
  e.BuiltFrom (· == .union) Token.isCellOrArea

/-- An expression of one or more unions of cells and areas. -/
structure IsUnion (e : Expression) : Prop where
  joinsPlaces : e.JoinsPlaces
  isNode : ∃ f children, e = node f children

variable {e : Expression}

@[elab_as_elim]
theorem JoinsPlaces.induction {motive : Expression → Prop}
    (place : ∀ t leaf, t.isCellOrArea → motive (operand t leaf))
    (union : ∀ children : Fin 2 → Expression, motive (children 0) → motive (children 1) →
      motive (node (.operator .union) children)) (he : e.JoinsPlaces) : motive e := by
  induction e with
  | operand t leaf => exact place t leaf he
  | node f children ih =>
    cases f with
    | operator op =>
      obtain ⟨hop, hchildren⟩ := he
      obtain rfl : op = .union := by simpa using hop
      exact union children (ih _ (hchildren _)) (ih _ (hchildren _))
    | sum | call => exact he.elim

private theorem leaves_union (children : Fin 2 → Expression) :
    (node (.operator .union) children).leaves = (children 0).leaves ++ (children 1).leaves :=
  congrArg _ (List.append_nil _)

private theorem leaves_isCellOrArea (he : e.JoinsPlaces) : ∀ t ∈ e.leaves, t.isCellOrArea := by
  refine he.induction (fun t leaf ht => List.forall_mem_singleton.2 ht) fun children hfirst hsecond => ?_
  rw [leaves_union]
  exact List.forall_mem_append.2 ⟨hfirst, hsecond⟩

private theorem leaves_ne_nil (he : e.JoinsPlaces) : e.leaves ≠ [] := by
  refine he.induction (fun t leaf _ => List.cons_ne_nil _ _) fun children hfirst _ => ?_
  rw [leaves_union]
  exact List.append_ne_nil_of_left_ne_nil hfirst _

/-- The value of the expression has the cells of the leaves from left to right, and is a list if there is any union. -/
theorem exists_union (he : e.JoinsPlaces) : ∃ t : Token, t.isPlace ∧ t.cells = e.leaves.flatMap Token.cells ∧
    (∀ (σ : Type) (s : Scope σ), e.evaluate s = pure t) ∧
    ∀ f children, e = node f children → ∃ refs, t = .references refs := by
  refine he.induction (fun t leaf ht => ?_) fun children hfirst hsecond => ?_
  · exact ⟨t, Token.isPlace_of_isCellOrArea ht, (List.flatMap_singleton ..).symm, fun _ _ => rfl, nofun⟩
  · obtain ⟨a, ha, hacells, haeval, -⟩ := hfirst
    obtain ⟨b, hb, hbcells, hbeval, -⟩ := hsecond
    obtain ⟨refs, hrefs, happly⟩ := Token.union_of_isPlace ha hb
    refine ⟨.references refs, rfl, ?_, fun σ s => ?_, fun _ _ _ => ⟨refs, rfl⟩⟩
    · rw [Token.cells, hrefs, hacells, hbcells, leaves_union, List.flatMap_append]
    · have hchildren : ∀ i : Fin (Operation.operator .union).arity, (children i).evaluate s = pure (![a, b] i) :=
        Fin.forall_fin_two.2 ⟨haeval σ s, hbeval σ s⟩
      refine (evaluate_node hchildren).trans ?_
      exact (congrArg Eval.trap (happly σ s)).trans (Eval.trap_pure _)

private theorem IsUnion.exists_references (he : e.IsUnion) : ∃ refs,
    (∀ (σ : Type) (s : Scope σ), e.evaluate s = pure (.references refs)) ∧
      refs.flatMap Reference.cells = e.leaves.flatMap Token.cells := by
  obtain ⟨t, -, hcells, hevaluate, hlist⟩ := exists_union he.joinsPlaces
  obtain ⟨f, children, hnode⟩ := he.isNode
  obtain ⟨refs, rfl⟩ := hlist f children hnode
  exact ⟨refs, hevaluate, hcells⟩

end Expression

/-! ### What is collected from the cells -/

/-- If a collection goes from cell to cell then it goes from operand to operand. -/
private theorem eq_flatten_mapM {β : Type} {F : List Token → Eval σ (List β)} {f : Reference → Eval σ (List β)}
    (hF : ∀ args : List Token, (∀ t ∈ args, t.isPlace) → F args = List.flatten <$> (args.flatMap Token.cells).mapM f)
    {args : List Token} (hargs : ∀ t ∈ args, t.isPlace) : F args = List.flatten <$> args.mapM fun t => F [t] := by
  induction args with
  | nil => exact hF [] hargs
  | cons t args ih =>
    obtain ⟨ht, htail⟩ := List.forall_mem_cons.1 hargs
    have hrest : ∀ xs : List β, (fun ys => xs ++ ys.flatten) <$> (args.flatMap Token.cells).mapM f =
        (fun ys => xs ++ ys.flatten) <$> args.mapM fun t => F [t] := by
      intro xs
      have h := congrArg (fun ys => (xs ++ ·) <$> ys) ((hF args htail).symm.trans (ih htail))
      rwa [Functor.map_map, Functor.map_map] at h
    rw [hF _ hargs, List.flatMap_cons, List.mapM_append, List.mapM_cons, hF [t] (List.forall_mem_singleton.2 ht),
      List.flatMap_singleton]
    simp [hrest]

namespace Aggregate

/-- The computation puts what it finds in front of what was found before. -/
def Accumulates {α : Type} (f : List Float → α → Eval σ (List Float)) : Prop :=
  ∀ found a, f found a = (· ++ found) <$> f [] a

private theorem Accumulates.foldlM_eq {α : Type} {f : List Float → α → Eval σ (List Float)} (hf : Accumulates f)
    (found : List Float) (xs : List α) : xs.foldlM f found =
      (fun lists => lists.flatten.reverse ++ found) <$> xs.mapM fun a => List.reverse <$> f [] a := by
  induction xs generalizing found with
  | nil => simp
  | cons a xs ih =>
    rw [List.foldlM_cons, hf found a, List.mapM_cons]
    simp [ih]

private theorem scanNumbers_eq_append (found : List Float) (vs : List Value) :
    scanNumbers found vs = (scanNumbers [] vs).map (· ++ found) := by
  induction vs generalizing found with
  | nil => rfl
  | cons v vs ih =>
    cases v with
    | number x =>
      rw [scanNumbers, scanNumbers, ih, ih [x]]
      cases scanNumbers [] vs <;> simp [Except.map]
    | error e => rfl
    | _ => exact ih found

/-- The numbers of one component. -/
def scanComponent (s : Scope σ) (found : List Float) (t : Token) : Eval σ (List Float) :=
  scanComponents s found [t]

private theorem accumulates_scanComponent : Accumulates (scanComponent s) := by
  intro found t
  rw [scanComponent, scanComponent, scanComponents, scanComponents]
  split
  · rfl
  · rw [map_bind]
    refine congrArg _ (funext fun v => ?_)
    rw [scanNumbers_eq_append]
    cases scanNumbers [] v.elements <;> rfl

private theorem scanComponents_eq_foldlM (found : List Float) (parts : List Token) :
    scanComponents s found parts = parts.foldlM (scanComponent s) found := by
  induction parts generalizing found with
  | nil => rfl
  | cons t parts ih =>
    rw [List.foldlM_cons, scanComponent, scanComponents, scanComponents]
    split
    · rfl
    · simp [scanComponents, ih]

/-- The numbers of places are those of their cells. -/
theorem numbers_of_isPlace {args : List Token} (hargs : ∀ t ∈ args, t.isPlace) : numbers s args =
    List.flatten <$> (args.flatMap Token.cells).mapM
      fun ref => List.reverse <$> scanComponent s [] (Token.ofReference ref) := by
  have hscan : ∀ found, args.foldlM (scanArgument s) found =
      ((args.flatMap Token.cells).map Token.ofReference).foldlM (scanComponent s) found := by
    induction args with
    | nil => exact fun _ => rfl
    | cons t args ih =>
      obtain ⟨ht, htail⟩ := List.forall_mem_cons.1 hargs
      intro found
      have hparts : scanArgument s found t = scanComponents s found t.ownParts := by
        cases t with
        | cell | area | references => rfl
        | _ => cases ht
      rw [List.foldlM_cons, hparts, Token.ownParts_of_isPlace ht, scanComponents_eq_foldlM, List.flatMap_cons,
        List.map_append, List.foldlM_append, funext (ih htail)]
  rw [numbers, hscan, accumulates_scanComponent.foldlM_eq]
  simp only [List.mapM_map, List.append_nil, bind_pure_comp, Functor.map_map, List.reverse_reverse]
  rfl

end Aggregate

namespace Token

private theorem allParts_of_isPlace {args : List Token} (hargs : ∀ t ∈ args, t.isPlace) :
    allParts s args = pure ((args.flatMap cells).map ofReference) := by
  have hparts : args.mapM (parts s) = pure (args.map fun t => t.cells.map ofReference) := by
    induction args with
    | nil => rfl
    | cons t args ih =>
      obtain ⟨ht, hargs⟩ := List.forall_mem_cons.1 hargs
      have hname : ∀ id, t ≠ name id := by
        rintro id rfl
        cases ht
      rw [List.mapM_cons, parts_eq_ownParts hname, ownParts_of_isPlace ht, ih hargs]
      rfl
  rw [allParts, hparts, pure_bind, List.map_flatMap]
  rfl

/-- The values of places are those of their cells. -/
theorem allValues_of_isPlace {args : List Token} (hargs : ∀ t ∈ args, t.isPlace) : allValues s args =
    List.flatten <$> (args.flatMap cells).mapM fun ref => Value.elements <$> (ofReference ref).value s := by
  rw [allValues, allParts_of_isPlace hargs, pure_bind, List.mapM_map, mapM_map_right, Functor.map_map, bind_pure_comp]
  rfl

end Token

/-! ### Aggregates of unions -/

/-- An aggregate depends on the numbers or on the values of its arguments. -/
theorem Function.call_congr {f : Function} (hf : f ∈ [sum, average, count, min, max]) {args args' : List Token}
    (hargs : args ≠ []) (hargs' : args' ≠ []) (hnumbers : Aggregate.numbers s args = Aggregate.numbers s args')
    (hvalues : Token.allValues s args = Token.allValues s args') :
    callFunction s f.id args = callFunction s f.id args' := by
  simp only [List.mem_cons, List.not_mem_nil, or_false] at hf
  have hcounts : f.minArgs = 1 ∧ f.maxArgs? = none := by
    rcases hf with rfl | rfl | rfl | rfl | rfl <;> exact ⟨rfl, rfl⟩
  have happly : f.apply s args = f.apply s args' := by
    rcases hf with rfl | rfl | rfl | rfl | rfl <;>
      simp only [apply, Aggregate.sum, Aggregate.average, Aggregate.count, Aggregate.min, Aggregate.max, hnumbers, hvalues]
  rw [callFunction_of_ne_nil hcounts.1 hcounts.2 hargs, callFunction_of_ne_nil hcounts.1 hcounts.2 hargs', happly]

namespace Expression

/-- Operands in front of a call are its arguments. -/
theorem evaluateToken_leaves_call {leaves : List Token} (hleaves : ∀ t ∈ leaves, t.isLeaf) (id : Nat)
    (returnsArray : Bool) : evaluateToken s (leaves ++ [.call id leaves.length returnsArray]) =
      (callFunction s id leaves).trap := by
  let args := leaves.attach.map fun t => operand t.1 (hleaves t.1 t.2)
  have htokens : args.flatMap tokens = leaves := by
    rw [List.flatMap_map]
    exact (List.map_eq_flatMap ..).symm.trans (List.attach_map_subtype_val leaves)
  have hevaluate : args.mapM (evaluate s) = pure leaves := by
    rw [List.mapM_map]
    exact List.mapM_pure.trans (congrArg pure (List.attach_map_subtype_val leaves))
  have hcall := evaluateToken_arguments (s := s) args id returnsArray
  rwa [htokens, hevaluate, pure_bind, List.length_map, List.length_attach] at hcall

variable {e : Expression}

/-- An expression in front of a call is its argument. -/
theorem evaluateToken_call {t : Token} (he : e.evaluate s = pure t) (id : Nat) (returnsArray : Bool) :
    evaluateToken s (e.tokens ++ [.call id 1 returnsArray]) = (callFunction s id [t]).trap := by
  have hcall := evaluateToken_unary (s := s) (f := .call id 1 returnsArray) rfl e
  rwa [he, pure_bind] at hcall

/-- Unions of cells and areas, nested in any way: the cells of the result are those of the leaves from left to right, and
depend on nothing else.  The numbers and the values of all cells are collected as from the leaves one after the other, and
so an aggregate of the union and one of the leaves as its arguments are the same. -/
theorem union_cells (he : e.IsUnion) :
    ∃ refs, (∀ (σ : Type) (s : Scope σ), evaluateToken s e.tokens = pure (.references refs)) ∧
      refs.flatMap Reference.cells = e.leaves.flatMap Token.cells ∧
      (∀ d : Expression, d.IsUnion → d.leaves = e.leaves → ∃ refs',
        (∀ (σ : Type) (s : Scope σ), evaluateToken s d.tokens = pure (.references refs')) ∧
          refs'.flatMap Reference.cells = refs.flatMap Reference.cells) ∧
      ∀ (σ : Type) (s : Scope σ),
        Aggregate.numbers s [.references refs] =
          List.flatten <$> e.leaves.mapM (fun leaf => Aggregate.numbers s [leaf]) ∧
        Token.allValues s [.references refs] =
          List.flatten <$> e.leaves.mapM (fun leaf => Token.allValues s [leaf]) ∧
        ∀ f ∈ [Function.sum, .average, .count, .min, .max], ∀ returnsArray,
          evaluateToken s (e.tokens ++ [.call f.id 1 returnsArray]) =
            evaluateToken s (e.leaves ++ [.call f.id e.leaves.length returnsArray]) := by
  obtain ⟨refs, hevaluate, hcells⟩ := he.exists_references
  have hplaces : ∀ t ∈ e.leaves, t.isPlace := fun t ht =>
    Token.isPlace_of_isCellOrArea (leaves_isCellOrArea he.joinsPlaces t ht)
  have hplace : ∀ t ∈ [Token.references refs], t.isPlace := List.forall_mem_singleton.2 rfl
  have hsame : [Token.references refs].flatMap Token.cells = e.leaves.flatMap Token.cells := by
    rw [List.flatMap_singleton, Token.cells, hcells]
  refine ⟨refs, fun σ s => by rw [evaluateToken_tokens, hevaluate], hcells, fun d hd hleaves => ?_, fun σ s => ?_⟩
  · obtain ⟨refs', hevaluate', hcells'⟩ := hd.exists_references
    exact ⟨refs', fun σ s => by rw [evaluateToken_tokens, hevaluate'], by rw [hcells', hleaves, hcells]⟩
  · have hnumbers : Aggregate.numbers s [.references refs] = Aggregate.numbers s e.leaves := by
      rw [Aggregate.numbers_of_isPlace hplace, Aggregate.numbers_of_isPlace hplaces, hsame]
    have hvalues : Token.allValues s [.references refs] = Token.allValues s e.leaves := by
      rw [Token.allValues_of_isPlace hplace, Token.allValues_of_isPlace hplaces, hsame]
    refine ⟨?_, ?_, fun f hf returnsArray => ?_⟩
    · rw [hnumbers]
      exact eq_flatten_mapM (fun args hargs => Aggregate.numbers_of_isPlace hargs) hplaces
    · rw [hvalues]
      exact eq_flatten_mapM (fun args hargs => Token.allValues_of_isPlace hargs) hplaces
    · have hleaves : ∀ t ∈ e.leaves, t.isLeaf := fun t ht =>
        Token.isLeaf_of_isCellOrArea (leaves_isCellOrArea he.joinsPlaces t ht)
      rw [evaluateToken_call (hevaluate σ s), evaluateToken_leaves_call hleaves,
        Function.call_congr hf (List.cons_ne_nil _ _) (leaves_ne_nil he.joinsPlaces) hnumbers hvalues]

/-- An area joined with a cell, and then with one of its own cells, bracketed to the left. -/
def areaAndCells : Expression :=
  .node (.operator .union) ![
    .node (.operator .union) ![
      .operand (.area none (.relative 4 1) (.relative 4 0)) rfl,
      .operand (.cell (some "Data") (.relative 4 2)) rfl],
    .operand (.cell none (.relative 4 0)) rfl]

/-- The first cell is there twice. -/
theorem union_cells_areaAndCells :
    areaAndCells.IsUnion ∧ ∃ refs,
      (∀ (σ : Type) (s : Scope σ), evaluateToken s areaAndCells.tokens = pure (.references refs)) ∧
      refs.flatMap Reference.cells = [.cell none (.relative 4 0), .cell none (.relative 4 1),
        .cell (some "Data") (.relative 4 2), .cell none (.relative 4 0)] := by
  have he : areaAndCells.IsUnion :=
    ⟨⟨rfl, Fin.forall_fin_two.2 ⟨⟨rfl, Fin.forall_fin_two.2 ⟨rfl, rfl⟩⟩, rfl⟩⟩, _, _, rfl⟩
  obtain ⟨refs, hevaluate, hcells, -⟩ := union_cells he
  exact ⟨he, refs, hevaluate, hcells.trans rfl⟩

end Expression

end Spreadsheet
