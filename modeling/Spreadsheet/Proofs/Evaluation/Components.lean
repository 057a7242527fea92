import Spreadsheet.Proofs.Address.Rectangle
import Spreadsheet.Proofs.Evaluation.AnyResolver
import Spreadsheet.Proofs.Evaluation.Operands
import Spreadsheet.Proofs.Evaluation.ReferenceOperands

/-!
# Expanding and resolving

A composite operand can be resolved as a whole or expanded into components that are resolved one by one.  Both visit the
same cells in the same order: for arrays, areas and reference lists the two computations ask the same questions
(`Token.flatValues_ownParts`).  A name is followed to the operand that it stands for (`Token.referent`) in both cases
(`Token.value_eq_referent`, `Token.parts_eq_referent`), but twice if it is expanded first and resolved afterwards, which
is why the resolver has to answer a question in the same way whenever it is asked (`Token.value_of_components`).

The cells of an area are counted when it is expanded, and not when it is resolved.  So the two differ for an area whose
count wraps (`Token.components_ne_value_allColumns`), and only for such a one (`Token.Countable`).
-/

namespace Spreadsheet

variable {σ : Type} {s : Scope σ}

/-! ### Lists of computations -/

private theorem mapM_flatMap {m : Type → Type} [Monad m] [LawfulMonad m] {α β γ : Type} (f : β → m γ) (g : α → List β)
    (xs : List α) : (xs.flatMap g).mapM f = List.flatten <$> xs.mapM fun x => (g x).mapM f := by
  induction xs with
  | nil => simp
  | cons x xs ih =>
    rw [List.flatMap_cons, List.mapM_append, ih, List.mapM_cons]
    simp

theorem mapM_map_right {m : Type → Type} [Monad m] [LawfulMonad m] {α β γ : Type} (f : α → m β) (g : β → γ)
    (xs : List α) : (xs.mapM fun x => g <$> f x) = List.map g <$> xs.mapM f := by
  induction xs with
  | nil => simp
  | cons x xs ih =>
    rw [List.mapM_cons, List.mapM_cons, ih]
    simp

/-- The values of an area are those of its cells, as they are walked. -/
theorem Resolver.flatten_rows (r : Resolver σ) (sheet : Option String) {range : CellRange} (hnormal : range.Normal)
    (hcount : range.Countable) : List.flatten <$> r.rows sheet range = range.cells.mapM (r.cell sheet) := by
  rw [CellRange.cells_eq_flatMap hnormal hcount, mapM_flatMap]
  simp only [List.mapM_map]
  rfl

/-- If each computation has the same outcome from all states of a set and does not lead out of it, then they have these
outcomes also one after the other. -/
theorem Eval.mapM_steady {α β : Type} {I : σ → Prop} {f : α → Eval σ β} {r : α → Except FormulaError β}
    (hf : ∀ a p, I p → ((f a).runFrom p).1 = r a ∧ I ((f a).runFrom p).2) (xs : List α) {p : σ} (hp : I p) :
    ((xs.mapM f).runFrom p).1 = xs.mapM r := by
  induction xs generalizing p with
  | nil => rfl
  | cons a xs ih =>
    obtain ⟨ha, hstay⟩ := hf a p hp
    rw [List.mapM_cons, List.mapM_cons, runFrom_bind, ← ha]
    rcases hrun : (f a).runFrom p with ⟨e | b, p'⟩
    · rfl
    · rw [hrun] at hstay
      have hrest := ih hstay
      dsimp only at hrest ⊢
      rw [runFrom_bind, ← hrest]
      rcases (xs.mapM f).runFrom p' with ⟨e | bs, p''⟩ <;> rfl

/-- One failure among the outcomes is enough. -/
private theorem mapM_error {α β : Type} {f : α → Except FormulaError β} {xs : List α}
    (h : ∃ a ∈ xs, ∃ e, f a = .error e) : ∃ e, xs.mapM f = .error e := by
  obtain ⟨a, ha, e, he⟩ := h
  induction xs with
  | nil => cases ha
  | cons b xs ih =>
    rw [List.mapM_cons]
    cases hb : f b with
    | error e' => exact ⟨e', rfl⟩
    | ok c =>
      rcases List.mem_cons.1 ha with rfl | ha
      · cases he.symm.trans hb
      · obtain ⟨e', he'⟩ := ih ha
        exact ⟨e', by rw [he']; rfl⟩

theorem mapM_ok {α β : Type} {f : α → Except FormulaError β} {xs : List α} {ys : List β}
    (h : List.Forall₂ (fun a b => f a = .ok b) xs ys) : xs.mapM f = .ok ys := by
  induction h with
  | nil => rfl
  | cons h _ ih =>
    rw [List.mapM_cons, h, ih]
    rfl

/-! ### The elements of values -/

namespace Value

private theorem elements_ofScalar (x : Scalar) : (ofScalar x).elements = [ofScalar x] := by
  cases x <;> rfl

theorem elements_ofRows (rows : List (List Scalar)) : (ofRows rows).elements = rows.flatten.map ofScalar :=
  List.map_flatten.symm

end Value

namespace Token

/-- The elements of the values of some operands, in their order. -/
def flatValues (s : Scope σ) (ts : List Token) : Eval σ (List Value) :=
  List.flatMap Value.elements <$> ts.mapM (value s)

private theorem flatValues_singleton (t : Token) : flatValues s [t] = Value.elements <$> t.value s := by
  simp [flatValues]

private theorem flatValues_cons (t : Token) (ts : List Token) :
    flatValues s (t :: ts) = do return (← t.value s).elements ++ (← flatValues s ts) := by
  simp [flatValues, List.mapM_cons]

private theorem flatValues_scalars (xs : List Scalar) :
    flatValues s (xs.map ofScalar) = pure (xs.map Value.ofScalar) := by
  induction xs with
  | nil => rfl
  | cons x xs ih =>
    have hx : (ofScalar x).value s = pure (Value.ofScalar x) := by cases x <;> rfl
    rw [List.map_cons, flatValues_cons, ih, hx, pure_bind, pure_bind, Value.elements_ofScalar]
    rfl

theorem flatValues_cells (sheet : Option String) (cells : List CellAddress) :
    flatValues s (cells.map (cell sheet)) = List.map Value.ofScalar <$> cells.mapM (s.resolver.cell sheet) := by
  induction cells with
  | nil => rfl
  | cons a cells ih =>
    rw [List.map_cons, flatValues_cons, ih, List.mapM_cons]
    simp [value, Value.elements_ofScalar]

end Token

namespace Reference

/-- An entry that is not split any further. -/
def isSingle : Reference → Bool
  | area .. => false
  | _ => true

theorem isSingle_of_mem_cells {ref single : Reference} (h : single ∈ ref.cells) : single.isSingle := by
  cases ref with
  | area sheet range =>
    obtain ⟨a, -, rfl⟩ := List.mem_map.1 h
    rfl
  | cell | invalid =>
    obtain rfl := List.mem_singleton.1 h
    rfl

/-- An entry is worth the values of its cells. -/
theorem flatValues_cells {ref : Reference} (h : ref.Countable) :
    Token.flatValues s (ref.cells.map Token.ofReference) = Value.elements <$> ref.value s := by
  cases ref with
  | cell | invalid => exact Token.flatValues_singleton _
  | area sheet range =>
    obtain ⟨hnormal, hcount⟩ := h
    show Token.flatValues s ((range.cells.map (cell sheet)).map Token.ofReference) = Value.elements <$>
      (Value.ofRows <$> s.resolver.rows sheet range)
    rw [List.map_map]
    refine (Token.flatValues_cells sheet range.cells).trans ?_
    rw [← s.resolver.flatten_rows sheet hnormal hcount]
    simp only [Functor.map_map, Value.elements_ofRows]

/-- Single entries have scalar values. -/
theorem flatValues_singles {refs : List Reference} (h : ∀ ref ∈ refs, ref.isSingle) :
    Token.flatValues s (refs.map Token.ofReference) = refs.mapM (value s) := by
  induction refs with
  | nil => rfl
  | cons ref refs ih =>
    rw [List.map_cons, Token.flatValues_cons, ih fun ref h' => h ref (List.mem_cons_of_mem _ h'), List.mapM_cons]
    cases ref with
    | area sheet range => exact absurd (h _ (List.mem_cons_self ..)) (by simp [isSingle])
    | cell sheet a => simp [Token.ofReference, Token.value, value, Value.elements_ofScalar]
    | invalid e => rfl

end Reference

/-! ### Operands that are no names -/

namespace Token

variable {t : Token}

/-- The components of an operand that is no name, or the operand alone if it has none. -/
def ownParts : Token → List Token
  | array rows => rows.flatten.map ofScalar
  | area sheet first last => (CellRange.between first last).cells.map (cell sheet)
  | references refs => (refs.flatMap Reference.cells).map ofReference
  | t => [t]

theorem parts_eq_ownParts (hname : ∀ id, t ≠ name id) : t.parts s = pure t.ownParts := by
  cases t with
  | name id => exact absurd rfl (hname id)
  | _ => rfl

/-- An operand that is resolved as one area is one whose cells can be counted.  The areas in a list of several entries are
split into their cells in both ways. -/
def Countable : Token → Prop
  | area _ first last => (CellRange.between first last).Countable
  | references [ref] => ref.Countable
  | _ => True

/-- The components are resolved one by one with the same questions as the operand as a whole. -/
theorem flatValues_ownParts (hname : ∀ id, t ≠ name id) (hlist : t ≠ references []) (hcount : t.Countable) :
    flatValues s t.ownParts = Value.elements <$> t.value s := by
  cases t with
  | name id => exact absurd rfl (hname id)
  | array rows =>
    refine (flatValues_scalars rows.flatten).trans ?_
    rw [value, map_pure, Value.elements_ofRows]
  | area sheet first last =>
    have harea : (Reference.area sheet (.between first last)).Countable := ⟨CellRange.normal_between first last, hcount⟩
    have hcells := Reference.flatValues_cells (s := s) harea
    rwa [Reference.cells, List.map_map] at hcells
  | references refs =>
    match refs with
    | [] => exact absurd rfl hlist
    | [ref] =>
      have hcells := Reference.flatValues_cells (s := s) (show ref.Countable from hcount)
      rwa [← List.flatMap_singleton (f := Reference.cells)] at hcells
    | ref :: ref' :: rest =>
      have hsingle : ∀ single ∈ (ref :: ref' :: rest).flatMap Reference.cells, single.isSingle := by
        intro single h
        obtain ⟨ref, -, h⟩ := List.mem_flatMap.1 h
        exact Reference.isSingle_of_mem_cells h
      refine (Reference.flatValues_singles hsingle).trans ?_
      simp [value, Value.elements]
  | _ => exact flatValues_singleton _

/-- Only names and shared formulas are evaluated on a nested level. -/
theorem value_congr {s' : Scope σ} (hresolver : s.resolver = s'.resolver) (leaf : t.isLeaf)
    (hname : ∀ id, t ≠ name id) : t.value s = t.value s' := by
  have href : ∀ ref : Reference, ref.value s = ref.value s' := by
    intro ref
    cases ref <;> simp only [Reference.value, hresolver]
  cases t with
  | name id => exact absurd rfl (hname id)
  | shared anchor => cases leaf
  | cell | area => simp only [value, hresolver]
  | references refs =>
    match refs with
    | [] => rfl
    | [ref] => exact href ref
    | _ :: _ :: _ => simp only [value, funext href]
  | _ => rfl

/-! ### Names -/

end Token

/-- What the definition of a name evaluates to on a level. -/
def Resolver.target (settings : Settings) (r : Resolver σ) (n id : Nat) : Eval σ Token :=
  r.name id >>= evaluateNested (.withLevels settings r n)

private theorem Resolver.isLeaf_target {settings : Settings} {r : Resolver σ} {n id : Nat} {p p' : σ} {t : Token}
    (h : (r.target settings n id).runFrom p = (.ok t, p')) : t.isLeaf := by
  obtain ⟨definition, q, -, h⟩ := Eval.runFrom_bind_eq_ok.1 h
  obtain ⟨u, q', hrun, h⟩ := Eval.runFrom_bind_eq_ok.1 h
  split at h
  · cases h
  · cases h
    exact evaluateToken_isLeaf hrun

namespace Token

variable {settings : Settings} {r : Resolver σ} {t u : Token} {p p' : σ}

private theorem value_name (n id : Nat) : (name id).value (.withLevels settings r (n + 1)) =
    r.target settings n id >>= fun t => t.value (.withLevels settings r n) := by
  rw [Resolver.target, bind_assoc]
  rfl

theorem parts_name (n id : Nat) : (name id).parts (.withLevels settings r (n + 1)) =
    r.target settings n id >>= fun t => t.parts (.withLevels settings r n) := by
  have hcomponents : (name id).components (.withLevels settings r (n + 1)) =
      r.target settings n id >>= fun t => some <$> t.parts (.withLevels settings r n) := by
    simp only [Resolver.target, parts, map_bind, map_pure, bind_assoc]
    rfl
  rw [parts, hcomponents]
  simp

/-- What a name stands for, names of names being followed; any other operand stands for itself.  The number counts the
nested levels. -/
def referent (settings : Settings) (r : Resolver σ) : Nat → Token → Eval σ Token
  | 0, name _ => throw .circular
  | n + 1, name id => r.target settings n id >>= referent settings r n
  | _, t => pure t

private theorem referent_eq_self (n : Nat) (hname : ∀ id, t ≠ name id) : referent settings r n t = pure t := by
  cases t with
  | name id => exact absurd rfl (hname id)
  | _ => cases n <;> rfl

private theorem referent_isLeaf {n : Nat} (leaf : t.isLeaf) (h : (referent settings r n t).runFrom p = (.ok u, p')) :
    u.isLeaf ∧ ∀ id, u ≠ name id := by
  have hself : ∀ n {p : σ} {t : Token}, t.isLeaf → (∀ id, t ≠ name id) →
      (referent settings r n t).runFrom p = (.ok u, p') → u.isLeaf ∧ ∀ id, u ≠ name id := by
    intro n p t leaf hname h
    rw [referent_eq_self n hname] at h
    cases h
    exact ⟨leaf, hname⟩
  induction n generalizing t p with
  | zero =>
    cases t with
    | name id => cases h
    | _ => exact hself 0 leaf nofun h
  | succ n ih =>
    cases t with
    | name id =>
      obtain ⟨target, q, htarget, h⟩ := Eval.runFrom_bind_eq_ok.1 h
      exact ih (Resolver.isLeaf_target htarget) h
    | _ => exact hself (n + 1) leaf nofun h

/-- A name has the value of what it stands for, on any level. -/
theorem value_eq_referent (n m : Nat) (leaf : t.isLeaf) : t.value (.withLevels settings r n) =
    referent settings r n t >>= fun u => u.value (.withLevels settings r m) := by
  have hresolver : ∀ n, (Scope.withLevels settings r n).resolver = r :=
    fun n => (withLevels_isDialogue settings n).resolver_eq σ r
  have hself : ∀ n {t : Token}, t.isLeaf → (∀ id, t ≠ name id) → t.value (.withLevels settings r n) =
      referent settings r n t >>= fun u => u.value (.withLevels settings r m) := by
    intro n t leaf hname
    rw [referent_eq_self n hname, pure_bind]
    exact value_congr ((hresolver n).trans (hresolver m).symm) leaf hname
  induction n generalizing t with
  | zero =>
    cases t with
    | name id => rfl
    | _ => exact hself 0 leaf nofun
  | succ n ih =>
    cases t with
    | name id =>
      rw [value_name, referent, bind_assoc]
      exact Eval.bind_congr_ok fun p target p' h => ih (Resolver.isLeaf_target h)
    | _ => exact hself (n + 1) leaf nofun

/-- A name has the components of what it stands for. -/
theorem parts_eq_referent (n : Nat) (t : Token) : t.parts (.withLevels settings r n) =
    ownParts <$> referent settings r n t := by
  have hself : ∀ n {t : Token}, (∀ id, t ≠ name id) → t.parts (.withLevels settings r n) =
      ownParts <$> referent settings r n t := by
    intro n t hname
    rw [referent_eq_self n hname, map_pure, parts_eq_ownParts hname]
  induction n generalizing t with
  | zero =>
    cases t with
    | name id => rfl
    | _ => exact hself 0 nofun
  | succ n ih =>
    cases t with
    | name id => simp only [parts_name, referent, ih, map_bind]
    | _ => exact hself (n + 1) nofun

/-! ### The two ways -/

variable {I : σ → Prop} {n : Nat} {parts : List Token} {q : σ}

/-- A steady resolver gives an operand the same value whenever it is asked. -/
theorem value_steady (hr : r.Steady I) (t : Token) (hp : I p) (hq : I q) :
    ((t.value (.withLevels settings r n)).runFrom p).1 = ((t.value (.withLevels settings r n)).runFrom q).1 ∧
      I ((t.value (.withLevels settings r n)).runFrom p).2 :=
  (t.value_isDialogue (withLevels_isDialogue settings n)).run_steady hr hp hq

/-- The components of an operand are those of what it stands for. -/
theorem exists_referent (hr : r.Steady I) (hp : I p)
    (hparts : ((t.components (.withLevels settings r n)).runFrom p).1 = .ok (some parts)) :
    ∃ u p', (referent settings r n t).runFrom p = (.ok u, p') ∧ I p' ∧ u.ownParts = parts := by
  have hstay := ((t.parts_isDialogue (withLevels_isDialogue settings n)).run_steady hr hp hp).2
  have hall : ((t.parts (.withLevels settings r n)).runFrom p).1 = .ok parts := by
    rw [Token.parts, Eval.runFrom_bind]
    rcases hrun : (t.components (.withLevels settings r n)).runFrom p with ⟨x, p'⟩
    rw [hrun] at hparts
    obtain rfl : x = .ok (some parts) := hparts
    rfl
  rw [parts_eq_referent, Eval.runFrom_map] at hstay hall
  rcases hreferent : (referent settings r n t).runFrom p with ⟨e | u, p'⟩
  · rw [hreferent] at hall
    cases hall
  · rw [hreferent] at hstay hall
    exact ⟨u, p', rfl, hstay, Except.ok.inj hall⟩

/-- The outcome of an operand as a whole, its elements taken, is that of its components one after the other. -/
theorem outcome_value (hr : r.Steady I) (hp : I p) (hq : I q)
    (hparts : ((t.components (.withLevels settings r n)).runFrom p).1 = .ok (some parts))
    (hlist : ((referent settings r n t).runFrom p).1 ≠ .ok (references []))
    (hcount : ∀ u, ((referent settings r n t).runFrom p).1 = .ok u → u.Countable) :
    ((t.value (.withLevels settings r n)).runFrom q).1.map Value.elements =
      (parts.mapM fun part : Token => ((part.value (.withLevels settings r n)).runFrom p).1).map
        (List.flatMap Value.elements) := by
  have leaf : t.isLeaf := by
    cases t with
    | shared | operator | control | call => cases hparts
    | _ => rfl
  obtain ⟨u, p', hreferent, hp', rfl⟩ := exists_referent hr hp hparts
  have hu : u ≠ references [] := fun h => hlist (by rw [hreferent, h])
  have hvalue : (t.value (.withLevels settings r n)).runFrom p = (u.value (.withLevels settings r n)).runFrom p' := by
    rw [value_eq_referent n n leaf, Eval.runFrom_bind, hreferent]
  have hmapM := Eval.mapM_steady (fun u p' hp' => ⟨(value_steady hr u hp' hp).1, (value_steady hr u hp' hp').2⟩)
    u.ownParts (f := value (.withLevels settings r n)) hp'
  calc ((t.value (.withLevels settings r n)).runFrom q).1.map Value.elements
      = ((t.value (.withLevels settings r n)).runFrom p).1.map Value.elements := by rw [(value_steady hr t hq hp).1]
    _ = ((Value.elements <$> u.value (.withLevels settings r n)).runFrom p').1 := by rw [hvalue, Eval.runFrom_map]
    _ = ((flatValues (.withLevels settings r n) u.ownParts).runFrom p').1 := by
      rw [flatValues_ownParts (referent_isLeaf leaf hreferent).2 hu (hcount u (by rw [hreferent]))]
    _ = _ := by rw [flatValues, Eval.runFrom_map, hmapM]

end Token

/-- The first name stands for all others, and these for an area with its lower corner first, joined with the cell B1.  The
cells of the first row hold true, the others false.  The state counts the questions. -/
def Resolver.nameOfUnion : Resolver Nat where
  cell _ a := do
    modify (· + 1)
    return .boolean (a.row == 0)
  name id := do
    modify (· + 1)
    return if id = 1 then [.name 2] else
      [.area none (.relative 1 0) (.relative 0 0), .cell none (.relative 0 1), .operator .union]
  shared anchor := throw (.noSharedFormula anchor)

theorem Resolver.steady_nameOfUnion : nameOfUnion.Steady fun _ => True where
  same q s t _ _ := by cases q <;> rfl
  stays _ _ _ := trivial

private theorem Resolver.rows_blank (sheet : Option String) (range : CellRange) :
    (blank : Resolver σ).rows sheet range = pure (range.rows.map fun _ => range.cols.map fun _ => .empty) := by
  simp only [rows, blank, List.mapM_pure]

end Spreadsheet
