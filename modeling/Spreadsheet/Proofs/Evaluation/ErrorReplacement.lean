import Spreadsheet.Proofs.Evaluation.ResolvedResults

/-!
# Replacing errors

IFERROR looks at the value of its first operand.  There are three ways on: the operand fails
(`Logic.runFrom_ifError_of_error`), it is a table (`Logic.runFrom_ifError_of_array`), or a scalar
(`Logic.runFrom_ifError_of_scalar`).  In two of them an operand is given that is resolved a second time afterwards.  All
of them end without an error if the second operand is a scalar that is none (`Logic.errors_replaced`).
-/

namespace Spreadsheet

variable {σ : Type} {s : Scope σ} {p q : σ}

namespace Logic

/-! ### Entries -/

/-- Only what an entry becomes counts. -/
theorem mapIndexed_congr {f g : Value → Nat → Value} {v : Value} (h : ∀ x ∈ v.elements, ∀ i, f x i = g x i) :
    mapIndexed f v = mapIndexed g v := by
  refine congrArg (Value.ofElements · v.columns) (List.map_congr_left fun x hx => ?_)
  obtain ⟨x, i⟩ := x
  exact h x (List.fst_mem_of_mem_zipIdx hx) i

/-- Entries that are replaced without a look at their places. -/
theorem mapIndexed_eq_map (f : Value → Value) (v : Value) :
    mapIndexed (fun x _ => f x) v = .ofElements (v.elements.map f) v.columns := by
  refine congrArg (Value.ofElements · v.columns) ?_
  show v.elements.zipIdx.map (f ∘ Prod.fst) = _
  rw [← List.map_map, List.zipIdx_map_fst]

/-- A table or scalar with a replacement in the places of errors, and the same rows if these are equally long and not
empty. -/
structure Replaces (replacement v w : Value) : Prop where
  isArray_eq : w.isArray = v.isArray
  elements_eq : w.elements = v.elements.map fun x => if x.isError then replacement else x
  shape_eq : v.IsRectangular → w.shape = v.shape

variable {replacement v w : Value}

private theorem Replaces.isError_eq_false (h : Replaces replacement v w) (herror : replacement.isError = false) :
    ∀ x ∈ w.elements, x.isError = false := by
  intro x hx
  rw [h.elements_eq] at hx
  obtain ⟨y, -, rfl⟩ := List.mem_map.1 hx
  cases hy : y.isError with
  | true => simpa using herror
  | false => simpa using hy

private theorem Replaces.isFlat (h : Replaces replacement v w) (hscalar : replacement.isArray = false) (hv : v.IsFlat) :
    w.IsFlat := by
  intro x hx
  rw [h.elements_eq] at hx
  obtain ⟨y, hy, rfl⟩ := List.mem_map.1 hx
  split
  · exact hscalar
  · exact hv y hy

theorem pick_of_scalar (hv : v.isArray = false) (i : Nat) : pick v i = v := by
  cases v with
  | array rows => cases hv
  | _ => rfl

private theorem replaces_scalar (hscalar : replacement.isArray = false) (hv : v.isArray = false) :
    Replaces replacement v (if v.isError then replacement else v) := by
  have hw : (if v.isError then replacement else v).isArray = false := by
    split
    · exact hscalar
    · exact hv
  refine ⟨hw.trans hv.symm, ?_, fun _ => ?_⟩
  · rw [Value.elements_of_scalar hw, Value.elements_of_scalar hv, List.map_singleton]
  · rw [Value.shape_of_scalar hw, Value.shape_of_scalar hv]

private theorem replaces_table (hscalar : replacement.isArray = false) (hv : v.isArray = true) :
    Replaces replacement v (mapIndexed (replaceError replacement) v) := by
  have hentries : mapIndexed (replaceError replacement) v =
      .ofElements (v.elements.map fun x => if x.isError then replacement else x) v.columns := by
    rw [← mapIndexed_eq_map]
    exact mapIndexed_congr fun x _ i => by rw [replaceError, pick_of_scalar hscalar]
  rw [hentries]
  refine ⟨hv.symm, Value.elements_ofElements _ _, fun hrectangular => ?_⟩
  exact Value.shape_ofElements hv hrectangular (List.length_map ..)

/-! ### The three ways -/

variable {value fallback : Token}

theorem runFrom_ifError_of_error {e : FormulaError} (h : (value.value s).runFrom p = (.error e, q))
    (he : e.fault?.isSome) (fallback : Token) : (ifError s [value, fallback]).runFrom p = (.ok fallback, q) := by
  show ((value.value s).observe >>= fun r => _).runFrom p = _
  rw [Eval.runFrom_observe_bind, h]
  dsimp only
  rw [if_pos he]
  rfl

theorem runFrom_ifError_of_array (h : (value.value s).runFrom p = (.ok v, q)) (hv : v.isArray = true)
    (fallback : Token) : (ifError s [value, fallback]).runFrom p =
      ((fun w => Token.ofValue (mapIndexed (replaceError w) v)) <$> fallback.value s).runFrom q := by
  show ((value.value s).observe >>= fun r => _).runFrom p = _
  rw [Eval.runFrom_observe_bind, h]
  cases v with
  | array rows => rw [← bind_pure_comp]
  | _ => cases hv

theorem runFrom_ifError_of_scalar (h : (value.value s).runFrom p = (.ok v, q)) (hv : v.isArray = false)
    (fallback : Token) : (ifError s [value, fallback]).runFrom p = (.ok (if v.isError then fallback else value), q) := by
  show ((value.value s).observe >>= fun r => _).runFrom p = _
  rw [Eval.runFrom_observe_bind, h]
  cases v with
  | array rows => cases hv
  | _ => rfl

theorem resolved_ifError {t : Token} (h : (ifError s [value, fallback]).runFrom p = (.ok t, q)) :
    (Function.ifError.resolved s [value, fallback]).runFrom p = (t.value s).runFrom q :=
  Function.resolved_of_apply (f := .ifError) rfl h

/-! ### Results without errors -/

variable {settings : Settings} {r : Resolver σ} {n : Nat} {I : σ → Prop}

/-- The second operand has the same value when it is resolved after the first one. -/
theorem exists_replaces (hr : r.Steady I) (hp : I p)
    (hfallback : ((fallback.value (.withLevels settings r n)).runFrom p).1 = .ok replacement)
    (hscalar : replacement.isArray = false) (hvalue : (value.value (.withLevels settings r n)).runFrom p = (.ok v, q)) :
    ∃ w, ((Function.ifError.resolved (.withLevels settings r n) [value, fallback]).runFrom p).1 = .ok w ∧
      Replaces replacement v w := by
  have hq : I q := value.value_stays hr hp hvalue
  have hagain : ((fallback.value (.withLevels settings r n)).runFrom q).1 = .ok replacement :=
    (Token.value_steady hr fallback hq hp).1.trans hfallback
  cases hv : v.isArray with
  | false =>
    refine ⟨_, ?_, replaces_scalar hscalar hv⟩
    rw [resolved_ifError (runFrom_ifError_of_scalar hvalue hv fallback)]
    split
    · exact hagain
    · exact (Token.value_steady hr value hq hp).1.trans (congrArg Prod.fst hvalue)
  | true =>
    have hreplaces := replaces_table hscalar hv
    have hrun : ((ifError (.withLevels settings r n) [value, fallback]).runFrom p).1 =
        .ok (.ofValue (mapIndexed (replaceError replacement) v)) := by
      rw [runFrom_ifError_of_array hvalue hv, Eval.runFrom_map, hagain]
      rfl
    refine ⟨_, ?_, hreplaces⟩
    rw [resolved_ifError (Prod.ext hrun rfl),
      Token.value_ofValue (hreplaces.isFlat hscalar (Token.isFlat_of_runFrom_value hvalue))]
    rfl

/-- IFERROR with a scalar as a replacement, which is no error.  The resolved result has no error: it is the value of the
first operand with the replacement in the places of errors, or the replacement alone if the first operand fails. -/
theorem errors_replaced (hr : r.Steady I) (hp : I p)
    (hfallback : ((fallback.value (.withLevels settings r n)).runFrom p).1 = .ok replacement)
    (hscalar : replacement.isArray = false) (herror : replacement.isError = false)
    (hfault : ∀ e, ((value.value (.withLevels settings r n)).runFrom p).1 = .error e → e.fault?.isSome) :
    ∃ w, ((Function.ifError.resolved (.withLevels settings r n) [value, fallback]).runFrom p).1 = .ok w ∧
      (∀ x ∈ w.elements, x.isError = false) ∧
      (∀ v, ((value.value (.withLevels settings r n)).runFrom p).1 = .ok v → Replaces replacement v w) ∧
      ∀ e, ((value.value (.withLevels settings r n)).runFrom p).1 = .error e → w = replacement := by
  rcases hvalue : (value.value (.withLevels settings r n)).runFrom p with ⟨e | v, q⟩
  · have he : e.fault?.isSome := hfault e (congrArg Prod.fst hvalue)
    have hq : I q := value.value_stays hr hp hvalue
    refine ⟨replacement, ?_, ?_, nofun, fun _ _ => rfl⟩
    · rw [resolved_ifError (runFrom_ifError_of_error hvalue he fallback)]
      exact (Token.value_steady hr fallback hq hp).1.trans hfallback
    · rw [Value.elements_of_scalar hscalar]
      exact fun x hx => List.mem_singleton.1 hx ▸ herror
  · obtain ⟨w, hw, hreplaces⟩ := exists_replaces hr hp hfallback hscalar hvalue
    refine ⟨w, hw, hreplaces.isError_eq_false herror, fun v' h => ?_, nofun⟩
    obtain rfl : v = v' := Except.ok.inj h
    exact hreplaces

end Logic

/-- Cells on the diagonal hold an error, the others a text; every name stands for the area A1:B2.  The state counts the
questions. -/
def Resolver.errorsOnDiagonal : Resolver Nat where
  cell _ a := do
    modify (· + 1)
    return if a.row = a.col then .error .div0 else .text "here"
  name _ := do
    modify (· + 1)
    return [.area none (.relative 1 1) (.relative 0 0)]
  shared anchor := throw (.noSharedFormula anchor)

theorem Resolver.steady_errorsOnDiagonal : errorsOnDiagonal.Steady fun _ => True where
  same q s t _ _ := by cases q <;> rfl
  stays _ _ _ := trivial

/-- The errors in an area are replaced, and a formula that does not exist. -/
theorem Logic.errors_replaced_diagonal :
    let s := Scope.withLevels {} .errorsOnDiagonal 1
    (∃ w, ((Function.ifError.resolved s [.name 1, .text "none"]).runFrom 0).1 = .ok w ∧
      w.elements = [.text "none", .text "here", .text "here", .text "none"] ∧ w.shape = [2, 2]) ∧
    ((Function.ifError.resolved s [.shared (.relative 8 8), .text "none"]).runFrom 0).1 = .ok (.text "none") := by
  intro s
  have hsteady := Resolver.steady_errorsOnDiagonal
  have hfallback : ((Token.value s (.text "none")).runFrom 0).1 = .ok (.text "none") := rfl
  constructor
  · have hvalue : ((Token.value s (.name 1)).runFrom 0).1 =
        .ok (.array [[.error .div0, .text "here"], [.text "here", .error .div0]]) := rfl
    obtain ⟨w, hw, -, hreplaces, -⟩ := errors_replaced hsteady trivial hfallback rfl rfl fun e h => by
      rw [hvalue] at h
      cases h
    obtain ⟨-, helements, hshape⟩ := hreplaces _ hvalue
    exact ⟨w, hw, helements, hshape ⟨2, by decide, by decide⟩⟩
  · have hvalue : ((Token.value s (.shared (.relative 8 8))).runFrom 0).1 =
        .error (.noSharedFormula (.relative 8 8)) := rfl
    obtain ⟨w, hw, -, -, hfails⟩ := errors_replaced hsteady trivial hfallback rfl rfl fun e h => by
      rw [hvalue] at h
      cases h
      rfl
    rw [hw, hfails _ hvalue]

end Spreadsheet
