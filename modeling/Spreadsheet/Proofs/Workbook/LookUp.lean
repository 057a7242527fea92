import Spreadsheet.Proofs.Evaluation.AnyResolver
import Spreadsheet.Workbook.Recalculation

/-!
# What one look-up does

`lookUp_runFrom` says once what looking up a cell can do: answer a cell without a formula, answer from the cache, find
the cell in progress, cut the chain, or evaluate the formula.  From it: a look-up gives back the cells in progress and
the current sheet, never changes a cached outcome, and after a cut changes nothing at all (`lookUp_evolves`).
-/

namespace Spreadsheet

/-- The value of a formula as a cell shows it is a dialogue with the resolver. -/
theorem evaluateFormula_isDialogue (settings : Settings) (tokens : List Token) :
    IsDialogue fun _ r => evaluateFormula settings r tokens := by
  refine (evaluateToken_isDialogue settings tokens).observe.bind fun x => ?_
  rcases x with e | t
  · exact .pure _
  · dsimp only
    split
    · exact .throw _
    · exact (t.value_isDialogue (scopeOf_isDialogue settings)).bind fun _ => .pure _

/-- The evaluation of a formula after its run: an error value if the run failed, and else the value of the operand that
is left. -/
theorem evaluateFormula_runFrom {σ : Type} (settings : Settings) (r : Resolver σ) (tokens : List Token) (s : σ) :
    (evaluateFormula settings r tokens).runFrom s =
      match ((evaluateToken (Scope.of settings r) tokens).runFrom s).1 with
      | .error _ => (.ok (.error .value), ((evaluateToken (Scope.of settings r) tokens).runFrom s).2)
      | .ok t =>
        if t.isCircular then (.error .circular, ((evaluateToken (Scope.of settings r) tokens).runFrom s).2) else
        ((fun v => v.corner.toScalar) <$> t.value (Scope.of settings r)).runFrom
          ((evaluateToken (Scope.of settings r) tokens).runFrom s).2 := by
  unfold evaluateFormula
  dsimp only
  rw [Eval.runFrom_observe_bind]
  cases ((evaluateToken (Scope.of settings r) tokens).runFrom s).1 with
  | error e => rfl
  | ok t =>
    dsimp only
    rw [bind_pure_comp]
    split <;> rfl

namespace Workbook

variable {σ : Type} (wb : Workbook)

/-! ### Cells with and without a formula -/

/-- The formula of a cell. -/
def formula? (l : Location) : Option (List Token) :=
  ((wb.sheet? l.sheet).bind (·.cell? l.position)).bind Cell.formula?

/-- What a cell without a formula is worth. -/
def stored (l : Location) : Except FormulaError Scalar :=
  match wb.sheet? l.sheet with
  | none => .error (.code .ref)
  | some sheet => .ok ((sheet.constant? l.position).getD .empty)

variable {wb}

theorem lookUpWith_of_formula {l : Location} {tokens : List Token} (h : wb.formula? l = some tokens)
    (formula : Location → List Token → Eval σ Scalar) : wb.lookUpWith formula l = formula l tokens := by
  unfold formula? at h
  unfold lookUpWith
  cases hs : wb.sheet? l.sheet with
  | none => simp [hs] at h
  | some sheet =>
    cases hc : sheet.cell? l.position with
    | none => simp [hs, hc] at h
    | some c =>
      cases c with
      | constant v => simp [hs, hc, Cell.formula?] at h
      | formula ts =>
        simp only [hs, hc, Option.bind_some, Cell.formula?, Option.some.injEq] at h
        simp only [hc, h]

theorem lookUpWith_of_stored {l : Location} (h : wb.formula? l = none)
    (formula : Location → List Token → Eval σ Scalar) : wb.lookUpWith formula l = Eval.ofExcept (wb.stored l) := by
  unfold formula? at h
  unfold lookUpWith stored
  cases hs : wb.sheet? l.sheet with
  | none => rfl
  | some sheet =>
    cases hc : sheet.cell? l.position with
    | none => simp only [hc, Sheet.constant?, Option.bind_none, Option.getD_none]; rfl
    | some c =>
      cases c with
      | constant v => simp only [hc, Sheet.constant?, Option.bind_some, Cell.constant?, Option.getD_some]; rfl
      | formula ts => simp [hs, hc, Cell.formula?] at h

/-- A cell with a formula is on a sheet. -/
theorem isSome_sheet?_of_formula? {l : Location} (h : (wb.formula? l).isSome) : (wb.sheet? l.sheet).isSome := by
  cases hs : wb.sheet? l.sheet with
  | none =>
    rw [formula?, hs] at h
    cases h
  | some sheet => rfl

theorem mem_formulas {sheet : Sheet} {p : Position} {tokens : List Token} :
    (p, tokens) ∈ sheet.formulas ↔ (sheet.cell? p).bind Cell.formula? = some tokens := by
  unfold Sheet.formulas
  rw [List.mem_filterMap, Option.bind_eq_some_iff]
  constructor
  · rintro ⟨⟨q, c⟩, hc, h⟩
    obtain ⟨ts, hts, h⟩ := Option.map_eq_some_iff.1 h
    obtain ⟨rfl, rfl⟩ := Prod.mk.inj h
    exact ⟨c, Std.TreeMap.mem_toList_iff_getElem?_eq_some.1 hc, hts⟩
  · rintro ⟨c, hc, h⟩
    exact ⟨(p, c), Std.TreeMap.mem_toList_iff_getElem?_eq_some.2 hc, Option.map_eq_some_iff.2 ⟨tokens, h, rfl⟩⟩

theorem mem_formulaLocations {l : Location} : l ∈ wb.formulaLocations ↔ (wb.formula? l).isSome := by
  unfold formulaLocations formula? Workbook.sheet?
  rw [List.mem_flatMap]
  constructor
  · rintro ⟨⟨sheet, i⟩, hs, h⟩
    obtain ⟨⟨p, tokens⟩, hp, rfl⟩ := List.mem_map.1 h
    rw [List.mem_zipIdx_iff_getElem?.1 hs, Option.bind_some, mem_formulas.1 hp]
    rfl
  · intro h
    obtain ⟨tokens, h⟩ := Option.isSome_iff_exists.1 h
    obtain ⟨c, hc, hc'⟩ := Option.bind_eq_some_iff.1 h
    obtain ⟨sheet, hs, hp⟩ := Option.bind_eq_some_iff.1 hc
    have hm : (l.position, tokens) ∈ sheet.formulas := mem_formulas.2 (by rw [hp]; exact hc')
    exact ⟨(sheet, l.sheet), List.mem_zipIdx_iff_getElem?.2 hs, List.mem_map.2 ⟨_, hm, rfl⟩⟩

end Workbook

/-! ### Answers from a workbook -/

namespace Workbook

variable {σ : Type} (wb : Workbook)

/-- The definition of a name. -/
def nameTokens (id : Nat) : Except FormulaError (List Token) :=
  match wb.definedName? id with
  | some n => .ok n.tokens
  | none => .error (.unknownName id)

/-- The formula shared from a cell on, for a formula on a sheet. -/
def sharedTokens (i : Nat) (anchor : CellAddress) : Except FormulaError (List Token) :=
  match (wb.sheet? i).bind (·.shared? anchor.position) with
  | some tokens => .ok tokens
  | none => .error (.noSharedFormula anchor)

variable {wb} {current : Eval σ Nat} {lookUp : Location → Eval σ Scalar} {s : σ} {i : Nat}

theorem resolverOn_cell (h : current.runFrom s = (.ok i, s)) (sheet : Option String) (a : CellAddress) :
    ((wb.resolverOn current lookUp).answer (.cell sheet a)).runFrom s =
      match wb.findSheet i sheet with
      | .ok j => (lookUp ⟨j, a.position⟩).runFrom s
      | .error e => (.error e, s) := by
  show (current >>= fun i => Eval.ofExcept (wb.findSheet i sheet) >>= fun j => lookUp ⟨j, a.position⟩).runFrom s = _
  rw [Eval.runFrom_bind, h]
  dsimp only
  rw [Eval.ofExcept_bind]
  cases wb.findSheet i sheet with
  | ok j => rfl
  | error e => rfl

theorem resolverOn_name (id : Nat) :
    ((wb.resolverOn current lookUp).answer (.name id)).runFrom s = (wb.nameTokens id, s) := by
  unfold nameTokens
  show (match wb.definedName? id with | some n => _ | none => _ : Eval σ (List Token)).runFrom s = _
  cases wb.definedName? id with
  | some n => rfl
  | none => rfl

theorem resolverOn_shared (h : current.runFrom s = (.ok i, s)) (anchor : CellAddress) :
    ((wb.resolverOn current lookUp).answer (.shared anchor)).runFrom s = (wb.sharedTokens i anchor, s) := by
  unfold sharedTokens
  show (current >>= fun i => match (wb.sheet? i).bind (·.shared? anchor.position) with
    | some tokens => pure tokens
    | none => throw (.noSharedFormula anchor) : Eval σ (List Token)).runFrom s = _
  rw [Eval.runFrom_bind, h]
  dsimp only
  cases (wb.sheet? i).bind (·.shared? anchor.position) with
  | some tokens => rfl
  | none => rfl

end Workbook

/-! ### One look-up -/

namespace Session

theorem cache_store (s : Session) (l l' : Location) (r : Except FormulaError Scalar) :
    (s.store l r).cache[l']? = if l = l' then some r else s.cache[l']? := by
  rw [store, Std.TreeMap.getElem?_insert]
  simp only [Std.LawfulEqCmp.compare_eq_iff_eq]

theorem uncached_of_store {s : Session} {l l' : Location} {r : Except FormulaError Scalar}
    (h : (s.store l r).cache[l']? = none) : l' ≠ l ∧ s.cache[l']? = none := by
  rw [cache_store] at h
  split at h
  · cases h
  · exact ⟨fun he => ‹¬ l = l'› he.symm, h⟩

/-- End the evaluation of a cell that was begun in `s`, and keep its value if it has one. -/
def conclude (s : Session) (l : Location) : Except FormulaError Scalar × Session → Except FormulaError Scalar × Session
  | (.ok v, t) => (.ok v, (t.leave s.currentSheet).keep l v)
  | (.error e, t) => (.error e, t.leave s.currentSheet)

theorem keep_of_cut {s : Session} {d : Location} (h : s.deferred = some d) (l : Location) (v : Scalar) :
    s.keep l v = s := by
  simp [keep, h]

theorem keep_of_no_cut {s : Session} (h : s.deferred = none) (l : Location) (v : Scalar) :
    s.keep l v = s.store l (.ok v) := by
  simp [keep, h]

theorem deferred_keep (s : Session) (l : Location) (v : Scalar) : (s.keep l v).deferred = s.deferred := by
  unfold keep
  split <;> rfl

theorem conclude_fst (s : Session) (l : Location) (x : Except FormulaError Scalar × Session) :
    (s.conclude l x).1 = x.1 := by
  rcases x with ⟨_ | _, _⟩ <;> rfl

theorem deferred_conclude (s : Session) (l : Location) (x : Except FormulaError Scalar × Session) :
    (s.conclude l x).2.deferred = x.2.deferred := by
  rcases x with ⟨_ | v, t⟩
  · rfl
  · exact deferred_keep _ l v

end Session

private theorem lookUpFormula_runFrom (evaluate : Option (List Token → Eval Session Scalar)) (l : Location)
    (tokens : List Token) (s : Session) :
    (lookUpFormula evaluate l tokens).runFrom s =
      match s.cache[l]? with
      | some r => (r, s)
      | none =>
        if l ∈ s.inProgress then (.error .circular, s) else
        match evaluate with
        | none => (.error (.code .value), s.defer l)
        | some evaluate => s.conclude l ((evaluate tokens).runFrom (s.enter l)) := by
  unfold lookUpFormula
  rw [Eval.runFrom_get_bind]
  cases s.cache[l]? with
  | some r => exact Eval.runFrom_ofExcept r s
  | none =>
    by_cases hl : l ∈ s.inProgress
    · simp only [List.contains_iff_mem, hl, if_true]
      rfl
    · simp only [List.contains_iff_mem, hl, if_false]
      cases evaluate with
      | none => rfl
      | some evaluate =>
        simp only [Eval.runFrom_set_bind, Eval.runFrom_observe_bind, Eval.runFrom_modify_bind]
        rcases (evaluate tokens).runFrom (s.enter l) with ⟨_ | _, _⟩ <;> rfl

namespace Workbook

variable (wb : Workbook)

/-- How a formula is evaluated inside a session when `n` more formula cells may be evaluated inside its own cell. -/
def evaluateWithin (n : Nat) (tokens : List Token) : Eval Session Scalar :=
  evaluateFormula wb.settings (wb.resolverWith (wb.lookUp n)) tokens

/-- All that a look-up can do. -/
theorem lookUp_runFrom (n : Nat) (l : Location) (s : Session) :
    (wb.lookUp n l).runFrom s =
      match wb.formula? l with
      | none => (wb.stored l, s)
      | some tokens =>
        match s.cache[l]? with
        | some r => (r, s)
        | none =>
          if l ∈ s.inProgress then (.error .circular, s) else
          match n with
          | 0 => (.error (.code .value), s.defer l)
          | n + 1 => s.conclude l ((wb.evaluateWithin n tokens).runFrom (s.enter l)) := by
  cases h : wb.formula? l with
  | none =>
    cases n with
    | zero => rw [lookUp, lookUpWith_of_stored h, Eval.runFrom_ofExcept]
    | succ n => rw [lookUp, lookUpWith_of_stored h, Eval.runFrom_ofExcept]
  | some tokens =>
    cases n with
    | zero => rw [lookUp, lookUpWith_of_formula h, lookUpFormula_runFrom]
    | succ n => rw [lookUp, lookUpWith_of_formula h, lookUpFormula_runFrom]; rfl

end Workbook

/-! ### What look-ups keep -/

/-- What look-ups one after the other can do to a session. -/
structure Session.Evolves (wb : Workbook) (s t : Session) : Prop where
  inProgress : t.inProgress = s.inProgress
  currentSheet : t.currentSheet = s.currentSheet
  cache : ∀ {l : Location} {r}, s.cache[l]? = some r → t.cache[l]? = some r
  /-- Nothing happens any more after a cut. -/
  frozen : s.deferred ≠ none → t = s
  /-- The cell behind a cut has a formula and no known value. -/
  deferred : s.deferred = none → ∀ {d}, t.deferred = some d → (wb.formula? d).isSome ∧ t.cache[d]? = none

namespace Session.Evolves

variable {wb : Workbook} {s t u : Session}

/-- What is not cached afterwards was not cached before. -/
theorem uncached (h : s.Evolves wb t) {l : Location} (ht : t.cache[l]? = none) : s.cache[l]? = none := by
  cases hr : s.cache[l]? with
  | none => rfl
  | some r => exact absurd (ht.symm.trans (h.cache hr)) (by simp)

theorem refl (s : Session) : s.Evolves wb s :=
  ⟨rfl, rfl, id, fun _ => rfl, fun h d hd => absurd (h.symm.trans hd) (by simp)⟩

theorem trans (h : s.Evolves wb t) (h' : t.Evolves wb u) : s.Evolves wb u := by
  refine ⟨h'.inProgress.trans h.inProgress, h'.currentSheet.trans h.currentSheet, fun hc => h'.cache (h.cache hc),
    ?_, ?_⟩
  · intro hd
    have e := h.frozen hd
    rw [h'.frozen (by rw [e]; exact hd), e]
  · intro hd d hu
    by_cases ht : t.deferred = none
    · exact h'.deferred ht hu
    · have e := h'.frozen ht
      rw [e] at hu ⊢
      exact h.deferred hd hu

theorem defer {l : Location} (hl : (wb.formula? l).isSome) (hc : s.cache[l]? = none) : s.Evolves wb (s.defer l) := by
  refine ⟨rfl, rfl, id, ?_, ?_⟩
  · intro hd
    obtain ⟨d, hd⟩ := Option.ne_none_iff_exists'.1 hd
    unfold Session.defer
    rw [hd]
    cases s
    simp_all
  · intro hd d h
    have e : (s.defer l).deferred = some l := by
      unfold Session.defer
      rw [hd]
      rfl
    obtain rfl := Option.some.inj (e.symm.trans h)
    exact ⟨hl, hc⟩

theorem leave {l : Location} (h : (s.enter l).Evolves wb t) : s.Evolves wb (t.leave s.currentSheet) := by
  refine ⟨?_, rfl, fun hc => h.cache hc, ?_, fun hd => h.deferred hd⟩
  · show t.inProgress.tail = s.inProgress
    rw [h.inProgress]
    rfl
  · intro hd
    rw [h.frozen hd]
    rfl

/-- A value is only kept where there was none before, and not after a cut. -/
theorem keep {l : Location} (hc : s.cache[l]? = none) (v : Scalar) (h : s.Evolves wb t) :
    s.Evolves wb (t.keep l v) := by
  cases ht : t.deferred with
  | some d =>
    rw [Session.keep_of_cut ht]
    exact h
  | none =>
    rw [Session.keep_of_no_cut ht]
    refine ⟨h.inProgress, h.currentSheet, ?_, ?_, ?_⟩
    · intro l' r hr
      have hne : l ≠ l' := by
        rintro rfl
        rw [hc] at hr
        cases hr
      rw [Session.cache_store, if_neg hne]
      exact h.cache hr
    · intro hd
      rw [h.frozen hd] at ht
      exact absurd ht hd
    · intro _ d hd
      exact absurd (ht.symm.trans hd) (by simp)

theorem conclude {l : Location} (hc : s.cache[l]? = none) {x : Except FormulaError Scalar × Session}
    (h : (s.enter l).Evolves wb x.2) : s.Evolves wb (s.conclude l x).2 := by
  rcases x with ⟨e | v, t⟩
  · exact h.leave
  · exact h.leave.keep hc v

end Session.Evolves

namespace Workbook

variable (wb : Workbook)

private theorem runFrom_currentSheet (s : Session) :
    (return (← get).currentSheet : Eval Session Nat).runFrom s = (.ok s.currentSheet, s) := rfl

theorem resolverWith_cell (lookUp : Location → Eval Session Scalar) (sheet : Option String) (a : CellAddress)
    (s : Session) : ((wb.resolverWith lookUp).answer (.cell sheet a)).runFrom s =
      match wb.findSheet s.currentSheet sheet with
      | .ok j => (lookUp ⟨j, a.position⟩).runFrom s
      | .error e => (.error e, s) := by
  unfold resolverWith
  rw [resolverOn_cell (runFrom_currentSheet s)]

theorem resolverWith_name (lookUp : Location → Eval Session Scalar) (id : Nat) (s : Session) :
    ((wb.resolverWith lookUp).answer (.name id)).runFrom s = (wb.nameTokens id, s) :=
  resolverOn_name id

theorem resolverWith_shared (lookUp : Location → Eval Session Scalar) (anchor : CellAddress) (s : Session) :
    ((wb.resolverWith lookUp).answer (.shared anchor)).runFrom s = (wb.sharedTokens s.currentSheet anchor, s) := by
  unfold resolverWith
  rw [resolverOn_shared (runFrom_currentSheet s)]

/-- An answer leaves the session as it was, or as looking up one cell leaves it. -/
theorem resolverWith_snd (lookUp : Location → Eval Session Scalar) (q : Question) (s : Session) :
    (((wb.resolverWith lookUp).answer q).runFrom s).2 = s ∨
      ∃ l, (((wb.resolverWith lookUp).answer q).runFrom s).2 = ((lookUp l).runFrom s).2 := by
  cases q with
  | cell sheet a =>
    rw [resolverWith_cell]
    cases wb.findSheet s.currentSheet sheet with
    | error e => exact .inl rfl
    | ok i => exact .inr ⟨_, rfl⟩
  | name id =>
    rw [resolverWith_name]
    exact .inl rfl
  | shared anchor =>
    rw [resolverWith_shared]
    exact .inl rfl

theorem resolverWith_evolves {lookUp : Location → Eval Session Scalar}
    (h : ∀ l s, Session.Evolves wb s ((lookUp l).runFrom s).2) (q : Question) (s : Session) :
    s.Evolves wb (((wb.resolverWith lookUp).answer q).runFrom s).2 := by
  rcases wb.resolverWith_snd lookUp q s with e | ⟨l, e⟩
  · rw [e]
    exact .refl s
  · rw [e]
    exact h l s

/-- A look-up gives the session back as it was, but for what it adds to the cache and a cut that it notes. -/
theorem lookUp_evolves (n : Nat) (l : Location) (s : Session) : s.Evolves wb ((wb.lookUp n l).runFrom s).2 := by
  induction n using Nat.strongRecOn generalizing l s with
  | _ n ih =>
    rw [lookUp_runFrom]
    cases hl : wb.formula? l with
    | none => exact .refl s
    | some tokens =>
      cases hc : s.cache[l]? with
      | some r => exact .refl s
      | none =>
        by_cases hp : l ∈ s.inProgress
        · simp only [hp, if_true]
          exact .refl s
        · simp only [hp, if_false]
          cases n with
          | zero => exact .defer (by rw [hl]; rfl) hc
          | succ n =>
            -- The formula only asks for cells, and asking for one cell is a look-up with one cell less to go.
            refine .conclude hc ((evaluateFormula_isDialogue wb.settings tokens).run_invariant .refl .trans ?_ _)
            exact wb.resolverWith_evolves (ih n (Nat.lt_succ_self n))

end Workbook

end Spreadsheet
