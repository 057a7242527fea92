import Spreadsheet.Proofs.Workbook.Outcomes

/-!
# Single updates of a session

A session changes by single updates: a cell is entered or left, a cut is noted or forgotten, an outcome is put into the
cache.  `Session.Update` lists them with the conditions under which they happen, and what these conditions keep up is
`Session.Valid` and `Session.CacheKept`.

The condition for the cache is the delicate one.  A cell that is asked for while it is in progress is circular, and
nothing is kept for it (`lookUp_spares`), so that the outcome of a formula is put where nothing was; and what a look-up
leaves in the cache for its cell is the outcome that it hands on (`lookUp_cached`), so that putting it there once more
changes nothing.
-/

namespace Spreadsheet

variable {wb : Workbook}

/-! ### Single updates -/

namespace Session

/-- The ways in which a session changes while it answers. -/
inductive Update (wb : Workbook) (s : Session) : Session → Prop
  | enter {l : Location} (hf : (wb.formula? l).isSome) (hp : l ∉ s.inProgress) (hn : s.inProgress.length < maxChain) :
      Update wb s (s.enter l)
  | leave (sheet : Nat) : Update wb s (s.leave sheet)
  | defer (l : Location) : Update wb s (s.defer l)
  | clear : Update wb s s.clear
  | keep {l : Location} (hf : (wb.formula? l).isSome) (hc : s.cache[l]? = none) (v : Scalar) :
      Update wb s (s.keep l v)
  /-- What is stored for a cell with a known outcome is this outcome. -/
  | store {l : Location} {r : Except FormulaError Scalar} (hf : (wb.formula? l).isSome)
      (hc : s.cache[l]? = none ∨ s.cache[l]? = some r) : Update wb s (s.store l r)

/-- Only formula cells are in progress, each of them once and not too many, and only their outcomes are cached. -/
structure Valid (wb : Workbook) (s : Session) : Prop where
  formulas : ∀ l ∈ s.inProgress, (wb.formula? l).isSome
  nodup : s.inProgress.Nodup
  length_le : s.inProgress.length ≤ maxChain
  cached : s.All fun l _ => (wb.formula? l).isSome

/-- What is cached in one session is cached in the other one too, and is the same. -/
def CacheKept (s t : Session) : Prop :=
  ∀ (l : Location) (r : Except FormulaError Scalar), s.cache[l]? = some r → t.cache[l]? = some r

variable {s t u : Session}

theorem valid_new (sheet : Nat) : (Session.new sheet).Valid wb where
  formulas := fun _ hl => absurd hl List.not_mem_nil
  nodup := List.nodup_nil
  length_le := Nat.zero_le _
  cached := all_new sheet

theorem Valid.store (h : s.Valid wb) {l : Location} (hf : (wb.formula? l).isSome) (r : Except FormulaError Scalar) :
    (s.store l r).Valid wb where
  formulas := h.formulas
  nodup := h.nodup
  length_le := h.length_le
  cached := h.cached.store hf

theorem CacheKept.store {l : Location} {r : Except FormulaError Scalar}
    (hc : s.cache[l]? = none ∨ s.cache[l]? = some r) : s.CacheKept (s.store l r) := by
  intro l' r' hr
  rw [Session.cache_store]
  split
  · subst l'
    rcases hc with hc | hc
    · exact absurd (hc.symm.trans hr) (by simp)
    · exact hc.symm.trans hr
  · exact hr

theorem CacheKept.refl (s : Session) : s.CacheKept s :=
  fun _ _ => id

theorem CacheKept.trans (h : s.CacheKept t) (h' : t.CacheKept u) : s.CacheKept u :=
  fun l r hr => h' l r (h l r hr)

namespace Update

theorem valid (h : Update wb s t) (hs : s.Valid wb) : t.Valid wb := by
  cases h with
  | @enter l hf hp hn =>
    refine ⟨fun l' hl' => ?_, List.nodup_cons.2 ⟨hp, hs.nodup⟩, hn, hs.cached⟩
    rcases List.mem_cons.1 hl' with rfl | hl'
    · exact hf
    · exact hs.formulas l' hl'
  | leave sheet =>
    have hlength : s.inProgress.tail.length ≤ s.inProgress.length := by rw [List.length_tail]; omega
    exact ⟨fun l hl => hs.formulas l (List.mem_of_mem_tail hl), hs.nodup.tail, hlength.trans hs.length_le, hs.cached⟩
  | defer l => exact ⟨hs.formulas, hs.nodup, hs.length_le, hs.cached⟩
  | clear => exact ⟨hs.formulas, hs.nodup, hs.length_le, hs.cached⟩
  | @keep l hf hc v =>
    unfold Session.keep
    split
    · exact hs.store hf _
    · exact hs
  | store hf hc => exact hs.store hf _

/-- No update changes or drops an outcome. -/
theorem cacheKept (h : Update wb s t) : s.CacheKept t := by
  cases h with
  | @keep l hf hc v =>
    unfold Session.keep
    split
    · exact .store (.inl hc)
    · exact .refl s
  | store hf hc => exact .store hc
  | _ => exact fun _ _ => id

end Update

end Session

/-! ### What is cached for a cell that is evaluated -/

namespace Session

/-- The same cells are in progress, and nothing is cached for those of them for which nothing was. -/
structure Spares (s t : Session) : Prop where
  inProgress : t.inProgress = s.inProgress
  uncached : ∀ p ∈ s.inProgress, s.cache[p]? = none → t.cache[p]? = none

namespace Spares

variable {s t u : Session}

theorem refl (s : Session) : s.Spares s :=
  ⟨rfl, fun _ _ => id⟩

theorem trans (h : s.Spares t) (h' : t.Spares u) : s.Spares u :=
  ⟨h'.inProgress.trans h.inProgress, fun p hp hc => h'.uncached p (h.inProgress ▸ hp) (h.uncached p hp hc)⟩

theorem conclude {l : Location} (hp : l ∉ s.inProgress) {x : Except FormulaError Scalar × Session}
    (h : (s.enter l).Spares x.2) : s.Spares (s.conclude l x).2 := by
  have hleave : s.Spares (x.2.leave s.currentSheet) := by
    refine ⟨?_, fun p hpm hc => h.uncached p (List.mem_cons_of_mem l hpm) hc⟩
    show x.2.inProgress.tail = s.inProgress
    rw [h.inProgress]
    rfl
  rcases x with ⟨e | v, t⟩
  · exact hleave
  · show s.Spares ((t.leave s.currentSheet).keep l v)
    unfold Session.keep
    split
    · refine ⟨hleave.inProgress, fun p hpm hc => ?_⟩
      have hne : l ≠ p := fun e => hp (e ▸ hpm)
      rw [Session.cache_store, if_neg hne]
      exact hleave.uncached p hpm hc
    · exact hleave

end Spares

/-- If nothing was cached for a cell, then what is cached for it when its evaluation ends is the outcome. -/
theorem conclude_cached (s : Session) {l : Location} {x : Except FormulaError Scalar × Session}
    (hc : x.2.cache[l]? = none) :
    (s.conclude l x).2.cache[l]? = none ∨
      (s.conclude l x).2.deferred = none ∧ (s.conclude l x).2.cache[l]? = some (s.conclude l x).1 := by
  rcases x with ⟨e | v, t⟩
  · exact .inl hc
  · dsimp only [conclude]
    cases ht : t.deferred with
    | some d =>
      rw [keep_of_cut (s := t.leave s.currentSheet) ht]
      exact .inl hc
    | none =>
      refine .inr ⟨(deferred_keep ..).trans ht, ?_⟩
      rw [keep_of_no_cut (s := t.leave s.currentSheet) ht, cache_store, if_pos rfl]

end Session

namespace Workbook

variable (wb) in
/-- The formula that a look-up of a cell has to evaluate: its outcome is not known, and it is not being evaluated. -/
def toEvaluate? (l : Location) (s : Session) : Option (List Token) :=
  if s.cache[l]? = none ∧ l ∉ s.inProgress then wb.formula? l else none

theorem toEvaluate?_eq_some {l : Location} {s : Session} {tokens : List Token} :
    wb.toEvaluate? l s = some tokens ↔ wb.formula? l = some tokens ∧ s.cache[l]? = none ∧ l ∉ s.inProgress := by
  unfold toEvaluate?
  split
  · rename_i h
    exact ⟨fun hf => ⟨hf, h⟩, fun h => h.1⟩
  · rename_i h
    exact ⟨fun hf => (by cases hf), fun h' => absurd h'.2 h⟩

/-- A look-up that has no formula to evaluate changes nothing. -/
theorem lookUp_snd_of_eq_none {l : Location} {s : Session} (h : wb.toEvaluate? l s = none) (n : Nat) :
    ((wb.lookUp n l).runFrom s).2 = s := by
  rw [lookUp_runFrom]
  cases hf : wb.formula? l with
  | none => rfl
  | some tokens =>
    cases hc : s.cache[l]? with
    | some r => rfl
    | none =>
      by_cases hp : l ∈ s.inProgress
      · simp only [hp, if_true]
      · have hsome := toEvaluate?_eq_some.2 ⟨hf, hc, hp⟩
        exact absurd (h.symm.trans hsome) (by simp)

theorem lookUp_zero_of_eq_some {l : Location} {s : Session} {tokens : List Token}
    (h : wb.toEvaluate? l s = some tokens) : (wb.lookUp 0 l).runFrom s = (.error (.code .value), s.defer l) := by
  obtain ⟨hf, hc, hp⟩ := toEvaluate?_eq_some.1 h
  rw [lookUp_runFrom, hf, hc]
  exact if_neg hp

theorem lookUp_succ_of_eq_some {l : Location} {s : Session} {tokens : List Token}
    (h : wb.toEvaluate? l s = some tokens) (n : Nat) :
    (wb.lookUp (n + 1) l).runFrom s = s.conclude l ((wb.evaluateWithin n tokens).runFrom (s.enter l)) := by
  obtain ⟨hf, hc, hp⟩ := toEvaluate?_eq_some.1 h
  rw [lookUp_runFrom, hf, hc]
  exact if_neg hp

variable (wb) in
private theorem evaluateWithin_spares {n : Nat} (h : ∀ l s, Session.Spares s ((wb.lookUp n l).runFrom s).2)
    (tokens : List Token) (s : Session) : s.Spares ((wb.evaluateWithin n tokens).runFrom s).2 := by
  refine (evaluateFormula_isDialogue wb.settings tokens).run_invariant .refl .trans (fun q t => ?_) s
  rcases wb.resolverWith_snd (wb.lookUp n) q t with e | ⟨l, e⟩
  · rw [e]
    exact .refl t
  · rw [e]
    exact h l t

variable (wb) in
/-- A cell that is asked for while it is in progress is circular, so that nothing is kept for it. -/
theorem lookUp_spares (n : Nat) (l : Location) (s : Session) : s.Spares ((wb.lookUp n l).runFrom s).2 := by
  induction n generalizing l s with
  | zero =>
    cases h : wb.toEvaluate? l s with
    | none =>
      rw [lookUp_snd_of_eq_none h]
      exact .refl s
    | some tokens =>
      rw [lookUp_zero_of_eq_some h]
      exact ⟨rfl, fun _ _ => id⟩
  | succ n ih =>
    cases h : wb.toEvaluate? l s with
    | none =>
      rw [lookUp_snd_of_eq_none h]
      exact .refl s
    | some tokens =>
      rw [lookUp_succ_of_eq_some h]
      exact .conclude (toEvaluate?_eq_some.1 h).2.2 (wb.evaluateWithin_spares ih tokens _)

variable (wb) in
/-- At the end of the evaluation of a formula its cell is uncached still. -/
theorem evaluateWithin_uncached (n : Nat) {l : Location} (tokens : List Token) {s : Session}
    (hc : s.cache[l]? = none) : ((wb.evaluateWithin n tokens).runFrom (s.enter l)).2.cache[l]? = none :=
  (wb.evaluateWithin_spares (wb.lookUp_spares n) tokens (s.enter l)).uncached l (List.mem_cons_self ..) hc

/-- What is cached for a formula cell after a look-up is its outcome, and nothing is cached for it after a cut. -/
theorem lookUp_cached {n : Nat} {l : Location} {s : Session} (hf : (wb.formula? l).isSome) (hd : s.deferred = none) :
    ((wb.lookUp n l).runFrom s).2.cache[l]? = none ∨
      ((wb.lookUp n l).runFrom s).2.deferred = none ∧
        ((wb.lookUp n l).runFrom s).2.cache[l]? = some ((wb.lookUp n l).runFrom s).1 := by
  obtain ⟨tokens, hf⟩ := Option.isSome_iff_exists.1 hf
  rw [lookUp_runFrom, hf]
  cases hc : s.cache[l]? with
  | some r => exact .inr ⟨hd, hc⟩
  | none =>
    by_cases hp : l ∈ s.inProgress
    · simp only [hp, if_true]
      exact .inl hc
    · simp only [hp, if_false]
      cases n with
      | zero => exact .inl hc
      | succ n => exact s.conclude_cached (wb.evaluateWithin_uncached n tokens hc)

end Workbook

end Spreadsheet
