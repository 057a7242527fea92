import Spreadsheet.Proofs.Evaluation.Paths
import Spreadsheet.Proofs.Workbook.Updates

/-!
# The states of a session

The states that a session passes while it answers requests, written down beside the computation: `lookUpMoments` for the
look-up of a cell, `settleMoments` for the rounds in which a cell is settled, and `moments` for requests one after the
other.  They are a path of single updates from the first state to the last one.  So what every update preserves holds at
every moment, also in the middle of a request and when a request fails (`moments_valid`).
-/

namespace Spreadsheet

variable {wb : Workbook}

namespace Workbook

/-! ### The moments of a look-up -/

variable (wb) in
/-- The states passed while a question is answered, if `moments` are those of looking up a cell. -/
def questionMoments (moments : Location → Session → List Session) : Question → Session → List Session
  | .cell sheet a, s =>
    match wb.findSheet s.currentSheet sheet with
    | .ok i => moments ⟨i, a.position⟩ s
    | .error _ => []
  | .name _, _ | .shared _, _ => []

/-- The states passed when the evaluation of a cell that was begun in `s` comes to its end. -/
def concludeMoments (s : Session) (l : Location) : Except FormulaError Scalar × Session → List Session
  | (.ok v, t) => [t.leave s.currentSheet, (t.leave s.currentSheet).keep l v]
  | (.error _, t) => [t.leave s.currentSheet]

variable (wb) in
/-- The states passed while a cell is looked up. -/
def lookUpMoments : Nat → Location → Session → List Session
  | 0, l, s =>
    match wb.toEvaluate? l s with
    | none => []
    | some _ => [s.defer l]
  | n + 1, l, s =>
    match wb.toEvaluate? l s with
    | none => []
    | some tokens =>
      let r := (wb.resolverWith (wb.lookUp n)).noting (wb.questionMoments (lookUpMoments n))
      let x := (evaluateFormula wb.settings r tokens).runFrom (s.enter l, [])
      s.enter l :: x.2.2 ++ concludeMoments s l (x.1, x.2.1)

variable (wb) in
private theorem questionMoments_path {R : Session → Session → Prop} {lookUp : Location → Eval Session Scalar}
    {moments : Location → Session → List Session} {P : Session → Prop}
    (h : ∀ l s, P s → Path R s (moments l s) ((lookUp l).runFrom s).2 ∧ P ((lookUp l).runFrom s).2) (q : Question)
    (s : Session) (hs : P s) :
    Path R s (wb.questionMoments moments q s) (((wb.resolverWith lookUp).answer q).runFrom s).2 ∧
      P (((wb.resolverWith lookUp).answer q).runFrom s).2 := by
  cases q with
  | name id =>
    rw [resolverWith_name]
    exact ⟨.nil s, hs⟩
  | shared anchor =>
    rw [resolverWith_shared]
    exact ⟨.nil s, hs⟩
  | cell sheet a =>
    rw [resolverWith_cell, questionMoments]
    cases wb.findSheet s.currentSheet sheet with
    | error e => exact ⟨.nil s, hs⟩
    | ok i => exact h _ s hs

private theorem concludeMoments_path {s : Session} {l : Location} {x : Except FormulaError Scalar × Session}
    (hf : (wb.formula? l).isSome) (hc : x.2.cache[l]? = none) :
    Path (Session.Update wb) x.2 (concludeMoments s l x) (s.conclude l x).2 := by
  rcases x with ⟨e | v, t⟩
  · exact .single (.leave _)
  · exact .cons (.leave _) (.single (.keep (s := t.leave s.currentSheet) hf hc v))

variable (wb) in
/-- A look-up passes from one state to the next by updates.  The number of cells in progress and the number of those
that may still be entered add up to the limit. -/
theorem lookUp_path (n : Nat) (l : Location) (s : Session) (hn : s.inProgress.length + n = maxChain) :
    Path (Session.Update wb) s (wb.lookUpMoments n l s) ((wb.lookUp n l).runFrom s).2 := by
  induction n generalizing l s with
  | zero =>
    rw [lookUpMoments]
    cases h : wb.toEvaluate? l s with
    | none =>
      rw [lookUp_snd_of_eq_none h]
      exact .nil s
    | some tokens =>
      rw [lookUp_zero_of_eq_some h]
      exact .single (.defer l)
  | succ n ih =>
    rw [lookUpMoments]
    cases h : wb.toEvaluate? l s with
    | none =>
      rw [lookUp_snd_of_eq_none h]
      exact .nil s
    | some tokens =>
      obtain ⟨hf, hc, hp⟩ := toEvaluate?_eq_some.1 h
      have hl : (wb.formula? l).isSome := by rw [hf]; rfl
      have hdialogue := evaluateFormula_isDialogue wb.settings tokens
      -- While the formula is evaluated, one more cell is in progress and one less may be entered.
      have hlookUp : ∀ l' t, t.inProgress.length + n = maxChain →
          Path (Session.Update wb) t (wb.lookUpMoments n l' t) ((wb.lookUp n l').runFrom t).2 ∧
            ((wb.lookUp n l').runFrom t).2.inProgress.length + n = maxChain := by
        intro l' t ht
        have he := wb.lookUp_evolves n l' t
        exact ⟨ih l' t ht, by rw [he.inProgress]; exact ht⟩
      have hentered : (s.enter l).inProgress.length + n = maxChain := by
        show s.inProgress.length + 1 + n = maxChain
        omega
      have hpath := (hdialogue.path (wb.questionMoments_path hlookUp) hentered).1
      obtain ⟨hr, ht⟩ := hdialogue.runFrom_noting (wb.resolverWith (wb.lookUp n))
        (wb.questionMoments (wb.lookUpMoments n)) (s.enter l, [])
      have hend := concludeMoments_path (s := s) hl (wb.evaluateWithin_uncached n tokens hc)
      rw [lookUp_succ_of_eq_some h]
      dsimp only
      rw [hr, ht]
      exact .cons (.enter hl hp (by omega)) (hpath.append hend)

/-! ### The moments of settling a cell -/

variable (wb) in
/-- The states passed while a cell is settled: those of an attempt, the one in which its cut is forgotten, and that in
which the next round begins. -/
def settleMoments : Nat → Location → List Location → Session → List Session
  | 0, _, _, _ => []
  | fuel + 1, l, waiting, s =>
    wb.lookUpMoments maxChain l s ++ ((wb.lookUp maxChain l).runFrom s).2.clear ::
      match wb.round l waiting s with
      | .again l' waiting' s' => s' :: settleMoments fuel l' waiting' s'
      | .settled _ _ => []

/-- A round goes on from the state in which the cut is forgotten, by an update, and the cells that still wait for
another one have formulas. -/
theorem round_update {l l' : Location} {waiting waiting' : List Location} {s s' : Session} (hs : s.Idle)
    (hf : ∀ c ∈ (l :: waiting).dropLast, (wb.formula? c).isSome) (h : wb.round l waiting s = .again l' waiting' s') :
    Session.Update wb ((wb.lookUp maxChain l).runFrom s).2.clear s' ∧ s'.Idle ∧ s'.currentSheet = s.currentSheet ∧
      ∀ c ∈ (l' :: waiting').dropLast, (wb.formula? c).isSome := by
  have he := wb.lookUp_evolves maxChain l s
  have hi := he.idle_clear hs
  rcases wb.round_cases l waiting s with ⟨d, hd, -, e⟩ | ⟨r, e, hr⟩
  · rw [e] at h
    cases h
    refine ⟨.clear, hi, he.currentSheet, fun c hc => ?_⟩
    rw [List.dropLast_cons_cons] at hc
    rcases List.mem_cons.1 hc with rfl | hc
    · exact (he.deferred hs.deferred hd).1
    · exact hf c hc
  · rw [e] at h
    cases waiting with
    | nil => cases h
    | cons next waiting =>
      cases h
      rw [List.dropLast_cons_cons] at hf
      have hl := hf l (List.mem_cons_self ..)
      refine ⟨.store hl ?_, ⟨hi.inProgress, hi.deferred⟩, he.currentSheet, fun c hc => hf c (List.mem_cons_of_mem l hc)⟩
      rcases lookUp_cached hl hs.deferred with hc | ⟨hn, hc⟩
      · exact .inl hc
      · -- A known outcome is the one that is handed on, because a cut leaves none behind.
        rcases hr with ⟨-, rfl⟩ | ⟨d, -, hd, -⟩
        · exact .inr hc
        · exact absurd (hn.symm.trans hd) (by simp)

private theorem round_settled {l : Location} {waiting : List Location} {s s' : Session} {r : Except FormulaError Scalar}
    (h : wb.round l waiting s = .settled r s') : s' = ((wb.lookUp maxChain l).runFrom s).2.clear := by
  rcases wb.round_cases l waiting s with ⟨d, hd, -, e⟩ | ⟨r', e, -⟩
  · rw [e] at h
    cases h
  · rw [e] at h
    cases waiting with
    | nil =>
      cases h
      rfl
    | cons next waiting => cases h

variable (wb) in
/-- Settling a cell passes from one state to the next by updates, and gives the session back idle and on its sheet. -/
theorem settle_path (fuel : Nat) (l : Location) (waiting : List Location) (s : Session) (hs : s.Idle)
    (hf : ∀ c ∈ (l :: waiting).dropLast, (wb.formula? c).isSome) :
    Path (Session.Update wb) s (wb.settleMoments fuel l waiting s) ((wb.settle fuel l waiting).runFrom s).2 ∧
      ((wb.settle fuel l waiting).runFrom s).2.Idle ∧
      ((wb.settle fuel l waiting).runFrom s).2.currentSheet = s.currentSheet := by
  induction fuel generalizing l waiting s with
  | zero =>
    rw [settle, Eval.runFrom_throw]
    exact ⟨.nil s, hs, rfl⟩
  | succ fuel ih =>
    have hpath := wb.lookUp_path maxChain l s (by rw [hs.inProgress]; rfl)
    have he := wb.lookUp_evolves maxChain l s
    rw [settle_runFrom, settleMoments]
    cases h : wb.round l waiting s with
    | again l' waiting' s' =>
      obtain ⟨hu, hs', hsheet, hf'⟩ := round_update hs hf h
      obtain ⟨hpath', hidle, hsheet'⟩ := ih l' waiting' s' hs' hf'
      exact ⟨hpath.append (.cons .clear (.cons hu hpath')), hidle, hsheet'.trans hsheet⟩
    | settled r s' =>
      obtain rfl := round_settled h
      exact ⟨hpath.append (.single .clear), he.idle_clear hs, he.currentSheet⟩

variable (wb) in
/-- A question gives the session back idle and on its sheet. -/
theorem resolver_idle (q : Question) {s : Session} (hs : s.Idle) :
    ((wb.resolver.answer q).runFrom s).2.Idle ∧ ((wb.resolver.answer q).runFrom s).2.currentSheet = s.currentSheet := by
  rcases wb.resolverWith_snd (fun l => wb.settle wb.attempts l []) q s with e | ⟨l, e⟩
  · rw [show ((wb.resolver.answer q).runFrom s).2 = s from e]
    exact ⟨hs, rfl⟩
  · rw [show ((wb.resolver.answer q).runFrom s).2 = _ from e]
    exact (wb.settle_path wb.attempts l [] s hs fun c hc => absurd hc List.not_mem_nil).2

end Workbook

/-! ### Requests -/

/-- What can be asked of a session from outside. -/
inductive Request where
  | value (l : Location)
  | evaluate (tokens : List Token)
  | cell (sheet : Option String) (a : CellAddress)
  | range (sheet : Option String) (area : CellRange)
  | name (id : Nat)
  | shared (anchor : CellAddress)

/-- Make a request and forget the answer, given how the value of a cell is found and who answers questions. -/
def Request.run {σ : Type} (settings : Settings) (value : Location → Eval σ Scalar) (r : Resolver σ) :
    Request → Eval σ Unit
  | .value l => (fun _ => ()) <$> value l
  | .evaluate tokens => (fun _ => ()) <$> evaluateValue (Scope.of settings r) tokens
  | .cell sheet a => (fun _ => ()) <$> r.cell sheet a
  | .range sheet area => (fun _ => ()) <$> r.rows sheet area
  | .name id => (fun _ => ()) <$> r.name id
  | .shared anchor => (fun _ => ()) <$> r.shared anchor

namespace Workbook

variable (wb)

/-- The session after a request, whether it fails or not. -/
def afterRequest (q : Request) (s : Session) : Session :=
  ((q.run wb.settings wb.cellValue wb.resolver).runFrom s).2

/-- The states passed while the value of a cell is found. -/
def cellMoments (l : Location) (s : Session) : List Session :=
  wb.settleMoments wb.attempts l [] s

/-- The states passed during a request. -/
def requestMoments (q : Request) (s : Session) : List Session :=
  ((q.run wb.settings (fun l => (wb.cellValue l).noting (wb.cellMoments l))
    (wb.resolver.noting (wb.questionMoments wb.cellMoments))).runFrom (s, [])).2.2

/-- The session after requests one after the other. -/
def after (requests : List Request) (s : Session) : Session :=
  requests.foldl (fun s q => wb.afterRequest q s) s

/-- The states passed during requests one after the other. -/
def moments : List Request → Session → List Session
  | [], _ => []
  | q :: requests, s => wb.requestMoments q s ++ moments requests (wb.afterRequest q s)

/-- A request passes from one state to the next by updates, and gives the session back idle and on its sheet. -/
theorem requestMoments_path (q : Request) {s : Session} (hs : s.Idle) :
    Path (Session.Update wb) s (wb.requestMoments q s) (wb.afterRequest q s) ∧
      (wb.afterRequest q s).Idle ∧ (wb.afterRequest q s).currentSheet = s.currentSheet := by
  have hcell : ∀ l t, t.Idle ∧ t.currentSheet = s.currentSheet →
      Path (Session.Update wb) t (wb.cellMoments l t) ((wb.cellValue l).runFrom t).2 ∧
        ((wb.cellValue l).runFrom t).2.Idle ∧ ((wb.cellValue l).runFrom t).2.currentSheet = s.currentSheet := by
    rintro l t ⟨hi, hsheet⟩
    obtain ⟨hpath, hi', hsheet'⟩ := wb.settle_path wb.attempts l [] t hi fun c hc => absurd hc List.not_mem_nil
    exact ⟨hpath, hi', hsheet'.trans hsheet⟩
  have hdialogue : ∀ {F : ∀ σ : Type, Resolver σ → Eval σ Unit}, IsDialogue F →
      Path (Session.Update wb) s
          ((F _ (wb.resolver.noting (wb.questionMoments wb.cellMoments))).runFrom (s, [])).2.2
          ((F _ wb.resolver).runFrom s).2 ∧
        ((F _ wb.resolver).runFrom s).2.Idle ∧ ((F _ wb.resolver).runFrom s).2.currentSheet = s.currentSheet :=
    fun hF => hF.path (wb.questionMoments_path hcell) ⟨hs, rfl⟩
  cases q with
  | value l =>
    have hmap : ∀ {τ : Type} (x : Eval τ Scalar) (t : τ),
        (((fun _ => ()) <$> x : Eval τ Unit).runFrom t).2 = (x.runFrom t).2 := by
      intro τ x t
      rw [← bind_pure_comp, Eval.runFrom_bind]
      rcases x.runFrom t with ⟨_ | _, _⟩ <;> rfl
    unfold requestMoments afterRequest Request.run
    rw [hmap, hmap, Eval.runFrom_noting, List.nil_append]
    exact hcell l s ⟨hs, rfl⟩
  | evaluate tokens => exact hdialogue ((evaluateValue_isDialogue wb.settings tokens).map _)
  | cell sheet a => exact hdialogue ((IsDialogue.cell sheet a).map _)
  | range sheet area =>
    exact hdialogue (.map _ (.mapM _ fun row => .mapM _ fun col => .cell sheet (.relative row col)))
  | name id => exact hdialogue ((IsDialogue.name id).map _)
  | shared anchor => exact hdialogue ((IsDialogue.shared anchor).map _)

private theorem moments_path (requests : List Request) {s : Session} (hs : s.Idle) :
    Path (Session.Update wb) s (wb.moments requests s) (wb.after requests s) ∧
      (wb.after requests s).Idle ∧ (wb.after requests s).currentSheet = s.currentSheet := by
  induction requests generalizing s with
  | nil => exact ⟨.nil s, hs, rfl⟩
  | cons q requests ih =>
    obtain ⟨hpath, hi, hsheet⟩ := wb.requestMoments_path q hs
    obtain ⟨hpath', hi', hsheet'⟩ := ih hi
    exact ⟨hpath.append hpath', hi', hsheet'.trans hsheet⟩

/-- Requests one after the other, failing ones included, lead a new session through states each of which is an update of
the one before.  In all of them only formula cells are in progress, none of them twice and at most `maxChain`, and only
outcomes of formula cells are cached; and an outcome that is cached in one state is cached unchanged in all later ones.
After each request the session is idle and on its sheet again. -/
theorem moments_valid (sheet : Nat) (requests : List Request) :
    Path (Session.Update wb) (Session.new sheet) (wb.moments requests (Session.new sheet))
        (wb.after requests (Session.new sheet)) ∧
      (∀ s ∈ Session.new sheet :: wb.moments requests (Session.new sheet), s.Valid wb) ∧
      (Session.new sheet :: wb.moments requests (Session.new sheet)).Pairwise Session.CacheKept ∧
      (wb.after requests (Session.new sheet)).Idle ∧
      (wb.after requests (Session.new sheet)).currentSheet = sheet := by
  obtain ⟨hpath, hi, hsheet⟩ := wb.moments_path requests (Session.idle_new sheet)
  have hvalid := hpath.forall_mem (fun h => h.valid) (Session.valid_new sheet)
  have hkept := hpath.pairwise Session.CacheKept.refl (fun h h' => h.trans h') (fun h => h.cacheKept)
  exact ⟨hpath, hvalid, hkept, hi, hsheet⟩

end Workbook

end Spreadsheet
