import Spreadsheet.Proofs.Workbook.Results

/-!
# Termination

The evaluation of cells without any bound on the number of steps: `Runs` for a formula, `Evaluates` for a cell that is
looked up, `Settles` for the list of cells that wait for one another, `Recalculates` for many cells in turn.  Each is
given by rules, so that what has an outcome has a finite derivation; the only limits in the rules are those that a
session checks itself.  There is always exactly one outcome, and it is the one that is computed (`terminates`).

Three things make the derivations finite.  A formula is one finite dialogue whatever the answers to its questions are,
also if names and shared formulas stand for themselves: the settings limit how deep definitions are expanded inside one
another and how often a shared formula is spliced in.  Each formula that is evaluated inside another one has one more
cell in progress.  And a cell that is put on top of the waiting ones is cached when it is taken off, so that it is put
there only once.
-/

namespace Spreadsheet.Workbook

variable {α : Type}

/-! ### Rules of evaluation -/

/-- What a computation of a cell can lead to from a session. -/
abbrev Outcomes := Session → Except FormulaError Scalar × Session → Prop

/-- The runs of a dialogue in which each cell asked for has an outcome according to `cell`. -/
inductive Runs (wb : Workbook) (cell : Location → Outcomes) :
    Dialogue α → Session → Except FormulaError α × Session → Prop
  | done (r : Except FormulaError α) (s : Session) : Runs wb cell (.done r) s (r, s)
  | cell {sheet a next s i x y} (hi : wb.findSheet s.currentSheet sheet = .ok i) (hx : cell ⟨i, a.position⟩ s x)
      (hy : Runs wb cell (next x.1) x.2 y) : Runs wb cell (.ask (.cell sheet a) next) s y
  | noSheet {sheet a next s e y} (hi : wb.findSheet s.currentSheet sheet = .error e)
      (hy : Runs wb cell (next (.error e)) s y) : Runs wb cell (.ask (.cell sheet a) next) s y
  | name {id next s y} (hy : Runs wb cell (next (wb.nameTokens id)) s y) : Runs wb cell (.ask (.name id) next) s y
  | shared {anchor next s y} (hy : Runs wb cell (next (wb.sharedTokens s.currentSheet anchor)) s y) :
      Runs wb cell (.ask (.shared anchor) next) s y

/-- The outcomes of looking up a cell.  A formula is evaluated only if its cell is not in progress and fewer than
`maxChain` cells are. -/
inductive Evaluates (wb : Workbook) : Location → Outcomes
  | stored {l s} (hf : wb.formula? l = none) : Evaluates wb l s (wb.stored l, s)
  | cached {l s tokens r} (hf : wb.formula? l = some tokens) (hc : s.cache[l]? = some r) : Evaluates wb l s (r, s)
  | circular {l s tokens} (hf : wb.formula? l = some tokens) (hc : s.cache[l]? = none) (hp : l ∈ s.inProgress) :
      Evaluates wb l s (.error .circular, s)
  | cut {l s tokens} (hf : wb.formula? l = some tokens) (hc : s.cache[l]? = none) (hp : l ∉ s.inProgress)
      (hn : maxChain ≤ s.inProgress.length) : Evaluates wb l s (.error (.code .value), s.defer l)
  | formula {l s tokens} {d : Dialogue Scalar} {x} (hf : wb.formula? l = some tokens) (hc : s.cache[l]? = none)
      (hp : l ∉ s.inProgress) (hn : s.inProgress.length < maxChain)
      (hd : ∀ (σ : Type) (r : Resolver σ), evaluateFormula wb.settings r tokens = d.run r)
      (hx : Runs wb (Evaluates wb) d (s.enter l) x) : Evaluates wb l s (s.conclude l x)

/-- The outcome as the settling of cells takes it: a cell whose chain was cut again is circular. -/
def verdict (x : Except FormulaError Scalar × Session) : Except FormulaError Scalar :=
  if x.2.deferred.isSome then .error .circular else x.1

/-- The outcomes of settling the first of the cells that wait for one another, with the cells that are put on top of
them on the way. -/
inductive Settles (wb : Workbook) : List Location → Session → List Location →
    Except FormulaError Scalar × Session → Prop
  | push {l waiting s x d pushed y} (hx : Evaluates wb l s x) (hd : x.2.deferred = some d) (hm : d ∉ l :: waiting)
      (hy : Settles wb (d :: l :: waiting) x.2.clear pushed y) : Settles wb (l :: waiting) s (d :: pushed) y
  | pop {l next waiting s x pushed y} (hx : Evaluates wb l s x)
      (hd : ∀ d, x.2.deferred = some d → d ∈ l :: next :: waiting)
      (hy : Settles wb (next :: waiting) (x.2.clear.store l (verdict x)) pushed y) :
      Settles wb (l :: next :: waiting) s pushed y
  | done {l s x} (hx : Evaluates wb l s x) (hd : ∀ d, x.2.deferred = some d → d ∈ [l]) :
      Settles wb [l] s [] (verdict x, x.2.clear)

/-- The outcomes of a question for a single cell. -/
def Asked (wb : Workbook) (l : Location) : Outcomes :=
  fun s x => ∃ pushed, Settles wb [l] s pushed x

/-- The outcomes of asking for cells in turn, up to the first one that has no result. -/
inductive Recalculates (wb : Workbook) : List Location → Session →
    Except FormulaError (List CellResult) × Session → Prop
  | nil (s) : Recalculates wb [] s (.ok [], s)
  | failed {l ls s x e} (hx : Asked wb l s x) (he : cellResult l x.1 = .error e) :
      Recalculates wb (l :: ls) s (.error e, x.2)
  | cons {l ls s x r y} (hx : Asked wb l s x) (hr : cellResult l x.1 = .ok r) (hy : Recalculates wb ls x.2 y) :
      Recalculates wb (l :: ls) s (y.1.map (r :: ·), y.2)

/-! ### Look-ups -/

variable {wb : Workbook}

/-- If the outcome of each cell is unique in the sessions that satisfy `P`, then so is that of a dialogue. -/
theorem runs_iff {cell : Location → Outcomes} (lookUp : Location → Eval Session Scalar) {P : Session → Prop}
    (hcell : ∀ l s, P s → ∀ x, cell l s x ↔ x = (lookUp l).runFrom s) (hP : ∀ l s, P s → P ((lookUp l).runFrom s).2)
    (d : Dialogue α) {s : Session} (hs : P s) (x : Except FormulaError α × Session) :
    wb.Runs cell d s x ↔ x = (d.run (wb.resolverWith lookUp)).runFrom s := by
  induction d generalizing s with
  | done r =>
    rw [Dialogue.run, Eval.runFrom_ofExcept]
    constructor
    · intro h
      cases h
      rfl
    · rintro rfl
      exact .done r s
  | ask q next ih =>
    rw [Dialogue.run, Eval.runFrom_observe_bind]
    cases q with
    | cell sheet a =>
      rw [resolverWith_cell]
      cases hi : wb.findSheet s.currentSheet sheet with
      | error e =>
        dsimp only
        rw [← ih _ hs]
        constructor
        · intro h
          cases h with
          | cell hi' _ _ => exact absurd (hi.symm.trans hi') (by simp)
          | noSheet hi' hy =>
            obtain rfl := Except.error.inj (hi.symm.trans hi')
            exact hy
        · exact .noSheet hi
      | ok i =>
        dsimp only
        rw [← ih _ (hP _ _ hs)]
        constructor
        · intro h
          cases h with
          | cell hi' hx hy =>
            obtain rfl := Except.ok.inj (hi.symm.trans hi')
            obtain rfl := (hcell _ s hs _).1 hx
            exact hy
          | noSheet hi' _ => exact absurd (hi.symm.trans hi') (by simp)
        · exact .cell hi ((hcell _ s hs _).2 rfl)
    | name id =>
      rw [resolverWith_name, ← ih _ hs]
      constructor
      · intro h
        cases h with
        | name hy => exact hy
      · exact .name
    | shared anchor =>
      rw [resolverWith_shared, ← ih _ hs]
      constructor
      · intro h
        cases h with
        | shared hy => exact hy
      · exact .shared

/-- If look-ups with one more cell in progress have just one outcome each, so has the formula of a cell that is entered. -/
private theorem runs_enter_iff {n : Nat} {l : Location} {s : Session} (hn : maxChain - s.inProgress.length = n + 1)
    (ih : ∀ l' t x, maxChain - t.inProgress.length = n → (wb.Evaluates l' t x ↔ x = (wb.lookUp n l').runFrom t))
    (d : Dialogue α) (x : Except FormulaError α × Session) : wb.Runs wb.Evaluates d (s.enter l) x ↔
      x = (d.run (wb.resolverWith (wb.lookUp n))).runFrom (s.enter l) := by
  refine runs_iff (wb.lookUp n) (P := fun t => maxChain - t.inProgress.length = n) (fun l' t ht x => ih l' t x ht)
    (fun l' t ht => ?_) d ?_ x
  · rw [(wb.lookUp_evolves n l' t).inProgress]
    exact ht
  · show maxChain - (s.inProgress.length + 1) = n
    omega

/-- A look-up has just one outcome.  Each formula that is evaluated on the way has one more cell in progress, so that
the evaluation comes to an end after at most `maxChain` cells. -/
theorem evaluates_iff (l : Location) (s : Session) (x : Except FormulaError Scalar × Session) :
    wb.Evaluates l s x ↔ x = (wb.lookUp (maxChain - s.inProgress.length) l).runFrom s := by
  induction hn : maxChain - s.inProgress.length using Nat.strongRecOn generalizing l s x with
  | _ n ih =>
    rw [lookUp_runFrom]
    cases hf : wb.formula? l with
    | none =>
      constructor
      · intro h
        cases h with
        | stored _ => rfl
        | _ => simp_all
      · rintro rfl
        exact .stored hf
    | some tokens =>
      -- The rules exclude one another, in the order in which the session checks their conditions.
      cases hc : s.cache[l]? with
      | some r =>
        constructor
        · intro h
          cases h with
          | cached _ hc' =>
            obtain rfl := Option.some.inj (hc.symm.trans hc')
            rfl
          | _ => simp_all
        · rintro rfl
          exact .cached hf hc
      | none =>
        by_cases hp : l ∈ s.inProgress
        · simp only [hp, if_true]
          constructor
          · intro h
            cases h with
            | circular _ _ _ => rfl
            | _ => simp_all
          · rintro rfl
            exact .circular hf hc hp
        · simp only [hp, if_false]
          cases n with
          | zero =>
            have hle : maxChain ≤ s.inProgress.length := by omega
            constructor
            · intro h
              cases h with
              | cut _ _ _ _ => rfl
              | formula _ _ _ hlt _ _ => omega
              | _ => simp_all
            · rintro rfl
              exact .cut hf hc hp hle
          | succ n =>
            have hlt : s.inProgress.length < maxChain := by omega
            obtain ⟨d, hd⟩ := evaluateFormula_isDialogue wb.settings tokens
            have hruns : ∀ (d' : Dialogue Scalar) y, wb.Runs wb.Evaluates d' (s.enter l) y ↔
                y = (d'.run (wb.resolverWith (wb.lookUp n))).runFrom (s.enter l) :=
              runs_enter_iff hn (ih n (Nat.lt_succ_self n))
            constructor
            · intro h
              cases h with
              | formula hf' _ _ _ hd' hx =>
                obtain rfl := Option.some.inj (hf.symm.trans hf')
                rw [(hruns _ _).1 hx, ← hd']
                rfl
              | cut _ _ _ hle => omega
              | _ => simp_all
            · rintro rfl
              refine .formula hf hc hp hlt hd ((hruns d _).2 ?_)
              rw [evaluateWithin, ← hd]

private theorem evaluates_idle {l : Location} {s : Session} (hs : s.Idle) {x : Except FormulaError Scalar × Session} :
    wb.Evaluates l s x ↔ x = (wb.lookUp maxChain l).runFrom s := by
  rw [evaluates_iff, hs.inProgress, List.length_nil, Nat.sub_zero]

theorem Evaluates.unique {l : Location} {s : Session} {x y : Except FormulaError Scalar × Session}
    (hx : wb.Evaluates l s x) (hy : wb.Evaluates l s y) : x = y :=
  ((evaluates_iff l s x).1 hx).trans ((evaluates_iff l s y).1 hy).symm

/-! ### Waiting cells -/

theorem Settles.unique {pending pushed pushed' : List Location} {s : Session}
    {x x' : Except FormulaError Scalar × Session} (h : wb.Settles pending s pushed x)
    (h' : wb.Settles pending s pushed' x') : pushed = pushed' ∧ x = x' := by
  induction h generalizing pushed' x' with
  | push hx hd hm _ ih =>
    cases h' with
    | push hx' hd' _ hy' =>
      obtain rfl := hx.unique hx'
      obtain rfl := Option.some.inj (hd.symm.trans hd')
      obtain ⟨rfl, rfl⟩ := ih hy'
      exact ⟨rfl, rfl⟩
    | pop hx' hd' _ =>
      obtain rfl := hx.unique hx'
      exact absurd (hd' _ hd) hm
    | done hx' hd' =>
      obtain rfl := hx.unique hx'
      exact absurd (hd' _ hd) hm
  | pop hx hd _ ih =>
    cases h' with
    | push hx' hd' hm' _ =>
      obtain rfl := hx.unique hx'
      exact absurd (hd _ hd') hm'
    | pop hx' _ hy' =>
      obtain rfl := hx.unique hx'
      exact ih hy'
  | done hx hd =>
    cases h' with
    | push hx' hd' hm' _ =>
      obtain rfl := hx.unique hx'
      exact absurd (hd _ hd') hm'
    | done hx' _ =>
      obtain rfl := hx.unique hx'
      exact ⟨rfl, rfl⟩

/-- A round that hands on an outcome hands on the verdict. -/
theorem verdict_of_round {x : Except FormulaError Scalar × Session} {r : Except FormulaError Scalar}
    {pending : List Location}
    (h : x.2.deferred = none ∧ r = x.1 ∨ ∃ d ∈ pending, x.2.deferred = some d ∧ r = .error .circular) :
    r = verdict x ∧ ∀ d, x.2.deferred = some d → d ∈ pending := by
  unfold verdict
  rcases h with ⟨hn, rfl⟩ | ⟨d, hm, hd, rfl⟩
  · rw [hn]
    exact ⟨rfl, fun d hd => by cases hd⟩
  · rw [hd]
    refine ⟨rfl, fun d' hd' => ?_⟩
    obtain rfl := Option.some.inj hd'
    exact hm

/-- There are enough attempts to settle a cell. -/
theorem exists_settles (l : Location) {s : Session} (hs : s.Idle) :
    ∃ pushed, wb.Settles [l] s pushed ((wb.cellValue l).runFrom s) := by
  -- What is left to settle after some rounds leads to the outcome of the whole.
  refine settle_induction (I := fun l' waiting t => ∀ pushed y, wb.Settles (l' :: waiting) t pushed y →
      ∃ pushed', wb.Settles [l] s pushed' y) (Q := fun r t => ∃ pushed, wb.Settles [l] s pushed (r, t))
    ?_ ?_ hs (fun pushed y h => ⟨pushed, h⟩) (budget_le_attempts l s)
  · intro l' waiting t l'' waiting' t' ht hI hr
    have hx : wb.Evaluates l' t _ := (evaluates_idle ht).2 rfl
    have hi := (wb.lookUp_evolves maxChain l' t).idle_clear ht
    rcases wb.round_cases l' waiting t with ⟨d, hd, hm, e⟩ | ⟨r, e, hr'⟩
    · rw [e] at hr
      cases hr
      exact ⟨hi, fun pushed y hy => hI _ y (.push hx hd hm hy)⟩
    · rw [e] at hr
      cases waiting with
      | nil => cases hr
      | cons next waiting =>
        cases hr
        obtain ⟨rfl, hd⟩ := verdict_of_round hr'
        exact ⟨⟨hi.inProgress, hi.deferred⟩, fun pushed y hy => hI pushed y (.pop hx hd hy)⟩
  · intro l' waiting t r t' ht hI hr
    have hx : wb.Evaluates l' t _ := (evaluates_idle ht).2 rfl
    rcases wb.round_cases l' waiting t with ⟨d, hd, hm, e⟩ | ⟨r, e, hr'⟩
    · rw [e] at hr
      cases hr
    · rw [e] at hr
      cases waiting with
      | cons next waiting => cases hr
      | nil =>
        cases hr
        obtain ⟨rfl, hd⟩ := verdict_of_round hr'
        exact hI [] _ (.done hx hd)

private theorem settles_iff {l : Location} {s : Session} (hs : s.Idle) {x : Except FormulaError Scalar × Session} :
    wb.Asked l s x ↔ x = (wb.cellValue l).runFrom s := by
  obtain ⟨pushed, h⟩ := wb.exists_settles l hs
  constructor
  · rintro ⟨pushed', h'⟩
    exact (h'.unique h).2
  · rintro rfl
    exact ⟨pushed, h⟩

/-- A cell that is put on top has no known outcome and does not wait already.  When it is taken off, its outcome is
known. -/
theorem Settles.pushed_spec {pending pushed : List Location} {s : Session} {x : Except FormulaError Scalar × Session}
    (h : wb.Settles pending s pushed x) (hs : s.Idle) :
    pushed.Nodup ∧ ∀ d ∈ pushed, d ∉ pending ∧ (wb.formula? d).isSome ∧ s.cache[d]? = none := by
  induction h with
  | @push l waiting s x d pushed y hx hd hm _ ih =>
    obtain rfl := (evaluates_idle hs).1 hx
    have he := wb.lookUp_evolves maxChain l s
    obtain ⟨hnd, hspec⟩ := ih (he.idle_clear hs)
    obtain ⟨hf, hc⟩ := he.deferred hs.deferred hd
    refine ⟨List.nodup_cons.2 ⟨fun hdm => ?_, hnd⟩, fun d' hd' => ?_⟩
    · exact (hspec d hdm).1 (List.mem_cons_self ..)
    · rcases List.mem_cons.1 hd' with rfl | hd'
      · exact ⟨hm, hf, he.uncached hc⟩
      · obtain ⟨hm', hf', hc'⟩ := hspec d' hd'
        exact ⟨fun h => hm' (List.mem_cons_of_mem d h), hf', he.uncached hc'⟩
  | @pop l next waiting s x pushed y hx _ _ ih =>
    obtain rfl := (evaluates_idle hs).1 hx
    have he := wb.lookUp_evolves maxChain l s
    have hi := he.idle_clear hs
    obtain ⟨hnd, hspec⟩ := ih ⟨hi.inProgress, hi.deferred⟩
    refine ⟨hnd, fun d hd => ?_⟩
    obtain ⟨hm, hf, hc⟩ := hspec d hd
    obtain ⟨hne, hc'⟩ := Session.uncached_of_store hc
    refine ⟨fun h => ?_, hf, he.uncached hc'⟩
    rcases List.mem_cons.1 h with rfl | h
    · exact hne rfl
    · exact hm h
  | done _ _ => exact ⟨List.nodup_nil, fun d hd => by cases hd⟩

/-! ### Whole sessions -/

private theorem recalculates_iff {sheet : Nat} (ls : List Location) {s : Session} (hs : wb.Reached sheet s)
    (x : Except FormulaError (List CellResult) × Session) :
    wb.Recalculates ls s x ↔ x = (wb.resultsWithin wb.attempts ls).runFrom s := by
  induction ls generalizing s x with
  | nil =>
    constructor
    · intro h
      cases h
      rfl
    · rintro rfl
      exact .nil s
  | cons l ls ih =>
    have hasked : wb.Asked l s ((wb.cellValue l).runFrom s) := (settles_iff hs.idle).2 rfl
    rw [resultsWithin_cons]
    cases hr : cellResult l ((wb.cellValue l).runFrom s).1 with
    | error e =>
      constructor
      · intro h
        cases h with
        | failed hx he =>
          obtain rfl := (settles_iff hs.idle).1 hx
          obtain rfl := Except.error.inj (hr.symm.trans he)
          rfl
        | cons hx hr' _ =>
          obtain rfl := (settles_iff hs.idle).1 hx
          cases hr.symm.trans hr'
      · rintro rfl
        exact .failed hasked hr
    | ok r =>
      dsimp only
      constructor
      · intro h
        cases h with
        | failed hx he =>
          obtain rfl := (settles_iff hs.idle).1 hx
          cases hr.symm.trans he
        | cons hx hr' hy =>
          obtain rfl := (settles_iff hs.idle).1 hx
          obtain rfl := Except.ok.inj (hr.symm.trans hr')
          rw [(ih (hs.value l) _).1 hy]
      · rintro rfl
        exact .cons hasked hr ((ih (hs.value l) _).2 rfl)

/-- Whatever was asked for before, there is exactly one outcome for a cell that is looked up, for a question, for a
formula and for a recalculation, and it is the one that is computed.  No cell is put on top of the waiting cells twice
during one question, and none that is waiting or has a known outcome. -/
theorem terminates (wb : Workbook) {sheet : Nat} {s : Session} (hs : wb.Reached sheet s) :
    (∀ l t, ∃! x, wb.Evaluates l t x) ∧
    (∀ l, ∃ pushed, wb.Settles [l] s pushed ((wb.cellValue l).runFrom s) ∧ pushed.Nodup ∧
      (∀ d ∈ pushed, d ≠ l ∧ (wb.formula? d).isSome ∧ s.cache[d]? = none) ∧
      ∀ pushed' x, wb.Settles [l] s pushed' x → pushed' = pushed ∧ x = (wb.cellValue l).runFrom s) ∧
    (∀ tokens, ∃ d : Dialogue Value,
      (∀ (σ : Type) (r : Resolver σ), evaluateValue (Scope.of wb.settings r) tokens = d.run r) ∧
      ∀ x, wb.Runs wb.Asked d s x ↔ x = (evaluateValue wb.scope tokens).runFrom s) ∧
    ∀ ls x, wb.Recalculates ls s x ↔ x = (wb.resultsWithin wb.attempts ls).runFrom s := by
  refine ⟨fun l t => ?_, fun l => ?_, fun tokens => ?_, fun ls x => recalculates_iff ls hs x⟩
  · exact ⟨_, (evaluates_iff l t _).2 rfl, fun x hx => (evaluates_iff l t x).1 hx⟩
  · obtain ⟨pushed, h⟩ := exists_settles l hs.idle
    obtain ⟨hnd, hspec⟩ := h.pushed_spec hs.idle
    refine ⟨pushed, h, hnd, fun d hd => ?_, fun pushed' x h' => h'.unique h⟩
    obtain ⟨hm, hf, hc⟩ := hspec d hd
    exact ⟨fun e => hm (List.mem_singleton.2 e), hf, hc⟩
  · obtain ⟨d, hd⟩ := evaluateValue_isDialogue wb.settings tokens
    refine ⟨d, hd, fun x => ?_⟩
    have hrun : evaluateValue wb.scope tokens = d.run (wb.resolverWith wb.cellValue) := hd Session wb.resolver
    rw [hrun]
    exact runs_iff wb.cellValue (P := wb.Reached sheet) (fun l t ht x => settles_iff ht.idle)
      (fun l t ht => .value l ht) d hs x

/-- A cell whose formula refers to the cell itself and to a name that is defined by itself. -/
def selfReferences : Workbook where
  sheets := [{
    name := "Sheet1"
    cells := .ofList [(⟨0, 0⟩, .formula [.name 1, .cell none (.relative 0 0), .operator .add])] Position.order }]
  names := [{ name := "Loop", tokens := [.name 1] }]

theorem terminates_selfReferences :
    selfReferences.Reached 0 (Session.new 0) ∧
    ∃ pushed x, selfReferences.Settles [⟨0, ⟨0, 0⟩⟩] (Session.new 0) pushed x ∧
      pushed.Nodup ∧ ∀ d ∈ pushed, d ≠ ⟨0, ⟨0, 0⟩⟩ := by
  obtain ⟨-, hsettles, -, -⟩ := terminates selfReferences (.new : selfReferences.Reached 0 _)
  obtain ⟨pushed, h, hnd, hspec, -⟩ := hsettles ⟨0, ⟨0, 0⟩⟩
  exact ⟨.new, pushed, _, h, hnd, fun d hd => (hspec d hd).1⟩

end Spreadsheet.Workbook
