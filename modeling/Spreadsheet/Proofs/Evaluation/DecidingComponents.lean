import Spreadsheet.Evaluation.Functions
import Spreadsheet.Proofs.Evaluation.ComponentValues

/-!
# Components that decide

AND looks for a component that reads as false and OR for one that reads as true.  Behind the first such component nothing
is expanded or resolved any more (`Logic.find_of_reaches`).  Without one all components are resolved, up to the first
failure (`Logic.find_of_error`).  If there is none then only the values count, and not their order
(`Logic.find_of_componentValues`).
-/

namespace Spreadsheet

variable {σ : Type} {s : Scope σ}

namespace Logic

open Token (value componentValues)

/-- The function that looks for components with a truth value. -/
def seeking : Bool → Function
  | false => .and
  | true => .or

variable {stop : Bool} {p q : σ} {vs : List Value}

private theorem callFunction_seeking {args : List Token} (hargs : args ≠ []) :
    callFunction s (seeking stop).id args = (seeking stop).apply s args := by
  cases stop <;> exact callFunction_of_ne_nil rfl rfl hargs

private theorem apply_seeking (args : List Token) : (seeking stop).apply s args =
    (fun found => Token.boolean (if found then stop else !stop)) <$> find s stop args := by
  cases stop with
  | false =>
    show and s args = _
    rw [and, bind_pure_comp]
    refine congrArg (· <$> _) (funext fun found => ?_)
    cases found <;> rfl
  | true =>
    show or s args = _
    rw [or, bind_pure_comp]
    refine congrArg (· <$> _) (funext fun found => ?_)
    cases found <;> rfl

/-! ### The parts of one argument -/

private theorem runFrom_findPart_cons {t : Token} {v : Value} (ht : (t.value s).runFrom p = (.ok v, q))
    (rest : List Token) : (findPart s stop (t :: rest)).runFrom p =
      if truth? v = some stop then (.ok true, q) else (findPart s stop rest).runFrom q := by
  show (t.value s >>= fun v => _).runFrom p = _
  rw [Eval.runFrom_bind, ht]
  dsimp only
  split <;> rfl

/-- Parts that have values, but none that is looked for, are passed over. -/
theorem findPart_skip {front : List Token} (hfront : (front.mapM (value s)).runFrom p = (.ok vs, q))
    (hvs : ∀ v ∈ vs, truth? v ≠ some stop) (rest : List Token) :
    (findPart s stop (front ++ rest)).runFrom p = (findPart s stop rest).runFrom q := by
  induction front generalizing p vs with
  | nil =>
    obtain ⟨rfl, rfl⟩ : [] = vs ∧ p = q := by simpa using hfront
    rfl
  | cons t front ih =>
    rw [List.mapM_cons] at hfront
    obtain ⟨v, p', hv, hfront⟩ := Eval.runFrom_bind_eq_ok.1 hfront
    obtain ⟨ws, q', hws, ⟨⟩⟩ := Eval.runFrom_bind_eq_ok.1 hfront
    obtain ⟨hfirst, hrest⟩ := List.forall_mem_cons.1 hvs
    rw [List.cons_append, runFrom_findPart_cons hv, if_neg hfirst]
    exact ih hws hrest

private theorem findPart_none {parts : List Token} (hparts : (parts.mapM (value s)).runFrom p = (.ok vs, q))
    (hvs : ∀ v ∈ vs, truth? v ≠ some stop) : (findPart s stop parts).runFrom p = (.ok false, q) := by
  have hskip := findPart_skip hparts hvs []
  rwa [List.append_nil] at hskip

/-- The first part with the truth value ends the search, whatever parts there are behind those that have values. -/
theorem findPart_stops {front : List Token} (hfront : (front.mapM (value s)).runFrom p = (.ok vs, q))
    (hvs : ∃ v ∈ vs, truth? v = some stop) :
    ∃ final, ∀ rest, (findPart s stop (front ++ rest)).runFrom p = (.ok true, final) := by
  induction front generalizing p vs with
  | nil =>
    obtain ⟨rfl, -⟩ : [] = vs ∧ p = q := by simpa using hfront
    obtain ⟨v, hv, -⟩ := hvs
    exact absurd hv List.not_mem_nil
  | cons t front ih =>
    rw [List.mapM_cons] at hfront
    obtain ⟨v, p', hv, hfront⟩ := Eval.runFrom_bind_eq_ok.1 hfront
    obtain ⟨ws, q', hws, ⟨⟩⟩ := Eval.runFrom_bind_eq_ok.1 hfront
    by_cases hstop : truth? v = some stop
    · refine ⟨p', fun rest => ?_⟩
      rw [List.cons_append, runFrom_findPart_cons hv, if_pos hstop]
    · have hrest : ∃ w ∈ ws, truth? w = some stop := by
        obtain ⟨w, hw, hread⟩ := hvs
        rcases List.mem_cons.1 hw with rfl | hw
        · exact absurd hread hstop
        · exact ⟨w, hw, hread⟩
      obtain ⟨final, hfinal⟩ := ih hws hrest
      refine ⟨final, fun rest => ?_⟩
      rw [List.cons_append, runFrom_findPart_cons hv, if_neg hstop]
      exact hfinal rest

/-- If no part that has been reached has the truth value then the first part that fails ends the search. -/
theorem findPart_of_error {parts : List Token} {e : FormulaError}
    (h : (parts.mapM (value s)).runFrom p = (.error e, q))
    (hvs : ∀ front t back ws p' v p'', parts = front ++ t :: back → (front.mapM (value s)).runFrom p = (.ok ws, p') →
      (t.value s).runFrom p' = (.ok v, p'') → truth? v ≠ some stop) :
    (findPart s stop parts).runFrom p = (.error e, q) := by
  induction parts generalizing p with
  | nil => cases h
  | cons t parts ih =>
    rcases hrun : (t.value s).runFrom p with ⟨e' | v, p'⟩
    · rw [List.mapM_cons, Eval.runFrom_bind, hrun] at h
      show (t.value s >>= fun v => _).runFrom p = _
      rw [Eval.runFrom_bind, hrun]
      cases h
      rfl
    · have hfirst : truth? v ≠ some stop := hvs [] t parts [] p v p' rfl rfl hrun
      rw [runFrom_findPart_cons hrun, if_neg hfirst]
      refine ih ?_ fun front u back ws p₁ w p₂ hparts hfront hw => ?_
      · rw [List.mapM_cons, Eval.runFrom_bind, hrun] at h
        dsimp only at h
        rw [bind_pure_comp, Eval.runFrom_map] at h
        rcases hrest : (parts.mapM (value s)).runFrom p' with ⟨e' | ws, q'⟩
        · rw [hrest] at h
          exact h
        · rw [hrest] at h
          cases h
      · have hcons : ((t :: front).mapM (value s)).runFrom p = (.ok (v :: ws), p₁) :=
          Eval.runFrom_mapM_cons.2 ⟨p', hrun, hfront⟩
        exact hvs (t :: front) u back (v :: ws) p₁ w p₂ (congrArg (t :: ·) hparts) hcons hw

/-! ### All arguments -/

/-- The components that come before `t`, which is one of `arg`, have the values `vs`, and `t` is next to be resolved, from
the state `q`. -/
inductive Reaches (s : Scope σ) (before : List Token) (arg : Token) (p : σ) : List Value → Token → σ → Prop
  | intro {ws ws' : List Value} {front back : List Token} {t : Token} {p₁ p₂ q : σ}
      (hbefore : (componentValues s before).runFrom p = (.ok ws, p₁))
      (hparts : (arg.parts s).runFrom p₁ = (.ok (front ++ t :: back), p₂))
      (hfront : (front.mapM (value s)).runFrom p₂ = (.ok ws', q)) :
      Reaches s before arg p (ws ++ ws') t q

/-- A component that is reached has the truth value. -/
def Decides (s : Scope σ) (stop : Bool) (args : List Token) (p : σ) : Prop :=
  ∃ before arg later vs t q v q', args = before ++ arg :: later ∧ Reaches s before arg p vs t q ∧
    (t.value s).runFrom q = (.ok v, q') ∧ truth? v = some stop

private theorem runFrom_find_cons {arg : Token} {parts : List Token} (hparts : (arg.parts s).runFrom p = (.ok parts, q))
    (rest : List Token) : (find s stop (arg :: rest)).runFrom p =
      (findPart s stop parts >>= fun found => if found then pure true else find s stop rest).runFrom q := by
  show (arg.parts s >>= fun parts => _).runFrom p = _
  rw [Eval.runFrom_bind, hparts]

private theorem find_skip {before : List Token} (hbefore : (componentValues s before).runFrom p = (.ok vs, q))
    (hvs : ∀ v ∈ vs, truth? v ≠ some stop) (later : List Token) :
    (find s stop (before ++ later)).runFrom p = (find s stop later).runFrom q := by
  induction before generalizing p vs with
  | nil =>
    obtain ⟨-, rfl⟩ : [] = vs ∧ p = q := by simpa [componentValues] using hbefore
    rfl
  | cons arg before ih =>
    obtain ⟨parts, p₁, us, p₂, ws, hparts, hus, hws, rfl⟩ := Token.runFrom_componentValues_cons.1 hbefore
    obtain ⟨hfirst, hrest⟩ := List.forall_mem_append.1 hvs
    rw [List.cons_append, runFrom_find_cons hparts, Eval.runFrom_bind, findPart_none hus hfirst]
    exact ih hws hrest

private theorem find_stops {before : List Token} (hbefore : (componentValues s before).runFrom p = (.ok vs, q))
    (hvs : ∃ v ∈ vs, truth? v = some stop) :
    ∃ final, ∀ later, (find s stop (before ++ later)).runFrom p = (.ok true, final) := by
  induction before generalizing p vs with
  | nil =>
    obtain ⟨rfl, -⟩ : [] = vs ∧ p = q := by simpa [componentValues] using hbefore
    obtain ⟨v, hv, -⟩ := hvs
    exact absurd hv List.not_mem_nil
  | cons arg before ih =>
    obtain ⟨parts, p₁, us, p₂, ws, hparts, hus, hws, rfl⟩ := Token.runFrom_componentValues_cons.1 hbefore
    by_cases hfirst : ∃ v ∈ us, truth? v = some stop
    · obtain ⟨final, hfinal⟩ := findPart_stops hus hfirst
      have hpart : (findPart s stop parts).runFrom p₁ = (.ok true, final) := by
        have hstop := hfinal []
        rwa [List.append_nil] at hstop
      refine ⟨final, fun later => ?_⟩
      rw [List.cons_append, runFrom_find_cons hparts, Eval.runFrom_bind, hpart]
      rfl
    · have hnone : ∀ v ∈ us, truth? v ≠ some stop := fun v hv hread => hfirst ⟨v, hv, hread⟩
      have hrest : ∃ v ∈ ws, truth? v = some stop := by
        obtain ⟨v, hv, hread⟩ := hvs
        rcases List.mem_append.1 hv with hv | hv
        · exact absurd hread (hnone v hv)
        · exact ⟨v, hv, hread⟩
      obtain ⟨final, hfinal⟩ := ih hws hrest
      refine ⟨final, fun later => ?_⟩
      rw [List.cons_append, runFrom_find_cons hparts, Eval.runFrom_bind, findPart_none hus hnone]
      exact hfinal later

/-- A component with the truth value is found, unless another one before it is found.  The arguments behind its own one are
not looked at. -/
theorem find_of_reaches {before : List Token} {arg t : Token} {v : Value} {q' : σ}
    (h : Reaches s before arg p vs t q) (hv : (t.value s).runFrom q = (.ok v, q')) (hread : truth? v = some stop) :
    ∃ final, (∀ later, (find s stop (before ++ arg :: later)).runFrom p = (.ok true, final)) ∧
      ((∀ w ∈ vs, truth? w ≠ some stop) → final = q') := by
  obtain @⟨ws, ws', front, back, _, p₁, p₂, _, hbefore, hparts, hfront⟩ := h
  by_cases hearlier : ∃ w ∈ ws, truth? w = some stop
  · obtain ⟨final, hfinal⟩ := find_stops hbefore hearlier
    refine ⟨final, fun later => hfinal (arg :: later), fun hnone => ?_⟩
    obtain ⟨w, hw, hstop⟩ := hearlier
    exact absurd hstop (hnone w (List.mem_append_left _ hw))
  · have hnone : ∀ w ∈ ws, truth? w ≠ some stop := fun w hw hstop => hearlier ⟨w, hw, hstop⟩
    -- The parts up to the component have values, among which there is the one that is looked for.
    have hupTo : ((front ++ [t]).mapM (value s)).runFrom p₂ = (.ok (ws' ++ [v]), q') := by
      rw [List.mapM_append, Eval.runFrom_bind, hfront, List.mapM_cons]
      dsimp only
      rw [bind_assoc, Eval.runFrom_bind, hv]
      rfl
    obtain ⟨final, hfinal⟩ := findPart_stops hupTo ⟨v, List.mem_append_right _ (List.mem_singleton_self v), hread⟩
    have hpart : (findPart s stop (front ++ t :: back)).runFrom p₂ = (.ok true, final) := by
      have hstop := hfinal back
      rwa [List.append_assoc, List.singleton_append] at hstop
    refine ⟨final, fun later => ?_, fun hall => ?_⟩
    · rw [find_skip hbefore hnone, runFrom_find_cons hparts, Eval.runFrom_bind, hpart]
      rfl
    · have hskip := findPart_skip hfront (fun w hw => hall w (List.mem_append_right _ hw)) (t :: back)
      rw [hpart, runFrom_findPart_cons hv, if_pos hread] at hskip
      exact congrArg Prod.snd hskip

/-- What is reached among the other arguments is reached behind an argument that has been resolved. -/
theorem Reaches.cons {first : Token} {parts : List Token} {us : List Value} {p₁ p₂ : σ}
    (hparts : (first.parts s).runFrom p = (.ok parts, p₁)) (hus : (parts.mapM (value s)).runFrom p₁ = (.ok us, p₂))
    {before : List Token} {arg t : Token} (h : Reaches s before arg p₂ vs t q) :
    Reaches s (first :: before) arg p (us ++ vs) t q := by
  obtain ⟨hbefore, harg, hfront⟩ := h
  rw [← List.append_assoc]
  exact ⟨Token.runFrom_componentValues_cons.2 ⟨_, _, _, _, _, hparts, hus, hbefore, rfl⟩, harg, hfront⟩

theorem Decides.cons {first : Token} {parts : List Token} {us : List Value} {p₁ p₂ : σ}
    (hparts : (first.parts s).runFrom p = (.ok parts, p₁)) (hus : (parts.mapM (value s)).runFrom p₁ = (.ok us, p₂))
    {args : List Token} (h : Decides s stop args p₂) : Decides s stop (first :: args) p := by
  obtain ⟨before, arg, later, ws, t, q, v, q', rfl, hreaches, hv, hread⟩ := h
  exact ⟨first :: before, arg, later, us ++ ws, t, q, v, q', rfl, hreaches.cons hparts hus, hv, hread⟩

/-- A part of the first argument is reached when those before it have been resolved. -/
theorem decides_of_part {arg t : Token} {front back : List Token} {p₁ p' p'' : σ} {v : Value}
    (hparts : (arg.parts s).runFrom p = (.ok (front ++ t :: back), p₁))
    (hfront : (front.mapM (value s)).runFrom p₁ = (.ok vs, p')) (hv : (t.value s).runFrom p' = (.ok v, p''))
    (hread : truth? v = some stop) (args : List Token) : Decides s stop (arg :: args) p :=
  ⟨[], arg, args, [] ++ vs, t, p', v, p'', rfl, ⟨rfl, hparts, hfront⟩, hv, hread⟩

/-- If no component that is reached has the truth value then the first failure ends the search. -/
theorem find_of_error {args : List Token} {e : FormulaError}
    (h : (componentValues s args).runFrom p = (.error e, q)) (hnone : ¬ Decides s stop args p) :
    (find s stop args).runFrom p = (.error e, q) := by
  induction args generalizing p with
  | nil => cases h
  | cons arg args ih =>
    rw [Token.componentValues_cons, Eval.runFrom_bind] at h
    rcases hparts : (arg.parts s).runFrom p with ⟨e' | parts, p₁⟩
    · -- The argument cannot be expanded.
      rw [hparts] at h
      obtain ⟨rfl, rfl⟩ : e' = e ∧ p₁ = q := by simpa using h
      show (arg.parts s >>= fun parts => _).runFrom p = _
      rw [Eval.runFrom_bind, hparts]
    · rw [hparts] at h
      dsimp only at h
      rw [Eval.runFrom_bind] at h
      rw [runFrom_find_cons hparts, Eval.runFrom_bind]
      rcases hus : (parts.mapM (value s)).runFrom p₁ with ⟨e' | us, p₂⟩
      · -- One of its parts cannot be resolved.
        rw [hus] at h
        obtain ⟨rfl, rfl⟩ : e' = e ∧ p₂ = q := by simpa using h
        have hpart : (findPart s stop parts).runFrom p₁ = (.error e', p₂) := by
          refine findPart_of_error hus fun front t back ws p' v p'' hsplit hfront hv hread => ?_
          subst hsplit
          exact hnone (decides_of_part hparts hfront hv hread args)
        rw [hpart]
      · -- All its parts have values, so that the failure is one of the other arguments.
        have hparted : ∀ v ∈ us, truth? v ≠ some stop := by
          intro v hv hread
          obtain ⟨front, t, back, zs, p', p'', rfl, hfront, ht⟩ := Eval.exists_of_mem_mapM hus hv
          exact hnone (decides_of_part hparts hfront ht hread args)
        rw [hus] at h
        dsimp only at h
        rw [bind_pure_comp, Eval.runFrom_map] at h
        rw [findPart_none hus hparted]
        refine ih ?_ fun hdecides => hnone (hdecides.cons hparts hus)
        rcases hrest : (componentValues s args).runFrom p₂ with ⟨e' | ws, q'⟩
        · rw [hrest] at h
          exact h
        · rw [hrest] at h
          cases h

/-- If all components have values then it only matters whether one of these has the truth value. -/
theorem find_of_componentValues (stop : Bool) {args : List Token} (h : (componentValues s args).runFrom p = (.ok vs, q)) :
    ∃ found, ((find s stop args).runFrom p).1 = .ok found ∧ (found = true ↔ ∃ v ∈ vs, truth? v = some stop) := by
  by_cases hvs : ∃ v ∈ vs, truth? v = some stop
  · obtain ⟨final, hfinal⟩ := find_stops h hvs
    have hrun := hfinal []
    rw [List.append_nil] at hrun
    exact ⟨true, by rw [hrun], iff_of_true rfl hvs⟩
  · have hnone : ∀ v ∈ vs, truth? v ≠ some stop := fun v hv hread => hvs ⟨v, hv, hread⟩
    have hrun := find_skip h hnone []
    rw [List.append_nil] at hrun
    exact ⟨false, by rw [hrun]; rfl, iff_of_false Bool.false_ne_true hvs⟩

/-! ### The functions -/

private theorem runFrom_seeking {args : List Token} {found : Bool} (h : (find s stop args).runFrom p = (.ok found, q)) :
    ((seeking stop).apply s args).runFrom p = (.ok (.boolean (if found then stop else !stop)), q) := by
  rw [apply_seeking, Eval.runFrom_map, h]
  rfl

/-- The outcome if all components have values. -/
theorem outcome_seeking (stop : Bool) {args : List Token} (h : (componentValues s args).runFrom p = (.ok vs, q)) :
    ∃ b, (((seeking stop).apply s args).runFrom p).1 = .ok (.boolean b) ∧
      (b = stop ↔ ∃ v ∈ vs, truth? v = some stop) := by
  obtain ⟨found, hfound, hiff⟩ := find_of_componentValues stop h
  refine ⟨if found then stop else !stop, ?_, ?_⟩
  · rw [runFrom_seeking (Prod.ext hfound rfl)]
  · rw [← hiff]
    cases found <;> simp

/-- The values decide, in whatever order they come. -/
theorem outcome_seeking_perm {args args' : List Token} (h : (componentValues s args).runFrom p = (.ok vs, q)) {p' q' : σ}
    {vs' : List Value} (h' : (componentValues s args').runFrom p' = (.ok vs', q')) (hperm : vs'.Perm vs) :
    (((seeking stop).apply s args').runFrom p').1 = (((seeking stop).apply s args).runFrom p).1 := by
  obtain ⟨b, hb, hread⟩ := outcome_seeking stop h
  obtain ⟨b', hb', hread'⟩ := outcome_seeking stop h'
  have hsame : b' = stop ↔ b = stop := by
    rw [hread, hread']
    simp only [hperm.mem_iff]
  have hbool : ∀ b b' stop : Bool, (b' = stop ↔ b = stop) → b' = b := by decide
  rw [hb, hb', hbool b b' stop hsame]

/-- AND looks for a false component, OR for a true one.  The first one that is reached gives the result without a question
about what comes behind it, whatever that is.  If all components have values, the result tells whether there is one,
so that their order and their grouping into tables do not matter.  Otherwise the first failure is the result. -/
theorem seeking_components (settings : Settings) (r : Resolver σ) (n : Nat) (stop : Bool) (p : σ) :
    let s := Scope.withLevels settings r n
    let run := fun args q => ((seeking stop).apply s args).runFrom q
    (∀ args ≠ [], callFunction s (seeking stop).id args = (seeking stop).apply s args) ∧
    (∀ before arg vs t q v q', Reaches s before arg p vs t q → (t.value s).runFrom q = (.ok v, q') →
      truth? v = some stop → ∃ final, (∀ later, run (before ++ arg :: later) p = (.ok (.boolean stop), final)) ∧
        ((∀ w ∈ vs, truth? w ≠ some stop) → final = q')) ∧
    (∀ args vs q, (componentValues s args).runFrom p = (.ok vs, q) → ∃ b,
      (run args p).1 = .ok (.boolean b) ∧ (b = stop ↔ ∃ v ∈ vs, truth? v = some stop) ∧
      (∀ args' p' vs' q', (componentValues s args').runFrom p' = (.ok vs', q') → vs'.Perm vs →
        (run args' p').1 = .ok (.boolean b)) ∧
      (∀ (tables : List (List (List Scalar))) p', (tables.flatten.flatten.map Value.ofScalar).Perm vs →
        (run (tables.map Token.array) p').1 = .ok (.boolean b)) ∧
      ∀ I, r.Steady I → I p → ∃ ts, ((Token.allParts s args).runFrom p).1 = .ok ts ∧
        ∀ args' ts', ((Token.allParts s args').runFrom p).1 = .ok ts' → ts'.Perm ts →
          (run args' p).1 = .ok (.boolean b)) ∧
    ∀ args e q, (componentValues s args).runFrom p = (.error e, q) → ¬ Decides s stop args p →
      run args p = (.error e, q) := by
  intro s run
  refine ⟨fun args hargs => callFunction_seeking hargs, ?_, ?_, ?_⟩
  · intro before arg vs t q v q' hreaches hv hread
    obtain ⟨final, hfinal, hfirst⟩ := find_of_reaches hreaches hv hread
    refine ⟨final, fun later => ?_, hfirst⟩
    exact runFrom_seeking (hfinal later)
  · intro args vs q hvs
    obtain ⟨b, hb, hread⟩ := outcome_seeking stop hvs
    have hperm : ∀ args' p' vs' q', (componentValues s args').runFrom p' = (.ok vs', q') → vs'.Perm vs →
        (run args' p').1 = .ok (.boolean b) := fun args' p' vs' q' hvs' hperm' =>
      (outcome_seeking_perm hvs hvs' hperm').trans hb
    refine ⟨b, hb, hread, hperm, fun tables p' htables => ?_, fun I hr hp => ?_⟩
    · refine hperm _ p' _ p' ?_ htables
      rw [Token.componentValues_tables]
      rfl
    · obtain ⟨ts, hts⟩ := Token.exists_allParts hr hp (congrArg Prod.fst hvs)
      refine ⟨ts, hts, fun args' ts' hts' hparts => ?_⟩
      obtain ⟨vs', hvs', hperm'⟩ := Token.componentValues_perm hr hp hts hts' hparts (congrArg Prod.fst hvs)
      exact hperm args' p vs' _ (Prod.ext hvs' rfl) hperm'
  · intro args e q herror hnone
    have hfail := find_of_error herror hnone
    show ((seeking stop).apply s args).runFrom p = _
    rw [apply_seeking, Eval.runFrom_map, hfail]
    rfl

/-- The area that the name stands for holds a false cell, its second one.  The formula behind it does not exist. -/
theorem seeking_components_nameOfUnion :
    let s := Scope.withLevels {} .nameOfUnion 2
    let lost := Token.shared (.relative 8 8)
    (callFunction s Function.and.id [.text "TRUE", .name 1, lost]).runFrom 0 = (.ok (.boolean false), 4) ∧
    ((callFunction s Function.and.id [.array [[.boolean false, .boolean true], [.text "TRUE"]], .array [[.boolean true]]]).runFrom
      5).1 = .ok (.boolean false) ∧
    (callFunction s Function.and.id [lost, .boolean false]).runFrom 0 = (.error (.noSharedFormula (.relative 8 8)), 0) := by
  intro s lost
  obtain ⟨hcall, hdecided, hresolved, hfails⟩ := seeking_components {} .nameOfUnion 2 false 0
  refine ⟨?_, ?_, ?_⟩
  · have hbefore : (componentValues s [.text "TRUE"]).runFrom 0 = (.ok [.text "TRUE"], 0) := rfl
    have hparts : ((Token.name 1).parts s).runFrom 0 =
        (.ok ([.cell none (.relative 0 0)] ++ .cell none (.relative 1 0) :: [.cell none (.relative 0 1)]), 2) := rfl
    have hfront : ([Token.cell none (.relative 0 0)].mapM (value s)).runFrom 2 = (.ok [.boolean true], 3) := rfl
    have hreaches := Reaches.intro hbefore hparts hfront
    obtain ⟨final, hfinal, hfirst⟩ := hdecided _ _ _ _ _ (.boolean false) 4 hreaches rfl rfl
    obtain rfl : final = 4 := hfirst (by decide)
    exact (congrArg (·.runFrom 0) (hcall _ (List.cons_ne_nil _ _))).trans (hfinal [lost])
  · have hvs : (componentValues s [.text "TRUE", .name 1]).runFrom 0 =
        (.ok [.text "TRUE", .boolean true, .boolean false, .boolean true], 5) := rfl
    obtain ⟨b, -, hread, -, htables, -⟩ := hresolved _ _ _ hvs
    obtain rfl : b = false := hread.2 ⟨.boolean false, by simp, rfl⟩
    have hperm : ([.boolean false, .boolean true] ++ [.text "TRUE", .boolean true] : List Value).Perm
        ([.text "TRUE", .boolean true] ++ [.boolean false, .boolean true]) := List.perm_append_comm
    have htable := htables [[[.boolean false, .boolean true], [.text "TRUE"]], [[.boolean true]]] 5 hperm
    exact (congrArg (fun c => (c.runFrom 5).1) (hcall _ (List.cons_ne_nil _ _))).trans htable
  · have hnone : ¬ Decides s false [lost, .boolean false] 0 := by
      rintro ⟨before, arg, later, vs, t, q, v, q', hargs, hreaches, hv, -⟩
      obtain @⟨ws, ws', front, back, _, p₁, p₂, _, hbefore, hparts, -⟩ := hreaches
      cases before with
      | cons first before =>
        obtain ⟨rfl, -⟩ := List.cons.inj hargs
        cases hbefore
      | nil =>
        obtain ⟨rfl, -⟩ := List.cons.inj hargs
        have hsplit : [lost] = front ++ t :: back := Except.ok.inj (congrArg Prod.fst hparts)
        rcases List.append_eq_singleton_iff.1 hsplit.symm with ⟨-, ht⟩ | ⟨-, ⟨⟩⟩
        obtain ⟨rfl, -⟩ := List.cons.inj ht
        cases hv
    have hfail := hfails [lost, .boolean false] _ _ rfl hnone
    exact (congrArg (·.runFrom 0) (hcall _ (List.cons_ne_nil _ _))).trans hfail

end Logic

end Spreadsheet
