import Spreadsheet.Proofs.Workbook.Settling
import Spreadsheet.Proofs.Workbook.Valuation

/-!
# Coherent values

Values `v` for a set `S` of cells are coherent if they solve the equations of plain evaluation on `S`, and a cell of `S`
that depends on itself is circular.  Then a session finds just these values (`cellValue_coherent`): neither the cache
nor the cuts of long chains can be seen, and it does not matter what was asked for before.

The invariant of the cells in progress is that each of them that lies in `S` depends on the cell that is being looked
up.  So a cell of `S` that is asked for while it is in progress depends on itself, and what the session answers is right
for it.  The same holds of the cells that wait for one another while a long chain is being settled.
-/

namespace Spreadsheet

open Relation

namespace Workbook

variable {wb : Workbook} {S : Set Location} {v : Valuation}

variable (wb) in
/-- With the values of `v`, the formula of one cell asks for another cell. -/
def Asks (v : Valuation) (l d : Location) : Prop :=
  d ∈ wb.asks v l

variable (wb) in
/-- The values of `v` solve the equations of plain evaluation on `S`, and on every cycle they are circular. -/
structure Coherent (S : Set Location) (v : Valuation) : Prop where
  value : ∀ l ∈ S, v l = wb.valueIn v l
  closed : ∀ l ∈ S, ∀ d ∈ wb.asks v l, d ∈ S
  circular : ∀ l ∈ S, TransGen (wb.Asks v) l l → v l = .error .circular

private theorem Coherent.mem_of_transGen (h : wb.Coherent S v) {l d : Location} (hl : l ∈ S)
    (hd : TransGen (wb.Asks v) l d) : d ∈ S := by
  induction hd with
  | single hd => exact h.closed l hl _ hd
  | tail _ hd ih => exact h.closed _ ih _ hd

end Workbook

namespace Session

/-- The cached outcomes of the cells in `S` are those of `v`. -/
def Agrees (S : Set Location) (v : Valuation) (s : Session) : Prop :=
  ∀ l ∈ S, ∀ r, s.cache[l]? = some r → r = v l

variable {S : Set Location} {v : Valuation} {s : Session}

private theorem agrees_new (sheet : Nat) : (Session.new sheet).Agrees S v := by
  intro l _ r hr
  simp [Session.new] at hr

theorem Agrees.store (h : s.Agrees S v) {l : Location} {r : Except FormulaError Scalar} (hr : l ∈ S → r = v l) :
    (s.store l r).Agrees S v := by
  intro l' hl' r' hr'
  rw [Session.cache_store] at hr'
  split at hr'
  · subst l'
    rw [← Option.some.inj hr']
    exact hr hl'
  · exact h l' hl' r' hr'

theorem Agrees.keep (h : s.Agrees S v) {l : Location} {x : Scalar} (hx : l ∈ S → s.deferred = none → .ok x = v l) :
    (s.keep l x).Agrees S v := by
  cases hd : s.deferred with
  | some d =>
    rw [Session.keep_of_cut hd]
    exact h
  | none =>
    rw [Session.keep_of_no_cut hd]
    exact h.store fun hl => hx hl hd

theorem Agrees.conclude {l : Location} {x : Except FormulaError Scalar × Session} (h : x.2.Agrees S v)
    (hx : l ∈ S → x.2.deferred = none → x.1 = v l) : (s.conclude l x).2.Agrees S v := by
  rcases x with ⟨e | y, t⟩
  · exact h
  · exact Agrees.keep (s := t.leave s.currentSheet) h hx

end Session

namespace Workbook

variable {wb : Workbook} {S : Set Location} {v : Valuation}

/-! ### Look-ups -/

/-- What a look-up of `l` from the session `s` has to do: it finds the value of `v`, or notes a cut at a cell that `l`
depends on. -/
structure Finds (wb : Workbook) (S : Set Location) (v : Valuation) (n : Nat) (l : Location) (s : Session)
    (x : Except FormulaError Scalar × Session) : Prop where
  agrees : x.2.Agrees S v
  value : l ∈ S → x.2.deferred = none → x.1 = v l
  cut : l ∈ S → s.deferred = none → ∀ d, x.2.deferred = some d → n = 0 ∧ d = l ∨ TransGen (wb.Asks v) l d

/-- Each cell of `S` in progress depends on the cell `l`. -/
def Leads (wb : Workbook) (S : Set Location) (v : Valuation) (s : Session) (l : Location) : Prop :=
  ∀ p ∈ s.inProgress, p ∈ S → TransGen (wb.Asks v) p l

/-- While a formula outside of `S` is evaluated, no cell of `S` is in progress. -/
theorem agrees_evaluateWithin {n : Nat} (ih : ∀ l s, s.Agrees S v → wb.Leads S v s l →
      wb.Finds S v n l s ((wb.lookUp n l).runFrom s)) (tokens : List Token) {s : Session} (hs : s.Agrees S v)
    (hp : ∀ p ∈ s.inProgress, p ∉ S) : ((wb.evaluateWithin n tokens).runFrom s).2.Agrees S v := by
  have key := (evaluateFormula_isDialogue wb.settings tokens).run_invariant (r := wb.resolverWith (wb.lookUp n))
    (P := fun s t => s.Agrees S v ∧ (∀ p ∈ s.inProgress, p ∉ S) → t.Agrees S v ∧ ∀ p ∈ t.inProgress, p ∉ S)
    (fun _ => id) (fun h h' => h' ∘ h) ?_ s
  · exact (key ⟨hs, hp⟩).1
  · rintro q t ⟨ht, htp⟩
    rcases wb.resolverWith_snd (wb.lookUp n) q t with e | ⟨l, e⟩
    · rw [e]
      exact ⟨ht, htp⟩
    · rw [e, (wb.lookUp_evolves n l t).inProgress]
      exact ⟨(ih l t ht fun p hp hpS => absurd hpS (htp p hp)).agrees, htp⟩

/-- While a formula of `S` is evaluated, the session answers as plain evaluation does, up to the first cut. -/
theorem evaluateWithin_of_mem (h : wb.Coherent S v) {n : Nat} (ih : ∀ l s, s.Agrees S v → wb.Leads S v s l →
      wb.Finds S v n l s ((wb.lookUp n l).runFrom s)) {l : Location} (hl : l ∈ S) {tokens : List Token}
    (ht : wb.formula? l = some tokens) {s : Session} (hs : s.Agrees S v) (hd : s.deferred = none)
    (hp : wb.Leads S v s l) :
    ((wb.evaluateWithin n tokens).runFrom (s.enter l)).2.Agrees S v ∧
      (((wb.evaluateWithin n tokens).runFrom (s.enter l)).2.deferred = none →
        ((wb.evaluateWithin n tokens).runFrom (s.enter l)).1 = v l) ∧
      ∀ d, ((wb.evaluateWithin n tokens).runFrom (s.enter l)).2.deferred = some d → TransGen (wb.Asks v) l d := by
  have key := (evaluateFormula_isDialogue wb.settings tokens).run_related (r := wb.resolverWith (wb.lookUp n))
    (m := wb.resolverIn v l.sheet) (s := s.enter l) (t := [])
    (R := fun t _ => t.Agrees S v ∧ t.deferred = none ∧ t.inProgress = l :: s.inProgress ∧ t.currentSheet = l.sheet)
    (E := fun t => t.Agrees S v ∧ ∃ d, t.deferred = some d ∧ TransGen (wb.Asks v) l d)
    (B := fun log => ∀ d ∈ log, d ∈ wb.asks v l)
    (fun q log hB d hd => hB d (resolverIn_log _ q log hd)) ?_ ?_ ⟨hs, hd, rfl, rfl⟩ ?_
  · rcases key with ⟨e, ha, hn, -, -⟩ | ⟨ha, d, hc, hld⟩
    · refine ⟨ha, fun _ => e.trans ?_, fun d hc => absurd (hn.symm.trans hc) (by simp)⟩
      rw [h.value l hl, valueIn, evaluateIn_of_formula ht]
    · refine ⟨ha, fun hn => absurd (hn.symm.trans hc) (by simp), fun d' hc' => ?_⟩
      obtain rfl := Option.some.inj (hc.symm.trans hc')
      exact hld
  · rintro q t log ⟨ha, hn, hi, hsheet⟩ hB
    cases q with
    | name id =>
      rw [resolverWith_name, resolverIn_name]
      exact .inl ⟨rfl, ha, hn, hi, hsheet⟩
    | shared anchor =>
      rw [resolverWith_shared, resolverIn_shared]
      exact .inl ⟨by rw [hsheet], ha, hn, hi, hsheet⟩
    | cell name a =>
      rw [resolverIn_cell] at hB ⊢
      rw [resolverWith_cell, hsheet]
      cases hj : wb.findSheet l.sheet name with
      | error e => exact .inl ⟨rfl, ha, hn, hi, hsheet⟩
      | ok j =>
        rw [hj] at hB
        dsimp only at hB ⊢
        have hask : wb.Asks v l ⟨j, a.position⟩ := hB _ (List.mem_cons_self ..)
        -- The cells in progress are `l` and those that lead to `l`, and `l` asks for this cell.
        have hlead : wb.Leads S v t ⟨j, a.position⟩ := by
          intro p hpm hpS
          rw [hi] at hpm
          rcases List.mem_cons.1 hpm with rfl | hpm
          · exact .single hask
          · exact (hp p hpm hpS).tail hask
        have hf := ih ⟨j, a.position⟩ t ha hlead
        have he := wb.lookUp_evolves n ⟨j, a.position⟩ t
        have hmem := h.closed l hl _ hask
        cases hcut : ((wb.lookUp n ⟨j, a.position⟩).runFrom t).2.deferred with
        | none =>
          exact .inl ⟨hf.value hmem hcut, hf.agrees, rfl, he.inProgress.trans hi, he.currentSheet.trans hsheet⟩
        | some d =>
          refine .inr ⟨hf.agrees, d, rfl, ?_⟩
          rcases hf.cut hmem hn d hcut with ⟨-, rfl⟩ | hd
          · exact .single hask
          · exact .head hask hd
  · rintro q t ⟨ha, d, hc, hld⟩
    have he := (wb.resolverWith_evolves (wb.lookUp_evolves n) q t).frozen (by rw [hc]; simp)
    rw [he]
    exact ⟨ha, d, hc, hld⟩
  · rw [asks, evaluateIn_of_formula ht]
    exact fun d hd => hd

/-- A look-up finds the value of `v`, or notes a cut at a cell that the one looked up depends on. -/
theorem lookUp_finds (h : wb.Coherent S v) (n : Nat) (l : Location) (s : Session) (hs : s.Agrees S v)
    (hp : wb.Leads S v s l) : wb.Finds S v n l s ((wb.lookUp n l).runFrom s) := by
  induction n using Nat.strongRecOn generalizing l s with
  | _ n ih =>
    by_cases hd : s.deferred = none
    swap
    · rw [show (wb.lookUp n l).runFrom s = (((wb.lookUp n l).runFrom s).1, s) from
        Prod.ext rfl ((wb.lookUp_evolves n l s).frozen hd)]
      exact ⟨hs, fun _ h => absurd h hd, fun _ h => absurd h hd⟩
    have hn : ∀ d, s.deferred ≠ some d := fun d h => by rw [hd] at h; cases h
    rw [lookUp_runFrom]
    cases hl : wb.formula? l with
    | none => exact ⟨hs, fun hm _ => by rw [h.value l hm, valueIn_of_stored hl], fun _ _ d h => absurd h (hn d)⟩
    | some tokens =>
      cases hc : s.cache[l]? with
      | some r => exact ⟨hs, fun hm _ => hs l hm r hc, fun _ _ d h => absurd h (hn d)⟩
      | none =>
        by_cases hi : l ∈ s.inProgress
        · -- A cell of `S` that is in progress depends on itself.
          simp only [hi, if_true]
          exact ⟨hs, fun hm _ => (h.circular l hm (hp l hi hm)).symm, fun _ _ d h => absurd h (hn d)⟩
        · simp only [hi, if_false]
          cases n with
          | zero =>
            have e : (s.defer l).deferred = some l := by simp [Session.defer, hd]
            refine ⟨hs, fun _ h => absurd (e.symm.trans h) (by simp), fun _ _ d h => .inl ⟨rfl, ?_⟩⟩
            exact Option.some.inj (h.symm.trans e)
          | succ n =>
            have ih' := ih n (Nat.lt_succ_self n)
            by_cases hm : l ∈ S
            · obtain ⟨ha, hv, hcut⟩ := evaluateWithin_of_mem h ih' hm hl hs hd hp
              refine ⟨.conclude ha fun _ => hv, fun _ hnone => ?_, fun _ _ d hsome => .inr (hcut d ?_)⟩
              · rw [Session.deferred_conclude] at hnone
                rw [Session.conclude_fst]
                exact hv hnone
              · rwa [Session.deferred_conclude] at hsome
            · have ha := agrees_evaluateWithin ih' tokens (s := s.enter l) hs ?_
              · exact ⟨.conclude ha fun h => absurd h hm, fun h => absurd h hm, fun h => absurd h hm⟩
              · intro p hpm hpS
                rcases List.mem_cons.1 hpm with rfl | hpm
                · exact hm hpS
                · exact hm (h.mem_of_transGen hpS (hp p hpm hpS))

/-! ### Settled cells -/

/-- Of the cells that wait for one another, each one that lies in `S` depends on those above it. -/
def Stacked (wb : Workbook) (S : Set Location) (v : Valuation) (pending : List Location) : Prop :=
  pending.Pairwise fun l w => w ∈ S → TransGen (wb.Asks v) w l

private theorem round_agrees (h : wb.Coherent S v) {l : Location} {waiting : List Location} {s : Session} (hs : s.Idle)
    (ha : s.Agrees S v) (hw : wb.Stacked S v (l :: waiting)) :
    (∃ d t, wb.round l waiting s = .again d (l :: waiting) t ∧ t.Idle ∧ t.Agrees S v ∧
      wb.Stacked S v (d :: l :: waiting)) ∨
    ∃ r t, wb.round l waiting s = handOn r l t waiting ∧ t.Idle ∧ t.Agrees S v ∧ (l ∈ S → r = v l) := by
  have hf := lookUp_finds h maxChain l s ha (by intro p hp; rw [hs.inProgress] at hp; cases hp)
  have hi := (wb.lookUp_evolves maxChain l s).idle_clear hs
  have hcut : l ∈ S → ∀ d, ((wb.lookUp maxChain l).runFrom s).2.deferred = some d → TransGen (wb.Asks v) l d := by
    intro hl d hd
    rcases hf.cut hl hs.deferred d hd with ⟨h0, -⟩ | hld
    · cases h0
    · exact hld
  obtain ⟨hlw, hww⟩ := List.pairwise_cons.1 hw
  rcases wb.round_cases l waiting s with ⟨d, hd, -, e⟩ | ⟨r, e, ⟨hn, rfl⟩ | ⟨d, hdm, hd, rfl⟩⟩
  · refine .inl ⟨d, _, e, hi, hf.agrees, List.pairwise_cons.2 ⟨?_, hw⟩⟩
    intro w hwm hwS
    rcases List.mem_cons.1 hwm with rfl | hwm
    · exact hcut hwS d hd
    · have hwl := hlw w hwm hwS
      exact hwl.trans (hcut (h.mem_of_transGen hwS hwl) d hd)
  · exact .inr ⟨_, _, e, hi, hf.agrees, fun hl => hf.value hl hn⟩
  · -- The chain from `l` was cut at a cell that waits for `l`, so `l` depends on itself.
    refine .inr ⟨_, _, e, hi, hf.agrees, fun hl => (h.circular l hl ?_).symm⟩
    have hld := hcut hl d hd
    rcases List.mem_cons.1 hdm with rfl | hdm
    · exact hld
    · exact hld.trans (hlw d hdm (h.mem_of_transGen hl hld))

/-- Settling a cell keeps the cache in agreement with `v`, and a cell of `S` gets the value of `v`. -/
theorem settle_agrees (h : wb.Coherent S v) (l : Location) {s : Session} (hs : s.Idle) (ha : s.Agrees S v) :
    ((wb.settle wb.attempts l []).runFrom s).2.Idle ∧ ((wb.settle wb.attempts l []).runFrom s).2.Agrees S v ∧
      (l ∈ S → ((wb.settle wb.attempts l []).runFrom s).1 = v l) := by
  refine settle_induction (I := fun l' waiting s => s.Agrees S v ∧ wb.Stacked S v (l' :: waiting) ∧
      (l' :: waiting).getLast? = some l) (Q := fun r t => t.Idle ∧ t.Agrees S v ∧ (l ∈ S → r = v l))
    ?_ ?_ hs ⟨ha, List.pairwise_singleton .., rfl⟩ (budget_le_attempts l s)
  · rintro l' waiting s l'' waiting' s' hs ⟨ha, hw, hlast⟩ hr
    rcases round_agrees h hs ha hw with ⟨d, t, e, hi, ha', hw'⟩ | ⟨r, t, e, hi, ha', hv⟩
    · rw [e] at hr
      cases hr
      exact ⟨hi, ha', hw', by rw [List.getLast?_cons_cons]; exact hlast⟩
    · rw [e] at hr
      cases waiting with
      | nil => cases hr
      | cons next waiting =>
        cases hr
        refine ⟨⟨hi.inProgress, hi.deferred⟩, ha'.store hv, (List.pairwise_cons.1 hw).2, ?_⟩
        rw [List.getLast?_cons_cons] at hlast
        exact hlast
  · rintro l' waiting s r' s' hs ⟨ha, hw, hlast⟩ hr
    rcases round_agrees h hs ha hw with ⟨d, t, e, hi, ha', hw'⟩ | ⟨r, t, e, hi, ha', hv⟩
    · rw [e] at hr
      cases hr
    · rw [e] at hr
      cases waiting with
      | nil =>
        cases hr
        obtain rfl : l' = l := Option.some.inj hlast
        exact ⟨hi, ha', hv⟩
      | cons next waiting => cases hr

/-! ### Whole sessions -/

variable (wb) in
/-- The sessions for a sheet that can come about: cells and questions are asked for one after the other, whatever their
outcomes are. -/
inductive Reached (sheet : Nat) : Session → Prop
  | new : Reached sheet (Session.new sheet)
  | value {s : Session} (l : Location) : Reached sheet s → Reached sheet ((wb.cellValue l).runFrom s).2
  | question {s : Session} (q : Question) : Reached sheet s → Reached sheet ((wb.resolver.answer q).runFrom s).2

/-- To evaluate a formula in a session is to ask it some questions. -/
theorem Reached.evaluate {sheet : Nat} {s : Session} (hs : wb.Reached sheet s) (tokens : List Token) :
    wb.Reached sheet ((evaluateValue wb.scope tokens).runFrom s).2 :=
  (evaluateValue_isDialogue wb.settings tokens).run_invariant (r := wb.resolver)
    (P := fun s t => wb.Reached sheet s → wb.Reached sheet t) (fun _ => id) (fun h h' => h' ∘ h)
    (fun q _ => .question q) s hs

/-- Whatever was asked for before, the cache agrees with coherent values. -/
theorem Reached.agrees (h : wb.Coherent S v) {sheet : Nat} {s : Session} (hs : wb.Reached sheet s) :
    s.Idle ∧ s.Agrees S v := by
  induction hs with
  | new => exact ⟨Session.idle_new sheet, Session.agrees_new sheet⟩
  | value l _ ih =>
    obtain ⟨hi, ha, -⟩ := settle_agrees h l ih.1 ih.2
    exact ⟨hi, ha⟩
  | @question s q _ ih =>
    rcases wb.resolverWith_snd (fun l => wb.settle wb.attempts l []) q s with e | ⟨l, e⟩
    · rw [show ((wb.resolver.answer q).runFrom s).2 = s from e]
      exact ih
    · rw [show ((wb.resolver.answer q).runFrom s).2 = _ from e]
      obtain ⟨hi, ha, -⟩ := settle_agrees h l ih.1 ih.2
      exact ⟨hi, ha⟩

/-- Between two questions no cell is in progress. -/
theorem Reached.idle {sheet : Nat} {s : Session} (hs : wb.Reached sheet s) : s.Idle := by
  have h : wb.Coherent ∅ fun _ => .ok .empty := ⟨fun _ h => h.elim, fun _ h => h.elim, fun _ h => h.elim⟩
  exact (hs.agrees h).1

/-- The outcome of a cell in a session is the coherent one. -/
theorem cellValue_coherent (h : wb.Coherent S v) {sheet : Nat} {s : Session} (hs : wb.Reached sheet s) {l : Location}
    (hl : l ∈ S) : ((wb.cellValue l).runFrom s).1 = v l := by
  obtain ⟨hi, ha⟩ := hs.agrees h
  exact (settle_agrees h l hi ha).2.2 hl

end Workbook

end Spreadsheet
