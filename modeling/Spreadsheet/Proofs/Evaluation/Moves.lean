import Mathlib.Logic.Relation
import Spreadsheet.Proofs.Evaluation.Contract
import Spreadsheet.Proofs.Evaluation.OneStep

/-!
# Moves of the stack machine

A run of the machine, taken apart into moves from one configuration to the next.  A configuration that cannot move has
an outcome (`Machine.Stops`), and the run from a configuration has the outcome of the one where its moves end
(`Machine.exists_moves`).  So what every move keeps up, holds where the run ends.

If the numbers in a formula and in the definitions are as a contract has them, and so are all numbers that come out of
a tally on the way, then the evaluation of the formula keeps the contract (`evaluateToken_keeps`).
-/

namespace Spreadsheet

open Relation

variable {σ : Type} {s : Scope σ}

/-! ### The kinds of tokens -/

/-- The operation of a token that takes operands from the stack. -/
def Token.operation? : Token → Option Operation
  | operator op => some (.operator op)
  | control .sum => some .sum
  | call id n returnsArray => some (.call id n returnsArray)
  | _ => none

/-- An operand, a token without an effect, a shared formula, or an operation. -/
theorem Token.kind_cases (t : Token) :
    t.isLeaf ∨ t.isInert ∨ (∃ anchor, t = .shared anchor) ∨ ∃ f : Operation, t = f.token := by
  cases t with
  | operator op => exact .inr (.inr (.inr ⟨.operator op, rfl⟩))
  | control c =>
    cases c with
    | sum => exact .inr (.inr (.inr ⟨.sum, rfl⟩))
    | _ => exact .inr (.inl rfl)
  | call id n array => exact .inr (.inr (.inr ⟨.call id n array, rfl⟩))
  | shared anchor => exact .inr (.inr (.inl ⟨anchor, rfl⟩))
  | _ => exact .inl rfl

theorem Operation.operation?_token (f : Operation) : f.token.operation? = some f := by
  cases f <;> rfl

/-- The token stands for an operation that adds up or counts. -/
def Token.isTally (t : Token) : Bool :=
  t.operation?.any Operation.isTally

private theorem Operation.isTally_token (f : Operation) : f.token.isTally = f.isTally := by
  rw [Token.isTally, f.operation?_token, Option.any_some]

private theorem Operation.token_injective {f g : Operation} (h : f.token = g.token) : f = g := by
  have hop := f.operation?_token
  rw [h, g.operation?_token] at hop
  exact (Option.some.inj hop).symm

theorem Token.operation?_of_isInert {t : Token} (ht : t.isInert) : t.operation? = none := by
  cases t with
  | control c =>
    cases c with
    | sum => cases ht
    | _ => rfl
  | _ => cases ht

theorem Token.operation?_of_isLeaf {t : Token} (ht : t.isLeaf) : t.operation? = none ∧ t.isInert = false := by
  cases t with
  | shared | operator | control | call => cases ht
  | _ => exact ⟨rfl, rfl⟩

namespace Machine

theorem runFor_nil (k : Nat) (stack : Stack) : runFor s k [] stack = finish stack := by
  obtain ⟨splice, h⟩ := runFor_eq (s := s) k
  rw [h, runWith]

theorem runFor_leaf (k : Nat) {t : Token} (ht : t.isLeaf) (rest : List Token) (stack : Stack) :
    runFor s k (t :: rest) stack = runFor s k rest (t :: stack) := by
  obtain ⟨splice, h⟩ := runFor_eq (s := s) k
  rw [h, runWith_leaf ht]

theorem runFor_inert (k : Nat) {t : Token} (ht : t.isInert) (rest : List Token) (stack : Stack) :
    runFor s k (t :: rest) stack = runFor s k rest stack := by
  obtain ⟨splice, h⟩ := runFor_eq (s := s) k
  rw [h, runWith_inert ht]

theorem runFor_operation (k : Nat) (f : Operation) (rest : List Token) (stack : Stack) :
    runFor s k (f.token :: rest) stack =
      step s f.token f.arity stack >>= fun stack => runFor s k rest stack := by
  obtain ⟨splice, h⟩ := runFor_eq (s := s) k
  rw [h, f.runWith_token]

private theorem runFor_shared_zero (anchor : CellAddress) (rest : List Token) (stack : Stack) :
    runFor s 0 (.shared anchor :: rest) stack = runFor s 0 rest (.ofFault .circular :: stack) := rfl

theorem runFor_shared_succ (k : Nat) (anchor : CellAddress) (rest : List Token) (stack : Stack) :
    runFor s (k + 1) (.shared anchor :: rest) stack = (s.resolver.shared anchor).observe >>= fun x => match x with
      | .ok body => runFor s k (body ++ rest) stack
      | .error e =>
        match e.fault? with
        | some f => runFor s k rest (.ofFault f :: stack)
        | none => throw e := rfl

/-! ### Configurations -/

/-- The machine in the middle of a run. -/
structure Config (σ : Type) where
  splices : Nat
  tokens : List Token
  stack : Stack
  state : σ

/-- The outcome of the run from a configuration. -/
def Config.outcome (s : Scope σ) (c : Config σ) : Except FormulaError Token × σ :=
  (runFor s c.splices c.tokens c.stack).runFrom c.state

/-- The machine deals with its first token. -/
inductive Moves (s : Scope σ) : Config σ → Config σ → Prop
  | push {k t rest stack p} (ht : t.isLeaf) : Moves s ⟨k, t :: rest, stack, p⟩ ⟨k, rest, t :: stack, p⟩
  | skip {k t rest stack p} (ht : t.isInert) : Moves s ⟨k, t :: rest, stack, p⟩ ⟨k, rest, stack, p⟩
  | operate {k rest stack stack' p p'} (f : Operation)
      (h : (step s f.token f.arity stack).runFrom p = (.ok stack', p')) :
      Moves s ⟨k, f.token :: rest, stack, p⟩ ⟨k, rest, stack', p'⟩
  | exhausted {anchor rest stack p} :
      Moves s ⟨0, .shared anchor :: rest, stack, p⟩ ⟨0, rest, .ofFault .circular :: stack, p⟩
  | splice {k anchor rest stack p body p'} (h : (s.resolver.shared anchor).runFrom p = (.ok body, p')) :
      Moves s ⟨k + 1, .shared anchor :: rest, stack, p⟩ ⟨k, body ++ rest, stack, p'⟩
  | missing {k anchor rest stack p e f p'} (h : (s.resolver.shared anchor).runFrom p = (.error e, p'))
      (hf : e.fault? = some f) :
      Moves s ⟨k + 1, .shared anchor :: rest, stack, p⟩ ⟨k, rest, .ofFault f :: stack, p'⟩

/-- The machine has read all tokens, or cannot deal with the first one. -/
inductive Stops (s : Scope σ) : Config σ → Except FormulaError Token × σ → Prop
  | finish {k stack p} : Stops s ⟨k, [], stack, p⟩ ((finish stack).runFrom p)
  | defect {k rest stack p e p'} (f : Operation)
      (h : (step s f.token f.arity stack).runFrom p = (.error e, p')) :
      Stops s ⟨k, f.token :: rest, stack, p⟩ (.error e, p')
  | lost {k anchor rest stack p e p'} (h : (s.resolver.shared anchor).runFrom p = (.error e, p'))
      (hf : e.fault? = none) : Stops s ⟨k + 1, .shared anchor :: rest, stack, p⟩ (.error e, p')

/-- A configuration stops, or moves on to one whose run has the same outcome. -/
theorem stops_or_moves (c : Config σ) :
    Stops s c (c.outcome s) ∨ ∃ c', Moves s c c' ∧ c'.outcome s = c.outcome s := by
  obtain ⟨k, tokens, stack, p⟩ := c
  cases tokens with
  | nil =>
    rw [Config.outcome, runFor_nil]
    exact .inl .finish
  | cons t rest =>
    rcases t.kind_cases with ht | ht | ⟨anchor, rfl⟩ | ⟨f, rfl⟩
    · exact .inr ⟨_, .push ht, by rw [Config.outcome, Config.outcome, runFor_leaf k ht]⟩
    · exact .inr ⟨_, .skip ht, by rw [Config.outcome, Config.outcome, runFor_inert k ht]⟩
    · cases k with
      | zero => exact .inr ⟨_, .exhausted, by rw [Config.outcome, Config.outcome, runFor_shared_zero]⟩
      | succ k =>
        rw [Config.outcome, runFor_shared_succ, Eval.runFrom_observe_bind]
        rcases h : (s.resolver.shared anchor).runFrom p with ⟨e | body, p'⟩
        · dsimp only
          cases hf : e.fault? with
          | none => exact .inl (.lost h hf)
          | some f => exact .inr ⟨_, .missing h hf, rfl⟩
        · exact .inr ⟨_, .splice h, rfl⟩
    · rw [Config.outcome, runFor_operation, Eval.runFrom_bind]
      rcases h : (step s f.token f.arity stack).runFrom p with ⟨e | stack', p'⟩
      · exact .inl (.defect f h)
      · exact .inr ⟨_, .operate f h, rfl⟩

/-- A move uses up a splice, or a token and no splice. -/
theorem Moves.lt {c c' : Config σ} (h : Moves s c c') :
    c'.splices < c.splices ∨ c'.splices = c.splices ∧ c'.tokens.length < c.tokens.length := by
  cases h with
  | push | skip | operate | exhausted => exact .inr ⟨rfl, Nat.lt_succ_self _⟩
  | splice | missing => exact .inl (Nat.lt_succ_self _)

/-- The outcome of a run is that of the configuration where its moves end. -/
theorem exists_moves (c : Config σ) : ∃ c', ReflTransGen (Moves s) c c' ∧ Stops s c' (c.outcome s) := by
  -- The splices that are left, and for each number of them the tokens still to come, become fewer.
  have hwf : WellFounded (InvImage (Prod.Lex (· < ·) (· < ·)) fun c : Config σ => (c.splices, c.tokens.length)) :=
    InvImage.wf _ (WellFounded.prod_lex Nat.lt_wfRel.wf Nat.lt_wfRel.wf)
  induction c using hwf.induction with
  | _ c ih =>
    rcases stops_or_moves (s := s) c with h | ⟨c₁, hmove, houtcome⟩
    · exact ⟨c, .refl, h⟩
    · have hlt : Prod.Lex (· < ·) (· < ·) (c₁.splices, c₁.tokens.length) (c.splices, c.tokens.length) := by
        rcases hmove.lt with hk | ⟨hk, hlength⟩
        · exact .left _ _ hk
        · rw [hk]
          exact .right _ hlength
      obtain ⟨c', hmoves, hstops⟩ := ih c₁ hlt
      exact ⟨c', .head hmove hmoves, houtcome ▸ hstops⟩

/-- What every move keeps up holds where the run ends. -/
theorem outcome_invariant {I : Config σ → Prop} {Q : Except FormulaError Token × σ → Prop}
    (move : ∀ c c', I c → Moves s c c' → I c') (stop : ∀ c x, I c → Stops s c x → Q x) {c : Config σ} (h : I c) :
    Q (c.outcome s) := by
  obtain ⟨c', hmoves, hstops⟩ := exists_moves (s := s) c
  have hc' : I c' := by
    clear hstops
    induction hmoves with
    | refl => exact h
    | tail _ hmove ih => exact move _ _ ih hmove
  exact stop c' _ hc' hstops

/-- On the way from a configuration, the operand comes out of a function that adds up or counts. -/
def Tallies (s : Scope σ) (c : Config σ) (t : Token) : Prop :=
  ∃ (k : Nat) (f : Operation) (rest : List Token) (stack stack' : Stack) (p p' : σ), f.isTally ∧
    ReflTransGen (Moves s) c ⟨k, f.token :: rest, stack, p⟩ ∧
    (step s f.token f.arity stack).runFrom p = (.ok (t :: stack'), p')

/-- A token that the machine comes to was there before, or it is in the body of a shared formula. -/
theorem Moves.mem_tokens {g g' : Config σ} (h : Moves s g g') {t : Token} (ht : t ∈ g'.tokens) :
    t ∈ g.tokens ∨ ∃ anchor p body p', (s.resolver.shared anchor).runFrom p = (.ok body, p') ∧ t ∈ body := by
  cases h with
  | push | skip | operate | exhausted | missing => exact .inl (List.mem_cons_of_mem _ ht)
  | @splice k anchor rest stack p body p' hbody =>
    rcases List.mem_append.1 ht with ht | ht
    · exact .inr ⟨anchor, p, body, p', hbody, ht⟩
    · exact .inl (List.mem_cons_of_mem _ ht)

/-- Nothing tallies if no token of the formula and of shared formulas does. -/
theorem not_tallies {start : Config σ} (htokens : ∀ t ∈ start.tokens, t.isTally = false)
    (hshared : ∀ anchor p body p', (s.resolver.shared anchor).runFrom p = (.ok body, p') →
      ∀ t ∈ body, t.isTally = false) {t : Token} : ¬Tallies s start t := by
  rintro ⟨k, f, rest, stack, -, p, -, hf, hmoves, -⟩
  have hreached : ∀ g, ReflTransGen (Moves s) start g → ∀ t ∈ g.tokens, t.isTally = false := by
    intro g hg
    induction hg with
    | refl => exact htokens
    | tail _ hmove ih =>
      intro t ht
      rcases hmove.mem_tokens ht with ht | ⟨anchor, p, body, p', hbody, ht⟩
      · exact ih t ht
      · exact hshared anchor p body p' hbody t ht
  have htally := hreached _ hmoves f.token (List.mem_cons_self ..)
  rw [f.isTally_token, hf] at htally
  cases htally

theorem not_tallies_nil {k : Nat} {stack : Stack} {p : σ} {t : Token} : ¬Tallies s ⟨k, [], stack, p⟩ t := by
  rintro ⟨k', f, rest, stack', -, p', -, -, hmoves, -⟩
  rcases hmoves.cases_head with heq | ⟨g, hmove, -⟩
  · cases heq
  · cases hmove

/-- An operand only goes on the stack. -/
theorem Tallies.of_leaf {k : Nat} {u : Token} (hu : u.isLeaf) {rest : List Token} {stack : Stack} {p : σ} {t : Token}
    (h : Tallies s ⟨k, u :: rest, stack, p⟩ t) : Tallies s ⟨k, rest, u :: stack, p⟩ t := by
  obtain ⟨hnone, hinert⟩ := Token.operation?_of_isLeaf hu
  obtain ⟨k', f, rest', stack', stack'', p', p'', hf, hmoves, hstep⟩ := h
  rcases hmoves.cases_head with heq | ⟨g, hmove, hmoves⟩
  · cases heq
    rw [f.operation?_token] at hnone
    cases hnone
  · cases hmove with
    | push => exact ⟨k', f, rest', stack', stack'', p', p'', hf, hmoves, hstep⟩
    | skip ht =>
      rw [hinert] at ht
      cases ht
    | operate g =>
      rw [g.operation?_token] at hnone
      cases hnone
    | exhausted | splice | missing => cases hu

/-- An operation tallies, or what follows it does. -/
theorem Tallies.of_operation {k : Nat} (f : Operation) {rest : List Token} {stack : Stack} {p : σ} {t : Token}
    (h : Tallies s ⟨k, f.token :: rest, stack, p⟩ t) :
    ∃ stack' p', (step s f.token f.arity stack).runFrom p = (.ok stack', p') ∧
      (f.isTally ∧ stack'.head? = some t ∨ Tallies s ⟨k, rest, stack', p'⟩ t) := by
  obtain ⟨k', f', rest', stack₁, stack₂, p₁, p₂, hf, hmoves, hstep⟩ := h
  rcases hmoves.cases_head with heq | ⟨g, hmove, hmoves⟩
  · obtain ⟨rfl, htokens, rfl, rfl⟩ := Config.mk.inj heq
    obtain ⟨htoken, rfl⟩ := List.cons.inj htokens
    obtain rfl := Operation.token_injective htoken
    exact ⟨_, _, hstep, .inl ⟨hf, rfl⟩⟩
  · have hop := f.operation?_token
    generalize hu : f.token = u at hmove hop
    cases hmove with
    | push ht =>
      rw [(Token.operation?_of_isLeaf ht).1] at hop
      cases hop
    | skip ht =>
      rw [Token.operation?_of_isInert ht] at hop
      cases hop
    | @operate _ _ _ stack' _ p' g' h =>
      obtain rfl := Operation.token_injective hu
      exact ⟨stack', p', h, .inr ⟨k', f', rest', stack₁, stack₂, p₁, p₂, hf, hmoves, hstep⟩⟩
    | exhausted | splice | missing => cases hop

end Machine

/-! ### Evaluation keeps a contract -/

/-- Defects in how the tokens of a formula fit together. -/
def FormulaError.isStructural : FormulaError → Bool
  | stackUnderflow .. | unbalancedStack _ | functionNotSupported _ => true
  | _ => false

open Machine

/-- A configuration on the way from another one that is as a contract has it. -/
structure Machine.Config.Honours (s : Scope σ) (c : Contract σ) (g start : Config σ) : Prop where
  state : c.state g.state
  tokens : ∀ t ∈ g.tokens, t.Within c.number
  stack : ∀ t ∈ g.stack, c.Operand t
  reached : ReflTransGen (Moves s) start g

section

variable {c : Contract σ} (hs : s.Honours c)
include hs

private theorem Machine.Config.Honours.move (hdefinition : ∀ body, c.definition body → ∀ t ∈ body, t.Within c.number)
    (hstructural : ∀ e, e.isStructural → c.failure e) {start : Config σ}
    (htally : ∀ t, Tallies s start t → t.Within c.number) {g g' : Config σ} (h : g.Honours s c start)
    (hmove : Moves s g g') : g'.Honours s c start := by
  have hreached := h.reached.tail hmove
  obtain ⟨hstate, htokens, hstack, hfrom⟩ := h
  cases hmove with
  | push ht =>
    obtain ⟨hhead, hrest⟩ := List.forall_mem_cons.1 htokens
    exact ⟨hstate, hrest, List.forall_mem_cons.2 ⟨⟨ht, hhead⟩, hstack⟩, hreached⟩
  | skip ht => exact ⟨hstate, (List.forall_mem_cons.1 htokens).2, hstack, hreached⟩
  | exhausted =>
    exact ⟨hstate, (List.forall_mem_cons.1 htokens).2, List.forall_mem_cons.2 ⟨⟨rfl, trivial⟩, hstack⟩, hreached⟩
  | @splice k anchor rest stack p body p' hbody =>
    have hmeets := hs.shared anchor p hstate
    rw [hbody] at hmeets
    refine ⟨hmeets.1, fun t ht => ?_, hstack, hreached⟩
    rcases List.mem_append.1 ht with ht | ht
    · exact hdefinition body hmeets.2 t ht
    · exact htokens t (List.mem_cons_of_mem _ ht)
  | @missing k anchor rest stack p e f p' hbody hf =>
    have hmeets := hs.shared anchor p hstate
    rw [hbody] at hmeets
    exact ⟨hmeets.1, (List.forall_mem_cons.1 htokens).2, List.forall_mem_cons.2 ⟨⟨rfl, trivial⟩, hstack⟩, hreached⟩
  | @operate k rest stack stack' p p' f hstep =>
    have hmeets := step_keeps hs f hstack (fun id n array _ _ => hstructural _ rfl) (fun _ => hstructural _ rfl) p
      hstate
    rw [hstep] at hmeets
    obtain ⟨hstate', t, rfl, hleaf, hwithin⟩ := hmeets
    -- What a step says nothing about is exactly what the condition on tallies is for.
    have ht : t.Within c.number := by
      cases hf : f.isTally with
      | false => exact hwithin hf
      | true => exact htally t ⟨k, f, rest, stack, _, p, p', hf, hfrom, hstep⟩
    refine ⟨hstate', (List.forall_mem_cons.1 htokens).2, List.forall_mem_cons.2 ⟨⟨hleaf, ht⟩, fun u hu => ?_⟩, hreached⟩
    exact hstack u (List.mem_of_mem_drop hu)

theorem Machine.Config.Honours.stop (hstructural : ∀ e, e.isStructural → c.failure e) {start g : Config σ}
    {x : Except FormulaError Token × σ} (h : g.Honours s c start) (hstop : Stops s g x) :
    c.state x.2 ∧ Eval.Satisfies c.Operand c.failure x.1 := by
  obtain ⟨hstate, htokens, hstack, -⟩ := h
  cases hstop with
  | @finish k stack p =>
    unfold finish
    split
    · exact ⟨hstate, hstack _ (List.mem_singleton.2 rfl)⟩
    · exact ⟨hstate, hstructural _ rfl⟩
  | @defect k rest stack p e p' f hstep =>
    have hmeets := step_keeps hs f hstack (fun id n array _ _ => hstructural _ rfl) (fun _ => hstructural _ rfl) p
      hstate
    rw [hstep] at hmeets
    exact hmeets
  | @lost k anchor rest stack p e p' hbody hf =>
    have hmeets := hs.shared anchor p hstate
    rw [hbody] at hmeets
    exact hmeets

/-- A formula keeps a contract if the numbers in it and in all definitions are as the contract has them, and so are
those that come out of tallies. -/
theorem evaluateToken_keeps (hdefinition : ∀ body, c.definition body → ∀ t ∈ body, t.Within c.number)
    (hstructural : ∀ e, e.isStructural → c.failure e) {tokens : List Token}
    (htokens : ∀ t ∈ tokens, t.Within c.number)
    (htally : ∀ p, c.state p → ∀ t, Tallies s ⟨s.settings.maxNestingDepth, tokens, [], p⟩ t → t.Within c.number) :
    (evaluateToken s tokens).Keeps c c.Operand := by
  intro p hp
  exact outcome_invariant (fun g g' h hmove => Config.Honours.move hs hdefinition hstructural (htally p hp) h hmove)
    (fun g x h hstop => Config.Honours.stop hs hstructural h hstop)
    (c := ⟨s.settings.maxNestingDepth, tokens, [], p⟩)
    ⟨hp, htokens, fun t ht => absurd ht List.not_mem_nil, .refl⟩

end

end Spreadsheet
