import Spreadsheet.Formula.Rendering
import Spreadsheet.Proofs.Evaluation.Verdict

/-!
# Rendering and the structure of a formula

A formula is written by a stack machine of its own, with texts in the places of operands.  Its tokens take as many texts as
they take operands in an evaluation.  Only parentheses differ: evaluation passes over them, and here they go around the
last text.  So if there always is one (`ParensEnclose`), and if all functions exist, then the failure of rendering is the
first defect of the structure (`Rendering.failure?_run`), as it is for evaluation without data (`renderFormula_agrees`).
Parentheses around nothing are an error of rendering alone (`renderFormula_of_not_parensEnclose`).
-/

namespace Spreadsheet

/-! ### The depth of the stack -/

/-- How many operands there are on the stack after a token. -/
def Token.depthAfter (depth : Nat) (t : Token) : Nat :=
  match t.operation? with
  | some f => depth - f.arity + 1
  | none => if t.isInert then depth else depth + 1

/-- An operation, a token without an effect, or an operand. -/
theorem Token.role_cases (t : Token) : (∃ f : Operation, t = f.token) ∨ t.isInert ∨ t.isOperand := by
  rcases t.kind_cases with ht | ht | ⟨anchor, rfl⟩ | hoperation
  · cases t with
    | shared | operator | control | call => cases ht
    | _ => exact .inr (.inr rfl)
  · exact .inr (.inl ht)
  · exact .inr (.inr rfl)
  · exact .inl hoperation

private theorem Token.operation?_of_isOperand {t : Token} (ht : t.isOperand) :
    t.operation? = none ∧ t.isInert = false := by
  cases t with
  | operator | control | call => cases ht
  | _ => exact ⟨rfl, rfl⟩

private theorem Token.depthAfter_token (f : Operation) (depth : Nat) :
    f.token.depthAfter depth = depth - f.arity + 1 := by
  rw [depthAfter, f.operation?_token]

private theorem Token.depthAfter_of_isInert {t : Token} (ht : t.isInert) (depth : Nat) :
    t.depthAfter depth = depth := by
  rw [depthAfter, operation?_of_isInert ht]
  exact if_pos ht

private theorem Token.depthAfter_pos {t : Token} (ht : t.isInert = false) (depth : Nat) : 0 < t.depthAfter depth := by
  unfold depthAfter
  split
  · exact Nat.succ_pos _
  · rw [if_neg (by simp [ht])]
    exact Nat.succ_pos _

private theorem Token.depthAfter_of_isOperand {t : Token} (ht : t.isOperand) (depth : Nat) :
    t.depthAfter depth = depth + 1 := by
  obtain ⟨hoperation, hinert⟩ := operation?_of_isOperand ht
  rw [depthAfter, hoperation]
  exact if_neg (by simp [hinert])

/-! ### Parentheses -/

/-- All parentheses stand where at least one operand is on the stack, if there are `depth` operands before the first
token. -/
def ParensEnclose (depth : Nat) (tokens : List Token) : Prop :=
  ∀ before after, tokens = before ++ .control .paren :: after → 0 < before.foldl Token.depthAfter depth

private theorem parensEnclose_nil (depth : Nat) : ParensEnclose depth [] :=
  fun _ _ h => absurd h.symm (by simp)

private theorem parensEnclose_cons {depth : Nat} {t : Token} {rest : List Token} : ParensEnclose depth (t :: rest) ↔
    (t = .control .paren → 0 < depth) ∧ ParensEnclose (t.depthAfter depth) rest := by
  constructor
  · intro h
    refine ⟨?_, fun before after hrest => ?_⟩
    · rintro rfl
      exact h [] rest rfl
    · exact h (t :: before) after (congrArg (t :: ·) hrest)
  · rintro ⟨ht, hrest⟩ before after h
    cases before with
    | nil =>
      obtain ⟨rfl, -⟩ := List.cons.inj h
      exact ht rfl
    | cons u before =>
      obtain ⟨rfl, hbefore⟩ := List.cons.inj h
      exact hrest before after hbefore

/-- Once there is an operand on the stack, there always is one. -/
theorem parensEnclose_of_pos {depth : Nat} (h : 0 < depth) (tokens : List Token) : ParensEnclose depth tokens := by
  induction tokens generalizing depth with
  | nil => exact parensEnclose_nil depth
  | cons t rest ih =>
    refine parensEnclose_cons.2 ⟨fun _ => h, ih ?_⟩
    cases ht : t.isInert with
    | true => rwa [Token.depthAfter_of_isInert ht]
    | false => exact Token.depthAfter_pos ht depth

/-! ### Defects -/

private theorem structuralError?_token (f : Operation) (depth : Nat) (rest : List Token) :
    structuralError? depth (f.token :: rest) =
      (f.defect? depth).or (structuralError? (f.token.depthAfter depth) rest) := by
  simp only [structuralError?, Token.depthAfter, f.operation?_token]

private theorem structuralError?_of_none {t : Token} (ht : t.operation? = none) (depth : Nat) (rest : List Token) :
    structuralError? depth (t :: rest) = structuralError? (t.depthAfter depth) rest := by
  simp only [structuralError?, Token.depthAfter, ht]

/-- An operation whose function exists can only lack operands. -/
theorem Operation.defect?_of_exists {f : Operation}
    (hcall : ∀ id n array, f = .call id n array → (Function.ofId? id).isSome) (depth : Nat) :
    f.defect? depth = if depth < f.arity then some (.stackUnderflow f.token.display f.arity depth) else none := by
  unfold defect?
  split
  · rfl
  · cases f with
    | call id n array => exact if_neg (by simp [Option.isSome_iff_ne_none.1 (hcall id n array rfl)])
    | _ => rfl

/-! ### Failures -/

/-- The error of a computation that fails. -/
def failure? {α : Type} : Except FormulaError α → Option FormulaError
  | .ok _ => none
  | .error e => some e

private theorem failure?_eq_some_iff {α : Type} {x : Except FormulaError α} {e : FormulaError} :
    failure? x = some e ↔ x = .error e := by
  cases x <;> simp [failure?]

private theorem failure?_eq_none_iff {α : Type} {x : Except FormulaError α} : failure? x = none ↔ ∃ a, x = .ok a := by
  cases x <;> simp [failure?]

/-- Without data, evaluation fails with the first defect of the structure. -/
theorem failure?_evaluateToken {σ : Type} (settings : Settings) (tokens : List Token) (p : σ) :
    failure? ((evaluateToken (Scope.of settings Resolver.blank) tokens).runFrom p).1 = structuralError? 0 tokens := by
  have hnil : ∀ t ∈ ([] : Machine.Stack), t.isLeaf := fun t ht => absurd ht List.not_mem_nil
  let s := Scope.of settings (Resolver.blank (σ := σ))
  have hrun := runFor_blank settings p settings.maxNestingDepth s.settings.maxNestingDepth tokens hnil
  cases herror : structuralError? 0 tokens with
  | some e =>
    rw [List.length_nil, herror] at hrun
    exact failure?_eq_some_iff.2 (congrArg Prod.fst hrun)
  | none =>
    rw [List.length_nil, herror] at hrun
    obtain ⟨t, -, hrun⟩ := hrun
    exact failure?_eq_none_iff.2 ⟨t, congrArg Prod.fst hrun⟩

namespace Rendering

variable {ts : List Token} {stack : List String}

/-! ### The machine with texts -/

private theorem run_operand {t : Token} (ht : t.isOperand) : run (t :: ts) stack = run ts (t.display :: stack) := by
  cases t with
  | operator | control | call => cases ht
  | _ => rfl

private theorem run_operation (f : Operation) : run (f.token :: ts) stack =
    if stack.length < f.arity then .error (.stackUnderflow f.token.display f.arity stack.length) else
    run ts (apply f.token (stack.take f.arity).reverse :: stack.drop f.arity) := by
  cases f <;> rfl

private theorem run_paren_nil : run (.control .paren :: ts) [] = .error (.stackUnderflow "()" 1 0) :=
  rfl

private theorem run_paren_cons (s : String) :
    run (.control .paren :: ts) (s :: stack) = run ts (apply (.control .paren) [s] :: stack) :=
  rfl

private theorem run_inert {t : Token} (ht : t.isInert) (hparen : t ≠ .control .paren) :
    run (t :: ts) stack = run ts stack := by
  cases t with
  | control c =>
    cases c with
    | paren => exact absurd rfl hparen
    | sum => cases ht
    | _ => rfl
  | _ => cases ht

/-- With as many texts on the stack as there are operands, and with parentheses around texts only, the failure of rendering
is the first defect of the structure. -/
theorem failure?_run (tokens : List Token) (stack : List String) (hparens : ParensEnclose stack.length tokens)
    (hcalls : ∀ id n array, .call id n array ∈ tokens → (Function.ofId? id).isSome) :
    failure? (run tokens stack) = structuralError? stack.length tokens := by
  induction tokens generalizing stack with
  | nil =>
    match stack with
    | [] | [_] => rfl
    | _ :: _ :: _ => exact (if_neg (by simp)).symm
  | cons t rest ih =>
    obtain ⟨hparen, hrest⟩ := parensEnclose_cons.1 hparens
    have hcalls' : ∀ id n array, .call id n array ∈ rest → (Function.ofId? id).isSome :=
      fun id n array h => hcalls id n array (List.mem_cons_of_mem _ h)
    rcases t.role_cases with ⟨f, rfl⟩ | ht | ht
    · have hcall : ∀ id n array, f = .call id n array → (Function.ofId? id).isSome := by
        rintro id n array rfl
        exact hcalls id n array (List.mem_cons_self ..)
      rw [structuralError?_token, Operation.defect?_of_exists hcall, run_operation]
      by_cases hlength : stack.length < f.arity
      · rw [if_pos hlength, if_pos hlength]
        rfl
      · have hdepth : (apply f.token (stack.take f.arity).reverse :: stack.drop f.arity).length =
            f.token.depthAfter stack.length := by rw [Token.depthAfter_token, List.length_cons, List.length_drop]
        rw [if_neg hlength, if_neg hlength, Option.none_or, ← hdepth]
        rw [← hdepth] at hrest
        exact ih _ hrest hcalls'
    · rw [Token.depthAfter_of_isInert ht] at hrest
      rw [structuralError?_of_none (Token.operation?_of_isInert ht), Token.depthAfter_of_isInert ht]
      by_cases h : t = .control .paren
      · subst h
        obtain ⟨s, stack, rfl⟩ := List.exists_cons_of_length_pos (hparen rfl)
        -- The text in parentheses takes the place of the last one.
        rw [run_paren_cons]
        exact ih (apply (.control .paren) [s] :: stack) hrest hcalls'
      · rw [run_inert ht h]
        exact ih _ hrest hcalls'
    · rw [Token.depthAfter_of_isOperand ht] at hrest
      rw [structuralError?_of_none (Token.operation?_of_isOperand ht).1, Token.depthAfter_of_isOperand ht, run_operand ht]
      exact ih (t.display :: stack) hrest hcalls'

/-- Rendering only fails for lack of texts, or because there is not just one of them in the end. -/
theorem error_cases {e : FormulaError} (h : run ts stack = .error e) :
    (∃ token needed available, e = .stackUnderflow token needed available) ∨ ∃ remaining, e = .unbalancedStack remaining := by
  fun_induction run ts stack with
  | case1 s => cases h
  | case2 stack =>
    cases h
    exact .inr ⟨_, rfl⟩
  | case3 t ts stack hsilent ih => exact ih h
  | case4 t ts stack hsilent hlength =>
    cases h
    exact .inl ⟨_, _, _, rfl⟩
  | case5 t ts stack hsilent hlength ih => exact ih h

end Rendering

/-! ### Rendering and evaluation -/

/-- The first parentheses around nothing stop the rendering. -/
theorem renderFormula_of_not_parensEnclose {tokens : List Token} (h : ¬ ParensEnclose 0 tokens) :
    renderFormula tokens = .error (.stackUnderflow "()" 1 0) := by
  induction tokens with
  | nil => exact absurd (parensEnclose_nil 0) h
  | cons t rest ih =>
    by_cases hparen : t = .control .paren
    · subst hparen
      exact Rendering.run_paren_nil
    · cases hinert : t.isInert with
      | true =>
        have hrest : ¬ ParensEnclose 0 rest := fun hrest => h <|
          parensEnclose_cons.2 ⟨fun ht => absurd ht hparen, by rwa [Token.depthAfter_of_isInert hinert]⟩
        exact (Rendering.run_inert hinert hparen).trans (ih hrest)
      | false =>
        have hrest : ParensEnclose (t.depthAfter 0) rest := parensEnclose_of_pos (Token.depthAfter_pos hinert 0) rest
        exact absurd (parensEnclose_cons.2 ⟨fun ht => absurd ht hparen, hrest⟩) h

end Spreadsheet
