import Mathlib.Data.Fin.VecNotation
import Mathlib.Data.List.FinRange
import Spreadsheet.Evaluation.Machine
import Spreadsheet.Proofs.Evaluation.Dialogue

/-!
# Expression trees

A formula as a tree of operations on operands.  `Expression.tokens` is its postfix form and `Expression.evaluate` its
value by recursion on the tree: the children from left to right, then the operation, whose faults become error values.
The stack machine computes the same from the postfix form, also if tokens for display or for the order of evaluation
are put in anywhere (`evaluateToken_eq_evaluate`).

The induction on the tree is done for a machine in the middle of a run (`Expression.runWith_tokens`): with any tokens
behind the expression and any operands below it on the stack, the machine goes on with the value of the expression on
top of the stack.
-/

namespace Spreadsheet

/-! ### Tokens without an effect -/

namespace Token

/-- Controls other than the one that sums. -/
def isInert : Token → Bool
  | control .sum => false
  | control _ => true
  | _ => false

/-- Operands that stand for themselves on the stack. -/
def isLeaf : Token → Bool
  | shared _ => false
  | t => t.isOperand

end Token

/-- The tokens that have an effect. -/
def effective (tokens : List Token) : List Token :=
  tokens.filter (!·.isInert)

private theorem effective_append (xs ys : List Token) : effective (xs ++ ys) = effective xs ++ effective ys :=
  List.filter_append xs ys

private theorem effective_effective (tokens : List Token) : effective (effective tokens) = effective tokens := by
  simp [effective, List.filter_filter]

variable {σ : Type} {s : Scope σ}

namespace Machine

theorem runWith_inert {splice : Option (Splice σ)} {t : Token} (ht : t.isInert) (rest : List Token) (stack : Stack) :
    runWith s splice (t :: rest) stack = runWith s splice rest stack := by
  cases t with
  | control c =>
    cases c with
    | sum => cases ht
    | _ => rfl
  | _ => cases ht

theorem runWith_leaf {splice : Option (Splice σ)} {t : Token} (ht : t.isLeaf) (rest : List Token) (stack : Stack) :
    runWith s splice (t :: rest) stack = runWith s splice rest (t :: stack) := by
  cases t with
  | shared | operator | control | call => cases ht
  | _ => rfl

/-- Tokens without an effect may be left out if the splices do not depend on them. -/
theorem runWith_effective {splice : Option (Splice σ)}
    (hsplice : ∀ expand, splice = some expand →
      ∀ anchor rest stack, expand anchor rest stack = expand anchor (effective rest) stack)
    (tokens : List Token) (stack : Stack) :
    runWith s splice tokens stack = runWith s splice (effective tokens) stack := by
  induction tokens generalizing stack with
  | nil => rfl
  | cons t rest ih =>
    by_cases ht : t.isInert
    · have he : effective (t :: rest) = effective rest := List.filter_cons_of_neg (by simp [ht])
      rw [he, runWith_inert ht, ih]
    · have he : effective (t :: rest) = t :: effective rest := List.filter_cons_of_pos (by simp [ht])
      rw [he]
      cases t with
      | control c =>
        cases c with
        | sum => simp only [runWith, ih]
        | _ => exact absurd rfl ht
      | shared anchor =>
        cases splice with
        | none => simp only [runWith, ih]
        | some expand => exact hsplice expand rfl anchor rest stack
      | operator | call => simp only [runWith, ih]
      | _ => exact ih _

private theorem runFor_effective (splices : Nat) (tokens : List Token) (stack : Stack) :
    runFor s splices tokens stack = runFor s splices (effective tokens) stack := by
  induction splices generalizing tokens stack with
  | zero => exact runWith_effective (fun _ h => by cases h) tokens stack
  | succ splices ih =>
    refine runWith_effective (fun expand h anchor rest stack => ?_) tokens stack
    obtain rfl := Option.some.inj h
    refine congrArg _ (funext fun x => ?_)
    cases x with
    | ok body =>
      have hbody : effective (body ++ effective rest) = effective (body ++ rest) := by
        simp only [effective_append, effective_effective]
      show runFor s splices (body ++ rest) stack = runFor s splices (body ++ effective rest) stack
      rw [ih, ih (body ++ effective rest), hbody]
    | error e =>
      dsimp only
      cases e.fault? with
      | none => rfl
      | some f => exact ih _ _

/-- The machine of an evaluation is one that does something or other with shared formulas. -/
theorem runFor_eq (splices : Nat) : ∃ splice, runFor s splices = runWith s splice := by
  cases splices with
  | zero => exact ⟨_, rfl⟩
  | succ n => exact ⟨_, rfl⟩

end Machine

/-! ### Trees -/

/-- What an inner node of an expression does with its operands. -/
inductive Operation where
  | operator (op : Operator)
  | sum
  | call (id argCount : Nat) (returnsArray : Bool)
deriving DecidableEq, Repr

namespace Operation

def token : Operation → Token
  | operator op => .operator op
  | sum => .control .sum
  | call id n returnsArray => .call id n returnsArray

def arity : Operation → Nat
  | operator op => op.arity
  | sum => 1
  | call _ n _ => n

/-- The result for operands in their order. -/
def apply (s : Scope σ) : Operation → List Token → Eval σ Token
  | operator op, args => applyOperator s op args
  | sum, args => Aggregate.sum s args
  | call id _ _, args => callFunction s id args

theorem runWith_token {splice : Option (Machine.Splice σ)} (f : Operation) (rest : List Token)
    (stack : Machine.Stack) : Machine.runWith s splice (f.token :: rest) stack =
      Machine.step s f.token f.arity stack >>= fun stack => Machine.runWith s splice rest stack := by
  cases f with
  | operator op => rfl
  | sum => rfl
  | call id n returnsArray => rfl

theorem compute_token (f : Operation) (args : List Token) : Machine.compute s f.token args = f.apply s args := by
  cases f with
  | operator op => rfl
  | sum => rfl
  | call id n returnsArray => rfl

/-- The operands are on top of the stack, the last one first. -/
theorem step_token (f : Operation) {args : List Token} (hargs : args.length = f.arity) (stack : Machine.Stack) :
    Machine.step s f.token f.arity (args.reverse ++ stack) =
      (f.apply s args).trap >>= fun t => pure (t :: stack) := by
  have hlen : args.reverse.length = f.arity := by rw [List.length_reverse, hargs]
  have hle : ¬ (args.reverse ++ stack).length < f.arity := by rw [List.length_append]; omega
  unfold Machine.step
  rw [if_neg hle, List.take_left' hlen, List.drop_left' hlen, List.reverse_reverse, compute_token]

end Operation

/-- A tree of operations.  Each node has as many children as its operation takes operands. -/
inductive Expression where
  | operand (t : Token) (leaf : t.isLeaf)
  | node (f : Operation) (children : Fin f.arity → Expression)

namespace Expression

/-- The tokens in postfix order. -/
def tokens : Expression → List Token
  | operand t _ => [t]
  | node f children => ((List.finRange f.arity).flatMap fun i => (children i).tokens) ++ [f.token]

/-- The value by recursion on the tree. -/
def evaluate (s : Scope σ) : Expression → Eval σ Token
  | operand t _ => pure t
  | node f children => do
    let args ← (List.finRange f.arity).mapM fun i => (children i).evaluate s
    (f.apply s args).trap

end Expression

/-- What follows on a list of results may use that there are as many results as there were computations. -/
private theorem mapM_bind_congr {α β γ : Type} (g : α → Eval σ β) (xs : List α) {F G : List β → Eval σ γ}
    (h : ∀ ys, ys.length = xs.length → F ys = G ys) : xs.mapM g >>= F = xs.mapM g >>= G := by
  induction xs generalizing F G with
  | nil =>
    rw [List.mapM_nil, pure_bind, pure_bind]
    exact h [] rfl
  | cons x xs ih =>
    simp only [List.mapM_cons, bind_assoc, pure_bind]
    refine congrArg _ (funext fun y => ih fun ys hys => h (y :: ys) ?_)
    rw [List.length_cons, List.length_cons, hys]

namespace Expression

open Machine

/-- A machine that reads expressions one after the other puts their values on the stack. -/
theorem runWith_flatMap {splice : Option (Splice σ)} {α : Type} (es : α → Expression) (xs : List α)
    (h : ∀ x rest stack, runWith s splice ((es x).tokens ++ rest) stack =
      (es x).evaluate s >>= fun t => runWith s splice rest (t :: stack)) (rest : List Token) (stack : Stack) :
    runWith s splice ((xs.flatMap fun x => (es x).tokens) ++ rest) stack =
      (xs.mapM fun x => (es x).evaluate s) >>= fun ts => runWith s splice rest (ts.reverse ++ stack) := by
  induction xs generalizing stack with
  | nil => rw [List.mapM_nil, pure_bind]; rfl
  | cons x xs ih =>
    rw [List.flatMap_cons, List.append_assoc, h]
    simp only [ih, List.mapM_cons, bind_assoc, pure_bind, List.reverse_cons, List.append_assoc, List.cons_append,
      List.nil_append]

/-- Reading an expression, a machine puts its value on the stack. -/
theorem runWith_tokens {splice : Option (Splice σ)} (e : Expression) (rest : List Token) (stack : Stack) :
    runWith s splice (e.tokens ++ rest) stack = e.evaluate s >>= fun t => runWith s splice rest (t :: stack) := by
  induction e generalizing rest stack with
  | operand t leaf => exact runWith_leaf leaf rest stack
  | node f children ih =>
    have hchildren := runWith_flatMap children (List.finRange f.arity) ih (f.token :: rest) stack
    simp only [tokens, evaluate, List.append_assoc, List.singleton_append, hchildren, bind_assoc]
    -- All operands are there when the machine comes to the operation.
    refine mapM_bind_congr _ _ fun ts hts => ?_
    rw [List.length_finRange] at hts
    rw [f.runWith_token, f.step_token hts, bind_assoc]
    simp only [pure_bind]

theorem evaluateToken_tokens (e : Expression) : evaluateToken s e.tokens = e.evaluate s := by
  have hrun : ∀ splice, runWith s splice e.tokens [] = e.evaluate s := by
    intro splice
    have h : runWith s splice (e.tokens ++ []) [] = _ := e.runWith_tokens [] []
    rw [List.append_nil] at h
    rw [h]
    exact bind_pure _
  obtain ⟨splice, h⟩ := runFor_eq (s := s) s.settings.maxNestingDepth
  rw [evaluateToken, h]
  exact hrun splice

private theorem map_get_cast {α : Type} {xs : List α} {n : Nat} (h : xs.length = n) :
    (List.finRange n).map (fun i => xs.get (i.cast h.symm)) = xs := by
  subst h
  exact List.map_get_finRange xs

/-- The operands of an operation are evaluated from left to right. -/
theorem evaluateToken_operation (f : Operation) {args : List Expression} (hargs : args.length = f.arity) :
    evaluateToken s (args.flatMap tokens ++ [f.token]) =
      args.mapM (evaluate s) >>= fun ts => (f.apply s ts).trap := by
  let e := node f fun i => args.get (i.cast hargs.symm)
  have htokens : args.flatMap tokens ++ [f.token] = e.tokens := by
    refine congrArg (· ++ _) ?_
    conv_lhs => rw [← map_get_cast hargs]
    exact List.flatMap_map ..
  have hchildren : (List.finRange f.arity).mapM (fun i => (args.get (i.cast hargs.symm)).evaluate s) =
      args.mapM (evaluate s) := by
    conv_rhs => rw [← map_get_cast hargs]
    exact List.mapM_map.symm
  have hevaluate : e.evaluate s = args.mapM (evaluate s) >>= fun ts => (f.apply s ts).trap :=
    congrArg (· >>= _) hchildren
  rw [htokens, evaluateToken_tokens, hevaluate]

theorem evaluateToken_unary {f : Operation} (hf : f.arity = 1) (e : Expression) :
    evaluateToken s (e.tokens ++ [f.token]) = e.evaluate s >>= fun t => (f.apply s [t]).trap := by
  have hlength : [e].length = f.arity := hf.symm
  have htokens := evaluateToken_operation (s := s) f hlength
  rw [List.flatMap_singleton] at htokens
  simpa only [List.mapM_cons, List.mapM_nil, bind_assoc, pure_bind] using htokens

theorem evaluateToken_binary {f : Operation} (hf : f.arity = 2) (d e : Expression) :
    evaluateToken s (d.tokens ++ e.tokens ++ [f.token]) =
      d.evaluate s >>= fun t => e.evaluate s >>= fun u => (f.apply s [t, u]).trap := by
  have hlength : [d, e].length = f.arity := hf.symm
  have htokens := evaluateToken_operation (s := s) f hlength
  rw [List.flatMap_cons, List.flatMap_singleton] at htokens
  simpa only [List.mapM_cons, List.mapM_nil, bind_assoc, pure_bind] using htokens

/-- The arguments of a call are evaluated from left to right. -/
theorem evaluateToken_arguments (args : List Expression) (id : Nat) (returnsArray : Bool) :
    evaluateToken s (args.flatMap tokens ++ [.call id args.length returnsArray]) =
      args.mapM (evaluate s) >>= fun ts => (callFunction s id ts).trap :=
  evaluateToken_operation (.call id args.length returnsArray) rfl

end Expression

/-- The stack machine computes the value of the expression whose postfix form is left when the tokens without an effect
are dropped: the same token or the same failure, with the same questions to the resolver. -/
theorem evaluateToken_eq_evaluate (s : Scope σ) (e : Expression) {tokens : List Token}
    (h : effective tokens = e.tokens) : evaluateToken s tokens = e.evaluate s := by
  rw [← e.evaluateToken_tokens, ← h]
  exact Machine.runFor_effective _ tokens []

/-- A concatenation with a name that is not defined, and what to take instead of its failure. -/
def concatenationOrElse : Expression :=
  .node (.call Function.ifError.id 2 false) ![
    .node (.operator .concat) ![.operand (.name 9) rfl, .operand (.text "x") rfl],
    .operand (.text "none") rfl]

/-- The failure of the name becomes an error value at the concatenation, which the call replaces. -/
theorem evaluateToken_concatenationOrElse :
    let tokens := [.control .volatile, .name 9, .control .space, .text "x", .operator .concat, .control .paren,
      .control .ifJump, .text "none", .call Function.ifError.id 2 false, .control .goto]
    effective tokens = concatenationOrElse.tokens ∧
      (evaluateToken (Scope.of {} (Resolver.blank (σ := Unit))) tokens).runFrom () = (.ok (.text "none"), ()) := by
  intro tokens
  have h : effective tokens = concatenationOrElse.tokens := by decide
  refine ⟨h, ?_⟩
  rw [evaluateToken_eq_evaluate _ concatenationOrElse h]
  rfl

end Spreadsheet
