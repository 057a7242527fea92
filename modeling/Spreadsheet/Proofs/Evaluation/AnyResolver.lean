import Spreadsheet.Evaluation.Machine
import Spreadsheet.Proofs.Evaluation.Dialogue

/-!
# Evaluation is a dialogue

Every function of the evaluator is a dialogue with its resolver (`evaluateToken_isDialogue`,
`evaluateValue_isDialogue`): what it asks next depends on the answers so far only, and it asks finitely many questions
whatever the answers are.  A scope is handled together with the nested levels below it, so that the induction on the
levels is done once, in `withLevels_isDialogue`.
-/

namespace Spreadsheet

variable {α : Type}

/-! ### Scopes -/

/-- The operations of a nested level are dialogues. -/
structure NestedDialogues (N : ∀ σ : Type, Resolver σ → Nested σ) : Prop where
  evaluate : ∀ tokens, IsDialogue fun σ r => (N σ r).evaluate tokens
  value : ∀ t, IsDialogue fun σ r => (N σ r).value t
  components : ∀ t, IsDialogue fun σ r => (N σ r).components t
  references : ∀ split t, IsDialogue fun σ r => (N σ r).references split t

/-- One scope for every resolver, with the same settings, and with dialogues at the level below if there is one. -/
structure ScopeDialogues (settings : Settings) (S : ∀ σ : Type, Resolver σ → Scope σ) : Prop where
  settings_eq : ∀ σ r, (S σ r).settings = settings
  resolver_eq : ∀ σ r, (S σ r).resolver = r
  nested : (∀ σ r, (S σ r).nested? = none) ∨ ∃ N, NestedDialogues N ∧ ∀ σ r, (S σ r).nested? = some (N σ r)

variable {settings : Settings} {S : ∀ σ : Type, Resolver σ → Scope σ}

/-- A computation that begins by going to the nested level. -/
theorem ScopeDialogues.nested_bind (hS : ScopeDialogues settings S)
    {G : ∀ σ : Type, Resolver σ → Nested σ → Eval σ α}
    (hG : ∀ N, NestedDialogues N → IsDialogue fun σ r => G σ r (N σ r)) :
    IsDialogue fun σ r => (S σ r).nested >>= G σ r := by
  unfold Scope.nested
  rcases hS.nested with h | ⟨N, hN, h⟩
  · simp only [h]
    exact .throw _
  · simp only [h, pure_bind]
    exact hG N hN

variable (hS : ScopeDialogues settings S)
include hS

/-! ### Operands -/

theorem ScopeDialogues.cell (sheet : Option String) (a : CellAddress) :
    IsDialogue fun σ r => (S σ r).resolver.cell sheet a := by
  simp only [hS.resolver_eq]
  exact .cell sheet a

theorem ScopeDialogues.rows (sheet : Option String) (range : CellRange) :
    IsDialogue fun σ r => (S σ r).resolver.rows sheet range :=
  .mapM _ fun row => .mapM _ fun col => hS.cell sheet (.relative row col)

/-- Evaluate what a name or a shared formula stands for one level down. -/
theorem ScopeDialogues.definition {q : Question} (hq : q.Answer = List Token)
    {G : ∀ σ : Type, Nested σ → Token → Eval σ α}
    (hG : ∀ N, NestedDialogues N → ∀ t, IsDialogue fun σ r => G σ (N σ r) t) :
    IsDialogue fun σ r => (S σ r).nested >>= fun n =>
      (S σ r).resolver.answer q >>= fun body => n.evaluate (hq ▸ body) >>= G σ n := by
  refine hS.nested_bind fun N hN => ?_
  simp only [hS.resolver_eq]
  exact (IsDialogue.ask q).bind fun body => (hN.evaluate _).bind (hG N hN)

theorem Reference.value_isDialogue (ref : Reference) : IsDialogue fun σ r => ref.value (S σ r) := by
  cases ref with
  | cell sheet a => exact (hS.cell sheet a).map _
  | area sheet range => exact (hS.rows sheet range).map _
  | invalid e => exact .pure _

theorem Token.value_isDialogue (t : Token) : IsDialogue fun σ r => t.value (S σ r) := by
  cases t with
  | cell sheet a => exact (hS.cell sheet a).map _
  | area sheet first last => exact (hS.rows sheet _).map _
  | name id => exact hS.definition (q := .name id) rfl fun N hN t => hN.value t
  | shared anchor => exact hS.definition (q := .shared anchor) rfl fun N hN t => hN.value t
  | references refs =>
    match refs with
    | [] => exact .throw _
    | [ref] => exact ref.value_isDialogue hS
    | _ :: _ :: _ => exact (IsDialogue.mapM _ fun ref => ref.value_isDialogue hS).bind fun _ => .pure _
  | operator | control | call => exact .throw _
  | _ => exact .pure _

private theorem Token.components_isDialogue (t : Token) : IsDialogue fun σ r => t.components (S σ r) := by
  cases t with
  | name id =>
    exact hS.definition (q := .name id) rfl fun N hN t => (hN.components t).bind fun _ => .pure _
  | _ => exact .pure _

theorem Token.parts_isDialogue (t : Token) : IsDialogue fun σ r => t.parts (S σ r) :=
  (t.components_isDialogue hS).bind fun _ => .pure _

theorem Token.allParts_isDialogue (args : List Token) : IsDialogue fun σ r => Token.allParts (S σ r) args :=
  (IsDialogue.mapM args fun t => t.parts_isDialogue hS).bind fun _ => .pure _

theorem Token.allValues_isDialogue (args : List Token) : IsDialogue fun σ r => Token.allValues (S σ r) args :=
  (Token.allParts_isDialogue hS args).bind fun parts =>
    (IsDialogue.mapM parts fun t => t.value_isDialogue hS).bind fun _ => .pure _

private theorem Token.asReferences_isDialogue (split : Bool) (t : Token) :
    IsDialogue fun σ r => t.asReferences (S σ r) split := by
  cases t with
  | name id => exact hS.definition (q := .name id) rfl fun N hN t => hN.references split t
  | shared anchor => exact hS.definition (q := .shared anchor) rfl fun N hN t => hN.references split t
  | text t => exact .ofExcept _
  | array rows => exact .ofExcept _
  | cell | area | references | error => exact .pure _
  | _ => exact .throw _

/-! ### Functions -/

namespace Aggregate

private theorem scanComponents_isDialogue (found : List Float) (parts : List Token) :
    IsDialogue fun σ r => scanComponents (S σ r) found parts := by
  induction parts generalizing found with
  | nil => exact .pure _
  | cons t rest ih =>
    unfold scanComponents
    split
    · exact .throw _
    · exact (t.value_isDialogue hS).bind fun v => (IsDialogue.ofExcept _).bind ih

private theorem scanArgument_isDialogue (found : List Float) (arg : Token) :
    IsDialogue fun σ r => scanArgument (S σ r) found arg := by
  unfold scanArgument
  split
  · exact .throw _
  · refine (arg.components_isDialogue hS).bind fun parts => ?_
    cases parts with
    | some parts => exact scanComponents_isDialogue hS found parts
    | none =>
      dsimp only
      split
      · exact scanComponents_isDialogue hS found [arg]
      · exact (arg.value_isDialogue hS).bind fun v => .ofExcept _

theorem numbers_isDialogue (args : List Token) : IsDialogue fun σ r => numbers (S σ r) args :=
  (IsDialogue.foldlM args (scanArgument_isDialogue hS) []).bind fun _ => .pure _

private theorem average_isDialogue (args : List Token) : IsDialogue fun σ r => average (S σ r) args := by
  refine (numbers_isDialogue hS args).bind fun xs => ?_
  cases xs with
  | nil => exact .throw _
  | cons x xs => exact .pure _

end Aggregate

namespace Logic

private theorem conditionValue_isDialogue (condition : Token) :
    IsDialogue fun σ r => conditionValue (S σ r) condition := by
  unfold conditionValue
  split
  · exact (condition.value_isDialogue hS).observe.bind fun _ => .pure _
  · exact (condition.value_isDialogue hS).map _

private theorem ifThen_isDialogue (args : List Token) : IsDialogue fun σ r => ifThen (S σ r) args := by
  cases args with
  | nil => exact .pure _
  | cons condition branches =>
    unfold ifThen
    dsimp only
    split
    · exact .pure _
    · refine (conditionValue_isDialogue hS condition).bind fun c => ?_
      rcases c with _ | c
      · exact .pure _
      · cases c with
        | array rows =>
          exact (Token.value_isDialogue hS _).bind fun _ => (Token.value_isDialogue hS _).bind fun _ => .pure _
        | _ => exact .pure _

private theorem findPart_isDialogue (stop : Bool) (parts : List Token) :
    IsDialogue fun σ r => findPart (S σ r) stop parts := by
  induction parts with
  | nil => exact .pure _
  | cons t rest ih =>
    refine (t.value_isDialogue hS).bind fun v => ?_
    split
    · exact .pure _
    · exact ih

private theorem find_isDialogue (stop : Bool) (args : List Token) : IsDialogue fun σ r => find (S σ r) stop args := by
  induction args with
  | nil => exact .pure _
  | cons arg rest ih =>
    refine (arg.parts_isDialogue hS).bind fun parts => (findPart_isDialogue hS stop parts).bind fun found => ?_
    split
    · exact .pure _
    · exact ih

private theorem not_isDialogue (args : List Token) : IsDialogue fun σ r => not (S σ r) args := by
  match args with
  | [] | _ :: _ :: _ => exact .pure _
  | [arg] => exact (arg.value_isDialogue hS).bind fun _ => .pure _

private theorem ifError_isDialogue (args : List Token) : IsDialogue fun σ r => ifError (S σ r) args := by
  match args with
  | [] | [_] | _ :: _ :: _ :: _ => exact .pure _
  | [value, fallback] =>
    refine (value.value_isDialogue hS).observe.bind fun x => ?_
    rcases x with e | v
    · dsimp only
      split
      · exact .pure _
      · exact .throw _
    · cases v with
      | array rows => exact (fallback.value_isDialogue hS).bind fun _ => .pure _
      | _ => exact .pure _

end Logic

private theorem Inspection.test_isDialogue (p : Value → Bool) (args : List Token) :
    IsDialogue fun σ r => Inspection.test (S σ r) p args := by
  match args with
  | [] | _ :: _ :: _ => exact .pure _
  | [arg] =>
    refine IsDialogue.bind ?_ fun _ => .pure _
    refine (arg.value_isDialogue hS).observe.bind fun x => ?_
    rcases x with e | v
    · dsimp only
      cases e.fault? with
      | some f => exact .pure _
      | none => exact .throw _
    · exact .pure _

namespace Selection

theorem selected_isDialogue (c : Criteria) (t : Token) : IsDialogue fun σ r => selected (S σ r) c t := by
  unfold selected cellValue
  simp only [hS.settings_eq]
  exact ((t.value_isDialogue hS).bind fun _ => .pure _).bind fun _ => .pure _

theorem countFrom_isDialogue (c : Criteria) (n : Nat) (cells : List Token) :
    IsDialogue fun σ r => countFrom (S σ r) c n cells := by
  induction cells generalizing n with
  | nil => exact .pure _
  | cons t rest ih => exact (selected_isDialogue hS c t).bind fun _ => ih _

private theorem countIf_isDialogue (args : List Token) : IsDialogue fun σ r => countIf (S σ r) args := by
  match args with
  | [] | [_] | _ :: _ :: _ :: _ => exact .pure _
  | [range, criteria] =>
    exact (criteria.value_isDialogue hS).bind fun v => (range.parts_isDialogue hS).bind fun cells =>
      (countFrom_isDialogue hS _ 0 cells).bind fun _ => .pure _

theorem sumFrom_isDialogue (c : Criteria) (sum : Float) (cells targets : List Token) :
    IsDialogue fun σ r => sumFrom (S σ r) c sum cells targets := by
  induction cells generalizing sum targets with
  | nil => exact .pure _
  | cons t rest ih =>
    refine (selected_isDialogue hS c t).bind fun hit => ?_
    split
    · cases targets with
      | nil => exact ih sum []
      | cons target others =>
        exact (target.value_isDialogue hS).bind fun v => (IsDialogue.ofExcept _).bind fun sum => ih sum others
    · exact ih sum targets.tail

private theorem targets_isDialogue (range : Token) (cells : List Token) (sumRange : Option Token) :
    IsDialogue fun σ r => targets (S σ r) range cells sumRange := by
  cases sumRange with
  | none => exact .pure _
  | some sumRange => exact Token.parts_isDialogue hS _

private theorem sumIf_isDialogue (args : List Token) : IsDialogue fun σ r => sumIf (S σ r) args := by
  match args with
  | [] | [_] => exact .pure _
  | range :: criteria :: more =>
    exact (criteria.value_isDialogue hS).bind fun v => (range.parts_isDialogue hS).bind fun cells =>
      (targets_isDialogue hS range cells more.head?).bind fun sums =>
        (sumFrom_isDialogue hS _ 0 cells sums).bind fun _ => .pure _

end Selection

private theorem Function.apply_isDialogue (f : Function) (args : List Token) :
    IsDialogue fun σ r => f.apply (S σ r) args := by
  cases f with
  | count => exact (Token.allValues_isDialogue hS args).bind fun _ => .pure _
  | sum | min | max => exact (Aggregate.numbers_isDialogue hS args).bind fun _ => .pure _
  | average => exact Aggregate.average_isDialogue hS args
  | ifThen => exact Logic.ifThen_isDialogue hS args
  | ifError => exact Logic.ifError_isDialogue hS args
  | and | or => exact (Logic.find_isDialogue hS _ args).bind fun _ => .pure _
  | not => exact Logic.not_isDialogue hS args
  | true | false | na => exact .pure _
  | isNa | isError | isErr | isText | isNumber | isBlank | isLogical => exact Inspection.test_isDialogue hS _ args
  | sumIf => exact Selection.sumIf_isDialogue hS args
  | countIf => exact Selection.countIf_isDialogue hS args

private theorem callFunction_isDialogue (id : Nat) (args : List Token) :
    IsDialogue fun σ r => callFunction (S σ r) id args := by
  unfold callFunction
  cases Function.ofId? id with
  | none => exact .throw _
  | some f =>
    dsimp only
    split
    · exact f.apply_isDialogue hS args
    · exact .pure _

/-! ### Operators -/

private theorem applyReferenceOperator_isDialogue (op : Operator) (a b : Token) :
    IsDialogue fun σ r => applyReferenceOperator (S σ r) op a b := by
  refine (a.asReferences_isDialogue hS _).bind fun first => (b.asReferences_isDialogue hS _).bind fun second => ?_
  cases op with
  | union | intersect => exact .pure _
  | _ => exact (IsDialogue.ofExcept _).bind fun _ => .pure _

private theorem applySign_isDialogue (op : Operator) (a : Token) : IsDialogue fun σ r => applySign (S σ r) op a := by
  unfold applySign
  simp only [hS.settings_eq]
  exact (a.value_isDialogue hS).bind fun _ => .pure _

private theorem applyUnary_isDialogue (op : Operator) (a : Token) : IsDialogue fun σ r => applyUnary (S σ r) op a := by
  unfold applyUnary
  split
  · exact .pure _
  · split
    · exact .pure _
    · exact applySign_isDialogue hS op a

private theorem applyToValues_isDialogue (op : Operator) (a b : Token) :
    IsDialogue fun σ r => applyToValues (S σ r) op a b := by
  unfold applyToValues
  simp only [hS.settings_eq]
  exact (a.value_isDialogue hS).bind fun x => (b.value_isDialogue hS).bind fun _ => .pure _

private theorem applyBinary_isDialogue (op : Operator) (a b : Token) :
    IsDialogue fun σ r => applyBinary (S σ r) op a b := by
  unfold applyBinary
  split
  · exact applyReferenceOperator_isDialogue hS op a b
  · cases [a, b].find? Token.isError with
    | some e => exact .pure _
    | none => exact applyToValues_isDialogue hS op a b

private theorem applyOperator_isDialogue (op : Operator) (args : List Token) :
    IsDialogue fun σ r => applyOperator (S σ r) op args := by
  unfold applyOperator
  split
  · exact applyUnary_isDialogue hS op _
  · exact applyBinary_isDialogue hS op _ _
  · exact .pure _

/-! ### The stack machine -/

namespace Machine

private theorem compute_isDialogue (t : Token) (args : List Token) : IsDialogue fun σ r => compute (S σ r) t args := by
  cases t with
  | operator op => exact applyOperator_isDialogue hS op args
  | call id n array => exact callFunction_isDialogue hS id args
  | _ => exact (Aggregate.numbers_isDialogue hS args).bind fun _ => .pure _

theorem step_isDialogue (t : Token) (n : Nat) (stack : Stack) : IsDialogue fun σ r => step (S σ r) t n stack := by
  unfold step
  split
  · exact .throw _
  · exact (compute_isDialogue hS t _).trap.bind fun _ => .pure _

omit hS in
private theorem finish_isDialogue (stack : Stack) : IsDialogue fun σ _ => (finish stack : Eval σ Token) := by
  match stack with
  | [t] => exact .pure t
  | [] | _ :: _ :: _ => exact .throw _

/-- A splice for every resolver, each of them a dialogue, or none for any. -/
def SpliceDialogues (splice : ∀ σ : Type, Resolver σ → Option (Splice σ)) : Prop :=
  (∀ σ r, splice σ r = none) ∨
    ∃ P : ∀ σ : Type, Resolver σ → Splice σ, (∀ anchor rest stack, IsDialogue fun σ r => P σ r anchor rest stack) ∧
      ∀ σ r, splice σ r = some (P σ r)

/-- What one token does, the tokens behind it being run after it. -/
theorem runWith_isDialogue {splice : ∀ σ : Type, Resolver σ → Option (Splice σ)} (hsplice : SpliceDialogues splice)
    (tokens : List Token) (stack : Stack) : IsDialogue fun σ r => runWith (S σ r) (splice σ r) tokens stack := by
  induction tokens generalizing stack with
  | nil => exact finish_isDialogue stack
  | cons t rest ih =>
    cases t with
    | shared anchor =>
      rcases hsplice with h | ⟨P, hP, h⟩
      · simp only [runWith, h] at ih ⊢
        exact ih _
      · simp only [runWith, h]
        exact hP anchor rest stack
    | control c =>
      cases c with
      | sum => exact (step_isDialogue hS _ 1 stack).bind ih
      | _ => exact ih stack
    | operator op => exact (step_isDialogue hS _ op.arity stack).bind ih
    | call id n array => exact (step_isDialogue hS _ n stack).bind ih
    | _ => exact ih _

/-- The induction is on the splices that are left; the rest of the tokens and the stack are arbitrary. -/
theorem runFor_isDialogue (splices : Nat) (tokens : List Token) (stack : Stack) :
    IsDialogue fun σ r => runFor (S σ r) splices tokens stack := by
  induction splices generalizing tokens stack with
  | zero => exact runWith_isDialogue hS (.inl fun _ _ => rfl) tokens stack
  | succ splices ih =>
    refine runWith_isDialogue hS (.inr ⟨_, fun anchor rest stack => ?_, fun _ _ => rfl⟩) tokens stack
    simp only [hS.resolver_eq]
    refine (IsDialogue.shared anchor).observe.bind fun x => ?_
    rcases x with e | body
    · dsimp only
      cases e.fault? with
      | some f => exact ih _ _
      | none => exact .throw e
    · exact ih _ _

end Machine

theorem ScopeDialogues.evaluateToken (tokens : List Token) : IsDialogue fun σ r => evaluateToken (S σ r) tokens := by
  unfold Spreadsheet.evaluateToken
  simp only [hS.settings_eq]
  exact Machine.runFor_isDialogue hS _ tokens []

omit hS

/-! ### Levels -/

/-- Each level is a dialogue if the one below it is. -/
theorem withLevels_isDialogue (settings : Settings) (n : Nat) :
    ScopeDialogues settings fun _ r => Scope.withLevels settings r n := by
  induction n with
  | zero => exact ⟨fun _ _ => rfl, fun _ _ => rfl, .inl fun _ _ => rfl⟩
  | succ n ih =>
    refine ⟨fun _ _ => rfl, fun _ _ => rfl, .inr ⟨_, ?_, fun _ _ => rfl⟩⟩
    constructor
    · intro tokens
      refine (ih.evaluateToken tokens).bind fun t => ?_
      split
      · exact .throw _
      · exact .pure t
    · exact Token.value_isDialogue ih
    · exact Token.components_isDialogue ih
    · exact Token.asReferences_isDialogue ih

theorem scopeOf_isDialogue (settings : Settings) : ScopeDialogues settings fun _ r => Scope.of settings r :=
  withLevels_isDialogue settings _

/-- Evaluating a formula to a token is a dialogue with the resolver. -/
theorem evaluateToken_isDialogue (settings : Settings) (tokens : List Token) :
    IsDialogue fun _ r => evaluateToken (Scope.of settings r) tokens :=
  (scopeOf_isDialogue settings).evaluateToken tokens

/-- Evaluating a formula to a value is a dialogue with the resolver. -/
theorem evaluateValue_isDialogue (settings : Settings) (tokens : List Token) :
    IsDialogue fun _ r => evaluateValue (Scope.of settings r) tokens := by
  refine (evaluateToken_isDialogue settings tokens).bind fun t => ?_
  refine (t.value_isDialogue (scopeOf_isDialogue settings)).observe.bind fun x => ?_
  rcases x with e | v
  · dsimp only
    cases e.fault? with
    | some f => exact .pure _
    | none => exact .throw e
  · exact .pure v

end Spreadsheet
