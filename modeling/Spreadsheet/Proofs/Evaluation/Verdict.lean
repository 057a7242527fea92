import Spreadsheet.Proofs.Evaluation.AnyResolver
import Spreadsheet.Proofs.Evaluation.Moves

/-!
# The structure of a formula

Whether a formula can be evaluated without any data is decided by how many operands its tokens take, and by which of its
functions exist.  `structuralError?` reads the tokens from left to right and only counts operands; evaluation fails with
just the error that it finds, and otherwise succeeds, whatever the operands are (`evaluate_blank`).

Without data all definitions are missing, so that names and shared formulas are operands like all others.  The induction
is on the tokens, for a machine with any number of splices left and with any operands on the stack.
-/

namespace Spreadsheet

variable {σ : Type}

/-- The defect of an operation when there are `depth` operands on the stack. -/
def Operation.defect? (f : Operation) (depth : Nat) : Option FormulaError :=
  if depth < f.arity then some (.stackUnderflow f.token.display f.arity depth) else
  match f with
  | .call id _ _ => if (Function.ofId? id).isNone then some (.functionNotSupported id) else none
  | _ => none

/-- The first defect of tokens that are read when there are `depth` operands on the stack. -/
def structuralError? (depth : Nat) : List Token → Option FormulaError
  | [] => if depth = 1 then none else some (.unbalancedStack depth)
  | t :: rest =>
    match t.operation? with
    | some f => (f.defect? depth).or (structuralError? (depth - f.arity + 1) rest)
    | none => structuralError? (if t.isInert then depth else depth + 1) rest

/-- The state stays as it is, faults are the only failures, and there are no definitions. -/
def blankContract (p : σ) : Contract σ where
  state := (· = p)
  number _ := True
  definition _ := False
  failure e := e.fault?.isSome
  signClosed := signClosed_true
  fault _ := id

private theorem withLevels_blank_honours (settings : Settings) (p : σ) (n : Nat) :
    (Scope.withLevels settings Resolver.blank n).Honours (blankContract p) :=
  withLevels_honours (fun _ _ => .pure trivial) (fun id => .throw ((blankContract p).fault (.unknownName id) rfl))
    (fun anchor => .throw ((blankContract p).fault (.noSharedFormula anchor) rfl)) (fun _ _ _ h => False.elim h) n

/-- Faults do not come out of a step. -/
theorem Machine.fault?_of_step {s : Scope σ} {t : Token} {n : Nat} {stack : Stack} {p p' : σ} {e : FormulaError}
    (h : (step s t n stack).runFrom p = (.error e, p')) : e.fault? = none := by
  unfold step at h
  split at h
  · cases h
    rfl
  · rw [Eval.runFrom_bind, Eval.runFrom_trap] at h
    rcases hrun : (compute s t (stack.take n).reverse).runFrom p with ⟨e' | a, q⟩
    · rw [hrun] at h
      dsimp only [Eval.trapped] at h
      cases hf : e'.fault? with
      | some f =>
        rw [hf] at h
        cases h
      | none =>
        rw [hf] at h
        cases h
        exact hf
    · rw [hrun] at h
      cases h

section

variable (settings : Settings) (p : σ)

open Machine

/-- An operation without a defect puts a result in the place of its operands. -/
theorem step_blank (n : Nat) (f : Operation) {stack : Stack} (hstack : ∀ t ∈ stack, t.isLeaf)
    (hdefect : f.defect? stack.length = none) :
    ∃ t, t.isLeaf ∧ (step (Scope.withLevels settings Resolver.blank n) f.token f.arity stack).runFrom p =
      (.ok (t :: stack.drop f.arity), p) := by
  unfold Operation.defect? at hdefect
  have harity : ¬ stack.length < f.arity := fun h => by
    rw [if_pos h] at hdefect
    cases hdefect
  rw [if_neg harity] at hdefect
  have hcall : ∀ id k array, f = .call id k array → Function.ofId? id = none →
      (blankContract p).failure (.functionNotSupported id) := by
    rintro id k array rfl hid
    dsimp only at hdefect
    rw [hid] at hdefect
    cases hdefect
  have hmeets := step_keeps (withLevels_blank_honours settings p n) f (fun t ht => ⟨hstack t ht, t.within_true⟩) hcall
    (fun h => absurd h harity) p rfl
  rcases hstep : (step (Scope.withLevels settings Resolver.blank n) f.token f.arity stack).runFrom p with ⟨e | result, q⟩
  · rw [hstep] at hmeets
    have hfault : e.fault?.isSome := hmeets.2
    rw [fault?_of_step hstep] at hfault
    cases hfault
  · rw [hstep] at hmeets
    obtain ⟨rfl, t, rfl, hleaf, -⟩ := hmeets
    exact ⟨t, hleaf, rfl⟩

/-- An operation with a defect fails with it. -/
theorem step_of_defect {s : Scope σ} (f : Operation) {stack : Stack} {e : FormulaError}
    (hdefect : f.defect? stack.length = some e) : step s f.token f.arity stack = throw e := by
  unfold Operation.defect? at hdefect
  unfold step
  split at hdefect
  · rename_i h
    obtain rfl := Option.some.inj hdefect
    rw [if_pos h]
  · rename_i h
    rw [if_neg h, f.compute_token]
    split at hdefect
    · rename_i id k array
      split at hdefect
      · rename_i hid
        obtain rfl := Option.some.inj hdefect
        refine Eval.ext_runFrom fun p => ?_
        rw [Eval.runFrom_bind, Eval.runFrom_trap]
        simp only [Operation.apply, callFunction, Option.isNone_iff_eq_none.1 hid]
        rfl
      · cases hdefect
    · cases hdefect

/-- From any operands on the stack the machine fails with the first defect, and if there is none it ends with an
operand. -/
theorem runFor_blank (n k : Nat) (tokens : List Token) {stack : Stack} (hstack : ∀ t ∈ stack, t.isLeaf) :
    match structuralError? stack.length tokens with
    | some e => (runFor (Scope.withLevels settings Resolver.blank n) k tokens stack).runFrom p = (.error e, p)
    | none => ∃ t, t.isLeaf ∧
        (runFor (Scope.withLevels settings Resolver.blank n) k tokens stack).runFrom p = (.ok t, p) := by
  induction tokens generalizing k stack with
  | nil =>
    rw [runFor_nil, structuralError?]
    match stack with
    | [] => rfl
    | [t] => exact ⟨t, hstack t (List.mem_singleton.2 rfl), rfl⟩
    | t :: u :: rest =>
      rw [if_neg (by simp)]
      rfl
  | cons t rest ih =>
    have hpush : ∀ u : Token, u.isLeaf → ∀ t ∈ u :: stack, t.isLeaf := fun u hu => List.forall_mem_cons.2 ⟨hu, hstack⟩
    rw [structuralError?]
    rcases t.kind_cases with ht | ht | ⟨anchor, rfl⟩ | ⟨f, rfl⟩
    · obtain ⟨hop, hinert⟩ := Token.operation?_of_isLeaf ht
      rw [hop, hinert, runFor_leaf k ht]
      exact ih k (hpush t ht)
    · rw [Token.operation?_of_isInert ht, ht, runFor_inert k ht]
      exact ih k hstack
    · -- A shared formula is an error operand, whether the splices are used up or not.
      cases k with
      | zero => exact ih 0 (hpush _ rfl)
      | succ k =>
        rw [runFor_shared_succ, Eval.runFrom_observe_bind, (withLevels_isDialogue settings n).resolver_eq]
        exact ih k (hpush (.ofFault (.code .ref)) rfl)
    · rw [f.operation?_token, runFor_operation]
      dsimp only
      cases hdefect : f.defect? stack.length with
      | some e =>
        rw [step_of_defect f hdefect]
        rfl
      | none =>
        obtain ⟨t, ht, hstep⟩ := step_blank settings p n f hstack hdefect
        -- The counter goes along with the stack.
        have hlength : (t :: stack.drop f.arity).length = stack.length - f.arity + 1 := by simp
        have hleaves : ∀ u ∈ t :: stack.drop f.arity, u.isLeaf :=
          List.forall_mem_cons.2 ⟨ht, fun u hu => hstack u (List.mem_of_mem_drop hu)⟩
        have hrest := ih k hleaves
        rw [Eval.runFrom_bind, hstep, Option.none_or, ← hlength]
        exact hrest

end

/-! ### The value of an operand -/

theorem evaluateValue_of_error {s : Scope σ} {tokens : List Token} {p q : σ} {e : FormulaError}
    (h : (evaluateToken s tokens).runFrom p = (.error e, q)) : (evaluateValue s tokens).runFrom p = (.error e, q) := by
  rw [evaluateValue, Eval.runFrom_bind, h]

/-- A fault in reading the operand is an error value. -/
theorem evaluateValue_of_ok {s : Scope σ} {tokens : List Token} {p q : σ} {t : Token}
    (h : (evaluateToken s tokens).runFrom p = (.ok t, q)) :
    (evaluateValue s tokens).runFrom p =
      match (t.value s).runFrom q with
      | (.ok v, q') => (.ok v, q')
      | (.error e, q') =>
        match e.fault? with
        | some f => (.ok (.ofFault f), q')
        | none => (.error e, q') := by
  rw [evaluateValue, Eval.runFrom_bind, h]
  dsimp only
  rw [Eval.runFrom_observe_bind]
  rcases (t.value s).runFrom q with ⟨e | v, q'⟩
  · dsimp only
    cases e.fault? <;> rfl
  · rfl

/-- Faults do not come out of reading the operand of a formula. -/
theorem evaluateValue_ok_of_fault {s : Scope σ} {tokens : List Token} {p q : σ} {t : Token}
    (h : (evaluateToken s tokens).runFrom p = (.ok t, q))
    (hfault : ∀ e, ((t.value s).runFrom q).1 = .error e → e.fault?.isSome) :
    ∃ v, (evaluateValue s tokens).runFrom p = (.ok v, ((t.value s).runFrom q).2) := by
  rw [evaluateValue_of_ok h]
  rcases hvalue : (t.value s).runFrom q with ⟨e | v, q'⟩
  · obtain ⟨f, hf⟩ := Option.isSome_iff_exists.1 (hfault e (congrArg Prod.fst hvalue))
    dsimp only
    rw [hf]
    exact ⟨_, rfl⟩
  · exact ⟨v, rfl⟩

example : structuralError? 0 [.name 1, .call 9999 1 false, .operator .add] = some (.functionNotSupported 9999) := by
  decide

end Spreadsheet
