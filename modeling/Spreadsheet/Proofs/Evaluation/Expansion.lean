import Spreadsheet.Proofs.Evaluation.AnyResolver
import Spreadsheet.Proofs.Evaluation.Moves

/-!
# Expansion of shared formulas

`Expands bodies d tokens expanded n` says that `expanded` is what textual substitution makes of `tokens`: the shared
formulas of `bodies` that occur in `tokens` are nested at most `d` deep, and each of them is replaced by its own
expansion, which are `n` replacements in all.

A machine that has at least so many splices left does not see a difference between the two (`Expands.run`).  The tokens
behind them and the stack are arbitrary, so that a body may leave any number of operands, or take some that it finds.
-/

namespace Spreadsheet

open Machine

/-- Replace each shared formula by its expanded body: the greatest nesting depth, the tokens before and after, and the
number of replacements. -/
inductive Expands (bodies : CellAddress → Option (List Token)) : Nat → List Token → List Token → Nat → Prop
  | nil (d : Nat) : Expands bodies d [] [] 0
  | keep {d : Nat} {t : Token} {rest rest' : List Token} {n : Nat} (ht : ∀ anchor, t ≠ .shared anchor)
      (hrest : Expands bodies d rest rest' n) : Expands bodies d (t :: rest) (t :: rest') n
  | expand {d : Nat} {anchor : CellAddress} {body body' rest rest' : List Token} {m n : Nat}
      (hbody : bodies anchor = some body) (hexpand : Expands bodies d body body' m)
      (hrest : Expands bodies (d + 1) rest rest' n) :
      Expands bodies (d + 1) (.shared anchor :: rest) (body' ++ rest') (m + n + 1)

/-- In states with `I`, which asking keeps up, the resolver finds the bodies of shared formulas. -/
structure Resolver.Shares {σ : Type} (r : Resolver σ) (I : σ → Prop) (bodies : CellAddress → Option (List Token)) :
    Prop where
  answer : ∀ q s, I s → I ((r.answer q).runFrom s).2
  shared : ∀ anchor body s, bodies anchor = some body → I s → (r.shared anchor).runFrom s = (.ok body, s)

variable {σ : Type} {settings : Settings} {r : Resolver σ} {I : σ → Prop} {bodies : CellAddress → Option (List Token)}

theorem Resolver.Shares.step (settings : Settings) (hr : r.Shares I bodies) (level : Nat) (t : Token) (n : Nat) (stack : Stack) {p : σ}
    (hp : I p) : I ((Machine.step (Scope.withLevels settings r level) t n stack).runFrom p).2 :=
  (step_isDialogue (withLevels_isDialogue settings level) t n stack).run_invariant (r := r)
    (P := fun s t => I s → I t) (fun _ => id) (fun h h' => h' ∘ h) hr.answer p hp

/-- With enough splices left, tokens and their expansion do the same to a machine if what stands behind them does. -/
theorem Expands.run {d : Nat} {tokens expanded : List Token} {n : Nat} (h : Expands bodies d tokens expanded n)
    (hr : r.Shares I bodies) {level k k' : Nat} {rest rest' : List Token}
    (hrest : ∀ stack p, I p → (runFor (Scope.withLevels settings r level) k rest stack).runFrom p =
      (runFor (Scope.withLevels settings r level) k' rest' stack).runFrom p) (stack : Stack) {p : σ} (hp : I p) :
    (runFor (Scope.withLevels settings r level) (k + n) (tokens ++ rest) stack).runFrom p =
      (runFor (Scope.withLevels settings r level) k' (expanded ++ rest') stack).runFrom p := by
  induction h generalizing k rest rest' stack p with
  | nil d => exact hrest stack p hp
  | @keep d t rest₁ rest₂ n ht _ ih =>
    rw [List.cons_append, List.cons_append]
    rcases t.kind_cases with hleaf | hinert | ⟨anchor, rfl⟩ | ⟨f, rfl⟩
    · rw [runFor_leaf _ hleaf, runFor_leaf _ hleaf]
      exact ih hrest _ hp
    · rw [runFor_inert _ hinert, runFor_inert _ hinert]
      exact ih hrest _ hp
    · exact absurd rfl (ht anchor)
    · rw [runFor_operation, runFor_operation, Eval.runFrom_bind, Eval.runFrom_bind]
      have hstate := hr.step settings level f.token f.arity stack hp
      rcases hstep : (step (Scope.withLevels settings r level) f.token f.arity stack).runFrom p with ⟨e | stack', p'⟩
      · rfl
      · rw [hstep] at hstate
        exact ih hrest stack' hstate
  | @expand d anchor body body' rest₁ rest₂ m n hbody _ _ ihbody ihrest =>
    -- The tokens behind the shared formula stand behind its body.
    have hk : k + (m + n + 1) = k + n + m + 1 := by omega
    rw [List.cons_append, hk, runFor_shared_succ, Eval.runFrom_observe_bind,
      (withLevels_isDialogue settings level).resolver_eq, hr.shared anchor body p hbody hp, List.append_assoc]
    exact ihbody (fun stack p hp => ihrest hrest stack hp) stack hp

end Spreadsheet
