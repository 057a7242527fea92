import Spreadsheet.Proofs.Evaluation.Expansion
import Spreadsheet.Proofs.Workbook.Moments

/-!
# Formulas with shared formulas in them

A formula has the same result as its expansion if the shared formulas in it are replaced no more often than they may be
nested (`evaluate_expanded`).  The limit on the nesting is kept by counting replacements, so that shared formulas side by
side use it up as well: the sum of 65 shared formulas, each of them the number one, is an error value
(`evaluate_sharedOnes_ne`).
-/

namespace Spreadsheet

variable {σ : Type} {r : Resolver σ} {I : σ → Prop} {bodies : CellAddress → Option (List Token)}

/-- A formula and its expansion have the same operand, the same value and the same failures, and leave the same state
behind, if there are not more replacements than the nesting limit. -/
theorem evaluate_expanded (settings : Settings) (hr : r.Shares I bodies) {d : Nat} {tokens expanded : List Token} {n : Nat}
    (h : Expands bodies d tokens expanded n) (hn : n ≤ settings.maxNestingDepth) {p : σ} (hp : I p) :
    (evaluateToken (Scope.of settings r) tokens).runFrom p = (evaluateToken (Scope.of settings r) expanded).runFrom p ∧
      (evaluateValue (Scope.of settings r) tokens).runFrom p =
        (evaluateValue (Scope.of settings r) expanded).runFrom p := by
  have htoken : (evaluateToken (Scope.of settings r) tokens).runFrom p =
      (evaluateToken (Scope.of settings r) expanded).runFrom p := by
    -- Nothing stands behind the tokens, and the splices that are not needed stay.
    have hrun : (Machine.runFor (Scope.withLevels settings r settings.maxNestingDepth)
          (settings.maxNestingDepth - n + n) (tokens ++ []) []).runFrom p =
        (Machine.runFor (Scope.withLevels settings r settings.maxNestingDepth) settings.maxNestingDepth
          (expanded ++ []) []).runFrom p :=
      h.run hr (fun stack p _ => by rw [Machine.runFor_nil, Machine.runFor_nil]) [] hp
    rw [List.append_nil, List.append_nil, Nat.sub_add_cancel hn] at hrun
    unfold evaluateToken Scope.of
    rw [(withLevels_isDialogue settings _).settings_eq]
    exact hrun
  refine ⟨htoken, ?_⟩
  unfold evaluateValue
  rw [Eval.runFrom_bind, Eval.runFrom_bind, htoken]

namespace Workbook

/-- A session finds the shared formulas of its sheet. -/
theorem resolver_shares (wb : Workbook) (i : Nat) :
    wb.resolver.Shares (fun s => s.Idle ∧ s.currentSheet = i) fun anchor => (wb.sharedTokens i anchor).toOption where
  answer := by
    rintro q s ⟨hidle, hsheet⟩
    obtain ⟨hidle', hsheet'⟩ := wb.resolver_idle q hidle
    exact ⟨hidle', hsheet'.trans hsheet⟩
  shared := by
    rintro anchor body s hbody ⟨-, rfl⟩
    have hrun := wb.resolverWith_shared (fun l => wb.settle wb.attempts l []) anchor s
    cases h : wb.sharedTokens s.currentSheet anchor with
    | error e =>
      rw [h] at hbody
      cases hbody
    | ok tokens =>
      rw [h] at hbody hrun
      cases hbody
      exact hrun

/-- A sheet with the number one as a shared formula. -/
def sharedOnes : Workbook where
  sheets := [{ name := "Sheet1", sharedFormulas := .ofList [(⟨0, 0⟩, [.integer 1])] Position.order }]

/-- The sum of `n` shared formulas side by side. -/
def sumOfShared (n : Nat) : List Token :=
  List.replicate n (.shared (.relative 0 0)) ++ [.call Function.sum.id n false]

def sumOfOnes (n : Nat) : List Token :=
  List.replicate n (.integer 1) ++ [.call Function.sum.id n false]

private theorem expands_sumOfShared (n : Nat) :
    Expands (fun anchor => (sharedOnes.sharedTokens 0 anchor).toOption) 1 (sumOfShared n) (sumOfOnes n) n := by
  have hbody : (sharedOnes.sharedTokens 0 (.relative 0 0)).toOption = some [.integer 1] := by rfl
  have happend : ∀ tail, Expands (fun anchor => (sharedOnes.sharedTokens 0 anchor).toOption) 1 tail tail 0 →
      Expands (fun anchor => (sharedOnes.sharedTokens 0 anchor).toOption) 1
        (List.replicate n (.shared (.relative 0 0)) ++ tail) (List.replicate n (.integer 1) ++ tail) n := by
    intro tail htail
    induction n with
    | zero => exact htail
    | succ n ih =>
      have hone : Expands (fun anchor => (sharedOnes.sharedTokens 0 anchor).toOption) 0 [.integer 1] [.integer 1] 0 :=
        .keep (fun _ e => nomatch e) (.nil 0)
      have h := Expands.expand hbody hone ih
      rw [Nat.zero_add n] at h
      exact h
  exact happend _ (.keep (fun _ e => nomatch e) (.nil 1))

/-- Shared formulas that are as many as may be nested. -/
theorem evaluate_sumOfShared :
    (evaluateValue sharedOnes.scope (sumOfShared 64)).runFrom (Session.new 0) =
      (evaluateValue sharedOnes.scope (sumOfOnes 64)).runFrom (Session.new 0) :=
  (evaluate_expanded sharedOnes.settings (sharedOnes.resolver_shares 0) (expands_sumOfShared 64) (by decide)
    ⟨Session.idle_new 0, rfl⟩).2

/-- The shared formula does not use others, and still 65 of it side by side are too many. -/
theorem evaluate_sharedOnes_ne :
    Expands (fun anchor => (sharedOnes.sharedTokens 0 anchor).toOption) 1 (sumOfShared 65) (sumOfOnes 65) 65 ∧
      1 ≤ sharedOnes.settings.maxNestingDepth ∧
      (sharedOnes.evaluate 0 (sumOfOnes 65)).toOption.bind Value.number? = some (.ofNat 65) ∧
      (sharedOnes.evaluate 0 (sumOfShared 65)).toOption.bind Value.number? = none ∧
      sharedOnes.evaluate 0 (sumOfShared 65) ≠ sharedOnes.evaluate 0 (sumOfOnes 65) := by
  have hones : (sharedOnes.evaluate 0 (sumOfOnes 65)).toOption.bind Value.number? = some (.ofNat 65) := by
    decide +kernel
  have hshared : (sharedOnes.evaluate 0 (sumOfShared 65)).toOption.bind Value.number? = none := by decide +kernel
  refine ⟨expands_sumOfShared 65, by decide, hones, hshared, fun e => ?_⟩
  rw [e, hones] at hshared
  cases hshared

end Workbook

end Spreadsheet
