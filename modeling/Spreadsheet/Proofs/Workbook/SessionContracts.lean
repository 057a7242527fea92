import Spreadsheet.Proofs.Evaluation.Moves
import Spreadsheet.Proofs.Workbook.BrokenFormulas

/-!
# Contracts of sessions

A session keeps a contract if looking up its cells does and the definitions of the workbook are as the contract has
them.  Evaluating a formula inside the session then keeps the contract at every level (`Supplies.withLevels_honours`),
and so does the value that its cell shows (`evaluateWithin_keeps`).  What a request in a new session answers is the
outcome of such an evaluation (`evaluate_eq_ok`, `evaluateCell_eq_ok`).
-/

namespace Spreadsheet.Workbook

variable {wb : Workbook} {lookUp : Location → Eval Session Scalar} {c : Contract Session}

open Eval

/-- Looking up a cell keeps the contract, and all definitions are as it has them. -/
structure Supplies (wb : Workbook) (lookUp : Location → Eval Session Scalar) (c : Contract Session) : Prop where
  cell : ∀ l, (lookUp l).Keeps c (Scalar.Within c.number)
  name : ∀ id tokens, wb.nameTokens id = .ok tokens → c.definition tokens
  shared : ∀ i anchor tokens, wb.sharedTokens i anchor = .ok tokens → c.definition tokens

private theorem fault?_of_nameTokens {id : Nat} {e : FormulaError} (h : wb.nameTokens id = .error e) :
    e.fault?.isSome := by
  unfold nameTokens at h
  split at h
  · cases h
  · cases h
    rfl

private theorem fault?_of_sharedTokens {i : Nat} {anchor : CellAddress} {e : FormulaError}
    (h : wb.sharedTokens i anchor = .error e) : e.fault?.isSome := by
  unfold sharedTokens at h
  split at h
  · cases h
  · cases h
    rfl

namespace Supplies

variable (h : wb.Supplies lookUp c)
include h

private theorem cell_keeps (sheet : Option String) (a : CellAddress) :
    ((wb.resolverWith lookUp).cell sheet a).Keeps c (Scalar.Within c.number) := by
  intro s hs
  show c.state (((wb.resolverWith lookUp).answer (.cell sheet a)).runFrom s).2 ∧
    Satisfies _ _ (((wb.resolverWith lookUp).answer (.cell sheet a)).runFrom s).1
  rw [resolverWith_cell]
  cases hi : wb.findSheet s.currentSheet sheet with
  | error e => exact ⟨hs, c.fault e (isSome_fault?_of_findSheet hi)⟩
  | ok i => exact h.cell _ s hs

private theorem name_keeps (id : Nat) : ((wb.resolverWith lookUp).name id).Keeps c c.definition := by
  intro s hs
  show c.state (((wb.resolverWith lookUp).answer (.name id)).runFrom s).2 ∧
    Satisfies _ _ (((wb.resolverWith lookUp).answer (.name id)).runFrom s).1
  rw [resolverWith_name]
  cases hn : wb.nameTokens id with
  | error e => exact ⟨hs, c.fault e (fault?_of_nameTokens hn)⟩
  | ok tokens => exact ⟨hs, h.name id tokens hn⟩

private theorem shared_keeps (anchor : CellAddress) :
    ((wb.resolverWith lookUp).shared anchor).Keeps c c.definition := by
  intro s hs
  show c.state (((wb.resolverWith lookUp).answer (.shared anchor)).runFrom s).2 ∧
    Satisfies _ _ (((wb.resolverWith lookUp).answer (.shared anchor)).runFrom s).1
  rw [resolverWith_shared]
  cases hn : wb.sharedTokens s.currentSheet anchor with
  | error e => exact ⟨hs, c.fault e (fault?_of_sharedTokens hn)⟩
  | ok tokens => exact ⟨hs, h.shared _ anchor tokens hn⟩

theorem withLevels_honours
    (hrun : ∀ n tokens, (Scope.withLevels wb.settings (wb.resolverWith lookUp) n).Honours c → c.definition tokens →
      (evaluateToken (Scope.withLevels wb.settings (wb.resolverWith lookUp) n) tokens).Keeps c c.Operand) (n : Nat) :
    (Scope.withLevels wb.settings (wb.resolverWith lookUp) n).Honours c :=
  Spreadsheet.withLevels_honours h.cell_keeps h.name_keeps h.shared_keeps hrun n

end Supplies

/-- A formula that keeps the contract as an operand keeps it as the value of a cell. -/
theorem evaluateWithin_keeps {n : Nat} {tokens : List Token} (hs : (wb.scopeWithin n).Honours c)
    (h : (evaluateToken (wb.scopeWithin n) tokens).Keeps c c.Operand) :
    (wb.evaluateWithin n tokens).Keeps c (Scalar.Within c.number) := by
  intro s hstate
  obtain ⟨hstate', hresult⟩ := h s hstate
  rw [evaluateWithin_runFrom]
  cases hrun : ((evaluateToken (wb.scopeWithin n) tokens).runFrom s).1 with
  | error e => exact ⟨hstate', trivial⟩
  | ok t =>
    rw [hrun] at hresult
    dsimp only
    split
    · exact ⟨hstate', c.circular⟩
    · exact ((t.value_keeps hs hresult).map fun v hv => hv.corner.toScalar) _ hstate'

/-! ### Requests in a new session -/

private theorem mapError_eq_ok {ε ε' α : Type} {f : ε → ε'} {x : Except ε α} {a : α} (h : x.mapError f = .ok a) :
    x = .ok a := by
  cases x with
  | ok b =>
    cases h
    rfl
  | error e => cases h

private theorem mapError_eq_error {ε ε' α : Type} {f : ε → ε'} {x : Except ε α} {e : ε'} (h : x.mapError f = .error e) :
    ∃ e', x = .error e' ∧ e = f e' := by
  cases x with
  | ok b => cases h
  | error e' =>
    cases h
    exact ⟨e', rfl, rfl⟩

theorem evaluate_eq_ok {sheet : Nat} {tokens : List Token} {v : Value} (h : wb.evaluate sheet tokens = .ok v) :
    ((evaluateValue wb.scope tokens).runFrom (Session.new sheet)).1 = .ok v := by
  unfold evaluate checkSheet at h
  split at h
  · exact mapError_eq_ok h
  · cases h

theorem evaluate_eq_error {sheet : Nat} (hsheet : sheet < wb.sheetCount) {tokens : List Token} {e : WorkbookError}
    (h : wb.evaluate sheet tokens = .error e) :
    ∃ e', ((evaluateValue wb.scope tokens).runFrom (Session.new sheet)).1 = .error e' ∧ e = .formula e' := by
  unfold evaluate checkSheet at h
  rw [if_pos hsheet] at h
  exact mapError_eq_error h

theorem evaluateCell_eq_ok {sheet : Nat} {address : String} {v : Scalar} (h : wb.evaluateCell sheet address = .ok v) :
    ∃ p, shownInCell ((wb.cellValue ⟨sheet, p⟩).runFrom (Session.new sheet)).1 = .ok v := by
  unfold evaluateCell checkSheet at h
  split at h
  · cases hp : Sheet.readPosition address with
    | error e =>
      rw [hp] at h
      cases h
    | ok p =>
      rw [hp] at h
      exact ⟨p, mapError_eq_ok h⟩
  · cases h

end Spreadsheet.Workbook
