import Std.Data.TreeMap
import Spreadsheet.Evaluation.Machine
import Spreadsheet.Workbook.Basic

/-!
# Sessions

A session evaluates formula cells on demand and keeps their values. The cells being evaluated inside one another are
tracked, so that a cell that is asked for again depends on itself. At most `maxChain` cells are evaluated inside one
another: a longer chain is cut, the cell behind the cut is evaluated on its own, and then the chain is tried again.
-/

namespace Spreadsheet

/-- A cell of a workbook. -/
structure Location where
  sheet : Nat
  position : Position
deriving DecidableEq, Repr

namespace Location

/-- Sheet by sheet, and on each sheet by rows. -/
abbrev order : Location → Location → Ordering :=
  compareLex (compareOn sheet) (compareLex (compareOn (·.position.row)) (compareOn (·.position.col)))

instance : Std.LawfulEqCmp order where
  eq_of_compare {a b} h := by
    simp only [compareLex, compareOn, Ordering.then_eq_eq, Nat.compare_eq_eq] at h
    obtain ⟨hsheet, hrow, hcol⟩ := h
    rcases a with ⟨i, p, q⟩
    rcases b with ⟨j, p', q'⟩
    simp_all

end Location

structure Session where
  /-- The sheet of the formula being evaluated. -/
  currentSheet : Nat
  /-- The formula cells being evaluated, the innermost one first. -/
  inProgress : List Location
  /-- The first cell behind a cut since the last attempt. -/
  deferred : Option Location
  /-- Outcomes of formula cells. -/
  cache : Std.TreeMap Location (Except FormulaError Scalar) Location.order

/-- How many formula cells are evaluated inside one another. -/
def maxChain : Nat := 32

namespace Session

/-- A session for formulas of a sheet. -/
def new (sheet : Nat) : Session :=
  ⟨sheet, [], none, ∅⟩

/-- Begin the evaluation of a cell. -/
def enter (s : Session) (l : Location) : Session :=
  { s with inProgress := l :: s.inProgress, currentSheet := l.sheet }

/-- End the evaluation of the innermost cell and go back to a sheet. -/
def leave (s : Session) (sheet : Nat) : Session :=
  { s with inProgress := s.inProgress.tail, currentSheet := sheet }

/-- Note the cell behind a cut; only the first one counts. -/
def defer (s : Session) (l : Location) : Session :=
  { s with deferred := s.deferred.or (some l) }

def store (s : Session) (l : Location) (r : Except FormulaError Scalar) : Session :=
  { s with cache := s.cache.insert l r }

/-- Keep a value. Values seen after a cut may depend on it and are not kept. -/
def keep (s : Session) (l : Location) (v : Scalar) : Session :=
  if s.deferred.isNone then s.store l (.ok v) else s

end Session

/-- The value of a formula as a cell shows it. A formula that is no formula is an error value; a table is cut down to its
top-left entry. -/
def evaluateFormula {σ : Type} (settings : Settings) (r : Resolver σ) (tokens : List Token) : Eval σ Scalar := do
  let s := Scope.of settings r
  match ← (evaluateToken s tokens).observe with
  | .error _ => return .error .value
  | .ok t =>
    if t.isCircular then throw .circular else
    return (← t.value s).corner.toScalar

/-- The value of a formula cell. Without a way to evaluate its tokens the chain is cut here. -/
def lookUpFormula (evaluate : Option (List Token → Eval Session Scalar)) (l : Location) (tokens : List Token) :
    Eval Session Scalar := do
  let s ← get
  match s.cache[l]? with
  | some r => Eval.ofExcept r
  | none =>
    if s.inProgress.contains l then throw .circular else
    match evaluate with
    | none =>
      set (s.defer l)
      throw (.code .value)
    | some evaluate =>
      set (s.enter l)
      let r ← (evaluate tokens).observe
      modify (·.leave s.currentSheet)
      let v ← Eval.ofExcept r
      modify (·.keep l v)
      return v

namespace Workbook

/-- The value of a cell, given how to find the value of a formula cell. -/
def lookUpWith {σ : Type} (wb : Workbook) (formula : Location → List Token → Eval σ Scalar) (l : Location) :
    Eval σ Scalar :=
  match wb.sheet? l.sheet with
  | none => throw (.code .ref)
  | some sheet =>
    match sheet.cell? l.position with
    | none => pure .empty
    | some (.constant v) => pure v
    | some (.formula tokens) => formula l tokens

/-- The index of a named sheet, or of the current one. -/
def findSheet (wb : Workbook) (current : Nat) : Option String → Except FormulaError Nat
  | none => .ok current
  | some name =>
    match wb.sheetIndex? name with
    | some i => .ok i
    | none => .error (.code .ref)

/-- Answers from the workbook, given the sheet of the formula and how to look up a cell. -/
def resolverOn {σ : Type} (wb : Workbook) (current : Eval σ Nat) (lookUp : Location → Eval σ Scalar) : Resolver σ where
  cell sheet a := do
    let i ← Eval.ofExcept (wb.findSheet (← current) sheet)
    lookUp ⟨i, a.position⟩
  name id :=
    match wb.definedName? id with
    | some n => pure n.tokens
    | none => throw (.unknownName id)
  shared anchor := do
    match (wb.sheet? (← current)).bind (·.shared? anchor.position) with
    | some tokens => return tokens
    | none => throw (.noSharedFormula anchor)

/-- Answers from the workbook for the formula that a session evaluates. -/
def resolverWith (wb : Workbook) (lookUp : Location → Eval Session Scalar) : Resolver Session :=
  wb.resolverOn (return (← get).currentSheet) lookUp

/-- The value of a cell, when `n` more formula cells may be evaluated inside one another. -/
def lookUp (wb : Workbook) : Nat → Location → Eval Session Scalar
  | 0 => wb.lookUpWith (lookUpFormula none)
  | n + 1 => wb.lookUpWith (lookUpFormula (some (evaluateFormula wb.settings (wb.resolverWith (lookUp wb n)))))

/-- Try to evaluate a cell, and take the cell behind the cut, if there was one, out of the session. -/
def attempt (wb : Workbook) (l : Location) : Eval Session (Except FormulaError Scalar × Option Location) := do
  let r ← (wb.lookUp maxChain l).observe
  let s ← get
  set { s with deferred := none }
  return (r, s.deferred)

/-- Hand on the outcome for `l`, or keep it and settle the cell that waits. -/
def goBack (settle : Location → List Location → Eval Session Scalar) (r : Except FormulaError Scalar) (l : Location) :
    List Location → Eval Session Scalar
  | [] => Eval.ofExcept r
  | next :: waiting => do
    modify (·.store l r)
    settle next waiting

/-- Evaluate the cell `l`, for which the cells `waiting` wait, the one that needs it first. A chain cut a second time at
the same cell runs back into itself. -/
def settle (wb : Workbook) : Nat → Location → List Location → Eval Session Scalar
  | 0, _, _ => throw .circular
  | fuel + 1, l, waiting => do
    let (r, deferred) ← wb.attempt l
    match deferred with
    | some deeper =>
      if (l :: waiting).contains deeper then goBack (settle wb fuel) (.error .circular) l waiting else
      settle wb fuel deeper (l :: waiting)
    | none => goBack (settle wb fuel) r l waiting

/-- How many attempts a single question can take: every formula cell waits at most once and is tried once more then. -/
def attempts (wb : Workbook) : Nat :=
  2 * wb.formulaCount + 1

/-- The value of a cell. -/
def cellValue (wb : Workbook) (l : Location) : Eval Session Scalar :=
  wb.settle wb.attempts l []

/-- Answers from the workbook, each with a chain of its own. -/
def resolver (wb : Workbook) : Resolver Session :=
  let attempts := wb.attempts
  wb.resolverWith fun l => wb.settle attempts l []

/-- What a formula of the session's sheet can consult. -/
def scope (wb : Workbook) : Scope Session :=
  Scope.of wb.settings wb.resolver

end Workbook

end Spreadsheet
