import Spreadsheet.Evaluation.Aggregates
import Spreadsheet.Evaluation.Inspection
import Spreadsheet.Evaluation.Logic
import Spreadsheet.Evaluation.Selection

/-!
# Function calls

Arguments arrive unresolved, so that a function decides for itself what to look up.
-/

namespace Spreadsheet

variable {σ : Type}

/-- Apply a function, whatever the number of its arguments. -/
def Function.apply (s : Scope σ) (f : Function) (args : List Token) : Eval σ Token :=
  match f with
  | .count => Aggregate.count s args
  | .sum => Aggregate.sum s args
  | .average => Aggregate.average s args
  | .min => Aggregate.min s args
  | .max => Aggregate.max s args
  | .ifThen => Logic.ifThen s args
  | .ifError => Logic.ifError s args
  | .and => Logic.and s args
  | .or => Logic.or s args
  | .not => Logic.not s args
  | .true => pure (.boolean Bool.true)
  | .false => pure (.boolean Bool.false)
  | .na => pure (.ofCode .na)
  | .isNa => Inspection.test s Inspection.isNa args
  | .isError => Inspection.test s Value.isError args
  | .isErr => Inspection.test s Inspection.isErr args
  | .isText => Inspection.test s Inspection.isText args
  | .isNumber => Inspection.test s Inspection.isNumber args
  | .isBlank => Inspection.test s Inspection.isBlank args
  | .isLogical => Inspection.test s Inspection.isLogical args
  | .sumIf => Selection.sumIf s args
  | .countIf => Selection.countIf s args

/-- Call a function by its number. A wrong number of arguments gives an error value. -/
def callFunction (s : Scope σ) (id : Nat) (args : List Token) : Eval σ Token :=
  match Function.ofId? id with
  | none => throw (.functionNotSupported id)
  | some f => if f.accepts args.length then f.apply s args else pure (.ofCode .value)

theorem callFunction_of_accepts {s : Scope σ} {f : Function} {args : List Token} (h : f.accepts args.length) :
    callFunction s f.id args = f.apply s args := by
  rw [callFunction, Function.ofId?_id]
  exact if_pos h

/-- A function that takes any number of arguments from one on. -/
theorem callFunction_of_ne_nil {s : Scope σ} {f : Function} (hmin : f.minArgs = 1) (hmax : f.maxArgs? = none)
    {args : List Token} (hargs : args ≠ []) : callFunction s f.id args = f.apply s args := by
  have hlength : 1 ≤ args.length := List.length_pos_iff.2 hargs
  refine callFunction_of_accepts ?_
  rw [Function.accepts, hmin, hmax]
  simpa using hlength

end Spreadsheet
