import Spreadsheet.Evaluation.Operand

/-!
# Logical functions

IF, IFERROR, AND, OR and NOT. Only booleans and the texts `true` and `false`, in any case, have a truth value.
-/

namespace Spreadsheet.Logic

variable {σ : Type}

def truth? : Value → Option Bool
  | .boolean b => some b
  | .text t =>
    if Text.sameAscii t "true" then some true else
    if Text.sameAscii t "false" then some false else none
  | _ => none

/-- The entry at an index of a table, or the scalar itself. A table that is too short has no value there. -/
def pick (branch : Value) (i : Nat) : Value :=
  match branch with
  | v@(.array _) => v.elements.getD i (.error .na)
  | v => v

/-- A branch left out is zero. -/
def branch : Option Token → Token
  | none | some .missing => .number 0
  | some t => t

/-- The branch that a condition selects, entry by entry. -/
def select (ifTrue ifFalse : Value) (condition : Value) (i : Nat) : Value :=
  match condition with
  | .error e => .error e
  | c => if truth? c = some true then pick ifTrue i else pick ifFalse i

/-- The value of a condition. One that is a reference may fail; the failure reads as a value of the wrong type. -/
def conditionValue (s : Scope σ) (condition : Token) : Eval σ (Option Value) :=
  if condition.isReference then do
    return (← (condition.value s).observe).toOption
  else some <$> condition.value s

/-- Replace each entry of a table, given its index. -/
def mapIndexed (f : Value → Nat → Value) (v : Value) : Value :=
  .ofElements (v.elements.zipIdx.map fun (x, i) => f x i) v.columns

/-- A scalar condition gives one of the branches as it stands; a table selects entry by entry. -/
def ifThen (s : Scope σ) (args : List Token) : Eval σ Token :=
  match args with
  | condition :: branches =>
    if branches.length > 2 then pure (.ofCode .value) else do
    let ifTrue := branch branches[0]?
    let ifFalse := branch branches[1]?
    match ← conditionValue s condition with
    | none => return .ofCode .value
    | some c@(.array _) => do
      let trueValue ← ifTrue.value s
      let falseValue ← ifFalse.value s
      return .ofValue (mapIndexed (select trueValue falseValue) c)
    | some (.error e) => return .ofCode e
    | some c => return if truth? c = some true then ifTrue else ifFalse
  | [] => pure (.ofCode .value)

/-- Look at the parts of one argument until one reads as `stop`. -/
def findPart (s : Scope σ) (stop : Bool) : List Token → Eval σ Bool
  | [] => pure false
  | t :: rest => do
    if truth? (← t.value s) = some stop then return true
    findPart s stop rest

/-- Look at the arguments in turn until a part of one reads as `stop`. -/
def find (s : Scope σ) (stop : Bool) : List Token → Eval σ Bool
  | [] => pure false
  | arg :: rest => do
    if ← findPart s stop (← arg.parts s) then return true
    find s stop rest

/-- False as soon as a part reads as false. -/
def and (s : Scope σ) (args : List Token) : Eval σ Token := do
  return .boolean !(← find s false args)

/-- True as soon as a part reads as true. -/
def or (s : Scope σ) (args : List Token) : Eval σ Token := do
  return .boolean (← find s true args)

def not (s : Scope σ) (args : List Token) : Eval σ Token :=
  match args with
  | [arg] => do return .boolean (truth? (← arg.value s).corner == some false)
  | _ => pure (.ofCode .value)

/-- An entry, or the one of the replacement if it is an error. -/
def replaceError (replacement : Value) (v : Value) (i : Nat) : Value :=
  if v.isError then pick replacement i else v

/-- The first argument unless it is an error or fails, and else the second one. Tables are replaced entry by entry. -/
def ifError (s : Scope σ) (args : List Token) : Eval σ Token :=
  match args with
  | [value, fallback] => do
    match ← (value.value s).observe with
    | .error e => if e.fault?.isSome then return fallback else throw e
    | .ok v@(.array _) => return .ofValue (mapIndexed (replaceError (← fallback.value s)) v)
    | .ok v => return if v.isError then fallback else value
  | _ => pure (.ofCode .value)

end Spreadsheet.Logic
