import Spreadsheet.Evaluation.Operand

/-!
# Aggregates

SUM, AVERAGE, MIN, MAX and COUNT. The first four look at numbers only inside references and arrays, while a value given
directly as an argument also counts if it is a boolean or numeric text.
-/

namespace Spreadsheet.Aggregate

variable {σ : Type}

/-- Add the numbers among values to those found before, the last one first. An error value ends the search. -/
def scanNumbers (found : List Float) : List Value → Except FormulaError (List Float)
  | [] => .ok found
  | .number x :: rest => scanNumbers (x :: found) rest
  | .error e :: _ => .error (.code e)
  | _ :: rest => scanNumbers found rest

/-- Add the number of a direct argument. -/
def scanDirect (found : List Float) : Value → Except FormulaError (List Float)
  | .number x => .ok (x :: found)
  | .boolean b => .ok ((if b then 1 else 0) :: found)
  | .text t =>
    match Number.ofText? t with
    | some x => .ok (x :: found)
    | none => .error (.code .value)
  | .error e => .error (.code e)
  | .empty => .ok found
  | v@(.array _) => scanNumbers found v.elements

/-- Add the numbers of components. -/
def scanComponents (s : Scope σ) (found : List Float) : List Token → Eval σ (List Float)
  | [] => pure found
  | t :: rest =>
    if t.isCircular then throw .circular else do
      let v ← t.value s
      let found ← Eval.ofExcept (scanNumbers found v.elements)
      scanComponents s found rest

/-- Add the numbers of an argument. -/
def scanArgument (s : Scope σ) (found : List Float) (arg : Token) : Eval σ (List Float) :=
  if arg.isCircular then throw .circular else do
    match ← arg.components s with
    | some parts => scanComponents s found parts
    | none =>
      if arg.isReference then scanComponents s found [arg] else
      Eval.ofExcept (scanDirect found (← arg.value s))

/-- The numbers among the arguments, in order. -/
def numbers (s : Scope σ) (args : List Token) : Eval σ (List Float) := do
  return (← args.foldlM (scanArgument s) []).reverse

/-- Add up from the left. -/
def total (xs : List Float) : Float :=
  xs.foldl (· + ·) 0

/-- The smaller of two numbers; one that is no number gives way. Of two equal ones, such as the two zeros, it is the
later. -/
def lesser (x y : Float) : Float :=
  if y.isNaN then x else if x < y then x else y

/-- The greater of two numbers; one that is no number gives way. Of two equal ones it is the later. -/
def greater (x y : Float) : Float :=
  if y.isNaN then x else if x > y then x else y

/-- Combine all numbers from the left; without any the result is zero. -/
def reduce (f : Float → Float → Float) : List Float → Float
  | [] => 0
  | x :: xs => xs.foldl f x

def sum (s : Scope σ) (args : List Token) : Eval σ Token := do
  return .number (total (← numbers s args))

/-- The mean; without numbers it divides by zero. -/
def average (s : Scope σ) (args : List Token) : Eval σ Token := do
  match ← numbers s args with
  | [] => throw (.code .div0)
  | xs => return .number (total xs / Float.ofNat xs.length)

def min (s : Scope σ) (args : List Token) : Eval σ Token := do
  return .number (reduce lesser (← numbers s args))

def max (s : Scope σ) (args : List Token) : Eval σ Token := do
  return .number (reduce greater (← numbers s args))

def isNumber : Value → Bool
  | .number _ => true
  | _ => false

/-- How many values are numbers; errors do not matter. -/
def count (s : Scope σ) (args : List Token) : Eval σ Token := do
  return .number (Float.ofNat ((← Token.allValues s args).countP isNumber))

end Spreadsheet.Aggregate
