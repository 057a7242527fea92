import Spreadsheet.Text.Letter
import Spreadsheet.Workbook.Sheet

/-!
# Workbooks

Sheets in order, defined names numbered from one, and the settings for evaluation. Sheets and names are found whatever
the case of their ASCII letters.
-/

namespace Spreadsheet

structure DefinedName where
  name : String
  tokens : List Token
deriving DecidableEq, Repr

structure Workbook where
  sheets : List Sheet
  names : List DefinedName := []
  settings : Settings := {}

namespace Workbook

/-- A workbook without sheets. -/
def empty : Workbook :=
  { sheets := [] }

/-- A workbook with one sheet. -/
def new : Workbook :=
  { sheets := [{ name := "Sheet1" }] }

def sheetCount (wb : Workbook) : Nat :=
  wb.sheets.length

def sheet? (wb : Workbook) (i : Nat) : Option Sheet :=
  wb.sheets[i]?

/-- The index, if there is such a sheet. -/
def checkSheet (wb : Workbook) (i : Nat) : Except WorkbookError Nat :=
  if i < wb.sheetCount then .ok i else .error (.sheetOutOfBounds i wb.sheetCount)

/-- The index of a sheet. -/
def sheetIndex? (wb : Workbook) (name : String) : Option Nat :=
  wb.sheets.findIdx? fun s => Text.sameAscii s.name name

/-- Characters that a sheet name must not have. -/
def isForbidden (c : Char) : Bool :=
  c == ':' || c == '\\' || c == '/' || c == '?' || c == '*' || c == '[' || c == ']'

/-- A sheet other than the one at `except` has the name. -/
def nameInUse (wb : Workbook) (name : String) (except : Option Nat) : Bool :=
  wb.sheets.zipIdx.any fun (s, i) => some i != except && Text.sameAscii s.name name

/-- Why a sheet cannot have a name, if so; the sheet at `except` may have it already. -/
def sheetNameError? (wb : Workbook) (name : String) (except : Option Nat) : Option WorkbookError :=
  if name.toList.isEmpty then some .emptySheetName else
  if name.toList.length > maxSheetName then some .longSheetName else
  match name.toList.find? isForbidden with
  | some c => some (.sheetNameChar c)
  | none => if wb.nameInUse name except then some (.duplicateSheetName name) else none

/-- The name, if a sheet can have it; the sheet at `except` may have it already. -/
def checkSheetName (wb : Workbook) (name : String) (except : Option Nat) : Except WorkbookError String :=
  match wb.sheetNameError? name except with
  | some e => .error e
  | none => .ok name

/-- Add a sheet at the end; the result is its index. -/
def addSheet (name : String) : Action Workbook Nat := do
  let wb ← get
  let name ← wb.checkSheetName name none
  modify fun wb => { wb with sheets := wb.sheets ++ [{ name }] }
  return wb.sheetCount

/-- Names to give to a sheet that comes without one. The first one that is free is within the number of sheets. -/
def defaultNames (wb : Workbook) : List String :=
  (List.range' (wb.sheetCount + 1) (wb.sheetCount + 1)).map fun n => s!"Sheet{n}"

/-- A name that no sheet has. -/
def freeName (wb : Workbook) : String :=
  (wb.defaultNames.find? fun name => (wb.sheetNameError? name none).isNone).getD ""

/-- Add a sheet with a name of its own. -/
def addDefaultSheet : Action Workbook Nat := do
  addSheet (← get).freeName

def renameSheet (i : Nat) (name : String) : Action Workbook Unit := do
  let wb ← get
  let i ← wb.checkSheet i
  let name ← wb.checkSheetName name (some i)
  modify fun wb => { wb with sheets := wb.sheets.modify i fun s => { s with name } }

/-- The number of a name. -/
def nameId? (wb : Workbook) (name : String) : Option Nat :=
  (wb.names.findIdx? fun n => Text.sameAscii n.name name).map (· + 1)

/-- The name of a number. -/
def definedName? (wb : Workbook) (id : Nat) : Option DefinedName :=
  if id = 0 then none else wb.names[id - 1]?

/-- Names begin with a letter, an underscore or a backslash, and have no blanks in them. -/
def isNameText (s : List Char) : Bool :=
  match s with
  | [] => false
  | c :: _ => (Text.isLetter c || c == '_' || c == '\\') && !s.any Text.isBlank

/-- Name numbers are stored in 16 bits. -/
def maxNames : Nat := 65535

/-- The name without the blanks around it, if it can be defined. -/
def checkName (wb : Workbook) (name : String) : Except WorkbookError String :=
  let name := String.ofList (Text.trim name.toList)
  if !isNameText name.toList then .error (.malformedName name) else
  if (wb.nameId? name).isSome then .error (.nameTaken name) else
  if wb.names.length ≥ maxNames then .error (.tooManyNames name) else .ok name

/-- Define a name; the result is its number. -/
def defineName (name : String) (tokens : List Token) : Action Workbook Nat := do
  let wb ← get
  let name ← wb.checkName name
  modify fun wb => { wb with names := wb.names ++ [⟨name, tokens⟩] }
  return wb.names.length + 1

/-- Change the sheet at an index, if there is one. The workbook has the sheet that is left, also if the change fails. -/
def editSheet {α : Type} (i : Nat) (edit : Action Sheet α) : Action Workbook α := do
  let wb ← get
  match wb.sheet? i with
  | none => throw (.sheetOutOfBounds i wb.sheetCount)
  | some sheet =>
    let (outcome, sheet) := edit.runOn sheet
    modify fun wb => { wb with sheets := wb.sheets.set i sheet }
    liftM outcome

/-- How many formulas there are on all sheets. -/
def formulaCount (wb : Workbook) : Nat :=
  (wb.sheets.flatMap fun s => s.formulas).length

end Workbook

end Spreadsheet
