import Spreadsheet.Address.Cell
import Spreadsheet.Address.Column
import Spreadsheet.Address.Error
import Spreadsheet.Address.Range
import Spreadsheet.Address.SheetReference
import Spreadsheet.Calendar.Date
import Spreadsheet.Calendar.Reading
import Spreadsheet.Calendar.Serial
import Spreadsheet.Criteria.Basic
import Spreadsheet.Criteria.Pattern
import Spreadsheet.Evaluation.Aggregates
import Spreadsheet.Evaluation.Arithmetic
import Spreadsheet.Evaluation.Broadcast
import Spreadsheet.Evaluation.Comparison
import Spreadsheet.Evaluation.Functions
import Spreadsheet.Evaluation.Inspection
import Spreadsheet.Evaluation.Logic
import Spreadsheet.Evaluation.Machine
import Spreadsheet.Evaluation.Operand
import Spreadsheet.Evaluation.Operators
import Spreadsheet.Evaluation.References
import Spreadsheet.Evaluation.Resolver
import Spreadsheet.Evaluation.Selection
import Spreadsheet.Formula.Error
import Spreadsheet.Formula.Function
import Spreadsheet.Formula.Opcode
import Spreadsheet.Formula.Operator
import Spreadsheet.Formula.Reference
import Spreadsheet.Formula.Rendering
import Spreadsheet.Formula.Token
import Spreadsheet.Number.Binary
import Spreadsheet.Number.Percent
import Spreadsheet.Number.Reading
import Spreadsheet.Number.Shortest
import Spreadsheet.Number.Text
import Spreadsheet.Settings
import Spreadsheet.Text.Blank
import Spreadsheet.Text.Case
import Spreadsheet.Text.Letter
import Spreadsheet.Value.Basic
import Spreadsheet.Value.ErrorCode
import Spreadsheet.Value.Scalar
import Spreadsheet.Workbook.Action
import Spreadsheet.Workbook.Basic
import Spreadsheet.Workbook.Error
import Spreadsheet.Workbook.Recalculation
import Spreadsheet.Workbook.Session
import Spreadsheet.Workbook.Sheet
import Spreadsheet.Proofs.Address.Cell
import Spreadsheet.Proofs.Address.Column
import Spreadsheet.Proofs.Address.Lattice
import Spreadsheet.Proofs.Address.Range
import Spreadsheet.Proofs.Address.Rectangle
import Spreadsheet.Proofs.Address.SheetReference
import Spreadsheet.Proofs.Criteria.Glob
import Spreadsheet.Proofs.Criteria.Pieces
import Spreadsheet.Proofs.Criteria.Relations
import Spreadsheet.Proofs.Criteria.Splitting
import Spreadsheet.Proofs.Criteria.TrailingStar
import Spreadsheet.Proofs.Evaluation.AnyResolver
import Spreadsheet.Proofs.Evaluation.BooleanCells
import Spreadsheet.Proofs.Evaluation.BoundingArea
import Spreadsheet.Proofs.Evaluation.Choices
import Spreadsheet.Proofs.Evaluation.CollectedNumbers
import Spreadsheet.Proofs.Evaluation.Comparison
import Spreadsheet.Proofs.Evaluation.ComponentValues
import Spreadsheet.Proofs.Evaluation.Components
import Spreadsheet.Proofs.Evaluation.ConditionalSums
import Spreadsheet.Proofs.Evaluation.Contract
import Spreadsheet.Proofs.Evaluation.DecidingComponents
import Spreadsheet.Proofs.Evaluation.Dialogue
import Spreadsheet.Proofs.Evaluation.EmptyIntersection
import Spreadsheet.Proofs.Evaluation.Entrywise
import Spreadsheet.Proofs.Evaluation.ErrorReplacement
import Spreadsheet.Proofs.Evaluation.Expansion
import Spreadsheet.Proofs.Evaluation.Expression
import Spreadsheet.Proofs.Evaluation.FirstError
import Spreadsheet.Proofs.Evaluation.Intersection
import Spreadsheet.Proofs.Evaluation.Mirror
import Spreadsheet.Proofs.Evaluation.Moves
import Spreadsheet.Proofs.Evaluation.OneStep
import Spreadsheet.Proofs.Evaluation.Operands
import Spreadsheet.Proofs.Evaluation.Partners
import Spreadsheet.Proofs.Evaluation.Paths
import Spreadsheet.Proofs.Evaluation.ReferenceOperands
import Spreadsheet.Proofs.Evaluation.ResolvedResults
import Spreadsheet.Proofs.Evaluation.Selection
import Spreadsheet.Proofs.Evaluation.Unions
import Spreadsheet.Proofs.Evaluation.UnusedOperands
import Spreadsheet.Proofs.Evaluation.Verdict
import Spreadsheet.Proofs.Evaluation.Within
import Spreadsheet.Proofs.Formula.ReferenceText
import Spreadsheet.Proofs.Formula.Rendering
import Spreadsheet.Proofs.Number.Finite
import Spreadsheet.Proofs.Number.Order
import Spreadsheet.Proofs.Number.Text
import Spreadsheet.Proofs.Text.Ascii
import Spreadsheet.Proofs.Text.DistinctNames
import Spreadsheet.Proofs.Text.LetterCase
import Spreadsheet.Proofs.Text.Trimming
import Spreadsheet.Proofs.Value.Tables
import Spreadsheet.Proofs.Workbook.Actions
import Spreadsheet.Proofs.Workbook.Agreement
import Spreadsheet.Proofs.Workbook.BrokenFormulas
import Spreadsheet.Proofs.Workbook.CircularMark
import Spreadsheet.Proofs.Workbook.Circularity
import Spreadsheet.Proofs.Workbook.Coherence
import Spreadsheet.Proofs.Workbook.DefinedNames
import Spreadsheet.Proofs.Workbook.Denotations
import Spreadsheet.Proofs.Workbook.DirectEvaluation
import Spreadsheet.Proofs.Workbook.Edits
import Spreadsheet.Proofs.Workbook.FatalErrors
import Spreadsheet.Proofs.Workbook.FiniteNumbers
import Spreadsheet.Proofs.Workbook.Ideal
import Spreadsheet.Proofs.Workbook.LookUp
import Spreadsheet.Proofs.Workbook.Moments
import Spreadsheet.Proofs.Workbook.Operations
import Spreadsheet.Proofs.Workbook.Outcomes
import Spreadsheet.Proofs.Workbook.Recalculation
import Spreadsheet.Proofs.Workbook.References
import Spreadsheet.Proofs.Workbook.Replacement
import Spreadsheet.Proofs.Workbook.Results
import Spreadsheet.Proofs.Workbook.SessionContracts
import Spreadsheet.Proofs.Workbook.Settling
import Spreadsheet.Proofs.Workbook.SharedFormulas
import Spreadsheet.Proofs.Workbook.SheetNames
import Spreadsheet.Proofs.Workbook.SheetStore
import Spreadsheet.Proofs.Workbook.SheetsByName
import Spreadsheet.Proofs.Workbook.Termination
import Spreadsheet.Proofs.Workbook.Updates
import Spreadsheet.Proofs.Workbook.Valuation
import Spreadsheet.Proofs.Address.Walk
import Spreadsheet.Proofs.Evaluation.Areas
import Spreadsheet.Proofs.Number.ExactValue
import Spreadsheet.Proofs.Number.Integer
import Spreadsheet.Proofs.Calendar.DayNumber
import Spreadsheet.Proofs.Calendar.Serial
import Spreadsheet.Proofs.Criteria.Integers
import Spreadsheet.Proofs.Evaluation.IntegerText
