import ClassScript.Text.Ranges
import ClassScript.Text.Alphabetic
import ClassScript.Text.Numeral
import ClassScript.Text.Extend
import ClassScript.Text.Unprintable
import ClassScript.Text.Classes
import ClassScript.Text.Hex
import ClassScript.Text.Lines
import ClassScript.Text.Integer
import ClassScript.Text.Inspect
import ClassScript.Number.Binary
import ClassScript.Number.Decimal
import ClassScript.Number.Shortest
import ClassScript.Model.Class
import ClassScript.Model.Expr
import ClassScript.Model.Hierarchy
import ClassScript.Model.Literal
import ClassScript.Model.Program
import ClassScript.Model.Stmt
import ClassScript.Model.Type
import ClassScript.Model.Inspect
import ClassScript.Model.Decode
import ClassScript.Model.Encode
import ClassScript.Script.Quoted
import ClassScript.Script.Identifier
import ClassScript.Script.Constant
import ClassScript.Script.Operator
import ClassScript.Json.Value
import ClassScript.Json.Fault
import ClassScript.Json.Scan
import ClassScript.Json.Skip
import ClassScript.Json.Reader
import ClassScript.Json.Record
import ClassScript.Output.Writer
import ClassScript.Output.Doc
import ClassScript.Output.StringPool
import ClassScript.Output.Vlq
import ClassScript.Output.LineMap
import ClassScript.Output.EntryPoint
import ClassScript.Output.File
import ClassScript.Output.Store
import ClassScript.Output.FileTree
import ClassScript.Emission.Error
import ClassScript.Emission.Config
import ClassScript.Emission.Event
import ClassScript.Emission.State
import ClassScript.Emission.Names
import ClassScript.Emission.Expression
import ClassScript.Emission.Body
import ClassScript.Emission.Method
import ClassScript.Emission.Class
import ClassScript.Emission.Program
import ClassScript.CommandLine.Arguments
import ClassScript.CommandLine.Run
import ClassScript.Main
import ClassScript.Proofs.Lineage
import ClassScript.Proofs.Run
import ClassScript.Proofs.FieldNaming
import ClassScript.Proofs.FieldNumbering
import ClassScript.Proofs.EmissionOrder
import ClassScript.Proofs.Lists
import ClassScript.Proofs.Tokens
import ClassScript.Proofs.Grammar
import ClassScript.Proofs.OperandText
import ClassScript.Proofs.LeafText
import ClassScript.Proofs.ScriptValue
import ClassScript.Proofs.IntegerExpr
import ClassScript.Proofs.WordArithmetic
import ClassScript.Proofs.LoweredExpression
import ClassScript.Proofs.AlikeJobs
import ClassScript.Proofs.AlikeClasses
import ClassScript.Proofs.DocLines
import ClassScript.Proofs.SwitchLowering
import ClassScript.Proofs.SwitchEmission
import ClassScript.Proofs.ControlText
import ClassScript.Proofs.SwitchSelection
import ClassScript.Proofs.SwitchForms
import ClassScript.Proofs.Assembly
import ClassScript.Proofs.NameMemo
import ClassScript.Proofs.PoolSlots
import ClassScript.Proofs.PoolHistory
import ClassScript.Proofs.MethodOutcome
import ClassScript.Proofs.DebugLowering
import ClassScript.Proofs.DocText
import ClassScript.Proofs.AlikePrograms
import ClassScript.Proofs.ProgramRun
import ClassScript.Proofs.DebugMode
import ClassScript.Proofs.LoweredParts
import ClassScript.Proofs.PoolBlock
import ClassScript.Proofs.LineMapReading
import ClassScript.Proofs.MarkPlacement
import ClassScript.Proofs.SourceLayout
import ClassScript.Proofs.SourceMapping
import ClassScript.Proofs.LineMapRecords
import ClassScript.Proofs.QuotedText
import ClassScript.Proofs.SlotNames
import ClassScript.Proofs.Assignment
import ClassScript.Proofs.CallSites
import ClassScript.Proofs.ClassAssignment
import ClassScript.Proofs.ClassBindings
import ClassScript.Proofs.Dispatch
import ClassScript.Proofs.BodyReading
import ClassScript.Proofs.RoundTrip
import ClassScript.Proofs.FieldCollisions
import ClassScript.Proofs.FieldLookup
import ClassScript.Proofs.RelatedClasses
import ClassScript.Proofs.LineShift
import ClassScript.Proofs.FragmentNesting
import ClassScript.Proofs.BodyFaults
import ClassScript.Proofs.ProgramFaults
import ClassScript.Proofs.ClosedReferences
import ClassScript.Proofs.CommandVerdict
import ClassScript.Proofs.CaughtException
import ClassScript.Proofs.RevisedLowering
import ClassScript.Proofs.ClassOrder
import ClassScript.Proofs.InsertedLine
import ClassScript.Proofs.RemovedBody
import ClassScript.Proofs.StringlessBodies
import ClassScript.Proofs.OneApart
import ClassScript.Proofs.Recovery
import ClassScript.Proofs.RecoveredProgram
import ClassScript.Proofs.GuardedNatives
import ClassScript.Proofs.BodySelection
import ClassScript.Proofs.SlotContents
import ClassScript.Proofs.SharedBodies
import ClassScript.Proofs.StatementPlaces
import ClassScript.Proofs.PlainExits
import ClassScript.Proofs.SwitchArms
import ClassScript.Proofs.StatementParts
import ClassScript.Proofs.StaticInitializers
import ClassScript.Proofs.InitializerOrder
import ClassScript.Proofs.MethodLookup
import ClassScript.Proofs.WriterLaws
import ClassScript.Proofs.ReadBack
import ClassScript.Proofs.BracketReading
import ClassScript.Proofs.OperatorShapes
import ClassScript.Proofs.OperandTemplates
import ClassScript.Proofs.OperandLowering
import ClassScript.Proofs.StubText
import ClassScript.Proofs.VariableNames
import ClassScript.Proofs.WordReading
import ClassScript.Proofs.References
import ClassScript.Proofs.WordTemplates
import ClassScript.Proofs.LoweredNames
import ClassScript.Proofs.StatementNames
import ClassScript.Proofs.FunctionNames
import ClassScript.Proofs.DistinctVariables
import ClassScript.Proofs.CapturedNames
import ClassScript.Proofs.LegalVariables
import ClassScript.Proofs.IntegerConstants
import ClassScript.Proofs.ClassIndex
import ClassScript.Proofs.LineOpenings
import ClassScript.Proofs.ReturnLines
import ClassScript.Proofs.ReceiverReturns
import ClassScript.Proofs.EmittedMethods
import ClassScript.Proofs.MarkerCount
import ClassScript.Proofs.StubCount
