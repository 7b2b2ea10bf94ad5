import CallGate.Abi.ArgType
import CallGate.Abi.Builtin
import CallGate.Abi.Descriptor
import CallGate.Abi.Errno
import CallGate.Abi.Load
import CallGate.Abi.Reading
import CallGate.Abi.Registry
import CallGate.Data.Issue
import CallGate.Data.Keyed
import CallGate.Data.Moment
import CallGate.Data.Operation
import CallGate.Data.Position
import CallGate.Data.Value
import CallGate.Number.Binary64
import CallGate.Number.Literal
import CallGate.Number.Shortest
import CallGate.Number.TwosComplement
import CallGate.Policy
import CallGate.Policy.Action
import CallGate.Policy.Action.Reading
import CallGate.Policy.Bound
import CallGate.Policy.Builder
import CallGate.Policy.Error
import CallGate.Policy.Expression
import CallGate.Policy.Guard
import CallGate.Policy.HostFunction
import CallGate.Policy.Predicate
import CallGate.Policy.Screening
import CallGate.Policy.Statement
import CallGate.Policy.Term
import CallGate.Report
import CallGate.Report.Reading
import CallGate.Text.Blank
import CallGate.Text.CodePoint
import CallGate.Text.DecimalDigit
import CallGate.Text.LowerCase
import CallGate.Text.Printable
import CallGate.Text.Quoted
import CallGate.Wasm.ByteCursor
import CallGate.Wasm.Decoder
import CallGate.Wasm.Fault
import CallGate.Wasm.Import
import CallGate.Wasm.Module
import CallGate.Wasm.Type
import CallGate.Wasm.Type.Decoder
import CallGate.Yaml.Base64
import CallGate.Yaml.Block
import CallGate.Yaml.Construction
import CallGate.Yaml.Cursor
import CallGate.Yaml.Document
import CallGate.Yaml.Folding
import CallGate.Yaml.Merge
import CallGate.Yaml.Node
import CallGate.Yaml.Node.Reader
import CallGate.Yaml.Plain
import CallGate.Yaml.Quoted
import CallGate.Yaml.Scalar
import CallGate.Yaml.Tag
import CallGate.Yaml.Token
import CallGate.Yaml.Token.Lexer
import CallGate.Proofs.Wasm.Grammar
import CallGate.Proofs.Wasm.Integer
import CallGate.Proofs.Wasm.Counted
import CallGate.Proofs.Wasm.TypeGrammar
import CallGate.Proofs.Wasm.TypeSection
import CallGate.Proofs.Data.Outcome
import CallGate.Proofs.Data.Checked
import CallGate.Proofs.Wasm.ModuleGrammar
import CallGate.Proofs.Wasm.ImportScan
import CallGate.Proofs.Policy.Evaluation
import CallGate.Proofs.Policy.Course
import CallGate.Proofs.Policy.FatalNames
import CallGate.Proofs.Policy.Screening
import CallGate.Proofs.Policy.Arity
import CallGate.Proofs.Policy.Totality
import CallGate.Proofs.Policy.Log
import CallGate.Proofs.Policy.Building
import CallGate.Proofs.Abi.TableReading
import CallGate.Proofs.Abi.Loading
import CallGate.Proofs.Abi.Registry
import CallGate.Proofs.Abi.RegistryLedger
import CallGate.Proofs.Policy.EntryOrder
import CallGate.Proofs.Policy.Meaning
import CallGate.Proofs.Wasm.CursorScan
import CallGate.Proofs.Wasm.Progress
import CallGate.Proofs.Wasm.CursorAgreement
import CallGate.Proofs.Wasm.FailClosed
import CallGate.Proofs.Policy.FittingCalls
import CallGate.Proofs.Wasm.Confinement
import CallGate.Proofs.Wasm.FaultOffset
import CallGate.Proofs.Wasm.CAbi
import CallGate.Proofs.Wasm.ScanErrors
import CallGate.Proofs.Policy.GuardRun
import CallGate.Proofs.Policy.Combination
import CallGate.Proofs.Abi.Reduction
import CallGate.Proofs.Policy.BitPatterns
import CallGate.Proofs.Policy.Retyping
import CallGate.Proofs.Policy.SettledArity
import CallGate.Proofs.Policy.ListForm
import CallGate.Proofs.Policy.Editing
import CallGate.Proofs.Text.LowerCase
import CallGate.Proofs.Number.Literal
import CallGate.Proofs.Policy.ActionSpelling
import CallGate.Proofs.Abi.ArgNotation
import CallGate.Proofs.Abi.SizeBesideType
import CallGate.Proofs.Policy.ActionOrder
import CallGate.Proofs.Policy.EmptyGuards
import CallGate.Proofs.Wasm.Utf8
import CallGate.Proofs.Wasm.CursorReading
import CallGate.Proofs.Wasm.NameEncoding
import CallGate.Proofs.Wasm.IntegerEncoding
import CallGate.Proofs.Wasm.CursorInteger
import CallGate.Proofs.Wasm.Relocation
import CallGate.Proofs.Wasm.CursorConfinement
