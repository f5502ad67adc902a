import PlainTwin.Command.Arguments
import PlainTwin.Command.Explain
import PlainTwin.Command.Generate
import PlainTwin.Command.Invocation
import PlainTwin.Command.Report
import PlainTwin.Command.Setting
import PlainTwin.Conversion
import PlainTwin.Conversion.Expr
import PlainTwin.Conversion.Primitive
import PlainTwin.Decimal.Notation
import PlainTwin.Decimal.Shortest
import PlainTwin.Elastic
import PlainTwin.Files
import PlainTwin.Files.Path
import PlainTwin.Files.Pattern
import PlainTwin.Files.Search
import PlainTwin.Files.Tree
import PlainTwin.Form
import PlainTwin.Json
import PlainTwin.Json.Codec
import PlainTwin.Json.Doc
import PlainTwin.Json.Failure
import PlainTwin.Json.Octet
import PlainTwin.Json.Reader
import PlainTwin.Json.Record
import PlainTwin.Main
import PlainTwin.Proofs.CallChain
import PlainTwin.Proofs.Checking
import PlainTwin.Proofs.Drift
import PlainTwin.Proofs.ElasticStates
import PlainTwin.Proofs.PieceText
import PlainTwin.Proofs.PlainTrip
import PlainTwin.Proofs.Repair
import PlainTwin.Proofs.RichTrip
import PlainTwin.Proofs.Selection
import PlainTwin.Proofs.Settling
import PlainTwin.Proofs.StateWords
import PlainTwin.Proofs.StateWrap
import PlainTwin.Proofs.StepChain
import PlainTwin.Proofs.Splitting
import PlainTwin.Proofs.ValidTrip
import PlainTwin.Schema
import PlainTwin.Source.Arguments
import PlainTwin.Source.Attribute
import PlainTwin.Source.Generics
import PlainTwin.Source.Item
import PlainTwin.Source.Lexer
import PlainTwin.Source.Rule
import PlainTwin.Source.Token
import PlainTwin.Source.Type
import PlainTwin.Source.Value
import PlainTwin.Tag
import PlainTwin.Tag.Check
import PlainTwin.Tag.Parser
import PlainTwin.Text.CharSet
import PlainTwin.Text.Quoted
import PlainTwin.Tri
import PlainTwin.Twin
import PlainTwin.Twin.Emission
import PlainTwin.Twin.File
import PlainTwin.Twin.Plan
import PlainTwin.Twin.Record
import PlainTwin.Twin.Rich
import PlainTwin.Twin.Schema
import PlainTwin.Twin.SerdeOption
import PlainTwin.Proofs.TagGrammar
import PlainTwin.Proofs.JsonTrip
import PlainTwin.Proofs.ElasticRuns
import PlainTwin.Proofs.FieldCells
import PlainTwin.Proofs.RecordCheck
import PlainTwin.Proofs.RecordTrip
import PlainTwin.Proofs.TagPrinting
import PlainTwin.Proofs.KeyNames
import PlainTwin.Proofs.TreePlaces
import PlainTwin.Proofs.Preparation
import PlainTwin.Proofs.Workers
import PlainTwin.Proofs.Interleaving
import PlainTwin.Proofs.OutputFiles
import PlainTwin.Proofs.RecordText
import PlainTwin.Proofs.ValueText
import PlainTwin.Proofs.NumberText
import PlainTwin.Proofs.StringText
import PlainTwin.Proofs.WireTransport
import PlainTwin.Proofs.Success
import PlainTwin.Proofs.Directories
import PlainTwin.Proofs.ItemOutput
import PlainTwin.Proofs.ElasticReading
import PlainTwin.Proofs.FrontEnds
import PlainTwin.Proofs.UpToDate
import PlainTwin.Proofs.SecondRun
import PlainTwin.Proofs.Relaxation
import PlainTwin.Proofs.StateAgreement
import PlainTwin.Proofs.PieceConflicts
import PlainTwin.Proofs.ContainerFailures
import PlainTwin.Proofs.TagErrors
import PlainTwin.Proofs.Descent
import PlainTwin.Proofs.Refusals
import PlainTwin.Proofs.ElasticRefusal
import PlainTwin.Proofs.PieceOrder
import PlainTwin.Proofs.ExprTypes
import PlainTwin.Proofs.LengthSteps
import PlainTwin.Proofs.Planning
import PlainTwin.Proofs.Exclusion
import PlainTwin.Proofs.TwinSkeleton
import PlainTwin.Proofs.MarkerDefaults
import PlainTwin.Proofs.SearchSteps
import PlainTwin.Proofs.Logs
import PlainTwin.Proofs.Resolution
import PlainTwin.Proofs.Accounting
import PlainTwin.Proofs.ConstantReading
import PlainTwin.Proofs.EmittedChecks
