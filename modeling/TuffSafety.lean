import TuffSafety.Assigned
import TuffSafety.Ast
import TuffSafety.Ast.Decode
import TuffSafety.Ast.Encode
import TuffSafety.Ast.Parse
import TuffSafety.Ast.Parse.Stream
import TuffSafety.Bound
import TuffSafety.Checker
import TuffSafety.Checker.Fault
import TuffSafety.Checker.Rules
import TuffSafety.Command
import TuffSafety.Command.Arguments
import TuffSafety.Decimal.Layout
import TuffSafety.Decimal.Nearest
import TuffSafety.Decimal.Shortest
import TuffSafety.Declarations
import TuffSafety.Diagnostic
import TuffSafety.Diagnostic.Code
import TuffSafety.Diagnostic.Report
import TuffSafety.Diagnostic.Wording
import TuffSafety.Facts
import TuffSafety.Json.Decode
import TuffSafety.Json.Doc
import TuffSafety.Json.Number
import TuffSafety.Json.Print
import TuffSafety.Json.Value
import TuffSafety.Location
import TuffSafety.Main
import TuffSafety.OrderedMap
import TuffSafety.Pipeline
import TuffSafety.Project.FileTree
import TuffSafety.Project.Path
import TuffSafety.Project.Settings
import TuffSafety.Proofs.Admits
import TuffSafety.Proofs.Elementary
import TuffSafety.Scope
import TuffSafety.Text.Lines
import TuffSafety.Text.Shown
import TuffSafety.Text.Split
import TuffSafety.Text.Style
import TuffSafety.Text.Unseen
import TuffSafety.Token
import TuffSafety.Token.Scan
import TuffSafety.TypeInfo
import TuffSafety.TypeInfo.Compatible
import TuffSafety.TypeInfo.Patch
import TuffSafety.Proofs.Evaluation
import TuffSafety.Proofs.ExpressionSafety
import TuffSafety.Proofs.Execution
import TuffSafety.Proofs.FlowSafety
import TuffSafety.Proofs.Frame
import TuffSafety.Proofs.Modes
import TuffSafety.Proofs.Occurrence
import TuffSafety.Proofs.AssignedNames
import TuffSafety.Proofs.LoopInvariance
import TuffSafety.Proofs.Slots
import TuffSafety.Proofs.GlobalNarrowing
import TuffSafety.Proofs.Runs
import TuffSafety.Proofs.Noticing
import TuffSafety.Proofs.Effects
import TuffSafety.Proofs.GuardFacts
import TuffSafety.Proofs.NullSafety
import TuffSafety.Proofs.KnownTypes
import TuffSafety.Proofs.NonZeroSlots
import TuffSafety.Proofs.Confinement
import TuffSafety.Proofs.Agreement
import TuffSafety.Proofs.DeclarationOrder
import TuffSafety.Proofs.Placement
import TuffSafety.Proofs.Positions
import TuffSafety.Proofs.Reading
import TuffSafety.Proofs.DiagnosticPlaces
import TuffSafety.Proofs.JsonText
import TuffSafety.Proofs.RecordFields
import TuffSafety.Proofs.NodeDecoding
import TuffSafety.Proofs.RoundTrip
import TuffSafety.Proofs.TypeClosure
import TuffSafety.Proofs.OrderedBounds
import TuffSafety.Proofs.Narrowing
import TuffSafety.Proofs.ZeroExclusion
import TuffSafety.Proofs.NestedGuards
import TuffSafety.Proofs.Unlocated
import TuffSafety.Proofs.LocationIndependence
import TuffSafety.Proofs.Rendering
import TuffSafety.Proofs.ExpressionPrinting
import TuffSafety.Proofs.UnsignedSlots
import TuffSafety.Proofs.AliasGraph
import TuffSafety.Proofs.UnionTags
import TuffSafety.Proofs.AliasTransparency
import TuffSafety.Proofs.ParserLoops
import TuffSafety.Proofs.ResolutionDepth
import TuffSafety.Proofs.ArrayAccess
import TuffSafety.Proofs.RangeIterator
import TuffSafety.Proofs.WordRange
import TuffSafety.Proofs.LexicalCells
import TuffSafety.Proofs.IntervalExactness
import TuffSafety.Proofs.RefinedGuards
import TuffSafety.Proofs.ComparisonFacts
import TuffSafety.Proofs.TypeJoin
import TuffSafety.Proofs.DiagnosticLayout
import TuffSafety.Proofs.IntegerLiterals
import TuffSafety.Proofs.SettingsSearch
import TuffSafety.Proofs.NarrowingMeet
import TuffSafety.Proofs.FactLayers
