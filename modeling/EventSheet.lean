import EventSheet.Catalog
import EventSheet.Catalog.Audit
import EventSheet.Catalog.Directory
import EventSheet.Catalog.Document
import EventSheet.Catalog.Json
import EventSheet.Catalog.Library
import EventSheet.Catalog.Loading
import EventSheet.Catalog.Registration
import EventSheet.Check
import EventSheet.Check.Json
import EventSheet.CommandLine.Arguments
import EventSheet.CommandLine.Output
import EventSheet.CommandLine.Run
import EventSheet.CommandLine.Sources
import EventSheet.Diagnostic
import EventSheet.Expr
import EventSheet.Expr.Json
import EventSheet.Expr.Reader
import EventSheet.Files
import EventSheet.Input
import EventSheet.Json.Basic
import EventSheet.Json.Decode
import EventSheet.Json.Printer
import EventSheet.Json.Reader
import EventSheet.Likeness
import EventSheet.Main
import EventSheet.NameMap
import EventSheet.Registry
import EventSheet.Registry.Listing
import EventSheet.Registry.Registration
import EventSheet.Report
import EventSheet.Scope
import EventSheet.Scope.Loading
import EventSheet.Signature
import EventSheet.Signature.Json
import EventSheet.Sorting
import EventSheet.Span
import EventSheet.Suggestion.Ranking
import EventSheet.Text.Position
import EventSheet.Text.Quoted
import EventSheet.ValueType
import EventSheet.Yaml.Node
import EventSheet.Yaml.Scalar
import EventSheet.Yaml.Shape
import EventSheet.Yaml.Token
import EventSheet.Proofs.Bindings
import EventSheet.Proofs.Catalog.Exactness
import EventSheet.Proofs.Catalog.Failure
import EventSheet.Proofs.Catalog.Order
import EventSheet.Proofs.Catalog.Warnings
import EventSheet.Proofs.Check.Acceptance
import EventSheet.Proofs.Check.Codes
import EventSheet.Proofs.Check.Context
import EventSheet.Proofs.Check.Depth
import EventSheet.Proofs.Check.Expected
import EventSheet.Proofs.Check.Parentheses
import EventSheet.Proofs.Check.Registries
import EventSheet.Proofs.Check.Renaming
import EventSheet.Proofs.Check.Required
import EventSheet.Proofs.Check.Spans
import EventSheet.Proofs.Check.Suggestions
import EventSheet.Proofs.Check.Variables
import EventSheet.Proofs.Registry.Locality
import EventSheet.Proofs.Registry.Nameless
import EventSheet.Proofs.Registry.Representation
import EventSheet.Proofs.Catalog.Merging
import EventSheet.Proofs.Catalog.Splitting
import EventSheet.Proofs.Catalog.Json
import EventSheet.Proofs.Expr.Json
import EventSheet.Proofs.Expr.Reader
import EventSheet.Proofs.CommandLine.Output
import EventSheet.Proofs.Scope.Layers
import EventSheet.Proofs.Registry.Visibility
import EventSheet.Proofs.Text.Position
import EventSheet.Proofs.Report.Carets
import EventSheet.Proofs.CommandLine.Lines
