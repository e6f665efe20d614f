import CallResolution.Assoc
import CallResolution.Call.Basic
import CallResolution.Command.Dump
import CallResolution.Command.Execute
import CallResolution.Command.Flag
import CallResolution.Command.Help
import CallResolution.Command.Invocation
import CallResolution.Command.Listing
import CallResolution.Diagnostic.Bag
import CallResolution.Diagnostic.Basic
import CallResolution.Diagnostic.Code
import CallResolution.Diagnostic.Document
import CallResolution.Diagnostic.Excerpt
import CallResolution.Diagnostic.Golden
import CallResolution.Diagnostic.Preview
import CallResolution.Diagnostic.Severity
import CallResolution.Digest.Sha256
import CallResolution.Document.Classes
import CallResolution.Document.Loader
import CallResolution.Document.Program
import CallResolution.Document.Schema
import CallResolution.Files.Loading
import CallResolution.Files.Tree
import CallResolution.Main
import CallResolution.Members.Accessor
import CallResolution.Members.Basic
import CallResolution.Members.Capture
import CallResolution.Members.Expanded
import CallResolution.Members.Predefined
import CallResolution.Members.Scope
import CallResolution.Members.Signature
import CallResolution.Proofs.Beside
import CallResolution.Proofs.Diagnostic.Golden
import CallResolution.Proofs.Diagnostic.Lines
import CallResolution.Proofs.Diagnostic.Previews
import CallResolution.Proofs.Diagnostic.Repeats
import CallResolution.Proofs.Document.Access
import CallResolution.Proofs.Document.Accessors
import CallResolution.Proofs.Document.Captures
import CallResolution.Proofs.Document.ClassNames
import CallResolution.Proofs.Document.Classes
import CallResolution.Proofs.Document.Completions
import CallResolution.Proofs.Document.Creations
import CallResolution.Proofs.Document.Cycles
import CallResolution.Proofs.Document.Exceptions
import CallResolution.Proofs.Document.Hierarchies
import CallResolution.Proofs.Document.Inference
import CallResolution.Proofs.Document.Loader
import CallResolution.Proofs.Document.Misspellings
import CallResolution.Proofs.Document.Outcomes
import CallResolution.Proofs.Document.Overloads
import CallResolution.Proofs.Document.Positions
import CallResolution.Proofs.Document.Program
import CallResolution.Proofs.Document.Raised
import CallResolution.Proofs.Document.Refusals
import CallResolution.Proofs.Document.Rewrites
import CallResolution.Proofs.Document.Selections
import CallResolution.Proofs.Document.Signatures
import CallResolution.Proofs.Document.Specificity
import CallResolution.Proofs.Document.Trailing
import CallResolution.Proofs.Document.Views
import CallResolution.Proofs.Document.WellFounded
import CallResolution.Proofs.Evolution
import CallResolution.Proofs.Members.Accessors
import CallResolution.Proofs.Members.Additions
import CallResolution.Proofs.Members.Bodies
import CallResolution.Proofs.Members.Broken
import CallResolution.Proofs.Members.Callables
import CallResolution.Proofs.Members.Captures
import CallResolution.Proofs.Members.Chains
import CallResolution.Proofs.Members.Closure
import CallResolution.Proofs.Members.Conflicts
import CallResolution.Proofs.Members.Distinct
import CallResolution.Proofs.Members.Forwarding
import CallResolution.Proofs.Members.Growth
import CallResolution.Proofs.Members.Lookup
import CallResolution.Proofs.Members.Merging
import CallResolution.Proofs.Members.Moves
import CallResolution.Proofs.Members.Origins
import CallResolution.Proofs.Members.Overriding
import CallResolution.Proofs.Members.Parameters
import CallResolution.Proofs.Members.Predefined
import CallResolution.Proofs.Members.Readings
import CallResolution.Proofs.Members.Signature
import CallResolution.Proofs.Members.Tables
import CallResolution.Proofs.Members.Texts
import CallResolution.Proofs.Resolve.BadParts
import CallResolution.Proofs.Resolve.Captured
import CallResolution.Proofs.Resolve.Competing
import CallResolution.Proofs.Resolve.Creation
import CallResolution.Proofs.Resolve.Enclosing
import CallResolution.Proofs.Resolve.Forwarding
import CallResolution.Proofs.Resolve.Generic
import CallResolution.Proofs.Resolve.Imports
import CallResolution.Proofs.Resolve.Inferred
import CallResolution.Proofs.Resolve.Instantiated
import CallResolution.Proofs.Resolve.Lasting
import CallResolution.Proofs.Resolve.Lexical
import CallResolution.Proofs.Resolve.Masking
import CallResolution.Proofs.Resolve.MethodCall
import CallResolution.Proofs.Resolve.NotFound
import CallResolution.Proofs.Resolve.Positions
import CallResolution.Proofs.Resolve.Progress
import CallResolution.Proofs.Resolve.Reach
import CallResolution.Proofs.Resolve.Run
import CallResolution.Proofs.Resolve.Selection
import CallResolution.Proofs.Resolve.Session
import CallResolution.Proofs.Resolve.Specificity
import CallResolution.Proofs.Resolve.Stages
import CallResolution.Proofs.Resolve.Views
import CallResolution.Proofs.Resolve.Waiting
import CallResolution.Proofs.Run.Restored
import CallResolution.Proofs.Run.Verdict
import CallResolution.Proofs.Source.Positions
import CallResolution.Proofs.Text.Separators
import CallResolution.Proofs.Trace.Ring
import CallResolution.Proofs.TypeExpr.Grammar
import CallResolution.Proofs.TypeExpr.Printing
import CallResolution.Proofs.TypeExpr.Reading
import CallResolution.Proofs.Types.Acyclic
import CallResolution.Proofs.Types.Alike
import CallResolution.Proofs.Types.Conversion
import CallResolution.Proofs.Types.Erasure
import CallResolution.Proofs.Types.Growth
import CallResolution.Proofs.Types.Hierarchy
import CallResolution.Proofs.Types.Instances
import CallResolution.Proofs.Types.Interning
import CallResolution.Proofs.Types.Making
import CallResolution.Proofs.Types.Matching
import CallResolution.Proofs.Types.Naming
import CallResolution.Proofs.Types.Positions
import CallResolution.Proofs.Types.Predefined
import CallResolution.Proofs.Types.Settled
import CallResolution.Resolve.Access
import CallResolution.Resolve.Applicable
import CallResolution.Resolve.Captured
import CallResolution.Resolve.Competing
import CallResolution.Resolve.Creation
import CallResolution.Resolve.Forwarded
import CallResolution.Resolve.Generic
import CallResolution.Resolve.MethodCall
import CallResolution.Resolve.NotFound
import CallResolution.Resolve.Options
import CallResolution.Resolve.Report
import CallResolution.Resolve.Run
import CallResolution.Resolve.Select
import CallResolution.Resolve.Session
import CallResolution.Resolve.Thrown
import CallResolution.Run.Cache
import CallResolution.Run.Codec
import CallResolution.Run.Entry
import CallResolution.Run.FileRun
import CallResolution.Run.Metrics
import CallResolution.Run.Progress
import CallResolution.Run.Result
import CallResolution.Run.Timer
import CallResolution.Settings.Config
import CallResolution.Settings.Discovery
import CallResolution.Source.File
import CallResolution.Source.FileSet
import CallResolution.Source.Path
import CallResolution.Source.Span
import CallResolution.Text.Calendar
import CallResolution.Text.CaseFold
import CallResolution.Text.Decimal
import CallResolution.Text.Grapheme
import CallResolution.Text.JsonText
import CallResolution.Text.Printable
import CallResolution.Text.Quoted
import CallResolution.Text.Shortest
import CallResolution.Text.Spelling
import CallResolution.Text.Style
import CallResolution.Text.Terminal
import CallResolution.Text.Utf8
import CallResolution.Text.Width
import CallResolution.Text.Words
import CallResolution.Toml.Scalar
import CallResolution.Toml.Statement
import CallResolution.Toml.Table
import CallResolution.Trace.Event
import CallResolution.Trace.Ring
import CallResolution.Trace.Tracer
import CallResolution.TypeExpr.Basic
import CallResolution.TypeExpr.Parser
import CallResolution.Types.Basic
import CallResolution.Types.Hierarchy
import CallResolution.Types.Making
import CallResolution.Types.Naming
import CallResolution.Types.Predefined
import CallResolution.Types.Subtype
import CallResolution.Version
import CallResolution.Yaml.Cursor
import CallResolution.Yaml.Decode
import CallResolution.Yaml.Node
import CallResolution.Yaml.Scalar
import CallResolution.Yaml.Tag
import CallResolution.Yaml.Token
import CallResolution.Yaml.Value
