import SchemaGate.Command.Arguments
import SchemaGate.Command.Report
import SchemaGate.Command.Run
import SchemaGate.CompileError
import SchemaGate.Components
import SchemaGate.Credential.Compile
import SchemaGate.Credential.Requirement
import SchemaGate.Decimal.Binary64
import SchemaGate.Decimal.Literal
import SchemaGate.Decimal.Shortest
import SchemaGate.Entries
import SchemaGate.ErrorTree
import SchemaGate.Field
import SchemaGate.Format.Address
import SchemaGate.Format.Calendar
import SchemaGate.Format.Coded
import SchemaGate.Format.Registry
import SchemaGate.Json.Number
import SchemaGate.Json.Numeral
import SchemaGate.Json.Printer
import SchemaGate.Json.Reader
import SchemaGate.Json.Value
import SchemaGate.Main
import SchemaGate.Pattern.Bracket
import SchemaGate.Pattern.CharSet
import SchemaGate.Pattern.Edges
import SchemaGate.Pattern.Escape
import SchemaGate.Pattern.Expr
import SchemaGate.Pattern.Flags
import SchemaGate.Pattern.Parser
import SchemaGate.Pattern.Weight
import SchemaGate.Proofs.Credential.Check
import SchemaGate.Proofs.Entries
import SchemaGate.Proofs.Json.Equality
import SchemaGate.Proofs.Lists
import SchemaGate.Proofs.Request.Binding
import SchemaGate.Proofs.Request.Dependence
import SchemaGate.Proofs.Request.Values
import SchemaGate.Proofs.Schema.Conformance
import SchemaGate.Proofs.Schema.Idempotence
import SchemaGate.Proofs.Schema.Members
import SchemaGate.Proofs.Schema.Output
import SchemaGate.Proofs.Schema.Settled
import SchemaGate.Proofs.Schema.Tree
import SchemaGate.Request.Bind
import SchemaGate.Request.Decoder
import SchemaGate.Request.Document
import SchemaGate.Request.Form
import SchemaGate.Request.MediaType
import SchemaGate.Request.Operation
import SchemaGate.Request.Parameter
import SchemaGate.Request.Surface
import SchemaGate.Schema.Compile
import SchemaGate.Schema.Keyword
import SchemaGate.Schema.Scalar
import SchemaGate.Schema.Validate
import SchemaGate.Schema.Validator
import SchemaGate.Service.Echo
import SchemaGate.Service.Http
import SchemaGate.Service.Route
import SchemaGate.Service.Settings
import SchemaGate.Service.Table
import SchemaGate.Text.Blank
import SchemaGate.Text.OctetRuns
import SchemaGate.Text.Quoted
import SchemaGate.Text.Utf8
import SchemaGate.Unicode.Category
import SchemaGate.Unicode.Folding
import SchemaGate.Unicode.Property
import SchemaGate.Unicode.Runs
import SchemaGate.Unicode.Script
import SchemaGate.Yaml.Block
import SchemaGate.Yaml.Lexeme
import SchemaGate.Yaml.Line
import SchemaGate.Yaml.Node
import SchemaGate.Yaml.Plain
import SchemaGate.Yaml.Quoted
import SchemaGate.Yaml.Scalar
import SchemaGate.Yaml.Tag
import SchemaGate.Yaml.Token
import SchemaGate.Yaml.Value
import SchemaGate.Proofs.Credential.Scheme
import SchemaGate.Proofs.Credential.Policy
import SchemaGate.Proofs.Schema.Presence
import SchemaGate.Proofs.Schema.Relaxation
import SchemaGate.Proofs.Schema.Assembly
import SchemaGate.Proofs.Schema.Replacement
import SchemaGate.Proofs.Schema.Following
import SchemaGate.Proofs.Schema.Regular
import SchemaGate.Proofs.Schema.Cycles
import SchemaGate.Proofs.Schema.Expansion
import SchemaGate.Proofs.Schema.Coercion
import SchemaGate.Proofs.Json.Reordering
import SchemaGate.Proofs.Schema.KeyOrder
import SchemaGate.Proofs.Schema.Merging
import SchemaGate.Proofs.Service.Handling
import SchemaGate.Proofs.Schema.Rejected
import SchemaGate.Proofs.Schema.Mirror
import SchemaGate.Proofs.Yaml.DistinctKeys
import SchemaGate.Proofs.Request.Declared
import SchemaGate.Proofs.Service.Checking
import SchemaGate.Proofs.Request.FormData
import SchemaGate.Proofs.ErrorTree
import SchemaGate.Proofs.Schema.KeywordOrder
import SchemaGate.Proofs.Schema.SchemaOrder
import SchemaGate.Proofs.Schema.ObjectAnswer
import SchemaGate.Proofs.Schema.Defaults
import SchemaGate.Proofs.Schema.Combining
import SchemaGate.Proofs.Schema.Dispatch
import SchemaGate.Proofs.Decimal.Integers
import SchemaGate.Proofs.Schema.Integers
import SchemaGate.Proofs.Schema.DeclaredLimits
import SchemaGate.Proofs.Schema.ArrayAnswer
import SchemaGate.Proofs.Request.RepeatedValues
import SchemaGate.Proofs.Credential.Formula
import SchemaGate.Proofs.Request.Overriding
import SchemaGate.Proofs.Request.ReportedNames
import SchemaGate.Proofs.Request.MediaTypes
import SchemaGate.Proofs.Request.Registration
import SchemaGate.Proofs.Components
import SchemaGate.Proofs.Format.Dates
import SchemaGate.Proofs.Service.Answering
import SchemaGate.Proofs.Pattern.Matches
import SchemaGate.Proofs.Pattern.Search
import SchemaGate.Proofs.Pattern.Reading
import SchemaGate.Proofs.Format.MailAddresses
