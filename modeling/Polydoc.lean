import Polydoc.Binary64.Basic
import Polydoc.Binary64.Integer
import Polydoc.Binary64.Shortest
import Polydoc.Binary64.Text
import Polydoc.Command.Arguments
import Polydoc.Command.Run
import Polydoc.Decode
import Polydoc.Document.Format
import Polydoc.Document.Reader
import Polydoc.Entries
import Polydoc.Gzip.Bits
import Polydoc.Gzip.Checksum
import Polydoc.Gzip.Inflate
import Polydoc.Gzip.Member
import Polydoc.Gzip.PrefixCode
import Polydoc.Json.Number
import Polydoc.Json.Reader
import Polydoc.Json.Writer
import Polydoc.Kind.Basic
import Polydoc.Kind.Form
import Polydoc.Main
import Polydoc.Navigation
import Polydoc.Node.Basic
import Polydoc.Node.Equality
import Polydoc.Path.Basic
import Polydoc.Path.Reader
import Polydoc.Proofs.Decode.Polymorphic
import Polydoc.Proofs.Decode.Steps
import Polydoc.Proofs.Entries
import Polydoc.Proofs.Fuel
import Polydoc.Proofs.Kind
import Polydoc.Proofs.Navigation.Overwriting
import Polydoc.Proofs.Navigation.Place
import Polydoc.Proofs.Path.Grammar
import Polydoc.Proofs.Path.Machine
import Polydoc.Proofs.Path.Reading
import Polydoc.Proofs.Path.Rendering
import Polydoc.Resolver.Basic
import Polydoc.Resolver.Build
import Polydoc.Resolver.Decode
import Polydoc.Resolver.Policy
import Polydoc.Resolver.Rule
import Polydoc.Scalar
import Polydoc.Schema.Basic
import Polydoc.Schema.Compile
import Polydoc.Schema.Reader
import Polydoc.Schema.Types
import Polydoc.Settings
import Polydoc.Text.Blank
import Polydoc.Text.CodeRange
import Polydoc.Text.Digit
import Polydoc.Text.Escaped
import Polydoc.Text.Letter
import Polydoc.Text.Lowercase
import Polydoc.Text.Table.Alphabetic
import Polydoc.Text.Table.CaseIgnorable
import Polydoc.Text.Table.Cased
import Polydoc.Text.Table.GraphemeExtend
import Polydoc.Text.Table.Graphic
import Polydoc.Text.Table.Lowercase
import Polydoc.Text.Table.Numeric
import Polydoc.Text.Utf8
import Polydoc.Toml.Access
import Polydoc.Toml.DateTime
import Polydoc.Toml.Draft
import Polydoc.Toml.Number
import Polydoc.Toml.Quoted
import Polydoc.Toml.Reader
import Polydoc.Toml.Statement
import Polydoc.Toml.Value
import Polydoc.Toml.Writer
import Polydoc.TypeMap
import Polydoc.Yaml.Cursor
import Polydoc.Yaml.Properties
import Polydoc.Yaml.Reader
import Polydoc.Yaml.Resolve
import Polydoc.Yaml.ScalarText
import Polydoc.Yaml.Token
import Polydoc.Yaml.Tokens
import Polydoc.Yaml.Tree
import Polydoc.Yaml.Value
import Polydoc.Proofs.Resolver.Agreement
import Polydoc.Proofs.Node.Fitting
import Polydoc.Proofs.Decode.Conforming
import Polydoc.Proofs.Decode.Runs
import Polydoc.Proofs.Decode.Denotation
import Polydoc.Proofs.Schema.References
import Polydoc.Proofs.Schema.Making
import Polydoc.Proofs.Schema.Compilation
import Polydoc.Proofs.Node.Plain
import Polydoc.Proofs.Decode.Redecoding
import Polydoc.Proofs.Path.Normal
import Polydoc.Proofs.Resolver.Building
import Polydoc.Proofs.Decode.Places
import Polydoc.Proofs.Decode.Filling
import Polydoc.Proofs.Node.Layers
import Polydoc.Proofs.Decode.Transparency
import Polydoc.Proofs.Document.Parsed
import Polydoc.Proofs.Decode.Copies
import Polydoc.Proofs.Schema.Naming
import Polydoc.Proofs.Decode.Slots
import Polydoc.Proofs.Decode.Retaining
import Polydoc.Proofs.Schema.Retention
import Polydoc.Proofs.Path.Deleting
import Polydoc.Proofs.Navigation.Backtracking
import Polydoc.Proofs.Command.Status
import Polydoc.Proofs.Node.Exact
import Polydoc.Proofs.Decode.Exactness
import Polydoc.Proofs.Decode.Calls
import Polydoc.Proofs.Path.Anchoring
import Polydoc.Proofs.Navigation.Composing
import Polydoc.Proofs.Path.DeadEnds
import Polydoc.Proofs.Decode.Idempotence
import Polydoc.Proofs.Decode.Committing
import Polydoc.Proofs.Decode.Merging
import Polydoc.Proofs.Decode.Spelling
import Polydoc.Proofs.Navigation.Congruence
import Polydoc.Proofs.Resolver.Congruence
import Polydoc.Proofs.Node.Reordered
import Polydoc.Proofs.Resolver.Respecting
import Polydoc.Proofs.Text.Decimal
import Polydoc.Proofs.Json.Scalars
import Polydoc.Proofs.Json.Rereading
import Polydoc.Proofs.Text.Utf8
import Polydoc.Proofs.Text.Lowercase
import Polydoc.Proofs.Document.Compression
import Polydoc.Proofs.Node.Unwrapping
import Polydoc.Proofs.Resolver.Equality
import Polydoc.Proofs.Binary64.Rounding
import Polydoc.Proofs.Binary64.Shortest
import Polydoc.Proofs.Yaml.FloatText
import Polydoc.Proofs.Yaml.KeyText
import Polydoc.Proofs.Yaml.Import
import Polydoc.Proofs.Results
import Polydoc.Proofs.Command.Canonical
import Polydoc.Proofs.Binary64.Integral
import Polydoc.Proofs.Decode.Integers
import Polydoc.Proofs.Text.Blank
import Polydoc.Proofs.Kind.Written
import Polydoc.Proofs.Schema.Recompilation
import Polydoc.Proofs.Decode.PlaceText
import Polydoc.Proofs.Decode.Locating
import Polydoc.Proofs.Path.Turns
import Polydoc.Proofs.Binary64.Nearest
import Polydoc.Proofs.Decode.Narrowing
import Polydoc.Proofs.Json.Fuel
import Polydoc.Proofs.Toml.Leaving
import Polydoc.Proofs.Toml.Fuel
import Polydoc.Proofs.Yaml.Fuel.Scalars
import Polydoc.Proofs.Yaml.Fuel.Tokens
import Polydoc.Proofs.Yaml.Fuel.Tree
